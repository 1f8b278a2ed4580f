import CCNxFileRepo.Foundations.Mending
import CCNxFileRepo.Repository.Serialization

/-!
# Creations that empty files

Between the test of a save and its creation another save may have created the file.  Should the
creation empty such a file, then what the other save has written is gone, and what it still writes
leaves a gap before it.  But the save that has emptied the file writes all of it again.  So an
object of a save that is over is complete unless another save is in the middle of this object, and
when the loads that were begun are over the disk is the one they leave in turn.
-/

namespace CCNxFileRepo

open Foundations CCNxFileRepoCache

/-- The position from which a save writes on, when its file is there. -/
def SavePhase.position? : SavePhase → Option ℕ
  | opening => some 0
  | writing raf _ => some raf.position
  | _ => none

namespace CCNxFileRepoCache

variable {lib : CCNxLibrary} {repo : CCNxFileRepoCache} {fs next : FileSystem}
  {object : CCNxMetaMessage} {phase after : SavePhase} {call : SaveCall}

variable (lib repo object) in
/-- The file of an object with saves at the positions in `others` and a save in `phase`. -/
def FileMends (others : Set ℕ) (fs : FileSystem) (phase : SavePhase) : Prop :=
  fs (repo.objectPath lib object) = none ∧ phase.position? = none ∧ phase ≠ .closed ∨
  ∃ contents, fs (repo.objectPath lib object) = some (.regular contents) ∧
    Mending (lib.createWireFormatBuffer object) contents
      (others ∪ {position | phase.position? = some position})

theorem FileMends.mono {others : Set ℕ} (h : FileMends lib repo object others fs phase)
    (hposition : phase.position? = none ∨ after.position? = phase.position?)
    (hafter : fs (repo.objectPath lib object) = none →
      after.position? = none ∧ after ≠ .closed) : FileMends lib repo object others fs after := by
  rcases h with ⟨hnone, -⟩ | ⟨contents, hfile, hmending⟩
  · exact Or.inl ⟨hnone, hafter hnone⟩
  · refine Or.inr ⟨contents, hfile, hmending.mono ?_⟩
    rcases hposition with hphase | hsame
    · simp [hphase]
    · rw [hsame]

theorem FileMends.exists_file {others : Set ℕ} (h : FileMends lib repo object others fs phase)
    (hphase : phase.position? ≠ none) :
    ∃ contents, fs (repo.objectPath lib object) = some (.regular contents) ∧
      Mending (lib.createWireFormatBuffer object) contents
        (others ∪ {position | phase.position? = some position}) :=
  h.resolve_left fun hnone ↦ hphase hnone.2.1

/-- A creation leaves an empty file or the file that was there. -/
theorem createRaced_cases (fs : FileSystem) (path : CString) (empties : Bool) :
    fs.createRaced path empties = Function.update fs path (some (.regular [])) ∨
      fs path ≠ none ∧ fs.createRaced path empties = fs := by
  unfold FileSystem.createRaced
  split
  · exact Or.inl rfl
  · unfold FileSystem.createNewFile
    split
    · rename_i hexists
      exact Or.inr ⟨Option.isSome_iff_ne_none.mp hexists, rfl⟩
    · exact Or.inl rfl

/-- Where the path of a file is changed, there is a file. -/
theorem eq_of_update_regular {path : CString} {contents : Bytes} (other : CString)
    (h : other ≠ path ∨ Function.update fs path (some (.regular contents)) other = none) :
    Function.update fs path (some (.regular contents)) other = fs other := by
  by_cases hother : other = path
  · subst hother
    simp at h
  · exact Function.update_of_ne hother _ _

theorem FileMends.create {others : Set ℕ} (h : FileMends lib repo object others fs .creating)
    (empties : Bool) :
    FileMends lib repo object others (fs.createRaced (repo.objectPath lib object) empties)
        .opening ∧
      ∀ path, path ≠ repo.objectPath lib object ∨
          fs.createRaced (repo.objectPath lib object) empties path = none →
        fs.createRaced (repo.objectPath lib object) empties path = fs path := by
  rcases createRaced_cases fs (repo.objectPath lib object) empties with hempty | ⟨hexists, hsame⟩
  · rw [hempty]
    exact ⟨Or.inr ⟨[], by simp, Mending.empty _ (Or.inr rfl)⟩, eq_of_update_regular⟩
  · rw [hsame]
    exact ⟨h.mono (Or.inl rfl) fun hnone ↦ absurd hnone hexists, fun _ _ ↦ rfl⟩

theorem FileMends.write {others : Set ℕ} {position size : ℕ} {left left' : Bytes}
    (hothers : ∀ position ∈ others, position ≤ wireLength lib object)
    (hposition : position ≤ wireLength lib object)
    (h : FileMends lib repo object others fs
      (.writing ⟨repo.objectPath lib object, position⟩ left)) :
    FileMends lib repo object others
      (fs.write ⟨repo.objectPath lib object, position⟩ .complete
        (((lib.createWireFormatBuffer object).drop position).take size))
      (.writing ⟨repo.objectPath lib object, position +
        (((lib.createWireFormatBuffer object).drop position).take size).length⟩ left') := by
  obtain ⟨contents, hfile, hmending⟩ := h.exists_file (by simp [SavePhase.position?])
  refine Or.inr ⟨_, by rw [FileSystem.write, Function.update_self], ?_⟩
  rw [FileSystem.contentsAt_regular hfile]
  refine hmending.move 0 size ?_ hposition ?_ (Or.inr rfl)
  · rintro other (hother | hother)
    · exact hothers other hother
    · cases hother
      exact hposition
  · rintro other (hother | hother)
    · exact Or.inl (Or.inl hother)
    · cases hother
      exact Or.inr rfl

/-- A save that has written everything can close its file. -/
theorem FileMends.close {others : Set ℕ} {raf : PARCRandomAccessFile} {left : Bytes}
    (h : FileMends lib repo object others fs (.writing raf left))
    (hposition : raf.position = wireLength lib object) :
    FileMends lib repo object others fs .closed := by
  obtain ⟨contents, hfile, hmending⟩ := h.exists_file (by simp [SavePhase.position?])
  refine Or.inr ⟨contents, hfile, hmending.leave ?_⟩
  rintro other (hother | hother)
  · exact Or.inl (Or.inl hother)
  · cases hother
    exact Or.inr hposition

/-- What a call of a save does when its creation may empty the file. -/
theorem callSave_mends {others : Set ℕ}
    (hstands : ∃ count, SaveStands lib repo object .complete phase count)
    (hothers : ∀ position ∈ others, position ≤ wireLength lib object)
    (hfile : FileMends lib repo object others fs phase)
    (hcall : callSave lib repo object .complete (phase, fs) call = some (after, next)) :
    (∃ count, SaveStands lib repo object .complete after count) ∧
      FileMends lib repo object others next after ∧
      ∀ path, path ≠ repo.objectPath lib object ∨ next path = none → next path = fs path := by
  obtain ⟨count, hstands⟩ := hstands
  cases hstands with
  | testing =>
      cases call with
      | test =>
          simp only [callSave, CCNxLibrary.reparse_eq, Option.some.injEq, Prod.mk.injEq] at hcall
          obtain ⟨rfl, rfl⟩ := hcall
          split
          · rename_i hexists
            exact ⟨⟨_, .opening le_rfl⟩, hfile.mono (Or.inl rfl)
              fun hnone ↦ absurd hnone (Option.isSome_iff_ne_none.mp hexists), fun _ _ ↦ rfl⟩
          · exact ⟨⟨0, .creating⟩, hfile.mono (Or.inl rfl) fun _ ↦ ⟨rfl, by simp⟩,
              fun _ _ ↦ rfl⟩
      | _ => cases hcall
  | creating =>
      cases call with
      | create empties =>
          simp only [callSave, CCNxLibrary.reparse_eq, Option.some.injEq, Prod.mk.injEq] at hcall
          obtain ⟨rfl, rfl⟩ := hcall
          exact ⟨⟨_, .opening le_rfl⟩, hfile.create empties⟩
      | _ => cases hcall
  | opening hcount =>
      cases call with
      | openFile =>
          obtain ⟨contents, hregular, -⟩ := hfile.exists_file (by simp [SavePhase.position?])
          simp only [callSave, CCNxLibrary.reparse_eq,
            FileSystem.openRandomAccess_regular hregular, Option.some.injEq,
            Prod.mk.injEq] at hcall
          obtain ⟨rfl, rfl⟩ := hcall
          exact ⟨⟨_, .writing (Nat.zero_le _) le_rfl⟩, hfile.mono (Or.inr rfl)
            fun hnone ↦ absurd (hnone.symm.trans hregular) (by simp), fun _ _ ↦ rfl⟩
      | _ => cases hcall
  | @writing position _ hposition hcount =>
      cases call with
      | write size =>
          simp only [callSave, Option.some.injEq, Prod.mk.injEq] at hcall
          obtain ⟨rfl, rfl⟩ := hcall
          exact ⟨⟨_, .write hposition size le_rfl⟩, hfile.write hothers hposition,
            eq_of_update_regular⟩
      | close =>
          obtain ⟨hleft, rfl, rfl⟩ := callSave_close_iff.mp hcall
          have hend : position = wireLength lib object :=
            le_antisymm hposition (List.drop_eq_nil_iff.mp hleft)
          exact ⟨⟨_, .closed le_rfl⟩, hfile.close hend, fun _ _ ↦ rfl⟩
      | _ => cases hcall
  | closed hcount => cases call <;> cases hcall

/-- A save has not come further than to the end of its object. -/
theorem SaveStands.position_le {count : WithBot ℕ} {position : ℕ}
    (h : SaveStands lib repo object .complete phase count)
    (hposition : phase.position? = some position) : position ≤ wireLength lib object := by
  cases h with
  | opening =>
      cases hposition
      exact Nat.zero_le _
  | writing hle =>
      cases hposition
      exact hle
  | _ => cases hposition

end CCNxFileRepoCache

/-! ## Loads -/

namespace Loader

variable (lib : CCNxLibrary) (repo : CCNxFileRepoCache) (request : LoadRequest)

/-- The load is in the middle of a save of the object and writes on from the position. -/
def WritesAt (loader : Loader) (object : CCNxMetaMessage) (position : ℕ) : Prop :=
  (request.messages lib)[loader.saved]? = some object ∧ loader.phase.position? = some position

/-- A save of the object is over. -/
def HasSaved (loader : Loader) (object : CCNxMetaMessage) : Prop :=
  ∃ index < loader.saved, (request.messages lib)[index]? = some object

/-- Where a load stands that writes all its bytes. -/
structure Races (loader : Loader) : Prop where
  current : ∀ object, (request.messages lib)[loader.saved]? = some object →
    ∃ count, SaveStands lib repo object .complete loader.phase count
  finished : (request.messages lib)[loader.saved]? = none → loader.phase = .testing
  not_closed : loader.phase ≠ .closed

variable {lib repo request} {loader : Loader} {object : CCNxMetaMessage} {after : SavePhase}

theorem writesAt_advance {position : ℕ} :
    (loader.advance after).WritesAt lib request object position ↔
      (request.messages lib)[loader.saved]? = some object ∧ after.position? = some position := by
  unfold advance WritesAt
  split
  · rename_i hclosed
    simp [hclosed, SavePhase.position?]
  · rfl

theorem hasSaved_advance : (loader.advance after).HasSaved lib request object ↔
    loader.HasSaved lib request object ∨
      after = .closed ∧ (request.messages lib)[loader.saved]? = some object := by
  unfold advance HasSaved
  split
  · rename_i hclosed
    simp only [Nat.lt_succ_iff_lt_or_eq, hclosed, true_and]
    constructor
    · rintro ⟨index, hlt | rfl, hindex⟩
      · exact Or.inl ⟨index, hlt, hindex⟩
      · exact Or.inr hindex
    · rintro (⟨index, hlt, hindex⟩ | hindex)
      · exact ⟨index, Or.inl hlt, hindex⟩
      · exact ⟨loader.saved, Or.inr rfl, hindex⟩
  · rename_i hclosed
    simp [hclosed]

theorem Races.advance (hobject : (request.messages lib)[loader.saved]? = some object)
    (hafter : ∃ count, SaveStands lib repo object .complete after count) :
    (loader.advance after).Races lib repo request := by
  unfold Loader.advance
  split
  · exact ⟨fun _ _ ↦ ⟨0, .testing⟩, fun _ ↦ rfl, by simp⟩
  · rename_i hclosed
    refine ⟨fun other hother ↦ ?_, fun hnone ↦ ?_, hclosed⟩
    · obtain rfl : object = other := Option.some.inj (hobject.symm.trans hother)
      exact hafter
    · rw [hobject] at hnone
      cases hnone

end Loader

/-! ## The invariant -/

namespace SharedDirectory

section Races

variable {ι κ : Type} (lib : CCNxLibrary) (repo : CCNxFileRepoCache) (request : ι → LoadRequest)

def positions (shared : SharedDirectory ι κ) (object : CCNxMetaMessage) : Set ℕ :=
  {position | ∃ loader, (shared.loaders loader).WritesAt lib (request loader) object position}

/-- What holds of an object whatever creations do. -/
def ObjectMends (shared : SharedDirectory ι κ) (object : CCNxMetaMessage) : Prop :=
  (shared.disk (repo.objectPath lib object) = none ∧
    (∀ loader, ¬ (shared.loaders loader).HasSaved lib (request loader) object) ∧
    shared.positions lib request object = ∅) ∨
  ∃ contents, shared.disk (repo.objectPath lib object) = some (.regular contents) ∧
    Mending (lib.createWireFormatBuffer object) contents (shared.positions lib request object)

/-- What holds after every call whatever creations do. -/
structure RaceInvariant (start shared : SharedDirectory ι κ) : Prop where
  elsewhere : ∀ path, (∀ object ∈ builds lib request, path ≠ repo.objectPath lib object) →
    shared.disk path = start.disk path
  files : ∀ object ∈ builds lib request, shared.ObjectMends lib repo request object
  begun : ∀ object ∈ builds lib request, shared.disk (repo.objectPath lib object) = none ∨
    ∃ loader, shared.loaders loader ≠ .fresh ∧ object ∈ (request loader).messages lib
  loaders : ∀ loader, (shared.loaders loader).Races lib repo (request loader)

variable {lib repo request} {digest : κ → Bytes} {start shared next final : SharedDirectory ι κ}
  {events : List (Event ι κ)} {loader : ι} {object message : CCNxMetaMessage} {after : SavePhase}
  {disk : FileSystem}

theorem RaceInvariant.initial (hstart : start.Initial repo) :
    RaceInvariant lib repo request start start where
  elsewhere _ _ := rfl
  files object _ := by
    refine Or.inl ⟨hstart.disk.no_entries _ (isEntryName_hex object), fun loader ↦ ?_, ?_⟩
    · rw [hstart.loaders loader]
      rintro ⟨index, hindex, -⟩
      exact absurd hindex (Nat.not_lt_zero _)
    · ext position
      simp [positions, Loader.WritesAt, hstart.loaders, Loader.fresh, SavePhase.position?]
  begun object _ := Or.inl (hstart.disk.no_entries _ (isEntryName_hex object))
  loaders loader := by
    rw [hstart.loaders loader]
    exact ⟨fun _ _ ↦ ⟨0, .testing⟩, fun _ ↦ rfl, by simp [Loader.fresh]⟩

variable (lib request) in
def otherPositions (shared : SharedDirectory ι κ) (loader : ι) (object : CCNxMetaMessage) : Set ℕ :=
  {position | ∃ other, other ≠ loader ∧
    (shared.loaders other).WritesAt lib (request other) object position}

/-- The positions of the saves of an object are those of the other loads and that of the load. -/
theorem positions_eq (shared : SharedDirectory ι κ) (loader : ι) (object : CCNxMetaMessage) :
    shared.positions lib request object = shared.otherPositions lib request loader object ∪
      {position | (shared.loaders loader).WritesAt lib (request loader) object position} := by
  ext position
  constructor
  · rintro ⟨other, hother⟩
    by_cases hsame : other = loader
    · subst hsame
      exact Or.inr hother
    · exact Or.inl ⟨other, hsame, hother⟩
  · rintro (⟨other, -, hother⟩ | hloader)
    · exact ⟨other, hother⟩
    · exact ⟨loader, hloader⟩

variable [DecidableEq ι]

variable (shared) in
def afterSave (loader : ι) (after : SavePhase) (disk : FileSystem) : SharedDirectory ι κ :=
  { shared with
    disk := disk
    loaders := Function.update shared.loaders loader ((shared.loaders loader).advance after) }

theorem loaders_afterSave_self :
    (shared.afterSave loader after disk).loaders loader =
      (shared.loaders loader).advance after := Function.update_self ..

theorem loaders_afterSave_of_ne {other : ι} (h : other ≠ loader) :
    (shared.afterSave loader after disk).loaders other = shared.loaders other :=
  Function.update_of_ne h _ _

theorem positions_afterSave :
    (shared.afterSave loader after disk).positions lib request object =
      shared.otherPositions lib request loader object ∪
        {position | ((request loader).messages lib)[(shared.loaders loader).saved]? =
          some object ∧ after.position? = some position} := by
  rw [positions_eq _ loader]
  congr 1
  · ext position
    constructor
    · rintro ⟨other, hne, hother⟩
      rw [loaders_afterSave_of_ne hne] at hother
      exact ⟨other, hne, hother⟩
    · rintro ⟨other, hne, hother⟩
      refine ⟨other, hne, ?_⟩
      rwa [loaders_afterSave_of_ne hne]
  · ext position
    rw [loaders_afterSave_self]
    exact Loader.writesAt_advance

theorem hasSaved_afterSave {other : ι} :
    ((shared.afterSave loader after disk).loaders other).HasSaved lib (request other) object →
      (shared.loaders other).HasSaved lib (request other) object ∨
        after = .closed ∧
          ((request loader).messages lib)[(shared.loaders loader).saved]? = some object := by
  intro h
  by_cases hsame : other = loader
  · subst hsame
    rw [loaders_afterSave_self] at h
    exact Loader.hasSaved_advance.mp h
  · rw [loaders_afterSave_of_ne hsame] at h
    exact Or.inl h

theorem ObjectMends.saved (h : shared.ObjectMends lib repo request message)
    (hmessage : ((request loader).messages lib)[(shared.loaders loader).saved]? = some message)
    (hfile : FileMends lib repo message (shared.otherPositions lib request loader message) disk
      after)
    (hnone : disk (repo.objectPath lib message) = none →
      shared.disk (repo.objectPath lib message) = none) :
    (shared.afterSave loader after disk).ObjectMends lib repo request message := by
  unfold ObjectMends
  rw [positions_afterSave]
  simp only [hmessage, true_and]
  rcases hfile with ⟨hgone, hposition, hclosed⟩ | hfile
  · rcases h with ⟨-, hsaved, hpositions⟩ | ⟨contents, hregular, -⟩
    · refine Or.inl ⟨hgone, fun other hother ↦ ?_, ?_⟩
      · rcases hasSaved_afterSave hother with hold | ⟨hafter, -⟩
        · exact hsaved other hold
        · exact hclosed hafter
      · rw [positions_eq shared loader] at hpositions
        simp [hposition, (Set.union_empty_iff.mp hpositions).1]
    · rw [hnone hgone] at hregular
      cases hregular
  · exact Or.inr hfile

theorem ObjectMends.unsaved (h : shared.ObjectMends lib repo request object)
    (hobject : ((request loader).messages lib)[(shared.loaders loader).saved]? ≠ some object)
    (hdisk : disk (repo.objectPath lib object) = shared.disk (repo.objectPath lib object)) :
    (shared.afterSave loader after disk).ObjectMends lib repo request object := by
  have hpositions : (shared.afterSave loader after disk).positions lib request object =
      shared.positions lib request object := by
    rw [positions_afterSave, positions_eq shared loader]
    simp [Loader.WritesAt, hobject]
  unfold ObjectMends
  rw [hpositions]
  change disk _ = none ∧ _ ∨ ∃ contents, disk _ = _ ∧ _
  rw [hdisk]
  refine h.imp_left fun ⟨hnone, hsaved, hempty⟩ ↦ ⟨hnone, fun other hother ↦ ?_, hempty⟩
  rcases hasSaved_afterSave hother with hold | ⟨-, hsame⟩
  · exact hsaved other hold
  · exact hobject hsame

variable [DecidableEq κ]

theorem RaceInvariant.save (hfree : lib.CollisionFreeOn (builds lib request))
    (h : RaceInvariant lib repo request start shared) {call : SaveCall}
    (hstep : shared.step lib repo request (fun _ ↦ noFailures) digest (.save loader call) =
      some next) : RaceInvariant lib repo request start next := by
  obtain ⟨message, after, disk, hmessage, hcall, rfl⟩ := step_save_iff.mp hstep
  change RaceInvariant lib repo request start (shared.afterSave loader after disk)
  have hmem : message ∈ builds lib request := mem_builds (List.mem_of_getElem? hmessage)
  have hbegun : (shared.loaders loader).advance after ≠ .fresh :=
    Loader.advance_ne_fresh _ (callSave_ne_testing hcall)
  have hothers : ∀ position ∈ shared.otherPositions lib request loader message,
      position ≤ wireLength lib message := by
    rintro position ⟨other, -, hother, hposition⟩
    obtain ⟨count, hstands⟩ := (h.loaders other).current message hother
    exact hstands.position_le hposition
  have hfile : FileMends lib repo message (shared.otherPositions lib request loader message)
      shared.disk (shared.loaders loader).phase := by
    have hobject := h.files message hmem
    unfold ObjectMends at hobject
    rw [positions_eq shared loader] at hobject
    simp only [Loader.WritesAt, hmessage, true_and] at hobject
    refine hobject.imp_left fun ⟨hnone, _, hempty⟩ ↦ ⟨hnone, ?_, (h.loaders loader).not_closed⟩
    have hphase := (Set.union_empty_iff.mp hempty).2
    exact Option.eq_none_iff_forall_ne_some.mpr (Set.eq_empty_iff_forall_notMem.mp hphase)
  obtain ⟨hstands, hmends, hframe⟩ :=
    callSave_mends ((h.loaders loader).current message hmessage) hothers hfile hcall
  have hpath {object : CCNxMetaMessage} (hobject : object ∈ builds lib request)
      (hne : object ≠ message) : repo.objectPath lib object ≠ repo.objectPath lib message :=
    fun hpath ↦ hne (hfree hobject hmem (objectPath_inj hpath))
  refine ⟨fun path hpath ↦ ?_, fun object hobject ↦ ?_, fun object hobject ↦ ?_, fun other ↦ ?_⟩
  · exact (hframe path (Or.inl (hpath message hmem))).trans (h.elsewhere path hpath)
  · by_cases hsame : object = message
    · subst hsame
      exact (h.files object hobject).saved hmessage hmends
        fun hnone ↦ (hframe _ (Or.inr hnone)).symm.trans hnone
    · refine (h.files object hobject).unsaved (fun heq ↦ hsame ?_)
        (hframe _ (Or.inl (hpath hobject hsame)))
      exact Option.some.inj (heq.symm.trans hmessage)
  · by_cases hsame : object = message
    · subst hsame
      refine Or.inr ⟨loader, ?_, List.mem_of_getElem? hmessage⟩
      rwa [loaders_afterSave_self]
    · change disk _ = none ∨ _
      rw [hframe _ (Or.inl (hpath hobject hsame))]
      refine (h.begun object hobject).imp_right fun ⟨mover, hmover, hbuilt⟩ ↦ ?_
      by_cases hloader : mover = loader
      · subst hloader
        refine ⟨mover, ?_, hbuilt⟩
        rwa [loaders_afterSave_self]
      · refine ⟨mover, ?_, hbuilt⟩
        rwa [loaders_afterSave_of_ne hloader]
  · by_cases hsame : other = loader
    · subst hsame
      rw [loaders_afterSave_self]
      exact Loader.Races.advance hmessage hstands
    · rw [loaders_afterSave_of_ne hsame]
      exact h.loaders other

theorem RaceInvariant.run (hfree : lib.CollisionFreeOn (builds lib request))
    (hrun : Transition.run (step lib repo request (fun _ ↦ noFailures) digest) shared events =
      some final) (h : RaceInvariant lib repo request start shared) :
    RaceInvariant lib repo request start final := by
  apply Transition.run_invariant _ hrun (fun _ _ ↦ trivial) h
  intro state event next _ hstate hstep
  cases event with
  | save loader call => exact hstate.save hfree hstep
  | lookup reader call =>
      obtain ⟨later, -, rfl⟩ := step_lookup_iff.mp hstep
      exact ⟨hstate.elsewhere, hstate.files, hstate.begun, hstate.loaders⟩

end Races

section Results

variable {ι κ : Type} {lib : CCNxLibrary} {repo : CCNxFileRepoCache} {request : ι → LoadRequest}
  {start shared : SharedDirectory ι κ}

theorem RaceInvariant.not_stopped (h : RaceInvariant lib repo request start shared) (loader : ι)
    (stop : Stop) : (shared.loaders loader).phase ≠ .stopped stop :=
  Loader.not_stopped
    (fun object hobject ↦ ⟨_, (h.loaders loader).current object hobject⟩)
    (h.loaders loader).finished stop

/-- An object that was saved is complete unless another save is in the middle of it. -/
theorem RaceInvariant.complete (h : RaceInvariant lib repo request start shared) {loader : ι}
    {object : CCNxMetaMessage}
    (hsaved : (shared.loaders loader).HasSaved lib (request loader) object) :
    shared.disk (repo.objectPath lib object) =
        some (.regular (lib.createWireFormatBuffer object)) ∨
      ∃ other position,
        (shared.loaders other).WritesAt lib (request other) object position := by
  obtain ⟨index, -, hindex⟩ := id hsaved
  rcases h.files object (mem_builds (List.mem_of_getElem? hindex)) with
    ⟨-, hnever, -⟩ | ⟨contents, hfile, hmending⟩
  · exact absurd hsaved (hnever loader)
  · rcases (shared.positions lib request object).eq_empty_or_nonempty with
      hnone | ⟨position, other, hother⟩
    · rw [hnone] at hmending
      exact Or.inl (hmending.eq ▸ hfile)
    · exact Or.inr ⟨other, position, hother⟩

/-- When the loads of `order` are over and no other one was begun, the objects of these loads are
complete and there are no other ones. -/
theorem RaceInvariant.file_eq (h : RaceInvariant lib repo request start shared) {order : List ι}
    (hover : ∀ loader ∈ order,
      ((request loader).messages lib).length ≤ (shared.loaders loader).saved)
    (hfresh : ∀ loader, loader ∉ order → shared.loaders loader = .fresh)
    {object : CCNxMetaMessage} (hobject : object ∈ builds lib request) :
    shared.disk (repo.objectPath lib object) = storedFile lib object
      (completeProgress lib (historyMessages lib (order.map request)) object) := by
  by_cases hmem : object ∈ historyMessages lib (order.map request)
  · rw [storedFile_of_wireLength_le (wireLength_le_completeProgress_iff.mpr hmem)]
    obtain ⟨built, hbuilt, hmessage⟩ := List.mem_flatMap.mp hmem
    obtain ⟨loader, hloader, rfl⟩ := List.mem_map.mp hbuilt
    obtain ⟨index, hget⟩ := List.mem_iff_getElem?.mp hmessage
    have hlength := (List.getElem?_eq_some_iff.mp hget).1
    have hsaved : (shared.loaders loader).HasSaved lib (request loader) object :=
      ⟨index, hlength.trans_le (hover loader hloader), hget⟩
    refine (h.complete hsaved).resolve_right ?_
    rintro ⟨other, position, hother, hposition⟩
    by_cases hbegun : other ∈ order
    · exact absurd (List.getElem?_eq_some_iff.mp hother).1 (Nat.not_lt.mpr (hover other hbegun))
    · rw [hfresh other hbegun] at hposition
      cases hposition
  · rw [completeProgress_eq_bot hmem, storedFile_bot]
    refine (h.begun object hobject).resolve_right ?_
    rintro ⟨loader, hloader, hbuilt⟩
    have hbegun : loader ∈ order := by
      by_contra hnot
      exact hloader (hfresh loader hnot)
    exact hmem (List.mem_flatMap.mpr ⟨_, List.mem_map_of_mem hbegun, hbuilt⟩)

/-- So the disk is that of the loads of `order` in turn. -/
theorem RaceInvariant.runLoads (hfree : lib.CollisionFreeOn (builds lib request))
    (hstart : start.Initial repo) (h : RaceInvariant lib repo request start shared)
    {order : List ι}
    (hover : ∀ loader ∈ order,
      ((request loader).messages lib).length ≤ (shared.loaders loader).saved)
    (hfresh : ∀ loader, loader ∉ order → shared.loaders loader = .fresh) :
    CCNxFileRepoCache.runLoads lib repo
        (order.map fun loader ↦ (request loader, noFailures)) start.disk =
      .ok (order.map fun loader ↦ some ((request loader).root lib), shared.disk) := by
  have hmem : ∀ message ∈ historyMessages lib (order.map request),
      message ∈ builds lib request := by
    intro message hmessage
    obtain ⟨built, hbuilt, hmember⟩ := List.mem_flatMap.mp hmessage
    obtain ⟨loader, -, rfl⟩ := List.mem_map.mp hbuilt
    exact mem_builds hmember
  obtain ⟨serial, hsaved, hserial⟩ :=
    (hstart.disk.represents (builds lib request)).saveAll hfree hmem noFailures
  rw [savedEntries_noFailures, ← completeProgress] at hserial
  have hdisk : serial = shared.disk := by
    funext path
    by_cases hpath : ∃ object ∈ builds lib request, path = repo.objectPath lib object
    · obtain ⟨object, hobject, rfl⟩ := hpath
      rw [hserial.files object hobject, h.file_eq hover hfresh hobject]
    · have hother : ∀ object ∈ builds lib request, path ≠ repo.objectPath lib object :=
        fun object hobject heq ↦ hpath ⟨object, hobject, heq⟩
      calc
        serial path = start.disk path :=
          saveAll_frame hsaved fun message hmessage ↦ hother message (hmem message hmessage)
        _ = shared.disk path := (h.elsewhere path hother).symm
  have hruns := @runLoads_noFailures lib repo (order.map request) start.disk
  rw [hsaved, hdisk, List.map_map, List.map_map] at hruns
  exact hruns

end Results

section Main

variable {ι κ : Type} [DecidableEq ι] [DecidableEq κ]

/-- Whether creations leave alone or empty the files that have appeared since the test, and however
the calls of any number of loads and lookups interleave: no load meets a missing file, an object of
a save that is over is complete unless another save is in the middle of this object, and whenever
the loads that were begun are over the disk is the one that they leave one after the other, in any
order. -/
theorem raced_creates_mend (lib : CCNxLibrary) (repo : CCNxFileRepoCache)
    (request : ι → LoadRequest) (digest : κ → Bytes)
    (hfree : lib.CollisionFreeOn (builds lib request)) (start : SharedDirectory ι κ)
    (hstart : start.Initial repo) (events : List (Event ι κ)) (final : SharedDirectory ι κ)
    (hrun : Transition.run (step lib repo request (fun _ ↦ noFailures) digest) start events =
      some final) :
    (∀ loader stop, (final.loaders loader).phase ≠ .stopped stop) ∧
    (∀ loader object, (final.loaders loader).HasSaved lib (request loader) object →
      final.disk (repo.objectPath lib object) =
          some (.regular (lib.createWireFormatBuffer object)) ∨
        ∃ other position,
          (final.loaders other).WritesAt lib (request other) object position) ∧
    ∀ order : List ι,
      (∀ loader ∈ order,
        ((request loader).messages lib).length ≤ (final.loaders loader).saved) →
      (∀ loader, loader ∉ order → final.loaders loader = .fresh) →
      runLoads lib repo (order.map fun loader ↦ (request loader, noFailures)) start.disk =
        .ok (order.map fun loader ↦ some ((request loader).root lib), final.disk) := by
  have hfinal := RaceInvariant.run hfree hrun (.initial hstart)
  exact ⟨hfinal.not_stopped, fun _ _ hsaved ↦ hfinal.complete hsaved,
    fun _ hover hfresh ↦ hfinal.runLoads hfree hstart hover hfresh⟩

end Main

section Sample

open ReferenceLibrary

/-- The run of `raceEvents` in which the second load empties the chunk of which the first one has
written four bytes. -/
theorem raced_creates_mend_emptied : ∃ final,
    Transition.run (step referenceLibrary raceRepo raceRequest (fun _ ↦ noFailures) raceDigest)
      raceStart (raceEvents true) = some final ∧
    (∀ loader stop, (final.loaders loader).phase ≠ .stopped stop) ∧
    runLoads referenceLibrary raceRepo
        [(raceRequest true, noFailures), (raceRequest false, noFailures)] raceRepo.freshDisk =
      .ok ([some ((raceRequest true).root referenceLibrary),
        some ((raceRequest false).root referenceLibrary)], final.disk) := by
  obtain ⟨final, hrun, hloaders, -⟩ := exists_run_raceEvents true
  obtain ⟨hstopped, -, hserial⟩ := raced_creates_mend referenceLibrary raceRepo raceRequest
    raceDigest (collisionFreeOn _) raceStart raceStart_initial (raceEvents true) final hrun
  refine ⟨final, hrun, hstopped, ?_⟩
  refine hserial [true, false] (fun loader _ ↦ race_over hloaders loader) ?_
  intro loader hloader
  cases loader <;> simp at hloader

end Sample

end SharedDirectory

end CCNxFileRepo
