import CCNxFileRepo.Repository.Interleaving

/-!
# Loads at the same time and loads in turn

What loads at the same time leave is what loads in turn leave.  While they run no process meets a
missing file, nothing but starts of objects is on the disk, and a load that is left to itself comes
to its end, wherever the others stand or were killed.
-/

namespace CCNxFileRepo

open Foundations CCNxFileRepoCache

/-- The calls that a save has before it when nothing stops it and it writes in one piece. -/
def SavePhase.callsLeft : SavePhase → ℕ
  | testing => 5
  | creating => 4
  | opening => 3
  | writing _ (_ :: _) => 2
  | writing _ [] => 1
  | closed => 0
  | stopped _ => 0

theorem SavePhase.callsLeft_le (phase : SavePhase) : phase.callsLeft ≤ 5 := by
  cases phase with
  | writing raf left => cases left <;> simp [callsLeft]
  | _ => simp [callsLeft]

def Loader.callsLeft (lib : CCNxLibrary) (request : LoadRequest) (loader : Loader) : ℕ :=
  5 * ((request.messages lib).length - loader.saved) + loader.phase.callsLeft - 5

/-- A call of the save that is going on brings its load nearer to the end. -/
theorem Loader.callsLeft_advance_lt {lib : CCNxLibrary} {request : LoadRequest} {loader : Loader}
    {after : SavePhase} (hleft : loader.saved < (request.messages lib).length)
    (hless : after.callsLeft < loader.phase.callsLeft) :
    (loader.advance after).callsLeft lib request < loader.callsLeft lib request := by
  unfold Loader.callsLeft Loader.advance
  split
  · change 5 * ((request.messages lib).length - (loader.saved + 1)) + 5 - 5 < _
    omega
  · simp only
    omega

/-- A save that is not over has a call that brings it nearer to its end. -/
theorem CCNxFileRepoCache.Represents.exists_call {lib : CCNxLibrary} {repo : CCNxFileRepoCache}
    {objects : Set CCNxMetaMessage} {fs : FileSystem} {progress : Progress}
    {object : CCNxMetaMessage} {outcome : WriteOutcome} {phase : SavePhase}
    (h : Represents lib repo objects fs progress) (hobject : object ∈ objects)
    (hstands : SaveStands lib repo object outcome phase (progress object))
    (hphase : phase ≠ .closed) :
    ∃ call after next, call ≠ .create true ∧
      CCNxFileRepoCache.callSave lib repo object outcome (phase, fs) call = some (after, next) ∧
      after.callsLeft < phase.callsLeft := by
  cases hstands with
  | testing =>
      refine ⟨.test, _, _, by simp, rfl, ?_⟩
      split <;> simp [SavePhase.callsLeft]
  | creating => exact ⟨.create false, _, _, by simp, rfl, by simp [SavePhase.callsLeft]⟩
  | opening hcount =>
      refine ⟨.openFile, .writing ⟨repo.objectPath lib object, 0⟩
        (outcome.stored (lib.createWireFormatBuffer object)), fs, by simp, ?_, ?_⟩
      · simp only [CCNxFileRepoCache.callSave, CCNxLibrary.reparse_eq,
          h.openRandomAccess hobject hcount]
      · cases outcome.stored (lib.createWireFormatBuffer object) <;> simp [SavePhase.callsLeft]
  | @writing position =>
      generalize (outcome.stored (lib.createWireFormatBuffer object)).drop position = left
      cases left with
      | nil => exact ⟨.close, _, _, by simp, rfl, by simp [SavePhase.callsLeft]⟩
      | cons byte rest =>
          exact ⟨.write (rest.length + 1), _, _, by simp, rfl, by simp [SavePhase.callsLeft]⟩
  | closed => exact absurd rfl hphase

namespace SharedDirectory

section Results

variable {ι κ : Type} [DecidableEq ι] [DecidableEq κ] {lib : CCNxLibrary}
  {repo : CCNxFileRepoCache} {request : ι → LoadRequest} {outcomes : ι → ℕ → WriteOutcome}
  {digest : κ → Bytes} {start shared : SharedDirectory ι κ} {earlier : List (Event ι κ)}
  {progress : Progress}

/-- Under the name of an object there is nothing but a start of it. -/
theorem Invariant.file
    (h : Invariant lib repo request outcomes digest start earlier shared progress)
    {object : CCNxMetaMessage} (hobject : object ∈ builds lib request) :
    shared.disk (repo.objectPath lib object) = none ∨
      ∃ contents, shared.disk (repo.objectPath lib object) = some (.regular contents) ∧
        contents <+: lib.createWireFormatBuffer object := by
  rw [h.represents.files object hobject]
  cases progress object using WithBot.recBotCoe with
  | bot => exact Or.inl rfl
  | coe count => exact Or.inr ⟨_, rfl, List.take_prefix _ _⟩

theorem Invariant.stored
    (h : Invariant lib repo request outcomes digest start earlier shared progress) {loader : ι}
    {index : ℕ} {object : CCNxMetaMessage} (hindex : index < (shared.loaders loader).saved)
    (hobject : ((request loader).messages lib)[index]? = some object) :
    ∃ contents, shared.disk (repo.objectPath lib object) = some (.regular contents) ∧
      (outcomes loader index).stored (lib.createWireFormatBuffer object) <+: contents := by
  obtain ⟨reach, hle, -, hfile⟩ := h.represents.exists_regular
    (mem_builds (List.mem_of_getElem? hobject))
    ((h.loaders loader).stored index object hindex hobject)
  refine ⟨_, hfile, ?_⟩
  rw [WriteOutcome.stored_eq_take]
  exact List.take_prefix_take_left hle

/-- No load meets a missing file. -/
theorem Invariant.loader_not_stopped
    (h : Invariant lib repo request outcomes digest start earlier shared progress) (loader : ι)
    (stop : Stop) : (shared.loaders loader).phase ≠ .stopped stop :=
  Loader.not_stopped
    (fun object hobject ↦ ⟨_, _, (h.loaders loader).current object hobject⟩)
    (h.loaders loader).finished stop

theorem Invariant.lookup_not_stopped
    (h : Invariant lib repo request outcomes digest start earlier shared progress) (reader : κ)
    (stop : Stop) : shared.lookups reader ≠ .stopped stop := by
  intro hstop
  have hstands := h.lookups reader
  rw [hstop] at hstands
  cases hstands

/-- A load that is not over has a call that brings it nearer to its end. -/
theorem Invariant.exists_step (hfree : lib.CollisionFreeOn (builds lib request))
    (h : Invariant lib repo request outcomes digest start earlier shared progress) {loader : ι}
    (hleft : (shared.loaders loader).saved < ((request loader).messages lib).length) :
    ∃ call next reached, call ≠ .create true ∧
      shared.step lib repo request outcomes digest (.save loader call) = some next ∧
      Invariant lib repo request outcomes digest start (earlier ++ [.save loader call]) next
        reached ∧
      (next.loaders loader).callsLeft lib (request loader) <
        (shared.loaders loader).callsLeft lib (request loader) := by
  have hobject := List.getElem?_eq_getElem hleft
  have hmem := mem_builds (List.mem_of_getElem? hobject)
  obtain ⟨call, after, disk, hkeeps, hcall, hless⟩ := h.represents.exists_call hmem
    ((h.loaders loader).current _ hobject) (h.loaders loader).not_closed
  obtain ⟨next, hnext⟩ : ∃ next, { shared with
    disk := disk
    loaders := Function.update shared.loaders loader
      ((shared.loaders loader).advance after) } = next := ⟨_, rfl⟩
  have hstep : shared.step lib repo request outcomes digest (.save loader call) = some next :=
    step_save_iff.mpr ⟨_, after, disk, hobject, hcall, hnext⟩
  obtain ⟨reached, hreached⟩ := h.save hfree hkeeps hstep
  refine ⟨call, next, reached, hkeeps, hstep, hreached, ?_⟩
  subst hnext
  simpa only [Function.update_self] using Loader.callsLeft_advance_lt hleft hless

variable (lib repo request outcomes digest start) in
/-- A load that has `left` calls before it when it is left to itself. -/
def Underway (loader : ι) (shared : SharedDirectory ι κ) (left : ℕ) : Prop :=
  (∃ earlier progress,
    Invariant lib repo request outcomes digest start earlier shared progress) ∧
  (shared.loaders loader).callsLeft lib (request loader) = left

/-- A load that is left to itself comes to its end. -/
theorem Underway.exists_run (hfree : lib.CollisionFreeOn (builds lib request)) {loader : ι}
    {left : ℕ} (h : Underway lib repo request outcomes digest start loader shared left) :
    ∃ events final less, events.length ≤ 1 * left ∧
      (∀ event ∈ events, event.KeepsFiles ∧ event.IsOf loader) ∧
      Transition.run (step lib repo request outcomes digest) shared events = some final ∧
      Underway lib repo request outcomes digest start loader final less ∧
      ((request loader).messages lib).length ≤ (final.loaders loader).saved := by
  apply Transition.exists_run_of_progress _ h
  rintro state left ⟨⟨earlier, progress, hstate⟩, rfl⟩
  rcases Nat.lt_or_ge (state.loaders loader).saved ((request loader).messages lib).length
    with hleft | hdone
  · obtain ⟨call, next, reached, hcall, hstep, hnext, hless⟩ := hstate.exists_step hfree hleft
    refine Or.inr ⟨[.save loader call], next, _, hless, le_rfl, ?_,
      Transition.run_singleton.trans hstep, ⟨_, reached, hnext⟩, rfl⟩
    simpa using ⟨hcall, rfl⟩
  · exact Or.inl hdone

/-- When the loads of `order` are over and no other one was begun, the progress is that of the loads
of `order` in turn. -/
theorem Invariant.progress_eq
    (h : Invariant lib repo request outcomes digest start earlier shared progress) {order : List ι}
    (hover : ∀ loader ∈ order,
      ((request loader).messages lib).length ≤ (shared.loaders loader).saved)
    (hfresh : ∀ loader, loader ∉ order → shared.loaders loader = .fresh) :
    progress =
      historyProgress lib (order.map fun loader ↦ (request loader, outcomes loader)) := by
  apply le_antisymm
  · intro object
    rcases h.begun object with hbot | ⟨loader, index, hbegun, hindex, hcount⟩
    · rw [hbot]
      exact bot_le
    · have hloader : loader ∈ order := by
        by_contra hnot
        exact hbegun (hfresh loader hnot)
      rw [historyProgress, le_raiseAll_iff]
      refine Or.inr ⟨(object, _), ?_, rfl, hcount⟩
      rw [mem_historyEntries]
      exact ⟨_, List.mem_map_of_mem hloader, mem_savedEntries.mpr ⟨index, hindex, rfl⟩⟩
  · rw [historyProgress, raiseAll_le_iff]
    refine ⟨fun _ ↦ bot_le, fun entry hentry ↦ ?_⟩
    obtain ⟨attempt, hattempt, hsaved⟩ := mem_historyEntries.mp hentry
    obtain ⟨loader, hloader, rfl⟩ := List.mem_map.mp hattempt
    obtain ⟨index, hindex, hcount⟩ := mem_savedEntries.mp hsaved
    rw [hcount]
    have hlt : index < ((request loader).messages lib).length :=
      (List.getElem?_eq_some_iff.mp hindex).1
    exact (h.loaders loader).stored index entry.1 (hlt.trans_le (hover loader hloader)) hindex

/-- So the disk is that of the loads of `order` in turn. -/
theorem Invariant.runLoads (hfree : lib.CollisionFreeOn (builds lib request))
    (hstart : start.Initial repo)
    (h : Invariant lib repo request outcomes digest start earlier shared progress) {order : List ι}
    (hover : ∀ loader ∈ order,
      ((request loader).messages lib).length ≤ (shared.loaders loader).saved)
    (hfresh : ∀ loader, loader ∉ order → shared.loaders loader = .fresh) :
    CCNxFileRepoCache.runLoads lib repo
        (order.map fun loader ↦ (request loader, outcomes loader)) start.disk =
      .ok (order.map fun loader ↦ some ((request loader).root lib), shared.disk) := by
  have hmem : ∀ attempt ∈ order.map fun loader ↦ (request loader, outcomes loader),
      ∀ message ∈ attempt.1.messages lib, message ∈ builds lib request := by
    intro attempt hattempt message hmessage
    obtain ⟨loader, -, rfl⟩ := List.mem_map.mp hattempt
    exact mem_builds hmessage
  obtain ⟨serial, hruns, hserial⟩ :=
    (hstart.disk.represents (builds lib request)).runLoads_entries hfree hmem
  rw [← historyProgress, ← h.progress_eq hover hfresh] at hserial
  have hdisk : serial = shared.disk := by
    apply hserial.unique h.represents
    intro path hpath
    calc
      serial path = start.disk path := runLoads_frame hruns fun attempt hattempt message hmessage ↦
        hpath message (hmem attempt hattempt message hmessage)
      _ = shared.disk path := (h.elsewhere path hpath).symm
  rw [hruns, hdisk, List.map_map]
  rfl

end Results

section Main

variable {ι κ : Type} [DecidableEq ι] [DecidableEq κ]

/-- However the calls of any number of loads and lookups interleave, and wherever some of them were
killed: no process meets a missing file, under the name of an object there is nothing but a start of
it, what the saves have stored is there, and whenever the loads that were begun are over the disk is
the one that they leave one after the other, in any order. -/
theorem loads_serialize (lib : CCNxLibrary) (repo : CCNxFileRepoCache) (request : ι → LoadRequest)
    (outcomes : ι → ℕ → WriteOutcome) (digest : κ → Bytes)
    (hdigest : ∀ reader, digest reader ≠ []) (hfree : lib.CollisionFreeOn (builds lib request))
    (start : SharedDirectory ι κ) (hstart : start.Initial repo) (events : List (Event ι κ))
    (hkeeps : ∀ event ∈ events, event.KeepsFiles) (final : SharedDirectory ι κ)
    (hrun : Transition.run (step lib repo request outcomes digest) start events = some final) :
    (∀ loader stop, (final.loaders loader).phase ≠ .stopped stop) ∧
    (∀ reader stop, final.lookups reader ≠ .stopped stop) ∧
    (∀ object ∈ builds lib request, final.disk (repo.objectPath lib object) = none ∨
      ∃ contents, final.disk (repo.objectPath lib object) = some (.regular contents) ∧
        contents <+: lib.createWireFormatBuffer object) ∧
    (∀ loader index object, index < (final.loaders loader).saved →
      ((request loader).messages lib)[index]? = some object →
      ∃ contents, final.disk (repo.objectPath lib object) = some (.regular contents) ∧
        (outcomes loader index).stored (lib.createWireFormatBuffer object) <+: contents) ∧
    ∀ order : List ι,
      (∀ loader ∈ order,
        ((request loader).messages lib).length ≤ (final.loaders loader).saved) →
      (∀ loader, loader ∉ order → final.loaders loader = .fresh) →
      runLoads lib repo (order.map fun loader ↦ (request loader, outcomes loader)) start.disk =
        .ok (order.map fun loader ↦ some ((request loader).root lib), final.disk) := by
  obtain ⟨progress, hfinal⟩ := Invariant.run hfree hdigest hstart hkeeps hrun
  exact ⟨hfinal.loader_not_stopped, hfinal.lookup_not_stopped, fun _ hobject ↦ hfinal.file hobject,
    fun _ _ _ hindex hobject ↦ hfinal.stored hindex hobject,
    fun _ hover hfresh ↦ hfinal.runLoads hfree hstart hover hfresh⟩

/-- However the calls interleave, every answer of a lookup is the one of a lookup that nothing
interferes with, at the moment of one of its own calls. -/
theorem lookups_linearize (lib : CCNxLibrary) (repo : CCNxFileRepoCache)
    (request : ι → LoadRequest) (outcomes : ι → ℕ → WriteOutcome) (digest : κ → Bytes)
    (hdigest : ∀ reader, digest reader ≠ []) (hfree : lib.CollisionFreeOn (builds lib request))
    (start : SharedDirectory ι κ) (hstart : start.Initial repo) (events : List (Event ι κ))
    (hkeeps : ∀ event ∈ events, event.KeepsFiles) (final : SharedDirectory ι κ)
    (hrun : Transition.run (step lib repo request outcomes digest) start events = some final)
    (reader : κ) (answer : Option Bytes) (hanswer : final.lookups reader = .answered answer) :
    ∃ first call rest moment, events = first ++ .lookup reader call :: rest ∧
      Transition.run (step lib repo request outcomes digest) start first = some moment ∧
      createWireEncodedMessageWithDigest lib repo moment.disk (digest reader) = .ok answer := by
  obtain ⟨progress, hfinal⟩ := Invariant.run hfree hdigest hstart hkeeps hrun
  have hstands := hfinal.lookups reader
  rw [hanswer] at hstands
  cases hstands with
  | answered hright => exact hright

/-- From every state that is reached a load that is left to itself comes to its end, with at most
five calls for each object that is not saved yet. -/
theorem load_finishes (lib : CCNxLibrary) (repo : CCNxFileRepoCache) (request : ι → LoadRequest)
    (outcomes : ι → ℕ → WriteOutcome) (digest : κ → Bytes)
    (hdigest : ∀ reader, digest reader ≠ []) (hfree : lib.CollisionFreeOn (builds lib request))
    (start : SharedDirectory ι κ) (hstart : start.Initial repo) (events : List (Event ι κ))
    (hkeeps : ∀ event ∈ events, event.KeepsFiles) (reached : SharedDirectory ι κ)
    (hrun : Transition.run (step lib repo request outcomes digest) start events = some reached)
    (loader : ι) :
    ∃ more final, more.length ≤
        5 * (((request loader).messages lib).length - (reached.loaders loader).saved) ∧
      (∀ event ∈ more, event.KeepsFiles ∧ event.IsOf loader) ∧
      Transition.run (step lib repo request outcomes digest) reached more = some final ∧
      ((request loader).messages lib).length ≤ (final.loaders loader).saved := by
  obtain ⟨progress, hreached⟩ := Invariant.run hfree hdigest hstart hkeeps hrun
  obtain ⟨more, final, -, hlength, hmore, hfinal, -, hdone⟩ :=
    Underway.exists_run hfree ⟨⟨events, progress, hreached⟩, Eq.refl
      ((reached.loaders loader).callsLeft lib (request loader))⟩
  refine ⟨more, final, hlength.trans ?_, hmore, hfinal, hdone⟩
  have hle := (reached.loaders loader).phase.callsLeft_le
  rw [Loader.callsLeft]
  omega

end Main

section Sample

open ReferenceLibrary

/-- Two servers that load the same file. -/
def raceRequest : Bool → LoadRequest := fun _ ↦ ⟨[7], ⟨[[1]]⟩, 1, 2⟩

def raceRepo : CCNxFileRepoCache := ⟨['r'], 1⟩

/-- The chunk of the file, which is asked for while it is saved. -/
def raceDigest : Unit → Bytes := fun _ ↦
  referenceLibrary.computeContentObjectHash (ManifestBuilder.chunkObject ⟨[[1]]⟩ [7])

def raceStart : SharedDirectory Bool Unit := ⟨raceRepo.freshDisk, fun _ ↦ .fresh, fun _ ↦ .testing⟩

/-- Both find that the chunk is not there, and the second one comes to its creation when the first
one has written four bytes.  A lookup that has asked for the size then reads the four bytes. -/
def raceEvents (empties : Bool) : List (Event Bool Unit) :=
  [.save false .test, .save true .test, .save false (.create false), .save false .openFile,
    .save false (.write 4), .lookup () .test, .lookup () .size, .save true (.create empties),
    .save true .openFile, .save true (.write 10), .save true .close, .lookup () .openFile,
    .lookup () (.read 100), .lookup () .close, .save false (.write 6), .save false .close,
    .save false .test, .save true .test, .save false (.create false), .save true (.create false),
    .save true .openFile, .save false .openFile, .save true (.write 42), .save true .close,
    .save false (.write 42), .save false .close]

theorem raceStart_initial : raceStart.Initial raceRepo where
  disk := emptyRepository_freshDisk _
  loaders _ := rfl
  lookups _ := rfl

theorem raceDigest_ne_nil (reader : Unit) : raceDigest reader ≠ [] :=
  referenceLibrary.contentObjectHash_ne_nil _

theorem raceEvents_keepFiles : ∀ event ∈ raceEvents false, event.KeepsFiles := by
  simp [raceEvents, Event.KeepsFiles]

set_option maxRecDepth 4000 in
theorem exists_run_raceEvents (empties : Bool) : ∃ final,
    Transition.run (step referenceLibrary raceRepo raceRequest (fun _ ↦ noFailures) raceDigest)
      raceStart (raceEvents empties) = some final ∧
    (∀ loader, final.loaders loader = ⟨2, .testing⟩) ∧
    final.lookups () = .answered (some [1, 0, 1, 1]) := by
  have h : (Transition.run (step referenceLibrary raceRepo raceRequest (fun _ ↦ noFailures)
      raceDigest) raceStart (raceEvents empties)).any (fun final ↦
        (∀ loader, final.loaders loader = ⟨2, .testing⟩) ∧
          final.lookups () = .answered (some [1, 0, 1, 1])) = true := by
    cases empties <;> decide
  simpa [Option.any_eq_true] using h

theorem race_over {final : SharedDirectory Bool Unit}
    (h : ∀ loader, final.loaders loader = ⟨2, .testing⟩) (loader : Bool) :
    ((raceRequest loader).messages referenceLibrary).length ≤ (final.loaders loader).saved := by
  rw [h loader]
  cases loader <;> decide

/-- The run of `raceEvents` leaves what the second load and then the first one leave. -/
theorem loads_serialize_race : ∃ final,
    Transition.run (step referenceLibrary raceRepo raceRequest (fun _ ↦ noFailures) raceDigest)
      raceStart (raceEvents false) = some final ∧
    (∀ loader stop, (final.loaders loader).phase ≠ .stopped stop) ∧
    runLoads referenceLibrary raceRepo
        [(raceRequest true, noFailures), (raceRequest false, noFailures)] raceRepo.freshDisk =
      .ok ([some ((raceRequest true).root referenceLibrary),
        some ((raceRequest false).root referenceLibrary)], final.disk) := by
  obtain ⟨final, hrun, hloaders, -⟩ := exists_run_raceEvents false
  obtain ⟨hstopped, -, -, -, hserial⟩ := loads_serialize referenceLibrary raceRepo raceRequest
    (fun _ ↦ noFailures) raceDigest raceDigest_ne_nil (collisionFreeOn _) raceStart
    raceStart_initial (raceEvents false) raceEvents_keepFiles final hrun
  refine ⟨final, hrun, hstopped, ?_⟩
  refine hserial [true, false] (fun loader _ ↦ race_over hloaders loader) ?_
  intro loader hloader
  cases loader <;> simp at hloader

/-- The lookup in the run of `raceEvents`, which reads a chunk that is still being written. -/
theorem lookups_linearize_race : ∃ first call rest moment,
    raceEvents false = first ++ .lookup () call :: rest ∧
    Transition.run (step referenceLibrary raceRepo raceRequest (fun _ ↦ noFailures) raceDigest)
      raceStart first = some moment ∧
    createWireEncodedMessageWithDigest referenceLibrary raceRepo moment.disk (raceDigest ()) =
      .ok (some [1, 0, 1, 1]) := by
  obtain ⟨final, hrun, -, hanswer⟩ := exists_run_raceEvents false
  exact lookups_linearize referenceLibrary raceRepo raceRequest (fun _ ↦ noFailures) raceDigest
    raceDigest_ne_nil (collisionFreeOn _) raceStart raceStart_initial (raceEvents false)
    raceEvents_keepFiles final hrun () (some [1, 0, 1, 1]) hanswer

/-- The second load after the first calls of `raceEvents`, when the first one makes no more call. -/
theorem load_finishes_race : ∃ reached more final,
    Transition.run (step referenceLibrary raceRepo raceRequest (fun _ ↦ noFailures) raceDigest)
      raceStart ((raceEvents false).take 5) = some reached ∧
    (∀ event ∈ more, event.KeepsFiles ∧ event.IsOf true) ∧
    Transition.run (step referenceLibrary raceRepo raceRequest (fun _ ↦ noFailures) raceDigest)
      reached more = some final ∧ 2 ≤ (final.loaders true).saved := by
  obtain ⟨reached, hrun⟩ : ∃ reached, Transition.run (step referenceLibrary raceRepo raceRequest
      (fun _ ↦ noFailures) raceDigest) raceStart ((raceEvents false).take 5) = some reached := by
    apply Option.isSome_iff_exists.mp
    decide
  obtain ⟨more, final, -, hmore, hfinal, hdone⟩ := load_finishes referenceLibrary raceRepo
    raceRequest (fun _ ↦ noFailures) raceDigest raceDigest_ne_nil (collisionFreeOn _) raceStart
    raceStart_initial _
    (fun event hevent ↦ raceEvents_keepFiles event (List.mem_of_mem_take hevent)) reached hrun true
  exact ⟨reached, more, final, hrun, hmore, hfinal, hdone⟩

end Sample

end SharedDirectory

end CCNxFileRepo
