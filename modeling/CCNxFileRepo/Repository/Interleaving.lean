import CCNxFileRepo.Repository.Calls

/-!
# Loads and lookups at the same time

Any number of loads and lookups work on one repository directory, and their calls come in any
order.  A process that is killed makes no further call, so a run may leave a load anywhere.

The loads need no lock.  Under the name of an object there is never anything but a start of this
object, what a save has stored stays, and when the loads that were begun are over the disk is the
one they leave when they run one after the other.  A lookup answers what a lookup that nothing
interferes with answers at the moment of one of its calls.
-/

namespace CCNxFileRepo

open Foundations CCNxFileRepoCache

/-- A load between two calls. -/
structure Loader where
  /-- the saves that are over -/
  saved : ℕ
  /-- where the next one stands -/
  phase : SavePhase
  deriving DecidableEq, Repr

namespace Loader

def fresh : Loader := ⟨0, .testing⟩

/-- The loop goes on to the next object when a save is over. -/
def advance (loader : Loader) (phase : SavePhase) : Loader :=
  if phase = .closed then ⟨loader.saved + 1, .testing⟩ else { loader with phase := phase }

end Loader

/-- One call in the loop of `_ccnxFileRepoCache_BuildFile`. -/
def LoadRequest.callLoad (lib : CCNxLibrary) (repo : CCNxFileRepoCache) (request : LoadRequest)
    (outcomes : ℕ → WriteOutcome) (state : Loader × FileSystem) (call : SaveCall) :
    Option (Loader × FileSystem) :=
  (request.messages lib)[state.1.saved]?.bind fun message ↦
    (callSave lib repo message (outcomes state.1.saved) (state.1.phase, state.2) call).map
      fun next ↦ (state.1.advance next.1, next.2)

/-- The disk, the loads and the lookups. -/
structure SharedDirectory (ι κ : Type) where
  disk : FileSystem
  loaders : ι → Loader
  lookups : κ → LookupPhase

namespace SharedDirectory

inductive Event (ι κ : Type) where
  | save (loader : ι) (call : SaveCall)
  | lookup (reader : κ) (call : LookupCall)
  deriving DecidableEq

namespace Event

variable {ι κ : Type}

/-- A creation leaves a file alone that has appeared since the test. -/
def KeepsFiles : Event ι κ → Prop
  | save _ call => call ≠ .create true
  | lookup _ _ => True

def IsOf (loader : ι) : Event ι κ → Prop
  | save other _ => other = loader
  | lookup _ _ => False

end Event

variable {ι κ : Type} [DecidableEq ι] [DecidableEq κ] (lib : CCNxLibrary)
  (repo : CCNxFileRepoCache) (request : ι → LoadRequest) (outcomes : ι → ℕ → WriteOutcome)
  (digest : κ → Bytes)

/-- The repository is empty, and nobody has made a call. -/
structure Initial (shared : SharedDirectory ι κ) : Prop where
  disk : repo.EmptyRepository shared.disk
  loaders : ∀ loader, shared.loaders loader = .fresh
  lookups : ∀ reader, shared.lookups reader = .testing

def step (shared : SharedDirectory ι κ) : Event ι κ → Option (SharedDirectory ι κ)
  | .save loader call =>
      ((request loader).callLoad lib repo (outcomes loader) (shared.loaders loader, shared.disk)
        call).map fun next ↦ { shared with
          disk := next.2
          loaders := Function.update shared.loaders loader next.1 }
  | .lookup reader call =>
      (callLookup lib repo (digest reader) shared.disk (shared.lookups reader) call).map
        fun next ↦ { shared with lookups := Function.update shared.lookups reader next }

variable {lib repo request outcomes digest} {shared next start : SharedDirectory ι κ}

theorem step_save_iff {loader : ι} {call : SaveCall} :
    shared.step lib repo request outcomes digest (.save loader call) = some next ↔
      ∃ message after disk,
        ((request loader).messages lib)[(shared.loaders loader).saved]? = some message ∧
        callSave lib repo message (outcomes loader (shared.loaders loader).saved)
          ((shared.loaders loader).phase, shared.disk) call = some (after, disk) ∧
        { shared with
          disk := disk
          loaders := Function.update shared.loaders loader
            ((shared.loaders loader).advance after) } = next := by
  simp only [step, LoadRequest.callLoad, Option.map_eq_some_iff, Option.bind_eq_some_iff]
  constructor
  · rintro ⟨-, ⟨message, hmessage, found, hcall, rfl⟩, rfl⟩
    exact ⟨message, found.1, found.2, hmessage, hcall, rfl⟩
  · rintro ⟨message, after, disk, hmessage, hcall, rfl⟩
    exact ⟨_, ⟨message, hmessage, (after, disk), hcall, rfl⟩, rfl⟩

theorem step_lookup_iff {reader : κ} {call : LookupCall} :
    shared.step lib repo request outcomes digest (.lookup reader call) = some next ↔
      ∃ later, callLookup lib repo (digest reader) shared.disk (shared.lookups reader) call =
          some later ∧
        { shared with lookups := Function.update shared.lookups reader later } = next :=
  Option.map_eq_some_iff

end SharedDirectory

/-! ## Loads -/

section Loads

variable {lib : CCNxLibrary} {repo : CCNxFileRepoCache} {request : LoadRequest}
  {outcomes : ℕ → WriteOutcome} {progress reached : Progress} {loader : Loader}
  {object : CCNxMetaMessage} {after : SavePhase}

variable (lib repo request outcomes progress) in
/-- What a load has stored is on the disk. -/
structure Loader.Stands (loader : Loader) : Prop where
  stored : ∀ index object, index < loader.saved → (request.messages lib)[index]? = some object →
    WithBot.some ((outcomes index).stored (lib.createWireFormatBuffer object)).length ≤
      progress object
  current : ∀ object, (request.messages lib)[loader.saved]? = some object →
    SaveStands lib repo object (outcomes loader.saved) loader.phase (progress object)
  finished : (request.messages lib)[loader.saved]? = none → loader.phase = .testing
  not_closed : loader.phase ≠ .closed

theorem Loader.Stands.fresh : Loader.fresh.Stands lib repo request outcomes progress where
  stored _ _ hindex := absurd hindex (Nat.not_lt_zero _)
  current _ _ := .testing
  finished _ := rfl
  not_closed := by simp [Loader.fresh]

theorem Loader.Stands.mono (h : loader.Stands lib repo request outcomes progress)
    (hle : progress ≤ reached) : loader.Stands lib repo request outcomes reached where
  stored index object hindex hobject := (h.stored index object hindex hobject).trans (hle object)
  current object hobject := (h.current object hobject).mono (hle object)
  finished := h.finished
  not_closed := h.not_closed

theorem Loader.Stands.advance (h : loader.Stands lib repo request outcomes progress)
    (hle : progress ≤ reached) (hobject : (request.messages lib)[loader.saved]? = some object)
    (hafter : SaveStands lib repo object (outcomes loader.saved) after (reached object)) :
    (loader.advance after).Stands lib repo request outcomes reached := by
  unfold Loader.advance
  split
  · rename_i hclosed
    subst hclosed
    refine ⟨fun index other hindex hother ↦ ?_, fun _ _ ↦ .testing, fun _ ↦ rfl, by simp⟩
    rcases Nat.lt_succ_iff_lt_or_eq.mp hindex with hlt | rfl
    · exact (h.stored index other hlt hother).trans (hle other)
    · obtain rfl : object = other := Option.some.inj (hobject.symm.trans hother)
      cases hafter with
      | closed hcount => exact hcount
  · rename_i hclosed
    refine ⟨fun index other hindex hother ↦ (h.stored index other hindex hother).trans (hle other),
      fun other hother ↦ ?_, fun hnone ↦ ?_, hclosed⟩
    · obtain rfl : object = other := Option.some.inj (hobject.symm.trans hother)
      exact hafter
    · rw [hobject] at hnone
      cases hnone

/-- A load whose saves stand somewhere has met no missing file. -/
theorem Loader.not_stopped
    (hcurrent : ∀ object, (request.messages lib)[loader.saved]? = some object →
      ∃ outcome count, SaveStands lib repo object outcome loader.phase count)
    (hfinished : (request.messages lib)[loader.saved]? = none → loader.phase = .testing)
    (stop : Stop) : loader.phase ≠ .stopped stop := by
  intro hstop
  cases hobject : (request.messages lib)[loader.saved]? with
  | none =>
      rw [hfinished hobject] at hstop
      cases hstop
  | some object =>
      obtain ⟨outcome, count, hstands⟩ := hcurrent object hobject
      rw [hstop] at hstands
      cases hstands

theorem Loader.advance_ne_fresh (loader : Loader) (h : after ≠ .testing) :
    loader.advance after ≠ .fresh := by
  unfold Loader.advance
  split
  · simp [Loader.fresh]
  · intro hfresh
    exact h (congrArg Loader.phase hfresh)

end Loads

/-! ## The invariant -/

namespace SharedDirectory

section Invariant

variable {ι κ : Type} [DecidableEq ι] [DecidableEq κ] (lib : CCNxLibrary)
  (repo : CCNxFileRepoCache) (request : ι → LoadRequest) (outcomes : ι → ℕ → WriteOutcome)
  (digest : κ → Bytes)

/-- The answer is the one of an undisturbed lookup at the moment of a call of the reader. -/
def AnswersAtCall (start : SharedDirectory ι κ) (earlier : List (Event ι κ)) (reader : κ)
    (answer : Option Bytes) : Prop :=
  ∃ first call rest moment, earlier = first ++ .lookup reader call :: rest ∧
    Transition.run (step lib repo request outcomes digest) start first = some moment ∧
    createWireEncodedMessageWithDigest lib repo moment.disk (digest reader) = .ok answer

/-- What holds after the calls in `earlier`, with `progress` of the objects on the disk. -/
structure Invariant (start : SharedDirectory ι κ) (earlier : List (Event ι κ))
    (shared : SharedDirectory ι κ) (progress : Progress) : Prop where
  represents : Represents lib repo (builds lib request) shared.disk progress
  elsewhere : ∀ path, (∀ object ∈ builds lib request, path ≠ repo.objectPath lib object) →
    shared.disk path = start.disk path
  begun : ∀ object, progress object = ⊥ ∨ ∃ loader index, shared.loaders loader ≠ .fresh ∧
    ((request loader).messages lib)[index]? = some object ∧
    progress object ≤ WithBot.some
      ((outcomes loader index).stored (lib.createWireFormatBuffer object)).length
  loaders : ∀ loader, (shared.loaders loader).Stands lib repo (request loader) (outcomes loader)
    progress
  lookups : ∀ reader, LookupStands lib repo (builds lib request) (digest reader) progress
    (AnswersAtCall lib repo request outcomes digest start earlier reader) (shared.lookups reader)

variable {lib repo request outcomes digest} {start shared next final : SharedDirectory ι κ}
  {earlier events : List (Event ι κ)} {event : Event ι κ} {progress : Progress}

theorem AnswersAtCall.append {reader : κ} {answer : Option Bytes}
    (h : AnswersAtCall lib repo request outcomes digest start earlier reader answer)
    (later : List (Event ι κ)) :
    AnswersAtCall lib repo request outcomes digest start (earlier ++ later) reader answer := by
  obtain ⟨first, call, rest, moment, rfl, hrun, hlookup⟩ := h
  exact ⟨first, call, rest ++ later, moment, by simp, hrun, hlookup⟩

theorem Invariant.initial (hstart : start.Initial repo) :
    Invariant lib repo request outcomes digest start [] start fun _ ↦ ⊥ where
  represents := hstart.disk.represents _
  elsewhere _ _ := rfl
  begun _ := Or.inl rfl
  loaders loader := hstart.loaders loader ▸ .fresh
  lookups reader := hstart.lookups reader ▸ .testing

theorem Invariant.save (hfree : lib.CollisionFreeOn (builds lib request))
    (h : Invariant lib repo request outcomes digest start earlier shared progress) {loader : ι}
    {call : SaveCall} (hkeeps : call ≠ .create true)
    (hstep : shared.step lib repo request outcomes digest (.save loader call) = some next) :
    ∃ reached, Invariant lib repo request outcomes digest start
      (earlier ++ [.save loader call]) next reached := by
  obtain ⟨object, after, disk, hobject, hcall, rfl⟩ := step_save_iff.mp hstep
  have hmem : object ∈ builds lib request := mem_builds (List.mem_of_getElem? hobject)
  obtain ⟨⟨reached, hreached, hle, hother, hafter⟩, hframe⟩ := h.represents.callSave hfree hmem
    ((h.loaders loader).current object hobject) hkeeps hcall
  have hbegun : (shared.loaders loader).advance after ≠ .fresh :=
    Loader.advance_ne_fresh _ (callSave_ne_testing hcall)
  refine ⟨reached, hreached, fun path hpath ↦ ?_, fun other ↦ ?_, fun other ↦ ?_, fun reader ↦ ?_⟩
  · exact (hframe path (hpath object hmem)).trans (h.elsewhere path hpath)
  · have hnonfresh {mover : ι} (hmover : shared.loaders mover ≠ .fresh) :
        Function.update shared.loaders loader ((shared.loaders loader).advance after) mover ≠
          .fresh := by
      by_cases hsame : mover = loader
      · subst hsame
        rwa [Function.update_self]
      · rwa [Function.update_of_ne hsame]
    rcases hother other with hsame | ⟨rfl, hbound⟩
    · rw [hsame]
      exact (h.begun other).imp_right fun ⟨mover, index, hmover, hindex, hcount⟩ ↦
        ⟨mover, index, hnonfresh hmover, hindex, hcount⟩
    · refine Or.inr ⟨loader, _, ?_, hobject, hbound⟩
      simpa only [Function.update_self] using hbegun
  · by_cases hsame : other = loader
    · subst hsame
      simpa only [Function.update_self] using (h.loaders other).advance hle hobject hafter
    · simpa only [Function.update_of_ne hsame] using (h.loaders other).mono hle
  · exact (h.lookups reader).mono hle fun _ hanswer ↦ hanswer.append _

theorem Invariant.lookup
    (h : Invariant lib repo request outcomes digest start earlier shared progress) {reader : κ}
    (hdigest : digest reader ≠ []) {call : LookupCall}
    (hrun : Transition.run (step lib repo request outcomes digest) start earlier = some shared)
    (hstep : shared.step lib repo request outcomes digest (.lookup reader call) = some next) :
    Invariant lib repo request outcomes digest start (earlier ++ [.lookup reader call]) next
      progress := by
  obtain ⟨later, hcall, rfl⟩ := step_lookup_iff.mp hstep
  have hstands (other : κ) :=
    (h.lookups other).mono le_rfl fun _ hanswer ↦ hanswer.append [.lookup reader call]
  refine ⟨h.represents, h.elsewhere, h.begun, h.loaders, fun other ↦ ?_⟩
  by_cases hsame : other = reader
  · subst hsame
    simp only [Function.update_self]
    exact h.represents.callLookup hdigest (hstands other)
      (fun answer hanswer ↦ ⟨earlier, call, [], shared, rfl, hrun, hanswer⟩) hcall
  · simpa only [Function.update_of_ne hsame] using hstands other

/-- The invariant holds after every run in which the creations leave files alone. -/
theorem Invariant.run (hfree : lib.CollisionFreeOn (builds lib request))
    (hdigest : ∀ reader, digest reader ≠ []) (hstart : start.Initial repo)
    (hkeeps : ∀ event ∈ events, event.KeepsFiles)
    (hrun : Transition.run (step lib repo request outcomes digest) start events = some final) :
    ∃ progress, Invariant lib repo request outcomes digest start events final progress := by
  apply Transition.run_history _ hrun hkeeps ⟨_, .initial hstart⟩
  rintro earlier state event next hevent ⟨progress, h⟩ hearlier hstep
  cases event with
  | save loader call => exact h.save hfree hevent hstep
  | lookup reader call => exact ⟨progress, h.lookup (hdigest reader) hearlier hstep⟩

end Invariant

end SharedDirectory

end CCNxFileRepo
