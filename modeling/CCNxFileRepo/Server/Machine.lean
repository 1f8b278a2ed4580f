import CCNxFileRepo.Foundations.Transition
import CCNxFileRepo.Repository.Recovery
import CCNxFileRepo.Server.RequestLoop

/-!
# The server as a state machine

A server process builds its manifest, saves one object after the other and then listens.  It can be
killed at any time, in the middle of a save too, and started again.  Its directory may be shared
with other servers, so the disk is an argument of every step.  Run without interruption the machine
does what a load does, and a run that is cut off does what a killed load does.

An object that is available, which means stored in full, stays so whatever any server does.
-/

namespace CCNxFileRepo

open Foundations CCNxFileRepoCache

inductive ServerPhase where
  /-- not running -/
  | down
  /-- in the loop of `_ccnxFileRepoCache_BuildFile`, with these objects still to be saved -/
  | loading (remaining : List CCNxMetaMessage)
  /-- in the request loop -/
  | serving
  | stopped (stop : Stop)
  deriving DecidableEq, Repr

/-- What happens to a server apart from requests. -/
inductive ServerEvent where
  | start
  | save (outcome : WriteOutcome)
  | listen
  | kill (interruption : Interruption)
  deriving DecidableEq, Repr

/-- The write of a save, if there is one, stores all its bytes. -/
def ServerEvent.WritesFully : ServerEvent → Prop
  | save outcome => outcome = .complete
  | _ => True

/-- The object is on the disk in full. -/
def Available (lib : CCNxLibrary) (repo : CCNxFileRepoCache) (fs : FileSystem)
    (object : CCNxMetaMessage) : Prop :=
  fs (repo.objectPath lib object) = some (.regular (lib.createWireFormatBuffer object))

namespace LoadRequest

variable (lib : CCNxLibrary) (request : LoadRequest) (repo : CCNxFileRepoCache)

/-- One step of the server that loads `request`, where it is possible. -/
def serverStep : ServerPhase × FileSystem → ServerEvent → Option (ServerPhase × FileSystem)
  | (.down, fs), .start => some (.loading (request.messages lib), fs)
  | (.loading (message :: remaining), fs), .save outcome =>
      match saveToRepo lib repo fs message outcome with
      | .ok (_, fs) => some (.loading remaining, fs)
      | .error stop => some (.stopped stop, fs)
  | (.loading [], fs), .listen => some (.serving, fs)
  | (.loading (message :: _), fs), .kill interruption =>
      match interruptedSave lib repo fs message interruption with
      | .ok fs => some (.down, fs)
      | .error stop => some (.stopped stop, fs)
  | (.loading [], fs), .kill _ => some (.down, fs)
  | (.serving, fs), .kill _ => some (.down, fs)
  | (.stopped _, fs), .kill _ => some (.down, fs)
  | _, _ => none

/-- The server answers from the disk as it is when the request comes in. -/
def serverReply (fs : FileSystem) (interest : CCNxInterest) :
    Except Stop (Option CCNxMetaMessage) :=
  (request.producer lib repo fs).handleRequest lib (.interest interest)

/-- The network on which the objects of the build are found, and nothing else. -/
def respond (interest : CCNxInterest) : Option CCNxMetaMessage :=
  interest.contentObjectHashRestriction.bind (findObject lib (request.messages lib))

/-- All objects of the build are on the disk in full. -/
def Published (fs : FileSystem) : Prop :=
  ∀ object ∈ request.messages lib, Available lib repo fs object

end LoadRequest

variable {lib : CCNxLibrary} {request : LoadRequest} {repo : CCNxFileRepoCache}
  {objects : Set CCNxMetaMessage} {fs : FileSystem} {progress : Progress}

/-! ## The machine does what a load does -/

section Runs

/-- The saves of a load, with the outcomes of their writes. -/
def saveEvents (outcomes : ℕ → WriteOutcome) (count : ℕ) : List ServerEvent :=
  (List.range count).map fun index ↦ .save (outcomes index)

theorem saveEvents_succ (outcomes : ℕ → WriteOutcome) (count : ℕ) :
    saveEvents outcomes (count + 1) =
      .save (outcomes 0) :: saveEvents (fun index ↦ outcomes (index + 1)) count := by
  simp [saveEvents, List.range_succ_eq_map, Function.comp_def]

/-- A loop of saves that comes back is a run of the machine. -/
theorem run_saveEvents (request : LoadRequest) {messages : List CCNxMetaMessage}
    {outcomes : ℕ → WriteOutcome} {saved : FileSystem}
    (h : saveAll lib repo fs messages outcomes = .ok saved)
    (remaining : List CCNxMetaMessage) :
    Transition.run (request.serverStep lib repo) (.loading (messages ++ remaining), fs)
      (saveEvents outcomes messages.length) = some (.loading remaining, saved) := by
  induction messages generalizing fs outcomes with
  | nil =>
      cases h
      rfl
  | cons message messages ih =>
      obtain ⟨⟨digest, next⟩, hsave, hlater⟩ := Fallible.bind_eq_ok.mp h
      have hstep : request.serverStep lib repo (.loading (message :: messages ++ remaining), fs)
          (.save (outcomes 0)) = some (.loading (messages ++ remaining), next) := by
        simp only [List.cons_append, LoadRequest.serverStep, hsave]
      rw [List.length_cons, saveEvents_succ, Transition.run_cons_of_step hstep]
      exact ih hlater

/-- A server that is not interrupted makes its load and serves. -/
theorem run_of_load {root : Option CCNxManifest} {saved : FileSystem}
    {outcomes : ℕ → WriteOutcome} (h : load lib repo request fs outcomes = .ok (root, saved)) :
    Transition.run (request.serverStep lib repo) (.down, fs)
      (.start :: saveEvents outcomes (request.messages lib).length ++ [.listen]) =
        some (.serving, saved) := by
  have hsaves := run_saveEvents request (saveAll_of_load h).2 []
  rw [List.append_nil] at hsaves
  rw [List.cons_append, Transition.run_cons_of_step rfl, Transition.run_append_of_run hsaves]
  rfl

/-- A server that is killed in its load leaves the disk as the killed load does. -/
theorem run_of_loadUntil {saves : ℕ} {interruption : Interruption} {left : FileSystem}
    (hsaves : saves ≤ (request.messages lib).length)
    (h : loadUntil lib repo request fs (.killed saves interruption) = .ok left) :
    Transition.run (request.serverStep lib repo) (.down, fs)
      (.start :: saveEvents noFailures saves ++ [.kill interruption]) = some (.down, left) := by
  obtain ⟨saved, hsaved, h⟩ := Fallible.bind_eq_ok.mp h
  have hrun := run_saveEvents request hsaved ((request.messages lib).drop saves)
  rw [List.take_append_drop, List.length_take_of_le hsaves] at hrun
  rw [List.cons_append, Transition.run_cons_of_step rfl, Transition.run_append_of_run hrun,
    Transition.run_singleton]
  cases hnext : (request.messages lib)[saves]? with
  | none =>
      simp only [hnext] at h
      cases h
      rw [List.drop_eq_nil_of_le (List.getElem?_eq_none_iff.mp hnext)]
      rfl
  | some message =>
      simp only [hnext] at h
      obtain ⟨hlt, rfl⟩ := List.getElem?_eq_some_iff.mp hnext
      rw [List.drop_eq_getElem_cons hlt]
      simp only [LoadRequest.serverStep, h]

end Runs

/-! ## What the steps keep -/

theorem CCNxFileRepoCache.Represents.available_iff
    (h : Represents lib repo objects fs progress) {object : CCNxMetaMessage}
    (hobject : object ∈ objects) :
    Available lib repo fs object ↔ WithBot.some (wireLength lib object) ≤ progress object := by
  rw [Available, h.files object hobject, storedFile_eq_complete_iff]

/-- The disk holds the start of objects, and what was available stays so. -/
structure Grows (lib : CCNxLibrary) (repo : CCNxFileRepoCache) (objects : Set CCNxMetaMessage)
    (fs grown : FileSystem) : Prop where
  represents : ∃ progress, Represents lib repo objects grown progress
  available : ∀ object ∈ objects, Available lib repo fs object → Available lib repo grown object

theorem Grows.refl (h : Represents lib repo objects fs progress) :
    Grows lib repo objects fs fs := ⟨⟨progress, h⟩, fun _ _ havailable ↦ havailable⟩

theorem Grows.of_le {grown : FileSystem} {reached : Progress}
    (h : Represents lib repo objects fs progress)
    (hgrown : Represents lib repo objects grown reached) (hle : progress ≤ reached) :
    Grows lib repo objects fs grown where
  represents := ⟨reached, hgrown⟩
  available object hobject havailable := by
    rw [h.available_iff hobject] at havailable
    exact (hgrown.available_iff hobject).mpr (havailable.trans (hle object))

/-- A save comes back and takes nothing away. -/
theorem Grows.saveToRepo (hfree : lib.CollisionFreeOn objects)
    (h : Represents lib repo objects fs progress) {object : CCNxMetaMessage}
    (hobject : object ∈ objects) (outcome : WriteOutcome) :
    ∃ saved, CCNxFileRepoCache.saveToRepo lib repo fs object outcome =
        .ok (lib.computeContentObjectHash object, saved) ∧
      Grows lib repo objects fs saved ∧
      (outcome = .complete → Available lib repo saved object) := by
  obtain ⟨saved, hsaved, hrepresents⟩ := h.saveToRepo hfree hobject outcome
  refine ⟨saved, hsaved, .of_le h hrepresents (le_raise _ _ _), ?_⟩
  rintro rfl
  rw [hrepresents.available_iff hobject, raise_self]
  exact le_sup_right

theorem Grows.interruptedSave (hfree : lib.CollisionFreeOn objects)
    (h : Represents lib repo objects fs progress) {object : CCNxMetaMessage}
    (hobject : object ∈ objects) (interruption : Interruption) :
    ∃ left, CCNxFileRepoCache.interruptedSave lib repo fs object interruption = .ok left ∧
      Grows lib repo objects fs left := by
  have hdirectory : fs (repo.objectPath lib object) ≠ some .directory :=
    h.files object hobject ▸ storedFile_ne_directory object _
  rcases interruptedSave_cases hdirectory interruption with hleft | ⟨count, hleft⟩
  · exact ⟨fs, hleft, .refl h⟩
  · obtain ⟨left, hsave, hgrows, -⟩ := Grows.saveToRepo hfree h hobject (.short count)
    rw [hsave] at hleft
    exact ⟨left, hleft, hgrows⟩

theorem LoadRequest.Published.grows {grown : FileSystem} (h : request.Published lib repo fs)
    (hgrows : Grows lib repo objects fs grown)
    (hobjects : ∀ object ∈ request.messages lib, object ∈ objects) :
    request.Published lib repo grown :=
  fun object hobject ↦ hgrows.available object (hobjects object hobject) (h object hobject)

/-- What holds of a server between any two steps: it is not stopped, and what it has saved is on the
disk. -/
inductive ServerInvariant (lib : CCNxLibrary) (request : LoadRequest) (repo : CCNxFileRepoCache)
    (fs : FileSystem) : ServerPhase → Prop where
  | down : ServerInvariant lib request repo fs .down
  | loading {saved remaining : List CCNxMetaMessage}
      (split : saved ++ remaining = request.messages lib)
      (available : ∀ object ∈ saved, Available lib repo fs object) :
      ServerInvariant lib request repo fs (.loading remaining)
  | serving (published : request.Published lib repo fs) :
      ServerInvariant lib request repo fs .serving

theorem ServerInvariant.grows {phase : ServerPhase} {grown : FileSystem}
    (h : ServerInvariant lib request repo fs phase) (hgrows : Grows lib repo objects fs grown)
    (hobjects : ∀ object ∈ request.messages lib, object ∈ objects) :
    ServerInvariant lib request repo grown phase := by
  cases h with
  | down => exact .down
  | loading split available =>
      refine .loading split fun object hobject ↦ hgrows.available object (hobjects object ?_)
        (available object hobject)
      exact split ▸ List.mem_append_left _ hobject
  | serving published => exact .serving (published.grows hgrows hobjects)

/-- A step of a server keeps it in order and the disk growing. -/
theorem ServerInvariant.step (hfree : lib.CollisionFreeOn objects)
    (hobjects : ∀ object ∈ request.messages lib, object ∈ objects)
    (hrepresents : Represents lib repo objects fs progress) {phase next : ServerPhase}
    {grown : FileSystem} {event : ServerEvent} (h : ServerInvariant lib request repo fs phase)
    (hevent : event.WritesFully)
    (hstep : request.serverStep lib repo (phase, fs) event = some (next, grown)) :
    ServerInvariant lib request repo grown next ∧ Grows lib repo objects fs grown := by
  cases h with
  | down =>
      cases event with
      | start =>
          cases hstep
          exact ⟨.loading (List.nil_append _) (by simp), .refl hrepresents⟩
      | save _ | listen | kill _ => cases hstep
  | @loading saved remaining split available =>
      cases remaining with
      | nil =>
          cases event with
          | start | save _ => cases hstep
          | listen =>
              cases hstep
              rw [List.append_nil] at split
              exact ⟨.serving (by rwa [LoadRequest.Published, ← split]), .refl hrepresents⟩
          | kill _ =>
              cases hstep
              exact ⟨.down, .refl hrepresents⟩
      | cons message remaining =>
          have hmessage : message ∈ objects :=
            hobjects message (split ▸ List.mem_append_right _ (List.mem_cons_self ..))
          cases event with
          | start | listen => cases hstep
          | save outcome =>
              obtain ⟨same, hsaved, hgrows, havailable⟩ :=
                Grows.saveToRepo hfree hrepresents hmessage outcome
              simp only [LoadRequest.serverStep, hsaved] at hstep
              cases hstep
              have hsplit : (saved ++ [message]) ++ remaining = request.messages lib := by
                rw [← split, List.append_assoc, List.singleton_append]
              refine ⟨.loading hsplit (List.forall_mem_append.mpr ⟨?_, ?_⟩), hgrows⟩
              · intro object hobject
                refine hgrows.available object (hobjects object ?_) (available object hobject)
                exact split ▸ List.mem_append_left _ hobject
              · rw [List.forall_mem_singleton]
                exact havailable hevent
          | kill interruption =>
              obtain ⟨left, hleft, hgrows⟩ :=
                Grows.interruptedSave hfree hrepresents hmessage interruption
              simp only [LoadRequest.serverStep, hleft] at hstep
              cases hstep
              exact ⟨.down, hgrows⟩
  | serving published =>
      cases event with
      | start | save _ | listen => cases hstep
      | kill _ =>
          cases hstep
          exact ⟨.down, .refl hrepresents⟩

/-! ## Replies -/

/-- What a server with its own root on the disk makes of interests whose digests, if any, are of
available objects. -/
theorem LoadRequest.serverReply_cases (h : Represents lib repo objects fs progress)
    {interest : CCNxInterest} (hinterest : ∀ digest,
      interest.contentObjectHashRestriction = some digest →
        ∃ object ∈ objects, lib.computeContentObjectHash object = digest ∧
          Available lib repo fs object) :
    (interest.name ≠ request.name ∧ request.serverReply lib repo fs interest = .ok none) ∨
    (interest.name = request.name ∧ interest.contentObjectHashRestriction = none ∧
      request.serverReply lib repo fs interest = .ok (some (.manifest (request.root lib)))) ∨
    ∃ object ∈ objects, interest.name = request.name ∧
      interest.contentObjectHashRestriction = some (lib.computeContentObjectHash object) ∧
      Available lib repo fs object ∧
      request.serverReply lib repo fs interest = .ok (some object) := by
  by_cases hname : interest.name = request.name
  case neg => exact Or.inl ⟨hname, Producer.handleRequest_otherName hname⟩
  right
  cases hrestriction : interest.contentObjectHashRestriction with
  | none => exact Or.inl ⟨hname, rfl, Producer.handleRequest_root hname hrestriction⟩
  | some digest =>
      obtain ⟨object, hobject, rfl, havailable⟩ := hinterest digest hrestriction
      refine Or.inr ⟨object, hobject, hname, rfl, havailable, ?_⟩
      apply Producer.handleRequest_stored hname hrestriction
      exact (h.lookup_eq_complete_iff hobject).mpr ((h.available_iff hobject).mp havailable)

end CCNxFileRepo
