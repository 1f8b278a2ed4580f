import CCNxFileRepo.Repository.History

/-!
# Loads that are killed

A load can be killed at any point: between two saves, after a file was created, or in the middle of
a write.  Nothing cleans up behind it.  What it leaves under the name of an object is the start of
this object, if anything, and a later save of the object writes from the start again.  So a load
that runs to its end has all its objects complete, whatever it met, and an object that was complete
before stays so.
-/

namespace CCNxFileRepo

open Foundations

namespace CCNxFileRepoCache

variable (lib : CCNxLibrary)

/-- How far the save got in which a load was killed. -/
inductive Interruption where
  | notBegun
  | created
  | written (count : ℕ)
  deriving DecidableEq, Repr

/-- `_ccnxFileRepoCache_SaveToRepo` up to an interruption. -/
def interruptedSave (repo : CCNxFileRepoCache) (fs : FileSystem) (message : CCNxMetaMessage) :
    Interruption → Except Stop FileSystem
  | .notBegun => .ok fs
  | .created =>
      let digest := lib.computeContentObjectHash (lib.reparse message)
      let fullName := repo.joinPath (lib.toHexString digest)
      .ok (if fs.fileExists fullName then fs else fs.createNewFile fullName)
  | .written count => (saveToRepo lib repo fs message (.short count)).map Prod.snd

inductive LoadEnd where
  | finished
  /-- killed after so many complete saves -/
  | killed (saves : ℕ) (interruption : Interruption)
  deriving DecidableEq, Repr

/-- What a load does to the disk until it ends. -/
def loadUntil (repo : CCNxFileRepoCache) (request : LoadRequest) (fs : FileSystem) :
    LoadEnd → Except Stop FileSystem
  | .finished => (load lib repo request fs noFailures).map Prod.snd
  | .killed saves interruption => do
      let fs ← saveAll lib repo fs ((request.messages lib).take saves) noFailures
      match (request.messages lib)[saves]? with
      | some message => interruptedSave lib repo fs message interruption
      | none => return fs

/-- Loads one after the other, each up to its end. -/
def loadAllUntil (repo : CCNxFileRepoCache) :
    List (LoadRequest × LoadEnd) → FileSystem → Except Stop FileSystem
  | [], fs => .ok fs
  | (request, ending) :: later, fs => do
      let fs ← loadUntil lib repo request fs ending
      loadAllUntil repo later fs

variable {lib} {repo : CCNxFileRepoCache} {objects : Set CCNxMetaMessage} {fs : FileSystem}
  {progress : Progress}

/-- Creating a file is a save that writes nothing. -/
theorem interruptedSave_created {object : CCNxMetaMessage}
    (h : fs (repo.objectPath lib object) ≠ some .directory) :
    interruptedSave lib repo fs object .created =
      interruptedSave lib repo fs object (.written 0) := by
  calc
    interruptedSave lib repo fs object .created =
        .ok (fs.createNewFile (repo.objectPath lib object)) := by
      simp only [interruptedSave, CCNxLibrary.reparse_eq]
      rw [← objectPath, FileSystem.createNewFile_guarded]
    _ = (saveToRepo lib repo fs object (.short 0)).map Prod.snd := by
      rw [saveToRepo_eq h, FileSystem.createNewFile_eq_update h]
      rfl

/-- A killed save is one that has not begun or one with a short write. -/
theorem interruptedSave_cases {object : CCNxMetaMessage}
    (h : fs (repo.objectPath lib object) ≠ some .directory) (interruption : Interruption) :
    interruptedSave lib repo fs object interruption = .ok fs ∨
      ∃ count, interruptedSave lib repo fs object interruption =
        (saveToRepo lib repo fs object (.short count)).map Prod.snd := by
  cases interruption with
  | notBegun => exact Or.inl rfl
  | created => exact Or.inr ⟨0, interruptedSave_created h⟩
  | written count => exact Or.inr ⟨count, rfl⟩

/-- A killed load has made the first saves and, if there was a next one, begun it. -/
theorem loadUntil_killed {request : LoadRequest} {saves : ℕ} {saved : FileSystem}
    (h : saveAll lib repo fs ((request.messages lib).take saves) noFailures = .ok saved)
    (interruption : Interruption) :
    loadUntil lib repo request fs (.killed saves interruption) =
      match (request.messages lib)[saves]? with
      | some message => interruptedSave lib repo saved message interruption
      | none => .ok saved := by
  simp only [loadUntil, h, bind, Except.bind]
  rfl

/-- A killed save leaves the start of its object. -/
theorem Represents.interruptedSave (hfree : lib.CollisionFreeOn objects)
    (h : Represents lib repo objects fs progress) {object : CCNxMetaMessage}
    (hobject : object ∈ objects) (interruption : Interruption) :
    ∃ left reached, CCNxFileRepoCache.interruptedSave lib repo fs object interruption = .ok left ∧
      Represents lib repo objects left reached := by
  have hdirectory : fs (repo.objectPath lib object) ≠ some .directory :=
    h.files object hobject ▸ storedFile_ne_directory object _
  rcases interruptedSave_cases hdirectory interruption with hleft | ⟨count, hleft⟩
  · exact ⟨fs, progress, hleft, h⟩
  · obtain ⟨left, hsave, hrepresents⟩ := h.saveToRepo hfree hobject (.short count)
    rw [hsave] at hleft
    exact ⟨left, _, hleft, hrepresents⟩

/-- Wherever a load ends, the directory holds the start of objects. -/
theorem Represents.loadUntil (hfree : lib.CollisionFreeOn objects)
    (h : Represents lib repo objects fs progress) {request : LoadRequest}
    (hrequest : ∀ message ∈ request.messages lib, message ∈ objects) (ending : LoadEnd) :
    ∃ left reached, CCNxFileRepoCache.loadUntil lib repo request fs ending = .ok left ∧
      Represents lib repo objects left reached := by
  cases ending with
  | finished =>
      obtain ⟨left, hload, hrepresents⟩ := h.load hfree hrequest noFailures
      exact ⟨left, _, by rw [CCNxFileRepoCache.loadUntil, hload]; rfl, hrepresents⟩
  | killed saves interruption =>
      have htake : ∀ message ∈ (request.messages lib).take saves, message ∈ objects :=
        fun message hmessage ↦ hrequest message (List.mem_of_mem_take hmessage)
      obtain ⟨saved, hsaved, hrepresents⟩ := h.saveAll hfree htake noFailures
      cases hnext : (request.messages lib)[saves]? with
      | none =>
          refine ⟨saved, _, ?_, hrepresents⟩
          rw [loadUntil_killed hsaved, hnext]
      | some message =>
          obtain ⟨left, reached, hleft, hend⟩ := hrepresents.interruptedSave hfree
            (hrequest message (List.mem_of_getElem? hnext)) interruption
          refine ⟨left, reached, ?_, hend⟩
          rw [loadUntil_killed hsaved, hnext]
          exact hleft

theorem Represents.loadAllUntil (hfree : lib.CollisionFreeOn objects)
    (h : Represents lib repo objects fs progress) {attempts : List (LoadRequest × LoadEnd)}
    (hattempts : ∀ attempt ∈ attempts, ∀ message ∈ attempt.1.messages lib, message ∈ objects) :
    ∃ left reached, CCNxFileRepoCache.loadAllUntil lib repo attempts fs = .ok left ∧
      Represents lib repo objects left reached := by
  induction attempts generalizing fs progress with
  | nil => exact ⟨fs, progress, rfl, h⟩
  | cons attempt attempts ih =>
      obtain ⟨next, between, hnext, hbetween⟩ :=
        h.loadUntil hfree (hattempts attempt (List.mem_cons_self ..)) attempt.2
      obtain ⟨left, reached, hleft, hend⟩ := ih hbetween
        fun later hlater ↦ hattempts later (List.mem_cons_of_mem _ hlater)
      refine ⟨left, reached, ?_, hend⟩
      simp only [CCNxFileRepoCache.loadAllUntil, hnext, bind, Except.bind]
      exact hleft

/-- A load that runs to its end completes its objects and takes nothing from the others. -/
theorem Represents.load_complete (hfree : lib.CollisionFreeOn objects)
    (h : Represents lib repo objects fs progress) {request : LoadRequest}
    (hrequest : ∀ message ∈ request.messages lib, message ∈ objects) :
    ∃ saved reached, CCNxFileRepoCache.load lib repo request fs noFailures =
        .ok (some (request.root lib), saved) ∧
      Represents lib repo objects saved reached ∧ progress ≤ reached ∧
      ∀ object ∈ request.messages lib, WithBot.some (wireLength lib object) ≤ reached object := by
  obtain ⟨saved, hload, hrepresents⟩ := h.load hfree hrequest noFailures
  refine ⟨saved, _, hload, hrepresents, le_raiseAll _ _, fun object hobject ↦ ?_⟩
  rw [le_raiseAll_iff, savedEntries_noFailures]
  exact Or.inr ⟨_, List.mem_map_of_mem hobject, rfl, le_rfl⟩

/-- After any history of loads that were killed anywhere, a load that runs to its end has all
that is reachable from its root stored completely, and what was complete before is unchanged. -/
theorem load_recovers (lib : CCNxLibrary) (repo : CCNxFileRepoCache) (fs : FileSystem)
    (hempty : EmptyRepository repo fs) (attempts : List (LoadRequest × LoadEnd))
    (request : LoadRequest)
    (hfree : lib.CollisionFreeOn
      {object | object ∈ historyMessages lib (request :: attempts.map Prod.fst)}) :
    ∃ left saved, loadAllUntil lib repo attempts fs = .ok left ∧
      load lib repo request left noFailures = .ok (some (request.root lib), saved) ∧
      (∀ digest, Reachable lib (request.messages lib) (request.root lib) digest →
        ∃ object ∈ request.messages lib, lib.computeContentObjectHash object = digest ∧
          createWireEncodedMessageWithDigest lib repo saved digest =
            .ok (some (lib.createWireFormatBuffer object))) ∧
      ∀ object ∈ historyMessages lib (request :: attempts.map Prod.fst),
        left (repo.objectPath lib object) =
            some (.regular (lib.createWireFormatBuffer object)) →
          saved (repo.objectPath lib object) =
            some (.regular (lib.createWireFormatBuffer object)) := by
  have hrequest : ∀ object ∈ request.messages lib,
      object ∈ historyMessages lib (request :: attempts.map Prod.fst) :=
    mem_historyMessages (List.mem_cons_self ..)
  obtain ⟨left, progress, hleft, hbefore⟩ := (hempty.represents _).loadAllUntil hfree
    fun attempt hattempt ↦
      mem_historyMessages (List.mem_cons_of_mem _ (List.mem_map_of_mem hattempt))
  obtain ⟨saved, reached, hload, hafter, hle, hcomplete⟩ := hbefore.load_complete hfree hrequest
  refine ⟨left, saved, hleft, hload, ?_, ?_⟩
  · intro digest hreachable
    obtain ⟨object, hobject, rfl⟩ := ManifestBuilder.exists_object_of_reachable hreachable
    exact ⟨object, hobject, rfl,
      (hafter.lookup_eq_complete_iff (hrequest object hobject)).mpr (hcomplete object hobject)⟩
  · intro object hobject hstored
    rw [hbefore.files object hobject, storedFile_eq_complete_iff] at hstored
    rw [hafter.files object hobject, storedFile_eq_complete_iff]
    exact hstored.trans (hle object)

open ReferenceLibrary in
/-- A load killed three bytes into its second save, and a load of another file that shares the
chunk. -/
theorem load_recovers_shared :
    let repo : CCNxFileRepoCache := ⟨['r'], 1⟩
    let attempts : List (LoadRequest × LoadEnd) :=
      [(⟨[7, 8], ⟨[[1]]⟩, 1, 2⟩, .killed 1 (.written 3))]
    let request : LoadRequest := ⟨[7], ⟨[[1]]⟩, 1, 2⟩
    ∃ left saved, loadAllUntil referenceLibrary repo attempts repo.freshDisk = .ok left ∧
      load referenceLibrary repo request left noFailures =
        .ok (some (request.root referenceLibrary), saved) ∧
      (∀ digest, Reachable referenceLibrary (request.messages referenceLibrary)
          (request.root referenceLibrary) digest →
        ∃ object ∈ request.messages referenceLibrary,
          referenceLibrary.computeContentObjectHash object = digest ∧
          createWireEncodedMessageWithDigest referenceLibrary repo saved digest =
            .ok (some (referenceLibrary.createWireFormatBuffer object))) ∧
      ∀ object ∈ historyMessages referenceLibrary (request :: attempts.map Prod.fst),
        left (repo.objectPath referenceLibrary object) =
            some (.regular (referenceLibrary.createWireFormatBuffer object)) →
          saved (repo.objectPath referenceLibrary object) =
            some (.regular (referenceLibrary.createWireFormatBuffer object)) :=
  load_recovers referenceLibrary ⟨['r'], 1⟩ _ (emptyRepository_freshDisk _) _ _
    (collisionFreeOn _)

end CCNxFileRepoCache

end CCNxFileRepo
