import CCNxFileRepo.CCNx.ReferenceLibrary
import CCNxFileRepo.Repository.Recovery

/-!
# Children before parents

A repository is closed when every pointer of a manifest that is stored in it names an object that is
stored too.  As the builder makes an object before it makes a pointer to it, and the loop of saves
keeps the order of the builder, a load never leaves the closed repositories, wherever it is killed.
The last object of the list is the root.
-/

namespace CCNxFileRepo.CCNxFileRepoCache

open Foundations

variable (lib : CCNxLibrary)

/-- The pointers of a message as references. -/
abbrev pointerSet (message : CCNxMetaMessage) : Set CCNxManifestHashGroupPointer :=
  {pointer | pointer ∈ message.pointers}

/-- The objects all of whose bytes are on the disk under their digests. -/
def storedObjects (repo : CCNxFileRepoCache) (fs : FileSystem) : Set CCNxMetaMessage :=
  {object | fs (repo.objectPath lib object) = some (.regular (lib.createWireFormatBuffer object))}

/-- Every pointer of a stored manifest names a stored object. -/
def ClosedUnderPointers (repo : CCNxFileRepoCache) (fs : FileSystem) : Prop :=
  Closed pointerSet (Names lib) (storedObjects lib repo fs)

/-- Under the name of each of `objects` stands the start of this object, if anything. -/
def HoldsStarts (repo : CCNxFileRepoCache) (objects : Set CCNxMetaMessage) (fs : FileSystem) :
    Prop :=
  ∀ object ∈ objects, ∃ count, fs (repo.objectPath lib object) = storedFile lib object count

variable {lib} {repo : CCNxFileRepoCache} {objects : Set CCNxMetaMessage} {fs : FileSystem}

theorem mem_storedObjects {object : CCNxMetaMessage} :
    object ∈ storedObjects lib repo fs ↔ fs (repo.objectPath lib object) =
      some (.regular (lib.createWireFormatBuffer object)) := Iff.rfl

theorem Represents.holdsStarts {progress : Progress}
    (h : Represents lib repo objects fs progress) : HoldsStarts lib repo objects fs :=
  fun object hobject ↦ ⟨progress object, h.files object hobject⟩

theorem HoldsStarts.mono {fewer : Set CCNxMetaMessage} (h : HoldsStarts lib repo objects fs)
    (hfewer : fewer ⊆ objects) : HoldsStarts lib repo fewer fs :=
  fun object hobject ↦ h object (hfewer hobject)

/-- In an empty repository there is nothing to point. -/
theorem EmptyRepository.closedUnderPointers (h : EmptyRepository repo fs) :
    ClosedUnderPointers lib repo fs := by
  intro object hobject
  have hfile := mem_storedObjects.mp hobject
  rw [objectPath, h.no_entries _ (isEntryName_hex object)] at hfile
  cases hfile

theorem storedFile_wireLength (object : CCNxMetaMessage) :
    storedFile lib object (WithBot.some (wireLength lib object)) =
      some (.regular (lib.createWireFormatBuffer object)) :=
  storedFile_eq_complete_iff.mpr le_rfl

/-- A complete save adds its object to the stored ones. -/
theorem HoldsStarts.saveToRepo (hfree : lib.CollisionFreeOn objects)
    (h : HoldsStarts lib repo objects fs) (hstored : storedObjects lib repo fs ⊆ objects)
    {message : CCNxMetaMessage} (hmessage : message ∈ objects) :
    ∃ next, CCNxFileRepoCache.saveToRepo lib repo fs message .complete =
        .ok (lib.computeContentObjectHash message, next) ∧
      HoldsStarts lib repo objects next ∧
      storedObjects lib repo next = storedObjects lib repo fs ∪ {message} := by
  obtain ⟨count, hcount⟩ := h message hmessage
  have hcomplete : storedFile lib message (count ⊔ WithBot.some
      (WriteOutcome.complete.stored (lib.createWireFormatBuffer message)).length) =
        some (.regular (lib.createWireFormatBuffer message)) :=
    storedFile_eq_complete_iff.mpr le_sup_right
  have hsave := saveToRepo_storedFile hcount .complete
  rw [hcomplete] at hsave
  refine ⟨_, hsave, ?_, ?_⟩
  · intro object hobject
    by_cases hpath : repo.objectPath lib object = repo.objectPath lib message
    · obtain rfl := hfree hobject hmessage (objectPath_inj hpath)
      exact ⟨_, (Function.update_self _ _ _).trans hcomplete.symm⟩
    · obtain ⟨old, hold⟩ := h object hobject
      exact ⟨old, (Function.update_of_ne hpath _ _).trans hold⟩
  · ext object
    rw [Set.mem_union, mem_storedObjects, mem_storedObjects, Set.mem_singleton_iff]
    by_cases hpath : repo.objectPath lib object = repo.objectPath lib message
    · rw [hpath, Function.update_self, Option.some.injEq, FileNode.regular.injEq]
      constructor
      · exact fun hwire ↦ Or.inr (lib.createWireFormatBuffer_injective hwire.symm)
      · rintro (hold | rfl)
        · rw [← hpath] at hold
          rw [hfree (hstored hold) hmessage (objectPath_inj hpath)]
        · rfl
    · have hne : object ≠ message := fun heq ↦ hpath (congrArg _ heq)
      rw [Function.update_of_ne hpath, or_iff_left hne]

theorem HoldsStarts.saveAll (hfree : lib.CollisionFreeOn objects)
    (h : HoldsStarts lib repo objects fs) (hstored : storedObjects lib repo fs ⊆ objects)
    {messages : List CCNxMetaMessage} (hmessages : ∀ message ∈ messages, message ∈ objects) :
    ∃ saved, CCNxFileRepoCache.saveAll lib repo fs messages noFailures = .ok saved ∧
      HoldsStarts lib repo objects saved ∧
      storedObjects lib repo saved =
        storedObjects lib repo fs ∪ {message | message ∈ messages} := by
  induction messages generalizing fs with
  | nil => exact ⟨fs, rfl, h, by simp⟩
  | cons message messages ih =>
      obtain ⟨hmessage, hlater⟩ := List.forall_mem_cons.mp hmessages
      obtain ⟨next, hsave, hnext, hadded⟩ := h.saveToRepo hfree hstored hmessage
      have hwithin : storedObjects lib repo next ⊆ objects := by
        rw [hadded]
        exact Set.union_subset hstored (Set.singleton_subset_iff.mpr hmessage)
      obtain ⟨saved, hsaved, hstarts, hall⟩ := ih hnext hwithin hlater
      refine ⟨saved, ?_, hstarts, ?_⟩
      · rw [CCNxFileRepoCache.saveAll]
        exact hsave ▸ hsaved
      · calc
          storedObjects lib repo saved =
              storedObjects lib repo fs ∪ {message} ∪ {later | later ∈ messages} := by
            rw [hall, hadded]
          _ = storedObjects lib repo fs ∪ {later | later ∈ message :: messages} := by
            rw [Set.union_assoc]
            congr 1
            ext object
            exact List.mem_cons.symm

/-- A load into a closed repository leaves it closed at every point between two saves, stopped or
not.  Every pointer in the list of the build names an object strictly before its manifest, so the
pointers make no cycle, and the root that the load returns is the last object. -/
theorem load_closedUnderPointers (lib : CCNxLibrary) (repo : CCNxFileRepoCache) (fs : FileSystem)
    (request : LoadRequest)
    (hstarts : HoldsStarts lib repo {object | object ∈ request.messages lib} fs)
    (hfree : lib.CollisionFreeOn
      ({object | object ∈ request.messages lib} ∪ storedObjects lib repo fs))
    (hclosed : ClosedUnderPointers lib repo fs) :
    (∀ saves, ∃ left, loadUntil lib repo request fs (.killed saves .notBegun) = .ok left ∧
      ClosedUnderPointers lib repo left) ∧
    (∃ saved, load lib repo request fs noFailures = .ok (some (request.root lib), saved) ∧
      ClosedUnderPointers lib repo saved) ∧
    DependencyOrdered pointerSet (Names lib) (request.messages lib) ∧
    (∀ message, ¬ Relation.TransGen (Refers pointerSet (Names lib) (request.messages lib))
      message message) ∧
    (request.messages lib).getLast? = some (.manifest (request.root lib)) := by
  have hordered : DependencyOrdered pointerSet (Names lib) (request.messages lib) :=
    (ManifestBuilder.buildSkewedManifest_ordered lib request.capacity request.name
      (request.chunker lib)).mono fun _ _ htags ↦ htags.names
  have hboth : HoldsStarts lib repo
      ({object | object ∈ request.messages lib} ∪ storedObjects lib repo fs) fs := by
    rintro object (hobject | hobject)
    · exact hstarts object hobject
    · exact ⟨_, (mem_storedObjects.mp hobject).trans (storedFile_wireLength object).symm⟩
  have hcut (saves : ℕ) : ∃ saved,
      saveAll lib repo fs ((request.messages lib).take saves) noFailures = .ok saved ∧
        ClosedUnderPointers lib repo saved := by
    obtain ⟨saved, hsaved, -, hstored⟩ := hboth.saveAll hfree Set.subset_union_right
      fun message hmessage ↦ Or.inl (List.mem_of_mem_take hmessage)
    refine ⟨saved, hsaved, ?_⟩
    rw [ClosedUnderPointers, hstored]
    exact hordered.closed_union_take hclosed saves
  refine ⟨fun saves ↦ ?_, ?_, hordered, ?_, ?_⟩
  · obtain ⟨saved, hsaved, hkept⟩ := hcut saves
    refine ⟨saved, ?_, hkept⟩
    rw [loadUntil_killed hsaved]
    cases (request.messages lib)[saves]? <;> rfl
  · obtain ⟨saved, hsaved, hkept⟩ := hcut (request.messages lib).length
    rw [List.take_length] at hsaved
    exact ⟨saved, by rw [load_eq, hsaved]; rfl, hkept⟩
  · apply hordered.acyclic
    intro pointer first hfirst second hsecond hnames hnames'
    exact hfree (Or.inl hfirst) (Or.inl hsecond) (hnames.trans hnames'.symm)
  · exact List.getLast?_concat

open ReferenceLibrary in
/-- A second load, of a file with the same last two bytes, into the repository of a first. -/
theorem load_closedUnderPointers_shared :
    let repo : CCNxFileRepoCache := ⟨['r'], 1⟩
    let earlier : LoadRequest := ⟨[6, 8, 9], ⟨[[1]]⟩, 1, 2⟩
    let request : LoadRequest := ⟨[7, 8, 9], ⟨[[1]]⟩, 1, 2⟩
    ∃ start, repo.load referenceLibrary earlier repo.freshDisk noFailures =
        .ok (some (earlier.root referenceLibrary), start) ∧
      (∀ saves, ∃ left,
        loadUntil referenceLibrary repo request start (.killed saves .notBegun) = .ok left ∧
          ClosedUnderPointers referenceLibrary repo left) ∧
      (∃ saved, load referenceLibrary repo request start noFailures =
          .ok (some (request.root referenceLibrary), saved) ∧
        ClosedUnderPointers referenceLibrary repo saved) ∧
      DependencyOrdered pointerSet (Names referenceLibrary) (request.messages referenceLibrary) ∧
      (∀ message, ¬ Relation.TransGen
        (Refers pointerSet (Names referenceLibrary) (request.messages referenceLibrary))
        message message) ∧
      (request.messages referenceLibrary).getLast? =
        some (.manifest (request.root referenceLibrary)) := by
  intro repo earlier request
  have hempty := emptyRepository_freshDisk repo
  have hfresh : Represents referenceLibrary repo Set.univ repo.freshDisk fun _ ↦ ⊥ :=
    hempty.represents _
  obtain ⟨-, ⟨start, hload, hclosed⟩, -⟩ :=
    load_closedUnderPointers referenceLibrary repo repo.freshDisk earlier
      (hfresh.holdsStarts.mono (Set.subset_univ _)) (collisionFreeOn _) hempty.closedUnderPointers
  have hmember : ∀ message ∈ earlier.messages referenceLibrary, message ∈ Set.univ :=
    fun message _ ↦ Set.mem_univ message
  obtain ⟨saved, hsaved, hrepresents⟩ := hfresh.load (collisionFreeOn _) hmember noFailures
  obtain rfl : start = saved := by
    rw [hload] at hsaved
    simpa using hsaved
  exact ⟨start, hload, load_closedUnderPointers referenceLibrary repo start request
    (hrepresents.holdsStarts.mono (Set.subset_univ _)) (collisionFreeOn _) hclosed⟩

end CCNxFileRepo.CCNxFileRepoCache
