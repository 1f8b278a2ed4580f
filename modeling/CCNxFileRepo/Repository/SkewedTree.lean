import CCNxFileRepo.CCNx.ManifestTree
import CCNxFileRepo.Repository.PointerOrder

/-!
# The tree a build makes

The loop of the builder keeps two invariants.  Whatever the capacity of a hash group, every
pointer made names an object of the list.  With room for two pointers nothing is ever refused,
and the pointers of the running group unfold to the chunks seen so far in file order.  Roll-overs
preserve this because a full group and the single pointer to its manifest unfold to the same chunks.
-/

namespace CCNxFileRepo.ManifestBuilder

open Foundations

variable {lib : CCNxLibrary} {capacity blockSize : ℕ} {name : CCNxName}

/-- Every pointer names an object made before. -/
structure PointerInvariant (lib : CCNxLibrary) (state : BuildState) : Prop where
  named : ∀ pointer ∈ state.group.pointers,
    ∃ object ∈ state.chunkList, lib.computeContentObjectHash object = pointer.digest
  closed : ∀ manifest, .manifest manifest ∈ state.chunkList → ∀ group ∈ manifest.hashGroups,
    ∀ pointer ∈ group.pointers,
      ∃ object ∈ state.chunkList, lib.computeContentObjectHash object = pointer.digest

/-- What the running group is about, for the chunks `seen` so far, the last one of the file
first. -/
structure TreeInvariant (lib : CCNxLibrary) (state : BuildState) (seen : List Bytes) : Prop where
  tree : ∀ resolve, Resolves lib resolve state.chunkList →
    ∃ t : ManifestTree resolve state.group.pointers, t.leaves = seen.reverse
  payloads : ∀ object, .contentObject object ∈ state.chunkList → object.payload ∈ seen
  finished : ∀ manifest, .manifest manifest ∈ state.chunkList →
    ∀ resolve, Resolves lib resolve state.chunkList →
      ∃ pointers, manifest.onlyGroup = some pointers ∧
        ∃ t : ManifestTree resolve pointers, t.leaves <:+ seen.reverse

/-- A list in dependency order is closed. -/
theorem OrderInvariant.pointerInvariant {state : BuildState} (h : OrderInvariant lib name state) :
    PointerInvariant lib state where
  named pointer hpointer := by
    obtain ⟨object, hobject, htags⟩ := h.group pointer hpointer
    exact ⟨object, hobject, htags.names⟩
  closed manifest hmanifest group hgroup pointer hpointer := by
    have hmember : pointer ∈ (CCNxMetaMessage.manifest manifest).pointers :=
      CCNxMetaMessage.mem_pointers_manifest.mpr ⟨group, hgroup, hpointer⟩
    obtain ⟨object, hobject, htags⟩ := h.ordered.closed _ hmanifest pointer hmember
    exact ⟨object, hobject, htags.names⟩

variable (lib capacity blockSize name) in
theorem buildLoop_pointerInvariant (chunks : List Bytes) :
    PointerInvariant lib (buildLoop lib capacity blockSize name chunks) :=
  (buildLoop_orderInvariant lib capacity blockSize name chunks).pointerInvariant

theorem TreeInvariant.initial : TreeInvariant lib .initial [] where
  tree _ _ := ⟨.nil, rfl⟩
  payloads := by simp [BuildState.initial]
  finished := by simp [BuildState.initial]

theorem length_initial_lt (hcapacity : 2 ≤ capacity) :
    BuildState.initial.group.pointers.length < capacity := by
  simp only [BuildState.initial, CCNxManifestHashGroup.create, List.length_nil]
  omega

/-- After every round the group has room for the next pointer. -/
theorem length_buildRound_lt (hcapacity : 2 ≤ capacity) {state : BuildState}
    (hroom : state.group.pointers.length < capacity) (chunk : Bytes) :
    (buildRound lib capacity blockSize name state chunk).group.pointers.length < capacity := by
  have hadded : (addChunk lib capacity name state chunk).group.pointers.length ≤ capacity := by
    rw [addChunk_pointers hroom, List.length_cons]
    omega
  unfold buildRound
  cases hfull : (addChunk lib capacity name state chunk).group.isFull capacity with
  | true =>
      rw [rollOver_pointers (by omega) hfull, List.length_singleton]
      omega
  | false =>
      rw [rollOver_of_not_full hfull]
      simp only [CCNxManifestHashGroup.isFull, beq_eq_false_iff_ne] at hfull
      omega

variable (lib blockSize name) in
/-- What survives the rounds that find room holds after the loop, and the group still has room. -/
theorem buildLoop_induction_of_room (hcapacity : 2 ≤ capacity)
    {motive : List Bytes → BuildState → Prop} (hinitial : motive [] .initial)
    (hround : ∀ seen chunk state, state.group.pointers.length < capacity → motive seen state →
      motive (seen ++ [chunk]) (buildRound lib capacity blockSize name state chunk))
    (chunks : List Bytes) :
    motive chunks (buildLoop lib capacity blockSize name chunks) ∧
      (buildLoop lib capacity blockSize name chunks).group.pointers.length < capacity := by
  apply buildLoop_induction lib capacity blockSize name
    (motive := fun seen state ↦ motive seen state ∧ state.group.pointers.length < capacity)
  · exact ⟨hinitial, length_initial_lt hcapacity⟩
  · rintro seen chunk state ⟨hmotive, hroom⟩
    exact ⟨hround seen chunk state hroom hmotive, length_buildRound_lt hcapacity hroom chunk⟩

theorem TreeInvariant.addChunk {state : BuildState} {seen : List Bytes}
    (h : TreeInvariant lib state seen) (hroom : state.group.pointers.length < capacity)
    (chunk : Bytes) :
    TreeInvariant lib (addChunk lib capacity name state chunk) (seen ++ [chunk]) where
  tree resolve hresolve := by
    rw [addChunk_chunkList] at hresolve
    obtain ⟨t, ht⟩ := h.tree resolve (hresolve.mono (List.subset_append_left _ _))
    have hobject := hresolve (chunkObject name chunk) (by simp)
    have hleaf : expandWith CCNxManifest.onlyGroup resolve (chunkPointer lib name chunk) =
        some (.leaf chunk) := by
      simp only [expandWith, chunkPointer, hobject]
      rfl
    rw [addChunk_pointers hroom]
    exact ⟨.leaf chunk hleaf t, by simp [Unfolding.leaves, ht]⟩
  payloads object hobject := by
    rw [addChunk_chunkList] at hobject
    rcases List.mem_append.mp hobject with hobject | hobject
    · exact List.mem_append_left _ (h.payloads object hobject)
    · rw [List.mem_singleton] at hobject
      cases hobject
      exact List.mem_append_right _ (List.mem_singleton_self _)
  finished manifest hmanifest resolve hresolve := by
    rw [addChunk_chunkList] at hmanifest hresolve
    have hold : .manifest manifest ∈ state.chunkList := by
      simpa [chunkObject] using hmanifest
    obtain ⟨pointers, hpointers, t, ht⟩ := h.finished manifest hold resolve
      (hresolve.mono (List.subset_append_left _ _))
    refine ⟨pointers, hpointers, t, ht.trans ?_⟩
    rw [List.reverse_append]
    exact List.suffix_append _ _

theorem TreeInvariant.rollOver {state : BuildState} {seen : List Bytes}
    (h : TreeInvariant lib state seen) (hpos : 0 < capacity) :
    TreeInvariant lib (rollOver lib capacity blockSize name state) seen := by
  cases hfull : state.group.isFull capacity with
  | false => rwa [rollOver_of_not_full hfull]
  | true =>
      constructor
      case tree =>
        intro resolve hresolve
        rw [rollOver_chunkList hfull] at hresolve
        rw [rollOver_pointers hpos hfull]
        obtain ⟨t, ht⟩ := h.tree resolve (hresolve.mono (List.subset_append_left _ _))
        have hmanifest := hresolve (rollOverManifest blockSize name state) (by simp)
        have hnode : expandWith CCNxManifest.onlyGroup resolve
            (rollOverPointer lib blockSize name state) = some (.node state.group.pointers) := by
          simp only [expandWith, rollOverPointer, hmanifest]
          rfl
        exact ⟨.node state.group.pointers hnode t .nil, by simp [Unfolding.leaves, ht]⟩
      case payloads =>
        intro object hobject
        rw [rollOver_chunkList hfull] at hobject
        have hold : .contentObject object ∈ state.chunkList := by
          simpa [rollOverManifest, groupManifest] using hobject
        exact h.payloads object hold
      case finished =>
        intro manifest hmanifest resolve hresolve
        rw [rollOver_chunkList hfull] at hmanifest hresolve
        have hearlier : Resolves lib resolve state.chunkList :=
          hresolve.mono (List.subset_append_left _ _)
        rcases List.mem_append.mp hmanifest with hmanifest | hmanifest
        · exact h.finished manifest hmanifest resolve hearlier
        · rw [List.mem_singleton] at hmanifest
          cases hmanifest
          obtain ⟨t, ht⟩ := h.tree resolve hearlier
          exact ⟨_, rfl, t, ht ▸ List.suffix_rfl⟩

variable (lib blockSize name) in
/-- The group always has room, so the loop keeps the tree. -/
theorem buildLoop_treeInvariant (hcapacity : 2 ≤ capacity) (chunks : List Bytes) :
    TreeInvariant lib (buildLoop lib capacity blockSize name chunks) chunks ∧
      (buildLoop lib capacity blockSize name chunks).group.pointers.length < capacity := by
  apply buildLoop_induction_of_room lib blockSize name hcapacity
    (motive := fun seen state ↦ TreeInvariant lib state seen)
  · exact .initial
  · intro seen chunk state hroom hinvariant
    exact (hinvariant.addChunk hroom chunk).rollOver (by omega)

section Root

variable {chunker : PARCChunker}

theorem onlyGroup_rootManifest :
    (rootManifest lib capacity chunker name).onlyGroup = some
      (buildLoop lib capacity chunker.chunkSize name chunker.reverseIterator).group.pointers := rfl

theorem rootManifest_mem : .manifest (rootManifest lib capacity chunker name) ∈
    buildSkewedManifest lib capacity chunker name := by
  simp [buildSkewedManifest]

theorem payload_mem_reverseIterator (hcapacity : 2 ≤ capacity) {object : CCNxContentObject}
    (hobject : .contentObject object ∈ buildSkewedManifest lib capacity chunker name) :
    object.payload ∈ chunker.reverseIterator := by
  obtain ⟨hinvariant, -⟩ := buildLoop_treeInvariant lib chunker.chunkSize name hcapacity
    chunker.reverseIterator
  apply hinvariant.payloads
  simpa [buildSkewedManifest] using hobject

/-- The root manifest unfolds to the chunks in file order wherever its objects can be found. -/
theorem exists_rootTree (hcapacity : 2 ≤ capacity) {resolve : Resolver}
    (hresolve : Resolves lib resolve (buildSkewedManifest lib capacity chunker name)) :
    ∃ pointers, (rootManifest lib capacity chunker name).onlyGroup = some pointers ∧
      ∃ t : ManifestTree resolve pointers, t.leaves = chunker.reverseIterator.reverse := by
  obtain ⟨hinvariant, -⟩ := buildLoop_treeInvariant lib chunker.chunkSize name hcapacity
    chunker.reverseIterator
  exact ⟨_, onlyGroup_rootManifest,
    hinvariant.tree resolve (hresolve.mono (List.subset_append_left _ _))⟩

/-- Every manifest of the list unfolds to the last chunks of the file from some chunk on. -/
theorem exists_manifestTree (hcapacity : 2 ≤ capacity) {resolve : Resolver}
    (hresolve : Resolves lib resolve (buildSkewedManifest lib capacity chunker name))
    {manifest : CCNxManifest}
    (hmanifest : .manifest manifest ∈ buildSkewedManifest lib capacity chunker name) :
    ∃ pointers, manifest.onlyGroup = some pointers ∧
      ∃ t : ManifestTree resolve pointers, t.leaves <:+ chunker.reverseIterator.reverse := by
  rcases List.mem_append.mp hmanifest with hmanifest | hmanifest
  · obtain ⟨hinvariant, -⟩ := buildLoop_treeInvariant lib chunker.chunkSize name hcapacity
      chunker.reverseIterator
    exact hinvariant.finished manifest hmanifest resolve
      (hresolve.mono (List.subset_append_left _ _))
  · rw [List.mem_singleton] at hmanifest
    cases hmanifest
    obtain ⟨pointers, hpointers, t, ht⟩ := exists_rootTree hcapacity hresolve
    exact ⟨pointers, hpointers, t, ht ▸ List.suffix_rfl⟩

theorem buildSkewedManifest_closed (manifest : CCNxManifest)
    (hmanifest : .manifest manifest ∈ buildSkewedManifest lib capacity chunker name) :
    ∀ group ∈ manifest.hashGroups, ∀ pointer ∈ group.pointers,
      ∃ object ∈ buildSkewedManifest lib capacity chunker name,
        lib.computeContentObjectHash object = pointer.digest := by
  intro group hgroup pointer hpointer
  have hinvariant := buildLoop_pointerInvariant lib capacity chunker.chunkSize name
    chunker.reverseIterator
  have hnamed : ∃ object ∈ (buildLoop lib capacity chunker.chunkSize name
      chunker.reverseIterator).chunkList, lib.computeContentObjectHash object = pointer.digest := by
    rcases List.mem_append.mp hmanifest with hmanifest | hmanifest
    · exact hinvariant.closed manifest hmanifest group hgroup pointer hpointer
    · have heq : manifest = rootManifest lib capacity chunker name := by simpa using hmanifest
      subst heq
      have hgroup : group = rootGroup lib (buildLoop lib capacity chunker.chunkSize name
          chunker.reverseIterator) := by
        simpa [rootManifest, CCNxManifest.addHashGroup] using hgroup
      subst hgroup
      exact hinvariant.named pointer hpointer
  obtain ⟨object, hobject, hdigest⟩ := hnamed
  exact ⟨object, List.mem_append_left _ hobject, hdigest⟩

/-- Every digest reachable from the root names an object of the list. -/
theorem exists_object_of_reachable {digest : Bytes}
    (h : Reachable lib (buildSkewedManifest lib capacity chunker name)
      (rootManifest lib capacity chunker name) digest) :
    ∃ object ∈ buildSkewedManifest lib capacity chunker name,
      lib.computeContentObjectHash object = digest := by
  rcases h with rfl | ⟨group, hgroup, hbelow⟩
  · exact ⟨_, rootManifest_mem, rfl⟩
  · exact hbelow.exists_object (buildSkewedManifest_closed _ rootManifest_mem group hgroup)
      buildSkewedManifest_closed

end Root

end CCNxFileRepo.ManifestBuilder
