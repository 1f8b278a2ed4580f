import CCNxFileRepo.CCNx.ReferenceLibrary
import CCNxFileRepo.Repository.SkewedTree

/-!
# The shape of a skewed manifest

With room for two pointers a hash group is never full when a pointer is added to it.  The first
group that fills up holds data pointers only.  Every later one starts from the link to the manifest
before it, so it takes one chunk less.  The manifests made on the way hang together in one chain,
and the loop leaves the group that the root is made of.
-/

namespace CCNxFileRepo.ManifestBuilder

variable (lib : CCNxLibrary)

/-! ## Results that the builder ignores -/

/-- What `ccnxManifestHashGroup_PrependPointer` and `ccnxManifestHashGroup_AppendPointer` return in
one round of the loop. -/
def roundResults (capacity blockSize : ℕ) (name : CCNxName) (state : BuildState) (chunk : Bytes) :
    List Bool :=
  let chunkDigest := computeMessageHash lib (chunkObject name chunk)
  let added := addChunk lib capacity name state chunk
  let root := groupManifest name (sealGroup blockSize added)
  let digest := computeMessageHash lib root
  (state.group.prependPointer capacity .data chunkDigest).1 ::
    if added.group.isFull capacity then
      [(CCNxManifestHashGroup.create.appendPointer capacity .manifest digest).1]
    else []

/-- What they return in the whole loop. -/
def pointerResults (capacity blockSize : ℕ) (name : CCNxName) : BuildState → List Bytes → List Bool
  | _, [] => []
  | state, chunk :: chunks =>
      roundResults lib capacity blockSize name state chunk ++
        pointerResults capacity blockSize name (buildRound lib capacity blockSize name state chunk)
          chunks

/-! ## Chains -/

def manifestPointer (manifest : CCNxManifest) : CCNxManifestHashGroupPointer :=
  ⟨.manifest, lib.computeContentObjectHash (.manifest manifest)⟩

/-- Data pointers only, but for the link to `below` at the end if there is such a manifest. -/
def EndsAt (pointers : List CCNxManifestHashGroupPointer) (below : Option CCNxManifest) : Prop :=
  ∃ data, pointers = data ++ (below.map (manifestPointer lib)).toList ∧
    ∀ pointer ∈ data, pointer.pointerType = .data

/-- Every manifest has one hash group, which ends with the link to the next manifest; the last one
has no link. -/
def SkewedChain : List CCNxManifest → Prop
  | [] => True
  | manifest :: below =>
      (∃ pointers, manifest.onlyGroup = some pointers ∧ EndsAt lib pointers below.head?) ∧
        SkewedChain below

def manifests (list : List CCNxMetaMessage) : List CCNxManifest :=
  list.filterMap CCNxMetaMessage.getManifest

variable {lib} {capacity blockSize : ℕ} {name : CCNxName}

theorem prependPointer_fst {group : CCNxManifestHashGroup}
    (hroom : group.pointers.length < capacity) (kind : CCNxManifestHashGroupPointerType)
    (digest : Bytes) : (group.prependPointer capacity kind digest).1 = true := by
  simp [CCNxManifestHashGroup.prependPointer, isFull_eq_false hroom]

theorem appendPointer_create_fst (hpos : 0 < capacity) (kind : CCNxManifestHashGroupPointerType)
    (digest : Bytes) :
    (CCNxManifestHashGroup.create.appendPointer capacity kind digest).1 = true := by
  simp [CCNxManifestHashGroup.appendPointer, isFull_create hpos]

/-- No pointer is refused from a group with room on. -/
theorem pointerResults_eq_true (hcapacity : 2 ≤ capacity) {state : BuildState}
    (hroom : state.group.pointers.length < capacity) (chunks : List Bytes) :
    ∀ result ∈ pointerResults lib capacity blockSize name state chunks, result = true := by
  induction chunks generalizing state with
  | nil => simp [pointerResults]
  | cons chunk chunks ih =>
      intro result hresult
      rcases List.mem_append.mp hresult with hround | hlater
      · rcases List.mem_cons.mp hround with rfl | hrolled
        · exact prependPointer_fst hroom _ _
        · split at hrolled
          · rw [List.mem_singleton.mp hrolled]
            exact appendPointer_create_fst (by omega) _ _
          · cases hrolled
      · exact ih (length_buildRound_lt hcapacity hroom chunk) result hlater

/-! ## The loop -/

/-- What the loop keeps, for the chunks `seen` so far. -/
structure ShapeInvariant (lib : CCNxLibrary) (capacity : ℕ) (name : CCNxName) (seen : List Bytes)
    (state : BuildState) : Prop where
  contentObjects : state.chunkList.filter (·.isContentObject) = seen.map (chunkObject name)
  length : state.chunkList.length = seen.length + (manifests state.chunkList).length
  /-- a roll-over trades `capacity` pointers for one -/
  count : state.group.pointers.length + (manifests state.chunkList).length * (capacity - 1) =
    seen.length
  pending : seen ≠ [] → state.group.pointers ≠ []
  endsAt : EndsAt lib state.group.pointers (manifests state.chunkList).getLast?
  chain : SkewedChain lib (manifests state.chunkList).reverse
  full : ∀ manifest ∈ manifests state.chunkList,
    (CCNxMetaMessage.manifest manifest).pointers.length = capacity

theorem ShapeInvariant.initial : ShapeInvariant lib capacity name [] .initial where
  contentObjects := rfl
  length := rfl
  count := by simp [BuildState.initial, CCNxManifestHashGroup.create, manifests]
  pending h := absurd rfl h
  endsAt := ⟨[], rfl, by simp⟩
  chain := trivial
  full := by simp [BuildState.initial, manifests]

theorem EndsAt.cons {pointers : List CCNxManifestHashGroupPointer} {below : Option CCNxManifest}
    (h : EndsAt lib pointers below) {pointer : CCNxManifestHashGroupPointer}
    (hpointer : pointer.pointerType = .data) : EndsAt lib (pointer :: pointers) below := by
  obtain ⟨data, rfl, hdata⟩ := h
  exact ⟨pointer :: data, rfl, List.forall_mem_cons.mpr ⟨hpointer, hdata⟩⟩

theorem manifests_addChunk (state : BuildState) (chunk : Bytes) :
    manifests (addChunk lib capacity name state chunk).chunkList = manifests state.chunkList := by
  simp [addChunk_chunkList, manifests, chunkObject, CCNxMetaMessage.getManifest]

theorem ShapeInvariant.addChunk {seen : List Bytes} {state : BuildState}
    (h : ShapeInvariant lib capacity name seen state)
    (hroom : state.group.pointers.length < capacity) (chunk : Bytes) :
    ShapeInvariant lib capacity name (seen ++ [chunk])
      (addChunk lib capacity name state chunk) := by
  have hmanifests : manifests (ManifestBuilder.addChunk lib capacity name state chunk).chunkList =
      manifests state.chunkList := manifests_addChunk state chunk
  constructor
  case contentObjects =>
    rw [addChunk_chunkList, List.filter_append, h.contentObjects, List.map_append]
    rfl
  case length =>
    rw [hmanifests, addChunk_chunkList, List.length_append, List.length_append, h.length]
    simp only [List.length_singleton]
    omega
  case count =>
    rw [hmanifests, addChunk_pointers hroom, List.length_cons, List.length_append, ← h.count]
    simp only [List.length_singleton]
    omega
  case pending =>
    intro _
    rw [addChunk_pointers hroom]
    exact List.cons_ne_nil _ _
  case endsAt =>
    rw [hmanifests, addChunk_pointers hroom]
    exact h.endsAt.cons rfl
  case chain => exact hmanifests ▸ h.chain
  case full => exact hmanifests ▸ h.full

variable (lib blockSize name) in
/-- A roll-over puts the full group into a manifest and leaves the link to it. -/
theorem exists_manifest_of_rollOver {state : BuildState} (hpos : 0 < capacity)
    (hfull : state.group.isFull capacity = true) :
    ∃ manifest : CCNxManifest, manifest.onlyGroup = some state.group.pointers ∧
      (CCNxMetaMessage.manifest manifest).pointers = state.group.pointers ∧
      (rollOver lib capacity blockSize name state).chunkList =
        state.chunkList ++ [.manifest manifest] ∧
      (rollOver lib capacity blockSize name state).group.pointers =
        [manifestPointer lib manifest] :=
  ⟨_, rfl, pointers_groupManifest (sealGroup blockSize state), rollOver_chunkList hfull,
    rollOver_pointers hpos hfull⟩

theorem manifests_concat (list : List CCNxMetaMessage) (manifest : CCNxManifest) :
    manifests (list ++ [.manifest manifest]) = manifests list ++ [manifest] := by
  simp [manifests, CCNxMetaMessage.getManifest]

theorem ShapeInvariant.rollOver (hcapacity : 2 ≤ capacity) {seen : List Bytes} {state : BuildState}
    (h : ShapeInvariant lib capacity name seen state) :
    ShapeInvariant lib capacity name seen (rollOver lib capacity blockSize name state) := by
  cases hfull : state.group.isFull capacity with
  | false => rwa [rollOver_of_not_full hfull]
  | true =>
      obtain ⟨manifest, hgroup, hpointers, hlist, hlink⟩ :=
        exists_manifest_of_rollOver lib blockSize name (by omega) hfull
      have hlength : state.group.pointers.length = capacity := by
        simpa [CCNxManifestHashGroup.isFull] using hfull
      constructor
      case contentObjects =>
        rw [hlist, List.filter_append, h.contentObjects]
        simp [CCNxMetaMessage.isContentObject]
      case length =>
        rw [hlist, manifests_concat, List.length_append, List.length_append, h.length,
          List.length_singleton, List.length_singleton, Nat.add_assoc]
      case count =>
        calc
          _ = 1 + ((manifests state.chunkList).length + 1) * (capacity - 1) := by
            rw [hlist, hlink, manifests_concat, List.length_append, List.length_singleton,
              List.length_singleton]
          _ = capacity + (manifests state.chunkList).length * (capacity - 1) := by
            rw [Nat.succ_mul]
            omega
          _ = seen.length := by rw [← h.count, hlength]
      case pending =>
        intro _
        rw [hlink]
        exact List.cons_ne_nil _ _
      case endsAt =>
        rw [hlist, hlink, manifests_concat, List.getLast?_concat]
        exact ⟨[], rfl, by simp⟩
      case chain =>
        rw [hlist, manifests_concat, List.reverse_concat]
        refine ⟨⟨_, hgroup, ?_⟩, h.chain⟩
        rw [List.head?_reverse]
        exact h.endsAt
      case full =>
        rw [hlist, manifests_concat]
        intro other hother
        rcases List.mem_append.mp hother with hother | hother
        · exact h.full other hother
        · rw [List.mem_singleton.mp hother, hpointers, hlength]

variable (lib blockSize name) in
theorem buildLoop_shapeInvariant (hcapacity : 2 ≤ capacity) (chunks : List Bytes) :
    ShapeInvariant lib capacity name chunks (buildLoop lib capacity blockSize name chunks) ∧
      (buildLoop lib capacity blockSize name chunks).group.pointers.length < capacity := by
  apply buildLoop_induction_of_room lib blockSize name hcapacity
    (motive := fun seen state ↦ ShapeInvariant lib capacity name seen state)
  · exact .initial
  · intro seen chunk state hroom hinvariant
    exact (hinvariant.addChunk hroom chunk).rollOver hcapacity

/-! ## The list -/

/-- The number of roll-overs that leaves fewer than `capacity` pointers, and some if there is a
chunk. -/
theorem rollOvers_eq {pointers rollOvers chunks : ℕ} (hcapacity : 2 ≤ capacity)
    (hcount : pointers + rollOvers * (capacity - 1) = chunks) (hroom : pointers < capacity)
    (hpending : chunks ≠ 0 → pointers ≠ 0) :
    rollOvers = if chunks = 0 then 0 else (chunks - 1) / (capacity - 1) := by
  by_cases hchunks : chunks = 0
  · have hnone : rollOvers * (capacity - 1) = 0 := by omega
    rw [if_pos hchunks]
    exact (Nat.mul_eq_zero.mp hnone).resolve_right (by omega)
  · have hpointers := hpending hchunks
    rw [if_neg hchunks]
    symm
    apply Nat.div_eq_of_lt_le
    · omega
    · rw [Nat.succ_mul]
      omega

/-- For any number of chunks and any capacity from two on: no pointer is refused, the list holds one
content object for every chunk and the manifests of the chain, every manifest but the root is full,
and the root is not. -/
theorem buildSkewedManifest_shape (lib : CCNxLibrary) (capacity : ℕ) (hcapacity : 2 ≤ capacity)
    (chunker : PARCChunker) (name : CCNxName) :
    (∀ result ∈ pointerResults lib capacity chunker.chunkSize name .initial
      chunker.reverseIterator, result = true) ∧
    ((buildSkewedManifest lib capacity chunker name).filter (·.isContentObject) =
        chunker.reverseIterator.map (chunkObject name) ∧
      (manifests (buildSkewedManifest lib capacity chunker name)).length =
        (if chunker.reverseIterator.length = 0 then 0
          else (chunker.reverseIterator.length - 1) / (capacity - 1)) + 1 ∧
      (buildSkewedManifest lib capacity chunker name).length =
        chunker.reverseIterator.length +
          (manifests (buildSkewedManifest lib capacity chunker name)).length) ∧
    ∃ inner, (manifests (buildSkewedManifest lib capacity chunker name)).reverse =
        rootManifest lib capacity chunker name :: inner ∧
      SkewedChain lib (rootManifest lib capacity chunker name :: inner) ∧
      (∀ manifest ∈ inner, (CCNxMetaMessage.manifest manifest).pointers.length = capacity) ∧
      (CCNxMetaMessage.manifest (rootManifest lib capacity chunker name)).pointers.length <
        capacity := by
  obtain ⟨hshape, hroom⟩ := buildLoop_shapeInvariant lib chunker.chunkSize name hcapacity
    chunker.reverseIterator
  have hmanifests : manifests (buildSkewedManifest lib capacity chunker name) =
      manifests (buildLoop lib capacity chunker.chunkSize name
        chunker.reverseIterator).chunkList ++ [rootManifest lib capacity chunker name] :=
    manifests_concat _ _
  have hroot : (CCNxMetaMessage.manifest (rootManifest lib capacity chunker name)).pointers =
      (buildLoop lib capacity chunker.chunkSize name chunker.reverseIterator).group.pointers :=
    pointers_groupManifest (rootGroup lib _)
  have hrollOvers := rollOvers_eq hcapacity hshape.count hroom fun hchunks ↦ by
    simpa using hshape.pending (by simpa using hchunks)
  refine ⟨pointerResults_eq_true hcapacity (length_initial_lt hcapacity) _, ⟨?_, ?_, ?_⟩, ?_⟩
  · rw [buildSkewedManifest, List.filter_append, hshape.contentObjects]
    simp [CCNxMetaMessage.isContentObject]
  · rw [hmanifests, List.length_append, hrollOvers, List.length_singleton]
  · rw [hmanifests, buildSkewedManifest, List.length_append, List.length_append, hshape.length,
      List.length_singleton, List.length_singleton, Nat.add_assoc]
  · refine ⟨_, by rw [hmanifests, List.reverse_concat], ⟨⟨_, onlyGroup_rootManifest, ?_⟩,
      hshape.chain⟩, ?_, ?_⟩
    · rw [List.head?_reverse]
      exact hshape.endsAt
    · exact fun manifest hmanifest ↦ hshape.full manifest (List.mem_reverse.mp hmanifest)
    · rw [hroot]
      exact hroom

open ReferenceLibrary in
/-- Five chunks, two of them equal and one empty, with hash groups of three pointers. -/
theorem buildSkewedManifest_shape_five :
    let chunker : PARCChunker := ⟨2, [[7], [], [8, 9], [7], [6]]⟩
    let name : CCNxName := ⟨[[1]]⟩
    let list := buildSkewedManifest referenceLibrary 3 chunker name
    (∀ result ∈ pointerResults referenceLibrary 3 2 name .initial chunker.reverseIterator,
      result = true) ∧
    (list.filter (·.isContentObject) = chunker.reverseIterator.map (chunkObject name) ∧
      (manifests list).length = 3 ∧ list.length = 5 + (manifests list).length) ∧
    ∃ inner, (manifests list).reverse = rootManifest referenceLibrary 3 chunker name :: inner ∧
      SkewedChain referenceLibrary (rootManifest referenceLibrary 3 chunker name :: inner) ∧
      (∀ manifest ∈ inner, (CCNxMetaMessage.manifest manifest).pointers.length = 3) ∧
      (CCNxMetaMessage.manifest (rootManifest referenceLibrary 3 chunker name)).pointers.length <
        3 :=
  buildSkewedManifest_shape referenceLibrary 3 (by decide) ⟨2, [[7], [], [8, 9], [7], [6]]⟩ ⟨[[1]]⟩

end CCNxFileRepo.ManifestBuilder
