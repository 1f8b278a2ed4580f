import CCNxFileRepo.Repository.SkewedShape

/-!
# The sizes in the hash groups

The loop of the builder counts bytes twice.  `entrySize` starts again at every roll-over and ends up
in the full group, `applicationDataSize` runs through and ends up in the root.  The chunks fall into
consecutive blocks, one for each group: a group names the chunks of its block, and its counter is
the number of bytes in them.
-/

namespace CCNxFileRepo.ManifestBuilder

/-- The `EntrySize` of a manifest's first hash group. -/
def entrySize (manifest : CCNxManifest) : Option ℕ :=
  manifest.hashGroups.head?.bind (·.entrySize)

/-- The `DataSize` of a manifest's first hash group. -/
def dataSize (manifest : CCNxManifest) : Option ℕ :=
  manifest.hashGroups.head?.bind (·.dataSize)

def dataPointers (pointers : List CCNxManifestHashGroupPointer) :
    List CCNxManifestHashGroupPointer :=
  pointers.filter (·.pointerType == .data)

variable (lib : CCNxLibrary)

/-- The payload bytes of the content object that a pointer names in a list. -/
def payloadLength (list : List CCNxMetaMessage) (pointer : CCNxManifestHashGroupPointer) : ℕ :=
  match findObject lib list pointer.digest with
  | some (.contentObject object) => object.payload.length
  | _ => 0

/-- The payload bytes that a manifest names by its own Data pointers. -/
def namedBytes (list : List CCNxMetaMessage) (manifest : CCNxManifest) : ℕ :=
  ((dataPointers (CCNxMetaMessage.manifest manifest).pointers).map (payloadLength lib list)).sum

/-- A manifest names `chunks`, which the loop saw in this order, and its sizes are their bytes. -/
structure Accounts (name : CCNxName) (manifest : CCNxManifest) (chunks : List Bytes) : Prop where
  pointers : dataPointers (CCNxMetaMessage.manifest manifest).pointers =
    (chunks.map (chunkPointer lib name)).reverse
  entrySize : entrySize manifest = some chunks.flatten.length
  dataSize : dataSize manifest = some chunks.flatten.length

/-- The chunks `seen` so far are the blocks of the manifests made, one after the other, and those of
the running group. -/
structure SizeInvariant (name : CCNxName) (seen : List Bytes) (blocks : List (List Bytes))
    (running : List Bytes) (state : BuildState) : Prop where
  seen_eq : seen = blocks.flatten ++ running
  accounts : List.Forall₂ (Accounts lib name) (manifests state.chunkList) blocks
  pointers : dataPointers state.group.pointers = (running.map (chunkPointer lib name)).reverse
  applicationDataSize : state.applicationDataSize = seen.flatten.length
  entrySize : state.entrySize = running.flatten.length

variable {lib} {capacity blockSize : ℕ} {name : CCNxName} {seen running : List Bytes}
  {blocks : List (List Bytes)} {state : BuildState}

theorem SizeInvariant.initial : SizeInvariant lib name [] [] [] .initial where
  seen_eq := rfl
  accounts := .nil
  pointers := rfl
  applicationDataSize := rfl
  entrySize := rfl

/-- A chunk joins the block of the running group, and both counters count it. -/
theorem SizeInvariant.addChunk (h : SizeInvariant lib name seen blocks running state)
    (hroom : state.group.pointers.length < capacity) (chunk : Bytes) :
    SizeInvariant lib name (seen ++ [chunk]) blocks (running ++ [chunk])
      (addChunk lib capacity name state chunk) where
  seen_eq := by rw [h.seen_eq, List.append_assoc]
  accounts := by
    rw [manifests_addChunk]
    exact h.accounts
  pointers := by
    rw [addChunk_pointers hroom, List.map_append, List.reverse_append, ← h.pointers]
    rfl
  applicationDataSize := by
    rw [List.flatten_concat, List.length_append, ← h.applicationDataSize]
    rfl
  entrySize := by
    rw [List.flatten_concat, List.length_append, ← h.entrySize]
    rfl

/-- The manifest that a roll-over makes. -/
def sealedManifest (blockSize : ℕ) (name : CCNxName) (state : BuildState) : CCNxManifest :=
  CCNxManifest.addHashGroup { name := name, hashGroups := [] } (sealGroup blockSize state)

theorem manifests_rollOver (hfull : state.group.isFull capacity = true) :
    manifests (rollOver lib capacity blockSize name state).chunkList =
      manifests state.chunkList ++ [sealedManifest blockSize name state] := by
  rw [rollOver_chunkList hfull]
  exact manifests_concat _ _

/-- The full group carries the bytes of its block. -/
theorem SizeInvariant.accounts_sealedManifest
    (h : SizeInvariant lib name seen blocks running state) :
    Accounts lib name (sealedManifest blockSize name state) running where
  pointers := by
    rw [← h.pointers]
    exact congrArg dataPointers (pointers_groupManifest (sealGroup blockSize state))
  entrySize := congrArg some h.entrySize
  dataSize := congrArg some h.entrySize

/-- A roll-over closes the block of the running group, and the next one starts empty. -/
theorem SizeInvariant.rollOver (h : SizeInvariant lib name seen blocks running state)
    (hpos : 0 < capacity) :
    ∃ blocks running, SizeInvariant lib name seen blocks running
      (rollOver lib capacity blockSize name state) := by
  cases hfull : state.group.isFull capacity with
  | false => exact ⟨blocks, running, by rwa [rollOver_of_not_full hfull]⟩
  | true =>
      refine ⟨blocks ++ [running], [], ?_⟩
      constructor
      case seen_eq => simpa using h.seen_eq
      case accounts =>
        rw [manifests_rollOver hfull]
        exact List.rel_append h.accounts (.cons h.accounts_sealedManifest .nil)
      case pointers =>
        rw [rollOver_pointers hpos hfull]
        rfl
      case applicationDataSize =>
        rw [← h.applicationDataSize]
        simp [ManifestBuilder.rollOver, hfull]
      case entrySize => simp [ManifestBuilder.rollOver, hfull]

variable (lib blockSize name) in
theorem buildLoop_sizeInvariant (hcapacity : 2 ≤ capacity) (chunks : List Bytes) :
    ∃ blocks running, SizeInvariant lib name chunks blocks running
      (buildLoop lib capacity blockSize name chunks) := by
  refine (buildLoop_induction_of_room lib blockSize name hcapacity
    (motive := fun seen state ↦ ∃ blocks running, SizeInvariant lib name seen blocks running state)
    ?_ ?_ chunks).1
  · exact ⟨[], [], .initial⟩
  · rintro seen chunk state hroom ⟨blocks, running, hinvariant⟩
    exact (hinvariant.addChunk hroom chunk).rollOver (by omega)

/-! ## The list -/

/-- Every chunk is in the list as a content object. -/
theorem chunkObject_mem (hcapacity : 2 ≤ capacity) {chunker : PARCChunker} {chunk : Bytes}
    (hchunk : chunk ∈ chunker.reverseIterator) :
    chunkObject name chunk ∈ buildSkewedManifest lib capacity chunker name := by
  obtain ⟨hshape, -⟩ := buildLoop_shapeInvariant lib chunker.chunkSize name hcapacity
    chunker.reverseIterator
  have hmember := List.mem_map_of_mem (f := chunkObject name) hchunk
  rw [← hshape.contentObjects] at hmember
  exact List.mem_append_left _ (List.mem_filter.mp hmember).1

section Named

variable {objects : List CCNxMetaMessage} {chunks : List Bytes} {manifest : CCNxManifest}

theorem payloadLength_chunkPointer (hfree : lib.CollisionFreeOn {object | object ∈ objects})
    {chunk : Bytes} (hobject : chunkObject name chunk ∈ objects) :
    payloadLength lib objects (chunkPointer lib name chunk) = chunk.length := by
  have hfound := resolves_findObject hfree _ hobject
  simp only [payloadLength, chunkPointer, hfound]
  rfl

/-- Pointers made from chunks name the bytes of these chunks. -/
theorem namedBytes_eq (hfree : lib.CollisionFreeOn {object | object ∈ objects})
    (hchunks : ∀ chunk ∈ chunks, chunkObject name chunk ∈ objects)
    (hpointers : dataPointers (CCNxMetaMessage.manifest manifest).pointers =
      (chunks.map (chunkPointer lib name)).reverse) :
    namedBytes lib objects manifest = chunks.flatten.length := by
  have hlengths : (chunks.map (chunkPointer lib name)).map (payloadLength lib objects) =
      chunks.map List.length := by
    rw [List.map_map]
    apply List.map_congr_left
    intro chunk hchunk
    exact payloadLength_chunkPointer hfree (hchunks chunk hchunk)
  calc
    namedBytes lib objects manifest = (chunks.map List.length).reverse.sum := by
      rw [namedBytes, hpointers, List.map_reverse, hlengths]
    _ = chunks.flatten.length := by
      rw [List.sum_reverse, List.length_flatten]

end Named

theorem filterMap_dataSize {manifests : List CCNxManifest}
    (h : List.Forall₂ (Accounts lib name) manifests blocks) :
    (manifests.filterMap dataSize).sum = blocks.flatten.flatten.length := by
  induction h with
  | nil => rfl
  | @cons manifest chunks manifests blocks hmanifest _ ih =>
      rw [List.filterMap_cons_some hmanifest.dataSize, List.sum_cons, ih, List.flatten_cons,
        List.flatten_append, List.length_append]

theorem exists_block_of_mem {manifests : List CCNxManifest}
    (h : List.Forall₂ (Accounts lib name) manifests blocks) {manifest : CCNxManifest}
    (hmanifest : manifest ∈ manifests) : ∃ block ∈ blocks, Accounts lib name manifest block := by
  induction h with
  | nil => cases hmanifest
  | cons haccounts _ ih =>
      rcases List.mem_cons.mp hmanifest with rfl | hmanifest
      · exact ⟨_, List.mem_cons_self .., haccounts⟩
      · obtain ⟨block, hblock, haccounts⟩ := ih hmanifest
        exact ⟨block, List.mem_cons_of_mem _ hblock, haccounts⟩

/-- For any chunks and any capacity from two on: the chunks are the blocks of the manifests before
the root, one after the other, and a last block for the root.  Every manifest names the chunks of
its block and both its sizes are their bytes, the size of the root is that of all chunks, and the
sizes add up. -/
theorem buildSkewedManifest_sizes (lib : CCNxLibrary) (capacity : ℕ) (hcapacity : 2 ≤ capacity)
    (chunker : PARCChunker) (name : CCNxName) :
    ∃ inner blocks last,
      manifests (buildSkewedManifest lib capacity chunker name) =
        inner ++ [rootManifest lib capacity chunker name] ∧
      chunker.reverseIterator = blocks.flatten ++ last ∧
      List.Forall₂ (Accounts lib name) inner blocks ∧
      dataPointers (CCNxMetaMessage.manifest (rootManifest lib capacity chunker name)).pointers =
        (last.map (chunkPointer lib name)).reverse ∧
      dataSize (rootManifest lib capacity chunker name) =
        some chunker.reverseIterator.flatten.length ∧
      chunker.reverseIterator.flatten.length =
        (inner.filterMap dataSize).sum + last.flatten.length ∧
      (lib.CollisionFreeOn {object | object ∈ buildSkewedManifest lib capacity chunker name} →
        (∀ manifest ∈ inner,
          entrySize manifest =
            some (namedBytes lib (buildSkewedManifest lib capacity chunker name) manifest) ∧
          dataSize manifest =
            some (namedBytes lib (buildSkewedManifest lib capacity chunker name) manifest)) ∧
        dataSize (rootManifest lib capacity chunker name) =
          some ((inner.filterMap dataSize).sum +
            namedBytes lib (buildSkewedManifest lib capacity chunker name)
              (rootManifest lib capacity chunker name))) := by
  obtain ⟨blocks, last, hsizes⟩ := buildLoop_sizeInvariant lib chunker.chunkSize name hcapacity
    chunker.reverseIterator
  have hpointers : dataPointers
      (CCNxMetaMessage.manifest (rootManifest lib capacity chunker name)).pointers =
        (last.map (chunkPointer lib name)).reverse := by
    rw [← hsizes.pointers]
    exact congrArg dataPointers (pointers_groupManifest (rootGroup lib _))
  have htotal : chunker.reverseIterator.flatten.length =
      ((manifests (buildLoop lib capacity chunker.chunkSize name
        chunker.reverseIterator).chunkList).filterMap dataSize).sum + last.flatten.length := by
    rw [filterMap_dataSize hsizes.accounts, ← List.length_append, ← List.flatten_append,
      ← hsizes.seen_eq]
  have hsize : dataSize (rootManifest lib capacity chunker name) =
      some chunker.reverseIterator.flatten.length := congrArg some hsizes.applicationDataSize
  refine ⟨_, blocks, last, manifests_concat _ _, hsizes.seen_eq, hsizes.accounts, hpointers, hsize,
    htotal, fun hfree ↦ ?_⟩
  have hobjects : ∀ chunk ∈ blocks.flatten ++ last,
      chunkObject name chunk ∈ buildSkewedManifest lib capacity chunker name :=
    fun chunk hchunk ↦ chunkObject_mem hcapacity (hsizes.seen_eq ▸ hchunk)
  constructor
  · intro manifest hmanifest
    obtain ⟨block, hblock, haccounts⟩ := exists_block_of_mem hsizes.accounts hmanifest
    have hnamed := namedBytes_eq hfree (fun chunk hchunk ↦ hobjects chunk
      (List.mem_append_left _ (List.mem_flatten_of_mem hblock hchunk))) haccounts.pointers
    rw [hnamed]
    exact ⟨haccounts.entrySize, haccounts.dataSize⟩
  · rw [hsize, htotal, namedBytes_eq hfree
      (fun chunk hchunk ↦ hobjects chunk (List.mem_append_right _ hchunk)) hpointers]

open ReferenceLibrary in
/-- Five chunks of six bytes, two of them equal and one empty, with hash groups of three
pointers. -/
theorem buildSkewedManifest_sizes_five :
    let chunker : PARCChunker := ⟨2, [[7], [], [8, 9], [7], [6, 5]]⟩
    let name : CCNxName := ⟨[[1]]⟩
    let list := buildSkewedManifest referenceLibrary 3 chunker name
    let root := rootManifest referenceLibrary 3 chunker name
    ∃ inner, manifests list = inner ++ [root] ∧ dataSize root = some 6 ∧
      (∀ manifest ∈ inner, entrySize manifest = some (namedBytes referenceLibrary list manifest) ∧
        dataSize manifest = some (namedBytes referenceLibrary list manifest)) ∧
      dataSize root =
        some ((inner.filterMap dataSize).sum + namedBytes referenceLibrary list root) := by
  intro chunker name list root
  obtain ⟨inner, blocks, last, hinner, -, -, -, hsize, -, hnamed⟩ :=
    buildSkewedManifest_sizes referenceLibrary 3 (by decide) chunker name
  obtain ⟨hgroups, hroot⟩ := hnamed (collisionFreeOn _)
  exact ⟨inner, hinner, hsize, hgroups, hroot⟩

end CCNxFileRepo.ManifestBuilder
