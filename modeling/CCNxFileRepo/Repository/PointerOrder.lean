import CCNxFileRepo.Foundations.DependencyOrder
import CCNxFileRepo.Repository.ManifestBuilder

/-!
# The order in which a build makes its objects

What one round of the builder's loop does to the list and to the running group, and what follows
for the list alone: every pointer is made from an object that is in the list by then, with the tag
that fits its kind, and every object carries the name of the build.  So the list is in dependency
order, whatever the capacity of a hash group is.
-/

namespace CCNxFileRepo

open Foundations

/-- A pointer names the messages with its digest. -/
def Names (lib : CCNxLibrary) (pointer : CCNxManifestHashGroupPointer)
    (message : CCNxMetaMessage) : Prop :=
  lib.computeContentObjectHash message = pointer.digest

/-- A pointer names a message and is tagged with its kind. -/
structure Tags (lib : CCNxLibrary) (pointer : CCNxManifestHashGroupPointer)
    (message : CCNxMetaMessage) : Prop where
  names : Names lib pointer message
  kind : message.pointerType = some pointer.pointerType

namespace ManifestBuilder

variable {lib : CCNxLibrary} {capacity blockSize : ℕ} {name : CCNxName}

/-! ## One round -/

def chunkPointer (lib : CCNxLibrary) (name : CCNxName) (chunk : Bytes) :
    CCNxManifestHashGroupPointer :=
  ⟨.data, lib.computeContentObjectHash (chunkObject name chunk)⟩

/-- The manifest that a roll-over appends. -/
def rollOverManifest (blockSize : ℕ) (name : CCNxName) (state : BuildState) : CCNxMetaMessage :=
  groupManifest name (sealGroup blockSize state)

/-- The pointer the next group starts with. -/
def rollOverPointer (lib : CCNxLibrary) (blockSize : ℕ) (name : CCNxName) (state : BuildState) :
    CCNxManifestHashGroupPointer :=
  ⟨.manifest, lib.computeContentObjectHash (rollOverManifest blockSize name state)⟩

theorem addChunk_chunkList (state : BuildState) (chunk : Bytes) :
    (addChunk lib capacity name state chunk).chunkList =
      state.chunkList ++ [chunkObject name chunk] := rfl

theorem mem_addChunk_pointers {state : BuildState} {chunk : Bytes}
    {pointer : CCNxManifestHashGroupPointer}
    (h : pointer ∈ (addChunk lib capacity name state chunk).group.pointers) :
    pointer = chunkPointer lib name chunk ∨ pointer ∈ state.group.pointers := by
  simp only [addChunk, CCNxManifestHashGroup.prependPointer, computeMessageHash_eq] at h
  split at h
  · exact Or.inr h
  · exact List.mem_cons.mp h

theorem isFull_eq_false {group : CCNxManifestHashGroup}
    (hroom : group.pointers.length < capacity) : group.isFull capacity = false := by
  simp only [CCNxManifestHashGroup.isFull, beq_eq_false_iff_ne]
  omega

theorem isFull_create (hpos : 0 < capacity) :
    CCNxManifestHashGroup.create.isFull capacity = false := isFull_eq_false hpos

/-- A group that is not full takes the pointer of the next chunk. -/
theorem addChunk_pointers {state : BuildState} (hroom : state.group.pointers.length < capacity)
    (chunk : Bytes) :
    (addChunk lib capacity name state chunk).group.pointers =
      chunkPointer lib name chunk :: state.group.pointers := by
  simp [addChunk, CCNxManifestHashGroup.prependPointer, isFull_eq_false hroom, chunkPointer]

theorem rollOver_of_not_full {state : BuildState} (hfull : state.group.isFull capacity = false) :
    rollOver lib capacity blockSize name state = state := by
  simp [rollOver, hfull]

theorem rollOver_chunkList {state : BuildState} (hfull : state.group.isFull capacity = true) :
    (rollOver lib capacity blockSize name state).chunkList =
      state.chunkList ++ [rollOverManifest blockSize name state] := by
  simp [rollOver, hfull, rollOverManifest]

theorem mem_rollOver_pointers {state : BuildState} (hfull : state.group.isFull capacity = true)
    {pointer : CCNxManifestHashGroupPointer}
    (h : pointer ∈ (rollOver lib capacity blockSize name state).group.pointers) :
    pointer = rollOverPointer lib blockSize name state := by
  simp only [rollOver, hfull, if_true, CCNxManifestHashGroup.appendPointer,
    CCNxManifestHashGroup.create, computeMessageHash_eq] at h
  split at h
  · cases h
  · exact List.mem_singleton.mp h

theorem rollOver_pointers {state : BuildState} (hpos : 0 < capacity)
    (hfull : state.group.isFull capacity = true) :
    (rollOver lib capacity blockSize name state).group.pointers =
      [rollOverPointer lib blockSize name state] := by
  simp [rollOver, hfull, rollOverPointer, rollOverManifest, CCNxManifestHashGroup.appendPointer,
    isFull_create hpos]
  rfl

/-! ## The loop -/

theorem buildLoop_append (chunks : List Bytes) (chunk : Bytes) :
    buildLoop lib capacity blockSize name (chunks ++ [chunk]) =
      buildRound lib capacity blockSize name (buildLoop lib capacity blockSize name chunks)
        chunk := by
  simp [buildLoop]

variable (lib capacity blockSize name) in
/-- What holds at the start and survives every round holds after the loop. -/
theorem buildLoop_induction {motive : List Bytes → BuildState → Prop}
    (hinitial : motive [] .initial)
    (hround : ∀ seen chunk state, motive seen state →
      motive (seen ++ [chunk]) (buildRound lib capacity blockSize name state chunk))
    (chunks : List Bytes) : motive chunks (buildLoop lib capacity blockSize name chunks) := by
  induction chunks using List.reverseRecOn with
  | nil => exact hinitial
  | append_singleton chunks chunk ih =>
      rw [buildLoop_append]
      exact hround chunks chunk _ ih

/-- The list is in dependency order, and so are the pointers of the running group. -/
structure OrderInvariant (lib : CCNxLibrary) (name : CCNxName) (state : BuildState) : Prop where
  ordered : DependencyOrdered (fun message ↦ {pointer | pointer ∈ message.pointers}) (Tags lib)
    state.chunkList
  group : ∀ pointer ∈ state.group.pointers, ∃ object ∈ state.chunkList, Tags lib pointer object
  objectName : ∀ object ∈ state.chunkList, object.objectName = some name

theorem OrderInvariant.initial : OrderInvariant lib name .initial where
  ordered := .nil
  group := by simp [BuildState.initial, CCNxManifestHashGroup.create]
  objectName := by simp [BuildState.initial]

theorem tags_chunkPointer (chunk : Bytes) :
    Tags lib (chunkPointer lib name chunk) (chunkObject name chunk) := ⟨rfl, rfl⟩

theorem tags_rollOverPointer (state : BuildState) :
    Tags lib (rollOverPointer lib blockSize name state)
      (rollOverManifest blockSize name state) := ⟨rfl, rfl⟩

theorem OrderInvariant.addChunk {state : BuildState} (h : OrderInvariant lib name state)
    (chunk : Bytes) : OrderInvariant lib name (addChunk lib capacity name state chunk) where
  ordered := by
    rw [addChunk_chunkList]
    apply h.ordered.concat
    simp [chunkObject, CCNxMetaMessage.pointers]
  group pointer hpointer := by
    rw [addChunk_chunkList]
    rcases mem_addChunk_pointers hpointer with rfl | hpointer
    · exact ⟨chunkObject name chunk, by simp, tags_chunkPointer chunk⟩
    · obtain ⟨object, hobject, htags⟩ := h.group pointer hpointer
      exact ⟨object, List.mem_append_left _ hobject, htags⟩
  objectName object hobject := by
    rw [addChunk_chunkList] at hobject
    rcases List.mem_append.mp hobject with hobject | hobject
    · exact h.objectName object hobject
    · rw [List.mem_singleton.mp hobject]
      rfl

theorem pointers_groupManifest (group : CCNxManifestHashGroup) :
    (groupManifest name group).pointers = group.pointers := by
  simp [groupManifest, CCNxManifest.addHashGroup, CCNxMetaMessage.pointers]

theorem OrderInvariant.rollOver {state : BuildState} (h : OrderInvariant lib name state) :
    OrderInvariant lib name (rollOver lib capacity blockSize name state) := by
  cases hfull : state.group.isFull capacity with
  | false => rwa [rollOver_of_not_full hfull]
  | true =>
      constructor
      case ordered =>
        rw [rollOver_chunkList hfull]
        apply h.ordered.concat
        intro pointer hpointer
        have hmember : pointer ∈ (rollOverManifest blockSize name state).pointers := hpointer
        rw [rollOverManifest, pointers_groupManifest] at hmember
        exact h.group pointer hmember
      case group =>
        intro pointer hpointer
        rw [rollOver_chunkList hfull, mem_rollOver_pointers hfull hpointer]
        exact ⟨rollOverManifest blockSize name state, by simp, tags_rollOverPointer state⟩
      case objectName =>
        intro object hobject
        rw [rollOver_chunkList hfull] at hobject
        rcases List.mem_append.mp hobject with hobject | hobject
        · exact h.objectName object hobject
        · rw [List.mem_singleton.mp hobject]
          rfl

variable (lib capacity blockSize name) in
theorem buildLoop_orderInvariant (chunks : List Bytes) :
    OrderInvariant lib name (buildLoop lib capacity blockSize name chunks) :=
  buildLoop_induction lib capacity blockSize name (motive := fun _ ↦ OrderInvariant lib name)
    .initial (fun _ chunk _ h ↦ (h.addChunk chunk).rollOver) chunks

/-! ## The list -/

section List

variable (lib capacity) (chunker : PARCChunker) (name)

/-- In the list of a build every pointer names an object before it, of the kind it is tagged
with. -/
theorem buildSkewedManifest_ordered :
    DependencyOrdered (fun message ↦ {pointer | pointer ∈ message.pointers}) (Tags lib)
      (buildSkewedManifest lib capacity chunker name) := by
  have hinvariant := buildLoop_orderInvariant lib capacity chunker.chunkSize name
    chunker.reverseIterator
  apply hinvariant.ordered.concat
  intro pointer hpointer
  have hmember : pointer ∈ (CCNxMetaMessage.manifest
    (rootManifest lib capacity chunker name)).pointers := hpointer
  rw [rootManifest, ← groupManifest, pointers_groupManifest] at hmember
  exact hinvariant.group pointer hmember

variable {lib capacity chunker name}

theorem objectName_of_mem {object : CCNxMetaMessage}
    (hobject : object ∈ buildSkewedManifest lib capacity chunker name) :
    object.objectName = some name := by
  rcases List.mem_append.mp hobject with hobject | hobject
  · exact (buildLoop_orderInvariant lib capacity chunker.chunkSize name
      chunker.reverseIterator).objectName object hobject
  · rw [List.mem_singleton.mp hobject]
    rfl

end List

end ManifestBuilder

end CCNxFileRepo
