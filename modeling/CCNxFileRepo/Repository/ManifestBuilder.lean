import CCNxFileRepo.CCNx.Message

/-!
# Building a skewed manifest

`ccnxManifestBuilder_BuildSkewedManifest` walks the chunks of a file from the last to the first.
Every chunk becomes a content object whose digest is put in front of the running hash group.  A
full group is wrapped in a manifest, and the next group starts with a pointer to that manifest.
The group left at the end becomes the root.  The list returned holds every object in the order
in which it was made.
-/

namespace CCNxFileRepo.ManifestBuilder

variable (lib : CCNxLibrary)

/-- `PARCChunker`: the chunk size it was created with and the pieces its reverse iterator yields. -/
structure PARCChunker where
  chunkSize : ℕ
  reverseIterator : List Bytes
  deriving DecidableEq, Repr

/-- `PARCCryptoHasher`: the bytes it was fed so far. -/
structure PARCCryptoHasher where
  fed : Bytes
  deriving DecidableEq, Repr

def PARCCryptoHasher.updateBuffer (hasher : PARCCryptoHasher) (buffer : Bytes) :
    PARCCryptoHasher :=
  { fed := hasher.fed ++ buffer }

def PARCCryptoHasher.finalize (hasher : PARCCryptoHasher) : Bytes := lib.sha256 hasher.fed

/-- The local variables of the builder's loop. -/
structure BuildState where
  chunkList : List CCNxMetaMessage
  group : CCNxManifestHashGroup
  hasher : PARCCryptoHasher
  applicationDataSize : ℕ
  entrySize : ℕ
  deriving DecidableEq, Repr

def BuildState.initial : BuildState where
  chunkList := []
  group := .create
  hasher := { fed := [] }
  applicationDataSize := 0
  entrySize := 0

/-- `_ccnxManifestBuilder_ComputeMessageHash`: the hash is taken of the message that comes back
from its own wire format. -/
def computeMessageHash (message : CCNxMetaMessage) : Bytes :=
  lib.computeContentObjectHash (lib.reparse message)

@[simp]
theorem computeMessageHash_eq (message : CCNxMetaMessage) :
    computeMessageHash lib message = lib.computeContentObjectHash message := by
  simp [computeMessageHash]

def chunkObject (name : CCNxName) (chunk : Bytes) : CCNxMetaMessage :=
  .contentObject { name := name, payload := chunk }

def groupManifest (name : CCNxName) (group : CCNxManifestHashGroup) : CCNxMetaMessage :=
  .manifest (CCNxManifest.addHashGroup { name := name, hashGroups := [] } group)

/-- The first part of a loop round: account for the chunk and prepend its pointer. -/
def addChunk (capacity : ℕ) (name : CCNxName) (state : BuildState) (chunk : Bytes) : BuildState :=
  let metaContent := chunkObject name chunk
  let digest := computeMessageHash lib metaContent
  { chunkList := state.chunkList ++ [metaContent]
    -- the result of the prepend is ignored
    group := (state.group.prependPointer capacity .data digest).2
    hasher := state.hasher.updateBuffer chunk
    applicationDataSize := state.applicationDataSize + chunk.length
    entrySize := state.entrySize + chunk.length }

/-- The group with the metadata it gets when it is full. -/
def sealGroup (blockSize : ℕ) (state : BuildState) : CCNxManifestHashGroup :=
  { state.group with
    blockSize := some blockSize
    entrySize := some state.entrySize
    dataSize := some state.entrySize }

/-- The second part of a loop round: a full group becomes a manifest, and the next group starts
with a pointer to it. -/
def rollOver (capacity blockSize : ℕ) (name : CCNxName) (state : BuildState) : BuildState :=
  if state.group.isFull capacity then
    let root := groupManifest name (sealGroup blockSize state)
    let digest := computeMessageHash lib root
    { state with
      chunkList := state.chunkList ++ [root]
      group := (CCNxManifestHashGroup.create.appendPointer capacity .manifest digest).2
      entrySize := 0 }
  else state

/-- One round of the builder's loop. -/
def buildRound (capacity blockSize : ℕ) (name : CCNxName) (state : BuildState) (chunk : Bytes) :
    BuildState :=
  rollOver lib capacity blockSize name (addChunk lib capacity name state chunk)

/-- The loop over the reverse iterator of the chunker. -/
def buildLoop (capacity blockSize : ℕ) (name : CCNxName) (chunks : List Bytes) : BuildState :=
  chunks.foldl (buildRound lib capacity blockSize name) .initial

/-- The last group with the root metadata. -/
def rootGroup (state : BuildState) : CCNxManifestHashGroup :=
  { state.group with
    dataSize := some state.applicationDataSize
    overallDataDigest := some (state.hasher.finalize lib) }

def rootManifest (capacity : ℕ) (chunker : PARCChunker) (name : CCNxName) : CCNxManifest :=
  CCNxManifest.addHashGroup { name := name, hashGroups := [] }
    (rootGroup lib (buildLoop lib capacity chunker.chunkSize name chunker.reverseIterator))

/-- `ccnxManifestBuilder_BuildSkewedManifest`. -/
def buildSkewedManifest (capacity : ℕ) (chunker : PARCChunker) (name : CCNxName) :
    List CCNxMetaMessage :=
  (buildLoop lib capacity chunker.chunkSize name chunker.reverseIterator).chunkList ++
    [.manifest (rootManifest lib capacity chunker name)]

/-- `parcLinkedList_GetLast` read as a manifest. -/
def lastManifest (chunks : List CCNxMetaMessage) : Option CCNxManifest :=
  match chunks.getLast? with
  | some (.manifest root) => some root
  | _ => none

@[simp]
theorem lastManifest_buildSkewedManifest (capacity : ℕ) (chunker : PARCChunker)
    (name : CCNxName) :
    lastManifest (buildSkewedManifest lib capacity chunker name) =
      some (rootManifest lib capacity chunker name) := by
  simp [lastManifest, buildSkewedManifest]

end CCNxFileRepo.ManifestBuilder
