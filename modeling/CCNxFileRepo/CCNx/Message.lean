import CCNxFileRepo.Parc.File

/-!
# CCNx messages and the libraries they come from

Names, content objects, manifests and interests with the fields the repository reads or sets.
`CCNxLibrary` stands for the third-party code: the wire format and the content object hash of
the CCNx transport, and the SHA-256 hasher, the file chunker and the hex printer of libparc.
Its laws are the documented behaviour that the repository relies on.
-/

namespace CCNxFileRepo

structure CCNxName where
  segments : List Bytes
  deriving DecidableEq, Repr

inductive CCNxManifestHashGroupPointerType where
  | data
  | manifest
  deriving DecidableEq, Repr

structure CCNxManifestHashGroupPointer where
  pointerType : CCNxManifestHashGroupPointerType
  digest : Bytes
  deriving DecidableEq, Repr

/-- A hash group with its optional metadata. -/
structure CCNxManifestHashGroup where
  pointers : List CCNxManifestHashGroupPointer
  blockSize : Option ℕ
  entrySize : Option ℕ
  dataSize : Option ℕ
  overallDataDigest : Option Bytes
  deriving DecidableEq, Repr

structure CCNxManifest where
  name : CCNxName
  hashGroups : List CCNxManifestHashGroup
  deriving DecidableEq, Repr

structure CCNxContentObject where
  name : CCNxName
  payload : Bytes
  deriving DecidableEq, Repr

structure CCNxInterest where
  name : CCNxName
  contentObjectHashRestriction : Option Bytes
  deriving DecidableEq, Repr

inductive CCNxMetaMessage where
  | interest (interest : CCNxInterest)
  | interestReturn (interest : CCNxInterest)
  | contentObject (contentObject : CCNxContentObject)
  | manifest (manifest : CCNxManifest)
  deriving DecidableEq, Repr

namespace CCNxMetaMessage

def isManifest : CCNxMetaMessage → Bool
  | manifest _ => true
  | _ => false

def isContentObject : CCNxMetaMessage → Bool
  | contentObject _ => true
  | _ => false

def objectName : CCNxMetaMessage → Option CCNxName
  | contentObject object => some object.name
  | .manifest root => some root.name
  | _ => none

def getManifest : CCNxMetaMessage → Option CCNxManifest
  | .manifest root => some root
  | _ => none

/-- The pointers in the hash groups of a manifest; nothing else has pointers. -/
def pointers : CCNxMetaMessage → List CCNxManifestHashGroupPointer
  | .manifest root => root.hashGroups.flatMap (·.pointers)
  | _ => []

/-- The tag that a pointer to the message should carry. -/
def pointerType : CCNxMetaMessage → Option CCNxManifestHashGroupPointerType
  | contentObject _ => some .data
  | .manifest _ => some .manifest
  | _ => none

theorem mem_pointers_manifest {root : CCNxManifest} {pointer : CCNxManifestHashGroupPointer} :
    pointer ∈ (CCNxMetaMessage.manifest root).pointers ↔
      ∃ group ∈ root.hashGroups, pointer ∈ group.pointers := List.mem_flatMap

end CCNxMetaMessage

namespace CCNxManifestHashGroup

/-- `ccnxManifestHashGroup_Create`. -/
def create : CCNxManifestHashGroup where
  pointers := []
  blockSize := none
  entrySize := none
  dataSize := none
  overallDataDigest := none

/-- `ccnxManifestHashGroup_IsFull` for groups of `capacity` pointers. -/
def isFull (capacity : ℕ) (group : CCNxManifestHashGroup) : Bool :=
  group.pointers.length == capacity

/-- `ccnxManifestHashGroup_PrependPointer`; a full group refuses and stays as it is. -/
def prependPointer (capacity : ℕ) (group : CCNxManifestHashGroup)
    (pointerType : CCNxManifestHashGroupPointerType) (digest : Bytes) :
    Bool × CCNxManifestHashGroup :=
  if group.isFull capacity then (false, group)
  else (true, { group with pointers := ⟨pointerType, digest⟩ :: group.pointers })

/-- `ccnxManifestHashGroup_AppendPointer`; a full group refuses and stays as it is. -/
def appendPointer (capacity : ℕ) (group : CCNxManifestHashGroup)
    (pointerType : CCNxManifestHashGroupPointerType) (digest : Bytes) :
    Bool × CCNxManifestHashGroup :=
  if group.isFull capacity then (false, group)
  else (true, { group with pointers := group.pointers ++ [⟨pointerType, digest⟩] })

end CCNxManifestHashGroup

def CCNxManifest.addHashGroup (manifest : CCNxManifest) (group : CCNxManifestHashGroup) :
    CCNxManifest :=
  { manifest with hashGroups := manifest.hashGroups ++ [group] }

/-- The third-party functions the repository calls, with their documented behaviour. -/
structure CCNxLibrary where
  /-- `ccnxMetaMessage_CreateWireFormatBuffer` -/
  createWireFormatBuffer : CCNxMetaMessage → Bytes
  /-- `ccnxMetaMessage_CreateFromWireFormatBuffer` -/
  createFromWireFormatBuffer : Bytes → Option CCNxMetaMessage
  /-- `CCNxWireFormatMessageInterface.computeContentObjectHash` -/
  computeContentObjectHash : CCNxMetaMessage → Bytes
  /-- `PARCCryptoHasher` with `PARCCryptoHashType_SHA256`, from the bytes fed to it -/
  sha256 : Bytes → Bytes
  /-- the pieces `parcChunker_ReverseIterator` yields for a file and a chunk size -/
  reverseChunks : Bytes → ℕ → List Bytes
  /-- the digits of `parcBuffer_ToHexString` -/
  hexDigit : Fin 16 → Char
  wireFormat_roundTrip : ∀ message,
    createFromWireFormatBuffer (createWireFormatBuffer message) = some message
  contentObjectHash_ne_nil : ∀ message, computeContentObjectHash message ≠ []
  reverseChunks_ne_nil : ∀ file chunkSize, ∀ chunk ∈ reverseChunks file chunkSize, chunk ≠ []
  reverseChunks_length_le : ∀ file chunkSize,
    ∀ chunk ∈ reverseChunks file chunkSize, chunk.length ≤ chunkSize
  reverseChunks_flatten : ∀ file chunkSize, 1 ≤ chunkSize →
    (reverseChunks file chunkSize).reverse.flatten = file
  hexDigit_injective : Function.Injective hexDigit
  hexDigit_isAlphanum : ∀ digit, (hexDigit digit).isAlphanum = true

namespace CCNxLibrary

variable (lib : CCNxLibrary)

/-- Decode a buffer that was just encoded. -/
def reparse (message : CCNxMetaMessage) : CCNxMetaMessage :=
  (lib.createFromWireFormatBuffer (lib.createWireFormatBuffer message)).get
    (by rw [lib.wireFormat_roundTrip]; rfl)

@[simp]
theorem reparse_eq (message : CCNxMetaMessage) : lib.reparse message = message := by
  simp [reparse, lib.wireFormat_roundTrip]

/-- No two different objects of a set share their content object hash. -/
def CollisionFreeOn (objects : Set CCNxMetaMessage) : Prop :=
  Set.InjOn lib.computeContentObjectHash objects

theorem createWireFormatBuffer_injective : Function.Injective lib.createWireFormatBuffer := by
  intro first second h
  have := congrArg lib.createFromWireFormatBuffer h
  rwa [lib.wireFormat_roundTrip, lib.wireFormat_roundTrip, Option.some.injEq] at this

/-- `parcBuffer_ToHexString`: two digits for every byte. -/
def toHexString (buffer : Bytes) : CString :=
  buffer.flatMap fun byte ↦
    [lib.hexDigit (Fin.ofNat 16 (byte.toNat / 16)), lib.hexDigit (Fin.ofNat 16 (byte.toNat % 16))]

@[simp]
theorem toHexString_nil : lib.toHexString [] = [] := rfl

theorem toHexString_cons (byte : UInt8) (rest : Bytes) :
    lib.toHexString (byte :: rest) =
      lib.hexDigit (Fin.ofNat 16 (byte.toNat / 16)) ::
        lib.hexDigit (Fin.ofNat 16 (byte.toNat % 16)) :: lib.toHexString rest := rfl

/-- A byte is determined by its two digits. -/
theorem hexDigits_injective {first second : UInt8}
    (hhigh : Fin.ofNat 16 (first.toNat / 16) = Fin.ofNat 16 (second.toNat / 16))
    (hlow : Fin.ofNat 16 (first.toNat % 16) = Fin.ofNat 16 (second.toNat % 16)) :
    first = second := by
  have hfirst := first.toNat_lt
  have hsecond := second.toNat_lt
  simp only [Fin.ofNat_eq_cast, Fin.ext_iff, Fin.val_natCast] at hhigh hlow
  apply UInt8.toNat.inj
  omega

theorem toHexString_injective : Function.Injective lib.toHexString := by
  intro first
  induction first with
  | nil =>
      intro second h
      cases second with
      | nil => rfl
      | cons byte rest => simp [toHexString_cons] at h
  | cons byte rest ih =>
      intro second h
      cases second with
      | nil => simp [toHexString_cons] at h
      | cons other rest' =>
          rw [toHexString_cons, toHexString_cons] at h
          obtain ⟨hhigh, hlow, hrest⟩ : _ ∧ _ ∧ _ := by simpa using h
          rw [hexDigits_injective (lib.hexDigit_injective hhigh) (lib.hexDigit_injective hlow),
            ih hrest]

theorem isAlphanum_of_mem_toHexString {buffer : Bytes} {digit : Char}
    (h : digit ∈ lib.toHexString buffer) : digit.isAlphanum = true := by
  simp only [toHexString, List.mem_flatMap, List.mem_cons, List.not_mem_nil, or_false] at h
  obtain ⟨byte, -, rfl | rfl⟩ := h <;> exact lib.hexDigit_isAlphanum _

end CCNxLibrary

end CCNxFileRepo
