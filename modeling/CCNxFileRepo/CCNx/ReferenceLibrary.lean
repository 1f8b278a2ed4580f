import CCNxFileRepo.CCNx.Message
import CCNxFileRepo.Foundations.PrefixCode

/-!
# A reference library

A concrete `CCNxLibrary`, so that the model can be run.  Messages are written with a prefix code,
digests are the encodings themselves and hence free of collisions, and a file is cut into pieces
of the chunk size from its start.
-/

namespace CCNxFileRepo.ReferenceLibrary

open Foundations

abbrev ByteCode := PrefixCode UInt8

theorem one_ne_zero : (1 : UInt8) ≠ 0 := by decide

def listCode {α : Type} (code : ByteCode α) : ByteCode (List α) := .list 0 1 one_ne_zero code

def optionCode {α : Type} (code : ByteCode α) : ByteCode (Option α) :=
  .option 0 1 one_ne_zero code

def sumCode {α β : Type} (left : ByteCode α) (right : ByteCode β) : ByteCode (α ⊕ β) :=
  .sum 0 1 one_ne_zero left right

def naturalCode : ByteCode ℕ := .natural 0 1 one_ne_zero

def bytesCode : ByteCode Bytes := listCode .symbol

def nameCode : ByteCode CCNxName :=
  (listCode bytesCode).map CCNxName.mk CCNxName.segments fun _ ↦ rfl

def pointerTypeCode : ByteCode CCNxManifestHashGroupPointerType :=
  (sumCode .unit .unit).map (fun value ↦ value.elim (fun _ ↦ .data) fun _ ↦ .manifest)
    (fun | .data => .inl () | .manifest => .inr ())
    (by rintro (_ | _) <;> rfl)

def pointerCode : ByteCode CCNxManifestHashGroupPointer :=
  (pointerTypeCode.pair bytesCode).map (fun value ↦ ⟨value.1, value.2⟩)
    (fun value ↦ (value.pointerType, value.digest)) fun _ ↦ rfl

def groupCode : ByteCode CCNxManifestHashGroup :=
  ((listCode pointerCode).pair ((optionCode naturalCode).pair ((optionCode naturalCode).pair
    ((optionCode naturalCode).pair (optionCode bytesCode))))).map
      (fun value ↦ ⟨value.1, value.2.1, value.2.2.1, value.2.2.2.1, value.2.2.2.2⟩)
      (fun value ↦ (value.pointers, value.blockSize, value.entrySize, value.dataSize,
        value.overallDataDigest))
      fun _ ↦ rfl

def manifestCode : ByteCode CCNxManifest :=
  (nameCode.pair (listCode groupCode)).map (fun value ↦ ⟨value.1, value.2⟩)
    (fun value ↦ (value.name, value.hashGroups)) fun _ ↦ rfl

def contentObjectCode : ByteCode CCNxContentObject :=
  (nameCode.pair bytesCode).map (fun value ↦ ⟨value.1, value.2⟩)
    (fun value ↦ (value.name, value.payload)) fun _ ↦ rfl

def interestCode : ByteCode CCNxInterest :=
  (nameCode.pair (optionCode bytesCode)).map (fun value ↦ ⟨value.1, value.2⟩)
    (fun value ↦ (value.name, value.contentObjectHashRestriction)) fun _ ↦ rfl

def messageCode : ByteCode CCNxMetaMessage :=
  (sumCode (sumCode interestCode interestCode) (sumCode contentObjectCode manifestCode)).map
    (fun value ↦ value.elim (fun value ↦ value.elim .interest .interestReturn)
      fun value ↦ value.elim .contentObject .manifest)
    (fun
      | .interest value => .inl (.inl value)
      | .interestReturn value => .inl (.inr value)
      | .contentObject value => .inr (.inl value)
      | .manifest value => .inr (.inr value))
    (by rintro (_ | _ | _ | _) <;> rfl)

/-- Cut a file into pieces of `size` bytes, the last one shorter. -/
def pieces (size : ℕ) : ℕ → Bytes → List Bytes
  | 0, _ => []
  | _ + 1, [] => []
  | fuel + 1, file@(_ :: _) => file.take size :: pieces size fuel (file.drop size)

theorem pieces_ne_nil {size : ℕ} (hsize : 1 ≤ size) (fuel : ℕ) (file : Bytes) :
    ∀ piece ∈ pieces size fuel file, piece ≠ [] := by
  induction fuel generalizing file with
  | zero => simp [pieces]
  | succ fuel ih =>
      cases file with
      | nil => simp [pieces]
      | cons byte rest =>
          simp only [pieces, List.forall_mem_cons]
          refine ⟨?_, ih _⟩
          simp only [ne_eq, List.take_eq_nil_iff, not_or]
          exact ⟨by omega, by simp⟩

theorem length_pieces_le (size fuel : ℕ) (file : Bytes) :
    ∀ piece ∈ pieces size fuel file, piece.length ≤ size := by
  induction fuel generalizing file with
  | zero => simp [pieces]
  | succ fuel ih =>
      cases file with
      | nil => simp [pieces]
      | cons byte rest =>
          simp only [pieces, List.forall_mem_cons]
          exact ⟨List.length_take_le _ _, ih _⟩

theorem flatten_pieces {size : ℕ} (hsize : 1 ≤ size) {fuel : ℕ} {file : Bytes}
    (hfuel : file.length ≤ fuel) : (pieces size fuel file).flatten = file := by
  induction fuel generalizing file with
  | zero => simp [pieces, List.eq_nil_of_length_eq_zero (Nat.le_zero.mp hfuel)]
  | succ fuel ih =>
      cases file with
      | nil => simp [pieces]
      | cons byte rest =>
          have hrest : ((byte :: rest).drop size).length ≤ fuel := by
            simp only [List.length_drop, List.length_cons] at hfuel ⊢
            omega
          rw [pieces, List.flatten_cons, ih hrest, List.take_append_drop]

def hexDigits : List Char :=
  ['0', '1', '2', '3', '4', '5', '6', '7', '8', '9', 'a', 'b', 'c', 'd', 'e', 'f']

def referenceLibrary : CCNxLibrary where
  createWireFormatBuffer := messageCode.encode
  createFromWireFormatBuffer word := (messageCode.decode word).map Prod.fst
  computeContentObjectHash := messageCode.encode
  sha256 := id
  reverseChunks file chunkSize :=
    if chunkSize = 0 then [] else (pieces chunkSize file.length file).reverse
  hexDigit digit := hexDigits.get (digit.cast rfl)
  wireFormat_roundTrip message := by
    have := messageCode.decode_encode message []
    rw [List.append_nil] at this
    rw [this]
    rfl
  contentObjectHash_ne_nil message := by
    rcases message with _ | _ | _ | _ <;> exact List.cons_ne_nil _ _
  reverseChunks_ne_nil file chunkSize chunk hchunk := by
    split at hchunk
    · cases hchunk
    · apply pieces_ne_nil _ _ _ chunk (List.mem_reverse.mp hchunk)
      omega
  reverseChunks_length_le file chunkSize chunk hchunk := by
    split at hchunk
    · cases hchunk
    · exact length_pieces_le _ _ _ chunk (List.mem_reverse.mp hchunk)
  reverseChunks_flatten file chunkSize hchunk := by
    rw [if_neg (by omega), List.reverse_reverse]
    exact flatten_pieces hchunk le_rfl
  hexDigit_injective := by decide
  hexDigit_isAlphanum := by decide

theorem collisionFreeOn (objects : Set CCNxMetaMessage) :
    referenceLibrary.CollisionFreeOn objects :=
  referenceLibrary.createWireFormatBuffer_injective.injOn

end CCNxFileRepo.ReferenceLibrary
