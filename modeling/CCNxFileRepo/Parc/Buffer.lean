import CCNxFileRepo.Foundations.Overlay

/-!
# `PARCBuffer`

A buffer is an array with a position and a limit.  `Put` operations write at the position and
advance it, `Flip` turns the bytes written so far into the bytes to read.  The array keeps stale
bytes behind the position, so what a reader gets depends on every reset and flip in between.

The library checks its arguments with assertions.  A call that would fail one ends in a `Stop`.
-/

namespace CCNxFileRepo

open Foundations.Overlay

abbrev Bytes := List UInt8

/-- Why an evaluation does not come back with a value: a failed assertion of the C library, the
use of a `NULL` handle or message, or the bound on the number of loop rounds. -/
inductive Stop where
  | outOfFuel
  | bufferOverflow
  | illegalLimit
  | noSuchHashGroup
  | nullFileHandle
  | nullMessage
  deriving DecidableEq, Repr

/-- `struct parc_buffer`: the accessible bytes are those from `position` up to `limit`. -/
structure PARCBuffer where
  array : Bytes
  position : ℕ
  limit : ℕ
  position_le_limit : position ≤ limit
  limit_le_capacity : limit ≤ array.length
  deriving DecidableEq

namespace PARCBuffer

def allocate (capacity : ℕ) : PARCBuffer where
  array := List.replicate capacity 0
  position := 0
  limit := capacity
  position_le_limit := Nat.zero_le _
  limit_le_capacity := by simp

def capacity (buffer : PARCBuffer) : ℕ := buffer.array.length

def remaining (buffer : PARCBuffer) : ℕ := buffer.limit - buffer.position

/-- `parcBuffer_PutBuffer`: copy all of `source`, or fail its assertion when there is no room. -/
def putBuffer (buffer : PARCBuffer) (source : Bytes) : Except Stop PARCBuffer :=
  if h : source.length ≤ buffer.remaining then
    .ok {
      array := overlay 0 buffer.array buffer.position source
      position := buffer.position + source.length
      limit := buffer.limit
      position_le_limit := by
        have := buffer.position_le_limit
        unfold remaining at h
        omega
      limit_le_capacity := by
        have hposition := buffer.position_le_limit
        have hlimit := buffer.limit_le_capacity
        unfold remaining at h
        rw [length_overlay_of_fits 0 (by omega)]
        exact hlimit }
  else .error .bufferOverflow

/-- `parcBuffer_SetPosition(buffer, 0)`. -/
def rewind (buffer : PARCBuffer) : PARCBuffer where
  array := buffer.array
  position := 0
  limit := buffer.limit
  position_le_limit := Nat.zero_le _
  limit_le_capacity := buffer.limit_le_capacity

/-- `parcBuffer_SetLimit`, which pulls the position back when it lies behind the new limit. -/
def setLimit (buffer : PARCBuffer) (limit : ℕ) : Except Stop PARCBuffer :=
  if h : limit ≤ buffer.capacity then
    .ok {
      array := buffer.array
      position := min buffer.position limit
      limit := limit
      position_le_limit := Nat.min_le_right _ _
      limit_le_capacity := h }
  else .error .illegalLimit

def flip (buffer : PARCBuffer) : PARCBuffer where
  array := buffer.array
  position := 0
  limit := buffer.position
  position_le_limit := Nat.zero_le _
  limit_le_capacity := buffer.position_le_limit.trans buffer.limit_le_capacity

/-- The accessible bytes, those a reader of the buffer gets. -/
def contents (buffer : PARCBuffer) : Bytes :=
  (buffer.array.take buffer.limit).drop buffer.position

/-- The bytes in front of the position, those put into the buffer since it was reset. -/
def written (buffer : PARCBuffer) : Bytes := buffer.array.take buffer.position

@[simp]
theorem capacity_allocate (capacity : ℕ) : (allocate capacity).capacity = capacity := by
  simp [allocate, PARCBuffer.capacity]

theorem position_le_capacity (buffer : PARCBuffer) : buffer.position ≤ buffer.array.length :=
  buffer.position_le_limit.trans buffer.limit_le_capacity

@[simp]
theorem length_written (buffer : PARCBuffer) : buffer.written.length = buffer.position := by
  simp [written, position_le_capacity]

theorem putBuffer_spec {buffer : PARCBuffer} {source : Bytes}
    (h : source.length ≤ buffer.remaining) :
    ∃ filled, buffer.putBuffer source = .ok filled ∧
      filled.written = buffer.written ++ source ∧
      filled.remaining = buffer.remaining - source.length ∧
      filled.limit = buffer.limit ∧ filled.capacity = buffer.capacity := by
  have hposition := buffer.position_le_limit
  have hlimit := buffer.limit_le_capacity
  have hfits : buffer.position + source.length ≤ buffer.array.length := by
    unfold remaining at h
    omega
  refine ⟨_, dif_pos h, ?_, ?_, rfl, ?_⟩
  · exact take_overlay 0 buffer.position_le_capacity source
  · exact Nat.sub_add_eq _ _ _
  · exact length_overlay_of_fits 0 hfits

theorem putBuffer_eq_overflow_iff (buffer : PARCBuffer) (source : Bytes) :
    buffer.putBuffer source = .error .bufferOverflow ↔ buffer.remaining < source.length := by
  unfold putBuffer
  split <;> simp <;> omega

theorem written_of_putBuffer {buffer filled : PARCBuffer} {source : Bytes}
    (h : buffer.putBuffer source = .ok filled) : filled.written = buffer.written ++ source := by
  by_cases hfits : source.length ≤ buffer.remaining
  · obtain ⟨same, hsame, hwritten, -⟩ := putBuffer_spec hfits
    rw [h] at hsame
    cases hsame
    exact hwritten
  · rw [(buffer.putBuffer_eq_overflow_iff source).mpr (by omega)] at h
    cases h

theorem putBuffer_cases (buffer : PARCBuffer) (source : Bytes) :
    (∃ filled, buffer.putBuffer source = .ok filled) ∨
      buffer.putBuffer source = .error .bufferOverflow := by
  unfold putBuffer
  split
  · exact Or.inl ⟨_, rfl⟩
  · exact Or.inr rfl

/-- After a flip the accessible bytes are the ones that were put. -/
@[simp]
theorem contents_flip (buffer : PARCBuffer) : buffer.flip.contents = buffer.written := by
  simp [flip, contents, written]

@[simp]
theorem remaining_flip (buffer : PARCBuffer) : buffer.flip.remaining = buffer.position := by
  simp [flip, remaining]

/-- Resetting position and limit empties the buffer whatever it held. -/
theorem setLimit_rewind (buffer : PARCBuffer) :
    ∃ reset, buffer.rewind.setLimit buffer.capacity = .ok reset ∧ reset.written = [] ∧
      reset.remaining = buffer.capacity ∧ reset.capacity = buffer.capacity := by
  refine ⟨_, dif_pos le_rfl, ?_, ?_, rfl⟩
  · simp [written, rewind]
  · simp [remaining, rewind]

end PARCBuffer

end CCNxFileRepo
