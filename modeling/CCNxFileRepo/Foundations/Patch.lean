import CCNxFileRepo.Foundations.Overlay

/-!
# Stores that were written in part

Data is offered to a store piece by piece, each piece behind the one before, and a write may store
only the start of its piece.  The next piece goes to its own place all the same, so every element
of the store is either the element of the data that belongs there or what was there before.  A
store is no longer afterwards than it was or than the data reaches.
-/

namespace CCNxFileRepo.Foundations

variable {α : Type*} {pad : α} {old between new data first second : List α} {offset : ℕ}

namespace Overlay

/-- An element under the write is one of the data, any other is the old one. -/
theorem getD_overlay (pad : α) (old : List α) (offset : ℕ) (data : List α) (index : ℕ) :
    (overlay pad old offset data).getD index pad =
      if offset ≤ index ∧ index < offset + data.length then data.getD (index - offset) pad
      else old.getD index pad := by
  cases data with
  | nil =>
      rw [if_neg (by simp)]
      rfl
  | cons head tail =>
      simp only [overlay, List.getD_eq_getElem?_getD, List.getElem?_append, List.length_append,
        List.length_take, List.length_replicate, List.getElem?_take, List.getElem?_replicate,
        List.getElem?_drop]
      split_ifs <;> grind

theorem length_overlay_le (pad : α) (old : List α) (offset : ℕ) (data : List α) :
    (overlay pad old offset data).length ≤ max old.length (offset + data.length) := by
  cases data with
  | nil => simp
  | cons head tail =>
      simp only [overlay, List.length_append, List.length_take, List.length_replicate,
        List.length_drop]
      omega

theorem le_length_overlay (pad : α) (old : List α) (offset : ℕ) (data : List α) :
    old.length ≤ (overlay pad old offset data).length := by
  cases data with
  | nil => simp
  | cons head tail =>
      simp only [overlay, List.length_append, List.length_take, List.length_replicate,
        List.length_drop]
      omega

end Overlay

open Overlay

/-- `new` is a store that held `old` after some of `data` was written at its place, which starts at
`offset`. -/
structure Patched (pad : α) (old : List α) (offset : ℕ) (data new : List α) : Prop where
  le_length : old.length ≤ new.length
  length_le : new.length ≤ max old.length (offset + data.length)
  getD_eq : ∀ index, new.getD index pad = old.getD index pad ∨
    offset ≤ index ∧ data[index - offset]? = some (new.getD index pad)

namespace Patched

theorem refl (pad : α) (old : List α) (offset : ℕ) (data : List α) :
    Patched pad old offset data old where
  le_length := le_rfl
  length_le := le_max_left _ _
  getD_eq _ := Or.inl rfl

theorem mono (h : Patched pad old offset first new) (hfront : first <+: data) :
    Patched pad old offset data new where
  le_length := h.le_length
  length_le := by
    have hlength := hfront.length_le
    have hnew := h.length_le
    omega
  getD_eq index := by
    refine (h.getD_eq index).imp_right fun ⟨hindex, helement⟩ ↦ ⟨hindex, ?_⟩
    obtain ⟨rest, rfl⟩ := hfront
    rw [List.getElem?_append_left (List.getElem?_eq_some_iff.mp helement).1, helement]

/-- A write that stores all its data. -/
theorem overlay (pad : α) (old : List α) (offset : ℕ) (data : List α) :
    Patched pad old offset data (Overlay.overlay pad old offset data) where
  le_length := le_length_overlay pad old offset data
  length_le := length_overlay_le pad old offset data
  getD_eq index := by
    rw [getD_overlay]
    split
    · rename_i hindex
      refine Or.inr ⟨hindex.1, ?_⟩
      have hlt : index - offset < data.length := by omega
      rw [List.getD_eq_getElem?_getD, List.getElem?_eq_getElem hlt, Option.getD_some]
    · exact Or.inl rfl

/-- Data offered behind data is their concatenation offered. -/
theorem append (h : Patched pad old offset first between)
    (hnext : Patched pad between (offset + first.length) second new) :
    Patched pad old offset (first ++ second) new where
  le_length := h.le_length.trans hnext.le_length
  length_le := by
    have hbetween := h.length_le
    have hnew := hnext.length_le
    rw [List.length_append]
    omega
  getD_eq index := by
    rcases hnext.getD_eq index with hsame | ⟨hindex, helement⟩
    · rw [hsame]
      exact (h.mono (List.prefix_append first second)).getD_eq index
    · refine Or.inr ⟨by omega, ?_⟩
      rw [List.getElem?_append_right (by omega), ← helement]
      congr 1
      omega

end Patched

end CCNxFileRepo.Foundations
