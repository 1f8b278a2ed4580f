import Mathlib.Data.List.Basic
import Mathlib.Tactic

/-!
# Positional writes over sequences

`overlay pad old offset data` is the content of a random-access store that held `old` after
`data` was written at `offset`: the bytes under the write are replaced, everything else stays,
and the store grows when the write runs past its end.  A store never shrinks by a write, so
the tail of a longer `old` survives; consecutive writes at an accumulated offset compose to one
write of the concatenation.
-/

namespace CCNxFileRepo.Foundations.Overlay

variable {α : Type*} (pad : α)

/-- The content after writing `data` at `offset`.  Writing nothing changes nothing; writing past
the end fills the gap with `pad`. -/
def overlay (old : List α) (offset : ℕ) : List α → List α
  | [] => old
  | data@(_ :: _) =>
      old.take offset ++ List.replicate (offset - old.length) pad ++ data ++
        old.drop (offset + data.length)

@[simp]
theorem overlay_nil (old : List α) (offset : ℕ) : overlay pad old offset [] = old := rfl

/-- A write that starts inside the store leaves no gap. -/
theorem overlay_eq {old : List α} {offset : ℕ} (h : offset ≤ old.length) (data : List α) :
    overlay pad old offset data = old.take offset ++ data ++ old.drop (offset + data.length) := by
  cases data with
  | nil => simp
  | cons head tail => simp [overlay, Nat.sub_eq_zero_of_le h]

theorem overlay_zero (old data : List α) :
    overlay pad old 0 data = data ++ old.drop data.length := by
  rw [overlay_eq pad (Nat.zero_le _)]
  simp

/-- A write at the end of the store appends. -/
theorem overlay_length (old data : List α) : overlay pad old old.length data = old ++ data := by
  calc
    overlay pad old old.length data =
        old.take old.length ++ data ++ old.drop (old.length + data.length) :=
      overlay_eq pad le_rfl data
    _ = old ++ data := by
      rw [List.take_length, List.drop_eq_nil_of_le (Nat.le_add_right _ _), List.append_nil]

theorem length_overlay {old : List α} {offset : ℕ} (h : offset ≤ old.length) (data : List α) :
    (overlay pad old offset data).length = max old.length (offset + data.length) := by
  rw [overlay_eq pad h]
  simp only [List.length_append, List.length_take, List.length_drop]
  omega

/-- A write that fits keeps the size of the store. -/
theorem length_overlay_of_fits {old : List α} {offset : ℕ} {data : List α}
    (h : offset + data.length ≤ old.length) :
    (overlay pad old offset data).length = old.length := by
  rw [length_overlay pad (by omega)]
  omega

/-- Everything up to the end of the write is the untouched front followed by the data. -/
theorem take_overlay {old : List α} {offset : ℕ} (h : offset ≤ old.length) (data : List α) :
    (overlay pad old offset data).take (offset + data.length) = old.take offset ++ data := by
  have hfront : (old.take offset ++ data).length = offset + data.length := by
    simp only [List.length_append, List.length_take]
    omega
  calc
    (overlay pad old offset data).take (offset + data.length) =
        (old.take offset ++ data ++ old.drop (offset + data.length)).take
          (old.take offset ++ data).length := by
      rw [overlay_eq pad h, hfront]
    _ = old.take offset ++ data := List.take_left

/-- Two writes back to back are one write of the concatenation. -/
theorem overlay_overlay {old : List α} {offset : ℕ} (h : offset ≤ old.length)
    (first second : List α) :
    overlay pad (overlay pad old offset first) (offset + first.length) second =
      overlay pad old offset (first ++ second) := by
  have hfits : offset + first.length ≤ (overlay pad old offset first).length := by
    rw [length_overlay pad h]
    omega
  have hfront : (old.take offset ++ first).length = offset + first.length := by
    simp only [List.length_append, List.length_take]
    omega
  have htail : (overlay pad old offset first).drop (offset + first.length + second.length) =
      old.drop (offset + (first ++ second).length) := by
    rw [overlay_eq pad h, List.drop_append, hfront, List.drop_drop,
      List.drop_eq_nil_of_le (by omega), List.nil_append, List.length_append]
    congr 1
    omega
  calc
    overlay pad (overlay pad old offset first) (offset + first.length) second =
        (overlay pad old offset first).take (offset + first.length) ++ second ++
          (overlay pad old offset first).drop (offset + first.length + second.length) :=
      overlay_eq pad hfits second
    _ = old.take offset ++ first ++ second ++ old.drop (offset + (first ++ second).length) := by
      rw [take_overlay pad h, htail]
    _ = overlay pad old offset (first ++ second) := by
      rw [overlay_eq pad h, List.append_assoc (old.take offset)]

/-- A write from the start yields exactly the data if and only if nothing longer was there. -/
theorem overlay_zero_eq_iff (old data : List α) :
    overlay pad old 0 data = data ↔ old.length ≤ data.length := by
  rw [overlay_zero, ← List.drop_eq_nil_iff]
  exact ⟨fun h ↦ List.append_cancel_left (h.trans (List.append_nil data).symm),
    fun h ↦ by rw [h, List.append_nil]⟩

/-- Overwriting a prefix of a word by a prefix of the same word keeps the longer one. -/
theorem overlay_take_take (word : List α) (m n : ℕ) :
    overlay pad (word.take m) 0 (word.take n) = word.take (max m n) := by
  have hdrop : (word.take m).drop (word.take n).length = (word.take m).drop n := by
    rcases Nat.le_total n word.length with h | h
    · rw [List.length_take, Nat.min_eq_left h]
    · rw [List.drop_eq_nil_of_le, List.drop_eq_nil_of_le] <;>
        simp only [List.length_take] <;> omega
  rw [overlay_zero, hdrop]
  rcases Nat.le_total m n with h | h
  · rw [Nat.max_eq_right h, List.drop_eq_nil_of_le, List.append_nil]
    simp only [List.length_take]
    omega
  · rw [Nat.max_eq_left h]
    calc
      word.take n ++ (word.take m).drop n = (word.take m).take n ++ (word.take m).drop n := by
        rw [List.take_take, Nat.min_eq_left h]
      _ = word.take m := List.take_append_drop n (word.take m)

/-- A piece of a word, written at its place into a start of the word that reaches there. -/
theorem overlay_take_drop {word : List α} {offset count : ℕ} (hword : offset ≤ word.length)
    (hcount : offset ≤ count) (size : ℕ) :
    overlay pad (word.take count) offset ((word.drop offset).take size) =
      word.take (max count (offset + size)) := by
  have hoffset : offset ≤ (word.take count).length := by
    rw [List.length_take]
    omega
  calc
    overlay pad (word.take count) offset ((word.drop offset).take size) =
        overlay pad (overlay pad (word.take count) 0 (word.take offset))
          (0 + (word.take offset).length) ((word.drop offset).take size) := by
      rw [overlay_take_take, Nat.max_eq_left hcount, List.length_take, Nat.min_eq_left hword,
        Nat.zero_add]
    _ = overlay pad (word.take count) 0 (word.take (offset + size)) := by
      rw [overlay_overlay pad (Nat.zero_le _), List.take_add]
    _ = word.take (max count (offset + size)) := overlay_take_take pad word count _

end CCNxFileRepo.Foundations.Overlay
