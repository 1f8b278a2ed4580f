import CCNxFileRepo.Foundations.Patch

/-!
# Several writers of one word

Several writers write one word into one store, each from the start and each behind what it has
written itself.  The store may be emptied at any time by a writer that comes in, so it can have gaps
and the other writers may have written in vain.  It is never longer than the word, though, and it
either holds the word or is right before the position of some writer.  So it holds the word when
there is no writer any more.
-/

namespace CCNxFileRepo.Foundations

variable {α : Type*} {word store : List α} {positions later : Set ℕ} {position : ℕ}

/-- The store has the elements of the word before `count`. -/
def AgreesTo (word store : List α) (count : ℕ) : Prop :=
  ∀ index < count, store[index]? = word[index]?

/-- A store with writers at `positions`. -/
structure Mending (word store : List α) (positions : Set ℕ) : Prop where
  length_le : store.length ≤ word.length
  front : store = word ∨ ∃ position ∈ positions, AgreesTo word store position

/-- A store that is right to the end of the word and no longer is the word. -/
theorem AgreesTo.eq (h : AgreesTo word store word.length) (hlength : store.length ≤ word.length) :
    store = word := by
  apply List.ext_getElem?
  intro index
  rcases Nat.lt_or_ge index word.length with hlt | hle
  · exact h index hlt
  · rw [List.getElem?_eq_none hle, List.getElem?_eq_none (hlength.trans hle)]

/-- An element of a store after a write, where the store had one or the write brings one. -/
theorem Overlay.getElem?_overlay (pad : α) (old : List α) (offset : ℕ) (data : List α) {index : ℕ}
    (h : index < old.length ∨ offset ≤ index ∧ index < offset + data.length) :
    (overlay pad old offset data)[index]? =
      if offset ≤ index ∧ index < offset + data.length then data[index - offset]?
      else old[index]? := by
  cases data with
  | nil => simp
  | cons head tail =>
      simp only [overlay, List.getElem?_append, List.length_append, List.length_take,
        List.length_replicate, List.getElem?_take, List.getElem?_replicate, List.getElem?_drop]
      split_ifs <;> grind

theorem getElem?_piece {size index : ℕ} (hindex : position ≤ index ∧
    index < position + ((word.drop position).take size).length) :
    ((word.drop position).take size)[index - position]? = word[index]? := by
  rw [List.length_take] at hindex
  rw [List.getElem?_take_of_lt (by omega), List.getElem?_drop]
  congr 1
  omega

namespace AgreesTo

variable {count : ℕ} (pad : α) (size : ℕ)

/-- A piece of the word at its place leaves right what is right. -/
theorem overlay (h : AgreesTo word store count) (hcount : count ≤ word.length) :
    AgreesTo word (Overlay.overlay pad store position ((word.drop position).take size)) count := by
  intro index hindex
  have hlength : index < store.length := by
    have hget := h index hindex
    rw [List.getElem?_eq_getElem (hindex.trans_le hcount)] at hget
    exact (List.getElem?_eq_some_iff.mp hget).1
  rw [Overlay.getElem?_overlay pad _ _ _ (Or.inl hlength)]
  split
  · rename_i hpiece
    exact getElem?_piece hpiece
  · exact h index hindex

/-- A piece of the word behind what is right makes more of it right. -/
theorem extend (h : AgreesTo word store position) (hposition : position ≤ word.length) :
    AgreesTo word (Overlay.overlay pad store position ((word.drop position).take size))
      (position + ((word.drop position).take size).length) := by
  intro index hindex
  rcases Nat.lt_or_ge index position with hlt | hle
  · exact h.overlay pad size hposition index hlt
  · rw [Overlay.getElem?_overlay pad _ _ _ (Or.inr ⟨hle, hindex⟩), if_pos ⟨hle, hindex⟩]
    exact getElem?_piece ⟨hle, hindex⟩

end AgreesTo

namespace Mending

theorem mono (h : Mending word store positions) (hsubset : positions ⊆ later) :
    Mending word store later where
  length_le := h.length_le
  front := h.front.imp_right fun ⟨position, hposition, hagrees⟩ ↦
    ⟨position, hsubset hposition, hagrees⟩

theorem empty (word : List α) (h : 0 ∈ positions) : Mending word [] positions where
  length_le := Nat.zero_le _
  front := Or.inr ⟨0, h, fun _ hindex ↦ absurd hindex (Nat.not_lt_zero _)⟩

/-- A writer that writes the next piece moves on. -/
theorem move (h : Mending word store positions) (pad : α) (size : ℕ)
    (hword : ∀ position ∈ positions, position ≤ word.length) (hposition : position ≤ word.length)
    (hlater : ∀ other ∈ positions, other ∈ later ∨ other = position)
    (hmoved : position + ((word.drop position).take size).length ∈ later) :
    Mending word (Overlay.overlay pad store position ((word.drop position).take size)) later := by
  have hlength : (Overlay.overlay pad store position ((word.drop position).take size)).length ≤
      word.length := by
    have hoverlay := Overlay.length_overlay_le pad store position ((word.drop position).take size)
    have hstore := h.length_le
    rw [List.length_take, List.length_drop] at hoverlay
    omega
  refine ⟨hlength, ?_⟩
  rcases h.front with rfl | ⟨other, hother, hagrees⟩
  · have hagrees : AgreesTo store store store.length := fun _ _ ↦ rfl
    exact Or.inl ((hagrees.overlay pad size le_rfl).eq hlength)
  · rcases hlater other hother with hmem | rfl
    · exact Or.inr ⟨other, hmem, hagrees.overlay pad size (hword other hother)⟩
    · exact Or.inr ⟨_, hmoved, hagrees.extend pad size hposition⟩

/-- A writer that has come to the end of the word can go. -/
theorem leave (h : Mending word store positions)
    (hlater : ∀ position ∈ positions, position ∈ later ∨ position = word.length) :
    Mending word store later where
  length_le := h.length_le
  front := by
    rcases h.front with heq | ⟨position, hposition, hagrees⟩
    · exact Or.inl heq
    · rcases hlater position hposition with hmem | rfl
      · exact Or.inr ⟨position, hmem, hagrees⟩
      · exact Or.inl (hagrees.eq h.length_le)

/-- Without a writer the store holds the word. -/
theorem eq (h : Mending word store ∅) : store = word :=
  h.front.resolve_right fun ⟨_, hposition, _⟩ ↦ hposition

end Mending

end CCNxFileRepo.Foundations
