import Mathlib.Data.List.Basic
import Mathlib.Data.Set.Basic
import Mathlib.Logic.Relation

/-!
# References and dependency orders

Elements carry references, and a reference names elements.  A set is closed when whatever its
elements refer to is in it, and a list is in dependency order when every reference names an
element that stands strictly before.  Putting such a list into a closed set, one element after the
other, keeps the set closed all the way.  When a reference names one element only, the references
within the list make no cycle.
-/

namespace CCNxFileRepo.Foundations

universe u v

variable {α : Type u} {π : Type v}

/-- Every reference from within the set names an element of the set. -/
def Closed (refs : α → Set π) (names : π → α → Prop) (s : Set α) : Prop :=
  ∀ a ∈ s, ∀ p ∈ refs a, ∃ b ∈ s, names p b

/-- Every reference of a list element names an element strictly before it. -/
def DependencyOrdered (refs : α → Set π) (names : π → α → Prop) (l : List α) : Prop :=
  ∀ before a after, l = before ++ a :: after → ∀ p ∈ refs a, ∃ b ∈ before, names p b

def Refers (refs : α → Set π) (names : π → α → Prop) (l : List α) (a b : α) : Prop :=
  a ∈ l ∧ b ∈ l ∧ ∃ p ∈ refs a, names p b

variable {refs : α → Set π} {names : π → α → Prop} {s t : Set α} {l : List α}

theorem Closed.union (hs : Closed refs names s) (ht : Closed refs names t) :
    Closed refs names (s ∪ t) := by
  rintro a (ha | ha) p hp
  · obtain ⟨b, hb, hnames⟩ := hs a ha p hp
    exact ⟨b, Or.inl hb, hnames⟩
  · obtain ⟨b, hb, hnames⟩ := ht a ha p hp
    exact ⟨b, Or.inr hb, hnames⟩

namespace DependencyOrdered

theorem nil : DependencyOrdered refs names ([] : List α) := by
  intro before a after h
  simp at h

/-- A list may be continued by an element that refers to what is in it. -/
theorem concat (h : DependencyOrdered refs names l) {a : α}
    (ha : ∀ p ∈ refs a, ∃ b ∈ l, names p b) : DependencyOrdered refs names (l ++ [a]) := by
  intro before c after heq
  rcases List.eq_nil_or_concat after with rfl | ⟨after, last, rfl⟩
  · obtain ⟨rfl, hlast⟩ := List.append_inj' heq rfl
    obtain rfl : a = c := by simpa using hlast
    exact ha
  · have hinit : l ++ [a] = (before ++ c :: after) ++ [last] := by simpa using heq
    exact h before c after (List.append_inj' hinit rfl).1

theorem mono {wider : π → α → Prop} (h : DependencyOrdered refs names l)
    (hnames : ∀ p b, names p b → wider p b) : DependencyOrdered refs wider l := by
  intro before a after heq p hp
  obtain ⟨b, hb, hname⟩ := h before a after heq p hp
  exact ⟨b, hb, hnames p b hname⟩

theorem take (h : DependencyOrdered refs names l) (count : ℕ) :
    DependencyOrdered refs names (l.take count) := by
  intro before a after heq
  apply h before a (after ++ l.drop count)
  calc
    l = l.take count ++ l.drop count := (List.take_append_drop count l).symm
    _ = before ++ a :: (after ++ l.drop count) := by rw [heq, List.append_assoc, List.cons_append]

theorem closed (h : DependencyOrdered refs names l) : Closed refs names {a | a ∈ l} := by
  intro a ha p hp
  obtain ⟨before, after, rfl⟩ := List.append_of_mem ha
  obtain ⟨b, hb, hnames⟩ := h before a after rfl p hp
  exact ⟨b, List.mem_append_left _ hb, hnames⟩

/-- A closed set stays closed while the elements of the list are put into it. -/
theorem closed_union_take (h : DependencyOrdered refs names l) (hs : Closed refs names s)
    (count : ℕ) : Closed refs names (s ∪ {a | a ∈ l.take count}) :=
  hs.union (h.take count).closed

/-- An element stands first behind everything that it refers to. -/
theorem idxOf_lt [DecidableEq α] (h : DependencyOrdered refs names l)
    (hunique : ∀ p, ∀ a ∈ l, ∀ b ∈ l, names p a → names p b → a = b) {a b : α}
    (hrefers : Refers refs names l a b) : l.idxOf b < l.idxOf a := by
  obtain ⟨ha, hb, p, hp, hname⟩ := hrefers
  obtain ⟨before, after, hsplit, hfirst⟩ := List.eq_append_cons_of_mem ha
  obtain ⟨c, hc, hother⟩ := h before a after hsplit p hp
  have hmem : c ∈ l := hsplit ▸ List.mem_append_left _ hc
  obtain rfl : b = c := hunique p b hb c hmem hname hother
  calc
    l.idxOf b = before.idxOf b := by rw [hsplit, List.idxOf_append_of_mem hc]
    _ < before.length := List.idxOf_lt_length_iff.mpr hc
    _ = l.idxOf a := by
      rw [hsplit, List.idxOf_append_of_notMem hfirst, List.idxOf_cons_self, Nat.add_zero]

/-- References within the list make no cycle. -/
theorem acyclic (h : DependencyOrdered refs names l)
    (hunique : ∀ p, ∀ a ∈ l, ∀ b ∈ l, names p a → names p b → a = b) (a : α) :
    ¬ Relation.TransGen (Refers refs names l) a a := by
  classical
  have hdescends : ∀ b, Relation.TransGen (Refers refs names l) a b →
      l.idxOf b < l.idxOf a := by
    intro b hpath
    induction hpath with
    | single hrefers => exact h.idxOf_lt hunique hrefers
    | tail _ hrefers ih => exact (h.idxOf_lt hunique hrefers).trans ih
  exact fun hcycle ↦ lt_irrefl _ (hdescends a hcycle)

end DependencyOrdered

end CCNxFileRepo.Foundations
