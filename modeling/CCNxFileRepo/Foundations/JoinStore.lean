import Mathlib.Order.Lattice
import Mathlib.Tactic

/-!
# Stores that only grow

A store assigns to every key a value of a join semilattice.  `raise` joins a value to the entry
of one key.  Raises commute and are idempotent, an entry never falls, and after any number of
raises of a linearly ordered store an entry exceeds a bound exactly when it did before or one of
the raises of its key does.
-/

namespace CCNxFileRepo.Foundations

variable {κ α : Type*} [DecidableEq κ]

section SemilatticeSup

variable [SemilatticeSup α]

/-- Join `value` to the entry of `key`. -/
def raise (store : κ → α) (key : κ) (value : α) : κ → α :=
  Function.update store key (store key ⊔ value)

def raiseAll (store : κ → α) (entries : List (κ × α)) : κ → α :=
  entries.foldl (fun store entry ↦ raise store entry.1 entry.2) store

@[simp]
theorem raise_self (store : κ → α) (key : κ) (value : α) :
    raise store key value key = store key ⊔ value := by
  simp [raise]

theorem raise_of_ne (store : κ → α) {key other : κ} (h : other ≠ key) (value : α) :
    raise store key value other = store other := by
  simp [raise, h]

theorem le_raise (store : κ → α) (key : κ) (value : α) : store ≤ raise store key value := by
  intro other
  by_cases h : other = key
  · subst h
    simp
  · rw [raise_of_ne store h]

@[simp]
theorem raiseAll_nil (store : κ → α) : raiseAll store [] = store := rfl

@[simp]
theorem raiseAll_cons (store : κ → α) (entry : κ × α) (entries : List (κ × α)) :
    raiseAll store (entry :: entries) = raiseAll (raise store entry.1 entry.2) entries := rfl

theorem le_raiseAll (store : κ → α) (entries : List (κ × α)) :
    store ≤ raiseAll store entries := by
  induction entries generalizing store with
  | nil => exact le_rfl
  | cons entry entries ih => exact (le_raise store entry.1 entry.2).trans (ih _)

theorem raiseAll_append (store : κ → α) (first second : List (κ × α)) :
    raiseAll store (first ++ second) = raiseAll (raiseAll store first) second :=
  List.foldl_append

/-- A raised store is the least one above the store and the value. -/
theorem raise_le_iff (store bound : κ → α) (key : κ) (value : α) :
    raise store key value ≤ bound ↔ store ≤ bound ∧ value ≤ bound key := by
  constructor
  · intro h
    have hkey := h key
    rw [raise_self, sup_le_iff] at hkey
    exact ⟨(le_raise store key value).trans h, hkey.2⟩
  · rintro ⟨hstore, hvalue⟩ other
    by_cases hother : other = key
    · subst hother
      rw [raise_self]
      exact sup_le (hstore other) hvalue
    · rw [raise_of_ne store hother]
      exact hstore other

theorem raiseAll_le_iff (store bound : κ → α) (entries : List (κ × α)) :
    raiseAll store entries ≤ bound ↔
      store ≤ bound ∧ ∀ entry ∈ entries, entry.2 ≤ bound entry.1 := by
  induction entries generalizing store with
  | nil => simp
  | cons entry entries ih => rw [raiseAll_cons, ih, raise_le_iff, List.forall_mem_cons, and_assoc]

/-- Neither the order of the raises nor their number matters, only which ones there are. -/
theorem raiseAll_congr (store : κ → α) {first second : List (κ × α)}
    (h : ∀ entry, entry ∈ first ↔ entry ∈ second) :
    raiseAll store first = raiseAll store second := by
  apply eq_of_forall_ge_iff
  intro bound
  simp only [raiseAll_le_iff, h]

end SemilatticeSup

/-- An entry reaches a bound if and only if it did before or one of its raises does. -/
theorem le_raiseAll_iff [LinearOrder α] (store : κ → α) (entries : List (κ × α)) (key : κ)
    (bound : α) :
    bound ≤ raiseAll store entries key ↔
      bound ≤ store key ∨ ∃ entry ∈ entries, entry.1 = key ∧ bound ≤ entry.2 := by
  induction entries generalizing store with
  | nil => simp
  | cons entry entries ih =>
      rw [raiseAll_cons, ih, List.exists_mem_cons_iff]
      by_cases h : entry.1 = key
      · subst h
        simp [or_assoc]
      · rw [raise_of_ne store (Ne.symm h)]
        simp [h]

end CCNxFileRepo.Foundations
