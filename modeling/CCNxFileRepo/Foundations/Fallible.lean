import Mathlib.Logic.Basic
import Mathlib.Tactic

/-!
# Fallible computations in sequence

How a sequence of two computations that may stop can end.  With these two laws a program in
`Except` is taken apart one step after the other.
-/

namespace CCNxFileRepo.Foundations.Fallible

universe u v

variable {ε : Type u} {α β : Type v} {first : Except ε α} {second : α → Except ε β}

/-- A sequence that comes back has come through both parts. -/
theorem bind_eq_ok {result : β} :
    first >>= second = .ok result ↔ ∃ value, first = .ok value ∧ second value = .ok result := by
  cases first with
  | error stop => simp [bind, Except.bind]
  | ok value => simp [bind, Except.bind]

/-- A sequence stops where its first part does or, behind it, where its second part does. -/
theorem bind_eq_error {stop : ε} :
    first >>= second = .error stop ↔
      first = .error stop ∨ ∃ value, first = .ok value ∧ second value = .error stop := by
  cases first with
  | error other => simp [bind, Except.bind]
  | ok value => simp [bind, Except.bind]

end CCNxFileRepo.Foundations.Fallible
