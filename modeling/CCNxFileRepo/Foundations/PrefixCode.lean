import Mathlib.Data.List.Basic
import Mathlib.Tactic

/-!
# Prefix codes

A prefix code writes values as words that can be read off the front of any longer word.  Codes
for compound values are assembled from codes for their parts; the law of a part carries over to
the whole, so every assembled code reads back what it wrote.
-/

namespace CCNxFileRepo.Foundations

universe u

/-- A code over the symbols `σ`, with its law. -/
structure PrefixCode (σ : Type u) (α : Type*) where
  encode : α → List σ
  decode : List σ → Option (α × List σ)
  decode_encode : ∀ value rest, decode (encode value ++ rest) = some (value, rest)

namespace PrefixCode

variable {σ : Type u} {α β : Type*}

def symbol : PrefixCode σ σ where
  encode value := [value]
  decode
    | [] => none
    | value :: rest => some (value, rest)
  decode_encode _ _ := rfl

/-- The code without information. -/
def unit : PrefixCode σ Unit where
  encode _ := []
  decode word := some ((), word)
  decode_encode _ _ := rfl

def pair (first : PrefixCode σ α) (second : PrefixCode σ β) : PrefixCode σ (α × β) where
  encode value := first.encode value.1 ++ second.encode value.2
  decode word := (first.decode word).bind fun left ↦
    (second.decode left.2).map fun right ↦ ((left.1, right.1), right.2)
  decode_encode value rest := by
    rw [List.append_assoc, first.decode_encode]
    simp [second.decode_encode]

/-- A code for values that are represented by others. -/
def map (code : PrefixCode σ α) (toValue : α → β) (ofValue : β → α)
    (h : ∀ value, toValue (ofValue value) = value) : PrefixCode σ β where
  encode value := code.encode (ofValue value)
  decode word := (code.decode word).map fun result ↦ (toValue result.1, result.2)
  decode_encode value rest := by
    rw [code.decode_encode]
    simp [h]

section Marked

variable [DecidableEq σ] (stop more : σ) (hne : more ≠ stop)

/-- A value of one of two kinds, told apart by a leading symbol. -/
def sum (left : PrefixCode σ α) (right : PrefixCode σ β) : PrefixCode σ (α ⊕ β) where
  encode
    | .inl value => stop :: left.encode value
    | .inr value => more :: right.encode value
  decode
    | [] => none
    | mark :: word =>
        if mark = stop then (left.decode word).map fun result ↦ (.inl result.1, result.2)
        else (right.decode word).map fun result ↦ (.inr result.1, result.2)
  decode_encode value rest := by
    cases value with
    | inl value => simp [left.decode_encode]
    | inr value => simp [right.decode_encode, hne]

/-- The words of a list: `more` in front of every value and `stop` at the end. -/
def encodeList (code : PrefixCode σ α) : List α → List σ
  | [] => [stop]
  | value :: values => more :: (code.encode value ++ encodeList code values)

/-- Read at most `fuel` values up to the end mark. -/
def decodeList (code : PrefixCode σ α) : ℕ → List σ → Option (List α × List σ)
  | 0, _ => none
  | _ + 1, [] => none
  | fuel + 1, mark :: word =>
      if mark = stop then some ([], word)
      else (code.decode word).bind fun value ↦
        (decodeList code fuel value.2).map fun values ↦ (value.1 :: values.1, values.2)

include hne in
theorem decodeList_encodeList (code : PrefixCode σ α) (values : List α) (rest : List σ)
    {fuel : ℕ} (h : values.length < fuel) :
    decodeList stop code fuel (encodeList stop more code values ++ rest) =
      some (values, rest) := by
  induction values generalizing fuel with
  | nil =>
      obtain ⟨fuel, rfl⟩ := Nat.exists_eq_succ_of_ne_zero (Nat.ne_of_gt h)
      simp [encodeList, decodeList]
  | cons value values ih =>
      obtain ⟨fuel, rfl⟩ := Nat.exists_eq_succ_of_ne_zero (Nat.ne_of_gt (Nat.zero_lt_of_lt h))
      have hfuel : values.length < fuel := by simpa using h
      simp [encodeList, decodeList, hne, code.decode_encode, ih hfuel]

omit [DecidableEq σ] in
theorem length_lt_length_encodeList (code : PrefixCode σ α) (values : List α) :
    values.length < (encodeList stop more code values).length := by
  induction values with
  | nil => simp [encodeList]
  | cons value values ih =>
      simp only [encodeList, List.length_cons, List.length_append]
      omega

def list (code : PrefixCode σ α) : PrefixCode σ (List α) where
  encode := encodeList stop more code
  decode word := decodeList stop code word.length word
  decode_encode values rest := by
    apply decodeList_encodeList stop more hne code values rest
    have := length_lt_length_encodeList stop more code values
    rw [List.length_append]
    omega

/-- A value that may be missing. -/
def option (code : PrefixCode σ α) : PrefixCode σ (Option α) :=
  (sum stop more hne unit code).map
    (fun value ↦ value.elim (fun _ ↦ none) some)
    (fun value ↦ value.elim (.inl ()) .inr)
    (by rintro (_ | value) <;> rfl)

/-- A natural number, as that many marks. -/
def natural : PrefixCode σ ℕ :=
  (list stop more hne unit).map List.length (fun count ↦ List.replicate count ())
    (by simp)

end Marked

end PrefixCode

end CCNxFileRepo.Foundations
