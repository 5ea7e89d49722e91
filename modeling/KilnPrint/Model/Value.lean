/-
Structured error details.

`PrintError` carries optional JSON context.  `Value` is the part of JSON that
the program builds: objects, arrays, strings, integers, booleans and `null`,
with decidable equality, so that two errors (and two job records) can be
compared field by field as the source does.

Design notes: the type is nested through lists, which the derive handler for
`DecidableEq` does not take; `Value.beq` is the structural comparison and the
two mutual theorems below show that it decides equality.
-/
import Mathlib.Algebra.Ring.Int.Defs
import Mathlib.Algebra.Ring.Nat
import Mathlib.Data.Int.Notation
import Mathlib.Tactic.Common

namespace KilnPrint

/-- A JSON value, as used in error details. -/
inductive Value
  | null
  | bool (b : Bool)
  | num (n : ℤ)
  | str (s : String)
  | arr (xs : List Value)
  | obj (fields : List (String × Value))
  deriving Repr

namespace Value

mutual
/-- Structural comparison. -/
def beq : Value → Value → Bool
  | null, null => true
  | bool a, bool b => a == b
  | num a, num b => a == b
  | str a, str b => a == b
  | arr xs, arr ys => beqList xs ys
  | obj xs, obj ys => beqFields xs ys
  | _, _ => false
def beqList : List Value → List Value → Bool
  | [], [] => true
  | x :: xs, y :: ys => beq x y && beqList xs ys
  | _, _ => false
def beqFields : List (String × Value) → List (String × Value) → Bool
  | [], [] => true
  | (k, x) :: xs, (l, y) :: ys => k == l && beq x y && beqFields xs ys
  | _, _ => false
end

mutual
theorem eq_of_beq : ∀ a b : Value, beq a b = true → a = b
  | null, b => by cases b <;> simp [beq]
  | bool a, b => by cases b <;> simp [beq]
  | num a, b => by cases b <;> simp [beq]
  | str a, b => by cases b <;> simp [beq]
  | arr xs, b => by
    cases b <;> simp [beq]
    exact eq_of_beqList xs _
  | obj xs, b => by
    cases b <;> simp [beq]
    exact eq_of_beqFields xs _
theorem eq_of_beqList : ∀ xs ys : List Value, beqList xs ys = true → xs = ys
  | [], ys => by cases ys <;> simp [beqList]
  | x :: xs, ys => by
    cases ys with
    | nil => simp [beqList]
    | cons y ys =>
      simp only [beqList, Bool.and_eq_true, List.cons.injEq, and_imp]
      intro h1 h2
      exact ⟨eq_of_beq x y h1, eq_of_beqList xs ys h2⟩
theorem eq_of_beqFields : ∀ xs ys : List (String × Value), beqFields xs ys = true → xs = ys
  | [], ys => by cases ys <;> simp [beqFields]
  | (k, x) :: xs, ys => by
    cases ys with
    | nil => simp [beqFields]
    | cons y ys =>
      obtain ⟨l, y⟩ := y
      simp only [beqFields, Bool.and_eq_true, List.cons.injEq, Prod.mk.injEq, and_imp,
        beq_iff_eq]
      intro h0 h1 h2
      exact ⟨⟨h0, eq_of_beq x y h1⟩, eq_of_beqFields xs ys h2⟩
end

mutual
theorem beq_refl : ∀ a : Value, beq a a = true
  | null => rfl
  | bool a => by simp [beq]
  | num a => by simp [beq]
  | str a => by simp [beq]
  | arr xs => by simpa [beq] using beqList_refl xs
  | obj xs => by simpa [beq] using beqFields_refl xs
theorem beqList_refl : ∀ xs : List Value, beqList xs xs = true
  | [] => rfl
  | x :: xs => by simp [beqList, beq_refl x, beqList_refl xs]
theorem beqFields_refl : ∀ xs : List (String × Value), beqFields xs xs = true
  | [] => rfl
  | (k, x) :: xs => by simp [beqFields, beq_refl x, beqFields_refl xs]
end

instance : DecidableEq Value := fun a b =>
  if h : beq a b = true then isTrue (eq_of_beq a b h)
  else isFalse fun e => h (e ▸ beq_refl a)

end Value

end KilnPrint
