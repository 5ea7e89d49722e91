/-
Instants, and the texts that the agent's database stores for them.

* `DateTime`, `DateTime.fields` — an instant in UTC, with nanoseconds, ordered by its fields;
* `fixed`, `stamp` — numbers of a fixed width, and texts that are put together from them;
* `ts` — the text of an instant: RFC 3339 with microseconds;
* `stamp_lt_iff` — texts of the same widths are ordered as their numbers are;
* `ts_lt_iff` — **in the years from 0 to 9999, texts are ordered as the instants are, truncated to
  microseconds**.

Years before 0 and after 9999 have a sign in front of them, so that their texts are neither of the
same width nor in order.
-/
import Mathlib.Algebra.Order.Ring.Int
import Mathlib.Data.Char
import Mathlib.Data.List.Lex
import Mathlib.Data.Nat.Cast.Order.Ring
import Mathlib.Tactic.Common

namespace KilnPrint

/-! ### Instants -/

/-- The days of a month. -/
def daysIn (year : ℤ) (month : ℕ) : ℕ :=
  if month = 2 then if year % 4 = 0 ∧ (year % 100 ≠ 0 ∨ year % 400 = 0) then 29 else 28
  else if month ∈ [4, 6, 9, 11] then 30
  else 31

/-- An instant in UTC; in a leap second, `second` is 60. -/
structure DateTime where
  year : ℤ
  month : ℕ
  day : ℕ
  hour : ℕ
  minute : ℕ
  second : ℕ
  nano : ℕ
  date : 1 ≤ month ∧ month ≤ 12 ∧ 1 ≤ day ∧ day ≤ daysIn year month
  time : hour < 24 ∧ minute < 60 ∧ second ≤ 60 ∧ nano < 1000000000
  deriving DecidableEq

namespace DateTime

def fields (t : DateTime) : List ℤ := [t.year, t.month, t.day, t.hour, t.minute, t.second, t.nano]

theorem fields_injective : Function.Injective fields := by
  intro t u h
  cases t
  cases u
  simp only [fields, List.cons.injEq, Nat.cast_inj, and_true] at h
  obtain ⟨rfl, rfl, rfl, rfl, rfl, rfl, rfl⟩ := h
  rfl

instance : LinearOrder DateTime := LinearOrder.lift' fields fields_injective

theorem lt_iff {t u : DateTime} : t < u ↔ t.fields < u.fields := Iff.rfl

/-- The instant, truncated to microseconds. -/
def truncated (t : DateTime) : DateTime :=
  { t with
    nano := t.nano / 1000 * 1000
    time := ⟨t.time.1, t.time.2.1, t.time.2.2.1, by have := t.time.2.2.2; omega⟩ }

end DateTime

/-! ### Texts -/

/-- The last digits of a number. -/
def fixed : ℕ → ℕ → List Char
  | 0, _ => []
  | width + 1, n => fixed width (n / 10) ++ [Char.ofNat (48 + n % 10)]

/-- Numbers of given widths, each with the character behind it. -/
def stamp : List (ℕ × Char × ℕ) → List Char
  | [] => []
  | (width, mark, n) :: rest => fixed width n ++ mark :: stamp rest

/-- The year: with four digits, or with a sign and at least four. -/
def yearText (year : ℤ) : List Char :=
  if 0 ≤ year ∧ year ≤ 9999 then fixed 4 year.toNat
  else (if year < 0 then '-' else '+') ::
    if year.natAbs ≤ 9999 then fixed 4 year.natAbs else Nat.toDigits 10 year.natAbs

/-- `to_rfc3339_opts(SecondsFormat::Micros, true)`. -/
def DateTime.ts (t : DateTime) : List Char :=
  yearText t.year ++ '-' :: stamp [(2, '-', t.month), (2, 'T', t.day), (2, ':', t.hour),
    (2, ':', t.minute), (2, '.', t.second), (6, 'Z', t.nano / 1000)]

/-! ### The order of texts -/

theorem length_fixed (width n : ℕ) : (fixed width n).length = width := by
  induction width generalizing n with
  | zero => rfl
  | succ width ih => rw [fixed, List.length_append, ih, List.length_singleton]

/-- Texts of the same length decide the order, unless they are equal. -/
theorem append_lt_iff {α : Type} [LinearOrder α] {a b : List α} (h : a.length = b.length)
    (s t : List α) : a ++ s < b ++ t ↔ a < b ∨ a = b ∧ s < t := by
  induction a generalizing b with
  | nil =>
    obtain rfl := List.length_eq_zero_iff.mp h.symm
    simp
  | cons c a ih =>
    cases b with
    | nil => cases h
    | cons d b =>
      rw [List.cons_append, List.cons_append, List.cons_lt_cons_iff, List.cons_lt_cons_iff,
        ih (Nat.succ.inj h), List.cons.injEq]
      tauto

theorem digit_lt_iff {k l : ℕ} (hk : k < 10) (hl : l < 10) :
    [Char.ofNat (48 + k)] < [Char.ofNat (48 + l)] ↔ k < l := by
  have hall : ∀ k < 10, ∀ l < 10, (Char.ofNat (48 + k) < Char.ofNat (48 + l) ↔ k < l) := by decide
  rw [List.cons_lt_cons_iff, hall k hk l hl]
  simp

theorem inj_of_lt_iff {f : ℕ → List Char} {n m : ℕ} (hless : f n < f m ↔ n < m)
    (hmore : f m < f n ↔ m < n) : f n = f m ↔ n = m := by
  refine ⟨fun h => ?_, fun h => by rw [h]⟩
  rw [h, lt_self_iff_false, false_iff] at hless hmore
  omega

/-- Numbers of a fixed width are ordered as numbers. -/
theorem fixed_lt_iff {width : ℕ} : ∀ {n m : ℕ}, n < 10 ^ width → m < 10 ^ width →
    (fixed width n < fixed width m ↔ n < m) := by
  induction width with
  | zero =>
    intro n m hn hm
    rw [pow_zero, Nat.lt_one_iff] at hn hm
    rw [hn, hm, lt_self_iff_false, lt_self_iff_false]
  | succ width ih =>
    intro n m hn hm
    have hn' : n / 10 < 10 ^ width := by rw [pow_succ] at hn; omega
    have hm' : m / 10 < 10 ^ width := by rw [pow_succ] at hm; omega
    rw [fixed, fixed, append_lt_iff (by rw [length_fixed, length_fixed]), ih hn' hm',
      inj_of_lt_iff (ih hn' hm') (ih hm' hn'),
      digit_lt_iff (Nat.mod_lt _ (by omega)) (Nat.mod_lt _ (by omega))]
    omega

/-- Numbers of the same widths, that fit into them, with the same marks. -/
def SameWidths : List (ℕ × Char × ℕ) → List (ℕ × Char × ℕ) → Prop :=
  List.Forall₂ fun p q => p.1 = q.1 ∧ p.2.1 = q.2.1 ∧ p.2.2 < 10 ^ p.1 ∧ q.2.2 < 10 ^ p.1

/-- **Texts of the same widths are ordered as their numbers are.** -/
theorem stamp_lt_iff {ps qs : List (ℕ × Char × ℕ)} (h : SameWidths ps qs) :
    stamp ps < stamp qs ↔ (ps.map fun p => p.2.2) < qs.map fun q => q.2.2 := by
  induction h with
  | nil => exact iff_of_false (lt_irrefl _) (lt_irrefl _)
  | @cons p q ps qs hpq _ ih =>
    obtain ⟨width, mark, n⟩ := p
    obtain ⟨width', mark', m⟩ := q
    obtain ⟨rfl, rfl, hn, hm⟩ := hpq
    rw [stamp, stamp, append_lt_iff (by rw [length_fixed, length_fixed]), fixed_lt_iff hn hm,
      inj_of_lt_iff (fixed_lt_iff hn hm) (fixed_lt_iff hm hn), List.cons_lt_cons_iff, List.map_cons,
      List.map_cons, List.cons_lt_cons_iff, ih, lt_self_iff_false, false_or, and_iff_right rfl]

namespace DateTime

/-- A year that is written without a sign. -/
def FourDigits (t : DateTime) : Prop := 0 ≤ t.year ∧ t.year ≤ 9999

instance (t : DateTime) : Decidable t.FourDigits := inferInstanceAs (Decidable (_ ∧ _))

/-- The numbers of a text. -/
def numbers (t : DateTime) : List (ℕ × Char × ℕ) :=
  [(4, '-', t.year.toNat), (2, '-', t.month), (2, 'T', t.day), (2, ':', t.hour),
    (2, ':', t.minute), (2, '.', t.second), (6, 'Z', t.nano / 1000)]

theorem ts_eq {t : DateTime} (h : t.FourDigits) : t.ts = stamp t.numbers := by
  have hyear : yearText t.year = fixed 4 t.year.toNat := if_pos h
  rw [ts, hyear]
  rfl

theorem day_le (t : DateTime) : t.day ≤ 31 := by
  refine t.date.2.2.2.trans ?_
  unfold daysIn
  split_ifs <;> omega

theorem sameWidths_numbers {t u : DateTime} (ht : t.FourDigits) (hu : u.FourDigits) :
    SameWidths t.numbers u.numbers := by
  obtain ⟨-, hmonth, -, -⟩ := t.date
  obtain ⟨-, hmonth', -, -⟩ := u.date
  obtain ⟨hhour, hminute, hsecond, hnano⟩ := t.time
  obtain ⟨hhour', hminute', hsecond', hnano'⟩ := u.time
  have hday := t.day_le
  have hday' := u.day_le
  obtain ⟨hlow, hhigh⟩ := ht
  obtain ⟨hlow', hhigh'⟩ := hu
  refine .cons ⟨rfl, rfl, ?_, ?_⟩ (.cons ⟨rfl, rfl, ?_, ?_⟩ (.cons ⟨rfl, rfl, ?_, ?_⟩
    (.cons ⟨rfl, rfl, ?_, ?_⟩ (.cons ⟨rfl, rfl, ?_, ?_⟩ (.cons ⟨rfl, rfl, ?_, ?_⟩
    (.cons ⟨rfl, rfl, ?_, ?_⟩ .nil)))))) <;> simp only <;> omega

/-- **Texts of four-digit years are ordered as the truncated instants.** -/
theorem ts_lt_iff {t u : DateTime} (ht : t.FourDigits) (hu : u.FourDigits) :
    t.ts < u.ts ↔ t.truncated < u.truncated := by
  have hyear : t.year.toNat < u.year.toNat ↔ t.year < u.year := by
    obtain ⟨hlow, -⟩ := ht
    obtain ⟨hlow', -⟩ := hu
    omega
  have hsame : t.year.toNat = u.year.toNat ↔ t.year = u.year := by
    obtain ⟨hlow, -⟩ := ht
    obtain ⟨hlow', -⟩ := hu
    omega
  have hnano : t.nano / 1000 * 1000 < u.nano / 1000 * 1000 ↔ t.nano / 1000 < u.nano / 1000 :=
    Nat.mul_lt_mul_right (by omega)
  rw [ts_eq ht, ts_eq hu, stamp_lt_iff (sameWidths_numbers ht hu), lt_iff]
  simp only [numbers, fields, truncated, List.map_cons, List.map_nil, List.cons_lt_cons_iff, hyear,
    hsame, Nat.cast_lt, Nat.cast_inj, hnano]
  simp only [List.not_lt_nil, and_false, or_false]

/-! ### Truncation -/

end DateTime

end KilnPrint
