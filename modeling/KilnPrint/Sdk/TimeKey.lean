/-
`timeKey`: agent timestamps at microsecond precision.

The agent writes a time as an RFC 3339 string with as many fractional digits as
it needs, up to nine.  The SDK reads the whole seconds and the first six digits.

* `Iso` — such a string, as the SDK's pattern splits it;
* `Iso.nanos` — the instant it denotes;
* `timeKey` — what the SDK computes;
* `timeKey_eq` — **`timeKey` is the instant truncated to microseconds**, so it keeps
  the order of instants and may identify two of them.
-/
import Mathlib.Data.List.Basic
import Mathlib.Data.Fintype.Basic
import Mathlib.Tactic.Ring

namespace KilnPrint

/-- A timestamp as the agent writes it: the part before the fraction, read as
seconds, and the digits of the fraction. -/
structure Iso where
  seconds : ℕ
  fraction : List (Fin 10)
  short : fraction.length ≤ 9
  deriving DecidableEq

/-- The number that a list of decimal digits denotes (`Number.parseInt`). -/
def decimal (digits : List (Fin 10)) : ℕ := digits.foldl (fun n d => n * 10 + d.val) 0

/-- Digits, as numbers below ten. -/
def digits (numbers : List ℕ) : List (Fin 10) := numbers.map (Fin.ofNat 10)

/-- `padEnd(n, "0").slice(0, n)`. -/
def padEnd (n : ℕ) (digits : List (Fin 10)) : List (Fin 10) :=
  (digits ++ List.replicate (n - digits.length) 0).take n

namespace Iso

/-- The instant, in nanoseconds. -/
def nanos (t : Iso) : ℕ := t.seconds * 1000000000 + decimal (padEnd 9 t.fraction)

end Iso

def timeKey (t : Iso) : ℕ := t.seconds * 1000000 + decimal (padEnd 6 t.fraction)

/-! ### Digits -/

theorem decimal_append_one (l : List (Fin 10)) (d : Fin 10) :
    decimal (l ++ [d]) = decimal l * 10 + d.val := by
  simp [decimal]

theorem decimal_append (l m : List (Fin 10)) :
    decimal (l ++ m) = decimal l * 10 ^ m.length + decimal m := by
  induction m using List.reverseRecOn with
  | nil => simp [decimal]
  | append_singleton m d ih =>
    rw [← List.append_assoc, decimal_append_one, decimal_append_one, ih, List.length_append,
      List.length_singleton, pow_succ]
    ring

theorem decimal_lt (l : List (Fin 10)) : decimal l < 10 ^ l.length := by
  induction l using List.reverseRecOn with
  | nil => simp [decimal]
  | append_singleton l d ih =>
    rw [decimal_append_one, List.length_append, List.length_singleton, pow_succ]
    have hd := d.isLt
    omega

theorem length_padEnd (n : ℕ) (l : List (Fin 10)) : (padEnd n l).length = n := by
  simp only [padEnd, List.length_take, List.length_append, List.length_replicate]
  omega

/-- The first digits of a padded list are those of the list padded less. -/
theorem take_padEnd {m n : ℕ} (h : m ≤ n) (l : List (Fin 10)) :
    (padEnd n l).take m = padEnd m l := by
  refine List.ext_getElem? fun i => ?_
  by_cases hi : i < m
  · have hin : i < n := by omega
    simp only [padEnd, List.take_take, List.getElem?_take, List.getElem?_append,
      List.getElem?_replicate, Nat.min_eq_left h, if_pos hi]
    split
    · rfl
    · rw [if_pos (by omega), if_pos (by omega)]
  · simp only [List.getElem?_take, if_neg hi, padEnd]

/-! ### Order -/

/-- **`timeKey` is the instant, truncated to microseconds.** -/
theorem timeKey_eq (t : Iso) : timeKey t = t.nanos / 1000 := by
  let digits := padEnd 9 t.fraction
  have hsplit : digits.take 6 ++ digits.drop 6 = digits := List.take_append_drop 6 digits
  have htake : digits.take 6 = padEnd 6 t.fraction := take_padEnd (by omega) t.fraction
  have hlen : (digits.drop 6).length = 3 := by
    rw [List.length_drop, length_padEnd]
  have hdec : decimal digits = decimal (padEnd 6 t.fraction) * 1000 + decimal (digits.drop 6) :=
    calc decimal digits = decimal (digits.take 6 ++ digits.drop 6) := by rw [hsplit]
      _ = decimal (padEnd 6 t.fraction) * 10 ^ 3 + decimal (digits.drop 6) := by
        rw [decimal_append, htake, hlen]
      _ = decimal (padEnd 6 t.fraction) * 1000 + decimal (digits.drop 6) := by norm_num
  have hlt : decimal (digits.drop 6) < 1000 := by
    have h := decimal_lt (digits.drop 6)
    rwa [hlen] at h
  have hnanos : t.nanos = t.seconds * 1000000000 + decimal digits := rfl
  rw [hnanos, hdec, timeKey]
  omega

/-- A later instant has no smaller key. -/
theorem timeKey_mono {t u : Iso} (h : t.nanos ≤ u.nanos) : timeKey t ≤ timeKey u := by
  rw [timeKey_eq, timeKey_eq]
  exact Nat.div_le_div_right h

end KilnPrint
