/-
Token buckets.

A bucket holds up to `burst` tokens and gains `rate` of them per unit of time; each use takes one.

* `Bucket`, `refill`, `take` — a bucket, with the time it was last looked at;
* `counted`, `Bounded` — the uses in a window of time, and the bound on them: the burst, and the
  rate times the length of the window;
* `Covers` — **the amortised invariant**: the uses since any time are paid for by the tokens that
  are missing and by what was gained since;
* `Covers.refill`, `Covers.take`, `Covers.bounded` — what each step does to it, as long as time does
  not go back.

Design notes: times are a list of uses, in no order; what is known of them is that none is later
than the last look at the bucket.
-/
import Mathlib.Algebra.Order.Field.Basic
import Mathlib.Data.List.Basic
import Mathlib.Tactic.Linarith
import Mathlib.Tactic.Ring

namespace TokenBucket

variable {K : Type} [Field K] [LinearOrder K] [IsStrictOrderedRing K]

structure Bucket (K : Type) where
  tokens : K
  last : K

/-- The bucket at a later time. -/
def refill (rate burst : K) (b : Bucket K) (now : K) : Bucket K :=
  ⟨min (b.tokens + (now - b.last) * rate) burst, now⟩

/-- One token is taken. -/
def take (b : Bucket K) : Bucket K := { b with tokens := b.tokens - 1 }

/-- The number of uses from `lo` to `hi`. -/
def counted (times : List K) (lo hi : K) : ℕ := times.countP fun t => decide (lo ≤ t ∧ t ≤ hi)

/-- In every window of time, there are at most the burst and what the window gains. -/
def Bounded (rate burst : K) (times : List K) : Prop :=
  ∀ lo hi, lo ≤ hi → (counted times lo hi : K) ≤ burst + rate * (hi - lo)

/-- The uses are paid for by the tokens that are missing from the bucket, and by what it gained. -/
structure Covers (rate burst : K) (b : Bucket K) (times : List K) : Prop where
  nonneg : 0 ≤ b.tokens
  full : b.tokens ≤ burst
  past : ∀ t ∈ times, t ≤ b.last
  paid : ∀ lo ≤ b.last, (counted times lo b.last : K) ≤ burst - b.tokens + rate * (b.last - lo)

variable {rate burst : K} {b : Bucket K} {times : List K} {lo hi now : K}

omit [Field K] [IsStrictOrderedRing K] in
theorem counted_cons (t : K) :
    counted (t :: times) lo hi = counted times lo hi + if lo ≤ t ∧ t ≤ hi then 1 else 0 := by
  rw [counted, List.countP_cons, counted]
  simp only [decide_eq_true_eq]

omit [Field K] [IsStrictOrderedRing K] in
/-- There are no uses after the last one. -/
theorem counted_of_past (h : ∀ t ∈ times, t < lo) : counted times lo hi = 0 := by
  rw [counted, List.countP_eq_zero]
  intro t ht hwindow
  exact absurd (of_decide_eq_true hwindow).1 (not_le.mpr (h t ht))

omit [Field K] [IsStrictOrderedRing K] in
/-- A window reaches no further than the last use. -/
theorem counted_of_le (h : ∀ t ∈ times, t ≤ now) (hi : K) :
    counted times lo hi ≤ counted times lo now := by
  refine List.countP_mono_left fun t ht hwindow => ?_
  exact decide_eq_true ⟨(of_decide_eq_true hwindow).1, h t ht⟩

theorem bounded_nil (hrate : 0 ≤ rate) (hburst : 0 ≤ burst) : Bounded rate burst [] := by
  intro lo hi hwindow
  have := mul_nonneg hrate (sub_nonneg.mpr hwindow)
  rw [counted, List.countP_nil, Nat.cast_zero]
  linarith

namespace Covers

/-- A full bucket covers that nothing happened. -/
theorem first (hrate : 0 ≤ rate) (hburst : 0 ≤ burst) (now : K) :
    Covers rate burst ⟨burst, now⟩ [] := by
  refine ⟨hburst, le_refl burst, fun _ ht => (List.not_mem_nil ht).elim, fun lo hlo => ?_⟩
  have := mul_nonneg hrate (sub_nonneg.mpr hlo)
  rw [counted, List.countP_nil, Nat.cast_zero]
  linarith

/-- **What a bucket gains over time covers no more than time allows.** -/
theorem refill (h : Covers rate burst b times) (hrate : 0 ≤ rate) (hnow : b.last ≤ now) :
    Covers rate burst (refill rate burst b now) times := by
  have hgain : 0 ≤ (now - b.last) * rate := mul_nonneg (sub_nonneg.mpr hnow) hrate
  have hburst : 0 ≤ burst := h.nonneg.trans h.full
  have htokens : min (b.tokens + (now - b.last) * rate) burst ≤ b.tokens + (now - b.last) * rate :=
    min_le_left _ _
  have hfull : min (b.tokens + (now - b.last) * rate) burst ≤ burst := min_le_right _ _
  refine ⟨le_min (add_nonneg h.nonneg hgain) hburst, hfull, fun t ht => (h.past t ht).trans hnow, ?_⟩
  intro lo (hlo : lo ≤ now)
  show (counted times lo now : K) ≤
    burst - min (b.tokens + (now - b.last) * rate) burst + rate * (now - lo)
  rcases le_or_gt lo b.last with hbefore | hafter
  · have hcount : (counted times lo now : K) ≤ counted times lo b.last :=
      Nat.cast_le.mpr (counted_of_le h.past now)
    have hpaid := h.paid lo hbefore
    have hsplit : rate * (now - lo) = (now - b.last) * rate + rate * (b.last - lo) := by ring
    linarith
  · -- no use is as late as the window begins
    rw [counted_of_past fun t ht => (h.past t ht).trans_lt hafter, Nat.cast_zero]
    have := mul_nonneg hrate (sub_nonneg.mpr hlo)
    linarith

/-- **A token pays for a use at the time the bucket was last looked at.** -/
theorem take (h : Covers rate burst b times) (htoken : 1 ≤ b.tokens) :
    Covers rate burst (take b) (b.last :: times) := by
  refine ⟨sub_nonneg.mpr htoken, (sub_le_self _ zero_le_one).trans h.full, ?_, fun lo hlo => ?_⟩
  · intro t ht
    rcases List.mem_cons.mp ht with rfl | ht
    · exact le_refl b.last
    · exact h.past t ht
  · show (counted (b.last :: times) lo b.last : K) ≤
      burst - (b.tokens - 1) + rate * (b.last - lo)
    have hpaid := h.paid lo hlo
    rw [counted_cons, if_pos ⟨hlo, le_refl b.last⟩, Nat.cast_add, Nat.cast_one]
    linarith

/-- **What is paid for is bounded in every window.** -/
theorem bounded (h : Covers rate burst b (b.last :: times)) (hrate : 0 ≤ rate)
    (hbounded : Bounded rate burst times) : Bounded rate burst (b.last :: times) := by
  intro lo hi hwindow
  by_cases hlast : lo ≤ b.last ∧ b.last ≤ hi
  · have hcount : (counted (b.last :: times) lo hi : K) ≤ counted (b.last :: times) lo b.last :=
      Nat.cast_le.mpr (counted_of_le h.past hi)
    have hpaid := h.paid lo hlast.1
    have hlength : rate * (b.last - lo) ≤ rate * (hi - lo) :=
      mul_le_mul_of_nonneg_left (sub_le_sub_right hlast.2 lo) hrate
    have := h.nonneg
    linarith
  · rw [counted_cons, if_neg hlast, Nat.add_zero]
    exact hbounded lo hi hwindow

end Covers

end TokenBucket
