/-
The rate limiter of the agent.

* `RateLimiter`, `checkAt` — a bucket of tokens for each key, and the check of one call;
* `Served`, `serve` — the calls served so far, in the order in which they took the lock; a call read
  the clock before, so that the times need not be in this order;
* `InOrder` — the calls that find the bucket as the key left it, no later than now, or a full one
  where it was full again;
* `rate_bounded` — **if all calls are such, the accepted calls of a key in any window of time are at
  most the burst and the rate times the window's length**;
* `late_call_refills` — a call with an earlier time fills the bucket a second time.

Times are nanoseconds, tokens rational numbers.
-/
import KilnPrint.Lib.FinMap
import KilnPrint.Lib.Runs
import KilnPrint.Lib.TokenBucket

namespace KilnPrint

namespace RateLimit

open TokenBucket (Covers Bounded)

/-! ### The limiter -/

structure Bucket where
  tokens : ℚ
  last : ℕ
  deriving DecidableEq

structure RateLimiter where
  rate : ℚ
  burst : ℚ
  buckets : FinMap String Bucket

/-- `as_secs_f64`. -/
def seconds (nanoseconds : ℕ) : ℚ := nanoseconds / 10 ^ 9

namespace RateLimiter

def new (requestsPerSecond : ℚ) (burst : UInt32) : RateLimiter :=
  ⟨max requestsPerSecond (1 / 1000), (max burst.toNat 1 : ℕ), ∅⟩

/-- The buckets that stay when there are many: `now.duration_since(b.last).as_secs() < 60`, where a
duration is never negative. -/
def retained (r : RateLimiter) (now : ℕ) : FinMap String Bucket :=
  if 10000 < r.buckets.entries.length then
    FinMap.filter r.buckets fun b => (now - b.last) / 10 ^ 9 < 60
  else r.buckets

/-- The tokens that a call finds. -/
def available (r : RateLimiter) (key : String) (now : ℕ) : ℚ :=
  let bucket := ((r.retained now).lookup key).getD ⟨r.burst, now⟩
  let elapsed := seconds (now - bucket.last)
  min (bucket.tokens + elapsed * r.rate) r.burst

/-- Takes one token for `key`; `false` means the request must be rejected. -/
def checkAt (r : RateLimiter) (key : String) (now : ℕ) : RateLimiter × Bool :=
  let tokens := r.available key now
  if 1 ≤ tokens then
    ({ r with buckets := (r.retained now).insert key ⟨tokens - 1, now⟩ }, true)
  else ({ r with buckets := (r.retained now).insert key ⟨tokens, now⟩ }, false)

end RateLimiter

/-! ### Runs -/

structure Call where
  key : String
  now : ℕ
  deriving DecidableEq

/-- The limiter, the bucket that the last call of each key left, and the accepted calls. -/
structure Served where
  limiter : RateLimiter
  left : FinMap String Bucket
  accepted : List Call

def serve (s : Served) (c : Call) : Option Served :=
  let (limiter, accepted) := s.limiter.checkAt c.key c.now
  some ⟨limiter, FinMap.update s.left c.key (limiter.buckets.lookup c.key),
    if accepted then c :: s.accepted else s.accepted⟩

def start (requestsPerSecond : ℚ) (burst : UInt32) : Served :=
  ⟨RateLimiter.new requestsPerSecond burst, ∅, []⟩

/-- The call is no earlier than its key's last one; and where the bucket is gone by now, it would be
full. -/
def InOrder (s : Served) (c : Call) : Prop :=
  ∀ b, s.left.lookup c.key = some b → b.last ≤ c.now ∧
    ((s.limiter.retained c.now).lookup c.key = none →
      s.limiter.burst ≤ b.tokens + seconds (c.now - b.last) * s.limiter.rate)

instance (s : Served) (c : Call) : Decidable (InOrder s c) :=
  decidable_of_iff ((s.left.lookup c.key).all fun b => decide (b.last ≤ c.now ∧
    ((s.limiter.retained c.now).lookup c.key = none →
      s.limiter.burst ≤ b.tokens + seconds (c.now - b.last) * s.limiter.rate))) (by
    cases hleft : s.left.lookup c.key with
    | none => simp [InOrder, hleft]
    | some b =>
      simp only [InOrder, hleft, Option.all_some, decide_eq_true_eq, Option.some.injEq,
        forall_eq'])

/-- The times of a key's accepted calls, in seconds. -/
def uses (accepted : List Call) (key : String) : List ℚ :=
  (accepted.filter (·.key = key)).map fun c => seconds c.now

/-! ### The invariant -/

theorem seconds_sub {a b : ℕ} (h : b ≤ a) : seconds (a - b) = seconds a - seconds b := by
  rw [seconds, seconds, seconds, Nat.cast_sub h, sub_div]

theorem seconds_mono {a b : ℕ} (h : a ≤ b) : seconds a ≤ seconds b :=
  div_le_div_of_nonneg_right (Nat.cast_le.mpr h) (by positivity)

theorem uses_cons (c : Call) (accepted : List Call) (key : String) :
    uses (c :: accepted) key =
      if c.key = key then seconds c.now :: uses accepted key else uses accepted key := by
  simp only [uses, List.filter_cons, decide_eq_true_eq]
  split
  · rfl
  · rfl

/-- A bucket, with its time in seconds. -/
def Bucket.measured (b : Bucket) : TokenBucket.Bucket ℚ := ⟨b.tokens, seconds b.last⟩

/-- The buckets are those that the keys left, and they cover what was accepted. -/
structure Inv (rate burst : ℚ) (s : Served) : Prop where
  rate_eq : s.limiter.rate = rate
  burst_eq : s.limiter.burst = burst
  held : ∀ k b, s.limiter.buckets.lookup k = some b → s.left.lookup k = some b
  covered : ∀ k b, s.left.lookup k = some b → Covers rate burst b.measured (uses s.accepted k)
  fresh : ∀ k, s.left.lookup k = none → uses s.accepted k = []
  bounded : ∀ k, Bounded rate burst (uses s.accepted k)

theorem lookup_retained {r : RateLimiter} {now : ℕ} {key : String} {b : Bucket}
    (h : (r.retained now).lookup key = some b) : r.buckets.lookup key = some b := by
  unfold RateLimiter.retained at h
  split at h
  · rw [FinMap.lookup_filter] at h
    exact (Option.filter_eq_some_iff.mp h).1
  · exact h

variable {rate burst : ℚ} {s : Served} {c : Call}

/-- **What a call finds covers what was accepted before.** -/
theorem Inv.available (h : Inv rate burst s) (hrate : 0 ≤ rate) (hburst : 0 ≤ burst)
    (horder : InOrder s c) :
    Covers rate burst ⟨s.limiter.available c.key c.now, seconds c.now⟩ (uses s.accepted c.key) := by
  have hfull : ∀ now, (s.limiter.retained now).lookup c.key = none →
      s.limiter.available c.key now = burst := by
    intro now hnone
    simp only [RateLimiter.available, hnone, Option.getD_none, Nat.sub_self, h.burst_eq]
    rw [seconds, Nat.cast_zero, zero_div, zero_mul, add_zero, min_self]
  cases hleft : s.left.lookup c.key with
  | none =>
    -- the key's first call
    have hnone : (s.limiter.retained c.now).lookup c.key = none := by
      cases hretained : (s.limiter.retained c.now).lookup c.key with
      | none => rfl
      | some b =>
        rw [h.held _ b (lookup_retained hretained)] at hleft
        cases hleft
    rw [hfull _ hnone, h.fresh _ hleft]
    exact .first hrate hburst _
  | some b =>
    obtain ⟨hlast, hgone⟩ := horder b hleft
    have hrefill := (h.covered _ b hleft).refill hrate (seconds_mono hlast)
    have htokens : s.limiter.available c.key c.now =
        min (b.tokens + (seconds c.now - seconds b.last) * rate) burst := by
      cases hretained : (s.limiter.retained c.now).lookup c.key with
      | none =>
        have hgone := hgone hretained
        rw [h.burst_eq, h.rate_eq, seconds_sub hlast] at hgone
        rw [hfull _ hretained, min_eq_right hgone]
      | some b' =>
        have hsame := h.held _ b' (lookup_retained hretained)
        rw [hleft] at hsame
        obtain rfl := Option.some.inj hsame
        simp only [RateLimiter.available, hretained, Option.getD_some, seconds_sub hlast, h.rate_eq,
          h.burst_eq]
    rw [htokens]
    exact hrefill

/-- A call leaves a bucket with the time of the call. -/
theorem Inv.put (h : Inv rate burst s) {b : Bucket} {accepted : List Call}
    (hcovers : Covers rate burst b.measured (uses accepted c.key))
    (hbounded : Bounded rate burst (uses accepted c.key))
    (hother : ∀ k ≠ c.key, uses accepted k = uses s.accepted k) :
    Inv rate burst ⟨{ s.limiter with buckets := (s.limiter.retained c.now).insert c.key b },
      FinMap.update s.left c.key
        (((s.limiter.retained c.now).insert c.key b).lookup c.key), accepted⟩ := by
  -- the key is left with its new bucket, the other keys with theirs
  have hleft : ∀ k, (FinMap.update s.left c.key
      (((s.limiter.retained c.now).insert c.key b).lookup c.key)).lookup k =
        if k = c.key then some b else s.left.lookup k := by
    intro k
    rw [FinMap.lookup_update, FinMap.lookup_insert_ite, if_pos rfl]
  refine ⟨h.rate_eq, h.burst_eq, fun k b' hk => ?_, fun k b' hk => ?_, fun k hk => ?_, fun k => ?_⟩
  · rw [FinMap.lookup_insert_ite] at hk
    rw [hleft]
    split at hk
    · rename_i hkey
      rw [if_pos hkey, hk]
    · rename_i hkey
      rw [if_neg hkey]
      exact h.held k b' (lookup_retained hk)
  · rw [hleft] at hk
    split at hk
    · rename_i hkey
      obtain rfl := Option.some.inj hk
      rw [hkey]
      exact hcovers
    · rename_i hkey
      rw [hother k hkey]
      exact h.covered k b' hk
  · rw [hleft] at hk
    split at hk
    · cases hk
    · rename_i hkey
      rw [hother k hkey]
      exact h.fresh k hk
  · by_cases hkey : k = c.key
    · rw [hkey]
      exact hbounded
    · rw [hother k hkey]
      exact h.bounded k

/-- One call keeps the invariant. -/
theorem Inv.serve (h : Inv rate burst s) (hrate : 0 ≤ rate) (hburst : 0 ≤ burst)
    (horder : InOrder s c) {s' : Served} (hs : serve s c = some s') : Inv rate burst s' := by
  have hfound := h.available hrate hburst horder
  unfold RateLimit.serve RateLimiter.checkAt at hs
  by_cases htoken : 1 ≤ s.limiter.available c.key c.now
  · simp only [if_pos htoken, if_true] at hs
    obtain rfl := Option.some.inj hs
    have huses : uses (c :: s.accepted) c.key = seconds c.now :: uses s.accepted c.key := by
      rw [uses_cons, if_pos rfl]
    have htaken := hfound.take htoken
    refine h.put ?_ ?_ fun k hkey => ?_
    · rw [huses]
      exact htaken
    · rw [huses]
      exact htaken.bounded hrate (h.bounded c.key)
    · rw [uses_cons, if_neg (Ne.symm hkey)]
  · simp only [if_neg htoken, Bool.false_eq_true, if_false] at hs
    obtain rfl := Option.some.inj hs
    exact h.put hfound (h.bounded c.key) fun _ _ => rfl

theorem inv_start (requestsPerSecond : ℚ) (burst : UInt32) :
    Inv (max requestsPerSecond (1 / 1000)) (max burst.toNat 1 : ℕ) (start requestsPerSecond burst) := by
  refine ⟨rfl, rfl, fun k b hk => ?_, fun k b hk => ?_, fun _ _ => rfl, fun k => ?_⟩
  · cases hk
  · cases hk
  · exact TokenBucket.bounded_nil (le_max_of_le_right (by norm_num)) (Nat.cast_nonneg _)

end RateLimit

open RateLimit in
/-- **The rate limit.**  If every call is no earlier than its key's last one, and finds a bucket that
was evicted only where it would be full, then in every window of time the accepted calls of a key are
at most the burst and the rate times the window's length. -/
theorem rate_bounded {requestsPerSecond : ℚ} {burst : UInt32} {s : Served}
    (h : Runs.Reach serve InOrder (start requestsPerSecond burst) s) (key : String) {lo hi : ℚ}
    (hwindow : lo ≤ hi) :
    ((s.accepted.countP fun c => c.key = key ∧ lo ≤ seconds c.now ∧ seconds c.now ≤ hi : ℕ) : ℚ) ≤
      (RateLimiter.new requestsPerSecond burst).burst +
        (RateLimiter.new requestsPerSecond burst).rate * (hi - lo) := by
  have hinv := h.invariant (inv_start requestsPerSecond burst)
    fun s c s' _ hs horder hstep => hs.serve (le_max_of_le_right (by norm_num)) (Nat.cast_nonneg _)
      horder hstep
  have hcount : TokenBucket.counted (uses s.accepted key) lo hi =
      s.accepted.countP fun c => c.key = key ∧ lo ≤ seconds c.now ∧ seconds c.now ≤ hi := by
    rw [TokenBucket.counted, uses, List.countP_map, List.countP_filter]
    refine List.countP_congr fun c _ => ?_
    simp only [Function.comp_apply, Bool.and_eq_true, decide_eq_true_eq]
    exact and_comm
  rw [← hcount]
  exact hinv.bounded key lo hi hwindow

open RateLimit in
/-- Two clients, one of which calls three times with a burst of two. -/
def steadyCalls : List Call := [⟨"a", 0⟩, ⟨"a", 0⟩, ⟨"b", 0⟩, ⟨"a", 1000000000⟩]

open RateLimit in
theorem rate_bounded_steady : ∃ s, Runs.Reach serve InOrder (start 1 2) s ∧ s.accepted.length = 4 ∧
    ((s.accepted.countP fun c => c.key = "a" ∧ 0 ≤ seconds c.now ∧ seconds c.now ≤ 1 : ℕ) : ℚ) ≤
      (RateLimiter.new 1 2).burst + (RateLimiter.new 1 2).rate * (1 - 0) := by
  have hrun : ((Runs.checked serve (fun s c => decide (InOrder s c)) (start 1 2) steadyCalls).map
      fun s => s.accepted.length) = some 4 := by decide +kernel
  obtain ⟨s, hs, hlength⟩ := Option.map_eq_some_iff.mp hrun
  have hreach := Runs.reach_of_checked (fun _ _ => of_decide_eq_true) hs
  exact ⟨s, hreach, hlength, rate_bounded hreach "a" zero_le_one⟩

open RateLimit in
/-- **A late call refills the bucket.**  With a burst of one and one token a second, the call at ten
seconds is accepted twice, because a call with an earlier time came between. -/
theorem late_call_refills : ∃ s,
    Runs.runFrom serve (start 1 1) [⟨"a", 10000000000⟩, ⟨"a", 0⟩, ⟨"a", 10000000000⟩] = some s ∧
    (RateLimiter.new 1 1).burst + (RateLimiter.new 1 1).rate * (10 - 10) <
      ((s.accepted.countP fun c => c.key = "a" ∧ 10 ≤ seconds c.now ∧ seconds c.now ≤ 10 : ℕ) : ℚ) :=
  ⟨_, rfl, by decide +kernel⟩

end KilnPrint
