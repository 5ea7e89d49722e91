/-
Concurrent calls on the byte budget.

`ByteBudget::try_reserve` updates its counter by a compare-exchange loop, and a
reservation subtracts its bytes when it is dropped.

* `Budget`, `Budget.step` — the counter with the calls on it and the reservations
  they returned, one access to the counter at a time;
* `Budget.live` — the bytes of the live reservations;
* `Budget.Balanced`, `balanced_of_reach` — **the counter is their sum, within the
  limit**, and no subtraction wraps;
* `reserve_atomic` — a call takes effect as `ByteBudget.tryReserve` does, at one of
  its accesses.
-/
import KilnPrint.Lib.CompareExchange
import KilnPrint.Lib.Runs
import KilnPrint.Lib.FinMap
import KilnPrint.Queue

namespace KilnPrint

open Runs

/-- The update that `try_reserve` makes. -/
def ByteBudget.reserve (limit bytes used : ℕ) : Option ℕ :=
  (({ used := used, limit := limit } : ByteBudget).tryReserve bytes).map (·.used)

/-- `fetch_sub` on 64 bits. -/
def fetchSub (used bytes : ℕ) : ℕ := (used + 2 ^ 64 - bytes) % 2 ^ 64

/-- A call of `try_reserve`, and what became of it. -/
inductive Claim (limit : ℕ)
  | reserving (loop : Loop (ByteBudget.reserve limit))
  /-- It returned a reservation, which is alive. -/
  | holding (bytes : ℕ)
  | ended

/-- The bytes that a call holds. -/
def Claim.bytes {limit : ℕ} : Claim limit → ℕ
  | .holding bytes => bytes
  | _ => 0

structure Budget (limit : ℕ) where
  used : ℕ := 0
  claims : FinMap ℕ (Claim limit) := ∅

namespace Budget

variable {limit : ℕ}

inductive Access
  /-- `try_reserve` is called. -/
  | call (c : ℕ) (bytes : ℕ)
  /-- A call accesses the counter. -/
  | proceed (c : ℕ) (spurious : Bool)
  /-- A reservation is dropped. -/
  | drop (c : ℕ)

/-- A call whose loop ended returns. -/
def returned : Loop (ByteBudget.reserve limit) → Claim limit
  | .done bytes => .holding bytes
  | .refused _ => .ended
  | p => .reserving p

def step (s : Budget limit) : Access → Option (Budget limit)
  | .call c bytes =>
    if (s.claims.lookup c).isNone then
      some { s with claims := s.claims.insert c (.reserving (.load bytes)) }
    else none
  | .proceed c spurious =>
    match s.claims.lookup c with
    | some (.reserving p) =>
      -- one access: the load, or one attempt to exchange
      (p.step spurious s.used).map fun (used, p) =>
        { used := used, claims := s.claims.insert c (returned p) }
    | _ => none
  | .drop c =>
    match s.claims.lookup c with
    | some (.holding bytes) =>
      some { used := fetchSub s.used bytes, claims := s.claims.insert c .ended }
    | _ => none

/-- The bytes of the live reservations. -/
def live (s : Budget limit) : ℕ := FinMap.tally (fun _ => Claim.bytes) s.claims

/-- The counter is the sum of the live reservations, within the limit. -/
structure Balanced (s : Budget limit) : Prop where
  sum : s.used = s.live
  limited : s.used ≤ limit
  word : s.used ≤ u64Max

theorem balanced_empty : ({} : Budget limit).Balanced :=
  ⟨rfl, Nat.zero_le _, Nat.zero_le _⟩

/-- What a successful call leaves in the counter. -/
theorem reserve_eq_some {bytes used next : ℕ} (h : ByteBudget.reserve limit bytes used = some next) :
    next = used + bytes ∧ next ≤ limit ∧ next ≤ u64Max := by
  obtain ⟨b, hb, rfl⟩ := Option.map_eq_some_iff.mp h
  obtain ⟨hused, -, hlimit, hword⟩ := ByteBudget.tryReserve_eq_some hb
  exact ⟨hused, hlimit, hword⟩

/-- A live reservation is part of the sum. -/
theorem bytes_le_live {s : Budget limit} {c : ℕ} {p : Claim limit}
    (h : s.claims.lookup c = some p) : p.bytes ≤ s.live := by
  have herase := FinMap.tally_erase (fun _ => Claim.bytes) s.claims c
  have hshare : FinMap.share (fun _ => Claim.bytes) s.claims c = p.bytes := by
    rw [FinMap.share, h]
    rfl
  rw [hshare] at herase
  unfold live
  omega

/-- Replacing a call changes the sum by what it holds. -/
theorem live_insert {s : Budget limit} {c : ℕ} {p q : Claim limit} {used : ℕ}
    (h : s.claims.lookup c = some p) :
    ({ used := used, claims := s.claims.insert c q } : Budget limit).live + p.bytes =
      s.live + q.bytes := by
  have hinsert := FinMap.tally_insert (fun _ => Claim.bytes) s.claims c q
  have hshare : FinMap.share (fun _ => Claim.bytes) s.claims c = p.bytes := by
    rw [FinMap.share, h]
    rfl
  rw [hshare] at hinsert
  exact hinsert

theorem live_call {s : Budget limit} {c : ℕ} {q : Claim limit}
    (h : (s.claims.lookup c).isNone = true) :
    ({ s with claims := s.claims.insert c q } : Budget limit).live = s.live + q.bytes := by
  have hinsert := FinMap.tally_insert (fun _ => Claim.bytes) s.claims c q
  have hshare : FinMap.share (fun _ => Claim.bytes) s.claims c = 0 := by
    rw [FinMap.share, Option.isNone_iff_eq_none.mp h]
    rfl
  rw [hshare, add_zero] at hinsert
  exact hinsert

/-- Dropping a live reservation does not wrap. -/
theorem fetchSub_eq {used bytes : ℕ} (h : bytes ≤ used) (hword : used ≤ u64Max) :
    fetchSub used bytes = used - bytes := by
  unfold fetchSub
  have hmax : u64Max = 2 ^ 64 - 1 := rfl
  have hsub : used + 2 ^ 64 - bytes = used - bytes + 2 ^ 64 := by omega
  rw [hsub, Nat.add_mod_right]
  exact Nat.mod_eq_of_lt (by omega)

/-- **Every access keeps the counter balanced.** -/
theorem Balanced.step {s s' : Budget limit} {a : Access} (h : s.Balanced)
    (hs : s.step a = some s') : s'.Balanced := by
  obtain ⟨hsum, hlimited, hword⟩ := h
  cases a with
  | call c bytes =>
    simp only [Budget.step] at hs
    split at hs
    case isTrue hnew =>
      obtain rfl := Option.some.inj hs
      have hlive := live_call (q := .reserving (.load bytes)) hnew
      exact ⟨hsum.trans hlive.symm, hlimited, hword⟩
    case isFalse => cases hs
  | proceed c spurious =>
    simp only [Budget.step] at hs
    split at hs
    case h_1 p hp =>
      obtain ⟨⟨used, p'⟩, hstep, rfl⟩ := Option.map_eq_some_iff.mp hs
      have hlive : ({ used := used, claims := s.claims.insert c (returned p') } :
          Budget limit).live + 0 = s.live + (returned p').bytes := live_insert hp
      obtain ⟨-, houtcome⟩ := Loop.step_outcome hstep
      cases houtcome with
      | silent hk hrun =>
        -- a call under way holds nothing
        have hzero : (returned p').bytes = 0 := by
          cases p' <;> first | rfl | cases hrun
        exact ⟨by rw [hzero] at hlive; exact hsum.trans hlive.symm, hlimited, hword⟩
      | updated hf =>
        -- the exchange succeeds: the counter grows by what is reserved
        obtain ⟨hnext, hlim, hw⟩ := reserve_eq_some hf
        refine ⟨?_, hlim, hw⟩
        show used = _
        rw [hnext, hsum]
        exact hlive.symm
      | refused hf => exact ⟨hsum.trans hlive.symm, hlimited, hword⟩
    case h_2 => cases hs
  | drop c =>
    simp only [Budget.step] at hs
    split at hs
    case h_1 bytes hp =>
      obtain rfl := Option.some.inj hs
      -- what is dropped is part of the sum, so that the subtraction does not wrap
      have hle : bytes ≤ s.used := by
        rw [hsum]
        exact bytes_le_live hp
      have hlive : ({ used := fetchSub s.used bytes, claims := s.claims.insert c .ended } :
          Budget limit).live + bytes = s.live := live_insert hp
      have heq := fetchSub_eq hle hword
      refine ⟨?_, ?_, ?_⟩
      · show fetchSub s.used bytes = _
        omega
      · show fetchSub s.used bytes ≤ limit
        omega
      · show fetchSub s.used bytes ≤ u64Max
        omega
    case h_2 => cases hs

/-- **The counter is the sum of the live reservations, within the limit**, after any
interleaving of accesses. -/
theorem balanced_of_reach {s : Budget limit}
    (h : Reach Budget.step (fun _ _ => True) {} s) : s.Balanced :=
  h.invariant balanced_empty fun _ _ _ _ hb _ hs => hb.step hs

/-- A live reservation can be dropped without wrapping. -/
theorem Balanced.drop {s : Budget limit} (h : s.Balanced) {c bytes : ℕ}
    (hc : s.claims.lookup c = some (.holding bytes)) :
    bytes ≤ s.used ∧ fetchSub s.used bytes = s.used - bytes := by
  have hle : bytes ≤ s.used := by
    rw [h.sum]
    exact bytes_le_live hc
  exact ⟨hle, fetchSub_eq hle h.word⟩

/-- **A call takes effect at one of its accesses**, as the whole of `tryReserve` at
once: before and after it accesses change nothing. -/
theorem reserve_atomic {s s' : Budget limit} {c : ℕ} {spurious : Bool}
    {p : Loop (ByteBudget.reserve limit)} (hp : s.claims.lookup c = some (.reserving p))
    (hs : s.step (.proceed c spurious) = some s') :
    let budget : ByteBudget := { used := s.used, limit := limit }
    (s'.used = s.used ∧ ∃ q : Loop (ByteBudget.reserve limit), q.running = true ∧
      s'.claims.lookup c = some (.reserving q)) ∨
    (budget.tryReserve p.update = some { budget with used := s'.used } ∧
      s'.claims.lookup c = some (.holding p.update)) ∨
    (budget.tryReserve p.update = none ∧ s'.used = s.used ∧
      s'.claims.lookup c = some .ended) := by
  simp only [Budget.step, hp] at hs
  obtain ⟨⟨used, p'⟩, hstep, rfl⟩ := Option.map_eq_some_iff.mp hs
  obtain ⟨-, houtcome⟩ := Loop.step_outcome hstep
  cases houtcome with
  | silent hk hrun =>
    refine .inl ⟨rfl, p', hrun, ?_⟩
    have hret : returned p' = .reserving p' := by
      cases p' <;> first | rfl | cases hrun
    rw [← hret]
    exact AList.lookup_insert _
  | updated hf =>
    refine .inr (.inl ⟨?_, AList.lookup_insert _⟩)
    obtain ⟨b, hb, rfl⟩ := Option.map_eq_some_iff.mp hf
    obtain ⟨-, hlimit, -⟩ := ByteBudget.tryReserve_eq_some hb
    obtain ⟨used, blimit⟩ := b
    obtain rfl : blimit = limit := hlimit
    exact hb
  | refused hf =>
    exact .inr (.inr ⟨Option.map_eq_none_iff.mp hf, rfl, AList.lookup_insert _⟩)

end Budget

end KilnPrint
