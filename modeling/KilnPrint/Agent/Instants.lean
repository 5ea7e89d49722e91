/-
The listing of the job table, and the listings that the texts of its times allow.

* `Date`, `Date.next` — a day, and the day after it;
* `instant` — the instant of a time in nanoseconds;
* `instant_lt_iff`, `ts_instant_lt_iff` — instants are in the order of their times, and their texts in
  that of whole microseconds;
* `list_allowed` — **the table's listing is one of the listings of the database**.

The table sorts rows with the same microsecond in the order in which they were inserted; the
database is free to return them in any order.
-/
import KilnPrint.Agent.Database
import KilnPrint.Agent.Listing
import Mathlib.Order.Monotone.Basic

namespace KilnPrint

/-! ### Days -/

structure Date where
  year : ℤ
  month : ℕ
  day : ℕ
  date : 1 ≤ month ∧ month ≤ 12 ∧ 1 ≤ day ∧ day ≤ daysIn year month

theorem daysIn_bounds (year : ℤ) (month : ℕ) : 28 ≤ daysIn year month ∧ daysIn year month ≤ 31 := by
  unfold daysIn
  split_ifs <;> omega

namespace Date

def fields (d : Date) : List ℤ := [d.year, d.month, d.day]

def next (d : Date) : Date :=
  if h : d.day < daysIn d.year d.month then
    ⟨d.year, d.month, d.day + 1, d.date.1, d.date.2.1, by omega, h⟩
  else if h : d.month < 12 then
    ⟨d.year, d.month + 1, 1, by omega, h, le_rfl, by have := daysIn_bounds d.year (d.month + 1); omega⟩
  else ⟨d.year + 1, 1, 1, by omega, by omega, le_rfl, by have := daysIn_bounds (d.year + 1) 1; omega⟩

theorem fields_lt_next (d : Date) : d.fields < d.next.fields := by
  unfold next
  split_ifs <;> simp [fields, List.cons_lt_cons_iff]

/-- The first day of the epoch. -/
def epoch : Date := ⟨1970, 1, 1, by decide⟩

/-- The day so many days after the epoch. -/
def after : ℕ → Date
  | 0 => epoch
  | n + 1 => (after n).next

theorem after_strictMono : StrictMono fun n => (after n).fields :=
  strictMono_nat_of_lt_succ fun n => fields_lt_next (after n)

/-- At least as many days as there have been, if a month had 28 of them. -/
def least (d : Date) : ℤ := (d.year - 1970) * 336 + (d.month - 1) * 28 + (min d.day 28 - 1 : ℕ)

theorem least_next (d : Date) : d.next.least ≤ d.least + 1 := by
  have hbounds := daysIn_bounds d.year d.month
  have hdate := d.date
  unfold next least
  split_ifs <;> dsimp only <;> omega

theorem least_after (n : ℕ) : (after n).least ≤ n := by
  induction n with
  | zero => decide
  | succ n ih =>
    have hnext := least_next (after n)
    rw [after]
    omega

theorem year_after (n : ℕ) : 1970 ≤ (after n).year ∧ (after n).year ≤ 1970 + n / 336 := by
  constructor
  · induction n with
    | zero => exact le_rfl
    | succ n ih =>
      refine ih.trans ?_
      rw [after, next]
      split_ifs <;> dsimp only <;> omega
  · have hleast := least_after n
    have hdate := (after n).date
    unfold least at hleast
    omega

end Date

/-! ### Times -/

/-- A day, in nanoseconds. -/
def dayNanos : ℕ := 86400 * 1000000000

/-- The instant of a time, in nanoseconds since the epoch. -/
def instant (t : Time) : DateTime :=
  let d := Date.after (t / dayNanos)
  let r : ℕ := t % dayNanos
  { year := d.year, month := d.month, day := d.day, hour := r / 3600000000000
    minute := r / 60000000000 % 60, second := r / 1000000000 % 60, nano := r % 1000000000
    date := d.date
    time := by
      have hr : r < 86400 * 1000000000 := Nat.mod_lt _ (by decide)
      refine ⟨?_, ?_, ?_, ?_⟩ <;> omega }

/-- The time of the day. -/
def clock (r : ℕ) : List ℤ :=
  [(r / 3600000000000 : ℕ), (r / 60000000000 % 60 : ℕ), (r / 1000000000 % 60 : ℕ),
    (r % 1000000000 : ℕ)]

theorem fields_instant (t : ℕ) :
    (instant t).fields = (Date.after (t / dayNanos)).fields ++ clock (t % dayNanos) := rfl

theorem clock_lt {r s : ℕ} (h : r < s) : clock r < clock s := by
  simp only [clock, List.cons_lt_cons_iff, Nat.cast_lt, Nat.cast_inj]
  omega

theorem instant_strictMono : StrictMono instant := by
  intro (t : ℕ) (u : ℕ) (h : t < u)
  have hlength : (Date.after (t / dayNanos)).fields.length =
      (Date.after (u / dayNanos)).fields.length := rfl
  rw [DateTime.lt_iff, fields_instant, fields_instant, append_lt_iff hlength]
  rcases (Nat.div_le_div_right h.le : t / dayNanos ≤ u / dayNanos).lt_or_eq with hday | hday
  · exact .inl (Date.after_strictMono hday)
  · refine .inr ⟨by rw [hday], clock_lt ?_⟩
    have ht := Nat.div_add_mod t dayNanos
    have hu := Nat.div_add_mod u dayNanos
    rw [hday] at ht
    omega

theorem instant_lt_iff {t u : ℕ} : instant t < instant u ↔ t < u :=
  instant_strictMono.lt_iff_lt

/-- Truncating an instant truncates its time. -/
theorem truncated_instant (t : ℕ) : (instant t).truncated = instant (ts t * 1000) := by
  have hday : ts t * 1000 / dayNanos = t / dayNanos := by
    unfold ts dayNanos
    omega
  have hrest : ts t * 1000 % dayNanos = t % dayNanos / 1000 * 1000 := by
    unfold ts dayNanos
    omega
  refine DateTime.fields_injective ?_
  rw [fields_instant, hday, hrest]
  simp only [DateTime.fields, DateTime.truncated, instant, Date.fields, clock, List.cons_append,
    List.nil_append, List.cons.injEq, Nat.cast_inj, and_true, true_and]
  omega

/-- Before it, no year has five digits. -/
def horizon : ℕ := 336 * 8030 * dayNanos

theorem fourDigits_instant {t : ℕ} (h : t < horizon) : (instant t).FourDigits := by
  obtain ⟨hlow, hhigh⟩ := Date.year_after (t / dayNanos)
  have hdays : t / dayNanos < 336 * 8030 := Nat.div_lt_of_lt_mul (by rwa [Nat.mul_comm])
  refine ⟨(by decide : (0 : ℤ) ≤ 1970).trans hlow, hhigh.trans ?_⟩
  omega

/-- **Texts are in the order of whole microseconds.** -/
theorem ts_instant_lt_iff {t u : ℕ} (ht : t < horizon) (hu : u < horizon) :
    (instant t).ts < (instant u).ts ↔ ts t < ts u := by
  rw [DateTime.ts_lt_iff (fourDigits_instant ht) (fourDigits_instant hu), truncated_instant,
    truncated_instant, instant_lt_iff]
  omega

/-- The first day of March. -/
example : (instant (59 * dayNanos + 3723000001999)).ts = "1970-03-01T01:02:03.000001Z".toList := by
  decide +kernel

/-! ### Listings -/

namespace Listing

/-- What a listing reads of a record. -/
def StoredJob.ofJob (j : Job) : StoredJob :=
  ⟨j.jobId, j.clientId, j.printerId, j.status, instant j.createdAt⟩

/-- A filter of the table. -/
def JobFilter.ofFilter (f : KilnPrint.JobFilter) : JobFilter :=
  ⟨f.clientId, f.printerId, f.statuses, f.since.map instant, f.upto.map instant,
    UInt64.ofNat f.limit, UInt64.ofNat f.offset⟩

/-- The times of the rows of a table and of a filter are before the horizon, and the filter's
numbers fit 64 bits. -/
structure InRange (rows : List Job) (f : KilnPrint.JobFilter) : Prop where
  created : ∀ j ∈ rows, j.createdAt < horizon
  since : ∀ t, f.since = some t → t < horizon
  upto : ∀ t, f.upto = some t → t < horizon
  limit : f.limit < 2 ^ 64
  offset : f.offset < 2 ^ 64

variable {rows : List Job} {f : KilnPrint.JobFilter}

theorem InRange.selects_ofJob (h : InRange rows f) {j : Job} (hj : j ∈ rows) :
    (JobFilter.ofFilter f).selects (.ofJob j) = f.selects j := by
  have hsince : (f.since.map instant).all (·.ts ≤ (instant j.createdAt).ts) =
      f.since.all (ts · ≤ ts j.createdAt) := by
    cases hs : f.since with
    | none => rfl
    | some t =>
      have hle := not_congr (ts_instant_lt_iff (h.created j hj) (h.since t hs))
      rw [not_lt, not_lt] at hle
      simp only [Option.map_some, Option.all_some, hle]
  have hupto : (f.upto.map instant).all ((instant j.createdAt).ts < ·.ts) =
      f.upto.all (ts j.createdAt < ts ·) := by
    cases hu : f.upto with
    | none => rfl
    | some t =>
      simp only [Option.map_some, Option.all_some, ts_instant_lt_iff (h.created j hj) (h.upto t hu)]
  show (JobFilter.admits _ _ && _ && _) = _
  rw [KilnPrint.JobFilter.selects, ← hsince, ← hupto]
  rfl

theorem InRange.page (h : InRange rows f) :
    (JobFilter.ofFilter f).effectiveLimit = f.effectiveLimit ∧
      (JobFilter.ofFilter f).sqlOffset = f.sqlOffset := by
  have hlimit : (UInt64.ofNat f.limit).toNat = f.limit := UInt64.toNat_ofNat_of_lt' h.limit
  have hoffset : (UInt64.ofNat f.offset).toNat = f.offset := UInt64.toNat_ofNat_of_lt' h.offset
  have hzero : UInt64.ofNat f.limit = 0 ↔ f.limit = 0 := by
    rw [← UInt64.toNat_inj, hlimit]
    rfl
  constructor
  · show (if UInt64.ofNat f.limit = 0 then 100 else min (UInt64.ofNat f.limit).toNat maxLimit) = _
    simp only [hzero, hlimit]
    rfl
  · show (if (UInt64.ofNat f.offset).toNat < 2 ^ 63 then (UInt64.ofNat f.offset).toNat else 0) = _
    rw [hoffset]
    rfl

/-- **The table's listing is one of the listings of the database.** -/
theorem list_allowed {db : Database} (h : InRange db.rows f) :
    DatabaseLists (db.rows.map .ofJob) (.ofFilter f) ((db.list f).map .ofJob) := by
  obtain ⟨hlimit, hoffset⟩ := h.page
  let sorted := (db.rows.filter f.selects).mergeSort fun a b => ts b.createdAt ≤ ts a.createdAt
  have hperm : sorted.Perm (db.rows.filter f.selects) := List.mergeSort_perm _ _
  have hsorted : sorted.Pairwise fun a b => ts b.createdAt ≤ ts a.createdAt := by
    have hmerge : sorted.Pairwise fun a b => decide (ts b.createdAt ≤ ts a.createdAt) = true := by
      refine List.pairwise_mergeSort ?_ ?_ _
      · intro a b c hab hbc
        exact decide_eq_true ((of_decide_eq_true hbc).trans (of_decide_eq_true hab))
      · intro a b
        simpa using le_total (ts b.createdAt) (ts a.createdAt)
    exact hmerge.imp of_decide_eq_true
  refine ⟨sorted.map .ofJob, ?_, ?_, ?_⟩
  · have hfilter : (db.rows.map StoredJob.ofJob).filter (JobFilter.ofFilter f).selects =
        (db.rows.filter f.selects).map .ofJob := by
      rw [List.filter_map]
      exact congrArg _ (List.filter_congr fun j hj => h.selects_ofJob hj)
    rw [hfilter]
    exact hperm.map _
  · rw [List.pairwise_map]
    refine List.Pairwise.imp_of_mem ?_ hsorted
    intro a b ha hb hle
    have hrow : ∀ j ∈ sorted, j.createdAt < horizon := fun j hj =>
      h.created j (List.mem_of_mem_filter (hperm.subset hj))
    exact not_lt.mp fun hlt => hle.not_gt ((ts_instant_lt_iff (hrow a ha) (hrow b hb)).mp hlt)
  · rw [hlimit, hoffset, ← List.map_drop, ← List.map_take]
    rfl

end Listing

end KilnPrint
