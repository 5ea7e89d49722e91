/-
The SDK's view of jobs: `#recordJob` and its bounded cache.

Snapshots of a job reach the client as events, as answers and through the
resynchronisation after a reconnect, in any order and any number of times.
`#recordJob` keeps the newest one of each job, passes it to the listeners, and
forgets the job it heard of least recently when the cache is full.

* `Snapshot`, `recordJob` — what the client compares of a job, and the function;
* `JobChain` — the snapshots of one job, in the order the agent produced them;
* `View`, `View.step` — the cache, what the listeners of the job were passed, and
  what a receipt does to both;
* `view_converges` — **the view converges**, in every run that is `Orderly`.

Design notes: the JavaScript `Map` keeps insertion order, and `#recordJob` deletes
a key before it sets it.  An association list with its newest entry first is the
same map, with its oldest key last.
-/
import KilnPrint.Lib.FinMap
import KilnPrint.Lib.Runs
import KilnPrint.Model.Job
import KilnPrint.Sdk.TimeKey

namespace KilnPrint

variable {β : Type}

/-! ### `#recordJob` -/

/-- A job as the client receives it: the fields that `#recordJob` compares, and
the rest of the record. -/
structure Snapshot (β : Type) where
  jobId : JobId
  status : JobStatus
  delivery : DeliveryStage
  condition : Option ErrorCode
  updatedAt : Iso
  body : β
  deriving DecidableEq

def jobCacheSize : ℕ := 1000

/-- The comparison that takes two snapshots for the same one. -/
def Snapshot.same (known job : Snapshot β) : Bool :=
  known.status == job.status && known.delivery == job.delivery && known.condition == job.condition

/-- `a > b || (a === b && same)`: stale or unchanged. -/
def Snapshot.stale (known job : Snapshot β) : Bool :=
  decide (timeKey known.updatedAt > timeKey job.updatedAt) ||
    (timeKey known.updatedAt == timeKey job.updatedAt && known.same job)

/-- The key that is deleted when `job` is set: the oldest one, if the cache has
grown past its size. -/
def evicted (jobs : FinMap JobId (Snapshot β)) (job : Snapshot β) : Option JobId :=
  if jobCacheSize < (jobs.insert job.jobId job).entries.length then
    (jobs.insert job.jobId job).keys.getLast?
  else none

/-- Sets a job and keeps the cache within its size. -/
def remember (jobs : FinMap JobId (Snapshot β)) (job : Snapshot β) :
    FinMap JobId (Snapshot β) :=
  match evicted jobs job with
  | some oldest => (jobs.insert job.jobId job).erase oldest
  | none => jobs.insert job.jobId job

/-- `#recordJob`: the cache, and whether the job was passed to the listeners. -/
def recordJob (jobs : FinMap JobId (Snapshot β)) (job : Snapshot β) :
    FinMap JobId (Snapshot β) × Bool :=
  match jobs.lookup job.jobId with
  | some known =>
    -- a terminal state is final, and older snapshots are ignored
    if known.stale job then (jobs, false)
    else if known.status.isTerminal then (jobs, false)
    else (remember jobs job, true)
  | none => (remember jobs job, true)

/-- What `#recordJob` can do. -/
theorem recordJob_cases (jobs : FinMap JobId (Snapshot β)) (job : Snapshot β) :
    (∃ known, jobs.lookup job.jobId = some known ∧
      (known.stale job = true ∨ known.status.isTerminal = true) ∧
      recordJob jobs job = (jobs, false)) ∨
    ((∀ known ∈ jobs.lookup job.jobId,
      known.stale job = false ∧ known.status.isTerminal = false) ∧
      recordJob jobs job = (remember jobs job, true)) := by
  rw [recordJob]
  cases hl : jobs.lookup job.jobId with
  | none => exact .inr ⟨fun known hk => absurd hk (Option.not_mem_none known), rfl⟩
  | some known =>
    by_cases hs : known.stale job = true
    · exact .inl ⟨known, rfl, .inl hs, by simp only [if_pos hs]⟩
    · by_cases ht : known.status.isTerminal = true
      · exact .inl ⟨known, rfl, .inr ht, by simp only [if_neg hs, if_pos ht]⟩
      · refine .inr ⟨?_, by simp only [if_neg hs, if_neg ht]⟩
        intro x hx
        obtain rfl := Option.mem_some_iff.mp hx
        exact ⟨Bool.eq_false_iff.mpr hs, Bool.eq_false_iff.mpr ht⟩

theorem Snapshot.stale_iff {x y : Snapshot β} :
    y.stale x = true ↔ timeKey x.updatedAt < timeKey y.updatedAt ∨
      (timeKey y.updatedAt = timeKey x.updatedAt ∧ y.same x = true) := by
  simp [Snapshot.stale]

/-- A job is never evicted to make room for itself. -/
theorem evicted_ne (jobs : FinMap JobId (Snapshot β)) (job : Snapshot β) :
    evicted jobs job ≠ some job.jobId := by
  intro h
  rw [evicted] at h
  split at h
  case isFalse => cases h
  case isTrue hlong =>
    have hkeys : (jobs.insert job.jobId job).keys = job.jobId :: (jobs.keys.erase job.jobId) :=
      AList.keys_insert jobs
    have hnodup := (jobs.insert job.jobId job).keys_nodup
    have hlen : (jobs.insert job.jobId job).keys.length =
        (jobs.insert job.jobId job).entries.length := by
      simp [AList.keys, List.keys]
    rw [hkeys] at h hnodup hlen
    -- the cache holds other keys, so its last key is one of them
    cases hrest : jobs.keys.erase job.jobId with
    | nil =>
      rw [hrest, List.length_singleton] at hlen
      rw [jobCacheSize] at hlong
      omega
    | cons k ks =>
      rw [hrest, List.getLast?_cons_cons] at h
      rw [hrest] at hnodup
      exact (List.nodup_cons.mp hnodup).1 (List.mem_of_getLast? h)

theorem lookup_remember (jobs : FinMap JobId (Snapshot β)) (job : Snapshot β) (id : JobId) :
    (remember jobs job).lookup id =
      if evicted jobs job = some id then none
      else if id = job.jobId then some job else jobs.lookup id := by
  rw [remember]
  split
  case h_1 oldest h =>
    rw [h, FinMap.lookup_erase_ite, FinMap.lookup_insert_ite]
    by_cases hid : id = oldest
    · rw [if_pos hid, if_pos (congrArg some hid.symm)]
    · have hne : (some oldest : Option JobId) ≠ some id := by
        intro he
        exact hid (Option.some.inj he).symm
      rw [if_neg hid, if_neg hne]
  case h_2 h =>
    have hne : (none : Option JobId) ≠ some id := by
      intro he
      cases he
    rw [h, FinMap.lookup_insert_ite, if_neg hne]

theorem lookup_remember_self (jobs : FinMap JobId (Snapshot β)) (job : Snapshot β) :
    (remember jobs job).lookup job.jobId = some job := by
  rw [lookup_remember, if_neg (evicted_ne jobs job), if_pos rfl]

/-- A job keeps its entry while others are recorded, unless it is evicted. -/
theorem lookup_recordJob_of_ne (jobs : FinMap JobId (Snapshot β)) {job : Snapshot β} {id : JobId}
    (hne : id ≠ job.jobId) :
    (recordJob jobs job).1.lookup id = jobs.lookup id ∨
      (evicted jobs job = some id ∧ (recordJob jobs job).1.lookup id = none) := by
  rcases recordJob_cases jobs job with ⟨known, -, -, heq⟩ | ⟨-, heq⟩
  · rw [heq]
    exact .inl rfl
  · rw [heq]
    show (remember jobs job).lookup id = _ ∨ _ ∧ (remember jobs job).lookup id = _
    by_cases hev : evicted jobs job = some id
    · exact .inr ⟨hev, by rw [lookup_remember, if_pos hev]⟩
    · exact .inl (by rw [lookup_remember, if_neg hev, if_neg hne])

/-! ### Chains and receipts -/

/-- `b` may come right after `a` among the snapshots of a job. -/
def Snapshot.Follows (a b : Snapshot β) : Prop :=
  a.status.canTransitionTo b.status = true ∧ a.updatedAt.nanos ≤ b.updatedAt.nanos

instance : DecidableRel (@Snapshot.Follows β) := fun _ _ =>
  inferInstanceAs (Decidable (_ ∧ _))

/-- The snapshots of one job, in the order the agent produced them. -/
structure JobChain (β : Type) where
  id : JobId
  snapshots : List (Snapshot β)
  ids : ∀ x ∈ snapshots, x.jobId = id
  follows : snapshots.IsChain Snapshot.Follows

namespace JobChain

variable (c : JobChain β)

abbrev Position := Fin c.snapshots.length

def snap (i : c.Position) : Snapshot β := c.snapshots.get i

theorem snap_jobId (i : c.Position) : (c.snap i).jobId = c.id :=
  c.ids _ (List.get_mem _ _)

variable {c}

/-- Time does not go back along a chain. -/
theorem timeKey_le {i k : c.Position} (h : i ≤ k) :
    timeKey (c.snap i).updatedAt ≤ timeKey (c.snap k).updatedAt := by
  have hnanos : c.snapshots.IsChain (fun a b => timeKey a.updatedAt ≤ timeKey b.updatedAt) :=
    c.follows.imp fun a b hab => timeKey_mono hab.2
  rcases Nat.lt_or_eq_of_le h with hlt | heq
  · have htrans : IsTrans (Snapshot β) (fun a b => timeKey a.updatedAt ≤ timeKey b.updatedAt) :=
      ⟨fun _ _ _ => Nat.le_trans⟩
    exact List.pairwise_iff_get.mp hnanos.pairwise i k hlt
  · rw [Fin.ext heq]

/-- A terminal snapshot is the last one. -/
theorem terminal_last {i : c.Position} (h : (c.snap i).status.isTerminal = true)
    (k : c.Position) : k ≤ i := by
  by_contra hk
  have hlt : i.val < k.val := Nat.lt_of_not_le hk
  have hnext : i.val + 1 < c.snapshots.length := Nat.lt_of_le_of_lt hlt k.isLt
  have hfollows : (c.snap i).Follows (c.snapshots[i.val + 1]) :=
    List.isChain_iff_getElem.mp c.follows i.val hnext
  rw [JobStatus.not_isTerminal_of_canTransitionTo hfollows.1] at h
  cases h

end JobChain

/-- What reaches `#recordJob`: a snapshot of the job, or one of another job. -/
inductive Receipt (c : JobChain β)
  | ours (k : c.Position)
  | other (job : Snapshot β) (h : job.jobId ≠ c.id)

/-- The cache; the snapshots of the job that its listeners were passed, in order;
and those that were received. -/
structure View (c : JobChain β) where
  jobs : FinMap JobId (Snapshot β)
  passed : List c.Position
  received : List c.Position

namespace View

variable {c : JobChain β}

def init : View c := ⟨∅, [], []⟩

def step (v : View c) : Receipt c → View c
  | .ours k =>
    let r := recordJob v.jobs (c.snap k)
    { jobs := r.1
      passed := if r.2 then v.passed ++ [k] else v.passed
      received := k :: v.received }
  | .other job _ => { v with jobs := (recordJob v.jobs job).1 }

/-- What a receipt must avoid.  While the job is cached, a snapshot of the same
microsecond as the cached one must not be an earlier one that looks different,
nor the last one if it looks the same and is not; a snapshot that arrives after
the job was evicted must not be older than what was passed before, which must
not be terminal; and the job must not be evicted once all of it was received. -/
def Orderly (v : View c) : Receipt c → Prop
  | .ours k => ∀ i ∈ v.passed.getLast?,
    (∀ y ∈ v.jobs.lookup c.id, timeKey y.updatedAt = timeKey (c.snap k).updatedAt →
      (k < i → y.status.isTerminal = false → y.same (c.snap k) = true) ∧
      (i < k → k.val + 1 = c.snapshots.length → y.same (c.snap k) = true →
        ∀ m, i ≤ m → c.snap m = c.snap k)) ∧
    (v.jobs.lookup c.id = none → i ≤ k ∧ (c.snap i).status.isTerminal = false)
  | .other job _ => evicted v.jobs job = some c.id → ¬ ∀ k, k ∈ v.received

instance [DecidableEq β] (v : View c) (r : Receipt c) : Decidable (v.Orderly r) :=
  match r with
  | .ours _ => inferInstanceAs (Decidable (∀ i ∈ v.passed.getLast?, _ ∧ _))
  | .other _ _ => inferInstanceAs (Decidable (_ → ¬ _))

/-- What every receipt preserves. -/
structure Coherent (v : View c) : Prop where
  /-- The listeners never go back, and hear nothing after a terminal snapshot. -/
  forward : v.passed.Pairwise fun i k => i ≤ k ∧ (c.snap i).status.isTerminal = false
  /-- The cached snapshot is the one that was passed last. -/
  cached : ∀ y ∈ v.jobs.lookup c.id, ∃ i ∈ v.passed.getLast?, y = c.snap i
  /-- Once the last snapshot was received, what was passed last looks like it. -/
  newest : ∀ k ∈ v.received, k.val + 1 = c.snapshots.length →
    ∃ i ∈ v.passed.getLast?, ∀ m, i ≤ m → c.snap m = c.snap k
  /-- Once all were received, the job is cached. -/
  kept : c.snapshots ≠ [] → (∀ k, k ∈ v.received) → (v.jobs.lookup c.id).isSome = true

theorem Coherent.init : (View.init : View c).Coherent where
  forward := List.Pairwise.nil
  cached := by
    intro y hy
    cases hy
  newest := by
    intro k hk
    cases hk
  kept := by
    intro hc hall
    have hpos : 0 < c.snapshots.length := List.length_pos_iff.mpr hc
    exact absurd (hall ⟨0, hpos⟩) (List.not_mem_nil)

/-- A snapshot is passed on. -/
theorem Coherent.pass {v : View c} (hv : v.Coherent) {k : c.Position}
    {jobs : FinMap JobId (Snapshot β)} (hjobs : jobs.lookup c.id = some (c.snap k))
    (hlast : ∀ i ∈ v.passed.getLast?, i ≤ k ∧ (c.snap i).status.isTerminal = false) :
    (⟨jobs, v.passed ++ [k], k :: v.received⟩ : View c).Coherent := by
  have hgetLast : (v.passed ++ [k]).getLast? = some k := List.getLast?_concat
  refine ⟨?_, ?_, ?_, ?_⟩
  · refine List.pairwise_append.mpr ⟨hv.forward, List.pairwise_singleton _ _, ?_⟩
    intro i hi k' hk'
    rw [List.mem_singleton.mp hk']
    -- every snapshot passed before is at most the one passed last
    cases hl : v.passed.getLast? with
    | none =>
      rw [List.getLast?_eq_none_iff.mp hl] at hi
      exact absurd hi List.not_mem_nil
    | some l =>
      obtain ⟨earlier, hpassed⟩ := List.getLast?_eq_some_iff.mp hl
      have hforward := hv.forward
      rw [hpassed] at hforward hi
      obtain ⟨-, -, hbefore⟩ := List.pairwise_append.mp hforward
      obtain ⟨hlk, hterm⟩ := hlast l hl
      rcases List.mem_append.mp hi with hi | hi
      · have hil := hbefore i hi l (List.mem_singleton_self l)
        exact ⟨Nat.le_trans hil.1 hlk, hil.2⟩
      · rw [List.mem_singleton.mp hi]
        exact ⟨hlk, hterm⟩
  · intro y hy
    rw [hjobs] at hy
    exact ⟨k, hgetLast, (Option.mem_some_iff.mp hy).symm⟩
  · intro l hl hlen
    refine ⟨k, hgetLast, ?_⟩
    intro m hm
    rcases List.mem_cons.mp hl with rfl | hl
    · have : m = l := Fin.ext (by have := m.isLt; have : l.val ≤ m.val := hm; omega)
      rw [this]
    · obtain ⟨i, hi, hsame⟩ := hv.newest l hl hlen
      exact hsame m (Nat.le_trans (hlast i hi).1 hm)
  · intro _ _
    show (jobs.lookup c.id).isSome = true
    rw [hjobs]
    rfl

/-- A snapshot is ignored. -/
theorem Coherent.ignore {v : View c} (hv : v.Coherent) {k i : c.Position} {y : Snapshot β}
    (hy : v.jobs.lookup c.id = some y) (hi : v.passed.getLast? = some i)
    (hlast : k.val + 1 = c.snapshots.length → ∀ m, i ≤ m → c.snap m = c.snap k) :
    ({ v with received := k :: v.received } : View c).Coherent := by
  refine ⟨hv.forward, hv.cached, ?_, ?_⟩
  · intro l hl hlen
    rcases List.mem_cons.mp hl with rfl | hl
    · exact ⟨i, hi, hlast hlen⟩
    · exact hv.newest l hl hlen
  · intro _ _
    show (v.jobs.lookup c.id).isSome = true
    rw [hy]
    rfl

theorem Coherent.step {v : View c} {r : Receipt c} (hv : v.Coherent) (hr : v.Orderly r) :
    (v.step r).Coherent := by
  cases r with
  | other job hne =>
    -- a job event of another job can at most push this one out of the cache
    have hfresh : c.id ≠ job.jobId := fun h => hne h.symm
    refine ⟨hv.forward, ?_, hv.newest, ?_⟩
    · intro y hy
      rcases lookup_recordJob_of_ne v.jobs hfresh with heq | ⟨-, heq⟩
      · exact hv.cached y (heq ▸ hy)
      · rw [View.step, heq] at hy
        cases hy
    · intro hc hall
      show ((recordJob v.jobs job).1.lookup c.id).isSome = true
      rcases lookup_recordJob_of_ne v.jobs hfresh with heq | ⟨hev, -⟩
      · rw [heq]
        exact hv.kept hc hall
      · exact absurd hall (hr hev)
  | ours k =>
    have hid := c.snap_jobId k
    -- a snapshot is ignored as an old one, or it is passed on and becomes the cached one
    obtain ⟨y, hy, hold, heq⟩ | ⟨hnew, heq⟩ := recordJob_cases v.jobs (c.snap k)
    · rw [hid] at hy
      obtain ⟨i, hi, rfl⟩ := hv.cached y hy
      have horder := (hr i hi).1 _ hy
      have hstep : v.step (.ours k) = { v with received := k :: v.received } := by
        rw [View.step, heq]
        rfl
      rw [hstep]
      refine hv.ignore hy hi ?_
      intro hlen m hm
      have hik : i ≤ k := by
        have hi := i.isLt
        exact Nat.le_of_lt_succ (by omega)
      rcases hold with hstale | hterm
      · -- the last snapshot is not older than the cached one: it looks the same
        rcases Snapshot.stale_iff.mp hstale with hlt | ⟨htie, hsame⟩
        · exact absurd (JobChain.timeKey_le hik) (Nat.not_le.mpr hlt)
        · rcases Nat.lt_or_eq_of_le hik with hlt | heq
          · exact (horder htie).2 hlt hlen hsame m hm
          · have : m = k := Fin.ext (by have := m.isLt; have : i.val ≤ m.val := hm; omega)
            rw [this]
      -- or the cached snapshot is terminal, and then it is the last one
      · have hki := JobChain.terminal_last hterm k
        have : m = k := Fin.ext (by
          have := m.isLt
          have : i.val ≤ m.val := hm
          have : k.val ≤ i.val := hki
          omega)
        rw [this]
    · rw [hid] at hnew
      have hstep : v.step (.ours k) =
          ⟨remember v.jobs (c.snap k), v.passed ++ [k], k :: v.received⟩ := by
        rw [View.step, heq]
        rfl
      rw [hstep]
      refine hv.pass (by rw [← hid]; exact lookup_remember_self _ _) ?_
      intro i hi
      cases hl : v.jobs.lookup c.id with
      | none => exact (hr i hi).2 hl
      | some y =>
        obtain ⟨i', hi', rfl⟩ := hv.cached y hl
        cases Option.some.inj (hi.symm.trans hi')
        obtain ⟨hstale, hterm⟩ := hnew _ hl
        refine ⟨?_, hterm⟩
        by_contra hik
        have hki : k < i := Nat.lt_of_not_le hik
        -- an earlier snapshot that is not stale is a tie, and must look the same
        have hfresh : ¬ _ := fun h => Bool.eq_false_iff.mp hstale (Snapshot.stale_iff.mpr h)
        have htie : timeKey (c.snap i).updatedAt = timeKey (c.snap k).updatedAt := by
          have := JobChain.timeKey_le (c := c) (Nat.le_of_lt hki)
          have : ¬ timeKey (c.snap k).updatedAt < timeKey (c.snap i).updatedAt :=
            fun h => hfresh (.inl h)
          omega
        exact hfresh (.inr ⟨htie, ((hr i hi).1 _ hl htie).1 hki hterm⟩)

end View

/-! ### Convergence -/

/-- Receipts, in the order they arrive. -/
def View.run {c : JobChain β} (v : View c) (r : Receipt c) : Option (View c) := some (v.step r)

/-- **The view of a job converges.**  For every chain of snapshots and every order
in which they are received, any number of times and among snapshots of any other
jobs: the listeners are passed no snapshot earlier than one they have seen, nothing
after a terminal one, and once all of them were received the last is cached. -/
theorem view_converges (c : JobChain β) {v : View c}
    (h : Runs.Reach View.run View.Orderly View.init v) :
    v.passed.Pairwise (fun i k => i ≤ k ∧ (c.snap i).status.isTerminal = false) ∧
      ((∀ k, k ∈ v.received) → v.jobs.lookup c.id = c.snapshots.getLast?) := by
  have hv : v.Coherent := by
    refine h.invariant View.Coherent.init ?_
    intro v r v' _ hv hr hs
    cases Option.some.inj hs
    exact hv.step hr
  refine ⟨hv.forward, ?_⟩
  intro hall
  by_cases hc : c.snapshots = []
  · cases hl : v.jobs.lookup c.id with
    | none => rw [hc, List.getLast?_nil]
    | some y =>
      obtain ⟨i, -, -⟩ := hv.cached y hl
      have hlen : c.snapshots.length = 0 := List.length_eq_zero_iff.mpr hc
      exact absurd i.isLt (by omega)
  · have hpos : 0 < c.snapshots.length := List.length_pos_iff.mpr hc
    let last : c.Position := ⟨c.snapshots.length - 1, by omega⟩
    have hlen : last.val + 1 = c.snapshots.length := Nat.sub_add_cancel hpos
    obtain ⟨y, hy⟩ := Option.isSome_iff_exists.mp (hv.kept hc hall)
    obtain ⟨i, hi, rfl⟩ := hv.cached y hy
    obtain ⟨i', hi', hsame⟩ := hv.newest last (hall last) hlen
    cases Option.some.inj (hi.symm.trans hi')
    have hlast : c.snapshots.getLast? = some (c.snap last) := by
      rw [List.getLast?_eq_getElem?]
      exact List.getElem?_eq_getElem last.isLt
    rw [hy, hlast, hsame i (Nat.le_refl _)]

/-- A job that is queued, printed and completed in three different microseconds. -/
def printedChain : JobChain Unit where
  id := 0
  snapshots :=
    [⟨0, .queued, .requestAccepted, none, ⟨1, [], by decide⟩, ()⟩,
      ⟨0, .printing, .spoolerAccepted, none, ⟨1, digits [5], by decide⟩, ()⟩,
      ⟨0, .completed, .spoolerAccepted, none, ⟨2, [], by decide⟩, ()⟩]
  ids := by decide
  follows := by decide +kernel

/-- The second snapshot first, another job in between, and a late duplicate. -/
def printedReceipts : List (Receipt printedChain) :=
  [.ours ⟨1, by decide⟩, .ours ⟨0, by decide⟩,
    .other ⟨1, .queued, .requestAccepted, none, ⟨1, digits [7], by decide⟩, ()⟩ (by decide),
    .ours ⟨2, by decide⟩, .ours ⟨1, by decide⟩]

theorem view_converges_printed :
    ∃ v : View printedChain, (∀ k, k ∈ v.received) ∧
      v.jobs.lookup printedChain.id = printedChain.snapshots.getLast? := by
  have hrun : ∃ v ∈ Runs.checked View.run (fun v r => decide (v.Orderly r)) View.init
      printedReceipts, ∀ k, k ∈ v.received := by decide +kernel
  obtain ⟨v, hv, hall⟩ := hrun
  exact ⟨v, hall, (view_converges printedChain
    (Runs.reach_of_checked (fun _ _ => of_decide_eq_true) hv)).2 hall⟩

/-- A job that is queued and claimed by its worker within one microsecond. -/
def claimedChain : JobChain Unit where
  id := 0
  snapshots :=
    [⟨0, .queued, .requestAccepted, none, ⟨1, digits [0, 0, 0, 0, 0, 0, 1], by decide⟩, ()⟩,
      ⟨0, .queued, .submitting, none, ⟨1, digits [0, 0, 0, 0, 0, 0, 2], by decide⟩, ()⟩]
  ids := by decide
  follows := by decide +kernel

/-- Received in the wrong order, the earlier snapshot replaces the later one. -/
theorem view_goes_back :
    ∃ v : View claimedChain,
      Runs.runFrom View.run View.init [.ours ⟨1, by decide⟩, .ours ⟨0, by decide⟩] = some v ∧
      ¬ v.passed.Pairwise (fun i k => i ≤ k ∧ (claimedChain.snap i).status.isTerminal = false) ∧
      (∀ k, k ∈ v.received) ∧ v.jobs.lookup claimedChain.id ≠ claimedChain.snapshots.getLast? := by
  refine ⟨_, rfl, ?_⟩
  decide +kernel

end KilnPrint
