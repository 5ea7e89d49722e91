/-
Who holds which job.

The abstraction from the engine's tasks to the ledger:

* `Task.holds` — the jobs a task is responsible for at each of its points, with
  their stages;
* `holdings`, `ledger` — the ledger of a state;
* `Booted` — before reconciliation has read the repository, the start routine
  is alone;
* `Wf` — custody is exclusive, the ledger's invariant holds, and the state is
  booted;
* `Task.Trades` — what one step of a task does to the jobs it holds, and
  `Trades.ledger_eq`, which turns it into an equation on ledgers.
-/
import KilnPrint.Engine.System
import KilnPrint.Engine.Invariant

namespace KilnPrint

open Custody

/-! ### Holdings -/

def SubmitPc.holds : SubmitPc → List (JobId × Stage)
  | enter job | lookup job | insert job => [(job.jobId, .draft job)]
  | activate job => [(job.jobId, .stored job)]
  | existing _ | exit _ | done _ | release _ _ (.ok _) => []
  | leave id | validate id => [(id, .received)]
  | check id | resolve id _ | refreshing id | assign id _ => [(id, .validating)]
  | route id _ | inspecting id _ | render id _ _ _ | rendering id _ _ _ | name id _ _ _ _ =>
    [(id, .assigned)]
  | reserve p | queue p => [(p.jobId, .assigned)]
  | stored id _ => [(id, .gone)]
  | sender p _ | send p _ _ => [(p.jobId, .queued)]
  | release id _ (.error _) | settle id _ => [(id, .refused)]

/-- Whether a call has entered `provider.submit`. -/
def Call.invoked (c : Call) : Bool := c.phase != .spawned

/-- The job a worker is busy with. -/
def WorkerPc.current : WorkerPc → List (JobId × Stage)
  | idle | polling | stopping | discard _ | stopped => []
  | claim item => [(item.jobId, .queued)]
  | lookup item | failing item _ => [(item.jobId, .claimed)]
  | calling call => [(call.jobId, .calling call.invoked)]
  | late call => [(call.jobId, .expired call.invoked)]
  | watch id _ spoolerJobId => [(id, .spooled spoolerJobId)]

/-- The jobs waiting in a channel. -/
def queuedItems (rx : List QueuedJob) : List (JobId × Stage) :=
  rx.map fun item => (item.jobId, .queued)

def Worker.holds (w : Worker) : List (JobId × Stage) := w.pc.current ++ queuedItems w.rx

def Monitor.holds (m : Monitor) : List (JobId × Stage) :=
  match m.pc with
  | .done => []
  | _ => [(m.jobId, .spooled m.spoolerJobId)]

def unloadedJobs (jobs : List Job) : List (JobId × Stage) :=
  jobs.map fun job => (job.jobId, .unloaded job)

def StartPc.holds : StartPc → List (JobId × Stage)
  | refresh | load | failed | done => []
  | reconcile jobs => unloadedJobs jobs
  | locate job rest | settle job _ rest => (job.jobId, .loaded job) :: unloadedJobs rest

def Task.holds : Task → List (JobId × Stage)
  | none | cancel .. | shutdown _ => []
  | submit _ _ pc => pc.holds
  | worker w => w.holds
  | monitor m => m.holds
  | start pc => pc.holds

/-- A submit call holds at most one job. -/
theorem SubmitPc.mem_holds {pc : SubmitPc} {id : JobId} {σ : Stage} (h : (id, σ) ∈ pc.holds) :
    pc.holds = [(id, σ)] := by
  cases pc with
  | release id' bytes result =>
    cases result with
    | ok _ => cases h
    | error _ => exact congrArg (fun e => [e]) (List.mem_singleton.mp h).symm
  | existing | exit | done => cases h
  | _ => exact congrArg (fun e => [e]) (List.mem_singleton.mp h).symm

/-- A worker holds the job it is busy with and the items in its channel. -/
theorem Worker.mem_holds {w : Worker} {id : JobId} {σ : Stage} (h : (id, σ) ∈ w.holds) :
    w.pc.current = [(id, σ)] ∨ σ = .queued ∧ ∃ item ∈ w.rx, item.jobId = id := by
  obtain ⟨printer, rx, pc⟩ := w
  rcases List.mem_append.mp h with hcur | hq
  · left
    cases pc with
    | idle | polling | stopping | discard | stopped => cases hcur
    | _ => exact congrArg (fun e => [e]) (List.mem_singleton.mp hcur).symm
  · right
    obtain ⟨item, hmem, hitem⟩ := List.mem_map.mp hq
    obtain ⟨hid, rfl⟩ := Prod.mk.inj hitem
    exact ⟨rfl, item, hmem, hid⟩

theorem Monitor.mem_holds {m : Monitor} {id : JobId} {σ : Stage} (h : (id, σ) ∈ m.holds) :
    m.pc ≠ .done ∧ m.jobId = id ∧ σ = .spooled m.spoolerJobId := by
  obtain ⟨id', printer, spoolerJobId, pc⟩ := m
  cases pc with
  | done => cases h
  | _ =>
    obtain ⟨rfl, rfl⟩ := Prod.mk.inj (List.mem_singleton.mp h)
    exact ⟨by simp, rfl, rfl⟩

/-- Reconciliation has read the repository. -/
def Task.loads : Task → Bool
  | start (.reconcile _) | start (.locate ..) | start (.settle ..) | start .done => true
  | _ => false

def holdings (s : State) : TaskId → List (JobId × Stage) := fun t => (s.task t).holds

/-- The ledger of a state. -/
noncomputable def ledger (s : State) : Ledger where
  active := s.active.lookup
  stored := s.repo.lookup
  custody := custodyOf (holdings s)
  next := s.nextJob
  loaded := (s.task startTask).loads
  log := s.log

/-! ### Well-formed states -/

/-- The start routine is one task, and alone until it has read the
repository. -/
structure Booted (s : State) : Prop where
  first : s.task startTask = .none ∨ ∃ pc, s.task startTask = .start pc
  only : ∀ t pc, s.task t = .start pc → t = startTask
  alone : (s.task startTask).loads = false →
    (∀ t, t ≠ startTask → s.task t = .none) ∧ ∀ id, s.active.lookup id = none

/-- The well-formed states. -/
structure Wf (s : State) : Prop where
  exclusive : Exclusive (holdings s)
  inv : (ledger s).Inv
  booted : Booted s

/-! ### Updating tasks -/

theorem task_insert (s : State) (t t' : TaskId) (k : Task) :
    (s.setTask t k).task t' = if t' = t then k else s.task t' := by
  unfold State.task State.setTask
  rw [FinMap.lookup_insert_ite]
  split <;> rfl

@[simp] theorem task_setTask_self (s : State) (t : TaskId) (k : Task) :
    (s.setTask t k).task t = k := by
  rw [task_insert, if_pos rfl]

theorem task_setTask_of_ne (s : State) {t t' : TaskId} (k : Task) (h : t' ≠ t) :
    (s.setTask t k).task t' = s.task t' := by
  rw [task_insert, if_neg h]

theorem task_eq_none {s : State} {t : TaskId} (h : (s.tasks.lookup t).isNone = true) :
    s.task t = .none := by
  rw [State.task, Option.isNone_iff_eq_none.mp h]
  rfl

theorem has_iff {s : State} {p : Task → Bool} (hp : p .none = false) :
    s.has p = true ↔ ∃ t, p (s.task t) = true := by
  rw [State.has, List.any_eq_true]
  constructor
  · rintro ⟨k, hk, hpk⟩
    obtain ⟨t, ht⟩ := FinMap.mem_values.mp hk
    refine ⟨t, ?_⟩
    rw [State.task, ht]
    exact hpk
  · rintro ⟨t, ht⟩
    refine ⟨s.task t, ?_, ht⟩
    cases hl : s.tasks.lookup t with
    | none =>
      rw [State.task, hl] at ht
      exact absurd (ht.symm.trans hp) (by decide)
    | some k =>
      rw [State.task, hl]
      exact FinMap.mem_values.mpr ⟨t, hl⟩

theorem holdings_setTask {s s₁ : State} (ht : s₁.tasks = s.tasks) (t : TaskId) (k : Task) :
    holdings (s₁.setTask t k) = Function.update (holdings s) t k.holds := by
  funext t'
  have htask : s₁.task t' = s.task t' := by rw [State.task, ht]; rfl
  by_cases h : t' = t
  · subst h
    simp [holdings]
  · rw [Function.update_of_ne h, holdings, holdings, task_setTask_of_ne _ _ h, htask]

theorem holdings_congr {s s₁ : State} (ht : s₁.tasks = s.tasks) : holdings s₁ = holdings s := by
  funext t
  rw [holdings, holdings, State.task, ht]
  rfl

/-! ### One task's step, on the ledger -/

variable {s s₁ : State} {t : TaskId} {k : Task}

/-- The ledger after task `t` moves on to `k`, given what became of custody. -/
theorem ledger_setTask (ht : s₁.tasks = s.tasks) (hl : k.loads = (s.task t).loads)
    {c : JobId → Option Stage}
    (hc : custodyOf (Function.update (holdings s) t k.holds) = c) :
    ledger (s₁.setTask t k) = { ledger s₁ with custody := c } := by
  have hload : ((s₁.setTask t k).task startTask).loads = (s₁.task startTask).loads := by
    rw [task_insert]
    split
    · next h =>
      rw [hl, h, State.task, State.task, ht]
    · rfl
  unfold ledger
  rw [holdings_setTask ht, hc, hload]
  rfl

/-- What a step of a task does to the jobs it holds, as a function of the
ledger. -/
inductive Trade
  | keep
  | hand (id : JobId) (σ : Option Stage)

def Trade.apply : Trade → Ledger → Ledger
  | keep, l => l
  | hand id σ, l => l.hand id σ

/-- Holding `H` and then `L` is the trade. -/
inductive Trades (H L : List (JobId × Stage)) : Trade → Prop
  | keep (h : L.Perm H) : Trades H L .keep
  | replace {id : JobId} {σ σ' : Stage} {R : List (JobId × Stage)}
      (hA : H.Perm ((id, σ) :: R)) (hB : L.Perm ((id, σ') :: R)) :
      Trades H L (.hand id (some σ'))
  | remove {id : JobId} {σ : Stage} {R : List (JobId × Stage)}
      (hA : H.Perm ((id, σ) :: R)) (hB : L.Perm R) : Trades H L (.hand id none)

/-- **A trade, seen on the ledger.** -/
theorem Trades.ledger_eq {trade : Trade} (hx : Exclusive (holdings s)) (ht : s₁.tasks = s.tasks)
    (hl : k.loads = (s.task t).loads) (h : Trades (s.task t).holds k.holds trade) :
    Exclusive (holdings (s₁.setTask t k)) ∧
      ledger (s₁.setTask t k) = trade.apply (ledger s₁) := by
  have hcust : (ledger s₁).custody = custodyOf (holdings s) :=
    congrArg custodyOf (holdings_congr ht)
  rw [holdings_setTask ht]
  cases h with
  | keep hp =>
    obtain ⟨hx', hc⟩ := Custody.keep (t := t) hx hp
    refine ⟨hx', (ledger_setTask ht hl hc).trans ?_⟩
    rw [← hcust]
    rfl
  | replace hA hB =>
    obtain ⟨hx', hc⟩ := Custody.replace (t := t) hx hA hB
    refine ⟨hx', (ledger_setTask ht hl hc).trans ?_⟩
    rw [← hcust]
    rfl
  | remove hA hB =>
    obtain ⟨hx', hc⟩ := Custody.remove (t := t) hx hA hB
    refine ⟨hx', (ledger_setTask ht hl hc).trans ?_⟩
    rw [← hcust]
    rfl

/-- A task that holds an item is its custodian. -/
theorem custody_of_holds (hx : Exclusive (holdings s)) {id : JobId} {σ : Stage}
    (h : (id, σ) ∈ (s.task t).holds) : (ledger s).custody id = some σ :=
  custodyOf_mem hx h

end KilnPrint
