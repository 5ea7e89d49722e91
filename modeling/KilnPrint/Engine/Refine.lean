/-
Every step of the engine is a move of the ledger: the rules.

* `State.Refines` — a step keeps custody exclusive and is a move of the ledger;
* `Move.Of` — what the action says about the move;
* `Op.Silent`, `exec_silent` — operations that change no record;
* `run_silent`, `run_mutate` — **the two rules for a task's step**: one for
  silent operations, one for mutations by the job's custodian;
* `run_foreign` — the rule for mutations by others.

The rules leave to each routine only the question of what the task holds
before and after.
-/
import KilnPrint.Engine.Holdings

namespace KilnPrint

open Custody

def Input.reading (inp : Input) : Reading := ⟨inp.now, inp.stamp, inp.repoOk⟩

/-- A step keeps custody exclusive and is the move `mv` of the ledger. -/
def State.Refines (s s' : State) (mv : Move) : Prop :=
  Exclusive (holdings s') ∧ (ledger s).Step mv (ledger s')

/-- The job a shutdown call is about to fail. -/
def State.shutdownTarget (s : State) (t : TaskId) (inp : Input) : Option JobId :=
  match s.pendingEvent t, s.task t with
  | none, .shutdown (.failing todo) => todo[inp.pick]?
  | _, _ => none

/-- The jobs whose custodian an action ends: a dropped submit call, a worker that
drops its receiver. -/
def State.abandoned (s : State) : Action → List JobId
  | .drop t => keys (s.task t).holds
  | .run t _ =>
    match s.task t with
    | .worker ⟨_, rx, .stopping⟩ => rx.map (·.jobId)
    | _ => []
  | _ => []

/-- What the action says about the move it makes. -/
def Move.Of (s : State) (a : Action) : Move → Prop
  | own r _ _ => ∃ t inp, a = .run t inp ∧ r = inp.reading
  | foreign o r id _ => ∃ t inp, a = .run t inp ∧ r = inp.reading ∧
      (o = .shutdown → s.shutdownTarget t inp = some id)
  | store job => ∃ t inp who request, a = .run t inp ∧
      s.task t = .submit who request (.insert job)
  | purge cutoff => a = .purge cutoff
  | crash => a = .crash
  | invoke .. => ∃ t, a = .invoke t
  | orphan ids => a ≠ .crash ∧ ids = s.abandoned a
  | _ => a ≠ .crash

/-! ### Silent operations -/

/-- The operations that change no record and no task but their own. -/
def Op.Silent : Op → Prop
  | mutate .. | insert .. | activate .. | senderFor .. | trySend .. | providerCancel ..
  | spawnMonitor .. | nonTerminal _ => False
  | _ => True

/-- The local states an operation may continue with. -/
def Op.Continues (k : Task) : Op → Prop
  | await => False
  | skip k' | lockGate k' | unlockGate k' | refresh k' | release _ k' | dropReceiver _ k'
  | cancelToken k' | startCancelling _ k' | stopCancelling _ k' | activate _ _ k'
  | spawnMonitor _ _ _ k' => k = k'
  | mutate _ _ f => ∃ r, k = f r
  | findByIdempotencyKey _ _ f => ∃ r, k = f r
  | insert _ f => ∃ r, k = f r
  | get _ f => ∃ r, k = f r
  | nonTerminal f => ∃ r, k = f r
  | activeJob _ f => ∃ r, k = f r
  | activeJobs _ f => ∃ r, k = f r
  | readPrinters f => ∃ r, k = f r
  | tryReserve _ f => ∃ r, k = f r
  | senderFor _ f => ∃ r, k = f r
  | trySend _ _ f => ∃ r, k = f r
  | isShutdown f => ∃ r, k = f r
  | isCancelling _ f => ∃ r, k = f r
  | providerCancel _ f => ∃ r, k = f r
  | jobState _ f => ∃ r, k = f r

/-- The parts of the state that the ledger and the tasks are read from. -/
structure SameRecords (s s₁ : State) : Prop where
  tasks : s₁.tasks = s.tasks
  active : s₁.active = s.active
  repo : s₁.repo = s.repo
  next : s₁.nextJob = s.nextJob
  log : s₁.log = s.log

variable {env : Env} {s s₁ s' : State} {t : TaskId} {inp : Input} {o : Origin} {op : Op} {k : Task}

theorem SameRecords.refl (s : State) : SameRecords s s := ⟨rfl, rfl, rfl, rfl, rfl⟩

theorem SameRecords.ledger_eq (h : SameRecords s s₁) : ledger s₁ = ledger s := by
  obtain ⟨ht, ha, hr, hn, hl⟩ := h
  unfold ledger
  rw [holdings_congr ht, State.task, ht, ha, hr, hn, hl]
  rfl

theorem exec_continues (h : exec env t o inp s op = some (s₁, k)) : op.Continues k := by
  have hpair : ∀ {a : State} {b : Task}, some (a, b) = some (s₁, k) → k = b := fun h =>
    (Prod.mk.inj (Option.some_inj.mp h)).2.symm
  cases op with
  | await => simp [exec] at h
  | skip | refresh | release | dropReceiver | cancelToken | startCancelling | stopCancelling
  | unlockGate | activate => exact hpair h
  | lockGate | spawnMonitor =>
    simp only [exec] at h
    split at h
    · exact hpair h
    · cases h
  | mutate | findByIdempotencyKey | insert | get | nonTerminal | activeJob | activeJobs
  | readPrinters | isShutdown | isCancelling => exact ⟨_, hpair h⟩
  | tryReserve =>
    simp only [exec] at h
    split at h <;> exact ⟨_, hpair h⟩
  | senderFor =>
    simp only [exec] at h
    split at h
    · exact ⟨_, hpair h⟩
    · split at h
      · exact ⟨_, hpair h⟩
      · cases h
  | trySend =>
    simp only [exec] at h
    split at h
    · split at h
      · exact ⟨_, hpair h⟩
      · split at h <;> exact ⟨_, hpair h⟩
    · exact ⟨_, hpair h⟩
  | providerCancel =>
    simp only [exec] at h
    split at h
    · split at h <;> exact ⟨_, hpair h⟩
    · exact ⟨_, hpair h⟩
  | jobState =>
    simp only [exec] at h
    split at h
    · cases h
    · exact ⟨_, hpair h⟩

theorem exec_silent (h : exec env t o inp s op = some (s₁, k)) (hop : op.Silent) :
    SameRecords s s₁ ∧ op.Continues k := by
  refine ⟨?_, exec_continues h⟩
  cases op with
  | await => simp [exec] at h
  | skip | refresh | release | dropReceiver | cancelToken | startCancelling | stopCancelling
  | unlockGate =>
    obtain ⟨rfl, -⟩ := Prod.mk.inj (Option.some_inj.mp h)
    exact ⟨rfl, rfl, rfl, rfl, rfl⟩
  | lockGate =>
    simp only [exec] at h
    split at h
    · obtain ⟨rfl, -⟩ := Prod.mk.inj (Option.some_inj.mp h)
      exact ⟨rfl, rfl, rfl, rfl, rfl⟩
    · cases h
  | findByIdempotencyKey | get | activeJob | activeJobs | readPrinters | isShutdown
  | isCancelling =>
    obtain ⟨rfl, -⟩ := Prod.mk.inj (Option.some_inj.mp h)
    exact .refl _
  | tryReserve =>
    simp only [exec] at h
    split at h <;>
    · obtain ⟨rfl, -⟩ := Prod.mk.inj (Option.some_inj.mp h)
      exact ⟨rfl, rfl, rfl, rfl, rfl⟩
  | jobState =>
    simp only [exec] at h
    split at h
    · cases h
    · obtain ⟨rfl, -⟩ := Prod.mk.inj (Option.some_inj.mp h)
      exact .refl _
  | _ => exact absurd hop not_false

/-- What a silent step may do to the jobs its task holds. -/
inductive SilentTrade (l : Ledger) (H L : List (JobId × Stage)) : Prop
  | keep (h : L.Perm H)
  | relabel {id : JobId} {σ σ' : Stage} {R : List (JobId × Stage)}
      (hA : H.Perm ((id, σ) :: R)) (hB : L.Perm ((id, σ') :: R)) (hσ : σ.unshared = false)
      (hclaim : σ'.unclaimed = true → σ.unclaimed = true)
      (hinv : σ'.uninvoked = true → σ.uninvoked = true)
      (hheld : σ'.held = true → σ.held = true) (hcarry : σ'.carries = false)
      (hj : ∀ j, l.active id = some j → j.Sound → σ.allows j → σ'.allows j)
  | forget {id : JobId} {σ : Stage} {R : List (JobId × Stage)}
      (hA : H.Perm ((id, σ) :: R)) (hB : L.Perm R) (hσ : σ.unshared = false)
      (hj : ∀ j, l.active id = some j → j.delivery ≠ .requestAccepted)

/-- The task of a step that has no event left to broadcast. -/
theorem runTask_eq (h : runTask env s t inp = some s') :
    (∃ e, s' = { s with outbox := s.outbox.erase e, events := s.events ++ [e.2] }) ∨
      s.pendingEvent t = none ∧
      ∃ s₁ k, exec env t (s.task t).origin inp s (code env inp (s.task t)) = some (s₁, k) ∧
        s' = s₁.setTask t k := by
  unfold runTask at h
  split at h
  · exact Or.inl ⟨_, (Option.some_inj.mp h).symm⟩
  · next hp =>
    obtain ⟨⟨s₁, k⟩, hex, rfl⟩ := Option.map_eq_some_iff.mp h
    exact Or.inr ⟨hp, s₁, k, hex, rfl⟩

/-- Broadcasting an event moves nothing on the ledger. -/
theorem flush_refines {e : TaskId × EngineEvent} (hx : Exclusive (holdings s)) :
    s.Refines { s with outbox := s.outbox.erase e, events := s.events ++ [e.2] } .quiet := by
  have hsame : SameRecords s { s with outbox := s.outbox.erase e, events := s.events ++ [e.2] } :=
    ⟨rfl, rfl, rfl, rfl, rfl⟩
  refine ⟨?_, ?_⟩
  · rw [holdings_congr hsame.tasks]
    exact hx
  · rw [hsame.ledger_eq]
    exact .quiet

/-- **The rule for silent steps.** -/
theorem run_silent (hx : Exclusive (holdings s)) (hsame : SameRecords s s₁)
    (hl : k.loads = (s.task t).loads)
    (htrade : SilentTrade (ledger s) (s.task t).holds k.holds) :
    ∃ mv, mv.Of s (.run t inp) ∧ s.Refines (s₁.setTask t k) mv := by
  cases htrade with
  | keep h =>
    obtain ⟨hx', hled⟩ := Trades.ledger_eq hx hsame.tasks hl (.keep h)
    refine ⟨.quiet, (fun h => by cases h), hx', ?_⟩
    rw [hled, hsame.ledger_eq]
    exact .quiet
  | @relabel id σ σ' R hA hB hσ hclaim hinv hheld hcarry hj =>
    obtain ⟨hx', hled⟩ := Trades.ledger_eq hx hsame.tasks hl (.replace hA hB)
    refine ⟨.relabel id σ', (fun h => by cases h), hx', ?_⟩
    rw [hled, hsame.ledger_eq]
    exact .relabel (custody_of_holds hx (hA.mem_iff.mpr List.mem_cons_self)) hσ hclaim hinv
      hheld hcarry hj
  | @forget id σ R hA hB hσ hj =>
    obtain ⟨hx', hled⟩ := Trades.ledger_eq hx hsame.tasks hl (.remove hA hB)
    refine ⟨.forget id, (fun h => by cases h), hx', ?_⟩
    rw [hled, hsame.ledger_eq]
    exact .forget (custody_of_holds hx (hA.mem_iff.mpr List.mem_cons_self)) hσ hj

/-! ### Mutations -/

theorem tasks_mutate {id : JobId} {ch : Change} :
    (s.mutate t o inp id ch).1.tasks = s.tasks := by
  unfold State.mutate
  split <;> rfl

theorem mutate_none {id : JobId} {ch : Change} (h : s.active.lookup id = none) :
    s.mutate t o inp id ch = (s, none) := by
  rw [State.mutate, h]

theorem mutate_some {id : JobId} {ch : Change} {j : Job} (h : s.active.lookup id = some j) :
    (s.mutate t o inp id ch).2 = some (ch.mutated inp.now inp.stamp j) ∧
      (s.mutate t o inp id ch).1.tasks = s.tasks ∧
      ledger (s.mutate t o inp id ch).1 = (ledger s).change o inp.reading id ch j := by
  rw [State.mutate, h]
  refine ⟨rfl, rfl, ?_⟩
  let m := (ch.mutated inp.now inp.stamp j).job
  have hactive : (fun id' => (if m.status.isTerminal then s.active.erase id
        else s.active.insert id m).lookup id') =
      Function.update (fun id' => s.active.lookup id') id
        (if m.status.isTerminal then none else some m) := by
    split
    · exact FinMap.lookup_erase_update ..
    · exact FinMap.lookup_insert_update ..
  have hrepo : (fun id' => (if (ch.apply inp.now j).1 ≠ j ∧ inp.repoOk then s.repo.update m
        else s.repo).lookup id') =
      if (ch.apply inp.now j).1 ≠ j ∧ inp.repoOk then
        Function.update (fun id' => s.repo.lookup id') m.jobId (some m)
      else fun id' => s.repo.lookup id' := by
    split
    · exact FinMap.lookup_insert_update ..
    · rfl
  show ({ active := _, stored := _, custody := _, next := _, loaded := _, log := _ } : Ledger) = _
  rw [Ledger.change]
  exact Ledger.ext hactive hrepo rfl rfl rfl rfl

/-- A change that closes every open record leaves the job inactive. -/
theorem lookup_mutate_of_closes {id : JobId} {ch : Change} (hw : Wf s)
    (hcloses : ∀ j : Job, j.status.isTerminal = false →
      (ch.apply inp.now j).1.status.isTerminal = true) :
    (s.mutate t o inp id ch).1.active.lookup id = none := by
  cases hj : s.active.lookup id with
  | none => rw [mutate_none hj, hj]
  | some j =>
    have hled : ledger (s.mutate t o inp id ch).1 =
        (ledger s).change o inp.reading id ch j := (mutate_some hj).2.2
    have hclosed : (ch.mutated inp.now inp.stamp j).job.status.isTerminal = true :=
      hcloses j (hw.inv.active id j hj).2
    have hactive := congrFun (congrArg Ledger.active hled) id
    rw [Ledger.active_change_self] at hactive
    exact hactive.trans (if_pos hclosed)

/-- A change that closes a record is stored, if the repository call succeeds. -/
theorem stored_mutate_of_closes {id : JobId} {ch : Change} {j : Job} (hw : Wf s)
    (hj : s.active.lookup id = some j) (hr : inp.repoOk = true)
    (hclosed : (ch.apply inp.now j).1.status.isTerminal = true) :
    (s.mutate t o inp id ch).1.repo.lookup id = some (ch.mutated inp.now inp.stamp j).job := by
  have hid : (ch.mutated inp.now inp.stamp j).job.jobId = id :=
    Change.jobId_mutated.trans (hw.inv.activeId id j hj).1
  have hchanged : (ch.apply inp.now j).1 ≠ j := by
    intro h
    have hopen := (hw.inv.active id j hj).2
    rw [h, hopen] at hclosed
    cases hclosed
  have hled : ledger (s.mutate t o inp id ch).1 =
      (ledger s).change o inp.reading id ch j := (mutate_some hj).2.2
  have hstored := congrFun (congrArg Ledger.stored hled) id
  refine hstored.trans ?_
  show (if _ then Function.update _ _ _ else _) id = _
  rw [if_pos ⟨hchanged, hr⟩]
  show Function.update _ (ch.mutated inp.now inp.stamp j).job.jobId _ id = _
  rw [hid, Function.update_self]
  rfl

/-- What is left of the holdings when `id` is handed on. -/
def leftWith (id : JobId) (R : List (JobId × Stage)) : Option Stage → List (JobId × Stage)
  | some σ => (id, σ) :: R
  | none => R

/-- **The rule for mutations by the custodian.**  Where the job is no longer
active the task may only relabel it, or give it up. -/
theorem run_mutate {id : JobId} {ch : Change} {f : Option Mutated → Task} {σ : Stage}
    {R : List (JobId × Stage)} (hw : Wf s)
    (hold : (s.task t).holds.Perm ((id, σ) :: R)) (hσ : σ.unshared = false)
    (ho : (s.task t).origin = σ.origin)
    (hl : ∀ m, (f m).loads = (s.task t).loads)
    (hsome : ∀ m, ∃ σ', σ.Hands ch σ' ∧ (f (some m)).holds.Perm (leftWith id R σ'))
    (hnone : ∃ σ' : Option Stage, (∀ τ, σ' = some τ →
        (τ.unclaimed = true → σ.unclaimed = true) ∧ (τ.uninvoked = true → σ.uninvoked = true) ∧
          (τ.held = true → σ.held = true) ∧ τ.carries = false) ∧ (f none).holds.Perm (leftWith id R σ'))
    (h : exec env t (s.task t).origin inp s (.mutate id ch f) = some (s₁, k)) :
    ∃ mv, mv.Of s (.run t inp) ∧ s.Refines (s₁.setTask t k) mv := by
  have hmem : (id, σ) ∈ (s.task t).holds := hold.mem_iff.mpr List.mem_cons_self
  have hcust : (ledger s).custody id = some σ := custody_of_holds hw.exclusive hmem
  obtain ⟨rfl, rfl⟩ : (s.mutate t (s.task t).origin inp id ch).1 = s₁ ∧
      f (s.mutate t (s.task t).origin inp id ch).2 = k := Prod.mk.inj (Option.some_inj.mp h)
  cases hj : s.active.lookup id with
  | none =>
    obtain ⟨σ', hlabel, hB⟩ := hnone
    rw [mutate_none hj]
    have hvac : ∀ j, (ledger s).active id = some j → False := fun j hj' => by
      rw [show (ledger s).active id = none from hj] at hj'
      cases hj'
    refine run_silent hw.exclusive (.refl s) (hl none) ?_
    cases σ' with
    | none => exact .forget hold hB hσ fun j hj' => (hvac j hj').elim
    | some τ =>
      obtain ⟨h₁, h₂, h₃, h₄⟩ := hlabel τ rfl
      exact .relabel hold hB hσ h₁ h₂ h₃ h₄ fun j hj' => (hvac j hj').elim
  | some j =>
    obtain ⟨hm, htasks, hled⟩ := mutate_some (t := t) (o := (s.task t).origin) hj
    rw [hm]
    obtain ⟨σ', hhands, hB⟩ := hsome (ch.mutated inp.now inp.stamp j)
    refine ⟨.own inp.reading id ch, ⟨t, inp, rfl, rfl⟩, ?_⟩
    have htrade : Trades (s.task t).holds (f (some (ch.mutated inp.now inp.stamp j))).holds
        (.hand id σ') := by
      cases σ' with
      | none => exact .remove hold hB
      | some τ => exact .replace hold hB
    obtain ⟨hx', heq⟩ := Trades.ledger_eq hw.exclusive htasks (hl _) htrade
    refine ⟨hx', ?_⟩
    rw [heq, hled, ho]
    exact .own inp.reading hcust hhands hj

/-- **The rule for mutations by others**, which hold no job. -/
theorem run_foreign {id : JobId} {ch : Change} {f : Option Mutated → Task} (hw : Wf s)
    (hforeign : Foreign (s.task t).origin ch) (hold : (s.task t).holds = [])
    (hl : ∀ m, (f m).loads = (s.task t).loads) (hfold : ∀ m, (f m).holds = [])
    (htarget : (s.task t).origin = .shutdown → s.shutdownTarget t inp = some id)
    (h : exec env t (s.task t).origin inp s (.mutate id ch f) = some (s₁, k)) :
    ∃ mv, mv.Of s (.run t inp) ∧ s.Refines (s₁.setTask t k) mv := by
  obtain ⟨rfl, rfl⟩ : (s.mutate t (s.task t).origin inp id ch).1 = s₁ ∧
      f (s.mutate t (s.task t).origin inp id ch).2 = k := Prod.mk.inj (Option.some_inj.mp h)
  cases hj : s.active.lookup id with
  | none =>
    rw [mutate_none hj]
    exact run_silent hw.exclusive (.refl s) (hl none) (.keep (by rw [hold, hfold]))
  | some j =>
    obtain ⟨hm, htasks, hled⟩ := mutate_some (t := t) (o := (s.task t).origin) hj
    rw [hm]
    obtain ⟨hx', heq⟩ := Trades.ledger_eq hw.exclusive htasks
      (hl (some (ch.mutated inp.now inp.stamp j))) (.keep (by rw [hold, hfold]))
    refine ⟨.foreign (s.task t).origin inp.reading id ch, ⟨t, inp, rfl, rfl, htarget⟩, hx', ?_⟩
    rw [heq, hled]
    exact .foreign inp.reading hforeign hj

end KilnPrint
