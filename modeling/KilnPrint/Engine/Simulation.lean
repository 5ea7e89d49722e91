/-
The engine refines the ledger.

* `step_refines` — **every step of the engine is a move of the ledger**;
* `booted_step` — the start routine stays alone until it has read the
  repository;
* `wf_step`, `wf_of_reach` — every state that a run reaches is well formed, so
  every fact about the ledger's invariant holds of it;
* `reach_ledger` — an invariant of the ledger's moves is an invariant of the
  engine's runs;
* `desk`, `after`, `reach_after` — an engine with one printer, on which single
  runs are executed.
-/
import KilnPrint.Lib.Runs
import KilnPrint.Engine.Kinds
import KilnPrint.Engine.Routines

namespace KilnPrint

open Custody Runs

variable {env : Env} {s s' s₁ : State} {t : TaskId} {inp : Input} {o : Origin} {k : Task} {a : Action}

/-! ### The record of a new call -/

theorem newJob_fresh (id : JobId) (who : Submitter) (request : PrintRequest) (now : Time) :
    (newJob id who request now).Fresh := by
  refine ⟨⟨⟨?_, ?_, ?_, ?_, ?_, ?_, ?_, ?_⟩, ?_, ?_⟩, rfl, rfl⟩ <;>
    simp [newJob, Job.new, JobStatus.isTerminal]

/-! ### Steps outside the tasks' code -/

/-- A step that replaces one task and keeps what it holds is quiet. -/
theorem refines_keep (hx : Exclusive (holdings s)) (ht : s₁.tasks = s.tasks)
    (hled : ledger s₁ = ledger s) (hl : k.loads = (s.task t).loads)
    (hk : k.holds = (s.task t).holds) : s.Refines (s₁.setTask t k) .quiet := by
  obtain ⟨hx', heq⟩ := Trades.ledger_eq hx ht hl (.keep (.of_eq hk))
  refine ⟨hx', ?_⟩
  rw [heq, hled]
  exact .quiet

/-- A step that touches neither tasks nor records is quiet. -/
theorem refines_same (hx : Exclusive (holdings s)) (hsame : SameRecords s s₁) :
    s.Refines s₁ .quiet := by
  refine ⟨holdings_congr hsame.tasks ▸ hx, ?_⟩
  rw [hsame.ledger_eq]
  exact .quiet

theorem started_eq_true : s.started = true ↔ s.task startTask = .start .done := by
  unfold State.started
  split
  · next h => simp [h]
  · next h =>
    simp only [Bool.false_eq_true, false_iff]
    exact h

theorem spawn_eq_some {task : Task} (h : s.spawn t task = some s') :
    s.started = true ∧ s.task t = .none ∧ s' = s.setTask t task := by
  unfold State.spawn at h
  split at h
  · next hc => exact ⟨hc.1, task_eq_none hc.2, (Option.some_inj.mp h).symm⟩
  · cases h

theorem refines_spawn {task : Task} (hx : Exclusive (holdings s)) (h : s.spawn t task = some s')
    (hold : task.holds = []) (hl : task.loads = false) : s.Refines s' .quiet := by
  obtain ⟨-, hnone, rfl⟩ := spawn_eq_some h
  exact refines_keep hx rfl rfl (by rw [hl, hnone]; rfl) (by rw [hold, hnone]; rfl)

/-- A submit call draws a new id. -/
theorem beginSubmit_refines {who : Submitter} {request : PrintRequest} {now : Time} (hw : Wf s)
    (h : beginSubmit s t who request now = some s') :
    ∃ mv, mv.Of s (.submit t who request now) ∧ s.Refines s' mv := by
  unfold beginSubmit at h
  split at h
  · exact ⟨.quiet, (fun h => by cases h), refines_spawn hw.exclusive h rfl rfl⟩
  · obtain ⟨hstarted, hnone, rfl⟩ := spawn_eq_some h
    have hnone' : s.task t = .none := hnone
    have hloaded : (ledger s).loaded = true :=
      (congrArg Task.loads (started_eq_true.mp hstarted) : (s.task startTask).loads = true)
    have hfree : custodyOf (holdings s) s.nextJob = none := by
      by_contra hne
      obtain ⟨σ, hσ⟩ := Option.ne_none_iff_exists'.mp hne
      exact Nat.lt_irrefl _ (hw.inv.custodyLt _ σ hσ)
    let job := newJob s.nextJob who request now
    obtain ⟨hx', hc⟩ := add (t := t) (L := [(s.nextJob, .draft job)]) hw.exclusive hfree
      (.of_eq (by rw [holdings, hnone']; rfl))
    have htasks : ({ s with nextJob := s.nextJob + 1 } : State).tasks = s.tasks := rfl
    refine ⟨.draw job, (fun h => by cases h), ?_, ?_⟩
    · rw [holdings_setTask htasks]
      exact hx'
    · have hled := ledger_setTask (k := .submit who request (.enter job)) htasks
        (by rw [hnone']; rfl) hc
      rw [hled]
      exact .draw hloaded rfl (newJob_fresh ..)

/-- A task whose future can be dropped is a submit call. -/
theorem submit_of_awaits (h : s.awaits t = true) :
    ∃ who request pc, s.task t = .submit who request pc := by
  unfold State.awaits at h
  cases htask : s.task t <;> rw [htask] at h
  case submit who request pc => exact ⟨who, request, pc, rfl⟩
  all_goals cases h

theorem task_erase (s : State) (t u : TaskId) :
    ({ s with tasks := s.tasks.erase t } : State).task u =
      if u = t then .none else s.task u := by
  unfold State.task
  rw [FinMap.lookup_erase_ite]
  split <;> rfl

/-- Where the blocking call of a worker is found, and how its phase changes. -/
theorem call_eq_some {call : Call} (h : s.call t = some call) :
    ∃ printer rx, ∃ pc : Call → WorkerPc,
      (pc = .calling ∨ pc = .late) ∧ s.task t = .worker ⟨printer, rx, pc call⟩ ∧
      ∀ phase, s.setPhase t phase =
        s.setTask t (.worker ⟨printer, rx, pc { call with phase := phase }⟩) := by
  unfold State.call at h
  split at h
  · next printer rx c htask =>
    obtain rfl := Option.some_inj.mp h
    exact ⟨printer, rx, .calling, Or.inl rfl, htask, fun phase => by rw [State.setPhase, htask]⟩
  · next printer rx c htask =>
    obtain rfl := Option.some_inj.mp h
    exact ⟨printer, rx, .late, Or.inr rfl, htask, fun phase => by rw [State.setPhase, htask]⟩
  · cases h

theorem invoke_refines (hw : Wf s) (h : step env s (.invoke t) = some s') :
    ∃ mv, mv.Of s (.invoke t) ∧ s.Refines s' mv := by
  obtain ⟨call, hcall, h⟩ := Option.bind_eq_some_iff.mp h
  obtain ⟨printer, rx, pc, hpc, htask, hphase⟩ := call_eq_some hcall
  obtain ⟨hspawned, rfl⟩ := Runs.of_guarded h
  rw [hphase]
  have hinv : call.invoked = false := by simp [Call.invoked, hspawned]
  let k : Task := .worker ⟨printer, rx, pc { call with phase := .running }⟩
  refine ⟨.invoke call.jobId call.printer.id, ⟨t, rfl⟩, ?_⟩
  -- the job of the call moves on, from a stage before the invocation to one after it
  have hmoves : ∀ {σ τ : Stage}, (s.task t).holds.Perm ((call.jobId, σ) :: queuedItems rx) →
      k.holds.Perm ((call.jobId, τ) :: queuedItems rx) →
      ((ledger s).custody call.jobId = some σ →
        (ledger s).Step (.invoke call.jobId call.printer.id)
          (((ledger s).hand call.jobId (some τ)).note (.invoked call.jobId call.printer.id))) →
      s.Refines { s.setTask t k with log := s.log ++ [.invoked call.jobId call.printer.id] }
        (.invoke call.jobId call.printer.id) := by
    intro σ τ hA hB hmove
    obtain ⟨hx', heq⟩ := Trades.ledger_eq (s := s) (t := t) (k := k) hw.exclusive
      (rfl : s.tasks = s.tasks) (by rw [htask]; rfl) (.replace hA hB)
    refine ⟨hx', ?_⟩
    show (ledger s).Step _ ((ledger (s.setTask t k)).note _)
    rw [heq]
    exact hmove (custody_of_holds hw.exclusive (hA.mem_iff.mpr List.mem_cons_self))
  rcases hpc with rfl | rfl
  · refine hmoves (σ := .calling false) (τ := .calling true) ?_ (.of_eq rfl) (.invokeCalling _)
    rw [htask]
    exact .of_eq (by simp [Task.holds, Worker.holds, WorkerPc.current, hinv])
  · refine hmoves (σ := .expired false) (τ := .expired true) ?_ (.of_eq rfl) (.invokeExpired _)
    rw [htask]
    exact .of_eq (by simp [Task.holds, Worker.holds, WorkerPc.current, hinv])

theorem finish_refines {result : CallResult} (hw : Wf s)
    (h : step env s (.finish t result) = some s') :
    ∃ mv, mv.Of s (.finish t result) ∧ s.Refines s' mv := by
  obtain ⟨call, hcall, h⟩ := Option.bind_eq_some_iff.mp h
  obtain ⟨printer, rx, pc, hpc, htask, hphase⟩ := call_eq_some hcall
  obtain ⟨hrunning, rfl⟩ := Runs.of_guarded h
  rw [hphase]
  let k : Task := .worker ⟨printer, rx, pc { call with phase := .finished result }⟩
  have hinv : call.invoked = true := by rw [Call.invoked, hrunning]; rfl
  have hinv' : ({ call with phase := .finished result } : Call).invoked = true := rfl
  have hk : k.holds = (s.task t).holds := by
    rw [htask]
    rcases hpc with rfl | rfl <;>
      simp [k, Task.holds, Worker.holds, WorkerPc.current, hinv, hinv']
  obtain ⟨hx', heq⟩ := Trades.ledger_eq (s := s) (t := t) (k := k) hw.exclusive
    (rfl : s.tasks = s.tasks) (by rw [htask]; rfl) (.keep (.of_eq hk))
  refine ⟨.note (.returned call.jobId call.printer.id), (fun h => by cases h), hx', ?_⟩
  show (ledger s).Step _ ((ledger (s.setTask t k)).note _)
  rw [heq]
  exact .note trivial

/-- A dropped future loses the job its call still held. -/
theorem drop_refines (hw : Wf s) (h : step env s (.drop t) = some s') :
    ∃ mv, mv.Of s (.drop t) ∧ s.Refines s' mv := by
  obtain ⟨hawaits, rfl⟩ := Runs.of_guarded h
  have htask := task_erase s t
  have hH : holdings { s with tasks := s.tasks.erase t } = Function.update (holdings s) t [] := by
    funext u
    rw [holdings, htask, Function.update_apply]
    split <;> rfl
  have hloads : (s.task t).loads = false := by
    obtain ⟨who, request, pc, h⟩ := submit_of_awaits hawaits
    rw [h]
    rfl
  obtain ⟨hx', hc⟩ := ledger_orphan hw.exclusive hH
  refine ⟨.orphan (keys (s.task t).holds), ⟨(fun h => by cases h), rfl⟩, hx', ?_⟩
  have hled : ledger { s with tasks := s.tasks.erase t } = { ledger s with
      custody := fun id => if id ∈ keys (s.task t).holds then none else (ledger s).custody id } := by
    refine Ledger.ext rfl rfl hc rfl ?_ rfl
    show (({ s with tasks := s.tasks.erase t } : State).task startTask).loads = _
    rw [htask]
    split
    · next he =>
      show false = (s.task startTask).loads
      rw [he, hloads]
    · rfl
  rw [hled]
  refine .orphan _ (unshared_of_held hw.exclusive fun id σ hσ => ?_)
  unfold State.awaits at hawaits
  split at hawaits
  all_goals cases hawaits
  all_goals
    next h =>
      rw [h] at hσ
      obtain ⟨-, rfl⟩ := Prod.mk.inj (List.mem_singleton.mp hσ)
      rfl

/-! ### Every step -/

theorem run_refines (hw : Wf s) (h : runTask env s t inp = some s') :
    ∃ mv, mv.Of s (.run t inp) ∧ s.Refines s' mv := by
  rcases runTask_eq h with ⟨e, rfl⟩ | ⟨hp, s₁, k, hex, rfl⟩
  · exact ⟨.quiet, (fun h => by cases h), flush_refines hw.exclusive⟩
  · have hcode : ∀ task, s.task t = task →
        exec env t (s.task t).origin inp s (code env inp task) = some (s₁, k) :=
      fun task htask => htask ▸ hex
    cases htask : s.task t with
    | none =>
      rw [htask] at hex
      cases hex
    | submit who request pc => exact submit_refines hw htask (hcode _ htask)
    | worker w => exact worker_refines hw htask (hcode _ htask)
    | monitor m => exact monitor_refines hw htask (hcode _ htask)
    | cancel id pc => exact cancel_refines hw htask (hcode _ htask)
    | shutdown pc => exact shutdown_refines hw hp htask (hcode _ htask)
    | start pc => exact start_refines hw htask (hcode _ htask)

/-- **Every step of the engine is a move of the ledger.** -/
theorem step_refines (hw : Wf s) (h : step env s a = some s') :
    ∃ mv, mv.Of s a ∧ s.Refines s' mv := by
  cases a with
  | start =>
    obtain ⟨hempty, rfl⟩ := Runs.of_guarded h
    have hnone : s.task startTask = .none := by
      have hent : s.tasks.entries = [] := by simpa using hempty
      rw [State.task, AList.lookup, hent]
      rfl
    exact ⟨.quiet, (fun h => by cases h), refines_keep hw.exclusive rfl rfl (by rw [hnone]; rfl)
      (by rw [hnone]; rfl)⟩
  | submit t who request now => exact beginSubmit_refines hw h
  | cancel t id => exact ⟨.quiet, (fun h => by cases h), refines_spawn hw.exclusive h rfl rfl⟩
  | shutdown t => exact ⟨.quiet, (fun h => by cases h), refines_spawn hw.exclusive h rfl rfl⟩
  | run t inp => exact run_refines hw h
  | invoke t => exact invoke_refines hw h
  | finish t result => exact finish_refines hw h
  | drop t => exact drop_refines hw h
  | discover printers =>
    obtain ⟨-, rfl⟩ := Runs.of_guarded h
    exact ⟨.quiet, (fun h => by cases h), refines_same hw.exclusive ⟨rfl, rfl, rfl, rfl, rfl⟩⟩
  | purge cutoff =>
    obtain ⟨-, rfl⟩ := Runs.of_guarded h
    refine ⟨.purge cutoff, rfl, hw.exclusive, ?_⟩
    have hled : ledger { s with repo := s.repo.purgeTerminalBefore cutoff } = { ledger s with
        stored := fun id => ((ledger s).stored id).filter fun j =>
          !(j.status.isTerminal && j.createdAt < cutoff) } :=
      Ledger.ext rfl (funext fun id => FinMap.lookup_filter ..) rfl rfl rfl rfl
    rw [hled]
    exact .purge cutoff
  | retire id =>
    obtain ⟨-, rfl⟩ := Runs.of_guarded h
    exact ⟨.quiet, (fun h => by cases h), refines_same hw.exclusive ⟨rfl, rfl, rfl, rfl, rfl⟩⟩
  | crash =>
    obtain rfl := Option.some_inj.mp h
    have hempty : ∀ t, holdings s.crashed t = [] := fun _ => rfl
    refine ⟨.crash, rfl, exclusive_nil hempty, ?_⟩
    have hled : ledger s.crashed = { (ledger s).note .crashed with
        active := fun _ => none, custody := fun _ => none, loaded := false } :=
      Ledger.ext rfl rfl (funext fun id => custodyOf_nil hempty id) rfl rfl rfl
    rw [hled]
    exact .crash

/-! ### Booting -/

theorem Booted.of_loaded (h₁ : ∃ pc, s.task startTask = .start pc)
    (h₂ : ∀ t pc, s.task t = .start pc → t = startTask)
    (h₃ : (s.task startTask).loads = true) : Booted s :=
  ⟨Or.inr h₁, h₂, fun h => by rw [h₃] at h; cases h⟩

/-- Spawning a task for an API call keeps the state booted. -/
theorem booted_spawn {s₁ : State} {task : Task} (hs : s₁.spawn t task = some s')
    (hne : ∀ pc, task ≠ .start pc) (hb : Booted s₁) : Booted s' := by
  obtain ⟨hstarted, hnone, rfl⟩ := spawn_eq_some hs
  have hstart := started_eq_true.mp hstarted
  have ht : startTask ≠ t := fun he => by rw [he, hnone] at hstart; cases hstart
  refine .of_loaded ⟨.done, ?_⟩ (fun u pc hu => ?_) ?_
  · rw [task_setTask_of_ne _ _ ht, hstart]
  · rw [task_insert] at hu
    split at hu
    · exact absurd hu (hne pc)
    · exact hb.only u pc hu
  · rw [task_setTask_of_ne _ _ ht, hstart]
    rfl

/-- A change that keeps the tasks and the active map keeps the state booted. -/
theorem Booted.congr (hb : Booted s) (ht : s₁.tasks = s.tasks) (ha : s₁.active = s.active) :
    Booted s₁ := by
  have htask : ∀ t, s₁.task t = s.task t := fun t => by rw [State.task, ht]; rfl
  obtain ⟨h₁, h₂, h₃⟩ := hb
  refine ⟨?_, fun t pc h => h₂ t pc (htask t ▸ h), fun h => ?_⟩
  · rw [htask]
    exact h₁
  · rw [htask] at h
    exact ⟨fun t hne => (htask t).trans ((h₃ h).1 t hne), fun id => ha ▸ (h₃ h).2 id⟩

/-- Replacing a task that is not the start routine by one of its kind, once
reconciliation has read the repository. -/
theorem Booted.setTask (hb : Booted s) (ht : t ≠ startTask) (hne : ∀ pc, k ≠ .start pc)
    (htask : ∀ u, u ≠ t → Touched (s.task u) (s₁.task u))
    (hl : (s.task startTask).loads = true) : Booted (s₁.setTask t k) := by
  obtain ⟨pc, hpc⟩ : ∃ pc, s.task startTask = .start pc := by
    rcases hb.first with h | h
    · rw [h] at hl
      cases hl
    · exact h
  have hstart : s₁.task startTask = .start pc := by
    have h := htask startTask ht.symm
    rw [hpc] at h
    cases hs : s₁.task startTask <;> rw [hs] at h <;> cases h
    rfl
  refine .of_loaded ⟨pc, ?_⟩ (fun u pc' hu => ?_) ?_
  · rw [task_setTask_of_ne _ _ ht.symm, hstart]
  · rw [task_insert] at hu
    split at hu
    · exact absurd hu (hne pc')
    · next hut =>
      have h := htask u hut
      rw [hu] at h
      cases hs : s.task u <;> rw [hs] at h <;> cases h
      exact hb.only u pc' hs
  · rw [task_setTask_of_ne _ _ ht.symm, hstart, ← hpc, hl]

/-- The start routine has read the repository, or its step touches no other
task and no active record. -/
theorem start_alone {pc : StartPc}
    (h : exec env t o inp s (startCode inp pc) = some (s₁, k))
    (hl : k.loads = false) : (Task.start pc).loads = false ∧ s₁.tasks = s.tasks ∧
      s₁.active = s.active := by
  have hk := start_kind (exec_continues h)
  cases pc with
  | refresh =>
    obtain ⟨hsame, -⟩ := exec_silent h trivial
    exact ⟨rfl, hsame.tasks, hsame.active⟩
  | load =>
    obtain ⟨rfl, -⟩ := Prod.mk.inj (Option.some_inj.mp h)
    exact ⟨rfl, rfl, rfl⟩
  | reconcile jobs =>
    cases jobs with
    | nil =>
      obtain rfl : k = _ := exec_continues h
      cases hl
    | cons first rest =>
      have hc := exec_continues h
      simp only [startCode] at hc
      split at hc
      · obtain rfl : k = _ := hc
        cases hl
      · exact absurd hc not_false
  | locate job rest =>
    obtain ⟨r, rfl⟩ := exec_continues h
    cases hl
  | settle job printer rest =>
    have hc := exec_continues h
    simp only [startCode] at hc
    split at hc
    · obtain rfl : k = _ := hc
      cases hl
    · obtain ⟨r, rfl⟩ := hc
      cases hl
  | failed => simp [startCode, exec] at h
  | done => simp [startCode, exec] at h

/-- Nothing but the start routine runs before it has read the repository. -/
theorem loads_of_task (hb : Booted s) (ht : t ≠ startTask) (hne : s.task t ≠ .none) :
    (s.task startTask).loads = true := by
  by_contra hl
  exact hne ((hb.alone (by simpa using hl)).1 t ht)

theorem booted_run (hb : Booted s) (h : runTask env s t inp = some s') : Booted s' := by
  rcases runTask_eq h with ⟨e, rfl⟩ | ⟨-, s₁, k, hex, rfl⟩
  · exact hb.congr rfl rfl
  · have hne : s.task t ≠ .none := fun he => by
      rw [he] at hex
      cases hex
    have hkind : k.kind = (s.task t).kind := code_kind (exec_continues hex)
    by_cases ht : t = startTask
    · subst ht
      obtain ⟨pc, hpc⟩ := hb.first.resolve_left hne
      obtain ⟨pc', rfl⟩ := kind_eq_start.mp (hkind.trans (kind_eq_start.mpr ⟨pc, hpc⟩))
      refine ⟨Or.inr ⟨pc', task_setTask_self ..⟩, fun u pc'' hu => ?_, fun hl => ?_⟩
      · rw [task_insert] at hu
        split at hu
        · assumption
        · have h := exec_tasks hex u
          rw [hu] at h
          cases hs : s.task u <;> rw [hs] at h <;> cases h
          exact hb.only u _ hs
      · rw [task_setTask_self] at hl
        rw [hpc] at hex
        obtain ⟨hl', htasks, hactive⟩ := start_alone hex hl
        obtain ⟨halone, hnone⟩ := hb.alone (by rw [hpc]; exact hl')
        refine ⟨fun u hu => ?_, fun id => ?_⟩
        · rw [task_setTask_of_ne _ _ hu, State.task, htasks]
          exact halone u hu
        · show s₁.active.lookup id = none
          rw [hactive]
          exact hnone id
    · refine hb.setTask ht (fun pc he => ?_) (fun u _ => exec_tasks hex u) (loads_of_task hb ht hne)
      obtain ⟨pc', hpc'⟩ := kind_eq_start.mp (hkind.symm.trans (kind_eq_start.mpr ⟨pc, he⟩))
      exact ht (hb.only t pc' hpc')

/-- A worker's blocking call proceeds only after reconciliation has read the
repository. -/
theorem booted_setPhase {call : Call} {phase : CallPhase} (hb : Booted s)
    (hcall : s.call t = some call) : Booted (s.setPhase t phase) := by
  obtain ⟨printer, rx, pc, -, htask, hphase⟩ := call_eq_some hcall
  have ht : t ≠ startTask := fun he => by
    rcases hb.first with h | ⟨pc', h⟩ <;> rw [← he, htask] at h <;> cases h
  rw [hphase]
  exact hb.setTask ht (fun pc he => by cases he) (fun u _ => .same _)
    (loads_of_task hb ht (by rw [htask]; simp))

theorem booted_step (hb : Booted s) (h : step env s a = some s') : Booted s' := by
  cases a with
  | start =>
    obtain ⟨hempty, rfl⟩ := Runs.of_guarded h
    have hnone : ∀ u, s.task u = .none := by
      intro u
      have hent : s.tasks.entries = [] := by simpa using hempty
      rw [State.task, AList.lookup, hent]
      rfl
    refine ⟨Or.inr ⟨.refresh, task_setTask_self ..⟩, fun u pc hu => ?_, fun _ => ⟨?_, ?_⟩⟩
    · rw [task_insert] at hu
      split at hu
      · assumption
      · rw [hnone u] at hu
        cases hu
    · intro u hu
      rw [task_setTask_of_ne _ _ hu, hnone u]
    · exact (hb.alone (by rw [hnone]; rfl)).2
  | submit t who request now =>
    have h' : beginSubmit s t who request now = some s' := h
    unfold beginSubmit at h'
    split at h'
    · exact booted_spawn h' (fun _ => by simp) hb
    · exact booted_spawn h' (fun _ => by simp) (hb.congr rfl rfl)
  | cancel t id | shutdown t => exact booted_spawn h (fun _ => by simp) hb
  | run t inp => exact booted_run hb h
  | invoke t | finish t result =>
    obtain ⟨call, hcall, h⟩ := Option.bind_eq_some_iff.mp h
    obtain ⟨-, rfl⟩ := Runs.of_guarded h
    exact (booted_setPhase hb hcall).congr rfl rfl
  | drop t =>
    obtain ⟨hawaits, rfl⟩ := Runs.of_guarded h
    obtain ⟨who, request, pc, htask⟩ := submit_of_awaits hawaits
    -- a submission is not the start routine, and it exists only once the repository was read
    have ht : startTask ≠ t := fun he => by
      rcases hb.first with h | ⟨pc', h⟩ <;> rw [he, htask] at h <;> cases h
    have hl := loads_of_task hb ht.symm (by rw [htask]; simp)
    refine .of_loaded ?_ (fun u pc' hu => ?_) ?_
    · rw [task_erase, if_neg ht]
      rcases hb.first with h | h
      · rw [h] at hl
        cases hl
      · exact h
    · rw [task_erase] at hu
      split at hu
      · cases hu
      · exact hb.only u pc' hu
    · rw [task_erase, if_neg ht, hl]
  | discover printers | purge cutoff | retire id =>
    obtain ⟨-, rfl⟩ := Runs.of_guarded h
    exact hb.congr rfl rfl
  | crash =>
    obtain rfl := Option.some_inj.mp h
    exact ⟨Or.inl rfl, fun u pc hu => (by cases hu), fun _ => ⟨fun _ _ => rfl, fun _ => rfl⟩⟩

/-! ### Runs -/

theorem wf_step (hw : Wf s) (h : step env s a = some s') : Wf s' := by
  obtain ⟨mv, -, hx, hstep⟩ := step_refines hw h
  exact ⟨hx, hw.inv.step hstep, booted_step hw.booted h⟩

theorem ledger_init : ledger init = .empty :=
  Ledger.ext rfl rfl (funext fun id => custodyOf_nil (fun _ => rfl) id) rfl rfl rfl

theorem wf_init : Wf init where
  exclusive := exclusive_nil fun _ => rfl
  inv := ledger_init ▸ .empty
  booted := ⟨Or.inl rfl, fun t pc h => (by cases h), fun _ => ⟨fun _ _ => rfl, fun _ => rfl⟩⟩

variable {ok : State → Action → Prop}

/-- **Every state a run reaches is well formed.** -/
theorem wf_of_reach (h : Reach (step env) ok init s) : Wf s :=
  h.invariant wf_init fun _ _ _ _ hw _ hs => wf_step hw hs

/-- **An invariant of the ledger's moves is an invariant of the engine's
runs.** -/
theorem reach_ledger {J : Ledger → Prop}
    (h₀ : J .empty)
    (hstep : ∀ s a mv l', ok s a → mv.Of s a → (ledger s).Inv → J (ledger s) →
      (ledger s).Step mv l' → J l')
    (h : Reach (step env) ok init s) : J (ledger s) :=
  h.invariant (I := fun s => J (ledger s)) (ledger_init ▸ h₀) fun s a s' hr hj hok hs => by
    obtain ⟨mv, hof, -, hmove⟩ := step_refines (wf_of_reach hr) hs
    exact hstep s a mv _ hok hof (wf_of_reach hr).inv hj hmove

/-! ### An engine with one printer -/

def deskPrinter : Printer where
  id := "desk"
  name := "Desk"
  displayName := "Desk printer"
  provider := "spooler"
  connection := .usb
  driver := none
  port := none
  location := none
  default := true
  online := true
  status := .ready
  conditions := []
  queuedJobs := none
  language := none

def desk : Env where
  config := {}
  providers := [{ id := "spooler", supports := fun _ _ => true }]
  renderers := fun _ => some { outputKinds := [.raw], validate := fun _ => .ok () }
  protocols := {}

def clerk : Submitter := { clientId := "clerk", printers := .all }

def receipt (key : Option String) : PrintRequest where
  printer := .id "desk"
  document := .raw [1] none
  copies := 1
  jobName := none
  idempotencyKey := key

/-- `start`, with nothing to reconcile. -/
def booting : List Action :=
  [.start, .run startTask { refreshed := some [deskPrinter] }, .run startTask {},
    .run startTask {}]

/-- `submit` call `t`, up to its item entering the channel of worker `w`. -/
def submitting (t w : TaskId) : List Action :=
  [.submit t clerk (receipt none) 0] ++ List.replicate 16 (.run t {}) ++
    [.run t { fresh := w }, .run t {}]

/-- Worker `w` claims its next item, hands it to the provider and settles the
result. -/
def printing (w : TaskId) (result : CallResult) : List Action :=
  List.replicate 4 (.run w {}) ++ [.invoke w, .finish w result, .run w {}]

/-- The state a run of this engine ends in. -/
def after (run : List Action) : State := (runFrom (step desk) init run).getD init

theorem reach_after (ok : State → Action → Prop) [∀ s a, Decidable (ok s a)] (run : List Action)
    (h : (checked (step desk) (fun s a => decide (ok s a)) init run).isSome = true) :
    Reach (step desk) ok init (after run) := by
  obtain ⟨s, hs⟩ := Option.isSome_iff_exists.mp h
  have hafter : after run = s := by rw [after, runFrom_of_checked hs]; rfl
  rw [hafter]
  exact reach_of_checked (fun s a => of_decide_eq_true) hs

end KilnPrint
