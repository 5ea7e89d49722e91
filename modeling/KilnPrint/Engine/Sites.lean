/-
Where the operations are performed, and what each step writes in the history.

* `Site`, `code_site` — **the points a shared operation is performed at**: from an
  operation back to the task and its local variables;
* `Logs`, `step_logs` — **what a step appends to the log**, and the action it was;
* `step_cancelling`, `step_spooler`, `step_channel` — how the set of cancellations in
  flight, the spoolers and the channels change.
-/
import KilnPrint.Engine.TaskStep

namespace KilnPrint

/-! ### Sites -/

/-- The operations performed at many points, which say nothing about where. -/
def Op.Plain : Op → Prop
  | mutate .. | activate .. | senderFor .. | trySend .. | dropReceiver .. | cancelToken _
  | startCancelling .. | stopCancelling .. | isCancelling .. | providerCancel .. | jobState ..
  | spawnMonitor .. => False
  | _ => True

/-- The point at which a task performs an operation. -/
inductive Site : Task → Op → Prop
  | plain {task : Task} {op : Op} (h : op.Plain) : Site task op
  | announce {who : Submitter} {request : PrintRequest} {job : Job} {k : Task} :
      Site (.submit who request (.activate job)) (.activate job true k)
  | sender {who : Submitter} {request : PrintRequest} {p : Prepared} {job : Job}
      {f : TaskId → Task} :
      Site (.submit who request (.sender p job)) (.senderFor p.printer.id f)
  | send {who : Submitter} {request : PrintRequest} {p : Prepared} {job : Job}
      {target : TaskId} {f : SendResult → Task} :
      Site (.submit who request (.send p job target))
        (.trySend target ⟨p.jobId, p.printer, p.spec, p.size⟩ f)
  | stop {printer : PrinterId} {rx : List QueuedJob} {k : Task} :
      Site (.worker ⟨printer, rx, .stopping⟩) (.dropReceiver rx k)
  | watch {printer : PrinterId} {rx : List QueuedJob} {id : JobId} {p : Printer}
      {spoolerJobId : ℕ} {k : Task} :
      Site (.worker ⟨printer, rx, .watch id p spoolerJobId⟩) (.spawnMonitor id p spoolerJobId k)
  | query {id : JobId} {p : Printer} {spoolerJobId : ℕ}
      {f : Except PrintError ProviderJobState → Task} :
      Site (.monitor ⟨id, p, spoolerJobId, .query⟩) (.jobState id f)
  | gone {id : JobId} {p : Printer} {spoolerJobId : ℕ} {f : Bool → Task} :
      Site (.monitor ⟨id, p, spoolerJobId, .gone⟩) (.isCancelling id f)
  | observe {id : JobId} {p : Printer} {spoolerJobId : ℕ} {state : ProviderJobState}
      {cancelling : Bool} {f : Option Mutated → Task} :
      Site (.monitor ⟨id, p, spoolerJobId, .apply state cancelling⟩)
        (.mutate id (observedChange state cancelling) f)
  | guard {id : JobId} {p : Printer} {spoolerJobId : ℕ} {k : Task} :
      Site (.cancel id (.guard p spoolerJobId)) (.startCancelling id k)
  | delete {id : JobId} {p : Printer} {spoolerJobId : ℕ} {f : Except PrintError Unit → Task} :
      Site (.cancel id (.deleting p spoolerJobId)) (.providerCancel id f)
  | unguard {id : JobId} {result : Except PrintError (Option Job)} {k : Task} :
      Site (.cancel id (.unguard result)) (.stopCancelling id k)
  | shutdown {k : Task} : Site (.shutdown .cancel) (.cancelToken k)
  | reopen {jobs : List Job} {job : Job} {k : Task} (h : job ∈ jobs) :
      Site (.start (.reconcile jobs)) (.activate job false k)
  | rewatch {job : Job} {p p' : Printer} {rest : List Job} {spoolerJobId : ℕ} {k : Task} :
      Site (.start (.settle job (some p) rest)) (.spawnMonitor job.jobId p' spoolerJobId k)
  | change {task : Task} {id : JobId} {ch : Change} {f : Option Mutated → Task}
      (h : ∀ evidence, ch = .complete evidence → evidence = .bytesDelivered) :
      Site task (.mutate id ch f)

variable {env : Env} {inp : Input} {s s' : State} {a : Action}

theorem submit_site (who : Submitter) (request : PrintRequest) (pc : SubmitPc) :
    Site (.submit who request pc) (submitCode env who request inp pc) := by
  cases pc with
  | activate => exact .announce
  | sender => exact .sender
  | send => exact .send
  | validate | assign | queue | settle => exact .change fun _ h => (by cases h)
  | check | render =>
    simp only [submitCode]
    split <;> exact .plain trivial
  | _ => exact .plain trivial

theorem worker_site (w : Worker) : Site (.worker w) (workerCode env w inp) := by
  obtain ⟨printer, rx, pc⟩ := w
  have hsettle : ∀ result evidence, settleCall result = .complete evidence →
      evidence = .bytesDelivered := by
    intro result evidence h
    rcases result with (_ | _) | _ | _ <;> cases h
  cases pc with
  | polling => cases rx <;> exact .plain trivial
  | stopping => exact .stop
  | watch => exact .watch
  | claim | failing => exact .change fun _ h => (by cases h)
  | calling call =>
    simp only [workerCode]
    split
    · exact .change fun _ h => (by cases h)
    · split
      · exact .change (hsettle _)
      · exact .plain trivial
  | late call =>
    simp only [workerCode]
    split <;> exact .plain trivial
  | _ => exact .plain trivial

theorem monitor_site (m : Monitor) : Site (.monitor m) (monitorCode env m) := by
  obtain ⟨id, printer, spoolerJobId, pc⟩ := m
  cases pc with
  | spawned =>
    simp only [monitorCode]
    split <;> exact .plain trivial
  | query => exact .query
  | gone => exact .gone
  | apply => exact .observe
  | _ => exact .plain trivial

theorem cancel_site (id : JobId) (pc : CancelPc) : Site (.cancel id pc) (cancelCode env id pc) := by
  cases pc with
  | guard => exact .guard
  | deleting => exact .delete
  | unguard => exact .unguard
  | cancelQueued | settle => exact .change fun _ h => (by cases h)
  | _ => exact .plain trivial

theorem shutdown_site (pc : ShutdownPc) : Site (.shutdown pc) (shutdownCode inp pc) := by
  cases pc with
  | cancel => exact .shutdown
  | failing todo =>
    cases todo with
    | nil => exact .plain trivial
    | cons id rest =>
      simp only [shutdownCode]
      split
      · exact .change fun _ h => (by cases h)
      · exact .plain trivial
  | _ => exact .plain trivial

theorem start_site (pc : StartPc) : Site (.start pc) (startCode inp pc) := by
  cases pc with
  | reconcile jobs =>
    cases jobs with
    | nil => exact .plain trivial
    | cons job rest =>
      simp only [startCode]
      split
      · next h => exact .reopen (List.mem_of_getElem? h)
      · exact .plain trivial
  | settle job printer rest =>
    simp only [startCode]
    split
    · next h =>
      obtain ⟨-, -, rfl⟩ := reconciled_watch h
      exact .rewatch
    · next h =>
      refine .change fun evidence he => ?_
      subst he
      rcases reconciled_close h with ⟨he, -⟩ | ⟨e, he, -⟩ <;> cases he
      rfl
  | _ => exact .plain trivial

/-- **Every operation is performed at its site.** -/
theorem code_site (task : Task) : Site task (code env inp task) := by
  cases task with
  | none => exact .plain trivial
  | submit who request pc => exact submit_site who request pc
  | worker w => exact worker_site w
  | monitor m => exact monitor_site m
  | cancel id pc => exact cancel_site id pc
  | shutdown pc => exact shutdown_site pc
  | start pc => exact start_site pc

/-! ### The history -/

/-- What the step `a` from `s` appends to the log. -/
inductive Logs (env : Env) (s : State) (a : Action) : List Entry → Prop
  | silent : Logs env s a []
  | applied {t : TaskId} {inp : Input} {id : JobId} {ch : Change} {f : Option Mutated → Task}
      {j : Job} (ha : a = .run t inp) (hp : s.pendingEvent t = none)
      (hop : code env inp (s.task t) = .mutate id ch f) (hj : s.active.lookup id = some j) :
      Logs env s a [ch.entry (s.task t).origin inp.reading id j]
  | created {t : TaskId} {inp : Input} {who : Submitter} {request : PrintRequest} {job : Job}
      (ha : a = .run t inp) (hp : s.pendingEvent t = none)
      (htask : s.task t = .submit who request (.activate job)) : Logs env s a [.created job]
  | sent {t : TaskId} {inp : Input} {who : Submitter} {request : PrintRequest} {p : Prepared}
      {job : Job} {target : TaskId} {w : Worker} (ha : a = .run t inp)
      (hp : s.pendingEvent t = none) (htask : s.task t = .submit who request (.send p job target))
      (hw : s.task target = .worker w) (hopen : w.pc ≠ .stopped) :
      Logs env s a [.sent p.jobId w.printerId]
  | invoked {t : TaskId} {call : Call} (ha : a = .invoke t) (hcall : s.call t = some call)
      (hphase : call.phase = .spawned) : Logs env s a [.invoked call.jobId call.printer.id]
  | returned {t : TaskId} {call : Call} {result : CallResult} (ha : a = .finish t result)
      (hcall : s.call t = some call) (hphase : call.phase = .running) :
      Logs env s a [.returned call.jobId call.printer.id]
  | deleted {t : TaskId} {inp : Input} {id : JobId} {p : Printer} {spoolerJobId : ℕ}
      (ha : a = .run t inp) (hp : s.pendingEvent t = none)
      (htask : s.task t = .cancel id (.deleting p spoolerJobId))
      (hok : inp.cancelled = .ok ()) (hqueued : s.spooler.lookup id = some .queued) :
      Logs env s a [.deleted id]
  | crashed (ha : a = .crash) : Logs env s a [.crashed]

theorem log_setPhase (s : State) (t : TaskId) (phase : CallPhase) :
    (s.setPhase t phase).log = s.log := by
  unfold State.setPhase
  repeat' split
  all_goals rfl

/-- **What a step appends to the log.** -/
theorem step_logs (h : step env s a = some s') : ∃ es, s'.log = s.log ++ es ∧ Logs env s a es := by
  have hsilent : s'.log = s.log → ∃ es, s'.log = s.log ++ es ∧ Logs env s a es :=
    fun hlog => ⟨[], by rw [hlog, List.append_nil], .silent⟩
  cases a with
  | start | drop t | discover printers | purge cutoff | retire id =>
    obtain ⟨-, rfl⟩ := Runs.of_guarded h
    exact hsilent rfl
  | submit t who request now =>
    have h' : beginSubmit s t who request now = some s' := h
    unfold beginSubmit at h'
    split at h' <;> obtain ⟨-, -, rfl⟩ := spawn_eq_some h' <;> exact hsilent rfl
  | cancel t id | shutdown t =>
    obtain ⟨-, -, rfl⟩ := spawn_eq_some h
    exact hsilent rfl
  | run t inp =>
    rcases runTask_eq h with ⟨e, rfl⟩ | ⟨hp, s₁, k, hex, rfl⟩
    · exact hsilent rfl
    · show ∃ es, s₁.log = s.log ++ es ∧ _
      have hsite : Site (s.task t) (code env inp (s.task t)) := code_site _
      generalize htask : s.task t = task at hsite hex
      generalize hop : code env inp task = op at hsite hex
      cases exec_effect hex with
      | mutate id ch f =>
        cases hj : s.active.lookup id with
        | none => exact hsilent (by rw [mutate_none hj]; rfl)
        | some j =>
          have hled : ledger (s.mutate t task.origin inp id ch).1 =
              (ledger s).change task.origin inp.reading id ch j := (mutate_some hj).2.2
          refine ⟨_, congrArg Ledger.log hled, ?_⟩
          have hop' : code env inp (s.task t) = .mutate id ch f := by rw [htask, hop]
          rw [← htask]
          exact .applied rfl hp hop' hj
      | activate job announce k' =>
        cases hsite with
        | plain hplain => exact absurd hplain not_false
        | announce => exact ⟨[.created job], rfl, .created rfl hp htask⟩
        | reopen => exact ⟨[], rfl, .silent⟩
      | send target item f w hw hopen =>
        cases hsite with
        | plain hplain => exact absurd hplain not_false
        | send => exact ⟨_, rfl, .sent rfl hp htask hw hopen⟩
      | delete id f hqueued hok =>
        cases hsite with
        | plain hplain => exact absurd hplain not_false
        | delete => exact ⟨_, rfl, .deleted rfl hp htask hok hqueued⟩
      | _ => exact hsilent rfl
  | invoke t =>
    obtain ⟨call, hcall, h⟩ := Option.bind_eq_some_iff.mp h
    obtain ⟨hspawned, rfl⟩ := Runs.of_guarded h
    exact ⟨_, congrArg (· ++ _) (log_setPhase ..), .invoked rfl hcall hspawned⟩
  | finish t result =>
    obtain ⟨call, hcall, h⟩ := Option.bind_eq_some_iff.mp h
    obtain ⟨hrunning, rfl⟩ := Runs.of_guarded h
    exact ⟨_, congrArg (· ++ _) (log_setPhase ..), .returned rfl hcall hrunning⟩
  | crash =>
    obtain rfl := Option.some_inj.mp h
    exact ⟨_, rfl, .crashed rfl⟩

/-! ### Cancellations in flight -/

/-- **The set of cancellations in flight** changes where a cancel call guards its
job and where it is done with it. -/
theorem step_cancelling (h : step env s a = some s') :
    s'.cancelling = s.cancelling ∨ a = .crash ∨
    ∃ t inp id, a = .run t inp ∧ s.pendingEvent t = none ∧
      ((∃ p spoolerJobId, s.task t = .cancel id (.guard p spoolerJobId) ∧
          s'.cancelling = id :: s.cancelling.erase id) ∨
        ∃ result, s.task t = .cancel id (.unguard result) ∧
          s'.cancelling = s.cancelling.filter (· ≠ id)) := by
  rcases step_shared h with ⟨t, inp, rfl⟩ | rfl | ⟨-, hsame⟩
  · rcases runTask_eq h with ⟨e, rfl⟩ | ⟨hp, s₁, k, hex, rfl⟩
    · exact Or.inl rfl
    · have hsite : Site (s.task t) (code env inp (s.task t)) := code_site _
      generalize htask : s.task t = task at hsite hex
      generalize hop : code env inp task = op at hsite hex
      cases exec_effect hex with
      | startCancelling id k' =>
        cases hsite with
        | plain hplain => exact absurd hplain not_false
        | guard => exact Or.inr (Or.inr ⟨t, inp, id, rfl, hp, Or.inl ⟨_, _, htask, rfl⟩⟩)
      | stopCancelling id k' =>
        cases hsite with
        | plain hplain => exact absurd hplain not_false
        | unguard => exact Or.inr (Or.inr ⟨t, inp, id, rfl, hp, Or.inr ⟨_, htask, rfl⟩⟩)
      | mutate id ch f =>
        refine Or.inl ?_
        show (s.mutate t task.origin inp id ch).1.cancelling = s.cancelling
        unfold State.mutate
        split <;> rfl
      | _ => exact Or.inl rfl
  · exact Or.inr (Or.inl rfl)
  · exact Or.inl hsame.cancelling

/-! ### The spoolers -/

theorem spooler_setPhase (s : State) (t : TaskId) (phase : CallPhase) :
    (s.setPhase t phase).spooler = s.spooler := by
  unfold State.setPhase
  repeat' split
  all_goals rfl

/-- **What the spoolers hold** changes when a call returns, when a cancel call
deletes a job, and when a job prints. -/
theorem step_spooler (h : step env s a = some s') :
    s'.spooler = s.spooler ∨
    (∃ t call result, a = .finish t result ∧ s.call t = some call ∧ call.phase = .running ∧
      s'.spooler = spooledBy s.spooler call.jobId result) ∨
    (∃ t inp id p spoolerJobId, a = .run t inp ∧ s.pendingEvent t = none ∧
      s.task t = .cancel id (.deleting p spoolerJobId) ∧ s.spooler.lookup id = some .queued ∧
      s'.spooler = s.spooler.insert id .deleted) ∨
    ∃ id, s.spooler.lookup id = some .queued ∧ s'.spooler = s.spooler.insert id .left := by
  cases a with
  | start | drop t | discover printers | purge cutoff =>
    obtain ⟨-, rfl⟩ := Runs.of_guarded h
    exact Or.inl rfl
  | retire id =>
    obtain ⟨hqueued, rfl⟩ := Runs.of_guarded h
    exact Or.inr (Or.inr (Or.inr ⟨id, hqueued, rfl⟩))
  | submit t who request now =>
    have h' : beginSubmit s t who request now = some s' := h
    unfold beginSubmit at h'
    split at h' <;> obtain ⟨-, -, rfl⟩ := spawn_eq_some h' <;> exact Or.inl rfl
  | cancel t id | shutdown t =>
    obtain ⟨-, -, rfl⟩ := spawn_eq_some h
    exact Or.inl rfl
  | run t inp =>
    rcases runTask_eq h with ⟨e, rfl⟩ | ⟨hp, s₁, k, hex, rfl⟩
    · exact Or.inl rfl
    · have hsite : Site (s.task t) (code env inp (s.task t)) := code_site _
      generalize htask : s.task t = task at hsite hex
      generalize hop : code env inp task = op at hsite hex
      cases exec_effect hex with
      | delete id f hqueued hok =>
        cases hsite with
        | plain hplain => exact absurd hplain not_false
        | delete =>
          exact Or.inr (Or.inr (Or.inl ⟨t, inp, id, _, _, rfl, hp, htask, hqueued, rfl⟩))
      | mutate id ch f =>
        refine Or.inl ?_
        show (s.mutate t task.origin inp id ch).1.spooler = s.spooler
        unfold State.mutate
        split <;> rfl
      | _ => exact Or.inl rfl
  | invoke t =>
    obtain ⟨call, -, h⟩ := Option.bind_eq_some_iff.mp h
    obtain ⟨-, rfl⟩ := Runs.of_guarded h
    exact Or.inl (spooler_setPhase ..)
  | finish t result =>
    obtain ⟨call, hcall, h⟩ := Option.bind_eq_some_iff.mp h
    obtain ⟨hrunning, rfl⟩ := Runs.of_guarded h
    exact Or.inr (Or.inl ⟨t, call, result, rfl, hcall, hrunning, rfl⟩)
  | crash =>
    obtain rfl := Option.some_inj.mp h
    exact Or.inl rfl

/-! ### Channels -/

/-- A worker's own steps only take items out of its channel. -/
theorem code_channel {w w' : Worker} (h : (code env inp (.worker w)).Continues (.worker w')) :
    w'.rx <:+ w.rx := by
  obtain ⟨printer, rx, pc⟩ := w
  cases pc with
  | polling =>
    cases rx with
    | nil =>
      cases h
      exact List.suffix_rfl
    | cons item rest =>
      cases h
      exact List.suffix_cons _ _
  | stopping =>
    cases h
    exact List.nil_suffix
  | discard | watch =>
    cases h
    exact List.suffix_rfl
  | idle | claim | lookup | failing =>
    obtain ⟨r, hr⟩ := h
    dsimp only at hr
    repeat' split at hr
    all_goals
      cases hr
      exact List.suffix_rfl
  | calling call =>
    simp only [code, workerCode] at h
    repeat' split at h
    all_goals first
      | (obtain ⟨r, hr⟩ := h
         cases hr
         exact List.suffix_rfl)
      | exact absurd h not_false
  | late call =>
    simp only [code, workerCode] at h
    split at h
    · cases h
      exact List.suffix_rfl
    · exact absurd h not_false
  | stopped => exact absurd h not_false

/-- A worker was as it is, is new, was sent an item, proceeded, or its blocking call
did. -/
inductive WorkerStep (env : Env) (s : State) (a : Action) (s' : State) (u : TaskId) (w' : Worker) :
    Prop
  | same (hold : s.task u = .worker w')
  | spawned {t : TaskId} {inp : Input} {who : Submitter} {request : PrintRequest} {p : Prepared}
      {job : Job} (ha : a = .run t inp) (htask : s.task t = .submit who request (.sender p job))
      (hold : s.task u = .none) (hnew : w' = ⟨p.printer.id, [], .idle⟩)
      (hsenders : s'.senders = s.senders.insert p.printer.id u)
  | appended {t : TaskId} {inp : Input} {who : Submitter} {request : PrintRequest} {p : Prepared}
      {job : Job} {w : Worker} (ha : a = .run t inp)
      (htask : s.task t = .submit who request (.send p job u)) (hold : s.task u = .worker w)
      (hopen : w.pc ≠ .stopped)
      (hnew : w' = { w with rx := w.rx ++ [⟨p.jobId, p.printer, p.spec, p.size⟩] })
      (hlog : s'.log = s.log ++ [.sent p.jobId w.printerId])
  | ran {inp : Input} {w : Worker} (ha : a = .run u inp) (hold : s.task u = .worker w)
      (hcode : (code env inp (.worker w)).Continues (.worker w'))
  | phase {call : Call} {phase : CallPhase} {printer : PrinterId} {rx : List QueuedJob}
      {pc : Call → WorkerPc} (hpc : pc = .calling ∨ pc = .late)
      (ha : a = .invoke u ∧ call.phase = .spawned ∧ phase = .running ∨
        ∃ result, a = .finish u result ∧ call.phase = .running ∧ phase = .finished result)
      (hold : s.task u = .worker ⟨printer, rx, pc call⟩)
      (hnew : w' = ⟨printer, rx, pc { call with phase := phase }⟩)

/-- Another task than the worker's own proceeds. -/
theorem exec_worker {u : TaskId} {w' : Worker} {s₁ : State} {k : Task} (hu : u ≠ t)
    (hex : exec env t (s.task t).origin inp s (code env inp (s.task t)) = some (s₁, k))
    (hw' : (s₁.setTask t k).task u = .worker w') :
    WorkerStep env s (.run t inp) (s₁.setTask t k) u w' := by
  rw [task_setTask_of_ne _ _ hu] at hw'
  have hsame : s₁.task u = s.task u → WorkerStep env s (.run t inp) (s₁.setTask t k) u w' := by
    intro he
    exact .same (he.symm.trans hw')
  have hsite : Site (s.task t) (code env inp (s.task t)) := code_site _
  generalize htask : s.task t = task at hsite hex
  generalize hop : code env inp task = op at hsite hex
  cases exec_effect hex with
  | send target item f w hw hopen =>
    cases hsite with
    | plain hplain => exact absurd hplain not_false
    | send =>
      by_cases htarget : u = target
      · subst htarget
        have hset := (task_setTask_self s u _).symm.trans hw'
        obtain rfl := Task.worker.inj hset
        exact .appended rfl htask hw hopen rfl rfl
      · exact hsame (task_setTask_of_ne s _ htarget)
  | spawnWorker printer f hfresh hno =>
    cases hsite with
    | plain hplain => exact absurd hplain not_false
    | sender =>
      by_cases hfr : u = inp.fresh
      · subst hfr
        rw [task_setTask_self] at hw'
        obtain rfl := Task.worker.inj hw'
        exact .spawned rfl htask hfresh rfl rfl
      · exact hsame (task_setTask_of_ne _ _ hfr)
  | spawnMonitor id printer spoolerJobId k' hfresh =>
    by_cases hfr : u = inp.fresh
    · subst hfr
      rw [task_setTask_self] at hw'
      cases hw'
    · exact hsame (task_setTask_of_ne _ _ hfr)
  | mutate id ch f =>
    refine hsame ?_
    rw [State.task, State.task, tasks_mutate]
  | _ => exact hsame rfl

/-- **Every step, seen from a worker.** -/
theorem step_worker (h : step env s a = some s') {u : TaskId} {w' : Worker}
    (hw' : s'.task u = .worker w') : WorkerStep env s a s' u w' := by
  -- a call that arrives is no worker
  have hspawn : ∀ {s₁ : State} {t : TaskId} {task : Task}, s₁.spawn t task = some s' →
      s₁.tasks = s.tasks → (∀ w, task ≠ .worker w) → s.task u = .worker w' := by
    intro s₁ t task hs htasks hne
    obtain ⟨-, htask⟩ := spawn_task (u := u) hs
    -- the worker that ran, or one that can only have been sent an item
    by_cases hu : u = t
    · rw [if_pos hu] at htask
      exact absurd (htask.symm.trans hw') (hne w')
    · rw [if_neg hu] at htask
      rw [State.task, ← htasks]
      exact htask.symm.trans hw'
  cases a with
  | start =>
    obtain ⟨-, rfl⟩ := Runs.of_guarded h
    rw [task_insert] at hw'
    split at hw'
    · cases hw'
    · exact .same hw'
  | submit t who request now =>
    have h' : beginSubmit s t who request now = some s' := h
    unfold beginSubmit at h'
    split at h' <;> exact .same (hspawn h' rfl fun w hne => by cases hne)
  | cancel t id | shutdown t => exact .same (hspawn h rfl fun w hne => by cases hne)
  | run t inp =>
    rcases runTask_eq h with ⟨e, rfl⟩ | ⟨hp, s₁, k, hex, rfl⟩
    · exact .same hw'
    · by_cases hu : u = t
      · subst hu
        rw [task_setTask_self] at hw'
        subst hw'
        obtain ⟨w, hw, -⟩ := kind_eq_worker.mp (code_kind (exec_continues hex)).symm
        rw [hw] at hex
        exact .ran rfl hw (exec_continues hex)
      · exact exec_worker hu hex hw'
  | invoke t =>
    obtain ⟨call, hcall, h⟩ := Option.bind_eq_some_iff.mp h
    obtain ⟨printer, rx, pc, hpc, htask, hset⟩ := call_eq_some hcall
    obtain ⟨hphase, rfl⟩ := Runs.of_guarded h
    rw [hset] at hw' ⊢
    by_cases hu : u = t
    · subst hu
      have hnew := Task.worker.inj ((task_setTask_self s u _).symm.trans hw')
      exact .phase hpc (.inl ⟨rfl, hphase, rfl⟩) htask hnew.symm
    · exact .same ((task_setTask_of_ne s _ hu).symm.trans hw')
  | finish t result =>
    obtain ⟨call, hcall, h⟩ := Option.bind_eq_some_iff.mp h
    obtain ⟨printer, rx, pc, hpc, htask, hset⟩ := call_eq_some hcall
    obtain ⟨hphase, rfl⟩ := Runs.of_guarded h
    rw [hset] at hw' ⊢
    by_cases hu : u = t
    · subst hu
      have hnew := Task.worker.inj ((task_setTask_self s u _).symm.trans hw')
      exact .phase hpc (.inr ⟨result, rfl, hphase, rfl⟩) htask hnew.symm
    · exact .same ((task_setTask_of_ne s _ hu).symm.trans hw')
  | drop t =>
    obtain ⟨-, rfl⟩ := Runs.of_guarded h
    rw [task_erase] at hw'
    split at hw'
    · cases hw'
    · exact .same hw'
  | discover printers | purge cutoff | retire id =>
    obtain ⟨-, rfl⟩ := Runs.of_guarded h
    exact .same hw'
  | crash =>
    obtain rfl := Option.some_inj.mp h
    cases hw'

/-- **An item enters a channel where a submit call sends it.** -/
theorem step_channel (h : step env s a = some s') {u : TaskId} {w w' : Worker}
    (hw : s.task u = .worker w) (hw' : s'.task u = .worker w') :
    w'.rx <:+ w.rx ∨ ∃ t inp who request p job, a = .run t inp ∧
      s.task t = .submit who request (.send p job u) ∧
      w'.rx = w.rx ++ [⟨p.jobId, p.printer, p.spec, p.size⟩] := by
  cases step_worker h hw' with
  | same hold =>
    obtain rfl := Task.worker.inj (hw.symm.trans hold)
    exact .inl List.suffix_rfl
  | spawned ha htask hold hnew hsenders =>
    rw [hw] at hold
    cases hold
  | appended ha htask hold hopen hnew hlog =>
    obtain rfl := Task.worker.inj (hw.symm.trans hold)
    subst hnew
    exact .inr ⟨_, _, _, _, _, _, ha, htask, rfl⟩
  | ran ha hold hcode =>
    obtain rfl := Task.worker.inj (hw.symm.trans hold)
    exact .inl (code_channel hcode)
  | phase hpc ha hold hnew =>
    obtain rfl := Task.worker.inj (hw.symm.trans hold)
    subst hnew
    exact .inl List.suffix_rfl

end KilnPrint
