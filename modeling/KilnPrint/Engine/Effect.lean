/-
What an operation does to the shared state.

`exec` is defined by the operation; most properties are about one part of the
state, which most operations leave alone.  `Effect` lists the states an
operation can lead to, one constructor for each way to change something:

* `exec_effect` — every executed operation has one of these effects;
* `Touched`, `exec_tasks` — **other tasks are touched only by spawning workers
  and monitors and by appending to a worker's channel**.
-/
import KilnPrint.Engine.Refine

namespace KilnPrint

variable {env : Env} {s s₁ : State} {t : TaskId} {inp : Input} {o : Origin} {op : Op} {k : Task}

/-- Operations that may leave the shared state as it is. -/
def Op.Idle : Op → Prop
  | skip _ | findByIdempotencyKey .. | get .. | nonTerminal _ | activeJob .. | activeJobs ..
  | readPrinters _ | isShutdown _ | isCancelling .. | jobState .. | insert .. | tryReserve ..
  | senderFor .. | trySend .. | providerCancel .. => True
  | _ => False

/-- The states an operation of task `t` may lead to from `s`. -/
inductive Effect (t : TaskId) (o : Origin) (inp : Input) (s : State) : Op → State → Prop
  | idle {op : Op} (h : op.Idle) : Effect t o inp s op s
  | mutate (id : JobId) (ch : Change) (f : Option Mutated → Task) :
      Effect t o inp s (.mutate id ch f) (s.mutate t o inp id ch).1
  | lockGate (k : Task) (h : s.gate = none) :
      Effect t o inp s (.lockGate k) { s with gate := some t }
  | unlockGate (k : Task) : Effect t o inp s (.unlockGate k) { s with gate := none }
  | insert (job : Job) (f : Except PrintError Unit → Task) :
      Effect t o inp s (.insert job f) { s with repo := s.repo.insert job }
  | activate (job : Job) (announce : Bool) (k : Task) :
      Effect t o inp s (.activate job announce k) (s.activate t job announce)
  | refresh (k : Task) : Effect t o inp s (.refresh k) { s with printers := inp.discovered s }
  | reserve (bytes used : ℕ) (f : Bool → Task) :
      Effect t o inp s (.tryReserve bytes f) { s with used := used }
  | release (bytes used : ℕ) (k : Task) :
      Effect t o inp s (.release bytes k) { s with used := used }
  | spawnWorker (printer : PrinterId) (f : TaskId → Task) (hfresh : s.task inp.fresh = .none)
      (hno : (s.senders.lookup printer).filter s.isOpen = none) :
      Effect t o inp s (.senderFor printer f)
        ({ s with senders := s.senders.insert printer inp.fresh }.setTask inp.fresh
          (.worker { printerId := printer, rx := [], pc := .idle }))
  | send (target : TaskId) (item : QueuedJob) (f : SendResult → Task) (w : Worker)
      (hw : s.task target = .worker w) (hopen : w.pc ≠ .stopped) :
      Effect t o inp s (.trySend target item f)
        ((s.setTask target (.worker { w with rx := w.rx ++ [item] })).note
          (.sent item.jobId w.printerId))
  | dropReceiver (items : List QueuedJob) (used : ℕ) (k : Task) :
      Effect t o inp s (.dropReceiver items k) { s with used := used }
  | cancelToken (k : Task) : Effect t o inp s (.cancelToken k) { s with shutdown := true }
  | startCancelling (id : JobId) (k : Task) :
      Effect t o inp s (.startCancelling id k)
        { s with cancelling := id :: s.cancelling.erase id }
  | stopCancelling (id : JobId) (k : Task) :
      Effect t o inp s (.stopCancelling id k)
        { s with cancelling := s.cancelling.filter (· ≠ id) }
  | delete (id : JobId) (f : Except PrintError Unit → Task)
      (hqueued : s.spooler.lookup id = some .queued) (hok : inp.cancelled = .ok ()) :
      Effect t o inp s (.providerCancel id f)
        ({ s with spooler := s.spooler.insert id .deleted }.note (.deleted id))
  | spawnMonitor (id : JobId) (printer : Printer) (spoolerJobId : ℕ) (k : Task)
      (hfresh : s.task inp.fresh = .none) :
      Effect t o inp s (.spawnMonitor id printer spoolerJobId k)
        (s.setTask inp.fresh (.monitor
          { jobId := id, printer := printer, spoolerJobId := spoolerJobId, pc := .spawned }))

/-- **Every executed operation has one of these effects.** -/
theorem exec_effect (h : exec env t o inp s op = some (s₁, k)) : Effect t o inp s op s₁ := by
  have hpair : ∀ {a : State} {b : Task}, some (a, b) = some (s₁, k) → a = s₁ :=
    fun h => (Prod.mk.inj (Option.some_inj.mp h)).1
  -- one effect for each kind of operation; those that only read or branch have none
  cases op with
  | await => simp [exec] at h
  | mutate id ch f =>
    obtain ⟨rfl, -⟩ : (s.mutate t o inp id ch).1 = s₁ ∧ _ := Prod.mk.inj (Option.some_inj.mp h)
    exact .mutate id ch f
  | lockGate k' =>
    simp only [exec] at h
    split at h
    · next hnone => exact hpair h ▸ .lockGate k' (by simpa using hnone)
    · cases h
  | unlockGate k' => exact hpair h ▸ .unlockGate k'
  | insert job f =>
    have hs : (if inp.repoOk then { s with repo := s.repo.insert job } else s) = s₁ := hpair h
    split at hs
    · exact hs ▸ .insert job f
    · exact hs ▸ .idle trivial
  | activate job announce k' => exact hpair h ▸ .activate job announce k'
  | refresh k' => exact hpair h ▸ .refresh k'
  | tryReserve bytes f =>
    simp only [exec] at h
    split at h
    · exact hpair h ▸ .reserve bytes _ f
    · exact hpair h ▸ .idle trivial
  | release bytes k' => exact hpair h ▸ .release bytes _ k'
  | senderFor printer f =>
    simp only [exec] at h
    split at h
    · exact hpair h ▸ .idle trivial
    · next hno =>
      split at h
      · next hfresh => exact hpair h ▸ .spawnWorker printer f (task_eq_none hfresh) hno
      · cases h
  | trySend target item f =>
    simp only [exec] at h
    split at h
    · next w hw =>
      split at h
      · exact hpair h ▸ .idle trivial
      · next hopen =>
        split at h
        · exact hpair h ▸ .send target item f w hw hopen
        · exact hpair h ▸ .idle trivial
    · exact hpair h ▸ .idle trivial
  | dropReceiver items k' => exact hpair h ▸ .dropReceiver items _ k'
  | cancelToken k' => exact hpair h ▸ .cancelToken k'
  | startCancelling id k' => exact hpair h ▸ .startCancelling id k'
  | stopCancelling id k' => exact hpair h ▸ .stopCancelling id k'
  | providerCancel id f =>
    simp only [exec] at h
    split at h
    · next hok =>
      split at h
      · next hqueued => exact hpair h ▸ .delete id f hqueued hok
      · exact hpair h ▸ .idle trivial
    · exact hpair h ▸ .idle trivial
  | jobState id f =>
    simp only [exec] at h
    split at h
    · cases h
    · exact hpair h ▸ .idle trivial
  | spawnMonitor id printer spoolerJobId k' =>
    simp only [exec] at h
    split at h
    · next hfresh => exact hpair h ▸ .spawnMonitor id printer spoolerJobId k' (task_eq_none hfresh)
    · cases h
  | _ => exact hpair h ▸ .idle trivial

/-! ### Other tasks -/

/-- How an operation may change the task `old` of another number. -/
inductive Touched : Task → Task → Prop
  | same (task : Task) : Touched task task
  | workerSpawned (printer : PrinterId) :
      Touched .none (.worker { printerId := printer, rx := [], pc := .idle })
  | monitorSpawned (id : JobId) (printer : Printer) (spoolerJobId : ℕ) :
      Touched .none (.monitor
        { jobId := id, printer := printer, spoolerJobId := spoolerJobId, pc := .spawned })
  | appended (w : Worker) (item : QueuedJob) (h : w.pc ≠ .stopped) :
      Touched (.worker w) (.worker { w with rx := w.rx ++ [item] })

theorem touched_setTask {u : TaskId} {task : Task} (hs : Touched (s.task u) task) (v : TaskId) :
    Touched (s.task v) ((s.setTask u task).task v) := by
  rw [task_insert]
  split
  · next h => rw [h]; exact hs
  · exact .same _

/-- **Other tasks are touched only by spawning and sending.** -/
theorem exec_tasks (h : exec env t o inp s op = some (s₁, k)) (u : TaskId) :
    Touched (s.task u) (s₁.task u) := by
  cases exec_effect h with
  | mutate id ch f =>
    rw [State.task, State.task, tasks_mutate]
    exact .same _
  | spawnWorker printer f hfresh hno =>
    exact touched_setTask (s := { s with senders := s.senders.insert printer inp.fresh })
      (hfresh ▸ .workerSpawned printer) u
  | send target item f w hw hopen => exact touched_setTask (hw ▸ .appended w item hopen) u
  | spawnMonitor id printer spoolerJobId k' hfresh =>
    exact touched_setTask (hfresh ▸ .monitorSpawned id printer spoolerJobId) u
  | _ => exact .same _

end KilnPrint
