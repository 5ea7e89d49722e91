/-
What a task's next point can be.

* `Task.kind` — which routine a task runs, and on whose behalf;
* `SubmitFlow`, `submit_flow` — the order of the points of a submit call;
* `Worker.Turns`, `worker_turns` — what a worker's step does to its channel;
* `code_kind` — **a task's next local state is of its own kind**.
-/
import KilnPrint.Engine.Effect

namespace KilnPrint

inductive TaskKind
  | none
  | submit (who : Submitter) (request : PrintRequest)
  | worker (printer : PrinterId)
  | monitor (id : JobId) (printer : Printer) (spoolerJobId : ℕ)
  | cancel (id : JobId)
  | shutdown
  | start

def Task.kind : Task → TaskKind
  | none => .none
  | submit who request _ => .submit who request
  | worker w => .worker w.printerId
  | monitor m => .monitor m.jobId m.printer m.spoolerJobId
  | cancel id _ => .cancel id
  | shutdown _ => .shutdown
  | start _ => .start

variable {env : Env} {s s₁ : State} {t : TaskId} {inp : Input} {o : Origin} {op : Op} {k : Task}

/-- The job of a call, at the points that may refuse it. -/
def SubmitPc.judging : SubmitPc → Option JobId
  | check id | resolve id _ | route id _ | inspecting id _ | render id _ _ _
  | rendering id _ _ _ => some id
  | reserve p => some p.jobId
  | _ => none

/-- **The order of the points of a submit call.** -/
inductive SubmitFlow : SubmitPc → SubmitPc → Prop
  | lookup (job : Job) : SubmitFlow (.enter job) (.lookup job)
  | insert (job : Job) : SubmitFlow (.enter job) (.insert job)
  | existing (job stored : Job) : SubmitFlow (.lookup job) (.existing stored)
  | unknown (job : Job) : SubmitFlow (.lookup job) (.insert job)
  | lookupFailed (job : Job) (e : PrintError) : SubmitFlow (.lookup job) (.exit (.error e))
  | found (stored job : Job) : SubmitFlow (.existing stored) (.exit (.ok job))
  | inserted (job : Job) : SubmitFlow (.insert job) (.activate job)
  | insertFailed (job : Job) (e : PrintError) : SubmitFlow (.insert job) (.exit (.error e))
  | exited (result : Except PrintError Job) : SubmitFlow (.exit result) (.done result)
  | activated (job : Job) : SubmitFlow (.activate job) (.leave job.jobId)
  | left (id : JobId) : SubmitFlow (.leave id) (.validate id)
  | validated (id : JobId) : SubmitFlow (.validate id) (.check id)
  | checked (id : JobId) : SubmitFlow (.check id) (.resolve id false)
  | refreshing (id : JobId) (again : Bool) : SubmitFlow (.resolve id again) (.refreshing id)
  | refreshed (id : JobId) : SubmitFlow (.refreshing id) (.resolve id true)
  | resolved (id : JobId) (again : Bool) (printer : Printer) :
      SubmitFlow (.resolve id again) (.assign id printer)
  | assigned (id : JobId) (printer : Printer) : SubmitFlow (.assign id printer) (.route id printer)
  | inspecting (id : JobId) (printer : Printer) :
      SubmitFlow (.route id printer) (.inspecting id printer)
  | routed (id : JobId) (printer : Printer) (warnings : List String) (language : Option String) :
      SubmitFlow (.route id printer) (.render id printer warnings language)
  | inspected (id : JobId) (printer : Printer) (warnings : List String)
      (language : Option String) :
      SubmitFlow (.inspecting id printer) (.render id printer warnings language)
  | rendering (id : JobId) (printer : Printer) (warnings : List String)
      (language : Option String) :
      SubmitFlow (.render id printer warnings language) (.rendering id printer warnings language)
  | rendered (id : JobId) (printer : Printer) (warnings : List String)
      (language language' : Option String) (payload : PrintPayload) :
      SubmitFlow (.rendering id printer warnings language)
        (.name id printer warnings language' payload)
  | prepared (id : JobId) (printer : Printer) (warnings : List String)
      (language : Option String) (payload : PrintPayload) (p : Prepared) (hp : p.jobId = id) :
      SubmitFlow (.name id printer warnings language payload) (.reserve p)
  | reserved (p : Prepared) : SubmitFlow (.reserve p) (.queue p)
  | queued (p : Prepared) (job : Job) : SubmitFlow (.queue p) (.sender p job)
  | closed (p : Prepared) : SubmitFlow (.queue p) (.stored p.jobId p.size)
  | read (id : JobId) (bytes : ℕ) (result : Except PrintError Job) :
      SubmitFlow (.stored id bytes) (.release id bytes result)
  | sending (p : Prepared) (job : Job) (target : TaskId) :
      SubmitFlow (.sender p job) (.send p job target)
  | sent (p : Prepared) (job : Job) (target : TaskId) :
      SubmitFlow (.send p job target) (.done (.ok job))
  | unsent (p : Prepared) (job : Job) (target : TaskId) (e : PrintError) :
      SubmitFlow (.send p job target) (.release p.jobId p.size (.error e))
  | released (id : JobId) (bytes : ℕ) (job : Job) :
      SubmitFlow (.release id bytes (.ok job)) (.done (.ok job))
  | returned (id : JobId) (bytes : ℕ) (e : PrintError) :
      SubmitFlow (.release id bytes (.error e)) (.settle id e)
  | refused {pc : SubmitPc} {id : JobId} (h : pc.judging = some id) (e : PrintError) :
      SubmitFlow pc (.settle id e)
  | settled (id : JobId) (e : PrintError) (m : Option Mutated) :
      SubmitFlow (.settle id e) (.done (.error (failure id e m)))

theorem resolved_flow (who : Submitter) (id : JobId) (again : Bool) (printer : Printer) :
    SubmitFlow (.resolve id again) (resolved who id printer) := by
  unfold resolved
  split
  · exact .resolved id again printer
  · exact .refused rfl _

theorem routed_flow (request : PrintRequest) (id : JobId) (printer : Printer) :
    SubmitFlow (.route id printer) (routed env request id printer) := by
  unfold routed
  repeat' split
  · exact .refused rfl _
  · exact .inspecting id printer
  · exact .refused rfl _
  · exact .routed id printer _ _

theorem inspected_flow (request : PrintRequest) (id : JobId) (printer : Printer) (panicked : Bool) :
    SubmitFlow (.inspecting id printer) (inspected env request id printer panicked) := by
  unfold inspected
  repeat' split
  all_goals first | exact .refused rfl _ | exact .inspected id printer _ _

theorem rendered_flow (id : JobId) (printer : Printer) (warnings : List String)
    (language : Option String) (result : Except PrintError PrintPayload) :
    SubmitFlow (.rendering id printer warnings language)
      (rendered env id printer warnings language result) := by
  unfold rendered
  repeat' split
  all_goals first | exact .refused rfl _ | exact .rendered id printer _ _ _ _

/-- **A submit call moves along its points.** -/
theorem submit_flow {who : Submitter} {request : PrintRequest} {pc : SubmitPc}
    (h : (submitCode env who request inp pc).Continues k) :
    ∃ pc', k = .submit who request pc' ∧ SubmitFlow pc pc' := by
  cases pc with
  | enter job =>
    obtain rfl := h
    refine ⟨_, rfl, ?_⟩
    split
    · exact .lookup job
    · exact .insert job
  | lookup job =>
    obtain ⟨r, rfl⟩ := h
    rcases r with e | _ | stored
    · exact ⟨_, rfl, .lookupFailed job e⟩
    · exact ⟨_, rfl, .unknown job⟩
    · exact ⟨_, rfl, .existing job stored⟩
  | existing stored =>
    obtain ⟨r, rfl⟩ := h
    exact ⟨_, rfl, .found stored _⟩
  | insert job =>
    obtain ⟨r, rfl⟩ := h
    cases r with
    | ok u => exact ⟨_, rfl, .inserted job⟩
    | error e => exact ⟨_, rfl, .insertFailed job e⟩
  | activate job => exact ⟨_, h, .activated job⟩
  | «exit» result => exact ⟨_, h, .exited result⟩
  | leave id => exact ⟨_, h, .left id⟩
  | validate id =>
    obtain ⟨r, rfl⟩ := h
    exact ⟨_, rfl, .validated id⟩
  | check id =>
    simp only [submitCode] at h
    split at h
    · exact ⟨_, h, .checked id⟩
    · exact ⟨_, h, .refused rfl _⟩
  | resolve id again =>
    obtain ⟨printers, rfl⟩ := h
    dsimp only
    split
    · exact ⟨_, rfl, resolved_flow who id again _⟩
    · split
      · exact ⟨_, rfl, .refused rfl _⟩
      · exact ⟨_, rfl, .refreshing id again⟩
  | refreshing id => exact ⟨_, h, .refreshed id⟩
  | assign id printer =>
    obtain ⟨r, rfl⟩ := h
    exact ⟨_, rfl, .assigned id printer⟩
  | route id printer => exact ⟨_, h, routed_flow request id printer⟩
  | inspecting id printer => exact ⟨_, h, inspected_flow request id printer _⟩
  | render id printer warnings language =>
    simp only [submitCode] at h
    split at h
    · exact ⟨_, h, .rendering id printer warnings language⟩
    · exact ⟨_, h, .refused rfl _⟩
  | rendering id printer warnings language =>
    exact ⟨_, h, rendered_flow id printer warnings language _⟩
  | name id printer warnings language payload =>
    obtain ⟨r, rfl⟩ := h
    exact ⟨_, rfl, .prepared id printer warnings language payload _ rfl⟩
  | reserve p =>
    obtain ⟨r, rfl⟩ := h
    cases r with
    | true => exact ⟨_, rfl, .reserved p⟩
    | false => exact ⟨_, rfl, .refused rfl _⟩
  | queue p =>
    obtain ⟨r, rfl⟩ := h
    cases r with
    | some m => exact ⟨_, rfl, .queued p m.job⟩
    | none => exact ⟨_, rfl, .closed p⟩
  | stored id bytes =>
    obtain ⟨r, rfl⟩ := h
    rcases r with e | _ | job
    · exact ⟨_, rfl, .read id bytes _⟩
    · exact ⟨_, rfl, .read id bytes _⟩
    · exact ⟨_, rfl, .read id bytes _⟩
  | sender p job =>
    obtain ⟨target, rfl⟩ := h
    exact ⟨_, rfl, .sending p job target⟩
  | send p job target =>
    obtain ⟨r, rfl⟩ := h
    cases r with
    | ok => exact ⟨_, rfl, .sent p job target⟩
    | full => exact ⟨_, rfl, .unsent p job target _⟩
    | closed => exact ⟨_, rfl, .unsent p job target _⟩
  | release id bytes result =>
    obtain rfl := h
    cases result with
    | ok job => exact ⟨_, rfl, .released id bytes job⟩
    | error e => exact ⟨_, rfl, .returned id bytes e⟩
  | settle id e =>
    obtain ⟨m, rfl⟩ := h
    exact ⟨_, rfl, .settled id e m⟩
  | done result => exact absurd h not_false

/-- What a worker's step does to its channel: it takes the first item off, drops
the receiver, or leaves the channel alone. -/
inductive Worker.Turns (w w' : Worker) : Prop
  | same (hrx : w'.rx = w.rx) (hpc : w'.pc ≠ .stopped)
  | take (item : QueuedJob) (hrx : w.rx = item :: w'.rx) (hpc : w.pc = .polling)
      (hpc' : w'.pc = .claim item)
  | stop (hpc : w.pc = .stopping) (hrx' : w'.rx = []) (hpc' : w'.pc = .stopped)

theorem worker_turns {w : Worker} (h : (workerCode env w inp).Continues k) :
    ∃ w', k = .worker w' ∧ w'.printerId = w.printerId ∧ w.Turns w' := by
  obtain ⟨printer, rx, pc⟩ := w
  have hsame : ∀ pc' : WorkerPc, pc' ≠ .stopped →
      ∃ w', Task.worker ⟨printer, rx, pc'⟩ = .worker w' ∧ w'.printerId = printer ∧
        Worker.Turns ⟨printer, rx, pc⟩ w' := fun pc' hpc' => ⟨_, rfl, rfl, .same rfl hpc'⟩
  cases pc with
  | idle =>
    obtain ⟨r, rfl⟩ := h
    cases r <;> exact hsame _ (by simp)
  | polling =>
    cases rx with
    | nil =>
      obtain rfl := h
      exact hsame _ (by simp)
    | cons item rest => exact ⟨_, h, rfl, .take item rfl rfl rfl⟩
  | stopping => exact ⟨_, h, rfl, .stop rfl rfl rfl⟩
  | claim item =>
    obtain ⟨r, rfl⟩ := h
    cases r <;> exact hsame _ (by simp)
  | lookup item =>
    obtain ⟨r, rfl⟩ := h
    dsimp only
    split <;> exact hsame _ (by simp)
  | failing item e =>
    obtain ⟨r, rfl⟩ := h
    exact hsame _ (by simp)
  | calling call =>
    simp only [workerCode] at h
    split at h
    · obtain ⟨r, rfl⟩ := h
      exact hsame _ (by simp)
    · split at h
      · next result _ =>
        obtain ⟨r, rfl⟩ := h
        refine hsame _ ?_
        unfold afterCall
        split <;> simp
      · exact absurd h not_false
  | late call =>
    simp only [workerCode] at h
    split at h
    · obtain rfl := h
      exact hsame _ (by simp)
    · exact absurd h not_false
  | discard bytes | watch id printer' spoolerJobId =>
    obtain rfl := h
    exact hsame _ (by simp)
  | stopped => exact absurd h not_false

theorem monitor_kind {m : Monitor} (h : (monitorCode env m).Continues k) :
    ∃ pc, k = .monitor { m with pc := pc } := by
  obtain ⟨id, printer, spoolerJobId, pc⟩ := m
  cases pc with
  | spawned =>
    simp only [monitorCode] at h
    split at h <;> exact ⟨_, h⟩
  | query =>
    obtain ⟨r, rfl⟩ := h
    dsimp only
    split <;> exact ⟨_, rfl⟩
  | done => exact absurd h not_false
  | _ =>
    obtain ⟨r, rfl⟩ := h
    exact ⟨_, rfl⟩

theorem cancel_kind {id : JobId} {pc : CancelPc} (h : (cancelCode env id pc).Continues k) :
    ∃ pc', k = .cancel id pc' := by
  cases pc with
  | load | reload =>
    obtain ⟨r, rfl⟩ := h
    cases r <;> exact ⟨_, rfl⟩
  | stored | restored =>
    obtain ⟨r, rfl⟩ := h
    dsimp only
    split <;> exact ⟨_, rfl⟩
  | resolve printerId spoolerJobId again =>
    obtain ⟨r, rfl⟩ := h
    dsimp only
    split <;> split <;> exact ⟨_, rfl⟩
  | deleting printer spoolerJobId =>
    obtain ⟨r, rfl⟩ := h
    cases r <;> exact ⟨_, rfl⟩
  | cancelQueued | settle =>
    obtain ⟨r, rfl⟩ := h
    exact ⟨_, rfl⟩
  | unguard result =>
    obtain rfl := h
    cases result with
    | error e => exact ⟨_, rfl⟩
    | ok job => cases job <;> exact ⟨_, rfl⟩
  | done result => exact absurd h not_false
  | _ => exact ⟨_, h⟩

theorem shutdown_kind {pc : ShutdownPc} (h : (shutdownCode inp pc).Continues k) :
    ∃ pc', k = .shutdown pc' := by
  cases pc with
  | cancel => exact ⟨_, h⟩
  | snapshot =>
    obtain ⟨r, rfl⟩ := h
    exact ⟨_, rfl⟩
  | failing todo =>
    cases todo with
    | nil => exact ⟨_, h⟩
    | cons id rest =>
      simp only [shutdownCode] at h
      split at h
      · obtain ⟨r, rfl⟩ := h
        exact ⟨_, rfl⟩
      · exact absurd h not_false
  | done => exact absurd h not_false

theorem start_kind {pc : StartPc} (h : (startCode inp pc).Continues k) :
    ∃ pc', k = .start pc' := by
  cases pc with
  | refresh => exact ⟨_, h⟩
  | load =>
    obtain ⟨r, rfl⟩ := h
    cases r <;> exact ⟨_, rfl⟩
  | reconcile jobs =>
    cases jobs with
    | nil => exact ⟨_, h⟩
    | cons first rest =>
      simp only [startCode] at h
      split at h
      · exact ⟨_, h⟩
      · exact absurd h not_false
  | locate job rest =>
    obtain ⟨r, rfl⟩ := h
    exact ⟨_, rfl⟩
  | settle job printer rest =>
    simp only [startCode] at h
    split at h
    · exact ⟨_, h⟩
    · obtain ⟨r, rfl⟩ := h
      exact ⟨_, rfl⟩
  | failed => exact absurd h not_false
  | done => exact absurd h not_false

/-- **A task keeps its kind.** -/
theorem code_kind {task : Task} (h : (code env inp task).Continues k) : k.kind = task.kind := by
  cases task with
  | none => exact absurd h not_false
  | submit who request pc =>
    obtain ⟨pc', rfl, -⟩ := submit_flow h
    rfl
  | worker w =>
    obtain ⟨w', rfl, hp, -⟩ := worker_turns h
    exact congrArg TaskKind.worker hp
  | monitor m =>
    obtain ⟨pc, rfl⟩ := monitor_kind h
    rfl
  | cancel id pc =>
    obtain ⟨pc', rfl⟩ := cancel_kind h
    rfl
  | shutdown pc =>
    obtain ⟨pc', rfl⟩ := shutdown_kind h
    rfl
  | start pc =>
    obtain ⟨pc', rfl⟩ := start_kind h
    rfl

theorem kind_eq_submit {task : Task} {who : Submitter} {request : PrintRequest} :
    task.kind = .submit who request ↔ ∃ pc, task = .submit who request pc := by
  cases task <;> simp [Task.kind]

theorem kind_eq_worker {task : Task} {printer : PrinterId} :
    task.kind = .worker printer ↔ ∃ w, task = .worker w ∧ w.printerId = printer := by
  cases task <;> simp [Task.kind]

theorem kind_eq_cancel {task : Task} {id : JobId} :
    task.kind = .cancel id ↔ ∃ pc, task = .cancel id pc := by
  cases task <;> simp [Task.kind]

theorem kind_eq_monitor {task : Task} {id : JobId} {printer : Printer} {spoolerJobId : ℕ} :
    task.kind = .monitor id printer spoolerJobId ↔
      ∃ pc, task = .monitor ⟨id, printer, spoolerJobId, pc⟩ := by
  cases task with
  | monitor m =>
    obtain ⟨id', printer', sid, pc⟩ := m
    simp [Task.kind]
  | _ => simp [Task.kind]

theorem kind_eq_start {task : Task} : task.kind = .start ↔ ∃ pc, task = .start pc := by
  cases task <;> simp [Task.kind]

end KilnPrint
