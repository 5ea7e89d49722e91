/-
The engine's shared state and the atomic operations on it.

* `Env` — what an engine is built from: its configuration, providers,
  renderers and languages;
* `State` — the engine's shared data (`Inner` in the source), its tasks, and
  the world a crash leaves behind: the repository and the spoolers;
* `Input` — what the environment decides about one step: clock readings,
  whether the repository call succeeds, the answers of providers;
* `Op`, `exec` — one atomic operation of a task and its effect.

Every critical section of the source, every repository call and every provider
call is one operation.  An operation names what it reads and continues with
the task's next local state, so a routine is a function from points to
operations.

`State.log` is a history of what happened.  No step reads it; the properties
are stated over it.  Events are broadcast after the lock on the active map is
released: a mutation puts its event in `State.outbox`, and the task that made
it broadcasts it in a step of its own before doing anything else.

Sleeping times and logging only delay a task, which the choice of the next step
already covers.  A semaphore or the refresh lock blocks a task for as long as
others have it: a task that is blocked takes no step, so what holds in every run
here holds with them too.  That a call ends is another matter, and is proved of the
engine with its permits.
-/
import KilnPrint.Protocol
import KilnPrint.Repository
import KilnPrint.Engine.Task

namespace KilnPrint

/-! ### Configuration -/

structure EngineConfig where
  queueCapacityPerPrinter : ℕ := 128
  maxQueuedBytes : ℕ := 512 * 1024 * 1024
  maxDocumentBytes : ℕ := 64 * 1024 * 1024
  maxCopies : ℕ := 999
  submitTimeoutSecs : ℕ := 120
  strictLanguages : Bool := false

/-- A registered provider, as far as the engine asks it about printers. -/
structure Provider where
  id : String
  supports : Printer → PayloadKind → Bool

/-- A registered renderer.  What it renders is an answer of the environment
(`Input.rendered`). -/
structure Renderer where
  outputKinds : List PayloadKind
  validate : Document → Except PrintError Unit

structure Env where
  config : EngineConfig
  providers : List Provider
  renderers : DocumentType → Option Renderer
  protocols : ProtocolRegistry

/-- `Inner::provider`. -/
def Env.provider (env : Env) (id : String) : Except PrintError Provider :=
  match env.providers.find? fun p => p.id == id with
  | some p => .ok p
  | none => .error .internal

/-- `mpsc::channel(self.capacity)` in `PrinterQueues`. -/
def Env.queueCapacity (env : Env) : ℕ := max env.config.queueCapacityPerPrinter 1

/-- Where the document of a spooled job is. -/
inductive SpoolState
  | queued
  /-- Printed, and no longer in the spooler's queue. -/
  | left
  /-- Deleted from the spooler's queue before it printed. -/
  | deleted
  deriving DecidableEq, Repr

/-- The environment's part in one step. -/
structure Input where
  /-- The clock inside the closure of a mutation. -/
  now : Time := 0
  /-- The clock when `mutate` sets `updatedAt`. -/
  stamp : Time := 0
  repoOk : Bool := true
  /-- The number of a task this step may spawn. -/
  fresh : TaskId := 0
  /-- Which element of a list without a fixed order is taken next. -/
  pick : ℕ := 0
  /-- Whether the watchdog of a blocking call expires. -/
  timeout : Bool := false
  /-- The printers a discovery refresh finds, if it succeeds. -/
  refreshed : Option (List Printer) := none
  /-- Whether a blocking inspection panics. -/
  panicked : Bool := false
  rendered : Except PrintError PrintPayload := .ok .text
  jobState : Except PrintError ProviderJobState := .ok .pending
  cancelled : Except PrintError Unit := .ok ()

/-! ### State -/

/-- One thing that happened. -/
inductive Entry
  /-- `origin` applied `change` to the active job `id`, with this event. -/
  | applied (origin : Origin) (id : JobId) (change : Change) (event : Option EngineEvent)
  /-- A new record was added to the active map. -/
  | created (job : Job)
  /-- The job's item entered its printer's channel. -/
  | sent (id : JobId) (printer : PrinterId)
  /-- `provider.submit` was entered. -/
  | invoked (id : JobId) (printer : PrinterId)
  /-- `provider.submit` returned. -/
  | returned (id : JobId) (printer : PrinterId)
  /-- `provider.cancel` deleted the spooler job before it printed. -/
  | deleted (id : JobId)
  | crashed
  deriving DecidableEq

structure State where
  repo : JobRepository := ∅
  /-- Non-terminal jobs; the authoritative in-memory copy. -/
  active : FinMap JobId Job := ∅
  /-- The printer cache, in id order. -/
  printers : List Printer := []
  /-- Spooled jobs with a cancellation in flight. -/
  cancelling : List JobId := []
  /-- The holder of the submit gate. -/
  gate : Option TaskId := none
  /-- The sender of each printer's channel, named by the worker it leads to. -/
  senders : FinMap PrinterId TaskId := ∅
  /-- Bytes taken from the budget. -/
  used : ℕ := 0
  /-- The shutdown token. -/
  shutdown : Bool := false
  tasks : FinMap TaskId Task := ∅
  /-- Events not yet broadcast, with the task that will broadcast each. -/
  outbox : List (TaskId × EngineEvent) := []
  /-- Events broadcast so far. -/
  events : List EngineEvent := []
  spooler : FinMap JobId SpoolState := ∅
  /-- The next job id. -/
  nextJob : JobId := 0
  log : List Entry := []

namespace State

/-- The task numbered `t`, `.none` if there is none. -/
def task (s : State) (t : TaskId) : Task := (s.tasks.lookup t).getD .none

/-- Some task is as `p` says. -/
def has (s : State) (p : Task → Bool) : Bool := s.tasks.values.any p

def setTask (s : State) (t : TaskId) (task : Task) : State :=
  { s with tasks := s.tasks.insert t task }

def note (s : State) (e : Entry) : State := { s with log := s.log ++ [e] }

/-- `Inner::mutate`: the locked section, which ends with the event waiting to
be broadcast by task `t`. -/
def mutate (s : State) (t : TaskId) (origin : Origin) (inp : Input) (id : JobId)
    (ch : Change) : State × Option Mutated :=
  match s.active.lookup id with
  | none => (s, none)
  | some before =>
    let m := ch.mutated inp.now inp.stamp before
    -- a record that stays as it is is not written
    let changed := (ch.apply inp.now before).1 ≠ before
    let event := m.event.map fun kind => { kind := kind, job := m.job : EngineEvent }
    ({ s with
        repo := if changed ∧ inp.repoOk then s.repo.update m.job else s.repo
        active := if m.job.status.isTerminal then s.active.erase id
          else s.active.insert id m.job
        outbox := s.outbox ++ (event.map (t, ·)).toList
        log := s.log ++ [.applied origin id ch event] }, some m)

/-- Adds a record to the active map.  `announce` is set for a new job, whose
creation is broadcast. -/
def activate (s : State) (t : TaskId) (job : Job) (announce : Bool) : State :=
  { s with
    active := s.active.insert job.jobId job
    outbox := s.outbox ++ if announce then [(t, ⟨.created, job⟩)] else []
    log := s.log ++ if announce then [.created job] else [] }

/-- Whether the channel of worker `w` still has a receiver. -/
def isOpen (s : State) (w : TaskId) : Bool :=
  match s.task w with
  | .worker worker => worker.pc != .stopped
  | _ => false

end State

/-! ### Operations -/

inductive SendResult
  | ok
  | full
  | closed
  deriving DecidableEq

/-- One atomic operation of a task, with its continuation. -/
inductive Op
  /-- The task waits for something that has not happened. -/
  | await
  /-- No shared data is touched. -/
  | skip (k : Task)
  | mutate (id : JobId) (ch : Change) (k : Option Mutated → Task)
  | lockGate (k : Task)
  | unlockGate (k : Task)
  | findByIdempotencyKey (clientId key : String) (k : Except PrintError (Option Job) → Task)
  | insert (job : Job) (k : Except PrintError Unit → Task)
  | get (id : JobId) (k : Except PrintError (Option Job) → Task)
  | nonTerminal (k : Except PrintError (List Job) → Task)
  | activate (job : Job) (announce : Bool) (k : Task)
  | activeJob (id : JobId) (k : Option Job → Task)
  | activeJobs (pred : Job → Bool) (k : List Job → Task)
  | readPrinters (k : List Printer → Task)
  | refresh (k : Task)
  | tryReserve (bytes : ℕ) (k : Bool → Task)
  | release (bytes : ℕ) (k : Task)
  | senderFor (printer : PrinterId) (k : TaskId → Task)
  | trySend (target : TaskId) (item : QueuedJob) (k : SendResult → Task)
  /-- Drops a channel's receiver with the items still in it. -/
  | dropReceiver (items : List QueuedJob) (k : Task)
  | isShutdown (k : Bool → Task)
  | cancelToken (k : Task)
  | startCancelling (id : JobId) (k : Task)
  | stopCancelling (id : JobId) (k : Task)
  | isCancelling (id : JobId) (k : Bool → Task)
  | providerCancel (id : JobId) (k : Except PrintError Unit → Task)
  | jobState (id : JobId) (k : Except PrintError ProviderJobState → Task)
  | spawnMonitor (id : JobId) (printer : Printer) (spoolerJobId : ℕ) (k : Task)

/-- A repository call that may fail. -/
def Input.call {α : Type} (inp : Input) (a : α) : Except PrintError α :=
  if inp.repoOk then .ok a else .error .internal

/-- What a discovery refresh leaves in the cache. -/
def Input.discovered (inp : Input) (s : State) : List Printer := inp.refreshed.getD s.printers

/-- Executes one operation of task `t`: the shared state and the task's next
local state; `none` if the operation is not enabled. -/
def exec (env : Env) (t : TaskId) (origin : Origin) (inp : Input) (s : State) :
    Op → Option (State × Task)
  | .await => none
  | .skip k => some (s, k)
  | .mutate id ch k =>
    let (s', m) := s.mutate t origin inp id ch
    some (s', k m)
  -- a lock that another task holds is waited for
  | .lockGate k => if s.gate.isNone then some ({ s with gate := some t }, k) else none
  | .unlockGate k => some ({ s with gate := none }, k)
  | .findByIdempotencyKey clientId key k =>
    some (s, k (inp.call (s.repo.findByIdempotencyKey clientId key)))
  -- a failing call on the repository changes nothing
  | .insert job k =>
    some (if inp.repoOk then { s with repo := s.repo.insert job } else s, k (inp.call ()))
  | .get id k => some (s, k (inp.call (s.repo.get id)))
  | .nonTerminal k => some (s, k (inp.call s.repo.nonTerminal))
  | .activate job announce k => some (s.activate t job announce, k)
  | .activeJob id k => some (s, k (s.active.lookup id))
  | .activeJobs pred k => some (s, k (s.active.values.filter pred))
  | .readPrinters k => some (s, k s.printers)
  | .refresh k => some ({ s with printers := inp.discovered s }, k)
  | .tryReserve bytes k =>
    match ({ used := s.used, limit := env.config.maxQueuedBytes : ByteBudget }).tryReserve
        bytes with
    | some b => some ({ s with used := b.used }, k true)
    | none => some (s, k false)
  | .release bytes k => some ({ s with used := s.used - bytes }, k)
  -- a channel whose receiver is gone is replaced, and a worker spawned for the new one
  | .senderFor printer k =>
    match (s.senders.lookup printer).filter s.isOpen with
    | some w => some (s, k w)
    | none =>
      if (s.tasks.lookup inp.fresh).isNone then
        some ({ s with senders := s.senders.insert printer inp.fresh }.setTask inp.fresh
          (.worker { printerId := printer, rx := [], pc := .idle }), k inp.fresh)
      else none
  -- bounded channel: full at the capacity, closed once the worker has stopped
  | .trySend target item k =>
    match s.task target with
    | .worker w =>
      if w.pc = .stopped then some (s, k .closed)
      else if w.rx.length < env.queueCapacity then
        some ((s.setTask target (.worker { w with rx := w.rx ++ [item] })).note
          (.sent item.jobId w.printerId), k .ok)
      else some (s, k .full)
    | _ => some (s, k .closed)
  -- the items left in the channel go with it, and their reservations
  | .dropReceiver items k =>
    some ({ s with used := s.used - (items.map (·.reservation)).sum }, k)
  | .isShutdown k => some (s, k s.shutdown)
  | .cancelToken k => some ({ s with shutdown := true }, k)
  | .startCancelling id k => some ({ s with cancelling := id :: s.cancelling.erase id }, k)
  | .stopCancelling id k => some ({ s with cancelling := s.cancelling.filter (· ≠ id) }, k)
  | .isCancelling id k => some (s, k (s.cancelling.contains id))
  | .providerCancel id k =>
    match inp.cancelled with
    | .ok () =>
      -- a job that already left the queue is not deleted, whatever is reported
      if s.spooler.lookup id = some .queued then
        some ({ s with spooler := s.spooler.insert id .deleted }.note (.deleted id),
          k inp.cancelled)
      else some (s, k inp.cancelled)
    | .error _ => some (s, k inp.cancelled)
  | .jobState id k =>
    -- a job still in the queue is never reported as gone
    if inp.jobState = .ok .gone ∧ s.spooler.lookup id = some .queued then none
    else some (s, k inp.jobState)
  | .spawnMonitor id printer spoolerJobId k =>
    if (s.tasks.lookup inp.fresh).isNone then
      some (s.setTask inp.fresh (.monitor
        { jobId := id, printer := printer, spoolerJobId := spoolerJobId, pc := .spawned }), k)
    else none

end KilnPrint
