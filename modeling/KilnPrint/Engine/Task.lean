/-
The local states of the engine's tasks.

The engine runs many tasks at once: one per `submit`, `cancel` and `shutdown`
call, one worker per printer, one monitor per spooled job, and the start
routine.  A task is described by the point its code has reached, together with
the local variables that are live there; one constructor is one point between
two atomic steps.

* `SubmitPc`, `WorkerPc`, `MonitorPc`, `CancelPc`, `ShutdownPc`, `StartPc` —
  the points of each routine, in program order;
* `Call` — a blocking `provider.submit` call, which proceeds on its own;
* `Task` — a task of any kind.

What a task does from each point is defined with its routine, in the modules
that follow.
-/
import KilnPrint.Queue
import KilnPrint.Engine.Change

namespace KilnPrint

/-- Tasks are numbered in the order they are spawned. -/
abbrev TaskId := ℕ

/-! ### Submitting -/

/-- What `prepare` hands to `enqueue`. -/
structure Prepared where
  jobId : JobId
  size : ℕ
  warnings : List String
  language : Option String
  spec : SubmitSpec
  printer : Printer
  deriving DecidableEq

/-- The points of `PrintEngine::submit`, `prepare` and `enqueue`. -/
inductive SubmitPc
  /-- Waiting for the submit gate. -/
  | enter (job : Job)
  /-- Looking the idempotency key up, inside the gate. -/
  | lookup (job : Job)
  /-- The key is known: reading the active copy of the job it names. -/
  | existing (stored : Job)
  /-- Storing the new record, inside the gate. -/
  | insert (job : Job)
  /-- Adding the stored record to the active map, inside the gate. -/
  | activate (job : Job)
  /-- Leaving the gate with a result and no record of this call's own. -/
  | exit (result : Except PrintError Job)
  /-- Leaving the gate; the record is active. -/
  | leave (id : JobId)
  | validate (id : JobId)
  | check (id : JobId)
  | resolve (id : JobId) (again : Bool)
  | refreshing (id : JobId)
  | assign (id : JobId) (printer : Printer)
  | route (id : JobId) (printer : Printer)
  | inspecting (id : JobId) (printer : Printer)
  | render (id : JobId) (printer : Printer) (warnings : List String)
      (language : Option String)
  | rendering (id : JobId) (printer : Printer) (warnings : List String)
      (language : Option String)
  | name (id : JobId) (printer : Printer) (warnings : List String)
      (language : Option String) (payload : PrintPayload)
  | reserve (prepared : Prepared)
  | queue (prepared : Prepared)
  /-- Cancelled while validating: reading the stored record. -/
  | stored (id : JobId) (bytes : ℕ)
  | sender (prepared : Prepared) (job : Job)
  | send (prepared : Prepared) (job : Job) (target : TaskId)
  /-- `enqueue` returns and drops its reservation. -/
  | release (id : JobId) (bytes : ℕ) (result : Except PrintError Job)
  /-- Recording the failure on the job. -/
  | settle (id : JobId) (error : PrintError)
  | done (result : Except PrintError Job)

/-! ### Workers -/

/-- The result of a provider's `submit`. -/
inductive SubmitOutcome
  | spooled (spoolerJobId : ℕ)
  | delivered
  deriving DecidableEq, Repr

/-- How a blocking call ended. -/
inductive CallResult
  | outcome (outcome : SubmitOutcome)
  | error (error : PrintError)
  | panicked
  deriving DecidableEq

inductive CallPhase
  /-- Handed to the blocking pool, `provider.submit` not yet entered. -/
  | spawned
  | running
  | finished (result : CallResult)
  deriving DecidableEq

/-- A blocking `provider.submit` call and the payload it owns. -/
structure Call where
  jobId : JobId
  printer : Printer
  spec : SubmitSpec
  reservation : ℕ
  phase : CallPhase
  deriving DecidableEq

/-- The points of `worker::run` and `process`. -/
inductive WorkerPc
  /-- At the top of the loop: is the shutdown token cancelled? -/
  | idle
  /-- Receiving from the channel. -/
  | polling
  /-- The loop was left; the receiver is about to be dropped. -/
  | stopping
  | claim (item : QueuedJob)
  /-- Claimed: choosing the printer snapshot and its provider. -/
  | lookup (item : QueuedJob)
  | failing (item : QueuedJob) (error : PrintError)
  /-- `process` returns and drops the item's reservation. -/
  | discard (bytes : ℕ)
  /-- Waiting for the call or the watchdog. -/
  | calling (call : Call)
  /-- The watchdog expired: waiting for the call to end. -/
  | late (call : Call)
  /-- The job was spooled: its monitor is about to be spawned. -/
  | watch (id : JobId) (printer : Printer) (spoolerJobId : ℕ)
  | stopped
  deriving DecidableEq

/-- A printer's worker and the channel it drains. -/
structure Worker where
  printerId : PrinterId
  rx : List QueuedJob
  pc : WorkerPc
  deriving DecidableEq

/-! ### Monitors, cancellations, shutdown and start -/

/-- A spooler job's state as a provider reports it. -/
inductive ProviderJobState
  | pending
  | printing
  | blocked (condition : ErrorCode)
  | printed
  | failed (error : PrintError)
  | cancelled
  | gone
  deriving DecidableEq

/-- The points of `monitor::run` and `apply`. -/
inductive MonitorPc
  | spawned
  | sleeping
  | check
  | query
  /-- The job is gone from the spooler: is a cancellation in flight? -/
  | gone
  /-- About to make the change for a reported state; `cancelling` is what was
  read for a job that is gone. -/
  | apply (state : ProviderJobState) (cancelling : Bool)
  | done
  deriving DecidableEq

structure Monitor where
  jobId : JobId
  printer : Printer
  spoolerJobId : ℕ
  pc : MonitorPc
  deriving DecidableEq

/-- The points of `PrintEngine::cancel`. -/
inductive CancelPc
  | load
  | stored
  | cancelQueued
  | resolve (printerId : PrinterId) (spoolerJobId : ℕ) (again : Bool)
  | refreshing (printerId : PrinterId) (spoolerJobId : ℕ)
  | guard (printer : Printer) (spoolerJobId : ℕ)
  | deleting (printer : Printer) (spoolerJobId : ℕ)
  | settle
  | unguard (result : Except PrintError (Option Job))
  | reload
  | restored
  | done (result : Except PrintError Job)

/-- The points of `PrintEngine::shutdown`. -/
inductive ShutdownPc
  | cancel
  | snapshot
  | failing (todo : List JobId)
  | done
  deriving DecidableEq

/-- The points of `PrintEngine::start` and `reconcile_after_restart`. -/
inductive StartPc
  | refresh
  | load
  | reconcile (jobs : List Job)
  /-- The record is active: looking its printer up in the cache. -/
  | locate (job : Job) (rest : List Job)
  | settle (job : Job) (printer : Option Printer) (rest : List Job)
  | failed
  | done
  deriving DecidableEq

inductive Task
  | none
  | submit (who : Submitter) (request : PrintRequest) (pc : SubmitPc)
  | worker (worker : Worker)
  | monitor (monitor : Monitor)
  | cancel (id : JobId) (pc : CancelPc)
  | shutdown (pc : ShutdownPc)
  | start (pc : StartPc)

/-- Who makes a change, as recorded in the history. -/
inductive Origin
  | submit
  | worker
  | monitor
  | cancel
  | shutdown
  | restart
  deriving DecidableEq, Repr

def Task.origin : Task → Origin
  | none | submit .. => .submit
  | worker _ => .worker
  | monitor _ => .monitor
  | cancel .. => .cancel
  | shutdown _ => .shutdown
  | start _ => .restart

end KilnPrint
