/-
The engine as a transition system.

* `code` — the operation a task performs next;
* `Action` — the steps: API calls arriving, tasks and blocking calls
  proceeding, submit futures being dropped, printers printing, the background
  loops, and crashes;
* `step` — the effect of an action, where it is enabled;
* `init` — an engine that has never run.

API calls arrive once `start` has returned: the agent awaits it before it binds
its listeners.  A crash loses everything but the repository and what the
spoolers hold.
-/
import KilnPrint.Engine.Restart

namespace KilnPrint

/-- The task that runs `start`. -/
def startTask : TaskId := 0

/-- The operation a task performs next. -/
def code (env : Env) (inp : Input) : Task → Op
  | .none => .await
  | .submit who request pc => submitCode env who request inp pc
  | .worker w => workerCode env w inp
  | .monitor m => monitorCode env m
  | .cancel id pc => cancelCode env id pc
  | .shutdown pc => shutdownCode inp pc
  | .start pc => startCode inp pc

inductive Action
  /-- A process starts. -/
  | start
  | submit (t : TaskId) (who : Submitter) (request : PrintRequest) (now : Time)
  | cancel (t : TaskId) (id : JobId)
  | shutdown (t : TaskId)
  /-- Task `t` proceeds. -/
  | run (t : TaskId) (inp : Input)
  /-- The blocking call of worker `t` enters `provider.submit`. -/
  | invoke (t : TaskId)
  /-- The blocking call of worker `t` returns. -/
  | finish (t : TaskId) (result : CallResult)
  /-- The future of submit call `t` is dropped where it awaits. -/
  | drop (t : TaskId)
  /-- The discovery loop refreshes the printer cache. -/
  | discover (printers : List Printer)
  /-- The retention loop deletes old terminal records. -/
  | purge (cutoff : Time)
  /-- A spooled job prints and leaves the spooler's queue. -/
  | retire (id : JobId)
  | crash

namespace State

/-- The first event task `t` has still to broadcast. -/
def pendingEvent (s : State) (t : TaskId) : Option (TaskId × EngineEvent) :=
  s.outbox.find? fun e => e.1 == t

/-- `start` has returned. -/
def started (s : State) : Bool :=
  match s.task startTask with
  | .start .done => true
  | _ => false

/-- Spawns a task for an API call. -/
def spawn (s : State) (t : TaskId) (task : Task) : Option State :=
  if s.started ∧ (s.tasks.lookup t).isNone then some (s.setTask t task) else none

/-- The blocking call of a worker, wherever its worker waits for it. -/
def call (s : State) (t : TaskId) : Option Call :=
  match s.task t with
  | .worker { pc := .calling call, .. } | .worker { pc := .late call, .. } => some call
  | _ => none

/-- Updates the phase of a worker's blocking call. -/
def setPhase (s : State) (t : TaskId) (phase : CallPhase) : State :=
  match s.task t with
  | .worker w =>
    match w.pc with
    | .calling call => s.setTask t (.worker { w with pc := .calling { call with phase := phase } })
    | .late call => s.setTask t (.worker { w with pc := .late { call with phase := phase } })
    | _ => s
  | _ => s

/-- What a crash leaves behind. -/
def crashed (s : State) : State where
  repo := s.repo
  spooler := s.spooler
  nextJob := s.nextJob
  log := s.log ++ [.crashed]

/-- Whether a task awaits, inside a submit call, something that may not
return before its future is dropped. -/
def awaits (s : State) (t : TaskId) : Bool :=
  match s.task t with
  | .submit _ _ (.refreshing _) | .submit _ _ (.inspecting ..)
  | .submit _ _ (.rendering ..) => true
  | _ => false

end State

/-- What the provider leaves in its spooler when a call returns. -/
def spooledBy (spooler : FinMap JobId SpoolState) (id : JobId) :
    CallResult → FinMap JobId SpoolState
  | .outcome (.spooled _) => spooler.insert id .queued
  | _ => spooler

/-- A submit call begins: it checks its key and builds its record. -/
def beginSubmit (s : State) (t : TaskId) (who : Submitter) (request : PrintRequest)
    (now : Time) : Option State :=
  match checkKey request with
  | .error e => s.spawn t (.submit who request (.done (.error e)))
  | .ok () =>
    ({ s with nextJob := s.nextJob + 1 }).spawn t
      (.submit who request (.enter (newJob s.nextJob who request now)))

/-- A task proceeds: it broadcasts the event it still owes, or else performs
its next operation. -/
def runTask (env : Env) (s : State) (t : TaskId) (inp : Input) : Option State :=
  match s.pendingEvent t with
  | some e => some { s with outbox := s.outbox.erase e, events := s.events ++ [e.2] }
  | none =>
    (exec env t (s.task t).origin inp s (code env inp (s.task t))).map fun (s', task) =>
      s'.setTask t task

def step (env : Env) (s : State) : Action → Option State
  -- once, before anything else
  | .start =>
    if s.tasks.entries.isEmpty then some (s.setTask startTask (.start .refresh)) else none
  | .submit t who request now => beginSubmit s t who request now
  | .cancel t id => s.spawn t (.cancel id .load)
  | .shutdown t => s.spawn t (.shutdown .cancel)
  | .run t inp => runTask env s t inp
  -- the blocking thread calls the provider, and returns, in its own time
  | .invoke t =>
    (s.call t).bind fun call =>
      if call.phase = .spawned then
        some ((s.setPhase t .running).note (.invoked call.jobId call.printer.id))
      else none
  | .finish t result =>
    (s.call t).bind fun call =>
      if call.phase = .running then
        some ({ s.setPhase t (.finished result) with
          used := s.used - call.reservation
          spooler := spooledBy s.spooler call.jobId result }.note
            (.returned call.jobId call.printer.id))
      else none
  -- the caller drops the future of its submission
  | .drop t => if s.awaits t then some { s with tasks := s.tasks.erase t } else none
  | .discover printers => if s.started then some { s with printers := printers } else none
  | .purge cutoff =>
    if s.started then some { s with repo := s.repo.purgeTerminalBefore cutoff } else none
  -- the spooler prints a job and forgets it
  | .retire id =>
    if s.spooler.lookup id = some .queued then
      some { s with spooler := s.spooler.insert id .left }
    else none
  | .crash => some s.crashed

/-- An engine that has never run. -/
def init : State := {}

end KilnPrint
