/-
The mutations of a job record.

Every change the engine makes to an active job is a closure handed to
`Inner::mutate`.  `Change` names those closures, one constructor each:

* `Change.apply` — what a closure does to the record and which event it
  reports; a refused lifecycle transition leaves the record as it is;
* `Job.touch` — the bookkeeping `mutate` adds around the closure: the record's
  `updatedAt` moves exactly when the closure changed something.

The later modules say who applies which change, and when.
-/
import KilnPrint.Model.Job

namespace KilnPrint

inductive JobEventKind
  | created
  | queued
  | spooled
  | printing
  | updated
  | completed
  | failed
  | cancelled
  deriving DecidableEq, Repr

/-- A job event, as broadcast to subscribers. -/
structure EngineEvent where
  kind : JobEventKind
  job : Job
  deriving DecidableEq

/-- The closures handed to `mutate`. -/
inductive Change
  /-- `prepare`: validation begins. -/
  | validating
  /-- `prepare`: the printer is resolved. -/
  | assignPrinter (id : PrinterId) (name : String)
  /-- `enqueue`: the job is about to enter its printer's queue. -/
  | queue (warnings : List String) (language : Option String)
  /-- `process`: the worker takes the job. -/
  | claim
  /-- `submitted`: a direct transport delivered every byte. -/
  | delivered
  /-- `submitted`: the spooler accepted the job. -/
  | spooled (spoolerJobId : ℕ)
  | fail (error : PrintError)
  | complete (evidence : CompletionEvidence)
  /-- `cancel`: the job is still held by the agent. -/
  | cancelQueued
  /-- `cancel`: the provider deleted the spooler job. -/
  | cancelSpooled
  /-- `apply`: the job left the spooler while a cancellation is in flight. -/
  | cancelDeleted
  /-- `apply`: the spooler reports the job as deleted. -/
  | cancelObserved
  | pending
  | printing
  | blocked (condition : ErrorCode)
  deriving DecidableEq

namespace Change

def cancelSpooledWarning : String :=
  "cancelled after reaching the spooler; data already sent to the printer may still print"

def cancelObservedWarning : String :=
  "the job was deleted from the OS print queue"

/-- A lifecycle step that reports `kind` when it is legal. -/
def orKeep (j : Job) (kind : JobEventKind) : Option Job → Job × Option JobEventKind
  | some j' => (j', some kind)
  | none => (j, none)

/-- What each closure does, and the event it reports. -/
def apply (ch : Change) (now : Time) (j : Job) : Job × Option JobEventKind :=
  match ch with
  -- a transition that is not legal leaves the record as it is
  | validating => ((j.transition .validating now).getD j, none)
  | assignPrinter id name => ({ j with printerId := some id, printerName := some name }, none)
  | queue warnings language =>
    let j := { j with warnings := warnings }
    let j := if language.isSome then { j with language := language } else j
    orKeep j .queued (j.transition .queued now)
  | claim => ({ j with delivery := .submitting }, none)
  | delivered =>
    let j := { j with delivery := .deviceDelivered, submittedAt := some now }
    orKeep j .completed (j.complete .bytesDelivered now)
  | spooled spoolerJobId =>
    ({ j with
        delivery := .spoolerAccepted
        spoolerJobId := some spoolerJobId
        submittedAt := some now }, some .spooled)
  | fail error => orKeep j .failed (j.fail error now)
  | complete evidence => orKeep j .completed (j.complete evidence now)
  -- the stage is looked at again under the lock: the worker may have claimed the job
  | cancelQueued =>
    if j.delivery = .requestAccepted then
      orKeep j .cancelled (j.transition .cancelled now)
    else (j, none)
  | cancelSpooled =>
    orKeep j .cancelled ((j.transition .cancelled now).map fun j' =>
      { j' with warnings := j'.warnings ++ [cancelSpooledWarning] })
  | cancelDeleted => orKeep j .cancelled (j.transition .cancelled now)
  | cancelObserved =>
    orKeep j .cancelled ((j.transition .cancelled now).map fun j' =>
      { j' with warnings := j'.warnings ++ [cancelObservedWarning] })
  | pending =>
    ({ j with condition := none }, if j.condition.isSome then some .updated else none)
  | printing =>
    let cleared := j.condition.isSome
    let j := { j with condition := none }
    -- the transition from `QUEUED` to `PRINTING` is always legal
    if j.status = .queued then orKeep j .printing (j.transition .printing now)
    else (j, if cleared then some .updated else none)
  -- the same condition again is not reported
  | blocked condition =>
    if j.condition = some condition then (j, none)
    else ({ j with condition := some condition }, some .updated)

end Change

/-- The record after a closure ran on it: `updatedAt` moves when it changed. -/
def Job.touch (before after : Job) (stamp : Time) : Job :=
  { after with updatedAt := if after = before then after.updatedAt else stamp }

/-- What `mutate` returns. -/
structure Mutated where
  job : Job
  event : Option JobEventKind
  deriving DecidableEq

/-- The result of applying `ch` to the record `j`. -/
def Change.mutated (ch : Change) (now stamp : Time) (j : Job) : Mutated where
  job := j.touch (ch.apply now j).1 stamp
  event := (ch.apply now j).2

end KilnPrint
