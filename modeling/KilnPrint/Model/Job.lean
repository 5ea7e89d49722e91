/-
The print-job record and its lifecycle rules.

* `JobStatus`, `JobStatus.isTerminal`, `JobStatus.canTransitionTo` — the
  lifecycle automaton;
* `DeliveryStage`, with its `rank` — how far the document has travelled;
* `Job`, `Job.new`, `Job.transition`, `Job.fail`, `Job.complete` — the record
  and the only functions that move its status.

A method of the source that returns `false` and changes nothing returns
`none` here.  The wall clock is read by the source inside each method; here
the reading is an argument.
-/
import KilnPrint.Model.Document

namespace KilnPrint

/-- Wall-clock readings (`DateTime<Utc>`). -/
abbrev Time := ℕ

inductive JobStatus
  | received
  | validating
  | queued
  | printing
  | completed
  | failed
  | cancelled
  deriving DecidableEq, Repr

namespace JobStatus

def isTerminal : JobStatus → Bool
  | completed | failed | cancelled => true
  | _ => false

/-- Allowed forward transitions. -/
def canTransitionTo : JobStatus → JobStatus → Bool
  | completed, _ | failed, _ | cancelled, _ => false
  | _, failed | _, cancelled => true
  | received, validating | validating, queued => true
  | queued, printing | queued, completed | printing, completed => true
  | a, b => a == b

def asStr : JobStatus → String
  | received => "RECEIVED"
  | validating => "VALIDATING"
  | queued => "QUEUED"
  | printing => "PRINTING"
  | completed => "COMPLETED"
  | failed => "FAILED"
  | cancelled => "CANCELLED"

/-- A status that is left is not terminal. -/
theorem not_isTerminal_of_canTransitionTo {a b : JobStatus}
    (h : a.canTransitionTo b = true) : a.isTerminal = false := by
  cases a <;> first | rfl | simp [canTransitionTo] at h

theorem canTransitionTo_failed (a : JobStatus) :
    a.canTransitionTo failed = !a.isTerminal := by
  cases a <;> rfl

theorem canTransitionTo_cancelled (a : JobStatus) :
    a.canTransitionTo cancelled = !a.isTerminal := by
  cases a <;> rfl

end JobStatus

/-- How far the document has travelled towards the device. -/
inductive DeliveryStage
  | requestAccepted
  | submitting
  | spoolerAccepted
  | deviceDelivered
  deriving DecidableEq, Repr

/-- The order of the stages. -/
def DeliveryStage.rank : DeliveryStage → ℕ
  | requestAccepted => 0
  | submitting => 1
  | spoolerAccepted => 2
  | deviceDelivered => 3

/-- Why the agent reports `COMPLETED`. -/
inductive CompletionEvidence
  | spoolerReportedPrinted
  | spoolerJobRetired
  | bytesDelivered
  deriving DecidableEq, Repr

structure Job where
  jobId : JobId
  clientId : String
  printerId : Option PrinterId
  printerName : Option String
  documentType : DocumentType
  language : Option String
  jobName : Option String
  status : JobStatus
  delivery : DeliveryStage
  copies : ℕ
  sizeBytes : ℕ
  spoolerJobId : Option ℕ
  condition : Option ErrorCode
  completion : Option CompletionEvidence
  warnings : List String
  idempotencyKey : Option String
  createdAt : Time
  updatedAt : Time
  queuedAt : Option Time
  submittedAt : Option Time
  startedAt : Option Time
  completedAt : Option Time
  error : Option PrintError
  deriving DecidableEq

namespace Job

def new (id : JobId) (clientId : String) (documentType : DocumentType)
    (copies sizeBytes : ℕ) (now : Time) : Job where
  jobId := id
  clientId := clientId
  printerId := none
  printerName := none
  documentType := documentType
  language := none
  jobName := none
  status := .received
  delivery := .requestAccepted
  copies := copies
  sizeBytes := sizeBytes
  spoolerJobId := none
  condition := none
  completion := none
  warnings := []
  idempotencyKey := none
  createdAt := now
  updatedAt := now
  queuedAt := none
  submittedAt := none
  startedAt := none
  completedAt := none
  error := none

/-- The timestamps a transition to `next` sets. -/
def stamp (j : Job) (next : JobStatus) (now : Time) : Job :=
  match next with
  | .queued => if j.queuedAt.isNone then { j with queuedAt := some now } else j
  | .printing => if j.startedAt.isNone then { j with startedAt := some now } else j
  | .completed | .failed | .cancelled =>
    { j with completedAt := some now, condition := none }
  | _ => j

/-- Moves to `next` if the lifecycle allows it; `none` for an illegal
transition. -/
def transition (j : Job) (next : JobStatus) (now : Time) : Option Job :=
  if j.status.canTransitionTo next then
    some { j.stamp next now with status := next, updatedAt := now }
  else none

/-- The error as it is recorded on the job. -/
def annotate (j : Job) (error : PrintError) : PrintError :=
  let error := error.withJob j.jobId
  match j.printerId with
  | some p => if error.printerId.isNone then error.withPrinter p else error
  | none => error

def fail (j : Job) (error : PrintError) (now : Time) : Option Job :=
  (j.transition .failed now).map fun j' => { j' with error := some (j.annotate error) }

def complete (j : Job) (evidence : CompletionEvidence) (now : Time) : Option Job :=
  (j.transition .completed now).map fun j' => { j' with completion := some evidence }

/-! ### What the methods do -/

@[simp] theorem outcome_annotate (j : Job) (error : PrintError) :
    (j.annotate error).outcome = error.outcome := by
  unfold annotate
  cases j.printerId with
  | none => rfl
  | some p =>
    show (if (error.withJob j.jobId).printerId.isNone then _ else _ : PrintError).outcome = _
    split <;> rfl

@[simp] theorem recoverable_annotate (j : Job) (error : PrintError) :
    (j.annotate error).recoverable = error.recoverable := by
  unfold annotate
  cases j.printerId with
  | none => rfl
  | some p =>
    show (if (error.withJob j.jobId).printerId.isNone then _ else _ : PrintError).recoverable = _
    split <;> rfl

theorem transition_eq_some {j j' : Job} {next : JobStatus} {now : Time}
    (h : j.transition next now = some j') :
    j.status.canTransitionTo next = true ∧
      j' = { j.stamp next now with status := next, updatedAt := now } := by
  unfold transition at h
  split at h
  · next hc => exact ⟨hc, (Option.some_inj.mp h).symm⟩
  · simp at h

end Job

end KilnPrint
