/-
The standardised error model.

`PrintError` is the only error type that crosses the agent boundary and the
one recorded on failed jobs.

* `ErrorCode`, `ErrorCode.defaultRecoverable`, `ErrorCode.asStr` — the codes of
  the public protocol;
* `PrintError.new` and its specialised constructors `internal`,
  `invalidPayload`, `printerNotFound`, `jobNotFound`;
* the builder methods `withJob`, `withPrinter`, `withDetails`, `recoverably`.

Job ids are random UUIDs in the source; here they are natural numbers that the
engine draws from a counter, so that freshness is a fact and not a likelihood.
-/
import KilnPrint.Model.Value

namespace KilnPrint

/-- A job's identifier (`Uuid::new_v4` in the source). -/
abbrev JobId := ℕ

/-- A printer's identifier (the newtype `PrinterId` over a string). -/
abbrev PrinterId := String

/-- Machine-readable error codes. -/
inductive ErrorCode
  | printerNotFound
  | printerOffline
  | printerBusy
  | paperOut
  | paperJam
  | accessDenied
  | clientNotTrusted
  | authenticationRequired
  | invalidPayload
  | payloadTooLarge
  | unsupportedDocument
  | unsupportedOperation
  | unsupportedProtocolVersion
  | printFailed
  | spoolerError
  | connectionError
  | timeout
  | queueFull
  | rateLimited
  | jobNotFound
  | invalidJobState
  | internalError
  deriving DecidableEq, Repr

/-- Whether the condition behind a code can clear without the request changing. -/
def ErrorCode.defaultRecoverable : ErrorCode → Bool
  | printerOffline | printerBusy | paperOut | paperJam | connectionError | timeout
  | queueFull | rateLimited => true
  | _ => false

def ErrorCode.asStr : ErrorCode → String
  | printerNotFound => "PRINTER_NOT_FOUND"
  | printerOffline => "PRINTER_OFFLINE"
  | printerBusy => "PRINTER_BUSY"
  | paperOut => "PAPER_OUT"
  | paperJam => "PAPER_JAM"
  | accessDenied => "ACCESS_DENIED"
  | clientNotTrusted => "CLIENT_NOT_TRUSTED"
  | authenticationRequired => "AUTHENTICATION_REQUIRED"
  | invalidPayload => "INVALID_PAYLOAD"
  | payloadTooLarge => "PAYLOAD_TOO_LARGE"
  | unsupportedDocument => "UNSUPPORTED_DOCUMENT"
  | unsupportedOperation => "UNSUPPORTED_OPERATION"
  | unsupportedProtocolVersion => "UNSUPPORTED_PROTOCOL_VERSION"
  | printFailed => "PRINT_FAILED"
  | spoolerError => "SPOOLER_ERROR"
  | connectionError => "CONNECTION_ERROR"
  | timeout => "TIMEOUT"
  | queueFull => "QUEUE_FULL"
  | rateLimited => "RATE_LIMITED"
  | jobNotFound => "JOB_NOT_FOUND"
  | invalidJobState => "INVALID_JOB_STATE"
  | internalError => "INTERNAL_ERROR"

/-- An error returned to clients and recorded on failed jobs. -/
structure PrintError where
  errorCode : ErrorCode
  message : String
  jobId : Option JobId
  printerId : Option String
  recoverable : Bool
  details : Option Value
  deriving DecidableEq, Repr

namespace PrintError

def new (code : ErrorCode) (message : String) : PrintError where
  errorCode := code
  message := message
  jobId := none
  printerId := none
  recoverable := code.defaultRecoverable
  details := none

/-- Wraps an unexpected failure.  Its context is logged and never returned. -/
def internal : PrintError := new .internalError "internal agent error"

def invalidPayload (message : String) : PrintError := new .invalidPayload message

def printerNotFound (printer : String) : PrintError :=
  new .printerNotFound s!"printer '{printer}' was not found"

def withJob (e : PrintError) (id : JobId) : PrintError := { e with jobId := some id }

def withPrinter (e : PrintError) (id : String) : PrintError := { e with printerId := some id }

def withDetails (e : PrintError) (details : Value) : PrintError :=
  { e with details := some details }

/-- The builder method `recoverable` of the source. -/
def recoverably (e : PrintError) (recoverable : Bool) : PrintError :=
  { e with recoverable := recoverable }

def jobNotFound (id : JobId) : PrintError :=
  (new .jobNotFound s!"job {id} was not found").withJob id

end PrintError

/-- `json!({ "outcome": … })`. -/
def outcomeDetails (outcome : String) : Value := .obj [("outcome", .str outcome)]

/-- The error of a job that certainly did not reach a printer. -/
def notPrinted (message : String) : PrintError :=
  ((PrintError.new .printFailed message).recoverably true).withDetails
    (outcomeDetails "NOT_PRINTED")

/-- The `outcome` field of an error's details, if it has one. -/
def PrintError.outcome (e : PrintError) : Option String :=
  match e.details with
  | some (.obj fields) =>
    match fields.lookup "outcome" with
    | some (.str s) => some s
    | _ => none
  | _ => none

/-- The error tells the client that the document may have printed. -/
def PrintError.SaysUnknown (e : PrintError) : Prop :=
  e.recoverable = false ∧ e.outcome = some "UNKNOWN"

@[simp] theorem outcome_notPrinted (message : String) :
    (notPrinted message).outcome = some "NOT_PRINTED" := rfl

@[simp] theorem outcome_withJob (e : PrintError) (id : JobId) :
    (e.withJob id).outcome = e.outcome := rfl

@[simp] theorem outcome_withPrinter (e : PrintError) (id : String) :
    (e.withPrinter id).outcome = e.outcome := rfl

end KilnPrint
