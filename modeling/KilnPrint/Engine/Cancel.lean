/-
`PrintEngine::cancel`: cancelling a job wherever it is.

* `invalidJobState` — the refusals;
* `cancelFrom` — the decision on the job as it was read;
* `cancelCode` — what the call does from each point.
-/
import KilnPrint.Engine.Monitor

namespace KilnPrint

def invalidJobState (id : JobId) (message : String) : PrintError :=
  (PrintError.new .invalidJobState message).withJob id

/-- Where `cancel` goes from the record it read. -/
def cancelFrom (id : JobId) (job : Job) : CancelPc :=
  if job.status.isTerminal then
    let status := job.status.asStr
    .done (.error (invalidJobState id s!"job is already {status}"))
  else
    match job.delivery with
    -- still in the agent's queue
    | .requestAccepted => .cancelQueued
    -- the provider has it, and no spooler id is known yet
    | .submitting =>
      .done (.error ((invalidJobState id
        "job is being handed to the spooler; retry the cancellation shortly").recoverably true))
    -- deleted in the spooler, if the record names the job and the printer there
    | .spoolerAccepted =>
      match job.spoolerJobId, job.printerId with
      | some spoolerJobId, some printerId => .resolve printerId spoolerJobId false
      | _, _ => .done (.error .internal)
    | .deviceDelivered =>
      .done (.error (invalidJobState id "job was already delivered to the device"))

/-- The result of cancelling a job the agent still holds. -/
def cancelledResult (id : JobId) : Option Mutated → Except PrintError Job
  | some m =>
    if m.job.status = .cancelled then .ok m.job
    else .error ((invalidJobState id "job moved on while being cancelled; retry").recoverably true)
  | none =>
    .error ((invalidJobState id "job moved on while being cancelled; retry").recoverably true)

/-- What a `cancel` call does from each point. -/
def cancelCode (env : Env) (id : JobId) : CancelPc → Op :=
  let go := Task.cancel id
  fun
  -- `job`: the active record, or else the stored one
  | .load =>
    .activeJob id fun
      | some job => go (cancelFrom id job)
      | none => go .stored
  | .stored =>
    .get id fun
      | .ok (some job) => go (cancelFrom id job)
      | .ok none => go (.done (.error (.jobNotFound id)))
      | .error e => go (.done (.error e))
  | .cancelQueued => .mutate id .cancelQueued fun m => go (.done (cancelledResult id m))
  | .resolve printerId spoolerJobId again =>
    .readPrinters fun printers =>
      match cachedPrinter printers printerId with
      | some printer =>
        match env.provider printer.provider with
        | .ok _ => go (.guard printer spoolerJobId)
        | .error e => go (.done (.error e))
      | none =>
        if again then go (.done (.error (notFound (.id printerId))))
        else go (.refreshing printerId spoolerJobId)
  | .refreshing printerId spoolerJobId => .refresh (go (.resolve printerId spoolerJobId true))
  -- the guard stands before the provider is asked and until the record is settled
  | .guard printer spoolerJobId => .startCancelling id (go (.deleting printer spoolerJobId))
  | .deleting _ _ =>
    .providerCancel id fun
      | .ok () => go .settle
      | .error e => go (.unguard (.error (e.withJob id)))
  | .settle => .mutate id .cancelSpooled fun m => go (.unguard (.ok (m.map (·.job))))
  | .unguard result =>
    .stopCancelling id
      (match result with
      | .ok (some job) => go (.done (.ok job))
      -- the monitor observed a terminal state first: report that
      | .ok none => go .reload
      | .error e => go (.done (.error e)))
  | .reload =>
    .activeJob id fun
      | some job => go (.done (.ok job))
      | none => go .restored
  | .restored =>
    .get id fun
      | .ok (some job) => go (.done (.ok job))
      | .ok none => go (.done (.error (.jobNotFound id)))
      | .error e => go (.done (.error e))
  | .done _ => .await

end KilnPrint
