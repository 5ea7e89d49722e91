/-
`PrintEngine::shutdown`, `start` and `reconcile_after_restart`.

* `shutdownCode` — stops accepting work and fails the jobs that, in its
  snapshot, never left the agent;
* `reconciled` — how reconciliation settles a record a previous process left
  non-terminal, given its cached printer: by watching it again or by a final
  change;
* `startCode` — discovery, then reconciliation of every such record.

The lists both routines work through have no fixed order (a hash map's values,
the rows of a query), so each step takes any element.
-/
import KilnPrint.Engine.Cancel

namespace KilnPrint

/-! ### Shutdown -/

def shutdownError : PrintError :=
  notPrinted "the agent shut down before this job was sent to the printer"

/-- What a `shutdown` call does from each point. -/
def shutdownCode (inp : Input) : ShutdownPc → Op
  | .cancel => .cancelToken (.shutdown .snapshot)
  | .snapshot =>
    .activeJobs (fun j => j.delivery = .requestAccepted) fun jobs =>
      .shutdown (.failing (jobs.map (·.jobId)))
  | .failing [] => .skip (.shutdown .done)
  -- the jobs come in the order of a hash map; the snapshot is not taken again
  | .failing todo =>
    match todo[inp.pick]? with
    | some id =>
      .mutate id (.fail shutdownError) fun _ => .shutdown (.failing (todo.eraseIdx inp.pick))
    | none => .await
  | .done => .await

/-! ### Restart -/

def printerGoneError : PrintError :=
  ((PrintError.new .printerNotFound
    "the printer disappeared while the agent was stopped; the job's outcome is unknown").recoverably
      false).withDetails (outcomeDetails "UNKNOWN")

def interruptedError : PrintError :=
  ((PrintError.new .printFailed
    "the agent stopped while handing this job to the printer; it may or may not have printed").recoverably
      false).withDetails (outcomeDetails "UNKNOWN")

def restartError : PrintError :=
  notPrinted "the agent restarted before this job was sent to the printer"

/-- How reconciliation settles a record: watch it again, or a final change. -/
inductive Reconciled
  | watch (printer : Printer) (spoolerJobId : ℕ)
  | close (change : Change)
  deriving DecidableEq

/-- The `match` of `reconcile_after_restart`. -/
def reconciled (job : Job) (printer : Option Printer) : Reconciled :=
  match job.delivery, job.spoolerJobId, printer with
  -- watched on in the spooler; nothing is ever sent again
  | .spoolerAccepted, some spoolerJobId, some printer => .watch printer spoolerJobId
  | .spoolerAccepted, _, _ => .close (.fail printerGoneError)
  | .submitting, _, _ => .close (.fail interruptedError)
  | .requestAccepted, _, _ => .close (.fail restartError)
  | .deviceDelivered, _, _ => .close (.complete .bytesDelivered)

/-- A final change is a failure, except for bytes that were all delivered; it says
`NOT_PRINTED` only of a job that was still waiting. -/
theorem reconciled_close {job : Job} {printer : Option Printer} {ch : Change}
    (h : reconciled job printer = .close ch) :
    (ch = .complete .bytesDelivered ∧ job.delivery = .deviceDelivered) ∨
      ∃ e, ch = .fail e ∧ (e.outcome = some "NOT_PRINTED" → job.delivery = .requestAccepted) := by
  unfold reconciled at h
  split at h
  · cases h
  · obtain rfl := Reconciled.close.inj h
    exact Or.inr ⟨_, rfl, fun ho => absurd ho (by decide)⟩
  · obtain rfl := Reconciled.close.inj h
    exact Or.inr ⟨_, rfl, fun ho => absurd ho (by decide)⟩
  · next hd =>
    obtain rfl := Reconciled.close.inj h
    exact Or.inr ⟨_, rfl, fun _ => hd⟩
  · next hd =>
    obtain rfl := Reconciled.close.inj h
    exact Or.inl ⟨rfl, hd⟩

theorem reconciled_watch {job : Job} {printer : Option Printer} {p : Printer} {spoolerJobId : ℕ}
    (h : reconciled job printer = .watch p spoolerJobId) :
    job.delivery = .spoolerAccepted ∧ job.spoolerJobId = some spoolerJobId ∧
      printer = some p := by
  unfold reconciled at h
  split at h
  · next hd hs =>
    obtain ⟨rfl, rfl⟩ := Reconciled.watch.inj h
    exact ⟨hd, hs, rfl⟩
  all_goals cases h

/-- What `start` does from each point. -/
def startCode (inp : Input) : StartPc → Op
  | .refresh => .refresh (.start .load)
  | .load =>
    .nonTerminal fun
      | .ok jobs => .start (.reconcile jobs)
      | .error _ => .start .failed
  | .reconcile [] => .skip (.start .done)
  -- the repository lists the records in any order
  | .reconcile jobs =>
    match jobs[inp.pick]? with
    | some job => .activate job false (.start (.locate job (jobs.eraseIdx inp.pick)))
    | none => .await
  | .locate job rest =>
    .readPrinters fun printers =>
      .start (.settle job (job.printerId.bind (cachedPrinter printers)) rest)
  | .settle job printer rest =>
    match reconciled job printer with
    | .watch printer spoolerJobId =>
      .spawnMonitor job.jobId printer spoolerJobId (.start (.reconcile rest))
    | .close ch => .mutate job.jobId ch fun _ => .start (.reconcile rest)
  | .failed => .await
  | .done => .await

end KilnPrint
