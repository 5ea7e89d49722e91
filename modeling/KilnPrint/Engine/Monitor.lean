/-
`monitor::run` and `apply`: watching a spooled job until it is settled.

* `observedChange` — the change each reported state makes;
* `monitorCode` — what a monitor does from each point.
-/
import KilnPrint.Engine.Worker

namespace KilnPrint

/-- The change `apply` makes for a reported state.  A job that is gone while we
are deleting it was cancelled; otherwise it was printed. -/
def observedChange : ProviderJobState → Bool → Change
  | .pending, _ => .pending
  | .printing, _ => .printing
  | .blocked condition, _ => .blocked condition
  | .printed, _ => .complete .spoolerReportedPrinted
  | .gone, true => .cancelDeleted
  | .gone, false => .complete .spoolerJobRetired
  | .failed e, _ => .fail e
  | .cancelled, _ => .cancelObserved

/-- The monitor's next point after its change. -/
def afterApply : Option Mutated → MonitorPc
  | none => .done
  | some m => if m.job.status.isTerminal then .done else .sleeping

/-- What a monitor does from each point. -/
def monitorCode (env : Env) (m : Monitor) : Op :=
  let go := fun pc : MonitorPc => Task.monitor { m with pc := pc }
  match m.pc with
  | .spawned =>
    match env.provider m.printer.provider with
    | .ok _ => .skip (go .sleeping)
    | .error _ => .skip (go .done)
  | .sleeping => .isShutdown fun shutdown => go (if shutdown then .done else .check)
  -- cancelled through the API, or settled elsewhere
  | .check => .activeJob m.jobId fun job => go (if job.isSome then .query else .done)
  | .query =>
    .jobState m.jobId fun
      -- a failing query says nothing about the print itself
      | .error _ => go .sleeping
      | .ok .gone => go .gone
      | .ok state => go (.apply state false)
  -- whether a deletion is under way is read after the query, in a step of its own
  | .gone => .isCancelling m.jobId fun cancelling => go (.apply .gone cancelling)
  | .apply state cancelling =>
    .mutate m.jobId (observedChange state cancelling) fun m => go (afterApply m)
  | .done => .await

end KilnPrint
