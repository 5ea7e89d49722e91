/-
`worker::run` and `process`: draining one printer's queue in order.

* `timeoutError`, `panicError` — the errors a submission can end with besides
  the provider's own;
* `settleCall` — the change that records how a call ended;
* `workerCode` — what a worker does from each point.

The blocking call itself proceeds without its worker; see `invoke` and `finish`
in the system module.
-/
import KilnPrint.Engine.Submit

namespace KilnPrint

def timeoutError (seconds : ℕ) : PrintError :=
  ((PrintError.new .timeout
    s!"the printer did not accept the job within {seconds}s; it may still print").recoverably
      false).withDetails
    (.obj [("outcome", .str "UNKNOWN"), ("timeoutSeconds", .num seconds)])

def panicError : PrintError := PrintError.internal.withDetails (outcomeDetails "UNKNOWN")

/-- The change that records how a call ended (`submitted` and `fail`). -/
def settleCall : CallResult → Change
  | .outcome .delivered => .delivered
  | .outcome (.spooled spoolerJobId) => .spooled spoolerJobId
  | .error e => .fail e
  | .panicked => .fail panicError

/-- The worker's next point after a call was recorded. -/
def afterCall (call : Call) : CallResult → WorkerPc
  | .outcome (.spooled spoolerJobId) => .watch call.jobId call.printer spoolerJobId
  | _ => .idle

/-- What a worker does from each point. -/
def workerCode (env : Env) (w : Worker) (inp : Input) : Op :=
  let go := fun pc : WorkerPc => Task.worker { w with pc := pc }
  match w.pc with
  -- `biased`: the shutdown comes before the queue
  | .idle => .isShutdown fun shutdown => go (if shutdown then .stopping else .polling)
  | .polling =>
    match w.rx with
    | [] => .skip (go .idle)
    | item :: rest => .skip (.worker { w with rx := rest, pc := .claim item })
  | .stopping => .dropReceiver w.rx (.worker { w with rx := [], pc := .stopped })
  -- a job that was cancelled while queued is no longer active, and is dropped here
  | .claim item =>
    .mutate item.jobId .claim fun
      | some _ => go (.lookup item)
      | none => go (.discard item.reservation)
  | .lookup item =>
    .readPrinters fun printers =>
      -- the latest snapshot, since the driver or the port may have changed
      let printer := (cachedPrinter printers item.printer.id).getD item.printer
      match env.provider printer.provider with
      | .ok _ =>
        go (.calling
          { jobId := item.jobId
            printer := printer
            spec := item.spec
            reservation := item.reservation
            phase := .spawned })
      | .error e => go (.failing item e)
  | .failing item e => .mutate item.jobId (.fail e) fun _ => go (.discard item.reservation)
  | .discard bytes => .release bytes (go .idle)
  -- the call and the timeout race
  | .calling call =>
    if inp.timeout then
      .mutate call.jobId (.fail (timeoutError env.config.submitTimeoutSecs)) fun _ =>
        go (.late call)
    else
      match call.phase with
      | .finished result =>
        .mutate call.jobId (settleCall result) fun _ => go (afterCall call result)
      | _ => .await
  -- the next job waits for the late call, so that output stays in order
  | .late call =>
    match call.phase with
    | .finished _ => .skip (go .idle)
    | _ => .await
  | .watch id printer spoolerJobId => .spawnMonitor id printer spoolerJobId (go .idle)
  | .stopped => .await

end KilnPrint
