/-
The operations of the API, with their authorisation.

* `listPrinters`, `getPrinter`, `defaultPrinter`, `printerCapabilities` — what a
  caller sees of printers;
* `submit`, `submitPending`, `listJobs`, `getJob`, `cancelJob` — jobs;
* `queueSummaries`, `printerQueue`, `listClients` — queues and clients;
* `dispatch` — a WebSocket method call, by its name.

A reply is returned as it is before serialisation.
-/
import KilnPrint.Agent.Backend

namespace KilnPrint

namespace Service

open Backend

variable (b : Backend) (who : Principal)

def require (permission : Permission) : Service Unit := lift (who.require permission)

/-! ### Printers -/

def listPrinters : Service (List Printer) := do
  require who .printersRead
  let printers ← b.printers
  pure (printers.filter who.printerScope.allows)

/-- The answer for a printer outside the caller's scope. -/
def outOfScope : PrinterSelector → PrintError
  | .id id => .printerNotFound id
  | .name name => .printerNotFound name

/-- Resolves a printer the caller may see. -/
def visiblePrinter (selector : PrinterSelector) : Service Printer := do
  let printer ← b.resolvePrinter selector
  if who.printerScope.allows printer then pure printer
  else Fallible.fail (outOfScope selector)

/-- The printer with its capabilities, if its provider can tell. -/
def getPrinter (selector : PrinterSelector) :
    Service (Printer × Option PrinterCapabilities) := do
  require who .printersRead
  let printer ← visiblePrinter b who selector
  fun a =>
    match b.capabilities printer.id a with
    | (.ok caps, a) => (.ok (printer, some caps), a)
    -- capabilities that cannot be read are left out of the reply
    | (.error _, a) => (.ok (printer, none), a)

def defaultPrinter : Service (Option Printer) := do
  require who .printersRead
  let printer ← b.defaultPrinter
  pure (printer.filter who.printerScope.allows)

/-- `service::capabilities`. -/
def printerCapabilities (selector : PrinterSelector) : Service PrinterCapabilities := do
  require who .printersRead
  let printer ← visiblePrinter b who selector
  b.capabilities printer.id

/-! ### Printing -/

def submit (request : PrintRequest) : Service Job := do
  require who .print
  b.callSubmit who.submitter request

/-- The permission is checked before the source is resolved. -/
def submitPending (pending : PendingRequest) : Service Job := do
  require who .print
  let data ← b.callResolveSource pending.source
  submit b who (pending.complete data)

/-! ### Jobs -/

def canSee (job : Job) : Bool :=
  who.has .jobsReadAll || (who.has .jobsRead && job.clientId == who.clientId)

/-- The filter a listing is made with: without `jobs.read.all`, the caller's own
jobs, whatever was asked for. -/
def jobFilter (params : JobsListParams) (statuses : List JobStatus) : JobFilter where
  clientId := if who.has .jobsReadAll then params.clientId else some who.clientId
  printerId := params.printerId
  statuses := statuses
  since := params.since
  upto := params.upto
  limit := params.limit.getD 100
  offset := params.offset.getD 0

def listJobs (params : JobsListParams) : Service (List Job) := do
  if !who.has .jobsRead && !who.has .jobsReadAll then require who .jobsRead
  let statuses ← lift params.status.parse
  reading fun jobs => b.listed jobs (jobFilter who params statuses)

/-- What a caller sees of a job: the same answer for a missing job and for one of
another client. -/
def seen (id : JobId) : Except PrintError Job → Except PrintError Job
  | .ok job => if canSee who job then .ok job else .error (.jobNotFound id)
  | .error _ => .error (.jobNotFound id)

def getJob (id : JobId) : Service Job := reading fun jobs => seen who id (b.job jobs id)

def cancelJob (id : JobId) : Service Job := do
  -- a job of another client is not found, unless all jobs may be read
  let job ← getJob b who id
  if job.clientId = who.clientId then
    if !who.has .jobsCancel then require who .jobsCancelAll
  else require who .jobsCancelAll
  b.callCancel id

/-! ### Queues -/

/-- `service::queue_summary`. -/
def queueSummaries : Service (List QueueSummary) := do
  require who .queueRead
  let printers ← b.printers
  let visible := (printers.filter who.printerScope.allows).map (·.id)
  let summaries ← b.queueSummary
  pure (summaries.filter fun q => visible.contains q.printerId)

/-- What a caller without `jobs.read.all` sees of a queue: the entries of others
are there, without what they are. -/
def redact (snapshot : PrinterQueueSnapshot) : PrinterQueueSnapshot :=
  { snapshot with
    agentQueue := snapshot.agentQueue.filter fun j => j.clientId == who.clientId
    spoolerQueue := snapshot.spoolerQueue.map fun e =>
      if e.kilnJob.any fun j => j.clientId == who.clientId then e
      else { e with documentName := none, statusText := none, kilnJob := none } }

/-- `service::queue`. -/
def printerQueue (selector : PrinterSelector) : Service PrinterQueueSnapshot := do
  require who .queueRead
  let printer ← visiblePrinter b who selector
  let snapshot ← b.queue printer.id
  pure (if who.has .jobsReadAll then snapshot else redact who snapshot)

/-! ### Clients -/

structure ClientSummary where
  clientId : String
  name : String
  isAdmin : Bool
  origins : List String
  permissions : List Permission
  printers : List String
  connected : Bool
  sessions : List SessionInfo

/-- A client's line, with the sessions it has open. -/
def clientSummary (client : ClientConfig) (isAdmin : Bool) : ClientSummary :=
  let sessions := b.sessions.filter fun s => s.clientId == client.id
  { clientId := client.id
    name := client.name
    isAdmin := isAdmin
    origins := client.origins
    permissions := client.permissions
    printers := client.printers
    connected := !sessions.isEmpty
    sessions := sessions }

def localAdministrator : ClientConfig where
  id := adminClientId
  name := "Local administrator"
  origins := b.adminOrigins
  permissions := Permission.all
  printers := ["*"]

def listClients : Service (List ClientSummary) := do
  require who .clientsRead
  pure (clientSummary b (localAdministrator b) true ::
    b.clients.map fun c => clientSummary b c false)

/-! ### Dispatch -/

inductive Reply
  | time (now : Time)
  | printers (printers : List Printer)
  | defaultPrinter (printer : Option Printer)
  | printer (printer : Printer) (capabilities : Option PrinterCapabilities)
  | capabilities (capabilities : PrinterCapabilities)
  | job (job : Job)
  | jobs (jobs : List Job)
  | summaries (summaries : List QueueSummary)
  | queue (snapshot : PrinterQueueSnapshot)
  | clients (clients : List ClientSummary)

/-- The printer that `printers.get` and the like name. -/
def selected (params : Value) : Service PrinterSelector := do
  let p ← lift (parseParams b.serde.printer params)
  lift (selector p.printerId p.printer)

/-- The job that `jobs.get` and `jobs.cancel` name. -/
def named (params : Value) : Service JobId := do
  let p ← lift (parseParams b.serde.jobId params)
  lift (p.parse b.serde)

/-- `print.submit`. -/
def submitGeneric (params : Value) : Service Job := do
  require who .print
  let p ← lift (parseParams b.serde.generic params)
  match ← lift (p.intoTyped b.serde b.maxDocumentBytes) with
  | .ready request => submit b who request
  | .pending pending => submitPending b who pending

/-- The print methods whose document is in the request. -/
def submitTyped {α : Type} (decode : Value → Except String α)
    (intoRequest : α → Except PrintError PrintRequest) (params : Value) : Service Job := do
  let p ← lift (parseParams decode params)
  let request ← lift (intoRequest p)
  submit b who request

/-- The print methods whose document has to be resolved. -/
def submitBinary (decode : Value → Except String BinaryPrintParams) (build : Bytes → Document)
    (params : Value) : Service Job := do
  let p ← lift (parseParams decode params)
  let pending ← lift (p.intoPending build)
  submitPending b who pending

/-- Routes a WebSocket method call. -/
def dispatch (method : String) (params : Value) : Service Reply :=
  let max := b.maxDocumentBytes
  let serde := b.serde
  match method with
  | "session.ping" => pure (.time b.now)
  | "printers.list" => .printers <$> listPrinters b who
  | "printers.default" => .defaultPrinter <$> defaultPrinter b who
  | "printers.get" => do
    let (printer, caps) ← getPrinter b who (← selected b params)
    pure (.printer printer caps)
  | "printers.capabilities" => do
    let caps ← printerCapabilities b who (← selected b params)
    pure (.capabilities caps)
  | "print.submit" => .job <$> submitGeneric b who params
  | "print.raw" => .job <$> submitTyped b who serde.raw (·.intoRequest serde max) params
  | "print.text" => .job <$> submitTyped b who serde.text (·.intoRequest max) params
  | "print.html" => .job <$> submitTyped b who serde.html (·.intoRequest max) params
  | "print.label" => .job <$> submitTyped b who serde.label (·.intoRequest max) params
  | "print.receipt" => .job <$> submitTyped b who serde.receipt (·.intoRequest max) params
  | "print.dotmatrix" => .job <$> submitTyped b who serde.dotMatrix (·.intoRequest max) params
  | "print.pdf" => .job <$> submitBinary b who serde.pdf .pdf params
  | "print.image" => .job <$> submitBinary b who serde.image .image params
  | "jobs.list" => do
    let p ← lift (parseParams serde.jobsList params)
    let jobs ← listJobs b who p
    pure (.jobs jobs)
  | "jobs.get" => do
    let job ← getJob b who (← named b params)
    pure (.job job)
  | "jobs.cancel" => do
    let job ← cancelJob b who (← named b params)
    pure (.job job)
  | "queue.list" => .summaries <$> queueSummaries b who
  | "queue.get" => do
    let snapshot ← printerQueue b who (← selected b params)
    pure (.queue snapshot)
  | "clients.list" => .clients <$> listClients b who
  -- the handshake is over before requests are dispatched
  | "session.hello" =>
    Fallible.fail (.new .invalidPayload "session is already authenticated")
  | other => Fallible.fail (.new .unsupportedOperation s!"unknown method '{other}'")

end Service

end KilnPrint
