/-
`PrintEngine::submit`: from a request to an item in a printer's queue.

* `newJob` — the record a call builds before anything is shared;
* `checkRequest`, `findPrinter`, `resolved`, `routed`, `checkRenderer`,
  `checkPayload` — the checks of `prepare`, each with the error it reports;
* `submitCode` — what the call does from each point of `submit`, `prepare` and
  `enqueue`.

An error of `prepare` or `enqueue` is recorded on the job by `settle`; an error
before the record exists is only returned.
-/
import KilnPrint.Engine.State

namespace KilnPrint

/-! ### The new record -/

def newJob (id : JobId) (who : Submitter) (request : PrintRequest) (now : Time) : Job :=
  { Job.new id who.clientId request.document.documentType request.copies
      request.document.sizeBytes now with
    jobName := request.jobName.map sanitiseJobName
    language := request.document.language
    idempotencyKey := request.idempotencyKey }

/-- The idempotency key is checked before the record is built. -/
def checkKey (request : PrintRequest) : Except PrintError Unit :=
  match request.idempotencyKey with
  | some key => validateIdempotencyKey key
  | none => .ok ()

/-! ### The checks of `prepare` -/

/-- The limits on size and copies. -/
def checkRequest (cfg : EngineConfig) (request : PrintRequest) : Except PrintError Unit :=
  let size := request.document.sizeBytes
  if size = 0 then .error (.invalidPayload "document is empty")
  else if size > cfg.maxDocumentBytes then
    let limit := cfg.maxDocumentBytes
    .error ((PrintError.new .payloadTooLarge
      s!"document is {size} bytes; the limit is {limit} bytes").withDetails
        (.obj [("sizeBytes", .num size), ("limitBytes", .num limit)]))
  else if request.copies = 0 ∨ request.copies > cfg.maxCopies then
    let max := cfg.maxCopies
    .error (.invalidPayload s!"copies must be between 1 and {max}")
  else .ok ()

/-- `Inner::cached_printer`. -/
def cachedPrinter (printers : List Printer) (id : PrinterId) : Option Printer :=
  printers.find? fun p => p.id == id

/-- `Inner::find_printer`. -/
def findPrinter (printers : List Printer) : PrinterSelector → Option Printer
  | .id id => cachedPrinter printers id
  | .name name =>
    (printers.find? fun p => p.name == name).or
      (printers.find? fun p => eqIgnoreAsciiCase p.name name)

/-- The error of `resolve_printer` for an unknown selector. -/
def notFound : PrinterSelector → PrintError
  | .id id => (PrintError.printerNotFound id).withPrinter id
  | .name name => .printerNotFound name

/-- The submitter's scope is checked on the printer found. -/
def checkScope (who : Submitter) (printer : Printer) : Except PrintError Unit :=
  if who.printers.allows printer then .ok ()
  else .error ((PrintError.new .accessDenied
    "this client is not permitted to use the requested printer").withPrinter printer.id)

/-- The language a RAW request names, as registered. -/
def namedLanguage (env : Env) (name : String) : Except PrintError PrinterProtocol :=
  match env.protocols.resolve name with
  | some protocol => .ok protocol
  | none =>
    .error ((PrintError.invalidPayload s!"unknown printer language '{name}'").withDetails
      (.obj [("supportedLanguages",
        .arr (env.protocols.languages.map fun l => .str l.id))]))

/-- The check on a RAW document's inspection. -/
def checkInspection (env : Env) (protocol : PrinterProtocol) (warnings : List String) :
    Except PrintError Unit :=
  if env.config.strictLanguages ∧ warnings ≠ [] then
    let id := protocol.info.id
    let joined := "; ".intercalate warnings
    .error (.invalidPayload s!"{id} data failed validation: {joined}")
  else .ok ()

/-- Finds the renderer and asks whether the printer can take what it makes. -/
def checkRenderer (env : Env) (printer : Printer) (document : Document) :
    Except PrintError Unit := do
  let provider ← env.provider printer.provider
  let type := document.documentType.asStr
  match env.renderers document.documentType with
  | none =>
    .error (.new .unsupportedDocument s!"document type {type} is not supported by this agent")
  | some renderer =>
    if renderer.outputKinds.any (provider.supports printer) then renderer.validate document
    else
      let name := printer.name
      .error ((PrintError.new .unsupportedDocument
        s!"printer '{name}' cannot print {type} documents").withPrinter printer.id)

/-- Asks whether the printer can take the rendered payload. -/
def checkPayload (env : Env) (printer : Printer) (payload : PrintPayload) :
    Except PrintError Unit := do
  let provider ← env.provider printer.provider
  if provider.supports printer payload.kind then .ok ()
  else
    let name := printer.name
    let kind := payload.kind.debugName
    .error ((PrintError.new .unsupportedDocument
      s!"printer '{name}' cannot accept {kind} output").withPrinter printer.id)

/-- A rendered RAW payload names its language when the request did not. -/
def payloadLanguage (language : Option String) : PrintPayload → Option String
  | .raw _ lang => if language.isNone then lang else language
  | _ => language

def documentName (id : JobId) (job : Option Job) : String :=
  (job.bind (·.jobName)).getD s!"Kiln job {id}"

/-! ### The errors of `enqueue` -/

def bufferFull (printer : Printer) : PrintError :=
  (PrintError.new .queueFull "the agent print buffer is full; retry later").withPrinter
    printer.id

def queueFull (printer : Printer) : PrintError :=
  let name := printer.name
  (PrintError.new .queueFull s!"the queue for printer '{name}' is full; retry later").withPrinter
    printer.id

def shuttingDown : PrintError := .new .unsupportedOperation "the agent is shutting down"

/-! ### The routine -/

/-- The point after `resolve_printer` found a printer. -/
def resolved (who : Submitter) (id : JobId) (printer : Printer) : SubmitPc :=
  match checkScope who printer with
  | .ok () => .assign id printer
  | .error e => .settle id e

/-- The point after the printer is assigned: its provider, and the language a
RAW document names. -/
def routed (env : Env) (request : PrintRequest) (id : JobId) (printer : Printer) : SubmitPc :=
  match env.provider printer.provider with
  | .error e => .settle id e
  | .ok _ =>
    match request.document with
    -- only a RAW document with a stated language is inspected
    | .raw _ (some name) =>
      match namedLanguage env name with
      | .ok _ => .inspecting id printer
      | .error e => .settle id e
    | _ => .render id printer [] none

/-- The point after a RAW document was inspected. -/
def inspected (env : Env) (request : PrintRequest) (id : JobId) (printer : Printer)
    (panicked : Bool) : SubmitPc :=
  match request.document with
  | .raw data (some name) =>
    match namedLanguage env name with
    | .error e => .settle id e
    | .ok protocol =>
      -- a panic on the blocking pool comes back as an internal error
      if panicked then .settle id .internal
      else
        match checkInspection env protocol (protocol.inspect data) with
        | .ok () => .render id printer (protocol.inspect data) (some protocol.info.id)
        | .error e => .settle id e
  | _ => .render id printer [] none

/-- The point after rendering. -/
def rendered (env : Env) (id : JobId) (printer : Printer) (warnings : List String)
    (language : Option String) (result : Except PrintError PrintPayload) : SubmitPc :=
  match result with
  | .error e => .settle id e
  | .ok payload =>
    match checkPayload env printer payload with
    | .ok () => .name id printer warnings (payloadLanguage language payload) payload
    | .error e => .settle id e

/-- The result of a failed call, once the failure is recorded on the job. -/
def failure (id : JobId) (error : PrintError) : Option Mutated → PrintError
  | some m => m.job.error.getD error
  | none => error.withJob id

/-- What a `submit` call does from each point. -/
def submitCode (env : Env) (who : Submitter) (request : PrintRequest) (inp : Input) :
    SubmitPc → Op :=
  let go := Task.submit who request
  fun
  -- the gate is held from the lookup of the key to the end of `track`
  | .enter job =>
    .lockGate (go (if job.idempotencyKey.isSome then .lookup job else .insert job))
  | .lookup job =>
    .findByIdempotencyKey who.clientId (job.idempotencyKey.getD "") fun
      | .ok (some stored) => go (.existing stored)
      | .ok none => go (.insert job)
      | .error e => go (.exit (.error e))
  -- an idempotent resubmission answers with the record as it is now
  | .existing stored =>
    .activeJob stored.jobId fun found => go (.exit (.ok (found.getD stored)))
  | .insert job =>
    .insert job fun
      | .ok () => go (.activate job)
      | .error e => go (.exit (.error e))
  | .activate job => .activate job true (go (.leave job.jobId))
  | .exit result => .unlockGate (go (.done result))
  | .leave id => .unlockGate (go (.validate id))
  | .validate id => .mutate id .validating fun _ => go (.check id)
  | .check id =>
    match checkRequest env.config request with
    | .ok () => .skip (go (.resolve id false))
    | .error e => .skip (go (.settle id e))
  -- a printer that is not in the cache is looked for once more, after a refresh
  | .resolve id again =>
    .readPrinters fun printers =>
      match findPrinter printers request.printer with
      | some printer => go (resolved who id printer)
      | none =>
        if again then go (.settle id (notFound request.printer)) else go (.refreshing id)
  | .refreshing id => .refresh (go (.resolve id true))
  | .assign id printer =>
    .mutate id (.assignPrinter printer.id printer.name) fun _ => go (.route id printer)
  | .route id printer => .skip (go (routed env request id printer))
  | .inspecting id printer => .skip (go (inspected env request id printer inp.panicked))
  | .render id printer warnings language =>
    match checkRenderer env printer request.document with
    | .ok () => .skip (go (.rendering id printer warnings language))
    | .error e => .skip (go (.settle id e))
  | .rendering id printer warnings language =>
    .skip (go (rendered env id printer warnings language inp.rendered))
  | .name id printer warnings language payload =>
    .activeJob id fun job =>
      go (.reserve
        { jobId := id
          size := request.document.sizeBytes
          warnings := warnings
          language := language
          spec :=
            { jobId := id
              documentName := documentName id job
              copies := request.copies
              payload := payload }
          printer := printer })
  | .reserve p =>
    .tryReserve p.size fun
      | true => go (.queue p)
      | false => go (.settle p.jobId (bufferFull p.printer))
  -- marked `QUEUED` before it is handed over, so that the worker never sees an
  -- earlier state
  | .queue p =>
    .mutate p.jobId (.queue p.warnings p.language) fun
      | some m => go (.sender p m.job)
      -- the job was cancelled while it was prepared: the stored record is the answer
      | none => go (.stored p.jobId p.size)
  | .stored id bytes =>
    .get id fun
      | .ok (some job) => go (.release id bytes (.ok job))
      | .ok none => go (.release id bytes (.error (.jobNotFound id)))
      | .error e => go (.release id bytes (.error e))
  | .sender p job => .senderFor p.printer.id fun target => go (.send p job target)
  | .send p job target =>
    .trySend target
      { jobId := p.jobId, printer := p.printer, spec := p.spec, reservation := p.size } fun
      | .ok => go (.done (.ok job))
      | .full => go (.release p.jobId p.size (.error (queueFull p.printer)))
      | .closed => go (.release p.jobId p.size (.error shuttingDown))
  -- the reservation is dropped where `enqueue` returns, before the job fails
  | .release id bytes result =>
    .release bytes
      (match result with
      | .ok job => go (.done (.ok job))
      | .error e => go (.settle id e))
  -- `map_err`: what the record says of the failure goes before the error itself
  | .settle id e => .mutate id (.fail e) fun m => go (.done (.error (failure id e m)))
  | .done _ => .await

end KilnPrint
