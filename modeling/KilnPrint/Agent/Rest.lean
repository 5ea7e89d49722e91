/-
The REST transport.

* `Route`, `route` — what a request asks for, by its verb and its path;
* `health` — the liveness answer, which asks for no caller;
* `authed` — the caller of a request, from its headers;
* `Route.run`, `handle` — the operations, and the answer to a request;
* `Route.call` — **the method call that a route stands for**;
* `rest_agrees` — **a route does what its method does**, for the caller that the token belongs to,
  and a request without one does nothing, unless it asks whether the agent is alive.

A path comes in segments, decoded; a segment that is captured is not empty.
-/
import KilnPrint.Agent.Clients
import KilnPrint.Model.PageRanges

namespace KilnPrint

namespace Rest

open Backend
open Connection (AuditRecord)
open Replay (supportedProtocolVersions)

/-! ### Requests -/

/-- An HTTP method; a `HEAD` is taken as a `GET`. -/
inductive Verb
  | get
  | post
  | delete
  | other
  deriving DecidableEq

/-- The body of a request, as it is read: the JSON in it, or the decoder's message. -/
inductive Body
  | tooLarge
  | read (json : Except String Value)

structure Request where
  peer : SocketAddr
  headers : Headers
  authorization : Option Bytes
  verb : Verb
  /-- The segments of the path after `/v1`. -/
  path : List String
  query : List (String × String)
  body : Body

/-- The documents with a route of their own. -/
inductive DocumentRoute
  | raw
  | text
  | pdf
  | html
  | image
  | label
  | receipt
  | dotmatrix
  deriving DecidableEq

inductive Route
  | printers
  | defaultPrinter
  | printer (id : String)
  | capabilities (id : String)
  | print
  | printDocument (document : DocumentRoute)
  | printUnsupported (kind : String)
  | jobs
  | job (id : String)
  | cancelJob (id : String)
  | queueSummary
  | queue (id : String)
  | clients
  | audit

/-- What the router makes of a verb and a path. -/
inductive Routed
  | health
  /-- The path of the WebSocket. -/
  | ws
  | found (route : Route)
  | methodNotAllowed
  | notFound

def DocumentRoute.ofSegment : String → Option DocumentRoute
  | "raw" => some raw
  | "text" => some text
  | "pdf" => some pdf
  | "html" => some html
  | "image" => some image
  | "label" => some label
  | "receipt" => some receipt
  | "dotmatrix" => some dotmatrix
  | _ => none

/-- `routes`: the operations at a path; a fixed segment comes before a captured one. -/
def operations : List String → Option (Verb → Option Route)
  | ["printers"] => some fun v => if v = .get then some .printers else none
  | ["printers", id] =>
    if id = "" then none
    else some fun v =>
      if v = .get then some (if id = "default" then .defaultPrinter else .printer id) else none
  | ["printers", id, "capabilities"] =>
    if id = "" then none else some fun v => if v = .get then some (.capabilities id) else none
  | ["print"] => some fun v => if v = .post then some .print else none
  | ["print", kind] =>
    if kind = "" then none
    else some fun v =>
      if v = .post then
        some (match DocumentRoute.ofSegment kind with
          | some document => .printDocument document
          | none => .printUnsupported kind)
      else none
  | ["jobs"] => some fun v => if v = .get then some .jobs else none
  | ["jobs", id] =>
    if id = "" then none
    else some fun v =>
      if v = .get then some (.job id) else if v = .delete then some (.cancelJob id) else none
  | ["queue"] => some fun v => if v = .get then some .queueSummary else none
  | ["queue", id] =>
    if id = "" then none else some fun v => if v = .get then some (.queue id) else none
  | ["clients"] => some fun v => if v = .get then some .clients else none
  | ["audit"] => some fun v => if v = .get then some .audit else none
  | _ => none

/-- `router`: the two paths of its own, and those of the operations. -/
def route (verb : Verb) : List String → Routed
  | ["health"] => if verb = .get then .health else .methodNotAllowed
  | ["ws"] => if verb = .get then .ws else .methodNotAllowed
  | path =>
    match operations path with
    | none => .notFound
    | some handlers =>
      match handlers verb with
      | some route => .found route
      | none => .methodNotAllowed

/-! ### Answers -/

/-- The status of an error. -/
def errorStatus : ErrorCode → ℕ
  | .printerNotFound | .jobNotFound => 404
  | .authenticationRequired | .clientNotTrusted => 401
  | .accessDenied => 403
  | .invalidPayload => 400
  | .payloadTooLarge => 413
  | .unsupportedDocument | .unsupportedOperation | .unsupportedProtocolVersion => 422
  | .invalidJobState => 409
  | .rateLimited => 429
  | .queueFull | .printerBusy | .printerOffline | .paperOut | .paperJam => 503
  | .timeout => 504
  | .connectionError | .spoolerError | .printFailed => 502
  | .internalError => 500

/-- What a request returns: the reply of an operation, or entries of the audit log. -/
inductive Answer
  | reply (reply : Service.Reply)
  | entries (entries : List Value)

inductive Response
  /-- The envelope of the API. -/
  | api (status : ℕ) (result : Except PrintError Answer)
  /-- A JSON document outside the API. -/
  | json (status : ℕ) (body : Value)
  /-- A plain text, before the API is reached. -/
  | plain (status : ℕ) (reason : String)

def refusal (e : PrintError) : Response := .api (errorStatus e.errorCode) (.error e)

def Response.status : Response → ℕ
  | api status _ | json status _ | plain status _ => status

/-- `health`. -/
def health : Response :=
  .json 200 (.obj [("status", .str "ok"),
    ("protocolVersions", .arr (supportedProtocolVersions.map fun v => .num v))])

/-! ### The caller -/

/-- What the transport is given of the agent. -/
structure Server (δ : Type) where
  guard : RequestGuard
  digests : Digests δ
  auth : TokenAuthenticator δ
  /-- `Database::audit_entries`. -/
  auditEntries : ℕ → Except PrintError (List Value)

/-- The token of an `Authorization` header. -/
def bearerToken (value : Bytes) : Option String :=
  (headerText value).bind fun text =>
    if "Bearer ".toList <+: text then
      let token := trimWhitespace (text.drop "Bearer ".length)
      if token = [] then none else some (.ofList token)
    else none

/-- Whether the limiter lets a client's request through. -/
abbrev Limiter := String → Bool

section

variable {δ : Type} [DecidableEq δ]

/-- `Authed`: the caller, or the refusal; and what is written to the audit log. -/
def authed (sv : Server δ) (limiter : Limiter) (r : Request) :
    Except Response Caller × List AuditRecord :=
  match sv.guard.check r.peer r.headers with
  | .error (status, reason) => (.error (.plain status reason), [])
  | .ok connection =>
    match r.authorization.bind bearerToken with
    | none =>
      (.error (refusal (.new .authenticationRequired "missing bearer token")), [])
    | some token =>
      match sv.auth.authenticate sv.digests token connection with
      | .error e => (.error (refusal e), [.authFailure connection.origin e.errorCode])
      | .ok who =>
        if limiter who.clientId then (.ok who, [])
        else (.error (refusal (.new .rateLimited "too many requests; slow down")), [])

end

/-! ### The operations -/

/-- The parameters in a body. -/
def bodyParams {α : Type} (decode : Value → Except String α) (json : Except String Value) :
    Except PrintError α :=
  match json with
  | .error e => .error (.invalidPayload s!"request body is not valid JSON: {e}")
  | .ok value => parseParams decode value

/-- `parse::<u64>()`: digits, after a plus sign or not. -/
def parseU64 (text : String) : Option ℕ :=
  let digits := PageRanges.unsigned text.toList
  if digits ≠ [] ∧ digits.all Char.isDigit ∧ PageRanges.decimal digits < 2 ^ 64 then
    some (PageRanges.decimal digits)
  else none

/-- A parameter of a listing. -/
def queryField (field : String × String) : Except PrintError (String × Value) :=
  if field.1 = "limit" ∨ field.1 = "offset" then
    match parseU64 field.2 with
    | some n => .ok (field.1, .num n)
    | none =>
      let key := field.1
      .error (.invalidPayload s!"{key} must be a number")
  else .ok (field.1, .str field.2)

/-- The parameters of a listing, from the query. -/
def queryParams (query : List (String × String)) : Except PrintError Value :=
  .obj <$> query.mapM queryField

def DocumentRoute.method : DocumentRoute → String
  | raw => "print.raw"
  | text => "print.text"
  | pdf => "print.pdf"
  | html => "print.html"
  | image => "print.image"
  | label => "print.label"
  | receipt => "print.receipt"
  | dotmatrix => "print.dotmatrix"

section

variable {δ : Type} (sv : Server δ) (b : Backend) (who : Caller) (json : Except String Value)

/-- `print`. -/
def printBody : Service Job := do
  Service.require who.toPrincipal .print
  let p ← lift (bodyParams b.serde.generic json)
  match ← lift (p.intoTyped b.serde b.maxDocumentBytes) with
  | .ready request => Service.submit b who.toPrincipal request
  | .pending pending => Service.submitPending b who.toPrincipal pending

/-- The print routes whose document is in the body. -/
def printTyped {α : Type} (decode : Value → Except String α)
    (intoRequest : α → Except PrintError PrintRequest) : Service Job := do
  let p ← lift (bodyParams decode json)
  let request ← lift (intoRequest p)
  Service.submit b who.toPrincipal request

/-- The print routes whose document has to be resolved. -/
def printBinary (decode : Value → Except String BinaryPrintParams) (build : Bytes → Document) :
    Service Job := do
  let p ← lift (bodyParams decode json)
  let pending ← lift (p.intoPending build)
  Service.submitPending b who.toPrincipal pending

def DocumentRoute.run : DocumentRoute → Service Job
  | raw => printTyped b who json b.serde.raw (·.intoRequest b.serde b.maxDocumentBytes)
  | text => printTyped b who json b.serde.text (·.intoRequest b.maxDocumentBytes)
  | html => printTyped b who json b.serde.html (·.intoRequest b.maxDocumentBytes)
  | label => printTyped b who json b.serde.label (·.intoRequest b.maxDocumentBytes)
  | receipt => printTyped b who json b.serde.receipt (·.intoRequest b.maxDocumentBytes)
  | dotmatrix => printTyped b who json b.serde.dotMatrix (·.intoRequest b.maxDocumentBytes)
  | pdf => printBinary b who json b.serde.pdf .pdf
  | image => printBinary b who json b.serde.image .image

/-- A kind of document without a route. -/
def unknownDocument (kind : String) : PrintError :=
  let shown := kind.toUpper
  .new .unsupportedDocument s!"unknown document type '{shown}'"

/-- The operation of a route. -/
def Route.run (query : List (String × String)) : Route → Service Answer
  | printers => (.reply <| .printers ·) <$> Service.listPrinters b who.toPrincipal
  | defaultPrinter => (.reply <| .defaultPrinter ·) <$> Service.defaultPrinter b who.toPrincipal
  | printer id => do
    let (found, caps) ← Service.getPrinter b who.toPrincipal (.id id)
    pure (.reply (.printer found caps))
  | capabilities id =>
    (.reply <| .capabilities ·) <$> Service.printerCapabilities b who.toPrincipal (.id id)
  | print => (.reply <| .job ·) <$> printBody b who json
  | printDocument document => (.reply <| .job ·) <$> document.run b who json
  | printUnsupported kind => Fallible.fail (unknownDocument kind)
  | jobs => do
    let params ← lift (queryParams query)
    let p ← lift (parseParams b.serde.jobsList params)
    (.reply <| .jobs ·) <$> Service.listJobs b who.toPrincipal p
  | job id => do
    let id ← lift (JobIdParams.parse b.serde ⟨id⟩)
    (.reply <| .job ·) <$> Service.getJob b who.toPrincipal id
  | cancelJob id => do
    let id ← lift (JobIdParams.parse b.serde ⟨id⟩)
    (.reply <| .job ·) <$> Service.cancelJob b who.toPrincipal id
  | queueSummary => (.reply <| .summaries ·) <$> Service.queueSummaries b who.toPrincipal
  | queue id => (.reply <| .queue ·) <$> Service.printerQueue b who.toPrincipal (.id id)
  | clients => (.reply <| .clients ·) <$> Service.listClients b who.toPrincipal
  | audit =>
    if who.kind = .admin then
      let limit := ((query.lookup "limit").bind parseU64).getD 100
      (.entries ·) <$> lift (sv.auditEntries limit)
    else
      Fallible.fail (.new .accessDenied
        "the audit log is only available to the local administrator")

/-- The status of a route that succeeds. -/
def Route.success : Route → ℕ
  | print | printDocument _ => 202
  | _ => 200

/-- The body of a route that reads one. -/
def Route.read : Route → Body → Option (Except String Value)
  | print, body | printDocument _, body =>
    match body with
    | .tooLarge => none
    | .read json => some json
  | _, _ => some (.ok .null)

/-- What an operation comes to. -/
def respond (success : ℕ) : Except PrintError Answer → Response
  | .ok answer => .api success (.ok answer)
  | .error e => refusal e

variable [DecidableEq δ]

/-- The answer to a request, the agent after it, and what is written to the audit log. -/
def handle (limiter : Limiter) (r : Request) (a : Agent) : Response × Agent × List AuditRecord :=
  match Rest.route r.verb r.path with
  | .health => (health, a, [])
  -- a request that is not an upgrade
  | .ws => (.plain 400 "", a, [])
  | .notFound => (.plain 404 "", a, [])
  | .methodNotAllowed => (.plain 405 "", a, [])
  | .found route =>
    match authed sv limiter r with
    | (.error refused, audits) => (refused, a, audits)
    | (.ok who, audits) =>
      match route.read r.body with
      | none => (.plain 413 "length limit exceeded", a, audits)
      | some json =>
        let (result, a') := route.run sv b who json r.query a
        (respond route.success result, a', audits)

end

/-! ### The same operations -/

/-- The method call that a route stands for. -/
def Route.call (query : List (String × String)) (json : Value) : Route → Option (String × Value)
  | printers => some ("printers.list", .null)
  | defaultPrinter => some ("printers.default", .null)
  | printer id => some ("printers.get", .obj [("printerId", .str id)])
  | capabilities id => some ("printers.capabilities", .obj [("printerId", .str id)])
  | print => some ("print.submit", json)
  | printDocument document => some (document.method, json)
  | jobs => (queryParams query).toOption.map fun params => ("jobs.list", params)
  | job id => some ("jobs.get", .obj [("jobId", .str id)])
  | cancelJob id => some ("jobs.cancel", .obj [("jobId", .str id)])
  | queueSummary => some ("queue.list", .null)
  | queue id => some ("queue.get", .obj [("printerId", .str id)])
  | clients => some ("clients.list", .null)
  | printUnsupported _ | audit => none

/-- What the decoders make of the parameters that name a printer or a job. -/
structure NamesDecoded (serde : Serde) : Prop where
  printer : ∀ id, serde.printer (.obj [("printerId", .str id)]) = .ok ⟨some id, none⟩
  job : ∀ id, serde.jobId (.obj [("jobId", .str id)]) = .ok ⟨id⟩

section

variable {δ : Type} {sv : Server δ} {b : Backend} {who : Caller}

theorem selected_id (hserde : NamesDecoded b.serde) (id : String) :
    Service.selected b (.obj [("printerId", .str id)]) = pure (.id id) := by
  have hparse : parseParams b.serde.printer (.obj [("printerId", .str id)]) = .ok ⟨some id, none⟩ := by
    unfold parseParams
    rw [if_neg (by simp), hserde.printer]
  unfold Service.selected
  rw [hparse]
  rfl

theorem named_id (hserde : NamesDecoded b.serde) (id : String) :
    Service.named b (.obj [("jobId", .str id)]) = lift (JobIdParams.parse b.serde ⟨id⟩) := by
  have hparse : parseParams b.serde.jobId (.obj [("jobId", .str id)]) = .ok ⟨id⟩ := by
    unfold parseParams
    rw [if_neg (by simp), hserde.job]
  unfold Service.named
  rw [hparse]
  rfl

/-- **A route does what its method does.** -/
theorem run_eq_dispatch (hserde : NamesDecoded b.serde) {query : List (String × String)}
    {json : Value} {rt : Route} {method : String} {params : Value}
    (h : rt.call query json = some (method, params)) :
    rt.run sv b who (.ok json) query =
      (.reply ·) <$> Service.dispatch b who.toPrincipal method params := by
  cases rt with
  | printers | defaultPrinter | queueSummary | clients =>
    cases h
    exact (Functor.map_map _ _ _).symm
  | print =>
    cases h
    exact (Functor.map_map _ _ _).symm
  | printDocument document =>
    cases h
    cases document <;> exact (Functor.map_map _ _ _).symm
  | printer id =>
    cases h
    have hcall : Service.dispatch b who.toPrincipal "printers.get" (.obj [("printerId", .str id)]) =
        Service.selected b (.obj [("printerId", .str id)]) >>= fun selector => (do
          let (printer, caps) ← Service.getPrinter b who.toPrincipal selector
          pure (.printer printer caps)) := rfl
    rw [hcall, selected_id hserde, pure_bind, map_bind]
    rfl
  | capabilities id =>
    cases h
    have hcall : Service.dispatch b who.toPrincipal "printers.capabilities"
        (.obj [("printerId", .str id)]) =
        Service.selected b (.obj [("printerId", .str id)]) >>= fun selector => (do
          let caps ← Service.printerCapabilities b who.toPrincipal selector
          pure (.capabilities caps)) := rfl
    rw [hcall, selected_id hserde, pure_bind, map_bind]
    rfl
  | queue id =>
    cases h
    have hcall : Service.dispatch b who.toPrincipal "queue.get" (.obj [("printerId", .str id)]) =
        Service.selected b (.obj [("printerId", .str id)]) >>= fun selector => (do
          let snapshot ← Service.printerQueue b who.toPrincipal selector
          pure (.queue snapshot)) := rfl
    rw [hcall, selected_id hserde, pure_bind, map_bind]
    rfl
  | job id =>
    cases h
    have hcall : Service.dispatch b who.toPrincipal "jobs.get" (.obj [("jobId", .str id)]) =
        Service.named b (.obj [("jobId", .str id)]) >>= fun id => (do
          let job ← Service.getJob b who.toPrincipal id
          pure (.job job)) := rfl
    rw [hcall, named_id hserde, map_bind]
    refine bind_congr fun id => ?_
    rw [map_bind]
    rfl
  | cancelJob id =>
    cases h
    have hcall : Service.dispatch b who.toPrincipal "jobs.cancel" (.obj [("jobId", .str id)]) =
        Service.named b (.obj [("jobId", .str id)]) >>= fun id => (do
          let job ← Service.cancelJob b who.toPrincipal id
          pure (.job job)) := rfl
    rw [hcall, named_id hserde, map_bind]
    refine bind_congr fun id => ?_
    rw [map_bind]
    rfl
  | jobs =>
    obtain ⟨fields, hfields, heq⟩ := Option.map_eq_some_iff.mp h
    obtain ⟨rfl, rfl⟩ := Prod.mk.inj heq
    have hquery : queryParams query = .ok fields := by
      cases hresult : queryParams query with
      | error e =>
        rw [hresult] at hfields
        cases hfields
      | ok found =>
        rw [hresult] at hfields
        exact congrArg _ (Option.some.inj hfields)
    have hcall : Service.dispatch b who.toPrincipal "jobs.list" fields =
        lift (parseParams b.serde.jobsList fields) >>= fun p => (do
          let jobs ← Service.listJobs b who.toPrincipal p
          pure (.jobs jobs)) := rfl
    have hrun : Route.run sv b who (.ok json) query .jobs =
        lift (queryParams query) >>= fun params =>
          lift (parseParams b.serde.jobsList params) >>= fun p =>
            (.reply <| .jobs ·) <$> Service.listJobs b who.toPrincipal p := rfl
    have hread : (lift (.ok fields : Except PrintError Value) : Service Value) = pure fields := rfl
    rw [hcall, hrun, hquery, hread, pure_bind, map_bind]
    refine bind_congr fun p => ?_
    rw [map_bind]
    rfl
  | printUnsupported kind => cases h
  | audit => cases h

theorem queryParams_refused {query : List (String × String)} (h : (queryParams query).toOption = none) :
    ∃ e, queryParams query = .error e := by
  cases hresult : queryParams query with
  | error e => exact ⟨e, rfl⟩
  | ok params =>
    rw [hresult] at h
    cases h

/-- A route that stands for no method call is refused, or is the audit log's. -/
theorem run_of_no_call {query : List (String × String)} {json : Value} {rt : Route}
    (h : rt.call query json = none) (a : Agent) :
    (∃ e, rt.run sv b who (.ok json) query a = (.error e, a)) ∨
    (rt = .audit ∧ who.kind = .admin ∧ ∃ limit,
      rt.run sv b who (.ok json) query a = ((.entries ·) <$> sv.auditEntries limit, a)) := by
  cases rt with
  | printUnsupported kind => exact .inl ⟨_, rfl⟩
  | audit =>
    by_cases hadmin : who.kind = .admin
    · let limit := ((query.lookup "limit").bind parseU64).getD 100
      have hrun : Route.run sv b who (.ok json) query .audit =
          if who.kind = .admin then (.entries ·) <$> lift (sv.auditEntries limit)
          else Fallible.fail (.new .accessDenied
            "the audit log is only available to the local administrator") := rfl
      refine .inr ⟨rfl, hadmin, limit, ?_⟩
      rw [hrun, if_pos hadmin]
      cases sv.auditEntries limit <;> rfl
    · exact .inl ⟨_, congrFun (if_neg hadmin) a⟩
  | jobs =>
    obtain ⟨e, he⟩ := queryParams_refused (Option.map_eq_none_iff.mp h)
    have hrun : Route.run sv b who (.ok json) query .jobs =
        lift (queryParams query) >>= fun params =>
          lift (parseParams b.serde.jobsList params) >>= fun p =>
            (.reply <| .jobs ·) <$> Service.listJobs b who.toPrincipal p := rfl
    rw [hrun, he]
    exact .inl ⟨e, rfl⟩
  | printers | defaultPrinter | printer id | capabilities id | print | printDocument document
  | job id | cancelJob id | queueSummary | queue id | clients => cases h

/-- A body that is not JSON is refused by every route that reads it. -/
theorem run_of_malformed {query : List (String × String)} {rt : Route} {body : Body} {e : String}
    (h : rt.read body = some (.error e)) (a : Agent) :
    ∃ e', rt.run sv b who (.error e) query a = (.error e', a) := by
  cases rt with
  | print =>
    -- The permission is checked before the body is decoded.
    have hrun : Route.run sv b who (.error e) query .print =
        (.reply <| .job ·) <$> (lift (who.toPrincipal.require .print) >>= fun _ =>
          Fallible.fail (.invalidPayload s!"request body is not valid JSON: {e}")) := rfl
    rw [hrun]
    cases who.toPrincipal.require .print <;> exact ⟨_, rfl⟩
  | printDocument document =>
    have hrun : Route.run sv b who (.error e) query (.printDocument document) a =
        (.error (.invalidPayload s!"request body is not valid JSON: {e}"), a) := by
      cases document <;> rfl
    exact ⟨_, hrun⟩
  | printers | defaultPrinter | printer id | capabilities id | printUnsupported kind | jobs
  | job id | cancelJob id | queueSummary | queue id | clients | audit => cases h

theorem le_errorStatus (code : ErrorCode) : 400 ≤ errorStatus code := by
  cases code <;> decide

theorem checkHost_refused {guard : RequestGuard} {peer : SocketAddr} {headers : Headers}
    {rejection : Rejection} (h : guard.checkHost peer headers = .error rejection) :
    rejection.1 = 403 := by
  unfold RequestGuard.checkHost at h
  split at h
  · cases h
  · split at h
    · exact (Except.error.inj h) ▸ rfl
    · split at h
      · exact (Except.error.inj h) ▸ rfl
      · cases h

theorem checkOrigin_refused {headers : Headers} {rejection : Rejection}
    (h : RequestGuard.checkOrigin headers = .error rejection) : rejection.1 = 403 := by
  unfold RequestGuard.checkOrigin at h
  split at h
  · cases h
  · split at h
    · exact (Except.error.inj h) ▸ rfl
    · split at h
      · exact (Except.error.inj h) ▸ rfl
      · cases h

theorem check_refused {guard : RequestGuard} {peer : SocketAddr} {headers : Headers}
    {rejection : Rejection} (h : guard.check peer headers = .error rejection) :
    rejection.1 = 403 := by
  unfold RequestGuard.check at h
  cases hhost : guard.checkHost peer headers with
  | error refused =>
    rw [hhost] at h
    cases h
    exact checkHost_refused hhost
  | ok passed =>
    cases horigin : RequestGuard.checkOrigin headers with
    | error refused =>
      rw [hhost, horigin] at h
      cases h
      exact checkOrigin_refused horigin
    | ok origin =>
      rw [hhost, horigin] at h
      cases h

variable [DecidableEq δ] {limiter : Limiter} {r : Request}

/-- The request passes the guard, with a token of the caller's and within their rate. -/
structure Cleared (sv : Server δ) (limiter : Limiter) (r : Request) (who : Caller) : Prop where
  token : ∃ connection token, sv.guard.check r.peer r.headers = .ok connection ∧
    r.authorization.bind bearerToken = some token ∧
    sv.auth.authenticate sv.digests token connection = .ok who
  rate : limiter who.clientId = true

theorem authed_cases (sv : Server δ) (limiter : Limiter) (r : Request) :
    (∃ who, authed sv limiter r = (.ok who, []) ∧ Cleared sv limiter r who) ∨
    ∃ refused audits, authed sv limiter r = (.error refused, audits) ∧ 400 ≤ refused.status := by
  unfold authed
  cases hguard : sv.guard.check r.peer r.headers with
  | error rejection =>
    obtain ⟨status, reason⟩ := rejection
    exact .inr ⟨.plain status reason, [], rfl, (check_refused hguard).ge.trans' (by decide)⟩
  | ok connection =>
    cases htoken : r.authorization.bind bearerToken with
    | none => exact .inr ⟨_, [], rfl, le_errorStatus .authenticationRequired⟩
    | some token =>
      cases hauth : sv.auth.authenticate sv.digests token connection with
      | error e =>
        refine .inr ⟨refusal e, [.authFailure connection.origin e.errorCode], ?_,
          le_errorStatus e.errorCode⟩
        simp only [hauth]
      | ok who =>
        by_cases hrate : limiter who.clientId = true
        · refine .inl ⟨who, ?_, ⟨connection, token, hguard, htoken, hauth⟩, hrate⟩
          simp only [hauth, if_pos hrate]
        · refine .inr ⟨refusal (.new .rateLimited "too many requests; slow down"), [], ?_,
            le_errorStatus .rateLimited⟩
          simp only [hauth, if_neg hrate]

theorem route_eq_health {verb : Verb} {path : List String} (h : Rest.route verb path = .health) :
    verb = .get ∧ path = ["health"] := by
  unfold Rest.route at h
  split at h
  · split at h
    · next hget => exact ⟨hget, rfl⟩
    · cases h
  · split at h <;> cases h
  · split at h
    · cases h
    · split at h <;> cases h

/-- **A route does what its method does.**  A request asks whether the agent is alive, and is told
so, or it is refused, with the agent unchanged in both cases, unless it passes the guard with a
token of a client's within their rate.  Then it reads the audit log, for an administrator, or it
stands for a method call, and its answer and what becomes of the agent are those of the same call
over a WebSocket. -/
theorem rest_agrees (sv : Server δ) (b : Backend) (hserde : NamesDecoded b.serde)
    (limiter : Limiter) (r : Request) (a : Agent) :
    (r.verb = .get ∧ r.path = ["health"] ∧ handle sv b limiter r a = (health, a, [])) ∨
    (∃ refused audits, handle sv b limiter r a = (refused, a, audits) ∧ 400 ≤ refused.status) ∨
    ∃ who, Cleared sv limiter r who ∧
      ((who.kind = .admin ∧ ∃ limit, handle sv b limiter r a =
          (respond 200 ((.entries ·) <$> sv.auditEntries limit), a, [])) ∨
        ∃ rt json method params, Rest.route r.verb r.path = .found rt ∧
          rt.read r.body = some (.ok json) ∧ rt.call r.query json = some (method, params) ∧
          ∃ result a', Service.dispatch b who.toPrincipal method params a = (result, a') ∧
            handle sv b limiter r a = (respond rt.success ((.reply ·) <$> result), a', [])) := by
  cases hroute : Rest.route r.verb r.path with
  | health =>
    obtain ⟨hverb, hpath⟩ := route_eq_health hroute
    exact .inl ⟨hverb, hpath, by simp only [handle, hroute]⟩
  | ws => exact .inr (.inl ⟨.plain 400 "", [], by simp only [handle, hroute], by decide⟩)
  | notFound => exact .inr (.inl ⟨.plain 404 "", [], by simp only [handle, hroute], by decide⟩)
  | methodNotAllowed =>
    exact .inr (.inl ⟨.plain 405 "", [], by simp only [handle, hroute], by decide⟩)
  | found rt =>
    rcases authed_cases sv limiter r with ⟨who, hauthed, hcleared⟩ | ⟨refused, audits, hauthed, hle⟩
    · cases hread : rt.read r.body with
      | none =>
        exact .inr (.inl ⟨.plain 413 "length limit exceeded", [],
          by simp only [handle, hroute, hauthed, hread], by decide⟩)
      | some json =>
        have hhandle {result : Except PrintError Answer} {a' : Agent}
            (hrun : rt.run sv b who json r.query a = (result, a')) :
            handle sv b limiter r a = (respond rt.success result, a', []) := by
          simp only [handle, hroute, hauthed, hread, hrun]
        cases json with
        | error e =>
          obtain ⟨e', hrun⟩ := run_of_malformed hread a
          exact .inr (.inl ⟨refusal e', [], hhandle hrun, le_errorStatus e'.errorCode⟩)
        | ok value =>
          cases hcall : rt.call r.query value with
          | none =>
            rcases run_of_no_call hcall a with ⟨e, hrun⟩ | ⟨rfl, hadmin, limit, hrun⟩
            · exact .inr (.inl ⟨refusal e, [], hhandle hrun, le_errorStatus e.errorCode⟩)
            · exact .inr (.inr ⟨who, hcleared, .inl ⟨hadmin, limit, hhandle hrun⟩⟩)
          | some call =>
            obtain ⟨method, params⟩ := call
            refine .inr (.inr ⟨who, hcleared, .inr ⟨rt, value, method, params, rfl, hread, hcall,
              _, _, rfl, hhandle ?_⟩⟩)
            rw [run_eq_dispatch hserde hcall]
            exact Fallible.map_apply _ _ _
    · exact .inr (.inl ⟨refused, audits, by simp only [handle, hroute, hauthed], hle⟩)

end

section

/-- A server that only knows the administrator. -/
def deskServer : Server String where
  guard := ⟨false⟩
  digests := ⟨id, some⟩
  auth := ⟨[TokenAuthenticator.adminEntry ⟨id, some⟩ "secret" ⟨[], []⟩]⟩
  auditEntries _ := .error .internal

/-- Reads the names of printers and of jobs. -/
def namesSerde : Serde :=
  { noSerde with
    printer := fun params =>
      match params with
      | .obj [("printerId", .str id)] => .ok ⟨some id, none⟩
      | _ => .error "missing field"
    jobId := fun params =>
      match params with
      | .obj [("jobId", .str id)] => .ok ⟨id⟩
      | _ => .error "missing field" }

def restBackend : Backend := { deskBackend with serde := namesSerde }

/-- `GET /v1/printers`. -/
def printersRequest : Request where
  peer := ⟨.v4 127 0 0 1, 50000⟩
  headers := ⟨some ("127.0.0.1".toList.map fun c => c.toNat.toUInt8), none, none⟩
  authorization := some ("Bearer secret".toList.map fun c => c.toNat.toUInt8)
  verb := .get
  path := ["printers"]
  query := []
  body := .read (.ok .null)

theorem rest_agrees_desk : ∃ who result a',
    Cleared deskServer (fun _ => true) printersRequest who ∧
    Service.dispatch restBackend who.toPrincipal "printers.list" .null quietAgent = (result, a') ∧
    handle deskServer restBackend (fun _ => true) printersRequest quietAgent =
      (respond 200 ((.reply ·) <$> result), a', []) := by
  have hstatus : (handle deskServer restBackend (fun _ => true) printersRequest
      quietAgent).1.status = 200 := by decide +kernel
  have hserde : NamesDecoded restBackend.serde := ⟨fun _ => rfl, fun _ => rfl⟩
  rcases rest_agrees deskServer restBackend hserde (fun _ => true) printersRequest quietAgent with
    ⟨-, hpath, -⟩ | ⟨refused, audits, hhandle, hle⟩ | ⟨who, hcleared, ⟨-, limit, hhandle⟩ |
      ⟨rt, json, method, params, hroute, hread, hcall, result, a', hdispatch, hhandle⟩⟩
  · exact absurd hpath (by decide)
  · rw [hhandle] at hstatus
    have hsame : refused.status = 200 := hstatus
    omega
  · rw [hhandle] at hstatus
    cases hstatus
  · cases hroute
    cases hcall
    exact ⟨who, result, a', hcleared, hdispatch, hhandle⟩

end

end Rest

end KilnPrint
