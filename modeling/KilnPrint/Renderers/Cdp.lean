/-
The client of the rendering engine.

* `Cdp`, `CdpCall` — the client's side of a connection, and what it asks of the browser's;
* `send`, `read`, `call`, `waitEvent` — the functions of the client;
* `printConnected`, `printToPdf` — one document in one browser;
* `renderHtml` — a document, with a second browser if the first one did not start.

The browser answers as it likes.  The deadline is the number of reads that it leaves time for.  A
number in a message that is not an integer is neither an id nor a text, and the numbers of a request
stand as they are sent.
-/
import KilnPrint.Lib.Base64
import KilnPrint.Lib.Interaction
import KilnPrint.Model.Document

namespace KilnPrint

namespace Value

/-- `Value::get`: a field of an object. -/
def field (key : String) : Value → Option Value
  | obj fields => fields.lookup key
  | _ => none

/-- Indexing by a key: `null` where there is no such field. -/
def get (key : String) (value : Value) : Value := (value.field key).getD .null

def asStr : Value → Option String
  | str s => some s
  | _ => none

def asU64 : Value → Option ℕ
  | num n => if 0 ≤ n ∧ n < 2 ^ 64 then some n.toNat else none
  | _ => none

end Value

namespace Cdp

/-! ### The connection -/

/-- A message to the browser. -/
structure Frame where
  id : ℕ
  method : String
  params : Value
  session : Option String

/-- What arrives within the time of a read. -/
inductive Inbound
  /-- A text, as JSON if it is. -/
  | text (json : Option Value)
  | other
  | silence
  | failed (message : String)

inductive CdpCall
  | send (frame : Frame)
  | read

abbrev CdpCall.Answer : CdpCall → Type
  | send _ => Except String Unit
  | read => Inbound

abbrev Exchange := Interaction.Exchange CdpCall.Answer

end Cdp

structure Cdp where
  ws : Interaction.Session Cdp.CdpCall.Answer
  /-- How many reads there is time for. -/
  left : ℕ
  nextId : ℕ
  session : Option String
  events : List Value

namespace Cdp

open Fallible

abbrev Client (α : Type) := Fallible Cdp PrintError α

/-- What was sent and what was read, in order. -/
abbrev trace (c : Cdp) : List Exchange := c.ws.trace

/-- `Cdp::connect`, on a connection that is made. -/
def connected (browser : Interaction.Device CdpCall.Answer) (reads : ℕ) : Cdp :=
  ⟨browser.session, reads, 0, none, []⟩

def renderError (message : String) : PrintError :=
  (PrintError.new .printFailed message).recoverably false

def timeout : PrintError :=
  ((PrintError.new .timeout "HTML rendering timed out").recoverably true).withDetails
    (outcomeDetails "NOT_PRINTED")

def exchange (q : CdpCall) : Client q.Answer :=
  within Cdp.ws (fun ws c => { c with ws := ws }) (Interaction.ask q)

def lost (message : String) : PrintError :=
  renderError s!"rendering engine connection failed: {message}"

/-- The number of the message. -/
def send (method : String) (params : Value) : Client ℕ := fun c =>
  let id := c.nextId + 1
  (do
    ofExcept lost (← exchange (.send ⟨id, method, params, c.session⟩))
    pure id : Client ℕ) { c with nextId := id }

/-! ### Reading -/

/-- The page wants something from the network. -/
def isPaused (message : Value) : Bool := message.get "method" = .str "Fetch.requestPaused"

/-- The parameters that fail a request. -/
def blocked (message : Value) : Value :=
  .obj [("requestId", (message.get "params").get "requestId"),
    ("errorReason", .str "BlockedByClient")]

def failRequest : String := "Fetch.failRequest"

/-- Fails the requests of the page. -/
def intercept (message : Value) : Client Unit :=
  if isPaused message then do
    let _ ← send failRequest (blocked message)
    pure ()
  else pure ()

def receive : Inbound → Client (Option Value)
  | .text none => fail (renderError "malformed engine message")
  | .text (some message) => do
    intercept message
    pure (some message)
  | .other => pure (some .null)
  | .silence => pure none
  | .failed message => fail (lost message)

/-- A message, or nothing if none arrives in time. -/
def read : Client (Option Value) := fun c =>
  match c.left with
  | 0 => (.ok none, c)
  | left + 1 => (do receive (← exchange .read) : Client (Option Value)) { c with left := left }

def keep (message : Value) : Client Unit :=
  act fun c => ((), if (message.field "method").isSome then
    { c with events := c.events ++ [message] } else c)

/-- What the reply to a call says. -/
def outcome (method : String) (message : Value) : Except PrintError Value :=
  match message.field "error" with
  | some error =>
    let text := ((error.get "message").asStr).getD "unknown error"
    .error (renderError s!"{method} failed: {text}")
  | none => .ok (message.get "result")

/-- Reads until the reply comes.  No more reads are left than the loop has turns. -/
def awaitReply (method : String) (id : ℕ) : ℕ → Client Value
  | 0 => fail timeout
  | turns + 1 => do
    match ← read with
    | none => fail timeout
    | some message =>
      if (message.get "id").asU64 = some id then ofExcept (fun e => e) (outcome method message)
      else do
        keep message
        awaitReply method id turns

def call (method : String) (params : Value) : Client Value := do
  let id ← send method params
  fun c => awaitReply method id c.left c

/-- Reads until the event comes, or nothing does. -/
def awaitEvent (method : String) : ℕ → Client Bool
  | 0 => pure false
  | turns + 1 => fun c =>
    match read c with
    | (.ok (some message), c) =>
      if message.get "method" = .str method then (.ok true, c) else awaitEvent method turns c
    | (.ok none, c) | (.error _, c) => (.ok false, c)

def waitEvent (method : String) : Client Bool := fun c =>
  if c.events.any (fun event => event.get "method" = .str method) then (.ok true, c)
  else awaitEvent method c.left c

/-! ### Printing -/

structure PdfRequest where
  html : String
  landscape : Bool
  paperWidth : Value
  paperHeight : Value
  marginTop : Value
  marginRight : Value
  marginBottom : Value
  marginLeft : Value
  scale : Value
  printBackground : Bool
  preferCssPageSize : Bool
  pageRanges : Option String
  header : Option String
  footer : Option String
  javascript : Bool
  maxPdfBytes : ℕ

/-- The parameters of `Page.printToPDF`. -/
def PdfRequest.params (r : PdfRequest) : Value :=
  .obj ([("landscape", .bool r.landscape), ("printBackground", .bool r.printBackground),
    ("scale", r.scale), ("paperWidth", r.paperWidth), ("paperHeight", r.paperHeight),
    ("marginTop", r.marginTop), ("marginRight", r.marginRight),
    ("marginBottom", r.marginBottom), ("marginLeft", r.marginLeft),
    ("preferCSSPageSize", .bool r.preferCssPageSize),
    ("displayHeaderFooter", .bool (r.header.isSome || r.footer.isSome)),
    ("headerTemplate", .str (r.header.getD "<span></span>")),
    ("footerTemplate", .str (r.footer.getD "<span></span>")),
    ("transferMode", .str "ReturnAsBase64")] ++
    (r.pageRanges.map fun ranges => ("pageRanges", Value.str ranges)).toList)

def required (message : String) : Option String → Client String
  | some text => pure text
  | none => fail (renderError message)

def setSession (session : Option String) : Client Unit :=
  act fun c => ((), { c with session := session })

def fontsReady : Value :=
  .obj [("expression", .str "document.fonts.ready.then(() => true)"), ("awaitPromise", .bool true),
    ("timeout", .num 3000)]

def allRequests : Value := .obj [("patterns", .arr [.obj [("urlPattern", .str "*")]])]

def disableScripts (r : PdfRequest) : Client Unit :=
  if r.javascript then pure ()
  else do
    let _ ← call "Emulation.setScriptExecutionDisabled" (.obj [("value", .bool true)])
    pure ()

/-- The PDF in the reply to `Page.printToPDF`. -/
def pdfOf (r : PdfRequest) (printed : Value) : Except PrintError Bytes :=
  match (printed.get "data").asStr with
  | none => .error (renderError "no PDF data returned")
  | some data =>
    match Base64.decode data.toList with
    | none => .error (renderError "invalid PDF data returned")
    | some pdf =>
      if pdf.length > r.maxPdfBytes then
        .error (.new .payloadTooLarge "rendered HTML exceeds the document size limit")
      else .ok pdf

/-- `print_to_pdf`, once connected. -/
def printConnected (r : PdfRequest) : Client Bytes := do
  let target ← call "Target.createTarget" (.obj [("url", .str "about:blank")])
  let targetId ← required "no target id" (target.get "targetId").asStr
  let attached ← call "Target.attachToTarget"
    (.obj [("targetId", .str targetId), ("flatten", .bool true)])
  setSession (attached.get "sessionId").asStr
  let _ ← call "Page.enable" (.obj [])
  disableScripts r
  let _ ← call "Fetch.enable" allRequests
  let tree ← call "Page.getFrameTree" (.obj [])
  let frameId ← required "no frame id" (((tree.get "frameTree").get "frame").get "id").asStr
  let _ ← call "Page.setDocumentContent" (.obj [("frameId", .str frameId), ("html", .str r.html)])
  let _ ← waitEvent "Page.loadEventFired"
  ignore (call "Runtime.evaluate" fontsReady)
  let printed ← call "Page.printToPDF" r.params
  let pdf ← ofExcept (fun e => e) (pdfOf r printed)
  setSession none
  ignore (send "Browser.close" (.obj []))
  pure pdf

/-- What becomes of a browser that is launched. -/
inductive Launch
  | noProfile
  | notSpawned
  /-- It publishes no endpoint in time. -/
  | stuck
  | unreachable (message : String)
  | reached (browser : Interaction.Device CdpCall.Answer) (reads : ℕ)

/-- The details of an error while the browser starts. -/
def startup (e : PrintError) : PrintError :=
  e.withDetails (.obj [("outcome", .str "NOT_PRINTED"), ("phase", .str "startup")])

def isStartupFailure (e : PrintError) : Bool :=
  e.details.any fun details => details.get "phase" = .str "startup"

/-- The PDF of a document, and what was exchanged with the browser for it. -/
def printToPdf (r : PdfRequest) : Launch → Except PrintError Bytes × List Exchange
  | .noProfile => (.error .internal, [])
  | .notSpawned =>
    (.error (.new .unsupportedOperation "could not start the HTML rendering engine"), [])
  | .stuck => (.error (startup timeout), [])
  | .unreachable message =>
    (.error (startup (renderError s!"could not connect to the rendering engine: {message}")), [])
  | .reached browser reads =>
    let (result, c) := printConnected r (connected browser reads)
    (result, c.trace)

/-- `HtmlRenderer::render`: a browser that does not start is replaced once, if there is time. -/
def renderHtml (r : PdfRequest) (first second : Launch) (expired : Bool) :
    Except PrintError Bytes × List (List Exchange) :=
  match printToPdf r first with
  | (.ok pdf, trace) => (.ok pdf, [trace])
  | (.error e, trace) =>
    if isStartupFailure e && !expired then
      let (result, trace') := printToPdf r second
      (result, [trace, trace'])
    else (.error e, [trace])

end Cdp

end KilnPrint
