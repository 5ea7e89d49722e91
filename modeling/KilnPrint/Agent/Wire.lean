/-
Requests as they arrive on the wire.

* `Serde` — the decoders of the JSON and base64 libraries, which are not part of
  the repository;
* `parseParams`, `selector`, `DataEncoding.decode`, `sourceSpec` — from JSON
  parameters to typed ones;
* `intoRequest`, `intoPending`, `intoTyped` — from typed parameters to a request,
  or to one whose document has still to be fetched.

Document options are left out, as in the engine's model.
-/
import KilnPrint.Repository

namespace KilnPrint

/-! ### Parameters -/

structure PrinterParams where
  printerId : Option String
  printer : Option String

/-- How RAW `data` is encoded in JSON. -/
inductive DataEncoding
  | base64
  | hex
  | utf8
  | latin1
  deriving DecidableEq, Repr

/-- The parameters every print method has. -/
structure PrintParams extends PrinterParams where
  copies : Option ℕ
  jobName : Option String
  idempotencyKey : Option String

structure RawPrintParams extends PrintParams where
  data : String
  encoding : DataEncoding
  language : Option String

structure TextPrintParams extends PrintParams where
  text : String

structure HtmlPrintParams extends PrintParams where
  html : String

/-- The parameters of `print.pdf` and `print.image`. -/
structure BinaryPrintParams extends PrintParams where
  data : Option String
  encoding : DataEncoding
  path : Option String
  url : Option String

/-- The parameters of `print.label`, `print.receipt` and `print.dotmatrix`, with
the structured document. -/
structure StructuredPrintParams extends PrintParams where
  document : Document

structure GenericPrintParams where
  documentType : String
  rest : Value

inductive StatusList
  | any
  | one (status : String)
  | many (statuses : List String)

structure JobsListParams where
  status : StatusList
  printerId : Option String
  clientId : Option String
  since : Option Time
  upto : Option Time
  limit : Option ℕ
  offset : Option ℕ

structure JobIdParams where
  jobId : String

/-- Decoders of types, and of two encodings: a value, or the library's message. -/
structure Serde where
  printer : Value → Except String PrinterParams
  generic : Value → Except String GenericPrintParams
  raw : Value → Except String RawPrintParams
  text : Value → Except String TextPrintParams
  html : Value → Except String HtmlPrintParams
  pdf : Value → Except String BinaryPrintParams
  image : Value → Except String BinaryPrintParams
  label : Value → Except String StructuredPrintParams
  receipt : Value → Except String StructuredPrintParams
  dotMatrix : Value → Except String StructuredPrintParams
  jobsList : Value → Except String JobsListParams
  jobId : Value → Except String JobIdParams
  base64 : String → Except String Bytes
  hex : String → Except String Bytes
  uuid : String → Option JobId

def parseParams {α : Type} (decode : Value → Except String α) (params : Value) :
    Except PrintError α :=
  match decode (if params = .null then .obj [] else params) with
  | .ok a => .ok a
  | .error e => .error (.invalidPayload s!"invalid params: {e}")

def selector (printerId printer : Option String) : Except PrintError PrinterSelector :=
  match printerId, printer with
  | some id, none => .ok (.id id)
  | none, some name => .ok (.name name)
  | some _, some _ => .error (.invalidPayload "give either printerId or printer, not both")
  | none, none => .error (.invalidPayload "printerId or printer is required")

def tooLarge (size limit : ℕ) : PrintError :=
  (PrintError.new .payloadTooLarge s!"document exceeds the {limit}-byte limit").withDetails
    (.obj [("sizeBytes", .num size), ("limitBytes", .num limit)])

/-- A character as one byte. -/
def latin1Byte (c : Char) : Except PrintError UInt8 :=
  if c.toNat < 256 then .ok (UInt8.ofNat c.toNat)
  else
    let code := (padHex 4 c.toNat).toUpper
    .error (.invalidPayload s!"character U+{code} does not fit latin1 encoding")

namespace DataEncoding

def estimate (data : String) : DataEncoding → ℕ
  | base64 => data.utf8ByteSize / 4 * 3
  | hex => data.utf8ByteSize / 2
  | utf8 | latin1 => data.utf8ByteSize

def bytes (serde : Serde) (data : String) : DataEncoding → Except PrintError Bytes
  | base64 =>
    match serde.base64 data with
    | .ok bytes => .ok bytes
    | .error e => .error (.invalidPayload s!"data is not valid base64: {e}")
  | hex =>
    match serde.hex data with
    | .ok bytes => .ok bytes
    | .error e => .error (.invalidPayload s!"data is not valid hex: {e}")
  | utf8 => .ok data.toUTF8.toList
  | latin1 => data.toList.mapM latin1Byte

/-- The limit is checked before the buffer is allocated, and again after.  Sums are of 64
bits. -/
def decode (serde : Serde) (encoding : DataEncoding) (data : String) (maxBytes : ℕ) :
    Except PrintError Bytes := do
  let estimate := encoding.estimate data
  if estimate > (maxBytes + 3) % 2 ^ 64 then .error (tooLarge estimate maxBytes)
  else
    let bytes ← encoding.bytes serde data
    if bytes.length > maxBytes then .error (tooLarge bytes.length maxBytes) else .ok bytes

end DataEncoding

/-- Where a binary document comes from. -/
inductive SourceSpec
  | inline (data : String) (encoding : DataEncoding)
  | path (path : String)
  | url (url : String)
  deriving DecidableEq

def sourceSpec (data : Option String) (encoding : DataEncoding) (path url : Option String) :
    Except PrintError SourceSpec :=
  match data, path, url with
  | some data, none, none => .ok (.inline data encoding)
  | none, some path, none => .ok (.path path)
  | none, none, some url => .ok (.url url)
  | _, _, _ => .error (.invalidPayload "give exactly one of data, path or url")

/-! ### Requests -/

/-- The request for a document. -/
def PrintParams.request (p : PrintParams) (printer : PrinterSelector) (document : Document) :
    PrintRequest where
  printer := printer
  document := document
  copies := p.copies.getD 1
  jobName := p.jobName
  idempotencyKey := p.idempotencyKey

/-- A request whose document's bytes have still to be resolved. -/
structure PendingRequest where
  source : SourceSpec
  build : Bytes → Document
  printer : PrinterSelector
  params : PrintParams

def PendingRequest.complete (p : PendingRequest) (data : Bytes) : PrintRequest :=
  p.params.request p.printer (p.build data)

def RawPrintParams.intoRequest (serde : Serde) (p : RawPrintParams) (maxBytes : ℕ) :
    Except PrintError PrintRequest := do
  let printer ← selector p.printerId p.printer
  let data ← p.encoding.decode serde p.data maxBytes
  pure (p.request printer (.raw data p.language))

def TextPrintParams.intoRequest (p : TextPrintParams) (maxBytes : ℕ) :
    Except PrintError PrintRequest := do
  if p.text.utf8ByteSize > maxBytes then .error (tooLarge p.text.utf8ByteSize maxBytes)
  else
    let printer ← selector p.printerId p.printer
    pure (p.request printer (.text p.text))

def HtmlPrintParams.intoRequest (p : HtmlPrintParams) (maxBytes : ℕ) :
    Except PrintError PrintRequest := do
  if p.html.utf8ByteSize > maxBytes then .error (tooLarge p.html.utf8ByteSize maxBytes)
  else
    let printer ← selector p.printerId p.printer
    pure (p.request printer (.html p.html))

/-- `structured`: label, receipt and dot-matrix documents. -/
def StructuredPrintParams.intoRequest (p : StructuredPrintParams) (maxBytes : ℕ) :
    Except PrintError PrintRequest := do
  let size := p.document.sizeBytes
  if size > maxBytes then .error (tooLarge size maxBytes)
  else
    let printer ← selector p.printerId p.printer
    pure (p.request printer p.document)

/-- `print.pdf` and `print.image`, whose documents `build` makes. -/
def BinaryPrintParams.intoPending (p : BinaryPrintParams) (build : Bytes → Document) :
    Except PrintError PendingRequest := do
  let source ← sourceSpec p.data p.encoding p.path p.url
  let printer ← selector p.printerId p.printer
  pure { source := source, build := build, printer := printer, params := p.toPrintParams }

inductive TypedPrint
  | ready (request : PrintRequest)
  | pending (pending : PendingRequest)

/-- `print.submit`: the document type chooses the parameters. -/
def GenericPrintParams.intoTyped (serde : Serde) (p : GenericPrintParams) (maxBytes : ℕ) :
    Except PrintError TypedPrint := do
  let type := p.documentType.toUpper
  if type = "RAW" then
    return .ready (← (← parseParams serde.raw p.rest).intoRequest serde maxBytes)
  else if type = "TEXT" then
    return .ready (← (← parseParams serde.text p.rest).intoRequest maxBytes)
  else if type = "HTML" then
    return .ready (← (← parseParams serde.html p.rest).intoRequest maxBytes)
  else if type = "PDF" then
    return .pending (← (← parseParams serde.pdf p.rest).intoPending .pdf)
  else if type = "LABEL" then
    return .ready (← (← parseParams serde.label p.rest).intoRequest maxBytes)
  else if type = "RECEIPT" then
    return .ready (← (← parseParams serde.receipt p.rest).intoRequest maxBytes)
  else if type = "DOT_MATRIX" ∨ type = "DOTMATRIX" then
    return .ready (← (← parseParams serde.dotMatrix p.rest).intoRequest maxBytes)
  else if type = "IMAGE" then
    return .pending (← (← parseParams serde.image p.rest).intoPending .image)
  else .error (.new .unsupportedDocument s!"unknown document type '{type}'")

/-- `JobStatus::parse`. -/
def JobStatus.parse (s : String) : Option JobStatus :=
  [received, validating, queued, printing, completed, failed, cancelled].find? fun status =>
    status.asStr == s

/-- `str::split(',')`. -/
def splitCommas (s : String) : List String := s.splitOn ","

def trimString (s : String) : String := .ofList (trimWhitespace s.toList)

def StatusList.parse (list : StatusList) : Except PrintError (List JobStatus) :=
  let raw := match list with
    | any => []
    | one s => splitCommas s
    | many l => l
  ((raw.map trimString).filter (! ·.isEmpty)).mapM fun s =>
    match JobStatus.parse s.toUpper with
    | some status => .ok status
    | none => .error (.invalidPayload s!"unknown job status '{s}'")

def JobIdParams.parse (serde : Serde) (p : JobIdParams) : Except PrintError JobId :=
  match serde.uuid p.jobId with
  | some id => .ok id
  | none => .error (.invalidPayload "jobId must be a UUID")

end KilnPrint
