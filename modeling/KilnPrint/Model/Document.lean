/-
Print requests, documents and rendered payloads.

* `Document`, with `documentType`, `sizeBytes` and `language` — a request's
  document after wire decoding;
* `PrintPayload`, `PayloadKind`, `SubmitSpec` — what a renderer produces and a
  provider receives;
* `PrinterSelector`, `PrintRequest`, `PrinterScope`, `Submitter` — a request
  and who makes it;
* `validateIdempotencyKey`, `sanitiseJobName` — the checks made before a job
  record exists.

Rendering options, and the contents of text, PDF and image payloads, are read
by renderers and providers only, which are parameters of the engine's model.
A structured document is represented by its language and by its serialised
form, which is all the engine reads of it.
-/
import KilnPrint.Model.Printer

namespace KilnPrint

abbrev Bytes := List UInt8

inductive DocumentType
  | raw
  | text
  | pdf
  | html
  | image
  | label
  | receipt
  | dotMatrix
  deriving DecidableEq, Repr

def DocumentType.asStr : DocumentType → String
  | raw => "RAW"
  | text => "TEXT"
  | pdf => "PDF"
  | html => "HTML"
  | image => "IMAGE"
  | label => "LABEL"
  | receipt => "RECEIPT"
  | dotMatrix => "DOT_MATRIX"

/-- A request's document.  `json` is the serialised form of a structured
document, absent when serialisation fails. -/
inductive Document
  | raw (data : Bytes) (language : Option String)
  | text (text : String)
  | pdf (data : Bytes)
  | html (html : String)
  | image (data : Bytes)
  | label (language : Option String) (json : Option Bytes)
  | receipt (json : Option Bytes)
  | dotMatrix (json : Option Bytes)
  deriving DecidableEq

/-- The largest 64-bit unsigned integer. -/
def u64Max : ℕ := 2 ^ 64 - 1

namespace Document

def documentType : Document → DocumentType
  | raw .. => .raw
  | text _ => .text
  | pdf _ => .pdf
  | html _ => .html
  | image _ => .image
  | label .. => .label
  | receipt _ => .receipt
  | dotMatrix _ => .dotMatrix

/-- Size of the decoded payload, used for limits and queue accounting. -/
def sizeBytes : Document → ℕ
  | raw data _ => data.length
  | text s => s.utf8ByteSize
  | pdf data => data.length
  | html s => s.utf8ByteSize
  | image data => data.length
  | label _ json => json.elim u64Max List.length
  | receipt json => json.elim u64Max List.length
  | dotMatrix json => json.elim u64Max List.length

def language : Document → Option String
  | raw _ lang => lang
  | label lang _ => lang
  | _ => none

end Document

/-! ### Payloads -/

inductive PayloadKind
  | raw
  | text
  | pdf
  | image
  deriving DecidableEq, Repr

/-- `PayloadKind::ALL`. -/
def PayloadKind.all : List PayloadKind := [raw, text, pdf, image]

/-- The variant's name, as the `{:?}` formatter prints it. -/
def PayloadKind.debugName : PayloadKind → String
  | raw => "Raw"
  | text => "Text"
  | pdf => "Pdf"
  | image => "Image"

/-- Device-ready output of a renderer. -/
inductive PrintPayload
  | raw (bytes : Bytes) (language : Option String)
  | text
  | pdf
  | image
  deriving DecidableEq

def PrintPayload.kind : PrintPayload → PayloadKind
  | raw .. => .raw
  | text => .text
  | pdf => .pdf
  | image => .image

/-- Everything a provider needs to submit one job. -/
structure SubmitSpec where
  jobId : JobId
  documentName : String
  copies : ℕ
  payload : PrintPayload
  deriving DecidableEq

/-! ### Requests -/

inductive PrinterSelector
  | id (id : PrinterId)
  | name (name : String)
  deriving DecidableEq

structure PrintRequest where
  printer : PrinterSelector
  document : Document
  copies : ℕ
  jobName : Option String
  idempotencyKey : Option String
  deriving DecidableEq

/-- Equality up to the case of ASCII letters. -/
def eqIgnoreAsciiCase (a b : String) : Bool :=
  a.toList.map Char.toLower == b.toList.map Char.toLower

/-- Which printers a client may use. -/
inductive PrinterScope
  | all
  | only (entries : List String)
  deriving DecidableEq

def PrinterScope.allows : PrinterScope → Printer → Bool
  | all, _ => true
  | only entries, printer =>
    entries.any fun e => e == printer.id || eqIgnoreAsciiCase e printer.name

/-- The authenticated identity a job is submitted under. -/
structure Submitter where
  clientId : String
  printers : PrinterScope
  deriving DecidableEq

/-- `char::is_ascii_graphic`. -/
def isAsciiGraphic (c : Char) : Bool := 0x21 ≤ c.toNat && c.toNat ≤ 0x7E

def validateIdempotencyKey (key : String) : Except PrintError Unit :=
  if key.isEmpty || key.utf8ByteSize > 128 || !key.toList.all isAsciiGraphic then
    .error (.invalidPayload "idempotencyKey must be 1-128 printable ASCII characters")
  else .ok ()

/-- `char::is_control`: general category `Cc`. -/
def isControl (c : Char) : Bool :=
  c.toNat ≤ 0x1F || (0x7F ≤ c.toNat && c.toNat ≤ 0x9F)

/-- `char::is_whitespace`: the `White_Space` property. -/
def isWhitespace (c : Char) : Bool :=
  (0x09 ≤ c.toNat && c.toNat ≤ 0x0D) || (0x2000 ≤ c.toNat && c.toNat ≤ 0x200A) ||
    c.toNat ∈ [0x20, 0x85, 0xA0, 0x1680, 0x2028, 0x2029, 0x202F, 0x205F, 0x3000]

/-- `str::trim` on a list of characters. -/
def trimWhitespace (cs : List Char) : List Char :=
  ((cs.dropWhile isWhitespace).reverse.dropWhile isWhitespace).reverse

/-- Strips control characters from a job name and caps its length. -/
def sanitiseJobName (name : String) : String :=
  .ofList (trimWhitespace ((name.toList.filter fun c => !isControl c).take 200))

example : sanitiseJobName "  Label\r\n 42 " = "Label 42" := by decide

end KilnPrint
