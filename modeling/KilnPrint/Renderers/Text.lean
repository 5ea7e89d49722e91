/-
Plain-text renderer.

* `TextEncoder`, `forLabel`, `encode` — the strict encoders: a character that an
  encoding cannot represent is an error, never substituted;
* `normaliseNewlines`, `expandTabs`, `renderRaw` — from a text to the bytes of its
  RAW form;
* `TextRenderer.render` — the renderer;
* `renderRaw_eq_ok`, `length_joinLines` — **the RAW form and its length**: the encoded
  lines, a terminator for each, and the form feed.

The WHATWG encodings come from a library and are a parameter.  Texts are lists of
characters.  The options of `RENDERED` mode are read by the platform's layout only.
-/
import KilnPrint.Lib.Fallible
import KilnPrint.Model.Document

namespace KilnPrint

/-! ### Encoders -/

/-- Code page 437 (original IBM PC), upper half. -/
def cp437High : List Char :=
  ("ÇüéâäàåçêëèïîìÄÅ" ++
   "ÉæÆôöòûùÿÖÜ¢£¥₧ƒ" ++
   "áíóúñÑªº¿⌐¬½¼¡«»" ++
   "░▒▓│┤╡╢╖╕╣║╗╝╜╛┐" ++
   "└┴┬├─┼╞╟╚╔╩╦╠═╬╧" ++
   "╨╤╥╙╘╒╓╫╪┘┌█▄▌▐▀" ++
   "αßΓπΣσµτΦΘΩδ∞φε∩" ++
   "≡±≥≤⌠⌡÷≈°∙·√ⁿ²■\u00a0").toList

/-- Code page 850 (DOS Latin-1, Western Europe), upper half. -/
def cp850High : List Char :=
  ("ÇüéâäàåçêëèïîìÄÅ" ++
   "ÉæÆôöòûùÿÖÜø£Ø×ƒ" ++
   "áíóúñÑªº¿®¬½¼¡«»" ++
   "░▒▓│┤ÁÂÀ©╣║╗╝¢¥┐" ++
   "└┴┬├─┼ãÃ╚╔╩╦╠═╬¤" ++
   "ðÐÊËÈıÍÎÏ┘┌█▄¦Ì▀" ++
   "ÓßÔÒõÕµþÞÚÛÙýÝ¯´" ++
   "\u00ad±‗¾¶§÷¸°¨·¹³²■\u00a0").toList

/-- Code page 858: 850 with the euro sign replacing dotless i. -/
def cp858High : List Char := cp850High.set (0xD5 - 0x80) '€'

/-- An encoding of the WHATWG set; `encode` says whether a character could not be
represented. -/
structure Whatwg where
  name : String
  encode : List Char → Bytes × Bool

/-- `Encoding::for_label`, where the encoding is its own output encoding. -/
abbrev Whatwgs := String → Option Whatwg

inductive TextEncoder
  | utf8
  /-- A DOS code page: upper-half table and display name. -/
  | dos (table : List Char) (name : String)
  | whatwg (encoding : Whatwg)

namespace TextEncoder

def forLabel (encodings : Whatwgs) (label : String) : Except PrintError TextEncoder :=
  let normalised := String.ofList ((trimWhitespace label.toList).map Char.toLower)
  if normalised ∈ ["utf-8", "utf8"] then .ok .utf8
  else if normalised ∈ ["ibm437", "ibm-437", "cp437", "437", "dos-437"] then
    .ok (.dos cp437High "IBM437")
  else if normalised ∈ ["ibm850", "ibm-850", "cp850", "850"] then .ok (.dos cp850High "IBM850")
  else if normalised ∈ ["ibm858", "ibm-858", "cp858", "858"] then .ok (.dos cp858High "IBM858")
  else
    match encodings normalised with
    | some encoding => .ok (.whatwg encoding)
    | none => .error (.invalidPayload s!"unsupported text encoding '{label}'")

/-- `U+{:04X}`. -/
def codePoint (c : Char) : String :=
  let digits := (Nat.toDigits 16 c.toNat).map Char.toUpper
  "U+" ++ .ofList (List.replicate (4 - digits.length) '0' ++ digits)

def unmappable (c : Char) (encoding : String) : PrintError :=
  let point := codePoint c
  .invalidPayload s!"character {point} cannot be represented in encoding {encoding}"

def encode (encoder : TextEncoder) (text : List Char) : Except PrintError Bytes :=
  match encoder with
  | utf8 => .ok (text.flatMap String.utf8EncodeChar)
  | dos table name =>
    text.mapM fun c =>
      if c.toNat < 0x80 then .ok (UInt8.ofNat c.toNat)
      else
        match table.idxOf? c with
        | some i => .ok (UInt8.ofNat (0x80 + i))
        | none => .error (unmappable c name)
  | whatwg encoding =>
    let (bytes, hadErrors) := encoding.encode text
    if hadErrors then
      let bad := (text.find? fun c => (encoding.encode [c]).2).getD '\ufffd'
      .error (unmappable bad encoding.name)
    else .ok bytes

end TextEncoder

/-! ### Options -/

/-- How plain text reaches the printer. -/
inductive TextMode
  /-- Laid out and drawn with the printer driver. -/
  | rendered
  /-- Encoded to bytes and sent as RAW. -/
  | raw
  deriving DecidableEq, Repr

/-- The variant's name, as the `{:?}` formatter prints it. -/
def TextMode.debugName : TextMode → String
  | rendered => "Rendered"
  | raw => "Raw"

inductive LineEnding
  | crlf
  | lf
  | cr
  deriving DecidableEq, Repr

def LineEnding.asBytes : LineEnding → Bytes
  | crlf => [0x0D, 0x0A]
  | lf => [0x0A]
  | cr => [0x0D]

/-- The options that RAW mode reads. -/
structure TextOptions where
  mode : TextMode := .rendered
  encoding : String := "utf-8"
  lineEnding : LineEnding := .crlf
  formFeed : Bool := true
  tabWidth : ℕ := 8
  deriving DecidableEq, Repr

/-! ### Rendering -/

def formFeedChar : Char := '\u000c'

/-- `text.replace("\r\n", "\n")`. -/
def replaceCrLf : List Char → List Char
  | '\r' :: '\n' :: rest => '\n' :: replaceCrLf rest
  | c :: rest => c :: replaceCrLf rest
  | [] => []

def normaliseNewlines (text : List Char) : List Char :=
  (replaceCrLf text).map fun c => if c = '\r' then '\n' else c

/-- `expand_tabs`, from some column on. -/
def expandFrom (width : ℕ) : ℕ → List Char → List Char
  | _, [] => []
  | column, c :: rest =>
    if c = '\t' then
      let spaces := width - column % width
      List.replicate spaces ' ' ++ expandFrom width (column + spaces) rest
    else if c = '\n' ∨ c = formFeedChar then c :: expandFrom width 0 rest
    else c :: expandFrom width (column + 1) rest

def expandTabs (text : List Char) (width : ℕ) : List Char :=
  if width = 0 ∨ '\t' ∉ text then text else expandFrom width 0 text

/-- `text.strip_suffix('\n')`, or the text. -/
def stripNewline (text : List Char) : List Char :=
  if text.getLast? = some '\n' then text.dropLast else text

/-- The lines of a text. -/
def rawLines (text : List Char) : List (List Char) := (stripNewline text).splitOn '\n'

/-- Whether a form feed is added at the end. -/
def addsFormFeed (options : TextOptions) (text : List Char) : Bool :=
  options.formFeed && (stripNewline text).getLast? != some formFeedChar

/-- The encoded lines, each with its terminator, and the form feed. -/
def joinLines (options : TextOptions) (text : List Char) (lines : List Bytes) : Bytes :=
  (lines.flatMap fun line => line ++ options.lineEnding.asBytes) ++
    if addsFormFeed options text then [0x0C] else []

def renderRaw (encodings : Whatwgs) (text : List Char) (options : TextOptions) :
    Except PrintError Bytes := do
  let encoder ← TextEncoder.forLabel encodings options.encoding
  let lines ← (rawLines text).mapM encoder.encode
  pure (joinLines options text lines)

/-- The text that is encoded or laid out. -/
def TextOptions.prepare (options : TextOptions) (text : List Char) : List Char :=
  expandTabs (normaliseNewlines text) options.tabWidth

/-- The payload, whether or not the printer accepts it. -/
def textPayload (encodings : Whatwgs) (text : List Char) (options : TextOptions) :
    Except PrintError PrintPayload :=
  match options.mode with
  | .raw => (PrintPayload.raw · none) <$> renderRaw encodings text options
  | .rendered => .ok .text

def TextRenderer.render (encodings : Whatwgs) (printer : Printer) (accepted : List PayloadKind)
    (text : String) (options : TextOptions) : Except PrintError PrintPayload := do
  let payload ← textPayload encodings (options.prepare text.toList) options
  if accepted.contains payload.kind then pure payload
  else
    let name := printer.name
    let mode := options.mode.debugName
    .error ((PrintError.new .unsupportedOperation
      s!"printer '{name}' does not support {mode} text mode").withPrinter printer.id)

/-! ### The length of the RAW form -/

theorem length_encoded (ending : Bytes) (lines : List Bytes) :
    (lines.flatMap fun line => line ++ ending).length =
      (lines.map List.length).sum + lines.length * ending.length := by
  induction lines with
  | nil => simp
  | cons line rest ih =>
    simp only [List.flatMap_cons, List.length_append, ih, List.map_cons, List.sum_cons,
      List.length_cons, Nat.add_mul]
    omega

/-- **The length of the RAW form.** -/
theorem length_joinLines (options : TextOptions) (text : List Char) (lines : List Bytes) :
    (joinLines options text lines).length =
      (lines.map List.length).sum + lines.length * options.lineEnding.asBytes.length +
        if addsFormFeed options text then 1 else 0 := by
  rw [joinLines, List.length_append, length_encoded]
  split <;> rfl

theorem renderRaw_eq_ok {encodings : Whatwgs} {text : List Char} {options : TextOptions}
    {bytes : Bytes} :
    renderRaw encodings text options = .ok bytes ↔
      ∃ encoder lines, TextEncoder.forLabel encodings options.encoding = .ok encoder ∧
        (rawLines text).mapM encoder.encode = .ok lines ∧ joinLines options text lines = bytes := by
  unfold renderRaw
  constructor
  · intro h
    obtain ⟨encoder, hencoder, h⟩ := Except.bind_eq_ok.mp h
    obtain ⟨lines, hlines, h⟩ := Except.bind_eq_ok.mp h
    exact ⟨encoder, lines, hencoder, hlines, Except.ok.inj h⟩
  · rintro ⟨encoder, lines, hencoder, hlines, rfl⟩
    exact Except.bind_eq_ok.mpr ⟨encoder, hencoder, Except.bind_eq_ok.mpr ⟨lines, hlines, rfl⟩⟩

end KilnPrint
