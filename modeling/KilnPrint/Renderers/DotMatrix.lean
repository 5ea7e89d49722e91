/-
DOT_MATRIX documents: ESC/P text for impact printers.

* `textLine`, `encodeLine`, `pieces`, `encode` — **the renderer**;
* `texts` — the texts of a line that are encoded.

The line spacing that no standard command sets is computed in floating point, and is a
parameter.
-/
import KilnPrint.Protocols.EscP
import KilnPrint.Renderers.Receipt

namespace KilnPrint

namespace DotMatrix

/-! ### The renderer -/

/-- `replace(.., " ")`. -/
def blank (chars : List Char) (text : List Char) : List Char :=
  text.map fun c => if c ∈ chars then ' ' else c

/-- The pages of a line: a form feed in it starts a new one. -/
def pageTexts (text : List Char) : List (List Char) :=
  (text.splitOn formFeedChar).map (blank ['\r', '\n'])

/-- The pages of a line, form feeds between them, and its end. -/
def textLine (encoder : TextEncoder) (text : List Char) : Except PrintError (List Piece) := do
  let pages ← (pageTexts text).mapM encoder.encode
  pure ((pages.map Piece.text).intersperse (.command [EscP.formFeed]) ++ [.lineEnd EscP.crLf])

/-- The commands around a styled line. -/
def styleCommands (style : DotMatrixStyle) (condensedPitch on : Bool) : List Piece :=
  (if style.bold then [.command (EscP.bold on)] else []) ++
  (if style.doubleStrike then [.command (EscP.doubleStrike on)] else []) ++
  (if style.italic then [.command (EscP.italic on)] else []) ++
  (if style.underline then [.command (EscP.underline on)] else []) ++
  (if style.doubleWidth then [.command (EscP.doubleWidth on)] else []) ++
  (if style.condensed && !condensedPitch then
    [.command [if on then EscP.condensedOn else EscP.condensedOff]] else [])

/-- What a styled line prints. -/
def itemText (text : List Char) : List Char := blank ['\r', '\n', formFeedChar] text

def encodeLine (base64 : String → Except PrintError Bytes) (encoder : TextEncoder)
    (condensedPitch : Bool) : DotMatrixLine → Except PrintError (List Piece)
  | .text text => do
    let lines ← (Receipt.textLines text.toList).mapM (textLine encoder)
    pure lines.flatten
  | .item (.line text style) => do
    let bytes ← encoder.encode (itemText text.toList)
    pure (styleCommands style condensedPitch true ++ [.text bytes] ++
      styleCommands style condensedPitch false ++ [.lineEnd EscP.crLf])
  | .item (.lineFeed lines) => pure (List.replicate lines.toNat (.lineEnd EscP.crLf))
  | .item .formFeed => pure [.command [EscP.formFeed]]
  | .item (.raw data) => do
    let bytes ← base64 data
    pure [.command bytes]

def option (value : Option UInt8) (command : UInt8 → Bytes) : List Piece :=
  value.elim [] fun n => [.command (command n)]

/-- Line spacing is set before the page length, which measures the page in lines. -/
def header (spacing : Single → UInt8 → UInt8) (encodings : Whatwgs) (doc : DotMatrixDocument) :
    List Piece :=
  (if doc.initialise then [.command EscP.initialise] else []) ++
    [.command (EscP.quality (doc.quality == .nlq)), .command (EscP.pitch doc.cpi),
      .command (EscP.lineSpacing spacing doc.lpi doc.pins)] ++
    option doc.formLengthLines EscP.formLengthLines ++
    option doc.formLengthInches EscP.formLengthInches ++
    option doc.skipPerforationLines EscP.skipPerforation ++
    option doc.leftMargin EscP.leftMargin ++ option doc.rightMargin EscP.rightMargin ++
    option (doc.characterTable <|>
      (canonicalName encodings doc.encoding).bind EscP.characterTableFor) EscP.characterTable

/-- A form feed, unless the stream ends in one. -/
def trailer (doc : DotMatrixDocument) (stream : List Piece) : List Piece :=
  if doc.formFeed && (stream.flatMap Piece.bytes).getLast? != some EscP.formFeed then
    [.command [EscP.formFeed]]
  else []

def pieces (base64 : String → Except PrintError Bytes) (spacing : Single → UInt8 → UInt8)
    (encodings : Whatwgs) (doc : DotMatrixDocument) : Except PrintError (List Piece) := do
  let encoder ← TextEncoder.forLabel encodings doc.encoding
  -- 17 and 20 characters per inch are the condensed forms of pica and elite
  let condensedPitch := doc.cpi == 17 || doc.cpi == 20
  let lines ← doc.lines.mapM (encodeLine base64 encoder condensedPitch)
  let stream := header spacing encodings doc ++ lines.flatten
  pure (stream ++ trailer doc stream)

/-- The bytes of a dot-matrix document. -/
def encode (base64 : String → Except PrintError Bytes) (spacing : Single → UInt8 → UInt8)
    (encodings : Whatwgs) (doc : DotMatrixDocument) : Except PrintError Bytes :=
  (·.flatMap Piece.bytes) <$> pieces base64 spacing encodings doc

/-- The texts of a line that are encoded. -/
def texts : DotMatrixLine → List (List Char)
  | .text text => (Receipt.textLines text.toList).flatMap pageTexts
  | .item (.line text _) => [itemText text.toList]
  | _ => []

end DotMatrix

end KilnPrint
