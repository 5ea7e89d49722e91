/-
RECEIPT documents: ESC/POS receipts.

* `Piece` — what the bytes of a stream are: a command, a line end, a payload whose length
  precedes it, or text of the client's;
* `Pictures` — the image library, and the parts of the renderer that use floating point;
* `columns`, `rasterImage`, `encodeItem`, `pieces`, `encode` — **the renderer**;
* `texts`, `encodeItem_texts` — the texts of an item that are encoded, and that each of
  them becomes one piece of text;
* `columns_aligned` — **a line of two columns is as wide as it should be if and only if the right
  one is shorter than the line**.
-/
import KilnPrint.Protocols.EscPos

namespace KilnPrint

/-- What the bytes of a stream are. -/
inductive Piece
  | command (bytes : Bytes)
  | lineEnd (bytes : Bytes)
  /-- The data of a command that states its length. -/
  | payload (bytes : Bytes)
  /-- Text of the client's. -/
  | text (bytes : Bytes)
  deriving DecidableEq

namespace Piece

def bytes : Piece → Bytes
  | command b | lineEnd b | payload b | text b => b

/-- The bytes of a piece of text. -/
def text? : Piece → Option Bytes
  | text b => some b
  | _ => none

end Piece

/-- The name the code-page selectors know an encoding by. -/
def canonicalName (encodings : Whatwgs) (label : String) : Option String :=
  match TextEncoder.forLabel encodings label with
  | .ok .utf8 => some "utf-8"
  | .ok (.dos _ name) => some name
  | .ok (.whatwg encoding) => some encoding.name
  | .error _ => none

namespace Receipt

/-! ### Images -/

/-- A grayscale image. -/
structure Gray where
  width : ℕ
  height : ℕ
  raw : Bytes

/-- The image library, and what the renderer computes in floating point. -/
structure Pictures where
  /-- The bytes that a base64 text stands for. -/
  base64 : String → Except PrintError Bytes
  /-- An image, in grayscale on white. -/
  decode : Bytes → Except PrintError Gray
  resize : Gray → ℕ → ℕ → Gray
  /-- Whether dithering makes the dot in a column and a row black. -/
  black : Gray → ℕ → ℕ → Bool
  nonempty : ∀ data gray, decode data = .ok gray → 0 < gray.width ∧ 0 < gray.height
  resized : ∀ gray w h, (resize gray w h).width = w ∧ (resize gray w h).height = h

def rasterBandRows : ℕ := 256

/-- Eight dots of a row, the first in the highest bit. -/
def ditherByte (p : Pictures) (gray : Gray) (y i : ℕ) : UInt8 :=
  (List.range 8).foldl (fun byte k =>
    if 8 * i + k < gray.width ∧ p.black gray (8 * i + k) y then byte ||| (0x80 >>> UInt8.ofNat k)
    else byte) 0

def widthBytes (gray : Gray) : ℕ := (gray.width + 7) / 8

/-- One bit per dot. -/
def dither (p : Pictures) (gray : Gray) : Bytes :=
  (List.range gray.height).flatMap fun y => (List.range (widthBytes gray)).map (ditherByte p gray y)

/-- The raster blocks of the rows that are left. -/
def bands (width height : ℕ) (bits : Bytes) : List Piece :=
  if h : height = 0 then []
  else
    let rows := min rasterBandRows height
    [.command (EscPos.rasterHead width rows), .payload (bits.take (rows * width))] ++
      bands width (height - rows) (bits.drop (rows * width))
termination_by height
decreasing_by
  have hrows : 0 < min rasterBandRows height := by
    simp only [rasterBandRows]
    omega
  omega

/-- The image, scaled to at most `maxWidth` dots. -/
def scaled (p : Pictures) (gray : Gray) (maxWidth : ℕ) : Gray :=
  if maxWidth < gray.width then p.resize gray maxWidth (max (gray.height * maxWidth / gray.width) 1)
  else gray

def rasterImage (p : Pictures) (data : Bytes) (maxWidth : ℕ) : Except PrintError (List Piece) := do
  let gray ← p.decode data
  let gray := scaled p gray maxWidth
  pure (bands (widthBytes gray) gray.height (dither p gray))

/-! ### Items -/

/-- `left` and `right` on one line; the left side is truncated first. -/
def columns (left right : List Char) (width : ℕ) : List Char :=
  -- the right column comes first, and one blank stands between the two
  let right := right.take width
  let left := left.take (width - (right.length + 1))
  left ++ List.replicate (max (width - (left.length + right.length)) 1) ' ' ++ right

/-- `text.replace("\r\n", "\n").split('\n')`. -/
def textLines (text : List Char) : List (List Char) := (replaceCrLf text).splitOn '\n'

def line (bytes : Bytes) : List Piece := [.text bytes, .lineEnd [0x0A]]

/-- The text of a separator: dashes where its character cannot be represented. -/
def separatorLine (encoder : TextEncoder) (width : ℕ) (character : Char) : List Char :=
  match encoder.encode (List.replicate width character) with
  | .ok _ => List.replicate width character
  | .error _ => List.replicate width '-'

def textOn (e : ReceiptText) : List Piece :=
  [.command (EscPos.align e.align), .command (EscPos.smallFont e.small), .command (EscPos.bold e.bold),
    .command (EscPos.underline e.underline), .command (EscPos.size e.doubleWidth e.doubleHeight),
    .command (EscPos.invert e.invert)]

def textOff : List Piece :=
  [.command (EscPos.invert false), .command (EscPos.size false false),
    .command (EscPos.underline false), .command (EscPos.bold false),
    .command (EscPos.smallFont false), .command (EscPos.align .left)]

/-- The QR code of some data. -/
def qrPieces (data : Bytes) (size : UInt8) (ecc : QrErrorCorrection) : List Piece :=
  [.command (EscPos.qrSettings size ecc), .command (EscPos.symbolHead ((48 :: data).length + 2) 49 80),
    .payload (48 :: data), .command (EscPos.symbol 49 81 [48])]

def encodeItem (p : Pictures) (encoder : TextEncoder) (width : ℕ) :
    ReceiptItem → Except PrintError (List Piece)
  | .text e => do
    let lines ← (textLines e.text.toList).mapM encoder.encode
    pure (textOn e ++ lines.flatMap line ++ textOff)
  | .columns left right bold => do
    let bytes ← encoder.encode (columns left.toList right.toList width)
    pure ([.command (EscPos.bold bold)] ++ line bytes ++ [.command (EscPos.bold false)])
  -- a character that the code page lacks is replaced by a dash
  | .separator character => do
    let bytes ← match encoder.encode (List.replicate width character) with
      | .ok bytes => pure bytes
      | .error _ => encoder.encode (List.replicate width '-')
    pure (line bytes)
  | .feed lines => pure [.command (EscPos.feed lines)]
  | .barcode e =>
    -- heights above 255 are cut
    let height := UInt8.ofNat (min e.heightDots.toNat 255)
    pure [.command (EscPos.align e.align),
      .command (EscPos.barcodeHead e.symbology e.data.toList height e.moduleWidth e.humanReadable),
      .payload (EscPos.barcodeData e.symbology e.data.toList).2, .lineEnd [0x0A],
      .command (EscPos.align .left)]
  | .qr e =>
    pure ([.command (EscPos.align e.align)] ++
      qrPieces (Utf8.encode e.data.toList) e.size e.errorCorrection ++
      [.lineEnd [0x0A], .command (EscPos.align .left)])
  | .image e => do
    -- without a bound, twelve dots a column
    let maxWidth := (e.maxWidthDots.map UInt16.toNat).getD (width * 12)
    let data ← p.base64 e.data
    let image ← rasterImage p data maxWidth
    pure ([.command (EscPos.align e.align)] ++ image ++ [.command (EscPos.align .left)])
  | .cut isPartial feedLines => pure [.command (EscPos.cut isPartial feedLines)]
  | .drawer pin => pure [.command (EscPos.drawer pin)]
  | .raw data => do
    -- what a RAW item inserts is a command of the client's
    let bytes ← p.base64 data
    pure [.command bytes]

/-! ### Documents -/

def header (encodings : Whatwgs) (receipt : ReceiptDocument) : List Piece :=
  [.command EscPos.initialise] ++
    (((canonicalName encodings receipt.codePage).bind EscPos.codeTableFor).elim []
      fun table => [.command (EscPos.codeTable table)])

/-- Whether the last item is a cut. -/
def endsWithCut (receipt : ReceiptDocument) : Bool :=
  receipt.items.foldl (fun _ item => item.isCut) false

def trailer (receipt : ReceiptDocument) : List Piece :=
  (if receipt.openDrawer then [.command (EscPos.drawer 0)] else []) ++
    (if receipt.cut && !endsWithCut receipt then [.command (EscPos.cut false 3)] else [])

def pieces (p : Pictures) (encodings : Whatwgs) (receipt : ReceiptDocument) :
    Except PrintError (List Piece) := do
  let encoder ← TextEncoder.forLabel encodings receipt.codePage
  let items ← receipt.items.mapM (encodeItem p encoder receipt.widthChars.toNat)
  pure (header encodings receipt ++ items.flatten ++ trailer receipt)

/-- The bytes of a receipt. -/
def encode (p : Pictures) (encodings : Whatwgs) (receipt : ReceiptDocument) :
    Except PrintError Bytes :=
  (·.flatMap Piece.bytes) <$> pieces p encodings receipt

/-- The texts of an item that are encoded. -/
def texts (encoder : TextEncoder) (width : ℕ) : ReceiptItem → List (List Char)
  | .text e => textLines e.text.toList
  | .columns left right _ => [columns left.toList right.toList width]
  | .separator character => [separatorLine encoder width character]
  | _ => []

/-! ### Two columns on one line -/

/-- A line of `width` characters: the beginning of `left`, blanks, and `right`, as far as the line
holds it.  A blank separates the two, unless nothing of `left` is there. -/
def Aligned (left right : List Char) (width : ℕ) (line : List Char) : Prop :=
  line.length = width ∧ ∃ before blanks, line = before ++ blanks ++ right.take (min width right.length) ∧
    before <+: left ∧ (∀ c ∈ blanks, c = ' ') ∧ (before ≠ [] → blanks ≠ [])

theorem columns_length (left right : List Char) (width : ℕ) :
    (columns left right width).length = if right.length < width then width else width + 1 := by
  simp only [columns, List.length_append, List.length_take, List.length_replicate]
  split
  · omega
  · omega

/-- **A line of two columns.**  It is as long as it should be, and its parts are in their places,
exactly where the right one is shorter than the line. -/
theorem columns_aligned (left right : List Char) (width : ℕ) :
    Aligned left right width (columns left right width) ↔ right.length < width := by
  constructor
  · intro h
    by_contra hlong
    have hlength := h.1
    rw [columns_length, if_neg hlong] at hlength
    omega
  · intro hshort
    refine ⟨by rw [columns_length, if_pos hshort], left.take (width - (right.length + 1)),
      List.replicate (width - ((left.take (width - (right.length + 1))).length + right.length)) ' ',
      ?_, List.take_prefix _ _, fun c hc => List.eq_of_mem_replicate hc, fun _ => ?_⟩
    · have hgap : 1 ≤ width - ((left.take (width - (right.length + 1))).length + right.length) := by
        rw [List.length_take]
        omega
      simp only [columns, List.take_of_length_le hshort.le, Nat.min_eq_right hshort.le,
        List.take_length, Nat.max_eq_left hgap]
    · rw [Ne, List.replicate_eq_nil_iff, List.length_take]
      omega

/-- **A right column that fills the line makes it one character too long.** -/
theorem columns_overflow : ¬ Aligned "Total".toList "1234567890123456".toList 16
    (columns "Total".toList "1234567890123456".toList 16) := by
  intro h
  exact absurd h.1 (by decide)

end Receipt

end KilnPrint
