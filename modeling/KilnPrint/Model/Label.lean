/-
Language-neutral label, receipt and dot-matrix documents.

* `Symbology.validate` — which barcode data a symbology takes;
* `LabelDocument`, `ReceiptDocument`, `DotMatrixDocument`, with `validate` — the
  documents and their checks;
* `Symbology.ascii_of_validate` — validated barcode data is printable ASCII.

The fields of the items are structures of their own, with the defaults of their
deserialisation.  A floating-point number is the rational number or infinity it stands
for; JSON carries no NaN.
-/
import KilnPrint.Lib.Fallible
import KilnPrint.Lib.Utf8
import KilnPrint.Model.Document
import Mathlib.Algebra.Order.Monoid.WithTop
import Mathlib.Algebra.Order.Ring.Rat
import Mathlib.Order.WithBot
import Mathlib.Order.WithBotTop

namespace KilnPrint

/-! ### Shared -/

/-- An `f32` other than NaN. -/
abbrev Single := WithBot (WithTop ℚ)

/-- `(lo..=hi).contains(&v)`. -/
def Single.between (lo hi : ℚ) (v : Single) : Bool :=
  decide ((lo : Single) ≤ v) && decide (v ≤ (hi : Single))

def check (condition : Bool) (message : String) : Except PrintError Unit :=
  if condition then .ok () else .error (.invalidPayload message)

theorem check_eq_ok {condition : Bool} {message : String} :
    check condition message = .ok () ↔ condition = true := by
  cases condition <;> simp [check]

theorem forM_eq_ok {α : Type} {f : α → Except PrintError Unit} {l : List α} :
    l.forM f = .ok () ↔ ∀ a ∈ l, f a = .ok () := by
  induction l with
  | nil => simp [pure, Except.pure]
  | cons a l ih =>
    show (f a >>= fun _ => l.forM f) = .ok () ↔ _
    rw [Except.bind_eq_ok, List.forall_mem_cons]
    constructor
    · rintro ⟨_, ha, hl⟩
      exact ⟨ha, ih.mp hl⟩
    · rintro ⟨ha, hl⟩
      exact ⟨(), ha, ih.mpr hl⟩

inductive Symbology
  | code128
  | code39
  | ean13
  | ean8
  | upcA
  /-- Interleaved 2 of 5. -/
  | itf
  deriving DecidableEq, Repr

namespace Symbology

/-- The variant's name, as the `{:?}` formatter prints it. -/
def debugName : Symbology → String
  | code128 => "Code128"
  | code39 => "Code39"
  | ean13 => "Ean13"
  | ean8 => "Ean8"
  | upcA => "UpcA"
  | itf => "Itf"

/-- Whether barcode content has the lengths and the characters of the symbology. -/
def accepts (symbology : Symbology) (data : String) : Bool :=
  let chars := data.toList
  let digits := chars.all Char.isDigit
  let len := data.utf8ByteSize
  match symbology with
  | code128 => !data.isEmpty && len ≤ 80 && chars.all fun c => ' ' ≤ c && c ≤ '~'
  | code39 => !data.isEmpty && len ≤ 80 &&
      chars.all fun c => c.isUpper || c.isDigit || " -.$/+%".toList.contains c
  | ean13 => digits && (len == 12 || len == 13)
  | ean8 => digits && (len == 7 || len == 8)
  | upcA => digits && (len == 11 || len == 12)
  | itf => digits && !data.isEmpty && len % 2 == 0 && len ≤ 80

def validate (symbology : Symbology) (data : String) : Except PrintError Unit :=
  let name := symbology.debugName
  check (symbology.accepts data) s!"'{data}' is not valid {name} barcode data"

theorem isDigit_bounds {c : Char} (h : c.isDigit = true) : 48 ≤ c.toNat ∧ c.toNat ≤ 57 := by
  simpa [Char.isDigit, UInt32.le_iff_toNat_le, ← Char.toNat_val] using h

theorem isUpper_bounds {c : Char} (h : c.isUpper = true) : 65 ≤ c.toNat ∧ c.toNat ≤ 90 := by
  have hbounds : c.val ≥ 'A'.val ∧ c.val ≤ 'Z'.val := of_decide_eq_true h
  exact hbounds

/-- **Validated barcode data is printable ASCII.** -/
theorem ascii_of_validate {symbology : Symbology} {data : String}
    (h : symbology.validate data = .ok ()) :
    ∀ c ∈ data.toList, 0x20 ≤ c.toNat ∧ c.toNat ≤ 0x7E := by
  have haccepts : symbology.accepts data = true := check_eq_ok.mp h
  have hdigits : data.toList.all Char.isDigit = true →
      ∀ c ∈ data.toList, 0x20 ≤ c.toNat ∧ c.toNat ≤ 0x7E := by
    intro hall c hc
    have := isDigit_bounds (List.all_eq_true.mp hall c hc)
    omega
  cases symbology with
  | code128 =>
    intro c hc
    simp only [accepts, Bool.and_eq_true, List.all_eq_true, decide_eq_true_eq, Char.le_def,
      UInt32.le_iff_toNat_le] at haccepts
    exact haccepts.2 c hc
  | code39 =>
    intro c hc
    simp only [accepts, Bool.and_eq_true, Bool.or_eq_true, List.all_eq_true,
      List.contains_iff_mem] at haccepts
    rcases haccepts.2 c hc with (hupper | hdigit) | hmem
    · have := isUpper_bounds hupper
      omega
    · have := isDigit_bounds hdigit
      omega
    · have hall : ∀ d ∈ " -.$/+%".toList, 0x20 ≤ d.toNat ∧ d.toNat ≤ 0x7E :=
        Utf8.forall_of_all (by decide)
      exact hall c hmem
  | ean13 | ean8 | upcA =>
    simp only [accepts, Bool.and_eq_true] at haccepts
    exact hdigits haccepts.1
  | itf =>
    simp only [accepts, Bool.and_eq_true] at haccepts
    exact hdigits haccepts.1.1.1

end Symbology

inductive QrErrorCorrection
  | l
  | m
  | q
  | h
  deriving DecidableEq, Repr

inductive TextAlignment
  | left
  | center
  | right
  deriving DecidableEq, Repr

def validateRotation (rotation : UInt16) : Except PrintError Unit :=
  if rotation = 0 ∨ rotation = 90 ∨ rotation = 180 ∨ rotation = 270 then .ok ()
  else .error (.invalidPayload "rotation must be 0, 90, 180 or 270")

/-! ### Labels -/

/-- Where an element of a label is. -/
structure Position where
  xMm : Single
  yMm : Single
  deriving DecidableEq

structure LabelText extends Position where
  text : String
  /-- Character height. -/
  heightMm : Single := (3 : ℚ)
  rotation : UInt16 := 0
  /-- Language-specific font id, passed through. -/
  font : Option String := none
  deriving DecidableEq

structure LabelBarcode extends Position where
  symbology : Symbology
  data : String
  heightMm : Single := (10 : ℚ)
  /-- Narrow bar width in dots. -/
  moduleWidth : UInt8 := 2
  humanReadable : Bool := true
  rotation : UInt16 := 0
  deriving DecidableEq

structure LabelQr extends Position where
  data : String
  magnification : UInt8 := 4
  errorCorrection : QrErrorCorrection := .m
  deriving DecidableEq

structure LabelDataMatrix extends Position where
  data : String
  /-- Module size in dots. -/
  moduleSize : UInt8 := 4
  deriving DecidableEq

structure LabelBox extends Position where
  widthMm : Single
  heightMm : Single
  /-- `0.3`, as a single holds it. -/
  thicknessMm : Single := (5033165 / 16777216 : ℚ)
  deriving DecidableEq

inductive LabelElement
  | text (text : LabelText)
  | barcode (barcode : LabelBarcode)
  | qr (qr : LabelQr)
  | dataMatrix (matrix : LabelDataMatrix)
  | box (box : LabelBox)
  /-- Commands in the target language, inserted verbatim. -/
  | raw (data : String)
  deriving DecidableEq

namespace LabelElement

def position : LabelElement → Option Position
  | text e => some e.toPosition
  | barcode e => some e.toPosition
  | qr e => some e.toPosition
  | dataMatrix e => some e.toPosition
  | box e => some e.toPosition
  | raw _ => none

def isRaw : LabelElement → Bool
  | raw _ => true
  | _ => false

/-- The checks of an element, apart from its position. -/
def validate : LabelElement → Except PrintError Unit
  | text e => do
    check (!e.text.isEmpty && e.text.utf8ByteSize ≤ 1000) "text must be 1-1000 characters"
    check (e.heightMm.between (1 / 2) 200) "text heightMm must be between 0.5 and 200"
    validateRotation e.rotation
    check (e.font.all fun f => !f.isEmpty && f.utf8ByteSize ≤ 32 && f.toList.all isAsciiGraphic)
      "font must be 1-32 printable ASCII characters"
  | barcode e => do
    e.symbology.validate e.data
    check (e.heightMm.between 1 300) "barcode heightMm must be between 1 and 300"
    check (1 ≤ e.moduleWidth && e.moduleWidth ≤ 10) "moduleWidth must be between 1 and 10 dots"
    validateRotation e.rotation
  | qr e => do
    check (!e.data.isEmpty && e.data.utf8ByteSize ≤ 2000) "QR data must be 1-2000 bytes"
    check (1 ≤ e.magnification && e.magnification ≤ 10) "magnification must be between 1 and 10"
  | dataMatrix e => do
    check (!e.data.isEmpty && e.data.utf8ByteSize ≤ 1500) "Data Matrix data must be 1-1500 bytes"
    check (1 ≤ e.moduleSize && e.moduleSize ≤ 20) "moduleSize must be between 1 and 20"
  | box e => do
    check (decide (((0 : ℚ) : Single) < e.widthMm) && decide (((0 : ℚ) : Single) < e.heightMm))
      "box dimensions must be positive"
    check (decide (((0 : ℚ) : Single) < e.thicknessMm)) "thicknessMm must be positive"
  | raw data => check (data.utf8ByteSize ≤ 64 * 1024) "RAW element is limited to 64 KiB"

end LabelElement

/-- A label described independently of the printer language. -/
structure LabelDocument where
  widthMm : Single
  heightMm : Single
  /-- Printer resolution. -/
  dpi : ℕ := 203
  /-- When absent the printer's language hint is used. -/
  language : Option String := none
  /-- Gap between labels. -/
  gapMm : Option Single := none
  /-- Print darkness. -/
  darkness : Option UInt8 := none
  /-- Print speed in inches per second. -/
  speed : Option UInt8 := none
  elements : List LabelElement
  deriving DecidableEq

namespace LabelDocument

def maxElements : ℕ := 500

/-- Whether a position is on the label. -/
def holds (label : LabelDocument) (p : Position) : Bool :=
  decide (((0 : ℚ) : Single) ≤ p.xMm) && decide (p.xMm < label.widthMm) &&
    (decide (((0 : ℚ) : Single) ≤ p.yMm) && decide (p.yMm < label.heightMm))

def validateElement (label : LabelDocument) (element : LabelElement) : Except PrintError Unit := do
  check (element.position.all label.holds) "element position is outside the label"
  element.validate

def validate (label : LabelDocument) : Except PrintError Unit := do
  check (label.widthMm.between 5 600) "label widthMm must be between 5 and 600"
  check (label.heightMm.between 5 2000) "label heightMm must be between 5 and 2000"
  check (100 ≤ label.dpi && label.dpi ≤ 1200) "dpi must be between 100 and 1200"
  check (label.darkness.all (· ≤ 30)) "darkness must be between 0 and 30"
  check (label.speed.all fun s => 1 ≤ s && s ≤ 14) "speed must be between 1 and 14"
  check (label.gapMm.all (Single.between 0 50)) "gapMm must be between 0 and 50"
  check (!label.elements.isEmpty) "a label needs at least one element"
  check (label.elements.length ≤ maxElements) "a label may have at most 500 elements"
  label.elements.forM label.validateElement

/-- The elements of a valid label are valid. -/
theorem validate_elements {label : LabelDocument} (h : label.validate = .ok ()) :
    ∀ e ∈ label.elements, e.validate = .ok () := by
  unfold validate at h
  repeat obtain ⟨_, -, h⟩ := Except.bind_eq_ok.mp h
  intro e he
  obtain ⟨_, -, hvalid⟩ := Except.bind_eq_ok.mp (forM_eq_ok.mp h e he)
  exact hvalid

end LabelDocument

/-! ### Receipts -/

structure ReceiptText where
  text : String
  align : TextAlignment := .left
  bold : Bool := false
  underline : Bool := false
  doubleWidth : Bool := false
  doubleHeight : Bool := false
  /-- White on black. -/
  invert : Bool := false
  /-- Font B. -/
  small : Bool := false
  deriving DecidableEq

structure ReceiptBarcode where
  symbology : Symbology
  data : String
  heightDots : UInt16 := 80
  moduleWidth : UInt8 := 3
  humanReadable : Bool := true
  align : TextAlignment := .left
  deriving DecidableEq

structure ReceiptQr where
  data : String
  size : UInt8 := 6
  errorCorrection : QrErrorCorrection := .m
  align : TextAlignment := .left
  deriving DecidableEq

structure ReceiptImage where
  /-- A picture, in base64. -/
  data : String
  align : TextAlignment := .left
  /-- Defaults to the paper width in dots. -/
  maxWidthDots : Option UInt16 := none
  deriving DecidableEq

inductive ReceiptItem
  | text (text : ReceiptText)
  /-- Left and right text on one line, padded to the paper's width. -/
  | columns (left right : String) (bold : Bool)
  | separator (character : Char)
  | feed (lines : UInt8)
  | barcode (barcode : ReceiptBarcode)
  | qr (qr : ReceiptQr)
  | image (image : ReceiptImage)
  | cut (isPartial : Bool) (feedLines : UInt8)
  /-- Pulse the cash-drawer kick connector. -/
  | drawer (pin : UInt8)
  /-- Base64 bytes inserted verbatim. -/
  | raw (data : String)
  deriving DecidableEq

namespace ReceiptItem

def isRaw : ReceiptItem → Bool
  | raw _ => true
  | _ => false

def isCut : ReceiptItem → Bool
  | cut .. => true
  | _ => false

def validate : ReceiptItem → Except PrintError Unit
  | text e => check (e.text.utf8ByteSize ≤ 10000) "text item is too long"
  | columns left right _ =>
    check (left.utf8ByteSize + right.utf8ByteSize ≤ 1000) "columns text is too long"
  | feed lines => check (lines ≤ 100) "feed lines must be at most 100"
  | barcode e => do
    e.symbology.validate e.data
    check (1 ≤ e.heightDots && e.heightDots ≤ 255) "heightDots must be between 1 and 255"
    check (2 ≤ e.moduleWidth && e.moduleWidth ≤ 6) "moduleWidth must be between 2 and 6"
  | qr e => do
    check (!e.data.isEmpty && e.data.utf8ByteSize ≤ 2000) "QR data must be 1-2000 bytes"
    check (1 ≤ e.size && e.size ≤ 16) "QR size must be between 1 and 16"
  | image e => do
    check (!e.data.isEmpty) "image data is empty"
    check (e.maxWidthDots.all fun w => 8 ≤ w && w ≤ 2048) "maxWidthDots must be 8-2048"
  | drawer pin => check (pin ≤ 1) "drawer pin must be 0 (pin 2) or 1 (pin 5)"
  | separator _ | cut .. | raw _ => .ok ()

end ReceiptItem

structure ReceiptDocument where
  /-- Characters per line in the normal font. -/
  widthChars : UInt8 := 48
  codePage : String := "ibm437"
  /-- Cut the paper at the end, unless the items already end with a cut. -/
  cut : Bool := true
  openDrawer : Bool := false
  items : List ReceiptItem
  deriving DecidableEq

def ReceiptDocument.validate (receipt : ReceiptDocument) : Except PrintError Unit := do
  check (16 ≤ receipt.widthChars && receipt.widthChars ≤ 96) "widthChars must be between 16 and 96"
  check (!receipt.items.isEmpty && receipt.items.length ≤ 2000) "a receipt needs 1-2000 items"
  receipt.items.forM ReceiptItem.validate

/-! ### Dot-matrix documents -/

inductive DotMatrixQuality
  | draft
  /-- Near letter quality. -/
  | nlq
  deriving DecidableEq, Repr

structure DotMatrixStyle where
  bold : Bool := false
  condensed : Bool := false
  doubleWidth : Bool := false
  underline : Bool := false
  italic : Bool := false
  doubleStrike : Bool := false
  deriving DecidableEq, Repr

inductive DotMatrixItem
  | line (text : String) (style : DotMatrixStyle)
  | lineFeed (lines : UInt8)
  /-- Advance to the next top-of-form. -/
  | formFeed
  /-- Base64 bytes sent verbatim. -/
  | raw (data : String)
  deriving DecidableEq

/-- A line: plain text, or a styled or command item. -/
inductive DotMatrixLine
  | text (text : String)
  | item (item : DotMatrixItem)
  deriving DecidableEq

def DotMatrixLine.isRaw : DotMatrixLine → Bool
  | item (.raw _) => true
  | _ => false

structure DotMatrixDocument where
  /-- Characters per inch. -/
  cpi : UInt8 := 10
  /-- Lines per inch. -/
  lpi : Single := (6 : ℚ)
  /-- Print-head pins; selects the line-spacing unit. -/
  pins : UInt8 := 24
  quality : DotMatrixQuality := .draft
  /-- Page length in lines. -/
  formLengthLines : Option UInt8 := none
  formLengthInches : Option UInt8 := none
  /-- Lines to skip over the perforation. -/
  skipPerforationLines : Option UInt8 := none
  leftMargin : Option UInt8 := none
  rightMargin : Option UInt8 := none
  encoding : String := "ibm437"
  /-- Defaults to the table matching `encoding`. -/
  characterTable : Option UInt8 := none
  /-- Reset to power-on settings first. -/
  initialise : Bool := true
  /-- Finish with a form feed. -/
  formFeed : Bool := true
  lines : List DotMatrixLine
  deriving DecidableEq

def DotMatrixDocument.validate (doc : DotMatrixDocument) : Except PrintError Unit := do
  check ([10, 12, 15, 17, 20].contains doc.cpi) "cpi must be 10, 12, 15, 17 or 20"
  check (doc.lpi.between 1 72) "lpi must be between 1 and 72"
  check ([9, 24].contains doc.pins) "pins must be 9 or 24"
  check (!(doc.formLengthLines.isSome && doc.formLengthInches.isSome))
    "give formLengthLines or formLengthInches, not both"
  check (doc.formLengthLines.all (1 ≤ ·)) "formLengthLines must be at least 1"
  check (doc.formLengthInches.all fun n => 1 ≤ n && n ≤ 22) "formLengthInches must be 1-22"
  check (!doc.lines.isEmpty && doc.lines.length ≤ 20000) "a document needs 1-20000 lines"

end KilnPrint
