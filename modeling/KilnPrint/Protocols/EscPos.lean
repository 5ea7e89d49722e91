/-
ESC/POS commands, written and read.

* `align`, `bold`, …, `barcode`, `qr`, `raster` — **the command builders**: each gives the
  bytes of one command;
* `Command`, `Command.bytes`, `Command.Fits` — the commands of the grammar, their bytes,
  and which of them the length fields can hold;
* `parseOne`, `grammar`, `parse` — **the grammar**: fixed-length commands, payloads by their
  length fields, and lines of text.
-/
import KilnPrint.Lib.Grammar
import KilnPrint.Protocols.CodePage
import KilnPrint.Model.Label

namespace KilnPrint

namespace EscPos

/-! ### Command builders -/

def esc : UInt8 := 0x1B

def gs : UInt8 := 0x1D

/-- `ESC @`: reset to power-on settings. -/
def initialise : Bytes := [esc, 0x40]

def flag (on : Bool) : UInt8 := if on then 1 else 0

def alignNumber : TextAlignment → UInt8
  | .left => 0
  | .center => 1
  | .right => 2

def align (alignment : TextAlignment) : Bytes := [esc, 0x61, alignNumber alignment]

def bold (on : Bool) : Bytes := [esc, 0x45, flag on]

def underline (on : Bool) : Bytes := [esc, 0x2D, flag on]

def sizeNumber (doubleWidth doubleHeight : Bool) : UInt8 :=
  flag doubleWidth <<< 4 ||| flag doubleHeight

/-- `GS !`: character width and height multiplier. -/
def size (doubleWidth doubleHeight : Bool) : Bytes := [gs, 0x21, sizeNumber doubleWidth doubleHeight]

/-- `GS B`: white on black. -/
def invert (on : Bool) : Bytes := [gs, 0x42, flag on]

/-- `ESC M`: font A or B. -/
def smallFont (on : Bool) : Bytes := [esc, 0x4D, flag on]

/-- `ESC t`: select the character code table. -/
def codeTable (n : UInt8) : Bytes := [esc, 0x74, n]

/-- `ESC t` table number for an encoding. -/
def codeTableFor (canonicalEncoding : String) : Option UInt8 :=
  match canonicalEncoding with
  | "IBM437" => some 0
  | "IBM850" => some 2
  | "windows-1252" => some 16
  | "IBM866" => some 17
  | "IBM858" => some 19
  | _ => none

/-- `ESC d n`: print and feed `n` lines. -/
def feed (lines : UInt8) : Bytes := [esc, 0x64, lines]

def cutMode (isPartial : Bool) : UInt8 := if isPartial then 66 else 65

/-- `GS V 65/66 n`: feed `n` lines, then full or partial cut. -/
def cut (isPartial : Bool) (feedLines : UInt8) : Bytes := [gs, 0x56, cutMode isPartial, feedLines]

/-- `ESC p m t1 t2`: kick the cash drawer. -/
def drawer (pin : UInt8) : Bytes := [esc, 0x70, min pin 1, 25, 250]

/-- Function number of `GS k` and the data as it takes them. -/
def barcodeData (symbology : Symbology) (data : List Char) : UInt8 × Bytes :=
  match symbology with
  | .upcA => (65, Utf8.encode data)
  | .ean13 => (67, Utf8.encode data)
  | .ean8 => (68, Utf8.encode data)
  | .code39 => (69, Utf8.encode data)
  | .itf => (70, Utf8.encode data)
  -- `{` is the function-code escape in CODE128 data
  | .code128 =>
    (73, Utf8.encode (['\x7b', 'B'] ++
      data.flatMap fun c => if c = '\x7b' then ['\x7b', '\x7b'] else [c]))

def barcodeHead (symbology : Symbology) (data : List Char) (height module : UInt8) (hri : Bool) :
    Bytes :=
  [gs, 0x68, height, gs, 0x77, module, gs, 0x48, if hri then 2 else 0, gs, 0x6B,
    (barcodeData symbology data).1, UInt8.ofNat (barcodeData symbology data).2.length]

/-- Barcode with height, module width and human-readable text below. -/
def barcode (symbology : Symbology) (data : List Char) (height module : UInt8) (hri : Bool) :
    Bytes :=
  barcodeHead symbology data height module hri ++ (barcodeData symbology data).2

/-- The head of a `GS ( k` command with `len` bytes after its length. -/
def symbolHead (len : ℕ) (cn fn : UInt8) : Bytes :=
  [gs, 0x28, 0x6B, UInt8.ofNat (len % 256), UInt8.ofNat (len / 256), cn, fn]

def symbol (cn fn : UInt8) (params : Bytes) : Bytes := symbolHead (params.length + 2) cn fn ++ params

def eccLevel : QrErrorCorrection → UInt8
  | .l => 48
  | .m => 49
  | .q => 50
  | .h => 51

/-- Model, size and error correction of a QR code. -/
def qrSettings (size : UInt8) (ecc : QrErrorCorrection) : Bytes :=
  symbol 49 65 [50, 0] ++ symbol 49 67 [size] ++ symbol 49 69 [eccLevel ecc]

/-- QR code: model 2, module size, error correction, store, print. -/
def qr (data : Bytes) (size : UInt8) (ecc : QrErrorCorrection) : Bytes :=
  qrSettings size ecc ++ symbol 49 80 (48 :: data) ++ symbol 49 81 [48]

def rasterHead (widthBytes height : ℕ) : Bytes :=
  [gs, 0x76, 0x30, 0, UInt8.ofNat (widthBytes % 256), UInt8.ofNat (widthBytes / 256 % 256),
    UInt8.ofNat (height % 256), UInt8.ofNat (height / 256 % 256)]

/-- `GS v 0`: 1-bit raster image, with the low 16 bits of its dimensions. -/
def raster (widthBytes height : ℕ) (bits : Bytes) : Bytes := rasterHead widthBytes height ++ bits

/-! ### The grammar -/

inductive Command
  | initialise
  | codeTable (n : UInt8)
  | align (n : UInt8)
  | bold (n : UInt8)
  | underline (n : UInt8)
  | font (n : UInt8)
  | size (n : UInt8)
  | invert (n : UInt8)
  | feed (n : UInt8)
  | cut (m n : UInt8)
  | drawer (m t₁ t₂ : UInt8)
  | barcodeHeight (n : UInt8)
  | barcodeWidth (n : UInt8)
  | readable (n : UInt8)
  | barcode (m : UInt8) (data : Bytes)
  | symbol (cn fn : UInt8) (params : Bytes)
  | raster (widthBytes height : ℕ) (bits : Bytes)
  /-- Text, and the line feed after it. -/
  | line (text : Bytes)
  deriving DecidableEq

def lineFeed : UInt8 := 0x0A

def carriageReturn : UInt8 := 0x0D

/-- A byte that a line may hold: no control byte but a carriage return. -/
def inLine (b : UInt8) : Prop := 0x20 ≤ b.toNat ∨ b = carriageReturn

instance (b : UInt8) : Decidable (inLine b) := inferInstanceAs (Decidable (_ ∨ _))

def Command.bytes : Command → Bytes
  | initialise => [esc, 0x40]
  | codeTable n => [esc, 0x74, n]
  | align n => [esc, 0x61, n]
  | bold n => [esc, 0x45, n]
  | underline n => [esc, 0x2D, n]
  | font n => [esc, 0x4D, n]
  | size n => [gs, 0x21, n]
  | invert n => [gs, 0x42, n]
  | feed n => [esc, 0x64, n]
  | cut m n => [gs, 0x56, m, n]
  | drawer m t₁ t₂ => [esc, 0x70, m, t₁, t₂]
  | barcodeHeight n => [gs, 0x68, n]
  | barcodeWidth n => [gs, 0x77, n]
  | readable n => [gs, 0x48, n]
  | barcode m data => [gs, 0x6B, m, UInt8.ofNat data.length] ++ data
  | symbol cn fn params => EscPos.symbol cn fn params
  | raster widthBytes height bits => EscPos.raster widthBytes height bits
  | line text => text ++ [lineFeed]

/-- The length fields of a command hold its lengths, and a line holds no other control. -/
def Command.Fits : Command → Prop
  | barcode _ data => data.length < 256
  | symbol _ _ params => params.length + 2 < 65536
  | raster widthBytes height bits =>
    widthBytes < 65536 ∧ height < 65536 ∧ bits.length = widthBytes * height
  | line text => ∀ b ∈ text, inLine b
  | _ => True

/-- The text up to the next line feed, and what follows it. -/
def takeLine : Bytes → Option (Bytes × Bytes)
  | [] => none
  | b :: rest =>
    if b = lineFeed then some ([], rest)
    else if inLine b then (takeLine rest).map fun line => (b :: line.1, line.2)
    else none

/-- The first `n` bytes, and what follows them. -/
def takeBytes (n : ℕ) (bytes : Bytes) : Option (Bytes × Bytes) :=
  if n ≤ bytes.length then some (bytes.take n, bytes.drop n) else none

/-- The number that two bytes hold, the low one first. -/
def word (low high : UInt8) : ℕ := low.toNat + 256 * high.toNat

/-- A command that starts with `ESC`. -/
def parseEsc : Bytes → Option (Command × Bytes)
  | 0x40 :: rest => some (.initialise, rest)
  | 0x74 :: n :: rest => some (.codeTable n, rest)
  | 0x61 :: n :: rest => some (.align n, rest)
  | 0x45 :: n :: rest => some (.bold n, rest)
  | 0x2D :: n :: rest => some (.underline n, rest)
  | 0x4D :: n :: rest => some (.font n, rest)
  | 0x64 :: n :: rest => some (.feed n, rest)
  | 0x70 :: m :: t₁ :: t₂ :: rest => some (.drawer m t₁ t₂, rest)
  | _ => none

/-- A command that starts with `GS`. -/
def parseGs : Bytes → Option (Command × Bytes)
  | 0x21 :: n :: rest => some (.size n, rest)
  | 0x42 :: n :: rest => some (.invert n, rest)
  | 0x56 :: m :: n :: rest => some (.cut m n, rest)
  | 0x68 :: n :: rest => some (.barcodeHeight n, rest)
  | 0x77 :: n :: rest => some (.barcodeWidth n, rest)
  | 0x48 :: n :: rest => some (.readable n, rest)
  | 0x6B :: m :: n :: rest =>
    (takeBytes n.toNat rest).map fun taken => (.barcode m taken.1, taken.2)
  | 0x28 :: 0x6B :: low :: high :: cn :: fn :: rest =>
    (takeBytes (word low high - 2) rest).map fun taken => (.symbol cn fn taken.1, taken.2)
  | 0x76 :: 0x30 :: 0 :: xl :: xh :: yl :: yh :: rest =>
    (takeBytes (word xl xh * word yl yh) rest).map fun taken =>
      (.raster (word xl xh) (word yl yh) taken.1, taken.2)
  | _ => none

/-- The first command of a stream, and what follows it. -/
def parseOne : Bytes → Option (Command × Bytes)
  | [] => none
  | b :: rest =>
    if b = esc then parseEsc rest
    else if b = gs then parseGs rest
    else (takeLine (b :: rest)).map fun line => (.line line.1, line.2)

/-! ### Reading back -/

theorem ne_of_inLine {b c : UInt8} (h : inLine b) (hc : ¬ inLine c) : b ≠ c := by
  rintro rfl
  exact hc h

theorem takeLine_line {text : Bytes} (h : ∀ b ∈ text, inLine b) (rest : Bytes) :
    takeLine (text ++ lineFeed :: rest) = some (text, rest) := by
  induction text with
  | nil => rw [List.nil_append, takeLine, if_pos rfl]
  | cons b text ih =>
    have hb := h b List.mem_cons_self
    rw [List.cons_append, takeLine, if_neg (ne_of_inLine hb (by decide)), if_pos hb,
      ih fun c hc => h c (List.mem_cons_of_mem _ hc)]
    rfl

theorem takeBytes_append (bytes rest : Bytes) :
    takeBytes bytes.length (bytes ++ rest) = some (bytes, rest) := by
  rw [takeBytes, if_pos (by simp), List.take_left, List.drop_left]

theorem word_ofNat {n : ℕ} (h : n < 65536) :
    word (UInt8.ofNat (n % 256)) (UInt8.ofNat (n / 256)) = n := by
  rw [word, Utf8.toNat_ofNat (by omega), Utf8.toNat_ofNat (by omega)]
  omega

/-- **A command that fits is read back, whatever follows it.** -/
theorem parseOne_bytes {command : Command} (h : command.Fits) (rest : Bytes) :
    parseOne (command.bytes ++ rest) = some (command, rest) := by
  cases command with
  | barcode m data =>
    have hlength : (UInt8.ofNat data.length).toNat = data.length := Utf8.toNat_ofNat h
    show (takeBytes (UInt8.ofNat data.length).toNat (data ++ rest)).map _ = _
    rw [hlength, takeBytes_append]
    rfl
  | symbol cn fn params =>
    show (takeBytes (word (UInt8.ofNat ((params.length + 2) % 256))
      (UInt8.ofNat ((params.length + 2) / 256)) - 2) (params ++ rest)).map _ = _
    rw [word_ofNat h, Nat.add_sub_cancel, takeBytes_append]
    rfl
  | raster widthBytes height bits =>
    obtain ⟨hwidth, hheight, hbits⟩ := h
    have hw : word (UInt8.ofNat (widthBytes % 256)) (UInt8.ofNat (widthBytes / 256 % 256)) =
        widthBytes := by
      rw [Nat.mod_eq_of_lt (by omega : widthBytes / 256 < 256), word_ofNat hwidth]
    have hh : word (UInt8.ofNat (height % 256)) (UInt8.ofNat (height / 256 % 256)) = height := by
      rw [Nat.mod_eq_of_lt (by omega : height / 256 < 256), word_ofNat hheight]
    show (takeBytes (word _ _ * word _ _) (bits ++ rest)).map _ = _
    rw [hw, hh, ← hbits, takeBytes_append]
    rfl
  | line text =>
    have hline := takeLine_line h rest
    show parseOne (text ++ [lineFeed] ++ rest) = _
    rw [List.append_assoc, List.singleton_append]
    cases text with
    | nil =>
      rw [List.nil_append] at hline ⊢
      rw [parseOne, if_neg (by decide), if_neg (by decide), hline]
      rfl
    | cons b text =>
      have hb : inLine b := h b List.mem_cons_self
      have hesc : b ≠ esc := ne_of_inLine hb (by decide)
      have hgs : b ≠ gs := ne_of_inLine hb (by decide)
      rw [List.cons_append] at hline ⊢
      rw [parseOne, if_neg hesc, if_neg hgs, hline]
      rfl
  | _ => rfl

theorem bytes_ne_nil (command : Command) : command.bytes ≠ [] := by
  cases command <;> simp [Command.bytes, EscPos.symbol, symbolHead, EscPos.raster, rasterHead]

/-- **The language of ESC/POS commands.** -/
def grammar : Grammar UInt8 Command where
  form := Command.bytes
  Fits := Command.Fits
  parseOne := parseOne
  form_ne_nil := bytes_ne_nil
  reads _ h rest := parseOne_bytes h rest

@[simp] theorem grammar_form (c : Command) : grammar.form c = c.bytes := rfl

@[simp] theorem grammar_fits (c : Command) : grammar.Fits c ↔ c.Fits := Iff.rfl

/-- The commands of a stream: none where the grammar does not consume it exactly. -/
def parse (bytes : Bytes) : Option (List Command) := grammar.parse bytes

end EscPos

end KilnPrint
