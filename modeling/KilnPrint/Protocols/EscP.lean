/-
ESC/P commands, written and read.

* `pitch`, `lineSpacing`, `bold`, … — **the command builders**: each gives the bytes of one
  command;
* `Command`, `Command.bytes`, `Command.Fits` — the commands of the grammar, their bytes, and
  which of them have bytes of their own;
* `parseOne`, `grammar`, `parse` — **the grammar**: commands by their parameters, line ends,
  form feeds and characters, where `ESC C 0 n` is a page length in inches.

The line spacing that no standard command sets is computed in floating point, and is a
parameter.
-/
import KilnPrint.Lib.Grammar
import KilnPrint.Model.Label

namespace KilnPrint

namespace EscP

/-! ### Command builders -/

def esc : UInt8 := 0x1B

def initialise : Bytes := [esc, 0x40]

def formFeed : UInt8 := 0x0C

def crLf : Bytes := [0x0D, 0x0A]

def condensedOn : UInt8 := 0x0F

def condensedOff : UInt8 := 0x12

/-- 17 cpi is condensed pica, 20 cpi condensed elite. -/
def pitch (cpi : UInt8) : Bytes :=
  if cpi = 12 then [esc, 0x4D, condensedOff]
  else if cpi = 15 then [esc, 0x67, condensedOff]
  else if cpi = 17 then [esc, 0x50, condensedOn]
  else if cpi = 20 then [esc, 0x4D, condensedOn]
  else [esc, 0x50, condensedOff]

/-- `(lpi - n).abs() < f32::EPSILON`. -/
def near (lpi : Single) (n : ℚ) : Bool :=
  decide (((n - 1 / 2 ^ 23 : ℚ) : Single) < lpi) && decide (lpi < ((n + 1 / 2 ^ 23 : ℚ) : Single))

/-- `ESC 2` (1/6"), `ESC 0` (1/8"), otherwise `ESC 3 n`; `spacing` is `n`. -/
def lineSpacing (spacing : Single → UInt8 → UInt8) (lpi : Single) (pins : UInt8) : Bytes :=
  if near lpi 6 then [esc, 0x32]
  else if near lpi 8 then [esc, 0x30]
  else [esc, 0x33, spacing lpi pins]

def flag (on : Bool) : UInt8 := if on then 1 else 0

/-- `ESC x`: draft or near letter quality. -/
def quality (nlq : Bool) : Bytes := [esc, 0x78, flag nlq]

def formLengthLines (lines : UInt8) : Bytes := [esc, 0x43, lines]

def formLengthInches (inches : UInt8) : Bytes := [esc, 0x43, 0, inches]

def skipPerforation (lines : UInt8) : Bytes := [esc, 0x4E, lines]

def leftMargin (columns : UInt8) : Bytes := [esc, 0x6C, columns]

def rightMargin (columns : UInt8) : Bytes := [esc, 0x51, columns]

def characterTable (n : UInt8) : Bytes := [esc, 0x74, n]

def characterTableFor (canonicalEncoding : String) : Option UInt8 :=
  match canonicalEncoding with
  | "IBM437" => some 1
  | _ => none

def bold (on : Bool) : Bytes := [esc, if on then 0x45 else 0x46]

def doubleStrike (on : Bool) : Bytes := [esc, if on then 0x47 else 0x48]

def italic (on : Bool) : Bytes := [esc, if on then 0x34 else 0x35]

def underline (on : Bool) : Bytes := [esc, 0x2D, flag on]

def doubleWidth (on : Bool) : Bytes := [esc, 0x57, flag on]

/-! ### The grammar -/

inductive Command
  | initialise
  | quality (n : UInt8)
  | pica
  | elite
  | micron
  | condensed (on : Bool)
  /-- 1/6 inch. -/
  | spacingSixth
  /-- 1/8 inch. -/
  | spacingEighth
  | spacing (n : UInt8)
  | formLines (n : UInt8)
  | formInches (n : UInt8)
  | skipPerforation (n : UInt8)
  | leftMargin (n : UInt8)
  | rightMargin (n : UInt8)
  | characterTable (n : UInt8)
  | bold (on : Bool)
  | doubleStrike (on : Bool)
  | italic (on : Bool)
  | underline (n : UInt8)
  | doubleWidth (n : UInt8)
  | formFeed
  /-- Carriage return and line feed. -/
  | lineEnd
  /-- A character. -/
  | print (b : UInt8)
  deriving DecidableEq

def Command.bytes : Command → Bytes
  | initialise => [esc, 0x40]
  | quality n => [esc, 0x78, n]
  | pica => [esc, 0x50]
  | elite => [esc, 0x4D]
  | micron => [esc, 0x67]
  | condensed on => [if on then condensedOn else condensedOff]
  | spacingSixth => [esc, 0x32]
  | spacingEighth => [esc, 0x30]
  | spacing n => [esc, 0x33, n]
  | formLines n => [esc, 0x43, n]
  | formInches n => [esc, 0x43, 0, n]
  | skipPerforation n => [esc, 0x4E, n]
  | leftMargin n => [esc, 0x6C, n]
  | rightMargin n => [esc, 0x51, n]
  | characterTable n => [esc, 0x74, n]
  | bold on => [esc, if on then 0x45 else 0x46]
  | doubleStrike on => [esc, if on then 0x47 else 0x48]
  | italic on => [esc, if on then 0x34 else 0x35]
  | underline n => [esc, 0x2D, n]
  | doubleWidth n => [esc, 0x57, n]
  | formFeed => [EscP.formFeed]
  | lineEnd => crLf
  | print b => [b]

/-- A page of no lines would be read as a length in inches, and a control byte as a command. -/
def Command.Fits : Command → Prop
  | formLines n => n ≠ 0
  | print b => 0x20 ≤ b.toNat
  | _ => True

/-- A command that starts with `ESC`. -/
def parseEsc : Bytes → Option (Command × Bytes)
  | 0x40 :: rest => some (.initialise, rest)
  | 0x78 :: n :: rest => some (.quality n, rest)
  | 0x50 :: rest => some (.pica, rest)
  | 0x4D :: rest => some (.elite, rest)
  | 0x67 :: rest => some (.micron, rest)
  | 0x32 :: rest => some (.spacingSixth, rest)
  | 0x30 :: rest => some (.spacingEighth, rest)
  | 0x33 :: n :: rest => some (.spacing n, rest)
  | 0x43 :: 0 :: n :: rest => some (.formInches n, rest)
  | 0x43 :: n :: rest => if n = 0 then none else some (.formLines n, rest)
  | 0x4E :: n :: rest => some (.skipPerforation n, rest)
  | 0x6C :: n :: rest => some (.leftMargin n, rest)
  | 0x51 :: n :: rest => some (.rightMargin n, rest)
  | 0x74 :: n :: rest => some (.characterTable n, rest)
  | 0x45 :: rest => some (.bold true, rest)
  | 0x46 :: rest => some (.bold false, rest)
  | 0x47 :: rest => some (.doubleStrike true, rest)
  | 0x48 :: rest => some (.doubleStrike false, rest)
  | 0x34 :: rest => some (.italic true, rest)
  | 0x35 :: rest => some (.italic false, rest)
  | 0x2D :: n :: rest => some (.underline n, rest)
  | 0x57 :: n :: rest => some (.doubleWidth n, rest)
  | _ => none

/-- The first command of a stream, and what follows it. -/
def parseOne : Bytes → Option (Command × Bytes)
  | 0x1B :: rest => parseEsc rest
  | 0x0C :: rest => some (.formFeed, rest)
  | 0x0F :: rest => some (.condensed true, rest)
  | 0x12 :: rest => some (.condensed false, rest)
  | 0x0D :: 0x0A :: rest => some (.lineEnd, rest)
  | b :: rest => if 0x20 ≤ b.toNat then some (.print b, rest) else none
  | [] => none

/-- **A command that fits is read back, whatever follows it.** -/
theorem parseOne_bytes {command : Command} (h : command.Fits) (rest : Bytes) :
    parseOne (command.bytes ++ rest) = some (command, rest) := by
  cases command with
  | condensed on => cases on <;> rfl
  | bold on => cases on <;> rfl
  | doubleStrike on => cases on <;> rfl
  | italic on => cases on <;> rfl
  | formLines n =>
    have hn : n ≠ 0 := h
    show parseEsc (0x43 :: n :: rest) = _
    cases rest with
    | nil => simp [parseEsc, hn]
    | cons m rest => simp [parseEsc, hn]
  | print b =>
    have hb : 0x20 ≤ b.toNat := h
    have hne : ∀ c : UInt8, c.toNat < 0x20 → b ≠ c := by
      rintro c hc rfl
      omega
    show parseOne (b :: rest) = _
    simp [parseOne, hne 0x1B, hne 0x0C, hne 0x0F, hne 0x12, hne 0x0D, hb]
  | _ => rfl

theorem bytes_ne_nil (command : Command) : command.bytes ≠ [] := by
  cases command <;> simp [Command.bytes, crLf]

/-- **The language of ESC/P commands.** -/
def grammar : Grammar UInt8 Command where
  form := Command.bytes
  Fits := Command.Fits
  parseOne := parseOne
  form_ne_nil := bytes_ne_nil
  reads _ h rest := parseOne_bytes h rest

@[simp] theorem grammar_form (c : Command) : grammar.form c = c.bytes := rfl

@[simp] theorem grammar_fits (c : Command) : grammar.Fits c ↔ c.Fits := Iff.rfl

/-- The commands of a stream: none where the grammar does not consume it exactly. -/
def parse (bytes : Bytes) : Option (List Command) := grammar.parse bytes

end EscP

end KilnPrint
