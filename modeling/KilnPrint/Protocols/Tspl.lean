/-
TSPL encoder.

* `quoted`, `encodeElement`, `encode` — **the encoder**;
* `strings` — what a printer reads in the quotes of a line;
* `strings_quoted` — quoting is undone, also where the text ends like an escape;
* `element_line` — an element is one line, and its strings read back;
* `encode_splits` — the stream splits into the header, a line for each element and the
  print line;
* `quoting_exact` — **the streams of EPL and TSPL split into their lines, and every
  string reads back**.

Text is encoded in windows-1252, which comes with the library of encodings.
-/
import KilnPrint.Protocols.Epl
import Mathlib.Data.List.DropRight

namespace KilnPrint

namespace Tspl

/-! ### The encoder -/

/-- Resident bitmap fonts with heights in dots at 203 dpi. -/
def fonts : List (String × ℕ) := [("1", 12), ("2", 20), ("3", 24), ("4", 32), ("5", 48)]

def escapeQuote (c : Char) : List Char := if c = '"' then ['\\', '[', '"', ']'] else [c]

/-- TSPL string content: a double quote is written as a bracketed escape. -/
def quoted (text : List Char) : List Char := (singleLine text).flatMap escapeQuote

/-- Millimetres, without trailing zeros. -/
def mm (floats : Floats) (value : Single) : List Char :=
  ((floats.fixed value).rdropWhile (· == '0')).rdropWhile (· == '.')

/-- The name of a symbology, and the width of its wide bars. -/
def kind (symbology : Symbology) (moduleWidth : UInt8) : String × UInt8 :=
  match symbology with
  | .code128 => ("128", moduleWidth)
  | .code39 => ("39", moduleWidth * 3)
  | .ean13 => ("EAN13", moduleWidth)
  | .ean8 => ("EAN8", moduleWidth)
  | .upcA => ("UPCA", moduleWidth)
  | .itf => ("25", moduleWidth * 3)

def eccLetter : QrErrorCorrection → Char
  | .l => 'L'
  | .m => 'M'
  | .q => 'Q'
  | .h => 'H'

/-- The font of a text and its magnification. -/
def font (d : Dots) (e : LabelText) : String × ℕ :=
  match e.font with
  | some f => (f, 1)
  | none => pickFont fonts (d.atLeastOne e.heightMm) d.label.dpi 10

def position (d : Dots) (p : Position) : List Char :=
  fields [dec (d.of p.xMm), dec (d.of p.yMm), []]

def rotation (rotation : UInt16) : List Char := dec (quarterTurns rotation * 90)

/-- What stands between the font of a text and its data. -/
def textMiddle (d : Dots) (e : LabelText) : List Char :=
  fields [[], rotation e.rotation, dec (font d e).2, dec (font d e).2, []]

def barcodeMiddle (d : Dots) (e : LabelBarcode) : List Char :=
  fields [[], dec (d.atLeastOne e.heightMm), [if e.humanReadable then '1' else '0'],
    rotation e.rotation, dec e.moduleWidth.toNat, dec (kind e.symbology e.moduleWidth).2.toNat, []]

def qrStart (d : Dots) (e : LabelQr) : List Char :=
  "QRCODE ".toList ++ fields [dec (d.of e.xMm), dec (d.of e.yMm), [eccLetter e.errorCorrection],
    dec e.magnification.toNat, ['A'], ['0'], []]

/-- The symbol is placed inside a box; it is bounded by the label. -/
def matrixStart (d : Dots) (e : LabelDataMatrix) : List Char :=
  let x := d.of e.xMm
  let y := d.of e.yMm
  "DMATRIX ".toList ++ fields [dec x, dec y, dec (d.of d.label.widthMm - x),
    dec (d.of d.label.heightMm - y), 'x' :: dec e.moduleSize.toNat, []]

/-- Coordinates are 32-bit sums. -/
def boxLine (d : Dots) (e : LabelBox) : List Char :=
  "BOX ".toList ++ fields [dec (d.of e.xMm), dec (d.of e.yMm),
    dec ((d.of e.xMm + d.atLeastOne e.widthMm) % 2 ^ 32),
    dec ((d.of e.yMm + d.atLeastOne e.heightMm) % 2 ^ 32), dec (d.atLeastOne e.thicknessMm)]

def quote : List Char := ['"']

def encodeElement (encodings : Whatwgs) (d : Dots) : LabelElement → Except PrintError Bytes
  | .text e => do
    let data ← encodeText encodings (quoted e.text.toList) "windows-1252"
    pure (Utf8.encode ("TEXT ".toList ++ position d e.toPosition ++ quote ++ (font d e).1.toList ++
      quote ++ textMiddle d e ++ quote) ++ data ++ Utf8.encode quote)
  | .barcode e =>
    .ok (Utf8.encode ("BARCODE ".toList ++ position d e.toPosition ++ quote ++
      (kind e.symbology e.moduleWidth).1.toList ++ quote ++ barcodeMiddle d e ++ quote ++
      quoted (barcodePayload e.symbology e.data) ++ quote))
  | .qr e => do
    let data ← encodeText encodings (quoted e.data.toList) "windows-1252"
    pure (Utf8.encode (qrStart d e ++ quote) ++ data ++ Utf8.encode quote)
  | .dataMatrix e => do
    let data ← encodeText encodings (quoted e.data.toList) "windows-1252"
    pure (Utf8.encode (matrixStart d e ++ quote) ++ data ++ Utf8.encode quote)
  | .box e => .ok (Utf8.encode (boxLine d e))
  | .raw data => .ok (Utf8.encode data.toList)

def headerLines (d : Dots) : List (List Char) :=
  ["SIZE ".toList ++ mm d.floats d.label.widthMm ++ " mm,".toList ++
      mm d.floats d.label.heightMm ++ " mm".toList] ++
    (d.label.gapMm.elim [] fun gap => ["GAP ".toList ++ mm d.floats gap ++ " mm,0 mm".toList]) ++
    (d.label.darkness.elim [] fun n => ["DENSITY ".toList ++ dec (n.toNat * 15 / 30)]) ++
    (d.label.speed.elim [] fun n => ["SPEED ".toList ++ dec n.toNat]) ++
    ["CODEPAGE 1252".toList, "CLS".toList]

def crLf : Bytes := [0x0D, 0x0A]

/-- `tspl::encode`. -/
def encode (encodings : Whatwgs) (floats : Floats) (label : LabelDocument) :
    Except PrintError Bytes := do
  let d : Dots := ⟨floats, label⟩
  let body ← label.elements.mapM (encodeElement encodings d)
  pure (((headerLines d).map Utf8.encode).flatMap (· ++ crLf) ++ body.flatMap (· ++ crLf) ++
    (Utf8.encode "PRINT 1".toList ++ crLf))

/-! ### Reading a line -/

/-- The strings in the quotes of a line; `none` where a quote is open at its end.  The flag
says whether a quote is open. -/
def strings : Bool → List Char → Option (List (List Char))
  | false, [] => some []
  | true, [] => none
  | false, c :: rest => if c = '"' then strings true rest else strings false rest
  | true, '\\' :: '[' :: '"' :: ']' :: rest => (strings true rest).map (Epl.push '"')
  | true, c :: rest =>
    if c = '"' then (strings false rest).map ([] :: ·) else (strings true rest).map (Epl.push c)

theorem strings_bare {start : List Char} (h : '"' ∉ start) (rest : List Char) :
    strings false (start ++ rest) = strings false rest := by
  induction start with
  | nil => rfl
  | cons c start ih =>
    rw [List.mem_cons, not_or] at h
    rw [List.cons_append, strings, if_neg (Ne.symm h.1), ih h.2]

theorem strings_open (rest : List Char) : strings false ('"' :: rest) = strings true rest := by
  rw [strings, if_pos rfl]

theorem strings_close (rest : List Char) :
    strings true ('"' :: rest) = (strings false rest).map ([] :: ·) := by
  rw [strings.eq_def]
  exact if_pos rfl

theorem strings_escape (rest : List Char) :
    strings true ('\\' :: '[' :: '"' :: ']' :: rest) = (strings true rest).map (Epl.push '"') := by
  rw [strings.eq_def]
  rfl

/-- A text begins like the rest of an escape. -/
def Escapes (text : List Char) : Prop := ∃ after, text = '[' :: '"' :: ']' :: after

theorem strings_push {c : Char} {rest : List Char} (hquote : c ≠ '"')
    (hescape : c = '\\' → ¬ Escapes rest) :
    strings true (c :: rest) = (strings true rest).map (Epl.push c) := by
  rw [strings.eq_def]
  split
  · next h => cases h
  · next h => cases h
  · next h _ => cases h
  · next after _ h =>
    obtain ⟨rfl, rfl⟩ := List.cons.inj h
    exact absurd ⟨after, rfl⟩ (hescape rfl)
  · next h =>
    obtain ⟨rfl, rfl⟩ := List.cons.inj h
    rw [if_neg hquote]

/-- What follows a backslash in a quoted text is no escape, unless the text has a quote there. -/
theorem not_escapes {text rest : List Char} (hrest : rest.head? ≠ some ']') :
    ¬ Escapes (text.flatMap escapeQuote ++ '"' :: rest) := by
  rintro ⟨after, h⟩
  cases text with
  | nil => simp at h
  | cons c text =>
    by_cases hc : c = '"'
    · simp [escapeQuote, hc] at h
    · rw [List.flatMap_cons, escapeQuote, if_neg hc, List.singleton_append, List.cons_append,
        List.cons.injEq] at h
      -- the text goes on with a bracket; what follows it is an escape or the closing quote
      cases text with
      | nil =>
        rw [List.flatMap_nil, List.nil_append, List.cons.injEq] at h
        rw [h.2.2] at hrest
        exact hrest rfl
      | cons c' text =>
        by_cases hc' : c' = '"'
        · simp [escapeQuote, hc'] at h
        · rw [List.flatMap_cons, escapeQuote, if_neg hc', List.singleton_append, List.cons_append,
            List.cons.injEq] at h
          exact hc' h.2.1

/-- **What is quoted reads back**, and the string ends at its closing quote. -/
theorem strings_quoted (text rest : List Char) (hrest : rest.head? ≠ some ']') :
    strings true (text.flatMap escapeQuote ++ '"' :: rest) =
      (strings false rest).map (text :: ·) := by
  induction text with
  | nil => rw [List.flatMap_nil, List.nil_append, strings_close]
  | cons c text ih =>
    have hpush : (strings true (text.flatMap escapeQuote ++ '"' :: rest)).map (Epl.push c) =
        (strings false rest).map ((c :: text) :: ·) := by
      rw [ih, Option.map_map]
      rfl
    rw [List.flatMap_cons, List.append_assoc, ← hpush]
    by_cases hquote : c = '"'
    · subst hquote
      exact strings_escape _
    · rw [escapeQuote, if_neg hquote, List.singleton_append]
      exact strings_push hquote fun _ => not_escapes hrest

/-! ### The lines of a label -/

/-- The names in quotes before the data of an element. -/
def names (d : Dots) : LabelElement → List (List Char)
  | .text e => [(font d e).1.toList]
  | .barcode e => [(kind e.symbology e.moduleWidth).1.toList]
  | _ => []

/-- A line's quoted strings are the names and the data of its element, in windows-1252. -/
def Reads (d : Dots) (element : LabelElement) (line : Bytes) : Prop :=
  ∃ text, CodePage.decode windows1252High line = some text ∧
    strings false text = some (names d element ++ element.data)

structure Line (d : Dots) (element : LabelElement) (line : Bytes) : Prop where
  reads : Reads d element line
  uncontrolled : Uncontrolled line

theorem encodeText_1252 {encodings : Whatwgs} (hencodings : encodings "windows-1252" = some windows1252)
    {text : List Char} {data : Bytes} (h : encodeText encodings text "windows-1252" = .ok data)
    (htext : Printable text) :
    CodePage.decode windows1252High data = some text ∧ Uncontrolled data := by
  obtain ⟨encoder, hencoder, hdata⟩ := Except.bind_eq_ok.mp h
  rw [TextEncoder.forLabel_1252 hencodings] at hencoder
  obtain rfl := Except.ok.inj hencoder
  have hforall := singleByte_eq_ok.mp hdata
  exact ⟨CodePage.decode_of_forall₂ length_windows1252High hforall,
    CodePage.uncontrolled_of_forall₂ length_windows1252High hforall htext⟩

theorem mem_quoted {text : List Char} {c : Char} (h : c ∈ quoted text) :
    c ∈ ['\\', '[', ']'] ∨ c ∈ singleLine text := by
  obtain ⟨c', hc', hc⟩ := List.mem_flatMap.mp h
  unfold escapeQuote at hc
  split_ifs at hc with hquote
  · subst hquote
    simp only [List.mem_cons, List.not_mem_nil, or_false] at hc ⊢
    rcases hc with rfl | rfl | rfl | rfl
    · exact .inl (.inl rfl)
    · exact .inl (.inr (.inl rfl))
    · exact .inr hc'
    · exact .inl (.inr (.inr rfl))
  · rw [List.mem_singleton.mp hc]
    exact .inr hc'

theorem printable_quoted (text : List Char) : Printable (quoted text) := by
  intro c hc
  rcases mem_quoted hc with hc | hc
  · have hall : ∀ c ∈ ['\\', '[', ']'], isControl c = false :=
      Utf8.forall_of_all (by decide)
    exact hall c hc
  · exact printable_singleLine text c hc

/-- A name needs no quoting. -/
theorem strings_name {name : List Char} (h : Bare name) {rest : List Char}
    (hrest : rest.head? ≠ some ']') :
    strings true (name ++ '"' :: rest) = (strings false rest).map (name :: ·) := by
  have hname : name.flatMap escapeQuote = name := by
    induction name with
    | nil => rfl
    | cons c name ih =>
      obtain ⟨hc, hname⟩ := bare_cons.mp h
      rw [List.flatMap_cons, ih hname, escapeQuote, if_neg hc.2.2, List.singleton_append]
  have hquoted := strings_quoted name rest hrest
  rwa [hname] at hquoted

/-- What stands before the data of an element: a name in quotes, or none. -/
inductive Start : List (List Char) → List Char → Prop
  | plain {start : List Char} : Bare start → Start [] start
  | named {start name middle : List Char} : Bare start → Bare name → Bare middle →
      middle.head? = some ',' → Start [name] (start ++ quote ++ name ++ quote ++ middle)

theorem Start.reads {names : List (List Char)} {start : List Char} (h : Start names start)
    (rest : List Char) :
    strings false (start ++ rest) = (strings false rest).map (names ++ ·) := by
  cases h with
  | plain hstart =>
    rw [strings_bare hstart.ne_quote]
    cases strings false rest <;> rfl
  | @named start name middle hstart hname hmiddle hcomma =>
    have hhead : (middle ++ rest).head? ≠ some ']' := by
      rw [List.head?_append, hcomma]
      simp
    have hshape : start ++ quote ++ name ++ quote ++ middle ++ rest =
        start ++ ('"' :: (name ++ '"' :: (middle ++ rest))) := by simp [quote]
    rw [hshape, strings_bare hstart.ne_quote, strings_open, strings_name hname hhead,
      strings_bare hmiddle.ne_quote]
    rfl

theorem Start.ascii {names : List (List Char)} {start : List Char} (h : Start names start) :
    ∀ c ∈ start, 0x20 ≤ c.toNat ∧ c.toNat < 0x7F := by
  have hbare : ∀ {text : List Char}, Bare text → ∀ c ∈ text, 0x20 ≤ c.toNat ∧ c.toNat < 0x7F :=
    fun h c hc => ⟨(h c hc).1, (h c hc).2.1⟩
  have hquote : ∀ c ∈ quote, 0x20 ≤ c.toNat ∧ c.toNat < 0x7F :=
    Utf8.forall_of_all (by decide)
  cases h with
  | plain hstart => exact hbare hstart
  | named hstart hname hmiddle _ =>
    simp only [List.forall_mem_append]
    exact ⟨⟨⟨⟨hbare hstart, hquote⟩, hbare hname⟩, hquote⟩, hbare hmiddle⟩

/-- A line that ends in one quoted string. -/
theorem line_of_text {d : Dots} {element : LabelElement} {start : List Char} {data : Bytes}
    (text : List Char) (hstart : Start (names d element) start)
    (hdata : CodePage.decode windows1252High data = some (quoted text))
    (huncontrolled : Uncontrolled data) (helement : element.data = [singleLine text]) :
    Line d element (Utf8.encode (start ++ quote) ++ data ++ Utf8.encode quote) where
  reads := by
    have hbound : ∀ c ∈ start ++ quote, c.toNat < 128 := by
      simp only [List.forall_mem_append]
      refine ⟨fun c hc => ?_, Utf8.forall_of_all (by decide)⟩
      have := hstart.ascii c hc
      omega
    refine ⟨_, CodePage.decode_append (CodePage.decode_append (CodePage.decode_ascii hbound) hdata)
      (CodePage.decode_ascii (Utf8.forall_of_all (by decide))), ?_⟩
    rw [List.append_assoc, List.append_assoc, hstart.reads, helement]
    show (strings false ('"' :: (quoted text ++ ['"']))).map _ = _
    rw [strings_open, quoted, strings_quoted (singleLine text) [] (by simp)]
    rfl
  uncontrolled := by
    have hquote : Printable quote := by decide
    simp only [uncontrolled_append, Utf8.encode_append]
    exact ⟨⟨⟨uncontrolled_utf8 (printable_of_ascii hstart.ascii), uncontrolled_utf8 hquote⟩,
      huncontrolled⟩, uncontrolled_utf8 hquote⟩

theorem bare_position (d : Dots) (p : Position) : Bare (position d p) :=
  bare_fields (by simp)

theorem start_text (d : Dots) {e : LabelText} (hfont : e.font = none) :
    Start (names d (.text e))
      ("TEXT ".toList ++ position d e.toPosition ++ quote ++ (font d e).1.toList ++ quote ++
        textMiddle d e) := by
  have hname : Bare (font d e).1.toList := by
    have hall : ∀ name ∈ fonts.map Prod.fst, Bare name.toList := by decide
    rw [font, hfont]
    exact hall _ (pickFont_mem (by decide) _ _ _)
  have hmiddle : Bare (textMiddle d e) := bare_fields (by simp [rotation])
  refine .named ?_ hname hmiddle rfl
  simp [bare_position]

theorem start_barcode (d : Dots) (e : LabelBarcode) :
    Start (names d (.barcode e))
      ("BARCODE ".toList ++ position d e.toPosition ++ quote ++
        (kind e.symbology e.moduleWidth).1.toList ++ quote ++ barcodeMiddle d e) := by
  have hname : Bare (kind e.symbology e.moduleWidth).1.toList := by
    cases e.symbology <;> simp [kind]
  have hmiddle : Bare (barcodeMiddle d e) := by
    refine bare_fields ?_
    cases e.humanReadable <;> simp [rotation]
  refine .named ?_ hname hmiddle rfl
  simp [bare_position]

theorem bare_qrStart (d : Dots) (e : LabelQr) : Bare (qrStart d e) := by
  refine bare_append.mpr ⟨by decide, bare_fields ?_⟩
  cases e.errorCorrection <;> simp [eccLetter]

theorem bare_matrixStart (d : Dots) (e : LabelDataMatrix) : Bare (matrixStart d e) :=
  bare_append.mpr ⟨by decide, bare_fields (by simp)⟩

theorem bare_boxLine (d : Dots) (e : LabelBox) : Bare (boxLine d e) :=
  bare_append.mpr ⟨by decide, bare_fields (by simp)⟩

/-- **An element is one line, and its strings read back.** -/
theorem element_line {encodings : Whatwgs} (hencodings : encodings "windows-1252" = some windows1252)
    {d : Dots} {element : LabelElement} {line : Bytes} (hvalid : element.validate = .ok ())
    (hraw : element.isRaw = false) (hfont : element.customFont = none)
    (h : encodeElement encodings d element = .ok line) : Line d element line := by
  cases element with
  | text e =>
    obtain ⟨data, hdata, h⟩ := Except.bind_eq_ok.mp h
    obtain rfl := Except.ok.inj h
    obtain ⟨hdecode, huncontrolled⟩ := encodeText_1252 hencodings hdata (printable_quoted _)
    exact line_of_text _ (start_text d hfont) hdecode huncontrolled rfl
  | barcode e =>
    obtain rfl := Except.ok.inj h
    obtain ⟨_, hsymbology, -⟩ := Except.bind_eq_ok.mp hvalid
    obtain ⟨hline, hascii⟩ := barcodePayload_plain hsymbology
    rw [Utf8.encode_append, Utf8.encode_append]
    refine line_of_text (barcodePayload e.symbology e.data) (start_barcode d e) ?_
      (uncontrolled_utf8 (printable_quoted _)) (by rw [hline]; rfl)
    refine CodePage.decode_ascii fun c hc => ?_
    rcases mem_quoted hc with hc | hc
    · have hall : ∀ c ∈ ['\\', '[', ']'], c.toNat < 128 :=
        Utf8.forall_of_all (by decide)
      exact hall c hc
    · rw [hline] at hc
      exact hascii c hc
  | qr e =>
    obtain ⟨data, hdata, h⟩ := Except.bind_eq_ok.mp h
    obtain rfl := Except.ok.inj h
    obtain ⟨hdecode, huncontrolled⟩ := encodeText_1252 hencodings hdata (printable_quoted _)
    exact line_of_text _ (.plain (bare_qrStart d e)) hdecode huncontrolled rfl
  | dataMatrix e =>
    obtain ⟨data, hdata, h⟩ := Except.bind_eq_ok.mp h
    obtain rfl := Except.ok.inj h
    obtain ⟨hdecode, huncontrolled⟩ := encodeText_1252 hencodings hdata (printable_quoted _)
    exact line_of_text _ (.plain (bare_matrixStart d e)) hdecode huncontrolled rfl
  | box e =>
    obtain rfl := Except.ok.inj h
    have hbare := bare_boxLine d e
    refine ⟨⟨boxLine d e, CodePage.decode_ascii hbare.ascii, ?_⟩, uncontrolled_utf8 hbare.printable⟩
    rw [← List.append_nil (boxLine d e), strings_bare hbare.ne_quote]
    rfl
  | raw data => simp [LabelElement.isRaw] at hraw

theorem printable_mm (floats : Floats) (value : Single) : Printable (mm floats value) := by
  intro c hc
  have hmem : c ∈ floats.fixed value :=
    (List.rdropWhile_prefix _ _).subset ((List.rdropWhile_prefix _ _).subset hc)
  have := floats.fixed_plain value c hmem
  simp only [isControl, Bool.or_eq_false_iff, Bool.and_eq_false_iff, decide_eq_false_iff_not]
  omega

theorem uncontrolled_header (d : Dots) :
    ∀ l ∈ (headerLines d).map Utf8.encode, Uncontrolled l := by
  have hsize : Printable ("SIZE ".toList ++ mm d.floats d.label.widthMm ++ " mm,".toList ++
      mm d.floats d.label.heightMm ++ " mm".toList) := by
    simp only [printable_append]
    exact ⟨⟨⟨⟨by decide, printable_mm _ _⟩, by decide⟩, printable_mm _ _⟩, by decide⟩
  have hgap : ∀ gap, Printable ("GAP ".toList ++ mm d.floats gap ++ " mm,0 mm".toList) := by
    intro gap
    simp only [printable_append]
    exact ⟨⟨by decide, printable_mm _ _⟩, by decide⟩
  have hnumber : ∀ (name : List Char) (n : ℕ), Printable name → Printable (name ++ dec n) :=
    fun name n hname => printable_append.mpr ⟨hname, (bare_dec n).printable⟩
  have hprintable : ∀ l ∈ headerLines d, Printable l := by
    intro l hl
    simp only [headerLines, List.mem_append, List.mem_cons, List.not_mem_nil, or_false] at hl
    rcases hl with (((rfl | hl) | hl) | hl) | rfl | rfl
    · exact hsize
    · cases hlabel : d.label.gapMm with
      | none => simp [hlabel] at hl
      | some gap =>
        rw [hlabel] at hl
        rw [List.mem_singleton.mp hl]
        exact hgap gap
    · cases hlabel : d.label.darkness with
      | none => simp [hlabel] at hl
      | some n =>
        rw [hlabel] at hl
        rw [List.mem_singleton.mp hl]
        exact hnumber _ _ (by decide)
    · cases hlabel : d.label.speed with
      | none => simp [hlabel] at hl
      | some n =>
        rw [hlabel] at hl
        rw [List.mem_singleton.mp hl]
        exact hnumber _ _ (by decide)
    · decide
    · decide
  intro l hl
  obtain ⟨text, htext, rfl⟩ := List.mem_map.mp hl
  exact uncontrolled_utf8 (hprintable text htext)

/-- **The stream is the header, a line for each element and the print line.** -/
theorem encode_splits {encodings : Whatwgs} (hencodings : encodings "windows-1252" = some windows1252)
    {floats : Floats} {label : LabelDocument} {bytes : Bytes} (hvalid : label.validate = .ok ())
    (hraw : ∀ e ∈ label.elements, e.isRaw = false)
    (hfont : ∀ e ∈ label.elements, e.customFont = none)
    (h : encode encodings floats label = .ok bytes) :
    SplitsInto crLf ((headerLines ⟨floats, label⟩).map Utf8.encode) (Utf8.encode "PRINT 1".toList)
      (fun e line => encodeElement encodings ⟨floats, label⟩ e = .ok line ∧
        Reads ⟨floats, label⟩ e line) label bytes := by
  obtain ⟨body, hbody, h⟩ := Except.bind_eq_ok.mp h
  obtain rfl := Except.ok.inj h
  have hfinal : Bare "PRINT 1".toList := by decide
  refine splitsInto_of_uncontrolled (by decide) (by simp [crLf]) rfl (uncontrolled_header _)
    (uncontrolled_utf8 hfinal.printable) ?_
  have hplain : ∀ e ∈ label.elements,
      e.validate = .ok () ∧ e.isRaw = false ∧ e.customFont = none := fun e he =>
    ⟨LabelDocument.validate_elements hvalid e he, hraw e he, hfont e he⟩
  refine ((List.forall₂_and_left _ _).mpr ⟨hplain, mapM_eq_ok_iff.mp hbody⟩).imp ?_
  rintro e line ⟨⟨hvalid, hraw, hfont⟩, hline⟩
  obtain ⟨hreads, huncontrolled⟩ := element_line hencodings hvalid hraw hfont hline
  exact ⟨⟨hline, hreads⟩, huncontrolled⟩

end Tspl

/-- **Quoting is exact.**  What EPL and TSPL write of a valid label is its header, a line for
each of its elements and its print line; and the strings in the quotes of a line are the text
or the payload of its element, as a single line, after the names that TSPL quotes too. -/
theorem quoting_exact {encodings : Whatwgs} (hencodings : encodings "windows-1252" = some windows1252)
    (floats : Floats) {label : LabelDocument} (hvalid : label.validate = .ok ())
    (hraw : ∀ e ∈ label.elements, e.isRaw = false)
    (hfont : ∀ e ∈ label.elements, e.customFont = none) :
    (∀ bytes, Epl.encode encodings floats label = .ok bytes →
      SplitsInto Epl.newline ((Epl.headerLines ⟨floats, label⟩).map Utf8.encode)
        (Utf8.encode "P1".toList)
        (fun e line => Epl.encodeElement encodings ⟨floats, label⟩ e = .ok line ∧
          Epl.Reads e line) label bytes) ∧
    (∀ bytes, Tspl.encode encodings floats label = .ok bytes →
      SplitsInto Tspl.crLf ((Tspl.headerLines ⟨floats, label⟩).map Utf8.encode)
        (Utf8.encode "PRINT 1".toList)
        (fun e line => Tspl.encodeElement encodings ⟨floats, label⟩ e = .ok line ∧
          Tspl.Reads ⟨floats, label⟩ e line) label bytes) :=
  ⟨fun _ h => Epl.encode_splits hvalid hraw hfont h,
    fun _ h => Tspl.encode_splits hencodings hvalid hraw hfont h⟩

/-- A text that ends like an escape, and a barcode. -/
def quotedLabel : LabelDocument where
  widthMm := (100 : ℚ)
  heightMm := (50 : ℚ)
  elements := [.text { xMm := (5 : ℚ), yMm := (5 : ℚ), text := "12\" pipe\\[" },
    .barcode { xMm := (5 : ℚ), yMm := (20 : ℚ), symbology := .code39, data := "ABC-1" }]

theorem quoting_exact_label :
    ((Epl.encode onlyWindows1252 .exact quotedLabel).isOk ∧
      (Tspl.encode onlyWindows1252 .exact quotedLabel).isOk) ∧
    (∀ bytes, Epl.encode onlyWindows1252 .exact quotedLabel = .ok bytes →
      SplitsInto Epl.newline ((Epl.headerLines ⟨.exact, quotedLabel⟩).map Utf8.encode)
        (Utf8.encode "P1".toList)
        (fun e line => Epl.encodeElement onlyWindows1252 ⟨.exact, quotedLabel⟩ e = .ok line ∧
          Epl.Reads e line) quotedLabel bytes) ∧
    (∀ bytes, Tspl.encode onlyWindows1252 .exact quotedLabel = .ok bytes →
      SplitsInto Tspl.crLf ((Tspl.headerLines ⟨.exact, quotedLabel⟩).map Utf8.encode)
        (Utf8.encode "PRINT 1".toList)
        (fun e line => Tspl.encodeElement onlyWindows1252 ⟨.exact, quotedLabel⟩ e = .ok line ∧
          Tspl.Reads ⟨.exact, quotedLabel⟩ e line) quotedLabel bytes) :=
  ⟨by decide +kernel, quoting_exact rfl .exact (by decide +kernel) (by decide) (by decide)⟩

end KilnPrint
