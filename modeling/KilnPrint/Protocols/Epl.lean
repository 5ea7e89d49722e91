/-
EPL2 encoder.

* `quoted`, `encodeElement`, `encode` — **the encoder**;
* `strings` — what a printer reads in the quotes of a line;
* `strings_quoted` — quoting is undone;
* `element_line` — an element is one line, and its data reads back;
* `encode_splits` — **the stream splits into the header, a line for each element and the
  print line, and every string reads back**.

Elements take a line each, and lines end in a newline.
-/
import KilnPrint.Lib.Pieces
import KilnPrint.Protocols.Label

namespace KilnPrint

namespace Epl

/-! ### The encoder -/

/-- Resident fonts with heights in dots at 203 dpi. -/
def fonts : List (String × ℕ) := [("1", 12), ("2", 16), ("3", 20), ("4", 24), ("5", 48)]

def escapeBackslash (c : Char) : List Char := if c = '\\' then ['\\', '\\'] else [c]

def escapeQuote (c : Char) : List Char := if c = '"' then ['\\', '"'] else [c]

/-- Quoted EPL data: backslash and quote are escaped, line breaks flattened. -/
def quoted (text : List Char) : List Char :=
  ((singleLine text).flatMap escapeBackslash).flatMap escapeQuote

/-- The name of a symbology, and the width of its wide bars. -/
def kind (symbology : Symbology) (moduleWidth : UInt8) : String × UInt8 :=
  match symbology with
  | .code128 => ("1", moduleWidth)
  | .code39 => ("3", moduleWidth * 3)
  | .ean13 => ("E30", moduleWidth)
  | .ean8 => ("E80", moduleWidth)
  | .upcA => ("UA0", moduleWidth)
  | .itf => ("2", moduleWidth * 3)

def eccLetter : QrErrorCorrection → Char
  | .l => 'L'
  | .m => 'M'
  | .q => 'Q'
  | .h => 'H'

/-- What stands before the data of a text. -/
def textStart (d : Dots) (e : LabelText) : List Char :=
  let (font, mult) := match e.font with
    | some f => (f, 1)
    | none => pickFont fonts (d.atLeastOne e.heightMm) d.label.dpi 9
  'A' :: fields [dec (d.of e.xMm), dec (d.of e.yMm), dec (quarterTurns e.rotation), font.toList,
    dec mult, dec mult, ['N'], []]

def barcodeStart (d : Dots) (e : LabelBarcode) : List Char :=
  let (kind, wide) := kind e.symbology e.moduleWidth
  'B' :: fields [dec (d.of e.xMm), dec (d.of e.yMm), dec (quarterTurns e.rotation), kind.toList,
    dec e.moduleWidth.toNat, dec wide.toNat, dec (d.atLeastOne e.heightMm),
    [if e.humanReadable then 'B' else 'N'], []]

def qrStart (d : Dots) (e : LabelQr) : List Char :=
  'b' :: fields [dec (d.of e.xMm), dec (d.of e.yMm), ['Q'], 's' :: dec e.magnification.toNat,
    ['e', eccLetter e.errorCorrection], []]

/-- Coordinates are 32-bit sums. -/
def boxLine (d : Dots) (e : LabelBox) : List Char :=
  'X' :: fields [dec (d.of e.xMm), dec (d.of e.yMm), dec (d.atLeastOne e.thicknessMm),
    dec ((d.of e.xMm + d.atLeastOne e.widthMm) % 2 ^ 32),
    dec ((d.of e.yMm + d.atLeastOne e.heightMm) % 2 ^ 32)]

def quote : Bytes := Utf8.encode ['"']

def encodeElement (encodings : Whatwgs) (d : Dots) : LabelElement → Except PrintError Bytes
  | .text e => do
    let data ← encodeText encodings (quoted e.text.toList) "ibm437"
    pure (Utf8.encode (textStart d e) ++ quote ++ data ++ quote)
  | .barcode e =>
    .ok (Utf8.encode (barcodeStart d e) ++ quote ++
      Utf8.encode (quoted (barcodePayload e.symbology e.data)) ++ quote)
  | .qr e => do
    let data ← encodeText encodings (quoted e.data.toList) "ibm437"
    pure (Utf8.encode (qrStart d e) ++ quote ++ data ++ quote)
  | .dataMatrix _ => .error (unsupported "EPL" "Data Matrix")
  | .box e => .ok (Utf8.encode (boxLine d e))
  | .raw data => .ok (Utf8.encode data.toList)

/-- `speed.clamp(1, 6)`. -/
def clampSpeed (speed : UInt8) : ℕ := max 1 (min speed.toNat 6)

/-- The first line flushes any partial command. -/
def headerLines (d : Dots) : List (List Char) :=
  [[], ['N'], "I8,0,001".toList, 'q' :: dec (d.of d.label.widthMm)] ++
    (d.label.gapMm.elim [] fun gap => ['Q' :: fields [dec (d.of d.label.heightMm), dec (d.of gap)]]) ++
    (d.label.darkness.elim [] fun n => ['D' :: dec (n.toNat * 15 / 30)]) ++
    (d.label.speed.elim [] fun n => ['S' :: dec (clampSpeed n)])

def newline : Bytes := [0x0A]

/-- `epl::encode`. -/
def encode (encodings : Whatwgs) (floats : Floats) (label : LabelDocument) :
    Except PrintError Bytes := do
  let d : Dots := ⟨floats, label⟩
  let body ← label.elements.mapM (encodeElement encodings d)
  pure (((headerLines d).map Utf8.encode).flatMap (· ++ newline) ++ body.flatMap (· ++ newline) ++
    Utf8.encode "P1\n".toList)

/-! ### Reading a line -/

/-- The next character of the string that is being read. -/
def push (c : Char) : List (List Char) → List (List Char)
  | [] => [[c]]
  | s :: rest => (c :: s) :: rest

/-- The strings in the quotes of a line; `none` where a quote is open at its end.  The flag
says whether a quote is open. -/
def strings : Bool → List Char → Option (List (List Char))
  | false, [] => some []
  | true, [] => none
  | false, c :: rest => if c = '"' then strings true rest else strings false rest
  | true, c :: rest =>
    if c = '"' then (strings false rest).map ([] :: ·)
    else if c = '\\' then
      match rest with
      | [] => none
      | d :: rest => (strings true rest).map (push d)
    else (strings true rest).map (push c)

theorem strings_bare {start : List Char} (h : '"' ∉ start) (rest : List Char) :
    strings false (start ++ rest) = strings false rest := by
  induction start with
  | nil => rfl
  | cons c start ih =>
    rw [List.mem_cons, not_or] at h
    rw [List.cons_append, strings, if_neg (Ne.symm h.1), ih h.2]

theorem strings_open (rest : List Char) : strings false ('"' :: rest) = strings true rest := by
  rw [strings, if_pos rfl]

theorem strings_close (rest : List Char) :
    strings true ('"' :: rest) = (strings false rest).map ([] :: ·) := by
  rw [strings.eq_def]
  exact if_pos rfl

theorem strings_push {c : Char} (hquote : c ≠ '"') (hback : c ≠ '\\') (rest : List Char) :
    strings true (c :: rest) = (strings true rest).map (push c) := by
  rw [strings.eq_def]
  simp only [if_neg hquote, if_neg hback]

/-- **What is quoted reads back**, and the string ends at its closing quote. -/
theorem strings_quoted (text rest : List Char) :
    strings true ((text.flatMap escapeBackslash).flatMap escapeQuote ++ '"' :: rest) =
      (strings false rest).map (text :: ·) := by
  induction text with
  | nil =>
    rw [List.flatMap_nil, List.flatMap_nil, List.nil_append, strings_close]
  | cons c text ih =>
    have hpush : (strings true ((text.flatMap escapeBackslash).flatMap escapeQuote ++
        '"' :: rest)).map (push c) = (strings false rest).map ((c :: text) :: ·) := by
      rw [ih, Option.map_map]
      rfl
    rw [List.flatMap_cons, List.flatMap_append, List.append_assoc, ← hpush]
    by_cases hback : c = '\\'
    · subst hback
      rfl
    · by_cases hquote : c = '"'
      · subst hquote
        rfl
      · rw [escapeBackslash, if_neg hback, List.flatMap_singleton, escapeQuote, if_neg hquote,
          List.singleton_append, strings_push hquote hback]

/-! ### The lines of a label -/

/-- A line's quoted strings are the data of its element, in code page 437. -/
def Reads (element : LabelElement) (line : Bytes) : Prop :=
  ∃ text, CodePage.decode cp437High line = some text ∧ strings false text = some element.data

structure Line (element : LabelElement) (line : Bytes) : Prop where
  reads : Reads element line
  uncontrolled : Uncontrolled line

theorem mem_quoted {text : List Char} {c : Char} (h : c ∈ quoted text) :
    c = '\\' ∨ c ∈ singleLine text := by
  obtain ⟨c', hc', hc⟩ := List.mem_flatMap.mp h
  obtain ⟨c'', hc'', hc'⟩ := List.mem_flatMap.mp hc'
  have hmem : c = '\\' ∨ c = c' := by
    unfold escapeQuote at hc
    split_ifs at hc with hquote
    · rcases List.mem_cons.mp hc with rfl | hc
      · exact .inl rfl
      · exact .inr ((List.mem_singleton.mp hc).trans hquote.symm)
    · exact .inr (List.mem_singleton.mp hc)
  have hmem' : c' = '\\' ∨ c' = c'' := by
    unfold escapeBackslash at hc'
    split_ifs at hc'
    · exact .inl (by simpa using hc')
    · exact .inr (List.mem_singleton.mp hc')
  rcases hmem with rfl | rfl
  · exact .inl rfl
  · refine hmem'.imp_right fun heq => ?_
    rw [heq]
    exact hc''

/-- Quoting adds no control character. -/
theorem printable_quoted (text : List Char) : Printable (quoted text) := by
  intro c hc
  rcases mem_quoted hc with rfl | hc
  · rfl
  · exact printable_singleLine text c hc

/-- A line with one quoted string. -/
theorem line_of_text {element : LabelElement} {start : List Char} {data : Bytes}
    (text : List Char) (hstart : Bare start) (hdata : CodePage.decode cp437High data = some (quoted text))
    (huncontrolled : Uncontrolled data) (helement : element.data = [singleLine text]) :
    Line element (Utf8.encode start ++ quote ++ data ++ quote) where
  reads := by
    have hquote : CodePage.decode cp437High quote = some ['"'] :=
      CodePage.decode_ascii (Utf8.forall_of_all (by decide))
    refine ⟨_, CodePage.decode_append (CodePage.decode_append (CodePage.decode_append
      (CodePage.decode_ascii hstart.ascii) hquote) hdata) hquote, ?_⟩
    rw [List.append_assoc, List.append_assoc, strings_bare hstart.ne_quote, List.singleton_append,
      strings_open, helement]
    exact strings_quoted (singleLine text) []
  uncontrolled := by
    have hquote : Printable ['"'] := by decide
    simp only [uncontrolled_append]
    exact ⟨⟨⟨uncontrolled_utf8 hstart.printable, uncontrolled_utf8 hquote⟩, huncontrolled⟩,
      uncontrolled_utf8 hquote⟩

/-- What is encoded in code page 437 reads back. -/
theorem encodeText_437 {encodings : Whatwgs} {text : List Char} {data : Bytes}
    (h : encodeText encodings text "ibm437" = .ok data) (htext : Printable text) :
    CodePage.decode cp437High data = some text ∧ Uncontrolled data := by
  obtain ⟨encoder, hencoder, hdata⟩ := Except.bind_eq_ok.mp h
  rw [TextEncoder.forLabel_437] at hencoder
  obtain rfl := Except.ok.inj hencoder
  have hforall := CodePage.dos_eq_ok.mp hdata
  exact ⟨CodePage.decode_of_forall₂ length_cp437High hforall,
    CodePage.uncontrolled_of_forall₂ length_cp437High hforall htext⟩

theorem bare_textStart (d : Dots) {e : LabelText} (hfont : e.font = none) :
    Bare (textStart d e) := by
  have hname : Bare (pickFont fonts (d.atLeastOne e.heightMm) d.label.dpi 9).1.toList := by
    have hall : ∀ name ∈ fonts.map Prod.fst, Bare name.toList := by decide
    exact hall _ (pickFont_mem (by decide) _ _ _)
  simp only [textStart, hfont, bare_cons]
  refine ⟨by decide, bare_fields ?_⟩
  simp [hname]

theorem bare_barcodeStart (d : Dots) (e : LabelBarcode) : Bare (barcodeStart d e) := by
  have hkind : Bare (kind e.symbology e.moduleWidth).1.toList := by
    cases e.symbology <;> simp [kind]
  simp only [barcodeStart, bare_cons]
  refine ⟨by decide, bare_fields ?_⟩
  cases e.humanReadable <;> simp [hkind]

theorem bare_qrStart (d : Dots) (e : LabelQr) : Bare (qrStart d e) := by
  simp only [qrStart, bare_cons]
  refine ⟨by decide, bare_fields ?_⟩
  cases e.errorCorrection <;> simp [eccLetter]

theorem bare_boxLine (d : Dots) (e : LabelBox) : Bare (boxLine d e) := by
  simp only [boxLine, bare_cons]
  refine ⟨by decide, bare_fields ?_⟩
  simp

/-- **An element is one line, and its data reads back.** -/
theorem element_line {encodings : Whatwgs} {d : Dots} {element : LabelElement} {line : Bytes}
    (hvalid : element.validate = .ok ()) (hraw : element.isRaw = false)
    (hfont : element.customFont = none) (h : encodeElement encodings d element = .ok line) :
    Line element line := by
  cases element with
  | text e =>
    obtain ⟨data, hdata, h⟩ := Except.bind_eq_ok.mp h
    obtain rfl := Except.ok.inj h
    obtain ⟨hdecode, huncontrolled⟩ := encodeText_437 hdata (printable_quoted _)
    exact line_of_text _ (bare_textStart d hfont) hdecode huncontrolled rfl
  | barcode e =>
    obtain rfl := Except.ok.inj h
    obtain ⟨_, hsymbology, -⟩ := Except.bind_eq_ok.mp hvalid
    -- validated data is ASCII, in every code page
    obtain ⟨hline, hascii⟩ := barcodePayload_plain hsymbology
    refine line_of_text (barcodePayload e.symbology e.data) (bare_barcodeStart d e) ?_
      (uncontrolled_utf8 (printable_quoted _)) (by rw [hline]; rfl)
    refine CodePage.decode_ascii fun c hc => ?_
    rcases mem_quoted hc with rfl | hc
    · decide
    · rw [hline] at hc
      exact hascii c hc
  | qr e =>
    obtain ⟨data, hdata, h⟩ := Except.bind_eq_ok.mp h
    obtain rfl := Except.ok.inj h
    obtain ⟨hdecode, huncontrolled⟩ := encodeText_437 hdata (printable_quoted _)
    exact line_of_text _ (bare_qrStart d e) hdecode huncontrolled rfl
  | dataMatrix e => cases h
  | box e =>
    obtain rfl := Except.ok.inj h
    have hbare := bare_boxLine d e
    refine ⟨⟨boxLine d e, CodePage.decode_ascii hbare.ascii, ?_⟩, uncontrolled_utf8 hbare.printable⟩
    rw [← List.append_nil (boxLine d e), strings_bare hbare.ne_quote]
    rfl
  | raw data => simp [LabelElement.isRaw] at hraw

theorem uncontrolled_header (d : Dots) :
    ∀ l ∈ (headerLines d).map Utf8.encode, Uncontrolled l := by
  have hbare : ∀ l ∈ headerLines d, Bare l := by
    have hgap : ∀ gap, Bare (fields [dec (d.of d.label.heightMm), dec (d.of gap)]) := by
      intro gap
      exact bare_fields (by simp)
    unfold headerLines
    cases d.label.gapMm <;> cases d.label.darkness <;> cases d.label.speed <;> simp [hgap]
  intro l hl
  obtain ⟨text, htext, rfl⟩ := List.mem_map.mp hl
  exact uncontrolled_utf8 (hbare text htext).printable

/-- **The stream is the header, a line for each element and the print line.** -/
theorem encode_splits {encodings : Whatwgs} {floats : Floats} {label : LabelDocument}
    {bytes : Bytes} (hvalid : label.validate = .ok ())
    (hraw : ∀ e ∈ label.elements, e.isRaw = false)
    (hfont : ∀ e ∈ label.elements, e.customFont = none)
    (h : encode encodings floats label = .ok bytes) :
    SplitsInto newline ((headerLines ⟨floats, label⟩).map Utf8.encode) (Utf8.encode "P1".toList)
      (fun e line => encodeElement encodings ⟨floats, label⟩ e = .ok line ∧ Reads e line)
      label bytes := by
  obtain ⟨body, hbody, h⟩ := Except.bind_eq_ok.mp h
  obtain rfl := Except.ok.inj h
  have hfinal : Bare "P1".toList := by decide
  refine splitsInto_of_uncontrolled (by decide) (by simp [newline]) rfl (uncontrolled_header _)
    (uncontrolled_utf8 hfinal.printable) ?_
  have hplain : ∀ e ∈ label.elements,
      e.validate = .ok () ∧ e.isRaw = false ∧ e.customFont = none := fun e he =>
    ⟨LabelDocument.validate_elements hvalid e he, hraw e he, hfont e he⟩
  refine ((List.forall₂_and_left _ _).mpr ⟨hplain, mapM_eq_ok_iff.mp hbody⟩).imp ?_
  rintro e line ⟨⟨hvalid, hraw, hfont⟩, hline⟩
  obtain ⟨hreads, huncontrolled⟩ := element_line hvalid hraw hfont hline
  exact ⟨⟨hline, hreads⟩, huncontrolled⟩

end Epl

end KilnPrint
