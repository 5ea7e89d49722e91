/-
CPCL encoder.

* `encodeElement`, `encode` — **the encoder**;
* `readText` — what a printer reads in a text's line, field by field;
* `Prescribed` — the lines an element is meant to be;
* `readsText_iff` — a text's line reads back exactly where its font is resident;
* `lines_encode` — the stream splits into its lines;
* `encode_prescribed` — **the lines of a label are the prescribed ones if and only if no
  text is in a font of the client's choice**.

Fields are separated by blanks and lines end in CRLF.  A font id of the client's takes the
place of a font and a size.
-/
import KilnPrint.Protocols.Epl

namespace KilnPrint

namespace Cpcl

/-! ### The encoder -/

/-- Font 7, size 0 is a 24-dot font at 203 dpi; larger text uses `SETMAG`. -/
def baseFontDots : ℕ := 24

def textCommand (rotation : UInt16) : List Char :=
  ((["TEXT", "TEXT90", "TEXT180", "TEXT270"][quarterTurns rotation]?).getD "TEXT").toList

/-- The font of a text and its magnification. -/
def font (d : Dots) (e : LabelText) : List Char × ℕ :=
  match e.font with
  | some f => (f.toList, 1)
  | none =>
    let base := max (baseFontDots * d.label.dpi / 203) 1
    ("7 0".toList, max 1 (min ((d.atLeastOne e.heightMm + base / 2) / base) 16))

/-- Values separated by blanks. -/
def words (values : List (List Char)) : List Char := [' '].intercalate values

def textStart (d : Dots) (e : LabelText) : List Char :=
  words [textCommand e.rotation, (font d e).1, dec (d.of e.xMm), dec (d.of e.yMm), []]

/-- A line between the commands that magnify it, where it is magnified. -/
def magnified {α : Type} (form : List Char → α) (mag : ℕ) (line : α) : List α :=
  if 1 < mag then
    [form (words ["SETMAG".toList, dec mag, dec mag]), line, form "SETMAG 0 0".toList]
  else [line]

def barcodeCommand (rotation : UInt16) : Except PrintError (List Char) :=
  match quarterTurns rotation with
  | 0 => .ok "BARCODE".toList
  | 1 => .ok "VBARCODE".toList
  | _ => .error (unsupported "CPCL" "barcode rotation of 180/270 degrees")

def kind : Symbology → String
  | .code128 => "128"
  | .code39 => "39"
  | .ean13 => "EAN13"
  | .ean8 => "EAN8"
  | .upcA => "UPCA"
  | .itf => "I2OF5"

/-- The lines of a barcode. -/
def barcodeLines (d : Dots) (e : LabelBarcode) (command : List Char) : List (List Char) :=
  (if e.humanReadable then ["BARCODE-TEXT 7 0 5".toList] else []) ++
    [words [command, (kind e.symbology).toList, dec e.moduleWidth.toNat, ['1'],
      dec (d.atLeastOne e.heightMm), dec (d.of e.xMm), dec (d.of e.yMm),
      singleLine (barcodePayload e.symbology e.data)]] ++
    if e.humanReadable then ["BARCODE-TEXT OFF".toList] else []

def qrCommand (d : Dots) (e : LabelQr) : List Char :=
  words ["BARCODE".toList, "QR".toList, dec (d.of e.xMm), dec (d.of e.yMm), ['M'], ['2'], ['U'],
    dec e.magnification.toNat]

/-- What stands before the data of a symbol. -/
def qrStart (e : LabelQr) : List Char := [Epl.eccLetter e.errorCorrection, 'A', ',']

/-- Coordinates are 32-bit sums. -/
def boxLine (d : Dots) (e : LabelBox) : List Char :=
  words ["BOX".toList, dec (d.of e.xMm), dec (d.of e.yMm),
    dec ((d.of e.xMm + d.atLeastOne e.widthMm) % 2 ^ 32),
    dec ((d.of e.yMm + d.atLeastOne e.heightMm) % 2 ^ 32), dec (d.atLeastOne e.thicknessMm)]

def encodeElement (encodings : Whatwgs) (d : Dots) : LabelElement → Except PrintError (List Bytes)
  | .text e => do
    let data ← encodeText encodings (singleLine e.text.toList) "ibm437"
    pure (magnified Utf8.encode (font d e).2 (Utf8.encode (textStart d e) ++ data))
  | .barcode e => do
    let command ← barcodeCommand e.rotation
    pure ((barcodeLines d e command).map Utf8.encode)
  | .qr e => do
    let data ← encodeText encodings (singleLine e.data.toList) "ibm437"
    pure [Utf8.encode (qrCommand d e), Utf8.encode (qrStart e) ++ data, Utf8.encode "ENDQR".toList]
  | .dataMatrix _ => .error (unsupported "CPCL" "Data Matrix")
  | .box e => .ok [Utf8.encode (boxLine d e)]
  | .raw data => .ok [Utf8.encode data.toList]

def headerLines (d : Dots) : List (List Char) :=
  [words [['!'], ['0'], dec d.label.dpi, dec d.label.dpi, dec (d.of d.label.heightMm), ['1']],
    words ["PAGE-WIDTH".toList, dec (d.of d.label.widthMm)]] ++
    (d.label.speed.elim [] fun n => [words ["SPEED".toList, dec (min n.toNat 5)]]) ++
    (d.label.darkness.elim [] fun n => [words ["CONTRAST".toList, dec (n.toNat * 3 / 30)]])

def finalLines : List (List Char) := ["FORM".toList, "PRINT".toList]

def crLf : Bytes := [0x0D, 0x0A]

/-- `cpcl::encode`. -/
def encode (encodings : Whatwgs) (floats : Floats) (label : LabelDocument) :
    Except PrintError Bytes := do
  let d : Dots := ⟨floats, label⟩
  let body ← label.elements.mapM (encodeElement encodings d)
  pure (((headerLines d).map Utf8.encode ++ body.flatten ++ finalLines.map Utf8.encode).flatMap
    (· ++ crLf))

/-! ### The lines of a label -/

/-- The first word of a line and what follows its blank. -/
def cutWord (line : List Char) : Option (List Char × List Char) :=
  match line.dropWhile (· != ' ') with
  | [] => none
  | _ :: rest => some (line.takeWhile (· != ' '), rest)

/-- The fields of a text's line. -/
structure TextFields where
  command : List Char
  font : List Char
  size : List Char
  x : List Char
  y : List Char
  text : List Char
  deriving DecidableEq

/-- What a printer reads in a text's line. -/
def readText (line : List Char) : Option TextFields := do
  let (command, line) ← cutWord line
  let (font, line) ← cutWord line
  let (size, line) ← cutWord line
  let (x, line) ← cutWord line
  let (y, text) ← cutWord line
  pure ⟨command, font, size, x, y, text⟩

/-- A line reads back as the command of the rotation, a font, a size, the position in dots and
the text as a single line. -/
def ReadsText (d : Dots) (e : LabelText) (line : List Char) : Prop :=
  ∃ font size, readText line = some ⟨textCommand e.rotation, font, size, dec (d.of e.xMm),
    dec (d.of e.yMm), singleLine e.text.toList⟩

/-- The lines that an element is meant to be. -/
def PrescribedText (d : Dots) : LabelElement → List (List Char) → Prop
  | .text e, lines => ∃ line, ReadsText d e line ∧ lines = magnified id (font d e).2 line
  | .barcode e, lines => ∃ command, barcodeCommand e.rotation = .ok command ∧
      lines = barcodeLines d e command
  | .qr e, lines => lines = [qrCommand d e, qrStart e ++ singleLine e.data.toList, "ENDQR".toList]
  | .box e, lines => lines = [boxLine d e]
  | .dataMatrix _, _ | .raw _, _ => False

/-- The same of lines in code page 437. -/
def Prescribed (d : Dots) (element : LabelElement) (lines : List Bytes) : Prop :=
  ∃ texts, List.Forall₂ (fun line text => CodePage.decode cp437High line = some text) lines texts ∧
    PrescribedText d element texts

/-- The lines of the stream are the header's, the prescribed lines of each element, and the two
final ones. -/
def PrescribedLines (floats : Floats) (label : LabelDocument) (bytes : Bytes) : Prop :=
  ∃ body, Pieces.lines crLf bytes = ((headerLines ⟨floats, label⟩).map Utf8.encode ++
      body.flatten ++ finalLines.map Utf8.encode, []) ∧
    List.Forall₂ (Prescribed ⟨floats, label⟩) label.elements body

/-! ### Reading a text's line -/

theorem cutWord_append {word : List Char} (h : ' ' ∉ word) (rest : List Char) :
    cutWord (word ++ ' ' :: rest) = some (word, rest) := by
  have hall : ∀ c ∈ word, (c != ' ') = true := by
    intro c hc
    rw [bne_iff_ne]
    rintro rfl
    exact h hc
  unfold cutWord
  rw [List.dropWhile_append_of_pos hall, List.takeWhile_append_of_pos hall]
  simp

/-- What follows a word is shorter than the line. -/
theorem length_of_cutWord {line word rest : List Char} (h : cutWord line = some (word, rest)) :
    rest.length < line.length := by
  unfold cutWord at h
  split at h
  · cases h
  · next c after hdrop =>
    obtain ⟨-, rfl⟩ := Prod.mk.inj (Option.some.inj h)
    have hsuffix := (List.dropWhile_suffix (p := (· != ' ')) (l := line)).length_le
    rw [hdrop, List.length_cons] at hsuffix
    exact hsuffix

theorem readText_words {command font size x y : List Char} (text : List Char)
    (h : ∀ v ∈ [command, font, size, x, y], ' ' ∉ v) :
    readText (words [command, font, size, x, y, text]) =
      some ⟨command, font, size, x, y, text⟩ := by
  simp only [List.forall_mem_cons, List.not_mem_nil, false_implies, implies_true, and_true] at h
  obtain ⟨hcommand, hfont, hsize, hx, hy⟩ := h
  have hline : words [command, font, size, x, y, text] =
      command ++ ' ' :: (font ++ ' ' :: (size ++ ' ' :: (x ++ ' ' :: (y ++ ' ' :: text)))) := by
    simp [words]
  rw [hline, readText, cutWord_append hcommand]
  simp only [Option.bind_eq_bind, Option.bind_some, cutWord_append hfont, cutWord_append hsize,
    cutWord_append hx, cutWord_append hy]
  rfl

/-- With a word too few before the text, the text does not read back. -/
theorem readText_short {command font x y text : List Char} {fields : TextFields}
    (h : ∀ v ∈ [command, font, x, y], ' ' ∉ v)
    (hread : readText (words [command, font, x, y, text]) = some fields) : fields.text ≠ text := by
  simp only [List.forall_mem_cons, List.not_mem_nil, false_implies, implies_true, and_true] at h
  obtain ⟨hcommand, hfont, hx, hy⟩ := h
  have hline : words [command, font, x, y, text] =
      command ++ ' ' :: (font ++ ' ' :: (x ++ ' ' :: (y ++ ' ' :: text))) := by
    simp [words]
  rw [hline, readText, cutWord_append hcommand] at hread
  simp only [Option.bind_eq_bind, Option.bind_some, cutWord_append hfont, cutWord_append hx,
    cutWord_append hy] at hread
  obtain ⟨⟨word, rest⟩, hcut, hfields⟩ := Option.bind_eq_some_iff.mp hread
  obtain rfl := Option.some.inj hfields
  intro heq
  have hlength := length_of_cutWord hcut
  rw [show rest = text from heq] at hlength
  exact lt_irrefl _ hlength

theorem dec_no_blank (n : ℕ) : ' ' ∉ dec n := fun h => absurd (dec_bounds h).1 (by decide)

theorem textCommand_no_blank (rotation : UInt16) : ' ' ∉ textCommand rotation := by
  have hlt : quarterTurns rotation < 4 := Nat.mod_lt _ (by omega)
  unfold textCommand
  generalize quarterTurns rotation = n at hlt
  have hall : ∀ k < 4, ' ' ∉ ((["TEXT", "TEXT90", "TEXT180", "TEXT270"][k]?).getD "TEXT").toList := by
    decide
  exact hall n hlt

theorem font_no_blank {e : LabelText} (hvalid : (LabelElement.text e).validate = .ok ())
    {f : String} (hfont : e.font = some f) : ∀ c ∈ f.toList, 0x20 < c.toNat ∧ c.toNat < 0x7F := by
  obtain ⟨_, -, hvalid⟩ := Except.bind_eq_ok.mp hvalid
  obtain ⟨_, -, hvalid⟩ := Except.bind_eq_ok.mp hvalid
  obtain ⟨_, -, hvalid⟩ := Except.bind_eq_ok.mp hvalid
  have hchecked := check_eq_ok.mp hvalid
  rw [hfont, Option.all_some] at hchecked
  simp only [Bool.and_eq_true, List.all_eq_true] at hchecked
  intro c hc
  have hgraphic := hchecked.2 c hc
  simp only [isAsciiGraphic, Bool.and_eq_true, decide_eq_true_eq] at hgraphic
  omega

/-- A text's line, as the encoder writes it. -/
theorem textStart_append (d : Dots) (e : LabelText) (text : List Char) :
    textStart d e ++ text =
      words [textCommand e.rotation, (font d e).1, dec (d.of e.xMm), dec (d.of e.yMm), text] := by
  simp [textStart, words]

/-- **A text's line reads back exactly where the font is resident.** -/
theorem readsText_iff (d : Dots) {e : LabelText}
    (hvalid : (LabelElement.text e).validate = .ok ()) :
    ReadsText d e (textStart d e ++ singleLine e.text.toList) ↔ e.font = none := by
  rw [textStart_append]
  constructor
  · rintro ⟨resident, size, hread⟩
    cases hfont : e.font with
    | none => rfl
    | some f =>
      have hname : (font d e).1 = f.toList := by rw [font, hfont]
      rw [hname] at hread
      refine (readText_short ?_ hread rfl).elim
      simp only [List.forall_mem_cons, List.not_mem_nil, false_implies, implies_true, and_true]
      refine ⟨textCommand_no_blank _, fun hmem => ?_, dec_no_blank _, dec_no_blank _⟩
      exact absurd (font_no_blank hvalid hfont ' ' hmem).1 (by decide)
  · intro hfont
    have hname : (font d e).1 = ['7', ' ', '0'] := by
      rw [font, hfont]
      rfl
    refine ⟨['7'], ['0'], ?_⟩
    have hline : ∀ text, words [textCommand e.rotation, (font d e).1, dec (d.of e.xMm),
        dec (d.of e.yMm), text] = words [textCommand e.rotation, ['7'], ['0'], dec (d.of e.xMm),
          dec (d.of e.yMm), text] := by
      intro text
      rw [hname]
      simp [words]
    rw [hline]
    refine readText_words _ ?_
    simp only [List.forall_mem_cons, List.not_mem_nil, false_implies, implies_true, and_true]
    exact ⟨textCommand_no_blank _, by decide, by decide, dec_no_blank _, dec_no_blank _⟩

/-! ### Characters of a line -/

/-- A text of printable ASCII. -/
def Ascii (text : List Char) : Prop := ∀ c ∈ text, 0x20 ≤ c.toNat ∧ c.toNat < 0x7F

instance (text : List Char) : Decidable (Ascii text) :=
  decidable_of_iff (text.all fun c => decide (0x20 ≤ c.toNat ∧ c.toNat < 0x7F)) (by simp [Ascii])

@[simp] theorem ascii_nil : Ascii [] := fun _ h => absurd h List.not_mem_nil

@[simp] theorem ascii_cons {c : Char} {text : List Char} :
    Ascii (c :: text) ↔ (0x20 ≤ c.toNat ∧ c.toNat < 0x7F) ∧ Ascii text := List.forall_mem_cons

@[simp] theorem ascii_append {a b : List Char} : Ascii (a ++ b) ↔ Ascii a ∧ Ascii b :=
  List.forall_mem_append

@[simp] theorem ascii_dec (n : ℕ) : Ascii (dec n) := fun c hc =>
  ⟨(bare_dec n c hc).1, (bare_dec n c hc).2.1⟩

theorem ascii_words {values : List (List Char)} (h : ∀ v ∈ values, Ascii v) :
    Ascii (words values) := by
  induction values with
  | nil => exact ascii_nil
  | cons v rest ih =>
    have hrest := ih fun w hw => h w (List.mem_cons_of_mem _ hw)
    have hv := h v List.mem_cons_self
    cases rest with
    | nil => simpa [words] using hv
    | cons w rest =>
      rw [words, List.intercalate_cons_cons]
      simp only [ascii_append, ascii_cons, ascii_nil, and_true]
      exact ⟨⟨hv, by decide⟩, hrest⟩

theorem Ascii.printable {text : List Char} (h : Ascii text) : Printable text := printable_of_ascii h

/-- A line of the stream stands for a text, and has no control bytes. -/
structure Stands (line : Bytes) (text : List Char) : Prop where
  decode : CodePage.decode cp437High line = some text
  uncontrolled : Uncontrolled line

theorem stands_ascii {text : List Char} (h : Ascii text) : Stands (Utf8.encode text) text where
  decode := CodePage.decode_ascii fun c hc => by
    have := h c hc
    omega
  uncontrolled := uncontrolled_utf8 h.printable

theorem Stands.append {a b : Bytes} {s t : List Char} (ha : Stands a s) (hb : Stands b t) :
    Stands (a ++ b) (s ++ t) where
  decode := CodePage.decode_append ha.decode hb.decode
  uncontrolled := uncontrolled_append.mpr ⟨ha.uncontrolled, hb.uncontrolled⟩

theorem stands_all {texts : List (List Char)} (h : ∀ t ∈ texts, Ascii t) :
    List.Forall₂ Stands (texts.map Utf8.encode) texts := by
  rw [List.forall₂_map_left_iff]
  exact List.forall₂_same.mpr fun t ht => stands_ascii (h t ht)

/-- A line stands for one text only. -/
theorem decoded_unique {lines : List Bytes} {texts texts' : List (List Char)}
    (h : List.Forall₂ (fun line text => CodePage.decode cp437High line = some text) lines texts)
    (h' : List.Forall₂ (fun line text => CodePage.decode cp437High line = some text) lines texts') :
    texts = texts' := by
  induction h generalizing texts' with
  | nil => exact (List.forall₂_nil_left_iff.mp h').symm
  | cons hline _ ih =>
    obtain ⟨text', rest', hline', hrest', rfl⟩ := List.forall₂_cons_left_iff.mp h'
    rw [ih hrest', Option.some.inj (hline.symm.trans hline')]

theorem stands_magnified {line : Bytes} {text : List Char} (mag : ℕ) (h : Stands line text) :
    List.Forall₂ Stands (magnified Utf8.encode mag line) (magnified id mag text) := by
  have hset : Ascii (words ["SETMAG".toList, dec mag, dec mag]) := ascii_words (by simp)
  have hreset : Ascii "SETMAG 0 0".toList := by decide
  unfold magnified
  split_ifs
  · exact .cons (stands_ascii hset) (.cons h (.cons (stands_ascii hreset) .nil))
  · exact .cons h .nil

/-! ### The lines of an element -/

/-- The texts of the lines that the encoder writes. -/
def written (d : Dots) : LabelElement → List (List Char)
  | .text e => magnified id (font d e).2 (textStart d e ++ singleLine e.text.toList)
  | .barcode e => barcodeLines d e (if quarterTurns e.rotation = 0 then "BARCODE".toList
      else "VBARCODE".toList)
  | .qr e => [qrCommand d e, qrStart e ++ singleLine e.data.toList, "ENDQR".toList]
  | .box e => [boxLine d e]
  | .dataMatrix _ => []
  | .raw data => [data.toList]

theorem barcodeCommand_eq {rotation : UInt16} {command : List Char}
    (h : barcodeCommand rotation = .ok command) :
    command = if quarterTurns rotation = 0 then "BARCODE".toList else "VBARCODE".toList := by
  unfold barcodeCommand at h
  split at h
  · next hturns => rw [hturns, if_pos rfl, Except.ok.inj h]
  · next hturns => rw [hturns, if_neg (by decide), Except.ok.inj h]
  · cases h

theorem ascii_textStart (d : Dots) {e : LabelText}
    (hvalid : (LabelElement.text e).validate = .ok ()) : Ascii (textStart d e) := by
  have hcommand : Ascii (textCommand e.rotation) := by
    have hlt : quarterTurns e.rotation < 4 := Nat.mod_lt _ (by omega)
    unfold textCommand
    generalize quarterTurns e.rotation = n at hlt
    have hall : ∀ k < 4,
        Ascii ((["TEXT", "TEXT90", "TEXT180", "TEXT270"][k]?).getD "TEXT").toList := by decide
    exact hall n hlt
  have hname : Ascii (font d e).1 := by
    cases hfont : e.font with
    | none =>
      have hresident : Ascii "7 0".toList := by decide
      rw [font, hfont]
      exact hresident
    | some f =>
      rw [font, hfont]
      intro c hc
      have := font_no_blank hvalid hfont c hc
      omega
  exact ascii_words (by simp [hcommand, hname])

theorem ascii_barcodeLines (d : Dots) {e : LabelBarcode}
    (hvalid : (LabelElement.barcode e).validate = .ok ()) {command : List Char}
    (hcommand : Ascii command) : ∀ line ∈ barcodeLines d e command, Ascii line := by
  obtain ⟨_, hsymbology, -⟩ := Except.bind_eq_ok.mp hvalid
  have hkind : Ascii (kind e.symbology).toList := by
    cases e.symbology <;> decide
  have hdata : Ascii (singleLine (barcodePayload e.symbology e.data)) := by
    rw [(barcodePayload_plain hsymbology).1]
    intro c hc
    have := Symbology.ascii_of_validate hsymbology c (barcodePayload_subset _ _ c hc)
    omega
  have hline : Ascii (words [command, (kind e.symbology).toList, dec e.moduleWidth.toNat, ['1'],
      dec (d.atLeastOne e.heightMm), dec (d.of e.xMm), dec (d.of e.yMm),
      singleLine (barcodePayload e.symbology e.data)]) :=
    ascii_words (by simp [hcommand, hkind, hdata])
  have hlabel : Ascii "BARCODE-TEXT 7 0 5".toList ∧ Ascii "BARCODE-TEXT OFF".toList := by decide
  intro line h
  unfold barcodeLines at h
  split_ifs at h
  · simp only [List.cons_append, List.nil_append, List.mem_cons, List.not_mem_nil, or_false] at h
    rcases h with rfl | rfl | rfl
    · exact hlabel.1
    · exact hline
    · exact hlabel.2
  · simp only [List.nil_append, List.append_nil, List.mem_singleton] at h
    exact h ▸ hline

/-- **The lines of an element stand for what is written.** -/
theorem element_written {encodings : Whatwgs} {d : Dots} {element : LabelElement}
    {lines : List Bytes} (hvalid : element.validate = .ok ()) (hraw : element.isRaw = false)
    (h : encodeElement encodings d element = .ok lines) :
    List.Forall₂ Stands lines (written d element) := by
  cases element with
  | text e =>
    obtain ⟨data, hdata, h⟩ := Except.bind_eq_ok.mp h
    obtain rfl := Except.ok.inj h
    obtain ⟨hdecode, huncontrolled⟩ := Epl.encodeText_437 hdata (printable_singleLine _)
    exact stands_magnified _ ((stands_ascii (ascii_textStart d hvalid)).append ⟨hdecode, huncontrolled⟩)
  | barcode e =>
    obtain ⟨command, hcommand, h⟩ := Except.bind_eq_ok.mp h
    obtain rfl := Except.ok.inj h
    obtain rfl := barcodeCommand_eq hcommand
    refine stands_all (ascii_barcodeLines d hvalid ?_)
    split_ifs <;> decide
  | qr e =>
    obtain ⟨data, hdata, h⟩ := Except.bind_eq_ok.mp h
    obtain rfl := Except.ok.inj h
    obtain ⟨hdecode, huncontrolled⟩ := Epl.encodeText_437 hdata (printable_singleLine _)
    have hcommand : Ascii (qrCommand d e) := ascii_words (by simp)
    have hstart : Ascii (qrStart e) := by
      cases h : e.errorCorrection <;> simp [qrStart, h, Epl.eccLetter]
    have hend : Ascii "ENDQR".toList := by decide
    exact .cons (stands_ascii hcommand) (.cons ((stands_ascii hstart).append ⟨hdecode, huncontrolled⟩)
      (.cons (stands_ascii hend) .nil))
  | dataMatrix e => cases h
  | box e =>
    obtain rfl := Except.ok.inj h
    exact stands_all (List.forall_mem_singleton.mpr (ascii_words (by simp)))
  | raw data => simp [LabelElement.isRaw] at hraw

/-- The magnification of a line can be undone. -/
theorem magnified_injective {mag : ℕ} {line line' : List Char}
    (h : magnified id mag line = magnified id mag line') : line = line' := by
  unfold magnified at h
  split_ifs at h
  · exact (List.cons.inj (List.cons.inj h).2).1
  · exact (List.cons.inj h).1

/-- **An element is written as prescribed exactly where its font is resident.** -/
theorem prescribedText_iff {encodings : Whatwgs} {d : Dots} {element : LabelElement}
    {lines : List Bytes} (hvalid : element.validate = .ok ()) (hraw : element.isRaw = false)
    (h : encodeElement encodings d element = .ok lines) :
    PrescribedText d element (written d element) ↔ element.customFont = none := by
  cases element with
  | text e =>
    refine Iff.trans ?_ (readsText_iff d hvalid)
    constructor
    · rintro ⟨line, hreads, hlines⟩
      rwa [magnified_injective hlines]
    · exact fun hreads => ⟨_, hreads, rfl⟩
  | barcode e =>
    obtain ⟨command, hcommand, -⟩ := Except.bind_eq_ok.mp h
    exact ⟨fun _ => rfl, fun _ => ⟨command, hcommand, by rw [barcodeCommand_eq hcommand]; rfl⟩⟩
  | qr e => exact ⟨fun _ => rfl, fun _ => rfl⟩
  | dataMatrix e => cases h
  | box e => exact ⟨fun _ => rfl, fun _ => rfl⟩
  | raw data => simp [LabelElement.isRaw] at hraw

theorem prescribed_iff {encodings : Whatwgs} {d : Dots} {element : LabelElement}
    {lines : List Bytes} (hvalid : element.validate = .ok ()) (hraw : element.isRaw = false)
    (h : encodeElement encodings d element = .ok lines) :
    Prescribed d element lines ↔ element.customFont = none := by
  have hstands := (element_written hvalid hraw h).imp fun _ _ h => h.decode
  rw [← prescribedText_iff hvalid hraw h]
  constructor
  · rintro ⟨texts, htexts, hprescribed⟩
    have heq : texts = written d element :=
      decoded_unique htexts hstands
    rwa [← heq]
  · exact fun hprescribed => ⟨_, hstands, hprescribed⟩

/-! ### The lines of a label -/

theorem uncontrolled_header (d : Dots) :
    ∀ line ∈ (headerLines d).map Utf8.encode, Uncontrolled line := by
  have hpage : Ascii (words [['!'], ['0'], dec d.label.dpi, dec d.label.dpi,
      dec (d.of d.label.heightMm), ['1']]) := ascii_words (by simp)
  have hnumber : ∀ (name : List Char) (n : ℕ), Ascii name → Ascii (words [name, dec n]) :=
    fun name n hname => ascii_words (by simp [hname])
  have hascii : ∀ line ∈ headerLines d, Ascii line := by
    have hwidth := hnumber "PAGE-WIDTH".toList (d.of d.label.widthMm) (by decide)
    have hspeed := fun n => hnumber "SPEED".toList n (by decide)
    have hcontrast := fun n => hnumber "CONTRAST".toList n (by decide)
    unfold headerLines
    cases d.label.speed <;> cases d.label.darkness <;>
      simp only [Option.elim_none, Option.elim_some, List.append_nil, List.cons_append,
        List.nil_append, List.forall_mem_cons, List.not_mem_nil, false_implies, implies_true,
        and_true, hpage, hwidth, hspeed, hcontrast]
  intro line hline
  obtain ⟨text, htext, rfl⟩ := List.mem_map.mp hline
  exact uncontrolled_utf8 (hascii text htext).printable

/-- **The stream splits into the lines of the header, of the elements and of the end.** -/
theorem lines_encode {encodings : Whatwgs} {floats : Floats} {label : LabelDocument}
    {bytes : Bytes} (hvalid : label.validate = .ok ())
    (hraw : ∀ e ∈ label.elements, e.isRaw = false)
    (h : encode encodings floats label = .ok bytes) :
    ∃ body, List.Forall₂ (fun e lines => encodeElement encodings ⟨floats, label⟩ e = .ok lines)
        label.elements body ∧
      Pieces.lines crLf bytes = ((headerLines ⟨floats, label⟩).map Utf8.encode ++ body.flatten ++
        finalLines.map Utf8.encode, []) := by
  obtain ⟨body, hbody, h⟩ := Except.bind_eq_ok.mp h
  obtain rfl := Except.ok.inj h
  have hforall := mapM_eq_ok_iff.mp hbody
  refine ⟨body, hforall, Pieces.lines_join (by decide) _ ?_⟩
  have helement : ∀ lines ∈ body, ∀ line ∈ lines, Uncontrolled line := by
    have hplain : ∀ e ∈ label.elements, e.validate = .ok () ∧ e.isRaw = false := fun e he =>
      ⟨LabelDocument.validate_elements hvalid e he, hraw e he⟩
    refine forall_of_forall₂ ((List.forall₂_and_left _ _).mpr ⟨hplain, hforall⟩) ?_
    rintro e lines ⟨⟨hvalid, hraw⟩, hlines⟩
    exact forall_of_forall₂ (element_written hvalid hraw hlines).flip fun _ _ h => h.uncontrolled
  have hfinal : ∀ line ∈ finalLines.map Utf8.encode, Uncontrolled line := by
    have hascii : ∀ line ∈ finalLines, Ascii line := Utf8.forall_of_all (by decide)
    intro line hline
    obtain ⟨text, htext, rfl⟩ := List.mem_map.mp hline
    exact uncontrolled_utf8 (hascii text htext).printable
  have hall : ∀ line ∈ (headerLines ⟨floats, label⟩).map Utf8.encode ++ body.flatten ++
      finalLines.map Utf8.encode, Uncontrolled line := by
    simp only [List.forall_mem_append]
    refine ⟨⟨uncontrolled_header _, ?_⟩, hfinal⟩
    intro line hline
    obtain ⟨lines, hlines, hline⟩ := List.mem_flatten.mp hline
    exact helement lines hlines line hline
  have hcontrol : ∀ b ∈ crLf, b.toNat < 0x20 := Utf8.forall_of_all (by decide)
  intro line hline b hb hmem
  have := hall line hline b hb
  have := hcontrol b hmem
  omega

/-- Prescribed lines are as many as those that are written. -/
theorem length_of_prescribed {encodings : Whatwgs} {d : Dots} {element : LabelElement}
    {lines lines' : List Bytes} (hvalid : element.validate = .ok ())
    (hraw : element.isRaw = false) (h : encodeElement encodings d element = .ok lines)
    (hprescribed : Prescribed d element lines') : lines'.length = lines.length := by
  obtain ⟨texts, htexts, hprescribed⟩ := hprescribed
  have hwritten := (element_written hvalid hraw h).length_eq
  rw [htexts.length_eq, hwritten]
  cases element with
  | text e =>
    obtain ⟨line, -, rfl⟩ := hprescribed
    simp only [written, magnified]
    split_ifs <;> rfl
  | barcode e =>
    obtain ⟨command, hcommand, rfl⟩ := hprescribed
    rw [barcodeCommand_eq hcommand]
    rfl
  | qr e | box e =>
    obtain rfl := hprescribed
    rfl
  | dataMatrix e | raw data => cases hprescribed

/-- The lines are prescribed exactly where the fonts are resident. -/
theorem prescribedLines_iff {encodings : Whatwgs} {floats : Floats} {label : LabelDocument}
    {bytes : Bytes} (hvalid : label.validate = .ok ())
    (hraw : ∀ e ∈ label.elements, e.isRaw = false)
    (h : encode encodings floats label = .ok bytes) :
    PrescribedLines floats label bytes ↔ ∀ e ∈ label.elements, e.customFont = none := by
  obtain ⟨body, hbody, hlines⟩ := lines_encode hvalid hraw h
  have hplain : ∀ e ∈ label.elements, e.validate = .ok () ∧ e.isRaw = false := fun e he =>
    ⟨LabelDocument.validate_elements hvalid e he, hraw e he⟩
  have hknown := (List.forall₂_and_left _ _).mpr ⟨hplain, hbody⟩
  constructor
  · rintro ⟨body', hlines', hbody'⟩
    -- the two cuts of the same lines agree, since each element has as many lines in both
    have hflatten : body'.flatten = body.flatten := by
      have heq := (Prod.mk.inj (hlines'.symm.trans hlines)).1
      rwa [List.append_left_inj, List.append_right_inj] at heq
    have hlengths : body'.map List.length = body.map List.length := by
      have hrelated : List.Forall₂ (fun lines' lines => lines'.length = lines.length) body' body := by
        refine forall₂_compose hbody' hknown ?_
        rintro e lines' lines hprescribed ⟨⟨hvalid, hraw⟩, hwritten⟩
        exact length_of_prescribed hvalid hraw hwritten hprescribed
      rw [← List.forall₂_eq_eq_eq, List.forall₂_map_left_iff, List.forall₂_map_right_iff]
      exact hrelated
    obtain rfl : body' = body := List.eq_iff_flatten_eq.mpr ⟨hflatten, hlengths⟩
    refine forall₂_forall_left hbody' hknown ?_
    rintro e lines hprescribed ⟨⟨hvalid, hraw⟩, hwritten⟩
    exact (prescribed_iff hvalid hraw hwritten).mp hprescribed
  · intro hfont
    refine ⟨body, hlines, ?_⟩
    refine ((List.forall₂_and_left _ _).mpr ⟨hfont, hknown⟩).imp ?_
    rintro e lines ⟨hfont, ⟨hvalid, hraw⟩, hwritten⟩
    exact (prescribed_iff hvalid hraw hwritten).mpr hfont

/-- **The lines of a label.**  What the encoder writes of a valid label splits into the header,
the prescribed lines of each element and the end, with every text's line reading back, exactly
where no text is in a font of the client's. -/
theorem encode_prescribed {encodings : Whatwgs} {floats : Floats} {label : LabelDocument}
    {bytes : Bytes} (hvalid : label.validate = .ok ())
    (hraw : ∀ e ∈ label.elements, e.isRaw = false)
    (h : encode encodings floats label = .ok bytes) :
    PrescribedLines floats label bytes ↔ ∀ e ∈ label.elements, e.customFont = none :=
  prescribedLines_iff hvalid hraw h

/-- A large text that looks like a command, and a barcode. -/
def shippingLabel : LabelDocument where
  widthMm := (100 : ℚ)
  heightMm := (50 : ℚ)
  speed := some 9
  elements := [
    .text { xMm := (5 : ℚ), yMm := (5 : ℚ), text := "4 BOX 0 0", heightMm := (12 : ℚ), rotation := 90 },
    .barcode { xMm := (5 : ℚ), yMm := (20 : ℚ), symbology := .code39, data := "ABC-1" },
    .qr { xMm := (60 : ℚ), yMm := (5 : ℚ), data := "ENDQR" }]

theorem encode_prescribed_shipping : ∃ bytes,
    encode onlyWindows1252 .exact shippingLabel = .ok bytes ∧
      PrescribedLines .exact shippingLabel bytes := by
  obtain ⟨bytes, h⟩ : ∃ bytes, encode onlyWindows1252 .exact shippingLabel = .ok bytes :=
    Except.exists_ok (by decide +kernel)
  exact ⟨bytes, h, (encode_prescribed (by decide +kernel) (by decide) h).mpr (by decide)⟩

/-- The text of `shippingLabel` in a font of the client's. -/
def fontLabel : LabelDocument where
  widthMm := (100 : ℚ)
  heightMm := (50 : ℚ)
  elements := [.text { xMm := (5 : ℚ), yMm := (5 : ℚ), text := "total", font := some "7" }]

/-- **A font id takes the place of the font and its size.** -/
theorem font_shifts_fields : fontLabel.validate = .ok () ∧
    (∀ e ∈ fontLabel.elements, e.isRaw = false) ∧
    ∃ bytes, encode onlyWindows1252 .exact fontLabel = .ok bytes ∧
      ¬ PrescribedLines .exact fontLabel bytes := by
  have hvalid : fontLabel.validate = .ok () := by decide +kernel
  have hraw : ∀ e ∈ fontLabel.elements, e.isRaw = false := by decide
  obtain ⟨bytes, h⟩ : ∃ bytes, encode onlyWindows1252 .exact fontLabel = .ok bytes :=
    Except.exists_ok (by decide +kernel)
  refine ⟨hvalid, hraw, bytes, h, fun hlines => ?_⟩
  exact absurd ((prescribedLines_iff hvalid hraw h).mp hlines) (by decide)

end Cpcl

end KilnPrint
