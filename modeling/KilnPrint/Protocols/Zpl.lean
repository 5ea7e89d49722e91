/-
ZPL II encoder.

* `field`, `encodeElement`, `encode` — **the encoder**;
* `elementCommands`, `commands` — the commands an element and a label are meant to be;
* `encode_eq` — the encoder writes these commands, one after the other;
* `encode_commands` — **the stream is cut into exactly these commands if and only if no
  font id holds a caret or a tilde**.

A command starts at each caret and each tilde of the stream.
-/
import KilnPrint.Lib.Pieces
import KilnPrint.Lib.Utf8
import KilnPrint.Protocols.Label

namespace KilnPrint

namespace Zpl

/-! ### The encoder -/

def orientation (rotation : UInt16) : Char :=
  (['N', 'R', 'I', 'B'][quarterTurns rotation]?).getD 'N'

def fieldChar (c : Char) : List Char :=
  if c = '_' then "_5F".toList
  else if c = '^' then "_5E".toList
  else if c = '~' then "_7E".toList
  else if c = '\r' ∨ c = '\n' then [' ']
  else [c]

/-- Field data for `^FH^FD`: what could end the field or start a command becomes a hex
escape. -/
def field (text : List Char) : List Char := text.flatMap fieldChar

/-- `{:02}`. -/
def dec02 (n : ℕ) : List Char := List.replicate (2 - (dec n).length) '0' ++ dec n

def yesNo (b : Bool) : Char := if b then 'Y' else 'N'

/-- The command of a symbology. -/
def symbologyCommand (symbology : Symbology) (o hr : Char) (h : ℕ) : List Char :=
  match symbology with
  | .code128 => "^BC".toList ++ [o, ','] ++ dec h ++ [',', hr] ++ ",N,N".toList
  | .code39 => "^B3".toList ++ [o] ++ ",N,".toList ++ dec h ++ [',', hr] ++ ",N".toList
  | .ean13 => "^BE".toList ++ [o, ','] ++ dec h ++ [',', hr] ++ ",N".toList
  | .ean8 => "^B8".toList ++ [o, ','] ++ dec h ++ [',', hr] ++ ",N".toList
  | .upcA => "^BU".toList ++ [o, ','] ++ dec h ++ [',', hr] ++ ",N,Y".toList
  | .itf => "^B2".toList ++ [o, ','] ++ dec h ++ [',', hr] ++ ",N,N".toList

/-- In `^BC`, `>` starts an invocation sequence; `>0` encodes a literal `>`. -/
def payload (symbology : Symbology) (data : String) : List Char :=
  if symbology = .code128 then
    (barcodePayload symbology data).flatMap fun c => if c = '>' then ">0".toList else [c]
  else barcodePayload symbology data

def eccLetter : QrErrorCorrection → Char
  | .l => 'L'
  | .m => 'M'
  | .q => 'Q'
  | .h => 'H'

/-- `^FO{x},{y}`. -/
def origin (d : Dots) (p : Position) : List Char :=
  "^FO".toList ++ dec (d.of p.xMm) ++ [','] ++ dec (d.of p.yMm)

def encodeElement (d : Dots) : LabelElement → List Char
  | .text e =>
    let h := d.atLeastOne e.heightMm
    -- the font goes into the command as it is
    let font := (e.font.getD "0").toList
    origin d e.toPosition ++ "^A".toList ++ font ++ [orientation e.rotation, ','] ++ dec h ++
      [','] ++ dec h ++ "^FH^FD".toList ++ field e.text.toList ++ "^FS\n".toList
  | .barcode e =>
    let h := d.atLeastOne e.heightMm
    origin d e.toPosition ++ "^BY".toList ++ dec e.moduleWidth.toNat ++ ",3,".toList ++ dec h ++
      symbologyCommand e.symbology (orientation e.rotation) (yesNo e.humanReadable) h ++
      "^FH^FD".toList ++ field (payload e.symbology e.data) ++ "^FS\n".toList
  | .qr e =>
    origin d e.toPosition ++ "^BQN,2,".toList ++ dec e.magnification.toNat ++ "^FH^FD".toList ++
      [eccLetter e.errorCorrection] ++ "A,".toList ++ field e.data.toList ++ "^FS\n".toList
  | .dataMatrix e =>
    origin d e.toPosition ++ "^BXN,".toList ++ dec e.moduleSize.toNat ++ ",200^FH^FD".toList ++
      field e.data.toList ++ "^FS\n".toList
  | .box e =>
    let t := d.atLeastOne e.thicknessMm
    -- a box is at least as large as its line is thick
    let w := max (d.atLeastOne e.widthMm) t
    let h := max (d.atLeastOne e.heightMm) t
    origin d e.toPosition ++ "^GB".toList ++ dec w ++ [','] ++ dec h ++ [','] ++ dec t ++
      "^FS\n".toList
  | .raw data => data.toList ++ ['\n']

/-- `speed.clamp(2, 14)`. -/
def clampSpeed (speed : UInt8) : ℕ := max 2 (min speed.toNat 14)

def encodeHeader (d : Dots) : List Char :=
  "^XA\n^CI28\n^PW".toList ++ dec (d.of d.label.widthMm) ++ "\n^LL".toList ++
    dec (d.of d.label.heightMm) ++ "\n^LH0,0\n".toList ++
    (d.label.darkness.elim [] fun n => "~SD".toList ++ dec02 n.toNat ++ ['\n']) ++
    (d.label.speed.elim [] fun n => "^PR".toList ++ dec (clampSpeed n) ++ ['\n'])

/-- `zpl::encode`, which never fails. -/
def encode (floats : Floats) (label : LabelDocument) : Bytes :=
  let d : Dots := ⟨floats, label⟩
  Utf8.encode (encodeHeader d ++ label.elements.flatMap (encodeElement d) ++ "^XZ\n".toList)

/-! ### The commands of a label -/

def headerCommands (d : Dots) : List (List Char) :=
  ["^XA\n".toList, "^CI28\n".toList, "^PW".toList ++ dec (d.of d.label.widthMm) ++ ['\n'],
    "^LL".toList ++ dec (d.of d.label.heightMm) ++ ['\n'], "^LH0,0\n".toList] ++
    (d.label.darkness.elim [] fun n => ["~SD".toList ++ dec02 n.toNat ++ ['\n']]) ++
    (d.label.speed.elim [] fun n => ["^PR".toList ++ dec (clampSpeed n) ++ ['\n']])

/-- The commands of a field: its data, and its end. -/
def fieldCommands (data : List Char) : List (List Char) :=
  ["^FH".toList, "^FD".toList ++ data, "^FS\n".toList]

/-- The commands of an element, each of them ending in one `^FS`.  What a RAW element inserts
is the client's. -/
def elementCommands (d : Dots) : LabelElement → List (List Char)
  | .text e =>
    let h := d.atLeastOne e.heightMm
    [origin d e.toPosition, "^A".toList ++ (e.font.getD "0").toList ++ [orientation e.rotation, ','] ++
      dec h ++ [','] ++ dec h] ++ fieldCommands (field e.text.toList)
  | .barcode e =>
    let h := d.atLeastOne e.heightMm
    [origin d e.toPosition, "^BY".toList ++ dec e.moduleWidth.toNat ++ ",3,".toList ++ dec h,
      symbologyCommand e.symbology (orientation e.rotation) (yesNo e.humanReadable) h] ++
      fieldCommands (field (payload e.symbology e.data))
  | .qr e =>
    [origin d e.toPosition, "^BQN,2,".toList ++ dec e.magnification.toNat] ++
      fieldCommands ([eccLetter e.errorCorrection] ++ "A,".toList ++ field e.data.toList)
  | .dataMatrix e =>
    [origin d e.toPosition, "^BXN,".toList ++ dec e.moduleSize.toNat ++ ",200".toList] ++
      fieldCommands (field e.data.toList)
  | .box e =>
    let t := d.atLeastOne e.thicknessMm
    let w := max (d.atLeastOne e.widthMm) t
    let h := max (d.atLeastOne e.heightMm) t
    [origin d e.toPosition, "^GB".toList ++ dec w ++ [','] ++ dec h ++ [','] ++ dec t,
      "^FS\n".toList]
  | .raw data => [data.toList ++ ['\n']]

/-- The command sequence of a label. -/
def commands (d : Dots) : List (List Char) :=
  headerCommands d ++ d.label.elements.flatMap (elementCommands d) ++ ["^XZ\n".toList]

theorem encodeElement_eq (d : Dots) (element : LabelElement) :
    encodeElement d element = (elementCommands d element).flatten := by
  cases element with
  | text e => simp [encodeElement, elementCommands, fieldCommands]
  | barcode e => simp [encodeElement, elementCommands, fieldCommands]
  | qr e => simp [encodeElement, elementCommands, fieldCommands]
  | dataMatrix e => simp [encodeElement, elementCommands, fieldCommands]
  | box e => simp [encodeElement, elementCommands]
  | raw data => simp [encodeElement, elementCommands]

theorem encodeHeader_eq (d : Dots) : encodeHeader d = (headerCommands d).flatten := by
  unfold encodeHeader headerCommands
  cases d.label.darkness <;> cases d.label.speed <;> simp

/-- **The encoder writes the commands of the label, one after the other.** -/
theorem encode_eq (floats : Floats) (label : LabelDocument) :
    encode floats label = ((commands ⟨floats, label⟩).map Utf8.encode).flatten := by
  have helements : ∀ (d : Dots) (elements : List LabelElement),
      elements.flatMap (encodeElement d) = (elements.flatMap (elementCommands d)).flatten := by
    intro d elements
    induction elements with
    | nil => rfl
    | cons element rest ih =>
      rw [List.flatMap_cons, List.flatMap_cons, List.flatten_append, encodeElement_eq, ih]
  rw [← Utf8.encode_flatten, commands, List.flatten_append, List.flatten_append,
    ← encodeHeader_eq, ← helements, List.flatten_singleton]
  rfl

/-! ### Where a command starts -/

/-- The bytes of the caret and the tilde. -/
def startsCommand (b : UInt8) : Bool := b == 0x5E || b == 0x7E

/-- A text without caret and tilde. -/
def Plain (text : List Char) : Prop := '^' ∉ text ∧ '~' ∉ text

instance (text : List Char) : Decidable (Plain text) := inferInstanceAs (Decidable (_ ∧ _))

@[simp] theorem plain_nil : Plain [] := by simp [Plain]

@[simp] theorem plain_cons {c : Char} {text : List Char} :
    Plain (c :: text) ↔ (c ≠ '^' ∧ c ≠ '~') ∧ Plain text := by
  simp only [Plain, List.mem_cons, not_or]
  constructor
  · rintro ⟨⟨h1, h2⟩, h3, h4⟩
    exact ⟨⟨Ne.symm h1, Ne.symm h3⟩, h2, h4⟩
  · rintro ⟨⟨h1, h3⟩, h2, h4⟩
    exact ⟨⟨Ne.symm h1, h2⟩, Ne.symm h3, h4⟩

@[simp] theorem plain_append {a b : List Char} : Plain (a ++ b) ↔ Plain a ∧ Plain b := by
  simp only [Plain, List.mem_append, not_or]
  constructor
  · rintro ⟨⟨h1, h2⟩, h3, h4⟩
    exact ⟨⟨h1, h3⟩, h2, h4⟩
  · rintro ⟨⟨h1, h3⟩, h2, h4⟩
    exact ⟨⟨h1, h2⟩, h3, h4⟩

@[simp] theorem plain_dec (n : ℕ) : Plain (dec n) := by
  constructor
  · intro h
    have hb : _ ∧ '^'.toNat ≤ 57 := dec_bounds h
    exact absurd hb.2 (by decide)
  · intro h
    have hb : _ ∧ '~'.toNat ≤ 57 := dec_bounds h
    exact absurd hb.2 (by decide)

@[simp] theorem plain_dec02 (n : ℕ) : Plain (dec02 n) := by
  have hzeros : ∀ m, Plain (List.replicate m '0') := by
    intro m
    induction m with
    | zero => exact plain_nil
    | succ m ih => simp [List.replicate_succ, ih]
  simp [dec02, hzeros]

/-- **A field holds no caret and no tilde, whatever the text.** -/
@[simp] theorem plain_field (text : List Char) : Plain (field text) := by
  induction text with
  | nil => exact plain_nil
  | cons c rest ih =>
    show Plain (fieldChar c ++ field rest)
    rw [plain_append]
    refine ⟨?_, ih⟩
    unfold fieldChar
    split_ifs <;> simp_all

@[simp] theorem orientation_plain (rotation : UInt16) :
    orientation rotation ≠ '^' ∧ orientation rotation ≠ '~' := by
  have hlt : quarterTurns rotation < 4 := Nat.mod_lt _ (by omega)
  unfold orientation
  generalize quarterTurns rotation = n at hlt
  have hall : ∀ k < 4, (['N', 'R', 'I', 'B'][k]?).getD 'N' ≠ '^' ∧
      (['N', 'R', 'I', 'B'][k]?).getD 'N' ≠ '~' := by decide
  exact hall n hlt

@[simp] theorem yesNo_plain (b : Bool) : yesNo b ≠ '^' ∧ yesNo b ≠ '~' := by
  cases b <;> decide

@[simp] theorem eccLetter_plain (e : QrErrorCorrection) :
    eccLetter e ≠ '^' ∧ eccLetter e ≠ '~' := by
  cases e <;> decide

/-- The byte form of a command is a piece exactly where its text is plain. -/
theorem isPiece_iff {c : Char} {body : List Char} (hc : c = '^' ∨ c = '~') :
    Pieces.IsPiece startsCommand (Utf8.encode (c :: body)) ↔ Plain body := by
  have hcaret := Utf8.mem_encode_iff body (d := '^') (by decide)
  have htilde := Utf8.mem_encode_iff body (d := '~') (by decide)
  have hstart : Utf8.encode (c :: body) = UInt8.ofNat c.toNat :: Utf8.encode body := by
    rcases hc with rfl | rfl <;> rfl
  rw [hstart]
  constructor
  · intro h
    constructor
    · intro hmem
      exact absurd (h.2 _ (hcaret.mpr hmem)) (by decide)
    · intro hmem
      exact absurd (h.2 _ (htilde.mpr hmem)) (by decide)
  · intro h
    refine ⟨by rcases hc with rfl | rfl <;> rfl, ?_⟩
    intro b hb
    -- a byte that starts a command is the byte of a caret or a tilde
    by_contra hstarts
    rw [Bool.not_eq_false, startsCommand, Bool.or_eq_true, beq_iff_eq, beq_iff_eq] at hstarts
    rcases hstarts with rfl | rfl
    · exact h.1 (hcaret.mp hb)
    · exact h.2 (htilde.mp hb)

/-- The commands of a font's place: the only ones that can be cut. -/
def FontPlain : LabelElement → Prop
  | .text e => Plain (e.font.getD "0").toList
  | _ => True

instance (element : LabelElement) : Decidable (FontPlain element) := by
  unfold FontPlain
  split <;> infer_instance

/-- The text of a command. -/
def IsCommand (command : List Char) : Prop :=
  Pieces.IsPiece startsCommand (Utf8.encode command)

@[simp] theorem caret_iff {body : List Char} : IsCommand ('^' :: body) ↔ Plain body :=
  isPiece_iff (.inl rfl)

@[simp] theorem tilde_iff {body : List Char} : IsCommand ('~' :: body) ↔ Plain body :=
  isPiece_iff (.inr rfl)

@[simp] theorem isCommand_origin (d : Dots) (p : Position) : IsCommand (origin d p) := by
  have hbody : origin d p =
      '^' :: (['F', 'O'] ++ dec (d.of p.xMm) ++ [','] ++ dec (d.of p.yMm)) := rfl
  rw [hbody, caret_iff]
  simp

@[simp] theorem isCommand_symbology (symbology : Symbology) (rotation : UInt16) (hr : Bool)
    (h : ℕ) : IsCommand (symbologyCommand symbology (orientation rotation) (yesNo hr) h) := by
  have hstart : ∃ name fields, symbologyCommand symbology (orientation rotation) (yesNo hr) h =
      '^' :: (name ++ dec h ++ [',', yesNo hr] ++ fields) ∧ Plain name ∧ Plain fields := by
    cases symbology with
    | code128 => exact ⟨['B', 'C', orientation rotation, ','], _, rfl, by simp, by decide⟩
    | code39 =>
      exact ⟨['B', '3', orientation rotation, ',', 'N', ','], _, rfl, by simp, by decide⟩
    | ean13 => exact ⟨['B', 'E', orientation rotation, ','], _, rfl, by simp, by decide⟩
    | ean8 => exact ⟨['B', '8', orientation rotation, ','], _, rfl, by simp, by decide⟩
    | upcA => exact ⟨['B', 'U', orientation rotation, ','], _, rfl, by simp, by decide⟩
    | itf => exact ⟨['B', '2', orientation rotation, ','], _, rfl, by simp, by decide⟩
  obtain ⟨name, fields, hbody, hname, hfields⟩ := hstart
  rw [hbody, caret_iff]
  simp [hname, hfields]

/-- **An element is made of commands exactly where its font id is plain.** -/
theorem elementCommands_iff (d : Dots) {element : LabelElement} (hraw : element.isRaw = false) :
    (∀ c ∈ elementCommands d element, IsCommand c) ↔ FontPlain element := by
  cases element with
  | text e => simp [elementCommands, fieldCommands, FontPlain]
  | barcode e => simp [elementCommands, fieldCommands, FontPlain]
  | qr e => simp [elementCommands, fieldCommands, FontPlain]
  | dataMatrix e => simp [elementCommands, fieldCommands, FontPlain]
  | box e => simp [elementCommands, FontPlain]
  | raw data => simp [LabelElement.isRaw] at hraw

theorem headerCommands_commands (d : Dots) : ∀ c ∈ headerCommands d, IsCommand c := by
  unfold headerCommands
  cases d.label.darkness <;> cases d.label.speed <;> simp

/-- **A label is made of commands exactly where its font ids are plain.** -/
theorem commands_iff (d : Dots) (hraw : ∀ e ∈ d.label.elements, e.isRaw = false) :
    (∀ c ∈ commands d, IsCommand c) ↔ ∀ e ∈ d.label.elements, FontPlain e := by
  constructor
  · intro h e he
    refine (elementCommands_iff d (hraw e he)).mp fun c hc => h c ?_
    refine List.mem_append_left _ (List.mem_append_right _ ?_)
    exact List.mem_flatMap.mpr ⟨e, he, hc⟩
  · intro h c hc
    rcases List.mem_append.mp hc with hc | hc
    · rcases List.mem_append.mp hc with hc | hc
      · exact headerCommands_commands d c hc
      · obtain ⟨e, he, hc⟩ := List.mem_flatMap.mp hc
        exact (elementCommands_iff d (hraw e he)).mpr (h e he) c hc
    · rw [List.mem_singleton.mp hc]
      simp

theorem pieces_encode_iff (floats : Floats) (label : LabelDocument) :
    Pieces.pieces startsCommand (encode floats label) =
        ([], (commands ⟨floats, label⟩).map Utf8.encode) ↔
      ∀ c ∈ commands ⟨floats, label⟩, IsCommand c := by
  rw [encode_eq, Pieces.pieces_flatten_iff, List.forall_mem_map]
  rfl

/-- **A label is cut into its own commands exactly where its font ids are plain.** -/
theorem encode_commands (floats : Floats) {label : LabelDocument}
    (hraw : ∀ e ∈ label.elements, e.isRaw = false) :
    Pieces.pieces startsCommand (encode floats label) =
        ([], (commands ⟨floats, label⟩).map Utf8.encode) ↔
      ∀ e ∈ label.elements, FontPlain e :=
  (pieces_encode_iff floats label).trans (commands_iff ⟨floats, label⟩ hraw)

/-- A label of 100 by 50 millimetres with one text in a font. -/
def fontLabel (font : String) : LabelDocument where
  widthMm := (100 : ℚ)
  heightMm := (50 : ℚ)
  elements := [.text { xMm := (5 : ℚ), yMm := (5 : ℚ), text := "total", font := some font }]

theorem encode_commands_plain :
    Pieces.pieces startsCommand (encode .exact (fontLabel "A")) =
      ([], (commands ⟨.exact, fontLabel "A"⟩).map Utf8.encode) :=
  (encode_commands .exact (by decide : ∀ e ∈ (fontLabel "A").elements, e.isRaw = false)).mpr (by decide)

/-- **A font id ends the label and starts another.** -/
theorem font_injects : (fontLabel "A^XZ^XA").validate = .ok () ∧
    (∀ e ∈ (fontLabel "A^XZ^XA").elements, e.isRaw = false) ∧
    Pieces.pieces startsCommand (encode .exact (fontLabel "A^XZ^XA")) ≠
      ([], (commands ⟨.exact, fontLabel "A^XZ^XA"⟩).map Utf8.encode) := by
  refine ⟨by decide +kernel, by decide, ?_⟩
  intro h
  have hplain := (commands_iff _ (by decide)).mp ((pieces_encode_iff _ _).mp h)
  exact absurd hplain (by decide)

end Zpl

end KilnPrint
