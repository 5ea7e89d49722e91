/-
What the encoders of the label languages share.

* `Floats`, `Floats.exact` — the floating-point operations, which are a parameter, and an
  instance in exact arithmetic;
* `Dots` — positions and sizes in dots;
* `quarterTurns`, `pickFont`, `barcodePayload`, `singleLine`, `encodeText` — the helpers;
* `Bare`, `LabelElement.data`, `pickFont_mem` — what the lines of a label are made of.

Validated barcode data is ASCII, so that its characters are its bytes.
-/
import KilnPrint.Lib.Pieces
import KilnPrint.Model.Label
import KilnPrint.Protocols.CodePage
import Mathlib.Data.Nat.Dist

namespace KilnPrint

/-! ### Numbers -/

/-- The floating-point operations of the encoders. -/
structure Floats where
  /-- Millimetres to printer dots, at a resolution. -/
  dots : Single → ℕ → ℕ
  dots_lt : ∀ mm dpi, dots mm dpi < 2 ^ 32
  /-- `format!("{value:.2}")`. -/
  fixed : Single → List Char
  fixed_plain : ∀ v, ∀ c ∈ fixed v, 0x20 ≤ c.toNat ∧ c.toNat ≤ 0x7E

/-- A number, as `{}` prints it. -/
def dec (n : ℕ) : List Char := Nat.toDigits 10 n

theorem dec_bounds {n : ℕ} {c : Char} (h : c ∈ dec n) : 48 ≤ c.toNat ∧ c.toNat ≤ 57 :=
  Symbology.isDigit_bounds (Nat.isDigit_of_mem_toDigits (by omega) (by omega) h)

namespace Floats

/-- The nearest integer, halves rounding up. -/
def nearest (q : ℚ) : ℕ := (q + 1 / 2).floor.toNat

/-- Two digits after the point. -/
def fixedRat (q : ℚ) : List Char :=
  let hundredths := nearest (|q| * 100)
  (if q < 0 then ['-'] else []) ++ dec (hundredths / 100) ++ ['.'] ++
    dec (hundredths / 10 % 10) ++ dec (hundredths % 10)

theorem fixedRat_plain {q : ℚ} {c : Char} (h : c ∈ fixedRat q) :
    0x20 ≤ c.toNat ∧ c.toNat ≤ 0x7E := by
  have hdec : ∀ n, c ∈ dec n → 0x20 ≤ c.toNat ∧ c.toNat ≤ 0x7E := by
    intro n hc
    have := dec_bounds hc
    omega
  simp only [fixedRat, List.mem_append, List.mem_singleton] at h
  rcases h with (((h | h) | rfl) | h) | h
  · split at h
    · rw [List.mem_singleton.mp h]
      decide
    · simp at h
  · exact hdec _ h
  · decide
  · exact hdec _ h
  · exact hdec _ h

/-- The operations in exact arithmetic. -/
def exact : Floats where
  dots mm dpi :=
    match mm with
    | some (some q) => min (nearest (max q 0 * 10 / 254 * dpi)) (2 ^ 32 - 1)
    | some none => 2 ^ 32 - 1
    | none => 0
  dots_lt mm dpi := by
    split <;> omega
  fixed mm :=
    match mm with
    | some (some q) => fixedRat q
    | some none => "inf".toList
    | none => "-inf".toList
  fixed_plain mm c h := by
    split at h
    · exact fixedRat_plain h
    · have hall : ∀ d ∈ "inf".toList, 0x20 ≤ d.toNat ∧ d.toNat ≤ 0x7E :=
        Utf8.forall_of_all (by decide)
      exact hall c h
    · have hall : ∀ d ∈ "-inf".toList, 0x20 ≤ d.toNat ∧ d.toNat ≤ 0x7E :=
        Utf8.forall_of_all (by decide)
      exact hall c h

end Floats

/-- Positions and sizes in dots for one label. -/
structure Dots where
  floats : Floats
  label : LabelDocument

namespace Dots

def of (d : Dots) (mm : Single) : ℕ := d.floats.dots mm d.label.dpi

def atLeastOne (d : Dots) (mm : Single) : ℕ := max (d.of mm) 1

end Dots

/-! ### Helpers -/

def unsupported (language what : String) : PrintError :=
  .new .unsupportedOperation s!"{what} is not supported by {language} labels"

/-- Rotation index for 0, 90, 180, 270 degrees. -/
def quarterTurns (rotation : UInt16) : ℕ := rotation.toNat / 90 % 4

/-- The bitmap font and integer magnification whose height is closest to `target` dots.
`fonts` lists the font ids with their heights in dots at 203 dpi. -/
def pickFont (fonts : List (String × ℕ)) (target dpi maxMult : ℕ) : String × ℕ :=
  let scale (h : ℕ) := max (h * dpi / 203) 1
  let first := (fonts.head?.map Prod.fst).getD ""
  let best := fonts.foldl (fun best (entry : String × ℕ) =>
    let h := scale entry.2
    let mult := max 1 (min ((target + h / 2) / h) maxMult)
    let error := Nat.dist (h * mult) target
    -- ties go to the larger font, listed later
    if error ≤ best.2.2 then (entry.1, mult, error) else best) (first, 1, 2 ^ 32 - 1)
  (best.1, best.2.1)

/-- Barcode payload as the printer expects it: EAN and UPC without the check digit. -/
def barcodePayload (symbology : Symbology) (data : String) : List Char :=
  match symbology with
  | .ean13 => data.toList.take 12
  | .ean8 => data.toList.take 7
  | .upcA => data.toList.take 11
  | _ => data.toList

/-- Removes characters that would break a line-oriented command language. -/
def singleLine (text : List Char) : List Char := text.map fun c => if isControl c then ' ' else c

def encodeText (encodings : Whatwgs) (text : List Char) (encoding : String) :
    Except PrintError Bytes := do
  let encoder ← TextEncoder.forLabel encodings encoding
  encoder.encode text

/-! ### Lines of a label -/

/-- Values separated by commas. -/
def fields (values : List (List Char)) : List Char := [','].intercalate values

/-- A text of printable ASCII without quotes. -/
def Bare (text : List Char) : Prop := ∀ c ∈ text, 0x20 ≤ c.toNat ∧ c.toNat < 0x7F ∧ c ≠ '"'

instance (text : List Char) : Decidable (Bare text) :=
  decidable_of_iff
    (text.all fun c => decide (0x20 ≤ c.toNat ∧ c.toNat < 0x7F ∧ c ≠ '"')) (by simp [Bare])

@[simp] theorem bare_nil : Bare [] := fun _ h => absurd h List.not_mem_nil

@[simp] theorem bare_cons {c : Char} {text : List Char} :
    Bare (c :: text) ↔ (0x20 ≤ c.toNat ∧ c.toNat < 0x7F ∧ c ≠ '"') ∧ Bare text :=
  List.forall_mem_cons

@[simp] theorem bare_append {a b : List Char} : Bare (a ++ b) ↔ Bare a ∧ Bare b :=
  List.forall_mem_append

@[simp] theorem bare_dec (n : ℕ) : Bare (dec n) := by
  intro c hc
  have hbounds := dec_bounds hc
  refine ⟨by omega, by omega, ?_⟩
  rintro rfl
  exact absurd hbounds.1 (by decide)

theorem bare_fields {values : List (List Char)} (h : ∀ v ∈ values, Bare v) :
    Bare (fields values) := by
  induction values with
  | nil => exact bare_nil
  | cons v rest ih =>
    have hrest := ih fun w hw => h w (List.mem_cons_of_mem _ hw)
    have hv := h v List.mem_cons_self
    cases rest with
    | nil => simpa [fields] using hv
    | cons w rest =>
      rw [fields, List.intercalate_cons_cons]
      simp only [bare_append, bare_cons, bare_nil, and_true]
      exact ⟨⟨hv, by decide⟩, hrest⟩

theorem Bare.printable {text : List Char} (h : Bare text) : Printable text := by
  intro c hc
  obtain ⟨hlo, hhi, -⟩ := h c hc
  simp only [isControl, Bool.or_eq_false_iff, Bool.and_eq_false_iff, decide_eq_false_iff_not]
  omega

theorem Bare.ascii {text : List Char} (h : Bare text) : ∀ c ∈ text, c.toNat < 128 := by
  intro c hc
  have := (h c hc).2.1
  omega

theorem Bare.ne_quote {text : List Char} (h : Bare text) : '"' ∉ text :=
  fun hmem => (h _ hmem).2.2 rfl

/-- A resident font is one of the list. -/
theorem pickFont_mem {fonts : List (String × ℕ)} (hfonts : fonts ≠ []) (target dpi maxMult : ℕ) :
    (pickFont fonts target dpi maxMult).1 ∈ fonts.map Prod.fst := by
  obtain ⟨first, rest, rfl⟩ := List.exists_cons_of_ne_nil hfonts
  unfold pickFont
  have hfold : ∀ (step : String × ℕ × ℕ → String × ℕ → String × ℕ × ℕ),
      (∀ best entry, (step best entry).1 = best.1 ∨ (step best entry).1 = entry.1) →
      ∀ (entries : List (String × ℕ)) (best : String × ℕ × ℕ) (names : List String),
        best.1 ∈ names → (∀ e ∈ entries, e.1 ∈ names) → (entries.foldl step best).1 ∈ names := by
    intro step hstep entries
    induction entries with
    | nil => exact fun best names hbest _ => hbest
    | cons e entries ih =>
      intro best names hbest hentries
      refine ih _ names ?_ fun e' he' => hentries e' (List.mem_cons_of_mem _ he')
      rcases hstep best e with h | h
      · rw [h]
        exact hbest
      · rw [h]
        exact hentries e List.mem_cons_self
  refine hfold _ ?_ _ _ _ ?_ fun e he => List.mem_map_of_mem he
  · intro best entry
    dsimp only
    split
    · exact .inr rfl
    · exact .inl rfl
  · exact List.mem_cons_self

/-- The strings of an element that a line-oriented language quotes: the data of a text, a
barcode or a symbol. -/
def LabelElement.data : LabelElement → List (List Char)
  | text e => [singleLine e.text.toList]
  | barcode e => [barcodePayload e.symbology e.data]
  | qr e => [singleLine e.data.toList]
  | dataMatrix e => [singleLine e.data.toList]
  | box _ => []
  | raw _ => []

/-- A stream of lines, each ending in `term`: a header, a line for each element, and a final
line. -/
def SplitsInto (term : Bytes) (header : List Bytes) (final : Bytes)
    (line : LabelElement → Bytes → Prop) (label : LabelDocument) (bytes : Bytes) : Prop :=
  ∃ body, Pieces.lines term bytes = (header ++ body ++ [final], []) ∧
    List.Forall₂ line label.elements body

/-- Lines without control bytes are read back. -/
theorem splitsInto_of_uncontrolled {term final : Bytes} {header body : List Bytes}
    {line : LabelElement → Bytes → Prop} {label : LabelDocument} {bytes : Bytes}
    (hterm : term ≠ []) (hcontrol : ∀ b ∈ term, b.toNat < 0x20)
    (hbytes : bytes = header.flatMap (· ++ term) ++ body.flatMap (· ++ term) ++ (final ++ term))
    (hheader : ∀ l ∈ header, Uncontrolled l) (hfinal : Uncontrolled final)
    (hbody : List.Forall₂ (fun e l => line e l ∧ Uncontrolled l) label.elements body) :
    SplitsInto term header final line label bytes := by
  refine ⟨body, ?_, hbody.imp fun _ _ h => h.1⟩
  have hlines : ∀ l ∈ body, Uncontrolled l := forall_of_forall₂ hbody fun _ _ h => h.2
  have hall : ∀ l ∈ header ++ body ++ [final], Uncontrolled l := by
    intro l hl
    rcases List.mem_append.mp hl with hl | hl
    · rcases List.mem_append.mp hl with hl | hl
      · exact hheader l hl
      · exact hlines l hl
    · rw [List.mem_singleton.mp hl]
      exact hfinal
  rw [hbytes, ← Pieces.lines_join hterm (header ++ body ++ [final])]
  · simp
  · intro l hl a ha hmem
    have := hall l hl a ha
    have := hcontrol a hmem
    omega

/-- The font id of a text, where the client gave one. -/
def LabelElement.customFont : LabelElement → Option String
  | text e => e.font
  | _ => none

theorem printable_singleLine (text : List Char) : Printable (singleLine text) := by
  intro c hc
  obtain ⟨c', -, rfl⟩ := List.mem_map.mp hc
  split
  · rfl
  · next h => simpa using h

/-- A printable text is a single line already. -/
theorem singleLine_of_printable {text : List Char} (h : Printable text) :
    singleLine text = text := by
  refine (List.map_congr_left fun c hc => ?_).trans (List.map_id _)
  rw [h c hc]
  rfl

theorem barcodePayload_subset (symbology : Symbology) (data : String) :
    ∀ c ∈ barcodePayload symbology data, c ∈ data.toList := by
  intro c hc
  cases symbology with
  | code128 | code39 | itf => exact hc
  | ean13 | ean8 | upcA => exact List.mem_of_mem_take hc

/-- The payload of a validated barcode is a single line of ASCII. -/
theorem barcodePayload_plain {symbology : Symbology} {data : String}
    (h : symbology.validate data = .ok ()) :
    singleLine (barcodePayload symbology data) = barcodePayload symbology data ∧
      ∀ c ∈ barcodePayload symbology data, c.toNat < 128 := by
  have hpayload : ∀ c ∈ barcodePayload symbology data, 0x20 ≤ c.toNat ∧ c.toNat ≤ 0x7E :=
    fun c hc => Symbology.ascii_of_validate h c (barcodePayload_subset _ _ c hc)
  constructor
  · refine singleLine_of_printable fun c hc => ?_
    have := hpayload c hc
    simp only [isControl, Bool.or_eq_false_iff, Bool.and_eq_false_iff, decide_eq_false_iff_not]
    omega
  · intro c hc
    have := hpayload c hc
    omega

end KilnPrint
