/-
The integer arithmetic of the label encoders.

* `checkedAdd`, `checkedMul` — a sum and a product that have to fit their type;
* `Computed`, `Language.arithmetic`, `Language.written` — the numbers that are computed for an
  element, with each addition and multiplication checked, and the numbers that the encoder
  writes;
* `pickFont?_eq` — choosing a font stays in range;
* `text_written`, `barcode_written`, `box_written`, `darkness_written` — the lines of a label hold
  the numbers that are written;
* `dots_le` — what the checks of a label bound, in dots;
* `arithmetic_exact` — **no operation of an encoder overflows, and what it writes is exact, if
  and only if the far corner of every box that it reaches has coordinates below 2^32**.

Dots are rounded exactly and saturate at 32 bits.  Divisions, remainders, minima, maxima and
saturating differences stay in range by themselves.
-/
import KilnPrint.Protocols.LabelCodes
import Mathlib.Data.Rat.Floor

namespace KilnPrint

/-! ### Checked operations -/

/-- A sum in an unsigned type of some width; `none` where it overflows. -/
def checkedAdd (bits a b : ℕ) : Option ℕ := if a + b < 2 ^ bits then some (a + b) else none

/-- A product in an unsigned type of some width; `none` where it overflows. -/
def checkedMul (bits a b : ℕ) : Option ℕ := if a * b < 2 ^ bits then some (a * b) else none

theorem checkedAdd_of_lt {bits a b : ℕ} (h : a + b < 2 ^ bits) :
    checkedAdd bits a b = some (a + b) := if_pos h

theorem checkedMul_of_lt {bits a b : ℕ} (h : a * b < 2 ^ bits) :
    checkedMul bits a b = some (a * b) := if_pos h

/-- Fonts with their heights are tried one after the other. -/
def tryFont? (target dpi maxMult : ℕ) (best : String × ℕ × ℕ) (entry : String × ℕ) :
    Option (String × ℕ × ℕ) := do
  let scaled ← checkedMul 64 entry.2 dpi
  let h := max (scaled / 203) 1
  let rounded ← checkedAdd 32 target (h / 2)
  let mult := max 1 (min (rounded / h) maxMult)
  let height ← checkedMul 32 h mult
  let error := Nat.dist height target
  pure (if error ≤ best.2.2 then (entry.1, mult, error) else best)

/-- `pickFont`, with its operations checked. -/
def pickFont? (fonts : List (String × ℕ)) (target dpi maxMult : ℕ) : Option (String × ℕ) := do
  let first := (fonts.head?.map Prod.fst).getD ""
  let best ← fonts.foldlM (tryFont? target dpi maxMult) (first, 1, 2 ^ 32 - 1)
  pure (best.1, best.2.1)

/-- A fold whose steps all succeed. -/
theorem foldlM_eq_some {α β : Type} {step? : β → α → Option β} {step : β → α → β} {l : List α}
    (h : ∀ a ∈ l, ∀ b, step? b a = some (step b a)) (start : β) :
    l.foldlM step? start = some (l.foldl step start) := by
  induction l generalizing start with
  | nil => rfl
  | cons a l ih =>
    rw [List.foldlM_cons, h a List.mem_cons_self, Option.bind_eq_bind, Option.bind_some,
      ih fun a ha => h a (List.mem_cons_of_mem _ ha)]
    rfl

/-- The height of a font at a resolution. -/
def scaledHeight (dpi height : ℕ) : ℕ := max (height * dpi / 203) 1

/-- The magnification of a font that comes closest to the target. -/
def magnification (target maxMult h : ℕ) : ℕ := max 1 (min ((target + h / 2) / h) maxMult)

/-- `tryFont?`, without the checks. -/
def tryFont (target dpi maxMult : ℕ) (best : String × ℕ × ℕ) (entry : String × ℕ) :
    String × ℕ × ℕ :=
  let h := scaledHeight dpi entry.2
  let mult := magnification target maxMult h
  let error := Nat.dist (h * mult) target
  if error ≤ best.2.2 then (entry.1, mult, error) else best

theorem pickFont_eq_foldl (fonts : List (String × ℕ)) (target dpi maxMult : ℕ) :
    pickFont fonts target dpi maxMult =
      let best := fonts.foldl (tryFont target dpi maxMult)
        ((fonts.head?.map Prod.fst).getD "", 1, 2 ^ 32 - 1)
      (best.1, best.2.1) :=
  rfl

/-- A font that is magnified is as high as the font or the target, more or less. -/
theorem magnified_le (target maxMult h : ℕ) :
    h * magnification target maxMult h ≤ max h (target + h / 2) := by
  have hmult : magnification target maxMult h ≤ max 1 ((target + h / 2) / h) :=
    max_le_max le_rfl (Nat.min_le_left _ _)
  refine (Nat.mul_le_mul_left h hmult).trans ?_
  rw [← Nat.mul_max_mul_left, Nat.mul_one]
  exact max_le_max le_rfl (Nat.mul_div_le _ _)

theorem scaledHeight_le {height dpi : ℕ} (hheight : height ≤ 1000) (hdpi : dpi ≤ 1200) :
    scaledHeight dpi height ≤ 5911 := by
  have hproduct : height * dpi ≤ 1000 * 1200 := Nat.mul_le_mul hheight hdpi
  unfold scaledHeight
  omega

/-- **Choosing a font stays in range**, for the sizes that fonts and texts of a label have. -/
theorem pickFont?_eq {fonts : List (String × ℕ)} {target dpi : ℕ} (maxMult : ℕ)
    (hfonts : ∀ e ∈ fonts, e.2 ≤ 1000) (htarget : target ≤ 9449) (hdpi : dpi ≤ 1200) :
    pickFont? fonts target dpi maxMult = some (pickFont fonts target dpi maxMult) := by
  have hstep : ∀ entry ∈ fonts, ∀ best,
      tryFont? target dpi maxMult best entry = some (tryFont target dpi maxMult best entry) := by
    intro entry hentry best
    have hscaled : entry.2 * dpi ≤ 1000 * 1200 := Nat.mul_le_mul (hfonts entry hentry) hdpi
    have hheight := scaledHeight_le (hfonts entry hentry) hdpi
    have hmagnified := magnified_le target maxMult (scaledHeight dpi entry.2)
    have hrounded : target + scaledHeight dpi entry.2 / 2 < 2 ^ 32 := by omega
    have hproduct : scaledHeight dpi entry.2 *
        magnification target maxMult (scaledHeight dpi entry.2) < 2 ^ 32 := by omega
    unfold tryFont?
    rw [checkedMul_of_lt (by omega), Option.bind_eq_bind, Option.bind_some]
    show (do let rounded ← checkedAdd 32 target (scaledHeight dpi entry.2 / 2); _) = _
    rw [checkedAdd_of_lt hrounded, Option.bind_eq_bind, Option.bind_some]
    show (do
      let height ← checkedMul 32 (scaledHeight dpi entry.2)
        (magnification target maxMult (scaledHeight dpi entry.2)); _) = _
    rw [checkedMul_of_lt hproduct]
    rfl
  rw [pickFont?, foldlM_eq_some hstep]
  rfl

/-- What is computed for an element: the font of a text with its magnification and rotation,
the wide bars and the rotation of a barcode, the far corner of a box. -/
inductive Computed
  | text (font : List Char) (magnification rotation : ℕ)
  | barcode (wide rotation : ℕ)
  | box (right bottom : ℕ)
  | nothing
  deriving DecidableEq, Repr

/-! ### The encoders' numbers -/

/-- The font of a text and its magnification in EPL. -/
def Epl.font (d : Dots) (e : LabelText) : String × ℕ :=
  match e.font with
  | some f => (f, 1)
  | none => pickFont Epl.fonts (d.atLeastOne e.heightMm) d.label.dpi 9

/-- The far corner that the line of a box holds. -/
def corner (d : Dots) (e : LabelBox) : ℕ × ℕ :=
  ((d.of e.xMm + d.atLeastOne e.widthMm) % 2 ^ 32, (d.of e.yMm + d.atLeastOne e.heightMm) % 2 ^ 32)

namespace Language

/-- The scale of a label's darkness: what it is multiplied with, before it is divided by 30. -/
def darknessScale : Language → Option ℕ
  | zpl => none
  | epl | tspl => some 15
  | cpcl => some 3

/-- The darkness, with its product checked. -/
def darknessArithmetic (language : Language) (label : LabelDocument) : Option (Option ℕ) :=
  match language.darknessScale, label.darkness with
  | some scale, some darkness => (checkedMul 32 darkness.toNat scale).map fun n => some (n / 30)
  | _, _ => some none

/-- The darkness that the encoder writes, where it scales it. -/
def darknessWritten (language : Language) (label : LabelDocument) : Option ℕ :=
  match language.darknessScale, label.darkness with
  | some scale, some darkness => some (darkness.toNat * scale / 30)
  | _, _ => none

/-- The width of wide bars: three narrow ones in two of the symbologies. -/
def wideArithmetic (e : LabelBarcode) : Option ℕ :=
  match e.symbology with
  | .code39 | .itf => checkedMul 8 e.moduleWidth.toNat 3
  | _ => some e.moduleWidth.toNat

def boxArithmetic (d : Dots) (e : LabelBox) : Option Computed := do
  let right ← checkedAdd 32 (d.of e.xMm) (d.atLeastOne e.widthMm)
  let bottom ← checkedAdd 32 (d.of e.yMm) (d.atLeastOne e.heightMm)
  pure (.box right bottom)

/-- The font of a text, with the operations that choose it checked. -/
def fontArithmetic (language : Language) (d : Dots) (e : LabelText) : Option (List Char × ℕ) :=
  match e.font with
  | some f => some (f.toList, 1)
  | none =>
    match language with
    | zpl => some (['0'], 1)
    | epl => (pickFont? Epl.fonts (d.atLeastOne e.heightMm) d.label.dpi 9).map fun f => (f.1.toList, f.2)
    | tspl => (pickFont? Tspl.fonts (d.atLeastOne e.heightMm) d.label.dpi 10).map fun f => (f.1.toList, f.2)
    | cpcl => do
      let scaled ← checkedMul 32 Cpcl.baseFontDots d.label.dpi
      let base := max (scaled / 203) 1
      let rounded ← checkedAdd 32 (d.atLeastOne e.heightMm) (base / 2)
      pure ("7 0".toList, max 1 (min (rounded / base) 16))

/-- The rotation that is written: TSPL writes degrees, the others a quarter turn's name. -/
def rotationArithmetic (language : Language) (rotation : UInt16) : Option ℕ :=
  match language with
  | tspl => checkedMul 32 (quarterTurns rotation) 90
  | zpl | epl | cpcl => some (quarterTurns rotation)

/-- The numbers of an element, with each addition and multiplication checked. -/
def arithmetic (language : Language) (d : Dots) : LabelElement → Option Computed
  | .text e => do
    let (font, magnification) ← language.fontArithmetic d e
    let rotation ← language.rotationArithmetic e.rotation
    pure (.text font magnification rotation)
  | .barcode e =>
    match language with
    | epl | tspl => do
      let wide ← wideArithmetic e
      let rotation ← language.rotationArithmetic e.rotation
      pure (.barcode wide rotation)
    | zpl | cpcl => some .nothing
  | .box e =>
    match language with
    | zpl => some .nothing
    | epl | tspl | cpcl => boxArithmetic d e
  | .qr _ | .dataMatrix _ | .raw _ => some .nothing

/-- The numbers of an element, as the encoder writes them. -/
def written (language : Language) (d : Dots) : LabelElement → Computed
  | .text e =>
    match language with
    | zpl => .text (e.font.getD "0").toList 1 (quarterTurns e.rotation)
    | epl => .text (Epl.font d e).1.toList (Epl.font d e).2 (quarterTurns e.rotation)
    | tspl => .text (Tspl.font d e).1.toList (Tspl.font d e).2 (quarterTurns e.rotation * 90)
    | cpcl => .text (Cpcl.font d e).1 (Cpcl.font d e).2 (quarterTurns e.rotation)
  | .barcode e =>
    match language with
    | epl => .barcode (Epl.kind e.symbology e.moduleWidth).2.toNat (quarterTurns e.rotation)
    | tspl => .barcode (Tspl.kind e.symbology e.moduleWidth).2.toNat (quarterTurns e.rotation * 90)
    | zpl | cpcl => .nothing
  | .box e =>
    match language with
    | zpl => .nothing
    | epl | tspl | cpcl => .box (corner d e).1 (corner d e).2
  | .qr _ | .dataMatrix _ | .raw _ => .nothing

/-- The elements that an encoder reaches: it stops at the first one that it refuses. -/
def reached (accepts : LabelElement → Bool) : List LabelElement → List LabelElement
  | [] => []
  | e :: rest => e :: if accepts e then reached accepts rest else []

/-- The elements of a label that its encoder reaches. -/
def elementsReached (language : Language) (encodings : Whatwgs) (label : LabelDocument) :
    List LabelElement :=
  reached (fun e => (language.element encodings ⟨.exact, label⟩ e).isOk) label.elements

/-- No operation of the encoder overflows, and what it writes is what is computed. -/
def Exact (language : Language) (encodings : Whatwgs) (label : LabelDocument) : Prop :=
  language.darknessArithmetic label = some (language.darknessWritten label) ∧
  ∀ e ∈ language.elementsReached encodings label,
    language.arithmetic ⟨.exact, label⟩ e = some (language.written ⟨.exact, label⟩ e)

/-- The far corner of a box has coordinates below 2^32; ZPL writes none. -/
def Fits (language : Language) (d : Dots) : LabelElement → Prop
  | .box e => language = .zpl ∨ (d.of e.xMm + d.atLeastOne e.widthMm < 2 ^ 32 ∧
      d.of e.yMm + d.atLeastOne e.heightMm < 2 ^ 32)
  | _ => True

end Language

/-! ### The numbers in the lines -/

section

variable {d : Dots} {font : List Char} {mag rot wide right bottom : ℕ}

/-- The line of a text holds the font, the magnification and the rotation that are written. -/
theorem text_written {e : LabelText} :
    (Language.epl.written d (.text e) = .text font mag rot →
      Epl.textStart d e = 'A' :: fields [dec (d.of e.xMm), dec (d.of e.yMm), dec rot, font,
        dec mag, dec mag, ['N'], []]) ∧
    (Language.tspl.written d (.text e) = .text font mag rot →
      (Tspl.font d e).1.toList = font ∧
        Tspl.textMiddle d e = fields [[], dec rot, dec mag, dec mag, []]) ∧
    (Language.cpcl.written d (.text e) = .text font mag rot →
      Cpcl.font d e = (font, mag) ∧ Cpcl.textCommand e.rotation =
        ((["TEXT", "TEXT90", "TEXT180", "TEXT270"][rot]?).getD "TEXT").toList) := by
  refine ⟨?epl, ?tspl, ?cpcl⟩
  case epl =>
    intro h
    obtain ⟨rfl, rfl, rfl⟩ := Computed.text.inj h
    unfold Epl.textStart Epl.font
    cases e.font <;> rfl
  case tspl =>
    intro h
    obtain ⟨rfl, rfl, rfl⟩ := Computed.text.inj h
    exact ⟨rfl, rfl⟩
  case cpcl =>
    intro h
    obtain ⟨rfl, rfl, rfl⟩ := Computed.text.inj h
    exact ⟨rfl, rfl⟩

/-- The line of a barcode holds the width of its wide bars and its rotation. -/
theorem barcode_written {e : LabelBarcode} :
    (Language.epl.written d (.barcode e) = .barcode wide rot →
      Epl.barcodeStart d e = 'B' :: fields [dec (d.of e.xMm), dec (d.of e.yMm), dec rot,
        (Epl.kind e.symbology e.moduleWidth).1.toList, dec e.moduleWidth.toNat, dec wide,
        dec (d.atLeastOne e.heightMm), [if e.humanReadable then 'B' else 'N'], []]) ∧
    (Language.tspl.written d (.barcode e) = .barcode wide rot →
      Tspl.barcodeMiddle d e = fields [[], dec (d.atLeastOne e.heightMm),
        [if e.humanReadable then '1' else '0'], dec rot, dec e.moduleWidth.toNat, dec wide, []]) := by
  constructor
  · intro h
    obtain ⟨rfl, rfl⟩ := Computed.barcode.inj h
    rfl
  · intro h
    obtain ⟨rfl, rfl⟩ := Computed.barcode.inj h
    rfl

/-- The line of a box holds its far corner. -/
theorem box_written {e : LabelBox} :
    (Language.epl.written d (.box e) = .box right bottom →
      Epl.boxLine d e = 'X' :: fields [dec (d.of e.xMm), dec (d.of e.yMm),
        dec (d.atLeastOne e.thicknessMm), dec right, dec bottom]) ∧
    (Language.tspl.written d (.box e) = .box right bottom →
      Tspl.boxLine d e = "BOX ".toList ++ fields [dec (d.of e.xMm), dec (d.of e.yMm), dec right,
        dec bottom, dec (d.atLeastOne e.thicknessMm)]) ∧
    (Language.cpcl.written d (.box e) = .box right bottom →
      Cpcl.boxLine d e = Cpcl.words ["BOX".toList, dec (d.of e.xMm), dec (d.of e.yMm), dec right,
        dec bottom, dec (d.atLeastOne e.thicknessMm)]) := by
  refine ⟨fun h => ?_, fun h => ?_, fun h => ?_⟩ <;>
  · obtain ⟨rfl, rfl⟩ := Computed.box.inj h
    rfl

/-- The header holds the darkness, where there is one. -/
theorem darkness_written (d : Dots) :
    Epl.headerLines d = [[], ['N'], "I8,0,001".toList, 'q' :: dec (d.of d.label.widthMm)] ++
      (d.label.gapMm.elim [] fun gap => ['Q' :: fields [dec (d.of d.label.heightMm), dec (d.of gap)]]) ++
      ((Language.epl.darknessWritten d.label).elim [] fun n => ['D' :: dec n]) ++
      (d.label.speed.elim [] fun n => ['S' :: dec (Epl.clampSpeed n)]) ∧
    Tspl.headerLines d =
      ["SIZE ".toList ++ Tspl.mm d.floats d.label.widthMm ++ " mm,".toList ++
        Tspl.mm d.floats d.label.heightMm ++ " mm".toList] ++
      (d.label.gapMm.elim [] fun gap =>
        ["GAP ".toList ++ Tspl.mm d.floats gap ++ " mm,0 mm".toList]) ++
      ((Language.tspl.darknessWritten d.label).elim [] fun n => ["DENSITY ".toList ++ dec n]) ++
      (d.label.speed.elim [] fun n => ["SPEED ".toList ++ dec n.toNat]) ++
      ["CODEPAGE 1252".toList, "CLS".toList] ∧
    Cpcl.headerLines d =
      [Cpcl.words [['!'], ['0'], dec d.label.dpi, dec d.label.dpi, dec (d.of d.label.heightMm),
          ['1']], Cpcl.words ["PAGE-WIDTH".toList, dec (d.of d.label.widthMm)]] ++
      (d.label.speed.elim [] fun n => [Cpcl.words ["SPEED".toList, dec (min n.toNat 5)]]) ++
      ((Language.cpcl.darknessWritten d.label).elim [] fun n =>
        [Cpcl.words ["CONTRAST".toList, dec n]]) := by
  unfold Epl.headerLines Tspl.headerLines Cpcl.headerLines Language.darknessWritten
  cases d.label.darkness <;> exact ⟨rfl, rfl, rfl⟩

end

/-! ### What a label bounds -/

theorem nearest_mono {a b : ℚ} (h : a ≤ b) : Floats.nearest a ≤ Floats.nearest b :=
  Int.toNat_le_toNat (Int.floor_le_floor (add_le_add_left h _))

/-- **A bound on a length is a bound in dots.** -/
theorem dots_le {mm : Single} {bound : ℚ} (hbound : 0 ≤ bound) (h : mm ≤ (bound : Single)) {dpi : ℕ}
    (hdpi : dpi ≤ 1200) : Floats.exact.dots mm dpi ≤ Floats.nearest (bound * 10 / 254 * 1200) := by
  match mm with
  | none => exact Nat.zero_le _
  | some none => exact absurd (WithBot.coe_le_coe.mp h) (WithTop.not_top_le_coe bound)
  | some (some q) =>
    have hq : q ≤ bound := WithTop.coe_le_coe.mp (WithBot.coe_le_coe.mp h)
    have hdpi' : (dpi : ℚ) ≤ 1200 := by exact_mod_cast hdpi
    have hlength : max q 0 ≤ bound := max_le hq hbound
    refine (Nat.min_le_left _ _).trans (nearest_mono ?_)
    have hscaled : max q 0 * 10 / 254 ≤ bound * 10 / 254 := by linarith
    exact mul_le_mul hscaled hdpi' (Nat.cast_nonneg dpi) (by positivity)

theorem nearest_text : Floats.nearest (200 * 10 / 254 * 1200) = 9449 := by decide +kernel

/-- What the checks of a label and of its elements bound. -/
theorem dpi_le {label : LabelDocument} (h : label.validate = .ok ()) : label.dpi ≤ 1200 := by
  unfold LabelDocument.validate at h
  obtain ⟨_, -, h⟩ := Except.bind_eq_ok.mp h
  obtain ⟨_, -, h⟩ := Except.bind_eq_ok.mp h
  obtain ⟨_, hdpi, -⟩ := Except.bind_eq_ok.mp h
  have hchecked := check_eq_ok.mp hdpi
  simp only [Bool.and_eq_true, decide_eq_true_eq] at hchecked
  exact hchecked.2

theorem text_dots_le {label : LabelDocument} (hlabel : label.validate = .ok ()) {e : LabelText}
    (h : (LabelElement.text e).validate = .ok ()) :
    (Dots.mk .exact label).atLeastOne e.heightMm ≤ 9449 := by
  obtain ⟨_, -, h⟩ := Except.bind_eq_ok.mp h
  obtain ⟨_, hheight, -⟩ := Except.bind_eq_ok.mp h
  have hchecked := check_eq_ok.mp hheight
  rw [Single.between, Bool.and_eq_true, decide_eq_true_eq, decide_eq_true_eq] at hchecked
  have hdots := dots_le (by norm_num) hchecked.2 (dpi_le hlabel)
  rw [nearest_text] at hdots
  exact max_le hdots (by norm_num)

theorem module_le {e : LabelBarcode} (h : (LabelElement.barcode e).validate = .ok ()) :
    e.moduleWidth.toNat ≤ 10 := by
  obtain ⟨_, -, h⟩ := Except.bind_eq_ok.mp h
  obtain ⟨_, -, h⟩ := Except.bind_eq_ok.mp h
  obtain ⟨_, hmodule, -⟩ := Except.bind_eq_ok.mp h
  have hchecked := check_eq_ok.mp hmodule
  simp only [Bool.and_eq_true, decide_eq_true_eq] at hchecked
  exact UInt8.le_iff_toNat_le.mp hchecked.2

/-! ### Each operation stays in range -/

namespace Language

variable {language : Language} {label : LabelDocument}

theorem darkness_exact :
    language.darknessArithmetic label = some (language.darknessWritten label) := by
  have hproduct : ∀ (darkness : UInt8) (scale : ℕ), scale ≤ 15 →
      checkedMul 32 darkness.toNat scale = some (darkness.toNat * scale) := by
    intro darkness scale hscale
    have hle : darkness.toNat * scale ≤ 255 * 15 :=
      Nat.mul_le_mul (Nat.le_of_lt_succ darkness.toNat_lt) hscale
    exact checkedMul_of_lt (by omega)
  unfold darknessArithmetic darknessWritten
  cases language <;> cases label.darkness <;> simp [darknessScale, hproduct]

theorem wide_exact {e : LabelBarcode} (h : e.moduleWidth.toNat ≤ 10) :
    wideArithmetic e = some (Epl.kind e.symbology e.moduleWidth).2.toNat ∧
      wideArithmetic e = some (Tspl.kind e.symbology e.moduleWidth).2.toNat := by
  have hproduct : checkedMul 8 e.moduleWidth.toNat 3 = some (e.moduleWidth * 3).toNat := by
    have hmul : (e.moduleWidth * 3).toNat = e.moduleWidth.toNat * 3 := by
      rw [UInt8.toNat_mul]
      exact Nat.mod_eq_of_lt (by simp; omega)
    rw [hmul]
    exact checkedMul_of_lt (by omega)
  unfold wideArithmetic
  cases e.symbology <;> simp [Epl.kind, Tspl.kind, hproduct]

theorem rotation_exact (rotation : UInt16) :
    language.rotationArithmetic rotation = some (if language = .tspl then quarterTurns rotation * 90
      else quarterTurns rotation) := by
  have hlt : quarterTurns rotation < 4 := Nat.mod_lt _ (by omega)
  cases language with
  | tspl => exact checkedMul_of_lt (by omega)
  | zpl | epl | cpcl => rfl

theorem font_exact (hlabel : label.validate = .ok ()) {e : LabelText}
    (h : (LabelElement.text e).validate = .ok ()) :
    language.fontArithmetic ⟨.exact, label⟩ e = some (match language with
      | .zpl => ((e.font.getD "0").toList, 1)
      | .epl => ((Epl.font ⟨.exact, label⟩ e).1.toList, (Epl.font ⟨.exact, label⟩ e).2)
      | .tspl => ((Tspl.font ⟨.exact, label⟩ e).1.toList, (Tspl.font ⟨.exact, label⟩ e).2)
      | .cpcl => Cpcl.font ⟨.exact, label⟩ e) := by
  have hheight := text_dots_le hlabel h
  have hdpi := dpi_le hlabel
  unfold fontArithmetic Epl.font Tspl.font Cpcl.font
  cases e.font with
  | some f => cases language <;> rfl
  | none =>
    cases language with
    | zpl => rfl
    | epl =>
      dsimp only
      rw [pickFont?_eq _ (by decide) hheight hdpi]
      rfl
    | tspl =>
      dsimp only
      rw [pickFont?_eq _ (by decide) hheight hdpi]
      rfl
    | cpcl =>
      have hscaled : Cpcl.baseFontDots * label.dpi ≤ 24 * 1200 := Nat.mul_le_mul_left 24 hdpi
      dsimp only
      rw [checkedMul_of_lt (by omega), Option.bind_eq_bind, Option.bind_some,
        checkedAdd_of_lt (by omega)]
      rfl

/-- **The far corner of a box is computed exactly where it fits.** -/
theorem box_exact {d : Dots} {e : LabelBox} :
    boxArithmetic d e = some (.box (corner d e).1 (corner d e).2) ↔
      d.of e.xMm + d.atLeastOne e.widthMm < 2 ^ 32 ∧
        d.of e.yMm + d.atLeastOne e.heightMm < 2 ^ 32 := by
  unfold boxArithmetic corner
  constructor
  · intro h
    obtain ⟨right, hright, h⟩ := Option.bind_eq_some_iff.mp h
    obtain ⟨bottom, hbottom, -⟩ := Option.bind_eq_some_iff.mp h
    unfold checkedAdd at hright hbottom
    split_ifs at hright hbottom with hx hy
    exact ⟨hx, hy⟩
  · rintro ⟨hx, hy⟩
    rw [checkedAdd_of_lt hx, checkedAdd_of_lt hy, Nat.mod_eq_of_lt hx, Nat.mod_eq_of_lt hy]
    rfl

/-- **The numbers of an element are exact where its box fits.** -/
theorem element_exact (hlabel : label.validate = .ok ()) {e : LabelElement}
    (h : e.validate = .ok ()) :
    language.arithmetic ⟨.exact, label⟩ e = some (language.written ⟨.exact, label⟩ e) ↔
      language.Fits ⟨.exact, label⟩ e := by
  cases e with
  | text e =>
    refine iff_of_true ?_ trivial
    rw [arithmetic, font_exact hlabel h, rotation_exact]
    cases language <;> rfl
  | barcode e =>
    refine iff_of_true ?_ trivial
    obtain ⟨hepl, htspl⟩ := wide_exact (module_le h)
    cases language with
    | zpl | cpcl => rfl
    | epl =>
      show (do let wide ← wideArithmetic e; _) = _
      rw [hepl]
      rfl
    | tspl =>
      show (do let wide ← wideArithmetic e; _) = _
      rw [htspl, rotation_exact]
      rfl
  | box e =>
    cases language with
    | zpl => exact iff_of_true rfl (.inl rfl)
    | epl | tspl | cpcl =>
      refine box_exact.trans ?_
      simp [Fits]
  | qr e | dataMatrix e | raw data => exact iff_of_true rfl trivial

theorem mem_of_mem_reached {accepts : LabelElement → Bool} {elements : List LabelElement}
    {e : LabelElement} (h : e ∈ reached accepts elements) : e ∈ elements := by
  induction elements with
  | nil => exact h
  | cons first rest ih =>
    rw [reached] at h
    rcases List.mem_cons.mp h with rfl | h
    · exact List.mem_cons_self
    · split_ifs at h
      · exact List.mem_cons_of_mem _ (ih h)
      · exact absurd h List.not_mem_nil

theorem exact_iff (encodings : Whatwgs) (hlabel : label.validate = .ok ()) :
    language.Exact encodings label ↔
      ∀ e ∈ language.elementsReached encodings label, language.Fits ⟨.exact, label⟩ e := by
  refine (and_iff_right darkness_exact).trans ?_
  refine forall_congr' fun e => imp_congr_right fun he => ?_
  exact element_exact hlabel (LabelDocument.validate_elements hlabel e (mem_of_mem_reached he))

end Language

/-- **Dot arithmetic.**  For a valid label, no addition and no multiplication of an encoder
overflows, and the numbers that it writes are the exact ones, exactly where the far corner of
every box that it reaches has coordinates below 2^32. -/
theorem arithmetic_exact (language : Language) (encodings : Whatwgs) {label : LabelDocument}
    (hvalid : label.validate = .ok ()) :
    language.Exact encodings label ↔
      ∀ e ∈ language.elementsReached encodings label, language.Fits ⟨.exact, label⟩ e :=
  language.exact_iff encodings hvalid

/-- A label with one box of some width. -/
def boxLabel (width : ℚ) : LabelDocument where
  widthMm := (100 : ℚ)
  heightMm := (50 : ℚ)
  elements := [.box { xMm := (5 : ℚ), yMm := (5 : ℚ), widthMm := (width : Single), heightMm := (20 : ℚ) }]

theorem arithmetic_exact_box : Language.cpcl.Exact onlyWindows1252 (boxLabel 60) := by
  refine (arithmetic_exact .cpcl onlyWindows1252 (by decide +kernel)).mpr ?_
  intro e he
  have hbox : e = .box { xMm := (5 : ℚ), yMm := (5 : ℚ), widthMm := (60 : ℚ), heightMm := (20 : ℚ) } :=
    List.mem_singleton.mp (Language.mem_of_mem_reached he)
  subst hbox
  exact .inr (by decide +kernel)

/-- **A box of a thousand kilometres is valid, and overflows.** -/
theorem box_overflows : (boxLabel 1000000000).validate = .ok () ∧
    ∀ language ∈ [Language.epl, .tspl, .cpcl],
      ¬ language.Exact onlyWindows1252 (boxLabel 1000000000) := by
  have hvalid : (boxLabel 1000000000).validate = .ok () := by decide +kernel
  refine ⟨hvalid, fun language hlanguage hexact => ?_⟩
  have hfits := (language.exact_iff onlyWindows1252 hvalid).mp hexact _ List.mem_cons_self
  rcases hfits with rfl | hfits
  · exact absurd hlanguage (by decide)
  · exact absurd hfits.1 (by decide +kernel)

end KilnPrint
