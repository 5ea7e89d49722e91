/-
Where content is placed on a page.

* `Placement`, `Align`, `Rect`, `place` — **sizing and aligning content in an area**;
* `roundAway` — rounding to the nearest integer, halves away from zero;
* `Rect.Inside`, `Rect.Covers`, `Rect.Centred`, `Proportional` — what a placement is good for;
* `placement_geometry` — **fitted content is inside the area, filled content covers it, content
  that is only shrunk is no larger than it was, proportions are kept up to rounding, and centred
  content has equal margins up to a pixel**.

Sizes are exact rationals and coordinates unbounded integers.
-/
import Mathlib.Algebra.Order.Field.Basic
import Mathlib.Algebra.Order.Floor.Ring
import Mathlib.Data.Rat.Floor
import Mathlib.Tactic.Linarith

namespace KilnPrint

/-- How content is sized onto the page. -/
inductive Placement
  | fit
  | shrinkToFit
  | fill
  | actualSize
  | percent (p : ℚ)

inductive Align
  | center
  | topLeft
  deriving DecidableEq

/-- A rectangle in device pixels. -/
structure Rect where
  x : ℤ
  y : ℤ
  width : ℤ
  height : ℤ
  deriving DecidableEq

/-- `f64::round`. -/
def roundAway (q : ℚ) : ℤ := if 0 ≤ q then ⌊q + 1 / 2⌋ else ⌈q - 1 / 2⌉

/-- The size of content in pixels, of at least one pixel. -/
def naturalSize (contentIn dpi : ℚ) : ℚ := max (contentIn * dpi) 1

/-- The factor that content of a natural size is scaled by. -/
def placementScale (naturalW naturalH : ℚ) (area : Rect) : Placement → ℚ
  | .fit => min (area.width / naturalW) (area.height / naturalH)
  | .shrinkToFit => min (min (area.width / naturalW) (area.height / naturalH)) 1
  | .fill => max (area.width / naturalW) (area.height / naturalH)
  | .actualSize => 1
  | .percent p => p / 100

/-- Where content of a physical size, in inches, lands inside an area. -/
def place (contentIn : ℚ × ℚ) (area : Rect) (dpi : ℚ × ℚ) (placement : Placement) (align : Align) :
    Rect :=
  let naturalW := naturalSize contentIn.1 dpi.1
  let naturalH := naturalSize contentIn.2 dpi.2
  let scale := placementScale naturalW naturalH area placement
  -- one unit at least, however small the content
  let width := max (roundAway (naturalW * scale)) 1
  let height := max (roundAway (naturalH * scale)) 1
  match align with
  | .center =>
    { x := area.x + (area.width - width).tdiv 2
      y := area.y + (area.height - height).tdiv 2
      width, height }
  | .topLeft => { x := area.x, y := area.y, width, height }

/-! ### What a placement is good for -/

namespace Rect

def Inside (r area : Rect) : Prop :=
  area.x ≤ r.x ∧ r.x + r.width ≤ area.x + area.width ∧
    area.y ≤ r.y ∧ r.y + r.height ≤ area.y + area.height

def Covers (r area : Rect) : Prop := area.Inside r

/-- The margins on opposite sides differ by at most one pixel. -/
def Centred (r area : Rect) : Prop :=
  |(r.x - area.x) - (area.x + area.width - (r.x + r.width))| ≤ 1 ∧
    |(r.y - area.y) - (area.y + area.height - (r.y + r.height))| ≤ 1

end Rect

/-- A side is a size, rounded, or the one pixel that a smaller one takes. -/
def IsRounded (size : ℚ) (side : ℤ) : Prop := |(side : ℚ) - size| ≤ 1 / 2 ∨ (side = 1 ∧ size < 1 / 2)

/-- Both sides are scaled by one factor, and rounded. -/
def Proportional (natural : ℚ × ℚ) (r : Rect) : Prop :=
  ∃ scale, IsRounded (natural.1 * scale) r.width ∧ IsRounded (natural.2 * scale) r.height

/-! ### Rounding -/

theorem abs_roundAway_sub (q : ℚ) : |(roundAway q : ℚ) - q| ≤ 1 / 2 := by
  unfold roundAway
  split
  · have hle := Int.floor_le (q + 1 / 2)
    have hlt := Int.lt_floor_add_one (q + 1 / 2)
    rw [abs_le]
    constructor
    · linarith
    · linarith
  · have hle := Int.le_ceil (q - 1 / 2)
    have hlt := Int.ceil_lt_add_one (q - 1 / 2)
    rw [abs_le]
    constructor
    · linarith
    · linarith

theorem roundAway_le {q : ℚ} {n : ℤ} (h : q ≤ n) : roundAway q ≤ n := by
  have hround := (abs_le.mp (abs_roundAway_sub q)).2
  have hlt : (roundAway q : ℚ) < (n + 1 : ℤ) := by
    push_cast
    linarith
  exact Int.lt_add_one_iff.mp (Int.cast_lt.mp hlt)

theorem le_roundAway {q : ℚ} {n : ℤ} (h : (n : ℚ) ≤ q) : n ≤ roundAway q := by
  have hround := (abs_le.mp (abs_roundAway_sub q)).1
  have hlt : ((n - 1 : ℤ) : ℚ) < (roundAway q : ℚ) := by
    push_cast
    linarith
  have hint : n - 1 < roundAway q := Int.cast_lt.mp hlt
  omega

theorem roundAway_mono {a b : ℚ} (ha : 0 ≤ a) (h : a ≤ b) : roundAway a ≤ roundAway b := by
  rw [roundAway, roundAway, if_pos ha, if_pos (ha.trans h)]
  exact Int.floor_le_floor (add_le_add_left h _)

theorem isRounded_side (size : ℚ) : IsRounded size (max (roundAway size) 1) := by
  have hround := abs_roundAway_sub size
  rcases le_or_gt 1 (roundAway size) with hle | hlt
  · rw [max_eq_left hle]
    exact .inl hround
  · rw [max_eq_right hlt.le]
    by_cases hsmall : size < 1 / 2
    · exact .inr ⟨rfl, hsmall⟩
    · -- a half is rounded to one
      exfalso
      have hnonneg : 0 ≤ size := by linarith
      rw [roundAway, if_pos hnonneg] at hlt
      have hone : (1 : ℤ) ≤ ⌊size + 1 / 2⌋ := Int.le_floor.mpr (by push_cast; linarith)
      omega

/-! ### The middle of an area -/

/-- Half a difference, truncated. -/
theorem tdiv_two (d : ℤ) : (0 ≤ d → d.tdiv 2 = d / 2) ∧ (d ≤ 0 → d.tdiv 2 = -(-d / 2)) := by
  constructor
  · exact fun h => Int.tdiv_eq_ediv_of_nonneg h
  · intro h
    have hneg : (-d).tdiv 2 = -d / 2 := Int.tdiv_eq_ediv_of_nonneg (by omega)
    rw [Int.neg_tdiv] at hneg
    omega

theorem centred_margin (start outer inner : ℤ) :
    |(start + (outer - inner).tdiv 2 - start) -
      (start + outer - (start + (outer - inner).tdiv 2 + inner))| ≤ 1 := by
  obtain ⟨hnonneg, hneg⟩ := tdiv_two (outer - inner)
  rw [abs_le]
  rcases le_total 0 (outer - inner) with h | h
  · rw [hnonneg h]
    omega
  · rw [hneg h]
    omega

theorem center_inside (start : ℤ) {outer inner : ℤ} (h : inner ≤ outer) :
    start ≤ start + (outer - inner).tdiv 2 ∧
      start + (outer - inner).tdiv 2 + inner ≤ start + outer := by
  rw [(tdiv_two (outer - inner)).1 (by omega)]
  omega

theorem center_covers (start : ℤ) {outer inner : ℤ} (h : outer ≤ inner) :
    start + (outer - inner).tdiv 2 ≤ start ∧
      start + outer ≤ start + (outer - inner).tdiv 2 + inner := by
  rw [(tdiv_two (outer - inner)).2 (by omega)]
  omega

/-! ### Sizes -/

variable {contentIn dpi : ℚ × ℚ} {area : Rect} {placement : Placement}

theorem one_le_naturalSize (content dpi : ℚ) : 1 ≤ naturalSize content dpi := le_max_right _ _

/-- The width and the height of a placement. -/
theorem place_size (contentIn dpi : ℚ × ℚ) (area : Rect) (placement : Placement) (align : Align) :
    let scale := placementScale (naturalSize contentIn.1 dpi.1) (naturalSize contentIn.2 dpi.2) area
      placement
    (place contentIn area dpi placement align).width =
        max (roundAway (naturalSize contentIn.1 dpi.1 * scale)) 1 ∧
      (place contentIn area dpi placement align).height =
        max (roundAway (naturalSize contentIn.2 dpi.2 * scale)) 1 := by
  cases align <;> exact ⟨rfl, rfl⟩

theorem mul_div_natural {outer : ℤ} (content dpi : ℚ) :
    naturalSize content dpi * (outer / naturalSize content dpi) = outer := by
  have hpos : naturalSize content dpi ≠ 0 := by
    have := one_le_naturalSize content dpi
    linarith
  rw [mul_div_assoc', mul_div_cancel_left₀ _ hpos]

/-- A side is no larger than the area's, where the scale is no larger than their ratio. -/
theorem side_le {outer : ℤ} {content dpi scale : ℚ} (houter : 1 ≤ outer)
    (h : scale ≤ outer / naturalSize content dpi) :
    max (roundAway (naturalSize content dpi * scale)) 1 ≤ outer := by
  refine max_le (roundAway_le ?_) houter
  have hpos : 0 ≤ naturalSize content dpi := zero_le_one.trans (one_le_naturalSize content dpi)
  exact (mul_le_mul_of_nonneg_left h hpos).trans (mul_div_natural content dpi).le

/-- A side is no smaller than the area's, where the scale is no smaller than their ratio. -/
theorem le_side {outer : ℤ} {content dpi scale : ℚ} (h : outer / naturalSize content dpi ≤ scale) :
    outer ≤ max (roundAway (naturalSize content dpi * scale)) 1 := by
  refine le_max_of_le_left (le_roundAway ?_)
  have hpos : 0 ≤ naturalSize content dpi := zero_le_one.trans (one_le_naturalSize content dpi)
  exact (mul_div_natural content dpi).ge.trans (mul_le_mul_of_nonneg_left h hpos)

/-- A side that is only shrunk is no larger than it was. -/
theorem side_le_natural {content dpi scale : ℚ} (hnonneg : 0 ≤ scale) (h : scale ≤ 1) :
    max (roundAway (naturalSize content dpi * scale)) 1 ≤ max (roundAway (content * dpi)) 1 := by
  refine max_le ?_ (le_max_right _ _)
  rcases le_total (content * dpi) 1 with hsmall | hlarge
  · refine le_max_of_le_right (roundAway_le ?_)
    rw [naturalSize, max_eq_right hsmall, one_mul]
    exact_mod_cast h
  · have hpos : 0 ≤ content * dpi := zero_le_one.trans hlarge
    rw [naturalSize, max_eq_left hlarge]
    exact le_max_of_le_left
      (roundAway_mono (mul_nonneg hpos hnonneg) (mul_le_of_le_one_right hpos h))

/-- Content whose sides are no larger than the area's is inside it. -/
theorem inside_of_le {align : Align}
    (hwidth : (place contentIn area dpi placement align).width ≤ area.width)
    (hheight : (place contentIn area dpi placement align).height ≤ area.height) :
    (place contentIn area dpi placement align).Inside area := by
  cases align with
  | center =>
    obtain ⟨hleft, hright⟩ := center_inside area.x hwidth
    obtain ⟨htop, hbottom⟩ := center_inside area.y hheight
    exact ⟨hleft, hright, htop, hbottom⟩
  | topLeft =>
    have hright : area.x + (place contentIn area dpi placement .topLeft).width ≤
        area.x + area.width := by omega
    have hbottom : area.y + (place contentIn area dpi placement .topLeft).height ≤
        area.y + area.height := by omega
    exact ⟨le_rfl, hright, le_rfl, hbottom⟩

/-! ### The modes -/

theorem fit_inside (hwidth : 1 ≤ area.width) (hheight : 1 ≤ area.height)
    (hscale : placementScale (naturalSize contentIn.1 dpi.1) (naturalSize contentIn.2 dpi.2) area
      placement ≤ min (area.width / naturalSize contentIn.1 dpi.1)
        (area.height / naturalSize contentIn.2 dpi.2)) (align : Align) :
    (place contentIn area dpi placement align).Inside area := by
  obtain ⟨hw, hh⟩ := place_size contentIn dpi area placement align
  obtain ⟨hscaleW, hscaleH⟩ := le_min_iff.mp hscale
  refine inside_of_le ?_ ?_
  · rw [hw]
    exact side_le hwidth hscaleW
  · rw [hh]
    exact side_le hheight hscaleH

theorem fill_covers (contentIn dpi : ℚ × ℚ) (area : Rect) :
    (place contentIn area dpi .fill .center).Covers area := by
  obtain ⟨hw, hh⟩ := place_size contentIn dpi area .fill .center
  have hwidth : area.width ≤ (place contentIn area dpi .fill .center).width := by
    rw [hw]
    exact le_side (le_max_left _ _)
  have hheight : area.height ≤ (place contentIn area dpi .fill .center).height := by
    rw [hh]
    exact le_side (le_max_right _ _)
  obtain ⟨hleft, hright⟩ := center_covers area.x hwidth
  obtain ⟨htop, hbottom⟩ := center_covers area.y hheight
  exact ⟨hleft, hright, htop, hbottom⟩

theorem shrink_le_natural (hwidth : 1 ≤ area.width) (hheight : 1 ≤ area.height) (align : Align) :
    (place contentIn area dpi .shrinkToFit align).width ≤ max (roundAway (contentIn.1 * dpi.1)) 1 ∧
      (place contentIn area dpi .shrinkToFit align).height ≤
        max (roundAway (contentIn.2 * dpi.2)) 1 := by
  obtain ⟨hw, hh⟩ := place_size contentIn dpi area .shrinkToFit align
  have hratio : ∀ {outer : ℤ} {content dpi : ℚ}, 1 ≤ outer →
      (0 : ℚ) ≤ outer / naturalSize content dpi := by
    intro outer content dpi houter
    have hpos : (0 : ℚ) ≤ outer := by exact_mod_cast zero_le_one.trans houter
    exact div_nonneg hpos (zero_le_one.trans (one_le_naturalSize content dpi))
  have hnonneg : 0 ≤ placementScale (naturalSize contentIn.1 dpi.1) (naturalSize contentIn.2 dpi.2)
      area .shrinkToFit := le_min (le_min (hratio hwidth) (hratio hheight)) zero_le_one
  rw [hw, hh]
  exact ⟨side_le_natural hnonneg (min_le_right _ _), side_le_natural hnonneg (min_le_right _ _)⟩

theorem place_proportional (contentIn dpi : ℚ × ℚ) (area : Rect) (placement : Placement)
    (align : Align) :
    Proportional (naturalSize contentIn.1 dpi.1, naturalSize contentIn.2 dpi.2)
      (place contentIn area dpi placement align) := by
  obtain ⟨hw, hh⟩ := place_size contentIn dpi area placement align
  refine ⟨placementScale (naturalSize contentIn.1 dpi.1) (naturalSize contentIn.2 dpi.2) area
    placement, ?_, ?_⟩
  · rw [hw]
    exact isRounded_side _
  · rw [hh]
    exact isRounded_side _

theorem place_centred (contentIn dpi : ℚ × ℚ) (area : Rect) (placement : Placement) :
    (place contentIn area dpi placement .center).Centred area :=
  ⟨centred_margin _ _ _, centred_margin _ _ _⟩

/-- **Placement geometry.**  In an area of at least one pixel, fitted content and content that is
only shrunk lie inside the area, and the latter is no larger than its natural size; content that
fills the area and is centred covers it.  In every mode the sides are the natural ones, which are
at least a pixel, scaled by one factor and rounded to at least a pixel; and centred content has
equal margins up to a pixel. -/
theorem placement_geometry (contentIn dpi : ℚ × ℚ) (area : Rect) (hwidth : 1 ≤ area.width)
    (hheight : 1 ≤ area.height) :
    (∀ align, (place contentIn area dpi .fit align).Inside area ∧
      (place contentIn area dpi .shrinkToFit align).Inside area) ∧
    (place contentIn area dpi .fill .center).Covers area ∧
    (∀ align,
      (place contentIn area dpi .shrinkToFit align).width ≤
          max (roundAway (contentIn.1 * dpi.1)) 1 ∧
        (place contentIn area dpi .shrinkToFit align).height ≤
          max (roundAway (contentIn.2 * dpi.2)) 1) ∧
    (∀ placement align,
      Proportional (naturalSize contentIn.1 dpi.1, naturalSize contentIn.2 dpi.2)
        (place contentIn area dpi placement align)) ∧
    ∀ placement, (place contentIn area dpi placement .center).Centred area :=
  ⟨fun align => ⟨fit_inside hwidth hheight le_rfl align,
      fit_inside hwidth hheight (min_le_left _ _) align⟩,
    fill_covers contentIn dpi area, fun align => shrink_le_natural hwidth hheight align,
    fun placement align => place_proportional contentIn dpi area placement align,
    fun placement => place_centred contentIn dpi area placement⟩

/-- A page at 200 dots per inch. -/
def testPage : Rect := ⟨0, 0, 2000, 3000⟩

theorem placement_geometry_page : (place (4, 3) testPage (200, 200) .fit .center).Inside testPage ∧
    (place (4, 3) testPage (200, 200) .fill .center).Covers testPage :=
  have hgeometry := placement_geometry (4, 3) (200, 200) testPage (by decide) (by decide)
  ⟨(hgeometry.1 .center).1, hgeometry.2.1⟩

end KilnPrint
