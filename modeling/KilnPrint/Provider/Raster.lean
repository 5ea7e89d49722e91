/-
Drawing an image in bands.

* `slice?`, `convertRow`, `convertBand?`, `edge?`, `drawBands?` — **the loop of `draw` on the bytes
  of its image and its buffer**, which stops where a slice or a sum is out of range;
* `Band` — what is drawn in one turn, `Band.sourceRows` and `Band.destRows` its rows;
* `Band.Converted` — the buffer holds the rows of the image, with red and blue exchanged;
* `convertBand?_eq`, `edge?_eq` — no slice and no sum of a turn is out of range;
* `draw_tiles` — **the bands take the rows of the image in their order, and their strips the rows
  of the destination, until one is refused or all are drawn**.

The size of a band and the edges of its strip are those of `Windows.bandRows` and
`Windows.bandEdge`.  Whether a strip is drawn is an answer of the system.
-/
import Mathlib.Data.List.Infix
import KilnPrint.Provider.Windows

namespace KilnPrint

namespace Raster

open Windows (RasterImage bandRows bandEdge)

/-- An image with its pixels, of three bytes each. -/
structure Image extends RasterImage where
  rgb : Bytes

/-- The bytes of a row in the buffer, which are a multiple of four. -/
def stride (width : ℕ) : ℕ := (width * 3 + 3) / 4 * 4

/-- `&bytes[start..stop]`; `none` where it is out of range. -/
def slice? (bytes : Bytes) (start stop : ℕ) : Option Bytes :=
  if start ≤ stop ∧ stop ≤ bytes.length then some ((bytes.drop start).take (stop - start)) else none

/-- Writes pixels over others, with red and blue exchanged. -/
def convertRow : Bytes → Bytes → Bytes
  | _ :: _ :: _ :: dst, s₀ :: s₁ :: s₂ :: src => s₂ :: s₁ :: s₀ :: convertRow dst src
  | dst, _ => dst

/-- Row `r` of the band that begins at `row`. -/
def convertRow? (image : Image) (row : ℕ) (bgr : Bytes) (r : ℕ) : Option Bytes := do
  let src ← slice? image.rgb ((row + r) * image.width * 3) ((row + r + 1) * image.width * 3)
  let start := r * stride image.width
  let dst ← slice? bgr start (start + image.width * 3)
  pure (bgr.take start ++ convertRow dst src ++ bgr.drop (start + image.width * 3))

/-- The rows of a band. -/
def convertBand? (image : Image) (row rows : ℕ) (bgr : Bytes) : Option Bytes :=
  (List.range rows).foldlM (convertRow? image row) bgr

/-- A value of a signed type of some width; `none` where it overflows. -/
def checkedInt (bits : ℕ) (n : ℤ) : Option ℤ :=
  if -2 ^ (bits - 1) ≤ n ∧ n < 2 ^ (bits - 1) then some n else none

/-- An edge of a band, with its product and its sum checked, and its quotient cut to 32 bits. -/
def edge? (image : Image) (dest : Windows.Rect) (r : ℕ) : Option ℤ := do
  let product ← checkedInt 64 (r * dest.height)
  checkedInt 32 (dest.y + (product.tdiv image.height).bmod (2 ^ 32))

/-- What one turn of the loop draws. -/
structure Band where
  row : ℕ
  rows : ℕ
  y₀ : ℤ
  y₁ : ℤ
  bgr : Bytes

/-- The bands from `row` on, as far as they are drawn, and whether all of them are.  `accepts` is
the answer of `StretchDIBits`. -/
def drawBands? (image : Image) (dest : Windows.Rect) (accepts : Band → Bool) (row : ℕ)
    (bgr : Bytes) :
    Option (List Band × Bool) :=
  if row < image.height then do
    let rows := min (bandRows image.toRasterImage) (image.height - row)
    let bgr ← convertBand? image row rows bgr
    let y₀ ← edge? image dest row
    let y₁ ← edge? image dest (row + rows)
    let band : Band := ⟨row, rows, y₀, y₁, bgr⟩
    -- a strip of no height is not drawn
    if y₀ < y₁ ∧ ¬ accepts band then pure ([band], false)
    else do
      let (bands, ok) ← drawBands? image dest accepts (row + rows) bgr
      pure (band :: bands, ok)
  else pure ([], true)
termination_by image.height - row
decreasing_by
  have hrows : 0 < min (bandRows image.toRasterImage) (image.height - row) := by
    unfold bandRows
    omega
  omega

/-- `draw`. -/
def draw? (image : Image) (dest : Windows.Rect) (accepts : Band → Bool) : Option (List Band × Bool) :=
  if image.width = 0 ∨ image.height = 0 then some ([], true)
  else drawBands? image dest accepts 0
    (List.replicate (stride image.width * bandRows image.toRasterImage) 0)

/-! ### What is drawn -/

/-- The rows from one edge to another. -/
def rowsBetween (top bottom : ℤ) : List ℤ :=
  (List.range (bottom - top).toNat).map fun i : ℕ => top + i

namespace Band

/-- The rows of the image that are drawn. -/
def sourceRows (b : Band) : List ℕ := List.range' b.row b.rows

/-- The rows of the destination that are drawn on; none if there is nothing to draw. -/
def destRows (b : Band) : List ℤ := rowsBetween b.y₀ b.y₁

/-- Each byte of a pixel in the buffer is the opposite one of the pixel in the image. -/
def Converted (image : Image) (b : Band) : Prop :=
  ∀ r < b.rows, ∀ x < image.width, ∀ k < 3,
    b.bgr[r * stride image.width + (3 * x + k)]? =
      image.rgb[(b.row + r) * image.width * 3 + (3 * x + (2 - k))]?

end Band

/-- What `draw` has done from `row` on: the bands hold the rows of the image in their order, and
their strips lie one after the other in the destination.  If it comes to the end, these are all
rows; and it ends before only where a strip is refused. -/
structure Drawn (image : Image) (dest : Windows.Rect) (accepts : Band → Bool) (row : ℕ)
    (bands : List Band)
    (ok : Bool) : Prop where
  converted : ∀ b ∈ bands, b.Converted image
  source : bands.flatMap Band.sourceRows <+: List.range' row (image.height - row)
  target : bands.flatMap Band.destRows <+:
    rowsBetween (bandEdge image.toRasterImage dest row) (dest.y + dest.height)
  all : ok = true → bands.flatMap Band.sourceRows = List.range' row (image.height - row) ∧
    bands.flatMap Band.destRows =
      rowsBetween (bandEdge image.toRasterImage dest row) (dest.y + dest.height)
  refused : ok = false ↔ ∃ b ∈ bands, b.y₀ < b.y₁ ∧ accepts b = false

/-! ### Bytes -/

theorem width_le_stride (width : ℕ) : width * 3 ≤ stride width := by
  unfold stride
  omega

theorem slice?_eq (bytes : Bytes) {start stop : ℕ} (hle : start ≤ stop) (hlt : stop ≤ bytes.length) :
    slice? bytes start stop = some ((bytes.drop start).take (stop - start)) := if_pos ⟨hle, hlt⟩

theorem length_convertRow (dst src : Bytes) : (convertRow dst src).length = dst.length := by
  fun_induction convertRow dst src with
  | case1 _ _ _ dst s₀ s₁ s₂ src ih => simp only [List.length_cons, ih]
  | case2 => rfl

/-- The bytes of each pixel are exchanged. -/
theorem getElem?_convertRow {width : ℕ} {dst src : Bytes} (hdst : dst.length = width * 3)
    (hsrc : src.length = width * 3) {x k : ℕ} (hx : x < width) (hk : k < 3) :
    (convertRow dst src)[3 * x + k]? = src[3 * x + (2 - k)]? := by
  induction width generalizing dst src x with
  | zero => exact absurd hx (Nat.not_lt_zero x)
  | succ width ih =>
    obtain ⟨d₀, d₁, d₂, dst, rfl⟩ : ∃ d₀ d₁ d₂ dst', dst = d₀ :: d₁ :: d₂ :: dst' := by
      match dst, hdst with
      | d₀ :: d₁ :: d₂ :: dst, _ => exact ⟨d₀, d₁, d₂, dst, rfl⟩
      | [], h | [_], h | [_, _], h => simp only [List.length_cons, List.length_nil] at h; omega
    obtain ⟨s₀, s₁, s₂, src, rfl⟩ : ∃ s₀ s₁ s₂ src', src = s₀ :: s₁ :: s₂ :: src' := by
      match src, hsrc with
      | s₀ :: s₁ :: s₂ :: src, _ => exact ⟨s₀, s₁, s₂, src, rfl⟩
      | [], h | [_], h | [_, _], h => simp only [List.length_cons, List.length_nil] at h; omega
    rw [convertRow]
    cases x with
    | zero =>
      have hcases : k = 0 ∨ k = 1 ∨ k = 2 := by omega
      rcases hcases with rfl | rfl | rfl <;> rfl
    | succ x =>
      simp only [List.length_cons] at hdst hsrc
      have hdst' : dst.length = width * 3 := by omega
      have hsrc' : src.length = width * 3 := by omega
      have hrest := ih hdst' hsrc' (by omega : x < width)
      have hleft : 3 * (x + 1) + k = 3 * x + k + 3 := by omega
      have hright : 3 * (x + 1) + (2 - k) = 3 * x + (2 - k) + 3 := by omega
      rw [hleft, hright]
      exact hrest

/-! ### One band -/

section Bands

variable {image : Image} (hrgb : image.rgb.length = image.width * image.height * 3)

include hrgb

/-- A row is written over its place in the buffer. -/
theorem convertRow?_eq (row r : ℕ) {bgr : Bytes} (hrow : row + r < image.height)
    (hbgr : (r + 1) * stride image.width ≤ bgr.length) :
    ∃ bgr', convertRow? image row bgr r = some bgr' ∧ bgr'.length = bgr.length ∧
      (∀ i < r * stride image.width, bgr'[i]? = bgr[i]?) ∧
      ∀ x < image.width, ∀ k < 3, bgr'[r * stride image.width + (3 * x + k)]? =
        image.rgb[(row + r) * image.width * 3 + (3 * x + (2 - k))]? := by
  have hstride := width_le_stride image.width
  -- the row of the image is within its bytes, and that of the buffer within the buffer
  have hend : (row + r + 1) * image.width * 3 ≤ image.rgb.length := by
    rw [hrgb, Nat.mul_comm image.width]
    exact Nat.mul_le_mul_right 3 (Nat.mul_le_mul_right _ hrow)
  have hrowBytes : (row + r + 1) * image.width * 3 =
      (row + r) * image.width * 3 + image.width * 3 := by
    rw [Nat.add_mul, Nat.one_mul, Nat.add_mul]
  have hbuffer : r * stride image.width + image.width * 3 ≤ bgr.length := by
    rw [Nat.add_mul, Nat.one_mul] at hbgr
    omega
  have hsrc := slice?_eq image.rgb (hrowBytes ▸ Nat.le_add_right _ _) hend
  have hdst := slice?_eq bgr (Nat.le_add_right (r * stride image.width) _) hbuffer
  have hsrcLength : ((image.rgb.drop ((row + r) * image.width * 3)).take
      ((row + r + 1) * image.width * 3 - (row + r) * image.width * 3)).length = image.width * 3 := by
    rw [List.length_take, List.length_drop]
    omega
  have hdstLength : ((bgr.drop (r * stride image.width)).take
      (r * stride image.width + image.width * 3 - r * stride image.width)).length =
        image.width * 3 := by
    rw [List.length_take, List.length_drop]
    omega
  -- what comes before the row and after it stays
  have hconvert : convertRow? image row bgr r = some (bgr.take (r * stride image.width) ++
      convertRow ((bgr.drop (r * stride image.width)).take
        (r * stride image.width + image.width * 3 - r * stride image.width))
        ((image.rgb.drop ((row + r) * image.width * 3)).take
          ((row + r + 1) * image.width * 3 - (row + r) * image.width * 3)) ++
      bgr.drop (r * stride image.width + image.width * 3)) := by
    rw [convertRow?, hsrc]
    show (slice? bgr _ _).bind _ = _
    rw [hdst]
    rfl
  refine ⟨_, hconvert, ?_, ?_, ?_⟩
  · simp only [List.length_append, length_convertRow, hdstLength, List.length_take, List.length_drop]
    omega
  · intro i hi
    rw [List.append_assoc, List.getElem?_append_left (by rw [List.length_take]; omega),
      List.getElem?_take_of_lt hi]
  · intro x hx k hk
    have htake : (bgr.take (r * stride image.width)).length = r * stride image.width := by
      rw [List.length_take]
      omega
    have hindex : r * stride image.width + (3 * x + k) - (bgr.take (r * stride image.width)).length =
        3 * x + k := by
      rw [htake]
      omega
    have hpixel : 3 * x + k < image.width * 3 := by omega
    rw [List.append_assoc, List.getElem?_append_right (by rw [htake]; exact Nat.le_add_right _ _), hindex,
      List.getElem?_append_left (by rwa [length_convertRow, hdstLength]),
      getElem?_convertRow hdstLength hsrcLength hx hk, List.getElem?_take_of_lt (by omega),
      List.getElem?_drop]

/-- **No slice of a band is out of range**, and its rows are those of the image. -/
theorem convertBand?_eq {row rows : ℕ} {bgr : Bytes} (hrow : row + rows ≤ image.height)
    (hbgr : rows * stride image.width ≤ bgr.length) :
    ∃ bgr', convertBand? image row rows bgr = some bgr' ∧ bgr'.length = bgr.length ∧
      ∀ r < rows, ∀ x < image.width, ∀ k < 3, bgr'[r * stride image.width + (3 * x + k)]? =
        image.rgb[(row + r) * image.width * 3 + (3 * x + (2 - k))]? := by
  induction rows with
  | zero => exact ⟨bgr, rfl, rfl, fun r hr => absurd hr (Nat.not_lt_zero r)⟩
  | succ rows ih =>
    have hstride := width_le_stride image.width
    have hless : rows * stride image.width ≤ (rows + 1) * stride image.width :=
      Nat.mul_le_mul_right _ (Nat.le_succ rows)
    obtain ⟨before, hbefore, hlength, hconverted⟩ := ih (by omega) (hless.trans hbgr)
    obtain ⟨after, hafter, hlength', hkept, hnew⟩ :=
      convertRow?_eq hrgb row rows (by omega) (hlength.symm ▸ hbgr)
    refine ⟨after, ?_, hlength'.trans hlength, fun r hr x hx k hk => ?_⟩
    · rw [convertBand?, List.range_succ, List.foldlM_append]
      rw [convertBand?] at hbefore
      rw [hbefore, Option.bind_eq_bind, Option.bind_some, List.foldlM_cons, hafter]
      rfl
    · rcases Nat.lt_succ_iff_lt_or_eq.mp hr with hlt | rfl
      · -- the rows above stay as they are
        have habove : (r + 1) * stride image.width ≤ rows * stride image.width :=
          Nat.mul_le_mul_right _ hlt
        rw [Nat.add_mul, Nat.one_mul] at habove
        rw [hkept _ (by omega), hconverted r hlt x hx k hk]
      · exact hnew x hx k hk

end Bands

/-! ### Edges -/

theorem checkedInt_eq {bits : ℕ} {n : ℤ} (hlow : -2 ^ (bits - 1) ≤ n) (hhigh : n < 2 ^ (bits - 1)) :
    checkedInt bits n = some n := if_pos ⟨hlow, hhigh⟩

section Edges

variable (image : RasterImage) (dest : Windows.Rect) (hheight : 0 ≤ dest.height)

include hheight

theorem bandEdge_eq (r : ℕ) : bandEdge image dest r = dest.y + r * dest.height / image.height := by
  rw [bandEdge, Int.tdiv_eq_ediv_of_nonneg (Int.mul_nonneg (Int.natCast_nonneg r) hheight)]

theorem bandEdge_zero : bandEdge image dest 0 = dest.y := by
  rw [bandEdge_eq image dest hheight, Int.natCast_zero, Int.zero_mul, Int.zero_ediv, Int.add_zero]

variable (himage : 1 ≤ image.height)

include himage

theorem bandEdge_last : bandEdge image dest image.height = dest.y + dest.height := by
  have hne : (image.height : ℤ) ≠ 0 := by omega
  rw [bandEdge_eq image dest hheight, Int.mul_ediv_cancel_left _ hne]

theorem bandEdge_mono {r r' : ℕ} (h : r ≤ r') : bandEdge image dest r ≤ bandEdge image dest r' := by
  rw [bandEdge_eq image dest hheight, bandEdge_eq image dest hheight]
  have hpos : (0 : ℤ) < image.height := by omega
  have hmul : (r : ℤ) * dest.height ≤ r' * dest.height :=
    Int.mul_le_mul_of_nonneg_right (by exact_mod_cast h) hheight
  exact Int.add_le_add_left (Int.ediv_le_ediv hpos hmul) _

end Edges

/-- **No edge overflows.** -/
theorem edge?_eq {image : Image} {dest : Windows.Rect} {r : ℕ} (hr : r ≤ image.height)
    (himage : 1 ≤ image.height)
    (hsize : image.height < 2 ^ 32) (hheight : 0 ≤ dest.height) (hheight' : dest.height < 2 ^ 31)
    (htop : -2 ^ 31 ≤ dest.y) (hbottom : dest.y + dest.height < 2 ^ 31) :
    edge? image dest r = some (bandEdge image.toRasterImage dest r) := by
  have hnonneg : (0 : ℤ) ≤ r * dest.height := Int.mul_nonneg (Int.natCast_nonneg r) hheight
  have hproduct : (r : ℤ) * dest.height < 2 ^ 63 := by
    have hle : (r : ℤ) * dest.height ≤ (2 ^ 32 - 1) * (2 ^ 31 - 1) :=
      Int.mul_le_mul (by omega) (by omega) hheight (by decide)
    omega
  have hfirst := bandEdge_mono image.toRasterImage dest hheight himage (Nat.zero_le r)
  have hlast := bandEdge_mono image.toRasterImage dest hheight himage hr
  rw [bandEdge_zero image.toRasterImage dest hheight] at hfirst
  rw [bandEdge_last image.toRasterImage dest hheight himage] at hlast
  have hwrap : ((r * dest.height).tdiv image.height).bmod (2 ^ 32) =
      (r * dest.height).tdiv image.height := by
    unfold bandEdge at hfirst hlast
    exact Int.bmod_eq_of_le (by omega) (by omega)
  rw [edge?, checkedInt_eq (by omega) (by omega), Option.bind_eq_bind, Option.bind_some, hwrap]
  exact checkedInt_eq (by unfold bandEdge at hfirst; omega) (by unfold bandEdge at hlast; omega)

/-! ### All bands -/

theorem rowsBetween_append {a b c : ℤ} (hab : a ≤ b) (hbc : b ≤ c) :
    rowsBetween a b ++ rowsBetween b c = rowsBetween a c := by
  obtain ⟨m, hm⟩ := Int.eq_ofNat_of_zero_le (Int.sub_nonneg_of_le hab)
  obtain ⟨n, hn⟩ := Int.eq_ofNat_of_zero_le (Int.sub_nonneg_of_le hbc)
  have hac : (c - a).toNat = m + n := by omega
  rw [rowsBetween, rowsBetween, rowsBetween, hm, hn, hac, List.range_add, List.map_append,
    List.map_map]
  refine congrArg₂ _ rfl (List.map_congr_left fun i _ => ?_)
  show b + (i : ℤ) = a + ((m + i : ℕ) : ℤ)
  push_cast
  omega

theorem rowsBetween_self (a : ℤ) : rowsBetween a a = [] := by
  rw [rowsBetween, Int.sub_self]
  rfl

namespace Drawn

variable {image : Image} {dest : Windows.Rect} {accepts : Band → Bool} {row : ℕ}
  {bands : List Band} {ok : Bool}

/-- Nothing is left to draw. -/
theorem done (hrow : image.height ≤ row)
    (hedge : bandEdge image.toRasterImage dest row = dest.y + dest.height) :
    Drawn image dest accepts row [] true := by
  have hsource : List.range' row (image.height - row) = [] := by
    rw [Nat.sub_eq_zero_of_le hrow]
    rfl
  have htarget : rowsBetween (bandEdge image.toRasterImage dest row) (dest.y + dest.height) = [] := by
    rw [hedge, rowsBetween_self]
  refine ⟨fun b hb => absurd hb List.not_mem_nil, List.nil_prefix, List.nil_prefix,
    fun _ => ⟨hsource.symm, htarget.symm⟩, iff_of_false Bool.true_eq_false.mp ?_⟩
  rintro ⟨b, hb, -⟩
  exact absurd hb List.not_mem_nil

variable {b : Band} (hconverted : b.Converted image) (hrow : b.row = row)
  (hrows : row + b.rows ≤ image.height) (htop : b.y₀ = bandEdge image.toRasterImage dest row)
  (hbottom : b.y₁ = bandEdge image.toRasterImage dest (row + b.rows)) (hle : b.y₀ ≤ b.y₁)
  (hend : b.y₁ ≤ dest.y + dest.height)

include hrow hrows in
theorem source_cons : List.range' row (image.height - row) =
    b.sourceRows ++ List.range' (row + b.rows) (image.height - (row + b.rows)) := by
  have hsplit : image.height - row = b.rows + (image.height - (row + b.rows)) := by omega
  rw [Band.sourceRows, hrow, hsplit, List.range'_append_1]

include htop hbottom hle hend in
theorem target_cons :
    rowsBetween (bandEdge image.toRasterImage dest row) (dest.y + dest.height) =
      b.destRows ++
        rowsBetween (bandEdge image.toRasterImage dest (row + b.rows)) (dest.y + dest.height) := by
  rw [Band.destRows, ← htop, ← hbottom, rowsBetween_append hle hend]

include hconverted hrow hrows htop hbottom hle hend

/-- A strip is refused. -/
theorem stop (hdrawn : b.y₀ < b.y₁) (hrefused : accepts b = false) :
    Drawn image dest accepts row [b] false := by
  refine ⟨fun b' hb => List.mem_singleton.mp hb ▸ hconverted, ?_, ?_, (nomatch ·),
    iff_of_true rfl ⟨b, List.mem_cons_self, hdrawn, hrefused⟩⟩
  · rw [source_cons hrow hrows, List.flatMap_singleton]
    exact List.prefix_append _ _
  · rw [target_cons htop hbottom hle hend, List.flatMap_singleton]
    exact List.prefix_append _ _

/-- A band is drawn, and then the others. -/
theorem cons (haccepts : ¬ (b.y₀ < b.y₁ ∧ ¬ accepts b))
    (h : Drawn image dest accepts (row + b.rows) bands ok) :
    Drawn image dest accepts row (b :: bands) ok := by
  refine ⟨fun b' hb => ?_, ?_, ?_, fun hok => ⟨?_, ?_⟩, h.refused.trans ⟨?_, ?_⟩⟩
  · rcases List.mem_cons.mp hb with rfl | hb
    · exact hconverted
    · exact h.converted b' hb
  · rw [source_cons hrow hrows, List.flatMap_cons, List.prefix_append_right_inj]
    exact h.source
  · rw [target_cons htop hbottom hle hend, List.flatMap_cons, List.prefix_append_right_inj]
    exact h.target
  · rw [source_cons hrow hrows, List.flatMap_cons, (h.all hok).1]
  · rw [target_cons htop hbottom hle hend, List.flatMap_cons, (h.all hok).2]
  · rintro ⟨b', hb, hrefused⟩
    exact ⟨b', List.mem_cons_of_mem _ hb, hrefused⟩
  · rintro ⟨b', hb, hdrawn, hrefused⟩
    rcases List.mem_cons.mp hb with rfl | hb
    · exact absurd ⟨hdrawn, by simp [hrefused]⟩ haccepts
    · exact ⟨b', hb, hdrawn, hrefused⟩

end Drawn

/-- A destination of positive height, whose edges fit in 32 bits. -/
structure Placed (dest : Windows.Rect) : Prop where
  height : 1 ≤ dest.height
  height_lt : dest.height < 2 ^ 31
  top : -2 ^ 31 ≤ dest.y
  bottom : dest.y + dest.height < 2 ^ 31

section Loop

variable {image : Image} {dest : Windows.Rect} (accepts : Band → Bool)
  (hrgb : image.rgb.length = image.width * image.height * 3) (himage : 1 ≤ image.height)
  (hsize : image.height < 2 ^ 32) (hdest : Placed dest)

include hrgb himage hsize hdest

/-- **The loop**: every turn draws a band, and leaves the rest to the next. -/
theorem drawBands?_eq : ∀ (n row : ℕ) (bgr : Bytes), image.height - row = n → row ≤ image.height →
    bgr.length = stride image.width * bandRows image.toRasterImage →
    ∃ bands ok, drawBands? image dest accepts row bgr = some (bands, ok) ∧
      Drawn image dest accepts row bands ok := by
  intro n
  induction n using Nat.strong_induction_on with
  | _ n ih =>
    intro row bgr hn hrow hbgr
    have hheight : 0 ≤ dest.height := by have := hdest.height; omega
    rw [drawBands?]
    by_cases hlt : row < image.height
    · rw [if_pos hlt]
      generalize hrows : min (bandRows image.toRasterImage) (image.height - row) = rows
      have hrange : 1 ≤ rows ∧ rows ≤ bandRows image.toRasterImage ∧ row + rows ≤ image.height := by
        unfold bandRows at hrows ⊢
        omega
      obtain ⟨hone, hband, hend⟩ := hrange
      have hbuffer : rows * stride image.width ≤ bgr.length := by
        rw [hbgr, Nat.mul_comm]
        exact Nat.mul_le_mul_left _ hband
      obtain ⟨bgr', hconvert, hlength, hpixels⟩ := convertBand?_eq hrgb hend hbuffer
      have hedge : ∀ r ≤ image.height,
          edge? image dest r = some (bandEdge image.toRasterImage dest r) := fun r hr =>
        edge?_eq hr himage hsize hheight hdest.height_lt hdest.top hdest.bottom
      have hmono := bandEdge_mono image.toRasterImage dest hheight himage
        (Nat.le_add_right row rows)
      have hlast := bandEdge_mono image.toRasterImage dest hheight himage hend
      rw [bandEdge_last image.toRasterImage dest hheight himage] at hlast
      generalize hb : (⟨row, rows, bandEdge image.toRasterImage dest row,
        bandEdge image.toRasterImage dest (row + rows), bgr'⟩ : Band) = b
      have hconverted : b.Converted image := hb ▸ hpixels
      have hfirst : b.row = row := hb ▸ rfl
      have hcount : b.rows = rows := hb ▸ rfl
      have htop : b.y₀ = bandEdge image.toRasterImage dest row := hb ▸ rfl
      have hbottom : b.y₁ = bandEdge image.toRasterImage dest (row + b.rows) := hb ▸ rfl
      simp only [hconvert, hedge row hrow, hedge (row + rows) hend, Option.bind_eq_bind,
        Option.bind_some, hb]
      subst hcount
      have hle : b.y₀ ≤ b.y₁ := by rwa [htop, hbottom]
      have hbound : b.y₁ ≤ dest.y + dest.height := by rwa [hbottom]
      rw [← htop, ← hbottom]
      by_cases hrefused : b.y₀ < b.y₁ ∧ ¬ accepts b
      · rw [if_pos hrefused]
        exact ⟨[b], false, rfl, .stop hconverted hfirst hend htop hbottom hle hbound hrefused.1
          (Bool.not_eq_true _ ▸ hrefused.2)⟩
      · obtain ⟨bands, ok, hrest, hdrawn⟩ :=
          ih (image.height - (row + b.rows)) (by omega) (row + b.rows) bgr' rfl hend
            (hlength.trans hbgr)
        rw [if_neg hrefused, hrest]
        exact ⟨b :: bands, ok, rfl,
          .cons hconverted hfirst hend htop hbottom hle hbound hrefused hdrawn⟩
    · rw [if_neg hlt]
      obtain rfl : row = image.height := by omega
      exact ⟨[], true, rfl, .done le_rfl (bandEdge_last image.toRasterImage dest hheight himage)⟩

end Loop

/-- **Band drawing tiles the page.**  For an image with all its pixels and a destination whose
edges fit in 32 bits, `draw` stays in range and ends; the bands hold the rows of the image in their
order, with red and blue exchanged, and their strips lie one after the other in the destination.
All rows of both are taken, unless a strip is refused. -/
theorem draw_tiles (image : Image) (dest : Windows.Rect) (accepts : Band → Bool)
    (hrgb : image.rgb.length = image.width * image.height * 3) (hwidth : 1 ≤ image.width)
    (hheight : 1 ≤ image.height) (hsize : image.height < 2 ^ 32) (hdest : Placed dest) :
    ∃ bands ok, draw? image dest accepts = some (bands, ok) ∧
      (∀ b ∈ bands, b.Converted image) ∧
      bands.flatMap Band.sourceRows <+: List.range image.height ∧
      bands.flatMap Band.destRows <+: rowsBetween dest.y (dest.y + dest.height) ∧
      (ok = true → bands.flatMap Band.sourceRows = List.range image.height ∧
        bands.flatMap Band.destRows = rowsBetween dest.y (dest.y + dest.height)) ∧
      (ok = false ↔ ∃ b ∈ bands, b.y₀ < b.y₁ ∧ accepts b = false) := by
  have hnonneg : 0 ≤ dest.height := by have := hdest.height; omega
  obtain ⟨bands, ok, hdraw, hdrawn⟩ := drawBands?_eq accepts hrgb hheight hsize hdest image.height 0
    (List.replicate (stride image.width * bandRows image.toRasterImage) 0) rfl (Nat.zero_le _)
    List.length_replicate
  have hfirst := bandEdge_zero image.toRasterImage dest hnonneg
  obtain ⟨hconverted, hsource, htarget, hall, hrefused⟩ := hdrawn
  rw [hfirst] at htarget hall
  rw [Nat.sub_zero, ← List.range_eq_range'] at hsource hall
  refine ⟨bands, ok, ?_, hconverted, hsource, htarget, hall, hrefused⟩
  rw [draw?, if_neg (by omega)]
  exact hdraw

/-- A band has no more rows than the buffer. -/
theorem rows_le_bandRows {image : Image} {dest : Windows.Rect} {accepts : Band → Bool} {row : ℕ}
    {bgr : Bytes} {bands : List Band} {ok : Bool}
    (h : drawBands? image dest accepts row bgr = some (bands, ok)) :
    ∀ b ∈ bands, b.rows ≤ bandRows image.toRasterImage := by
  induction hn : image.height - row using Nat.strong_induction_on
    generalizing row bgr bands ok with
  | _ n ih =>
    rw [drawBands?] at h
    split_ifs at h with hlt
    · obtain ⟨bgr', -, h⟩ := Option.bind_eq_some_iff.mp h
      obtain ⟨y₀, -, h⟩ := Option.bind_eq_some_iff.mp h
      obtain ⟨y₁, -, h⟩ := Option.bind_eq_some_iff.mp h
      dsimp only at h
      split_ifs at h with hrefused
      · cases h
        intro b hb
        obtain rfl := List.mem_singleton.mp hb
        exact Nat.min_le_left _ _
      · obtain ⟨⟨rest, ok'⟩, hrest, h⟩ := Option.bind_eq_some_iff.mp h
        cases h
        have hrows : 0 < bandRows image.toRasterImage := by
          unfold bandRows
          omega
        rw [List.forall_mem_cons]
        exact ⟨Nat.min_le_left _ _, ih _ (by omega) hrest rfl⟩
    · cases h
      exact fun b hb => absurd hb List.not_mem_nil

/-- A white row above a black one. -/
def twoRows (width : ℕ) : Image :=
  ⟨⟨width, 2⟩, List.replicate (width * 3) 255 ++ List.replicate (width * 3) 0⟩

theorem length_twoRows (width : ℕ) : (twoRows width).rgb.length = width * 2 * 3 := by
  rw [twoRows, List.length_append, List.length_replicate, List.length_replicate]
  omega

/-- Rows so long that each of them is a band. -/
theorem draw_tiles_pixels : ∃ bands,
    draw? (twoRows 3000000) ⟨0, 0, 10, 3⟩ (fun _ => true) = some (bands, true) ∧
      bands.flatMap Band.sourceRows = [0, 1] ∧ bands.flatMap Band.destRows = [0, 1, 2] ∧
      1 < bands.length := by
  obtain ⟨bands, ok, hdraw, -, -, -, hall, hrefused⟩ := draw_tiles (twoRows 3000000) ⟨0, 0, 10, 3⟩
    (fun _ => true) (length_twoRows 3000000) (by decide) (by decide) (by decide)
    ⟨by decide, by decide, by decide, by decide⟩
  have hok : ok = true := by
    by_contra hnot
    obtain ⟨b, -, -, hfalse⟩ := hrefused.mp (Bool.not_eq_true _ ▸ hnot)
    cases hfalse
  subst hok
  obtain ⟨hsource, hdest⟩ := hall rfl
  refine ⟨bands, hdraw, hsource.trans (by decide), hdest.trans (by decide), ?_⟩
  -- a band of one row is not all of them
  have hrows : ∀ b ∈ bands, b.rows ≤ 1 := by
    rw [draw?, if_neg (by decide)] at hdraw
    exact rows_le_bandRows hdraw
  match bands, hsource, hrows with
  | [], hsource, _ => cases hsource
  | [b], hsource, hrows =>
    have hlength := congrArg List.length hsource
    rw [List.flatMap_singleton, Band.sourceRows, List.length_range', List.length_range] at hlength
    have hle := hrows b List.mem_cons_self
    have htwo : b.rows = 2 := hlength
    omega
  | _ :: _ :: bands, _, _ =>
    rw [List.length_cons, List.length_cons]
    omega

end Raster

end KilnPrint
