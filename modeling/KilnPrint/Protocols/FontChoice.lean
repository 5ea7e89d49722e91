/-
The font that is chosen for a text.

* `distance` — how far a font, magnified, is from the height that was asked for;
* `magnification_nearest` — **rounded division gives the multiple that is closest, also where it is
  cut to the range of the magnifications**;
* `Chosen` — a font and a magnification that no others are closer than, and none that are listed
  later as close;
* `pickFont_optimal` — **the font that is picked is the closest one**.
-/
import Mathlib.Data.List.Induction
import KilnPrint.Protocols.DotArithmetic

namespace KilnPrint

/-- How far a font, magnified, is from the target. -/
def distance (target dpi height mult : ℕ) : ℕ := Nat.dist (scaledHeight dpi height * mult) target

/-! ### One font -/

theorem magnification_range (target h : ℕ) {maxMult : ℕ} (hmax : 1 ≤ maxMult) :
    1 ≤ magnification target maxMult h ∧ magnification target maxMult h ≤ maxMult := by
  unfold magnification
  omega

/-- The multiple that rounded division gives is closer than the others. -/
theorem nearest_multiple (target k : ℕ) {h : ℕ} (hh : 1 ≤ h) :
    ((target + h / 2) / h < k → target + h / 2 < h * k) ∧
      (k ≤ (target + h / 2) / h → h * k ≤ target + h / 2) := by
  constructor
  · intro hk
    have hlt := (Nat.div_lt_iff_lt_mul hh).mp hk
    rwa [Nat.mul_comm] at hlt
  · intro hk
    have hle := (Nat.le_div_iff_mul_le hh).mp hk
    rwa [Nat.mul_comm] at hle

/-- **No other magnification in the range comes closer.** -/
theorem magnification_nearest {target maxMult h mult : ℕ} (hh : 1 ≤ h) (hlow : 1 ≤ mult)
    (hhigh : mult ≤ maxMult) :
    Nat.dist (h * magnification target maxMult h) target ≤ Nat.dist (h * mult) target := by
  obtain ⟨habove, hbelow⟩ := nearest_multiple target mult hh
  have hself := (nearest_multiple target (magnification target maxMult h) hh).2
  have hnext := (nearest_multiple target (magnification target maxMult h + 1) hh).1
  have hsucc : h * (magnification target maxMult h + 1) = h * magnification target maxMult h + h :=
    Nat.mul_succ _ _
  rcases lt_trichotomy mult (magnification target maxMult h) with hlt | heq | hgt
  · -- a smaller one is below the target by more
    have hle : h * (mult + 1) ≤ h * magnification target maxMult h := Nat.mul_le_mul_left h hlt
    have hq : magnification target maxMult h ≤ (target + h / 2) / h := by
      unfold magnification at hlt ⊢
      omega
    have hclose := hself hq
    rw [Nat.mul_succ] at hle
    unfold Nat.dist
    omega
  · rw [heq]
  · -- a larger one is above it by more, as this one was not cut to the maximum
    have hle : h * (magnification target maxMult h + 1) ≤ h * mult := Nat.mul_le_mul_left h hgt
    have hq : (target + h / 2) / h < magnification target maxMult h + 1 := by
      unfold magnification at hgt ⊢
      omega
    have hfar := hnext hq
    have hone : magnification target maxMult h = 1 ∨
        magnification target maxMult h ≤ (target + h / 2) / h := by
      unfold magnification
      omega
    rcases hone with hone | hq'
    · rw [hone] at hle hsucc hfar ⊢
      unfold Nat.dist
      omega
    · have hclose := hself hq'
      unfold Nat.dist
      omega

/-! ### A list of fonts -/

/-- A font with a magnification that comes at least as close to the target as every other font with
any magnification, and closer than the ones listed after it. -/
def Chosen (fonts : List (String × ℕ)) (target dpi maxMult : ℕ) (choice : String × ℕ) : Prop :=
  ∃ before height after, fonts = before ++ (choice.1, height) :: after ∧
    1 ≤ choice.2 ∧ choice.2 ≤ maxMult ∧
    (∀ e ∈ fonts, ∀ mult, 1 ≤ mult → mult ≤ maxMult →
      distance target dpi height choice.2 ≤ distance target dpi e.2 mult) ∧
    ∀ e ∈ after, ∀ mult, 1 ≤ mult → mult ≤ maxMult →
      distance target dpi height choice.2 < distance target dpi e.2 mult

/-- The distance of a font with its own magnification. -/
def leastDistance (target dpi maxMult : ℕ) (entry : String × ℕ) : ℕ :=
  distance target dpi entry.2 (magnification target maxMult (scaledHeight dpi entry.2))

theorem leastDistance_le {target dpi maxMult mult : ℕ} (entry : String × ℕ) (hlow : 1 ≤ mult)
    (hhigh : mult ≤ maxMult) :
    leastDistance target dpi maxMult entry ≤ distance target dpi entry.2 mult :=
  magnification_nearest (Nat.le_max_right _ 1) hlow hhigh

theorem tryFont_eq (target dpi maxMult : ℕ) (best : String × ℕ × ℕ) (entry : String × ℕ) :
    tryFont target dpi maxMult best entry =
      if leastDistance target dpi maxMult entry ≤ best.2.2 then
        (entry.1, magnification target maxMult (scaledHeight dpi entry.2),
          leastDistance target dpi maxMult entry)
      else best :=
  rfl

/-- **The running minimum.**  After every font, the best one so far is the last of those that come
closest. -/
theorem foldl_tryFont (target dpi maxMult : ℕ) (first : String) {start : ℕ}
    {fonts : List (String × ℕ)} (hne : fonts ≠ [])
    (hstart : ∀ e ∈ fonts, leastDistance target dpi maxMult e ≤ start) :
    ∃ before entry after, fonts = before ++ entry :: after ∧
      fonts.foldl (tryFont target dpi maxMult) (first, 1, start) =
        (entry.1, magnification target maxMult (scaledHeight dpi entry.2),
          leastDistance target dpi maxMult entry) ∧
      (∀ e ∈ fonts, leastDistance target dpi maxMult entry ≤ leastDistance target dpi maxMult e) ∧
      ∀ e ∈ after, leastDistance target dpi maxMult entry < leastDistance target dpi maxMult e := by
  -- from the end: the last font is taken if it is at least as close as the best before it
  induction fonts using List.reverseRecOn with
  | nil => exact absurd rfl hne
  | append_singleton fonts last ih =>
    rw [List.foldl_append, List.foldl_cons, List.foldl_nil, tryFont_eq]
    by_cases hnil : fonts = []
    · subst hnil
      refine ⟨[], last, [], rfl, if_pos (hstart last List.mem_cons_self), fun e he => ?_,
        fun e he => nomatch he⟩
      rw [List.mem_singleton.mp he]
    · obtain ⟨before, entry, after, hsplit, hfold, hleast, hafter⟩ :=
        ih hnil fun e he => hstart e (List.mem_append_left _ he)
      rw [hfold]
      by_cases hcloser : leastDistance target dpi maxMult last ≤ leastDistance target dpi maxMult entry
      · refine ⟨fonts, last, [], rfl, if_pos hcloser, fun e he => ?_, fun e he => nomatch he⟩
        rcases List.mem_append.mp he with he | he
        · exact hcloser.trans (hleast e he)
        · rw [List.mem_singleton.mp he]
      · have hlast := not_le.mp hcloser
        refine ⟨before, entry, after ++ [last], ?_, if_neg hcloser, fun e he => ?_, fun e he => ?_⟩
        · rw [hsplit, List.append_assoc, List.cons_append]
        · rcases List.mem_append.mp he with he | he
          · exact hleast e he
          · rw [List.mem_singleton.mp he]
            exact hlast.le
        · rcases List.mem_append.mp he with he | he
          · exact hafter e he
          · rw [List.mem_singleton.mp he]
            exact hlast

theorem leastDistance_lt {target dpi : ℕ} (maxMult : ℕ) {e : String × ℕ} (hheight : e.2 ≤ 1000)
    (htarget : target ≤ 9449) (hdpi : dpi ≤ 1200) :
    leastDistance target dpi maxMult e ≤ 2 ^ 32 - 1 := by
  have hscaled := scaledHeight_le hheight hdpi
  have hmagnified := magnified_le target maxMult (scaledHeight dpi e.2)
  unfold leastDistance distance Nat.dist
  omega

/-- **Font choice is optimal.**  For fonts of up to 1000 dots, and a height and a resolution that a
label may have (`text_dots_le`, `dpi_le`), no operation overflows, and what is picked comes
closest to the height; of fonts that are equally close the last one is picked. -/
theorem pickFont_optimal {fonts : List (String × ℕ)} {target dpi maxMult : ℕ} (hne : fonts ≠ [])
    (hheights : ∀ e ∈ fonts, 1 ≤ e.2 ∧ e.2 ≤ 1000) (htarget : target ≤ 9449) (hdpi : dpi ≤ 1200)
    (hmax : 1 ≤ maxMult) :
    pickFont? fonts target dpi maxMult = some (pickFont fonts target dpi maxMult) ∧
      Chosen fonts target dpi maxMult (pickFont fonts target dpi maxMult) := by
  refine ⟨pickFont?_eq maxMult (fun e he => (hheights e he).2) htarget hdpi, ?_⟩
  obtain ⟨before, entry, after, hsplit, hfold, hleast, hafter⟩ :=
    foldl_tryFont target dpi maxMult ((fonts.head?.map Prod.fst).getD "") hne
      fun e he => leastDistance_lt maxMult (hheights e he).2 htarget hdpi
  rw [pickFont_eq_foldl, hfold]
  have hrange := magnification_range target (scaledHeight dpi entry.2) hmax
  refine ⟨before, entry.2, after, hsplit, hrange.1, hrange.2, fun e he mult hlow hhigh => ?_,
    fun e he mult hlow hhigh => ?_⟩
  · exact (hleast e he).trans (leastDistance_le e hlow hhigh)
  · exact (hafter e he).trans_le (leastDistance_le e hlow hhigh)

theorem pickFont_optimal_epl : pickFont? Epl.fonts 50 203 9 = some (pickFont Epl.fonts 50 203 9) ∧
    Chosen Epl.fonts 50 203 9 (pickFont Epl.fonts 50 203 9) :=
  pickFont_optimal (by decide) (by decide) (by decide) (by decide) (by decide)

end KilnPrint
