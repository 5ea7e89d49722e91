/-
Breaking the lines of a text into physical lines.

`layout.rs` is given the function that measures, so that a line is broken against any `fits`.

* `wrapLine`, `breakWord` — **the two loops**, over the words of a line and over the characters of
  a word that is too wide, with what is complete and what is being built as their state;
* `paginate`, `devicePages` — physical lines, cut into pages;
* `Wraps` — what a broken line is meant to be;
* `WrapsWell` — the branches that go wrong are not taken;
* `wrapLine_wraps_iff` — **a line is broken well just when they are not**;
* `inked_devicePages` — nothing but white space is lost between a text and its pages.
-/
import Mathlib.Data.List.DropRight
import Mathlib.Data.List.Induction
import KilnPrint.Model.PageRanges

namespace KilnPrint

namespace Layout

open PageRanges (Blank)

/-- `trim_end`. -/
def trimEnd (text : List Char) : List Char := text.rdropWhile isWhitespace

/-- `split_inclusive`: parts that end at a separator, which they keep. -/
def splitInclusive (separator : Char) : List Char → List (List Char)
  | [] => []
  | c :: rest =>
    if c = separator then [c] :: splitInclusive separator rest
    else
      match splitInclusive separator rest with
      | [] => [[c]]
      | part :: parts => (c :: part) :: parts

/-- A loop: what is complete, and what is being built. -/
structure Loop where
  out : List (List Char) := []
  current : List Char := []

variable (fits : List Char → Bool)

/-- One character of a word that is broken. -/
def breakStep (s : Loop) (c : Char) : Loop :=
  let current := s.current ++ [c]
  -- always keep at least one character per line
  if ¬ fits (trimEnd current) ∧ current.length > 1 then ⟨s.out ++ [s.current], [c]⟩
  else ⟨s.out, current⟩

/-- The loop over the characters of a word. -/
def breaking (word : List Char) : Loop := word.foldl (breakStep fits) {}

def breakWord (word : List Char) : List (List Char) :=
  let s := breaking fits word
  s.out ++ [s.current]

/-- One word of a line. -/
def wrapStep (s : Loop) (word : List Char) : Loop :=
  let candidate := s.current ++ word
  if fits (trimEnd candidate) then { s with current := candidate }
  else
    let out := if s.current ≠ [] then s.out ++ [trimEnd s.current] else s.out
    -- a word that is too long for a line of its own is broken
    if fits (trimEnd word) then ⟨out, word⟩
    else
      let pieces := breakWord fits word
      ⟨out ++ pieces.dropLast, pieces.getLast?.getD []⟩

/-- The loop over the words of a line. -/
def wrapping (words : List (List Char)) : Loop := words.foldl (wrapStep fits) {}

def wrapLine (line : List Char) : List (List Char) :=
  if line = [] ∨ fits line then [line]
  else
    let s := wrapping fits (splitInclusive ' ' line)
    -- what is left of the last line, and one line at least
    if trimEnd s.current ≠ [] ∨ s.out = [] then s.out ++ [trimEnd s.current] else s.out

/-- `chunks`: parts of a length, and a shorter one at the end. -/
def chunks (size : ℕ) (lines : List (List Char)) : List (List (List Char)) :=
  if lines = [] ∨ size = 0 then []
  else lines.take size :: chunks size (lines.drop size)
termination_by lines.length
decreasing_by
  rename_i h
  obtain ⟨hne, hsize⟩ := not_or.mp h
  have hpos := List.length_pos_iff.mpr hne
  rw [List.length_drop]
  omega

/-- Device pages of `linesPerPage` lines at most. -/
def paginate (pages : List (List (List Char))) (linesPerPage : ℕ) : List (List (List Char)) :=
  pages.flatMap fun page => if page = [] then [[]] else chunks (max linesPerPage 1) page

/-- The pages of a text, as `gdi::submit` lays them out. -/
def devicePages (wrap : Bool) (pages : List (List (List Char))) (linesPerPage : ℕ) :
    List (List (List Char)) :=
  paginate (pages.map fun lines => lines.flatMap fun line =>
    if wrap then wrapLine fits line else [line]) linesPerPage

/-! ### What a broken line is meant to be -/

/-- What is left of a text without its white space. -/
def inked (text : List Char) : List Char := text.filter fun c => !isWhitespace c

/-- Every physical line fits, or is a single character; nothing but white space is lost; and no
physical line is empty unless the line is blank. -/
structure Wraps (line : List Char) (lines : List (List Char)) : Prop where
  fits : ∀ l ∈ lines, fits l = true ∨ l.length = 1
  text : inked lines.flatten = inked line
  nonempty : ¬ Blank line → [] ∉ lines

/-- What fits, fits without its end. -/
def PrefixClosed : Prop := ∀ a b, fits (a ++ b) = true → fits a = true

/-! ### The branches that go wrong -/

/-- `c` stays on the line of `current`, or what is cut off before it fits with the white space at
its end, or is a single character. -/
def CutsWell (current : List Char) (c : Char) : Prop :=
  fits (trimEnd (current ++ [c])) = true ∨ current.length ≤ 1 ∨ fits current = true

/-- Wherever the word is cut. -/
def BreaksWell (word : List Char) : Prop :=
  ∀ before c after, word = before ++ c :: after → CutsWell fits (breaking fits before).current c

/-- The word stays on the line of `current`, or that line is not of white space alone, and the word
fits on a line of its own or is broken well. -/
def StepsWell (current word : List Char) : Prop :=
  fits (trimEnd (current ++ word)) = true ∨
    (current = [] ∨ ¬ Blank current) ∧ (fits (trimEnd word) = true ∨ BreaksWell fits word)

/-- At every word of the line. -/
def WrapsWell (line : List Char) : Prop :=
  ∀ before word after, splitInclusive ' ' line = before ++ word :: after →
    StepsWell fits (wrapping fits before).current word

/-- The empty text fits, or the line does not come down to it. -/
def EmptyFits (line : List Char) : Prop := fits [] = true ∨ ¬ (line.length ≤ 1 ∧ Blank line)

example : wrapLine (·.length ≤ 10) "the quick brown fox".toList =
    ["the quick".toList, "brown fox".toList] := by decide +kernel
example : wrapLine (·.length ≤ 1) "a\tb".toList = ["a\t".toList, "b".toList] := by decide +kernel

/-! ### White space at an end -/

theorem trimEnd_eq_nil {text : List Char} : trimEnd text = [] ↔ Blank text :=
  List.rdropWhile_eq_nil_iff

theorem inked_append (a b : List Char) : inked (a ++ b) = inked a ++ inked b :=
  List.filter_append a b

theorem inked_eq_nil {text : List Char} : inked text = [] ↔ Blank text := by
  simp only [inked, List.filter_eq_nil_iff, Bool.not_eq_true', Bool.not_eq_false, Blank]

theorem inked_trimEnd (text : List Char) : inked (trimEnd text) = inked text := by
  have hblank : inked (text.rtakeWhile isWhitespace) = [] :=
    inked_eq_nil.mpr fun c hc => List.mem_rtakeWhile_imp hc
  have hsplit : trimEnd text ++ text.rtakeWhile isWhitespace = text :=
    List.rdropWhile_append_rtakeWhile
  calc inked (trimEnd text)
      = inked (trimEnd text) ++ inked (text.rtakeWhile isWhitespace) := by
        rw [hblank, List.append_nil]
    _ = inked text := by rw [← inked_append, hsplit]

theorem length_trimEnd_le (text : List Char) : (trimEnd text).length ≤ text.length :=
  (List.rdropWhile_prefix _ _).length_le

/-! ### Words -/

theorem flatten_splitInclusive (separator : Char) (text : List Char) :
    (splitInclusive separator text).flatten = text := by
  induction text with
  | nil => rfl
  | cons c rest ih =>
    rw [splitInclusive]
    split
    · rw [List.flatten_cons, ih]
      rfl
    · split
      · rename_i hparts
        rw [hparts] at ih
        rw [← ih]
        rfl
      · rename_i part parts hparts
        rw [hparts, List.flatten_cons] at ih
        rw [List.flatten_cons, List.cons_append, ih]

/-- What holds wherever a list is cut, of a list with one more element. -/
theorem forall_cut_concat {α : Type} {P : List α → α → Prop} (l : List α) (x : α) :
    (∀ before y after, l ++ [x] = before ++ y :: after → P before y) ↔
      (∀ before y after, l = before ++ y :: after → P before y) ∧ P l x := by
  constructor
  · intro h
    refine ⟨fun before y after heq => h before y (after ++ [x]) ?_, h l x [] rfl⟩
    rw [heq, List.append_assoc, List.cons_append]
  · rintro ⟨hl, hx⟩ before y after heq
    rcases List.eq_nil_or_concat after with rfl | ⟨after', z, rfl⟩
    · obtain ⟨rfl, hy⟩ := List.append_inj' heq rfl
      obtain rfl := (List.cons.inj hy).1
      exact hx
    · rw [List.concat_eq_append, ← List.cons_append, ← List.append_assoc] at heq
      exact hl before y after' (List.append_inj' heq rfl).1

/-! ### Breaking a word -/

section Break

variable {fits : List Char → Bool}

theorem breaking_concat (word : List Char) (c : Char) :
    breaking fits (word ++ [c]) = breakStep fits (breaking fits word) c :=
  List.foldl_concat ..

/-- The two ways of a step. -/
theorem breakStep_cases (fits : List Char → Bool) (s : Loop) (c : Char) :
    (fits (trimEnd (s.current ++ [c])) = true ∨ s.current = []) ∧
        breakStep fits s c = ⟨s.out, s.current ++ [c]⟩ ∨
      fits (trimEnd (s.current ++ [c])) = false ∧ s.current ≠ [] ∧
        breakStep fits s c = ⟨s.out ++ [s.current], [c]⟩ := by
  have hlen : (s.current ++ [c]).length > 1 ↔ s.current ≠ [] := by
    rw [List.length_append, List.length_singleton, ← List.length_pos_iff]
    omega
  simp only [breakStep, hlen]
  by_cases hfits : fits (trimEnd (s.current ++ [c])) = true
  · exact Or.inl ⟨Or.inl hfits, if_neg fun h => h.1 hfits⟩
  · by_cases hcur : s.current = []
    · exact Or.inl ⟨Or.inr hcur, if_neg fun h => h.2 hcur⟩
    · exact Or.inr ⟨Bool.eq_false_iff.mpr hfits, hcur, if_pos ⟨hfits, hcur⟩⟩

/-- What is being built fits without the white space at its end, or is a single character, or
nothing yet. -/
def Built (fits : List Char → Bool) (current : List Char) : Prop :=
  current = [] ∨ fits (trimEnd current) = true ∨ current.length = 1

theorem built_breaking (word : List Char) : Built fits (breaking fits word).current := by
  induction word using List.reverseRecOn with
  | nil => exact Or.inl rfl
  | append_singleton word c ih =>
    rw [breaking_concat]
    rcases breakStep_cases fits (breaking fits word) c with ⟨hfits | hnil, hstep⟩ |
      ⟨-, -, hstep⟩
    · rw [hstep]
      exact Or.inr (Or.inl hfits)
    · rw [hstep, hnil]
      exact Or.inr (Or.inr rfl)
    · rw [hstep]
      exact Or.inr (Or.inr rfl)

/-- Nothing of a word is lost. -/
theorem breaking_text (fits : List Char → Bool) (word : List Char) :
    (breaking fits word).out.flatten ++ (breaking fits word).current = word := by
  induction word using List.reverseRecOn with
  | nil => rfl
  | append_singleton word c ih =>
    rw [breaking_concat]
    rcases breakStep_cases fits (breaking fits word) c with ⟨-, hstep⟩ | ⟨-, -, hstep⟩
    · rw [hstep, ← List.append_assoc, ih]
    · rw [hstep, List.flatten_concat, ih]

/-- A physical line that is as it is meant to be, when the text is not blank. -/
def Good (fits : List Char → Bool) (line : List Char) : Prop :=
  line ≠ [] ∧ (fits line = true ∨ line.length = 1)

theorem forall_good_concat (lines : List (List Char)) (line : List Char) :
    (∀ l ∈ lines ++ [line], Good fits l) ↔ (∀ l ∈ lines, Good fits l) ∧ Good fits line := by
  simp only [List.mem_append, List.mem_singleton, or_imp, forall_and, forall_eq]

/-- The pieces cut off are good just when the word is broken well. -/
theorem breaking_good (word : List Char) :
    (∀ l ∈ (breaking fits word).out, Good fits l) ↔ BreaksWell fits word := by
  induction word using List.reverseRecOn with
  | nil =>
    refine iff_of_true (fun l hl => absurd hl List.not_mem_nil) fun before c after heq => ?_
    exact absurd heq.symm (List.append_ne_nil_of_right_ne_nil _ (List.cons_ne_nil c after))
  | append_singleton word c ih =>
    rw [BreaksWell, forall_cut_concat (P := fun before c =>
      CutsWell fits (breaking fits before).current c), ← BreaksWell, ← ih, breaking_concat]
    rcases breakStep_cases fits (breaking fits word) c with ⟨hstay, hstep⟩ |
      ⟨hcut, hcur, hstep⟩
    · have hwell : CutsWell fits (breaking fits word).current c := by
        rcases hstay with hfits | hnil
        · exact Or.inl hfits
        · exact Or.inr (Or.inl (by rw [hnil]; exact Nat.zero_le 1))
      rw [hstep, and_iff_left hwell]
    · have hpos := List.length_pos_iff.mpr hcur
      have hwell : CutsWell fits (breaking fits word).current c ↔
          Good fits (breaking fits word).current := by
        rw [CutsWell, hcut, Good, and_iff_right hcur]
        constructor
        · rintro (hfits | hlen | hfits)
          · cases hfits
          · exact Or.inr (by omega)
          · exact Or.inl hfits
        · rintro (hfits | hlen)
          · exact Or.inr (Or.inr hfits)
          · exact Or.inr (Or.inl hlen.le)
      rw [hstep, forall_good_concat, hwell]

/-! ### Wrapping a line -/

/-- The physical lines, once what is being built is complete. -/
def flushed (s : Loop) : List (List Char) :=
  if s.current ≠ [] then s.out ++ [trimEnd s.current] else s.out

theorem wrapping_concat (words : List (List Char)) (word : List Char) :
    wrapping fits (words ++ [word]) = wrapStep fits (wrapping fits words) word :=
  List.foldl_concat ..

/-- The three ways of a step. -/
theorem wrapStep_cases (fits : List Char → Bool) (s : Loop) (word : List Char) :
    fits (trimEnd (s.current ++ word)) = true ∧
        wrapStep fits s word = ⟨s.out, s.current ++ word⟩ ∨
      fits (trimEnd (s.current ++ word)) = false ∧ fits (trimEnd word) = true ∧
        wrapStep fits s word = ⟨flushed s, word⟩ ∨
      fits (trimEnd (s.current ++ word)) = false ∧ fits (trimEnd word) = false ∧
        wrapStep fits s word =
          ⟨flushed s ++ (breaking fits word).out, (breaking fits word).current⟩ := by
  simp only [wrapStep, breakWord, List.dropLast_concat, List.getLast?_concat, Option.getD_some]
  cases hstay : fits (trimEnd (s.current ++ word)) with
  | true => exact Or.inl ⟨rfl, if_pos rfl⟩
  | false =>
    cases hword : fits (trimEnd word) with
    | true => exact Or.inr (Or.inl ⟨rfl, rfl, rfl⟩)
    | false => exact Or.inr (Or.inr ⟨rfl, rfl, rfl⟩)

theorem built_wrapping (fits : List Char → Bool) (words : List (List Char)) :
    Built fits (wrapping fits words).current := by
  induction words using List.reverseRecOn with
  | nil => exact Or.inl rfl
  | append_singleton words word ih =>
    rw [wrapping_concat]
    rcases wrapStep_cases fits (wrapping fits words) word with ⟨hfits, hstep⟩ |
      ⟨-, hfits, hstep⟩ | ⟨-, -, hstep⟩
    · rw [hstep]
      exact Or.inr (Or.inl hfits)
    · rw [hstep]
      exact Or.inr (Or.inl hfits)
    · rw [hstep]
      exact built_breaking word

theorem inked_flushed (s : Loop) :
    inked (flushed s).flatten = inked (s.out.flatten ++ s.current) := by
  rw [flushed]
  split
  · rw [List.flatten_concat, inked_append, inked_append, inked_trimEnd]
  · rename_i hcur
    rw [not_not.mp hcur, List.append_nil]

/-- Nothing but white space is lost of a line. -/
theorem wrapping_text (fits : List Char → Bool) (words : List (List Char)) :
    inked ((wrapping fits words).out.flatten ++ (wrapping fits words).current) =
      inked words.flatten := by
  induction words using List.reverseRecOn with
  | nil => rfl
  | append_singleton words word ih =>
    rw [wrapping_concat, List.flatten_concat, inked_append words.flatten, ← ih]
    rcases wrapStep_cases fits (wrapping fits words) word with ⟨-, hstep⟩ |
      ⟨-, -, hstep⟩ | ⟨-, -, hstep⟩
    · rw [hstep, ← List.append_assoc, inked_append _ word]
    · rw [hstep, inked_append, inked_flushed]
    · rw [hstep, List.flatten_append, List.append_assoc, breaking_text fits, inked_append,
        inked_flushed]

theorem flushed_eq_nil {s : Loop} : flushed s = [] ↔ s.current = [] ∧ s.out = [] := by
  rw [flushed]
  split
  · rename_i hcur
    exact iff_of_false (List.append_ne_nil_of_right_ne_nil _ (List.cons_ne_nil _ _))
      fun h => hcur h.1
  · rename_i hcur
    rw [and_iff_right (not_not.mp hcur)]

/-- As long as there is no physical line, all words are being built. -/
theorem wrapping_current {words : List (List Char)} (h : (wrapping fits words).out = []) :
    (wrapping fits words).current = words.flatten := by
  induction words using List.reverseRecOn with
  | nil => rfl
  | append_singleton words word ih =>
    rw [wrapping_concat] at h ⊢
    rw [List.flatten_concat]
    rcases wrapStep_cases fits (wrapping fits words) word with ⟨-, hstep⟩ |
      ⟨-, -, hstep⟩ | ⟨-, -, hstep⟩
    · rw [hstep] at h ⊢
      rw [← ih h]
    · rw [hstep] at h ⊢
      obtain ⟨hcur, hout⟩ := flushed_eq_nil.mp h
      rw [← ih hout, hcur, List.nil_append]
    · rw [hstep] at h ⊢
      obtain ⟨hflushed, hbreak⟩ := List.append_eq_nil_iff.mp h
      obtain ⟨hcur, hout⟩ := flushed_eq_nil.mp hflushed
      have htext := breaking_text fits word
      rw [hbreak] at htext
      rw [← ih hout, hcur, List.nil_append]
      exact htext

/-- Where the empty text fits, blank text makes no physical line. -/
theorem wrapping_blank {words : List (List Char)} (hnil : fits [] = true)
    (h : Blank words.flatten) : (wrapping fits words).out = [] := by
  induction words using List.reverseRecOn with
  | nil => rfl
  | append_singleton words word ih =>
    rw [List.flatten_concat] at h
    have hout := ih fun c hc => h c (List.mem_append_left _ hc)
    have hcur := wrapping_current hout
    rw [wrapping_concat]
    have hfits : fits (trimEnd ((wrapping fits words).current ++ word)) = true := by
      rw [hcur, trimEnd_eq_nil.mpr h]
      exact hnil
    rcases wrapStep_cases fits (wrapping fits words) word with ⟨-, hstep⟩ |
      ⟨hnot, -⟩ | ⟨hnot, -⟩
    · rw [hstep]
      exact hout
    · exact absurd (hfits.symm.trans hnot) nofun
    · exact absurd (hfits.symm.trans hnot) nofun

theorem Built.good {current : List Char} (h : Built fits current) (hblank : ¬ Blank current) :
    Good fits (trimEnd current) := by
  have hne : trimEnd current ≠ [] := fun hnil => hblank (trimEnd_eq_nil.mp hnil)
  refine ⟨hne, ?_⟩
  rcases h with rfl | hfits | hlen
  · exact absurd (fun c hc => absurd hc List.not_mem_nil) hblank
  · exact Or.inl hfits
  · have hle := length_trimEnd_le current
    have hpos := List.length_pos_iff.mpr hne
    exact Or.inr (by omega)

theorem flushed_good {s : Loop} (h : Built fits s.current) :
    (∀ l ∈ flushed s, Good fits l) ↔
      (∀ l ∈ s.out, Good fits l) ∧ (s.current = [] ∨ ¬ Blank s.current) := by
  rw [flushed]
  split
  · rename_i hcur
    rw [forall_good_concat, or_iff_right hcur]
    refine and_congr_right fun _ => ⟨fun hgood hblank => hgood.1 (trimEnd_eq_nil.mpr hblank), h.good⟩
  · rename_i hcur
    rw [and_iff_left (Or.inl (not_not.mp hcur))]

/-- The physical lines made by the words are good just when no branch that goes wrong is taken. -/
theorem wrapping_good (words : List (List Char)) :
    (∀ l ∈ (wrapping fits words).out, Good fits l) ↔
      ∀ before word after, words = before ++ word :: after →
        StepsWell fits (wrapping fits before).current word := by
  induction words using List.reverseRecOn with
  | nil =>
    refine iff_of_true (fun l hl => absurd hl List.not_mem_nil) fun before word after heq => ?_
    exact absurd heq.symm (List.append_ne_nil_of_right_ne_nil _ (List.cons_ne_nil word after))
  | append_singleton words word ih =>
    rw [forall_cut_concat (P := fun before word =>
      StepsWell fits (wrapping fits before).current word), ← ih, wrapping_concat]
    rcases wrapStep_cases fits (wrapping fits words) word with ⟨hstay, hstep⟩ |
      ⟨hnot, hword, hstep⟩ | ⟨hnot, hword, hstep⟩
    · have hwell : StepsWell fits (wrapping fits words).current word := Or.inl hstay
      rw [hstep, and_iff_left hwell]
    · have hwell : StepsWell fits (wrapping fits words).current word ↔
          (wrapping fits words).current = [] ∨ ¬ Blank (wrapping fits words).current := by
        simp only [StepsWell, hnot, hword, Bool.false_eq_true, false_or, true_or, and_true]
      rw [hstep, hwell, flushed_good (built_wrapping fits words)]
    · have hwell : StepsWell fits (wrapping fits words).current word ↔
          ((wrapping fits words).current = [] ∨ ¬ Blank (wrapping fits words).current) ∧
            BreaksWell fits word := by
        simp only [StepsWell, hnot, hword, Bool.false_eq_true, false_or]
      rw [hstep, hwell, ← breaking_good, ← and_assoc, ← flushed_good (built_wrapping fits words)]
      simp only [List.mem_append, or_imp, forall_and]

end Break

/-! ### The physical lines of a line -/

/-- Nothing but white space is lost, whatever fits. -/
theorem inked_wrapLine (fits : List Char → Bool) (line : List Char) :
    inked (wrapLine fits line).flatten = inked line := by
  rw [wrapLine]
  split
  · rw [List.flatten_singleton]
  · have htext := wrapping_text fits (splitInclusive ' ' line)
    rw [flatten_splitInclusive, inked_append] at htext
    dsimp only
    split
    · rw [List.flatten_concat, inked_append, inked_trimEnd, htext]
    · rename_i hdone
      have hblank := inked_eq_nil.mpr (trimEnd_eq_nil.mp (not_not.mp (not_or.mp hdone).1))
      rw [hblank, List.append_nil] at htext
      exact htext

/-- A single character makes no physical line by itself. -/
theorem wrapping_short (fits : List Char → Bool) {line : List Char} (h : line.length ≤ 1) :
    (wrapping fits (splitInclusive ' ' line)).out = [] := by
  match line, h with
  | [], _ => rfl
  | [c], _ =>
    have hwords : splitInclusive ' ' [c] = [[c]] := by
      rw [splitInclusive]
      split
      · rfl
      · rfl
    have hbreak : (breaking fits [c]).out = [] := by
      rcases breakStep_cases fits {} c with ⟨-, hstep⟩ | ⟨-, hcur, -⟩
      · exact congrArg Loop.out hstep
      · exact absurd rfl hcur
    rw [hwords]
    show (wrapStep fits {} [c]).out = []
    rcases wrapStep_cases fits {} [c] with ⟨-, hstep⟩ | ⟨-, -, hstep⟩ | ⟨-, -, hstep⟩
    · rw [hstep]
    · rw [hstep]
      rfl
    · rw [hstep, hbreak]
      rfl

/-- The last state of a line that does not fit: nothing is built just when the line is blank and
there is no physical line, or else something good is. -/
theorem mem_wrapLine {fits : List Char → Bool} {line : List Char}
    (hline : ¬ (line = [] ∨ fits line = true)) {l : List Char} :
    l ∈ wrapLine fits line ↔
      l ∈ (wrapping fits (splitInclusive ' ' line)).out ∨
        Good fits l ∧ l = trimEnd (wrapping fits (splitInclusive ' ' line)).current ∨
        l = [] ∧ Blank line ∧ (wrapping fits (splitInclusive ' ' line)).out = [] := by
  have hbuilt := built_wrapping fits (splitInclusive ' ' line)
  have hcur : (wrapping fits (splitInclusive ' ' line)).out = [] → _ := wrapping_current
  rw [flatten_splitInclusive] at hcur
  rw [wrapLine, if_neg hline]
  dsimp only
  generalize wrapping fits (splitInclusive ' ' line) = s at hbuilt hcur ⊢
  -- whether the last line holds ink, and whether there is a line before it
  by_cases hblank : Blank s.current
  · have htrim := trimEnd_eq_nil.mpr hblank
    by_cases hout : s.out = []
    · rw [if_pos (Or.inr hout), htrim, hout, List.nil_append, List.mem_singleton]
      have hline' : Blank line := hcur hout ▸ hblank
      constructor
      · exact fun hl => Or.inr (Or.inr ⟨hl, hline', rfl⟩)
      · rintro (hl | ⟨-, hl⟩ | ⟨hl, -⟩)
        · cases hl
        · exact hl
        · exact hl
    · rw [if_neg (not_or.mpr ⟨not_not.mpr htrim, hout⟩), htrim]
      constructor
      · exact Or.inl
      · rintro (hl | ⟨hgood, hl⟩ | ⟨-, -, hnil⟩)
        · exact hl
        · exact absurd hl hgood.1
        · exact absurd hnil hout
  · have htrim : trimEnd s.current ≠ [] := fun h => hblank (trimEnd_eq_nil.mp h)
    rw [if_pos (Or.inl htrim), List.mem_append, List.mem_singleton]
    constructor
    · rintro (hl | rfl)
      · exact Or.inl hl
      · exact Or.inr (Or.inl ⟨hbuilt.good hblank, rfl⟩)
    · rintro (hl | ⟨-, hl⟩ | ⟨-, hline', hnil⟩)
      · exact Or.inl hl
      · exact Or.inr hl
      · exact absurd (hcur hnil ▸ hline') hblank

theorem good_of_wraps {fits : List Char → Bool} {line : List Char}
    (hline : ¬ (line = [] ∨ fits line = true)) (h : Wraps fits line (wrapLine fits line)) :
    EmptyFits fits line ∧
      ∀ l ∈ (wrapping fits (splitInclusive ' ' line)).out, Good fits l := by
  refine ⟨?_, fun l hl => ?_⟩
  · by_contra hnot
    obtain ⟨hnil, hlen, hblank⟩ := not_or.mp hnot |>.imp_right not_not.mp
    have hmem : [] ∈ wrapLine fits line :=
      (mem_wrapLine hline).mpr (Or.inr (Or.inr ⟨rfl, hblank, wrapping_short fits hlen⟩))
    rcases h.fits [] hmem with hfit | hone
    · exact hnil hfit
    · cases hone
  · have hmem : l ∈ wrapLine fits line := (mem_wrapLine hline).mpr (Or.inl hl)
    refine ⟨?_, h.fits l hmem⟩
    rintro rfl
    -- where the empty text fits, the words of a blank line make no physical line
    have hnil : fits [] = true := (h.fits [] hmem).resolve_right nofun
    refine h.nonempty (fun hblank => ?_) hmem
    have hout := wrapping_blank hnil ((flatten_splitInclusive ' ' line).symm ▸ hblank)
    rw [hout] at hl
    cases hl

theorem wraps_of_good {fits : List Char → Bool} {line : List Char}
    (hline : ¬ (line = [] ∨ fits line = true)) (hnil : EmptyFits fits line)
    (hgood : ∀ l ∈ (wrapping fits (splitInclusive ' ' line)).out, Good fits l) :
    Wraps fits line (wrapLine fits line) := by
  refine ⟨fun l hl => ?_, inked_wrapLine fits line, fun hblank hl => ?_⟩
  · rcases (mem_wrapLine hline).mp hl with hl | ⟨hl, -⟩ | ⟨rfl, hblank, hout⟩
    · exact (hgood l hl).2
    · exact hl.2
    · have hcur := wrapping_current hout
      have hbuilt := built_wrapping fits (splitInclusive ' ' line)
      rw [flatten_splitInclusive] at hcur
      rw [hcur] at hbuilt
      rcases hbuilt with hempty | hfit | hone
      · exact absurd (Or.inl hempty) hline
      · exact Or.inl (trimEnd_eq_nil.mpr hblank ▸ hfit)
      · exact Or.inl (hnil.resolve_right (not_not.mpr ⟨hone.le, hblank⟩))
  · rcases (mem_wrapLine hline).mp hl with hl | ⟨hl, -⟩ | ⟨-, hblank', -⟩
    · exact (hgood [] hl).1 rfl
    · exact hl.1 rfl
    · exact hblank hblank'

/-- **How a line is broken.** Every physical line fits or is a single character, nothing but white
space is lost, and there is no empty physical line unless the line is blank, just when the line
fits, or no branch that goes wrong is taken and the empty text, to which a blank line comes down,
fits. -/
theorem wrapLine_wraps_iff (fits : List Char → Bool) (line : List Char) :
    Wraps fits line (wrapLine fits line) ↔
      fits line = true ∨ EmptyFits fits line ∧ WrapsWell fits line := by
  by_cases hfits : fits line = true
  · have hlines : wrapLine fits line = [line] := if_pos (Or.inr hfits)
    rw [hlines]
    refine iff_of_true ⟨fun l hl => ?_, ?_, fun hblank hmem => ?_⟩ (Or.inl hfits)
    · exact Or.inl (List.mem_singleton.mp hl ▸ hfits)
    · rw [List.flatten_singleton]
    · exact hblank (List.mem_singleton.mp hmem ▸ PageRanges.blank_nil)
  rw [or_iff_right hfits]
  by_cases hempty : line = []
  · subst hempty
    refine iff_of_false (fun h => ?_) fun h => ?_
    · have hlines : wrapLine fits [] = [[]] := if_pos (Or.inl rfl)
      rcases h.fits [] (hlines ▸ List.mem_singleton_self []) with hnil | hlen
      · exact hfits hnil
      · cases hlen
    · exact h.1.elim hfits fun hnot => hnot ⟨Nat.zero_le 1, PageRanges.blank_nil⟩
  · have hline := not_or.mpr ⟨hempty, hfits⟩
    rw [WrapsWell, ← wrapping_good]
    exact ⟨good_of_wraps hline, fun h => wraps_of_good hline h.1 h.2⟩

/-- Spaces before a word that does not fit with them become a physical line of their own, which is
empty. -/
theorem wrapLine_spaces :
    PrefixClosed (fun text => decide (text.length ≤ 4)) ∧
      wrapLine (fun text => decide (text.length ≤ 4)) " abcd".toList = [[], "abcd".toList] ∧
      ¬ Wraps (fun text => decide (text.length ≤ 4)) " abcd".toList
        (wrapLine (fun text => decide (text.length ≤ 4)) " abcd".toList) := by
  have hlines : wrapLine (fun text => decide (text.length ≤ 4)) " abcd".toList =
      [[], "abcd".toList] := by decide +kernel
  refine ⟨fun a b h => ?_, hlines, fun h => ?_⟩
  · have hlen := of_decide_eq_true h
    rw [List.length_append] at hlen
    exact decide_eq_true (by omega)
  · have hblank : ¬ Blank " abcd".toList := by decide +kernel
    exact h.nonempty hblank (hlines ▸ List.mem_cons_self)

/-! ### Pages -/

theorem flatten_chunks {size : ℕ} (hsize : 0 < size) (lines : List (List Char)) :
    (chunks size lines).flatten = lines := by
  fun_induction chunks size lines with
  | case1 lines h => exact (h.resolve_right hsize.ne').symm
  | case2 lines h ih => rw [List.flatten_cons, ih, List.take_append_drop]

theorem length_of_mem_chunks {size : ℕ} {lines page : List (List Char)}
    (h : page ∈ chunks size lines) : 0 < page.length ∧ page.length ≤ size := by
  fun_induction chunks size lines with
  | case1 lines hdone => cases h
  | case2 lines hmore ih =>
    obtain ⟨hne, hsize⟩ := not_or.mp hmore
    have hpos := List.length_pos_iff.mpr hne
    rcases List.mem_cons.mp h with rfl | h
    · rw [List.length_take]
      omega
    · exact ih h

/-- Pages keep their lines, in order, and none is longer than the device's. -/
theorem paginate_spec (pages : List (List (List Char))) (linesPerPage : ℕ) :
    (paginate pages linesPerPage).flatten = pages.flatten ∧
      ∀ page ∈ paginate pages linesPerPage, page.length ≤ max linesPerPage 1 := by
  have hsize : 0 < max linesPerPage 1 := Nat.lt_of_lt_of_le Nat.one_pos (le_max_right _ _)
  constructor
  · induction pages with
    | nil => rfl
    | cons page pages ih =>
      rw [paginate, List.flatMap_cons, List.flatten_append, List.flatten_cons, ← ih, paginate]
      congr 1
      split
      · rename_i hpage
        rw [hpage]
        rfl
      · exact flatten_chunks hsize page
  · intro page hpage
    obtain ⟨lines, -, hmem⟩ := List.mem_flatMap.mp hpage
    split at hmem
    · rw [List.mem_singleton.mp hmem]
      exact Nat.zero_le _
    · exact (length_of_mem_chunks hmem).2

/-- Nothing but white space is lost between a text and its device pages. -/
theorem inked_devicePages (fits : List Char → Bool) (wrap : Bool)
    (pages : List (List (List Char))) (linesPerPage : ℕ) :
    inked (devicePages fits wrap pages linesPerPage).flatten.flatten =
      inked pages.flatten.flatten := by
  rw [devicePages, (paginate_spec _ linesPerPage).1]
  induction pages with
  | nil => rfl
  | cons lines pages ih =>
    rw [List.map_cons, List.flatten_cons, List.flatten_cons, List.flatten_append,
      List.flatten_append, inked_append, inked_append, ih]
    congr 1
    induction lines with
    | nil => rfl
    | cons line lines ihl =>
      rw [List.flatMap_cons, List.flatten_append, inked_append, ihl, List.flatten_cons,
        inked_append]
      congr 1
      split
      · exact inked_wrapLine fits line
      · rw [List.flatten_singleton]

end Layout

end KilnPrint
