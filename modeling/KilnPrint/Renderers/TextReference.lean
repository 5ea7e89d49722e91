/-
The RAW form of plain text, against its reference.

* `logicalLines` — the lines of a text: CRLF, CR and LF each break it once, and a single final
  break is ignored;
* `column`, `Detabbed` — the column a device with tab stops reaches, and a line in which
  spaces stand for the tabs;
* `Represents` — the encoding has every character;
* `rawLines_prepare`, `detabbed_iff` — the renderer's lines are the logical lines, each of them
  with its tabs expanded;
* `raw_reference` — **the RAW form is the reference, and an error exactly where a character
  of the text is not in the encoding**.
-/
import KilnPrint.Lib.Pieces
import KilnPrint.Protocols.CodePage
import Mathlib.Data.List.Basic

namespace KilnPrint

/-! ### The reference -/

/-- The text up to each break, and what follows the last one. -/
def splitBreaks : List Char → List (List Char)
  | '\r' :: '\n' :: rest => [] :: splitBreaks rest
  | c :: rest =>
    if c = '\r' ∨ c = '\n' then [] :: splitBreaks rest else (splitBreaks rest).modifyHead (c :: ·)
  | [] => [[]]

/-- The text without its final break. -/
def stripBreak (text : List Char) : List Char :=
  match text.reverse with
  | '\n' :: '\r' :: before => before.reverse
  | c :: before => if c = '\r' ∨ c = '\n' then before.reverse else text
  | [] => text

def logicalLines (text : List Char) : List (List Char) := splitBreaks (stripBreak text)

/-- The column after a character, on a device with tab stops every `width` columns. -/
def advance (width column : ℕ) (c : Char) : ℕ :=
  if c = '\t' then (column / width + 1) * width
  else if c = '\n' ∨ c = formFeedChar then 0
  else column + 1

/-- The column after a text. -/
def column (width : ℕ) (text : List Char) : ℕ := text.foldl (advance width) 0

/-- Spaces stand for the tabs of a line and put each later character in the column it has with
the tabs; a width of zero keeps the tabs. -/
def Detabbed (width : ℕ) (line out : List Char) : Prop :=
  if width = 0 then out = line
  else ∃ fills : List (List Char), fills.flatten = out ∧
    List.Forall₂ (fun c fill => if c = '\t' then ∃ n, fill = List.replicate n ' ' else fill = [c])
      line fills ∧
    ∀ n, column width (fills.take n).flatten = column width (line.take n)

/-- The encoding has the character. -/
def Represents (encoder : TextEncoder) (c : Char) : Prop :=
  match encoder with
  | .utf8 => True
  | .dos table _ => c.toNat < 0x80 ∨ c ∈ table
  | .whatwg w => (w.encode [c]).2 = false

/-- What the library documents of an encoder: it fails where a character of the text cannot be
represented, and blanks and line breaks can. -/
structure Whatwg.CharWise (w : Whatwg) : Prop where
  errors : ∀ text, (w.encode text).2 = text.any fun c => (w.encode [c]).2
  blank : ∀ c ∈ [' ', '\t', '\r', '\n'], (w.encode [c]).2 = false

/-! ### Breaks -/

theorem replaceCrLf_cons {c : Char} {rest : List Char} (h : ¬ (c = '\r' ∧ rest.head? = some '\n')) :
    replaceCrLf (c :: rest) = c :: replaceCrLf rest := by
  cases rest with
  | nil => simp [replaceCrLf]
  | cons d rest => 
    rw [replaceCrLf]
    simpa using h

theorem normaliseNewlines_crlf (rest : List Char) :
    normaliseNewlines ('\r' :: '\n' :: rest) = '\n' :: normaliseNewlines rest := by
  simp [normaliseNewlines, replaceCrLf]

theorem normaliseNewlines_cons {c : Char} {rest : List Char}
    (h : ¬ (c = '\r' ∧ rest.head? = some '\n')) :
    normaliseNewlines (c :: rest) =
      (if c = '\r' then '\n' else c) :: normaliseNewlines rest := by
  simp [normaliseNewlines, replaceCrLf_cons h]

/-- Splitting the normalised text at line feeds splits the text at its breaks. -/
theorem splitOn_normalise (text : List Char) :
    (normaliseNewlines text).splitOn '\n' = splitBreaks text := by
  induction text using splitBreaks.induct with
  | case1 rest ih =>
    rw [normaliseNewlines_crlf, Pieces.splitOn_cons, if_pos rfl, ih, splitBreaks]
  | case2 c rest hcrlf hbreak ih =>
    have hhead : ¬ (c = '\r' ∧ rest.head? = some '\n') := by
      rintro ⟨rfl, hrest⟩
      obtain ⟨rest', rfl⟩ := List.head?_eq_some_iff.mp hrest
      exact hcrlf rest' rfl rfl
    rw [normaliseNewlines_cons hhead, Pieces.splitOn_cons, splitBreaks.eq_2 _ _ hcrlf, if_pos hbreak, ih]
    rw [if_pos]
    rcases hbreak with rfl | rfl <;> rfl
  | case3 c rest hcrlf hbreak ih =>
    have hhead : ¬ (c = '\r' ∧ rest.head? = some '\n') := fun h => hbreak (.inl h.1)
    rw [not_or] at hbreak
    rw [normaliseNewlines_cons hhead, Pieces.splitOn_cons, splitBreaks.eq_2 _ _ hcrlf, if_neg hbreak.1,
      if_neg hbreak.2, if_neg (not_or.mpr hbreak), ih]
  | case4 => rfl

/-- Normalising a text piece by piece. -/
theorem normaliseNewlines_append {a b : List Char}
    (h : ¬ (a.getLast? = some '\r' ∧ b.head? = some '\n')) :
    normaliseNewlines (a ++ b) = normaliseNewlines a ++ normaliseNewlines b := by
  induction a using replaceCrLf.induct with
  | case1 rest ih =>
    have hrest : ¬ (rest.getLast? = some '\r' ∧ b.head? = some '\n') := by
      rintro ⟨hlast, hb⟩
      exact h ⟨by simp [List.getLast?_cons, hlast], hb⟩
    simp only [List.cons_append, normaliseNewlines_crlf, ih hrest]
  | case2 c rest hcrlf ih =>
    have hhead : ¬ (c = '\r' ∧ rest.head? = some '\n') := by
      rintro ⟨rfl, hrest⟩
      obtain ⟨rest', rfl⟩ := List.head?_eq_some_iff.mp hrest
      exact hcrlf rest' rfl rfl
    cases rest with
    | nil =>
      have hb : ¬ (c = '\r' ∧ b.head? = some '\n') := fun hb => h ⟨by simp [hb.1], hb.2⟩
      rw [List.singleton_append, normaliseNewlines_cons hb, normaliseNewlines_cons (by simp)]
      rfl
    | cons d rest =>
      have hrest : ¬ ((d :: rest).getLast? = some '\r' ∧ b.head? = some '\n') := by
        rintro ⟨hlast, hb⟩
        exact h ⟨by rw [List.getLast?_cons_cons, hlast], hb⟩
      have hlong : ¬ (c = '\r' ∧ (d :: rest ++ b).head? = some '\n') := by simpa using hhead
      rw [List.cons_append, normaliseNewlines_cons hlong, normaliseNewlines_cons hhead, ih hrest]
      rfl
  | case3 => rfl

/-- The last character of a normalised text. -/
theorem normaliseNewlines_concat {before : List Char} {c : Char}
    (h : ¬ (before.getLast? = some '\r' ∧ c = '\n')) :
    normaliseNewlines (before ++ [c]) =
      normaliseNewlines before ++ [if c = '\r' then '\n' else c] := by
  rw [normaliseNewlines_append (by simpa using h), normaliseNewlines_cons (by simp)]
  rfl

/-- Stripping the final break strips the final line feed of the normalised text. -/
theorem stripNewline_normalise (text : List Char) :
    stripNewline (normaliseNewlines text) = normaliseNewlines (stripBreak text) := by
  rcases List.eq_nil_or_concat text with rfl | ⟨before, c, rfl⟩
  · rfl
  · rw [List.concat_eq_append]
    -- a final CRLF is one break of two characters
    by_cases hcrlf : before.getLast? = some '\r' ∧ c = '\n'
    · obtain ⟨hlast, rfl⟩ := hcrlf
      obtain ⟨start, rfl⟩ : ∃ start, before = start ++ ['\r'] := List.getLast?_eq_some_iff.mp hlast
      have hstrip : stripBreak (start ++ ['\r'] ++ ['\n']) = start := by simp [stripBreak]
      have hnormal : normaliseNewlines (start ++ ['\r'] ++ ['\n']) =
          normaliseNewlines start ++ ['\n'] := by
        rw [List.append_assoc, normaliseNewlines_append (by simp)]
        rfl
      rw [hstrip, hnormal, stripNewline, if_pos (by simp), List.dropLast_concat]
    · rw [normaliseNewlines_concat hcrlf]
      -- a CR or a LF alone is normalised to the one that is stripped
      by_cases hbreak : c = '\r' ∨ c = '\n'
      · have hstrip : stripBreak (before ++ [c]) = before := by
          simp only [stripBreak, List.reverse_append, List.reverse_singleton, List.singleton_append]
          split
          · next start heq =>
            obtain ⟨rfl, hstart⟩ := List.cons.inj heq
            have hlast : before.getLast? = some '\r' := by
              rw [← List.head?_reverse, hstart]
              rfl
            exact absurd ⟨hlast, rfl⟩ hcrlf
          · next d start _ heq =>
            obtain ⟨rfl, rfl⟩ := List.cons.inj heq
            rw [if_pos hbreak, List.reverse_reverse]
          · next heq => cases heq
        have hfeed : (if c = '\r' then '\n' else c) = '\n' := by
          rcases hbreak with rfl | rfl <;> rfl
        rw [hstrip, hfeed, stripNewline, if_pos (by simp), List.dropLast_concat]
      · rw [not_or] at hbreak
        have hstrip : stripBreak (before ++ [c]) = before ++ [c] := by
          simp only [stripBreak, List.reverse_append, List.reverse_singleton, List.singleton_append]
          split
          · next start heq => exact absurd (List.cons.inj heq).1 hbreak.2
          · next d start _ heq =>
            obtain ⟨rfl, rfl⟩ := List.cons.inj heq
            rw [if_neg (not_or.mpr hbreak)]
          · next heq => cases heq
        rw [hstrip, normaliseNewlines_concat hcrlf, if_neg hbreak.1, stripNewline, if_neg]
        simpa using hbreak.2

/-! ### Tabs -/

/-- A tab moves to the next tab stop. -/
theorem advance_tab {width : ℕ} (hwidth : 0 < width) (column : ℕ) :
    advance width column '\t' = column + (width - column % width) := by
  have hdiv := Nat.div_add_mod column width
  have hmod := Nat.mod_lt column hwidth
  rw [advance, if_pos rfl, Nat.add_mul, Nat.one_mul, Nat.mul_comm]
  omega

/-- The spaces for a character: for a tab, up to the next tab stop. -/
def fill (width column : ℕ) (c : Char) : List Char :=
  if c = '\t' then List.replicate (width - column % width) ' ' else [c]

/-- The renderer expands a text character by character, in the device's columns. -/
theorem expandFrom_cons {width : ℕ} (hwidth : 0 < width) (column : ℕ) (c : Char) (rest : List Char) :
    expandFrom width column (c :: rest) =
      fill width column c ++ expandFrom width (advance width column c) rest := by
  by_cases htab : c = '\t'
  · subst htab
    rw [advance_tab hwidth, expandFrom, if_pos rfl, fill, if_pos rfl]
  · by_cases hreset : c = '\n' ∨ c = formFeedChar
    · simp [expandFrom, fill, advance, htab, hreset]
    · simp [expandFrom, fill, advance, htab, hreset]

theorem expandFrom_append {width : ℕ} (hwidth : 0 < width) (column : ℕ) (a b : List Char) :
    expandFrom width column (a ++ b) =
      expandFrom width column a ++ expandFrom width (a.foldl (advance width) column) b := by
  induction a generalizing column with
  | nil => rfl
  | cons c rest ih =>
    rw [List.cons_append, expandFrom_cons hwidth, expandFrom_cons hwidth, ih, List.append_assoc,
      List.foldl_cons]

/-- A text without tabs stays as it is. -/
theorem expandFrom_of_no_tab (width column : ℕ) {text : List Char} (h : '\t' ∉ text) :
    expandFrom width column text = text := by
  induction text generalizing column with
  | nil => rfl
  | cons c rest ih =>
    rw [List.mem_cons, not_or] at h
    rw [expandFrom, if_neg (Ne.symm h.1)]
    split_ifs <;> rw [ih _ h.2]

theorem expandTabs_eq (text : List Char) (width : ℕ) :
    expandTabs text width = if width = 0 then text else expandFrom width 0 text := by
  unfold expandTabs
  by_cases hwidth : width = 0
  · simp [hwidth]
  · by_cases htab : '\t' ∈ text
    · simp [hwidth, htab]
    · simp [hwidth, htab, expandFrom_of_no_tab]

/-- The last character of an expansion: a space for a tab. -/
theorem getLast?_expandFrom {width : ℕ} (hwidth : 0 < width) (column : ℕ) (text : List Char) :
    (expandFrom width column text).getLast? =
      text.getLast?.map fun c => if c = '\t' then ' ' else c := by
  rcases List.eq_nil_or_concat text with rfl | ⟨before, c, rfl⟩
  · rfl
  · rw [List.concat_eq_append, expandFrom_append hwidth, expandFrom_cons hwidth]
    by_cases htab : c = '\t'
    · have hmod := Nat.mod_lt (before.foldl (advance width) column) hwidth
      have hspaces : width - before.foldl (advance width) column % width ≠ 0 := by omega
      simp [fill, htab, expandFrom, List.getLast?_append, List.getLast?_replicate, hspaces]
    · simp [fill, htab, expandFrom]

/-- Stripping the final line feed and expanding tabs can be done in either order. -/
theorem stripNewline_expandFrom {width : ℕ} (hwidth : 0 < width) (text : List Char) :
    stripNewline (expandFrom width 0 text) = expandFrom width 0 (stripNewline text) := by
  have hlast : (expandFrom width 0 text).getLast? = some '\n' ↔ text.getLast? = some '\n' := by
    rw [getLast?_expandFrom hwidth, Option.map_eq_some_iff]
    constructor
    · rintro ⟨c, hc, hfeed⟩
      split at hfeed
      · cases hfeed
      · rw [hc, hfeed]
    · intro h
      exact ⟨'\n', h, rfl⟩
  unfold stripNewline
  by_cases hfeed : text.getLast? = some '\n'
  · obtain ⟨before, rfl⟩ : ∃ before, text = before ++ ['\n'] := List.getLast?_eq_some_iff.mp hfeed
    rw [if_pos (hlast.mpr hfeed), if_pos hfeed, List.dropLast_concat, expandFrom_append hwidth]
    exact List.dropLast_concat
  · rw [if_neg (fun h => hfeed (hlast.mp h)), if_neg hfeed]

theorem fill_no_feed (width column : ℕ) {c : Char} (h : c ≠ '\n') : '\n' ∉ fill width column c := by
  unfold fill
  split_ifs
  · intro hmem
    exact absurd (List.eq_of_mem_replicate hmem) (by decide)
  · simpa using h.symm

/-- The lines of an expansion: the first one from its column, the others from the margin. -/
theorem splitOn_expandFrom {width : ℕ} (hwidth : 0 < width) (column : ℕ) (text : List Char)
    {first : List Char} {others : List (List Char)} (h : text.splitOn '\n' = first :: others) :
    (expandFrom width column text).splitOn '\n' =
      expandFrom width column first :: others.map (expandFrom width 0) := by
  induction text generalizing column first others with
  | nil =>
    obtain ⟨rfl, rfl⟩ : first = [] ∧ others = [] := by simpa [eq_comm] using h
    rfl
  | cons c rest ih =>
    obtain ⟨head, tail, hrest⟩ : ∃ head tail, rest.splitOn '\n' = head :: tail :=
      List.exists_cons_of_ne_nil (List.splitOn_ne_nil '\n' rest)
    rw [Pieces.splitOn_cons] at h
    rw [expandFrom_cons hwidth]
    by_cases hfeed : c = '\n'
    · subst hfeed
      rw [if_pos rfl, hrest] at h
      obtain ⟨rfl, rfl⟩ := List.cons.inj h
      have hstep : fill width column '\n' ++ expandFrom width (advance width column '\n') rest =
          '\n' :: expandFrom width 0 rest := rfl
      rw [hstep, Pieces.splitOn_cons, if_pos rfl, ih 0 hrest]
      rfl
    · rw [if_neg hfeed, hrest] at h
      obtain ⟨rfl, rfl⟩ := List.cons.inj h
      rw [Pieces.splitOn_append_of_not_mem (fill_no_feed _ _ hfeed), ih _ hrest, expandFrom_cons hwidth]
      rfl

/-! ### The renderer's lines -/

/-- A line as the renderer encodes it. -/
def expandLine (width : ℕ) (line : List Char) : List Char :=
  if width = 0 then line else expandFrom width 0 line

theorem stripNewline_prepare (options : TextOptions) (text : List Char) :
    stripNewline (options.prepare text) =
      expandLine options.tabWidth (normaliseNewlines (stripBreak text)) := by
  rw [TextOptions.prepare, expandTabs_eq, expandLine]
  by_cases hwidth : options.tabWidth = 0
  · rw [if_pos hwidth, if_pos hwidth, stripNewline_normalise]
  · rw [if_neg hwidth, if_neg hwidth, stripNewline_expandFrom (Nat.pos_of_ne_zero hwidth),
      stripNewline_normalise]

/-- **The renderer's lines** are the logical lines, each with its tabs expanded. -/
theorem rawLines_prepare (options : TextOptions) (text : List Char) :
    rawLines (options.prepare text) = (logicalLines text).map (expandLine options.tabWidth) := by
  rw [rawLines, stripNewline_prepare, logicalLines, ← splitOn_normalise]
  by_cases hwidth : options.tabWidth = 0
  · have hline : expandLine options.tabWidth = id := by
      funext line
      rw [expandLine, if_pos hwidth, id_eq]
    rw [hline, List.map_id, id_eq]
  · obtain ⟨first, others, hlines⟩ : ∃ first others,
        (normaliseNewlines (stripBreak text)).splitOn '\n' = first :: others :=
      List.exists_cons_of_ne_nil (List.splitOn_ne_nil '\n' _)
    have hline : expandLine options.tabWidth = expandFrom options.tabWidth 0 := by
      funext line
      rw [expandLine, if_neg hwidth]
    rw [hline, splitOn_expandFrom (Nat.pos_of_ne_zero hwidth) 0 _ hlines, hlines, List.map_cons]

/-- The spaces and characters that stand for the characters of a line. -/
def fills (width : ℕ) : ℕ → List Char → List (List Char)
  | _, [] => []
  | column, c :: rest => fill width column c :: fills width (advance width column c) rest

theorem flatten_fills {width : ℕ} (hwidth : 0 < width) (column : ℕ) (line : List Char) :
    (fills width column line).flatten = expandFrom width column line := by
  induction line generalizing column with
  | nil => rfl
  | cons c rest ih => rw [fills, List.flatten_cons, ih, expandFrom_cons hwidth]

theorem forall₂_fills (width column : ℕ) (line : List Char) :
    List.Forall₂ (fun c fill => if c = '\t' then ∃ n, fill = List.replicate n ' ' else fill = [c])
      line (fills width column line) := by
  induction line generalizing column with
  | nil => exact .nil
  | cons c rest ih =>
    refine .cons ?_ (ih _)
    unfold fill
    split_ifs
    · exact ⟨_, rfl⟩
    · rfl

theorem foldl_spaces (width column n : ℕ) :
    (List.replicate n ' ').foldl (advance width) column = column + n := by
  induction n generalizing column with
  | zero => rfl
  | succ n ih =>
    have hspace : advance width column ' ' = column + 1 := rfl
    rw [List.replicate_succ, List.foldl_cons, ih, hspace]
    omega

/-- What stands for a character ends in the column of the character. -/
theorem foldl_fill {width : ℕ} (hwidth : 0 < width) (column : ℕ) (c : Char) :
    (fill width column c).foldl (advance width) column = advance width column c := by
  unfold fill
  split_ifs with htab
  · rw [foldl_spaces, htab, advance_tab hwidth]
  · rfl

theorem foldl_fills {width : ℕ} (hwidth : 0 < width) (column n : ℕ) (line : List Char) :
    ((fills width column line).take n).flatten.foldl (advance width) column =
      (line.take n).foldl (advance width) column := by
  induction line generalizing column n with
  | nil => simp [fills]
  | cons c rest ih =>
    cases n with
    | zero => rfl
    | succ n =>
      rw [fills, List.take_succ_cons, List.flatten_cons, List.foldl_append, foldl_fill hwidth, ih]
      rfl

/-- Nothing else puts the characters in these columns. -/
theorem eq_fills {width : ℕ} (hwidth : 0 < width) {column : ℕ} {line : List Char}
    {pieces : List (List Char)}
    (hpieces : List.Forall₂
      (fun c fill => if c = '\t' then ∃ n, fill = List.replicate n ' ' else fill = [c]) line pieces)
    (hcolumn : ∀ n, (pieces.take n).flatten.foldl (advance width) column =
      (line.take n).foldl (advance width) column) :
    pieces = fills width column line := by
  induction hpieces generalizing column with
  | nil => rfl
  | @cons c piece rest pieces hpiece _ ih =>
    have hfill : piece = fill width column c := by
      unfold fill
      split_ifs at hpiece ⊢ with htab
      · obtain ⟨n, rfl⟩ := hpiece
        have hone := hcolumn 1
        simp only [List.take_succ_cons, List.take_zero, List.flatten_cons, List.flatten_nil,
          List.append_nil, List.foldl_cons, List.foldl_nil, foldl_spaces, htab,
          advance_tab hwidth] at hone
        rw [Nat.add_left_cancel hone]
      · exact hpiece
    subst hfill
    rw [fills, ih]
    intro n
    have hnext := hcolumn (n + 1)
    rw [List.take_succ_cons, List.take_succ_cons, List.flatten_cons, List.foldl_append,
      foldl_fill hwidth, List.foldl_cons] at hnext
    exact hnext

/-- **The columns are the device's**, and no other line has them. -/
theorem detabbed_iff {width : ℕ} {line out : List Char} :
    Detabbed width line out ↔ out = expandLine width line := by
  unfold Detabbed expandLine
  by_cases hwidth : width = 0
  · rw [if_pos hwidth, if_pos hwidth]
  · rw [if_neg hwidth, if_neg hwidth]
    have hpos : 0 < width := Nat.pos_of_ne_zero hwidth
    constructor
    · rintro ⟨pieces, rfl, hpieces, hcolumn⟩
      rw [eq_fills hpos hpieces hcolumn, flatten_fills hpos]
    · rintro rfl
      exact ⟨fills width 0 line, flatten_fills hpos 0 line, forall₂_fills width 0 line,
        fun n => foldl_fills hpos 0 n line⟩

theorem getLast?_normalise (text : List Char) :
    (normaliseNewlines text).getLast? = text.getLast?.map fun c => if c = '\r' then '\n' else c := by
  rcases List.eq_nil_or_concat text with rfl | ⟨before, c, rfl⟩
  · rfl
  · rw [List.concat_eq_append]
    by_cases hcrlf : before.getLast? = some '\r' ∧ c = '\n'
    · obtain ⟨hlast, rfl⟩ := hcrlf
      obtain ⟨start, rfl⟩ : ∃ start, before = start ++ ['\r'] := List.getLast?_eq_some_iff.mp hlast
      have hnormal : normaliseNewlines (start ++ ['\r'] ++ ['\n']) =
          normaliseNewlines start ++ ['\n'] := by
        rw [List.append_assoc, normaliseNewlines_append (by simp)]
        rfl
      rw [hnormal, List.getLast?_concat, List.getLast?_concat]
      rfl
    · rw [normaliseNewlines_concat hcrlf, List.getLast?_concat, List.getLast?_concat]
      rfl

/-- Expanding a text does not change whether it ends in a form feed. -/
theorem ends_in_form_feed (width : ℕ) (text : List Char) :
    (expandLine width (normaliseNewlines text)).getLast? = some formFeedChar ↔
      text.getLast? = some formFeedChar := by
  have hbreaks : (normaliseNewlines text).getLast? = some formFeedChar ↔
      text.getLast? = some formFeedChar := by
    rw [getLast?_normalise, Option.map_eq_some_iff]
    constructor
    · rintro ⟨c, hc, hfeed⟩
      split at hfeed
      · cases hfeed
      · rw [hc, hfeed]
    · intro h
      exact ⟨formFeedChar, h, rfl⟩
  unfold expandLine
  by_cases hwidth : width = 0
  · rw [if_pos hwidth, hbreaks]
  · rw [if_neg hwidth, getLast?_expandFrom (Nat.pos_of_ne_zero hwidth), ← hbreaks,
      Option.map_eq_some_iff]
    constructor
    · rintro ⟨c, hc, hfeed⟩
      split at hfeed
      · cases hfeed
      · rw [hc, hfeed]
    · intro h
      exact ⟨formFeedChar, h, rfl⟩

theorem addsFormFeed_prepare (options : TextOptions) (text : List Char) :
    addsFormFeed options (options.prepare text) =
      (options.formFeed && (stripBreak text).getLast? != some formFeedChar) := by
  rw [addsFormFeed, stripNewline_prepare, Bool.eq_iff_iff]
  simp only [Bool.and_eq_true, bne_iff_ne, ne_eq, ends_in_form_feed]

/-! ### Characters -/

theorem mem_expandLine {width : ℕ} {line : List Char} {c : Char} (h : c ∈ expandLine width line) :
    c ∈ line ∨ c = ' ' := by
  unfold expandLine at h
  split_ifs at h with hwidth
  · exact .inl h
  · rw [← flatten_fills (Nat.pos_of_ne_zero hwidth), List.mem_flatten] at h
    obtain ⟨piece, hpiece, hc⟩ := h
    obtain ⟨i, hi, rfl⟩ := List.getElem_of_mem hpiece
    have hall := forall₂_fills width 0 line
    have hlength : i < line.length := by rw [hall.length_eq]; exact hi
    have hfill := List.forall₂_iff_get.mp hall |>.2 i hlength hi
    simp only [List.get_eq_getElem] at hfill
    split_ifs at hfill
    · obtain ⟨n, hn⟩ := hfill
      rw [hn] at hc
      exact .inr (List.eq_of_mem_replicate hc)
    · rw [hfill, List.mem_singleton] at hc
      exact .inl (hc ▸ List.getElem_mem hlength)

theorem expandFrom_keeps {width column : ℕ} {line : List Char} {c : Char} (hc : c ∈ line)
    (htab : c ≠ '\t') : c ∈ expandFrom width column line := by
  induction line generalizing column with
  | nil => exact absurd hc List.not_mem_nil
  | cons d rest ih =>
    unfold expandFrom
    rcases List.mem_cons.mp hc with rfl | hc
    · rw [if_neg htab]
      split_ifs <;> exact List.mem_cons_self
    · split_ifs
      · exact List.mem_append_right _ (ih hc)
      · exact List.mem_cons_of_mem _ (ih hc)
      · exact List.mem_cons_of_mem _ (ih hc)

theorem mem_splitBreaks {text line : List Char} {c : Char} (hline : line ∈ splitBreaks text)
    (hc : c ∈ line) : c ∈ text := by
  induction text using splitBreaks.induct generalizing line with
  | case1 rest ih =>
    rw [splitBreaks] at hline
    rcases List.mem_cons.mp hline with rfl | hline
    · exact absurd hc List.not_mem_nil
    · exact List.mem_cons_of_mem _ (List.mem_cons_of_mem _ (ih hline hc))
  | case2 d rest hcrlf hbreak ih =>
    rw [splitBreaks.eq_2 _ _ hcrlf, if_pos hbreak] at hline
    rcases List.mem_cons.mp hline with rfl | hline
    · exact absurd hc List.not_mem_nil
    · exact List.mem_cons_of_mem _ (ih hline hc)
  | case3 d rest hcrlf hbreak ih =>
    rw [splitBreaks.eq_2 _ _ hcrlf, if_neg hbreak] at hline
    cases hrest : splitBreaks rest with
    | nil => simp [hrest] at hline
    | cons first others =>
      rw [hrest, List.modifyHead_cons] at hline
      rcases List.mem_cons.mp hline with rfl | hline
      · rcases List.mem_cons.mp hc with rfl | hc
        · exact List.mem_cons_self
        · exact List.mem_cons_of_mem _ (ih (hrest ▸ List.mem_cons_self) hc)
      · exact List.mem_cons_of_mem _ (ih (hrest ▸ List.mem_cons_of_mem _ hline) hc)
  | case4 =>
    rw [splitBreaks, List.mem_singleton] at hline
    exact hline ▸ hc

/-- Every character of a text but its breaks stands in a line. -/
theorem exists_splitBreaks {text : List Char} {c : Char} (hc : c ∈ text) (hcr : c ≠ '\r')
    (hlf : c ≠ '\n') : ∃ line ∈ splitBreaks text, c ∈ line := by
  induction text using splitBreaks.induct with
  | case1 rest ih =>
    have hrest : c ∈ rest := by simpa [hcr, hlf] using hc
    obtain ⟨line, hline, hmem⟩ := ih hrest
    rw [splitBreaks]
    exact ⟨line, List.mem_cons_of_mem _ hline, hmem⟩
  | case2 d rest hcrlf hbreak ih =>
    have hrest : c ∈ rest := by
      rcases List.mem_cons.mp hc with rfl | hrest
      · exact absurd hbreak (not_or.mpr ⟨hcr, hlf⟩)
      · exact hrest
    obtain ⟨line, hline, hmem⟩ := ih hrest
    rw [splitBreaks.eq_2 _ _ hcrlf, if_pos hbreak]
    exact ⟨line, List.mem_cons_of_mem _ hline, hmem⟩
  | case3 d rest hcrlf hbreak ih =>
    rw [splitBreaks.eq_2 _ _ hcrlf, if_neg hbreak]
    obtain ⟨first, others, hlines⟩ : ∃ first others, splitBreaks rest = first :: others := by
      apply List.exists_cons_of_ne_nil
      rw [← splitOn_normalise]
      exact List.splitOn_ne_nil _ _
    rw [hlines, List.modifyHead_cons]
    rcases List.mem_cons.mp hc with rfl | hrest
    · exact ⟨_, List.mem_cons_self, List.mem_cons_self⟩
    · obtain ⟨line, hline, hmem⟩ := ih hrest
      rw [hlines] at hline
      rcases List.mem_cons.mp hline with rfl | hline
      · exact ⟨_, List.mem_cons_self, List.mem_cons_of_mem _ hmem⟩
      · exact ⟨line, List.mem_cons_of_mem _ hline, hmem⟩
  | case4 => exact absurd hc List.not_mem_nil

/-- The final break is made of break characters. -/
theorem eq_stripBreak_append (text : List Char) :
    ∃ final, text = stripBreak text ++ final ∧ ∀ c ∈ final, c = '\r' ∨ c = '\n' := by
  unfold stripBreak
  split
  · next before h =>
    refine ⟨['\r', '\n'], ?_, by simp⟩
    have := congrArg List.reverse h
    simpa using this
  · next c before _ h =>
    have htext : text = before.reverse ++ [c] := by
      have := congrArg List.reverse h
      simpa using this
    split_ifs with hbreak
    · exact ⟨[c], htext, by simpa using hbreak⟩
    · exact ⟨[], by simp, by simp⟩
  · exact ⟨[], by simp, by simp⟩

/-- A property of blanks and breaks holds of every character of the expanded lines exactly when
it holds of every character of the text. -/
theorem forall_lines {p : Char → Prop} (hblank : ∀ c ∈ [' ', '\t', '\r', '\n'], p c) (width : ℕ)
    (text : List Char) :
    (∀ line ∈ (logicalLines text).map (expandLine width), ∀ c ∈ line, p c) ↔ ∀ c ∈ text, p c := by
  obtain ⟨final, htext, hfinal⟩ := eq_stripBreak_append text
  have hexpand : ∀ {line : List Char} {c : Char}, c ∈ line → c ≠ '\t' → c ∈ expandLine width line := by
    intro line c hc htab
    unfold expandLine
    split_ifs
    · exact hc
    · exact expandFrom_keeps hc htab
  constructor
  · intro h c hc
    by_cases hspecial : c ∈ [' ', '\t', '\r', '\n']
    · exact hblank c hspecial
    · simp only [List.mem_cons, List.not_mem_nil, or_false, not_or] at hspecial
      obtain ⟨-, htab, hcr, hlf⟩ := hspecial
      rw [htext, List.mem_append] at hc
      rcases hc with hc | hc
      · obtain ⟨line, hline, hmem⟩ := exists_splitBreaks hc hcr hlf
        exact h _ (List.mem_map_of_mem hline) c (hexpand hmem htab)
      · rcases hfinal c hc with h | h
        · exact absurd h hcr
        · exact absurd h hlf
  · intro h out hout c hc
    obtain ⟨line, hline, rfl⟩ := List.mem_map.mp hout
    rcases mem_expandLine hc with hc | rfl
    · apply h c
      rw [htext]
      exact List.mem_append_left _ (mem_splitBreaks hline hc)
    · exact hblank ' ' (by simp)

/-! ### Encoding -/

theorem encodeChar_isSome {table : List Char} {c : Char} :
    (∃ b, CodePage.encodeChar table c = some b) ↔ c.toNat < 0x80 ∨ c ∈ table := by
  unfold CodePage.encodeChar
  split_ifs with hascii
  · exact ⟨fun _ => .inl hascii, fun _ => ⟨_, rfl⟩⟩
  · constructor
    · rintro ⟨b, hb⟩
      obtain ⟨i, hi, -⟩ := Option.map_eq_some_iff.mp hb
      obtain ⟨hlt, hget, -⟩ := List.idxOf?_eq_some_iff.mp hi
      exact .inr (hget ▸ List.getElem_mem hlt)
    · rintro (hc | hc)
      · exact absurd hc hascii
      · cases hi : table.idxOf? c with
        | none => exact absurd hc (List.idxOf?_eq_none_iff.mp hi)
        | some i => exact ⟨_, rfl⟩

/-- An encoder fails exactly where it lacks a character. -/
theorem encode_ok_iff {encoder : TextEncoder} (hw : ∀ w, encoder = .whatwg w → w.CharWise)
    {text : List Char} :
    (∃ bytes, encoder.encode text = .ok bytes) ↔ ∀ c ∈ text, Represents encoder c := by
  cases encoder with
  | utf8 => exact ⟨fun _ _ _ => trivial, fun _ => ⟨_, rfl⟩⟩
  | dos table name =>
    simp only [CodePage.dos_eq_ok]
    induction text with
    | nil => exact ⟨fun _ c hc => absurd hc List.not_mem_nil, fun _ => ⟨[], .nil⟩⟩
    | cons c rest ih =>
      rw [List.forall_mem_cons, ← ih]
      constructor
      · rintro ⟨bytes, hb⟩
        cases hb with
        | cons hc hrest => exact ⟨encodeChar_isSome.mp ⟨_, hc⟩, _, hrest⟩
      · rintro ⟨hc, bytes, hrest⟩
        obtain ⟨b, hb⟩ := encodeChar_isSome.mpr hc
        exact ⟨b :: bytes, .cons hb hrest⟩
  | whatwg w =>
    have herrors : (w.encode text).2 = false ↔ ∀ c ∈ text, (w.encode [c]).2 = false := by
      rw [(hw w rfl).errors, List.any_eq_false]
      simp only [Bool.not_eq_true]
    refine Iff.trans ?_ herrors
    constructor
    · rintro ⟨bytes, hb⟩
      rw [whatwg_eq_ok.mp hb]
    · intro h
      exact ⟨(w.encode text).1, whatwg_eq_ok.mpr (Prod.ext rfl h)⟩

theorem represents_blank {encoder : TextEncoder} (hw : ∀ w, encoder = .whatwg w → w.CharWise) :
    ∀ c ∈ [' ', '\t', '\r', '\n'], Represents encoder c := by
  cases encoder with
  | utf8 => exact fun _ _ => trivial
  | dos table name =>
    intro c hc
    simp only [List.mem_cons, List.not_mem_nil, or_false] at hc
    rcases hc with rfl | rfl | rfl | rfl <;> exact .inl (by decide)
  | whatwg w => exact (hw w rfl).blank

theorem mapM_ok {α β ε : Type} {f : α → Except ε β} {l : List α}
    (h : ∀ a ∈ l, ∃ b, f a = .ok b) : ∃ bs, l.mapM f = .ok bs := by
  induction l with
  | nil => exact ⟨[], rfl⟩
  | cons a rest ih =>
    obtain ⟨b, hb⟩ := h a List.mem_cons_self
    obtain ⟨bs, hbs⟩ := ih fun a ha => h a (List.mem_cons_of_mem _ ha)
    refine ⟨b :: bs, ?_⟩
    rw [List.mapM_cons, hb, hbs]
    rfl

theorem forLabel_charWise {encodings : Whatwgs}
    (hencodings : ∀ name w, encodings name = some w → w.CharWise) {label : String}
    {encoder : TextEncoder} (h : TextEncoder.forLabel encodings label = .ok encoder) :
    ∀ w, encoder = .whatwg w → w.CharWise := by
  rintro w rfl
  unfold TextEncoder.forLabel at h
  dsimp only at h
  split_ifs at h
  · cases Except.ok.inj h
  · cases Except.ok.inj h
  · cases Except.ok.inj h
  · cases Except.ok.inj h
  · split at h
    · next w' hfound =>
      obtain rfl := TextEncoder.whatwg.inj (Except.ok.inj h)
      exact hencodings _ _ hfound
    · cases h

/-! ### The reference -/

/-- What the RAW form of a text is: the encoding of each logical line without its tabs, each
followed by the terminator, and a form feed where one is asked for and the text does not end
in one. -/
def RawReference (encoder : TextEncoder) (options : TextOptions) (text : List Char)
    (bytes : Bytes) : Prop :=
  ∃ (lines : List (List Char)) (encoded : List Bytes),
    List.Forall₂ (Detabbed options.tabWidth) (logicalLines text) lines ∧
    List.Forall₂ (fun line out => encoder.encode line = .ok out) lines encoded ∧
    bytes = (encoded.flatMap fun out => out ++ options.lineEnding.asBytes) ++
      if options.formFeed = true ∧ (stripBreak text).getLast? ≠ some formFeedChar then [0x0C] else []

theorem joinLines_prepare (options : TextOptions) (text : List Char) (encoded : List Bytes) :
    joinLines options (options.prepare text) encoded =
      (encoded.flatMap fun out => out ++ options.lineEnding.asBytes) ++
        if options.formFeed = true ∧ (stripBreak text).getLast? ≠ some formFeedChar then [0x0C]
        else [] := by
  rw [joinLines, addsFormFeed_prepare]
  simp only [Bool.and_eq_true, bne_iff_ne, ne_eq]

/-- The renderer's bytes are the reference, and every reference is the renderer's bytes. -/
theorem renderRaw_iff {encodings : Whatwgs} {options : TextOptions} {encoder : TextEncoder}
    (hencoder : TextEncoder.forLabel encodings options.encoding = .ok encoder) (text : List Char)
    (bytes : Bytes) :
    renderRaw encodings (options.prepare text) options = .ok bytes ↔
      RawReference encoder options text bytes := by
  rw [renderRaw_eq_ok, rawLines_prepare]
  constructor
  · rintro ⟨encoder', encoded, hencoder', hencoded, rfl⟩
    obtain rfl := Except.ok.inj (hencoder.symm.trans hencoder')
    refine ⟨_, encoded, ?_, mapM_eq_ok_iff.mp hencoded, joinLines_prepare _ _ _⟩
    rw [List.forall₂_map_right_iff]
    exact List.forall₂_same.mpr fun line _ => detabbed_iff.mpr rfl
  · rintro ⟨lines, encoded, hlines, hencoded, rfl⟩
    have hdetabbed : lines = (logicalLines text).map (expandLine options.tabWidth) := by
      rw [← List.forall₂_eq_eq_eq, List.forall₂_map_right_iff]
      exact hlines.flip.imp fun _ _ h => detabbed_iff.mp h
    subst hdetabbed
    exact ⟨encoder, encoded, hencoder, mapM_eq_ok_iff.mpr hencoded, joinLines_prepare _ _ _⟩

/-- The renderer refuses exactly the texts with a character that the encoding lacks. -/
theorem renderRaw_ok_iff {encodings : Whatwgs}
    (hencodings : ∀ name w, encodings name = some w → w.CharWise) {options : TextOptions}
    {encoder : TextEncoder}
    (hencoder : TextEncoder.forLabel encodings options.encoding = .ok encoder) (text : List Char) :
    (∃ bytes, renderRaw encodings (options.prepare text) options = .ok bytes) ↔
      ∀ c ∈ text, Represents encoder c := by
  have hw := forLabel_charWise hencodings hencoder
  rw [← forall_lines (represents_blank hw) options.tabWidth]
  constructor
  · rintro ⟨bytes, h⟩ line hline
    rw [renderRaw_eq_ok, rawLines_prepare] at h
    obtain ⟨encoder', encoded, hencoder', hencoded, -⟩ := h
    obtain rfl := Except.ok.inj (hencoder.symm.trans hencoder')
    exact (encode_ok_iff hw).mp (forall₂_exists (mapM_eq_ok_iff.mp hencoded) line hline)
  · intro h
    obtain ⟨encoded, hencoded⟩ := mapM_ok fun line hline => (encode_ok_iff hw).mpr (h line hline)
    refine ⟨_, renderRaw_eq_ok.mpr ⟨encoder, encoded, hencoder, ?_, rfl⟩⟩
    rw [rawLines_prepare]
    exact hencoded

/-- **The RAW form of a text is its reference**: for every text and all options of RAW mode with
an accepted encoding, the payload is the reference's bytes, and an error exactly where a
character of the text is not in the encoding.  A printer that takes RAW data gets that payload. -/
theorem raw_reference (encodings : Whatwgs)
    (hencodings : ∀ name w, encodings name = some w → w.CharWise) (options : TextOptions)
    (hmode : options.mode = .raw) (encoder : TextEncoder)
    (hencoder : TextEncoder.forLabel encodings options.encoding = .ok encoder) (text : String) :
    (∀ payload, textPayload encodings (options.prepare text.toList) options = .ok payload ↔
      ∃ bytes, payload = .raw bytes none ∧ RawReference encoder options text.toList bytes) ∧
    ((∃ e, textPayload encodings (options.prepare text.toList) options = .error e) ↔
      ∃ c ∈ text.toList, ¬ Represents encoder c) ∧
    ∀ (printer : Printer) (accepted : List PayloadKind), PayloadKind.raw ∈ accepted →
      TextRenderer.render encodings printer accepted text options =
        textPayload encodings (options.prepare text.toList) options := by
  have hpayload : textPayload encodings (options.prepare text.toList) options =
      (PrintPayload.raw · none) <$> renderRaw encodings (options.prepare text.toList) options := by
    rw [textPayload, hmode]
  refine ⟨?_, ?_, ?_⟩
  · intro payload
    rw [hpayload, Except.map_eq_ok]
    constructor
    · rintro ⟨bytes, hbytes, rfl⟩
      exact ⟨bytes, rfl, (renderRaw_iff hencoder _ _).mp hbytes⟩
    · rintro ⟨bytes, rfl, hreference⟩
      exact ⟨bytes, (renderRaw_iff hencoder _ _).mpr hreference, rfl⟩
  -- the renderer succeeds exactly where the encoding has every character
  · have hok := renderRaw_ok_iff hencodings hencoder text.toList
    rw [hpayload]
    cases hraw : renderRaw encodings (options.prepare text.toList) options with
    | error e =>
      have hlacks : ¬ ∀ c ∈ text.toList, Represents encoder c := by
        rw [← hok, hraw]
        rintro ⟨bytes, hbytes⟩
        cases hbytes
      exact ⟨fun _ => by simpa using hlacks, fun _ => ⟨e, rfl⟩⟩
    | ok bytes =>
      have hhas := hok.mp ⟨bytes, hraw⟩
      constructor
      · rintro ⟨e, he⟩
        cases he
      · rintro ⟨c, hc, hlacks⟩
        exact absurd (hhas c hc) hlacks
  · intro printer accepted haccepted
    unfold TextRenderer.render
    rw [hpayload]
    cases renderRaw encodings (options.prepare text.toList) options with
    | error e => rfl
    | ok bytes => exact if_pos (List.contains_iff_mem.mpr haccepted)

theorem charWise_windows1252 : windows1252.CharWise where
  errors text := by simp [windows1252, Whatwg.singleByte]
  blank := by
    intro c hc
    simp only [List.mem_cons, List.not_mem_nil, or_false] at hc
    rcases hc with rfl | rfl | rfl | rfl <;> rfl

/-- Options with narrow tab stops. -/
def narrowTabs : TextOptions := { mode := .raw, encoding := "windows-1252", tabWidth := 4 }

/-- A text with tabs, accents and both kinds of break. -/
theorem raw_reference_accents :
    textPayload onlyWindows1252 (narrowTabs.prepare "é\tb\r\nç\td\r".toList) narrowTabs =
        .ok (.raw [0xE9, 32, 32, 32, 98, 13, 10, 0xE7, 32, 32, 32, 100, 13, 10, 12] none) ∧
      RawReference (.whatwg windows1252) narrowTabs "é\tb\r\nç\td\r".toList
        [0xE9, 32, 32, 32, 98, 13, 10, 0xE7, 32, 32, 32, 100, 13, 10, 12] := by
  have hpayload : textPayload onlyWindows1252 (narrowTabs.prepare "é\tb\r\nç\td\r".toList)
      narrowTabs =
        .ok (.raw [0xE9, 32, 32, 32, 98, 13, 10, 0xE7, 32, 32, 32, 100, 13, 10, 12] none) := by
    decide +kernel
  refine ⟨hpayload, ?_⟩
  have hcharWise : ∀ name w, onlyWindows1252 name = some w → w.CharWise := by
    intro name w h
    unfold onlyWindows1252 at h
    split_ifs at h
    exact Option.some.inj h ▸ charWise_windows1252
  obtain ⟨bytes, hbytes, hreference⟩ := ((raw_reference onlyWindows1252 hcharWise narrowTabs rfl _
    (TextEncoder.forLabel_1252 rfl) "é\tb\r\nç\td\r").1 _).mp hpayload
  obtain rfl := (PrintPayload.raw.inj hbytes).1
  exact hreference

end KilnPrint
