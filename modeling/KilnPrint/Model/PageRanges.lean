/-
Page ranges, such as `1-3,5,8-`.

* `PageRange` — a range of pages, counted from one; it is never empty from below or turned around;
* `parseU32`, `parseRange`, `parse` — **reading a list of ranges**;
* `indices?` — the indices of the selected pages, with each subtraction checked;
* `IsNumber`, `IsRange`, `IsSpec` — the grammar of page ranges;
* `parseRange_iff`, `parse_iff` — what is read is what the grammar says;
* `indices?_eq` — the pages that a range selects are those of the document that it contains;
* `page_ranges` — **exactly the lists of the grammar are read, and a list selects the pages that
  exist of each of its ranges, in the order of the list**.
-/
import Mathlib.Data.List.Sort
import Mathlib.Data.List.Forall2
import Mathlib.Data.List.TakeWhile
import KilnPrint.Lib.Fallible
import KilnPrint.Lib.Pieces
import KilnPrint.Model.Document

namespace KilnPrint

/-- A range of pages, counted from one, without an end or with one in it. -/
structure PageRange where
  start : ℕ
  stop : Option ℕ
  start_pos : 1 ≤ start
  start_le : ∀ last ∈ stop, start ≤ last
  deriving DecidableEq

namespace PageRanges

/-! ### Reading -/

/-- The value of decimal digits. -/
def decimal (digits : List Char) : ℕ := digits.foldl (fun n c => n * 10 + (c.toNat - 48)) 0

/-- What follows a plus sign, if there is one. -/
def unsigned (text : List Char) : List Char := if text.head? = some '+' then text.tail else text

/-- `parse::<u32>()`: digits, after a plus sign or not. -/
def parseU32 (text : List Char) : Option ℕ :=
  let digits := unsigned text
  if digits ≠ [] ∧ digits.all Char.isDigit ∧ decimal digits < 2 ^ 32 then some (decimal digits)
  else none

/-- `split_once`. -/
def cutAt (c : Char) : List Char → Option (List Char × List Char)
  | [] => none
  | d :: text => if d = c then some ([], text) else (cutAt c text).map fun (a, b) => (d :: a, b)

/-- The last page of a part, after its dash. -/
def parseStop (text : List Char) : Option (Option ℕ) :=
  match text with
  | [] => some none
  | text => (parseU32 text).map some

/-- The first and the last page of a part. -/
def parseBounds (part : List Char) : Option (ℕ × Option ℕ) :=
  match cutAt '-' part with
  | some (a, b) => do
    let start ← parseU32 (trimWhitespace a)
    let stop ← parseStop (trimWhitespace b)
    pure (start, stop)
  | none => (parseU32 part).map fun page => (page, some page)

def mkRange (start : ℕ) (stop : Option ℕ) : Option PageRange :=
  if h : 1 ≤ start ∧ ∀ last ∈ stop, start ≤ last then some ⟨start, stop, h.1, h.2⟩ else none

def parseRange (part : List Char) : Option PageRange :=
  (parseBounds part).bind fun (start, stop) => mkRange start stop

def invalid (spec : List Char) : PrintError :=
  .invalidPayload s!"invalid pageRange '{String.ofList spec}'; use e.g. \"1-3,5,8-\""

/-- `PageRanges::parse`. -/
def parse (spec : List Char) : Except PrintError (List PageRange) :=
  -- empty parts are skipped, but some part must be there
  match (((spec.splitOn ',').map trimWhitespace).filter (· ≠ [])).mapM parseRange with
  | none | some [] => .error (invalid spec)
  | some ranges => .ok ranges

/-! ### Selecting -/

/-- A difference of unsigned numbers; `none` where it underflows. -/
def checkedSub (a b : ℕ) : Option ℕ := if b ≤ a then some (a - b) else none

/-- The loop over the pages of a range, up to its end in the document. -/
def pushRange? (pageCount : ℕ) (out : List ℕ) (r : PageRange) : Option (List ℕ) :=
  let last := min (r.stop.getD pageCount) pageCount
  (List.range' r.start (last + 1 - r.start)).foldlM
    (fun out page => (checkedSub page 1).map fun index => out ++ [index]) out

/-- `PageRanges::indices`, with the subtraction checked. -/
def indices? (ranges : List PageRange) (pageCount : ℕ) : Option (List ℕ) :=
  ranges.foldlM (pushRange? pageCount) []

/-! ### The grammar -/

/-- A number below 2^32, in decimal digits, after a plus sign or not. -/
def IsNumber (text : List Char) (n : ℕ) : Prop :=
  ∃ digits, digits ≠ [] ∧ (∀ c ∈ digits, c.isDigit = true) ∧ (text = digits ∨ text = '+' :: digits) ∧
    n = decimal digits ∧ n < 2 ^ 32

def Blank (text : List Char) : Prop := ∀ c ∈ text, isWhitespace c = true

/-- `text` is `inner`, with white space around it. -/
def Padded (text inner : List Char) : Prop :=
  ∃ before after, Blank before ∧ Blank after ∧ text = before ++ inner ++ after

/-- A page, pages up to another, or pages from one on. -/
inductive IsRange : List Char → PageRange → Prop
  | page {text number : List Char} {n : ℕ} (h : 1 ≤ n) :
      Padded text number → IsNumber number n →
      IsRange text ⟨n, some n, h, fun _ hlast => (Option.some.inj hlast).le⟩
  | closed {a b first second : List Char} {n m : ℕ} (h : 1 ≤ n) (hle : n ≤ m) :
      Padded a first → IsNumber first n → Padded b second → IsNumber second m →
      IsRange (a ++ '-' :: b) ⟨n, some m, h, fun _ hlast => Option.some.inj hlast ▸ hle⟩
  | fromOn {a b first : List Char} {n : ℕ} (h : 1 ≤ n) :
      Padded a first → IsNumber first n → Blank b →
      IsRange (a ++ '-' :: b) ⟨n, none, h, fun _ hlast => nomatch hlast⟩

instance (text : List Char) : Decidable (Blank text) := List.decidableBAll _ text

/-- A list of ranges with commas between them, where parts may be blank, but not all of them. -/
def IsSpec (spec : List Char) (ranges : List PageRange) : Prop :=
  ranges ≠ [] ∧ ∃ parts, (∀ part ∈ parts, ',' ∉ part) ∧ spec = [','].intercalate parts ∧
    List.Forall₂ IsRange (parts.filter (¬ Blank ·)) ranges

end PageRanges

/-- The page is in the range. -/
def PageRange.Contains (r : PageRange) (page : ℕ) : Prop :=
  r.start ≤ page ∧ ∀ last ∈ r.stop, page ≤ last

instance (r : PageRange) (page : ℕ) : Decidable (r.Contains page) :=
  inferInstanceAs (Decidable (_ ∧ _))

namespace PageRanges

/-! ### White space -/

/-- Neither end is white space. -/
def Tight (text : List Char) : Prop :=
  text.head?.any isWhitespace = false ∧ text.getLast?.any isWhitespace = false

theorem dropWhile_blank {before text : List Char} (h : Blank before)
    (htext : text.head?.any isWhitespace = false) :
    (before ++ text).dropWhile isWhitespace = text := by
  rw [List.dropWhile_append_of_pos h]
  cases text with
  | nil => rfl
  | cons c text => exact List.dropWhile_cons_of_neg (by simpa using htext)

theorem blank_nil : Blank [] := fun _ h => absurd h List.not_mem_nil

theorem Blank.reverse {text : List Char} (h : Blank text) : Blank text.reverse := fun c hc =>
  h c (List.mem_reverse.mp hc)

theorem Blank.append {a b : List Char} (ha : Blank a) (hb : Blank b) : Blank (a ++ b) := fun c hc =>
  (List.mem_append.mp hc).elim (ha c) (hb c)

theorem trimWhitespace_blank {text : List Char} (h : Blank text) : trimWhitespace text = [] := by
  have hnil : text.dropWhile isWhitespace = [] := List.dropWhile_eq_nil_iff.mpr h
  rw [trimWhitespace, hnil]
  rfl

theorem trimWhitespace_padded {text inner : List Char} (h : Padded text inner) (ht : Tight inner) :
    trimWhitespace text = inner := by
  obtain ⟨before, after, hbefore, hafter, rfl⟩ := h
  cases inner with
  | nil =>
    rw [List.append_nil]
    exact trimWhitespace_blank (hbefore.append hafter)
  | cons c inner =>
    have hhead : ((c :: inner) ++ after).head?.any isWhitespace = false := ht.1
    have hlast : (c :: inner).reverse.head?.any isWhitespace = false := by
      rw [List.head?_reverse]
      exact ht.2
    rw [trimWhitespace, List.append_assoc, dropWhile_blank hbefore hhead, List.reverse_append,
      dropWhile_blank hafter.reverse hlast, List.reverse_reverse]

/-- What is left of a text has no white space at its ends. -/
theorem trimWhitespace_spec (text : List Char) :
    Padded text (trimWhitespace text) ∧ Tight (trimWhitespace text) := by
  have hblank : ∀ text : List Char, Blank (text.takeWhile isWhitespace) := fun text c hc =>
    List.mem_takeWhile_imp hc
  have hends : ∀ text : List Char, (text.dropWhile isWhitespace).head?.any isWhitespace = false := by
    intro text
    cases hcut : text.dropWhile isWhitespace with
    | nil => rfl
    | cons c rest =>
      have hne : text.dropWhile isWhitespace ≠ [] := by rw [hcut]; exact List.cons_ne_nil c rest
      have hhead := List.head_dropWhile_not (p := isWhitespace) hne
      show isWhitespace c = false
      simpa only [hcut, List.head_cons] using hhead
  generalize hrest : text.dropWhile isWhitespace = rest
  have hsplit := List.takeWhile_append_dropWhile (p := isWhitespace) (l := text)
  have hsplit' := List.takeWhile_append_dropWhile (p := isWhitespace) (l := rest.reverse)
  have hinner : rest = trimWhitespace text ++ (rest.reverse.takeWhile isWhitespace).reverse := by
    rw [trimWhitespace, hrest, ← List.reverse_append, hsplit', List.reverse_reverse]
  refine ⟨⟨text.takeWhile isWhitespace, (rest.reverse.takeWhile isWhitespace).reverse, hblank _,
    (hblank _).reverse, ?_⟩, ?_, ?_⟩
  · rw [List.append_assoc, ← hinner, ← hrest, hsplit]
  · have hfirst := hends text
    rw [hrest, hinner] at hfirst
    cases htrim : trimWhitespace text with
    | nil => rfl
    | cons c inner =>
      rw [htrim] at hfirst
      exact hfirst
  · have hlast := hends rest.reverse
    rw [trimWhitespace, hrest, List.getLast?_reverse]
    exact hlast

theorem trimWhitespace_eq_nil {text : List Char} : trimWhitespace text = [] ↔ Blank text := by
  refine ⟨fun h => ?_, trimWhitespace_blank⟩
  obtain ⟨⟨before, after, hbefore, hafter, hsplit⟩, -⟩ := trimWhitespace_spec text
  rw [hsplit, h, List.append_nil]
  exact hbefore.append hafter

/-! ### Numbers -/

theorem unsigned_cases (text : List Char) : text = unsigned text ∨ text = '+' :: unsigned text := by
  unfold unsigned
  by_cases hplus : text.head? = some '+'
  · obtain ⟨tail, rfl⟩ := List.head?_eq_some_iff.mp hplus
    exact .inr rfl
  · rw [if_neg hplus]
    exact .inl rfl

theorem unsigned_digits {digits text : List Char} (hall : ∀ c ∈ digits, c.isDigit = true)
    (htext : text = digits ∨ text = '+' :: digits) : unsigned text = digits := by
  rcases htext with rfl | rfl
  · refine if_neg fun hhead => ?_
    obtain ⟨tail, rfl⟩ := List.head?_eq_some_iff.mp hhead
    exact absurd (hall '+' List.mem_cons_self) (by decide)
  · rfl

/-- **What is read as a number is a number.** -/
theorem parseU32_iff {text : List Char} {n : ℕ} : parseU32 text = some n ↔ IsNumber text n := by
  constructor
  · intro h
    unfold parseU32 at h
    dsimp only at h
    split at h
    · next hdigits =>
      obtain ⟨hne, hall, hlt⟩ := hdigits
      obtain rfl := Option.some.inj h
      exact ⟨_, hne, List.all_eq_true.mp hall, unsigned_cases text, rfl, hlt⟩
    · cases h
  · rintro ⟨digits, hne, hall, htext, rfl, hlt⟩
    unfold parseU32
    simp only [unsigned_digits hall htext]
    exact if_pos ⟨hne, List.all_eq_true.mpr hall, hlt⟩

/-- The characters of a number. -/
theorem IsNumber.mem {text : List Char} {n : ℕ} (h : IsNumber text n) :
    text ≠ [] ∧ ∀ c ∈ text, c = '+' ∨ c.isDigit = true := by
  obtain ⟨digits, hne, hall, htext | htext, -⟩ := h
  · exact ⟨htext ▸ hne, fun c hc => .inr (hall c (htext ▸ hc))⟩
  · refine ⟨htext ▸ List.cons_ne_nil _ _, fun c hc => ?_⟩
    rw [htext] at hc
    exact (List.mem_cons.mp hc).imp_right (hall c)

theorem isWhitespace_of_number {c : Char} (h : c = '+' ∨ c.isDigit = true) :
    isWhitespace c = false := by
  rcases h with rfl | h
  · decide
  · have hrange : 48 ≤ c.toNat ∧ c.toNat ≤ 57 := by
      simp only [Char.isDigit, Bool.and_eq_true, decide_eq_true_eq] at h
      exact h
    unfold isWhitespace
    simp
    omega

theorem IsNumber.tight {text : List Char} {n : ℕ} (h : IsNumber text n) : Tight text := by
  have hspace : ∀ c ∈ text, isWhitespace c = false := fun c hc => isWhitespace_of_number (h.mem.2 c hc)
  constructor
  · cases hhead : text.head? with
    | none => rfl
    | some c => exact hspace c (List.mem_of_head? hhead)
  · cases hlast : text.getLast? with
    | none => rfl
    | some c => exact hspace c (List.mem_of_getLast? hlast)

theorem dash_notMem_number {text : List Char} {n : ℕ} (h : IsNumber text n) : '-' ∉ text := by
  intro hmem
  rcases h.mem.2 '-' hmem with hplus | hdigit
  · exact absurd hplus (by decide)
  · exact absurd hdigit (by decide)

theorem dash_notMem_blank {text : List Char} (h : Blank text) : '-' ∉ text := fun hmem =>
  absurd (h '-' hmem) (by decide)

/-! ### Parts -/

theorem cutAt_append {c : Char} {a : List Char} (h : c ∉ a) (b : List Char) :
    cutAt c (a ++ c :: b) = some (a, b) := by
  induction a with
  | nil => exact if_pos rfl
  | cons d a ih =>
    rw [List.mem_cons, not_or] at h
    rw [List.cons_append, cutAt, if_neg (Ne.symm h.1), ih h.2]
    rfl

theorem cutAt_of_notMem {c : Char} {text : List Char} (h : c ∉ text) : cutAt c text = none := by
  induction text with
  | nil => rfl
  | cons d text ih =>
    rw [List.mem_cons, not_or] at h
    rw [cutAt, if_neg (Ne.symm h.1), ih h.2]
    rfl

theorem cutAt_cases (c : Char) (text : List Char) :
    c ∉ text ∨ ∃ a b, c ∉ a ∧ text = a ++ c :: b := by
  by_cases hmem : c ∈ text
  · obtain ⟨a, b, hsplit, ha⟩ := List.eq_append_cons_of_mem hmem
    exact .inr ⟨a, b, ha, hsplit⟩
  · exact .inl hmem

theorem mkRange_eq_some {start : ℕ} {stop : Option ℕ} {r : PageRange} :
    mkRange start stop = some r ↔ r.start = start ∧ r.stop = stop := by
  unfold mkRange
  constructor
  · intro h
    split at h
    · obtain rfl := Option.some.inj h
      exact ⟨rfl, rfl⟩
    · cases h
  · rintro ⟨rfl, rfl⟩
    exact dif_pos ⟨r.start_pos, r.start_le⟩

theorem Padded.blank_left {a inner before : List Char} (h : Padded a inner) (hbefore : Blank before) :
    Padded (before ++ a) inner := by
  obtain ⟨before', after, hbefore', hafter, rfl⟩ := h
  exact ⟨before ++ before', after, hbefore.append hbefore', hafter, by simp only [List.append_assoc]⟩

theorem Padded.blank_right {a inner after : List Char} (h : Padded a inner) (hafter : Blank after) :
    Padded (a ++ after) inner := by
  obtain ⟨before, after', hbefore, hafter', rfl⟩ := h
  exact ⟨before, after' ++ after, hbefore, hafter'.append hafter, by simp only [List.append_assoc]⟩

theorem parseBounds_dash {a : List Char} (h : '-' ∉ a) (b : List Char) :
    parseBounds (a ++ '-' :: b) = (parseU32 (trimWhitespace a)).bind fun start =>
      (parseStop (trimWhitespace b)).bind fun stop => some (start, stop) := by
  rw [parseBounds, cutAt_append h]
  rfl

theorem parseBounds_plain {text : List Char} (h : '-' ∉ text) :
    parseBounds text = (parseU32 text).map fun page => (page, some page) := by
  rw [parseBounds, cutAt_of_notMem h]

/-- **A part that is read is a range.** -/
theorem isRange_of_parseRange {text : List Char} {r : PageRange}
    (h : parseRange (trimWhitespace text) = some r) : IsRange text r := by
  obtain ⟨⟨start, stop⟩, hbounds, hrange⟩ := Option.bind_eq_some_iff.mp h
  obtain ⟨hstart, hstop⟩ := mkRange_eq_some.mp hrange
  obtain ⟨rstart, rstop, hpos, hle⟩ := r
  obtain rfl : rstart = start := hstart
  obtain rfl : rstop = stop := hstop
  obtain ⟨hpadded, -⟩ := trimWhitespace_spec text
  -- without a dash a single page; with one, the blanks around it belong to the bounds
  rcases cutAt_cases '-' (trimWhitespace text) with hplain | ⟨a, b, ha, hsplit⟩
  · rw [parseBounds_plain hplain] at hbounds
    obtain ⟨n, hn, heq⟩ := Option.map_eq_some_iff.mp hbounds
    obtain ⟨rfl, rfl⟩ := Prod.mk.inj heq
    exact .page hpos hpadded (parseU32_iff.mp hn)
  · rw [hsplit, parseBounds_dash ha] at hbounds
    obtain ⟨n, hn, hbounds⟩ := Option.bind_eq_some_iff.mp hbounds
    obtain ⟨stop', hlast, heq⟩ := Option.bind_eq_some_iff.mp hbounds
    obtain ⟨rfl, rfl⟩ := Prod.mk.inj (Option.some.inj heq)
    obtain ⟨before, after, hbefore, hafter, htext⟩ := hpadded
    have htext' : text = (before ++ a) ++ '-' :: (b ++ after) := by
      rw [htext, hsplit]
      simp only [List.append_assoc, List.cons_append]
    have hfirst : Padded (before ++ a) (trimWhitespace a) :=
      (trimWhitespace_spec a).1.blank_left hbefore
    rw [htext']
    cases hblank : trimWhitespace b with
    | nil =>
      rw [hblank] at hlast
      obtain rfl := Option.some.inj hlast
      exact .fromOn hpos hfirst (parseU32_iff.mp hn) ((trimWhitespace_eq_nil.mp hblank).append hafter)
    | cons c second =>
      rw [hblank] at hlast
      obtain ⟨m, hm, rfl⟩ := Option.map_eq_some_iff.mp hlast
      exact .closed hpos (hle m rfl) hfirst (parseU32_iff.mp hn)
        (hblank ▸ (trimWhitespace_spec b).1.blank_right hafter) (parseU32_iff.mp hm)

/-- A part with a dash in it, whose numbers are read. -/
theorem parseBounds_trim {a first after : List Char} (second : List Char) {n : ℕ} (ha : Padded a first)
    (hfirst : IsNumber first n) (hafter : Blank after)
    (hsecond : second = [] ∨ second.getLast?.any isWhitespace = false) :
    parseBounds (trimWhitespace (a ++ '-' :: (second ++ after))) =
      (parseStop (trimWhitespace second)).bind fun stop => some (n, stop) := by
  obtain ⟨before, middle, hbefore, hmiddle, rfl⟩ := ha
  obtain ⟨c, rest, rfl⟩ := List.exists_cons_of_ne_nil hfirst.mem.1
  have hpadded : Padded (before ++ c :: rest ++ middle ++ '-' :: (second ++ after))
      ((c :: rest) ++ middle ++ '-' :: second) :=
    ⟨before, after, hbefore, hafter, by simp only [List.append_assoc, List.cons_append]⟩
  have htight : Tight ((c :: rest) ++ middle ++ '-' :: second) := by
    refine ⟨hfirst.tight.1, ?_⟩
    rw [List.getLast?_append_of_ne_nil _ (List.cons_ne_nil _ _)]
    cases second with
    | nil => decide
    | cons d second => exact hsecond.resolve_left (List.cons_ne_nil _ _)
  have hdash : '-' ∉ (c :: rest) ++ middle := by
    rw [List.mem_append, not_or]
    exact ⟨dash_notMem_number hfirst, dash_notMem_blank hmiddle⟩
  have hinner : trimWhitespace ((c :: rest) ++ middle) = c :: rest :=
    trimWhitespace_padded ⟨[], middle, blank_nil, hmiddle, rfl⟩ hfirst.tight
  rw [trimWhitespace_padded hpadded htight, parseBounds_dash hdash, hinner, parseU32_iff.mpr hfirst,
    Option.bind_some]

/-- **A range is read.** -/
theorem parseRange_of_isRange {text : List Char} {r : PageRange} (h : IsRange text r) :
    parseRange (trimWhitespace text) = some r := by
  unfold parseRange
  cases h with
  | page hpos hpadded hnumber =>
    rw [trimWhitespace_padded hpadded hnumber.tight, parseBounds_plain (dash_notMem_number hnumber),
      parseU32_iff.mpr hnumber, Option.map_some, Option.bind_some]
    exact mkRange_eq_some.mpr ⟨rfl, rfl⟩
  | closed hpos hle hfirst hn hsecond hm =>
    obtain ⟨before, after, hbefore, hafter, rfl⟩ := hsecond
    have hlast : ∀ before second : List Char, second ≠ [] → Tight second →
        (before ++ second).getLast?.any isWhitespace = false := by
      intro before second hne htight
      rw [List.getLast?_append_of_ne_nil _ hne]
      exact htight.2
    rw [parseBounds_trim _ hfirst hn hafter (.inr (hlast _ _ hm.mem.1 hm.tight)),
      trimWhitespace_padded ⟨before, [], hbefore, blank_nil, (List.append_nil _).symm⟩
        hm.tight]
    obtain ⟨c, second, rfl⟩ := List.exists_cons_of_ne_nil hm.mem.1
    rw [parseStop, parseU32_iff.mpr hm]
    · exact mkRange_eq_some.mpr ⟨rfl, rfl⟩
    · exact List.cons_ne_nil _ _
  | fromOn hpos hfirst hn hblank =>
    have hread := parseBounds_trim [] hfirst hn hblank (.inl rfl)
    rw [List.nil_append] at hread
    rw [hread]
    exact mkRange_eq_some.mpr ⟨rfl, rfl⟩

theorem parseRange_iff {text : List Char} {r : PageRange} :
    parseRange (trimWhitespace text) = some r ↔ IsRange text r :=
  ⟨isRange_of_parseRange, parseRange_of_isRange⟩

/-! ### Lists of parts -/

/-- The parts that are read are those that are not blank. -/
theorem parts_eq (parts : List (List Char)) :
    (parts.map trimWhitespace).filter (· ≠ []) =
      (parts.filter (¬ Blank ·)).map trimWhitespace := by
  rw [List.filter_map]
  refine congrArg (List.map trimWhitespace) (List.filter_congr fun part _ => ?_)
  exact decide_eq_decide.mpr (not_congr trimWhitespace_eq_nil)

theorem mapM_parseRange_iff {parts : List (List Char)} {ranges : List PageRange} :
    (parts.map trimWhitespace).mapM parseRange = some ranges ↔ List.Forall₂ IsRange parts ranges := by
  induction parts generalizing ranges with
  | nil =>
    rw [List.forall₂_nil_left_iff]
    exact ⟨fun h => (Option.some.inj h).symm, fun h => h ▸ rfl⟩
  | cons part parts ih =>
    rw [List.map_cons, List.mapM_cons]
    constructor
    · intro h
      obtain ⟨r, hr, h⟩ := Option.bind_eq_some_iff.mp h
      obtain ⟨rest, hrest, h⟩ := Option.bind_eq_some_iff.mp h
      obtain rfl := Option.some.inj h
      exact .cons (parseRange_iff.mp hr) (ih.mp hrest)
    · intro h
      cases h with
      | cons hr hrest =>
        rw [parseRange_iff.mpr hr, ih.mpr hrest]
        rfl

/-- **Exactly the lists of the grammar are read.** -/
theorem parse_iff {spec : List Char} {ranges : List PageRange} :
    parse spec = .ok ranges ↔ IsSpec spec ranges := by
  have hparse : parse spec = .ok ranges ↔ ranges ≠ [] ∧
      List.Forall₂ IsRange ((spec.splitOn ',').filter (¬ Blank ·)) ranges := by
    rw [← mapM_parseRange_iff, ← parts_eq, parse]
    cases hread : ((spec.splitOn ',').map trimWhitespace |>.filter (· ≠ [])).mapM parseRange with
    | none => simp
    | some read =>
      cases read with
      | nil => simp
      | cons r read =>
        simp only [Except.ok.injEq, Option.some.injEq]
        exact ⟨fun h => ⟨h ▸ List.cons_ne_nil _ _, h⟩, fun h => h.2⟩
  refine hparse.trans (and_congr_right fun hne => ⟨fun h => ?_, ?_⟩)
  · refine ⟨spec.splitOn ',', fun part hpart hmem => ?_, (List.intercalate_splitOn ',').symm, h⟩
    exact (Pieces.mem_of_mem_splitOn hpart ',' hmem).2 rfl
  · rintro ⟨parts, hparts, rfl, h⟩
    have hparts' : parts ≠ [] := by
      rintro rfl
      exact hne (List.forall₂_nil_left_iff.mp h)
    rwa [List.splitOn_intercalate ',' hparts hparts']

/-! ### The pages that are selected -/

theorem foldlM_push {pages : List ℕ} (h : ∀ page ∈ pages, 1 ≤ page) (out : List ℕ) :
    pages.foldlM (fun out page => (checkedSub page 1).map fun index => out ++ [index]) out =
      some (out ++ pages.map (· - 1)) := by
  induction pages generalizing out with
  | nil => rw [List.map_nil, List.append_nil]; rfl
  | cons page pages ih =>
    have hsub : checkedSub page 1 = some (page - 1) := if_pos (h page List.mem_cons_self)
    rw [List.foldlM_cons, hsub, Option.map_some, Option.bind_eq_bind, Option.bind_some,
      ih fun q hq => h q (List.mem_cons_of_mem _ hq), List.map_cons, List.append_assoc]
    rfl

/-- The pages of the loop are those that the range contains and that exist. -/
theorem pages_eq (r : PageRange) (pageCount : ℕ) :
    (List.range' r.start (min (r.stop.getD pageCount) pageCount + 1 - r.start)).map (· - 1) =
      (List.range pageCount).filter fun index => r.Contains (index + 1) := by
  have hpos := r.start_pos
  have hstop : ∀ page ≤ pageCount,
      page ≤ r.stop.getD pageCount ↔ ∀ last ∈ r.stop, page ≤ last := by
    intro page hpage
    cases r.stop with
    | none => exact iff_of_true hpage fun _ h => nomatch h
    | some last => exact ⟨fun h _ hlast => Option.some.inj hlast ▸ h, fun h => h last rfl⟩
  -- both lists are in order, and hold the same indices
  refine List.SortedLT.eq_of_mem_iff ?_ ?_ fun index => ?_
  · have hpairwise := List.pairwise_lt_range' (s := r.start)
      (n := min (r.stop.getD pageCount) pageCount + 1 - r.start)
    refine List.Pairwise.sortedLT (List.pairwise_map.mpr (hpairwise.imp_of_mem fun ha hb hlt => ?_))
    have hge := (List.mem_range'_1.mp ha).1
    omega
  · exact (List.pairwise_lt_range.filter _).sortedLT
  · simp only [List.mem_map, List.mem_range'_1, List.mem_filter, List.mem_range, decide_eq_true_eq]
    constructor
    · rintro ⟨page, hpage, rfl⟩
      have hle : page ≤ min (r.stop.getD pageCount) pageCount := by omega
      obtain ⟨hlast, hcount⟩ := Nat.le_min.mp hle
      have hsucc : page - 1 + 1 = page := by omega
      rw [hsucc]
      exact ⟨by omega, hpage.1, (hstop page hcount).mp hlast⟩
    · rintro ⟨hindex, hstart, hlast⟩
      have hle := (hstop (index + 1) hindex).mpr hlast
      exact ⟨index + 1, by omega, rfl⟩

/-- **The pages of each range that exist are selected, in the order of the list.** -/
theorem indices?_eq (ranges : List PageRange) (pageCount : ℕ) :
    indices? ranges pageCount = some (ranges.flatMap fun r =>
      (List.range pageCount).filter fun index => r.Contains (index + 1)) := by
  have hpush : ∀ out r, pushRange? pageCount out r = some (out ++
      (List.range pageCount).filter fun index => r.Contains (index + 1)) := by
    intro out r
    rw [pushRange?, foldlM_push, pages_eq]
    exact fun page hpage => r.start_pos.trans (List.mem_range'_1.mp hpage).1
  have hfold : ∀ (ranges : List PageRange) (out : List ℕ), ranges.foldlM (pushRange? pageCount) out =
      some (out ++ ranges.flatMap fun r =>
        (List.range pageCount).filter fun index => r.Contains (index + 1)) := by
    intro ranges
    induction ranges with
    | nil => exact fun out => by rw [List.flatMap_nil, List.append_nil]; rfl
    | cons r ranges ih =>
      intro out
      rw [List.foldlM_cons, hpush, Option.bind_eq_bind, Option.bind_some, ih, List.flatMap_cons,
        List.append_assoc]
  rw [indices?, hfold, List.nil_append]

/-- **Page ranges.**  A specification is accepted exactly if it is a list of pages and ranges, of
numbers that are not turned around; and an accepted one selects, without an underflow, the indices
of the pages that exist of each range, in the order of the list. -/
theorem page_ranges (spec : List Char) :
    (∀ ranges, parse spec = .ok ranges ↔ IsSpec spec ranges) ∧
    ∀ ranges, parse spec = .ok ranges → ∀ pageCount, ∃ indices,
      indices? ranges pageCount = some indices ∧
      indices = (ranges.flatMap fun r =>
        (List.range pageCount).filter fun index => r.Contains (index + 1)) ∧
      ∀ index ∈ indices, index < pageCount := by
  refine ⟨fun _ => parse_iff, fun ranges _ pageCount => ⟨_, indices?_eq ranges pageCount, rfl, ?_⟩⟩
  intro index hindex
  obtain ⟨r, -, hmem⟩ := List.mem_flatMap.mp hindex
  exact List.mem_range.mp (List.mem_filter.mp hmem).1

theorem page_ranges_list : ∃ ranges indices, parse "1-3, 5,8-".toList = .ok ranges ∧
    indices? ranges 9 = some indices ∧ ∀ index ∈ indices, index < 9 := by
  have hok : (parse "1-3, 5,8-".toList).isOk = true := by decide +kernel
  obtain ⟨ranges, hranges⟩ := Except.exists_ok hok
  obtain ⟨indices, hindices, -, hlt⟩ := (page_ranges "1-3, 5,8-".toList).2 ranges hranges 9
  exact ⟨ranges, indices, hranges, hindices, hlt⟩

end PageRanges

end KilnPrint
