/-
Streams of commands.

A stream in which some symbols start a command is cut before each of them:

* `pieces start l` — what stands before the first start, and the pieces that follow,
  each beginning with its start;
* `IsPiece start c` — `c` begins with a start and holds no other;
* `pieces_flatten_iff` — **a stream made of commands is cut into exactly these commands
  if and only if each of them is a piece**.

A stream in which a fixed word ends each line is cut after each of them:

* `lines term l` — the lines, and what stands after the last one;
* `lines_join` — **lines that share no symbol with the word are read back**;
* `splitOn_append_of_not_mem`, `mem_of_mem_splitOn` — pieces are cut at a symbol only, and what is
  split off does not hold it.
-/
import Mathlib.Data.List.Basic
import Mathlib.Tactic.Common

namespace Pieces

variable {α : Type}

/-! ### Commands -/

/-- What stands before the first start, and the pieces that follow. -/
def pieces (start : α → Bool) : List α → List α × List (List α)
  | [] => ([], [])
  | a :: rest =>
    let cut := pieces start rest
    if start a then ([], (a :: cut.1) :: cut.2) else (a :: cut.1, cut.2)

/-- A start, and nothing after it that is one. -/
def IsPiece (start : α → Bool) : List α → Prop
  | [] => False
  | a :: body => start a = true ∧ ∀ b ∈ body, start b = false

variable {start : α → Bool}

theorem pieces_clean {body rest : List α} (h : ∀ b ∈ body, start b = false) :
    pieces start (body ++ rest) = (body ++ (pieces start rest).1, (pieces start rest).2) := by
  induction body with
  | nil => rfl
  | cons b body ih =>
    have hb : ¬ start b = true := by simp [h b List.mem_cons_self]
    rw [List.cons_append, pieces, ih fun c hc => h c (List.mem_cons_of_mem _ hc), if_neg hb]
    rfl

theorem fst_clean (l : List α) : ∀ b ∈ (pieces start l).1, start b = false := by
  induction l with
  | nil => simp [pieces]
  | cons a rest ih =>
    rw [pieces]
    split
    · simp
    · next ha =>
      intro b hb
      rcases List.mem_cons.mp hb with rfl | hb
      · simpa using ha
      · exact ih b hb

theorem snd_isPiece (l : List α) : ∀ c ∈ (pieces start l).2, IsPiece start c := by
  induction l with
  | nil => simp [pieces]
  | cons a rest ih =>
    rw [pieces]
    split
    · next ha =>
      intro c hc
      rcases List.mem_cons.mp hc with rfl | hc
      · exact ⟨ha, fst_clean rest⟩
      · exact ih c hc
    · exact ih

theorem pieces_flatten {cs : List (List α)} (h : ∀ c ∈ cs, IsPiece start c) :
    pieces start cs.flatten = ([], cs) := by
  induction cs with
  | nil => rfl
  | cons c cs ih =>
    have hc := h c List.mem_cons_self
    cases c with
    | nil => exact hc.elim
    | cons a body =>
      rw [List.flatten_cons, List.cons_append, pieces, pieces_clean hc.2,
        ih fun d hd => h d (List.mem_cons_of_mem _ hd), if_pos hc.1, List.append_nil]

/-- **Commands are read back exactly where none of them holds a start.** -/
theorem pieces_flatten_iff {cs : List (List α)} :
    pieces start cs.flatten = ([], cs) ↔ ∀ c ∈ cs, IsPiece start c := by
  constructor
  · intro h c hc
    have hpiece : ∀ d ∈ (pieces start cs.flatten).2, IsPiece start d := snd_isPiece cs.flatten
    rw [h] at hpiece
    exact hpiece c hc
  · exact pieces_flatten

/-! ### Lines -/

variable [DecidableEq α]

/-- The lines read so far, after `skip` more symbols. -/
def linesFrom (term : List α) : ℕ → List α → List (List α) × List α
  | _, [] => ([], [])
  | skip + 1, _ :: rest => linesFrom term skip rest
  | 0, a :: rest =>
    if term.isPrefixOf (a :: rest) then
      let (lines, last) := linesFrom term (term.length - 1) rest
      ([] :: lines, last)
    else
      match linesFrom term 0 rest with
      | ([], last) => ([], a :: last)
      | (line :: lines, last) => ((a :: line) :: lines, last)

/-- The lines of a stream, and what stands after the last one. -/
def lines (term : List α) : List α → List (List α) × List α := linesFrom term 0

variable {term : List α}

theorem linesFrom_skip (l rest : List α) :
    linesFrom term l.length (l ++ rest) = linesFrom term 0 rest := by
  induction l with
  | nil => rfl
  | cons a l ih =>
    rw [List.length_cons, List.cons_append, linesFrom]
    exact ih

theorem lines_line (hterm : term ≠ []) {line : List α} (h : ∀ a ∈ line, a ∉ term)
    (rest : List α) :
    lines term (line ++ term ++ rest) = (line :: (lines term rest).1, (lines term rest).2) := by
  induction line with
  | nil =>
    obtain ⟨t, ts, rfl⟩ := List.exists_cons_of_ne_nil hterm
    have hfirst : (t :: ts).isPrefixOf (t :: (ts ++ rest)) = true := by
      rw [List.isPrefixOf_iff_prefix]
      exact ⟨rest, rfl⟩
    rw [List.nil_append, lines, List.cons_append, linesFrom, if_pos hfirst]
    show ([] :: (linesFrom _ ts.length _).1, (linesFrom _ ts.length _).2) = _
    rw [linesFrom_skip]
  | cons a line ih =>
    have ha : ¬ term.isPrefixOf (a :: (line ++ term ++ rest)) = true := by
      rw [List.isPrefixOf_iff_prefix]
      intro hfirst
      obtain ⟨t, ts, rfl⟩ := List.exists_cons_of_ne_nil hterm
      obtain ⟨rfl, -⟩ := List.cons_prefix_cons.mp hfirst
      exact h t List.mem_cons_self List.mem_cons_self
    have hline := ih fun b hb => h b (List.mem_cons_of_mem _ hb)
    rw [lines] at hline ⊢
    rw [List.cons_append, List.cons_append, linesFrom, if_neg ha, hline]

/-- **Lines that share no symbol with the word that ends them are read back.** -/
theorem lines_join (hterm : term ≠ []) (ls : List (List α)) (h : ∀ l ∈ ls, ∀ a ∈ l, a ∉ term) :
    lines term (ls.flatMap (· ++ term)) = (ls, []) := by
  induction ls with
  | nil => rfl
  | cons l ls ih =>
    rw [List.flatMap_cons, lines_line hterm (h l List.mem_cons_self),
      ih fun m hm => h m (List.mem_cons_of_mem _ hm)]

/-! ### Splitting at a symbol -/

theorem splitOn_cons (a c : α) (rest : List α) :
    (c :: rest).splitOn a =
      if c = a then [] :: rest.splitOn a else (rest.splitOn a).modifyHead (c :: ·) := by
  simp only [List.splitOn_eq_splitOnP, List.splitOnP_cons_eq_if_modifyHead, beq_iff_eq]

theorem splitOn_append_of_not_mem {a : α} {start : List α}
    (h : a ∉ start) (rest : List α) :
    (start ++ rest).splitOn a = (rest.splitOn a).modifyHead (start ++ ·) := by
  induction start with
  | nil => cases hrest : rest.splitOn a <;> simp [hrest]
  | cons c start ih =>
    rw [List.mem_cons, not_or] at h
    rw [List.cons_append, splitOn_cons, if_neg (Ne.symm h.1), ih h.2]
    cases rest.splitOn a <;> rfl

/-- What is split off at a symbol does not hold it. -/
theorem mem_of_mem_splitOn {a : α} {l piece : List α} (h : piece ∈ l.splitOn a) :
    ∀ c ∈ piece, c ∈ l ∧ c ≠ a := by
  rw [List.splitOn_eq_splitOnP] at h
  induction l generalizing piece with
  | nil =>
    rw [List.splitOnP_nil, List.mem_singleton] at h
    rw [h]
    simp
  | cons x rest ih =>
    rw [List.splitOnP_cons_eq_if_modifyHead] at h
    obtain ⟨first, others, hsplit⟩ :=
      List.exists_cons_of_ne_nil (List.splitOnP_ne_nil (· == a) rest)
    rw [hsplit] at h ih
    have hrest : ∀ {piece}, piece ∈ first :: others → ∀ c ∈ piece, c ∈ x :: rest ∧ c ≠ a :=
      fun hpiece c hc => ⟨List.mem_cons_of_mem _ (ih hpiece c hc).1, (ih hpiece c hc).2⟩
    split_ifs at h with hx
    · rcases List.mem_cons.mp h with rfl | h
      · simp
      · exact hrest h
    · rw [List.modifyHead_cons] at h
      rcases List.mem_cons.mp h with rfl | h
      · intro c hc
        rcases List.mem_cons.mp hc with rfl | hc
        · exact ⟨List.mem_cons_self, by simpa using hx⟩
        · exact hrest List.mem_cons_self c hc
      · exact hrest (List.mem_cons_of_mem _ h)

end Pieces
