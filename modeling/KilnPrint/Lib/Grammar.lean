/-
Languages of commands.

A command has a form, a list of symbols, and a reader takes the first command off a stream.
The law of a language says that the reader undoes the form, whatever follows it, for the
commands that fit the language.

* `Grammar` — a language with its law;
* `parse` — the commands of a stream, nothing where the reader does not consume it;
* `Writes` — a stream holds the forms of some commands, one after the other;
* `Writes.append` — how streams are put together;
* `Writes.parse` — **what is written is read back**.
-/
import Mathlib.Data.List.Basic
import Mathlib.Data.List.Forall2
import Mathlib.Tactic.Common

/-- A language of commands over some symbols. -/
structure Grammar (α κ : Type) where
  /-- The symbols of a command. -/
  form : κ → List α
  /-- The commands that the language can express. -/
  Fits : κ → Prop
  /-- The first command of a stream, and what follows it. -/
  parseOne : List α → Option (κ × List α)
  form_ne_nil : ∀ c, form c ≠ []
  reads : ∀ c, Fits c → ∀ rest, parseOne (form c ++ rest) = some (c, rest)

namespace Grammar

variable {α κ : Type}

/-- The commands of a stream, reading at most `fuel` of them. -/
def parseFuel (g : Grammar α κ) : ℕ → List α → Option (List κ)
  | _, [] => some []
  | 0, _ :: _ => none
  | fuel + 1, symbols =>
    (g.parseOne symbols).bind fun parsed => (parsed.1 :: ·) <$> g.parseFuel fuel parsed.2

/-- **The commands of a stream**: none where the language does not consume it exactly. -/
def parse (g : Grammar α κ) (symbols : List α) : Option (List κ) :=
  g.parseFuel symbols.length symbols

/-- The stream holds these commands, and they fit the language. -/
def Writes (g : Grammar α κ) (symbols : List α) (commands : List κ) : Prop :=
  symbols = commands.flatMap g.form ∧ ∀ c ∈ commands, g.Fits c

namespace Writes

variable {g : Grammar α κ} {s t : List α} {a b : List κ}

theorem nil : g.Writes [] [] := by
  constructor
  · rfl
  · simp

theorem append (hs : g.Writes s a) (ht : g.Writes t b) : g.Writes (s ++ t) (a ++ b) := by
  refine ⟨?_, List.forall_mem_append.mpr ⟨hs.2, ht.2⟩⟩
  rw [List.flatMap_append, ← hs.1, ← ht.1]

theorem single {c : κ} (h : g.Fits c) : g.Writes (g.form c) [c] := by
  constructor
  · simp
  · simpa using h

/-- **What is written is read back.** -/
theorem parse (h : g.Writes s a) : g.parse s = some a := by
  obtain ⟨rfl, hfits⟩ := h
  have hfuel : ∀ fuel, (a.flatMap g.form).length ≤ fuel →
      g.parseFuel fuel (a.flatMap g.form) = some a := by
    induction a with
    | nil =>
      intro fuel _
      cases fuel <;> rfl
    | cons c rest ih =>
      intro fuel hlength
      rw [List.flatMap_cons] at hlength ⊢
      obtain ⟨b, symbols, hform⟩ := List.exists_cons_of_ne_nil (g.form_ne_nil c)
      have hone := g.reads c (hfits c List.mem_cons_self) (rest.flatMap g.form)
      rw [hform] at hone hlength ⊢
      simp only [List.cons_append, List.length_cons, List.length_append] at hlength hone ⊢
      -- a command takes at least one symbol, so that the fuel lasts
      cases fuel with
      | zero => omega
      | succ fuel =>
        have hrest := ih (fun d hd => hfits d (List.mem_cons_of_mem _ hd)) fuel (by omega)
        simp only [parseFuel, hone, Option.bind_some, hrest]
        rfl
  exact hfuel _ (Nat.le_refl _)

end Writes

end Grammar
