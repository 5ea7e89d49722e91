/-
Programs that call an outside party.

A device, a driver or a socket answers each call as it likes, and what it
answers may depend on everything it was asked before.  A program that calls it
records each exchange and may fail at any call:

* `Device A`, `Session A` — a device over the calls `Q`, and a device with the
  exchanges so far;
* `Prog A ε α` — a program on a session, and `ask`, a call;
* `ask_ensures`, `ask_quiet` — the rules of a call;
* `Allowed` — a law of each exchange in view of those before it, and its rules.

Design notes: the device is a function of the trace, so that a statement for
every device is a statement for every sequence of answers.
-/
import KilnPrint.Lib.Fallible

namespace Interaction

variable {Q : Type} {A : Q → Type} {ε : Type}

/-- One call together with its answer. -/
abbrev Exchange (A : Q → Type) := (q : Q) × A q

/-- What a device answers to a call, given the exchanges so far. -/
abbrev Device (A : Q → Type) := List (Exchange A) → (q : Q) → A q

structure Session (A : Q → Type) where
  device : Device A
  trace : List (Exchange A)

/-- An exchange of this kind has taken place. -/
def Session.any (s : Session A) (kind : Exchange A → Bool) : Bool := s.trace.any kind

/-- A session that has just begun. -/
def Device.session (d : Device A) : Session A := ⟨d, []⟩

abbrev Prog (A : Q → Type) (ε α : Type) := Fallible (Session A) ε α

def ask (q : Q) : Prog A ε (A q) :=
  Fallible.act fun s => (s.device s.trace q, { s with trace := s.trace ++ [⟨q, s.device s.trace q⟩] })

theorem ask_ensures {q : Q} {pre : Session A → Prop} {post : A q → Session A → Prop}
    {failed : ε → Session A → Prop}
    (h : ∀ s a, pre s → post a { s with trace := s.trace ++ [⟨q, a⟩] }) :
    Fallible.Ensures pre (ask q : Prog A ε (A q)) post failed :=
  .act fun s hs => h s _ hs

/-- A call that is not of a kind leaves a session without such exchanges without
them. -/
theorem ask_quiet {kind : Exchange A → Bool} {q : Q} {failed : ε → Session A → Prop}
    (h : ∀ a, kind ⟨q, a⟩ = false) :
    Fallible.Ensures (fun s => s.any kind = false) (ask q : Prog A ε (A q))
      (fun _ s => s.any kind = false) failed := by
  refine ask_ensures ?_
  intro s a hs
  show (s.trace ++ [(⟨q, a⟩ : Exchange A)]).any kind = false
  rw [List.any_append, show s.trace.any kind = false from hs, List.any_cons, h a]
  rfl

/-! ### Laws of a trace -/

/-- Each element is allowed by those before it. -/
def Allowed {α : Type} (law : List α → α → Prop) (t : List α) : Prop :=
  ∀ before x after, t = before ++ x :: after → law before x

namespace Allowed

variable {α : Type} {law : List α → α → Prop} {t : List α} {x : α}

theorem nil : Allowed law [] := by
  intro before x after h
  cases before <;> cases h

theorem snoc (h : Allowed law t) (hx : law t x) : Allowed law (t ++ [x]) := by
  intro before y after heq
  rcases List.eq_nil_or_concat after with rfl | ⟨after, z, rfl⟩
  · obtain ⟨rfl, hy⟩ := List.append_inj' heq rfl
    cases hy
    exact hx
  · rw [List.concat_eq_append, ← List.cons_append, ← List.append_assoc] at heq
    exact h before y after (List.append_inj' heq rfl).1

end Allowed

end Interaction
