/-
Programs as the calls they make, and disciplines on these calls.

Where several programs run side by side, what one of them does next is as much part of
the state as what it has done.  A script is a program cut at its calls: it has returned,
or it makes a call and goes on with the answer.  A discipline says which calls may be
made in which state of progress, and what each answer does to the progress.

* `Script A α` — scripts over the calls `Q`, and `Script.ask`, `Script.lift`;
* `Discipline` — the calls that are allowed, and where their answers lead;
* `Script.Follows` — **a script keeps to a discipline** from a state of progress, and
  returns in one that suits what it returns;
* `Follows.bind`, `Follows.ask`, `Follows.lift`, … — its rules;
* `Follows.answered` — the rule for a run: whatever the answer, what is left of the
  script keeps to the discipline.
-/
import Mathlib.Logic.Basic
import Mathlib.Tactic.Common

namespace Typestate

variable {Q Q' : Type} {A : Q → Type} {A' : Q' → Type} {P α β : Type}

/-- A program that has returned, or makes a call and goes on with the answer. -/
inductive Script {Q : Type} (A : Q → Type) (α : Type)
  | done (a : α)
  | call (q : Q) (next : A q → Script A α)

namespace Script

def bind : Script A α → (α → Script A β) → Script A β
  | done a, f => f a
  | call q next, f => call q fun a => (next a).bind f

instance : Monad (Script A) where
  pure := done
  bind := bind

/-- A call, whose answer is returned. -/
def ask (q : Q) : Script A (A q) := call q done

/-- A script over some calls is one over more. -/
def lift (embed : Q → Q') (answer : ∀ q, A' (embed q) → A q) : Script A α → Script A' α
  | done a => done a
  | call q next => call (embed q) fun a => (next (answer q a)).lift embed answer

@[simp] theorem pure_eq (a : α) : (pure a : Script A α) = done a := rfl

@[simp] theorem done_bind (a : α) (f : α → Script A β) : done a >>= f = f a := rfl

@[simp] theorem call_bind (q : Q) (next : A q → Script A α) (f : α → Script A β) :
    call q next >>= f = call q fun a => next a >>= f := rfl

@[simp] theorem ask_bind (q : Q) (f : A q → Script A β) : ask q >>= f = call q f := rfl

end Script

/-- Which calls may be made, and what their answers do to the progress. -/
structure Discipline (A : Q → Type) (P : Type) where
  allowed : P → Q → Prop
  after : P → (q : Q) → A q → P

namespace Script

variable {D : Discipline A P} {p : P} {post post' : P → α → Prop}

/-- **The calls of a script are allowed when it makes them**, and it returns in a state
of progress that suits what it returns. -/
def Follows (D : Discipline A P) (post : P → α → Prop) : P → Script A α → Prop
  | p, done a => post p a
  | p, call q next => D.allowed p q ∧ ∀ a, (next a).Follows D post (D.after p q a)

namespace Follows

theorem bind {m : Script A α} {f : α → Script A β} {post : P → β → Prop} {mid : P → α → Prop}
    (hm : m.Follows D mid p) (hf : ∀ p a, mid p a → (f a).Follows D post p) :
    (m >>= f).Follows D post p := by
  induction m generalizing p with
  | done a => exact hf p a hm
  | call q next ih => exact ⟨hm.1, fun a => ih a (hm.2 a)⟩

theorem ask {q : Q} {post : P → A q → Prop} (hallowed : D.allowed p q)
    (hpost : ∀ a, post (D.after p q a) a) : (Script.ask q).Follows D post p :=
  ⟨hallowed, hpost⟩

/-- A discipline on some calls carries over to more. -/
theorem lift {D' : Discipline A' P} {m : Script A' α} {embed : Q' → Q}
    {answer : ∀ q, A (embed q) → A' q}
    (hallowed : ∀ p q, D'.allowed p q → D.allowed p (embed q))
    (hafter : ∀ p q a, D.after p (embed q) a = D'.after p q (answer q a))
    (h : m.Follows D' post p) : (m.lift embed answer).Follows D post p := by
  induction m generalizing p with
  | done a => exact h
  | call q next ih =>
    refine ⟨hallowed p q h.1, ?_⟩
    intro a
    rw [hafter]
    exact ih _ (h.2 _)

/-- **What is left of a script** keeps to the discipline, whatever the answer was. -/
theorem answered {q : Q} {next : A q → Script A α} (h : (call q next).Follows D post p) (a : A q) :
    (next a).Follows D post (D.after p q a) :=
  h.2 a

end Follows

end Script

end Typestate
