/-
Programs on a state that may fail.

A program returns a value or an error, and leaves a state either way: what it
did before it failed stays done.

* `Fallible σ ε α` — such programs;
* `fail`, `ofExcept`, `act`, `within`, `ignore`, `mapErr`, `onFailure`,
  `forEach` — the operations;
* `Ensures` — a Hoare triple with a postcondition for each way a program can
  end;
* `Ensures.bind`, `Ensures.forEach`, … — its rules, one for each operation;
* `Except.bind_eq_ok`, `Except.map_eq_ok` — the same for results without a state.
-/
import Mathlib.Logic.Basic
import Mathlib.Tactic.Common

theorem Except.bind_eq_ok {ε α β : Type} {x : Except ε α} {f : α → Except ε β} {b : β} :
    x >>= f = .ok b ↔ ∃ a, x = .ok a ∧ f a = .ok b := by
  cases x with
  | error e => exact ⟨fun h => (by cases h), fun ⟨_, h, _⟩ => (by cases h)⟩
  | ok a => exact ⟨fun h => ⟨a, rfl, h⟩, fun ⟨_, ha, h⟩ => (Except.ok.inj ha) ▸ h⟩

theorem Except.map_eq_ok {ε α β : Type} {x : Except ε α} {f : α → β} {b : β} :
    f <$> x = .ok b ↔ ∃ a, x = .ok a ∧ f a = b := by
  cases x with
  | error e => exact ⟨fun h => (by cases h), fun ⟨_, h, _⟩ => (by cases h)⟩
  | ok a =>
    exact ⟨fun h => ⟨a, rfl, Except.ok.inj h⟩, fun ⟨_, ha, h⟩ => by rw [ha, ← h]; rfl⟩

theorem Except.exists_ok {ε α : Type} {x : Except ε α} (h : x.isOk = true) : ∃ a, x = .ok a := by
  cases x with
  | error e => cases h
  | ok a => exact ⟨a, rfl⟩

/-- A program on states `σ` that fails with an `ε` or returns an `α`. -/
def Fallible (σ ε α : Type) := σ → Except ε α × σ

namespace Fallible

variable {σ τ ε ε' α β ι : Type}

instance : Monad (Fallible σ ε) where
  pure a := fun s => (.ok a, s)
  bind p f := fun s =>
    match p s with
    | (.ok a, s') => f a s'
    | (.error e, s') => (.error e, s')

def fail (e : ε) : Fallible σ ε α := fun s => (.error e, s)

/-- The value of a result, or its error, translated. -/
def ofExcept (f : ε' → ε) : Except ε' α → Fallible σ ε α
  | .ok a => pure a
  | .error e => fail (f e)

/-- A value that depends on the state, and the state it leaves. -/
def act (f : σ → α × σ) : Fallible σ ε α := fun s => (.ok (f s).1, (f s).2)

/-- A program on a part of the state. -/
def within (get : τ → σ) (put : σ → τ → τ) (p : Fallible σ ε α) : Fallible τ ε α := fun t =>
  ((p (get t)).1, put (p (get t)).2 t)

/-- A program run for what it does to the state. -/
def ignore (p : Fallible σ ε α) : Fallible σ ε' Unit := fun s => (.ok (), (p s).2)

/-- Translates the error of a program. -/
def mapErr (f : ε' → ε) (p : Fallible σ ε' α) : Fallible σ ε α := fun s =>
  match p s with
  | (.ok a, s') => (.ok a, s')
  | (.error e, s') => (.error (f e), s')

/-- Runs `cleanup` when `p` fails, and fails as `p` did. -/
def onFailure (cleanup : Fallible σ ε Unit) (p : Fallible σ ε α) : Fallible σ ε α := fun s =>
  match p s with
  | (.ok a, s') => (.ok a, s')
  | (.error e, s') => (.error e, (cleanup s').2)

/-- Runs `f` on each element, in order. -/
def forEach (f : ι → Fallible σ ε Unit) : List ι → Fallible σ ε Unit
  | [] => pure ()
  | x :: xs => do
    f x
    forEach f xs

theorem bind_of_ok {p : Fallible σ ε α} {f : α → Fallible σ ε β} {s s' : σ} {a : α}
    (h : p s = (.ok a, s')) : (p >>= f) s = f a s' := by
  show (match p s with
    | (.ok a, s') => f a s'
    | (.error e, s') => (.error e, s')) = f a s'
  rw [h]

theorem bind_of_error {p : Fallible σ ε α} {f : α → Fallible σ ε β} {s s' : σ} {e : ε}
    (h : p s = (.error e, s')) : (p >>= f) s = (.error e, s') := by
  show (match p s with
    | (.ok a, s') => f a s'
    | (.error e, s') => (.error e, s')) = (.error e, s')
  rw [h]

instance : LawfulMonad (Fallible σ ε) := LawfulMonad.mk' _
  (fun p => by
    funext s
    cases h : p s with
    | mk r s' =>
      cases r with
      | ok a => exact bind_of_ok h
      | error e => exact bind_of_error h)
  (fun _ _ => rfl)
  (fun p f g => by
    funext s
    cases h : p s with
    | mk r s' =>
      cases r with
      | ok a =>
        have hfirst : (p >>= f) s = f a s' := bind_of_ok h
        show (match (p >>= f) s with
          | (.ok b, s') => g b s'
          | (.error e, s') => (.error e, s')) = _
        rw [hfirst, bind_of_ok h]
        rfl
      | error e => rw [bind_of_error (bind_of_error h), bind_of_error h])

/-- The result of a sequence, without its states. -/
theorem fst_bind {p : Fallible σ ε α} {f : α → Fallible σ ε β} {s s' : σ} {r : Except ε α}
    (h : p s = (r, s')) : ((p >>= f) s).1 = r >>= fun a => (f a s').1 := by
  cases r with
  | ok a => rw [bind_of_ok h]; rfl
  | error e => rw [bind_of_error h]; rfl

theorem map_apply (f : α → β) (p : Fallible σ ε α) (s : σ) :
    (f <$> p) s = (f <$> (p s).1, (p s).2) := by
  show (p >>= fun a => pure (f a)) s = _
  cases h : p s with
  | mk r s' =>
    cases r with
    | ok a => exact bind_of_ok h
    | error e => exact bind_of_error h

/-! ### Triples -/

/-- Run in a state with `pre`, the program ends with `post` of its result and
state, or fails with `failed` of its error and state. -/
def Ensures (pre : σ → Prop) (p : Fallible σ ε α) (post : α → σ → Prop)
    (failed : ε → σ → Prop) : Prop :=
  ∀ s, pre s → (∀ a s', p s = (.ok a, s') → post a s') ∧
    (∀ e s', p s = (.error e, s') → failed e s')

namespace Ensures

variable {pre pre' : σ → Prop} {post post' : α → σ → Prop} {failed failed' : ε → σ → Prop}

theorem pure {a : α} (h : ∀ s, pre s → post a s) :
    Ensures pre (Pure.pure a : Fallible σ ε α) post failed := by
  intro s hs
  refine ⟨?_, ?_⟩
  · intro b s' hb
    cases hb
    exact h s hs
  · intro e s' he
    cases he

theorem fail {e : ε} (h : ∀ s, pre s → failed e s) :
    Ensures pre (Fallible.fail e : Fallible σ ε α) post failed := by
  intro s hs
  refine ⟨?_, ?_⟩
  · intro b s' hb
    cases hb
  · intro e' s' he
    cases he
    exact h s hs

theorem act {f : σ → α × σ} (h : ∀ s, pre s → post (f s).1 (f s).2) :
    Ensures pre (Fallible.act f : Fallible σ ε α) post failed := by
  intro s hs
  refine ⟨?_, ?_⟩
  · intro b s' hb
    cases hb
    exact h s hs
  · intro e s' he
    cases he

theorem ofExcept {f : ε' → ε} {r : Except ε' α} (hok : ∀ a s, r = .ok a → pre s → post a s)
    (herr : ∀ e s, r = .error e → pre s → failed (f e) s) :
    Ensures pre (Fallible.ofExcept f r : Fallible σ ε α) post failed := by
  cases r with
  | ok a => exact pure fun s hs => hok a s rfl hs
  | error e => exact fail fun s hs => herr e s rfl hs

theorem bind {p : Fallible σ ε α} {f : α → Fallible σ ε β} {R : α → σ → Prop}
    {post : β → σ → Prop} (hp : Ensures pre p R failed)
    (hf : ∀ a, Ensures (R a) (f a) post failed) : Ensures pre (p >>= f) post failed := by
  intro s hs
  obtain ⟨hok, herr⟩ := hp s hs
  cases hr : p s with
  | mk r s' =>
    cases r with
    | ok a =>
      rw [bind_of_ok hr]
      exact hf a s' (hok a s' hr)
    | error e =>
      rw [bind_of_error hr]
      refine ⟨?_, ?_⟩
      · intro b s'' hb
        cases hb
      · intro e' s'' he
        cases he
        exact herr e s' hr

theorem mono (hpre : ∀ s, pre' s → pre s) (hpost : ∀ a s, post a s → post' a s)
    (hfailed : ∀ e s, failed e s → failed' e s) {p : Fallible σ ε α}
    (h : Ensures pre p post failed) : Ensures pre' p post' failed' := by
  intro s hs
  obtain ⟨hok, herr⟩ := h s (hpre s hs)
  exact ⟨fun a s' ha => hpost a s' (hok a s' ha), fun e s' he => hfailed e s' (herr e s' he)⟩

theorem weaken {p : Fallible σ ε α} (h : Ensures pre p post failed)
    (hpre : ∀ s, pre' s → pre s) : Ensures pre' p post failed :=
  h.mono hpre (fun _ _ h => h) (fun _ _ h => h)

theorem mapErr {f : ε' → ε} {p : Fallible σ ε' α}
    (hp : Ensures pre p post (fun e s => failed (f e) s)) :
    Ensures pre (Fallible.mapErr f p) post failed := by
  intro s hs
  obtain ⟨hok, herr⟩ := hp s hs
  unfold Fallible.mapErr
  cases hr : p s with
  | mk r s' =>
    cases r with
    | ok a =>
      refine ⟨?_, ?_⟩
      · intro b s'' hb
        cases hb
        exact hok a s' hr
      · intro e s'' he
        cases he
    | error e =>
      refine ⟨?_, ?_⟩
      · intro b s'' hb
        cases hb
      · intro e' s'' he
        cases he
        exact herr e s' hr

theorem ignore {post' : Unit → σ → Prop} {p : Fallible σ ε' α}
    (hp : Ensures pre p (fun _ s => post' () s) (fun _ s => post' () s)) :
    Ensures pre (Fallible.ignore p) post' failed := by
  intro s hs
  obtain ⟨hok, herr⟩ := hp s hs
  refine ⟨?_, ?_⟩
  · intro u s' hu
    cases hu
    cases hr : p s with
    | mk r s' =>
      cases r with
      | ok a => exact hok a s' hr
      | error e => exact herr e s' hr
  · intro e s' he
    cases he

/-- Cleaning up matters only to the state. -/
theorem onFailure {cleanup : Fallible σ ε Unit} {p : Fallible σ ε α}
    (hp : Ensures pre p post failed') (hcleanup : ∀ e s, failed' e s → failed e (cleanup s).2) :
    Ensures pre (Fallible.onFailure cleanup p) post failed := by
  intro s hs
  obtain ⟨hok, herr⟩ := hp s hs
  unfold Fallible.onFailure
  cases hr : p s with
  | mk r s' =>
    cases r with
    | ok a =>
      refine ⟨?_, ?_⟩
      · intro b s'' hb
        cases hb
        exact hok a s' hr
      · intro e s'' he
        cases he
    | error e =>
      refine ⟨?_, ?_⟩
      · intro b s'' hb
        cases hb
      · intro e' s'' he
        cases he
        exact hcleanup e s' (herr e s' hr)

/-- The rule of a loop: `pre` is its invariant. -/
theorem forEach {f : ι → Fallible σ ε Unit} (hf : ∀ x, Ensures pre (f x) (fun _ => pre) failed)
    (xs : List ι) : Ensures pre (Fallible.forEach f xs) (fun _ => pre) failed := by
  induction xs with
  | nil => exact pure fun s hs => hs
  | cons x xs ih => exact (hf x).bind fun _ => ih

end Ensures

end Fallible
