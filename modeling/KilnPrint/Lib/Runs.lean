/-
Runs of partial step functions.

A system is a step function `step : σ → α → Option σ`: `step s a = some s'`
means that action `a` is enabled in `s` and leads to `s'`.

* `Reach step ok s₀ s` — `s` is reached from `s₀` by enabled actions, each
  meeting `ok` in the state it is taken in;
* `Reach.invariant` — the induction rule: what holds initially and is
  preserved by every step holds in every state reached;
* `runFrom`, `checked`, `reach_of_checked` — executing a list of actions, and
  how an executed run with a decidable condition gives a `Reach`.

Design notes: the condition `ok` is part of the relation, so that results
about all runs (`ok` always true) and about restricted ones share one rule.
-/
import Mathlib.Logic.Basic
import Mathlib.Data.Option.Basic

namespace Runs

variable {σ α : Type}

/-- A step with a guard. -/
theorem of_guarded {c : Prop} [Decidable c] {s s' : σ}
    (h : (if c then some s else none) = some s') : c ∧ s = s' := by
  obtain ⟨hc, hs⟩ := Option.ite_none_right_eq_some.mp h
  exact ⟨hc, Option.some.inj hs⟩

/-- States reached from `s₀` by steps that all meet `ok`. -/
inductive Reach (step : σ → α → Option σ) (ok : σ → α → Prop) (s₀ : σ) : σ → Prop
  | refl : Reach step ok s₀ s₀
  | tail {s s' : σ} {a : α} :
      Reach step ok s₀ s → ok s a → step s a = some s' → Reach step ok s₀ s'

namespace Reach

variable {step : σ → α → Option σ} {ok ok' : σ → α → Prop} {s₀ s : σ}

/-- **The invariant rule.**  An invariant may use that the state it is
preserved from is reached. -/
theorem invariant {I : σ → Prop} (h₀ : I s₀)
    (hstep : ∀ s a s', Reach step ok s₀ s → I s → ok s a → step s a = some s' → I s')
    (h : Reach step ok s₀ s) : I s := by
  induction h with
  | refl => exact h₀
  | tail hr hok hs ih => exact hstep _ _ _ hr ih hok hs

/-- A weaker condition reaches at least as much. -/
theorem mono (himp : ∀ s a, ok s a → ok' s a) (h : Reach step ok s₀ s) :
    Reach step ok' s₀ s := by
  induction h with
  | refl => exact .refl
  | tail _ hok hs ih => exact .tail ih (himp _ _ hok) hs

end Reach

/-! ### Executed runs -/

/-- Executes a list of actions; `none` if one of them is not enabled. -/
def runFrom (step : σ → α → Option σ) : σ → List α → Option σ
  | s, [] => some s
  | s, a :: as => (step s a).bind fun s' => runFrom step s' as

/-- Executes a list of actions and insists on `ok` before each. -/
def checked (step : σ → α → Option σ) (ok : σ → α → Bool) : σ → List α → Option σ
  | s, [] => some s
  | s, a :: as =>
    if ok s a then (step s a).bind fun s' => checked step ok s' as else none

theorem reach_of_checked_from {step : σ → α → Option σ} {ok : σ → α → Prop}
    {okb : σ → α → Bool} (hok : ∀ s a, okb s a = true → ok s a) {s₀ : σ} :
    ∀ {as : List α} {s s' : σ}, Reach step ok s₀ s → checked step okb s as = some s' →
      Reach step ok s₀ s' := by
  intro as
  induction as with
  | nil =>
    intro s s' hr h
    rw [checked, Option.some_inj] at h
    exact h ▸ hr
  | cons a as ih =>
    intro s s' hr h
    rw [checked] at h
    split at h
    · next hb =>
      obtain ⟨t, ht, h'⟩ := Option.bind_eq_some_iff.mp h
      exact ih (hr.tail (hok _ _ hb) ht) h'
    · simp at h

/-- **An executed run reaches its last state.** -/
theorem reach_of_checked {step : σ → α → Option σ} {ok : σ → α → Prop}
    {okb : σ → α → Bool} (hok : ∀ s a, okb s a = true → ok s a) {s₀ s : σ} {as : List α}
    (h : checked step okb s₀ as = some s) : Reach step ok s₀ s :=
  reach_of_checked_from hok .refl h

/-- Insisting on a condition only makes a run shorter. -/
theorem runFrom_of_checked {step : σ → α → Option σ} {okb : σ → α → Bool} :
    ∀ {as : List α} {s s' : σ}, checked step okb s as = some s' → runFrom step s as = some s' := by
  intro as
  induction as with
  | nil => exact fun h => h
  | cons a as ih =>
    intro s s' h
    rw [checked] at h
    split at h
    · obtain ⟨t, ht, h'⟩ := Option.bind_eq_some_iff.mp h
      rw [runFrom, ht]
      exact ih h'
    · simp at h

end Runs
