/-
Compare-exchange loops.

A call updates a shared cell without a lock: it reads the cell, computes the new
value, and exchanges the two if the cell still holds what was read; otherwise it
starts over with what the cell holds now.

* `Loop` — the point a call has reached;
* `Loop.step` — one access to the cell;
* `Outcome`, `Loop.step_outcome` — **every access is silent, or it is the whole
  update at once**.
-/
import Mathlib.Data.Option.Basic

/-- A call of the update `f k`, where `f` gives no value if the update is refused. -/
inductive Loop {σ κ : Type} (f : κ → σ → Option σ)
  /-- About to read the cell. -/
  | load (k : κ)
  /-- About to exchange `current` for `next`, which was computed from it. -/
  | exchange (k : κ) (current next : σ) (h : f k current = some next)
  | done (k : κ)
  | refused (k : κ)

namespace Loop

variable {σ κ : Type} [DecidableEq σ] {f : κ → σ → Option σ}

/-- A call that has read the cell. -/
def attempt (f : κ → σ → Option σ) (k : κ) (current : σ) : Loop f :=
  match h : f k current with
  | some next => .exchange k current next h
  | none => .refused k

/-- One access to the cell.  A weak exchange may fail although the values are equal
(`spurious`). -/
def step (spurious : Bool) (cell : σ) : Loop f → Option (σ × Loop f)
  | .load k => some (cell, attempt f k cell)
  | .exchange k current next _ =>
    if cell = current ∧ spurious = false then some (next, .done k)
    else some (cell, attempt f k cell)
  | _ => none

/-- The update that a call makes. -/
def update : Loop f → κ
  | .load k | .exchange k _ _ _ | .done k | .refused k => k

/-- The call has not ended. -/
def running : Loop f → Bool
  | .load _ | .exchange .. => true
  | _ => false

/-- What an access amounts to: nothing yet, or the whole update of the cell. -/
inductive Outcome (f : κ → σ → Option σ) (k : κ) (cell : σ) : σ → Loop f → Prop
  | silent {p : Loop f} (hk : p.update = k) (hp : p.running = true) : Outcome f k cell cell p
  | updated {next : σ} (h : f k cell = some next) : Outcome f k cell next (.done k)
  | refused (h : f k cell = none) : Outcome f k cell cell (.refused k)

omit [DecidableEq σ] in
theorem attempt_outcome (k : κ) (cell : σ) : Outcome f k cell cell (attempt f k cell) := by
  unfold attempt
  split
  · exact .silent rfl rfl
  case h_2 h => exact .refused h

/-- **Every access is silent, or it is the whole update at once**: the update is
refused where the cell is read, and made where it is exchanged. -/
theorem step_outcome {spurious : Bool} {cell cell' : σ} {p p' : Loop f}
    (h : step spurious cell p = some (cell', p')) :
    p.running = true ∧ Outcome f p.update cell cell' p' := by
  cases p with
  | load k =>
    obtain ⟨rfl, rfl⟩ := Prod.mk.inj (Option.some.inj h)
    exact ⟨rfl, attempt_outcome k cell⟩
  | exchange k current next hf =>
    refine ⟨rfl, ?_⟩
    simp only [step] at h
    split at h
    case isTrue hsame =>
      obtain ⟨rfl, rfl⟩ := Prod.mk.inj (Option.some.inj h)
      obtain ⟨rfl, -⟩ := hsame
      exact .updated hf
    case isFalse =>
      obtain ⟨rfl, rfl⟩ := Prod.mk.inj (Option.some.inj h)
      exact attempt_outcome k cell
  | done k => cases h
  | refused k => cases h

end Loop
