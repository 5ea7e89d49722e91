/-
Every record of a run is coherent, and delivery only moves forward.

`Job.Coherent` says how the nine interdependent fields of a record belong
together.  A dozen closures update them piecewise; that each keeps the record
coherent from every state it can find it in is `Change.mutated_sound`, and that
it finds no other state is the ledger's invariant.

* `State.Copy` — a copy of a job's record, in memory or stored;
* `delivery_step` — a stored record's delivery stage never moves back;
* `records_coherent` — **the statement for the engine**.
-/
import KilnPrint.Engine.Agreement

namespace KilnPrint

open Runs

/-- `j` is a copy of the record of `id`: the active one or the stored one. -/
def State.Copy (s : State) (id : JobId) (j : Job) : Prop :=
  s.active.lookup id = some j ∨ s.repo.lookup id = some j

namespace Ledger

variable {l l' : Ledger} {mv : Move} {id : JobId} {j j' : Job}

/-- **The delivery stage of a stored record never moves back.** -/
theorem Agree.delivery_step (h : l.Agree) (hinv : l.Inv) (hs : l.Step mv l')
    (hj : l.stored id = some j) (hj' : l'.stored id = some j') :
    j.delivery.rank ≤ j'.delivery.rank := by
  have hsame : l.stored id = some j' → j.delivery.rank ≤ j'.delivery.rank := fun hk => by
    obtain rfl : j = j' := Option.some_inj.mp (hj.symm.trans hk)
    exact Nat.le_refl _
  have hchange : ∀ o r id' ch k, l.active id' = some k → ch.Permitted k →
      (l.change o r id' ch k).stored id = some j' → j.delivery.rank ≤ j'.delivery.rank := by
    intro o r id' ch k hk hp hres
    obtain ⟨hid, -⟩ := hinv.activeId id' k hk
    by_cases he : id = id'
    · subst he
      obtain rfl : j = k := Option.some_inj.mp (hj.symm.trans (h.synced id k hk))
      rcases stored_change_self o r ch hid with hs | hs
      · rw [hs, Option.some_inj] at hres
        subst hres
        exact Change.rank_le_mutated hp
      · exact hsame (hs ▸ hres)
    · rw [stored_change_of_ne hid he] at hres
      exact hsame hres
  cases hs with
  | @own id' σ σ' ch k r hc hh hk =>
    exact hchange σ.origin r id' ch k hk (hh.permitted ((hinv.fits id' σ hc).allows k hk)) hj'
  | @foreign o id' ch k r hfo hk => exact hchange o r id' ch k hk hfo.permitted hj'
  | @store job hc =>
    obtain ⟨-, -, hnone⟩ := (hinv.fits _ _ hc).draft job rfl
    have hne : id ≠ job.jobId := by
      rintro rfl
      rw [hnone] at hj
      cases hj
    have hres : Function.update l.stored job.jobId (some job) id = some j' := hj'
    rw [Function.update_of_ne hne] at hres
    exact hsame hres
  | purge cutoff => exact hsame (Option.filter_eq_some_iff.mp hj').1
  | _ => exact hsame hj'

end Ledger

/-! ### Runs of the engine -/

variable {env : Env} {s : State}

/-- In a reliable run every copy of a job's record is the stored one. -/
theorem stored_of_copy (h : Reach (step env) Reliable init s) {id : JobId} {j : Job}
    (hj : s.Copy id j) : s.repo.lookup id = some j :=
  hj.elim ((agree_of_reach h).synced id j) fun hj => hj

/-- **Every copy of every record is coherent, and no step moves its delivery to
an earlier stage.** -/
theorem records_coherent (h : Reach (step env) Reliable init s) :
    (∀ id j, s.Copy id j → j.Coherent) ∧
    ∀ a s' id j j', Reliable s a → step env s a = some s' → s.Copy id j → s'.Copy id j' →
      j.delivery.rank ≤ j'.delivery.rank := by
  have hw := wf_of_reach h
  refine ⟨fun id j hj => ?_, fun a s' id j j' hok hs hj hj' => ?_⟩
  · exact (hw.inv.stored id j (stored_of_copy h hj)).toCoherent
  · obtain ⟨mv, -, -, hmove⟩ := step_refines hw hs
    exact (agree_of_reach h).delivery_step hw.inv hmove (stored_of_copy h hj)
      (stored_of_copy (h.tail hok hs) hj')

/-- A job reaches the spooler. -/
def spoolingRun : List Action := booting ++ submitting 1 2 ++ printing 2 (.outcome (.spooled 7))

theorem records_coherent_spooled :
    ((after spoolingRun).active.lookup 0).map (·.delivery) = some .spoolerAccepted ∧
      ∀ j, (after spoolingRun).Copy 0 j → j.Coherent :=
  ⟨by decide +kernel, fun j hj => (records_coherent
    (reach_after Reliable spoolingRun (by decide +kernel))).1 0 j hj⟩

end KilnPrint
