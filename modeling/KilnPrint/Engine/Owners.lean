/-
A job keeps its owner.

Both copies of a job's record name the same client, also when repository calls
fail and the copies differ otherwise.

* `Ledger.Owned` — the invariant;
* `Owned.step` — **every move keeps it**;
* `owner_of_reach` — the statement for the engine.
-/
import KilnPrint.Engine.Simulation

namespace KilnPrint

open Runs

/-- No change gives a job to another client. -/
theorem Change.clientId_mutated {ch : Change} {now stamp : Time} {j : Job} :
    (ch.mutated now stamp j).job.clientId = j.clientId :=
  congrArg (fun i => i.2.1) (identity_apply : identity (ch.apply now j).1 = identity j)

namespace Ledger

variable {l l' : Ledger} {mv : Move} {id : JobId}

/-- Both copies of a record belong to one client. -/
structure Owned (l : Ledger) : Prop where
  active : ∀ id j k, l.active id = some j → l.stored id = some k → k.clientId = j.clientId
  /-- So do the stored copy and a record on its way into the active map. -/
  staged : ∀ id job k, l.custody id = some (.stored job) → l.stored id = some k →
    k.clientId = job.clientId

theorem Owned.empty : (empty : Ledger).Owned := by
  constructor
  · intro id j k hj
    cases hj
  · intro id job k hc
    cases hc

/-- Handing a job to a stage that carries no record. -/
theorem Owned.hand {o : Option Stage} (h : l.Owned) (ho : ∀ job, o ≠ some (.stored job)) :
    (l.hand id o).Owned := by
  refine ⟨h.active, ?_⟩
  intro id' job k hc hk
  by_cases he : id' = id
  · subst he
    rw [custody_hand, Function.update_self] at hc
    exact absurd hc (ho job)
  · rw [custody_hand, Function.update_of_ne he] at hc
    exact h.staged id' job k hc hk

/-- A mutation leaves the owner in both copies, or the stored copy as it was. -/
theorem Owned.change {o : Origin} {r : Reading} {ch : Change} {j : Job} (h : l.Owned)
    (hinv : l.Inv) (hj : l.active id = some j) : (l.change o r id ch j).Owned := by
  obtain ⟨hid, -⟩ := hinv.activeId id j hj
  have hstored : ∀ k, (l.change o r id ch j).stored id = some k → k.clientId = j.clientId := by
    intro k hk
    rcases stored_change_self o r ch hid with hs | hs
    · rw [hs, Option.some_inj] at hk
      rw [← hk]
      exact Change.clientId_mutated
    · rw [hs] at hk
      exact h.active id j k hj hk
  constructor
  · intro id' j' k hj' hk
    by_cases he : id' = id
    · subst he
      rw [active_change_self] at hj'
      split at hj'
      · cases hj'
      · obtain rfl := Option.some.inj hj'
        rw [hstored k hk]
        exact Change.clientId_mutated.symm
    · rw [active_change_of_ne he] at hj'
      rw [stored_change_of_ne hid he] at hk
      exact h.active id' j' k hj' hk
  · intro id' job k hc hk
    -- an active job is past the stage that carries its record
    have he : id' ≠ id := by
      rintro rfl
      exact (hinv.fits id' _ hc).allows j hj
    rw [stored_change_of_ne hid he] at hk
    exact h.staged id' job k hc hk

/-- A record enters the active map with the owner of its stored copy. -/
theorem Owned.activate {job : Job} {τ : Stage} (h : l.Owned)
    (hst : ∀ k, l.stored job.jobId = some k → k.clientId = job.clientId)
    (hτ : ∀ job', τ ≠ .stored job') :
    ({ l.hand job.jobId (some τ) with
      active := Function.update l.active job.jobId (some job) } : Ledger).Owned := by
  constructor
  · intro id j k hj hk
    have hj' : Function.update l.active job.jobId (some job) id = some j := hj
    by_cases he : id = job.jobId
    · subst he
      rw [Function.update_self] at hj'
      obtain rfl := Option.some.inj hj'
      exact hst k hk
    · rw [Function.update_of_ne he] at hj'
      exact h.active id j k hj' hk
  · exact (h.hand fun job' hc => hτ job' (Option.some.inj hc)).staged

/-- **Every move keeps the owners.** -/
theorem Owned.step (h : l.Owned) (hinv : l.Inv) (hs : l.Step mv l') : l'.Owned := by
  cases hs with
  | quiet => exact h
  | note he => exact ⟨h.active, h.staged⟩
  | @draw job hl hid hfresh =>
    have hh : (l.hand l.next (some (.draft job))).Owned := h.hand fun job' => by simp
    exact ⟨hh.active, hh.staged⟩
  | forget hc hσ hj => exact h.hand fun job' => by simp
  | @store job hc =>
    -- a draft is not active, so the record stored here is compared with none
    have hnone : ∀ j, l.active job.jobId ≠ some j := fun j hj => (hinv.fits _ _ hc).allows j hj
    constructor
    · intro id j k hj hk
      have hk' : Function.update l.stored job.jobId (some job) id = some k := hk
      have he : id ≠ job.jobId := by
        rintro rfl
        exact hnone j hj
      rw [Function.update_of_ne he] at hk'
      exact h.active id j k hj hk'
    · intro id job' k hc' hk
      have hk' : Function.update l.stored job.jobId (some job) id = some k := hk
      have hc'' : Function.update l.custody job.jobId (some (.stored job)) id =
          some (.stored job') := hc'
      by_cases he : id = job.jobId
      · subst he
        rw [Function.update_self] at hk' hc''
        obtain rfl := Option.some.inj hk'
        cases hc''
        rfl
      · rw [Function.update_of_ne he] at hk' hc''
        exact h.staged id job' k hc'' hk'
  | @announce job hc =>
    -- from here on the active record is compared with the one stored before
    have hh := h.activate (τ := .received) (h.staged _ job · hc) fun _ => Stage.noConfusion
    exact ⟨hh.active, hh.staged⟩
  | @relabel id σ σ' hc hσ _ _ _ hcarry _ =>
    refine h.hand ?_
    rintro job ⟨⟩
    cases hcarry
  | @own id σ σ' ch j r hc hh hj =>
    refine (h.change hinv hj).hand ?_
    rintro job rfl
    cases hh.carries
  | @foreign o id ch j r hfo hj => exact h.change hinv hj
  | @invokeCalling id p hc =>
    have hh : (l.hand id (some (.calling true))).Owned := h.hand fun job => by simp
    exact ⟨hh.active, hh.staged⟩
  | @invokeExpired id p hc =>
    have hh : (l.hand id (some (.expired true))).Owned := h.hand fun job => by simp
    exact ⟨hh.active, hh.staged⟩
  | orphan ids hσ =>
    refine ⟨h.active, ?_⟩
    intro id job k hc hk
    have hc' : l.custody id = some (.stored job) := custody_of_orphan hc
    exact h.staged id job k hc' hk
  | load hl hc ha =>
    refine ⟨h.active, ?_⟩
    intro id job k hc' hk
    have hload : (l.openRecord id).map Stage.unloaded = some (.stored job) := hc'
    obtain ⟨j, -, hj⟩ := Option.map_eq_some_iff.mp hload
    cases hj
  | @reopen job hc =>
    refine h.activate ?_ fun _ => Stage.noConfusion
    intro k hk
    obtain ⟨-, hst, -⟩ := (hinv.fits _ _ hc).unloaded job rfl
    rw [hst, Option.some_inj] at hk
    rw [hk]
  | purge cutoff =>
    constructor
    · intro id j k hj hk
      exact h.active id j k hj (stored_of_purge hk)
    · intro id job k hc hk
      exact h.staged id job k hc (stored_of_purge hk)
  | crash =>
    constructor
    · intro id j k hj
      cases hj
    · intro id job k hc
      cases hc

end Ledger

/-- **Both copies of a job's record name the same client**, in every state of every
run, whichever repository calls fail. -/
theorem owner_of_reach {env : Env} {ok : State → Action → Prop} {s : State}
    (h : Reach (step env) ok init s) {id : JobId} {j k : Job} (hj : s.active.lookup id = some j)
    (hk : s.repo.lookup id = some k) : k.clientId = j.clientId := by
  have howned : (ledger s).Owned :=
    reach_ledger Ledger.Owned.empty (fun _ _ _ _ _ _ hinv ho hs => ho.step hinv hs) h
  exact howned.active id j k hj hk

end KilnPrint
