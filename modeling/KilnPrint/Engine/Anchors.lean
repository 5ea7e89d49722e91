/-
Every active record has its row, whatever fails.

When a repository call fails, the active map runs ahead of the repository: the stored
record of an active job may be an older one.  It is never missing, though, nor that of another
job:

* `Change.fixed`, `fixed_apply` — the fields that no change touches;
* `Ledger.Rooted`, `Rooted.step` — **an active record has an open stored record with
  its fixed fields**, after every move;
* `rooted_of_reach`, `keyed_of_reach` — the same for the engine, and that its keys
  stay unique when repository calls fail.
-/
import KilnPrint.Engine.SubmitGate
import KilnPrint.Engine.AtMostOnce

namespace KilnPrint

open Custody Runs

namespace Change

variable {ch : Change} {j : Job} {now stamp : Time}

/-- The fields fixed at creation, with the time of it. -/
def fixed (j : Job) : (JobId × String × Option String) × Time := (identity j, j.createdAt)

theorem fixed_apply : fixed (ch.apply now j).1 = fixed j := by
  refine apply_keeps fixed (fun k k' next h => ?_) ?_ ?_ ?_ ?_ ?_ ?_ ?_ ?_
  · exact transition_keeps fixed (fun _ _ _ _ _ _ _ => rfl) h
  all_goals first | exact fun _ _ => rfl | exact fun _ _ _ => rfl | skip
  rintro x rfl
  rfl

theorem fixed_mutated : fixed (ch.mutated now stamp j).job = fixed j :=
  (fixed_apply : fixed (ch.apply now j).1 = fixed j)

end Change

namespace Ledger

variable {l l' : Ledger} {mv : Move} {id : JobId}

/-- An active record has an open stored record with its fixed fields. -/
structure Rooted (l : Ledger) : Prop where
  active : ∀ id j, l.active id = some j →
    ∃ k, l.stored id = some k ∧ Change.fixed k = Change.fixed j ∧ k.status.isTerminal = false
  /-- A record on its way into the active map is stored as it is. -/
  staged : ∀ id job, l.custody id = some (.stored job) → l.stored id = some job

theorem Rooted.anchored (h : l.Rooted) : l.Anchored := by
  intro id j hj
  obtain ⟨k, hk, hfixed, -⟩ := h.active id j hj
  exact ⟨k, hk, congrArg Prod.fst hfixed⟩

/-- A mutation leaves an open record with a row, also when the row is not written. -/
theorem Rooted.change {o : Origin} {r : Reading} {ch : Change} {j : Job} {σ' : Option Stage}
    (h : l.Rooted) (hinv : l.Inv) (hj : l.active id = some j)
    (hσ : ∀ τ, σ' = some τ → τ.unshared = false) :
    ((l.change o r id ch j).hand id σ').Rooted := by
  obtain ⟨hid, -⟩ := hinv.activeId id j hj
  refine ⟨fun id' k hk => ?_, fun id' job hc => ?_⟩
  · by_cases he : id' = id
    · subst he
      rw [active_hand, active_change_self] at hk
      split at hk
      · cases hk
      · next hopen =>
        obtain rfl := Option.some_inj.mp hk
        rw [stored_hand]
        rcases stored_change_self o r ch hid with hs | hs
        · exact ⟨_, hs, rfl, by simpa using hopen⟩
        · obtain ⟨k, hk, hfixed, hopen'⟩ := h.active id' j hj
          exact ⟨k, hs.trans hk, hfixed.trans Change.fixed_mutated.symm, hopen'⟩
    · rw [active_hand, active_change_of_ne he] at hk
      rw [stored_hand, stored_change_of_ne hid he]
      exact h.active id' k hk
  · by_cases he : id' = id
    · subst he
      rw [custody_hand, Function.update_self] at hc
      exact absurd (hσ _ hc) Bool.noConfusion
    · rw [custody_hand, Function.update_of_ne he] at hc
      rw [stored_hand, stored_change_of_ne hid he]
      exact h.staged id' job hc

/-- Handing a job over touches no record. -/
theorem Rooted.hand {σ' : Option Stage} (h : l.Rooted)
    (hσ' : ∀ τ, σ' = some τ → τ.unshared = false) : (l.hand id σ').Rooted := by
  refine ⟨h.active, fun id' job hc => ?_⟩
  by_cases he : id' = id
  · subst he
    rw [custody_hand, Function.update_self] at hc
    exact absurd (hσ' _ hc) Bool.noConfusion
  · rw [custody_hand, Function.update_of_ne he] at hc
    exact h.staged id' job hc

/-- A stored record becomes active. -/
theorem Rooted.activate {job : Job} {τ : Stage} (h : l.Rooted)
    (hst : l.stored job.jobId = some job) (hopen : job.status.isTerminal = false)
    (hτ : τ.unshared = false) :
    ({ l.hand job.jobId (some τ) with
      active := Function.update l.active job.jobId (some job) } : Ledger).Rooted := by
  have hhand : (l.hand job.jobId (some τ)).Rooted :=
    h.hand fun τ' hτ' => Option.some_inj.mp hτ' ▸ hτ
  refine ⟨fun id j hj => ?_, hhand.staged⟩
  have hj' : Function.update l.active job.jobId (some job) id = some j := hj
  by_cases he : id = job.jobId
  · subst he
    rw [Function.update_self, Option.some_inj] at hj'
    subst hj'
    exact ⟨job, hst, rfl, hopen⟩
  · rw [Function.update_of_ne he] at hj'
    exact h.active id j hj'

/-- **Every move leaves each active record its stored one.** -/
theorem Rooted.step (h : l.Rooted) (hinv : l.Inv) (hs : l.Step mv l') : l'.Rooted := by
  cases hs with
  | quiet => exact h
  | note he => exact ⟨h.active, h.staged⟩
  | @draw job hl hid hfresh =>
    have hh : (l.hand l.next (some (.draft job))).Rooted := h.hand fun τ hτ => by cases hτ; rfl
    exact ⟨hh.active, hh.staged⟩
  | forget hc hσ hj => exact h.hand fun τ hτ => by cases hτ
  | @store job hc =>
    refine ⟨fun id j hj => ?_, fun id k hk => ?_⟩
    -- a draft is not active, so no row of an active job is overwritten
    · have he : id ≠ job.jobId := by
        rintro rfl
        exact (hinv.fits _ _ hc).allows j hj
      show ∃ k, Function.update l.stored job.jobId (some job) id = some k ∧ _
      rw [Function.update_of_ne he]
      exact h.active id j hj
    · show Function.update l.stored job.jobId (some job) id = some k
      have hk' : Function.update l.custody job.jobId (some (.stored job)) id = some (.stored k) := hk
      by_cases he : id = job.jobId
      · subst he
        rw [Function.update_self] at hk' ⊢
        cases hk'
        rfl
      · rw [Function.update_of_ne he] at hk' ⊢
        exact h.staged id k hk'
  | @announce job hc =>
    obtain ⟨-, -, hst, -⟩ := (hinv.fits _ _ hc).stored job rfl
    have hh := h.activate (τ := .received) (h.staged _ _ hc) (by rw [hst]; rfl) rfl
    exact ⟨hh.active, hh.staged⟩
  | @relabel id σ σ' hc hσ _ _ _ hcarry _ =>
    exact h.hand fun τ hτ => by cases hτ; exact Stage.unshared_of_carries hcarry
  | @own id σ σ' ch j r hc hh hj =>
    refine h.change hinv hj fun τ hτ => ?_
    subst hτ
    exact Stage.unshared_of_carries hh.carries
  | @foreign o id ch j r hfo hj =>
    rw [← (l.change o r id ch j).hand_custody id]
    refine h.change hinv hj fun τ hτ => ?_
    have ha := (hinv.fits id τ hτ).allows j hj
    cases τ <;> first | rfl | exact absurd ha not_false
  | @invokeCalling id p hc =>
    have hh : (l.hand id (some (.calling true))).Rooted := h.hand fun τ hτ => by cases hτ; rfl
    exact ⟨hh.active, hh.staged⟩
  | @invokeExpired id p hc =>
    have hh : (l.hand id (some (.expired true))).Rooted := h.hand fun τ hτ => by cases hτ; rfl
    exact ⟨hh.active, hh.staged⟩
  | orphan ids hσ =>
    refine ⟨h.active, fun id k hk => ?_⟩
    have hk' : (if id ∈ ids then none else l.custody id) = some (.stored k) := hk
    split at hk'
    · cases hk'
    · exact h.staged id k hk'
  | load _ hc ha =>
    refine ⟨h.active, fun id k hk => ?_⟩
    obtain ⟨job, -, he⟩ := Option.map_eq_some_iff.mp hk
    cases he
  | @reopen job hc =>
    obtain ⟨-, hstored, hopen⟩ := (hinv.fits _ _ hc).unloaded job rfl
    exact h.activate hstored hopen rfl
  | purge cutoff =>
    -- a purge removes closed records only
    have hkeep : ∀ id j, j.status.isTerminal = false → l.stored id = some j →
        (l.stored id).filter (fun k => !(k.status.isTerminal && k.createdAt < cutoff)) =
          some j := by
      intro id j hopen hj
      rw [hj, Option.filter_some, if_pos (by simp [hopen])]
    refine ⟨fun id j hj => ?_, fun id k hk => ?_⟩
    · obtain ⟨k, hk, hfixed, hopen⟩ := h.active id j hj
      exact ⟨k, hkeep id k hopen hk, hfixed, hopen⟩
    · obtain ⟨-, -, hst, -⟩ := (hinv.fits id _ hk).stored k rfl
      exact hkeep id k (by rw [hst]; rfl) (h.staged id k hk)
  | crash => exact ⟨fun id j hj => (by cases hj), fun id k hk => (by cases hk)⟩

theorem Rooted.empty : (Ledger.empty : Ledger).Rooted :=
  ⟨fun _ _ h => (by cases h), fun _ _ h => (by cases h)⟩

end Ledger

/-! ### Runs of the engine -/

variable {env : Env} {s : State} {ok : State → Action → Prop}

theorem rooted_of_reach (h : Reach (step env) ok init s) : (ledger s).Rooted :=
  reach_ledger .empty (fun _ _ _ _ _ _ hinv hj hs => hj.step hinv hs) h

/-- **No two records share a key**, in every run. -/
theorem keyed_of_reach (h : Reach (step env) ok init s) : Keyed s :=
  h.invariant keyed_init fun _ _ _ hr hk _ hs =>
    keyed_step_of_anchored (wf_of_reach hr) (rooted_of_reach hr).anchored hk hs

end KilnPrint
