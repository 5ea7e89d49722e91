/-
The active map and the repository agree.

While every repository call succeeds, the active map is a cache of the open
records:

* `Ledger.Agree` — the invariant: an active record is stored as it is, and an
  open stored record is active or about to be;
* `Agree.step` — **every reliable move keeps it**;
* `active_agrees` — the statement for the engine: once `start` has returned,
  a job is active exactly when its stored record is open, both copies are equal,
  and a terminal record stays as it is until it is purged.

Mutations persist while they hold the lock, so they have no halfway point;
adding a new job has one, between storing it and making it active.
-/
import KilnPrint.Engine.Simulation

namespace KilnPrint

open Custody Runs

/-! ### Reliable repositories -/

/-- The repository calls of this step succeed. -/
def Action.reliable : Action → Bool
  | .run _ inp => inp.repoOk
  | _ => true

def Reliable (_ : State) (a : Action) : Prop := a.reliable = true

/-- The repository call of this move, if any, succeeds. -/
def Move.Reliable : Move → Prop
  | own r _ _ | foreign _ r _ _ => r.repoOk = true
  | _ => True

theorem Move.Of.reliable {s : State} {a : Action} {mv : Move} (h : mv.Of s a)
    (ha : KilnPrint.Reliable s a) : mv.Reliable := by
  cases mv with
  | own r id ch =>
    obtain ⟨t, inp, rfl, rfl⟩ := h
    exact ha
  | foreign o r id ch =>
    obtain ⟨t, inp, rfl, rfl, -⟩ := h
    exact ha
  | _ => trivial

/-! ### The invariant -/

namespace Ledger

variable {l l' : Ledger} {mv : Move} {id : JobId}

/-- The active map is a cache of the open stored records. -/
structure Agree (l : Ledger) : Prop where
  synced : ∀ id j, l.active id = some j → l.stored id = some j
  /-- A record on its way into the active map is stored as it is. -/
  staged : ∀ id job, l.custody id = some (.stored job) → l.stored id = some job
  covered : l.loaded = true → ∀ id j, l.stored id = some j → j.status.isTerminal = false →
    l.active id = some j ∨ ∃ σ, l.custody id = some σ ∧ σ.unshared = true

/-- A reliable mutation stores what it leaves behind. -/
theorem stored_change_reliable {r : Reading} {j : Job} (o : Origin) (ch : Change) (h : l.Agree)
    (hj : l.active id = some j) (hid : j.jobId = id) (hr : r.repoOk = true) :
    (l.change o r id ch j).stored id = some (ch.mutated r.now r.stamp j).job := by
  have hm : (ch.mutated r.now r.stamp j).job.jobId = id := Change.jobId_mutated.trans hid
  show (if _ then Function.update l.stored _ _ else l.stored) id = _
  split
  · rw [hm, Function.update_self]
  · next hsame =>
    have hself : (ch.apply r.now j).1 = j := by
      by_contra hne
      exact hsame ⟨hne, hr⟩
    rw [Change.mutated_eq_self hself]
    exact h.synced id j hj

/-- **A reliable mutation keeps the copies equal**, when the job is not handed
to a stage that has yet to make it active. -/
theorem Agree.change {o : Origin} {r : Reading} {ch : Change} {j : Job} {σ' : Option Stage}
    (h : l.Agree) (hinv : l.Inv) (hj : l.active id = some j) (hr : r.repoOk = true)
    (hσ : ∀ τ, σ' = some τ → τ.unshared = false) :
    ((l.change o r id ch j).hand id σ').Agree := by
  obtain ⟨hid, -⟩ := hinv.activeId id j hj
  have hstored := stored_change_reliable o ch h hj hid hr
  refine ⟨fun id' k hk => ?_, fun id' job hc => ?_, fun hl id' k hk hopen => ?_⟩
  · by_cases he : id' = id
    · subst he
      rw [active_hand, active_change_self] at hk
      split at hk
      · cases hk
      · exact hstored.trans hk
    · rw [active_hand, active_change_of_ne he] at hk
      rw [stored_hand, stored_change_of_ne hid he]
      exact h.synced id' k hk
  · by_cases he : id' = id
    · subst he
      rw [custody_hand, Function.update_self] at hc
      exact absurd (hσ _ hc) Bool.noConfusion
    · rw [custody_hand, Function.update_of_ne he] at hc
      rw [stored_hand, stored_change_of_ne hid he]
      exact h.staged id' job hc
  · by_cases he : id' = id
    · subst he
      left
      rw [stored_hand, hstored, Option.some_inj] at hk
      subst hk
      rw [active_hand, active_change_self, if_neg (by simp [hopen])]
    · rw [stored_hand, stored_change_of_ne hid he] at hk
      rw [active_hand, active_change_of_ne he, custody_hand, Function.update_of_ne he]
      exact h.covered hl id' k hk hopen

/-- Handing over a job that is not waiting to become active keeps the copies
equal. -/
theorem Agree.hand {σ σ' : Option Stage} (h : l.Agree) (hc : l.custody id = σ)
    (hσ : ∀ τ, σ = some τ → τ.unshared = false) (hσ' : ∀ τ, σ' = some τ → τ.unshared = false) :
    (l.hand id σ').Agree := by
  refine ⟨h.synced, fun id' job hc' => ?_, fun hl id' k hk hopen => ?_⟩
  · by_cases he : id' = id
    · subst he
      rw [custody_hand, Function.update_self] at hc'
      exact absurd (hσ' _ hc') Bool.noConfusion
    · rw [custody_hand, Function.update_of_ne he] at hc'
      exact h.staged id' job hc'
  · rcases h.covered hl id' k hk hopen with ha | ⟨τ, hτ, hun⟩
    · exact Or.inl ha
    · have he : id' ≠ id := by
        rintro rfl
        rw [hσ τ (hc.symm.trans hτ)] at hun
        cases hun
      exact Or.inr ⟨τ, by rw [custody_hand, Function.update_of_ne he, hτ], hun⟩

/-- A stored record becomes active. -/
theorem Agree.activate {job : Job} {τ : Stage} (h : l.Agree)
    (hst : l.stored job.jobId = some job) (hτ : τ.unshared = false) :
    ({ l.hand job.jobId (some τ) with
      active := Function.update l.active job.jobId (some job) } : Ledger).Agree := by
  refine ⟨fun id j hj => ?_, fun id k hk => ?_, fun hl id j hj hopen => ?_⟩
  · have hj' : Function.update l.active job.jobId (some job) id = some j := hj
    by_cases he : id = job.jobId
    · subst he
      rw [Function.update_self] at hj'
      exact hst.trans hj'
    · rw [Function.update_of_ne he] at hj'
      exact h.synced id j hj'
  · have hk' : Function.update l.custody job.jobId (some τ) id = some (.stored k) := hk
    by_cases he : id = job.jobId
    · subst he
      rw [Function.update_self] at hk'
      cases hk'
      cases hτ
    · rw [Function.update_of_ne he] at hk'
      exact h.staged id k hk'
  · show Function.update l.active _ _ id = some j ∨
      ∃ σ, Function.update l.custody _ _ id = some σ ∧ _
    by_cases he : id = job.jobId
    · subst he
      left
      rw [Function.update_self]
      exact hst.symm.trans hj
    · rw [Function.update_of_ne he, Function.update_of_ne he]
      exact h.covered hl id j hj hopen

/-- **Every reliable move keeps the active map and the repository in
agreement.** -/
theorem Agree.step (h : l.Agree) (hinv : l.Inv) (hs : l.Step mv l') (hr : mv.Reliable) :
    l'.Agree := by
  cases hs with
  | quiet => exact h
  | note he => exact ⟨h.synced, h.staged, h.covered⟩
  | @draw job hl hid hfresh =>
    have hnone : l.custody l.next = none := by
      by_contra hne
      obtain ⟨σ, hσ⟩ := Option.ne_none_iff_exists'.mp hne
      exact Nat.lt_irrefl _ (hinv.custodyLt _ σ hσ)
    have hh : (l.hand l.next (some (.draft job))).Agree :=
      h.hand hnone (fun τ hτ => by cases hτ) (fun τ hτ => by cases hτ; rfl)
    exact ⟨hh.synced, hh.staged, hh.covered⟩
  | forget hc hσ hj =>
    exact h.hand hc (fun τ hτ => by cases hτ; exact hσ) (fun τ hτ => by cases hτ)
  | @store job hc =>
    obtain ⟨-, -, hnone⟩ := (hinv.fits _ _ hc).draft job rfl
    refine ⟨fun id j hj => ?_, fun id k hk => ?_, fun hl id j hj hopen => ?_⟩
    -- a draft is not active, so no active record is overwritten
    · have he : id ≠ job.jobId := by
        rintro rfl
        exact (hinv.fits _ _ hc).allows j hj
      show Function.update l.stored job.jobId (some job) id = some j
      rw [Function.update_of_ne he]
      exact h.synced id j hj
    · show Function.update l.stored job.jobId (some job) id = some k
      have hk' : Function.update l.custody job.jobId (some (.stored job)) id = some (.stored k) := hk
      by_cases he : id = job.jobId
      · subst he
        rw [Function.update_self] at hk' ⊢
        cases hk'
        rfl
      · rw [Function.update_of_ne he] at hk' ⊢
        exact h.staged id k hk'
    · show l.active id = some j ∨ ∃ σ, Function.update l.custody _ _ id = some σ ∧ _
      by_cases he : id = job.jobId
      · subst he
        exact Or.inr ⟨_, Function.update_self .., rfl⟩
      · have hj' : Function.update l.stored job.jobId (some job) id = some j := hj
        rw [Function.update_of_ne he] at hj' ⊢
        exact h.covered hl id j hj' hopen
  | @announce job hc =>
    have hh := h.activate (τ := .received) (h.staged _ _ hc) rfl
    exact ⟨hh.synced, hh.staged, hh.covered⟩
  | @relabel id σ σ' hc hσ _ _ _ hcarry _ =>
    exact h.hand hc (fun τ hτ => by cases hτ; exact hσ)
      (fun τ hτ => by cases hτ; exact Stage.unshared_of_carries hcarry)
  | @own id σ σ' ch j r hc hh hj =>
    refine h.change hinv hj hr fun τ hτ => ?_
    subst hτ
    exact Stage.unshared_of_carries hh.carries
  | @foreign o id ch j r hfo hj =>
    rw [← (l.change o r id ch j).hand_custody id]
    refine h.change hinv hj hr fun τ hτ => ?_
    have ha := (hinv.fits id τ hτ).allows j hj
    cases τ <;> first | rfl | exact absurd ha not_false
  | @invokeCalling id p hc =>
    have hh : (l.hand id (some (.calling true))).Agree :=
      h.hand hc (fun τ hτ => by cases hτ; rfl) (fun τ hτ => by cases hτ; rfl)
    exact ⟨hh.synced, hh.staged, hh.covered⟩
  | @invokeExpired id p hc =>
    have hh : (l.hand id (some (.expired true))).Agree :=
      h.hand hc (fun τ hτ => by cases hτ; rfl) (fun τ hτ => by cases hτ; rfl)
    exact ⟨hh.synced, hh.staged, hh.covered⟩
  | orphan ids hσ =>
    refine ⟨h.synced, fun id k hk => ?_, fun hl id j hj hopen => ?_⟩
    · have hk' : (if id ∈ ids then none else l.custody id) = some (.stored k) := hk
      split at hk'
      · cases hk'
      · exact h.staged id k hk'
    · rcases h.covered hl id j hj hopen with ha | ⟨τ, hτ, hun⟩
      · exact Or.inl ha
      · refine Or.inr ⟨τ, ?_, hun⟩
        show (if id ∈ ids then none else l.custody id) = some τ
        -- only shared stages are dropped, so the unshared one stays
        rw [if_neg, hτ]
        intro hmem
        rw [hσ id hmem τ hτ] at hun
        cases hun
  | load _ hc ha =>
    refine ⟨h.synced, fun id k hk => ?_, fun _ id j hj hopen => Or.inr ⟨.unloaded j, ?_, rfl⟩⟩
    · obtain ⟨job, -, he⟩ := Option.map_eq_some_iff.mp hk
      cases he
    · show (l.openRecord id).map Stage.unloaded = _
      rw [openRecord, show l.stored id = some j from hj, Option.filter_some, if_pos (by simp [hopen])]
      rfl
  | @reopen job hc =>
    obtain ⟨-, hstored, -⟩ := (hinv.fits _ _ hc).unloaded job rfl
    exact h.activate hstored rfl
  | purge cutoff =>
    -- a purge removes closed records only
    have hkeep : ∀ id j, j.status.isTerminal = false → l.stored id = some j →
        (l.stored id).filter (fun k => !(k.status.isTerminal && k.createdAt < cutoff)) =
          some j := by
      intro id j hopen hj
      rw [hj, Option.filter_some, if_pos (by simp [hopen])]
    refine ⟨fun id j hj => hkeep id j (hinv.active id j hj).2 (h.synced id j hj),
      fun id k hk => ?_, fun hl id j hj hopen => ?_⟩
    · obtain ⟨-, -, hst, -⟩ := (hinv.fits id _ hk).stored k rfl
      exact hkeep id k (by rw [hst]; rfl) (h.staged id k hk)
    · exact h.covered hl id j (stored_of_purge hj) hopen
  | crash =>
    exact ⟨fun id j hj => (by cases hj), fun id k hk => (by cases hk), fun hl => (by cases hl)⟩

/-- **A terminal record changes only when it is purged.** -/
theorem Agree.terminal_step {j : Job} (h : l.Agree) (hinv : l.Inv) (hs : l.Step mv l')
    (hpurge : ∀ cutoff, mv ≠ .purge cutoff) (hj : l.stored id = some j)
    (hterm : j.status.isTerminal = true) : l'.stored id = some j := by
  have hchange : ∀ o r id' ch k, l.active id' = some k →
      (l.change o r id' ch k).stored id = some j := by
    intro o r id' ch k hk
    have hne : id ≠ id' := by
      rintro rfl
      obtain rfl : j = k := Option.some_inj.mp (hj.symm.trans (h.synced id k hk))
      rw [(hinv.active id j hk).2] at hterm
      cases hterm
    rw [stored_change_of_ne (hinv.activeId id' k hk).1 hne, hj]
  cases hs with
  | @own id' σ σ' ch k r hc hh hk => exact hchange σ.origin r id' ch k hk
  | @foreign o id' ch k r hfo hk => exact hchange o r id' ch k hk
  | @store job hc =>
    obtain ⟨-, -, hnone⟩ := (hinv.fits _ _ hc).draft job rfl
    have hne : id ≠ job.jobId := by
      rintro rfl
      rw [hnone] at hj
      cases hj
    show Function.update l.stored job.jobId (some job) id = some j
    rw [Function.update_of_ne hne, hj]
  | purge cutoff => exact absurd rfl (hpurge cutoff)
  | _ => exact hj

end Ledger

/-! ### Runs of the engine -/

variable {env : Env} {s : State}

theorem Ledger.Agree.empty : (Ledger.empty : Ledger).Agree :=
  ⟨fun _ _ h => (by cases h), fun _ _ h => (by cases h), fun h => (by cases h)⟩

theorem agree_of_reach (h : Reach (step env) Reliable init s) : (ledger s).Agree :=
  reach_ledger .empty
    (fun _ _ _ _ hok hof hinv hj hs => hj.step hinv hs (hof.reliable hok)) h

/-- Some `submit` call has stored the record of `id` and not yet added it to the
active map. -/
def State.tracking (s : State) (id : JobId) : Bool :=
  s.tasks.values.any fun
    | .submit _ _ (.activate job) => job.jobId == id
    | _ => false

theorem mem_tasks {t : TaskId} {k : Task} (h : s.task t = k) (hk : k ≠ .none) :
    k ∈ s.tasks.values := by
  rw [FinMap.mem_values]
  refine ⟨t, ?_⟩
  rw [State.task] at h
  cases ht : s.tasks.lookup t with
  | none =>
    rw [ht] at h
    exact absurd h.symm hk
  | some k' =>
    rw [ht] at h
    exact congrArg some h

/-- Once `start` has returned, only a `submit` call halfway through `track`
holds a record back from the active map. -/
theorem tracking_of_unshared (hw : Wf s) (hstarted : s.started = true) {id : JobId} {σ : Stage}
    (hc : (ledger s).custody id = some σ) (hσ : σ.unshared = true) : s.tracking id = true := by
  obtain ⟨t, hmem⟩ := exists_of_custodyOf hc
  have hmem' : (id, σ) ∈ (s.task t).holds := hmem
  -- once `start` has returned, only a submit call about to activate its job is at such a stage
  cases htask : s.task t with
  | submit who request pc =>
    rw [htask] at hmem'
    have hpc : ∃ job, pc = .activate job ∧ job.jobId = id := by
      have hone := SubmitPc.mem_holds hmem'
      cases pc with
      | activate job => exact ⟨job, rfl, congrArg Prod.fst (List.cons.inj hone).1⟩
      | release id' bytes result =>
        cases result <;> cases hone
        cases hσ
      | existing | exit | done => cases hone
      | _ =>
        cases hone
        cases hσ
    obtain ⟨job, rfl, hid⟩ := hpc
    exact List.any_eq_true.mpr ⟨_, mem_tasks htask (by simp), by simp [hid]⟩
  | worker w =>
    rw [htask] at hmem'
    have hnot : σ.unshared = false := by
      rcases Worker.mem_holds hmem' with hcur | ⟨rfl, -⟩
      · obtain ⟨printer, rx, pc⟩ := w
        cases pc <;> cases hcur <;> rfl
      · rfl
    rw [hnot] at hσ
    cases hσ
  | monitor m =>
    rw [htask] at hmem'
    obtain ⟨-, -, rfl⟩ := Monitor.mem_holds hmem'
    cases hσ
  | start pc =>
    obtain rfl := hw.booted.only t pc htask
    obtain rfl : pc = .done := by
      have hdone := started_eq_true.mp hstarted
      rw [htask] at hdone
      exact Task.start.inj hdone
    rw [htask] at hmem'
    cases hmem'
  | none | cancel | shutdown =>
    rw [htask] at hmem'
    cases hmem'

/-- **The active map and the repository agree.** -/
theorem active_agrees (h : Reach (step env) Reliable init s) :
    (s.started = true → ∀ id, s.tracking id = false →
      ((∃ j, s.active.lookup id = some j) ↔
        ∃ j, s.repo.lookup id = some j ∧ j.status.isTerminal = false)) ∧
    (∀ id j k, s.active.lookup id = some j → s.repo.lookup id = some k → j = k) ∧
    ∀ a s' id j, Reliable s a → step env s a = some s' → (∀ cutoff, a ≠ .purge cutoff) →
      s.repo.lookup id = some j → j.status.isTerminal = true → s'.repo.lookup id = some j := by
  have hw := wf_of_reach h
  have hagree := agree_of_reach h
  refine ⟨fun hstarted id htrack => ⟨?_, ?_⟩, fun id j k hj hk => ?_, ?_⟩
  · rintro ⟨j, hj⟩
    exact ⟨j, hagree.synced id j hj, (hw.inv.active id j hj).2⟩
  · rintro ⟨j, hj, hopen⟩
    have hloaded : (ledger s).loaded = true :=
      congrArg Task.loads (started_eq_true.mp hstarted)
    rcases hagree.covered hloaded id j hj hopen with ha | ⟨σ, hc, hσ⟩
    · exact ⟨j, ha⟩
    · rw [tracking_of_unshared hw hstarted hc hσ] at htrack
      cases htrack
  · exact Option.some_inj.mp ((hagree.synced id j hj).symm.trans hk)
  · intro a s' id j hok hs hpurge hj hterm
    obtain ⟨mv, hof, -, hmove⟩ := step_refines hw hs
    refine hagree.terminal_step hw.inv hmove (fun cutoff hmv => ?_) hj hterm
    subst hmv
    exact hpurge cutoff hof

instance (s : State) (a : Action) : Decidable (Reliable s a) := inferInstanceAs (Decidable (_ = _))

/-- A submitted job waits in its printer's channel. -/
def waitingRun : List Action := booting ++ submitting 1 2

theorem active_agrees_submitted :
    (∃ j, (after waitingRun).active.lookup 0 = some j) ∧
      ∀ j k, (after waitingRun).active.lookup 0 = some j →
        (after waitingRun).repo.lookup 0 = some k → j = k := by
  have h := active_agrees (reach_after Reliable waitingRun (by decide +kernel))
  exact ⟨(h.1 (by decide +kernel) 0 (by decide +kernel)).mpr
    ⟨((after waitingRun).repo.lookup 0).get (by decide +kernel),
      (Option.some_get _).symm, by decide +kernel⟩, fun j k => h.2.1 0 j k⟩

end KilnPrint
