/-
Jobs in the spoolers, and the cancel calls that delete them there.

* `CancelPc.decided` — the cancel call has read the job as accepted by a spooler;
* `Spooling` — **the invariant**: such a job, and every job a spooler has heard of,
  was announced; a job deleted in its spooler is not waiting to be reopened after a
  restart, if no crash happened while its record was still open in the repository
  (`SafeCrash`);
* `Spooling.active_before` — so such a job becomes active again in no step.
-/
import KilnPrint.Engine.Sites
import KilnPrint.Engine.Standing

namespace KilnPrint

open Custody Runs

/-- The call has read the job as accepted by a spooler, and goes on to delete it
there. -/
def CancelPc.decided : CancelPc → Bool
  | resolve .. | refreshing .. | guard .. | deleting .. | settle | unguard _ => true
  | _ => false

/-- A crash leaves no open record of a job that was deleted in its spooler. -/
def SafeCrash (s : State) (a : Action) : Prop :=
  a = .crash → ∀ j ∈ s.repo.values, j.status.isTerminal = false → .deleted j.jobId ∉ s.log

structure Spooling (s : State) : Prop where
  staged : (ledger s).Staged
  /-- Cancel calls come after `start`. -/
  opened : ∀ t id pc, s.task t = .cancel id pc → s.started = true
  decided : ∀ t id pc, s.task t = .cancel id pc → pc.decided = true → (ledger s).Announced id
  spooled : ∀ id, s.spooler.lookup id ≠ none → (ledger s).Announced id
  deleted : ∀ id, .deleted id ∈ s.log → s.spooler.lookup id ≠ none
  unread : ∀ id job, (ledger s).custody id = some (.unloaded job) → .deleted id ∉ s.log
  dormant : (ledger s).loaded = false → ∀ id j, s.repo.lookup id = some j →
    j.status.isTerminal = false → .deleted id ∉ s.log

variable {env : Env} {s s' s₁ : State} {a : Action} {id : JobId} {t : TaskId} {inp : Input} {k : Task}

/-! ### Starting -/

theorem started_step (hs : s.started = true) (h : step env s a = some s') (hne : a ≠ .crash) :
    s'.started = true := by
  have hdone := started_eq_true.mp hs
  refine started_eq_true.mpr ?_
  rcases step_task h startTask with ht | @⟨inp, s₁, k, -, -, hex, -⟩ | ⟨-, -, hold, -⟩ | ⟨-, -, hold, -⟩ |
    ⟨-, -, hold, -⟩ | ⟨-, hold, -⟩ | ⟨-, hold, -⟩ | ⟨-, hold, -⟩ | ⟨ha, -⟩
  · rw [hdone] at ht
    generalize s'.task startTask = new at ht
    cases ht
    rfl
  · rw [hdone] at hex
    cases hex
  · rw [hdone] at hold
    cases hold
  · rw [hdone] at hold
    cases hold
  · rw [hdone] at hold
    cases hold
  · rw [hdone] at hold
    cases hold
  · rw [hdone] at hold
    cases hold
  · obtain ⟨who, request, pc, hsub⟩ := submit_of_awaits hold
    rw [hdone] at hsub
    cases hsub
  · exact absurd ha hne

/-- Only the start routine, before it returns, holds records it has read. -/
theorem not_unloaded_of_started (hw : Wf s) (hs : s.started = true) (job : Job) :
    (ledger s).custody id ≠ some (.unloaded job) := by
  intro hc
  obtain ⟨t, hmem⟩ := exists_of_custodyOf hc
  have hmem' : (id, Stage.unloaded job) ∈ (s.task t).holds := hmem
  cases htask : s.task t with
  | submit who request pc =>
    rw [htask] at hmem'
    have hone := SubmitPc.mem_holds hmem'
    cases pc with
    | release id' bytes result => cases result <;> cases hone
    | _ => cases hone
  | worker w =>
    rw [htask] at hmem'
    obtain ⟨printer, rx, pc⟩ := w
    rcases Worker.mem_holds hmem' with hcur | ⟨he, -⟩
    · cases pc <;> cases hcur
    · cases he
  | monitor m =>
    rw [htask] at hmem'
    obtain ⟨-, -, he⟩ := Monitor.mem_holds hmem'
    cases he
  | start pc =>
    obtain rfl := hw.booted.only t pc htask
    rw [htask, Task.start.inj (htask.symm.trans (started_eq_true.mp hs))] at hmem'
    cases hmem'
  | none | cancel | shutdown =>
    rw [htask] at hmem'
    cases hmem'

/-- Before reconciliation has read the repository, nobody holds a job. -/
theorem custody_of_not_loaded (hw : Wf s) (hl : (ledger s).loaded = false) (id : JobId) :
    (ledger s).custody id = none := by
  have halone := (hw.booted.alone hl).1
  refine custodyOf_eq_none.mpr fun t hk => ?_
  have hk' : id ∈ keys (s.task t).holds := hk
  by_cases ht : t = startTask
  · subst ht
    have hl' : (s.task startTask).loads = false := hl
    rcases hw.booted.first with hnone | ⟨pc, hpc⟩
    · rw [hnone] at hk'
      cases hk'
    · rw [hpc] at hk' hl'
      cases pc with
      | refresh | load | failed => cases hk'
      | _ => cases hl'
  · rw [halone t ht] at hk'
    cases hk'

/-! ### Cancel calls -/

/-- Where a cancel call comes from. -/
theorem cancel_step {pc' : CancelPc} (h : step env s a = some s')
    (ht : s'.task t = .cancel id pc') : a ≠ .crash ∧
    ((s.task t = .none ∧ pc' = .load ∧ a = .cancel t id ∧ s.started = true) ∨
      s.task t = .cancel id pc' ∨
      ∃ inp s₁ pc, a = .run t inp ∧ s.pendingEvent t = none ∧ s.task t = .cancel id pc ∧
        exec env t (s.task t).origin inp s (code env inp (s.task t)) = some (s₁, .cancel id pc') ∧
        s' = s₁.setTask t (.cancel id pc')) := by
  refine ⟨fun ha => ?_, ?_⟩
  · subst ha
    obtain rfl := Option.some_inj.mp h
    cases ht
  rcases step_task h t with htouch | @⟨inp, s₁, k, ha, hp, hex, rfl⟩ | ⟨-, -, -, hnew⟩ |
    ⟨-, -, -, hnew⟩ | ⟨-, -, -, hnew⟩ | @⟨id', rfl, hold, hnew⟩ | ⟨-, -, hnew⟩ | ⟨-, -, hnew⟩ |
    ⟨-, hnew⟩
  · rw [ht] at htouch
    generalize s.task t = old at htouch
    cases htouch
    exact Or.inr (Or.inl rfl)
  · rw [task_setTask_self] at ht
    subst ht
    obtain ⟨pc, hpc⟩ := kind_eq_cancel.mp (code_kind (exec_continues hex)).symm
    exact Or.inr (Or.inr ⟨inp, s₁, pc, ha, hp, hpc, hex, rfl⟩)
  · rw [ht] at hnew
    cases hnew
  · rw [ht] at hnew
    cases hnew
  · rw [ht] at hnew
    cases hnew
  · rw [ht] at hnew
    obtain ⟨rfl, rfl⟩ := Task.cancel.inj hnew
    exact Or.inl ⟨hold, rfl, rfl, (spawn_eq_some h).1⟩
  · rw [ht] at hnew
    cases hnew
  · rw [ht] at hnew
    cases hnew
  · rw [ht] at hnew
    cases hnew

/-- A job is deleted in its spooler by a cancel call. -/
theorem deleted_new (h : step env s a = some s') (hdel : .deleted id ∈ s'.log) :
    .deleted id ∈ s.log ∨ ∃ t inp p spoolerJobId, a = .run t inp ∧ s.pendingEvent t = none ∧
      s.task t = .cancel id (.deleting p spoolerJobId) ∧ inp.cancelled = .ok () ∧
      s.spooler.lookup id = some .queued := by
  obtain ⟨es, hlog, hes⟩ := step_logs h
  rw [hlog, List.mem_append] at hdel
  refine hdel.imp_right fun hnew => ?_
  cases hes with
  | deleted ha hp htask hok hqueued =>
    obtain ⟨rfl⟩ := Entry.deleted.inj (List.mem_singleton.mp hnew)
    exact ⟨_, _, _, _, ha, hp, htask, hok, hqueued⟩
  | silent => cases hnew
  | _ => cases List.mem_singleton.mp hnew

/-! ### The spoolers -/

theorem lookup_spooledBy_of_ne {spooler : FinMap JobId SpoolState} {id' : JobId}
    (result : CallResult) (h : id ≠ id') :
    (spooledBy spooler id' result).lookup id = spooler.lookup id := by
  unfold spooledBy
  split
  · rw [FinMap.lookup_insert_ite, if_neg h]
  · rfl

/-- What a spooler has heard of it never forgets. -/
theorem spooled_step (h : step env s a = some s') (hid : s.spooler.lookup id ≠ none) :
    s'.spooler.lookup id ≠ none := by
  have hinsert : ∀ id' v, (s.spooler.insert id' v).lookup id ≠ none := by
    intro id' v
    rw [FinMap.lookup_insert_ite]
    split
    · simp
    · exact hid
  rcases step_spooler h with hsame | ⟨t, call, result, -, -, -, hsp⟩ |
    ⟨t, inp, id', p, sid, -, -, -, -, hsp⟩ | ⟨id', -, hsp⟩
  · rwa [hsame]
  · rw [hsp]
    unfold spooledBy
    split
    · exact hinsert _ _
    · exact hid
  · rw [hsp]
    exact hinsert _ _
  · rw [hsp]
    exact hinsert _ _

/-- A job enters its spooler's queue only when its call returns. -/
theorem unqueued_step (h : step env s a = some s') (hid : s.spooler.lookup id ≠ some .queued) :
    s'.spooler.lookup id ≠ some .queued ∨
      ∃ t call, s.call t = some call ∧ call.jobId = id := by
  have hinsert : ∀ id' v, v ≠ SpoolState.queued →
      (s.spooler.insert id' v).lookup id ≠ some .queued := by
    intro id' v hv
    rw [FinMap.lookup_insert_ite]
    split
    · simpa using hv
    · exact hid
  rcases step_spooler h with hsame | ⟨t, call, result, -, hcall, -, hsp⟩ |
    ⟨t, inp, id', p, sid, -, -, -, -, hsp⟩ | ⟨id', -, hsp⟩
  · exact Or.inl (by rwa [hsame])
  · by_cases he : call.jobId = id
    · exact Or.inr ⟨t, call, hcall, he⟩
    · rw [hsp, lookup_spooledBy_of_ne _ (Ne.symm he)]
      exact Or.inl hid
  · rw [hsp]
    exact Or.inl (hinsert _ _ (by decide))
  · rw [hsp]
    exact Or.inl (hinsert _ _ (by decide))

/-- The job of a blocking call is held by its worker. -/
theorem custody_of_call {call : Call} (hw : Wf s) (hcall : s.call t = some call) :
    ∃ σ, (ledger s).custody call.jobId = some σ ∧
      (σ = .calling call.invoked ∨ σ = .expired call.invoked) := by
  obtain ⟨printer, rx, pc, hpc, htask, -⟩ := call_eq_some hcall
  rcases hpc with rfl | rfl
  · exact ⟨_, custody_of_holds (t := t) hw.exclusive (by rw [htask]; exact List.mem_cons_self),
      Or.inl rfl⟩
  · exact ⟨_, custody_of_holds (t := t) hw.exclusive (by rw [htask]; exact List.mem_cons_self),
      Or.inr rfl⟩

/-! ### Announced jobs -/

theorem announced_step (hw : Wf s) (h : step env s a = some s') (hann : (ledger s).Announced id) :
    (ledger s').Announced id := by
  obtain ⟨mv, -, -, hmove⟩ := step_refines hw h
  exact hann.step hmove

/-- Once `start` has returned, an announced job does not become active again. -/
theorem active_of_started (hw : Wf s) (hs : s.started = true) (h : step env s a = some s')
    (hann : (ledger s).Announced id) (hj : s'.active.lookup id ≠ none) :
    s.active.lookup id ≠ none := by
  obtain ⟨mv, -, -, hmove⟩ := step_refines hw h
  exact Ledger.active_before hann hmove (not_unloaded_of_started hw hs) hj

namespace Spooling

/-- **A job deleted in its spooler does not become active again.** -/
theorem active_before (hsp : Spooling s) (hw : Wf s) (h : step env s a = some s')
    (hdel : .deleted id ∈ s.log) (hj : s'.active.lookup id ≠ none) :
    s.active.lookup id ≠ none := by
  obtain ⟨mv, -, -, hmove⟩ := step_refines hw h
  exact Ledger.active_before (hsp.spooled id (hsp.deleted id hdel)) hmove
    (fun job hc => hsp.unread id job hc hdel) hj

/-- A cancel call decides on a record it has read: an active one, or a stored one
that was announced. -/
theorem decided_step (hsp : Spooling s) (hw : Wf s) {pc pc' : CancelPc}
    (htask : s.task t = .cancel id pc)
    (hex : exec env t (s.task t).origin inp s (code env inp (s.task t)) =
      some (s₁, .cancel id pc')) (hpc' : pc'.decided = true) : (ledger s).Announced id := by
  by_cases hpc : pc.decided = true
  · exact hsp.decided t id pc htask hpc
  -- the call decides on a job that a spooler accepted
  have hfrom : ∀ j : Job, (cancelFrom id j).decided = true → j.delivery = .spoolerAccepted := by
    intro j hj
    unfold cancelFrom at hj
    split at hj
    · cases hj
    · split at hj <;> first | assumption | cases hj
  rw [htask] at hex
  cases pc with
  | load =>
    obtain ⟨-, he⟩ := Prod.mk.inj (Option.some_inj.mp hex)
    cases hj : s.active.lookup id with
    | some j => exact Ledger.announced_of_active hw.inv hj
    | none =>
      rw [hj] at he
      obtain ⟨-, rfl⟩ := Task.cancel.inj he
      cases hpc'
  | stored =>
    obtain ⟨-, he⟩ := Prod.mk.inj (Option.some_inj.mp hex)
    cases hr : inp.repoOk with
    | false =>
      rw [Input.call, hr] at he
      obtain ⟨-, rfl⟩ := Task.cancel.inj he
      cases hpc'
    | true =>
      rw [Input.call, hr] at he
      cases hj : s.repo.get id with
      | none =>
        rw [hj] at he
        obtain ⟨-, rfl⟩ := Task.cancel.inj he
        cases hpc'
      | some j =>
        rw [hj] at he
        obtain ⟨-, rfl⟩ := Task.cancel.inj he
        have hstored : (ledger s).stored id = some j := hj
        refine ⟨(hw.inv.storedId id j hstored).2, fun σ hσ => ?_⟩
        cases σ with
        | draft job =>
          have hnone := ((hw.inv.fits id _ hσ).draft job rfl).2.2
          rw [hstored] at hnone
          cases hnone
        | stored job =>
          -- the record of a call under way has not reached the spooler yet
          have hd := hsp.staged id job j hσ hstored
          rw [hfrom j hpc'] at hd
          cases hd
        | _ => rfl
  | cancelQueued =>
    obtain ⟨-, he⟩ := Prod.mk.inj (Option.some_inj.mp hex)
    obtain ⟨-, rfl⟩ := Task.cancel.inj he
    cases hpc'
  | reload =>
    obtain ⟨-, he⟩ := Prod.mk.inj (Option.some_inj.mp hex)
    cases hj : s.active.lookup id <;>
    · rw [hj] at he
      obtain ⟨-, rfl⟩ := Task.cancel.inj he
      cases hpc'
  | restored =>
    obtain ⟨-, he⟩ := Prod.mk.inj (Option.some_inj.mp hex)
    dsimp only at he
    split at he <;>
    · obtain ⟨-, rfl⟩ := Task.cancel.inj he
      cases hpc'
  | done => cases hex
  | _ => exact absurd rfl hpc

/-- **Every step keeps the invariant, if crashes are safe.** -/
theorem step (hsp : Spooling s) (hw : Wf s) (hok : SafeCrash s a) (h : step env s a = some s') :
    Spooling s' := by
  obtain ⟨mv, hof, -, hmove⟩ := step_refines hw h
  have hnew : ∀ id, .deleted id ∈ s'.log → .deleted id ∈ s.log ∨ ∃ t inp p spoolerJobId,
      a = .run t inp ∧ s.pendingEvent t = none ∧
      s.task t = .cancel id (.deleting p spoolerJobId) ∧ inp.cancelled = .ok () ∧
      s.spooler.lookup id = some .queued := fun id => deleted_new h
  -- a job is deleted by a cancel call, which begins after the start routine has returned
  have hstarted : ∀ id, .deleted id ∈ s'.log → .deleted id ∉ s.log →
      s.started = true ∧ a ≠ .crash := by
    intro id hdel hold
    obtain ⟨t, inp, p, spoolerJobId, rfl, -, htask, -⟩ := (hnew id hdel).resolve_left hold
    exact ⟨hsp.opened t id _ htask, fun he => by cases he⟩
  refine ⟨hsp.staged.step hw.inv hmove, fun t id pc ht => ?_, fun t id pc ht hpc => ?_,
    fun id hid => ?_, fun id hdel => ?_, fun id job hc hdel => ?_, fun hl id j hj hopen hdel => ?_⟩
  · obtain ⟨hne, ⟨-, -, -, hs⟩ | ht' | ⟨inp, s₁, pc', -, -, ht', -⟩⟩ := cancel_step h ht
    · exact started_step hs h hne
    · exact started_step (hsp.opened t id pc ht') h hne
    · exact started_step (hsp.opened t id pc' ht') h hne
  · obtain ⟨-, ⟨-, rfl, -⟩ | ht' | ⟨inp, s₁, pc', -, -, ht', hex, -⟩⟩ := cancel_step h ht
    · cases hpc
    · exact announced_step hw h (hsp.decided t id pc ht' hpc)
    · exact announced_step hw h (hsp.decided_step hw ht' hex hpc)
  · refine announced_step hw h ?_
    -- the spooler holds a job more, or a job in it is deleted or leaves
    rcases step_spooler h with hsame | ⟨t, call, result, -, hcall, -, hsp'⟩ |
      ⟨t, inp, id', p, sid, -, -, -, hqueued, hsp'⟩ | ⟨id', hqueued, hsp'⟩
    · exact hsp.spooled id (hsame ▸ hid)
    · by_cases he : id = call.jobId
      · obtain ⟨σ, hc, hσ⟩ := custody_of_call hw hcall
        exact he ▸ Ledger.announced_of_custody hw.inv hc (by rcases hσ with rfl | rfl <;> rfl)
      · rw [hsp', lookup_spooledBy_of_ne _ he] at hid
        exact hsp.spooled id hid
    · refine hsp.spooled id fun hnone => ?_
      by_cases he : id = id'
      · rw [he, hqueued] at hnone
        cases hnone
      · rw [hsp', FinMap.lookup_insert_ite, if_neg he] at hid
        exact hid hnone
    · refine hsp.spooled id fun hnone => ?_
      by_cases he : id = id'
      · rw [he, hqueued] at hnone
        cases hnone
      · rw [hsp', FinMap.lookup_insert_ite, if_neg he] at hid
        exact hid hnone
  · refine spooled_step h ?_
    rcases hnew id hdel with hold | ⟨t, inp, p, sid, -, -, -, -, hqueued⟩
    · exact hsp.deleted id hold
    · rw [hqueued]
      simp
  · by_cases hold : .deleted id ∈ s.log
    · rcases Ledger.unloaded_before hmove hc with hc' | ⟨hl, hrec⟩
      · exact hsp.unread id job hc' hold
      · obtain ⟨hstored, hopen⟩ := Option.filter_eq_some_iff.mp hrec
        exact hsp.dormant hl id job hstored (by simpa using hopen) hold
    · obtain ⟨hs, hne⟩ := hstarted id hdel hold
      exact not_unloaded_of_started (wf_step hw h) (started_step hs h hne) job hc
  -- records are dormant after a crash, and until the start routine has read them
  · by_cases ha : a = .crash
    · subst ha
      obtain rfl := Option.some_inj.mp h
      have hold : .deleted id ∈ s.log := by
        rcases List.mem_append.mp hdel with hold | hnew'
        · exact hold
        · cases List.mem_singleton.mp hnew'
      have hid : j.jobId = id := (hw.inv.storedId id j hj).1
      exact hok rfl j (FinMap.mem_values.mpr ⟨id, hj⟩) hopen (hid ▸ hold)
    · have hmv : mv ≠ .crash := fun he => by
        subst he
        exact ha hof
      have hl' := Ledger.loaded_step hmove hmv hl
      have hstored := Ledger.stored_of_dormant (custody_of_not_loaded hw hl')
        (hw.booted.alone hl').2 hmove hj
      by_cases hold : .deleted id ∈ s.log
      · exact hsp.dormant hl' id j hstored hopen hold
      · have hdone := started_eq_true.mp (hstarted id hdel hold).1
        have hloads : (s.task startTask).loads = false := hl'
        rw [hdone] at hloads
        cases hloads

end Spooling

end KilnPrint
