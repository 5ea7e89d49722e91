/-
A cancellation is never mistaken for a completion, where nobody lifts its guard.

A spooler job that is gone was printed, unless a cancel call is deleting it.  The
call says so by an entry in the set of cancellations in flight, from before it asks
the provider until after it has settled the record; the monitor looks there.  But
the entry is one for all calls on a job, and a call whose deletion failed removes
it for the others too.

* `Entry.retired` — a job completed because it was gone;
* `Careful` — no call that failed to delete a job lifts the guard while another call
  is between guarding and settling it;
* `Guarding` — **the invariant**;
* `cancelled_not_completed` — **in careful runs no deleted job is completed as
  retired**;
* `cancelled_completed` — it happens otherwise.
-/
import KilnPrint.Engine.Spooling

namespace KilnPrint

open Runs

/-! ### The statement -/

/-- The job `id` became completed because it had left its spooler. -/
def Entry.retired (id : JobId) : Entry → Bool
  | applied _ id' _ (some ⟨_, job⟩) =>
    id' == id && job.completion == some .spoolerJobRetired
  | _ => false

/-- The cancel call is between guarding the job and settling its record. -/
def Task.deletes (id : JobId) : Task → Bool
  | cancel id' (.deleting ..) | cancel id' .settle => id' == id
  | _ => false

/-- The job of a cancel call that failed to delete it and is about to lift its guard. -/
def State.liftsGuard (s : State) (t : TaskId) : Option JobId :=
  match s.task t with
  | .cancel id (.unguard (.error _)) => some id
  | _ => none

/-- The guard of an active job is not lifted by a call that failed while another call
is deleting the job, and a crash leaves no open record of a deleted job. -/
def Careful (s : State) : Action → Prop
  | .run t _ => ∀ id ∈ s.liftsGuard t, (s.active.lookup id).isSome = true →
      s.has (Task.deletes id) = false
  | .crash => ∀ j ∈ s.repo.values, j.status.isTerminal = false → .deleted j.jobId ∉ s.log
  | _ => True

instance (s : State) : DecidablePred (Careful s)
  | .run _ _ | .crash => by unfold Careful; infer_instance
  | .start | .submit .. | .cancel .. | .shutdown _ | .invoke _ | .finish .. | .drop _
  | .discover _ | .purge _ | .retire _ => .isTrue trivial

/-! ### The invariant -/

/-- The monitor has seen that its job is gone. -/
def MonitorPc.sawGone : MonitorPc → Bool
  | gone | apply .gone _ => true
  | _ => false

/-- What the guard is for. -/
structure Guarding (s : State) : Prop where
  /-- A job being deleted is guarded while it is active. -/
  guarded : ∀ t id, (s.task t).deletes id = true → s.active.lookup id ≠ none → id ∈ s.cancelling
  /-- A call that is done settling a job finds it closed. -/
  settled : ∀ t id r, s.task t = .cancel id (.unguard (.ok r)) → s.active.lookup id = none
  /-- An active job that was deleted is about to be settled. -/
  settling : ∀ id, .deleted id ∈ s.log → s.active.lookup id ≠ none →
    ∃ t, s.task t = .cancel id .settle
  gone : ∀ t m, s.task t = .monitor m → m.pc.sawGone = true →
    s.spooler.lookup m.jobId ≠ some .queued
  /-- A monitor that takes its job for printed is right, or too late. -/
  observed : ∀ t m, s.task t = .monitor m → m.pc = .apply .gone false →
    .deleted m.jobId ∈ s.log → s.active.lookup m.jobId = none
  retired : ∀ id, (∃ e ∈ s.log, e.retired id = true) →
    .deleted id ∉ s.log ∧ s.spooler.lookup id ≠ some .queued ∧ (ledger s).Past id

variable {env : Env} {s s' s₁ : State} {a : Action} {id : JobId} {t : TaskId} {inp : Input}

theorem deletes_iff {task : Task} : task.deletes id = true ↔
    (∃ p spoolerJobId, task = .cancel id (.deleting p spoolerJobId)) ∨
      task = .cancel id .settle := by
  cases task with
  | cancel id' pc => cases pc <;> simp [Task.deletes]
  | _ => simp [Task.deletes]

/-- Where a monitor comes from. -/
theorem monitor_step {m' : Monitor} (h : step env s a = some s') (ht : s'.task t = .monitor m') :
    a ≠ .crash ∧ (m'.pc = .spawned ∨ s.task t = .monitor m' ∨
      ∃ inp s₁ pc, a = .run t inp ∧ s.pendingEvent t = none ∧
        s.task t = .monitor { m' with pc := pc } ∧
        exec env t (s.task t).origin inp s (code env inp (s.task t)) = some (s₁, .monitor m') ∧
        s' = s₁.setTask t (.monitor m')) := by
  refine ⟨fun ha => ?_, ?_⟩
  · subst ha
    obtain rfl := Option.some_inj.mp h
    cases ht
  rcases step_task h t with htouch | @⟨inp, s₁, k, ha, hp, hex, rfl⟩ | ⟨-, -, -, hnew⟩ |
    ⟨-, -, -, hnew⟩ | ⟨-, -, -, hnew⟩ | ⟨-, -, hnew⟩ | ⟨-, -, hnew⟩ | ⟨-, -, hnew⟩ | ⟨-, hnew⟩
  · rw [ht] at htouch
    generalize s.task t = old at htouch
    cases htouch with
    | same => exact Or.inr (Or.inl rfl)
    | monitorSpawned => exact Or.inl rfl
  · rw [task_setTask_self] at ht
    subst ht
    obtain ⟨pc, hpc⟩ := kind_eq_monitor.mp (code_kind (exec_continues hex)).symm
    exact Or.inr (Or.inr ⟨inp, s₁, pc, ha, hp, hpc, hex, rfl⟩)
  all_goals
    rw [ht] at hnew
    cases hnew

/-- A job retires by its monitor's hand. -/
theorem retired_new (hw : Wf s) (h : step env s a = some s')
    (hret : ∃ e ∈ s'.log, e.retired id = true) : (∃ e ∈ s.log, e.retired id = true) ∨
      s.active.lookup id ≠ none ∧ ∃ t inp p spoolerJobId, a = .run t inp ∧
        s.pendingEvent t = none ∧
        s.task t = .monitor ⟨id, p, spoolerJobId, .apply .gone false⟩ := by
  obtain ⟨e, he, hre⟩ := hret
  obtain ⟨es, hlog, hes⟩ := step_logs h
  rw [hlog, List.mem_append] at he
  rcases he with he | he
  · exact Or.inl ⟨e, he, hre⟩
  refine Or.inr ?_
  cases hes with
  | silent => cases he
  | @applied t inp id' ch f j ha hp hop hj =>
    obtain rfl := List.mem_singleton.mp he
    obtain ⟨hsound, hopen⟩ := hw.inv.active id' j hj
    -- an open record has no completion yet, so the change has set it
    have hnone : j.completion = none := by
      rw [← Option.not_isSome_iff_eq_none, hsound.completion]
      rintro hc
      rw [hc] at hopen
      cases hopen
    have hboth : id' = id ∧ ch = .complete .spoolerJobRetired := by
      unfold Change.entry at hre
      cases hev : (ch.mutated inp.reading.now inp.reading.stamp j).event with
      | none =>
        rw [hev] at hre
        cases hre
      | some kind =>
        rw [hev] at hre
        obtain ⟨hid, hcomp⟩ := Bool.and_eq_true_iff.mp hre
        exact ⟨beq_iff_eq.mp hid, Change.retired_apply hnone (beq_iff_eq.mp hcomp)⟩
    obtain ⟨rfl, rfl⟩ := hboth
    refine ⟨by rw [hj]; simp, t, inp, ?_⟩
    -- one place in the code completes a job so: the monitor that found it gone
    have hsite : Site (s.task t) (code env inp (s.task t)) := code_site _
    rw [hop] at hsite
    generalize hobs : Change.complete .spoolerJobRetired = ch at hsite
    generalize htask : s.task t = task at hsite
    cases hsite with
    | plain hplain => exact absurd hplain not_false
    | @observe id p spoolerJobId state cancelling f =>
      have hgone : state = .gone ∧ cancelling = false := by
        cases state <;> cases cancelling <;> first | exact ⟨rfl, rfl⟩ | cases hobs
      obtain ⟨rfl, rfl⟩ := hgone
      exact ⟨p, spoolerJobId, ha, hp, rfl⟩
    | change hne => cases hne _ hobs.symm
  | _ =>
    obtain rfl := List.mem_singleton.mp he
    cases hre

/-! ### Where a cancel call and a monitor come from -/

/-- The points before a deletion, before a settlement and before lifting the guard. -/
theorem cancel_from {pc pc' : CancelPc} (h : (cancelCode env id pc).Continues (.cancel id pc')) :
    (∀ p spoolerJobId, pc' = .deleting p spoolerJobId → pc = .guard p spoolerJobId) ∧
    (pc' = .settle → ∃ p spoolerJobId, pc = .deleting p spoolerJobId) ∧
    ∀ r, pc' = .unguard (.ok r) → pc = .settle := by
  -- the points after a load are none of the three
  have hfrom : ∀ j, (∀ p sid, cancelFrom id j ≠ .deleting p sid) ∧ cancelFrom id j ≠ .settle ∧
      ∀ r, cancelFrom id j ≠ .unguard r := by
    intro j
    unfold cancelFrom
    split
    · simp
    · split
      · simp
      · simp
      · split <;> simp
      · simp
  cases pc with
  | load =>
    obtain ⟨r, he⟩ := h
    cases r with
    | none =>
      obtain ⟨-, rfl⟩ := Task.cancel.inj he
      simp
    | some j =>
      obtain ⟨-, rfl⟩ := Task.cancel.inj he
      exact ⟨fun p sid he => absurd he ((hfrom j).1 p sid), fun he => absurd he (hfrom j).2.1,
        fun r he => absurd he ((hfrom j).2.2 _)⟩
  | stored =>
    obtain ⟨r, he⟩ := h
    dsimp only at he
    split at he
    · next j =>
      obtain ⟨-, rfl⟩ := Task.cancel.inj he
      exact ⟨fun p sid he => absurd he ((hfrom j).1 p sid), fun he => absurd he (hfrom j).2.1,
        fun r he => absurd he ((hfrom j).2.2 _)⟩
    all_goals
      obtain ⟨-, rfl⟩ := Task.cancel.inj he
      simp
  | guard p spoolerJobId =>
    obtain ⟨-, rfl⟩ := Task.cancel.inj h
    simp
  | resolve printerId spoolerJobId again =>
    obtain ⟨r, he⟩ := h
    dsimp only at he
    split at he <;> split at he <;>
    · obtain ⟨-, rfl⟩ := Task.cancel.inj he
      simp
  | deleting p spoolerJobId =>
    obtain ⟨r, he⟩ := h
    cases r <;>
    · obtain ⟨-, rfl⟩ := Task.cancel.inj he
      simp
  | cancelQueued | settle =>
    obtain ⟨r, he⟩ := h
    obtain ⟨-, rfl⟩ := Task.cancel.inj he
    simp
  | unguard result =>
    dsimp only [cancelCode, Op.Continues] at h
    split at h <;>
    · obtain ⟨-, rfl⟩ := Task.cancel.inj h
      simp
  | reload | restored =>
    obtain ⟨r, he⟩ := h
    dsimp only at he
    split at he <;>
    · obtain ⟨-, rfl⟩ := Task.cancel.inj he
      simp
  | refreshing printerId spoolerJobId =>
    obtain ⟨-, rfl⟩ := Task.cancel.inj h
    simp
  | done result => exact absurd h not_false

/-- What a monitor's own step says when it has just seen, or just decided, that its
job is gone. -/
theorem monitor_from {p : Printer} {spoolerJobId : ℕ} {pc pc' : MonitorPc}
    (hex : exec env t (s.task t).origin inp s (monitorCode env ⟨id, p, spoolerJobId, pc⟩) =
      some (s₁, .monitor ⟨id, p, spoolerJobId, pc'⟩)) (hpc' : pc'.sawGone = true) :
    s₁ = s ∧ (pc = .query ∧ pc' = .gone ∧ s.spooler.lookup id ≠ some .queued ∨
      pc = .gone ∧ pc' = .apply .gone (s.cancelling.contains id)) := by
  cases pc with
  | query =>
    simp only [monitorCode, exec] at hex
    split at hex
    · cases hex
    · next hnot =>
      obtain ⟨rfl, he⟩ := Prod.mk.inj (Option.some_inj.mp hex)
      refine ⟨rfl, Or.inl ⟨rfl, ?_⟩⟩
      -- only the report that the job is gone leads on, and a queued job is not gone
      cases hjs : inp.jobState with
      | error e =>
        rw [hjs] at he
        obtain rfl : MonitorPc.sleeping = pc' := (Monitor.mk.inj (Task.monitor.inj he)).2.2.2
        cases hpc'
      | ok state =>
        rw [hjs] at he
        by_cases hgone : state = .gone
        · subst hgone
          obtain rfl : MonitorPc.gone = pc' := (Monitor.mk.inj (Task.monitor.inj he)).2.2.2
          exact ⟨rfl, fun hq => hnot ⟨hjs, hq⟩⟩
        · exfalso
          cases state with
          | gone => exact hgone rfl
          | _ =>
            have hpc := (Monitor.mk.inj (Task.monitor.inj he)).2.2.2
            rw [← hpc] at hpc'
            cases hpc'
  | gone =>
    obtain ⟨rfl, he⟩ := Prod.mk.inj (Option.some_inj.mp hex)
    exact ⟨rfl, Or.inr ⟨rfl, ((Monitor.mk.inj (Task.monitor.inj he)).2.2.2).symm⟩⟩
  | spawned =>
    simp only [monitorCode] at hex
    split at hex <;>
    · obtain ⟨-, he⟩ := Prod.mk.inj (Option.some_inj.mp hex)
      have hpc := (Monitor.mk.inj (Task.monitor.inj he)).2.2.2
      rw [← hpc] at hpc'
      cases hpc'
  | sleeping =>
    obtain ⟨-, he⟩ := Prod.mk.inj (Option.some_inj.mp hex)
    have hpc := (Monitor.mk.inj (Task.monitor.inj he)).2.2.2
    rw [← hpc] at hpc'
    cases hs : s.shutdown <;> rw [hs] at hpc' <;> cases hpc'
  | check =>
    obtain ⟨-, he⟩ := Prod.mk.inj (Option.some_inj.mp hex)
    have hpc := (Monitor.mk.inj (Task.monitor.inj he)).2.2.2
    rw [← hpc] at hpc'
    cases hs : (s.active.lookup id).isSome <;> rw [hs] at hpc' <;> cases hpc'
  | apply state cancelling =>
    obtain ⟨-, he⟩ := Prod.mk.inj (Option.some_inj.mp hex)
    have hpc := (Monitor.mk.inj (Task.monitor.inj he)).2.2.2
    -- a turn ends asleep or for good
    have hafter : ∀ m, (afterApply m).sawGone = false := by
      intro m
      unfold afterApply
      split
      · rfl
      · split <;> rfl
    rw [← hpc, hafter] at hpc'
    cases hpc'
  | done => cases hex

/-! ### Every step keeps the invariant -/

namespace Guarding

/-- A cancel call past its decision does not see its job become active again. -/
theorem active_of_decided (hsp : Spooling s) (hw : Wf s) (h : step env s a = some s')
    {pc : CancelPc} (ht : s.task t = .cancel id pc) (hpc : pc.decided = true)
    (hj : s'.active.lookup id ≠ none) : s.active.lookup id ≠ none :=
  active_of_started hw (hsp.opened t id pc ht) h (hsp.decided t id pc ht hpc) hj

theorem guarded_step (hg : Guarding s) (hsp : Spooling s) (hw : Wf s) (hok : Careful s a)
    (h : step env s a = some s') (hdel : (s'.task t).deletes id = true)
    (hj : s'.active.lookup id ≠ none) : id ∈ s'.cancelling := by
  -- a call that was deleting the job before the step keeps its guard
  have hkeep : (s.task t).deletes id = true → id ∈ s'.cancelling := by
    intro hdel'
    have hactive : s.active.lookup id ≠ none := by
      rcases deletes_iff.mp hdel' with ⟨p, sid, ht⟩ | ht <;>
        exact active_of_decided hsp hw h ht rfl hj
    have hmem := hg.guarded t id hdel' hactive
    rcases step_cancelling h with hsame | rfl | ⟨u, inp, x, rfl, -, ⟨p, sid, -, hset⟩ | ⟨r, hu, hset⟩⟩
    · rwa [hsame]
    · obtain rfl := Option.some_inj.mp h
      exact absurd rfl hj
    · rw [hset]
      by_cases hx : id = x
      · exact hx ▸ List.mem_cons_self
      · exact List.mem_cons_of_mem _ ((List.mem_erase_of_ne hx).mpr hmem)
    · rw [hset]
      refine List.mem_filter.mpr ⟨hmem, ?_⟩
      rw [decide_eq_true_iff]
      rintro rfl
      cases r with
      | ok m => exact hactive (hg.settled u id m hu)
      | error e =>
        have hlift : id ∈ s.liftsGuard u := by
          rw [State.liftsGuard, hu]
          rfl
        have hno := hok id hlift (Option.isSome_iff_ne_none.mpr hactive)
        rw [(has_iff rfl).mpr ⟨t, hdel'⟩] at hno
        cases hno
  obtain ⟨pc', ht', hpc'⟩ : ∃ pc', s'.task t = .cancel id pc' ∧
      ((∃ p sid, pc' = .deleting p sid) ∨ pc' = .settle) := by
    rcases deletes_iff.mp hdel with ⟨p, sid, ht⟩ | ht
    · exact ⟨_, ht, Or.inl ⟨p, sid, rfl⟩⟩
    · exact ⟨_, ht, Or.inr rfl⟩
  obtain ⟨-, ⟨-, rfl, -⟩ | ht | ⟨inp, s₁, pc, rfl, hp, ht, hex, rfl⟩⟩ := cancel_step h ht'
  · rcases hpc' with ⟨p, sid, he⟩ | he <;> cases he
  · exact hkeep (by rwa [ht, ← ht'])
  · rw [ht] at hex
    obtain ⟨hguard, hsettle, -⟩ := cancel_from (exec_continues hex)
    rcases hpc' with ⟨p, sid, rfl⟩ | rfl
    · obtain rfl := hguard p sid rfl
      obtain ⟨rfl, -⟩ := Prod.mk.inj (Option.some_inj.mp hex)
      exact List.mem_cons_self
    · obtain ⟨p, sid, rfl⟩ := hsettle rfl
      exact hkeep (deletes_iff.mpr (Or.inl ⟨p, sid, ht⟩))

theorem settled_step (hg : Guarding s) (hsp : Spooling s) (hw : Wf s)
    (h : step env s a = some s') {r : Option Job} (ht' : s'.task t = .cancel id (.unguard (.ok r))) :
    s'.active.lookup id = none := by
  obtain ⟨-, ⟨-, he, -⟩ | ht | ⟨inp, s₁, pc, rfl, hp, ht, hex, rfl⟩⟩ := cancel_step h ht'
  · cases he
  · by_contra hj
    exact active_of_decided hsp hw h ht rfl hj (hg.settled t id r ht)
  · rw [ht] at hex
    obtain rfl := (cancel_from (exec_continues hex)).2.2 r rfl
    obtain ⟨rfl, -⟩ := Prod.mk.inj (Option.some_inj.mp hex)
    exact lookup_mutate_of_closes hw fun j hj => by rw [Change.cancelSpooled_status hj]; rfl

theorem settling_step (hg : Guarding s) (hsp : Spooling s) (hw : Wf s)
    (h : step env s a = some s') (hdel : .deleted id ∈ s'.log) (hj : s'.active.lookup id ≠ none) :
    ∃ t, s'.task t = .cancel id .settle := by
  rcases deleted_new h hdel with hold | ⟨t, inp, p, sid, rfl, hp, ht, hcancelled, hqueued⟩
  · obtain ⟨t, ht⟩ := hg.settling id hold (hsp.active_before hw h hold hj)
    refine ⟨t, ?_⟩
    rcases step_task h t with htouch | @⟨inp, s₁, k, rfl, -, hex, rfl⟩ | ⟨-, -, hold', -⟩ |
      ⟨-, -, hold', -⟩ | ⟨-, -, hold', -⟩ | ⟨-, hold', -⟩ | ⟨-, hold', -⟩ | ⟨-, hold', -⟩ |
      ⟨rfl, -⟩
    · rw [ht] at htouch
      generalize s'.task t = new at htouch
      cases htouch
      rfl
    · -- settling closes the record
      rw [ht] at hex
      obtain ⟨rfl, -⟩ := Prod.mk.inj (Option.some_inj.mp hex)
      exact absurd (lookup_mutate_of_closes hw fun j hj => by
        rw [Change.cancelSpooled_status hj]; rfl) hj
    · rw [ht] at hold'
      cases hold'
    · rw [ht] at hold'
      cases hold'
    · rw [ht] at hold'
      cases hold'
    · rw [ht] at hold'
      cases hold'
    · rw [ht] at hold'
      cases hold'
    · obtain ⟨who, request, pc, hsub⟩ := submit_of_awaits hold'
      rw [ht] at hsub
      cases hsub
    · obtain rfl := Option.some_inj.mp h
      exact absurd rfl hj
  · refine ⟨t, ?_⟩
    have hrun : runTask env s t inp = some s' := h
    rw [runTask, hp, ht] at hrun
    simp only [code, cancelCode, exec, hcancelled, hqueued, if_true, Option.map_some,
      Option.some_inj] at hrun
    rw [← hrun, task_setTask_self]

theorem gone_step (hg : Guarding s) (hw : Wf s) (h : step env s a = some s') {m : Monitor}
    (ht' : s'.task t = .monitor m) (hpc : m.pc.sawGone = true) :
    s'.spooler.lookup m.jobId ≠ some .queued := by
  obtain ⟨-, he | ht | ⟨inp, s₁, pc, rfl, hp, ht, hex, rfl⟩⟩ := monitor_step h ht'
  · rw [he] at hpc
    cases hpc
  · -- no call is under way for a job that a monitor watches
    rcases unqueued_step h (hg.gone t m ht hpc) with hno | ⟨u, call, hcall, hid⟩
    · exact hno
    · have hheld : (m.jobId, Stage.spooled m.spoolerJobId) ∈ (s.task t).holds := by
        rw [ht]
        obtain ⟨id, p, sid, pc⟩ := m
        cases pc <;> first | exact List.mem_cons_self | cases hpc
      obtain ⟨σ, hc, hσ⟩ := custody_of_call hw hcall
      rw [hid, custody_of_holds hw.exclusive hheld] at hc
      rcases hσ with rfl | rfl <;> cases hc
  · obtain ⟨id, p, sid, pc'⟩ := m
    rw [ht] at hex
    obtain ⟨rfl, ⟨-, -, hno⟩ | ⟨rfl, -⟩⟩ := monitor_from (t := t) (by rw [ht]; exact hex) hpc
    · exact hno
    · exact hg.gone t ⟨id, p, sid, .gone⟩ ht rfl

theorem observed_step (hg : Guarding s) (hsp : Spooling s) (hw : Wf s)
    (h : step env s a = some s') {m : Monitor} (ht' : s'.task t = .monitor m)
    (hpc : m.pc = .apply .gone false) (hdel : .deleted m.jobId ∈ s'.log) :
    s'.active.lookup m.jobId = none := by
  by_contra hj
  obtain ⟨-, he | ht | ⟨inp, s₁, pc, rfl, hp, ht, hex, rfl⟩⟩ := monitor_step h ht'
  · rw [he] at hpc
    cases hpc
  · rcases deleted_new h hdel with hold | ⟨u, inp, p, sid, -, -, -, -, hqueued⟩
    · exact hsp.active_before hw h hold hj (hg.observed t m ht hpc hold)
    · exact hg.gone t m ht (by rw [hpc]; rfl) hqueued
  · -- the monitor has just looked for the guard
    have hold : .deleted m.jobId ∈ s.log := by
      rcases deleted_new h hdel with hold | ⟨u, inp', p, sid, he, -, hu, -⟩
      · exact hold
      · obtain ⟨rfl, -⟩ := Action.run.inj he
        rw [ht] at hu
        cases hu
    have hactive := hsp.active_before hw h hold hj
    obtain ⟨id, p, sid, pc'⟩ := m
    obtain rfl : pc' = _ := hpc
    rw [ht] at hex
    obtain ⟨-, ⟨-, he, -⟩ | ⟨-, he⟩⟩ := monitor_from (t := t) (by rw [ht]; exact hex) rfl
    · cases he
    · obtain ⟨u, hu⟩ := hg.settling id hold hactive
      have hmem := hg.guarded u id (deletes_iff.mpr (Or.inr hu)) hactive
      rw [List.contains_iff_mem.mpr hmem] at he
      cases he

theorem retired_step (hg : Guarding s) (hw : Wf s) (h : step env s a = some s')
    (hret : ∃ e ∈ s'.log, e.retired id = true) :
    .deleted id ∉ s'.log ∧ s'.spooler.lookup id ≠ some .queued ∧ (ledger s').Past id := by
  -- what held of a retired job before the step holds after it
  have hkeep : .deleted id ∉ s.log → s.spooler.lookup id ≠ some .queued → (ledger s).Past id →
      .deleted id ∉ s'.log ∧ s'.spooler.lookup id ≠ some .queued ∧ (ledger s').Past id := by
    intro hno hq hpast
    refine ⟨fun hdel => ?_, ?_, ?_⟩
    · rcases deleted_new h hdel with hold | ⟨t, inp, p, sid, -, -, -, -, hqueued⟩
      · exact hno hold
      · exact hq hqueued
    · rcases unqueued_step h hq with hq' | ⟨t, call, hcall, rfl⟩
      · exact hq'
      · obtain ⟨σ, hc, hσ⟩ := custody_of_call hw hcall
        have hσ' := hpast.stage σ hc
        rcases hσ with rfl | rfl <;> cases hσ'
    · obtain ⟨mv, -, -, hmove⟩ := step_refines hw h
      exact hpast.step hmove
  rcases retired_new hw h hret with hold | ⟨hactive, t, inp, p, sid, rfl, hp, ht⟩
  · obtain ⟨hno, hq, hpast⟩ := hg.retired id hold
    exact hkeep hno hq hpast
  · have hheld : (id, Stage.spooled sid) ∈ (s.task t).holds := by
      rw [ht]
      exact List.mem_cons_self
    exact hkeep (fun hdel => hactive (hg.observed t _ ht rfl hdel)) (hg.gone t _ ht rfl)
      (Ledger.past_of_custody hw.inv (custody_of_holds hw.exclusive hheld) rfl)

/-- **Every careful step keeps the invariant.** -/
theorem step (hg : Guarding s) (hsp : Spooling s) (hw : Wf s) (hok : Careful s a)
    (h : step env s a = some s') : Guarding s' where
  guarded _ _ := hg.guarded_step hsp hw hok h
  settled _ _ _ := hg.settled_step hsp hw h
  settling _ := hg.settling_step hsp hw h
  gone _ _ := hg.gone_step hw h
  observed _ _ := hg.observed_step hsp hw h
  retired _ := hg.retired_step hw h

end Guarding

/-! ### Runs of the engine -/

theorem Spooling.init : Spooling init where
  staged := ledger_init ▸ fun _ _ _ h => by cases h
  opened _ _ _ h := by cases h
  decided _ _ _ h := by cases h
  spooled _ h := absurd rfl h
  deleted _ h := by cases h
  unread _ _ h := by
    rw [ledger_init] at h
    cases h
  dormant _ _ _ h := by cases h

theorem Guarding.init : Guarding init where
  guarded _ _ h := by cases h
  settled _ _ _ h := by cases h
  settling _ h := by cases h
  gone _ _ h := by cases h
  observed _ _ h := by cases h
  retired _ h := by
    obtain ⟨e, he, -⟩ := h
    cases he

theorem safeCrash_of_careful (h : Careful s a) : SafeCrash s a := by
  rintro rfl
  exact h

/-- **In careful runs a job that a cancel call deleted is never completed as
retired.** -/
theorem cancelled_not_completed (h : Reach (step env) Careful init s) :
    ∀ id, .deleted id ∈ s.log → ∀ e ∈ s.log, e.retired id = false := by
  have hinv : Spooling s ∧ Guarding s := h.invariant (I := fun s => Spooling s ∧ Guarding s)
    ⟨.init, .init⟩ fun s a s' hr ⟨hsp, hg⟩ hok hs =>
      have hw := wf_of_reach hr
      ⟨hsp.step hw (safeCrash_of_careful hok) hs, hg.step hsp hw hok hs⟩
  intro id hdel e he
  rw [Bool.eq_false_iff]
  exact fun hret => (hinv.2.retired id ⟨e, he, hret⟩).1 hdel

/-- A job is spooled and watched, and two cancel calls have guarded it. -/
def cancellingTwice : List Action :=
  booting ++ submitting 1 2 ++ printing 2 (.outcome (.spooled 7)) ++
    List.replicate 2 (.run 2 { fresh := 3 }) ++ [.cancel 4 0] ++ List.replicate 3 (.run 4 {}) ++
    [.cancel 5 0] ++ List.replicate 3 (.run 5 {})

/-- The first call deletes the job; the monitor finds it gone; the call settles it. -/
def deletedInTime : List Action :=
  cancellingTwice ++ [.run 4 {}, .run 3 {}, .run 3 {}, .run 3 {}, .run 3 { jobState := .ok .gone },
    .run 3 {}, .run 4 {}, .run 3 {}]

theorem cancelled_not_completed_inTime :
    .deleted 0 ∈ (after deletedInTime).log ∧
      ∀ e ∈ (after deletedInTime).log, e.retired 0 = false := by
  have hdel : .deleted 0 ∈ (after deletedInTime).log := by decide +kernel
  exact ⟨hdel, cancelled_not_completed (reach_after Careful deletedInTime (by decide +kernel)) 0
    hdel⟩

/-! ### Where it goes wrong -/

/-- The second call fails to delete the job and lifts the guard while the first one
has deleted it and not yet settled it; the monitor looks there in between. -/
def guardLifted : List Action :=
  cancellingTwice ++ [.run 4 {}, .run 5 { cancelled := .error .internal }, .run 5 {}, .run 3 {},
    .run 3 {}, .run 3 {}, .run 3 { jobState := .ok .gone }, .run 3 {}, .run 3 {}]

/-- **A deleted job is completed as retired**, where another call lifts its guard. -/
theorem cancelled_completed :
    Reach (step desk) (fun _ _ => True) init (after guardLifted) ∧
      .deleted 0 ∈ (after guardLifted).log ∧
      ∃ e ∈ (after guardLifted).log, e.retired 0 = true :=
  ⟨reach_after _ _ (by decide +kernel), by decide +kernel, by decide +kernel⟩

end KilnPrint
