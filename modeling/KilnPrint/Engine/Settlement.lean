/-
A refused submission is fully settled.

* `History`, `traced` — the engine, with a history of what its calls are about, of
  the reservations taken and released, and of the records purged;
* `ClosedElsewhere` — another task made a job terminal;
* `Answered` — what holds of a job once its call returned an error about it;
* `Tracked`, `Tracked.step` — **the invariant of every reliable run**;
* `refusal_settled` — **the statement for the engine**.
-/
import KilnPrint.Engine.Refusal

namespace KilnPrint

open Custody Runs

variable {env : Env} {s s₁ s' : State} {t u : TaskId} {inp : Input} {a : Action} {id : JobId}

/-! ### Histories -/

/-- What a run remembers of its calls. -/
structure History where
  /-- The job each submit call stored. -/
  jobs : TaskId → Option JobId := fun _ => none
  /-- The job each task was last about. -/
  last : TaskId → JobId := fun _ => 0
  /-- The reservations taken since the process started. -/
  taken : Multiset Held := 0
  /-- The reservations released since the process started. -/
  given : Multiset Held := 0
  /-- The jobs whose old records were deleted. -/
  purged : JobId → Bool := fun _ => false

/-- Whether a step deletes the record of a job, as old. -/
def Action.purges (s : State) (id : JobId) : Action → Bool
  | .purge cutoff =>
    (s.repo.lookup id).any fun j => j.status.isTerminal && j.createdAt < cutoff
  | _ => false

/-- What is remembered after a step. -/
def History.next (env : Env) (g : History) (s : State) : Action → History
  | .crash => { purged := g.purged }
  | a =>
    { jobs := fun t => (s.task t).recall (g.jobs t)
      last := s.subjects g.last
      taken := g.taken + a.takes env g.last s
      given := g.given + a.gives env g.last s
      purged := fun id => g.purged id || a.purges s id }

/-- The engine with its history. -/
def traced (env : Env) (x : State × History) (a : Action) : Option (State × History) :=
  (step env x.1 a).map fun s' => (s', x.2.next env x.1 a)

/-- The runs whose repository calls succeed, with their history. -/
def Traced (env : Env) (s : State) (g : History) : Prop :=
  Reach (traced env) (fun x a => Reliable x.1 a) (init, {}) (s, g)

theorem traced_eq_some {x x' : State × History} (h : traced env x a = some x') :
    step env x.1 a = some x'.1 ∧ x'.2 = x.2.next env x.1 a := by
  obtain ⟨s', hs, rfl⟩ := Option.map_eq_some_iff.mp h
  exact ⟨hs, rfl⟩

namespace History

variable {g : History}

theorem next_of_ne (h : a ≠ .crash) : g.next env s a =
    { jobs := fun t => (s.task t).recall (g.jobs t)
      last := s.subjects g.last
      taken := g.taken + a.takes env g.last s
      given := g.given + a.gives env g.last s
      purged := fun id => g.purged id || a.purges s id } := by
  cases a <;> first | rfl | exact absurd rfl h

end History

namespace Traced

variable {g : History}

/-- Forgetting the history leaves a run. -/
theorem reach (h : Traced env s g) : Reach (step env) Reliable init s := by
  have hrun : ∀ x, Reach (traced env) (fun x a => Reliable x.1 a) (init, {}) x →
      Reach (step env) Reliable init x.1 := by
    intro x hx
    induction hx with
    | refl => exact .refl
    | tail _ hok hs ih => exact ih.tail hok (traced_eq_some hs).1
  exact hrun (s, g) h

/-- The accounts of a run are part of its history. -/
theorem accounts (h : Traced env s g) : Accounts env s g.last g.taken g.given := by
  have hrun : ∀ x, Reach (traced env) (fun x a => Reliable x.1 a) (init, {}) x →
      Accounts env x.1 x.2.last x.2.taken x.2.given := by
    intro x hx
    induction hx with
    | refl => exact .started
    | @tail x x' a _ _ hs ih =>
      obtain ⟨hstep, hnext⟩ := traced_eq_some hs
      by_cases hcrash : a = .crash
      · subst hcrash
        obtain hcrashed := Option.some.inj hstep
        rw [hnext, ← hcrashed]
        exact ih.crashed
      · rw [hnext, History.next_of_ne hcrash]
        exact ih.stepped hcrash hstep
  exact hrun (s, g) h

end Traced

/-- Every run has a history. -/
theorem traced_of_reach (h : Reach (step env) Reliable init s) : ∃ g, Traced env s g := by
  induction h with
  | refl => exact ⟨_, .refl⟩
  | @tail s s' a _ hok hs ih =>
    obtain ⟨g, hg⟩ := ih
    refine ⟨g.next env s a, hg.tail (a := a) hok ?_⟩
    rw [traced, hs]
    rfl

/-! ### Closed by another task -/

/-- Another task than the submit call made the job terminal. -/
def ClosedElsewhere (log : List Entry) (id : JobId) : Prop :=
  ∃ o ch ev, .applied o id ch (some ev) ∈ log ∧ o ≠ .submit ∧ ev.job.status.isTerminal = true

theorem ClosedElsewhere.append {log es : List Entry} (h : ClosedElsewhere log id) :
    ClosedElsewhere (log ++ es) id := by
  obtain ⟨o, ch, ev, hmem, ho, hterm⟩ := h
  exact ⟨o, ch, ev, List.mem_append_left _ hmem, ho, hterm⟩

/-- A custodian that keeps an unclaimed job leaves it open. -/
theorem Stage.Hands.open_of_unclaimed {σ τ : Stage} {ch : Change} {r : Reading} {j : Job}
    (h : σ.Hands ch (some τ)) (hσ : σ.unclaimed = true) (ha : σ.allows j)
    (hopen : j.status.isTerminal = false) :
    (ch.mutated r.now r.stamp j).job.status.isTerminal = false := by
  cases h with
  | validate =>
    have hst : (Change.validating.mutated r.now r.stamp j).job.status = .validating := by
      simp [Change.mutated, Job.touch, Change.apply, Job.transition, Job.stamp,
        JobStatus.canTransitionTo, ha.1]
    rw [hst]
    rfl
  | queue warnings language =>
    have hst : ((Change.queue warnings language).mutated r.now r.stamp j).job.status = .queued := by
      cases language <;>
        simp [Change.mutated, Job.touch, Change.apply, Job.transition, Job.stamp, Change.orKeep,
          JobStatus.canTransitionTo, ha.1]
    rw [hst]
    rfl
  | assign | claim => exact hopen
  | _ => cases hσ

/-- A cancellation or a shutdown that closes a job reports it. -/
theorem Foreign.event_of_closed {o : Origin} {ch : Change} {r : Reading} {j : Job}
    (h : Foreign o ch) (hopen : j.status.isTerminal = false)
    (hclosed : (ch.mutated r.now r.stamp j).job.status.isTerminal = true) :
    o ≠ .submit ∧ ∃ kind, (ch.mutated r.now r.stamp j).event = some kind := by
  obtain ⟨j', hj', -⟩ := Change.transition_cancelled r.now hopen
  cases h with
  | cancelQueued =>
    refine ⟨by decide, .cancelled, ?_⟩
    by_cases hd : j.delivery = .requestAccepted
    · simp [Change.mutated, Change.apply, hd, hj', Change.orKeep]
    · have hkeep : (Change.cancelQueued.mutated r.now r.stamp j).job = j :=
        Change.mutated_eq_self (by rw [Change.cancelQueued_skip hd])
      rw [hkeep, hopen] at hclosed
      cases hclosed
  | cancelSpooled =>
    refine ⟨by decide, .cancelled, ?_⟩
    simp [Change.mutated, Change.apply, hj', Change.orKeep]
  | shutdown =>
    refine ⟨by decide, .failed, ?_⟩
    simp [Change.mutated, Change.apply, Job.fail, Job.transition, JobStatus.canTransitionTo_failed,
      hopen, Change.orKeep]

/-- No worker has claimed the job of a submit call. -/
theorem unclaimed_of_job {task : Task} {σ : Stage} (h : task.job = some id)
    (hσ : (id, σ) ∈ task.holds) : σ.unclaimed = true := by
  obtain ⟨who, request, pc, rfl⟩ := submit_of_job h
  have hpc : pc.holds = [(id, σ)] := SubmitPc.mem_holds hσ
  cases pc with
  | release id' bytes result =>
    cases result with
    | ok job => cases h
    | error e =>
      cases hpc
      rfl
  | enter | lookup | existing | insert | «exit» | done => cases h
  | _ =>
    cases hpc
    rfl

namespace Ledger

variable {l l' : Ledger} {mv : Move}

/-- **An unclaimed job stays open until another task closes it**, or its custodian
gives it up. -/
theorem Step.open_or_closed {σ : Stage} {j : Job} (hs : l.Step mv l') (hinv : l.Inv)
    (hcrash : mv ≠ .crash) (hc : l.custody id = some σ) (hσ : σ.unclaimed = true)
    (hj : l.active id = some j) (hkept : l'.custody id ≠ none) :
    (∃ j', l'.active id = some j') ∨ ClosedElsewhere l'.log id := by
  obtain ⟨-, hopen⟩ := hinv.active id j hj
  have hother : ∀ {id' : JobId} {v : Option Job}, id ≠ id' →
      ∃ j', Function.update l.active id' v id = some j' := by
    intro id' v hne
    exact ⟨j, by rw [Function.update_of_ne hne, hj]⟩
  cases hs with
  | @own id' σ' σ'' ch k r hc' hh hk =>
    left
    by_cases he : id = id'
    · subst he
      obtain rfl : σ = σ' := Option.some_inj.mp (hc.symm.trans hc')
      obtain rfl : j = k := Option.some_inj.mp (hj.symm.trans hk)
      cases σ'' with
      | none => exact absurd (Function.update_self ..) hkept
      | some τ =>
        -- its own holder has not claimed it, and leaves the record open
        have hstays := hh.open_of_unclaimed (r := r) hσ ((hinv.fits id σ hc).allows j hj) hopen
        refine ⟨(ch.mutated r.now r.stamp j).job, ?_⟩
        rw [active_hand, active_change_self, if_neg (by simp [hstays])]
    · rw [active_hand, active_change_of_ne he]
      exact ⟨j, hj⟩
  | @foreign o id' ch k r hfo hk =>
    by_cases he : id = id'
    · subst he
      obtain rfl : j = k := Option.some_inj.mp (hj.symm.trans hk)
      rw [active_change_self]
      cases hterm : (ch.mutated r.now r.stamp j).job.status.isTerminal with
      | false => exact .inl ⟨_, rfl⟩
      | true =>
        right
        -- whoever else closes the record leaves an entry about it
        obtain ⟨ho, kind, hkind⟩ := hfo.event_of_closed hopen hterm
        refine ⟨o, ch, ⟨kind, (ch.mutated r.now r.stamp j).job⟩, ?_, ho, hterm⟩
        refine List.mem_append_right _ (List.mem_singleton.mpr ?_)
        rw [hkind]
        rfl
    · left
      rw [active_change_of_ne he]
      exact ⟨j, hj⟩
  | @announce job hc' | @reopen job hc' =>
    left
    by_cases he : id = job.jobId
    · subst he
      exact ⟨job, Function.update_self ..⟩
    · exact hother he
  | crash => exact absurd rfl hcrash
  | _ => exact .inl ⟨j, hj⟩

/-- A stored record stays unless it is purged. -/
theorem Step.stored_or_purged {j : Job} (hs : l.Step mv l') (hinv : l.Inv)
    (hj : l.stored id = some j) : (∃ j', l'.stored id = some j') ∨
      ∃ cutoff, mv = .purge cutoff ∧ (j.status.isTerminal && j.createdAt < cutoff) = true := by
  have hchange : ∀ (o : Origin) (r : Reading) (ch : Change) {id' : JobId} {k : Job},
      l.active id' = some k → ∃ j', (l.change o r id' ch k).stored id = some j' := by
    intro o r ch id' k hk
    obtain ⟨hid, -⟩ := hinv.activeId id' k hk
    by_cases he : id = id'
    · subst he
      rcases stored_change_self o r ch hid with hself | hself
      · exact ⟨_, hself⟩
      · exact ⟨j, hself.trans hj⟩
    · exact ⟨j, (stored_change_of_ne hid he).trans hj⟩
  cases hs with
  | @own id' σ σ' ch k r hc hh hk => exact .inl (hchange σ.origin r ch hk)
  | @foreign o id' ch k r hfo hk => exact .inl (hchange o r ch hk)
  | @store job hc =>
    left
    show ∃ j', Function.update l.stored job.jobId (some job) id = some j'
    by_cases he : id = job.jobId
    · exact ⟨job, by rw [he, Function.update_self]⟩
    · exact ⟨j, by rw [Function.update_of_ne he, hj]⟩
  | purge cutoff =>
    cases hold : (j.status.isTerminal && j.createdAt < cutoff : Bool) with
    | true => exact .inr ⟨cutoff, rfl, hold⟩
    | false =>
      left
      refine ⟨j, Option.filter_eq_some_iff.mpr ⟨hj, ?_⟩⟩
      rw [hold]
      rfl
  | _ => exact .inl ⟨j, hj⟩

end Ledger

/-! ### The invariant -/

/-- The record failed with this error, once, and the failure is broadcast or about to
be. -/
structure FailedWith (s : State) (t : TaskId) (id : JobId) (e : PrintError) : Prop where
  stored : ∀ j, s.repo.lookup id = some j → j.status = .failed ∧ j.error = some e
  once : s.log.countP (Entry.fails id) = 1
  reported : ∃ ev : EngineEvent, ev.fails id = true ∧ (ev ∈ s.events ∨ (t, ev) ∈ s.outbox)

/-- What holds of a job once call `t` returned the error `e` about it. -/
structure Answered (s : State) (g : History) (t : TaskId) (id : JobId) (e : PrintError) :
    Prop where
  named : e.jobId = some id
  released : ∀ x ∈ s.live g.last, x.1 ≠ id
  settled : (ledger s).Settled id
  outcome : ClosedElsewhere s.log id ∨ FailedWith s t id e

/-- The calls' jobs, up to the answer. -/
structure Tracked (s : State) (g : History) : Prop where
  stored : ∀ t id, (s.task t).recall (g.jobs t) = some id → g.purged id = false →
    ∃ j, s.repo.lookup id = some j
  shared : ∀ t id, (s.task t).job = some id →
    (∃ who request job, s.task t = .submit who request (.activate job)) ∨
      (∃ j, s.active.lookup id = some j) ∨ ClosedElsewhere s.log id
  settling : ∀ t who request id e, s.task t = .submit who request (.settle id e) →
    ∀ x ∈ s.live g.last, x.1 ≠ id
  answered : ∀ t who request e id, s.task t = .submit who request (.done (.error e)) →
    g.jobs t = some id → Answered s g t id e

namespace Tracked

variable {g : History}

theorem started : Tracked init {} where
  stored t id h := (by cases h)
  shared t id h := (by cases h)
  settling t who request id e h := (by cases h)
  answered t who request e id h := (by cases h)

theorem crashed (s : State) (g : History) : Tracked s.crashed (g.next env s .crash) where
  stored t id h := (by cases h)
  shared t id h := (by cases h)
  settling t who request id e h := (by cases h)
  answered t who request e id h := (by cases h)

/-- A record stays, unless it is purged. -/
theorem stored_step (h : Tracked s g) (hw : Wf s) (hagree : (ledger s').Agree) (hw' : Wf s')
    (hcrash : a ≠ .crash) (hs : step env s a = some s')
    (hid : (s'.task t).recall ((g.next env s a).jobs t) = some id)
    (hpurged : (g.next env s a).purged id = false) : ∃ j, s'.repo.lookup id = some j := by
  rw [History.next_of_ne hcrash] at hid hpurged
  obtain ⟨hbefore, hkept⟩ := Bool.or_eq_false_iff.mp hpurged
  rcases recall_before hs hid with hold | ⟨inp, who, request, job, -, -, hnew, rfl⟩
  · obtain ⟨j, hj⟩ := h.stored t id hold hbefore
    obtain ⟨mv, hof, -, hmove⟩ := step_refines hw hs
    rcases hmove.stored_or_purged hw.inv hj with hj' | ⟨cutoff, rfl, hterm⟩
    · exact hj'
    · obtain rfl : a = .purge cutoff := hof
      rw [Action.purges, hj] at hkept
      exact absurd hterm (by simpa using hkept)
  · have hheld : (job.jobId, Stage.stored job) ∈ (s'.task t).holds := by
      rw [hnew]
      exact List.mem_singleton.mpr rfl
    exact ⟨job, hagree.staged _ _ (custody_of_holds hw'.exclusive hheld)⟩

/-- A job stays open until another task closes it. -/
theorem shared_step (h : Tracked s g) (hw : Wf s) (hw' : Wf s') (hcrash : a ≠ .crash)
    (hs : step env s a = some s') (hid : (s'.task t).job = some id) :
    (∃ who request job, s'.task t = .submit who request (.activate job)) ∨
      (∃ j, s'.active.lookup id = some j) ∨ ClosedElsewhere s'.log id := by
  obtain ⟨who, request, pc, hpc⟩ := submit_of_job hid
  obtain ⟨mv, hof, -, hmove⟩ := step_refines hw hs
  obtain ⟨es, hlog, -⟩ := step_logs hs
  obtain ⟨σ', hheld'⟩ := holds_of_job hid
  have hkept : (ledger s').custody id ≠ none := by
    rw [custody_of_holds hw'.exclusive hheld']
    simp
  -- the job was this call's before, and stays open or is closed by another task
  have hold : (s.task t).job = some id →
      (∀ who request job, s.task t ≠ .submit who request (.activate job)) →
      (∃ j, s'.active.lookup id = some j) ∨ ClosedElsewhere s'.log id := by
    intro hjob hne
    obtain ⟨σ, hheld⟩ := holds_of_job hjob
    have hcust := custody_of_holds hw.exclusive hheld
    rcases h.shared t id hjob with ⟨who, request, job, hact⟩ | ⟨j, hj⟩ | hclosed
    · exact absurd hact (hne who request job)
    · refine hmove.open_or_closed hw.inv ?_ hcust (unclaimed_of_job hjob hheld) hj hkept
      rintro rfl
      exact hcrash hof
    · right
      rw [hlog]
      exact hclosed.append
  cases step_submit hs hpc with
  | same hsame =>
    by_cases hact : ∃ job, pc = .activate job
    · obtain ⟨job, rfl⟩ := hact
      exact .inl ⟨who, request, job, hpc⟩
    · right
      refine hold (by rw [hsame, ← hpc, hid]) ?_
      intro who' request' job hjob
      rw [hsame] at hjob
      obtain ⟨-, -, rfl⟩ := Task.submit.inj hjob
      exact hact ⟨job, rfl⟩
  | new ha hnone hnew =>
    rw [hpc] at hid
    rcases hnew with rfl | ⟨e, rfl⟩ <;> cases hid
  | @ran inp s₁ ha hp hex hrun =>
    rw [hpc] at hid
    rcases code_job (exec_continues hex) hid with hjob | ⟨who', request', job, hinsert, hnew⟩
    · by_cases hact : ∃ who request job, s.task t = .submit who request (.activate job)
      · obtain ⟨who', request', job, hact⟩ := hact
        rw [hact] at hjob hex
        obtain rfl := Option.some.inj hjob
        obtain ⟨rfl, -⟩ := Prod.mk.inj (Option.some.inj hex)
        right
        left
        refine ⟨job, ?_⟩
        rw [hrun]
        show (s.active.insert job.jobId job).lookup job.jobId = some job
        rw [FinMap.lookup_insert_ite, if_pos rfl]
      · right
        exact hold hjob fun who' request' job hjob' => hact ⟨who', request', job, hjob'⟩
    · left
      exact ⟨who', request', job, hpc.trans hnew⟩

end Tracked

/-! ### Released reservations -/

/-- A job without a live reservation gets none, unless a call reserves for it. -/
theorem live_free {last : TaskId → JobId} (hs : step env s a = some s') (hcrash : a ≠ .crash)
    (hlive : ∀ x ∈ s.live last, x.1 ≠ id)
    (hfree : ∀ u who request p, s.task u = .submit who request (.reserve p) →
      s'.task u = .submit who request (.queue p) → p.jobId ≠ id) :
    ∀ x ∈ s'.live (s.subjects last), x.1 ≠ id := by
  intro x hx
  have hsum := step_live last hcrash hs
  have hmem : x ∈ s.live last + a.takes env last s := by
    rw [← hsum]
    exact Multiset.mem_add.mpr (.inl hx)
  rcases Multiset.mem_add.mp hmem with hold | hnew
  · exact hlive x hold
  · rcases takes_cases last hs with hzero | ⟨u, who, request, p, bytes, hu, htakes, hu'⟩
    · rw [hzero] at hnew
      exact absurd hnew (Multiset.notMem_zero x)
    · rw [htakes] at hnew
      obtain rfl := Multiset.mem_singleton.mp hnew
      exact hfree u who request p hu hu'

theorem unreserved_of_judging {pc : SubmitPc} (h : pc.judging = some id) :
    pc.unreserved = some id := by
  cases pc <;> first | exact h | cases h

/-- A job that another call's custody excludes is not reserved for. -/
theorem not_reserving (hw : Wf s) {who : Submitter} {request : PrintRequest} {p : Prepared}
    (hu : s.task u = .submit who request (.reserve p)) (ht : (s.task t).job = some id)
    (hne : u ≠ t) : p.jobId ≠ id := by
  rintro rfl
  have hheld : (p.jobId, Stage.assigned) ∈ (s.task u).holds := by
    rw [hu]
    exact List.mem_singleton.mpr rfl
  obtain ⟨σ, hσ⟩ := holds_of_job ht
  exact hne (hw.exclusive.unique (mem_keys_of_mem hheld) (mem_keys_of_mem hσ))

namespace Tracked

variable {g : History}

/-- Where a refusal is about to be recorded, its job has no live reservation. -/
theorem settling_step (h : Tracked s g) (hrun : Traced env s g) (hcrash : a ≠ .crash)
    (hs : step env s a = some s') {who : Submitter} {request : PrintRequest} {e : PrintError}
    (hsettle : s'.task t = .submit who request (.settle id e)) :
    ∀ x ∈ s'.live (s.subjects g.last), x.1 ≠ id := by
  have hw : Wf s := wf_of_reach hrun.reach
  have hpast : Past s g.taken := hrun.accounts.past
  have hle : s.live g.last ≤ g.taken := by
    rw [hrun.accounts.conserved.1]
    exact Multiset.le_add_left _ _
  have hother : (s.task t).job = some id → ∀ u who' request' p,
      s.task u = .submit who' request' (.reserve p) →
      s'.task u = .submit who' request' (.queue p) → p.jobId ≠ id := by
    intro hjob u who' request' p hu hu'
    refine not_reserving hw hu hjob ?_
    rintro rfl
    rw [hsettle] at hu'
    cases hu'
  cases step_submit hs hsettle with
  | same hold =>
    refine live_free hs hcrash (h.settling t who request id e hold) (hother ?_)
    rw [hold]
    rfl
  | new ha hnone hnew => rcases hnew with hnew | ⟨e', hnew⟩ <;> cases hnew
  | @ran inp s₁ ha hp hex hrun' =>
    rcases code_settle (exec_continues hex) with ⟨pc, hpc, hjudging⟩ | ⟨bytes, hrelease⟩
    · have hjob : (s.task t).job = some id := by
        rw [hpc]
        exact job_of_judging hjudging
      refine live_free hs hcrash ?_ (hother hjob)
      intro x hx hid
      refine hpast.reserved x (Multiset.mem_of_le hle hx) t ?_
      rw [hpc, hid]
      exact unreserved_of_judging hjudging
    · -- the reservation that is dropped is the only one of the job
      have hgives : a.gives env g.last s = {(id, bytes)} := by
        rw [ha, Action.gives, hp, if_neg (by simp), State.subjects, hrelease]
        rfl
      have htakes : a.takes env g.last s = 0 := by
        rcases takes_or_gives env g.last s a with hzero | hzero
        · exact hzero
        · rw [hgives] at hzero
          exact absurd hzero (Multiset.singleton_ne_zero _)
      have hsum := step_live g.last hcrash hs
      rw [hgives, htakes, add_zero] at hsum
      have hsingle : ((s'.live (s.subjects g.last) + {(id, bytes)}).map Prod.fst).Nodup := by
        rw [hsum]
        exact Multiset.nodup_of_le (Multiset.map_le_map hle) hpast.single
      rw [Multiset.map_add, Multiset.map_singleton, Multiset.nodup_add] at hsingle
      have hdisjoint := Multiset.disjoint_singleton.mp hsingle.2.2
      intro x hx hid
      exact hdisjoint (Multiset.mem_map.mpr ⟨x, hx, hid⟩)

end Tracked

/-! ### The answer -/

/-- An event that a call owes is broadcast or still owed after a step. -/
theorem reported_step {t : TaskId} {ev : EngineEvent} (hs : step env s a = some s')
    (hcrash : a ≠ .crash) (h : ev ∈ s.events ∨ (t, ev) ∈ s.outbox) :
    ev ∈ s'.events ∨ (t, ev) ∈ s'.outbox := by
  cases step_broadcasts hs with
  | silent hevents houtbox hraised => rwa [hevents, houtbox]
  | raised ha hp he hlog hevents houtbox hraised =>
    rw [hevents, houtbox]
    exact h.imp_right fun hmem => List.mem_append_left _ hmem
  | @sent t' inp ev' ha hp hevents houtbox hraised =>
    rw [hevents, houtbox]
    rcases h with hmem | hmem
    · exact .inl (List.mem_append_left _ hmem)
    · by_cases he : (t, ev) = (t', ev')
      · left
        obtain ⟨-, rfl⟩ := Prod.mk.inj he
        exact List.mem_append_right _ (List.mem_singleton.mpr rfl)
      · right
        exact (List.mem_erase_of_ne he).mpr hmem
  | crashed ha hevents houtbox hraised => exact absurd ha hcrash

/-- **What was answered stays so.** -/
theorem Answered.step {g : History} {e : PrintError} (h : Answered s g t id e) (hw : Wf s)
    (hcrash : a ≠ .crash) (hs : step env s a = some s') :
    Answered s' (g.next env s a) t id e := by
  rw [History.next_of_ne hcrash]
  obtain ⟨mv, -, -, hmove⟩ := step_refines hw hs
  obtain ⟨es, hlog, -⟩ := step_logs hs
  obtain ⟨hsettled, hstored, hfailures⟩ := h.settled.step hw.inv hmove
  refine ⟨h.named, ?_, hsettled, ?_⟩
  · refine live_free hs hcrash h.released ?_
    rintro u who request p hu - rfl
    have hheld : (p.jobId, Stage.assigned) ∈ (s.task u).holds := by
      rw [hu]
      exact List.mem_singleton.mpr rfl
    have hfree := h.settled.free
    rw [custody_of_holds hw.exclusive hheld] at hfree
    cases hfree
  · rcases h.outcome with hclosed | hfailed
    · left
      rw [hlog]
      exact hclosed.append
    · right
      obtain ⟨ev, hev, hreported⟩ := hfailed.reported
      refine ⟨fun j hj => hfailed.stored j (hstored j hj), ?_, ev, hev, reported_step hs hcrash hreported⟩
      exact hfailures.trans hfailed.once

/-- Failing an open job reports the failure. -/
theorem Change.fail_event {j : Job} {now stamp : Time} (e : PrintError)
    (hopen : j.status.isTerminal = false) :
    ((Change.fail e).mutated now stamp j).event = some .failed := by
  simp [Change.mutated, Change.apply, Job.fail, Job.transition, JobStatus.canTransitionTo_failed,
    hopen, Change.orKeep]

theorem Job.jobId_annotate (j : Job) (e : PrintError) : (j.annotate e).jobId = some j.jobId := by
  unfold Job.annotate
  cases j.printerId with
  | none => rfl
  | some p =>
    dsimp only
    split <;> rfl

/-- A refused call's job is out of everybody's hands. -/
theorem ledger_settle {who : Submitter} {request : PrintRequest} {err : PrintError}
    {result : Except PrintError Job} (hw : Wf s)
    (htask : s.task t = .submit who request (.settle id err)) (htasks : s₁.tasks = s.tasks) :
    ledger (s₁.setTask t (.submit who request (.done result))) = (ledger s₁).hand id none := by
  have hloads : (Task.submit who request (.done result)).loads = (s.task t).loads := by
    rw [htask]
    rfl
  have hold : (s.task t).holds = [(id, .refused)] := by
    rw [htask]
    rfl
  have htrade : Trades (s.task t).holds (Task.submit who request (.done result)).holds
      (.hand id none) := by
    rw [hold]
    exact .remove (.refl _) (.refl _)
  exact (Trades.ledger_eq hw.exclusive htasks hloads htrade).2

theorem unfailed_of_reach (h : Reach (step env) Reliable init s) : (ledger s).Unfailed := by
  refine h.invariant (I := fun s => (ledger s).Unfailed) ?_ ?_
  · rw [ledger_init]
    exact .empty
  · intro s a s' hr hunfailed hok hs
    obtain ⟨mv, hof, -, hmove⟩ := step_refines (wf_of_reach hr) hs
    exact hunfailed.step (agree_of_reach hr) (wf_of_reach hr).inv hmove (hof.reliable hok)

section Settling

variable {who : Submitter} {request : PrintRequest} {err : PrintError}

/-- The job was closed before its refusal is recorded. -/
theorem settled_of_closed (hw : Wf s) (hagree : (ledger s).Agree)
    (htask : s.task t = .submit who request (.settle id err)) (hj : s.active.lookup id = none) :
    ((ledger s).hand id none).Settled id := by
  have hne : s.task t ≠ .none := by simp [htask]
  have hheld : (id, Stage.refused) ∈ (s.task t).holds := by
    rw [htask]
    exact List.mem_singleton.mpr rfl
  have hcust : (ledger s).custody id = some .refused := custody_of_holds hw.exclusive hheld
  have hstart : t ≠ startTask := by
    rintro rfl
    obtain ⟨pc, hstart⟩ := hw.booted.first.resolve_left hne
    rw [htask] at hstart
    cases hstart
  have hloaded : (ledger s).loaded = true := loads_of_task hw.booted hstart hne
  refine ⟨hw.inv.custodyLt id _ hcust, hj, Function.update_self .., ?_,
    (hw.inv.fits id _ hcust).uninvoked rfl⟩
  intro j hstored
  by_contra hopen
  rcases hagree.covered hloaded id j hstored (by simpa using hopen) with hactive | ⟨σ, hσ, hun⟩
  · rw [show (ledger s).active id = none from hj] at hactive
    cases hactive
  · obtain rfl : Stage.refused = σ := Option.some_inj.mp (hcust.symm.trans hσ)
    cases hun

/-- The refusal closes the job. -/
theorem settled_of_failed {j : Job} {r : Reading} (hw : Wf s) (hagree : (ledger s).Agree)
    (htask : s.task t = .submit who request (.settle id err)) (hj : s.active.lookup id = some j)
    (hr : r.repoOk = true) :
    (((ledger s).change .submit r id (.fail err) j).hand id none).Settled id := by
  obtain ⟨hid, hlt⟩ := hw.inv.activeId id j hj
  have hheld : (id, Stage.refused) ∈ (s.task t).holds := by
    rw [htask]
    exact List.mem_singleton.mpr rfl
  have hcust : (ledger s).custody id = some .refused := custody_of_holds hw.exclusive hheld
  have hfailed : ((Change.fail err).mutated r.now r.stamp j).job.status = .failed :=
    Change.fail_status (hw.inv.active id j hj).2 err
  refine ⟨hlt, ?_, Function.update_self .., ?_, ?_⟩
  · rw [Ledger.active_hand, Ledger.active_change_self, hfailed]
    rfl
  · intro k hk
    rw [Ledger.stored_hand, Ledger.stored_change_reliable .submit _ hagree hj hid hr,
      Option.some_inj] at hk
    rw [← hk, hfailed]
    rfl
  · show ((ledger s).log ++ [(Change.fail err).entry .submit r id j]).countP _ = 0
    rw [List.countP_append]
    exact (hw.inv.fits id _ hcust).uninvoked rfl

/-- The refusal is recorded with the error that is returned, and reported. -/
theorem failedWith_of_settle {j : Job} (hw : Wf s) (hagree : (ledger s).Agree)
    (hunfailed : (ledger s).Unfailed) (hj : s.active.lookup id = some j) (hr : inp.repoOk = true)
    (k : Task) :
    FailedWith ((s.mutate t .submit inp id (.fail err)).1.setTask t k) t id (j.annotate err) := by
  obtain ⟨hid, -⟩ := hw.inv.activeId id j hj
  obtain ⟨-, hopen⟩ := hw.inv.active id j hj
  have hfailed : ((Change.fail err).mutated inp.now inp.stamp j).job.status = .failed :=
    Change.fail_status hopen err
  have hclosed : ((Change.fail err).apply inp.now j).1.status.isTerminal = true := by
    rw [Change.fail_status hopen]
    rfl
  have hevent : ((Change.fail err).mutated inp.now inp.stamp j).event = some .failed :=
    Change.fail_event err hopen
  refine ⟨?_, ?_, ⟨.failed, ((Change.fail err).mutated inp.now inp.stamp j).job⟩, ?_, ?_⟩
  · intro k hk
    have hstored : (s.mutate t .submit inp id (.fail err)).1.repo.lookup id = some k := hk
    rw [stored_mutate_of_closes hw hj hr hclosed, Option.some_inj] at hstored
    rw [← hstored]
    exact ⟨hfailed, Change.fail_error hopen err⟩
  -- the record had no failure before, and this is its one
  · have hlog : (s.mutate t .submit inp id (.fail err)).1.log =
        ((ledger s).change .submit inp.reading id (.fail err) j).log :=
      congrArg Ledger.log (mutate_some hj).2.2
    have hcount : ((ledger s).change .submit inp.reading id (.fail err) j).log.countP
        (Entry.fails id) = _ := Ledger.fails_change hid id
    rw [hunfailed.pending id j (hagree.synced id j hj) hopen, if_pos ⟨hevent, rfl⟩] at hcount
    show (s.mutate t .submit inp id (.fail err)).1.log.countP (Entry.fails id) = 1
    rw [hlog]
    exact hcount
  · have hjob : ((Change.fail err).mutated inp.now inp.stamp j).job.jobId = id :=
      Change.jobId_mutated.trans hid
    simp [EngineEvent.fails, hjob]
  · right
    show _ ∈ (s.mutate t .submit inp id (.fail err)).1.outbox
    rw [State.mutate, hj]
    refine List.mem_append_right _ ?_
    rw [hevent]
    exact List.mem_singleton.mpr rfl

/-- **Recording a refusal settles it.** -/
theorem answered_of_settle {g : History} {e : PrintError} (h : Tracked s g)
    (hrun : Traced env s g) (hok : Reliable s a) (ha : a = .run t inp) (hs : step env s a = some s')
    (htask : s.task t = .submit who request (.settle id err))
    (hex : exec env t (s.task t).origin inp s (code env inp (s.task t)) =
      some (s₁, .submit who request (.done (.error e))))
    (hs' : s' = s₁.setTask t (.submit who request (.done (.error e)))) :
    Answered s' (g.next env s a) t id e := by
  have hw : Wf s := wf_of_reach hrun.reach
  have hagree : (ledger s).Agree := agree_of_reach hrun.reach
  have hcrash : a ≠ .crash := by
    rw [ha]
    exact fun hne => by cases hne
  have hr : inp.repoOk = true := by
    rw [ha] at hok
    exact hok
  have hjob : (s.task t).job = some id := by
    rw [htask]
    rfl
  -- the call ends, so nothing in the engine holds bytes for the job any more
  have hreleased : ∀ x ∈ s'.live (s.subjects g.last), x.1 ≠ id := by
    refine live_free hs hcrash (h.settling t who request id err htask) ?_
    intro u who' request' p hu _
    refine not_reserving hw hu hjob ?_
    rintro rfl
    rw [htask] at hu
    cases hu
  rw [History.next_of_ne hcrash]
  rw [htask] at hex
  obtain ⟨rfl, hdone⟩ : (s.mutate t .submit inp id (.fail err)).1 = s₁ ∧
      Task.submit who request (.done (.error (failure id err
        (s.mutate t .submit inp id (.fail err)).2))) = .submit who request (.done (.error e)) :=
    Prod.mk.inj (Option.some.inj hex)
  have he : failure id err (s.mutate t .submit inp id (.fail err)).2 = e :=
    Except.error.inj (SubmitPc.done.inj (Task.submit.inj hdone).2.2)
  have hledger : ledger s' = (ledger (s.mutate t .submit inp id (.fail err)).1).hand id none := by
    rw [hs']
    exact ledger_settle hw htask tasks_mutate
  cases hj : s.active.lookup id with
  | none =>
    rw [mutate_none hj] at he hs' hledger
    refine ⟨he ▸ rfl, hreleased, ?_, ?_⟩
    · rw [hledger]
      exact settled_of_closed hw hagree htask hj
    · left
      rw [hs']
      -- the record is gone from memory: it was closed, and stored as such
      rcases h.shared t id hjob with ⟨who', request', job, hact⟩ | ⟨j, hactive⟩ | hclosed
      · rw [htask] at hact
        cases hact
      · rw [hj] at hactive
        cases hactive
      · exact hclosed
  | some j =>
    obtain ⟨hid, -⟩ := hw.inv.activeId id j hj
    obtain ⟨-, hopen⟩ := hw.inv.active id j hj
    obtain ⟨hm, -, hchange⟩ :
        (s.mutate t .submit inp id (.fail err)).2 =
            some ((Change.fail err).mutated inp.now inp.stamp j) ∧ _ ∧
          ledger (s.mutate t .submit inp id (.fail err)).1 =
            (ledger s).change .submit inp.reading id (.fail err) j := mutate_some hj
    have herror : ((Change.fail err).mutated inp.now inp.stamp j).job.error =
        some (j.annotate err) := Change.fail_error hopen err
    -- the call answers with the error of the record
    obtain rfl : j.annotate err = e := by
      rw [← he, hm, failure, herror]
      rfl
    refine ⟨?_, hreleased, ?_, ?_⟩
    · rw [Job.jobId_annotate, hid]
    · rw [hledger, hchange]
      exact settled_of_failed hw hagree htask hj hr
    · right
      rw [hs']
      exact failedWith_of_settle hw hagree (unfailed_of_reach hrun.reach) hj hr _

end Settling

/-- The error a submit call returned. -/
def Task.refusal : Task → Option PrintError
  | submit _ _ (.done (.error e)) => some e
  | _ => Option.none

theorem refusal_eq_some {task : Task} {e : PrintError} :
    task.refusal = some e ↔ ∃ who request, task = .submit who request (.done (.error e)) := by
  constructor
  · intro h
    unfold Task.refusal at h
    split at h
    · obtain rfl := Option.some.inj h
      exact ⟨_, _, rfl⟩
    · cases h
  · rintro ⟨who, request, rfl⟩
    rfl

namespace Tracked

variable {g : History}

/-- An answer holds from when it is given. -/
theorem answered_step (h : Tracked s g) (hrun : Traced env s g) (hok : Reliable s a)
    (hcrash : a ≠ .crash) (hs : step env s a = some s') {who : Submitter} {request : PrintRequest}
    {e : PrintError} (hdone : s'.task t = .submit who request (.done (.error e)))
    (hid : (g.next env s a).jobs t = some id) : Answered s' (g.next env s a) t id e := by
  have hknown : (s.task t).recall (g.jobs t) = some id := by
    rwa [History.next_of_ne hcrash] at hid
  cases step_submit hs hdone with
  | same hold =>
    rw [hold] at hknown
    exact (h.answered t who request e id hold hknown).step (wf_of_reach hrun.reach) hcrash hs
  | new ha hnone hnew =>
    rw [hnone] at hknown
    cases hknown
  | @ran inp s₁ ha hp hex hs' =>
    rcases code_refusal (exec_continues hex) with hexit | ⟨id', err, m, hsettle, he⟩
    · -- a call without a record of its own
      rw [hexit] at hknown
      cases hknown
    · rw [hsettle] at hknown
      obtain rfl := Option.some.inj hknown
      exact answered_of_settle h hrun hok ha hs hsettle hex hs'

/-- **Every reliable step keeps it.** -/
theorem step (h : Tracked s g) (hrun : Traced env s g) (hok : Reliable s a)
    (hs : step env s a = some s') : Tracked s' (g.next env s a) := by
  by_cases hcrash : a = .crash
  · subst hcrash
    obtain rfl := Option.some.inj hs
    exact crashed s g
  · have hw : Wf s := wf_of_reach hrun.reach
    have hreach' : Reach (KilnPrint.step env) Reliable init s' := hrun.reach.tail hok hs
    have hw' : Wf s' := wf_of_reach hreach'
    refine ⟨?_, ?_, ?_, ?_⟩
    · intro t id hid hpurged
      exact h.stored_step hw (agree_of_reach hreach') hw' hcrash hs hid hpurged
    · intro t id hid
      exact h.shared_step hw hw' hcrash hs hid
    · intro t who request id e hsettle
      rw [History.next_of_ne hcrash]
      exact h.settling_step hrun hcrash hs hsettle
    · intro t who request e id hdone hid
      exact h.answered_step hrun hok hcrash hs hdone hid

end Tracked

theorem tracked_of_traced {g : History} (h : Traced env s g) : Tracked s g := by
  have hrun : ∀ x, Reach (traced env) (fun x a => Reliable x.1 a) (init, {}) x →
      Tracked x.1 x.2 := by
    intro x hx
    induction hx with
    | refl => exact .started
    | @tail x x' a hprev hok hs ih =>
      obtain ⟨hstep, hnext⟩ := traced_eq_some hs
      rw [hnext]
      exact ih.step hprev hok hstep
  exact hrun (s, g) h

/-- A settled job is never submitted, whatever happens. -/
theorem uninvoked_of_settled (hw : Wf s) (h : (ledger s).Settled id)
    (hrun : Reach (step env) (fun _ _ => True) s s') (printer : PrinterId) :
    .invoked id printer ∉ s'.log := by
  have hinvariant : Wf s' ∧ (ledger s').Settled id := by
    refine hrun.invariant (I := fun s => Wf s ∧ (ledger s).Settled id) ⟨hw, h⟩ ?_
    rintro s a s' - ⟨hw, h⟩ - hs
    obtain ⟨mv, -, -, hmove⟩ := step_refines hw hs
    exact ⟨wf_step hw hs, (h.step hw.inv hmove).settled⟩
  intro hmem
  have hnone := List.countP_eq_zero.mp hinvariant.2.uninvoked _ hmem
  simp [Entry.isInvoked] at hnone

/-! ### Main result -/

/-- A call that returned the error `e` left its job settled. -/
structure Refused (env : Env) (s : State) (g : History) (id : JobId) (e : PrintError) : Prop where
  /-- The provider is never called for the job, now or later. -/
  uninvoked : ∀ s', Reach (step env) (fun _ _ => True) s s' →
    ∀ printer, .invoked id printer ∉ s'.log
  /-- Its reservation, if it took one, was released and counts no more. -/
  released : (∀ bytes, g.given.count (id, bytes) = g.taken.count (id, bytes)) ∧
    s.used = bytesOf (s.live g.last) ∧ ∀ x ∈ s.live g.last, x.1 ≠ id
  /-- Its record is stored, unless it was purged as old. -/
  stored : g.purged id = false → ∃ j, s.repo.lookup id = some j
  terminal : ∀ j, s.repo.lookup id = some j → j.status.isTerminal = true
  named : e.jobId = some id
  /-- The record has the error, and one failure was broadcast. -/
  outcome : ClosedElsewhere s.log id ∨
    (∀ j, s.repo.lookup id = some j → j.status = .failed ∧ j.error = some e) ∧
      failures id s.events = 1

theorem FailedWith.failures (h : Reach (step env) Reliable init s) {e : PrintError}
    (hfailed : FailedWith s t id e) (hp : s.pendingEvent t = none) : failures id s.events = 1 := by
  obtain ⟨ev, hev, hreported⟩ := hfailed.reported
  have hsent : ev ∈ s.events := by
    refine hreported.resolve_right ?_
    intro hmem
    have hnone := List.find?_eq_none.mp hp _ hmem
    simp at hnone
  have hle : KilnPrint.failures id s.events ≤ 1 := by
    rw [← hfailed.once]
    refine le_trans ?_ (failures_raised_le s id)
    unfold KilnPrint.failures
    rw [← (emitted_perm h).countP_eq, List.countP_append]
    exact Nat.le_add_right _ _
  have hpos : 0 < KilnPrint.failures id s.events := List.countP_pos_iff.mpr ⟨ev, hsent, hev⟩
  omega

theorem refused_of_traced {g : History} {e : PrintError} (h : Traced env s g)
    (hdone : (s.task t).refusal = some e) (hp : s.pendingEvent t = none)
    (hjob : g.jobs t = some id) : Refused env s g id e := by
  obtain ⟨who, request, htask⟩ := refusal_eq_some.mp hdone
  have hw : Wf s := wf_of_reach h.reach
  have htracked := tracked_of_traced h
  have hanswered := htracked.answered t who request e id htask hjob
  obtain ⟨hconserved, hused, -⟩ := h.accounts.conserved
  refine ⟨?_, ⟨?_, hused, hanswered.released⟩, ?_, hanswered.settled.closed, hanswered.named, ?_⟩
  · intro s' hrun printer
    exact uninvoked_of_settled hw hanswered.settled hrun printer
  · intro bytes
    have hnone : (s.live g.last).count (id, bytes) = 0 :=
      Multiset.count_eq_zero.mpr fun hmem => hanswered.released _ hmem rfl
    rw [hconserved, Multiset.count_add, hnone, add_zero]
  · intro hpurged
    refine htracked.stored t id ?_ hpurged
    rw [htask]
    exact hjob
  · rcases hanswered.outcome with hclosed | hfailed
    · exact .inl hclosed
    · exact .inr ⟨hfailed.stored, hfailed.failures h.reach hp⟩

/-- **A refused submission is fully settled**: once a call returned an error about a
record it stored, the job is settled, in every reliable run. -/
theorem refusal_settled (h : Reach (step env) Reliable init s) :
    (∃ g, Traced env s g) ∧ ∀ g, Traced env s g → ∀ t id e, (s.task t).refusal = some e →
      s.pendingEvent t = none → g.jobs t = some id → Refused env s g id e := by
  refine ⟨traced_of_reach h, ?_⟩
  intro g hg t id e hdone hp hjob
  exact refused_of_traced hg hdone hp hjob

/-- A request without a document. -/
def blank : PrintRequest := { receipt none with document := .raw [] none }

/-- A call that is refused. -/
def refusing : List Action := booting ++ [.submit 1 clerk blank 0] ++ List.replicate 9 (.run 1 {})

def refusedState : State × History :=
  (runFrom (traced desk) (init, {}) refusing).getD (init, {})

theorem refusal_settled_blank :
    Refused desk refusedState.1 refusedState.2 0
      ((PrintError.invalidPayload "document is empty").withJob 0) := by
  have hchecked : (checked (traced desk) (fun x a => decide (Reliable x.1 a)) (init, {})
      refusing).isSome = true := by decide +kernel
  obtain ⟨x, hx⟩ := Option.isSome_iff_exists.mp hchecked
  have hend : refusedState = x := by
    rw [refusedState, runFrom_of_checked hx]
    rfl
  have hrun : Traced desk refusedState.1 refusedState.2 := by
    rw [hend]
    exact reach_of_checked (fun x a => of_decide_eq_true) hx
  exact (refusal_settled hrun.reach).2 _ hrun 1 0 _ (by decide +kernel) (by decide +kernel)
    (by decide +kernel)

end KilnPrint
