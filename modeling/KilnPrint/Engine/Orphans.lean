/-
Orphaned jobs: an active job that waits at `REQUEST_ACCEPTED` must be somebody's
to settle.

The obligation passes from the submit call to the channel of a worker, and once
shutdown has begun to the shutdown call.

* `Task.submits`, `Task.queues`, `Task.fails`, `Task.reconciles` — the tasks that
  are to settle a job;
* `State.NoOrphans` — every waiting job has such a task;
* `Attentive` — no custodian vanishes with a waiting job that shutdown will not
  fail: neither a dropped submit call nor a worker that drops its receiver;
* `no_orphans` — **attentive runs orphan no job**;
* `orphaned` — both kinds of custodian do vanish with a job.
-/
import KilnPrint.Engine.TaskStep
import KilnPrint.Engine.Unsent

namespace KilnPrint

open Custody Runs

/-! ### The statement -/

/-- The submit call is still running and the job is its own. -/
def Task.submits (id : JobId) : Task → Bool
  | submit _ _ pc => (keys pc.holds).contains id
  | _ => false

/-- The worker has not stopped, and the job's item is in its channel or was just
received from it. -/
def Task.queues (id : JobId) : Task → Bool
  | worker ⟨_, rx, pc⟩ =>
    pc != .stopped && (rx.any (·.jobId == id) ||
      match pc with
      | .claim item => item.jobId == id
      | _ => false)
  | _ => false

/-- The shutdown call has still to fail the job: every waiting job before its
snapshot, and then those of its snapshot it has not come to. -/
def Task.fails (id : JobId) : Task → Bool
  | shutdown .snapshot => true
  | shutdown (.failing todo) => todo.contains id
  | _ => false

/-- Reconciliation is settling the job. -/
def Task.reconciles (id : JobId) : Task → Bool
  | start (.locate job _) | start (.settle job _ _) => job.jobId == id
  | _ => false

/-- Every active job that waits at `REQUEST_ACCEPTED` belongs to a running submit
call, to the channel of a worker that has not stopped, or to what shutdown has
still to fail; before `start` has returned, also to reconciliation. -/
def State.NoOrphans (s : State) : Prop :=
  ∀ id j, s.active.lookup id = some j → j.delivery = .requestAccepted →
    s.has (Task.submits id) = true ∨ s.has (Task.queues id) = true ∨
      s.has (Task.fails id) = true ∨
      s.started = false ∧ s.has (Task.reconciles id) = true

/-- A custodian vanishes only with jobs that no longer wait, or that shutdown has
still to fail. -/
def Attentive (s : State) (a : Action) : Prop :=
  ∀ id ∈ s.abandoned a, ∀ j ∈ s.active.lookup id, j.delivery = .requestAccepted →
    s.has (Task.fails id) = true

instance (s : State) (a : Action) : Decidable (Attentive s a) := by
  unfold Attentive
  infer_instance

/-! ### Who holds a waiting job -/

variable {env : Env} {s s' : State} {a : Action} {id : JobId} {j : Job}

/-- A worker that has stopped has an empty channel. -/
def State.Drained (s : State) : Prop :=
  ∀ t w, s.task t = .worker w → w.pc = .stopped → w.rx = []

theorem drained_step (hd : s.Drained) (h : step env s a = some s') : s'.Drained := by
  intro u w hw hpc
  rcases step_task h u with ht | ⟨-, -, hex, rfl⟩ | ⟨hpc', -, -, hnew⟩ | ⟨-, -, -, hnew⟩ |
    ⟨-, -, -, hnew⟩ | ⟨-, -, hnew⟩ | ⟨-, -, hnew⟩ | ⟨-, -, hnew⟩ | ⟨-, hnew⟩
  · rw [hw] at ht
    generalize hold : s.task u = old at ht
    cases ht with
    | same => exact hd u w hold hpc
    | workerSpawned => rfl
    | appended w' item hopen => exact absurd hpc hopen
  · rw [task_setTask_self] at hw
    subst hw
    obtain ⟨w₀, hw₀, -⟩ := kind_eq_worker.mp (code_kind (exec_continues hex)).symm
    rw [hw₀] at hex
    obtain ⟨w', hw', -, hturn⟩ := worker_turns (exec_continues hex)
    obtain rfl := Task.worker.inj hw'
    cases hturn with
    | same hrx hne => exact absurd hpc hne
    | take item hrx hpc' hclaim =>
      rw [hclaim] at hpc
      cases hpc
    | stop hpc' hrx' => exact hrx'
  · rw [hw] at hnew
    obtain rfl := Task.worker.inj hnew
    rcases hpc' with rfl | rfl <;> cases hpc
  all_goals
    rw [hw] at hnew
    cases hnew

/-- A custodian of a waiting job is one of the tasks that settle it. -/
theorem settler_of_custody (hw : Wf s) (hd : s.Drained) {σ : Stage}
    (hc : (ledger s).custody id = some σ) (hj : s.active.lookup id = some j)
    (hra : j.delivery = .requestAccepted) :
    s.has (Task.submits id) = true ∨ s.has (Task.queues id) = true ∨
      s.started = false ∧ s.has (Task.reconciles id) = true := by
  have hallows : σ.allows j := (hw.inv.fits id σ hc).allows j hj
  obtain ⟨t, hmem⟩ := exists_of_custodyOf hc
  have hmem' : (id, σ) ∈ (s.task t).holds := hmem
  -- the holder is a call, a worker or the start routine: a monitor holds spooled jobs only
  cases htask : s.task t with
  | submit who request pc =>
    refine Or.inl ((has_iff rfl).mpr ⟨t, ?_⟩)
    rw [htask] at hmem' ⊢
    exact List.contains_iff_mem.mpr (mem_keys_of_mem hmem')
  | worker w =>
    refine Or.inr (Or.inl ((has_iff rfl).mpr ⟨t, ?_⟩))
    have hdrained := hd t w htask
    rw [htask] at hmem' ⊢
    obtain ⟨printer, rx, pc⟩ := w
    rcases Worker.mem_holds hmem' with hcur | ⟨-, item, hitem, hid⟩
    · -- only a job that was just received still waits
      cases pc with
      | claim item =>
        obtain ⟨rfl, -⟩ := Prod.mk.inj (List.cons.inj hcur).1
        simp [Task.queues]
      | idle | polling | stopping | discard | stopped => cases hcur
      | late call =>
        obtain ⟨-, rfl⟩ := Prod.mk.inj (List.cons.inj hcur).1
        exact absurd hallows not_false
      | lookup item | failing item e | calling call =>
        obtain ⟨-, rfl⟩ := Prod.mk.inj (List.cons.inj hcur).1
        rw [hallows.2] at hra
        cases hra
      | watch id' printer' sid =>
        obtain ⟨-, rfl⟩ := Prod.mk.inj (List.cons.inj hcur).1
        rw [hallows.1] at hra
        cases hra
    · have hopen : pc ≠ .stopped := fun hpc => by
        obtain rfl : rx = [] := hdrained hpc
        cases hitem
      have hany : rx.any (·.jobId == id) = true :=
        List.any_eq_true.mpr ⟨item, hitem, beq_iff_eq.mpr hid⟩
      simp [Task.queues, hopen, hany]
  | monitor m =>
    rw [htask] at hmem'
    obtain ⟨-, -, rfl⟩ := Monitor.mem_holds hmem'
    rw [hallows.1] at hra
    cases hra
  | start pc =>
    refine Or.inr (Or.inr ?_)
    obtain rfl := hw.booted.only t pc htask
    have hsettle : (Task.start pc).reconciles id = true ∧ pc ≠ .done := by
      rw [htask] at hmem'
      cases pc with
      | reconcile jobs =>
        obtain ⟨job, -, hjob⟩ := List.mem_map.mp hmem'
        obtain ⟨-, rfl⟩ := Prod.mk.inj hjob
        exact absurd hallows not_false
      | locate job rest | settle job printer rest =>
        rcases List.mem_cons.mp hmem' with hhead | hrest
        · obtain ⟨rfl, -⟩ := Prod.mk.inj hhead
          exact ⟨beq_self_eq_true job.jobId, by simp⟩
        · obtain ⟨job', -, hjob⟩ := List.mem_map.mp hrest
          obtain ⟨-, rfl⟩ := Prod.mk.inj hjob
          exact absurd hallows not_false
      | refresh | load | failed | done => cases hmem'
    refine ⟨?_, (has_iff rfl).mpr ⟨startTask, by rw [htask]; exact hsettle.1⟩⟩
    rw [Bool.eq_false_iff, Ne, started_eq_true, htask]
    exact fun he => hsettle.2 (Task.start.inj he)
  | none | cancel | shutdown =>
    rw [htask] at hmem'
    cases hmem'

/-! ### What becomes of a waiting job -/

/-- A job that a change leaves active is the changed record, and open. -/
theorem Ledger.of_active_change {l : Ledger} {o : Origin} {r : Reading} {ch : Change} {k : Job}
    (h : (l.change o r id ch k).active id = some j) :
    (ch.mutated r.now r.stamp k).job.status.isTerminal = false ∧
      (ch.mutated r.now r.stamp k).job = j := by
  rw [active_change_self] at h
  split at h
  · cases h
  · next hopen => exact ⟨by simpa using hopen, Option.some_inj.mp h⟩

/-- A job waits after a move only if it waited before; it loses its custodian only
where the custodian vanishes. -/
theorem Ledger.waiting_step {l l' : Ledger} {mv : Move} (hinv : l.Inv) (hs : l.Step mv l')
    (hj : l'.active id = some j) (hra : j.delivery = .requestAccepted)
    (hc : l'.custody id = none) :
    ∃ k, l.active id = some k ∧ k.delivery = .requestAccepted ∧
      (l.custody id = none ∨ ∃ ids, mv = .orphan ids ∧ id ∈ ids) := by
  -- a job that is in no hands after a step that hands it on was in none before
  have hhand : ∀ {id' : JobId} {σ : Option Stage},
      Function.update l.custody id' σ id = none → (id = id' → σ ≠ none) → l.custody id = none := by
    intro id' σ hc hne
    by_cases hid : id = id'
    · subst hid
      rw [Function.update_self] at hc
      exact absurd hc (hne rfl)
    · rwa [Function.update_of_ne hid] at hc
  cases hs with
  | quiet => exact ⟨j, hj, hra, Or.inl hc⟩
  | note he => exact ⟨j, hj, hra, Or.inl hc⟩
  | purge cutoff => exact ⟨j, hj, hra, Or.inl hc⟩
  | draw hl hid hfresh => exact ⟨j, hj, hra, Or.inl (hhand hc fun _ => by simp)⟩
  | store hc' => exact ⟨j, hj, hra, Or.inl (hhand hc fun _ => by simp)⟩
  | relabel hc' => exact ⟨j, hj, hra, Or.inl (hhand hc fun _ => by simp)⟩
  | invokeCalling printer hc' => exact ⟨j, hj, hra, Or.inl (hhand hc fun _ => by simp)⟩
  | invokeExpired printer hc' => exact ⟨j, hj, hra, Or.inl (hhand hc fun _ => by simp)⟩
  | @forget id' σ hc' hσ hne =>
    refine ⟨j, hj, hra, Or.inl (hhand hc fun hid => ?_)⟩
    subst hid
    exact absurd hra (hne j hj)
  | orphan ids hσ =>
    refine ⟨j, hj, hra, ?_⟩
    by_cases hid : id ∈ ids
    · exact Or.inr ⟨ids, rfl, hid⟩
    · have hc' : (if id ∈ ids then none else l.custody id) = none := hc
      rw [if_neg hid] at hc'
      exact Or.inl hc'
  | @announce job hc' | @reopen job hc' =>
    -- the job that becomes active is in somebody's hands
    have hid : id ≠ job.jobId := by
      rintro rfl
      have hc'' : Function.update l.custody job.jobId _ job.jobId = none := hc
      rw [Function.update_self] at hc''
      cases hc''
    have hj' : Function.update l.active job.jobId (some job) id = some j := hj
    rw [Function.update_of_ne hid] at hj'
    exact ⟨j, hj', hra, Or.inl (hhand hc fun he => absurd he hid)⟩
  | @own id' σ σ' ch k r hc' hh hk =>
    by_cases hid : id = id'
    · subst hid
      have hc'' : Function.update l.custody id σ' id = none := hc
      -- its holder let go of it, and closed it or moved its delivery on in so doing
      obtain rfl : σ' = none := by rwa [Function.update_self] at hc''
      rw [active_hand] at hj
      obtain ⟨hopen', rfl⟩ := of_active_change hj
      exact absurd hra (hh.delivery_of_none ((hinv.fits id σ hc').allows k hk)
        (hinv.active id k hk).2 hopen')
    · rw [active_hand, active_change_of_ne hid] at hj
      exact ⟨j, hj, hra, Or.inl (hhand hc fun he => absurd he hid)⟩
  | @foreign o id' ch k r hf hk =>
    by_cases hid : id = id'
    · subst hid
      obtain ⟨-, rfl⟩ := of_active_change hj
      exact ⟨k, hk, hf.delivery.symm.trans hra, Or.inl hc⟩
    · rw [active_change_of_ne hid] at hj
      exact ⟨j, hj, hra, Or.inl hc⟩
  | load hl hc' ha =>
    have hj' : l.active id = some j := hj
    rw [ha id] at hj'
    cases hj'
  | crash => cases hj

/-- Shutdown fails a waiting job, or has it still to fail. -/
theorem fails_step (hw : Wf s) (h : step env s a = some s') (hj : s'.active.lookup id = some j)
    (hra : j.delivery = .requestAccepted) (hf : s.has (Task.fails id) = true) :
    s'.has (Task.fails id) = true := by
  obtain ⟨t, ht⟩ := (has_iff rfl).mp hf
  refine (has_iff rfl).mpr ⟨t, ?_⟩
  obtain ⟨pc, htask⟩ : ∃ pc, s.task t = .shutdown pc := by
    cases hk : s.task t with
    | shutdown pc => exact ⟨pc, rfl⟩
    | _ =>
      rw [hk] at ht
      cases ht
  rcases step_task h t with htouch | @⟨inp, s₁, k, rfl, hp, hex, rfl⟩ | ⟨-, -, hold, -⟩ |
    ⟨-, -, hold, -⟩ | ⟨-, -, hold, -⟩ | ⟨-, hold, -⟩ | ⟨-, hold, -⟩ | ⟨-, hold, -⟩ | ⟨rfl, -⟩
  · rw [htask] at htouch ht
    generalize s'.task t = new at htouch
    cases htouch
    exact ht
  · rw [task_setTask_self]
    rw [htask] at hex ht
    have hj' : s₁.active.lookup id = some j := hj
    cases pc with
    | cancel | done => cases ht
    | snapshot =>
      obtain ⟨rfl, rfl⟩ := Prod.mk.inj (Option.some_inj.mp hex)
      refine List.contains_iff_mem.mpr (List.mem_map.mpr ⟨j, ?_, (hw.inv.activeId id j hj').1⟩)
      exact List.mem_filter.mpr ⟨FinMap.mem_values.mpr ⟨id, hj'⟩, by simpa using hra⟩
    | failing todo =>
      have hmem : id ∈ todo := List.contains_iff_mem.mp ht
      cases todo with
      | nil => cases hmem
      | cons first rest =>
        simp only [code, shutdownCode] at hex
        split at hex
        · next target htarget =>
          obtain ⟨rfl, rfl⟩ := Prod.mk.inj (Option.some_inj.mp hex)
          -- the record that is failed is closed, and this one is still open
          have hne : id ≠ target := by
            rintro rfl
            have hnone : (s.mutate t (Task.origin (.shutdown (.failing (first :: rest)))) inp id
                (.fail shutdownError)).1.active.lookup id = none :=
              lookup_mutate_of_closes hw fun k hk => by rw [Change.fail_status hk]; rfl
            cases hnone.symm.trans hj'
          obtain ⟨i, hi⟩ := List.mem_iff_getElem?.mp hmem
          refine List.contains_iff_mem.mpr (List.mem_eraseIdx_iff_getElem?.mpr ⟨i, ?_, hi⟩)
          rintro rfl
          exact hne (Option.some_inj.mp (hi.symm.trans htarget))
        · cases hex
  · rw [htask] at hold
    cases hold
  · rw [htask] at hold
    cases hold
  · rw [htask] at hold
    cases hold
  · rw [htask] at hold
    cases hold
  · rw [htask] at hold
    cases hold
  · obtain ⟨who, request, pc', hsub⟩ := submit_of_awaits hold
    rw [htask] at hsub
    cases hsub
  · obtain rfl := Option.some_inj.mp h
    cases hj

/-! ### Runs of the engine -/

/-- Every waiting job has a custodian, or shutdown has still to fail it. -/
def State.Attended (s : State) : Prop :=
  ∀ id j, s.active.lookup id = some j → j.delivery = .requestAccepted →
    (ledger s).custody id ≠ none ∨ s.has (Task.fails id) = true

theorem attended_step (hw : Wf s) (hatt : s.Attended) (hok : Attentive s a)
    (h : step env s a = some s') : s'.Attended := by
  intro id j hj hra
  refine or_iff_not_imp_left.mpr fun hc => fails_step hw h hj hra ?_
  obtain ⟨mv, hof, -, hmove⟩ := step_refines hw h
  obtain ⟨k, hk, hkra, hnone | ⟨ids, rfl, hid⟩⟩ :=
    Ledger.waiting_step hw.inv hmove hj hra (not_not.mp hc)
  · exact (hatt id k hk hkra).resolve_left fun hne => hne hnone
  · obtain ⟨-, rfl⟩ := hof
    exact hok id hid k hk hkra

/-- **No attentive run orphans a job.** -/
theorem no_orphans (h : Reach (step env) Attentive init s) : s.NoOrphans := by
  have hinv : s.Drained ∧ s.Attended := h.invariant (I := fun s => s.Drained ∧ s.Attended)
    ⟨fun t w hw _ => (by cases hw), fun id j hj _ => (by cases hj)⟩
    fun s a s' hr ⟨hd, hatt⟩ hok hs =>
      ⟨drained_step hd hs, attended_step (wf_of_reach hr) hatt hok hs⟩
  have hw := wf_of_reach h
  intro id j hj hra
  rcases hinv.2 id j hj hra with hc | hf
  · obtain ⟨σ, hσ⟩ := Option.ne_none_iff_exists'.mp hc
    rcases settler_of_custody hw hinv.1 hσ hj hra with hsub | hq | hrec
    · exact Or.inl hsub
    · exact Or.inr (Or.inl hq)
    · exact Or.inr (Or.inr (Or.inr hrec))
  · exact Or.inr (Or.inr (Or.inl hf))

/-- A client leaves while its document is rendered, and its job was cancelled;
another job waits in a channel whose worker stops after shutdown's snapshot. -/
def leavingQuietly : List Action :=
  booting ++ [.submit 4 clerk (receipt none) 0] ++ List.replicate 11 (.run 4 {}) ++
    [.cancel 5 0, .run 5 {}, .run 5 {}, .drop 4] ++ submitting 1 2 ++ [.shutdown 3, .run 3 {},
    .run 3 {}, .run 2 {}, .run 2 {}]

theorem no_orphans_quietly :
    (after leavingQuietly).has (Task.submits 1) = true ∨
      (after leavingQuietly).has (Task.queues 1) = true ∨
      (after leavingQuietly).has (Task.fails 1) = true ∨
      (after leavingQuietly).started = false ∧
        (after leavingQuietly).has (Task.reconciles 1) = true :=
  no_orphans (reach_after Attentive leavingQuietly (by decide +kernel)) 1
    (((after leavingQuietly).active.lookup 1).get (by decide +kernel)) (Option.some_get _).symm
    (by decide +kernel)

/-! ### Where it goes wrong -/

/-- The client of a submit call leaves while its document is rendered. -/
def clientLeaves : List Action :=
  booting ++ [.submit 4 clerk (receipt none) 0] ++ List.replicate 11 (.run 4 {}) ++ [.drop 4]

/-- A job enters the channel of a worker after shutdown took its snapshot, and then
the worker stops. -/
def workerLeaves : List Action :=
  booting ++ submitting 1 2 ++ [.shutdown 3] ++ List.replicate 4 (.run 3 {}) ++
    [.submit 4 clerk (receipt none) 0] ++ List.replicate 18 (.run 4 {}) ++ [.run 2 {}, .run 2 {}]

/-- **Jobs are orphaned**: by a submit call that is dropped, and by a worker that
stops with an item in its channel. -/
theorem orphaned :
    (Reach (step desk) (fun _ _ => True) init (after clientLeaves) ∧
      ¬ (after clientLeaves).NoOrphans) ∧
    Reach (step desk) (fun _ _ => True) init (after workerLeaves) ∧
      ¬ (after workerLeaves).NoOrphans := by
  refine ⟨⟨reach_after _ _ (by decide +kernel), fun h => ?_⟩,
    reach_after _ _ (by decide +kernel), fun h => ?_⟩
  · have hj := h 0 (((after clientLeaves).active.lookup 0).get (by decide +kernel))
      (Option.some_get _).symm (by decide +kernel)
    exact absurd hj (by decide +kernel)
  · have hj := h 1 (((after workerLeaves).active.lookup 1).get (by decide +kernel))
      (Option.some_get _).symm (by decide +kernel)
    exact absurd hj (by decide +kernel)

end KilnPrint
