/-
Refused submissions: what a submit call knows about its job.

* `Task.job` — the job of a submit call whose record is stored;
* `code_job`, `code_refusal` — where a call gets its job, and where it returns an
  error about it;
* `Ledger.Unfailed` — an open job was not failed before;
* `Ledger.Settled`, `Settled.step` — **a job that is closed and that nobody holds
  stays as it is**.
-/
import KilnPrint.Engine.Events
import KilnPrint.Engine.Coherence
import KilnPrint.Engine.Accounting

namespace KilnPrint

open Custody Runs

variable {env : Env} {s s₁ s' : State} {t u : TaskId} {inp : Input} {a : Action} {k : Task}
  {id : JobId}

/-! ### The job of a call -/

/-- The job of a submit call, from when its record is stored until an error about it
is returned. -/
def SubmitPc.job : SubmitPc → Option JobId
  | activate job => some job.jobId
  | leave id | validate id | check id | resolve id _ | refreshing id | assign id _ | route id _
  | inspecting id _ | render id _ _ _ | rendering id _ _ _ | name id _ _ _ _ => some id
  | reserve p | queue p | sender p _ | send p _ _ => some p.jobId
  | stored id _ | settle id _ | release id _ (.error _) => some id
  | _ => none

def Task.job : Task → Option JobId
  | submit _ _ pc => pc.job
  | _ => Option.none

theorem submit_of_job {task : Task} {id : JobId} (h : task.job = some id) :
    ∃ who request pc, task = .submit who request pc := by
  cases task with
  | submit who request pc => exact ⟨who, request, pc, rfl⟩
  | _ => cases h

/-- The call holds its job. -/
theorem holds_of_job {task : Task} {id : JobId} (h : task.job = some id) :
    ∃ σ, (id, σ) ∈ task.holds := by
  obtain ⟨who, request, pc, rfl⟩ := submit_of_job h
  cases pc with
  | release id' bytes result =>
    cases result with
    | ok job => cases h
    | error e =>
      obtain rfl := Option.some.inj h
      exact ⟨_, List.mem_singleton.mpr rfl⟩
  | enter | lookup | existing | insert | «exit» | done => cases h
  | _ =>
    obtain rfl := Option.some.inj h
    exact ⟨_, List.mem_singleton.mpr rfl⟩

theorem job_of_judging {pc : SubmitPc} (h : pc.judging = some id) : pc.job = some id := by
  cases pc <;> first | exact h | cases h

/-- **A call gets its job where it stores the record.** -/
theorem code_job {task : Task} {id : JobId} (h : (code env inp task).Continues k)
    (hk : k.job = some id) : task.job = some id ∨
      ∃ who request job, task = .submit who request (.insert job) ∧
        k = .submit who request (.activate job) := by
  obtain ⟨who', request', pc', rfl⟩ := submit_of_job hk
  have hkind := code_kind h
  cases task with
  | submit who request pc =>
    obtain ⟨pc'', hpc, hflow⟩ := submit_flow h
    obtain ⟨rfl, rfl, rfl⟩ := Task.submit.inj hpc
    cases hflow with
    | inserted job =>
      right
      exact ⟨_, _, job, rfl, rfl⟩
    | prepared id printer warnings language payload p hp =>
      left
      exact hp ▸ hk
    | refused hjudging e =>
      left
      obtain rfl := Option.some.inj hk
      exact job_of_judging hjudging
    | read id bytes result =>
      left
      cases result with
      | ok job => cases hk
      | error e => exact hk
    | _ => first | exact .inl hk | cases hk
  | _ => cases hkind

/-- The job a submit call is about; one that returned is about `known`. -/
def Task.recall (known : Option JobId) : Task → Option JobId
  | submit _ _ (.done _) => known
  | submit _ _ pc => pc.job
  | _ => Option.none

theorem recall_of_job {task : Task} (known : Option JobId) (h : task.job = some id) :
    task.recall known = some id := by
  obtain ⟨who, request, pc, rfl⟩ := submit_of_job h
  cases pc <;> first | exact h | cases h

/-- What is remembered of a call is of its present, or it has returned. -/
theorem job_of_recall {task : Task} {known : Option JobId} (h : task.recall known = some id) :
    task.job = some id ∨
      (∃ who request result, task = .submit who request (.done result)) ∧ known = some id := by
  cases task with
  | submit who request pc =>
    cases pc with
    | done result => exact .inr ⟨⟨who, request, result, rfl⟩, h⟩
    | _ => exact .inl h
  | _ => cases h

/-- A call gets a job by storing its record. -/
theorem recall_before {known : Option JobId} (h : step env s a = some s')
    (hid : (s'.task t).recall ((s.task t).recall known) = some id) :
    (s.task t).recall known = some id ∨ ∃ inp who request job, a = .run t inp ∧
      s.task t = .submit who request (.insert job) ∧
      s'.task t = .submit who request (.activate job) ∧ job.jobId = id := by
  rcases job_of_recall hid with hjob | ⟨-, hknown⟩
  · obtain ⟨who, request, pc, hpc⟩ := submit_of_job hjob
    cases step_submit h hpc with
    | same hold =>
      rw [hpc, ← hold] at hjob
      exact .inl (recall_of_job known hjob)
    | new ha hold hnew =>
      rw [hpc] at hjob
      rcases hnew with rfl | ⟨e, rfl⟩ <;> cases hjob
    | @ran inp s₁ ha hp hex hs =>
      rw [hpc] at hjob
      rcases code_job (exec_continues hex) hjob with hold | ⟨who', request', job, hold, hnew⟩
      · exact .inl (recall_of_job known hold)
      · right
        obtain ⟨rfl, rfl, rfl⟩ := Task.submit.inj hnew
        exact ⟨inp, who, request, job, ha, hold, hpc, Option.some.inj hjob⟩
  · exact .inl hknown

/-- **A call returns an error about its job where it records it.** -/
theorem code_refusal {task : Task} {who : Submitter} {request : PrintRequest} {e : PrintError}
    (h : (code env inp task).Continues (.submit who request (.done (.error e)))) :
    task = .submit who request (.exit (.error e)) ∨
      ∃ id err m, task = .submit who request (.settle id err) ∧ e = failure id err m := by
  have hkind := code_kind h
  cases task with
  | submit who' request' pc =>
    obtain ⟨pc', hpc, hflow⟩ := submit_flow h
    obtain ⟨rfl, rfl, rfl⟩ := Task.submit.inj hpc
    cases hflow with
    | exited => exact .inl rfl
    | settled id err m => exact .inr ⟨id, err, m, rfl, rfl⟩
  | _ => cases hkind

/-- A call settles a refusal at the points that judge, or once it has dropped its
reservation. -/
theorem code_settle {task : Task} {who : Submitter} {request : PrintRequest} {e : PrintError}
    (h : (code env inp task).Continues (.submit who request (.settle id e))) :
    (∃ pc, task = .submit who request pc ∧ pc.judging = some id) ∨
      ∃ bytes, task = .submit who request (.release id bytes (.error e)) := by
  have hkind := code_kind h
  cases task with
  | submit who' request' pc =>
    obtain ⟨pc', hpc, hflow⟩ := submit_flow h
    obtain ⟨rfl, rfl, rfl⟩ := Task.submit.inj hpc
    cases hflow with
    | returned id bytes e => exact .inr ⟨bytes, rfl⟩
    | refused hjudging => exact .inl ⟨pc, rfl, hjudging⟩
  | _ => cases hkind

/-! ### Failures -/

def EngineEvent.fails (id : JobId) (ev : EngineEvent) : Bool :=
  ev.kind == .failed && ev.job.jobId == id

/-- How many of some events say that the job failed. -/
def failures (id : JobId) (events : List EngineEvent) : ℕ := events.countP (EngineEvent.fails id)

/-- Whether an entry raised an event that says the job failed. -/
def Entry.fails (id : JobId) (e : Entry) : Bool := e.event.any (EngineEvent.fails id)

theorem failures_filterMap (id : JobId) (log : List Entry) :
    failures id (log.filterMap Entry.event) = log.countP (Entry.fails id) := by
  induction log with
  | nil => rfl
  | cons e rest ih =>
    unfold failures at ih ⊢
    rw [List.countP_cons, ← ih]
    cases hev : e.event with
    | none =>
      rw [List.filterMap_cons_none hev]
      simp [Entry.fails, hev]
    | some ev =>
      rw [List.filterMap_cons_some hev, List.countP_cons]
      simp [Entry.fails, hev]

/-- What a process raised is in the log. -/
theorem failures_raised_le (s : State) (id : JobId) :
    failures id s.raised ≤ s.log.countP (Entry.fails id) := by
  unfold State.raised
  rw [failures_filterMap]
  exact (sublist_sinceCrash s.log).countP_le

/-- A failure is reported of a record that failed. -/
theorem Change.status_of_failed {ch : Change} {now stamp : Time} {j : Job}
    (h : (ch.mutated now stamp j).event = some .failed) :
    (ch.mutated now stamp j).job.status = .failed := by
  cases ch with
  | fail error =>
    have hev : (Change.orKeep j .failed (j.fail error now)).2 = some .failed := h
    show (Change.orKeep j .failed (j.fail error now)).1.status = .failed
    cases hfail : j.fail error now with
    | none =>
      rw [hfail] at hev
      cases hev
    | some j' =>
      unfold Job.fail at hfail
      obtain ⟨j'', htransition, rfl⟩ := Option.map_eq_some_iff.mp hfail
      obtain ⟨-, rfl⟩ := Job.transition_eq_some htransition
      rfl
  | queue warnings language | complete evidence | cancelSpooled | cancelDeleted | cancelObserved
  | delivered =>
    exfalso
    unfold Change.mutated Change.apply Change.orKeep at h
    dsimp only at h
    split at h <;> cases h
  | cancelQueued =>
    exfalso
    unfold Change.mutated Change.apply Change.orKeep at h
    dsimp only at h
    repeat' split at h
    all_goals cases h
  | printing | pending | blocked =>
    exfalso
    unfold Change.mutated Change.apply at h
    dsimp only [Change.orKeep] at h
    repeat' split at h
    all_goals cases h
  | _ => cases h

namespace Ledger

variable {l l' : Ledger} {mv : Move} {id id' : JobId}

/-- An open job was not failed before. -/
structure Unfailed (l : Ledger) : Prop where
  pending : ∀ id j, l.stored id = some j → j.status.isTerminal = false →
    l.log.countP (Entry.fails id) = 0
  drafted : ∀ id job, l.custody id = some (.draft job) → l.log.countP (Entry.fails id) = 0
  ahead : ∀ id, l.next ≤ id → l.log.countP (Entry.fails id) = 0

theorem Unfailed.empty : (empty : Ledger).Unfailed where
  pending _ _ h := (by cases h)
  drafted _ _ h := (by cases h)
  ahead _ _ := rfl

/-- What a mutation adds to the failures. -/
theorem fails_change {o : Origin} {r : Reading} {ch : Change} {j : Job} (hid : j.jobId = id)
    (id' : JobId) :
    (l.change o r id ch j).log.countP (Entry.fails id') = l.log.countP (Entry.fails id') +
      if (ch.mutated r.now r.stamp j).event = some .failed ∧ id = id' then 1 else 0 := by
  have hjob : (ch.mutated r.now r.stamp j).job.jobId = id := Change.jobId_mutated.trans hid
  show (l.log ++ [ch.entry o r id j]).countP _ = _
  rw [List.countP_append, List.countP_singleton]
  congr 1
  cases hev : (ch.mutated r.now r.stamp j).event with
  | none => simp [Entry.fails, Change.entry, Entry.event, hev]
  | some kind => simp [Entry.fails, Change.entry, Entry.event, hev, EngineEvent.fails, hjob]

/-- A reliable mutation fails only a job that it closes. -/
theorem Unfailed.change {o : Origin} {r : Reading} {ch : Change} {j : Job} {σ' : Option Stage}
    (h : l.Unfailed) (hagree : l.Agree) (hinv : l.Inv) (hj : l.active id = some j)
    (hr : r.repoOk = true) (hσ : ∀ job, σ' ≠ some (.draft job)) :
    ((l.change o r id ch j).hand id σ').Unfailed := by
  obtain ⟨hid, hlt⟩ := hinv.activeId id j hj
  have hstored := stored_change_reliable o ch hagree hj hid hr
  have hother : ∀ id', id ≠ id' →
      ((l.change o r id ch j).hand id σ').log.countP (Entry.fails id') =
        l.log.countP (Entry.fails id') := by
    intro id' hne
    rw [log_hand, fails_change hid, if_neg fun hboth => hne hboth.2, add_zero]
  refine ⟨?_, ?_, ?_⟩
  · intro id' k hk hopen
    by_cases he : id = id'
    · subst he
      rw [stored_hand, hstored, Option.some_inj] at hk
      subst hk
      have hevent : (ch.mutated r.now r.stamp j).event ≠ some .failed := by
        intro hev
        rw [Change.status_of_failed hev] at hopen
        cases hopen
      rw [log_hand, fails_change hid, if_neg fun hboth => hevent hboth.1, add_zero]
      exact h.pending id j (hagree.synced id j hj) (hinv.active id j hj).2
    · rw [stored_hand, stored_change_of_ne hid (Ne.symm he)] at hk
      rw [hother id' he]
      exact h.pending id' k hk hopen
  · intro id' job hc
    by_cases he : id = id'
    · subst he
      rw [custody_hand, Function.update_self] at hc
      exact absurd hc (hσ job)
    · rw [custody_hand, Function.update_of_ne (Ne.symm he)] at hc
      rw [hother id' he]
      exact h.drafted id' job hc
  · intro id' hle
    have he : id ≠ id' := Nat.ne_of_lt (Nat.lt_of_lt_of_le hlt hle)
    rw [hother id' he]
    exact h.ahead id' hle

/-- Handing a job on. -/
theorem Unfailed.hand (h : l.Unfailed) (id : JobId) (σ' : Option Stage)
    (hσ : ∀ job, σ' = some (.draft job) → l.log.countP (Entry.fails id) = 0) :
    (l.hand id σ').Unfailed := by
  refine ⟨h.pending, ?_, h.ahead⟩
  intro id' job hc
  by_cases he : id' = id
  · subst he
    rw [custody_hand, Function.update_self] at hc
    exact hσ job hc
  · rw [custody_hand, Function.update_of_ne he] at hc
    exact h.drafted id' job hc

/-- An entry that reports no failure. -/
theorem fails_append {e : Entry} (h : ∀ id, e.fails id = false) (id : JobId) :
    (l.log ++ [e]).countP (Entry.fails id) = l.log.countP (Entry.fails id) := by
  rw [List.countP_append, List.countP_singleton, h id]
  rfl

theorem Unfailed.note {e : Entry} (h : l.Unfailed) (he : ∀ id, e.fails id = false) :
    (l.note e).Unfailed := by
  have hcount : ∀ id, (l.note e).log.countP (Entry.fails id) = l.log.countP (Entry.fails id) :=
    fails_append he
  refine ⟨?_, ?_, ?_⟩
  · intro id j hj hopen
    rw [hcount]
    exact h.pending id j hj hopen
  · intro id job hc
    rw [hcount]
    exact h.drafted id job hc
  · intro id hle
    rw [hcount]
    exact h.ahead id hle

/-- **Every reliable move keeps it.** -/
theorem Unfailed.step (h : l.Unfailed) (hagree : l.Agree) (hinv : l.Inv) (hs : l.Step mv l')
    (hr : mv.Reliable) : l'.Unfailed := by
  cases hs with
  | quiet => exact h
  | @note e he =>
    refine h.note fun id => ?_
    cases e <;> first | exact absurd he not_false | rfl
  | @draw job hl hid hfresh =>
    obtain ⟨h₁, h₂, -⟩ := h.hand l.next (some (.draft job)) fun _ _ =>
      h.ahead _ (Nat.le_refl _)
    exact ⟨h₁, h₂, fun id hle => h.ahead id (Nat.le_of_succ_le hle)⟩
  | forget hc hσ hj => exact h.hand _ none fun job hjob => by cases hjob
  | @store job hc =>
    obtain ⟨h₁, h₂, h₃⟩ := h.hand job.jobId (some (.stored job))
      fun job' hjob => by cases hjob
    refine ⟨?_, h₂, h₃⟩
    intro id j hj hopen
    by_cases he : id = job.jobId
    · subst he
      exact h.drafted _ _ hc
    · have hj' : Function.update l.stored job.jobId (some job) id = some j := hj
      rw [Function.update_of_ne he] at hj'
      exact h.pending id j hj' hopen
  | @announce job hc =>
    have hhand := h.hand job.jobId (some .received) fun job' hjob => by cases hjob
    obtain ⟨h₁, h₂, h₃⟩ := hhand.note (e := .created job) fun _ => rfl
    exact ⟨h₁, h₂, h₃⟩
  | relabel hc hσ hclaim hinvoked hheld hcarry hj =>
    refine h.hand _ (some _) fun job hjob => ?_
    obtain rfl := Option.some.inj hjob
    cases hcarry
  | own r hc hh hj =>
    refine h.change hagree hinv hj hr fun job hjob => ?_
    subst hjob
    have hcarry := hh.carries
    cases hcarry
  | @foreign o id ch j r hfo hj =>
    rw [← (l.change o r id ch j).hand_custody id]
    refine h.change hagree hinv hj hr fun job hjob => ?_
    exact (hinv.fits id _ hjob).allows j hj
  | invokeCalling printer hc =>
    exact (h.hand _ (some _) fun job hjob => by cases hjob).note fun _ => rfl
  | invokeExpired printer hc =>
    exact (h.hand _ (some _) fun job hjob => by cases hjob).note fun _ => rfl
  | orphan ids hσ =>
    refine ⟨h.pending, ?_, h.ahead⟩
    intro id job hc
    have hc' : l.custody id = some (.draft job) := custody_of_orphan hc
    exact h.drafted id job hc'
  | load hl hc ha =>
    refine ⟨h.pending, ?_, h.ahead⟩
    intro id job hdraft
    obtain ⟨j, -, hj⟩ := Option.map_eq_some_iff.mp hdraft
    cases hj
  | @reopen job hc =>
    obtain ⟨h₁, h₂, h₃⟩ := h.hand job.jobId (some (.loaded job))
      fun job' hjob => by cases hjob
    exact ⟨h₁, h₂, h₃⟩
  | purge cutoff =>
    exact ⟨fun id j hj => h.pending id j (stored_of_purge hj), h.drafted, h.ahead⟩
  | crash =>
    obtain ⟨h₁, -, h₃⟩ := h.note (e := .crashed) fun _ => rfl
    exact ⟨h₁, fun id job hc => (by cases hc), h₃⟩

/-! ### Settled jobs -/

/-- The job is closed, and nobody is responsible for it. -/
structure Settled (l : Ledger) (id : JobId) : Prop where
  known : id < l.next
  inactive : l.active id = none
  free : l.custody id = none
  closed : ∀ j, l.stored id = some j → j.status.isTerminal = true
  uninvoked : l.invocations id = 0

/-- What stays of a settled job. -/
structure Keeps (l l' : Ledger) (id : JobId) : Prop where
  settled : l'.Settled id
  stored : ∀ j, l'.stored id = some j → l.stored id = some j
  failures : l'.log.countP (Entry.fails id) = l.log.countP (Entry.fails id)

/-- A move that leaves the job alone. -/
theorem Settled.frame (h : l.Settled id) (es : List Entry) (hnext : l.next ≤ l'.next)
    (ha : l'.active id = none) (hc : l'.custody id = none)
    (hs : ∀ j, l'.stored id = some j → l.stored id = some j) (hlog : l'.log = l.log ++ es)
    (hes : ∀ e ∈ es, e.isInvoked id = false ∧ e.fails id = false) : l.Keeps l' id := by
  have hinvoked : es.countP (Entry.isInvoked id) = 0 :=
    List.countP_eq_zero.mpr fun e he => by simp [(hes e he).1]
  have hfails : es.countP (Entry.fails id) = 0 :=
    List.countP_eq_zero.mpr fun e he => by simp [(hes e he).2]
  refine ⟨⟨Nat.lt_of_lt_of_le h.known hnext, ha, hc, fun j hj => h.closed j (hs j hj), ?_⟩, hs, ?_⟩
  · unfold invocations
    rw [hlog, List.countP_append, hinvoked]
    exact h.uninvoked
  · rw [hlog, List.countP_append, hfails]
    rfl

/-- **A settled job stays as it is**, unless its record is purged. -/
theorem Settled.step (h : l.Settled id) (hinv : l.Inv) (hs : l.Step mv l') : l.Keeps l' id := by
  have hhand : ∀ {id' : JobId} {σ : Option Stage}, id ≠ id' →
      Function.update l.custody id' σ id = none := by
    intro id' σ hne
    rw [Function.update_of_ne hne]
    exact h.free
  -- a step that hands a job on concerns another job: this one is in no hands
  have hheld : ∀ {id' : JobId} {σ : Stage}, l.custody id' = some σ → id ≠ id' := by
    rintro id' σ hc rfl
    rw [h.free] at hc
    cases hc
  have hlog : l.log = l.log ++ [] := (List.append_nil _).symm
  have hnil : ∀ e ∈ ([] : List Entry), e.isInvoked id = false ∧ e.fails id = false :=
    fun e he => absurd he List.not_mem_nil
  have hone : ∀ {e : Entry}, e.isInvoked id = false → e.fails id = false →
      ∀ e' ∈ [e], e'.isInvoked id = false ∧ e'.fails id = false := by
    intro e h₁ h₂ e' he'
    obtain rfl := List.mem_singleton.mp he'
    exact ⟨h₁, h₂⟩
  -- and it is not active, so changes concern other jobs too
  have hchange : ∀ {o : Origin} {id' : JobId} {ch : Change} {j : Job} (r : Reading)
      (σ' : Option Stage), l.active id' = some j → (id = id' → σ' = none) →
      l.Keeps ((l.change o r id' ch j).hand id' σ') id := by
    intro o id' ch j r σ' hj hσ
    have hne : id ≠ id' := by
      rintro rfl
      rw [h.inactive] at hj
      cases hj
    obtain ⟨hid, -⟩ := hinv.activeId id' j hj
    have hjob : (ch.mutated r.now r.stamp j).job.jobId = id' := Change.jobId_mutated.trans hid
    refine h.frame [ch.entry o r id' j] (Nat.le_refl _) ?_ (hhand hne) ?_ rfl (hone rfl ?_)
    · rw [active_hand, active_change_of_ne hne]
      exact h.inactive
    · intro k hk
      rw [stored_hand, stored_change_of_ne hid hne] at hk
      exact hk
    · cases hev : (ch.mutated r.now r.stamp j).event with
      | none => simp [Entry.fails, Change.entry, Entry.event, hev]
      | some kind =>
        simp [Entry.fails, Change.entry, Entry.event, hev, EngineEvent.fails, hjob, Ne.symm hne]
  cases hs with
  | quiet => exact h.frame _ (Nat.le_refl _) h.inactive h.free (fun _ hj => hj) hlog hnil
  | @note e he =>
    refine h.frame _ (Nat.le_refl _) h.inactive h.free (fun _ hj => hj) rfl ?_
    cases e <;> first | exact absurd he not_false | exact hone rfl rfl
  | draw hl hid hfresh =>
    exact h.frame _ (Nat.le_succ _) h.inactive (hhand (Nat.ne_of_lt h.known)) (fun _ hj => hj) hlog hnil
  | forget hc hσ hj =>
    exact h.frame _ (Nat.le_refl _) h.inactive (hhand (hheld hc)) (fun _ hj => hj) hlog hnil
  | @store job hc =>
    refine h.frame _ (Nat.le_refl _) h.inactive (hhand (hheld hc)) ?_ hlog hnil
    intro j hj
    have hj' : Function.update l.stored job.jobId (some job) id = some j := hj
    rwa [Function.update_of_ne (hheld hc)] at hj'
  | @announce job hc =>
    refine h.frame _ (Nat.le_refl _) ?_ (hhand (hheld hc)) (fun _ hj => hj) rfl (hone rfl rfl)
    show Function.update l.active job.jobId (some job) id = none
    rw [Function.update_of_ne (hheld hc)]
    exact h.inactive
  | relabel hc hσ hclaim hinvoked hheld' hcarry hj =>
    exact h.frame _ (Nat.le_refl _) h.inactive (hhand (hheld hc)) (fun _ hj => hj) hlog hnil
  | own r hc hh hj =>
    refine hchange r _ hj fun he => ?_
    exact absurd he (hheld hc)
  | @foreign o id' ch j r hfo hj =>
    rw [← (l.change o r id' ch j).hand_custody id']
    refine hchange r _ hj fun he => ?_
    subst he
    exact h.free
  | @invokeCalling id' printer hc | @invokeExpired id' printer hc =>
    refine h.frame _ (Nat.le_refl _) h.inactive (hhand (hheld hc)) (fun _ hj => hj) rfl (hone ?_ rfl)
    simp [Entry.isInvoked, Ne.symm (hheld hc)]
  | orphan ids hσ =>
    refine h.frame _ (Nat.le_refl _) h.inactive ?_ (fun _ hj => hj) hlog hnil
    show (if id ∈ ids then none else l.custody id) = none
    rw [h.free]
    split <;> rfl
  | load hl hc ha =>
    refine h.frame _ (Nat.le_refl _) h.inactive ?_ (fun _ hj => hj) hlog hnil
    show (l.openRecord id).map Stage.unloaded = none
    -- its record is closed, so a load does not reopen it
    unfold openRecord
    cases hj : l.stored id with
    | none => rfl
    | some j => simp [h.closed j hj]
  | @reopen job hc =>
    refine h.frame _ (Nat.le_refl _) ?_ (hhand (hheld hc)) (fun _ hj => hj) hlog hnil
    show Function.update l.active job.jobId (some job) id = none
    rw [Function.update_of_ne (hheld hc)]
    exact h.inactive
  | purge cutoff =>
    exact h.frame _ (Nat.le_refl _) h.inactive h.free
      (fun _ => stored_of_purge) hlog hnil
  | crash => exact h.frame _ (Nat.le_refl _) rfl rfl (fun _ hj => hj) rfl (hone rfl rfl)

end Ledger

end KilnPrint
