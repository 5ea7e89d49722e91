/-
What a step does to one task.

The dual of the refinement: seen from one task, a step of the engine is one of

* a step of its own code (`ran`);
* the entry or return of its blocking call (`phase`);
* its creation by an API call or by `start`;
* its end, by a crash or by its future being dropped;
* a touch from another task, which spawns it or appends to its channel.

* `TaskStep`, `step_task` — **every step of the engine is one of these, for every
  task**.
-/
import KilnPrint.Engine.Simulation

namespace KilnPrint

variable {env : Env} {s s' : State} {a : Action}

/-- What the step `a` from `s` to `s'` is for task `u`. -/
inductive TaskStep (env : Env) (s : State) (a : Action) (s' : State) (u : TaskId) : Prop
  | touched (h : Touched (s.task u) (s'.task u))
  | ran {inp : Input} {s₁ : State} {k : Task} (ha : a = .run u inp)
      (hp : s.pendingEvent u = none)
      (hex : exec env u (s.task u).origin inp s (code env inp (s.task u)) = some (s₁, k))
      (hs : s' = s₁.setTask u k)
  | phase {call : Call} {phase : CallPhase} {printer : PrinterId} {rx : List QueuedJob}
      {pc : Call → WorkerPc} (hpc : pc = .calling ∨ pc = .late)
      (ha : a = .invoke u ∧ call.phase = .spawned ∧ phase = .running ∨
        ∃ result, a = .finish u result ∧ call.phase = .running ∧ phase = .finished result)
      (hold : s.task u = .worker ⟨printer, rx, pc call⟩)
      (hnew : s'.task u = .worker ⟨printer, rx, pc { call with phase := phase }⟩)
  | booted (ha : a = .start) (hu : u = startTask) (hold : s.task u = .none)
      (hnew : s'.task u = .start .refresh)
  | submitted {who : Submitter} {request : PrintRequest} {now : Time} {pc : SubmitPc}
      (ha : a = .submit u who request now)
      (hpc : pc = .enter (newJob s.nextJob who request now) ∨ ∃ e, pc = .done (.error e))
      (hold : s.task u = .none) (hnew : s'.task u = .submit who request pc)
  | cancelled {id : JobId} (ha : a = .cancel u id) (hold : s.task u = .none)
      (hnew : s'.task u = .cancel id .load)
  | shutdown (ha : a = .shutdown u) (hold : s.task u = .none)
      (hnew : s'.task u = .shutdown .cancel)
  | dropped (ha : a = .drop u) (hold : s.awaits u = true) (hnew : s'.task u = .none)
  | crashed (ha : a = .crash) (hnew : s'.task u = .none)

/-- The tasks a step does not concern. -/
theorem TaskStep.same {u : TaskId} (h : s'.task u = s.task u) : TaskStep env s a s' u :=
  .touched (by rw [h]; exact .same _)

/-- An API call concerns the new task only. -/
theorem spawn_task {s₁ : State} {t u : TaskId} {task : Task} (h : s₁.spawn t task = some s') :
    s₁.task t = .none ∧ s'.task u = if u = t then task else s₁.task u := by
  obtain ⟨-, hnone, rfl⟩ := spawn_eq_some h
  exact ⟨hnone, task_insert ..⟩

/-- **Every step, seen from one task.** -/
theorem step_task (h : step env s a = some s') (u : TaskId) : TaskStep env s a s' u := by
  cases a with
  | start =>
    obtain ⟨hempty, rfl⟩ := Runs.of_guarded h
    have hnone : s.task u = .none := by
      have hent : s.tasks.entries = [] := by simpa using hempty
      rw [State.task, AList.lookup, hent]
      rfl
    by_cases hu : u = startTask
    · exact .booted rfl hu hnone (by rw [hu, task_setTask_self])
    · exact .same (task_setTask_of_ne _ _ hu)
  | submit t who request now =>
    have h' : beginSubmit s t who request now = some s' := h
    unfold beginSubmit at h'
    split at h' <;> obtain ⟨hnone, htask⟩ := spawn_task (u := u) h' <;> by_cases hu : u = t
    · subst hu
      rw [if_pos rfl] at htask
      exact .submitted rfl (Or.inr ⟨_, rfl⟩) hnone htask
    · rw [if_neg hu] at htask
      exact .same htask
    · subst hu
      rw [if_pos rfl] at htask
      exact .submitted rfl (Or.inl rfl) hnone htask
    · rw [if_neg hu] at htask
      exact .same htask
  | cancel t id =>
    obtain ⟨hnone, htask⟩ := spawn_task (u := u) h
    by_cases hu : u = t
    · subst hu
      rw [if_pos rfl] at htask
      exact .cancelled rfl hnone htask
    · rw [if_neg hu] at htask
      exact .same htask
  | shutdown t =>
    obtain ⟨hnone, htask⟩ := spawn_task (u := u) h
    by_cases hu : u = t
    · subst hu
      rw [if_pos rfl] at htask
      exact .shutdown rfl hnone htask
    · rw [if_neg hu] at htask
      exact .same htask
  | run t inp =>
    rcases runTask_eq h with ⟨e, rfl⟩ | ⟨hp, s₁, k, hex, rfl⟩
    · exact .same rfl
    · by_cases hu : u = t
      · subst hu
        exact .ran rfl hp hex rfl
      · exact .touched (by rw [task_setTask_of_ne _ _ hu]; exact exec_tasks hex u)
  | invoke t =>
    obtain ⟨call, hcall, h⟩ := Option.bind_eq_some_iff.mp h
    obtain ⟨printer, rx, pc, hpc, htask, hphase⟩ := call_eq_some hcall
    obtain ⟨hspawned, rfl⟩ := Runs.of_guarded h
    rw [hphase]
    by_cases hu : u = t
    · subst hu
      exact .phase hpc (Or.inl ⟨rfl, hspawned, rfl⟩) htask (task_setTask_self ..)
    · exact .same (task_setTask_of_ne _ _ hu)
  | finish t result =>
    obtain ⟨call, hcall, h⟩ := Option.bind_eq_some_iff.mp h
    obtain ⟨printer, rx, pc, hpc, htask, hphase⟩ := call_eq_some hcall
    obtain ⟨hrunning, rfl⟩ := Runs.of_guarded h
    rw [hphase]
    by_cases hu : u = t
    · subst hu
      exact .phase hpc (Or.inr ⟨result, rfl, hrunning, rfl⟩) htask (task_setTask_self ..)
    · exact .same (task_setTask_of_ne s _ hu)
  | drop t =>
    obtain ⟨hawaits, rfl⟩ := Runs.of_guarded h
    by_cases hu : u = t
    · subst hu
      exact .dropped rfl hawaits (by rw [task_erase, if_pos rfl])
    · exact .same (by rw [task_erase, if_neg hu])
  | discover printers | purge cutoff | retire id =>
    obtain ⟨-, rfl⟩ := Runs.of_guarded h
    exact .same rfl
  | crash =>
    obtain rfl := Option.some_inj.mp h
    exact .crashed rfl rfl

/-- A submit call was as it is, is new, or has just proceeded. -/
inductive SubmitStep (env : Env) (s : State) (a : Action) (s' : State) (u : TaskId)
    (who : Submitter) (request : PrintRequest) (pc : SubmitPc) : Prop
  | same (hold : s.task u = .submit who request pc)
  | new {now : Time} (ha : a = .submit u who request now) (hold : s.task u = .none)
      (hpc : pc = .enter (newJob s.nextJob who request now) ∨ ∃ e, pc = .done (.error e))
  | ran {inp : Input} {s₁ : State} (ha : a = .run u inp) (hp : s.pendingEvent u = none)
      (hex : exec env u (s.task u).origin inp s (code env inp (s.task u)) =
        some (s₁, .submit who request pc))
      (hs : s' = s₁.setTask u (.submit who request pc))

/-- **Every step, seen from a submit call.** -/
theorem step_submit (h : step env s a = some s') {u : TaskId} {who : Submitter}
    {request : PrintRequest} {pc : SubmitPc} (hu : s'.task u = .submit who request pc) :
    SubmitStep env s a s' u who request pc := by
  cases step_task h u with
  | touched htouch =>
    refine .same ?_
    generalize s.task u = k at htouch ⊢
    generalize s'.task u = k' at htouch hu
    cases htouch <;> first | exact hu | cases hu
  | @ran inp s₁ k ha hp hex hs =>
    obtain rfl : k = .submit who request pc := by rw [← hu, hs, task_setTask_self]
    exact .ran ha hp hex hs
  | submitted ha hpc hold hnew =>
    rw [hnew] at hu
    obtain ⟨rfl, rfl, rfl⟩ := Task.submit.inj hu
    exact .new ha hold hpc
  | phase hpc ha hold hnew | booted ha hu' hold hnew | cancelled ha hold hnew
  | shutdown ha hold hnew | dropped ha hold hnew | crashed ha hnew =>
    rw [hnew] at hu
    cases hu

/-! ### The shared state -/

/-- What only tasks and crashes change. -/
structure SameShared (s s' : State) : Prop where
  gate : s'.gate = s.gate
  cancelling : s'.cancelling = s.cancelling
  senders : s'.senders = s.senders
  shutdown : s'.shutdown = s.shutdown
  active : s'.active = s.active
  outbox : s'.outbox = s.outbox
  events : s'.events = s.events

theorem SameShared.spawn {s₁ : State} {t : TaskId} {task : Task} (h : s₁.spawn t task = some s') :
    SameShared s₁ s' := by
  obtain ⟨-, -, rfl⟩ := spawn_eq_some h
  exact ⟨rfl, rfl, rfl, rfl, rfl, rfl, rfl⟩

theorem SameShared.setPhase (t : TaskId) (phase : CallPhase) : SameShared s (s.setPhase t phase) := by
  unfold State.setPhase
  repeat' split
  all_goals exact ⟨rfl, rfl, rfl, rfl, rfl, rfl, rfl⟩

/-- **Only tasks and crashes change the shared state**, apart from the log, the
repository and the spooler. -/
theorem step_shared (h : step env s a = some s') :
    (∃ t inp, a = .run t inp) ∨ a = .crash ∨ (∀ t inp, a ≠ .run t inp) ∧ SameShared s s' := by
  cases a with
  | run t inp => exact Or.inl ⟨t, inp, rfl⟩
  | crash => exact Or.inr (Or.inl rfl)
  | start | drop t | discover printers | purge cutoff | retire id =>
    obtain ⟨-, rfl⟩ := Runs.of_guarded h
    exact Or.inr (Or.inr ⟨fun _ _ he => (by cases he), rfl, rfl, rfl, rfl, rfl, rfl, rfl⟩)
  | submit t who request now =>
    have h' : beginSubmit s t who request now = some s' := h
    unfold beginSubmit at h'
    split at h'
    · exact Or.inr (Or.inr ⟨fun _ _ he => (by cases he), .spawn h'⟩)
    · obtain ⟨h₁, h₂, h₃, h₄, h₅, h₆, h₇⟩ := SameShared.spawn h'
      exact Or.inr (Or.inr ⟨fun _ _ he => (by cases he), h₁, h₂, h₃, h₄, h₅, h₆, h₇⟩)
  | cancel t id | shutdown t => exact Or.inr (Or.inr ⟨fun _ _ he => (by cases he), .spawn h⟩)
  | invoke t | finish t result =>
    obtain ⟨call, hcall, h⟩ := Option.bind_eq_some_iff.mp h
    obtain ⟨-, rfl⟩ := Runs.of_guarded h
    obtain ⟨h₁, h₂, h₃, h₄, h₅, h₆, h₇⟩ := SameShared.setPhase (s := s) t _
    exact Or.inr (Or.inr ⟨fun _ _ he => (by cases he), h₁, h₂, h₃, h₄, h₅, h₆, h₇⟩)

end KilnPrint
