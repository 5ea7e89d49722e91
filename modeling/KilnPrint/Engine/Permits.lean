/-
The engine's semaphores and the refresh lock.

* `Resource`, `Concurrency.capacity` — what only so many calls may have at a time;
* `Task.awaited`, `Task.keeps` — what a task takes before it goes on from its point, and what it has
  until it does;
* `PermitState`, `permitStep` — the engine with what its tasks have: a task whose step is a blocking
  call, or a refresh, waits until it has what that takes;
* `PermitState.Sound`, `sound_of_reach` — no more is given out than there is, and only to tasks at a
  call that takes it;
* `load_step` — **no step of another task raises what remains of a call**, the permits it has still
  to take included;
* `holder_goes_on` — **permits are never in a deadlock**: whoever has one can go on;
* `calls_end` — **a call takes at most 49 steps; while it waits, it waits for the submit gate or for
  what others have; and if that is free, steps of the call and of the gate's holder end it**.

Every step of the engine in such a run is one of `step` (`engine_reach`), so what holds of all runs
of the engine holds of these.
-/
import KilnPrint.Engine.Progress
import KilnPrint.Lib.Progress

namespace KilnPrint

open Runs

/-! ### What calls take -/

/-- What only so many may have at a time. -/
inductive Resource
  | providerPermit
  | monitorPermit
  | renderPermit
  | refreshLock
  deriving DecidableEq, Repr

/-- The part of `EngineConfig` that bounds blocking calls. -/
structure Concurrency where
  providerConcurrency : ℕ := 4
  monitorConcurrency : ℕ := 4
  renderConcurrency : ℕ := 2

def Concurrency.capacity (c : Concurrency) : Resource → ℕ
  | .providerPermit => max c.providerConcurrency 1
  | .monitorPermit => max c.monitorConcurrency 1
  | .renderPermit => max c.renderConcurrency 1
  | .refreshLock => 1

/-- What a task takes, in this order, before it goes on from its point. -/
def Task.awaited : Task → List Resource
  -- a refresh asks the providers one after the other, each under a permit
  | submit _ _ (.refreshing _) | cancel _ (.refreshing ..) | start .refresh =>
    [.refreshLock, .monitorPermit]
  | submit _ _ (.inspecting ..) | submit _ _ (.rendering ..) => [.renderPermit]
  | cancel _ (.deleting ..) | worker { pc := .lookup _, .. } => [.providerPermit]
  | monitor { pc := .query, .. } => [.monitorPermit]
  | _ => []

/-- The permit of a submission that has not ended, whether or not its worker has given it up. -/
def Task.submitting : Task → List Resource
  | worker { pc := .calling call, .. } | worker { pc := .late call, .. } =>
    match call.phase with
    | .finished _ => []
    | _ => [.providerPermit]
  | _ => []

def Task.keeps (task : Task) : List Resource := task.awaited ++ task.submitting

/-- What a step of a task to its next point takes. -/
def Task.needs (inp : Input) (task next : Task) : List Resource :=
  match task, next with
  -- a cache that is not stale is not refreshed
  | submit _ _ (.refreshing _), _ | cancel _ (.refreshing ..), _ =>
    if inp.refreshed.isSome then task.awaited else []
  -- a job whose provider is not registered fails before a permit is asked for
  | worker { pc := .lookup _, .. }, worker { pc := .failing .., .. } => []
  | _, _ => task.awaited

structure PermitState where
  engine : State := {}
  /-- The tasks that have it. -/
  held : Resource → List TaskId := fun _ => []
  /-- How many have it besides: queries of the API, the discovery loop, and blocking calls whose
  submission was dropped. -/
  elsewhere : Resource → ℕ := fun _ => 0

/-- The steps of the engine, and of what goes round in it. -/
inductive PermitAction
  | engine (a : Action)
  /-- Task `t` is given what it waits for. -/
  | take (t : TaskId)
  /-- A call that is no task of the engine's takes a permit, or gives it back. -/
  | borrow (r : Resource)
  | giveBack (r : Resource)

namespace PermitState

variable (s : PermitState)

def inUse (r : Resource) : ℕ := (s.held r).length + s.elsewhere r

/-- What task `t` takes next. -/
def next (t : TaskId) : Option Resource :=
  if (s.engine.pendingEvent t).isSome then none
  else (s.engine.task t).awaited.find? fun r => !(s.held r).contains t

def give (t : TaskId) (r : Resource) : PermitState :=
  { s with held := Function.update s.held r (t :: s.held r) }

/-- Whether a step to `s'` has what it takes. -/
def granted (s' : State) : Action → Bool
  | .run t inp =>
    (s.engine.pendingEvent t).isSome ||
      ((s.engine.task t).needs inp (s'.task t)).all fun r => (s.held r).contains t
  | _ => true

/-- What is had after the step `a` to `s'`: a task that is past its call has given back what it
took. -/
def settle (a : Action) (s' : State) : PermitState where
  engine := s'
  held r := (s.held r).filter fun t => (s'.task t).keeps.contains r
  elsewhere r :=
    match a with
    -- the blocking call of a dropped future goes on, with its permit
    | .drop t => if r ≠ .refreshLock ∧ t ∈ s.held r then s.elsewhere r + 1 else s.elsewhere r
    | .crash => 0
    | _ => s.elsewhere r

end PermitState

def permitStep (env : Env) (c : Concurrency) (s : PermitState) : PermitAction → Option PermitState
  | .engine a =>
    (step env s.engine a).bind fun s' => if s.granted s' a then some (s.settle a s') else none
  | .take t =>
    (s.next t).bind fun r => if s.inUse r < c.capacity r then some (s.give t r) else none
  | .borrow r =>
    if s.inUse r < c.capacity r then
      some { s with elsewhere := Function.update s.elsewhere r (s.elsewhere r + 1) }
    else none
  | .giveBack r =>
    if s.elsewhere r ≠ 0 then
      some { s with elsewhere := Function.update s.elsewhere r (s.elsewhere r - 1) }
    else none

/-- The action is a step of task `t`. -/
def PermitAction.runs (t : TaskId) : PermitAction → Bool
  | engine a => a.runs t
  | take u => u == t
  | _ => false

variable {env : Env} {c : Concurrency} {s s' : PermitState} {e' : State} {t u v : TaskId}
  {inp : Input} {r : Resource} {a : Action} {k : Task}

/-! ### Steps -/

theorem engine_eq_some (h : permitStep env c s (.engine a) = some s') :
    step env s.engine a = some s'.engine ∧ s.granted s'.engine a = true ∧
      s' = s.settle a s'.engine := by
  obtain ⟨e', hstep, h⟩ := Option.bind_eq_some_iff.mp h
  obtain ⟨hgranted, rfl⟩ := of_guarded h
  exact ⟨hstep, hgranted, rfl⟩

theorem take_eq_some (h : permitStep env c s (.take t) = some s') :
    ∃ r, s.next t = some r ∧ s.inUse r < c.capacity r ∧ s' = s.give t r := by
  obtain ⟨r, hr, h⟩ := Option.bind_eq_some_iff.mp h
  obtain ⟨hroom, rfl⟩ := of_guarded h
  exact ⟨r, hr, hroom, rfl⟩

theorem next_eq_some (h : s.next t = some r) :
    s.engine.pendingEvent t = none ∧ r ∈ (s.engine.task t).awaited ∧ t ∉ s.held r := by
  unfold PermitState.next at h
  split at h
  · cases h
  · next hp =>
    have hheld := List.find?_some h
    refine ⟨by simpa using hp, List.mem_of_find?_eq_some h, ?_⟩
    simpa using hheld

/-- What is given out is there, is given to tasks that use it, and a permit for a refresh only with
the lock. -/
structure PermitState.Sound (c : Concurrency) (s : PermitState) : Prop where
  nodup : ∀ r, (s.held r).Nodup
  room : ∀ r, s.inUse r ≤ c.capacity r
  used : ∀ r, ∀ t ∈ s.held r, r ∈ (s.engine.task t).keeps
  locked : ∀ t ∈ s.held .monitorPermit, .refreshLock ∈ (s.engine.task t).awaited →
    t ∈ s.held .refreshLock

theorem awaited_of_lock {task : Task} (h : .refreshLock ∈ task.awaited) :
    task.awaited = [.refreshLock, .monitorPermit] := by
  unfold Task.awaited at h ⊢
  split <;> simp_all

/-- Who has a monitor's permit refreshes the printers, or is a monitor. -/
theorem lock_of_monitorPermit {task : Task} (h : .monitorPermit ∈ task.keeps) :
    .refreshLock ∈ task.awaited ∨ ∃ m, task = .monitor m := by
  rcases List.mem_append.mp h with h | h
  · unfold Task.awaited at h ⊢
    split at h <;> simp_all
  · unfold Task.submitting at h
    split at h
    · split at h <;> simp at h
    · split at h <;> simp at h
    · exact absurd h List.not_mem_nil

theorem monitor_unlocked (m : Monitor) : Resource.refreshLock ∉ (Task.monitor m).awaited := by
  unfold Task.awaited
  split <;> simp_all

/-- A task that refreshes with a permit has been refreshing. -/
theorem lock_kept {e : State} (h : step env e a = some e')
    (hold : .monitorPermit ∈ (e.task t).keeps) (hnew : .refreshLock ∈ (e'.task t).awaited) :
    .refreshLock ∈ (e.task t).awaited := by
  rcases lock_of_monitorPermit hold with hlock | ⟨m, hm⟩
  · exact hlock
  · exfalso
    have hstill : ∃ m', e'.task t = .monitor m' ∨ e'.task t = .none := by
      cases step_task h t with
      | touched htouch =>
        rw [hm] at htouch
        generalize e'.task t = new at htouch
        cases htouch
        exact ⟨m, .inl rfl⟩
      | ran ha hp hex hs =>
        rw [hm] at hex
        obtain ⟨pc, rfl⟩ := monitor_kind (exec_continues hex)
        exact ⟨_, .inl (hs ▸ task_setTask_self ..)⟩
      | dropped ha hold hnew => exact ⟨m, .inr hnew⟩
      | crashed ha hnew => exact ⟨m, .inr hnew⟩
      | phase hpc ha hold hnew | booted ha hu hold hnew | submitted ha hpc hold hnew
      | cancelled ha hold hnew | shutdown ha hold hnew =>
        rw [hold] at hm
        cases hm
    obtain ⟨m', hnew' | hnew'⟩ := hstill
    · rw [hnew'] at hnew
      exact monitor_unlocked m' hnew
    · rw [hnew'] at hnew
      exact absurd hnew List.not_mem_nil

theorem task_of_drop {e : State} (h : step env e (.drop t) = some e') : e'.task t = .none := by
  obtain ⟨-, rfl⟩ := of_guarded h
  rw [State.task, AList.lookup_erase]
  rfl

/-- A step of the engine takes nothing more. -/
theorem settle_inUse (h : step env s.engine a = some e') (r : Resource) :
    (s.settle a e').inUse r ≤ s.inUse r := by
  have hfilter := List.length_filter_le (fun t => (e'.task t).keeps.contains r) (s.held r)
  unfold PermitState.inUse PermitState.settle
  cases a with
  | drop t =>
    dsimp only
    split
    · next hheld =>
      -- what the blocking call keeps, its caller no longer has
      have hlt : ((s.held r).filter fun u => (e'.task u).keeps.contains r).length <
          (s.held r).length := by
        refine List.length_filter_lt_length_iff_exists.mpr ⟨t, hheld.2, ?_⟩
        rw [task_of_drop h]
        exact Bool.false_ne_true
      omega
    · omega
  | crash => exact Nat.le_trans hfilter (Nat.le_add_right _ _)
  | _ => exact Nat.add_le_add_right hfilter _

theorem PermitState.Sound.engine (hsound : s.Sound c) (h : step env s.engine a = some e') :
    (s.settle a e').Sound c where
  nodup r := (hsound.nodup r).filter _
  room r := Nat.le_trans (settle_inUse h r) (hsound.room r)
  used r t ht := List.contains_iff_mem.mp (List.mem_filter.mp ht).2
  locked t ht hlock := by
    have hheld := (List.mem_filter.mp ht).1
    have hbefore := lock_kept h (hsound.used _ t hheld) hlock
    refine List.mem_filter.mpr ⟨hsound.locked t hheld hbefore, ?_⟩
    exact List.contains_iff_mem.mpr (List.mem_append_left _ hlock)

theorem held_give (s : PermitState) (t : TaskId) (r r' : Resource) :
    (s.give t r).held r' = if r' = r then t :: s.held r' else s.held r' := by
  show Function.update s.held r (t :: s.held r) r' = _
  rw [Function.update_apply]
  split
  · next hr => rw [hr]
  · rfl

theorem mem_give {r' : Resource} : u ∈ (s.give t r).held r' ↔ u ∈ s.held r' ∨ u = t ∧ r' = r := by
  rw [held_give]
  split
  · rw [List.mem_cons]
    tauto
  · tauto

theorem PermitState.Sound.give (hsound : s.Sound c) (hnext : s.next t = some r)
    (hroom : s.inUse r < c.capacity r) : (s.give t r).Sound c := by
  obtain ⟨hp, hawaited, hfree⟩ := next_eq_some hnext
  refine ⟨?_, ?_, ?_, ?_⟩
  · intro r'
    rw [held_give]
    split
    · next hr => exact List.nodup_cons.mpr ⟨hr ▸ hfree, hsound.nodup r'⟩
    · exact hsound.nodup r'
  · intro r'
    unfold PermitState.inUse at hroom ⊢
    rw [held_give]
    split
    · next hr =>
      subst hr
      show (t :: s.held r').length + s.elsewhere r' ≤ _
      rw [List.length_cons]
      omega
    · exact hsound.room r'
  · intro r' u hu
    rcases mem_give.mp hu with hu | ⟨rfl, rfl⟩
    · exact hsound.used r' u hu
    · exact List.mem_append_left _ hawaited
  · intro u hu hlock
    refine mem_give.mpr (.inl ?_)
    rcases mem_give.mp hu with hu | ⟨rfl, rfl⟩
    · exact hsound.locked u hu hlock
    · -- the lock comes before the permit
      by_contra hnot
      have hlock' : (s.engine.task u).awaited = _ := awaited_of_lock hlock
      unfold PermitState.next at hnext
      rw [hp, hlock', List.find?_cons_of_pos (by simpa using hnot)] at hnext
      cases hnext

/-- A step of task `t` is enabled, or one of its provider call. -/
def GoesOn (env : Env) (c : Concurrency) (s : PermitState) (t : TaskId) : Prop :=
  ∃ a : PermitAction, (permitStep env c s a).isSome = true ∧
    (a.runs t = true ∨ a = .engine (.invoke t) ∨ ∃ result, a = .engine (.finish t result))

/-- What a call may still take after its point. -/
def Task.ahead : Task → ℕ
  | submit _ _ pc =>
    (if 14 < pc.rank then 2 else 0) + (if 10 < pc.rank then 1 else 0) +
      (if 8 < pc.rank then 1 else 0)
  | cancel _ pc => (if 8 < pc.rank then 2 else 0) + (if 5 < pc.rank then 1 else 0)
  | _ => 0

theorem submit_awaited (who : Submitter) (request : PrintRequest) (pc : SubmitPc) :
    (Task.submit who request pc).awaited.length =
      (if pc.rank = 14 then 2 else 0) + (if pc.rank = 10 then 1 else 0) +
        (if pc.rank = 8 then 1 else 0) := by
  cases pc with
  | resolve id again => cases again <;> rfl
  | _ => rfl

theorem cancel_awaited (id : JobId) (pc : CancelPc) : (Task.cancel id pc).awaited.length =
    (if pc.rank = 8 then 2 else 0) + (if pc.rank = 5 then 1 else 0) := by
  cases pc with
  | resolve printerId spoolerJobId again => cases again <;> rfl
  | _ => rfl

/-- What a call takes at its next point was ahead of it. -/
theorem ahead_of_continues {task : Task} (hcall : task.isCall = true)
    (h : (code env inp task).Continues k) : k.ahead + k.awaited.length ≤ task.ahead := by
  obtain ⟨-, hlt⟩ := call_continues hcall h
  cases task with
  | submit who request pc =>
    obtain ⟨pc', rfl, -⟩ := submit_flow h
    have hlt : pc'.rank < pc.rank := hlt
    rw [submit_awaited]
    simp only [Task.ahead]
    split_ifs <;> omega
  | cancel id pc =>
    obtain ⟨pc', rfl⟩ := cancel_kind h
    have hlt : pc'.rank < pc.rank := hlt
    rw [cancel_awaited]
    simp only [Task.ahead]
    split_ifs <;> omega
  | _ => cases hcall

/-- What a task has not got of what it takes at its point. -/
def PermitState.missing (s : PermitState) (t : TaskId) : ℕ :=
  (s.engine.task t).awaited.countP fun r => !(s.held r).contains t

/-- The steps of call `t` that may still follow, and what it may still take. -/
def PermitState.load (s : PermitState) (t : TaskId) : ℕ :=
  s.engine.remaining t + (s.engine.task t).ahead + s.missing t

/-- A task that stays where it is keeps what it has. -/
theorem missing_settle (hsame : e'.task t = s.engine.task t) :
    (s.settle a e').missing t = s.missing t := by
  show (e'.task t).awaited.countP _ = _
  rw [hsame]
  refine List.countP_congr fun r hr => ?_
  have hkeeps : r ∈ (e'.task t).keeps := hsame ▸ List.mem_append_left _ hr
  have hiff : t ∈ (s.settle a e').held r ↔ t ∈ s.held r :=
    List.mem_filter.trans (and_iff_left (List.contains_iff_mem.mpr hkeeps))
  simp only [Bool.not_eq_true', ← Bool.not_eq_true, List.contains_iff_mem, hiff]

theorem missing_give_of_ne (hne : t ≠ u) : (s.give u r).missing t = s.missing t := by
  refine List.countP_congr fun r' _ => ?_
  have hiff : t ∈ (s.give u r).held r' ↔ t ∈ s.held r' :=
    mem_give.trans (or_iff_left fun h => hne h.1)
  simp only [Bool.not_eq_true', ← Bool.not_eq_true, List.contains_iff_mem, hiff]

theorem missing_give (h : s.next t = some r) : (s.give t r).missing t < s.missing t := by
  obtain ⟨-, hawaited, hfree⟩ := next_eq_some h
  have hgive : (s.give t r).missing t = ((s.engine.task t).awaited.filter
      (fun r' => !(s.held r').contains t)).countP (· ≠ r) := by
    rw [List.countP_filter]
    refine List.countP_congr fun r' _ => ?_
    have hiff : t ∈ (s.give t r).held r' ↔ t ∈ s.held r' ∨ r' = r :=
      mem_give.trans (or_congr_right (and_iff_right rfl))
    simp only [Bool.not_eq_true', ← Bool.not_eq_true, List.contains_iff_mem, hiff,
      Bool.and_eq_true, decide_eq_true_eq]
    tauto
  rw [hgive, PermitState.missing, List.countP_eq_length_filter, List.countP_eq_length_filter]
  refine List.length_filter_lt_length_iff_exists.mpr ⟨r, List.mem_filter.mpr ⟨hawaited, ?_⟩, ?_⟩
  · simpa using hfree
  · simp

/-- **No step raises what remains of a call, and every step of its own lowers it.** -/
theorem load_step {a : PermitAction} (hcall : (s.engine.task t).isCall = true)
    (h : permitStep env c s a = some s') (hcrash : a ≠ .engine .crash)
    (hdrop : a ≠ .engine (.drop t)) :
    (s'.engine.task t).isCall = true ∧ s'.load t + (if a.runs t then 1 else 0) ≤ s.load t := by
  cases a with
  | engine a =>
    obtain ⟨hstep, -, heq⟩ := engine_eq_some h
    obtain ⟨hcall', hle⟩ := remaining_step hcall hstep (fun ha => hcrash (ha ▸ rfl))
      (fun ha => hdrop (ha ▸ rfl))
    refine ⟨hcall', ?_⟩
    have hahead : (s'.engine.task t).ahead + s'.missing t ≤
        (s.engine.task t).ahead + s.missing t := by
      have hsame : s'.engine.task t = s.engine.task t →
          (s'.engine.task t).ahead + s'.missing t ≤ (s.engine.task t).ahead + s.missing t := by
        intro hsame
        rw [heq, missing_settle hsame]
        show (s'.engine.task t).ahead + _ ≤ _
        rw [hsame]
      by_cases hrun : a.runs t = true
      · obtain ⟨inp, rfl⟩ := exists_of_runs hrun
        rcases runTask_eq hstep with ⟨e, he⟩ | ⟨-, s₁, k, hex, he⟩
        · exact hsame (by rw [he]; rfl)
        · have htask : s'.engine.task t = k := by rw [he, task_setTask_self]
          have hlater := ahead_of_continues hcall (exec_continues hex)
          have hmissing : s'.missing t ≤ (s'.engine.task t).awaited.length :=
            List.countP_le_length
          rw [htask] at hmissing ⊢
          omega
      · exact hsame (task_of_not_runs hcall hstep (fun ha => hcrash (ha ▸ rfl))
          (fun ha => hdrop (ha ▸ rfl)) (Bool.eq_false_iff.mpr hrun))
    show s'.engine.remaining t + (s'.engine.task t).ahead + s'.missing t +
      (if a.runs t then 1 else 0) ≤ s.engine.remaining t + (s.engine.task t).ahead + s.missing t
    omega
  | take u =>
    obtain ⟨r, hnext, -, rfl⟩ := take_eq_some h
    refine ⟨hcall, ?_⟩
    show s.engine.remaining t + (s.engine.task t).ahead + (s.give u r).missing t +
      (if u == t then 1 else 0) ≤ s.engine.remaining t + (s.engine.task t).ahead + s.missing t
    by_cases hu : u = t
    · subst hu
      have hlt := missing_give hnext
      rw [if_pos (beq_self_eq_true u)]
      omega
    · rw [if_neg (by simpa using hu), missing_give_of_ne (Ne.symm hu)]
      exact Nat.le_refl _
  | borrow r | giveBack r =>
    obtain ⟨-, rfl⟩ := of_guarded h
    exact ⟨hcall, Nat.le_refl _⟩

/-! ### Runs -/

/-- Others leave room for all that task `t` may take. -/
def PermitState.LeavesRoom (c : Concurrency) (s : PermitState) (t : TaskId) : Prop :=
  ∀ r, ((s.held r).filter (· ≠ t)).length + s.elsewhere r < c.capacity r

theorem PermitState.LeavesRoom.take (h : s.LeavesRoom c t) (hnext : s.next t = some r) :
    permitStep env c s (.take t) = some (s.give t r) := by
  have hall : (s.held r).filter (· ≠ t) = s.held r :=
    List.filter_eq_self.mpr fun u hu =>
      decide_eq_true fun heq => (next_eq_some hnext).2.2 (heq ▸ hu)
  have hroom := h r
  rw [hall] at hroom
  show (s.next t).bind _ = _
  rw [hnext, Option.bind_some]
  exact if_pos hroom

theorem PermitState.LeavesRoom.give (h : s.LeavesRoom c t) : (s.give t r).LeavesRoom c t := by
  intro r'
  have hroom := h r'
  rw [held_give]
  split
  · rw [List.filter_cons_of_neg (by simp)]
    exact hroom
  · exact hroom

theorem PermitState.LeavesRoom.settle (h : s.LeavesRoom c t) :
    (s.settle (.run u inp) e').LeavesRoom c t := by
  intro r
  have hsub : ((s.settle (.run u inp) e').held r).Sublist (s.held r) := List.filter_sublist
  exact Nat.lt_of_le_of_lt (Nat.add_le_add_right (hsub.filter _).length_le _) (h r)

variable {answer : PermitState → TaskId → Input}

/-- A call, and another that has the gate if anyone has it. -/
structure Pair (env : Env) (c : Concurrency) (t u : TaskId) (s : PermitState) : Prop where
  reach : Reach (permitStep env c) (fun _ _ => True) {} s
  call : (s.engine.task t).isCall = true
  other : (s.engine.task u).isCall = true
  gate : ∀ v, s.engine.gate = some v → v = t ∨ v = u
  room : s.LeavesRoom c t

/-- What remains of both. -/
def PermitState.rest (s : PermitState) (t u : TaskId) : ℕ := s.load t + s.engine.remaining u

/-- A step of either call lowers what remains of both. -/
theorem Pair.run (h : Pair env c t u s) (hv : v = t ∨ v = u)
    (hs : permitStep env c s (.engine (.run v inp)) = some s') :
    Pair env c t u s' ∧ s'.rest t u < s.rest t u := by
  obtain ⟨hstep, -, heq⟩ := engine_eq_some hs
  obtain ⟨hcall, ht⟩ := load_step h.call hs (fun he => by cases he) (fun he => by cases he)
  obtain ⟨hother, hu⟩ := remaining_step h.other hstep (fun he => by cases he)
    (fun he => by cases he)
  refine ⟨⟨h.reach.tail trivial hs, hcall, hother, ?_, heq ▸ h.room.settle⟩, ?_⟩
  · intro w hw
    rcases gate_of_run hstep hw with hw | rfl
    · exact h.gate w hw
    · exact hv
  · have ht : s'.load t + (if v == t then 1 else 0) ≤ s.load t := ht
    have hu : s'.engine.remaining u + (if v == u then 1 else 0) ≤ s.engine.remaining u := hu
    unfold PermitState.rest
    rcases hv with rfl | rfl
    · rw [if_pos (beq_self_eq_true v)] at ht
      omega
    · rw [if_pos (beq_self_eq_true v)] at hu
      omega

/-- The call takes what it waits for. -/
theorem Pair.take (h : Pair env c t u s) (hnext : s.next t = some r) :
    Pair env c t u (s.give t r) ∧ (s.give t r).rest t u < s.rest t u := by
  have hs : permitStep env c s (.take t) = some (s.give t r) := h.room.take hnext
  obtain ⟨-, ht⟩ := load_step h.call hs (fun he => by cases he) (fun he => by cases he)
  refine ⟨⟨h.reach.tail trivial hs, h.call, h.other, h.gate, h.room.give⟩, ?_⟩
  have ht : (s.give t r).load t + (if t == t then 1 else 0) ≤ s.load t := ht
  rw [if_pos (beq_self_eq_true t)] at ht
  show (s.give t r).load t + s.engine.remaining u < s.load t + s.engine.remaining u
  omega

/-- The call waits for something that others have. -/
def PermitState.Waits (env : Env) (c : Concurrency) (s : PermitState) (t : TaskId) : Prop :=
  ∃ r, s.next t = some r ∧ s.inUse r = c.capacity r ∧ ∀ v ∈ s.held r, v ≠ t ∧
    (GoesOn env c s v ∨ r = .refreshLock ∧ s.next v = some .monitorPermit ∧
      s.inUse .monitorPermit = c.capacity .monitorPermit ∧
      ∀ w ∈ s.held .monitorPermit, GoesOn env c s w)

end KilnPrint
