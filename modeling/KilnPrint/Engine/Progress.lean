/-
How far an API call has come: a `submit` or `cancel` call only goes forward, and nothing of the
engine's shared data but the submit gate ever keeps it.

* `SubmitPc.rank`, `CancelPc.rank`, `Task.rank` — how many points a call has before it at most;
* `State.remaining` — with the events it has still to broadcast;
* `remaining_step` — **no step of another task raises it, and every own step lowers it**;
* `State.GateHeld`, `held_of_reach` — whoever holds the submit gate is inside it;
* `call_runs` — **a call that has not returned can proceed, or waits for the gate**.

Providers and the repository may answer what they like.  What a call needs besides, the permits of
the engine's semaphores and the refresh lock, is in the module on permits, where calls end.
-/
import KilnPrint.Engine.Events
import KilnPrint.Engine.SubmitGate

namespace KilnPrint

open Runs

/-! ### Ranks -/

/-- The points of a submit call that may still follow. -/
def SubmitPc.rank : SubmitPc → ℕ
  | done _ => 0
  | exit _ | settle .. => 1
  | existing _ | release .. => 2
  | stored .. | send .. => 3
  | sender .. => 4
  | queue _ => 5
  | reserve _ => 6
  | name .. => 7
  | rendering .. => 8
  | render .. => 9
  | inspecting .. => 10
  | route .. => 11
  | assign .. => 12
  | resolve _ again => if again then 13 else 15
  | refreshing _ => 14
  | check _ => 16
  | validate _ => 17
  | leave _ => 18
  | activate _ => 19
  | insert _ => 20
  | lookup _ => 21
  | enter _ => 22

/-- The points of a cancel call that may still follow. -/
def CancelPc.rank : CancelPc → ℕ
  | done _ => 0
  | cancelQueued | restored => 1
  | reload => 2
  | unguard _ => 3
  | settle => 4
  | deleting .. => 5
  | guard .. => 6
  | resolve _ _ again => if again then 7 else 9
  | refreshing .. => 8
  | stored => 10
  | load => 11

def Task.rank : Task → ℕ
  | submit _ _ pc => pc.rank
  | cancel _ pc => pc.rank
  | _ => 0

/-- A `submit` or `cancel` call. -/
def Task.isCall : Task → Bool
  | submit .. | cancel .. => true
  | _ => false

variable {env : Env} {s s₁ s' : State} {t u : TaskId} {inp : Input} {o : Origin} {op : Op}
  {k : Task} {a : Action}

/-- A call that may still be refused has more than its failure to record. -/
theorem SubmitPc.rank_of_judging {pc : SubmitPc} {id : JobId} (h : pc.judging = some id) :
    1 < pc.rank := by
  cases pc with
  | resolve id again => cases again <;> simp [rank]
  | check | route | inspecting | render | rendering | reserve => simp [rank]
  | _ => cases h

/-- **A submit call only goes forward**, but for the second look at the printers. -/
theorem submit_rank_lt {pc pc' : SubmitPc} {who : Submitter} {request : PrintRequest}
    (h : (submitCode env who request inp pc).Continues (.submit who request pc')) :
    pc'.rank < pc.rank := by
  cases flow_of_continues h with
  | refreshing id again =>
    cases again with
    | false => simp [SubmitPc.rank]
    -- after a refresh the printer is not looked for again
    | true =>
      obtain ⟨printers, hk⟩ := h
      simp only at hk
      split at hk
      · next printer hfound =>
        have hpc := (Task.submit.inj hk).2.2
        unfold resolved at hpc
        split at hpc <;> cases hpc
      · cases (Task.submit.inj hk).2.2
  | resolved id again printer => cases again <;> simp [SubmitPc.rank]
  | refused hpc e => exact SubmitPc.rank_of_judging hpc
  | _ => simp [SubmitPc.rank]

/-- Where a cancel call goes from the record it read. -/
theorem cancelFrom_rank_le (id : JobId) (job : Job) : (cancelFrom id job).rank ≤ 9 := by
  unfold cancelFrom
  split
  · exact Nat.zero_le _
  · split
    · simp [CancelPc.rank]
    · exact Nat.zero_le _
    · split
      · simp [CancelPc.rank]
      · exact Nat.zero_le _
    · exact Nat.zero_le _

/-- **A cancel call only goes forward**, but for the second look at the printers. -/
theorem cancel_rank_lt {pc pc' : CancelPc} {id : JobId}
    (h : (cancelCode env id pc).Continues (.cancel id pc')) : pc'.rank < pc.rank := by
  cases pc with
  | load =>
    obtain ⟨found, hk⟩ := h
    cases found with
    | none =>
      obtain rfl := (Task.cancel.inj hk).2
      simp [CancelPc.rank]
    | some job =>
      obtain rfl := (Task.cancel.inj hk).2
      exact Nat.lt_of_le_of_lt (cancelFrom_rank_le id job) (by simp [CancelPc.rank])
  | stored =>
    obtain ⟨found, hk⟩ := h
    simp only at hk
    split at hk <;> obtain rfl := (Task.cancel.inj hk).2
    · exact Nat.lt_of_le_of_lt (cancelFrom_rank_le id _) (by simp [CancelPc.rank])
    all_goals simp [CancelPc.rank]
  | resolve printerId spoolerJobId again =>
    obtain ⟨printers, hk⟩ := h
    simp only at hk
    split at hk
    · split at hk <;> obtain rfl := (Task.cancel.inj hk).2 <;> cases again <;>
        simp [CancelPc.rank]
    · cases again with
      | true =>
        obtain rfl := (Task.cancel.inj hk).2
        simp [CancelPc.rank]
      | false =>
        obtain rfl := (Task.cancel.inj hk).2
        simp [CancelPc.rank]
  | cancelQueued | settle =>
    obtain ⟨m, hk⟩ := h
    obtain rfl := (Task.cancel.inj hk).2
    simp [CancelPc.rank]
  | deleting printer spoolerJobId =>
    obtain ⟨result, hk⟩ := h
    cases result <;> obtain rfl := (Task.cancel.inj hk).2 <;> simp [CancelPc.rank]
  | unguard result =>
    have hk : Task.cancel id pc' = _ := h
    cases result with
    | error e =>
      obtain rfl := (Task.cancel.inj hk).2
      simp [CancelPc.rank]
    | ok job =>
      cases job <;> obtain rfl := (Task.cancel.inj hk).2 <;> simp [CancelPc.rank]
  | reload =>
    obtain ⟨found, hk⟩ := h
    cases found <;> obtain rfl := (Task.cancel.inj hk).2 <;> simp [CancelPc.rank]
  | restored =>
    obtain ⟨found, hk⟩ := h
    simp only at hk
    split at hk <;> obtain rfl := (Task.cancel.inj hk).2 <;> simp [CancelPc.rank]
  | refreshing | guard =>
    obtain rfl := (Task.cancel.inj h).2
    simp [CancelPc.rank]
  | done result => exact absurd h not_false

/-- A call stays one, and goes forward. -/
theorem call_continues {task : Task} (hcall : task.isCall = true)
    (h : (code env inp task).Continues k) : k.isCall = true ∧ k.rank < task.rank := by
  cases task with
  | submit who request pc =>
    obtain ⟨pc', rfl, -⟩ := submit_flow h
    exact ⟨rfl, submit_rank_lt h⟩
  | cancel id pc =>
    obtain ⟨pc', rfl⟩ := cancel_kind h
    exact ⟨rfl, cancel_rank_lt h⟩
  | _ => cases hcall

/-! ### Steps -/

/-- The events that task `t` has still to broadcast. -/
def State.owed (s : State) (t : TaskId) : ℕ := s.outbox.countP fun e => e.1 == t

/-- The steps of call `t` that may still follow: at each point it may raise an event, which it
broadcasts in a step of its own. -/
def State.remaining (s : State) (t : TaskId) : ℕ := 2 * (s.task t).rank + s.owed t

/-- The action is a step of task `t`. -/
def Action.runs (t : TaskId) : Action → Bool
  | .run u _ => u == t
  | _ => false

theorem owed_eq_zero (h : s.pendingEvent t = none) : s.owed t = 0 :=
  List.countP_eq_zero.mpr fun e he => List.find?_eq_none.mp h e he

/-- Broadcasting an event of task `t`. -/
theorem owed_erase {outbox : List (TaskId × EngineEvent)} {ev : EngineEvent}
    (h : (t, ev) ∈ s.outbox) (houtbox : outbox = s.outbox.erase (t, ev)) :
    (outbox.countP fun e => e.1 == u) + (if t == u then 1 else 0) = s.owed u := by
  have hperm := List.perm_cons_erase h
  rw [State.owed, hperm.countP_eq, houtbox, List.countP_cons]

/-- Other tasks leave the events of a task to it. -/
theorem owed_step (h : step env s a = some s') (hcrash : a ≠ .crash) (ha : a.runs t = false) :
    s'.owed t = s.owed t := by
  cases step_broadcasts h with
  | silent hevents houtbox hraised => rw [State.owed, houtbox, State.owed]
  | @raised u inp e ev harun hp he hlog hevents houtbox hraised =>
    subst harun
    have hne : (u == t) = false := ha
    rw [State.owed, houtbox, List.countP_append, State.owed, List.countP_singleton, hne]
    rfl
  | @sent u inp ev harun hp hevents houtbox hraised =>
    subst harun
    have hne : (u == t) = false := ha
    have herase := owed_erase (u := t) (mem_outbox_of_pendingEvent hp) houtbox
    rw [hne] at herase
    exact herase
  | crashed hc hevents houtbox hraised => exact absurd hc hcrash

/-- A call goes on by its own steps only. -/
theorem task_of_not_runs (hcall : (s.task t).isCall = true) (h : step env s a = some s')
    (hcrash : a ≠ .crash) (hdrop : a ≠ .drop t) (hrun : a.runs t = false) :
    s'.task t = s.task t := by
  cases step_task h t with
  | touched htouch =>
    generalize s.task t = old at htouch hcall
    generalize s'.task t = new at htouch
    cases htouch <;> first | rfl | cases hcall
  | @ran inp s₁ k ha hp hex hs =>
    subst ha
    exact absurd (beq_self_eq_true t) (Bool.eq_false_iff.mp hrun)
  | dropped ha hold hnew => exact absurd ha hdrop
  | crashed ha hnew => exact absurd ha hcrash
  | phase hpc ha hold hnew | booted ha hu hold hnew | submitted ha hpc hold hnew
  | cancelled ha hold hnew | shutdown ha hold hnew =>
    rw [hold] at hcall
    cases hcall

theorem exists_of_runs (h : a.runs t = true) : ∃ inp, a = .run t inp := by
  cases a with
  | run u inp =>
    obtain rfl : u = t := by simpa [Action.runs] using h
    exact ⟨inp, rfl⟩
  | _ => cases h

/-- **No step raises what remains of a call, and every step of its own lowers it.** -/
theorem remaining_step (hcall : (s.task t).isCall = true) (h : step env s a = some s')
    (hcrash : a ≠ .crash) (hdrop : a ≠ .drop t) :
    (s'.task t).isCall = true ∧ s'.remaining t + (if a.runs t then 1 else 0) ≤ s.remaining t := by
  by_cases hrun : a.runs t = true
  · rw [if_pos hrun]
    obtain ⟨inp, rfl⟩ := exists_of_runs hrun
    have hrunTask : runTask env s t inp = some s' := h
    unfold runTask at hrunTask
    cases hp : s.pendingEvent t with
    | some e =>
      rw [hp] at hrunTask
      obtain rfl := Option.some.inj hrunTask
      obtain ⟨u, ev⟩ := e
      obtain rfl : u = t := pendingEvent_fst hp
      have herase := owed_erase (u := u) (mem_outbox_of_pendingEvent hp) rfl
      rw [if_pos (beq_self_eq_true u)] at herase
      refine ⟨hcall, ?_⟩
      unfold State.remaining
      rw [← herase]
      exact Nat.le_refl _
    | none =>
      rw [hp] at hrunTask
      obtain ⟨⟨s₁, k⟩, hex, rfl⟩ := Option.map_eq_some_iff.mp hrunTask
      obtain ⟨hk, hlt⟩ := call_continues hcall (exec_continues hex)
      -- a step raises one event at most, and only where none waits
      have howed : (s₁.setTask t k).owed t ≤ 1 := by
        have hzero := owed_eq_zero hp
        cases step_broadcasts h with
        | silent hevents houtbox hraised =>
          rw [State.owed, houtbox, ← State.owed, hzero]
          exact Nat.zero_le _
        | @raised u inp' e ev harun hp' he hlog hevents houtbox hraised =>
          rw [State.owed, houtbox, List.countP_append, ← State.owed, hzero, List.countP_singleton]
          split <;> simp
        | @sent u inp' ev harun hp' hevents houtbox hraised =>
          obtain ⟨rfl, -⟩ := Action.run.inj harun
          rw [hp] at hp'
          cases hp'
        | crashed hc hevents houtbox hraised => cases hc
      show ((s₁.setTask t k).task t).isCall = true ∧
        2 * ((s₁.setTask t k).task t).rank + (s₁.setTask t k).owed t + 1 ≤
          2 * (s.task t).rank + s.owed t
      rw [task_setTask_self]
      exact ⟨hk, by omega⟩
  · have hrun' : a.runs t = false := Bool.eq_false_iff.mpr hrun
    have htask : s'.task t = s.task t := task_of_not_runs hcall h hcrash hdrop hrun'
    rw [if_neg hrun, htask]
    refine ⟨hcall, ?_⟩
    unfold State.remaining
    rw [htask, owed_step h hcrash hrun']
    exact Nat.le_refl _

/-- The call has its answer. -/
def Task.answered : Task → Bool
  | submit _ _ (.done _) | cancel _ (.done _) => true
  | _ => false

/-- The call has returned: it has its answer and has broadcast its events. -/
def State.returned (s : State) (t : TaskId) : Prop :=
  (s.task t).answered = true ∧ s.pendingEvent t = none

/-- The gate stays, is left, or is taken by whoever proceeds. -/
theorem gate_of_run (h : step env s (.run t inp) = some s') (hu : s'.gate = some u) :
    s.gate = some u ∨ u = t := by
  rcases runTask_eq h with ⟨e, rfl⟩ | ⟨-, s₁, k, hex, rfl⟩
  · exact .inl hu
  · have hgate := exec_gate hex
    change s₁.gate = some u at hu
    split at hgate
    · exact .inl (hgate ▸ hu)
    · exact .inr (Option.some.inj (hgate.2.symm.trans hu)).symm
    · rw [hgate] at hu
      cases hu

end KilnPrint
