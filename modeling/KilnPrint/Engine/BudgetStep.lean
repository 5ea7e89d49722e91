/-
Budget accounting: what a step does to the live reservations.

* `State.live` — all live reservations;
* `exec_live`, `exec_used` — what one operation does to them and to the counter;
* `Action.takes`, `Action.gives` — the reservations a step takes and releases;
* `step_live`, `step_used` — **a step moves reservations, takes one, or releases
  some**, and the counter follows.
-/
import KilnPrint.Engine.Budget

namespace KilnPrint

variable {env : Env} {s s₁ s' : State} {t : TaskId} {inp : Input} {o : Origin} {op : Op} {k : Task}
  {last : TaskId → JobId}

/-! ### Live reservations -/

/-- The live reservations, if `last` names the last job each task was about. -/
def State.live (last : TaskId → JobId) (s : State) : Multiset Held :=
  FinMap.tally (fun t k => k.reservations (last t)) s.tasks

/-- The bytes of some reservations. -/
def bytesOf (held : Multiset Held) : ℕ := (held.map Prod.snd).sum

@[simp] theorem bytesOf_zero : bytesOf 0 = 0 := rfl

@[simp] theorem bytesOf_singleton (h : Held) : bytesOf {h} = h.2 := by
  simp [bytesOf]

@[simp] theorem bytesOf_add (a b : Multiset Held) : bytesOf (a + b) = bytesOf a + bytesOf b := by
  simp [bytesOf]

/-- `bytesOf`, as a homomorphism. -/
def bytesHom : Multiset Held →+ ℕ where
  toFun := bytesOf
  map_zero' := bytesOf_zero
  map_add' := bytesOf_add

theorem bytesOf_items (items : List QueuedJob) :
    bytesOf (itemReservations items) = (items.map (·.reservation)).sum := by
  induction items with
  | nil => rfl
  | cons item rest ih =>
    rw [itemReservations_cons, bytesOf_add, bytesOf_singleton, ih]
    rfl

theorem live_congr (h : s₁.tasks = s.tasks) : s₁.live last = s.live last := by
  rw [State.live, State.live, h]

theorem share_task (s : State) (t : TaskId) :
    FinMap.share (fun t (k : Task) => k.reservations (last t)) s.tasks t =
      (s.task t).reservations (last t) := by
  unfold FinMap.share State.task
  cases s.tasks.lookup t <;> rfl

/-- Replacing a task replaces what it holds. -/
theorem live_setTask (last : TaskId → JobId) (s : State) (t : TaskId) (k : Task) :
    (s.setTask t k).live last + (s.task t).reservations (last t) =
      s.live last + k.reservations (last t) := by
  rw [← share_task]
  exact FinMap.tally_insert _ s.tasks t k

/-- Spawning a task that holds nothing. -/
theorem live_spawn (h : s.task t = .none) (hk : k.reservations (last t) = 0) :
    (s.setTask t k).live last = s.live last := by
  have hset := live_setTask last s t k
  have hnone : Task.reservations (last t) .none = 0 := rfl
  rw [h, hk, hnone, add_zero, add_zero] at hset
  exact hset

/-- Remembering what tasks were about changes nothing that is live. -/
theorem live_subject (s : State) :
    s.live (fun t => (s.task t).subject (last t)) = s.live last := by
  refine FinMap.tally_congr ?_
  intro t k hk
  have htask : s.task t = k := by
    rw [State.task, hk]
    rfl
  show k.reservations ((s.task t).subject (last t)) = k.reservations (last t)
  rw [htask]
  exact reservations_subject (last t) k

/-- An item joins what its worker holds. -/
theorem live_send (last : TaskId → JobId) {target : TaskId} {w : Worker}
    (hw : s.task target = .worker w)
    (item : QueuedJob) :
    (s.setTask target (.worker { w with rx := w.rx ++ [item] })).live last =
      s.live last + itemReservations [item] := by
  have hset := live_setTask last s target (.worker { w with rx := w.rx ++ [item] })
  have happend : Task.reservations (last target) (.worker { w with rx := w.rx ++ [item] }) =
      Task.reservations (last target) (.worker w) + itemReservations [item] := by
    show w.pc.reservations _ + itemReservations (w.rx ++ [item]) =
      w.pc.reservations _ + itemReservations w.rx + itemReservations [item]
    rw [itemReservations_append, add_assoc]
  rw [hw, happend, add_comm (Task.reservations _ _), ← add_assoc] at hset
  exact add_right_cancel hset

/-! ### One operation -/

section

variable {held : Multiset Held}

/-- Replacing a task moves its share of the reservations. -/
theorem live_moved (htasks : s₁.tasks = s.tasks) :
    (s₁.setTask t k).live last + (s.task t).reservations (last t) =
      s.live last + k.reservations (last t) := by
  have hset := live_setTask last s₁ t k
  have htask : s₁.task t = s.task t := by rw [State.task, htasks]; rfl
  rwa [htask, live_congr htasks] at hset

/-- The task gets a reservation. -/
theorem live_taken (htasks : s₁.tasks = s.tasks)
    (hk : k.reservations (last t) = held + (s.task t).reservations (last t)) :
    (s₁.setTask t k).live last = s.live last + held := by
  have hset : (s₁.setTask t k).live last + (s.task t).reservations (last t) = _ := live_moved htasks
  rw [hk, ← add_assoc] at hset
  exact add_right_cancel hset

/-- The task gives back what it held. -/
theorem live_released (htasks : s₁.tasks = s.tasks)
    (hheld : held + k.reservations (last t) = (s.task t).reservations (last t)) :
    (s₁.setTask t k).live last + held = s.live last := by
  have hset : _ = s.live last + k.reservations (last t) := live_moved htasks
  rw [← hheld, ← add_assoc] at hset
  exact add_right_cancel hset

/-- The task keeps what it holds. -/
theorem live_kept (htasks : s₁.tasks = s.tasks)
    (hk : k.reservations (last t) = (s.task t).reservations (last t)) :
    (s₁.setTask t k).live last = s.live last := by
  have htaken : _ = s.live last + 0 := live_taken htasks (hk.trans (zero_add _).symm)
  rwa [add_zero] at htaken

/-- A new task holds nothing, and the one that spawns it keeps what it holds. -/
theorem live_spawned {fresh : TaskId} {k' : Task} (ht : s.task t ≠ .none)
    (hfresh : s.task fresh = .none) (hk' : k'.reservations (last fresh) = 0)
    (htasks : s₁.tasks = (s.setTask fresh k').tasks)
    (hk : k.reservations (last t) = (s.task t).reservations (last t)) :
    (s₁.setTask t k).live last = s.live last := by
  have hne : t ≠ fresh := by
    rintro rfl
    exact ht hfresh
  have htask : (s.setTask fresh k').task t = s.task t := task_setTask_of_ne s k' hne
  exact (live_kept htasks (hk.trans (by rw [htask]))).trans (live_spawn hfresh hk')

/-- The item goes from the sender to a worker. -/
theorem live_sent {target : TaskId} {w : Worker} {item : QueuedJob} (hne : t ≠ target)
    (hw : s.task target = .worker w)
    (htasks : s₁.tasks = (s.setTask target (.worker { w with rx := w.rx ++ [item] })).tasks)
    (hheld : itemReservations [item] + k.reservations (last t) = (s.task t).reservations (last t)) :
    (s₁.setTask t k).live last = s.live last := by
  have htask : (s.setTask target (.worker { w with rx := w.rx ++ [item] })).task t = s.task t :=
    task_setTask_of_ne _ _ hne
  have hreleased := live_released htasks (hheld.trans (by rw [htask]))
  rw [live_send last hw item] at hreleased
  exact add_right_cancel hreleased

end

/-- What a `try_send` came to. -/
theorem exec_trySend {target : TaskId} {item : QueuedJob} {f : SendResult → Task}
    (h : exec env t o inp s (.trySend target item f) = some (s₁, k)) :
    (s₁ = s ∧ (k = f .full ∨ k = f .closed)) ∨
      ∃ w, s.task target = .worker w ∧ k = f .ok ∧
        s₁.tasks = (s.setTask target (.worker { w with rx := w.rx ++ [item] })).tasks := by
  simp only [exec] at h
  split at h
  case h_1 w hw =>
    split at h
    · obtain ⟨rfl, rfl⟩ := Prod.mk.inj (Option.some.inj h)
      exact .inl ⟨rfl, .inr rfl⟩
    · split at h
      · obtain ⟨rfl, rfl⟩ := Prod.mk.inj (Option.some.inj h)
        exact .inr ⟨w, hw, rfl, rfl⟩
      · obtain ⟨rfl, rfl⟩ := Prod.mk.inj (Option.some.inj h)
        exact .inl ⟨rfl, .inl rfl⟩
  case h_2 =>
    obtain ⟨rfl, rfl⟩ := Prod.mk.inj (Option.some.inj h)
    exact .inl ⟨rfl, .inr rfl⟩

/-- The operations that neither take nor release a reservation nor send an item. -/
def Op.Passes : Op → Prop
  | .tryReserve .. | .release .. | .dropReceiver .. | .trySend .. => False
  | _ => True

/-- They leave the tasks alone, or spawn one that holds nothing. -/
theorem exec_passes (hpasses : op.Passes) (h : exec env t o inp s op = some (s₁, k)) :
    op.Continues k ∧ (s₁.tasks = s.tasks ∨
      ∃ k', s.task inp.fresh = .none ∧ (∀ id, k'.reservations id = 0) ∧
        s₁.tasks = (s.setTask inp.fresh k').tasks) := by
  refine ⟨exec_continues h, ?_⟩
  cases exec_effect h with
  | spawnWorker printer f hfresh => exact .inr ⟨_, hfresh, fun _ => rfl, rfl⟩
  | spawnMonitor id printer spoolerJobId k hfresh =>
    exact .inr ⟨_, hfresh, fun _ => rfl, rfl⟩
  | mutate id ch f => exact .inl tasks_mutate
  | reserve | release | dropReceiver | send => exact hpasses.elim
  | _ => exact .inl rfl

/-- **An operation moves reservations, takes one, or releases some.** -/
theorem exec_live (hbal : op.Balances (last t) ((s.task t).reservations (last t)))
    (ht : s.task t ≠ .none)
    (hsend : ∀ target item f, op = .trySend target item f → ∀ w, s.task t ≠ .worker w)
    (h : exec env t o inp s op = some (s₁, k)) :
    (s₁.setTask t k).live last + op.gives (last t) =
      s.live last + op.takes env s.used (last t) := by
  have hpass : op.Passes → (∀ k, op.Continues k → k.reservations (last t) =
      (s.task t).reservations (last t)) → (s₁.setTask t k).live last + 0 = s.live last + 0 := by
    intro hpasses hkeeps
    obtain ⟨hk, htasks | ⟨k', hfresh, hk', htasks⟩⟩ := exec_passes hpasses h
    · exact congrArg (· + 0) (live_kept htasks (hkeeps k hk))
    · exact congrArg (· + 0) (live_spawned ht hfresh (hk' _) htasks (hkeeps k hk))
  cases op with
  -- the budget gives what the task gets, or nothing
  | tryReserve bytes f =>
    simp only [exec] at h
    split at h
    case h_1 b hb =>
      obtain ⟨rfl, rfl⟩ := Prod.mk.inj (Option.some.inj h)
      have htakes : (Op.tryReserve bytes f).takes env s.used (last t) = {(last t, bytes)} := by
        rw [Op.takes, hb]
        rfl
      rw [htakes]
      exact (add_zero _).trans (live_taken rfl hbal.1)
    case h_2 hb =>
      obtain ⟨rfl, rfl⟩ := Prod.mk.inj (Option.some.inj h)
      have htakes : (Op.tryReserve bytes f).takes env s.used (last t) = 0 := by
        rw [Op.takes, hb]
        rfl
      rw [htakes]
      exact congrArg (· + 0) (live_kept rfl hbal.2)
  -- what is given back was held
  | release bytes k' | dropReceiver items k' =>
    obtain ⟨rfl, rfl⟩ := Prod.mk.inj (Option.some.inj h)
    exact (live_released rfl hbal).trans (add_zero _).symm
  | trySend target item f =>
    obtain ⟨hok, hfull, hclosed⟩ := hbal
    rcases exec_trySend h with ⟨rfl, rfl | rfl⟩ | ⟨w, hw, rfl, htasks⟩
    · exact congrArg (· + 0) (live_kept rfl hfull)
    · exact congrArg (· + 0) (live_kept rfl hclosed)
    · have hne : t ≠ target := by
        rintro rfl
        exact hsend t item f rfl w hw
      exact congrArg (· + 0) (live_sent hne hw htasks hok)
  | _ => exact hpass trivial hbal

/-- The counter follows, and a reservation taken is within the limit. -/
theorem exec_used (id : JobId) (h : exec env t o inp s op = some (s₁, k)) :
    s₁.used = s.used + bytesOf (op.takes env s.used id) - bytesOf (op.gives id) ∧
      (s₁.used ≤ s.used ∨ s₁.used ≤ env.config.maxQueuedBytes) := by
  have hsame : ∀ {a : State} {b : Task}, some (a, b) = some (s₁, k) → a = s₁ :=
    fun h => (Prod.mk.inj (Option.some.inj h)).1
  have hkeep : s₁.used = s.used → s₁.used = s.used + bytesOf 0 - bytesOf 0 ∧
      (s₁.used ≤ s.used ∨ s₁.used ≤ env.config.maxQueuedBytes) :=
    fun hused => ⟨hused, .inl (le_of_eq hused)⟩
  cases op with
  | tryReserve bytes f =>
    simp only [exec] at h
    split at h
    case h_1 b hb =>
      obtain rfl := hsame h
      obtain ⟨hused, -, hlimit, -⟩ := ByteBudget.tryReserve_eq_some hb
      refine ⟨?_, .inr hlimit⟩
      rw [Op.takes, hb]
      exact hused.trans (by simp [Op.gives])
    case h_2 hb =>
      obtain rfl := hsame h
      rw [Op.takes, hb]
      exact hkeep rfl
  | release bytes k' =>
    obtain rfl := hsame h
    exact ⟨by simp [Op.takes, Op.gives], .inl (Nat.sub_le _ _)⟩
  | dropReceiver items k' =>
    obtain rfl := hsame h
    exact ⟨by simp [Op.takes, Op.gives, bytesOf_items], .inl (Nat.sub_le _ _)⟩
  | mutate id ch f =>
    have hs : (s.mutate t o inp id ch).1 = s₁ := hsame h
    refine hkeep ?_
    rw [← hs]
    unfold State.mutate
    split <;> rfl
  | _ =>
    cases exec_effect h
    all_goals exact hkeep rfl

/-! ### One step -/

/-- The jobs tasks were last about, after a step. -/
def State.subjects (last : TaskId → JobId) (s : State) : TaskId → JobId :=
  fun t => (s.task t).subject (last t)

/-- The reservation a step takes. -/
def Action.takes (env : Env) (last : TaskId → JobId) (s : State) : Action → Multiset Held
  | .run t inp =>
    if (s.pendingEvent t).isSome then 0
    else (code env inp (s.task t)).takes env s.used (s.subjects last t)
  | _ => 0

/-- The reservations a step releases. -/
def Action.gives (env : Env) (last : TaskId → JobId) (s : State) : Action → Multiset Held
  | .run t inp =>
    if (s.pendingEvent t).isSome then 0
    else (code env inp (s.task t)).gives (s.subjects last t)
  | .finish t _ => (s.call t).elim 0 fun call => {(call.jobId, call.reservation)}
  | _ => 0

theorem ne_none_of_exec (h : exec env t o inp s (code env inp (s.task t)) = some (s₁, k)) :
    s.task t ≠ .none := by
  intro hnone
  rw [hnone] at h
  cases h

/-- Only submit calls send items. -/
theorem not_worker_of_send {target : TaskId} {item : QueuedJob} {f : SendResult → Task}
    {task : Task} (h : code env inp task = .trySend target item f) (w : Worker) :
    task ≠ .worker w := by
  rintro rfl
  have hsite : Site _ (code env inp (.worker w)) := code_site (.worker w)
  rw [h] at hsite
  cases hsite with
  | plain hop => exact hop

/-- **A step moves reservations, takes one, or releases some.** -/
theorem step_live (last : TaskId → JobId) {a : Action} (hcrash : a ≠ .crash) (h : step env s a = some s') :
    s'.live (s.subjects last) + a.gives env last s = s.live last + a.takes env last s := by
  have hsubjects : s.live (s.subjects last) = s.live last := live_subject s
  -- neither side of the balance changes
  have hkeep : s'.live (s.subjects last) = s.live last →
      s'.live (s.subjects last) + 0 = s.live last + 0 := fun h => by rw [h]
  cases a with
  | start =>
    obtain ⟨hempty, rfl⟩ := Runs.of_guarded h
    have hnone : s.task startTask = .none := by
      have hent : s.tasks.entries = [] := by simpa using hempty
      rw [State.task, AList.lookup, hent]
      rfl
    exact hkeep ((live_spawn hnone rfl).trans hsubjects)
  | submit u who request now =>
    have h' : beginSubmit s u who request now = some s' := h
    unfold beginSubmit at h'
    split at h' <;> obtain ⟨-, hnone, rfl⟩ := spawn_eq_some h'
    · exact hkeep ((live_spawn hnone rfl).trans hsubjects)
    · have hnone' : ({ s with nextJob := s.nextJob + 1 } : State).task u = .none := hnone
      exact hkeep ((live_spawn hnone' rfl).trans hsubjects)
  | cancel u id | shutdown u =>
    obtain ⟨-, hnone, rfl⟩ := spawn_eq_some h
    exact hkeep ((live_spawn hnone rfl).trans hsubjects)
  -- an event that waits goes out first; then the operation balances
  | run u inp =>
    have hrun : runTask env s u inp = some s' := h
    unfold runTask at hrun
    simp only [Action.gives, Action.takes]
    cases hp : s.pendingEvent u with
    | some e =>
      rw [hp] at hrun
      obtain rfl := Option.some.inj hrun
      exact hkeep hsubjects
    | none =>
      rw [hp] at hrun
      obtain ⟨⟨s₁, k⟩, hex, rfl⟩ := Option.map_eq_some_iff.mp hrun
      have hbal : (code env inp (s.task u)).Balances (s.subjects last u)
          ((s.task u).reservations (s.subjects last u)) := by
        rw [State.subjects, reservations_subject]
        exact code_balances (s.task u) (last u)
      have hlive := exec_live hbal (ne_none_of_exec hex)
        (fun target item f hop => not_worker_of_send hop) hex
      rw [hsubjects] at hlive
      exact hlive
  | invoke u =>
    obtain ⟨call, hcall, h⟩ := Option.bind_eq_some_iff.mp h
    obtain ⟨printer, rx, pc, hpc, htask, hphase⟩ := call_eq_some hcall
    obtain ⟨hspawned, rfl⟩ := Runs.of_guarded h
    have hset := live_setTask (s.subjects last) s u
      (.worker ⟨printer, rx, pc { call with phase := .running }⟩)
    -- the payload stays with the call
    have hsame : Task.reservations (s.subjects last u)
        (.worker ⟨printer, rx, pc { call with phase := .running }⟩) =
          (s.task u).reservations (s.subjects last u) := by
      rw [htask]
      show (pc _).reservations _ + _ = (pc call).reservations _ + _
      rcases hpc with rfl | rfl <;> simp [WorkerPc.reservations, Call.reservations, hspawned]
    rw [hsame] at hset
    refine hkeep ?_
    rw [hphase, ← hsubjects]
    exact add_right_cancel hset
  | finish u result =>
    obtain ⟨call, hcall, h⟩ := Option.bind_eq_some_iff.mp h
    obtain ⟨printer, rx, pc, hpc, htask, hphase⟩ := call_eq_some hcall
    obtain ⟨hrunning, rfl⟩ := Runs.of_guarded h
    have hset := live_setTask (s.subjects last) s u
      (.worker ⟨printer, rx, pc { call with phase := .finished result }⟩)
    -- the call drops its payload
    have hheld : (s.task u).reservations (s.subjects last u) =
        {(call.jobId, call.reservation)} + Task.reservations (s.subjects last u)
          (.worker ⟨printer, rx, pc { call with phase := .finished result }⟩) := by
      rw [htask]
      show (pc call).reservations _ + _ = _ + ((pc _).reservations _ + _)
      rcases hpc with rfl | rfl <;> simp [WorkerPc.reservations, Call.reservations, hrunning]
    rw [hheld, ← add_assoc] at hset
    simp only [Action.gives, Action.takes, hcall, Option.elim, hphase]
    rw [← hsubjects]
    exact (add_right_cancel hset).trans (add_zero _).symm
  | drop u =>
    obtain ⟨hawaits, rfl⟩ := Runs.of_guarded h
    have herase := FinMap.tally_erase
      (fun t (k : Task) => k.reservations (s.subjects last t)) s.tasks u
    -- a call that can be dropped holds no reservation yet
    have hzero : (s.task u).reservations (s.subjects last u) = 0 := by
      unfold State.awaits at hawaits
      split at hawaits <;> first | (next htask => rw [htask]; rfl) | cases hawaits
    rw [share_task, hzero, add_zero] at herase
    exact hkeep (herase.trans hsubjects)
  | discover printers | purge cutoff | retire id =>
    obtain ⟨-, rfl⟩ := Runs.of_guarded h
    exact hkeep hsubjects
  | crash => exact absurd rfl hcrash

/-- The counter follows a step. -/
theorem step_used (last : TaskId → JobId) {a : Action} (hcrash : a ≠ .crash) (h : step env s a = some s') :
    s'.used = s.used + bytesOf (a.takes env last s) - bytesOf (a.gives env last s) ∧
      (s'.used ≤ s.used ∨ s'.used ≤ env.config.maxQueuedBytes) := by
  have hkeep : s'.used = s.used → s'.used = s.used + bytesOf 0 - bytesOf 0 ∧
      (s'.used ≤ s.used ∨ s'.used ≤ env.config.maxQueuedBytes) :=
    fun hused => ⟨hused, .inl (le_of_eq hused)⟩
  cases a with
  | submit u who request now =>
    have h' : beginSubmit s u who request now = some s' := h
    unfold beginSubmit at h'
    split at h' <;> obtain ⟨-, -, rfl⟩ := spawn_eq_some h' <;> exact hkeep rfl
  | cancel u id | shutdown u =>
    obtain ⟨-, -, rfl⟩ := spawn_eq_some h
    exact hkeep rfl
  | run u inp =>
    have hrun : runTask env s u inp = some s' := h
    unfold runTask at hrun
    simp only [Action.gives, Action.takes]
    cases hp : s.pendingEvent u with
    | some e =>
      rw [hp] at hrun
      obtain rfl := Option.some.inj hrun
      exact hkeep rfl
    | none =>
      rw [hp] at hrun
      obtain ⟨⟨s₁, k⟩, hex, rfl⟩ := Option.map_eq_some_iff.mp hrun
      have hused := exec_used (s.subjects last u) hex
      exact hused
  | invoke u =>
    obtain ⟨call, hcall, h⟩ := Option.bind_eq_some_iff.mp h
    obtain ⟨printer, rx, pc, hpc, htask, hphase⟩ := call_eq_some hcall
    obtain ⟨-, rfl⟩ := Runs.of_guarded h
    refine hkeep ?_
    rw [hphase]
    rfl
  | finish u result =>
    obtain ⟨call, hcall, h⟩ := Option.bind_eq_some_iff.mp h
    obtain ⟨printer, rx, pc, hpc, htask, hphase⟩ := call_eq_some hcall
    obtain ⟨-, rfl⟩ := Runs.of_guarded h
    refine ⟨?_, .inl (Nat.sub_le _ _)⟩
    simp only [Action.gives, Action.takes, hcall, Option.elim]
    rw [bytesOf_singleton]
    rfl
  | start | drop u | discover printers | purge cutoff | retire id =>
    obtain ⟨-, rfl⟩ := Runs.of_guarded h
    exact hkeep rfl
  | crash => exact absurd rfl hcrash

end KilnPrint
