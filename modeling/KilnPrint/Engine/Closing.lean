/-
Shutting down: what is still printed after the token is cancelled.

* `WorkerPc.cleared` — a worker that has passed its look at the token will call its provider once
  more at most;
* `cleared_step` — **after the token is cancelled, no worker passes another look**;
* `shutdown_stops` — **each printer is sent one more job at most**, and none if its worker was at
  the top of its loop or waiting for a call to end, whatever is submitted meanwhile.
-/
import KilnPrint.Engine.PrinterOrder

namespace KilnPrint

open Runs

/-- The calls of its provider a worker may enter before it looks at the token again. -/
def WorkerPc.cleared : WorkerPc → ℕ
  | polling | claim _ | lookup _ => 1
  | calling call | late call => if call.phase = .spawned then 1 else 0
  | _ => 0

def Task.cleared : Task → ℕ
  | worker w => w.pc.cleared
  | _ => 0

/-- The jobs that may still be handed to a printer after the token is cancelled. -/
def State.cleared (s : State) (p : PrinterId) : ℕ :=
  match s.senders.lookup p with
  | some u => (s.task u).cleared
  | none => 0

theorem WorkerPc.cleared_le_one (pc : WorkerPc) : pc.cleared ≤ 1 := by
  cases pc with
  | calling call | late call =>
    show (if call.phase = .spawned then 1 else 0) ≤ 1
    split <;> decide
  | polling | claim | lookup => exact Nat.le_refl _
  | _ => exact Nat.zero_le _

theorem cleared_le_one (s : State) (p : PrinterId) : s.cleared p ≤ 1 := by
  unfold State.cleared
  split
  · next u hu =>
    cases s.task u with
    | worker w => exact w.pc.cleared_le_one
    | _ => exact Nat.zero_le _
  · exact Nat.zero_le _

variable {env : Env} {s s₀ s₁ s' : State} {t u : TaskId} {inp : Input} {o : Origin} {a : Action}

theorem cleared_of_sender {p : PrinterId} (h : s.senders.lookup p = some u) :
    s.cleared p = (s.task u).cleared := by
  rw [State.cleared, h]

/-- **A worker that looks at the cancelled token stops.** -/
theorem worker_cleared {w w' : Worker} (hdown : s.shutdown = true)
    (h : exec env t o inp s (workerCode env w inp) = some (s₁, .worker w')) :
    w'.pc.cleared ≤ w.pc.cleared := by
  obtain ⟨printer, rx, pc⟩ := w
  have hcode := exec_continues h
  cases pc with
  | idle =>
    simp only [workerCode, exec, hdown] at h
    obtain rfl := Task.worker.inj (Prod.mk.inj (Option.some.inj h)).2
    exact Nat.le_refl _
  | polling => exact w'.pc.cleared_le_one
  | claim item => exact w'.pc.cleared_le_one
  | lookup item => exact w'.pc.cleared_le_one
  | stopping | discard | watch =>
    obtain rfl := Task.worker.inj hcode
    exact Nat.le_refl _
  | failing item e =>
    obtain ⟨m, hk⟩ := hcode
    obtain rfl := Task.worker.inj hk
    exact Nat.le_refl _
  | calling call =>
    simp only [workerCode] at hcode
    split at hcode
    · obtain ⟨m, hk⟩ := hcode
      obtain rfl := Task.worker.inj hk
      exact Nat.le_refl _
    · split at hcode
      · next result hphase =>
        obtain ⟨m, hk⟩ := hcode
        obtain rfl := Task.worker.inj hk
        rcases result with (_ | _) | _ | _ <;> exact Nat.zero_le _
      · exact absurd hcode not_false
  | late call =>
    simp only [workerCode] at hcode
    split at hcode
    · obtain rfl := Task.worker.inj hcode
      exact Nat.zero_le _
    · exact absurd hcode not_false
  | stopped => exact absurd hcode not_false

/-- A step that is no entry of a provider clears no worker, once the token is cancelled. -/
theorem task_cleared (hdown : s.shutdown = true) (h : step env s a = some s')
    (hinvoke : ∀ t, a ≠ .invoke t) : (s'.task u).cleared ≤ (s.task u).cleared := by
  cases step_task h u with
  | touched htouch =>
    generalize s.task u = old at htouch
    generalize s'.task u = new at htouch
    cases htouch <;> exact Nat.le_refl _
  | @ran inp s₁ k ha hp hex hs =>
    rw [hs, task_setTask_self]
    cases k with
    | worker w' =>
      obtain ⟨w, hw, -⟩ := kind_eq_worker.mp (code_kind (exec_continues hex)).symm
      rw [hw] at hex ⊢
      exact worker_cleared hdown hex
    | _ => exact Nat.zero_le _
  | @phase call phase printer rx pc hpc ha hold hnew =>
    rcases ha with ⟨ha, -⟩ | ⟨result, ha, hrunning, rfl⟩
    · exact absurd ha (hinvoke u)
    · rw [hnew]
      rcases hpc with rfl | rfl <;> exact Nat.zero_le _
  | booted ha hu hold hnew | submitted ha hpc hold hnew | cancelled ha hold hnew
  | shutdown ha hold hnew =>
    rw [hnew]
    exact Nat.zero_le _
  | dropped ha hold hnew | crashed ha hnew =>
    rw [hnew]
    exact Nat.zero_le _

/-- The token stays cancelled. -/
theorem shutdown_stays (hdown : s.shutdown = true) (h : step env s a = some s')
    (hcrash : a ≠ .crash) : s'.shutdown = true := by
  rcases step_shared h with ⟨t, inp, rfl⟩ | hc | ⟨-, hshared⟩
  · rcases runTask_eq h with ⟨e, rfl⟩ | ⟨-, s₁, k, hex, rfl⟩
    · exact hdown
    · show s₁.shutdown = true
      generalize code env inp (s.task t) = op at hex
      cases exec_effect hex with
      | mutate id ch f =>
        rw [← hdown]
        show (s.mutate t (s.task t).origin inp id ch).1.shutdown = s.shutdown
        unfold State.mutate
        split <;> rfl
      | cancelToken k => rfl
      | _ => exact hdown
  · exact absurd hc hcrash
  · rw [hshared.shutdown]
    exact hdown

/-- **After the token is cancelled, a provider is entered for the cleared jobs only.** -/
theorem cleared_step (hstaffed : Staffed s) (hlined : Lined s) (hdown : s.shutdown = true)
    (h : step env s a = some s') (hcrash : a ≠ .crash) (p : PrinterId) :
    (s'.invokedOn p).length + s'.cleared p ≤ (s.invokedOn p).length + s.cleared p := by
  by_cases hinvoke : ∃ t, a = .invoke t
  · obtain ⟨t, rfl⟩ := hinvoke
    obtain ⟨call, printer, rx, pc, hpc, htask, hphase, hs'⟩ := invoke_step h
    have hopen : pc call ≠ .stopped := by rcases hpc with rfl | rfl <;> simp
    have hled : s.senders.lookup printer = some t := hstaffed.led t _ htask hopen
    -- the call is for the printer of its worker
    have hown : call.printer.id = printer := by
      refine hlined.own t _ htask _ (List.mem_append_left _ ?_)
      rcases hpc with rfl | rfl <;> exact List.mem_singleton.mpr rfl
    have hinvoked : s'.invokedOn p = s.invokedOn p ++ if printer = p then [call.jobId] else [] := by
      have hlog : s'.log = s.log ++ [.invoked call.jobId call.printer.id] := by rw [hs']; rfl
      rw [invokedOn_append hlog, hown]
      by_cases hp : printer = p <;> simp [Entry.invokedOn, hp]
    have hsenders : s'.senders = s.senders := by rw [hs']; rfl
    have hnew : s'.task t = .worker ⟨printer, rx, pc { call with phase := .running }⟩ := by
      rw [hs']
      exact task_setTask_self ..
    by_cases hp : printer = p
    · subst hp
      have hbefore : s.cleared printer = 1 := by
        rw [cleared_of_sender hled, htask]
        rcases hpc with rfl | rfl <;> exact if_pos hphase
      have hafter : s'.cleared printer = 0 := by
        rw [cleared_of_sender (hsenders ▸ hled), hnew]
        rcases hpc with rfl | rfl <;> rfl
      rw [hinvoked, if_pos rfl, hbefore, hafter, List.length_append]
      exact Nat.le_refl _
    · have hsame : s'.cleared p = s.cleared p := by
        rw [State.cleared, State.cleared, hsenders]
        split
        · next u hu =>
          -- the channel of another printer leads to another worker
          have hne : u ≠ t := by
            rintro rfl
            obtain ⟨w, hw, hwp⟩ := hstaffed.named p u hu
            rw [htask] at hw
            obtain rfl := Task.worker.inj hw
            exact hp hwp
          have hother : s'.task u = s.task u := by
            rw [hs']
            exact task_setTask_of_ne s _ hne
          rw [hother]
        · rfl
      rw [hinvoked, if_neg hp, List.append_nil, hsame]
  · have hno : ∀ t, a ≠ .invoke t := fun t ht => hinvoke ⟨t, ht⟩
    rw [invokedOn_step h hno]
    refine Nat.add_le_add_left ?_ _
    have hsame : s'.senders.lookup p = s.senders.lookup p → s'.cleared p ≤ s.cleared p := by
      intro hlookup
      rw [State.cleared, State.cleared, hlookup]
      split
      · exact task_cleared hdown h hno
      · exact Nat.le_refl _
    rcases step_senders h with
      hs | hc | ⟨t, inp, who, request, q, job, -, -, -, hnew, hsenders⟩
    · exact hsame (by rw [hs])
    · exact absurd hc hcrash
    · by_cases hq : p = q.printer.id
      -- a new worker has yet to look at the token
      · have hzero : s'.cleared p = 0 := by
          have hsender : s'.senders.lookup p = some inp.fresh := by
            rw [hsenders, FinMap.lookup_insert_ite, if_pos hq]
          rw [cleared_of_sender hsender, hnew]
          rfl
        rw [hzero]
        exact Nat.zero_le _
      · exact hsame (by rw [hsenders, FinMap.lookup_insert_ite, if_neg hq])

/-- **After the shutdown token is cancelled, each printer is sent one more job at most**: none,
unless its worker had already passed its look at the token. -/
theorem shutdown_stops (h₀ : Reach (step env) (fun _ _ => True) init s₀)
    (hdown : s₀.shutdown = true) (h : Reach (step env) (fun _ a => a ≠ .crash) s₀ s)
    (p : PrinterId) :
    (s.invokedOn p).length ≤ (s₀.invokedOn p).length + s₀.cleared p ∧ s₀.cleared p ≤ 1 := by
  have hrun : s.shutdown = true ∧ Reach (step env) (fun _ _ => True) init s ∧
      (s.invokedOn p).length + s.cleared p ≤ (s₀.invokedOn p).length + s₀.cleared p := by
    induction h with
    | refl => exact ⟨hdown, h₀, Nat.le_refl _⟩
    | tail _ hcrash hs ih =>
      obtain ⟨hdown', hreach, hle⟩ := ih
      obtain ⟨hstaffed, hlined, -⟩ := lined_of_reach hreach
      exact ⟨shutdown_stays hdown' hs hcrash, hreach.tail trivial hs,
        (cleared_step hstaffed hlined hdown' hs hcrash p).trans hle⟩
  exact ⟨(Nat.le_add_right _ _).trans hrun.2.2, cleared_le_one s₀ p⟩

/-- The agent shuts down while a worker that passed its look has two jobs in its channel. -/
def closingRun : List Action :=
  booting ++ submitting 1 2 ++ submitting 3 2 ++ [.run 2 {}, .shutdown 4, .run 4 {}]

/-- The worker prints the first of them, and stops. -/
def closedRun : List Action :=
  List.replicate 3 (.run 2 {}) ++ [.invoke 2, .finish 2 (.outcome .delivered)] ++
    List.replicate 4 (.run 2 {})

/-- Where the engine gets from there. -/
def closed : State := (runFrom (step desk) (after closingRun) closedRun).getD init

theorem shutdown_stops_closing :
    (closed.invokedOn "desk").length = 1 ∧ (after closingRun).cleared "desk" = 1 ∧
      (closed.invokedOn "desk").length ≤
        ((after closingRun).invokedOn "desk").length + (after closingRun).cleared "desk" := by
  have hrun : (checked (step desk) (fun _ a => a matches .run .. | .invoke _ | .finish ..)
      (after closingRun) closedRun).isSome = true := by decide +kernel
  obtain ⟨s, hs⟩ := Option.isSome_iff_exists.mp hrun
  have hclosed : closed = s := by
    rw [closed, runFrom_of_checked hs]
    rfl
  have hreach : Reach (step desk) (fun _ a => a ≠ .crash) (after closingRun) closed := by
    rw [hclosed]
    refine reach_of_checked ?_ hs
    rintro s a ha rfl
    cases ha
  exact ⟨by decide +kernel, by decide +kernel,
    (shutdown_stops (reach_after (fun _ _ => True) closingRun (by decide +kernel))
      (by decide +kernel) hreach "desk").1⟩

end KilnPrint
