/-
Budget accounting: every reservation is released exactly once.

* `Task.unreserved` — the job of a submit call that has yet to take its reservation;
* `Accounts` — a run with what was taken and released since the process started;
* `Accounts.conserved`, `Accounts.past` — **what was taken is what was released and
  what is live**, and a job takes one reservation;
* `Task.handling` — the tasks with an item in hand;
* `budget_accounting` — **the statement for the counter and for the engine**.
-/
import KilnPrint.Engine.BudgetStep

namespace KilnPrint

open Custody Runs

variable {env : Env} {s s₁ s' : State} {t : TaskId} {inp : Input} {o : Origin} {op : Op} {k : Task}
  {last : TaskId → JobId}

/-! ### One reservation for a job -/

/-- The job of a submit call that has yet to take its reservation. -/
def SubmitPc.unreserved : SubmitPc → Option JobId
  | enter job | lookup job | insert job | activate job => some job.jobId
  | leave id | validate id | check id | resolve id _ | refreshing id | assign id _ | route id _
  | inspecting id _ | render id _ _ _ | rendering id _ _ _ | name id _ _ _ _ => some id
  | reserve p => some p.jobId
  | _ => none

def Task.unreserved : Task → Option JobId
  | submit _ _ pc => pc.unreserved
  | _ => Option.none

theorem submit_of_unreserved {task : Task} {id : JobId} (h : task.unreserved = some id) :
    ∃ who request pc, task = .submit who request pc := by
  cases task with
  | submit who request pc => exact ⟨who, request, pc, rfl⟩
  | _ => cases h

theorem holds_of_unreserved {task : Task} {id : JobId} (h : task.unreserved = some id) :
    ∃ σ, (id, σ) ∈ task.holds := by
  cases task with
  | submit who request pc =>
    cases pc <;> first
      | (obtain rfl := Option.some.inj h; exact ⟨_, List.mem_singleton.mpr rfl⟩)
      | cases h
  | _ => cases h

/-- A submit call keeps its job until it has a reservation. -/
theorem code_unreserved {task : Task} {id : JobId} (h : (code env inp task).Continues k)
    (hk : k.unreserved = some id) : task.unreserved = some id := by
  obtain ⟨who', request', pc', rfl⟩ := submit_of_unreserved hk
  have hkind := code_kind h
  cases task with
  | submit who request pc =>
    obtain ⟨pc'', hpc, hflow⟩ := submit_flow h
    obtain ⟨rfl, rfl, rfl⟩ := Task.submit.inj hpc
    cases hflow with
    | prepared id printer warnings language payload p hp => exact hp ▸ hk
    | refused hjudging e => cases hk
    | _ => first | exact hk | cases hk
  | _ => cases hkind

/-- A reservation is taken at one point. -/
theorem reserve_of_code {task : Task} {bytes : ℕ} {f : Bool → Task}
    (h : code env inp task = .tryReserve bytes f) :
    ∃ who request p, task = .submit who request (.reserve p) ∧
      f true = .submit who request (.queue p) := by
  cases hbare : task.bare with
  | true =>
    have hop : (code env inp task).Passive := passive_of_bare hbare
    rw [h] at hop
    exact absurd hop not_false
  | false =>
    cases task with
    | submit who request pc =>
      cases pc with
      | reserve p =>
        obtain ⟨rfl, rfl⟩ := Op.tryReserve.inj h
        exact ⟨who, request, p, rfl, rfl⟩
      | check id | render id printer warnings language =>
        simp only [code, submitCode] at h
        split at h <;> cases h
      | _ => cases h
    | worker w =>
      obtain ⟨printer, rx, pc⟩ := w
      cases pc with
      | polling => cases rx <;> cases h
      | calling call =>
        simp only [code, workerCode] at h
        split at h
        · cases h
        · split at h <;> cases h
      | late call =>
        simp only [code, workerCode] at h
        split at h <;> cases h
      | _ => cases h
    | _ => cases hbare

/-! ### Accounts of a run -/

/-- A run, with the job each task was last about and the reservations taken and
released since the process started. -/
inductive Accounts (env : Env) :
    State → (TaskId → JobId) → Multiset Held → Multiset Held → Prop
  | started : Accounts env init (fun _ => 0) 0 0
  | stepped {s s' : State} {a : Action} {last : TaskId → JobId} {taken given : Multiset Held}
      (h : Accounts env s last taken given) (hcrash : a ≠ .crash) (hs : step env s a = some s') :
      Accounts env s' (s.subjects last) (taken + a.takes env last s) (given + a.gives env last s)
  | crashed {s : State} {last : TaskId → JobId} {taken given : Multiset Held}
      (h : Accounts env s last taken given) : Accounts env s.crashed (fun _ => 0) 0 0

/-- Every run has accounts. -/
theorem accounts_of_reach (h : Reach (step env) (fun _ _ => True) init s) :
    ∃ last taken given, Accounts env s last taken given := by
  induction h with
  | refl => exact ⟨_, _, _, .started⟩
  | @tail s s' a _ _ hs ih =>
    obtain ⟨last, taken, given, hacc⟩ := ih
    by_cases hcrash : a = .crash
    · subst hcrash
      obtain rfl := Option.some.inj hs
      exact ⟨_, _, _, hacc.crashed⟩
    · exact ⟨_, _, _, hacc.stepped hcrash hs⟩

namespace Accounts

variable {taken given : Multiset Held}

theorem reach (h : Accounts env s last taken given) :
    Reach (step env) (fun _ _ => True) init s := by
  induction h with
  | started => exact .refl
  | stepped _ _ hs ih => exact ih.tail trivial hs
  | crashed _ ih => exact ih.tail (a := .crash) trivial rfl

/-- **What was taken is what was released and what is live**, and the counter is what
is live, within the limit. -/
theorem conserved (h : Accounts env s last taken given) :
    taken = given + s.live last ∧ s.used = bytesOf (s.live last) ∧
      s.used ≤ env.config.maxQueuedBytes := by
  induction h with
  | started => exact ⟨rfl, rfl, Nat.zero_le _⟩
  | @stepped s s' a last taken given _ hcrash hs ih =>
    obtain ⟨htaken, hused, hlimit⟩ := ih
    have hlive := step_live last hcrash hs
    obtain ⟨hused', hlimit'⟩ := step_used last hcrash hs
    refine ⟨?_, ?_, ?_⟩
    · rw [htaken, add_assoc, ← hlive, add_assoc, add_comm (s'.live _)]
    · have hbytes := congrArg bytesOf hlive
      rw [bytesOf_add, bytesOf_add] at hbytes
      omega
    · rcases hlimit' with hle | hle
      · exact le_trans hle hlimit
      · exact hle
  | crashed _ _ => exact ⟨rfl, rfl, Nat.zero_le _⟩

end Accounts

/-- Job ids are drawn in order. -/
theorem Ledger.Step.next_le {l l' : Ledger} {mv : Move} (h : l.Step mv l') : l.next ≤ l'.next := by
  cases h <;> first | exact Nat.le_refl _ | exact Nat.le_succ _

/-- A submit call that has yet to reserve had as much before the step, or is new. -/
theorem unreserved_before {a : Action} (h : step env s a = some s') {u : TaskId} {id : JobId}
    (hid : (s'.task u).unreserved = some id) :
    (s.task u).unreserved = some id ∨ id = s.nextJob := by
  obtain ⟨who, request, pc, htask⟩ := submit_of_unreserved hid
  rw [htask] at hid
  cases step_submit h htask with
  | same hold =>
    rw [hold]
    exact .inl hid
  | new ha hold hpc =>
    rcases hpc with rfl | ⟨e, rfl⟩
    · exact .inr (Option.some.inj hid).symm
    · cases hid
  | ran ha hp hex hs => exact .inl (code_unreserved (exec_continues hex) hid)

/-- A step that takes a reservation takes it for a submit call that had none. -/
theorem takes_cases (last : TaskId → JobId) {a : Action} (h : step env s a = some s') :
    a.takes env last s = 0 ∨ ∃ t who request p bytes,
      s.task t = .submit who request (.reserve p) ∧ a.takes env last s = {(p.jobId, bytes)} ∧
      s'.task t = .submit who request (.queue p) := by
  cases a with
  | run t inp =>
    have hrun : runTask env s t inp = some s' := h
    unfold runTask at hrun
    simp only [Action.takes]
    cases hp : s.pendingEvent t with
    | some e => exact .inl rfl
    | none =>
      rw [hp] at hrun
      obtain ⟨⟨s₁, k⟩, hex, rfl⟩ := Option.map_eq_some_iff.mp hrun
      -- only a submit call at `reserve` takes anything, and it goes on to `queue`
      cases hop : code env inp (s.task t) with
      | tryReserve bytes f =>
        obtain ⟨who, request, p, htask, hnext⟩ := reserve_of_code hop
        have hsubject : s.subjects last t = p.jobId := by
          rw [State.subjects, htask]
          rfl
        rw [hop] at hex
        simp only [exec] at hex
        split at hex
        case h_1 b hb =>
          obtain ⟨rfl, rfl⟩ := Prod.mk.inj (Option.some.inj hex)
          refine .inr ⟨t, who, request, p, bytes, htask, ?_, ?_⟩
          · show Op.takes env s.used (s.subjects last t) (.tryReserve bytes f) = _
            rw [Op.takes, hb, hsubject]
            rfl
          · rw [task_setTask_self, hnext]
        case h_2 hb =>
          left
          show Op.takes env s.used (s.subjects last t) (.tryReserve bytes f) = 0
          rw [Op.takes, hb]
          rfl
      | _ => exact .inl rfl
  | _ => exact .inl rfl

/-- What was taken is behind the submit calls that have yet to reserve. -/
structure Past (s : State) (taken : Multiset Held) : Prop where
  drawn : ∀ h ∈ taken, h.1 < s.nextJob
  reserved : ∀ h ∈ taken, ∀ u, (s.task u).unreserved ≠ some h.1
  single : (taken.map Prod.fst).Nodup

theorem Past.empty (s : State) : Past s 0 := by
  constructor <;> simp

/-- A step adds at most the reservation of a job that had none. -/
theorem Past.step {a : Action} {taken : Multiset Held} (hw : Wf s) (h : Past s taken)
    (hs : step env s a = some s') : Past s' (taken + a.takes env last s) := by
  obtain ⟨mv, -, -, hmove⟩ := step_refines hw hs
  have hnext : s.nextJob ≤ s'.nextJob := hmove.next_le
  have hbefore : ∀ h ∈ taken, ∀ u, (s'.task u).unreserved ≠ some h.1 := by
    intro x hx u hu
    rcases unreserved_before hs hu with hold | hnew
    · exact h.reserved x hx u hold
    · exact Nat.lt_irrefl _ (hnew ▸ h.drawn x hx)
  rcases takes_cases last hs with
    hzero | ⟨t, who, request, p, bytes, htask, htakes, hqueue⟩
  · rw [hzero, add_zero]
    exact ⟨fun x hx => lt_of_lt_of_le (h.drawn x hx) hnext, hbefore, h.single⟩
  · have hun : (s.task t).unreserved = some p.jobId := by
      rw [htask]
      rfl
    obtain ⟨σ, hσ⟩ := holds_of_unreserved hun
    have hlt : p.jobId < s.nextJob := hw.inv.custodyLt _ _ (custody_of_holds hw.exclusive hσ)
    rw [htakes]
    refine ⟨?_, ?_, ?_⟩
    · intro x hx
      rcases Multiset.mem_add.mp hx with hx | hx
      · exact lt_of_lt_of_le (h.drawn x hx) hnext
      · obtain rfl := Multiset.mem_singleton.mp hx
        exact lt_of_lt_of_le hlt hnext
    · intro x hx u hu
      rcases Multiset.mem_add.mp hx with hx | hx
      · exact hbefore x hx u hu
      · obtain rfl := Multiset.mem_singleton.mp hx
        rcases unreserved_before hs hu with hold | hnew
        · -- the job is in one place, and has moved on
          obtain ⟨σ', hσ'⟩ := holds_of_unreserved hold
          obtain rfl := hw.exclusive.unique (mem_keys_of_mem hσ) (mem_keys_of_mem hσ')
          rw [hqueue] at hu
          cases hu
        · exact Nat.lt_irrefl _ (hnew ▸ hlt)
    · rw [Multiset.map_add, Multiset.map_singleton, Multiset.nodup_add]
      refine ⟨h.single, Multiset.nodup_singleton _, ?_⟩
      rw [Multiset.disjoint_singleton]
      intro hmem
      obtain ⟨x, hx, hid⟩ := Multiset.mem_map.mp hmem
      exact h.reserved x hx t (hid ▸ hun)

/-- A job takes at most one reservation. -/
theorem Accounts.past {taken given : Multiset Held} (h : Accounts env s last taken given) :
    Past s taken := by
  induction h with
  | started => exact .empty _
  | stepped hacc _ hs ih => exact ih.step (wf_of_reach hacc.reach) hs
  | crashed _ _ => exact .empty _

/-! ### No item in hand -/

def SubmitPc.handling : SubmitPc → Bool
  | queue _ | stored .. | sender .. | send .. | release .. => true
  | _ => false

def WorkerPc.handling : WorkerPc → Bool
  | claim _ | lookup _ | failing .. | discard _ => true
  | calling call | late call =>
    match call.phase with
    | .finished _ => false
    | _ => true
  | _ => false

/-- Whether a task has an item in hand: one on its way into a channel, one in a
channel, or one being submitted. -/
def Task.handling : Task → Bool
  | submit _ _ pc => pc.handling
  | worker w => w.pc.handling || !w.rx.isEmpty
  | _ => false

theorem reservations_of_not_handling {task : Task} (h : task.handling = false) (last : JobId) :
    task.reservations last = 0 := by
  cases task with
  | submit who request pc => cases pc <;> first | rfl | cases h
  | worker w =>
    obtain ⟨printer, rx, pc⟩ := w
    obtain ⟨hpc, hrx⟩ := Bool.or_eq_false_iff.mp h
    have hnil : rx = [] := by simpa using hrx
    subst hnil
    cases pc with
    | calling call | late call =>
      have hfinished : ∃ result, call.phase = .finished result := by
        cases hphase : call.phase with
        | finished result => exact ⟨result, rfl⟩
        | _ => simp [WorkerPc.handling, hphase] at hpc
      obtain ⟨result, hphase⟩ := hfinished
      have hzero : call.reservations = 0 := by rw [Call.reservations, hphase]
      exact (congrArg (· + 0) hzero).trans (add_zero 0)
    | _ => first | rfl | cases hpc
  | _ => rfl

/-- Without an item in hand anywhere, nothing is live. -/
theorem live_eq_zero (h : ∀ t, (s.task t).handling = false) : s.live last = 0 := by
  refine FinMap.tally_eq_zero ?_
  intro t k hk
  have htask : s.task t = k := by
    rw [State.task, hk]
    rfl
  exact reservations_of_not_handling (htask ▸ h t) _

/-- No step both takes and releases. -/
theorem takes_or_gives (env : Env) (last : TaskId → JobId) (s : State) (a : Action) :
    a.takes env last s = 0 ∨ a.gives env last s = 0 := by
  cases a with
  | run t inp =>
    simp only [Action.takes, Action.gives]
    split
    · exact .inl rfl
    · cases code env inp (s.task t) with
      | tryReserve bytes f => exact .inr rfl
      | _ => exact .inl rfl
  | _ => exact .inl rfl

/-- A step releases what is live. -/
theorem gives_le_live {a : Action} (hcrash : a ≠ .crash) (hs : step env s a = some s') :
    a.gives env last s ≤ s.live last := by
  have hlive := step_live last hcrash hs
  rcases takes_or_gives env last s a with htakes | hgives
  · rw [htakes, add_zero] at hlive
    rw [← hlive]
    exact Multiset.le_add_left _ _
  · rw [hgives]
    exact Multiset.zero_le _

theorem bytesOf_le {a b : Multiset Held} (h : a ≤ b) : bytesOf a ≤ bytesOf b := by
  obtain ⟨c, rfl⟩ := Multiset.le_iff_exists_add.mp h
  rw [bytesOf_add]
  exact Nat.le_add_right _ _

/-! ### Main result -/

/-- What the accounts of a run say. -/
structure Accounted (env : Env) (s : State) (last : TaskId → JobId) (taken given : Multiset Held) :
    Prop where
  /-- Every reservation taken is released or live, and no other is. -/
  conserved : taken = given + s.live last
  /-- None is taken, and so none released, twice. -/
  single : (taken.map Prod.fst).Nodup
  counter : s.used = bytesOf (s.live last)
  limited : s.used ≤ env.config.maxQueuedBytes
  /-- No release takes the counter below zero. -/
  covered : ∀ a s', a ≠ .crash → step env s a = some s' → bytesOf (a.gives env last s) ≤ s.used
  /-- Without an item in hand, all are released. -/
  settled : (∀ t, (s.task t).handling = false) → given = taken ∧ s.used = 0

theorem Accounts.accounted {taken given : Multiset Held} (h : Accounts env s last taken given) :
    Accounted env s last taken given := by
  obtain ⟨hconserved, hcounter, hlimited⟩ := h.conserved
  refine ⟨hconserved, h.past.single, hcounter, hlimited, ?_, ?_⟩
  · intro a s' hcrash hs
    rw [hcounter]
    exact bytesOf_le (gives_le_live hcrash hs)
  · intro hquiet
    have hzero : s.live last = 0 := live_eq_zero hquiet
    rw [hzero] at hconserved hcounter
    exact ⟨by rw [hconserved, add_zero], hcounter⟩

/-- **Every reservation is released exactly once**: the counter is the sum of the live
reservations under any interleaving of accesses, and the engine hands each on until it
is released. -/
theorem budget_accounting (env : Env) :
    (∀ (limit : ℕ) (b : Budget limit), Reach Budget.step (fun _ _ => True) {} b →
      b.Balanced ∧ ∀ c bytes, b.claims.lookup c = some (.holding bytes) →
        bytes ≤ b.used ∧ fetchSub b.used bytes = b.used - bytes) ∧
    (∀ s, Reach (step env) (fun _ _ => True) init s →
      ∃ last taken given, Accounts env s last taken given) ∧
    ∀ s last taken given, Accounts env s last taken given → Accounted env s last taken given := by
  refine ⟨?_, ?_, ?_⟩
  · intro limit b hb
    have hbalanced := Budget.balanced_of_reach hb
    exact ⟨hbalanced, fun c bytes hc => hbalanced.drop hc⟩
  · intro s hs
    exact accounts_of_reach hs
  · intro s last taken given hacc
    exact hacc.accounted

end KilnPrint
