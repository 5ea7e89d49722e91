/-
What a restart makes of the records that a crash left.

* `Booting` — the steps of a restart, until `start` has returned: reconciliation, and the monitors
  that it has spawned;
* `Waiting`, `Opened`, `Failed`, `Watched` — a record that reconciliation has not come to, that it is
  settling, that it has failed, and that a monitor watches;
* `Fate` — what `reconciled` prescribes for a record;
* `Inv`, `Inv.step` — the invariant of a restart: the start routine has the records it has still to
  settle, and all others are settled as prescribed;
* `restart_reconciles` — **every open record is failed as its delivery stage prescribes, or watched
  by exactly one monitor; nothing is submitted, and closed records stay as they are.**

A monitor may see the end of its job before `start` has returned.  Until it reports anything, the
record is as the crash left it.
-/
import Mathlib.Data.List.Infix
import KilnPrint.Engine.Coherence
import KilnPrint.Engine.Effect
import KilnPrint.Lib.Fallible

namespace KilnPrint

open Runs

namespace Restart

/-! ### The steps of a restart -/

/-- Discovery finds only printers of registered providers. -/
def registers (env : Env) : Action → Bool
  | .run _ inp => (inp.refreshed.getD []).all fun p => (env.provider p.provider).isOk
  | _ => true

/-- A step before `start` has returned: repository calls succeed, and the engine does not crash
again. -/
structure Booting (env : Env) (s : State) (a : Action) : Prop where
  reliable : a.reliable = true
  alive : a ≠ .crash
  unstarted : s.started = false
  registered : registers env a = true

/-! ### What becomes of a record -/

variable {env : Env} {s₀ s s' s₁ : State} {a : Action} {id : JobId} {j : Job}

/-- No monitor was spawned for the job. -/
def Unwatched (s : State) (id : JobId) : Prop := ∀ t m, s.task t = .monitor m → m.jobId ≠ id

/-- The record is as it was stored, and not active. -/
structure Waiting (s : State) (id : JobId) (j : Job) : Prop where
  stored : s.repo.lookup id = some j
  inactive : s.active.lookup id = none
  unwatched : Unwatched s id

/-- The record is active, as it was stored. -/
structure Opened (s : State) (id : JobId) (j : Job) : Prop where
  stored : s.repo.lookup id = some j
  active : s.active.lookup id = some j
  unwatched : Unwatched s id

/-- The record `j` was failed with `error`. -/
structure Failed (s : State) (id : JobId) (j : Job) (error : PrintError) : Prop where
  stored : ∃ k, s.repo.lookup id = some k ∧ k.status = .failed ∧
    k.error = some (j.annotate error)
  inactive : s.active.lookup id = none
  unwatched : Unwatched s id

/-- A monitor has changed the record of the job since the crash. -/
def Reported (s₀ s : State) (id : JobId) : Prop :=
  ∃ change event, .applied .monitor id change event ∈ s.log.drop s₀.log.length

/-- Task `t` is the one monitor of the job, for its own spooler job; until it reports something,
the record `j` is active as it was stored. -/
structure Watched (s₀ s : State) (id : JobId) (j : Job) (printer : Printer) (spoolerJobId : ℕ)
    (t : TaskId) (pc : MonitorPc) : Prop where
  monitor : s.task t = .monitor ⟨id, printer, spoolerJobId, pc⟩
  only : ∀ u m, s.task u = .monitor m → m.jobId = id → u = t
  spooled : ∃ k, s.repo.lookup id = some k ∧ k.delivery = .spoolerAccepted
  record : Reported s₀ s id ∨
    s.repo.lookup id = some j ∧ s.active.lookup id = some j ∧ pc ≠ .done

/-- What reconciliation has made of the record, with the printer it found. -/
def Fate (s₀ s : State) (id : JobId) (j : Job) : Prop :=
  match reconciled j (j.printerId.bind (cachedPrinter s.printers)) with
  | .watch printer spoolerJobId => ∃ t pc, Watched s₀ s id j printer spoolerJobId t pc
  | .close (.fail error) => Failed s id j error
  | .close _ => False

theorem Fate.of_watch {printer : Printer} {spoolerJobId : ℕ} {t : TaskId} {pc : MonitorPc}
    (h : reconciled j (j.printerId.bind (cachedPrinter s.printers)) = .watch printer spoolerJobId)
    (hwatched : Watched s₀ s id j printer spoolerJobId t pc) : Fate s₀ s id j := by
  unfold Fate
  rw [h]
  exact ⟨t, pc, hwatched⟩

theorem Fate.of_fail {error : PrintError}
    (h : reconciled j (j.printerId.bind (cachedPrinter s.printers)) = .close (.fail error))
    (hfailed : Failed s id j error) : Fate s₀ s id j := by
  unfold Fate
  rw [h]
  exact hfailed

theorem Fate.watched {printer : Printer} {spoolerJobId : ℕ} (h : Fate s₀ s id j)
    (hwatch : reconciled j (j.printerId.bind (cachedPrinter s.printers)) =
      .watch printer spoolerJobId) : ∃ t pc, Watched s₀ s id j printer spoolerJobId t pc := by
  unfold Fate at h
  rwa [hwatch] at h

theorem Fate.failed {error : PrintError} (h : Fate s₀ s id j)
    (hclose : reconciled j (j.printerId.bind (cachedPrinter s.printers)) = .close (.fail error)) :
    Failed s id j error := by
  unfold Fate at h
  rwa [hclose] at h

/-- The records that the start routine has still to settle. -/
def todo : Task → List Job
  | .start (.reconcile jobs) => jobs
  | .start (.locate _ rest) | .start (.settle _ _ rest) => rest
  | _ => []

/-- The record that the start routine is settling. -/
def taken : Task → Option Job
  | .start (.locate job _) | .start (.settle job _ _) => some job
  | _ => none

/-! ### Frames -/

/-- A step that does not concern the job. -/
structure SameFor (s s' : State) (id : JobId) : Prop where
  stored : s'.repo.lookup id = s.repo.lookup id
  active : s'.active.lookup id = s.active.lookup id
  monitors : ∀ t m, m.jobId = id → (s'.task t = .monitor m ↔ s.task t = .monitor m)
  log : s.log <+: s'.log

namespace SameFor

variable (h : SameFor s s' id)
include h

theorem unwatched (hu : Unwatched s id) : Unwatched s' id := fun t m hm hid =>
  hu t m ((h.monitors t m hid).mp hm) hid

theorem waiting (hw : Waiting s id j) : Waiting s' id j :=
  ⟨h.stored.trans hw.stored, h.active.trans hw.inactive, h.unwatched hw.unwatched⟩

theorem opened (ho : Opened s id j) : Opened s' id j :=
  ⟨h.stored.trans ho.stored, h.active.trans ho.active, h.unwatched ho.unwatched⟩

theorem reported (hr : Reported s₀ s id) : Reported s₀ s' id := by
  obtain ⟨change, event, hmem⟩ := hr
  exact ⟨change, event, (List.IsPrefix.drop h.log s₀.log.length).subset hmem⟩

theorem fate (hprinters : s'.printers = s.printers) (hf : Fate s₀ s id j) : Fate s₀ s' id j := by
  unfold Fate at hf ⊢
  rw [hprinters]
  split at hf
  · obtain ⟨t, pc, hmonitor, honly, ⟨k, hk, hspooled⟩, hrecord⟩ := hf
    refine ⟨t, pc, (h.monitors t _ rfl).mpr hmonitor, fun u m hm hid =>
      honly u m ((h.monitors u m hid).mp hm) hid, ⟨k, h.stored.trans hk, hspooled⟩,
      hrecord.imp h.reported ?_⟩
    rintro ⟨hstored, hactive, hpc⟩
    exact ⟨h.stored.trans hstored, h.active.trans hactive, hpc⟩
  · obtain ⟨⟨k, hk, hfailed⟩, hinactive, hunwatched⟩ := hf
    exact ⟨⟨k, h.stored.trans hk, hfailed⟩, h.active.trans hinactive, h.unwatched hunwatched⟩
  · exact hf

end SameFor

/-! ### The invariant -/

/-- Nothing is submitted. -/
def Unsubmitted (s₀ s : State) : Prop :=
  ∃ new, s.log = s₀.log ++ new ∧ ∀ e ∈ new, ∀ id printer, e ≠ .invoked id printer

/-- A record of the crashed engine that is open. -/
def Left (s₀ : State) (j : Job) : Prop :=
  s₀.repo.lookup j.jobId = some j ∧ j.status.isTerminal = false

/-- **The invariant of a restart.** -/
structure Inv (env : Env) (s₀ s : State) : Prop where
  kinds : ∀ t, s.task t = .none ∨ (∃ pc, s.task t = .start pc) ∨ ∃ m, s.task t = .monitor m
  watchable : ∀ t m, s.task t = .monitor m →
    ∃ provider, env.provider m.printer.provider = .ok provider
  registered : ∀ p ∈ s.printers, ∃ provider, env.provider p.provider = .ok provider
  running : s.shutdown = false
  unsubmitted : Unsubmitted s₀ s
  early : (s.task startTask).loads = false → s.repo = s₀.repo
  /-- Closed records are not touched. -/
  closed : ∀ id j, s₀.repo.lookup id = some j → j.status.isTerminal = true → Waiting s id j
  waiting : ∀ j ∈ todo (s.task startTask), Left s₀ j ∧ Waiting s j.jobId j
  opened : ∀ j ∈ taken (s.task startTask), Left s₀ j ∧ Opened s j.jobId j
  distinct : ((taken (s.task startTask)).toList ++ todo (s.task startTask)).Nodup
  located : ∀ job printer rest, s.task startTask = .start (.settle job printer rest) →
    printer = job.printerId.bind (cachedPrinter s.printers)
  settled : (s.task startTask).loads = true → ∀ j, Left s₀ j → j ∉ todo (s.task startTask) →
    taken (s.task startTask) ≠ some j → Fate s₀ s j.jobId j

/-- Other records of the crashed engine have other ids. -/
theorem Left.ne {i : Job} (hi : Left s₀ i) (hj : s₀.repo.lookup id = some j) (hne : j ≠ i) :
    id ≠ i.jobId := by
  rintro rfl
  exact hne (Option.some.inj (hj.symm.trans hi.1))

theorem start_ne_monitor (h : s.task startTask = .none ∨ ∃ pc, s.task startTask = .start pc)
    (m : Monitor) : s.task startTask ≠ .monitor m := by
  rcases h with h | ⟨pc, h⟩
  · rw [h]
    exact fun h => by cases h
  · rw [h]
    exact fun h => by cases h

/-- **Steps that concern no record** keep the invariant, if the start routine has the same records
to settle as before. -/
theorem Inv.frame (h : Inv env s₀ s) (hw : Wf s)
    (htask : ∀ t, t ≠ startTask → s'.task t = s.task t)
    (hstart : s'.task startTask = .none ∨ ∃ pc, s'.task startTask = .start pc)
    (htodo : todo (s'.task startTask) = todo (s.task startTask))
    (htaken : taken (s'.task startTask) = taken (s.task startTask))
    (hloads : (s'.task startTask).loads = (s.task startTask).loads)
    (hlocated : ∀ job printer rest, s'.task startTask = .start (.settle job printer rest) →
      printer = job.printerId.bind (cachedPrinter s'.printers))
    (hprinters : (s.task startTask).loads = true → s'.printers = s.printers)
    (hregistered : ∀ p ∈ s'.printers, ∃ provider, env.provider p.provider = .ok provider)
    (hactive : s'.active = s.active) (hrepo : s'.repo = s.repo) (hlog : s'.log = s.log)
    (hrunning : s'.shutdown = s.shutdown) : Inv env s₀ s' := by
  have hmonitor : ∀ t m, s'.task t = .monitor m ↔ s.task t = .monitor m := by
    intro t m
    by_cases ht : t = startTask
    · subst ht
      exact ⟨fun hm => absurd hm (start_ne_monitor hstart m),
        fun hm => absurd hm (start_ne_monitor hw.booted.first m)⟩
    · rw [htask t ht]
  have hsame : ∀ id, SameFor s s' id := fun id =>
    ⟨by rw [hrepo], by rw [hactive], fun t m _ => hmonitor t m, by rw [hlog]⟩
  constructor
  case kinds =>
    intro t
    by_cases ht : t = startTask
    · subst ht
      exact hstart.imp_right Or.inl
    · rw [htask t ht]
      exact h.kinds t
  case watchable => exact fun t m hm => h.watchable t m ((hmonitor t m).mp hm)
  case registered => exact hregistered
  case running => exact hrunning.trans h.running
  case unsubmitted =>
    obtain ⟨new, hnew⟩ := h.unsubmitted
    exact ⟨new, by rwa [hlog]⟩
  case early =>
    rw [hloads, hrepo]
    exact h.early
  case closed => exact fun id j hj hclosed => (hsame id).waiting (h.closed id j hj hclosed)
  case waiting =>
    rw [htodo]
    exact fun j hj => (h.waiting j hj).imp_right (hsame j.jobId).waiting
  case opened =>
    rw [htaken]
    exact fun j hj => (h.opened j hj).imp_right (hsame j.jobId).opened
  case distinct =>
    rw [htodo, htaken]
    exact h.distinct
  case located => exact hlocated
  case settled =>
    rw [hloads, htodo, htaken]
    exact fun hl j hj hjtodo hjtaken =>
      (hsame j.jobId).fate (hprinters hl) (h.settled hl j hj hjtodo hjtaken)

/-! ### Monitors -/

/-- What a step of a monitor does: it moves on, and stops only if it cannot watch or has nothing to
watch; or it applies the change for a reported state. -/
theorem monitor_turn {t : TaskId} {inp : Input} {m : Monitor} {k : Task}
    (h : exec env t .monitor inp s (monitorCode env m) = some (s₁, k)) :
    ∃ pc, k = .monitor { m with pc } ∧
      ((s₁ = s ∧ (pc = .done → (∀ provider, env.provider m.printer.provider ≠ .ok provider) ∨
          s.shutdown = true ∨ s.active.lookup m.jobId = none)) ∨
        ∃ state cancelling,
          s₁ = (s.mutate t .monitor inp m.jobId (observedChange state cancelling)).1) := by
  obtain ⟨id, printer, spoolerJobId, pc⟩ := m
  cases pc with
  | spawned =>
    simp only [monitorCode] at h
    split at h
    · obtain ⟨rfl, rfl⟩ := Prod.mk.inj (Option.some.inj h)
      exact ⟨_, rfl, .inl ⟨rfl, fun hdone => by cases hdone⟩⟩
    · next herror =>
      obtain ⟨rfl, rfl⟩ := Prod.mk.inj (Option.some.inj h)
      exact ⟨_, rfl, .inl ⟨rfl, fun _ => .inl fun provider hok => by cases herror.symm.trans hok⟩⟩
  | sleeping =>
    obtain ⟨rfl, rfl⟩ := Prod.mk.inj (Option.some.inj h)
    refine ⟨_, rfl, .inl ⟨rfl, fun hdone => .inr (.inl ?_)⟩⟩
    by_contra hrunning
    rw [if_neg hrunning] at hdone
    cases hdone
  | check =>
    obtain ⟨rfl, rfl⟩ := Prod.mk.inj (Option.some.inj h)
    refine ⟨_, rfl, .inl ⟨rfl, fun hdone => .inr (.inr ?_)⟩⟩
    rw [← Option.not_isSome_iff_eq_none]
    intro hactive
    rw [if_pos hactive] at hdone
    cases hdone
  | query =>
    simp only [monitorCode, exec] at h
    split at h
    · cases h
    · obtain ⟨rfl, rfl⟩ := Prod.mk.inj (Option.some.inj h)
      split
      · exact ⟨_, rfl, .inl ⟨rfl, fun hdone => by cases hdone⟩⟩
      · exact ⟨_, rfl, .inl ⟨rfl, fun hdone => by cases hdone⟩⟩
      · exact ⟨_, rfl, .inl ⟨rfl, fun hdone => by cases hdone⟩⟩
  | gone =>
    obtain ⟨rfl, rfl⟩ := Prod.mk.inj (Option.some.inj h)
    exact ⟨_, rfl, .inl ⟨rfl, fun hdone => by cases hdone⟩⟩
  | apply state cancelling =>
    obtain ⟨rfl, rfl⟩ := Prod.mk.inj (Option.some.inj h)
    exact ⟨_, rfl, .inr ⟨state, cancelling, rfl⟩⟩
  | done => cases h

/-- A mutation leaves other jobs alone. -/
theorem mutate_other {t : TaskId} {o : Origin} {inp : Input} {ch : Change} {id' : JobId} (hw : Wf s)
    (hne : id' ≠ id) : (s.mutate t o inp id ch).1.repo.lookup id' = s.repo.lookup id' ∧
      (s.mutate t o inp id ch).1.active.lookup id' = s.active.lookup id' := by
  cases hj : s.active.lookup id with
  | none =>
    rw [mutate_none hj]
    exact ⟨rfl, rfl⟩
  | some j =>
    have hled : ledger (s.mutate t o inp id ch).1 = (ledger s).change o inp.reading id ch j :=
      (mutate_some hj).2.2
    have hstored := congrFun (congrArg Ledger.stored hled) id'
    have hactive := congrFun (congrArg Ledger.active hled) id'
    rw [Ledger.stored_change_of_ne (hw.inv.activeId id j hj).1 hne] at hstored
    rw [Ledger.active_change_of_ne hne] at hactive
    exact ⟨hstored, hactive⟩

/-- What a mutation of an active job adds to the history. -/
theorem log_mutate (t : TaskId) (o : Origin) (inp : Input) (ch : Change)
    (hj : s.active.lookup id = some j) : ∃ event,
      (s.mutate t o inp id ch).1.log = s.log ++ [.applied o id ch event] := by
  rw [State.mutate, hj]
  exact ⟨_, rfl⟩

theorem printers_mutate {t : TaskId} {o : Origin} {inp : Input} {ch : Change} :
    (s.mutate t o inp id ch).1.printers = s.printers ∧
      (s.mutate t o inp id ch).1.shutdown = s.shutdown := by
  unfold State.mutate
  split <;> exact ⟨rfl, rfl⟩

theorem Unsubmitted.mutate {t : TaskId} {o : Origin} {inp : Input} {ch : Change}
    (h : Unsubmitted s₀ s) : Unsubmitted s₀ (s.mutate t o inp id ch).1 := by
  cases hj : s.active.lookup id with
  | none => rwa [mutate_none hj]
  | some j =>
    obtain ⟨new, hlog, hnew⟩ := h
    obtain ⟨event, hadds⟩ := log_mutate t o inp ch hj
    refine ⟨new ++ [.applied o id ch event], by rw [hadds, hlog, List.append_assoc], ?_⟩
    intro e he
    rcases List.mem_append.mp he with he | he
    · exact hnew e he
    · obtain rfl := List.mem_singleton.mp he
      exact fun _ _ h => by cases h

theorem prefix_mutate {t : TaskId} {o : Origin} {inp : Input} {ch : Change} :
    s.log <+: (s.mutate t o inp id ch).1.log := by
  cases hj : s.active.lookup id with
  | none => rw [mutate_none hj]
  | some j =>
    obtain ⟨event, hadds⟩ := log_mutate t o inp ch hj
    rw [hadds]
    exact List.prefix_append _ _

/-- A monitor's mutation of an active job reports on it. -/
theorem reported_mutate {t : TaskId} {inp : Input} {ch : Change} (h : Unsubmitted s₀ s)
    (hj : s.active.lookup id = some j) : Reported s₀ (s.mutate t .monitor inp id ch).1 id := by
  obtain ⟨event, hadds⟩ := log_mutate t .monitor inp ch hj
  obtain ⟨new, hlog, -⟩ := h
  have hlength : s₀.log.length ≤ s.log.length := by
    rw [hlog, List.length_append]
    omega
  refine ⟨ch, event, ?_⟩
  rw [hadds, List.drop_append_of_le_length hlength]
  exact List.mem_append_right _ List.mem_cons_self

/-- What a monitor reports does not move the delivery. -/
theorem spooled_observed {t : TaskId} {inp : Input} {state : ProviderJobState} {cancelling : Bool}
    (hw : Wf s) (hagree : (ledger s).Agree) (hreliable : inp.repoOk = true)
    (hj : s.repo.lookup id = some j) (hspooled : j.delivery = .spoolerAccepted) :
    ∃ k, (s.mutate t .monitor inp id (observedChange state cancelling)).1.repo.lookup id = some k ∧
      k.delivery = .spoolerAccepted := by
  cases hk : s.active.lookup id with
  | none => exact ⟨j, by rwa [mutate_none hk], hspooled⟩
  | some k =>
    obtain rfl : j = k := Option.some.inj (hj.symm.trans (hagree.synced id k hk))
    have hled : ledger (s.mutate t .monitor inp id (observedChange state cancelling)).1 =
        (ledger s).change .monitor inp.reading id (observedChange state cancelling) j :=
      (mutate_some hk).2.2
    have hstored := Ledger.stored_change_reliable (r := inp.reading) .monitor
      (observedChange state cancelling) hagree hk (hw.inv.activeId id j hk).1 hreliable
    refine ⟨_, (congrFun (congrArg Ledger.stored hled) id).trans hstored, ?_⟩
    refine Eq.trans ?_ hspooled
    show ((observedChange state cancelling).apply inp.now j).1.delivery = _
    rw [Change.delivery_apply]
    cases state with
    | gone => cases cancelling <;> rfl
    | _ => rfl

/-- **Monitors keep the invariant**: they touch no record but their own. -/
theorem Inv.monitor (h : Inv env s₀ s) (hw : Wf s) (hagree : (ledger s).Agree) {t : TaskId}
    {inp : Input} {m : Monitor} {k : Task} (hreliable : inp.repoOk = true)
    (htask : s.task t = .monitor m)
    (hex : exec env t .monitor inp s (monitorCode env m) = some (s₁, k)) :
    Inv env s₀ (s₁.setTask t k) := by
  have ht : t ≠ startTask := fun ht =>
    start_ne_monitor hw.booted.first m (ht ▸ htask)
  have hl : (s.task startTask).loads = true :=
    loads_of_task hw.booted ht (by rw [htask]; exact fun h => by cases h)
  obtain ⟨pc, rfl, hturn⟩ := monitor_turn hex
  -- in either case only the job of the monitor is concerned
  have hrest : s₁.tasks = s.tasks ∧ s₁.printers = s.printers ∧ s₁.shutdown = s.shutdown ∧
      Unsubmitted s₀ s₁ ∧ s.log <+: s₁.log ∧ ∀ id, id ≠ m.jobId →
        s₁.repo.lookup id = s.repo.lookup id ∧ s₁.active.lookup id = s.active.lookup id := by
    rcases hturn with ⟨rfl, -⟩ | ⟨state, cancelling, rfl⟩
    · exact ⟨rfl, rfl, rfl, h.unsubmitted, List.prefix_refl _, fun _ _ => ⟨rfl, rfl⟩⟩
    · exact ⟨tasks_mutate, printers_mutate.1, printers_mutate.2, h.unsubmitted.mutate, prefix_mutate,
        fun id hne => mutate_other hw hne⟩
  obtain ⟨htasks, hprinters, hrunning, hlog, hgrows, hother⟩ := hrest
  have hfrom : ∀ u, u ≠ t → (s₁.setTask t (.monitor { m with pc })).task u = s.task u := by
    intro u hu
    rw [task_setTask_of_ne _ _ hu, State.task, htasks]
    rfl
  have hstart := hfrom startTask ht.symm
  -- to other jobs this step does not exist
  have hsame : ∀ id, id ≠ m.jobId → SameFor s (s₁.setTask t (.monitor { m with pc })) id := by
    intro id hne
    refine ⟨(hother id hne).1, (hother id hne).2, fun u n hn => ?_, hgrows⟩
    by_cases hu : u = t
    · subst hu
      rw [task_setTask_self, htask]
      constructor
      · rintro ⟨⟩
        exact absurd hn.symm hne
      · rintro ⟨⟩
        exact absurd hn.symm hne
    · rw [hfrom u hu]
  constructor
  case kinds =>
    intro u
    by_cases hu : u = t
    · exact hu ▸ .inr (.inr ⟨_, task_setTask_self ..⟩)
    · rw [hfrom u hu]
      exact h.kinds u
  case watchable =>
    intro u n hn
    by_cases hu : u = t
    · subst hu
      rw [task_setTask_self] at hn
      obtain rfl := Task.monitor.inj hn
      exact h.watchable u m htask
    · rw [hfrom u hu] at hn
      exact h.watchable u n hn
  case registered => exact hprinters ▸ h.registered
  case running => exact hrunning.trans h.running
  case unsubmitted => exact hlog
  case early =>
    rw [hstart, hl]
    exact fun h => by cases h
  case closed =>
    intro id j hj hclosed
    have hwaiting := h.closed id j hj hclosed
    exact (hsame id fun hid => hwaiting.unwatched t m htask hid.symm).waiting hwaiting
  case waiting =>
    rw [hstart]
    intro j hj
    obtain ⟨hleft, hwaiting⟩ := h.waiting j hj
    exact ⟨hleft, (hsame _ fun hid => hwaiting.unwatched t m htask hid.symm).waiting hwaiting⟩
  case opened =>
    rw [hstart]
    intro j hj
    obtain ⟨hleft, hopened⟩ := h.opened j hj
    exact ⟨hleft, (hsame _ fun hid => hopened.unwatched t m htask hid.symm).opened hopened⟩
  case distinct =>
    rw [hstart]
    exact h.distinct
  case located =>
    rw [hstart]
    intro job printer rest hpc
    rw [h.located job printer rest hpc]
    exact congrArg _ (congrArg cachedPrinter hprinters.symm)
  case settled =>
    rw [hstart]
    intro _ j hj htodo htaken
    -- of the records dealt with only that of this monitor can change its fate
    have hfate := h.settled hl j hj htodo htaken
    by_cases hid : j.jobId = m.jobId
    · unfold Fate at hfate ⊢
      rw [show (s₁.setTask t (.monitor { m with pc })).printers = s.printers from hprinters]
      split at hfate
      · next printer spoolerJobId _ =>
        obtain ⟨t', pc', hmonitor, honly, ⟨k, hk, hspooled⟩, hrecord⟩ := hfate
        obtain rfl := honly t m htask hid.symm
        obtain rfl := Task.monitor.inj (htask.symm.trans hmonitor)
        refine ⟨t, pc, task_setTask_self .., fun u n hn hnid => ?_, ?_, ?_⟩
        · by_contra hu
          rw [hfrom u hu] at hn
          exact hu (honly u n hn hnid)
        · rcases hturn with ⟨rfl, -⟩ | ⟨state, cancelling, rfl⟩
          · exact ⟨k, hk, hspooled⟩
          · exact spooled_observed hw hagree hreliable hk hspooled
        · rcases hrecord with hreported | ⟨hstored, hactive, hpc⟩
          · obtain ⟨change, event, hmem⟩ := hreported
            exact .inl ⟨change, event, (hgrows.drop s₀.log.length).subset hmem⟩
          · rcases hturn with ⟨rfl, hdone⟩ | ⟨state, cancelling, rfl⟩
            · refine .inr ⟨hstored, hactive, fun hpc => ?_⟩
              obtain ⟨provider, hok⟩ := h.watchable t _ htask
              -- the monitor stops for one of three reasons, and none of them holds here
              rcases hdone hpc with hnone | hdown | hnone
              · exact hnone provider hok
              · rw [h.running] at hdown
                cases hdown
              · cases hnone.symm.trans hactive
            · exact .inl (reported_mutate h.unsubmitted hactive)
      · exact absurd hid.symm (hfate.unwatched t m htask)
      · exact hfate
    · exact (hsame _ hid).fate hprinters hfate

/-! ### The start routine -/

/-- The records that can be read are the open records of the crashed engine. -/
theorem Inv.load (h : Inv env s₀ s) (hw : Wf s) (hpc : s.task startTask = .start .load)
    (hstart : s'.task startTask = .start (.reconcile s.repo.nonTerminal))
    (htask : ∀ t, t ≠ startTask → s'.task t = s.task t) (hactive : s'.active = s.active)
    (hrepo : s'.repo = s.repo) (hlog : s'.log = s.log) (hprinters : s'.printers = s.printers)
    (hrunning : s'.shutdown = s.shutdown) : Inv env s₀ s' := by
  have hl : (s.task startTask).loads = false := by
    rw [hpc]
    rfl
  have hearly := h.early hl
  -- before the load there is only the start routine, and no active record
  obtain ⟨halone, hnone⟩ := hw.booted.alone hl
  have hunwatched : ∀ t m, s'.task t ≠ .monitor m := by
    intro t m hm
    by_cases ht : t = startTask
    · rw [ht, hstart] at hm
      cases hm
    · rw [htask t ht, halone t ht] at hm
      cases hm
  have hwaiting : ∀ id j, s₀.repo.lookup id = some j → Waiting s' id j := by
    refine fun id j hj => ⟨?_, ?_, fun t m hm => absurd hm (hunwatched t m)⟩
    · rw [hrepo, hearly, hj]
    · rw [hactive, hnone]
  have hjobId : ∀ id j, s₀.repo.lookup id = some j → j.jobId = id := fun id j hj =>
    (hw.inv.storedId id j (by rw [← hearly] at hj; exact hj)).1
  -- what it reads are exactly the open records the crash left
  have hmem : ∀ j, j ∈ s.repo.nonTerminal ↔ Left s₀ j := by
    intro j
    rw [JobRepository.nonTerminal, List.mem_filter, FinMap.mem_values, hearly]
    constructor
    · rintro ⟨⟨id, hj⟩, hopen⟩
      exact ⟨hjobId id j hj ▸ hj, by simpa using hopen⟩
    · rintro ⟨hj, hopen⟩
      exact ⟨⟨_, hj⟩, by simpa using hopen⟩
  constructor
  case kinds =>
    intro t
    by_cases ht : t = startTask
    · exact ht ▸ .inr (.inl ⟨_, hstart⟩)
    · exact .inl ((htask t ht).trans (halone t ht))
  case watchable => exact fun t m hm => absurd hm (hunwatched t m)
  case registered => exact hprinters ▸ h.registered
  case running => exact hrunning.trans h.running
  case unsubmitted =>
    obtain ⟨new, hnew⟩ := h.unsubmitted
    exact ⟨new, by rwa [hlog]⟩
  case early =>
    rw [hstart]
    exact fun h => by cases h
  case closed => exact fun id j hj _ => hwaiting id j hj
  case waiting =>
    rw [hstart]
    intro j hj
    have hleft := (hmem j).mp hj
    exact ⟨hleft, hwaiting _ j hleft.1⟩
  case opened =>
    rw [hstart]
    exact fun j hj => by cases hj
  case distinct =>
    rw [hstart]
    have hvalues : s.repo.values.Nodup := by
      refine List.Nodup.of_map (·.jobId) (FinMap.nodup_map_values fun id j hj => ?_)
      exact (hw.inv.storedId id j hj).1
    exact hvalues.filter _
  case located =>
    rw [hstart]
    exact fun job printer rest h => by cases h
  case settled =>
    rw [hstart]
    exact fun _ j hj htodo _ => absurd ((hmem j).mpr hj) htodo

/-- The start routine turns to the next record. -/
theorem Inv.turnTo (h : Inv env s₀ s) {jobs : List Job} {n : ℕ} (hn : n < jobs.length)
    (hpc : s.task startTask = .start (.reconcile jobs))
    (hstart : s'.task startTask = .start (.locate jobs[n] (jobs.eraseIdx n)))
    (htask : ∀ t, t ≠ startTask → s'.task t = s.task t)
    (hactive : s'.active = s.active.insert jobs[n].jobId jobs[n])
    (hrepo : s'.repo = s.repo) (hlog : s'.log = s.log) (hprinters : s'.printers = s.printers)
    (hrunning : s'.shutdown = s.shutdown) : Inv env s₀ s' := by
  -- the record is taken out of those to do, in whatever order the map gives
  have hperm : (jobs[n] :: jobs.eraseIdx n).Perm jobs := List.getElem_cons_eraseIdx_perm hn
  have hnodup : (jobs[n] :: jobs.eraseIdx n).Nodup := by
    have hdistinct := h.distinct
    rw [hpc] at hdistinct
    exact hperm.nodup_iff.mpr hdistinct
  have hmonitor : ∀ t m, s'.task t = .monitor m ↔ s.task t = .monitor m := by
    intro t m
    by_cases ht : t = startTask
    · rw [ht, hstart, hpc]
      exact ⟨(fun h => by cases h), (fun h => by cases h)⟩
    · rw [htask t ht]
  -- only the start routine and the active record of the job differ
  have hsame : ∀ id, id ≠ jobs[n].jobId → SameFor s s' id := by
    refine fun id hne => ⟨by rw [hrepo], ?_, fun t m _ => hmonitor t m, by rw [hlog]⟩
    rw [hactive, FinMap.lookup_insert_ite, if_neg hne]
  have hwaiting := h.waiting
  rw [hpc] at hwaiting
  obtain ⟨hleft, hstored, -, hunwatched⟩ := hwaiting jobs[n] (List.getElem_mem hn)
  constructor
  case kinds =>
    intro t
    by_cases ht : t = startTask
    · exact ht ▸ .inr (.inl ⟨_, hstart⟩)
    · exact htask t ht ▸ h.kinds t
  case watchable => exact fun t m hm => h.watchable t m ((hmonitor t m).mp hm)
  case registered => exact hprinters ▸ h.registered
  case running => exact hrunning.trans h.running
  case unsubmitted =>
    obtain ⟨new, hnew⟩ := h.unsubmitted
    exact ⟨new, by rwa [hlog]⟩
  case early =>
    rw [hstart]
    exact fun h => by cases h
  case closed =>
    intro id j hj hclosed
    refine (hsame id (hleft.ne hj ?_)).waiting (h.closed id j hj hclosed)
    rintro rfl
    cases hleft.2.symm.trans hclosed
  case waiting =>
    rw [hstart]
    intro j hj
    obtain ⟨hj', hw'⟩ := hwaiting j (hperm.subset (List.mem_cons_of_mem _ hj))
    have hne : j ≠ jobs[n] := fun he => (List.nodup_cons.mp hnodup).1 (he ▸ hj)
    exact ⟨hj', (hsame _ (hleft.ne hj'.1 hne)).waiting hw'⟩
  case opened =>
    rw [hstart]
    rintro j ⟨⟩
    refine ⟨hleft, ?_, ?_, fun t m hm => hunwatched t m ((hmonitor t m).mp hm)⟩
    · rw [hrepo, hstored]
    · rw [hactive, FinMap.lookup_insert_ite, if_pos rfl]
  case distinct =>
    rw [hstart]
    exact hnodup
  case located =>
    rw [hstart]
    exact fun job printer rest h => by cases h
  case settled =>
    rw [hstart]
    intro _ j hj htodo htaken
    have hne : j ≠ jobs[n] := fun he => htaken (he ▸ rfl)
    refine (hsame _ (hleft.ne hj.1 hne)).fate hprinters (h.settled (by rw [hpc]; rfl) j hj ?_ ?_)
    · rw [hpc]
      intro hmem
      rcases List.mem_cons.mp (hperm.symm.subset hmem) with rfl | hmem
      · exact hne rfl
      · exact htodo hmem
    · rw [hpc]
      exact fun h => by cases h

/-- The start routine settles a record, which may start its monitor. -/
theorem Inv.settles (h : Inv env s₀ s) {job : Job} {printer : Option Printer} {rest : List Job}
    (hpc : s.task startTask = .start (.settle job printer rest))
    (hstart : s'.task startTask = .start (.reconcile rest))
    (htask : ∀ t, t ≠ startTask → s'.task t = s.task t ∨ s.task t = .none ∧
      ∃ p ∈ s.printers, ∃ spoolerJobId, s'.task t = .monitor ⟨job.jobId, p, spoolerJobId, .spawned⟩)
    (hother : ∀ id, id ≠ job.jobId →
      s'.repo.lookup id = s.repo.lookup id ∧ s'.active.lookup id = s.active.lookup id)
    (hprinters : s'.printers = s.printers) (hrunning : s'.shutdown = s.shutdown)
    (hlog : Unsubmitted s₀ s') (hgrows : s.log <+: s'.log) (hfate : Fate s₀ s' job.jobId job) :
    Inv env s₀ s' := by
  -- only the record that is settled and the new monitor differ
  have hsame : ∀ id, id ≠ job.jobId → SameFor s s' id := by
    refine fun id hne => ⟨(hother id hne).1, (hother id hne).2, fun t m hm => ?_, hgrows⟩
    by_cases ht : t = startTask
    · rw [ht, hstart, hpc]
      exact ⟨(fun h => by cases h), (fun h => by cases h)⟩
    · rcases htask t ht with hsame | ⟨hnone, p, -, spoolerJobId, hnew⟩
      · rw [hsame]
      · rw [hnone, hnew]
        constructor
        · rintro ⟨⟩
          exact absurd hm.symm hne
        · exact fun h => by cases h
  have hopened := h.opened
  rw [hpc] at hopened
  obtain ⟨hleft, -⟩ := hopened job rfl
  have hdistinct := h.distinct
  rw [hpc] at hdistinct
  have hnodup : (job :: rest).Nodup := hdistinct
  constructor
  case kinds =>
    intro t
    by_cases ht : t = startTask
    · exact ht ▸ .inr (.inl ⟨_, hstart⟩)
    · rcases htask t ht with hsame | ⟨-, p, -, spoolerJobId, hnew⟩
      · exact hsame ▸ h.kinds t
      · exact .inr (.inr ⟨_, hnew⟩)
  case watchable =>
    intro t m hm
    by_cases ht : t = startTask
    · rw [ht, hstart] at hm
      cases hm
    · rcases htask t ht with hsame | ⟨-, p, hp, spoolerJobId, hnew⟩
      · exact h.watchable t m (hsame ▸ hm)
      · obtain rfl := Task.monitor.inj (hnew.symm.trans hm)
        exact h.registered p hp
  case registered => exact hprinters ▸ h.registered
  case running => exact hrunning.trans h.running
  case unsubmitted => exact hlog
  case early =>
    rw [hstart]
    exact fun h => by cases h
  case closed =>
    intro id j hj hclosed
    refine (hsame id (hleft.ne hj ?_)).waiting (h.closed id j hj hclosed)
    rintro rfl
    cases hleft.2.symm.trans hclosed
  case waiting =>
    rw [hstart]
    intro j hj
    obtain ⟨hj', hw'⟩ := h.waiting j (by rw [hpc]; exact hj)
    have hne : j ≠ job := fun he => (List.nodup_cons.mp hnodup).1 (he ▸ hj)
    exact ⟨hj', (hsame _ (hleft.ne hj'.1 hne)).waiting hw'⟩
  case opened =>
    rw [hstart]
    exact fun j hj => by cases hj
  case distinct =>
    rw [hstart]
    exact (List.nodup_cons.mp hnodup).2
  case located =>
    rw [hstart]
    exact fun job printer rest h => by cases h
  case settled =>
    rw [hstart]
    intro _ j hj htodo _
    -- the settled record joins the others, which keep their fates
    by_cases he : j = job
    · exact he ▸ hfate
    · refine (hsame _ (hleft.ne hj.1 he)).fate hprinters (h.settled (by rw [hpc]; rfl) j hj ?_ ?_)
      · rwa [hpc]
      · rw [hpc]
        exact fun h => he (Option.some.inj h).symm

/-- A step of the start routine that changes no task leaves the others where they are. -/
theorem task_of_start {k : Task} (h : s₁.tasks = s.tasks) {t : TaskId} (ht : t ≠ startTask) :
    (s₁.setTask startTask k).task t = s.task t := by
  rw [task_setTask_of_ne _ _ ht, State.task, h]
  rfl

/-- Discovery brings printers of registered providers, and touches no record. -/
theorem Inv.refreshes (h : Inv env s₀ s) (hw : Wf s) {inp : Input} {k : Task}
    (hregistered : registers env (.run startTask inp) = true)
    (hpc : s.task startTask = .start .refresh)
    (hex : exec env startTask .restart inp s (startCode inp .refresh) = some (s₁, k)) :
    Inv env s₀ (s₁.setTask startTask k) := by
  obtain ⟨rfl, rfl⟩ := Prod.mk.inj (Option.some.inj hex)
  have hself := task_setTask_self { s with printers := inp.discovered s } startTask (.start .load)
  refine h.frame hw (fun _ => task_of_start rfl) (.inr ⟨_, hself⟩) ?_ ?_ ?_ ?_ ?_ ?_ rfl rfl rfl rfl
  · rw [hself, hpc]
    rfl
  · rw [hself, hpc]
    rfl
  · rw [hself, hpc]
    rfl
  · rw [hself]
    exact fun _ _ _ h => by cases h
  · rw [hpc]
    exact fun h => by cases h
  · show ∀ p ∈ inp.discovered s, _
    unfold Input.discovered
    cases hfound : inp.refreshed with
    | none => exact h.registered
    | some printers =>
      have hall : (inp.refreshed.getD []).all _ = true := hregistered
      rw [hfound] at hall
      exact fun p hp => Except.exists_ok (List.all_eq_true.mp hall p hp)

/-- **A record that is to be watched** gets its monitor. -/
theorem Inv.watches (h : Inv env s₀ s) {job : Job} {printer : Option Printer} {rest : List Job}
    {found : Printer} {spoolerJobId : ℕ} {fresh : TaskId}
    (hpc : s.task startTask = .start (.settle job printer rest))
    (hwatch : reconciled job printer = .watch found spoolerJobId)
    (hfresh : (s.tasks.lookup fresh).isNone = true) :
    Inv env s₀ ((s.setTask fresh (.monitor ⟨job.jobId, found, spoolerJobId, .spawned⟩)).setTask
      startTask (.start (.reconcile rest))) := by
  have hopened := h.opened
  rw [hpc] at hopened
  obtain ⟨-, hopened⟩ := hopened job rfl
  have hlocated := h.located job printer rest hpc
  have hnone := task_eq_none hfresh
  have hne : fresh ≠ startTask := by
    rintro he
    rw [he, hpc] at hnone
    cases hnone
  -- the printer of the record comes from the cache, so its provider is registered
  have hmem : found ∈ s.printers := by
    obtain ⟨-, -, hfound⟩ := reconciled_watch hwatch
    obtain ⟨id, -, hid⟩ := Option.bind_eq_some_iff.mp (hlocated.symm.trans hfound)
    exact List.mem_of_find?_eq_some hid
  refine h.settles hpc (task_setTask_self ..) (fun t ht => ?_) (fun _ _ => ⟨rfl, rfl⟩) rfl rfl
    h.unsubmitted (List.prefix_refl _) ?_
  · rw [task_setTask_of_ne _ _ ht, task_insert]
    split
    · next he => exact .inr ⟨he ▸ hnone, found, hmem, spoolerJobId, rfl⟩
    · exact .inl rfl
  · have hwatched : Watched s₀ ((s.setTask fresh (.monitor
        ⟨job.jobId, found, spoolerJobId, .spawned⟩)).setTask startTask
          (.start (.reconcile rest))) job.jobId job found spoolerJobId fresh .spawned := by
      refine ⟨?_, fun u m hm hid => ?_, ⟨job, hopened.stored, (reconciled_watch hwatch).1⟩,
        .inr ⟨hopened.stored, hopened.active, ?_⟩⟩
      · rw [task_setTask_of_ne _ _ hne, task_setTask_self]
      · by_contra hu
        rw [task_insert, task_insert, if_neg hu] at hm
        split at hm
        · cases hm
        · exact hopened.unwatched u m hm hid
      · exact fun h => by cases h
    exact Fate.of_watch (hlocated ▸ hwatch) hwatched

/-- **A record that is to be closed** is failed: an open record is not delivered, so it is never
completed. -/
theorem Inv.closes (h : Inv env s₀ s) (hw : Wf s) {inp : Input} {job : Job}
    {printer : Option Printer} {rest : List Job} {change : Change} (hreliable : inp.repoOk = true)
    (hpc : s.task startTask = .start (.settle job printer rest))
    (hclose : reconciled job printer = .close change) :
    Inv env s₀ ((s.mutate startTask .restart inp job.jobId change).1.setTask startTask
      (.start (.reconcile rest))) := by
  have hopened := h.opened
  rw [hpc] at hopened
  obtain ⟨hleft, hopened⟩ := hopened job rfl
  have hlocated := h.located job printer rest hpc
  have hsound := (hw.inv.active job.jobId job hopened.active).1
  rcases reconciled_close hclose with ⟨-, hdelivered⟩ | ⟨error, rfl, -⟩
  · exact absurd hdelivered (hsound.notDelivered hleft.2)
  have hclosed : ∀ j : Job, j.status.isTerminal = false →
      ((Change.fail error).apply inp.now j).1.status.isTerminal = true := by
    intro j hopen
    rw [Change.fail_status hopen]
    rfl
  refine h.settles hpc (task_setTask_self ..) (fun t ht => .inl (task_of_start tasks_mutate ht))
    (fun id hne => mutate_other hw hne) printers_mutate.1 printers_mutate.2
    h.unsubmitted.mutate prefix_mutate ?_
  refine Fate.of_fail ?_
    ⟨⟨_, stored_mutate_of_closes hw hopened.active hreliable (hclosed job hleft.2),
      Change.fail_status hleft.2 error, Change.fail_error hleft.2 error⟩,
      lookup_mutate_of_closes hw hclosed, fun t m hm => ?_⟩
  · show reconciled job (job.printerId.bind (cachedPrinter (State.mutate _ _ _ _ _ _).1.printers))
      = _
    rw [printers_mutate.1, ← hlocated, hclose]
  · by_cases ht : t = startTask
    · rw [ht, task_setTask_self] at hm
      cases hm
    · rw [task_of_start tasks_mutate ht] at hm
      exact hopened.unwatched t m hm

/-- **The start routine keeps the invariant.** -/
theorem Inv.start (h : Inv env s₀ s) (hw : Wf s) {inp : Input} {pc : StartPc} {k : Task}
    (hreliable : inp.repoOk = true) (hregistered : registers env (.run startTask inp) = true)
    (hpc : s.task startTask = .start pc)
    (hex : exec env startTask .restart inp s (startCode inp pc) = some (s₁, k)) :
    Inv env s₀ (s₁.setTask startTask k) := by
  have hself : (s₁.setTask startTask k).task startTask = k := task_setTask_self ..
  cases pc with
  | refresh => exact h.refreshes hw hregistered hpc hex
  | load =>
    obtain ⟨rfl, rfl⟩ := Prod.mk.inj (Option.some.inj hex)
    refine h.load hw hpc ?_ (fun _ => task_of_start rfl) rfl rfl rfl rfl rfl
    rw [hself, Input.call, if_pos hreliable]
  | reconcile jobs =>
    cases jobs with
    | nil =>
      obtain ⟨rfl, rfl⟩ := Prod.mk.inj (Option.some.inj hex)
      refine h.frame hw (fun _ => task_of_start rfl) (.inr ⟨_, hself⟩) ?_ ?_ ?_ ?_ (fun _ => rfl)
        h.registered rfl rfl rfl rfl
      · rw [hself, hpc]
        rfl
      · rw [hself, hpc]
        rfl
      · rw [hself, hpc]
        rfl
      · rw [hself]
        exact fun _ _ _ h => by cases h
    | cons first rest =>
      simp only [startCode] at hex
      split at hex
      · next job hjob =>
        obtain ⟨hn, rfl⟩ := List.getElem?_eq_some_iff.mp hjob
        obtain ⟨rfl, rfl⟩ := Prod.mk.inj (Option.some.inj hex)
        exact h.turnTo hn hpc hself (fun _ => task_of_start rfl) rfl rfl (List.append_nil _) rfl rfl
      · cases hex
  | locate job rest =>
    obtain ⟨rfl, rfl⟩ := Prod.mk.inj (Option.some.inj hex)
    refine h.frame hw (fun _ => task_of_start rfl) (.inr ⟨_, hself⟩) ?_ ?_ ?_ ?_ (fun _ => rfl)
      h.registered rfl rfl rfl rfl
    · rw [hself, hpc]
      rfl
    · rw [hself, hpc]
      rfl
    · rw [hself, hpc]
      rfl
    · rw [hself]
      rintro _ _ _ ⟨⟩
      rfl
  | settle job printer rest =>
    simp only [startCode] at hex
    split at hex
    · next found spoolerJobId hwatch =>
      simp only [exec] at hex
      split at hex
      · next hfresh =>
        obtain ⟨rfl, rfl⟩ := Prod.mk.inj (Option.some.inj hex)
        exact h.watches hpc hwatch hfresh
      · cases hex
    · next change hclose =>
      obtain ⟨rfl, rfl⟩ : (s.mutate startTask .restart inp job.jobId change).1 = s₁ ∧
          .start (.reconcile rest) = k := Prod.mk.inj (Option.some.inj hex)
      exact h.closes hw hreliable hpc hclose
  | failed => cases hex
  | done => cases hex

/-! ### Restarts -/

/-- **Every step of a restart keeps the invariant.** -/
theorem Inv.step (h : Inv env s₀ s) (hw : Wf s) (hagree : (ledger s).Agree) (hok : Booting env s a)
    (hs : step env s a = some s') : Inv env s₀ s' := by
  obtain ⟨hreliable, halive, hunstarted, hregistered⟩ := hok
  -- during `start` there are only the start routine and its monitors
  have hnoWorker : ∀ t call, s.call t ≠ some call := by
    intro t call hcall
    obtain ⟨printer, rx, pc, -, htask, -⟩ := call_eq_some hcall
    rcases h.kinds t with hk | ⟨pc', hk⟩ | ⟨m, hk⟩ <;> cases hk.symm.trans htask
  -- calls to the engine wait for `start`
  have hnoCall : ∀ (s₁ : State) t task, s₁.started = s.started → s₁.spawn t task ≠ some s' := by
    intro s₁ t task hsame hspawn
    cases hunstarted.symm.trans (hsame.symm.trans (spawn_eq_some hspawn).1)
  cases a with
  | start =>
    obtain ⟨hempty, rfl⟩ := Runs.of_guarded hs
    have hnone : s.task startTask = .none := by
      have hent : s.tasks.entries = [] := by simpa using hempty
      rw [State.task, AList.lookup, hent]
      rfl
    refine h.frame hw (fun t ht => task_setTask_of_ne _ _ ht) (.inr ⟨_, task_setTask_self ..⟩) ?_ ?_
      ?_ ?_ (fun _ => rfl) h.registered rfl rfl rfl rfl
    · rw [task_setTask_self, hnone]
      rfl
    · rw [task_setTask_self, hnone]
      rfl
    · rw [task_setTask_self, hnone]
      rfl
    · rw [task_setTask_self]
      exact fun _ _ _ h => by cases h
  | submit t who request now =>
    have hs' : beginSubmit s t who request now = some s' := hs
    unfold beginSubmit at hs'
    split at hs'
    · exact absurd hs' (hnoCall s t _ rfl)
    · exact absurd hs' (hnoCall _ t _ rfl)
  | cancel t id => exact absurd hs (hnoCall s t _ rfl)
  | shutdown t => exact absurd hs (hnoCall s t _ rfl)
  | run t inp =>
    rcases runTask_eq hs with ⟨e, rfl⟩ | ⟨-, s₁, k, hex, rfl⟩
    · exact h.frame hw (fun _ _ => rfl) hw.booted.first rfl rfl rfl h.located (fun _ => rfl)
        h.registered rfl rfl rfl rfl
    · rcases h.kinds t with hnone | ⟨pc, hpc⟩ | ⟨m, hm⟩
      · rw [hnone] at hex
        cases hex
      · obtain rfl := hw.booted.only t pc hpc
        rw [hpc] at hex
        exact h.start hw hreliable hregistered hpc hex
      · rw [hm] at hex
        exact h.monitor hw hagree hreliable hm hex
  | invoke t | finish t result =>
    obtain ⟨call, hcall, -⟩ := Option.bind_eq_some_iff.mp hs
    exact absurd hcall (hnoWorker t call)
  | drop t =>
    obtain ⟨hawaits, -⟩ := Runs.of_guarded hs
    obtain ⟨who, request, pc, htask⟩ := submit_of_awaits hawaits
    rcases h.kinds t with hk | ⟨pc', hk⟩ | ⟨m, hk⟩ <;> cases hk.symm.trans htask
  | discover printers | purge cutoff =>
    obtain ⟨hstarted, -⟩ := Runs.of_guarded hs
    cases hunstarted.symm.trans hstarted
  | retire id =>
    obtain ⟨-, rfl⟩ := Runs.of_guarded hs
    exact h.frame hw (fun _ _ => rfl) hw.booted.first rfl rfl rfl h.located (fun _ => rfl)
      h.registered rfl rfl rfl rfl
  | crash => exact absurd rfl halive

/-- A crash leaves the records, and no task. -/
theorem Inv.crashed (env : Env) (s₀ : State) : Inv env s₀ s₀.crashed where
  kinds _ := .inl rfl
  watchable _ _ h := by cases h
  registered _ h := by cases h
  running := rfl
  unsubmitted := ⟨[.crashed], rfl, fun e he _ _ => by
    obtain rfl := List.mem_singleton.mp he
    exact fun h => by cases h⟩
  early _ := rfl
  closed _ _ hj _ := ⟨hj, rfl, fun _ _ h => by cases h⟩
  waiting _ h := by cases h
  opened _ h := by cases h
  distinct := List.nodup_nil
  located _ _ _ h := by cases h
  settled h := by cases h

/-- The invariant, over a run and a restart. -/
theorem inv_of_reach (h : Reach (step env) Reliable init s₀)
    (hboot : Reach (step env) (Booting env) s₀.crashed s) :
    Reach (step env) Reliable init s ∧ Inv env s₀ s := by
  have hcrash : Reach (step env) Reliable init s₀.crashed := h.tail (a := .crash) rfl rfl
  refine hboot.invariant (I := fun s => Reach (step env) Reliable init s ∧ Inv env s₀ s)
    ⟨hcrash, .crashed env s₀⟩ ?_
  rintro s a s' - ⟨hreach, hinv⟩ hok hs
  exact ⟨hreach.tail hok.reliable hs, hinv.step (wf_of_reach hreach) (agree_of_reach hreach) hok hs⟩

/-- The record was failed with an outcome, and nothing watches it. -/
structure FailedAs (s : State) (id : JobId) (outcome : String) : Prop where
  stored : ∃ k error, s.repo.lookup id = some k ∧ k.status = .failed ∧ k.error = some error ∧
    error.outcome = some outcome
  inactive : s.active.lookup id = none
  unwatched : Unwatched s id

theorem Failed.failedAs {error : PrintError} {outcome : String} (h : Failed s id j error)
    (houtcome : error.outcome = some outcome) : FailedAs s id outcome := by
  obtain ⟨⟨k, hk, hstatus, herror⟩, hinactive, hunwatched⟩ := h
  exact ⟨⟨k, _, hk, hstatus, herror, by rw [Job.outcome_annotate, houtcome]⟩, hinactive, hunwatched⟩

/-- When `start` has returned, every open record has met its fate. -/
theorem Inv.fate (h : Inv env s₀ s) (hstarted : s.started = true) (hj : Left s₀ j) :
    Fate s₀ s j.jobId j := by
  have hdone := started_eq_true.mp hstarted
  refine h.settled (by rw [hdone]; rfl) j hj ?_ ?_
  · rw [hdone]
    exact List.not_mem_nil
  · rw [hdone]
    exact fun h => by cases h

end Restart

open Restart in
/-- **Restart reconciliation.**  From any crash of a run whose repository calls succeed, the next
start leaves closed records as they are and submits nothing.  An open record is failed as not
printed if it never left the agent; as unknown if it was being handed over, or if its printer is no
longer cached; and is otherwise watched, by exactly one monitor. -/
theorem restart_reconciles {env : Env} {s₀ s : State} (h : Reach (step env) Reliable init s₀)
    (hboot : Reach (step env) (Booting env) s₀.crashed s) (hstarted : s.started = true) :
    (∀ id j, s₀.repo.lookup id = some j → j.status.isTerminal = true →
      s.repo.lookup id = some j) ∧
    (∀ id printer, .invoked id printer ∉ s.log.drop s₀.log.length) ∧
    ∀ id j, s₀.repo.lookup id = some j → j.status.isTerminal = false →
      (j.delivery = .requestAccepted ∧ FailedAs s id "NOT_PRINTED") ∨
      (j.delivery = .submitting ∧ FailedAs s id "UNKNOWN") ∨
      (j.delivery = .spoolerAccepted ∧ j.printerId.bind (cachedPrinter s.printers) = none ∧
        FailedAs s id "UNKNOWN") ∨
      ∃ printer spoolerJobId t pc, j.delivery = .spoolerAccepted ∧
        j.printerId.bind (cachedPrinter s.printers) = some printer ∧
        j.spoolerJobId = some spoolerJobId ∧ Watched s₀ s id j printer spoolerJobId t pc := by
  obtain ⟨-, hinv⟩ := inv_of_reach h hboot
  refine ⟨fun id j hj hclosed => (hinv.closed id j hj hclosed).stored, ?_, ?_⟩
  · obtain ⟨new, hlog, hnew⟩ := hinv.unsubmitted
    rw [hlog, List.drop_left]
    exact fun id printer hmem => hnew _ hmem id printer rfl
  · intro id j hj hopen
    have hsound := (wf_of_reach h).inv.stored id j hj
    obtain rfl : j.jobId = id := ((wf_of_reach h).inv.storedId id j hj).1
    have hfate := hinv.fate hstarted ⟨hj, hopen⟩
    cases hdelivery : j.delivery with
    | requestAccepted =>
      have hclose : reconciled j (j.printerId.bind (cachedPrinter s.printers)) =
          .close (.fail restartError) := by
        unfold reconciled
        rw [hdelivery]
      exact .inl ⟨rfl, (hfate.failed hclose).failedAs rfl⟩
    | submitting =>
      have hclose : reconciled j (j.printerId.bind (cachedPrinter s.printers)) =
          .close (.fail interruptedError) := by
        unfold reconciled
        rw [hdelivery]
      exact .inr (.inl ⟨rfl, (hfate.failed hclose).failedAs rfl⟩)
    | spoolerAccepted =>
      obtain ⟨spoolerJobId, hspooler⟩ :=
        Option.isSome_iff_exists.mp (hsound.spoolerJobId.mpr hdelivery)
      cases hcached : j.printerId.bind (cachedPrinter s.printers) with
      | none =>
        have hclose : reconciled j (j.printerId.bind (cachedPrinter s.printers)) =
            .close (.fail printerGoneError) := by
          unfold reconciled
          rw [hcached, hdelivery, hspooler]
        exact .inr (.inr (.inl ⟨rfl, rfl, (hfate.failed hclose).failedAs rfl⟩))
      | some printer =>
        have hwatch : reconciled j (j.printerId.bind (cachedPrinter s.printers)) =
            .watch printer spoolerJobId := by
          unfold reconciled
          rw [hcached, hdelivery, hspooler]
        obtain ⟨t, pc, hwatched⟩ := hfate.watched hwatch
        exact .inr (.inr (.inr ⟨printer, spoolerJobId, t, pc, rfl, rfl, hspooler, hwatched⟩))
    | deviceDelivered => exact absurd hdelivery (hsound.notDelivered hopen)

namespace Restart

instance (a : Action) : Decidable (a ≠ .crash) :=
  match a with
  | .crash => isFalse fun h => h rfl
  | .start | .submit .. | .cancel .. | .shutdown _ | .run .. | .invoke _ | .finish .. | .drop _
  | .discover _ | .purge _ | .retire _ => isTrue nofun

instance (env : Env) (s : State) (a : Action) : Decidable (Booting env s a) :=
  decidable_of_iff
    (a.reliable = true ∧ a ≠ .crash ∧ s.started = false ∧ registers env a = true)
    ⟨fun ⟨h₁, h₂, h₃, h₄⟩ => ⟨h₁, h₂, h₃, h₄⟩, fun ⟨h₁, h₂, h₃, h₄⟩ => ⟨h₁, h₂, h₃, h₄⟩⟩

/-- A restart that finds the desk printer and one record. -/
def rebooting : List Action :=
  [.start, .run startTask { refreshed := some [deskPrinter] }] ++
    List.replicate 3 (.run startTask {}) ++ [.run startTask { fresh := 5 }, .run startTask {}]

/-- The state after the restart. -/
def rebooted : State := (runFrom (step desk) (after spoolingRun).crashed rebooting).getD init

theorem reach_rebooted :
    Reach (step desk) (Booting desk) (after spoolingRun).crashed rebooted := by
  have hsome : (checked (step desk) (fun s a => decide (Booting desk s a))
      (after spoolingRun).crashed rebooting).isSome = true := by decide +kernel
  obtain ⟨s, hs⟩ := Option.isSome_iff_exists.mp hsome
  have hrebooted : rebooted = s := by rw [rebooted, runFrom_of_checked hs]; rfl
  rw [hrebooted]
  exact reach_of_checked (fun s a => of_decide_eq_true) hs

end Restart

open Restart in
/-- The record of a spooled job is watched again. -/
theorem restart_reconciles_spooled : ∃ j printer spoolerJobId t pc,
    (after spoolingRun).repo.lookup 0 = some j ∧
      Watched (after spoolingRun) rebooted 0 j printer spoolerJobId t pc := by
  have hstored := (Option.some_get (x := (after spoolingRun).repo.lookup 0) (by decide +kernel)).symm
  obtain ⟨-, -, hopen⟩ := restart_reconciles (reach_after Reliable spoolingRun (by decide +kernel))
    reach_rebooted (by decide +kernel)
  rcases hopen 0 _ hstored (by decide +kernel) with
    ⟨hdelivery, -⟩ | ⟨hdelivery, -⟩ | ⟨-, hnone, -⟩ | ⟨printer, spoolerJobId, t, pc, -, -, -, hwatched⟩
  · exact absurd hdelivery (by decide +kernel)
  · exact absurd hdelivery (by decide +kernel)
  · exact absurd hnone (by decide +kernel)
  · exact ⟨_, printer, spoolerJobId, t, pc, hstored, hwatched⟩

end KilnPrint
