/-
Every step of the engine is a move of the ledger: the routines.

One theorem per routine, by cases on the point it has reached:
`submit_refines`, `worker_refines`, `monitor_refines`, `cancel_refines`,
`shutdown_refines`, `start_refines`.  Most points are silent and fall to
`run_silent`; the operations that create a record, pass an item on or spawn a
monitor have a rule of their own here.
-/
import KilnPrint.Engine.Refine

namespace KilnPrint

open Custody

variable {env : Env} {s s₁ : State} {t : TaskId} {inp : Input} {k : Task}

/-! ### Small trades -/

namespace SilentTrade

variable {l : Ledger} {id : JobId} {σ : Stage} {R : List (JobId × Stage)}

theorem rfl' {H : List (JobId × Stage)} : SilentTrade l H H := .keep (.refl _)

/-- A submit call gives up on a job it still holds. -/
theorem refuse (hu : σ.unclaimed = true) (hσ : σ.unshared = false)
    (ha : ∀ j, σ.allows j → j.delivery = .requestAccepted) :
    SilentTrade l [(id, σ)] [(id, .refused)] :=
  .relabel (.refl _) (.refl _) hσ (fun _ => hu) (fun _ => Stage.uninvoked_of_unclaimed hu)
    (fun h => by cases h) rfl
    fun j _ _ hj => ha j hj

/-- A job in a stage that rules an active record out is given up. -/
theorem discard (hl : l.Inv) (hc : l.custody id = some σ) (hσ : σ.unshared = false)
    (ha : ∀ j, ¬ σ.allows j) : SilentTrade l [(id, σ)] [] :=
  .forget (.refl _) (.refl _) hσ fun j hj => absurd ((hl.fits id σ hc).allows j hj) (ha j)

end SilentTrade

theorem validating_delivery (j : Job) (h : Stage.validating.allows j) :
    j.delivery = .requestAccepted := h.2

theorem assigned_delivery (j : Job) (h : Stage.assigned.allows j) :
    j.delivery = .requestAccepted := h.2.1

/-! ### Creating a record -/

/-- The repository call that stores a draft. -/
theorem run_insert {who : Submitter} {request : PrintRequest} {job : Job}
    {f : Except PrintError Unit → Task} (hw : Wf s)
    (htask : s.task t = .submit who request (.insert job))
    (hold : (s.task t).holds = [(job.jobId, .draft job)])
    (hl : ∀ r, (f r).loads = (s.task t).loads)
    (hok : (f (.ok ())).holds = [(job.jobId, .stored job)])
    (herr : ∀ e, (f (.error e)).holds = [])
    (h : exec env t (s.task t).origin inp s (.insert job f) = some (s₁, k)) :
    ∃ mv, mv.Of s (.run t inp) ∧ s.Refines (s₁.setTask t k) mv := by
  obtain ⟨rfl, rfl⟩ : (if inp.repoOk then { s with repo := s.repo.insert job } else s) = s₁ ∧
      f (inp.call ()) = k := Prod.mk.inj (Option.some_inj.mp h)
  have hcust : (ledger s).custody job.jobId = some (.draft job) :=
    custody_of_holds hw.exclusive (by rw [hold]; exact List.mem_cons_self)
  cases hr : inp.repoOk with
  | false =>
    have hcall : inp.call () = .error .internal := by rw [Input.call, hr]; rfl
    rw [hcall]
    refine run_silent hw.exclusive (.refl s) (hl _) ?_
    rw [hold, herr]
    exact .discard hw.inv hcust rfl fun _ => id
  | true =>
    have hcall : inp.call () = .ok () := by rw [Input.call, hr]; rfl
    rw [hcall]
    obtain ⟨hx', heq⟩ := Trades.ledger_eq hw.exclusive
      (rfl : ({ s with repo := s.repo.insert job } : State).tasks = s.tasks)
      (hl _) (.replace (.of_eq hold) (.of_eq hok))
    refine ⟨.store job, ⟨t, inp, who, request, rfl, htask⟩, hx', ?_⟩
    have hled : ledger { s with repo := s.repo.insert job } =
        { ledger s with stored := Function.update (ledger s).stored job.jobId (some job) } :=
      Ledger.ext rfl (FinMap.lookup_insert_update ..) rfl rfl rfl rfl
    rw [if_pos rfl, heq, hled]
    exact .store hcust

/-- A stored record becomes active. -/
theorem run_announce {job : Job} {k' : Task} (hw : Wf s)
    (hold : (s.task t).holds = [(job.jobId, .stored job)])
    (hl : k'.loads = (s.task t).loads) (hk : k'.holds = [(job.jobId, .received)])
    (h : exec env t (s.task t).origin inp s (.activate job true k') = some (s₁, k)) :
    ∃ mv, mv.Of s (.run t inp) ∧ s.Refines (s₁.setTask t k) mv := by
  obtain ⟨rfl, rfl⟩ : s.activate t job true = s₁ ∧ k' = k :=
    Prod.mk.inj (Option.some_inj.mp h)
  have hcust : (ledger s).custody job.jobId = some (.stored job) :=
    custody_of_holds hw.exclusive (by rw [hold]; exact List.mem_cons_self)
  obtain ⟨hx', heq⟩ := Trades.ledger_eq hw.exclusive
    (rfl : (s.activate t job true).tasks = s.tasks) hl (.replace (.of_eq hold) (.of_eq hk))
  refine ⟨.announce job, (fun h => by cases h), hx', ?_⟩
  have hled : ledger (s.activate t job true) =
      { (ledger s).note (.created job) with
        active := Function.update (ledger s).active job.jobId (some job) } :=
    Ledger.ext (FinMap.lookup_insert_update ..) rfl rfl rfl rfl rfl
  rw [heq, hled]
  exact .announce hcust

/-! ### Passing a job on -/

/-- The sender of a channel; its worker is spawned with an empty channel. -/
theorem run_senderFor {printer : PrinterId} {f : TaskId → Task} (hw : Wf s)
    (hne : s.task t ≠ .none) (hl : ∀ w, (f w).loads = (s.task t).loads)
    (hf : ∀ w, (f w).holds = (s.task t).holds)
    (h : exec env t (s.task t).origin inp s (.senderFor printer f) = some (s₁, k)) :
    ∃ mv, mv.Of s (.run t inp) ∧ s.Refines (s₁.setTask t k) mv := by
  simp only [exec] at h
  split at h
  · obtain ⟨rfl, rfl⟩ := Prod.mk.inj (Option.some_inj.mp h)
    exact run_silent hw.exclusive (.refl s) (hl _) (.keep (.of_eq (hf _)))
  · split at h
    · next hfresh =>
      obtain ⟨rfl, rfl⟩ := Prod.mk.inj (Option.some_inj.mp h)
      have hnone := task_eq_none hfresh
      let w : Task := .worker { printerId := printer, rx := [], pc := .idle }
      let s₂ := { s with senders := s.senders.insert printer inp.fresh }.setTask inp.fresh w
      have hhold : holdings s₂ = holdings s := by
        refine (holdings_setTask (s := s) rfl inp.fresh w).trans ?_
        exact Function.update_eq_self_iff.mpr (by rw [holdings, hnone]; rfl)
      have htask : s₂.task t = s.task t :=
        task_setTask_of_ne _ _ fun he => hne (he ▸ hnone)
      have hled : ledger s₂ = ledger s := by
        refine Ledger.ext rfl rfl (congrArg custodyOf hhold) rfl ?_ rfl
        show (s₂.task startTask).loads = (s.task startTask).loads
        by_cases he : startTask = inp.fresh
        · rw [he, hnone, task_setTask_self]
          rfl
        · rw [task_setTask_of_ne _ _ he]
          rfl
      obtain ⟨hx', heq⟩ := Trades.ledger_eq (hhold ▸ hw.exclusive : Exclusive (holdings s₂)) rfl
        (htask ▸ hl inp.fresh) (.keep (.of_eq (htask ▸ hf inp.fresh)))
      refine ⟨.quiet, (fun h => by cases h), hx', ?_⟩
      rw [heq, Trade.apply, hled]
      exact .quiet
    · cases h

/-- The ledger after an item passed from task `t` to task `u`. -/
theorem ledger_transfer {u : TaskId} {id : JobId} {σ : Stage} {R : List (JobId × Stage)}
    (k' : Task) (σ' : Stage) (hw : Wf s) (hne : u ≠ t)
    (hA : (s.task t).holds.Perm ((id, σ) :: R)) (hL : k.holds.Perm R)
    (hM : k'.holds.Perm ((id, σ') :: (s.task u).holds))
    (hlt : k.loads = (s.task t).loads) (hlu : k'.loads = (s.task u).loads) :
    Exclusive (holdings ((s.setTask u k').setTask t k)) ∧
      ledger ((s.setTask u k').setTask t k) = (ledger s).hand id (some σ') := by
  obtain ⟨hx', hc⟩ := Custody.transfer (t := t) hw.exclusive hne hA hL hM
  have hhold : holdings ((s.setTask u k').setTask t k) =
      Function.update (Function.update (holdings s) u k'.holds) t k.holds := by
    rw [holdings_setTask rfl, holdings_setTask rfl]
  rw [hhold]
  refine ⟨hx', Ledger.ext rfl rfl ?_ rfl ?_ rfl⟩
  · show custodyOf (holdings ((s.setTask u k').setTask t k)) = _
    rw [hhold, hc]
    rfl
  · show (((s.setTask u k').setTask t k).task startTask).loads = (s.task startTask).loads
    rw [task_insert, task_insert]
    split
    · next he => rw [hlt, he]
    · split
      · next he => rw [hlu, he]
      · rfl

/-- A task hands a spooled job to a new monitor. -/
theorem run_spawnMonitor {id : JobId} {printer : Printer} {spoolerJobId : ℕ} {k' : Task}
    {σ : Stage} {R : List (JobId × Stage)} (hw : Wf s) (hne : s.task t ≠ .none)
    (hA : (s.task t).holds.Perm ((id, σ) :: R)) (hσ : σ.unshared = false)
    (hL : k'.holds.Perm R) (hl : k'.loads = (s.task t).loads)
    (hj : ∀ j, (ledger s).active id = some j → j.Sound → σ.allows j →
      (Stage.spooled spoolerJobId).allows j)
    (h : exec env t (s.task t).origin inp s (.spawnMonitor id printer spoolerJobId k') =
      some (s₁, k)) :
    ∃ mv, mv.Of s (.run t inp) ∧ s.Refines (s₁.setTask t k) mv := by
  simp only [exec] at h
  split at h
  · next hfresh =>
    obtain ⟨rfl, rfl⟩ := Prod.mk.inj (Option.some_inj.mp h)
    have hnone := task_eq_none hfresh
    have hnet : inp.fresh ≠ t := fun he => hne (he ▸ hnone)
    obtain ⟨hx', heq⟩ := ledger_transfer
      (.monitor { jobId := id, printer := printer, spoolerJobId := spoolerJobId, pc := .spawned })
      (.spooled spoolerJobId) hw hnet hA hL (by rw [hnone]; exact .refl _) hl (by rw [hnone]; rfl)
    refine ⟨.relabel id (.spooled spoolerJobId), (fun h => by cases h), hx', ?_⟩
    rw [heq]
    refine .relabel (custody_of_holds hw.exclusive (hA.mem_iff.mpr List.mem_cons_self)) hσ ?_ ?_ ?_
      rfl hj
    · rintro ⟨⟩
    · rintro ⟨⟩
    · rintro ⟨⟩
  · cases h

/-- A submit call puts its item into a channel. -/
theorem run_trySend {target : TaskId} {item : QueuedJob} {f : SendResult → Task} (hw : Wf s)
    (hsub : ∀ w, s.task t ≠ .worker w)
    (hold : (s.task t).holds = [(item.jobId, .queued)])
    (hl : ∀ r, (f r).loads = (s.task t).loads) (hok : (f .ok).holds = [])
    (hno : ∀ r, r ≠ .ok → (f r).holds = [(item.jobId, .refused)])
    (h : exec env t (s.task t).origin inp s (.trySend target item f) = some (s₁, k)) :
    ∃ mv, mv.Of s (.run t inp) ∧ s.Refines (s₁.setTask t k) mv := by
  have hrefuse : ∀ r, r ≠ .ok →
      ∃ mv, mv.Of s (.run t inp) ∧ s.Refines (s.setTask t (f r)) mv := by
    intro r hr
    refine run_silent hw.exclusive (.refl s) (hl r) ?_
    rw [hold, hno r hr]
    exact .refuse rfl rfl fun j hj => hj.2
  simp only [exec] at h
  split at h
  · next w htarget =>
    split at h
    · obtain ⟨rfl, rfl⟩ := Prod.mk.inj (Option.some_inj.mp h)
      exact hrefuse .closed (by decide)
    · split at h
      · obtain ⟨rfl, rfl⟩ := Prod.mk.inj (Option.some_inj.mp h)
        have hne : target ≠ t := fun he => hsub w (he ▸ htarget)
        let w' : Task := .worker { w with rx := w.rx ++ [item] }
        have hM : w'.holds.Perm ((item.jobId, .queued) :: (s.task target).holds) := by
          rw [htarget]
          show (w.pc.current ++ queuedItems (w.rx ++ [item])).Perm _
          rw [queuedItems, List.map_append, ← List.append_assoc]
          exact List.perm_append_comm
        obtain ⟨hx', heq⟩ := ledger_transfer w' .queued hw hne (.of_eq hold) (.of_eq hok) hM
          (hl .ok) (by rw [htarget]; rfl)
        have hcust := custody_of_holds hw.exclusive (hold ▸ List.mem_cons_self)
        have hself : (ledger s).hand item.jobId (some .queued) = ledger s := by
          refine Ledger.ext rfl rfl ?_ rfl rfl rfl
          exact Function.update_eq_self_iff.mpr hcust.symm
        refine ⟨.note (.sent item.jobId w.printerId), (fun h => by cases h), hx', ?_⟩
        have hnote : ledger ((((s.setTask target w').note (.sent item.jobId w.printerId))).setTask t
            (f .ok)) = (ledger ((s.setTask target w').setTask t (f .ok))).note
              (.sent item.jobId w.printerId) := rfl
        rw [hnote, heq, hself]
        exact .note trivial
      · obtain ⟨rfl, rfl⟩ := Prod.mk.inj (Option.some_inj.mp h)
        exact hrefuse .full (by decide)
  · obtain ⟨rfl, rfl⟩ := Prod.mk.inj (Option.some_inj.mp h)
    exact hrefuse .closed (by decide)

/-! ### `submit` -/

/-- A silent step of a submit call that still holds one job. -/
theorem run_submit {who : Submitter} {request : PrintRequest} {pc pc' : SubmitPc} (hw : Wf s)
    (htask : s.task t = .submit who request pc) (hsame : SameRecords s s₁)
    (htrade : SilentTrade (ledger s) pc.holds pc'.holds) :
    ∃ mv, mv.Of s (.run t inp) ∧ s.Refines (s₁.setTask t (.submit who request pc')) mv :=
  run_silent hw.exclusive hsame (by rw [htask]; rfl) (by rw [htask]; exact htrade)

/-- A submit call changes the record of the one job it holds. -/
theorem run_submit_mutate {who : Submitter} {request : PrintRequest} {pc : SubmitPc} {id : JobId}
    {ch : Change} {f : Option Mutated → SubmitPc} {σ : Stage} (σ' : Option Stage) (hw : Wf s)
    (htask : s.task t = .submit who request pc) (hpc : pc.holds = [(id, σ)])
    (hσ : σ.unshared = false) (ho : Task.origin (.submit who request pc) = σ.origin)
    (hsome : ∀ m, ∃ σ₁, σ.Hands ch σ₁ ∧ (f (some m)).holds = leftWith id [] σ₁)
    (hnone : (f none).holds = leftWith id [] σ') (hτ : ∀ τ, σ' = some τ →
      (τ.unclaimed = true → σ.unclaimed = true) ∧ (τ.uninvoked = true → σ.uninvoked = true) ∧
        (τ.held = true → σ.held = true) ∧ τ.carries = false)
    (h : exec env t (s.task t).origin inp s (.mutate id ch fun m => .submit who request (f m)) =
      some (s₁, k)) :
    ∃ mv, mv.Of s (.run t inp) ∧ s.Refines (s₁.setTask t k) mv := by
  have hholds : ∀ m, Task.holds (.submit who request (f m)) = (f m).holds := fun _ => rfl
  refine run_mutate (R := []) hw (.of_eq (by rw [htask]; exact hpc)) hσ (by rw [htask]; exact ho)
    (fun m => by rw [htask]; rfl) ?_ ⟨σ', hτ, .of_eq ((hholds none).trans hnone)⟩ h
  intro m
  obtain ⟨σ₁, hhands, hleft⟩ := hsome m
  exact ⟨σ₁, hhands, .of_eq ((hholds (some m)).trans hleft)⟩

section

variable {l : Ledger} {who : Submitter} {request : PrintRequest} {id : JobId} {printer : Printer}

/-! Each check of `prepare` passes the job on or refuses it. -/

theorem resolved_trade : SilentTrade l [(id, .validating)] (resolved who id printer).holds := by
  unfold resolved
  split
  · exact .rfl'
  · exact .refuse rfl rfl validating_delivery

theorem routed_trade : SilentTrade l [(id, .assigned)] (routed env request id printer).holds := by
  unfold routed
  split
  · exact .refuse rfl rfl assigned_delivery
  · split
    · split
      · exact .rfl'
      · exact .refuse rfl rfl assigned_delivery
    · exact .rfl'

theorem inspected_trade {panicked : Bool} :
    SilentTrade l [(id, .assigned)] (inspected env request id printer panicked).holds := by
  unfold inspected
  split
  · split
    · exact .refuse rfl rfl assigned_delivery
    · split
      · exact .refuse rfl rfl assigned_delivery
      · split
        · exact .rfl'
        · exact .refuse rfl rfl assigned_delivery
  · exact .rfl'

theorem rendered_trade {warnings : List String} {language : Option String}
    {result : Except PrintError PrintPayload} :
    SilentTrade l [(id, .assigned)] (rendered env id printer warnings language result).holds := by
  unfold rendered
  split
  · exact .refuse rfl rfl assigned_delivery
  · split
    · exact .rfl'
    · exact .refuse rfl rfl assigned_delivery

end

section

variable {who : Submitter} {request : PrintRequest}

/-- The key is looked up: a record under it, or an error, and the draft is thrown away. -/
theorem lookup_refines {job : Job} (hw : Wf s)
    (htask : s.task t = .submit who request (.lookup job))
    (h : exec env t (s.task t).origin inp s (submitCode env who request inp (.lookup job)) =
      some (s₁, k)) :
    ∃ mv, mv.Of s (.run t inp) ∧ s.Refines (s₁.setTask t k) mv := by
  have hcust : (ledger s).custody job.jobId = some (.draft job) :=
    custody_of_holds (t := t) hw.exclusive (by rw [htask]; exact List.mem_cons_self)
  have hdraft : SilentTrade (ledger s) [(job.jobId, .draft job)] [] :=
    .discard hw.inv hcust rfl fun _ => id
  obtain ⟨hsame, r, rfl⟩ := exec_silent h trivial
  cases r with
  | ok found =>
    cases found with
    | none => exact run_submit hw htask hsame .rfl'
    | some stored => exact run_submit hw htask hsame hdraft
  | error e => exact run_submit hw htask hsame hdraft

/-- The printer is looked for. -/
theorem resolve_refines {id : JobId} {again : Bool} (hw : Wf s)
    (htask : s.task t = .submit who request (.resolve id again))
    (h : exec env t (s.task t).origin inp s (submitCode env who request inp (.resolve id again)) =
      some (s₁, k)) :
    ∃ mv, mv.Of s (.run t inp) ∧ s.Refines (s₁.setTask t k) mv := by
  obtain ⟨hsame, printers, rfl⟩ := exec_silent h trivial
  dsimp only
  split
  · exact run_submit hw htask hsame resolved_trade
  · split
    · exact run_submit hw htask hsame (.refuse rfl rfl validating_delivery)
    · exact run_submit hw htask hsame .rfl'

/-- The record is read back: the job is cancelled by now, or its record cannot be read. -/
theorem stored_refines {id : JobId} {bytes : ℕ} (hw : Wf s)
    (htask : s.task t = .submit who request (.stored id bytes))
    (h : exec env t (s.task t).origin inp s (submitCode env who request inp (.stored id bytes)) =
      some (s₁, k)) :
    ∃ mv, mv.Of s (.run t inp) ∧ s.Refines (s₁.setTask t k) mv := by
  have hcust : (ledger s).custody id = some .gone :=
    custody_of_holds (t := t) hw.exclusive (by rw [htask]; exact List.mem_cons_self)
  have hrefuse : SilentTrade (ledger s) [(id, .gone)] [(id, .refused)] :=
    .refuse rfl rfl fun _ hj => hj.elim
  obtain ⟨hsame, r, rfl⟩ := exec_silent h trivial
  cases r with
  | ok found =>
    cases found with
    | none => exact run_submit hw htask hsame hrefuse
    | some job => exact run_submit hw htask hsame (.discard hw.inv hcust rfl fun _ hj => hj)
  | error e => exact run_submit hw htask hsame hrefuse

end

theorem submit_refines {who : Submitter} {request : PrintRequest} {pc : SubmitPc} (hw : Wf s)
    (htask : s.task t = .submit who request pc)
    (h : exec env t (s.task t).origin inp s (submitCode env who request inp pc) = some (s₁, k)) :
    ∃ mv, mv.Of s (.run t inp) ∧ s.Refines (s₁.setTask t k) mv := by
  have hloads : (s.task t).loads = false := by rw [htask]; rfl
  cases pc with
  | enter job =>
    obtain ⟨hsame, rfl⟩ := exec_silent h trivial
    refine run_submit hw htask hsame (.keep ?_)
    split <;> exact .refl _
  | lookup job => exact lookup_refines hw htask h
  -- from here on there is a record, which the routine refuses or hands on
  | insert job =>
    exact run_insert hw htask (by rw [htask]; rfl) (fun r => by rw [hloads]; cases r <;> rfl) rfl
      (fun _ => rfl) h
  | activate job => exact run_announce hw (by rw [htask]; rfl) (by rw [hloads]; rfl) rfl h
  | exit _ | leave _ | refreshing _ =>
    obtain ⟨hsame, rfl⟩ := exec_silent h trivial
    exact run_submit hw htask hsame .rfl'
  | existing _ | name _ _ _ _ _ =>
    obtain ⟨hsame, r, rfl⟩ := exec_silent h trivial
    exact run_submit hw htask hsame .rfl'
  | validate id =>
    refine run_submit_mutate (some .validating) hw htask rfl rfl rfl
      (fun m => ⟨_, .validate, rfl⟩) rfl ?_ h
    rintro τ ⟨⟩
    exact ⟨fun _ => rfl, fun _ => rfl, (fun h => by cases h), rfl⟩
  | check id =>
    simp only [submitCode] at h
    split at h <;> obtain ⟨hsame, rfl⟩ := exec_silent h trivial
    · exact run_submit hw htask hsame .rfl'
    · exact run_submit hw htask hsame (.refuse rfl rfl validating_delivery)
  | resolve id again => exact resolve_refines hw htask h
  | assign id printer =>
    refine run_submit_mutate (some .assigned) hw htask rfl rfl rfl
      (fun m => ⟨_, .assign _ _, rfl⟩) rfl ?_ h
    rintro τ ⟨⟩
    exact ⟨fun _ => rfl, fun _ => rfl, (fun h => by cases h), rfl⟩
  | route id printer =>
    obtain ⟨hsame, rfl⟩ := exec_silent h trivial
    exact run_submit hw htask hsame routed_trade
  | inspecting id printer =>
    obtain ⟨hsame, rfl⟩ := exec_silent h trivial
    exact run_submit hw htask hsame inspected_trade
  | render id printer warnings language =>
    simp only [submitCode] at h
    split at h <;> obtain ⟨hsame, rfl⟩ := exec_silent h trivial
    · exact run_submit hw htask hsame .rfl'
    · exact run_submit hw htask hsame (.refuse rfl rfl assigned_delivery)
  | rendering id printer warnings language =>
    obtain ⟨hsame, rfl⟩ := exec_silent h trivial
    exact run_submit hw htask hsame rendered_trade
  | reserve p =>
    obtain ⟨hsame, r, rfl⟩ := exec_silent h trivial
    cases r with
    | true => exact run_submit hw htask hsame .rfl'
    | false => exact run_submit hw htask hsame (.refuse rfl rfl assigned_delivery)
  | queue p =>
    have h' : exec env t (s.task t).origin inp s (.mutate p.jobId (.queue p.warnings p.language)
        fun m => .submit who request (m.elim (.stored p.jobId p.size) fun m => .sender p m.job)) =
        some (s₁, k) := by
      rw [← h]
      refine congrArg _ (congrArg _ (funext fun m => ?_))
      cases m <;> rfl
    refine run_submit_mutate (some .gone) hw htask rfl rfl rfl
      (fun m => ⟨_, .queue _ _, rfl⟩) rfl ?_ h'
    rintro τ ⟨⟩
    exact ⟨fun _ => rfl, fun _ => rfl, (fun h => by cases h), rfl⟩
  | stored id bytes => exact stored_refines hw htask h
  | sender p job =>
    exact run_senderFor hw (by rw [htask]; simp) (fun _ => by rw [hloads]; rfl)
      (fun _ => by rw [htask]; rfl) h
  | send p job target =>
    refine run_trySend hw (fun w => by rw [htask]; simp) (by rw [htask]; rfl)
      (fun r => by rw [hloads]; cases r <;> rfl) rfl (fun r hr => ?_) h
    cases r with
    | ok => exact absurd rfl hr
    | full => rfl
    | closed => rfl
  -- what could not be queued is settled as refused
  | release id bytes result =>
    obtain ⟨hsame, rfl⟩ := exec_silent h trivial
    cases result with
    | ok job => exact run_submit hw htask hsame .rfl'
    | error e => exact run_submit hw htask hsame .rfl'
  | settle id e =>
    exact run_submit_mutate none hw htask rfl rfl rfl (fun m => ⟨none, .refuse _, rfl⟩) rfl
      (fun τ h => by cases h) h
  | done result => simp [submitCode, exec] at h

/-! ### Workers -/

/-- Everything a task holds is lost with it. -/
theorem ledger_orphan {H : TaskId → List (JobId × Stage)} (hx : Exclusive (holdings s))
    (hH : H = Function.update (holdings s) t []) :
    Exclusive H ∧ custodyOf H = fun id =>
      if id ∈ keys (s.task t).holds then none else (ledger s).custody id := by
  obtain ⟨hx', hc⟩ := exchange (t := t) (L := []) (A := holdings s t) (B := []) (R := []) hx
    (by simp) (by simp) .nil (by simp)
  subst hH
  refine ⟨hx', funext fun id => Option.ext fun σ => ?_⟩
  rw [hc]
  show _ ↔ (if id ∈ keys (holdings s t) then none else custodyOf (holdings s) id) = some σ
  split <;> simp_all

/-- What a task holds is all that is said about custody of its jobs. -/
theorem unshared_of_held (hx : Exclusive (holdings s))
    (h : ∀ id σ, (id, σ) ∈ (s.task t).holds → σ.unshared = false) :
    ∀ id ∈ keys (s.task t).holds, ∀ σ, (ledger s).custody id = some σ → σ.unshared = false := by
  intro id hid σ hσ
  obtain ⟨τ, hτ⟩ := mem_keys.mp hid
  obtain rfl : σ = τ := Option.some_inj.mp (hσ.symm.trans (custody_of_holds hx hτ))
  exact h id σ hτ

/-- A silent step of a worker that trades what it is busy with and keeps its
channel. -/
theorem run_worker {printer : PrinterId} {rx : List QueuedJob} {pc pc' : WorkerPc} (hw : Wf s)
    (htask : s.task t = .worker ⟨printer, rx, pc⟩) (hsame : SameRecords s s₁)
    (htrade : SilentTrade (ledger s) (pc.current ++ queuedItems rx)
      (pc'.current ++ queuedItems rx)) :
    ∃ mv, mv.Of s (.run t inp) ∧ s.Refines (s₁.setTask t (.worker ⟨printer, rx, pc'⟩)) mv :=
  run_silent hw.exclusive hsame (by rw [htask]; rfl) (by rw [htask]; exact htrade)

/-- A worker mutates the job it is busy with. -/
theorem worker_mutate {printer : PrinterId} {rx : List QueuedJob} {pc : WorkerPc}
    {id : JobId} {σ : Stage} {ch : Change} {g : Option Mutated → Task}
    (f : Option Mutated → WorkerPc) (hg : ∀ m, g m = .worker ⟨printer, rx, f m⟩) (hw : Wf s)
    (htask : s.task t = .worker ⟨printer, rx, pc⟩) (hpc : pc.current = [(id, σ)])
    (ho : σ.origin = .worker)
    (hsome : ∀ m, ∃ σ', σ.Hands ch σ' ∧ (f (some m)).current = leftWith id [] σ')
    (hnone : ∃ σ' : Option Stage, (∀ τ, σ' = some τ →
        (τ.unclaimed = true → σ.unclaimed = true) ∧ (τ.uninvoked = true → σ.uninvoked = true) ∧
          (τ.held = true → σ.held = true) ∧ τ.carries = false) ∧ (f none).current = leftWith id [] σ')
    (h : exec env t (s.task t).origin inp s (.mutate id ch g) = some (s₁, k)) :
    ∃ mv, mv.Of s (.run t inp) ∧ s.Refines (s₁.setTask t k) mv := by
  obtain rfl : g = fun m => .worker ⟨printer, rx, f m⟩ := funext hg
  have hleft : ∀ σ', leftWith id (queuedItems rx) σ' = leftWith id [] σ' ++ queuedItems rx := by
    intro σ'
    cases σ' <;> rfl
  refine run_mutate (R := queuedItems rx) hw (.of_eq ?_) (Stage.unshared_of_worker ho)
    (by rw [htask, ho]; rfl) (fun m => by rw [htask]; rfl) (fun m => ?_) ?_ h
  · rw [htask]
    show pc.current ++ queuedItems rx = _
    rw [hpc]
    rfl
  · obtain ⟨σ', hh, hf⟩ := hsome m
    refine ⟨σ', hh, .of_eq ?_⟩
    show (f (some m)).current ++ queuedItems rx = _
    rw [hf, hleft]
  · obtain ⟨σ', hlabel, hf⟩ := hnone
    refine ⟨σ', hlabel, .of_eq ?_⟩
    show (f none).current ++ queuedItems rx = _
    rw [hf, hleft]

theorem worker_refines {w : Worker} (hw : Wf s) (htask : s.task t = .worker w)
    (h : exec env t (s.task t).origin inp s (workerCode env w inp) = some (s₁, k)) :
    ∃ mv, mv.Of s (.run t inp) ∧ s.Refines (s₁.setTask t k) mv := by
  obtain ⟨printer, rx, pc⟩ := w
  cases pc with
  | idle =>
    obtain ⟨hsame, shutdown, rfl⟩ := exec_silent h trivial
    refine run_worker hw htask hsame (.keep ?_)
    split <;> exact .refl _
  | polling =>
    cases rx with
    | nil =>
      obtain ⟨hsame, rfl⟩ := exec_silent h trivial
      exact run_worker hw htask hsame .rfl'
    | cons item rest =>
      obtain ⟨hsame, rfl⟩ := exec_silent h trivial
      exact run_silent hw.exclusive hsame (by rw [htask]; rfl) (by rw [htask]; exact .rfl')
  -- the channel is closed: what is left in it is lost, and stays with nobody
  | stopping =>
    obtain ⟨hsame, rfl⟩ := exec_silent h trivial
    obtain ⟨hx', hc⟩ := ledger_orphan hw.exclusive
      (holdings_setTask hsame.tasks t (.worker ⟨printer, [], .stopped⟩))
    have hlost : keys (s.task t).holds = s.abandoned (.run t inp) := by
      rw [State.abandoned, htask]
      exact List.map_map
    refine ⟨.orphan (keys (s.task t).holds), ⟨(fun h => by cases h), hlost⟩, hx', ?_⟩
    rw [ledger_setTask hsame.tasks (by rw [htask]; rfl) ((congrArg custodyOf
      (holdings_setTask hsame.tasks t _)).symm.trans hc), hsame.ledger_eq]
    refine .orphan _ (unshared_of_held hw.exclusive fun id σ hσ => ?_)
    rw [htask] at hσ
    obtain ⟨item, -, hitem⟩ := List.mem_map.mp hσ
    obtain ⟨-, rfl⟩ := Prod.mk.inj hitem
    rfl
  -- a job cancelled by now is not active, and its item is discarded
  | claim item =>
    refine worker_mutate (fun m => if m.isSome then .lookup item else .discard item.reservation)
      (fun m => ?_) hw htask rfl rfl (fun m => ⟨_, .claim, rfl⟩)
      ⟨none, (fun τ h => by cases h), rfl⟩ h
    cases m <;> rfl
  | lookup item =>
    obtain ⟨hsame, printers, rfl⟩ := exec_silent h trivial
    dsimp only
    split
    · exact run_worker hw htask hsame (.relabel (.refl _) (.refl _) rfl (fun hu => by cases hu)
        (fun _ => rfl) (fun _ => rfl) rfl fun _ _ _ hj => hj)
    · exact run_worker hw htask hsame .rfl'
  | failing item e =>
    exact worker_mutate _ (fun _ => rfl) hw htask rfl rfl (fun m => ⟨none, .giveUp _, rfl⟩)
      ⟨none, (fun τ h => by cases h), rfl⟩ h
  | discard bytes =>
    obtain ⟨hsame, rfl⟩ := exec_silent h trivial
    exact run_worker hw htask hsame .rfl'
  -- the deadline passes, or the provider has answered
  | calling call =>
    simp only [workerCode] at h
    split at h
    · refine worker_mutate _ (fun _ => rfl) hw htask rfl rfl (fun m => ⟨_, .expire _ _, rfl⟩)
        ⟨some (.expired call.invoked), ?_, rfl⟩ h
      rintro τ ⟨⟩
      -- whether the call had entered the provider is part of the stage
      refine ⟨fun hu => (by cases hu), fun hu => ?_, fun _ => rfl, rfl⟩
      cases hi : call.invoked <;> simp_all [Stage.uninvoked]
    · split at h
      · next result hphase =>
        cases result with
        | outcome outcome =>
          cases outcome with
          | spooled spoolerJobId =>
            refine worker_mutate _ (fun _ => rfl) hw htask rfl rfl (fun m => ⟨_, .spooled _ _, rfl⟩)
              ⟨some (.spooled spoolerJobId), ?_, rfl⟩ h
            rintro τ ⟨⟩
            exact ⟨fun hu => (by cases hu), fun hu => (by cases hu), fun hu => (by cases hu), rfl⟩
          | delivered =>
            exact worker_mutate _ (fun _ => rfl) hw htask rfl rfl (fun m => ⟨none, .delivered _, rfl⟩)
              ⟨none, (fun τ h => by cases h), rfl⟩ h
        | error e =>
          exact worker_mutate _ (fun _ => rfl) hw htask rfl rfl (fun m => ⟨none, .failed _ _, rfl⟩)
            ⟨none, (fun τ h => by cases h), rfl⟩ h
        | panicked =>
          exact worker_mutate _ (fun _ => rfl) hw htask rfl rfl (fun m => ⟨none, .failed _ _, rfl⟩)
            ⟨none, (fun τ h => by cases h), rfl⟩ h
      · simp [exec] at h
  -- a late answer changes nothing: no record is active at its stage
  | late call =>
    simp only [workerCode] at h
    split at h
    · obtain ⟨hsame, rfl⟩ := exec_silent h trivial
      have hmem : (call.jobId, Stage.expired call.invoked) ∈ (s.task t).holds := by
        rw [htask]
        exact List.mem_cons_self
      refine run_worker hw htask hsame (.forget (.refl _) (.refl _) rfl fun j hj => ?_)
      exact absurd ((hw.inv.fits _ _ (custody_of_holds hw.exclusive hmem)).allows j hj) not_false
    · simp [exec] at h
  | watch id printer spoolerJobId =>
    exact run_spawnMonitor (R := queuedItems rx) hw (by rw [htask]; simp)
      (.of_eq (by rw [htask]; rfl)) rfl (.refl _) (by rw [htask]; rfl) (fun _ _ _ hj => hj) h
  | stopped => simp [workerCode, exec] at h

/-! ### Monitors -/

/-- Every change a monitor applies is one it may apply. -/
theorem observed_observedChange (state : ProviderJobState) (cancelling : Bool) :
    (observedChange state cancelling).Observed := by
  cases state <;> cases cancelling <;> trivial

theorem monitor_refines {m : Monitor} (hw : Wf s) (htask : s.task t = .monitor m)
    (h : exec env t (s.task t).origin inp s (monitorCode env m) = some (s₁, k)) :
    ∃ mv, mv.Of s (.run t inp) ∧ s.Refines (s₁.setTask t k) mv := by
  obtain ⟨id, printer, spoolerJobId, pc⟩ := m
  have hloads : (s.task t).loads = false := by rw [htask]; rfl
  -- a monitor that ends gives up a job that left the agent
  have hgive : SilentTrade (ledger s) [(id, .spooled spoolerJobId)] [] ∨ pc = .done := by
    cases pc with
    | done => exact Or.inr rfl
    | _ =>
      left
      refine .forget (.refl _) (.refl _) rfl fun j hj => ?_
      have hmem : (id, Stage.spooled spoolerJobId) ∈ (s.task t).holds := by
        rw [htask]
        exact List.mem_cons_self
      rw [((hw.inv.fits _ _ (custody_of_holds hw.exclusive hmem)).allows j hj).1]
      decide
  cases pc with
  | spawned =>
    simp only [monitorCode] at h
    split at h <;> obtain ⟨hsame, rfl⟩ := exec_silent h trivial
    · exact run_silent hw.exclusive hsame (by rw [hloads]; rfl) (by rw [htask]; exact .rfl')
    · exact run_silent hw.exclusive hsame (by rw [hloads]; rfl)
        (by rw [htask]; exact hgive.resolve_right (by simp))
  | sleeping =>
    obtain ⟨hsame, shutdown, rfl⟩ := exec_silent h trivial
    cases shutdown with
    | false => exact run_silent hw.exclusive hsame (by rw [hloads]; rfl) (by rw [htask]; exact .rfl')
    | true =>
      exact run_silent hw.exclusive hsame (by rw [hloads]; rfl)
        (by rw [htask]; exact hgive.resolve_right (by simp))
  | check =>
    obtain ⟨hsame, job, rfl⟩ := exec_silent h trivial
    cases job with
    | some j => exact run_silent hw.exclusive hsame (by rw [hloads]; rfl) (by rw [htask]; exact .rfl')
    | none =>
      exact run_silent hw.exclusive hsame (by rw [hloads]; rfl)
        (by rw [htask]; exact hgive.resolve_right (by simp))
  | query =>
    obtain ⟨hsame, r, rfl⟩ := exec_silent h trivial
    refine run_silent hw.exclusive hsame (by rw [hloads]; cases r with
      | error e => rfl
      | ok state => cases state <;> rfl) ?_
    rw [htask]
    cases r with
    | error e => exact .rfl'
    | ok state => cases state <;> exact .rfl'
  | gone =>
    obtain ⟨hsame, cancelling, rfl⟩ := exec_silent h trivial
    exact run_silent hw.exclusive hsame (by rw [hloads]; rfl) (by rw [htask]; exact .rfl')
  | apply state cancelling =>
    refine run_mutate (R := []) hw (.of_eq (by rw [htask]; rfl)) rfl (by rw [htask]; rfl)
      (fun m => by rw [hloads]; rfl) (fun m => ?_) ⟨none, (fun τ h => by cases h), .refl _⟩ h
    have hobs := observed_observedChange state cancelling
    by_cases hterm : m.job.status.isTerminal
    · exact ⟨none, .finish _ hobs, by simp [afterApply, hterm, Task.holds, Monitor.holds, leftWith]⟩
    · exact ⟨_, .observe _ hobs, by simp [afterApply, hterm, Task.holds, Monitor.holds, leftWith]⟩
  | done => simp [monitorCode, exec] at h

/-! ### `cancel` and `shutdown` -/

/-- A silent step of a task that holds nothing. -/
theorem run_empty (hw : Wf s) (hold : (s.task t).holds = [])
    (hloads : (s.task t).loads = false) (hsame : SameRecords s s₁)
    (hk : k.holds = []) (hkl : k.loads = false) :
    ∃ mv, mv.Of s (.run t inp) ∧ s.Refines (s₁.setTask t k) mv :=
  run_silent hw.exclusive hsame (hkl.trans hloads.symm) (.keep (by rw [hk, hold]))

/-- The provider is asked to delete a spooler job. -/
theorem run_providerCancel {id : JobId} {f : Except PrintError Unit → Task} (hw : Wf s)
    (hold : (s.task t).holds = []) (hloads : (s.task t).loads = false)
    (hf : ∀ r, (f r).holds = []) (hfl : ∀ r, (f r).loads = false)
    (h : exec env t (s.task t).origin inp s (.providerCancel id f) = some (s₁, k)) :
    ∃ mv, mv.Of s (.run t inp) ∧ s.Refines (s₁.setTask t k) mv := by
  simp only [exec] at h
  split at h
  · split at h
    · obtain ⟨rfl, rfl⟩ := Prod.mk.inj (Option.some_inj.mp h)
      let s₂ := { s with spooler := s.spooler.insert id .deleted }.note (.deleted id)
      obtain ⟨hx', heq⟩ := Trades.ledger_eq hw.exclusive (rfl : s₂.tasks = s.tasks)
        ((hfl inp.cancelled).trans hloads.symm) (.keep (by rw [hold, hf]))
      refine ⟨.note (.deleted id), (fun h => by cases h), hx', ?_⟩
      rw [heq]
      exact .note trivial
    · obtain ⟨rfl, rfl⟩ := Prod.mk.inj (Option.some_inj.mp h)
      exact run_empty hw hold hloads (.refl s) (hf _) (hfl _)
  · obtain ⟨rfl, rfl⟩ := Prod.mk.inj (Option.some_inj.mp h)
    exact run_empty hw hold hloads (.refl s) (hf _) (hfl _)

theorem cancel_refines {id : JobId} {pc : CancelPc} (hw : Wf s)
    (htask : s.task t = .cancel id pc)
    (h : exec env t (s.task t).origin inp s (cancelCode env id pc) = some (s₁, k)) :
    ∃ mv, mv.Of s (.run t inp) ∧ s.Refines (s₁.setTask t k) mv := by
  have hold : (s.task t).holds = [] := by rw [htask]; rfl
  have hloads : (s.task t).loads = false := by rw [htask]; rfl
  have hsilent : ∀ {s₂ : State} {pc' : CancelPc}, SameRecords s s₂ →
      ∃ mv, mv.Of s (.run t inp) ∧ s.Refines (s₂.setTask t (.cancel id pc')) mv :=
    fun hsame => run_empty hw hold hloads hsame rfl rfl
  cases pc with
  | load | reload =>
    obtain ⟨hsame, r, rfl⟩ := exec_silent h trivial
    cases r <;> exact hsilent hsame
  | stored | restored =>
    obtain ⟨hsame, r, rfl⟩ := exec_silent h trivial
    cases r with
    | error e => exact hsilent hsame
    | ok found => cases found <;> exact hsilent hsame
  | cancelQueued =>
    exact run_foreign hw (by rw [htask]; exact .cancelQueued) hold (fun _ => by rw [htask]; rfl)
      (fun _ => rfl) (fun ho => by rw [htask] at ho; cases ho) h
  | resolve printerId spoolerJobId again =>
    obtain ⟨hsame, printers, rfl⟩ := exec_silent h trivial
    dsimp only
    split
    · split <;> exact hsilent hsame
    · split <;> exact hsilent hsame
  | refreshing printerId spoolerJobId | guard printer spoolerJobId =>
    obtain ⟨hsame, rfl⟩ := exec_silent h trivial
    exact hsilent hsame
  | deleting printer spoolerJobId =>
    exact run_providerCancel hw hold hloads (fun r => by cases r <;> rfl)
      (fun r => by cases r <;> rfl) h
  | settle =>
    exact run_foreign hw (by rw [htask]; exact .cancelSpooled) hold (fun _ => by rw [htask]; rfl)
      (fun _ => rfl) (fun ho => by rw [htask] at ho; cases ho) h
  | unguard result =>
    obtain ⟨hsame, rfl⟩ := exec_silent h trivial
    cases result with
    | error e => exact hsilent hsame
    | ok job => cases job <;> exact hsilent hsame
  | done result => simp [cancelCode, exec] at h

theorem shutdown_refines {pc : ShutdownPc} (hw : Wf s) (hp : s.pendingEvent t = none)
    (htask : s.task t = .shutdown pc)
    (h : exec env t (s.task t).origin inp s (shutdownCode inp pc) = some (s₁, k)) :
    ∃ mv, mv.Of s (.run t inp) ∧ s.Refines (s₁.setTask t k) mv := by
  have hold : (s.task t).holds = [] := by rw [htask]; rfl
  have hloads : (s.task t).loads = false := by rw [htask]; rfl
  cases pc with
  | cancel =>
    obtain ⟨hsame, rfl⟩ := exec_silent h trivial
    exact run_empty hw hold hloads hsame rfl rfl
  | snapshot =>
    obtain ⟨hsame, jobs, rfl⟩ := exec_silent h trivial
    exact run_empty hw hold hloads hsame rfl rfl
  | failing todo =>
    cases todo with
    | nil =>
      obtain ⟨hsame, rfl⟩ := exec_silent h trivial
      exact run_empty hw hold hloads hsame rfl rfl
    | cons id rest =>
      simp only [shutdownCode] at h
      split at h
      · next target htarget =>
        exact run_foreign hw (by rw [htask]; exact .shutdown) hold (fun _ => by rw [htask]; rfl)
          (fun _ => rfl) (fun _ => by rw [State.shutdownTarget, hp, htask]; exact htarget) h
      · simp [exec] at h
  | done => simp [shutdownCode, exec] at h

/-! ### `start` -/

/-- Taking any element out of the list of records to reconcile. -/
theorem unloadedJobs_perm {jobs : List Job} {i : ℕ} {job : Job} (h : jobs[i]? = some job) :
    (unloadedJobs jobs).Perm ((job.jobId, .unloaded job) :: unloadedJobs (jobs.eraseIdx i)) := by
  obtain ⟨hi, rfl⟩ := List.getElem?_eq_some_iff.mp h
  exact (List.getElem_cons_eraseIdx_perm hi).symm.map fun job => (job.jobId, Stage.unloaded job)

/-- Reconciliation reads the repository. -/
theorem run_load {f : Except PrintError (List Job) → Task} (hw : Wf s) (ht : t = startTask)
    (hold : (s.task t).holds = []) (hloads : (s.task t).loads = false)
    (hok : ∀ jobs, (f (.ok jobs)).holds = unloadedJobs jobs ∧ (f (.ok jobs)).loads = true)
    (herr : ∀ e, (f (.error e)).holds = [] ∧ (f (.error e)).loads = false)
    (h : exec env t (s.task t).origin inp s (.nonTerminal f) = some (s₁, k)) :
    ∃ mv, mv.Of s (.run t inp) ∧ s.Refines (s₁.setTask t k) mv := by
  obtain ⟨rfl, rfl⟩ : s = s₁ ∧ f (inp.call s.repo.nonTerminal) = k :=
    Prod.mk.inj (Option.some_inj.mp h)
  cases hr : inp.repoOk with
  | false =>
    have hcall : inp.call s.repo.nonTerminal = .error .internal := by rw [Input.call, hr]; rfl
    rw [hcall]
    exact run_empty hw hold hloads (.refl s) (herr _).1 (herr _).2
  | true =>
    have hcall : inp.call s.repo.nonTerminal = .ok s.repo.nonTerminal := by
      rw [Input.call, hr]; rfl
    rw [hcall]
    subst ht
    -- while the engine boots, no other task holds anything
    obtain ⟨halone, hactive⟩ := hw.booted.alone hloads
    have hempty : ∀ t, holdings s t = [] := by
      intro t
      by_cases he : t = startTask
      · rw [he]; exact hold
      · rw [holdings, halone t he]; rfl
    have hids : ∀ id j, s.repo.lookup id = some j → j.jobId = id :=
      fun id j hj => (hw.inv.storedId id j hj).1
    -- the open records are what the ledger hands out
    have hmem : ∀ job, job ∈ s.repo.nonTerminal ↔
        s.repo.lookup job.jobId = some job ∧ job.status.isTerminal = false := by
      intro job
      rw [JobRepository.nonTerminal, List.mem_filter, FinMap.mem_values]
      constructor
      · rintro ⟨⟨id, hid⟩, hopen⟩
        exact ⟨hids id job hid ▸ hid, by simpa using hopen⟩
      · rintro ⟨hid, hopen⟩
        exact ⟨⟨_, hid⟩, by simpa using hopen⟩
    have hnodup : (keys (unloadedJobs s.repo.nonTerminal)).Nodup := by
      rw [keys, unloadedJobs, List.map_map]
      exact (FinMap.nodup_map_values hids).sublist (List.filter_sublist.map _)
    obtain ⟨hx', hc⟩ := exchange (t := startTask) (L := (f (.ok s.repo.nonTerminal)).holds)
      (A := []) (B := unloadedJobs s.repo.nonTerminal) (R := []) hw.exclusive
      (by rw [hempty]; exact .refl _) (by rw [(hok _).1, List.append_nil]) hnodup
      fun id _ => Or.inr (custodyOf_nil hempty id)
    refine ⟨.load, (fun h => by cases h), ?_, ?_⟩
    · rw [holdings_setTask (s := s) rfl]
      exact hx'
    · have hled : ledger (s.setTask startTask (f (.ok s.repo.nonTerminal))) =
          { ledger s with
            custody := fun id => ((ledger s).openRecord id).map .unloaded, loaded := true } := by
        refine Ledger.ext rfl rfl ?_ rfl ?_ rfl
        · show custodyOf (holdings _) = _
          rw [holdings_setTask (s := s) rfl]
          refine funext fun id => Option.ext fun σ => ?_
          rw [hc, custodyOf_nil hempty]
          simp only [keys_nil, List.not_mem_nil, not_false_eq_true, reduceCtorEq, and_false,
            or_false, Option.map_eq_some_iff, unloadedJobs, List.mem_map, Prod.mk.injEq,
            Ledger.openRecord, Option.filter_eq_some_iff]
          constructor
          · rintro ⟨job, hjob, rfl, rfl⟩
            obtain ⟨hstored, hopen⟩ := (hmem job).mp hjob
            exact ⟨job, ⟨hstored, by simp [hopen]⟩, rfl⟩
          · rintro ⟨job, ⟨hstored, hopen⟩, rfl⟩
            have hid : job.jobId = id := hids id job hstored
            exact ⟨job, (hmem job).mpr ⟨hid ▸ hstored, by simpa using hopen⟩, hid, rfl⟩
        · show ((s.setTask startTask _).task startTask).loads = true
          rw [task_setTask_self]
          exact (hok _).2
      rw [hled]
      exact .load hloads (fun id => custodyOf_nil hempty id) hactive

/-- A record read after a restart becomes active. -/
theorem run_reopen {job : Job} {R : List (JobId × Stage)} {k' : Task} (hw : Wf s)
    (hold : (s.task t).holds.Perm ((job.jobId, .unloaded job) :: R))
    (hl : k'.loads = (s.task t).loads) (hk : k'.holds.Perm ((job.jobId, .loaded job) :: R))
    (h : exec env t (s.task t).origin inp s (.activate job false k') = some (s₁, k)) :
    ∃ mv, mv.Of s (.run t inp) ∧ s.Refines (s₁.setTask t k) mv := by
  obtain ⟨rfl, rfl⟩ : s.activate t job false = s₁ ∧ k' = k :=
    Prod.mk.inj (Option.some_inj.mp h)
  have hcust := custody_of_holds hw.exclusive (hold.mem_iff.mpr List.mem_cons_self)
  obtain ⟨hx', heq⟩ := Trades.ledger_eq hw.exclusive
    (rfl : (s.activate t job false).tasks = s.tasks) hl (.replace hold hk)
  refine ⟨.reopen job, (fun h => by cases h), hx', ?_⟩
  have hled : ledger (s.activate t job false) =
      { ledger s with active := Function.update (ledger s).active job.jobId (some job) } :=
    Ledger.ext (FinMap.lookup_insert_update ..) rfl rfl rfl rfl (List.append_nil _)
  rw [heq, hled]
  exact .reopen hcust

theorem start_refines {pc : StartPc} (hw : Wf s) (htask : s.task t = .start pc)
    (h : exec env t (s.task t).origin inp s (startCode inp pc) = some (s₁, k)) :
    ∃ mv, mv.Of s (.run t inp) ∧ s.Refines (s₁.setTask t k) mv := by
  have ht : t = startTask := hw.booted.only t pc htask
  cases pc with
  | refresh =>
    obtain ⟨hsame, rfl⟩ := exec_silent h trivial
    exact run_silent hw.exclusive hsame (by rw [htask]; rfl) (by rw [htask]; exact .rfl')
  | load =>
    exact run_load hw ht (by rw [htask]; rfl) (by rw [htask]; rfl) (fun jobs => ⟨rfl, rfl⟩)
      (fun e => ⟨rfl, rfl⟩) h
  | reconcile jobs =>
    cases jobs with
    | nil =>
      obtain ⟨hsame, rfl⟩ := exec_silent h trivial
      exact run_silent hw.exclusive hsame (by rw [htask]; rfl) (by rw [htask]; exact .rfl')
    | cons first rest =>
      simp only [startCode] at h
      split at h
      · next job hjob =>
        exact run_reopen hw (by rw [htask]; exact unloadedJobs_perm hjob) (by rw [htask]; rfl)
          (.refl _) h
      · simp [exec] at h
  | locate job rest =>
    obtain ⟨hsame, printers, rfl⟩ := exec_silent h trivial
    exact run_silent hw.exclusive hsame (by rw [htask]; rfl) (by rw [htask]; exact .rfl')
  | settle job printer rest =>
    simp only [startCode] at h
    split at h
    · next p spoolerJobId hwatch =>
      obtain ⟨hd, hs, -⟩ := reconciled_watch hwatch
      refine run_spawnMonitor hw (by rw [htask]; simp) (.of_eq (by rw [htask]; rfl)) rfl (.refl _)
        (by rw [htask]; rfl) ?_ h
      rintro j - - rfl
      exact ⟨hd, hs⟩
    · next ch hclose =>
      exact run_mutate hw (.of_eq (by rw [htask]; rfl)) rfl (by rw [htask]; rfl)
        (fun _ => by rw [htask]; rfl) (fun m => ⟨none, .close hclose, .refl _⟩)
        ⟨none, (fun τ h => by cases h), .refl _⟩ h
  | failed => simp [startCode, exec] at h
  | done => simp [startCode, exec] at h

end KilnPrint
