/-
`NOT_PRINTED`: when the engine may tell a client that printing again is safe.

Shutdown and restart reconciliation fail a job with `details.outcome`
`NOT_PRINTED` when they take it never to have left the agent.  Each decides on
something it read earlier:

* `shutdown` on a snapshot of the active map, which a worker may claim the job
  after;
* reconciliation on the stored record, which is behind when storing the claim
  failed.

`Prudent` says where neither happens, and `not_printed_sound` that **there the
answer is right, before and ever after**.  `not_printed_unsound` shows that both
conditions are needed.
-/
import KilnPrint.Engine.Unsent

namespace KilnPrint

open Runs

/-! ### The statement -/

/-- The entry records that shutdown or reconciliation failed `id` as
`NOT_PRINTED`. -/
def Entry.notPrinted (id : JobId) : Entry → Bool
  | applied .shutdown id' _ (some ⟨.failed, job⟩)
  | applied .restart id' _ (some ⟨.failed, job⟩) =>
    id' == id && job.error.bind PrintError.outcome == some "NOT_PRINTED"
  | _ => false

/-- No job that was failed as `NOT_PRINTED` was ever handed to a provider. -/
def State.NotPrintedSound (s : State) : Prop :=
  ∀ id, (∃ e ∈ s.log, e.notPrinted id = true) → ∀ printer, Entry.invoked id printer ∉ s.log

/-- The engine does not act on a delivery stage that is out of date: shutdown
finds the job it is about to fail where its snapshot saw it, and a crash finds
no job handed to a provider whose stored record is open at `REQUEST_ACCEPTED`. -/
def Prudent (s : State) : Action → Prop
  | .run t inp => ∀ id ∈ s.shutdownTarget t inp, ∀ j ∈ s.active.lookup id,
      j.delivery = .requestAccepted
  | .crash => ∀ j ∈ s.repo.values, j.status.isTerminal = false →
      j.delivery = .requestAccepted → ∀ e ∈ s.log, e.isInvoked j.jobId = false
  | _ => True

instance (s : State) : DecidablePred (Prudent s)
  | .run _ _ | .crash => by unfold Prudent; infer_instance
  | .start | .submit .. | .cancel .. | .shutdown _ | .invoke _ | .finish .. | .drop _
  | .discover _ | .purge _ | .retire _ => .isTrue trivial

theorem honest_of_prudent {s : State} (hw : Wf s) (h : Prudent s .crash) :
    (ledger s).Honest := by
  intro id j hj hopen hd
  obtain ⟨hid, -⟩ := hw.inv.storedId id j hj
  refine List.countP_eq_zero.mpr fun e he => ?_
  rw [← hid, h j (FinMap.mem_values.mpr ⟨id, hj⟩) hopen hd e he]
  exact Bool.noConfusion

/-! ### The invariant -/

namespace Ledger

variable {l l' : Ledger} {mv : Move} {id : JobId}

/-- Completing a job is not failing it. -/
theorem notPrinted_complete {o : Origin} {evidence : CompletionEvidence} {now stamp : Time}
    {id' : JobId} {j k : Job} :
    (Entry.applied o id' (.complete evidence) ((((Change.complete evidence).mutated now stamp
      j).event).map fun kind => { kind := kind, job := k })).notPrinted id = false := by
  have hev : ((Change.complete evidence).mutated now stamp j).event = some .completed ∨
      ((Change.complete evidence).mutated now stamp j).event = none := by
    show (Change.orKeep j .completed (j.complete evidence now)).2 = _ ∨
      (Change.orKeep j .completed (j.complete evidence now)).2 = _
    cases j.complete evidence now with
    | some j' => exact Or.inl rfl
    | none => exact Or.inr rfl
  rcases hev with hev | hev <;> rw [hev] <;> cases o <;> rfl

/-- Failing an open job with `e` says what `e` says. -/
theorem outcome_of_notPrinted {o : Origin} {e : PrintError} {now stamp : Time} {id' : JobId}
    {j : Job} (hopen : j.status.isTerminal = false)
    (h : (Entry.applied o id' (.fail e) ((((Change.fail e).mutated now stamp j).event).map
      fun kind => { kind := kind, job := ((Change.fail e).mutated now stamp j).job })).notPrinted id
        = true) : id' = id ∧ e.outcome = some "NOT_PRINTED" := by
  have hev : ((Change.fail e).mutated now stamp j).event = some .failed := by
    simp [Change.mutated, Change.apply, Job.fail, Job.transition, JobStatus.canTransitionTo_failed,
      hopen, Change.orKeep]
  have herr : ((Change.fail e).mutated now stamp j).job.error.bind PrintError.outcome =
      e.outcome := by
    simp [Change.mutated, Change.apply, Job.fail, Job.transition, JobStatus.canTransitionTo_failed,
      hopen, Change.orKeep, Job.touch]
  have hboth : (id' == id && ((Change.fail e).mutated now stamp j).job.error.bind
      PrintError.outcome == some "NOT_PRINTED") = true := by
    rw [hev] at h
    cases o <;> first | exact h | cases h
  rw [herr, Bool.and_eq_true, beq_iff_eq, beq_iff_eq] at hboth
  exact hboth

theorem applied_of_notPrinted {e : Entry} (h : e.notPrinted id = true) :
    ∃ o id' ch ev, e = .applied o id' ch ev := by
  cases e <;> first | exact ⟨_, _, _, _, rfl⟩ | cases h

/-- **Every prudent move keeps withdrawing the jobs it fails as
`NOT_PRINTED`.** -/
theorem notPrinted_step (h : l.Withdraws Entry.notPrinted) (hinv : l.Inv) (hs : l.Step mv l')
    (hcrash : mv = .crash → l.Honest)
    (hshutdown : ∀ r id ch, mv = .foreign .shutdown r id ch → ∀ j, l.active id = some j →
      j.delivery = .requestAccepted) : l'.Withdraws Entry.notPrinted := by
  have hfailed : ∀ {j : Job} {r : Reading} {e : PrintError}, j.status.isTerminal = false →
      ((Change.fail e).mutated r.now r.stamp j).job.status.isTerminal = true := by
    intro j r e hopen
    show ((Change.fail e).apply r.now j).1.status.isTerminal = true
    rw [Change.fail_status hopen]
    rfl
  refine h.step hinv hs hcrash (fun _ _ => applied_of_notPrinted) ?_ ?_
  · intro id id' σ σ' ch j r hmv hc hh hj hnp
    have hopen := (hinv.active id' j hj).2
    cases hh with
    | @close job printer ch hr =>
      -- the restart says so of a job that was still waiting when the process ended
      obtain rfl : j = job := (hinv.fits id' _ hc).allows j hj
      rcases reconciled_close hr with ⟨rfl, -⟩ | ⟨err, rfl, hra⟩
      · rw [Change.entry, notPrinted_complete] at hnp
        cases hnp
      · obtain ⟨rfl, hout⟩ := outcome_of_notPrinted hopen hnp
        exact ⟨rfl, .of_close h.unsent hinv hj (hra hout) Change.delivery_apply (hfailed hopen)
          (Or.inr rfl)⟩
    | _ => cases hnp
  · intro id id' o ch j r hmv hfo hj hnp
    have hopen := (hinv.active id' j hj).2
    cases hfo with
    -- and the shutdown of one that waits now
    | shutdown =>
      obtain ⟨rfl, -⟩ := outcome_of_notPrinted hopen hnp
      refine ⟨rfl, ?_⟩
      rw [← (l.change .shutdown r id' (.fail shutdownError) j).hand_custody id']
      exact .of_close h.unsent hinv hj (hshutdown r id' _ hmv j hj) Change.delivery_apply
        (hfailed hopen) (Or.inl rfl)
    | cancelQueued | cancelSpooled => cases hnp

end Ledger

/-! ### Runs of the engine -/

variable {env : Env} {s : State}

/-- **`NOT_PRINTED` is sound in every prudent run.** -/
theorem not_printed_sound (h : Reach (step env) Prudent init s) : s.NotPrintedSound := by
  have hj : (ledger s).Withdraws Entry.notPrinted := by
    refine h.invariant (I := fun s => (ledger s).Withdraws Entry.notPrinted)
      (ledger_init ▸ .empty) fun s a s' hr hj hok hs => ?_
    have hw := wf_of_reach hr
    obtain ⟨mv, hof, -, hmove⟩ := step_refines hw hs
    refine Ledger.notPrinted_step hj hw.inv hmove (fun hmv => ?_) (fun r id ch hmv j hja => ?_)
    · subst hmv
      obtain rfl : a = .crash := hof
      exact honest_of_prudent hw hok
    · subst hmv
      obtain ⟨t, inp, rfl, -, htarget⟩ := hof
      exact hok id (htarget rfl) j hja
  exact fun id hnp printer => hj.sound hnp printer

/-- Shutdown while the job waits in its printer's channel. -/
def shutdownWaiting : List Action :=
  booting ++ submitting 1 2 ++ [.shutdown 3] ++ List.replicate 3 (.run 3 {})

theorem not_printed_sound_waiting :
    (∃ e ∈ (after shutdownWaiting).log, e.notPrinted 0 = true) ∧
      ∀ printer, Entry.invoked 0 printer ∉ (after shutdownWaiting).log := by
  have hnp : ∃ e ∈ (after shutdownWaiting).log, e.notPrinted 0 = true := by decide +kernel
  exact ⟨hnp, not_printed_sound (reach_after Prudent shutdownWaiting (by decide +kernel)) 0 hnp⟩

/-! ### Where it goes wrong -/

/-- The worker receives the item, shutdown takes its snapshot, the worker claims
the job and enters `provider.submit`; only then shutdown fails the job. -/
def staleSnapshot : List Action :=
  booting ++ submitting 1 2 ++ [.run 2 {}, .run 2 {}, .shutdown 3, .run 3 {}, .run 3 {},
    .run 2 {}, .run 2 {}, .invoke 2, .run 3 {}]

/-- Storing the claim fails, and the agent crashes during `provider.submit`. -/
def lostClaim : List Action :=
  booting ++ submitting 1 2 ++ [.run 2 {}, .run 2 {}, .run 2 { repoOk := false }, .run 2 {},
    .invoke 2, .crash, .start, .run startTask { refreshed := some [deskPrinter] }] ++
    List.replicate 4 (.run startTask {})

/-- **`NOT_PRINTED` is told of jobs that were handed to a provider**, by shutdown
and by reconciliation. -/
theorem not_printed_unsound :
    (Reach (step desk) (fun _ _ => True) init (after staleSnapshot) ∧
      ¬ (after staleSnapshot).NotPrintedSound) ∧
    Reach (step desk) (fun _ _ => True) init (after lostClaim) ∧
      ¬ (after lostClaim).NotPrintedSound := by
  refine ⟨⟨reach_after _ _ (by decide +kernel), fun h => ?_⟩,
    reach_after _ _ (by decide +kernel), fun h => ?_⟩
  · exact h 0 (by decide +kernel) "desk" (by decide +kernel)
  · exact h 0 (by decide +kernel) "desk" (by decide +kernel)

end KilnPrint
