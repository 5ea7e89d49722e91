/-
Well-formed job records.

The nine interdependent fields of a record and the invariant that links them:

* `Job.Coherent` — timestamps, evidence, error, condition and spooler id are
  present exactly in the states they belong to;
* `Job.Sound` — coherence plus the two facts about open records that later
  changes rely on;
* `Change.Permitted` — what a change needs of the record it is applied to;
* `Change.apply_sound` — **every permitted change keeps an open record sound**;
* `Change.rank_le_mutated` — no permitted change moves delivery backwards.

Who may apply which change in which situation is the subject of the ledger.
-/
import KilnPrint.Engine.Change

namespace KilnPrint

/-- The fields of a record agree with its status and delivery stage. -/
structure Job.Coherent (j : Job) : Prop where
  completedAt : j.completedAt.isSome = true ↔ j.status.isTerminal = true
  completion : j.completion.isSome = true ↔ j.status = .completed
  error : j.error.isSome = true ↔ j.status = .failed
  noCondition : j.status.isTerminal = true → j.condition = none
  condition : j.condition.isSome = true → j.delivery = .spoolerAccepted
  spoolerJobId : j.spoolerJobId.isSome = true ↔ j.delivery = .spoolerAccepted
  submittedAt : j.submittedAt.isSome = true ↔
    j.delivery = .spoolerAccepted ∨ j.delivery = .deviceDelivered
  routed : j.status = .queued ∨ j.status = .printing ∨ j.status = .completed ∨
    j.delivery ≠ .requestAccepted → j.printerId.isSome = true ∧ j.queuedAt.isSome = true

/-- A coherent record which, while it is open, has not been delivered to a
device, and is queued or printing once it left the agent. -/
structure Job.Sound (j : Job) : Prop extends j.Coherent where
  notDelivered : j.status.isTerminal = false → j.delivery ≠ .deviceDelivered
  handed : j.status.isTerminal = false → j.delivery ≠ .requestAccepted →
    j.status = .queued ∨ j.status = .printing

/-- What a change needs of the record it is applied to. -/
def Change.Permitted (j : Job) : Change → Prop
  | queue .. => j.printerId.isSome = true
  | claim => j.status = .queued ∧ j.delivery = .requestAccepted
  | delivered => j.status = .queued ∧ j.delivery = .submitting
  | spooled _ => j.delivery = .submitting
  | pending | printing | blocked _ => j.delivery = .spoolerAccepted
  | _ => True

namespace Job

variable {j : Job} {now stamp : Time}

/-! ### Lifecycle steps -/

theorem isTerminal_of_transition {j' : Job} {next : JobStatus}
    (h : j.transition next now = some j') : j.status.isTerminal = false :=
  JobStatus.not_isTerminal_of_canTransitionTo (transition_eq_some h).1

/-- Cancelling keeps a record sound. -/
theorem Sound.cancelled {j' : Job} (hs : j.Sound)
    (h : j.transition .cancelled now = some j') : j'.Sound := by
  have hopen := isTerminal_of_transition h
  obtain ⟨-, rfl⟩ := transition_eq_some h
  obtain ⟨⟨h1, h2, h3, h4, h5, h6, h7, h8⟩, h9, h10⟩ := hs
  have hc : j.status ≠ .completed := by rintro e; rw [e] at hopen; cases hopen
  have hf : j.status ≠ .failed := by rintro e; rw [e] at hopen; cases hopen
  refine ⟨⟨?_, ?_, ?_, ?_, ?_, ?_, ?_, ?_⟩, ?_, ?_⟩ <;>
    simp_all [stamp, JobStatus.isTerminal]

/-- Failing keeps a record sound. -/
theorem Sound.failed {j' : Job} {error : PrintError} (hs : j.Sound)
    (h : j.fail error now = some j') : j'.Sound := by
  obtain ⟨k, hk, rfl⟩ := Option.map_eq_some_iff.mp h
  have hopen := isTerminal_of_transition hk
  obtain ⟨-, rfl⟩ := transition_eq_some hk
  obtain ⟨⟨h1, h2, h3, h4, h5, h6, h7, h8⟩, h9, h10⟩ := hs
  have hc : j.status ≠ .completed := by rintro e; rw [e] at hopen; cases hopen
  refine ⟨⟨?_, ?_, ?_, ?_, ?_, ?_, ?_, ?_⟩, ?_, ?_⟩ <;>
    simp_all [stamp, JobStatus.isTerminal]

/-- Only a queued or printing job completes. -/
theorem status_of_complete {j' : Job} {evidence : CompletionEvidence}
    (h : j.complete evidence now = some j') : j.status = .queued ∨ j.status = .printing := by
  obtain ⟨k, hk, -⟩ := Option.map_eq_some_iff.mp h
  have hc := (transition_eq_some hk).1
  revert hc
  cases j.status <;> simp [JobStatus.canTransitionTo]

/-- Completing keeps a record sound. -/
theorem Sound.completed {j' : Job} {evidence : CompletionEvidence} (hs : j.Sound)
    (h : j.complete evidence now = some j') : j'.Sound := by
  have hq := status_of_complete h
  obtain ⟨k, hk, rfl⟩ := Option.map_eq_some_iff.mp h
  have hopen := isTerminal_of_transition hk
  obtain ⟨-, rfl⟩ := transition_eq_some hk
  obtain ⟨⟨h1, h2, h3, h4, h5, h6, h7, h8⟩, h9, h10⟩ := hs
  have hr := h8 (hq.imp_right Or.inl)
  have hf : j.status ≠ .failed := by rintro e; rw [e] at hopen; cases hopen
  refine ⟨⟨?_, ?_, ?_, ?_, ?_, ?_, ?_, ?_⟩, ?_, ?_⟩ <;>
    simp_all [stamp, JobStatus.isTerminal]

/-- Validation begins only on a received record. -/
theorem Sound.validating {j' : Job} (hs : j.Sound)
    (h : j.transition .validating now = some j') : j'.Sound := by
  have hopen := isTerminal_of_transition h
  obtain ⟨hc, rfl⟩ := transition_eq_some h
  obtain ⟨⟨h1, h2, h3, h4, h5, h6, h7, h8⟩, h9, h10⟩ := hs
  have hd : j.delivery = .requestAccepted := by
    by_contra hne
    rcases h10 hopen hne with e | e <;> rw [e] at hc <;> cases hc
  cases hstat : j.status <;> rw [hstat] at hc <;> simp [JobStatus.canTransitionTo] at hc <;>
    refine ⟨⟨?_, ?_, ?_, ?_, ?_, ?_, ?_, ?_⟩, ?_, ?_⟩ <;>
    simp_all [stamp, JobStatus.isTerminal]

/-- A record with a printer may be queued. -/
theorem Sound.queued {j' : Job} (hs : j.Sound) (hp : j.printerId.isSome = true)
    (h : j.transition .queued now = some j') : j'.Sound := by
  have hopen := isTerminal_of_transition h
  obtain ⟨hc, rfl⟩ := transition_eq_some h
  obtain ⟨⟨h1, h2, h3, h4, h5, h6, h7, h8⟩, h9, h10⟩ := hs
  have hq : (if j.queuedAt.isNone then { j with queuedAt := some now } else j).queuedAt.isSome
      = true := by
    split
    · rfl
    · next hn => simpa [Option.isNone_iff_eq_none, ← Option.isSome_iff_ne_none] using hn
  cases hstat : j.status <;> rw [hstat] at hc <;> simp [JobStatus.canTransitionTo] at hc <;>
    refine ⟨⟨?_, ?_, ?_, ?_, ?_, ?_, ?_, ?_⟩, ?_, ?_⟩ <;>
    simp only [stamp] <;> split <;> simp_all [JobStatus.isTerminal]

/-- Printing is observed on a queued record. -/
theorem Sound.printing {j' : Job} (hs : j.Sound) (hq : j.status = .queued)
    (h : j.transition .printing now = some j') : j'.Sound := by
  obtain ⟨hc, rfl⟩ := transition_eq_some h
  obtain ⟨⟨h1, h2, h3, h4, h5, h6, h7, h8⟩, h9, h10⟩ := hs
  refine ⟨⟨?_, ?_, ?_, ?_, ?_, ?_, ?_, ?_⟩, ?_, ?_⟩ <;>
    simp only [stamp] <;> split <;> simp_all [JobStatus.isTerminal]

/-- Fields that no clause mentions. -/
theorem Sound.of_eq {k : Job} (hs : j.Sound) (h1 : k.status = j.status)
    (h2 : k.delivery = j.delivery) (h3 : k.completedAt = j.completedAt)
    (h4 : k.completion = j.completion) (h5 : k.error = j.error)
    (h6 : k.condition = j.condition) (h7 : k.spoolerJobId = j.spoolerJobId)
    (h8 : k.submittedAt = j.submittedAt) (h9 : j.printerId.isSome = true → k.printerId.isSome = true)
    (h10 : k.queuedAt = j.queuedAt) : k.Sound := by
  obtain ⟨⟨c1, c2, c3, c4, c5, c6, c7, c8⟩, c9, c10⟩ := hs
  refine ⟨⟨?_, ?_, ?_, ?_, ?_, ?_, ?_, ?_⟩, ?_, ?_⟩
  · rw [h1, h3]; exact c1
  · rw [h1, h4]; exact c2
  · rw [h1, h5]; exact c3
  · rw [h1, h6]; exact c4
  · rw [h2, h6]; exact c5
  · rw [h2, h7]; exact c6
  · rw [h2, h8]; exact c7
  · rw [h1, h2, h10]
    exact fun h => ⟨h9 (c8 h).1, (c8 h).2⟩
  · rw [h1, h2]; exact c9
  · rw [h1, h2]; exact c10

/-- The condition of an open spooled record may change freely. -/
theorem Sound.withCondition (hs : j.Sound) (hd : j.delivery = .spoolerAccepted)
    (ho : j.status.isTerminal = false) (c : Option ErrorCode) :
    { j with condition := c }.Sound := by
  obtain ⟨⟨c1, c2, c3, c4, c5, c6, c7, c8⟩, c9, c10⟩ := hs
  exact ⟨⟨c1, c2, c3, fun h => absurd h (by simp [ho]), fun _ => hd, c6, c7, c8⟩, c9, c10⟩

end Job

namespace Change

variable {j : Job} {ch : Change} {now stamp : Time}

theorem orKeep_sound {k : Job} {kind : JobEventKind} {o : Option Job} (hk : k.Sound)
    (ho : ∀ j', o = some j' → j'.Sound) : (orKeep k kind o).1.Sound := by
  cases o with
  | none => exact hk
  | some j' => exact ho j' rfl

/-- **Every permitted change keeps an open record sound.** -/
theorem apply_sound (hs : j.Sound) (hopen : j.status.isTerminal = false)
    (hp : ch.Permitted j) : (ch.apply now j).1.Sound := by
  cases ch with
  | validating =>
    cases h : j.transition .validating now with
    | none => simpa [apply, h] using hs
    | some j' => simpa [apply, h] using hs.validating h
  | assignPrinter id name =>
    exact hs.of_eq rfl rfl rfl rfl rfl rfl rfl rfl (fun _ => rfl) rfl
  | queue warnings language =>
    let k : Job := { j with warnings := warnings }
    have hk : (if language.isSome then { k with language := language } else k).Sound := by
      split <;> exact hs.of_eq rfl rfl rfl rfl rfl rfl rfl rfl id rfl
    have hpk : (if language.isSome then { k with language := language } else k).printerId.isSome
        = true := by
      split <;> exact hp
    exact orKeep_sound hk fun j' h => hk.queued hpk h
  | claim =>
    obtain ⟨hq, hd⟩ := hp
    obtain ⟨⟨c1, c2, c3, c4, c5, c6, c7, c8⟩, c9, c10⟩ := hs
    refine ⟨⟨c1, c2, c3, c4, ?_, ?_, ?_, ?_⟩, ?_, ?_⟩ <;> simp_all [apply]
  | delivered =>
    obtain ⟨hq, hd⟩ := hp
    obtain ⟨⟨c1, c2, c3, c4, c5, c6, c7, c8⟩, c9, c10⟩ := hs
    have hlegal : j.status.canTransitionTo .completed = true := by rw [hq]; rfl
    refine ⟨⟨?_, ?_, ?_, ?_, ?_, ?_, ?_, ?_⟩, ?_, ?_⟩ <;>
      simp_all [apply, orKeep, Job.complete, Job.transition, Job.stamp, JobStatus.isTerminal,
        JobStatus.canTransitionTo]
  | spooled spoolerJobId =>
    obtain ⟨⟨c1, c2, c3, c4, c5, c6, c7, c8⟩, c9, c10⟩ := hs
    have hd : j.delivery = .submitting := hp
    refine ⟨⟨c1, c2, c3, c4, ?_, ?_, ?_, ?_⟩, ?_, ?_⟩ <;> simp_all [apply]
  | fail error => exact orKeep_sound hs fun j' h => hs.failed h
  | complete evidence => exact orKeep_sound hs fun j' h => hs.completed h
  | cancelQueued =>
    show (if j.delivery = .requestAccepted then _ else _ : Job × Option JobEventKind).1.Sound
    split
    · exact orKeep_sound hs fun j' h => hs.cancelled h
    · exact hs
  | cancelSpooled =>
    refine orKeep_sound hs fun j' h => ?_
    obtain ⟨k, hk, rfl⟩ := Option.map_eq_some_iff.mp h
    exact (hs.cancelled hk).of_eq rfl rfl rfl rfl rfl rfl rfl rfl id rfl
  | cancelDeleted => exact orKeep_sound hs fun j' h => hs.cancelled h
  | cancelObserved =>
    refine orKeep_sound hs fun j' h => ?_
    obtain ⟨k, hk, rfl⟩ := Option.map_eq_some_iff.mp h
    exact (hs.cancelled hk).of_eq rfl rfl rfl rfl rfl rfl rfl rfl id rfl
  | pending => exact hs.withCondition hp hopen none
  | printing =>
    have hk : { j with condition := none }.Sound := hs.withCondition hp hopen none
    show (if j.status = .queued then _ else _ : Job × Option JobEventKind).1.Sound
    split
    · next hq => exact orKeep_sound hk fun j' h => hk.printing hq h
    · exact hk
  | blocked condition =>
    show (if j.condition = some condition then _ else _ : Job × Option JobEventKind).1.Sound
    split
    · exact hs
    · exact hs.withCondition hp hopen _

theorem mutated_sound (hs : j.Sound) (hopen : j.status.isTerminal = false)
    (hp : ch.Permitted j) : (ch.mutated now stamp j).job.Sound :=
  (apply_sound hs hopen hp : (ch.apply now j).1.Sound).of_eq rfl rfl rfl rfl rfl rfl rfl rfl id rfl

/-! ### Delivery only moves forward -/

theorem delivery_transition {j' : Job} {next : JobStatus}
    (h : j.transition next now = some j') : j'.delivery = j.delivery := by
  obtain ⟨-, rfl⟩ := Job.transition_eq_some h
  unfold Job.stamp
  cases next <;> first | rfl | (dsimp only; split <;> rfl)

/-- What a legal step keeps, `orKeep` keeps. -/
theorem orKeep_eq {β : Type} (f : Job → β) {k : Job} {kind : JobEventKind} {o : Option Job}
    (ho : ∀ j', o = some j' → f j' = f k) : f (orKeep k kind o).1 = f k := by
  cases o with
  | none => rfl
  | some j' => exact ho j' rfl

theorem delivery_fail {j' : Job} {error : PrintError} (h : j.fail error now = some j') :
    j'.delivery = j.delivery := by
  obtain ⟨k, hk, rfl⟩ := Option.map_eq_some_iff.mp h
  have hd : k.delivery = j.delivery := delivery_transition hk
  exact hd

theorem delivery_complete {j' : Job} {evidence : CompletionEvidence}
    (h : j.complete evidence now = some j') : j'.delivery = j.delivery := by
  obtain ⟨k, hk, rfl⟩ := Option.map_eq_some_iff.mp h
  have hd : k.delivery = j.delivery := delivery_transition hk
  exact hd

/-- Where each change leaves the delivery stage. -/
def target (j : Job) : Change → DeliveryStage
  | claim => .submitting
  | delivered => .deviceDelivered
  | spooled _ => .spoolerAccepted
  | _ => j.delivery

theorem delivery_apply : (ch.apply now j).1.delivery = ch.target j := by
  cases ch with
  | validating =>
    cases h : j.transition .validating now with
    | none => simp [apply, target, h]
    | some j' => simpa [apply, target, h] using delivery_transition h
  | queue warnings language =>
    refine (orKeep_eq Job.delivery fun j' h => delivery_transition h).trans ?_
    split <;> rfl
  | delivered => exact orKeep_eq Job.delivery fun j' h => delivery_complete h
  | fail error => exact orKeep_eq Job.delivery fun j' h => delivery_fail h
  | complete evidence => exact orKeep_eq Job.delivery fun j' h => delivery_complete h
  | cancelQueued =>
    show (if j.delivery = .requestAccepted then _ else _ : Job × Option JobEventKind).1.delivery = _
    split
    · exact orKeep_eq Job.delivery fun j' h => delivery_transition h
    · rfl
  | cancelSpooled | cancelObserved =>
    refine orKeep_eq Job.delivery fun j' h => ?_
    obtain ⟨k, hk, rfl⟩ := Option.map_eq_some_iff.mp h
    have hd : k.delivery = j.delivery := delivery_transition hk
    exact hd
  | cancelDeleted => exact orKeep_eq Job.delivery fun j' h => delivery_transition h
  | printing =>
    show (if j.status = .queued then _ else _ : Job × Option JobEventKind).1.delivery = _
    split
    · exact orKeep_eq Job.delivery fun j' h => delivery_transition h
    · rfl
  | blocked condition =>
    show (if j.condition = some condition then _ else _ : Job × Option JobEventKind).1.delivery = _
    split <;> rfl
  | assignPrinter | claim | spooled | pending => rfl

/-- **No permitted change moves delivery to an earlier stage.** -/
theorem rank_le_mutated (hp : ch.Permitted j) :
    j.delivery.rank ≤ (ch.mutated now stamp j).job.delivery.rank := by
  show _ ≤ (ch.apply now j).1.delivery.rank
  rw [delivery_apply]
  cases ch with
  | claim => rw [hp.2]; exact Nat.zero_le _
  | delivered => rw [hp.2]; exact (by decide : 1 ≤ 3)
  | spooled =>
    have hd : j.delivery = .submitting := hp
    rw [hd]; exact Nat.le_succ _
  | _ => exact Nat.le_refl _

/-! ### What no change touches -/

/-- What lifecycle steps and the single-field updates keep, every change
keeps. -/
theorem apply_keeps {β : Type} (f : Job → β)
    (hstep : ∀ (k k' : Job) next, k.transition next now = some k' → f k' = f k)
    (herror : ∀ (k : Job) e, f { k with error := e } = f k)
    (hcompletion : ∀ (k : Job) e, ch = .complete e ∨ ch = .delivered ∧ e = .bytesDelivered →
      f { k with completion := some e } = f k)
    (hwarnings : ∀ (k : Job) w, f { k with warnings := w } = f k)
    (hlanguage : ∀ (k : Job) x, f { k with language := x } = f k)
    (hcondition : ∀ (k : Job) c, f { k with condition := c } = f k)
    (hprinter : ∀ (k : Job) p n, f { k with printerId := p, printerName := n } = f k)
    (hdelivery : ∀ (k : Job) d t, f { k with delivery := d, submittedAt := t } = f k)
    (hspooled : ∀ x, ch = .spooled x → f (ch.apply now j).1 = f j) :
    f (ch.apply now j).1 = f j := by
  -- `fail`, `complete` and the cancellations with a warning are transitions with an update
  have hfail : ∀ (k k' : Job) e, k.fail e now = some k' → f k' = f k := by
    intro k k' e h
    obtain ⟨k₁, hk, rfl⟩ := Option.map_eq_some_iff.mp h
    exact (herror _ _).trans (hstep _ _ _ hk)
  have hcomplete : ∀ (k k' : Job) e, ch = .complete e ∨ ch = .delivered ∧ e = .bytesDelivered →
      k.complete e now = some k' → f k' = f k := by
    intro k k' e he h
    obtain ⟨k₁, hk, rfl⟩ := Option.map_eq_some_iff.mp h
    exact (hcompletion _ _ he).trans (hstep _ _ _ hk)
  have hwarn : ∀ (k k' : Job) w, ((k.transition .cancelled now).map fun k₁ =>
      { k₁ with warnings := k₁.warnings ++ [w] }) = some k' → f k' = f k := by
    intro k k' w h
    obtain ⟨k₁, hk, rfl⟩ := Option.map_eq_some_iff.mp h
    exact (hwarnings _ _).trans (hstep _ _ _ hk)
  cases ch with
  | validating =>
    cases h : j.transition .validating now with
    | none => simp [apply, h]
    | some j' => simpa [apply, h] using hstep _ _ _ h
  | assignPrinter id name => exact hprinter _ _ _
  | queue warnings language =>
    refine (orKeep_eq f fun j' h => hstep _ _ _ h).trans ?_
    split
    · exact (hlanguage _ _).trans (hwarnings _ _)
    · exact hwarnings _ _
  | claim => exact hdelivery j .submitting j.submittedAt
  | delivered =>
    exact (orKeep_eq f fun j' h => hcomplete _ _ _ (Or.inr ⟨rfl, rfl⟩) h).trans (hdelivery _ _ _)
  | spooled x => exact hspooled x rfl
  | fail e => exact orKeep_eq f fun j' h => hfail _ _ _ h
  | complete e => exact orKeep_eq f fun j' h => hcomplete _ _ _ (Or.inl rfl) h
  | cancelQueued =>
    show f (if j.delivery = .requestAccepted then _ else _ : Job × Option JobEventKind).1 = _
    split
    · exact orKeep_eq f fun j' h => hstep _ _ _ h
    · rfl
  | cancelSpooled | cancelObserved => exact orKeep_eq f fun j' h => hwarn _ _ _ h
  | cancelDeleted => exact orKeep_eq f fun j' h => hstep _ _ _ h
  | pending => exact hcondition _ _
  | printing =>
    show f (if j.status = .queued then _ else _ : Job × Option JobEventKind).1 = _
    split
    · exact (orKeep_eq f fun j' h => hstep _ _ _ h).trans (hcondition _ _)
    · exact hcondition _ _
  | blocked condition =>
    show f (if j.condition = some condition then _ else _ : Job × Option JobEventKind).1 = _
    split
    · rfl
    · exact hcondition _ _

/-- What the timestamps and the status do not enter, a lifecycle step keeps. -/
theorem transition_keeps {β : Type} (f : Job → β)
    (hf : ∀ (k : Job) st u q b c x,
      f { k with
        status := st, updatedAt := u, queuedAt := q, startedAt := b, completedAt := c,
        condition := x } = f k)
    {k k' : Job} {next : JobStatus} (h : k.transition next now = some k') : f k' = f k := by
  obtain ⟨-, rfl⟩ := Job.transition_eq_some h
  unfold Job.stamp
  cases next with
  | queued | printing => dsimp only; split <;> exact hf k _ _ _ _ _ _
  | _ => exact hf k _ _ _ _ _ _

/-- The fields fixed when a record is created. -/
def identity (j : Job) : JobId × String × Option String :=
  (j.jobId, j.clientId, j.idempotencyKey)

/-- **No change touches the fields fixed at creation.** -/
theorem identity_apply : identity (ch.apply now j).1 = identity j := by
  refine apply_keeps identity (fun k k' next h => ?_) ?_ ?_ ?_ ?_ ?_ ?_ ?_ ?_
  · exact transition_keeps identity (fun _ _ _ _ _ _ _ => rfl) h
  all_goals first | exact fun _ _ => rfl | exact fun _ _ _ => rfl | skip
  rintro x rfl
  rfl

/-- Only the spooler's acceptance sets the spooler id. -/
theorem spoolerJobId_apply (hne : ∀ x, ch ≠ .spooled x) :
    (ch.apply now j).1.spoolerJobId = j.spoolerJobId := by
  refine apply_keeps Job.spoolerJobId (fun k k' next h => ?_) ?_ ?_ ?_ ?_ ?_ ?_ ?_ ?_
  · exact transition_keeps Job.spoolerJobId (fun _ _ _ _ _ _ _ => rfl) h
  all_goals first | exact fun _ _ => rfl | exact fun _ _ _ => rfl | skip
  exact fun x hx => absurd hx (hne x)

/-- Only a completion says what it was completed by. -/
theorem completion_apply (hne : ∀ e, ch ≠ .complete e) (hdel : ch ≠ .delivered) :
    (ch.apply now j).1.completion = j.completion := by
  refine apply_keeps Job.completion (fun k k' next h => ?_) ?_ (fun k e he => ?_) ?_ ?_ ?_ ?_ ?_ ?_
  · exact transition_keeps Job.completion (fun _ _ _ _ _ _ _ => rfl) h
  rotate_left
  · rcases he with he | ⟨he, -⟩
    · exact absurd he (hne e)
    · exact absurd he hdel
  all_goals first | exact fun _ _ => rfl | exact fun _ _ _ => rfl | skip
  rintro x rfl
  rfl

/-- An open record says that it retired from its spooler only after the change that
completes it so. -/
theorem retired_apply (hj : j.completion = none)
    (h : (ch.apply now j).1.completion = some .spoolerJobRetired) :
    ch = .complete .spoolerJobRetired := by
  -- completing a record says so only with this evidence
  have hcomplete : ∀ (k : Job) e, k.completion = none →
      (orKeep k .completed (k.complete e now)).1.completion = some .spoolerJobRetired →
      e = .spoolerJobRetired := by
    intro k e hk h
    cases hc : k.complete e now with
    | none =>
      rw [hc] at h
      exact absurd (hk.symm.trans h) (by simp)
    | some k' =>
      rw [hc] at h
      obtain ⟨k₁, -, rfl⟩ := Option.map_eq_some_iff.mp hc
      exact Option.some_inj.mp h
  by_cases hdel : ch = .delivered
  · subst hdel
    cases hcomplete { j with delivery := .deviceDelivered, submittedAt := some now } _ hj h
  · by_cases he : ∃ e, ch = .complete e
    · obtain ⟨e, rfl⟩ := he
      rw [hcomplete j e hj h]
    · rw [completion_apply (fun e hc => he ⟨e, hc⟩) hdel, hj] at h
      cases h

theorem jobId_mutated : (ch.mutated now stamp j).job.jobId = j.jobId :=
  congrArg Prod.fst (identity_apply : identity (ch.apply now j).1 = identity j)

/-- A closure that changes nothing leaves the record as it is. -/
theorem mutated_eq_self (h : (ch.apply now j).1 = j) : (ch.mutated now stamp j).job = j := by
  show j.touch (ch.apply now j).1 stamp = j
  rw [h, Job.touch, if_pos rfl]

/-! ### Changes that close a record -/

theorem fail_status (hopen : j.status.isTerminal = false) (error : PrintError) :
    ((fail error).apply now j).1.status = .failed := by
  simp [apply, Job.fail, Job.transition, JobStatus.canTransitionTo_failed, hopen, orKeep]

/-- The error of a failed record is the one it failed with, annotated. -/
theorem fail_error (hopen : j.status.isTerminal = false) (error : PrintError) :
    ((fail error).apply now j).1.error = some (j.annotate error) := by
  simp [apply, Job.fail, Job.transition, JobStatus.canTransitionTo_failed, hopen, orKeep]

theorem transition_cancelled (now : Time) (hopen : j.status.isTerminal = false) :
    ∃ j', j.transition .cancelled now = some j' ∧ j'.status = .cancelled := by
  refine ⟨{ j.stamp .cancelled now with status := .cancelled, updatedAt := now }, ?_, rfl⟩
  rw [Job.transition, JobStatus.canTransitionTo_cancelled, hopen]
  rfl

theorem cancelSpooled_status (hopen : j.status.isTerminal = false) :
    (cancelSpooled.apply now j).1.status = .cancelled := by
  obtain ⟨j', h, hst⟩ := transition_cancelled now hopen
  simp only [apply, h, Option.map_some, orKeep]
  exact hst

theorem cancelQueued_status (hopen : j.status.isTerminal = false)
    (hd : j.delivery = .requestAccepted) :
    (cancelQueued.apply now j).1.status = .cancelled := by
  obtain ⟨j', h, hst⟩ := transition_cancelled now hopen
  simp only [apply, hd, if_true, h, orKeep]
  exact hst

theorem cancelQueued_skip (hd : j.delivery ≠ .requestAccepted) :
    cancelQueued.apply now j = (j, none) := by
  simp only [apply, if_neg hd]

end Change

end KilnPrint
