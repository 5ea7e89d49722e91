/-
The ledger's invariant is preserved by every move.

* `Hands.permitted`, `Hands.allows` — a stage knows enough for the changes its
  custodian applies, and the next stage's knowledge holds afterwards;
* `Fits.mono` — a stage keeps fitting while the job's own records and the log's
  claims about it stay;
* `Inv.change_hand` — the rule for moves that change a record;
* `Inv.step` — **every move preserves the invariant**.
-/
import KilnPrint.Engine.Ledger

namespace KilnPrint

/-! ### Stages and changes -/

namespace Stage.Hands

variable {σ : Stage} {σ' : Option Stage} {ch : Change} {j : Job} {r : Reading}

/-- A custodian only applies changes that its stage permits. -/
theorem permitted (h : σ.Hands ch σ') (ha : σ.allows j) : ch.Permitted j := by
  cases h with
  | queue => exact ha.2.2
  | claim => exact ha
  | close hr => rcases reconciled_close hr with ⟨rfl, -⟩ | ⟨e, rfl, -⟩ <;> trivial
  | delivered => exact ha
  | spooled => exact ha.2
  | observe _ ho | finish _ ho =>
    cases ch <;> first | exact ha.1 | trivial
  | _ => trivial

/-- The next stage's knowledge holds of the record the change leaves open. -/
theorem allows {τ : Stage} (h : σ.Hands ch (some τ)) (ha : σ.allows j)
    (hopen : j.status.isTerminal = false)
    (hres : (ch.mutated r.now r.stamp j).job.status.isTerminal = false) :
    τ.allows (ch.mutated r.now r.stamp j).job := by
  cases h with
  | validate =>
    obtain ⟨hst, hd⟩ := ha
    simp [Stage.allows, Change.mutated, Job.touch, Change.apply, Job.transition, Job.stamp,
      JobStatus.canTransitionTo, hst, hd]
  | assign => exact ⟨ha.1, ha.2, rfl⟩
  | queue warnings language =>
    obtain ⟨hst, hd, -⟩ := ha
    cases hl : language <;>
      simp [Stage.allows, Change.mutated, Job.touch, Change.apply, Job.transition,
        JobStatus.canTransitionTo, Change.orKeep, Job.stamp, hst, hd]
    all_goals split <;> simp_all
  | claim => exact ⟨ha.1, rfl⟩
  | expire b e =>
    have hfailed : (Change.mutated (.fail e) r.now r.stamp j).job.status = .failed :=
      Change.fail_status hopen e
    rw [hfailed] at hres
    cases hres
  | spooled => exact ⟨rfl, rfl⟩
  | observe spoolerJobId ho =>
    obtain ⟨hd, hid⟩ := ha
    have hne : ∀ x, ch ≠ .spooled x := by rintro x rfl; exact ho
    have htarget : ch.target j = j.delivery := by
      cases ch <;> first | rfl | exact absurd ho id
    refine ⟨?_, ?_⟩
    · exact (Change.delivery_apply.trans htarget).trans hd
    · exact (Change.spoolerJobId_apply hne).trans hid

/-- A job is given up closed, or past the agent's own queue. -/
theorem delivery_of_none (h : σ.Hands ch none) (ha : σ.allows j)
    (hopen : j.status.isTerminal = false)
    (hres : (ch.mutated r.now r.stamp j).job.status.isTerminal = false) :
    (ch.mutated r.now r.stamp j).job.delivery ≠ .requestAccepted := by
  have hfail : ∀ e, (Change.mutated (.fail e) r.now r.stamp j).job.status = .failed :=
    fun e => Change.fail_status hopen e
  cases h with
  | refuse e | giveUp e | failed b e =>
    rw [hfail e] at hres
    cases hres
  | delivered =>
    have hd : (Change.delivered.mutated r.now r.stamp j).job.delivery = .deviceDelivered :=
      Change.delivery_apply
    rw [hd]
    decide
  | finish spoolerJobId ho =>
    have htarget : ch.target j = j.delivery := by
      cases ch <;> first | rfl | exact absurd ho id
    have hd : (ch.mutated r.now r.stamp j).job.delivery = j.delivery :=
      Change.delivery_apply.trans htarget
    rw [hd, ha.1]
    decide
  | @close job printer ch hr =>
    obtain rfl : j = job := ha
    rcases reconciled_close hr with ⟨rfl, hd⟩ | ⟨e, rfl, -⟩
    · have hd' : (Change.mutated (.complete .bytesDelivered) r.now r.stamp j).job.delivery
          = j.delivery := Change.delivery_apply
      rw [hd', hd]
      decide
    · rw [hfail e] at hres
      cases hres

theorem unclaimed {τ : Stage} (h : σ.Hands ch (some τ)) (hτ : τ.unclaimed = true) :
    σ.unclaimed = true ∧ ch ≠ .claim := by
  cases h <;> simp_all [Stage.unclaimed]

theorem uninvoked {τ : Stage} (h : σ.Hands ch (some τ)) (hτ : τ.uninvoked = true) :
    σ.uninvoked = true := by
  cases h with
  | expire b => cases b <;> first | rfl | exact hτ
  | _ => first | rfl | exact hτ | simp [Stage.uninvoked] at hτ

theorem carries {τ : Stage} (h : σ.Hands ch (some τ)) : τ.carries = false := by
  cases h <;> rfl

end Stage.Hands

/-- Cancellation and shutdown close the record, or leave it as it is. -/
theorem Foreign.closes {origin : Origin} {ch : Change} {j : Job} {now : Time}
    (h : Foreign origin ch) (hopen : j.status.isTerminal = false) :
    (ch.apply now j).1.status.isTerminal = true ∨ (ch.apply now j).1 = j := by
  cases h with
  | cancelQueued =>
    by_cases hd : j.delivery = .requestAccepted
    · left
      rw [Change.cancelQueued_status hopen hd]
      rfl
    · right
      rw [Change.cancelQueued_skip hd]
  | cancelSpooled =>
    left
    rw [Change.cancelSpooled_status hopen]
    rfl
  | shutdown =>
    left
    rw [Change.fail_status hopen]
    rfl

theorem Foreign.permitted {origin : Origin} {ch : Change} {j : Job} (h : Foreign origin ch) :
    ch.Permitted j := by
  cases h <;> trivial

theorem Foreign.ne_claim {origin : Origin} {ch : Change} (h : Foreign origin ch) :
    ch ≠ .claim := by
  cases h <;> simp

namespace Ledger

variable {l l' : Ledger} {id : JobId} {σ : Stage}

/-! ### Frames -/

@[simp] theorem active_hand {o : Option Stage} : (l.hand id o).active = l.active := rfl
@[simp] theorem stored_hand {o : Option Stage} : (l.hand id o).stored = l.stored := rfl
@[simp] theorem log_hand {o : Option Stage} : (l.hand id o).log = l.log := rfl
@[simp] theorem next_hand {o : Option Stage} : (l.hand id o).next = l.next := rfl
@[simp] theorem custody_hand {o : Option Stage} :
    (l.hand id o).custody = Function.update l.custody id o := rfl

/-- Custody that stays where it is. -/
theorem hand_custody (l : Ledger) (id : JobId) : l.hand id (l.custody id) = l := by
  rw [hand, Function.update_eq_self]

/-- Whether a stage fits does not depend on who else has custody. -/
theorem Fits.hand {id' : JobId} {o : Option Stage} (h : l.Fits id σ) :
    (l.hand id' o).Fits id σ :=
  ⟨h.allows, h.unclaimed, h.uninvoked, h.draft, h.stored, h.unloaded, h.loaded⟩

theorem invocations_append {log es : List Entry} (h : l.log = log ++ es)
    (hes : ∀ e ∈ es, e.isInvoked id = false) : l.invocations id = log.countP (Entry.isInvoked id) := by
  rw [invocations, h, List.countP_append, Nat.add_eq_left]
  exact List.countP_eq_zero.mpr fun e he => by simp [hes e he]

theorem Claimed.mono (hlog : ∀ e ∈ l.log, e ∈ l'.log) (h : l.Claimed id) : l'.Claimed id := by
  obtain ⟨e, he, hc⟩ := h
  exact ⟨e, hlog e he, hc⟩

theorem claimed_append {es : List Entry} (hlog : l'.log = l.log ++ es)
    (hes : ∀ e ∈ es, e.isClaim id = false) : l'.Claimed id ↔ l.Claimed id := by
  constructor
  · rintro ⟨e, he, hc⟩
    rw [hlog, List.mem_append] at he
    rcases he with he | he
    · exact ⟨e, he, hc⟩
    · rw [hes e he] at hc
      cases hc
  · exact Claimed.mono fun e he => hlog ▸ List.mem_append_left _ he

/-- A stage keeps fitting while the job's own records stay and the log gains
no claim and no invocation of it. -/
theorem Fits.mono {es : List Entry} (h : l.Fits id σ)
    (hactive : ∀ j, l'.active id = some j → l.active id = some j)
    (hstored : l'.stored id = l.stored id ∨
      (∀ job, σ ≠ .draft job) ∧ ∀ job, σ ≠ .unloaded job)
    (hlog : l'.log = l.log ++ es) (hclaim : ∀ e ∈ es, e.isClaim id = false)
    (hinv : ∀ e ∈ es, e.isInvoked id = false) : l'.Fits id σ where
  allows j hj := h.allows j (hactive j hj)
  unclaimed hu := by
    rw [claimed_append hlog hclaim]
    exact h.unclaimed hu
  uninvoked hu := by
    rw [invocations_append hlog hinv]
    exact h.uninvoked hu
  draft job hσ := by
    rcases hstored with hs | ⟨hne, -⟩
    · rw [hs]
      exact h.draft job hσ
    · exact absurd hσ (hne job)
  stored := h.stored
  unloaded job hσ := by
    rcases hstored with hs | ⟨-, hne⟩
    · rw [hs]
      exact h.unloaded job hσ
    · exact absurd hσ (hne job)
  loaded := h.loaded

/-! ### Moves that change a record -/

section Change

variable {o : Origin} {r : Reading} {ch : Change} {j : Job}

theorem active_change_self : (l.change o r id ch j).active id =
    if (ch.mutated r.now r.stamp j).job.status.isTerminal then none
    else some (ch.mutated r.now r.stamp j).job := Function.update_self ..

theorem active_change_of_ne {id' : JobId} (h : id' ≠ id) :
    (l.change o r id ch j).active id' = l.active id' := Function.update_of_ne h ..

theorem stored_change_of_ne {id' : JobId} (hid : j.jobId = id) (h : id' ≠ id) :
    (l.change o r id ch j).stored id' = l.stored id' := by
  have hm : (ch.mutated r.now r.stamp j).job.jobId = id := Change.jobId_mutated.trans hid
  show (if _ then Function.update l.stored _ _ else l.stored) id' = _
  split
  · rw [hm, Function.update_of_ne h]
  · rfl

theorem stored_change_self (o : Origin) (r : Reading) (ch : Change) (hid : j.jobId = id) :
    (l.change o r id ch j).stored id = some (ch.mutated r.now r.stamp j).job ∨
      (l.change o r id ch j).stored id = l.stored id := by
  have hm : (ch.mutated r.now r.stamp j).job.jobId = id := Change.jobId_mutated.trans hid
  show (if _ then Function.update l.stored _ _ else l.stored) id = _ ∨
    (if _ then Function.update l.stored _ _ else l.stored) id = _
  split
  · left
    rw [hm, Function.update_self]
  · exact Or.inr rfl

theorem isClaim_of_ne {id' : JobId} (h : id' ≠ id) {e : Entry}
    (he : e.recordId = some id) : e.isClaim id' = false := by
  cases e with
  | applied o id'' c ev =>
    obtain rfl := Option.some_inj.mp he
    simp [Entry.isClaim, Ne.symm h]
  | _ => rfl

theorem isInvoked_of_ne {id' : JobId} (h : id' ≠ id) {e : Entry}
    (he : e.recordId = some id) : e.isInvoked id' = false := by
  cases e with
  | invoked id'' p =>
    obtain rfl := Option.some_inj.mp he
    simp [Entry.isInvoked, Ne.symm h]
  | _ => rfl

/-- **Changing the record of `id` and handing it over** preserves the invariant
when the new stage fits. -/
theorem Inv.change_hand {σ' : Option Stage} (h : l.Inv) (hj : l.active id = some j)
    (hp : ch.Permitted j)
    (hfit : ∀ τ, σ' = some τ → (l.change o r id ch j).Fits id τ) :
    ((l.change o r id ch j).hand id σ').Inv := by
  obtain ⟨hid, hlt⟩ := h.activeId id j hj
  obtain ⟨hsound, hopen⟩ := h.active id j hj
  have hm : (ch.mutated r.now r.stamp j).job.jobId = id := Change.jobId_mutated.trans hid
  have hms : (ch.mutated r.now r.stamp j).job.Sound := Change.mutated_sound hsound hopen hp
  -- other jobs are as they were
  have hactive : ∀ id' k, (l.change o r id ch j).active id' = some k →
      id' = id ∧ k = (ch.mutated r.now r.stamp j).job ∧ k.status.isTerminal = false ∨
        l.active id' = some k := by
    intro id' k hk
    by_cases he : id' = id
    · subst he
      rw [active_change_self] at hk
      split at hk
      · cases hk
      · next ht =>
        obtain rfl := Option.some_inj.mp hk
        exact Or.inl ⟨rfl, rfl, by simpa using ht⟩
    · rw [active_change_of_ne he] at hk
      exact Or.inr hk
  have hstored : ∀ id' k, (l.change o r id ch j).stored id' = some k →
      id' = id ∧ k = (ch.mutated r.now r.stamp j).job ∨ l.stored id' = some k := by
    intro id' k hk
    by_cases he : id' = id
    · subst he
      rcases stored_change_self o r ch hid with hs | hs
      · rw [hs] at hk
        exact Or.inl ⟨rfl, (Option.some_inj.mp hk).symm⟩
      · exact Or.inr (hs ▸ hk)
    · rw [stored_change_of_ne hid he] at hk
      exact Or.inr hk
  -- field by field: the job that changed, then all others
  refine ⟨?_, ?_, ?_, ?_, ?_, ?_, ?_, ?_⟩
  · intro id' k hk
    rcases hactive id' k hk with ⟨rfl, rfl, -⟩ | hk
    · exact ⟨hm, hlt⟩
    · exact h.activeId id' k hk
  · intro id' k hk
    rcases hstored id' k hk with ⟨rfl, rfl⟩ | hk
    · exact ⟨hm, hlt⟩
    · exact h.storedId id' k hk
  · intro id' τ hτ
    by_cases he : id' = id
    · exact he ▸ hlt
    · rw [custody_hand, Function.update_of_ne he] at hτ
      exact h.custodyLt id' τ hτ
  · intro e he id' hid'
    rcases List.mem_append.mp he with he | he
    · exact h.logLt e he id' hid'
    · rw [List.mem_singleton] at he
      subst he
      exact (Option.some_inj.mp hid') ▸ hlt
  · intro id' k hk
    rcases hactive id' k hk with ⟨rfl, rfl, ho⟩ | hk
    · exact ⟨hms, ho⟩
    · exact h.active id' k hk
  · intro id' k hk
    rcases hstored id' k hk with ⟨rfl, rfl⟩ | hk
    · exact hms
    · exact h.stored id' k hk
  · intro id' τ hτ
    by_cases he : id' = id
    · subst he
      rw [custody_hand, Function.update_self] at hτ
      exact (hfit τ hτ).hand
    · rw [custody_hand, Function.update_of_ne he] at hτ
      refine (h.fits id' τ hτ).mono (fun k hk => ?_) (Or.inl (stored_change_of_ne (o := o) hid he)) rfl
        (fun e he' => ?_) (fun e he' => ?_)
      · rwa [active_hand, active_change_of_ne he] at hk
      · rw [List.mem_singleton] at he'
        exact isClaim_of_ne he (by rw [he']; rfl)
      · rw [List.mem_singleton] at he'
        exact isInvoked_of_ne he (by rw [he']; rfl)
  · intro id'
    have hlog : (l.change o r id ch j).invocations id' = l.invocations id' :=
      invocations_append rfl (by simp [Entry.isInvoked])
    exact hlog ▸ h.once id'

end Change

/-- **Handing over without touching a record** preserves the invariant when
the new stage fits. -/
theorem Inv.hand {σ' : Option Stage} (h : l.Inv) (hlt : ∀ τ, σ' = some τ → id < l.next)
    (hfit : ∀ τ, σ' = some τ → l.Fits id τ) : (l.hand id σ').Inv := by
  refine ⟨h.activeId, h.storedId, ?_, h.logLt, h.active, h.stored, ?_, h.once⟩
  · intro id' τ hτ
    by_cases he : id' = id
    · subst he
      rw [custody_hand, Function.update_self] at hτ
      exact hlt τ hτ
    · rw [custody_hand, Function.update_of_ne he] at hτ
      exact h.custodyLt id' τ hτ
  · intro id' τ hτ
    by_cases he : id' = id
    · subst he
      rw [custody_hand, Function.update_self] at hτ
      exact (hfit τ hτ).hand
    · rw [custody_hand, Function.update_of_ne he] at hτ
      exact (h.fits id' τ hτ).hand

/-- **Noting an entry** that claims and invokes nothing preserves the
invariant. -/
theorem Inv.note (h : l.Inv) {e : Entry} (hlt : ∀ id, e.recordId = some id → id < l.next)
    (hclaim : ∀ id, e.isClaim id = false) (hinv : ∀ id, e.isInvoked id = false) :
    (l.note e).Inv := by
  refine ⟨h.activeId, h.storedId, h.custodyLt, ?_, h.active, h.stored, ?_, ?_⟩
  · intro e' he' id hid
    rcases List.mem_append.mp he' with he' | he'
    · exact h.logLt e' he' id hid
    · rw [List.mem_singleton] at he'
      exact hlt id (he' ▸ hid)
  · intro id τ hτ
    refine (h.fits id τ hτ).mono (fun _ hk => hk) (Or.inl rfl) rfl ?_ ?_
    · simpa using hclaim id
    · simpa using hinv id
  · intro id
    have hlog : (l.note e).invocations id = l.invocations id :=
      invocations_append rfl (by simpa using hinv id)
    exact hlog ▸ h.once id

theorem invocations_note_invoked (printer : PrinterId) (id' : JobId) :
    (l.note (.invoked id printer)).invocations id' =
      l.invocations id' + if id = id' then 1 else 0 := by
  simp [invocations, Ledger.note, Entry.isInvoked]

/-- **Entering `provider.submit`** preserves the invariant when it was not
entered before. -/
theorem Inv.invoke {τ : Stage} {printer : PrinterId} (h : l.Inv) (hc : l.custody id = some σ)
    (hσ : σ.uninvoked = true) (hclaim : τ.unclaimed = false) (hinv : τ.uninvoked = false)
    (hcarry : τ.carries = false) (hallows : ∀ j, σ.allows j → τ.allows j) :
    ((l.hand id (some τ)).note (.invoked id printer)).Inv := by
  have hlt := h.custodyLt id σ hc
  -- the job has not been invoked before, so this is its one invocation
  have hzero := (h.fits id σ hc).uninvoked hσ
  refine ⟨h.activeId, h.storedId, ?_, ?_, h.active, h.stored, ?_, ?_⟩
  · intro id' τ' hτ'
    by_cases he : id' = id
    · exact he ▸ hlt
    · exact h.custodyLt id' τ' (by rwa [Ledger.note, custody_hand, Function.update_of_ne he] at hτ')
  · intro e he id' hid
    rcases List.mem_append.mp he with he | he
    · exact h.logLt e he id' hid
    · rw [List.mem_singleton] at he
      subst he
      exact (Option.some_inj.mp hid) ▸ hlt
  · intro id' τ' hτ'
    by_cases he : id' = id
    · subst he
      obtain rfl : τ = τ' := by
        rwa [Ledger.note, custody_hand, Function.update_self, Option.some_inj] at hτ'
      refine ⟨fun j hj => hallows j ((h.fits id' σ hc).allows j hj), ?_, ?_, ?_, ?_, ?_, ?_⟩
      · intro hu
        rw [hclaim] at hu
        cases hu
      · intro hu
        rw [hinv] at hu
        cases hu
      all_goals
        rintro job rfl
        cases hcarry
    · rw [Ledger.note, custody_hand, Function.update_of_ne he] at hτ'
      refine (h.fits id' τ' hτ').mono (fun _ hk => hk) (Or.inl rfl) rfl ?_ ?_
      · simp [Entry.isClaim]
      · simpa [Entry.isInvoked] using Ne.symm he
  · intro id'
    rw [invocations_note_invoked]
    split
    · next he =>
      subst he
      show l.invocations id + 1 ≤ 1
      omega
    · exact h.once id'

/-- **Making a record active** preserves the invariant when the new stage
fits. -/
theorem Inv.activate {job : Job} {τ : Stage} (h : l.Inv) (hlt : job.jobId < l.next)
    (hjob : job.Sound ∧ job.status.isTerminal = false)
    (hfit : ∀ l' : Ledger, l'.stored = l.stored → l'.log = l.log →
      l'.active job.jobId = some job → l'.Fits job.jobId τ) :
    { l.hand job.jobId (some τ) with
      active := Function.update l.active job.jobId (some job) }.Inv := by
  have hactive : ∀ id k, Function.update l.active job.jobId (some job) id = some k →
      id = job.jobId ∧ k = job ∨ l.active id = some k := by
    intro id k hk
    by_cases he : id = job.jobId
    · subst he
      rw [Function.update_self] at hk
      exact Or.inl ⟨rfl, (Option.some_inj.mp hk).symm⟩
    · rw [Function.update_of_ne he] at hk
      exact Or.inr hk
  refine ⟨?_, h.storedId, ?_, h.logLt, ?_, h.stored, ?_, h.once⟩
  · intro id k hk
    rcases hactive id k hk with ⟨rfl, rfl⟩ | hk
    · exact ⟨rfl, hlt⟩
    · exact h.activeId id k hk
  · intro id σ' hσ
    by_cases he : id = job.jobId
    · exact he ▸ hlt
    · exact h.custodyLt id σ' (by rwa [custody_hand, Function.update_of_ne he] at hσ)
  · intro id k hk
    rcases hactive id k hk with ⟨rfl, rfl⟩ | hk
    · exact hjob
    · exact h.active id k hk
  · intro id σ' hσ
    by_cases he : id = job.jobId
    · subst he
      rw [custody_hand, Function.update_self, Option.some_inj] at hσ
      exact hσ ▸ hfit _ rfl rfl (Function.update_self ..)
    · rw [custody_hand, Function.update_of_ne he] at hσ
      exact (h.fits id σ' hσ).mono (fun k hk => (hactive id k hk).resolve_left fun hc => he hc.1)
        (Or.inl rfl) (List.append_nil _).symm (by simp) (by simp)

/-- **Storing the record** of a draft preserves the invariant. -/
theorem Inv.store {job : Job} (h : l.Inv) (hc : l.custody job.jobId = some (.draft job)) :
    { l.hand job.jobId (some (.stored job)) with
      stored := Function.update l.stored job.jobId (some job) }.Inv := by
  have hlt := h.custodyLt _ _ hc
  have hf := h.fits _ _ hc
  obtain ⟨-, hfresh, -⟩ := hf.draft job rfl
  -- the only new record is that of the draft, which is fresh
  have hstored : ∀ id k, Function.update l.stored job.jobId (some job) id = some k →
      id = job.jobId ∧ k = job ∨ l.stored id = some k := by
    intro id k hk
    by_cases he : id = job.jobId
    · subst he
      rw [Function.update_self] at hk
      exact Or.inl ⟨rfl, (Option.some_inj.mp hk).symm⟩
    · rw [Function.update_of_ne he] at hk
      exact Or.inr hk
  refine ⟨h.activeId, ?_, ?_, h.logLt, h.active, ?_, ?_, h.once⟩
  · intro id k hk
    rcases hstored id k hk with ⟨rfl, rfl⟩ | hk
    · exact ⟨rfl, hlt⟩
    · exact h.storedId id k hk
  · intro id σ' hσ
    by_cases he : id = job.jobId
    · exact he ▸ hlt
    · exact h.custodyLt id σ' (by rwa [custody_hand, Function.update_of_ne he] at hσ)
  · intro id k hk
    rcases hstored id k hk with ⟨rfl, rfl⟩ | hk
    · exact hfresh.1
    · exact h.stored id k hk
  · intro id σ' hσ
    by_cases he : id = job.jobId
    · subst he
      rw [custody_hand, Function.update_self, Option.some_inj] at hσ
      subst hσ
      refine ⟨hf.allows, fun _ => hf.unclaimed rfl, fun _ => hf.uninvoked rfl, ?_, ?_, ?_, ?_⟩
      · rintro job' ⟨⟩
      · rintro job' ⟨⟩
        exact ⟨rfl, hfresh⟩
      · rintro job' ⟨⟩
      · rintro job' ⟨⟩
    · rw [custody_hand, Function.update_of_ne he] at hσ
      exact (h.fits id σ' hσ).mono (fun _ hk => hk) (Or.inl (Function.update_of_ne he ..))
        (List.append_nil _).symm (by simp) (by simp)

/-- A new id is unknown to the ledger, so a draft fits it. -/
theorem Inv.draw {job : Job} (h : l.Inv) (hid : job.jobId = l.next) (hfresh : job.Fresh) :
    { l.hand l.next (some (.draft job)) with next := l.next + 1 }.Inv := by
  have hbump : { l with next := l.next + 1 }.Inv := by
    refine ⟨fun id j hj => ?_, fun id j hj => ?_, fun id σ' hσ => ?_, fun e he id hid' => ?_,
      h.active, h.stored, fun id σ' hσ => ?_, h.once⟩
    · exact ⟨(h.activeId id j hj).1, Nat.lt_succ_of_lt (h.activeId id j hj).2⟩
    · exact ⟨(h.storedId id j hj).1, Nat.lt_succ_of_lt (h.storedId id j hj).2⟩
    · exact Nat.lt_succ_of_lt (h.custodyLt id σ' hσ)
    · exact Nat.lt_succ_of_lt (h.logLt e he id hid')
    · have hf := h.fits id σ' hσ
      exact ⟨hf.allows, hf.unclaimed, hf.uninvoked, hf.draft, hf.stored, hf.unloaded, hf.loaded⟩
  have hclaim : ∀ e ∈ l.log, e.isClaim l.next = true → False := by
    intro e he hcl
    cases e with
    | applied o id ch ev =>
      have : id = l.next := by
        simp only [Entry.isClaim, Bool.and_eq_true, beq_iff_eq] at hcl
        exact hcl.1
      exact absurd (h.logLt _ he id rfl) (this ▸ Nat.lt_irrefl _)
    | _ => cases hcl
  have hinv : ∀ e ∈ l.log, ¬ e.isInvoked l.next = true := by
    intro e he hin
    cases e with
    | invoked id p =>
      have : id = l.next := by simpa [Entry.isInvoked] using hin
      exact absurd (h.logLt _ he id rfl) (this ▸ Nat.lt_irrefl _)
    | _ => cases hin
  refine hbump.hand (fun _ _ => Nat.lt_succ_self _) (fun τ hτ => ?_)
  obtain rfl := Option.some_inj.mp hτ
  refine ⟨fun j hj => ?_, fun _ => ?_, fun _ => ?_, ?_, ?_, ?_, ?_⟩
  · exact absurd (h.activeId _ j hj).2 (Nat.lt_irrefl _)
  · rintro ⟨e, he, hcl⟩
    exact hclaim e he hcl
  · exact List.countP_eq_zero.mpr hinv
  · rintro job' ⟨⟩
    refine ⟨hid, hfresh, ?_⟩
    by_contra hne
    obtain ⟨j, hj⟩ := Option.ne_none_iff_exists'.mp hne
    exact absurd (h.storedId _ j hj).2 (Nat.lt_irrefl _)
  all_goals rintro job' ⟨⟩

/-- The ledger of an engine that has never run. -/
def empty : Ledger := ⟨fun _ => none, fun _ => none, fun _ => none, 0, false, []⟩

theorem Inv.empty : (empty : Ledger).Inv where
  activeId _ _ h := (by cases h)
  storedId _ _ h := (by cases h)
  custodyLt _ _ h := (by cases h)
  logLt _ h := (by cases h)
  active _ _ h := (by cases h)
  stored _ _ h := (by cases h)
  fits _ _ h := (by cases h)
  once _ := Nat.zero_le _

/-- What somebody holds after some jobs were orphaned was held before. -/
theorem custody_of_orphan {ids : List JobId} {σ : Stage}
    (h : (if id ∈ ids then none else l.custody id) = some σ) : l.custody id = some σ := by
  split at h
  · cases h
  · exact h

/-! ### One rule for each move -/

section Moves

variable {o : Origin} {ch : Change} {j : Job}

/-- **Announcing a stored record** makes its job active, at its first stage. -/
theorem Inv.announce {job : Job} (h : l.Inv) (hc : l.custody job.jobId = some (.stored job)) :
    ({ l.hand job.jobId (some .received) with
      active := Function.update l.active job.jobId (some job) }.note (.created job)).Inv := by
  have hf := h.fits _ _ hc
  obtain ⟨-, hs, hst, hd⟩ := hf.stored job rfl
  refine (h.activate (h.custodyLt _ _ hc) ⟨hs, by rw [hst]; rfl⟩ ?_).note ?_ ?_ ?_
  · intro l₁ _ hlog hact
    refine ⟨fun j hj => ?_, fun _ => ?_, fun _ => ?_, ?_, ?_, ?_, ?_⟩
    · obtain rfl : job = j := Option.some_inj.mp (hact.symm.trans hj)
      exact ⟨hst, hd⟩
    · rw [Claimed, hlog]
      exact hf.unclaimed rfl
    · rw [invocations, hlog]
      exact hf.uninvoked rfl
    all_goals rintro job' ⟨⟩
  · intro id hid
    obtain rfl := Option.some_inj.mp hid
    exact h.custodyLt _ _ hc
  · exact fun _ => rfl
  · exact fun _ => rfl

/-- A stage that allows as much takes the place of another. -/
theorem Inv.relabel {σ' : Stage} (h : l.Inv) (hc : l.custody id = some σ)
    (hclaim : σ'.unclaimed = true → σ.unclaimed = true)
    (hinv : σ'.uninvoked = true → σ.uninvoked = true) (hcarry : σ'.carries = false)
    (hj : ∀ j, l.active id = some j → j.Sound → σ.allows j → σ'.allows j) :
    (l.hand id (some σ')).Inv := by
  have hf := h.fits _ _ hc
  refine h.hand (fun _ _ => h.custodyLt _ _ hc) (fun τ hτ => ?_)
  obtain rfl := Option.some_inj.mp hτ
  refine ⟨fun j ha => hj j ha (h.active _ _ ha).1 (hf.allows j ha),
    fun hu => hf.unclaimed (hclaim hu), fun hu => hf.uninvoked (hinv hu), ?_, ?_, ?_, ?_⟩
  all_goals
    rintro job rfl
    cases hcarry

/-- **The custodian changes the record**, and what it holds moves on with it. -/
theorem Inv.own {σ' : Option Stage} (r : Reading) (h : l.Inv) (hc : l.custody id = some σ)
    (hh : σ.Hands ch σ') (hj : l.active id = some j) :
    ((l.change σ.origin r id ch j).hand id σ').Inv := by
  have hf := h.fits _ _ hc
  have ha := hf.allows j hj
  obtain ⟨-, hopen⟩ := h.active id j hj
  refine h.change_hand hj (hh.permitted ha) fun τ hτ => ?_
  subst hτ
  have hcarry := hh.carries
  refine ⟨fun k hk => ?_, fun hu => ?_, fun hu => ?_, ?_, ?_, ?_, ?_⟩
  · rw [active_change_self] at hk
    split at hk
    · cases hk
    · next ht =>
      obtain rfl := Option.some_inj.mp hk
      exact hh.allows ha hopen (by simpa using ht)
  · obtain ⟨hu', hne⟩ := hh.unclaimed hu
    rw [claimed_append rfl (by simpa [Entry.isClaim] using hne)]
    exact hf.unclaimed hu'
  · rw [invocations_append rfl (by simp [Entry.isInvoked])]
    exact hf.uninvoked (hh.uninvoked hu)
  all_goals
    rintro job rfl
    cases hcarry

/-- **A change by another routine** only closes the record, or leaves it as it is. -/
theorem Inv.foreign (r : Reading) (h : l.Inv) (hfo : Foreign o ch) (hj : l.active id = some j) :
    (l.change o r id ch j).Inv := by
  obtain ⟨hid, -⟩ := h.activeId id j hj
  obtain ⟨-, hopen⟩ := h.active id j hj
  rw [← (l.change o r id ch j).hand_custody id]
  refine h.change_hand hj hfo.permitted fun τ hτ => ?_
  have hf := h.fits id τ hτ
  have hact := hf.allows j hj
  refine ⟨fun k hk => ?_, fun hu => ?_, fun hu => ?_, ?_, ?_, ?_, hf.loaded⟩
  · rw [active_change_self] at hk
    split at hk
    · cases hk
    · next ht =>
      obtain rfl := Option.some_inj.mp hk
      rcases hfo.closes hopen with hclosed | hsame
      · exact absurd hclosed ht
      · rw [Change.mutated_eq_self hsame]
        exact hact
  · rw [claimed_append rfl (by simpa [Entry.isClaim] using hfo.ne_claim)]
    exact hf.unclaimed hu
  · rw [invocations_append rfl (by simp [Entry.isInvoked])]
    exact hf.uninvoked hu
  all_goals
    rintro job rfl
    cases hact

/-- What nobody holds any more fits as before. -/
theorem Inv.orphan (ids : List JobId) (h : l.Inv) :
    { l with custody := fun id => if id ∈ ids then none else l.custody id }.Inv := by
  refine ⟨h.activeId, h.storedId, fun id σ' hσ => h.custodyLt id σ' (custody_of_orphan hσ),
    h.logLt, h.active, h.stored, fun id σ' hσ => ?_, h.once⟩
  have hf := h.fits id σ' (custody_of_orphan hσ)
  exact ⟨hf.allows, hf.unclaimed, hf.uninvoked, hf.draft, hf.stored, hf.unloaded, hf.loaded⟩

/-- What reconciliation has read is stored and open. -/
theorem unloaded_of_load {τ : Stage} (hτ : (l.openRecord id).map Stage.unloaded = some τ) :
    ∃ job, τ = .unloaded job ∧ l.stored id = some job ∧ job.status.isTerminal = false := by
  obtain ⟨job, hjob, rfl⟩ := Option.map_eq_some_iff.mp hτ
  obtain ⟨hstored, hopen⟩ := Option.filter_eq_some_iff.mp hjob
  exact ⟨job, rfl, hstored, by simpa using hopen⟩

/-- **Reading the repository** hands every open record to reconciliation. -/
theorem Inv.load (h : l.Inv) (ha : ∀ id, l.active id = none) :
    { l with custody := fun id => (l.openRecord id).map .unloaded, loaded := true }.Inv := by
  refine ⟨h.activeId, h.storedId, fun id σ' hσ => ?_, h.logLt, h.active, h.stored,
    fun id σ' hσ => ?_, h.once⟩
  · obtain ⟨job, -, hstored, -⟩ := unloaded_of_load hσ
    exact (h.storedId id job hstored).2
  · obtain ⟨job, rfl, hstored, hopen⟩ := unloaded_of_load hσ
    refine ⟨fun j hj => ?_, fun hu => (by cases hu), fun hu => (by cases hu), ?_, ?_, ?_, ?_⟩
    · rw [ha id] at hj
      cases hj
    · rintro job' ⟨⟩
    · rintro job' ⟨⟩
    · rintro job' ⟨⟩
      exact ⟨(h.storedId id job hstored).1, hstored, hopen⟩
    · rintro job' ⟨⟩

/-- **Taking a record back** makes its job active again. -/
theorem Inv.reopen {job : Job} (h : l.Inv) (hc : l.custody job.jobId = some (.unloaded job)) :
    { l.hand job.jobId (some (.loaded job)) with
      active := Function.update l.active job.jobId (some job) }.Inv := by
  have hf := h.fits _ _ hc
  obtain ⟨-, hstored, hopen⟩ := hf.unloaded job rfl
  refine h.activate (h.custodyLt _ _ hc) ⟨h.stored _ _ hstored, hopen⟩ ?_
  intro l₁ _ _ hact
  refine ⟨fun j hj => ?_, fun hu => (by cases hu), fun hu => (by cases hu), ?_, ?_, ?_, ?_⟩
  · exact (Option.some_inj.mp (hact.symm.trans hj)).symm
  · rintro job' ⟨⟩
  · rintro job' ⟨⟩
  · rintro job' ⟨⟩
  · rintro job' ⟨⟩
    rfl

/-- A record that a purge left was there before. -/
theorem stored_of_purge {cutoff : Time}
    (h : (l.stored id).filter (fun j => !(j.status.isTerminal && j.createdAt < cutoff)) = some j) :
    l.stored id = some j :=
  (Option.filter_eq_some_iff.mp h).1

/-- **A purge** removes only closed records. -/
theorem Inv.purge (cutoff : Time) (h : l.Inv) :
    { l with stored := fun id =>
        (l.stored id).filter fun j => !(j.status.isTerminal && j.createdAt < cutoff) }.Inv := by
  refine ⟨h.activeId, fun id j hj => h.storedId id j (stored_of_purge hj), h.custodyLt, h.logLt,
    h.active, fun id j hj => h.stored id j (stored_of_purge hj), fun id σ' hσ => ?_, h.once⟩
  have hf := h.fits id σ' hσ
  refine ⟨hf.allows, hf.unclaimed, hf.uninvoked, fun job hd => ?_, hf.stored, fun job hu => ?_,
    hf.loaded⟩
  · obtain ⟨hid, hfresh, hnone⟩ := hf.draft job hd
    exact ⟨hid, hfresh, by simp [hnone]⟩
  · obtain ⟨hid, hstored, hopen⟩ := hf.unloaded job hu
    refine ⟨hid, ?_, hopen⟩
    simp [hstored, hopen]

/-- **Of a crash** only what is stored is left. -/
theorem Inv.crash (h : l.Inv) :
    { l.note .crashed with
      active := fun _ => none, custody := fun _ => none, loaded := false }.Inv := by
  have hnote : (l.note .crashed).Inv :=
    h.note (fun id hid => by cases hid) (fun _ => rfl) (fun _ => rfl)
  exact ⟨fun id j hj => (by cases hj), h.storedId, fun id σ' hσ => (by cases hσ), hnote.logLt,
    fun id j hj => (by cases hj), h.stored, fun id σ' hσ => (by cases hσ), hnote.once⟩

/-- Entries about a spooler or a channel do not concern the records. -/
theorem Inv.aside {e : Entry} (h : l.Inv) (he : e.Aside) : (l.note e).Inv := by
  refine h.note (fun id hid => ?_) (fun id => ?_) (fun id => ?_)
  · cases e <;> first | exact absurd he not_false | cases hid
  · cases e <;> first | rfl | exact absurd he not_false
  · cases e <;> first | rfl | exact absurd he not_false

end Moves

/-- **Every move preserves the invariant.** -/
theorem Inv.step {mv : Move} (h : l.Inv) (hs : l.Step mv l') : l'.Inv := by
  cases hs with
  | quiet => exact h
  | note he => exact h.aside he
  | draw _ hid hfresh => exact h.draw hid hfresh
  | forget => exact h.hand (fun τ hτ => by cases hτ) (fun τ hτ => by cases hτ)
  | store hc => exact h.store hc
  | announce hc => exact h.announce hc
  | relabel hc _ hclaim hinv _ hcarry hj => exact h.relabel hc hclaim hinv hcarry hj
  | own r hc hh hj => exact h.own r hc hh hj
  | foreign r hfo hj => exact h.foreign r hfo hj
  | invokeCalling printer hc | invokeExpired printer hc =>
    exact h.invoke hc rfl rfl rfl rfl fun _ ha => ha
  | orphan ids => exact h.orphan ids
  | load _ _ ha => exact h.load ha
  | reopen hc => exact h.reopen hc
  | purge cutoff => exact h.purge cutoff
  | crash => exact h.crash

end Ledger

end KilnPrint
