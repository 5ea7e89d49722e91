/-
At-most-once submission.

* one job for each client and idempotency key: `SubmitGate`;
* one `provider.submit` for each job: the ledger's invariant;
* none for a job cancelled while it waited: such a job is withdrawn, which needs
  every crash to be honest.  `Ledger.Recorded` shows that with a reliable
  repository it is: **a job is handed to a provider only after its claim is
  stored**.
-/
import KilnPrint.Engine.Coherence
import KilnPrint.Engine.SubmitGate
import KilnPrint.Engine.NotPrinted

namespace KilnPrint

open Runs

/-- The entry records that a `cancel` call moved `id` to `CANCELLED` at
`REQUEST_ACCEPTED`. -/
def Entry.cancelledWaiting (id : JobId) : Entry → Bool
  | applied .cancel id' _ (some ⟨.cancelled, job⟩) =>
    id' == id && job.delivery == .requestAccepted
  | _ => false

namespace Ledger

variable {l l' : Ledger} {mv : Move} {id : JobId}

/-! ### Claims are stored -/

/-- A stored record at `REQUEST_ACCEPTED` is of a job that was not handed to a
provider, and that no worker holds. -/
structure Recorded (l : Ledger) : Prop where
  unsent : ∀ id j, l.stored id = some j → j.delivery = .requestAccepted → l.invocations id = 0
  unclaimed : ∀ id j σ, l.stored id = some j → j.delivery = .requestAccepted →
    l.custody id = some σ → σ.held = false

theorem Recorded.honest (h : l.Recorded) : l.Honest := fun id j hj _ hd => h.unsent id j hj hd

/-- A worker that takes or keeps hold of a job leaves it past
`REQUEST_ACCEPTED`. -/
theorem delivery_of_held {σ τ : Stage} {ch : Change} {j : Job} {r : Reading}
    (h : σ.Hands ch (some τ)) (ha : σ.allows j) (hτ : τ.held = true) :
    (ch.mutated r.now r.stamp j).job.delivery ≠ .requestAccepted := by
  cases h with
  | claim =>
    rw [show (Change.claim.mutated r.now r.stamp j).job.delivery = .submitting from
      Change.delivery_apply]
    decide
  | expire b e =>
    rw [show ((Change.fail e).mutated r.now r.stamp j).job.delivery = j.delivery from
      Change.delivery_apply, ha.2]
    decide
  | _ => cases hτ

/-- A change of a record, by its holder or by another routine. -/
theorem Recorded.change {o : Origin} {r : Reading} {ch : Change} {j : Job} {σ' : Option Stage}
    (h : l.Recorded) (hagree : l.Agree) (hinv : l.Inv) (hj : l.active id = some j)
    (hok : r.repoOk = true) (hp : ch.Permitted j)
    (hσ : ∀ τ, σ' = some τ → τ.held = true →
      (ch.mutated r.now r.stamp j).job.delivery ≠ .requestAccepted) :
    ((l.change o r id ch j).hand id σ').Recorded := by
  obtain ⟨hid, -⟩ := hinv.activeId id j hj
  have hst := stored_change_reliable o ch hagree hj hid hok
  refine ⟨fun id' k hk hd => ?_, fun id' k τ hk hd hτ => ?_⟩
  · rw [invocations_change]
    by_cases he : id' = id
    · subst he
      rw [stored_hand, hst, Option.some_inj] at hk
      subst hk
      -- a delivery never goes down, so a record that is unsent now was unsent before
      have hle : j.delivery.rank ≤ (ch.mutated r.now r.stamp j).job.delivery.rank :=
        Change.rank_le_mutated hp
      rw [hd] at hle
      exact h.unsent id' j (hagree.synced id' j hj) (rank_eq_zero.mp (Nat.le_zero.mp hle))
    · rw [stored_hand, stored_change_of_ne hid he] at hk
      exact h.unsent id' k hk hd
  · by_cases he : id' = id
    · subst he
      rw [stored_hand, hst, Option.some_inj] at hk
      subst hk
      rw [custody_hand, Function.update_self] at hτ
      by_contra hheld
      exact hσ τ hτ (by simpa using hheld) hd
    · rw [stored_hand, stored_change_of_ne hid he] at hk
      rw [custody_hand, Function.update_of_ne he] at hτ
      exact h.unclaimed id' k τ hk hd hτ

/-- Handing a job on claims it only if its stage was already held. -/
theorem Recorded.hand {σ' : Option Stage} (h : l.Recorded)
    (hσ : ∀ τ, σ' = some τ → τ.held = true → ∃ σ, l.custody id = some σ ∧ σ.held = true) :
    (l.hand id σ').Recorded := by
  refine ⟨h.unsent, fun id' k τ hk hd hτ => ?_⟩
  by_cases he : id' = id
  · subst he
    rw [custody_hand, Function.update_self] at hτ
    by_contra hheld
    obtain ⟨σ, hc, hheld'⟩ := hσ τ hτ (by simpa using hheld)
    rw [h.unclaimed id' k σ hk hd hc] at hheld'
    cases hheld'
  · rw [custody_hand, Function.update_of_ne he] at hτ
    exact h.unclaimed id' k τ hk hd hτ

/-- An invocation is of a held job, and the record of a held job is not unsent. -/
theorem Recorded.invoke {σ τ : Stage} {printer : PrinterId} (h : l.Recorded)
    (hc : l.custody id = some σ) (hσ : σ.held = true) :
    ((l.hand id (some τ)).note (.invoked id printer)).Recorded := by
  have hh : (l.hand id (some τ)).Recorded := h.hand fun _ _ _ => ⟨σ, hc, hσ⟩
  refine ⟨fun id' k hk hd => ?_, hh.unclaimed⟩
  have hne : id ≠ id' := by
    rintro rfl
    rw [h.unclaimed id k σ hk hd hc] at hσ
    cases hσ
  rw [invocations_note_invoked, if_neg hne]
  exact h.unsent id' k hk hd

/-- The record of a draft is new, and a draft has not been invoked. -/
theorem Recorded.store {job : Job} (h : l.Recorded) (hinv : l.Inv)
    (hc : l.custody job.jobId = some (.draft job)) :
    ({ l.hand job.jobId (some (.stored job)) with
      stored := Function.update l.stored job.jobId (some job) } : Ledger).Recorded := by
  have hf := hinv.fits _ _ hc
  have hh : (l.hand job.jobId (some (.stored job))).Recorded :=
    h.hand fun τ hτ hheld => by cases hτ; cases hheld
  have hk' : ∀ {id k}, Function.update l.stored job.jobId (some job) id = some k →
      id = job.jobId ∨ l.stored id = some k := by
    intro id k hk
    by_cases he : id = job.jobId
    · exact Or.inl he
    · rw [Function.update_of_ne he] at hk
      exact Or.inr hk
  refine ⟨fun id k hk hd => ?_, fun id k τ hk hd hτ => ?_⟩
  · rcases hk' hk with rfl | hk
    · exact hf.uninvoked rfl
    · exact h.unsent id k hk hd
  · rcases hk' hk with rfl | hk
    · have hτ' : Function.update l.custody job.jobId (some (.stored job)) job.jobId = some τ := hτ
      rw [Function.update_self, Option.some_inj] at hτ'
      subst hτ'
      rfl
    · exact hh.unclaimed id k τ hk hd hτ

/-- **Every reliable move keeps it.** -/
theorem Recorded.step (h : l.Recorded) (hagree : l.Agree) (hinv : l.Inv) (hs : l.Step mv l')
    (hr : mv.Reliable) : l'.Recorded := by
  cases hs with
  | quiet => exact h
  | note he =>
    refine ⟨fun id k hk hd => ?_, h.unclaimed⟩
    rw [invocations_aside he]
    exact h.unsent id k hk hd
  | @draw job hl hid hfresh =>
    have hh : (l.hand l.next (some (.draft job))).Recorded :=
      h.hand fun τ hτ hheld => by cases hτ; cases hheld
    exact ⟨hh.unsent, hh.unclaimed⟩
  | forget hc hσ hj => exact h.hand fun τ hτ => by cases hτ
  | store hc => exact h.store hinv hc
  | @announce job hc =>
    have hh : (l.hand job.jobId (some .received)).Recorded :=
      h.hand fun τ hτ hheld => by cases hτ; cases hheld
    refine ⟨fun id k hk hd => ?_, hh.unclaimed⟩
    rw [show _ = l.invocations id from invocations_append rfl (by simp [Entry.isInvoked])]
    exact h.unsent id k hk hd
  | @relabel id' σ σ' hc hσ hclaim hinvk hheld hcarry hj =>
    exact h.hand fun τ hτ h' => ⟨σ, hc, hheld (by cases hτ; exact h')⟩
  | @own id' σ σ' ch j r hc hh hj =>
    have ha := (hinv.fits id' σ hc).allows j hj
    refine h.change hagree hinv hj hr (hh.permitted ha) fun τ hτ hheld => ?_
    subst hτ
    exact delivery_of_held hh ha hheld
  | @foreign o id' ch j r hfo hj =>
    rw [← (l.change o r id' ch j).hand_custody id']
    refine h.change hagree hinv hj hr hfo.permitted fun τ hτ hheld => ?_
    intro hd
    rw [hfo.delivery] at hd
    rw [h.unclaimed id' j τ (hagree.synced id' j hj) hd hτ] at hheld
    cases hheld
  | invokeCalling printer hc | invokeExpired printer hc => exact h.invoke hc rfl
  | orphan ids hσ =>
    exact ⟨h.unsent, fun id k τ hk hd hτ => h.unclaimed id k τ hk hd (custody_of_orphan hτ)⟩
  | load hl hc ha =>
    refine ⟨h.unsent, fun id k τ hk hd hτ => ?_⟩
    obtain ⟨job, rfl, -⟩ := unloaded_of_load hτ
    rfl
  | @reopen job hc =>
    have hh : (l.hand job.jobId (some (.loaded job))).Recorded :=
      h.hand fun τ hτ hheld => by cases hτ; cases hheld
    exact ⟨hh.unsent, hh.unclaimed⟩
  | purge cutoff =>
    exact ⟨fun id k hk => h.unsent id k (stored_of_purge hk),
      fun id k τ hk => h.unclaimed id k τ (stored_of_purge hk)⟩
  | crash =>
    refine ⟨fun id k hk hd => ?_, fun id k τ hk hd hτ => (by cases hτ)⟩
    exact invocations_crashed.trans (h.unsent id k hk hd)

theorem Recorded.empty : (empty : Ledger).Recorded :=
  ⟨fun _ _ h => (by cases h), fun _ _ _ h => (by cases h)⟩

/-! ### Jobs cancelled while they waited -/

/-- A cancellation reports `cancelled` of a job it closed. -/
theorem cancelledWaiting_applied {o : Origin} {id' : JobId} {ch : Change} {j : Job}
    {now stamp : Time} (hf : Foreign o ch)
    (h : (Entry.applied o id' ch (((ch.mutated now stamp j).event).map
      fun kind => { kind := kind, job := (ch.mutated now stamp j).job })).cancelledWaiting id
        = true) : o = .cancel ∧ id' = id ∧ j.delivery = .requestAccepted := by
  cases hev : (ch.mutated now stamp j).event with
  | none =>
    rw [hev] at h
    cases o <;> cases h
  | some kind =>
    rw [hev] at h
    have hboth : (id' == id && (ch.mutated now stamp j).job.delivery == .requestAccepted) = true ∧
        o = .cancel := by
      cases hf <;> cases kind <;> first | exact ⟨h, rfl⟩ | cases h
    obtain ⟨h', rfl⟩ := hboth
    rw [Bool.and_eq_true, beq_iff_eq, beq_iff_eq, hf.delivery] at h'
    exact ⟨rfl, h'⟩

theorem applied_of_cancelledWaiting {e : Entry} (h : e.cancelledWaiting id = true) :
    ∃ o id' ch ev, e = .applied o id' ch ev := by
  cases e <;> first | exact ⟨_, _, _, _, rfl⟩ | cases h

/-- **Every move keeps withdrawing the jobs it cancels while they wait**, if
crashes are honest. -/
theorem cancelledWaiting_step (h : l.Withdraws Entry.cancelledWaiting) (hinv : l.Inv)
    (hs : l.Step mv l') (hcrash : mv = .crash → l.Honest) :
    l'.Withdraws Entry.cancelledWaiting := by
  refine h.step hinv hs hcrash (fun _ _ => applied_of_cancelledWaiting) ?_ ?_
  · intro id id' σ σ' ch j r hmv hc hh hj hcw
    cases hh <;> cases hcw
  · intro id id' o ch j r hmv hfo hj hcw
    obtain ⟨rfl, rfl, hd⟩ := cancelledWaiting_applied hfo hcw
    have hopen := (hinv.active id' j hj).2
    refine ⟨rfl, ?_⟩
    rw [← (l.change .cancel r id' ch j).hand_custody id']
    refine .of_close h.unsent hinv hj hd hfo.delivery ?_ (Or.inl rfl)
    show (ch.apply r.now j).1.status.isTerminal = true
    cases hfo with
    | cancelQueued => rw [Change.cancelQueued_status hopen hd]; rfl
    | cancelSpooled => rw [Change.cancelSpooled_status hopen]; rfl

end Ledger

/-! ### Runs of the engine -/

variable {env : Env} {s : State}

theorem keyed_init : Keyed init where
  gated t h := (by cases h)
  named t who request pc job h := (by cases h)
  absent t who request job h := (by cases h)
  unique i j a b h := (by cases h)

/-- **At most one job for each key, at most one submission of each job, and none
of a job cancelled while it waited.** -/
theorem at_most_once (h : Reach (step env) Reliable init s) :
    (∀ i j a b, s.Copy i a → s.Copy j b → a.SameKey b → i = j) ∧
    (∀ id, s.log.countP (Entry.isInvoked id) ≤ 1) ∧
    ∀ id, (∃ e ∈ s.log, e.cancelledWaiting id = true) →
      ∀ printer, Entry.invoked id printer ∉ s.log := by
  have hkeyed : Keyed s := h.invariant keyed_init fun s a s' hr hk _ hs =>
    keyed_step (wf_of_reach hr) (agree_of_reach hr) hk hs
  have hwait : (ledger s).Recorded ∧ (ledger s).Withdraws Entry.cancelledWaiting := by
    refine h.invariant
      (I := fun s => (ledger s).Recorded ∧ (ledger s).Withdraws Entry.cancelledWaiting)
      (ledger_init ▸ ⟨.empty, .empty⟩) fun s a s' hr ⟨hrec, hcw⟩ hok hs => ?_
    have hinv := (wf_of_reach hr).inv
    obtain ⟨mv, hof, -, hmove⟩ := step_refines (wf_of_reach hr) hs
    exact ⟨hrec.step (agree_of_reach hr) hinv hmove (hof.reliable hok),
      Ledger.cancelledWaiting_step hcw hinv hmove fun _ => hrec.honest⟩
  exact ⟨fun i j a b ha hb hkey => hkeyed.unique i j a b (stored_of_copy h ha)
    (stored_of_copy h hb) hkey, (wf_of_reach h).inv.once, fun id hcw => hwait.2.sound hcw⟩

/-- A job is cancelled in its printer's channel; its worker then skips it. -/
def cancelledInChannel : List Action :=
  booting ++ submitting 1 2 ++ [.cancel 3 0, .run 3 {}, .run 3 {}] ++ List.replicate 3 (.run 2 {})

theorem at_most_once_cancelled :
    (∃ e ∈ (after cancelledInChannel).log, e.cancelledWaiting 0 = true) ∧
      ∀ printer, Entry.invoked 0 printer ∉ (after cancelledInChannel).log := by
  have hcw : ∃ e ∈ (after cancelledInChannel).log, e.cancelledWaiting 0 = true := by
    decide +kernel
  exact ⟨hcw, (at_most_once (reach_after Reliable cancelledInChannel
    (by decide +kernel))).2.2 0 hcw⟩

end KilnPrint
