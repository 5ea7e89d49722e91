/-
Jobs that were never handed to a provider.

What the engine tells about a job rests on its delivery stage:
`REQUEST_ACCEPTED` stands for a document no provider has seen.  This module
shows, for every move of the ledger,

* `Ledger.Unsent` — **an active job at `REQUEST_ACCEPTED` was not handed to a
  provider**;
* `Ledger.Withdrawn` — a job that was closed at `REQUEST_ACCEPTED` was not
  handed to a provider **and never will be**.

Neither needs the repository to be reliable.  They need crashes to be honest:
`Ledger.Honest` says of what is stored that it does not understate an open job's
progress.
-/
import KilnPrint.Engine.Simulation

namespace KilnPrint

/-- The record is not shared yet. -/
def Stage.drafted : Stage → Bool
  | draft _ | stored _ => true
  | _ => false

theorem Stage.drafted_of_carries {σ : Stage} (h : σ.carries = false) : σ.drafted = false := by
  cases σ <;> first | rfl | cases h

/-- Only a job a worker has not claimed is still at `REQUEST_ACCEPTED`. -/
theorem Stage.held_of_allows {σ : Stage} {j : Job} (h : σ.allows j)
    (hd : j.delivery = .requestAccepted) : σ.held = false ∧ σ.drafted = false := by
  cases σ with
  | draft | stored | expired => exact absurd h not_false
  | claimed | calling =>
    rw [h.2] at hd
    cases hd
  | _ => exact ⟨rfl, rfl⟩

/-- Cancellation and shutdown do not move the delivery stage. -/
theorem Foreign.delivery {origin : Origin} {ch : Change} {j : Job} {now stamp : Time}
    (h : Foreign origin ch) : (ch.mutated now stamp j).job.delivery = j.delivery := by
  cases h <;> exact Change.delivery_apply

namespace Ledger

variable {l l' : Ledger} {mv : Move} {id : JobId}

/-- What is stored does not understate the progress of an open job. -/
def Honest (l : Ledger) : Prop :=
  ∀ id j, l.stored id = some j → j.status.isTerminal = false → j.delivery = .requestAccepted →
    l.invocations id = 0

/-- A job known to be at `REQUEST_ACCEPTED` was not handed to a provider. -/
structure Unsent (l : Ledger) : Prop where
  active : ∀ id j, l.active id = some j → j.delivery = .requestAccepted → l.invocations id = 0
  /-- Also of a record read back after a restart. -/
  reread : ∀ id job, l.custody id = some (.unloaded job) ∨ l.custody id = some (.loaded job) →
    job.delivery = .requestAccepted → l.invocations id = 0
  /-- The stored copy may only lag behind. -/
  behind : ∀ id j k, l.active id = some j → l.stored id = some k →
    k.delivery.rank ≤ j.delivery.rank
  staged : ∀ id job k, l.custody id = some (.stored job) → l.stored id = some k →
    k.delivery = .requestAccepted
  /-- Before reconciliation nothing happens to any job. -/
  dormant : l.loaded = false → l.Honest ∧ (∀ id, l.custody id = none) ∧ ∀ id, l.active id = none

theorem rank_eq_zero {d : DeliveryStage} : d.rank = 0 ↔ d = .requestAccepted := by
  cases d <;> simp [DeliveryStage.rank]

theorem invocations_change {o : Origin} {r : Reading} {ch : Change} {j : Job} {id' : JobId}
    {σ : Option Stage} : ((l.change o r id ch j).hand id σ).invocations id' = l.invocations id' :=
  invocations_append rfl (by simp [Entry.isInvoked])

/-- A mutation keeps the invariant, when it does not hand the job to a stage
that carries a record. -/
theorem Unsent.change {o : Origin} {r : Reading} {ch : Change} {j : Job} {σ' : Option Stage}
    (h : l.Unsent) (hinv : l.Inv) (hj : l.active id = some j) (hp : ch.Permitted j)
    (hσ : ∀ τ, σ' = some τ → τ.carries = false ∨ l.custody id = some τ) :
    ((l.change o r id ch j).hand id σ').Unsent := by
  obtain ⟨hid, -⟩ := hinv.activeId id j hj
  have hrank : j.delivery.rank ≤ (ch.mutated r.now r.stamp j).job.delivery.rank :=
    Change.rank_le_mutated hp
  have hactive : ∀ id' k, ((l.change o r id ch j).hand id σ').active id' = some k →
      id' = id ∧ k = (ch.mutated r.now r.stamp j).job ∨ id' ≠ id ∧ l.active id' = some k := by
    intro id' k hk
    by_cases he : id' = id
    · subst he
      rw [active_hand, active_change_self] at hk
      split at hk
      · cases hk
      · exact Or.inl ⟨rfl, (Option.some_inj.mp hk).symm⟩
    · rw [active_hand, active_change_of_ne he] at hk
      exact Or.inr ⟨he, hk⟩
  have hcustody : ∀ id' τ, τ.carries = true →
      ((l.change o r id ch j).hand id σ').custody id' = some τ → l.custody id' = some τ := by
    intro id' τ hcarry hτ
    by_cases he : id' = id
    · subst he
      rw [custody_hand, Function.update_self] at hτ
      rcases hσ τ hτ with hno | hsame
      · rw [hcarry] at hno
        cases hno
      · exact hsame
    · rwa [custody_hand, Function.update_of_ne he] at hτ
  refine ⟨fun id' k hk hd => ?_, fun id' job hc hd => ?_, fun id' k m hk hm => ?_,
    fun id' job k hc hk => ?_, fun hl => ?_⟩
  · rw [invocations_change]
    rcases hactive id' k hk with ⟨rfl, rfl⟩ | ⟨-, hk⟩
    · refine h.active id' j hj (rank_eq_zero.mp (Nat.le_zero.mp ?_))
      rwa [hd] at hrank
    · exact h.active id' k hk hd
  · rw [invocations_change]
    exact h.reread id' job (hc.imp (hcustody _ _ rfl) (hcustody _ _ rfl)) hd
  · rcases hactive id' k hk with ⟨rfl, rfl⟩ | ⟨he, hk⟩
    · rcases stored_change_self o r ch hid with hs | hs
      · rw [stored_hand, hs, Option.some_inj] at hm
        subst hm
        exact Nat.le_refl _
      · rw [stored_hand, hs] at hm
        exact Nat.le_trans (h.behind id' j m hj hm) hrank
    · rw [stored_hand, stored_change_of_ne hid he] at hm
      exact h.behind id' k m hk hm
  · have hc' := hcustody id' _ rfl hc
    have he : id' ≠ id := by
      rintro rfl
      exact (hinv.fits _ _ hc').allows j hj
    rw [stored_hand, stored_change_of_ne hid he] at hk
    exact h.staged id' job k hc' hk
  · have hnone := (h.dormant hl).2.2 id
    rw [hj] at hnone
    cases hnone

/-- Handing a job over keeps the invariant, when the new stage carries no
record that is yet to become active. -/
theorem Unsent.hand {σ' : Option Stage} (h : l.Unsent)
    (hreread : ∀ job, σ' = some (.unloaded job) ∨ σ' = some (.loaded job) →
      job.delivery = .requestAccepted → l.invocations id = 0)
    (hstaged : ∀ job k, σ' = some (.stored job) → l.stored id = some k →
      k.delivery = .requestAccepted)
    (hloaded : l.loaded = true) : (l.hand id σ').Unsent := by
  refine ⟨h.active, fun id' job hc hd => ?_, h.behind, fun id' job k hc hk => ?_, fun hl => ?_⟩
  · by_cases he : id' = id
    · subst he
      rw [custody_hand, Function.update_self] at hc
      exact hreread job hc hd
    · rw [custody_hand, Function.update_of_ne he] at hc
      exact h.reread id' job hc hd
  · by_cases he : id' = id
    · subst he
      rw [custody_hand, Function.update_self] at hc
      exact hstaged job k hc hk
    · rw [custody_hand, Function.update_of_ne he] at hc
      exact h.staged id' job k hc hk
  · rw [show (l.hand id σ').loaded = l.loaded from rfl, hloaded] at hl
    cases hl

/-- A stage that carries no record is handed to freely. -/
theorem Unsent.hand_plain {σ' : Option Stage} (h : l.Unsent)
    (hσ : ∀ τ, σ' = some τ → τ.carries = false) (hloaded : l.loaded = true) :
    (l.hand id σ').Unsent :=
  h.hand (fun job hc => by rcases hc with hc | hc <;> exact absurd (hσ _ hc) Bool.noConfusion)
    (fun job k hc => absurd (hσ _ hc) Bool.noConfusion) hloaded

/-- A record becomes active that is not ahead of what was done for the job. -/
theorem Unsent.activate {job : Job} {τ : Stage} (h : l.Unsent)
    (hsent : job.delivery = .requestAccepted → l.invocations job.jobId = 0)
    (hbehind : ∀ k, l.stored job.jobId = some k → k.delivery.rank ≤ job.delivery.rank)
    (hτ : ∀ k, τ = .loaded k → k = job) (hτ' : ∀ k, τ ≠ .unloaded k ∧ τ ≠ .stored k)
    (hloaded : l.loaded = true) :
    ({ l.hand job.jobId (some τ) with
      active := Function.update l.active job.jobId (some job) } : Ledger).Unsent := by
  have hh : (l.hand job.jobId (some τ)).Unsent := by
    refine h.hand (fun k hc hd => ?_) (fun k m hc => ?_) hloaded
    · rcases hc with hc | hc
      · exact absurd (Option.some_inj.mp hc) (hτ' k).1
      · obtain rfl := hτ k (Option.some_inj.mp hc)
        exact hsent hd
    · exact absurd (Option.some_inj.mp hc) (hτ' k).2
  have hactive : ∀ id k, Function.update l.active job.jobId (some job) id = some k →
      id = job.jobId ∧ k = job ∨ l.active id = some k := by
    intro id k hk
    by_cases he : id = job.jobId
    · subst he
      rw [Function.update_self] at hk
      exact Or.inl ⟨rfl, (Option.some_inj.mp hk).symm⟩
    · rw [Function.update_of_ne he] at hk
      exact Or.inr hk
  refine ⟨fun id k hk hd => ?_, hh.reread, fun id k m hk hm => ?_, hh.staged, fun hl => ?_⟩
  · rcases hactive id k hk with ⟨rfl, rfl⟩ | hk
    · exact hsent hd
    · exact h.active id k hk hd
  · rcases hactive id k hk with ⟨rfl, rfl⟩ | hk
    · exact hbehind m hm
    · exact h.behind id k m hk hm
  · have hl' : l.loaded = false := hl
    rw [hloaded] at hl'
    cases hl'

/-- A job in custody is only known once reconciliation has read the
repository. -/
theorem Unsent.loaded_of_custody {σ : Stage} (h : l.Unsent) (hc : l.custody id = some σ) :
    l.loaded = true := by
  by_contra hl
  have hnone := (h.dormant (by simpa using hl)).2.1 id
  rw [hc] at hnone
  cases hnone

/-- Entering `provider.submit`. -/
theorem Unsent.invoke {σ τ : Stage} {printer : PrinterId} (h : l.Unsent) (hinv : l.Inv)
    (hc : l.custody id = some σ) (hσ : σ.held = true) (hτ : τ.carries = false) :
    ((l.hand id (some τ)).note (.invoked id printer)).Unsent := by
  have hh : (l.hand id (some τ)).Unsent :=
    h.hand_plain (fun τ' hτ' => by cases hτ'; exact hτ) (h.loaded_of_custody hc)
  have hne : ∀ id' n, l.invocations id' = n → id' ≠ id →
      ((l.hand id (some τ)).note (.invoked id printer)).invocations id' = n := by
    intro id' n hn he
    rw [invocations_note_invoked, if_neg (Ne.symm he)]
    exact hn
  refine ⟨fun id' j hj hd => ?_, fun id' job hj hd => ?_, h.behind, hh.staged, fun hl => ?_⟩
  · refine hne id' 0 (h.active id' j hj hd) ?_
    rintro rfl
    rw [(Stage.held_of_allows ((hinv.fits _ _ hc).allows j hj) hd).1] at hσ
    cases hσ
  · refine hne id' 0 (hh.reread id' job hj hd) ?_
    rintro rfl
    have hc' : ∀ k, (l.hand id' (some τ)).custody id' = some k → k.carries = false := by
      intro k hk
      rw [custody_hand, Function.update_self, Option.some_inj] at hk
      exact hk ▸ hτ
    rcases hj with hj | hj <;> exact absurd (hc' _ hj) Bool.noConfusion
  · have hl' : l.loaded = false := hl
    rw [h.loaded_of_custody hc] at hl'
    cases hl'

theorem invocations_aside {e : Entry} (he : e.Aside) :
    (l.note e).invocations id = l.invocations id :=
  invocations_append rfl
    (by cases e <;> first | exact absurd he not_false | simp [Entry.isInvoked])

/-- Entries about a spooler or a channel invoke nothing. -/
theorem Unsent.aside {e : Entry} (h : l.Unsent) (he : e.Aside) : (l.note e).Unsent := by
  refine ⟨fun id j hj hd => ?_, fun id job hc hd => ?_, h.behind, h.staged, fun hl => ?_⟩
  · rw [invocations_aside he]
    exact h.active id j hj hd
  · rw [invocations_aside he]
    exact h.reread id job hc hd
  · obtain ⟨hhon, hrest⟩ := h.dormant hl
    refine ⟨fun id j hj ho hd => ?_, hrest⟩
    rw [invocations_aside he]
    exact hhon id j hj ho hd

/-- **Storing the record** of a draft: nobody has it open, and it is not handed
over yet. -/
theorem Unsent.store {job : Job} (h : l.Unsent) (hinv : l.Inv)
    (hc : l.custody job.jobId = some (.draft job)) :
    ({ l.hand job.jobId (some (.stored job)) with
      stored := Function.update l.stored job.jobId (some job) } : Ledger).Unsent := by
  obtain ⟨-, hfresh, hnone⟩ := (hinv.fits _ _ hc).draft job rfl
  have hne : ∀ id j, l.active id = some j → id ≠ job.jobId := by
    rintro id j hj rfl
    exact (hinv.fits _ _ hc).allows j hj
  have hloaded := h.loaded_of_custody hc
  refine ⟨h.active, fun id k hk hd => ?_, fun id j k hj hk => ?_, fun id k m hk hm => ?_,
    fun hl => ?_⟩
  · have hk' : ∀ τ, Function.update l.custody job.jobId (some (.stored job)) id = some τ →
        τ.drafted = false → l.custody id = some τ := by
      intro τ hτ hd
      by_cases he : id = job.jobId
      · subst he
        rw [Function.update_self, Option.some_inj] at hτ
        subst hτ
        cases hd
      · rwa [Function.update_of_ne he] at hτ
    exact h.reread id k (hk.imp (fun hk => hk' _ hk rfl) (fun hk => hk' _ hk rfl)) hd
  · have hk' : Function.update l.stored job.jobId (some job) id = some k := hk
    rw [Function.update_of_ne (hne id j hj)] at hk'
    exact h.behind id j k hj hk'
  · have hm' : Function.update l.stored job.jobId (some job) id = some m := hm
    have hk' : Function.update l.custody job.jobId (some (.stored job)) id = some (.stored k) := hk
    by_cases he : id = job.jobId
    · subst he
      rw [Function.update_self, Option.some_inj] at hm'
      exact hm' ▸ hfresh.2.2
    · rw [Function.update_of_ne he] at hm' hk'
      exact h.staged id k m hk' hm'
  · have hl' : l.loaded = false := hl
    rw [hloaded] at hl'
    cases hl'

/-- **Announcing a stored record.** -/
theorem Unsent.announce {job : Job} (h : l.Unsent) (hinv : l.Inv)
    (hc : l.custody job.jobId = some (.stored job)) :
    ({ l.hand job.jobId (some .received) with
      active := Function.update l.active job.jobId (some job) }.note (.created job)).Unsent := by
  have hf := hinv.fits _ _ hc
  have hh := h.activate (τ := .received) (fun _ => hf.uninvoked rfl) (fun k hk => by
      rw [h.staged _ _ _ hc hk]
      exact Nat.zero_le _) (fun k hk => by cases hk) (fun k => ⟨by simp, by simp⟩)
    (h.loaded_of_custody hc)
  have hlog : ∀ id, ({ l.hand job.jobId (some .received) with
      active := Function.update l.active job.jobId (some job) }.note
        (.created job)).invocations id = l.invocations id := fun id =>
    invocations_append rfl (by simp [Entry.isInvoked])
  refine ⟨fun id j hj hd => ?_, fun id k hk hd => ?_, hh.behind, hh.staged, fun hl => ?_⟩
  · rw [hlog]
    exact hh.active id j hj hd
  · rw [hlog]
    exact hh.reread id k hk hd
  · have hl' : l.loaded = false := hl
    rw [h.loaded_of_custody hc] at hl'
    cases hl'

theorem Unsent.orphan (ids : List JobId) (h : l.Unsent) :
    ({ l with custody := fun id => if id ∈ ids then none else l.custody id } : Ledger).Unsent := by
  refine ⟨h.active, fun id k hk hd => ?_, h.behind,
    fun id k m hk hm => h.staged id k m (custody_of_orphan hk) hm, fun hl => ?_⟩
  · exact h.reread id k (hk.imp custody_of_orphan custody_of_orphan) hd
  · obtain ⟨hhon, hcust, hact⟩ := h.dormant hl
    refine ⟨hhon, fun id => ?_, hact⟩
    show (if id ∈ ids then none else l.custody id) = none
    rw [hcust id, ite_self]

/-- **Reading the repository**: before it the records are those a crash left,
and they are honest. -/
theorem Unsent.load (h : l.Unsent) (hl : l.loaded = false) :
    ({ l with
      custody := fun id => (l.openRecord id).map .unloaded, loaded := true } : Ledger).Unsent := by
  obtain ⟨hhon, -, -⟩ := h.dormant hl
  refine ⟨h.active, fun id k hk hd => ?_, h.behind, fun id k m hk => ?_, fun hl => (by cases hl)⟩
  · rcases hk with hk | hk <;> obtain ⟨job, he, hstored, hopen⟩ := unloaded_of_load hk
    · obtain rfl := Stage.unloaded.inj he
      exact hhon id k hstored hopen hd
    · cases he
  · obtain ⟨job, he, -⟩ := unloaded_of_load hk
    cases he

/-- **Taking a record back.** -/
theorem Unsent.reopen {job : Job} (h : l.Unsent) (hinv : l.Inv)
    (hc : l.custody job.jobId = some (.unloaded job)) :
    ({ l.hand job.jobId (some (.loaded job)) with
      active := Function.update l.active job.jobId (some job) } : Ledger).Unsent := by
  obtain ⟨-, hstored, -⟩ := (hinv.fits _ _ hc).unloaded job rfl
  refine h.activate (h.reread _ _ (Or.inl hc)) (fun k hk => ?_) (fun k hk => ?_)
    (fun k => ⟨by simp, by simp⟩) (h.loaded_of_custody hc)
  · obtain rfl : job = k := Option.some_inj.mp (hstored.symm.trans hk)
    exact Nat.le_refl _
  · exact (Stage.loaded.inj hk).symm

theorem Unsent.purge (cutoff : Time) (h : l.Unsent) :
    ({ l with stored := fun id =>
        (l.stored id).filter fun j =>
          !(j.status.isTerminal && j.createdAt < cutoff) } : Ledger).Unsent := by
  refine ⟨h.active, h.reread, fun id j k hj hk => h.behind id j k hj (stored_of_purge hk),
    fun id k m hk hm => h.staged id k m hk (stored_of_purge hm), fun hl => ?_⟩
  obtain ⟨hhon, hrest⟩ := h.dormant hl
  exact ⟨fun id j hj => hhon id j (stored_of_purge hj), hrest⟩

theorem invocations_crashed : (l.note .crashed).invocations id = l.invocations id :=
  invocations_append rfl (by simp [Entry.isInvoked])

/-- **A crash**: what was in memory is gone, and the records left are honest. -/
theorem Unsent.crash (hhon : l.Honest) :
    ({ l.note .crashed with
      active := fun _ => none, custody := fun _ => none, loaded := false } : Ledger).Unsent := by
  refine ⟨fun id j hj => (by cases hj), fun id k hk => (by rcases hk with hk | hk <;> cases hk),
    fun id j k hj => (by cases hj), fun id k m hk => (by cases hk), fun _ => ⟨?_, fun _ => rfl,
      fun _ => rfl⟩⟩
  intro id j hj ho hd
  exact invocations_crashed.trans (hhon id j hj ho hd)

/-- **Every move keeps the invariant, if crashes are honest.** -/
theorem Unsent.step (h : l.Unsent) (hinv : l.Inv) (hs : l.Step mv l')
    (hcrash : mv = .crash → l.Honest) : l'.Unsent := by
  cases hs with
  | quiet => exact h
  | note he => exact h.aside he
  | @draw job hl hid hfresh =>
    have hh : (l.hand l.next (some (.draft job))).Unsent :=
      h.hand (fun k hc => by rcases hc with hc | hc <;> cases hc) (fun k m hc => by cases hc) hl
    exact ⟨hh.active, hh.reread, hh.behind, hh.staged, hh.dormant⟩
  | forget hc hσ hj =>
    exact h.hand_plain (fun τ hτ => by cases hτ) (h.loaded_of_custody hc)
  | store hc => exact h.store hinv hc
  | announce hc => exact h.announce hinv hc
  | relabel hc hσ _ _ _ hcarry _ =>
    exact h.hand_plain (fun τ hτ => by cases hτ; exact hcarry) (h.loaded_of_custody hc)
  | @own id σ σ' ch j r hc hh hj =>
    refine h.change hinv hj (hh.permitted ((hinv.fits id σ hc).allows j hj)) fun τ hτ => ?_
    subst hτ
    exact Or.inl hh.carries
  | @foreign o id ch j r hfo hj =>
    rw [← (l.change o r id ch j).hand_custody id]
    exact h.change hinv hj hfo.permitted fun τ hτ => Or.inr hτ
  | invokeCalling printer hc | invokeExpired printer hc => exact h.invoke hinv hc rfl rfl
  | orphan ids hσ => exact h.orphan ids
  | load hl => exact h.load hl
  | reopen hc => exact h.reopen hinv hc
  | purge cutoff => exact h.purge cutoff
  | crash => exact .crash (hcrash rfl)

theorem Unsent.empty : (empty : Ledger).Unsent where
  active _ _ h := (by cases h)
  reread _ _ h := (by rcases h with h | h <;> cases h)
  behind _ _ _ h := (by cases h)
  staged _ _ _ h := (by cases h)
  dormant _ := ⟨fun _ _ _ _ _ => rfl, fun _ => rfl, fun _ => rfl⟩

/-! ### Withdrawn jobs -/

/-- The job was closed before a worker claimed it, and no worker will claim it.
A restart may find an open copy of it and close it again. -/
structure Withdrawn (l : Ledger) (id : JobId) : Prop where
  known : id < l.next
  uninvoked : l.invocations id = 0
  active : ∀ j, l.active id = some j → j.delivery = .requestAccepted
  stored : ∀ j, l.stored id = some j → j.delivery = .requestAccepted
  custody : ∀ σ, l.custody id = some σ → σ.held = false ∧ σ.drafted = false
  idle : ∀ j σ, l.active id = some j → l.custody id = some σ → ∃ job, σ = .loaded job

/-- Another job's move leaves a withdrawn job alone. -/
theorem Withdrawn.frame (h : l.Withdrawn id) (hnext : l.next ≤ l'.next)
    (hinv : l'.invocations id = l.invocations id) (ha : l'.active id = l.active id)
    (hs : ∀ j, l'.stored id = some j → l.stored id = some j)
    (hc : ∀ σ, l'.custody id = some σ → l.custody id = some σ) : l'.Withdrawn id where
  known := Nat.lt_of_lt_of_le h.known hnext
  uninvoked := hinv.trans h.uninvoked
  active j hj := h.active j (ha ▸ hj)
  stored j hj := h.stored j (hs j hj)
  custody σ hσ := h.custody σ (hc σ hσ)
  idle j σ hj hσ := h.idle j σ (ha ▸ hj) (hc σ hσ)

/-- **A job closed at `REQUEST_ACCEPTED`** by a change that does not move its
delivery stage is withdrawn. -/
theorem Withdrawn.of_close {o : Origin} {r : Reading} {ch : Change} {j : Job}
    {σ' : Option Stage} (h : l.Unsent) (hinv : l.Inv) (hj : l.active id = some j)
    (hd : j.delivery = .requestAccepted)
    (hkeep : (ch.mutated r.now r.stamp j).job.delivery = j.delivery)
    (hclosed : (ch.mutated r.now r.stamp j).job.status.isTerminal = true)
    (hσ : σ' = l.custody id ∨ σ' = none) :
    ((l.change o r id ch j).hand id σ').Withdrawn id := by
  obtain ⟨hid, hlt⟩ := hinv.activeId id j hj
  have hnone : ((l.change o r id ch j).hand id σ').active id = none := by
    rw [active_hand, active_change_self, if_pos hclosed]
  have hcust : ∀ τ, ((l.change o r id ch j).hand id σ').custody id = some τ →
      l.custody id = some τ := by
    intro τ hτ
    rw [custody_hand, Function.update_self] at hτ
    rcases hσ with hσ | hσ
    · exact hσ.symm.trans hτ
    · rw [hσ] at hτ
      cases hτ
  refine ⟨hlt, ?_, fun k hk => ?_, fun k hk => ?_, fun τ hτ => ?_, fun k τ hk => ?_⟩
  · rw [invocations_change]
    exact h.active id j hj hd
  · rw [hnone] at hk
    cases hk
  · rcases stored_change_self o r ch hid with hs | hs
    · rw [stored_hand, hs, Option.some_inj] at hk
      exact hk ▸ hkeep.trans hd
    · rw [stored_hand, hs] at hk
      have hle := h.behind id j k hj hk
      rw [hd] at hle
      exact rank_eq_zero.mp (Nat.le_zero.mp hle)
  · exact Stage.held_of_allows ((hinv.fits id τ (hcust τ hτ)).allows j hj) hd
  · rw [hnone] at hk
    cases hk

/-- The job of a stage that a withdrawn job cannot be in is another one. -/
theorem Withdrawn.ne_of_custody {id' : JobId} {σ : Stage} (h : l.Withdrawn id)
    (hc : l.custody id' = some σ) (hσ : σ.held = true ∨ σ.drafted = true) : id ≠ id' := by
  rintro rfl
  obtain ⟨h₁, h₂⟩ := h.custody σ hc
  rw [h₁, h₂] at hσ
  exact hσ.elim Bool.noConfusion Bool.noConfusion

/-- Handing over another job leaves a withdrawn job with its holder. -/
theorem custody_of_other {id' : JobId} {σ' : Option Stage} {τ : Stage} (hne : id ≠ id')
    (hτ : (l.hand id' σ').custody id = some τ) : l.custody id = some τ := by
  rwa [custody_hand, Function.update_of_ne hne] at hτ

/-- Another stage in the place of the one a withdrawn job is in: only a record
read back after a restart is open, and it can be handed to a monitor only. -/
theorem Withdrawn.relabel {id' : JobId} {σ σ' : Stage} (h : l.Withdrawn id) (hinv : l.Inv)
    (hc : l.custody id' = some σ) (hclaim : σ'.unclaimed = true → σ.unclaimed = true)
    (hheld : σ'.held = true → σ.held = true) (hcarry : σ'.carries = false)
    (hj : ∀ j, l.active id' = some j → j.Sound → σ.allows j → σ'.allows j) :
    (l.hand id' (some σ')).Withdrawn id := by
  by_cases hne : id = id'
  · subst hne
    obtain ⟨h₁, h₂⟩ := h.custody σ hc
    refine ⟨h.known, h.uninvoked, h.active, h.stored, fun τ hτ => ?_, fun j τ hja hτ => ?_⟩
    · rw [custody_hand, Function.update_self, Option.some_inj] at hτ
      subst hτ
      refine ⟨?_, Stage.drafted_of_carries hcarry⟩
      by_contra hτ
      rw [hheld (by simpa using hτ)] at h₁
      cases h₁
    · obtain ⟨job, rfl⟩ := h.idle j σ hja hc
      have hallow := hj j hja (hinv.active id j hja).1 ((hinv.fits id _ hc).allows j hja)
      have hd := h.active j hja
      cases σ' with
      | claimed | calling | expired => cases hheld rfl
      | spooled sid =>
        rw [hallow.1] at hd
        cases hd
      | unloaded | loaded => cases hcarry
      | _ => cases hclaim rfl
  · exact h.frame (Nat.le_refl _) rfl rfl (fun _ hj => hj) (fun _ => custody_of_other hne)

/-- **The custodian of a withdrawn job** is a restart, which closes the record. -/
theorem Withdrawn.own {id' : JobId} {σ : Stage} {σ' : Option Stage} {ch : Change} {j : Job}
    (r : Reading) (h : l.Withdrawn id) (hu : l.Unsent) (hinv : l.Inv)
    (hc : l.custody id' = some σ) (hh : σ.Hands ch σ') (hj : l.active id' = some j) :
    ((l.change σ.origin r id' ch j).hand id' σ').Withdrawn id := by
  by_cases hne : id = id'
  · subst hne
    obtain ⟨job, rfl⟩ := h.idle j σ hj hc
    have hd := h.active j hj
    obtain rfl : j = job := (hinv.fits id _ hc).allows j hj
    cases hh with
    | close hr =>
      -- a withdrawn delivery is not `delivered`, so the restart fails the record
      rcases reconciled_close hr with ⟨rfl, hdel⟩ | ⟨e, rfl, -⟩
      · rw [hd] at hdel
        cases hdel
      · refine .of_close hu hinv hj hd Change.delivery_apply ?_ (Or.inr rfl)
        show ((Change.fail e).apply r.now j).1.status.isTerminal = true
        rw [Change.fail_status (hinv.active id j hj).2]
        rfl
  · refine h.frame (Nat.le_refl _) invocations_change (active_change_of_ne (o := σ.origin) hne)
      (fun k hk => ?_) (fun _ => custody_of_other (l := l.change σ.origin r id' ch j) hne)
    rwa [stored_hand, stored_change_of_ne (hinv.activeId id' j hj).1 hne] at hk

/-- **A change by another routine** closes a withdrawn record or leaves it as it
is. -/
theorem Withdrawn.foreign {id' : JobId} {o : Origin} {ch : Change} {j : Job} (r : Reading)
    (h : l.Withdrawn id) (hu : l.Unsent) (hinv : l.Inv) (hfo : Foreign o ch)
    (hj : l.active id' = some j) : (l.change o r id' ch j).Withdrawn id := by
  have hlog : (l.change o r id' ch j).invocations id = l.invocations id :=
    invocations_append rfl (by simp [Entry.isInvoked])
  by_cases hne : id = id'
  · subst hne
    have hd := h.active j hj
    rw [← (l.change o r id ch j).hand_custody id]
    have hcloses : (ch.apply r.now j).1.status.isTerminal = true ∨ (ch.apply r.now j).1 = j :=
      hfo.closes (hinv.active id j hj).2
    rcases hcloses with hclosed | hsame
    · exact .of_close hu hinv hj hd hfo.delivery hclosed (Or.inl rfl)
    · have hself : (ch.mutated r.now r.stamp j).job = j := Change.mutated_eq_self hsame
      have hact : (l.change o r id ch j).active id = l.active id := by
        rw [active_change_self, hself, if_neg (by simp [(hinv.active id j hj).2]), hj]
      rw [hand_custody]
      refine h.frame (Nat.le_refl _) hlog hact (fun k hk => ?_) (fun _ hc => hc)
      have hstored : (l.change o r id ch j).stored = l.stored := by
        show (if _ then _ else _) = _
        rw [if_neg (fun hc => hc.1 hsame)]
      rwa [hstored] at hk
  · refine h.frame (Nat.le_refl _) hlog (active_change_of_ne hne) (fun k hk => ?_)
      (fun _ hc => hc)
    rwa [stored_change_of_ne (hinv.activeId id' j hj).1 hne] at hk

/-- **Entering `provider.submit`** concerns a job that somebody has claimed. -/
theorem Withdrawn.invoke {id' : JobId} {σ τ : Stage} {printer : PrinterId} (h : l.Withdrawn id)
    (hc : l.custody id' = some σ) (hσ : σ.held = true) :
    ((l.hand id' (some τ)).note (.invoked id' printer)).Withdrawn id := by
  have hne := h.ne_of_custody hc (Or.inl hσ)
  refine h.frame (Nat.le_refl _) ?_ rfl (fun _ hj => hj) (fun _ => custody_of_other hne)
  rw [invocations_note_invoked, if_neg (Ne.symm hne)]
  rfl

/-- **Taking a withdrawn record back.** -/
theorem Withdrawn.reopen {job : Job} (h : l.Withdrawn id) (hinv : l.Inv)
    (hc : l.custody job.jobId = some (.unloaded job)) :
    ({ l.hand job.jobId (some (.loaded job)) with
      active := Function.update l.active job.jobId (some job) } : Ledger).Withdrawn id := by
  by_cases hne : id = job.jobId
  · subst hne
    obtain ⟨-, hstored, -⟩ := (hinv.fits _ _ hc).unloaded job rfl
    refine ⟨h.known, h.uninvoked, fun j hj => ?_, h.stored, fun τ hτ => ?_, fun j τ hj hτ => ?_⟩
    · have hj' : Function.update l.active job.jobId (some job) job.jobId = some j := hj
      rw [Function.update_self, Option.some_inj] at hj'
      exact hj' ▸ h.stored job hstored
    all_goals
      have hτ' : Function.update l.custody job.jobId (some (.loaded job)) job.jobId = some τ := hτ
      rw [Function.update_self, Option.some_inj] at hτ'
      subst hτ'
    · exact ⟨rfl, rfl⟩
    · exact ⟨job, rfl⟩
  · exact h.frame (Nat.le_refl _) rfl (Function.update_of_ne hne ..) (fun _ hj => hj)
      (fun _ => custody_of_other hne)

/-- **A withdrawn job stays withdrawn.** -/
theorem Withdrawn.step (h : l.Withdrawn id) (hu : l.Unsent) (hinv : l.Inv) (hs : l.Step mv l') :
    l'.Withdrawn id := by
  -- `store`, `announce` and the invocations concern other jobs: this one is at none of their stages
  cases hs with
  | quiet => exact h
  | note he =>
    exact h.frame (Nat.le_refl _) (invocations_aside he) rfl (fun _ hj => hj) (fun _ hc => hc)
  | draw hl hid hfresh =>
    exact h.frame (Nat.le_succ _) rfl rfl (fun _ hj => hj)
      (fun _ => custody_of_other (Nat.ne_of_lt h.known))
  | @forget id' σ hc hσ hj =>
    refine h.frame (Nat.le_refl _) rfl rfl (fun _ hj => hj) fun τ hτ => ?_
    by_cases hne : id = id'
    -- nobody holds the job any more
    · subst hne
      rw [custody_hand, Function.update_self] at hτ
      cases hτ
    · exact custody_of_other hne hτ
  | @store job hc =>
    have hne := h.ne_of_custody hc (Or.inr rfl)
    refine h.frame (Nat.le_refl _) rfl rfl (fun j hj => ?_) (fun _ => custody_of_other hne)
    have hj' : Function.update l.stored job.jobId (some job) id = some j := hj
    rwa [Function.update_of_ne hne] at hj'
  | @announce job hc =>
    have hne := h.ne_of_custody hc (Or.inr rfl)
    refine h.frame (Nat.le_refl _) ?_ (Function.update_of_ne hne ..) (fun _ hj => hj)
      (fun _ => custody_of_other hne)
    exact invocations_append rfl (by simp [Entry.isInvoked])
  | relabel hc _ hclaim _ hheld hcarry hj => exact h.relabel hinv hc hclaim hheld hcarry hj
  | own r hc hh hj => exact h.own r hu hinv hc hh hj
  | foreign r hfo hj => exact h.foreign r hu hinv hfo hj
  | invokeCalling printer hc | invokeExpired printer hc => exact h.invoke hc rfl
  | orphan ids hσ =>
    exact h.frame (Nat.le_refl _) rfl rfl (fun _ hj => hj) fun _ => custody_of_orphan
  | load hl hc ha =>
    refine ⟨h.known, h.uninvoked, h.active, h.stored, fun τ hτ => ?_, fun j τ hj => ?_⟩
    · obtain ⟨job, rfl, -⟩ := unloaded_of_load hτ
      exact ⟨rfl, rfl⟩
    · have hnone := ha id
      rw [show l.active id = some j from hj] at hnone
      cases hnone
  | reopen hc => exact h.reopen hinv hc
  | purge cutoff =>
    exact h.frame (Nat.le_refl _) rfl rfl (fun _ => stored_of_purge) (fun _ hc => hc)
  | crash =>
    exact ⟨h.known, invocations_crashed.trans h.uninvoked, fun j hj => (by cases hj), h.stored,
      fun σ hσ => (by cases hσ), fun j σ hj => (by cases hj)⟩

/-! ### Entries that withdraw a job -/

/-- Every job that the log has an entry of kind `p` about is withdrawn. -/
structure Withdraws (p : JobId → Entry → Bool) (l : Ledger) : Prop where
  unsent : l.Unsent
  withdrawn : ∀ id, (∃ e ∈ l.log, p id e = true) → l.Withdrawn id

theorem Withdraws.empty {p : JobId → Entry → Bool} : Withdraws p empty :=
  ⟨.empty, fun _ ⟨_, he, _⟩ => (by cases he)⟩

/-- **Entries about changes that close a job at `REQUEST_ACCEPTED` withdraw it**,
in every run whose crashes are honest. -/
theorem Withdraws.step {p : JobId → Entry → Bool} (h : l.Withdraws p) (hinv : l.Inv)
    (hs : l.Step mv l') (hcrash : mv = .crash → l.Honest)
    (hp : ∀ id e, p id e = true → ∃ o id' ch ev, e = .applied o id' ch ev)
    (hown : ∀ {id id' σ σ' ch j r}, mv = .own r id' ch → l.custody id' = some σ →
      σ.Hands ch σ' → l.active id' = some j → p id (ch.entry σ.origin r id' j) = true →
      id' = id ∧ ((l.change σ.origin r id' ch j).hand id' σ').Withdrawn id')
    (hforeign : ∀ {id id' o ch j r}, mv = .foreign o r id' ch → Foreign o ch →
      l.active id' = some j → p id (ch.entry o r id' j) = true →
      id' = id ∧ (l.change o r id' ch j).Withdrawn id') : l'.Withdraws p := by
  refine ⟨h.unsent.step hinv hs hcrash, fun id ⟨e, he, hpe⟩ => ?_⟩
  by_cases hold : e ∈ l.log
  · exact (h.withdrawn id ⟨e, hold, hpe⟩).step h.unsent hinv hs
  have hnew : ∀ e', e ∈ l.log ++ [e'] → e = e' := fun e' he' =>
    List.mem_singleton.mp ((List.mem_append.mp he').resolve_left hold)
  obtain ⟨o, id', ch, ev, rfl⟩ := hp id e hpe
  cases hs with
  | note hside =>
    rw [← hnew _ he] at hside
    exact absurd hside not_false
  | announce | invokeCalling | invokeExpired | crash => cases hnew _ he
  | own r hc hh hj =>
    rw [hnew _ he] at hpe
    obtain ⟨rfl, hw⟩ := hown rfl hc hh hj hpe
    exact hw
  | foreign r hfo hj =>
    rw [hnew _ he] at hpe
    obtain ⟨rfl, hw⟩ := hforeign rfl hfo hj hpe
    exact hw
  | _ => exact absurd he hold

/-- What is said about withdrawn jobs is right. -/
theorem Withdraws.sound {p : JobId → Entry → Bool} (h : l.Withdraws p)
    (hp : ∃ e ∈ l.log, p id e = true) (printer : PrinterId) : Entry.invoked id printer ∉ l.log :=
  fun hmem => List.countP_eq_zero.mp (h.withdrawn id hp).uninvoked _ hmem
    (by simp [Entry.isInvoked])

end Ledger

end KilnPrint
