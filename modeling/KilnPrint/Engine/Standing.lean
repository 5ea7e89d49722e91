/-
What a job can no longer become.

Two facts about a job that no move of the ledger undoes, crashes included:

* `Ledger.Announced` — its record was added to the active map at some time: it is
  no draft again;
* `Ledger.Past` — a provider accepted it: no call is made for it again.

Both are instances of `Within.step`, the rule for sets of stages that no move leads
out of.

* `Ledger.Staged` — a stored record that is not yet active is at `REQUEST_ACCEPTED`;
* `active_before` — an announced job becomes active again only when reconciliation
  reopens it.
-/
import KilnPrint.Engine.Unsent

namespace KilnPrint

namespace Stage

/-- A provider accepted the job, or a restart has read its record. -/
def past : Stage → Bool
  | spooled _ | unloaded _ | loaded _ => true
  | _ => false

theorem drafted_of_past {σ : Stage} (h : σ.past = true) : σ.drafted = false := by
  cases σ <;> first | rfl | cases h

/-- What follows a stage by a custodian's own change. -/
theorem Hands.drafted {σ τ : Stage} {ch : Change} (h : σ.Hands ch (some τ)) :
    τ.drafted = false := Stage.drafted_of_carries h.carries

theorem Hands.past {σ τ : Stage} {ch : Change} (h : σ.Hands ch (some τ)) (hσ : σ.past = true) :
    τ.past = true := by
  cases h <;> first | rfl | cases hσ

/-- Only a job that is past its call is neither unclaimed nor held. -/
theorem past_iff {σ : Stage} : σ.past = true ↔ σ.unclaimed = false ∧ σ.held = false := by
  cases σ <;> simp [past, unclaimed, held]

/-- Stages that no custodian leads out of. -/
structure Closed (P : Stage → Bool) : Prop where
  drafted : ∀ σ, P σ = true → σ.drafted = false
  relabel : ∀ σ τ, P σ = true → (τ.unclaimed = true → σ.unclaimed = true) →
    (τ.held = true → σ.held = true) → τ.carries = false → P τ = true
  hands : ∀ σ τ ch, P σ = true → Stage.Hands σ ch (some τ) → P τ = true
  unloaded : ∀ job, P (.unloaded job) = true
  loaded : ∀ job, P (.loaded job) = true
  calling : P (.calling false) = true → P (.calling true) = true
  expired : P (.expired false) = true → P (.expired true) = true

end Stage

namespace Ledger

variable {l l' : Ledger} {mv : Move} {id : JobId} {P : Stage → Bool}

/-- The stage of `id`, if it has one, is as `P` says, and the id was drawn. -/
structure Within (P : Stage → Bool) (l : Ledger) (id : JobId) : Prop where
  lt : id < l.next
  stage : ∀ σ, l.custody id = some σ → P σ = true

/-- **No move leads a job out of a closed set of stages.** -/
theorem Within.step (hP : Stage.Closed P) (h : l.Within P id) (hs : l.Step mv l') :
    l'.Within P id := by
  obtain ⟨hlt, hstage⟩ := h
  -- custody changes at one job only, and there from a stage in `P`
  have hhand : ∀ {id' : JobId} {σ' : Option Stage},
      (id = id' → ∀ τ, σ' = some τ → P τ = true) →
      ∀ τ, Function.update l.custody id' σ' id = some τ → P τ = true := by
    intro id' σ' hσ' τ hτ
    by_cases hid : id = id'
    · subst hid
      rw [Function.update_self] at hτ
      exact hσ' rfl τ hτ
    · rw [Function.update_of_ne hid] at hτ
      exact hstage τ hτ
  cases hs with
  | quiet => exact ⟨hlt, hstage⟩
  | note he => exact ⟨hlt, hstage⟩
  | purge cutoff => exact ⟨hlt, hstage⟩
  | draw hl hid hfresh =>
    refine ⟨Nat.lt_succ_of_lt hlt, hhand fun he => absurd he (Nat.ne_of_lt hlt)⟩
  | forget hc hσ hj => exact ⟨hlt, hhand fun _ τ hτ => (by cases hτ)⟩
  | @store job hc =>
    refine ⟨hlt, hhand fun he τ hτ => ?_⟩
    subst he
    have hdraft := hP.drafted _ (hstage _ hc)
    cases hdraft
  | @announce job hc =>
    refine ⟨hlt, hhand fun he τ hτ => ?_⟩
    subst he
    have hdraft := hP.drafted _ (hstage _ hc)
    cases hdraft
  | relabel hc hσ hclaim hinv hheld hcarry hj =>
    refine ⟨hlt, hhand fun he τ hτ => ?_⟩
    subst he
    obtain rfl := Option.some_inj.mp hτ
    exact hP.relabel _ _ (hstage _ hc) hclaim hheld hcarry
  | own r hc hh hj =>
    refine ⟨hlt, hhand fun he τ hτ => ?_⟩
    subst he
    subst hτ
    exact hP.hands _ _ _ (hstage _ hc) hh
  | foreign r hf hj => exact ⟨hlt, hstage⟩
  | invokeCalling printer hc =>
    refine ⟨hlt, hhand fun he τ hτ => ?_⟩
    subst he
    obtain rfl := Option.some_inj.mp hτ
    exact hP.calling (hstage _ hc)
  | invokeExpired printer hc =>
    refine ⟨hlt, hhand fun he τ hτ => ?_⟩
    subst he
    obtain rfl := Option.some_inj.mp hτ
    exact hP.expired (hstage _ hc)
  | orphan ids hσ =>
    refine ⟨hlt, fun τ hτ => ?_⟩
    have hτ' : l.custody id = some τ := custody_of_orphan hτ
    exact hstage τ hτ'
  | load hl hc ha =>
    refine ⟨hlt, fun τ hτ => ?_⟩
    obtain ⟨job, -, rfl⟩ := Option.map_eq_some_iff.mp hτ
    exact hP.unloaded job
  | @reopen job hc =>
    refine ⟨hlt, hhand fun he τ hτ => ?_⟩
    obtain rfl := Option.some_inj.mp hτ
    exact hP.loaded job
  | crash => exact ⟨hlt, fun τ hτ => (by cases hτ)⟩

/-- The record of `id` was added to the active map at some time. -/
def Announced (l : Ledger) (id : JobId) : Prop := l.Within (fun σ => !σ.drafted) id

/-- A provider accepted `id`. -/
def Past (l : Ledger) (id : JobId) : Prop := l.Within Stage.past id

theorem Announced.step (h : l.Announced id) (hs : l.Step mv l') : l'.Announced id := by
  refine Within.step ⟨fun σ hσ => by simpa using hσ, fun σ τ _ _ _ hcarry => ?_,
    fun σ τ ch _ hh => ?_, fun _ => rfl, fun _ => rfl, fun _ => rfl, fun _ => rfl⟩ h hs
  · simp [Stage.drafted_of_carries hcarry]
  · simp [hh.drafted]

theorem Past.step (h : l.Past id) (hs : l.Step mv l') : l'.Past id := by
  refine Within.step ⟨fun σ hσ => Stage.drafted_of_past hσ, fun σ τ hσ hclaim hheld _ => ?_,
    fun σ τ ch hσ hh => hh.past hσ, fun _ => rfl, fun _ => rfl, fun h => (by cases h),
    fun h => (by cases h)⟩ h hs
  obtain ⟨hu, hh⟩ := Stage.past_iff.mp hσ
  refine Stage.past_iff.mpr ⟨?_, ?_⟩
  · rw [← Bool.not_eq_true]
    exact fun hτ => by rw [hclaim hτ] at hu; cases hu
  · rw [← Bool.not_eq_true]
    exact fun hτ => by rw [hheld hτ] at hh; cases hh

/-- A job in a stage that is no draft was announced. -/
theorem announced_of_custody (hinv : l.Inv) {σ : Stage} (hc : l.custody id = some σ)
    (hσ : σ.drafted = false) : l.Announced id := by
  refine ⟨hinv.custodyLt id σ hc, fun τ hτ => ?_⟩
  obtain rfl : σ = τ := Option.some_inj.mp (hc.symm.trans hτ)
  simp [hσ]

theorem past_of_custody (hinv : l.Inv) {σ : Stage} (hc : l.custody id = some σ)
    (hσ : σ.past = true) : l.Past id := by
  refine ⟨hinv.custodyLt id σ hc, fun τ hτ => ?_⟩
  obtain rfl : σ = τ := Option.some_inj.mp (hc.symm.trans hτ)
  exact hσ

/-- An active job was announced. -/
theorem announced_of_active (hinv : l.Inv) {j : Job} (hj : l.active id = some j) :
    l.Announced id := by
  refine ⟨(hinv.activeId id j hj).2, fun σ hσ => ?_⟩
  have hallows := (hinv.fits id σ hσ).allows j hj
  cases σ <;> first | rfl | exact absurd hallows not_false

/-! ### Records that are not yet active -/

/-- A stored record that its submit call has not yet announced is at
`REQUEST_ACCEPTED`. -/
def Staged (l : Ledger) : Prop :=
  ∀ id job k, l.custody id = some (.stored job) → l.stored id = some k →
    k.delivery = .requestAccepted

theorem Staged.step (h : l.Staged) (hinv : l.Inv) (hs : l.Step mv l') : l'.Staged := by
  intro id job k hc hk
  -- a job whose custody changes is not staged afterwards, except by `store`
  have hhand : ∀ {id' : JobId} {σ' : Option Stage}, (∀ τ, σ' = some τ → τ.drafted = false) →
      Function.update l.custody id' σ' id = some (.stored job) →
        id ≠ id' ∧ l.custody id = some (.stored job) := by
    intro id' σ' hσ' hc'
    by_cases hid : id = id'
    · subst hid
      rw [Function.update_self] at hc'
      exact absurd (hσ' _ hc') (by simp [Stage.drafted])
    · rw [Function.update_of_ne hid] at hc'
      exact ⟨hid, hc'⟩
  cases hs with
  | draw hl hid hfresh =>
    by_cases he : id = l.next
    · have hc' : Function.update l.custody l.next _ id = some (.stored job) := hc
      rw [he, Function.update_self] at hc'
      cases hc'
    · exact h id job k ((Function.update_of_ne he _ _).symm.trans hc) hk
  | @store job' hc' =>
    by_cases he : id = job'.jobId
    · obtain ⟨-, hfresh, -⟩ := (hinv.fits _ _ hc').draft job' rfl
      have hk' : Function.update l.stored job'.jobId (some job') id = some k := hk
      rw [he, Function.update_self, Option.some_inj] at hk'
      exact hk' ▸ hfresh.2.2
    · exact h id job k ((Function.update_of_ne he _ _).symm.trans hc)
        ((Function.update_of_ne he _ _).symm.trans hk)
  | @own id' σ σ' ch j r hc' hh hj =>
    obtain ⟨hne, hc''⟩ := hhand (fun τ hτ => by subst hτ; exact hh.drafted) hc
    rw [stored_hand, stored_change_of_ne (hinv.activeId id' j hj).1 hne] at hk
    exact h id job k hc'' hk
  | @foreign o id' ch j r hf hj =>
    have hne : id ≠ id' := by
      rintro rfl
      exact (hinv.fits id _ hc).allows j hj
    rw [stored_change_of_ne (hinv.activeId id' j hj).1 hne] at hk
    exact h id job k hc hk
  | relabel hc' hσ hclaim hinv' hheld hcarry hj =>
    obtain ⟨-, hc''⟩ := hhand (fun τ hτ => by
      obtain rfl := Option.some_inj.mp hτ
      exact Stage.drafted_of_carries hcarry) hc
    exact h id job k hc'' hk
  | forget hc' hσ hj => exact h id job k (hhand (fun τ hτ => by cases hτ) hc).2 hk
  | announce hc' => exact h id job k (hhand (fun τ hτ => by cases hτ; rfl) hc).2 hk
  | reopen hc' => exact h id job k (hhand (fun τ hτ => by cases hτ; rfl) hc).2 hk
  | invokeCalling printer hc' => exact h id job k (hhand (fun τ hτ => by cases hτ; rfl) hc).2 hk
  | invokeExpired printer hc' => exact h id job k (hhand (fun τ hτ => by cases hτ; rfl) hc).2 hk
  | orphan ids hσ =>
    have hc' : l.custody id = some (.stored job) := custody_of_orphan hc
    exact h id job k hc' hk
  | load hl hc' ha =>
    obtain ⟨job', -, he⟩ := Option.map_eq_some_iff.mp hc
    cases he
  | purge cutoff => exact h id job k hc (stored_of_purge hk)
  | crash => cases hc
  | quiet => exact h id job k hc hk
  | note he => exact h id job k hc hk

/-! ### Becoming active again -/

/-- An announced job becomes active again only by being reopened. -/
theorem active_before (hann : l.Announced id) (hs : l.Step mv l')
    (hunloaded : ∀ job, l.custody id ≠ some (.unloaded job)) (hj : l'.active id ≠ none) :
    l.active id ≠ none := by
  cases hs with
  | @announce job hc =>
    by_cases hid : id = job.jobId
    · have hdraft := hann.stage _ (hid ▸ hc)
      cases hdraft
    · exact fun hnone => hj ((Function.update_of_ne hid _ _).trans hnone)
  | @reopen job hc =>
    by_cases hid : id = job.jobId
    · exact absurd (hid ▸ hc) (hunloaded job)
    · exact fun hnone => hj ((Function.update_of_ne hid _ _).trans hnone)
  | @own id' σ σ' ch k r hc hh hk =>
    by_cases hid : id = id'
    · rw [hid, hk]
      simp
    · rwa [active_hand, active_change_of_ne hid] at hj
  | @foreign o id' ch k r hf hk =>
    by_cases hid : id = id'
    · rw [hid, hk]
      simp
    · rwa [active_change_of_ne hid] at hj
  | crash => exact absurd rfl hj
  | _ => exact hj

/-! ### Reconciliation -/

/-- A record is waiting to be reopened only since reconciliation read it. -/
theorem unloaded_before {job : Job} (hs : l.Step mv l')
    (hc : l'.custody id = some (.unloaded job)) :
    l.custody id = some (.unloaded job) ∨ l.loaded = false ∧ l.openRecord id = some job := by
  have hhand : ∀ {id' : JobId} {σ' : Option Stage}, (∀ τ, σ' = some τ → τ.unshared = false ∨
      τ.drafted = true) → Function.update l.custody id' σ' id = some (.unloaded job) →
        l.custody id = some (.unloaded job) := by
    intro id' σ' hσ' hc'
    by_cases hid : id = id'
    · subst hid
      rw [Function.update_self] at hc'
      rcases hσ' _ hc' with he | he <;> cases he
    · rwa [Function.update_of_ne hid] at hc'
  cases hs with
  | load hl hc' ha =>
    obtain ⟨job', hjob, he⟩ := Option.map_eq_some_iff.mp hc
    obtain rfl := Stage.unloaded.inj he
    exact Or.inr ⟨hl, hjob⟩
  | draw | store =>
    exact Or.inl (hhand (fun τ hτ => by cases hτ; exact Or.inr rfl) hc)
  | announce | reopen | invokeCalling | invokeExpired =>
    exact Or.inl (hhand (fun τ hτ => by cases hτ; exact Or.inl rfl) hc)
  | forget => exact Or.inl (hhand (fun τ hτ => by cases hτ) hc)
  | relabel _ _ _ _ _ hcarry =>
    exact Or.inl (hhand (fun τ hτ => by
      cases hτ
      exact Or.inl (Stage.unshared_of_carries hcarry)) hc)
  | own r hc' hh hj =>
    exact Or.inl (hhand (fun τ hτ => by
      subst hτ
      exact Or.inl (Stage.unshared_of_carries hh.carries)) hc)
  | orphan ids hσ =>
    have hc' : l.custody id = some (.unloaded job) := custody_of_orphan hc
    exact Or.inl hc'
  | crash => cases hc
  | quiet | note | foreign | purge => exact Or.inl hc

/-- While nothing is active and nobody holds a job, records are only purged. -/
theorem stored_of_dormant (hcust : ∀ id, l.custody id = none) (hact : ∀ id, l.active id = none)
    (hs : l.Step mv l') {j : Job} (hj : l'.stored id = some j) : l.stored id = some j := by
  cases hs with
  | store hc =>
    rw [hcust] at hc
    cases hc
  | own r hc hh hk =>
    rw [hcust] at hc
    cases hc
  | foreign r hf hk =>
    rw [hact] at hk
    cases hk
  | purge cutoff => exact stored_of_purge hj
  | _ => exact hj

/-- Only a crash undoes reconciliation. -/
theorem loaded_step (hs : l.Step mv l') (hmv : mv ≠ .crash) (hl : l'.loaded = false) :
    l.loaded = false := by
  cases hs with
  | load hl' => cases hl
  | crash => exact absurd rfl hmv
  | _ => exact hl

end Ledger

end KilnPrint
