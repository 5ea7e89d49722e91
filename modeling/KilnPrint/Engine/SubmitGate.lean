/-
The submit gate and the uniqueness of idempotency keys.

A `submit` call looks its key up and stores its record while it holds the gate.

* `Task.gated` — the points between taking and leaving the gate;
* `gated_step` — **at most one call is between them**, the holder of the gate;
* `Keyed`, `keyed_step` — a call about to store a record has found no record
  with its key, and **no two stored records share one**.
-/
import KilnPrint.Engine.Agreement
import KilnPrint.Engine.TaskStep

namespace KilnPrint

open Runs

/-! ### The points inside the gate -/

def SubmitPc.gated : SubmitPc → Bool
  | lookup _ | existing _ | insert _ | activate _ | exit _ | leave _ => true
  | _ => false

/-- The points after the gate. -/
def SubmitPc.late : SubmitPc → Bool
  | enter _ | lookup _ | existing _ | insert _ | activate _ | exit _ | leave _ => false
  | _ => true

/-- The record a call is still to store. -/
def SubmitPc.draft : SubmitPc → Option Job
  | enter job | lookup job | insert job => some job
  | _ => none

def Task.gated : Task → Bool
  | submit _ _ pc => pc.gated
  | _ => false

theorem gated_submit {task : Task} (h : task.gated = true) :
    ∃ who request pc, task = .submit who request pc ∧ pc.gated = true := by
  cases task <;> first | exact ⟨_, _, _, rfl, h⟩ | cases h

/-- What an operation does to the gate. -/
inductive Op.GateEffect
  | none
  | lock
  | unlock
  deriving DecidableEq

def Op.gateEffect : Op → Op.GateEffect
  | lockGate _ => .lock
  | unlockGate _ => .unlock
  | _ => .none

variable {env : Env} {s s₁ s' : State} {t u : TaskId} {inp : Input} {o : Origin} {op : Op}
  {k : Task} {a : Action}

theorem exec_gate (h : exec env t o inp s op = some (s₁, k)) :
    match op.gateEffect with
    | .none => s₁.gate = s.gate
    | .lock => s.gate = none ∧ s₁.gate = some t
    | .unlock => s₁.gate = none := by
  cases exec_effect h with
  | idle hidle => cases op <;> first | exact absurd hidle not_false | rfl
  | mutate id ch f =>
    show (s.mutate t o inp id ch).1.gate = s.gate
    unfold State.mutate
    split <;> rfl
  | lockGate k' hnone => exact ⟨hnone, rfl⟩
  | _ => rfl

/-- Only `submit` uses the gate. -/
theorem code_gateEffect (task : Task) : (code env inp task).gateEffect =
    match task with
    | .submit _ _ (.enter _) => .lock
    | .submit _ _ (.exit _) | .submit _ _ (.leave _) => .unlock
    | _ => .none := by
  cases task with
  | none => rfl
  | submit who request pc =>
    cases pc with
    | check id | render id printer warnings language =>
      simp only [code, submitCode]
      split <;> rfl
    | _ => rfl
  | worker w =>
    obtain ⟨printer, rx, pc⟩ := w
    cases pc with
    | polling => cases rx <;> rfl
    | calling call =>
      simp only [code, workerCode]
      split
      · rfl
      · split <;> rfl
    | late call =>
      simp only [code, workerCode]
      split <;> rfl
    | _ => rfl
  | monitor m =>
    obtain ⟨id, printer, spoolerJobId, pc⟩ := m
    cases pc with
    | spawned =>
      simp only [code, monitorCode]
      split <;> rfl
    | _ => rfl
  | cancel id pc => cases pc <;> rfl
  | shutdown pc =>
    cases pc with
    | failing todo =>
      cases todo with
      | nil => rfl
      | cons id rest =>
        simp only [code, shutdownCode]
        split <;> rfl
    | _ => rfl
  | start pc =>
    cases pc with
    | reconcile jobs =>
      cases jobs with
      | nil => rfl
      | cons job rest =>
        simp only [code, startCode]
        split <;> rfl
    | settle job printer rest =>
      simp only [code, startCode]
      split <;> rfl
    | _ => rfl

theorem gated_of_unlock {task : Task} (h : (code env inp task).gateEffect = .unlock) :
    task.gated = true := by
  rw [code_gateEffect] at h
  split at h <;> first | rfl | cases h

section Points

variable {who : Submitter} {request : PrintRequest} {pc pc' : SubmitPc} {job : Job}

theorem flow_of_continues
    (h : (submitCode env who request inp pc).Continues (.submit who request pc')) :
    SubmitFlow pc pc' := by
  obtain ⟨pc'', hpc, hflow⟩ := submit_flow h
  obtain rfl := (Task.submit.inj hpc).2.2
  exact hflow

/-- A call that has left the gate does not come back. -/
theorem late_continues (h : (submitCode env who request inp pc).Continues (.submit who request pc'))
    (hl : pc.late = true) : pc'.late = true := by
  cases flow_of_continues h <;> first | rfl | cases hl

theorem not_gated_of_late (h : pc.late = true) : pc.gated = false := by
  cases pc <;> first | rfl | cases h

/-- A call gets inside the gate by taking it, and stays there until it leaves. -/
theorem gated_continues
    (h : (submitCode env who request inp pc).Continues (.submit who request pc'))
    (hg : pc'.gated = true) : (∃ job, pc = .enter job) ∨
      pc.gated = true ∧ (code env inp (.submit who request pc)).gateEffect = .none := by
  cases pc with
  | enter job => exact Or.inl ⟨job, rfl⟩
  | lookup job | existing job | insert job | activate job => exact Or.inr ⟨rfl, rfl⟩
  | exit result | leave id => cases flow_of_continues h <;> cases hg
  | _ =>
    rw [not_gated_of_late (late_continues h rfl)] at hg
    cases hg

/-- A call never gets another draft. -/
theorem draft_continues
    (h : (submitCode env who request inp pc).Continues (.submit who request pc'))
    (hd : pc'.draft = some job) : pc.draft = some job := by
  cases flow_of_continues h <;> first | exact hd | cases hd

end Points

/-! ### Mutual exclusion -/

/-- Whoever is inside the gate holds it. -/
def State.Gated (s : State) : Prop := ∀ t, (s.task t).gated = true → s.gate = some t

theorem gated_of_touched {old new : Task} (h : Touched old new) (hg : new.gated = true) :
    old = new := by
  cases h <;> first | rfl | cases hg

/-- **At most one call is inside the gate.** -/
theorem gated_step (hg : s.Gated) (h : step env s a = some s') : s'.Gated := by
  intro u hu
  have hsame : s'.gate = s.gate → s.task u = s'.task u → s'.gate = some u := fun h₁ h₂ => by
    rw [h₁, hg u (by rw [h₂, hu])]
  -- a task that does not run is at the point where it was
  have hold : (∀ inp, a ≠ .run u inp) → s.task u = s'.task u := by
    intro hne
    cases step_task h u with
    | touched ht => exact gated_of_touched ht hu
    | ran ha => exact absurd ha (hne _)
    | submitted ha hpc hold hnew =>
      rw [hnew] at hu
      rcases hpc with rfl | ⟨e, rfl⟩ <;> cases hu
    | phase hpc ha hold hnew | booted ha hu' hold hnew | cancelled ha hold hnew
    | shutdown ha hold hnew | dropped ha hold hnew | crashed ha hnew =>
      rw [hnew] at hu
      cases hu
  rcases step_shared h with ⟨t, inp, rfl⟩ | rfl | ⟨hrun, hshared⟩
  · rcases runTask_eq h with ⟨e, rfl⟩ | ⟨-, s₁, k, hex, rfl⟩
    · exact hg u hu
    · have hgate := exec_gate hex
      by_cases hut : u = t
      · subst hut
        rw [task_setTask_self] at hu
        have hc := exec_continues hex
        obtain ⟨who, request, pc', rfl, hpc'⟩ := gated_submit hu
        obtain ⟨pc, htask⟩ := kind_eq_submit.mp (code_kind hc).symm
        rw [htask] at hc hgate
        rcases gated_continues hc hpc' with ⟨job, rfl⟩ | ⟨hpc, heff⟩
        · exact hgate.2
        · rw [heff] at hgate
          exact hgate.trans (hg u (by rw [htask]; exact hpc))
      · have hsu := hold (fun inp' he => hut (by cases he; rfl))
        have hu' := hg u (by rw [hsu]; exact hu)
        -- a task that locks the gate finds it free, and one that unlocks it is its holder
        cases heff : (code env inp (s.task t)).gateEffect <;> rw [heff] at hgate
        · exact hgate.trans hu'
        · rw [hu'] at hgate
          cases hgate.1
        · have ht := hg t (gated_of_unlock heff)
          exact absurd (Option.some_inj.mp (hu'.symm.trans ht)) hut
  · cases Option.some_inj.mp h
    cases hu
  · exact hsame hshared.gate (hold (hrun u))

/-! ### Unique keys -/

/-- Both jobs were submitted by one client under one idempotency key. -/
def Job.SameKey (a b : Job) : Prop :=
  a.clientId = b.clientId ∧ a.idempotencyKey = b.idempotencyKey ∧ a.idempotencyKey.isSome = true

theorem Job.SameKey.symm {a b : Job} (h : a.SameKey b) : b.SameKey a :=
  ⟨h.1.symm, h.2.1.symm, h.2.1 ▸ h.2.2⟩

/-- A job has the key of every record of its own. -/
theorem Job.SameKey.of_identity {a b c : Job} (h : a.SameKey b)
    (hid : Change.identity b = Change.identity c) : a.SameKey c := by
  obtain ⟨-, hrest⟩ := Prod.mk.inj hid
  obtain ⟨hclient, hkey⟩ := Prod.mk.inj hrest
  exact ⟨h.1.trans hclient, h.2.1.trans hkey, h.2.2⟩

/-- Every active record has a stored record of the same job. -/
def Ledger.Anchored (l : Ledger) : Prop :=
  ∀ id j, l.active id = some j → ∃ k, l.stored id = some k ∧ Change.identity k = Change.identity j

theorem Ledger.Agree.anchored {l : Ledger} (h : l.Agree) : l.Anchored :=
  fun id j hj => ⟨j, h.synced id j hj, rfl⟩

/-- Where a stored record comes from: from a record of the same job, or from a
draft that is stored now. -/
theorem Ledger.Anchored.identity_step {l l' : Ledger} {mv : Move} {id : JobId} {k : Job}
    (h : l.Anchored) (hinv : l.Inv) (hs : l.Step mv l') (hk : l'.stored id = some k) :
    (∃ j, l.stored id = some j ∧ Change.identity j = Change.identity k) ∨
      mv = .store k ∧ k.jobId = id := by
  have hsame : l.stored id = some k →
      (∃ j, l.stored id = some j ∧ Change.identity j = Change.identity k) ∨
        mv = .store k ∧ k.jobId = id := fun hk => Or.inl ⟨k, hk, rfl⟩
  have hchange : ∀ o r id' ch j, l.active id' = some j →
      (l.change o r id' ch j).stored id = some k →
      (∃ j, l.stored id = some j ∧ Change.identity j = Change.identity k) ∨
        mv = .store k ∧ k.jobId = id := by
    intro o r id' ch j hj hres
    obtain ⟨hid, -⟩ := hinv.activeId id' j hj
    by_cases he : id = id'
    · subst he
      rcases stored_change_self o r ch hid with hs | hs
      · rw [hs, Option.some_inj] at hres
        subst hres
        have hidentity : Change.identity (ch.apply r.now j).1 = Change.identity j :=
          Change.identity_apply
        obtain ⟨j₀, hj₀, hsame⟩ := h id j hj
        exact Or.inl ⟨j₀, hj₀, hsame.trans hidentity.symm⟩
      · exact hsame (hs ▸ hres)
    · rw [stored_change_of_ne hid he] at hres
      exact hsame hres
  cases hs with
  | @own id' σ σ' ch j r hc hh hj => exact hchange σ.origin r id' ch j hj hk
  | @foreign o id' ch j r hfo hj => exact hchange o r id' ch j hj hk
  | @store job hc =>
    have hres : Function.update l.stored job.jobId (some job) id = some k := hk
    by_cases he : id = job.jobId
    · subst he
      rw [Function.update_self, Option.some_inj] at hres
      subst hres
      exact Or.inr ⟨rfl, rfl⟩
    · rw [Function.update_of_ne he] at hres
      exact hsame hres
  | purge cutoff => exact hsame (stored_of_purge hk)
  | _ => exact hsame hk

/-- No two records share a key, and none has the key of a record about to be
stored. -/
structure Keyed (s : State) : Prop where
  gated : s.Gated
  named : ∀ t who request pc job, s.task t = .submit who request pc → pc.draft = some job →
    job.clientId = who.clientId
  absent : ∀ t who request job, s.task t = .submit who request (.insert job) →
    ∀ id j, s.repo.lookup id = some j → ¬ job.SameKey j
  unique : ∀ i j a b, s.repo.lookup i = some a → s.repo.lookup j = some b → a.SameKey b → i = j

/-- Where the stored records of the next state come from. -/
theorem stored_step (hw : Wf s) (hanchored : (ledger s).Anchored) (h : step env s a = some s')
    {id : JobId} {k : Job} (hk : s'.repo.lookup id = some k) :
    (∃ j, s.repo.lookup id = some j ∧ Change.identity j = Change.identity k) ∨
      k.jobId = id ∧ ∃ t inp who request, a = .run t inp ∧
        s.task t = .submit who request (.insert k) := by
  obtain ⟨mv, hof, -, hmove⟩ := step_refines hw h
  rcases hanchored.identity_step hw.inv hmove hk with hold | ⟨rfl, hid⟩
  · exact Or.inl hold
  · exact Or.inr ⟨hid, hof⟩

/-- A call stands before storing its record only when it has no key, or has just
found that its key is new. -/
theorem insert_of_ran {who : Submitter} {request : PrintRequest} {pc : SubmitPc} {job : Job}
    (h : exec env t o inp s (submitCode env who request inp pc) =
      some (s₁, .submit who request (.insert job))) :
    (pc = .enter job ∧ job.idempotencyKey = none) ∨ (pc = .lookup job ∧
      s.repo.findByIdempotencyKey who.clientId (job.idempotencyKey.getD "") = none) := by
  cases pc with
  | enter job' =>
    left
    have hc := exec_continues h
    obtain hpc := (Task.submit.inj hc).2.2
    split at hpc
    · cases hpc
    · next hnone =>
      obtain rfl := SubmitPc.insert.inj hpc
      exact ⟨rfl, by simpa using hnone⟩
  | lookup job' =>
    right
    obtain ⟨-, hk⟩ := Prod.mk.inj (Option.some_inj.mp h)
    cases hr : inp.repoOk with
    | false =>
      rw [Input.call, hr] at hk
      cases hk
    | true =>
      rw [Input.call, hr, if_pos rfl] at hk
      cases hfind : s.repo.findByIdempotencyKey who.clientId (job'.idempotencyKey.getD "") with
      | some stored =>
        rw [hfind] at hk
        cases hk
      | none =>
        rw [hfind] at hk
        obtain rfl := SubmitPc.insert.inj (Task.submit.inj hk).2.2
        exact ⟨rfl, hfind⟩
  | insert job' =>
    obtain ⟨r, hr⟩ := exec_continues h
    cases r <;> cases hr
  | _ => cases draft_continues (exec_continues h) rfl

/-- A key that is not found belongs to no record. -/
theorem not_sameKey_of_find {who : Submitter} {job j : Job} {id : JobId}
    (hclient : job.clientId = who.clientId)
    (hfind : s.repo.findByIdempotencyKey who.clientId (job.idempotencyKey.getD "") = none)
    (hj : s.repo.lookup id = some j) : ¬ job.SameKey j := by
  rintro ⟨h₁, h₂, h₃⟩
  obtain ⟨key, hkey⟩ := Option.isSome_iff_exists.mp h₃
  have hno := List.find?_eq_none.mp hfind j (FinMap.mem_values.mpr ⟨id, hj⟩)
  refine hno ?_
  rw [hkey, Option.getD_some, ← h₂, hkey, ← h₁, hclient]
  simp

/-- **A step keeps the keys unique** while every active record has its stored one. -/
theorem keyed_step_of_anchored (hw : Wf s) (hanchored : (ledger s).Anchored) (hk : Keyed s)
    (h : step env s a = some s') : Keyed s' := by
  have hstored := @stored_step env s s' a hw hanchored h
  have hsubmit : ∀ {old : Task} {who request pc}, Touched old (.submit who request pc) →
      old = .submit who request pc := by
    intro old who request pc ht
    cases ht
    rfl
  refine ⟨gated_step hk.gated h, fun u who request pc job hu hd => ?_, fun u who request job hu => ?_,
    fun i j x y hx hy hkey => ?_⟩
  · cases step_task h u with
    | touched ht => exact hk.named u who request pc job (hsubmit (hu ▸ ht)) hd
    | ran ha hp hex hs =>
      subst hs
      rw [task_setTask_self] at hu
      subst hu
      obtain ⟨pc₀, htask⟩ := kind_eq_submit.mp (code_kind (exec_continues hex)).symm
      have hc := exec_continues hex
      rw [htask] at hc
      exact hk.named u who request pc₀ job htask (draft_continues hc hd)
    | submitted ha hpc hnone hnew =>
      rw [hnew] at hu
      cases hu
      rcases hpc with rfl | ⟨e, rfl⟩
      · obtain rfl := Option.some_inj.mp hd
        rfl
      · cases hd
    | phase hpc ha hold hnew | booted ha hu' hold hnew | cancelled ha hold hnew
    | shutdown ha hold hnew | dropped ha hold hnew | crashed ha hnew =>
      rw [hnew] at hu
      cases hu
  · intro id j hj hsame
    -- a record stored while this call is before storing its own would need the gate as well
    have hold : s.task u = .submit who request (.insert job) → False := fun htask => by
      rcases hstored hj with ⟨j₀, hj₀, hid⟩ | ⟨-, t, inp, who', request', rfl, ht⟩
      · exact hk.absent u who request job htask id j₀ hj₀ (hsame.of_identity hid.symm)
      · have hgate := hk.gated t (by rw [ht]; rfl)
        obtain rfl : u = t := Option.some_inj.mp ((hk.gated u (by rw [htask]; rfl)).symm.trans hgate)
        rcases runTask_eq h with ⟨e, rfl⟩ | ⟨-, s₁, k, hex, rfl⟩
        · exact hk.absent u who request job htask id j hj hsame
        · rw [task_setTask_self] at hu
          subst hu
          rw [show code env inp (s.task u) = submitCode env who request inp (.insert job) by
            rw [htask]; rfl] at hex
          have hex' : exec env u (s.task u).origin inp s (submitCode env who request inp (.insert job)) =
              some (s₁, .submit who request (.insert job)) := hex
          rcases insert_of_ran hex' with ⟨he, -⟩ | ⟨he, -⟩ <;> cases he
    cases step_task h u with
    | touched ht => exact hold (hsubmit (hu ▸ ht))
    | @ran inp s₁ k ha hp hex hs =>
      subst hs
      rw [task_setTask_self] at hu
      subst hu
      obtain ⟨pc, htask⟩ := kind_eq_submit.mp (code_kind (exec_continues hex)).symm
      rw [htask] at hex
      have hex' : exec env u _ inp s (submitCode env who request inp pc) = some (_, _) := hex
      rcases insert_of_ran hex' with ⟨rfl, hnokey⟩ | ⟨rfl, hfind⟩
      · have hkey := hsame.2.2
        rw [hnokey] at hkey
        cases hkey
      · rcases hstored hj with ⟨j₀, hj₀, hid⟩ | ⟨-, t, inp', who', request', ha', ht⟩
        · exact not_sameKey_of_find (hk.named u who request _ job htask rfl) hfind hj₀
            (hsame.of_identity hid.symm)
        · cases ha.symm.trans ha'
          rw [htask] at ht
          cases ht
    | submitted ha hpc hnone hnew =>
      rw [hnew] at hu
      rcases hpc with rfl | ⟨e, rfl⟩ <;> cases hu
    | phase hpc ha hold hnew | booted ha hu' hold hnew | cancelled ha hold hnew
    | shutdown ha hold hnew | dropped ha hold hnew | crashed ha hnew =>
      rw [hnew] at hu
      cases hu
  -- two records under one key: both old, one new and one old, or both new
  · rcases hstored hx with ⟨x₀, hx₀, hidx⟩ | ⟨hidx, t, inp, who, request, rfl, ht⟩ <;>
      rcases hstored hy with ⟨y₀, hy₀, hidy⟩ | ⟨hidy, t', inp', who', request', ha, ht'⟩
    · refine hk.unique i j x₀ y₀ hx₀ hy₀ ?_
      exact ((hkey.of_identity hidy.symm).symm.of_identity hidx.symm).symm
    · subst ha
      exact absurd (hkey.symm.of_identity hidx.symm) (hk.absent t' who' request' y ht' i x₀ hx₀)
    · exact absurd (hkey.of_identity hidy.symm) (hk.absent t who request x ht j y₀ hy₀)
    · cases ha
      rw [ht] at ht'
      cases ht'
      exact hidx.symm.trans hidy

/-- **Every reliable step keeps the keys unique.** -/
theorem keyed_step (hw : Wf s) (hagree : (ledger s).Agree) (hk : Keyed s)
    (h : step env s a = some s') : Keyed s' :=
  keyed_step_of_anchored hw hagree.anchored hk h

end KilnPrint
