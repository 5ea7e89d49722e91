/-
The engine over its job table.

The engine is written for a repository that takes every record and keeps all of it; the agent
gives it an SQL table, which could refuse a record and updates some columns only.

* `RepoCall`, with `onTable` and `onMap` — one call of the engine, on the table and on a
  repository;
* `State.repoCall`, `step_repo` — the call each step makes, and what it leaves behind;
* `accepted` — one call: the table takes it, and answers as the repository does;
* `stepOn` — the engine and its table, side by side;
* `table_follows` — **the table answers every call of every run as the repository does**.

An insertion needs that the submit gate lets no two calls store one key, an update that no
change touches the fields whose columns stay.  Both hold when earlier calls have failed.
-/
import KilnPrint.Agent.JobTable

namespace KilnPrint

open Runs

/-! ### Calls -/

/-- A call of the engine on its repository. -/
inductive RepoCall
  | insert (job : Job)
  | update (job : Job)
  | get (id : JobId)
  | findByIdempotencyKey (clientId key : String)
  | nonTerminal
  | purgeTerminalBefore (cutoff : Time)

inductive RepoAnswer
  | done
  | found (job : Option Job)
  | listed (jobs : List Job)
  | removed (count : ℕ)

/-- Equal answers, but for the order of a listing. -/
def RepoAnswer.Agrees : RepoAnswer → RepoAnswer → Prop
  | listed a, listed b => a.Perm b
  | a, b => a = b

namespace RepoCall

def onTable (t : JobTable) : RepoCall → Except PrintError (JobTable × RepoAnswer)
  | insert job | update job => (t.upsert job).map fun t' => (t', .done)
  | get id => .ok (t, .found (t.get id))
  | findByIdempotencyKey clientId key => .ok (t, .found (t.findByIdempotencyKey clientId key))
  | nonTerminal => .ok (t, .listed t.nonTerminal)
  | purgeTerminalBefore cutoff =>
    .ok ((t.purgeTerminalBefore cutoff).1, .removed (t.purgeTerminalBefore cutoff).2)

/-- The same call on a repository, whose purges have whole microseconds. -/
def onMap (r : JobRepository) : RepoCall → JobRepository × RepoAnswer
  | insert job => (r.insert job, .done)
  | update job => (r.update job, .done)
  | get id => (r, .found (r.get id))
  | findByIdempotencyKey clientId key => (r, .found (r.findByIdempotencyKey clientId key))
  | nonTerminal => (r, .listed r.nonTerminal)
  | purgeTerminalBefore cutoff =>
    let r' := r.purgeTerminalBefore (wholeMicros cutoff)
    (r', .removed (r.values.length - r'.values.length))

end RepoCall

/-- The call an operation makes in a state. -/
def Op.repoCall (s : State) (inp : Input) : Op → Option RepoCall
  -- a record that stays as it is is not written
  | mutate id ch _ => (s.active.lookup id).bind fun before =>
      if (ch.apply inp.now before).1 ≠ before then
        some (.update (ch.mutated inp.now inp.stamp before).job)
      else none
  | findByIdempotencyKey clientId key _ => some (.findByIdempotencyKey clientId key)
  | insert job _ => some (.insert job)
  | get id _ => some (.get id)
  | nonTerminal _ => some .nonTerminal
  | _ => none

/-- The call a step makes. -/
def State.repoCall (env : Env) (s : State) : Action → Option RepoCall
  | .run t inp =>
    if (s.pendingEvent t).isNone then (code env inp (s.task t)).repoCall s inp else none
  | .purge cutoff => some (.purgeTerminalBefore cutoff)
  | _ => none

/-- The engine's part of an action: its repository purges whole microseconds. -/
def Action.rounded : Action → Action
  | .purge cutoff => .purge (wholeMicros cutoff)
  | a => a

/-- One step of the engine and of its table.  A step whose call succeeds is taken only if the
table accepts the call. -/
def stepOn (env : Env) (x : State × JobTable) (a : Action) : Option (State × JobTable) :=
  (step env x.1 a.rounded).bind fun s' =>
    match x.1.repoCall env a with
    | some c =>
      if a.reliable then
        match c.onTable x.2 with
        | .ok (t', _) => some (s', t')
        | .error _ => none
      else some (s', x.2)
    | none => some (s', x.2)

variable {env : Env} {s s₁ s' : State} {t : TaskId} {inp : Input} {o : Origin} {op : Op} {k : Task}
  {a : Action} {db db' : JobTable} {c : RepoCall}

/-! ### The calls of a step -/

/-- Only a submit call stores a new record. -/
theorem code_insert {task : Task} {job : Job} {f : Except PrintError Unit → Task}
    (h : code env inp task = .insert job f) :
    ∃ who request, task = .submit who request (.insert job) := by
  cases task with
  | none => cases h
  | submit who request pc =>
    cases pc with
    | insert job' =>
      cases h
      exact ⟨who, request, rfl⟩
    | check id | render id printer warnings language =>
      simp only [code, submitCode] at h
      split at h <;> cases h
    | _ => cases h
  | worker w =>
    obtain ⟨printer, rx, pc⟩ := w
    cases pc with
    | polling => cases rx <;> cases h
    | calling call =>
      simp only [code, workerCode] at h
      split at h
      · cases h
      · split at h <;> cases h
    | late call =>
      simp only [code, workerCode] at h
      split at h <;> cases h
    | _ => cases h
  | monitor m =>
    obtain ⟨id, printer, spoolerJobId, pc⟩ := m
    cases pc with
    | spawned =>
      simp only [code, monitorCode] at h
      split at h <;> cases h
    | _ => cases h
  | cancel id pc => cases pc <;> cases h
  | shutdown pc =>
    cases pc with
    | failing todo =>
      cases todo with
      | nil => cases h
      | cons id rest =>
        simp only [code, shutdownCode] at h
        split at h <;> cases h
    | _ => cases h
  | start pc =>
    cases pc with
    | reconcile jobs =>
      cases jobs with
      | nil => cases h
      | cons job' rest =>
        simp only [code, startCode] at h
        split at h <;> cases h
    | settle job' printer rest =>
      simp only [code, startCode] at h
      split at h <;> cases h
    | _ => cases h

/-- What an operation leaves in the repository is what its call leaves there. -/
theorem exec_repo (h : exec env t o inp s op = some (s₁, k)) :
    s₁.repo = match op.repoCall s inp with
      | some c => if inp.repoOk then (c.onMap s.repo).1 else s.repo
      | none => s.repo := by
  cases op with
  | insert job f =>
    obtain ⟨rfl, -⟩ : (if inp.repoOk then { s with repo := s.repo.insert job } else s) = s₁ ∧ _ :=
      Prod.mk.inj (Option.some_inj.mp h)
    show (if _ then _ else _ : State).repo = if _ then _ else _
    split <;> rfl
  | mutate id ch f =>
    obtain ⟨rfl, -⟩ : (s.mutate t o inp id ch).1 = s₁ ∧ _ := Prod.mk.inj (Option.some_inj.mp h)
    cases hj : s.active.lookup id with
    | none => simp only [State.mutate, Op.repoCall, hj, Option.bind_none]
    | some before =>
      simp only [State.mutate, Op.repoCall, hj, Option.bind_some]
      by_cases hsame : (ch.apply inp.now before).1 = before
      · rw [if_neg fun hc => hc.1 hsame, if_neg fun hc => hc hsame]
      · rw [if_pos hsame]
        by_cases hok : inp.repoOk = true
        · rw [if_pos ⟨hsame, hok⟩]
          exact (if_pos hok).symm
        · rw [if_neg fun hc => hok hc.2]
          exact (if_neg hok).symm
  | findByIdempotencyKey | get | nonTerminal =>
    obtain ⟨rfl, -⟩ := Prod.mk.inj (Option.some_inj.mp h)
    exact (ite_self _).symm
  | _ =>
    cases exec_effect h <;> rfl

theorem repo_setPhase (s : State) (t : TaskId) (phase : CallPhase) :
    (s.setPhase t phase).repo = s.repo := by
  unfold State.setPhase
  repeat' split
  all_goals rfl

/-- **What a step leaves in the repository** is what its call leaves there. -/
theorem step_repo (h : step env s a.rounded = some s') :
    s'.repo = match s.repoCall env a with
      | some c => if a.reliable then (c.onMap s.repo).1 else s.repo
      | none => s.repo := by
  cases a with
  | run t inp =>
    show s'.repo = match (if (s.pendingEvent t).isNone then _ else _ : Option RepoCall) with
      | some c => if inp.repoOk then (c.onMap s.repo).1 else s.repo
      | none => s.repo
    have h' : runTask env s t inp = some s' := h
    unfold runTask at h'
    split at h'
    · next e hp =>
      cases h'
      rw [hp]
      rfl
    · next hp =>
      obtain ⟨⟨s₁, k⟩, hex, rfl⟩ := Option.map_eq_some_iff.mp h'
      rw [hp]
      show s₁.repo = _
      exact exec_repo hex
  | purge cutoff =>
    obtain ⟨-, rfl⟩ := Runs.of_guarded h
    rfl
  | crash =>
    cases h
    rfl
  | start | drop t | discover printers | retire id =>
    obtain ⟨-, rfl⟩ := Runs.of_guarded h
    rfl
  | cancel t id | shutdown t =>
    obtain ⟨-, rfl⟩ := Runs.of_guarded h
    rfl
  | submit t who request now =>
    have h' : beginSubmit s t who request now = some s' := h
    unfold beginSubmit at h'
    split at h' <;>
    · obtain ⟨-, -, rfl⟩ := spawn_eq_some h'
      rfl
  | invoke t | finish t result =>
    obtain ⟨call, -, h'⟩ := Option.bind_eq_some_iff.mp h
    obtain ⟨-, rfl⟩ := Runs.of_guarded h'
    exact repo_setPhase ..

/-! ### The table's answers -/

/-- The records of an upsert a step makes: the record there has the same fixed fields, and no
other record has its key. -/
theorem upsert_fits {job : Job} (hreach : Reach (step env) (fun _ _ => True) init s)
    (h : s.repoCall env a = some (.insert job) ∨ s.repoCall env a = some (.update job)) :
    (∀ k, s.repo.get job.jobId = some k → Change.fixed k = Change.fixed job) ∧
      ∀ id k, s.repo.get id = some k → job.SameKey k → id = job.jobId := by
  have hw := wf_of_reach hreach
  have hkeyed := keyed_of_reach hreach
  obtain ⟨t, inp, hop⟩ : ∃ t inp, (code env inp (s.task t)).repoCall s inp = some (.insert job) ∨
      (code env inp (s.task t)).repoCall s inp = some (.update job) := by
    cases a with
    | run t inp =>
      exact ⟨t, inp, h.imp (fun h => (Option.ite_none_right_eq_some.mp h).2)
        fun h => (Option.ite_none_right_eq_some.mp h).2⟩
    | _ => rcases h with h | h <;> cases h
  generalize hcode : code env inp (s.task t) = op at hop
  cases op with
  | insert job' f =>
    obtain rfl : job' = job := by
      rcases hop with hop | hop
      · exact RepoCall.insert.inj (Option.some_inj.mp hop)
      · cases hop
    -- a draft has no record yet, and none has its key
    obtain ⟨who, request, htask⟩ := code_insert hcode
    have hcustody : (ledger s).custody job'.jobId = some (.draft job') :=
      custody_of_holds hw.exclusive (t := t) (by rw [htask]; exact List.mem_cons_self)
    have hnone : s.repo.get job'.jobId = none := ((hw.inv.fits _ _ hcustody).draft job' rfl).2.2
    refine ⟨fun k hk => ?_, fun id k hk hsame => ?_⟩
    · rw [hnone] at hk
      cases hk
    · exact absurd hsame (hkeyed.absent t who request job' htask id k hk)
  | mutate id ch f =>
    have hbind : ((s.active.lookup id).bind fun before =>
        if (ch.apply inp.now before).1 ≠ before then
          some (RepoCall.update (ch.mutated inp.now inp.stamp before).job)
        else none) = some (.update job) := by
      rcases hop with hop | hop
      · obtain ⟨before, -, hif⟩ := Option.bind_eq_some_iff.mp hop
        cases (Option.ite_none_right_eq_some.mp hif).2
      · exact hop
    obtain ⟨before, hactive, hif⟩ := Option.bind_eq_some_iff.mp hbind
    obtain rfl := RepoCall.update.inj (Option.some_inj.mp (Option.ite_none_right_eq_some.mp hif).2)
    -- the record there may be an older one of the same job
    obtain ⟨j, hj, hfixed, -⟩ := (rooted_of_reach hreach).active id before hactive
    have hmutated : Change.fixed j = Change.fixed (ch.mutated inp.now inp.stamp before).job :=
      hfixed.trans Change.fixed_mutated.symm
    obtain ⟨hidentity, -⟩ := Prod.mk.inj hmutated
    have hid : (ch.mutated inp.now inp.stamp before).job.jobId = id :=
      Change.jobId_mutated.trans (hw.inv.activeId id before hactive).1
    rw [hid]
    refine ⟨fun k hk => ?_, fun id' k hk hsame => ?_⟩
    · obtain rfl : j = k := Option.some_inj.mp (hj.symm.trans hk)
      exact hmutated
    · exact hkeyed.unique id' id k j hk hj (hsame.symm.of_identity hidentity.symm)
  | _ => rcases hop with hop | hop <;> cases hop

/-- **The table takes a call, and answers it as the repository does.** -/
theorem accepted (hreach : Reach (step env) (fun _ _ => True) init s) (hdb : db.Holds s.repo)
    (hc : s.repoCall env a = some c) :
    ∃ db' ans, c.onTable db = .ok (db', ans) ∧ ans.Agrees (c.onMap s.repo).2 ∧
      db'.Holds (c.onMap s.repo).1 := by
  cases c with
  | insert job =>
    obtain ⟨hfixed, hkey⟩ := upsert_fits hreach (.inl hc)
    obtain ⟨db', hupsert, hdb'⟩ := hdb.upsert hfixed hkey
    exact ⟨db', .done, by rw [RepoCall.onTable, hupsert]; rfl, rfl, hdb'⟩
  | update job =>
    obtain ⟨hfixed, hkey⟩ := upsert_fits hreach (.inr hc)
    obtain ⟨db', hupsert, hdb'⟩ := hdb.upsert hfixed hkey
    exact ⟨db', .done, by rw [RepoCall.onTable, hupsert]; rfl, rfl, hdb'⟩
  | get id => exact ⟨db, _, rfl, congrArg RepoAnswer.found (hdb.records id), hdb⟩
  | findByIdempotencyKey clientId key =>
    exact ⟨db, _, rfl, congrArg RepoAnswer.found
      (hdb.findByIdempotencyKey (keyed_of_reach hreach).unique clientId key), hdb⟩
  | nonTerminal => exact ⟨db, _, rfl, hdb.nonTerminal, hdb⟩
  | purgeTerminalBefore cutoff =>
    have hdb' := hdb.purge cutoff
    refine ⟨_, _, rfl, congrArg RepoAnswer.removed ?_, hdb'⟩
    have hrows := hdb.data_perm.length_eq
    have hrows' := hdb'.data_perm.length_eq
    rw [List.length_map] at hrows hrows'
    rw [← hrows, ← hrows']
    rfl

/-- **A step of the engine is one of the engine over its table.** -/
theorem stepOn_of_step (hreach : Reach (step env) (fun _ _ => True) init s) (hdb : db.Holds s.repo)
    (h : step env s a.rounded = some s') :
    ∃ db', stepOn env (s, db) a = some (s', db') ∧ db'.Holds s'.repo := by
  have hrepo := step_repo h
  cases hc : s.repoCall env a with
  | none =>
    rw [hc] at hrepo
    exact ⟨db, by simp only [stepOn, h, hc, Option.bind_some], hrepo ▸ hdb⟩
  | some c =>
    rw [hc] at hrepo
    obtain ⟨db', ans, hon, -, hdb'⟩ := accepted hreach hdb hc
    by_cases hok : a.reliable = true
    · have hafter : s'.repo = (c.onMap s.repo).1 := hrepo.trans (if_pos hok)
      exact ⟨db', by simp only [stepOn, h, hc, Option.bind_some, if_pos hok, hon], hafter ▸ hdb'⟩
    · have hafter : s'.repo = s.repo := hrepo.trans (if_neg hok)
      exact ⟨db, by simp only [stepOn, h, hc, Option.bind_some, if_neg hok], hafter ▸ hdb⟩

/-- **The engine's table answers every call of every run as its repository does**: it is never
refused a record, it holds the same records, its columns say what they say, and its listings are
theirs. -/
theorem table_follows (h : Reach (stepOn env) (fun _ _ => True) (init, .empty) (s, db)) :
    Reach (step env) (fun _ _ => True) init s ∧ db.Holds s.repo ∧
      (∃ table : Database, table.Represents s.repo ∧ ∀ f, db.list f = table.list f) ∧
      (∀ a s', step env s a.rounded = some s' → ∃ db', stepOn env (s, db) a = some (s', db')) ∧
      ∀ a c, s.repoCall env a = some c → ∃ db' ans, c.onTable db = .ok (db', ans) ∧
        ans.Agrees (c.onMap s.repo).2 := by
  have hrun : ∀ x, Reach (stepOn env) (fun _ _ => True) (init, .empty) x →
      Reach (step env) (fun _ _ => True) init x.1 ∧ x.2.Holds x.1.repo := by
    intro x hx
    refine hx.invariant (I := fun x => Reach (step env) (fun _ _ => True) init x.1 ∧
      x.2.Holds x.1.repo) ⟨.refl, .empty⟩ fun x a x' _ hi _ hs => ?_
    obtain ⟨hreach, hdb⟩ := hi
    obtain ⟨s', hs', hrest⟩ := Option.bind_eq_some_iff.mp hs
    obtain ⟨db', hon, hdb'⟩ := stepOn_of_step hreach hdb hs'
    obtain rfl : (s', db') = x' := Option.some_inj.mp (hon.symm.trans hs)
    exact ⟨hreach.tail trivial hs', hdb'⟩
  obtain ⟨hreach, hdb⟩ := hrun _ h
  refine ⟨hreach, hdb, hdb.list, fun a s' hs => ?_, fun a c hc => ?_⟩
  · obtain ⟨db', hon, -⟩ := stepOn_of_step hreach hdb hs
    exact ⟨db', hon⟩
  · obtain ⟨db', ans, hon, hagrees, -⟩ := accepted hreach hdb hc
    exact ⟨db', ans, hon, hagrees⟩

/-- A call stores its record under a key, another one finds it there, and an update fails. -/
def keyedRun : List Action :=
  booting ++ [.submit 1 clerk (receipt (some "k")) 1500] ++ List.replicate 6 (.run 1 {}) ++
    [.submit 2 clerk (receipt (some "k")) 2500] ++ List.replicate 4 (.run 2 {}) ++
    List.replicate 4 (.run 1 { repoOk := false }) ++ [.purge 9000]

/-- Where the engine and its table get there. -/
def keyedEnd : State × JobTable :=
  (runFrom (stepOn desk) (init, .empty) keyedRun).getD (init, .empty)

theorem table_follows_keyed : keyedEnd.2.rows.map JobRow.createdAt = [1] ∧
    (keyedEnd.1.active.lookup 0).map Job.status ≠ keyedEnd.2.rows[0]?.map JobRow.status ∧
      keyedEnd.2.Holds keyedEnd.1.repo := by
  have hrun : (checked (stepOn desk) (fun _ _ => true) (init, .empty) keyedRun).isSome = true := by
    decide +kernel
  obtain ⟨x, hx⟩ := Option.isSome_iff_exists.mp hrun
  have hend : keyedEnd = x := by
    rw [keyedEnd, runFrom_of_checked hx]
    rfl
  have hreach : Reach (stepOn desk) (fun _ _ => True) (init, .empty) (keyedEnd.1, keyedEnd.2) := by
    rw [hend]
    exact reach_of_checked (fun _ _ _ => trivial) hx
  exact ⟨by decide +kernel, by decide +kernel, (table_follows hreach).2.1⟩

end KilnPrint
