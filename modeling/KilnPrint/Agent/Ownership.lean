/-
What a caller learns of other clients' jobs: nothing.

A caller without `jobs.read.all` gets the same answers from two agents that
agree on its own jobs.

* `Jobs.Reachable` — the job state of some run of the engine;
* `SameOwn` — two job states agree on a client's own jobs;
* `seen_job` — a job is looked up among the caller's own;
* `own_jobs_only` — **the statement for the operations on jobs**.
-/
import KilnPrint.Agent.EventStream
import KilnPrint.Agent.Service
import KilnPrint.Engine.Owners

namespace KilnPrint

open Runs Backend

/-! ### Own jobs -/

/-- The job is the caller's own. -/
def Principal.owns (who : Principal) (job : Job) : Bool := job.clientId == who.clientId

/-- The active map and the table in some state of some run. -/
def Jobs.Reachable (jobs : Jobs) : Prop :=
  ∃ env s, Reach (step env) (fun _ _ => True) init s ∧ jobs.active = s.active ∧
    jobs.stored.Represents s.repo

/-- The caller's own records, active and stored. -/
def ownActive (who : Principal) (jobs : Jobs) (id : JobId) : Option Job :=
  (jobs.active.lookup id).filter who.owns

def ownRows (who : Principal) (jobs : Jobs) : List Job := jobs.stored.rows.filter who.owns

/-- Two job states agree on the caller's own jobs. -/
structure SameOwn (who : Principal) (jobs jobs' : Jobs) : Prop where
  active : ∀ id, ownActive who jobs id = ownActive who jobs' id
  stored : ownRows who jobs = ownRows who jobs'

/-- The id is of one of the caller's jobs. -/
def OwnId (who : Principal) (jobs : Jobs) (id : JobId) : Prop :=
  (ownActive who jobs id).isSome = true ∨ ∃ job ∈ ownRows who jobs, job.jobId = id

/-! ### Lookups -/

/-- Ids are unique in the table, so filtering commutes with looking up. -/
theorem filter_get (db : Database) (p : Job → Bool) (id : JobId) :
    (db.get id).filter p = (db.rows.filter p).find? fun j => j.jobId == id := by
  have hkeys := db.keys
  unfold Database.get
  generalize db.rows = rows at hkeys ⊢
  induction rows with
  | nil => rfl
  | cons j rest ih =>
    obtain ⟨hnew, hrest⟩ := List.nodup_cons.mp hkeys
    by_cases hid : j.jobId = id
    · subst hid
      have hnone : (rest.filter p).find? (fun k => k.jobId == j.jobId) = none := by
        refine List.find?_eq_none.mpr ?_
        intro k hk heq
        refine hnew (List.mem_map.mpr ⟨k, (List.mem_filter.mp hk).1, ?_⟩)
        exact eq_of_beq heq
      cases hp : p j with
      | true => simp [hp]
      | false => simp [hp, hnone]
    · have hne : (j.jobId == id) = false := beq_eq_false_iff_ne.mpr hid
      rw [List.find?_cons_of_neg (by simpa using hid), ih hrest]
      cases hp : p j with
      | true => rw [List.filter_cons_of_pos hp, List.find?_cons_of_neg (by simpa using hid)]
      | false => rw [List.filter_cons_of_neg (by simpa using hp)]

/-- What a caller without `jobs.read.all` sees: its own job of this id, if it may
read jobs at all. -/
def ownSeen (b : Backend) (who : Principal) (jobs : Jobs) (id : JobId) : Option Job :=
  if who.has .jobsRead then
    (ownActive who jobs id).or
      (if b.databaseOk then (ownRows who jobs).find? fun j => j.jobId == id else none)
  else none

theorem canSee_of_lacks {who : Principal} (hwho : who.has .jobsReadAll = false) (job : Job) :
    Service.canSee who job = (who.has .jobsRead && who.owns job) := by
  rw [Service.canSee, hwho, Bool.false_or]
  rfl

/-- **A lookup finds one of the caller's own jobs**, or answers as for a missing
one: the other copy of another client's job is that client's too. -/
theorem seen_job {b : Backend} {who : Principal} (hwho : who.has .jobsReadAll = false)
    {jobs : Jobs} (h : jobs.Reachable) (id : JobId) :
    Service.seen who id (b.job jobs id) =
      (match ownSeen b who jobs id with
        | some job => .ok job
        | none => .error (.jobNotFound id)) := by
  obtain ⟨env, s, hreach, hactive, hstored⟩ := h
  have hsame : ∀ j k, jobs.active.lookup id = some j → jobs.stored.get id = some k →
      who.owns k = who.owns j := by
    intro j k hj hk
    rw [hactive] at hj
    rw [hstored id] at hk
    rw [Principal.owns, Principal.owns, owner_of_reach hreach hj hk]
  unfold ownSeen
  cases hread : who.has .jobsRead with
  | false =>
    -- without `jobs.read` nothing is seen
    have hnone : ∀ job, Service.canSee who job = false := by
      intro job
      rw [canSee_of_lacks hwho, hread, Bool.false_and]
    cases b.job jobs id with
    | error e => rfl
    | ok job => simp [Service.seen, hnone job]
  | true =>
    have hsee : ∀ job, Service.canSee who job = who.owns job := by
      intro job
      rw [canSee_of_lacks hwho, hread, Bool.true_and]
    have hget := filter_get jobs.stored who.owns id
    unfold Backend.job ownActive ownRows
    rw [← hget]
    cases hj : jobs.active.lookup id with
    | some j =>
      cases hown : who.owns j with
      | true => simp [Service.seen, hsee, Option.filter_some, hown]
      | false =>
        cases hk : jobs.stored.get id with
        | none => simp [Service.seen, hsee, Option.filter_some, hown]
        | some k => simp [Service.seen, hsee, Option.filter_some, hown, hsame j k hj hk]
    | none =>
      cases b.databaseOk with
      | false => simp [Service.seen]
      | true =>
        cases hk : jobs.stored.get id with
        | none => simp [Service.seen]
        | some k => cases hown : who.owns k <;> simp [Service.seen, hsee, Option.filter_some, hown]

theorem ownSeen_congr {b : Backend} {who : Principal} {jobs jobs' : Jobs}
    (h : SameOwn who jobs jobs') (id : JobId) : ownSeen b who jobs id = ownSeen b who jobs' id := by
  rw [ownSeen, ownSeen, h.active, h.stored]

theorem ownSeen_eq_none {b : Backend} {who : Principal} {jobs : Jobs} {id : JobId}
    (h : ¬ OwnId who jobs id) : ownSeen b who jobs id = none := by
  obtain ⟨hactive, hstored⟩ := not_or.mp h
  have hnone : ownActive who jobs id = none := Option.not_isSome_iff_eq_none.mp hactive
  have hfind : (ownRows who jobs).find? (fun j => j.jobId == id) = none := by
    refine List.find?_eq_none.mpr ?_
    intro j hj heq
    exact hstored ⟨j, hj, eq_of_beq heq⟩
  rw [ownSeen, hnone, hfind]
  split
  · split <;> rfl
  · rfl

theorem SameOwn.ownId {who : Principal} {jobs jobs' : Jobs} (h : SameOwn who jobs jobs')
    {id : JobId} (hid : ¬ OwnId who jobs id) : ¬ OwnId who jobs' id := by
  rw [OwnId, ← h.active, ← h.stored]
  exact hid

/-! ### Listings -/

/-- A listing of one client's jobs depends on its own rows only. -/
theorem list_own {who : Principal} {jobs jobs' : Jobs} (h : SameOwn who jobs jobs')
    {f : JobFilter} (hf : f.clientId = some who.clientId) :
    jobs.stored.list f = jobs'.stored.list f := by
  have hselects : ∀ rows : List Job, rows.filter f.selects =
      (rows.filter who.owns).filter f.selects := by
    intro rows
    rw [List.filter_filter]
    refine List.filter_congr ?_
    intro j _
    cases hj : f.selects j with
    | false => rfl
    | true =>
      have hown : who.owns j = true := by
        simp only [JobFilter.selects, hf, Option.all_some, Bool.and_eq_true] at hj
        exact beq_iff_eq.mpr (eq_of_beq hj.1.1.1.1).symm
      rw [hown, Bool.true_and]
  refine Database.list_congr ?_
  rw [hselects, hselects jobs'.stored.rows]
  exact congrArg _ h.stored

theorem listJobs_eq {b : Backend} {who : Principal} (hwho : who.has .jobsReadAll = false)
    (params : JobsListParams) (a : Agent) :
    Service.listJobs b who params a =
      ((if who.has .jobsRead then
          match params.status.parse with
          | .ok statuses => b.listed a.jobs (Service.jobFilter who params statuses)
          | .error e => .error e
        else .error (Principal.lacks .jobsRead)), a) := by
  unfold Service.listJobs
  cases hread : who.has .jobsRead with
  | false =>
    simp only [hwho, Service.require, Principal.require_of_lacks hread]
    rfl
  | true =>
    cases params.status.parse with
    | ok statuses => rfl
    | error e => rfl

theorem listJobs_congr {b : Backend} {who : Principal} (hwho : who.has .jobsReadAll = false)
    {a a' : Agent} (h : SameOwn who a.jobs a'.jobs) (params : JobsListParams) :
    (Service.listJobs b who params a).1 = (Service.listJobs b who params a').1 := by
  have hlisted : ∀ statuses, b.listed a.jobs (Service.jobFilter who params statuses) =
      b.listed a'.jobs (Service.jobFilter who params statuses) := by
    intro statuses
    rw [listed, listed, list_own h]
    show (if who.has .jobsReadAll then params.clientId else some who.clientId) = _
    rw [hwho]
    rfl
  rw [listJobs_eq hwho, listJobs_eq hwho]
  simp only [hlisted]

/-! ### The operations on jobs -/

theorem cancelJob_refused {b : Backend} {who : Principal} (hwho : who.has .jobsReadAll = false)
    {a : Agent} (h : a.jobs.Reachable) {id : JobId} (hid : ¬ OwnId who a.jobs id) :
    Service.cancelJob b who id a = (.error (.jobNotFound id), a) := by
  have hget : Service.getJob b who id a = (.error (.jobNotFound id), a) := by
    show (Service.seen who id (b.job a.jobs id), a) = _
    rw [seen_job hwho h, ownSeen_eq_none hid]
  exact Fallible.bind_of_error hget

/-- **Job noninterference**: a caller without `jobs.read.all` gets the same answers
from two agents that agree on its own jobs, whatever it asks for; it is refused the
cancellation of a job that is not its own as if the job did not exist; and it is sent
no event of another client's job. -/
theorem own_jobs_only (b : Backend) (who : Principal) (hwho : who.has .jobsReadAll = false)
    {a a' : Agent} (ha : a.jobs.Reachable) (ha' : a'.jobs.Reachable)
    (h : SameOwn who a.jobs a'.jobs) :
    (∀ params, (Service.listJobs b who params a).1 = (Service.listJobs b who params a').1) ∧
    (∀ id, (Service.getJob b who id a).1 = (Service.getJob b who id a').1) ∧
    (∀ id, ¬ OwnId who a.jobs id →
      Service.cancelJob b who id a = (.error (.jobNotFound id), a) ∧
      Service.cancelJob b who id a' = (.error (.jobNotFound id), a')) ∧
    ∀ kind job, job.clientId ≠ who.clientId →
      EventStream.visibleEvent who (.job kind job) = none := by
  refine ⟨listJobs_congr hwho h, ?_, ?_, ?_⟩
  · intro id
    show Service.seen who id (b.job a.jobs id) = Service.seen who id (b.job a'.jobs id)
    rw [seen_job hwho ha, seen_job hwho ha', ownSeen_congr h]
  · intro id hid
    exact ⟨cancelJob_refused hwho ha hid, cancelJob_refused hwho ha' (h.ownId hid)⟩
  · intro kind job hjob
    have hother : (job.clientId == who.clientId) = false := beq_eq_false_iff_ne.mpr hjob
    simp only [EventStream.visibleEvent, hwho, hother, Bool.and_false, Bool.or_self]
    rfl

/-! ### A guest at the desk -/

theorem storedId_of_reach {env : Env} {ok : State → Action → Prop} {s : State}
    (h : Reach (step env) ok init s) (id : JobId) (j : Job) (hj : s.repo.lookup id = some j) :
    j.jobId = id :=
  ((wf_of_reach h).inv.storedId id j hj).1

/-- The job state of a run of the engine with one printer. -/
def jobsAfter (run : List Action) (h : Reach (step desk) (fun _ _ => True) init (after run)) :
    Jobs where
  active := (after run).active
  stored := .ofRepository (after run).repo (storedId_of_reach h)

theorem reachable_jobsAfter {run : List Action}
    (h : Reach (step desk) (fun _ _ => True) init (after run)) : (jobsAfter run h).Reachable :=
  ⟨desk, after run, h, rfl, Database.represents_ofRepository (storedId_of_reach h)⟩

/-- The caller has no job among those of one client. -/
theorem sameOwn_none {who : Principal} {jobs jobs' : Jobs}
    (h : ∀ j ∈ jobs.active.values ++ jobs.stored.rows, who.owns j = false)
    (h' : ∀ j ∈ jobs'.active.values ++ jobs'.stored.rows, who.owns j = false) :
    SameOwn who jobs jobs' := by
  have hactive : ∀ (js : Jobs) id, (∀ j ∈ js.active.values ++ js.stored.rows, who.owns j = false) →
      ownActive who js id = none := by
    intro js id hjs
    refine Option.filter_eq_none_iff.mpr ?_
    intro j hj
    rw [hjs j (List.mem_append_left _ (FinMap.mem_values.mpr ⟨id, hj⟩))]
    exact Bool.false_ne_true
  have hrows : ∀ js : Jobs, (∀ j ∈ js.active.values ++ js.stored.rows, who.owns j = false) →
      ownRows who js = [] := by
    intro js hjs
    refine List.filter_eq_nil_iff.mpr ?_
    intro j hj
    rw [hjs j (List.mem_append_right _ hj)]
    exact Bool.false_ne_true
  refine ⟨?_, ?_⟩
  · intro id
    rw [hactive jobs id h, hactive jobs' id h']
  · rw [hrows jobs h, hrows jobs' h']

/-- Decoders that know no type. -/
def noSerde : Serde where
  printer _ := .error "unknown"
  generic _ := .error "unknown"
  raw _ := .error "unknown"
  text _ := .error "unknown"
  html _ := .error "unknown"
  pdf _ := .error "unknown"
  image _ := .error "unknown"
  label _ := .error "unknown"
  receipt _ := .error "unknown"
  dotMatrix _ := .error "unknown"
  jobsList _ := .error "unknown"
  jobId _ := .error "unknown"
  base64 _ := .error "unknown"
  hex _ := .error "unknown"
  uuid _ := none

/-- An agent with an idle backend. -/
def deskBackend : Backend where
  env := desk
  serde := noSerde
  now := 0
  discoveryMinGap := 5
  databaseOk := true
  maxDocumentBytes := 1000
  adminOrigins := []
  clients := []
  sessions := []
  discovered := []
  providerCapabilities _ := .error .internal
  providerQueue _ := .ok []
  resolveSource _ := .error .internal
  submit _ _ jobs := (.error .internal, jobs)
  cancel id jobs := (.error (.jobNotFound id), jobs)

def guest : Principal where
  clientId := "guest"
  permissions := [.jobsRead, .jobsCancelAll]
  printers := ["desk"]

theorem inOrder_nil : InOrder [] := List.Pairwise.nil

def noPrinters : PrinterCache where
  byId := []
  inOrder := inOrder_nil
  lastRefresh := none

theorem reach_booting : Reach (step desk) (fun _ _ => True) init (after booting) :=
  reach_after _ booting (by decide +kernel)

theorem reach_submitting :
    Reach (step desk) (fun _ _ => True) init (after (booting ++ submitting 1 2)) :=
  reach_after _ _ (by decide +kernel)

/-- The agent before and after another client's job. -/
def quietAgent : Agent := { cache := noPrinters, jobs := jobsAfter _ reach_booting }

def busyAgent : Agent := { cache := noPrinters, jobs := jobsAfter _ reach_submitting }

theorem own_jobs_only_guest :
    (busyAgent.jobs.active.lookup 0).isSome = true ∧
    (∀ params, (Service.listJobs deskBackend guest params quietAgent).1 =
      (Service.listJobs deskBackend guest params busyAgent).1) ∧
    (∀ id, (Service.getJob deskBackend guest id quietAgent).1 =
      (Service.getJob deskBackend guest id busyAgent).1) := by
  have hsame : SameOwn guest quietAgent.jobs busyAgent.jobs :=
    sameOwn_none (by decide +kernel) (by decide +kernel)
  obtain ⟨hlist, hget, -⟩ := own_jobs_only deskBackend guest (by decide)
    (reachable_jobsAfter reach_booting) (reachable_jobsAfter reach_submitting) hsame
  exact ⟨by decide +kernel, hlist, hget⟩

end KilnPrint
