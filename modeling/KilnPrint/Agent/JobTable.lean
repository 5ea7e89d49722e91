/-
The agent's job table, column by column.

A row of `jobs` repeats some fields of its record in columns, keeps times to the microsecond,
and stands in an index that refuses a second row under one idempotency key.  An upsert of a
row that is there leaves some columns as they are.

* `JobRow`, `JobTable` — the rows, and the statement of each call;
* `JobTable.Holds` — the columns tell what the records say, and the records are those of a
  repository;
* `Holds.upsert`, `Holds.purge` — what keeps it: **an upsert is accepted, and leaves no
  column stale, when the record has its row's fixed fields and a key of its own**;
* `Holds.findByIdempotencyKey`, `Holds.nonTerminal`, `Holds.list` — the answers.
-/
import Mathlib.Data.List.Find
import KilnPrint.Agent.Database
import KilnPrint.Engine.Anchors
import KilnPrint.Lib.Table

namespace KilnPrint

/-! ### The table -/

/-- A row of `jobs`.  The columns hold the times as `ts` writes them. -/
structure JobRow where
  jobId : JobId
  clientId : String
  printerId : Option PrinterId
  status : JobStatus
  createdAt : ℕ
  updatedAt : ℕ
  idempotencyKey : Option String
  data : Job
  deriving DecidableEq

/-- The parameters of the upsert. -/
def JobRow.ofJob (job : Job) : JobRow where
  jobId := job.jobId
  clientId := job.clientId
  printerId := job.printerId
  status := job.status
  createdAt := ts job.createdAt
  updatedAt := ts job.updatedAt
  idempotencyKey := job.idempotencyKey
  data := job

/-- `CREATE TABLE jobs` with its index `jobs_idempotency`, and `DO UPDATE SET`. -/
def jobsSchema : Schema JobRow JobId (String × String) where
  key := JobRow.jobId
  unique row := row.idempotencyKey.map (row.clientId, ·)
  merge old row :=
    { old with
      printerId := row.printerId, status := row.status, updatedAt := row.updatedAt,
      data := row.data }
  key_merge _ _ := rfl
  unique_merge _ _ := rfl

abbrev JobTable := Table jobsSchema

namespace JobTable

def upsert (t : JobTable) (job : Job) : Except PrintError JobTable :=
  match Table.upsert t (.ofJob job) with
  | some t' => .ok t'
  | none => .error .internal

def get (t : JobTable) (id : JobId) : Option Job := (t.find id).map JobRow.data

/-- The `WHERE` clause of a listing, on the columns. -/
def selects (f : JobFilter) (row : JobRow) : Bool :=
  f.clientId.all (· == row.clientId) && f.printerId.all (some · == row.printerId) &&
    (f.statuses.isEmpty || f.statuses.contains row.status) &&
    f.since.all (ts · ≤ row.createdAt) && f.upto.all (row.createdAt < ts ·)

def list (t : JobTable) (f : JobFilter) : List Job :=
  ((((t.rows.filter (selects f)).mergeSort fun a b => b.createdAt ≤ a.createdAt).drop
    f.sqlOffset).take f.effectiveLimit).map JobRow.data

def findByIdempotencyKey (t : JobTable) (clientId key : String) : Option Job :=
  ((t.rows.filter fun row =>
    row.clientId == clientId && row.idempotencyKey == some key).map JobRow.data).head?

def terminal : List JobStatus := [.completed, .failed, .cancelled]

def nonTerminal (t : JobTable) : List Job :=
  ((t.rows.filter fun row => !terminal.contains row.status).mergeSort fun a b =>
    a.createdAt ≤ b.createdAt).map JobRow.data

/-- Also counts the rows that go. -/
def purgeTerminalBefore (t : JobTable) (cutoff : Time) : JobTable × ℕ :=
  let t' := t.delete fun row => decide (row.createdAt < ts cutoff) && terminal.contains row.status
  (t', t.rows.length - t'.rows.length)

theorem terminal_contains (status : JobStatus) : terminal.contains status = status.isTerminal := by
  cases status <;> rfl

end JobTable

/-- A cutoff as the table compares it. -/
def wholeMicros (cutoff : Time) : Time := ts cutoff * 1000

/-! ### What the table holds -/

/-- The table holds the records of a repository, and its columns say what they say. -/
structure JobTable.Holds (t : JobTable) (r : JobRepository) : Prop where
  columns : ∀ row ∈ t.rows, row = .ofJob row.data
  records : ∀ id, t.get id = r.get id

namespace JobTable.Holds

variable {t : JobTable} {r : JobRepository} {job : Job} {id : JobId}

theorem empty : JobTable.Holds Table.empty ∅ where
  columns := fun _ h => (by cases h)
  records := fun _ => rfl

/-- A row found is the row of its record. -/
theorem find_eq (h : t.Holds r) (id : JobId) : t.find id = (r.get id).map JobRow.ofJob := by
  have hget : (t.find id).map JobRow.data = r.get id := h.records id
  rw [← hget]
  cases hf : t.find id with
  | none => rfl
  | some row => exact congrArg some (h.columns row (Table.find_eq_some.mp hf).1)

theorem jobId_of_get (h : t.Holds r) (hj : r.get id = some job) : job.jobId = id := by
  have hf := h.find_eq id
  rw [hj] at hf
  exact (Table.find_eq_some.mp hf).2

theorem mem_rows (h : t.Holds r) : JobRow.ofJob job ∈ t.rows ↔ r.get job.jobId = some job := by
  rw [Table.mem_rows_iff]
  show t.find job.jobId = _ ↔ _
  rw [h.find_eq, Option.map_eq_some_iff]
  constructor
  · rintro ⟨j, hj, he⟩
    obtain rfl : j = job := congrArg JobRow.data he
    exact hj
  · exact fun hj => ⟨job, hj, rfl⟩

/-- The rows are those of the records. -/
theorem rows_perm (h : t.Holds r) : t.rows.Perm (r.values.map JobRow.ofJob) := by
  have hids : (r.values.map Job.jobId).Nodup := FinMap.nodup_map_values fun k v hv => h.jobId_of_get hv
  have hnodup : (r.values.map JobRow.ofJob).Nodup :=
    hids.of_map _ |>.map fun a b hab => congrArg JobRow.data hab
  refine Table.rows_perm hnodup fun row => ?_
  show t.find row.jobId = some row ↔ _
  rw [h.find_eq, Option.map_eq_some_iff, List.mem_map]
  constructor
  · rintro ⟨j, hj, he⟩
    exact ⟨j, FinMap.mem_values.mpr ⟨_, hj⟩, he⟩
  · rintro ⟨j, hj, rfl⟩
    obtain ⟨id, hid⟩ := FinMap.mem_values.mp hj
    obtain rfl := h.jobId_of_get hid
    exact ⟨j, hid, rfl⟩

theorem data_perm (h : t.Holds r) : (t.rows.map JobRow.data).Perm r.values := by
  have hp := h.rows_perm.map JobRow.data
  rwa [List.map_map, show JobRow.data ∘ JobRow.ofJob = id from rfl, List.map_id] at hp

/-- **An upsert is accepted** when the record there has the same fixed fields and no other
record has its key. -/
theorem upsert (h : t.Holds r)
    (hfixed : ∀ k, r.get job.jobId = some k → Change.fixed k = Change.fixed job)
    (hkey : ∀ id k, r.get id = some k → job.SameKey k → id = job.jobId) :
    ∃ t', t.upsert job = .ok t' ∧ t'.Holds (r.insert job) := by
  have hindex : ∀ row ∈ t.rows, ∀ i, jobsSchema.unique (.ofJob job) = some i →
      jobsSchema.unique row = some i → jobsSchema.key row = jobsSchema.key (.ofJob job) := by
    intro row hrow i hi hi'
    obtain ⟨key, hk, rfl⟩ := Option.map_eq_some_iff.mp hi
    obtain ⟨key', hk', he⟩ := Option.map_eq_some_iff.mp hi'
    obtain ⟨hclient, rfl⟩ := Prod.mk.inj he
    have hcolumns := h.columns row hrow
    rw [hcolumns] at hrow hk' hclient ⊢
    exact hkey _ _ (h.mem_rows.mp hrow)
      ⟨hclient.symm, hk.trans hk'.symm, Option.isSome_iff_exists.mpr ⟨_, hk⟩⟩
  obtain ⟨t', ht'⟩ := Table.upsert_eq_some hindex
  -- the columns that an update keeps are those of the record's fixed fields
  have hmerge : ∀ k, r.get job.jobId = some k →
      jobsSchema.merge (.ofJob k) (.ofJob job) = .ofJob job := by
    intro k hk
    obtain ⟨hident, hcreated⟩ := Prod.mk.inj (hfixed k hk)
    obtain ⟨hid, hrest⟩ := Prod.mk.inj hident
    obtain ⟨hclient, hidem⟩ := Prod.mk.inj hrest
    show JobRow.mk k.jobId k.clientId _ _ (ts k.createdAt) _ k.idempotencyKey _ = _
    rw [hid, hclient, hidem, hcreated]
    rfl
  have hfind : ∀ id, t'.find id = ((r.insert job).get id).map JobRow.ofJob := by
    intro id
    rw [Table.find_upsert ht', h.find_eq]
    show _ = Option.map JobRow.ofJob (AList.lookup id (AList.insert job.jobId job r))
    rw [FinMap.lookup_insert_ite]
    show (if id = job.jobId then _ else _) = _
    split
    · next hid =>
      subst hid
      cases hk : r.get job.jobId with
      | none => rfl
      | some k => exact congrArg some (hmerge k hk)
    · rfl
  refine ⟨t', by rw [JobTable.upsert, ht'], fun row hrow => ?_, fun id => ?_⟩
  · have hf := hfind row.jobId
    rw [show t'.find row.jobId = some row from Table.mem_rows_iff.mp hrow] at hf
    obtain ⟨j, -, rfl⟩ := Option.map_eq_some_iff.mp hf.symm
    rfl
  · rw [JobTable.get, hfind, Option.map_map]
    exact congrFun Option.map_id _

/-- **A purge removes the same records**, and counts as many. -/
theorem purge (h : t.Holds r) (cutoff : Time) :
    (t.purgeTerminalBefore cutoff).1.Holds (r.purgeTerminalBefore (wholeMicros cutoff)) := by
  have hcut : ∀ c : ℕ, c < wholeMicros cutoff ↔ ts c < ts cutoff := by
    intro c
    show c < cutoff / 1000 * 1000 ↔ c / 1000 < cutoff / 1000
    omega
  refine ⟨fun row hrow => h.columns row (List.mem_of_mem_filter hrow), fun id => ?_⟩
  show ((t.delete _).find id).map JobRow.data = AList.lookup id (FinMap.filter r _)
  rw [Table.find_delete, FinMap.lookup_filter, h.find_eq]
  show _ = Option.filter _ (r.get id)
  cases r.get id with
  | none => rfl
  | some j =>
    have hkeep : (!(decide (ts j.createdAt < ts cutoff) && JobTable.terminal.contains j.status)) =
        !(j.status.isTerminal && decide (j.createdAt < wholeMicros cutoff)) := by
      rw [JobTable.terminal_contains, Bool.and_comm, decide_eq_decide.mpr (hcut j.createdAt)]
    rw [Option.filter_some, ← hkeep, Option.map_some, Option.filter_some]
    show (if (!(decide (ts j.createdAt < ts cutoff) && JobTable.terminal.contains j.status)) = true
      then some (JobRow.ofJob j) else none : Option JobRow).map _ = _
    split <;> rfl

/-! ### Answers -/

theorem findByIdempotencyKey (h : t.Holds r)
    (hunique : ∀ i j a b, r.get i = some a → r.get j = some b → a.SameKey b → i = j)
    (clientId key : String) :
    t.findByIdempotencyKey clientId key = r.findByIdempotencyKey clientId key := by
  unfold JobTable.findByIdempotencyKey JobRepository.findByIdempotencyKey
  rw [List.head?_map, List.head?_filter]
  cases hr : r.values.find? fun j => j.clientId == clientId && j.idempotencyKey == some key with
  | none =>
    rw [Option.map_eq_none_iff, List.find?_eq_none]
    intro row hrow
    have hcolumns := h.columns row hrow
    rw [hcolumns] at hrow ⊢
    exact List.find?_eq_none.mp hr _ (FinMap.mem_values.mpr ⟨_, h.mem_rows.mp hrow⟩)
  | some j =>
    obtain ⟨id, hid⟩ := FinMap.mem_values.mp (List.mem_of_find?_eq_some hr)
    obtain rfl := h.jobId_of_get hid
    have hj := List.find?_some hr
    cases hrow : t.rows.find? fun row => row.clientId == clientId && row.idempotencyKey == some key with
    | none => exact absurd hj (List.find?_eq_none.mp hrow _ (h.mem_rows.mpr hid))
    | some row =>
      have hmem := List.mem_of_find?_eq_some hrow
      have hp := List.find?_some hrow
      have hcolumns := h.columns row hmem
      rw [hcolumns] at hmem hp
      have hk := h.mem_rows.mp hmem
      simp only [Bool.and_eq_true, beq_iff_eq] at hj hp
      have hsame : row.data.SameKey j :=
        ⟨hp.1.trans hj.1.symm, hp.2.trans hj.2.symm, Option.isSome_iff_exists.mpr ⟨_, hp.2⟩⟩
      -- the index holds one row for the key
      have hids := hunique _ _ _ _ hk hid hsame
      rw [hids] at hk
      exact hk.symm.trans hid

theorem nonTerminal (h : t.Holds r) : t.nonTerminal.Perm r.nonTerminal := by
  refine ((List.mergeSort_perm _ _).map _).trans ?_
  have hfilter : (t.rows.filter fun row => !JobTable.terminal.contains row.status).map JobRow.data =
      (t.rows.map JobRow.data).filter fun j => !j.status.isTerminal := by
    rw [List.filter_map]
    refine congrArg (List.map JobRow.data) (List.filter_congr fun row hrow => ?_)
    rw [JobTable.terminal_contains, h.columns row hrow]
    rfl
  rw [hfilter]
  exact h.data_perm.filter _

/-- **A listing is that of a table without columns.** -/
theorem list (h : t.Holds r) :
    ∃ db : Database, db.Represents r ∧ ∀ f, t.list f = db.list f := by
  have hkeys : ((t.rows.map JobRow.data).map Job.jobId).Nodup := by
    rw [List.map_map]
    have hmap : t.rows.map (Job.jobId ∘ JobRow.data) = t.rows.map JobRow.jobId :=
      List.map_congr_left fun row hrow => by
        rw [h.columns row hrow]
        rfl
    rw [hmap]
    exact t.keys
  refine ⟨⟨t.rows.map JobRow.data, hkeys⟩, fun id => ?_, fun f => ?_⟩
  · rw [← h.records id, Database.get, List.find?_map, JobTable.get, Table.find]
    refine congrArg (Option.map JobRow.data) (List.find?_congr fun row hrow => ?_)
    rw [h.columns row hrow]
    rfl
  · have hselect : ((t.rows.map JobRow.data).filter f.selects) =
        (t.rows.filter (JobTable.selects f)).map JobRow.data := by
      rw [List.filter_map]
      refine congrArg (List.map JobRow.data) (List.filter_congr fun row hrow => ?_)
      rw [h.columns row hrow]
      rfl
    rw [Database.list, hselect, ← List.map_mergeSort, ← List.map_drop, ← List.map_take]
    · rfl
    · intro a ha b hb
      rw [h.columns a (List.mem_of_mem_filter ha), h.columns b (List.mem_of_mem_filter hb)]
      rfl

end JobTable.Holds

end KilnPrint
