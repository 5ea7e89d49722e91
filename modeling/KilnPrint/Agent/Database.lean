/-
The agent's job table.

* `JobFilter`, with `effectiveLimit` — what a listing asks for;
* `Database`, with `upsert`, `get`, `list` — the table and the statements on it;
* `list_congr` — **a listing depends only on the rows its filter selects**.

Rows are kept in the order they were first inserted, and an upsert of a known id
replaces the row in place.  `ORDER BY created_at DESC` is a stable sort of the
selected rows.  The columns of a row repeat fields of the record it stores, and
timestamps are compared at the precision they are stored with.
-/
import KilnPrint.Repository

namespace KilnPrint

/-- Times are stored as text with microseconds; a `Time` is in nanoseconds. -/
def ts (t : Time) : ℕ := t / 1000

structure JobFilter where
  clientId : Option String
  printerId : Option PrinterId
  /-- Empty means any status. -/
  statuses : List JobStatus
  since : Option Time
  upto : Option Time
  limit : ℕ
  offset : ℕ

namespace JobFilter

def maxLimit : ℕ := 500

def effectiveLimit (f : JobFilter) : ℕ :=
  if f.limit = 0 then 100 else min f.limit maxLimit

/-- `offset as i64`: a negative `OFFSET` is none. -/
def sqlOffset (f : JobFilter) : ℕ := if f.offset < 2 ^ 63 then f.offset else 0

/-- The `WHERE` clause. -/
def selects (f : JobFilter) (j : Job) : Bool :=
  f.clientId.all (· == j.clientId) && f.printerId.all (some · == j.printerId) &&
    (f.statuses.isEmpty || f.statuses.contains j.status) &&
    f.since.all (ts · ≤ ts j.createdAt) && f.upto.all (ts j.createdAt < ts ·)

end JobFilter

structure Database where
  rows : List Job
  keys : (rows.map (·.jobId)).Nodup

namespace Database

def get (db : Database) (id : JobId) : Option Job := db.rows.find? fun j => j.jobId == id

/-- The rows after `job` was inserted or its row replaced. -/
def upserted (job : Job) : List Job → List Job
  | [] => [job]
  | j :: rest => if j.jobId = job.jobId then job :: rest else j :: upserted job rest

theorem mem_ids_upserted {job : Job} {rows : List Job} {id : JobId}
    (h : id ∈ (upserted job rows).map (·.jobId)) :
    id = job.jobId ∨ id ∈ rows.map (·.jobId) := by
  induction rows with
  | nil => exact .inl (List.mem_singleton.mp h)
  | cons j rest ih =>
    unfold upserted at h
    split at h
    · rcases List.mem_cons.mp h with h | h
      · exact .inl h
      · exact .inr (List.mem_cons_of_mem _ h)
    · rcases List.mem_cons.mp h with h | h
      · exact .inr (List.mem_cons.mpr (.inl h))
      · exact (ih h).imp_right (List.mem_cons_of_mem _)

theorem nodup_upserted {job : Job} {rows : List Job} (h : (rows.map (·.jobId)).Nodup) :
    ((upserted job rows).map (·.jobId)).Nodup := by
  induction rows with
  | nil => exact List.nodup_singleton _
  | cons j rest ih =>
    obtain ⟨hnew, hrest⟩ := List.nodup_cons.mp h
    unfold upserted
    split
    case isTrue heq =>
      have hnew' : job.jobId ∉ rest.map (·.jobId) := by
        rw [← heq]
        exact hnew
      exact List.nodup_cons.mpr ⟨hnew', hrest⟩
    case isFalse hne =>
      refine List.nodup_cons.mpr ⟨?_, ih hrest⟩
      intro hmem
      exact (mem_ids_upserted hmem).elim hne hnew

def upsert (db : Database) (job : Job) : Database :=
  ⟨upserted job db.rows, nodup_upserted db.keys⟩

/-- `Database::list`. -/
def list (db : Database) (f : JobFilter) : List Job :=
  (((db.rows.filter f.selects).mergeSort fun a b => ts b.createdAt ≤ ts a.createdAt).drop
    f.sqlOffset).take f.effectiveLimit

/-- Two tables that select the same rows list the same. -/
theorem list_congr {db db' : Database} {f : JobFilter}
    (h : db.rows.filter f.selects = db'.rows.filter f.selects) : db.list f = db'.list f := by
  rw [list, list, h]

theorem get_upsert (db : Database) (job : Job) (id : JobId) :
    (db.upsert job).get id = if id = job.jobId then some job else db.get id := by
  show (upserted job db.rows).find? _ = if _ then _ else db.rows.find? _
  induction db.rows with
  | nil =>
    by_cases hid : id = job.jobId
    · simp [upserted, hid]
    · simp [upserted, hid, Ne.symm hid]
  | cons j rest ih =>
    unfold upserted
    by_cases hj : j.jobId = job.jobId
    · by_cases hid : id = job.jobId
      · simp [hj, hid]
      · simp [hj, hid, Ne.symm hid]
    · by_cases hid : j.jobId = id
      · have hne : id ≠ job.jobId := fun h => hj (hid.trans h)
        simp [hid, hne]
      · simp only [if_neg hj]
        rw [List.find?_cons_of_neg (by simpa using hid), ih,
          List.find?_cons_of_neg (by simpa using hid)]

/-- The table stores the records of a repository. -/
def Represents (db : Database) (r : JobRepository) : Prop := ∀ id, db.get id = r.get id

/-- **An upsert is the repository's insertion and its update.** -/
theorem Represents.upsert {db : Database} {r : JobRepository} (h : db.Represents r) (job : Job) :
    (db.upsert job).Represents (r.insert job) ∧ (db.upsert job).Represents (r.update job) := by
  have hboth : ∀ id, (db.upsert job).get id = AList.lookup id (AList.insert job.jobId job r) := by
    intro id
    rw [get_upsert, FinMap.lookup_insert_ite]
    split
    · rfl
    · exact h id
  exact ⟨hboth, hboth⟩

/-- A table with the records of a repository whose records carry their ids. -/
def ofRepository (r : JobRepository) (h : ∀ id j, r.lookup id = some j → j.jobId = id) :
    Database :=
  ⟨r.values, FinMap.nodup_map_values h⟩

theorem represents_ofRepository {r : JobRepository}
    (h : ∀ id j, r.lookup id = some j → j.jobId = id) : (ofRepository r h).Represents r := by
  intro id
  have hfound : ∀ j, (ofRepository r h).get id = some j → r.lookup id = some j := by
    intro j hj
    obtain ⟨k, hk⟩ := FinMap.mem_values.mp (List.mem_of_find?_eq_some hj)
    have hbeq := List.find?_some hj
    have hid : j.jobId = id := eq_of_beq hbeq
    rw [h k j hk] at hid
    rw [← hid]
    exact hk
  cases hget : (ofRepository r h).get id with
  | some j => exact (hfound j hget).symm
  | none =>
    cases hj : r.get id with
    | none => rfl
    | some j =>
      have hmem : j ∈ r.values := FinMap.mem_values.mpr ⟨id, hj⟩
      exact absurd (beq_iff_eq.mpr (h id j hj)) (List.find?_eq_none.mp hget j hmem)

end Database

end KilnPrint
