/-
The job repository.

The interface the engine uses, with the behaviour of the repository's own
implementations: a map from job ids to records.

* `insert`, `update`, `get`, `findByIdempotencyKey`, `nonTerminal`,
  `purgeTerminalBefore`.

Whether an individual call fails is decided by the step that makes it
(`Input.repoOk`): a failing call changes nothing and reports
`PrintError.internal`.
-/
import KilnPrint.Lib.FinMap
import KilnPrint.Model.Job

namespace KilnPrint

abbrev JobRepository := FinMap JobId Job

namespace JobRepository

def insert (r : JobRepository) (job : Job) : JobRepository := AList.insert job.jobId job r

def update (r : JobRepository) (job : Job) : JobRepository := AList.insert job.jobId job r

def get (r : JobRepository) (id : JobId) : Option Job := r.lookup id

def findByIdempotencyKey (r : JobRepository) (clientId key : String) : Option Job :=
  r.values.find? fun j => j.clientId == clientId && j.idempotencyKey == some key

def nonTerminal (r : JobRepository) : List Job :=
  r.values.filter fun j => !j.status.isTerminal

def purgeTerminalBefore (r : JobRepository) (cutoff : Time) : JobRepository :=
  r.filter fun j => !(j.status.isTerminal && j.createdAt < cutoff)

end JobRepository

end KilnPrint
