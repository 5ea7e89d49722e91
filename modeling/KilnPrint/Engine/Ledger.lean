/-
The ledger: what happens to a job, without the tasks.

The engine's tasks pass each job from hand to hand.  The ledger forgets the
tasks' code and keeps, for each job id,

* the active record and the stored record,
* who is responsible for it, as a `Stage`: how far its custodian has got.

Its steps are the moves a custodian may make:

* `Stage.allows` — what each stage knows about the active record;
* `Stage.Hands` — which change a custodian may apply, and the stage it is in
  afterwards;
* `Foreign` — the changes applied by a task that is not the custodian
  (cancellation and shutdown);
* `Ledger.Step` — one move;
* `Ledger.Inv` and `Inv.step` — **the invariant of every run**.

The refinement module shows that every step of the engine is such a move.
Crashes are moves too: they clear the active records and all custody.
-/
import KilnPrint.Engine.State
import KilnPrint.Engine.Record
import KilnPrint.Engine.Restart
import KilnPrint.Lib.Custody

namespace KilnPrint

/-! ### Stages -/

/-- How far a job's custodian has got. -/
inductive Stage
  /-- A submit call built the record; nothing is shared yet. -/
  | draft (job : Job)
  /-- The record is stored and not yet active. -/
  | stored (job : Job)
  | received
  | validating
  /-- A printer is assigned. -/
  | assigned
  /-- The submit call is about to record a failure. -/
  | refused
  /-- Marked `QUEUED`: on its way into a channel, in it, or just taken from it. -/
  | queued
  /-- Found to be no longer active while it was being queued. -/
  | gone
  | claimed
  /-- A blocking call holds the payload; `invoked` once `provider.submit` was entered. -/
  | calling (invoked : Bool)
  /-- The watchdog expired while the call goes on. -/
  | expired (invoked : Bool)
  | spooled (spoolerJobId : ℕ)
  /-- Read from the repository after a restart, not yet active. -/
  | unloaded (job : Job)
  | loaded (job : Job)

namespace Stage

/-- What each stage knows about the active record, if there is one. -/
def allows : Stage → Job → Prop
  | draft _, _ | stored _, _ | gone, _ | expired _, _ | unloaded _, _ => False
  | received, j => j.status = .received ∧ j.delivery = .requestAccepted
  | validating, j => j.status = .validating ∧ j.delivery = .requestAccepted
  | assigned, j => j.status = .validating ∧ j.delivery = .requestAccepted ∧
      j.printerId.isSome = true
  | refused, j => j.delivery = .requestAccepted
  | queued, j => j.status = .queued ∧ j.delivery = .requestAccepted
  | claimed, j | calling _, j => j.status = .queued ∧ j.delivery = .submitting
  | spooled spoolerJobId, j =>
      j.delivery = .spoolerAccepted ∧ j.spoolerJobId = some spoolerJobId
  | loaded job, j => j = job

/-- No worker has claimed the job. -/
def unclaimed : Stage → Bool
  | claimed | calling _ | expired _ | spooled _ | unloaded _ | loaded _ => false
  | _ => true

/-- A worker has claimed the job and not let go of it. -/
def held : Stage → Bool
  | claimed | calling _ | expired _ => true
  | _ => false

/-- `provider.submit` has not been entered for the job. -/
def uninvoked : Stage → Bool
  | calling true | expired true | spooled _ | unloaded _ | loaded _ => false
  | _ => true

/-- Stages that carry a record, which only their own moves lead into. -/
def carries : Stage → Bool
  | draft _ | stored _ | unloaded _ | loaded _ => true
  | _ => false

/-- The record is stored and open, and its custodian is about to add it to the
active map. -/
def unshared : Stage → Bool
  | stored _ | unloaded _ => true
  | _ => false

theorem unshared_of_carries {σ : Stage} (h : σ.carries = false) : σ.unshared = false := by
  cases σ <;> first | rfl | cases h

theorem uninvoked_of_unclaimed {σ : Stage} (h : σ.unclaimed = true) : σ.uninvoked = true := by
  cases σ <;> first | rfl | simp [unclaimed] at h

/-- Who applies the changes of a stage. -/
def origin : Stage → Origin
  | queued | claimed | calling _ | expired _ => .worker
  | spooled _ => .monitor
  | unloaded _ | loaded _ => .restart
  | _ => .submit

end Stage

theorem Stage.unshared_of_worker {σ : Stage} (h : σ.origin = .worker) : σ.unshared = false := by
  cases σ <;> first | rfl | cases h

/-- The changes a monitor applies. -/
def Change.Observed : Change → Prop
  | pending | printing | blocked _ | complete _ | fail _ | cancelDeleted | cancelObserved => True
  | _ => False

/-- Which change a custodian applies in a stage, and the stage it is in
afterwards: none when it gives the job up. -/
inductive Stage.Hands : Stage → Change → Option Stage → Prop
  | validate : Hands .received .validating (some .validating)
  | assign (id : PrinterId) (name : String) :
      Hands .validating (.assignPrinter id name) (some .assigned)
  | queue (warnings : List String) (language : Option String) :
      Hands .assigned (.queue warnings language) (some .queued)
  | refuse (e : PrintError) : Hands .refused (.fail e) none
  | claim : Hands .queued .claim (some .claimed)
  | giveUp (e : PrintError) : Hands .claimed (.fail e) none
  | expire (b : Bool) (e : PrintError) : Hands (.calling b) (.fail e) (some (.expired b))
  | failed (b : Bool) (e : PrintError) : Hands (.calling b) (.fail e) none
  | delivered (b : Bool) : Hands (.calling b) .delivered none
  | spooled (b : Bool) (spoolerJobId : ℕ) :
      Hands (.calling b) (.spooled spoolerJobId) (some (.spooled spoolerJobId))
  | observe (spoolerJobId : ℕ) {ch : Change} (h : ch.Observed) :
      Hands (.spooled spoolerJobId) ch (some (.spooled spoolerJobId))
  | finish (spoolerJobId : ℕ) {ch : Change} (h : ch.Observed) :
      Hands (.spooled spoolerJobId) ch none
  | close {job : Job} {printer : Option Printer} {ch : Change}
      (h : reconciled job printer = .close ch) : Hands (.loaded job) ch none

/-- The changes applied by a task that is not the custodian. -/
inductive Foreign : Origin → Change → Prop
  | cancelQueued : Foreign .cancel .cancelQueued
  | cancelSpooled : Foreign .cancel .cancelSpooled
  | shutdown : Foreign .shutdown (.fail shutdownError)

/-! ### The ledger -/

@[ext] structure Ledger where
  active : JobId → Option Job
  stored : JobId → Option Job
  custody : JobId → Option Stage
  /-- The next job id. -/
  next : JobId
  /-- Reconciliation has read the repository. -/
  loaded : Bool
  log : List Entry

/-- The clock readings and the repository's answer in one step. -/
structure Reading where
  now : Time
  stamp : Time
  repoOk : Bool

/-- The entry that a change of the record `j` leaves in the log. -/
def Change.entry (ch : Change) (origin : Origin) (r : Reading) (id : JobId) (j : Job) : Entry :=
  .applied origin id ch ((ch.mutated r.now r.stamp j).event.map fun kind =>
    { kind := kind, job := (ch.mutated r.now r.stamp j).job })

/-- A record as a new submit call builds it. -/
def Job.Fresh (j : Job) : Prop :=
  j.Sound ∧ j.status = .received ∧ j.delivery = .requestAccepted

namespace Ledger

/-- Applies a change to the active record `j` of `id`. -/
def change (l : Ledger) (origin : Origin) (r : Reading) (id : JobId) (ch : Change) (j : Job) :
    Ledger :=
  let m := ch.mutated r.now r.stamp j
  { l with
    active := Function.update l.active id (if m.job.status.isTerminal then none else some m.job)
    stored :=
      if (ch.apply r.now j).1 ≠ j ∧ r.repoOk then
        Function.update l.stored m.job.jobId (some m.job)
      else l.stored
    log := l.log ++
      [.applied origin id ch (m.event.map fun kind => { kind := kind, job := m.job })] }

/-- Hands `id` over to a stage, or gives it up. -/
def hand (l : Ledger) (id : JobId) (σ : Option Stage) : Ledger :=
  { l with custody := Function.update l.custody id σ }

def note (l : Ledger) (e : Entry) : Ledger := { l with log := l.log ++ [e] }

/-- The open records among the stored ones. -/
def openRecord (l : Ledger) (id : JobId) : Option Job :=
  (l.stored id).filter fun j => !j.status.isTerminal

end Ledger

/-- Entries about a spooler or a channel, which do not concern the records. -/
def Entry.Aside : Entry → Prop
  | sent .. | returned .. | deleted _ => True
  | _ => False

inductive Move
  | quiet
  | note (e : Entry)
  | draw (job : Job)
  | forget (id : JobId)
  | store (job : Job)
  | announce (job : Job)
  | relabel (id : JobId) (σ : Stage)
  | own (r : Reading) (id : JobId) (ch : Change)
  | foreign (origin : Origin) (r : Reading) (id : JobId) (ch : Change)
  | invoke (id : JobId) (printer : PrinterId)
  | orphan (ids : List JobId)
  | load
  | reopen (job : Job)
  | purge (cutoff : Time)
  | crash

/-- One move of the ledger. -/
inductive Ledger.Step (l : Ledger) : Move → Ledger → Prop
  | quiet : Step l .quiet l
  | note {e : Entry} (he : e.Aside) : Step l (.note e) (l.note e)
  | draw {job : Job} (hl : l.loaded = true) (hid : job.jobId = l.next) (hfresh : job.Fresh) :
      Step l (.draw job) { l.hand l.next (some (.draft job)) with next := l.next + 1 }
  | forget {id : JobId} {σ : Stage} (hc : l.custody id = some σ) (hσ : σ.unshared = false)
      (hj : ∀ j, l.active id = some j → j.delivery ≠ .requestAccepted) :
      Step l (.forget id) (l.hand id none)
  | store {job : Job} (hc : l.custody job.jobId = some (.draft job)) :
      Step l (.store job)
        { l.hand job.jobId (some (.stored job)) with
          stored := Function.update l.stored job.jobId (some job) }
  | announce {job : Job} (hc : l.custody job.jobId = some (.stored job)) :
      Step l (.announce job)
        ({ l.hand job.jobId (some .received) with
          active := Function.update l.active job.jobId (some job) }.note (.created job))
  | relabel {id : JobId} {σ σ' : Stage} (hc : l.custody id = some σ) (hσ : σ.unshared = false)
      (hclaim : σ'.unclaimed = true → σ.unclaimed = true)
      (hinv : σ'.uninvoked = true → σ.uninvoked = true)
      (hheld : σ'.held = true → σ.held = true) (hcarry : σ'.carries = false)
      (hj : ∀ j, l.active id = some j → j.Sound → σ.allows j → σ'.allows j) :
      Step l (.relabel id σ') (l.hand id (some σ'))
  | own {id : JobId} {σ : Stage} {σ' : Option Stage} {ch : Change} {j : Job} (r : Reading)
      (hc : l.custody id = some σ) (hh : σ.Hands ch σ') (hj : l.active id = some j) :
      Step l (.own r id ch) ((l.change σ.origin r id ch j).hand id σ')
  | foreign {origin : Origin} {id : JobId} {ch : Change} {j : Job} (r : Reading)
      (hf : Foreign origin ch) (hj : l.active id = some j) :
      Step l (.foreign origin r id ch) (l.change origin r id ch j)
  | invokeCalling {id : JobId} (printer : PrinterId)
      (hc : l.custody id = some (.calling false)) :
      Step l (.invoke id printer) ((l.hand id (some (.calling true))).note (.invoked id printer))
  | invokeExpired {id : JobId} (printer : PrinterId)
      (hc : l.custody id = some (.expired false)) :
      Step l (.invoke id printer) ((l.hand id (some (.expired true))).note (.invoked id printer))
  | orphan (ids : List JobId)
      (hσ : ∀ id ∈ ids, ∀ σ, l.custody id = some σ → σ.unshared = false) :
      Step l (.orphan ids)
        { l with custody := fun id => if id ∈ ids then none else l.custody id }
  | load (hl : l.loaded = false) (hc : ∀ id, l.custody id = none) (ha : ∀ id, l.active id = none) :
      Step l .load { l with custody := fun id => (l.openRecord id).map .unloaded, loaded := true }
  | reopen {job : Job} (hc : l.custody job.jobId = some (.unloaded job)) :
      Step l (.reopen job)
        { l.hand job.jobId (some (.loaded job)) with
          active := Function.update l.active job.jobId (some job) }
  | purge (cutoff : Time) :
      Step l (.purge cutoff)
        { l with stored := fun id =>
            (l.stored id).filter fun j => !(j.status.isTerminal && j.createdAt < cutoff) }
  | crash :
      Step l .crash
        { l.note .crashed with active := fun _ => none, custody := fun _ => none, loaded := false }

/-! ### What the log says about a job -/

/-- The job whose record or submission an entry is about. -/
def Entry.recordId : Entry → Option JobId
  | applied _ id _ _ | invoked id _ => some id
  | created job => some job.jobId
  | _ => none

def Entry.isInvoked (id : JobId) : Entry → Bool
  | invoked id' _ => id' == id
  | _ => false

def Entry.isClaim (id : JobId) : Entry → Bool
  | applied _ id' ch _ => id' == id && ch == .claim
  | _ => false

namespace Ledger

/-- How often `provider.submit` was entered for `id`. -/
def invocations (l : Ledger) (id : JobId) : ℕ := l.log.countP (Entry.isInvoked id)

def Claimed (l : Ledger) (id : JobId) : Prop := ∃ e ∈ l.log, e.isClaim id = true

/-- What the stage of `id` says about the rest of the ledger. -/
structure Fits (l : Ledger) (id : JobId) (σ : Stage) : Prop where
  allows : ∀ j, l.active id = some j → σ.allows j
  unclaimed : σ.unclaimed = true → ¬ l.Claimed id
  uninvoked : σ.uninvoked = true → l.invocations id = 0
  draft : ∀ job, σ = .draft job → job.jobId = id ∧ job.Fresh ∧ l.stored id = none
  stored : ∀ job, σ = .stored job → job.jobId = id ∧ job.Fresh
  unloaded : ∀ job, σ = .unloaded job →
    job.jobId = id ∧ l.stored id = some job ∧ job.status.isTerminal = false
  loaded : ∀ job, σ = .loaded job → job.jobId = id

/-- **The invariant of the ledger.** -/
structure Inv (l : Ledger) : Prop where
  activeId : ∀ id j, l.active id = some j → j.jobId = id ∧ id < l.next
  storedId : ∀ id j, l.stored id = some j → j.jobId = id ∧ id < l.next
  custodyLt : ∀ id σ, l.custody id = some σ → id < l.next
  logLt : ∀ e ∈ l.log, ∀ id, e.recordId = some id → id < l.next
  active : ∀ id j, l.active id = some j → j.Sound ∧ j.status.isTerminal = false
  stored : ∀ id j, l.stored id = some j → j.Sound
  fits : ∀ id σ, l.custody id = some σ → l.Fits id σ
  once : ∀ id, l.invocations id ≤ 1

end Ledger

end KilnPrint
