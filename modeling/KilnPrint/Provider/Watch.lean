/-
The state of a Windows spooler job, and what the watchers remember of it.

* `jobState`, `resolveJobState` — the mapping of the spooler's flags;
* `JobWatchers` — the watchers of the printers: what each has seen of a job id;
* `watchStep` — **spooler, watchers and polls**: each lock section a step of its own, the
  spooler free to give an id again once its job has left the queue;
* `Unmixed` — no verdict on an earlier job meets a later one with its id;
* `Faithful`, `Faithful.step` — **the invariant**: a verdict in the record of an id is one
  on the job that holds the id;
* `job_state_own` — **the statement for the provider**;
* `job_state_mixed` — a job is reported as printed for what an earlier one has shown.
-/
import KilnPrint.Engine.Task
import KilnPrint.Lib.FinMap
import KilnPrint.Lib.Runs

namespace KilnPrint

namespace Watch

/-! ### The spooler's flags -/

/-- `JOB_STATUS_*` bits. -/
abbrev Flags := BitVec 32

/-- A spooler job id. -/
abbrev SpoolerId := BitVec 32

def paused : Flags := 0x1
def error : Flags := 0x2
def deleting : Flags := 0x4
def printing : Flags := 0x10
def offline : Flags := 0x20
def paperout : Flags := 0x40
def printed : Flags := 0x80
def deleted : Flags := 0x100
def blockedDevq : Flags := 0x200
def userIntervention : Flags := 0x400
def complete : Flags := 0x1000

/-- A job's status bits and text. -/
abbrev JobInfo := Flags × Option String

/-- A provider job state, with the message of a blocked one. -/
structure Reported where
  state : ProviderJobState
  message : Option String := none
  deriving DecidableEq

/-- Maps `JOB_INFO_1W.Status` to a provider job state. -/
def jobState (flags : Flags) (statusText : Option String) : Reported :=
  let isPrinted := flags &&& (printed ||| complete) != 0
  if flags &&& (deleting ||| deleted) != 0 then
    if isPrinted then ⟨.printed, none⟩ else ⟨.cancelled, none⟩
  else if isPrinted then ⟨.printed, none⟩
  else if flags &&& paperout != 0 then ⟨.blocked .paperOut, statusText⟩
  else if flags &&& offline != 0 then ⟨.blocked .printerOffline, statusText⟩
  else if flags &&& (error ||| userIntervention ||| blockedDevq) != 0 then
    ⟨.blocked .spoolerError, statusText⟩
  else if flags &&& paused != 0 then ⟨.blocked .printerBusy, statusText⟩
  else if flags &&& printing != 0 then ⟨.printing, none⟩
  else ⟨.pending, none⟩

/-- Combines the job's current status (if it is still queued) with every status bit the
watcher observed during its life. -/
def resolveJobState (current : Option JobInfo) (observed : Flags) : Reported :=
  let printedBits := observed &&& (printed ||| complete)
  match current with
  | some (flags, text) => jobState (flags ||| printedBits) text
  | none =>
    if printedBits != 0 then ⟨.printed, none⟩
    else if observed &&& (deleting ||| deleted) != 0 then ⟨.cancelled, none⟩
    else ⟨.gone, none⟩

/-- The bits that decide what became of a job. -/
def verdict : Flags := printed ||| complete ||| deleting ||| deleted

/-- The first set of bits is part of the second. -/
def Within (b c : Flags) : Prop := ∀ i, b.getLsbD i = true → c.getLsbD i = true

theorem Within.refl (b : Flags) : Within b b := fun _ h => h

theorem Within.trans {b c d : Flags} (h : Within b c) (h' : Within c d) : Within b d :=
  fun i hi => h' i (h i hi)

theorem Within.or_left (b c : Flags) : Within b (b ||| c) := by
  intro i hi
  simp [hi]

theorem Within.or_right (b c : Flags) : Within c (b ||| c) := by
  intro i hi
  simp [hi]

theorem Within.or {b c d : Flags} (hb : Within b d) (hc : Within c d) : Within (b ||| c) d := by
  intro i hi
  rw [BitVec.getLsbD_or, Bool.or_eq_true] at hi
  exact hi.elim (hb i) (hc i)

theorem Within.and_left (b c : Flags) : Within (b &&& c) b := by
  intro i hi
  rw [BitVec.getLsbD_and, Bool.and_eq_true] at hi
  exact hi.1

/-- Bits that are part of none are none. -/
theorem Within.and_eq_zero {b c m : Flags} (h : Within b c) (hc : c &&& m = 0) : b &&& m = 0 := by
  apply BitVec.eq_of_getLsbD_eq
  intro i hi
  have hzero : (c &&& m).getLsbD i = false := by rw [hc]; simp
  rw [BitVec.getLsbD_and, Bool.and_eq_false_iff] at hzero
  rw [BitVec.getLsbD_and]
  rcases hzero with hzero | hzero
  · have hb : b.getLsbD i = false := by
      by_contra hset
      have hset : b.getLsbD i = true := by simpa using hset
      rw [h i hset] at hzero
      cases hzero
    simp [hb]
  · simp [hzero]

/-- Only the verdict of what was observed matters. -/
theorem resolveJobState_verdict (current : Option JobInfo) (observed : Flags) :
    resolveJobState current (observed &&& verdict) = resolveJobState current observed := by
  have hprinted : observed &&& verdict &&& (printed ||| complete) =
      observed &&& (printed ||| complete) := by
    rw [BitVec.and_assoc]
    rfl
  have hdeleted : observed &&& verdict &&& (deleting ||| deleted) =
      observed &&& (deleting ||| deleted) := by
    rw [BitVec.and_assoc]
    rfl
  simp only [resolveJobState, hprinted, hdeleted]

/-- **A job is printed only where a bit says so.** -/
theorem printed_of_resolve {current : Option JobInfo} {observed shown : Flags}
    (hcurrent : ∀ info ∈ current, Within info.1 shown) (hobserved : Within observed shown)
    (h : (resolveJobState current observed).state = .printed) :
    shown &&& (printed ||| complete) ≠ 0 := by
  intro hnone
  have hbits : observed &&& (printed ||| complete) = 0 := hobserved.and_eq_zero hnone
  cases current with
  | none =>
    simp only [resolveJobState, hbits] at h
    split at h
    · next hne => simp at hne
    · split at h <;> cases h
  | some info =>
    obtain ⟨flags, text⟩ := info
    have hflags : flags &&& (printed ||| complete) = 0 :=
      (hcurrent _ rfl : Within flags shown).and_eq_zero hnone
    have hzero : flags ||| (0 : Flags) = flags := BitVec.or_zero
    simp only [resolveJobState, hbits, hzero, jobState, hflags, bne_self_eq_false] at h
    repeat' split at h
    all_goals contradiction

/-! ### The watchers -/

/-- In milliseconds. -/
def idleExit : ℕ := 120000

def maxTracked : ℕ := 10000

/-- What a watcher thread and the provider share, and the thread. -/
structure Shared where
  /-- The printer the thread watches. -/
  printer : String
  /-- Accumulated status bits per spooler job id. -/
  history : FinMap SpoolerId Flags := ∅
  lastUsed : Option ℕ := none
  stopped : Bool := false
  /-- The thread runs. -/
  running : Bool := true

/-- Idle once the engine has not asked about this printer for a while. -/
def Shared.idle (shared : Shared) (now : ℕ) : Bool :=
  shared.lastUsed.all fun last => idleExit < now - last

/-- One entry of a `PRINTER_NOTIFY_INFO`. -/
structure Notification where
  /-- The job it is about. -/
  job : ℕ
  /-- It is about a job, and the field is its status. -/
  isStatus : Bool
  id : SpoolerId
  data : Flags

def Shared.add (shared : Shared) (e : Notification) : Shared :=
  { shared with
    history := shared.history.insert e.id ((shared.history.lookup e.id).getD 0 ||| e.data) }

/-- A job of the spooler, Kiln's or any application's. -/
structure SpoolerJob where
  printer : String
  id : SpoolerId
  /-- `none` once it has left the queue. -/
  current : Option JobInfo
  /-- Every bit it has shown. -/
  shown : Flags
  /-- The bits of it that reached a watcher. -/
  reported : Flags

def SpoolerJob.add (job : SpoolerJob) (e : Notification) : SpoolerJob :=
  { job with reported := job.reported ||| e.data }

/-- The points of a call of `job_state`. -/
inductive PollPhase
  /-- `jobs::current` has answered. -/
  | asked (current : Option JobInfo)
  | resolved (result : Reported)
  | returned (result : Reported)

/-- A call of `job_state` for a job. -/
structure Poll where
  job : ℕ
  /-- The job's own status when the spooler was asked. -/
  own : Option JobInfo
  phase : PollPhase

structure WatchState where
  jobs : FinMap ℕ SpoolerJob := ∅
  /-- The job each id of a printer was last given to. -/
  holder : FinMap (String × SpoolerId) ℕ := ∅
  /-- `JobWatchers::printers`. -/
  printers : FinMap String ℕ := ∅
  shared : FinMap ℕ Shared := ∅
  polls : FinMap ℕ Poll := ∅

namespace WatchState

/-- The watcher that the provider finds for a printer. -/
def watcher (s : WatchState) (printer : String) : Option Shared :=
  (s.printers.lookup printer).bind fun w => s.shared.lookup w

def setShared (s : WatchState) (w : ℕ) (shared : Shared) : WatchState :=
  { s with shared := s.shared.insert w shared }

def touch (s : WatchState) (printer : String) (now : ℕ) : WatchState :=
  match s.printers.lookup printer with
  | none => s
  | some w =>
    match s.shared.lookup w with
    | none => s
    | some shared => s.setShared w { shared with lastUsed := some now }

/-- `JobWatchers::ensure`: a watcher that has not stopped stays, else a new one is
entered and its thread is started, where the system allows one. -/
def ensure (s : WatchState) (printer : String) (now fresh : ℕ) (spawned : Bool) : WatchState :=
  match (s.watcher printer).filter fun shared => !shared.stopped with
  | some _ => s.touch printer now
  | none =>
    { s with printers := s.printers.insert printer fresh }.setShared fresh
      { printer := printer, lastUsed := some now, running := spawned }

/-- `JobWatchers::observed`, without its touch. -/
def observed (s : WatchState) (printer : String) (id : SpoolerId) : Flags :=
  ((s.watcher printer).bind fun shared => shared.history.lookup id).getD 0

def forget (s : WatchState) (printer : String) (id : SpoolerId) : WatchState :=
  match s.printers.lookup printer with
  | none => s
  | some w =>
    match s.shared.lookup w with
    | none => s
    | some shared => s.setShared w { shared with history := shared.history.erase id }

/-- `jobs::current`: what the spooler says of an id. -/
def current (s : WatchState) (printer : String) (id : SpoolerId) : Option JobInfo :=
  (s.holder.lookup (printer, id)).bind fun n => (s.jobs.lookup n).bind (·.current)

/-- No job in the queue has the id. -/
def free (s : WatchState) (printer : String) (id : SpoolerId) : Bool :=
  s.jobs.values.all fun job => job.printer ≠ printer || job.id ≠ id || job.current.isNone

/-- The id of the job was given to no later one. -/
def Holds (s : WatchState) (n : ℕ) : Prop :=
  ∀ job ∈ s.jobs.lookup n, s.holder.lookup (job.printer, job.id) = some n

instance (s : WatchState) (n : ℕ) : Decidable (s.Holds n) :=
  inferInstanceAs (Decidable (∀ job ∈ s.jobs.lookup n, _))

/-- The spooler reports what a job of the printer has shown. -/
def genuine (s : WatchState) (printer : String) (e : Notification) : Bool :=
  (s.jobs.lookup e.job).any fun job =>
    job.printer == printer && job.id == e.id && (!e.isStatus || e.data ||| job.shown == job.shown)

/-- The watcher takes in one entry. -/
def record (w : ℕ) (s : WatchState) (e : Notification) : WatchState :=
  match e.isStatus, s.shared.lookup w, s.jobs.lookup e.job with
  | true, some shared, some job =>
    { s with
      shared := s.shared.insert w (shared.add e)
      jobs := s.jobs.insert e.job (job.add e) }
  | _, _, _ => s

/-- A full record is cleared. -/
def makeRoom (w : ℕ) (s : WatchState) : WatchState :=
  match s.shared.lookup w with
  | some shared =>
    if maxTracked < shared.history.entries.length then s.setShared w { shared with history := ∅ }
    else s
  | none => s

end WatchState

/-- Whether a state is the last a job is asked for. -/
def Reported.final (r : Reported) : Bool := r.state ∈ [.printed, .cancelled, .gone]

inductive WatchAction
  /-- A new job gets an id. -/
  | assign (n : ℕ) (printer : String) (id : SpoolerId) (info : JobInfo)
  /-- The status of a queued job changes. -/
  | change (n : ℕ) (info : JobInfo)
  /-- A job leaves the queue. -/
  | leave (n : ℕ)
  /-- `ensure`, by a submission. -/
  | ensure (printer : String) (now fresh : ℕ) (spawned : Bool)
  /-- A watcher takes in a batch of notifications. -/
  | take (w : ℕ) (entries : List Notification)
  /-- A watcher ends: it is idle, or could not subscribe. -/
  | finish (w : ℕ) (now : ℕ) (failed : Bool)
  /-- `job_state` for a job, up to the spooler's answer. -/
  | ask (k n : ℕ)
  | observe (k now : ℕ)
  | forget (k : ℕ)

open WatchState in
/-- **One step** of the spooler, a watcher or a call of `job_state`. -/
def watchStep (s : WatchState) : WatchAction → Option WatchState
  -- the spooler gives an identifier once no job in its queue has it
  | .assign n printer id info =>
    if (s.jobs.lookup n).isNone && s.free printer id then
      some { s with
        jobs := s.jobs.insert n ⟨printer, id, some info, info.1, 0⟩
        holder := s.holder.insert (printer, id) n }
    else none
  | .change n info =>
    match s.jobs.lookup n with
    | some ⟨printer, id, some _, shown, reported⟩ =>
      some { s with jobs := s.jobs.insert n ⟨printer, id, some info, shown ||| info.1, reported⟩ }
    | _ => none
  -- the job leaves the queue; its identifier is free again
  | .leave n =>
    (s.jobs.lookup n).map fun job => { s with jobs := s.jobs.insert n { job with current := none } }
  | .ensure printer now fresh spawned =>
    if (s.shared.lookup fresh).isNone then some (s.ensure printer now fresh spawned) else none
  -- the thread of a watcher takes a notification into the history
  | .take w entries =>
    match s.shared.lookup w with
    | some shared =>
      if shared.running && entries.all (s.genuine shared.printer) then
        some (entries.foldl (record w) (makeRoom w s))
      else none
    | none => none
  -- it ends when the notifications fail, or nobody has asked for a while
  | .finish w now failed =>
    match s.shared.lookup w with
    | some shared =>
      if shared.running && (failed || shared.idle now) then
        some (s.setShared w { shared with stopped := true, running := false })
      else none
    | none => none
  -- `job_state`, in three lock sections: the spooler, the history, and what is final
  | .ask k n =>
    match s.jobs.lookup n with
    | some job =>
      if (s.polls.lookup k).isNone then
        some { s with polls := s.polls.insert k ⟨n, job.current, .asked (s.current job.printer job.id)⟩ }
      else none
    | none => none
  | .observe k now =>
    match s.polls.lookup k with
    | some ⟨n, own, .asked current⟩ =>
      (s.jobs.lookup n).map fun job =>
        let result := resolveJobState current (s.observed job.printer job.id)
        let phase := if result.final then PollPhase.resolved result else .returned result
        { s.touch job.printer now with polls := s.polls.insert k ⟨n, own, phase⟩ }
    | _ => none
  | .forget k =>
    match s.polls.lookup k with
    | some ⟨n, own, .resolved result⟩ =>
      (s.jobs.lookup n).map fun job =>
        { s.forget job.printer job.id with polls := s.polls.insert k ⟨n, own, .returned result⟩ }
    | _ => none

/-- **No verdict on an earlier job meets a later one with its id**: when an id is given to
a new job its record holds none, a watcher takes in none on a job whose id has been given
to a later one, and no such job is asked for. -/
def Unmixed (s : WatchState) : WatchAction → Prop
  | .assign _ printer id _ => s.observed printer id &&& verdict = 0
  | .take _ entries => ∀ e ∈ entries, e.isStatus = true → e.data &&& verdict ≠ 0 → s.Holds e.job
  | .ask _ n => s.Holds n
  | .observe k _ => ∀ poll ∈ s.polls.lookup k, s.Holds poll.job
  | _ => True

instance (s : WatchState) (a : WatchAction) : Decidable (Unmixed s a) :=
  match a with
  | .assign _ printer id _ => inferInstanceAs (Decidable (s.observed printer id &&& verdict = 0))
  | .take _ entries => inferInstanceAs (Decidable (∀ e ∈ entries, _))
  | .ask _ n => inferInstanceAs (Decidable (s.Holds n))
  | .observe k _ => inferInstanceAs (Decidable (∀ poll ∈ s.polls.lookup k, _))
  | .change .. | .leave _ | .ensure .. | .finish .. | .forget _ => .isTrue trivial

/-! ### The invariant -/

variable {s s' : WatchState} {a : WatchAction} {n w : ℕ} {printer : String} {id : SpoolerId}

/-- The bits that were reported of the job that holds an id. -/
def WatchState.reportedFor (s : WatchState) (printer : String) (id : SpoolerId) : Flags :=
  (((s.holder.lookup (printer, id)).bind fun n => s.jobs.lookup n).map (·.reported)).getD 0

/-- What a job has shown, and what was reported of it, only grows. -/
structure SpoolerJob.Grows (job job' : SpoolerJob) : Prop where
  printer : job'.printer = job.printer
  id : job'.id = job.id
  shown : Within job.shown job'.shown
  reported : Within job.reported job'.reported

theorem SpoolerJob.Grows.refl (job : SpoolerJob) : job.Grows job := ⟨rfl, rfl, .refl _, .refl _⟩

structure SpoolerJob.Sound (job : SpoolerJob) : Prop where
  current : ∀ info ∈ job.current, Within info.1 job.shown
  reported : Within job.reported job.shown

/-- **What a poll has found is its own job's**: the job's status when the spooler was
asked, and a state that follows from it and from bits reported of that job. -/
def Poll.Own (poll : Poll) (job : SpoolerJob) : Prop :=
  (∀ info ∈ poll.own, Within info.1 job.shown) ∧
    match poll.phase with
    | .asked current => current = poll.own
    | .resolved result | .returned result =>
      ∃ bits, Within bits job.reported ∧ result = resolveJobState poll.own bits

theorem Poll.Own.mono {poll : Poll} {job job' : SpoolerJob} (h : poll.Own job)
    (hgrows : job.Grows job') : poll.Own job' := by
  obtain ⟨job₀, own, phase⟩ := poll
  refine ⟨fun info hinfo => (h.1 info hinfo).trans hgrows.shown, ?_⟩
  cases phase with
  | asked current => exact h.2
  | resolved result | returned result =>
    obtain ⟨bits, hbits, hresult⟩ := h.2
    exact ⟨bits, hbits.trans hgrows.reported, hresult⟩

/-- A verdict in the record of an id is one on the job that holds the id. -/
structure Faithful (s : WatchState) : Prop where
  sound : ∀ n job, s.jobs.lookup n = some job → job.Sound
  holder : ∀ printer id n, s.holder.lookup (printer, id) = some n →
    ∃ job, s.jobs.lookup n = some job ∧ job.printer = printer ∧ job.id = id
  watched : ∀ printer w, s.printers.lookup printer = some w →
    ∃ shared, s.shared.lookup w = some shared ∧ shared.printer = printer
  history : ∀ printer w shared, s.printers.lookup printer = some w →
    s.shared.lookup w = some shared → ∀ id bits, shared.history.lookup id = some bits →
      Within (bits &&& verdict) (s.reportedFor printer id)
  polls : ∀ k poll, s.polls.lookup k = some poll →
    ∃ job, s.jobs.lookup poll.job = some job ∧ poll.Own job

namespace Faithful

theorem started : Faithful {} := by
  constructor <;> intros <;> contradiction

/-- A record that loses entries. -/
theorem setShared {shared shared' : Shared} (h : Faithful s) (hold : s.shared.lookup w = some shared)
    (hprinter : shared'.printer = shared.printer)
    (hhistory : ∀ id bits, shared'.history.lookup id = some bits →
      shared.history.lookup id = some bits) : Faithful (s.setShared w shared') := by
  refine ⟨h.sound, h.holder, ?_, ?_, h.polls⟩
  · intro printer v hv
    obtain ⟨found, hfound, heq⟩ := h.watched printer v hv
    show ∃ shared, (s.shared.insert w shared').lookup v = some shared ∧ _
    rw [FinMap.lookup_insert_ite]
    split
    · next hvw =>
      subst hvw
      obtain rfl := Option.some.inj (hold.symm.trans hfound)
      exact ⟨shared', rfl, hprinter.trans heq⟩
    · exact ⟨found, hfound, heq⟩
  · intro printer v found hv hfound id bits hbits
    have hnew : (s.shared.insert w shared').lookup v = some found := hfound
    rw [FinMap.lookup_insert_ite] at hnew
    split at hnew
    · next hvw =>
      subst hvw
      obtain rfl := Option.some.inj hnew
      exact h.history printer v shared hv hold id bits (hhistory id bits hbits)
    · exact h.history printer v found hv hnew id bits hbits

theorem touch (h : Faithful s) (printer : String) (now : ℕ) : Faithful (s.touch printer now) := by
  unfold WatchState.touch
  split
  · exact h
  · split
    · exact h
    · next hold => exact h.setShared hold rfl fun _ _ hbits => hbits

theorem makeRoom (h : Faithful s) (w : ℕ) : Faithful (WatchState.makeRoom w s) := by
  unfold WatchState.makeRoom
  split
  · next hold =>
    split
    · exact h.setShared hold rfl fun _ _ hbits => by cases hbits
    · exact h
  · exact h

theorem forget (h : Faithful s) (printer : String) (id : SpoolerId) :
    Faithful (s.forget printer id) := by
  unfold WatchState.forget
  split
  · exact h
  · split
    · exact h
    · next shared hold =>
      refine h.setShared hold rfl ?_
      intro id' bits hbits
      have hleft : (shared.history.erase id).lookup id' = some bits := hbits
      rw [FinMap.lookup_erase_ite] at hleft
      split at hleft
      · cases hleft
      · exact hleft

theorem setPoll (h : Faithful s) {k : ℕ} {poll : Poll} {job : SpoolerJob}
    (hjob : s.jobs.lookup poll.job = some job) (hown : poll.Own job) :
    Faithful { s with polls := s.polls.insert k poll } := by
  refine ⟨h.sound, h.holder, h.watched, h.history, ?_⟩
  intro k' poll' hpoll
  have hpoll : (s.polls.insert k poll).lookup k' = some poll' := hpoll
  rw [FinMap.lookup_insert_ite] at hpoll
  split at hpoll
  · obtain rfl := Option.some.inj hpoll
    exact ⟨job, hjob, hown⟩
  · exact h.polls k' poll' hpoll

/-- What was reported of the job that holds an id only grows. -/
theorem reportedFor_setJob {job job' : SpoolerJob} (hold : s.jobs.lookup n = some job)
    (hgrows : job.Grows job') (printer : String) (id : SpoolerId) :
    Within (s.reportedFor printer id)
      (WatchState.reportedFor { s with jobs := s.jobs.insert n job' } printer id) := by
  unfold WatchState.reportedFor
  cases s.holder.lookup (printer, id) with
  | none => exact .refl _
  | some m =>
    show Within (((s.jobs.lookup m).map (·.reported)).getD 0)
      ((((s.jobs.insert n job').lookup m).map (·.reported)).getD 0)
    rw [FinMap.lookup_insert_ite]
    split
    · next heq =>
      rw [heq, hold]
      exact hgrows.reported
    · exact .refl _

theorem setJob (h : Faithful s) {job job' : SpoolerJob} (hold : s.jobs.lookup n = some job)
    (hgrows : job.Grows job') (hsound : job'.Sound) :
    Faithful { s with jobs := s.jobs.insert n job' } := by
  have hlookup : ∀ m found, s.jobs.lookup m = some found →
      ∃ found', (s.jobs.insert n job').lookup m = some found' ∧ found.Grows found' := by
    intro m found hfound
    rw [FinMap.lookup_insert_ite]
    split
    · next heq =>
      rw [heq, hold] at hfound
      obtain rfl := Option.some.inj hfound
      exact ⟨job', rfl, hgrows⟩
    · exact ⟨found, hfound, .refl _⟩
  refine ⟨?_, ?_, h.watched, ?_, ?_⟩
  · intro m found hfound
    have hfound : (s.jobs.insert n job').lookup m = some found := hfound
    rw [FinMap.lookup_insert_ite] at hfound
    split at hfound
    · obtain rfl := Option.some.inj hfound
      exact hsound
    · exact h.sound m found hfound
  · intro printer id m hm
    obtain ⟨found, hfound, hp, hid⟩ := h.holder printer id m hm
    obtain ⟨found', hfound', hgrows'⟩ := hlookup m found hfound
    exact ⟨found', hfound', hgrows'.printer.trans hp, hgrows'.id.trans hid⟩
  · intro printer w shared hw hshared id bits hbits
    exact (h.history printer w shared hw hshared id bits hbits).trans
      (reportedFor_setJob hold hgrows printer id)
  · intro k poll hpoll
    obtain ⟨found, hfound, hown⟩ := h.polls k poll hpoll
    obtain ⟨found', hfound', hgrows'⟩ := hlookup poll.job found hfound
    exact ⟨found', hfound', hown.mono hgrows'⟩

/-- What the spooler says of an entry, and that a verdict is on the job that holds the id. -/
structure Admitted (s : WatchState) (printer : String) (e : Notification) : Prop where
  genuine : ∃ job, s.jobs.lookup e.job = some job ∧ job.printer = printer ∧ job.id = e.id ∧
    (e.isStatus = true → Within e.data job.shown)
  holds : e.isStatus = true → e.data &&& verdict ≠ 0 →
    s.holder.lookup (printer, e.id) = some e.job

theorem admitted {e : Notification} (hgenuine : s.genuine printer e = true)
    (hholds : e.isStatus = true → e.data &&& verdict ≠ 0 → s.Holds e.job) :
    Admitted s printer e := by
  obtain ⟨job, hjob, hfacts⟩ := (Option.any_eq_true ..).mp hgenuine
  simp only [Bool.and_eq_true, Bool.or_eq_true, beq_iff_eq, Bool.not_eq_true'] at hfacts
  obtain ⟨⟨rfl, hid⟩, hdata⟩ := hfacts
  refine ⟨⟨job, hjob, rfl, hid, ?_⟩, ?_⟩
  · intro hstatus i hi
    rcases hdata with hdata | hdata
    · rw [hdata] at hstatus
      cases hstatus
    · rw [← hdata]
      simp [hi]
  · intro hstatus hverdict
    rw [← hid]
    exact hholds hstatus hverdict job hjob

theorem record (h : Faithful s) {shared : Shared} {e : Notification}
    (hshared : s.shared.lookup w = some shared) (he : Admitted s shared.printer e) :
    Faithful (WatchState.record w s e) := by
  obtain ⟨job, hjob, hprinter, hid, hdata⟩ := he.genuine
  unfold WatchState.record
  rw [hshared, hjob]
  cases hstatus : e.isStatus with
  | false => exact h
  | true =>
    have hgrows : job.Grows (job.add e) :=
      ⟨rfl, rfl, .refl _, .or_left _ _⟩
    have hsound := h.sound e.job job hjob
    have hjobs := h.setJob hjob hgrows ⟨hsound.current, hsound.reported.or (hdata hstatus)⟩
    refine ⟨hjobs.sound, hjobs.holder, ?_, ?_, hjobs.polls⟩
    · intro p v hv
      obtain ⟨found, hfound, heq⟩ := h.watched p v hv
      show ∃ shared, AList.lookup v (s.shared.insert w _) = some shared ∧ _
      rw [FinMap.lookup_insert_ite]
      split
      · next hvw =>
        rw [hvw, hshared] at hfound
        obtain rfl := Option.some.inj hfound
        exact ⟨_, rfl, heq⟩
      · exact ⟨found, hfound, heq⟩
    · intro p v found hv hfound id bits hbits
      have hnew : (s.shared.insert w (shared.add e)).lookup v = some found := hfound
      rw [FinMap.lookup_insert_ite] at hnew
      split at hnew
      · next hvw =>
        obtain rfl := Option.some.inj hnew
        have hlookup : (shared.history.insert e.id
          ((shared.history.lookup e.id).getD 0 ||| e.data)).lookup id = some bits := hbits
        rw [FinMap.lookup_insert_ite] at hlookup
        have hv' : s.printers.lookup p = some w := hvw ▸ hv
        split at hlookup
        · next hsame =>
          subst hsame
          obtain rfl := Option.some.inj hlookup
          have hp : shared.printer = p := by
            obtain ⟨found, hfound, heq⟩ := h.watched p w hv'
            rw [hshared] at hfound
            exact (Option.some.inj hfound) ▸ heq
          -- what was in the record before
          have hbefore : Within ((shared.history.lookup e.id).getD 0 &&& verdict)
              (WatchState.reportedFor { s with jobs := s.jobs.insert e.job (job.add e) }
                p e.id) := by
            cases hentry : shared.history.lookup e.id with
            | none =>
              intro i hi
              simp at hi
            | some bits => exact hjobs.history p w shared hv' hshared e.id bits hentry
          -- what is added to it
          have hadded : Within (e.data &&& verdict)
              (WatchState.reportedFor { s with jobs := s.jobs.insert e.job (job.add e) }
                p e.id) := by
            by_cases hzero : e.data &&& verdict = 0
            · rw [hzero]
              intro i hi
              simp at hi
            · have hholder : s.holder.lookup (p, e.id) = some e.job :=
                hp ▸ he.holds hstatus hzero
              have hfor : WatchState.reportedFor { s with jobs := s.jobs.insert e.job (job.add e) }
                  p e.id = job.reported ||| e.data := by
                simp [WatchState.reportedFor, hholder, SpoolerJob.add]
              rw [hfor]
              exact (Within.and_left _ _).trans (.or_right _ _)
          intro i hi
          rw [BitVec.getLsbD_and, BitVec.getLsbD_or, Bool.and_eq_true, Bool.or_eq_true] at hi
          rcases hi with ⟨hold | hadd, hverdict⟩
          · exact hbefore i (by rw [BitVec.getLsbD_and, hold, hverdict]; rfl)
          · exact hadded i (by rw [BitVec.getLsbD_and, hadd, hverdict]; rfl)
        · exact hjobs.history p w shared hv' hshared id bits hlookup
      · exact hjobs.history p v found hv hnew id bits hbits

/-- Taking in an entry leaves what the others say as it was. -/
theorem admitted_record {e : Notification} (e' : Notification) {shared : Shared}
    (hshared : s.shared.lookup w = some shared) (he : Admitted s printer e) :
    Admitted (WatchState.record w s e') printer e ∧
      ∃ shared', (WatchState.record w s e').shared.lookup w = some shared' ∧
        shared'.printer = shared.printer := by
  unfold WatchState.record
  split
  · next found job hstatus hfound hjob =>
    rw [hshared] at hfound
    obtain rfl := Option.some.inj hfound
    refine ⟨⟨?_, he.holds⟩, ?_⟩
    · obtain ⟨job₀, hjob₀, hprinter, hid, hdata⟩ := he.genuine
      show ∃ job', (s.jobs.insert e'.job (job.add e')).lookup e.job = some job' ∧ _
      rw [FinMap.lookup_insert_ite]
      split
      · next heq =>
        rw [heq, hjob] at hjob₀
        obtain rfl := Option.some.inj hjob₀
        exact ⟨_, rfl, hprinter, hid, hdata⟩
      · exact ⟨job₀, hjob₀, hprinter, hid, hdata⟩
    · refine ⟨shared.add e', ?_, rfl⟩
      show (s.shared.insert w (shared.add e')).lookup w = _
      rw [FinMap.lookup_insert_ite, if_pos rfl]
  · exact ⟨he, shared, hshared, rfl⟩

theorem records (entries : List Notification) :
    ∀ {s : WatchState} {shared : Shared}, Faithful s → s.shared.lookup w = some shared →
      (∀ e ∈ entries, Admitted s shared.printer e) →
        Faithful (entries.foldl (WatchState.record w) s) := by
  induction entries with
  | nil => exact fun h _ _ => h
  | cons e rest ih =>
    intro s shared h hshared hadmitted
    have he := hadmitted e List.mem_cons_self
    obtain ⟨shared', hshared', hprinter⟩ := (admitted_record e hshared he).2
    refine ih (h.record hshared he) hshared' ?_
    intro e' he'
    rw [hprinter]
    exact (admitted_record e hshared (hadmitted e' (List.mem_cons_of_mem _ he'))).1

theorem take {shared : Shared} {entries : List Notification} (h : Faithful s)
    (hshared : s.shared.lookup w = some shared)
    (hadmitted : ∀ e ∈ entries, Admitted s shared.printer e) :
    Faithful (entries.foldl (WatchState.record w) (WatchState.makeRoom w s)) := by
  have hroom : ∃ shared', (WatchState.makeRoom w s).shared.lookup w = some shared' ∧
      shared'.printer = shared.printer := by
    unfold WatchState.makeRoom
    rw [hshared]
    dsimp only
    split
    · refine ⟨{ shared with history := ∅ }, ?_, rfl⟩
      show (s.shared.insert w _).lookup w = _
      rw [FinMap.lookup_insert_ite, if_pos rfl]
    · exact ⟨shared, hshared, rfl⟩
  obtain ⟨shared', hshared', hprinter⟩ := hroom
  refine records entries (h.makeRoom w) hshared' ?_
  intro e he
  obtain ⟨hgenuine, hholds⟩ := hadmitted e he
  rw [hprinter]
  have hsame : (WatchState.makeRoom w s).jobs = s.jobs ∧
      (WatchState.makeRoom w s).holder = s.holder := by
    unfold WatchState.makeRoom
    repeat' split
    all_goals exact ⟨rfl, rfl⟩
  exact ⟨by rw [hsame.1]; exact hgenuine, by rw [hsame.2]; exact hholds⟩

/-- An id is given to a new job, and its record holds no verdict. -/
theorem assign {info : JobInfo} (h : Faithful s) (hnew : s.jobs.lookup n = none)
    (hclean : s.observed printer id &&& verdict = 0) :
    Faithful { s with
      jobs := s.jobs.insert n ⟨printer, id, some info, info.1, 0⟩
      holder := s.holder.insert (printer, id) n } := by
  -- the new job is not among those before it
  have hother : ∀ m job, s.jobs.lookup m = some job → m ≠ n := by
    rintro m job hm rfl
    rw [hnew] at hm
    cases hm
  have hlookup : ∀ m job, s.jobs.lookup m = some job →
      (s.jobs.insert n ⟨printer, id, some info, info.1, 0⟩).lookup m = some job := by
    intro m job hm
    rw [FinMap.lookup_insert_ite, if_neg (hother m job hm), hm]
  refine ⟨?_, ?_, h.watched, ?_, ?_⟩
  · intro m job hm
    have hm : (s.jobs.insert n ⟨printer, id, some info, info.1, 0⟩).lookup m = some job := hm
    rw [FinMap.lookup_insert_ite] at hm
    split at hm
    · obtain rfl := Option.some.inj hm
      refine ⟨?_, ?_⟩
      · rintro info' hinfo
        obtain rfl := Option.some.inj hinfo
        exact .refl _
      · intro i hi
        simp at hi
    · exact h.sound m job hm
  · intro p id' m hm
    have hheld : (s.holder.insert (printer, id) n).lookup (p, id') = some m := hm
    rw [FinMap.lookup_insert_ite] at hheld
    split at hheld
    · next heq =>
      obtain ⟨rfl, rfl⟩ := Prod.mk.inj heq
      obtain rfl := Option.some.inj hheld
      refine ⟨⟨p, id', some info, info.1, 0⟩, ?_, rfl, rfl⟩
      show AList.lookup n (s.jobs.insert n _) = _
      rw [FinMap.lookup_insert_ite, if_pos rfl]
    · obtain ⟨job, hjob, hfacts⟩ := h.holder p id' m hheld
      exact ⟨job, hlookup m job hjob, hfacts⟩
  · intro p w shared hw hshared id' bits hbits
    -- the history under this identifier shows nothing, so it says nothing of the new job
    by_cases heq : (p, id') = (printer, id)
    · obtain ⟨rfl, rfl⟩ := Prod.mk.inj heq
      have hobserved : s.observed p id' = bits := by
        have hwatcher : s.watcher p = some shared := by
          rw [WatchState.watcher, hw]
          exact hshared
        rw [WatchState.observed, hwatcher]
        show (shared.history.lookup id').getD 0 = bits
        rw [hbits]
        rfl
      rw [← hobserved, hclean]
      intro i hi
      simp at hi
    · have hbefore := h.history p w shared hw hshared id' bits hbits
      refine hbefore.trans ?_
      -- other identifiers keep their holders
      have hfor : WatchState.reportedFor { s with
          jobs := s.jobs.insert n ⟨printer, id, some info, info.1, 0⟩
          holder := s.holder.insert (printer, id) n } p id' = s.reportedFor p id' := by
        show ((((s.holder.insert (printer, id) n).lookup (p, id')).bind fun m =>
          (s.jobs.insert n ⟨printer, id, some info, info.1, 0⟩).lookup m).map (·.reported)).getD 0 = _
        rw [FinMap.lookup_insert_ite, if_neg heq]
        unfold WatchState.reportedFor
        cases hm : s.holder.lookup (p, id') with
        | none => rfl
        | some m =>
          obtain ⟨job, hjob, -⟩ := h.holder p id' m hm
          show (((s.jobs.insert n _).lookup m).map (·.reported)).getD 0 =
            ((s.jobs.lookup m).map (·.reported)).getD 0
          rw [hlookup m job hjob, hjob]
      rw [hfor]
      exact .refl _
  · intro k poll hpoll
    obtain ⟨job, hjob, hown⟩ := h.polls k poll hpoll
    exact ⟨job, hlookup _ _ hjob, hown⟩

/-- A new watcher has seen nothing. -/
theorem ensure (h : Faithful s) {now fresh : ℕ} {spawned : Bool}
    (hfresh : s.shared.lookup fresh = none) : Faithful (s.ensure printer now fresh spawned) := by
  unfold WatchState.ensure
  split
  · exact h.touch printer now
  -- a new watcher has seen nothing yet, and the others are as they were
  · have hne : ∀ p w, s.printers.lookup p = some w → w ≠ fresh := by
      rintro p w hw rfl
      obtain ⟨shared, hshared, -⟩ := h.watched p w hw
      rw [hfresh] at hshared
      cases hshared
    have hprinters : ∀ p w, (s.printers.insert printer fresh).lookup p = some w →
        (p = printer ∧ w = fresh) ∨ s.printers.lookup p = some w := by
      intro p w hw
      rw [FinMap.lookup_insert_ite] at hw
      split at hw
      · next heq => exact .inl ⟨heq, (Option.some.inj hw).symm⟩
      · exact .inr hw
    refine ⟨h.sound, h.holder, ?_, ?_, h.polls⟩
    · intro p w hw
      show ∃ shared, (s.shared.insert fresh _).lookup w = some shared ∧ _
      rw [FinMap.lookup_insert_ite]
      rcases hprinters p w hw with ⟨rfl, rfl⟩ | hold
      · rw [if_pos rfl]
        exact ⟨_, rfl, rfl⟩
      · rw [if_neg (hne p w hold)]
        exact h.watched p w hold
    · intro p w shared hw hshared id bits hbits
      have hshared : (s.shared.insert fresh _).lookup w = some shared := hshared
      rw [FinMap.lookup_insert_ite] at hshared
      rcases hprinters p w hw with ⟨rfl, rfl⟩ | hold
      · rw [if_pos rfl] at hshared
        obtain rfl := Option.some.inj hshared
        cases hbits
      · rw [if_neg (hne p w hold)] at hshared
        exact h.history p w shared hold hshared id bits hbits

/-- The verdict that a record shows for an id. -/
theorem observed (h : Faithful s) (printer : String) (id : SpoolerId) :
    Within (s.observed printer id &&& verdict) (s.reportedFor printer id) := by
  have hnone : Within (0 &&& verdict) (s.reportedFor printer id) := by
    intro i hi
    simp at hi
  unfold WatchState.observed WatchState.watcher
  cases hw : s.printers.lookup printer with
  | none => exact hnone
  | some w =>
    obtain ⟨shared, hshared, -⟩ := h.watched printer w hw
    show Within ((((s.shared.lookup w).bind fun shared => shared.history.lookup id).getD 0) &&&
      verdict) _
    rw [hshared]
    cases hbits : shared.history.lookup id with
    | none =>
      show Within (((shared.history.lookup id).getD 0) &&& verdict) _
      rw [hbits]
      exact hnone
    | some bits =>
      show Within (((shared.history.lookup id).getD 0) &&& verdict) _
      rw [hbits]
      exact h.history printer w shared hw hshared id bits hbits

theorem touch_fields (s : WatchState) (printer : String) (now : ℕ) :
    (s.touch printer now).jobs = s.jobs ∧ (s.touch printer now).polls = s.polls := by
  unfold WatchState.touch
  repeat' split
  all_goals exact ⟨rfl, rfl⟩

theorem forget_fields (s : WatchState) (printer : String) (id : SpoolerId) :
    (s.forget printer id).jobs = s.jobs ∧ (s.forget printer id).polls = s.polls := by
  unfold WatchState.forget
  repeat' split
  all_goals exact ⟨rfl, rfl⟩

/-- **Every step that mixes no jobs up keeps it.** -/
theorem step (h : Faithful s) (hok : Unmixed s a) (hs : watchStep s a = some s') : Faithful s' := by
  cases a with
  | assign n printer id info =>
    simp only [watchStep] at hs
    split at hs
    · next hguard =>
      obtain rfl := Option.some.inj hs
      exact h.assign (Option.isNone_iff_eq_none.mp (Bool.and_eq_true_iff.mp hguard).1) hok
    · cases hs
  | change n info =>
    simp only [watchStep] at hs
    split at hs
    · next printer id old shown reported hold =>
      obtain rfl := Option.some.inj hs
      have hsound := h.sound n _ hold
      refine h.setJob hold ⟨rfl, rfl, .or_left _ _, .refl _⟩ ⟨?_, ?_⟩
      · rintro info' hinfo
        obtain rfl := Option.some.inj hinfo
        exact .or_right _ _
      · exact hsound.reported.trans (.or_left _ _)
    · cases hs
  | leave n =>
    obtain ⟨job, hold, rfl⟩ := Option.map_eq_some_iff.mp hs
    refine h.setJob hold ⟨rfl, rfl, .refl _, .refl _⟩ ⟨?_, (h.sound n job hold).reported⟩
    rintro info hinfo
    cases hinfo
  | ensure printer now fresh spawned =>
    simp only [watchStep] at hs
    split at hs
    · next hfresh =>
      obtain rfl := Option.some.inj hs
      exact h.ensure (Option.isNone_iff_eq_none.mp hfresh)
    · cases hs
  | take w entries =>
    simp only [watchStep] at hs
    split at hs
    · next shared hshared =>
      split at hs
      · next hguard =>
        obtain rfl := Option.some.inj hs
        have hgenuine := List.all_eq_true.mp (Bool.and_eq_true_iff.mp hguard).2
        exact h.take hshared fun e he => admitted (hgenuine e he) (hok e he)
      · cases hs
    · cases hs
  | finish w now failed =>
    simp only [watchStep] at hs
    split at hs
    · next shared hshared =>
      split at hs
      · obtain rfl := Option.some.inj hs
        exact h.setShared hshared rfl fun _ _ hbits => hbits
      · cases hs
    · cases hs
  | ask k n =>
    simp only [watchStep] at hs
    split at hs
    · next job hjob =>
      split at hs
      · obtain rfl := Option.some.inj hs
        refine h.setPoll hjob ⟨(h.sound n job hjob).current, ?_⟩
        have hheld : s.holder.lookup (job.printer, job.id) = some n := hok job hjob
        show s.current job.printer job.id = job.current
        rw [WatchState.current, hheld]
        show (s.jobs.lookup n).bind _ = _
        rw [hjob]
        rfl
      · cases hs
    · cases hs
  | observe k now =>
    simp only [watchStep] at hs
    split at hs
    · next n own current hpoll =>
      obtain ⟨job, hjob, rfl⟩ := Option.map_eq_some_iff.mp hs
      obtain ⟨found, hfound, hown, hasked⟩ := h.polls k _ hpoll
      obtain rfl := Option.some.inj (hjob.symm.trans hfound)
      have hheld : s.holder.lookup (job.printer, job.id) = some n := hok _ hpoll job hjob
      -- the call asks about the job that holds the identifier, which is its own
      obtain rfl : current = own := hasked
      -- what the history adds beyond the job's own reports does not change the verdict
      have hresult : ∃ bits, Within bits job.reported ∧
          resolveJobState current (s.observed job.printer job.id) = resolveJobState current bits := by
        refine ⟨s.observed job.printer job.id &&& verdict, ?_, (resolveJobState_verdict _ _).symm⟩
        have hfor : s.reportedFor job.printer job.id = job.reported := by
          simp [WatchState.reportedFor, hheld, hjob]
        rw [← hfor]
        exact h.observed job.printer job.id
      obtain ⟨hjobs, hpolls⟩ := touch_fields s job.printer now
      rw [← hpolls]
      have hphase : ∀ phase,
          phase = .resolved (resolveJobState current (s.observed job.printer job.id)) ∨
            phase = .returned (resolveJobState current (s.observed job.printer job.id)) →
          Poll.Own ⟨n, current, phase⟩ job := by
        rintro phase (rfl | rfl) <;> exact ⟨hown, hresult⟩
      refine (h.touch job.printer now).setPoll (hjobs.symm ▸ hjob) (hphase _ ?_)
      split
      · exact .inl rfl
      · exact .inr rfl
    · cases hs
  | forget k =>
    simp only [watchStep] at hs
    split at hs
    · next n own result hpoll =>
      obtain ⟨job, hjob, rfl⟩ := Option.map_eq_some_iff.mp hs
      obtain ⟨found, hfound, hown⟩ := h.polls k _ hpoll
      obtain rfl := Option.some.inj (hjob.symm.trans hfound)
      obtain ⟨hjobs, hpolls⟩ := forget_fields s job.printer job.id
      rw [← hpolls]
      exact (h.forget job.printer job.id).setPoll (hjobs.symm ▸ hjob) hown
    · cases hs

end Faithful

/-- The state a call of `job_state` has come to. -/
def Poll.result (poll : Poll) : Option Reported :=
  match poll.phase with
  | .asked _ => none
  | .resolved result | .returned result => some result

/-- **What `job_state` returns for a job is its own**: it follows from the job's current
status and from status bits that were reported of this job; and it is `printed` only if the
job has shown `PRINTED` or `COMPLETE`. -/
theorem job_state_own (h : Runs.Reach watchStep Unmixed {} s) {k : ℕ} {poll : Poll}
    {result : Reported} (hpoll : s.polls.lookup k = some poll)
    (hresult : poll.result = some result) :
    ∃ job, s.jobs.lookup poll.job = some job ∧
      (∃ bits, Within bits job.reported ∧ result = resolveJobState poll.own bits) ∧
      Within job.reported job.shown ∧
      (result.state = .printed → job.shown &&& (printed ||| complete) ≠ 0) := by
  have hfaithful : Faithful s :=
    h.invariant Faithful.started fun _ _ _ _ hI hok hs => hI.step hok hs
  obtain ⟨job, hjob, hown, hphase⟩ := hfaithful.polls k poll hpoll
  have hsound := hfaithful.sound _ _ hjob
  have hbits : ∃ bits, Within bits job.reported ∧ result = resolveJobState poll.own bits := by
    unfold Poll.result at hresult
    split at hresult
    · cases hresult
    · next heq =>
      obtain rfl := Option.some.inj hresult
      rw [heq] at hphase
      exact hphase
    · next heq =>
      obtain rfl := Option.some.inj hresult
      rw [heq] at hphase
      exact hphase
  refine ⟨job, hjob, hbits, hsound.reported, ?_⟩
  intro hprinted
  obtain ⟨bits, hwithin, rfl⟩ := hbits
  exact printed_of_resolve hown (hwithin.trans hsound.reported) hprinted

/-- The state a run ends in. -/
def afterWatch (run : List WatchAction) : WatchState := (Runs.runFrom watchStep {} run).getD {}

theorem reach_afterWatch (ok : WatchState → WatchAction → Prop) [∀ s a, Decidable (ok s a)]
    (run : List WatchAction)
    (h : (Runs.checked watchStep (fun s a => decide (ok s a)) {} run).isSome = true) :
    Runs.Reach watchStep ok {} (afterWatch run) := by
  obtain ⟨s, hs⟩ := Option.isSome_iff_exists.mp h
  have hafter : afterWatch run = s := by
    rw [afterWatch, Runs.runFrom_of_checked hs]
    rfl
  rw [hafter]
  exact Runs.reach_of_checked (fun s a => of_decide_eq_true) hs

/-- A job prints and vanishes between two polls. -/
def printedRun : List WatchAction :=
  [.ensure "office" 0 0 true, .assign 0 "office" 7 (printing, none),
    .take 0 [⟨0, true, 7, printing⟩], .change 0 (printed, none), .take 0 [⟨0, true, 7, printed⟩],
    .leave 0, .ask 0 0, .observe 0 1, .forget 0]

theorem job_state_own_printed :
    ∃ job, (afterWatch printedRun).jobs.lookup 0 = some job ∧
      (∃ bits, Within bits job.reported ∧ (⟨.printed, none⟩ : Reported) = resolveJobState none bits) ∧
      Within job.reported job.shown ∧
      ((⟨.printed, none⟩ : Reported).state = .printed → job.shown &&& (printed ||| complete) ≠ 0) :=
  have hpoll : (afterWatch printedRun).polls.lookup 0 =
      some ⟨0, none, .returned ⟨.printed, none⟩⟩ := by rfl
  job_state_own (reach_afterWatch Unmixed printedRun (by decide +kernel)) hpoll rfl

/-- An application's job prints; its id is given to a job of Kiln's. -/
def reusedRun : List WatchAction :=
  [.ensure "office" 0 0 true, .assign 0 "office" 7 (printing, none), .change 0 (printed, none),
    .take 0 [⟨0, true, 7, printed⟩], .leave 0, .ensure "office" 1 1 true,
    .assign 1 "office" 7 (0, none), .ask 0 1, .observe 0 2]

/-- **A job that has shown nothing is reported as printed.** -/
theorem job_state_mixed :
    Runs.Reach watchStep (fun _ _ => True) {} (afterWatch reusedRun) ∧
      ((afterWatch reusedRun).polls.lookup 0).bind Poll.result = some ⟨.printed, none⟩ ∧
      ((afterWatch reusedRun).jobs.lookup 1).map (·.shown) = some 0 :=
  ⟨reach_afterWatch _ reusedRun (by decide +kernel), by decide +kernel, by decide +kernel⟩

end Watch

end KilnPrint
