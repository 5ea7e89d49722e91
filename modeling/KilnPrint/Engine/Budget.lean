/-
Budget accounting: what a task holds, and what an operation does to it.

A reservation is taken in `enqueue` and then passes from hand to hand: with the
queue item to the printer's worker, and with the payload to the blocking call.
It is released wherever its holder is dropped.

* `Task.reservations` — the reservations a task holds at each of its points, each
  named by its job;
* `Op.Balances` — an operation passes on what its task holds, or takes or releases
  a reservation in so doing;
* `code_balances` — **every point of every routine does**.

A worker that drops an item's reservation has forgotten which job it was for; the
last job it was about is kept beside the state (`Task.subject`).
-/
import KilnPrint.Reservation
import KilnPrint.Engine.Sites
import Mathlib.Algebra.BigOperators.Group.Multiset.Basic

namespace KilnPrint

/-! ### Reservations -/

/-- A job's reservation, with its bytes. -/
abbrev Held := JobId × ℕ

/-- The reservations of queue items. -/
def itemReservations (items : List QueuedJob) : Multiset Held :=
  ↑(items.map fun item => (item.jobId, item.reservation))

def SubmitPc.reservations : SubmitPc → Multiset Held
  | queue p | sender p _ | send p _ _ => {(p.jobId, p.size)}
  | stored id bytes | release id bytes _ => {(id, bytes)}
  | _ => 0

/-- The blocking call drops its reservation when it returns. -/
def Call.reservations (c : Call) : Multiset Held :=
  match c.phase with
  | .finished _ => 0
  | _ => {(c.jobId, c.reservation)}

def WorkerPc.reservations (last : JobId) : WorkerPc → Multiset Held
  | claim item | lookup item | failing item _ => {(item.jobId, item.reservation)}
  | discard bytes => {(last, bytes)}
  | calling call | late call => call.reservations
  | _ => 0

def Worker.reservations (last : JobId) (w : Worker) : Multiset Held :=
  w.pc.reservations last + itemReservations w.rx

/-- The reservations a task holds, if `last` is the last job it was about. -/
def Task.reservations (last : JobId) : Task → Multiset Held
  | submit _ _ pc => pc.reservations
  | worker w => w.reservations last
  | _ => 0

def SubmitPc.subject (last : JobId) : SubmitPc → JobId
  | reserve p => p.jobId
  | release id _ _ => id
  | _ => last

def WorkerPc.subject (last : JobId) : WorkerPc → JobId
  | claim item | lookup item | failing item _ => item.jobId
  | _ => last

/-- The job a task is about, where it takes, drops or hands on a reservation. -/
def Task.subject (last : JobId) : Task → JobId
  | submit _ _ pc => pc.subject last
  | worker w => w.pc.subject last
  | _ => last

/-- Remembering the job changes nothing that is held. -/
theorem reservations_subject (last : JobId) (k : Task) :
    k.reservations (k.subject last) = k.reservations last := by
  cases k with
  | submit who request pc => rfl
  | worker w =>
    obtain ⟨printer, rx, pc⟩ := w
    cases pc <;> rfl
  | _ => rfl

@[simp] theorem itemReservations_nil : itemReservations [] = 0 := rfl

@[simp] theorem itemReservations_cons (item : QueuedJob) (items : List QueuedJob) :
    itemReservations (item :: items) = {(item.jobId, item.reservation)} + itemReservations items :=
  rfl

@[simp] theorem itemReservations_append (items items' : List QueuedJob) :
    itemReservations (items ++ items') = itemReservations items + itemReservations items' := by
  unfold itemReservations
  rw [List.map_append, Multiset.coe_add]

/-! ### What an operation does to them -/

/-- From a task that holds `held` and is about `id`, the operation passes on what it
does not take or release. -/
def Op.Balances (id : JobId) (held : Multiset Held) : Op → Prop
  | .tryReserve bytes f => (f true).reservations id = {(id, bytes)} + held ∧
      (f false).reservations id = held
  | .release bytes k => {(id, bytes)} + k.reservations id = held
  | .dropReceiver items k => itemReservations items + k.reservations id = held
  | .trySend _ item f => itemReservations [item] + (f .ok).reservations id = held ∧
      (f .full).reservations id = held ∧ (f .closed).reservations id = held
  | op => ∀ k, op.Continues k → k.reservations id = held

/-- The reservation an operation takes, if it succeeds. -/
def Op.takes (env : Env) (used : ℕ) (id : JobId) : Op → Multiset Held
  | .tryReserve bytes _ =>
    if ((⟨used, env.config.maxQueuedBytes⟩ : ByteBudget).tryReserve bytes).isSome then
      {(id, bytes)}
    else 0
  | _ => 0

/-- The reservations an operation releases. -/
def Op.gives (id : JobId) : Op → Multiset Held
  | .release bytes _ => {(id, bytes)}
  | .dropReceiver items _ => itemReservations items
  | _ => 0

variable {env : Env} {inp : Input}

theorem submit_balances (who : Submitter) (request : PrintRequest) (pc : SubmitPc) (last : JobId) :
    (submitCode env who request inp pc).Balances (pc.subject last) pc.reservations := by
  cases pc with
  | reserve p => exact ⟨rfl, rfl⟩
  | send p job target => exact ⟨rfl, rfl, rfl⟩
  | release id bytes result => cases result <;> rfl
  | queue p =>
    rintro k ⟨m, rfl⟩
    cases m <;> rfl
  | stored id bytes =>
    rintro k ⟨r, rfl⟩
    rcases r with _ | _ | _ <;> rfl
  | sender p job =>
    rintro k ⟨r, rfl⟩
    rfl
  | enter job =>
    rintro k rfl
    split <;> rfl
  | lookup job =>
    rintro k ⟨r, rfl⟩
    rcases r with _ | _ | _ <;> rfl
  | insert job =>
    rintro k ⟨r, rfl⟩
    cases r <;> rfl
  | check id =>
    simp only [submitCode]
    split <;> (rintro k rfl; rfl)
  | render id printer warnings language =>
    simp only [submitCode]
    split <;> (rintro k rfl; rfl)
  | resolve id again =>
    rintro k ⟨printers, rfl⟩
    dsimp only
    split
    · unfold resolved
      split <;> rfl
    · split <;> rfl
  | route id printer =>
    rintro k rfl
    show (routed env request id printer).reservations = 0
    unfold routed
    repeat' split
    all_goals rfl
  | inspecting id printer =>
    rintro k rfl
    show (inspected env request id printer inp.panicked).reservations = 0
    unfold inspected
    repeat' split
    all_goals rfl
  | rendering id printer warnings language =>
    rintro k rfl
    show (rendered env id printer warnings language inp.rendered).reservations = 0
    unfold rendered
    repeat' split
    all_goals rfl
  | «exit» result | leave id | refreshing id | activate job =>
    rintro k rfl
    rfl
  | validate id | assign id printer | settle id e =>
    rintro k ⟨m, rfl⟩
    rfl
  | existing stored | name id printer warnings language payload =>
    rintro k ⟨r, rfl⟩
    rfl
  | done result =>
    rintro k ⟨⟩

theorem worker_balances (w : Worker) (last : JobId) :
    (workerCode env w inp).Balances (w.pc.subject last) (w.reservations last) := by
  obtain ⟨printer, rx, pc⟩ := w
  cases pc with
  | idle =>
    rintro k ⟨shutdown, rfl⟩
    cases shutdown <;> rfl
  | polling =>
    cases rx with
    | nil =>
      rintro k rfl
      rfl
    | cons item rest =>
      rintro k rfl
      show {(item.jobId, item.reservation)} + itemReservations rest = _
      rw [← itemReservations_cons]
      exact (zero_add _).symm
  | stopping =>
    show itemReservations rx + (0 + itemReservations []) = 0 + itemReservations rx
    rw [itemReservations_nil, add_zero, add_zero, zero_add]
  | claim item =>
    rintro k ⟨m, rfl⟩
    cases m <;> rfl
  | lookup item =>
    rintro k ⟨printers, rfl⟩
    dsimp only
    split <;> rfl
  | failing item e =>
    rintro k ⟨m, rfl⟩
    rfl
  | discard bytes =>
    show {(last, bytes)} + (0 + itemReservations rx) = {(last, bytes)} + itemReservations rx
    rw [zero_add]
  | calling call =>
    simp only [workerCode]
    split
    · rintro k ⟨m, rfl⟩
      rfl
    · split
      · next result hphase =>
        rintro k ⟨m, rfl⟩
        have hheld : call.reservations = 0 := by
          rw [Call.reservations, hphase]
        show (afterCall call result).reservations last + itemReservations rx =
          call.reservations + itemReservations rx
        rw [hheld]
        rcases result with (_ | _) | _ | _ <;> rfl
      · rintro k ⟨⟩
  | late call =>
    simp only [workerCode]
    split
    · next result hphase =>
      rintro k rfl
      have hheld : call.reservations = 0 := by
        rw [Call.reservations, hphase]
      show 0 + itemReservations rx = call.reservations + itemReservations rx
      rw [hheld]
    · rintro k ⟨⟩
  | watch id p spoolerJobId =>
    rintro k rfl
    rfl
  | stopped =>
    rintro k ⟨⟩

/-- Operations that neither take nor release, nor hand an item over. -/
def Op.Passive : Op → Prop
  | tryReserve .. | release .. | dropReceiver .. | trySend .. => False
  | _ => True

theorem balances_of_passive {op : Op} {id : JobId} {held : Multiset Held} (hop : op.Passive)
    (h : ∀ k, op.Continues k → k.reservations id = held) : op.Balances id held := by
  cases op <;> first | exact h | exact absurd hop not_false

/-- A task that never holds a reservation. -/
def Task.bare : Task → Bool
  | submit .. | worker _ => false
  | _ => true

theorem reservations_of_bare {task : Task} (h : task.bare = true) (last : JobId) :
    task.reservations last = 0 := by
  cases task <;> first | rfl | cases h

theorem passive_of_bare {task : Task} (h : task.bare = true) : (code env inp task).Passive := by
  cases task with
  | none => trivial
  | submit | worker => cases h
  | monitor m =>
    obtain ⟨id, printer, spoolerJobId, pc⟩ := m
    cases pc with
    | spawned =>
      simp only [code, monitorCode]
      split <;> trivial
    | _ => trivial
  | cancel id pc => cases pc <;> trivial
  | shutdown pc =>
    cases pc with
    | failing todo =>
      cases todo with
      | nil => trivial
      | cons id rest =>
        simp only [code, shutdownCode]
        split <;> trivial
    | _ => trivial
  | start pc =>
    cases pc with
    | reconcile jobs =>
      cases jobs with
      | nil => trivial
      | cons job rest =>
        simp only [code, startCode]
        split <;> trivial
    | settle job printer rest =>
      simp only [code, startCode]
      split <;> trivial
    | _ => trivial

theorem bare_of_kind {k task : Task} (h : k.kind = task.kind) : k.bare = task.bare := by
  cases k <;> cases task <;> first | rfl | cases h

/-- **Every point of every routine balances.** -/
theorem code_balances (task : Task) (last : JobId) :
    (code env inp task).Balances (task.subject last) (task.reservations last) := by
  cases hbare : task.bare with
  | true =>
    refine balances_of_passive (passive_of_bare hbare) ?_
    intro k hk
    rw [reservations_of_bare hbare]
    exact reservations_of_bare ((bare_of_kind (code_kind hk)).trans hbare) _
  | false =>
    cases task with
    | submit who request pc => exact submit_balances who request pc last
    | worker w => exact worker_balances w last
    | _ => cases hbare

end KilnPrint
