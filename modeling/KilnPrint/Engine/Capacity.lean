/-
Memory held by the queues.

The budget counts the size of the documents, and the queues hold what they render
to.

* `State.queuedRaw` — the RAW bytes held by queue items and by submissions;
* `Rendered` — what a step renders, it renders by the repository's renderers;
* `Task.Covered`, `covered_step` — every item's payload is within its reservation,
  if the documents rendered fit (`Document.Fits`);
* `queuedRaw_le` — **then the queues hold no more than the budget's limit**;
* `capacity_exceeded` — a text of four tabs takes the queue over the limit.
-/
import KilnPrint.Engine.Accounting
import KilnPrint.Renderers.Builtin

namespace KilnPrint

open Runs

variable {env : Env} {s s₁ s' : State} {t : TaskId} {inp : Input} {k : Task} {e : Encoders}

/-! ### The statement -/

def QueuedJob.rawLength (item : QueuedJob) : ℕ := item.spec.payload.rawLength

/-- The RAW bytes of the item a worker has in hand.  A call lets go of them when it
returns. -/
def WorkerPc.rawLength : WorkerPc → ℕ
  | claim item | lookup item | failing item _ => item.rawLength
  | calling call | late call =>
    match call.phase with
    | .finished _ => 0
    | _ => call.spec.payload.rawLength
  | _ => 0

def Task.rawLength : Task → ℕ
  | worker w => w.pc.rawLength + (w.rx.map (·.rawLength)).sum
  | _ => 0

/-- The RAW bytes that items in the queues and submissions by workers hold. -/
def State.queuedRaw (s : State) : ℕ := FinMap.tally (fun _ k => k.rawLength) s.tasks

/-- The payload kinds the provider accepts for a printer. -/
def Env.accepted (env : Env) (printer : Printer) : List PayloadKind :=
  match env.provider printer.provider with
  | .ok provider => PayloadKind.all.filter (provider.supports printer)
  | .error _ => []

/-- What a step renders, it renders by the repository's renderers, and `P` holds of the
document. -/
def Rendered (env : Env) (e : Encoders)
    (P : TextOptions → Printer → List PayloadKind → Document → Prop) (s : State) :
    Action → Prop
  | .run t inp => ∀ who request id printer warnings language payload,
    s.task t = .submit who request (.rendering id printer warnings language) →
    inp.rendered = .ok payload → ∃ options,
      renderDocument e options printer (env.accepted printer) request.document = .ok payload ∧
        P options printer (env.accepted printer) request.document
  | _ => True

/-- Only documents that fit are rendered. -/
def Contained (env : Env) (e : Encoders) : State → Action → Prop :=
  Rendered env e (Document.Fits e)

/-! ### Payloads within their reservations -/

def QueuedJob.Covered (item : QueuedJob) : Prop := item.rawLength ≤ item.reservation

def SubmitPc.Covered (size : ℕ) : SubmitPc → Prop
  | name _ _ _ _ payload => payload.rawLength ≤ size
  | reserve p | queue p | sender p _ | send p _ _ => p.spec.payload.rawLength ≤ p.size
  | _ => True

def WorkerPc.Covered : WorkerPc → Prop
  | claim item | lookup item | failing item _ => item.Covered
  | calling call | late call => call.spec.payload.rawLength ≤ call.reservation
  | _ => True

/-- Every payload a task holds is within its reservation. -/
def Task.Covered : Task → Prop
  | submit _ request pc => pc.Covered request.document.sizeBytes
  | worker w => w.pc.Covered ∧ ∀ item ∈ w.rx, item.Covered
  | _ => True

/-- What a task holds is within what it has reserved. -/
theorem Task.Covered.rawLength_le (h : k.Covered) (last : JobId) :
    k.rawLength ≤ bytesOf (k.reservations last) := by
  cases k with
  | worker w =>
    obtain ⟨printer, rx, pc⟩ := w
    obtain ⟨hpc, hrx⟩ := h
    have hitems : (rx.map (·.rawLength)).sum ≤ bytesOf (itemReservations rx) := by
      rw [bytesOf_items]
      exact List.sum_le_sum hrx
    have hhand : pc.rawLength ≤ bytesOf (pc.reservations last) := by
      cases pc with
      | claim item | lookup item | failing item err =>
        simp only [WorkerPc.reservations, bytesOf_singleton]
        exact hpc
      | calling call | late call =>
        simp only [WorkerPc.rawLength, WorkerPc.reservations, Call.reservations]
        cases call.phase with
        | finished result => exact Nat.zero_le _
        | spawned | running =>
          simp only [bytesOf_singleton]
          exact hpc
      | _ => exact Nat.zero_le _
    show pc.rawLength + _ ≤ bytesOf (pc.reservations last + _)
    rw [bytesOf_add]
    exact Nat.add_le_add hhand hitems
  | _ => exact Nat.zero_le _

/-- What the queues hold is within what is live. -/
theorem queuedRaw_le_live (h : ∀ t, (s.task t).Covered) (last : TaskId → JobId) :
    s.queuedRaw ≤ bytesOf (s.live last) := by
  have hmap : bytesOf (s.live last) =
      FinMap.tally (fun t k => bytesOf (Task.reservations (last t) k)) s.tasks :=
    FinMap.map_tally bytesHom _ _
  rw [hmap]
  refine FinMap.tally_le ?_
  intro t k hk
  have htask : s.task t = k := by
    rw [State.task, hk]
    rfl
  exact Task.Covered.rawLength_le (htask ▸ h t) (last t)

/-- What is rendered is no larger than the document. -/
def Input.Fits (inp : Input) (task : Task) : Prop :=
  ∀ who request id printer warnings language payload,
    task = .submit who request (.rendering id printer warnings language) →
    inp.rendered = .ok payload → payload.rawLength ≤ request.document.sizeBytes

theorem submit_covered {who : Submitter} {request : PrintRequest} {pc : SubmitPc}
    (h : (submitCode env who request inp pc).Continues k)
    (hfit : inp.Fits (.submit who request pc))
    (hpc : pc.Covered request.document.sizeBytes) : k.Covered := by
  cases pc with
  | rendering id printer warnings language =>
    cases h
    show SubmitPc.Covered _ (rendered env id printer warnings language inp.rendered)
    unfold rendered
    -- the payload comes from here, and the renderer's answer fits; later points carry it on
    cases hrendered : inp.rendered with
    | error err => exact True.intro
    | ok payload =>
      dsimp only
      split
      · exact hfit _ _ _ _ _ _ payload rfl hrendered
      · exact True.intro
  | name id printer warnings language payload =>
    obtain ⟨job, hk⟩ := h
    cases hk
    exact hpc
  | reserve p | queue p | send p job target =>
    obtain ⟨r, hk⟩ := h
    cases r <;> cases hk <;> first | exact hpc | exact True.intro
  | sender p job =>
    obtain ⟨r, hk⟩ := h
    cases hk
    exact hpc
  | lookup job | stored id bytes =>
    obtain ⟨r, hk⟩ := h
    rcases r with _ | _ | _ <;> cases hk <;> exact True.intro
  | insert job =>
    obtain ⟨r, hk⟩ := h
    cases r <;> cases hk <;> exact True.intro
  | check id | render id printer warnings language =>
    simp only [submitCode] at h
    split at h <;> cases h <;> exact True.intro
  | enter job =>
    cases h
    split <;> exact True.intro
  | resolve id again =>
    obtain ⟨printers, hk⟩ := h
    dsimp only at hk
    repeat' split at hk
    all_goals
      cases hk
      first
        | exact True.intro
        | (show SubmitPc.Covered _ (resolved who id _)
           unfold resolved
           split <;> exact True.intro)
  | route id printer =>
    cases h
    show SubmitPc.Covered _ (routed env request id printer)
    unfold routed
    repeat' split
    all_goals exact True.intro
  | inspecting id printer =>
    cases h
    show SubmitPc.Covered _ (inspected env request id printer inp.panicked)
    unfold inspected
    repeat' split
    all_goals exact True.intro
  | release id bytes result => cases result <;> cases h <;> exact True.intro
  | existing | validate | assign | settle =>
    obtain ⟨r, hk⟩ := h
    cases hk
    exact True.intro
  | done result => exact absurd h not_false
  | _ =>
    cases h
    exact True.intro

theorem worker_covered {w : Worker} (h : (workerCode env w inp).Continues k)
    (hw : (Task.worker w).Covered) : k.Covered := by
  obtain ⟨printer, rx, pc⟩ := w
  obtain ⟨hpc, hrx⟩ := hw
  -- an item keeps its payload and its reservation on its way through the worker
  cases pc with
  | polling =>
    cases rx with
    | nil =>
      cases h
      exact ⟨True.intro, hrx⟩
    | cons item rest =>
      cases h
      exact ⟨hrx item List.mem_cons_self, fun i hi => hrx i (List.mem_cons_of_mem _ hi)⟩
  | stopping =>
    cases h
    exact ⟨True.intro, fun i hi => absurd hi List.not_mem_nil⟩
  | discard | watch =>
    cases h
    exact ⟨True.intro, hrx⟩
  | idle | claim | failing =>
    obtain ⟨r, hk⟩ := h
    cases r <;> cases hk <;> first | exact ⟨True.intro, hrx⟩ | exact ⟨hpc, hrx⟩
  | lookup item =>
    obtain ⟨printers, hk⟩ := h
    dsimp only at hk
    split at hk <;> cases hk <;> exact ⟨hpc, hrx⟩
  | calling call =>
    simp only [workerCode] at h
    split at h
    · obtain ⟨r, hk⟩ := h
      cases hk
      exact ⟨hpc, hrx⟩
    · split at h
      · next result _ =>
        obtain ⟨r, hk⟩ := h
        cases hk
        rcases result with (_ | _) | _ | _ <;> exact ⟨True.intro, hrx⟩
      · exact absurd h not_false
  | late call =>
    simp only [workerCode] at h
    split at h
    · cases h
      exact ⟨True.intro, hrx⟩
    · exact absurd h not_false
  | stopped => exact absurd h not_false

/-- **Every point of every routine** keeps its payloads within their reservations. -/
theorem code_covered {task : Task} (h : (code env inp task).Continues k) (hfit : inp.Fits task)
    (ht : task.Covered) : k.Covered := by
  have hkind := code_kind h
  cases task with
  | submit who request pc => exact submit_covered h hfit ht
  | worker w => exact worker_covered h ht
  | _ => cases k <;> first | exact True.intro | cases hkind

/-- **A step keeps every payload within its reservation**, if what it renders fits. -/
theorem covered_step {a : Action} (h : step env s a = some s')
    (hfit : ∀ t inp, a = .run t inp → inp.Fits (s.task t)) (hs : ∀ t, (s.task t).Covered)
    (u : TaskId) : (s'.task u).Covered := by
  cases step_task h u with
  | touched htouch =>
    have hold := hs u
    generalize hk : s.task u = k at htouch hold
    generalize hk' : s'.task u = k' at htouch
    cases htouch with
    | same => exact hold
    | workerSpawned printer => exact ⟨True.intro, fun item hitem => absurd hitem List.not_mem_nil⟩
    | monitorSpawned => exact True.intro
    | appended w item hopen =>
      obtain ⟨hpc, hrx⟩ := hold
      refine ⟨hpc, ?_⟩
      rcases step_channel h hk hk' with hsuffix | ⟨t, inp, who, request, p, job, -, htask, hrx'⟩
      · have hlength := hsuffix.length_le
        simp at hlength
      · -- the item is the one a submit call sends
        have hsender := hs t
        rw [htask] at hsender
        intro item' hitem'
        rw [hrx'] at hitem'
        rcases List.mem_append.mp hitem' with hitem' | hitem'
        · exact hrx item' hitem'
        · obtain rfl := List.mem_singleton.mp hitem'
          exact hsender
  | ran ha hp hex hs' =>
    rw [hs', task_setTask_self]
    exact code_covered (exec_continues hex) (hfit u _ ha) (hs u)
  | phase hpc ha hold hnew =>
    have hu := hs u
    rw [hold] at hu
    rw [hnew]
    rcases hpc with rfl | rfl <;> exact hu
  | booted ha hu hold hnew | cancelled ha hold hnew | shutdown ha hold hnew
  | dropped ha hold hnew | crashed ha hnew =>
    rw [hnew]
    exact True.intro
  | submitted ha hpc hold hnew =>
    rw [hnew]
    rcases hpc with rfl | ⟨err, rfl⟩ <;> exact True.intro

/-! ### Main result -/

theorem fits_of_contained {t : TaskId} (h : Contained env e s (.run t inp)) :
    inp.Fits (s.task t) := by
  intro who request id printer warnings language payload htask hrendered
  obtain ⟨options, hpayload, hfits⟩ :=
    h who request id printer warnings language payload htask hrendered
  exact (renderDocument_fits e options printer _ request.document).mp hfits payload hpayload

/-- **Where only documents that fit are rendered**, the queues hold no more RAW bytes
than the budget allows. -/
theorem queuedRaw_le (h : Reach (step env) (Contained env e) init s) :
    s.queuedRaw ≤ env.config.maxQueuedBytes := by
  have hcovered : ∀ t, (s.task t).Covered := by
    refine h.invariant (I := fun s => ∀ t, (s.task t).Covered) (fun _ => True.intro) ?_
    intro s a s' _ hs hok hstep
    refine covered_step hstep ?_ hs
    rintro t inp rfl
    exact fits_of_contained hok
  obtain ⟨last, taken, given, hacc⟩ := accounts_of_reach (h.mono fun _ _ _ => trivial)
  obtain ⟨-, hcounter, hlimited⟩ := hacc.conserved
  calc s.queuedRaw ≤ bytesOf (s.live last) := queuedRaw_le_live hcovered last
    _ = s.used := hcounter.symm
    _ ≤ env.config.maxQueuedBytes := hlimited

/-! ### A text of four tabs -/

/-- A counter with a RAW printer and a budget of four bytes. -/
def counter : Env where
  config := { maxQueuedBytes := 4 }
  providers := [{ id := "spooler", supports := fun _ kind => kind == .raw }]
  renderers := fun _ => some { outputKinds := [.text, .raw], validate := fun _ => .ok () }
  protocols := {}

def noEncoders : Encoders where
  whatwgs := fun _ => none
  structured := fun _ _ => .error .internal
  graphic := fun _ _ => .error .internal

def textRequest (text : String) : PrintRequest where
  printer := .id "desk"
  document := .text text
  copies := 1
  jobName := none
  idempotencyKey := none

/-- The text is submitted, rendered to the payload, and sent to worker 2. -/
def queueing (text : String) (payload : PrintPayload) : List Action :=
  booting ++ [.submit 1 clerk (textRequest text) 0] ++
    List.replicate 16 (.run 1 { rendered := .ok payload }) ++ [.run 1 { fresh := 2 }, .run 1 {}]

/-- The only document rendered is the text, and the payload is what it renders to. -/
def rendersTo (text : String) (payload : PrintPayload) (s : State) : Action → Bool
  | .run t inp =>
    match s.task t with
    | .submit _ request (.rendering _ printer _ _) =>
      decide (request.document = .text text ∧ printer = deskPrinter ∧ inp.rendered = .ok payload)
    | _ => true
  | _ => true

theorem rendered_of_rendersTo {P : TextOptions → Printer → List PayloadKind → Document → Prop}
    {text : String} {payload : PrintPayload} {options : TextOptions}
    (h : renderDocument e options deskPrinter (env.accepted deskPrinter) (.text text) = .ok payload)
    (hP : P options deskPrinter (env.accepted deskPrinter) (.text text)) (s : State) (a : Action)
    (ha : rendersTo text payload s a = true) : Rendered env e P s a := by
  cases a with
  | run t inp =>
    intro who request id printer warnings language payload' htask hrendered
    unfold rendersTo at ha
    simp only [htask, decide_eq_true_eq] at ha
    obtain ⟨hdocument, rfl, hpayload⟩ := ha
    rw [hrendered, Except.ok.injEq] at hpayload
    rw [hdocument, hpayload]
    exact ⟨options, h, hP⟩
  | _ => exact True.intro

def queued (text : String) (payload : PrintPayload) : State :=
  (runFrom (step counter) init (queueing text payload)).getD init

theorem reach_queued {P : TextOptions → Printer → List PayloadKind → Document → Prop}
    {text : String} {payload : PrintPayload} {options : TextOptions}
    (h : renderDocument e options deskPrinter (counter.accepted deskPrinter) (.text text) =
      .ok payload)
    (hP : P options deskPrinter (counter.accepted deskPrinter) (.text text))
    (hrun : (checked (step counter) (rendersTo text payload) init (queueing text payload)).isSome =
      true) :
    Reach (step counter) (Rendered counter e P) init (queued text payload) := by
  obtain ⟨s, hs⟩ := Option.isSome_iff_exists.mp hrun
  have hqueued : queued text payload = s := by
    rw [queued, runFrom_of_checked hs]
    rfl
  rw [hqueued]
  exact reach_of_checked (rendered_of_rendersTo h hP) hs

/-- A text of whole lines fits, with line feeds and without a form feed. -/
def plainLines : TextOptions where
  mode := .raw
  lineEnding := .lf
  formFeed := false

theorem queuedRaw_le_plainLines :
    (queued "ab\n" (.raw [0x61, 0x62, 0x0A] none)).queuedRaw = 3 ∧
      (queued "ab\n" (.raw [0x61, 0x62, 0x0A] none)).queuedRaw ≤ counter.config.maxQueuedBytes := by
  have hrender : renderDocument noEncoders plainLines deskPrinter (counter.accepted deskPrinter)
      (.text "ab\n") = .ok (.raw [0x61, 0x62, 0x0A] none) := by
    decide +kernel
  have hfits : Document.Fits noEncoders plainLines deskPrinter (counter.accepted deskPrinter)
      (.text "ab\n") := by
    refine (renderDocument_fits _ _ _ _ _).mpr ?_
    intro payload hpayload
    obtain rfl := Except.ok.inj (hrender.symm.trans hpayload)
    decide +kernel
  refine ⟨by decide +kernel, queuedRaw_le (reach_queued hrender hfits ?_)⟩
  decide +kernel

/-- **Four tabs are reserved as four bytes and queued as thirty-five.** -/
theorem capacity_exceeded :
    ¬ ∀ s, Reach (step counter) (Rendered counter noEncoders fun _ _ _ _ => True) init s →
      s.queuedRaw ≤ counter.config.maxQueuedBytes := by
  intro h
  have hrender : renderDocument noEncoders { mode := .raw } deskPrinter
      (counter.accepted deskPrinter) (.text "\t\t\t\t") =
        .ok (.raw (List.replicate 32 0x20 ++ [0x0D, 0x0A, 0x0C]) none) := by
    decide +kernel
  have hle := h _ (reach_queued hrender True.intro (by decide +kernel))
  have hexceeded : (queued "\t\t\t\t" (.raw (List.replicate 32 0x20 ++ [0x0D, 0x0A, 0x0C])
      none)).queuedRaw = 35 := by
    decide +kernel
  rw [hexceeded] at hle
  exact absurd hle (by decide)

end KilnPrint
