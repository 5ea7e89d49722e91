/-
One printer's submissions: in the order of its channel, and one at a time.

* `Worker.ahead` — the items a worker has still to hand to the provider, in order;
* `code_ahead` — a worker takes its items in order, and each is for its printer;
* `Lined`, `Lined.step` — **the invariant**: one worker for each printer, and what the
  provider was called for, followed by what is ahead, is what was sent, in that order;
* `SentOnce` — a job enters a channel once;
* `printer_order` — **the statement for the engine**;
* `queued_order_broken` — jobs may enter the channel in another order than they became
  `QUEUED`.
-/
import KilnPrint.Engine.Accounting
import KilnPrint.Engine.Simulation
import KilnPrint.Engine.Sites

namespace KilnPrint

open Custody Runs

variable {env : Env} {s s₁ s' : State} {a : Action} {t u : TaskId} {inp : Input} {k : Task}

/-! ### Histories of a printer -/

def Entry.invokedOn (p : PrinterId) : Entry → Option JobId
  | invoked id p' => if p' = p then some id else none
  | _ => none

def Entry.sentTo (p : PrinterId) : Entry → Option JobId
  | sent id p' => if p' = p then some id else none
  | _ => none

def Entry.queuedFor (p : PrinterId) : Entry → Option JobId
  | applied _ id _ (some ⟨.queued, job⟩) => if job.printerId = some p then some id else none
  | _ => none

/-- The jobs the provider was called for, on this printer, in order. -/
def State.invokedOn (s : State) (p : PrinterId) : List JobId := s.log.filterMap (Entry.invokedOn p)

/-- The jobs that entered the printer's channel, in order. -/
def State.sentTo (s : State) (p : PrinterId) : List JobId := s.log.filterMap (Entry.sentTo p)

/-- The jobs that became `QUEUED` for the printer, in order. -/
def State.queuedFor (s : State) (p : PrinterId) : List JobId :=
  s.log.filterMap (Entry.queuedFor p)

/-! ### What is ahead of a worker -/

/-- The job of a call that has not entered the provider. -/
def Call.ahead (call : Call) : List JobId :=
  if call.phase = .spawned then [call.jobId] else []

def WorkerPc.ahead : WorkerPc → List JobId
  | claim item | lookup item => [item.jobId]
  | calling call | late call => call.ahead
  | _ => []

/-- The jobs a worker has still to hand to the provider, in order. -/
def Worker.ahead (w : Worker) : List JobId := w.pc.ahead ++ w.rx.map (·.jobId)

/-- The printers of the items and the call at a worker's point. -/
def WorkerPc.printers : WorkerPc → List PrinterId
  | claim item | lookup item => [item.printer.id]
  | calling call | late call => [call.printer.id]
  | _ => []

/-- A worker's items and its call are for its printer. -/
def Worker.Own (w : Worker) : Prop :=
  ∀ p ∈ w.pc.printers ++ w.rx.map (·.printer.id), p = w.printerId

theorem cachedPrinter_id {printers : List Printer} {id : PrinterId} {printer : Printer}
    (h : cachedPrinter printers id = some printer) : printer.id = id := by
  have hid := List.find?_some h
  simpa using hid

/-- **A worker's own steps keep the order of its items, and their printer.** -/
theorem code_ahead {w w' : Worker} (h : (code env inp (.worker w)).Continues (.worker w')) :
    w'.ahead.Sublist w.ahead ∧ (w.Own → w'.Own) := by
  obtain ⟨printer, rx, pc⟩ := w
  -- the channel stays, and the point leads nowhere new
  have hpoint : ∀ pc' : WorkerPc, pc'.ahead.Sublist pc.ahead →
      (∀ p ∈ pc'.printers, p ∈ pc.printers) →
      (Worker.ahead ⟨printer, rx, pc'⟩).Sublist (Worker.ahead ⟨printer, rx, pc⟩) ∧
        (Worker.Own ⟨printer, rx, pc⟩ → Worker.Own ⟨printer, rx, pc'⟩) := by
    intro pc' hahead hprinters
    refine ⟨hahead.append_right _, ?_⟩
    intro hown p hp
    rcases List.mem_append.mp hp with hp | hp
    · exact hown p (List.mem_append_left _ (hprinters p hp))
    · exact hown p (List.mem_append_right _ hp)
  have hnone : ∀ p ∈ ([] : List PrinterId), p ∈ pc.printers :=
    fun p hp => absurd hp List.not_mem_nil
  cases pc with
  | polling =>
    cases rx with
    | nil =>
      cases h
      exact hpoint _ (List.nil_sublist _) hnone
    | cons item rest =>
      cases h
      exact ⟨List.Sublist.refl _, fun hown => hown⟩
  | stopping =>
    cases h
    exact ⟨List.nil_sublist _, fun _ p hp => absurd hp List.not_mem_nil⟩
  | discard | watch =>
    cases h
    exact hpoint _ (List.nil_sublist _) hnone
  | idle =>
    obtain ⟨r, hr⟩ := h
    cases r <;> cases hr <;> exact hpoint _ (List.nil_sublist _) hnone
  | failing item e =>
    obtain ⟨r, hr⟩ := h
    cases hr
    exact hpoint _ (List.nil_sublist _) hnone
  | claim item =>
    obtain ⟨r, hr⟩ := h
    cases r with
    | none =>
      cases hr
      exact hpoint _ (List.nil_sublist _) hnone
    | some m =>
      cases hr
      exact hpoint _ (List.Sublist.refl _) fun p hp => hp
  | lookup item =>
    obtain ⟨printers, hr⟩ := h
    dsimp only at hr
    split at hr
    · cases hr
      refine hpoint _ (List.Sublist.refl _) ?_
      intro p hp
      obtain rfl := List.mem_singleton.mp hp
      cases hcached : cachedPrinter printers item.printer.id with
      | none => exact List.mem_singleton.mpr rfl
      | some printer' => exact List.mem_singleton.mpr (cachedPrinter_id hcached)
    · cases hr
      exact hpoint _ (List.nil_sublist _) hnone
  | calling call =>
    simp only [code, workerCode] at h
    split at h
    · obtain ⟨r, hr⟩ := h
      cases hr
      exact hpoint _ (List.Sublist.refl _) fun p hp => hp
    · split at h
      · next result hphase =>
        obtain ⟨r, hr⟩ := h
        cases hr
        unfold afterCall
        split <;> exact hpoint _ (List.nil_sublist _) hnone
      · exact absurd h not_false
  | late call =>
    simp only [code, workerCode] at h
    split at h
    · cases h
      exact hpoint _ (List.nil_sublist _) hnone
    · exact absurd h not_false
  | stopped => exact absurd h not_false

/-! ### Senders -/

theorem isOpen_iff : s.isOpen u = true ↔ ∃ w, s.task u = .worker w ∧ w.pc ≠ .stopped := by
  unfold State.isOpen
  cases htask : s.task u with
  | worker w => simp
  | _ => simp

/-- **A printer gets a channel where a call finds none that is open.** -/
theorem step_senders (h : step env s a = some s') :
    s'.senders = s.senders ∨ a = .crash ∨
    ∃ t inp who request p job, a = .run t inp ∧ s.task t = .submit who request (.sender p job) ∧
      (s.senders.lookup p.printer.id).filter s.isOpen = none ∧
      s'.task inp.fresh = .worker ⟨p.printer.id, [], .idle⟩ ∧
      s'.senders = s.senders.insert p.printer.id inp.fresh := by
  rcases step_shared h with ⟨t, inp, rfl⟩ | rfl | ⟨-, hsame⟩
  · rcases runTask_eq h with ⟨e, rfl⟩ | ⟨hp, s₁, k, hex, rfl⟩
    · exact .inl rfl
    · have hsite : Site (s.task t) (code env inp (s.task t)) := code_site _
      have hne : s.task t ≠ .none := ne_none_of_exec hex
      generalize htask : s.task t = task at hsite hex hne
      generalize hop : code env inp task = op at hsite hex
      cases exec_effect hex with
      | spawnWorker printer f hfresh hno =>
        cases hsite with
        | plain hplain => exact absurd hplain not_false
        | sender =>
          refine .inr (.inr ⟨t, inp, _, _, _, _, rfl, htask, hno, ?_, rfl⟩)
          have hfr : inp.fresh ≠ t := by
            rintro rfl
            exact hne (htask.symm.trans hfresh)
          rw [task_setTask_of_ne _ _ hfr, task_setTask_self]
      | mutate id ch f =>
        left
        unfold State.mutate
        split <;> rfl
      | _ => exact .inl rfl
  · exact .inr (.inl rfl)
  · exact .inl hsame.senders

/-- A worker stays one, for the same printer. -/
theorem worker_keeps {w : Worker} (h : step env s a = some s') (hcrash : a ≠ .crash)
    (hw : s.task u = .worker w) : ∃ w', s'.task u = .worker w' ∧ w'.printerId = w.printerId := by
  cases step_task h u with
  | touched htouch =>
    rw [hw] at htouch
    generalize s'.task u = new at htouch
    cases htouch with
    | same => exact ⟨w, rfl, rfl⟩
    | appended w item hopen => exact ⟨_, rfl, rfl⟩
  | ran ha hp hex hs =>
    rw [hw] at hex
    obtain ⟨w', rfl, hprinter, -⟩ := worker_turns (exec_continues hex)
    exact ⟨w', by rw [hs, task_setTask_self], hprinter⟩
  | phase hpc ha hold hnew =>
    rw [hw] at hold
    obtain rfl := Task.worker.inj hold
    exact ⟨_, hnew, rfl⟩
  | dropped ha hold hnew =>
    unfold State.awaits at hold
    rw [hw] at hold
    cases hold
  | crashed ha hnew => exact absurd ha hcrash
  | booted ha hu hold hnew | submitted ha hpc hold hnew | cancelled ha hold hnew
  | shutdown ha hold hnew =>
    rw [hw] at hold
    cases hold

/-- A call gets its channel where it asks for the printer's sender. -/
theorem sender_of_code {task : Task} {who : Submitter} {request : PrintRequest} {p : Prepared}
    {job : Job} {target : TaskId}
    (h : (code env inp task).Continues (.submit who request (.send p job target))) :
    task = .submit who request (.sender p job) := by
  have hkind := code_kind h
  cases task with
  | submit who' request' pc =>
    obtain ⟨pc', hpc, hflow⟩ := submit_flow h
    obtain ⟨rfl, rfl, rfl⟩ := Task.submit.inj hpc
    cases hflow
    rfl
  | _ => cases hkind

/-- One worker for each printer, and its channel is where the calls find it. -/
structure Staffed (s : State) : Prop where
  led : ∀ u w, s.task u = .worker w → w.pc ≠ .stopped → s.senders.lookup w.printerId = some u
  named : ∀ p u, s.senders.lookup p = some u → ∃ w, s.task u = .worker w ∧ w.printerId = p
  target : ∀ t who request p job u, s.task t = .submit who request (.send p job u) →
    ∃ w, s.task u = .worker w ∧ w.printerId = p.printer.id

namespace Staffed

theorem started : Staffed init where
  led u w h := (by cases h)
  named p u h := (by cases h)
  target t who request p job u h := (by cases h)

theorem unique (h : Staffed s) {w w' : Worker} (hw : s.task t = .worker w)
    (hw' : s.task u = .worker w') (hopen : w.pc ≠ .stopped) (hopen' : w'.pc ≠ .stopped)
    (hp : w.printerId = w'.printerId) : t = u := by
  have ht := h.led t w hw hopen
  have hu := h.led u w' hw' hopen'
  rw [hp, hu] at ht
  exact (Option.some.inj ht).symm

/-- A worker that has not stopped had not, or is new. -/
theorem open_before (h : step env s a = some s') {w' : Worker} (hw' : s'.task u = .worker w')
    (hopen : w'.pc ≠ .stopped) : s'.senders.lookup w'.printerId = some u ∨
      ∃ w, s.task u = .worker w ∧ w.pc ≠ .stopped ∧ w.printerId = w'.printerId := by
  cases step_worker h hw' with
  | same hold => exact .inr ⟨w', hold, hopen, rfl⟩
  | spawned ha htask hold hnew hsenders =>
    subst hnew
    left
    rw [hsenders, FinMap.lookup_insert_ite, if_pos rfl]
  | appended ha htask hold hopen' hnew hlog =>
    subst hnew
    exact .inr ⟨_, hold, hopen', rfl⟩
  | @ran inp w ha hold hcode =>
    obtain ⟨w'', heq, hprinter, -⟩ := worker_turns hcode
    obtain rfl := Task.worker.inj heq
    refine .inr ⟨w, hold, ?_, hprinter.symm⟩
    intro hstopped
    obtain ⟨printer, rx, pc⟩ := w
    obtain rfl : pc = .stopped := hstopped
    exact hcode
  | phase hpc ha hold hnew =>
    subst hnew
    refine .inr ⟨_, hold, ?_, rfl⟩
    rcases hpc with rfl | rfl <;> simp

theorem step (h : Staffed s) (hs : KilnPrint.step env s a = some s') : Staffed s' := by
  by_cases hcrash : a = .crash
  · subst hcrash
    obtain rfl := Option.some.inj hs
    exact ⟨fun u w hw => (by cases hw), fun p u hu => (by cases hu),
      fun t who request p job u ht => (by cases ht)⟩
  have hkeep : ∀ u p, (∃ w, s.task u = .worker w ∧ w.printerId = p) →
      ∃ w, s'.task u = .worker w ∧ w.printerId = p := by
    rintro u p ⟨w, hw, rfl⟩
    exact worker_keeps hs hcrash hw
  refine ⟨?_, ?_, ?_⟩
  · intro u w' hw' hopen
    rcases open_before hs hw' hopen with hnew | ⟨w, hw, hopen', hprinter⟩
    · exact hnew
    · have hled : s.senders.lookup w'.printerId = some u := hprinter ▸ h.led u w hw hopen'
      rcases step_senders hs with
        hsame | hcrash' | ⟨t, inp, who, request, q, job, -, -, hno, hnew, hsenders⟩
      · rw [hsame, hled]
      · exact absurd hcrash' hcrash
      · by_cases heq : w'.printerId = q.printer.id
        · -- its channel was open
          rw [← heq, hled, Option.filter_some, if_pos (isOpen_iff.mpr ⟨w, hw, hopen'⟩)] at hno
          cases hno
        · rw [hsenders, FinMap.lookup_insert_ite, if_neg heq, hled]
  · intro p u hu
    rcases step_senders hs with
      hsame | hcrash' | ⟨t, inp, who, request, q, job, -, -, -, hnew, hsenders⟩
    · rw [hsame] at hu
      exact hkeep u p (h.named p u hu)
    · exact absurd hcrash' hcrash
    · rw [hsenders, FinMap.lookup_insert_ite] at hu
      split at hu
      · next heq =>
        obtain rfl := Option.some.inj hu
        exact ⟨_, hnew, heq.symm⟩
      · exact hkeep u p (h.named p u hu)
  · intro t who request p job u ht
    cases step_submit hs ht with
    | same hold => exact hkeep u _ (h.target t who request p job u hold)
    | new ha hnone hnew => rcases hnew with hnew | ⟨e, hnew⟩ <;> cases hnew
    | @ran inp s₁ ha hp hex hs' =>
      have hsender : s.task t = .submit who request (.sender p job) :=
        sender_of_code (exec_continues hex)
      rw [hsender] at hex
      simp only [code, submitCode, exec] at hex
      split at hex
      · next w hw =>
        cases hex
        exact hkeep u _ (h.named _ _ (Option.filter_eq_some_iff.mp hw).1)
      · split at hex
        · next hfresh =>
          cases hex
          have hne : inp.fresh ≠ t := by
            rintro rfl
            rw [task_eq_none hfresh] at hsender
            cases hsender
          rw [hs', task_setTask_of_ne _ _ hne]
          exact ⟨_, task_setTask_self .., rfl⟩
        · cases hex

end Staffed

/-! ### In order -/

theorem invokedOn_append {es : List Entry} (h : s'.log = s.log ++ es) (p : PrinterId) :
    s'.invokedOn p = s.invokedOn p ++ es.filterMap (Entry.invokedOn p) := by
  rw [State.invokedOn, h, List.filterMap_append]
  rfl

theorem sentTo_append {es : List Entry} (h : s'.log = s.log ++ es) (p : PrinterId) :
    s'.sentTo p = s.sentTo p ++ es.filterMap (Entry.sentTo p) := by
  rw [State.sentTo, h, List.filterMap_append]
  rfl

/-- The provider is called by `invoke` steps. -/
theorem invokedOn_step (h : step env s a = some s') (ha : ∀ t, a ≠ .invoke t) (p : PrinterId) :
    s'.invokedOn p = s.invokedOn p := by
  obtain ⟨es, hlog, hlogs⟩ := step_logs h
  rw [invokedOn_append hlog]
  cases hlogs with
  | invoked ha' => exact absurd ha' (ha _)
  | _ => exact List.append_nil _

theorem sentTo_step (h : step env s a = some s') (p : PrinterId) :
    (s.sentTo p).Sublist (s'.sentTo p) := by
  obtain ⟨es, hlog, -⟩ := step_logs h
  rw [sentTo_append hlog]
  exact List.sublist_append_left _ _

theorem invoke_step (h : step env s (.invoke t) = some s') :
    ∃ call printer rx pc, (pc = WorkerPc.calling ∨ pc = WorkerPc.late) ∧
      s.task t = .worker ⟨printer, rx, pc call⟩ ∧ call.phase = .spawned ∧
      s' = (s.setTask t (.worker ⟨printer, rx, pc { call with phase := .running }⟩)).note
        (.invoked call.jobId call.printer.id) := by
  obtain ⟨call, hcall, h⟩ := Option.bind_eq_some_iff.mp h
  obtain ⟨printer, rx, pc, hpc, htask, hset⟩ := call_eq_some hcall
  split at h
  · next hphase =>
    refine ⟨call, printer, rx, pc, hpc, htask, hphase, ?_⟩
    rw [← hset]
    exact (Option.some.inj h).symm
  · cases h

/-- The provider was called for a printer's jobs as they were sent, and what is ahead of
its worker was sent after them. -/
structure Lined (s : State) : Prop where
  own : ∀ u w, s.task u = .worker w → w.Own
  turn : ∀ u w, s.task u = .worker w → w.pc ≠ .stopped →
    (s.invokedOn w.printerId ++ w.ahead).Sublist (s.sentTo w.printerId)
  base : ∀ p, (s.invokedOn p).Sublist (s.sentTo p)

namespace Lined

theorem started : Lined init where
  own u w h := (by cases h)
  turn u w h := (by cases h)
  base p := List.Sublist.refl _

theorem own_step (h : Lined s) (hstaffed : Staffed s) (hs : step env s a = some s') {w' : Worker}
    (hw' : s'.task u = .worker w') : w'.Own := by
  cases step_worker hs hw' with
  | same hold => exact h.own u w' hold
  | spawned ha htask hold hnew hsenders =>
    subst hnew
    exact fun p hp => absurd hp List.not_mem_nil
  | @appended t inp who request p job w ha htask hold hopen hnew hlog =>
    subst hnew
    obtain ⟨w₁, hw₁, hprinter⟩ := hstaffed.target t who request p job u htask
    obtain rfl := Task.worker.inj (hold.symm.trans hw₁)
    intro q hq
    rw [List.map_append, ← List.append_assoc] at hq
    rcases List.mem_append.mp hq with hq | hq
    · exact h.own u w hold q hq
    · obtain rfl := List.mem_singleton.mp hq
      exact hprinter.symm
  | ran ha hold hcode => exact (code_ahead hcode).2 (h.own u _ hold)
  | phase hpc ha hold hnew =>
    subst hnew
    have hown := h.own u _ hold
    rcases hpc with rfl | rfl <;> exact hown

/-- Another step than a call of the provider. -/
theorem turn_step (h : Lined s) (hs : step env s a = some s') (ha : ∀ t, a ≠ .invoke t) {w' : Worker}
    (hw' : s'.task u = .worker w') (hopen : w'.pc ≠ .stopped) :
    (s'.invokedOn w'.printerId ++ w'.ahead).Sublist (s'.sentTo w'.printerId) := by
  rw [invokedOn_step hs ha]
  cases step_worker hs hw' with
  | same hold => exact (h.turn u w' hold hopen).trans (sentTo_step hs _)
  | spawned ha' htask hold hnew hsenders =>
    subst hnew
    show (s.invokedOn _ ++ []).Sublist _
    rw [List.append_nil]
    exact (h.base _).trans (sentTo_step hs _)
  | @appended t inp who request p job w ha' htask hold hopen' hnew hlog =>
    subst hnew
    have hsent : s'.sentTo w.printerId = s.sentTo w.printerId ++ [p.jobId] := by
      rw [sentTo_append hlog]
      simp [Entry.sentTo]
    -- an item that is sent comes last in the channel and last in the log
    have hahead : Worker.ahead { w with rx := w.rx ++ [⟨p.jobId, p.printer, p.spec, p.size⟩] } =
        w.ahead ++ [p.jobId] := by
      simp [Worker.ahead]
    rw [hahead, hsent, ← List.append_assoc]
    exact (h.turn u w hold hopen').append_right _
  | @ran inp w ha' hold hcode =>
    obtain ⟨w₁, heq, hprinter, -⟩ := worker_turns hcode
    obtain rfl := Task.worker.inj heq
    have hopen' : w.pc ≠ .stopped := by
      intro hstopped
      obtain ⟨printer, rx, pc⟩ := w
      obtain rfl : pc = .stopped := hstopped
      exact hcode
    -- a step of the worker's own only shortens what is ahead of it
    have hturn := h.turn u w hold hopen'
    rw [hprinter]
    exact ((code_ahead hcode).1.append_left _).trans (hturn.trans (sentTo_step hs _))
  | @phase call phase printer rx pc hpc ha' hold hnew =>
    subst hnew
    rcases ha' with ⟨hinvoke, -⟩ | ⟨result, -, hrunning, rfl⟩
    · exact absurd hinvoke (ha u)
    · have hturn := h.turn u _ hold (by rcases hpc with rfl | rfl <;> simp)
      have hahead : Worker.ahead ⟨printer, rx, pc { call with phase := .finished result }⟩ =
          Worker.ahead ⟨printer, rx, pc call⟩ := by
        rcases hpc with rfl | rfl <;> simp [Worker.ahead, WorkerPc.ahead, Call.ahead, hrunning]
      rw [hahead]
      exact hturn.trans (sentTo_step hs _)

/-- A call of the provider is for the first item that is ahead. -/
theorem invoke (h : Lined s) (hstaffed : Staffed s) (hs : step env s (.invoke t) = some s') :
    (∀ u w, s'.task u = .worker w → w.pc ≠ .stopped →
      (s'.invokedOn w.printerId ++ w.ahead).Sublist (s'.sentTo w.printerId)) ∧
    ∀ p, (s'.invokedOn p).Sublist (s'.sentTo p) := by
  obtain ⟨call, printer, rx, pc, hpc, htask, hphase, hs'⟩ := invoke_step hs
  have hlog : s'.log = s.log ++ [.invoked call.jobId call.printer.id] := by
    rw [hs']
    rfl
  have hprinter : call.printer.id = printer := by
    refine h.own t _ htask _ (List.mem_append_left _ ?_)
    rcases hpc with rfl | rfl <;> exact List.mem_singleton.mpr rfl
  have hsent : ∀ p, s'.sentTo p = s.sentTo p := by
    intro p
    rw [sentTo_append hlog]
    exact List.append_nil _
  have hself : s'.invokedOn printer = s.invokedOn printer ++ [call.jobId] := by
    rw [invokedOn_append hlog]
    simp [Entry.invokedOn, hprinter]
  have hother : ∀ p, p ≠ printer → s'.invokedOn p = s.invokedOn p := by
    intro p hp
    rw [invokedOn_append hlog]
    simp [Entry.invokedOn, hprinter, Ne.symm hp]
  have hopen : (pc call) ≠ .stopped := by rcases hpc with rfl | rfl <;> simp
  -- the job of the call is the next in the order of the channel
  have hturn : (s.invokedOn printer ++ call.jobId :: rx.map (·.jobId)).Sublist
      (s.sentTo printer) := by
    have hahead : Worker.ahead ⟨printer, rx, pc call⟩ = call.jobId :: rx.map (·.jobId) := by
      rcases hpc with rfl | rfl <;> simp [Worker.ahead, WorkerPc.ahead, Call.ahead, hphase]
    have hbefore := h.turn t _ htask hopen
    rwa [hahead] at hbefore
  refine ⟨?_, ?_⟩
  · intro u w hw hopen'
    by_cases hu : u = t
    · subst hu
      rw [hs'] at hw
      have heq := Task.worker.inj ((task_setTask_self s u _).symm.trans hw)
      subst heq
      have hahead : Worker.ahead ⟨printer, rx, pc { call with phase := .running }⟩ =
          rx.map (·.jobId) := by
        rcases hpc with rfl | rfl <;> simp [Worker.ahead, WorkerPc.ahead, Call.ahead]
      rw [hahead, hsent, hself, List.append_assoc]
      exact hturn
    · have hw' : s.task u = .worker w := by
        rw [hs'] at hw
        exact (task_setTask_of_ne s _ hu).symm.trans hw
      -- a printer has one live worker, so another worker is of another printer
      have hne : w.printerId ≠ printer := by
        intro heq
        exact hu (hstaffed.unique hw' htask hopen' hopen heq)
      rw [hother _ hne, hsent]
      exact h.turn u w hw' hopen'
  · intro p
    rw [hsent]
    by_cases hp : p = printer
    · subst hp
      rw [hself]
      refine List.Sublist.trans ?_ hturn
      exact ((List.nil_sublist _).cons_cons _).append_left _
    · rw [hother p hp]
      exact h.base p

/-- **Every step keeps it.** -/
theorem step (h : Lined s) (hstaffed : Staffed s) (hs : KilnPrint.step env s a = some s') :
    Lined s' := by
  by_cases ha : ∃ t, a = .invoke t
  · obtain ⟨t, rfl⟩ := ha
    obtain ⟨hturn, hbase⟩ := h.invoke hstaffed hs
    exact ⟨fun u w hw => h.own_step hstaffed hs hw, hturn, hbase⟩
  · have hne : ∀ t, a ≠ .invoke t := fun t ht => ha ⟨t, ht⟩
    refine ⟨fun u w hw => h.own_step hstaffed hs hw, ?_, ?_⟩
    · intro u w hw hopen
      exact h.turn_step hs hne hw hopen
    · intro p
      rw [invokedOn_step hs hne]
      exact (h.base p).trans (sentTo_step hs p)

end Lined

/-! ### A job enters a channel once -/

def Entry.sentJob : Entry → Option JobId
  | sent id _ => some id
  | _ => none

/-- The jobs that entered a channel, in order. -/
def State.sents (s : State) : List JobId := s.log.filterMap Entry.sentJob

/-- A point of a submit call leads to points of the same job. -/
theorem holds_of_flow {pc pc' : SubmitPc} {id : JobId} {σ : Stage} (h : SubmitFlow pc pc')
    (hσ : (id, σ) ∈ pc'.holds) : ∃ τ, (id, τ) ∈ pc.holds := by
  cases h with
  | prepared id' printer warnings language payload p hp =>
    obtain ⟨rfl, -⟩ := Prod.mk.inj (List.mem_singleton.mp hσ)
    exact ⟨_, List.mem_singleton.mpr (by rw [hp])⟩
  | read id' bytes result =>
    cases result with
    | ok job => cases hσ
    | error e =>
      obtain ⟨rfl, -⟩ := Prod.mk.inj (List.mem_singleton.mp hσ)
      exact ⟨_, List.mem_singleton.mpr rfl⟩
  | @refused pc id' hjudging e =>
    obtain ⟨rfl, -⟩ := Prod.mk.inj (List.mem_singleton.mp hσ)
    cases pc <;> first
      | (obtain rfl := Option.some.inj hjudging
         exact ⟨_, List.mem_singleton.mpr rfl⟩)
      | cases hjudging
  | _ =>
    first
      | (obtain ⟨rfl, -⟩ := Prod.mk.inj (List.mem_singleton.mp hσ)
         exact ⟨_, List.mem_singleton.mpr rfl⟩)
      | cases hσ

/-- A submit call that has a job in hand had it before the step, or is new. -/
theorem submit_holds_before (h : step env s a = some s') {who : Submitter} {request : PrintRequest}
    {pc : SubmitPc} {id : JobId} {σ : Stage} (hu : s'.task u = .submit who request pc)
    (hσ : (id, σ) ∈ pc.holds) :
    (∃ pc₀ τ, s.task u = .submit who request pc₀ ∧ (id, τ) ∈ pc₀.holds) ∨ id = s.nextJob := by
  cases step_submit h hu with
  | same hold => exact .inl ⟨pc, σ, hold, hσ⟩
  | new ha hold hpc =>
    rcases hpc with rfl | ⟨e, rfl⟩
    · obtain ⟨rfl, -⟩ := Prod.mk.inj (List.mem_singleton.mp hσ)
      exact .inr rfl
    · cases hσ
  | ran ha hp hex hs =>
    left
    have hkind := code_kind (exec_continues hex)
    have hcode := exec_continues hex
    cases htask : s.task u with
    | submit who₀ request₀ pc₀ =>
      rw [htask] at hcode
      obtain ⟨pc', hpc, hflow⟩ := submit_flow hcode
      obtain ⟨rfl, rfl, rfl⟩ := Task.submit.inj hpc
      obtain ⟨τ, hτ⟩ := holds_of_flow hflow hσ
      exact ⟨pc₀, τ, rfl, hτ⟩
    | _ =>
      rw [htask] at hkind
      cases hkind

/-- A job that was sent is in no submit call's hands, and was sent once. -/
structure SentOnce (s : State) : Prop where
  drawn : ∀ id ∈ s.sents, id < s.nextJob
  gone : ∀ id ∈ s.sents, ∀ t who request pc, s.task t = .submit who request pc →
    ∀ σ, (id, σ) ∉ pc.holds
  once : s.sents.Nodup

theorem SentOnce.started : SentOnce init where
  drawn id h := (by cases h)
  gone id h := (by cases h)
  once := List.nodup_nil

theorem sents_append {es : List Entry} (h : s'.log = s.log ++ es) :
    s'.sents = s.sents ++ es.filterMap Entry.sentJob := by
  rw [State.sents, h, List.filterMap_append]
  rfl

/-- A call that has sent its job is at its end. -/
theorem sent_step {who : Submitter} {request : PrintRequest} {p : Prepared} {job : Job}
    {target : TaskId} {w : Worker} (h : step env s (.run t inp) = some s')
    (hp : s.pendingEvent t = none) (htask : s.task t = .submit who request (.send p job target))
    (hw : s.task target = .worker w) (hopen : w.pc ≠ .stopped)
    (hlog : s'.log = s.log ++ [.sent p.jobId w.printerId]) :
    s'.task t = .submit who request (.done (.ok job)) := by
  have h' : runTask env s t inp = some s' := h
  simp only [runTask, hp, htask, code, submitCode, exec, hw, if_neg hopen] at h'
  split at h'
  · obtain rfl := Option.some.inj h'
    exact task_setTask_self ..
  · -- the channel is full, and nothing is written
    obtain rfl := Option.some.inj h'
    have hlength := congrArg List.length hlog
    simp [State.setTask] at hlength

/-- **A step sends a job at most once.** -/
theorem SentOnce.step (h : SentOnce s) (hw : Wf s) (hs : KilnPrint.step env s a = some s') :
    SentOnce s' := by
  obtain ⟨mv, -, -, hmove⟩ := step_refines hw hs
  have hnext : s.nextJob ≤ s'.nextJob := hmove.next_le
  have hbefore : ∀ id ∈ s.sents, ∀ t who request pc, s'.task t = .submit who request pc →
      ∀ σ, (id, σ) ∉ pc.holds := by
    intro id hid t who request pc htask σ hσ
    rcases submit_holds_before hs htask hσ with ⟨pc₀, τ, hold, hτ⟩ | hnew
    · exact h.gone id hid t who request pc₀ hold τ hτ
    · exact Nat.lt_irrefl _ (hnew ▸ h.drawn id hid)
  obtain ⟨es, hlog, hlogs⟩ := step_logs hs
  have hsents := sents_append hlog
  cases hlogs with
  | @sent t inp who request p job target w ha hp htask hw' hopen =>
    subst ha
    have hσ : (p.jobId, Stage.queued) ∈ (s.task t).holds := by
      rw [htask]
      exact List.mem_singleton.mpr rfl
    have hlt : p.jobId < s.nextJob := hw.inv.custodyLt _ _ (custody_of_holds hw.exclusive hσ)
    have hfirst : p.jobId ∉ s.sents := by
      intro hmem
      exact h.gone _ hmem t who request _ htask _ (List.mem_singleton.mpr rfl)
    have hsents' : s'.sents = s.sents ++ [p.jobId] := hsents
    refine ⟨?_, ?_, ?_⟩
    · intro id hid
      rw [hsents'] at hid
      rcases List.mem_append.mp hid with hid | hid
      · exact lt_of_lt_of_le (h.drawn id hid) hnext
      · obtain rfl := List.mem_singleton.mp hid
        exact lt_of_lt_of_le hlt hnext
    · intro id hid u who' request' pc hu σ hσ'
      rw [hsents'] at hid
      rcases List.mem_append.mp hid with hid | hid
      · exact hbefore id hid u who' request' pc hu σ hσ'
      · obtain rfl := List.mem_singleton.mp hid
        rcases submit_holds_before hs hu hσ' with ⟨pc₀, τ, hold, hτ⟩ | hnew
        · -- the job is in one place, and has moved on
          have hτ' : (p.jobId, τ) ∈ (s.task u).holds := by
            rw [hold]
            exact hτ
          obtain rfl := hw.exclusive.unique (mem_keys_of_mem hσ) (mem_keys_of_mem hτ')
          rw [sent_step hs hp htask hw' hopen hlog] at hu
          obtain ⟨rfl, rfl, rfl⟩ := Task.submit.inj hu
          cases hσ'
        · exact Nat.lt_irrefl _ (hnew ▸ hlt)
    · rw [hsents']
      refine List.nodup_append.mpr ⟨h.once, List.nodup_singleton _, ?_⟩
      intro id hid id' hid' heq
      obtain rfl := List.mem_singleton.mp hid'
      exact hfirst (heq ▸ hid)
  | _ =>
    have hsents' : s'.sents = s.sents := hsents.trans (List.append_nil _)
    refine ⟨?_, ?_, hsents' ▸ h.once⟩
    · intro id hid
      exact lt_of_lt_of_le (h.drawn id (hsents' ▸ hid)) hnext
    · intro id hid
      exact hbefore id (hsents' ▸ hid)

theorem sentTo_sublist (s : State) (p : PrinterId) : (s.sentTo p).Sublist s.sents := by
  unfold State.sentTo State.sents
  induction s.log with
  | nil => exact List.Sublist.refl _
  | cons e es ih =>
    cases e with
    | sent id p' =>
      by_cases hp : p' = p
      · simpa [Entry.sentTo, Entry.sentJob, hp] using ih
      · simpa [Entry.sentTo, Entry.sentJob, hp] using ih.cons _
    | _ => exact ih

/-! ### The engine -/

/-- A call of the provider that is in progress, its watchdog expired or not. -/
def State.submitting (s : State) (t : TaskId) (p : PrinterId) : Prop :=
  ∃ call, s.call t = some call ∧ call.phase = .running ∧ call.printer.id = p

theorem lined_of_reach (h : Runs.Reach (step env) (fun _ _ => True) init s) :
    Staffed s ∧ Lined s ∧ SentOnce s := by
  induction h with
  | refl => exact ⟨.started, .started, .started⟩
  | tail hreach _ hs ih =>
    obtain ⟨hstaffed, hlined, honce⟩ := ih
    exact ⟨hstaffed.step hs, hlined.step hstaffed hs, honce.step (wf_of_reach hreach) hs⟩

/-- **One printer's submissions happen one at a time, and in the order in which the jobs
entered the printer's channel**: two calls of `provider.submit` for one printer are never in
progress together, one whose watchdog has expired included; and the jobs the provider was
called for are jobs that were sent to the printer, in that order, each at most once. -/
theorem printer_order (h : Runs.Reach (step env) (fun _ _ => True) init s) (p : PrinterId) :
    (∀ t u, s.submitting t p → s.submitting u p → t = u) ∧
      (s.invokedOn p).Sublist (s.sentTo p) ∧ (s.sentTo p).Nodup := by
  obtain ⟨hstaffed, hlined, honce⟩ := lined_of_reach h
  refine ⟨?_, hlined.base p, (sentTo_sublist s p).nodup honce.once⟩
  have hworker : ∀ t, s.submitting t p → ∃ w, s.task t = .worker w ∧ w.pc ≠ .stopped ∧
      w.printerId = p := by
    rintro t ⟨call, hcall, -, rfl⟩
    obtain ⟨printer, rx, pc, hpc, htask, -⟩ := call_eq_some hcall
    refine ⟨_, htask, ?_, ?_⟩
    · rcases hpc with rfl | rfl <;> simp
    · refine (hlined.own t _ htask _ (List.mem_append_left _ ?_)).symm
      rcases hpc with rfl | rfl <;> exact List.mem_singleton.mpr rfl
  intro t u ht hu
  obtain ⟨w, hw, hopen, hprinter⟩ := hworker t ht
  obtain ⟨w', hw', hopen', hprinter'⟩ := hworker u hu
  exact hstaffed.unique hw hw' hopen hopen' (hprinter.trans hprinter'.symm)

/-- Two jobs for one printer: one is printed, the other is in the provider's hands. -/
def handedRun : List Action :=
  booting ++ submitting 1 2 ++ printing 2 (.outcome .delivered) ++ [.run 2 {}] ++
    [.submit 3 clerk (receipt none) 0] ++ List.replicate 18 (.run 3 {}) ++
    List.replicate 4 (.run 2 {}) ++ [.invoke 2]

theorem printer_order_handed :
    (after handedRun).invokedOn "desk" = [0, 1] ∧
      (after handedRun).submitting 2 "desk" ∧
      (∀ t u, (after handedRun).submitting t "desk" → (after handedRun).submitting u "desk" →
        t = u) ∧
      ((after handedRun).invokedOn "desk").Sublist ((after handedRun).sentTo "desk") ∧
      ((after handedRun).sentTo "desk").Nodup := by
  have hcall : ((after handedRun).call 2).map (fun call => (call.phase, call.printer.id)) =
      some (.running, "desk") := by decide +kernel
  obtain ⟨call, hcall, heq⟩ := Option.map_eq_some_iff.mp hcall
  refine ⟨by decide +kernel, ⟨call, hcall, congrArg Prod.fst heq, congrArg Prod.snd heq⟩, ?_⟩
  exact printer_order (reach_after (fun _ _ => True) handedRun (by decide +kernel)) "desk"

/-- Two calls queue their jobs one after the other, and send them the other way round. -/
def crossing : List Action :=
  booting ++ [.submit 1 clerk (receipt none) 0] ++ List.replicate 16 (.run 1 {}) ++
    [.submit 3 clerk (receipt none) 0] ++ List.replicate 16 (.run 3 {}) ++
    [.run 3 { fresh := 2 }, .run 3 {}, .run 1 {}, .run 1 {}] ++
    printing 2 (.outcome .delivered) ++ [.run 2 {}] ++ printing 2 (.outcome .delivered)

/-- **The provider gets the jobs in another order than they became `QUEUED`.** -/
theorem queued_order_broken :
    Runs.Reach (step desk) (fun _ _ => True) init (after crossing) ∧
      (after crossing).queuedFor "desk" = [0, 1] ∧
      (after crossing).invokedOn "desk" = [1, 0] ∧
      ¬ ((after crossing).invokedOn "desk").Sublist ((after crossing).queuedFor "desk") :=
  ⟨reach_after _ crossing (by decide +kernel), by decide +kernel, by decide +kernel,
    by decide +kernel⟩

end KilnPrint
