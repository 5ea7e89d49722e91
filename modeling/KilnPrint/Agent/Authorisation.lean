/-
Authorisation is complete.

Twenty methods parse, authorise and act in their own order.  Whatever its
parameters are, each acts on jobs and sources only where the caller may, and
succeeds only for a caller with the permission it needs.

* `guarded_submit`, `guarded_cancelJob`, … — the operations;
* `guarded_dispatch` — all methods;
* `dispatch_authorised` — **the statement for `dispatch`**.
-/
import KilnPrint.Agent.Guarded

namespace KilnPrint

open Fallible Backend

variable {b : Backend} {who : Principal} {a₀ : Agent} {pre : Agent → Prop}

/-! ### Printers -/

theorem guarded_listPrinters :
    Guarded b who a₀ pre (who.has .printersRead = true) (Service.listPrinters b who)
      fun printers _ => ∀ p ∈ printers, who.printerScope.allows p = true := by
  refine guarded_require ?_
  intro hread
  refine harmless_printers.guards ?_
  intro printers
  refine guarded_pure hread ?_
  intro a _ p hp
  exact (List.mem_filter.mp hp).2

theorem guarded_defaultPrinter :
    Guarded b who a₀ pre (who.has .printersRead = true) (Service.defaultPrinter b who)
      fun printer _ => ∀ p ∈ printer, who.printerScope.allows p = true := by
  refine guarded_require ?_
  intro hread
  have hdefault : Harmless a₀ pre b.defaultPrinter fun _ _ => True :=
    harmless_printers.bind fun _ => harmless_pure fun _ _ => trivial
  refine hdefault.guards ?_
  intro printer
  refine guarded_pure hread ?_
  intro a _ p hp
  exact (Option.filter_eq_some_iff.mp hp).2

theorem guarded_getPrinter (selector : PrinterSelector) :
    Guarded b who a₀ pre (who.has .printersRead = true) (Service.getPrinter b who selector)
      fun r _ => who.printerScope.allows r.1 = true := by
  refine guarded_require ?_
  intro hread
  refine (harmless_visiblePrinter selector).guards ?_
  intro p a ha
  have hcaps : Harmless a₀ (fun a => p ∈ a.cache.byId ∧ who.printerScope.allows p = true)
    (b.capabilities p.id) _ := harmless_capabilities
  obtain ⟨hok, herr⟩ := hcaps a ha
  dsimp only
  split
  case h_1 caps a' h =>
    refine ⟨?_, ?_⟩
    · intro r a'' hr
      cases hr
      exact ⟨(hok caps a' h).1.lawful, hread, ha.2.2⟩
    · intro e a'' he
      cases he
  case h_2 e a' h =>
    refine ⟨?_, ?_⟩
    · intro r a'' hr
      cases hr
      exact ⟨(herr e a' h).lawful, hread, ha.2.2⟩
    · intro e' a'' he
      cases he

theorem guarded_printerCapabilities (selector : PrinterSelector) :
    Guarded b who a₀ pre (who.has .printersRead = true)
      (Service.printerCapabilities b who selector) fun caps a =>
        Confined b who a (.capabilities caps) := by
  refine guarded_require ?_
  intro hread
  refine (harmless_visiblePrinter selector).guards ?_
  intro p
  refine harmless_capabilities.guarded ?_
  rintro caps a ⟨hc, hp, hallows⟩
  exact ⟨hread, p, hp, hallows, hc⟩

/-! ### Printing -/

/-- A program whose one call is allowed. -/
theorem lawful_call {α : Type} {p : Service α} {c : ApiCall} (hc : Allowed b who a₀.jobs c)
    (hp : ∀ a, (p a).2.calls = a.calls ++ [c]) :
    Ensures (Lawful b who a₀) p (fun _ => Lawful b who a₀) (fun _ => Lawful b who a₀) := by
  have hstep : ∀ a, Lawful b who a₀ a → Lawful b who a₀ (p a).2 := by
    rintro a ⟨calls, hcalls, hall, -⟩
    refine ⟨calls ++ [c], ?_, ?_, ?_⟩
    · rw [hp, hcalls, List.append_assoc]
    · intro c' hc'
      rcases List.mem_append.mp hc' with hc' | hc'
      · exact hall c' hc'
      · rw [List.mem_singleton.mp hc']
        exact hc
    · intro hnil
      exact absurd hnil (List.append_ne_nil_of_right_ne_nil _ (List.cons_ne_nil _ _))
  intro a ha
  have h := hstep a ha
  refine ⟨?_, ?_⟩
  · intro r a' hr
    rw [hr] at h
    exact h
  · intro e a' he
    rw [he] at h
    exact h

theorem lawful_submit {request : PrintRequest} (h : who.has .print = true) :
    Ensures (Lawful b who a₀) (Service.submit b who request)
      (fun _ => Lawful b who a₀) (fun _ => Lawful b who a₀) := by
  refine Ensures.bind (.ofExcept (fun _ _ _ ha => ha) fun _ _ _ ha => ha) ?_
  intro _
  exact lawful_call (c := .submit who.submitter request) ⟨h, rfl⟩ fun _ => rfl

theorem guarded_submit (request : PrintRequest) :
    Guarded b who a₀ pre (who.has .print = true) (Service.submit b who request)
      fun _ _ => True := by
  refine guarded_require ?_
  intro hprint
  exact guarded_of_lawful hprint
    (lawful_call (c := .submit who.submitter request) ⟨hprint, rfl⟩ fun _ => rfl)

/-- The source is resolved only with the permission to print. -/
theorem guarded_submitPending (pending : PendingRequest) :
    Guarded b who a₀ pre (who.has .print = true) (Service.submitPending b who pending)
      fun _ _ => True := by
  refine guarded_require ?_
  intro hprint
  refine guarded_of_lawful hprint ?_
  refine Ensures.bind (lawful_call (c := .resolveSource pending.source) hprint fun _ => rfl) ?_
  intro data
  exact lawful_submit hprint

/-! ### Jobs -/

theorem guarded_listJobs (params : JobsListParams) :
    Guarded b who a₀ pre (who.has .jobsRead = true ∨ who.has .jobsReadAll = true)
      (Service.listJobs b who params) fun _ _ => True := by
  have hlist : who.has .jobsRead = true ∨ who.has .jobsReadAll = true →
      Guarded b who a₀ pre (who.has .jobsRead = true ∨ who.has .jobsReadAll = true)
        (do
          let statuses ← lift params.status.parse
          reading fun jobs => b.listed jobs (Service.jobFilter who params statuses))
        fun _ _ => True := by
    intro h
    refine guarded_lift ?_
    intro statuses _
    exact harmless_reading.guarded fun _ _ _ => ⟨h, trivial⟩
  unfold Service.listJobs
  dsimp only
  split
  · refine guarded_require ?_
    intro hread
    exact hlist (.inl hread)
  · refine hlist ?_
    grind

theorem canSee_readable {job : Job} (h : Service.canSee who job = true) :
    who.has .jobsRead = true ∨ who.has .jobsReadAll = true := by
  unfold Service.canSee at h
  rcases (Bool.or_eq_true _ _).mp h with h | h
  · exact .inr h
  · exact .inl ((Bool.and_eq_true _ _).mp h).1

/-- A job that was shown exists and may be seen. -/
theorem seen_eq_ok {id : JobId} {r : Except PrintError Job} {job : Job}
    (h : Service.seen who id r = .ok job) : r = .ok job ∧ Service.canSee who job = true := by
  cases r with
  | error e => cases h
  | ok j =>
    unfold Service.seen at h
    dsimp only at h
    split at h
    case isTrue hsee =>
      obtain rfl := Except.ok.inj h
      exact ⟨rfl, hsee⟩
    case isFalse => cases h

theorem harmless_getJob (id : JobId) :
    Harmless a₀ pre (Service.getJob b who id) fun job a =>
      (b.job a₀.jobs id = .ok job ∧ Service.canSee who job = true) ∧ pre a :=
  harmless_reading.mono fun _ _ h => ⟨seen_eq_ok h.1, h.2⟩

theorem guarded_getJob (id : JobId) :
    Guarded b who a₀ pre (who.has .jobsRead = true ∨ who.has .jobsReadAll = true)
      (Service.getJob b who id) fun _ _ => True :=
  (harmless_getJob id).guarded fun _ _ h => ⟨canSee_readable h.1.2, trivial⟩

theorem guarded_cancelJob (id : JobId) :
    Guarded b who a₀ pre (MayCancel b who a₀.jobs id) (Service.cancelJob b who id)
      fun _ _ => True := by
  have hcancel : MayCancel b who a₀.jobs id →
      Guarded b who a₀ pre (MayCancel b who a₀.jobs id) (b.callCancel id) fun _ _ => True :=
    fun h => guarded_of_lawful h (lawful_call (c := .cancel id) h fun _ => rfl)
  refine (harmless_getJob id).guards ?_
  intro job
  refine guarded_of_fact ?_
  rintro ⟨hjob, hsee⟩
  dsimp only
  split
  case isTrue hown =>
    split
    · refine guarded_require ?_
      intro hall
      exact hcancel ⟨job, hjob, hsee, .inl hall⟩
    case isFalse h =>
      refine hcancel ⟨job, hjob, hsee, .inr ⟨hown, ?_⟩⟩
      simpa using h
  case isFalse =>
    refine guarded_require ?_
    intro hall
    exact hcancel ⟨job, hjob, hsee, .inl hall⟩

/-! ### Queues and clients -/

theorem guarded_queueSummaries :
    Guarded b who a₀ pre (who.has .queueRead = true) (Service.queueSummaries b who)
      fun summaries a => ∀ q ∈ summaries, VisibleAs who a q.printerId q.printerName := by
  refine guarded_require ?_
  intro hread
  refine harmless_printers.guards ?_
  intro printers
  refine harmless_queueSummary.guards ?_
  intro summaries
  refine guarded_pure hread ?_
  rintro a ⟨hsummaries, rfl⟩ q hq
  obtain ⟨hq, hvisible⟩ := List.mem_filter.mp hq
  obtain ⟨p, hp, hid, hname⟩ := hsummaries q hq
  -- The id is that of a visible printer, and there is one printer of that id.
  obtain ⟨p', hp', hid'⟩ := List.mem_map.mp (List.contains_iff_mem.mp hvisible)
  obtain ⟨hp', hallows⟩ := List.mem_filter.mp hp'
  have hsame : some p' = some p := by
    rw [← findPrinter_id a.cache.inOrder hp', ← findPrinter_id a.cache.inOrder hp, hid, hid']
  obtain rfl := Option.some.inj hsame
  exact ⟨p', hp', hid, hname, hallows⟩

theorem guarded_printerQueue (selector : PrinterSelector) :
    Guarded b who a₀ pre (who.has .queueRead = true) (Service.printerQueue b who selector)
      fun snapshot a => VisibleAs who a snapshot.printerId snapshot.printerName := by
  refine guarded_require ?_
  intro hread
  refine (harmless_visiblePrinter selector).guards ?_
  intro p
  refine harmless_queue.guards ?_
  intro snapshot
  refine guarded_pure hread ?_
  rintro a ⟨⟨hid, hname⟩, hp, hallows⟩
  -- Redacting keeps the printer's id and name.
  split
  · exact ⟨p, hp, hid.symm, hname.symm, hallows⟩
  · exact ⟨p, hp, hid.symm, hname.symm, hallows⟩

theorem guarded_listClients :
    Guarded b who a₀ pre (who.has .clientsRead = true) (Service.listClients b who)
      fun _ _ => True := by
  refine guarded_require ?_
  intro hread
  exact guarded_pure hread fun _ _ => trivial

/-! ### Methods -/

section

variable {α β : Type} {P : Prop} {post : β → Agent → Prop} {params : Value}

theorem guarded_selected {f : PrinterSelector → Service β}
    (h : ∀ selector, Guarded b who a₀ pre P (f selector) post) :
    Guarded b who a₀ pre P (Service.selected b params >>= f) post := by
  have hselected : Harmless a₀ pre (Service.selected b params) fun _ => pre := by
    refine harmless_lift.bind ?_
    intro p
    exact harmless_lift.mono fun _ _ h => h.2.2
  exact hselected.guards h

theorem guarded_named {f : JobId → Service β}
    (h : ∀ p id, parseParams b.serde.jobId params = .ok p → p.parse b.serde = .ok id →
      Guarded b who a₀ pre P (f id) post) :
    Guarded b who a₀ pre P (Service.named b params >>= f) post := by
  have hnamed : Harmless a₀ pre (Service.named b params) fun id a =>
      (∃ p, parseParams b.serde.jobId params = .ok p ∧ p.parse b.serde = .ok id) ∧ pre a := by
    refine harmless_lift.bind ?_
    intro p
    exact harmless_lift.mono fun _ _ h => ⟨⟨p, h.2.1, h.1⟩, h.2.2⟩
  refine hnamed.guards ?_
  intro id
  refine guarded_of_fact ?_
  rintro ⟨p, hp, hid⟩
  exact h p id hp hid

theorem guarded_submitGeneric :
    Guarded b who a₀ pre (who.has .print = true) (Service.submitGeneric b who params)
      fun _ _ => True := by
  refine guarded_require ?_
  intro _
  refine guarded_lift ?_
  intro p _
  refine guarded_lift ?_
  intro typed _
  cases typed with
  | ready request => exact guarded_submit request
  | pending pending => exact guarded_submitPending pending

theorem guarded_submitTyped {decode : Value → Except String α}
    {intoRequest : α → Except PrintError PrintRequest} :
    Guarded b who a₀ pre (who.has .print = true)
      (Service.submitTyped b who decode intoRequest params) fun _ _ => True := by
  refine guarded_lift ?_
  intro p _
  refine guarded_lift ?_
  intro request _
  exact guarded_submit request

theorem guarded_submitBinary {decode : Value → Except String BinaryPrintParams}
    {build : Bytes → Document} :
    Guarded b who a₀ pre (who.has .print = true)
      (Service.submitBinary b who decode build params) fun _ _ => True := by
  refine guarded_lift ?_
  intro p _
  refine guarded_lift ?_
  intro pending _
  exact guarded_submitPending pending

end

/-- The parameters name one job. -/
theorem mayCancelNamed_iff {jobs : Jobs} {params : Value} {p : JobIdParams} {id : JobId}
    (hp : parseParams b.serde.jobId params = .ok p) (hid : p.parse b.serde = .ok id) :
    MayCancel b who jobs id ↔ MayCancelNamed b who jobs params := by
  constructor
  · intro h
    exact ⟨p, id, hp, hid, h⟩
  · rintro ⟨p', id', hp', hid', h⟩
    obtain rfl := Except.ok.inj (hp.symm.trans hp')
    obtain rfl := Except.ok.inj (hid.symm.trans hid')
    exact h

theorem guarded_dispatch (method : String) (params : Value) :
    Guarded b who a₀ pre (Permitted b who a₀.jobs params method)
      (Service.dispatch b who method params) fun reply a => Confined b who a reply := by
  unfold Service.dispatch
  dsimp only
  split
  · exact guarded_pure trivial fun _ _ => trivial
  · exact guarded_listPrinters.map fun _ _ h => h
  · exact guarded_defaultPrinter.map fun _ _ h => h
  · exact guarded_selected fun selector => (guarded_getPrinter selector).map fun _ _ h => h
  · exact guarded_selected fun selector => (guarded_printerCapabilities selector).map fun _ _ h => h
  · exact guarded_submitGeneric.map fun _ _ h => h
  · exact guarded_submitTyped.map fun _ _ h => h
  · exact guarded_submitTyped.map fun _ _ h => h
  · exact guarded_submitTyped.map fun _ _ h => h
  · exact guarded_submitTyped.map fun _ _ h => h
  · exact guarded_submitTyped.map fun _ _ h => h
  · exact guarded_submitTyped.map fun _ _ h => h
  · exact guarded_submitBinary.map fun _ _ h => h
  · exact guarded_submitBinary.map fun _ _ h => h
  · exact guarded_lift fun p _ => (guarded_listJobs p).map fun _ _ h => h
  · exact guarded_named fun _ id _ _ => (guarded_getJob id).map fun _ _ h => h
  · refine guarded_named ?_
    intro p id hp hid
    refine Guarded.mono ((guarded_cancelJob id).map fun _ _ h => h) ?_ fun _ _ h => h
    exact mayCancelNamed_iff hp hid
  · exact guarded_queueSummaries.map fun _ _ h => h
  · exact guarded_selected fun selector => (guarded_printerQueue selector).map fun _ _ h => h
  · exact guarded_listClients.map fun _ _ h => h
  · exact guarded_fail
  · exact guarded_fail

/-- **Authorisation is complete**: whatever is called with whatever parameters, only
allowed calls are made, and jobs change only through them; the call succeeds only
with the permission the method needs, and then its reply is about printers in the
caller's scope; without that permission the call fails and touches nothing. -/
theorem dispatch_authorised (b : Backend) (who : Principal) (a : Agent) (method : String)
    (params : Value) :
    let r := Service.dispatch b who method params a
    Lawful b who a r.2 ∧
      (∀ reply, r.1 = .ok reply →
        Permitted b who a.jobs params method ∧ Confined b who r.2 reply) ∧
      (¬ Permitted b who a.jobs params method → (∃ e, r.1 = .error e) ∧ Untouched a r.2) := by
  have hdispatch : Guarded b who a (fun _ => True) _ (Service.dispatch b who method params) _ :=
    guarded_dispatch method params
  obtain ⟨hok, herr⟩ := hdispatch a ⟨⟨rfl, rfl⟩, trivial⟩
  cases h : Service.dispatch b who method params a with
  | mk r a' =>
    cases r with
    | ok reply =>
      obtain ⟨hlawful, hpermitted, hconfined⟩ := hok reply a' h
      refine ⟨hlawful, ?_, ?_⟩
      · rintro reply' hr
        obtain rfl := Except.ok.inj hr
        exact ⟨hpermitted, hconfined⟩
      · intro hn
        exact absurd hpermitted hn
    | error e =>
      obtain ⟨hlawful, huntouched⟩ := herr e a' h
      refine ⟨hlawful, ?_, ?_⟩
      · intro reply hr
        cases hr
      · intro hn
        exact ⟨⟨e, rfl⟩, huntouched hn⟩

end KilnPrint
