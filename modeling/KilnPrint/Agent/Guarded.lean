/-
What a caller may do, and programs that do no more.

* `Allowed` — when the caller may make a call;
* `Permitted` — the permission a method needs;
* `Confined` — a reply names only printers in the caller's scope;
* `Harmless` — programs that only read, with the rules for them;
* `Guarded` — the triple of an operation that needs a permission;
* `harmless_printers`, `harmless_resolvePrinter`, … — what the engine's queries find.
-/
import KilnPrint.Agent.Service

namespace KilnPrint

open Fallible Backend

/-! ### What a caller may do -/

/-- The caller may cancel the job. -/
def MayCancel (b : Backend) (who : Principal) (jobs : Jobs) (id : JobId) : Prop :=
  ∃ job, b.job jobs id = .ok job ∧ Service.canSee who job = true ∧
    (who.has .jobsCancelAll = true ∨ (job.clientId = who.clientId ∧ who.has .jobsCancel = true))

/-- The caller may make the call. -/
def Allowed (b : Backend) (who : Principal) (jobs : Jobs) : ApiCall → Prop
  | .submit submitter _ => who.has .print = true ∧ submitter = who.submitter
  | .resolveSource _ => who.has .print = true
  | .cancel id => MayCancel b who jobs id

/-- The job that the parameters name may be cancelled by the caller. -/
def MayCancelNamed (b : Backend) (who : Principal) (jobs : Jobs) (params : Value) : Prop :=
  ∃ p id, parseParams b.serde.jobId params = .ok p ∧ p.parse b.serde = .ok id ∧
    MayCancel b who jobs id

/-- The caller has the permission that the method needs. -/
def Permitted (b : Backend) (who : Principal) (jobs : Jobs) (params : Value) : String → Prop
  | "printers.list" | "printers.default" | "printers.get" | "printers.capabilities" =>
    who.has .printersRead = true
  | "print.submit" | "print.raw" | "print.text" | "print.html" | "print.label" | "print.receipt"
  | "print.dotmatrix" | "print.pdf" | "print.image" => who.has .print = true
  | "jobs.list" | "jobs.get" => who.has .jobsRead = true ∨ who.has .jobsReadAll = true
  | "jobs.cancel" => MayCancelNamed b who jobs params
  | "queue.list" | "queue.get" => who.has .queueRead = true
  | "clients.list" => who.has .clientsRead = true
  | _ => True

/-- The printer of this id and name is in the caller's scope. -/
def VisibleAs (who : Principal) (a : Agent) (id : PrinterId) (name : String) : Prop :=
  ∃ p ∈ a.cache.byId, p.id = id ∧ p.name = name ∧ who.printerScope.allows p = true

/-- The reply is about printers in the caller's scope. -/
def Confined (b : Backend) (who : Principal) (a : Agent) : Service.Reply → Prop
  | .printers printers => ∀ p ∈ printers, who.printerScope.allows p = true
  | .defaultPrinter printer => ∀ p ∈ printer, who.printerScope.allows p = true
  | .printer printer _ => who.printerScope.allows printer = true
  | .capabilities caps => ∃ p ∈ a.cache.byId, who.printerScope.allows p = true ∧
      ∃ c, b.providerCapabilities p = .ok c ∧ caps.raw = c.raw
  | .summaries summaries => ∀ q ∈ summaries, VisibleAs who a q.printerId q.printerName
  | .queue snapshot => VisibleAs who a snapshot.printerId snapshot.printerName
  | _ => True

section

variable (b : Backend) (who : Principal) (a₀ : Agent)

/-- No call was made and no job changed. -/
def Untouched (a : Agent) : Prop := a.jobs = a₀.jobs ∧ a.calls = a₀.calls

/-- Only allowed calls were made, and only they changed jobs. -/
def Lawful (a : Agent) : Prop :=
  ∃ calls, a.calls = a₀.calls ++ calls ∧ (∀ c ∈ calls, Allowed b who a₀.jobs c) ∧
    (calls = [] → a.jobs = a₀.jobs)

variable {b who a₀} in
theorem Untouched.lawful {a : Agent} (h : Untouched a₀ a) : Lawful b who a₀ a :=
  ⟨[], by rw [h.2, List.append_nil], fun c hc => absurd hc List.not_mem_nil, fun _ => h.1⟩

/-- A program that, begun with `pre`, makes no call and changes no job. -/
def Harmless {α : Type} (pre : Agent → Prop) (p : Service α) (post : α → Agent → Prop) : Prop :=
  Ensures (fun a => Untouched a₀ a ∧ pre a) p (fun r a => Untouched a₀ a ∧ post r a)
    (fun _ => Untouched a₀)

/-- **An operation that needs `P`**: begun with `pre`, it makes allowed calls only,
succeeds only under `P` and then with `post`, and does nothing without `P`. -/
def Guarded {α : Type} (pre : Agent → Prop) (P : Prop) (p : Service α)
    (post : α → Agent → Prop) : Prop :=
  Ensures (fun a => Untouched a₀ a ∧ pre a) p (fun r a => Lawful b who a₀ a ∧ P ∧ post r a)
    (fun _ a => Lawful b who a₀ a ∧ (¬ P → Untouched a₀ a))

end

section

variable {b : Backend} {who : Principal} {a₀ : Agent} {α β : Type} {P : Prop}
  {pre : Agent → Prop} {post : α → Agent → Prop}

/-! ### Harmless programs -/

theorem Harmless.mono {p : Service α} {post' : α → Agent → Prop} (h : Harmless a₀ pre p post)
    (hpost : ∀ r a, post r a → post' r a) : Harmless a₀ pre p post' :=
  Ensures.mono (fun _ h => h) (fun r a ha => ⟨ha.1, hpost r a ha.2⟩) (fun _ _ h => h) h

theorem Harmless.bind {p : Service α} {f : α → Service β} {post' : β → Agent → Prop}
    (hp : Harmless a₀ pre p post) (hf : ∀ r, Harmless a₀ (post r) (f r) post') :
    Harmless a₀ pre (p >>= f) post' :=
  Ensures.bind hp hf

theorem harmless_pure {r : α} (h : ∀ a, pre a → post r a) :
    Harmless a₀ pre (pure r : Service α) post :=
  .pure fun a ha => ⟨ha.1, h a ha.2⟩

theorem harmless_fail {e : PrintError} : Harmless a₀ pre (Fallible.fail e : Service α) post :=
  .fail fun _ ha => ha.1

/-- What was known before a check is known after it. -/
theorem harmless_lift {r : Except PrintError α} :
    Harmless a₀ pre (lift r) fun x a => r = .ok x ∧ pre a :=
  .ofExcept (fun _ _ hr ha => ⟨ha.1, hr, ha.2⟩) fun _ _ _ ha => ha.1

theorem harmless_require (permission : Permission) :
    Harmless a₀ pre (Service.require who permission) fun _ a =>
      who.has permission = true ∧ pre a :=
  harmless_lift.mono fun _ _ h => ⟨Principal.require_eq_ok.mp h.1, h.2⟩

theorem harmless_reading {f : Jobs → Except PrintError α} :
    Harmless a₀ pre (reading f) fun r a => f a₀.jobs = .ok r ∧ pre a := by
  intro a ha
  refine ⟨?_, ?_⟩
  · intro r a' h
    obtain ⟨hr, rfl⟩ := Prod.mk.inj h
    exact ⟨ha.1, by rw [← ha.1.1]; exact hr, ha.2⟩
  · intro e a' h
    obtain ⟨-, rfl⟩ := Prod.mk.inj h
    exact ha.1

/-! ### Guarded operations -/

/-- An operation that begins by parsing, by a check, or by looking something up. -/
theorem Harmless.guards {p : Service α} {f : α → Service β} {post' : β → Agent → Prop}
    (hp : Harmless a₀ pre p post) (hf : ∀ r, Guarded b who a₀ (post r) P (f r) post') :
    Guarded b who a₀ pre P (p >>= f) post' :=
  Ensures.bind (Ensures.mono (fun _ h => h) (fun _ _ h => h)
    (fun _ _ h => ⟨h.lawful, fun _ => h⟩) hp) hf

/-- A fact the state has no part in. -/
theorem guarded_of_fact {Q : Prop} {p : Service α} (h : Q → Guarded b who a₀ pre P p post) :
    Guarded b who a₀ (fun a => Q ∧ pre a) P p post :=
  fun a ha => h ha.2.1 a ⟨ha.1, ha.2.2⟩

theorem guarded_require {permission : Permission} {f : Unit → Service α}
    (h : who.has permission = true → Guarded b who a₀ pre P (f ()) post) :
    Guarded b who a₀ pre P (Service.require who permission >>= f) post :=
  (harmless_require permission).guards fun _ => guarded_of_fact h

theorem guarded_lift {r : Except PrintError α} {f : α → Service β} {post' : β → Agent → Prop}
    (h : ∀ x, r = .ok x → Guarded b who a₀ pre P (f x) post') :
    Guarded b who a₀ pre P (lift r >>= f) post' :=
  harmless_lift.guards fun x => guarded_of_fact (h x)

theorem guarded_pure {r : α} (hP : P) (h : ∀ a, pre a → post r a) :
    Guarded b who a₀ pre P (pure r : Service α) post :=
  .pure fun a ha => ⟨ha.1.lawful, hP, h a ha.2⟩

/-- A harmless program whose success shows `P`. -/
theorem Harmless.guarded {p : Service α} {post' : α → Agent → Prop}
    (hp : Harmless a₀ pre p post) (h : ∀ r a, post r a → P ∧ post' r a) :
    Guarded b who a₀ pre P p post' :=
  Ensures.mono (fun _ h => h) (fun r a ha => ⟨ha.1.lawful, h r a ha.2⟩)
    (fun _ _ h => ⟨h.lawful, fun _ => h⟩) hp

theorem Guarded.mono {p : Service α} {P' : Prop} {post' : α → Agent → Prop}
    (h : Guarded b who a₀ pre P p post) (hP : P ↔ P') (hpost : ∀ r a, post r a → post' r a) :
    Guarded b who a₀ pre P' p post' := by
  rw [Guarded, ← hP]
  exact Ensures.mono (fun _ h => h) (fun r a ha => ⟨ha.1, ha.2.1, hpost r a ha.2.2⟩)
    (fun _ _ h => h) h

/-- The reply is made of the result. -/
theorem Guarded.map {p : Service α} {f : α → β} {post' : β → Agent → Prop}
    (h : Guarded b who a₀ pre P p post) (hpost : ∀ r a, post r a → post' (f r) a) :
    Guarded b who a₀ pre P (p >>= fun r => pure (f r)) post' :=
  Ensures.bind h fun r => .pure fun a ha => ⟨ha.1, ha.2.1, hpost r a ha.2.2⟩

/-- Once `P` is known, only the calls matter. -/
theorem guarded_of_lawful {p : Service α} (hP : P)
    (h : Ensures (Lawful b who a₀) p (fun _ => Lawful b who a₀) (fun _ => Lawful b who a₀)) :
    Guarded b who a₀ pre P p fun _ _ => True :=
  Ensures.mono (fun _ ha => ha.1.lawful) (fun _ _ ha => ⟨ha, hP, trivial⟩)
    (fun _ _ ha => ⟨ha, fun hn => absurd hP hn⟩) h

/-- A program that refuses, whatever it would need. -/
theorem guarded_fail {e : PrintError} :
    Guarded b who a₀ pre P (Fallible.fail e : Service α) post :=
  .fail fun _ ha => ⟨ha.1.lawful, fun _ => ha.1⟩

/-! ### Printers -/

theorem untouched_refreshIfStale {a : Agent} (h : Untouched a₀ a) :
    Untouched a₀ (b.refreshIfStale a) := by
  unfold refreshIfStale
  split
  · exact h
  · exact h

/-- `printers` answers from a cache that has been filled. -/
theorem harmless_printers :
    Harmless a₀ pre b.printers fun printers a =>
      printers = a.cache.byId ∧ a.cache.lastRefresh.isSome = true := by
  refine .act fun a ha => ?_
  dsimp only
  split
  case isTrue h => exact ⟨ha.1, rfl, rfl⟩
  case isFalse h =>
    refine ⟨ha.1, rfl, ?_⟩
    rw [Bool.not_eq_true, Option.isNone_eq_false_iff] at h
    exact h

/-- A cache that has been filled is not refreshed. -/
theorem harmless_printers_again :
    Harmless a₀ (fun a => pre a ∧ a.cache.lastRefresh.isSome = true) b.printers
      fun printers a => printers = a.cache.byId ∧ pre a := by
  refine .act fun a ha => ?_
  have h : a.cache.lastRefresh.isNone = false := Option.isNone_eq_false_iff.mpr ha.2.2
  simp only [h, Bool.false_eq_true, if_false]
  exact ⟨ha.1, trivial, ha.2.1⟩

theorem harmless_resolvePrinter (selector : PrinterSelector) :
    Harmless a₀ pre (b.resolvePrinter selector) fun p a => p ∈ a.cache.byId := by
  intro a ha
  unfold resolvePrinter
  split
  case h_1 p hp =>
    refine ⟨?_, ?_⟩
    · intro r a' h
      obtain ⟨hr, rfl⟩ := Prod.mk.inj h
      obtain rfl := Except.ok.inj hr
      exact ⟨ha.1, mem_of_findPrinter hp⟩
    · intro e a' h
      cases (Prod.mk.inj h).1
  case h_2 hp =>
    dsimp only
    split
    case h_1 p hp =>
      refine ⟨?_, ?_⟩
      · intro r a' h
        obtain ⟨hr, rfl⟩ := Prod.mk.inj h
        obtain rfl := Except.ok.inj hr
        exact ⟨untouched_refreshIfStale ha.1, mem_of_findPrinter hp⟩
      · intro e a' h
        cases (Prod.mk.inj h).1
    case h_2 =>
      refine ⟨?_, ?_⟩
      · intro r a' h
        cases (Prod.mk.inj h).1
      · intro e a' h
        obtain ⟨-, rfl⟩ := Prod.mk.inj h
        exact untouched_refreshIfStale ha.1

/-- A printer of the cache is found again by its id. -/
theorem harmless_resolvePrinter_again {p : Printer} :
    Harmless a₀ (fun a => p ∈ a.cache.byId ∧ pre a) (b.resolvePrinter (.id p.id))
      fun r a => r = p ∧ p ∈ a.cache.byId ∧ pre a := by
  intro a ha
  have hfind := findPrinter_id a.cache.inOrder ha.2.1
  unfold resolvePrinter
  rw [hfind]
  refine ⟨?_, ?_⟩
  · intro r a' h
    obtain ⟨hr, rfl⟩ := Prod.mk.inj h
    exact ⟨ha.1, (Except.ok.inj hr).symm, ha.2⟩
  · intro e a' h
    cases (Prod.mk.inj h).1

theorem harmless_visiblePrinter (selector : PrinterSelector) :
    Harmless a₀ pre (Service.visiblePrinter b who selector) fun p a =>
      p ∈ a.cache.byId ∧ who.printerScope.allows p = true := by
  refine (harmless_resolvePrinter selector).bind ?_
  intro p
  split
  case isTrue h => exact harmless_pure fun a ha => ⟨ha, h⟩
  case isFalse => exact harmless_fail

theorem harmless_capabilities {p : Printer} :
    Harmless a₀ (fun a => p ∈ a.cache.byId ∧ pre a) (b.capabilities p.id) fun caps a =>
      (∃ c, b.providerCapabilities p = .ok c ∧ caps.raw = c.raw) ∧ p ∈ a.cache.byId ∧ pre a := by
  refine harmless_resolvePrinter_again.bind ?_
  intro r
  refine harmless_lift.bind ?_
  intro provider
  refine harmless_lift.bind ?_
  intro c
  refine harmless_pure ?_
  rintro a ⟨hc, -, rfl, ha⟩
  exact ⟨⟨c, hc, rfl⟩, ha⟩

theorem harmless_queue {p : Printer} :
    Harmless a₀ (fun a => p ∈ a.cache.byId ∧ pre a) (b.queue p.id) fun snapshot a =>
      (snapshot.printerId = p.id ∧ snapshot.printerName = p.name) ∧ p ∈ a.cache.byId ∧ pre a := by
  refine harmless_resolvePrinter_again.bind ?_
  intro r
  refine harmless_lift.bind ?_
  intro provider
  refine harmless_lift.bind ?_
  intro entries
  refine .act ?_
  rintro a ⟨hu, -, -, rfl, ha⟩
  exact ⟨hu, ⟨rfl, rfl⟩, ha⟩

theorem harmless_queueSummary :
    Harmless a₀ (fun a => pre a ∧ a.cache.lastRefresh.isSome = true) b.queueSummary
      fun summaries a => (∀ q ∈ summaries, ∃ p ∈ a.cache.byId, p.id = q.printerId ∧
        p.name = q.printerName) ∧ pre a := by
  refine harmless_printers_again.bind ?_
  intro printers
  refine .act ?_
  rintro a ⟨hu, rfl, ha⟩
  refine ⟨hu, ?_, ha⟩
  intro q hq
  obtain ⟨p, hp, rfl⟩ := List.mem_map.mp hq
  exact ⟨p, hp, rfl, rfl⟩

end

end KilnPrint
