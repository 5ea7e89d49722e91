/-
What a caller learns of printers outside its scope.

Such printers are reported as not found, so that their existence is not
disclosed.  That takes two agents that agree inside the scope to give the same
answers, and they do except where a printer outside the scope is what a lookup
finds.

* `World`, `Agrees` — a backend with an agent, and two that agree inside a scope;
* `pick` — the printer a selector finds, and `visible` — what a caller sees of it;
* `SameAnswers` — all five operations answer alike;
* `Undisclosed` — no lookup finds a hidden printer where the other world differs;
* `sameAnswers_iff` — **exactly then every caller with the scope gets the same
  answers**;
* `scope_discloses` — a hidden printer that is told from a missing one.
-/
import KilnPrint.Agent.Ownership

namespace KilnPrint

open Backend

/-! ### Two worlds -/

/-- An agent and what answers it from outside. -/
structure World where
  backend : Backend
  agent : Agent

namespace World

def cached (w : World) : List Printer := w.agent.cache.byId

/-- The cache's printers after a refresh. -/
def refreshed (w : World) : List Printer := nextPrinters w.backend.discovered w.cached

end World

/-- Two worlds agree on all printers in a scope: the same are cached, now and after a
refresh, and their providers give the same answers.  The clock and the job state are
the same. -/
structure Agrees (scope : PrinterScope) (w w' : World) : Prop where
  env : w.backend.env = w'.backend.env
  now : w.backend.now = w'.backend.now
  minGap : w.backend.discoveryMinGap = w'.backend.discoveryMinGap
  lastRefresh : w.agent.cache.lastRefresh = w'.agent.cache.lastRefresh
  jobs : w.agent.jobs = w'.agent.jobs
  cached : w.cached.filter scope.allows = w'.cached.filter scope.allows
  refreshed : w.refreshed.filter scope.allows = w'.refreshed.filter scope.allows
  capabilities : ∀ p, scope.allows p = true →
    w.backend.providerCapabilities p = w'.backend.providerCapabilities p
  queue : ∀ p, scope.allows p = true → w.backend.providerQueue p = w'.backend.providerQueue p

theorem Agrees.symm {scope : PrinterScope} {w w' : World} (h : Agrees scope w w') :
    Agrees scope w' w where
  env := h.env.symm
  now := h.now.symm
  minGap := h.minGap.symm
  lastRefresh := h.lastRefresh.symm
  jobs := h.jobs.symm
  cached := h.cached.symm
  refreshed := h.refreshed.symm
  capabilities p hp := (h.capabilities p hp).symm
  queue p hp := (h.queue p hp).symm

/-- The five operations answer a caller alike. -/
structure SameAnswers (who : Principal) (selector : PrinterSelector) (w w' : World) : Prop where
  list : (Service.listPrinters w.backend who w.agent).1 =
    (Service.listPrinters w'.backend who w'.agent).1
  default : (Service.defaultPrinter w.backend who w.agent).1 =
    (Service.defaultPrinter w'.backend who w'.agent).1
  get : (Service.getPrinter w.backend who selector w.agent).1 =
    (Service.getPrinter w'.backend who selector w'.agent).1
  capabilities : (Service.printerCapabilities w.backend who selector w.agent).1 =
    (Service.printerCapabilities w'.backend who selector w'.agent).1
  queue : (Service.printerQueue w.backend who selector w.agent).1 =
    (Service.printerQueue w'.backend who selector w'.agent).1

/-! ### What a lookup finds -/

namespace World

variable (w : World)

def stale : Bool := w.backend.isStale w.agent.cache

/-- The printer a selector finds: in the cache, or after a refresh that is due. -/
def pick (selector : PrinterSelector) : Option Printer :=
  (findPrinter w.cached selector).or
    (if w.stale then findPrinter w.refreshed selector else none)

/-- The cache's printers once `printers` has answered. -/
def listed : List Printer :=
  if w.agent.cache.lastRefresh.isNone then w.refreshed else w.cached

/-- The selector finds a printer outside the scope. -/
def Hides (scope : PrinterScope) (selector : PrinterSelector) : Prop :=
  ∃ p, w.pick selector = some p ∧ scope.allows p = false

/-- The first default printer is outside the scope. -/
def HidesDefault (scope : PrinterScope) : Prop :=
  ∃ p, w.listed.find? (·.default) = some p ∧ scope.allows p = false

/-- What a caller sees of the printer a selector finds. -/
def visible (scope : PrinterScope) (selector : PrinterSelector) : Except PrintError Printer :=
  match w.pick selector with
  | some p => if scope.allows p then .ok p else .error (Service.outOfScope selector)
  | none => .error (notFound selector)

/-- The agent after a lookup. -/
def settled (selector : PrinterSelector) : Agent :=
  if (findPrinter w.cached selector).isSome then w.agent else w.backend.refreshIfStale w.agent

end World

/-- **No lookup discloses a printer outside the scope**: where one finds a hidden
printer in one world, in the other it finds a hidden one too, or, by name, none; and
the first default printer is hidden in both worlds or in neither, or no printer in
scope is a default one. -/
structure Undisclosed (scope : PrinterScope) (selector : PrinterSelector) (w w' : World) :
    Prop where
  left : w.Hides scope selector → w'.Hides scope selector ∨
    ((∃ name, selector = .name name) ∧ w'.pick selector = none)
  right : w'.Hides scope selector → w.Hides scope selector ∨
    ((∃ name, selector = .name name) ∧ w.pick selector = none)
  default : (∃ p ∈ w.listed, scope.allows p = true ∧ p.default = true) →
    (w.HidesDefault scope ↔ w'.HidesDefault scope)

/-! ### What the operations answer -/

/-- A printer's capabilities, as the engine completes them. -/
def capsOf (b : Backend) (p : Printer) : Except PrintError PrinterCapabilities := do
  let provider ← b.env.provider p.provider
  let caps ← b.providerCapabilities p
  pure { caps with documentTypes := b.documentTypes provider p }

def queueOf (b : Backend) (jobs : Jobs) (p : Printer) : Except PrintError PrinterQueueSnapshot := do
  let _ ← b.env.provider p.provider
  let entries ← b.providerQueue p
  pure (snapshot p entries (activeJobs jobs (·.printerId == some p.id)))

theorem lift_eq {α : Type} (r : Except PrintError α) (a : Agent) : lift r a = (r, a) := by
  cases r with
  | ok x => rfl
  | error e => rfl

/-- A cached printer is found by its id. -/
theorem resolvePrinter_of_mem {b : Backend} {a : Agent} {p : Printer} (hp : p ∈ a.cache.byId) :
    b.resolvePrinter (.id p.id) a = (.ok p, a) := by
  unfold resolvePrinter
  rw [findPrinter_id a.cache.inOrder hp]

theorem capabilities_of_mem {b : Backend} {a : Agent} {p : Printer} (hp : p ∈ a.cache.byId) :
    b.capabilities p.id a = (capsOf b p, a) := by
  unfold Backend.capabilities capsOf
  rw [Fallible.bind_of_ok (resolvePrinter_of_mem hp)]
  cases hprovider : b.env.provider p.provider with
  | error e => rfl
  | ok provider => cases b.providerCapabilities p <;> rfl

theorem queue_of_mem {b : Backend} {a : Agent} {p : Printer} (hp : p ∈ a.cache.byId) :
    b.queue p.id a = (queueOf b a.jobs p, a) := by
  unfold Backend.queue queueOf
  rw [Fallible.bind_of_ok (resolvePrinter_of_mem hp)]
  cases hprovider : b.env.provider p.provider with
  | error e => rfl
  | ok provider => cases b.providerQueue p <;> rfl

namespace World

variable {w : World} {who : Principal} {selector : PrinterSelector}

/-- The cache's printers after a refresh that is due. -/
theorem byId_refreshIfStale :
    (w.backend.refreshIfStale w.agent).cache.byId = if w.stale then w.refreshed else w.cached := by
  unfold refreshIfStale stale
  split <;> rfl

theorem jobs_settled : (w.settled selector).jobs = w.agent.jobs := by
  unfold settled refreshIfStale
  split
  · rfl
  · split <;> rfl

theorem settled_of_some {p : Printer} (h : findPrinter w.cached selector = some p) :
    w.settled selector = w.agent := by
  rw [settled, h]
  rfl

theorem settled_of_none (h : findPrinter w.cached selector = none) :
    w.settled selector = w.backend.refreshIfStale w.agent := by
  rw [settled, h]
  rfl

/-- A lookup that has to refresh finds what is cached afterwards. -/
theorem pick_of_none (h : findPrinter w.cached selector = none) :
    w.pick selector = findPrinter (w.settled selector).cache.byId selector := by
  rw [settled_of_none h, byId_refreshIfStale, pick, h, Option.none_or]
  split
  · rfl
  · exact h.symm

theorem pick_of_some {p : Printer} (h : findPrinter w.cached selector = some p) :
    w.pick selector = some p := by
  rw [pick, h]
  rfl

theorem mem_settled {p : Printer} (h : w.pick selector = some p) :
    p ∈ (w.settled selector).cache.byId := by
  cases hc : findPrinter w.cached selector with
  | some q =>
    obtain rfl := Option.some.inj ((pick_of_some hc).symm.trans h)
    rw [settled_of_some hc]
    exact mem_of_findPrinter hc
  | none =>
    rw [pick_of_none hc] at h
    exact mem_of_findPrinter h

theorem resolvePrinter_eq :
    w.backend.resolvePrinter selector w.agent =
      ((match w.pick selector with
        | some p => .ok p
        | none => .error (notFound selector)), w.settled selector) := by
  unfold resolvePrinter
  show (match findPrinter w.cached selector with
    | some printer => _
    | none => _) = _
  cases hc : findPrinter w.cached selector with
  | some p => rw [settled_of_some hc, pick_of_some hc]
  | none =>
    rw [pick_of_none hc, settled_of_none hc]
    dsimp only
    cases findPrinter (w.backend.refreshIfStale w.agent).cache.byId selector <;> rfl

theorem visiblePrinter_eq :
    Service.visiblePrinter w.backend who selector w.agent =
      (w.visible who.printerScope selector, w.settled selector) := by
  unfold Service.visiblePrinter visible
  cases hp : w.pick selector with
  | none =>
    have hr : w.backend.resolvePrinter selector w.agent =
        (.error (notFound selector), w.settled selector) := by
      rw [resolvePrinter_eq, hp]
    exact Fallible.bind_of_error hr
  | some p =>
    have hr : w.backend.resolvePrinter selector w.agent = (.ok p, w.settled selector) := by
      rw [resolvePrinter_eq, hp]
    rw [Fallible.bind_of_ok hr]
    dsimp only
    split <;> rfl

/-- A visible printer is in the scope, and cached. -/
theorem visible_eq_ok {scope : PrinterScope} {p : Printer}
    (h : w.visible scope selector = .ok p) :
    w.pick selector = some p ∧ scope.allows p = true := by
  unfold visible at h
  split at h
  case h_1 q hq =>
    split at h
    case isTrue hallows =>
      obtain rfl := Except.ok.inj h
      exact ⟨hq, hallows⟩
    case isFalse => cases h
  case h_2 => cases h

/-! ### The answers -/

theorem require_eq (permission : Permission) (a : Agent) :
    Service.require who permission a = (who.require permission, a) :=
  lift_eq _ a

theorem printers_eq : (w.backend.printers w.agent).1 = .ok w.listed := by
  unfold listed
  simp only [Backend.printers, Fallible.act]
  split <;> rfl

theorem listPrinters_eq :
    (Service.listPrinters w.backend who w.agent).1 =
      (who.require .printersRead >>= fun _ => .ok (w.listed.filter who.printerScope.allows)) := by
  unfold Service.listPrinters
  rw [Fallible.fst_bind (require_eq _ _)]
  refine congrArg _ (funext fun _ => ?_)
  rw [Fallible.fst_bind (Prod.mk.eta.symm : _ = ((w.backend.printers w.agent).1, _)), printers_eq]
  rfl

theorem defaultPrinter_eq :
    (Service.defaultPrinter w.backend who w.agent).1 =
      (who.require .printersRead >>= fun _ =>
        .ok ((w.listed.find? (·.default)).filter who.printerScope.allows)) := by
  have hdefault : (w.backend.defaultPrinter w.agent).1 = .ok (w.listed.find? (·.default)) := by
    unfold Backend.defaultPrinter
    rw [Fallible.fst_bind (Prod.mk.eta.symm : _ = ((w.backend.printers w.agent).1, _)), printers_eq]
    rfl
  unfold Service.defaultPrinter
  rw [Fallible.fst_bind (require_eq _ _)]
  refine congrArg _ (funext fun _ => ?_)
  rw [Fallible.fst_bind (Prod.mk.eta.symm : _ = ((w.backend.defaultPrinter w.agent).1, _)),
    hdefault]
  rfl

theorem getPrinter_eq :
    (Service.getPrinter w.backend who selector w.agent).1 =
      (who.require .printersRead >>= fun _ => w.visible who.printerScope selector >>= fun p =>
        .ok (p, (capsOf w.backend p).toOption)) := by
  unfold Service.getPrinter
  rw [Fallible.fst_bind (require_eq _ _)]
  refine congrArg _ (funext fun _ => ?_)
  refine (Fallible.fst_bind visiblePrinter_eq).trans ?_
  cases hv : w.visible who.printerScope selector with
  | error e => rfl
  | ok p =>
    have hcaps := capabilities_of_mem (b := w.backend) (mem_settled (visible_eq_ok hv).1)
    simp only [bind, Except.bind, hcaps]
    cases capsOf w.backend p <;> rfl

theorem printerCapabilities_eq :
    (Service.printerCapabilities w.backend who selector w.agent).1 =
      (who.require .printersRead >>= fun _ => w.visible who.printerScope selector >>= fun p =>
        capsOf w.backend p) := by
  unfold Service.printerCapabilities
  rw [Fallible.fst_bind (require_eq _ _)]
  refine congrArg _ (funext fun _ => ?_)
  refine (Fallible.fst_bind visiblePrinter_eq).trans ?_
  cases hv : w.visible who.printerScope selector with
  | error e => rfl
  | ok p =>
    show (w.backend.capabilities p.id (w.settled selector)).1 = capsOf w.backend p
    rw [capabilities_of_mem (mem_settled (visible_eq_ok hv).1)]

theorem printerQueue_eq :
    (Service.printerQueue w.backend who selector w.agent).1 =
      (who.require .queueRead >>= fun _ => w.visible who.printerScope selector >>= fun p =>
        queueOf w.backend w.agent.jobs p >>= fun snapshot =>
          .ok (if who.has .jobsReadAll then snapshot else Service.redact who snapshot)) := by
  unfold Service.printerQueue
  rw [Fallible.fst_bind (require_eq _ _)]
  refine congrArg _ (funext fun _ => ?_)
  refine (Fallible.fst_bind visiblePrinter_eq).trans ?_
  cases hv : w.visible who.printerScope selector with
  | error e => rfl
  | ok p =>
    have hqueue := queue_of_mem (b := w.backend) (mem_settled (visible_eq_ok hv).1)
    rw [jobs_settled] at hqueue
    show (Bind.bind (m := Fallible Agent PrintError) _ _ (w.settled selector)).1 = _
    rw [Fallible.fst_bind hqueue]
    rfl

end World

/-! ### Two worlds that agree in a scope -/

/-- A selector finds the first printer of one kind, or else the first of another. -/
theorem findPrinter_eq (selector : PrinterSelector) :
    ∃ f g : Printer → Bool, ∀ l : List Printer,
      findPrinter l selector = (l.find? f).or (l.find? g) := by
  cases selector with
  | id id => exact ⟨fun p => p.id == id, fun p => p.id == id, fun l => Option.or_self.symm⟩
  | name name =>
    exact ⟨fun p => p.name == name, fun p => eqIgnoreAsciiCase p.name name, fun l => rfl⟩

section

variable {scope : PrinterScope} {l l' : List Printer} {p : Printer}

/-- What is found in scope is found among the printers in scope. -/
theorem find?_filter {f : Printer → Bool} (h : l.find? f = some p)
    (hp : scope.allows p = true) : (l.filter scope.allows).find? f = some p := by
  induction l with
  | nil => cases h
  | cons q rest ih =>
    by_cases hf : f q = true
    · rw [List.find?_cons_of_pos hf] at h
      obtain rfl := Option.some.inj h
      rw [List.filter_cons_of_pos hp, List.find?_cons_of_pos hf]
    · rw [List.find?_cons_of_neg hf] at h
      by_cases hq : scope.allows q = true
      · rw [List.filter_cons_of_pos hq, List.find?_cons_of_neg hf]
        exact ih h
      · rw [List.filter_cons_of_neg hq]
        exact ih h

/-- A printer in scope is in both lists or in neither. -/
theorem mem_of_agree (h : l.filter scope.allows = l'.filter scope.allows)
    (hp : scope.allows p = true) (hmem : p ∈ l) : p ∈ l' := by
  have hfilter : p ∈ l'.filter scope.allows := by
    rw [← h]
    exact List.mem_filter.mpr ⟨hmem, hp⟩
  exact (List.mem_filter.mp hfilter).1

/-- The first printer of a kind is the same in both lists, unless one is hidden. -/
theorem find?_agree (h : l.filter scope.allows = l'.filter scope.allows) {f : Printer → Bool}
    (hp : scope.allows p = true) (hfind : l.find? f = some p)
    (hseen : ∀ q, l'.find? f = some q → scope.allows q = true) : l'.find? f = some p := by
  have hmem := mem_of_agree h hp (List.mem_of_find?_eq_some hfind)
  have hsome : (l'.find? f).isSome = true := by
    rw [List.find?_isSome]
    exact ⟨p, hmem, List.find?_some hfind⟩
  obtain ⟨q, hq⟩ := Option.isSome_iff_exists.mp hsome
  have hsame : some p = some q := by
    rw [← find?_filter hfind hp, ← find?_filter hq (hseen q hq), h]
  rw [hsame]
  exact hq

theorem findPrinter_agree (h : l.filter scope.allows = l'.filter scope.allows)
    {selector : PrinterSelector} (hp : scope.allows p = true)
    (hfind : findPrinter l selector = some p)
    (hseen : ∀ q, findPrinter l' selector = some q → scope.allows q = true) :
    findPrinter l' selector = some p := by
  obtain ⟨f, g, hfg⟩ := findPrinter_eq selector
  rw [hfg] at hfind ⊢
  have hseenf : ∀ q, l'.find? f = some q → scope.allows q = true := by
    intro q hq
    refine hseen q ?_
    rw [hfg, hq, Option.some_or]
  cases hf : l.find? f with
  | some q =>
    rw [hf, Option.some_or] at hfind
    obtain rfl := Option.some.inj hfind
    rw [find?_agree h hp hf hseenf, Option.some_or]
  | none =>
    rw [hf, Option.none_or] at hfind
    -- a match of the first kind would be in scope, and so in the first list
    have hf' : l'.find? f = none := by
      by_contra hne
      obtain ⟨q, hq⟩ := Option.ne_none_iff_exists'.mp hne
      have hmem := mem_of_agree h.symm (hseenf q hq) (List.mem_of_find?_eq_some hq)
      exact List.find?_eq_none.mp hf q hmem (List.find?_some hq)
    have hseeng : ∀ q, l'.find? g = some q → scope.allows q = true := by
      intro q hq
      refine hseen q ?_
      rw [hfg, hf', hq, Option.none_or]
    rw [hf', Option.none_or, find?_agree h hp hfind hseeng]

end

section

variable {scope : PrinterScope} {w w' : World} {selector : PrinterSelector}

theorem Agrees.stale (h : Agrees scope w w') : w.stale = w'.stale := by
  rw [World.stale, World.stale, isStale, isStale, h.lastRefresh, h.now, h.minGap]

theorem Agrees.listed (h : Agrees scope w w') :
    w.listed.filter scope.allows = w'.listed.filter scope.allows := by
  rw [World.listed, World.listed, h.lastRefresh]
  split
  · exact h.refreshed
  · exact h.cached

/-- A printer in scope is found in both worlds, unless a hidden one is found. -/
theorem Agrees.pick (h : Agrees scope w w') {p : Printer} (hp : scope.allows p = true)
    (hpick : w.pick selector = some p) (hseen : ¬ w'.Hides scope selector) :
    w'.pick selector = some p := by
  have hallows : ∀ q, w'.pick selector = some q → scope.allows q = true := by
    intro q hq
    by_contra hn
    exact hseen ⟨q, hq, Bool.not_eq_true _ ▸ hn⟩
  cases hc : findPrinter w.cached selector with
  | some q =>
    obtain rfl := Option.some.inj ((World.pick_of_some hc).symm.trans hpick)
    refine World.pick_of_some (findPrinter_agree h.cached hp hc ?_)
    intro q hq
    exact hallows q (World.pick_of_some hq)
  | none =>
    have hc' : findPrinter w'.cached selector = none := by
      by_contra hne
      obtain ⟨q, hq⟩ := Option.ne_none_iff_exists'.mp hne
      have hback := findPrinter_agree h.cached.symm (hallows q (World.pick_of_some hq)) hq
        (by rw [hc]; intro q' hq'; cases hq')
      rw [hc] at hback
      cases hback
    unfold World.pick at hpick hallows ⊢
    rw [hc, Option.none_or] at hpick
    simp only [hc', Option.none_or, ← h.stale] at hallows ⊢
    split at hpick
    case isTrue hstale =>
      rw [if_pos hstale] at hallows ⊢
      exact findPrinter_agree h.refreshed hp hpick hallows
    case isFalse => cases hpick

theorem World.visible_of_hides (h : w.Hides scope selector) :
    w.visible scope selector = .error (Service.outOfScope selector) := by
  obtain ⟨p, hpick, hp⟩ := h
  rw [World.visible, hpick]
  exact if_neg (by rw [hp]; exact Bool.false_ne_true)

/-- A hidden printer looks like a missing one when it is asked for by name. -/
theorem notFound_eq_outOfScope :
    notFound selector = Service.outOfScope selector ↔ ∃ name, selector = .name name := by
  cases selector with
  | id id =>
    constructor
    · intro h
      have hid := congrArg PrintError.printerId h
      cases hid
    · rintro ⟨name, hname⟩
      cases hname
  | name name => exact ⟨fun _ => ⟨name, rfl⟩, fun _ => rfl⟩

/-- Where a hidden printer is found in one world, the same is seen in the other when
a hidden one is found there too, or, by name, none. -/
theorem World.hides_of_visible (h : w.visible scope selector = w'.visible scope selector)
    (hh : w.Hides scope selector) : w'.Hides scope selector ∨
      ((∃ name, selector = .name name) ∧ w'.pick selector = none) := by
  rw [World.visible_of_hides hh] at h
  unfold World.visible at h
  cases hpick : w'.pick selector with
  | none =>
    rw [hpick] at h
    exact .inr ⟨notFound_eq_outOfScope.mp (Except.error.inj h).symm, rfl⟩
  | some p =>
    rw [hpick] at h
    cases hp : scope.allows p with
    | true =>
      simp only [hp, if_true] at h
      cases h
    | false => exact .inl ⟨p, hpick, hp⟩

theorem World.visible_of_none (hpick : w.pick selector = none)
    (hname : ∃ name, selector = .name name) :
    w.visible scope selector = .error (Service.outOfScope selector) := by
  rw [World.visible, hpick, ← notFound_eq_outOfScope.mpr hname]

theorem Agrees.visible_iff (h : Agrees scope w w') :
    w.visible scope selector = w'.visible scope selector ↔
      (w.Hides scope selector → w'.Hides scope selector ∨
        ((∃ name, selector = .name name) ∧ w'.pick selector = none)) ∧
      (w'.Hides scope selector → w.Hides scope selector ∨
        ((∃ name, selector = .name name) ∧ w.pick selector = none)) := by
  constructor
  · intro heq
    exact ⟨World.hides_of_visible heq, World.hides_of_visible heq.symm⟩
  · rintro ⟨hleft, hright⟩
    by_cases hh : w.Hides scope selector
    · rw [World.visible_of_hides hh]
      rcases hleft hh with hh' | ⟨hname, hpick⟩
      · rw [World.visible_of_hides hh']
      · rw [World.visible_of_none hpick hname]
    by_cases hh' : w'.Hides scope selector
    · rw [World.visible_of_hides hh']
      rcases hright hh' with hh'' | ⟨hname, hpick⟩
      · exact absurd hh'' hh
      · rw [World.visible_of_none hpick hname]
    -- neither hides a printer, so that both find the same one, or none
    have hsame : w.pick selector = w'.pick selector := by
      cases hpick : w.pick selector with
      | some p =>
        have hp : scope.allows p = true := by
          by_contra hn
          exact hh ⟨p, hpick, Bool.not_eq_true _ ▸ hn⟩
        rw [h.pick hp hpick hh']
      | none =>
        cases hpick' : w'.pick selector with
        | none => rfl
        | some p =>
          have hp : scope.allows p = true := by
            by_contra hn
            exact hh' ⟨p, hpick', Bool.not_eq_true _ ▸ hn⟩
          rw [h.symm.pick hp hpick' hh] at hpick
          cases hpick
    rw [World.visible, World.visible, hsame]

/-- A hidden default printer hides every other one. -/
theorem World.default_eq (w : World) (scope : PrinterScope) :
    ((w.listed.find? (·.default)).filter scope.allows) = none ∧ w.HidesDefault scope ∨
      (w.listed.find? (·.default)).filter scope.allows =
        (w.listed.filter scope.allows).find? (·.default) ∧ ¬ w.HidesDefault scope := by
  cases hd : w.listed.find? (·.default) with
  | none =>
    right
    have hnone : (w.listed.filter scope.allows).find? (·.default) = none := by
      refine List.find?_eq_none.mpr ?_
      intro p hp
      exact List.find?_eq_none.mp hd p (List.mem_filter.mp hp).1
    refine ⟨hnone.symm, ?_⟩
    rintro ⟨p, hp, -⟩
    rw [hd] at hp
    cases hp
  | some p =>
    cases hp : scope.allows p with
    | true =>
      right
      refine ⟨by rw [find?_filter hd hp, Option.filter_some_pos hp], ?_⟩
      rintro ⟨q, hq, hn⟩
      obtain rfl := Option.some.inj (hd.symm.trans hq)
      rw [hp] at hn
      cases hn
    | false => exact .inl ⟨Option.filter_some_neg hp, p, hd, hp⟩

theorem find?_default_isSome :
    ((w.listed.filter scope.allows).find? (·.default)).isSome = true ↔
      ∃ p ∈ w.listed, scope.allows p = true ∧ p.default = true := by
  rw [List.find?_isSome]
  constructor
  · rintro ⟨p, hp, hd⟩
    obtain ⟨hmem, hallows⟩ := List.mem_filter.mp hp
    exact ⟨p, hmem, hallows, hd⟩
  · rintro ⟨p, hmem, hallows, hd⟩
    exact ⟨p, List.mem_filter.mpr ⟨hmem, hallows⟩, hd⟩

theorem Agrees.default_iff (h : Agrees scope w w') :
    (w.listed.find? (·.default)).filter scope.allows =
        (w'.listed.find? (·.default)).filter scope.allows ↔
      ((∃ p ∈ w.listed, scope.allows p = true ∧ p.default = true) →
        (w.HidesDefault scope ↔ w'.HidesDefault scope)) := by
  rw [← find?_default_isSome]
  rcases World.default_eq w scope with ⟨hd, hh⟩ | ⟨hd, hh⟩ <;>
    rcases World.default_eq w' scope with ⟨hd', hh'⟩ | ⟨hd', hh'⟩ <;>
    rw [hd, hd']
  · simp [hh, hh']
  · rw [← h.listed]
    simp only [hh, hh', iff_false, not_true, imp_false, Bool.not_eq_true,
      Option.isSome_eq_false_iff, Option.isNone_iff_eq_none]
    exact eq_comm
  · simp only [hh, hh', iff_true, imp_false, Bool.not_eq_true,
      Option.isSome_eq_false_iff, Option.isNone_iff_eq_none]
  · rw [← h.listed]
    simp [hh, hh']

end

/-! ### Every caller with a scope -/

theorem printerScope_of_printers {who : Principal} {printers : List String}
    (hall : "*" ∉ printers) (hwho : who.printers = printers) :
    who.printerScope = .only printers := by
  unfold Principal.printerScope
  rw [hwho]
  refine if_neg ?_
  intro hany
  obtain ⟨entry, hentry, hstar⟩ := List.any_eq_true.mp hany
  rw [eq_of_beq hstar] at hentry
  exact hall hentry

/-- A printer in scope has the same capabilities and the same queue in both worlds. -/
theorem Agrees.capsOf {scope : PrinterScope} {w w' : World} (h : Agrees scope w w') {p : Printer}
    (hp : scope.allows p = true) : capsOf w.backend p = capsOf w'.backend p := by
  simp only [KilnPrint.capsOf, documentTypes, h.env, h.capabilities p hp]

theorem Agrees.queueOf {scope : PrinterScope} {w w' : World} (h : Agrees scope w w') {p : Printer}
    (hp : scope.allows p = true) :
    queueOf w.backend w.agent.jobs p = queueOf w'.backend w'.agent.jobs p := by
  simp only [KilnPrint.queueOf, h.env, h.queue p hp, h.jobs]

/-- A caller with every permission. -/
def overseer (printers : List String) : Principal where
  clientId := "overseer"
  permissions := Permission.all
  printers := printers

/-- **Printer scope noninterference**: two worlds that agree inside a restricted scope
give every caller with that scope the same answers exactly when no lookup discloses a
printer outside it. -/
theorem sameAnswers_iff {printers : List String} (hall : "*" ∉ printers) {w w' : World}
    (h : Agrees (.only printers) w w') (selector : PrinterSelector) :
    (∀ who : Principal, who.printers = printers → SameAnswers who selector w w') ↔
      Undisclosed (.only printers) selector w w' := by
  constructor
  · intro hsame
    obtain ⟨-, hdefault, hget, -, -⟩ := hsame (overseer printers) rfl
    have hscope := printerScope_of_printers hall (rfl : (overseer printers).printers = printers)
    rw [World.defaultPrinter_eq, World.defaultPrinter_eq, hscope] at hdefault
    rw [World.getPrinter_eq, World.getPrinter_eq, hscope] at hget
    -- the answers of `getPrinter` tell what was seen
    have hvisible : w.visible (.only printers) selector = w'.visible (.only printers) selector := by
      cases hv : w.visible (.only printers) selector with
      | error e =>
        rw [hv] at hget
        cases hv' : w'.visible (.only printers) selector with
        | error e' =>
          rw [hv'] at hget
          exact congrArg _ (Except.error.inj hget)
        | ok p' =>
          rw [hv'] at hget
          cases hget
      | ok p =>
        rw [hv] at hget
        cases hv' : w'.visible (.only printers) selector with
        | error e' =>
          rw [hv'] at hget
          cases hget
        | ok p' =>
          rw [hv'] at hget
          exact congrArg _ (Prod.mk.inj (Except.ok.inj hget)).1
    obtain ⟨hleft, hright⟩ := h.visible_iff.mp hvisible
    exact ⟨hleft, hright, h.default_iff.mp (Except.ok.inj hdefault)⟩
  · rintro ⟨hleft, hright, hdefault⟩ who hwho
    have hscope := printerScope_of_printers hall hwho
    have hvisible := h.visible_iff.mpr ⟨hleft, hright⟩
    refine ⟨?_, ?_, ?_, ?_, ?_⟩
    · rw [World.listPrinters_eq, World.listPrinters_eq, hscope, h.listed]
    · rw [World.defaultPrinter_eq, World.defaultPrinter_eq, hscope, h.default_iff.mpr hdefault]
    · rw [World.getPrinter_eq, World.getPrinter_eq, hscope, ← hvisible]
      cases hv : w.visible (.only printers) selector with
      | error e => rfl
      | ok p =>
        show (_ >>= fun _ => Except.ok (p, (capsOf w.backend p).toOption)) =
          (_ >>= fun _ => Except.ok (p, (capsOf w'.backend p).toOption))
        rw [h.capsOf (World.visible_eq_ok hv).2]
    · rw [World.printerCapabilities_eq, World.printerCapabilities_eq, hscope, ← hvisible]
      cases hv : w.visible (.only printers) selector with
      | error e => rfl
      | ok p =>
        show (_ >>= fun _ => capsOf w.backend p) = (_ >>= fun _ => capsOf w'.backend p)
        rw [h.capsOf (World.visible_eq_ok hv).2]
    · rw [World.printerQueue_eq, World.printerQueue_eq, hscope, ← hvisible]
      cases hv : w.visible (.only printers) selector with
      | error e => rfl
      | ok p =>
        show (_ >>= fun _ => queueOf w.backend w.agent.jobs p >>= _) =
          (_ >>= fun _ => queueOf w'.backend w'.agent.jobs p >>= _)
        rw [h.queueOf (World.visible_eq_ok hv).2]

/-! ### A printer behind the desk -/

/-- A world with these printers cached a moment ago. -/
def cachedWorld (printers : List Printer) (h : InOrder printers) : World where
  backend := deskBackend
  agent :=
    { cache := { byId := printers, inOrder := h, lastRefresh := some 0 }
      jobs := jobsAfter _ reach_booting }

def bareWorld : World := cachedWorld [] inOrder_nil

def deskWorld : World := cachedWorld [deskPrinter] (List.pairwise_singleton _ _)

theorem agrees_till : Agrees (.only ["till"]) bareWorld deskWorld where
  env := rfl
  now := rfl
  minGap := rfl
  lastRefresh := rfl
  jobs := rfl
  cached := by decide +kernel
  refreshed := by decide +kernel
  capabilities _ _ := rfl
  queue _ _ := rfl

/-- Asked for by name, the hidden printer looks like a missing one. -/
theorem sameAnswers_iff_name :
    SameAnswers (overseer ["till"]) (.name "Desk") bareWorld deskWorld := by
  refine (sameAnswers_iff (by decide) agrees_till (.name "Desk")).mpr ⟨?_, ?_, ?_⟩
    (overseer ["till"]) rfl
  · rintro ⟨p, hp, -⟩
    have hnone : (none : Option Printer) = some p := hp
    cases hnone
  · intro _
    exact .inr ⟨⟨"Desk", rfl⟩, rfl⟩
  · rintro ⟨p, hp, -⟩
    exact absurd (hp : p ∈ []) List.not_mem_nil

/-- **A hidden printer is told from a missing one** by the printer id that the error
carries for a missing one alone. -/
theorem scope_discloses :
    ¬ ∀ (who : Principal) (selector : PrinterSelector) (w w' : World),
      who.printerScope ≠ .all → Agrees who.printerScope w w' →
        SameAnswers who selector w w' := by
  intro h
  have hget := (h (overseer ["till"]) (.id "desk") bareWorld deskWorld (by decide) agrees_till).get
  have hid := congrArg (fun r => match r with
    | .error e => e.printerId
    | .ok _ => none) hget
  exact absurd hid (by decide +kernel)

end KilnPrint
