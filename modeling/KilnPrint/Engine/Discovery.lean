/-
Printer discovery: refreshes of the cache, and the events they emit.

* `refresh` — one refresh: what each provider finds replaces what it had, what a provider
  that fails had stays, and the differences are announced;
* `Printer.Alike`, `Agrees` — two snapshots show a client the same;
* `refresh_agrees` — **a snapshot that agrees with the cache still does after the events of
  a refresh**;
* `refresh_keeps` — what a provider that fails had stays, unannounced;
* `discovery_replays` — **the statement for every sequence of refreshes**.
-/
import KilnPrint.Lib.FinMap
import KilnPrint.Model.Printer

namespace KilnPrint

namespace Discovery

inductive PrinterEventKind
  | connected
  | disconnected
  | statusChanged
  deriving DecidableEq, Repr

abbrev PrinterEvent := PrinterEventKind × Printer

/-- The discovery cache. -/
structure PrinterCache where
  byId : FinMap PrinterId Printer := ∅
  lastRefresh : Option ℕ := none

/-- What each provider's `discover` answers. -/
abbrev Discovered := String → Except PrintError (List Printer)

/-- The providers whose discovery failed. -/
def failed (providers : List String) (discover : Discovered) : List String :=
  providers.filter fun id => !(discover id).isOk

def discovered (providers : List String) (discover : Discovered) : List Printer :=
  providers.flatMap fun id => (discover id).toOption.getD []

/-- The cache after a refresh: the previous snapshot of the providers that failed, and
what the others found. -/
def next (providers : List String) (discover : Discovered) (cache : PrinterCache) :
    FinMap PrinterId Printer :=
  (discovered providers discover).foldl (fun m printer => m.insert printer.id printer)
    (cache.byId.filter fun p => (failed providers discover).contains p.provider)

/-- What the differences between two snapshots are announced as. -/
def changes (old new : FinMap PrinterId Printer) : List PrinterEvent :=
  (new.sorted.filterMap fun (id, printer) =>
    match old.lookup id with
    | none => some (.connected, printer)
    | some before =>
      if before.statusDiffers printer then some (.statusChanged, printer) else none) ++
  (old.sorted.filterMap fun (id, printer) =>
    if (new.lookup id).isNone then some (.disconnected, printer) else none)

/-- `refresh`; the first one announces nothing. -/
def refresh (providers : List String) (discover : Discovered) (now : ℕ) (cache : PrinterCache) :
    PrinterCache × List PrinterEvent :=
  let byId := next providers discover cache
  -- the first refresh announces nothing
  let events := if cache.lastRefresh.isSome then changes cache.byId byId else []
  (⟨byId, some now⟩, events)

/-! ### Replaying the events -/

/-- What an event says of a printer. -/
def PrinterEvent.change : PrinterEvent → PrinterId × Option Printer
  | (.disconnected, printer) => (printer.id, none)
  | (_, printer) => (printer.id, some printer)

/-- A client that applies the events in order to a snapshot. -/
def replay (snapshot : FinMap PrinterId Printer) (events : List PrinterEvent) :
    FinMap PrinterId Printer :=
  snapshot.patch (events.map PrinterEvent.change)

/-- Two entries show a client the same. -/
structure Alike (p q : Printer) : Prop where
  online : p.online = q.online
  status : p.status = q.status
  conditions : p.conditions = q.conditions
  default : p.default = q.default

theorem alike_iff {p q : Printer} : p.statusDiffers q = false ↔ Alike p q := by
  simp only [Printer.statusDiffers, Bool.or_eq_false_iff, bne_eq_false_iff_eq]
  exact ⟨fun ⟨⟨⟨h₁, h₂⟩, h₃⟩, h₄⟩ => ⟨h₁, h₂, h₃, h₄⟩, fun h => ⟨⟨⟨h.1, h.2⟩, h.3⟩, h.4⟩⟩

/-- The same printers, each alike. -/
def Agrees (m m' : FinMap PrinterId Printer) : Prop :=
  ∀ id, Option.Rel Alike (m.lookup id) (m'.lookup id)

/-- Every entry is under its printer's id. -/
def Keyed (m : FinMap PrinterId Printer) : Prop :=
  ∀ id printer, m.lookup id = some printer → printer.id = id

variable {old new snapshot : FinMap PrinterId Printer} {id : PrinterId}

/-- Whether a printer's change is announced. -/
def Announced (old new : FinMap PrinterId Printer) (id : PrinterId) : Prop :=
  match old.lookup id, new.lookup id with
  | none, none => False
  | some before, some printer => before.statusDiffers printer = true
  | _, _ => True

/-- The events of the printers there are. -/
theorem mem_changes_present {e : PrinterEvent} (hnew : Keyed new) :
    e ∈ (new.sorted.filterMap fun (id, printer) =>
        match old.lookup id with
        | none => some (PrinterEventKind.connected, printer)
        | some before =>
          if before.statusDiffers printer then some (.statusChanged, printer) else none) ↔
      new.lookup e.2.id = some e.2 ∧
        ((old.lookup e.2.id = none ∧ e.1 = .connected) ∨
          ∃ before, old.lookup e.2.id = some before ∧ before.statusDiffers e.2 = true ∧
            e.1 = .statusChanged) := by
  rw [List.mem_filterMap]
  constructor
  · rintro ⟨⟨id, printer⟩, hmem, heq⟩
    have hlookup := FinMap.mem_sorted.mp hmem
    obtain rfl := hnew id printer hlookup
    dsimp only at heq
    split at heq
    · next hold =>
      obtain rfl := Option.some.inj heq
      exact ⟨hlookup, .inl ⟨hold, rfl⟩⟩
    · next before hold =>
      split at heq
      · next hdiffers =>
        obtain rfl := Option.some.inj heq
        exact ⟨hlookup, .inr ⟨before, hold, hdiffers, rfl⟩⟩
      · cases heq
  · obtain ⟨kind, printer⟩ := e
    rintro ⟨hlookup, hcases⟩
    refine ⟨(printer.id, printer), FinMap.mem_sorted.mpr hlookup, ?_⟩
    rcases hcases with ⟨hold, rfl⟩ | ⟨before, hold, hdiffers, rfl⟩
    · simp only [hold]
    · simp only [hold, hdiffers, if_true]

/-- The events of the printers there are no more. -/
theorem mem_changes_gone {e : PrinterEvent} (hold : Keyed old) :
    e ∈ (old.sorted.filterMap fun (id, printer) =>
        if (new.lookup id).isNone then some (PrinterEventKind.disconnected, printer) else none) ↔
      old.lookup e.2.id = some e.2 ∧ new.lookup e.2.id = none ∧ e.1 = .disconnected := by
  rw [List.mem_filterMap]
  constructor
  · rintro ⟨⟨id, printer⟩, hmem, heq⟩
    have hlookup := FinMap.mem_sorted.mp hmem
    obtain rfl := hold id printer hlookup
    dsimp only at heq
    split at heq
    · next hnone =>
      obtain rfl := Option.some.inj heq
      exact ⟨hlookup, Option.isNone_iff_eq_none.mp hnone, rfl⟩
    · cases heq
  · obtain ⟨kind, printer⟩ := e
    rintro ⟨hlookup, hnone, rfl⟩
    refine ⟨(printer.id, printer), FinMap.mem_sorted.mpr hlookup, ?_⟩
    have hnone : new.lookup printer.id = none := hnone
    simp only [hnone, Option.isNone_none, if_true]

/-- **The changes announced are those of the two snapshots.** -/
theorem mem_changes {c : PrinterId × Option Printer} (hold : Keyed old) (hnew : Keyed new) :
    c ∈ (changes old new).map PrinterEvent.change ↔
      c.2 = new.lookup c.1 ∧ Announced old new c.1 := by
  simp only [changes, List.map_append, List.mem_append, List.mem_map, mem_changes_present hnew,
    mem_changes_gone hold]
  constructor
  · rintro (⟨⟨kind, printer⟩, ⟨hlookup, hcases⟩, rfl⟩ | ⟨⟨kind, printer⟩, ⟨hlookup, hnone, hkind⟩, rfl⟩)
    · rcases hcases with ⟨hnone, hkind⟩ | ⟨before, hbefore, hdiffers, hkind⟩
      · obtain rfl : kind = .connected := hkind
        have hlookup : new.lookup printer.id = some printer := hlookup
        have hnone : old.lookup printer.id = none := hnone
        refine ⟨hlookup.symm, ?_⟩
        show Announced old new printer.id
        simp only [Announced, hnone, hlookup]
      · obtain rfl : kind = .statusChanged := hkind
        have hlookup : new.lookup printer.id = some printer := hlookup
        have hbefore : old.lookup printer.id = some before := hbefore
        refine ⟨hlookup.symm, ?_⟩
        show Announced old new printer.id
        simpa only [Announced, hbefore, hlookup] using hdiffers
    · obtain rfl : kind = .disconnected := hkind
      have hlookup : old.lookup printer.id = some printer := hlookup
      have hnone : new.lookup printer.id = none := hnone
      refine ⟨hnone.symm, ?_⟩
      show Announced old new printer.id
      simp only [Announced, hnone, hlookup]
  · obtain ⟨id, value⟩ := c
    rintro ⟨hvalue, hannounced⟩
    have hvalue : value = new.lookup id := hvalue
    subst hvalue
    have hannounced : Announced old new id := hannounced
    -- present now: connected, or of another status; absent now: disconnected
    cases hprinter : new.lookup id with
    | some printer =>
      left
      obtain rfl := hnew id printer hprinter
      cases hbefore : old.lookup printer.id with
      | none => exact ⟨(.connected, printer), ⟨hprinter, .inl ⟨hbefore, rfl⟩⟩, rfl⟩
      | some before =>
        simp only [Announced, hbefore, hprinter] at hannounced
        exact ⟨(.statusChanged, printer),
          ⟨hprinter, .inr ⟨before, hbefore, hannounced, rfl⟩⟩, rfl⟩
    | none =>
      right
      cases hbefore : old.lookup id with
      | none => simp only [Announced, hbefore, hprinter] at hannounced
      | some before =>
        obtain rfl := hold id before hbefore
        exact ⟨(.disconnected, before), ⟨hbefore, hprinter, rfl⟩, rfl⟩

/-- What is kept of a list keeps its order. -/
theorem filterMap_map_sublist {α β γ : Type} {f : α → Option β} {g : β → γ} {h : α → γ} :
    ∀ {l : List α}, (∀ a ∈ l, ∀ b, f a = some b → g b = h a) →
      ((l.filterMap f).map g).Sublist (l.map h) := by
  intro l
  induction l with
  | nil => exact fun _ => List.Sublist.refl _
  | cons a rest ih =>
    intro hf
    have hrest := ih fun a' ha' => hf a' (List.mem_cons_of_mem _ ha')
    rw [List.map_cons]
    cases hfa : f a with
    | none =>
      rw [List.filterMap_cons_none hfa]
      exact hrest.cons _
    | some b =>
      rw [List.filterMap_cons_some hfa, List.map_cons, hf a List.mem_cons_self b hfa]
      exact hrest.cons_cons _

/-- A printer changes once. -/
theorem nodup_changes (hold : Keyed old) (hnew : Keyed new) :
    (((changes old new).map PrinterEvent.change).map Prod.fst).Nodup := by
  have hfst : ∀ e : PrinterEvent, e.change.1 = e.2.id := by
    rintro ⟨kind, printer⟩
    cases kind <;> rfl
  rw [List.map_map, changes, List.map_append, List.nodup_append]
  refine ⟨?_, ?_, ?_⟩
  · refine (filterMap_map_sublist (h := Prod.fst) ?_).nodup (FinMap.nodup_keys_sorted new)
    rintro ⟨id, printer⟩ hmem e heq
    have hid := hnew id printer (FinMap.mem_sorted.mp hmem)
    dsimp only at heq
    rw [Function.comp_apply, hfst]
    split at heq
    · obtain rfl := Option.some.inj heq
      exact hid
    · split at heq
      · obtain rfl := Option.some.inj heq
        exact hid
      · cases heq
  · refine (filterMap_map_sublist (h := Prod.fst) ?_).nodup (FinMap.nodup_keys_sorted old)
    rintro ⟨id, printer⟩ hmem e heq
    have hid := hold id printer (FinMap.mem_sorted.mp hmem)
    dsimp only at heq
    rw [Function.comp_apply, hfst]
    split at heq
    · obtain rfl := Option.some.inj heq
      exact hid
    · cases heq
  · intro id hpresent id' hgone heq
    obtain ⟨e, he, rfl⟩ := List.mem_map.mp hpresent
    obtain ⟨e', he', rfl⟩ := List.mem_map.mp hgone
    rw [Function.comp_apply, Function.comp_apply, hfst, hfst] at heq
    obtain ⟨hlookup, -⟩ := (mem_changes_present hnew).mp he
    obtain ⟨-, hnone, -⟩ := (mem_changes_gone hold).mp he'
    rw [heq, hnone] at hlookup
    cases hlookup

/-- **Replaying the differences** turns a snapshot that agrees with the old cache into one
that agrees with the new. -/
theorem replay_changes (hold : Keyed old) (hnew : Keyed new) (h : Agrees snapshot old) :
    Agrees (replay snapshot (changes old new)) new := by
  intro id
  by_cases hannounced : Announced old new id
  · rw [replay, FinMap.lookup_patch_of_mem _ (nodup_changes hold hnew)
      ((mem_changes (c := (id, new.lookup id)) hold hnew).mpr ⟨rfl, hannounced⟩)]
    cases new.lookup id with
    | none => exact .none
    | some printer => exact .some ⟨rfl, rfl, rfl, rfl⟩
  · have hunchanged : (replay snapshot (changes old new)).lookup id = snapshot.lookup id := by
      refine FinMap.lookup_patch_of_notMem _ ?_
      intro hmem
      obtain ⟨c, hc, rfl⟩ := List.mem_map.mp hmem
      exact hannounced ((mem_changes hold hnew).mp hc).2
    rw [hunchanged]
    have hbefore := h id
    unfold Announced at hannounced
    -- nothing was announced: the printer is absent before and after, or looks the same
    cases hpast : old.lookup id with
    | none =>
      rw [hpast] at hbefore hannounced
      cases hnow : new.lookup id with
      | none => exact hbefore
      | some printer =>
        rw [hnow] at hannounced
        exact absurd trivial hannounced
    | some before =>
      rw [hpast] at hbefore hannounced
      cases hnow : new.lookup id with
      | none =>
        rw [hnow] at hannounced
        exact absurd trivial hannounced
      | some printer =>
        rw [hnow] at hannounced
        have halike : Alike before printer := alike_iff.mp (by simpa using hannounced)
        cases hsnap : snapshot.lookup id with
        | none =>
          rw [hsnap] at hbefore
          cases hbefore
        | some shown =>
          rw [hsnap] at hbefore
          obtain ⟨hshown⟩ := hbefore
          exact .some ⟨hshown.1.trans halike.1, hshown.2.trans halike.2, hshown.3.trans halike.3,
            hshown.4.trans halike.4⟩

/-! ### Sequences of refreshes -/

/-- One refresh: each provider finds printers of its own, under ids of its own, or fails. -/
structure Round (owner : PrinterId → String) where
  now : ℕ
  discover : Discovered
  own : ∀ x printers, discover x = .ok printers →
    ∀ p ∈ printers, p.provider = x ∧ owner p.id = x

variable {owner : PrinterId → String} {providers : List String} {cache : PrinterCache}

/-- Every cached printer is under its id, and the id is one of its provider's. -/
def Owned (owner : PrinterId → String) (m : FinMap PrinterId Printer) : Prop :=
  ∀ id printer, m.lookup id = some printer → printer.id = id ∧ owner id = printer.provider

theorem Owned.keyed {m : FinMap PrinterId Printer} (h : Owned owner m) : Keyed m :=
  fun id printer hlookup => (h id printer hlookup).1

theorem mem_discovered {discover : Discovered} {printer : Printer} :
    printer ∈ discovered providers discover ↔
      ∃ x ∈ providers, ∃ printers, discover x = .ok printers ∧ printer ∈ printers := by
  rw [discovered, List.mem_flatMap]
  constructor
  · rintro ⟨x, hx, hmem⟩
    cases hanswer : discover x with
    | error e =>
      rw [hanswer] at hmem
      exact absurd hmem List.not_mem_nil
    | ok printers =>
      rw [hanswer] at hmem
      exact ⟨x, hx, printers, hanswer, hmem⟩
  · rintro ⟨x, hx, printers, hanswer, hmem⟩
    refine ⟨x, hx, ?_⟩
    rw [hanswer]
    exact hmem

/-- What is found goes over what was kept. -/
theorem lookup_found (found : List Printer) :
    ∀ {kept : FinMap PrinterId Printer} {id : PrinterId} {printer : Printer},
      (found.foldl (fun m p => m.insert p.id p) kept).lookup id = some printer →
        (printer ∈ found ∧ printer.id = id) ∨ kept.lookup id = some printer := by
  induction found with
  | nil => exact fun h => .inr h
  | cons p rest ih =>
    intro kept id printer h
    rcases ih h with ⟨hmem, hid⟩ | hkept
    · exact .inl ⟨List.mem_cons_of_mem _ hmem, hid⟩
    · rw [FinMap.lookup_insert_ite] at hkept
      split at hkept
      · next heq =>
        obtain rfl := Option.some.inj hkept
        exact .inl ⟨List.mem_cons_self, heq.symm⟩
      · exact .inr hkept

/-- What is kept stays where nothing is found under its id. -/
theorem lookup_kept {id : PrinterId} (found : List Printer) :
    ∀ {kept : FinMap PrinterId Printer}, (∀ p ∈ found, p.id ≠ id) →
      (found.foldl (fun m p => m.insert p.id p) kept).lookup id = kept.lookup id := by
  induction found with
  | nil => exact fun _ => rfl
  | cons p rest ih =>
    intro kept h
    show (rest.foldl _ (kept.insert p.id p)).lookup id = _
    rw [ih fun q hq => h q (List.mem_cons_of_mem _ hq), FinMap.lookup_insert_ite,
      if_neg (h p List.mem_cons_self).symm]

theorem owned_next (round : Round owner) (h : Owned owner cache.byId) :
    Owned owner (next providers round.discover cache) := by
  intro id printer hlookup
  rcases lookup_found _ hlookup with ⟨hmem, rfl⟩ | hkept
  · obtain ⟨x, -, printers, hanswer, hin⟩ := mem_discovered.mp hmem
    obtain ⟨hprovider, howner⟩ := round.own x printers hanswer printer hin
    exact ⟨rfl, howner.trans hprovider.symm⟩
  · rw [FinMap.lookup_filter] at hkept
    exact h id printer (Option.filter_eq_some_iff.mp hkept).1

/-- **A client whose snapshot agrees with the cache** has one that still does after it has
applied the events of a refresh. -/
theorem refresh_agrees (round : Round owner) (h : Owned owner cache.byId)
    (hrefreshed : cache.lastRefresh.isSome = true) (hagrees : Agrees snapshot cache.byId) :
    Agrees (replay snapshot (refresh providers round.discover round.now cache).2)
      (refresh providers round.discover round.now cache).1.byId := by
  show Agrees (replay snapshot (if cache.lastRefresh.isSome = true then _ else _)) _
  rw [if_pos hrefreshed]
  exact replay_changes h.keyed (owned_next round h).keyed hagrees

/-- **What a provider that fails had** stays as it was, and is not announced as gone. -/
theorem refresh_keeps {x : String} {e : PrintError} (round : Round owner)
    (h : Owned owner cache.byId) (hx : x ∈ providers) (hfailed : round.discover x = .error e) :
    (∀ id printer, cache.byId.lookup id = some printer → printer.provider = x →
      (refresh providers round.discover round.now cache).1.byId.lookup id = some printer) ∧
    ∀ ev ∈ (refresh providers round.discover round.now cache).2,
      ev.1 = .disconnected → ev.2.provider ≠ x := by
  have hkept : ∀ id printer, cache.byId.lookup id = some printer → printer.provider = x →
      (next providers round.discover cache).lookup id = some printer := by
    intro id printer hlookup hprovider
    have hfailed' : (failed providers round.discover).contains printer.provider = true := by
      rw [List.contains_iff_mem, failed, List.mem_filter, hprovider]
      refine ⟨hx, ?_⟩
      rw [hfailed]
      rfl
    rw [next, lookup_kept, FinMap.lookup_filter, hlookup, Option.filter_some, if_pos hfailed']
    -- another provider finds nothing under this id
    intro p hp
    obtain ⟨y, -, printers, hanswer, hin⟩ := mem_discovered.mp hp
    rintro rfl
    have howner : owner p.id = x := (h _ _ hlookup).2.trans hprovider
    rw [(round.own y printers hanswer p hin).2] at howner
    rw [howner, hfailed] at hanswer
    cases hanswer
  refine ⟨hkept, ?_⟩
  intro ev hev hgone hprovider
  have hev : ev ∈ (if cache.lastRefresh.isSome = true then
    changes cache.byId (next providers round.discover cache) else []) := hev
  split at hev
  · rcases List.mem_append.mp hev with hev | hev
    · obtain ⟨-, ⟨-, hkind⟩ | ⟨-, -, -, hkind⟩⟩ :=
        (mem_changes_present (owned_next round h).keyed).mp hev
      · rw [hgone] at hkind
        cases hkind
      · rw [hgone] at hkind
        cases hkind
    · obtain ⟨hlookup, hnone, -⟩ := (mem_changes_gone h.keyed).mp hev
      rw [hkept _ _ hlookup hprovider] at hnone
      cases hnone
  · exact absurd hev List.not_mem_nil

/-- The cache after some refreshes. -/
def cacheAfter (providers : List String) (rounds : List (Round owner)) (cache : PrinterCache) :
    PrinterCache :=
  rounds.foldl (fun cache round => (refresh providers round.discover round.now cache).1) cache

/-- The events of some refreshes, in order. -/
def eventsOf (providers : List String) : List (Round owner) → PrinterCache → List PrinterEvent
  | [], _ => []
  | round :: rest, cache =>
    let (cache', events) := refresh providers round.discover round.now cache
    events ++ eventsOf providers rest cache'

theorem owned_cacheAfter (rounds : List (Round owner)) :
    ∀ {cache : PrinterCache}, Owned owner cache.byId →
      Owned owner (cacheAfter providers rounds cache).byId := by
  induction rounds with
  | nil => exact fun h => h
  | cons round rest ih => exact fun h => ih (owned_next round h)

theorem refreshed_cacheAfter (rounds : List (Round owner)) :
    ∀ {cache : PrinterCache}, cache.lastRefresh.isSome = true →
      (cacheAfter providers rounds cache).lastRefresh.isSome = true := by
  induction rounds with
  | nil => exact fun h => h
  | cons round rest ih => exact fun _ => ih rfl

/-- **A client that follows the events from any snapshot on** sees what the cache holds. -/
theorem stream_agrees (rounds : List (Round owner)) :
    ∀ {cache : PrinterCache} {snapshot : FinMap PrinterId Printer}, Owned owner cache.byId →
      cache.lastRefresh.isSome = true → Agrees snapshot cache.byId →
        Agrees (replay snapshot (eventsOf providers rounds cache))
          (cacheAfter providers rounds cache).byId := by
  induction rounds with
  | nil => exact fun _ _ h => h
  | cons round rest ih =>
    intro cache snapshot howned hrefreshed hagrees
    have hstep : Agrees (replay snapshot (refresh providers round.discover round.now cache).2)
        (refresh providers round.discover round.now cache).1.byId :=
      refresh_agrees round howned hrefreshed hagrees
    have hrest := ih (owned_next round howned) rfl hstep
    have hsplit : replay snapshot (eventsOf providers (round :: rest) cache) =
        replay (replay snapshot (refresh providers round.discover round.now cache).2)
          (eventsOf providers rest (refresh providers round.discover round.now cache).1) := by
      show FinMap.patch snapshot (List.map _ (_ ++ _)) = _
      rw [List.map_append, FinMap.patch, List.foldl_append]
      rfl
    rw [hsplit]
    exact hrest

theorem Agrees.refl (m : FinMap PrinterId Printer) : Agrees m m := by
  intro id
  cases m.lookup id with
  | none => exact .none
  | some printer => exact .some ⟨rfl, rfl, rfl, rfl⟩

/-- **Discovery events replay to the cache.**  After any refreshes, the first included, the
events of the next one lead from the cache before it to one that agrees with the cache after
it; and where a provider fails, none of its printers is announced as gone or removed. -/
theorem discovery_replays (providers : List String) (first : Round owner)
    (rounds : List (Round owner)) (last : Round owner) :
    let before := cacheAfter providers (first :: rounds) {}
    let after := (refresh providers last.discover last.now before).1
    let events := (refresh providers last.discover last.now before).2
    Agrees (replay before.byId events) after.byId ∧
      ∀ x ∈ providers, (last.discover x).isOk = false →
        (∀ id printer, before.byId.lookup id = some printer → printer.provider = x →
          after.byId.lookup id = some printer) ∧
        ∀ ev ∈ events, ev.1 = .disconnected → ev.2.provider ≠ x := by
  have howned : Owned owner (cacheAfter providers (first :: rounds) {}).byId :=
    owned_cacheAfter _ fun id printer h => by cases h
  have hrefreshed : (cacheAfter providers (first :: rounds) {}).lastRefresh.isSome = true :=
    refreshed_cacheAfter rounds rfl
  refine ⟨refresh_agrees last howned hrefreshed (.refl _), ?_⟩
  intro x hx hanswer
  cases hfailed : last.discover x with
  | ok printers =>
    rw [hfailed] at hanswer
    cases hanswer
  | error e => exact refresh_keeps last howned hx hfailed

/-! ### An office with a label printer, a receipt printer and a spooled one -/

def officePrinter (provider id : String) (status : PrinterState) : Printer where
  id := id
  name := id
  displayName := id
  provider := provider
  connection := .network
  driver := none
  port := none
  location := none
  default := false
  online := true
  status := status
  conditions := []
  queuedJobs := none
  language := none

def officeOwner (id : PrinterId) : String := if id = "spooled" then "windows" else "tcp"

/-- One refresh in the office, where each of the two providers finds its own. -/
def officeRound (now : ℕ) (tcp windows : Except PrintError (List Printer))
    (htcp : ∀ printers, tcp = .ok printers →
      ∀ p ∈ printers, p.provider = "tcp" ∧ officeOwner p.id = "tcp")
    (hwindows : ∀ printers, windows = .ok printers →
      ∀ p ∈ printers, p.provider = "windows" ∧ officeOwner p.id = "windows") :
    Round officeOwner where
  now := now
  discover x := if x = "tcp" then tcp else if x = "windows" then windows else .ok []
  own := by
    intro x printers h
    split at h
    · next hx => exact hx ▸ htcp printers h
    · split at h
      · next hx => exact hx ▸ hwindows printers h
      · obtain rfl := Except.ok.inj h
        exact fun p hp => absurd hp List.not_mem_nil

/-- Both providers answer. -/
def officeFirst : Round officeOwner :=
  officeRound 0 (.ok [officePrinter "tcp" "label" .ready, officePrinter "tcp" "receipt" .ready])
    (.ok [officePrinter "windows" "spooled" .ready])
    (by rintro _ ⟨⟩; decide) (by rintro _ ⟨⟩; decide)

/-- The label printer has an error, the receipt printer is gone and another one is there; the
spooler does not answer. -/
def officeLast : Round officeOwner :=
  officeRound 30 (.ok [officePrinter "tcp" "label" .error, officePrinter "tcp" "matrix" .ready])
    (.error .internal) (by rintro _ ⟨⟩; decide) (by rintro _ ⟨⟩)

def officeCache : PrinterCache := cacheAfter ["tcp", "windows"] [officeFirst] {}

/-- A printer is found, one changes and one is lost; the spooled one, whose provider fails, is
kept without an event. -/
theorem discovery_replays_office :
    (refresh ["tcp", "windows"] officeLast.discover officeLast.now officeCache).2 =
      [(.statusChanged, officePrinter "tcp" "label" .error),
        (.connected, officePrinter "tcp" "matrix" .ready),
        (.disconnected, officePrinter "tcp" "receipt" .ready)] ∧
    (refresh ["tcp", "windows"] officeLast.discover officeLast.now officeCache).1.byId.sorted.map
      Prod.fst = ["label", "matrix", "spooled"] ∧
    Agrees (replay officeCache.byId
        (refresh ["tcp", "windows"] officeLast.discover officeLast.now officeCache).2)
      (refresh ["tcp", "windows"] officeLast.discover officeLast.now officeCache).1.byId ∧
    ∀ x ∈ ["tcp", "windows"], (officeLast.discover x).isOk = false →
      (∀ id printer, officeCache.byId.lookup id = some printer → printer.provider = x →
        (refresh ["tcp", "windows"] officeLast.discover officeLast.now
          officeCache).1.byId.lookup id = some printer) ∧
      ∀ ev ∈ (refresh ["tcp", "windows"] officeLast.discover officeLast.now officeCache).2,
        ev.1 = .disconnected → ev.2.provider ≠ x :=
  ⟨by decide +kernel, by decide +kernel,
    discovery_replays ["tcp", "windows"] officeFirst [] officeLast⟩

end Discovery

end KilnPrint
