/-
What the API's operations are made of: the engine's printer and job queries.

* `PrinterCache`, `refreshed` — the discovery cache and a refresh of it, as the list a client is
  shown, and `lookup_refresh` — it is the refresh whose events the discovery module follows;
* `Backend` — what answers from outside: providers, the clock, document sources,
  and the engine's `submit` and `cancel`;
* `Agent`, `Service` — the agent's state with the calls made so far, and programs
  on it;
* `printers`, `resolvePrinter`, `defaultPrinter`, `capabilities`, `queue`,
  `queueSummary`, `job`, `jobs` — the engine's functions under their names.

The whole of `submit` and `cancel` is the engine's model; an operation only calls
them, so here they are answers, with the job state they leave.
-/
import KilnPrint.Lib.Fallible
import KilnPrint.Engine.Discovery
import KilnPrint.Engine.Submit
import KilnPrint.Agent.Security
import KilnPrint.Agent.Wire
import KilnPrint.Agent.Database
import Mathlib.Data.String.Basic

namespace KilnPrint

/-! ### The printer cache -/

/-- The values of a `BTreeMap` from printer ids: in the order of their ids. -/
def InOrder (printers : List Printer) : Prop := printers.Pairwise fun p q => p.id < q.id

structure PrinterCache where
  byId : List Printer
  inOrder : InOrder byId
  lastRefresh : Option Time

/-- `BTreeMap::insert`. -/
def insertPrinter (p : Printer) : List Printer → List Printer
  | [] => [p]
  | q :: rest =>
    if p.id < q.id then p :: q :: rest
    else if p.id = q.id then p :: rest
    else q :: insertPrinter p rest

theorem mem_insertPrinter {p q : Printer} {printers : List Printer}
    (h : q ∈ insertPrinter p printers) : q = p ∨ q ∈ printers := by
  induction printers with
  | nil => exact .inl (List.mem_singleton.mp h)
  | cons x rest ih =>
    unfold insertPrinter at h
    split at h
    · exact List.mem_cons.mp h
    · split at h
      · exact (List.mem_cons.mp h).imp_right (List.mem_cons_of_mem _)
      · rcases List.mem_cons.mp h with h | h
        · exact .inr (List.mem_cons.mpr (.inl h))
        · exact (ih h).imp_right (List.mem_cons_of_mem _)

theorem inOrder_insertPrinter (p : Printer) {printers : List Printer} (h : InOrder printers) :
    InOrder (insertPrinter p printers) := by
  induction printers with
  | nil => exact List.pairwise_singleton _ _
  | cons q rest ih =>
    obtain ⟨hq, hrest⟩ := List.pairwise_cons.mp h
    unfold insertPrinter
    split
    case isTrue hlt =>
      refine List.pairwise_cons.mpr ⟨?_, h⟩
      intro r hr
      rcases List.mem_cons.mp hr with rfl | hr
      · exact hlt
      · exact lt_trans hlt (hq r hr)
    case isFalse hle =>
      split
      case isTrue heq =>
        refine List.pairwise_cons.mpr ⟨?_, hrest⟩
        intro r hr
        rw [heq]
        exact hq r hr
      case isFalse hne =>
        refine List.pairwise_cons.mpr ⟨?_, ih hrest⟩
        intro r hr
        rcases mem_insertPrinter hr with rfl | hr
        · exact lt_of_le_of_ne (not_lt.mp hle) (Ne.symm hne)
        · exact hq r hr

theorem mem_of_findPrinter {printers : List Printer} {selector : PrinterSelector} {p : Printer}
    (h : findPrinter printers selector = some p) : p ∈ printers := by
  cases selector with
  | id id => exact List.mem_of_find?_eq_some h
  | name name =>
    rcases Option.or_eq_some_iff.mp h with h | ⟨-, h⟩
    · exact List.mem_of_find?_eq_some h
    · exact List.mem_of_find?_eq_some h

/-- Ids are unique in the cache. -/
theorem findPrinter_id {printers : List Printer} (h : InOrder printers) {p : Printer}
    (hp : p ∈ printers) : findPrinter printers (.id p.id) = some p := by
  show printers.find? (fun q => q.id == p.id) = some p
  induction printers with
  | nil => exact absurd hp List.not_mem_nil
  | cons q rest ih =>
    obtain ⟨hq, hrest⟩ := List.pairwise_cons.mp h
    rcases List.mem_cons.mp hp with rfl | hp
    · simp only [List.find?_cons, beq_self_eq_true]
    · have hne : (q.id == p.id) = false := beq_eq_false_iff_ne.mpr (ne_of_lt (hq p hp))
      simp only [List.find?_cons, hne]
      exact ih hrest hp

/-- What providers answer to `discover`. -/
abbrev Discovered := List (String × Except PrintError (List Printer))

/-- The printers of the providers whose discovery succeeded. -/
def Discovered.printers (answers : Discovered) : List Printer :=
  answers.flatMap fun a => match a.2 with
    | .ok printers => printers
    | .error _ => []

/-- The previous snapshot is kept for a provider whose discovery failed. -/
def Discovered.failed (answers : Discovered) (p : Printer) : Bool :=
  answers.any fun a => match a.2 with
    | .ok _ => false
    | .error _ => a.1 == p.provider

/-- The cache's printers after a refresh. -/
def nextPrinters (answers : Discovered) (cache : List Printer) : List Printer :=
  answers.printers.foldl (fun printers p => insertPrinter p printers)
    (cache.filter answers.failed)

theorem inOrder_nextPrinters (answers : Discovered) {cache : List Printer} (h : InOrder cache) :
    InOrder (nextPrinters answers cache) := by
  unfold nextPrinters
  have hkept : InOrder (cache.filter answers.failed) := h.filter _
  generalize cache.filter answers.failed = kept at hkept
  induction answers.printers generalizing kept with
  | nil => exact hkept
  | cons p rest ih => exact ih _ (inOrder_insertPrinter p hkept)

def PrinterCache.refreshed (answers : Discovered) (now : Time) (cache : PrinterCache) :
    PrinterCache where
  byId := nextPrinters answers cache.byId
  inOrder := inOrder_nextPrinters answers cache.inOrder
  lastRefresh := some now

/-! ### The list and the map -/

theorem cachedPrinter_cons (p : Printer) (printers : List Printer) (id : PrinterId) :
    cachedPrinter (p :: printers) id = if id = p.id then some p else cachedPrinter printers id := by
  by_cases h : id = p.id
  · rw [if_pos h, cachedPrinter, List.find?_cons_of_pos (by simpa using h.symm)]
  · rw [if_neg h, cachedPrinter, List.find?_cons_of_neg (by simpa using fun he => h he.symm)]
    rfl

/-- A printer goes over the one with its id. -/
theorem cachedPrinter_insertPrinter (p : Printer) (id : PrinterId) {printers : List Printer}
    (h : InOrder printers) : cachedPrinter (insertPrinter p printers) id =
      if id = p.id then some p else cachedPrinter printers id := by
  induction printers with
  | nil => exact cachedPrinter_cons p [] id
  | cons q rest ih =>
    obtain ⟨hq, hrest⟩ := List.pairwise_cons.mp h
    unfold insertPrinter
    split
    · exact cachedPrinter_cons p _ id
    · next hle =>
      split
      · next heq =>
        rw [cachedPrinter_cons, cachedPrinter_cons, heq]
        by_cases hid : id = q.id
        · rw [if_pos hid, if_pos hid]
        · rw [if_neg hid, if_neg hid, if_neg hid]
      · next hne =>
        rw [cachedPrinter_cons, cachedPrinter_cons, ih hrest]
        by_cases hid : id = q.id
        · rw [if_pos hid, if_pos hid, if_neg fun he => hne (he.symm.trans hid)]
        · rw [if_neg hid, if_neg hid]

theorem cachedPrinter_filter (keep : Printer → Bool) (id : PrinterId) {printers : List Printer}
    (h : InOrder printers) :
    cachedPrinter (printers.filter keep) id = (cachedPrinter printers id).filter keep := by
  cases hfound : cachedPrinter printers id with
  | none =>
    have hnone := List.find?_eq_none.mp hfound
    exact List.find?_eq_none.mpr fun p hp => hnone p (List.mem_filter.mp hp).1
  | some p =>
    have hid : p.id = id := by simpa using List.find?_some hfound
    have hmem := List.mem_of_find?_eq_some hfound
    rw [Option.filter_some]
    split
    · next hkeep =>
      rw [← hid]
      exact findPrinter_id (h.filter keep) (List.mem_filter.mpr ⟨hmem, hkeep⟩)
    · next hkeep =>
      refine List.find?_eq_none.mpr ?_
      intro q hq hqid
      obtain ⟨hq, hqkeep⟩ := List.mem_filter.mp hq
      -- ids are unique, so that `q` is `p`
      have hsame := findPrinter_id h hq
      rw [beq_iff_eq.mp hqid] at hsame
      obtain rfl := Option.some.inj (hsame.symm.trans hfound)
      exact hkeep hqkeep

/-- What the providers answer, as a function. -/
def Discovered.discover (answers : Discovered) : Discovery.Discovered :=
  fun x => ((answers.find? fun a => a.1 == x).map Prod.snd).getD (.ok [])

/-- Providers are registered under their ids, so that each answers once. -/
theorem Discovered.discover_of_mem {answers : Discovered} (h : (answers.map Prod.fst).Nodup)
    {a : String × Except PrintError (List Printer)} (ha : a ∈ answers) :
    answers.discover a.1 = a.2 := by
  induction answers with
  | nil => exact absurd ha List.not_mem_nil
  | cons b rest ih =>
    obtain ⟨hb, hrest⟩ := List.nodup_cons.mp h
    rcases List.mem_cons.mp ha with rfl | ha
    · simp [discover]
    · have hne : b.1 ≠ a.1 := fun he => hb (he ▸ List.mem_map_of_mem ha)
      rw [← ih hrest ha, discover, discover, List.find?_cons_of_neg (by simpa using hne)]

/-- **The two refreshes are one**: where the cache is the same as a list and as a map, it still is
after a refresh, whatever the providers answer. -/
theorem lookup_refresh {answers : Discovered} (hanswers : (answers.map Prod.fst).Nodup) (now : Time)
    {cache : PrinterCache} {map : Discovery.PrinterCache}
    (h : ∀ id, map.byId.lookup id = cachedPrinter cache.byId id) (id : PrinterId) :
    (Discovery.refresh (answers.map Prod.fst) answers.discover now map).1.byId.lookup id =
      cachedPrinter (cache.refreshed answers now).byId id := by
  have hfound : Discovery.discovered (answers.map Prod.fst) answers.discover = answers.printers := by
    rw [Discovery.discovered, List.flatMap_map]
    refine List.flatMap_congr fun a ha => ?_
    rw [Discovered.discover_of_mem hanswers ha]
    cases a.2 <;> rfl
  have hfailed : ∀ p : Printer, (Discovery.failed (answers.map Prod.fst)
      answers.discover).contains p.provider = answers.failed p := by
    intro p
    rw [Bool.eq_iff_iff, List.contains_iff_mem, Discovery.failed, List.mem_filter, List.mem_map,
      Discovered.failed, List.any_eq_true]
    constructor
    · rintro ⟨⟨a, ha, hp⟩, hbad⟩
      refine ⟨a, ha, ?_⟩
      rw [← hp, Discovered.discover_of_mem hanswers ha] at hbad
      cases hr : a.2 with
      | ok printers => simp [hr, Except.isOk, Except.toBool] at hbad
      | error e => simpa using hp
    · rintro ⟨a, ha, hbad⟩
      cases hr : a.2 with
      | ok printers => simp [hr] at hbad
      | error e =>
        have hp : a.1 = p.provider := by simpa [hr] using hbad
        refine ⟨⟨a, ha, hp⟩, ?_⟩
        rw [← hp, Discovered.discover_of_mem hanswers ha, hr]
        rfl
  show (Discovery.next _ _ map).lookup id = cachedPrinter (nextPrinters answers cache.byId) id
  rw [Discovery.next, nextPrinters, hfound]
  -- what is kept is the same, and each printer found goes over it in both
  have hkept : ∀ id, (map.byId.filter fun p => (Discovery.failed (answers.map Prod.fst)
      answers.discover).contains p.provider).lookup id =
        cachedPrinter (cache.byId.filter answers.failed) id := by
    intro id
    rw [FinMap.lookup_filter, h, cachedPrinter_filter _ _ cache.inOrder]
    simp only [hfailed]
  have hordered : InOrder (cache.byId.filter answers.failed) := cache.inOrder.filter _
  generalize cache.byId.filter answers.failed = kept at hkept hordered
  generalize (map.byId.filter _) = keptMap at hkept
  induction answers.printers generalizing kept keptMap with
  | nil => exact hkept id
  | cons p rest ih =>
    refine ih _ (inOrder_insertPrinter p hordered) _ ?_
    intro id'
    rw [FinMap.lookup_insert_ite, hkept, cachedPrinter_insertPrinter p id' hordered]

/-! ### The agent -/

/-- A printer's capabilities, as far as they are computed here. -/
structure PrinterCapabilities where
  raw : Option Bool
  documentTypes : List DocumentType
  deriving DecidableEq

/-- An entry of a printer's spooler queue. -/
structure QueueEntry where
  spoolerJobId : ℕ
  documentName : Option String
  status : List String
  statusText : Option String
  position : Option ℕ
  totalPages : Option ℕ
  pagesPrinted : Option ℕ
  sizeBytes : Option ℕ
  submittedAt : Option Time
  /-- The agent job this entry belongs to. -/
  kilnJob : Option Job
  deriving DecidableEq

structure PrinterQueueSnapshot where
  printerId : PrinterId
  printerName : String
  /-- Jobs still held by the agent. -/
  agentQueue : List Job
  /-- Entries of the OS queue, including those of other applications. -/
  spoolerQueue : List QueueEntry
  deriving DecidableEq

structure QueueSummary where
  printerId : PrinterId
  printerName : String
  online : Bool
  status : PrinterState
  agentQueued : ℕ
  spoolerActive : ℕ
  spoolerTotal : Option ℕ
  deriving DecidableEq

/-- The job state: the active map and the table. -/
structure Jobs where
  active : FinMap JobId Job
  stored : Database

structure ClientConfig where
  id : String
  name : String
  origins : List String
  permissions : List Permission
  printers : List String

structure SessionInfo where
  clientId : String
  connectedAt : Time

/-- What answers the operations from outside. -/
structure Backend where
  env : Env
  serde : Serde
  now : Time
  discoveryMinGap : Time
  /-- Whether the table can be read. -/
  databaseOk : Bool
  maxDocumentBytes : ℕ
  adminOrigins : List String
  clients : List ClientConfig
  sessions : List SessionInfo
  discovered : Discovered
  /-- A provider's capabilities of its printer. -/
  providerCapabilities : Printer → Except PrintError PrinterCapabilities
  /-- A provider's queue of its printer. -/
  providerQueue : Printer → Except PrintError (List QueueEntry)
  /-- `sources::resolve`. -/
  resolveSource : SourceSpec → Except PrintError Bytes
  /-- `PrintEngine::submit`, and the job state it leaves. -/
  submit : Submitter → PrintRequest → Jobs → Except PrintError Job × Jobs
  /-- `PrintEngine::cancel`, and the job state it leaves. -/
  cancel : JobId → Jobs → Except PrintError Job × Jobs

/-- The calls that act on jobs or fetch documents. -/
inductive ApiCall
  | submit (who : Submitter) (request : PrintRequest)
  | cancel (id : JobId)
  | resolveSource (source : SourceSpec)

structure Agent where
  cache : PrinterCache
  jobs : Jobs
  calls : List ApiCall := []

/-- An operation of the agent. -/
abbrev Service (α : Type) := Fallible Agent PrintError α

namespace Backend

variable (b : Backend)

/-- The value of a result, or its error. -/
def lift {α : Type} (r : Except PrintError α) : Service α := Fallible.ofExcept id r

/-! ### Printers -/

def refreshPrinters (a : Agent) : Agent :=
  { a with cache := a.cache.refreshed b.discovered b.now }

/-- `PrintEngine::printers`. -/
def printers : Service (List Printer) :=
  .act fun a =>
    let a := if a.cache.lastRefresh.isNone then b.refreshPrinters a else a
    (a.cache.byId, a)

/-- No refresh happened within `discovery_min_gap`. -/
def isStale (cache : PrinterCache) : Bool :=
  cache.lastRefresh.all fun t => b.discoveryMinGap ≤ b.now - t

def refreshIfStale (a : Agent) : Agent :=
  if b.isStale a.cache then b.refreshPrinters a else a

/-- `PrintEngine::resolve_printer`. -/
def resolvePrinter (selector : PrinterSelector) : Service Printer := fun a =>
  match findPrinter a.cache.byId selector with
  | some printer => (.ok printer, a)
  | none =>
    -- not in the cache: after a refresh, if the last one is long enough ago
    let a := b.refreshIfStale a
    match findPrinter a.cache.byId selector with
    | some printer => (.ok printer, a)
    | none => (.error (notFound selector), a)

/-- `PrintEngine::default_printer`. -/
def defaultPrinter : Service (Option Printer) := do
  let printers ← b.printers
  pure (printers.find? (·.default))

/-- The document types a printer can print. -/
def documentTypes (provider : Provider) (printer : Printer) : List DocumentType :=
  [DocumentType.raw, .text, .pdf, .html, .image, .label, .receipt, .dotMatrix].filter fun type =>
    (b.env.renderers type).any fun renderer => renderer.outputKinds.any (provider.supports printer)

/-- `PrintEngine::capabilities`. -/
def capabilities (id : PrinterId) : Service PrinterCapabilities := do
  let printer ← b.resolvePrinter (.id id)
  let provider ← lift (b.env.provider printer.provider)
  let caps ← lift (b.providerCapabilities printer)
  pure { caps with documentTypes := b.documentTypes provider printer }

/-! ### Queues -/

/-- `Inner::active_jobs`. -/
def activeJobs (jobs : Jobs) (pred : Job → Bool) : List Job :=
  (jobs.active.values.filter pred).mergeSort fun a b => a.createdAt ≤ b.createdAt

/-- The job is still held by the agent. -/
def heldByAgent (j : Job) : Bool :=
  match j.delivery with
  | .requestAccepted | .submitting => true
  | _ => false

/-- The snapshot of a printer's queues, from what its provider answers. -/
def snapshot (printer : Printer) (entries : List QueueEntry) (ours : List Job) :
    PrinterQueueSnapshot where
  printerId := printer.id
  printerName := printer.name
  agentQueue := ours.filter heldByAgent
  spoolerQueue := entries.map fun e =>
    { e with kilnJob := ours.find? fun j => j.spoolerJobId == some e.spoolerJobId }

/-- `PrintEngine::queue`. -/
def queue (id : PrinterId) : Service PrinterQueueSnapshot := do
  let printer ← b.resolvePrinter (.id id)
  let _ ← lift (b.env.provider printer.provider)
  let entries ← lift (b.providerQueue printer)
  .act fun a => (snapshot printer entries (activeJobs a.jobs (·.printerId == some printer.id)), a)

/-- A line of the queue summary. -/
def summary (active : List Job) (p : Printer) : QueueSummary :=
  let mine := active.filter (·.printerId == some p.id)
  { printerId := p.id
    printerName := p.name
    online := p.online
    status := p.status
    agentQueued := mine.countP heldByAgent
    spoolerActive := mine.countP (·.delivery == .spoolerAccepted)
    spoolerTotal := p.queuedJobs }

/-- `PrintEngine::queue_summary`. -/
def queueSummary : Service (List QueueSummary) := do
  let printers ← b.printers
  .act fun a => (printers.map (summary (activeJobs a.jobs fun _ => true)), a)

/-! ### Jobs -/

/-- `PrintEngine::job`. -/
def job (jobs : Jobs) (id : JobId) : Except PrintError Job :=
  match jobs.active.lookup id with
  | some job => .ok job
  | none =>
    if b.databaseOk then
      match jobs.stored.get id with
      | some job => .ok job
      | none => .error (.jobNotFound id)
    else .error .internal

/-- `PrintEngine::jobs`. -/
def listed (jobs : Jobs) (filter : JobFilter) : Except PrintError (List Job) :=
  if b.databaseOk then .ok (jobs.stored.list filter) else .error .internal

/-- Reads the job state. -/
def reading {α : Type} (f : Jobs → Except PrintError α) : Service α := fun a => (f a.jobs, a)

/-- Calls the engine's `submit`. -/
def callSubmit (who : Submitter) (request : PrintRequest) : Service Job := fun a =>
  let (result, jobs) := b.submit who request a.jobs
  (result, { a with jobs := jobs, calls := a.calls ++ [.submit who request] })

/-- Calls the engine's `cancel`. -/
def callCancel (id : JobId) : Service Job := fun a =>
  let (result, jobs) := b.cancel id a.jobs
  (result, { a with jobs := jobs, calls := a.calls ++ [.cancel id] })

/-- Calls `sources::resolve`. -/
def callResolveSource (source : SourceSpec) : Service Bytes := fun a =>
  (b.resolveSource source, { a with calls := a.calls ++ [.resolveSource source] })

end Backend

end KilnPrint
