/-
The configuration of the agent, and its checks.

* `AgentConfig`, `ConfigError` — what the checks read, and which of them failed;
* `validate` — **the checks, in their order**;
* `Valid`, `valid_of_validate` — what a configuration that passes is known to be;
* `config_sound` — **a valid configuration builds an authenticator that knows every client by an id
  of its own and every origin that was written, and no network printer stands in another's way**.

The wording of the errors is left out, and fields that no check reads.  Whether a path is absolute
depends on the system.
-/
import KilnPrint.Agent.Token
import KilnPrint.Provider.Tcp
import Mathlib.Algebra.Order.Ring.Rat

namespace KilnPrint

open Tcp (TcpPrinterConfig configOf)
open TokenAuthenticator (adminEntry clientEntry)

structure ServerConfig where
  bind : SocketAddr
  allowNonLoopback : Bool
  maxConnections : ℕ
  maxInFlightPerConnection : ℕ

structure LimitsConfig where
  maxDocumentBytes : ℕ
  maxCopies : ℕ

structure NetworkPrinterConfig where
  name : String
  host : String
  port : ℕ
  language : Option String
  status : Tcp.StatusQuery
  connectTimeoutMs : ℕ
  writeTimeoutMs : ℕ

/-- `to_provider_config`. -/
def NetworkPrinterConfig.toProviderConfig (p : NetworkPrinterConfig) : TcpPrinterConfig where
  name := p.name
  host := p.host
  port := p.port
  language := p.language
  statusQuery := p.status
  connectTimeout := max p.connectTimeoutMs 100
  writeTimeout := max p.writeTimeoutMs 100

structure AgentConfig where
  networkPrinters : List NetworkPrinterConfig
  server : ServerConfig
  security : SecurityConfig
  requestsPerSecond : ℚ
  limits : LimitsConfig
  htmlTimeoutSecs : ℕ
  allowedPaths : List String
  allowedUrlPrefixes : List String

/-- The check that failed, with what its message shows. -/
inductive ConfigError
  | bind (bind : SocketAddr)
  | maxConnections
  | maxInFlightPerConnection
  | maxDocumentBytes
  | maxCopies
  | requestsPerSecond
  | adminOrigin (origin : String)
  | allowedPath (path : String)
  | allowedUrlPrefix (entry : String)
  | htmlTimeoutSecs
  | printerName (name : String)
  | duplicatePrinter (name : String)
  | printerHost (name host : String)
  | printerPort (name : String)
  | printerLanguage (name language : String)
  | clientId (id : String)
  | reservedClient (id : String)
  | duplicateClient (id : String)
  | clientToken (id : String)
  | clientOrigin (id origin : String)
  deriving DecidableEq

def ensure (c : Bool) (e : ConfigError) : Except ConfigError Unit :=
  if c then pure () else throw e

/-- What the checks take from elsewhere: the builtin languages, and the system's paths. -/
structure Surroundings where
  languages : ProtocolRegistry
  isAbsolute : String → Bool

/-! ### The checks -/

def validOrigin (origin : String) : Bool := (Origin.normaliseOrigin origin.toList).isSome

/-- The key under which a network printer must be the only one. -/
def printerKey (p : NetworkPrinterConfig) : List Char := UrlSource.lower (trimWhitespace p.name.toList)

def hostCharacter (c : Char) : Bool := c.isAlphanum || ".-:[]".toList.contains c

def idCharacter (c : Char) : Bool := c.isLower || c.isDigit || "._-".toList.contains c

/-- `is_ascii_hexdigit`. -/
def isHexDigit (c : Char) : Bool :=
  c.isDigit || ('a' ≤ c && c ≤ 'f') || ('A' ≤ c && c ≤ 'F')

/-- The loop over the network printers, with the names it has seen. -/
def checkPrinters (around : Surroundings) :
    List (List Char) → List NetworkPrinterConfig → Except ConfigError Unit
  | _, [] => pure ()
  | names, p :: rest => do
    let name := String.ofList (trimWhitespace p.name.toList)
    ensure (!name.isEmpty && name.utf8ByteSize ≤ 128 && !name.toList.any isControl)
      (.printerName p.name)
    ensure (!names.contains (printerKey p)) (.duplicatePrinter name)
    ensure (!p.host.isEmpty && p.host.utf8ByteSize ≤ 253 && p.host.toList.all hostCharacter)
      (.printerHost name p.host)
    ensure (0 < p.port) (.printerPort name)
    p.language.forM fun language =>
      ensure (around.languages.resolve language).isSome (.printerLanguage name language)
    checkPrinters around (printerKey p :: names) rest

/-- The loop over the clients, with the ids it has seen. -/
def checkClients : List String → List TrustedClient → Except ConfigError Unit
  | _, [] => pure ()
  | ids, client :: rest => do
    ensure (!client.id.isEmpty && client.id.utf8ByteSize ≤ 64 && client.id.toList.all idCharacter)
      (.clientId client.id)
    ensure (client.id != adminClientId) (.reservedClient client.id)
    ensure (!ids.contains client.id) (.duplicateClient client.id)
    ensure (client.tokenSha256.utf8ByteSize == 64 && client.tokenSha256.toList.all isHexDigit)
      (.clientToken client.id)
    client.origins.forM fun origin => ensure (validOrigin origin) (.clientOrigin client.id origin)
    checkClients (client.id :: ids) rest

namespace AgentConfig

def validate (around : Surroundings) (config : AgentConfig) : Except ConfigError Unit := do
  ensure (config.server.bind.ip.isLoopback || config.server.allowNonLoopback)
    (.bind config.server.bind)
  ensure (0 < config.server.maxConnections) .maxConnections
  ensure (0 < config.server.maxInFlightPerConnection) .maxInFlightPerConnection
  ensure (0 < config.limits.maxDocumentBytes) .maxDocumentBytes
  ensure (0 < config.limits.maxCopies) .maxCopies
  ensure (0 < config.requestsPerSecond) .requestsPerSecond
  config.security.adminOrigins.forM fun origin => ensure (validOrigin origin) (.adminOrigin origin)
  config.allowedPaths.forM fun path => ensure (around.isAbsolute path) (.allowedPath path)
  config.allowedUrlPrefixes.forM fun entry =>
    ensure (UrlSource.validPrefix entry.toList) (.allowedUrlPrefix entry)
  ensure (0 < config.htmlTimeoutSecs) .htmlTimeoutSecs
  checkPrinters around [] config.networkPrinters
  checkClients [] config.security.clients

end AgentConfig

/-! ### What passes -/

@[simp] theorem ensure_eq_ok {c : Bool} {e : ConfigError} : ensure c e = .ok () ↔ c = true := by
  cases c
  · exact iff_of_false (fun h => by cases h) Bool.false_ne_true
  · exact iff_of_true rfl rfl

/-- Checks in a row pass when each does. -/
theorem checks_bind {m : Except ConfigError Unit} {f : Unit → Except ConfigError Unit} :
    (m >>= f) = .ok () ↔ m = .ok () ∧ f () = .ok () := by
  cases m with
  | error e => exact iff_of_false (fun h => by cases h) fun h => by cases h.1
  | ok u => exact ⟨fun h => ⟨rfl, h⟩, And.right⟩

theorem checks_forM {α : Type} {xs : List α} {f : α → Except ConfigError Unit} :
    xs.forM f = .ok () ↔ ∀ x ∈ xs, f x = .ok () := by
  induction xs with
  | nil => exact iff_of_true rfl fun _ h => by cases h
  | cons x xs ih =>
    show (f x >>= fun _ => xs.forM f) = .ok () ↔ _
    rw [checks_bind, ih, List.forall_mem_cons]

/-- The names that pass are new, and each is the only one. -/
theorem checkPrinters_keys {around : Surroundings} {ps : List NetworkPrinterConfig} :
    ∀ {names : List (List Char)}, checkPrinters around names ps = .ok () →
      (∀ p ∈ ps, printerKey p ∉ names) ∧ ps.Pairwise fun p q => printerKey p ≠ printerKey q := by
  induction ps with
  | nil => exact fun _ => ⟨(fun _ h => by cases h), .nil⟩
  | cons p rest ih =>
    intro names h
    simp only [checkPrinters, checks_bind, ensure_eq_ok] at h
    obtain ⟨-, hnew, -, -, -, hrest⟩ := h
    obtain ⟨hnames, hpair⟩ := ih hrest
    have hnew' : printerKey p ∉ names := by simpa using hnew
    refine ⟨List.forall_mem_cons.mpr ⟨hnew', fun q hq hmem => ?_⟩, hpair.cons fun q hq he => ?_⟩
    · exact hnames q hq (List.mem_cons_of_mem _ hmem)
    · exact hnames q hq (he ▸ List.mem_cons_self)

/-- A client that passes, whatever the others are. -/
structure TrustedClient.Valid (client : TrustedClient) : Prop where
  unreserved : client.id ≠ adminClientId
  length : client.tokenSha256.utf8ByteSize = 64
  digits : client.tokenSha256.toList.all isHexDigit = true
  origins : ∀ origin ∈ client.origins, validOrigin origin = true

theorem checkClients_spec {clients : List TrustedClient} :
    ∀ {ids : List String}, checkClients ids clients = .ok () →
      (∀ client ∈ clients, client.Valid ∧ client.id ∉ ids) ∧
        (clients.map fun client => client.id).Nodup := by
  induction clients with
  | nil => exact fun _ => ⟨(fun _ h => by cases h), List.nodup_nil⟩
  | cons client rest ih =>
    intro ids h
    simp only [checkClients, checks_bind, checks_forM, ensure_eq_ok] at h
    obtain ⟨-, hunreserved, hnew, htoken, horigins, hrest⟩ := h
    obtain ⟨hvalid, hnodup⟩ := ih hrest
    rw [Bool.and_eq_true, beq_iff_eq] at htoken
    have hclient : client.Valid := ⟨by simpa using hunreserved, htoken.1, htoken.2, horigins⟩
    refine ⟨List.forall_mem_cons.mpr ⟨⟨hclient, by simpa using hnew⟩, fun c hc => ?_⟩,
      List.nodup_cons.mpr ⟨fun hmem => ?_, hnodup⟩⟩
    · exact (hvalid c hc).imp_right fun hnot hmem => hnot (List.mem_cons_of_mem _ hmem)
    · obtain ⟨c, hc, he⟩ := List.mem_map.mp hmem
      exact (hvalid c hc).2 (he ▸ List.mem_cons_self)

/-- What is used of a configuration that passes. -/
structure AgentConfig.Valid (config : AgentConfig) : Prop where
  adminOrigins : ∀ origin ∈ config.security.adminOrigins, validOrigin origin = true
  printers : config.networkPrinters.Pairwise fun p q => printerKey p ≠ printerKey q
  clients : ∀ client ∈ config.security.clients, client.Valid
  ids : (config.security.clients.map fun client => client.id).Nodup

theorem AgentConfig.valid_of_validate {around : Surroundings} {config : AgentConfig}
    (h : config.validate around = .ok ()) : config.Valid := by
  simp only [validate, checks_bind, checks_forM, ensure_eq_ok] at h
  obtain ⟨-, -, -, -, -, -, hadmin, -, -, -, hprinters, hclients⟩ := h
  obtain ⟨hvalid, hids⟩ := checkClients_spec hclients
  exact ⟨hadmin, (checkPrinters_keys hprinters).2, fun client hc => (hvalid client hc).1, hids⟩

/-! ### What a valid configuration builds -/

section

variable {δ : Type} {digests : Digests δ} {clients : List TrustedClient} {config : AgentConfig}

/-- The entries of clients, in order. -/
abbrev EntriesOf (digests : Digests δ) : List TrustedClient → List (TokenAuthenticator.Entry δ) → Prop :=
  List.Forall₂ fun client entry => clientEntry digests client = some entry

variable {entries : List (TokenAuthenticator.Entry δ)}

/-- Clients whose hashes are read have an entry each. -/
theorem mapM_readClient (h : ∀ client ∈ clients, (digests.decode client.tokenSha256).isSome) :
    ∃ entries, clients.mapM (TokenAuthenticator.readClient digests) = .ok entries ∧
      EntriesOf digests clients entries := by
  induction clients with
  | nil => exact ⟨[], rfl, .nil⟩
  | cons client rest ih =>
    obtain ⟨entries, hrun, hentries⟩ := ih fun c hc => h c (List.mem_cons_of_mem _ hc)
    obtain ⟨hash, hhash⟩ := Option.isSome_iff_exists.mp (h client List.mem_cons_self)
    obtain ⟨entry, hentry⟩ : ∃ entry, clientEntry digests client = some entry := by
      rw [clientEntry, hhash]
      exact ⟨_, rfl⟩
    have hread : TokenAuthenticator.readClient digests client = .ok entry := by
      rw [TokenAuthenticator.readClient, hentry]
    refine ⟨entry :: entries, ?_, .cons hentry hentries⟩
    rw [List.mapM_cons, hread, hrun]
    rfl

/-- The entries that were read. -/
theorem entriesOf_of_mapM (h : clients.mapM (TokenAuthenticator.readClient digests) = .ok entries) :
    EntriesOf digests clients entries := by
  induction clients generalizing entries with
  | nil =>
    cases h
    exact .nil
  | cons client rest ih =>
    rw [List.mapM_cons] at h
    obtain ⟨entry, hread, h⟩ := Except.bind_eq_ok.mp h
    obtain ⟨others, hrest, h⟩ := Except.bind_eq_ok.mp h
    cases h
    refine .cons ?_ (ih hrest)
    unfold TokenAuthenticator.readClient at hread
    split at hread
    · next found hfound =>
      cases hread
      exact hfound
    · cases hread

/-- The entries carry the clients' ids. -/
theorem EntriesOf.ids (h : EntriesOf digests clients entries) :
    entries.map (fun entry => entry.principal.clientId) = clients.map fun client => client.id := by
  induction h with
  | nil => rfl
  | cons hentry _ ih =>
    obtain ⟨hash, -, rfl⟩ := Option.map_eq_some_iff.mp hentry
    exact congrArg _ ih

/-- Every client has its entry. -/
theorem EntriesOf.exists_entry (h : EntriesOf digests clients entries) {client : TrustedClient}
    (hc : client ∈ clients) : ∃ entry ∈ entries, clientEntry digests client = some entry := by
  induction h with
  | nil => cases hc
  | cons hentry _ ih =>
    rcases List.mem_cons.mp hc with rfl | hc
    · exact ⟨_, List.mem_cons_self, hentry⟩
    · obtain ⟨entry, hmem, he⟩ := ih hc
      exact ⟨entry, List.mem_cons_of_mem _ hmem, he⟩

/-- An origin that was written where an entry's come from is one of the entry's. -/
theorem mem_normaliseAll {origins : List String} {written : String} (hw : written ∈ origins)
    (hvalid : validOrigin written = true) :
    ∃ origin, Origin.normaliseOrigin written.toList = some origin ∧ origin ∈ normaliseAll origins := by
  obtain ⟨origin, ho⟩ := Option.isSome_iff_exists.mp hvalid
  exact ⟨origin, ho, List.mem_filterMap.mpr ⟨written, hw, ho⟩⟩

/-- The origins written in a configuration. -/
def SecurityConfig.origins (security : SecurityConfig) : List String :=
  security.adminOrigins ++ security.clients.flatMap fun client => client.origins

/-- The printer of a name is found by it. -/
theorem configOf_eq {ps : List NetworkPrinterConfig} {p : NetworkPrinterConfig} {printer : Printer}
    (hpair : ps.Pairwise fun p q => printerKey p ≠ printerKey q) (hp : p ∈ ps)
    (hname : printer.name = p.name) :
    configOf (ps.map NetworkPrinterConfig.toProviderConfig) printer = .ok p.toProviderConfig := by
  have hfind : (ps.map NetworkPrinterConfig.toProviderConfig).find?
      (fun c => c.name == printer.name) = some p.toProviderConfig := by
    induction ps with
    | nil => cases hp
    | cons q rest ih =>
      obtain ⟨hq, hrest⟩ := List.pairwise_cons.mp hpair
      rw [List.map_cons]
      rcases List.mem_cons.mp hp with rfl | hp
      · exact List.find?_cons_of_pos (beq_iff_eq.mpr hname.symm)
      · have hne : (q.toProviderConfig.name == printer.name) ≠ true := by
          intro hb
          have hsame : q.name = p.name := (eq_of_beq hb).trans hname
          exact hq p hp (by rw [printerKey, printerKey, hsame])
        refine Eq.trans ?_ (ih hrest hp)
        exact List.find?_cons_of_neg (p := fun c : TcpPrinterConfig => c.name == printer.name) hne
  rw [configOf, hfind]

variable [DecidableEq δ]

/-- **A valid configuration builds an authenticator**, whatever the admin token is.  Two callers
with one client id are the same client, every origin that was written is let in, and each network
printer is sent its own jobs. -/
theorem config_sound (digests : Digests δ) {around : Surroundings} (token : String)
    (hdecode : ∀ text : String, text.utf8ByteSize = 64 → text.toList.all isHexDigit = true →
      (digests.decode text).isSome)
    (h : config.validate around = .ok ()) :
    ∃ auth, TokenAuthenticator.new digests (some token) config.security = .ok auth ∧
      (∀ t t' connection connection' who who', auth.authenticate digests t connection = .ok who →
        auth.authenticate digests t' connection' = .ok who' → who.clientId = who'.clientId →
        who' = { who with origin := connection'.origin }) ∧
      (∀ written ∈ config.security.origins, ∃ origin,
        Origin.normaliseOrigin written.toList = some origin ∧ auth.originKnown origin = true) ∧
      ∀ p ∈ config.networkPrinters, ∀ printer : Printer, printer.name = p.name →
        configOf (config.networkPrinters.map NetworkPrinterConfig.toProviderConfig) printer =
          .ok p.toProviderConfig := by
  have hvalid := AgentConfig.valid_of_validate h
  have hread : ∀ client ∈ config.security.clients, (digests.decode client.tokenSha256).isSome :=
    fun client hc => hdecode _ (hvalid.clients client hc).length (hvalid.clients client hc).digits
  obtain ⟨entries, hrun, hentries⟩ := mapM_readClient hread
  let auth : TokenAuthenticator δ := ⟨adminEntry digests token config.security :: entries⟩
  have hids : (auth.entries.map fun entry => entry.principal.clientId).Nodup := by
    show ((adminEntry digests token config.security :: entries).map _).Nodup
    rw [List.map_cons, hentries.ids]
    refine List.nodup_cons.mpr ⟨fun hmem => ?_, hvalid.ids⟩
    obtain ⟨client, hc, hadmin⟩ := List.mem_map.mp hmem
    exact (hvalid.clients client hc).unreserved hadmin
  have hmem : ∀ {t connection who}, auth.authenticate digests t connection = .ok who →
      ∃ entry ∈ auth.entries, who = { entry.principal with origin := connection.origin } := by
    intro t connection who hok
    obtain ⟨entry, ⟨pre, post, hsplit, -⟩, -, hwho⟩ := TokenAuthenticator.authenticate_eq_ok.mp hok
    exact ⟨entry, hsplit ▸ List.mem_append_right _ List.mem_cons_self, hwho⟩
  refine ⟨auth, ?_, fun t t' connection connection' who who' hok hok' hid => ?_,
    fun written hw => ?_, fun p hp printer hname => configOf_eq hvalid.printers hp hname⟩
  · rw [TokenAuthenticator.new, hrun]
    rfl
  · obtain ⟨entry, hentry, rfl⟩ := hmem hok
    obtain ⟨entry', hentry', rfl⟩ := hmem hok'
    rw [List.inj_on_of_nodup_map hids hentry hentry' hid]
  · rcases List.mem_append.mp hw with hw | hw
    · obtain ⟨origin, ho, hknown⟩ := mem_normaliseAll hw (hvalid.adminOrigins written hw)
      exact ⟨origin, ho, List.any_eq_true.mpr ⟨_, List.mem_cons_self,
        List.any_eq_true.mpr ⟨origin, hknown, beq_self_eq_true origin⟩⟩⟩
    · obtain ⟨client, hc, hw⟩ := List.mem_flatMap.mp hw
      obtain ⟨origin, ho, hknown⟩ := mem_normaliseAll hw ((hvalid.clients client hc).origins written hw)
      obtain ⟨entry, he, hentry⟩ := hentries.exists_entry hc
      obtain ⟨hash, -, rfl⟩ := Option.map_eq_some_iff.mp hentry
      exact ⟨origin, ho, List.any_eq_true.mpr ⟨_, List.mem_cons_of_mem _ he,
        List.any_eq_true.mpr ⟨origin, hknown, beq_self_eq_true origin⟩⟩⟩

end

/-- A configuration with one client and one network printer. -/
def labConfig : AgentConfig where
  networkPrinters := [⟨"Dock Zebra", "192.168.1.50", 9100, none, .zpl, 3000, 30000⟩]
  server := ⟨⟨.v4 127 0 0 1, 18731⟩, false, 64, 16⟩
  security :=
    { adminOrigins := []
      clients := [
        { id := "lab", name := "Lab", origins := ["https://Lab.example.com/"]
          permissions := [.print], printers := ["*"]
          tokenSha256 := "0123456789abcdef0123456789abcdef0123456789abcdef0123456789abcdef" }] }
  requestsPerSecond := 50
  limits := ⟨1000, 99⟩
  htmlTimeoutSecs := 30
  allowedPaths := []
  allowedUrlPrefixes := []

theorem config_sound_lab : labConfig.validate ⟨{}, fun _ => false⟩ = .ok () ∧
    ∃ auth : TokenAuthenticator String, ∃ origin,
      TokenAuthenticator.new ⟨id, some⟩ (some "secret") labConfig.security = .ok auth ∧
        auth.originKnown origin = true := by
  have hvalid : labConfig.validate ⟨{}, fun _ => false⟩ = .ok () := by decide +kernel
  obtain ⟨auth, hauth, -, horigins, -⟩ := config_sound ⟨id, some⟩ "secret" (fun _ _ _ => rfl) hvalid
  obtain ⟨origin, -, hknown⟩ := horigins "https://Lab.example.com/" (by decide +kernel)
  exact ⟨hvalid, auth, origin, hauth, hknown⟩

end KilnPrint
