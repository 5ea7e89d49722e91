/-
The clients that the agent lists.

* `SessionRegistry.list`, `Serves` — the sessions that the operations of the API are given;
* `clients_listed` — **every session is shown once, under the client it belongs to**, and a client is
  shown as connected exactly while one of its connections is in the loop.
-/
import KilnPrint.Agent.Config
import KilnPrint.Agent.Ownership
import KilnPrint.Agent.Sessions

namespace KilnPrint

namespace Connection

/-- `SessionRegistry::list`: by the time they connected. -/
def SessionRegistry.list (sessions : SessionRegistry) : List SessionInfo :=
  sessions.values.mergeSort fun a b => a.connectedAt ≤ b.connectedAt

/-- What the operations read of a session. -/
def SessionInfo.view (info : SessionInfo) : KilnPrint.SessionInfo := ⟨info.clientId, info.connectedAt⟩

/-- What the operations of the API are given of the connections and the configuration. -/
structure Serves (config : AgentConfig) (s : AppState) (b : Backend) : Prop where
  sessions : b.sessions = (SessionRegistry.list s.registry).map SessionInfo.view
  clients : b.clients = config.security.clients.map TrustedClient.toClientConfig
  adminOrigins : b.adminOrigins = config.security.adminOrigins

/-- Elements that are grouped by a key stay the same ones. -/
theorem perm_groups {α κ : Type} [DecidableEq κ] (f : α → κ) {ks : List κ} (hks : ks.Nodup) :
    ∀ {l : List α}, (∀ a ∈ l, f a ∈ ks) →
      (ks.flatMap fun k => l.filter fun a => f a == k).Perm l := by
  induction ks with
  | nil =>
    intro l h
    rw [List.eq_nil_iff_forall_not_mem.mpr fun a ha => List.not_mem_nil (h a ha)]
    exact .nil
  | cons k rest ih =>
    intro l h
    obtain ⟨hk, hrest⟩ := List.nodup_cons.mp hks
    have hothers : ∀ a ∈ l.filter fun a => !(f a == k), f a ∈ rest := by
      intro a ha
      obtain ⟨ha, hne⟩ := List.mem_filter.mp ha
      exact (List.mem_cons.mp (h a ha)).resolve_left (by simpa using hne)
    -- the other keys' elements are not of this key
    have hsame : ∀ k' ∈ rest, l.filter (fun a => f a == k') =
        (l.filter fun a => !(f a == k)).filter fun a => f a == k' := by
      intro k' hk'
      rw [List.filter_filter]
      refine List.filter_congr fun a _ => ?_
      by_cases heq : f a = k'
      · have hne : f a ≠ k := fun h => hk (h ▸ heq ▸ hk')
        simp [heq, heq ▸ hne]
      · simp [heq]
    rw [List.flatMap_cons, List.flatMap_congr hsame]
    exact ((ih hrest hothers).append_left _).trans (List.filter_append_perm _ l)

section

variable {δ : Type} [DecidableEq δ] {sv : Server δ} {s : AppState} {config : AgentConfig}
  {adminToken : Option String} {b : Backend}

/-- The ids of the clients, with the administrator's. -/
def clientIds (config : AgentConfig) : List String :=
  adminClientId :: config.security.clients.map fun client => client.id

/-- A caller is one of the clients. -/
theorem clientId_known
    (hauth : TokenAuthenticator.new sv.digests adminToken config.security = .ok sv.auth)
    {x : Conn} {who : Caller} (h : x.Admitted sv who) : who.clientId ∈ clientIds config := by
  obtain ⟨_, -, _, params, -, -, -, -, hok⟩ := h
  obtain ⟨entry, ⟨pre, post, hsplit, -⟩, -, rfl⟩ := TokenAuthenticator.authenticate_eq_ok.mp hok
  have hentry : entry ∈ sv.auth.entries := hsplit ▸ List.mem_append_right _ List.mem_cons_self
  obtain ⟨entries, hread, hnew⟩ := Except.bind_eq_ok.mp hauth
  rw [← Except.ok.inj hnew] at hentry
  rcases List.mem_append.mp hentry with hadmin | hclient
  · cases adminToken with
    | none => cases hadmin
    | some token =>
      obtain rfl := List.mem_singleton.mp hadmin
      exact List.mem_cons_self
  · refine List.mem_cons_of_mem _ ?_
    rw [← (entriesOf_of_mapM hread).ids]
    exact List.mem_map_of_mem hclient

/-- A session in the registry is that of a listed connection. -/
theorem listed_iff (h : Reached sv s) (id : String) :
    (∃ n info, s.registry.lookup n = some info ∧ info.clientId = id) ↔
      ∃ c x t, s.conns.lookup c = some x ∧ t ∈ x.pc.session ∧ x.pc.stage.isListed = true ∧
        t.who.clientId = id := by
  have haccounts := accounts_of_reached h
  constructor
  · rintro ⟨n, info, hinfo, rfl⟩
    obtain ⟨c, x, t, hx, ht, hlisted, heq, -, hclient, -⟩ := listed_of_registry haccounts hinfo
    exact ⟨c, x, t, hx, ht, hlisted, by rw [heq, ← hclient]⟩
  · rintro ⟨c, x, t, hx, ht, hlisted, rfl⟩
    have hholds := (haccounts.sessions t.info.sessionId).holds (stage_of_lookup hx)
      (stage_of_session ht)
    obtain ⟨time, hentry⟩ := hholds.entry
    rw [if_pos hlisted] at hentry
    exact ⟨_, _, hentry, hholds.client⟩

/-- What the operations are given of the registry. -/
theorem Serves.mem_sessions (h : Serves config s b) {view : KilnPrint.SessionInfo} :
    view ∈ b.sessions ↔ ∃ n info, s.registry.lookup n = some info ∧ info.view = view := by
  rw [h.sessions, List.mem_map]
  have hvalues : ∀ info, info ∈ SessionRegistry.list s.registry ↔
      ∃ n, s.registry.lookup n = some info := by
    intro info
    rw [SessionRegistry.list, List.mem_mergeSort, FinMap.mem_values]
  constructor
  · rintro ⟨info, hinfo, rfl⟩
    obtain ⟨n, hn⟩ := (hvalues info).mp hinfo
    exact ⟨n, info, hn, rfl⟩
  · rintro ⟨n, info, hn, rfl⟩
    exact ⟨info, (hvalues info).mpr ⟨n, hn⟩, rfl⟩

/-- The line of a client. -/
theorem connected_iff (h : Reached sv s) (hserves : Serves config s b) (client : ClientConfig)
    (isAdmin : Bool) :
    (Service.clientSummary b client isAdmin).connected = true ↔
      ∃ c x t, s.conns.lookup c = some x ∧ t ∈ x.pc.session ∧ x.pc.stage.isListed = true ∧
        t.who.clientId = client.id := by
  rw [← listed_iff h client.id]
  show (!(b.sessions.filter fun view => view.clientId == client.id).isEmpty) = true ↔ _
  rw [Bool.not_eq_true', List.isEmpty_eq_false_iff_exists_mem]
  constructor
  · rintro ⟨view, hview⟩
    obtain ⟨hmem, hid⟩ := List.mem_filter.mp hview
    obtain ⟨n, info, hn, rfl⟩ := hserves.mem_sessions.mp hmem
    exact ⟨n, info, hn, eq_of_beq hid⟩
  · rintro ⟨n, info, hn, hid⟩
    refine ⟨info.view, List.mem_filter.mpr ⟨hserves.mem_sessions.mpr ⟨n, info, hn, rfl⟩, ?_⟩⟩
    exact beq_iff_eq.mpr hid

/-- What `clients.list` returns. -/
theorem lines_eq {who : Principal} {a a' : KilnPrint.Agent} {lines : List Service.ClientSummary}
    (h : Service.listClients b who a = (.ok lines, a')) :
    lines = Service.clientSummary b (Service.localAdministrator b) true ::
      b.clients.map fun client => Service.clientSummary b client false := by
  unfold Service.listClients Service.require Backend.lift at h
  cases hallowed : who.require .clientsRead with
  | error e =>
    rw [hallowed] at h
    cases h
  | ok _ =>
    rw [hallowed] at h
    cases h
    rfl

/-- **Every session is shown once, under the client it belongs to.**  In every run of an agent whose
configuration is valid, the lines that `clients.list` returns have all the sessions of the registry,
each in one of them; and a client is shown as connected exactly while a connection that has
authenticated as it is in its loop. -/
theorem clients_listed {around : Surroundings} {who : Principal} {a a' : KilnPrint.Agent}
    {lines : List Service.ClientSummary} (h : Reached sv s)
    (hconfig : config.validate around = .ok ())
    (hauth : TokenAuthenticator.new sv.digests adminToken config.security = .ok sv.auth)
    (hserves : Serves config s b) (hlist : Service.listClients b who a = (.ok lines, a')) :
    (lines.flatMap fun line => line.sessions).Perm b.sessions ∧
      ∀ line ∈ lines, line.connected = true ↔
        ∃ c x t, s.conns.lookup c = some x ∧ t ∈ x.pc.session ∧ x.pc.stage.isListed = true ∧
          t.who.clientId = line.clientId := by
  have hlines := lines_eq hlist
  have hvalid := AgentConfig.valid_of_validate hconfig
  have hids : (clientIds config).Nodup := by
    refine List.nodup_cons.mpr ⟨fun hmem => ?_, hvalid.ids⟩
    obtain ⟨client, hc, hadmin⟩ := List.mem_map.mp hmem
    exact (hvalid.clients client hc).unreserved hadmin
  have hknown : ∀ view ∈ b.sessions, view.clientId ∈ clientIds config := by
    intro view hview
    obtain ⟨n, info, hn, rfl⟩ := hserves.mem_sessions.mp hview
    obtain ⟨c, x, t, hx, ht, -, heq, -, hclient, -⟩ :=
      listed_of_registry (accounts_of_reached h) hn
    have hid := clientId_known hauth ((kept_of_reached h hx).gated.session t ht)
    rw [← hclient] at hid
    rw [heq]
    exact hid
  refine ⟨?_, fun line hline => ?_⟩
  · have hgroups : (lines.flatMap fun line => line.sessions) =
        (clientIds config).flatMap fun id => b.sessions.filter fun view => view.clientId == id := by
      rw [hlines, hserves.clients]
      simp only [clientIds, List.flatMap_cons, List.flatMap_map]
      rfl
    rw [hgroups]
    exact perm_groups (fun view : KilnPrint.SessionInfo => view.clientId) hids hknown
  · rw [hlines] at hline
    rcases List.mem_cons.mp hline with rfl | hline
    · exact connected_iff h hserves _ true
    · obtain ⟨client, -, rfl⟩ := List.mem_map.mp hline
      exact connected_iff h hserves client false

/-- What the operations of the agent are given. -/
def labBackend : Backend :=
  { deskBackend with
    sessions := (SessionRegistry.list labState.registry).map SessionInfo.view
    clients := labConfig.security.clients.map TrustedClient.toClientConfig }

def auditor : Principal := ⟨adminClientId, Permission.all, ["*"]⟩

theorem clients_listed_lab : ∃ lines a',
    Service.listClients labBackend auditor quietAgent = (.ok lines, a') ∧
      (lines.map fun line => (line.clientId, line.connected)) =
        [(adminClientId, false), ("lab", true)] ∧
      (lines.flatMap fun line => line.sessions).Perm labBackend.sessions ∧
      ∃ c x t, labState.conns.lookup c = some x ∧ t ∈ x.pc.session ∧ t.who.clientId = "lab" := by
  have hnew : (TokenAuthenticator.new labServer.digests none labConfig.security).isOk = true := by
    decide +kernel
  obtain ⟨auth, hauth⟩ := Except.exists_ok hnew
  have hserver : labServer.auth = (TokenAuthenticator.new labServer.digests none
      labConfig.security).toOption.getD ⟨[]⟩ := rfl
  have hsame : labServer.auth = auth := by
    rw [hserver, hauth]
    rfl
  have hconfig : labConfig.validate ⟨{}, fun _ => false⟩ = .ok () := by decide +kernel
  have hserves : Serves labConfig labState labBackend := ⟨rfl, rfl, rfl⟩
  let lines := Service.clientSummary labBackend (Service.localAdministrator labBackend) true ::
    labBackend.clients.map fun client => Service.clientSummary labBackend client false
  have hlist : Service.listClients labBackend auditor quietAgent = (.ok lines, quietAgent) := rfl
  have hshown : (lines.map fun line => (line.clientId, line.connected)) =
      [(adminClientId, false), ("lab", true)] := by decide +kernel
  obtain ⟨hperm, hconnected⟩ := clients_listed lab_reached hconfig (hsame ▸ hauth) hserves hlist
  have hline : ("lab", true) ∈ lines.map fun line => (line.clientId, line.connected) := by
    rw [hshown]
    exact List.mem_cons_of_mem _ List.mem_cons_self
  obtain ⟨line, hmem, heq⟩ := List.mem_map.mp hline
  obtain ⟨hid, htrue⟩ := Prod.mk.inj heq
  obtain ⟨c, x, t, hx, ht, -, hclient⟩ := (hconnected line hmem).mp htrue
  exact ⟨lines, quietAgent, hlist, hshown, hperm, c, x, t, hx, ht, hclient.trans hid⟩

end

end Connection

end KilnPrint
