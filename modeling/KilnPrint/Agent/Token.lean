/-
Whose a token is.

* `Caller` — an authenticated caller, with the fields that no operation reads;
* `SecurityConfig`, `TokenAuthenticator` — the clients in the configuration, and the entries the
  agent keeps of them;
* `authenticate`, `originKnown` — what becomes of a token, and which web pages are let in at all;
* `authenticate_eq_ok` — **a token is the last entry's with its hash, and a web page's only where
  its origin is one of that entry's**.

The hash function and the decoder of hexadecimal text are parameters.
-/
import KilnPrint.Agent.Backend
import KilnPrint.Agent.HostGuard
import KilnPrint.Registry

namespace KilnPrint

open ProtocolRegistry (IsLast isLast_append not_isLast_nil isLast_unique)

inductive PrincipalKind
  | admin
  | client
  deriving DecidableEq, Repr

/-- A principal, with the rest of what the agent knows of it. -/
structure Caller extends Principal where
  name : String
  kind : PrincipalKind
  origin : Option (List Char)
  deriving DecidableEq

/-- A client of the configuration, with the hash of its token in hexadecimal digits. -/
structure TrustedClient extends ClientConfig where
  tokenSha256 : String

structure SecurityConfig where
  /-- Browser origins allowed to use the admin token. -/
  adminOrigins : List String
  clients : List TrustedClient

structure TokenAuthenticator.Entry (δ : Type) where
  hash : δ
  principal : Caller
  origins : List (List Char)

structure TokenAuthenticator (δ : Type) where
  entries : List (TokenAuthenticator.Entry δ)

/-- What the agent takes from the hashing and the hexadecimal libraries. -/
structure Digests (δ : Type) where
  hashToken : String → δ
  decode : String → Option δ

def normaliseAll (origins : List String) : List (List Char) :=
  origins.filterMap fun origin => Origin.normaliseOrigin origin.toList

namespace TokenAuthenticator

variable {δ : Type}

/-- The entry of the admin token. -/
def adminEntry (digests : Digests δ) (token : String) (security : SecurityConfig) : Entry δ where
  hash := digests.hashToken token
  principal :=
    { clientId := adminClientId, permissions := Permission.all, printers := ["*"]
      name := "Local administrator", kind := .admin, origin := none }
  origins := normaliseAll security.adminOrigins

/-- The entry of a client; `none` where its hash is not read. -/
def clientEntry (digests : Digests δ) (client : TrustedClient) : Option (Entry δ) :=
  (digests.decode client.tokenSha256).map fun hash =>
    { hash := hash
      principal :=
        { clientId := client.id, permissions := client.permissions, printers := client.printers
          name := client.name, kind := .client, origin := none }
      origins := normaliseAll client.origins }

def readClient (digests : Digests δ) (client : TrustedClient) : Except String (Entry δ) :=
  match clientEntry digests client with
  | some entry => .ok entry
  | none => .error s!"client '{client.id}': invalid token_sha256"

/-- The agent does not start without it. -/
def new (digests : Digests δ) (adminToken : Option String) (security : SecurityConfig) :
    Except String (TokenAuthenticator δ) := do
  let admin := (adminToken.map fun token => adminEntry digests token security).toList
  let clients ← security.clients.mapM (readClient digests)
  pure ⟨admin ++ clients⟩

variable [DecidableEq δ]

/-- The scan that does not stop at a match. -/
def lookup (auth : TokenAuthenticator δ) (presented : δ) : Option (Entry δ) :=
  auth.entries.foldl (fun matched entry => if entry.hash = presented then some entry else matched)
    none

def authenticate (digests : Digests δ) (auth : TokenAuthenticator δ) (token : String)
    (connection : ConnectionInfo) : Except PrintError Caller :=
  match auth.lookup (digests.hashToken token) with
  | none =>
    .error (.new .clientNotTrusted "the presented credentials are not trusted by this agent")
  | some entry =>
    let admitted : Caller := { entry.principal with origin := connection.origin }
    match connection.origin with
    | some origin =>
      if entry.origins.any (· == origin) then .ok admitted
      else
        let shown := String.ofList origin
        .error (.new .accessDenied s!"origin {shown} is not allowed for this client")
    | none => .ok admitted

omit [DecidableEq δ] in
/-- Whether any client may connect from an origin. -/
def originKnown (auth : TokenAuthenticator δ) (origin : List Char) : Bool :=
  auth.entries.any fun entry => entry.origins.any (· == origin)

/-! ### What a token opens -/

variable {digests : Digests δ} {auth : TokenAuthenticator δ} {token : String}
  {connection : ConnectionInfo} {who : Caller} {entry : Entry δ}

theorem lookup_eq_some {presented : δ} :
    auth.lookup presented = some entry ↔ IsLast (·.hash = presented) auth.entries entry := by
  unfold lookup
  induction auth.entries using List.reverseRecOn with
  | nil => exact iff_of_false (fun h => by cases h) not_isLast_nil
  | append_singleton entries last ih =>
    rw [List.foldl_append, List.foldl_cons, List.foldl_nil, isLast_append, ← ih]
    by_cases hlast : last.hash = presented
    · rw [if_pos hlast, Option.some_inj]
      exact ⟨fun h => .inl ⟨hlast, h.symm⟩, fun h => h.elim (fun h => h.2.symm) fun h => absurd hlast h.1⟩
    · rw [if_neg hlast]
      exact ⟨fun h => .inr ⟨hlast, h⟩, fun h => h.elim (fun h => absurd h.1 hlast) And.right⟩

/-- **A token is the last entry's with its hash**, and from a web page only where the page's origin
is one of the entry's. -/
theorem authenticate_eq_ok : auth.authenticate digests token connection = .ok who ↔
    ∃ entry, IsLast (·.hash = digests.hashToken token) auth.entries entry ∧
      (∀ origin, connection.origin = some origin → origin ∈ entry.origins) ∧
        who = { entry.principal with origin := connection.origin } := by
  unfold authenticate
  cases hlookup : auth.lookup (digests.hashToken token) with
  | none =>
    refine iff_of_false (fun h => by cases h) ?_
    rintro ⟨entry, hlast, -⟩
    rw [lookup_eq_some.mpr hlast] at hlookup
    cases hlookup
  | some entry =>
    have hlast := lookup_eq_some.mp hlookup
    have honly : ∀ entry', IsLast (·.hash = digests.hashToken token) auth.entries entry' →
        entry' = entry := fun entry' h => isLast_unique h hlast
    cases horigin : connection.origin with
    | none =>
      dsimp only
      constructor
      · intro h
        exact ⟨entry, hlast, (fun _ ho => by cases ho), (Except.ok.inj h).symm⟩
      · rintro ⟨entry', hlast', -, rfl⟩
        rw [honly entry' hlast']
    | some origin =>
      dsimp only
      split
      · next hmem =>
        have hmem' : origin ∈ entry.origins := by simpa using hmem
        constructor
        · intro h
          refine ⟨entry, hlast, fun o ho => ?_, (Except.ok.inj h).symm⟩
          exact Option.some_inj.mp ho ▸ hmem'
        · rintro ⟨entry', hlast', -, rfl⟩
          rw [honly entry' hlast']
      · next hmem =>
        refine iff_of_false (fun h => by cases h) ?_
        rintro ⟨entry', hlast', hallowed, -⟩
        rw [honly entry' hlast'] at hallowed
        exact hmem (by simpa using hallowed origin rfl)

end TokenAuthenticator

end KilnPrint
