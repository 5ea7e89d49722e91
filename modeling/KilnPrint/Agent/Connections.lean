/-
The connections of the agent.

* `AppState`, `appStep` — the slots, the connections, the registry of sessions and the audit log, and
  every step of them: an upgrade, a step of a connection, the shutdown, a purge of the log;
* `conn_invariant` — what every step of a connection keeps holds of every connection there is;
* `session_authenticated` — **nothing is done for a client, and nothing told it, before it has
  presented its token**;
* `frames_answered` — **every frame is answered once**.
-/
import KilnPrint.Agent.Answering
import KilnPrint.Agent.Config
import KilnPrint.Agent.Database
import KilnPrint.Lib.FinMap
import KilnPrint.Lib.Runs

namespace KilnPrint

namespace Connection

open Replay (RequestEnvelope)
open Runs (Reach)

/-- A connection, by the order of the upgrades. -/
abbrev ConnId := ℕ

/-- The sessions that the agent lists. -/
abbrev SessionRegistry := FinMap SessionId SessionInfo

def SessionRegistry.touch (sessions : SessionRegistry) (id : SessionId) (now : Time) :
    SessionRegistry :=
  match sessions.lookup id with
  | some info => sessions.insert id { info with lastActivity := now }
  | none => sessions

theorem SessionRegistry.lookup_touch (sessions : SessionRegistry) (id n : SessionId) (now : Time) :
    (SessionRegistry.touch sessions id now).lookup n =
      if n = id then (sessions.lookup n).map fun info => { info with lastActivity := now }
      else sessions.lookup n := by
  unfold touch
  by_cases heq : n = id
  · subst heq
    rw [if_pos rfl]
    cases hlook : sessions.lookup n with
    | none => exact hlook
    | some info => exact AList.lookup_insert _
  · rw [if_neg heq]
    cases sessions.lookup id with
    | none => rfl
    | some info => exact AList.lookup_insert_ne heq

structure AppState where
  slots : ℕ
  conns : FinMap ConnId Conn := ∅
  registry : SessionRegistry := ∅
  /-- The calls of `Database::audit` made so far. -/
  audit : List AuditRecord := []
  /-- The rows of `audit_log`, with their `ts`. -/
  auditLog : List (Time × AuditRecord) := []
  now : Time := 0
  /-- Whether the database takes an insertion. -/
  storing : Bool := true
  nextConn : ConnId := 0
  nextSession : SessionId := 0
  shutdown : Bool := false

inductive AppStep
  | upgrade (peer : SocketAddr) (headers : Headers)
  | shutDown
  /-- Time goes on, and the database may begin to fail, or cease to. -/
  | outside (now : Time) (storing : Bool)
  /-- `audit_retention`, where its deletion succeeds. -/
  | purgeAudit (cutoff : Time)
  | conn (id : ConnId) (a : Step)

section

variable {δ : Type}

/-- The agent as it starts. -/
def AppState.start (sv : Server δ) : AppState where
  slots := sv.maxConnections

/-- `header_origin`: the text of an origin that is refused. -/
def headerOrigin (headers : Headers) : Option (List Char) :=
  (headers.origin.bind headerText).map (·.take 200)

/-- `Database::audit`: a record whose insertion fails is lost. -/
def AppState.record (s : AppState) (record : AuditRecord) : AppState :=
  { s with
    audit := s.audit ++ [record]
    auditLog := if s.storing then s.auditLog ++ [(s.now, record)] else s.auditLog }

/-- `Database::purge_audit_before`. -/
def AppState.purgeAuditBefore (s : AppState) (cutoff : Time) : AppState :=
  { s with auditLog := s.auditLog.filter fun row => ts cutoff ≤ ts row.1 }

/-- The answer to a request for an upgrade. -/
def upgrade (sv : Server δ) (s : AppState) (peer : SocketAddr) (headers : Headers) :
    AppState × Except Rejection ConnId :=
  match sv.guard.check peer headers with
  | .error (status, reason) =>
    (s.record (.rejected (headerOrigin headers) reason), .error (status, reason))
  | .ok info =>
    if info.origin.any fun origin => !sv.auth.originKnown origin then
      (s.record (.rejected info.origin "unknown origin"), .error (403, "origin not allowed"))
    else if s.slots = 0 then (s, .error (503, "too many connections"))
    else
      ({ s with
        slots := s.slots - 1
        conns := s.conns.insert s.nextConn { info := info }
        nextConn := s.nextConn + 1 }, .ok s.nextConn)

/-- What a step of a connection does to the rest. -/
def Effect.apply (s : AppState) : Effect → AppState
  | insert info => { s with registry := s.registry.insert info.sessionId info }
  | touch id now => { s with registry := SessionRegistry.touch s.registry id now }
  | remove id => { s with registry := s.registry.erase id }
  | audit record => s.record record
  | release => { s with slots := s.slots + 1 }

/-- A session is told to stop only when the agent shuts down. -/
def Step.allowed (shutdown : Bool) : Step → Bool
  | stop => shutdown
  | _ => true

variable [DecidableEq δ]

/-- A step of one of the connections. -/
def advance (sv : Server δ) (s : AppState) (id : ConnId) (a : Step) : Option AppState :=
  if a.allowed s.shutdown then
    (s.conns.lookup id).bind fun x =>
      (connStep sv s.nextSession x a).map fun (x, effects) =>
        effects.foldl Effect.apply
          { s with conns := s.conns.insert id x, nextSession := s.nextSession + 1 }
  else none

/-- One step of the agent. -/
def appStep (sv : Server δ) (s : AppState) : AppStep → Option AppState
  | .upgrade peer headers => some (upgrade sv s peer headers).1
  | .shutDown => some { s with shutdown := true }
  | .outside now storing => some { s with now := now, storing := storing }
  | .purgeAudit cutoff => some (s.purgeAuditBefore cutoff)
  | .conn id a => advance sv s id a

end

/-! ### Every connection -/

section

variable {δ : Type} [DecidableEq δ] {sv : Server δ} {s s' : AppState} {a : AppStep}

/-- The states that the agent gets into. -/
def Reached (sv : Server δ) (s : AppState) : Prop :=
  Reach (appStep sv) (fun _ _ => True) (AppState.start sv) s

/-- Whoever is let in has passed the guard, from an origin that some client may use. -/
def LetIn (sv : Server δ) (info : ConnectionInfo) : Prop :=
  (∃ peer headers, sv.guard.check peer headers = .ok info) ∧
    ∀ origin, info.origin = some origin → sv.auth.originKnown origin = true

omit [DecidableEq δ] in
/-- What an upgrade does. -/
theorem upgrade_cases (sv : Server δ) (s : AppState) (peer : SocketAddr) (headers : Headers) :
    (∃ origin reason, (upgrade sv s peer headers).1 = s.record (.rejected origin reason)) ∨
    (upgrade sv s peer headers).1 = s ∨
    ∃ info, LetIn sv info ∧ s.slots ≠ 0 ∧ (upgrade sv s peer headers).1 =
      { s with
        slots := s.slots - 1
        conns := s.conns.insert s.nextConn { info := info }
        nextConn := s.nextConn + 1 } := by
  unfold upgrade
  cases hcheck : sv.guard.check peer headers with
  | error rejection => exact .inl ⟨_, _, rfl⟩
  | ok info =>
    dsimp only
    split_ifs with horigin hslots
    · exact .inl ⟨_, _, rfl⟩
    · exact .inr (.inl rfl)
    · refine .inr (.inr ⟨info, ⟨⟨peer, headers, hcheck⟩, ?_⟩, hslots, rfl⟩)
      intro origin heq
      rw [heq, Option.any_some, Bool.not_eq_true, Bool.not_eq_false'] at horigin
      exact horigin

/-- A step of a connection changes no other, and does at most one thing to the agent. -/
theorem advance_eq_some {id : ConnId} {a : Step} (h : advance sv s id a = some s') :
    ∃ x x' effects, s.conns.lookup id = some x ∧ Turn sv s.nextSession x x' effects ∧
      s' = effects.foldl Effect.apply
        { s with conns := s.conns.insert id x', nextSession := s.nextSession + 1 } := by
  obtain ⟨-, h⟩ := Option.ite_none_right_eq_some.mp h
  obtain ⟨x, hx, h⟩ := Option.bind_eq_some_iff.mp h
  obtain ⟨⟨x', effects⟩, hstep, rfl⟩ := Option.map_eq_some_iff.mp h
  exact ⟨x, x', effects, hx, connStep_turn hstep, rfl⟩

theorem Effect.apply_conns (effect : Effect) : (effect.apply s).conns = s.conns := by
  cases effect <;> rfl

theorem foldl_conns (effects : List Effect) :
    ∀ s : AppState, (effects.foldl Effect.apply s).conns = s.conns := by
  induction effects with
  | nil => exact fun _ => rfl
  | cons effect rest ih => exact fun s => (ih _).trans effect.apply_conns

/-- **What holds of a new connection and is kept by its steps** holds of every connection. -/
theorem conn_invariant {I : Conn → Prop} (hopen : ∀ info, LetIn sv info → I { info := info })
    (hturn : ∀ fresh x x' effects, I x → Turn sv fresh x x' effects → I x')
    (h : Reached sv s) {id : ConnId} {x : Conn} (hx : s.conns.lookup id = some x) : I x := by
  revert id x
  refine h.invariant (I := fun s => ∀ {id x}, s.conns.lookup id = some x → I x) ?_ ?_
  · intro id x hx
    cases hx
  · intro s a s' _ ih _ hs id x hx
    cases a with
    | shutDown | outside | purgeAudit =>
      obtain rfl := Option.some.inj hs
      exact ih hx
    | upgrade peer headers =>
      rw [← Option.some.inj hs] at hx
      rcases upgrade_cases sv s peer headers with
        ⟨origin, reason, heq⟩ | heq | ⟨info, hin, -, heq⟩
      · rw [heq] at hx
        exact ih hx
      · rw [heq] at hx
        exact ih hx
      · rw [heq, FinMap.lookup_insert_ite] at hx
        split at hx
        · obtain rfl := Option.some.inj hx
          exact hopen info hin
        · exact ih hx
    | conn id' a =>
      obtain ⟨y, y', effects, hy, hstep, rfl⟩ := advance_eq_some hs
      rw [foldl_conns, FinMap.lookup_insert_ite] at hx
      split at hx
      · obtain rfl := Option.some.inj hx
        exact hturn _ _ _ _ (ih hy) hstep
      · exact ih hx

/-! ### What a client gets -/

/-- What a connection keeps. -/
structure Conn.Kept (sv : Server δ) (x : Conn) : Prop where
  letIn : LetIn sv x.info
  gated : x.Gated sv
  answers : x.Answers sv
  wire : x.Wire

theorem kept_opened {info : ConnectionInfo} (h : LetIn sv info) :
    Conn.Kept sv { info := info } where
  letIn := h
  gated := by
    refine ⟨fun _ => rfl, fun _ h => (by cases h), fun _ h => (by cases h),
      fun _ h => (by cases h), fun h => ?_⟩
    rcases h with h | h <;> exact absurd rfl h
  answers :=
    ⟨fun _ => ⟨rfl, rfl⟩, rfl, Nat.zero_le _, [], rfl, rfl, fun _ h => (by cases h)⟩
  wire :=
    ⟨fun _ => rfl, Nat.zero_le _, .refl _, fun _ _ h => (by cases h), fun _ h => (by cases h)⟩

theorem kept_of_reached (h : Reached sv s) {id : ConnId} {x : Conn}
    (hx : s.conns.lookup id = some x) : x.Kept sv := by
  refine conn_invariant (I := fun x => x.Kept sv) (fun info => kept_opened) ?_ h hx
  intro fresh x x' effects h hturn
  exact ⟨hturn.info ▸ h.letIn, h.gated.turn hturn, h.answers.turn h.gated hturn,
    h.wire.turn h.answers hturn⟩

/-- **Nothing is done for a client before it has presented its token.**  In every run of the agent,
a connection has passed the guard and comes from a known origin; the service is called for the one
caller that its first text frame lets in; and if that frame lets nobody in, nothing but refusals is
ever sent. -/
theorem session_authenticated (h : Reached sv s) {id : ConnId} {x : Conn}
    (hx : s.conns.lookup id = some x) :
    LetIn sv x.info ∧
      (∀ call ∈ x.dispatched, x.Admitted sv call.1) ∧
      (∀ call ∈ x.dispatched, ∀ call' ∈ x.dispatched, call.1 = call'.1) ∧
      ((∀ who, ¬ x.Admitted sv who) →
        x.dispatched = [] ∧ ∀ m ∈ x.delivered ++ x.queue, m.refusal = true) := by
  obtain ⟨hin, hgated, -, hwire⟩ := kept_of_reached h hx
  refine ⟨hin, hgated.dispatched, ?_, ?_⟩
  · intro call hcall call' hcall'
    exact admitted_unique (hgated.dispatched call hcall) (hgated.dispatched call' hcall')
  · intro hnobody
    refine ⟨List.eq_nil_iff_forall_not_mem.mpr ?_, ?_⟩
    · exact fun call hcall => hnobody _ (hgated.dispatched call hcall)
    · intro m hm
      have htold : x.told = [] := by
        by_contra htold
        obtain ⟨who, hwho⟩ := hgated.told (.inl htold)
        exact hnobody who hwho
      have hsent := hwire.sent.subset hm
      rw [htold, List.append_nil] at hsent
      by_contra hrefusal
      obtain ⟨who, hwho⟩ := hgated.greeted m (List.mem_append_left _ hsent)
        (Bool.not_eq_true _ ▸ hrefusal)
      exact hnobody who hwho

def labToken : String := "0123456789abcdef0123456789abcdef0123456789abcdef0123456789abcdef"

/-- The parameters of a hello. -/
def labParams : Value :=
  .obj [("protocolVersions", .arr [.num 1]), ("client", .obj [("name", .str "till")]),
    ("auth", .obj [("type", .str "token"), ("token", .str labToken)])]

def labHello : RequestEnvelope := ⟨some 1, some "request", "1", "session.hello", labParams⟩

def labList : RequestEnvelope := ⟨some 1, some "request", "2", "printers.list", .null⟩

/-- The agent of the configuration, with two slots. -/
def labServer : Server String where
  guard := ⟨false⟩
  digests := ⟨id, some⟩
  auth := (TokenAuthenticator.new ⟨id, some⟩ none labConfig.security).toOption.getD ⟨[]⟩
  helloParams params :=
    if params = labParams then .ok ⟨[1], "till", none, labToken⟩ else .error "missing field"
  welcome _ _ := .obj []
  maxConnections := 2
  maxInFlight := 1

def labUpgrade : AppStep :=
  .upgrade ⟨.v4 127 0 0 1, 50000⟩ ⟨some ("127.0.0.1".toList.map fun c => c.toNat.toUInt8), none, none⟩

/-- One connection says hello and asks for the printers, and another asks for them at once, while
the database takes no insertion. -/
def labRun : List AppStep :=
  [labUpgrade, .conn 0 (.upgraded true), .conn 0 (.receive (.text ⟨.ok labHello, none⟩) 0 true),
    .conn 0 .proceed, .conn 0 .proceed, .conn 0 .proceed, labUpgrade, .conn 1 (.upgraded true),
    .outside 1 false, .conn 1 (.receive (.text ⟨.ok labList, none⟩) 1 true), .outside 2 true,
    .conn 0 (.receive (.text ⟨.ok labList, none⟩) 2 true), .conn 0 (.finish 0 (.ok (.arr []))),
    .conn 1 .proceed, .conn 0 (.respond 0), .conn 0 (.write true), .conn 1 .proceed,
    .conn 0 (.write true), .conn 0 (.receive .binary 3 true), .conn 1 .proceed, .conn 1 .proceed]

def labState : AppState :=
  (Runs.checked (appStep labServer) (fun _ _ => true) (AppState.start labServer) labRun).getD
    (AppState.start labServer)

theorem lab_reached : Reached labServer labState := by
  have hrun : (Runs.checked (appStep labServer) (fun _ _ => true) (AppState.start labServer)
      labRun).isSome = true := by decide +kernel
  obtain ⟨s, hs⟩ := Option.isSome_iff_exists.mp hrun
  have hlab : labState = s := by
    rw [labState, hs]
    rfl
  exact hlab ▸ Runs.reach_of_checked (fun _ _ _ => trivial) hs

theorem session_authenticated_lab :
    (∃ x, labState.conns.lookup 0 = some x ∧ x.dispatched.length = 1 ∧ LetIn labServer x.info ∧
      ∀ call ∈ x.dispatched, x.Admitted labServer call.1) ∧
    ∃ x, labState.conns.lookup 1 = some x ∧ x.queue.length = 2 ∧
      ∀ m ∈ x.delivered ++ x.queue, m.refusal = true := by
  have hfirst : (labState.conns.lookup 0).map (·.dispatched.length) = some 1 := by decide +kernel
  have hsecond : (labState.conns.lookup 1).map (fun x => (x.queue.length,
      x.texts.head?.map fun message => message.request.toOption.map (·.method))) =
        some (2, some (some "printers.list")) := by decide +kernel
  obtain ⟨x, hx, hlength⟩ := Option.map_eq_some_iff.mp hfirst
  obtain ⟨y, hy, hheld⟩ := Option.map_eq_some_iff.mp hsecond
  obtain ⟨hqueue, hmethod⟩ := Prod.mk.inj hheld
  obtain ⟨hin, hcalls, -⟩ := session_authenticated lab_reached hx
  refine ⟨⟨x, hx, hlength, hin, hcalls⟩, y, hy, hqueue, ?_⟩
  refine ((session_authenticated lab_reached hy).2.2.2 ?_).2
  rintro who ⟨message, hhead, request, params, hrequest, hhello, -⟩
  rw [hhead, Option.map_some, hrequest] at hmethod
  have hsame := Option.some.inj (Option.some.inj hmethod)
  exact absurd (hhello.symm.trans hsame) (by decide)

/-- **Every frame is answered once.**  In every run of the agent, the text and binary frames that
the loop of a connection has read are those whose response is sent, waits or is that of a request in
flight, each under the frame's own id; no more than the limit are in flight; what was dispatched is
what the guard against replayed frames lets through; and what is on the wire was sent, in order, with
at most one answer to the hello and nothing after a close. -/
theorem frames_answered (h : Reached sv s) {id : ConnId} {x : Conn}
    (hx : s.conns.lookup id = some x) :
    x.answered = x.asked ∧ x.calls.length ≤ sv.maxInFlight ∧
      (∃ frames, x.Guards frames) ∧
      (x.delivered ++ x.queue).Sublist (x.greeted ++ x.told) ∧
      (x.greeted.filterMap Message.replyTo).length ≤ 1 ∧
      ∀ m ∈ x.delivered.dropLast, m.isClose = false := by
  obtain ⟨-, -, hanswers, hwire⟩ := kept_of_reached h hx
  refine ⟨hanswers.owed, hanswers.limit, hanswers.guarded, hwire.sent, ?_, hwire.closed⟩
  refine le_trans (List.Sublist.length_le ?_) hwire.hello
  exact (List.sublist_append_left _ _).filterMap _

theorem frames_answered_lab : ∃ x, labState.conns.lookup 0 = some x ∧ x.delivered.length = 2 ∧
    x.answered = x.asked ∧ x.asked.card = 2 := by
  have hheld : (labState.conns.lookup 0).map (fun x => (x.delivered.length,
      x.texts.tail.length, x.binaries)) = some (2, 1, 1) := by decide +kernel
  obtain ⟨x, hx, hcounts⟩ := Option.map_eq_some_iff.mp hheld
  obtain ⟨hdelivered, hrest⟩ := Prod.mk.inj hcounts
  obtain ⟨htexts, hbinaries⟩ := Prod.mk.inj hrest
  refine ⟨x, hx, hdelivered, (frames_answered lab_reached hx).1, ?_⟩
  rw [Conn.asked, Multiset.card_add, Multiset.card_replicate, Multiset.coe_card, List.length_map,
    htexts, hbinaries]

end

end Connection

end KilnPrint
