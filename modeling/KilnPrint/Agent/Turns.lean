/-
What a step of a connection can be.

* `Admits` — **a frame that lets a caller in**, and `hello_eq_ok`, which frames these are;
* `helloFailure` — what a first frame is refused for, if it is refused after it was read;
* `Greeted` — what the first text frame leads to;
* `Moves`, `Greets`, `Tells`, `Offers` — how the session task goes on: by itself, by sending, or
  by offering a message that may be lost;
* `Turn`, `connStep_turn` — **every step is one of these**, or the writer's, or a request's.
-/
import KilnPrint.Agent.Session

namespace KilnPrint

namespace Connection

open Replay (RequestEnvelope Recent supportedProtocolVersions handleText TextFrame)

variable {δ : Type} [DecidableEq δ] {sv : Server δ} {fresh : SessionId}

/-! ### The first frame -/

/-- A `session.hello` of a version the agent speaks, with a token of `who`. -/
def Admits (sv : Server δ) (connection : ConnectionInfo) (message : TextMessage) (who : Caller) :
    Prop :=
  ∃ request params, message.request = .ok request ∧ request.method = "session.hello" ∧
    parseParams sv.helloParams request.params = .ok params ∧
    (∃ v ∈ params.protocolVersions, v ∈ supportedProtocolVersions) ∧
    sv.auth.authenticate sv.digests params.token connection = .ok who

theorem negotiate_eq_some {versions : List ℕ} {v : ℕ} (h : negotiate versions = some v) :
    v ∈ versions ∧ v ∈ supportedProtocolVersions := by
  have hmem := List.mem_filter.mp (List.max?_mem h)
  exact ⟨hmem.1, List.contains_iff_mem.mp hmem.2⟩

/-- **A hello that is accepted** is one that lets the caller in. -/
theorem hello_eq_ok {request : RequestEnvelope} {connection : ConnectionInfo} {now : Time}
    {who : Caller} {info : SessionInfo}
    (h : hello sv request connection fresh now = .ok (who, info)) :
    (∀ rawId, Admits sv connection ⟨.ok request, rawId⟩ who) ∧
      info.sessionId = fresh ∧ info.clientId = who.clientId ∧ info.origin = who.origin := by
  unfold hello at h
  by_cases hmethod : request.method ≠ "session.hello"
  · rw [if_pos hmethod] at h
    cases h
  rw [if_neg hmethod] at h
  obtain ⟨params, hparams, h⟩ := Except.bind_eq_ok.mp h
  cases hversion : negotiate params.protocolVersions with
  | none =>
    simp only [hversion] at h
    cases h
  | some v =>
    simp only [hversion] at h
    obtain ⟨caller, hauth, h⟩ := Except.bind_eq_ok.mp h
    obtain ⟨rfl, rfl⟩ := Prod.mk.inj (Except.ok.inj h)
    exact ⟨fun _ => ⟨request, params, rfl, not_not.mp hmethod, hparams,
      ⟨v, negotiate_eq_some hversion⟩, hauth⟩, rfl, rfl, rfl⟩

/-- Whether a hello is refused, and why, is not a matter of the session it would open. -/
theorem hello_error {request : RequestEnvelope} {connection : ConnectionInfo} {now now' : Time}
    {fresh' : SessionId} {e : PrintError} (h : hello sv request connection fresh now = .error e) :
    hello sv request connection fresh' now' = .error e := by
  unfold hello at h ⊢
  by_cases hmethod : request.method ≠ "session.hello"
  · rw [if_pos hmethod] at h ⊢
    exact h
  rw [if_neg hmethod] at h ⊢
  dsimp only [bind, Except.bind] at h ⊢
  cases hparams : parseParams sv.helloParams request.params with
  | error e' =>
    rw [hparams] at h
    exact h
  | ok params =>
    rw [hparams] at h
    dsimp only at h ⊢
    cases hversion : negotiate params.protocolVersions with
    | none =>
      rw [hversion] at h
      exact h
    | some v =>
      rw [hversion] at h
      cases hauth : sv.auth.authenticate sv.digests params.token connection with
      | error e' =>
        rw [hauth] at h
        exact h
      | ok who =>
        rw [hauth] at h
        cases h

/-- The error that a first text frame is refused with, if it is a request. -/
def helloFailure (sv : Server δ) (connection : ConnectionInfo) (message : TextMessage) :
    Option ErrorCode :=
  match message.request with
  | .error _ => none
  | .ok request =>
    match hello sv request connection 0 0 with
    | .ok _ => none
    | .error e => some e.errorCode

/-- What the first text frame leads to. -/
inductive Greeted (sv : Server δ) (fresh : SessionId) (connection : ConnectionInfo)
    (message : TextMessage) : Pc → List Effect → Prop
  | malformed (e : PrintError) (hnone : helloFailure sv connection message = none) :
      Greeted sv fresh connection message
        (.refusing [.response none (.error e), .close closePolicy "malformed hello"]) []
  | failed (id : String) (e : PrintError)
      (hfailure : helloFailure sv connection message = some e.errorCode) :
      Greeted sv fresh connection message
        (.pausing id e) [.audit (.authFailure connection.origin e.errorCode)]
  | admitted (id : String) (who : Caller) (info : SessionInfo)
      (hwho : Admits sv connection message who) (hfresh : info.sessionId = fresh)
      (hclient : info.clientId = who.clientId) (horigin : info.origin = who.origin)
      (hnone : helloFailure sv connection message = none) :
      Greeted sv fresh connection message
        (.admitting (.response (some id) (.ok (sv.welcome who info))) { who := who, info := info })
        []

theorem greetText_greeted (sv : Server δ) (fresh : SessionId) (x : Conn) (message : TextMessage)
    (now : Time) :
    ∃ pc effects, Greeted sv fresh x.info message pc effects ∧
      greetText sv fresh x message now =
        ({ x with texts := x.texts ++ [message], pc := pc }, effects) := by
  obtain ⟨request, rawId⟩ := message
  unfold greetText
  cases request with
  | error e => exact ⟨_, _, .malformed _ rfl, rfl⟩
  | ok request =>
    cases hello_result : hello sv request x.info fresh now with
    | error e =>
      simp only [hello_result]
      refine ⟨_, _, .failed request.id e ?_, rfl⟩
      simp only [helloFailure, hello_error hello_result]
    | ok found =>
      obtain ⟨who, info⟩ := found
      simp only [hello_result]
      obtain ⟨hwho, hfresh, hclient, horigin⟩ := hello_eq_ok hello_result
      refine ⟨_, _, .admitted request.id who info (hwho rawId) hfresh hclient horigin ?_, rfl⟩
      -- were it refused, it would be refused for every session
      cases hfirst : hello sv request x.info 0 0 with
      | ok _ => simp only [helloFailure, hfirst]
      | error e =>
        rw [hello_error hfirst] at hello_result
        cases hello_result

/-! ### The session task -/

/-- The session task goes on without the queue. -/
inductive Moves (writer : Writer) : Pc → Pc → List Effect → Prop
  | upgraded : Moves writer .upgrading .greeting []
  | dropped : Moves writer .upgrading .ended [.release]
  | hungUp : Moves writer .greeting (.refusing []) []
  | paused (id : String) (e : PrintError) : Moves writer (.pausing id e)
      (.refusing [.response (some id) (.error e), .close closePolicy e.errorCode.asStr]) []
  | refused : Moves writer (.refusing []) .draining []
  | timedOut {pc : Pc} (h : pc.timed = true) : Moves writer pc .timedOut []
  | inserted (s : Session) : Moves writer (.inserting s) (.connected s) [.insert s.info]
  | connected (s : Session) : Moves writer (.connected s) (.serving s)
      [.audit (.connected s.who.clientId s.who.origin s.info.sessionId)]
  | touched (s : Session) (now : Time) : Moves writer (.serving s) (.serving s)
      [.touch s.info.sessionId now]
  | closes (s : Session) (now : Time) : Moves writer (.serving s) (.removing s)
      [.touch s.info.sessionId now]
  | leaves (s : Session) : Moves writer (.serving s) (.removing s) []
  | parts (s : Session) (code : ℕ) (reason : String) : Moves writer (.serving s)
      (.parting (.close code reason) s) []
  | removed (s : Session) : Moves writer (.removing s) (.disconnected s)
      [.remove s.info.sessionId]
  | disconnected (s : Session) : Moves writer (.disconnected s) .draining
      [.audit (.disconnected s.who.clientId s.who.origin s.info.sessionId)]
  | released (h : writer = .ended) : Moves writer .draining .ended [.release]

/-- What is sent in the handshake. -/
inductive Greets : Pc → Message → Pc → Prop
  | refusing (m : Message) (todo : List Message) : Greets (.refusing (m :: todo)) m (.refusing todo)
  | timedOut : Greets .timedOut (.close closePolicy "authentication timeout") .draining
  | admitting (m : Message) (s : Session) : Greets (.admitting m s) m (.inserting s)

/-- What is sent since. -/
inductive Tells : Pc → Message → Pc → Prop
  | answering (m : Message) (s : Session) : Tells (.answering m s) m (.serving s)
  | parting (m : Message) (s : Session) : Tells (.parting m s) m (.removing s)

/-- What may be lost. -/
inductive Offers (s : Session) : Message → Session → Prop
  | ping : Offers s .ping s
  | event (name : String) (data : EventStream.EventData) :
      Offers s (.event ⟨name, s.seq + 1, data⟩) { s with seq := s.seq + 1 }

/-! ### Steps -/

/-- What a step can be. -/
inductive Turn (sv : Server δ) (fresh : SessionId) (x : Conn) : Conn → List Effect → Prop
  | stays : Turn sv fresh x x []
  | moves {pc : Pc} {effects : List Effect} (h : Moves x.writer x.pc pc effects) :
      Turn sv fresh x { x with pc := pc } effects
  | hello {pc : Pc} {effects : List Effect} (message : TextMessage) (hpc : x.pc = .greeting)
      (h : Greeted sv fresh x.info message pc effects) :
      Turn sv fresh x { x with texts := x.texts ++ [message], pc := pc } effects
  | greets {m : Message} {pc : Pc} (h : Greets x.pc m pc) (hready : x.ready = true) :
      Turn sv fresh x { x.enqueue m with greeted := x.greeted ++ [m], pc := pc } []
  | tells {m : Message} {pc : Pc} (h : Tells x.pc m pc) (hready : x.ready = true) :
      Turn sv fresh x { x.enqueue m with told := x.told ++ [m], pc := pc } []
  | offers {s s' : Session} {m : Message} (hpc : x.pc = .serving s) (h : Offers s m s') :
      Turn sv fresh x { x.offer m with pc := .serving s' } []
  | refuses {s : Session} {id : Option String} {e : PrintError} {recent : Recent}
      (message : TextMessage) (limiter : Bool) (now : Time) (hpc : x.pc = .serving s)
      (h : handleText s.recent (loopFrame sv x message limiter) = (recent, .refused id e)) :
      Turn sv fresh x
        { x with
          texts := x.texts ++ [message]
          pc := .answering (.response id (.error e)) { s with recent := recent } }
        [.touch s.info.sessionId now]
  | dispatches {s : Session} {request : RequestEnvelope} {recent : Recent}
      (message : TextMessage) (limiter : Bool) (now : Time) (hpc : x.pc = .serving s)
      (h : handleText s.recent (loopFrame sv x message limiter) = (recent, .dispatched request)) :
      Turn sv fresh x
        { x with
          texts := x.texts ++ [message]
          pc := .serving { s with recent := recent }
          calls := x.calls ++ [{ request := request }]
          dispatched := x.dispatched ++ [(s.who, request)] }
        [.touch s.info.sessionId now]
  | binary {s : Session} (e : PrintError) (now : Time) (hpc : x.pc = .serving s) :
      Turn sv fresh x
        { x with pc := .answering (.response none (.error e)) s, binaries := x.binaries + 1 }
        [.touch s.info.sessionId now]
  | finishes {n : ℕ} {call : InFlight} (result : Except PrintError Value)
      (hcall : x.calls[n]? = some call) (hresult : call.result = none) :
      Turn sv fresh x { x with calls := x.calls.set n { call with result := some result } } []
  | responds {n : ℕ} {call : InFlight} {result : Except PrintError Value}
      (hcall : x.calls[n]? = some call) (hresult : call.result = some result)
      (hready : x.ready = true) :
      Turn sv fresh x
        { x.enqueue (.response (some call.request.id) result) with
          told := x.told ++ [.response (some call.request.id) result]
          calls := x.calls.eraseIdx n
          pc := x.pc } []
  | writes {m : Message} {rest : List Message} (ok : Bool) (hwriter : x.writer = .writing)
      (hqueue : x.queue = m :: rest) :
      Turn sv fresh x
        { x with
          queue := rest
          delivered := if ok then x.delivered ++ [m] else x.delivered
          writer := if ok && !m.isClose then .writing else .closing } []
  | runsDry (hwriter : x.writer = .writing) (hqueue : x.queue = []) (hpc : x.pc.holds = false)
      (hcalls : x.calls = []) : Turn sv fresh x { x with writer := .closing } []
  | closed (hwriter : x.writer = .closing) :
      Turn sv fresh x { x with writer := .ended, queue := [] } []

variable {x x' : Conn} {effects : List Effect}

theorem greet_eq_some {m : Message} {pc : Pc} (h : x.greet m pc = some x') :
    x.ready = true ∧ x' = { x.enqueue m with greeted := x.greeted ++ [m], pc := pc } := by
  obtain ⟨hready, hx⟩ := Option.ite_none_right_eq_some.mp h
  exact ⟨hready, (Option.some.inj hx).symm⟩

theorem tell_eq_some {m : Message} {pc : Pc} (h : x.tell m pc = some x') :
    x.ready = true ∧ x' = { x.enqueue m with told := x.told ++ [m], pc := pc } := by
  obtain ⟨hready, hx⟩ := Option.ite_none_right_eq_some.mp h
  exact ⟨hready, (Option.some.inj hx).symm⟩

/-- A step of the session task. -/
theorem proceed_turn (h : proceed x = some (x', effects)) : Turn sv fresh x x' effects := by
  unfold proceed at h
  split at h
  case h_1 id e hpc =>
    cases h
    exact .moves (hpc ▸ .paused id e)
  case h_2 hpc =>
    cases h
    exact .moves (hpc ▸ .refused)
  case h_3 m todo hpc =>
    obtain ⟨y, hy, heq⟩ := Option.map_eq_some_iff.mp h
    cases heq
    obtain ⟨hready, rfl⟩ := greet_eq_some hy
    exact .greets (hpc ▸ .refusing m todo) hready
  case h_4 hpc =>
    obtain ⟨y, hy, heq⟩ := Option.map_eq_some_iff.mp h
    cases heq
    obtain ⟨hready, rfl⟩ := greet_eq_some hy
    exact .greets (hpc ▸ .timedOut) hready
  case h_5 m s hpc =>
    obtain ⟨y, hy, heq⟩ := Option.map_eq_some_iff.mp h
    cases heq
    obtain ⟨hready, rfl⟩ := greet_eq_some hy
    exact .greets (hpc ▸ .admitting m s) hready
  case h_6 s hpc =>
    cases h
    exact .moves (hpc ▸ .inserted s)
  case h_7 s hpc =>
    cases h
    exact .moves (hpc ▸ .connected s)
  case h_8 m s hpc =>
    obtain ⟨y, hy, heq⟩ := Option.map_eq_some_iff.mp h
    cases heq
    obtain ⟨hready, rfl⟩ := tell_eq_some hy
    exact .tells (hpc ▸ .answering m s) hready
  case h_9 m s hpc =>
    obtain ⟨y, hy, heq⟩ := Option.map_eq_some_iff.mp h
    cases heq
    obtain ⟨hready, rfl⟩ := tell_eq_some hy
    exact .tells (hpc ▸ .parting m s) hready
  case h_10 s hpc =>
    cases h
    exact .moves (hpc ▸ .removed s)
  case h_11 s hpc =>
    cases h
    exact .moves (hpc ▸ .disconnected s)
  case h_12 hpc =>
    obtain ⟨hwriter, hx⟩ := Option.ite_none_right_eq_some.mp h
    cases hx
    exact .moves (hpc ▸ .released hwriter)
  case h_13 => cases h

/-- A text frame of the loop. -/
theorem serveText_turn {s : Session} {message : TextMessage} {now : Time} (limiter : Bool)
    (hpc : x.pc = .serving s) :
    Turn sv fresh x (serveText sv x s message limiter) [.touch s.info.sessionId now] := by
  unfold serveText
  dsimp only
  cases hhandle : handleText s.recent (loopFrame sv x message limiter) with
  | mk recent outcome =>
    cases outcome with
    | refused id e => exact .refuses message limiter now hpc hhandle
    | dispatched request => exact .dispatches message limiter now hpc hhandle

/-- A turn of the loop. -/
theorem serve_turn {s : Session} {a : Step} (hpc : x.pc = .serving s)
    (h : serve sv x s a = some (x', effects)) : Turn sv fresh x x' effects := by
  unfold serve at h
  split at h
  case h_1 message now limiter =>
    cases message with
    | text message =>
      cases h
      exact serveText_turn limiter hpc
    | binary =>
      cases h
      exact .binary _ now hpc
    | control =>
      cases h
      have hmoves : Moves x.writer x.pc x.pc [.touch s.info.sessionId now] :=
        hpc ▸ Moves.touched s now
      exact .moves hmoves
    | close =>
      cases h
      exact .moves (hpc ▸ .closes s now)
    | ended =>
      cases h
      exact .moves (hpc ▸ .leaves s)
  case h_2 event =>
    split at h
    · cases h
      exact .offers hpc (.event _ _)
    · cases h
      exact .stays
  case h_3 missed =>
    cases h
    exact .offers hpc (.event _ _)
  case h_4 =>
    cases h
    exact .moves (hpc ▸ .leaves s)
  case h_5 silent =>
    cases silent with
    | true =>
      cases h
      exact .moves (hpc ▸ .parts s closePolicy "heartbeat timeout")
    | false =>
      cases h
      have hturn : Turn sv fresh x _ _ := .offers hpc .ping
      have hsame : (x.offer .ping).pc = .serving s := by
        rw [Conn.offer_pc, hpc]
      rwa [← hsame] at hturn
  case h_6 =>
    cases h
    exact .moves (hpc ▸ .parts s 1001 "agent shutting down")
  case h_7 => cases h

theorem wait_turn {a : Step} (h : wait sv fresh x a = some (x', effects)) :
    Turn sv fresh x x' effects := by
  unfold wait at h
  split at h
  · next hpc =>
    unfold greetStep at h
    split at h
    · next message now limiter =>
      cases message with
      | text message =>
        obtain ⟨pc, effects', hgreeted, heq⟩ :=
          greetText_greeted sv fresh x message now
        rw [Option.some_inj, heq] at h
        cases h
        exact .hello message hpc hgreeted
      | control =>
        cases h
        exact .stays
      | binary | close | ended =>
        cases h
        exact .moves (hpc ▸ .hungUp)
    · cases h
  · next s hpc => exact serve_turn hpc h
  · cases h

theorem write_turn {ok : Bool} (h : write x ok = some x') : Turn sv fresh x x' [] := by
  obtain ⟨hwriter, h⟩ := Option.ite_none_right_eq_some.mp h
  split at h
  · next m rest hqueue =>
    cases h
    exact .writes ok hwriter hqueue
  · next hqueue =>
    obtain ⟨hdry, hx⟩ := Option.ite_none_right_eq_some.mp h
    cases hx
    rw [Bool.and_eq_true, Bool.not_eq_true', List.isEmpty_iff] at hdry
    exact .runsDry hwriter hqueue hdry.1 hdry.2

theorem respond_turn {n : ℕ} (h : respond x n = some x') : Turn sv fresh x x' [] := by
  obtain ⟨call, hcall, h⟩ := Option.bind_eq_some_iff.mp h
  obtain ⟨result, hresult, h⟩ := Option.bind_eq_some_iff.mp h
  obtain ⟨y, hy, rfl⟩ := Option.map_eq_some_iff.mp h
  obtain ⟨hready, rfl⟩ := tell_eq_some hy
  exact .responds hcall hresult hready

/-- **Every step of a connection is a turn.** -/
theorem connStep_turn {a : Step} (h : connStep sv fresh x a = some (x', effects)) :
    Turn sv fresh x x' effects := by
  unfold connStep at h
  split at h
  case h_1 ok =>
    obtain ⟨y, hy, heq⟩ := Option.map_eq_some_iff.mp h
    cases heq
    exact write_turn hy
  case h_2 =>
    obtain ⟨hwriter, hx⟩ := Option.ite_none_right_eq_some.mp h
    cases hx
    exact .closed hwriter
  case h_3 n result =>
    obtain ⟨call, hcall, h⟩ := Option.bind_eq_some_iff.mp h
    obtain ⟨hresult, hx⟩ := Option.ite_none_right_eq_some.mp h
    cases hx
    exact .finishes result hcall (Option.isNone_iff_eq_none.mp hresult)
  case h_4 n =>
    obtain ⟨y, hy, heq⟩ := Option.map_eq_some_iff.mp h
    cases heq
    exact respond_turn hy
  case h_5 =>
    obtain ⟨htimed, hx⟩ := Option.ite_none_right_eq_some.mp h
    cases hx
    exact .moves (.timedOut htimed)
  case h_6 => exact proceed_turn h
  case h_7 ok =>
    split at h
    · next hpc =>
      split at h
      · cases h
        exact .moves (hpc ▸ .upgraded)
      · cases h
        exact .moves (hpc ▸ .dropped)
    · cases h
  case h_8 => exact wait_turn h

end Connection

end KilnPrint
