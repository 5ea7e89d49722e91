/-
One WebSocket connection.

A connection has a session task, a writer task that empties its outbound queue, and a task for each
request in flight.  They share the queue; nothing else happens to it.

* `hello` — **what becomes of the first text frame**;
* `Pc` — where the session task stands: the handshake, the loop, and the way out;
* `Conn`, `connStep` — the connection, and every step of its tasks;
* `Effect` — what a step does to the agent: the registry of sessions, the audit log, the slots.

A send waits while the queue is full, and is lost once the writer has ended.  Only the first text
frame is read before the caller is known, and a session that is refused sends its reason and closes.
Which branch of the loop is taken, when timers fire and what the service answers are parts of a step.
-/
import KilnPrint.Agent.EventStream
import KilnPrint.Agent.Replay
import KilnPrint.Agent.Token

namespace KilnPrint

namespace Connection

open Replay (RequestEnvelope Recent TextFrame handleText supportedProtocolVersions)
open EventStream (BroadcastEvent EventFrame EventData outboundCapacity)

/-- `Uuid::new_v4`, drawn from a counter. -/
abbrev SessionId := ℕ

structure HelloParams where
  protocolVersions : List ℕ
  clientName : String
  clientVersion : Option String
  token : String

structure SessionInfo where
  sessionId : SessionId
  clientId : String
  /-- Name from the agent's trust configuration. -/
  clientName : String
  /-- What the application reported about itself. -/
  reportedName : String
  reportedVersion : Option String
  origin : Option (List Char)
  userAgent : Option (List Char)
  protocolVersion : ℕ
  connectedAt : Time
  lastActivity : Time

/-- The part of the agent's state that no session changes. -/
structure Server (δ : Type) where
  guard : RequestGuard
  digests : Digests δ
  auth : TokenAuthenticator δ
  helloParams : Value → Except String HelloParams
  /-- The result of `session.hello`, which also tells the limits and the features. -/
  welcome : Caller → SessionInfo → Value
  maxConnections : ℕ
  maxInFlight : ℕ

/-! ### The handshake -/

section

variable {δ : Type} [DecidableEq δ]

def negotiate (versions : List ℕ) : Option ℕ :=
  (versions.filter (supportedProtocolVersions.contains ·)).max?

def unsupportedVersion : PrintError :=
  (PrintError.new .unsupportedProtocolVersion "no mutually supported protocol version").withDetails
    (.obj [("supported", .arr (supportedProtocolVersions.map fun v => .num v))])

/-- `authenticate`: the answer to the first request. -/
def hello (sv : Server δ) (request : RequestEnvelope) (connection : ConnectionInfo)
    (sessionId : SessionId) (now : Time) : Except PrintError (Caller × SessionInfo) := do
  if request.method ≠ "session.hello" then
    throw (.new .authenticationRequired "the first message must be session.hello")
  let params ← parseParams sv.helloParams request.params
  match negotiate params.protocolVersions with
  | none => throw unsupportedVersion
  | some version =>
    let who ← sv.auth.authenticate sv.digests params.token connection
    pure (who,
      { sessionId := sessionId
        clientId := who.clientId
        clientName := who.name
        reportedName := .ofList (params.clientName.toList.take 100)
        reportedVersion := params.clientVersion.map fun v => .ofList (v.toList.take 50)
        origin := who.origin
        userAgent := connection.userAgent
        protocolVersion := version
        connectedAt := now
        lastActivity := now })

end

/-! ### Messages -/

/-- A message of the agent. -/
inductive Message
  | response (id : Option String) (result : Except PrintError Value)
  | event (frame : EventFrame)
  | ping
  | close (code : ℕ) (reason : String)

def Message.isClose : Message → Bool
  | close .. => true
  | _ => false

/-- The request that a message answers. -/
def Message.replyTo : Message → Option (Option String)
  | response id _ => some id
  | _ => none

/-- A text frame as the JSON decoder reads it, and the `id` of one that is no request. -/
structure TextMessage where
  request : Except String RequestEnvelope
  rawId : Option String

/-- What the stream of the connection yields. -/
inductive Received
  | text (message : TextMessage)
  | binary
  /-- A ping or a pong. -/
  | control
  | close
  /-- The stream failed, or is at its end. -/
  | ended

def closePolicy : ℕ := 1008

/-! ### The connection -/

structure Session where
  who : Caller
  info : SessionInfo
  recent : Recent := {}
  seq : ℕ := 0

/-- Where the session task stands. -/
inductive Pc
  /-- The upgrade was granted. -/
  | upgrading
  /-- Waits for the first text frame. -/
  | greeting
  /-- Sleeps before it tells that authentication failed. -/
  | pausing (id : String) (error : PrintError)
  /-- Has these to send in the handshake, and gives up. -/
  | refusing (todo : List Message)
  /-- Has the answer of `session.hello` to send. -/
  | admitting (answer : Message) (s : Session)
  /-- The handshake was cut off by its timer. -/
  | timedOut
  | inserting (s : Session)
  /-- About to write `client.connected`. -/
  | connected (s : Session)
  /-- In the loop. -/
  | serving (s : Session)
  /-- In the loop, with a response to send. -/
  | answering (message : Message) (s : Session)
  /-- Has a close frame to send before it leaves the loop. -/
  | parting (message : Message) (s : Session)
  | removing (s : Session)
  /-- About to write `client.disconnected`. -/
  | disconnected (s : Session)
  /-- Has dropped its sender, and waits for the writer. -/
  | draining
  | ended

/-- Whether the timer of the handshake runs. -/
def Pc.timed : Pc → Bool
  | greeting | pausing .. | refusing (_ :: _) | admitting .. => true
  | _ => false

/-- Whether the session task holds a sender of the queue. -/
def Pc.holds : Pc → Bool
  | draining | ended => false
  | _ => true

inductive Writer
  | writing
  /-- Past its last message. -/
  | closing
  /-- The queue is gone. -/
  | ended
  deriving DecidableEq

/-- A request that was dispatched, and its result once the service has answered. -/
structure InFlight where
  request : RequestEnvelope
  result : Option (Except PrintError Value) := none

structure Conn where
  info : ConnectionInfo
  pc : Pc := .upgrading
  queue : List Message := []
  writer : Writer := .writing
  calls : List InFlight := []
  /-- What the writer has put on the wire. -/
  delivered : List Message := []
  /-- The text frames of the client. -/
  texts : List TextMessage := []
  /-- What was sent in the handshake, and what since. -/
  greeted : List Message := []
  told : List Message := []
  /-- The binary frames of the loop. -/
  binaries : ℕ := 0
  /-- The calls of the service. -/
  dispatched : List (Caller × RequestEnvelope) := []

namespace Conn

/-- A sender may put a message into the queue, or finds it gone. -/
def ready (x : Conn) : Bool := x.writer == .ended || x.queue.length < outboundCapacity

def enqueue (x : Conn) (m : Message) : Conn :=
  if x.writer = .ended then x else { x with queue := x.queue ++ [m] }

/-- `send` in the handshake. -/
def greet (x : Conn) (m : Message) (pc : Pc) : Option Conn :=
  if x.ready then some { x.enqueue m with greeted := x.greeted ++ [m], pc := pc } else none

/-- `send` after the handshake. -/
def tell (x : Conn) (m : Message) (pc : Pc) : Option Conn :=
  if x.ready then some { x.enqueue m with told := x.told ++ [m], pc := pc } else none

/-- `try_send`. -/
def offer (x : Conn) (m : Message) : Conn :=
  if x.writer ≠ .ended ∧ x.queue.length < outboundCapacity then
    { x with queue := x.queue ++ [m], told := x.told ++ [m] }
  else x

@[simp] theorem enqueue_info (x : Conn) (m : Message) : (x.enqueue m).info = x.info := by
  unfold enqueue
  split <;> rfl

@[simp] theorem offer_info (x : Conn) (m : Message) : (x.offer m).info = x.info := by
  unfold offer
  split <;> rfl

@[simp] theorem enqueue_texts (x : Conn) (m : Message) : (x.enqueue m).texts = x.texts := by
  unfold enqueue
  split <;> rfl

@[simp] theorem offer_texts (x : Conn) (m : Message) : (x.offer m).texts = x.texts := by
  unfold offer
  split <;> rfl

@[simp] theorem enqueue_pc (x : Conn) (m : Message) : (x.enqueue m).pc = x.pc := by
  unfold enqueue
  split <;> rfl

@[simp] theorem offer_pc (x : Conn) (m : Message) : (x.offer m).pc = x.pc := by
  unfold offer
  split <;> rfl

end Conn

/-! ### Steps -/

inductive AuditRecord
  | rejected (origin : Option (List Char)) (reason : String)
  | authFailure (origin : Option (List Char)) (errorCode : ErrorCode)
  | connected (clientId : String) (origin : Option (List Char)) (sessionId : SessionId)
  | disconnected (clientId : String) (origin : Option (List Char)) (sessionId : SessionId)
  deriving DecidableEq

/-- What a connection does to the agent's shared state. -/
inductive Effect
  | insert (info : SessionInfo)
  | touch (sessionId : SessionId) (now : Time)
  | remove (sessionId : SessionId)
  | audit (record : AuditRecord)
  /-- The slot is given back. -/
  | release

inductive Step
  | upgraded (ok : Bool)
  /-- The stream yields a message; the rate limiter answers if it is asked. -/
  | receive (message : Received) (now : Time) (limiter : Bool)
  /-- The timer of the handshake fires. -/
  | timeout
  /-- The session task goes on. -/
  | proceed
  | event (event : BroadcastEvent)
  | lagged (missed : ℕ)
  /-- The engine's broadcast channel is closed. -/
  | eventsClosed
  /-- The heartbeat ticks; whether the client was silent for three of them. -/
  | tick (silent : Bool)
  /-- The agent shuts down. -/
  | stop
  /-- The writer takes the next message; whether it is sent. -/
  | write (ok : Bool)
  /-- The writer has closed the socket. -/
  | closed
  /-- The service answers the `n`-th request in flight. -/
  | finish (n : ℕ) (result : Except PrintError Value)
  /-- The task of the `n`-th request in flight sends its response, and ends. -/
  | respond (n : ℕ)

section

variable {δ : Type} [DecidableEq δ]

/-- The first text frame. -/
def greetText (sv : Server δ) (fresh : SessionId) (x : Conn) (message : TextMessage) (now : Time) :
    Conn × List Effect :=
  let x := { x with texts := x.texts ++ [message] }
  match message.request with
  | .error e =>
    let answer := .response none (.error (.invalidPayload s!"malformed message: {e}"))
    ({ x with pc := .refusing [answer, .close closePolicy "malformed hello"] }, [])
  | .ok request =>
    match hello sv request x.info fresh now with
    | .ok (who, info) =>
      let answer := .response (some request.id) (.ok (sv.welcome who info))
      ({ x with pc := .admitting answer { who := who, info := info } }, [])
    | .error e =>
      ({ x with pc := .pausing request.id e }, [.audit (.authFailure x.info.origin e.errorCode)])

/-- A text frame, as the loop reads it. -/
def loopFrame (sv : Server δ) (x : Conn) (message : TextMessage) (limiter : Bool) : TextFrame where
  request := message.request
  rawId := message.rawId
  limiter := limiter
  permit := decide (x.calls.length < sv.maxInFlight)

/-- `handle_text`. -/
def serveText (sv : Server δ) (x : Conn) (s : Session) (message : TextMessage) (limiter : Bool) :
    Conn :=
  let frame := loopFrame sv x message limiter
  let x := { x with texts := x.texts ++ [message] }
  match handleText s.recent frame with
  | (recent, .refused id e) =>
    { x with pc := .answering (.response id (.error e)) { s with recent := recent } }
  | (recent, .dispatched request) =>
    { x with
      pc := .serving { s with recent := recent }
      calls := x.calls ++ [{ request := request }]
      dispatched := x.dispatched ++ [(s.who, request)] }

/-- A step of the session task that waits for nobody but the writer. -/
def proceed (x : Conn) : Option (Conn × List Effect) :=
  match x.pc with
  | .pausing id e =>
    let answer := .response (some id) (.error e)
    some ({ x with pc := .refusing [answer, .close closePolicy e.errorCode.asStr] }, [])
  | .refusing [] => some ({ x with pc := .draining }, [])
  | .refusing (m :: todo) => (x.greet m (.refusing todo)).map (·, [])
  | .timedOut => (x.greet (.close closePolicy "authentication timeout") .draining).map (·, [])
  | .admitting m s => (x.greet m (.inserting s)).map (·, [])
  | .inserting s => some ({ x with pc := .connected s }, [.insert s.info])
  | .connected s =>
    some ({ x with pc := .serving s },
      [.audit (.connected s.who.clientId s.who.origin s.info.sessionId)])
  | .answering m s => (x.tell m (.serving s)).map (·, [])
  | .parting m s => (x.tell m (.removing s)).map (·, [])
  | .removing s => some ({ x with pc := .disconnected s }, [.remove s.info.sessionId])
  | .disconnected s =>
    some ({ x with pc := .draining },
      [.audit (.disconnected s.who.clientId s.who.origin s.info.sessionId)])
  | .draining => if x.writer = .ended then some ({ x with pc := .ended }, [.release]) else none
  | _ => none

/-- Up to the first text frame, a ping or a pong is passed over, and anything else ends it. -/
def greetStep (sv : Server δ) (fresh : SessionId) (x : Conn) : Step → Option (Conn × List Effect)
  | .receive message now _ =>
    match message with
    | .text message => some (greetText sv fresh x message now)
    | .control => some (x, [])
    | _ => some ({ x with pc := .refusing [] }, [])
  | _ => none

/-- The branches of the loop. -/
def serve (sv : Server δ) (x : Conn) (s : Session) : Step → Option (Conn × List Effect)
  | .receive message now limiter =>
    let touched := [Effect.touch s.info.sessionId now]
    match message with
    | .text message => some (serveText sv x s message limiter, touched)
    | .binary =>
      some ({ x with
        pc := .answering (.response none (.error (.invalidPayload
          "binary frames are not supported; send JSON text frames"))) s
        binaries := x.binaries + 1 }, touched)
    | .control => some (x, touched)
    | .close => some ({ x with pc := .removing s }, touched)
    | .ended => some ({ x with pc := .removing s }, [])
  | .event event =>
    match EventStream.visibleEvent s.who.toPrincipal event with
    | some data =>
      some ({ x.offer (.event ⟨event.name, s.seq + 1, data⟩) with
        pc := .serving { s with seq := s.seq + 1 } }, [])
    | none => some (x, [])
  | .lagged missed =>
    some ({ x.offer (.event ⟨"session.lagged", s.seq + 1, .missedEvents missed⟩) with
      pc := .serving { s with seq := s.seq + 1 } }, [])
  | .eventsClosed => some ({ x with pc := .removing s }, [])
  | .tick silent =>
    if silent then some ({ x with pc := .parting (.close closePolicy "heartbeat timeout") s }, [])
    else some (x.offer .ping, [])
  | .stop => some ({ x with pc := .parting (.close 1001 "agent shutting down") s }, [])
  | _ => none

/-- What the session task waits for outside the queue. -/
def wait (sv : Server δ) (fresh : SessionId) (x : Conn) (a : Step) : Option (Conn × List Effect) :=
  match x.pc with
  | .greeting => greetStep sv fresh x a
  | .serving s => serve sv x s a
  | _ => none

/-- The writer takes a message, or learns that no sender is left. -/
def write (x : Conn) (ok : Bool) : Option Conn :=
  if x.writer = .writing then
    match x.queue with
    | m :: rest =>
      some { x with
        queue := rest
        delivered := if ok then x.delivered ++ [m] else x.delivered
        writer := if ok && !m.isClose then .writing else .closing }
    | [] => if !x.pc.holds && x.calls.isEmpty then some { x with writer := .closing } else none
  else none

/-- The task of a request in flight sends its response. -/
def respond (x : Conn) (n : ℕ) : Option Conn :=
  (x.calls[n]?).bind fun call => call.result.bind fun result =>
    (x.tell (.response (some call.request.id) result) x.pc).map fun sent =>
      { sent with calls := x.calls.eraseIdx n }

/-- One step of a connection, with what it does to the agent. -/
def connStep (sv : Server δ) (fresh : SessionId) (x : Conn) : Step → Option (Conn × List Effect)
  | .write ok => (write x ok).map (·, [])
  | .closed =>
    if x.writer = .closing then some ({ x with writer := .ended, queue := [] }, []) else none
  | .finish n result =>
    (x.calls[n]?).bind fun call =>
      if call.result.isNone then
        some ({ x with calls := x.calls.set n { call with result := some result } }, [])
      else none
  | .respond n => (respond x n).map (·, [])
  | .timeout => if x.pc.timed then some ({ x with pc := .timedOut }, []) else none
  | .proceed => proceed x
  | .upgraded ok =>
    match x.pc with
    | .upgrading =>
      if ok then some ({ x with pc := .greeting }, [])
      else some ({ x with pc := .ended }, [.release])
    | _ => none
  | a => wait sv fresh x a

end

end Connection

end KilnPrint
