/-
The connection and the requests of the SDK's `PrintClient`.

The client runs on one thread.  Its methods and the handlers of timers, sockets
and promises run to their ends, apart from the listeners of the application, which
they call on the way and which may call the client again.

* `Client` — the fields of the class, with the `Pending` objects, the sockets and
  the promises that are under way;
* `Frame`, `setState`, `resume` — what is left of a method when it calls the
  listeners, and its continuation;
* `openSocket`, `afterConnect`, `onClose`, `reconnectLoop`, `failAll`, `request`,
  `send` — the methods, in the source's order;
* `Action`, `step`, `step_cases` — calls of the application, events and microtasks.

`Client.log` is a history of what happened.  No step reads it; the properties are
stated over it.  Timers, waiting times, the text of the token, the frames' contents and the
cache of jobs are left out.  A handler or a microtask starts only when no method is
under way; a listener is called where the source emits an event.
-/
import Mathlib.Logic.Function.Basic
import KilnPrint.Lib.FinMap
import KilnPrint.Lib.Runs

namespace KilnPrint

namespace Sdk

abbrev SocketId := ℕ
abbrev RequestId := ℕ
abbrev OpeningId := ℕ

inductive ConnectionState
  | disconnected
  | connecting
  | connected
  | reconnecting
  deriving DecidableEq

inductive Outcome
  | notPrinted
  | unknown
  deriving DecidableEq

/-- The options of the client that its connection depends on. -/
structure Options where
  /-- The token is a function, whose result is awaited. -/
  tokenCallback : Bool
  /-- `maxAttempts` of the reconnection, if it is on; `none` is infinity. -/
  reconnect : Option (Option ℕ)

/-- The options of `#request`. -/
structure RequestOptions where
  resendable : Bool
  isPrint : Bool
  deriving DecidableEq

/-- A `Pending` object. -/
structure Pending where
  options : RequestOptions
  socket : Option SocketId
  /-- The timer is running. -/
  timer : Bool
  deriving DecidableEq

/-- The outcome that an error gives for a print request. -/
def Pending.outcome (p : Pending) (o : Outcome) : Option Outcome :=
  if p.options.isPrint then some o else none

/-- Who awaits an `#open`: `connect`, or an attempt of a reconnect loop. -/
inductive Owner
  | connect
  | loop (attempt : ℕ)
  deriving DecidableEq

/-- How far an `#open` has got. -/
inductive OpenPhase
  /-- Awaiting the token. -/
  | token
  | handshake
  /-- Its promise is resolved, and its owner has still to continue. -/
  | resolved
  /-- Its promise is rejected, with an error that reconnecting cannot fix or another one. -/
  | rejected (fatal : Bool)
  deriving DecidableEq

structure Opening where
  owner : Owner
  phase : OpenPhase
  deriving DecidableEq

/-- A socket, with the variables that its handlers share. -/
structure Socket where
  opening : OpeningId
  settled : Bool
  closed : Bool
  deriving DecidableEq

/-- What a method has left to do when it calls the listeners. -/
inductive Frame
  /-- `connect`: opening a socket. -/
  | openSocket
  /-- `#afterConnect`: emitting `connected`. -/
  | announce
  /-- `#afterConnect`: sending the queue. -/
  | flush
  /-- `#onClose`: the requests sent on the dead socket. -/
  | drop (socket : SocketId)
  /-- `#reconnectLoop`: the first attempt. -/
  | attempt
  /-- `#reconnectLoop`: emitting `error`. -/
  | report
  | failAll
  deriving DecidableEq

/-- One thing that happened. -/
inductive Entry
  | connectCalled
  | disconnectCalled
  /-- The frame of the request was passed to the socket's `send`. -/
  | sent (request : RequestId) (socket : SocketId)
  /-- The request was put back in the queue by `#onClose`. -/
  | requeued (request : RequestId)
  /-- The promise was settled by a reply. -/
  | replied (request : RequestId) (ok : Bool)
  /-- The promise was rejected by the client. -/
  | rejected (request : RequestId) (outcome : Option Outcome)
  deriving DecidableEq

structure Client where
  ws : Option SocketId := none
  state : ConnectionState := .disconnected
  session : Bool := false
  /-- `#connecting` is set. -/
  connecting : Bool := false
  intentionalClose : Bool := false
  requestCounter : ℕ := 0
  /-- The map's entries, in the order of their insertion. -/
  inFlight : List (ℕ × RequestId) := []
  queue : List RequestId := []
  pending : RequestId → Pending := fun _ => ⟨⟨false, false⟩, none, false⟩
  nextRequest : RequestId := 0
  openings : FinMap OpeningId Opening := ∅
  nextOpening : OpeningId := 0
  sockets : FinMap SocketId Socket := ∅
  nextSocket : SocketId := 0
  /-- The attempts of reconnect loops that are asleep. -/
  sleeping : List ℕ := []
  /-- The `finally` callbacks that have still to run. -/
  finallies : ℕ := 0
  /-- The methods under way, the innermost first; `true` where a listener is running. -/
  stack : List (Bool × Frame) := []
  log : List Entry := []

namespace Client

variable (o : Options) (c : Client)

def note (e : Entry) : Client := { c with log := c.log ++ [e] }

def push (listeners : Bool) (k : Frame) : Client := { c with stack := (listeners, k) :: c.stack }

/-- `#setState`, and then `k`. -/
def setState (state : ConnectionState) (k : Frame) : Client :=
  if c.state = state then c.push false k else { c with state }.push true k

/-! ### Connections -/

/-- `#open`, once it has the token; `constructed` says that the constructor succeeds. -/
def newSocket (id : OpeningId) (owner : Owner) (constructed : Bool) : Client :=
  if constructed then
    { c with
      sockets := c.sockets.insert c.nextSocket ⟨id, false, false⟩
      nextSocket := c.nextSocket + 1
      openings := c.openings.insert id ⟨owner, .handshake⟩ }
  else { c with openings := c.openings.insert id ⟨owner, .rejected false⟩ }

/-- `#open`. -/
def openSocket (owner : Owner) (constructed : Bool) : Client :=
  let id := c.nextOpening
  let c := { c with nextOpening := id + 1 }
  if o.tokenCallback then { c with openings := c.openings.insert id ⟨owner, .token⟩ }
  else c.newSocket id owner constructed

/-- The promise of an `#open` is settled. -/
def settleOpening (id : OpeningId) (phase : OpenPhase) : Client :=
  match c.openings.lookup id with
  | some opening => { c with openings := c.openings.insert id { opening with phase } }
  | none => c

def afterConnect : Client := { c with session := true }.setState .connected .announce

/-- `#reconnectLoop` at the top of its loop. -/
def reconnectLoop (attempt : ℕ) : Client :=
  match o.reconnect with
  | none => c
  | some maxAttempts =>
    -- no bound on the attempts is `Infinity`
    if maxAttempts.all (attempt < ·) then { c with sleeping := c.sleeping ++ [attempt] }
    else c.setState .disconnected .report

/-! ### Requests -/

/-- Settles the promises of requests, whose timers are cleared. -/
def settle (requests : List RequestId) (entry : RequestId → Entry) : Client :=
  { c with
    pending := fun p =>
      if p ∈ requests then { c.pending p with timer := false } else c.pending p
    log := c.log ++ requests.map entry }

/-- The requests that are queued or in flight. -/
def unsettled : List RequestId := c.queue ++ c.inFlight.map Prod.snd

/-- The outcome by which `#failAll` and the timers reject a request. -/
def verdict (p : RequestId) : Option Outcome :=
  (c.pending p).outcome (if (c.pending p).socket.isSome then .unknown else .notPrinted)

def failAll : Client :=
  { c with queue := [], inFlight := [] }.settle c.unsettled fun p => .rejected p (c.verdict p)

def send (p : RequestId) : Client :=
  match c.ws with
  -- no socket after all: back to the queue
  | none => { c with queue := c.queue ++ [p] }
  | some s =>
    { c with
      requestCounter := c.requestCounter + 1
      pending := Function.update c.pending p { c.pending p with socket := some s }
      inFlight := c.inFlight ++ [(c.requestCounter + 1, p)]
      log := c.log ++ [.sent p s] }

/-- `#afterConnect`: sends what was queued. -/
def flush : Client := c.queue.foldl send { c with queue := [] }

/-- `#onClose`, for one entry of the map. -/
def loseOne (s : SocketId) (c : Client) (e : ℕ × RequestId) : Client :=
  let p := c.pending e.2
  if p.socket ≠ some s then c
  else
    let c :=
      { c with
        inFlight := c.inFlight.erase e
        pending := Function.update c.pending e.2 { p with socket := none } }
    -- sent again after the reconnect, or its outcome is unknown
    if p.options.resendable ∧ ¬ c.intentionalClose ∧ o.reconnect.isSome then
      { c with queue := c.queue ++ [e.2], log := c.log ++ [.requeued e.2] }
    else c.settle [e.2] fun q => .rejected q (p.outcome .unknown)

def request (options : RequestOptions) : Client :=
  let p := c.nextRequest
  let c := { c with nextRequest := p + 1 }
  let pending : Pending := ⟨options, none, true⟩
  -- refused at once, so that it has surely not been printed
  if c.state = .disconnected then c.note (.rejected p (pending.outcome .notPrinted))
  else
    let c := { c with pending := Function.update c.pending p pending }
    if c.state = .connected ∧ c.ws.isSome then c.send p else { c with queue := c.queue ++ [p] }

/-! ### Methods under way -/

/-- What a method does after the listeners have returned. -/
def resume (constructed : Bool) : Frame → Client
  | .openSocket => { c.openSocket o .connect constructed with connecting := true }
  | .announce => c.push true .flush
  | .flush => c.flush
  | .drop s =>
    let c := c.inFlight.foldl (loseOne o s) c
    if c.intentionalClose ∨ o.reconnect = none then c.setState .disconnected .failAll
    else c.setState .reconnecting .attempt
  | .attempt => c.reconnectLoop o 0
  | .report => c.push true .failAll
  | .failAll => c.failAll

/-- A listener may call the client. -/
def callable : Bool :=
  match c.stack with
  | [] => true
  | (listeners, _) :: _ => listeners

def connect : Client :=
  let c := c.note .connectCalled
  if c.state = .connected ∧ c.session then c
  -- the promise of the call under way is returned
  else if c.connecting then c
  else { c with intentionalClose := false }.setState .connecting .openSocket

def disconnect : Client :=
  { c.note .disconnectCalled with intentionalClose := true, ws := none }.setState .disconnected
    .failAll

/-! ### Events -/

/-- The handshake of a socket fails. -/
def fail (s : SocketId) (socket : Socket) : Client :=
  { c with sockets := c.sockets.insert s { socket with settled := true } }.settleOpening
    socket.opening (.rejected false)

def onClose (s : SocketId) : Client :=
  -- a socket that the client no longer uses closes without a word
  if c.ws = some s then { c with ws := none }.push true (.drop s) else c

/-- The owner of an `#open` continues. -/
def settled (opening : Opening) : Option Client :=
  match opening.owner, opening.phase with
  -- `connect` goes on without a look at `#intentionalClose`; the loop takes one
  | .connect, .resolved => some { c with finallies := c.finallies + 1 }.afterConnect
  | .connect, .rejected _ =>
    some ({ c with finallies := c.finallies + 1 }.setState .disconnected .failAll)
  | .loop _, .resolved => some (if c.intentionalClose then c else c.afterConnect)
  | .loop attempt, .rejected fatal =>
    some (if fatal then c.setState .disconnected .report else c.reconnectLoop o (attempt + 1))
  | _, _ => none

end Client

/-- What the token callback comes to. -/
inductive Token
  | issued
  /-- It throws an error that reconnecting cannot fix, or another one. -/
  | failed (fatal : Bool)
  deriving DecidableEq

/-- The agent's answer to `session.hello`. -/
inductive Hello
  | accepted
  /-- With an error that reconnecting cannot fix, or another one. -/
  | refused (fatal : Bool)
  deriving DecidableEq

inductive Action
  | connect
  | disconnect
  | request (options : RequestOptions)
  /-- The listeners have returned. -/
  | resume (constructed : Bool)
  /-- The token callback is done; with a token, the constructor of the socket is next. -/
  | token (id : OpeningId) (answer : Token) (constructed : Bool)
  | hello (s : SocketId) (answer : Hello)
  /-- An error event of a socket, or the timer of its handshake. -/
  | error (s : SocketId)
  | close (s : SocketId)
  /-- The reply to a frame. -/
  | reply (s : SocketId) (frame : ℕ) (ok : Bool)
  | timeout (p : RequestId)
  /-- A reconnect loop has slept. -/
  | wake (pick : ℕ) (constructed : Bool)
  /-- The owner of a settled `#open` continues. -/
  | settled (id : OpeningId)
  /-- The `finally` of `connect`. -/
  | finished

namespace Client

variable (o : Options) (c : Client)

/-- Events and microtasks, when no method is under way. -/
def event : Action → Option Client
  | .token id answer constructed =>
    match c.openings.lookup id with
    | some ⟨owner, .token⟩ =>
      match answer with
      | .issued => some (c.newSocket id owner constructed)
      -- the code of a `KilnError` is looked at as if the agent had sent it
      | .failed fatal => some (c.settleOpening id (.rejected fatal))
    | _ => none
  | .hello s answer =>
    match c.sockets.lookup s with
    -- the first answer settles the handshake, whatever has been called since
    | some ⟨id, false, false⟩ =>
      let c := { c with sockets := c.sockets.insert s ⟨id, true, false⟩ }
      match answer with
      | .accepted => some ({ c with ws := some s }.settleOpening id .resolved)
      | .refused fatal => some (c.settleOpening id (.rejected fatal))
    | _ => none
  | .error s =>
    match c.sockets.lookup s with
    | some socket => some (if socket.settled then c else c.fail s socket)
    | none => none
  | .close s =>
    match c.sockets.lookup s with
    | some ⟨id, settled, false⟩ =>
      let c := { c with sockets := c.sockets.insert s ⟨id, settled, true⟩ }
      -- a socket that closes in its handshake has never been the client's
      some (if settled then c.onClose s else c.fail s ⟨id, settled, true⟩)
    | _ => none
  | .reply s frame ok =>
    match c.sockets.lookup s with
    | some ⟨_, true, false⟩ =>
      match c.inFlight.find? fun e => e.1 == frame with
      | some e =>
        -- the frame must have been sent on the socket that answers
        some (if (c.pending e.2).socket = some s then
            { c with inFlight := c.inFlight.erase e }.settle [e.2] fun p => .replied p ok
          else c)
      | none => some c
    | _ => none
  -- the timer takes the request out of the queue and out of the map
  | .timeout p =>
    if (c.pending p).timer then
      some ({ c with
        queue := c.queue.filter (· ≠ p)
        inFlight := c.inFlight.filter (·.2 ≠ p) }.settle [p] fun p => .rejected p (c.verdict p))
    else none
  | .wake pick constructed =>
    match c.sleeping[pick]? with
    | some attempt =>
      let c := { c with sleeping := c.sleeping.eraseIdx pick }
      -- `disconnect` was called while the loop slept
      some (if c.intentionalClose then c else c.openSocket o (.loop attempt) constructed)
    | none => none
  | .settled id =>
    (c.openings.lookup id).bind fun opening =>
      { c with openings := c.openings.erase id }.settled o opening
  | .finished =>
    if 0 < c.finallies then some { c with connecting := false, finallies := c.finallies - 1 }
    else none
  | _ => none

end Client

/-- What an event finds, and what it does. -/
inductive Happens (o : Options) (c : Client) : Action → Client → Prop
  | issued {id : OpeningId} {owner : Owner} {constructed : Bool} :
      c.openings.lookup id = some ⟨owner, .token⟩ →
      Happens o c (.token id .issued constructed) (c.newSocket id owner constructed)
  | unissued {id : OpeningId} {owner : Owner} {fatal constructed : Bool} :
      c.openings.lookup id = some ⟨owner, .token⟩ →
      Happens o c (.token id (.failed fatal) constructed) (c.settleOpening id (.rejected fatal))
  | accepted {s : SocketId} {id : OpeningId} : c.sockets.lookup s = some ⟨id, false, false⟩ →
      Happens o c (.hello s .accepted)
        ({ c with ws := some s, sockets := c.sockets.insert s ⟨id, true, false⟩ }.settleOpening id
          .resolved)
  | refused {s : SocketId} {id : OpeningId} {fatal : Bool} :
      c.sockets.lookup s = some ⟨id, false, false⟩ →
      Happens o c (.hello s (.refused fatal))
        ({ c with sockets := c.sockets.insert s ⟨id, true, false⟩ }.settleOpening id
          (.rejected fatal))
  | failed {s : SocketId} {id : OpeningId} {closed : Bool} :
      c.sockets.lookup s = some ⟨id, false, closed⟩ →
      Happens o c (.error s) (c.fail s ⟨id, false, closed⟩)
  | closed {s : SocketId} {id : OpeningId} : c.sockets.lookup s = some ⟨id, true, false⟩ →
      Happens o c (.close s) ({ c with sockets := c.sockets.insert s ⟨id, true, true⟩ }.onClose s)
  | lost {s : SocketId} {id : OpeningId} : c.sockets.lookup s = some ⟨id, false, false⟩ →
      Happens o c (.close s)
        ({ c with sockets := c.sockets.insert s ⟨id, false, true⟩ }.fail s ⟨id, false, true⟩)
  | replied {s : SocketId} {e : ℕ × RequestId} {ok : Bool} : e ∈ c.inFlight →
      (c.pending e.2).socket = some s →
      Happens o c (.reply s e.1 ok)
        ({ c with inFlight := c.inFlight.erase e }.settle [e.2] fun p => .replied p ok)
  | timedOut {p : RequestId} : (c.pending p).timer = true →
      Happens o c (.timeout p)
        ({ c with
          queue := c.queue.filter (· ≠ p)
          inFlight := c.inFlight.filter (·.2 ≠ p) }.settle [p] fun p => .rejected p (c.verdict p))
  | woken {pick : ℕ} {constructed : Bool} : c.intentionalClose = true →
      Happens o c (.wake pick constructed) { c with sleeping := c.sleeping.eraseIdx pick }
  | retried {pick attempt : ℕ} {constructed : Bool} : c.sleeping[pick]? = some attempt →
      ¬ c.intentionalClose = true →
      Happens o c (.wake pick constructed)
        ({ c with sleeping := c.sleeping.eraseIdx pick }.openSocket o (.loop attempt) constructed)
  | settled {id : OpeningId} {opening : Opening} {c' : Client} :
      c.openings.lookup id = some opening →
      { c with openings := c.openings.erase id }.settled o opening = some c' →
      Happens o c (.settled id) c'
  | finished : 0 < c.finallies →
      Happens o c .finished { c with connecting := false, finallies := c.finallies - 1 }
  /-- The socket is settled. -/
  | late {s : SocketId} : Happens o c (.error s) c
  /-- There is no such frame, or it is another socket's. -/
  | unmatched {s : SocketId} {frame : ℕ} {ok : Bool} : Happens o c (.reply s frame ok) c

def step (o : Options) (c : Client) : Action → Option Client
  | .connect => if c.callable then some c.connect else none
  | .disconnect => if c.callable then some c.disconnect else none
  | .request options => if c.callable then some (c.request options) else none
  | .resume constructed =>
    match c.stack with
    | (_, k) :: rest => some ({ c with stack := rest }.resume o constructed k)
    | [] => none
  | a => if c.stack = [] then c.event o a else none

/-- A new client. -/
def init : Client := {}

/-- **What an event does.** -/
theorem happens_of_event {o : Options} {c c' : Client} {a : Action} (hs : c.event o a = some c') :
    Happens o c a c' := by
  cases a with
  | token id answer constructed =>
    simp only [Client.event] at hs
    split at hs
    · next owner hopening =>
      cases answer with
      | issued =>
        obtain rfl := Option.some.inj hs
        exact .issued hopening
      | failed fatal =>
        obtain rfl := Option.some.inj hs
        exact .unissued hopening
    · cases hs
  | hello s answer =>
    simp only [Client.event] at hs
    split at hs
    · next id hsocket =>
      cases answer with
      | accepted =>
        obtain rfl := Option.some.inj hs
        exact .accepted hsocket
      | refused fatal =>
        obtain rfl := Option.some.inj hs
        exact .refused hsocket
    · cases hs
  | error s =>
    simp only [Client.event] at hs
    split at hs
    · next socket hsocket =>
      obtain rfl := Option.some.inj hs
      obtain ⟨id, settled, closed⟩ := socket
      cases settled with
      | true => exact .late
      | false => exact .failed hsocket
    · cases hs
  | close s =>
    simp only [Client.event] at hs
    split at hs
    · next id settled hsocket =>
      obtain rfl := Option.some.inj hs
      cases settled with
      | true => exact .closed hsocket
      | false => exact .lost hsocket
    · cases hs
  | reply s frame ok =>
    simp only [Client.event] at hs
    split at hs
    · split at hs
      · next e hfind =>
        obtain rfl := Option.some.inj hs
        have hid := List.find?_some hfind
        obtain rfl : e.1 = frame := beq_iff_eq.mp hid
        split
        · next hsocket => exact .replied (List.mem_of_find?_eq_some hfind) hsocket
        · exact .unmatched
      · obtain rfl := Option.some.inj hs
        exact .unmatched
    · cases hs
  | timeout p =>
    simp only [Client.event] at hs
    split at hs
    · next htimer =>
      obtain rfl := Option.some.inj hs
      exact .timedOut htimer
    · cases hs
  | wake pick constructed =>
    simp only [Client.event] at hs
    split at hs
    · next attempt hattempt =>
      obtain rfl := Option.some.inj hs
      split
      · next hintent => exact .woken hintent
      · next hintent => exact .retried hattempt hintent
    · cases hs
  | settled id =>
    obtain ⟨opening, hopening, hs⟩ := Option.bind_eq_some_iff.mp hs
    exact .settled hopening hs
  | finished =>
    simp only [Client.event] at hs
    split at hs
    · next hfinallies =>
      obtain rfl := Option.some.inj hs
      exact .finished hfinallies
    · cases hs
  | connect | disconnect | request options | resume constructed => cases hs

/-- **What a step does**: a call of the application, the rest of the innermost method, or an event
when no method is under way. -/
theorem step_cases {o : Options} {c c' : Client} {a : Action} (hs : step o c a = some c') :
    (a = .connect ∧ c' = c.connect) ∨ (a = .disconnect ∧ c' = c.disconnect) ∨
      (∃ options, a = .request options ∧ c' = c.request options) ∨
      (∃ b k rest constructed, a = .resume constructed ∧ c.stack = (b, k) :: rest ∧
        c' = { c with stack := rest }.resume o constructed k) ∨
      (c.stack = [] ∧ c.event o a = some c') := by
  cases a with
  | connect => exact .inl ⟨rfl, (Runs.of_guarded hs).2.symm⟩
  | disconnect => exact .inr (.inl ⟨rfl, (Runs.of_guarded hs).2.symm⟩)
  | request options => exact .inr (.inr (.inl ⟨options, rfl, (Runs.of_guarded hs).2.symm⟩))
  | resume constructed =>
    simp only [step] at hs
    split at hs
    · next b k rest hstack =>
      exact .inr (.inr (.inr (.inl ⟨b, k, rest, constructed, rfl, hstack, (Option.some.inj hs).symm⟩)))
    · cases hs
  | _ =>
    simp only [step] at hs
    split at hs
    · next hstack => exact .inr (.inr (.inr (.inr ⟨hstack, hs⟩)))
    · cases hs

end Sdk

end KilnPrint
