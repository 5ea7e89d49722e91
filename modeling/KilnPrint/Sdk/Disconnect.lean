/-
What `disconnect` puts an end to.

* `Client.Rests` — the application has called `disconnect`, and has not called
  `connect` since;
* `SameIntent` — steps that neither call nor connect the client;
* `Undisturbed` — at rest no handshake succeeds, and no `connect` goes on;
* `disconnect_final` — **in a run whose steps are `Undisturbed` a client at rest has
  no socket, is not connected and sends nothing, and the first other step connects it
  or leaves it a socket**;
* `connected_at_rest` — a run that ends connected.
-/
import KilnPrint.Sdk.Sockets

namespace KilnPrint

namespace Sdk

open Runs

variable {o : Options} {c c' c'' : Client} {a : Action}

/-! ### A client at rest -/

/-- The application called the connection's methods. -/
def Entry.isCall : Entry → Bool
  | connectCalled | disconnectCalled => true
  | sent .. | requeued _ | replied .. | rejected .. => false

def Client.calls (c : Client) : List Entry := c.log.filter Entry.isCall

/-- `disconnect` was called, and `connect` has not been called since. -/
def Client.Rests (c : Client) : Prop := c.calls.getLast? = some .disconnectCalled

instance (c : Client) : Decidable c.Rests :=
  inferInstanceAs (Decidable (_ = _))

/-- **The invariant**: at rest the client has no socket and is not connected. -/
structure Resting (c : Client) : Prop where
  intent : c.Rests → c.intentionalClose = true
  ws : c.Rests → c.ws = none
  state : c.Rests → c.state ≠ .connected

/-- A step in which the application calls neither method, and that connects the client to
nothing. -/
structure SameIntent (c c' : Client) : Prop where
  calls : c'.calls = c.calls
  intent : c'.intentionalClose = c.intentionalClose
  ws : c.ws = none → c'.ws = none
  state : c'.state = .connected → c.state = .connected

namespace SameIntent

theorem of_log {new : List Entry} (hlog : c'.log = c.log ++ new)
    (hnew : ∀ e ∈ new, e.isCall = false) (hintent : c'.intentionalClose = c.intentionalClose)
    (hws : c'.ws = c.ws) (hstate : c'.state = c.state) : SameIntent c c' := by
  refine ⟨?_, hintent, hws.trans, hstate.symm.trans⟩
  have hnone : new.filter Entry.isCall = [] :=
    List.filter_eq_nil_iff.mpr fun e he => Bool.not_eq_true _ ▸ hnew e he
  rw [Client.calls, hlog, List.filter_append, hnone, List.append_nil]
  rfl

theorem of_eq (hlog : c'.log = c.log) (hintent : c'.intentionalClose = c.intentionalClose)
    (hws : c'.ws = c.ws) (hstate : c'.state = c.state) : SameIntent c c' :=
  of_log (hlog.trans (List.append_nil _).symm) (fun _ h => by cases h) hintent hws hstate

theorem refl (c : Client) : SameIntent c c := of_eq rfl rfl rfl rfl

theorem trans (h : SameIntent c c') (h' : SameIntent c' c'') : SameIntent c c'' :=
  ⟨h'.calls.trans h.calls, h'.intent.trans h.intent, fun hws => h'.ws (h.ws hws),
    fun hstate => h.state (h'.state hstate)⟩

theorem resting (h : SameIntent c c') (hr : Resting c) : Resting c' := by
  have hrests : c'.Rests → c.Rests := fun hrests => by rwa [Client.Rests, ← h.calls]
  refine ⟨fun hc => ?_, fun hc => h.ws (hr.ws (hrests hc)), fun hc hstate => ?_⟩
  · exact h.intent.trans (hr.intent (hrests hc))
  · exact hr.state (hrests hc) (h.state hstate)

variable (c)

theorem push (b : Bool) (k : Frame) : SameIntent c (c.push b k) := of_eq rfl rfl rfl rfl

theorem setState (st : ConnectionState) (hst : st ≠ .connected) (k : Frame) :
    SameIntent c (c.setState st k) := by
  unfold Client.setState
  split
  · exact push c _ _
  · exact ⟨rfl, rfl, id, fun h => absurd h hst⟩

theorem newSocket (id : OpeningId) (owner : Owner) (b : Bool) :
    SameIntent c (c.newSocket id owner b) := by
  unfold Client.newSocket
  split <;> exact of_eq rfl rfl rfl rfl

theorem openSocket (o : Options) (owner : Owner) (b : Bool) :
    SameIntent c (c.openSocket o owner b) := by
  unfold Client.openSocket
  split
  · exact of_eq rfl rfl rfl rfl
  · have h : SameIntent c { c with nextOpening := c.nextOpening + 1 } := of_eq rfl rfl rfl rfl
    exact h.trans (newSocket _ _ _ _)

theorem settleOpening (id : OpeningId) (phase : OpenPhase) :
    SameIntent c (c.settleOpening id phase) := by
  unfold Client.settleOpening
  split <;> exact of_eq rfl rfl rfl rfl

theorem reconnectLoop (o : Options) (attempt : ℕ) : SameIntent c (c.reconnectLoop o attempt) := by
  unfold Client.reconnectLoop
  split
  · exact refl c
  · split
    · exact of_eq rfl rfl rfl rfl
    · exact setState c .disconnected (fun h => by cases h) _

theorem fail (s : SocketId) (socket : Socket) : SameIntent c (c.fail s socket) := by
  have h : SameIntent c { c with sockets := c.sockets.insert s { socket with settled := true } } :=
    of_eq rfl rfl rfl rfl
  exact h.trans (settleOpening _ _ _)

theorem onClose (s : SocketId) : SameIntent c (c.onClose s) := by
  unfold Client.onClose
  split
  · exact ⟨rfl, rfl, fun _ => rfl, id⟩
  · exact refl c

theorem settle (requests : List RequestId) {entry : RequestId → Entry}
    (hentry : ∀ p, (entry p).isCall = false) : SameIntent c (c.settle requests entry) := by
  refine of_log rfl (fun e he => ?_) rfl rfl rfl
  obtain ⟨p, -, rfl⟩ := List.mem_map.mp he
  exact hentry p

theorem send (p : RequestId) : SameIntent c (c.send p) := by
  cases hws : c.ws with
  | none =>
    rw [Placed.send_none hws]
    exact of_eq rfl rfl rfl rfl
  | some s =>
    rw [Placed.send_some hws]
    exact of_log rfl (fun e he => List.mem_singleton.mp he ▸ rfl) rfl rfl rfl

theorem foldl {α : Type} {f : Client → α → Client} (hf : ∀ c x, SameIntent c (f c x)) :
    ∀ (xs : List α) (c : Client), SameIntent c (xs.foldl f c) := by
  intro xs
  induction xs with
  | nil => exact refl
  | cons x rest ih => exact fun c => (hf c x).trans (ih _)

theorem flush : SameIntent c c.flush := by
  have h : SameIntent c { c with queue := [] } := of_eq rfl rfl rfl rfl
  exact h.trans (foldl send _ _)

theorem loseOne (o : Options) (s : SocketId) (c : Client) (e : ℕ × RequestId) :
    SameIntent c (c.loseOne o s e) := by
  simp only [Client.loseOne]
  split
  · exact refl c
  · split
    · exact of_log rfl (fun e he => List.mem_singleton.mp he ▸ rfl) rfl rfl rfl
    · exact of_log rfl (fun e he => List.mem_singleton.mp he ▸ rfl) rfl rfl rfl

theorem request (options : RequestOptions) : SameIntent c (c.request options) := by
  simp only [Client.request]
  split
  · exact of_log rfl (fun e he => List.mem_singleton.mp he ▸ rfl) rfl rfl rfl
  · have hnew : SameIntent c { c with
        nextRequest := c.nextRequest + 1
        pending := Function.update c.pending c.nextRequest ⟨options, none, true⟩ } :=
      of_eq rfl rfl rfl rfl
    split
    · exact hnew.trans (send _ _)
    · exact of_eq rfl rfl rfl rfl

/-- A method continues. -/
theorem resume (constructed : Bool) (k : Frame) : SameIntent c (c.resume o constructed k) := by
  cases k with
  | openSocket =>
    have hsame : SameIntent (c.openSocket o .connect constructed)
        { c.openSocket o .connect constructed with connecting := true } := of_eq rfl rfl rfl rfl
    exact (openSocket c o .connect constructed).trans hsame
  | announce => exact push c _ _
  | flush => exact flush c
  | drop s =>
    have hloop := foldl (loseOne o s) c.inFlight c
    simp only [Client.resume]
    split
    · exact hloop.trans (setState _ .disconnected (fun h => by cases h) _)
    · exact hloop.trans (setState _ .reconnecting (fun h => by cases h) _)
  | attempt => exact reconnectLoop c o 0
  | report => exact push c _ _
  | failAll =>
    have h : SameIntent c { c with queue := [], inFlight := [] } := of_eq rfl rfl rfl rfl
    exact h.trans (settle _ _ fun _ => rfl)

/-- A socket changes. -/
theorem insertSocket (c : Client) (s : SocketId) (socket : Socket) :
    SameIntent c { c with sockets := c.sockets.insert s socket } :=
  .of_eq rfl rfl rfl rfl

end SameIntent

/-! ### Runs -/

/-- While the client rests no handshake succeeds, and no `connect` whose handshake has succeeded
goes on. -/
def Undisturbed (c : Client) : Action → Prop
  | .hello _ .accepted => ¬ c.Rests
  | .settled id => c.Rests → c.openings.lookup id ≠ some ⟨.connect, .resolved⟩
  | _ => True

namespace Resting

theorem of_not_rests (h : ¬ c.Rests) : Resting c :=
  ⟨fun hc => absurd hc h, fun hc => absurd hc h, fun hc => absurd hc h⟩

theorem rests_of_setState {st : ConnectionState} {k : Frame} (h : (c.setState st k).Rests) :
    c.Rests := by
  unfold Client.setState at h
  split at h
  · exact h
  · exact h

/-- The owner of an `#open` continues. -/
theorem settled (h : Resting c) {opening : Opening}
    (hok : c.Rests → opening ≠ ⟨.connect, .resolved⟩) (hs : c.settled o opening = some c') :
    Resting c' := by
  obtain ⟨owner, phase⟩ := opening
  cases owner with
  | connect =>
    have hfinally : SameIntent c { c with finallies := c.finallies + 1 } := .of_eq rfl rfl rfl rfl
    cases phase with
    | resolved =>
      obtain rfl := Option.some.inj hs
      refine of_not_rests fun hrests => ?_
      have hold := rests_of_setState hrests
      exact hok hold rfl
    | rejected fatal =>
      obtain rfl := Option.some.inj hs
      exact (hfinally.trans (.setState _ .disconnected (fun h => by cases h) _)).resting h
    | token | handshake => cases hs
  | loop attempt =>
    cases phase with
    | resolved =>
      obtain rfl := Option.some.inj hs
      split
      · exact h
      · next hintent =>
        refine of_not_rests fun hrests => hintent ?_
        have hold := rests_of_setState hrests
        exact h.intent hold
    | rejected fatal =>
      obtain rfl := Option.some.inj hs
      split
      · exact (SameIntent.setState c .disconnected (fun h => by cases h) _).resting h
      · exact (SameIntent.reconnectLoop c o _).resting h
    | token | handshake => cases hs

/-- An event arrives. -/
theorem event (h : Resting c) (hok : Undisturbed c a) (hs : c.event o a = some c') :
    Resting c' := by
  cases happens_of_event hs with
  | issued => exact (SameIntent.newSocket c _ _ _).resting h
  | unissued => exact (SameIntent.settleOpening c _ _).resting h
  | accepted =>
    have hnot : ¬ c.Rests := hok
    exact (SameIntent.settleOpening _ _ _).resting (of_not_rests hnot)
  | refused => exact ((SameIntent.insertSocket c _ _).trans (.settleOpening _ _ _)).resting h
  | failed => exact (SameIntent.fail c _ _).resting h
  | closed => exact ((SameIntent.insertSocket c _ _).trans (.onClose _ _)).resting h
  | lost => exact ((SameIntent.insertSocket c _ _).trans (.fail _ _ _)).resting h
  | @replied s e ok =>
    have herase : SameIntent c { c with inFlight := c.inFlight.erase e } := .of_eq rfl rfl rfl rfl
    exact (herase.trans (.settle _ _ fun _ => rfl)).resting h
  | @timedOut p =>
    have hfilter : SameIntent c { c with
        queue := c.queue.filter (· ≠ p), inFlight := c.inFlight.filter (·.2 ≠ p) } :=
      .of_eq rfl rfl rfl rfl
    exact (hfilter.trans (.settle _ _ fun _ => rfl)).resting h
  | @woken pick =>
    have hsleeping : SameIntent c { c with sleeping := c.sleeping.eraseIdx pick } :=
      .of_eq rfl rfl rfl rfl
    exact hsleeping.resting h
  | @retried pick attempt =>
    have hsleeping : SameIntent c { c with sleeping := c.sleeping.eraseIdx pick } :=
      .of_eq rfl rfl rfl rfl
    exact (hsleeping.trans (.openSocket _ _ _ _)).resting h
  | @settled id opening _ hlookup hsettled =>
    have herase : SameIntent c { c with openings := c.openings.erase id } := .of_eq rfl rfl rfl rfl
    -- at rest, an `#open` that `connect` waits for does not come through
    refine (herase.resting h).settled (fun hrests => ?_) hsettled
    rintro rfl
    exact hok hrests hlookup
  | finished =>
    have hfinished : SameIntent c
        { c with connecting := false, finallies := c.finallies - 1 } := .of_eq rfl rfl rfl rfl
    exact hfinished.resting h
  | late | unmatched => exact h

theorem getLast_calls {e : Entry} (h : e.isCall = true) : (c.note e).calls.getLast? = some e := by
  rw [Client.calls, Client.note, List.filter_append, List.filter_singleton, h, cond_true,
    List.getLast?_concat]

/-- The application connects. -/
theorem connect (c : Client) : Resting c.connect := by
  have hnot : ¬ (c.note .connectCalled).Rests := by
    rw [Client.Rests, getLast_calls rfl]
    exact fun h => by cases h
  refine of_not_rests fun hrests => hnot ?_
  simp only [Client.connect] at hrests
  split at hrests
  · exact hrests
  · split at hrests
    · exact hrests
    · have hold := rests_of_setState hrests
      exact hold

/-- The application disconnects. -/
theorem disconnect (c : Client) : Resting c.disconnect := by
  unfold Client.disconnect Client.setState
  split
  · next hstate =>
    refine ⟨fun _ => rfl, fun _ => rfl, fun _ hconnected => ?_⟩
    cases hstate.symm.trans hconnected
  · exact ⟨fun _ => rfl, fun _ => rfl, fun _ h => by cases h⟩

/-- **Every undisturbed step keeps the invariant.** -/
theorem step (h : Resting c) (hok : Undisturbed c a) (hs : step o c a = some c') : Resting c' := by
  rcases step_cases hs with ⟨-, rfl⟩ | ⟨-, rfl⟩ | ⟨options, -, rfl⟩ |
    ⟨b, k, rest, constructed, -, -, rfl⟩ | ⟨-, hs⟩
  · exact connect c
  · exact disconnect c
  · exact (SameIntent.request c options).resting h
  · have hrest : SameIntent c { c with stack := rest } := .of_eq rfl rfl rfl rfl
    exact (hrest.trans (.resume _ constructed k)).resting h
  · exact h.event hok hs

end Resting

theorem resting_of_reach (h : Reach (step o) Undisturbed init c) : Resting c :=
  h.invariant (Resting.of_not_rests (by decide)) fun _ _ _ _ hr hok hs => hr.step hok hs

/-! ### Frames -/

/-- No frame of a request is passed to a socket. -/
def Unsent (c c' : Client) : Prop := ∃ new, c'.log = c.log ++ new ∧ ∀ p s, .sent p s ∉ new

namespace Unsent

theorem of_log {new : List Entry} (hlog : c'.log = c.log ++ new)
    (hnew : ∀ p s, .sent p s ∉ new) : Unsent c c' :=
  ⟨new, hlog, hnew⟩

theorem of_eq (hlog : c'.log = c.log) : Unsent c c' :=
  ⟨[], hlog.trans (List.append_nil _).symm, fun _ _ => List.not_mem_nil⟩

theorem trans (h : Unsent c c') (h' : Unsent c' c'') : Unsent c c'' := by
  obtain ⟨new, hlog, hnew⟩ := h
  obtain ⟨new', hlog', hnew'⟩ := h'
  refine ⟨new ++ new', by rw [hlog', hlog, List.append_assoc], fun p s hmem => ?_⟩
  exact (List.mem_append.mp hmem).elim (hnew p s) (hnew' p s)

theorem same (h : SameRequests c c') : Unsent c c' := by
  obtain ⟨new, hlog, hnew⟩ := h.log
  exact of_log hlog fun p s hmem => by cases hnew _ hmem

theorem settle (c : Client) (requests : List RequestId) {entry : RequestId → Entry}
    (hentry : ∀ q p s, entry q ≠ .sent p s) : Unsent c (c.settle requests entry) := by
  refine of_log rfl fun p s hmem => ?_
  obtain ⟨q, -, heq⟩ := List.mem_map.mp hmem
  exact hentry q p s heq

theorem send (hws : c.ws = none) (p : RequestId) :
    Unsent c (c.send p) := by
  rw [Placed.send_none hws]
  exact of_eq rfl

theorem flush (hws : c.ws = none) : Unsent c c.flush := by
  have hfold : ∀ (queued : List RequestId) (d : Client), d.ws = none →
      Unsent d (queued.foldl Client.send d) := by
    intro queued
    induction queued with
    | nil => exact fun d _ => of_eq rfl
    | cons p rest ih =>
      exact fun d hd => (send hd p).trans (ih _ ((SameIntent.send d p).ws hd))
  have h : Unsent c { c with queue := [] } := of_eq rfl
  exact h.trans (hfold c.queue _ hws)

theorem loseOne (o : Options) (s : SocketId) (c : Client) (e : ℕ × RequestId) :
    Unsent c (c.loseOne o s e) := by
  simp only [Client.loseOne]
  split
  · exact of_eq rfl
  · split
    · exact of_log rfl fun p s hmem => by cases List.mem_singleton.mp hmem
    · exact of_log rfl fun p s hmem => by cases List.mem_singleton.mp hmem

theorem drop (s : SocketId) : ∀ (entries : List (ℕ × RequestId)) (c : Client),
    Unsent c (entries.foldl (Client.loseOne o s) c) := by
  intro entries
  induction entries with
  | nil => exact fun c => of_eq rfl
  | cons e rest ih => exact fun c => (loseOne o s c e).trans (ih _)

theorem request (hws : c.ws = none) (options : RequestOptions) : Unsent c (c.request options) := by
  simp only [Client.request, hws, Option.isSome_none, Bool.false_eq_true, and_false, if_false]
  split
  · exact of_log rfl fun p s hmem => by cases List.mem_singleton.mp hmem
  · exact of_eq rfl

/-- A method continues. -/
theorem resume (hws : c.ws = none) (constructed : Bool) (k : Frame) :
    Unsent c (c.resume o constructed k) := by
  cases k with
  | openSocket =>
    have hopen : Unsent c (c.openSocket o .connect constructed) := same (.openSocket c o _ _)
    exact hopen.trans (of_eq rfl)
  | announce => exact of_eq rfl
  | flush => exact flush hws
  | drop s =>
    have hloop := drop (o := o) s c.inFlight c
    simp only [Client.resume]
    split
    · exact hloop.trans (same (.setState _ _ _))
    · exact hloop.trans (same (.setState _ _ _))
  | attempt => exact same (.reconnectLoop c o 0)
  | report => exact of_eq rfl
  | failAll =>
    have h : Unsent c { c with queue := [], inFlight := [] } := of_eq rfl
    exact h.trans (settle _ _ fun _ _ _ => (fun h => by cases h))

/-- A client without a socket passes no frame to one. -/
theorem step (hws : c.ws = none) (hs : step o c a = some c') : Unsent c c' := by
  rcases step_cases hs with ⟨-, rfl⟩ | ⟨-, rfl⟩ | ⟨options, -, rfl⟩ |
    ⟨b, k, rest, constructed, -, -, rfl⟩ | ⟨-, hs⟩
  · exact same (.connect c)
  · exact same (.disconnect c)
  · exact request hws options
  · have hrest : Unsent c { c with stack := rest } := of_eq rfl
    refine hrest.trans (resume ?_ constructed k)
    exact hws
  · rcases event_cases hs with hsame | ⟨e, -, ok, -, rfl⟩ | ⟨p, -, -, rfl⟩
    · exact same hsame
    · exact of_log rfl fun p s hmem => by cases List.mem_singleton.mp hmem
    · exact of_log rfl fun p s hmem => by cases List.mem_singleton.mp hmem

end Unsent

/-! ### Disconnecting -/

/-- A disturbed client is connected, or has a socket. -/
theorem disturbed (hbad : ¬ Undisturbed c a) (hs : step o c a = some c') :
    c'.Rests ∧ (c'.ws ≠ none ∨ c'.state = .connected) := by
  rcases step_cases hs with ⟨rfl, -⟩ | ⟨rfl, -⟩ | ⟨options, rfl, -⟩ |
    ⟨b, k, rest, constructed, rfl, -, -⟩ | ⟨-, hs⟩
  · exact absurd trivial hbad
  · exact absurd trivial hbad
  · exact absurd trivial hbad
  · exact absurd trivial hbad
  · cases happens_of_event hs with
    | @accepted s id _ =>
      have hrests : c.Rests := not_not.mp hbad
      have hcalls := (SameIntent.settleOpening
        { c with ws := some s, sockets := c.sockets.insert s ⟨id, true, false⟩ } id .resolved).calls
      have hws := (SameSockets.settleOpening
        { c with ws := some s, sockets := c.sockets.insert s ⟨id, true, false⟩ } id .resolved).ws
      refine ⟨?_, .inl fun hnone => by cases hws.symm.trans hnone⟩
      rw [Client.Rests, hcalls]
      exact hrests
    | @settled id opening _ hsome hsettled =>
      have hbad : ¬ (c.Rests → c.openings.lookup id ≠ some ⟨.connect, .resolved⟩) := hbad
      push Not at hbad
      obtain ⟨hrests, hlookup⟩ := hbad
      obtain rfl := Option.some.inj (hlookup.symm.trans hsome)
      obtain rfl := Option.some.inj hsettled
      unfold Client.afterConnect Client.setState
      split
      · next hconnected => exact ⟨hrests, .inr hconnected⟩
      · exact ⟨hrests, .inr rfl⟩
    | _ => exact absurd trivial hbad

/-- **Disconnecting is final.**  Where no handshake succeeds and no `connect` goes on after
`disconnect` was called and until `connect` is called again, the client has no current socket and
is not connected, and no step passes a frame to a socket; and the first step of a run of which
this is not so connects the client or leaves it a current socket. -/
theorem disconnect_final (o : Options) :
    (∀ c, Reach (step o) Undisturbed init c → c.Rests →
      c.state ≠ .connected ∧ c.ws = none ∧ ∀ a c', step o c a = some c' → Unsent c c') ∧
    ∀ c a c', Reach (step o) Undisturbed init c → step o c a = some c' → ¬ Undisturbed c a →
      c'.Rests ∧ (c'.ws ≠ none ∨ c'.state = .connected) := by
  refine ⟨fun c h hrests => ?_, fun c a c' _ hs hbad => disturbed hbad hs⟩
  have hresting := resting_of_reach h
  have hws := hresting.ws hrests
  exact ⟨hresting.state hrests, hws, fun a c' hs => Unsent.step hws hs⟩

instance (c : Client) (a : Action) : Decidable (Undisturbed c a) :=
  match a with
  | .hello _ .accepted => inferInstanceAs (Decidable (¬ c.Rests))
  | .settled id =>
    inferInstanceAs (Decidable (c.Rests → c.openings.lookup id ≠ some ⟨.connect, .resolved⟩))
  | .hello _ (.refused _) | .connect | .disconnect | .request _ | .resume _ | .token .. | .error _
  | .close _ | .reply .. | .timeout _ | .wake .. | .finished => isTrue trivial

/-- A page that has connected disconnects. -/
def leaving : List Action := connecting 0 0 ++ [.disconnect, .resume true]

theorem disconnect_final_leaving : (pageAfter leaving).state ≠ .connected ∧
    (pageAfter leaving).ws = none ∧
    ∀ a c', step page (pageAfter leaving) a = some c' → Unsent (pageAfter leaving) c' :=
  (disconnect_final page).1 _ (reach_pageAfter Undisturbed leaving (by decide +kernel))
    (by decide +kernel)

/-- The page disconnects during the handshake. -/
def hurrying : List Action :=
  [.connect, .resume true, .disconnect, .resume true, .hello 0 .accepted, .settled 0]

/-- **A client at rest is connected.** -/
theorem connected_at_rest : ¬ ∀ c, Reach (step page) (fun _ _ => True) init c → c.Rests →
    c.state ≠ .connected ∧ c.ws = none := by
  intro h
  have hreach := reach_pageAfter (fun _ _ => True) hurrying (by decide +kernel)
  exact (h _ hreach (by decide +kernel)).1 (by decide +kernel)

end Sdk

end KilnPrint
