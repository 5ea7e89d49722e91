/-
What becomes of a request of the SDK's client.

* `Client.settlements` — how often the promise of a request was settled;
* `Placed` — every request that is not settled is in one place: in the queue, in
  the map of those in flight, or in the hands of the method that moves it;
* `SameRequests`, `event_cases` — steps that concern no request, and the others;
* `Placed.step` — **every step keeps the requests in their places**.
-/
import Mathlib.Data.List.Nodup
import Mathlib.Data.List.Perm.Basic
import KilnPrint.Sdk.Client

namespace KilnPrint

namespace Sdk

open Runs

/-! ### Settled requests -/

/-- The entry settles the promise of `p`. -/
def Entry.settles (p : RequestId) : Entry → Bool
  | replied q _ | rejected q _ => q == p
  | _ => false

/-- The request an entry is about. -/
def Entry.request : Entry → Option RequestId
  | sent p _ | requeued p | replied p _ | rejected p _ => some p
  | connectCalled | disconnectCalled => none

def Client.settlements (c : Client) (p : RequestId) : ℕ := c.log.countP (Entry.settles p)

theorem Entry.request_of_settles {p : RequestId} {e : Entry} (h : e.settles p = true) :
    e.request = some p := by
  cases e with
  | replied | rejected => exact congrArg some (beq_iff_eq.mp h)
  | _ => cases h

/-- Entries that settle the requests of a list, once each. -/
theorem countP_settles {entry : RequestId → Entry} (hentry : ∀ p q, (entry q).settles p = (q == p))
    {ps : List RequestId} (hps : ps.Nodup) (p : RequestId) :
    (ps.map entry).countP (Entry.settles p) = if p ∈ ps then 1 else 0 := by
  rw [List.countP_map, ← hps.count, List.count]
  exact congrArg (List.countP · ps) (funext (hentry p))

theorem settlements_eq_zero {c : Client} {p : RequestId} :
    c.settlements p = 0 ↔ ∀ e ∈ c.log, e.settles p = false := by
  rw [Client.settlements, List.countP_eq_zero]
  simp only [Bool.not_eq_true]

/-! ### Places -/

/-- Every request that is not settled is in one place, with its timer running; those of `hand`
are being moved. -/
structure Placed (hand : List RequestId) (c : Client) : Prop where
  nodup : (hand ++ c.unsettled).Nodup
  timers : ∀ p, p ∈ hand ++ c.unsettled ↔ (c.pending p).timer = true
  fresh : ∀ p ∈ hand ++ c.unsettled, p < c.nextRequest
  settlements : ∀ p, c.settlements p =
    if p < c.nextRequest ∧ p ∉ hand ++ c.unsettled then 1 else 0
  queued : ∀ p ∈ hand ++ c.queue, (c.pending p).socket = none
  attached : ∀ e ∈ c.inFlight, ∃ s, (c.pending e.2).socket = some s ∧ .sent e.2 s ∈ c.log
  /-- A request that was sent is back in the queue only by `#onClose`. -/
  resent : ∀ p ∈ hand ++ c.queue, ∀ s, .sent p s ∈ c.log → .requeued p ∈ c.log
  requeued : ∀ p, .requeued p ∈ c.log → ∃ s, .sent p s ∈ c.log
  sentLt : ∀ p s, .sent p s ∈ c.log → p < c.nextRequest

/-- A step that concerns no request. -/
structure SameRequests (c c' : Client) : Prop where
  queue : c'.queue = c.queue
  inFlight : c'.inFlight = c.inFlight
  pending : c'.pending = c.pending
  nextRequest : c'.nextRequest = c.nextRequest
  log : ∃ new, c'.log = c.log ++ new ∧ ∀ e ∈ new, e.request = none

variable {o : Options} {c c' c'' : Client} {a : Action} {hand : List RequestId} {p : RequestId}

namespace SameRequests

theorem of_eq (hqueue : c'.queue = c.queue) (hinFlight : c'.inFlight = c.inFlight)
    (hpending : c'.pending = c.pending) (hnext : c'.nextRequest = c.nextRequest)
    (hlog : c'.log = c.log) : SameRequests c c' :=
  ⟨hqueue, hinFlight, hpending, hnext, [], by rw [hlog, List.append_nil], fun _ h => by cases h⟩

theorem refl (c : Client) : SameRequests c c := of_eq rfl rfl rfl rfl rfl

theorem trans (h : SameRequests c c') (h' : SameRequests c' c'') : SameRequests c c'' := by
  obtain ⟨new, hlog, hnew⟩ := h.log
  obtain ⟨new', hlog', hnew'⟩ := h'.log
  refine ⟨h'.queue.trans h.queue, h'.inFlight.trans h.inFlight, h'.pending.trans h.pending,
    h'.nextRequest.trans h.nextRequest, new ++ new', ?_, ?_⟩
  · rw [hlog', hlog, List.append_assoc]
  · exact fun e he => (List.mem_append.mp he).elim (hnew e) (hnew' e)

theorem unsettled (h : SameRequests c c') : c'.unsettled = c.unsettled := by
  rw [Client.unsettled, h.queue, h.inFlight]
  rfl

theorem mem_log (h : SameRequests c c') {e : Entry} (he : e.request ≠ none) :
    e ∈ c'.log ↔ e ∈ c.log := by
  obtain ⟨new, hlog, hnew⟩ := h.log
  rw [hlog, List.mem_append]
  exact or_iff_left fun hmem => he (hnew e hmem)

theorem mem_sent (h : SameRequests c c') (p : RequestId) (s : SocketId) :
    .sent p s ∈ c'.log ↔ .sent p s ∈ c.log :=
  have hrequest : (Entry.sent p s).request ≠ none := Option.some_ne_none p
  h.mem_log hrequest

theorem mem_requeued (h : SameRequests c c') (p : RequestId) :
    .requeued p ∈ c'.log ↔ .requeued p ∈ c.log :=
  have hrequest : (Entry.requeued p).request ≠ none := Option.some_ne_none p
  h.mem_log hrequest

theorem settlements (h : SameRequests c c') (p : RequestId) : c'.settlements p = c.settlements p := by
  obtain ⟨new, hlog, hnew⟩ := h.log
  have hzero : new.countP (Entry.settles p) = 0 := by
    rw [List.countP_eq_zero]
    intro e he hsettles
    cases (hnew e he).symm.trans (Entry.request_of_settles hsettles)
  rw [Client.settlements, hlog, List.countP_append, hzero]
  rfl

theorem placed (h : SameRequests c c') (hp : Placed hand c) : Placed hand c' := by
  obtain ⟨h₁, h₂, h₃, h₄, h₅, h₆, h₇, h₈, h₉⟩ := hp
  constructor
  · rwa [h.unsettled]
  · rwa [h.unsettled, h.pending]
  · rwa [h.unsettled, h.nextRequest]
  · rw [h.unsettled, h.nextRequest]
    exact fun p => (h.settlements p).trans (h₄ p)
  · rwa [h.queue, h.pending]
  · rw [h.inFlight, h.pending]
    intro e he
    obtain ⟨s, hsocket, hsent⟩ := h₆ e he
    exact ⟨s, hsocket, (h.mem_sent e.2 s).mpr hsent⟩
  · rw [h.queue]
    intro p hp s hs
    rw [h.mem_sent] at hs
    exact (h.mem_requeued p).mpr (h₇ p hp s hs)
  · intro p hp
    obtain ⟨s, hs⟩ := h₈ p ((h.mem_requeued p).mp hp)
    exact ⟨s, (h.mem_sent p s).mpr hs⟩
  · intro p s hs
    rw [h.mem_sent] at hs
    exact h.nextRequest ▸ h₉ p s hs

variable (c)

theorem push (b : Bool) (k : Frame) : SameRequests c (c.push b k) := of_eq rfl rfl rfl rfl rfl

theorem setState (st : ConnectionState) (k : Frame) : SameRequests c (c.setState st k) := by
  unfold Client.setState
  split <;> exact of_eq rfl rfl rfl rfl rfl

theorem newSocket (id : OpeningId) (owner : Owner) (b : Bool) :
    SameRequests c (c.newSocket id owner b) := by
  unfold Client.newSocket
  split <;> exact of_eq rfl rfl rfl rfl rfl

theorem openSocket (o : Options) (owner : Owner) (b : Bool) :
    SameRequests c (c.openSocket o owner b) := by
  unfold Client.openSocket
  split
  · exact of_eq rfl rfl rfl rfl rfl
  · have h : SameRequests c { c with nextOpening := c.nextOpening + 1 } :=
      of_eq rfl rfl rfl rfl rfl
    exact h.trans (newSocket _ _ _ _)

theorem settleOpening (id : OpeningId) (phase : OpenPhase) :
    SameRequests c (c.settleOpening id phase) := by
  unfold Client.settleOpening
  split <;> exact of_eq rfl rfl rfl rfl rfl

theorem afterConnect : SameRequests c c.afterConnect := by
  have h : SameRequests c { c with session := true } := of_eq rfl rfl rfl rfl rfl
  exact h.trans (setState _ _ _)

theorem reconnectLoop (o : Options) (attempt : ℕ) : SameRequests c (c.reconnectLoop o attempt) := by
  unfold Client.reconnectLoop
  split
  · exact refl c
  · split
    · exact of_eq rfl rfl rfl rfl rfl
    · exact setState c _ _

theorem note {e : Entry} (h : e.request = none) : SameRequests c (c.note e) :=
  ⟨rfl, rfl, rfl, rfl, [e], rfl, fun _ he => List.mem_singleton.mp he ▸ h⟩

theorem connect : SameRequests c c.connect := by
  have hnote : SameRequests c (c.note .connectCalled) := note c rfl
  simp only [Client.connect]
  split
  · exact hnote
  · split
    · exact hnote
    · have h : SameRequests (c.note .connectCalled)
          { c.note .connectCalled with intentionalClose := false } := of_eq rfl rfl rfl rfl rfl
      exact (hnote.trans h).trans (setState _ _ _)

theorem disconnect : SameRequests c c.disconnect := by
  have hnote : SameRequests c (c.note .disconnectCalled) := note c rfl
  have h : SameRequests (c.note .disconnectCalled)
      { c.note .disconnectCalled with intentionalClose := true, ws := none } :=
    of_eq rfl rfl rfl rfl rfl
  exact (hnote.trans h).trans (setState _ _ _)

theorem fail (s : SocketId) (socket : Socket) : SameRequests c (c.fail s socket) := by
  have h : SameRequests c
      { c with sockets := c.sockets.insert s { socket with settled := true } } :=
    of_eq rfl rfl rfl rfl rfl
  exact h.trans (settleOpening _ _ _)

theorem onClose (s : SocketId) : SameRequests c (c.onClose s) := by
  unfold Client.onClose
  split
  · exact of_eq rfl rfl rfl rfl rfl
  · exact refl c

theorem settled {opening : Opening} (h : c.settled o opening = some c') : SameRequests c c' := by
  obtain ⟨owner, phase⟩ := opening
  have hfinally : SameRequests c { c with finallies := c.finallies + 1 } :=
    of_eq rfl rfl rfl rfl rfl
  cases owner with
  | connect =>
    cases phase with
    | resolved =>
      obtain rfl := Option.some.inj h
      exact hfinally.trans (afterConnect _)
    | rejected fatal =>
      obtain rfl := Option.some.inj h
      exact hfinally.trans (setState _ _ _)
    | token | handshake => cases h
  | loop attempt =>
    cases phase with
    | resolved =>
      obtain rfl := Option.some.inj h
      split
      · exact refl c
      · exact afterConnect c
    | rejected fatal =>
      obtain rfl := Option.some.inj h
      split
      · exact setState c _ _
      · exact reconnectLoop c o _
    | token | handshake => cases h

/-- A socket changes. -/
theorem insertSocket (c : Client) (s : SocketId) (socket : Socket) :
    SameRequests c { c with sockets := c.sockets.insert s socket } :=
  .of_eq rfl rfl rfl rfl rfl

end SameRequests

/-- **What an event does to the requests**: nothing, or it settles one. -/
theorem event_cases (hs : c.event o a = some c') :
    SameRequests c c' ∨
      (∃ e ∈ c.inFlight, ∃ ok, (∃ s, a = .reply s e.1 ok ∧ (c.pending e.2).socket = some s) ∧
        c' = { c with inFlight := c.inFlight.erase e }.settle [e.2] fun p => .replied p ok) ∨
      ∃ p, a = .timeout p ∧ (c.pending p).timer = true ∧
        c' = { c with
          queue := c.queue.filter (· ≠ p)
          inFlight := c.inFlight.filter (·.2 ≠ p) }.settle [p] fun p => .rejected p (c.verdict p) := by
  cases happens_of_event hs with
  | issued => exact .inl (.newSocket c _ _ _)
  | unissued => exact .inl (.settleOpening c _ _)
  | @accepted s id _ =>
    have hws : SameRequests c
        { c with ws := some s, sockets := c.sockets.insert s ⟨id, true, false⟩ } :=
      .of_eq rfl rfl rfl rfl rfl
    exact .inl (hws.trans (.settleOpening _ _ _))
  | refused => exact .inl ((SameRequests.insertSocket c _ _).trans (.settleOpening _ _ _))
  | failed => exact .inl (.fail c _ _)
  | closed => exact .inl ((SameRequests.insertSocket c _ _).trans (.onClose _ _))
  | lost => exact .inl ((SameRequests.insertSocket c _ _).trans (.fail _ _ _))
  | @replied s e ok he hsocket => exact .inr (.inl ⟨e, he, ok, ⟨s, rfl, hsocket⟩, rfl⟩)
  | @timedOut p htimer => exact .inr (.inr ⟨p, rfl, htimer, rfl⟩)
  | woken => exact .inl (.of_eq rfl rfl rfl rfl rfl)
  | @retried pick attempt =>
    have hsleeping : SameRequests c { c with sleeping := c.sleeping.eraseIdx pick } :=
      .of_eq rfl rfl rfl rfl rfl
    exact .inl (hsleeping.trans (.openSocket _ _ _ _))
  | @settled id _ _ _ hsettled =>
    have herase : SameRequests c { c with openings := c.openings.erase id } :=
      .of_eq rfl rfl rfl rfl rfl
    exact .inl (herase.trans (.settled _ hsettled))
  | finished => exact .inl (.of_eq rfl rfl rfl rfl rfl)
  | late | unmatched => exact .inl (.refl c)

/-! ### Moves -/

namespace Placed

/-- Requests change places, and none is settled. -/
theorem move {hand' : List RequestId} (h : Placed hand c)
    (hperm : (hand' ++ c'.unsettled).Perm (hand ++ c.unsettled))
    (htimers : ∀ p, (c'.pending p).timer = (c.pending p).timer)
    (hnext : c'.nextRequest = c.nextRequest)
    (hsettlements : ∀ p, c'.settlements p = c.settlements p)
    (hqueued : ∀ p ∈ hand' ++ c'.queue, (c'.pending p).socket = none)
    (hattached : ∀ e ∈ c'.inFlight, ∃ s,
      (c'.pending e.2).socket = some s ∧ .sent e.2 s ∈ c'.log)
    (hresent : ∀ p ∈ hand' ++ c'.queue, ∀ s, .sent p s ∈ c'.log → .requeued p ∈ c'.log)
    (hrequeued : ∀ p, .requeued p ∈ c'.log → ∃ s, .sent p s ∈ c'.log)
    (hsentLt : ∀ p s, .sent p s ∈ c'.log → p < c'.nextRequest) : Placed hand' c' where
  nodup := hperm.nodup_iff.mpr h.nodup
  timers p := by rw [hperm.mem_iff, htimers, h.timers]
  fresh p hp := hnext ▸ h.fresh p (hperm.subset hp)
  settlements p := by simp only [hsettlements, hnext, hperm.mem_iff, h.settlements]
  queued := hqueued
  attached := hattached
  resent := hresent
  requeued := hrequeued
  sentLt := hsentLt

/-- Requests are settled, and leave their places. -/
theorem settle {hand' requests : List RequestId} {entry : RequestId → Entry} (h : Placed hand c)
    (hentry : ∀ p q, (entry q).settles p = (q == p))
    (hperm : (hand ++ c.unsettled).Perm (requests ++ (hand' ++ c'.unsettled)))
    (htimers : ∀ p, (c'.pending p).timer = (decide (p ∉ requests) && (c.pending p).timer))
    (hsockets : ∀ p ∉ requests, (c'.pending p).socket = (c.pending p).socket)
    (hnext : c'.nextRequest = c.nextRequest) (hlog : c'.log = c.log ++ requests.map entry)
    (hqueue : hand' ++ c'.queue ⊆ hand ++ c.queue) (hinFlight : c'.inFlight ⊆ c.inFlight) :
    Placed hand' c' := by
  have hnodup : (requests ++ (hand' ++ c'.unsettled)).Nodup := hperm.nodup_iff.mp h.nodup
  have hmem : ∀ p, p ∈ hand ++ c.unsettled ↔ p ∈ requests ∨ p ∈ hand' ++ c'.unsettled := fun p =>
    hperm.mem_iff.trans List.mem_append
  have hdisjoint : ∀ p ∈ requests, p ∉ hand' ++ c'.unsettled := fun p hp hp' =>
    List.disjoint_of_nodup_append hnodup hp hp'
  -- the new entries settle; every other kind of entry is as before
  have hold : ∀ e : Entry, (∀ p, e.settles p = false) → (e ∈ c'.log ↔ e ∈ c.log) := by
    intro e he
    rw [hlog, List.mem_append]
    refine or_iff_left fun hmap => ?_
    obtain ⟨q, -, rfl⟩ := List.mem_map.mp hmap
    exact absurd (he q) (by rw [hentry]; simp)
  constructor
  case nodup =>
    exact hnodup.of_append_right
  case timers =>
    intro p
    have htimer := h.timers p
    rw [htimers, Bool.and_eq_true, decide_eq_true_eq, ← htimer, hmem]
    constructor
    · exact fun hp => ⟨fun hr => hdisjoint p hr hp, .inr hp⟩
    · rintro ⟨hr, hp⟩
      exact hp.resolve_left hr
  case fresh =>
    exact fun p hp => hnext ▸ h.fresh p ((hmem p).mpr (.inr hp))
  case settlements =>
    intro p
    have hcount : c'.settlements p = c.settlements p + if p ∈ requests then 1 else 0 := by
      rw [Client.settlements, hlog, List.countP_append,
        countP_settles hentry hnodup.of_append_left]
      rfl
    simp only [hcount, h.settlements, hnext, hmem]
    by_cases hr : p ∈ requests
    · have hlt := h.fresh p ((hmem p).mpr (.inl hr))
      rw [if_pos hr, if_neg (fun hn => hn.2 (.inl hr)), if_pos ⟨hlt, hdisjoint p hr⟩]
    · simp only [if_neg hr, or_iff_right hr, Nat.add_zero]
  case queued =>
    intro p hp
    have hplace : p ∈ hand' ++ c'.unsettled := List.mem_append.mpr
      ((List.mem_append.mp hp).imp_right (List.mem_append_left _))
    exact (hsockets p fun hr => hdisjoint p hr hplace).trans (h.queued p (hqueue hp))
  case attached =>
    intro e he
    have hplace : e.2 ∈ hand' ++ c'.unsettled :=
      List.mem_append_right _ (List.mem_append_right _ (List.mem_map_of_mem he))
    obtain ⟨s, hsocket, hsent⟩ := h.attached e (hinFlight he)
    refine ⟨s, (hsockets e.2 fun hr => hdisjoint _ hr hplace).trans hsocket, ?_⟩
    rw [hlog]
    exact List.mem_append_left _ hsent
  case resent =>
    intro p hp s hs
    rw [hold _ fun _ => rfl] at hs ⊢
    exact h.resent p (hqueue hp) s hs
  case requeued =>
    intro p hp
    rw [hold _ fun _ => rfl] at hp
    obtain ⟨s, hs⟩ := h.requeued p hp
    exact ⟨s, (hold _ fun _ => rfl).mpr hs⟩
  case sentLt =>
    intro p s hs
    rw [hold _ fun _ => rfl] at hs
    exact hnext ▸ h.sentLt p s hs

theorem send_none (h : c.ws = none) (p : RequestId) :
    c.send p = { c with queue := c.queue ++ [p] } := by
  rw [Client.send, h]

theorem send_some {s : SocketId} (h : c.ws = some s) (p : RequestId) :
    c.send p =
      { c with
        requestCounter := c.requestCounter + 1
        pending := Function.update c.pending p { c.pending p with socket := some s }
        inFlight := c.inFlight ++ [(c.requestCounter + 1, p)]
        log := c.log ++ [.sent p s] } := by
  rw [Client.send, h]

/-- A request in hand is put in the queue. -/
theorem enqueue (h : Placed (p :: hand) c) : Placed hand { c with queue := c.queue ++ [p] } := by
  have hperm : (hand ++ ((c.queue ++ [p]) ++ c.inFlight.map Prod.snd)).Perm
      (p :: hand ++ c.unsettled) := by
    rw [List.append_assoc, ← List.append_assoc]
    refine List.perm_middle.trans ?_
    rw [List.append_assoc]
    exact .refl _
  have hmem : ∀ q, q ∈ hand ++ (c.queue ++ [p]) → q ∈ p :: hand ++ c.queue := by
    intro q hq
    rw [← List.append_assoc, List.mem_append, List.mem_singleton] at hq
    exact List.mem_cons.mpr hq.symm
  exact h.move hperm (fun _ => rfl) rfl (fun _ => rfl) (fun q hq => h.queued q (hmem q hq))
    h.attached (fun q hq => h.resent q (hmem q hq)) h.requeued h.sentLt

/-- A request in hand is sent, or put back in the queue. -/
theorem send (h : Placed (p :: hand) c) : Placed hand (c.send p) := by
  have hp : p ∉ hand ++ c.unsettled := (List.nodup_cons.mp h.nodup).1
  have hsocket : (c.pending p).socket = none := h.queued p List.mem_cons_self
  cases hws : c.ws with
  | none =>
    rw [send_none hws]
    exact h.enqueue
  | some s =>
    rw [send_some hws]
    have hperm : (hand ++ (c.queue ++ (c.inFlight ++ [(c.requestCounter + 1, p)]).map Prod.snd)).Perm
        (p :: hand ++ c.unsettled) := by
      rw [List.map_append, ← List.append_assoc, ← List.append_assoc, List.append_assoc hand]
      exact List.perm_append_singleton _ _
    have hqueue : ∀ q ∈ hand ++ c.queue, q ≠ p := by
      rintro q hq rfl
      refine hp (List.mem_append.mpr ((List.mem_append.mp hq).imp_right fun hq => ?_))
      exact List.mem_append_left _ hq
    have hlog : ∀ e : Entry, e ≠ .sent p s → (e ∈ c.log ++ [.sent p s] ↔ e ∈ c.log) := by
      intro e he
      rw [List.mem_append, List.mem_singleton]
      exact or_iff_left he
    refine h.move hperm (fun q => ?_) rfl (fun q => ?_) (fun q hq => ?_) (fun e he => ?_)
      (fun q hq s' hs => ?_) (fun q hq => ?_) (fun q s' hs => ?_)
    · show (Function.update c.pending p _ q).timer = _
      by_cases hq : q = p
      · rw [hq, Function.update_self]
      · rw [Function.update_of_ne hq]
    · show (c.log ++ [_]).countP _ = _
      rw [List.countP_append]
      rfl
    · show (Function.update c.pending p _ q).socket = _
      rw [Function.update_of_ne (hqueue q hq)]
      exact h.queued q (List.mem_cons_of_mem _ hq)
    · show ∃ s', (Function.update c.pending p _ e.2).socket = some s' ∧ _ ∈ c.log ++ [_]
      by_cases hq : e.2 = p
      · rw [hq, Function.update_self]
        exact ⟨s, rfl, List.mem_append_right _ List.mem_cons_self⟩
      · rw [Function.update_of_ne hq]
        rcases List.mem_append.mp he with he | he
        · obtain ⟨s', hsome, hsent⟩ := h.attached e he
          exact ⟨s', hsome, List.mem_append_left _ hsent⟩
        · exact absurd (congrArg Prod.snd (List.mem_singleton.mp he)) hq
    · have hne : Entry.sent q s' ≠ .sent p s := fun heq => hqueue q hq (Entry.sent.inj heq).1
      exact (hlog (.requeued q) (fun h => by cases h)).mpr
        (h.resent q (List.mem_cons_of_mem _ hq) s' ((hlog _ hne).mp hs))
    · obtain ⟨s', hs⟩ := h.requeued q ((hlog (.requeued q) (fun h => by cases h)).mp hq)
      exact ⟨s', List.mem_append_left _ hs⟩
    · rcases List.mem_append.mp hs with hs | hs
      · exact h.sentLt q s' hs
      · obtain ⟨rfl, -⟩ := Entry.sent.inj (List.mem_singleton.mp hs)
        exact h.fresh q List.mem_cons_self

/-- The rule for the loop that sends the queue. -/
theorem fold_send {P : Client → Prop}
    (hsend : ∀ c p hand, Placed (p :: hand) c → P c → P (c.send p)) :
    ∀ (queued : List RequestId) (c : Client), Placed queued c → P c →
      Placed [] (queued.foldl Client.send c) ∧ P (queued.foldl Client.send c) := by
  intro queued
  induction queued with
  | nil => exact fun c h hp => ⟨h, hp⟩
  | cons p rest ih => exact fun c h hp => ih _ h.send (hsend c p rest h hp)

/-- The queue is sent. -/
theorem flush {P : Client → Prop} (h : Placed [] c)
    (hsend : ∀ c p hand, Placed (p :: hand) c → P c → P (c.send p)) (hp : P { c with queue := [] }) :
    Placed [] c.flush ∧ P c.flush := by
  refine fold_send hsend c.queue _ ?_ hp
  refine h.move (.refl _) (fun _ => rfl) rfl (fun _ => rfl) ?_ h.attached ?_ h.requeued h.sentLt
  · rw [List.append_nil]
    exact h.queued
  · rw [List.append_nil]
    exact h.resent

theorem perm_erase {e : ℕ × RequestId} (he : e ∈ c.inFlight) :
    c.unsettled.Perm (e.2 :: (c.queue ++ (c.inFlight.erase e).map Prod.snd)) := by
  have hmap := (List.perm_cons_erase he).map Prod.snd
  exact (hmap.append_left c.queue).trans List.perm_middle

/-- A request that was sent on the dead socket is put back in the queue, or rejected. -/
theorem loseOne (h : Placed [] c) {s : SocketId} {e : ℕ × RequestId} (he : e ∈ c.inFlight) :
    Placed [] (c.loseOne o s e) := by
  simp only [Client.loseOne]
  split
  · exact h
  · have hperm := perm_erase he
    have hnodup := h.nodup
    rw [List.nil_append, hperm.nodup_iff, List.nodup_cons, List.mem_append, not_or] at hnodup
    obtain ⟨⟨hqueue, hrest⟩, -⟩ := hnodup
    -- the other requests in flight stay on their sockets
    have hattached : ∀ e' ∈ c.inFlight.erase e, ∃ s, (Function.update c.pending e.2
        { c.pending e.2 with socket := none } e'.2).socket = some s ∧ .sent e'.2 s ∈ c.log := by
      intro e' he'
      have hne : e'.2 ≠ e.2 := fun heq => hrest (heq ▸ List.mem_map_of_mem he')
      rw [Function.update_of_ne hne]
      exact h.attached e' (List.mem_of_mem_erase he')
    split
    · have hmove : (c.queue ++ [e.2] ++ (c.inFlight.erase e).map Prod.snd).Perm c.unsettled := by
        rw [List.append_assoc]
        exact List.perm_middle.trans hperm.symm
      have hlog : ∀ q s, .sent q s ∈ c.log ++ [.requeued e.2] → .sent q s ∈ c.log := by
        intro q s hs
        exact (List.mem_append.mp hs).resolve_right fun hmem => by cases List.mem_singleton.mp hmem
      refine h.move hmove (fun q => ?_) rfl (fun q => ?_) (fun q hq => ?_) (fun e' he' => ?_)
        (fun q hq s' hs => ?_) (fun q hq => ?_) (fun q s' hs => h.sentLt q s' (hlog q s' hs))
      · show (Function.update c.pending e.2 _ q).timer = _
        by_cases hq : q = e.2
        · rw [hq, Function.update_self]
        · rw [Function.update_of_ne hq]
      · show (c.log ++ [_]).countP _ = _
        rw [List.countP_append]
        rfl
      · show (Function.update c.pending e.2 _ q).socket = _
        by_cases he : q = e.2
        · rw [he, Function.update_self]
        · rw [Function.update_of_ne he]
          have hq : q ∈ c.queue ++ [e.2] := hq
          exact h.queued q ((List.mem_append.mp hq).resolve_right fun hmem =>
            he (List.mem_singleton.mp hmem))
      · obtain ⟨s', hsome, hsent⟩ := hattached e' he'
        exact ⟨s', hsome, List.mem_append_left _ hsent⟩
      · have hq : q ∈ c.queue ++ [e.2] := hq
        rcases List.mem_append.mp hq with hq | hq
        · exact List.mem_append_left _ (h.resent q hq s' (hlog q s' hs))
        · rw [List.mem_singleton.mp hq]
          exact List.mem_append_right _ List.mem_cons_self
      · have hsent : ∃ s, .sent q s ∈ c.log := by
          rcases List.mem_append.mp hq with hq | hq
          · exact h.requeued q hq
          · obtain rfl := Entry.requeued.inj (List.mem_singleton.mp hq)
            obtain ⟨s', -, hsent⟩ := h.attached e he
            exact ⟨s', hsent⟩
        obtain ⟨s', hs⟩ := hsent
        exact ⟨s', List.mem_append_left _ hs⟩
    -- a request that is not sent again is rejected here
    · have hleaves : ([] ++ c.unsettled).Perm
          ([e.2] ++ ([] ++ (c.queue ++ (c.inFlight.erase e).map Prod.snd))) := hperm
      refine h.settle (fun _ _ => rfl) hleaves (fun q => ?_) (fun q hq => ?_) rfl rfl
        (List.Subset.refl _) (fun e' he' => List.mem_of_mem_erase he')
      · show (if q ∈ [e.2] then _ else Function.update c.pending e.2 _ q : Pending).timer = _
        split
        · next hmem => rw [decide_eq_false (not_not_intro hmem), Bool.false_and]
        · next hmem =>
          rw [Function.update_of_ne (fun he => hmem (List.mem_singleton.mpr he)),
            decide_eq_true hmem, Bool.true_and]
      · show (if q ∈ [e.2] then _ else Function.update c.pending e.2 _ q : Pending).socket = _
        rw [if_neg hq, Function.update_of_ne (fun he => hq (List.mem_singleton.mpr he))]

/-- The rule for the loop of `#onClose`: what holds of the entries to come and is kept by every
turn holds of none in the end. -/
theorem fold_loseOne {P : List (ℕ × RequestId) → Client → Prop} {s : SocketId}
    (hturn : ∀ c e rest, Placed [] c → e ∈ c.inFlight → P (e :: rest) c →
      P rest (c.loseOne o s e)) :
    ∀ (entries : List (ℕ × RequestId)) (c : Client), Placed [] c → entries.Nodup →
      entries ⊆ c.inFlight → P entries c →
      Placed [] (entries.foldl (Client.loseOne o s) c) ∧
        P [] (entries.foldl (Client.loseOne o s) c) := by
  intro entries
  induction entries with
  | nil => exact fun c h _ _ hp => ⟨h, hp⟩
  | cons e rest ih =>
    intro c h hnodup hsub hp
    have he : e ∈ c.inFlight := hsub List.mem_cons_self
    obtain ⟨hfirst, hnodup⟩ := List.nodup_cons.mp hnodup
    have hrest : rest ⊆ (c.loseOne o s e).inFlight := by
      intro e' he'
      have hin : e' ∈ c.inFlight := hsub (List.mem_cons_of_mem _ he')
      have herase : e' ∈ c.inFlight.erase e :=
        (List.mem_erase_of_ne (ne_of_mem_of_not_mem he' hfirst)).mpr hin
      simp only [Client.loseOne]
      split
      · exact hin
      · split <;> exact herase
    exact ih _ (h.loseOne he) hnodup hrest (hturn c e rest h he hp)

theorem nodup_inFlight (h : Placed hand c) : c.inFlight.Nodup :=
  List.Nodup.of_map Prod.snd h.nodup.of_append_right.of_append_right

/-- The requests of a dead socket are dealt with. -/
theorem drop {P : List (ℕ × RequestId) → Client → Prop} {s : SocketId} (h : Placed [] c)
    (hturn : ∀ c e rest, Placed [] c → e ∈ c.inFlight → P (e :: rest) c →
      P rest (c.loseOne o s e)) (hp : P c.inFlight c) :
    Placed [] (c.inFlight.foldl (Client.loseOne o s) c) ∧
      P [] (c.inFlight.foldl (Client.loseOne o s) c) :=
  fold_loseOne hturn c.inFlight c h h.nodup_inFlight (List.Subset.refl _) hp

/-- Every request is settled. -/
theorem failAll (h : Placed [] c) : Placed [] c.failAll := by
  have hleaves : ([] ++ c.unsettled).Perm (c.unsettled ++ ([] ++ [])) := by simp
  refine h.settle (fun _ _ => rfl) hleaves (fun p => ?_) (fun p hp => ?_) rfl rfl
    (List.nil_subset _) (List.nil_subset _)
  · show (if p ∈ c.unsettled then _ else c.pending p : Pending).timer = _
    split
    · next hmem => rw [decide_eq_false (not_not_intro hmem), Bool.false_and]
    · next hmem => rw [decide_eq_true hmem, Bool.true_and]
  · show (if p ∈ c.unsettled then _ else c.pending p : Pending).socket = _
    rw [if_neg hp]

/-- One request is settled, wherever it is. -/
theorem settleOne {entry : RequestId → Entry} (h : Placed [] c)
    (hentry : ∀ p q, (entry q).settles p = (q == p)) {queue : List RequestId}
    {inFlight : List (ℕ × RequestId)} (hqueue : queue ⊆ c.queue) (hinFlight : inFlight ⊆ c.inFlight)
    (hleaves : c.unsettled.Perm (p :: (queue ++ inFlight.map Prod.snd))) :
    Placed [] ({ c with queue, inFlight }.settle [p] entry) := by
  have hleaves' : ([] ++ c.unsettled).Perm ([p] ++ ([] ++ (queue ++ inFlight.map Prod.snd))) :=
    hleaves
  refine h.settle hentry hleaves' (fun q => ?_) (fun q hq => ?_) rfl rfl hqueue hinFlight
  · show (if q ∈ [p] then _ else c.pending q : Pending).timer = _
    split
    · next hmem => rw [decide_eq_false (not_not_intro hmem), Bool.false_and]
    · next hmem => rw [decide_eq_true hmem, Bool.true_and]
  · show (if q ∈ [p] then _ else c.pending q : Pending).socket = _
    rw [if_neg hq]

theorem perm_filter (h : Placed [] c) (hp : p ∈ c.unsettled) : c.unsettled.Perm
    (p :: (c.queue.filter (· ≠ p) ++ (c.inFlight.filter (·.2 ≠ p)).map Prod.snd)) := by
  have hfilter : c.unsettled.filter (· != p) =
      c.queue.filter (· ≠ p) ++ (c.inFlight.filter (·.2 ≠ p)).map Prod.snd := by
    have hne : (fun q : RequestId => q != p) = fun q => decide (q ≠ p) := by
      funext q
      rw [Bool.eq_iff_iff, bne_iff_ne, decide_eq_true_eq]
    rw [Client.unsettled, List.filter_append, List.filter_map, hne]
    rfl
  have hnodup : c.unsettled.Nodup := h.nodup
  rw [← hfilter, ← hnodup.erase_eq_filter]
  exact List.perm_cons_erase hp

theorem notMem_next (h : Placed [] c) : c.nextRequest ∉ c.unsettled := fun hmem =>
  absurd (h.fresh _ hmem) (lt_irrefl _)

theorem settlements_next (h : Placed [] c) : c.settlements c.nextRequest = 0 := by
  rw [h.settlements, if_neg fun hlt => absurd hlt.1 (lt_irrefl _)]

theorem lt_next {n : RequestId} (hp : p ≠ n) : p < n + 1 ↔ p < n :=
  Nat.lt_succ_iff_lt_or_eq.trans (or_iff_left hp)

/-- A new request is rejected. -/
theorem reject (h : Placed [] c) (outcome : Option Outcome) :
    Placed [] ({ c with nextRequest := c.nextRequest + 1 }.note (.rejected c.nextRequest outcome)) := by
  have hlog : ∀ e : Entry, (∀ p, e.settles p = false) →
      e ∈ c.log ++ [.rejected c.nextRequest outcome] → e ∈ c.log := by
    intro e he hmem
    refine (List.mem_append.mp hmem).resolve_right fun hlast => ?_
    rw [List.mem_singleton.mp hlast] at he
    exact absurd (he c.nextRequest) (by simp [Entry.settles])
  refine ⟨h.nodup, h.timers, fun p hp => (h.fresh p hp).trans (Nat.lt_succ_self _), fun p => ?_,
    h.queued, fun e he => ?_, fun p hp s hs => ?_, fun p hp => ?_, fun p s hs => ?_⟩
  · show (c.log ++ [_]).countP _ = _
    rw [List.countP_append, show c.log.countP (Entry.settles p) = c.settlements p from rfl]
    by_cases hp : p = c.nextRequest
    · subst hp
      rw [h.settlements_next, if_pos ⟨Nat.lt_succ_self _, h.notMem_next⟩]
      simp [Entry.settles]
    · have hne : (c.nextRequest == p) = false := beq_false_of_ne (Ne.symm hp)
      have hlast : [Entry.rejected c.nextRequest outcome].countP (Entry.settles p) = 0 := by
        rw [List.countP_singleton, Entry.settles, hne]
        rfl
      rw [hlast, Nat.add_zero]
      exact (h.settlements p).trans (if_congr (and_congr_left' (lt_next hp).symm) rfl rfl)
  · obtain ⟨s, hsome, hsent⟩ := h.attached e he
    exact ⟨s, hsome, List.mem_append_left _ hsent⟩
  · exact List.mem_append_left _ (h.resent p hp s (hlog _ (fun _ => rfl) hs))
  · obtain ⟨s, hs⟩ := h.requeued p (hlog _ (fun _ => rfl) hp)
    exact ⟨s, List.mem_append_left _ hs⟩
  · exact (h.sentLt p s (hlog _ (fun _ => rfl) hs)).trans (Nat.lt_succ_self _)

/-- A new request is in hand. -/
theorem create (h : Placed [] c) (options : RequestOptions) : Placed [c.nextRequest] { c with
    nextRequest := c.nextRequest + 1
    pending := Function.update c.pending c.nextRequest ⟨options, none, true⟩ } := by
  have hother : ∀ p ∈ c.unsettled, p ≠ c.nextRequest := fun p hp =>
    ne_of_mem_of_not_mem hp h.notMem_next
  refine ⟨List.nodup_cons.mpr ⟨h.notMem_next, h.nodup⟩, fun p => ?_, fun p hp => ?_, fun p => ?_,
    fun p hp => ?_, fun e he => ?_, fun p hp s hs => ?_, h.requeued, fun p s hs => ?_⟩
  · show p ∈ c.nextRequest :: c.unsettled ↔ (Function.update c.pending _ _ p).timer = true
    by_cases hp : p = c.nextRequest
    · rw [hp, Function.update_self]
      simp
    · rw [Function.update_of_ne hp, List.mem_cons, or_iff_right hp]
      exact h.timers p
  · rcases List.mem_cons.mp hp with rfl | hp
    · exact Nat.lt_succ_self _
    · exact (h.fresh p hp).trans (Nat.lt_succ_self _)
  · show c.settlements p = if p < c.nextRequest + 1 ∧ p ∉ c.nextRequest :: c.unsettled then 1 else 0
    by_cases hp : p = c.nextRequest
    · rw [hp, h.settlements_next, if_neg fun hn => hn.2 List.mem_cons_self]
    · simp only [h.settlements, lt_next hp, List.mem_cons, hp, false_or, List.nil_append]
  · show (Function.update c.pending _ _ p).socket = none
    rcases List.mem_cons.mp hp with rfl | hp
    · rw [Function.update_self]
    · rw [Function.update_of_ne (hother p (List.mem_append_left _ hp))]
      exact h.queued p hp
  · show ∃ s, (Function.update c.pending _ _ e.2).socket = some s ∧ _ ∈ c.log
    rw [Function.update_of_ne (hother e.2 (List.mem_append_right _ (List.mem_map_of_mem he)))]
    exact h.attached e he
  · rcases List.mem_cons.mp hp with rfl | hp
    · exact absurd (h.sentLt _ s hs) (lt_irrefl _)
    · exact h.resent p hp s hs
  · exact (h.sentLt p s hs).trans (Nat.lt_succ_self _)

/-- A new request is rejected, sent, or queued. -/
theorem request (h : Placed [] c) (options : RequestOptions) : Placed [] (c.request options) := by
  simp only [Client.request]
  split
  · exact h.reject _
  · split
    · exact (h.create options).send
    · exact (h.create options).enqueue

/-- A method continues. -/
theorem resume (h : Placed [] c) (constructed : Bool) (k : Frame) :
    Placed [] (c.resume o constructed k) := by
  cases k with
  | openSocket =>
    have hsame : SameRequests (c.openSocket o .connect constructed)
        { c.openSocket o .connect constructed with connecting := true } := .of_eq rfl rfl rfl rfl rfl
    exact ((SameRequests.openSocket c o .connect constructed).trans hsame).placed h
  | announce => exact (SameRequests.push c true .flush).placed h
  | flush => exact (h.flush (P := fun _ => True) (fun _ _ _ _ _ => trivial) trivial).1
  | drop s =>
    have hloop := h.drop (o := o) (P := fun _ _ => True) (s := s) (fun _ _ _ _ _ _ => trivial) trivial
    simp only [Client.resume]
    split
    · exact (SameRequests.setState _ _ _).placed hloop.1
    · exact (SameRequests.setState _ _ _).placed hloop.1
  | attempt => exact (SameRequests.reconnectLoop c o 0).placed h
  | report => exact (SameRequests.push c true .failAll).placed h
  | failAll => exact h.failAll

/-- An event arrives. -/
theorem event (h : Placed [] c) (hs : c.event o a = some c') : Placed [] c' := by
  rcases event_cases hs with hsame | ⟨e, he, ok, -, rfl⟩ | ⟨p, -, htimer, rfl⟩
  · exact hsame.placed h
  · exact h.settleOne (fun _ _ => rfl) (List.Subset.refl _)
      (fun e' he' => List.mem_of_mem_erase he') (perm_erase he)
  · have hp : p ∈ c.unsettled := (h.timers p).mpr htimer
    exact h.settleOne (fun _ _ => rfl) List.filter_sublist.subset List.filter_sublist.subset
      (h.perm_filter hp)

/-- **Every step keeps the requests in their places.** -/
theorem step (h : Placed [] c) (hs : step o c a = some c') : Placed [] c' := by
  rcases step_cases hs with ⟨-, rfl⟩ | ⟨-, rfl⟩ | ⟨options, -, rfl⟩ | ⟨b, k, rest, constructed, -, -, rfl⟩ |
    ⟨-, hs⟩
  · exact (SameRequests.connect c).placed h
  · exact (SameRequests.disconnect c).placed h
  · exact h.request options
  · have hstack : SameRequests c { c with stack := rest } := .of_eq rfl rfl rfl rfl rfl
    exact (hstack.placed h).resume constructed k
  · exact h.event hs

end Placed

theorem placed_init : Placed [] init where
  nodup := List.nodup_nil
  timers p := by simp [init, Client.unsettled]
  fresh _ h := by cases h
  settlements p := by simp [init, Client.settlements]
  queued _ h := by cases h
  attached _ h := by cases h
  resent _ h := by cases h
  requeued _ h := by cases h
  sentLt _ _ h := by cases h

theorem placed_of_reach {ok : Client → Action → Prop} (h : Reach (step o) ok init c) :
    Placed [] c :=
  h.invariant placed_init fun _ _ _ _ hp _ hs => hp.step hs

end Sdk

end KilnPrint
