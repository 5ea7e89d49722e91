/-
Requests and the sockets they are sent on.

* `SameSockets` — steps that concern no socket that is there already;
* `Live`, `Live.step` — the invariant: a request in flight is attached to the
  current socket, unless a method under way is about to settle it;
* `Unreplaced` — no handshake succeeds while requests are in flight;
* `requests_kept` — **the promise of a request is settled at most once, and in a
  run whose steps are `Unreplaced` no request is left on a socket that has closed**;
* `request_stranded` — a run in which one is.
-/
import KilnPrint.Sdk.Requests

namespace KilnPrint

namespace Sdk

open Runs

variable {o : Options} {c c' c'' : Client} {a : Action}

/-! ### Sockets -/

/-- Sockets are numbered in their order. -/
def Unborn (c : Client) : Prop := ∀ s, c.nextSocket ≤ s → c.sockets.lookup s = none

/-- A step that concerns no socket that is there already, and leaves what methods have to do. -/
structure SameSockets (c c' : Client) : Prop where
  ws : c'.ws = c.ws
  stack : c.stack ⊆ c'.stack
  unborn : Unborn c → Unborn c'
  sockets : Unborn c → ∀ s x, c.sockets.lookup s = some x → c'.sockets.lookup s = some x

namespace SameSockets

theorem of_eq (hws : c'.ws = c.ws) (hstack : c.stack ⊆ c'.stack) (hsockets : c'.sockets = c.sockets)
    (hnext : c'.nextSocket = c.nextSocket) : SameSockets c c' := by
  refine ⟨hws, hstack, fun h => ?_, fun _ s x hx => ?_⟩
  · unfold Unborn
    rw [hsockets, hnext]
    exact h
  · rwa [hsockets]

theorem refl (c : Client) : SameSockets c c := of_eq rfl (List.Subset.refl _) rfl rfl

theorem trans (h : SameSockets c c') (h' : SameSockets c' c'') : SameSockets c c'' :=
  ⟨h'.ws.trans h.ws, fun _ hx => h'.stack (h.stack hx), fun hu => h'.unborn (h.unborn hu),
    fun hu s x hx => h'.sockets (h.unborn hu) s x (h.sockets hu s x hx)⟩

variable (c)

theorem push (b : Bool) (k : Frame) : SameSockets c (c.push b k) :=
  of_eq rfl (List.subset_cons_self _ _) rfl rfl

theorem setState (st : ConnectionState) (k : Frame) : SameSockets c (c.setState st k) := by
  unfold Client.setState
  split <;> exact of_eq rfl (List.subset_cons_self _ _) rfl rfl

theorem newSocket (id : OpeningId) (owner : Owner) (b : Bool) :
    SameSockets c (c.newSocket id owner b) := by
  unfold Client.newSocket
  split
  · refine ⟨rfl, List.Subset.refl _, fun h s hs => ?_, fun h s x hx => ?_⟩
    · have hlt : c.nextSocket < s := hs
      show (c.sockets.insert c.nextSocket _).lookup s = none
      rw [FinMap.lookup_insert_ite, if_neg hlt.ne', h s hlt.le]
    · have hne : s ≠ c.nextSocket := by
        rintro rfl
        rw [h c.nextSocket le_rfl] at hx
        cases hx
      show (c.sockets.insert c.nextSocket _).lookup s = some x
      rw [FinMap.lookup_insert_ite, if_neg hne, hx]
  · exact of_eq rfl (List.Subset.refl _) rfl rfl

theorem openSocket (o : Options) (owner : Owner) (b : Bool) :
    SameSockets c (c.openSocket o owner b) := by
  unfold Client.openSocket
  split
  · exact of_eq rfl (List.Subset.refl _) rfl rfl
  · have h : SameSockets c { c with nextOpening := c.nextOpening + 1 } :=
      of_eq rfl (List.Subset.refl _) rfl rfl
    exact h.trans (newSocket _ _ _ _)

theorem settleOpening (id : OpeningId) (phase : OpenPhase) :
    SameSockets c (c.settleOpening id phase) := by
  unfold Client.settleOpening
  split <;> exact of_eq rfl (List.Subset.refl _) rfl rfl

theorem afterConnect : SameSockets c c.afterConnect := by
  have h : SameSockets c { c with session := true } := of_eq rfl (List.Subset.refl _) rfl rfl
  exact h.trans (setState _ _ _)

theorem reconnectLoop (o : Options) (attempt : ℕ) : SameSockets c (c.reconnectLoop o attempt) := by
  unfold Client.reconnectLoop
  split
  · exact refl c
  · split
    · exact of_eq rfl (List.Subset.refl _) rfl rfl
    · exact setState c _ _

theorem connect : SameSockets c c.connect := by
  have hnote : SameSockets c (c.note .connectCalled) := of_eq rfl (List.Subset.refl _) rfl rfl
  simp only [Client.connect]
  split
  · exact hnote
  · split
    · exact hnote
    · have h : SameSockets (c.note .connectCalled)
          { c.note .connectCalled with intentionalClose := false } :=
        of_eq rfl (List.Subset.refl _) rfl rfl
      exact (hnote.trans h).trans (setState _ _ _)

theorem settled {opening : Opening} (h : c.settled o opening = some c') : SameSockets c c' := by
  obtain ⟨owner, phase⟩ := opening
  have hfinally : SameSockets c { c with finallies := c.finallies + 1 } :=
    of_eq rfl (List.Subset.refl _) rfl rfl
  cases owner with
  | connect =>
    cases phase with
    | resolved =>
      obtain rfl := Option.some.inj h
      exact hfinally.trans (afterConnect _)
    | rejected fatal =>
      obtain rfl := Option.some.inj h
      exact hfinally.trans (setState _ _ _)
    | token | handshake => cases h
  | loop attempt =>
    cases phase with
    | resolved =>
      obtain rfl := Option.some.inj h
      split
      · exact refl c
      · exact afterConnect c
    | rejected fatal =>
      obtain rfl := Option.some.inj h
      split
      · exact setState c _ _
      · exact reconnectLoop c o _
    | token | handshake => cases h

end SameSockets

/-! ### Requests in flight -/

/-- **The invariant**: a request in flight is attached to the current socket, or the method that
handles the close of its socket is under way, or one that settles all requests. -/
structure Live (c : Client) : Prop where
  unborn : Unborn c
  /-- The current socket has completed its handshake and has not closed. -/
  current : ∀ s, c.ws = some s → ∃ id, c.sockets.lookup s = some ⟨id, true, false⟩
  attached : (∃ b, (b, .failAll) ∈ c.stack) ∨ ∀ e ∈ c.inFlight, ∃ s,
    (c.pending e.2).socket = some s ∧ (c.ws = some s ∨ ∃ b, (b, .drop s) ∈ c.stack)

namespace Live

/-- A step that settles requests in flight, or none. -/
theorem frame (h : Live c) (hs : SameSockets c c') (hinFlight : ∀ e ∈ c'.inFlight, e ∈ c.inFlight ∧
    (c'.pending e.2).socket = (c.pending e.2).socket) : Live c' := by
  refine ⟨hs.unborn h.unborn, fun s hws => ?_, h.attached.imp ?_ fun hattached e he => ?_⟩
  · obtain ⟨id, hid⟩ := h.current s (hs.ws.symm.trans hws)
    exact ⟨id, hs.sockets h.unborn s _ hid⟩
  · rintro ⟨b, hb⟩
    exact ⟨b, hs.stack hb⟩
  · obtain ⟨hold, hsocket⟩ := hinFlight e he
    obtain ⟨s, hsome, hplace⟩ := hattached e hold
    refine ⟨s, hsocket.trans hsome, hplace.imp hs.ws.trans ?_⟩
    rintro ⟨b, hb⟩
    exact ⟨b, hs.stack hb⟩

theorem same (h : Live c) (hr : SameRequests c c') (hs : SameSockets c c') : Live c' :=
  h.frame hs fun e he => ⟨hr.inFlight ▸ he, by rw [hr.pending]⟩

/-- A method continues that has no request to settle. -/
theorem pop (h : Live c) {b : Bool} {k : Frame} {rest : List (Bool × Frame)}
    (hstack : c.stack = (b, k) :: rest) (hfail : k ≠ .failAll) (hdrop : ∀ s, k ≠ .drop s) :
    Live { c with stack := rest } := by
  have hmem : ∀ b' k', k' ≠ k → (b', k') ∈ c.stack → (b', k') ∈ rest := by
    intro b' k' hne hmem
    rw [hstack] at hmem
    exact (List.mem_cons.mp hmem).resolve_left fun heq => hne (congrArg Prod.snd heq)
  refine ⟨h.unborn, h.current, h.attached.imp ?_ fun hattached e he => ?_⟩
  · rintro ⟨b', hb⟩
    exact ⟨b', hmem b' _ hfail.symm hb⟩
  · obtain ⟨s, hsome, hplace⟩ := hattached e he
    refine ⟨s, hsome, hplace.imp_right ?_⟩
    rintro ⟨b', hb⟩
    exact ⟨b', hmem b' _ (hdrop s).symm hb⟩

/-- A request is sent on the current socket. -/
theorem send (h : Live c) (p : RequestId) : Live (c.send p) := by
  cases hws : c.ws with
  | none =>
    rw [Placed.send_none hws]
    exact h.frame (.of_eq rfl (List.Subset.refl _) rfl rfl) fun e he => ⟨he, rfl⟩
  | some s =>
    rw [Placed.send_some hws]
    refine ⟨h.unborn, h.current, h.attached.imp_right ?_⟩
    intro hattached e he
    show ∃ s', (Function.update c.pending p _ e.2).socket = some s' ∧ _
    by_cases hep : e.2 = p
    · rw [hep, Function.update_self]
      exact ⟨s, rfl, .inl hws⟩
    · rw [Function.update_of_ne hep]
      refine hattached e ((List.mem_append.mp he).resolve_right fun hlast => ?_)
      exact hep (congrArg Prod.snd (List.mem_singleton.mp hlast))

/-- What is left in flight by one turn of the loop of `#onClose`. -/
theorem mem_loseOne (hp : Placed [] c) {s : SocketId} {e e' : ℕ × RequestId} (he : e ∈ c.inFlight)
    (he' : e' ∈ (c.loseOne o s e).inFlight) : e' ∈ c.inFlight ∧
      ((c.loseOne o s e).pending e'.2).socket = (c.pending e'.2).socket ∧
      ((c.pending e'.2).socket = some s → e' ≠ e) := by
  simp only [Client.loseOne] at he' ⊢
  split at he'
  · next hsocket =>
    rw [if_pos hsocket]
    exact ⟨he', rfl, fun h heq => hsocket (heq ▸ h)⟩
  · next hsocket =>
    rw [if_neg hsocket]
    have hnodup := hp.nodup
    rw [List.nil_append, (Placed.perm_erase he).nodup_iff, List.nodup_cons, List.mem_append,
      not_or] at hnodup
    have herase : e' ∈ c.inFlight.erase e := by
      split at he' <;> exact he'
    have hne : e'.2 ≠ e.2 := fun heq => hnodup.1.2 (heq ▸ List.mem_map_of_mem herase)
    refine ⟨List.mem_of_mem_erase herase, ?_, fun _ heq => hne (congrArg Prod.snd heq)⟩
    split
    · show (Function.update c.pending e.2 _ e'.2).socket = _
      rw [Function.update_of_ne hne]
    · show (if e'.2 ∈ [e.2] then _ else Function.update c.pending e.2 _ e'.2 : Pending).socket = _
      rw [if_neg fun hmem => hne (List.mem_singleton.mp hmem), Function.update_of_ne hne]

theorem sameSockets_loseOne (s : SocketId) (e : ℕ × RequestId) :
    SameSockets c (c.loseOne o s e) := by
  simp only [Client.loseOne]
  split
  · exact .refl c
  · split <;> exact .of_eq rfl (List.Subset.refl _) rfl rfl

/-- **After the loop of `#onClose` no request is attached to the dead socket.** -/
theorem drop (hp : Placed [] c) (s : SocketId) :
    SameSockets c (c.inFlight.foldl (Client.loseOne o s) c) ∧
      ∀ e ∈ (c.inFlight.foldl (Client.loseOne o s) c).inFlight, e ∈ c.inFlight ∧
        ((c.inFlight.foldl (Client.loseOne o s) c).pending e.2).socket = (c.pending e.2).socket ∧
        (c.pending e.2).socket ≠ some s := by
  have hloop := hp.drop (o := o) (s := s) (P := fun entries c' => SameSockets c c' ∧
    ∀ e ∈ c'.inFlight, e ∈ c.inFlight ∧ (c'.pending e.2).socket = (c.pending e.2).socket ∧
      ((c.pending e.2).socket = some s → e ∈ entries)) ?_ ⟨.refl c, fun e he => ⟨he, rfl, fun _ => he⟩⟩
  · refine ⟨hloop.2.1, fun e he => ?_⟩
    obtain ⟨hin, hsocket, hleft⟩ := hloop.2.2 e he
    exact ⟨hin, hsocket, fun hs => by cases hleft hs⟩
  · rintro c' e rest hp' he ⟨hsame, hkept⟩
    refine ⟨hsame.trans (sameSockets_loseOne s e), fun e' he' => ?_⟩
    obtain ⟨hin, hsocket, hne⟩ := mem_loseOne hp' he he'
    obtain ⟨hin', hsocket', hleft⟩ := hkept e' hin
    refine ⟨hin', hsocket.trans hsocket', fun hs => ?_⟩
    exact (List.mem_cons.mp (hleft hs)).resolve_left (hne (hsocket'.trans hs))

/-- A method continues. -/
theorem resume (hp : Placed [] c) (h : Live c) {b constructed : Bool} {k : Frame}
    {rest : List (Bool × Frame)} (hstack : c.stack = (b, k) :: rest) :
    Live ({ c with stack := rest }.resume o constructed k) := by
  have hrest : SameRequests c { c with stack := rest } := .of_eq rfl rfl rfl rfl rfl
  have hp' := hrest.placed hp
  cases k with
  | openSocket =>
    have hpop := h.pop hstack (fun h => by cases h) fun _ h => by cases h
    exact (hpop.same (.openSocket _ o .connect constructed) (.openSocket _ o .connect constructed)).same
      (.of_eq rfl rfl rfl rfl rfl) (.of_eq rfl (List.Subset.refl _) rfl rfl)
  | announce =>
    exact (h.pop hstack (fun h => by cases h) fun _ h => by cases h).same (.push _ _ _) (.push _ _ _)
  | flush =>
    have hpop := h.pop hstack (fun h => by cases h) fun _ h => by cases h
    refine (hp'.flush (P := Live) (fun _ p _ _ h => h.send p) ?_).2
    exact hpop.frame (.of_eq rfl (List.Subset.refl _) rfl rfl) fun e he => ⟨he, rfl⟩
  | drop s =>
    -- after a close, what is in flight was sent on other sockets
    obtain ⟨hsame, hkept⟩ := drop (o := o) hp' s
    have hlive : Live (({ c with stack := rest } : Client).inFlight.foldl (Client.loseOne o s)
        { c with stack := rest }) := by
      refine ⟨hsame.unborn h.unborn, fun s' hws => ?_, h.attached.imp ?_ fun hattached e he => ?_⟩
      · obtain ⟨id, hid⟩ := h.current s' (hsame.ws.symm.trans hws)
        exact ⟨id, hsame.sockets h.unborn s' _ hid⟩
      · rintro ⟨b', hb⟩
        rw [hstack] at hb
        exact ⟨b', hsame.stack ((List.mem_cons.mp hb).resolve_left fun heq => by cases heq)⟩
      · obtain ⟨hin, hsocket, hne⟩ := hkept e he
        obtain ⟨s', hsome, hplace⟩ := hattached e hin
        refine ⟨s', hsocket.trans hsome, hplace.imp hsame.ws.trans ?_⟩
        rintro ⟨b', hb⟩
        rw [hstack] at hb
        refine ⟨b', hsame.stack ((List.mem_cons.mp hb).resolve_left fun heq => hne ?_)⟩
        obtain ⟨-, rfl⟩ : b' = b ∧ s' = s := by simpa using heq
        exact hsome
    simp only [Client.resume]
    split
    · exact hlive.same (.setState _ _ _) (.setState _ _ _)
    · exact hlive.same (.setState _ _ _) (.setState _ _ _)
  | attempt =>
    exact (h.pop hstack (fun h => by cases h) fun _ h => by cases h).same (.reconnectLoop _ o 0)
      (.reconnectLoop _ o 0)
  | report =>
    exact (h.pop hstack (fun h => by cases h) fun _ h => by cases h).same (.push _ _ _) (.push _ _ _)
  | failAll => exact ⟨h.unborn, h.current, .inr fun e he => by cases he⟩

/-- A new request. -/
theorem request (hp : Placed [] c) (h : Live c) (options : RequestOptions) :
    Live (c.request options) := by
  simp only [Client.request]
  split
  · exact h.frame (.of_eq rfl (List.Subset.refl _) rfl rfl) fun e he => ⟨he, rfl⟩
  · have hnew : ∀ e ∈ c.inFlight, e ∈ c.inFlight ∧ (Function.update c.pending c.nextRequest
        ⟨options, none, true⟩ e.2).socket = (c.pending e.2).socket := by
      intro e he
      have hmem : e.2 ∈ c.unsettled := List.mem_append_right _ (List.mem_map_of_mem he)
      rw [Function.update_of_ne (ne_of_mem_of_not_mem hmem hp.notMem_next)]
      exact ⟨he, rfl⟩
    have hlive : Live { c with
        nextRequest := c.nextRequest + 1
        pending := Function.update c.pending c.nextRequest ⟨options, none, true⟩ } :=
      h.frame (.of_eq rfl (List.Subset.refl _) rfl rfl) hnew
    split
    · exact hlive.send _
    · exact hlive.frame (.of_eq rfl (List.Subset.refl _) rfl rfl) fun e he => ⟨he, rfl⟩

theorem unborn_insert (h : Unborn c) {s : SocketId} {x : Socket} (y : Socket)
    (hs : c.sockets.lookup s = some x) : Unborn { c with sockets := c.sockets.insert s y } := by
  intro s' hs'
  have hne : s' ≠ s := by
    rintro rfl
    cases hs.symm.trans (h s' hs')
  show (c.sockets.insert s y).lookup s' = none
  rw [FinMap.lookup_insert_ite, if_neg hne, h s' hs']

/-- Something happens to a socket, which is still as it was if it is the current one. -/
theorem insertSocket (h : Live c) {s : SocketId} {x : Socket} (y : Socket)
    (hs : c.sockets.lookup s = some x)
    (hy : c.ws = some s → y.settled = true ∧ y.closed = false) :
    Live { c with sockets := c.sockets.insert s y } := by
  refine ⟨unborn_insert h.unborn y hs, fun s' hws => ?_, h.attached⟩
  show ∃ id, (c.sockets.insert s y).lookup s' = _
  rw [FinMap.lookup_insert_ite]
  split
  · next heq =>
    obtain ⟨id, settled, closed⟩ := y
    obtain ⟨rfl, rfl⟩ := hy (heq ▸ hws)
    exact ⟨id, rfl⟩
  · exact h.current s' hws

/-- When no method is under way, the requests in flight are attached to the current socket. -/
theorem of_idle (h : Live c) (hstack : c.stack = []) {e : ℕ × RequestId} (he : e ∈ c.inFlight) :
    ∃ s, (c.pending e.2).socket = some s ∧ c.ws = some s := by
  rcases h.attached with ⟨b, hb⟩ | hattached
  · rw [hstack] at hb
    cases hb
  · obtain ⟨s, hsome, hplace⟩ := hattached e he
    refine ⟨s, hsome, hplace.resolve_right ?_⟩
    rintro ⟨b, hb⟩
    rw [hstack] at hb
    cases hb

/-- A socket closes. -/
theorem onClose (h : Live c) (hstack : c.stack = []) {s : SocketId} {id : OpeningId}
    (hs : c.sockets.lookup s = some ⟨id, true, false⟩) :
    Live ({ c with sockets := c.sockets.insert s ⟨id, true, true⟩ }.onClose s) := by
  unfold Client.onClose
  split
  · next hws =>
    refine ⟨unborn_insert h.unborn _ hs, fun s' hws' => (by cases hws'), .inr fun e he => ?_⟩
    obtain ⟨s', hsome, hws'⟩ := h.of_idle hstack he
    obtain rfl : s = s' := Option.some.inj (hws.symm.trans hws')
    exact ⟨s, hsome, .inr ⟨true, List.mem_cons_self⟩⟩
  · next hws => exact h.insertSocket _ hs fun hws' => absurd hws' hws

/-- A handshake fails, or the socket closes during it. -/
theorem fail (h : Live c) {s : SocketId} {id : OpeningId} {closed : Bool} (x : Socket)
    (hs : c.sockets.lookup s = some ⟨id, false, closed⟩) : Live (c.fail s x) := by
  have hws : c.ws ≠ some s := by
    intro hws
    obtain ⟨id', hid⟩ := h.current s hws
    cases hs.symm.trans hid
  have hinsert : Live { c with sockets := c.sockets.insert s { x with settled := true } } :=
    h.insertSocket _ hs fun hws' => absurd hws' hws
  exact hinsert.same (.settleOpening _ _ _) (.settleOpening _ _ _)

end Live

/-! ### Runs -/

/-- No handshake succeeds while requests are in flight. -/
def Unreplaced (c : Client) : Action → Prop
  | .hello _ .accepted => c.inFlight = []
  | _ => True

namespace Live

/-- A socket that is not settled is not the current one. -/
theorem ws_ne (h : Live c) {s : SocketId} {id : OpeningId} {closed : Bool}
    (hsocket : c.sockets.lookup s = some ⟨id, false, closed⟩) : c.ws ≠ some s := by
  intro hws
  obtain ⟨id', hid⟩ := h.current s hws
  cases hsocket.symm.trans hid

/-- An event arrives. -/
theorem event (h : Live c) (hstack : c.stack = []) (hok : Unreplaced c a)
    (hs : c.event o a = some c') : Live c' := by
  cases happens_of_event hs with
  | issued => exact h.same (.newSocket c _ _ _) (.newSocket c _ _ _)
  | unissued => exact h.same (.settleOpening c _ _) (.settleOpening c _ _)
  | @accepted s id hsocket =>
    -- only a handshake changes the socket, and no request is in flight then
    have hidle : c.inFlight = [] := hok
    have hlive : Live { c with ws := some s, sockets := c.sockets.insert s ⟨id, true, false⟩ } := by
      refine ⟨unborn_insert h.unborn _ hsocket, ?_, .inr fun e he => ?_⟩
      · rintro s' ⟨⟩
        exact ⟨id, (FinMap.lookup_insert_ite ..).trans (if_pos rfl)⟩
      · have hnil : e ∈ c.inFlight := he
        rw [hidle] at hnil
        cases hnil
    exact hlive.same (.settleOpening _ _ _) (.settleOpening _ _ _)
  | refused hsocket =>
    exact (h.insertSocket _ hsocket fun hws => absurd hws (h.ws_ne hsocket)).same
      (.settleOpening _ _ _) (.settleOpening _ _ _)
  | failed hsocket => exact h.fail _ hsocket
  | closed hsocket => exact h.onClose hstack hsocket
  | @lost s id hsocket =>
    have hinsert : Live { c with sockets := c.sockets.insert s ⟨id, false, true⟩ } :=
      h.insertSocket _ hsocket fun hws => absurd hws (h.ws_ne hsocket)
    exact hinsert.fail _ ((FinMap.lookup_insert_ite ..).trans (if_pos rfl))
  | @replied s e ok =>
    refine h.frame (.of_eq rfl (List.Subset.refl _) rfl rfl) fun e' he' => ?_
    refine ⟨List.mem_of_mem_erase he', ?_⟩
    show (if e'.2 ∈ [e.2] then _ else c.pending e'.2 : Pending).socket = _
    split <;> rfl
  | @timedOut p =>
    refine h.frame (.of_eq rfl (List.Subset.refl _) rfl rfl) fun e he => ?_
    refine ⟨List.mem_of_mem_filter he, ?_⟩
    show (if e.2 ∈ [p] then _ else c.pending e.2 : Pending).socket = _
    split <;> rfl
  | woken => exact h.same (.of_eq rfl rfl rfl rfl rfl) (.of_eq rfl (List.Subset.refl _) rfl rfl)
  | @retried pick attempt =>
    have hsleeping : Live { c with sleeping := c.sleeping.eraseIdx pick } :=
      h.same (.of_eq rfl rfl rfl rfl rfl) (.of_eq rfl (List.Subset.refl _) rfl rfl)
    exact hsleeping.same (.openSocket _ _ _ _) (.openSocket _ _ _ _)
  | @settled id _ _ _ hsettled =>
    have herase : Live { c with openings := c.openings.erase id } :=
      h.same (.of_eq rfl rfl rfl rfl rfl) (.of_eq rfl (List.Subset.refl _) rfl rfl)
    exact herase.same (.settled _ hsettled) (.settled _ hsettled)
  | finished => exact h.frame (.of_eq rfl (List.Subset.refl _) rfl rfl) fun e he => ⟨he, rfl⟩
  | late | unmatched => exact h

/-- The client disconnects: what is in flight is about to be settled. -/
theorem disconnect (h : Live c) : Live c.disconnect := by
  have hstack : ∃ b, (b, Frame.failAll) ∈ c.disconnect.stack := by
    unfold Client.disconnect Client.setState
    split
    · exact ⟨false, List.mem_cons_self⟩
    · exact ⟨true, List.mem_cons_self⟩
  have hsame : SameSockets { c.note .disconnectCalled with intentionalClose := true, ws := none }
      c.disconnect := .setState _ _ _
  refine ⟨hsame.unborn h.unborn, fun s hws => ?_, .inl hstack⟩
  cases hsame.ws.symm.trans hws

/-- **Every step that replaces no socket in use keeps the invariant.** -/
theorem step (hp : Placed [] c) (h : Live c) (hok : Unreplaced c a) (hs : step o c a = some c') :
    Live c' := by
  rcases step_cases hs with ⟨-, rfl⟩ | ⟨-, rfl⟩ | ⟨options, -, rfl⟩ |
    ⟨b, k, rest, constructed, -, hstack, rfl⟩ | ⟨hstack, hs⟩
  · exact h.same (.connect c) (.connect c)
  · exact h.disconnect
  · exact h.request hp options
  · exact h.resume hp hstack
  · exact h.event hstack hok hs

end Live

theorem live_init : Live init where
  unborn _ _ := rfl
  current _ h := by cases h
  attached := .inr fun _ h => by cases h

theorem live_of_reach (h : Reach (step o) Unreplaced init c) : Live c :=
  h.invariant live_init fun _ _ _ hr hlive hok hs => hlive.step (placed_of_reach hr) hok hs

/-- A request waits to be sent, or for a reply on a socket that has not closed. -/
def Client.Waits (c : Client) (p : RequestId) : Prop :=
  p ∈ c.queue ∨ ∃ frame s socket, (frame, p) ∈ c.inFlight ∧ (c.pending p).socket = some s ∧
    c.sockets.lookup s = some socket ∧ socket.closed = false

/-- A request is stranded if its socket closes and is not the current one. -/
theorem stranded_of_close (hp : Placed [] c) (hstack : c.stack = []) {s : SocketId} {id : OpeningId}
    {e : ℕ × RequestId} (hws : c.ws ≠ some s) (hsocket : c.sockets.lookup s = some ⟨id, true, false⟩)
    (he : e ∈ c.inFlight) (hsome : (c.pending e.2).socket = some s) :
    ∃ c', step o c (.close s) = some c' ∧ c'.stack = [] ∧
      ¬ (c'.settlements e.2 = 1 ∨ c'.Waits e.2) := by
  have hclose : step o c (.close s) =
      some { c with sockets := c.sockets.insert s ⟨id, true, true⟩ } := by
    simp only [step, hstack, if_true, Client.event, hsocket]
    exact congrArg some (if_neg hws)
  have hmem : e.2 ∈ c.unsettled := List.mem_append_right _ (List.mem_map_of_mem he)
  have hnodup : c.unsettled.Nodup := hp.nodup
  refine ⟨_, hclose, hstack, ?_⟩
  rintro (hsettled | hqueue | ⟨frame, s', socket, -, hsome', hsocket', hopen⟩)
  · have hzero : c.settlements e.2 = 0 := by
      rw [hp.settlements, if_neg fun hn => hn.2 hmem]
    cases hzero.symm.trans hsettled
  · exact List.disjoint_of_nodup_append hnodup hqueue (List.mem_map_of_mem he)
  · obtain rfl : s = s' := Option.some.inj (hsome.symm.trans hsome')
    have hclosed : (c.sockets.insert s ⟨id, true, true⟩).lookup s = some socket := hsocket'
    rw [FinMap.lookup_insert_ite, if_pos rfl] at hclosed
    obtain rfl := Option.some.inj hclosed
    cases hopen

theorem settleOpening_fields (c : Client) (id : OpeningId) (phase : OpenPhase) :
    (c.settleOpening id phase).stack = c.stack ∧ (c.settleOpening id phase).sockets = c.sockets := by
  unfold Client.settleOpening
  split <;> exact ⟨rfl, rfl⟩

/-- A request that is in flight when a handshake succeeds is stranded if its socket closes. -/
theorem stranded_of_hello (hp : Placed [] c) (hlive : Live c) {s : SocketId} {e : ℕ × RequestId}
    (he : e ∈ c.inFlight) (hs : step o c (.hello s .accepted) = some c') :
    ∃ s₀ c'', step o c' (.close s₀) = some c'' ∧ c''.stack = [] ∧
      ¬ (c''.settlements e.2 = 1 ∨ c''.Waits e.2) := by
  rcases step_cases hs with ⟨h, -⟩ | ⟨h, -⟩ | ⟨options, h, -⟩ | ⟨b, k, rest, constructed, h, -, -⟩ |
    ⟨hstack, hs⟩
  · cases h
  · cases h
  · cases h
  · cases h
  · obtain ⟨s₀, hsome, hws⟩ := hlive.of_idle hstack he
    obtain ⟨id₀, hsocket₀⟩ := hlive.current s₀ hws
    cases happens_of_event hs with
    | @accepted _ id hsocket =>
      have hne : s₀ ≠ s := by
        rintro rfl
        exact hlive.ws_ne hsocket hws
      -- the handshake replaces the socket, and concerns no request
      have hreplaced : SameRequests c
          { c with ws := some s, sockets := c.sockets.insert s ⟨id, true, false⟩ } :=
        .of_eq rfl rfl rfl rfl rfl
      have hrequests := hreplaced.trans (.settleOpening _ id .resolved)
      have hidle : (({ c with ws := some s, sockets := c.sockets.insert s ⟨id, true, false⟩ } :
          Client).settleOpening id .resolved).stack = [] :=
        (settleOpening_fields _ id .resolved).1.trans hstack
      have hcurrent : (({ c with ws := some s, sockets := c.sockets.insert s ⟨id, true, false⟩ } :
          Client).settleOpening id .resolved).ws ≠ some s₀ := by
        rw [(SameSockets.settleOpening _ id .resolved).ws]
        exact fun h => hne (Option.some.inj h).symm
      have hopen : (({ c with ws := some s, sockets := c.sockets.insert s ⟨id, true, false⟩ } :
          Client).settleOpening id .resolved).sockets.lookup s₀ = some ⟨id₀, true, false⟩ := by
        rw [(settleOpening_fields _ id .resolved).2]
        show (c.sockets.insert s _).lookup s₀ = _
        rw [FinMap.lookup_insert_ite, if_neg hne, hsocket₀]
      refine ⟨s₀, stranded_of_close (hrequests.placed hp) hidle hcurrent hopen ?_ ?_⟩
      · rw [hrequests.inFlight]
        exact he
      · rw [hrequests.pending]
        exact hsome

/-- **Requests are neither lost nor settled twice.**  The promise of a request is settled at most
once.  Where no handshake succeeds while requests are in flight, every request that is not settled
is in the queue, or in flight on a socket that has not closed, whenever no method is under way; and
where one does, such a request is stranded when its socket closes. -/
theorem requests_kept (o : Options) :
    (∀ c, Reach (step o) (fun _ _ => True) init c → ∀ p, c.settlements p ≤ 1) ∧
    (∀ c, Reach (step o) Unreplaced init c → c.stack = [] →
      ∀ p < c.nextRequest, c.settlements p = 1 ∨ c.Waits p) ∧
    ∀ c c' s e, Reach (step o) Unreplaced init c → e ∈ c.inFlight →
      step o c (.hello s .accepted) = some c' →
      ∃ s₀ c'', step o c' (.close s₀) = some c'' ∧ c''.stack = [] ∧
        ¬ (c''.settlements e.2 = 1 ∨ c''.Waits e.2) := by
  refine ⟨fun c h p => ?_, fun c h hstack p hp => ?_, fun c c' s e h he hs => ?_⟩
  · rw [(placed_of_reach h).settlements]
    split <;> omega
  · have hplaced := placed_of_reach h
    have hlive := live_of_reach h
    by_cases hmem : p ∈ c.unsettled
    · refine .inr ((List.mem_append.mp hmem).imp_right fun hmap => ?_)
      obtain ⟨⟨frame, p⟩, he, rfl⟩ := List.mem_map.mp hmap
      obtain ⟨s, hsome, hws⟩ := hlive.of_idle hstack he
      obtain ⟨id, hsocket⟩ := hlive.current s hws
      exact ⟨frame, s, _, he, hsome, hsocket, rfl⟩
    · left
      rw [hplaced.settlements, if_pos ⟨hp, hmem⟩]
  · exact stranded_of_hello (placed_of_reach h) (live_of_reach h) he hs

/-! ### A page -/

/-- A page that reconnects for ever. -/
def page : Options := ⟨false, some none⟩

/-- The state a run of the page's client ends in. -/
def pageAfter (run : List Action) : Client := (runFrom (step page) init run).getD init

theorem reach_pageAfter (ok : Client → Action → Prop) [∀ c a, Decidable (ok c a)]
    (run : List Action)
    (h : (checked (step page) (fun c a => decide (ok c a)) init run).isSome = true) :
    Reach (step page) ok init (pageAfter run) := by
  obtain ⟨c, hc⟩ := Option.isSome_iff_exists.mp h
  have hafter : pageAfter run = c := by rw [pageAfter, runFrom_of_checked hc]; rfl
  rw [hafter]
  exact reach_of_checked (fun c a => of_decide_eq_true) hc

instance (c : Client) (a : Action) : Decidable (Unreplaced c a) :=
  match a with
  | .hello _ .accepted => inferInstanceAs (Decidable (c.inFlight = []))
  | .hello _ (.refused _) | .connect | .disconnect | .request _ | .resume _ | .token .. | .error _
  | .close _ | .reply .. | .timeout _ | .wake .. | .settled _ | .finished => isTrue trivial

/-- `connect`, on a new socket. -/
def connecting (s : SocketId) (id : OpeningId) : List Action :=
  [.connect, .resume true, .hello s .accepted, .settled id, .resume true, .resume true, .finished]

/-- A print is sent, and the socket closes. -/
def losing : List Action := connecting 0 0 ++ [.request ⟨true, true⟩, .close 0, .resume true, .resume true]

theorem requests_kept_lost : (pageAfter losing).settlements 0 = 1 ∨ (pageAfter losing).Waits 0 :=
  (requests_kept page).2.1 _ (reach_pageAfter Unreplaced losing (by decide +kernel))
    (by decide +kernel) 0 (by decide +kernel)

/-- The page connects again while the client reconnects; a print is sent on the page's connection,
which the other one replaces. -/
def replacing : List Action :=
  connecting 0 0 ++ [.close 0, .resume true, .resume true] ++ connecting 1 1 ++
    [.request ⟨true, true⟩, .wake 0 true, .hello 2 .accepted, .settled 2, .resume true, .resume true,
      .close 1]

/-- **A request is left in flight on a socket that has closed.** -/
theorem request_stranded : ¬ ∀ c, Reach (step page) (fun _ _ => True) init c → c.stack = [] →
    ∀ p < c.nextRequest, c.settlements p = 1 ∨ c.Waits p := by
  intro h
  rcases h _ (reach_pageAfter (fun _ _ => True) replacing (by decide +kernel)) (by decide +kernel) 0
    (by decide +kernel) with hsettled | hqueue | ⟨frame, s, socket, -, hsome, hsocket, hopen⟩
  · exact absurd hsettled (by decide +kernel)
  · exact absurd hqueue (by decide +kernel)
  · have hs : some 1 = some s := Eq.trans (by decide +kernel) hsome
    obtain rfl := Option.some.inj hs
    have hclosed : (pageAfter replacing).sockets.lookup 1 = some ⟨1, true, true⟩ := by decide +kernel
    obtain rfl := Option.some.inj (hclosed.symm.trans hsocket)
    cases hopen

end Sdk

end KilnPrint
