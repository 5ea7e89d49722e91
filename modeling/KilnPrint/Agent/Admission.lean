/-
Who gets through the handshake.

* `Conn.Admitted` — **the first text frame lets a caller in**;
* `Conn.Gated` — the invariant: a session, a call of the service and every message but a refusal
  are an admitted caller's;
* `Conn.Gated.turn` — every step keeps it;
* `admitted_unique` — a connection has one caller for good.
-/
import KilnPrint.Agent.Turns

namespace KilnPrint

namespace Connection

variable {δ : Type} [DecidableEq δ] {sv : Server δ} {fresh : SessionId} {x x' : Conn}
  {effects : List Effect}

/-! ### What a connection holds -/

/-- The session of a connection that has passed the handshake. -/
def Pc.session : Pc → Option Session
  | admitting _ s | inserting s | connected s | serving s | answering _ s | parting _ s
  | removing s | disconnected s => some s
  | _ => none

/-- What is still to be sent in the handshake. -/
def Pc.todo : Pc → List Message
  | pausing id e => [.response (some id) (.error e), .close closePolicy e.errorCode.asStr]
  | refusing todo => todo
  | admitting m _ => [m]
  | _ => []

/-- A message that a client is turned away with. -/
def Message.refusal : Message → Bool
  | response _ (.error _) | close .. => true
  | _ => false

/-- The first text frame lets `who` in. -/
def Conn.Admitted (sv : Server δ) (x : Conn) (who : Caller) : Prop :=
  ∃ message, x.texts.head? = some message ∧ Admits sv x.info message who

/-- Whatever a connection does, it does for an admitted caller. -/
structure Conn.Gated (sv : Server δ) (x : Conn) : Prop where
  unread : x.pc = .upgrading ∨ x.pc = .greeting → x.texts = []
  session : ∀ s ∈ x.pc.session, x.Admitted sv s.who
  dispatched : ∀ call ∈ x.dispatched, x.Admitted sv call.1
  greeted : ∀ m ∈ x.greeted ++ x.pc.todo, m.refusal = false → ∃ who, x.Admitted sv who
  told : x.told ≠ [] ∨ x.calls ≠ [] → ∃ who, x.Admitted sv who

/-! ### Callers -/

/-- **A frame lets one caller in.** -/
theorem admits_unique {connection : ConnectionInfo} {message : TextMessage} {who who' : Caller}
    (h : Admits sv connection message who) (h' : Admits sv connection message who') :
    who = who' := by
  obtain ⟨request, params, hrequest, -, hparams, -, hauth⟩ := h
  obtain ⟨request', params', hrequest', -, hparams', -, hauth'⟩ := h'
  obtain rfl := Except.ok.inj (hrequest.symm.trans hrequest')
  obtain rfl := Except.ok.inj (hparams.symm.trans hparams')
  exact Except.ok.inj (hauth.symm.trans hauth')

theorem admitted_unique {who who' : Caller} (h : x.Admitted sv who) (h' : x.Admitted sv who') :
    who = who' := by
  obtain ⟨message, hhead, hadmits⟩ := h
  obtain ⟨message', hhead', hadmits'⟩ := h'
  obtain rfl := Option.some.inj (hhead.symm.trans hhead')
  exact admits_unique hadmits hadmits'

/-- Further frames change nothing. -/
theorem Conn.Admitted.more {who : Caller} {texts : List TextMessage} (h : x.Admitted sv who)
    (hinfo : x'.info = x.info) (htexts : x'.texts = x.texts ++ texts) : x'.Admitted sv who := by
  obtain ⟨message, hhead, hadmits⟩ := h
  refine ⟨message, ?_, hinfo ▸ hadmits⟩
  rw [htexts, List.head?_append, hhead, Option.some_or]

theorem Conn.Admitted.same {who : Caller} (h : x.Admitted sv who) (hinfo : x'.info = x.info)
    (htexts : x'.texts = x.texts) : x'.Admitted sv who :=
  h.more hinfo (htexts.trans (List.append_nil _).symm)

/-! ### Every step -/

/-- A send changes the queue. -/
theorem Conn.enqueue_eq (x : Conn) (m : Message) :
    ∃ queue, x.enqueue m = { x with queue := queue } ∧ queue.Sublist (x.queue ++ [m]) := by
  unfold enqueue
  split
  · exact ⟨x.queue, rfl, List.sublist_append_left _ _⟩
  · exact ⟨x.queue ++ [m], rfl, .refl _⟩

/-- What may be lost is sent, or changes nothing. -/
theorem Conn.offer_eq (x : Conn) (m : Message) :
    x.offer m = { x with queue := x.queue ++ [m], told := x.told ++ [m] } ∨ x.offer m = x := by
  unfold offer
  split
  · exact .inl rfl
  · exact .inr rfl

/-- Where the session task moves, it keeps its session, or drops it. -/
theorem Moves.session {writer : Writer} {pc pc' : Pc} (h : Moves writer pc pc' effects) :
    ∀ s ∈ pc'.session, s ∈ pc.session := by
  cases h <;> intro s hs <;> first | exact hs | cases hs

/-- Nothing is added to what is to be sent. -/
theorem Moves.todo {writer : Writer} {pc pc' : Pc} (h : Moves writer pc pc' effects) :
    pc'.todo = pc.todo ∨ pc'.todo = [] := by
  cases h <;> first | exact .inl rfl | exact .inr rfl

theorem Moves.unread {writer : Writer} {pc pc' : Pc} (h : Moves writer pc pc' effects)
    (hpc : pc' = .upgrading ∨ pc' = .greeting) : pc = .upgrading := by
  cases h <;> first | rfl | (rcases hpc with hpc | hpc <;> cases hpc)

theorem Greets.session {pc pc' : Pc} {m : Message} (h : Greets pc m pc') :
    pc'.session = pc.session := by
  cases h <;> rfl

theorem Greets.unread {pc pc' : Pc} {m : Message} (h : Greets pc m pc') :
    ¬ (pc' = .upgrading ∨ pc' = .greeting) := by
  cases h <;> rintro (hpc | hpc) <;> cases hpc

theorem Tells.session {pc pc' : Pc} {m : Message} (h : Tells pc m pc') :
    ∃ s, s ∈ pc.session ∧ pc'.session = some s ∧ pc'.todo = [] := by
  cases h <;> exact ⟨_, rfl, rfl, rfl⟩

theorem Offers.who {s s' : Session} {m : Message} (h : Offers s m s') : s'.who = s.who := by
  cases h <;> rfl

/-- A handshake sends what is to be sent, or that its time is up. -/
theorem Greets.todo {pc pc' : Pc} {m : Message} (h : Greets pc m pc') :
    pc.todo = m :: pc'.todo ∨ m.refusal = true ∧ m.replyTo = none ∧ pc'.todo = [] := by
  cases h with
  | refusing todo => exact .inl rfl
  | timedOut => exact .inr ⟨rfl, rfl, rfl⟩
  | admitting s => exact .inl rfl

theorem Turn.info (h : Turn sv fresh x x' effects) : x'.info = x.info := by
  cases h with
  | greets | tells | responds => exact Conn.enqueue_info _ _
  | offers => exact Conn.offer_info _ _
  | _ => rfl

/-- What a step keeps, if it lets nobody in. -/
theorem Conn.Gated.keep (h : x.Gated sv) {texts : List TextMessage} (hinfo : x'.info = x.info)
    (htexts : x'.texts = x.texts ++ texts)
    (hunread : x'.pc = .upgrading ∨ x'.pc = .greeting → x'.texts = [])
    (hsession : ∀ s ∈ x'.pc.session, ∃ t ∈ x.pc.session, t.who = s.who)
    (hdispatched : ∀ call ∈ x'.dispatched,
      call ∈ x.dispatched ∨ ∃ s ∈ x.pc.session, s.who = call.1)
    (hgreeted : ∀ m ∈ x'.greeted ++ x'.pc.todo, m.refusal = false → m ∈ x.greeted ++ x.pc.todo)
    (htold : x'.told ≠ [] ∨ x'.calls ≠ [] → (∃ s, s ∈ x.pc.session) ∨ x.told ≠ [] ∨ x.calls ≠ []) :
    x'.Gated sv where
  unread := hunread
  session s hs := by
    obtain ⟨t, ht, hwho⟩ := hsession s hs
    exact hwho ▸ (h.session t ht).more hinfo htexts
  dispatched call hcall := by
    rcases hdispatched call hcall with hcall | ⟨s, hs, hwho⟩
    · exact (h.dispatched call hcall).more hinfo htexts
    · exact hwho ▸ (h.session s hs).more hinfo htexts
  greeted m hm hrefusal := by
    obtain ⟨who, hwho⟩ := h.greeted m (hgreeted m hm hrefusal) hrefusal
    exact ⟨who, hwho.more hinfo htexts⟩
  told hx := by
    rcases htold hx with ⟨s, hs⟩ | hx
    · exact ⟨s.who, (h.session s hs).more hinfo htexts⟩
    · obtain ⟨who, hwho⟩ := h.told hx
      exact ⟨who, hwho.more hinfo htexts⟩

/-- A first frame that lets nobody in leads to refusals. -/
theorem Conn.Gated.refuse (h : x.Gated sv) {message : TextMessage} {pc : Pc}
    (hunread : ¬ (pc = .upgrading ∨ pc = .greeting))
    (hsession : pc.session = none) (htodo : ∀ m ∈ pc.todo, m.refusal = true) :
    Conn.Gated sv { x with texts := x.texts ++ [message], pc := pc } := by
  refine h.keep rfl rfl (fun hpc => absurd hpc hunread) ?_ (fun _ => .inl) ?_ .inr
  · intro s hs
    rw [hsession] at hs
    cases hs
  · intro m hm hrefusal
    refine List.mem_append_left _ ((List.mem_append.mp hm).resolve_right fun hm => ?_)
    rw [htodo m hm] at hrefusal
    cases hrefusal

/-- The first text frame. -/
theorem Conn.Gated.hello {message : TextMessage} {pc : Pc} (h : x.Gated sv)
    (hpc : x.pc = .greeting) (hgreeted : Greeted sv fresh x.info message pc effects) :
    Conn.Gated sv { x with texts := x.texts ++ [message], pc := pc } := by
  cases hgreeted with
  | malformed e =>
    refine h.refuse (fun hpc => by rcases hpc with hpc | hpc <;> cases hpc) rfl ?_
    simp [Pc.todo, Message.refusal]
  | failed id e =>
    refine h.refuse (fun hpc => by rcases hpc with hpc | hpc <;> cases hpc) rfl ?_
    simp [Pc.todo, Message.refusal]
  | admitted id who info hwho hfresh hclient horigin =>
    have hfirst : Conn.Admitted sv { x with texts := x.texts ++ [message] } who :=
      ⟨message, by rw [h.unread (.inr hpc)]; rfl, hwho⟩
    refine ⟨(fun hpc => by rcases hpc with hpc | hpc <;> cases hpc), ?_, ?_,
      fun _ _ _ => ⟨who, hfirst⟩, fun _ => ⟨who, hfirst⟩⟩
    · intro s hs
      obtain rfl := Option.some.inj hs
      exact hfirst
    · intro call hcall
      exact (h.dispatched call hcall).more rfl rfl

/-- What a session does with its connection. -/
theorem Conn.Gated.serve (h : x.Gated sv) {s s' : Session} {texts : List TextMessage}
    (hs : s ∈ x.pc.session) (hs' : x'.pc.session = some s') (hwho : s'.who = s.who)
    (htodo : x'.pc.todo = []) (hinfo : x'.info = x.info) (htexts : x'.texts = x.texts ++ texts)
    (hgreeted : x'.greeted = x.greeted)
    (hdispatched : ∀ call ∈ x'.dispatched, call ∈ x.dispatched ∨ s.who = call.1) :
    x'.Gated sv := by
  refine h.keep hinfo htexts ?_ ?_ ?_ ?_ fun _ => .inl ⟨s, hs⟩
  · intro hpc
    rcases hpc with hpc | hpc <;> rw [hpc] at hs' <;> cases hs'
  · intro t ht
    obtain rfl := Option.some.inj (hs'.symm.trans ht)
    exact ⟨s, hs, hwho.symm⟩
  · exact fun call hcall => (hdispatched call hcall).imp_right fun hwho => ⟨s, hs, hwho⟩
  · intro m hm _
    rw [htodo, List.append_nil, hgreeted] at hm
    exact List.mem_append_left _ hm

/-- **Every step keeps it.** -/
theorem Conn.Gated.turn (h : x.Gated sv) (hturn : Turn sv fresh x x' effects) : x'.Gated sv := by
  cases hturn with
  | stays => exact h
  | moves hmoves =>
    refine h.keep rfl (List.append_nil _).symm (fun hpc => h.unread (.inl (hmoves.unread hpc)))
      (fun s hs => ⟨s, hmoves.session s hs, rfl⟩) (fun _ => .inl) ?_ .inr
    intro m hm hrefusal
    rcases hmoves.todo with htodo | htodo <;> rw [htodo] at hm
    · exact hm
    · rw [List.append_nil] at hm
      exact List.mem_append_left _ hm
  | hello message hpc hgreeted => exact h.hello hpc hgreeted
  | @greets m pc hgreets hready =>
    obtain ⟨queue, henqueue, -⟩ := x.enqueue_eq m
    rw [henqueue]
    refine h.keep rfl (List.append_nil _).symm (fun hpc => absurd hpc hgreets.unread)
      (fun s hs => ⟨s, hgreets.session ▸ hs, rfl⟩) (fun _ => .inl) ?_ .inr
    intro n hn hrefusal
    rcases hgreets.todo with htodo | ⟨hm, -, htodo⟩
    · rw [htodo]
      exact List.append_cons _ _ _ ▸ hn
    · rcases List.mem_append.mp (htodo ▸ hn) with hn | hn
      · refine List.mem_append_left _ ((List.mem_append.mp hn).resolve_right fun hn => ?_)
        rw [List.mem_singleton.mp hn, hm] at hrefusal
        cases hrefusal
      · cases hn
  | @tells m pc htells hready =>
    obtain ⟨queue, henqueue, -⟩ := x.enqueue_eq m
    rw [henqueue]
    obtain ⟨s, hs, hs', htodo⟩ := htells.session
    exact h.serve hs hs' rfl htodo rfl (List.append_nil _).symm rfl fun _ => .inl
  | @offers s s' m hpc hoffers =>
    rcases x.offer_eq m with hoffer | hoffer <;> rw [hoffer] <;>
      exact h.serve (hpc ▸ rfl) rfl hoffers.who rfl rfl (List.append_nil _).symm rfl fun _ => .inl
  | @refuses s id e recent message limiter now hpc hhandle =>
    exact h.serve (s := s) (hpc ▸ rfl) rfl rfl rfl rfl rfl rfl fun _ => .inl
  | @binary s e now hpc =>
    exact h.serve (hpc ▸ rfl) rfl rfl rfl rfl (List.append_nil _).symm rfl fun _ => .inl
  | @dispatches s request recent message limiter now hpc hhandle =>
    refine h.serve (s := s) (hpc ▸ rfl) rfl rfl rfl rfl rfl rfl fun call hcall => ?_
    refine (List.mem_append.mp hcall).imp_right fun hcall => ?_
    rw [List.mem_singleton.mp hcall]
  | finishes result hcall hresult =>
    refine h.keep rfl (List.append_nil _).symm h.unread (fun s hs => ⟨s, hs, rfl⟩) (fun _ => .inl)
      (fun _ hm _ => hm) fun _ => .inr (.inr ?_)
    exact List.ne_nil_of_mem (List.mem_of_getElem? hcall)
  | @responds n call result hcall hresult hready =>
    obtain ⟨queue, henqueue, -⟩ := x.enqueue_eq (.response (some call.request.id) result)
    rw [henqueue]
    refine h.keep rfl (List.append_nil _).symm h.unread (fun s hs => ⟨s, hs, rfl⟩) (fun _ => .inl)
      (fun _ hm _ => hm) fun _ => .inr (.inr ?_)
    exact List.ne_nil_of_mem (List.mem_of_getElem? hcall)
  | writes ok hwriter hqueue => exact ⟨h.unread, h.session, h.dispatched, h.greeted, h.told⟩
  | runsDry hwriter hqueue hpc hcalls => exact ⟨h.unread, h.session, h.dispatched, h.greeted, h.told⟩
  | closed hwriter => exact ⟨h.unread, h.session, h.dispatched, h.greeted, h.told⟩

end Connection

end KilnPrint
