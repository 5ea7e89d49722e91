/-
What a client is told.

* `Conn.Answers` — **every frame of the loop is owed one response**, under its own id: it was sent,
  or it waits, or the request is in flight; and the requests in flight are at most so many;
* `Conn.Wire` — **what is on the wire**: what was sent, in order, with nothing after a close;
* `Conn.Answers.turn`, `Conn.Wire.turn` — every step keeps them.

The loop lets through what the guard against replayed frames lets through (`Conn.Guards`).
-/
import KilnPrint.Agent.Admission
import Mathlib.Algebra.Order.Group.Multiset
import Mathlib.Data.List.Perm.Basic
import Mathlib.Tactic.Abel

namespace KilnPrint

namespace Connection

open Replay (RequestEnvelope Recent TextFrame Guarding Outcome handleText session_append)

variable {δ : Type} [DecidableEq δ] {sv : Server δ} {fresh : SessionId} {x x' : Conn}
  {effects : List Effect}

/-- The id that a text frame is to be answered under. -/
def TextMessage.replyId (message : TextMessage) : Option String :=
  match message.request with
  | .ok request => some request.id
  | .error _ => message.rawId

/-- Up to the loop. -/
def Pc.early : Pc → Bool
  | upgrading | greeting | pausing .. | refusing _ | admitting .. | timedOut | inserting _
  | connected _ => true
  | _ => false

/-- The response that the session task has to send. -/
def Pc.owed : Pc → List (Option String)
  | answering m _ | parting m _ => m.replyTo.toList
  | _ => []

/-- The frames of the loop, by the ids they are to be answered under. -/
def Conn.asked (x : Conn) : Multiset (Option String) :=
  .ofList (x.texts.tail.map TextMessage.replyId) + .replicate x.binaries none

/-- The responses to them: those that were sent, those of the requests in flight, and the one that
waits. -/
def Conn.answered (x : Conn) : Multiset (Option String) :=
  .ofList (x.told.filterMap Message.replyTo) + .ofList (x.calls.map (some ·.request.id)) +
    .ofList x.pc.owed

/-- The guard against replayed frames has read what the loop has read. -/
def Conn.Guards (x : Conn) (frames : List TextFrame) : Prop :=
  (frames.map fun frame => ⟨frame.request, frame.rawId⟩) = x.texts.tail ∧
    (Replay.session frames).dispatched = x.dispatched.map (·.2.id) ∧
    ∀ s ∈ x.pc.session, s.recent = (Replay.session frames).recent

/-- Every frame of the loop is owed one response. -/
structure Conn.Answers (sv : Server δ) (x : Conn) : Prop where
  early : x.pc.early = true → x.told = [] ∧ x.calls = []
  owed : x.answered = x.asked
  limit : x.calls.length ≤ sv.maxInFlight
  guarded : ∃ frames, x.Guards frames

/-! ### The session task -/

theorem Moves.early {writer : Writer} {pc pc' : Pc} (h : Moves writer pc pc' effects)
    (hpc : pc'.early = true) : pc.early = true := by
  cases h with
  | timedOut htimed => cases pc <;> first | rfl | cases htimed
  | _ => first | rfl | cases hpc

theorem Moves.owed {writer : Writer} {pc pc' : Pc} (h : Moves writer pc pc' effects) :
    pc.owed = [] ∧ pc'.owed = [] := by
  cases h with
  | timedOut htimed =>
    cases pc with
    | answering | parting => cases htimed
    | _ => exact ⟨rfl, rfl⟩
  | _ => exact ⟨rfl, rfl⟩

theorem Greets.early {pc pc' : Pc} {m : Message} (h : Greets pc m pc') :
    pc.early = true ∧ pc.owed = [] ∧ pc'.owed = [] := by
  cases h <;> exact ⟨rfl, rfl, rfl⟩

theorem Tells.owed {pc pc' : Pc} {m : Message} (h : Tells pc m pc') :
    pc'.early = false ∧ pc.owed = m.replyTo.toList ∧ pc'.owed = [] := by
  cases h <;> exact ⟨rfl, rfl, rfl⟩

theorem Offers.recent {s s' : Session} {m : Message} (h : Offers s m s') :
    m.replyTo = none ∧ s'.recent = s.recent := by
  cases h <;> exact ⟨rfl, rfl⟩

theorem Greeted.owed {connection : ConnectionInfo} {message : TextMessage} {pc : Pc}
    (h : Greeted sv fresh connection message pc effects) :
    pc.early = true ∧ pc.owed = [] ∧ ∀ s ∈ pc.session, s.recent = {} := by
  cases h with
  | malformed e => exact ⟨rfl, rfl, fun _ hs => by cases hs⟩
  | failed id e => exact ⟨rfl, rfl, fun _ hs => by cases hs⟩
  | admitted id who info hwho hfresh hclient horigin =>
    refine ⟨rfl, rfl, fun s hs => ?_⟩
    obtain rfl := Option.some.inj hs
    rfl

/-! ### The frames of the loop -/

omit [DecidableEq δ] in
/-- A refusal answers the frame it refuses. -/
theorem replyId_of_refused {recent recent' : Recent} {message : TextMessage} {limiter : Bool}
    {id : Option String} {e : PrintError}
    (h : handleText recent (loopFrame sv x message limiter) = (recent', .refused id e)) :
    message.replyId = id := by
  unfold TextMessage.replyId
  unfold handleText loopFrame at h
  cases hrequest : message.request with
  | error _ =>
    simp only [hrequest] at h
    cases h
    rfl
  | ok request =>
    simp only [hrequest] at h
    split at h
    · cases h
      rfl
    · split_ifs at h <;> cases h <;> rfl

omit [DecidableEq δ] in
/-- A dispatched request is the frame's, and has a permit. -/
theorem of_dispatched {recent recent' : Recent} {message : TextMessage} {limiter : Bool}
    {request : RequestEnvelope}
    (h : handleText recent (loopFrame sv x message limiter) = (recent', .dispatched request)) :
    message.replyId = some request.id ∧ x.calls.length < sv.maxInFlight := by
  unfold TextMessage.replyId
  unfold handleText loopFrame at h
  cases hrequest : message.request with
  | error _ =>
    simp only [hrequest] at h
    cases h
  | ok request =>
    simp only [hrequest] at h
    split at h
    · cases h
    · split_ifs at h with hseen hlimiter hpermit
      · cases h
      · cases h
      · cases h
      · cases h
        exact ⟨rfl, by simpa using hpermit⟩

/-- The ids that a frame gets through. -/
def passed : Outcome → List String
  | .refused .. => []
  | .dispatched request => [request.id]

omit [DecidableEq δ] in
/-- The guard reads one more frame. -/
theorem Conn.Guards.frame {frames : List TextFrame} {s : Session} {recent : Recent}
    {message : TextMessage} {limiter : Bool} {outcome : Outcome} (h : x.Guards frames)
    (hs : s ∈ x.pc.session) (htexts : x.texts ≠ [])
    (hhandle : handleText s.recent (loopFrame sv x message limiter) = (recent, outcome))
    (htexts' : x'.texts = x.texts ++ [message])
    (hdispatched : x'.dispatched.map (·.2.id) = x.dispatched.map (·.2.id) ++ passed outcome)
    (hrecent : ∀ t ∈ x'.pc.session, t.recent = recent) :
    x'.Guards (frames ++ [loopFrame sv x message limiter]) := by
  obtain ⟨hframes, hpassed, hsession⟩ := h
  rw [hsession s hs] at hhandle
  refine ⟨?_, ?_, ?_⟩
  · rw [List.map_append, hframes, htexts', List.tail_append_of_ne_nil htexts]
    rfl
  · rw [session_append, hdispatched, ← hpassed]
    unfold Guarding.handle
    rw [hhandle]
    cases outcome <;> rfl
  · intro t ht
    rw [session_append, hrecent t ht]
    unfold Guarding.handle
    rw [hhandle]

/-! ### Every step -/

omit [DecidableEq δ] in
/-- What a step keeps that neither reads a frame of the loop nor answers one. -/
theorem Conn.Answers.keep (h : x.Answers sv) (hearly : x'.pc.early = true → x.pc.early = true)
    (htold : x'.told.filterMap Message.replyTo = x.told.filterMap Message.replyTo)
    (hquiet : x'.pc.early = true → x'.told = x.told)
    (hcalls : x'.calls = x.calls) (howed : x'.pc.owed = x.pc.owed)
    (htexts : x'.texts = x.texts) (hbinaries : x'.binaries = x.binaries)
    (hdispatched : x'.dispatched = x.dispatched)
    (hrecent : ∀ s ∈ x'.pc.session, ∃ t ∈ x.pc.session, s.recent = t.recent) : x'.Answers sv where
  early hpc := by
    rw [hquiet hpc, hcalls]
    exact h.early (hearly hpc)
  owed := by
    unfold answered asked
    rw [htold, hcalls, howed, htexts, hbinaries]
    exact h.owed
  limit := hcalls ▸ h.limit
  guarded := by
    obtain ⟨frames, hframes, hpassed, hsession⟩ := h.guarded
    refine ⟨frames, htexts ▸ hframes, hdispatched ▸ hpassed, fun s hs => ?_⟩
    obtain ⟨t, ht, heq⟩ := hrecent s hs
    exact heq.trans (hsession t ht)

/-- The first text frame. -/
theorem Conn.Answers.hello {message : TextMessage} {pc : Pc} (hg : x.Gated sv) (h : x.Answers sv)
    (hpc : x.pc = .greeting) (hgreeted : Greeted sv fresh x.info message pc effects) :
    Conn.Answers sv { x with texts := x.texts ++ [message], pc := pc } := by
  have hunread := hg.unread (.inr hpc)
  obtain ⟨hearly, howed, hrecent⟩ := hgreeted.owed
  obtain ⟨frames, hframes, hpassed, -⟩ := h.guarded
  have hnone : frames = [] := by
    rw [hunread] at hframes
    exact List.map_eq_nil_iff.mp hframes
  have hsum := h.owed
  unfold answered asked at hsum
  rw [hunread, hpc] at hsum
  refine ⟨fun _ => h.early (hpc ▸ rfl), ?_, h.limit, [], ?_, hnone ▸ hpassed, hrecent⟩
  · unfold answered asked
    show _ + _ + Multiset.ofList pc.owed = Multiset.ofList ((x.texts ++ [message]).tail.map _) + _
    rw [hunread, howed]
    exact hsum
  · show _ = (x.texts ++ [message]).tail
    rw [hunread]
    rfl

/-- A text frame of the loop is owed a response. -/
theorem Conn.asked_frame {message : TextMessage} (htexts : x.texts ≠ [])
    (htexts' : x'.texts = x.texts ++ [message]) (hbinaries : x'.binaries = x.binaries) :
    x'.asked = x.asked + {message.replyId} := by
  unfold asked
  rw [htexts', hbinaries, List.tail_append_of_ne_nil htexts, List.map_append, List.map_singleton,
    ← Multiset.coe_add, Multiset.coe_singleton]
  abel

/-- The session task has an answer to send. -/
theorem Conn.answered_waits {id : Option String} (howed : x.pc.owed = []) (htold : x'.told = x.told)
    (hcalls : x'.calls = x.calls) (howed' : x'.pc.owed = [id]) :
    x'.answered = x.answered + {id} := by
  unfold answered
  rw [htold, hcalls, howed, howed', Multiset.coe_nil, add_zero, Multiset.coe_singleton]

omit [DecidableEq δ] in
/-- A frame is read, and its answer is owed. -/
theorem Conn.Answers.frame (h : x.Answers sv) (id : Option String)
    (hasked : x'.asked = x.asked + {id}) (hanswered : x'.answered = x.answered + {id}) :
    x'.answered = x'.asked := by
  rw [hasked, hanswered, h.owed]

/-- A connection with a session has read a frame. -/
theorem Conn.Gated.read (h : x.Gated sv) {s : Session} (hs : s ∈ x.pc.session) : x.texts ≠ [] := by
  obtain ⟨message, hhead, -⟩ := h.session s hs
  rintro hnil
  rw [hnil] at hhead
  cases hhead

omit [DecidableEq δ] in
/-- An answer that was owed is sent. -/
theorem Conn.Answers.tell {m : Message} {pc : Pc} (h : x.Answers sv) (htells : Tells x.pc m pc)
    (queue : List Message) :
    Conn.Answers sv { x with queue := queue, told := x.told ++ [m], pc := pc } := by
  obtain ⟨hearly, howed, howed'⟩ := htells.owed
  obtain ⟨s, hs, hs', -⟩ := htells.session
  obtain ⟨frames, hframes, hpassed, hsession⟩ := h.guarded
  refine ⟨fun hpc => absurd hpc (by rw [hearly]; exact Bool.false_ne_true), ?_, h.limit, frames,
    hframes, hpassed, fun t ht => ?_⟩
  · have hsum := h.owed
    unfold answered at hsum ⊢
    have hlast : [m].filterMap Message.replyTo = m.replyTo.toList := by
      cases hreply : m.replyTo <;> simp [hreply]
    show Multiset.ofList ((x.told ++ [m]).filterMap _) + _ + Multiset.ofList pc.owed = x.asked
    rw [List.filterMap_append, hlast, howed', ← Multiset.coe_add, ← hsum, howed, Multiset.coe_nil]
    abel
  · obtain rfl := Option.some.inj (hs'.symm.trans ht)
    exact hsession s hs

omit [DecidableEq δ] in
/-- A request in flight is answered. -/
theorem Conn.Answers.respond {n : ℕ} {call : InFlight} {result : Except PrintError Value}
    (h : x.Answers sv) (hcall : x.calls[n]? = some call) (queue : List Message) :
    Conn.Answers sv
      { x with
        queue := queue
        told := x.told ++ [.response (some call.request.id) result]
        calls := x.calls.eraseIdx n } := by
  obtain ⟨hn, hget⟩ := List.getElem?_eq_some_iff.mp hcall
  refine ⟨fun hpc => ?_, ?_, (List.length_eraseIdx_le _ _).trans h.limit, h.guarded⟩
  · rw [(h.early hpc).2] at hn
    exact absurd hn (Nat.not_lt_zero n)
  · have hsum := h.owed
    unfold answered at hsum ⊢
    have hcalls : Multiset.ofList (x.calls.map (some ·.request.id)) =
        {some call.request.id} + Multiset.ofList ((x.calls.eraseIdx n).map (some ·.request.id)) := by
      rw [← hget, Multiset.singleton_add, Multiset.cons_coe, Multiset.coe_eq_coe]
      exact ((List.getElem_cons_eraseIdx_perm hn).map fun call => some call.request.id).symm
    show Multiset.ofList ((x.told ++ [_]).filterMap _) + _ + _ = x.asked
    rw [List.filterMap_append, ← Multiset.coe_add, ← hsum, hcalls]
    show _ + {some call.request.id} + _ + _ = _
    abel

/-- **Every step keeps it.** -/
theorem Conn.Answers.turn (hg : x.Gated sv) (h : x.Answers sv)
    (hturn : Turn sv fresh x x' effects) : x'.Answers sv := by
  cases hturn with
  | stays => exact h
  | moves hmoves =>
    have howed := hmoves.owed
    exact h.keep hmoves.early rfl (fun _ => rfl) rfl (howed.2.trans howed.1.symm) rfl rfl rfl
      fun s hs => ⟨s, hmoves.session s hs, rfl⟩
  | hello message hpc hgreeted => exact h.hello hg hpc hgreeted
  | @greets m pc hgreets hready =>
    obtain ⟨queue, henqueue, -⟩ := x.enqueue_eq m
    rw [henqueue]
    obtain ⟨hearly, howed, howed'⟩ := hgreets.early
    exact h.keep (fun _ => hearly) rfl (fun _ => rfl) rfl (howed'.trans howed.symm) rfl rfl rfl
      fun s hs => ⟨s, hgreets.session ▸ hs, rfl⟩
  | @tells m pc htells hready =>
    obtain ⟨queue, henqueue, -⟩ := x.enqueue_eq m
    rw [henqueue]
    exact h.tell htells queue
  | @offers s s' m hpc hoffers =>
    obtain ⟨hreply, hrecent⟩ := hoffers.recent
    have hkeep : ∀ t ∈ (Pc.serving s').session, ∃ u ∈ x.pc.session, t.recent = u.recent := by
      intro t ht
      obtain rfl := Option.some.inj ht
      exact ⟨s, hpc ▸ rfl, hrecent⟩
    rcases x.offer_eq m with hoffer | hoffer <;> rw [hoffer]
    · refine h.keep (fun hpc => by cases hpc) ?_ (fun hpc => by cases hpc) rfl (hpc ▸ rfl) rfl rfl
        rfl hkeep
      simp [hreply]
    · exact h.keep (fun hpc => by cases hpc) rfl (fun _ => rfl) rfl (hpc ▸ rfl) rfl rfl rfl hkeep
  | @refuses s id e recent message limiter now hpc hhandle =>
    have hs : s ∈ x.pc.session := hpc ▸ rfl
    have htexts := hg.read hs
    obtain ⟨frames, hframes⟩ := h.guarded
    refine ⟨(fun hpc => by cases hpc), ?_, h.limit, _,
      hframes.frame hs htexts hhandle rfl (List.append_nil _).symm ?_⟩
    · refine h.frame _ (Conn.asked_frame htexts rfl rfl) ?_
      rw [replyId_of_refused hhandle]
      exact Conn.answered_waits (hpc ▸ rfl) rfl rfl rfl
    · intro t ht
      obtain rfl := Option.some.inj ht
      rfl
  | @binary s e now hpc =>
    have hs : s ∈ x.pc.session := hpc ▸ rfl
    obtain ⟨frames, hframes, hpassed, hsession⟩ := h.guarded
    refine ⟨(fun hpc => by cases hpc), ?_, h.limit, frames, hframes, hpassed, ?_⟩
    · refine h.frame none ?_ ?_
      · unfold Conn.asked
        rw [Multiset.replicate_add, Multiset.replicate_one, add_assoc]
      · exact Conn.answered_waits (hpc ▸ rfl) rfl rfl rfl
    · intro t ht
      obtain rfl := Option.some.inj ht
      exact hsession _ hs
  | @dispatches s request recent message limiter now hpc hhandle =>
    have hs : s ∈ x.pc.session := hpc ▸ rfl
    have htexts := hg.read hs
    obtain ⟨frames, hframes⟩ := h.guarded
    obtain ⟨hreply, hroom⟩ := of_dispatched hhandle
    refine ⟨(fun hpc => by cases hpc), ?_, ?_, _,
      hframes.frame hs htexts hhandle rfl ?_ ?_⟩
    · refine h.frame _ (Conn.asked_frame htexts rfl rfl) ?_
      rw [hreply]
      unfold Conn.answered
      rw [hpc, List.map_append, ← Multiset.coe_add]
      show _ + (_ + {some request.id}) + 0 = _ + _ + 0 + {some request.id}
      abel
    · rw [List.length_append]
      exact hroom
    · rw [List.map_append]
      rfl
    · intro t ht
      obtain rfl := Option.some.inj ht
      rfl
  | @finishes n call result hcall hresult =>
    have hmap : (x.calls.set n { call with result := some result }).map (some ·.request.id) =
        x.calls.map (some ·.request.id) := by
      obtain ⟨hn, rfl⟩ := List.getElem?_eq_some_iff.mp hcall
      have hset := (x.calls.map (some ·.request.id)).set_getElem_self (i := n) (by simpa)
      rw [List.getElem_map] at hset
      rw [List.map_set]
      exact hset
    refine ⟨fun hpc => ?_, ?_, ?_, h.guarded⟩
    · rw [(h.early hpc).2] at hcall
      cases hcall
    · have hsum := h.owed
      unfold Conn.answered at hsum ⊢
      rw [hmap]
      exact hsum
    · rw [List.length_set]
      exact h.limit
  | @responds n call result hcall hresult hready =>
    obtain ⟨queue, henqueue, -⟩ := x.enqueue_eq (.response (some call.request.id) result)
    rw [henqueue]
    exact h.respond hcall queue
  | writes ok hwriter hqueue => exact ⟨h.early, h.owed, h.limit, h.guarded⟩
  | runsDry hwriter hqueue hpc hcalls => exact ⟨h.early, h.owed, h.limit, h.guarded⟩
  | closed hwriter => exact ⟨h.early, h.owed, h.limit, h.guarded⟩

/-! ### On the wire -/

/-- What a client sees. -/
structure Conn.Wire (x : Conn) : Prop where
  silent : x.pc = .upgrading ∨ x.pc = .greeting → x.greeted = []
  hello : ((x.greeted ++ x.pc.todo).filterMap Message.replyTo).length ≤ 1
  sent : (x.delivered ++ x.queue).Sublist (x.greeted ++ x.told)
  closing : x.writer = .writing → ∀ m ∈ x.delivered, m.isClose = false
  closed : ∀ m ∈ x.delivered.dropLast, m.isClose = false

theorem Greeted.one {connection : ConnectionInfo} {message : TextMessage} {pc : Pc}
    (h : Greeted sv fresh connection message pc effects) :
    (pc.todo.filterMap Message.replyTo).length ≤ 1 ∧ ¬ (pc = .upgrading ∨ pc = .greeting) := by
  cases h <;> exact ⟨le_refl 1, fun hpc => by rcases hpc with hpc | hpc <;> cases hpc⟩

/-- A message is sent after the others. -/
theorem Conn.Wire.sends {m : Message} {queue : List Message} (h : x.Wire)
    (hqueue : queue.Sublist (x.queue ++ [m])) :
    (x.delivered ++ queue).Sublist (x.greeted ++ (x.told ++ [m])) := by
  refine ((List.Sublist.refl _).append hqueue).trans ?_
  rw [← List.append_assoc, ← List.append_assoc]
  exact h.sent.append (.refl _)

/-- What is done without the handshake. -/
theorem Conn.Wire.goesOn (h : x.Wire) (hpc : ¬ (x'.pc = .upgrading ∨ x'.pc = .greeting))
    (htodo : x'.pc.todo = []) (hgreeted : x'.greeted = x.greeted)
    (hsent : (x'.delivered ++ x'.queue).Sublist (x'.greeted ++ x'.told))
    (hwriter : x'.writer = x.writer) (hdelivered : x'.delivered = x.delivered) : x'.Wire where
  silent hpc' := absurd hpc' hpc
  hello := by
    rw [htodo, List.append_nil, hgreeted]
    refine le_trans (List.Sublist.length_le ?_) h.hello
    exact (List.sublist_append_left _ _).filterMap _
  sent := hsent
  closing hwriting := hdelivered ▸ h.closing (hwriter ▸ hwriting)
  closed := hdelivered ▸ h.closed

/-- The writer takes a message. -/
theorem Conn.Wire.write {m : Message} {rest : List Message} (ok : Bool) (h : x.Wire)
    (hwriter : x.writer = .writing) (hqueue : x.queue = m :: rest) :
    Conn.Wire
      { x with
        queue := rest
        delivered := if ok then x.delivered ++ [m] else x.delivered
        writer := if ok && !m.isClose then .writing else .closing } := by
  have hsent := h.sent
  rw [hqueue] at hsent
  refine ⟨h.silent, h.hello, ?_, ?_, ?_⟩
  · cases ok with
    | true => exact List.append_cons _ _ _ ▸ hsent
    | false => exact (List.Sublist.append (.refl _) (List.sublist_cons_self _ _)).trans hsent
  · intro hwriting
    cases ok with
    | true =>
      cases hclose : m.isClose with
      | true =>
        rw [hclose] at hwriting
        cases hwriting
      | false =>
        intro n hn
        rcases List.mem_append.mp hn with hn | hn
        · exact h.closing hwriter n hn
        · rw [List.mem_singleton.mp hn, hclose]
    | false => cases hwriting
  · cases ok with
    | true =>
      show ∀ n ∈ (x.delivered ++ [m]).dropLast, n.isClose = false
      rw [List.dropLast_concat]
      exact h.closing hwriter
    | false => exact h.closed

/-- **Every step keeps it.** -/
theorem Conn.Wire.turn (ha : x.Answers sv) (h : x.Wire) (hturn : Turn sv fresh x x' effects) :
    x'.Wire := by
  cases hturn with
  | stays => exact h
  | moves hmoves =>
    refine ⟨fun hpc => h.silent (.inl (hmoves.unread hpc)), ?_, h.sent, h.closing, h.closed⟩
    rcases hmoves.todo with htodo | htodo <;> rw [htodo]
    · exact h.hello
    · refine le_trans (List.Sublist.length_le (List.Sublist.filterMap _ ?_)) h.hello
      exact (List.append_nil _).symm ▸ List.sublist_append_left _ _
  | hello message hpc hgreeted =>
    obtain ⟨hone, hread⟩ := hgreeted.one
    refine ⟨fun hpc => absurd hpc hread, ?_, h.sent, h.closing, h.closed⟩
    rw [h.silent (.inr hpc)]
    exact hone
  | @greets m pc hgreets hready =>
    obtain ⟨queue, henqueue, hqueue⟩ := x.enqueue_eq m
    rw [henqueue]
    have htold := (ha.early hgreets.early.1).1
    refine ⟨fun hpc => absurd hpc hgreets.unread, ?_, ?_, h.closing, h.closed⟩
    · have hhello := h.hello
      rcases hgreets.todo with htodo | ⟨-, hreply, htodo⟩
      · rw [htodo, List.append_cons] at hhello
        exact hhello
      · show ((x.greeted ++ [m] ++ pc.todo).filterMap Message.replyTo).length ≤ 1
        have hlast : [m].filterMap Message.replyTo = [] := by simp [hreply]
        rw [htodo, List.append_nil, List.filterMap_append, hlast, List.append_nil]
        refine le_trans (List.Sublist.length_le ?_) hhello
        exact (List.sublist_append_left _ _).filterMap _
    · have hsent := h.sends hqueue
      rw [htold, List.nil_append] at hsent
      rw [htold, List.append_nil]
      exact hsent
  | @tells m pc htells hready =>
    obtain ⟨queue, henqueue, hqueue⟩ := x.enqueue_eq m
    rw [henqueue]
    obtain ⟨s, -, hs', htodo⟩ := htells.session
    have hloop : ¬ (pc = .upgrading ∨ pc = .greeting) := by
      rintro (hpc | hpc) <;> rw [hpc] at hs' <;> cases hs'
    exact h.goesOn hloop htodo rfl (h.sends hqueue) rfl rfl
  | @offers s s' m hpc hoffers =>
    have hserving : ¬ (Pc.serving s' = .upgrading ∨ Pc.serving s' = .greeting) := by
      rintro (hpc | hpc) <;> cases hpc
    rcases x.offer_eq m with hoffer | hoffer <;> rw [hoffer]
    · exact h.goesOn hserving rfl rfl (h.sends (.refl _)) rfl rfl
    · exact h.goesOn hserving rfl rfl h.sent rfl rfl
  | refuses message limiter now hpc hhandle =>
    exact h.goesOn (fun hpc => by rcases hpc with hpc | hpc <;> cases hpc) rfl rfl h.sent rfl rfl
  | binary e now hpc =>
    exact h.goesOn (fun hpc => by rcases hpc with hpc | hpc <;> cases hpc) rfl rfl h.sent rfl rfl
  | dispatches message limiter now hpc hhandle =>
    exact h.goesOn (fun hpc => by rcases hpc with hpc | hpc <;> cases hpc) rfl rfl h.sent rfl rfl
  | finishes result hcall hresult => exact ⟨h.silent, h.hello, h.sent, h.closing, h.closed⟩
  | @responds n call result hcall hresult hready =>
    obtain ⟨queue, henqueue, hqueue⟩ := x.enqueue_eq (.response (some call.request.id) result)
    rw [henqueue]
    exact ⟨h.silent, h.hello, h.sends hqueue, h.closing, h.closed⟩
  | writes ok hwriter hqueue => exact h.write ok hwriter hqueue
  | runsDry hwriter hqueue hpc hcalls =>
    exact ⟨h.silent, h.hello, h.sent, fun hwriting => (by cases hwriting), h.closed⟩
  | closed hwriter =>
    refine ⟨h.silent, h.hello, ?_, fun hwriting => (by cases hwriting), h.closed⟩
    exact (List.Sublist.append (.refl _) (List.nil_sublist _)).trans h.sent

end Connection

end KilnPrint
