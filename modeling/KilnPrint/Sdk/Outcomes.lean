/-
What the SDK's client says about a print that failed.

A request that was sent and lost its socket is back in the queue, without a socket,
and the client takes it for one that never reached the agent.

* `Honest` — no request is rejected as not printed whose frame was sent;
* `Unforgotten` — no print is in the queue again when it is rejected;
* `outcomes_honest` — **in a run whose steps are `Unforgotten` outcomes are honest,
  and the first other step is a false one**;
* `forgotten` — a run with a false outcome.
-/
import KilnPrint.Sdk.Sockets

namespace KilnPrint

namespace Sdk

open Runs

variable {o : Options} {c c' : Client} {a : Action}

/-! ### Honest outcomes -/

/-- No request is rejected as not printed whose frame was passed to a socket. -/
def Honest (c : Client) : Prop :=
  ∀ p s, .rejected p (some .notPrinted) ∈ c.log → .sent p s ∉ c.log

/-- The print would be rejected as not printed, although it was sent. -/
def Client.Forgotten (c : Client) (p : RequestId) : Prop :=
  p ∈ c.queue ∧ (c.pending p).options.isPrint = true ∧ .requeued p ∈ c.log

/-- No print that `#onClose` has put back is still in the queue when its timer fires, or when all
requests are failed. -/
def Unforgotten (c : Client) : Action → Prop
  | .timeout p => ¬ c.Forgotten p
  | .resume _ =>
    match c.stack with
    | (_, .failAll) :: _ => ∀ p ∈ c.queue, ¬ c.Forgotten p
    | _ => True
  | _ => True

theorem settlements_pos {p : RequestId} {outcome : Option Outcome}
    (h : .rejected p outcome ∈ c.log) : c.settlements p ≠ 0 := by
  intro hzero
  have hnot := settlements_eq_zero.mp hzero _ h
  rw [Entry.settles, beq_self_eq_true] at hnot
  cases hnot

namespace Honest

theorem same (h : Honest c) (hr : SameRequests c c') : Honest c' := by
  intro p s hrejected hsent
  have hrequest : (Entry.rejected p (some .notPrinted)).request ≠ none := Option.some_ne_none p
  exact h p s ((hr.mem_log hrequest).mp hrejected) ((hr.mem_sent p s).mp hsent)

/-- Requests are settled. -/
theorem settles {new : List Entry} (h : Honest c) (hlog : c'.log = c.log ++ new)
    (hsent : ∀ p s, .sent p s ∉ new)
    (hnew : ∀ p, .rejected p (some .notPrinted) ∈ new → ∀ s, .sent p s ∉ c.log) : Honest c' := by
  intro p s hrejected hs
  rw [hlog, List.mem_append] at hrejected hs
  have hs : .sent p s ∈ c.log := hs.resolve_right (hsent p s)
  rcases hrejected with hrejected | hrejected
  · exact h p s hrejected hs
  · exact hnew p hrejected s hs

/-- A request in hand has not been rejected, and may be sent. -/
theorem send {p : RequestId} {hand : List RequestId} (hp : Placed (p :: hand) c) (h : Honest c) :
    Honest (c.send p) := by
  cases hws : c.ws with
  | none =>
    rw [Placed.send_none hws]
    exact h
  | some s =>
    rw [Placed.send_some hws]
    intro q s' hentry hsent
    have hrejected : .rejected q (some .notPrinted) ∈ c.log :=
      (List.mem_append.mp hentry).resolve_right fun hlast => by cases List.mem_singleton.mp hlast
    rcases List.mem_append.mp hsent with hsent | hsent
    · exact h q s' hrejected hsent
    · obtain ⟨rfl, -⟩ := Entry.sent.inj (List.mem_singleton.mp hsent)
      refine settlements_pos (c := c) hrejected ?_
      rw [hp.settlements, if_neg fun hn => hn.2 List.mem_cons_self]

theorem outcome_unknown (p : Pending) : p.outcome .unknown ≠ some .notPrinted := by
  unfold Pending.outcome
  split
  · exact fun h => by cases h
  · exact fun h => by cases h

/-- A request of a dead socket is not rejected as not printed. -/
theorem loseOne (h : Honest c) (s : SocketId) (e : ℕ × RequestId) : Honest (c.loseOne o s e) := by
  simp only [Client.loseOne]
  split
  · exact h
  · split
    · refine h.settles rfl (fun p s hmem => ?_) fun p hmem => ?_
      · cases List.mem_singleton.mp hmem
      · cases List.mem_singleton.mp hmem
    · refine h.settles rfl (fun p s hmem => ?_) fun p hmem => ?_
      · cases List.mem_singleton.mp hmem
      · have heq := Entry.rejected.inj (List.mem_singleton.mp hmem)
        exact absurd heq.2.symm (outcome_unknown _)

/-- A request with an honest place is not rejected as not printed if it was sent. -/
theorem of_verdict (hp : Placed [] c) {p : RequestId} (hmem : p ∈ c.unsettled)
    (hverdict : c.verdict p = some .notPrinted) (hok : ¬ c.Forgotten p) (s : SocketId) :
    .sent p s ∉ c.log := by
  intro hsent
  have hprint : (c.pending p).options.isPrint = true := by
    by_contra hnot
    rw [Client.verdict, Pending.outcome, if_neg hnot] at hverdict
    cases hverdict
  rcases List.mem_append.mp hmem with hqueue | hinFlight
  · exact hok ⟨hqueue, hprint, hp.resent p hqueue s hsent⟩
  · obtain ⟨e, he, rfl⟩ := List.mem_map.mp hinFlight
    obtain ⟨s', hsome, -⟩ := hp.attached e he
    rw [Client.verdict, hsome, Option.isSome_some, if_pos rfl] at hverdict
    exact outcome_unknown _ hverdict

/-- Every request is rejected. -/
theorem failAll (hp : Placed [] c) (h : Honest c) (hok : ∀ p ∈ c.queue, ¬ c.Forgotten p) :
    Honest c.failAll := by
  have hlog : c.failAll.log = c.log ++ c.unsettled.map fun p => .rejected p (c.verdict p) := rfl
  refine h.settles hlog (fun p s hmem => ?_) fun p hmem => ?_
  · obtain ⟨q, -, heq⟩ := List.mem_map.mp hmem
    cases heq
  · obtain ⟨q, hq, heq⟩ := List.mem_map.mp hmem
    obtain ⟨rfl, hverdict⟩ := Entry.rejected.inj heq
    exact of_verdict hp hq hverdict fun hforgotten => hok q hforgotten.1 hforgotten

/-- A new request. -/
theorem request (hp : Placed [] c) (h : Honest c) (options : RequestOptions) :
    Honest (c.request options) := by
  simp only [Client.request]
  split
  · refine h.settles rfl (fun p s hmem => ?_) fun p hmem => ?_
    · cases List.mem_singleton.mp hmem
    · obtain ⟨rfl, -⟩ := Entry.rejected.inj (List.mem_singleton.mp hmem)
      exact fun s hs => lt_irrefl _ (hp.sentLt _ s hs)
  · have hnew : Honest { c with
        nextRequest := c.nextRequest + 1
        pending := Function.update c.pending c.nextRequest ⟨options, none, true⟩ } := h
    split
    · exact send (hp.create options) hnew
    · exact h

/-- A method continues. -/
theorem resume (hp : Placed [] c) (h : Honest c) {constructed : Bool} (k : Frame)
    (hok : k = .failAll → ∀ p ∈ c.queue, ¬ c.Forgotten p) : Honest (c.resume o constructed k) := by
  cases k with
  | openSocket =>
    have hsame : SameRequests (c.openSocket o .connect constructed)
        { c.openSocket o .connect constructed with connecting := true } := .of_eq rfl rfl rfl rfl rfl
    exact h.same ((SameRequests.openSocket c o .connect constructed).trans hsame)
  | announce => exact h.same (.push _ _ _)
  | flush => exact (hp.flush (P := Honest) (fun _ _ _ => send) h).2
  | drop s =>
    have hloop := hp.drop (o := o) (s := s) (P := fun _ => Honest)
      (fun _ e _ _ _ h => h.loseOne s e) h
    simp only [Client.resume]
    split
    · exact hloop.2.same (.setState _ _ _)
    · exact hloop.2.same (.setState _ _ _)
  | attempt => exact h.same (.reconnectLoop _ o 0)
  | report => exact h.same (.push _ _ _)
  | failAll => exact h.failAll hp (hok rfl)

/-- An event arrives. -/
theorem event (hp : Placed [] c) (h : Honest c) (hok : Unforgotten c a)
    (hs : c.event o a = some c') : Honest c' := by
  rcases event_cases hs with hsame | ⟨e, he, ok, -, rfl⟩ | ⟨p, rfl, htimer, rfl⟩
  · exact h.same hsame
  · refine h.settles rfl (fun p s hmem => ?_) fun p hmem => ?_
    · cases List.mem_singleton.mp hmem
    · cases List.mem_singleton.mp hmem
  · refine h.settles rfl (fun q s hmem => ?_) fun q hmem => ?_
    · cases List.mem_singleton.mp hmem
    · obtain ⟨rfl, hverdict⟩ := Entry.rejected.inj (List.mem_singleton.mp hmem)
      exact of_verdict hp ((hp.timers q).mpr htimer) hverdict.symm hok

/-- **Every step that rejects no forgotten print keeps outcomes honest.** -/
theorem step (hp : Placed [] c) (h : Honest c) (hok : Unforgotten c a) (hs : step o c a = some c') :
    Honest c' := by
  rcases step_cases hs with ⟨-, rfl⟩ | ⟨-, rfl⟩ | ⟨options, -, rfl⟩ |
    ⟨b, k, rest, constructed, rfl, hstack, rfl⟩ | ⟨-, hs⟩
  · exact h.same (.connect c)
  · exact h.same (.disconnect c)
  · exact h.request hp options
  · have hrest : SameRequests c { c with stack := rest } := .of_eq rfl rfl rfl rfl rfl
    refine (h.same hrest).resume (hrest.placed hp) k fun hk => ?_
    subst hk
    have hqueue : ∀ p ∈ c.queue, ¬ c.Forgotten p := by simpa only [Unforgotten, hstack] using hok
    exact hqueue
  · exact event hp h hok hs

end Honest

theorem honest_of_reach (h : Reach (step o) Unforgotten init c) : Honest c :=
  h.invariant (fun _ _ hmem => absurd hmem List.not_mem_nil) fun _ _ _ hr hhonest hok hs =>
    hhonest.step (placed_of_reach hr) hok hs

/-! ### Forgotten prints -/

theorem not_honest_of_forgotten {p : RequestId} {entries : List Entry} (hp : Placed [] c)
    (h : c.Forgotten p) (hlog : c'.log = c.log ++ entries)
    (hrejected : .rejected p (c.verdict p) ∈ entries) : ¬ Honest c' := by
  obtain ⟨hqueue, hprint, hrequeued⟩ := h
  obtain ⟨s, hsent⟩ := hp.requeued p hrequeued
  have hverdict : c.verdict p = some .notPrinted := by
    rw [Client.verdict, hp.queued p hqueue, Pending.outcome, if_pos hprint]
    rfl
  rw [hverdict] at hrejected
  intro hhonest
  refine hhonest p s ?_ ?_
  · exact hlog ▸ List.mem_append_right _ hrejected
  · exact hlog ▸ List.mem_append_left _ hsent

/-- A step that rejects a forgotten print says that it was not printed. -/
theorem not_honest_of_step (hp : Placed [] c) (hbad : ¬ Unforgotten c a)
    (hs : step o c a = some c') : ¬ Honest c' := by
  rcases step_cases hs with ⟨rfl, -⟩ | ⟨rfl, -⟩ | ⟨options, rfl, -⟩ |
    ⟨b, k, rest, constructed, rfl, hstack, rfl⟩ | ⟨-, hs⟩
  · exact absurd trivial hbad
  · exact absurd trivial hbad
  · exact absurd trivial hbad
  · cases k with
    | failAll =>
      have hbad : ¬ ∀ p ∈ c.queue, ¬ c.Forgotten p := by simpa only [Unforgotten, hstack] using hbad
      push Not at hbad
      obtain ⟨p, hqueue, hforgotten⟩ := hbad
      exact not_honest_of_forgotten hp hforgotten rfl
        (List.mem_map_of_mem (List.mem_append_left _ hqueue))
    | openSocket | announce | flush | drop s | attempt | report =>
      refine absurd ?_ hbad
      simp only [Unforgotten, hstack]
  · cases happens_of_event hs with
    | timedOut =>
      exact not_honest_of_forgotten hp (not_not.mp hbad) rfl List.mem_cons_self
    | _ => exact absurd trivial hbad

/-- **Outcomes are honest.**  In a run in which no print that was put back in the queue is still
there when its timer fires or when all requests are failed, a request that is rejected as not
printed was never sent; and the first step of a run of which this is not so rejects a print as not
printed that was sent. -/
theorem outcomes_honest (o : Options) :
    (∀ c, Reach (step o) Unforgotten init c → Honest c) ∧
    ∀ c a c', Reach (step o) Unforgotten init c → step o c a = some c' → ¬ Unforgotten c a →
      ¬ Honest c' :=
  ⟨fun _ h => honest_of_reach h, fun _ _ _ h hs hbad => not_honest_of_step (placed_of_reach h) hbad hs⟩

instance (c : Client) (p : RequestId) : Decidable (c.Forgotten p) :=
  inferInstanceAs (Decidable (_ ∧ _ ∧ _))

instance (c : Client) (a : Action) : Decidable (Unforgotten c a) :=
  match a with
  | .timeout p => inferInstanceAs (Decidable (¬ c.Forgotten p))
  | .resume _ =>
    match hstack : c.stack with
    | (_, .failAll) :: _ =>
      decidable_of_iff (∀ p ∈ c.queue, ¬ c.Forgotten p) (by simp only [Unforgotten, hstack])
    | [] | (_, .openSocket) :: _ | (_, .announce) :: _ | (_, .flush) :: _ | (_, .drop _) :: _
    | (_, .attempt) :: _ | (_, .report) :: _ => isTrue (by simp only [Unforgotten, hstack])
  | .connect | .disconnect | .request _ | .token .. | .hello .. | .error _ | .close _ | .reply ..
  | .wake .. | .settled _ | .finished => isTrue trivial

/-- A print waits for the connection, and the application disconnects. -/
def unsent : List Action :=
  [.connect, .resume true, .request ⟨true, true⟩, .disconnect, .resume true]

theorem outcomes_honest_unsent :
    .rejected 0 (some .notPrinted) ∈ (pageAfter unsent).log ∧ Honest (pageAfter unsent) :=
  ⟨by decide +kernel,
    (outcomes_honest page).1 _ (reach_pageAfter Unforgotten unsent (by decide +kernel))⟩

/-- The socket of a print closes, and the print times out while the client reconnects. -/
def timingOut : List Action := losing ++ [.timeout 0]

/-- **A print that was sent is rejected as not printed.** -/
theorem forgotten : ¬ ∀ c, Reach (step page) (fun _ _ => True) init c → Honest c := by
  intro h
  have hreach := reach_pageAfter (fun _ _ => True) timingOut (by decide +kernel)
  have hrejected : .rejected 0 (some .notPrinted) ∈ (pageAfter timingOut).log := by decide +kernel
  have hsent : .sent 0 0 ∈ (pageAfter timingOut).log := by decide +kernel
  exact h _ hreach 0 0 hrejected hsent

end Sdk

end KilnPrint
