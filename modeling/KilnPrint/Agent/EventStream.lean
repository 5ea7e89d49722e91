/-
The event stream of a WebSocket session.

* `visibleEvent`, `visible` — what a principal may see of an engine event, and of a broadcast;
* `Stream`, `streamStep` — **the session**: the broadcast ring, the loop that numbers and
  sends, the outbound queue and the writer, each step by step;
* `take_of_seqs` — what is kept of numbered frames is what its numbers say;
* `Numbered`, `Numbered.step` — **the invariant**: until the first lag notice, what was
  numbered are the visible events in the order of the broadcast, and what is sent of it
  keeps its order;
* `events_complete` — **contiguous frames miss nothing**, in every session.

The sequence number is a 64-bit counter in the source; no session counts through it.
-/
import KilnPrint.Agent.Security
import KilnPrint.Engine.Change
import KilnPrint.Engine.Discovery
import KilnPrint.Lib.Runs
import Mathlib.Data.List.TakeWhile

namespace KilnPrint

namespace EventStream

/-! ### Engine events -/

inductive BroadcastEvent
  | job (kind : JobEventKind) (job : Job)
  | printer (kind : Discovery.PrinterEventKind) (printer : Printer)

/-- Wire event name. -/
def BroadcastEvent.name : BroadcastEvent → String
  | .job .created _ => "job.created"
  | .job .queued _ => "job.queued"
  | .job .spooled _ => "job.spooled"
  | .job .printing _ => "job.printing"
  | .job .updated _ => "job.updated"
  | .job .completed _ => "job.completed"
  | .job .failed _ => "job.failed"
  | .job .cancelled _ => "job.cancelled"
  | .printer .connected _ => "printer.connected"
  | .printer .disconnected _ => "printer.disconnected"
  | .printer .statusChanged _ => "printer.status.changed"

theorem BroadcastEvent.name_ne_lagged (event : BroadcastEvent) :
    event.name ≠ "session.lagged" := by
  rcases event with ⟨kind, _⟩ | ⟨kind, _⟩ <;> cases kind <;> simp [name]

/-- The `data` of an event frame. -/
inductive EventData
  | job (job : Job)
  | printer (printer : Printer)
  | missedEvents (missed : ℕ)
  deriving DecidableEq

variable (who : Principal)

/-- Event payload if the principal may see it. -/
def visibleEvent : BroadcastEvent → Option EventData
  | .job _ job =>
    if who.has .jobsReadAll || (who.has .jobsRead && job.clientId == who.clientId) then
      some (.job job)
    else none
  | .printer _ printer =>
    if who.has .printersRead && who.printerScope.allows printer then some (.printer printer)
    else none

/-- The visible events of a broadcast, in order, each as its name and data. -/
def visible (events : List BroadcastEvent) : List (String × EventData) :=
  events.filterMap fun event => (visibleEvent who event).map fun data => (event.name, data)

/-! ### A session -/

structure EventFrame where
  name : String
  seq : ℕ
  data : EventData

/-- A WebSocket message of the agent. -/
inductive Frame
  | event (frame : EventFrame)
  | response (text : String)
  | ping
  | close (code : ℕ)

def Frame.event? : Frame → Option EventFrame
  | event frame => some frame
  | _ => none

/-- Whether the writer ends after the frame. -/
def Frame.isClose : Frame → Bool
  | close _ => true
  | _ => false

/-- The engine's broadcast ring. -/
def ringCapacity : ℕ := 1024

def outboundCapacity : ℕ := 256

structure Stream where
  /-- The events broadcast since the session subscribed. -/
  sent : List BroadcastEvent := []
  /-- How many of them its receiver is past. -/
  cursor : ℕ := 0
  seq : ℕ := 0
  /-- The outbound queue. -/
  queue : List Frame := []
  delivered : List Frame := []
  /-- The loop runs. -/
  running : Bool := true
  /-- The writer runs, and the queue has a receiver. -/
  writing : Bool := true
  /-- Every event frame made so far, sent or dropped. -/
  numbered : List EventFrame := []

inductive StreamAction
  /-- The engine broadcasts an event. -/
  | broadcast (event : BroadcastEvent)
  /-- The loop takes what its receiver has. -/
  | receive
  /-- A response enters the queue, when it has room. -/
  | respond (text : String)
  /-- The heartbeat pings, unless the queue is full. -/
  | ping
  /-- The loop closes the session, when the queue has room. -/
  | close (code : ℕ)
  /-- The connection is gone. -/
  | leave
  /-- The writer sends the next frame, or fails to. -/
  | write (sent : Bool)

/-- `try_send`: the frame is dropped where the queue is full or has no receiver. -/
def Stream.trySend (s : Stream) (frame : Frame) : Stream :=
  if s.writing && s.queue.length < outboundCapacity then { s with queue := s.queue ++ [frame] }
  else s

/-- `Outbound::event`, with the next number. -/
def Stream.event (s : Stream) (name : String) (data : EventData) : Stream :=
  let frame : EventFrame := ⟨name, s.seq + 1, data⟩
  { s with seq := s.seq + 1, numbered := s.numbered ++ [frame] }.trySend (.event frame)

/-- What the loop does with what its receiver has. -/
def Stream.receive (s : Stream) : Option Stream :=
  if s.cursor + ringCapacity < s.sent.length then
    let missed := s.sent.length - ringCapacity - s.cursor
    some ({ s with cursor := s.cursor + missed }.event "session.lagged" (.missedEvents missed))
  else
    (s.sent[s.cursor]?).map fun event =>
      let s := { s with cursor := s.cursor + 1 }
      match visibleEvent who event with
      | some data => s.event event.name data
      | none => s

def streamStep (s : Stream) : StreamAction → Option Stream
  | .broadcast event => some { s with sent := s.sent ++ [event] }
  | .receive => if s.running then s.receive who else none
  -- a response waits for room in the queue, an event does not
  | .respond text =>
    if s.writing && s.queue.length < outboundCapacity then
      some { s with queue := s.queue ++ [.response text] }
    else none
  | .ping => if s.running then some (s.trySend .ping) else none
  | .close code =>
    if s.running && s.writing && s.queue.length < outboundCapacity then
      some { s with queue := s.queue ++ [.close code], running := false }
    else none
  | .leave => some { s with running := false }
  | .write sent =>
    match s.writing, s.queue with
    | true, frame :: rest =>
      -- after a close frame the writer stops, as it does when the peer is gone
      if sent then
        some { s with
          queue := if frame.isClose then [] else rest
          delivered := s.delivered ++ [frame]
          writing := !frame.isClose }
      else some { s with queue := [], writing := false }
    | _, _ => none

/-- The event frames the client has received. -/
def Stream.received (s : Stream) : List EventFrame := s.delivered.filterMap Frame.event?

/-! ### Lists of numbered frames -/

/-- A frame is no lag notice. -/
def EventFrame.calm (frame : EventFrame) : Bool := frame.name != "session.lagged"

def EventFrame.content (frame : EventFrame) : String × EventData := (frame.name, frame.data)

/-- What is kept of numbered frames is what its numbers say. -/
theorem take_of_seqs {l d : List EventFrame} (h : d.Sublist l) :
    ∀ {k m n : ℕ}, l.map EventFrame.seq = List.range' k m → d.map EventFrame.seq = List.range' k n →
      d = l.take n := by
  induction h with
  | slnil =>
    intro k m n _ hd
    simp
  | @cons d l frame hsub ih =>
    intro k m n hl hd
    cases n with
    | zero =>
      rw [List.range'_zero, List.map_eq_nil_iff] at hd
      rw [hd, List.take_zero]
    | succ n =>
      -- the first number is that of a frame that was left out
      cases m with
      | zero => simp at hl
      | succ m =>
        rw [List.range'_succ, List.map_cons, List.cons.injEq] at hl
        have hk : k ∈ d.map EventFrame.seq := by
          rw [hd]
          simp
        have hlater := List.mem_range'_1.mp (hl.2 ▸ (hsub.map EventFrame.seq).subset hk)
        omega
  | @cons_cons d l frame hsub ih =>
    intro k m n hl hd
    cases n with
    | zero => simp at hd
    | succ n =>
      cases m with
      | zero => simp at hl
      | succ m =>
        rw [List.range'_succ, List.map_cons, List.cons.injEq] at hl hd
        rw [List.take_succ_cons, ih hl.2 hd.2]

theorem take_takeWhile {l : List EventFrame} {n : ℕ} (h : ∀ frame ∈ l.take n, frame.calm = true) :
    l.take n = (l.takeWhile EventFrame.calm).take n := by
  induction l generalizing n with
  | nil => simp
  | cons frame rest ih =>
    cases n with
    | zero => simp
    | succ n =>
      rw [List.take_succ_cons] at h ⊢
      rw [List.takeWhile_cons_of_pos (h frame List.mem_cons_self), List.take_succ_cons]
      rw [← ih fun f hf => h f (List.mem_cons_of_mem _ hf)]

/-- A frame after a lag notice is no part of what came before it. -/
theorem takeWhile_append {l : List EventFrame} (frame : EventFrame) :
    ((∀ f ∈ l, f.calm = true) ∧
        (l ++ [frame]).takeWhile EventFrame.calm = l ++ if frame.calm then [frame] else []) ∨
      ((∃ f ∈ l, f.calm = false) ∧
        (l ++ [frame]).takeWhile EventFrame.calm = l.takeWhile EventFrame.calm) := by
  induction l with
  | nil =>
    left
    refine ⟨fun f hf => absurd hf List.not_mem_nil, ?_⟩
    rw [List.nil_append, List.nil_append, List.takeWhile_cons]
    split <;> rfl
  | cons first rest ih =>
    cases hfirst : first.calm with
    | false =>
      right
      refine ⟨⟨first, List.mem_cons_self, hfirst⟩, ?_⟩
      have hstop : ¬ first.calm = true := by rw [hfirst]; exact Bool.false_ne_true
      rw [List.cons_append, List.takeWhile_cons_of_neg hstop, List.takeWhile_cons_of_neg hstop]
    | true =>
      rw [List.cons_append, List.takeWhile_cons_of_pos hfirst, List.takeWhile_cons_of_pos hfirst]
      rcases ih with ⟨hall, heq⟩ | ⟨⟨f, hf, hlag⟩, heq⟩
      · left
        refine ⟨?_, by rw [heq, List.cons_append]⟩
        intro f hf
        rcases List.mem_cons.mp hf with rfl | hf
        · exact hfirst
        · exact hall f hf
      · exact .inr ⟨⟨f, List.mem_cons_of_mem _ hf, hlag⟩, by rw [heq]⟩

/-! ### The invariant -/

variable {who} {s s' : Stream} {a : StreamAction}

/-- Until the first lag notice, what was numbered are the visible events, in order; and what
was sent of it, and delivered, keeps its order. -/
structure Numbered (who : Principal) (s : Stream) : Prop where
  seqs : s.numbered.map EventFrame.seq = List.range' 1 s.seq
  kept : ((s.delivered ++ s.queue).filterMap Frame.event?).Sublist s.numbered
  cursor : s.cursor ≤ s.sent.length
  calm : ∃ c ≤ s.sent.length,
    (s.numbered.takeWhile EventFrame.calm).map EventFrame.content = visible who (s.sent.take c) ∧
      ((∀ frame ∈ s.numbered, frame.calm = true) → c = s.cursor)

theorem visible_take_succ (who : Principal) {events : List BroadcastEvent} {c : ℕ} {event : BroadcastEvent}
    (h : events[c]? = some event) :
    visible who (events.take (c + 1)) = visible who (events.take c) ++
      ((visibleEvent who event).map fun data => (event.name, data)).toList := by
  rw [List.take_add_one, h]
  cases hvisible : visibleEvent who event <;> simp [visible, hvisible]

namespace Numbered

theorem started : Numbered who {} where
  seqs := rfl
  kept := List.Sublist.refl _
  cursor := le_refl _
  calm := ⟨0, le_refl _, rfl, fun _ => rfl⟩

/-- A step that neither numbers nor receives. -/
theorem frame (h : Numbered who s) (hseq : s'.seq = s.seq) (hnumbered : s'.numbered = s.numbered)
    (hsent : ∃ more, s'.sent = s.sent ++ more) (hcursor : s'.cursor = s.cursor)
    (hkept : ((s'.delivered ++ s'.queue).filterMap Frame.event?).Sublist
      ((s.delivered ++ s.queue).filterMap Frame.event?)) : Numbered who s' := by
  obtain ⟨more, hsent⟩ := hsent
  have hlength : s.sent.length ≤ s'.sent.length := by
    rw [hsent, List.length_append]
    omega
  refine ⟨by rw [hseq, hnumbered, h.seqs], hnumbered ▸ hkept.trans h.kept,
    hcursor ▸ h.cursor.trans hlength, ?_⟩
  obtain ⟨c, hc, heq, hall⟩ := h.calm
  refine ⟨c, hc.trans hlength, ?_, ?_⟩
  · rw [hnumbered, heq, hsent, List.take_append_of_le_length hc]
  · rw [hnumbered, hcursor]
    exact hall

/-- A frame that is numbered. -/
theorem event {name : String} {data : EventData} {c : ℕ}
    (hseqs : s.numbered.map EventFrame.seq = List.range' 1 s.seq)
    (hkept : ((s.delivered ++ s.queue).filterMap Frame.event?).Sublist s.numbered)
    (hcursor : s.cursor ≤ s.sent.length) (hc : c ≤ s.sent.length)
    (hcalm : ((s.numbered ++ [(⟨name, s.seq + 1, data⟩ : EventFrame)]).takeWhile EventFrame.calm).map
      EventFrame.content = visible who (s.sent.take c))
    (hall : (∀ frame ∈ s.numbered ++ [(⟨name, s.seq + 1, data⟩ : EventFrame)], frame.calm = true) →
      c = s.cursor) : Numbered who (s.event name data) := by
  dsimp only [Stream.event, Stream.trySend]
  have hnew : (s.numbered ++ [(⟨name, s.seq + 1, data⟩ : EventFrame)]).map EventFrame.seq =
      List.range' 1 (s.seq + 1) := by
    rw [List.map_append, hseqs, List.range'_1_concat, Nat.add_comm 1 s.seq]
    rfl
  split
  · refine ⟨hnew, ?_, hcursor, c, hc, hcalm, hall⟩
    show ((s.delivered ++ (s.queue ++ [_])).filterMap Frame.event?).Sublist _
    rw [← List.append_assoc, List.filterMap_append]
    exact hkept.append (List.Sublist.refl _)
  · exact ⟨hnew, hkept.trans (List.sublist_append_left _ _), hcursor, c, hc, hcalm, hall⟩

/-- The loop takes what its receiver has. -/
theorem receive (h : Numbered who s) (hs : s.receive who = some s') : Numbered who s' := by
  obtain ⟨c, hc, heq, hall⟩ := h.calm
  unfold Stream.receive at hs
  split at hs
  · next hlagged =>
    obtain rfl := Option.some.inj hs
    refine event h.seqs h.kept ?_ hc ?_ ?_
    · show s.cursor + (s.sent.length - ringCapacity - s.cursor) ≤ s.sent.length
      omega
    · -- the notice ends the calm
      rcases takeWhile_append (l := s.numbered)
        ⟨"session.lagged", s.seq + 1, .missedEvents (s.sent.length - ringCapacity - s.cursor)⟩ with
        ⟨hcalm, htake⟩ | ⟨-, htake⟩
      · rw [← heq, List.takeWhile_eq_self_iff.mpr hcalm]
        show List.map _ ((s.numbered ++ [_]).takeWhile _) = _
        rw [htake]
        simp [EventFrame.calm]
      · rw [← heq]
        exact congrArg _ htake
    · intro hcalm
      have hlag := hcalm _ (List.mem_append_right _ (List.mem_singleton.mpr rfl))
      simp [EventFrame.calm] at hlag
  · obtain ⟨ev, hev, hs⟩ := Option.map_eq_some_iff.mp hs
    have hlt : s.cursor < s.sent.length := (List.getElem?_eq_some_iff.mp hev).1
    have hsucc := visible_take_succ who hev
    cases hvisible : visibleEvent who ev with
    | none =>
      rw [hvisible] at hs hsucc
      obtain rfl := hs
      rw [Option.map_none, Option.toList_none, List.append_nil] at hsucc
      by_cases hcalm : ∀ frame ∈ s.numbered, frame.calm = true
      · obtain rfl := hall hcalm
        exact ⟨h.seqs, h.kept, hlt, s.cursor + 1, hlt, by rw [hsucc, ← heq], fun _ => rfl⟩
      · exact ⟨h.seqs, h.kept, hlt, c, hc, heq, fun hcalm' => absurd hcalm' hcalm⟩
    | some data =>
      rw [hvisible] at hs hsucc
      obtain rfl := hs
      rw [Option.map_some, Option.toList_some] at hsucc
      have hframe : EventFrame.calm ⟨ev.name, s.seq + 1, data⟩ = true := by
        simp [EventFrame.calm, ev.name_ne_lagged]
      rcases takeWhile_append (l := s.numbered) ⟨ev.name, s.seq + 1, data⟩ with
        ⟨hcalm, htake⟩ | ⟨⟨frame, hmem, hlag⟩, htake⟩
      · obtain rfl := hall hcalm
        refine event h.seqs h.kept hlt hlt ?_ fun _ => rfl
        -- nothing was missed so far: the frame is the next visible event
        rw [htake, if_pos hframe, List.map_append, hsucc, ← heq,
          List.takeWhile_eq_self_iff.mpr hcalm]
        rfl
      · refine event h.seqs h.kept hlt hc (by rw [htake, heq]) ?_
        intro hcalm
        have := hcalm frame (List.mem_append_left _ hmem)
        simp [hlag] at this

/-- A frame that is no event enters the queue. -/
theorem enqueued {f : Frame} (hf : f.event? = none) :
    ((s.delivered ++ (s.queue ++ [f])).filterMap Frame.event?).Sublist
      ((s.delivered ++ s.queue).filterMap Frame.event?) := by
  rw [← List.append_assoc, List.filterMap_append, List.filterMap_cons_none hf]
  simp

/-- The writer sends the head of the queue, and the rest only while it runs. -/
theorem written {f : Frame} {rest kept : List Frame} (hqueue : s.queue = f :: rest)
    (hkept : kept.Sublist rest) :
    ((s.delivered ++ [f] ++ kept).filterMap Frame.event?).Sublist
      ((s.delivered ++ s.queue).filterMap Frame.event?) := by
  rw [hqueue, List.append_assoc, List.singleton_append]
  exact ((hkept.cons_cons f).append_left _).filterMap _

/-- **Each step keeps what was numbered.** -/
theorem step (h : Numbered who s) (hs : streamStep who s a = some s') : Numbered who s' := by
  cases a with
  | broadcast event =>
    obtain rfl := Option.some.inj hs
    exact h.frame rfl rfl ⟨[event], rfl⟩ rfl (List.Sublist.refl _)
  | receive =>
    simp only [streamStep] at hs
    split at hs
    · exact h.receive hs
    · cases hs
  | respond text =>
    simp only [streamStep] at hs
    split at hs
    · obtain rfl := Option.some.inj hs
      exact h.frame rfl rfl ⟨[], (List.append_nil _).symm⟩ rfl (enqueued (s := s) rfl)
    · cases hs
  | ping =>
    simp only [streamStep] at hs
    split at hs
    · obtain rfl := Option.some.inj hs
      unfold Stream.trySend
      split
      · exact h.frame rfl rfl ⟨[], (List.append_nil _).symm⟩ rfl (enqueued (s := s) rfl)
      · exact h
    · cases hs
  | close code =>
    simp only [streamStep] at hs
    split at hs
    · obtain rfl := Option.some.inj hs
      exact h.frame rfl rfl ⟨[], (List.append_nil _).symm⟩ rfl (enqueued (s := s) rfl)
    · cases hs
  | leave =>
    obtain rfl := Option.some.inj hs
    exact h.frame rfl rfl ⟨[], (List.append_nil _).symm⟩ rfl (List.Sublist.refl _)
  | write sent =>
    simp only [streamStep] at hs
    split at hs
    · next frame rest hwriting hqueue =>
      split at hs
      · obtain rfl := Option.some.inj hs
        refine h.frame rfl rfl ⟨[], (List.append_nil _).symm⟩ rfl (written hqueue ?_)
        split
        · exact List.nil_sublist _
        · exact List.Sublist.refl _
      · -- a frame that could not be sent takes the whole queue with it
        obtain rfl := Option.some.inj hs
        refine h.frame rfl rfl ⟨[], (List.append_nil _).symm⟩ rfl ?_
        exact ((List.nil_sublist _).append_left _).filterMap _
    · cases hs

end Numbered

/-! ### Every session -/

theorem numbered_reach (h : Runs.Reach (streamStep who) (fun _ _ => True) {} s) :
    Numbered who s :=
  h.invariant Numbered.started fun _ _ _ _ hI _ hs => hI.step hs

theorem visible_take (who : Principal) (events : List BroadcastEvent) (c : ℕ) :
    visible who (events.take c) <+: visible who events :=
  (List.take_prefix c events).filterMap _

/-- **Contiguous frames miss nothing.**  Where the client has received the numbers from one to
`n`, and no lag notice, it has received the first `n` visible events broadcast since it
subscribed, in order. -/
theorem events_complete (h : Runs.Reach (streamStep who) (fun _ _ => True) {} s) {n : ℕ}
    (hseq : s.received.map EventFrame.seq = List.range' 1 n)
    (hcalm : ∀ frame ∈ s.received, frame.calm = true) :
    s.received.map EventFrame.content = (visible who s.sent).take n := by
  have hN := numbered_reach h
  have hsub : s.received.Sublist s.numbered :=
    ((List.sublist_append_left _ _).filterMap _).trans hN.kept
  have htake := take_of_seqs hsub hN.seqs hseq
  have hlength : s.received.length = n := by
    simpa using congrArg List.length hseq
  obtain ⟨c, -, heq, -⟩ := hN.calm
  have hfirst : s.received.map EventFrame.content = (visible who (s.sent.take c)).take n := by
    rw [htake] at hcalm ⊢
    rw [take_takeWhile hcalm, List.map_take, heq]
  -- what was numbered by then is long enough for all that was received
  have hlong : n ≤ (visible who (s.sent.take c)).length := by
    have := congrArg List.length hfirst
    rw [List.length_map, hlength, List.length_take] at this
    omega
  rw [hfirst]
  obtain ⟨more, hmore⟩ := visible_take who s.sent c
  rw [← hmore, List.take_append_of_le_length hlong]

/-- A client that reads its own jobs. -/
def reader : Principal := ⟨"client", [.jobsRead], ["*"]⟩

def ownEvent (jobId : JobId) : BroadcastEvent := .job .created (.new jobId "client" .text 1 0 0)

def otherEvent : BroadcastEvent := .job .created (.new 2 "other" .text 1 0 0)

/-- Two events are received; then the queue fills up, and a third one finds no room. -/
def readerRun : List StreamAction :=
  [.broadcast (ownEvent 1), .broadcast otherEvent, .broadcast (ownEvent 3), .receive, .receive,
    .receive, .write true, .write true] ++ List.replicate outboundCapacity .ping ++
    [.broadcast (ownEvent 4), .receive]

theorem events_complete_reader :
    ∃ s, Runs.runFrom (streamStep reader) {} readerRun = some s ∧
      s.numbered.map EventFrame.seq = [1, 2, 3] ∧
      s.received.map EventFrame.content = [("job.created", .job (.new 1 "client" .text 1 0 0)),
        ("job.created", .job (.new 3 "client" .text 1 0 0))] := by
  -- what is seen of the end of the run
  have hseen : (Runs.checked (streamStep reader) (fun _ _ => true) {} readerRun).map (fun s =>
      (s.numbered.map EventFrame.seq, s.received.map EventFrame.seq, s.received.all EventFrame.calm,
        (visible reader s.sent).take 2)) =
      some ([1, 2, 3], [1, 2], true, [("job.created", .job (.new 1 "client" .text 1 0 0)),
        ("job.created", .job (.new 3 "client" .text 1 0 0))]) := by decide +kernel
  obtain ⟨s, hs, hseen⟩ := Option.map_eq_some_iff.mp hseen
  simp only [Prod.mk.injEq] at hseen
  obtain ⟨hnumbered, hseqs, hcalm, hvisible⟩ := hseen
  refine ⟨s, Runs.runFrom_of_checked hs, hnumbered, ?_⟩
  rw [← hvisible]
  exact events_complete (Runs.reach_of_checked (fun _ _ _ => trivial) hs) hseqs
    (List.all_eq_true.mp hcalm)

end EventStream

end KilnPrint
