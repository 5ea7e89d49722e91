/-
Text frames of a WebSocket session, and the guard against replayed ones.

* `RequestEnvelope`, `checkEnvelope` — a request, and the checks of its envelope;
* `Recent` — the ids a session remembers: a set and the queue they are evicted by;
* `handleText` — **what becomes of a text frame**: it is refused, or dispatched to the
  service;
* `Recent.Window`, `window_of_session` — **the set and the queue stay in step**: the session
  remembers the last 512 ids it recorded;
* `replay_guarded` — **exactly when no id is dispatched twice**;
* `replayed` — after 512 further ids an id is dispatched again.
-/
import KilnPrint.Model.Error
import Mathlib.Data.Finset.Basic

namespace KilnPrint

namespace Replay

structure RequestEnvelope where
  protocolVersion : Option ℕ
  kind : Option String
  id : String
  method : String
  params : Value

def supportedProtocolVersions : List ℕ := [1]

def checkEnvelope (request : RequestEnvelope) : Except PrintError Unit :=
  if request.id.isEmpty || 128 < request.id.utf8ByteSize then
    .error (.invalidPayload "id must be 1-128 characters")
  else if request.kind.any (· ≠ "request") then
    .error (.invalidPayload "type must be \"request\"")
  else
    match request.protocolVersion with
    | some v =>
      if v ∈ supportedProtocolVersions then .ok ()
      else .error (.new .unsupportedProtocolVersion s!"protocol version {v} is not supported")
    | none => .ok ()

def recentRequestIds : ℕ := 512

/-- The ids a session remembers, and the order they are forgotten in. -/
structure Recent where
  seen : Finset String := ∅
  order : List String := []

/-- Remembers an id, and forgets the oldest one if there are too many. -/
def Recent.record (recent : Recent) (id : String) : Recent :=
  let seen := insert id recent.seen
  let order := recent.order ++ [id]
  if recentRequestIds < order.length then
    match order with
    | old :: rest => ⟨seen.erase old, rest⟩
    | [] => ⟨seen, []⟩
  else ⟨seen, order⟩

/-- A text frame, what the JSON decoder makes of it, and what the rate limiter and the
limit of requests in flight answer when they are asked. -/
structure TextFrame where
  request : Except String RequestEnvelope
  /-- The `id` of a message that is no request. -/
  rawId : Option String
  limiter : Bool
  permit : Bool

/-- What becomes of a frame. -/
inductive Outcome
  | refused (id : Option String) (error : PrintError)
  | dispatched (request : RequestEnvelope)

def handleText (recent : Recent) (frame : TextFrame) : Recent × Outcome :=
  match frame.request with
  -- an id is remembered only where the envelope is sound
  | .error e =>
    (recent, .refused frame.rawId (.invalidPayload s!"malformed message: {e}"))
  | .ok request =>
    match checkEnvelope request with
    | .error e => (recent, .refused (some request.id) e)
    | .ok () =>
      if request.id ∈ recent.seen then
        (recent, .refused (some request.id) (.invalidPayload "duplicate request id"))
      else
        -- remembered before the limiter, so that a refused id is used up
        let recent := recent.record request.id
        if !frame.limiter then
          (recent, .refused (some request.id)
            (.new .rateLimited "too many requests; slow down"))
        else if !frame.permit then
          (recent, .refused (some request.id)
            (.new .rateLimited "too many concurrent requests on this connection"))
        else (recent, .dispatched request)

/-- A session, with the ids it recorded and the ids it dispatched, in order. -/
structure Guarding where
  recent : Recent := {}
  recorded : List String := []
  dispatched : List String := []

/-- The id of a frame that passes the checks of its envelope. -/
def TextFrame.validId (frame : TextFrame) : Option String :=
  match frame.request with
  | .error _ => none
  | .ok request => if (checkEnvelope request).isOk then some request.id else none

def Guarding.handle (s : Guarding) (frame : TextFrame) : Guarding :=
  let (recent, outcome) := handleText s.recent frame
  { recent := recent
    recorded := s.recorded ++ (frame.validId.filter fun id => id ∉ s.recent.seen).toList
    dispatched := s.dispatched ++
      match outcome with
      | .refused .. => []
      | .dispatched request => [request.id] }

/-- A session that has received some frames. -/
def session (frames : List TextFrame) : Guarding := frames.foldl Guarding.handle {}

/-- The last ids recorded. -/
def window (recorded : List String) : List String :=
  recorded.drop (recorded.length - recentRequestIds)

/-! ### The set and the queue -/

/-- The set holds the last ids recorded, each once, and the queue has them in order. -/
structure Recent.Window (recent : Recent) (recorded : List String) : Prop where
  order : recent.order = window recorded
  seen : recent.seen = recent.order.toFinset
  nodup : recent.order.Nodup

theorem length_window (recorded : List String) :
    (window recorded).length = min recorded.length recentRequestIds := by
  rw [window, List.length_drop]
  omega

/-- The window moves on by one. -/
theorem window_append (recorded : List String) (id : String) :
    window (recorded ++ [id]) =
      if recentRequestIds < (window recorded ++ [id]).length then (window recorded ++ [id]).tail
      else window recorded ++ [id] := by
  rw [List.length_append, length_window, List.length_singleton, window, List.length_append,
    List.length_singleton]
  split
  · next hfull =>
    have hlong : recentRequestIds ≤ recorded.length := by omega
    have hdrop : recorded.length + 1 - recentRequestIds =
        recorded.length - recentRequestIds + 1 := by omega
    rw [hdrop, ← List.drop_one, window]
    rw [← List.drop_append_of_le_length (by omega), List.drop_drop]
  · next hroom =>
    have hshort : recorded.length + 1 - recentRequestIds = 0 := by omega
    have hall : recorded.length - recentRequestIds = 0 := by omega
    rw [hshort, window, hall, List.drop_zero, List.drop_zero]

theorem Recent.Window.record {recent : Recent} {recorded : List String} {id : String}
    (h : recent.Window recorded) (hnew : id ∉ recent.seen) :
    (recent.record id).Window (recorded ++ [id]) := by
  have hfresh : id ∉ recent.order := by
    rw [h.seen, List.mem_toFinset] at hnew
    exact hnew
  have hnodup : (recent.order ++ [id]).Nodup := by
    refine List.nodup_append.mpr ⟨h.nodup, List.nodup_singleton _, ?_⟩
    intro x hx y hy heq
    obtain rfl := List.mem_singleton.mp hy
    exact hfresh (heq ▸ hx)
  have hseen : insert id recent.seen = (recent.order ++ [id]).toFinset := by
    rw [h.seen]
    ext x
    simp only [Finset.mem_insert, List.mem_toFinset, List.mem_append, List.mem_singleton]
    exact or_comm
  have horder := window_append recorded id
  rw [← h.order] at horder
  unfold Recent.record
  dsimp only
  split
  · next hfull =>
    rw [if_pos hfull] at horder
    cases hlist : recent.order ++ [id] with
    | nil =>
      rw [hlist] at hfull
      exact absurd hfull (Nat.not_lt_zero _)
    -- the oldest id leaves the queue and the set; it occurs in the queue once
    | cons old rest =>
      rw [hlist] at horder hnodup hseen
      refine ⟨horder.symm, ?_, (List.nodup_cons.mp hnodup).2⟩
      show (insert id recent.seen).erase old = rest.toFinset
      rw [hseen, List.toFinset_cons, Finset.erase_insert]
      rw [List.mem_toFinset]
      exact (List.nodup_cons.mp hnodup).1
  · next hroom =>
    rw [if_neg hroom] at horder
    exact ⟨horder.symm, hseen, hnodup⟩

/-! ### Sessions -/

variable {s : Guarding} {frame : TextFrame}

/-- What a frame does to a session: nothing, or its id is new and is recorded, and the
request is dispatched unless one of the limits refuses it. -/
inductive Handled (s : Guarding) (frame : TextFrame) : Guarding → Prop
  | refused (h : ∀ id ∈ frame.validId, id ∈ s.recent.seen) : Handled s frame s
  | recorded (id : String) (hid : frame.validId = some id) (hnew : id ∉ s.recent.seen) :
      Handled s frame {
        recent := s.recent.record id
        recorded := s.recorded ++ [id]
        dispatched := s.dispatched ++ if frame.limiter && frame.permit then [id] else [] }

theorem handled (s : Guarding) (frame : TextFrame) : Handled s frame (s.handle frame) := by
  obtain ⟨request, rawId, limiter, permit⟩ := frame
  -- a frame without a valid id, or with one that is remembered, changes nothing
  have hrefused : ∀ {f : TextFrame} {id : Option String} {e : PrintError},
      handleText s.recent f = (s.recent, .refused id e) →
      (∀ id ∈ f.validId, id ∈ s.recent.seen) → Handled s f (s.handle f) := by
    intro f id e htext hseen
    have hnone : f.validId.filter (fun id => id ∉ s.recent.seen) = none := by
      rw [Option.filter_eq_none_iff]
      intro id hid
      simpa using hseen id hid
    have hsame : s.handle f = s := by
      simp only [Guarding.handle, htext, hnone, Option.toList_none, List.append_nil]
    rw [hsame]
    exact .refused hseen
  cases request with
  | error e => exact hrefused rfl fun id hid => by cases hid
  | ok request =>
    cases hcheck : checkEnvelope request with
    | error e =>
      have htext : handleText s.recent ⟨.ok request, rawId, limiter, permit⟩ =
          (s.recent, .refused (some request.id) e) := by
        simp only [handleText, hcheck]
      refine hrefused htext ?_
      intro id hid
      simp [TextFrame.validId, hcheck, Except.isOk, Except.toBool] at hid
    | ok _ =>
      have hvalid : TextFrame.validId ⟨.ok request, rawId, limiter, permit⟩ = some request.id := by
        simp [TextFrame.validId, hcheck, Except.isOk, Except.toBool]
      by_cases hseen : request.id ∈ s.recent.seen
      · have htext : handleText s.recent ⟨.ok request, rawId, limiter, permit⟩ =
            (s.recent, .refused (some request.id) (.invalidPayload "duplicate request id")) := by
          simp only [handleText, hcheck, if_pos hseen]
        refine hrefused htext ?_
        intro id hid
        rw [hvalid] at hid
        obtain rfl := Option.some.inj hid
        exact hseen
      -- the id is recorded, whatever the limiter and the permits say
      · have hhandle : s.handle ⟨.ok request, rawId, limiter, permit⟩ = {
            recent := s.recent.record request.id
            recorded := s.recorded ++ [request.id]
            dispatched := s.dispatched ++ if limiter && permit then [request.id] else [] } := by
          cases limiter <;> cases permit <;>
            simp [Guarding.handle, handleText, hcheck, hseen, hvalid]
        rw [hhandle]
        exact .recorded request.id hvalid hseen

/-- **The session remembers the last ids it recorded**, whatever it receives. -/
theorem window_of_session (frames : List TextFrame) :
    (session frames).recent.Window (session frames).recorded := by
  induction frames using List.reverseRecOn with
  | nil => exact ⟨rfl, rfl, List.nodup_nil⟩
  | append_singleton frames frame ih =>
    rw [session, List.foldl_append]
    show ((session frames).handle frame).recent.Window ((session frames).handle frame).recorded
    have hhandled := handled (session frames) frame
    generalize (session frames).handle frame = after at hhandled ⊢
    cases hhandled with
    | refused h => exact ih
    | recorded id hid hnew => exact ih.record hnew

/-- What is remembered at a frame, in terms of the frames before it. -/
theorem mem_seen_iff (frames : List TextFrame) (id : String) :
    id ∈ (session frames).recent.seen ↔ id ∈ window (session frames).recorded := by
  have h := window_of_session frames
  rw [h.seen, List.mem_toFinset, h.order]

/-- A frame does not repeat the id of a request that was dispatched and has left the
window, or it is refused for another reason. -/
def Remembered (frames : List TextFrame) (frame : TextFrame) : Prop :=
  ∀ id ∈ frame.validId, frame.limiter = true → frame.permit = true →
    id ∈ (session frames).dispatched → id ∈ window (session frames).recorded

theorem session_append (frames : List TextFrame) (frame : TextFrame) :
    session (frames ++ [frame]) = (session frames).handle frame := by
  rw [session, List.foldl_append]
  rfl

/-- One more frame. -/
theorem nodup_dispatched_append (frames : List TextFrame) (frame : TextFrame) :
    (session (frames ++ [frame])).dispatched.Nodup ↔
      (session frames).dispatched.Nodup ∧ Remembered frames frame := by
  rw [session_append]
  have hhandled := handled (session frames) frame
  generalize (session frames).handle frame = after at hhandled ⊢
  cases hhandled with
  | refused h =>
    refine ⟨fun hnodup => ⟨hnodup, ?_⟩, fun hboth => hboth.1⟩
    intro id hid _ _ _
    exact (mem_seen_iff frames id).mp (h id hid)
  | recorded id hid hnew =>
    -- an id that was accepted is not among those that are remembered
    have hforgotten : id ∉ window (session frames).recorded := by
      rw [← mem_seen_iff]
      exact hnew
    cases hpassed : frame.limiter && frame.permit with
    | false =>
      show (_ ++ []).Nodup ↔ _
      rw [List.append_nil]
      refine ⟨fun hnodup => ⟨hnodup, ?_⟩, fun hboth => hboth.1⟩
      intro id' _ hlimiter hpermit
      rw [hlimiter, hpermit] at hpassed
      cases hpassed
    | true =>
      obtain ⟨hlimiter, hpermit⟩ := Bool.and_eq_true_iff.mp hpassed
      show (_ ++ [id]).Nodup ↔ _
      rw [← List.concat_eq_append, List.nodup_concat]
      refine ⟨?_, ?_⟩
      · rintro ⟨hfirst, hnodup⟩
        refine ⟨hnodup, ?_⟩
        intro id' hid' _ _ hbefore
        obtain rfl := Option.some.inj (hid.symm.trans hid')
        exact absurd hbefore hfirst
      · rintro ⟨hnodup, hremembered⟩
        refine ⟨?_, hnodup⟩
        intro hbefore
        exact hforgotten (hremembered id hid hlimiter hpermit hbefore)

/-- **No id is dispatched twice in a session, exactly when** no frame that passes the checks
and the limits repeats the id of a dispatched request after 512 further ids were recorded. -/
theorem replay_guarded (frames : List TextFrame) :
    (session frames).dispatched.Nodup ↔
      ∀ before frame after, frames = before ++ frame :: after → Remembered before frame := by
  induction frames using List.reverseRecOn with
  | nil =>
    refine ⟨fun _ before frame after heq => ?_, fun _ => List.nodup_nil⟩
    simp at heq
  | append_singleton frames last ih =>
    rw [nodup_dispatched_append, ih]
    constructor
    · rintro ⟨hbefore, hlast⟩ before frame after heq
      rcases List.eq_nil_or_concat after with rfl | ⟨rest, x, rfl⟩
      · obtain ⟨rfl, hframe⟩ := List.append_inj' heq rfl
        obtain rfl := List.singleton_inj.mp hframe
        exact hlast
      · have hsplit : frames ++ [last] = (before ++ frame :: rest) ++ [x] := by simpa using heq
        exact hbefore before frame rest (List.append_inj' hsplit rfl).1
    · intro h
      refine ⟨?_, h frames last [] rfl⟩
      rintro before frame after rfl
      exact h before frame (after ++ [last]) (by simp)

/-! ### A replay -/

/-- The `n`th of a series of ids: one ideograph each. -/
def ideograph (n : ℕ) : String := .ofList [Char.ofNat (0x4E00 + n)]

/-- A request that passes the checks and the limits. -/
def numberedRequest (n : ℕ) : TextFrame where
  request := .ok ⟨some 1, some "request", ideograph n, "jobs.list", .null⟩
  rawId := none
  limiter := true
  permit := true

theorem toNat_ofNat {n : ℕ} (h : n < 0xD800) : (Char.ofNat n).toNat = n := by
  rw [Char.ofNat, dif_pos (Or.inl h)]
  rfl

theorem ideograph_inj {m n : ℕ} (hm : m < 513) (hn : n < 513) (h : ideograph m = ideograph n) :
    m = n := by
  have hlist := congrArg String.toList h
  simp only [ideograph, String.toList_ofList, List.cons.injEq, and_true] at hlist
  have hnat := congrArg Char.toNat hlist
  rw [toNat_ofNat (by omega), toNat_ofNat (by omega)] at hnat
  omega

theorem validId_numberedRequest :
    ∀ n < 513, (numberedRequest n).validId = some (ideograph n) := by
  decide +kernel

/-- Requests with ids of their own are all recorded and all dispatched. -/
theorem session_numbered {n : ℕ} (hn : n ≤ 513) :
    (session ((List.range n).map numberedRequest)).recorded = (List.range n).map ideograph ∧
      (session ((List.range n).map numberedRequest)).dispatched =
        (List.range n).map ideograph := by
  induction n with
  | zero => exact ⟨rfl, rfl⟩
  | succ n ih =>
    obtain ⟨hrecorded, hdispatched⟩ := ih (by omega)
    have hvalid := validId_numberedRequest n (by omega)
    rw [List.range_succ, List.map_append, List.map_append, List.map_singleton, List.map_singleton,
      session_append]
    have hhandled := handled (session ((List.range n).map numberedRequest)) (numberedRequest n)
    generalize (session _).handle _ = after at hhandled ⊢
    cases hhandled with
    | refused h =>
      have hseen := (mem_seen_iff _ _).mp (h _ hvalid)
      rw [hrecorded] at hseen
      obtain ⟨m, hm, heq⟩ := List.mem_map.mp (List.mem_of_mem_drop hseen)
      have hlt := List.mem_range.mp hm
      have hsame := ideograph_inj (by omega) (by omega) heq
      omega
    | recorded id hid hnew =>
      obtain rfl := Option.some.inj (hvalid.symm.trans hid)
      exact ⟨by rw [hrecorded], by rw [hdispatched]; rfl⟩

/-- 513 requests, and the first of them again. -/
def replayFrames : List TextFrame := (List.range 513).map numberedRequest ++ [numberedRequest 0]

/-- **A request is dispatched a second time.** -/
theorem replayed : ¬ (session replayFrames).dispatched.Nodup := by
  rw [replayFrames, nodup_dispatched_append]
  rintro ⟨-, hremembered⟩
  obtain ⟨hrecorded, hdispatched⟩ := session_numbered (le_refl 513)
  have hwindow := hremembered (ideograph 0) (validId_numberedRequest 0 (by omega)) rfl rfl
    (by rw [hdispatched]; exact List.mem_map.mpr ⟨0, List.mem_range.mpr (by omega), rfl⟩)
  rw [hrecorded, window, List.length_map, List.length_range, ← List.map_drop] at hwindow
  obtain ⟨m, hm, heq⟩ := List.mem_map.mp hwindow
  -- the window begins with the second id
  have hpos : 0 < m := by
    rw [List.range_eq_range', show 513 - recentRequestIds = 1 from rfl, List.drop_range'] at hm
    have := List.mem_range'_1.mp hm
    omega
  have hlt := List.mem_range.mp (List.mem_of_mem_drop hm)
  have hzero := ideograph_inj hlt (by omega) heq
  omega

end Replay

end KilnPrint
