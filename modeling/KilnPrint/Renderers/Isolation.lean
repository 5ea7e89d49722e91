/-
The page is kept apart.

* `plan` — what is sent for a document, but for the answers to the page's own requests;
* `Replied` — a message was sent and a reply to it was read, which gives a result;
* `Law`, `Lawful` — what is sent in view of what was exchanged before;
* `Follows`, `call_replies` — a call keeps to the law, and its step is added to the plan's;
* `plan_followed` — **the plan is followed, step by step, and the PDF is that of its reply**;
* `page_isolated` — **the document is in one browser at most, behind a blocked network**.

Design notes: the law is about each exchange and those before it, so that one invariant says what is
never sent, and in what order.  A request that the page makes has to be failed by the next message.
-/
import KilnPrint.Renderers.Cdp
import Mathlib.Data.List.Basic

namespace KilnPrint

namespace Cdp

open Fallible

/-! ### The exchanges -/

def wrote (f : Frame) (answer : Except String Unit) : Exchange := ⟨.send f, answer⟩

def heard (message : Value) : Exchange := ⟨.read, .text (some message)⟩

def sentOf : Exchange → Option Frame
  | ⟨.send f, _⟩ => some f
  | ⟨.read, _⟩ => none

def sent (t : List Exchange) : List Frame := t.filterMap sentOf

/-- A message is part of the plan, or the answer to a request of the page. -/
def Frame.planned (f : Frame) : Bool := f.method ≠ failRequest

def planned (t : List Exchange) : List Frame := (sent t).filter Frame.planned

structure Step where
  method : String
  params : Value
  session : Option String

def Frame.step (f : Frame) : Step := ⟨f.method, f.params, f.session⟩

@[simp] theorem sent_append (t t' : List Exchange) : sent (t ++ t') = sent t ++ sent t' :=
  List.filterMap_append

@[simp] theorem sent_read (t : List Exchange) (x : Inbound) : sent (t ++ [⟨.read, x⟩]) = sent t := by
  rw [sent_append]
  exact List.append_nil _

@[simp] theorem sent_heard (t : List Exchange) (message : Value) :
    sent (t ++ [heard message]) = sent t :=
  sent_read t _

@[simp] theorem sent_wrote (t : List Exchange) (f : Frame) (answer : Except String Unit) :
    sent (t ++ [wrote f answer]) = sent t ++ [f] :=
  sent_append _ _

@[simp] theorem planned_append (t t' : List Exchange) :
    planned (t ++ t') = planned t ++ planned t' := by
  rw [planned, sent_append, List.filter_append]
  rfl

theorem planned_wrote {f : Frame} (answer : Except String Unit) (h : f.method ≠ failRequest) :
    planned [wrote f answer] = [f] := by
  have hf : f.planned = true := decide_eq_true h
  show [f].filter Frame.planned = [f]
  rw [List.filter_cons_of_pos hf]
  rfl

theorem planned_fail {f : Frame} (answer : Except String Unit) (h : f.method = failRequest) :
    planned [wrote f answer] = [] := by
  have hf : ¬ f.planned = true := fun hf => (of_decide_eq_true hf) h
  show [f].filter Frame.planned = []
  rw [List.filter_cons_of_neg hf]
  rfl

/-- The message was sent, and a reply to it read since, which gives the result. -/
def Replied (t : List Exchange) (f : Frame) (result : Value) : Prop :=
  ∃ before between after message,
    t = before ++ wrote f (.ok ()) :: (between ++ heard message :: after) ∧
    (message.get "id").asU64 = some f.id ∧ outcome f.method message = .ok result

theorem Replied.append {t : List Exchange} {f : Frame} {result : Value} (h : Replied t f result)
    (t' : List Exchange) : Replied (t ++ t') f result := by
  obtain ⟨before, between, after, message, rfl, hid, hresult⟩ := h
  refine ⟨before, between, after ++ t', message, ?_, hid, hresult⟩
  simp only [List.append_assoc, List.cons_append]

/-- The call that is not waited for. -/
def fontWait : String := "Runtime.evaluate"

def Acked (t : List Exchange) (f : Frame) : Prop :=
  f.method ≠ fontWait → ∃ result, Replied t f result

/-! ### The law -/

/-- What is asked of the browser, in view of the exchanges before it. -/
structure Law (before : List Exchange) (x : Exchange) : Prop where
  numbered : ∀ f answer, x = wrote f answer → f.id = (sent before).length + 1
  /-- A request of the page is failed at once. -/
  blocks : ∀ message, before.getLast? = some (heard message) → isPaused message = true →
    ∃ f answer, x = wrote f answer ∧ f.method = failRequest ∧ f.params = blocked message
  /-- A step of the plan waits for those before it. -/
  paced : ∀ f answer, x = wrote f answer → f.method ≠ failRequest →
    ∀ g ∈ planned before, Acked before g

structure Lawful (c : Cdp) : Prop where
  allowed : Interaction.Allowed Law c.trace
  settled : ∀ message, c.trace.getLast? = some (heard message) → isPaused message = false
  counted : c.nextId = (sent c.trace).length

/-- The state after an exchange. -/
def after (c : Cdp) (x : Exchange) : Cdp := { c with ws := { c.ws with trace := c.trace ++ [x] } }

variable {c c' : Cdp} {method : String} {params : Value}

theorem exchange_eq (q : CdpCall) (c : Cdp) :
    exchange q c = (.ok (c.ws.device c.trace q), c.after ⟨q, c.ws.device c.trace q⟩) := rfl

theorem getLast?_after (c : Cdp) (x : Exchange) : (c.after x).trace.getLast? = some x :=
  List.getLast?_concat

/-- There is always a read that keeps to the law. -/
theorem Lawful.law_read (h : Lawful c) (x : Inbound) : Law c.trace ⟨.read, x⟩ := by
  refine ⟨?_, ?_, ?_⟩
  · intro f answer heq
    cases heq
  · intro message hlast hpaused
    rw [h.settled message hlast] at hpaused
    cases hpaused
  · intro f answer heq
    cases heq

/-- What a read leaves that is not a request of the page. -/
theorem Lawful.hear (h : Lawful c) {x : Inbound}
    (hx : ∀ message, x = .text (some message) → isPaused message = false) :
    Lawful (c.after ⟨.read, x⟩) where
  allowed := h.allowed.snoc (h.law_read x)
  settled := by
    intro message hlast
    rw [getLast?_after] at hlast
    cases hlast
    exact hx message rfl
  counted := by
    show c.nextId = (sent (c.trace ++ [⟨.read, x⟩])).length
    rw [h.counted, sent_read]

theorem send_cases (method : String) (params : Value) (c : Cdp) : ∃ answer,
    send method params c =
      ((match answer with
        | .ok () => .ok (c.nextId + 1)
        | .error e => .error (lost e)),
      ({ c with nextId := c.nextId + 1 } : Cdp).after
        (wrote ⟨c.nextId + 1, method, params, c.session⟩ answer)) := by
  let d : Cdp := { c with nextId := c.nextId + 1 }
  let f : Frame := ⟨c.nextId + 1, method, params, c.session⟩
  have hexchange : exchange (.send f) d =
      (.ok (c.ws.device c.trace (.send f)), d.after (wrote f (c.ws.device c.trace (.send f)))) := rfl
  refine ⟨c.ws.device c.trace (.send f), ?_⟩
  refine (bind_of_ok hexchange).trans ?_
  cases c.ws.device c.trace (.send f) <;> rfl

/-! ### Reading -/

theorem Lawful.same (h : Lawful c) (hws : c'.ws = c.ws) (hid : c'.nextId = c.nextId) :
    Lawful c' := by
  obtain ⟨hallowed, hsettled, hcounted⟩ := h
  refine ⟨?_, ?_, ?_⟩
  · rw [trace, hws]
    exact hallowed
  · rw [trace, hws]
    exact hsettled
  · rw [trace, hws, hid]
    exact hcounted

/-- A request of the page, and the message that fails it. -/
theorem Lawful.block (h : Lawful c) {message : Value} (session : Option String)
    (answer : Except String Unit) :
    Lawful (({ c.after (heard message) with nextId := c.nextId + 1 } : Cdp).after
      (wrote ⟨c.nextId + 1, failRequest, blocked message, session⟩ answer)) where
  allowed := by
    refine (h.allowed.snoc (h.law_read _)).snoc ⟨?_, ?_, ?_⟩
    · intro f answer' heq
      cases heq
      rw [sent_read, ← h.counted]
    · intro message' hlast hpaused
      rw [List.getLast?_concat] at hlast
      cases hlast
      exact ⟨_, _, rfl, rfl, rfl⟩
    · intro f answer' heq hmethod
      cases heq
      exact absurd rfl hmethod
  settled := by
    intro message' hlast
    rw [getLast?_after] at hlast
    cases hlast
  counted := by
    show c.nextId + 1 = (sent ((c.trace ++ [heard message]) ++ [wrote _ answer])).length
    rw [sent_wrote, sent_heard, List.length_append, h.counted]
    rfl

/-- What reading leads to. -/
structure Hears (c c' : Cdp) : Prop where
  lawful : Lawful c'
  session : c'.session = c.session
  trace : ∃ extra, c'.trace = c.trace ++ extra ∧ planned extra = []

theorem Hears.refl (h : Lawful c) : Hears c c := ⟨h, rfl, [], (List.append_nil _).symm, rfl⟩

theorem Hears.trans {c'' : Cdp} (h : Hears c c') (h' : Hears c' c'') : Hears c c'' := by
  obtain ⟨extra, htrace, hnone⟩ := h.trace
  obtain ⟨extra', htrace', hnone'⟩ := h'.trace
  refine ⟨h'.lawful, h'.session.trans h.session, extra ++ extra', ?_, ?_⟩
  · rw [htrace', htrace, List.append_assoc]
  · rw [planned_append, hnone, hnone']
    rfl

/-- A message was read in between. -/
def Heard (c c' : Cdp) (message : Value) : Prop :=
  ∃ between after, c'.trace = c.trace ++ (between ++ heard message :: after)

theorem Heard.later {c'' : Cdp} {message : Value} (h : Heard c c' message) (h' : Hears c' c'') :
    Heard c c'' message := by
  obtain ⟨between, after, htrace⟩ := h
  obtain ⟨extra, htrace', -⟩ := h'.trace
  refine ⟨between, after ++ extra, ?_⟩
  rw [htrace', htrace]
  simp only [List.append_assoc, List.cons_append]

theorem Heard.earlier {c'' : Cdp} {message : Value} (h : Hears c c') (h' : Heard c' c'' message) :
    Heard c c'' message := by
  obtain ⟨extra, htrace, -⟩ := h.trace
  obtain ⟨between, after, htrace'⟩ := h'
  refine ⟨extra ++ between, after, ?_⟩
  rw [htrace', htrace]
  simp only [List.append_assoc]

theorem intercept_hears (hc : Lawful c) {message : Value} {r : Except PrintError Unit}
    (h : intercept message (c.after (heard message)) = (r, c')) :
    Hears c c' ∧ Heard c c' message := by
  by_cases hpaused : isPaused message = true
  · obtain ⟨answer, hsend⟩ := send_cases failRequest (blocked message) (c.after (heard message))
    let f : Frame := ⟨c.nextId + 1, failRequest, blocked message, c.session⟩
    have hintercept : intercept message = send failRequest (blocked message) >>= fun _ => pure () :=
      if_pos hpaused
    have hstate : c' = ({ c.after (heard message) with nextId := c.nextId + 1 } : Cdp).after
        (wrote f answer) := by
      cases answer with
      | ok u => exact (congrArg Prod.snd (h.symm.trans (hintercept ▸ bind_of_ok hsend)))
      | error e => exact (congrArg Prod.snd (h.symm.trans (hintercept ▸ bind_of_error hsend)))
    rw [hstate]
    exact ⟨⟨hc.block c.session answer, rfl, [heard message, wrote f answer],
      List.append_assoc _ _ _, planned_fail answer rfl⟩, [], [wrote f answer],
      List.append_assoc _ _ _⟩
  · have hintercept : intercept message = pure () := if_neg hpaused
    have hstate : c' = c.after (heard message) :=
      congrArg Prod.snd (h.symm.trans (congrFun hintercept _))
    rw [hstate]
    refine ⟨⟨hc.hear ?_, rfl, [heard message], rfl, rfl⟩, [], [], rfl⟩
    intro message' heq
    cases heq
    exact Bool.not_eq_true _ ▸ hpaused

theorem receive_hears (hc : Lawful c) (x : Inbound) {r : Except PrintError (Option Value)}
    (h : receive x (c.after ⟨.read, x⟩) = (r, c')) :
    Hears c c' ∧ ∀ message, r = .ok (some message) → message = .null ∨ Heard c c' message := by
  have hplain (hx : ∀ message, x = .text (some message) → isPaused message = false) :
      Hears c (c.after ⟨.read, x⟩) :=
    ⟨hc.hear hx, rfl, [⟨.read, x⟩], rfl, rfl⟩
  cases x with
  | text json =>
    cases json with
    | none =>
      cases h
      exact ⟨hplain fun _ h => (by cases h), fun _ h => (by cases h)⟩
    | some message =>
      cases hintercept : intercept message (c.after (heard message)) with
      | mk r' d =>
        obtain ⟨hears, hheard⟩ := intercept_hears hc hintercept
        cases r' with
        | ok u =>
          have hone : (.ok (some message), d) = (r, c') := (bind_of_ok hintercept).symm.trans h
          cases hone
          exact ⟨hears, fun _ h => .inr (by cases h; exact hheard)⟩
        | error e =>
          have hone : (.error e, d) = (r, c') := (bind_of_error hintercept).symm.trans h
          cases hone
          exact ⟨hears, fun _ h => (by cases h)⟩
  | other =>
    cases h
    exact ⟨hplain fun _ h => (by cases h), fun _ h => .inl (by cases h; rfl)⟩
  | silence | failed e =>
    cases h
    exact ⟨hplain fun _ h => (by cases h), fun _ h => (by cases h)⟩

theorem read_hears (hc : Lawful c) {r : Except PrintError (Option Value)}
    (h : read c = (r, c')) :
    Hears c c' ∧ ∀ message, r = .ok (some message) → message = .null ∨ Heard c c' message := by
  unfold read at h
  cases hleft : c.left with
  | zero =>
    rw [hleft] at h
    cases h
    exact ⟨.refl hc, fun _ h => (by cases h)⟩
  | succ left =>
    rw [hleft] at h
    let d : Cdp := { c with left := left }
    have hd : Lawful d := hc.same rfl rfl
    have hexchange := exchange_eq .read d
    obtain ⟨⟨hlawful, hsession, htrace⟩, hheard⟩ :=
      receive_hears hd _ ((bind_of_ok hexchange).symm.trans h)
    exact ⟨⟨hlawful, hsession, htrace⟩, hheard⟩

theorem keep_hears (hc : Lawful c) (message : Value) : ∃ c', keep message c = (.ok (), c') ∧
    Hears c c' := by
  refine ⟨_, rfl, ?_⟩
  split
  · exact ⟨hc.same rfl rfl, rfl, [], (List.append_nil _).symm, rfl⟩
  · exact .refl hc

/-- The loop ends with a reply to the message, or with an error. -/
theorem awaitReply_hears {id : ℕ} {turns : ℕ} : ∀ {c : Cdp}, Lawful c →
    ∀ {r : Except PrintError Value}, awaitReply method id turns c = (r, c') →
      Hears c c' ∧ ∀ result, r = .ok result → ∃ message, Heard c c' message ∧
        (message.get "id").asU64 = some id ∧ outcome method message = .ok result := by
  induction turns with
  | zero =>
    intro c hc r h
    cases h
    exact ⟨.refl hc, fun _ h => (by cases h)⟩
  | succ turns ih =>
    intro c hc r h
    cases hread : read c with
    | mk arrived d =>
      obtain ⟨hears, hheard⟩ := read_hears hc hread
      unfold awaitReply at h
      cases arrived with
      | error e =>
        rw [bind_of_error hread] at h
        cases h
        exact ⟨hears, fun _ h => (by cases h)⟩
      | ok arrived =>
        rw [bind_of_ok hread] at h
        cases arrived with
        | none =>
          cases h
          exact ⟨hears, fun _ h => (by cases h)⟩
        | some message =>
          by_cases hid : (message.get "id").asU64 = some id
          · have hone : ofExcept (fun e => e) (outcome method message) d = (r, c') := by
              rw [← h]
              exact (congrFun (if_pos hid) d).symm
            have hmessage : Heard c d message := by
              rcases hheard message rfl with rfl | hmessage
              · cases hid
              · exact hmessage
            cases houtcome : outcome method message with
            | error e =>
              rw [houtcome] at hone
              cases hone
              exact ⟨hears, fun _ h => (by cases h)⟩
            | ok result =>
              rw [houtcome] at hone
              cases hone
              exact ⟨hears, fun _ h => ⟨message, hmessage, hid, by rw [houtcome, h]⟩⟩
          · obtain ⟨d', hkeep, hears'⟩ := keep_hears hears.lawful message
            have hrest : awaitReply method id turns d' = (r, c') := by
              rw [← h, ← bind_of_ok (f := fun _ => awaitReply method id turns) hkeep]
              exact (congrFun (if_neg hid) d).symm
            obtain ⟨hrest, hresult⟩ := ih hears'.lawful hrest
            refine ⟨(hears.trans hears').trans hrest, fun result hr => ?_⟩
            obtain ⟨message', hmessage, hid', houtcome⟩ := hresult result hr
            exact ⟨message', hmessage.earlier (hears.trans hears'), hid', houtcome⟩

theorem awaitEvent_hears {turns : ℕ} : ∀ {c : Cdp}, Lawful c →
    ∀ {r : Except PrintError Bool}, awaitEvent method turns c = (r, c') → Hears c c' := by
  induction turns with
  | zero =>
    intro c hc r h
    cases h
    exact .refl hc
  | succ turns ih =>
    intro c hc r h
    cases hread : read c with
    | mk arrived d =>
      obtain ⟨hears, -⟩ := read_hears hc hread
      unfold awaitEvent at h
      rw [hread] at h
      cases arrived with
      | error e =>
        cases h
        exact hears
      | ok arrived =>
        cases arrived with
        | none =>
          cases h
          exact hears
        | some message =>
          by_cases hmethod : message.get "method" = .str method
          · have hone := (if_pos hmethod).symm.trans h
            cases hone
            exact hears
          · exact hears.trans (ih hears.lawful ((if_neg hmethod).symm.trans h))

/-! ### The plan -/

def script (t : List Exchange) : List Step := (planned t).map Frame.step

/-- The steps that are done have their replies. -/
structure Follows (done : List Step) (session : Option String) (c : Cdp) : Prop where
  lawful : Lawful c
  session : c.session = session
  script : script c.trace = done
  acked : ∀ f ∈ planned c.trace, Acked c.trace f

/-- As `Follows`, with a message after them whose reply may not have come. -/
structure Pending (done : List Step) (f : Frame) (c : Cdp) : Prop where
  lawful : Lawful c
  session : c.session = f.session
  planned : ∃ before, planned c.trace = before ++ [f] ∧ before.map Frame.step = done ∧
    ∀ g ∈ before, Acked c.trace g

variable {done : List Step} {session : Option String} {f : Frame}

theorem Acked.append {t : List Exchange} (h : Acked t f) (t' : List Exchange) : Acked (t ++ t') f :=
  fun hmethod => (h hmethod).imp fun _ hresult => hresult.append t'

theorem Follows.hears (h : Follows done session c) (h' : Hears c c') : Follows done session c' := by
  obtain ⟨extra, htrace, hnone⟩ := h'.trace
  have hplanned : planned c'.trace = planned c.trace := by
    rw [htrace, planned_append, hnone, List.append_nil]
  refine ⟨h'.lawful, h'.session.trans h.session, ?_, ?_⟩
  · rw [Cdp.script, hplanned]
    exact h.script
  · intro g hg
    rw [hplanned] at hg
    rw [htrace]
    exact (h.acked g hg).append extra

theorem Pending.hears (h : Pending done f c) (h' : Hears c c') : Pending done f c' := by
  obtain ⟨extra, htrace, hnone⟩ := h'.trace
  obtain ⟨before, hplanned, hdone, hacked⟩ := h.planned
  refine ⟨h'.lawful, h'.session.trans h.session, before, ?_, hdone, ?_⟩
  · rw [htrace, planned_append, hnone, List.append_nil]
    exact hplanned
  · intro g hg
    rw [htrace]
    exact (hacked g hg).append extra

theorem Pending.script (h : Pending done f c) : script c.trace = done ++ [f.step] := by
  obtain ⟨before, hplanned, hdone, -⟩ := h.planned
  rw [Cdp.script, hplanned, List.map_append, hdone]
  rfl

theorem Pending.follows (h : Pending done f c) (hf : Acked c.trace f) :
    Follows (done ++ [f.step]) f.session c := by
  obtain ⟨before, hplanned, -, hacked⟩ := h.planned
  refine ⟨h.lawful, h.session, h.script, ?_⟩
  intro g hg
  rw [hplanned] at hg
  rcases List.mem_append.mp hg with hg | hg
  · exact hacked g hg
  · exact List.mem_singleton.mp hg ▸ hf

/-- A message of the plan may be sent, and is the last one then. -/
theorem Follows.send (h : Follows done session c) (hmethod : method ≠ failRequest)
    {r : Except PrintError ℕ} (hsend : send method params c = (r, c')) :
    ∃ f answer, f.step = ⟨method, params, session⟩ ∧ Pending done f c' ∧
      c'.trace = c.trace ++ [wrote f answer] ∧ ∀ id, r = .ok id → id = f.id ∧ answer = .ok () := by
  obtain ⟨answer, heq⟩ := send_cases method params c
  let f : Frame := ⟨c.nextId + 1, method, params, c.session⟩
  obtain ⟨hr, rfl⟩ := Prod.mk.inj (hsend.symm.trans heq)
  have hplanned : Cdp.planned (c.trace ++ [wrote f answer]) = Cdp.planned c.trace ++ [f] := by
    rw [planned_append, planned_wrote answer hmethod]
  refine ⟨f, answer, ?_, ⟨⟨?_, ?_, ?_⟩, rfl, Cdp.planned c.trace, hplanned, h.script, ?_⟩, rfl, ?_⟩
  · show (⟨method, params, c.session⟩ : Step) = _
    rw [h.session]
  · refine h.lawful.allowed.snoc ⟨?_, ?_, ?_⟩
    · intro g answer' hg
      cases hg
      rw [← h.lawful.counted]
    · intro message hlast hpaused
      rw [h.lawful.settled message hlast] at hpaused
      cases hpaused
    · intro g answer' hg _ f' hf'
      exact h.acked f' hf'
  · intro message hlast
    rw [getLast?_after] at hlast
    cases hlast
  · show c.nextId + 1 = (sent (c.trace ++ [wrote f answer])).length
    rw [sent_wrote, List.length_append, h.lawful.counted]
    rfl
  · intro g hg
    exact (h.acked g hg).append _
  · intro id hid
    cases answer with
    | error e =>
      rw [hr] at hid
      cases hid
    | ok u =>
      rw [hr] at hid
      cases hid
      exact ⟨rfl, rfl⟩

/-- A call leaves its message as the last one of the plan, with the reply if it returns. -/
theorem Follows.call (h : Follows done session c) (hmethod : method ≠ failRequest)
    {r : Except PrintError Value} (hcall : call method params c = (r, c')) :
    ∃ f, f.step = ⟨method, params, session⟩ ∧ Pending done f c' ∧
      ∀ result, r = .ok result → Replied c'.trace f result := by
  cases hsend : Cdp.send method params c with
  | mk r' d =>
    obtain ⟨f, answer, hstep, hpending, htrace, hsent⟩ := h.send hmethod hsend
    cases r' with
    | error e =>
      have hone : (.error e, d) = (r, c') := (bind_of_error hsend).symm.trans hcall
      cases hone
      exact ⟨f, hstep, hpending, fun _ h => (by cases h)⟩
    | ok id =>
      have hawait : awaitReply method id d.left d = (r, c') := (bind_of_ok hsend).symm.trans hcall
      obtain ⟨hears, hresult⟩ := awaitReply_hears hpending.lawful hawait
      obtain ⟨rfl, rfl⟩ := hsent id rfl
      refine ⟨f, hstep, hpending.hears hears, fun result hr => ?_⟩
      obtain ⟨message, ⟨between, after, hheard⟩, hid, houtcome⟩ := hresult result hr
      refine ⟨c.trace, between, after, message, ?_, hid, ?_⟩
      · rw [hheard, htrace, List.append_assoc]
        rfl
      · have hsame : f.method = method := congrArg Step.method hstep
        rw [hsame]
        exact houtcome

def scriptsOff (r : PdfRequest) (session : Option String) : List Step :=
  if r.javascript then []
  else [⟨"Emulation.setScriptExecutionDisabled", .obj [("value", .bool true)], session⟩]

/-- What is sent for a document. -/
def plan (r : PdfRequest) (target : String) (session : Option String) (frame : String) :
    List Step :=
  [⟨"Target.createTarget", .obj [("url", .str "about:blank")], none⟩,
    ⟨"Target.attachToTarget", .obj [("targetId", .str target), ("flatten", .bool true)], none⟩,
    ⟨"Page.enable", .obj [], session⟩] ++ (scriptsOff r session ++
  [⟨"Fetch.enable", allRequests, session⟩, ⟨"Page.getFrameTree", .obj [], session⟩,
    ⟨"Page.setDocumentContent", .obj [("frameId", .str frame), ("html", .str r.html)], session⟩,
    ⟨fontWait, fontsReady, session⟩, ⟨"Page.printToPDF", r.params, session⟩,
    ⟨"Browser.close", .obj [], none⟩])

variable {r : PdfRequest}

/-- The plan is kept to, as far as it went. -/
def Planned (r : PdfRequest) (c : Cdp) : Prop :=
  Lawful c ∧ ∃ target session frame, script c.trace <+: plan r target session frame

theorem Follows.onPlan (h : Follows done session c) (target : String) (session' : Option String)
    (frame : String) (hplan : done <+: plan r target session' frame) :
    Planned r c :=
  ⟨h.lawful, target, session', frame, h.script ▸ hplan⟩

/-- A reply to the step is there. -/
def Says (step : Step) (result : Value) (c : Cdp) : Prop :=
  ∃ f, f.step = step ∧ Replied c.trace f result

theorem call_replies (target : String) (session' : Option String) (frame : String)
    (hmethod : method ≠ failRequest)
    (hplan : done ++ [⟨method, params, session⟩] <+: plan r target session' frame) :
    Ensures (Follows done session) (call method params)
      (fun result c => Follows (done ++ [⟨method, params, session⟩]) session c ∧
        Says ⟨method, params, session⟩ result c)
      (fun _ c => Planned r c) := by
  intro c hc
  refine ⟨?_, ?_⟩
  · intro result c' hcall
    obtain ⟨f, hstep, hpending, hresult⟩ := hc.call hmethod hcall
    have hfollows := hpending.follows fun _ => ⟨result, hresult result rfl⟩
    have hsession : f.session = session := congrArg Step.session hstep
    rw [hstep, hsession] at hfollows
    exact ⟨hfollows, f, hstep, hresult result rfl⟩
  · intro e c' hcall
    obtain ⟨f, hstep, hpending, -⟩ := hc.call hmethod hcall
    refine ⟨hpending.lawful, target, session', frame, ?_⟩
    rw [hpending.script, hstep]
    exact hplan

theorem call_ensures (target : String) (session' : Option String) (frame : String)
    (hmethod : method ≠ failRequest)
    (hplan : done ++ [⟨method, params, session⟩] <+: plan r target session' frame) :
    Ensures (Follows done session) (call method params)
      (fun _ c => Follows (done ++ [⟨method, params, session⟩]) session c)
      (fun _ c => Planned r c) :=
  (call_replies target session' frame hmethod hplan).mono (fun _ h => h) (fun _ _ h => h.1)
    fun _ _ h => h

theorem disableScripts_ensures (target : String) (session' : Option String) (frame : String)
    (hplan : done ++ scriptsOff r session <+: plan r target session' frame) :
    Ensures (Follows done session) (disableScripts r)
      (fun _ c => Follows (done ++ scriptsOff r session) session c) (fun _ c => Planned r c) := by
  unfold disableScripts
  unfold scriptsOff at hplan ⊢
  split at hplan
  · rename_i hjs
    rw [if_pos hjs, if_pos hjs, List.append_nil]
    exact .pure fun c hc => hc
  · rename_i hjs
    rw [if_neg hjs, if_neg hjs]
    exact (call_ensures target session' frame (by decide) hplan).bind fun _ => .pure fun c hc => hc

theorem fontWait_ensures {failed : PrintError → Cdp → Prop} :
    Ensures (Follows done session) (ignore (call fontWait fontsReady))
      (fun _ c => Follows (done ++ [⟨fontWait, fontsReady, session⟩]) session c) failed := by
  have hrun : ∀ {c c' : Cdp} {result : Except PrintError Value}, Follows done session c →
      call fontWait fontsReady c = (result, c') →
        Follows (done ++ [⟨fontWait, fontsReady, session⟩]) session c' := by
    intro c c' result hc hcall
    obtain ⟨f, hstep, hpending, -⟩ := hc.call (by decide) hcall
    have hfollows := hpending.follows fun hmethod => absurd (congrArg Step.method hstep) hmethod
    have hsession : f.session = session := congrArg Step.session hstep
    rwa [hstep, hsession] at hfollows
  refine .ignore fun c hc => ⟨?_, ?_⟩
  · intro result c' hcall
    exact hrun hc hcall
  · intro e c' hcall
    exact hrun hc hcall

theorem awaitEvent_ne {turns : ℕ} : ∀ (c c' : Cdp) (e : PrintError),
    awaitEvent method turns c ≠ (.error e, c') := by
  induction turns with
  | zero =>
    intro c c' e h
    cases h
  | succ turns ih =>
    intro c c' e h
    unfold awaitEvent at h
    split at h
    · split at h
      · cases h
      · exact ih _ _ _ h
    · cases h
    · cases h

theorem waitEvent_ensures {failed : PrintError → Cdp → Prop} (name : String) :
    Ensures (Follows done session) (waitEvent name) (fun _ c => Follows done session c) failed := by
  intro c hc
  refine ⟨?_, ?_⟩
  · intro arrived c' h
    unfold waitEvent at h
    split at h
    · cases h
      exact hc
    · exact hc.hears (awaitEvent_hears hc.lawful h)
  · intro e c' h
    unfold waitEvent at h
    split at h
    · cases h
    · exact absurd h (awaitEvent_ne _ _ _)

theorem required_ensures {P : Cdp → Prop} {failed : PrintError → Cdp → Prop} {text : Option String}
    (message : String) (h : ∀ e c, P c → failed e c) :
    Ensures P (required message text) (fun found c => text = some found ∧ P c) failed := by
  cases text with
  | none => exact .fail fun c hc => h _ c hc
  | some found => exact .pure fun c hc => ⟨rfl, hc⟩

theorem setSession_ensures {failed : PrintError → Cdp → Prop} (session' : Option String) :
    Ensures (Follows done session) (setSession session') (fun _ c => Follows done session' c)
      failed :=
  .act fun _ hc => ⟨hc.lawful.same rfl rfl, rfl, hc.script, hc.acked⟩

/-- The plan was carried out, and the PDF is in its reply. -/
structure Printed (r : PdfRequest) (pdf : Bytes) (c : Cdp) : Prop where
  lawful : Lawful c
  script : ∃ target session frame, script c.trace = plan r target session frame
  reply : ∃ f result, f.method = "Page.printToPDF" ∧ Replied c.trace f result ∧
    pdfOf r result = .ok pdf

theorem pdf_ensures {P : Cdp → Prop} {failed : PrintError → Cdp → Prop} (printed : Value)
    (h : ∀ e c, P c → failed e c) :
    Ensures P (ofExcept (fun e => e) (pdfOf r printed))
      (fun pdf c => pdfOf r printed = .ok pdf ∧ P c) failed :=
  .ofExcept (fun _ _ hpdf hc => ⟨hpdf, hc⟩) fun e c _ hc => h e c hc

theorem detach_ensures {P : Prop} {step : Step} {result : Value} {failed : PrintError → Cdp → Prop} :
    Ensures (fun c => P ∧ Follows done session c ∧ Says step result c) (setSession none)
      (fun _ c => P ∧ Follows done none c ∧ Says step result c) failed :=
  .act fun _ ⟨hP, hc, hsays⟩ => ⟨hP, ⟨hc.lawful.same rfl rfl, rfl, hc.script, hc.acked⟩, hsays⟩

/-- The browser is told to close, and need not hear it. -/
theorem close_ensures {failed : PrintError → Cdp → Prop} {step : Step} {result : Value} {pdf : Bytes}
    (target : String) (session : Option String) (frame : String)
    (hdone : done ++ [⟨"Browser.close", .obj [], none⟩] = plan r target session frame)
    (hstep : step.method = "Page.printToPDF") :
    Ensures (fun c => pdfOf r result = .ok pdf ∧ Follows done none c ∧ Says step result c)
      (ignore (Cdp.send "Browser.close" (.obj []))) (fun _ c => Printed r pdf c) failed := by
  have hrun : ∀ {c c' : Cdp} {answer : Except PrintError ℕ},
      (pdfOf r result = .ok pdf ∧ Follows done none c ∧ Says step result c) →
        Cdp.send "Browser.close" (.obj []) c = (answer, c') → Printed r pdf c' := by
    rintro c c' answer ⟨hpdf, hc, f, hf, hreplied⟩ hsend
    obtain ⟨g, answer', hg, hpending, htrace, -⟩ := hc.send (by decide) hsend
    refine ⟨hpending.lawful, ⟨target, session, frame, ?_⟩, f, result, ?_, ?_, hpdf⟩
    · rw [hpending.script, hg, hdone]
    · exact (congrArg Step.method hf).trans hstep
    · rw [htrace]
      exact hreplied.append _
  refine .ignore fun c hc => ⟨?_, ?_⟩
  · intro answer c' hsend
    exact hrun hc hsend
  · intro e c' hsend
    exact hrun hc hsend

theorem printConnected_ensures (r : PdfRequest) :
    Ensures (Follows [] none) (printConnected r) (Printed r) (fun _ c => Planned r c) := by
  unfold printConnected
  refine (call_ensures "" none "" (by decide) (by simp [plan])).bind fun found => ?_
  refine (required_ensures "no target id" fun e c hc => hc.onPlan "" none "" (by simp [plan])).bind
    fun target => ?_
  refine ((call_ensures target none "" (by decide) (by simp [plan])).weaken fun c hc => hc.2).bind
    fun attached => ?_
  let session := (attached.get "sessionId").asStr
  refine (setSession_ensures session).bind fun _ => ?_
  refine (call_ensures target session "" (by decide) (by simp [plan])).bind fun _ => ?_
  refine (disableScripts_ensures target session "" (by simp [plan])).bind fun _ => ?_
  refine (call_ensures target session "" (by decide) (by simp [plan])).bind fun _ => ?_
  refine (call_ensures target session "" (by decide) (by simp [plan])).bind fun tree => ?_
  refine (required_ensures "no frame id" fun e c hc =>
    hc.onPlan target session "" (by simp [plan])).bind fun frame => ?_
  refine ((call_ensures target session frame (by decide) (by simp [plan])).weaken
    fun c hc => hc.2).bind fun _ => ?_
  refine (waitEvent_ensures _).bind fun _ => ?_
  refine fontWait_ensures.bind fun _ => ?_
  refine (call_replies target session frame (by decide) (by simp [plan])).bind fun printed => ?_
  refine (pdf_ensures printed fun e c hc =>
    hc.1.onPlan target session frame (by simp [plan])).bind fun pdf => ?_
  refine detach_ensures.bind fun _ => ?_
  exact (close_ensures target session frame (by simp [plan]) rfl).bind fun _ => .pure fun c hc => hc

/-! ### One document -/

theorem follows_connected (browser : Interaction.Device CdpCall.Answer) (reads : ℕ) :
    Follows [] none (connected browser reads) := by
  refine ⟨⟨.nil, fun _ h => ?_, rfl⟩, rfl, rfl, fun _ h => ?_⟩
  · cases h
  · cases h

/-- What was exchanged with a browser, whatever came of it. -/
structure Kept (r : PdfRequest) (t : List Exchange) : Prop where
  allowed : Interaction.Allowed Law t
  settled : ∀ message, t.getLast? = some (heard message) → isPaused message = false
  plan : ∃ target session frame, script t <+: plan r target session frame

theorem Lawful.kept (h : Lawful c) {target frame : String}
    (hplan : script c.trace <+: plan r target session frame) : Kept r c.trace :=
  ⟨h.allowed, h.settled, target, session, frame, hplan⟩

theorem kept_nil (r : PdfRequest) : Kept r [] :=
  ⟨.nil, fun _ h => (by cases h), "", none, "", ⟨_, rfl⟩⟩

/-- Whatever fails, it is not the start. -/
def Started {α : Type} (p : Client α) : Prop :=
  Ensures (fun _ => True) p (fun _ _ => True) (fun e _ => isStartupFailure e = false)

theorem started_pure {α : Type} (a : α) : Started (pure a : Client α) := .pure fun _ h => h

theorem started_fail {α : Type} {e : PrintError} (h : isStartupFailure e = false) :
    Started (fail e : Client α) :=
  .fail fun _ _ => h

theorem Started.bind {α β : Type} {p : Client α} {q : α → Client β} (hp : Started p)
    (hq : ∀ a, Started (q a)) : Started (p >>= q) :=
  Ensures.bind hp hq

theorem started_ofExcept {ε α : Type} {translate : ε → PrintError} {result : Except ε α}
    (h : ∀ e, result = .error e → isStartupFailure (translate e) = false) :
    Started (ofExcept translate result) :=
  .ofExcept (fun _ _ _ h => h) fun e _ he _ => h e he

theorem started_exchange (q : CdpCall) : Started (exchange q) :=
  fun _ _ => ⟨fun _ _ _ => trivial, fun _ _ h => (by cases h)⟩

theorem started_send (method : String) (params : Value) : Started (send method params) := by
  intro c _
  refine Started.bind (started_exchange _) (fun answer => ?_) _ trivial
  exact (started_ofExcept fun _ _ => rfl).bind fun _ => started_pure _

theorem started_read : Started read := by
  intro c _
  unfold read
  split
  · exact started_pure _ c trivial
  · refine Started.bind (started_exchange .read) (fun x => ?_) _ trivial
    cases x with
    | text json =>
      cases json with
      | none => exact started_fail rfl
      | some message =>
        refine Started.bind ?_ fun _ => started_pure _
        unfold intercept
        split
        · exact (started_send _ _).bind fun _ => started_pure _
        · exact started_pure _
    | other | silence => exact started_pure _
    | failed message => exact started_fail rfl

theorem started_awaitReply (method : String) (id turns : ℕ) :
    Started (awaitReply method id turns) := by
  induction turns with
  | zero => exact started_fail rfl
  | succ turns ih =>
    refine started_read.bind fun arrived => ?_
    cases arrived with
    | none => exact started_fail rfl
    | some message =>
      by_cases hid : (message.get "id").asU64 = some id
      · show Started (if _ then _ else _)
        rw [if_pos hid]
        refine started_ofExcept fun e he => ?_
        unfold outcome at he
        split at he
        · cases he
          rfl
        · cases he
      · show Started (if _ then _ else _)
        rw [if_neg hid]
        exact Started.bind (.act fun _ h => h) fun _ => ih

theorem started_call (method : String) (params : Value) : Started (call method params) :=
  (started_send method params).bind fun id c => started_awaitReply method id c.left c

theorem started_required (message : String) (text : Option String) :
    Started (required message text) := by
  cases text with
  | none => exact started_fail rfl
  | some found => exact started_pure found

theorem started_waitEvent (method : String) : Started (waitEvent method) := by
  refine fun c _ => ⟨fun _ _ _ => trivial, fun e c' h => ?_⟩
  unfold waitEvent at h
  split at h
  · cases h
  · exact absurd h (awaitEvent_ne _ _ _)

theorem started_ignore {α : Type} (p : Client α) : Started (ignore p : Client Unit) :=
  .ignore fun _ _ => ⟨fun _ _ _ => trivial, fun _ _ _ => trivial⟩

theorem started_disableScripts (r : PdfRequest) : Started (disableScripts r) := by
  unfold disableScripts
  split
  · exact started_pure ()
  · exact (started_call _ _).bind fun _ => started_pure ()

theorem pdfOf_failure {printed : Value} {e : PrintError} (h : pdfOf r printed = .error e) :
    isStartupFailure e = false := by
  unfold pdfOf at h
  split at h
  · cases h
    rfl
  · split at h
    · cases h
      rfl
    · split at h
      · cases h
        rfl
      · cases h

theorem started_printConnected (r : PdfRequest) : Started (printConnected r) := by
  unfold printConnected
  refine (started_call _ _).bind fun _ => ?_
  refine (started_required _ _).bind fun _ => ?_
  refine (started_call _ _).bind fun _ => ?_
  refine Started.bind (.act fun _ h => h) fun _ => ?_
  refine (started_call _ _).bind fun _ => ?_
  refine (started_disableScripts r).bind fun _ => ?_
  refine (started_call _ _).bind fun _ => ?_
  refine (started_call _ _).bind fun _ => ?_
  refine (started_required _ _).bind fun _ => ?_
  refine (started_call _ _).bind fun _ => ?_
  refine (started_waitEvent _).bind fun _ => ?_
  refine (started_ignore _).bind fun _ => ?_
  refine (started_call _ _).bind fun _ => ?_
  refine (started_ofExcept fun _ he => pdfOf_failure he).bind fun _ => ?_
  refine Started.bind (.act fun _ h => h) fun _ => ?_
  exact (started_ignore _).bind fun _ => started_pure _

theorem printToPdf_kept {launch : Launch} {result : Except PrintError Bytes} {t : List Exchange}
    (h : printToPdf r launch = (result, t)) : Kept r t ∧
      (∀ pdf, result = .ok pdf → ∃ c, t = c.trace ∧ Printed r pdf c) ∧
      (∀ e, result = .error e → isStartupFailure e = true → t = []) := by
  cases launch with
  | noProfile | notSpawned | stuck | unreachable message =>
    cases h
    exact ⟨kept_nil r, fun _ h => (by cases h), fun _ _ _ => rfl⟩
  | reached browser reads =>
    have hfollows := printConnected_ensures r (connected browser reads)
      (follows_connected browser reads)
    have hstarted := started_printConnected r (connected browser reads) trivial
    cases hrun : printConnected r (connected browser reads) with
    | mk result' c =>
      have hsame : (result', c.trace) = (result, t) := by
        rw [← h, printToPdf, hrun]
      cases hsame
      cases result with
      | ok pdf =>
        have hprinted := hfollows.1 pdf c hrun
        obtain ⟨target, session, frame, hscript⟩ := hprinted.script
        exact ⟨hprinted.lawful.kept ⟨[], (List.append_nil _).trans hscript⟩,
          fun _ h => ⟨c, rfl, Except.ok.inj h ▸ hprinted⟩, fun _ h => (by cases h)⟩
      | error e =>
        obtain ⟨hlawful, target, session, frame, hplan⟩ := hfollows.2 e c hrun
        refine ⟨hlawful.kept hplan, fun _ h => (by cases h), fun e' he hphase => ?_⟩
        cases he
        rw [hstarted.2 e c hrun] at hphase
        cases hphase

theorem pdfOf_eq_ok {printed : Value} {pdf : Bytes} (h : pdfOf r printed = .ok pdf) :
    pdf.length ≤ r.maxPdfBytes ∧ ∃ data, printed.get "data" = .str data ∧
      Base64.decode data.toList = some pdf := by
  unfold pdfOf at h
  cases hdata : printed.get "data" with
  | str data =>
    rw [hdata] at h
    cases hdecode : Base64.decode data.toList with
    | none =>
      simp only [Value.asStr, hdecode] at h
      cases h
    | some decoded =>
      simp only [Value.asStr, hdecode] at h
      split at h
      · cases h
      · rename_i hsize
        cases h
        exact ⟨Nat.le_of_not_lt hsize, data, rfl, hdecode⟩
  | null | bool b | num n | arr xs | obj fields =>
    rw [hdata] at h
    cases h

/-- **The plan is followed.**  Whatever a browser answers, it is sent a beginning of the plan, in
order and with numbered messages, each step once those before it have their replies; and a PDF is the
one in the reply to the last call, within the limit, after the whole of the plan. -/
theorem plan_followed {launch : Launch} {result : Except PrintError Bytes} {t : List Exchange}
    (h : printToPdf r launch = (result, t)) :
    (∃ target session frame, script t <+: plan r target session frame) ∧
      (∀ before f answer after, t = before ++ wrote f answer :: after →
        f.id = (sent before).length + 1 ∧ (f.method ≠ failRequest →
          ∀ g ∈ planned before, g.method ≠ fontWait → ∃ result, Replied before g result)) ∧
      ∀ pdf, result = .ok pdf → pdf.length ≤ r.maxPdfBytes ∧
        (∃ target session frame, script t = plan r target session frame) ∧
        ∃ f reply data, f.method = "Page.printToPDF" ∧ Replied t f reply ∧
          reply.get "data" = .str data ∧ Base64.decode data.toList = some pdf := by
  obtain ⟨⟨hallowed, -, hplan⟩, hok, -⟩ := printToPdf_kept h
  refine ⟨hplan, ?_, ?_⟩
  · intro before f answer after ht
    have hlaw := hallowed before (wrote f answer) after ht
    exact ⟨hlaw.numbered f answer rfl, hlaw.paced f answer rfl⟩
  · intro pdf hpdf
    obtain ⟨c, rfl, hprinted⟩ := hok pdf hpdf
    obtain ⟨f, reply, hmethod, hreplied, hdecoded⟩ := hprinted.reply
    obtain ⟨hsize, data, hdata, hdecode⟩ := pdfOf_eq_ok hdecoded
    exact ⟨hsize, hprinted.script, f, reply, data, hmethod, hreplied, hdata, hdecode⟩

section

/-- What a browser replies to a call. -/
def replyOf (method : String) : Value :=
  if method = "Target.createTarget" then .obj [("targetId", .str "T")]
  else if method = "Target.attachToTarget" then .obj [("sessionId", .str "S")]
  else if method = "Page.getFrameTree" then
    .obj [("frameTree", .obj [("frame", .obj [("id", .str "F")])])]
  else if method = "Page.printToPDF" then .obj [("data", .str "JVBERg==")]
  else .obj []

/-- A browser whose page asks for a picture before it is loaded. -/
def pictureBrowser : Interaction.Device CdpCall.Answer
  | _, .send _ => .ok ()
  | t, .read =>
    match t.getLast? with
    | some ⟨.send f, _⟩ =>
      if f.method = "Page.setDocumentContent" then
        .text (some (.obj [("method", .str "Fetch.requestPaused"),
          ("params", .obj [("requestId", .str "R1")])]))
      else
        match (planned t).getLast? with
        | some f => .text (some (.obj [("id", .num f.id), ("result", replyOf f.method)]))
        | none => .silence
    | _ => .text (some (.obj [("method", .str "Page.loadEventFired")]))

def letter : PdfRequest where
  html := "<p>Dear reader</p>"
  landscape := false
  paperWidth := .num 8
  paperHeight := .num 11
  marginTop := .num 1
  marginRight := .num 1
  marginBottom := .num 1
  marginLeft := .num 1
  scale := .num 1
  printBackground := true
  preferCssPageSize := false
  pageRanges := none
  header := none
  footer := none
  javascript := false
  maxPdfBytes := 100

def letterTrace : List Exchange := (printToPdf letter (.reached pictureBrowser 20)).2

theorem plan_followed_letter : ∃ target session frame f reply data,
    script letterTrace = plan letter target session frame ∧ f.method = "Page.printToPDF" ∧
      Replied letterTrace f reply ∧ reply.get "data" = .str data ∧
      Base64.decode data.toList = some [0x25, 0x50, 0x44, 0x46] := by
  have hok : (printToPdf letter (.reached pictureBrowser 20)).1.toOption =
      some [0x25, 0x50, 0x44, 0x46] := by decide +kernel
  have hpdf : (printToPdf letter (.reached pictureBrowser 20)).1 =
      .ok [0x25, 0x50, 0x44, 0x46] := by
    cases hresult : (printToPdf letter (.reached pictureBrowser 20)).1 with
    | error e =>
      rw [hresult] at hok
      cases hok
    | ok pdf =>
      rw [hresult] at hok
      exact congrArg _ (Option.some.inj hok)
  -- the run is named by its two parts: only the kernel can afford to evaluate it
  have hrun : printToPdf letter (.reached pictureBrowser 20) =
      ((printToPdf letter (.reached pictureBrowser 20)).1, letterTrace) := (Prod.eta _).symm
  obtain ⟨-, -, hprinted⟩ := plan_followed hrun
  obtain ⟨-, ⟨target, session, frame, hscript⟩, f, reply, data, hreply⟩ := hprinted _ hpdf
  exact ⟨target, session, frame, f, reply, data, hscript, hreply⟩

end

/-! ### The document -/

/-- Two ways to split a list at the one element with a key are the same. -/
theorem split_unique {α β : Type} (key : α → β) {done rest front back : List α} {x y : α}
    (h : done ++ x :: rest = front ++ y :: back) (hkey : key x = key y)
    (hfront : ∀ z ∈ front, key z ≠ key y) (hback : ∀ z ∈ back, key z ≠ key y) :
    done = front ∧ x = y := by
  rcases List.append_eq_append_iff.mp h with ⟨between, hsplit, htail⟩ | ⟨between, hsplit, htail⟩
  · cases between with
    | nil => exact ⟨(hsplit.trans (List.append_nil _)).symm, (List.cons.inj htail).1⟩
    | cons z between =>
      obtain ⟨rfl, -⟩ := List.cons.inj htail
      have hx : x ∈ front := hsplit ▸ List.mem_append_right _ List.mem_cons_self
      exact absurd hkey (hfront x hx)
  · cases between with
    | nil => exact ⟨hsplit.trans (List.append_nil _), (List.cons.inj htail).1.symm⟩
    | cons z between =>
      obtain ⟨-, htail⟩ := List.cons.inj htail
      have hx : x ∈ back := htail ▸ List.mem_append_right _ List.mem_cons_self
      exact absurd hkey (hback x hx)

def setContent : String := "Page.setDocumentContent"

/-- What has to be in force before the document is handed over. -/
def barriers (r : PdfRequest) (session : Option String) : List Step :=
  scriptsOff r session ++ [⟨"Fetch.enable", allRequests, session⟩]

/-- What is sent before the document. -/
def opening (r : PdfRequest) (target : String) (session : Option String) : List Step :=
  [⟨"Target.createTarget", .obj [("url", .str "about:blank")], none⟩,
    ⟨"Target.attachToTarget", .obj [("targetId", .str target), ("flatten", .bool true)], none⟩,
    ⟨"Page.enable", .obj [], session⟩] ++
  (barriers r session ++ [⟨"Page.getFrameTree", .obj [], session⟩])

theorem mem_barriers {barrier : Step} (h : barrier ∈ barriers r session) :
    barrier.method = "Emulation.setScriptExecutionDisabled" ∨ barrier.method = "Fetch.enable" := by
  rcases List.mem_append.mp h with h | h
  · unfold scriptsOff at h
    split at h
    · cases h
    · exact .inl (congrArg Step.method (List.mem_singleton.mp h))
  · exact .inr (congrArg Step.method (List.mem_singleton.mp h))

theorem opening_method {target : String} {step : Step} (h : step ∈ opening r target session) :
    step.method ≠ setContent := by
  rcases List.mem_append.mp h with h | h
  · simp only [List.mem_cons, List.not_mem_nil, or_false] at h
    have hmethod :
        step.method ∈ ["Target.createTarget", "Target.attachToTarget", "Page.enable"] := by
      rcases h with rfl | rfl | rfl
      · exact List.mem_cons_self
      · exact List.mem_cons_of_mem _ List.mem_cons_self
      · exact List.mem_cons_of_mem _ (List.mem_cons_of_mem _ List.mem_cons_self)
    exact fun heq => absurd (heq ▸ hmethod) (by decide)
  · rcases List.mem_append.mp h with h | h
    · rcases mem_barriers h with h | h <;> (rw [h]; decide)
    · have hmethod : step.method = "Page.getFrameTree" :=
        congrArg Step.method (List.mem_singleton.mp h)
      rw [hmethod]
      decide

/-- What is sent before the document is known. -/
theorem opening_of_content {target frame : String} {step : Step}
    (hplan : done ++ [step] <+: plan r target session frame) (hmethod : step.method = setContent) :
    done = opening r target session ∧ step.session = session := by
  obtain ⟨rest, hrest⟩ := hplan
  let document : Step :=
    ⟨setContent, .obj [("frameId", .str frame), ("html", .str r.html)], session⟩
  have hsplit : done ++ step :: rest = opening r target session ++ document ::
      [⟨fontWait, fontsReady, session⟩, ⟨"Page.printToPDF", r.params, session⟩,
        ⟨"Browser.close", .obj [], none⟩] := by
    rw [List.append_assoc] at hrest
    refine hrest.trans ?_
    simp [plan, opening, barriers, document, setContent]
  obtain ⟨hdone, hstep⟩ := split_unique Step.method hsplit hmethod
    (fun step h => opening_method h) (by simp [document, setContent, fontWait])
  exact ⟨hdone, congrArg Step.session hstep⟩

/-- A request that is held is failed at once. -/
theorem Kept.blocked {t : List Exchange} (h : Kept r t) (before : List Exchange) (message : Value)
    (after : List Exchange) (ht : t = before ++ heard message :: after)
    (hpaused : isPaused message = true) : ∃ f answer after', after = wrote f answer :: after' ∧
      f.method = failRequest ∧ f.params = Cdp.blocked message := by
  cases after with
  | nil =>
    have hlast : t.getLast? = some (heard message) := by rw [ht, List.getLast?_concat]
    rw [h.settled message hlast] at hpaused
    cases hpaused
  | cons x after =>
    have hlaw := h.allowed (before ++ [heard message]) x after (by simp [ht])
    obtain ⟨f, answer, rfl, hmethod, hparams⟩ := hlaw.blocks message List.getLast?_concat hpaused
    exact ⟨f, answer, after, rfl, hmethod, hparams⟩

theorem Kept.isolated {t : List Exchange} (h : Kept r t) (before : List Exchange) (f : Frame)
    (answer : Except String Unit) (after : List Exchange) (ht : t = before ++ wrote f answer :: after)
    (hmethod : f.method = setContent) : ∀ barrier ∈ barriers r f.session, ∃ g result,
      g.step = barrier ∧ Replied before g result := by
  intro barrier hbarrier
  have hnot : f.method ≠ failRequest := by
    rw [hmethod]
    decide
  obtain ⟨target, session, frame, hplan⟩ := h.plan
  have hscript : script t = script before ++ [f.step] ++ script after := by
    have hlist : t = before ++ [wrote f answer] ++ after := by rw [ht, List.append_assoc]; rfl
    rw [hlist, script, planned_append, planned_append, planned_wrote answer hnot, List.map_append,
      List.map_append]
    rfl
  have hprefix : script before ++ [f.step] <+: Cdp.plan r target session frame :=
    List.IsPrefix.trans ⟨script after, hscript.symm⟩ hplan
  obtain ⟨hdone, hsession⟩ := opening_of_content hprefix hmethod
  have hmem : barrier ∈ script before := by
    rw [hdone]
    refine List.mem_append_right _ (List.mem_append_left _ ?_)
    have hsame : f.session = session := hsession
    rwa [← hsame]
  obtain ⟨g, hg, rfl⟩ := List.mem_map.mp hmem
  have hwaited : g.method ≠ fontWait := by
    rcases mem_barriers hbarrier with hg | hg
    · exact fun hwait => absurd (hg.symm.trans hwait) (by decide)
    · exact fun hwait => absurd (hg.symm.trans hwait) (by decide)
  obtain ⟨result, hresult⟩ :=
    (h.allowed before (wrote f answer) after ht).paced f answer rfl hnot g hg hwaited
  exact ⟨g, result, rfl, hresult⟩

/-- **The page is kept apart.**  A document is handed to one browser at most: a second one is
started only if the first failed to start, and was sent nothing.  It is handed over once every
request of the page will be held, and scripts are off unless they are allowed; and a request that is
held is failed at once. -/
theorem page_isolated {first second : Launch} {expired : Bool} {result : Except PrintError Bytes}
    {traces : List (List Exchange)} (h : renderHtml r first second expired = (result, traces)) :
    traces.length ≤ 2 ∧ (∀ t ∈ traces.dropLast, t = []) ∧
      (1 < traces.length → expired = false ∧ ∃ e, printToPdf r first = (.error e, []) ∧
        isStartupFailure e = true) ∧
      ∀ t ∈ traces,
      (∀ before message after, t = before ++ heard message :: after → isPaused message = true →
        ∃ f answer after', after = wrote f answer :: after' ∧ f.method = failRequest ∧
          f.params = blocked message) ∧
      ∀ before f answer after, t = before ++ wrote f answer :: after → f.method = setContent →
        ∀ barrier ∈ barriers r f.session, ∃ g result, g.step = barrier ∧
          Replied before g result := by
  suffices hkept : traces.length ≤ 2 ∧ (∀ t ∈ traces.dropLast, t = []) ∧
      (1 < traces.length → expired = false ∧ ∃ e, printToPdf r first = (.error e, []) ∧
        isStartupFailure e = true) ∧ ∀ t ∈ traces, Kept r t by
    obtain ⟨hfew, hempty, hfailed, hkept⟩ := hkept
    exact ⟨hfew, hempty, hfailed, fun t ht => ⟨(hkept t ht).blocked, (hkept t ht).isolated⟩⟩
  unfold renderHtml at h
  cases hfirst : printToPdf r first with
  | mk result' t =>
    obtain ⟨hkept, -, hstart⟩ := printToPdf_kept hfirst
    rw [hfirst] at h
    -- one browser only: nothing is said about a second
    have hone : ∀ t' ∈ [t], Kept r t' := fun t' ht' => List.mem_singleton.mp ht' ▸ hkept
    have hnone : ∀ t' ∈ [t].dropLast, t' = [] := fun _ h => by cases h
    cases result' with
    | ok pdf =>
      cases h
      exact ⟨Nat.le_succ 1, hnone, fun htwo => absurd htwo (Nat.lt_irrefl 1), hone⟩
    | error e =>
      by_cases hretry : (isStartupFailure e && !expired) = true
      · cases hsecond : printToPdf r second with
        | mk result'' t' =>
          have hsame : (result'', [t, t']) = (result, traces) := by
            rw [← h, hsecond]
            exact (if_pos hretry).symm
          cases hsame
          obtain ⟨hphase, hintime⟩ := Bool.and_eq_true_iff.mp hretry
          obtain rfl : t = [] := hstart e rfl hphase
          refine ⟨Nat.le_refl 2, ?_, ?_, ?_⟩
          · exact fun t'' ht'' => List.mem_singleton.mp ht''
          · exact fun _ => ⟨by simpa using hintime, e, rfl, hphase⟩
          · intro t'' ht''
            rcases List.mem_cons.mp ht'' with rfl | ht''
            · exact hkept
            · exact List.mem_singleton.mp ht'' ▸ (printToPdf_kept hsecond).1
      · have hsame : (.error e, [t]) = (result, traces) := by
          rw [← h]
          exact (if_neg hretry).symm
        cases hsame
        exact ⟨Nat.le_succ 1, hnone, fun htwo => absurd htwo (Nat.lt_irrefl 1), hone⟩

/-- A browser that does not start is replaced. -/
theorem renderHtml_stuck (r : PdfRequest) (second : Launch) :
    renderHtml r .stuck second false =
      ((printToPdf r second).1, [[], (printToPdf r second).2]) := rfl

/-- The first browser does not start; the document reaches the second one. -/
theorem page_isolated_letter : ∃ result t,
    renderHtml letter .stuck (.reached pictureBrowser 20) false = (result, [[], t]) ∧
      (∃ e, printToPdf letter .stuck = (.error e, []) ∧ isStartupFailure e = true) ∧
      (sent t).any (fun f => f.method = setContent) = true ∧
      (sent t).any (fun f => f.method = failRequest) = true ∧
      ∀ before f answer after, t = before ++ wrote f answer :: after → f.method = setContent →
        ∀ barrier ∈ barriers letter f.session, ∃ g result, g.step = barrier ∧
          Replied before g result := by
  have hrun : renderHtml letter .stuck (.reached pictureBrowser 20) false =
      ((printToPdf letter (.reached pictureBrowser 20)).1, [[], letterTrace]) :=
    renderHtml_stuck letter _
  obtain ⟨-, -, hfailed, hkept⟩ := page_isolated hrun
  exact ⟨_, letterTrace, hrun, (hfailed (Nat.lt_succ_self 1)).2, by decide +kernel,
    by decide +kernel, (hkept letterTrace (List.mem_cons_of_mem _ List.mem_cons_self)).2⟩

end Cdp

end KilnPrint
