/-
Status queries and jobs on one printer.

* `Tcp.Progress`, `Tcp.discipline` — how far a call of the provider has come, and the
  order of what it does;
* `submit_follows`, `deviceStatus_follows` — **the two methods keep to that order**;
* `Tcp.step` — any number of calls side by side, each lock section and each call on a
  connection a step of its own;
* `Moves`, `call_moves` — what one step of a call does;
* `Apart`, `Apart.step` — **the invariant**: a job that is connected has the printer
  marked, and no query of the printer has passed its check;
* `status_excluded` — **the statement for the provider**;
* `status_overlap` — a query that has found the printer idle connects beside a job.
-/
import KilnPrint.Lib.FinMap
import KilnPrint.Lib.Runs
import KilnPrint.Provider.Status

namespace KilnPrint

namespace Tcp

open Typestate

/-! ### The order of the calls -/

/-- The two methods that open connections. -/
inductive Method
  | job
  | query
  deriving DecidableEq, Repr

/-- How far a call has come. -/
structure Progress where
  /-- The job is marked, or the query has found the printer neither busy nor fresh. -/
  passed : Bool
  /-- Its connection is open. -/
  connected : Bool
  deriving DecidableEq, Repr

def StreamCall.progress (p : Progress) : (call : StreamCall) → call.Answer → Progress
  | .connectTimeout .., .ok () => { p with connected := true }
  | _, _ => p

def Call.progress (p : Progress) : (call : Call) → call.Answer → Progress
  | .stream call, answer => call.progress p answer
  | .close, _ => { p with connected := false }
  | .setBusy _ busy, _ => { p with passed := busy }
  | .cached _, answer => { p with passed := answer.isNone }
  | .remember .., _ => { p with passed := false }
  | _, _ => p

/-- A connection is opened before anything else is done on it. -/
def connecting : Discipline StreamCall.Answer Progress where
  allowed p call := p = ⟨true, match call with
    | .toSocketAddrs .. | .connectTimeout .. => false
    | _ => true⟩
  after := StreamCall.progress

/-- The order of the calls of a method, on the printer of that name. -/
def discipline (method : Method) (name : String) : Discipline Call.Answer Progress where
  allowed p call :=
    match call with
    | .stream call => connecting.allowed p call
    | .setReadTimeout _ | .read _ | .readExact _ | .close => p = ⟨true, true⟩
    | .setBusy name' busy => method = .job ∧ name' = name ∧ p = ⟨!busy, false⟩
    | .cached name' => method = .query ∧ name' = name ∧ p = ⟨false, false⟩
    | .remember name' _ => method = .query ∧ name' = name ∧ p = ⟨true, false⟩
  after := Call.progress

theorem Follows.attempt {Q P ε ε' α β : Type} {A : Q → Type} {D : Discipline A P} {p : P}
    {m : Script A (Except ε α)} {f : ε → ε'} {next : α → Script A (Except ε' β)}
    {mid : P → Except ε α → Prop} {post : P → Except ε' β → Prop} (hm : m.Follows D mid p)
    (hok : ∀ p a, mid p (.ok a) → (next a).Follows D post p)
    (herror : ∀ p e, mid p (.error e) → post p (.error (f e))) :
    (Tcp.attempt m f next).Follows D post p := by
  refine hm.bind ?_
  intro p r hr
  cases r with
  | ok a => exact hok p a hr
  | error e => exact herror p e hr

/-- The connection is open exactly where `connect` succeeds. -/
def Connected {ε α : Type} (p : Progress) (result : Except ε α) : Prop := p = ⟨true, result.isOk⟩

/-- The connection stays open. -/
def StillOpen {α : Type} (p : Progress) (_ : α) : Prop := p = ⟨true, true⟩

theorem connectFirst_follows (timeout : ℕ) (addresses : List SocketAddr) (last : IoError) :
    (Scripted.connectFirst timeout addresses last).Follows connecting Connected ⟨true, false⟩ := by
  induction addresses generalizing last with
  | nil => rfl
  | cons address rest ih =>
    refine ⟨rfl, ?_⟩
    intro answer
    cases answer with
    | ok _ => rfl
    | error e => exact ih e

theorem connect_follows (config : TcpPrinterConfig) (timeout : ℕ) :
    (Scripted.connect config timeout).Follows connecting Connected ⟨true, false⟩ := by
  refine ⟨rfl, ?_⟩
  intro answer
  cases answer with
  | ok addresses => exact connectFirst_follows timeout addresses _
  | error e => rfl

theorem writeAll_follows (data : Bytes) :
    (Scripted.writeAll data).Follows connecting StillOpen ⟨true, true⟩ := by
  induction hlength : data.length using Nat.strong_induction_on generalizing data with
  | _ length ih =>
    rw [Scripted.writeAll]
    split
    · rfl
    · next hdata =>
      refine ⟨rfl, ?_⟩
      intro answer
      cases answer with
      | error e => rfl
      | ok written =>
        show Script.Follows _ _ _ (if written.val = 0 then _ else _)
        split
        · rfl
        · have hpos : 0 < data.length := List.length_pos_iff.mpr hdata
          refine ih _ ?_ _ rfl
          rw [List.length_drop]
          omega

/-- A step on an open connection. -/
theorem ask_follows (call : StreamCall) (hallowed : connecting.allowed ⟨true, true⟩ call)
    (hafter : ∀ answer, connecting.after ⟨true, true⟩ call answer = ⟨true, true⟩) :
    (Script.ask call).Follows connecting StillOpen ⟨true, true⟩ :=
  ⟨hallowed, hafter⟩

theorem send_follows (config : TcpPrinterConfig) (data : Bytes) (copies : ℕ) :
    (Scripted.send config data copies).Follows connecting StillOpen ⟨true, true⟩ := by
  have hcopies : ∀ copies, (Scripted.writeCopies config data copies).Follows connecting StillOpen
      ⟨true, true⟩ := by
    intro copies
    induction copies with
    | zero => rfl
    | succ copies ih =>
      refine Follows.attempt (writeAll_follows data) ?_ fun p e h => h
      rintro p a rfl
      exact ih
  refine Follows.attempt (ask_follows .setNodelay rfl fun _ => rfl) ?_ fun p e h => h
  rintro p a rfl
  refine Follows.attempt (ask_follows (.setWriteTimeout _) rfl fun _ => rfl) ?_ fun p e h => h
  rintro p a rfl
  refine Follows.attempt (hcopies copies) ?_ fun p e h => h
  rintro p a rfl
  refine Follows.attempt (ask_follows .flush rfl fun _ => rfl) ?_ fun p e h => h
  rintro p a rfl
  exact ⟨rfl, fun _ => ⟨rfl, fun _ => rfl⟩⟩

variable {method : Method} {name : String}

theorem onStream_follows {α : Type} {m : Script StreamCall.Answer α} {post : Progress → α → Prop}
    {p : Progress} (h : m.Follows connecting post p) :
    (Scripted.onStream m).Follows (discipline method name) post p :=
  Script.Follows.lift (fun _ _ hallowed => hallowed) (fun _ _ _ => rfl) h

/-- The connection is closed, and the printer still marked. -/
def Closed {α : Type} (p : Progress) (_ : α) : Prop := p = ⟨true, false⟩

/-- The call is over. -/
def Over {α : Type} (p : Progress) (_ : α) : Prop := p = ⟨false, false⟩

theorem deliver_follows (config : TcpPrinterConfig) (data : Bytes) (copies : ℕ) :
    (Scripted.deliver config data copies).Follows (discipline method name) Closed
      ⟨true, false⟩ := by
  refine (onStream_follows (connect_follows config _)).bind ?_
  rintro p r rfl
  cases r with
  | error e => rfl
  | ok _ =>
    refine (onStream_follows (send_follows config data copies)).bind ?_
    rintro p r rfl
    exact ⟨rfl, fun _ => rfl⟩

/-- **A submission marks the printer, delivers, and takes the mark away.** -/
theorem submit_follows (printers : List TcpPrinterConfig) (printer : Printer) (spec : SubmitSpec) :
    (Scripted.submit printers printer spec).Follows (discipline .job printer.name) Over
      ⟨false, false⟩ := by
  unfold Scripted.submit
  cases hconfig : configOf printers printer with
  | error e => rfl
  | ok config =>
    have hname : config.name = printer.name := by
      unfold configOf at hconfig
      split at hconfig
      · next found hfound =>
        obtain rfl := Except.ok.inj hconfig
        have hfind := List.find?_some hfound
        simpa using hfind
      · cases hconfig
    cases spec.payload with
    | raw bytes kind =>
      refine ⟨⟨rfl, hname, rfl⟩, ?_⟩
      intro _
      refine (deliver_follows config bytes spec.copies).bind ?_
      rintro p r rfl
      exact ⟨⟨rfl, hname, rfl⟩, fun _ => rfl⟩
    | _ => rfl

theorem readHostStatus_follows (response : Bytes) :
    (Scripted.readHostStatus response).Follows (discipline method name) StillOpen
      ⟨true, true⟩ := by
  induction hlength : 4097 - response.length using Nat.strong_induction_on
    generalizing response with
  | _ length ih =>
    rw [Scripted.readHostStatus]
    split
    · rfl
    · refine ⟨rfl, ?_⟩
      intro answer
      cases answer with
      | error e => rfl
      | ok data =>
        obtain ⟨data, hdata⟩ := data
        show Script.Follows _ _ _ (if data = [] then _ else _)
        split
        · rfl
        · next hne =>
          have hpos : 0 < data.length := List.length_pos_iff.mpr hne
          split
          · rfl
          · next hle =>
            rw [List.length_append] at hle
            refine ih _ ?_ _ rfl
            rw [List.length_append]
            omega

theorem askEscpos_follows (queries : List Bytes) (answers : Bytes) :
    (Scripted.askEscpos queries answers).Follows (discipline method name) StillOpen
      ⟨true, true⟩ := by
  induction queries generalizing answers with
  | nil =>
    unfold Scripted.askEscpos
    split
    · rfl
    · rfl
    · next heq => cases heq
  | cons query rest ih =>
    refine (onStream_follows (writeAll_follows query)).bind ?_
    rintro p r rfl
    cases r with
    | error e => rfl
    | ok _ =>
      refine ⟨rfl, ?_⟩
      intro answer
      cases answer with
      | error e => rfl
      | ok byte => exact ih _

theorem converse_follows (config : TcpPrinterConfig) :
    (Scripted.converse config).Follows (discipline method name) StillOpen ⟨true, true⟩ := by
  unfold Scripted.converse
  generalize config.statusQuery = query
  refine ⟨rfl, ?_⟩
  intro answer
  cases answer with
  | error e => rfl
  | ok _ =>
    refine ⟨rfl, ?_⟩
    intro answer
    cases answer with
    | error e => rfl
    | ok _ =>
      cases query with
      | none => rfl
      | escPos => exact askEscpos_follows _ _
      | zpl =>
        refine (onStream_follows (writeAll_follows _)).bind ?_
        rintro p r rfl
        cases r with
        | error e => rfl
        | ok _ =>
          refine (readHostStatus_follows []).bind ?_
          rintro p r rfl
          rfl

theorem queryStatus_follows (config : TcpPrinterConfig) :
    (Scripted.queryStatus config).Follows (discipline method name) Closed ⟨true, false⟩ := by
  refine (onStream_follows (connect_follows _ _)).bind ?_
  rintro p r rfl
  cases r with
  | error e => rfl
  | ok _ =>
    refine (converse_follows config).bind ?_
    rintro p r rfl
    exact ⟨rfl, fun _ => rfl⟩

/-- **A query looks at what is remembered, asks the printer, and remembers the answer.** -/
theorem deviceStatus_follows (config : TcpPrinterConfig) :
    (Scripted.deviceStatus config).Follows (discipline .query config.name) Over
      ⟨false, false⟩ := by
  unfold Scripted.deviceStatus
  split
  · rfl
  · refine ⟨⟨rfl, rfl, rfl⟩, ?_⟩
    intro answer
    cases answer with
    | some status => rfl
    | none =>
      refine (queryStatus_follows config).bind ?_
      rintro p r rfl
      exact ⟨⟨rfl, rfl, rfl⟩, fun _ => rfl⟩

/-! ### Calls side by side -/

/-- What the provider remembers of a printer. -/
structure Runtime where
  /-- A job is being written; status queries would compete for the port. -/
  busy : Bool := false
  status : Option (ℕ × Option DeviceStatus) := none

/-- In milliseconds. -/
def statusTtl : ℕ := 10000

def setBusy (runtime : FinMap String Runtime) (name : String) (busy : Bool) :
    FinMap String Runtime :=
  let entry := (runtime.lookup name).getD {}
  -- a finished job says more about reachability than a stale status
  runtime.insert name ⟨busy, if busy then entry.status else none⟩

/-- What `device_status` returns without a query. -/
def cached (runtime : FinMap String Runtime) (now : ℕ) (name : String) :
    Option (Option DeviceStatus) :=
  (runtime.lookup name).bind fun entry =>
    let fresh := entry.status.any fun (at_, _) => now - at_ < statusTtl
    if entry.busy || fresh then some (entry.status.bind (·.2)) else none

def remember (runtime : FinMap String Runtime) (now : ℕ) (name : String)
    (status : Option DeviceStatus) : FinMap String Runtime :=
  let entry := (runtime.lookup name).getD {}
  runtime.insert name { entry with status := some (now, status) }

/-- Answers a call: a lock section from what is remembered, any other from outside. -/
def perform (runtime : FinMap String Runtime) (now : ℕ) (outside : (call : Call) → call.Answer) :
    (call : Call) → call.Answer × FinMap String Runtime
  | .setBusy name busy => ((), setBusy runtime name busy)
  | .cached name => (cached runtime now name, runtime)
  | .remember name status => ((), remember runtime now name status)
  | call => (outside call, runtime)

/-- A call of `submit` or `device_status`, as far as it has come. -/
structure Running where
  method : Method
  /-- The name of its printer. -/
  name : String
  progress : Progress
  code : Script Call.Answer Unit

structure ProviderState where
  runtime : FinMap String Runtime := ∅
  calls : FinMap ℕ Running := ∅

inductive ProviderAction
  | submit (t : ℕ) (printer : Printer) (spec : SubmitSpec)
  | deviceStatus (t : ℕ) (config : TcpPrinterConfig)
  | run (t : ℕ) (now : ℕ) (outside : (call : Call) → call.Answer)

def ProviderState.begin (s : ProviderState) (t : ℕ) (method : Method) (name : String) {α : Type}
    (code : Script Call.Answer α) : Option ProviderState :=
  if (s.calls.lookup t).isNone then
    some { s with calls := s.calls.insert t ⟨method, name, ⟨false, false⟩, code >>= fun _ => .done ()⟩ }
  else none

/-- **One step of one call**, or a new call. -/
def providerStep (printers : List TcpPrinterConfig) (s : ProviderState) :
    ProviderAction → Option ProviderState
  | .submit t printer spec =>
    s.begin t .job printer.name (Scripted.submit printers printer spec)
  | .deviceStatus t config => s.begin t .query config.name (Scripted.deviceStatus config)
  | .run t now outside =>
    match s.calls.lookup t with
    | some ⟨method, name, progress, .call call next⟩ =>
      let (answer, runtime) := perform s.runtime now outside call
      some {
        runtime := runtime
        calls := s.calls.insert t ⟨method, name, call.progress progress answer, next answer⟩ }
    | _ => none

/-- No job's connection is open beside a query's. -/
def ProviderState.Exclusive (s : ProviderState) : Prop :=
  ∀ t u c c', s.calls.lookup t = some c → s.calls.lookup u = some c' → c.method = .job →
    c'.method = .query → c.name = c'.name → c.progress.connected = true →
    c'.progress.connected = false

/-- No call of the method on that printer has passed its check and is under way. -/
def ProviderState.Idle (s : ProviderState) (method : Method) (name : String) : Prop :=
  ∀ c ∈ s.calls.values, c.method = method → c.name = name → c.progress.passed = false

instance (s : ProviderState) (method : Method) (name : String) : Decidable (s.Idle method name) :=
  inferInstanceAs (Decidable (∀ c ∈ s.calls.values, _))

/-- The call is about to mark its printer. -/
def Running.marks (c : Running) : Bool :=
  match c.code with
  | .call (.setBusy _ true) _ => true
  | _ => false

/-- The call is about to be connected. -/
def Running.connects (c : Running) (outside : (call : Call) → call.Answer) : Bool :=
  match c.code with
  | .call (.stream (.connectTimeout address timeout)) _ =>
    (outside (.stream (.connectTimeout address timeout))).isOk
  | _ => false

/-- **No query that found the printer idle is under way when a job connects, and
submissions to one printer do not overlap.** -/
def Undisturbed (s : ProviderState) : ProviderAction → Prop
  | .run t _ outside => ∀ c ∈ s.calls.lookup t, c.method = .job →
      (c.marks = true → s.Idle .job c.name) ∧ (c.connects outside = true → s.Idle .query c.name)
  | _ => True

instance (s : ProviderState) (a : ProviderAction) : Decidable (Undisturbed s a) :=
  match a with
  | .run t _ _ => inferInstanceAs (Decidable (∀ c ∈ s.calls.lookup t, _))
  | .submit .. | .deviceStatus .. => .isTrue trivial

/-! ### What a step of a call does -/

/-- What a call does to its progress and to what is remembered of its printer. -/
inductive Moves (runtime : FinMap String Runtime) (outside : (call : Call) → call.Answer)
    (method : Method) (name : String) (call : Call) :
    Progress → Progress → FinMap String Runtime → Prop
  | marks (hmethod : method = .job) (hcall : call = .setBusy name true) :
      Moves runtime outside method name call ⟨false, false⟩ ⟨true, false⟩ (setBusy runtime name true)
  | clears (hmethod : method = .job) :
      Moves runtime outside method name call ⟨true, false⟩ ⟨false, false⟩ (setBusy runtime name false)
  | finds (hmethod : method = .query)
      (hidle : ∀ entry, runtime.lookup name = some entry → entry.busy = false) :
      Moves runtime outside method name call ⟨false, false⟩ ⟨true, false⟩ runtime
  | remembers (hmethod : method = .query) (now : ℕ) (status : Option DeviceStatus) :
      Moves runtime outside method name call ⟨true, false⟩ ⟨false, false⟩
        (remember runtime now name status)
  | connects {address : SocketAddr} {timeout : ℕ}
      (hcall : call = .stream (.connectTimeout address timeout))
      (hok : (outside (.stream (.connectTimeout address timeout))).isOk = true) :
      Moves runtime outside method name call ⟨true, false⟩ ⟨true, true⟩ runtime
  | stays (p : Progress) : Moves runtime outside method name call p p runtime
  | closes : Moves runtime outside method name call ⟨true, true⟩ ⟨true, false⟩ runtime

theorem call_moves {runtime : FinMap String Runtime} {now : ℕ}
    {outside : (call : Call) → call.Answer} {call : Call} {p : Progress}
    (h : (discipline method name).allowed p call) :
    Moves runtime outside method name call p (call.progress p (perform runtime now outside call).1)
      (perform runtime now outside call).2 := by
  cases call with
  | stream call =>
    obtain rfl : p = _ := h
    cases call with
    | connectTimeout address timeout =>
      show Moves _ _ _ _ _ _ (StreamCall.progress _ (.connectTimeout address timeout)
        (outside (.stream (.connectTimeout address timeout)))) _
      cases houtside : outside (.stream (.connectTimeout address timeout)) with
      | ok _ => exact .connects rfl (by rw [houtside]; rfl)
      | error e => exact .stays _
    | _ => exact .stays _
  | setReadTimeout | read | readExact => exact .stays _
  | close =>
    obtain rfl : p = _ := h
    exact .closes
  | setBusy name' busy =>
    obtain ⟨rfl, rfl, rfl⟩ := h
    cases busy with
    | true => exact .marks rfl rfl
    | false => exact .clears rfl
  | cached name' =>
    obtain ⟨rfl, rfl, rfl⟩ := h
    show Moves _ _ _ _ _ _ ⟨(cached runtime now name').isNone, false⟩ _
    cases hcached : cached runtime now name' with
    | some status => exact .stays _
    | none =>
      refine .finds rfl ?_
      intro entry hentry
      rw [cached, hentry] at hcached
      by_contra hbusy
      have hbusy : entry.busy = true := by simpa using hbusy
      simp [hbusy] at hcached
  | remember name' status =>
    obtain ⟨rfl, rfl, rfl⟩ := h
    exact .remembers rfl now status

/-! ### The invariant -/

variable {printers : List TcpPrinterConfig} {s s' : ProviderState} {a : ProviderAction}

theorem busy_setBusy (runtime : FinMap String Runtime) (name other : String) (busy : Bool) :
    ((setBusy runtime name busy).lookup other).map (·.busy) =
      if other = name then some busy else (runtime.lookup other).map (·.busy) := by
  rw [setBusy, FinMap.lookup_insert_ite]
  split <;> rfl

theorem busy_remember (runtime : FinMap String Runtime) (now : ℕ) (name other : String)
    (status : Option DeviceStatus) (h : (runtime.lookup other).map (·.busy) = some true) :
    ((remember runtime now name status).lookup other).map (·.busy) = some true := by
  rw [remember, FinMap.lookup_insert_ite]
  split
  · next heq =>
    subst heq
    cases hentry : runtime.lookup other with
    | none =>
      rw [hentry] at h
      cases h
    | some entry =>
      rw [hentry] at h
      exact h
  · exact h

theorem ProviderState.Idle.of_lookup {u : ℕ} {c : Running} (h : s.Idle method name)
    (hu : s.calls.lookup u = some c) (hmethod : c.method = method) (hname : c.name = name) :
    c.progress.passed = false :=
  h c (FinMap.mem_values.mpr ⟨u, hu⟩) hmethod hname

/-- A step is a new call, or a step of one call. -/
inductive ProviderStep (printers : List TcpPrinterConfig) (s : ProviderState)
    (a : ProviderAction) (s' : ProviderState) : Prop
  | begins (t : ℕ) (c : Running) (hprogress : c.progress = ⟨false, false⟩)
      (hfollows : c.code.Follows (discipline c.method c.name) Over c.progress)
      (hs : s' = { s with calls := s.calls.insert t c })
  | runs (t now : ℕ) (outside : (call : Call) → call.Answer) (method : Method) (name : String)
      (progress : Progress) (call : Call) (next : call.Answer → Script Call.Answer Unit)
      (ha : a = .run t now outside)
      (hold : s.calls.lookup t = some ⟨method, name, progress, .call call next⟩)
      (hs : s' = {
        runtime := (perform s.runtime now outside call).2
        calls := s.calls.insert t ⟨method, name,
          call.progress progress (perform s.runtime now outside call).1,
          next (perform s.runtime now outside call).1⟩ })

theorem begin_step {t : ℕ} {α : Type} {code : Script Call.Answer α}
    (h : s.begin t method name code = some s')
    (hfollows : code.Follows (discipline method name) Over ⟨false, false⟩) :
    ProviderStep printers s a s' := by
  unfold ProviderState.begin at h
  split at h
  · refine .begins t _ rfl ?_ (Option.some.inj h).symm
    exact hfollows.bind fun _ _ hover => hover
  · cases h

theorem provider_step (h : providerStep printers s a = some s') : ProviderStep printers s a s' := by
  cases a with
  | submit t printer spec => exact begin_step h (submit_follows printers printer spec)
  | deviceStatus t config => exact begin_step h (deviceStatus_follows config)
  | run t now outside =>
    simp only [providerStep] at h
    split at h
    · next method name progress call next hold =>
      exact .runs t now outside method name progress call next rfl hold (Option.some.inj h).symm
    · cases h

/-- Jobs and queries keep apart: a job under way has the printer marked and has it alone,
and while it is connected no query has passed its check. -/
structure Apart (s : ProviderState) : Prop where
  follows : ∀ t c, s.calls.lookup t = some c →
    c.code.Follows (discipline c.method c.name) Over c.progress
  entered : ∀ t c, s.calls.lookup t = some c → c.progress.connected = true →
    c.progress.passed = true
  marked : ∀ t c, s.calls.lookup t = some c → c.method = .job → c.progress.passed = true →
    (s.runtime.lookup c.name).map (·.busy) = some true
  alone : ∀ t u c c', s.calls.lookup t = some c → s.calls.lookup u = some c' →
    c.method = .job → c'.method = .job → c.name = c'.name → c.progress.passed = true →
    c'.progress.passed = true → t = u
  apart : ∀ t u c c', s.calls.lookup t = some c → s.calls.lookup u = some c' →
    c.method = .job → c'.method = .query → c.name = c'.name → c.progress.connected = true →
    c'.progress.passed = false

namespace Apart

theorem started : Apart {} := by
  constructor <;> intro t <;> intros <;> contradiction

theorem begins {t : ℕ} {c : Running} (h : Apart s) (hprogress : c.progress = ⟨false, false⟩)
    (hfollows : c.code.Follows (discipline c.method c.name) Over c.progress) :
    Apart { s with calls := s.calls.insert t c } := by
  -- the new call has not passed its check
  have hlookup : ∀ u c', (s.calls.insert t c).lookup u = some c' →
      (c'.progress = ⟨false, false⟩ ∧ c' = c) ∨ s.calls.lookup u = some c' := by
    intro u c' hu
    rw [FinMap.lookup_insert_ite] at hu
    split at hu
    · obtain rfl := Option.some.inj hu
      exact .inl ⟨hprogress, rfl⟩
    · exact .inr hu
  refine ⟨?_, ?_, ?_, ?_, ?_⟩
  · intro u c' hu
    rcases hlookup u c' hu with ⟨-, rfl⟩ | hold
    · exact hfollows
    · exact h.follows u c' hold
  · intro u c' hu hconnected
    rcases hlookup u c' hu with ⟨hnew, -⟩ | hold
    · rw [hnew] at hconnected
      cases hconnected
    · exact h.entered u c' hold hconnected
  · intro u c' hu hjob hpassed
    rcases hlookup u c' hu with ⟨hnew, -⟩ | hold
    · rw [hnew] at hpassed
      cases hpassed
    · exact h.marked u c' hold hjob hpassed
  · intro u v c₁ c₂ hu hv hjob hjob' hname hpassed hpassed'
    rcases hlookup u c₁ hu with ⟨hnew, -⟩ | hold
    · rw [hnew] at hpassed
      cases hpassed
    · rcases hlookup v c₂ hv with ⟨hnew, -⟩ | hold'
      · rw [hnew] at hpassed'
        cases hpassed'
      · exact h.alone u v c₁ c₂ hold hold' hjob hjob' hname hpassed hpassed'
  · intro u v c₁ c₂ hu hv hjob hquery hname hconnected
    rcases hlookup u c₁ hu with ⟨hnew, -⟩ | hold
    · rw [hnew] at hconnected
      cases hconnected
    · rcases hlookup v c₂ hv with ⟨hnew, -⟩ | hold'
      · rw [hnew]
      · exact h.apart u v c₁ c₂ hold hold' hjob hquery hname hconnected

/-- What a step of call `t` leads to, where it was allowed. -/
theorem runs {t : ℕ} {outside : (call : Call) → call.Answer} {p p' : Progress} {call : Call}
    {code code' : Script Call.Answer Unit} {runtime : FinMap String Runtime} (h : Apart s)
    (hold : s.calls.lookup t = some ⟨method, name, p, code⟩)
    (hmoves : Moves s.runtime outside method name call p p' runtime)
    (hmark : method = .job → call = .setBusy name true → s.Idle .job name)
    (hconnect : method = .job → ∀ address timeout, call = .stream (.connectTimeout address timeout) →
      (outside (.stream (.connectTimeout address timeout))).isOk = true → s.Idle .query name)
    (hfollows : code'.Follows (discipline method name) Over p') :
    Apart ⟨runtime, s.calls.insert t ⟨method, name, p', code'⟩⟩ := by
  have hlookup : ∀ u c, (s.calls.insert t ⟨method, name, p', code'⟩).lookup u = some c →
      (u = t ∧ c = ⟨method, name, p', code'⟩) ∨ (u ≠ t ∧ s.calls.lookup u = some c) := by
    intro u c hu
    rw [FinMap.lookup_insert_ite] at hu
    split at hu
    · next heq => exact .inl ⟨heq, (Option.some.inj hu).symm⟩
    · next hne => exact .inr ⟨hne, hu⟩
  have hentered : p.connected = true → p.passed = true := h.entered t _ hold
  have hmarked : method = .job → p.passed = true →
      (s.runtime.lookup name).map (·.busy) = some true := h.marked t _ hold
  have happart : ∀ c v, s.calls.lookup v = some c → method = .job → c.method = .query →
      name = c.name → p.connected = true → c.progress.passed = false :=
    fun c v hv => h.apart t v _ c hold hv
  refine ⟨?_, ?_, ?_, ?_, ?_⟩
  · intro u c hu
    rcases hlookup u c hu with ⟨rfl, rfl⟩ | ⟨-, hu'⟩
    · exact hfollows
    · exact h.follows u c hu'
  · intro u c hu hconnected
    rcases hlookup u c hu with ⟨rfl, rfl⟩ | ⟨-, hu'⟩
    · cases hmoves with
      | stays => exact hentered hconnected
      | connects => rfl
      | _ => cases hconnected
    · exact h.entered u c hu' hconnected
  · intro u c hu hjob hpassed
    rcases hlookup u c hu with ⟨rfl, rfl⟩ | ⟨hne, hu'⟩
    · cases hmoves with
      | marks => simp [busy_setBusy]
      | clears => cases hpassed
      | remembers => cases hpassed
      | finds hquery =>
        obtain rfl : method = .job := hjob
        cases hquery
      | connects | closes => exact hmarked hjob rfl
      | stays => exact hmarked hjob hpassed
    · have hbusy := h.marked u c hu' hjob hpassed
      cases hmoves with
      | marks =>
        rw [busy_setBusy]
        split
        · rfl
        · exact hbusy
      | clears hmethod =>
        -- the printer is this job's alone, so it is another printer
        have hother : c.name ≠ name := by
          intro hname
          exact hne (h.alone u t c _ hu' hold hjob hmethod hname hpassed rfl)
        rw [busy_setBusy, if_neg hother]
        exact hbusy
      | remembers => exact busy_remember _ _ _ _ _ hbusy
      | _ => exact hbusy
  · have hself : ∀ v c, v ≠ t → s.calls.lookup v = some c → method = .job → c.method = .job →
        c.name = name → p'.passed = true → c.progress.passed = false := by
      intro v c hne hv hmethod hjob hname hpassed
      by_contra hother
      have hother : c.progress.passed = true := by simpa using hother
      have hold' : p.passed = true → False := by
        intro hp
        exact hne (h.alone v t c _ hv hold hjob hmethod hname hother hp)
      cases hmoves with
      | marks _ hcall =>
        have hidle := (hmark hmethod hcall).of_lookup hv hjob hname
        rw [hidle] at hother
        cases hother
      | finds hquery =>
        rw [hmethod] at hquery
        cases hquery
      | clears | remembers => cases hpassed
      | connects | closes => exact hold' rfl
      | stays => exact hold' hpassed
    intro u v c₁ c₂ hu hv hjob hjob' hname hpassed hpassed'
    rcases hlookup u c₁ hu with ⟨rfl, rfl⟩ | ⟨hne, hu'⟩ <;>
      rcases hlookup v c₂ hv with ⟨rfl, rfl⟩ | ⟨hne', hv'⟩
    · rfl
    · rw [hself v c₂ hne' hv' hjob hjob' hname.symm hpassed] at hpassed'
      cases hpassed'
    · rw [hself u c₁ hne hu' hjob' hjob hname hpassed'] at hpassed
      cases hpassed
    · exact h.alone u v c₁ c₂ hu' hv' hjob hjob' hname hpassed hpassed'
  · intro u v c₁ c₂ hu hv hjob hquery hname hconnected
    rcases hlookup u c₁ hu with ⟨rfl, rfl⟩ | ⟨hne, hu'⟩ <;>
      rcases hlookup v c₂ hv with ⟨rfl, rfl⟩ | ⟨hne', hv'⟩
    · obtain rfl : method = .job := hjob
      cases hquery
    · -- the job's step: it connects, or was connected
      cases hmoves with
      | connects hcall hok => exact (hconnect hjob _ _ hcall hok).of_lookup hv' hquery hname.symm
      | stays => exact happart c₂ v hv' hjob hquery hname hconnected
      | _ => cases hconnected
    · -- the query's step: it passes its check, or had passed it
      have hbefore := h.apart u v c₁ _ hu' hold hjob hquery hname hconnected
      cases hmoves with
      | finds _ hidle =>
        have hbusy := h.marked u c₁ hu' hjob (h.entered u c₁ hu' hconnected)
        obtain ⟨entry, hentry, hbusy⟩ := Option.map_eq_some_iff.mp hbusy
        rw [hname] at hentry
        rw [hidle entry hentry] at hbusy
        cases hbusy
      | marks hmethod =>
        obtain rfl : method = .query := hquery
        cases hmethod
      | clears | remembers => rfl
      | connects | closes => exact hbefore
      | stays => exact hbefore
    · exact h.apart u v c₁ c₂ hu' hv' hjob hquery hname hconnected

/-- **Every step that is not disturbed keeps it.** -/
theorem step (h : Apart s) (hok : Undisturbed s a) (hs : providerStep printers s a = some s') :
    Apart s' := by
  cases provider_step hs with
  | begins t c hprogress hfollows hs =>
    subst hs
    exact h.begins hprogress hfollows
  | runs t now outside method name p call next ha hold hs' =>
    subst ha hs'
    have hfollows : Script.Follows _ _ _ (Script.call call next) := h.follows t _ hold
    have hok' : ∀ c ∈ s.calls.lookup t, c.method = .job → (c.marks = true → s.Idle .job c.name) ∧
      (c.connects outside = true → s.Idle .query c.name) := hok
    refine h.runs hold (call_moves hfollows.1) ?_ ?_ (hfollows.2 _)
    · rintro rfl rfl
      exact (hok' _ hold rfl).1 rfl
    · rintro rfl address timeout rfl hanswer
      exact (hok' _ hold rfl).2 hanswer

end Apart

/-- **Status queries and jobs exclude each other on a printer**, where no query that found
the printer idle is under way when a job connects, and submissions to one printer do not
overlap. -/
theorem status_excluded (h : Runs.Reach (providerStep printers) Undisturbed {} s) :
    s.Exclusive := by
  have hapart : Apart s :=
    h.invariant Apart.started fun _ _ _ _ hI hok hs => hI.step hok hs
  intro t u c c' ht hu hjob hquery hname hconnected
  have hpassed := hapart.apart t u c c' ht hu hjob hquery hname hconnected
  by_contra hopen
  have hopen : c'.progress.connected = true := by simpa using hopen
  rw [hapart.entered u c' hu hopen] at hpassed
  cases hpassed

/-- A printer that answers, up to its status. -/
def answering : (call : Call) → call.Answer
  | .stream (.toSocketAddrs ..) => .ok [1]
  | .stream (.write data) => .ok (Fin.last data.length)
  | .stream .drain => ()
  | .stream (.connectTimeout ..) | .stream (.setWriteTimeout _) => .ok ()
  | .stream .setNodelay | .stream .flush | .stream .shutdown => .ok ()
  | .setReadTimeout _ => .error ⟨.other, "unsupported"⟩
  | .read _ => .error ⟨.timedOut, "timed out"⟩
  | .readExact _ => .error ⟨.timedOut, "timed out"⟩
  | .cached _ => none
  | .close | .setBusy .. | .remember .. => ()

/-- A label printer, listed with a status protocol. -/
def labeller : TcpPrinterConfig where
  name := "labeller"
  host := "10.0.0.9"
  port := 9100
  statusQuery := .zpl

def labelPrinter : Printer where
  id := "tcp-labeller"
  name := "labeller"
  displayName := "labeller"
  provider := "tcp"
  connection := .network
  driver := some "Direct TCP (RAW)"
  port := some "tcp://10.0.0.9:9100"
  location := none
  default := false
  online := true
  status := .unknown
  conditions := []
  queuedJobs := none
  language := none

def labelSpec : SubmitSpec where
  jobId := 0
  documentName := "label"
  copies := 1
  payload := .raw [94, 88, 65] none

/-- The state a run on this printer ends in. -/
def afterCalls (run : List ProviderAction) : ProviderState :=
  (Runs.runFrom (providerStep [labeller]) {} run).getD {}

theorem reach_afterCalls (ok : ProviderState → ProviderAction → Prop)
    [∀ s a, Decidable (ok s a)] (run : List ProviderAction)
    (h : (Runs.checked (providerStep [labeller]) (fun s a => decide (ok s a)) {}
      run).isSome = true) :
    Runs.Reach (providerStep [labeller]) ok {} (afterCalls run) := by
  obtain ⟨s, hs⟩ := Option.isSome_iff_exists.mp h
  have hafter : afterCalls run = s := by
    rw [afterCalls, Runs.runFrom_of_checked hs]
    rfl
  rw [hafter]
  exact Runs.reach_of_checked (fun s a => of_decide_eq_true) hs

/-- A query comes to its end, and a job connects after it. -/
def queryThenJob : List ProviderAction :=
  [.deviceStatus 0 labeller] ++ List.replicate 6 (.run 0 0 answering) ++
    [.submit 1 labelPrinter labelSpec] ++ List.replicate 3 (.run 1 0 answering)

theorem status_excluded_queryThenJob : (afterCalls queryThenJob).Exclusive :=
  status_excluded (reach_afterCalls Undisturbed queryThenJob (by decide +kernel))

/-- A query finds the printer idle; a job marks it and connects; the query connects. -/
def overlapping : List ProviderAction :=
  [.deviceStatus 0 labeller, .run 0 0 answering, .submit 1 labelPrinter labelSpec] ++
    List.replicate 3 (.run 1 0 answering) ++ List.replicate 2 (.run 0 0 answering)

/-- **A status query is connected beside a job.** -/
theorem status_overlap :
    Runs.Reach (providerStep [labeller]) (fun _ _ => True) {}
      (afterCalls overlapping) ∧ ¬ (afterCalls overlapping).Exclusive := by
  refine ⟨reach_afterCalls _ overlapping (by decide +kernel), ?_⟩
  intro hexclusive
  have hopen : ((afterCalls overlapping).calls.lookup 0).map (fun c => (c.method, c.name, c.progress)) =
      some (.query, "labeller", ⟨true, true⟩) := by decide +kernel
  have hjob : ((afterCalls overlapping).calls.lookup 1).map (fun c => (c.method, c.name, c.progress)) =
      some (.job, "labeller", ⟨true, true⟩) := by decide +kernel
  obtain ⟨query, hquery, heq⟩ := Option.map_eq_some_iff.mp hopen
  obtain ⟨job, hjob, heq'⟩ := Option.map_eq_some_iff.mp hjob
  simp only [Prod.mk.injEq] at heq heq'
  have hclosed := hexclusive 1 0 job query hjob hquery heq'.1 heq.1 (heq'.2.1.trans heq.2.1.symm)
    (by rw [heq'.2.2])
  rw [heq.2.2] at hclosed
  cases hclosed

end Tcp

end KilnPrint
