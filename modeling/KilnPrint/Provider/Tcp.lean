/-
The direct TCP provider.

* `TcpPrinterConfig` — a printer an administrator listed;
* `connect`, `writeAll`, `deliver` — a connection, the standard library's
  `write_all` over it, and a job's bytes;
* `tcpSubmit` — the provider's `submit`.

`write_all` retries an interrupted write, so the answer of a write here is the
first one that is not an interruption.  `submit` also marks the printer busy,
for its device status.
-/
import KilnPrint.Lib.Interaction
import KilnPrint.Engine.Task

namespace KilnPrint

open Interaction Fallible

namespace Tcp

/-- Which status protocol, if any, a configured printer answers. -/
inductive StatusQuery
  | none
  | zpl
  | escPos
  deriving DecidableEq, Repr

structure TcpPrinterConfig where
  name : String
  host : String
  port : ℕ
  /-- The command language, as a hint. -/
  language : Option String := none
  statusQuery : StatusQuery := .none
  /-- In milliseconds. -/
  connectTimeout : ℕ := 3000
  writeTimeout : ℕ := 30000
  deriving DecidableEq

/-- The kinds of `io::Error` that are told apart. -/
inductive IoErrorKind
  | timedOut
  | wouldBlock
  | notFound
  | writeZero
  | other
  deriving DecidableEq, Repr

structure IoError where
  kind : IoErrorKind
  message : String
  deriving DecidableEq, Repr

/-- Socket addresses, as the resolver numbers them. -/
abbrev SocketAddr := ℕ

/-- The calls `deliver` makes. -/
inductive StreamCall
  | toSocketAddrs (host : String) (port : ℕ)
  | connectTimeout (address : SocketAddr) (timeout : ℕ)
  | setNodelay
  | setWriteTimeout (timeout : ℕ)
  | write (data : Bytes)
  | flush
  /-- `shutdown(Shutdown::Write)`. -/
  | shutdown
  /-- Reads until the printer closes, a read fails or two seconds have passed. -/
  | drain

abbrev StreamCall.Answer : StreamCall → Type
  | toSocketAddrs .. => Except IoError (List SocketAddr)
  | write data => Except IoError (Fin (data.length + 1))
  | drain => Unit
  | _ => Except IoError Unit

def endpoint (config : TcpPrinterConfig) : String :=
  let host := config.host
  let port := config.port
  s!"{host}:{port}"

/-- Tries each address; the last failure is reported. -/
def connectFirst (timeout : ℕ) : List SocketAddr → IoError → Prog StreamCall.Answer IoError Unit
  | [], last => fail last
  | address :: rest, _ => do
    let result : Except IoError Unit ← ask (StreamCall.connectTimeout address timeout)
    match result with
    | .ok () => pure ()
    | .error e => connectFirst timeout rest e

def connect (config : TcpPrinterConfig) (timeout : ℕ) : Prog StreamCall.Answer IoError Unit := do
  let addresses ← ofExcept id (← ask (.toSocketAddrs config.host config.port))
  connectFirst timeout addresses ⟨.notFound, "host did not resolve"⟩

/-- `Write::write_all`. -/
def writeAll (data : Bytes) : Prog StreamCall.Answer IoError Unit :=
  if data = [] then pure () else do
    let written ← ofExcept id (← ask (.write data))
    if written.val = 0 then fail ⟨.writeZero, "failed to write whole buffer"⟩
    else writeAll (data.drop written.val)
termination_by data.length
decreasing_by
  have : 0 < data.length := List.length_pos_iff.mpr (by assumption)
  rw [List.length_drop]
  omega

/-- Nothing was sent. -/
def connectError (config : TcpPrinterConfig) (e : IoError) : PrintError :=
  let target := endpoint config
  let message := e.message
  ((PrintError.new .printerOffline s!"could not connect to {target}: {message}").recoverably
    true).withDetails (outcomeDetails "NOT_PRINTED")

/-- The printer may have received part of the data. -/
def partialError (config : TcpPrinterConfig) (e : IoError) : PrintError :=
  let code := if e.kind = .timedOut ∨ e.kind = .wouldBlock then .timeout else .connectionError
  let target := endpoint config
  let message := e.message
  ((PrintError.new code
    s!"the connection to {target} failed while sending: {message}").recoverably
      false).withDetails (outcomeDetails "UNKNOWN")

/-- The part of `deliver` that follows the connection. -/
def send (config : TcpPrinterConfig) (data : Bytes) (copies : ℕ) :
    Prog StreamCall.Answer PrintError Unit := do
  ofExcept (partialError config) (← ask .setNodelay)
  ofExcept (partialError config) (← ask (.setWriteTimeout config.writeTimeout))
  forEach (fun _ => mapErr (partialError config) (writeAll data)) (List.range copies)
  ofExcept (partialError config) (← ask .flush)
  let _ ← ask .shutdown
  ask StreamCall.drain

def deliver (config : TcpPrinterConfig) (data : Bytes) (copies : ℕ) :
    Prog StreamCall.Answer PrintError Unit := do
  mapErr (connectError config) (connect config config.connectTimeout)
  send config data copies

/-- The configuration of a printer, found by its name. -/
def configOf (printers : List TcpPrinterConfig) (printer : Printer) :
    Except PrintError TcpPrinterConfig :=
  match printers.find? fun c => c.name == printer.name with
  | some config => .ok config
  | none => .error ((PrintError.printerNotFound printer.name).withPrinter printer.id)

/-- `TcpPrintProvider::submit`. -/
def tcpSubmit (printers : List TcpPrinterConfig) (printer : Printer) (spec : SubmitSpec) :
    Prog StreamCall.Answer PrintError SubmitOutcome := do
  let config ← ofExcept id (configOf printers printer)
  match spec.payload with
  | .raw bytes _ =>
    mapErr (·.withPrinter printer.id) (deliver config bytes spec.copies)
    pure .delivered
  | _ => fail (.new .unsupportedOperation "direct TCP printers accept RAW data only")

/-- A write that succeeded. -/
def streamOutput : Exchange StreamCall.Answer → Bool
  | ⟨.write _, .ok _⟩ => true
  | _ => false

/-! ### What a failure says -/

/-- Nothing was written yet. -/
abbrev Quiet (s : Session StreamCall.Answer) : Prop := s.any streamOutput = false

theorem connectFirst_quiet (timeout : ℕ) (addresses : List SocketAddr) (last : IoError) :
    Ensures Quiet (connectFirst timeout addresses last) (fun _ _ => True) (fun _ => Quiet) := by
  induction addresses generalizing last with
  | nil =>
    rw [connectFirst]
    exact .fail fun s hs => hs
  | cons address rest ih =>
    rw [connectFirst]
    refine (ask_quiet fun _ => rfl).bind ?_
    intro result
    cases result with
    | error e => exact ih e
    | ok _ => exact .pure fun _ _ => trivial

/-- A connection that fails wrote nothing. -/
theorem connect_quiet (config : TcpPrinterConfig) (timeout : ℕ) :
    Ensures Quiet (connect config timeout) (fun _ _ => True) (fun _ => Quiet) := by
  refine (ask_quiet fun _ => rfl).bind ?_
  intro result
  refine Ensures.bind (R := fun _ => Quiet) (.ofExcept ?_ ?_) ?_
  · intro addresses s _ hs
    exact hs
  · intro e s _ hs
    exact hs
  · intro addresses
    exact connectFirst_quiet _ _ _

theorem partialError_saysUnknown (config : TcpPrinterConfig) (e : IoError) :
    (partialError config e).SaysUnknown := ⟨rfl, rfl⟩

/-- A call of `send` fails with an error that says so. -/
theorem ensures_checked {config : TcpPrinterConfig} {α : Type} {result : Except IoError α} :
    Ensures (fun _ => True) (ofExcept (partialError config) result : Prog StreamCall.Answer _ α)
      (fun _ _ => True) (fun e _ => e.SaysUnknown) :=
  .ofExcept (fun _ _ _ _ => trivial) fun e _ _ _ => partialError_saysUnknown config e

/-- **Whatever fails after the connection says that the document may have printed.** -/
theorem send_saysUnknown (config : TcpPrinterConfig) (data : Bytes) (copies : ℕ) :
    Ensures (fun _ => True) (send config data copies) (fun _ _ => True)
      (fun e _ => e.SaysUnknown) := by
  have hask : ∀ q, Ensures (fun _ => True) (ask q : Prog StreamCall.Answer PrintError _)
      (fun _ _ => True) (fun e _ => e.SaysUnknown) := fun q => ask_ensures fun _ _ _ => trivial
  have hcopy : ∀ _ : ℕ, Ensures (fun _ => True) (mapErr (partialError config) (writeAll data))
      (fun _ _ => True) (fun e _ => e.SaysUnknown) := by
    intro _
    refine .mapErr ?_
    intro s _
    exact ⟨fun _ _ _ => trivial, fun e _ _ => partialError_saysUnknown config e⟩
  unfold send
  refine (hask _).bind fun _ => ensures_checked.bind fun _ => ?_
  refine (hask _).bind fun _ => ensures_checked.bind fun _ => ?_
  refine (Ensures.forEach hcopy _).bind fun _ => ?_
  refine (hask _).bind fun _ => ensures_checked.bind fun _ => ?_
  exact (hask _).bind fun _ => hask _

theorem deliver_saysUnknown (config : TcpPrinterConfig) (data : Bytes) (copies : ℕ) :
    Ensures Quiet (deliver config data copies) (fun _ _ => True)
      (fun e s => s.any streamOutput = true → e.SaysUnknown) := by
  refine Ensures.bind (R := fun _ _ => True) (.mapErr ?_) fun _ => ?_
  · refine (connect_quiet config config.connectTimeout).mono (fun _ h => h) (fun _ _ h => h) ?_
    intro e s hs hout
    rw [hs] at hout
    cases hout
  · refine (send_saysUnknown config data copies).mono (fun _ h => h) (fun _ _ h => h) ?_
    intro e s he _
    exact he

/-- **The provider: a submission that fails after a write says so.** -/
theorem tcpSubmit_saysUnknown (printers : List TcpPrinterConfig) (printer : Printer)
    (spec : SubmitSpec) :
    Ensures Quiet (tcpSubmit printers printer spec) (fun _ _ => True)
      (fun e s => s.any streamOutput = true → e.SaysUnknown) := by
  have hquiet : ∀ (e : PrintError) (s : Session StreamCall.Answer), Quiet s →
      s.any streamOutput = true → e.SaysUnknown := by
    intro e s hs hout
    rw [hs] at hout
    cases hout
  unfold tcpSubmit
  refine Ensures.bind (R := fun _ => Quiet) (.ofExcept ?_ ?_) ?_
  · intro config s _ hs
    exact hs
  · intro e s _ hs
    exact hquiet e s hs
  · intro config
    split
    · refine Ensures.bind (R := fun _ _ => True) (.mapErr ?_) fun _ => .pure fun _ _ => trivial
      refine (deliver_saysUnknown config _ _).mono (fun _ h => h) (fun _ _ h => h) ?_
      intro e s he hout
      exact he hout
    · exact .fail fun s hs => hquiet _ s hs

end Tcp

end KilnPrint
