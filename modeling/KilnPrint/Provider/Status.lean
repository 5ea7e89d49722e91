/-
Device status over a printer's own TCP port.

* `DeviceStatus` — what a printer says of itself;
* `parseZplHostStatus`, `parseEscposStatus` — the answers of the two protocols;
* `Tcp.Call` — the calls of a submission and of a status query: on the resolver, on a
  connection, and on what the provider remembers of a printer;
* `Tcp.submit`, `Tcp.deviceStatus` — **both, as scripts of these calls**;
* `playAll_submit` — **the calls of a scripted submission on its connection are those of the
  program**.
-/
import KilnPrint.Lib.Typestate
import KilnPrint.Model.Document
import KilnPrint.Provider.Tcp
import Mathlib.Data.List.Destutter
import Mathlib.Data.List.Sort

namespace KilnPrint

/-! ### What a printer says -/

structure DeviceStatus where
  state : PrinterState
  conditions : List PrinterCondition
  deriving DecidableEq, Repr

/-- The order the conditions are declared in, by which they are sorted. -/
def PrinterCondition.rank (c : PrinterCondition) : ℕ := c.ctorIdx

/-- `sort_unstable` and `dedup`: each condition once, in the order of declaration. -/
def sortedConditions (conditions : List PrinterCondition) : List PrinterCondition :=
  (conditions.insertionSort fun a b => a.rank ≤ b.rank).destutter (· ≠ ·)

def DeviceStatus.fromConditions (conditions : List PrinterCondition) : DeviceStatus :=
  let conditions := sortedConditions conditions
  let state : PrinterState :=
    if .offline ∈ conditions then .offline
    else if conditions.any (· ∈ [.paperOut, .headOpen, .ribbonOut, .error, .doorOpen]) then .error
    else if .paused ∈ conditions then .paused
    else .ready
  { state := state, conditions := conditions }

/-- How many bytes a character takes that begins with this one; 0 if none does. -/
def utf8Width (b : UInt8) : ℕ :=
  if b < 0x80 then 1
  else if 0xC2 ≤ b ∧ b ≤ 0xDF then 2
  else if 0xE0 ≤ b ∧ b ≤ 0xEF then 3
  else if 0xF0 ≤ b ∧ b ≤ 0xF4 then 4
  else 0

/-- Which second bytes a first one allows. -/
def utf8Second (b c : UInt8) : Bool :=
  let low := if b = 0xE0 then 0xA0 else if b = 0xF0 then 0x90 else 0x80
  let high := if b = 0xED then 0x9F else if b = 0xF4 then 0x8F else 0xBF
  decide (low ≤ c ∧ c ≤ high)

/-- The bytes after the first that can belong to its character. -/
def utf8Rest (b : UInt8) (bytes : Bytes) : Bytes :=
  match bytes.take (utf8Width b - 1) with
  | [] => []
  | c :: more => if utf8Second b c then c :: more.takeWhile (fun d => 0x80 ≤ d && d ≤ 0xBF) else []

/-- The code point of a first byte and those after it. -/
def utf8Code (b : UInt8) (more : Bytes) : ℕ :=
  more.foldl (fun code c => code * 64 + c.toNat % 64)
    (if more.length = 0 then b.toNat else b.toNat % 2 ^ (6 - more.length))

/-- `String::from_utf8_lossy`: what is no character is replaced by `U+FFFD`, as much of it
as a character could begin with at a time. -/
def fromUtf8Lossy (bytes : Bytes) : List Char :=
  go bytes.length bytes
where
  go : ℕ → Bytes → List Char
    | 0, _ | _, [] => []
    | fuel + 1, b :: rest =>
      let more := utf8Rest b rest
      let c := if utf8Width b = more.length + 1 then Char.ofNat (utf8Code b more) else '\uFFFD'
      c :: go fuel (rest.drop more.length)

example : fromUtf8Lossy [0x41, 0xC3, 0xA9, 0xE2, 0x82, 0x41, 0xFF] =
    ['A', 'é', '\uFFFD', 'A', '\uFFFD'] := by
  decide

/-- Parses the STX…ETX strings a ZPL printer returns for `~HS`. -/
def parseZplHostStatus (response : Bytes) : Option DeviceStatus := do
  let text := fromUtf8Lossy response
  let blocks := (text.splitOn '\x02').map fun block =>
    trimWhitespace (block.takeWhile (· ≠ '\x03'))
  let fields := (blocks.filter fun block => !block.isEmpty).map fun block =>
    (block.splitOn ',').map trimWhitespace
  let first ← fields[0]?.filter fun f => 12 ≤ f.length
  let second ← fields[1]?.filter fun s => 4 ≤ s.length
  let flag := fun (fields : List (List Char)) (i : ℕ) => fields[i]? == some ['1']
  some (.fromConditions
    ((if flag first 1 then [.paperOut] else []) ++ (if flag first 2 then [.paused] else []) ++
      (if flag first 9 || flag first 10 || flag first 11 then [.error] else []) ++
      (if flag second 2 then [.headOpen] else []) ++
      (if flag second 3 then [.ribbonOut] else [])))

/-- `DLE EOT n` requests: printer (1), offline cause (2), paper (4). -/
def escposQueries : List Bytes := [[0x10, 0x04, 1], [0x10, 0x04, 2], [0x10, 0x04, 4]]

/-- Interprets the three one-byte answers to `escposQueries`. -/
def parseEscposStatus (printer offline paper : UInt8) : Option DeviceStatus :=
  -- every status byte has bits 1 and 4 set and bits 0 and 7 clear
  if [printer, offline, paper].any (· &&& 0x93 != 0x12) then none
  else some (.fromConditions
    ((if printer &&& 0x08 != 0 then [.offline] else []) ++
      (if offline &&& 0x04 != 0 then [.headOpen] else []) ++
      (if offline &&& 0x20 != 0 || paper &&& 0x60 != 0 then [.paperOut] else []) ++
      (if offline &&& 0x40 != 0 then [.error] else []) ++
      (if paper &&& 0x0C != 0 then [.paperLow] else [])))

example : parseEscposStatus 0x12 0x36 0x72 = some ⟨.error, [.paperOut, .headOpen]⟩ := by decide

/-! ### The calls of a delivery, one by one -/

namespace Tcp

open Typestate Interaction Fallible

/-- The calls of a submission and of a status query. -/
inductive Call
  | stream (call : StreamCall)
  | setReadTimeout (timeout : ℕ)
  | read (limit : ℕ)
  | readExact (count : ℕ)
  /-- The stream is dropped. -/
  | close
  /-- The lock section of `set_busy`. -/
  | setBusy (name : String) (busy : Bool)
  /-- The first lock section of `device_status`: what it returns, if it returns there. -/
  | cached (name : String)
  /-- Its second one. -/
  | remember (name : String) (status : Option DeviceStatus)

abbrev Call.Answer : Call → Type
  | stream call => call.Answer
  | setReadTimeout _ => Except IoError Unit
  | read limit => Except IoError { data : Bytes // data.length ≤ limit }
  | readExact count => Except IoError { data : Bytes // data.length = count }
  | cached _ => Option (Option DeviceStatus)
  | _ => Unit

/-- The `?` operator, after `map_err`. -/
def attempt {Q : Type} {A : Q → Type} {ε ε' α β : Type} (m : Script A (Except ε α)) (f : ε → ε')
    (next : α → Script A (Except ε' β)) : Script A (Except ε' β) :=
  m >>= fun
    | .ok a => next a
    | .error e => .done (.error (f e))

namespace Scripted

def connectFirst (timeout : ℕ) :
    List SocketAddr → IoError → Script StreamCall.Answer (Except IoError Unit)
  | [], last => .done (.error last)
  | address :: rest, _ =>
    .call (.connectTimeout address timeout) fun
      | .ok () => .done (.ok ())
      | .error e => connectFirst timeout rest e

def connect (config : TcpPrinterConfig) (timeout : ℕ) :
    Script StreamCall.Answer (Except IoError Unit) :=
  attempt (Script.ask (StreamCall.toSocketAddrs config.host config.port)) id fun addresses =>
    connectFirst timeout addresses ⟨.notFound, "host did not resolve"⟩

/-- `Write::write_all`. -/
def writeAll (data : Bytes) : Script StreamCall.Answer (Except IoError Unit) :=
  if data = [] then .done (.ok ()) else
    .call (.write data) fun
      | .error e => .done (.error e)
      | .ok written =>
        if written.val = 0 then .done (.error ⟨.writeZero, "failed to write whole buffer"⟩)
        else writeAll (data.drop written.val)
termination_by data.length
decreasing_by
  have : 0 < data.length := List.length_pos_iff.mpr (by assumption)
  rw [List.length_drop]
  omega

def writeCopies (config : TcpPrinterConfig) (data : Bytes) :
    ℕ → Script StreamCall.Answer (Except PrintError Unit)
  | 0 => .done (.ok ())
  | copies + 1 =>
    attempt (writeAll data) (partialError config) fun _ => writeCopies config data copies

/-- The part of `deliver` that follows the connection. -/
def send (config : TcpPrinterConfig) (data : Bytes) (copies : ℕ) :
    Script StreamCall.Answer (Except PrintError Unit) :=
  attempt (Script.ask StreamCall.setNodelay) (partialError config) fun _ =>
  attempt (Script.ask (StreamCall.setWriteTimeout config.writeTimeout)) (partialError config) fun _ =>
  attempt (writeCopies config data copies) id fun _ =>
  attempt (Script.ask StreamCall.flush) (partialError config) fun _ =>
  Script.call .shutdown fun _ => .call .drain fun _ => .done (.ok ())

/-- The calls on a connection, among all calls. -/
abbrev onStream {α : Type} (m : Script StreamCall.Answer α) : Script Call.Answer α :=
  m.lift Call.stream fun _ a => a

/-- `deliver`; the stream is dropped where it returns. -/
def deliver (config : TcpPrinterConfig) (data : Bytes) (copies : ℕ) :
    Script Call.Answer (Except PrintError Unit) := do
  match ← onStream (connect config config.connectTimeout) with
  | .error e => .done (.error (connectError config e))
  | .ok () =>
    let result ← onStream (send config data copies)
    Script.ask Call.close
    .done result

/-- `TcpPrintProvider::submit`. -/
def submit (printers : List TcpPrinterConfig) (printer : Printer) (spec : SubmitSpec) :
    Script Call.Answer (Except PrintError SubmitOutcome) :=
  match configOf printers printer with
  | .error e => .done (.error e)
  | .ok config =>
    match spec.payload with
    | .raw bytes _ => do
      Script.ask (Call.setBusy config.name true)
      let result ← deliver config bytes spec.copies
      Script.ask (Call.setBusy config.name false)
      .done ((result.mapError (·.withPrinter printer.id)).map fun _ => .delivered)
    | _ => .done (.error (.new .unsupportedOperation "direct TCP printers accept RAW data only"))

/-- In milliseconds. -/
def statusTimeout : ℕ := 1500

/-- Reads to the third ETX, an end or a failure, or past 4096 bytes. -/
def readHostStatus (response : Bytes) : Script Call.Answer Bytes :=
  if 3 ≤ response.count 0x03 then .done response else
    .call (.read 256) fun
      | .error _ => .done response
      | .ok ⟨data, _⟩ =>
        if data = [] then .done response
        else if 4096 < (response ++ data).length then .done (response ++ data)
        else readHostStatus (response ++ data)
termination_by 4096 - response.length
decreasing_by
  have : 0 < data.length := List.length_pos_iff.mpr (by assumption)
  simp only [List.length_append] at *
  omega

/-- Each request, and the byte the printer answers. -/
def askEscpos : List Bytes → Bytes → Script Call.Answer (Option DeviceStatus)
  | [], [printer, offline, paper] => .done (parseEscposStatus printer offline paper)
  | [], _ => .done none
  | query :: rest, answers => do
    match ← onStream (writeAll query) with
    | .error _ => .done none
    | .ok () =>
      match ← Script.ask (Call.readExact 1) with
      | .error _ => .done none
      | .ok byte => askEscpos rest (answers ++ byte.val)

/-- What is asked on the connection of `query_status`. -/
def converse (config : TcpPrinterConfig) : Script Call.Answer (Option DeviceStatus) := do
  -- any failure on the way means that nothing is known
  match ← Script.ask (Call.setReadTimeout statusTimeout) with
  | .error _ => .done none
  | .ok () =>
    match ← Script.ask (Call.stream (.setWriteTimeout statusTimeout)) with
    | .error _ => .done none
    | .ok () =>
      match config.statusQuery with
      | .none => .done none
      | .zpl =>
        match ← onStream (writeAll [0x7E, 0x48, 0x53]) with
        | .error _ => .done none
        | .ok () =>
          let response ← readHostStatus []
          .done (parseZplHostStatus response)
      | .escPos => askEscpos escposQueries []

/-- Asks the printer for its status. `none` means unreachable or no valid answer. -/
def queryStatus (config : TcpPrinterConfig) : Script Call.Answer (Option DeviceStatus) := do
  match ← onStream (connect config statusTimeout) with
  | .error _ => .done none
  | .ok () =>
    let status ← converse config
    Script.ask Call.close
    .done status

/-- Cached device status, refreshed when stale and the printer is idle. -/
def deviceStatus (config : TcpPrinterConfig) : Script Call.Answer (Option DeviceStatus) :=
  if config.statusQuery = .none then .done none else do
    match ← Script.ask (Call.cached config.name) with
    | some status => .done status
    | none =>
      let status ← queryStatus config
      Script.ask (Call.remember config.name status)
      .done status

end Scripted

/-! ### The scripts of a delivery are its programs -/

/-- A script, performed on a session. -/
def play {ε α : Type} : Script StreamCall.Answer (Except ε α) → Prog StreamCall.Answer ε α
  | .done (.ok a) => pure a
  | .done (.error e) => fail e
  | .call q next => Interaction.ask q >>= fun a => play (next a)

theorem play_attempt {ε ε' α β : Type} (m : Script StreamCall.Answer (Except ε α)) (f : ε → ε')
    (next : α → Script StreamCall.Answer (Except ε' β)) :
    play (attempt m f next) = mapErr f (play m) >>= fun a => play (next a) := by
  induction m with
  | done r =>
    cases r with
    | ok a => rfl
    | error e => rfl
  | call q k ih =>
    funext s
    show (Interaction.ask q >>= fun a => play (attempt (k a) f next)) s = _
    simp only [ih]
    rfl

theorem play_connectFirst (timeout : ℕ) (addresses : List SocketAddr) (last : IoError) :
    play (Scripted.connectFirst timeout addresses last) = connectFirst timeout addresses last := by
  induction addresses generalizing last with
  | nil => rfl
  | cons address rest ih =>
    show (Interaction.ask _ >>= fun result => play _) = _
    rw [connectFirst]
    congr 1
    funext result
    cases result with
    | ok _ => rfl
    | error e => exact ih e

/-- A call whose answer may be a failure. -/
theorem mapErr_play_call {ε ε' α : Type} (f : ε → ε') (q : StreamCall)
    (view : q.Answer → Except ε α) :
    mapErr f (play (.call q fun a => .done (view a))) =
      Interaction.ask q >>= fun a => ofExcept f (view a) := by
  funext s
  show mapErr f (fun s => play (.done (view (s.device s.trace q))) _) s =
    ofExcept f (view (s.device s.trace q)) _
  cases hview : view (s.device s.trace q) with
  | ok a =>
    simp only [mapErr, hview]
    rfl
  | error e =>
    simp only [mapErr, hview]
    rfl

theorem play_connect (config : TcpPrinterConfig) (timeout : ℕ) :
    play (Scripted.connect config timeout) = connect config timeout := by
  rw [Scripted.connect, play_attempt]
  simp only [play_connectFirst]
  rw [show mapErr id (play (Script.ask (StreamCall.toSocketAddrs config.host config.port))) =
    Interaction.ask (StreamCall.toSocketAddrs config.host config.port) >>= fun a => ofExcept id a
    from mapErr_play_call id (StreamCall.toSocketAddrs config.host config.port) fun a => a]
  rfl

theorem play_writeAll (data : Bytes) : play (Scripted.writeAll data) = writeAll data := by
  induction hlength : data.length using Nat.strong_induction_on generalizing data with
  | _ length ih =>
    rw [Scripted.writeAll, writeAll]
    by_cases hdata : data = []
    · rw [if_pos hdata, if_pos hdata]
      rfl
    · rw [if_neg hdata, if_neg hdata]
      show (Interaction.ask (StreamCall.write data) >>= fun _ => play _) = _
      congr 1
      funext result
      cases result with
      | error e => rfl
      | ok written =>
        show play (if written.val = 0 then _ else _) = if written.val = 0 then _ else _
        by_cases hzero : written.val = 0
        · rw [if_pos hzero, if_pos hzero]
          rfl
        · have hpos : 0 < data.length := List.length_pos_iff.mpr hdata
          rw [if_neg hzero, if_neg hzero]
          refine ih _ ?_ _ rfl
          rw [List.length_drop]
          omega

theorem play_writeCopies (config : TcpPrinterConfig) (data : Bytes) (copies : ℕ) (base : ℕ) :
    play (Scripted.writeCopies config data copies) =
      forEach (fun _ => mapErr (partialError config) (writeAll data))
        (List.range' base copies) := by
  induction copies generalizing base with
  | zero => rfl
  | succ copies ih =>
    rw [Scripted.writeCopies, play_attempt, play_writeAll, List.range'_succ, forEach]
    congr 1
    funext _
    exact ih (base + 1)

theorem mapErr_id {ε α : Type} (m : Prog StreamCall.Answer ε α) : mapErr id m = m := by
  funext s
  unfold mapErr
  cases m s with
  | mk r s' => cases r <;> rfl

theorem play_send (config : TcpPrinterConfig) (data : Bytes) (copies : ℕ) :
    play (Scripted.send config data copies) = send config data copies := by
  have hnodelay : mapErr (partialError config) (play (Script.ask StreamCall.setNodelay)) =
      Interaction.ask StreamCall.setNodelay >>= fun a => ofExcept (partialError config) a :=
    mapErr_play_call _ StreamCall.setNodelay fun a => a
  have htimeout : mapErr (partialError config)
        (play (Script.ask (StreamCall.setWriteTimeout config.writeTimeout))) =
      Interaction.ask (StreamCall.setWriteTimeout config.writeTimeout) >>=
        fun a => ofExcept (partialError config) a :=
    mapErr_play_call _ (StreamCall.setWriteTimeout config.writeTimeout) fun a => a
  have hflush : mapErr (partialError config) (play (Script.ask StreamCall.flush)) =
      Interaction.ask StreamCall.flush >>= fun a => ofExcept (partialError config) a :=
    mapErr_play_call _ StreamCall.flush fun a => a
  have hcopies := play_writeCopies config data copies 0
  rw [← List.range_eq_range'] at hcopies
  simp only [Scripted.send, play_attempt, mapErr_id, hnodelay, htimeout, hflush, hcopies]
  rfl

/-- A script over all calls: those on its connection are performed on a session, the others are
answered by the provider itself. -/
def playAll {ε α : Type} (own : (call : Call) → call.Answer) :
    Script Call.Answer (Except ε α) → Prog StreamCall.Answer ε α
  | .done (.ok a) => pure a
  | .done (.error e) => fail e
  | .call (.stream q) next => Interaction.ask q >>= fun a => playAll own (next a)
  | .call call next => playAll own (next (own call))

section

variable {own : (call : Call) → call.Answer}

/-- What follows a script sees how it ended. -/
theorem playAll_bind {ε ε' α β : Type} (m : Script Call.Answer (Except ε α))
    (next : Except ε α → Script Call.Answer (Except ε' β)) (s : Session StreamCall.Answer) :
    playAll own (m >>= next) s = playAll own (next (playAll own m s).1) (playAll own m s).2 := by
  induction m generalizing s with
  | done r => cases r <;> rfl
  | call q k ih => cases q <;> exact ih _ _

theorem playAll_onStream {ε α : Type} (m : Script StreamCall.Answer (Except ε α)) :
    playAll own (Scripted.onStream m) = play m := by
  induction m with
  | done r => cases r <;> rfl
  | call q k ih =>
    funext s
    exact congrFun (ih _) _

theorem playAll_deliver (config : TcpPrinterConfig) (data : Bytes) (copies : ℕ) :
    playAll own (Scripted.deliver config data copies) = deliver config data copies := by
  funext s
  rw [Scripted.deliver, playAll_bind, playAll_onStream, play_connect, deliver]
  cases hconnected : connect config config.connectTimeout s with
  | mk r s' =>
    cases r with
    | error e =>
      refine (bind_of_error ?_).symm
      simp only [mapErr, hconnected]
    | ok a =>
      have hmapped : mapErr (connectError config) (connect config config.connectTimeout) s =
          (.ok a, s') := by
        simp only [mapErr, hconnected]
      rw [bind_of_ok hmapped]
      -- the stream is dropped, whatever became of the data
      show playAll own (Scripted.onStream (Scripted.send config data copies) >>= _) s' = _
      rw [playAll_bind, playAll_onStream, play_send]
      cases hsent : send config data copies s' with
      | mk sent s'' => cases sent <;> rfl

/-- **The calls of a scripted submission on its connection are those of the program**, whatever
the provider's own state answers to the others. -/
theorem playAll_submit (printers : List TcpPrinterConfig) (printer : Printer) (spec : SubmitSpec) :
    playAll own (Scripted.submit printers printer spec) = tcpSubmit printers printer spec := by
  rw [Scripted.submit, tcpSubmit]
  cases configOf printers printer with
  | error e => rfl
  | ok config =>
    cases hpayload : spec.payload with
    | raw bytes language =>
      funext s
      show playAll own (Scripted.deliver config bytes spec.copies >>= _) s = _
      rw [playAll_bind, playAll_deliver]
      show _ = (mapErr (·.withPrinter printer.id) (deliver config bytes spec.copies) >>= fun _ =>
        pure SubmitOutcome.delivered) s
      cases hdelivered : deliver config bytes spec.copies s with
      | mk r s' =>
        cases r with
        | error e =>
          refine (bind_of_error ?_).symm
          simp only [mapErr, hdelivered]
        | ok a =>
          have hmapped : mapErr (·.withPrinter printer.id) (deliver config bytes spec.copies) s =
              (.ok a, s') := by
            simp only [mapErr, hdelivered]
          rw [bind_of_ok hmapped]
          rfl
    | _ => rfl

end

end Tcp

end KilnPrint
