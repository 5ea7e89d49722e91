/-
Printers, their states and conditions.

* `Printer` — one entry of the discovery cache, with the fields the engine
  reads or compares;
* `Printer.statusDiffers` — what the discovery loop reports as a change;
* `PrinterId.derive` — the id of a printer from its provider and native name.

`capabilities` is left out: the engine's job paths never read it.
-/
import KilnPrint.Model.Error

namespace KilnPrint

/-- The hexadecimal digits of `n`, padded with zeros to `width`. -/
def padHex (width n : ℕ) : String :=
  let digits := Nat.toDigits 16 n
  .ofList (List.replicate (width - digits.length) '0' ++ digits)

/-- FNV-1a over 64 bits: stable across releases and platforms. -/
def fnv1a (bytes : List UInt8) : UInt64 :=
  bytes.foldl (fun hash byte => (hash ^^^ byte.toUInt64) * 0x00000100000001b3) 0xcbf29ce484222325

def PrinterId.derive (provider nativeName : String) : PrinterId :=
  let hash := fnv1a (provider.toUTF8.toList ++ [0] ++ nativeName.toUTF8.toList)
  let digits := padHex 16 hash.toNat
  s!"{provider}-{digits}"

inductive ConnectionType
  | localPort
  | network
  | usb
  | serial
  | virtual
  deriving DecidableEq, Repr

inductive PrinterState
  | ready
  | printing
  | paused
  | offline
  | error
  | unknown
  deriving DecidableEq, Repr

inductive PrinterCondition
  | paused
  | error
  | offline
  | notAvailable
  | pendingDeletion
  | paperOut
  | paperJam
  | paperProblem
  | manualFeed
  | doorOpen
  | outputBinFull
  | tonerLow
  | noToner
  | outOfMemory
  | userIntervention
  | busy
  | warmingUp
  | powerSave
  | paperLow
  | headOpen
  | ribbonOut
  deriving DecidableEq, Repr

structure Printer where
  id : PrinterId
  /-- Native name used to address the device through its provider. -/
  name : String
  displayName : String
  /-- Id of the provider that owns this printer. -/
  provider : String
  connection : ConnectionType
  driver : Option String
  port : Option String
  location : Option String
  default : Bool
  online : Bool
  status : PrinterState
  conditions : List PrinterCondition
  queuedJobs : Option ℕ
  language : Option String
  deriving DecidableEq, Repr

/-- True when anything a client would care about changed between two snapshots. -/
def Printer.statusDiffers (p other : Printer) : Bool :=
  p.online != other.online || p.status != other.status ||
    p.conditions != other.conditions || p.default != other.default

end KilnPrint
