/-
The printer-language registry.

* `PrinterProtocol` — a registered language: its description and its read-only
  inspection of RAW data;
* `ProtocolRegistry.register`, `resolve`, `languages` — the registry, keyed by
  normalised spellings;
* `normalise` — `esc/pos`, `ESC_POS` and `escpos` are one spelling.

`encode_label` is left out: the engine never calls it.
-/
import KilnPrint.Lib.FinMap
import KilnPrint.Model.Document

namespace KilnPrint

inductive LanguageFamily
  | label
  | receipt
  | dotMatrix
  | generic
  deriving DecidableEq, Repr

structure LanguageInfo where
  /-- Canonical id used on the wire. -/
  id : String
  name : String
  family : LanguageFamily
  /-- Alternative spellings accepted from clients. -/
  aliases : List String
  deriving DecidableEq, Repr

structure PrinterProtocol where
  info : LanguageInfo
  /-- The warnings of a read-only check of RAW data. -/
  inspect : Bytes → List String

/-- Keeps the ASCII letters and digits of a spelling, in upper case. -/
def normalise (name : String) : String :=
  .ofList ((name.toList.filter Char.isAlphanum).map Char.toUpper)

structure ProtocolRegistry where
  byKey : FinMap String PrinterProtocol := ∅
  ordered : List PrinterProtocol := []

namespace ProtocolRegistry

def register (r : ProtocolRegistry) (protocol : PrinterProtocol) : ProtocolRegistry where
  byKey := (protocol.info.id :: protocol.info.aliases).foldl
    (fun m key => m.insert (normalise key) protocol) r.byKey
  -- a language of the same id is replaced, and the new one comes last
  ordered := r.ordered.filter (fun p => p.info.id != protocol.info.id) ++ [protocol]

def resolve (r : ProtocolRegistry) (name : String) : Option PrinterProtocol :=
  r.byKey.lookup (normalise name)

def languages (r : ProtocolRegistry) : List LanguageInfo := r.ordered.map (·.info)

end ProtocolRegistry

end KilnPrint
