/-
Two-dimensional codes on a label.

* `Language`, `Language.encode` — the four encoders, as one;
* `Zpl.symbolData`, `Epl.symbolData`, `Tspl.symbolData`, `Cpcl.symbolData` — what a printer
  reads as the payload of a symbol, with the escapes and the code page of its language undone;
* `symbolData_element` — it is the data of the element, flattened;
* `codes_faithful` — **the payloads of a label are the data of its elements if and only if
  the language flattens none of their characters**.

Each language flattens the characters that it flattens in a text for people to read.
-/
import KilnPrint.Protocols.Cpcl
import KilnPrint.Protocols.Tspl
import KilnPrint.Protocols.Zpl

namespace KilnPrint

/-- The data of a two-dimensional code. -/
def LabelElement.code : LabelElement → Option (List Char)
  | qr e => some e.data.toList
  | dataMatrix e => some e.data.toList
  | _ => none

/-- Lines without control bytes are read back. -/
theorem lines_uncontrolled {term : Bytes} (hterm : term ≠ [] ∧ ∀ b ∈ term, b.toNat < 0x20)
    {lines : List Bytes} (h : ∀ line ∈ lines, Uncontrolled line) :
    Pieces.lines term (lines.flatMap (· ++ term)) = (lines, []) := by
  refine Pieces.lines_join hterm.1 lines fun line hline b hb hmem => ?_
  have := h line hline b hb
  have := hterm.2 b hmem
  omega

theorem lines_single {term : Bytes} (hterm : term ≠ [] ∧ ∀ b ∈ term, b.toNat < 0x20)
    {line : Bytes} (h : Uncontrolled line) : Pieces.lines term (line ++ term) = ([line], []) := by
  have hlines := lines_uncontrolled hterm (List.forall_mem_singleton.mpr h)
  rwa [List.flatMap_singleton] at hlines

/-! ### ZPL -/

namespace Zpl

def hexDigit (b : UInt8) : Option UInt8 :=
  if 0x30 ≤ b ∧ b ≤ 0x39 then some (b - 0x30)
  else if 0x41 ≤ b ∧ b ≤ 0x46 then some (b - 0x37)
  else if 0x61 ≤ b ∧ b ≤ 0x66 then some (b - 0x57)
  else none

/-- The bytes of a field after `^FH`: an underscore and two digits are one byte. -/
def unescape : Bytes → Option Bytes
  | [] => some []
  | b :: high :: low :: rest =>
    if b = 0x5F then
      match hexDigit high, hexDigit low with
      | some high, some low => (unescape rest).map ((high * 16 + low) :: ·)
      | _, _ => none
    else (unescape (high :: low :: rest)).map (b :: ·)
  | b :: rest => if b = 0x5F then none else (unescape rest).map (b :: ·)

/-- What follows a command's name. -/
def parameters (name : String) (command : Bytes) : Option Bytes :=
  if (Utf8.encode name.toList).isPrefixOf command then some (command.drop name.length) else none

/-- The payload of a symbol: the data of its field, in UTF-8, after the two modes and the comma
in a QR code. -/
def symbolData (bytes : Bytes) : Option (List Char) := do
  let commands := (Pieces.pieces startsCommand bytes).2
  let field ← commands.findSome? (parameters "^FD")
  let text ← Utf8.decode (← unescape field)
  pure (if commands.any fun c => (parameters "^BQ" c).isSome then text.drop 3 else text)

/-- A character that the language flattens. -/
def flattens (c : Char) : Bool := c == '\r' || c == '\n'

theorem unescape_byte {b : UInt8} (h : b ≠ 0x5F) (rest : Bytes) :
    unescape (b :: rest) = (unescape rest).map (b :: ·) := by
  rw [unescape.eq_def]
  split
  · next h => cases h
  · next heq =>
    obtain ⟨rfl, rfl⟩ := List.cons.inj heq
    rw [if_neg h]
  · next heq =>
    obtain ⟨rfl, rfl⟩ := List.cons.inj heq
    rw [if_neg h]

theorem unescape_plain {bytes : Bytes} (h : 0x5F ∉ bytes) (rest : Bytes) :
    unescape (bytes ++ rest) = (unescape rest).map (bytes ++ ·) := by
  induction bytes with
  | nil => simp
  | cons b bytes ih =>
    rw [List.mem_cons, not_or] at h
    rw [List.cons_append, unescape_byte (Ne.symm h.1), ih h.2, Option.map_map]
    rfl

theorem unescape_hex {high low h l : UInt8} (hhigh : hexDigit high = some h)
    (hlow : hexDigit low = some l) (rest : Bytes) :
    unescape (0x5F :: high :: low :: rest) = (unescape rest).map ((h * 16 + l) :: ·) := by
  rw [unescape, if_pos rfl, hhigh, hlow]

/-- **A field reads back flattened.** -/
theorem unescape_field (text : List Char) :
    unescape (Utf8.encode (field text)) =
      some (Utf8.encode (text.map fun c => if flattens c then ' ' else c)) := by
  induction text with
  | nil => rfl
  | cons c rest ih =>
    have hfield : Utf8.encode (field (c :: rest)) =
        Utf8.encode (fieldChar c) ++ Utf8.encode (field rest) := by
      rw [← Utf8.encode_append]
      rfl
    have hcons : ∀ (d : Char) (tail : List Char),
        Utf8.encode (d :: tail) = String.utf8EncodeChar d ++ Utf8.encode tail := fun _ _ => rfl
    rw [hfield, List.map_cons, hcons]
    by_cases hunderscore : c = '_'
    · subst hunderscore
      show unescape (0x5F :: 0x35 :: 0x46 :: Utf8.encode (field rest)) = _
      rw [unescape_hex (h := 5) (l := 15) (by decide) (by decide), ih]
      rfl
    · by_cases hcaret : c = '^'
      · subst hcaret
        show unescape (0x5F :: 0x35 :: 0x45 :: Utf8.encode (field rest)) = _
        rw [unescape_hex (h := 5) (l := 14) (by decide) (by decide), ih]
        rfl
      · by_cases htilde : c = '~'
        · subst htilde
          show unescape (0x5F :: 0x37 :: 0x45 :: Utf8.encode (field rest)) = _
          rw [unescape_hex (h := 7) (l := 14) (by decide) (by decide), ih]
          rfl
        -- line breaks become blanks; everything else is written as it is
        · by_cases hbreak : c = '\r' ∨ c = '\n'
          · have hblank : fieldChar c = [' '] := by
              rw [fieldChar, if_neg hunderscore, if_neg hcaret, if_neg htilde, if_pos hbreak]
            have hflattens : flattens c = true := by
              simpa [flattens] using hbreak
            rw [hblank, hflattens]
            show unescape ([0x20] ++ Utf8.encode (field rest)) = _
            rw [unescape_plain (by decide), ih]
            rfl
          · have hchar : fieldChar c = [c] := by
              rw [fieldChar, if_neg hunderscore, if_neg hcaret, if_neg htilde, if_neg hbreak]
            have hkeeps : flattens c = false := by
              simpa [flattens, not_or] using hbreak
            have hbyte : (0x5F : UInt8) ∉ String.utf8EncodeChar c := fun hmem =>
              hunderscore ((Utf8.mem_encodeChar_iff (d := '_') (by decide)).mp hmem)
            rw [hchar, hkeeps, hcons, show Utf8.encode [] = [] from rfl, List.append_nil,
              unescape_plain hbyte, ih]
            rfl

theorem parameters_append {name : String} (hname : (Utf8.encode name.toList).length = name.length)
    (rest : List Char) :
    parameters name (Utf8.encode (name.toList ++ rest)) = some (Utf8.encode rest) := by
  have hprefix : (Utf8.encode name.toList).isPrefixOf (Utf8.encode name.toList ++ Utf8.encode rest) :=
    List.isPrefixOf_iff_prefix.mpr (List.prefix_append _ _)
  rw [Utf8.encode_append, parameters, if_pos hprefix, ← hname, List.drop_left]

/-- **A symbol reads back as its data, flattened.** -/
theorem symbolData_element (d : Dots) {element : LabelElement} {data : List Char}
    (hcode : element.code = some data) :
    symbolData (Utf8.encode (encodeElement d element)) =
      some (data.map fun c => if flattens c then ' ' else c) := by
  have hpieces : element.isRaw = false → FontPlain element →
      (Pieces.pieces startsCommand (Utf8.encode (encodeElement d element))).2 =
        (elementCommands d element).map Utf8.encode := by
    intro hraw hfont
    have hcommands := (elementCommands_iff d hraw).mpr hfont
    rw [encodeElement_eq, Utf8.encode_flatten,
      Pieces.pieces_flatten (List.forall_mem_map.mpr hcommands)]
  have hfield : ∀ rest, parameters "^FD" (Utf8.encode ("^FD".toList ++ rest)) =
      some (Utf8.encode rest) := parameters_append rfl
  cases element with
  | text e | barcode e | box e | raw data => cases hcode
  | qr e =>
    obtain rfl := Option.some.inj hcode
    have hmodes : field (eccLetter e.errorCorrection :: 'A' :: ',' :: e.data.toList) =
        [eccLetter e.errorCorrection] ++ "A,".toList ++ field e.data.toList := by
      cases e.errorCorrection <;> rfl
    have hfound : ((elementCommands d (.qr e)).map Utf8.encode).findSome? (parameters "^FD") =
        some (Utf8.encode (field (eccLetter e.errorCorrection :: 'A' :: ',' :: e.data.toList))) := by
      rw [hmodes, ← hfield]
      rfl
    have hkind : (((elementCommands d (.qr e)).map Utf8.encode).any
        fun c => (parameters "^BQ" c).isSome) = true := rfl
    rw [symbolData, hpieces rfl trivial, hfound, Option.bind_eq_bind, Option.bind_some,
      unescape_field, hkind]
    simp only [Option.bind_eq_bind, Option.bind_some, Utf8.decode_encode, List.map_cons]
    rfl
  | dataMatrix e =>
    obtain rfl := Option.some.inj hcode
    have hfound : ((elementCommands d (.dataMatrix e)).map Utf8.encode).findSome?
        (parameters "^FD") = some (Utf8.encode (field e.data.toList)) := by
      rw [← hfield]
      rfl
    have hkind : (((elementCommands d (.dataMatrix e)).map Utf8.encode).any
        fun c => (parameters "^BQ" c).isSome) = false := rfl
    rw [symbolData, hpieces rfl trivial, hfound, Option.bind_eq_bind, Option.bind_some,
      unescape_field, hkind]
    simp only [Option.bind_eq_bind, Option.bind_some, Utf8.decode_encode]
    rfl

end Zpl

/-! ### EPL, TSPL and CPCL -/

namespace Epl

/-- The payload of a symbol: the string of its line. -/
def symbolData (bytes : Bytes) : Option (List Char) := do
  let line ← (Pieces.lines newline bytes).1.head?
  let text ← CodePage.decode cp437High line
  (← strings false text).head?

theorem symbolData_element {encodings : Whatwgs} {d : Dots} {element : LabelElement} {line : Bytes}
    (hvalid : element.validate = .ok ()) {data : List Char} (hcode : element.code = some data)
    (h : encodeElement encodings d element = .ok line) :
    symbolData (line ++ newline) = some (singleLine data) := by
  cases element with
  | text e | barcode e | box e | raw raw => cases hcode
  | dataMatrix e => cases h
  | qr e =>
    obtain rfl := Option.some.inj hcode
    obtain ⟨⟨text, htext, hstrings⟩, huncontrolled⟩ := element_line hvalid rfl rfl h
    rw [symbolData, lines_single ⟨by decide, Utf8.forall_of_all (by decide)⟩ huncontrolled,
      List.head?_cons]
    simp only [Option.bind_eq_bind, Option.bind_some, htext, hstrings]
    rfl

end Epl

namespace Tspl

/-- The payload of a symbol: the string of its line. -/
def symbolData (bytes : Bytes) : Option (List Char) := do
  let line ← (Pieces.lines crLf bytes).1.head?
  let text ← CodePage.decode windows1252High line
  (← strings false text).head?

theorem symbolData_element {encodings : Whatwgs}
    (hencodings : encodings "windows-1252" = some windows1252) {d : Dots} {element : LabelElement}
    {line : Bytes} (hvalid : element.validate = .ok ()) {data : List Char}
    (hcode : element.code = some data) (h : encodeElement encodings d element = .ok line) :
    symbolData (line ++ crLf) = some (singleLine data) := by
  cases element with
  | text e | barcode e | box e | raw raw => cases hcode
  | qr e | dataMatrix e =>
    obtain rfl := Option.some.inj hcode
    obtain ⟨⟨text, htext, hstrings⟩, huncontrolled⟩ := element_line hencodings hvalid rfl rfl h
    rw [symbolData, lines_single ⟨by decide, Utf8.forall_of_all (by decide)⟩ huncontrolled,
      List.head?_cons]
    simp only [Option.bind_eq_bind, Option.bind_some, htext, hstrings]
    rfl

end Tspl

namespace Cpcl

/-- The payload of a symbol: the line after its command, behind the modes and the comma. -/
def symbolData (bytes : Bytes) : Option (List Char) := do
  let line ← (Pieces.lines crLf bytes).1[1]?
  (·.drop 3) <$> CodePage.decode cp437High line

theorem symbolData_element {encodings : Whatwgs} {d : Dots} {element : LabelElement}
    {lines : List Bytes} (hvalid : element.validate = .ok ()) {data : List Char}
    (hcode : element.code = some data) (h : encodeElement encodings d element = .ok lines) :
    symbolData (lines.flatMap (· ++ crLf)) = some (singleLine data) := by
  cases element with
  | text e | barcode e | box e | raw raw => cases hcode
  | dataMatrix e => cases h
  | qr e =>
    obtain rfl := Option.some.inj hcode
    have hwritten := element_written hvalid rfl h
    have huncontrolled : ∀ line ∈ lines, Uncontrolled line :=
      forall_of_forall₂ hwritten.flip fun _ _ h => h.uncontrolled
    rw [symbolData, lines_uncontrolled ⟨by decide, Utf8.forall_of_all (by decide)⟩ huncontrolled]
    obtain ⟨first, rest, -, hrest, rfl⟩ := List.forall₂_cons_right_iff.mp hwritten
    obtain ⟨line, rest, hline, -, rfl⟩ := List.forall₂_cons_right_iff.mp hrest
    simp only [List.getElem?_cons_succ, List.getElem?_cons_zero, Option.bind_eq_bind,
      Option.bind_some, hline.decode]
    rfl

end Cpcl

/-! ### The four languages -/

/-- The languages of labels. -/
inductive Language
  | zpl
  | epl
  | tspl
  | cpcl
  deriving DecidableEq, Repr

namespace Language

/-- `encode` of a language. -/
def encode (language : Language) (encodings : Whatwgs) (floats : Floats) (label : LabelDocument) :
    Except PrintError Bytes :=
  match language with
  | zpl => .ok (Zpl.encode floats label)
  | epl => Epl.encode encodings floats label
  | tspl => Tspl.encode encodings floats label
  | cpcl => Cpcl.encode encodings floats label

/-- What stands before the elements. -/
def header (language : Language) (d : Dots) : Bytes :=
  match language with
  | zpl => Utf8.encode (Zpl.encodeHeader d)
  | epl => ((Epl.headerLines d).map Utf8.encode).flatMap (· ++ Epl.newline)
  | tspl => ((Tspl.headerLines d).map Utf8.encode).flatMap (· ++ Tspl.crLf)
  | cpcl => ((Cpcl.headerLines d).map Utf8.encode).flatMap (· ++ Cpcl.crLf)

/-- The bytes of an element. -/
def element (language : Language) (encodings : Whatwgs) (d : Dots) (e : LabelElement) :
    Except PrintError Bytes :=
  match language with
  | zpl => .ok (Utf8.encode (Zpl.encodeElement d e))
  | epl => (· ++ Epl.newline) <$> Epl.encodeElement encodings d e
  | tspl => (· ++ Tspl.crLf) <$> Tspl.encodeElement encodings d e
  | cpcl => (fun lines => lines.flatMap (· ++ Cpcl.crLf)) <$> Cpcl.encodeElement encodings d e

/-- What stands after the elements. -/
def final : Language → Bytes
  | zpl => Utf8.encode "^XZ\n".toList
  | epl => Utf8.encode "P1\n".toList
  | tspl => Utf8.encode "PRINT 1".toList ++ Tspl.crLf
  | cpcl => (Cpcl.finalLines.map Utf8.encode).flatMap (· ++ Cpcl.crLf)

/-- The payload that a printer reads in the bytes of a symbol. -/
def symbolData : Language → Bytes → Option (List Char)
  | zpl => Zpl.symbolData
  | epl => Epl.symbolData
  | tspl => Tspl.symbolData
  | cpcl => Cpcl.symbolData

/-- A character that the language flattens: ZPL line breaks, the others every control
character. -/
def flattens : Language → Char → Bool
  | zpl => Zpl.flattens
  | epl | tspl | cpcl => isControl

/-- The stream is the header, the bytes of each element and the end. -/
theorem encode_elements {language : Language} {encodings : Whatwgs} {floats : Floats}
    {label : LabelDocument} {bytes : Bytes}
    (h : language.encode encodings floats label = .ok bytes) :
    ∃ body, List.Forall₂ (fun e b => language.element encodings ⟨floats, label⟩ e = .ok b)
        label.elements body ∧
      bytes = language.header ⟨floats, label⟩ ++ body.flatten ++ language.final := by
  have hmap : ∀ {β : Type} {f : LabelElement → Except PrintError β} (form : β → Bytes)
      {body : List β}, label.elements.mapM f = .ok body →
      List.Forall₂ (fun e b => form <$> f e = .ok b) label.elements (body.map form) := by
    intro β f form body hbody
    rw [List.forall₂_map_right_iff]
    exact (mapM_eq_ok_iff.mp hbody).imp fun _ _ h => Except.map_eq_ok.mpr ⟨_, h, rfl⟩
  cases language with
  | zpl =>
    obtain rfl := Except.ok.inj h
    refine ⟨label.elements.map fun e => Utf8.encode (Zpl.encodeElement ⟨floats, label⟩ e), ?_, ?_⟩
    · rw [List.forall₂_map_right_iff]
      exact List.forall₂_same.mpr fun _ _ => rfl
    · rw [Zpl.encode, Utf8.encode_append, Utf8.encode_append, ← List.flatMap_def, List.flatMap_def,
        Utf8.encode_flatten, List.map_map]
      rfl
  | epl =>
    obtain ⟨body, hbody, h⟩ := Except.bind_eq_ok.mp h
    exact ⟨_, hmap (· ++ Epl.newline) hbody, (Except.ok.inj h).symm.trans (by rw [List.flatMap_def]; rfl)⟩
  | tspl =>
    obtain ⟨body, hbody, h⟩ := Except.bind_eq_ok.mp h
    exact ⟨_, hmap (· ++ Tspl.crLf) hbody, (Except.ok.inj h).symm.trans (by rw [List.flatMap_def]; rfl)⟩
  | cpcl =>
    obtain ⟨body, hbody, h⟩ := Except.bind_eq_ok.mp h
    refine ⟨_, hmap (fun lines : List Bytes => lines.flatMap (· ++ Cpcl.crLf)) hbody,
      (Except.ok.inj h).symm.trans ?_⟩
    have hlines : body.flatten.flatMap (· ++ Cpcl.crLf) =
        (body.map fun lines : List Bytes => lines.flatMap (· ++ Cpcl.crLf)).flatten := by
      simp only [List.flatMap_def, List.map_flatten, List.flatten_flatten, List.map_map]
      rfl
    rw [List.flatMap_append, List.flatMap_append, hlines]
    rfl

/-- **What is read of a symbol is its data, flattened.** -/
theorem symbolData_element {language : Language} {encodings : Whatwgs}
    (hencodings : encodings "windows-1252" = some windows1252) {d : Dots} {element : LabelElement}
    {bytes : Bytes} (hvalid : element.validate = .ok ()) {data : List Char}
    (hcode : element.code = some data) (h : language.element encodings d element = .ok bytes) :
    language.symbolData bytes = some (data.map fun c => if language.flattens c then ' ' else c) := by
  cases language with
  | zpl =>
    obtain rfl := Except.ok.inj h
    exact Zpl.symbolData_element d hcode
  | epl =>
    obtain ⟨line, hline, rfl⟩ := Except.map_eq_ok.mp h
    exact Epl.symbolData_element hvalid hcode hline
  | tspl =>
    obtain ⟨line, hline, rfl⟩ := Except.map_eq_ok.mp h
    exact Tspl.symbolData_element hencodings hvalid hcode hline
  | cpcl =>
    obtain ⟨lines, hlines, rfl⟩ := Except.map_eq_ok.mp h
    exact Cpcl.symbolData_element hvalid hcode hlines

/-- The payload that a printer reads for each symbol of a stream is the data of the element. -/
def Carries (language : Language) (encodings : Whatwgs) (floats : Floats) (label : LabelDocument)
    (bytes : Bytes) : Prop :=
  ∃ body, List.Forall₂ (fun e b => language.element encodings ⟨floats, label⟩ e = .ok b ∧
      ∀ data, e.code = some data → language.symbolData b = some data) label.elements body ∧
    bytes = language.header ⟨floats, label⟩ ++ body.flatten ++ language.final

/-- The language flattens no character of the element's data. -/
def Keeps (language : Language) (e : LabelElement) : Prop :=
  ∀ data, e.code = some data → ∀ c ∈ data, language.flattens c = false

/-- Flattening changes exactly the texts with a character that is flattened. -/
theorem flattened_eq_iff {language : Language} {data : List Char} :
    (data.map fun c => if language.flattens c then ' ' else c) = data ↔
      ∀ c ∈ data, language.flattens c = false := by
  have hblank : language.flattens ' ' = false := by
    cases language <;> decide
  constructor
  · intro h c hc
    rw [← h] at hc
    obtain ⟨c', -, rfl⟩ := List.mem_map.mp hc
    split
    · exact hblank
    · next hkeeps => simpa using hkeeps
  · intro h
    refine (List.map_congr_left fun c hc => ?_).trans (List.map_id _)
    rw [h c hc]
    rfl

theorem carries_iff {language : Language} {encodings : Whatwgs}
    (hencodings : encodings "windows-1252" = some windows1252) {floats : Floats}
    {label : LabelDocument} (hvalid : label.validate = .ok ()) {bytes : Bytes}
    (h : language.encode encodings floats label = .ok bytes) :
    language.Carries encodings floats label bytes ↔ ∀ e ∈ label.elements, language.Keeps e := by
  obtain ⟨body, hbody, hbytes⟩ := encode_elements h
  have hknown := (List.forall₂_and_left _ _).mpr
    ⟨fun e he => LabelDocument.validate_elements hvalid e he, hbody⟩
  have hread : ∀ {e : LabelElement} {b : Bytes}, e.validate = .ok () →
      language.element encodings ⟨floats, label⟩ e = .ok b →
      ((∀ data, e.code = some data → language.symbolData b = some data) ↔ language.Keeps e) := by
    intro e b hvalid hb
    refine forall_congr' fun data => imp_congr_right fun hcode => ?_
    rw [symbolData_element hencodings hvalid hcode hb, Option.some.injEq, flattened_eq_iff]
  constructor
  · rintro ⟨body', hbody', -⟩
    intro e he
    obtain ⟨b, hb, hcarries⟩ := forall₂_exists hbody' e he
    exact (hread (LabelDocument.validate_elements hvalid e he) hb).mp hcarries
  · intro hkeeps
    refine ⟨body, ((List.forall₂_and_left _ _).mpr ⟨hkeeps, hknown⟩).imp ?_, hbytes⟩
    rintro e b ⟨hkeeps, hvalid, hb⟩
    exact ⟨hb, (hread hvalid hb).mpr hkeeps⟩

end Language

/-- **Two-dimensional codes.**  In what an encoder writes of a valid label, the payload that a
printer reads for each QR and Data Matrix element is the element's data, exactly where the
language flattens no character of these data. -/
theorem codes_faithful {language : Language} {encodings : Whatwgs}
    (hencodings : encodings "windows-1252" = some windows1252) {floats : Floats}
    {label : LabelDocument} (hvalid : label.validate = .ok ()) {bytes : Bytes}
    (h : language.encode encodings floats label = .ok bytes) :
    language.Carries encodings floats label bytes ↔ ∀ e ∈ label.elements, language.Keeps e :=
  language.carries_iff hencodings hvalid h

/-- A label with one QR code. -/
def qrLabel (data : String) : LabelDocument where
  widthMm := (100 : ℚ)
  heightMm := (50 : ℚ)
  elements := [.qr { xMm := (5 : ℚ), yMm := (5 : ℚ), data := data }]

instance (language : Language) (e : LabelElement) : Decidable (language.Keeps e) :=
  decidable_of_iff (e.code.all fun data => data.all fun c => !language.flattens c) (by
    unfold Language.Keeps
    cases e.code <;> simp)

theorem codes_faithful_quoted : ∃ bytes,
    Language.tspl.encode onlyWindows1252 .exact (qrLabel "a\"b_c^d\\[") = .ok bytes ∧
      Language.tspl.Carries onlyWindows1252 .exact (qrLabel "a\"b_c^d\\[") bytes := by
  obtain ⟨bytes, h⟩ : ∃ bytes,
      Language.tspl.encode onlyWindows1252 .exact (qrLabel "a\"b_c^d\\[") = .ok bytes :=
    Except.exists_ok (by decide +kernel)
  exact ⟨bytes, h, (codes_faithful rfl (by decide +kernel) h).mpr (by decide)⟩

/-- **A contact in a QR code loses its lines**, in every language. -/
theorem lines_lost : (qrLabel "BEGIN:VCARD\r\nEND:VCARD").validate = .ok () ∧
    ∀ language : Language, ∃ bytes,
      language.encode onlyWindows1252 .exact (qrLabel "BEGIN:VCARD\r\nEND:VCARD") = .ok bytes ∧
        ¬ language.Carries onlyWindows1252 .exact (qrLabel "BEGIN:VCARD\r\nEND:VCARD") bytes := by
  have hvalid : (qrLabel "BEGIN:VCARD\r\nEND:VCARD").validate = .ok () := by decide +kernel
  refine ⟨hvalid, fun language => ?_⟩
  obtain ⟨bytes, h⟩ : ∃ bytes,
      language.encode onlyWindows1252 .exact (qrLabel "BEGIN:VCARD\r\nEND:VCARD") = .ok bytes := by
    apply Except.exists_ok
    cases language <;> decide +kernel
  refine ⟨bytes, h, fun hcarries => ?_⟩
  have hkeeps := (language.carries_iff rfl hvalid h).mp hcarries
  revert hkeeps
  cases language <;> decide

end KilnPrint
