/-
Control bytes in receipts and dot-matrix documents.

* `CharCode` — encodings that write each character by itself;
* `Standard` — what the library of encodings documents: every encoding is such a code,
  except ISO-2022-JP, which announces each change of its character set with an escape;
* `Clear` — the texts that an encoder writes without control bytes;
* `receipt_texts`, `dotMatrix_texts` — each text that reaches the encoder becomes one
  piece of the stream;
* `text_control_bytes` — **the client's text is written without control bytes exactly
  where the texts that reach the encoder are clear**.
-/
import KilnPrint.Protocols.CodePage
import KilnPrint.Renderers.DotMatrix

namespace KilnPrint

/-! ### Encodings -/

/-- An encoding that writes each character by itself, ASCII as its byte and no other
character with a control byte. -/
structure CharCode where
  code : Char → Option Bytes
  ascii : ∀ c, c.toNat < 0x80 → code c = some [UInt8.ofNat c.toNat]
  high : ∀ c bytes, 0x80 ≤ c.toNat → code c = some bytes → Uncontrolled bytes

namespace CharCode

/-- The bytes are what is written of the text. -/
def Writes (k : CharCode) (text : List Char) (bytes : Bytes) : Prop :=
  ∃ parts, List.Forall₂ (fun c b => k.code c = some b) text parts ∧ parts.flatten = bytes

/-- **Control bytes come from control characters.** -/
theorem uncontrolled_iff {k : CharCode} {text : List Char} {bytes : Bytes}
    (h : k.Writes text bytes) : Uncontrolled bytes ↔ ∀ c ∈ text, 0x20 ≤ c.toNat := by
  obtain ⟨parts, hparts, rfl⟩ := h
  induction hparts with
  | nil => simp [Uncontrolled]
  | @cons c part text parts hc _ ih =>
    rw [List.flatten_cons, uncontrolled_append, List.forall_mem_cons, ih]
    refine and_congr_left fun _ => ?_
    by_cases hascii : c.toNat < 0x80
    · obtain rfl := Option.some.inj (hc.symm.trans (k.ascii c hascii))
      have hnat : (UInt8.ofNat c.toNat).toNat = c.toNat := Utf8.toNat_ofNat (by omega)
      simp [Uncontrolled, hnat]
    · have hhigh := k.high c part (by omega) hc
      exact ⟨fun _ => by omega, fun _ => hhigh⟩

end CharCode

def utf8CharCode : CharCode where
  code c := some (String.utf8EncodeChar c)
  ascii _ h := congrArg some (Utf8.encodeChar_ascii h)
  high c bytes hc h := by
    obtain rfl := Option.some.inj h
    intro b hb
    have := Utf8.le_of_mem_encodeChar hc hb
    omega

theorem utf8CharCode_writes (text : List Char) : utf8CharCode.Writes text (Utf8.encode text) := by
  refine ⟨text.map String.utf8EncodeChar, ?_, (List.flatMap_def).symm⟩
  induction text with
  | nil => exact .nil
  | cons c text ih => exact .cons rfl ih

/-- An encoding of one byte per character. -/
def singleCode (code : Char → Option UInt8)
    (ascii : ∀ c, c.toNat < 0x80 → code c = some (UInt8.ofNat c.toNat))
    (high : ∀ c b, 0x80 ≤ c.toNat → code c = some b → 0x20 ≤ b.toNat) : CharCode where
  code c := (code c).map fun b => [b]
  ascii c h := by rw [ascii c h]; rfl
  high c bytes hc h := by
    obtain ⟨b, hb, rfl⟩ := Option.map_eq_some_iff.mp h
    intro b' hb'
    rw [List.mem_singleton.mp hb']
    exact high c b hc hb

theorem singleCode_writes {code : Char → Option UInt8}
    {ascii : ∀ c, c.toNat < 0x80 → code c = some (UInt8.ofNat c.toNat)}
    {high : ∀ c b, 0x80 ≤ c.toNat → code c = some b → 0x20 ≤ b.toNat} {text : List Char}
    {bytes : Bytes} (h : List.Forall₂ (fun c b => code c = some b) text bytes) :
    (singleCode code ascii high).Writes text bytes := by
  refine ⟨bytes.map fun b => [b], ?_, List.flatMap_def.symm.trans (List.flatMap_singleton' bytes)⟩
  induction h with
  | nil => exact .nil
  | @cons c b _ _ hb _ ih =>
    have hcode : (singleCode code ascii high).code c = some [b] := by
      show (code c).map (fun b => [b]) = some [b]
      rw [hb]
      rfl
    exact .cons hcode ih

/-- A single-byte page. -/
def pageCode (table : List Char) (htable : table.length ≤ 128) : CharCode :=
  singleCode (CodePage.encodeChar table) (fun _ h => if_pos h)
    fun _ _ hc hb => CodePage.le_of_encodeChar htable (by omega) hb

/-- ISO-2022-JP writes ASCII as it is, refuses the characters of its own escapes, and escapes
to another character set for every other character. -/
structure Whatwg.Escaping (w : Whatwg) : Prop where
  ascii : ∀ text, (∀ c ∈ text, c.toNat < 0x80 ∧ c.toNat ∉ [0x0E, 0x0F, 0x1B]) →
    w.encode text = (Utf8.encode text, false)
  refuses : ∀ text bytes, w.encode text = (bytes, false) →
    ∀ c ∈ text, c.toNat ∉ [0x0E, 0x0F, 0x1B]
  escapes : ∀ text bytes, w.encode text = (bytes, false) → (∃ c ∈ text, 0x80 ≤ c.toNat) →
    0x1B ∈ bytes

/-- What the library documents of its encodings. -/
def Standard (encodings : Whatwgs) : Prop :=
  ∀ label w, encodings label = some w →
    if w.name = "ISO-2022-JP" then w.Escaping
    else ∃ k : CharCode, ∀ text bytes, w.encode text = (bytes, false) → k.Writes text bytes

namespace TextEncoder

/-- Whether the encoder escapes to other character sets. -/
def escaping : TextEncoder → Bool
  | whatwg w => w.name == "ISO-2022-JP"
  | _ => false

/-- A text without control characters below U+0020, and in ASCII where others are escaped. -/
def Clear (encoder : TextEncoder) (text : List Char) : Prop :=
  ∀ c ∈ text, 0x20 ≤ c.toNat ∧ (encoder.escaping = true → c.toNat < 0x80)

instance (encoder : TextEncoder) (text : List Char) : Decidable (encoder.Clear text) :=
  decidable_of_iff (text.all fun c => decide (0x20 ≤ c.toNat) &&
    (!encoder.escaping || decide (c.toNat < 0x80))) (by simp [Clear, imp_iff_not_or])

/-- The encoder writes each character by itself. -/
def ByCharacter (encoder : TextEncoder) : Prop :=
  ∃ k : CharCode, ∀ text bytes, encoder.encode text = .ok bytes → k.Writes text bytes

/-- An accepted encoder writes each character by itself, or is the library's. -/
theorem byCharacter_or_whatwg {encodings : Whatwgs} {label : String} {encoder : TextEncoder}
    (h : forLabel encodings label = .ok encoder) :
    (encoder.escaping = false ∧ encoder.ByCharacter) ∨
      ∃ w name, encoder = .whatwg w ∧ encodings name = some w := by
  have hdos : ∀ (table : List Char) (name : String), table.length ≤ 128 →
      (TextEncoder.dos table name).ByCharacter := fun table name htable =>
    ⟨pageCode table htable, fun _ _ hbytes => singleCode_writes (CodePage.dos_eq_ok.mp hbytes)⟩
  dsimp only [forLabel] at h
  split_ifs at h
  · obtain rfl := Except.ok.inj h
    refine .inl ⟨rfl, utf8CharCode, fun text bytes hbytes => ?_⟩
    obtain rfl := Except.ok.inj hbytes
    exact utf8CharCode_writes text
  · obtain rfl := Except.ok.inj h
    exact .inl ⟨rfl, hdos _ _ length_cp437High⟩
  · obtain rfl := Except.ok.inj h
    exact .inl ⟨rfl, hdos _ _ length_cp850High⟩
  · obtain rfl := Except.ok.inj h
    exact .inl ⟨rfl, hdos _ _ length_cp858High⟩
  · split at h
    · next w hw =>
      obtain rfl := Except.ok.inj h
      exact .inr ⟨w, _, rfl, hw⟩
    · cases h

/-- An accepted encoder writes each character by itself, or is ISO-2022-JP. -/
theorem code_or_escaping {encodings : Whatwgs} (hstd : Standard encodings) {label : String}
    {encoder : TextEncoder} (h : forLabel encodings label = .ok encoder) :
    (encoder.escaping = false ∧ encoder.ByCharacter) ∨
      ∃ w, encoder = .whatwg w ∧ w.Escaping ∧ encoder.escaping = true := by
  rcases byCharacter_or_whatwg h with hcode | ⟨w, name, rfl, hw⟩
  · exact .inl hcode
  · have hdoc := hstd name w hw
    split_ifs at hdoc with hname
    · exact .inr ⟨w, rfl, hdoc, beq_iff_eq.mpr hname⟩
    · obtain ⟨k, hk⟩ := hdoc
      exact .inl ⟨beq_eq_false_iff_ne.mpr hname, k, fun text bytes hbytes =>
        hk text bytes (whatwg_eq_ok.mp hbytes)⟩

/-- **What is encoded is free of control bytes exactly where the text is clear.** -/
theorem uncontrolled_iff_clear {encodings : Whatwgs} (hstd : Standard encodings) {label : String}
    {encoder : TextEncoder} (h : forLabel encodings label = .ok encoder) {text : List Char}
    {bytes : Bytes} (hbytes : encoder.encode text = .ok bytes) :
    Uncontrolled bytes ↔ encoder.Clear text := by
  rcases code_or_escaping hstd h with ⟨hescaping, k, hk⟩ | ⟨w, rfl, hw, hescaping⟩
  · rw [CharCode.uncontrolled_iff (hk text bytes hbytes)]
    simp [Clear, hescaping]
  · have hencode := whatwg_eq_ok.mp hbytes
    simp only [Clear, hescaping, forall_const]
    constructor
    · intro huncontrolled
      -- an escape is a control byte, so that there is none
      have hascii : ∀ c ∈ text, c.toNat < 0x80 := by
        intro c hc
        by_contra hhigh
        exact absurd (huncontrolled _ (hw.escapes text bytes hencode ⟨c, hc, by omega⟩)) (by decide)
      have hplain := hw.ascii text fun c hc => ⟨hascii c hc, hw.refuses text bytes hencode c hc⟩
      obtain rfl : bytes = Utf8.encode text := (Prod.ext_iff.mp (hencode.symm.trans hplain)).1
      intro c hc
      exact ⟨(CharCode.uncontrolled_iff (utf8CharCode_writes text)).mp huncontrolled c hc, hascii c hc⟩
    · intro hclear
      have hplain := hw.ascii text fun c hc => ⟨(hclear c hc).2, hw.refuses text bytes hencode c hc⟩
      obtain rfl : bytes = Utf8.encode text := (Prod.ext_iff.mp (hencode.symm.trans hplain)).1
      exact (CharCode.uncontrolled_iff (utf8CharCode_writes text)).mpr fun c hc => (hclear c hc).1

end TextEncoder

/-! ### Texts in the stream -/

/-- The texts that reach the encoder, and what the stream holds of each. -/
def Encoded (encoder : TextEncoder) (texts : List (List Char)) (pieces : List Piece) : Prop :=
  List.Forall₂ (fun text bytes => encoder.encode text = .ok bytes) texts
    (pieces.filterMap Piece.text?)

variable {encoder : TextEncoder}

theorem Encoded.append {s t : List (List Char)} {ps qs : List Piece} (hs : Encoded encoder s ps)
    (ht : Encoded encoder t qs) : Encoded encoder (s ++ t) (ps ++ qs) := by
  rw [Encoded, List.filterMap_append]
  exact List.rel_append hs ht

/-- Pieces that are no text. -/
theorem Encoded.silent {ps : List Piece} (h : ps.filterMap Piece.text? = []) :
    Encoded encoder [] ps := by
  rw [Encoded, h]
  exact .nil

theorem Encoded.flatten {α : Type} {texts : α → List (List Char)} {items : List α}
    {pieces : List (List Piece)}
    (h : List.Forall₂ (fun item ps => Encoded encoder (texts item) ps) items pieces) :
    Encoded encoder (items.flatMap texts) pieces.flatten := by
  induction h with
  | nil => exact .silent rfl
  | cons hps _ ih =>
    rw [List.flatMap_cons, List.flatten_cons]
    exact hps.append ih

theorem Encoded.lines {texts : List (List Char)} {lines : List Bytes}
    (h : texts.mapM encoder.encode = .ok lines) :
    Encoded encoder texts (lines.flatMap Receipt.line) := by
  have htexts : (lines.flatMap Receipt.line).filterMap Piece.text? = lines := by
    clear h
    induction lines with
    | nil => rfl
    | cons l lines ih =>
      rw [List.flatMap_cons, List.filterMap_append, ih]
      rfl
  rw [Encoded, htexts]
  exact mapM_eq_ok_iff.mp h

theorem Encoded.line {text : List Char} {bytes : Bytes} (h : encoder.encode text = .ok bytes) :
    Encoded encoder [text] (Receipt.line bytes) := .cons h .nil

namespace Receipt

theorem bands_silent (width height : ℕ) (bits : Bytes) :
    (bands width height bits).filterMap Piece.text? = [] := by
  induction height, bits using bands.induct width with
  | case1 bits =>
    rw [bands, dif_pos rfl]
    rfl
  | case2 height bits h rows ih =>
    rw [bands, dif_neg h, List.filterMap_append, ih]
    rfl

/-- Dashes stand in for a character that cannot be represented. -/
theorem encodeItem_separator (p : Pictures) (width : ℕ) (character : Char) :
    encodeItem p encoder width (.separator character) =
      line <$> encoder.encode (separatorLine encoder width character) := by
  dsimp only [encodeItem]
  rw [separatorLine]
  cases hchar : encoder.encode (List.replicate width character) with
  | ok bytes =>
    show _ = line <$> encoder.encode (List.replicate width character)
    rw [hchar]
    rfl
  | error e => rfl

/-- **Each text of an item becomes one piece.** -/
theorem encodeItem_texts {p : Pictures} {width : ℕ} {item : ReceiptItem} {ps : List Piece}
    (h : encodeItem p encoder width item = .ok ps) :
    Encoded encoder (texts encoder width item) ps := by
  cases item with
  | text e =>
    obtain ⟨lines, hlines, h⟩ := Except.bind_eq_ok.mp h
    obtain rfl := Except.ok.inj h
    have hon : Encoded encoder [] (textOn e) := .silent rfl
    have hoff : Encoded encoder [] textOff := .silent rfl
    have hall := (hon.append (.lines hlines)).append hoff
    rwa [List.nil_append, List.append_nil] at hall
  | columns left right bold =>
    obtain ⟨bytes, hbytes, h⟩ := Except.bind_eq_ok.mp h
    obtain rfl := Except.ok.inj h
    exact .cons hbytes .nil
  | separator character =>
    rw [encodeItem_separator] at h
    obtain ⟨bytes, hbytes, rfl⟩ := Except.map_eq_ok.mp h
    exact .line hbytes
  | feed lines =>
    obtain rfl := Except.ok.inj h
    exact .silent rfl
  | barcode e =>
    obtain rfl := Except.ok.inj h
    exact .silent rfl
  | qr e =>
    obtain rfl := Except.ok.inj h
    exact .silent rfl
  | image e =>
    obtain ⟨data, -, h⟩ := Except.bind_eq_ok.mp h
    obtain ⟨image, himage, h⟩ := Except.bind_eq_ok.mp h
    obtain ⟨gray, -, himage⟩ := Except.bind_eq_ok.mp himage
    obtain rfl := Except.ok.inj himage
    obtain rfl := Except.ok.inj h
    refine .silent ?_
    rw [List.filterMap_append, List.filterMap_append, bands_silent]
    rfl
  | cut isPartial feedLines =>
    obtain rfl := Except.ok.inj h
    exact .silent rfl
  | drawer pin =>
    obtain rfl := Except.ok.inj h
    exact .silent rfl
  | raw data =>
    obtain ⟨bytes, -, h⟩ := Except.bind_eq_ok.mp h
    obtain rfl := Except.ok.inj h
    exact .silent rfl

/-- **Each text of a receipt becomes one piece of its stream.** -/
theorem receipt_texts {p : Pictures} {encodings : Whatwgs} {receipt : ReceiptDocument}
    {ps : List Piece} (h : pieces p encodings receipt = .ok ps) :
    ∃ encoder, TextEncoder.forLabel encodings receipt.codePage = .ok encoder ∧
      Encoded encoder (receipt.items.flatMap (texts encoder receipt.widthChars.toNat)) ps := by
  obtain ⟨encoder, hencoder, h⟩ := Except.bind_eq_ok.mp h
  obtain ⟨items, hitems, h⟩ := Except.bind_eq_ok.mp h
  obtain rfl := Except.ok.inj h
  refine ⟨encoder, hencoder, ?_⟩
  have hheader : (header encodings receipt).filterMap Piece.text? = [] := by
    unfold header
    cases (canonicalName encodings receipt.codePage).bind EscPos.codeTableFor <;> rfl
  have htrailer : (trailer receipt).filterMap Piece.text? = [] := by
    unfold trailer
    split <;> split <;> rfl
  have hbody := Encoded.flatten ((mapM_eq_ok_iff.mp hitems).imp fun _ _ => encodeItem_texts)
  have hall := ((Encoded.silent hheader).append hbody).append (.silent htrailer)
  rwa [List.nil_append, List.append_nil] at hall

end Receipt

namespace DotMatrix

theorem intersperse_texts (pages : List Bytes) :
    ((pages.map Piece.text).intersperse (Piece.command [EscP.formFeed])).filterMap Piece.text? =
      pages := by
  induction pages with
  | nil => rfl
  | cons page pages ih =>
    cases pages with
    | nil => rfl
    | cons next rest =>
      rw [List.map_cons, List.map_cons, List.intersperse_cons_cons]
      rw [List.map_cons] at ih
      simp only [List.filterMap_cons, Piece.text?, ih]

theorem textLine_texts {text : List Char} {ps : List Piece} (h : textLine encoder text = .ok ps) :
    Encoded encoder (pageTexts text) ps := by
  obtain ⟨pages, hpages, h⟩ := Except.bind_eq_ok.mp h
  obtain rfl := Except.ok.inj h
  have htexts : ((pages.map Piece.text).intersperse (Piece.command [EscP.formFeed]) ++
      [Piece.lineEnd EscP.crLf]).filterMap Piece.text? = pages := by
    rw [List.filterMap_append, intersperse_texts]
    exact List.append_nil pages
  rw [Encoded, htexts]
  exact mapM_eq_ok_iff.mp hpages

theorem styleCommands_silent (style : DotMatrixStyle) (condensedPitch on : Bool) :
    (styleCommands style condensedPitch on).filterMap Piece.text? = [] := by
  unfold styleCommands
  simp only [List.filterMap_append, List.append_eq_nil_iff]
  refine ⟨⟨⟨⟨⟨?_, ?_⟩, ?_⟩, ?_⟩, ?_⟩, ?_⟩ <;> split <;> rfl

/-- **Each text of a line becomes one piece.** -/
theorem encodeLine_texts {base64 : String → Except PrintError Bytes} {condensedPitch : Bool}
    {line : DotMatrixLine} {ps : List Piece}
    (h : encodeLine base64 encoder condensedPitch line = .ok ps) :
    Encoded encoder (texts line) ps := by
  match line with
  | .text text =>
    obtain ⟨lines, hlines, h⟩ := Except.bind_eq_ok.mp h
    obtain rfl := Except.ok.inj h
    exact .flatten ((mapM_eq_ok_iff.mp hlines).imp fun _ _ => textLine_texts)
  | .item (.line text style) =>
    obtain ⟨bytes, hbytes, h⟩ := Except.bind_eq_ok.mp h
    obtain rfl := Except.ok.inj h
    have hon : Encoded encoder [] (styleCommands style condensedPitch true) :=
      .silent (styleCommands_silent style condensedPitch true)
    have hoff : Encoded encoder [] (styleCommands style condensedPitch false) :=
      .silent (styleCommands_silent style condensedPitch false)
    have htext : Encoded encoder [itemText text.toList] [.text bytes] := .cons hbytes .nil
    have hend : Encoded encoder [] [Piece.lineEnd EscP.crLf] := .silent rfl
    exact ((hon.append htext).append hoff).append hend
  | .item (.lineFeed lines) =>
    obtain rfl := Except.ok.inj h
    refine .silent ?_
    rw [List.filterMap_eq_nil_iff]
    intro piece hpiece
    rw [List.eq_of_mem_replicate hpiece]
    rfl
  | .item .formFeed =>
    obtain rfl := Except.ok.inj h
    exact .silent rfl
  | .item (.raw data) =>
    obtain ⟨bytes, -, h⟩ := Except.bind_eq_ok.mp h
    obtain rfl := Except.ok.inj h
    exact .silent rfl

theorem option_silent (value : Option UInt8) (command : UInt8 → Bytes) :
    (option value command).filterMap Piece.text? = [] := by
  cases value <;> rfl

theorem header_silent (spacing : Single → UInt8 → UInt8) (encodings : Whatwgs)
    (doc : DotMatrixDocument) : (header spacing encodings doc).filterMap Piece.text? = [] := by
  unfold header
  simp only [List.filterMap_append, option_silent, List.append_nil]
  split <;> rfl

/-- **Each text of a dot-matrix document becomes one piece of its stream.** -/
theorem dotMatrix_texts {base64 : String → Except PrintError Bytes}
    {spacing : Single → UInt8 → UInt8} {encodings : Whatwgs} {doc : DotMatrixDocument}
    {ps : List Piece} (h : pieces base64 spacing encodings doc = .ok ps) :
    ∃ encoder, TextEncoder.forLabel encodings doc.encoding = .ok encoder ∧
      Encoded encoder (doc.lines.flatMap texts) ps := by
  obtain ⟨encoder, hencoder, h⟩ := Except.bind_eq_ok.mp h
  obtain ⟨lines, hlines, h⟩ := Except.bind_eq_ok.mp h
  obtain rfl := Except.ok.inj h
  refine ⟨encoder, hencoder, ?_⟩
  have htrailer : ∀ stream, (trailer doc stream).filterMap Piece.text? = [] := by
    intro stream
    unfold trailer
    split <;> rfl
  have hheader : Encoded encoder [] (header spacing encodings doc) :=
    .silent (header_silent spacing encodings doc)
  have hbody := Encoded.flatten ((mapM_eq_ok_iff.mp hlines).imp fun _ _ => encodeLine_texts)
  have hall := (hheader.append hbody).append
    (.silent (htrailer (header spacing encodings doc ++ lines.flatten)))
  rwa [List.nil_append, List.append_nil] at hall

end DotMatrix

/-! ### Control bytes -/

/-- Every control byte is of a command, a line end or a payload: none is of the client's
text. -/
def Inert (ps : List Piece) : Prop :=
  ∀ piece ∈ ps, ∀ b ∈ piece.bytes, b.toNat < 0x20 → piece.text? = none

theorem inert_iff {ps : List Piece} :
    Inert ps ↔ ∀ bytes ∈ ps.filterMap Piece.text?, Uncontrolled bytes := by
  constructor
  · intro h bytes hbytes b hb
    obtain ⟨piece, hpiece, htext⟩ := List.mem_filterMap.mp hbytes
    cases piece with
    | text bytes' =>
      obtain rfl := Option.some.inj htext
      by_contra hcontrol
      cases h _ hpiece b hb (by omega)
    | command | lineEnd | payload => cases htext
  · intro h piece hpiece b hb hcontrol
    cases piece with
    | text bytes =>
      have := h bytes (List.mem_filterMap.mpr ⟨_, hpiece, rfl⟩) b hb
      omega
    | command | lineEnd | payload => rfl

theorem forall_iff_of_forall₂ {α β : Type} {R : α → β → Prop} {P : α → Prop} {Q : β → Prop}
    {as : List α} {bs : List β} (h : List.Forall₂ R as bs) (himp : ∀ a b, R a b → (Q b ↔ P a)) :
    (∀ b ∈ bs, Q b) ↔ ∀ a ∈ as, P a := by
  induction h with
  | nil => simp
  | cons hab _ ih => rw [List.forall_mem_cons, List.forall_mem_cons, himp _ _ hab, ih]

/-- **A stream is inert exactly where the texts it encodes are clear.** -/
theorem Encoded.inert_iff {encodings : Whatwgs} (hstd : Standard encodings) {label : String}
    (hencoder : TextEncoder.forLabel encodings label = .ok encoder) {texts : List (List Char)}
    {ps : List Piece} (h : Encoded encoder texts ps) :
    Inert ps ↔ ∀ text ∈ texts, encoder.Clear text :=
  KilnPrint.inert_iff.trans
    (forall_iff_of_forall₂ h fun _ _ => TextEncoder.uncontrolled_iff_clear hstd hencoder)

/-- **Text that is written without control bytes.**  A stream is inert if and only if no
text that is encoded for it has a character below U+0020, nor, in ISO-2022-JP, a character
outside ASCII: the line breaks of a text item and of a dot-matrix line, and the form feeds
of the latter, are taken out before. -/
theorem text_control_bytes {encodings : Whatwgs} (hstd : Standard encodings) (p : Receipt.Pictures)
    (spacing : Single → UInt8 → UInt8) :
    (∀ receipt encoder ps, TextEncoder.forLabel encodings receipt.codePage = .ok encoder →
      Receipt.pieces p encodings receipt = .ok ps →
      Receipt.encode p encodings receipt = .ok (ps.flatMap Piece.bytes) ∧
      (Inert ps ↔ ∀ item ∈ receipt.items,
        ∀ text ∈ Receipt.texts encoder receipt.widthChars.toNat item, encoder.Clear text)) ∧
    ∀ doc encoder ps, TextEncoder.forLabel encodings doc.encoding = .ok encoder →
      DotMatrix.pieces p.base64 spacing encodings doc = .ok ps →
      DotMatrix.encode p.base64 spacing encodings doc = .ok (ps.flatMap Piece.bytes) ∧
      (Inert ps ↔ ∀ line ∈ doc.lines, ∀ text ∈ DotMatrix.texts line, encoder.Clear text) := by
  constructor
  · intro receipt encoder ps hencoder hps
    obtain ⟨encoder', hencoder', htexts⟩ := Receipt.receipt_texts hps
    obtain rfl := Except.ok.inj (hencoder.symm.trans hencoder')
    refine ⟨by rw [Receipt.encode, hps]; rfl, ?_⟩
    rw [htexts.inert_iff hstd hencoder, List.forall_mem_flatMap]
  · intro doc encoder ps hencoder hps
    obtain ⟨encoder', hencoder', htexts⟩ := DotMatrix.dotMatrix_texts hps
    obtain rfl := Except.ok.inj (hencoder.symm.trans hencoder')
    refine ⟨by rw [DotMatrix.encode, hps]; rfl, ?_⟩
    rw [htexts.inert_iff hstd hencoder, List.forall_mem_flatMap]

theorem standard_onlyWindows1252 : Standard onlyWindows1252 := by
  intro label w hw
  obtain ⟨-, hw⟩ := Option.ite_none_right_eq_some.mp hw
  obtain rfl := Option.some.inj hw
  rw [if_neg (by decide)]
  exact ⟨pageCode windows1252High length_windows1252High, fun _ _ h =>
    singleCode_writes (Whatwg.encode_singleByte.mp h)⟩

/-- An image library that reads no image. -/
def noPictures : Receipt.Pictures where
  base64 _ := .error (.invalidPayload "")
  decode _ := .error (.invalidPayload "")
  resize _ w h := ⟨w, h, []⟩
  black _ _ _ := false
  nonempty _ _ h := by cases h
  resized _ _ _ := ⟨rfl, rfl⟩

/-- A receipt of one line. -/
def lineReceipt (text : String) : ReceiptDocument where
  items := [.text ⟨text, .left, false, false, false, false, false, false⟩]

/-- A dot-matrix document of one line. -/
def lineDocument (text : String) : DotMatrixDocument where
  lines := [.text text]

theorem pieces_lineReceipt (p : Receipt.Pictures) (encodings : Whatwgs) {text : String}
    {line : List Char} {bytes : Bytes} (hlines : Receipt.textLines text.toList = [line])
    (hbytes : (TextEncoder.dos cp437High "IBM437").encode line = .ok bytes) :
    ∃ ps, Receipt.pieces p encodings (lineReceipt text) = .ok ps ∧ Piece.text bytes ∈ ps := by
  have hmapM : (Receipt.textLines text.toList).mapM (TextEncoder.dos cp437High "IBM437").encode =
      .ok [bytes] := by
    rw [hlines]
    exact mapM_eq_ok_iff.mpr (.cons hbytes .nil)
  have hitem : Receipt.encodeItem p (.dos cp437High "IBM437") 48
      (.text ⟨text, .left, false, false, false, false, false, false⟩) = .ok _ :=
    Except.bind_eq_ok.mpr ⟨_, hmapM, rfl⟩
  have hpieces : Receipt.pieces p encodings (lineReceipt text) = .ok _ :=
    Except.bind_eq_ok.mpr ⟨_, TextEncoder.forLabel_437 encodings,
      Except.bind_eq_ok.mpr ⟨_, mapM_eq_ok_iff.mpr (.cons hitem .nil), rfl⟩⟩
  exact ⟨_, hpieces, by simp [Receipt.line]⟩

theorem pieces_lineDocument (base64 : String → Except PrintError Bytes)
    (spacing : Single → UInt8 → UInt8) (encodings : Whatwgs) {text : String} {line page : List Char}
    {bytes : Bytes} (hlines : Receipt.textLines text.toList = [line])
    (hpages : DotMatrix.pageTexts line = [page])
    (hbytes : (TextEncoder.dos cp437High "IBM437").encode page = .ok bytes) :
    ∃ ps, DotMatrix.pieces base64 spacing encodings (lineDocument text) = .ok ps ∧
      Piece.text bytes ∈ ps := by
  have hpage : (DotMatrix.pageTexts line).mapM (TextEncoder.dos cp437High "IBM437").encode =
      .ok [bytes] := by
    rw [hpages]
    exact mapM_eq_ok_iff.mpr (.cons hbytes .nil)
  have hline : DotMatrix.textLine (.dos cp437High "IBM437") line =
      .ok [.text bytes, .lineEnd EscP.crLf] := Except.bind_eq_ok.mpr ⟨_, hpage, rfl⟩
  have hmapM : (Receipt.textLines text.toList).mapM
      (DotMatrix.textLine (.dos cp437High "IBM437")) =
        .ok [[.text bytes, .lineEnd EscP.crLf]] := by
    rw [hlines]
    exact mapM_eq_ok_iff.mpr (.cons hline .nil)
  have hitem : DotMatrix.encodeLine base64 (.dos cp437High "IBM437") false (.text text) = .ok _ :=
    Except.bind_eq_ok.mpr ⟨_, hmapM, rfl⟩
  have hpieces : DotMatrix.pieces base64 spacing encodings (lineDocument text) = .ok _ :=
    Except.bind_eq_ok.mpr ⟨_, TextEncoder.forLabel_437 encodings,
      Except.bind_eq_ok.mpr ⟨_, mapM_eq_ok_iff.mpr (.cons hitem .nil), rfl⟩⟩
  exact ⟨_, hpieces, by simp⟩

/-- A receipt and a dot-matrix document that reset the printer: `ESC @` in a line stays. -/
theorem escape_reaches_printer :
    ((lineReceipt "\u001b@").validate = .ok () ∧ (lineReceipt "\u001b@").items.all (!·.isRaw) ∧
      ∃ ps, Receipt.pieces noPictures onlyWindows1252 (lineReceipt "\u001b@") = .ok ps ∧
        Piece.text [0x1B, 0x40] ∈ ps ∧ ¬ Inert ps) ∧
    ((lineDocument "\u001b@").validate = .ok () ∧ (lineDocument "\u001b@").lines.all (!·.isRaw) ∧
      ∃ ps, DotMatrix.pieces noPictures.base64 (fun _ _ => 0) onlyWindows1252
        (lineDocument "\u001b@") = .ok ps ∧ Piece.text [0x1B, 0x40] ∈ ps ∧ ¬ Inert ps) := by
  have hinert : ∀ ps : List Piece, Piece.text [0x1B, 0x40] ∈ ps → ¬ Inert ps := by
    intro ps hmem hinert
    cases hinert _ hmem 0x1B List.mem_cons_self (by decide)
  have hline : Receipt.textLines "\u001b@".toList = [['\u001b', '@']] := by decide +kernel
  have hpage : DotMatrix.pageTexts ['\u001b', '@'] = [['\u001b', '@']] := by decide +kernel
  obtain ⟨ps, hps, hmem⟩ := pieces_lineReceipt noPictures onlyWindows1252 hline rfl
  obtain ⟨ps', hps', hmem'⟩ :=
    pieces_lineDocument noPictures.base64 (fun _ _ => 0) onlyWindows1252 hline hpage rfl
  exact ⟨⟨by decide +kernel, by decide +kernel, ps, hps, hmem, hinert ps hmem⟩,
    ⟨by decide +kernel, by decide +kernel, ps', hps', hmem', hinert ps' hmem'⟩⟩

/-- A receipt and a dot-matrix document without control characters. -/
theorem text_control_bytes_plain :
    Standard onlyWindows1252 ∧
    (∃ ps, Receipt.pieces noPictures onlyWindows1252 (lineReceipt "Total 12.50") = .ok ps ∧
      Inert ps) ∧
    ∃ ps, DotMatrix.pieces noPictures.base64 (fun _ _ => 0) onlyWindows1252
        (lineDocument "Total 12.50") = .ok ps ∧ Inert ps := by
  have hline : Receipt.textLines "Total 12.50".toList = ["Total 12.50".toList] := by
    decide +kernel
  have hpage : DotMatrix.pageTexts "Total 12.50".toList = ["Total 12.50".toList] := by
    decide +kernel
  obtain ⟨hreceipt, hdocument⟩ :=
    text_control_bytes standard_onlyWindows1252 noPictures fun _ _ => 0
  obtain ⟨ps, hps, -⟩ := pieces_lineReceipt noPictures onlyWindows1252 hline rfl
  obtain ⟨ps', hps', -⟩ :=
    pieces_lineDocument noPictures.base64 (fun _ _ => 0) onlyWindows1252 hline hpage rfl
  have hinert := (hreceipt (lineReceipt "Total 12.50") _ _ (TextEncoder.forLabel_437 _) hps).2
  have hinert' :=
    (hdocument (lineDocument "Total 12.50") _ _ (TextEncoder.forLabel_437 _) hps').2
  exact ⟨standard_onlyWindows1252, ⟨ps, hps, hinert.mpr (by decide +kernel)⟩, ps', hps',
    hinert'.mpr (by decide +kernel)⟩

end KilnPrint
