/-
Receipt streams, read back.

* `Style`, `after`, `printed` — how a printer's style changes, and the lines that a run of
  commands prints, each in the style it is printed in;
* `Prescribed` — the commands that an item of a receipt stands for;
* `encodeItem_prescribed` — the pieces of an item are the bytes of its commands, which fit
  their length fields;
* `reads_back` — **the grammar reads the stream of a receipt as its header, the
  commands of each item and its trailer; each line is printed in its item's style**.
-/
import KilnPrint.Lib.Base64
import KilnPrint.Lib.Pieces
import KilnPrint.Renderers.ControlBytes
import Mathlib.Data.List.Induction

namespace KilnPrint

/-! ### Styles -/

/-- How text is printed. -/
structure Style where
  align : TextAlignment := .left
  bold : Bool := false
  underline : Bool := false
  doubleWidth : Bool := false
  doubleHeight : Bool := false
  invert : Bool := false
  small : Bool := false
  deriving DecidableEq

namespace Style

/-- The alignment that `ESC a n` selects. -/
def alignment (n : UInt8) : TextAlignment :=
  if n = 1 then .center else if n = 2 then .right else .left

/-- What a command changes of the style. -/
def step (s : Style) : EscPos.Command → Style
  | .initialise => {}
  | .align n => { s with align := alignment n }
  | .bold n => { s with bold := n &&& 1 == 1 }
  | .underline n => { s with underline := n != 0 }
  | .font n => { s with small := n == 1 }
  | .size n => { s with doubleWidth := n >>> 4 &&& 7 != 0, doubleHeight := n &&& 7 != 0 }
  | .invert n => { s with invert := n &&& 1 == 1 }
  | _ => s

/-- The style after some commands. -/
def after (s : Style) (commands : List EscPos.Command) : Style := commands.foldl step s

/-- The lines that some commands print, each in its style. -/
def printed : Style → List EscPos.Command → List (Style × Bytes)
  | _, [] => []
  | s, .line text :: rest => (s, text) :: printed s rest
  | s, command :: rest => printed (s.step command) rest

theorem after_append (s : Style) (a b : List EscPos.Command) :
    s.after (a ++ b) = (s.after a).after b := List.foldl_append

theorem printed_append (s : Style) (a b : List EscPos.Command) :
    printed s (a ++ b) = printed s a ++ printed (s.after a) b := by
  induction a generalizing s with
  | nil => rfl
  | cons c a ih => cases c <;> simp [printed, after, step, ih]

theorem printed_lines (s : Style) (lines : List Bytes) :
    printed s (lines.map .line) = lines.map fun l => (s, l) := by
  induction lines with
  | nil => rfl
  | cons l lines ih => rw [List.map_cons, printed, ih, List.map_cons]

end Style

/-! ### The commands of a receipt -/

namespace Receipt

open EscPos (Command)

/-- The style of an item. -/
def itemStyle : ReceiptItem → Style
  | .text e => ⟨e.align, e.bold, e.underline, e.doubleWidth, e.doubleHeight, e.invert, e.small⟩
  | .columns _ _ bold => { bold }
  | .barcode e => { align := e.align }
  | .qr e => { align := e.align }
  | .image e => { align := e.align }
  | _ => {}

/-- The commands that select a style. -/
def select (s : Style) : List Command :=
  [.align (EscPos.alignNumber s.align), .font (EscPos.flag s.small), .bold (EscPos.flag s.bold),
    .underline (EscPos.flag s.underline), .size (EscPos.sizeNumber s.doubleWidth s.doubleHeight),
    .invert (EscPos.flag s.invert)]

/-- The commands that go back to the default style. -/
def reset : List Command :=
  [.invert 0, .size 0, .underline 0, .bold 0, .font 0, .align 0]

/-- The function number of `GS k` for a symbology. -/
def barcodeNumber : Symbology → UInt8
  | .upcA => 65
  | .ean13 => 67
  | .ean8 => 68
  | .code39 => 69
  | .itf => 70
  | .code128 => 73

/-- `{{` stands for `{`. -/
def undouble : Bytes → Option Bytes
  | 0x7B :: 0x7B :: rest => (0x7B :: ·) <$> undouble rest
  | 0x7B :: _ => none
  | b :: rest => (b :: ·) <$> undouble rest
  | [] => some []

/-- The data of a barcode: in CODE128 after `{B`, with `{{` undone. -/
def readBarcode (m : UInt8) (payload : Bytes) : Option Bytes :=
  if m = 73 then
    match payload with
    | 0x7B :: 0x42 :: rest => undouble rest
    | _ => none
  else some payload

/-- The raster blocks of an image: of at most 256 rows each, of one width, its rows in order. -/
structure Blocks (widthBytes height : ℕ) (bits : Bytes) (blocks : List Command) : Prop where
  block : ∀ c ∈ blocks, ∃ rows part, c = .raster widthBytes rows part ∧ 0 < rows ∧ rows ≤ 256
  rows : (blocks.map fun | .raster _ rows _ => rows | _ => 0).sum = height
  bits : (blocks.flatMap fun | .raster _ _ part => part | _ => []) = bits

/-- **The commands that an item stands for.** -/
inductive Prescribed (p : Pictures) (encoder : TextEncoder) (width : ℕ) :
    ReceiptItem → List Command → Prop
  | text (e : ReceiptText) (lines : List Bytes)
      (encoded : List.Forall₂ (fun line bytes => encoder.encode line = .ok bytes)
        (textLines e.text.toList) lines) :
      Prescribed p encoder width (.text e)
        (select (itemStyle (.text e)) ++ lines.map .line ++ reset)
  | columns (left right : String) (bold : Bool) (line : Bytes)
      (encoded : encoder.encode (columns left.toList right.toList width) = .ok line) :
      Prescribed p encoder width (.columns left right bold)
        [.bold (EscPos.flag bold), .line line, .bold 0]
  | separator (character : Char) (line : Bytes)
      (encoded : encoder.encode (separatorLine encoder width character) = .ok line) :
      Prescribed p encoder width (.separator character) [.line line]
  | feed (lines : UInt8) : Prescribed p encoder width (.feed lines) [.feed lines]
  | barcode (e : ReceiptBarcode) (height : UInt8) (payload : Bytes)
      (dots : height.toNat = e.heightDots.toNat)
      (data : readBarcode (barcodeNumber e.symbology) payload = some (Utf8.encode e.data.toList)) :
      Prescribed p encoder width (.barcode e)
        [.align (EscPos.alignNumber e.align), .barcodeHeight height, .barcodeWidth e.moduleWidth,
          .readable (if e.humanReadable then 2 else 0),
          .barcode (barcodeNumber e.symbology) payload, .line [], .align 0]
  | qr (e : ReceiptQr) :
      Prescribed p encoder width (.qr e)
        [.align (EscPos.alignNumber e.align), .symbol 49 65 [50, 0], .symbol 49 67 [e.size],
          .symbol 49 69 [EscPos.eccLevel e.errorCorrection],
          .symbol 49 80 (48 :: Utf8.encode e.data.toList), .symbol 49 81 [48], .line [], .align 0]
  | image (e : ReceiptImage) (data : Bytes) (gray : Gray) (blocks : List Command)
      (base64 : p.base64 e.data = .ok data) (decode : p.decode data = .ok gray)
      (raster : Blocks (widthBytes (scaled p gray ((e.maxWidthDots.map UInt16.toNat).getD (width * 12))))
        (scaled p gray ((e.maxWidthDots.map UInt16.toNat).getD (width * 12))).height
        (dither p (scaled p gray ((e.maxWidthDots.map UInt16.toNat).getD (width * 12)))) blocks) :
      Prescribed p encoder width (.image e)
        ([.align (EscPos.alignNumber e.align)] ++ blocks ++ [.align 0])
  | cut (isPartial : Bool) (feedLines : UInt8) :
      Prescribed p encoder width (.cut isPartial feedLines)
        [.cut (EscPos.cutMode isPartial) feedLines]
  | drawer (pin : UInt8) : Prescribed p encoder width (.drawer pin) [.drawer pin 25 250]

/-- The printer's reset, and the encoding's table where it has one. -/
def headerCommands (encodings : Whatwgs) (receipt : ReceiptDocument) : List Command :=
  .initialise :: (((canonicalName encodings receipt.codePage).bind EscPos.codeTableFor).elim []
    fun table => [.codeTable table])

/-- The drawer's pulse where it is asked for, and a cut where the items do not end in one. -/
def trailerCommands (receipt : ReceiptDocument) : List Command :=
  (if receipt.openDrawer then [.drawer 0 25 250] else []) ++
    (if receipt.cut && !(receipt.items.getLast?.any (·.isCut)) then [.cut 65 3] else [])

end Receipt

/-! ### Texts of a line -/

/-- A text that stays on its line. -/
def OneLine (text : List Char) : Prop := ∀ c ∈ text, 0x20 ≤ c.toNat ∨ c = '\r'

theorem inLine_of_writes {k : CharCode} {text : List Char} {bytes : Bytes}
    (h : k.Writes text bytes) (htext : OneLine text) : ∀ b ∈ bytes, EscPos.inLine b := by
  obtain ⟨parts, hparts, rfl⟩ := h
  induction hparts with
  | nil => simp
  | @cons c part text parts hc _ ih =>
    rw [List.flatten_cons, List.forall_mem_append]
    refine ⟨?_, ih fun d hd => htext d (List.mem_cons_of_mem _ hd)⟩
    intro b hb
    by_cases hascii : c.toNat < 0x80
    · obtain rfl := Option.some.inj (hc.symm.trans (k.ascii c hascii))
      rw [List.mem_singleton.mp hb]
      rcases htext c List.mem_cons_self with hle | rfl
      · left
        rwa [Utf8.toNat_ofNat (by omega)]
      · exact .inr rfl
    · exact .inl (k.high c part (by omega) hc b hb)

theorem fits_line {encoder : TextEncoder} (hcode : encoder.ByCharacter) {text : List Char}
    {bytes : Bytes} (htext : OneLine text) (h : encoder.encode text = .ok bytes) :
    (EscPos.Command.line bytes).Fits := by
  obtain ⟨k, hk⟩ := hcode
  exact inLine_of_writes (hk text bytes h) htext

theorem mem_replaceCrLf {text : List Char} {c : Char} (h : c ∈ replaceCrLf text) : c ∈ text := by
  induction text using replaceCrLf.induct with
  | case1 rest ih =>
    rw [replaceCrLf] at h
    rcases List.mem_cons.mp h with rfl | h
    · simp
    · exact List.mem_cons_of_mem _ (List.mem_cons_of_mem _ (ih h))
  | case2 c' rest hne ih =>
    rw [replaceCrLf.eq_2 _ _ hne] at h
    rcases List.mem_cons.mp h with rfl | h
    · exact List.mem_cons_self
    · exact List.mem_cons_of_mem _ (ih h)
  | case3 => exact h

namespace Receipt

open EscPos (Command)

/-- An item's texts hold no control character, but for the line breaks of a text item. -/
def Plain : ReceiptItem → Prop
  | .text e => ∀ c ∈ e.text.toList, 0x20 ≤ c.toNat ∨ c = '\r' ∨ c = '\n'
  | .columns left right _ => (∀ c ∈ left.toList, 0x20 ≤ c.toNat) ∧ ∀ c ∈ right.toList, 0x20 ≤ c.toNat
  | .separator character => 0x20 ≤ character.toNat
  | _ => True

instance : DecidablePred Plain
  | .text e => decidable_of_iff (e.text.toList.all fun c =>
      decide (0x20 ≤ c.toNat ∨ c = '\r' ∨ c = '\n')) (by simp [Plain])
  | .columns left right _ => decidable_of_iff ((left.toList.all fun c => decide (0x20 ≤ c.toNat)) &&
      right.toList.all fun c => decide (0x20 ≤ c.toNat)) (by simp [Plain])
  | .separator character => inferInstanceAs (Decidable (0x20 ≤ character.toNat))
  | .feed _ | .barcode _ | .qr _ | .image _ | .cut .. | .drawer _ | .raw _ => .isTrue trivial

/-- The texts of a plain item stay on their lines. -/
theorem oneLine_of_plain {encoder : TextEncoder} {width : ℕ} {item : ReceiptItem}
    (h : Plain item) : ∀ text ∈ texts encoder width item, OneLine text := by
  intro text htext c hc
  cases item with
  | text e =>
    obtain ⟨hmem, hne⟩ := Pieces.mem_of_mem_splitOn htext c hc
    rcases h c (mem_replaceCrLf hmem) with hle | rfl | rfl
    · exact .inl hle
    · exact .inr rfl
    · exact absurd rfl hne
  | columns left right bold =>
    left
    rw [List.mem_singleton.mp htext, columns] at hc
    simp only [List.mem_append] at hc
    rcases hc with (hc | hc) | hc
    · exact h.1 c (List.mem_of_mem_take hc)
    · rw [List.eq_of_mem_replicate hc]
      decide
    · exact h.2 c (List.mem_of_mem_take hc)
  | separator character =>
    left
    rw [List.mem_singleton.mp htext, separatorLine] at hc
    split at hc
    · rw [List.eq_of_mem_replicate hc]
      exact h
    · rw [List.eq_of_mem_replicate hc]
      decide
  | _ => cases htext

/-! ### Barcodes -/

theorem undouble_double {data : List Char} (h : ∀ c ∈ data, c.toNat < 128) :
    undouble (Utf8.encode (data.flatMap fun c => if c = '\x7b' then ['\x7b', '\x7b'] else [c])) =
      some (Utf8.encode data) := by
  induction data with
  | nil => rfl
  | cons c rest ih =>
    have hrest := ih fun d hd => h d (List.mem_cons_of_mem _ hd)
    rw [List.flatMap_cons, Utf8.encode_append]
    by_cases hbrace : c = '\x7b'
    · subst hbrace
      have hdouble : ∀ bytes, undouble (Utf8.encode ['\x7b', '\x7b'] ++ bytes) =
          (0x7B :: ·) <$> undouble bytes := fun _ => rfl
      rw [if_pos rfl, hdouble, hrest]
      rfl
    · have hc := Utf8.encodeChar_ascii (h c List.mem_cons_self)
      have hne : UInt8.ofNat c.toNat ≠ 0x7B := by
        intro heq
        have hnat := congrArg UInt8.toNat heq
        rw [Utf8.toNat_ofNat (by have := h c List.mem_cons_self; omega)] at hnat
        exact hbrace (Char.toNat_inj.mp hnat)
      have hone : Utf8.encode (c :: rest) = UInt8.ofNat c.toNat :: Utf8.encode rest := by
        rw [← List.singleton_append, Utf8.encode_append, Utf8.encode, List.flatMap_singleton, hc]
        rfl
      rw [if_neg hbrace, hone, Utf8.encode, List.flatMap_singleton, hc, List.singleton_append,
        undouble, hrest]
      · rfl
      · intro rest' heq
        exact absurd heq hne
      · exact hne

theorem length_double (data : List Char) :
    (data.flatMap fun c => if c = '\x7b' then ['\x7b', '\x7b'] else [c]).length ≤
      2 * data.length := by
  induction data with
  | nil => simp
  | cons c rest ih =>
    rw [List.flatMap_cons, List.length_append, List.length_cons]
    have hone : (if c = '\x7b' then ['\x7b', '\x7b'] else [c]).length ≤ 2 := by
      split <;> simp
    omega

/-- The data of a valid barcode is read back, and its length fits a byte. -/
theorem barcode_payload {symbology : Symbology} {data : String}
    (h : symbology.validate data = .ok ()) :
    (EscPos.barcodeData symbology data.toList).1 = barcodeNumber symbology ∧
      readBarcode (barcodeNumber symbology) (EscPos.barcodeData symbology data.toList).2 =
        some (Utf8.encode data.toList) ∧
      (EscPos.barcodeData symbology data.toList).2.length < 256 := by
  have hascii : ∀ c ∈ data.toList, c.toNat < 128 := by
    intro c hc
    have := Symbology.ascii_of_validate h c hc
    omega
  have haccepts : symbology.accepts data = true := check_eq_ok.mp h
  have hsize := Utf8.utf8ByteSize_eq data
  have hlength := Utf8.length_encode_ascii hascii
  cases symbology with
  | code128 =>
    refine ⟨rfl, ?_, ?_⟩
    · show undouble (Utf8.encode _) = _
      exact undouble_double hascii
    · simp only [Symbology.accepts, Bool.and_eq_true, decide_eq_true_eq] at haccepts
      -- the code set selector and the doubled braces at most double the text
      have hdouble := length_double data.toList
      have hbrace : ∀ c ∈ ['\x7b', 'B'], c.toNat < 128 := Utf8.forall_of_all (by decide)
      have hpayload : ∀ c ∈ ['\x7b', 'B'] ++
          data.toList.flatMap fun c => if c = '\x7b' then ['\x7b', '\x7b'] else [c],
          c.toNat < 128 := by
        intro c hc
        rcases List.mem_append.mp hc with hc | hc
        · exact hbrace c hc
        · obtain ⟨d, hd, hc⟩ := List.mem_flatMap.mp hc
          split at hc
          · obtain rfl : c = '\x7b' := by simpa using hc
            decide
          · rw [List.mem_singleton.mp hc]
            exact hascii d hd
      show (Utf8.encode _).length < 256
      rw [Utf8.length_encode_ascii hpayload, List.length_append, List.length_cons, List.length_cons,
        List.length_nil]
      omega
  | code39 =>
    simp only [Symbology.accepts, Bool.and_eq_true, decide_eq_true_eq] at haccepts
    refine ⟨rfl, rfl, ?_⟩
    show (Utf8.encode data.toList).length < 256
    omega
  | ean13 | ean8 | upcA =>
    simp only [Symbology.accepts, Bool.and_eq_true, Bool.or_eq_true, beq_iff_eq] at haccepts
    refine ⟨rfl, rfl, ?_⟩
    show (Utf8.encode data.toList).length < 256
    omega
  | itf =>
    simp only [Symbology.accepts, Bool.and_eq_true, decide_eq_true_eq] at haccepts
    refine ⟨rfl, rfl, ?_⟩
    show (Utf8.encode data.toList).length < 256
    omega

/-! ### Images -/

theorem length_dither (p : Pictures) (gray : Gray) :
    (dither p gray).length = gray.height * widthBytes gray := by
  simp [dither, List.length_flatMap]

/-- **The bands of an image are its raster blocks.** -/
theorem bands_blocks {width height : ℕ} {bits : Bytes} (hwidth : width < 65536)
    (hbits : bits.length = height * width) :
    ∃ blocks, Blocks width height bits blocks ∧
      (bands width height bits).flatMap Piece.bytes = blocks.flatMap EscPos.Command.bytes ∧
      ∀ c ∈ blocks, c.Fits := by
  induction height, bits using bands.induct width with
  | case1 bits =>
    refine ⟨[], ⟨by simp, rfl, ?_⟩, by rw [bands, dif_pos rfl]; rfl, by simp⟩
    rw [List.length_eq_zero_iff.mp (by omega : bits.length = 0)]
    rfl
  | case2 height bits h rows ih =>
    have hrows : 0 < rows ∧ rows ≤ 256 ∧ rows ≤ height := by
      simp only [rows, rasterBandRows]
      omega
    have hle : rows * width ≤ bits.length := by
      rw [hbits]
      exact Nat.mul_le_mul_right width hrows.2.2
    obtain ⟨blocks, hblocks, hbytes, hfits⟩ := ih (by
      rw [List.length_drop, hbits, Nat.sub_mul])
    have htake : (bits.take (rows * width)).length = width * rows := by
      rw [List.length_take, Nat.min_eq_left hle, Nat.mul_comm]
    refine ⟨.raster width rows (bits.take (rows * width)) :: blocks, ⟨?_, ?_, ?_⟩, ?_, ?_⟩
    · rw [List.forall_mem_cons]
      exact ⟨⟨rows, _, rfl, hrows.1, hrows.2.1⟩, hblocks.block⟩
    · rw [List.map_cons, List.sum_cons, hblocks.rows]
      show rows + (height - rows) = height
      omega
    · rw [List.flatMap_cons, hblocks.bits]
      exact List.take_append_drop _ _
    · rw [bands, dif_neg h]
      show EscPos.rasterHead width rows ++ (bits.take (rows * width) ++
        (bands width (height - rows) (bits.drop (rows * width))).flatMap Piece.bytes) = _
      rw [hbytes]
      exact (List.append_assoc _ _ _).symm
    · rw [List.forall_mem_cons]
      exact ⟨⟨hwidth, by omega, htake⟩, hfits⟩

theorem width_scaled (p : Pictures) (gray : Gray) (maxWidth : ℕ) :
    (scaled p gray maxWidth).width ≤ maxWidth := by
  unfold scaled
  split
  · rw [(p.resized _ _ _).1]
  · omega

/-! ### Items -/

/-- The pieces are the bytes of some commands, whose length fields hold their lengths. -/
def Writes (ps : List Piece) (commands : List Command) : Prop :=
  EscPos.grammar.Writes (ps.flatMap Piece.bytes) commands

theorem Writes.append {ps qs : List Piece} {a b : List Command} (hp : Writes ps a)
    (hq : Writes qs b) : Writes (ps ++ qs) (a ++ b) := by
  rw [Writes, List.flatMap_append]
  exact Grammar.Writes.append hp hq

theorem Writes.lines {encoder : TextEncoder} (hcode : encoder.ByCharacter)
    {texts : List (List Char)} {lines : List Bytes} (htexts : ∀ text ∈ texts, OneLine text)
    (h : List.Forall₂ (fun text bytes => encoder.encode text = .ok bytes) texts lines) :
    Writes (lines.flatMap line) (lines.map .line) := by
  induction h with
  | nil => exact ⟨rfl, by simp⟩
  | @cons text bytes texts lines hbytes _ ih =>
    rw [List.forall_mem_cons] at htexts
    have hfits := fits_line hcode htexts.1 hbytes
    have hone : Writes (line bytes) [.line bytes] :=
      ⟨by simp [line, Piece.bytes, EscPos.Command.bytes, EscPos.lineFeed],
        by rwa [List.forall_mem_singleton]⟩
    exact hone.append (ih htexts.2)

theorem Writes.qr {data : Bytes} (size : UInt8) (ecc : QrErrorCorrection)
    (hdata : data.length ≤ 2000) :
    Writes (qrPieces data size ecc)
      [.symbol 49 65 [50, 0], .symbol 49 67 [size], .symbol 49 69 [EscPos.eccLevel ecc],
        .symbol 49 80 (48 :: data), .symbol 49 81 [48]] := by
  refine ⟨rfl, ?_⟩
  have hstore : (48 :: data).length + 2 < 65536 := by
    rw [List.length_cons]
    omega
  simp [EscPos.Command.Fits]
  omega

/-- **The pieces of an item are the bytes of its commands.** -/
theorem encodeItem_prescribed {p : Pictures} {encoder : TextEncoder} {width : ℕ}
    {item : ReceiptItem} {ps : List Piece} (hcode : encoder.ByCharacter) (hwidth : width < 256)
    (hvalid : item.validate = .ok ()) (hraw : item.isRaw = false) (hplain : Plain item)
    (h : encodeItem p encoder width item = .ok ps) :
    ∃ commands, Prescribed p encoder width item commands ∧ Writes ps commands := by
  have hline : ∀ text ∈ texts encoder width item, OneLine text := oneLine_of_plain hplain
  cases item with
  | text e =>
    obtain ⟨lines, hlines, h⟩ := Except.bind_eq_ok.mp h
    obtain rfl := Except.ok.inj h
    have hforall := mapM_eq_ok_iff.mp hlines
    have hon : Writes (textOn e) (select (itemStyle (.text e))) :=
      ⟨rfl, by simp [select, EscPos.Command.Fits]⟩
    have hoff : Writes textOff reset := ⟨rfl, by simp [reset, EscPos.Command.Fits]⟩
    exact ⟨_, .text e lines hforall, (hon.append (.lines hcode hline hforall)).append hoff⟩
  | columns left right bold =>
    obtain ⟨bytes, hbytes, h⟩ := Except.bind_eq_ok.mp h
    obtain rfl := Except.ok.inj h
    have hone := Writes.lines hcode hline (.cons hbytes .nil)
    have hon : Writes [.command (EscPos.bold bold)] [.bold (EscPos.flag bold)] :=
      ⟨rfl, by simp [EscPos.Command.Fits]⟩
    have hoff : Writes [.command (EscPos.bold false)] [.bold 0] :=
      ⟨rfl, by simp [EscPos.Command.Fits]⟩
    exact ⟨_, .columns left right bold bytes hbytes, (hon.append hone).append hoff⟩
  | separator character =>
    rw [encodeItem_separator] at h
    obtain ⟨bytes, hbytes, rfl⟩ := Except.map_eq_ok.mp h
    have hone := Writes.lines hcode hline (.cons hbytes .nil)
    exact ⟨_, .separator character bytes hbytes, hone⟩
  | feed lines =>
    obtain rfl := Except.ok.inj h
    exact ⟨_, .feed lines, rfl, by simp [EscPos.Command.Fits]⟩
  | barcode e =>
    obtain rfl := Except.ok.inj h
    obtain ⟨_, hdata, hvalid⟩ := Except.bind_eq_ok.mp hvalid
    obtain ⟨_, hheight, -⟩ := Except.bind_eq_ok.mp hvalid
    have hdots : e.heightDots.toNat ≤ 255 := by
      have hbounds := check_eq_ok.mp hheight
      simp only [Bool.and_eq_true, decide_eq_true_eq] at hbounds
      exact hbounds.2
    obtain ⟨hnumber, hread, hlength⟩ := barcode_payload hdata
    -- the height was checked, so nothing is cut off
    have hmin : min e.heightDots.toNat 255 = e.heightDots.toNat := Nat.min_eq_left hdots
    refine ⟨_, .barcode e (UInt8.ofNat e.heightDots.toNat)
      (EscPos.barcodeData e.symbology e.data.toList).2 (Utf8.toNat_ofNat (by omega)) hread, ?_, ?_⟩
    · rw [← hnumber, hmin]
      rfl
    · simp [EscPos.Command.Fits, hlength]
  | qr e =>
    obtain rfl := Except.ok.inj h
    obtain ⟨_, hdata, -⟩ := Except.bind_eq_ok.mp hvalid
    have hsize : (Utf8.encode e.data.toList).length ≤ 2000 := by
      have hbounds := check_eq_ok.mp hdata
      simp only [Bool.and_eq_true, decide_eq_true_eq] at hbounds
      rw [← Utf8.utf8ByteSize_eq]
      exact hbounds.2
    have hon : Writes [.command (EscPos.align e.align)] [.align (EscPos.alignNumber e.align)] :=
      ⟨rfl, by simp [EscPos.Command.Fits]⟩
    have hoff : Writes [.lineEnd [0x0A], .command (EscPos.align .left)] [.line [], .align 0] :=
      ⟨rfl, by simp [EscPos.Command.Fits]⟩
    exact ⟨_, .qr e, (hon.append (.qr e.size e.errorCorrection hsize)).append hoff⟩
  | image e =>
    obtain ⟨data, hdata, h⟩ := Except.bind_eq_ok.mp h
    obtain ⟨image, himage, h⟩ := Except.bind_eq_ok.mp h
    obtain ⟨gray, hgray, himage⟩ := Except.bind_eq_ok.mp himage
    obtain rfl := Except.ok.inj himage
    obtain rfl := Except.ok.inj h
    -- the width of the image fits the two bytes of its header
    have hmax : (e.maxWidthDots.map UInt16.toNat).getD (width * 12) < 65536 := by
      cases e.maxWidthDots with
      | none =>
        show width * 12 < 65536
        omega
      | some w => exact w.toNat_lt
    have hscaled := width_scaled p gray ((e.maxWidthDots.map UInt16.toNat).getD (width * 12))
    obtain ⟨blocks, hblocks, hbytes⟩ :=
      bands_blocks (by unfold widthBytes; omega) (length_dither p
        (scaled p gray ((e.maxWidthDots.map UInt16.toNat).getD (width * 12))))
    have hon : Writes [.command (EscPos.align e.align)] [.align (EscPos.alignNumber e.align)] :=
      ⟨rfl, by simp [EscPos.Command.Fits]⟩
    have hoff : Writes [.command (EscPos.align .left)] [.align 0] :=
      ⟨rfl, by simp [EscPos.Command.Fits]⟩
    have himage : Writes _ blocks := hbytes
    exact ⟨_, .image e data gray blocks hdata hgray hblocks, (hon.append himage).append hoff⟩
  | cut isPartial feedLines =>
    obtain rfl := Except.ok.inj h
    exact ⟨_, .cut isPartial feedLines, rfl, by simp [EscPos.Command.Fits]⟩
  | drawer pin =>
    obtain rfl := Except.ok.inj h
    -- the pin was checked, so it is sent as it is
    have hpin : min pin 1 = pin := by
      have hbounds := check_eq_ok.mp hvalid
      exact if_pos (of_decide_eq_true hbounds)
    refine ⟨_, .drawer pin, ?_, by simp [EscPos.Command.Fits]⟩
    show EscPos.drawer pin ++ [] = _
    rw [EscPos.drawer, hpin]
    rfl
  | raw data => cases hraw

/-! ### Styles of an item -/

theorem alignment_alignNumber (a : TextAlignment) : Style.alignment (EscPos.alignNumber a) = a := by
  cases a <;> rfl

theorem after_select (s t : Style) : s.after (select t) = t := by
  obtain ⟨align, bold, underline, doubleWidth, doubleHeight, invert, small⟩ := t
  have hbit : ∀ b : Bool, (EscPos.flag b &&& 1 == 1) = b := by decide
  have hnonzero : ∀ b : Bool, (EscPos.flag b != 0) = b := by decide
  have hone : ∀ b : Bool, (EscPos.flag b == 1) = b := by decide
  have hwidth : ∀ w h : Bool, (EscPos.sizeNumber w h >>> 4 &&& 7 != 0) = w := by decide
  have hheight : ∀ w h : Bool, (EscPos.sizeNumber w h &&& 7 != 0) = h := by decide
  simp only [select, Style.after, List.foldl_cons, List.foldl_nil, Style.step,
    alignment_alignNumber, hbit, hnonzero, hone, hwidth, hheight]

theorem after_reset (s : Style) : s.after reset = {} := rfl

/-- Raster blocks print no line, and leave the style. -/
theorem blocks_silent {widthBytes height : ℕ} {bits : Bytes} {blocks : List Command}
    (h : Blocks widthBytes height bits blocks) (s : Style) :
    s.after blocks = s ∧ s.printed blocks = [] := by
  have hraster := h.block
  clear h
  induction blocks with
  | nil => exact ⟨rfl, rfl⟩
  | cons c rest ih =>
    rw [List.forall_mem_cons] at hraster
    obtain ⟨⟨rows, part, rfl, -⟩, hrest⟩ := hraster
    exact ih hrest

/-- **An item prints its lines in its own style, and leaves the default one.** -/
theorem prescribed_style {p : Pictures} {encoder : TextEncoder} {width : ℕ} {item : ReceiptItem}
    {commands : List Command} (h : Prescribed p encoder width item commands) :
    Style.after {} commands = {} ∧ ∀ l ∈ Style.printed {} commands, l.1 = itemStyle item := by
  cases h with
  | text e lines encoded =>
    constructor
    · rw [Style.after_append, after_reset]
    · intro l hl
      rw [Style.printed_append, Style.printed_append, after_select, Style.printed_lines] at hl
      have hselect : Style.printed {} (select (itemStyle (.text e))) = [] := rfl
      have hreset : ∀ s, Style.printed s reset = [] := fun _ => rfl
      rw [hselect, hreset, List.nil_append, List.append_nil] at hl
      obtain ⟨bytes, -, rfl⟩ := List.mem_map.mp hl
      rfl
  | columns left right bold line encoded =>
    refine ⟨rfl, fun l hl => ?_⟩
    rw [List.mem_singleton.mp hl]
    cases bold <;> rfl
  | separator character line encoded =>
    refine ⟨rfl, fun l hl => ?_⟩
    rw [List.mem_singleton.mp hl]
    rfl
  | feed | cut | drawer => exact ⟨rfl, by simp [Style.printed]⟩
  | barcode e height payload dots data =>
    refine ⟨rfl, fun l hl => ?_⟩
    rw [List.mem_singleton.mp hl]
    show ({ align := Style.alignment (EscPos.alignNumber e.align) } : Style) = _
    rw [alignment_alignNumber]
    rfl
  | qr e =>
    refine ⟨rfl, fun l hl => ?_⟩
    rw [List.mem_singleton.mp hl]
    show ({ align := Style.alignment (EscPos.alignNumber e.align) } : Style) = _
    rw [alignment_alignNumber]
    rfl
  | image e data gray blocks base64 decode raster =>
    have hsilent := blocks_silent raster
    constructor
    · rw [Style.after_append, Style.after_append, (hsilent _).1]
      rfl
    · intro l hl
      have hon : ∀ s n, Style.printed s [.align n] = [] := fun _ _ => rfl
      rw [Style.printed_append, Style.printed_append, (hsilent _).2, hon, hon] at hl
      cases hl

/-! ### Receipts -/

theorem header_writes (encodings : Whatwgs) (receipt : ReceiptDocument) :
    Writes (header encodings receipt) (headerCommands encodings receipt) := by
  unfold header headerCommands
  cases (canonicalName encodings receipt.codePage).bind EscPos.codeTableFor with
  | none => exact ⟨rfl, by simp [EscPos.Command.Fits]⟩
  | some table => exact ⟨rfl, by simp [EscPos.Command.Fits]⟩

theorem endsWithCut_eq (receipt : ReceiptDocument) :
    endsWithCut receipt = receipt.items.getLast?.any (·.isCut) := by
  unfold endsWithCut
  induction receipt.items using List.reverseRecOn with
  | nil => rfl
  | append_singleton items item _ => simp

theorem trailer_writes (receipt : ReceiptDocument) :
    Writes (trailer receipt) (trailerCommands receipt) := by
  unfold trailer trailerCommands
  rw [endsWithCut_eq]
  split <;> split <;> exact ⟨rfl, by simp [EscPos.Command.Fits]⟩

/-- The header and the trailer print nothing; whatever the style was, the header leaves the
default one. -/
theorem header_style (encodings : Whatwgs) (receipt : ReceiptDocument) (s : Style) :
    s.after (headerCommands encodings receipt) = {} ∧
      s.printed (headerCommands encodings receipt) = [] := by
  unfold headerCommands
  cases (canonicalName encodings receipt.codePage).bind EscPos.codeTableFor <;> exact ⟨rfl, rfl⟩

theorem trailer_style (receipt : ReceiptDocument) (s : Style) :
    s.after (trailerCommands receipt) = s ∧ s.printed (trailerCommands receipt) = [] := by
  unfold trailerCommands
  split <;> split <;> exact ⟨rfl, rfl⟩

theorem bodies_writes {bodies : List (List Command)} {items : List (List Piece)}
    (h : List.Forall₂ Writes items bodies) : Writes items.flatten bodies.flatten := by
  induction h with
  | nil => exact ⟨rfl, by simp⟩
  | cons hwrites _ ih => exact hwrites.append ih

/-- Bodies that leave the default style print their lines one after the other. -/
theorem bodies_style {bodies : List (List Command)}
    (h : ∀ body ∈ bodies, Style.after {} body = {}) :
    Style.after {} bodies.flatten = {} ∧
      Style.printed {} bodies.flatten = bodies.flatMap (Style.printed {}) := by
  induction bodies with
  | nil => exact ⟨rfl, rfl⟩
  | cons body bodies ih =>
    rw [List.forall_mem_cons] at h
    obtain ⟨hafter, hprinted⟩ := ih h.2
    rw [List.flatten_cons, List.flatMap_cons]
    exact ⟨by rw [Style.after_append, h.1, hafter], by rw [Style.printed_append, h.1, hprinted]⟩

end Receipt

/-- An encoding of the library that writes one byte per character: ASCII as itself, and any
other character from `0x80` on. -/
def Whatwg.IsSingleByte (w : Whatwg) : Prop :=
  ∃ code : Char → Option UInt8,
    (∀ c, c.toNat < 0x80 → code c = some (UInt8.ofNat c.toNat)) ∧
    (∀ c b, 0x80 ≤ c.toNat → code c = some b → 0x80 ≤ b.toNat) ∧
    ∀ text bytes, w.encode text = (bytes, false) →
      List.Forall₂ (fun c b => code c = some b) text bytes

theorem TextEncoder.byCharacter_of_singleByte {encodings : Whatwgs} {label : String}
    {encoder : TextEncoder} (h : forLabel encodings label = .ok encoder)
    (hsingle : ∀ w, encoder = .whatwg w → w.IsSingleByte) : encoder.ByCharacter := by
  rcases byCharacter_or_whatwg h with ⟨-, hcode⟩ | ⟨w, -, rfl, -⟩
  · exact hcode
  · obtain ⟨code, hascii, hhigh, hencode⟩ := hsingle w rfl
    refine ⟨singleCode code hascii fun c b hc hb => ?_, fun text bytes hbytes =>
      singleCode_writes (hencode text bytes (whatwg_eq_ok.mp hbytes))⟩
    have := hhigh c b hc hb
    omega

namespace Receipt

/-- **A receipt's stream reads back as the receipt.**  Its items have no RAW among them and
no control characters but line breaks, and its encoding is UTF-8, a DOS page or a single-byte
one.  The grammar reads the stream to its end, as the header, the commands of each item in
order, and the trailer; every line is printed in its item's style, and each item starts in the
default one. -/
theorem reads_back {p : Pictures} {encodings : Whatwgs} {receipt : ReceiptDocument}
    {encoder : TextEncoder} {bytes : Bytes} (hvalid : receipt.validate = .ok ())
    (hraw : ∀ item ∈ receipt.items, item.isRaw = false)
    (hplain : ∀ item ∈ receipt.items, Plain item)
    (hencoder : TextEncoder.forLabel encodings receipt.codePage = .ok encoder)
    (hsingle : ∀ w, encoder = .whatwg w → w.IsSingleByte)
    (h : encode p encodings receipt = .ok bytes) :
    ∃ bodies, List.Forall₂ (Prescribed p encoder receipt.widthChars.toNat) receipt.items bodies ∧
      EscPos.parse bytes = some (headerCommands encodings receipt ++ bodies.flatten ++
        trailerCommands receipt) ∧
      List.Forall₂ (fun item body => Style.after {} body = {} ∧
        ∀ l ∈ Style.printed {} body, l.1 = itemStyle item) receipt.items bodies ∧
      ∀ s : Style,
        s.after (headerCommands encodings receipt ++ bodies.flatten ++ trailerCommands receipt) =
          {} ∧
        s.printed (headerCommands encodings receipt ++ bodies.flatten ++ trailerCommands receipt) =
          bodies.flatMap (Style.printed {}) := by
  have hcode := TextEncoder.byCharacter_of_singleByte hencoder hsingle
  have hitems : ∀ item ∈ receipt.items, item.validate = .ok () := by
    obtain ⟨_, -, hvalid⟩ := Except.bind_eq_ok.mp hvalid
    obtain ⟨_, -, hvalid⟩ := Except.bind_eq_ok.mp hvalid
    exact forM_eq_ok.mp hvalid
  obtain ⟨ps, hps, rfl⟩ := Except.map_eq_ok.mp h
  obtain ⟨encoder', hencoder', hps⟩ := Except.bind_eq_ok.mp hps
  obtain rfl := Except.ok.inj (hencoder.symm.trans hencoder')
  obtain ⟨items, hencoded, hps⟩ := Except.bind_eq_ok.mp hps
  obtain rfl := Except.ok.inj hps
  -- each item is written as the commands it stands for
  obtain ⟨bodies, hprescribed, hwrites⟩ := exists_forall₂ (mapM_eq_ok_iff.mp hencoded)
    fun item hitem _ hps => encodeItem_prescribed hcode receipt.widthChars.toNat_lt
      (hitems item hitem) (hraw item hitem) (hplain item hitem) hps
  have hstyle := hprescribed.imp fun _ _ => prescribed_style
  -- and so is the stream: a header, the items, and a trailer
  have hstream := ((header_writes encodings receipt).append (bodies_writes hwrites)).append
    (trailer_writes receipt)
  obtain ⟨hafter, hprinted⟩ := bodies_style (forall_of_forall₂ hstyle fun _ _ h => h.1)
  refine ⟨bodies, hprescribed, ?_, hstyle, fun s => ⟨?_, ?_⟩⟩
  · exact Grammar.Writes.parse hstream
  · rw [Style.after_append, Style.after_append, (header_style encodings receipt s).1, hafter,
      (trailer_style receipt _).1]
  · rw [Style.printed_append, Style.printed_append, (header_style encodings receipt s).2,
      (header_style encodings receipt s).1, hprinted, (trailer_style receipt _).2,
      List.nil_append, List.append_nil]

/-- An image library for pictures of one shade: their width, the two bytes of their height, and
the shade. -/
def shades : Pictures where
  base64 data := (Base64.decode data.toList).elim (.error (.invalidPayload "invalid base64")) .ok
  decode
    | [width, high, low, shade] =>
      if 0 < width.toNat ∧ 0 < high.toNat * 256 + low.toNat then
        .ok ⟨width.toNat, high.toNat * 256 + low.toNat,
          List.replicate (width.toNat * (high.toNat * 256 + low.toNat)) shade⟩
      else .error (.invalidPayload "empty image")
    | _ => .error (.invalidPayload "no image")
  resize gray w h := ⟨w, h, List.replicate (w * h) (gray.raw.headD 255)⟩
  black gray x y := gray.raw.getD (y * gray.width + x) 255 < 128
  nonempty data gray h := by
    split at h
    · split_ifs at h with hsize
      obtain rfl := Except.ok.inj h
      exact hsize
    · cases h
  resized _ _ _ := ⟨rfl, rfl⟩

/-- A receipt with a logo of 300 rows, styled lines, a barcode whose data holds a brace, and a QR
code. -/
def brandedReceipt : ReceiptDocument where
  openDrawer := true
  items := [.image { data := "CAEsAA==", align := .center },
    .text ⟨"KILN\r\nPRINT", .center, true, false, true, true, false, false⟩,
    .columns "Coffee" "2.50" true, .separator '-',
    .barcode ⟨.code128, "A\x7b1", 80, 3, true, .left⟩, .qr ⟨"https://example.test", 6, .m, .right⟩,
    .feed 2]

/-- The logo takes more than one raster block, and they hold its rows. -/
theorem reads_back_branded :
    ∃ bytes bodies blocks bits, encode shades onlyWindows1252 brandedReceipt = .ok bytes ∧
      List.Forall₂ (Prescribed shades (.dos cp437High "IBM437") 48) brandedReceipt.items bodies ∧
      EscPos.parse bytes = some (headerCommands onlyWindows1252 brandedReceipt ++ bodies.flatten ++
        trailerCommands brandedReceipt) ∧
      bodies.head? = some ([.align 1] ++ blocks ++ [.align 0]) ∧ Blocks 1 300 bits blocks ∧
      1 < blocks.length := by
  obtain ⟨bytes, hbytes⟩ : ∃ bytes, encode shades onlyWindows1252 brandedReceipt = .ok bytes :=
    Except.exists_ok (by decide +kernel)
  have hvalid : brandedReceipt.validate = .ok () := by decide +kernel
  have hplain : ∀ item ∈ brandedReceipt.items, Plain item := by decide +kernel
  have hraw : ∀ item ∈ brandedReceipt.items, item.isRaw = false := by decide
  obtain ⟨bodies, hprescribed, hparse, -⟩ := reads_back hvalid hraw hplain
    (TextEncoder.forLabel_437 _) (fun _ hw => by cases hw) hbytes
  have hlogo : shades.base64 "CAEsAA==" = .ok [8, 1, 44, 0] := by decide +kernel
  cases hprescribed with
  | @cons _ body _ rest himage hrest =>
    cases himage with
    | image e data gray blocks hbase64 hdecode hraster =>
      obtain rfl := Except.ok.inj (hlogo.symm.trans hbase64)
      obtain rfl := Except.ok.inj hdecode
      refine ⟨bytes, _, blocks, _, hbytes, .cons (.image _ _ _ blocks hbase64 hdecode hraster) hrest,
        hparse, rfl, hraster, ?_⟩
      -- one block has at most 256 rows
      by_contra hone
      have hrows := hraster.rows
      match blocks, hone, hraster with
      | [], _, _ => cases hrows
      | [block], _, hraster =>
        obtain ⟨rows, part, rfl, -, hle⟩ := hraster.block block List.mem_cons_self
        have hsum : rows + 0 = 300 := hrows
        omega
      | _ :: _ :: blocks, hone, _ =>
        exact hone (by rw [List.length_cons, List.length_cons]; omega)

end Receipt

end KilnPrint
