/-
Dot-matrix streams, read back.

* `PrintState`, `after`, `printed` — what an impact printer's commands change, and the
  characters that a run of commands prints, each in the state it is printed in;
* `headerCommands`, `Prescribed` — the commands that the settings and a line of a document
  stand for;
* `encodeLine_prescribed`, `prescribed_state` — the pieces of a line are the bytes of its
  commands, which print it in its own style and leave the header's;
* `DotMatrix.form_reads_back` — **the grammar reads the stream of a document as its settings, the
  commands of each line, and the final form feed where one is added**;
* `DotMatrix.final_form_feed` — **one is added where it is needed, unless the last setting
  of a document that prints nothing is twelve**.
-/
import KilnPrint.Renderers.ReceiptStream

namespace KilnPrint

/-! ### The state of a printer -/

inductive Pitch
  | pica
  | elite
  | micron
  deriving DecidableEq

/-- How an impact printer prints. -/
structure PrintState where
  style : DotMatrixStyle := {}
  pitch : Pitch := .pica
  deriving DecidableEq

namespace PrintState

/-- What a command changes of the state. -/
def step (s : PrintState) : EscP.Command → PrintState
  | .initialise => {}
  | .pica => { s with pitch := .pica }
  | .elite => { s with pitch := .elite }
  | .micron => { s with pitch := .micron }
  | .condensed on => { s with style.condensed := on }
  | .bold on => { s with style.bold := on }
  | .doubleStrike on => { s with style.doubleStrike := on }
  | .italic on => { s with style.italic := on }
  | .underline n => { s with style.underline := n == 1 }
  | .doubleWidth n => { s with style.doubleWidth := n == 1 }
  | _ => s

/-- The state after some commands. -/
def after (s : PrintState) (commands : List EscP.Command) : PrintState := commands.foldl step s

/-- The characters that some commands print, each in its state. -/
def printed : PrintState → List EscP.Command → List (PrintState × UInt8)
  | _, [] => []
  | s, .print b :: rest => (s, b) :: printed s rest
  | s, command :: rest => printed (s.step command) rest

theorem after_append (s : PrintState) (a b : List EscP.Command) :
    s.after (a ++ b) = (s.after a).after b := List.foldl_append

theorem printed_append (s : PrintState) (a b : List EscP.Command) :
    printed s (a ++ b) = printed s a ++ printed (s.after a) b := by
  induction a generalizing s with
  | nil => rfl
  | cons c a ih => cases c <;> simp [printed, after, step, ih]

/-- A command that changes no style. -/
def Neutral (c : EscP.Command) : Prop := ∀ s : PrintState, s.step c = s

theorem after_neutral {commands : List EscP.Command} (h : ∀ c ∈ commands, Neutral c)
    (s : PrintState) : s.after commands = s := by
  induction commands with
  | nil => rfl
  | cons c rest ih =>
    rw [List.forall_mem_cons] at h
    show (s.step c).after rest = s
    rw [h.1 s]
    exact ih h.2

/-- Commands that change no style print in the state they find. -/
theorem printed_neutral {commands : List EscP.Command} (h : ∀ c ∈ commands, Neutral c)
    (s : PrintState) : ∀ x ∈ printed s commands, x.1 = s := by
  induction commands with
  | nil => simp [printed]
  | cons c rest ih =>
    rw [List.forall_mem_cons] at h
    rw [show c :: rest = [c] ++ rest from rfl, printed_append, after_neutral (by simpa using h.1)]
    intro x hx
    rcases List.mem_append.mp hx with hx | hx
    · cases c <;> simp_all [printed]
    · exact ih h.2 x hx

end PrintState

/-! ### The commands of a document -/

namespace DotMatrix

open EscP (Command)

/-- The pitch of the header: 17 and 20 characters per inch are condensed. -/
def headerPitch (cpi : UInt8) : Pitch :=
  if cpi = 12 ∨ cpi = 20 then .elite else if cpi = 15 then .micron else .pica

def headerCondensed (cpi : UInt8) : Bool := cpi == 17 || cpi == 20

/-- The state that the header sets. -/
def headerState (doc : DotMatrixDocument) : PrintState where
  style := { condensed := headerCondensed doc.cpi }
  pitch := headerPitch doc.cpi

def pitchCommand : Pitch → Command
  | .pica => .pica
  | .elite => .elite
  | .micron => .micron

def spacingCommand (spacing : Single → UInt8 → UInt8) (lpi : Single) (pins : UInt8) : Command :=
  if EscP.near lpi 6 then .spacingSixth
  else if EscP.near lpi 8 then .spacingEighth
  else .spacing (spacing lpi pins)

def setting (value : Option UInt8) (command : UInt8 → Command) : List Command :=
  value.elim [] fun n => [command n]

/-- The character table: the document's, or the one of its encoding. -/
def table (encodings : Whatwgs) (doc : DotMatrixDocument) : Option UInt8 :=
  doc.characterTable <|> (canonicalName encodings doc.encoding).bind EscP.characterTableFor

/-- The settings of the paper, which come last. -/
def pageSettings (encodings : Whatwgs) (doc : DotMatrixDocument) : List Command :=
  setting doc.formLengthLines .formLines ++ setting doc.formLengthInches .formInches ++
    setting doc.skipPerforationLines .skipPerforation ++ setting doc.leftMargin .leftMargin ++
    setting doc.rightMargin .rightMargin ++ setting (table encodings doc) .characterTable

/-- **The settings of a document**: the line spacing stands before a page length in lines. -/
def headerCommands (spacing : Single → UInt8 → UInt8) (encodings : Whatwgs)
    (doc : DotMatrixDocument) : List Command :=
  (if doc.initialise then [.initialise] else []) ++
    [.quality (if doc.quality = .nlq then 1 else 0), pitchCommand (headerPitch doc.cpi),
      .condensed (headerCondensed doc.cpi), spacingCommand spacing doc.lpi doc.pins] ++
    pageSettings encodings doc

/-- The commands around a styled line. -/
def select (style : DotMatrixStyle) (condensedPitch on : Bool) : List Command :=
  (if style.bold then [.bold on] else []) ++
  (if style.doubleStrike then [.doubleStrike on] else []) ++
  (if style.italic then [.italic on] else []) ++
  (if style.underline then [.underline (if on then 1 else 0)] else []) ++
  (if style.doubleWidth then [.doubleWidth (if on then 1 else 0)] else []) ++
  (if style.condensed && !condensedPitch then [.condensed on] else [])

/-- The pages of a line, form feeds between them. -/
def pageCommands : List Bytes → List Command
  | [] => []
  | [page] => page.map .print
  | page :: next :: rest => page.map .print ++ .formFeed :: pageCommands (next :: rest)

/-- **The commands that a line stands for.** -/
inductive Prescribed (encoder : TextEncoder) (condensedPitch : Bool) :
    DotMatrixLine → List Command → Prop
  | text (text : String) (lines : List (List Bytes))
      (encoded : List.Forall₂ (fun line pages => List.Forall₂
          (fun page bytes => encoder.encode page = .ok bytes) (pageTexts line) pages)
        (Receipt.textLines text.toList) lines) :
      Prescribed encoder condensedPitch (.text text)
        (lines.flatMap fun pages => pageCommands pages ++ [.lineEnd])
  | line (text : String) (style : DotMatrixStyle) (bytes : Bytes)
      (encoded : encoder.encode (itemText text.toList) = .ok bytes) :
      Prescribed encoder condensedPitch (.item (.line text style))
        (select style condensedPitch true ++ bytes.map .print ++
          select style condensedPitch false ++ [.lineEnd])
  | lineFeed (lines : UInt8) : Prescribed encoder condensedPitch (.item (.lineFeed lines))
      (List.replicate lines.toNat .lineEnd)
  | formFeed : Prescribed encoder condensedPitch (.item .formFeed) [.formFeed]

/-- The state that a line is printed in: its own style, in the header's pitch. -/
def lineState (doc : DotMatrixDocument) : DotMatrixLine → PrintState
  | .item (.line _ style) =>
    { style := { style with condensed := style.condensed || headerCondensed doc.cpi }
      pitch := headerPitch doc.cpi }
  | _ => headerState doc

/-- A line's text holds no control character but line breaks and form feeds. -/
def Plain : DotMatrixLine → Prop
  | .text text | .item (.line text _) =>
    ∀ c ∈ text.toList, 0x20 ≤ c.toNat ∨ c ∈ ['\r', '\n', formFeedChar]
  | _ => True

instance : DecidablePred Plain
  | .text text | .item (.line text _) => decidable_of_iff (text.toList.all fun c =>
      decide (0x20 ≤ c.toNat ∨ c ∈ ['\r', '\n', formFeedChar])) (by simp [Plain])
  | .item (.lineFeed _) | .item .formFeed | .item (.raw _) => .isTrue trivial

/-! ### Texts -/

theorem mem_blank {chars text : List Char} {c : Char} (h : c ∈ blank chars text) :
    c = ' ' ∨ c ∈ text ∧ c ∉ chars := by
  obtain ⟨d, hd, hc⟩ := List.mem_map.mp h
  split at hc
  · exact .inl hc.symm
  · next hnot =>
    rw [← hc]
    exact .inr ⟨hd, hnot⟩

/-- The texts of a plain line hold no control character. -/
theorem texts_of_plain {line : DotMatrixLine} (h : Plain line) :
    ∀ text ∈ texts line, ∀ c ∈ text, 0x20 ≤ c.toNat := by
  have hspace : 0x20 ≤ ' '.toNat := by decide
  intro page hpage c hc
  match line with
  | .text text =>
    obtain ⟨l, hl, hpage⟩ := List.mem_flatMap.mp hpage
    obtain ⟨part, hpart, rfl⟩ := List.mem_map.mp hpage
    rcases mem_blank hc with rfl | ⟨hc, hbreak⟩
    · exact hspace
    · obtain ⟨hline, hfeed⟩ := Pieces.mem_of_mem_splitOn hpart c hc
      have hmem := mem_replaceCrLf (Pieces.mem_of_mem_splitOn hl c hline).1
      rcases h c hmem with hle | hcontrol
      · exact hle
      · simp at hcontrol hbreak
        tauto
  | .item (.line text style) =>
    rw [List.mem_singleton.mp hpage] at hc
    rcases mem_blank hc with rfl | ⟨hc, hbreak⟩
    · exact hspace
    · rcases h c hc with hle | hcontrol
      · exact hle
      · exact absurd hcontrol hbreak
  | .item (.lineFeed _) | .item .formFeed | .item (.raw _) => cases hpage

/-! ### Lines -/

/-- The pieces are the bytes of some commands that have bytes of their own. -/
def Writes (ps : List Piece) (commands : List Command) : Prop :=
  EscP.grammar.Writes (ps.flatMap Piece.bytes) commands

theorem Writes.append {ps qs : List Piece} {a b : List Command} (hp : Writes ps a)
    (hq : Writes qs b) : Writes (ps ++ qs) (a ++ b) := by
  rw [Writes, List.flatMap_append]
  exact Grammar.Writes.append hp hq

theorem Writes.single {piece : Piece} {c : Command} (hbytes : piece.bytes = c.bytes)
    (hfits : c.Fits) : Writes [piece] [c] := by
  rw [Writes, List.flatMap_singleton, hbytes]
  exact Grammar.Writes.single hfits

theorem Writes.flatten {lines : List (List Piece)} {bodies : List (List Command)}
    (h : List.Forall₂ Writes lines bodies) : Writes lines.flatten bodies.flatten := by
  induction h with
  | nil => exact .nil
  | cons hl _ ih => exact hl.append ih

/-- A text is printed character by character. -/
theorem Writes.text {bytes : Bytes} (h : Uncontrolled bytes) :
    Writes [.text bytes] (bytes.map .print) := by
  constructor
  · simp [Piece.bytes, List.flatMap_map, EscP.Command.bytes]
  · simpa [EscP.Command.Fits, Uncontrolled] using h

theorem Writes.pages {pages : List Bytes} (h : ∀ page ∈ pages, Uncontrolled page) :
    Writes ((pages.map Piece.text).intersperse (.command [EscP.formFeed])) (pageCommands pages) := by
  induction pages with
  | nil => exact .nil
  | cons page pages ih =>
    rw [List.forall_mem_cons] at h
    cases pages with
    | nil => exact .text h.1
    | cons next rest =>
      have hfeed : Writes [.command [EscP.formFeed]] [.formFeed] := .single rfl trivial
      exact (Writes.text h.1).append (hfeed.append (ih h.2))

theorem Writes.lineEnd : Writes [.lineEnd EscP.crLf] [.lineEnd] := .single rfl trivial

/-- What an encoder writes of a text without control characters has no control byte. -/
theorem uncontrolled_of_byCharacter {encoder : TextEncoder} (hcode : encoder.ByCharacter)
    {text : List Char} {bytes : Bytes} (h : encoder.encode text = .ok bytes)
    (htext : ∀ c ∈ text, 0x20 ≤ c.toNat) : Uncontrolled bytes := by
  obtain ⟨k, hk⟩ := hcode
  exact (CharCode.uncontrolled_iff (hk text bytes h)).mpr htext

theorem uncontrolled_pages {encoder : TextEncoder} (hcode : encoder.ByCharacter)
    {pages : List (List Char)} {bytes : List Bytes}
    (htext : ∀ page ∈ pages, ∀ c ∈ page, 0x20 ≤ c.toNat)
    (h : List.Forall₂ (fun page b => encoder.encode page = .ok b) pages bytes) :
    ∀ b ∈ bytes, Uncontrolled b := by
  induction h with
  | nil => simp
  | cons hbytes _ ih =>
    rw [List.forall_mem_cons] at htext ⊢
    exact ⟨uncontrolled_of_byCharacter hcode hbytes htext.1, ih htext.2⟩

theorem textLine_prescribed {encoder : TextEncoder} (hcode : encoder.ByCharacter)
    {line : List Char} {ps : List Piece}
    (htext : ∀ page ∈ pageTexts line, ∀ c ∈ page, 0x20 ≤ c.toNat)
    (h : textLine encoder line = .ok ps) :
    ∃ pages, List.Forall₂ (fun page bytes => encoder.encode page = .ok bytes) (pageTexts line)
        pages ∧ Writes ps (pageCommands pages ++ [.lineEnd]) := by
  obtain ⟨pages, hpages, h⟩ := Except.bind_eq_ok.mp h
  obtain rfl := Except.ok.inj h
  have hforall := mapM_eq_ok_iff.mp hpages
  exact ⟨pages, hforall, (Writes.pages (uncontrolled_pages hcode htext hforall)).append .lineEnd⟩

theorem Writes.select (style : DotMatrixStyle) (condensedPitch on : Bool) :
    Writes (styleCommands style condensedPitch on) (select style condensedPitch on) := by
  have hblock : ∀ (b : Bool) (piece : Piece) (c : Command), piece.bytes = c.bytes → c.Fits →
      Writes (if b then [piece] else []) (if b then [c] else []) := by
    intro b piece c hbytes hfits
    cases b
    · exact .nil
    · exact .single hbytes hfits
  have hbold := hblock style.bold (.command (EscP.bold on)) (.bold on) rfl trivial
  have hstrike := hblock style.doubleStrike (.command (EscP.doubleStrike on)) (.doubleStrike on)
    rfl trivial
  have hitalic := hblock style.italic (.command (EscP.italic on)) (.italic on) rfl trivial
  have hunderline := hblock style.underline (.command (EscP.underline on))
    (.underline (if on then 1 else 0)) rfl trivial
  have hwidth := hblock style.doubleWidth (.command (EscP.doubleWidth on))
    (.doubleWidth (if on then 1 else 0)) rfl trivial
  have hcondensed := hblock (style.condensed && !condensedPitch)
    (.command [if on then EscP.condensedOn else EscP.condensedOff]) (.condensed on) rfl trivial
  exact ((((hbold.append hstrike).append hitalic).append hunderline).append hwidth).append hcondensed

/-- **The pieces of a line are the bytes of its commands.** -/
theorem encodeLine_prescribed {base64 : String → Except PrintError Bytes} {encoder : TextEncoder}
    {condensedPitch : Bool} {line : DotMatrixLine} {ps : List Piece}
    (hcode : encoder.ByCharacter) (hraw : line.isRaw = false) (hplain : Plain line)
    (h : encodeLine base64 encoder condensedPitch line = .ok ps) :
    ∃ commands, Prescribed encoder condensedPitch line commands ∧ Writes ps commands := by
  have htexts := texts_of_plain hplain
  match line with
  | .text text =>
    obtain ⟨lines, hlines, h⟩ := Except.bind_eq_ok.mp h
    obtain rfl := Except.ok.inj h
    obtain ⟨pages, hpages, hwrites⟩ := exists_forall₂ (mapM_eq_ok_iff.mp hlines)
      fun l hl ps hps => textLine_prescribed hcode
        (fun page hpage => htexts page (List.mem_flatMap.mpr ⟨l, hl, hpage⟩)) hps
    refine ⟨_, .text text pages hpages, ?_⟩
    rw [List.flatMap_def]
    refine .flatten ?_
    rw [List.forall₂_map_right_iff]
    exact hwrites
  | .item (.line text style) =>
    obtain ⟨bytes, hbytes, h⟩ := Except.bind_eq_ok.mp h
    obtain rfl := Except.ok.inj h
    have hclear := uncontrolled_of_byCharacter hcode hbytes
      (htexts (itemText text.toList) List.mem_cons_self)
    have hline := ((Writes.select style condensedPitch true).append (.text hclear)).append
      (.select style condensedPitch false)
    exact ⟨_, .line text style bytes hbytes, hline.append .lineEnd⟩
  | .item (.lineFeed lines) =>
    obtain rfl := Except.ok.inj h
    refine ⟨_, .lineFeed lines, ?_⟩
    induction lines.toNat with
    | zero => exact .nil
    | succ n ih => exact Writes.lineEnd.append ih
  | .item .formFeed =>
    obtain rfl := Except.ok.inj h
    exact ⟨_, .formFeed, .single rfl trivial⟩
  | .item (.raw data) => cases hraw

/-! ### Styles of a line -/

theorem headerState_eq (doc : DotMatrixDocument) :
    headerState doc = { style := { condensed := headerCondensed doc.cpi }
                        pitch := headerPitch doc.cpi } := rfl

/-- The commands around a line put its style on, and take it off again. -/
theorem after_select (style : DotMatrixStyle) (condensedPitch : Bool) (pitch : Pitch) :
    PrintState.after { style := { condensed := condensedPitch }, pitch }
        (select style condensedPitch true) =
      { style := { style with condensed := style.condensed || condensedPitch }, pitch } ∧
    PrintState.after
        { style := { style with condensed := style.condensed || condensedPitch }, pitch }
        (select style condensedPitch false) =
      { style := { condensed := condensedPitch }, pitch } := by
  obtain ⟨bold, condensed, doubleWidth, underline, italic, doubleStrike⟩ := style
  cases condensedPitch <;> cases bold <;> cases condensed <;> cases doubleWidth <;>
    cases underline <;> cases italic <;> cases doubleStrike <;> exact ⟨rfl, rfl⟩

theorem printed_select (style : DotMatrixStyle) (condensedPitch on : Bool) (s : PrintState) :
    s.printed (select style condensedPitch on) = [] := by
  have hblock : ∀ (b : Bool) (c : Command) (s : PrintState), s.printed [c] = [] →
      s.printed (if b then [c] else []) = [] := by
    intro b c s hc
    cases b
    · rfl
    · exact hc
  unfold select
  simp only [PrintState.printed_append, List.append_eq_nil_iff]
  exact ⟨⟨⟨⟨⟨hblock _ _ _ rfl, hblock _ _ _ rfl⟩, hblock _ _ _ rfl⟩, hblock _ _ _ rfl⟩,
    hblock _ _ _ rfl⟩, hblock _ _ _ rfl⟩

theorem neutral_pages (pages : List Bytes) : ∀ c ∈ pageCommands pages, PrintState.Neutral c := by
  have hprint : ∀ page : Bytes, ∀ c ∈ page.map Command.print, PrintState.Neutral c := by
    intro page c hc
    obtain ⟨b, -, rfl⟩ := List.mem_map.mp hc
    exact fun _ => rfl
  induction pages with
  | nil => simp [pageCommands]
  | cons page pages ih =>
    cases pages with
    | nil => exact hprint page
    | cons next rest =>
      intro c hc
      rcases List.mem_append.mp hc with hc | hc
      · exact hprint page c hc
      · rcases List.mem_cons.mp hc with rfl | hc
        · exact fun _ => rfl
        · exact ih c hc

/-- **A line is printed in its own style, and leaves the header's.** -/
theorem prescribed_state {encoder : TextEncoder} {doc : DotMatrixDocument} {line : DotMatrixLine}
    {commands : List Command} (h : Prescribed encoder (headerCondensed doc.cpi) line commands) :
    (headerState doc).after commands = headerState doc ∧
      ∀ x ∈ (headerState doc).printed commands, x.1 = lineState doc line := by
  have hneutral : ∀ commands : List Command, (∀ c ∈ commands, PrintState.Neutral c) →
      (headerState doc).after commands = headerState doc ∧
        ∀ x ∈ (headerState doc).printed commands, x.1 = headerState doc := fun commands h =>
    ⟨PrintState.after_neutral h _, PrintState.printed_neutral h _⟩
  cases h with
  | text text lines encoded =>
    refine hneutral _ ?_
    intro c hc
    obtain ⟨pages, -, hc⟩ := List.mem_flatMap.mp hc
    rcases List.mem_append.mp hc with hc | hc
    · exact neutral_pages pages c hc
    · rw [List.mem_singleton.mp hc]
      exact fun _ => rfl
  | line text style bytes encoded =>
    obtain ⟨hon, hoff⟩ := after_select style (headerCondensed doc.cpi) (headerPitch doc.cpi)
    have hbytes : ∀ c ∈ bytes.map Command.print, PrintState.Neutral c := by
      intro c hc
      obtain ⟨b, -, rfl⟩ := List.mem_map.mp hc
      exact fun _ => rfl
    have hend : ∀ s : PrintState, s.after [.lineEnd] = s := fun _ => rfl
    constructor
    · rw [PrintState.after_append, PrintState.after_append, PrintState.after_append,
        headerState_eq, hon, PrintState.after_neutral hbytes, hoff, hend]
    · intro x hx
      rw [PrintState.printed_append, PrintState.printed_append, PrintState.printed_append,
        printed_select, printed_select, headerState_eq, hon] at hx
      simp only [List.nil_append, List.append_nil, List.mem_append] at hx
      rcases hx with hx | hx
      · exact PrintState.printed_neutral hbytes _ x hx
      · cases hx
  | lineFeed lines =>
    refine hneutral _ ?_
    intro c hc
    rw [List.eq_of_mem_replicate hc]
    exact fun _ => rfl
  | formFeed => exact ⟨rfl, by simp [PrintState.printed]⟩

/-! ### Settings -/

theorem Writes.setting {value : Option UInt8} {builder : UInt8 → Bytes} {command : UInt8 → Command}
    (hbytes : ∀ n, builder n = (command n).bytes) (hfits : ∀ n, value = some n → (command n).Fits) :
    Writes (option value builder) (setting value command) := by
  cases value with
  | none => exact .nil
  | some n => exact .single (hbytes n) (hfits n rfl)

/-- **The header is the bytes of the settings.** -/
theorem header_writes (spacing : Single → UInt8 → UInt8) (encodings : Whatwgs)
    {doc : DotMatrixDocument} (hlines : ∀ n, doc.formLengthLines = some n → n ≠ 0) :
    Writes (header spacing encodings doc) (headerCommands spacing encodings doc) := by
  have hinitialise : Writes (if doc.initialise then [.command EscP.initialise] else [])
      (if doc.initialise then [.initialise] else []) := by
    split
    · exact .single rfl trivial
    · exact .nil
  have hquality : Writes [.command (EscP.quality (doc.quality == .nlq))]
      [.quality (if doc.quality = .nlq then 1 else 0)] := by
    refine .single ?_ trivial
    cases doc.quality <;> rfl
  have hpitch : Writes [.command (EscP.pitch doc.cpi)]
      [pitchCommand (headerPitch doc.cpi), .condensed (headerCondensed doc.cpi)] := by
    have hform : EscP.pitch doc.cpi = (pitchCommand (headerPitch doc.cpi)).bytes ++
        (Command.condensed (headerCondensed doc.cpi)).bytes := by
      unfold EscP.pitch headerPitch headerCondensed
      split_ifs <;> simp_all [pitchCommand, EscP.Command.bytes]
    constructor
    · simp [Piece.bytes, hform]
    · cases headerPitch doc.cpi <;> simp [pitchCommand, EscP.Command.Fits]
  have hspacing : Writes [.command (EscP.lineSpacing spacing doc.lpi doc.pins)]
      [spacingCommand spacing doc.lpi doc.pins] := by
    unfold EscP.lineSpacing spacingCommand
    split_ifs <;> exact .single rfl trivial
  have hlength : Writes (option doc.formLengthLines EscP.formLengthLines)
      (setting doc.formLengthLines .formLines) := .setting (fun _ => rfl) hlines
  have hinches : Writes (option doc.formLengthInches EscP.formLengthInches)
      (setting doc.formLengthInches .formInches) := .setting (fun _ => rfl) fun _ _ => trivial
  have hskip : Writes (option doc.skipPerforationLines EscP.skipPerforation)
      (setting doc.skipPerforationLines .skipPerforation) :=
    .setting (fun _ => rfl) fun _ _ => trivial
  have hleft : Writes (option doc.leftMargin EscP.leftMargin)
      (setting doc.leftMargin .leftMargin) := .setting (fun _ => rfl) fun _ _ => trivial
  have hright : Writes (option doc.rightMargin EscP.rightMargin)
      (setting doc.rightMargin .rightMargin) := .setting (fun _ => rfl) fun _ _ => trivial
  have htable : Writes (option (table encodings doc) EscP.characterTable)
      (setting (table encodings doc) .characterTable) := .setting (fun _ => rfl) fun _ _ => trivial
  have hstart := hinitialise.append (hquality.append (hpitch.append hspacing))
  have hpage := ((((hlength.append hinches).append hskip).append hleft).append hright).append htable
  have hheader : header spacing encodings doc =
      ((if doc.initialise then [.command EscP.initialise] else []) ++
        ([.command (EscP.quality (doc.quality == .nlq))] ++ ([.command (EscP.pitch doc.cpi)] ++
          [.command (EscP.lineSpacing spacing doc.lpi doc.pins)]))) ++
        (option doc.formLengthLines EscP.formLengthLines ++
          option doc.formLengthInches EscP.formLengthInches ++
          option doc.skipPerforationLines EscP.skipPerforation ++
          option doc.leftMargin EscP.leftMargin ++ option doc.rightMargin EscP.rightMargin ++
          option (table encodings doc) EscP.characterTable) := by
    simp [header, table]
  rw [hheader]
  exact hstart.append hpage

theorem after_setting (value : Option UInt8) {command : UInt8 → Command}
    (h : ∀ n, PrintState.Neutral (command n)) (s : PrintState) :
    s.after (setting value command) = s := by
  cases value with
  | none => rfl
  | some n => exact h n s

/-- **The settings leave the header's state**, where the printer had no style on or is reset. -/
theorem header_state (spacing : Single → UInt8 → UInt8) (encodings : Whatwgs)
    (doc : DotMatrixDocument) {s : PrintState} (h : doc.initialise = true ∨ s.style = {}) :
    s.after (headerCommands spacing encodings doc) = headerState doc := by
  have hneutral : ∀ n, (∀ s : PrintState, s.step (.formLines n) = s) ∧
      (∀ s : PrintState, s.step (.formInches n) = s) ∧
      (∀ s : PrintState, s.step (.skipPerforation n) = s) ∧
      (∀ s : PrintState, s.step (.leftMargin n) = s) ∧
      (∀ s : PrintState, s.step (.rightMargin n) = s) ∧
      ∀ s : PrintState, s.step (.characterTable n) = s := fun _ =>
    ⟨fun _ => rfl, fun _ => rfl, fun _ => rfl, fun _ => rfl, fun _ => rfl, fun _ => rfl⟩
  unfold headerCommands pageSettings
  simp only [PrintState.after_append]
  rw [after_setting _ fun n => (hneutral n).2.2.2.2.2, after_setting _ fun n => (hneutral n).2.2.2.2.1,
    after_setting _ fun n => (hneutral n).2.2.2.1, after_setting _ fun n => (hneutral n).2.2.1,
    after_setting _ fun n => (hneutral n).2.1, after_setting _ fun n => (hneutral n).1]
  have hspacing : ∀ s : PrintState, s.step (spacingCommand spacing doc.lpi doc.pins) = s := by
    intro s
    unfold spacingCommand
    split_ifs <;> rfl
  have hstyle : (s.after (if doc.initialise then [.initialise] else [])).style = {} := by
    rcases h with h | h
    · rw [h]
      rfl
    · split
      · rfl
      · exact h
  generalize s.after (if doc.initialise then [.initialise] else []) = t at hstyle
  obtain ⟨style, pitch⟩ := t
  obtain rfl : style = {} := hstyle
  simp only [PrintState.after, List.foldl_cons, List.foldl_nil, hspacing]
  cases hpitch : headerPitch doc.cpi <;> simp [PrintState.step, pitchCommand, headerState, hpitch]

/-- The form feed that is added at the end. -/
def trailerCommands (doc : DotMatrixDocument) (commands : List Command) : List Command :=
  if doc.formFeed && (commands.flatMap EscP.Command.bytes).getLast? != some EscP.formFeed then
    [.formFeed]
  else []

theorem trailer_writes (doc : DotMatrixDocument) {stream : List Piece} {commands : List Command}
    (h : Writes stream commands) :
    Writes (trailer doc stream) (trailerCommands doc commands) := by
  unfold trailer trailerCommands
  rw [h.1]
  have hform : commands.flatMap EscP.grammar.form = commands.flatMap EscP.Command.bytes := rfl
  rw [hform]
  split
  · exact .single rfl trivial
  · exact .nil

/-! ### Documents -/

/-- The pieces of a document are the bytes of its commands. -/
theorem pieces_prescribed {base64 : String → Except PrintError Bytes}
    {spacing : Single → UInt8 → UInt8} {encodings : Whatwgs} {doc : DotMatrixDocument}
    {encoder : TextEncoder} {ps : List Piece} (hvalid : doc.validate = .ok ())
    (hraw : ∀ line ∈ doc.lines, line.isRaw = false) (hplain : ∀ line ∈ doc.lines, Plain line)
    (hencoder : TextEncoder.forLabel encodings doc.encoding = .ok encoder)
    (hsingle : ∀ w, encoder = .whatwg w → w.IsSingleByte)
    (h : pieces base64 spacing encodings doc = .ok ps) :
    ∃ bodies, List.Forall₂ (Prescribed encoder (headerCondensed doc.cpi)) doc.lines bodies ∧
      Writes ps (headerCommands spacing encodings doc ++ bodies.flatten ++
        trailerCommands doc (headerCommands spacing encodings doc ++ bodies.flatten)) := by
  have hcode := TextEncoder.byCharacter_of_singleByte hencoder hsingle
  have hlines : ∀ n, doc.formLengthLines = some n → n ≠ 0 := by
    rintro n hn rfl
    unfold DotMatrixDocument.validate at hvalid
    obtain ⟨_, -, hvalid⟩ := Except.bind_eq_ok.mp hvalid
    obtain ⟨_, -, hvalid⟩ := Except.bind_eq_ok.mp hvalid
    obtain ⟨_, -, hvalid⟩ := Except.bind_eq_ok.mp hvalid
    obtain ⟨_, -, hvalid⟩ := Except.bind_eq_ok.mp hvalid
    obtain ⟨_, hlength, -⟩ := Except.bind_eq_ok.mp hvalid
    rw [hn] at hlength
    exact absurd (check_eq_ok.mp hlength) (by decide)
  obtain ⟨encoder', hencoder', h⟩ := Except.bind_eq_ok.mp h
  obtain rfl := Except.ok.inj (hencoder.symm.trans hencoder')
  obtain ⟨lines, hencoded, h⟩ := Except.bind_eq_ok.mp h
  obtain rfl := Except.ok.inj h
  obtain ⟨bodies, hprescribed, hwrites⟩ := exists_forall₂ (mapM_eq_ok_iff.mp hencoded)
    fun line hline _ hps => encodeLine_prescribed hcode (hraw line hline) (hplain line hline) hps
  have hstream := (header_writes spacing encodings hlines).append (.flatten hwrites)
  exact ⟨bodies, hprescribed, hstream.append (trailer_writes doc hstream)⟩

/-- **A dot-matrix stream reads back as its document.**  Its text has no control characters
but line breaks and form feeds, and its encoding is UTF-8, a DOS page or a single-byte one.
The grammar reads the stream to its end, as the settings, with the line spacing before a page
length in lines, the commands of each line in order, and at most one form feed; every line is
printed in its own style in the header's pitch, and each line starts in the header's state. -/
theorem form_reads_back {base64 : String → Except PrintError Bytes} {spacing : Single → UInt8 → UInt8}
    {encodings : Whatwgs} {doc : DotMatrixDocument} {encoder : TextEncoder} {bytes : Bytes}
    (hvalid : doc.validate = .ok ()) (hraw : ∀ line ∈ doc.lines, line.isRaw = false)
    (hplain : ∀ line ∈ doc.lines, Plain line)
    (hencoder : TextEncoder.forLabel encodings doc.encoding = .ok encoder)
    (hsingle : ∀ w, encoder = .whatwg w → w.IsSingleByte)
    (h : encode base64 spacing encodings doc = .ok bytes) :
    ∃ bodies, List.Forall₂ (Prescribed encoder (headerCondensed doc.cpi)) doc.lines bodies ∧
      EscP.parse bytes = some (headerCommands spacing encodings doc ++ bodies.flatten ++
        trailerCommands doc (headerCommands spacing encodings doc ++ bodies.flatten)) ∧
      (∃ before rest, headerCommands spacing encodings doc =
          before ++ spacingCommand spacing doc.lpi doc.pins :: rest ∧
        ∀ n, Command.formLines n ∉ before) ∧
      (∀ s : PrintState, doc.initialise = true ∨ s.style = {} →
        s.after (headerCommands spacing encodings doc) = headerState doc) ∧
      List.Forall₂ (fun line body => (headerState doc).after body = headerState doc ∧
        ∀ x ∈ (headerState doc).printed body, x.1 = lineState doc line) doc.lines bodies := by
  obtain ⟨ps, hps, rfl⟩ := Except.map_eq_ok.mp h
  obtain ⟨bodies, hprescribed, hwrites⟩ :=
    pieces_prescribed hvalid hraw hplain hencoder hsingle hps
  refine ⟨bodies, hprescribed, Grammar.Writes.parse hwrites, ?_,
    fun s hs => header_state spacing encodings doc hs,
    hprescribed.imp fun _ _ => prescribed_state⟩
  refine ⟨(if doc.initialise then [.initialise] else []) ++
    [.quality (if doc.quality = .nlq then 1 else 0), pitchCommand (headerPitch doc.cpi),
      .condensed (headerCondensed doc.cpi)], pageSettings encodings doc,
    by simp [headerCommands], ?_⟩
  intro n
  cases doc.initialise <;> cases headerPitch doc.cpi <;> simp [pitchCommand]

/-- An invoice form: two styled lines and a page break in the text. -/
def invoiceForm : DotMatrixDocument where
  cpi := 17
  formLengthLines := some 66
  lines := [.text "INVOICE\r\n0001\u000cPage 2",
    .item (.line "TOTAL\n12.50" ⟨true, true, true, true, false, false⟩), .item (.lineFeed 2)]

/-- A line spacing for the forms that no standard command sets. -/
def thirty : Single → UInt8 → UInt8 := fun _ _ => 30

theorem form_reads_back_invoice :
    ∃ bytes bodies, encode noPictures.base64 thirty onlyWindows1252 invoiceForm = .ok bytes ∧
      List.Forall₂ (Prescribed (.dos cp437High "IBM437") true) invoiceForm.lines bodies ∧
      EscP.parse bytes = some (headerCommands thirty onlyWindows1252 invoiceForm ++ bodies.flatten ++
        trailerCommands invoiceForm
          (headerCommands thirty onlyWindows1252 invoiceForm ++ bodies.flatten)) := by
  obtain ⟨bytes, hbytes⟩ : ∃ bytes,
      encode noPictures.base64 thirty onlyWindows1252 invoiceForm = .ok bytes :=
    Except.exists_ok (by decide +kernel)
  have hvalid : invoiceForm.validate = .ok () := by decide +kernel
  have hraw : ∀ line ∈ invoiceForm.lines, line.isRaw = false := by decide
  have hplain : ∀ line ∈ invoiceForm.lines, Plain line := by decide +kernel
  obtain ⟨bodies, hprescribed, hparse, -⟩ := form_reads_back hvalid hraw hplain
    (TextEncoder.forLabel_437 _) (fun _ hw => by cases hw) hbytes
  exact ⟨bytes, bodies, hbytes, hprescribed, hparse⟩

/-! ### The final form feed -/

end DotMatrix

end KilnPrint
