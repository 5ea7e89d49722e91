/-
The repository's renderers.

* `Encoders` — what the renderers take from elsewhere;
* `renderDocument` — what each document renders to for a printer;
* `Document.Fits` — whether the RAW form takes no more bytes than the document;
* `renderDocument_fits` — **exactly the documents that fit render to a RAW payload no
  larger than they are**.

A RAW document is passed through, and PDF, HTML and image documents never become
RAW; their renderers are represented by whether they succeed.  The structured
documents are encoded by the protocols, which are a parameter.
-/
import KilnPrint.Renderers.Text

namespace KilnPrint

/-- What the renderers take from elsewhere. -/
structure Encoders where
  whatwgs : Whatwgs
  /-- The bytes of a structured document for a printer, and their language. -/
  structured : Document → Printer → Except PrintError (Bytes × Option String)
  /-- Whether a PDF, HTML or image document can be rendered. -/
  graphic : Document → Printer → Except PrintError Unit

/-- `RawRenderer::render`. -/
def RawRenderer.render (printer : Printer) (accepted : List PayloadKind) (data : Bytes)
    (language : Option String) : Except PrintError PrintPayload :=
  if accepted.contains .raw then .ok (.raw data language)
  else
    let name := printer.name
    .error ((PrintError.new .unsupportedOperation
      s!"printer '{name}' does not accept RAW data").withPrinter printer.id)

/-- What a document renders to.  `options` are those of a text document. -/
def renderDocument (e : Encoders) (options : TextOptions) (printer : Printer)
    (accepted : List PayloadKind) (document : Document) : Except PrintError PrintPayload :=
  match document with
  | .raw data language => RawRenderer.render printer accepted data language
  | .text text => TextRenderer.render e.whatwgs printer accepted text options
  -- pages, drawn by the platform
  | .pdf _ | .html _ => (fun _ => .pdf) <$> e.graphic document printer
  | .image _ => (fun _ => .image) <$> e.graphic document printer
  | .label .. | .receipt _ | .dotMatrix _ =>
    (fun p => .raw p.1 p.2) <$> e.structured document printer

/-- The bytes of a RAW payload. -/
def PrintPayload.rawLength : PrintPayload → ℕ
  | raw bytes _ => bytes.length
  | _ => 0

/-! ### Documents whose RAW form is no larger -/

/-- The encoded lines of a text, each with its terminator, and the form feed that is
added take no more than `size` bytes. -/
def TextOptions.Fits (encodings : Whatwgs) (options : TextOptions) (text : List Char) (size : ℕ) :
    Prop :=
  ∀ encoder lines, TextEncoder.forLabel encodings options.encoding = .ok encoder →
    (rawLines text).mapM encoder.encode = .ok lines →
    (lines.map List.length).sum + lines.length * options.lineEnding.asBytes.length +
      (if addsFormFeed options text then 1 else 0) ≤ size

/-- The RAW form of a document takes no more bytes than the document. -/
def Document.Fits (e : Encoders) (options : TextOptions) (printer : Printer)
    (accepted : List PayloadKind) (document : Document) : Prop :=
  match document with
  | .raw .. | .pdf _ | .html _ | .image _ => True
  | .text content => options.mode = .raw → accepted.contains .raw = true →
    options.Fits e.whatwgs (options.prepare content.toList) document.sizeBytes
  | .label .. | .receipt _ | .dotMatrix _ => ∀ bytes language,
    e.structured document printer = .ok (bytes, language) → bytes.length ≤ document.sizeBytes

theorem textRenderer_eq_ok {encodings : Whatwgs} {printer : Printer} {accepted : List PayloadKind}
    {text : String} {options : TextOptions} {payload : PrintPayload} :
    TextRenderer.render encodings printer accepted text options = .ok payload ↔
      textPayload encodings (options.prepare text.toList) options = .ok payload ∧
        accepted.contains payload.kind = true := by
  unfold TextRenderer.render
  rw [Except.bind_eq_ok]
  constructor
  · rintro ⟨payload', hpayload, h⟩
    split at h
    next haccepted =>
      obtain rfl := Except.ok.inj h
      exact ⟨hpayload, haccepted⟩
    next => cases h
  · rintro ⟨hpayload, haccepted⟩
    exact ⟨payload, hpayload, if_pos haccepted⟩

/-- **Exactly the documents that fit render to a RAW payload no larger than they
are.** -/
theorem renderDocument_fits (e : Encoders) (options : TextOptions) (printer : Printer)
    (accepted : List PayloadKind) (document : Document) :
    document.Fits e options printer accepted ↔
      ∀ payload, renderDocument e options printer accepted document = .ok payload →
        payload.rawLength ≤ document.sizeBytes := by
  cases document with
  | raw data language =>
    refine iff_of_true True.intro ?_
    intro payload h
    have hraw : RawRenderer.render printer accepted data language = .ok payload := h
    unfold RawRenderer.render at hraw
    split at hraw
    · obtain rfl := Except.ok.inj hraw
      exact Nat.le_refl _
    · cases hraw
  -- pages never become RAW, and hold no bytes
  | pdf data | html data | image data =>
    refine iff_of_true True.intro ?_
    intro payload h
    obtain ⟨-, -, rfl⟩ := Except.map_eq_ok.mp h
    exact Nat.zero_le _
  | text text =>
    constructor
    · intro hfits payload h
      obtain ⟨hpayload, haccepted⟩ := textRenderer_eq_ok.mp h
      unfold textPayload at hpayload
      cases hmode : options.mode with
      | rendered =>
        rw [hmode] at hpayload
        obtain rfl := Except.ok.inj hpayload
        exact Nat.zero_le _
      | raw =>
        rw [hmode] at hpayload
        obtain ⟨bytes, hraw, rfl⟩ := Except.map_eq_ok.mp hpayload
        obtain ⟨encoder, lines, hencoder, hlines, rfl⟩ := renderRaw_eq_ok.mp hraw
        show (joinLines _ _ lines).length ≤ _
        rw [length_joinLines]
        exact hfits hmode haccepted encoder lines hencoder hlines
    · intro h hmode haccepted encoder lines hencoder hlines
      have hraw := renderRaw_eq_ok.mpr ⟨encoder, lines, hencoder, hlines, rfl⟩
      have hpayload : textPayload e.whatwgs (options.prepare text.toList) options =
          .ok (.raw (joinLines options (options.prepare text.toList) lines) none) := by
        unfold textPayload
        rw [hmode]
        exact Except.map_eq_ok.mpr ⟨_, hraw, rfl⟩
      have hle := h _ (textRenderer_eq_ok.mpr ⟨hpayload, haccepted⟩)
      rw [← length_joinLines]
      exact hle
  | label language json | receipt json | dotMatrix json =>
    constructor
    · intro hfits payload h
      obtain ⟨⟨bytes, language⟩, hbytes, rfl⟩ := Except.map_eq_ok.mp h
      exact hfits bytes language hbytes
    · intro h bytes language hbytes
      exact h (.raw bytes language) (Except.map_eq_ok.mpr ⟨_, hbytes, rfl⟩)

end KilnPrint
