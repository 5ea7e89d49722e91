/-
The Windows provider's two submission paths.

* `mapError`, `withPrinterName` — how a Win32 failure becomes a `PrintError`;
* `rawSubmit`, `writeAll` — `raw::submit`: bytes through the spooler, one page a
  copy;
* `rasterPrint`, `draw` — `raster::print`: pages of pixels through GDI, in bands.

A call that reports failure through its return value and leaves the error with
the thread answers that error here.  Floating-point placement, the pixels
themselves and the page settings are parameters or left to the calls that read
them: no failure path depends on them.
-/
import KilnPrint.Lib.Interaction
import KilnPrint.Model.Document

namespace KilnPrint

open Interaction Fallible

namespace Windows

/-! ### Errors -/

/-- A `windows::core::Error`: its `HRESULT`. -/
structure WinError where
  code : UInt32
  deriving DecidableEq, Repr

/-- The system's text for an `HRESULT`, trimmed. -/
abbrev Messages := UInt32 → String

/-- `HRESULT::from_win32` of a non-zero code. -/
def WinError.ofWin32 (code : UInt32) : WinError := ⟨(code &&& 0xFFFF) ||| 0x80070000⟩

/-- The Win32 error code carried by an `HRESULT` built from one. -/
def win32Code (error : WinError) : Option UInt32 :=
  if error.code &&& 0xFFFF0000 = 0x80070000 then some (error.code &&& 0xFFFF) else none

def errorCode : Option UInt32 → ErrorCode
  | some 1801 | some 1905 => .printerNotFound
  | some 5 => .accessDenied
  | some 1804 | some 50 => .unsupportedOperation
  | some 1722 | some 1726 => .connectionError
  | _ => .spoolerError

def details (win32 : Option UInt32) (hresult : UInt32) : Value :=
  match win32 with
  | some code => .obj [("win32Error", .num code.toNat)]
  | none =>
    let digits := (padHex 8 hresult.toNat).toUpper
    .obj [("hresult", .str s!"0x{digits}")]

/-- Maps a Win32 failure to a client-safe error. -/
def mapError (messages : Messages) (context : String) (error : WinError) : PrintError :=
  let code := win32Code error
  let text := messages error.code
  let message := if text.isEmpty then context else s!"{context}: {text}"
  (PrintError.new (errorCode code) message).withDetails (details code error.code)

def providerId : String := "windows"

def withPrinterName (e : PrintError) (name : String) : PrintError :=
  e.withPrinter (PrinterId.derive providerId name)

variable (messages : Messages)

/-! ### RAW data through the spooler -/

/-- The calls `raw::submit` makes. -/
inductive SpoolCall
  | openPrinter
  | startDocPrinter
  | startPagePrinter
  | writePrinter (data : Bytes)
  | endPagePrinter
  | endDocPrinter
  | abortPrinter

/-- Their answers.  A write never reports more bytes than it was given. -/
abbrev SpoolCall.Answer : SpoolCall → Type
  | startDocPrinter => Except WinError ℕ
  | writePrinter data => Except WinError (Fin (data.length + 1))
  | _ => Except WinError Unit

def chunk : ℕ := 64 * 1024

def errorPrintCancelled : UInt32 := 63

/-- Writes until nothing is left; a write of no bytes would loop forever. -/
def writeAll (data : Bytes) : Prog SpoolCall.Answer WinError Unit :=
  if data = [] then pure () else do
    let written ← ofExcept id (← ask (.writePrinter (data.take chunk)))
    -- the port has stopped accepting data; writing on would never end
    if written.val = 0 then fail (.ofWin32 errorPrintCancelled)
    else writeAll (data.drop written.val)
termination_by data.length
decreasing_by
  have : 0 < data.length := List.length_pos_iff.mpr (by assumption)
  rw [List.length_drop]
  omega

/-- A failure after `StartDocPrinter`: some bytes may have reached the printer. -/
def partialError (e : WinError) (printer : String) : PrintError :=
  withPrinterName ((mapError messages "writing to the printer failed; the spool job was aborted"
    e).recoverably false) printer

def withMessageContext (e : PrintError) (context : String) : PrintError :=
  let message := e.message
  { e with message := s!"{context}: {message}" }

def check (context printer : String) (result : Except WinError Unit) :
    Prog SpoolCall.Answer PrintError Unit :=
  ofExcept (fun e => withMessageContext (partialError messages e printer) context) result

def startDocError (printer : String) (e : WinError) : PrintError :=
  let mapped :=
    if win32Code e = some 1804 then
      PrintError.new .unsupportedOperation
        "the printer driver does not accept RAW data (v4/XPS drivers usually do not)"
    else mapError messages "the spooler refused the job" e
  withPrinterName mapped printer

/-- One copy: a page of the spool job. -/
def rawPage (printer : String) (data : Bytes) : Prog SpoolCall.Answer PrintError Unit := do
  check messages "could not start page" printer (← ask .startPagePrinter)
  mapErr (partialError messages · printer) (writeAll data)
  check messages "could not end page" printer (← ask .endPagePrinter)

def abortSpoolJob : Prog SpoolCall.Answer PrintError Unit := do
  let _ ← ask .abortPrinter
  pure ()

/-- `raw::submit`. -/
def rawSubmit (printer : String) (copies : ℕ) (data : Bytes) :
    Prog SpoolCall.Answer PrintError ℕ := do
  ofExcept (fun e => withPrinterName (mapError messages "could not open printer" e) printer)
    (← ask .openPrinter)
  let jobId ← ofExcept (startDocError messages printer) (← ask .startDocPrinter)
  -- from here on a failure deletes the spool job
  onFailure abortSpoolJob do
    forEach (fun _ => rawPage messages printer data) (List.range copies)
    check messages "could not finish the spool job" printer (← ask .endDocPrinter)
  pure jobId

/-- A write or page call that succeeded. -/
def spoolOutput : Exchange SpoolCall.Answer → Bool
  | ⟨.startPagePrinter, .ok _⟩ | ⟨.writePrinter _, .ok _⟩ | ⟨.endPagePrinter, .ok _⟩ => true
  | _ => false

/-! ### Raster pages through GDI -/

structure RasterImage where
  width : ℕ
  height : ℕ
  deriving DecidableEq

structure Rect where
  x : ℤ
  y : ℤ
  width : ℤ
  height : ℤ
  deriving DecidableEq

/-- What `Geometry::measure` reads from the device context. -/
structure Geometry where
  dpi : ℕ × ℕ
  printable : Rect
  paper : Rect

/-- The failures of a page source: the PDF engine's, and a page that cannot be
decoded. -/
inductive SourceError
  | engine (context : String) (error : WinError)
  | decoding
  deriving DecidableEq

def SourceError.toPrintError : SourceError → PrintError
  | engine context error =>
    let text := messages error.code
    .new .printFailed s!"{context}: {text}"
  | decoding => .internal

variable {σ : Type}

/-- The calls `raster::print` makes: to its page source, to the driver and to
GDI.  `σ` is a page size in inches. -/
inductive GdiCall (σ : Type)
  | pageSize (index : ℕ)
  | render (index : ℕ) (target : ℤ × ℤ)
  | devmode
  | createDC
  | startDoc
  | measure
  | startPage
  | stretchDIBits (y height : ℤ) (rows : ℕ)
  | endPage
  | endDoc
  | abortDoc

abbrev GdiCall.Answer : GdiCall σ → Type
  | pageSize _ => Except SourceError σ
  | render .. => Except SourceError RasterImage
  | devmode => Except PrintError Unit
  | startDoc => Except WinError ℕ
  | measure => Geometry
  | _ => Except WinError Unit

/-- A job for `raster::print`; `place` puts a page of a size on the paper. -/
structure RasterJob (σ : Type) where
  printer : String
  copies : ℕ
  pageCount : ℕ
  place : Geometry → σ → Rect

def bandBytes : ℕ := 8 * 1024 * 1024

/-- The rows of a band: what fits its buffer, at least one and at most all. -/
def bandRows (image : RasterImage) : ℕ :=
  min (max (bandBytes / ((image.width * 3 + 3) / 4 * 4)) 1) image.height

/-- Integer band edges, so that bands tile the destination. -/
def bandEdge (image : RasterImage) (dest : Rect) (row : ℕ) : ℤ :=
  dest.y + Int.tdiv (row * dest.height) image.height

/-- The bands from `row` on. -/
def drawBands (image : RasterImage) (dest : Rect) (row : ℕ) :
    Prog (GdiCall.Answer (σ := σ)) PrintError Unit :=
  if row < image.height then do
    let rows := min (bandRows image) (image.height - row)
    let y₀ := bandEdge image dest row
    let y₁ := bandEdge image dest (row + rows)
    -- a strip of no height is not drawn
    if y₀ < y₁ then
      ofExcept (mapError messages "drawing the page failed")
        (← ask (.stretchDIBits y₀ (y₁ - y₀) rows))
    drawBands image dest (row + rows)
  else pure ()
termination_by image.height - row
decreasing_by
  have hrows : 0 < min (bandRows image) (image.height - row) := by
    unfold bandRows
    omega
  omega

def draw (image : RasterImage) (dest : Rect) : Prog (GdiCall.Answer (σ := σ)) PrintError Unit :=
  if image.width = 0 ∨ image.height = 0 then pure () else drawBands messages image dest 0

def lastError (printer context : String) (e : WinError) : PrintError :=
  withPrinterName (mapError messages context e) printer

/-- One page of one copy. -/
def rasterPage (job : RasterJob σ) (geometry : Geometry) (index : ℕ) :
    Prog (GdiCall.Answer (σ := σ)) PrintError Unit := do
  let size ← ofExcept (SourceError.toPrintError messages) (← ask (.pageSize index))
  let dest := job.place geometry size
  -- rendered at the size of its place, of one pixel at least in each direction
  let image ← ofExcept (SourceError.toPrintError messages)
    (← ask (.render index (max dest.width 1, max dest.height 1)))
  ofExcept (lastError messages job.printer "could not start a page") (← ask .startPage)
  mapErr (withPrinterName · job.printer) (draw messages image dest)
  ofExcept (lastError messages job.printer "could not finish a page") (← ask .endPage)

def abortDoc : Prog (GdiCall.Answer (σ := σ)) PrintError Unit := do
  let _ ← ask .abortDoc
  pure ()

/-- The document: every page of every copy. -/
def rasterPages (job : RasterJob σ) : Prog (GdiCall.Answer (σ := σ)) PrintError Unit := do
  let geometry ← ask .measure
  forEach (fun _ => forEach (rasterPage messages job geometry) (List.range job.pageCount))
    (List.range job.copies)
  ofExcept (lastError messages job.printer "could not finish the spool job") (← ask .endDoc)

/-- `raster::print` of a document that has pages. -/
def rasterDocument (job : RasterJob σ) : Prog (GdiCall.Answer (σ := σ)) PrintError ℕ := do
  let _ ← ofExcept (SourceError.toPrintError messages) (← ask (.pageSize 0))
  ofExcept id (← ask .devmode)
  ofExcept (lastError messages job.printer "could not create a device context for the printer")
    (← ask .createDC)
  let jobId ← ofExcept (lastError messages job.printer "the spooler refused the job")
    (← ask .startDoc)
  onFailure abortDoc (rasterPages messages job)
  pure jobId

/-- `raster::print`. -/
def rasterPrint (job : RasterJob σ) : Prog (GdiCall.Answer (σ := σ)) PrintError ℕ :=
  if job.pageCount = 0 then fail (.invalidPayload "the document has no pages to print")
  else rasterDocument messages job

/-- A page or drawing call that succeeded. -/
def gdiOutput : Exchange (GdiCall.Answer (σ := σ)) → Bool
  | ⟨.startPage, .ok _⟩ | ⟨.stretchDIBits .., .ok _⟩ | ⟨.endPage, .ok _⟩ => true
  | _ => false

/-! ### What a failure says -/

theorem outcome_mapError (context : String) (e : WinError) :
    (mapError messages context e).outcome = none := by
  unfold mapError details
  cases win32Code e <;> rfl

@[simp] theorem outcome_withPrinterName (e : PrintError) (name : String) :
    (withPrinterName e name).outcome = e.outcome := rfl

@[simp] theorem outcome_withMessageContext (e : PrintError) (context : String) :
    (withMessageContext e context).outcome = e.outcome := rfl

theorem outcome_partialError (e : WinError) (printer : String) :
    (partialError messages e printer).outcome = none :=
  outcome_mapError messages "writing to the printer failed; the spool job was aborted" e

theorem outcome_lastError (printer context : String) (e : WinError) :
    (lastError messages printer context e).outcome = none :=
  outcome_mapError messages context e

theorem outcome_toPrintError (e : SourceError) : (e.toPrintError messages).outcome = none := by
  cases e <;> rfl

section Silent

variable {Q : Type} {A : Q → Type} {α ε : Type}

/-- Whatever it fails with, the error has no outcome. -/
abbrev Silent (p : Prog A PrintError α) : Prop :=
  Ensures (fun _ => True) p (fun _ _ => True) (fun e _ => e.outcome = none)

theorem silent_ask (q : Q) : Silent (ask q : Prog A PrintError (A q)) :=
  ask_ensures fun _ _ _ => trivial

theorem silent_ofExcept {f : ε → PrintError} (hf : ∀ e, (f e).outcome = none)
    (r : Except ε α) : Silent (ofExcept f r : Prog A PrintError α) :=
  .ofExcept (fun _ _ _ _ => trivial) fun e _ _ _ => hf e

theorem silent_mapErr {f : ε → PrintError} (hf : ∀ e, (f e).outcome = none)
    (p : Prog A ε α) : Silent (mapErr f p) :=
  .mapErr fun _ _ => ⟨fun _ _ _ => trivial, fun e _ _ => hf e⟩

theorem silent_withPrinterName {p : Prog A PrintError α} (hp : Silent p) (name : String) :
    Silent (mapErr (withPrinterName · name) p) :=
  .mapErr hp

/-- A program that is quiet up to a point and silent from there. -/
theorem silent_after_output {kind : Exchange A → Bool} {p : Prog A PrintError α} (hp : Silent p) :
    Ensures (fun s => s.any kind = false) p (fun _ _ => True)
      (fun e s => s.any kind = true → e.outcome = none) :=
  hp.mono (fun _ _ => trivial) (fun _ _ h => h) fun e _ (h : e.outcome = none) _ => h

/-- A failure while nothing was output. -/
theorem quiet_ofExcept {kind : Exchange A → Bool} {f : ε → PrintError} (r : Except ε α) :
    Ensures (fun s => s.any kind = false) (ofExcept f r : Prog A PrintError α)
      (fun _ s => s.any kind = false) (fun e s => s.any kind = true → e.outcome = none) := by
  refine .ofExcept (fun _ _ _ ht => ht) ?_
  intro e s _ hs hout
  rw [hs] at hout
  cases hout

end Silent

theorem check_silent (context printer : String) (result : Except WinError Unit) :
    Silent (check messages context printer result) := by
  refine silent_ofExcept ?_ result
  intro e
  exact outcome_partialError messages e printer

theorem rawPage_silent (printer : String) (data : Bytes) :
    Silent (rawPage messages printer data) := by
  unfold rawPage
  refine (silent_ask _).bind fun _ => (check_silent messages _ _ _).bind fun _ => ?_
  refine (silent_mapErr (fun e => outcome_partialError messages e printer) _).bind fun _ => ?_
  exact (silent_ask _).bind fun _ => check_silent messages _ _ _

/-- **RAW: a submission that fails after output names no outcome.** -/
theorem rawSubmit_silent (printer : String) (copies : ℕ) (data : Bytes) :
    Ensures (fun s => s.any spoolOutput = false) (rawSubmit messages printer copies data)
      (fun _ _ => True) (fun e s => s.any spoolOutput = true → e.outcome = none) := by
  unfold rawSubmit
  refine (ask_quiet fun _ => rfl).bind fun _ => (quiet_ofExcept _).bind fun _ => ?_
  refine (ask_quiet fun _ => rfl).bind fun _ => (quiet_ofExcept _).bind fun _ => ?_
  refine Ensures.bind (R := fun _ _ => True) ?_ fun _ => .pure fun _ _ => trivial
  refine silent_after_output (.onFailure ?_ fun _ _ h => h)
  refine (Ensures.forEach (fun _ => rawPage_silent messages printer data) _).bind fun _ => ?_
  exact (silent_ask _).bind fun _ => check_silent messages _ _ _

theorem drawBands_silent (image : RasterImage) (dest : Rect) (row : ℕ) :
    Silent (drawBands (σ := σ) messages image dest row) := by
  fun_induction drawBands messages image dest row with
  | case1 row hrow rows y₀ y₁ rest hy ih =>
    refine (silent_ask _).bind fun _ => Ensures.bind (R := fun _ _ => True) ?_ fun _ => ih
    exact silent_ofExcept (outcome_mapError messages "drawing the page failed") _
  | case2 row hrow rows y₀ y₁ rest hy ih => exact ih
  | case3 row hrow => exact .pure fun _ _ => trivial

theorem rasterPage_silent (job : RasterJob σ) (geometry : Geometry) (index : ℕ) :
    Silent (rasterPage messages job geometry index) := by
  unfold rasterPage draw
  refine (silent_ask _).bind fun _ => (silent_ofExcept (outcome_toPrintError messages) _).bind
    fun _ => ?_
  refine (silent_ask _).bind fun _ => (silent_ofExcept (outcome_toPrintError messages) _).bind
    fun image => ?_
  refine (silent_ask _).bind fun _ => (silent_ofExcept (outcome_lastError messages _ _) _).bind
    fun _ => ?_
  refine (silent_withPrinterName ?_ _).bind fun _ => ?_
  · split
    · exact .pure fun _ _ => trivial
    · exact drawBands_silent messages image _ 0
  · exact (silent_ask _).bind fun _ => silent_ofExcept (outcome_lastError messages _ _) _

/-- **Raster: a submission that fails after output names no outcome.** -/
theorem rasterPrint_silent (job : RasterJob σ) :
    Ensures (fun s => s.any gdiOutput = false) (rasterPrint messages job)
      (fun _ _ => True) (fun e s => s.any gdiOutput = true → e.outcome = none) := by
  have hpages : Silent (rasterPages messages job) := by
    unfold rasterPages
    refine (silent_ask _).bind fun geometry => ?_
    refine (Ensures.forEach (fun _ => Ensures.forEach
      (rasterPage_silent messages job geometry) _) _).bind fun _ => ?_
    exact (silent_ask _).bind fun _ => silent_ofExcept (outcome_lastError messages _ _) _
  unfold rasterPrint
  split
  · refine .fail ?_
    intro s hs hout
    rw [hs] at hout
    cases hout
  · unfold rasterDocument
    refine (ask_quiet fun _ => rfl).bind fun _ => (quiet_ofExcept _).bind fun _ => ?_
    refine (ask_quiet fun _ => rfl).bind fun _ => (quiet_ofExcept _).bind fun _ => ?_
    refine (ask_quiet fun _ => rfl).bind fun _ => (quiet_ofExcept _).bind fun _ => ?_
    refine (ask_quiet fun _ => rfl).bind fun _ => (quiet_ofExcept _).bind fun _ => ?_
    refine Ensures.bind (R := fun _ _ => True) ?_ fun _ => .pure fun _ _ => trivial
    exact silent_after_output (.onFailure hpages fun _ _ h => h)

end Windows

end KilnPrint
