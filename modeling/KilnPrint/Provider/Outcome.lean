/-
What a client learns when a submission fails after output began.

* `Submission`, `Submission.run` — a submission on each of the paths that write
  to a spooler or a device, with its result and whether a write or page call
  succeeded;
* `Recorded` — the engine's record of the failure;
* `failure_after_output` — **exactly the direct TCP path says `UNKNOWN`**.

The Windows paths set `recoverable` on some of their errors and `outcome` on
none.
-/
import KilnPrint.Provider.Windows
import KilnPrint.Provider.Tcp
import KilnPrint.Engine.Simulation

namespace KilnPrint

open Runs

/-! ### The engine's record -/

variable {env : Env} {s s' : State} {t : TaskId} {inp : Input} {e : PrintError}

theorem saysUnknown_annotate {j : Job} (h : e.SaysUnknown) : (j.annotate e).SaysUnknown :=
  ⟨(Job.recoverable_annotate j e).trans h.1, (Job.outcome_annotate j e).trans h.2⟩

/-- A stored record that failed with an outcome `UNKNOWN`. -/
def FailedUnknown (j : Job) : Prop :=
  j.status = .failed ∧ ∃ error, j.error = some error ∧ error.SaysUnknown

theorem failedUnknown_of_fail {id : JobId} {j : Job} {o : Origin} (hw : Wf s)
    (hj : s.active.lookup id = some j) (hr : inp.repoOk = true) (h : e.SaysUnknown) :
    ∃ stored, (s.mutate t o inp id (.fail e)).1.repo.lookup id = some stored ∧
      FailedUnknown stored := by
  have hopen := (hw.inv.active id j hj).2
  have hstatus : ((Change.fail e).apply inp.now j).1.status = .failed :=
    Change.fail_status hopen e
  have hclosed : ((Change.fail e).apply inp.now j).1.status.isTerminal = true := by
    rw [hstatus]
    rfl
  exact ⟨_, stored_mutate_of_closes hw hj hr hclosed, hstatus, _, Change.fail_error hopen e,
    saysUnknown_annotate h⟩

/-- However the worker records a call that ended with `e` (before or after its
watchdog expired), the job that is still active is stored as failed with outcome
`UNKNOWN`. -/
def Recorded (e : PrintError) : Prop :=
  ∀ (env : Env) (s s' : State) (t : TaskId) (inp : Input) (w : Worker) (call : Call) (j : Job),
    Reach (step env) (fun _ _ => True) init s → s.task t = .worker w → w.pc = .calling call →
    call.phase = .finished (.error e) → s.pendingEvent t = none →
    s.active.lookup call.jobId = some j → inp.repoOk = true →
    step env s (.run t inp) = some s' →
    ∃ stored, s'.repo.get call.jobId = some stored ∧ FailedUnknown stored

theorem timeoutError_saysUnknown (seconds : ℕ) : (timeoutError seconds).SaysUnknown := ⟨rfl, rfl⟩

/-- **An error that says `UNKNOWN` is recorded as one that does.** -/
theorem recorded (h : e.SaysUnknown) : Recorded e := by
  rintro env s s' t inp ⟨printer, rx, pc⟩ call j hreach ht hpc hphase hev hj hr hs
  have hpc : pc = .calling call := hpc
  subst hpc
  have hw := wf_of_reach hreach
  have hrun : runTask env s t inp = some s' := hs
  simp only [runTask, hev, ht] at hrun
  obtain ⟨⟨s₁, k⟩, hexec, rfl⟩ := Option.map_eq_some_iff.mp hrun
  -- either the watchdog has expired or the provider's error is recorded
  have hmutate : ∃ error : PrintError, error.SaysUnknown ∧
      s₁ = (s.mutate t .worker inp call.jobId (.fail error)).1 := by
    unfold code workerCode at hexec
    simp only [hphase] at hexec
    split at hexec
    · exact ⟨_, timeoutError_saysUnknown _, (congrArg Prod.fst (Option.some.inj hexec)).symm⟩
    · exact ⟨_, h, (congrArg Prod.fst (Option.some.inj hexec)).symm⟩
  obtain ⟨error, herror, rfl⟩ := hmutate
  exact failedUnknown_of_fail hw hj hr herror

/-! ### Submissions -/

/-- A submission on a path that writes to a spooler or a device. -/
inductive Submission (σ : Type)
  | windowsRaw (messages : Windows.Messages) (printer : String) (copies : ℕ) (data : Bytes)
  | windowsRaster (messages : Windows.Messages) (job : Windows.RasterJob σ)
  | tcp (printers : List Tcp.TcpPrinterConfig) (printer : Printer) (spec : SubmitSpec)

namespace Submission

variable {σ : Type}

/-- What the submission talks to. -/
abbrev Device : Submission σ → Type
  | windowsRaw .. => Interaction.Device Windows.SpoolCall.Answer
  | windowsRaster .. => Interaction.Device (Windows.GdiCall.Answer (σ := σ))
  | tcp .. => Interaction.Device Tcp.StreamCall.Answer

/-- The provider's result, and whether a write or page call succeeded. -/
def run : (s : Submission σ) → s.Device → Except PrintError SubmitOutcome × Bool
  | windowsRaw messages printer copies data, device =>
    let (result, session) := Windows.rawSubmit messages printer copies data device.session
    (result.map .spooled, session.any Windows.spoolOutput)
  | windowsRaster messages job, device =>
    let (result, session) := Windows.rasterPrint messages job device.session
    (result.map .spooled, session.any Windows.gdiOutput)
  | tcp printers printer spec, device =>
    let (result, session) := Tcp.tcpSubmit printers printer spec device.session
    (result, session.any Tcp.streamOutput)

/-- The submission goes to a direct TCP printer. -/
def direct : Submission σ → Bool
  | tcp .. => true
  | _ => false

end Submission

/-- A failure that keeps an error keeps it. -/
theorem map_eq_error {α β ε : Type} {f : α → β} {r : Except ε α} {e : ε}
    (h : r.map f = .error e) : r = .error e := by
  cases r with
  | ok a => cases h
  | error e' => exact congrArg Except.error (Except.error.inj h)

/-- **After output began, a failure says `UNKNOWN` and is recorded so exactly on
the direct TCP path.** -/
theorem failure_after_output {σ : Type} (s : Submission σ) (device : s.Device) (e : PrintError)
    (h : s.run device = (.error e, true)) :
    (e.SaysUnknown ∧ Recorded e) ↔ s.direct = true := by
  have hsilent : e.outcome = none → ¬ (e.SaysUnknown ∧ Recorded e) := by
    rintro hnone ⟨hunknown, -⟩
    rw [PrintError.SaysUnknown, hnone] at hunknown
    cases hunknown.2
  cases s with
  | windowsRaw messages printer copies data =>
    refine ⟨fun hs => absurd hs (hsilent ?_), fun hd => by cases hd⟩
    exact ((Windows.rawSubmit_silent messages printer copies data) device.session rfl).2 e _
      (Prod.ext (map_eq_error (congrArg Prod.fst h)) rfl) (congrArg Prod.snd h)
  | windowsRaster messages job =>
    refine ⟨fun hs => absurd hs (hsilent ?_), fun hd => by cases hd⟩
    exact ((Windows.rasterPrint_silent messages job) device.session rfl).2 e _
      (Prod.ext (map_eq_error (congrArg Prod.fst h)) rfl) (congrArg Prod.snd h)
  | tcp printers printer spec =>
    have hresult : (Tcp.tcpSubmit printers printer spec device.session).1 = .error e :=
      congrArg Prod.fst h
    have hunknown : e.SaysUnknown :=
      ((Tcp.tcpSubmit_saysUnknown printers printer spec) device.session rfl).2 e _
        (Prod.ext hresult rfl) (congrArg Prod.snd h)
    exact ⟨fun _ => rfl, fun _ => ⟨hunknown, recorded hunknown⟩⟩

/-! ### On each side -/

def Submission.fails {σ : Type} (s : Submission σ) (device : s.Device) : Bool :=
  match s.run device with
  | (.error _, true) => true
  | _ => false

theorem Submission.run_of_fails {σ : Type} {s : Submission σ} {device : s.Device}
    (h : s.fails device = true) : ∃ e, s.run device = (.error e, true) := by
  unfold fails at h
  split at h
  · next e he => exact ⟨e, he⟩
  · cases h

/-- A printer connection that breaks during the second copy. -/
def brokenPipe : Interaction.Device Tcp.StreamCall.Answer := fun trace q =>
  match q with
  | .toSocketAddrs .. => .ok [0]
  | .write _ => if trace.length < 5 then .ok (Fin.last _) else .error ⟨.other, "broken pipe"⟩
  | .drain => ()
  | .connectTimeout .. | .setNodelay | .setWriteTimeout _ | .flush | .shutdown => .ok ()

def labelPrinter : Printer := { deskPrinter with id := "tcp-1", name := "Labels", provider := "tcp" }

def labelSubmission : Submission Unit :=
  .tcp [{ name := "Labels", host := "10.0.0.7", port := 9100 }] labelPrinter
    { jobId := 0, documentName := "label", copies := 2, payload := .raw [0x5E, 0x58] none }

theorem failure_after_output_direct :
    ∃ e, labelSubmission.run brokenPipe = (.error e, true) ∧ e.SaysUnknown ∧ Recorded e := by
  obtain ⟨e, he⟩ := Submission.run_of_fails
    (show labelSubmission.fails brokenPipe = true by decide +kernel)
  exact ⟨e, he, (failure_after_output labelSubmission brokenPipe e he).mpr rfl⟩

/-- A spooler that accepts a page and its bytes, and then fails. -/
def lostSpooler : Interaction.Device Windows.SpoolCall.Answer := fun _ q =>
  match q with
  | .startDocPrinter => .ok 7
  | .writePrinter _ => .ok (Fin.last _)
  | .endPagePrinter => .error (.ofWin32 1726)
  | .openPrinter | .startPagePrinter | .endDocPrinter | .abortPrinter => .ok ()

/-- The RAW path reports the failure without an outcome. -/
theorem failure_after_output_untagged :
    ∃ e, (Submission.windowsRaw (σ := Unit) (fun _ => "The remote procedure call failed.") "Labels"
      1 [0x5E, 0x58]).run lostSpooler = (.error e, true) ∧ ¬ e.SaysUnknown := by
  let submission : Submission Unit :=
    .windowsRaw (fun _ => "The remote procedure call failed.") "Labels" 1 [0x5E, 0x58]
  obtain ⟨e, he⟩ := Submission.run_of_fails
    (show submission.fails lostSpooler = true by decide +kernel)
  refine ⟨e, he, ?_⟩
  rintro ⟨-, hunknown⟩
  have hnone : e.outcome = none :=
    ((Windows.rawSubmit_silent _ _ _ _) (Interaction.Device.session lostSpooler) rfl).2 e _
      (Prod.ext (map_eq_error (congrArg Prod.fst he)) rfl) (congrArg Prod.snd he)
  rw [hnone] at hunknown
  cases hunknown

end KilnPrint
