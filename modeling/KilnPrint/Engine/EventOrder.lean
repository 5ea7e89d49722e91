/-
The order of a job's events.

A mutation raises its event while it holds the lock and broadcasts it after the lock is
released, so two mutators of one job can broadcast in the other order.

* `State.EventOrder` — the events of each job are broadcast in the order in which they
  were raised, and none after a terminal one;
* `Orderly` — a step that raises no event of a job while another of it waits;
* `Ledger.Over`, `finished_of_reach` — a terminal event is the last one raised of its job;
* `event_order` — **the events of orderly runs are in order**;
* `events_reordered` — **those of other runs need not be**.
-/
import KilnPrint.Engine.Events
import KilnPrint.Engine.Spooling

namespace KilnPrint

open Runs

variable {env : Env} {s s' : State} {a : Action} {t : TaskId} {id : JobId}

/-- Whether an event is about the job. -/
def EngineEvent.about (id : JobId) (ev : EngineEvent) : Bool := ev.job.jobId == id

/-- The events of each job are broadcast in the order of its mutations, and none after
one with a terminal status. -/
structure State.EventOrder (s : State) : Prop where
  applied : ∀ id, s.events.filter (EngineEvent.about id) <+: s.raised.filter (EngineEvent.about id)
  final : s.events.Pairwise fun ev ev' =>
    ev.job.status.isTerminal = true → ev'.job.jobId ≠ ev.job.jobId

/-- The job that an operation raises an event about. -/
def Op.raises (inp : Input) (s : State) : Op → Option JobId
  | .mutate id ch _ =>
    if (s.active.lookup id).any fun j => (ch.mutated inp.now inp.stamp j).event.isSome then some id
    else none
  | .activate job announce _ => if announce then some job.jobId else none
  | _ => none

/-- A step raises an event about a job only when no other event about it waits to be
broadcast. -/
def Orderly (env : Env) (s : State) : Action → Prop
  | .run t inp =>
    (s.pendingEvent t).isSome = true ∨ ∀ e ∈ s.outbox,
      (code env inp (s.task t)).raises inp s ≠ some e.2.job.jobId
  | _ => True

instance (env : Env) (s : State) (a : Action) : Decidable (Orderly env s a) := by
  unfold Orderly
  cases a <;> infer_instance

/-! ### Terminal events -/

namespace Ledger

variable {l l' : Ledger} {mv : Move} {e : Entry} {ev : EngineEvent}

/-- The job was announced, and nobody makes it active again in this process. -/
structure Over (l : Ledger) (id : JobId) : Prop where
  loaded : l.loaded = true
  announced : l.Announced id
  inactive : l.active id = none
  reconciled : ∀ job, l.custody id ≠ some (.unloaded job)

theorem Over.step (h : l.Over id) (hs : l.Step mv l') (hcrash : mv ≠ .crash) : l'.Over id := by
  refine ⟨?_, h.announced.step hs, ?_, ?_⟩
  · by_contra hl
    have hbefore := loaded_step hs hcrash (by simpa using hl)
    rw [h.loaded] at hbefore
    cases hbefore
  · by_contra hactive
    exact active_before h.announced hs h.reconciled hactive h.inactive
  · intro job hc
    rcases unloaded_before hs hc with hold | ⟨hl, -⟩
    · exact h.reconciled job hold
    · rw [h.loaded] at hl
      cases hl

/-- **What a move says of the event it raises**: its job is active, and inactive
afterwards if the event is terminal; or it is announced. -/
theorem Step.raises (hs : l.Step mv l') (hinv : l.Inv) (hlog : l'.log = l.log ++ [e])
    (he : e.event = some ev) :
    (∃ j, l.active ev.job.jobId = some j ∧ (ev.job.status.isTerminal = true →
      l'.active ev.job.jobId = none ∧ ∀ job, l'.custody ev.job.jobId ≠ some (.unloaded job))) ∨
    l.custody ev.job.jobId = some (.stored ev.job) := by
  have hlast : ∀ {e' : Entry}, l'.log = l.log ++ [e'] → e' = e := by
    intro e' hlog'
    have heq := List.append_cancel_left (hlog'.symm.trans hlog)
    exact (List.cons.inj heq).1
  have hsame : l'.log ≠ l.log := by
    intro heq
    have hlen := congrArg List.length (heq.symm.trans hlog)
    simp at hlen
  -- a change raises the event of the record it leaves
  have hchange : ∀ {o : Origin} {r : Reading} {id : JobId} {ch : Change} {j : Job}
      {σ : Option Stage}, l' = (l.change o r id ch j).hand id σ → l.active id = some j →
      (∀ job, σ ≠ some (.unloaded job)) →
      ∃ j, l.active ev.job.jobId = some j ∧ (ev.job.status.isTerminal = true →
        l'.active ev.job.jobId = none ∧
          ∀ job, l'.custody ev.job.jobId ≠ some (.unloaded job)) := by
    intro o r id ch j σ hl' hj hσ
    obtain rfl : ch.entry o r id j = e := hlast (by rw [hl']; rfl)
    obtain ⟨kind, -, rfl⟩ := Option.map_eq_some_iff.mp he
    have hid : (ch.mutated r.now r.stamp j).job.jobId = id :=
      Change.jobId_mutated.trans (hinv.activeId id j hj).1
    refine ⟨j, ?_, ?_⟩
    · show l.active (ch.mutated r.now r.stamp j).job.jobId = some j
      rw [hid, hj]
    · intro hterm
      show l'.active (ch.mutated r.now r.stamp j).job.jobId = none ∧
        ∀ job, l'.custody (ch.mutated r.now r.stamp j).job.jobId ≠ some (.unloaded job)
      rw [hid, hl', active_hand, active_change_self, custody_hand, Function.update_self]
      exact ⟨if_pos hterm, hσ⟩
  cases hs with
  | own r hc hh hj =>
    refine .inl (hchange rfl hj ?_)
    rintro job rfl
    have hcarry := hh.carries
    cases hcarry
  | @foreign o id ch j r hf hj =>
    refine .inl (hchange ((l.change o r id ch j).hand_custody id).symm hj ?_)
    intro job hc
    exact (hinv.fits id _ hc).allows j hj
  | @announce job hc =>
    right
    obtain rfl : Entry.created job = e := hlast rfl
    obtain rfl := Option.some.inj he
    exact hc
  | @note e' hnote =>
    obtain rfl : e' = e := hlast rfl
    cases e' <;> first | exact absurd hnote not_false | cases he
  | invokeCalling printer hc | invokeExpired printer hc | crash =>
    obtain rfl := hlast rfl
    cases he
  | _ => exact absurd rfl hsame

end Ledger

/-- The terminal events raised are of jobs that are over, and are their last. -/
structure Finished (s : State) : Prop where
  overAt : ∀ ev ∈ s.raised, ev.job.status.isTerminal = true → (ledger s).Over ev.job.jobId
  final : s.raised.Pairwise fun ev ev' =>
    ev.job.status.isTerminal = true → ev'.job.jobId ≠ ev.job.jobId

theorem Finished.of_raised (h : s.raised = []) : Finished s := by
  constructor <;> simp [h]

/-- Reconciliation has read the repository before any job is active. -/
theorem loaded_of_active (hw : Wf s) {j : Job} (hj : s.active.lookup id = some j) :
    (ledger s).loaded = true := by
  by_contra hl
  have hl' : (ledger s).loaded = false := by simpa using hl
  have hnone := (hw.booted.alone hl').2 id
  rw [hj] at hnone
  cases hnone

/-- **A terminal event is the last one raised of its job.** -/
theorem Finished.step (h : Finished s) (hw : Wf s) (hs : step env s a = some s') :
    Finished s' := by
  by_cases hcrash : a = .crash
  · subst hcrash
    obtain rfl := Option.some.inj hs
    refine .of_raised ?_
    show (sinceCrash (s.log ++ [.crashed])).filterMap Entry.event = []
    rw [sinceCrash_crashed]
    rfl
  obtain ⟨mv, hof, -, hmove⟩ := step_refines hw hs
  have hmv : mv ≠ .crash := by
    rintro rfl
    exact hcrash hof
  have hkeep : s'.raised = s.raised → Finished s' := by
    intro hraised
    refine ⟨?_, ?_⟩
    · intro ev hev hterm
      rw [hraised] at hev
      exact (h.overAt ev hev hterm).step hmove hmv
    · rw [hraised]
      exact h.final
  cases step_broadcasts hs with
  | silent hevents houtbox hraised => exact hkeep hraised
  | sent ha hp hevents houtbox hraised => exact hkeep hraised
  | crashed ha hevents houtbox hraised => exact absurd ha hcrash
  | @raised t inp e ev ha _ he hlog hevents houtbox hraised =>
    have hraises := hmove.raises hw.inv hlog he
    have hnew : ¬ (ledger s).Over ev.job.jobId := by
      intro hover
      rcases hraises with ⟨j, hj, -⟩ | hc
      · rw [hover.inactive] at hj
        cases hj
      · have hdraft := hover.announced.stage _ hc
        cases hdraft
    refine ⟨?_, ?_⟩
    · intro ev' hev' hterm
      rw [hraised] at hev'
      rcases List.mem_append.mp hev' with hold | hlast
      · exact (h.overAt ev' hold hterm).step hmove hmv
      · obtain rfl := List.mem_singleton.mp hlast
        rcases hraises with ⟨j, hj, hclosed⟩ | hc
        · obtain ⟨hinactive, hreconciled⟩ := hclosed hterm
          have hloaded : (ledger s').loaded = true := by
            by_contra hl
            have hbefore := Ledger.loaded_step hmove hmv (by simpa using hl)
            rw [loaded_of_active hw hj] at hbefore
            cases hbefore
          exact ⟨hloaded, (Ledger.announced_of_active hw.inv hj).step hmove, hinactive, hreconciled⟩
        · -- a new record is open
          obtain ⟨-, -, hreceived, -⟩ := (hw.inv.fits _ _ hc).stored _ rfl
          rw [hreceived] at hterm
          cases hterm
    · rw [hraised, List.pairwise_append]
      refine ⟨h.final, List.pairwise_singleton _ _, ?_⟩
      intro ev₁ h₁ ev₂ h₂ hterm heq
      obtain rfl := List.mem_singleton.mp h₂
      exact hnew (heq ▸ h.overAt ev₁ h₁ hterm)

theorem finished_of_reach {ok : State → Action → Prop} (h : Reach (step env) ok init s) :
    Finished s :=
  h.invariant (.of_raised rfl) fun _ _ _ hr hf _ hs => hf.step (wf_of_reach hr) hs

/-! ### Orderly runs -/

/-- At most one event of each job waits, and it is the last one raised. -/
structure Queued (s : State) : Prop where
  single : (s.outbox.map fun e => e.2.job.jobId).Nodup
  ordered : ∀ id, s.events.filter (EngineEvent.about id) ++ s.waiting.filter (EngineEvent.about id) =
    s.raised.filter (EngineEvent.about id)

theorem Queued.started : Queued init where
  single := List.nodup_nil
  ordered _ := rfl

/-- Moving the one element with its key to the front does not change the elements with
a key. -/
theorem filter_cons_erase {α κ : Type} [BEq α] [LawfulBEq α] [DecidableEq κ] (key : α → κ) (k : κ)
    {l : List α} {x : α} (hx : x ∈ l) (hnodup : (l.map key).Nodup) :
    (x :: l.erase x).filter (fun y => key y == k) = l.filter fun y => key y == k := by
  induction l with
  | nil => cases hx
  | cons y rest ih =>
    obtain ⟨hnotin, hrest⟩ := List.nodup_cons.mp hnodup
    by_cases he : y = x
    · subst he
      rw [List.erase_cons_head]
    · have hx' : x ∈ rest := (List.mem_cons.mp hx).resolve_left (Ne.symm he)
      rw [List.erase_cons_tail (by simpa using he)]
      have ih' := ih hx' hrest
      by_cases hkey : key y = k
      · -- the other elements have other keys
        have hne : key x ≠ k := by
          rintro rfl
          exact hnotin (hkey ▸ List.mem_map_of_mem hx')
        rw [List.filter_cons_of_neg (by simpa using hne)] at ih' ⊢
        rw [List.filter_cons, List.filter_cons, ih']
      · have hy : ∀ ys : List α, (y :: ys).filter (fun y => key y == k) =
            ys.filter fun y => key y == k := by
          intro ys
          exact List.filter_cons_of_neg (by simpa using hkey)
        rw [List.filter_cons, hy, hy, ← ih', List.filter_cons]

/-- The operation that raises an event about a job. -/
theorem raises_of_event {e : Entry} {ev : EngineEvent} {inp : Input} (hw : Wf s)
    (hs : step env s (.run t inp) = some s')
    (hlog : s'.log = s.log ++ [e]) (he : e.event = some ev) :
    (code env inp (s.task t)).raises inp s = some ev.job.jobId := by
  obtain ⟨es, hlog', hlogs⟩ := step_logs hs
  obtain rfl : es = [e] := List.append_cancel_left (hlog'.symm.trans hlog)
  cases hlogs with
  | @applied t' inp' id ch f j ha hp' hop hj =>
    obtain ⟨rfl, rfl⟩ := Action.run.inj ha
    obtain ⟨kind, hkind, rfl⟩ := Option.map_eq_some_iff.mp he
    have hid : (ch.mutated inp.now inp.stamp j).job.jobId = id :=
      Change.jobId_mutated.trans (hw.inv.activeId id j hj).1
    have hkind' : (ch.mutated inp.now inp.stamp j).event = some kind := hkind
    rw [hop]
    show (if _ then some id else none) = some (ch.mutated inp.now inp.stamp j).job.jobId
    rw [hid, if_pos]
    rw [hj, Option.any_some, hkind']
    rfl
  | @created t' inp' who request job ha hp' htask =>
    obtain ⟨rfl, rfl⟩ := Action.run.inj ha
    obtain rfl := Option.some.inj he
    rw [htask]
    rfl
  | _ => cases he

/-- **An orderly step keeps the waiting events in order.** -/
theorem Queued.step (h : Queued s) (hw : Wf s) (hok : Orderly env s a)
    (hs : step env s a = some s') : Queued s' := by
  cases step_broadcasts hs with
  | silent hevents houtbox hraised =>
    obtain ⟨hsingle, hordered⟩ := h
    unfold State.waiting at hordered
    constructor
    · rwa [houtbox]
    · unfold State.waiting
      rwa [hevents, houtbox, hraised]
  | @raised t inp e ev ha hp he hlog hevents houtbox hraised =>
    subst ha
    have hraises := raises_of_event hw hs hlog he
    -- no event about this job waits elsewhere to be sent, so this one is the last
    have hfree : ∀ e ∈ s.outbox, e.2.job.jobId ≠ ev.job.jobId := by
      intro e' he' heq
      rcases hok with hpending | hnone
      · rw [hp] at hpending
        cases hpending
      · exact hnone e' he' (by rw [hraises, heq])
    constructor
    · rw [houtbox, List.map_append, List.nodup_append]
      refine ⟨h.single, List.nodup_singleton _, ?_⟩
      intro id₁ h₁ id₂ h₂ heq
      obtain ⟨e', he', rfl⟩ := List.mem_map.mp h₁
      obtain rfl := List.mem_singleton.mp h₂
      exact hfree e' he' heq
    · intro id
      unfold State.waiting
      rw [hevents, houtbox, hraised, List.map_append, List.filter_append, List.filter_append,
        ← List.append_assoc]
      exact congrArg (· ++ _) (h.ordered id)
  | @sent t inp ev ha hp hevents houtbox hraised =>
    have hmem := mem_outbox_of_pendingEvent hp
    constructor
    · rw [houtbox]
      exact h.single.sublist (List.erase_sublist.map _)
    · intro id
      have hfilter := filter_cons_erase (fun e : TaskId × EngineEvent => e.2.job.jobId) id hmem
        h.single
      -- the event that is sent is the only one about its job that waits
      have hwaiting : s.waiting.filter (EngineEvent.about id) =
          [ev].filter (EngineEvent.about id) ++ s'.waiting.filter (EngineEvent.about id) := by
        unfold State.waiting
        rw [houtbox, ← List.filter_append, List.filter_map, ← List.map_singleton (f := Prod.snd)
          (a := ((t, ev) : TaskId × EngineEvent)), ← List.map_append, List.filter_map]
        exact congrArg (List.map Prod.snd) hfilter.symm
      rw [hevents, hraised, List.filter_append, List.append_assoc, ← hwaiting]
      exact h.ordered id
  | crashed ha hevents houtbox hraised =>
    constructor
    · simp [houtbox]
    · intro id
      simp [State.waiting, hevents, houtbox, hraised]

/-- **The events of orderly runs are in order**: those of each job are broadcast as its
mutations were applied, and none after a terminal one. -/
theorem event_order (h : Reach (step env) (Orderly env) init s) : s.EventOrder := by
  have hqueued : Queued s := by
    refine h.invariant (I := Queued) .started ?_
    intro s a s' hr hq hok hs
    exact hq.step (wf_of_reach hr) hok hs
  have happlied : ∀ id, s.events.filter (EngineEvent.about id) <+:
      s.raised.filter (EngineEvent.about id) := by
    intro id
    exact ⟨_, hqueued.ordered id⟩
  refine ⟨happlied, ?_⟩
  rw [List.pairwise_iff_forall_sublist]
  intro ev ev' hsub hterm heq
  have habout : [ev, ev'].filter (EngineEvent.about ev.job.jobId) = [ev, ev'] := by
    simp [EngineEvent.about, heq]
  have hraised : [ev, ev'].Sublist s.raised := by
    have hfiltered := hsub.filter (EngineEvent.about ev.job.jobId)
    rw [habout] at hfiltered
    exact hfiltered.trans ((happlied _).sublist.trans List.filter_sublist)
  exact List.pairwise_iff_forall_sublist.mp (finished_of_reach h).final hraised hterm heq

/-- A job is delivered, each event broadcast before the next is raised. -/
def deliveredRun : List Action :=
  booting ++ submitting 1 2 ++ printing 2 (.outcome .delivered) ++ [.run 2 {}]

theorem event_order_delivered : (after deliveredRun).EventOrder :=
  event_order (reach_after (Orderly desk) deliveredRun (by decide +kernel))

/-- A cancellation overtakes the submit call, which has marked the job `QUEUED` and not
yet said so. -/
def overtaking : List Action :=
  booting ++ [.submit 1 clerk (receipt none) 0] ++ List.replicate 15 (.run 1 {}) ++
    [.cancel 3 0] ++ List.replicate 3 (.run 3 {}) ++ [.run 1 {}]

/-- **A cancelled job is reported as queued after it was reported as cancelled.** -/
theorem events_reordered :
    Reach (step desk) (fun _ _ => True) init (after overtaking) ∧
      (after overtaking).raised.map (·.kind) = [.created, .queued, .cancelled] ∧
      (after overtaking).events.map (·.kind) = [.created, .cancelled, .queued] ∧
      ¬ (after overtaking).EventOrder := by
  refine ⟨reach_after _ overtaking (by decide +kernel), by decide +kernel, by decide +kernel, ?_⟩
  intro horder
  exact absurd (horder.applied 0) (by decide +kernel)

end KilnPrint
