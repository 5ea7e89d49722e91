/-
The events a process broadcasts.

A mutation raises its event while it holds the lock, and the task broadcasts it in a
later step.

* `State.raised` — the events raised since the process started, in order;
* `Broadcasts`, `step_broadcasts` — what a step does to the events: it raises one,
  broadcasts one, or leaves them;
* `emitted_perm` — **what was raised is what was broadcast and what waits**.
-/
import KilnPrint.Engine.Sites
import Mathlib.Data.List.Induction
import Mathlib.Data.List.Perm.Basic

namespace KilnPrint

open Runs

variable {env : Env} {s s' : State} {a : Action} {t : TaskId}

/-! ### Events raised -/

/-- The entries since the process started. -/
def sinceCrash (log : List Entry) : List Entry :=
  log.foldl (fun es e => if e = .crashed then [] else es ++ [e]) []

theorem sinceCrash_crashed (log : List Entry) : sinceCrash (log ++ [.crashed]) = [] := by
  simp [sinceCrash]

theorem sinceCrash_append (log es : List Entry) (h : .crashed ∉ es) :
    sinceCrash (log ++ es) = sinceCrash log ++ es := by
  induction es generalizing log with
  | nil => simp
  | cons e rest ih =>
    obtain ⟨he, hrest⟩ := not_or.mp (mt List.mem_cons.mpr h)
    have hsingle : sinceCrash (log ++ [e]) = sinceCrash log ++ [e] := by
      simp [sinceCrash, Ne.symm he]
    rw [← List.singleton_append, ← List.append_assoc, ih _ hrest, hsingle, List.append_assoc]

theorem sublist_sinceCrash (log : List Entry) : (sinceCrash log).Sublist log := by
  induction log using List.reverseRecOn with
  | nil => exact .slnil
  | append_singleton rest e ih =>
    by_cases hcrash : e = .crashed
    · rw [hcrash, sinceCrash_crashed]
      exact List.nil_sublist _
    · rw [sinceCrash_append _ _ (by simp [Ne.symm hcrash])]
      exact ih.append_right _

/-- The event an entry raised. -/
def Entry.event : Entry → Option EngineEvent
  | applied _ _ _ event => event
  | created job => some ⟨.created, job⟩
  | _ => none

/-- The events raised since the process started, in order. -/
def State.raised (s : State) : List EngineEvent := (sinceCrash s.log).filterMap Entry.event

/-- The events that are yet to be broadcast. -/
def State.waiting (s : State) : List EngineEvent := s.outbox.map Prod.snd

theorem raised_append {es : List Entry} (hlog : s'.log = s.log ++ es) (h : .crashed ∉ es) :
    s'.raised = s.raised ++ es.filterMap Entry.event := by
  rw [State.raised, hlog, sinceCrash_append _ _ h, List.filterMap_append]
  rfl

/-! ### One step -/

/-- What a step does to the events. -/
inductive Broadcasts (s : State) (a : Action) (s' : State) : Prop
  | silent (hevents : s'.events = s.events) (houtbox : s'.outbox = s.outbox)
      (hraised : s'.raised = s.raised)
  | raised {t : TaskId} {inp : Input} {e : Entry} {ev : EngineEvent} (ha : a = .run t inp)
      (hp : s.pendingEvent t = none) (he : e.event = some ev) (hlog : s'.log = s.log ++ [e])
      (hevents : s'.events = s.events) (houtbox : s'.outbox = s.outbox ++ [(t, ev)])
      (hraised : s'.raised = s.raised ++ [ev])
  | sent {t : TaskId} {inp : Input} {ev : EngineEvent} (ha : a = .run t inp)
      (hp : s.pendingEvent t = some (t, ev)) (hevents : s'.events = s.events ++ [ev])
      (houtbox : s'.outbox = s.outbox.erase (t, ev)) (hraised : s'.raised = s.raised)
  | crashed (ha : a = .crash) (hevents : s'.events = []) (houtbox : s'.outbox = [])
      (hraised : s'.raised = [])

theorem pendingEvent_fst {e : TaskId × EngineEvent} (h : s.pendingEvent t = some e) : e.1 = t := by
  simpa using List.find?_some h

theorem mem_outbox_of_pendingEvent {e : TaskId × EngineEvent} (h : s.pendingEvent t = some e) :
    e ∈ s.outbox :=
  List.mem_of_find?_eq_some h

theorem Broadcasts.of_same (hevents : s'.events = s.events) (houtbox : s'.outbox = s.outbox)
    {es : List Entry} (hlog : s'.log = s.log ++ es) (h : ∀ e ∈ es, e ≠ .crashed ∧ e.event = none) :
    Broadcasts s a s' := by
  refine .silent hevents houtbox ?_
  rw [raised_append hlog fun hmem => (h _ hmem).1 rfl]
  have hnil : es.filterMap Entry.event = [] := List.filterMap_eq_nil_iff.mpr fun e he => (h e he).2
  rw [hnil, List.append_nil]

theorem broadcasts_mutate {t : TaskId} {inp : Input} {o : Origin} {id : JobId} {ch : Change} {k : Task}
    (hp : s.pendingEvent t = none) :
    Broadcasts s (.run t inp) ((s.mutate t o inp id ch).1.setTask t k) := by
  cases hj : s.active.lookup id with
  | none =>
    rw [mutate_none hj]
    exact .silent rfl rfl rfl
  | some j =>
    have hmutate : (s.mutate t o inp id ch).1.outbox = s.outbox ++
          ((((ch.mutated inp.now inp.stamp j).event.map fun kind =>
            { kind := kind, job := (ch.mutated inp.now inp.stamp j).job : EngineEvent }).map
              (t, ·)).toList) ∧
        (s.mutate t o inp id ch).1.log = s.log ++ [ch.entry o inp.reading id j] ∧
        (s.mutate t o inp id ch).1.events = s.events := by
      rw [State.mutate, hj]
      exact ⟨rfl, rfl, rfl⟩
    obtain ⟨houtbox, hlog, hevents⟩ := hmutate
    cases hevent : (ch.mutated inp.now inp.stamp j).event with
    | none =>
      rw [hevent] at houtbox
      refine .of_same hevents (houtbox.trans (List.append_nil _)) hlog ?_
      intro e he
      obtain rfl := List.mem_singleton.mp he
      refine ⟨fun h => (by cases h), ?_⟩
      show Option.map _ (ch.mutated inp.now inp.stamp j).event = none
      rw [hevent]
      rfl
    | some kind =>
      rw [hevent] at houtbox
      have he : (ch.entry o inp.reading id j).event =
          some ⟨kind, (ch.mutated inp.now inp.stamp j).job⟩ := by
        show Option.map _ (ch.mutated inp.now inp.stamp j).event = _
        rw [hevent]
        rfl
      refine .raised rfl hp he hlog hevents houtbox ?_
      have hraised : ((s.mutate t o inp id ch).1.setTask t k).raised = s.raised ++ _ :=
        raised_append hlog (by simp [Change.entry])
      rw [hraised, List.filterMap_cons, he]
      rfl

/-- **A step raises an event, broadcasts one, or leaves them.** -/
theorem step_broadcasts (h : step env s a = some s') : Broadcasts s a s' := by
  have hplain : ∀ e : Entry, e ≠ .crashed → e.event = none →
      ∀ e' ∈ [e], e' ≠ .crashed ∧ e'.event = none := by
    intro e hcrash he e' he'
    obtain rfl := List.mem_singleton.mp he'
    exact ⟨hcrash, he⟩
  cases a with
  | start | drop u | discover printers | purge cutoff | retire id =>
    obtain ⟨-, rfl⟩ := Runs.of_guarded h
    exact .silent rfl rfl rfl
  | submit u who request now =>
    have h' : beginSubmit s u who request now = some s' := h
    unfold beginSubmit at h'
    split at h' <;> obtain ⟨-, -, rfl⟩ := spawn_eq_some h' <;> exact .silent rfl rfl rfl
  | cancel u id | shutdown u =>
    obtain ⟨-, -, rfl⟩ := spawn_eq_some h
    exact .silent rfl rfl rfl
  | run u inp =>
    have hrun : runTask env s u inp = some s' := h
    unfold runTask at hrun
    -- an event that waits to be sent goes first; otherwise the operation runs
    cases hp : s.pendingEvent u with
    | some e =>
      rw [hp] at hrun
      obtain rfl := Option.some.inj hrun
      obtain ⟨u', ev⟩ := e
      obtain rfl : u' = u := pendingEvent_fst hp
      exact .sent rfl hp rfl rfl rfl
    | none =>
      rw [hp] at hrun
      obtain ⟨⟨s₁, k⟩, hex, rfl⟩ := Option.map_eq_some_iff.mp hrun
      show Broadcasts s (.run u inp) (s₁.setTask u k)
      generalize hop : code env inp (s.task u) = op at hex
      -- only a mutation and an announced activation raise an event
      cases exec_effect hex with
      | mutate id ch f => exact broadcasts_mutate hp
      | activate job announce k' =>
        cases announce with
        | false =>
          have hempty : ∀ e ∈ ([] : List Entry), e ≠ .crashed ∧ e.event = none :=
            fun e he => absurd he List.not_mem_nil
          exact .of_same rfl (List.append_nil _) rfl hempty
        | true =>
          have he : (Entry.created job).event = some ⟨.created, job⟩ := rfl
          refine .raised rfl hp he rfl rfl rfl ?_
          have hlog : ((s.activate u job true).setTask u k).log = s.log ++ [.created job] := rfl
          exact raised_append hlog (by simp)
      | send target item f w hw hopen =>
        exact .of_same rfl rfl rfl (hplain (.sent ..) (by simp) rfl)
      | delete id f hqueued hok => exact .of_same rfl rfl rfl (hplain (.deleted id) (by simp) rfl)
      | _ => exact .silent rfl rfl rfl
  | invoke u =>
    obtain ⟨call, hcall, h⟩ := Option.bind_eq_some_iff.mp h
    obtain ⟨printer, rx, pc, hpc, htask, hphase⟩ := call_eq_some hcall
    obtain ⟨-, rfl⟩ := Runs.of_guarded h
    rw [hphase]
    exact .of_same rfl rfl rfl (hplain (.invoked ..) (by simp) rfl)
  | finish u result =>
    obtain ⟨call, hcall, h⟩ := Option.bind_eq_some_iff.mp h
    obtain ⟨printer, rx, pc, hpc, htask, hphase⟩ := call_eq_some hcall
    obtain ⟨-, rfl⟩ := Runs.of_guarded h
    rw [hphase]
    exact .of_same rfl rfl rfl (hplain (.returned ..) (by simp) rfl)
  | crash =>
    obtain rfl := Option.some.inj h
    refine .crashed rfl rfl rfl ?_
    show (sinceCrash (s.log ++ [.crashed])).filterMap Entry.event = []
    rw [sinceCrash_crashed]
    rfl

/-! ### Runs -/

variable {ok : State → Action → Prop}

/-- **What was raised is what was broadcast and what waits.** -/
theorem emitted_perm (h : Reach (step env) ok init s) :
    (s.events ++ s.waiting).Perm s.raised := by
  refine h.invariant (I := fun s => (s.events ++ s.waiting).Perm s.raised) .nil ?_
  intro s a s' _ hperm _ hs
  unfold State.waiting at hperm ⊢
  cases step_broadcasts hs with
  | silent hevents houtbox hraised => rwa [hevents, houtbox, hraised]
  | @raised t inp e ev ha hp he hlog hevents houtbox hraised =>
    rw [hevents, houtbox, hraised, List.map_append, ← List.append_assoc]
    exact hperm.append_right [ev]
  | @sent t inp ev ha hp hevents houtbox hraised =>
    rw [hevents, houtbox, hraised, List.append_assoc]
    refine List.Perm.trans (List.Perm.append_left _ ?_) hperm
    have hmem := List.perm_cons_erase (mem_outbox_of_pendingEvent hp)
    exact (hmem.map Prod.snd).symm
  | crashed ha hevents houtbox hraised =>
    rw [hevents, houtbox, hraised]
    exact .nil

end KilnPrint
