/-
The sessions of the agent.

* `Stage`, `Passes` — **the life of a session**, and what each change of it does to the agent;
* `Turn.passes` — every step of a connection is such a change, or none;
* `Accounted`, `accounted_step` — what the registry and the calls of the audit log have of a session;
* `Conn.failure`, `Turn.failed` — a connection whose hello is refused is reported once;
* `sessions_accounted` — **the registry lists the sessions that are live, the audit log is told of
  each when it came and went, and of each hello that was refused, and the slots are those of the
  connections that have not ended**.

The audit log is told of all this, and no more than that: a record whose insertion fails is lost,
and a purge deletes old ones.
-/
import KilnPrint.Agent.Connections

namespace KilnPrint

namespace Connection

open Runs (Reach)

/-! ### The life of a session -/

/-- What a connection is to the rest of the agent. -/
inductive Stage
  | idle
  /-- Past the handshake. -/
  | opening (who : Caller) (info : SessionInfo)
  /-- In the registry, but not reported to the audit log. -/
  | listed (who : Caller) (info : SessionInfo)
  | live (who : Caller) (info : SessionInfo)
  /-- Out of the registry, which is not yet reported. -/
  | delisted (who : Caller) (info : SessionInfo)
  | ended

namespace Stage

def identity : Stage → Option (Caller × SessionInfo)
  | opening who info | listed who info | live who info | delisted who info => some (who, info)
  | idle | ended => none

def session (g : Stage) : Option SessionId := g.identity.map (·.2.sessionId)

/-- Whether the registry has it. -/
def isListed : Stage → Bool
  | listed .. | live .. => true
  | _ => false

/-- Whether the audit log was told that it came, and not that it went. -/
def isAudited : Stage → Bool
  | live .. | delisted .. => true
  | _ => false

def isEnded : Stage → Bool
  | ended => true
  | _ => false

end Stage

def Pc.stage : Pc → Stage
  | admitting _ s | inserting s => .opening s.who s.info
  | connected s => .listed s.who s.info
  | serving s | answering _ s | parting _ s | removing s => .live s.who s.info
  | disconnected s => .delisted s.who s.info
  | ended => .ended
  | _ => .idle

/-- The record of a session that has come. -/
def cameRecord (who : Caller) (info : SessionInfo) : AuditRecord :=
  .connected who.clientId who.origin info.sessionId

/-- The record of a session that has gone. -/
def wentRecord (who : Caller) (info : SessionInfo) : AuditRecord :=
  .disconnected who.clientId who.origin info.sessionId

/-- How a session goes from a stage to the next. -/
inductive Passes (fresh : SessionId) : Stage → Stage → List Effect → Prop
  | stays (g : Stage) : Passes fresh g g []
  | fails (origin : Option (List Char)) (code : ErrorCode) :
      Passes fresh .idle .idle [.audit (.authFailure origin code)]
  | touches (who : Caller) (info : SessionInfo) (now : Time) :
      Passes fresh (.live who info) (.live who info) [.touch info.sessionId now]
  | opens (who : Caller) (info : SessionInfo) (hfresh : info.sessionId = fresh)
      (hclient : info.clientId = who.clientId) (horigin : info.origin = who.origin) :
      Passes fresh .idle (.opening who info) []
  | lost (who : Caller) (info : SessionInfo) : Passes fresh (.opening who info) .idle []
  | inserts (who : Caller) (info : SessionInfo) :
      Passes fresh (.opening who info) (.listed who info) [.insert info]
  | connects (who : Caller) (info : SessionInfo) :
      Passes fresh (.listed who info) (.live who info) [.audit (cameRecord who info)]
  | removes (who : Caller) (info : SessionInfo) :
      Passes fresh (.live who info) (.delisted who info) [.remove info.sessionId]
  | disconnects (who : Caller) (info : SessionInfo) :
      Passes fresh (.delisted who info) .idle [.audit (wentRecord who info)]
  | ends : Passes fresh .idle .ended [.release]

section

variable {δ : Type} [DecidableEq δ] {sv : Server δ} {fresh : SessionId} {x x' : Conn}
  {effects : List Effect}

theorem Moves.passes {writer : Writer} {pc pc' : Pc} (h : Moves writer pc pc' effects) :
    Passes fresh pc.stage pc'.stage effects := by
  cases h with
  | dropped => exact .ends
  | timedOut htimed =>
    cases pc with
    | admitting m s => exact .lost s.who s.info
    | refusing todo =>
      cases todo with
      | nil => cases htimed
      | cons => exact .stays _
    | greeting | pausing => exact .stays _
    | _ => cases htimed
  | inserted s => exact .inserts s.who s.info
  | connected s => exact .connects s.who s.info
  | touched s now => exact .touches s.who s.info now
  | closes s now => exact .touches s.who s.info now
  | removed s => exact .removes s.who s.info
  | disconnected s => exact .disconnects s.who s.info
  | released => exact .ends
  | _ => exact .stays _

theorem Greeted.passes {connection : ConnectionInfo} {message : TextMessage} {pc : Pc}
    (h : Greeted sv fresh connection message pc effects) : Passes fresh .idle pc.stage effects := by
  cases h with
  | malformed e => exact .stays _
  | failed id e => exact .fails _ _
  | admitted id who info hwho hfresh hclient horigin => exact .opens who info hfresh hclient horigin

theorem Greets.stage {pc pc' : Pc} {m : Message} (h : Greets pc m pc') : pc'.stage = pc.stage := by
  cases h <;> rfl

theorem Tells.stage {pc pc' : Pc} {m : Message} (h : Tells pc m pc') : pc'.stage = pc.stage := by
  cases h <;> rfl

theorem Offers.stage {s s' : Session} {m : Message} (h : Offers s m s') :
    (Pc.serving s').stage = (Pc.serving s).stage := by
  cases h <;> rfl

/-- **A step of a connection** changes the stage of its session, or keeps it. -/
theorem Turn.passes (h : Turn sv fresh x x' effects) :
    Passes fresh x.pc.stage x'.pc.stage effects := by
  cases h with
  | moves h => exact h.passes
  | hello message hpc h => exact hpc ▸ h.passes
  | greets h hready => exact h.stage.symm ▸ .stays _
  | tells h hready => exact h.stage.symm ▸ .stays _
  | offers hpc h =>
    rw [hpc]
    exact h.stage.symm ▸ .stays _
  | @refuses s id e recent message limiter now hpc h =>
    rw [hpc]
    exact .touches s.who s.info now
  | @dispatches s request recent message limiter now hpc h =>
    rw [hpc]
    exact .touches s.who s.info now
  | @binary s e now hpc =>
    rw [hpc]
    exact .touches s.who s.info now
  | responds hcall hresult hready => exact .stays _
  | _ => exact .stays _

end

/-! ### What the agent has of a session -/

def AuditRecord.session : AuditRecord → Option SessionId
  | connected _ _ id | disconnected _ _ id => some id
  | rejected .. | authFailure .. => none

/-- What an effect makes of the registry's entry of a session. -/
def Effect.entry (n : SessionId) : Effect → Option SessionInfo → Option SessionInfo
  | insert info, entry => if n = info.sessionId then some info else entry
  | touch id now, entry =>
    if n = id then entry.map fun info => { info with lastActivity := now } else entry
  | remove id, entry => if n = id then none else entry
  | audit _, entry | release, entry => entry

/-- What an effect adds to the records of a session. -/
def Effect.records (n : SessionId) : Effect → List AuditRecord
  | audit record => if record.session = some n then [record] else []
  | _ => []

theorem Effect.records_own {n : SessionId} {record : AuditRecord}
    (h : record.session = some n) : (Effect.audit record).records n = [record] := if_pos h

theorem Effect.records_other {n : SessionId} (record : AuditRecord)
    (h : record.session ≠ some n) : (Effect.audit record).records n = [] := if_neg h

/-- What the registry has of the session `n`, and the audit log was told of it: nothing before it was
opened; while a connection has it, and only that one has, what the stage of it says; and at the end
the two records of its life. -/
inductive Accounted (stage : ConnId → Stage) (next n : SessionId) (entry : Option SessionInfo)
    (trail : List AuditRecord) : Prop
  | unknown (hfree : ∀ id, (stage id).session ≠ some n) (hentry : entry = none)
      (htrail : trail = [])
  | held (id : ConnId) (who : Caller) (info : SessionInfo) (time : Time)
      (hstage : (stage id).identity = some (who, info)) (hn : info.sessionId = n)
      (honly : ∀ id', (stage id').session = some n → id' = id) (hold : n < next)
      (hclient : info.clientId = who.clientId) (horigin : info.origin = who.origin)
      (hentry : entry =
        if (stage id).isListed then some { info with lastActivity := time } else none)
      (htrail : trail = if (stage id).isAudited then [cameRecord who info] else [])
  | gone (who : Caller) (info : SessionInfo) (hfree : ∀ id, (stage id).session ≠ some n)
      (hn : info.sessionId = n) (hold : n < next) (hentry : entry = none)
      (htrail : trail = [cameRecord who info, wentRecord who info])

section

variable {stage : ConnId → Stage} {next next' n : SessionId} {entry : Option SessionInfo}
  {trail : List AuditRecord} {id : ConnId} {g : Stage} {who : Caller} {info : SessionInfo}

theorem session_of_identity (h : g.identity = some (who, info)) :
    g.session = some info.sessionId := by
  rw [Stage.session, h]
  rfl

/-- A change of another session. -/
theorem Accounted.frame (h : Accounted stage next n entry trail)
    (hfrom : (stage id).session ≠ some n) (hto : g.session ≠ some n) (hnext : next ≤ next') :
    Accounted (Function.update stage id g) next' n entry trail := by
  have hsame : ∀ id', (Function.update stage id g id').session = some n →
      (stage id').session = some n := by
    intro id' hid'
    rw [Function.update_apply] at hid'
    split at hid'
    · exact absurd hid' hto
    · exact hid'
  cases h with
  | unknown hfree hentry htrail =>
    exact .unknown (fun id' hid' => hfree id' (hsame id' hid')) hentry htrail
  | held id' who info time hstage hn honly hold hclient horigin hentry htrail =>
    have hne : id' ≠ id := by
      rintro rfl
      exact hfrom (hn ▸ session_of_identity hstage)
    have heq : Function.update stage id g id' = stage id' := Function.update_of_ne hne _ _
    exact .held id' who info time (heq ▸ hstage) hn (fun id'' h => honly id'' (hsame id'' h))
      (Nat.lt_of_lt_of_le hold hnext) hclient horigin (heq ▸ hentry) (heq ▸ htrail)
  | gone who info hfree hn hold hentry htrail =>
    exact .gone who info (fun id' hid' => hfree id' (hsame id' hid')) hn
      (Nat.lt_of_lt_of_le hold hnext) hentry htrail

/-- A change of a session that is another's. -/
theorem Accounted.other {g' : Stage} (h : Accounted stage next n entry trail) (hg : stage id = g)
    (hstage : g.identity = some (who, info)) (hne : n ≠ info.sessionId)
    (hto : g'.session ≠ some n) (hnext : next ≤ next') :
    Accounted (Function.update stage id g') next' n entry trail := by
  refine h.frame ?_ hto hnext
  rw [hg, session_of_identity hstage]
  exact fun heq => hne (Option.some.inj heq).symm

/-- A connection comes to a stage of a session that no other has. -/
theorem accounted_at (time : Time) (hstage : g.identity = some (who, info))
    (honly : ∀ id', id' ≠ id → (stage id').session ≠ some info.sessionId)
    (hold : info.sessionId < next) (hclient : info.clientId = who.clientId)
    (horigin : info.origin = who.origin)
    (hentry : entry = if g.isListed then some { info with lastActivity := time } else none)
    (htrail : trail = if g.isAudited then [cameRecord who info] else []) :
    Accounted (Function.update stage id g) next info.sessionId entry trail := by
  have heq : Function.update stage id g id = g := Function.update_self _ _ _
  refine .held id who info time (heq.symm ▸ hstage) rfl ?_ hold hclient horigin
    (heq.symm ▸ hentry) (heq.symm ▸ htrail)
  intro id' hid'
  by_contra hne
  rw [Function.update_of_ne hne] at hid'
  exact honly id' hne hid'

/-- What is accounted of the session that a connection has. -/
structure Holds (stage : ConnId → Stage) (next : SessionId) (id : ConnId) (g : Stage) (who : Caller)
    (info : SessionInfo) (entry : Option SessionInfo) (trail : List AuditRecord) : Prop where
  only : ∀ id', id' ≠ id → (stage id').session ≠ some info.sessionId
  old : info.sessionId < next
  client : info.clientId = who.clientId
  origin : info.origin = who.origin
  entry : ∃ time, entry = if g.isListed then some { info with lastActivity := time } else none
  trail : trail = if g.isAudited then [cameRecord who info] else []

theorem Accounted.holds (h : Accounted stage next info.sessionId entry trail)
    (hg : stage id = g) (hstage : g.identity = some (who, info)) :
    Holds stage next id g who info entry trail := by
  subst hg
  cases h with
  | unknown hfree => exact absurd (session_of_identity hstage) (hfree id)
  | gone who' info' hfree => exact absurd (session_of_identity hstage) (hfree id)
  | held id' who' info' time hstage' hn honly hold hclient horigin hentry htrail =>
    obtain rfl := honly id (session_of_identity hstage)
    obtain ⟨rfl, rfl⟩ := Prod.mk.inj (Option.some.inj (hstage.symm.trans hstage'))
    exact ⟨fun id' hne hid' => hne (honly id' hid'), hold, hclient, horigin, ⟨time, hentry⟩, htrail⟩

/-- The connection goes on with its session. -/
theorem Holds.goesOn {g' : Stage} {entry' : Option SessionInfo} {trail' : List AuditRecord}
    (time : Time) (h : Holds stage next id g who info entry trail)
    (hstage : g'.identity = some (who, info)) (hnext : next ≤ next')
    (hentry : entry' = if g'.isListed then some { info with lastActivity := time } else none)
    (htrail : trail' = if g'.isAudited then [cameRecord who info] else []) :
    Accounted (Function.update stage id g') next' info.sessionId entry' trail' :=
  accounted_at time hstage h.only (Nat.lt_of_lt_of_le h.old hnext) h.client h.origin hentry htrail

/-- The connection gives its session up. -/
theorem Holds.free {g' : Stage} (h : Holds stage next id g who info entry trail)
    (hstage : g'.session = none) (id' : ConnId) :
    (Function.update stage id g' id').session ≠ some info.sessionId := by
  intro hid'
  rw [Function.update_apply] at hid'
  split at hid'
  · rw [hstage] at hid'
    cases hid'
  · next hne => exact h.only id' hne hid'

theorem Accounted.later (h : Accounted stage next n entry trail) (hnext : next ≤ next') :
    Accounted stage next' n entry trail := by
  cases h with
  | unknown hfree hentry htrail => exact .unknown hfree hentry htrail
  | held id who info time hstage hn honly hold hclient horigin hentry htrail =>
    exact .held id who info time hstage hn honly (Nat.lt_of_lt_of_le hold hnext) hclient horigin
      hentry htrail
  | gone who info hfree hn hold hentry htrail =>
    exact .gone who info hfree hn (Nat.lt_of_lt_of_le hold hnext) hentry htrail

variable {registry : SessionId → Option SessionInfo} {log : SessionId → List AuditRecord}
  {effects : List Effect}

/-- **A change of one session** keeps the account of all. -/
theorem accounted_step (h : ∀ n, Accounted stage next n (registry n) (log n))
    (hpasses : Passes next (stage id) g effects) (n : SessionId) :
    Accounted (Function.update stage id g) (next + 1) n
      (effects.foldl (fun entry effect => effect.entry n entry) (registry n))
      (log n ++ effects.flatMap (Effect.records n)) := by
  have hnext := Nat.le_succ next
  have hsame : ∀ {entry trail}, stage id = g → Accounted stage next n entry trail →
      Accounted (Function.update stage id g) (next + 1) n entry trail := by
    rintro entry trail rfl h
    rw [Function.update_eq_self]
    exact h.later hnext
  have hne : ∀ {info : SessionInfo}, ¬n = info.sessionId → some info.sessionId ≠ some n :=
    fun hne heq => hne (Option.some.inj heq).symm
  generalize hstage : stage id = before at hpasses
  cases hpasses with
  | stays =>
    rw [List.flatMap_nil, List.append_nil]
    exact hsame hstage (h n)
  | fails origin code =>
    show Accounted _ _ _ (registry n) (log n ++ [])
    rw [List.append_nil]
    exact hsame hstage (h n)
  | touches who info now =>
    show Accounted _ _ _ (if n = info.sessionId then _ else registry n) (log n ++ [])
    rw [List.append_nil]
    split
    · next heq =>
      subst heq
      have hholds := (h _).holds hstage rfl
      obtain ⟨time, hentry⟩ := hholds.entry
      exact hholds.goesOn now rfl hnext (by rw [hentry]; rfl) hholds.trail
    · exact hsame hstage (h n)
  | opens who info hfresh hclient horigin =>
    show Accounted _ _ _ (registry n) (log n ++ [])
    rw [List.append_nil]
    by_cases heq : n = info.sessionId
    · subst heq
      have hlook := h info.sessionId
      -- the id is new, so nothing is known of it
      cases hlook with
      | unknown hfree hentry htrail =>
        exact accounted_at 0 rfl (fun id' _ => hfree id') (hfresh ▸ Nat.lt_succ_self _)
          hclient horigin hentry htrail
      | held _ _ _ _ _ _ _ hold => exact absurd (hfresh ▸ hold) (Nat.lt_irrefl _)
      | gone _ _ _ _ hold => exact absurd (hfresh ▸ hold) (Nat.lt_irrefl _)
    · refine (h n).frame ?_ (hne heq) hnext
      rw [hstage]
      exact fun h => by cases h
  | lost who info =>
    show Accounted _ _ _ (registry n) (log n ++ [])
    rw [List.append_nil]
    by_cases heq : n = info.sessionId
    · subst heq
      have hholds := (h _).holds hstage rfl
      obtain ⟨time, hentry⟩ := hholds.entry
      exact .unknown (hholds.free rfl) hentry hholds.trail
    · exact (h n).other hstage rfl heq (fun h => by cases h) hnext
  | inserts who info =>
    show Accounted _ _ _ (if n = info.sessionId then _ else registry n) (log n ++ [])
    rw [List.append_nil]
    split
    · next heq =>
      subst heq
      have hholds := (h _).holds hstage rfl
      exact hholds.goesOn info.lastActivity rfl hnext rfl hholds.trail
    · next heq => exact (h n).other hstage rfl heq (hne heq) hnext
  | connects who info =>
    show Accounted _ _ _ (registry n) (log n ++ (Effect.records n (.audit _) ++ []))
    rw [List.append_nil]
    by_cases heq : n = info.sessionId
    · subst heq
      have hholds := (h _).holds hstage rfl
      obtain ⟨time, hentry⟩ := hholds.entry
      refine hholds.goesOn time rfl hnext hentry ?_
      rw [hholds.trail, Effect.records_own rfl]
      rfl
    · rw [Effect.records_other (cameRecord who info) (hne heq), List.append_nil]
      exact (h n).other hstage rfl heq (hne heq) hnext
  | removes who info =>
    show Accounted _ _ _ (if n = info.sessionId then _ else registry n) (log n ++ [])
    rw [List.append_nil]
    split
    · next heq =>
      subst heq
      have hholds := (h _).holds hstage rfl
      exact hholds.goesOn 0 rfl hnext rfl hholds.trail
    · next heq => exact (h n).other hstage rfl heq (hne heq) hnext
  | disconnects who info =>
    show Accounted _ _ _ (registry n) (log n ++ (Effect.records n (.audit _) ++ []))
    rw [List.append_nil]
    by_cases heq : n = info.sessionId
    · subst heq
      have hholds := (h _).holds hstage rfl
      obtain ⟨time, hentry⟩ := hholds.entry
      refine .gone who info (hholds.free rfl) rfl (Nat.lt_succ_of_lt hholds.old) hentry ?_
      rw [hholds.trail, Effect.records_own rfl]
      rfl
    · rw [Effect.records_other (wentRecord who info) (hne heq), List.append_nil]
      exact (h n).other hstage rfl heq (fun h => by cases h) hnext
  | ends =>
    show Accounted _ _ _ (registry n) (log n ++ [])
    rw [List.append_nil]
    refine (h n).frame ?_ ?_ hnext
    · rw [hstage]
      exact fun h => by cases h
    · exact fun h => by cases h

end

/-! ### Refused hellos -/

/-- What a step of a connection tells the audit log. -/
def Effect.call : Effect → Option AuditRecord
  | audit record => some record
  | _ => none

/-- The error that a connection's hello was refused with. -/
def Conn.failure {δ : Type} [DecidableEq δ] (sv : Server δ) (x : Conn) : Option ErrorCode :=
  x.texts.head?.bind (helloFailure sv x.info)

/-- One, if it is a connection from `origin` whose hello was refused with `code`. -/
def Conn.failed {δ : Type} [DecidableEq δ] (sv : Server δ) (origin : Option (List Char))
    (code : ErrorCode) (x : Conn) : ℕ :=
  if x.info.origin = origin ∧ x.failure sv = some code then 1 else 0

section

variable {δ : Type} [DecidableEq δ] {sv : Server δ} {fresh : SessionId} {x x' : Conn}
  {effects : List Effect} (origin : Option (List Char)) (code : ErrorCode)

theorem Conn.failed_congr (hinfo : x'.info = x.info) (htexts : x'.texts.head? = x.texts.head?) :
    x'.failed sv origin code = x.failed sv origin code := by
  unfold failed failure
  rw [hinfo, htexts]

theorem Moves.untold {writer : Writer} {pc pc' : Pc} (h : Moves writer pc pc' effects) :
    (effects.filterMap Effect.call).count (.authFailure origin code) = 0 := by
  cases h <;> rfl

/-- **A refused hello is reported once**, where it is refused. -/
theorem Turn.failed (hgated : x.Gated sv) (h : Turn sv fresh x x' effects) :
    x'.failed sv origin code =
      x.failed sv origin code + (effects.filterMap Effect.call).count (.authFailure origin code) := by
  cases h with
  | moves h =>
    rw [h.untold]
    exact Conn.failed_congr origin code rfl rfl
  | @hello pc _ message hpc h =>
    have htexts := hgated.unread (.inr hpc)
    have hbefore : x.failed sv origin code = 0 := by
      unfold Conn.failed Conn.failure
      rw [htexts]
      exact if_neg fun h => by cases h.2
    have hafter : Conn.failure sv { x with texts := x.texts ++ [message], pc := pc } =
        helloFailure sv x.info message := by
      unfold Conn.failure
      rw [htexts]
      rfl
    rw [hbefore, Nat.zero_add]
    unfold Conn.failed
    rw [hafter]
    cases h with
    | malformed e hnone | admitted id who info hwho hfresh hclient horigin hnone =>
      rw [hnone]
      exact if_neg fun h => by cases h.2
    | failed id e hfailure =>
      rw [hfailure]
      show _ = [AuditRecord.authFailure x.info.origin e.errorCode].count _
      rw [List.count_singleton]
      simp only [Option.some.injEq, beq_iff_eq, AuditRecord.authFailure.injEq]
  | @refuses s _ _ _ message limiter now hpc h | @dispatches s _ _ message limiter now hpc h =>
    have hread : x.texts ≠ [] := hgated.read (s := s) (by rw [hpc]; rfl)
    exact Conn.failed_congr origin code rfl (List.head?_append_of_ne_nil _ hread)
  | greets h hready | tells h hready | responds hcall hresult hready =>
    refine Conn.failed_congr origin code (Conn.enqueue_info _ _) ?_
    exact congrArg List.head? (Conn.enqueue_texts _ _)
  | offers hpc h =>
    refine Conn.failed_congr origin code (Conn.offer_info _ _) ?_
    exact congrArg List.head? (Conn.offer_texts _ _)
  | _ => exact Conn.failed_congr origin code rfl rfl

end

/-! ### Every run of the agent -/

/-- What the audit log was told of a session. -/
def AppState.trail (s : AppState) (n : SessionId) : List AuditRecord :=
  s.audit.filter (·.session = some n)

/-- The stage of a connection; one that was never opened is idle. -/
def AppState.stage (s : AppState) (id : ConnId) : Stage :=
  ((s.conns.lookup id).map (·.pc.stage)).getD .idle

/-- The slots that a stage takes. -/
def Stage.slots (g : Stage) : ℕ := if g.isEnded then 0 else 1

/-- The connections that have not ended. -/
def AppState.taken (s : AppState) : ℕ := FinMap.tally (fun _ x => x.pc.stage.slots) s.conns

section

variable {δ : Type} [DecidableEq δ] {sv : Server δ} {s s' : AppState}

/-- The connections from `origin` whose hello was refused with `code`. -/
def AppState.failures (sv : Server δ) (s : AppState) (origin : Option (List Char))
    (code : ErrorCode) : ℕ := FinMap.tally (fun _ x => x.failed sv origin code) s.conns

/-- What the agent keeps account of. -/
structure AppState.Accounts (sv : Server δ) (s : AppState) : Prop where
  keys : ∀ id x, s.conns.lookup id = some x → id < s.nextConn
  slots : s.slots + s.taken = sv.maxConnections
  sessions : ∀ n, Accounted s.stage s.nextSession n (s.registry.lookup n) (s.trail n)
  failures : ∀ origin code,
    s.audit.count (.authFailure origin code) = s.failures sv origin code
  logged : (s.auditLog.map Prod.snd).Sublist s.audit

/-! The calls of the audit log. -/

theorem trail_record (n : SessionId) (record : AuditRecord) :
    (s.record record).trail n = s.trail n ++ if record.session = some n then [record] else [] := by
  show (s.audit ++ [record]).filter _ = s.audit.filter _ ++ _
  rw [List.filter_append, List.filter_singleton, Bool.cond_decide]

theorem logged_record (h : (s.auditLog.map Prod.snd).Sublist s.audit) (record : AuditRecord) :
    ((s.record record).auditLog.map Prod.snd).Sublist (s.record record).audit := by
  show (List.map Prod.snd (if s.storing = true then _ else _)).Sublist (s.audit ++ [record])
  split
  · rw [List.map_append]
    exact h.append_right _
  · exact h.trans (List.sublist_append_left _ _)

theorem record_complete (hstoring : s.storing = true) (h : s.auditLog.map Prod.snd = s.audit)
    (record : AuditRecord) : (s.record record).storing = true ∧
      (s.record record).auditLog.map Prod.snd = (s.record record).audit := by
  refine ⟨hstoring, ?_⟩
  show List.map Prod.snd (if s.storing = true then _ else _) = s.audit ++ [record]
  rw [if_pos hstoring, List.map_append, h]
  rfl

theorem Effect.apply_audit (effect : Effect) :
    (effect.apply s).audit = s.audit ++ effect.call.toList := by
  cases effect with
  | audit record => rfl
  | _ => exact (List.append_nil _).symm

theorem foldl_audit (effects : List Effect) : ∀ s : AppState,
    (effects.foldl Effect.apply s).audit = s.audit ++ effects.filterMap Effect.call := by
  induction effects with
  | nil => exact fun _ => (List.append_nil _).symm
  | cons effect rest ih =>
    intro s
    rw [List.foldl_cons, ih, effect.apply_audit, List.append_assoc]
    cases effect <;> rfl

theorem foldl_logged (effects : List Effect) : ∀ s : AppState,
    (s.auditLog.map Prod.snd).Sublist s.audit →
      ((effects.foldl Effect.apply s).auditLog.map Prod.snd).Sublist
        (effects.foldl Effect.apply s).audit := by
  induction effects with
  | nil => exact fun _ h => h
  | cons effect rest ih =>
    intro s h
    refine ih _ ?_
    cases effect with
    | audit record => exact logged_record h record
    | _ => exact h

theorem Effect.apply_registry (n : SessionId) (effect : Effect) :
    (effect.apply s).registry.lookup n = effect.entry n (s.registry.lookup n) := by
  cases effect with
  | insert info => exact FinMap.lookup_insert_ite _ _ _ _
  | touch id now => exact SessionRegistry.lookup_touch _ _ _ _
  | remove id => exact FinMap.lookup_erase_ite _ _ _
  | audit record => rfl
  | release => rfl

theorem Effect.apply_trail (n : SessionId) (effect : Effect) :
    (effect.apply s).trail n = s.trail n ++ effect.records n := by
  cases effect with
  | audit record => exact trail_record n record
  | _ => exact (List.append_nil _).symm

theorem foldl_registry (n : SessionId) (effects : List Effect) : ∀ s : AppState,
    (effects.foldl Effect.apply s).registry.lookup n =
      effects.foldl (fun entry effect => effect.entry n entry) (s.registry.lookup n) := by
  induction effects with
  | nil => exact fun _ => rfl
  | cons effect rest ih =>
    intro s
    rw [List.foldl_cons, List.foldl_cons, ih, effect.apply_registry]

theorem foldl_trail (n : SessionId) (effects : List Effect) : ∀ s : AppState,
    (effects.foldl Effect.apply s).trail n = s.trail n ++ effects.flatMap (Effect.records n) := by
  induction effects with
  | nil => exact fun _ => (List.append_nil _).symm
  | cons effect rest ih =>
    intro s
    rw [List.foldl_cons, ih, effect.apply_trail, List.flatMap_cons, List.append_assoc]

/-- The rest of the agent. -/
theorem foldl_counters (effects : List Effect) : ∀ s : AppState,
    (effects.foldl Effect.apply s).nextConn = s.nextConn ∧
      (effects.foldl Effect.apply s).nextSession = s.nextSession := by
  induction effects with
  | nil => exact fun _ => ⟨rfl, rfl⟩
  | cons effect rest ih =>
    intro s
    obtain ⟨hconn, hsession⟩ := ih (effect.apply s)
    cases effect <;> exact ⟨hconn, hsession⟩

/-- A slot is given back where a connection ends. -/
theorem Passes.slots {fresh : SessionId} {g g' : Stage} {effects : List Effect}
    (h : Passes fresh g g' effects) (s : AppState) :
    (effects.foldl Effect.apply s).slots + g'.slots = s.slots + g.slots := by
  cases h <;> rfl

theorem stage_of_lookup {id : ConnId} {x : Conn} (h : s.conns.lookup id = some x) :
    s.stage id = x.pc.stage := by
  rw [AppState.stage, h]
  rfl

/-- The stages after a step of a connection. -/
theorem stage_insert {id : ConnId} {x : Conn} (h : s'.conns = s.conns.insert id x) :
    s'.stage = Function.update s.stage id x.pc.stage := by
  funext id'
  rw [AppState.stage, h, FinMap.lookup_insert_ite, Function.update_apply]
  split <;> rfl

/-- An upgrade opens a connection without a session. -/
theorem AppState.Accounts.upgrade {peer : SocketAddr} {headers : Headers} (h : s.Accounts sv) :
    (Connection.upgrade sv s peer headers).1.Accounts sv := by
  rcases upgrade_cases sv s peer headers with ⟨origin, reason, heq⟩ | heq | ⟨info, -, hslots, heq⟩
  · rw [heq]
    refine ⟨h.keys, h.slots, fun n => ?_, fun from_ code => ?_, logged_record h.logged _⟩
    · rw [trail_record, if_neg (by exact fun h => by cases h), List.append_nil]
      exact h.sessions n
    · show (s.audit ++ [_]).count _ = s.failures sv from_ code
      rw [List.count_append, h.failures]
      rfl
  · rw [heq]
    exact h
  · rw [heq]
    have hnew : s.conns.lookup s.nextConn = none := by
      by_contra hsome
      obtain ⟨x, hx⟩ := Option.ne_none_iff_exists'.mp hsome
      exact absurd (h.keys _ x hx) (Nat.lt_irrefl _)
    refine ⟨?_, ?_, ?_, ?_, h.logged⟩
    · intro id x hx
      rw [FinMap.lookup_insert_ite] at hx
      split at hx
      · next hid => exact hid ▸ Nat.lt_succ_self _
      · exact Nat.lt_succ_of_lt (h.keys id x hx)
    · have htally := FinMap.tally_insert (fun _ (x : Conn) => x.pc.stage.slots) s.conns s.nextConn
        { info := info }
      rw [FinMap.share, hnew] at htally
      have hsum := h.slots
      unfold AppState.taken at hsum ⊢
      have hone : (Pc.upgrading).stage.slots = 1 := rfl
      simp only [Option.map_none, Option.getD_none, hone] at htally
      dsimp only
      omega
    · intro n
      have hidle : s.stage s.nextConn = .idle := by
        rw [AppState.stage, hnew]
        rfl
      have hstage : AppState.stage { s with
          slots := s.slots - 1
          conns := s.conns.insert s.nextConn { info := info }
          nextConn := s.nextConn + 1 } = s.stage := by
        rw [stage_insert (s := s) (x := { info := info }) rfl]
        show Function.update s.stage s.nextConn .idle = s.stage
        rw [← hidle, Function.update_eq_self]
      rw [hstage]
      exact h.sessions n
    · intro origin code
      have htally := FinMap.tally_insert (fun _ (x : Conn) => x.failed sv origin code) s.conns
        s.nextConn { info := info }
      rw [FinMap.share, hnew] at htally
      have hnone : Conn.failed sv origin code { info := info } = 0 := if_neg fun h => by cases h.2
      have hsum := h.failures origin code
      unfold AppState.failures at hsum ⊢
      simp only [Option.map_none, Option.getD_none, hnone] at htally
      dsimp only
      omega

/-- A step of a connection. -/
theorem AppState.Accounts.advance {id : ConnId} {a : Step} (h : s.Accounts sv)
    (hgated : ∀ x, s.conns.lookup id = some x → x.Gated sv)
    (hs : Connection.advance sv s id a = some s') : s'.Accounts sv := by
  obtain ⟨x, x', effects, hx, hturn, heq⟩ := advance_eq_some hs
  have hpasses := hturn.passes
  rw [← stage_of_lookup hx] at hpasses
  obtain ⟨hconn, hsession⟩ := foldl_counters effects
    { s with conns := s.conns.insert id x', nextSession := s.nextSession + 1 }
  have hconns : s'.conns = s.conns.insert id x' := heq ▸ foldl_conns effects _
  rw [← heq] at hconn hsession
  refine ⟨?_, ?_, ?_, ?_, heq ▸ foldl_logged effects _ h.logged⟩
  · intro id' y hy
    rw [hconns, FinMap.lookup_insert_ite] at hy
    rw [hconn]
    split at hy
    · next hid => exact hid ▸ h.keys id x hx
    · exact h.keys id' y hy
  · have hslots := hpasses.slots
      { s with conns := s.conns.insert id x', nextSession := s.nextSession + 1 }
    rw [← heq, stage_of_lookup hx] at hslots
    have htally := FinMap.tally_insert (fun _ (x : Conn) => x.pc.stage.slots) s.conns id x'
    rw [FinMap.share, hx] at htally
    have hsum := h.slots
    unfold AppState.taken at hsum ⊢
    rw [hconns]
    simp only [Option.map_some, Option.getD_some] at htally
    dsimp only at hslots
    omega
  · intro n
    rw [stage_insert hconns, hsession, heq, foldl_registry, foldl_trail]
    exact accounted_step h.sessions hpasses n
  · intro origin code
    have haudit : s'.audit = s.audit ++ effects.filterMap Effect.call := heq ▸ foldl_audit effects _
    have hturned := hturn.failed origin code (hgated x hx)
    have htally := FinMap.tally_insert (fun _ (x : Conn) => x.failed sv origin code) s.conns id x'
    rw [FinMap.share, hx] at htally
    have hsum := h.failures origin code
    unfold AppState.failures at hsum ⊢
    rw [haudit, List.count_append, hconns]
    simp only [Option.map_some, Option.getD_some] at htally
    omega

theorem accounts_of_reached (h : Reached sv s) : s.Accounts sv := by
  refine h.invariant ?_ ?_
  · exact ⟨fun _ _ hx => (by cases hx), rfl, fun n => .unknown (fun _ hid => by cases hid) rfl rfl,
      fun _ _ => rfl, .refl _⟩
  · intro s a s' hreach ih _ hs
    cases a with
    | upgrade peer headers =>
      obtain rfl := Option.some.inj hs
      exact ih.upgrade
    | shutDown | outside =>
      obtain rfl := Option.some.inj hs
      exact ⟨ih.keys, ih.slots, ih.sessions, ih.failures, ih.logged⟩
    | purgeAudit cutoff =>
      obtain rfl := Option.some.inj hs
      exact ⟨ih.keys, ih.slots, ih.sessions, ih.failures,
        (List.filter_sublist.map Prod.snd).trans ih.logged⟩
    | conn id a => exact ih.advance (fun x hx => (kept_of_reached hreach hx).gated) hs

/-- A step in which the database takes every insertion, and no row is deleted. -/
def Undisturbed (s : AppState) : AppStep → Prop
  | .outside _ storing => storing = true
  | .purgeAudit _ => False
  | _ => s.storing = true

theorem foldl_complete (effects : List Effect) : ∀ s : AppState, s.storing = true →
    s.auditLog.map Prod.snd = s.audit →
      (effects.foldl Effect.apply s).storing = true ∧
        (effects.foldl Effect.apply s).auditLog.map Prod.snd = (effects.foldl Effect.apply s).audit := by
  induction effects with
  | nil => exact fun _ hstoring h => ⟨hstoring, h⟩
  | cons effect rest ih =>
    intro s hstoring h
    cases effect with
    | audit record =>
      obtain ⟨hstoring', h'⟩ := record_complete hstoring h record
      exact ih _ hstoring' h'
    | _ => exact ih _ hstoring h

/-- **Only failures and purges lose a record**: where there is neither, the log is what was told. -/
theorem log_complete (h : Reach (appStep sv) Undisturbed (AppState.start sv) s) :
    s.auditLog.map Prod.snd = s.audit := by
  refine And.right (h.invariant (I := fun s : AppState =>
    s.storing = true ∧ s.auditLog.map Prod.snd = s.audit) ⟨rfl, rfl⟩ ?_)
  intro s a s' _ ⟨hstoring, hlog⟩ hok hs
  cases a with
  | upgrade peer headers =>
    obtain rfl := Option.some.inj hs
    rcases upgrade_cases sv s peer headers with ⟨origin, reason, heq⟩ | heq | ⟨info, -, -, heq⟩
    · rw [heq]
      exact record_complete hstoring hlog _
    · rw [heq]
      exact ⟨hstoring, hlog⟩
    · rw [heq]
      exact ⟨hstoring, hlog⟩
  | shutDown =>
    obtain rfl := Option.some.inj hs
    exact ⟨hstoring, hlog⟩
  | outside now storing =>
    obtain rfl := Option.some.inj hs
    exact ⟨hok, hlog⟩
  | purgeAudit cutoff => exact absurd hok not_false
  | conn id a =>
    obtain ⟨x, x', effects, -, -, rfl⟩ := advance_eq_some hs
    exact foldl_complete effects _ hstoring hlog

/-- Whose session a connection has. -/
theorem session_of_stage {pc : Pc} {who : Caller} {info : SessionInfo}
    (h : pc.stage.identity = some (who, info)) : ∃ t ∈ pc.session, t.who = who ∧ t.info = info := by
  cases pc <;> first | (cases h; done) | (cases h; exact ⟨_, rfl, rfl, rfl⟩)

theorem stage_of_session {pc : Pc} {t : Session} (h : t ∈ pc.session) :
    pc.stage.identity = some (t.who, t.info) := by
  cases pc <;> cases h <;> rfl

/-- What the registry lists is the session of a connection. -/
theorem listed_of_registry (h : s.Accounts sv) {n : SessionId} {info : SessionInfo}
    (hinfo : s.registry.lookup n = some info) :
    ∃ id x t, s.conns.lookup id = some x ∧ t ∈ x.pc.session ∧ x.pc.stage.isListed = true ∧
      info = { t.info with lastActivity := info.lastActivity } ∧ t.info.sessionId = n ∧
      t.info.clientId = t.who.clientId ∧ t.info.origin = t.who.origin := by
  have hsession := h.sessions n
  rw [hinfo] at hsession
  cases hsession with
  | unknown hfree hentry => cases hentry
  | gone who _ hfree hn hold hentry => cases hentry
  | held id who info' time hstage hn honly hold hclient horigin hentry htrail =>
    cases hx : s.conns.lookup id with
    | none =>
      rw [AppState.stage, hx] at hstage
      cases hstage
    | some x =>
      rw [stage_of_lookup hx] at hstage hentry
      obtain ⟨t, ht, rfl, rfl⟩ := session_of_stage hstage
      obtain ⟨hlisted, heq⟩ := Option.ite_none_right_eq_some.mp hentry.symm
      cases heq
      exact ⟨id, x, t, hx, ht, hlisted, rfl, hn, hclient, horigin⟩

end

end Connection

end KilnPrint
