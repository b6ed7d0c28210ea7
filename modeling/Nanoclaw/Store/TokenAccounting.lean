import Nanoclaw.Lib.Saturating
import Nanoclaw.Runtime.ProviderContinuation
import Nanoclaw.Store.TokenUsage

/-!
# Accounting of Tokens

A runtime counts the tokens of its model calls in a ledger that starts empty whenever it takes up
an agent session: when the session is created, resumed or forked, and after a compaction. The log
of a session is the log of one such life after the other (`Recorded`), as is what every run of
the runtime logs (`recorded_of_run`).

The report counts a life exactly if it is the last one of its agent session, in the log of the
session itself, or the last one at all, in the log of a child. A child that has not logged
anything yet makes the report fail.
-/

namespace Nanoclaw

open List Option

/-! ### Counters -/

/-- What is counted. -/
inductive TokenCounter where
  | input
  | output
  | prefill
  | decode
  | cacheRead
  | reasoning

/-- The largest value of a counter. -/
def counterMax : ℕ :=
  2 ^ 64 - 1

namespace TokenUsage

/-- The counter of a usage. -/
def counter (usage : TokenUsage) : TokenCounter → ℕ
  | .input => usage.inputTokens
  | .output => usage.outputTokens
  | .prefill => usage.prefillTokens
  | .decode => usage.decodeTokens
  | .cacheRead => usage.cacheReadTokens
  | .reasoning => usage.reasoningTokens

theorem ext_counter {usage usage' : TokenUsage}
    (h : ∀ counter, usage.counter counter = usage'.counter counter) : usage = usage' := by
  cases usage
  cases usage'
  exact TokenUsage.mk.injEq .. |>.mpr
    ⟨h .input, h .output, h .prefill, h .decode, h .cacheRead, h .reasoning⟩

theorem counter_accumulate (total usage : TokenUsage) (counter : TokenCounter) :
    (total.accumulate usage).counter counter =
      min (total.counter counter + usage.counter counter) counterMax := by
  cases counter <;> rfl

/-- The usage of some calls together. -/
def total (usages : List TokenUsage) : TokenUsage :=
  usages.foldl accumulate {}

theorem counter_foldl_accumulate {start : TokenUsage} {counter : TokenCounter}
    (hstart : start.counter counter ≤ counterMax) (usages : List TokenUsage) :
    (usages.foldl accumulate start).counter counter =
      min (start.counter counter + (usages.map (·.counter counter)).sum) counterMax := by
  rw [← Saturating.foldl_add hstart, foldl_map]
  clear hstart
  induction usages generalizing start with
  | nil => rfl
  | cons usage usages ih => rw [foldl_cons, ih, counter_accumulate, foldl_cons]

/-- Counters add up, to their largest value. -/
theorem counter_total (usages : List TokenUsage) (counter : TokenCounter) :
    (total usages).counter counter = min (usages.map (·.counter counter)).sum counterMax := by
  have hzero : ({} : TokenUsage).counter counter = 0 := by cases counter <;> rfl
  rw [total, counter_foldl_accumulate (by rw [hzero]; exact Nat.zero_le _), hzero, zero_add]

end TokenUsage

/-! ### Lives -/

/-- The usage of a model call. -/
def UsageStep.call : UsageStep → Option TokenUsage
  | .request _ => none
  | .response usage => usage

/-- An event about the ledger. -/
structure LedgerEvent where
  agentSessionId : AgentSessionId
  phase : TokenUsagePhase
  ledger : TokenLedgerSnapshot
  deriving DecidableEq

/-- The ledgers that some steps log. -/
def ledgerEvents (agentSessionId : AgentSessionId) (ledger : TokenLedgerSnapshot) :
    List UsageStep → List LedgerEvent
  | [] => []
  | step :: steps => ⟨agentSessionId, step.phase, step.record ledger⟩ ::
      ledgerEvents agentSessionId (step.record ledger) steps

/-- **A life of a runtime** in an agent session, from an empty ledger; it leaves a trace. -/
structure Life where
  agentSessionId : AgentSessionId
  steps : List UsageStep
  nonempty : steps ≠ []

namespace Life

/-- The ledgers that a life logs. -/
def events (life : Life) : List LedgerEvent :=
  ledgerEvents life.agentSessionId {} life.steps

/-- The usage of its model calls. -/
def calls (life : Life) : List TokenUsage :=
  life.steps.filterMap UsageStep.call

theorem events_ne_nil (life : Life) : life.events ≠ [] := by
  obtain ⟨agentSessionId, steps, hsteps⟩ := life
  cases steps with
  | nil => exact absurd rfl hsteps
  | cons step steps => exact cons_ne_nil _ _

theorem agentSessionId_of_mem_events {life : Life} {event : LedgerEvent}
    (h : event ∈ life.events) : event.agentSessionId = life.agentSessionId := by
  rw [events] at h
  generalize life.steps = steps, ({} : TokenLedgerSnapshot) = ledger at h
  induction steps generalizing ledger with
  | nil => cases h
  | cons step steps ih =>
    rcases mem_cons.mp h with rfl | h
    · rfl
    · exact ih _ h

end Life

/-- The ledgers in a log. -/
def loggedLedger (event : SessionEventEnvelope) : Option LedgerEvent :=
  match event.event with
  | .tokenUsageUpdated phase ledger => some ⟨event.agentSessionId, phase, ledger⟩
  | _ => none

/-- **The log of a session is that of one life after the other**, with other events between. -/
def Recorded (log : List SessionEventEnvelope) (lives : List Life) : Prop :=
  log.filterMap loggedLedger = lives.flatMap Life.events

instance (log : List SessionEventEnvelope) (lives : List Life) : Decidable (Recorded log lives) :=
  inferInstanceAs (Decidable (_ = _))

/-- The usage of a model call that a ledger records. -/
def recordedCall (event : LedgerEvent) : Option TokenUsage :=
  match event.phase with
  | .requestStarted => none
  | .responseCompleted => event.ledger.lastUsage

/-- The usage of all model calls in a log. -/
def recordedCalls (log : List SessionEventEnvelope) : List TokenUsage :=
  (log.filterMap loggedLedger).filterMap recordedCall

namespace Life

theorem filterMap_recordedCall_events (life : Life) :
    life.events.filterMap recordedCall = life.calls := by
  rw [events, calls]
  generalize ({} : TokenLedgerSnapshot) = ledger
  induction life.steps generalizing ledger with
  | nil => rfl
  | cons step steps ih =>
    have hstep : recordedCall ⟨life.agentSessionId, step.phase, step.record ledger⟩ =
        step.call := by
      cases step <;> rfl
    rw [ledgerEvents, filterMap_cons, filterMap_cons, ih, hstep]

/-- **The last ledger of a life has the usage of its calls.** -/
theorem last_ledger (life : Life) :
    life.events.getLast?.map (·.ledger.cumulativeUsage) = some (.total life.calls) := by
  obtain ⟨agentSessionId, steps, hsteps⟩ := life
  change (ledgerEvents _ {} steps).getLast?.map _ = some ((steps.filterMap UsageStep.call).foldl
    .accumulate ({} : TokenLedgerSnapshot).cumulativeUsage)
  generalize ({} : TokenLedgerSnapshot) = ledger
  induction steps generalizing ledger with
  | nil => exact absurd rfl hsteps
  | cons step steps ih =>
    have hstep : (step.record ledger).cumulativeUsage =
        step.call.toList.foldl .accumulate ledger.cumulativeUsage := by
      cases step with
      | request => rfl
      | response usage => cases usage <;> rfl
    have hcons : (step :: steps).filterMap UsageStep.call =
        step.call.toList ++ steps.filterMap UsageStep.call := by
      rw [filterMap_cons]
      cases step.call <;> rfl
    rw [ledgerEvents, hcons, foldl_append, ← hstep]
    cases steps with
    | nil => rfl
    | cons next steps => exact ih (cons_ne_nil _ _) _

end Life

variable {log : List SessionEventEnvelope} {lives : List Life}

theorem Recorded.recordedCalls (h : Recorded log lives) :
    recordedCalls log = lives.flatMap Life.calls := by
  rw [Nanoclaw.recordedCalls, h, filterMap_flatMap]
  exact flatMap_congr fun life _ => life.filterMap_recordedCall_events

/-! ### What runtimes log -/

/-- One more step logs one more ledger. -/
theorem ledgerEvents_concat (agentSessionId : AgentSessionId) (steps : List UsageStep)
    (step : UsageStep) (ledger : TokenLedgerSnapshot) :
    ledgerEvents agentSessionId ledger (steps ++ [step]) =
      ledgerEvents agentSessionId ledger steps ++
        [⟨agentSessionId, step.phase, step.record (steps.foldl UsageStep.record ledger)⟩] := by
  induction steps generalizing ledger with
  | nil => rfl
  | cons next steps ih => exact congrArg _ (ih _)

/-- **The log is that of some lives and of the one that goes on**, with its ledger. -/
def Accounted (core : Core) : Prop :=
  ∃ (lives : List Life) (steps : List UsageStep), core.log.filterMap loggedLedger =
      lives.flatMap Life.events ++ ledgerEvents core.session.agentSessionId {} steps ∧
    core.session.tokenLedger = steps.foldl UsageStep.record {}

namespace Accounted

variable {core core' : Core} (h : Accounted core)

include h

/-- The life that goes on is a life if it has logged. -/
theorem recorded : ∃ lives, Recorded core.log lives := by
  obtain ⟨lives, steps, hlog, -⟩ := h
  by_cases hsteps : steps = []
  · rw [hsteps] at hlog
    exact ⟨lives, hlog.trans (append_nil _)⟩
  · refine ⟨lives ++ [⟨core.session.agentSessionId, steps, hsteps⟩], ?_⟩
    rw [Recorded, hlog, flatMap_append, flatMap_singleton]
    rfl

/-- With an empty ledger a life begins. -/
theorem attach {session : RuntimeSession} (hledger : session.tokenLedger = {}) :
    Accounted { core with session } := by
  obtain ⟨lives, hlives⟩ := h.recorded
  exact ⟨lives, [], hlives.trans (append_nil _).symm, hledger⟩

/-- Another event is logged. -/
theorem logged {event : SessionEventEnvelope}
    (hid : core'.session.agentSessionId = core.session.agentSessionId)
    (hledger : core'.session.tokenLedger = core.session.tokenLedger)
    (hlog : core'.log = core.log ++ [event]) (hevent : loggedLedger event = none) :
    Accounted core' := by
  rw [Accounted, hid, hledger, hlog, filterMap_append, filterMap_cons_none hevent, filterMap_nil,
    append_nil]
  exact h

/-- Removals are other events. -/
theorem removeLogged (turnId : TurnId) (ids : List MessageId) :
    Accounted (ids.foldl (Core.removeLogged turnId) core) := by
  induction ids generalizing core with
  | nil => exact h
  | cons id ids ih => exact ih (h.logged rfl rfl rfl rfl)

/-- **Step lemma.** -/
theorem change (change : Change) (hA : Logging (·.isPlain = true) core change) :
    Accounted (change.apply core) := by
  cases change with
  | log turnId toolCallId event =>
    exact h.logged rfl rfl rfl (by cases event <;> first | rfl | cases hA)
  | push | edit => exact h.logged rfl rfl rfl rfl
  | remove turnId ids => exact h.removeLogged turnId ids
  | commit turnId reason count summary id tail =>
    have hpushed : Accounted (Change.pushLogged core turnId (.system summary id)) :=
      h.logged rfl rfl rfl rfl
    exact hpushed.logged rfl rfl rfl rfl
  | usage turnId step =>
    obtain ⟨lives, steps, hlog, hledger⟩ := h
    refine ⟨lives, steps ++ [step], filterMap_append.trans ?_, ?_⟩
    · change core.log.filterMap loggedLedger ++ [⟨core.session.agentSessionId, step.phase,
        step.record core.session.tokenLedger⟩] = _
      rw [hlog, hledger, append_assoc]
      exact congrArg _ (ledgerEvents_concat ..).symm
    · rw [foldl_append, ← hledger]
      rfl
  | record | reset | start => exact h
  | rotate => exact h.attach rfl

end Accounted

/-- **Runtimes log one life after the other**, if the store accepts all events. -/
theorem recorded_of_run {env : Env} (hstore : ∀ now envelope, env.store now envelope = .ok ())
    {rt : AgentRuntime} (h : Recorded rt.log lives) (hledger : rt.session.tokenLedger = {})
    {ops : List ProviderOp} (hops : ∀ op ∈ ops, ∀ event ∈ op.logged, event.isPlain = true) :
    ∃ lives, Recorded (ops.foldl (ProviderOp.step env) rt).log lives := by
  have hinvariant : ProviderInvariant env (·.isPlain = true) Accounted :=
    { plain := fun _ h => h
      change := fun _ change hA _ h => h.change change hA
      interrupted := fun _ _ event _ _ hrejects => absurd hrejects (Env.not_rejects hstore event)
      attach := fun _ _ _ _ hledger h => h.attach hledger }
  have hstart : Accounted rt.core := ⟨lives, [], h.trans (append_nil _).symm, hledger⟩
  exact (hinvariant.foldl ops hops hstart).recorded

/-! ### Latest ledgers -/

/-- The last element of lists that are not empty, one after the other. -/
theorem getLast?_flatMap {α β : Type} {f : α → List β} (hf : ∀ x, f x ≠ []) (xs : List α) :
    (xs.flatMap f).getLast? = xs.getLast?.bind fun x => (f x).getLast? := by
  induction xs using reverseRecOn with
  | nil => rfl
  | append_singleton xs x =>
    rw [flatMap_append, flatMap_singleton, getLast?_append_of_ne_nil _ (hf x),
      getLast?_concat, bind_some]

theorem usageLedger_cases (event : SessionEventEnvelope) :
    (usageLedger event = none ∧ [event].filterMap loggedLedger = []) ∨
      ∃ phase ledger, usageLedger event = some ledger ∧
        [event].filterMap loggedLedger = [⟨event.agentSessionId, phase, ledger⟩] := by
  cases hevent : event.event <;> simp [usageLedger, loggedLedger, hevent]

theorem latestTokenUsageSnapshot_eq (log : List SessionEventEnvelope) :
    latestTokenUsageSnapshot log = (log.filterMap loggedLedger).getLast?.map (·.ledger) := by
  induction log using reverseRecOn with
  | nil => rfl
  | append_singleton log event ih =>
    rw [latestTokenUsageSnapshot_append, ih]
    rcases usageLedger_cases event with ⟨hledger, hlogged⟩ | ⟨phase, ledger, hledger, hlogged⟩ <;>
      simp [hledger, hlogged]

/-- The latest ledger of a log has the usage of the last life. -/
theorem Recorded.latestTokenUsageSnapshot (h : Recorded log lives) :
    (latestTokenUsageSnapshot log).map (·.cumulativeUsage) =
      lives.getLast?.map fun life => .total life.calls := by
  rw [latestTokenUsageSnapshot_eq, h, getLast?_flatMap Life.events_ne_nil, Option.map_map]
  cases lives.getLast? with
  | none => rfl
  | some life => exact life.last_ledger

/-! ### The latest ledger of every agent session -/

/-- Some life of the agent session is among the lives. -/
def LivesIn (agentSessionId : AgentSessionId) (lives : List Life) : Prop :=
  ∃ life ∈ lives, life.agentSessionId = agentSessionId

instance (agentSessionId : AgentSessionId) (lives : List Life) :
    Decidable (LivesIn agentSessionId lives) := by
  unfold LivesIn
  infer_instance

/-- The lives that are the last of their agent session. -/
def keptLives : List Life → List Life
  | [] => []
  | life :: later =>
    if LivesIn life.agentSessionId later then keptLives later else life :: keptLives later

/-- The lives after which their agent session is taken up again. -/
def replacedLives : List Life → List Life
  | [] => []
  | life :: later =>
    if LivesIn life.agentSessionId later then life :: replacedLives later else replacedLives later

/-- Every life is kept or replaced. -/
theorem keptLives_append_replacedLives (lives : List Life) :
    (keptLives lives ++ replacedLives lives).Perm lives := by
  induction lives with
  | nil => exact .refl _
  | cons life later ih =>
    rw [keptLives, replacedLives]
    split
    · exact perm_middle.trans (ih.cons life)
    · exact ih.cons life

variable {life : Life} {event : SessionEventEnvelope} {agentId : AgentId}
  {events : List SessionEventEnvelope} {sessionId : SessionId}

/-- A kept life is the last one of its agent session. -/
theorem mem_keptLives : life ∈ keptLives lives ↔
      (lives.filter fun other => decide (other.agentSessionId = life.agentSessionId)).getLast? =
        some life := by
  induction lives with
  | nil => simp [keptLives]
  | cons first later ih =>
    rw [keptLives]
    by_cases hfirst : first.agentSessionId = life.agentSessionId
    · have hlives : LivesIn life.agentSessionId later ↔ (later.filter fun other =>
          decide (other.agentSessionId = life.agentSessionId)) ≠ [] := by
        simp [LivesIn]
      rw [filter_cons_of_pos (by simpa using hfirst), hfirst]
      simp only [hlives]
      generalize later.filter _ = others at ih
      cases others with
      | nil => simp [ih, eq_comm]
      | cons => simp [ih]
    · rw [filter_cons_of_neg (by simpa using hfirst), ← ih]
      split
      · rfl
      · rw [mem_cons, or_iff_right]
        rintro rfl
        exact hfirst rfl

theorem nodup_keptLives (lives : List Life) : ((keptLives lives).map (·.agentSessionId)).Nodup := by
  induction lives with
  | nil => exact nodup_nil
  | cons life later ih =>
    rw [keptLives]
    split
    · exact ih
    next hlast =>
      refine nodup_cons.mpr ⟨fun hmem => ?_, ih⟩
      obtain ⟨other, hother, hsame⟩ := mem_map.mp hmem
      have hmem := (keptLives_append_replacedLives _).subset (mem_append_left _ hother)
      exact hlast ⟨other, hmem, hsame⟩

/-- The latest ledger of an agent session is its last one. -/
theorem get_latestLedgers {ν : Type} (g : TokenLedgerSnapshot → ν)
    (log : List SessionEventEnvelope) (agentSessionId : AgentSessionId) :
    (latestLedgers g log).get agentSessionId = (((log.filterMap loggedLedger).filter fun event =>
        decide (event.agentSessionId = agentSessionId)).getLast?.map
          fun event => g event.ledger) := by
  induction log using reverseRecOn with
  | nil => rfl
  | append_singleton log event ih =>
    rw [latestLedgers_append, filterMap_append, filter_append]
    rcases usageLedger_cases event with ⟨hledger, hlogged⟩ | ⟨phase, ledger, hledger, hlogged⟩
    · rw [hledger, hlogged, filter_nil, append_nil]
      exact ih
    · rw [hledger, hlogged, OrdMap.get_insert, ih]
      by_cases hsame : agentSessionId = event.agentSessionId
      · subst hsame
        simp
      · simp [hsame, Ne.symm hsame]

theorem filter_flatMap_events (lives : List Life) (agentSessionId : AgentSessionId) :
    ((lives.flatMap Life.events).filter fun event =>
        decide (event.agentSessionId = agentSessionId)) =
      (lives.filter fun life => decide (life.agentSessionId = agentSessionId)).flatMap
        Life.events := by
  induction lives with
  | nil => rfl
  | cons life lives ih =>
    rw [flatMap_cons, filter_append, ih]
    by_cases hsame : life.agentSessionId = agentSessionId
    · rw [filter_cons_of_pos (by simpa using hsame), flatMap_cons, filter_eq_self.mpr]
      intro event hevent
      simpa [Life.agentSessionId_of_mem_events hevent] using hsame
    · rw [filter_cons_of_neg (by simpa using hsame), filter_eq_nil_iff.mpr, nil_append]
      intro event hevent
      simpa [Life.agentSessionId_of_mem_events hevent] using hsame

/-- **The latest ledgers of the agent sessions** have the usage of the lives that are kept. -/
theorem Recorded.entries_perm (h : Recorded log lives) :
    (latestLedgers (·.cumulativeUsage) log).entries.Perm
      ((keptLives lives).map fun life => (life.agentSessionId, .total life.calls)) := by
  have hget : ∀ a, (latestLedgers (·.cumulativeUsage) log).get a =
      ((lives.filter fun life => decide (life.agentSessionId = a)).getLast?).map fun life =>
        .total life.calls := by
    intro a
    rw [get_latestLedgers, h, filter_flatMap_events, getLast?_flatMap Life.events_ne_nil]
    cases (lives.filter fun life => decide (life.agentSessionId = a)).getLast? with
    | none => rfl
    | some life => exact life.last_ledger
  refine (perm_ext_iff_of_nodup ?_ ?_).mpr fun (a, usage) => ?_
  · exact (latestLedgers (·.cumulativeUsage) log).sorted.nodup_keys.of_map
  · refine List.Nodup.of_map Prod.fst ?_
    rw [List.map_map]
    exact nodup_keptLives lives
  · rw [OrdMap.mem_entries, hget, map_eq_some_iff, List.mem_map]
    refine exists_congr fun life => ?_
    rw [mem_keptLives]
    constructor
    · rintro ⟨hlast, rfl⟩
      have hsame := of_decide_eq_true (mem_filter.mp (mem_of_getLast? hlast)).2
      rw [hsame]
      exact ⟨hlast, rfl⟩
    · rintro ⟨hlast, hpair⟩
      cases hpair
      exact ⟨hlast, rfl⟩

/-! ### Children -/

/-- The child that an event names, with its session. -/
def namedChild (event : SessionEventEnvelope) : Option (AgentId × SessionId) :=
  match event.event with
  | .activity (.subagentStart handle _) => some (handle.agentId, handle.sessionId)
  | .activity (.subagentStop handle _ _) => some (handle.agentId, handle.sessionId)
  | .activity (.agentEnvelope envelope) => some (envelope.agentId, envelope.sessionId)
  | _ => none

/-- **Every child has a session of its own**, and none that of its parent. -/
structure ChildrenApart (sessionId : SessionId) (events : List SessionEventEnvelope) : Prop where
  own : ∀ child ∈ events.filterMap namedChild, ∀ other ∈ events.filterMap namedChild,
    child.1 = other.1 ↔ child.2 = other.2
  notParent : ∀ child ∈ events.filterMap namedChild, child.2 ≠ sessionId

/-- The sessions that a report is about, each one once. -/
def reportedSessions (sessionId : SessionId) (events : List SessionEventEnvelope) :
    List SessionId :=
  (sessionId :: (events.filterMap namedChild).map Prod.snd).dedup

theorem childContextUpdate_eq_none : childContextUpdate event = none ↔ namedChild event = none := by
  unfold childContextUpdate namedChild
  split <;> simp_all

/-- What an event tells about a child: it names its session. -/
theorem childContextUpdate_spec
    {update : ChildSessionTokenUsageContext → ChildSessionTokenUsageContext}
    (h : childContextUpdate event = some (agentId, update)) :
    ∃ sessionId, namedChild event = some (agentId, sessionId) ∧
      ∀ context : ChildSessionTokenUsageContext,
        context.sessionId = none ∨ context.sessionId = some sessionId →
          (update context).sessionId = some sessionId := by
  unfold childContextUpdate at h
  split at h <;> cases h
  · exact ⟨_, by simp [namedChild, *], fun _ _ => rfl⟩
  · exact ⟨_, by simp [namedChild, *], fun _ _ => rfl⟩
  next envelope hevent =>
    refine ⟨envelope.sessionId, by simp [namedChild, hevent], fun context hcontext => ?_⟩
    have hsession : context.sessionId.or (some envelope.sessionId) = some envelope.sessionId := by
      rcases hcontext with h | h <;> simp [h]
    unfold ChildSessionTokenUsageContext.ofEnvelope
    split <;> exact hsession

theorem childContextsByAgent_append (events : List SessionEventEnvelope)
    (event : SessionEventEnvelope) :
    childContextsByAgent (events ++ [event]) =
      match childContextUpdate event with
      | some (agentId, update) => (childContextsByAgent events).alter agentId.value fun context =>
        some (update (context.getD {}))
      | none => childContextsByAgent events := by
  unfold childContextsByAgent
  cases h : childContextUpdate event <;> simp [h]

/-- What is collected for an agent: the session that the events name. -/
def CollectsSession (events : List SessionEventEnvelope) (agentId : AgentId) :
    Option ChildSessionTokenUsageContext → Prop
  | none => ∀ sessionId, (agentId, sessionId) ∉ events.filterMap namedChild
  | some context => ∃ sessionId, context.sessionId = some sessionId ∧
      (agentId, sessionId) ∈ events.filterMap namedChild

theorem CollectsSession.of_iff {events events' : List SessionEventEnvelope}
    {found : Option ChildSessionTokenUsageContext} (h : CollectsSession events agentId found)
    (hiff : ∀ session, (agentId, session) ∈ events.filterMap namedChild ↔
      (agentId, session) ∈ events'.filterMap namedChild) :
    CollectsSession events' agentId found := by
  cases found <;> simpa only [CollectsSession, ← hiff] using h

/-- **The session that is collected for an agent** is the one the events name. -/
theorem collectsSession
    (hown : ∀ child ∈ events.filterMap namedChild, ∀ other ∈ events.filterMap namedChild,
      child.1 = other.1 → child.2 = other.2) (agentId : AgentId) :
    CollectsSession events agentId ((childContextsByAgent events).get agentId.value) := by
  induction events using reverseRecOn with
  | nil => exact fun _ h => by cases h
  | append_singleton events event ih =>
    have hbefore : ∀ {child}, child ∈ events.filterMap namedChild →
        child ∈ (events ++ [event]).filterMap namedChild := fun h => by
      rw [filterMap_append]
      exact mem_append_left _ h
    specialize ih fun child hchild other hother => hown _ (hbefore hchild) _ (hbefore hother)
    rw [childContextsByAgent_append]
    cases hupdate : childContextUpdate event with
    | none =>
      have hnone := childContextUpdate_eq_none.mp hupdate
      refine ih.of_iff fun session => ?_
      simp [hnone]
    | some child =>
      obtain ⟨named, update⟩ := child
      obtain ⟨sessionId, hchild, hsession⟩ := childContextUpdate_spec hupdate
      have hnamed : (events ++ [event]).filterMap namedChild =
          events.filterMap namedChild ++ [(named, sessionId)] := by
        simp [hchild]
      have hlast : (named, sessionId) ∈ (events ++ [event]).filterMap namedChild := by
        rw [hnamed]
        simp
      rw [OrdMap.get_alter]
      by_cases hagent : agentId.value = named.value
      · obtain rfl : agentId = named := by
          cases agentId
          cases named
          exact congrArg AgentId.mk hagent
        rw [if_pos rfl]
        refine ⟨sessionId, hsession _ ?_, hlast⟩
        -- What was collected before is nothing or the same session.
        cases hget : (childContextsByAgent events).get agentId.value with
        | none => exact .inl rfl
        | some context =>
          rw [hget] at ih
          obtain ⟨earlier, hearlier, hmem⟩ := ih
          have hsame : earlier = sessionId := hown _ (hbefore hmem) _ hlast rfl
          exact .inr (hsame ▸ hearlier)
      · rw [if_neg hagent]
        refine ih.of_iff fun session => ?_
        have hother : agentId ≠ named := fun h => hagent (h ▸ rfl)
        simp [hnamed, hother]

/-- **The sessions of the children are collected once each.** -/
theorem ChildrenApart.contexts_perm (h : ChildrenApart sessionId events) :
    ((collectChildRunTokenUsageContexts events).map (·.sessionId)).Perm
      ((events.filterMap namedChild).map Prod.snd).dedup := by
  have hcollects := collectsSession fun child hchild other hother =>
    (h.own child hchild other hother).mp
  have hsessions : ((childContextsByAgent events).values.filterMap (·.resolve)).map (·.sessionId) =
      (childContextsByAgent events).keys.filterMap fun key =>
        ((childContextsByAgent events).get key).bind (·.sessionId) := by
    rw [← OrdMap.filterMap_entries fun entry : String × ChildSessionTokenUsageContext =>
      entry.2.sessionId, OrdMap.values,
      filterMap_map, map_filterMap]
    refine filterMap_congr fun entry _ => ?_
    simp [ChildSessionTokenUsageContext.resolve, Function.comp_def]
  have hget : ∀ {key session},
      ((childContextsByAgent events).get key).bind (·.sessionId) = some session ↔
        (⟨key⟩, session) ∈ events.filterMap namedChild := by
    intro key session
    have hcollected := hcollects ⟨key⟩
    cases hcontext : (childContextsByAgent events).get key with
    | none =>
      rw [hcontext] at hcollected
      simpa using hcollected session
    | some context =>
      rw [hcontext] at hcollected
      obtain ⟨named, hnamed, hmem⟩ := hcollected
      rw [bind_some, hnamed, some_inj]
      exact ⟨fun hsame => hsame ▸ hmem, fun hsession => (h.own _ hmem _ hsession).mp rfl⟩
  have hperm := (perm_insertionSort (fun left right => (compareContexts left right).isLE = true)
    ((childContextsByAgent events).values.filterMap (·.resolve))).map (·.sessionId)
  refine hperm.trans ?_
  rw [hsessions]
  refine (perm_ext_iff_of_nodup ?_ (nodup_dedup _)).mpr fun session => ?_
  · refine .filterMap (fun key key' session hkey hkey' => ?_)
      (childContextsByAgent events).sorted.nodup_keys
    have hsame := (h.own _ (hget.mp hkey) _ (hget.mp hkey')).mpr rfl
    exact congrArg AgentId.value hsame
  · rw [mem_filterMap, mem_dedup, List.mem_map]
    constructor
    · rintro ⟨key, -, hsession⟩
      exact ⟨_, hget.mp hsession, rfl⟩
    · rintro ⟨⟨⟨key⟩, session⟩, hmem, rfl⟩
      obtain ⟨context, hcontext, -⟩ := bind_eq_some_iff.mp (hget.mpr hmem)
      exact ⟨key, OrdMap.mem_keys.mpr (by rw [hcontext]; rfl), hget.mpr hmem⟩

/-! ### What the report adds up to -/

section Report

variable {events : SessionId → Except SessionStoreError (List SessionEventEnvelope)}
  {rootEvents : List SessionEventEnvelope} {lives : SessionId → List Life}

/-- The events of a session that has a log. -/
def logOf (events : SessionId → Except SessionStoreError (List SessionEventEnvelope))
    (sessionId : SessionId) : List SessionEventEnvelope :=
  (events sessionId).toOption.getD []

/-- The usage of all recorded model calls of a session and its children. -/
def allCalls (events : SessionId → Except SessionStoreError (List SessionEventEnvelope))
    (sessionId : SessionId) (rootEvents : List SessionEventEnvelope) : List TokenUsage :=
  (reportedSessions sessionId rootEvents).flatMap fun s => recordedCalls (logOf events s)

/-- The sessions of the children, each one once. -/
def childSessions (rootEvents : List SessionEventEnvelope) : List SessionId :=
  ((rootEvents.filterMap namedChild).map Prod.snd).dedup

/-- The lives that a report counts. -/
def countedLives (lives : SessionId → List Life) (sessionId : SessionId)
    (rootEvents : List SessionEventEnvelope) : List Life :=
  keptLives (lives sessionId) ++
    (childSessions rootEvents).flatMap fun s => (lives s).getLast?.toList

/-- The lives that a report does not count. -/
def lostLives (lives : SessionId → List Life) (sessionId : SessionId)
    (rootEvents : List SessionEventEnvelope) : List Life :=
  replacedLives (lives sessionId) ++ (childSessions rootEvents).flatMap fun s => (lives s).dropLast

/-- The tokens that some lives used. -/
def tokensUsed (counter : TokenCounter) (lives : List Life) : ℕ :=
  ((lives.flatMap Life.calls).map (·.counter counter)).sum

variable (counter : TokenCounter)

theorem tokensUsed_append (lives later : List Life) :
    tokensUsed counter (lives ++ later) = tokensUsed counter lives + tokensUsed counter later := by
  simp [tokensUsed]

theorem tokensUsed_perm {lives lives' : List Life} (h : lives.Perm lives') :
    tokensUsed counter lives = tokensUsed counter lives' :=
  ((h.flatMap_right _).map _).sum_eq

theorem min_sum_counter_total (lives : List Life) :
    min (lives.map fun life => (TokenUsage.total life.calls).counter counter).sum counterMax =
      min (tokensUsed counter lives) counterMax := by
  have hsum : tokensUsed counter lives =
      (lives.map fun life => (life.calls.map (·.counter counter)).sum).sum := by
    simp [tokensUsed, List.flatMap, sum_flatten, Function.comp_def]
  have hcut : min ((lives.map fun life => (life.calls.map (·.counter counter)).sum).map
      fun used => min used counterMax).sum counterMax = _ := Saturating.sum_min _
  rw [hsum, ← hcut, List.map_map]
  simp only [TokenUsage.counter_total]
  rfl

/-- The usage of the session itself: the lives that are kept. -/
theorem Recorded.counter_session {lives : List Life} (h : Recorded log lives)
    (counter : TokenCounter) :
    (((sessionTokenUsageSnapshot log).map TokenLedgerSnapshot.cumulativeUsage).getD {}).counter
        counter =
      min (tokensUsed counter (keptLives lives)) counterMax := by
  have hvalues : aggregateTokenUsage (latestLedgers id log).values =
      .total ((latestLedgers TokenLedgerSnapshot.cumulativeUsage log).entries.map Prod.snd) := by
    rw [latestLedgers_eq_map TokenLedgerSnapshot.cumulativeUsage, aggregateTokenUsage,
      TokenUsage.total, ← OrdMap.values, OrdMap.values_map, foldl_map]
  have hsession :
      ((sessionTokenUsageSnapshot log).map TokenLedgerSnapshot.cumulativeUsage).getD {} =
        .total ((latestLedgers TokenLedgerSnapshot.cumulativeUsage log).entries.map Prod.snd) := by
    rw [sessionTokenUsageSnapshot, ← hvalues]
    cases hlatest : Nanoclaw.latestTokenUsageSnapshot log with
    | some ledger => rfl
    | none =>
      have hnil : log.filterMap loggedLedger = [] := by
        rw [latestTokenUsageSnapshot_eq, map_eq_none_iff, getLast?_eq_none_iff] at hlatest
        exact hlatest
      have hempty : latestLedgers id log = .empty := OrdMap.ext fun a => by
        rw [get_latestLedgers, hnil]
        rfl
      rw [hempty]
      rfl
  rw [hsession, TokenUsage.counter_total, ← min_sum_counter_total,
    ((h.entries_perm.map Prod.snd).map (·.counter counter)).sum_eq, List.map_map, List.map_map]
  rfl

/-- The last life of every session and those before it. -/
theorem tokensUsed_getLast_add_dropLast (lives : SessionId → List Life)
    (sessions : List SessionId) :
    tokensUsed counter (sessions.flatMap fun s => (lives s).getLast?.toList) +
        tokensUsed counter (sessions.flatMap fun s => (lives s).dropLast) =
      tokensUsed counter (sessions.flatMap lives) := by
  induction sessions with
  | nil => rfl
  | cons s sessions ih =>
    have hone : tokensUsed counter (lives s).getLast?.toList +
        tokensUsed counter (lives s).dropLast = tokensUsed counter (lives s) := by
      rcases eq_nil_or_concat (lives s) with hnil | ⟨before, last, hlast⟩
      · rw [hnil]
        rfl
      · rw [hlast, concat_eq_append, getLast?_concat, dropLast_concat,
          tokensUsed_append, add_comm]
        rfl
    simp only [flatMap_cons, tokensUsed_append]
    omega

section

variable (hroot : events sessionId = .ok rootEvents) (hapart : ChildrenApart sessionId rootEvents)
  (hrecorded : ∀ s log, events s = .ok log → Recorded log (lives s))
  (hlogs : ∀ s ∈ childSessions rootEvents, ∃ log, events s = .ok log)

include hroot hapart hrecorded hlogs

/-- **What the report adds up to**: the lives that it counts. -/
theorem counter_aggregateUsage : ∃ report, tokenUsage events sessionId = .ok report ∧ ∀ counter,
      report.aggregateUsage.counter counter =
        min (tokensUsed counter (countedLives lives sessionId rootEvents)) counterMax := by
  have hlog : ∀ context ∈ collectChildRunTokenUsageContexts rootEvents,
      events context.sessionId = .ok (logOf events context.sessionId) := by
    intro context hcontext
    obtain ⟨log, hlog⟩ := hlogs context.sessionId
      (hapart.contexts_perm.subset (mem_map_of_mem hcontext))
    rw [logOf, hlog]
    rfl
  refine ⟨usageReport sessionId rootEvents ((collectChildRunTokenUsageContexts rootEvents).map
    fun context => (context, latestTokenUsageSnapshot (logOf events context.sessionId))), ?_,
    fun counter => ?_⟩
  · rw [tokenUsage, hroot]
    dsimp only [bind, Except.bind]
    rw [Proc.except_mapM_eq fun context hcontext => congrArg (Except.map _) (hlog context hcontext)]
    rfl
  · have hchildren : ((((collectChildRunTokenUsageContexts rootEvents).map fun context =>
        (context, latestTokenUsageSnapshot (logOf events context.sessionId))).filterMap
          fun child => child.2.map (child.1, ·)).map (·.2.cumulativeUsage)).Perm
        (((childSessions rootEvents).flatMap fun s => (lives s).getLast?.toList).map
          fun life => .total life.calls) := by
      have hflat : ((childSessions rootEvents).flatMap fun s => (lives s).getLast?.toList).map
          (fun life => TokenUsage.total life.calls) = (childSessions rootEvents).filterMap fun s =>
              (lives s).getLast?.map fun life => .total life.calls := by
        rw [← filterMap_eq_flatMap_toList, map_filterMap]
      rw [hflat, filterMap_map, map_filterMap]
      refine .trans (.of_eq ?_) (hapart.contexts_perm.filterMap _)
      rw [filterMap_map]
      refine filterMap_congr fun context hcontext => ?_
      rw [Function.comp_apply, Function.comp_apply,
        ← (hrecorded _ _ (hlog context hcontext)).latestTokenUsageSnapshot, Option.map_map]
      rfl
    have hsession := (hrecorded _ _ hroot).counter_session counter
    rw [usageReport]
    rw [← foldl_map (f := fun child : ResolvedChildSessionTokenUsageContext ×
      TokenLedgerSnapshot => child.2.cumulativeUsage), Option.map_map]
    refine (TokenUsage.counter_foldl_accumulate (hsession.trans_le (min_le_right _ _)) _).trans ?_
    have hlasts := min_sum_counter_total counter
      ((childSessions rootEvents).flatMap fun s => (lives s).getLast?.toList)
    rw [(hchildren.map (·.counter counter)).sum_eq, List.map_map, countedLives, tokensUsed_append]
    simp only [Function.comp_def]
    omega

/-- Every call is counted or lost. -/
theorem tokensUsed_countedLives_add (counter : TokenCounter) :
    tokensUsed counter (countedLives lives sessionId rootEvents) +
        tokensUsed counter (lostLives lives sessionId rootEvents) =
      ((allCalls events sessionId rootEvents).map (·.counter counter)).sum := by
  have hcalls : ∀ s, (∃ log, events s = .ok log) →
      recordedCalls (logOf events s) = (lives s).flatMap Life.calls := by
    rintro s ⟨log, hlog⟩
    rw [logOf, hlog]
    exact (hrecorded s log hlog).recordedCalls
  have hsessions : reportedSessions sessionId rootEvents =
      sessionId :: childSessions rootEvents := by
    refine dedup_cons_of_notMem fun hmem => ?_
    obtain ⟨child, hchild, hsame⟩ := mem_map.mp hmem
    exact hapart.notParent child hchild hsame
  have hall : allCalls events sessionId rootEvents =
      (lives sessionId ++ (childSessions rootEvents).flatMap lives).flatMap Life.calls := by
    rw [allCalls, hsessions, flatMap_cons, hcalls sessionId ⟨_, hroot⟩, flatMap_append,
      flatMap_assoc]
    exact congrArg _ (flatMap_congr fun s hs => hcalls s (hlogs s hs))
  have hroots := tokensUsed_perm counter (keptLives_append_replacedLives (lives sessionId))
  have hchildren := tokensUsed_getLast_add_dropLast counter lives (childSessions rootEvents)
  rw [tokensUsed_append] at hroots
  rw [hall]
  change _ = tokensUsed counter _
  rw [countedLives, lostLives, tokensUsed_append, tokensUsed_append, tokensUsed_append]
  omega

end

/-- **Every model call is counted exactly once if and only if** every child has a log and no lost
life used tokens, up to counters at their largest value. -/
theorem token_usage_counts_all_calls_iff (hroot : events sessionId = .ok rootEvents)
    (hapart : ChildrenApart sessionId rootEvents)
    (hrecorded : ∀ s log, events s = .ok log → Recorded log (lives s)) :
    (∃ report, tokenUsage events sessionId = .ok report ∧
        report.aggregateUsage = .total (allCalls events sessionId rootEvents)) ↔
      (∀ s ∈ childSessions rootEvents, ∃ log, events s = .ok log) ∧
        ∀ counter, tokensUsed counter (lostLives lives sessionId rootEvents) = 0 ∨
          counterMax ≤ tokensUsed counter (countedLives lives sessionId rootEvents) := by
  have hread : ∀ report, tokenUsage events sessionId = .ok report →
      ∀ s ∈ childSessions rootEvents, ∃ log, events s = .ok log := by
    intro report hreport s hs
    obtain ⟨context, hcontext, rfl⟩ := mem_map.mp (hapart.contexts_perm.symm.subset hs)
    rw [tokenUsage, hroot] at hreport
    obtain ⟨_, ⟨⟩, hreport⟩ := Proc.except_bind_eq_ok.mp hreport
    obtain ⟨records, hrecords, -⟩ := Proc.except_bind_eq_ok.mp hreport
    obtain ⟨record, -, hrecord⟩ := Proc.exists_of_except_mapM hrecords hcontext
    cases hevents : events context.sessionId with
    | ok log => exact ⟨log, rfl⟩
    | error error =>
      rw [hevents] at hrecord
      cases hrecord
  have hiff : ∀ report, tokenUsage events sessionId = .ok report →
      (report.aggregateUsage = .total (allCalls events sessionId rootEvents) ↔
        ∀ counter, tokensUsed counter (lostLives lives sessionId rootEvents) = 0 ∨
          counterMax ≤ tokensUsed counter (countedLives lives sessionId rootEvents)) := by
    intro report hreport
    have hlogs := hread report hreport
    obtain ⟨report', hreport', hcounter⟩ := counter_aggregateUsage hroot hapart hrecorded hlogs
    obtain rfl : report' = report := Except.ok.inj (hreport'.symm.trans hreport)
    have hcounters : report'.aggregateUsage = .total (allCalls events sessionId rootEvents) ↔
        ∀ counter, report'.aggregateUsage.counter counter =
          (TokenUsage.total (allCalls events sessionId rootEvents)).counter counter :=
      ⟨fun h _ => by rw [h], TokenUsage.ext_counter⟩
    rw [hcounters]
    refine forall_congr' fun counter => ?_
    rw [hcounter, TokenUsage.counter_total,
      ← tokensUsed_countedLives_add hroot hapart hrecorded hlogs]
    omega
  constructor
  · rintro ⟨report, hreport, htotal⟩
    exact ⟨hread report hreport, (hiff report hreport).mp htotal⟩
  · rintro ⟨hlogs, hlost⟩
    obtain ⟨report, hreport, -⟩ := counter_aggregateUsage hroot hapart hrecorded hlogs
    exact ⟨report, hreport, (hiff report hreport).mpr hlost⟩

end Report

/-! ### A child, and a child that was compacted -/

/-- The log of some lives. -/
def logOfLives (sessionId : SessionId) (lives : List Life) : List SessionEventEnvelope :=
  (lives.flatMap Life.events).map fun event =>
    { sessionId
      agentSessionId := event.agentSessionId
      turnId := none
      toolCallId := none
      event := .tokenUsageUpdated event.phase event.ledger }

theorem recorded_logOfLives (sessionId : SessionId) (lives : List Life) :
    Recorded (logOfLives sessionId lives) lives := by
  rw [Recorded, logOfLives, filterMap_map]
  exact filterMap_some

/-- A model call in an agent session. -/
def callLife (agentSessionId : String) (inputTokens : ℕ) : Life where
  agentSessionId := ⟨agentSessionId⟩
  steps := [.request ⟨0, 100⟩, .response (some { inputTokens })]
  nonempty := cons_ne_nil _ _

/-- The log of a session that started a child. -/
def spawnLog : List SessionEventEnvelope :=
  [{ sessionId := ⟨"root"⟩
     agentSessionId := ⟨"a"⟩
     turnId := none
     toolCallId := none
     event := .activity (.subagentStart
       { agentId := ⟨"agent"⟩, sessionId := ⟨"child"⟩, agentSessionId := ⟨"c1"⟩,
         taskId := ⟨"task"⟩, role := "worker", status := .running }
       { taskId := ⟨"task"⟩, role := "worker", prompt := "" }) }]

theorem childrenApart_spawnLog : ChildrenApart ⟨"root"⟩ spawnLog := by
  have hnamed : spawnLog.filterMap namedChild = [(⟨"agent"⟩, ⟨"child"⟩)] := rfl
  constructor <;> simp [hnamed]

/-- The lives of the child; the session itself called no model. -/
def childLives (lives : List Life) (sessionId : SessionId) : List Life :=
  if sessionId = ⟨"child"⟩ then lives else []

/-- A store with a session and its child. -/
def storeOfChild (lives : List Life) (sessionId : SessionId) :
    Except SessionStoreError (List SessionEventEnvelope) :=
  if sessionId = ⟨"root"⟩ then .ok spawnLog
  else if sessionId = ⟨"child"⟩ then .ok (logOfLives ⟨"child"⟩ lives)
  else .error (.sessionNotFound sessionId)

theorem recorded_storeOfChild (lives : List Life) (s : SessionId)
    (log : List SessionEventEnvelope) (h : storeOfChild lives s = .ok log) :
    Recorded log (childLives lives s) := by
  unfold storeOfChild at h
  split_ifs at h with hroot hchild <;> cases h
  · subst hroot
    rfl
  · rw [childLives, if_pos hchild]
    exact recorded_logOfLives _ _

theorem token_usage_counts_calls_of_child :
    ∃ report, tokenUsage (storeOfChild [callLife "c1" 5]) ⟨"root"⟩ = .ok report ∧
      report.aggregateUsage =
        .total (allCalls (storeOfChild [callLife "c1" 5]) ⟨"root"⟩ spawnLog) :=
  have hsessions : childSessions spawnLog = [⟨"child"⟩] := by decide +kernel
  (token_usage_counts_all_calls_iff rfl childrenApart_spawnLog
    (recorded_storeOfChild [callLife "c1" 5])).mpr ⟨fun s hs => by
        rw [hsessions, mem_singleton] at hs
        exact ⟨_, by rw [hs]; rfl⟩,
      fun counter => .inl (by cases counter <;> decide +kernel)⟩

/-- A child used five and three tokens around a compaction: three are reported. -/
theorem token_usage_loses_calls_before_compaction : ChildrenApart ⟨"root"⟩ spawnLog ∧
      Recorded (logOfLives ⟨"child"⟩ [callLife "c1" 5, callLife "c2" 3])
        [callLife "c1" 5, callLife "c2" 3] ∧
      ¬ ∃ report, tokenUsage (storeOfChild [callLife "c1" 5, callLife "c2" 3]) ⟨"root"⟩ =
          .ok report ∧
        report.aggregateUsage = .total (allCalls
          (storeOfChild [callLife "c1" 5, callLife "c2" 3]) ⟨"root"⟩ spawnLog) := by
  refine ⟨childrenApart_spawnLog, recorded_logOfLives _ _, ?_⟩
  rintro ⟨report, hreport, htotal⟩
  have hreported : (tokenUsage (storeOfChild [callLife "c1" 5, callLife "c2" 3])
      ⟨"root"⟩).toOption.map (·.aggregateUsage) = some { inputTokens := 3 } := by decide +kernel
  have hused : TokenUsage.total (allCalls (storeOfChild [callLife "c1" 5, callLife "c2" 3])
      ⟨"root"⟩ spawnLog) = { inputTokens := 8 } := by decide +kernel
  rw [hreport] at hreported
  have := (some.inj hreported).symm.trans htotal
  cases this

end Nanoclaw
