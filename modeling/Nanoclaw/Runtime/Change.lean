import Nanoclaw.Runtime.Session

/-!
# What a Runtime Method Can Do to the Session and Its Log

Every method changes the session and the log through a handful of critical sections, which
`Change` names. `Change.apply` says what each does when the store accepts its events, and
`Change.Interrupted` what is left when the store rejects one of them in the middle.

`Steps A` relates two states by a sequence of changes, each valid and allowed by `A` where it
happens. `Aborts A R` adds at most one change that was interrupted by an event the store may
reject, `R`. A method is specified once by these relations; invariants are proved over changes.
-/

namespace Nanoclaw

open List

/-- The part of the runtime state that methods change through `Change`s. -/
structure Core where
  session : RuntimeSession
  log : List SessionEventEnvelope
  continuationBase : List Message

namespace Core

/-- The envelope of an event logged now. -/
def envelope (core : Core) (turnId : Option TurnId) (toolCallId : Option ToolCallId)
    (event : SessionEventKind) : SessionEventEnvelope :=
  { sessionId := core.session.sessionId
    agentSessionId := core.session.agentSessionId
    turnId, toolCallId, event }

def append (core : Core) (turnId : Option TurnId) (toolCallId : Option ToolCallId)
    (event : SessionEventKind) : Core :=
  { core with log := core.log ++ [core.envelope turnId toolCallId event] }

def mapSession (core : Core) (f : RuntimeSession → RuntimeSession) : Core :=
  { core with session := f core.session }

/-- Hide one message and log the removal. -/
def removeLogged (turnId : TurnId) (core : Core) (messageId : MessageId) : Core :=
  (core.mapSession (·.removeMessage messageId)).append (some turnId) none
    (.transcriptMessageRemoved messageId)

end Core

/-- What a runtime does to its ledger. -/
inductive UsageStep where
  | request (contextWindow : ContextWindowUsage)
  | response (usage : Option TokenUsage)

namespace UsageStep

/-- When it is made. -/
def phase : UsageStep → TokenUsagePhase
  | .request _ => .requestStarted
  | .response _ => .responseCompleted

/-- `record_request_token_window` and `record_response_token_usage`. -/
def record (ledger : TokenLedgerSnapshot) : UsageStep → TokenLedgerSnapshot
  | .request contextWindow => { ledger with contextWindow := some contextWindow }
  | .response usage =>
    { ledger with
      lastUsage := usage
      cumulativeUsage := match usage with
        | some usage => ledger.cumulativeUsage.accumulate usage
        | none => ledger.cumulativeUsage }

/-- The event that is logged for it. -/
def event (ledger : TokenLedgerSnapshot) (step : UsageStep) : SessionEventKind :=
  .tokenUsageUpdated step.phase (step.record ledger)

end UsageStep

/-- An event about neither the transcript nor the ledger. -/
def SessionEventKind.isPlain : SessionEventKind → Bool
  | .tokenUsageUpdated .. => false
  | event => !event.isTranscriptEvent

theorem SessionEventKind.isTranscriptEvent_of_isPlain (event : SessionEventKind)
    (h : event.isPlain = true) : event.isTranscriptEvent = false := by
  cases event <;> first | rfl | cases h

/-- The critical sections of the runtime's methods. -/
inductive Change where
  | log (turnId : Option TurnId) (toolCallId : Option ToolCallId) (event : SessionEventKind)
  | push (turnId : TurnId) (message : Message)
  | edit (turnId : TurnId) (index : ℕ) (message : Message)
  | remove (turnId : TurnId) (messageIds : List MessageId)
  | commit (turnId : TurnId) (reason : String) (sourceMessageCount : ℕ) (summary : String)
      (summaryMessageId : MessageId) (retainedTailIndices : List ℕ)
  | record (continuation : Option ProviderContinuation)
  | reset
  | usage (turnId : TurnId) (step : UsageStep)
  | start
  | rotate (agentSessionId : AgentSessionId)

namespace Change

/-- Drop the continuation and move the window to a summary. -/
def installSummary (summaryIndex : ℕ) (retainedTailIndices : List ℕ) (core : Core) : Core :=
  (core.mapSession RuntimeSession.clearContinuation).mapSession
    (·.installWindow summaryIndex retainedTailIndices)

/-- The checkpoint event of a compaction made at this state. -/
def checkpointEvent (core : Core) (reason : String) (sourceMessageCount : ℕ) (summary : String)
    (summaryMessageId : MessageId) (retainedTailIndices : List ℕ) : SessionEventKind :=
  .compactionCompleted reason sourceMessageCount retainedTailIndices.length summary.length
    (some summaryMessageId) (retainedTailIndices.filterMap fun i => core.session.ids[i]?)

/-- Append a message and log it. -/
def pushLogged (core : Core) (turnId : TurnId) (message : Message) : Core :=
  (core.mapSession (·.pushMessage message)).append (some turnId) none (.transcriptMessage message)

/-- Do a step to the ledger. -/
def meter (core : Core) (step : UsageStep) : Core :=
  core.mapSession fun session =>
    { session with tokenLedger := step.record session.tokenLedger }

/-- The change when the store accepts all its events. -/
def apply (core : Core) : Change → Core
  | .log turnId toolCallId event => core.append turnId toolCallId event
  | .push turnId message => pushLogged core turnId message
  | .edit turnId index message =>
    ((core.mapSession (·.setMessage index message)).append (some turnId) none
      (.transcriptMessagePatched message.messageId message)).mapSession
        RuntimeSession.clearContinuation
  | .remove turnId messageIds =>
    (messageIds.foldl (Core.removeLogged turnId) core).mapSession RuntimeSession.clearContinuation
  | .commit turnId reason sourceMessageCount summary summaryMessageId retainedTailIndices =>
    (installSummary core.session.transcript.length retainedTailIndices
      (pushLogged core turnId (Message.system summary summaryMessageId))).append (some turnId)
        none (checkpointEvent core reason sourceMessageCount summary summaryMessageId
          retainedTailIndices)
  | .record continuation =>
    { core with
      session := { core.session with
        providerContinuation := continuation
        providerTranscriptCursor := core.session.transcript.length }
      continuationBase := core.session.visibleTranscript }
  | .reset => core.mapSession RuntimeSession.clearContinuation
  | .usage turnId step =>
    (meter core step).append (some turnId) none (step.event core.session.tokenLedger)
  | .start => core.mapSession fun session => { session with agentSessionStarted := true }
  | .rotate agentSessionId =>
    core.mapSession fun session =>
      { session with agentSessionId, agentSessionStarted := false, tokenLedger := {} }

/-- What a method makes sure of before it makes the change. -/
def Valid (core : Core) : Change → Prop
  | .log _ _ event => event.isTranscriptEvent = false
  | .edit _ index message =>
    index ∈ core.session.visibleMessageIndices ∧ core.session.ids[index]? = some message.messageId
  | .remove _ messageIds =>
    ∀ id ∈ messageIds, id ∈ core.session.visibleTranscript.map Message.messageId
  | .commit _ _ _ _ _ retainedTailIndices =>
    ∀ i ∈ retainedTailIndices, i < core.session.transcript.length
  | _ => True

/-- What is left of the change when the store rejects one of its events. -/
inductive Interrupted (core : Core) : Change → SessionEventKind → Core → Prop
  | push {turnId message} : Interrupted core (.push turnId message) (.transcriptMessage message)
        (core.mapSession (·.pushMessage message))
  | edit {turnId index message} : Interrupted core (.edit turnId index message)
        (.transcriptMessagePatched message.messageId message)
        (core.mapSession (·.setMessage index message))
  | remove {turnId done id rest} :
      Interrupted core (.remove turnId (done ++ id :: rest)) (.transcriptMessageRemoved id)
        ((done.foldl (Core.removeLogged turnId) core).mapSession (·.removeMessage id))
  | commitSummary {turnId reason count summary id tail} :
      Interrupted core (.commit turnId reason count summary id tail)
        (.transcriptMessage (Message.system summary id))
        (core.mapSession (·.pushMessage (Message.system summary id)))
  | commitCheckpoint {turnId reason count summary id tail} :
      Interrupted core (.commit turnId reason count summary id tail)
        (checkpointEvent core reason count summary id tail)
        (installSummary core.session.transcript.length tail
          (pushLogged core turnId (Message.system summary id)))
  | usage {turnId step} : Interrupted core (.usage turnId step)
        (step.event core.session.tokenLedger) (meter core step)

end Change

/-! ### Runs of changes -/

/-- A condition on a change at the state where it is made. -/
abbrev Allowed : Type :=
  Core → Change → Prop

/-- One valid and allowed change. -/
def ChangeStep (A : Allowed) (core core' : Core) : Prop :=
  ∃ change : Change, A core change ∧ change.Valid core ∧ core' = change.apply core

/-- A sequence of valid and allowed changes. -/
def Steps (A : Allowed) : Core → Core → Prop :=
  Relation.ReflTransGen (ChangeStep A)

/-- A sequence of changes, the last of which the store may have interrupted. -/
def Aborts (A : Allowed) (R : SessionEventKind → Prop) (core core' : Core) : Prop :=
  ∃ middle, Steps A core middle ∧
    (core' = middle ∨ ∃ change event, A middle change ∧ Change.Valid middle change ∧ R event ∧
      Change.Interrupted middle change event core')

section Runs

variable {A : Allowed} {R : SessionEventKind → Prop} {core core' core'' : Core} {I : Core → Prop}

theorem Steps.refl : Steps A core core :=
  Relation.ReflTransGen.refl

section

variable (h : Steps A core core')

include h

theorem Steps.change {change : Change} (ha : A core' change)
    (hv : change.Valid core') : Steps A core (change.apply core') :=
  h.tail ⟨change, ha, hv, rfl⟩

theorem Steps.aborts : Aborts A R core core' :=
  ⟨core', h, .inl rfl⟩

theorem Steps.interrupted {change : Change} (ha : A core' change)
    (hv : change.Valid core') {event : SessionEventKind} (hr : R event)
    (hi : change.Interrupted core' event core'') : Aborts A R core core'' :=
  ⟨core', h, .inr ⟨change, event, ha, hv, hr, hi⟩⟩

end

/-- If the store rejects nothing, no run is interrupted. -/
theorem Aborts.steps (h : Aborts A R core core') (hr : ∀ event, ¬ R event) :
    Steps A core core' := by
  obtain ⟨middle, hsteps, rfl | ⟨_, event, -, -, hevent, -⟩⟩ := h
  · exact hsteps
  · exact absurd hevent (hr event)

/-- **Invariants over runs.** What every allowed change preserves holds after a run. -/
theorem Steps.invariant (hstep : ∀ core change, A core change → Change.Valid core change → I core →
      I (change.apply core)) (h : Steps A core core') (hI : I core) : I core' := by
  induction h with
  | refl => exact hI
  | tail _ hlast ih =>
    obtain ⟨change, ha, hv, rfl⟩ := hlast
    exact hstep _ change ha hv ih

variable (turnId : TurnId) (ids : List MessageId)

section

variable (core : Core)

@[simp] theorem Core.session_foldl_removeLogged :
    (ids.foldl (Core.removeLogged turnId) core).session = { core.session with
        removedMessageIds := core.session.removedMessageIds ∪ ids.toFinset } := by
  rw [← RuntimeSession.foldl_removeMessage]
  induction ids generalizing core with
  | nil => rfl
  | cons id ids ih => exact ih _

theorem Change.length_transcript_le (change : Change) :
    core.session.transcript.length ≤ (change.apply core).session.transcript.length := by
  cases change <;> simp [Change.apply, Change.pushLogged, Change.installSummary, Change.meter,
    Core.mapSession, Core.append]

theorem Core.log_prefix_foldl_removeLogged :
    core.log <+: (ids.foldl (Core.removeLogged turnId) core).log := by
  induction ids generalizing core with
  | nil => exact prefix_rfl
  | cons id ids ih => exact (prefix_append _ _).trans (ih (core.removeLogged turnId id))

theorem Change.log_prefix (change : Change) : core.log <+: (change.apply core).log := by
  cases change with
  | log | push | edit | usage => exact prefix_append _ _
  | commit => exact (prefix_append _ _).trans (prefix_append _ _)
  | remove turnId ids => exact Core.log_prefix_foldl_removeLogged turnId ids core
  | record | reset | start | rotate => exact prefix_rfl

end

theorem Steps.log_prefix (h : Steps A core core') : core.log <+: core'.log :=
  h.invariant (I := fun c => core.log <+: c.log)
    (fun c change _ _ hc => hc.trans (change.log_prefix c)) prefix_rfl

/-- What logs nothing shows nothing new, and no change shortens the log. -/
theorem Change.log_or_visible (core : Core) (change : Change) :
    core.log.length < (change.apply core).log.length ∨
      (change.apply core).log.length = core.log.length ∧
        (change.apply core).session.visibleTranscript = core.session.visibleTranscript := by
  cases change with
  | log | push | edit | commit | usage =>
    left
    simp [Change.apply, Change.pushLogged, Change.installSummary, Change.meter, Core.mapSession,
      Core.append]
  | remove turnId ids =>
    cases ids with
    | nil => exact .inr ⟨rfl, rfl⟩
    | cons id ids =>
      have hlog := Core.log_prefix_foldl_removeLogged turnId ids (core.removeLogged turnId id)
      exact .inl (lt_of_lt_of_le (by simp [Core.removeLogged, Core.append, Core.mapSession])
        hlog.length_le)
  | record | reset | start | rotate => exact .inr ⟨rfl, rfl⟩

/-- A run that logs nothing changes nothing that is visible. -/
theorem Steps.visible_of_log_length (h : Steps A core core')
    (hlen : core'.log.length = core.log.length) :
    core'.session.visibleTranscript = core.session.visibleTranscript := by
  let I (c : Core) : Prop := core.log.length < c.log.length ∨
    c.log.length = core.log.length ∧ c.session.visibleTranscript = core.session.visibleTranscript
  have hI : I core' := by
    refine h.invariant (I := I) (fun c change _ _ hc => ?_) (.inr ⟨rfl, rfl⟩)
    rcases change.log_or_visible c with hlt | ⟨heq, hvis⟩
    · exact .inl (by rcases hc with hc | hc <;> omega)
    · exact hc.imp (fun hc => by omega) fun hc => ⟨by omega, hvis.trans hc.2⟩
  rcases hI with hlt | ⟨-, hvis⟩
  · omega
  · exact hvis

/-- **Invariants over interrupted runs.** -/
theorem Aborts.invariant (hstep : ∀ core change, A core change → Change.Valid core change → I core →
      I (change.apply core))
    (hint : ∀ core change event core', A core change → Change.Valid core change → R event →
      I core → change.Interrupted core event core' → I core') (h : Aborts A R core core')
    (hI : I core) : I core' := by
  obtain ⟨middle, hsteps, rfl | ⟨change, event, ha, hv, hr, hi⟩⟩ := h
  · exact hsteps.invariant hstep hI
  · exact hint middle change event core' ha hv hr (hsteps.invariant hstep hI) hi

end Runs

end Nanoclaw
