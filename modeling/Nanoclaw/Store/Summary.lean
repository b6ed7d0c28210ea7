import Mathlib.Data.String.Basic
import Mathlib.Order.Fin.Basic
import Nanoclaw.Lib.OrdMap
import Nanoclaw.Store.Visible

/-!
# Session Summaries

What the store tells about a session without showing it: times, counts, the last prompt and the
tokens used. `summarizeSessionEvents` computes it from the whole log. Only the store reads the
time of an event (`StampedEvent`).
-/

namespace Nanoclaw

open List

instance : LinearOrder SessionId :=
  LinearOrder.lift' SessionId.value fun ⟨_⟩ ⟨_⟩ h => congrArg _ h

instance : LinearOrder AgentSessionId :=
  LinearOrder.lift' AgentSessionId.value fun ⟨_⟩ ⟨_⟩ h => congrArg _ h

variable (events : List SessionEventEnvelope)

/-- Milliseconds in 128 bits. -/
abbrev Timestamp : Type :=
  Fin (2 ^ 128)

instance Timestamp.neZero : NeZero (2 ^ 128) :=
  ⟨by decide⟩

/-- **A logged event with its time.** -/
structure StampedEvent extends SessionEventEnvelope where
  timestampMs : Timestamp

/-- The events without their times. -/
def envelopes (events : List StampedEvent) : List SessionEventEnvelope :=
  events.map StampedEvent.toSessionEventEnvelope

@[simp] theorem envelopes_append (events later : List StampedEvent) :
    envelopes (events ++ later) = envelopes events ++ envelopes later :=
  map_append

@[simp] theorem envelopes_singleton (event : StampedEvent) :
    envelopes [event] = [event.toSessionEventEnvelope] := rfl

/-! ### Token usage -/

/-- The ledger that an event records. -/
def usageLedger (event : SessionEventEnvelope) : Option TokenLedgerSnapshot :=
  match event.event with
  | .tokenUsageUpdated _ ledger => some ledger
  | _ => none

/-- The latest ledger of every agent session, as `g` shows it. -/
def latestLedgers {ν : Type} (g : TokenLedgerSnapshot → ν) (events : List SessionEventEnvelope) :
    OrdMap AgentSessionId ν :=
  events.foldl (fun ledgers event =>
    match usageLedger event with
    | some ledger => ledgers.insert event.agentSessionId (g ledger)
    | none => ledgers) .empty

def latestTokenUsageSnapshot : Option TokenLedgerSnapshot :=
  events.reverse.findSome? usageLedger

def aggregateTokenUsage (ledgers : List TokenLedgerSnapshot) : TokenUsage :=
  ledgers.foldl (fun aggregate ledger => aggregate.accumulate ledger.cumulativeUsage) {}

/-- The latest ledger, with the usage of all agent sessions. -/
def sessionTokenUsageSnapshot : Option TokenLedgerSnapshot :=
  (latestTokenUsageSnapshot events).map fun ledger =>
    { ledger with cumulativeUsage := aggregateTokenUsage (latestLedgers id events).values }

structure SessionSummaryTokenUsage where
  contextWindow : Option ContextWindowUsage
  cumulativeUsage : TokenUsage
  deriving DecidableEq

def SessionSummaryTokenUsage.ofLedger (ledger : TokenLedgerSnapshot) :
    SessionSummaryTokenUsage where
  contextWindow := ledger.contextWindow
  cumulativeUsage := ledger.cumulativeUsage

/-! ### Summaries -/

/-- The preview of a submitted prompt, unless it is empty. -/
def promptPreview (event : SessionEventEnvelope) : Option String :=
  match event.event with
  | .userPromptSubmit prompt => if prompt.previewText.isEmpty then none else some prompt.previewText
  | _ => none

structure SessionSummary where
  sessionId : SessionId
  firstTimestampMs : Timestamp
  lastTimestampMs : Timestamp
  eventCount : ℕ
  agentSessionCount : ℕ
  transcriptMessageCount : ℕ
  lastUserPrompt : Option String
  tokenUsage : Option SessionSummaryTokenUsage
  deriving DecidableEq

/-- The largest time. -/
def maxTimestamp : Timestamp :=
  ⟨2 ^ 128 - 1, by decide⟩

/-- What the loop over the events collects. -/
def summaryOf (sessionId : SessionId) (events : List StampedEvent) : SessionSummary where
  sessionId
  firstTimestampMs := events.foldl (fun first event => min first event.timestampMs) maxTimestamp
  lastTimestampMs := events.foldl (fun last event => max last event.timestampMs) 0
  eventCount := events.length
  agentSessionCount := (agentSessionIds (envelopes events)).length
  transcriptMessageCount := (Store.visibleTranscript (envelopes events)).length
  lastUserPrompt :=
    (envelopes events).foldl (fun last event => (promptPreview event).or last) none
  tokenUsage :=
    (sessionTokenUsageSnapshot (envelopes events)).map SessionSummaryTokenUsage.ofLedger

def summarizeSessionEvents (sessionId : SessionId) (events : List StampedEvent) :
    Option SessionSummary :=
  if events.isEmpty then none else some (summaryOf sessionId events)

/-! ### One more event -/

@[simp] theorem latestLedgers_append {ν : Type} (g : TokenLedgerSnapshot → ν)
    (events : List SessionEventEnvelope) (event : SessionEventEnvelope) :
    latestLedgers g (events ++ [event]) =
      match usageLedger event with
      | some ledger => (latestLedgers g events).insert event.agentSessionId (g ledger)
      | none => latestLedgers g events := by
  unfold latestLedgers
  rw [foldl_append, foldl_cons, foldl_nil]

theorem latestLedgers_eq_map {ν : Type} (g : TokenLedgerSnapshot → ν)
    (events : List SessionEventEnvelope) :
    latestLedgers g events = (latestLedgers id events).map g := by
  induction events using reverseRecOn with
  | nil => rfl
  | append_singleton events event ih =>
    rw [latestLedgers_append, latestLedgers_append, ih]
    cases usageLedger event with
    | none => rfl
    | some ledger => exact (OrdMap.map_insert ..).symm

theorem latestTokenUsageSnapshot_append (event : SessionEventEnvelope) :
    latestTokenUsageSnapshot (events ++ [event]) =
      (usageLedger event).or (latestTokenUsageSnapshot events) := by
  unfold latestTokenUsageSnapshot
  rw [reverse_append, reverse_singleton, singleton_append, findSome?_cons]
  cases usageLedger event <;> rfl

/-- **An event names no message of a compaction**, of the latest one of its agent session. -/
def Unnamed (logged : List SessionEventEnvelope) (event : SessionEventEnvelope) : Prop :=
  ∀ id ∈ introducedId event, ∀ checkpoint ∈ Store.latestCompactionCheckpoint
      (agentSessionEvents logged event.agentSessionId),
    id ≠ checkpoint.summaryMessageId ∧ id ∉ checkpoint.retainedTailMessageIds

instance (logged : List SessionEventEnvelope) (event : SessionEventEnvelope) :
    Decidable (Unnamed logged event) := by
  unfold Unnamed
  infer_instance

namespace Store

variable {events} {event : SessionEventEnvelope} {message : Message}

theorem latestCompactionCheckpoint_append (h : compactionRecord event = none) :
    latestCompactionCheckpoint (events ++ [event]) = latestCompactionCheckpoint events := by
  have := latestRecord_append events event
  rw [h] at this
  exact congrArg (bind · _) this

theorem visibleAgentSessionTranscript_append_message
    (hmessage : event.event = .transcriptMessage message)
    (hnamed : ∀ checkpoint ∈ latestCompactionCheckpoint events,
      message.messageId ≠ checkpoint.summaryMessageId ∧
        message.messageId ∉ checkpoint.retainedTailMessageIds) :
    visibleAgentSessionTranscript (events ++ [event]) =
      visibleAgentSessionTranscript events ++ [message] := by
  have hrecord : compactionRecord event = none := by simp [compactionRecord, hmessage]
  have hlater : ∀ id, message.messageId ≠ id →
      messageIndex (replayTranscript events ++ [message]) id =
        messageIndex (replayTranscript events) id := by
    intro id hid
    have hnone : messageIndex [message] id = none := rposition_eq_none_iff.mpr (by simpa using hid)
    rw [messageIndex_append, hnone, Option.map_none, Option.none_or]
  unfold visibleAgentSessionTranscript
  rw [latestCompactionCheckpoint_append hrecord, replayTranscript_append_message _ hmessage]
  cases hcheckpoint : latestCompactionCheckpoint events with
  | none => rfl
  | some checkpoint =>
    obtain ⟨hsummary, htail⟩ := hnamed checkpoint hcheckpoint
    dsimp only
    rw [hlater _ hsummary]
    cases hk : messageIndex (replayTranscript events) checkpoint.summaryMessageId with
    | none => rfl
    | some k =>
      obtain ⟨⟨m, hm, -⟩, -⟩ := rposition_eq_some_iff.mp hk
      refine checkpointWindow_append_of (List.getElem?_eq_some_iff.mp hm).1 fun id hid => ?_
      rw [hlater id fun heq => htail (heq ▸ hid)]

theorem visibleAgentSessionTranscript_append_other (h : event.event.isTranscriptEvent = false) :
    visibleAgentSessionTranscript (events ++ [event]) = visibleAgentSessionTranscript events := by
  have hrecord : compactionRecord event = none := by
    rcases event with ⟨sid, aid, tid, cid, kind⟩
    cases kind <;> first | rfl | cases h
  unfold visibleAgentSessionTranscript
  rw [latestCompactionCheckpoint_append hrecord,
    replayTranscript_append_other events (by simpa using h)]

/-- What one more event changes: only its own agent session shows something else. -/
theorem visibleTranscript_append_of {shown : List Message}
    (h : visibleAgentSessionTranscript (agentSessionEvents events event.agentSessionId ++ [event]) =
      visibleAgentSessionTranscript (agentSessionEvents events event.agentSessionId) ++ shown) :
    ∃ before after, visibleTranscript events = before ++ after ∧
      visibleTranscript (events ++ [event]) = before ++ shown ++ after := by
  have hothers {ids : List AgentSessionId} (hids : event.agentSessionId ∉ ids) :=
    flatMap_agentSessionEvents_snoc events visibleAgentSessionTranscript hids
  have hown := agentSessionEvents_snoc_self events event
  rw [visibleTranscript_eq_flatMap, visibleTranscript_eq_flatMap, agentSessionIds_append]
  by_cases hmem : event.agentSessionId ∈ agentSessionIds events
  · obtain ⟨left, right, hids⟩ := append_of_mem hmem
    have hn := nodup_agentSessionIds events
    rw [hids] at hn
    obtain ⟨hleft, hright⟩ : event.agentSessionId ∉ left ∧ event.agentSessionId ∉ right := by
      have := nodup_middle.mp hn
      simpa using (nodup_cons.mp this).1
    refine ⟨left.flatMap (fun id => visibleAgentSessionTranscript (agentSessionEvents events id))
        ++ visibleAgentSessionTranscript (agentSessionEvents events event.agentSessionId),
      right.flatMap fun id => visibleAgentSessionTranscript (agentSessionEvents events id), ?_, ?_⟩
    · rw [hids, flatMap_append, flatMap_cons, append_assoc]
    · rw [if_pos hmem, hids, flatMap_append, flatMap_cons, hothers hleft, hothers hright, hown, h]
      simp only [append_assoc]
  · rw [if_neg hmem]
    refine ⟨(agentSessionIds events).flatMap fun id =>
      visibleAgentSessionTranscript (agentSessionEvents events id), [], by simp, ?_⟩
    have hnil := agentSessionEvents_eq_nil hmem
    rw [flatMap_append, hothers hmem, flatMap_singleton, hown, h, hnil]
    simp [visibleAgentSessionTranscript, latestCompactionCheckpoint, replayTranscript,
      Slots.contents, Slots.empty]

/-- **One more message is one more visible message**, unless a compaction names it. -/
theorem visibleTranscript_append_message (hmessage : event.event = .transcriptMessage message)
    (h : Unnamed events event) : ∃ before after, visibleTranscript events = before ++ after ∧
      visibleTranscript (events ++ [event]) = before ++ [message] ++ after :=
  visibleTranscript_append_of <| visibleAgentSessionTranscript_append_message hmessage
    (h message.messageId (by simp [introducedId, hmessage]))

theorem visibleTranscript_append_other (h : event.event.isTranscriptEvent = false) :
    visibleTranscript (events ++ [event]) = visibleTranscript events := by
  obtain ⟨before, after, hevents, happend⟩ := visibleTranscript_append_of
    ((visibleAgentSessionTranscript_append_other h).trans (append_nil _).symm)
  rw [happend, hevents, append_nil]

end Store

end Nanoclaw
