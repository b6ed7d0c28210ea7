import Nanoclaw.Store.SearchText
import Nanoclaw.Store.Summary

/-!
# The Session Index

The file store keeps a record for every session. An appended event changes the record of its
session in place (`applyEventToRecord`); edits, removals and compactions have it rebuilt from the
log (`indexedRecordFromEvents`). `Counted` is what the first way keeps, and `Tracks` what makes it
agree with the second for everything but the search corpus.
-/

namespace Nanoclaw

open SessionSummaryTokenUsage

variable (index : FileSessionStoreIndex)

def maxSearchCorpusChars : ℕ :=
  16384

structure IndexedSessionRecord where
  summary : SessionSummary
  /-- In the order in which they first appear. -/
  agentSessionIds : List AgentSessionId
  searchCorpus : String
  agentSessionTokenUsage : OrdMap AgentSessionId SessionSummaryTokenUsage
  deriving DecidableEq

/-! ### One event at a time -/

def pushUniqueSessionId (ids : List AgentSessionId) (id : AgentSessionId) : List AgentSessionId :=
  if id ∈ ids then ids else ids ++ [id]

def summarizeRecordTokenUsage (byAgentSession : OrdMap AgentSessionId SessionSummaryTokenUsage)
    (latestContextWindow : Option ContextWindowUsage) : Option SessionSummaryTokenUsage :=
  if byAgentSession.entries.isEmpty then none
  else some
    { contextWindow := latestContextWindow
      cumulativeUsage := byAgentSession.values.foldl
        (fun total usage => total.accumulate usage.cumulativeUsage) {} }

/-- Append a line and keep the last characters. -/
def appendSearchText (corpus value : String) : String :=
  let corpus := appendSearchCorpusLine corpus value
  if corpus.length > maxSearchCorpusChars then keepRecentChars corpus maxSearchCorpusChars
  else corpus

/-- What an event adds to the corpus of its session. -/
def addedSearchText (event : SessionEventEnvelope) : List String :=
  match event.event with
  | .transcriptMessage message => [message.textContent]
  | .transcriptMessagePatched _ _ => []
  | .transcriptMessageRemoved _ => []
  | _ => searchableSessionEventStrings event

def applyEventToRecord (record : IndexedSessionRecord) (event : StampedEvent) :
    IndexedSessionRecord :=
  let envelope := event.toSessionEventEnvelope
  let agentSessionIds := pushUniqueSessionId record.agentSessionIds event.agentSessionId
  let agentSessionTokenUsage := match usageLedger envelope with
    | some ledger => record.agentSessionTokenUsage.insert event.agentSessionId
        (SessionSummaryTokenUsage.ofLedger ledger)
    | none => record.agentSessionTokenUsage
  { summary :=
      { sessionId := record.summary.sessionId
        firstTimestampMs := min record.summary.firstTimestampMs event.timestampMs
        lastTimestampMs := max record.summary.lastTimestampMs event.timestampMs
        eventCount := record.summary.eventCount + 1
        agentSessionCount :=
          if event.agentSessionId ∈ record.agentSessionIds then record.summary.agentSessionCount
          else agentSessionIds.length
        transcriptMessageCount := match envelope.event with
          | .transcriptMessage _ => record.summary.transcriptMessageCount + 1
          | _ => record.summary.transcriptMessageCount
        lastUserPrompt := (promptPreview envelope).or record.summary.lastUserPrompt
        tokenUsage := match usageLedger envelope with
          | some ledger => summarizeRecordTokenUsage agentSessionTokenUsage ledger.contextWindow
          | none => record.summary.tokenUsage }
    agentSessionIds
    searchCorpus := (addedSearchText envelope).foldl appendSearchText record.searchCorpus
    agentSessionTokenUsage }

/-- The record of a session before its first event is counted. -/
def defaultIndexedRecord (event : StampedEvent) : IndexedSessionRecord where
  summary :=
    { sessionId := event.sessionId
      firstTimestampMs := event.timestampMs
      lastTimestampMs := event.timestampMs
      eventCount := 0
      agentSessionCount := 0
      transcriptMessageCount := 0
      lastUserPrompt := none
      tokenUsage := none }
  agentSessionIds := []
  searchCorpus := ""
  agentSessionTokenUsage := .empty

/-! ### The whole log -/

/-- The searchable strings of all events, then the visible messages. -/
def buildSearchCorpus (events : List SessionEventEnvelope) : String :=
  (events.flatMap searchableSessionEventStrings ++
    (Store.visibleTranscript events).map Message.textContent).foldl appendSearchCorpusLine ""

def indexedRecordFromEvents (events : List StampedEvent) : Option IndexedSessionRecord :=
  events.head?.bind fun first =>
    (summarizeSessionEvents first.sessionId events).map fun summary =>
      { summary
        agentSessionIds := agentSessionIds (envelopes events)
        searchCorpus := buildSearchCorpus (envelopes events)
        agentSessionTokenUsage :=
          latestLedgers SessionSummaryTokenUsage.ofLedger (envelopes events) }

/-- The events after which a record has to be rebuilt. -/
def rebuildIndexRecord : SessionEventKind → Bool
  | .transcriptMessagePatched _ _ => true
  | .transcriptMessageRemoved _ => true
  | .compactionCompleted .. => true
  | _ => false

/-! ### Retention -/

structure SessionStoreRetentionPolicy where
  maxSessions : Option ℕ := none
  maxAgeMs : Option ℕ := none

structure FileSessionStoreIndex where
  version : ℕ
  sessions : OrdMap SessionId IndexedSessionRecord

def indexVersion : ℕ :=
  4

/-- Newest first, then by identifier. -/
def NewerOrBefore (a b : SessionId × Timestamp) : Prop :=
  b.2 < a.2 ∨ a.2 = b.2 ∧ a.1 ≤ b.1

instance : DecidableRel NewerOrBefore := fun a b =>
  inferInstanceAs (Decidable (b.2 < a.2 ∨ a.2 = b.2 ∧ a.1 ≤ b.1))

/-- The sessions whose last event is too old. -/
def expiredSessions (retention : SessionStoreRetentionPolicy)
    (nowMs : Timestamp) : List SessionId :=
  match retention.maxAgeMs with
  | none => []
  | some maxAgeMs => (index.sessions.entries.filter fun entry =>
    decide (nowMs.val - entry.2.summary.lastTimestampMs.val > maxAgeMs)).map Prod.fst

/-- The sessions beyond the number that is kept. -/
def overflowingSessions (retention : SessionStoreRetentionPolicy)
    (expired : List SessionId) : List SessionId :=
  match retention.maxSessions with
  | none => []
  | some maxSessions =>
    let remaining := (index.sessions.entries.filter fun entry =>
      decide (entry.1 ∉ expired)).map fun entry => (entry.1, entry.2.summary.lastTimestampMs)
    ((remaining.insertionSort NewerOrBefore).drop maxSessions).map Prod.fst

def selectSessionsToPrune
    (retention : SessionStoreRetentionPolicy) (nowMs : Timestamp) : List SessionId :=
  let expired := expiredSessions index retention nowMs
  let overflowing := overflowingSessions index retention expired
  index.sessions.keys.filter fun sessionId =>
    decide (sessionId ∈ expired ∨ sessionId ∈ overflowing)

@[simp] theorem selectSessionsToPrune_default
    (nowMs : Timestamp) : selectSessionsToPrune index {} nowMs = [] := by
  simp [selectSessionsToPrune, expiredSessions, overflowingSessions]

/-! ### Records on track -/

/-- The event is a message. -/
def IsTranscriptMessage : SessionEventKind → Bool
  | .transcriptMessage _ => true
  | _ => false

/-- The number of messages among the events. -/
def messageCount (events : List StampedEvent) : ℕ :=
  events.countP fun event => IsTranscriptMessage event.event

/-- **A record has counted the events**: all but corpus and number of messages is theirs. -/
structure Counted (sessionId : SessionId) (record : IndexedSessionRecord)
    (events : List StampedEvent) (messages : ℕ) : Prop where
  summary : record.summary = { summaryOf sessionId events with transcriptMessageCount := messages }
  ids : record.agentSessionIds = agentSessionIds (envelopes events)
  tokenUsage : record.agentSessionTokenUsage =
    latestLedgers SessionSummaryTokenUsage.ofLedger (envelopes events)

/-- **A record is on track**: all of it but the search corpus is that of the events. -/
abbrev Tracks (sessionId : SessionId) (record : IndexedSessionRecord)
    (events : List StampedEvent) : Prop :=
  Counted sessionId record events (Store.visibleTranscript (envelopes events)).length

variable {events : List StampedEvent} {record : IndexedSessionRecord} {sessionId : SessionId}

theorem Tracks.summary_eq (h : Tracks sessionId record events) :
    record.summary = summaryOf sessionId events :=
  h.summary

/-- **A rebuilt record is on track.** -/
theorem indexedRecordFromEvents_tracks (hid : ∀ event ∈ events, event.sessionId = sessionId)
    (h : indexedRecordFromEvents events = some record) : Tracks sessionId record events := by
  cases events with
  | nil => cases h
  | cons first rest =>
    cases h
    have hfirst := hid first List.mem_cons_self
    exact ⟨by rw [← hfirst]; rfl, rfl, rfl⟩

theorem indexedRecordFromEvents_isSome (h : events ≠ []) :
    (indexedRecordFromEvents events).isSome = true := by
  cases events with
  | nil => exact absurd rfl h
  | cons first rest => rfl

/-! ### The summary after one more event -/

section OneMore

variable (sessionId : SessionId) (events : List StampedEvent) (event : StampedEvent)

theorem agentSessionIds_envelopes_append : agentSessionIds (envelopes (events ++ [event])) =
      pushUniqueSessionId (agentSessionIds (envelopes events)) event.agentSessionId := by
  rw [envelopes_append, envelopes_singleton, agentSessionIds_append]
  rfl

/-- What the ledgers of a log sum up to. -/
theorem tokenUsage_summaryOf : (summaryOf sessionId events).tokenUsage =
      (latestTokenUsageSnapshot (envelopes events)).map fun ledger =>
        { contextWindow := ledger.contextWindow
          cumulativeUsage := (latestLedgers ofLedger (envelopes events)).values.foldl
              (fun total usage => total.accumulate usage.cumulativeUsage) {} } := by
  rw [latestLedgers_eq_map, OrdMap.values_map, List.foldl_map]
  unfold summaryOf sessionTokenUsageSnapshot
  rw [Option.map_map]
  rfl

/-- The usage of the session after one more ledger. -/
theorem tokenUsage_summaryOf_append {ledger : TokenLedgerSnapshot}
    (h : usageLedger event.toSessionEventEnvelope = some ledger) :
    (summaryOf sessionId (events ++ [event])).tokenUsage =
      summarizeRecordTokenUsage (latestLedgers ofLedger
        (envelopes (events ++ [event]))) ledger.contextWindow := by
  have hget : (latestLedgers ofLedger (envelopes (events ++ [event]))).get event.agentSessionId =
        some (ofLedger ledger) := by
    rw [envelopes_append, envelopes_singleton, latestLedgers_append, h]
    exact OrdMap.get_alter_self ..
  have hentries : (latestLedgers ofLedger
      (envelopes (events ++ [event]))).entries.isEmpty = false :=
    List.isEmpty_eq_false_iff_exists_mem.mpr ⟨_, OrdMap.mem_entries.mpr hget⟩
  rw [tokenUsage_summaryOf, summarizeRecordTokenUsage, hentries]
  rw [envelopes_append, envelopes_singleton, latestTokenUsageSnapshot_append, h]
  rfl

theorem visibleTranscript_length_append (hrebuild : rebuildIndexRecord event.event = false)
    (hnamed : Unnamed (envelopes events) event.toSessionEventEnvelope) :
    (Store.visibleTranscript (envelopes (events ++ [event]))).length =
      (Store.visibleTranscript (envelopes events)).length + messageCount [event] := by
  rw [envelopes_append, envelopes_singleton, messageCount, List.countP_singleton]
  by_cases hmessage : ∃ message, event.event = .transcriptMessage message
  · obtain ⟨message, hmessage⟩ := hmessage
    obtain ⟨before, after, hevents, happend⟩ :=
      Store.visibleTranscript_append_message hmessage hnamed
    simp [hevents, happend, hmessage, IsTranscriptMessage]
    omega
  · rw [Store.visibleTranscript_append_other]
    all_goals cases hevent : event.event <;> simp_all [rebuildIndexRecord, IsTranscriptMessage,
      SessionEventKind.isTranscriptEvent]

end OneMore

attribute [ext] SessionSummary IndexedSessionRecord

/-- **One more event is counted.** -/
theorem Counted.apply {messages : ℕ} (h : Counted sessionId record events messages)
    (event : StampedEvent) : Counted sessionId (applyEventToRecord record event)
      (events ++ [event]) (messages + messageCount [event]) := by
  have husage : (applyEventToRecord record event).agentSessionTokenUsage =
      latestLedgers .ofLedger (envelopes (events ++ [event])) := by
    rw [envelopes_append, envelopes_singleton, latestLedgers_append, ← h.tokenUsage]
    rfl
  have hids : (applyEventToRecord record event).agentSessionIds =
      agentSessionIds (envelopes (events ++ [event])) := by
    rw [agentSessionIds_envelopes_append, ← h.ids]
    rfl
  refine ⟨SessionSummary.ext ?_ ?_ ?_ ?_ ?agents ?messages ?_ ?tokens, hids, husage⟩
  case agents =>
    change (if event.agentSessionId ∈ record.agentSessionIds then
      record.summary.agentSessionCount else (pushUniqueSessionId _ _).length) =
        (agentSessionIds (envelopes (events ++ [event]))).length
    rw [agentSessionIds_envelopes_append, ← h.ids, h.summary, pushUniqueSessionId]
    split
    · exact congrArg List.length h.ids.symm
    · rfl
  case messages =>
    simp only [applyEventToRecord, h.summary, messageCount, List.countP_singleton]
    cases event.event <;> rfl
  case tokens =>
    cases hledger : usageLedger event.toSessionEventEnvelope with
    | some ledger =>
      rw [tokenUsage_summaryOf_append _ _ _ hledger, ← husage]
      simp only [applyEventToRecord, hledger]
    | none =>
      rw [tokenUsage_summaryOf, envelopes_append, envelopes_singleton, latestLedgers_append,
        latestTokenUsageSnapshot_append, hledger, Option.none_or, ← tokenUsage_summaryOf sessionId]
      simp only [applyEventToRecord, hledger, h.summary]
  all_goals simp [applyEventToRecord, h.summary, summaryOf]

/-- **One more event keeps a record on track.** -/
theorem Tracks.apply (h : Tracks sessionId record events) {event : StampedEvent}
    (hrebuild : rebuildIndexRecord event.event = false)
    (hnamed : Unnamed (envelopes events) event.toSessionEventEnvelope) :
    Tracks sessionId (applyEventToRecord record event) (events ++ [event]) := by
  have happly := Counted.apply h event
  rwa [← visibleTranscript_length_append events event hrebuild hnamed] at happly

/-- The record of a session without events. -/
def emptyRecord (sessionId : SessionId) : IndexedSessionRecord where
  summary := summaryOf sessionId []
  agentSessionIds := []
  searchCorpus := ""
  agentSessionTokenUsage := .empty

theorem searchCorpus_applyEventToRecord (record : IndexedSessionRecord) (event : StampedEvent) :
    (applyEventToRecord record event).searchCorpus =
      (addedSearchText event.toSessionEventEnvelope).foldl appendSearchText record.searchCorpus :=
  rfl

theorem searchCorpus_indexedRecordFromEvents (h : indexedRecordFromEvents events = some record) :
    record.searchCorpus = buildSearchCorpus (envelopes events) := by
  cases events with
  | nil => cases h
  | cons first rest => cases h; rfl

/-- The first event of a session. The default record has its time already. -/
theorem applyEventToRecord_default (event : StampedEvent) :
    applyEventToRecord (defaultIndexedRecord event) event =
      applyEventToRecord (emptyRecord event.sessionId) event := by
  have hmin : min maxTimestamp event.timestampMs = event.timestampMs :=
    min_eq_right (Fin.le_def.mpr (Nat.le_pred_of_lt event.timestampMs.isLt))
  have hmax : max 0 event.timestampMs = event.timestampMs :=
    max_eq_right (Fin.le_def.mpr (Nat.zero_le _))
  unfold applyEventToRecord
  simp only [defaultIndexedRecord, emptyRecord, summaryOf, List.foldl_nil, min_self, max_self,
    hmin, hmax]
  rfl

end Nanoclaw
