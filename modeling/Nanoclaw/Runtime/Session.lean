import Mathlib.Data.Finset.Basic
import Mathlib.Data.Finset.Lattice.Lemmas
import Nanoclaw.Store.Replay

/-!
# Runtime Sessions

The session of a runtime in memory, the window of it that a model request may see, and the
reconstruction of a session from the event log.

The window is kept as positions in the append-only transcript: without a compaction all of it,
else the summary, the retained tail and everything past the summary, always without the removed
messages. `reconstructRuntimeSession` cuts the log at the last event of an agent session, replays
the transcript and rebuilds the window from the latest checkpoint, with the retained tail
extended backwards to the start of a request round.
-/

namespace Nanoclaw

structure RuntimeSession where
  sessionId : SessionId
  agentSessionId : AgentSessionId
  transcript : List Message
  providerContinuation : Option ProviderContinuation
  providerTranscriptCursor : ℕ
  compactionSummaryIndex : Option ℕ
  retainedTailIndices : List ℕ
  postSummaryStart : ℕ
  removedMessageIds : Finset MessageId
  agentSessionStarted : Bool
  tokenLedger : TokenLedgerSnapshot

namespace RuntimeSession

variable (session : RuntimeSession)

def new (sessionId : SessionId) (agentSessionId : AgentSessionId) : RuntimeSession where
  sessionId := sessionId
  agentSessionId := agentSessionId
  transcript := []
  providerContinuation := none
  providerTranscriptCursor := 0
  compactionSummaryIndex := none
  retainedTailIndices := []
  postSummaryStart := 0
  removedMessageIds := ∅
  agentSessionStarted := false
  tokenLedger := {}

/-! ### Updates -/

def pushMessage (message : Message) : RuntimeSession :=
  { session with transcript := session.transcript ++ [message] }

def setMessage (index : ℕ) (message : Message) : RuntimeSession :=
  { session with transcript := session.transcript.set index message }

def removeMessage (messageId : MessageId) : RuntimeSession :=
  { session with removedMessageIds := insert messageId session.removedMessageIds }

/-- Move the window to a summary and a retained tail. -/
def installWindow (summaryIndex : ℕ) (retainedTailIndices : List ℕ) : RuntimeSession :=
  { session with
    compactionSummaryIndex := some summaryIndex
    retainedTailIndices
    postSummaryStart := summaryIndex + 1 }

def clearContinuation : RuntimeSession :=
  { session with providerContinuation := none, providerTranscriptCursor := 0 }

/-- The identifiers of the transcript, in order. -/
def ids : List MessageId :=
  session.transcript.map Message.messageId

/-! ### The visible window -/

/-- The message was not removed. -/
def survives (message : Message) : Bool :=
  decide (message.messageId ∉ session.removedMessageIds)

variable (ids : List MessageId)

section

variable (i k : ℕ) (id : MessageId) (message : Message) (tail : List ℕ)

@[simp] theorem transcript_pushMessage :
    (session.pushMessage message).transcript = session.transcript ++ [message] := rfl

@[simp] theorem transcript_setMessage :
    (session.setMessage i message).transcript = session.transcript.set i message := rfl

@[simp] theorem transcript_installWindow :
    (session.installWindow k tail).transcript = session.transcript := rfl

@[simp] theorem transcript_clearContinuation :
    session.clearContinuation.transcript = session.transcript := rfl

@[simp] theorem removedMessageIds_pushMessage :
    (session.pushMessage message).removedMessageIds = session.removedMessageIds := rfl

@[simp] theorem removedMessageIds_removeMessage :
    (session.removeMessage id).removedMessageIds = insert id session.removedMessageIds := rfl

@[simp] theorem retainedTailIndices_removeMessage :
    (session.removeMessage id).retainedTailIndices = session.retainedTailIndices := rfl

@[simp] theorem removedMessageIds_installWindow :
    (session.installWindow k tail).removedMessageIds = session.removedMessageIds := rfl

@[simp] theorem ids_pushMessage :
    (session.pushMessage message).ids = session.ids ++ [message.messageId] := by
  simp [ids]

@[simp] theorem ids_removeMessage (messageId : MessageId) :
    (session.removeMessage messageId).ids = session.ids := rfl

@[simp] theorem ids_installWindow : (session.installWindow k tail).ids = session.ids := rfl

@[simp] theorem survives_pushMessage :
    (session.pushMessage message).survives = session.survives := rfl

end

/-- Hiding messages changes nothing but what is hidden. -/
theorem foldl_removeMessage : ids.foldl removeMessage session =
      { session with removedMessageIds := session.removedMessageIds ∪ ids.toFinset } := by
  induction ids generalizing session with
  | nil => simp only [List.foldl_nil, List.toFinset_nil, Finset.union_empty]
  | cons id ids ih =>
    rw [List.foldl_cons, ih, List.toFinset_cons, Finset.union_insert,
      removedMessageIds_removeMessage, Finset.insert_union]
    rfl

/-- The messages that make a request: user and system messages. -/
def isRequest (message : Message) : Bool :=
  match message.role with
  | .user | .system => true
  | _ => false

def visibleMessageIndices (session : RuntimeSession) : List ℕ :=
  let indices := match session.compactionSummaryIndex with
    | some summaryIndex =>
      summaryIndex :: session.retainedTailIndices.filter (fun i => decide (i < summaryIndex)) ++
        List.range' session.postSummaryStart (session.transcript.length - session.postSummaryStart)
    | none => List.range session.transcript.length
  indices.filter fun i => (session.transcript[i]?).any session.survives

def visibleTranscript (session : RuntimeSession) : List Message :=
  session.visibleMessageIndices.filterMap fun i => session.transcript[i]?

def visibleTranscriptIndexForMessageId (session : RuntimeSession) (messageId : MessageId) :
    Option ℕ :=
  session.visibleMessageIndices.find? fun i =>
    (session.transcript[i]?).any fun m => decide (m.messageId = messageId)

def visibleTranscriptLastIndexForRole (session : RuntimeSession) (role : MessageRole) : Option ℕ :=
  session.visibleMessageIndices.reverse.find? fun i =>
    (session.transcript[i]?).any fun m => decide (m.role = role)

def transcriptContainsMessageId (session : RuntimeSession) (messageId : MessageId) : Bool :=
  session.transcript.any fun m => decide (m.messageId = messageId)

def transcriptContainsRole (session : RuntimeSession) (role : MessageRole) : Bool :=
  session.transcript.any fun m => decide (m.role = role)

/-- The retained tail as messages. -/
def retainedTail (session : RuntimeSession) (summaryIndex : ℕ) : List Message :=
  (session.retainedTailIndices.filter fun i => decide (i < summaryIndex)).filterMap
    fun i => session.transcript[i]?

/-- The window before removals are taken out, as messages. -/
def window (session : RuntimeSession) : List Message :=
  match session.compactionSummaryIndex with
  | some summaryIndex =>
    (session.transcript[summaryIndex]?).toList ++ session.retainedTail summaryIndex ++
      session.transcript.drop session.postSummaryStart
  | none => session.transcript

/-- **The visible transcript** is the window without the removed messages. -/
theorem visibleTranscript_eq :
    session.visibleTranscript = session.window.filter session.survives := by
  unfold visibleTranscript visibleMessageIndices window retainedTail
  cases session.compactionSummaryIndex with
  | none => simp only [filterMap_getElem?_filter, filterMap_getElem?_range]
  | some k =>
    simp only [filterMap_getElem?_filter, List.cons_append, List.filterMap_cons,
      List.filterMap_append, filterMap_getElem?_range']
    cases session.transcript[k]? <;> rfl

theorem mem_visibleMessageIndices {session : RuntimeSession} {i : ℕ}
    (h : i ∈ session.visibleMessageIndices) :
    ∃ m, session.transcript[i]? = some m ∧ session.survives m = true := by
  obtain ⟨-, hi⟩ := List.mem_filter.mp h
  exact (Option.any_eq_true _ _).mp hi

theorem visibleTranscript_foldl_removeMessage :
    (ids.foldl removeMessage session).visibleTranscript =
      session.visibleTranscript.filter fun m => decide (m.messageId ∉ ids) := by
  rw [visibleTranscript_eq, visibleTranscript_eq, foldl_removeMessage, List.filter_filter]
  refine List.filter_congr fun m _ => ?_
  simp [survives, Bool.and_comm]

end RuntimeSession

/-! ### Request rounds -/

/-- A round starts at a user or system message, first or after an answer. -/
def startsRequestRound (transcript : List Message) (index : ℕ) : Bool :=
  match (transcript[index]?).map Message.role with
  | some .user | some .system =>
    if index = 0 then true
    else match (transcript[index - 1]?).map Message.role with
      | some .assistant | some .tool => true
      | _ => false
  | _ => false

/-- The loop that walks back to the start of a request round. -/
def requestRoundStart (transcript : List Message) : ℕ → ℕ
  | 0 => 0
  | index + 1 =>
    if startsRequestRound transcript (index + 1) then index + 1
    else requestRoundStart transcript index

variable (transcript : List Message) (slice : List SessionEventEnvelope) (index : ℕ)
  (agentSessionId : AgentSessionId) (events : List SessionEventEnvelope)

theorem requestRoundStart_le : requestRoundStart transcript index ≤ index := by
  induction index with
  | zero => exact le_refl 0
  | succ index ih =>
    unfold requestRoundStart
    split
    · exact le_refl _
    · exact Nat.le_succ_of_le ih

/-- The walk stays where it is exactly at a round start or at the first message. -/
theorem requestRoundStart_eq_self {transcript : List Message} {index : ℕ} :
    requestRoundStart transcript index = index ↔
      index = 0 ∨ startsRequestRound transcript index = true := by
  cases index with
  | zero => simp [requestRoundStart]
  | succ index =>
    have hle := requestRoundStart_le transcript index
    by_cases h : startsRequestRound transcript (index + 1) = true
    · simp [requestRoundStart, h]
    · have hne : requestRoundStart transcript index ≠ index + 1 := by omega
      simp [requestRoundStart, hne]

theorem requestRoundStart_requestRoundStart :
    requestRoundStart transcript (requestRoundStart transcript index) =
      requestRoundStart transcript index := by
  induction index with
  | zero => rfl
  | succ index ih =>
    by_cases h : startsRequestRound transcript (index + 1) = true
    · have hstay := requestRoundStart_eq_self.mpr (.inr h)
      rw [hstay, hstay]
    · rw [requestRoundStart, if_neg h, ih]

/-- The walk back to a round start passes no round start. -/
theorem le_requestRoundStart {transcript : List Message} {q first : ℕ}
    (h : startsRequestRound transcript q = true) (hq : q ≤ first) :
    q ≤ requestRoundStart transcript first := by
  induction first with
  | zero => rw [Nat.le_zero.mp hq]; exact Nat.zero_le _
  | succ first ih =>
    unfold requestRoundStart
    split
    · exact hq
    next hne =>
      rcases lt_or_eq_of_le hq with hlt | rfl
      · exact ih (Nat.le_of_lt_succ hlt)
      · exact absurd h hne

/-! ### Reconstruction -/

structure CompactionCheckpoint where
  summaryMessageId : MessageId
  retainedTailMessageIds : List MessageId

def historyOnlyResumeReason : String :=
  "This persisted agent session predates resume checkpoints for compacted history."

/-- The summary and tail named by a compaction event. -/
def compactionRecord (event : SessionEventEnvelope) : Option (Option MessageId × List MessageId) :=
  match event.event with
  | .compactionCompleted _ _ _ _ summaryMessageId retainedTailMessageIds =>
    some (summaryMessageId, retainedTailMessageIds)
  | _ => none

theorem compactionRecord_eq_some {event : SessionEventEnvelope}
    {record : Option MessageId × List MessageId} (h : compactionRecord event = some record) :
    ∃ reason sources retained chars, event.event =
      .compactionCompleted reason sources retained chars record.1 record.2 := by
  rcases event with ⟨sid, aid, tid, cid, kind⟩
  cases kind <;> cases h
  exact ⟨_, _, _, _, rfl⟩

def latestCompactionCheckpoint : Except RuntimeError (Option CompactionCheckpoint) :=
  match events.reverse.findSome? compactionRecord with
  | none => .ok none
  | some (some summaryMessageId, retainedTailMessageIds) =>
    .ok (some { summaryMessageId, retainedTailMessageIds })
  | some (none, _) => .error (.invalidState historyOnlyResumeReason)

def upgradeRetainedTailIndicesForRequestRounds (transcript : List Message)
    (retainedTailIndices : List ℕ) (summaryIndex : ℕ) : List ℕ :=
  match retainedTailIndices with
  | [] => []
  | firstRetainedIndex :: _ =>
    if summaryIndex ≤ firstRetainedIndex then retainedTailIndices
    else
      let upgradedStart := requestRoundStart transcript firstRetainedIndex
      if upgradedStart = firstRetainedIndex then retainedTailIndices
      else List.range' upgradedStart (firstRetainedIndex - upgradedStart) ++ retainedTailIndices

/-- The last position with an identifier, as in the map of the source. -/
def messageIndex (transcript : List Message) (messageId : MessageId) : Option ℕ :=
  rposition (fun m => decide (m.messageId = messageId)) transcript

/-- Rebuild the window of a replayed session from a compaction checkpoint. -/
def restoreWindow (session : RuntimeSession) (checkpoint : CompactionCheckpoint) :
    Except RuntimeError RuntimeSession :=
  match messageIndex session.transcript checkpoint.summaryMessageId with
  | none => .error (.invalidState
      ("compaction summary message missing from reconstructed transcript: " ++
        checkpoint.summaryMessageId.value))
  | some summaryIndex =>
    let retainedTailIndices :=
      (checkpoint.retainedTailMessageIds.filterMap (messageIndex session.transcript)).filter
        fun i => decide (i < summaryIndex)
    .ok (session.installWindow summaryIndex
      (upgradeRetainedTailIndicesForRequestRounds session.transcript retainedTailIndices
        summaryIndex))

/-- The last event of an agent session. -/
def lastEventOf (agentSessionId : AgentSessionId) : Option ℕ :=
  rposition (fun e => decide (e.agentSessionId = agentSessionId)) events

theorem lastEventOf_concat (event : SessionEventEnvelope) :
    lastEventOf (events ++ [event]) agentSessionId =
      if event.agentSessionId = agentSessionId then some events.length
      else lastEventOf events agentSessionId := by
  rw [lastEventOf, rposition_append]
  split <;> simp [rposition, lastEventOf, *]

/-- The session of a slice that ends in the agent session, before its window. -/
def replayedSession (slice : List SessionEventEnvelope) (agentSessionId : AgentSessionId) :
    RuntimeSession :=
  { RuntimeSession.new ((slice.getLast?.map SessionEventEnvelope.sessionId).getD ⟨""⟩)
      agentSessionId with
    transcript := replayTranscript slice }

@[simp] theorem transcript_replayedSession :
    (replayedSession slice agentSessionId).transcript = replayTranscript slice := rfl

@[simp] theorem removedMessageIds_replayedSession :
    (replayedSession slice agentSessionId).removedMessageIds = ∅ := rfl

/-- Cut the log at the last event of an agent session, replay it, restore the latest window. -/
def reconstructRuntimeSession
    (agentSessionId : AgentSessionId) : Except RuntimeError RuntimeSession :=
  match lastEventOf events agentSessionId with
  | none => .error (.invalidState
      ("agent session missing from persisted event log: " ++ agentSessionId.value))
  | some cutoff =>
    let slice := events.take (cutoff + 1)
    let session := replayedSession slice agentSessionId
    match latestCompactionCheckpoint slice with
    | .error error => .error error
    | .ok none => .ok session
    | .ok (some checkpoint) => restoreWindow session checkpoint

/-- A fork inherits the window under new identities, and no provider exchange. -/
def forkRuntimeSession (parent : RuntimeSession) (sessionId : SessionId)
    (agentSessionId : AgentSessionId) : RuntimeSession :=
  { parent with
    sessionId, agentSessionId
    providerContinuation := none
    providerTranscriptCursor := 0
    agentSessionStarted := false
    tokenLedger := {} }

/-- A fork as events: its transcript, and a checkpoint if it was compacted. -/
def seedRuntimeSessionEvents (session : RuntimeSession) :
    Except RuntimeError (List SessionEventEnvelope) :=
  let envelope (event : SessionEventKind) : SessionEventEnvelope :=
    { sessionId := session.sessionId, agentSessionId := session.agentSessionId
      turnId := none, toolCallId := none, event }
  let messages := session.transcript.map fun message => envelope (.transcriptMessage message)
  match session.compactionSummaryIndex with
  | none => .ok messages
  | some summaryIndex =>
    match session.transcript[summaryIndex]? with
    | none => .error (.invalidState
        ("forked session summary index out of bounds: " ++ toString summaryIndex))
    | some summaryMessage => do
      let retainedTailMessageIds ← session.retainedTailIndices.mapM fun index =>
        match session.transcript[index]? with
        | some message => Except.ok message.messageId
        | none => .error (.invalidState
            ("forked session retained tail index out of bounds: " ++ toString index))
      let retainedBeforeSummary :=
        session.retainedTailIndices.countP fun index => decide (index < summaryIndex)
      return messages ++ [envelope (.compactionCompleted "fork_context"
        (summaryIndex - retainedBeforeSummary) retainedTailMessageIds.length
        summaryMessage.textContent.length (some summaryMessage.messageId)
        retainedTailMessageIds)]

end Nanoclaw
