import Nanoclaw.Lib.System
import Nanoclaw.Runtime.Window

/-!
# Interrupting a Child Agent

`interrupt_child_with_input` loads the session of the child from its log, hides the messages of
the turn in it and logs their removal, and only then aborts the worker and launches a new one.
What the old worker logs after the load is in the log and not in the session of the new worker.

The call and the worker are the two parties of a transition system. The worker logs any events
while it is polled; an abort takes effect when it is not, and only if its join handle was attached.
-/

namespace Nanoclaw

open List Option RuntimeSession

namespace RuntimeSession

/-! ### The interrupted turn -/

/-- The loop that walks back over a request, but not over the summary. -/
def requestClusterStart (session : RuntimeSession) (visibleIndices : List ℕ) : ℕ → ℕ
  | 0 => 0
  | position + 1 =>
    if session.compactionSummaryIndex = visibleIndices[position]? then position + 1
    else
      match (visibleIndices[position]?).bind fun index => session.transcript[index]? with
      | none => position + 1
      | some previous =>
        if isRequest previous then requestClusterStart session visibleIndices position
        else position + 1

def interruptedTurnStartPosition (session : RuntimeSession) (visibleIndices : List ℕ) : Option ℕ :=
  (rposition (fun index => (session.transcript[index]?).any fun message =>
      decide (message.role = .user) && session.survives message) visibleIndices).map
    (session.requestClusterStart visibleIndices)

/-- Everything visible from the start of the interrupted turn on. -/
def interruptedMessageIds (session : RuntimeSession) : List MessageId :=
  match session.interruptedTurnStartPosition session.visibleMessageIndices with
  | none => []
  | some start =>
    (((session.visibleMessageIndices.drop start).filterMap fun index =>
      session.transcript[index]?).filter session.survives).map Message.messageId

/-- The event that logs the removal of a message. -/
def removalEvent (session : RuntimeSession) (messageId : MessageId) : SessionEventEnvelope where
  sessionId := session.sessionId
  agentSessionId := session.agentSessionId
  turnId := none
  toolCallId := none
  event := .transcriptMessageRemoved messageId

/-- Hide the messages of the interrupted turn, with the events that log it. -/
def rollbackInterruptedTurn (session : RuntimeSession) :
    RuntimeSession × List SessionEventEnvelope :=
  (session.interruptedMessageIds.foldl removeMessage session,
    session.interruptedMessageIds.map session.removalEvent)

end RuntimeSession

/-! ### The call and the old worker -/

/-- The task that runs the child when the call is made. -/
structure OldWorker where
  /-- Its join handle is in the record. -/
  attached : Bool
  polled : Bool
  aborted : Bool := false
  gone : Bool := false

/-- How far the call has come. -/
inductive InterruptStage where
  | called
  | loaded (session : RuntimeSession)
  | rolledBack (session : RuntimeSession)
  | restarted (session : RuntimeSession)
  | launched (session : RuntimeSession)
  | failed (error : RuntimeError)

def InterruptStage.isCalled : InterruptStage → Bool
  | .called => true
  | _ => false

/-- An interrupting call beside the worker it interrupts, with the log of the child. -/
structure Interruption where
  log : List SessionEventEnvelope
  worker : OldWorker
  stage : InterruptStage

namespace Interruption

inductive Action where
  /-- The old worker logs an event. -/
  | append (event : SessionEventEnvelope)
  | poll
  | suspend
  /-- The call goes on; the answer is that of the record, of the store, or of the store of
  the parent. -/
  | proceed (answer : Except RuntimeError Unit)

/-- Before the call. -/
def start (log : List SessionEventEnvelope) (attached polled : Bool) : Interruption where
  log
  worker := { attached, polled }
  stage := .called

/-- One step of the call. Without a turn to roll back the store is not asked. -/
def proceed (agentSessionId : AgentSessionId) (answer : Except RuntimeError Unit)
    (s : Interruption) : Interruption :=
  match s.stage, answer with
  | .called, .ok _ =>
    match reconstructRuntimeSession s.log agentSessionId with
    | .error error => { s with stage := .failed error }
    | .ok session => { s with stage := .loaded session }
  | .loaded session, answer =>
    if session.interruptedMessageIds.isEmpty then { s with stage := .rolledBack session }
    else match answer with
      | .error error => { s with stage := .failed error }
      | .ok _ =>
        { s with
          log := s.log ++ session.rollbackInterruptedTurn.2
          stage := .rolledBack session.rollbackInterruptedTurn.1 }
  | .rolledBack session, .ok _ =>
    { s with
      worker := { s.worker with aborted := s.worker.aborted || s.worker.attached }
      stage := .restarted session }
  | .restarted session, .ok _ => { s with stage := .launched session }
  | .called, .error error => { s with stage := .failed error }
  | .rolledBack _, .error error => { s with stage := .failed error }
  | .restarted _, .error error => { s with stage := .failed error }
  | .launched _, _ => s
  | .failed _, _ => s

def step (agentSessionId : AgentSessionId) (s : Interruption) : Action → Interruption
  | .append event =>
    if s.worker.polled && !s.worker.gone then { s with log := s.log ++ [event] } else s
  | .poll =>
    if s.worker.aborted then { s with worker := { s.worker with gone := true } }
    else { s with worker := { s.worker with polled := true } }
  | .suspend =>
    { s with worker := { s.worker with
        polled := false, gone := s.worker.gone || s.worker.aborted } }
  | .proceed answer => s.proceed agentSessionId answer

/-- **Log and restarted child are aligned**: replaying the log shows what the child shows. -/
def Aligned (agentSessionId : AgentSessionId) (s : Interruption) : Prop :=
  match s.stage with
  | .launched session =>
    ∃ restored, reconstructRuntimeSession s.log agentSessionId = .ok restored ∧
      restored.visibleTranscript = session.visibleTranscript
  | _ => True

end Interruption

/-! ### When log and child stay aligned -/

/-- The latest compaction keeps an ordered tail, and its summary is no user message. -/
def checkpointInOrder (events : List SessionEventEnvelope) : Bool :=
  match latestCompactionCheckpoint events with
  | .ok (some checkpoint) =>
    (messageIndex (replayTranscript events) checkpoint.summaryMessageId).all fun k =>
      ((replayTranscript events)[k]?).all (fun summary => decide (summary.role ≠ .user)) &&
        decide ((tailPositions (replayTranscript events) checkpoint.retainedTailMessageIds
          k).Pairwise (· < ·))
  | _ => true

/-- **The condition on a step**: the load sees everything, and the old worker stays silent. -/
def Interruption.quiet (agentSessionId : AgentSessionId) (s : Interruption) :
    Interruption.Action → Bool
  | .append event => s.stage.isCalled || !event.event.isTranscriptEvent
  | .proceed _ => !s.stage.isCalled ||
      (saysNothingAfter s.log agentSessionId && checkpointInOrder s.log)
  | _ => true

/-! ### The start of the interrupted turn -/

variable {start k : ℕ}

namespace RuntimeSession

variable {session : RuntimeSession} {visible : List ℕ}

/-- The message at a visible position. -/
def messageAt (session : RuntimeSession) (visible : List ℕ) (position : ℕ) : Option Message :=
  (visible[position]?).bind fun index => session.transcript[index]?

/-- The walk stops at a request, behind the summary or no request. -/
theorem requestClusterStart_spec (position : ℕ)
    (h : ∃ m, session.messageAt visible position = some m ∧ isRequest m = true) :
    (∃ m, session.messageAt visible (session.requestClusterStart visible position) = some m ∧
        isRequest m = true) ∧
      ∀ before, session.requestClusterStart visible position = before + 1 →
        session.compactionSummaryIndex = visible[before]? ∨
          ∀ m ∈ session.messageAt visible before, isRequest m = false := by
  induction position with
  | zero => exact ⟨h, fun before hbefore => absurd hbefore (Nat.succ_ne_zero before).symm⟩
  | succ position ih =>
    unfold requestClusterStart
    split
    next hsummary => exact ⟨h, by rintro _ ⟨⟩; exact .inl hsummary⟩
    · split
      next hnone => exact ⟨h, by rintro _ ⟨⟩; simp [messageAt, hnone]⟩
      next previous hprevious =>
        split
        next hrequest => exact ih ⟨previous, hprevious, hrequest⟩
        next hrequest => exact ⟨h, by rintro _ ⟨⟩; simp [messageAt, hprevious, hrequest]⟩

/-- The walk does not pass the summary in the first place. -/
theorem requestClusterStart_pos (hsummary : session.compactionSummaryIndex = visible[0]?)
    {position : ℕ} (h : 0 < position) : 0 < session.requestClusterStart visible position := by
  induction position with
  | zero => exact absurd h (lt_irrefl 0)
  | succ position ih =>
    unfold requestClusterStart
    split
    · exact Nat.succ_pos _
    next hne =>
      have hpos : 0 < position := by
        refine pos_of_ne_zero fun hzero => hne ?_
        rw [hsummary, hzero]
      split
      · exact Nat.succ_pos _
      · split
        · exact ih hpos
        · exact Nat.succ_pos _

/-- The walk begins at the last user message. -/
theorem exists_user (h : session.interruptedTurnStartPosition visible = some start) :
    ∃ position m, session.requestClusterStart visible position = start ∧
      session.messageAt visible position = some m ∧ m.role = .user := by
  obtain ⟨position, hposition, hwalk⟩ := map_eq_some_iff.mp h
  obtain ⟨⟨index, hindex, huser⟩, -⟩ := rposition_eq_some_iff.mp hposition
  obtain ⟨m, hm, huser⟩ := (any_eq_true _ _).mp huser
  exact ⟨position, m, hwalk, by rw [messageAt, hindex, bind_some, hm],
    of_decide_eq_true (Bool.and_eq_true_iff.mp huser).1⟩

/-- **The interrupted turn starts** at a request, behind the summary or no request. -/
theorem interruptedTurnStartPosition_spec
    (h : session.interruptedTurnStartPosition visible = some start) :
    (∃ m, session.messageAt visible start = some m ∧ isRequest m = true) ∧
      ∀ before, start = before + 1 → session.compactionSummaryIndex = visible[before]? ∨
        ∀ m ∈ session.messageAt visible before, isRequest m = false := by
  obtain ⟨position, m, rfl, hm, hrole⟩ := exists_user h
  exact requestClusterStart_spec position ⟨m, hm, by rw [isRequest, hrole]⟩

/-- A turn never starts at a summary that is no user message. -/
theorem interruptedTurnStartPosition_pos (hsummary : session.compactionSummaryIndex = visible[0]?)
    (huser : ∀ m ∈ session.messageAt visible 0, m.role ≠ .user)
    (h : session.interruptedTurnStartPosition visible = some start) : 0 < start := by
  obtain ⟨position, m, rfl, hm, hrole⟩ := exists_user h
  refine requestClusterStart_pos hsummary (pos_of_ne_zero fun hzero => ?_)
  exact huser m (hzero ▸ hm) hrole

end RuntimeSession

/-! ### What the rollback removes from a loaded window -/

/-- A session as the log describes it, for an agent session of the log. -/
structure LoadedFrom (events : List SessionEventEnvelope) (agentSessionId : AgentSessionId)
    (session : RuntimeSession) : Prop where
  agentSessionId : session.agentSessionId = agentSessionId
  transcript : session.transcript = replayTranscript events
  removed : session.removedMessageIds = ∅
  window : match latestCompactionCheckpoint events with
    | .error _ => False
    | .ok none => session.compactionSummaryIndex = none
    | .ok (some checkpoint) => ∃ k,
      messageIndex session.transcript checkpoint.summaryMessageId = some k ∧
        session.compactionSummaryIndex = some k ∧ session.postSummaryStart = k + 1 ∧
        session.retainedTailIndices = upgradeRetainedTailIndicesForRequestRounds
          session.transcript
          (tailPositions session.transcript checkpoint.retainedTailMessageIds k) k

variable {events : List SessionEventEnvelope} {session : RuntimeSession} {id : AgentSessionId}
  {event : SessionEventEnvelope}

/-- A load that sees everything gives the session of the whole log. -/
theorem loadedFrom_of_reconstruct (hafter : saysNothingAfter events id = true)
    (h : reconstructRuntimeSession events id = .ok session) :
    LoadedFrom events id session ∧ (lastEventOf events id).isSome = true := by
  unfold reconstructRuntimeSession at h
  cases hcut : lastEventOf events id with
  | none =>
    rw [hcut] at h
    cases h
  | some cutoff =>
    obtain ⟨hreplay, hcheckpoint⟩ := take_mirrors_cut (later_of_saysNothingAfter hcut hafter)
    rw [hcut] at h
    refine ⟨?_, rfl⟩
    simp only [hcheckpoint] at h
    cases hlatest : latestCompactionCheckpoint events with
    | error e =>
      rw [hlatest] at h
      cases h
    | ok latest =>
      rw [hlatest] at h
      cases latest with
      | none =>
        cases h
        exact ⟨rfl, hreplay, rfl, by rw [hlatest]; rfl⟩
      | some checkpoint =>
        simp only [restoreWindow] at h
        split at h
        · cases h
        next k hk =>
          cases h
          refine ⟨rfl, hreplay, rfl, ?_⟩
          rw [hlatest]
          exact ⟨k, hk, rfl, rfl, rfl⟩

theorem LoadedFrom.append_other {later : List SessionEventEnvelope}
    (h : LoadedFrom events id session) (hlater : ∀ e ∈ later, e.event.isTranscriptEvent = false) :
    LoadedFrom (events ++ later) id session := by
  refine ⟨h.agentSessionId, ?_, h.removed, ?_⟩
  · rw [h.transcript, replayTranscript_append_other _ hlater]
  · rw [latestCompactionCheckpoint_append_other _ hlater]
    exact h.window

namespace RuntimeSession

/-- The message is not part of the interrupted turn. -/
def keepsMessage (session : RuntimeSession) (message : Message) : Bool :=
  decide (message.messageId ∉ session.interruptedMessageIds)

theorem visibleMessageIndices_of_window (hremoved : session.removedMessageIds = ∅)
    (hindex : session.compactionSummaryIndex = some k) (hpost : session.postSummaryStart = k + 1)
    (hk : k < session.transcript.length) (htail : ∀ i ∈ session.retainedTailIndices, i < k) :
    session.visibleMessageIndices = k :: session.retainedTailIndices ++
      range' (k + 1) (session.transcript.length - (k + 1)) := by
  unfold visibleMessageIndices
  rw [hindex]
  simp only [hpost]
  rw [filter_eq_self.mpr fun i hi => decide_eq_true (htail i hi)]
  refine filter_eq_self.mpr fun i hi => ?_
  have hlt : i < session.transcript.length := by
    rcases mem_append.mp hi with hi | hi
    · rcases mem_cons.mp hi with rfl | hi
      · exact hk
      · exact (htail i hi).trans hk
    · have := mem_range'_1.mp hi
      omega
  simp [getElem?_eq_getElem hlt, survives, hremoved]

/-- A message is kept iff it is before the start of the turn. -/
theorem keepsMessage_iff (hremoved : session.removedMessageIds = ∅) (hn : session.ids.Nodup)
    (hstart : session.interruptedTurnStartPosition session.visibleMessageIndices = some start)
    {i : ℕ} {m : Message} (hm : session.transcript[i]? = some m) :
    session.keepsMessage m = true ↔ i ∉ session.visibleMessageIndices.drop start := by
  have hids : session.interruptedMessageIds =
      ((session.visibleMessageIndices.drop start).filterMap fun index =>
        session.transcript[index]?).map Message.messageId := by
    rw [interruptedMessageIds, hstart]
    simp only
    rw [filter_eq_self.mpr fun m _ => by simp [survives, hremoved]]
  rw [keepsMessage, decide_eq_true_iff, not_iff_not, hids]
  constructor
  · intro h
    obtain ⟨m', hm', hid⟩ := mem_map.mp h
    obtain ⟨j, hj, hm'⟩ := mem_filterMap.mp hm'
    exact position_unique Message.messageId hn hm' hm hid ▸ hj
  · exact fun h => mem_map_of_mem (mem_filterMap.mpr ⟨i, h, hm⟩)

end RuntimeSession

/-- A message that follows an answer and is a request starts a round. -/
theorem startsRequestRound_of_request {transcript : List Message} {q : ℕ} {m previous : Message}
    (hm : transcript[q + 1]? = some m) (hrequest : isRequest m = true)
    (hprevious : transcript[q]? = some previous) (hanswer : isRequest previous = false) :
    startsRequestRound transcript (q + 1) = true := by
  unfold startsRequestRound
  unfold isRequest at hrequest hanswer
  cases hrole : m.role <;> rw [hrole] at hrequest <;> cases hprole : previous.role <;>
    rw [hprole] at hanswer <;> simp_all

section Window

variable {first : ℕ} {rest : List ℕ}

/-- **The turn does not start inside the request that the extension added.** -/
theorem turn_start_of_extended (hk : k < session.transcript.length)
    (hindex : session.compactionSummaryIndex = some k) (hfirst : first < k)
    (post : List ℕ)
    (hpos : 0 < start)
    (hstart : session.interruptedTurnStartPosition
      (k :: (range' (requestRoundStart session.transcript first)
        (first - requestRoundStart session.transcript first) ++ first :: rest) ++ post) =
        some start) :
    start = 1 ∨ 1 + (first - requestRoundStart session.transcript first) < start := by
  obtain ⟨⟨m, hm, hrequest⟩, hbefore⟩ :=
    interruptedTurnStartPosition_spec hstart
  set origin := requestRoundStart session.transcript first with horigin
  by_contra hne
  obtain ⟨q, rfl⟩ : ∃ q, start = q + 2 := ⟨start - 2, by omega⟩
  -- The positions in front of the first retained message are consecutive.
  have hread : ∀ j ≤ first - origin, (k :: (range' origin (first - origin) ++ first :: rest) ++
      post)[j + 1]? = some (origin + j) := by
    intro j hj
    rw [cons_append, getElem?_cons_succ, append_assoc]
    rcases lt_or_eq_of_le hj with hlt | rfl
    · rw [getElem?_append_left (by simpa using hlt), getElem?_range' hlt, one_mul]
    · rw [getElem?_append_right (by simp), length_range', Nat.sub_self]
      simp only [cons_append, getElem?_cons_zero]
      congr 1
      omega
  rw [messageAt, hread (q + 1) (by omega), ← add_assoc] at hm
  have hprevious := getElem?_eq_getElem (by omega : origin + q < session.transcript.length)
  rcases hbefore (q + 1) rfl with hsummary | hanswer
  · rw [hindex, hread q (by omega)] at hsummary
    have := some.inj hsummary
    omega
  · have hprev := hanswer _ (by
      rw [messageAt, hread q (by omega)]
      exact hprevious)
    have hround := startsRequestRound_of_request hm hrequest hprevious hprev
    have hle' := le_requestRoundStart hround (by omega : origin + q + 1 ≤ first)
    omega

/-- **A rollback leaves** the summary, and of the tail all up to a message or nothing. -/
theorem rollback_window (hremoved : session.removedMessageIds = ∅) (hn : session.ids.Nodup)
    (hindex : session.compactionSummaryIndex = some k) (hpost : session.postSummaryStart = k + 1)
    {summary : Message} (hsummary : session.transcript[k]? = some summary)
    (huser : summary.role ≠ .user) {ids : List MessageId}
    (hordered : (tailPositions session.transcript ids k).Pairwise (· < ·))
    (htail : session.retainedTailIndices = extendedTail session.transcript ids k) :
    session.keepsMessage summary = true ∧
      ((∀ i ∈ extendedTail session.transcript ids k,
          ∀ m ∈ session.transcript[i]?, session.keepsMessage m = false) ∨
        ∀ first ∈ (tailPositions session.transcript ids k).head?,
          ∀ i ≤ first, ∀ m ∈ session.transcript[i]?, session.keepsMessage m = true) := by
  have hk := (List.getElem?_eq_some_iff.mp hsummary).1
  have hvisible := visibleMessageIndices_of_window hremoved hindex hpost hk
    (htail ▸ fun _ => lt_of_mem_extendedTail)
  rw [htail] at hvisible
  cases hstart : session.interruptedTurnStartPosition session.visibleMessageIndices with
  | none =>
    have hkeeps (m : Message) : session.keepsMessage m = true := by
      simp [keepsMessage, interruptedMessageIds, hstart]
    exact ⟨hkeeps _, .inr fun _ _ _ _ m _ => hkeeps m⟩
  | some start =>
    have hkeeps := fun i m => keepsMessage_iff hremoved hn hstart (i := i) (m := m)
    have hpos : 0 < start := by
      refine interruptedTurnStartPosition_pos ?_ ?_ hstart
      · rw [hvisible, hindex]
        rfl
      · rw [hvisible, messageAt]
        simp only [cons_append, getElem?_cons_zero, bind_some, hsummary]
        rintro m ⟨⟩
        exact huser
    obtain ⟨position, rfl⟩ : ∃ position, start = position + 1 := ⟨start - 1, by omega⟩
    rw [hvisible, cons_append, drop_succ_cons] at hkeeps
    have hpostlt : ∀ i ∈ range' (k + 1) (session.transcript.length - (k + 1)), k < i :=
      fun i hi => (mem_range'_1.mp hi).1
    refine ⟨(hkeeps k summary hsummary).mpr fun hmem => ?_, ?_⟩
    · rcases mem_append.mp (mem_of_mem_drop hmem) with hi | hi
      · exact lt_irrefl k (lt_of_mem_extendedTail hi)
      · exact lt_irrefl k (hpostlt k hi)
    · unfold extendedTail at hvisible hkeeps ⊢
      cases hpositions : tailPositions session.transcript ids k with
      | nil => exact .inr nofun
      | cons first rest =>
        have hfirst := (of_mem_tailPositions (hpositions ▸ mem_cons_self)).1
        rw [hpositions] at hvisible hkeeps hordered
        rw [upgrade_cons _ _ hfirst] at hvisible hkeeps ⊢
        rw [hvisible] at hstart
        rcases turn_start_of_extended hk hindex hfirst _ hpos hstart with hone | hbehind
        · -- The whole tail is rolled back.
          obtain rfl : position = 0 := by omega
          refine .inl fun i hi m hm => Bool.eq_false_iff.mpr fun hkept => ?_
          exact (hkeeps i m hm).mp hkept (mem_append_left _ hi)
        · -- The turn starts behind the first message of the tail.
          refine .inr fun first' hfirst' i hi m hm => (hkeeps i m hm).mpr fun hmem => ?_
          obtain rfl : first = first' := some.inj hfirst'
          obtain ⟨j, hj⟩ : ∃ j, position = (range' (requestRoundStart session.transcript
              first) (first - requestRoundStart session.transcript first)).length + (j + 1) :=
            ⟨position - (first - requestRoundStart session.transcript first) - 1, by
              rw [length_range']; omega⟩
          rw [append_assoc, hj, drop_length_add_append, cons_append] at hmem
          rcases mem_append.mp (mem_of_mem_drop hmem) with hrest | hrest
          · have := (pairwise_cons.mp hordered).1 i hrest
            omega
          · have := hpostlt i hrest
            omega

end Window

/-! ### The log after the rollback -/

/-- Logged removals take their messages out and leave the rest. -/
theorem replay_append_removals (hn : (loggedIds events).Nodup)
    (envelope : MessageId → SessionEventEnvelope)
    (henvelope : ∀ id, (envelope id).event = .transcriptMessageRemoved id) (ids : List MessageId) :
    loggedIds (events ++ ids.map envelope) = loggedIds events ∧
      latestCompactionCheckpoint (events ++ ids.map envelope) = latestCompactionCheckpoint events ∧
      replayTranscript (events ++ ids.map envelope) =
        (replayTranscript events).filter fun m => decide (m.messageId ∉ ids) := by
  induction ids using reverseRecOn with
  | nil => simp
  | append_singleton ids id ih =>
    obtain ⟨hlogged, hcheckpoint, hreplay⟩ := ih
    rw [map_append, map_singleton, ← append_assoc]
    refine ⟨?_, ?_, ?_⟩
    · rw [loggedIds_append, hlogged]
      simp [loggedIds, introducedId, henvelope]
    · rw [latestCompactionCheckpoint_append_of_none _ (by simp [compactionRecord, henvelope]),
        hcheckpoint]
    · rw [replayTranscript_append (hlogged ▸ hn), hreplay, henvelope, applyEvent, eraseKey,
        List.filter_filter]
      exact filter_congr fun m _ => by simp [and_comm]

theorem LoadedFrom.loggedWindow (h : LoadedFrom events id session) :
    loggedWindow events = some session.window := by
  have hwindow := h.window
  unfold Nanoclaw.loggedWindow
  generalize latestCompactionCheckpoint events = latest at hwindow ⊢
  rcases latest with e | _ | checkpoint
  · exact hwindow.elim
  · simp only at hwindow
    rw [RuntimeSession.window, hwindow, h.transcript]
  · obtain ⟨k, hk, hindex, hpost, htail⟩ := hwindow
    obtain ⟨⟨summary, hsummary, -⟩, -⟩ := rposition_eq_some_iff.mp hk
    simp only [← h.transcript, hk, map_some]
    rw [checkpointWindow_eq _ _ hsummary, RuntimeSession.window, hindex]
    simp only [hsummary, toList_some, hpost, retainedTail, htail]
    rw [filter_eq_self.mpr fun i hi => decide_eq_true (lt_of_mem_extendedTail hi)]
    rfl

/-- **Rolling back the turn keeps log and session aligned.** -/
theorem rollback_loggedWindow (h : LoadedFrom events id session)
    (horder : checkpointInOrder events = true) (hn : (loggedIds events).Nodup) :
    loggedWindow (events ++ session.rollbackInterruptedTurn.2) =
      some session.rollbackInterruptedTurn.1.visibleTranscript := by
  unfold rollbackInterruptedTurn
  obtain ⟨-, hcheckpoint, hreplay⟩ := replay_append_removals hn
    session.removalEvent (fun _ => rfl) session.interruptedMessageIds
  rw [visibleTranscript_foldl_removeMessage, visibleTranscript_of_removed_eq_empty h.removed]
  have hbefore := h.loggedWindow
  have hwindow := h.window
  unfold loggedWindow at hbefore ⊢
  unfold checkpointInOrder at horder
  rw [hcheckpoint, hreplay, ← h.transcript]
  rw [← h.transcript] at hbefore horder
  generalize latestCompactionCheckpoint events = latest at hwindow hbefore horder ⊢
  rcases latest with e | _ | checkpoint
  · exact hwindow.elim
  · exact congrArg some (congrArg (filter _) (some.inj hbefore))
  · obtain ⟨k, hk, hindex, hpost, htail⟩ := hwindow
    simp only [hk, all_some, Bool.and_eq_true, decide_eq_true_eq] at hbefore horder
    obtain ⟨⟨summary, hsummary, -⟩, -⟩ := rposition_eq_some_iff.mp hk
    rw [hsummary, all_some, decide_eq_true_eq] at horder
    have hids : session.ids.Nodup := by
      rw [ids, h.transcript]
      exact nodup_replayTranscript hn
    obtain ⟨hkeep, hleft⟩ := rollback_window h.removed hids hindex hpost hsummary horder.1
      horder.2 htail
    obtain ⟨k', hk', hfilter⟩ := checkpointWindow_filter session.keepsMessage hids hk
      (fun m hm => by rw [hsummary] at hm; cases hm; exact hkeep) hleft
    have hkeeps : session.keepsMessage =
        fun m => decide (m.messageId ∉ session.interruptedMessageIds) := rfl
    rw [hkeeps] at hk' hfilter
    simp only [hk', map_some, hfilter, some.inj hbefore]

/-! ### Logs that go on -/

section Growing

/-- The agent session has logged something, and nothing was said after that. -/
structure EndsIn (events : List SessionEventEnvelope) (id : AgentSessionId) : Prop where
  present : (lastEventOf events id).isSome = true
  silent : saysNothingAfter events id = true

/-- A log whose last event is one of the agent session. -/
theorem endsIn_of_last (h : event.agentSessionId = id) : EndsIn (events ++ [event]) id := by
  have hcut := (lastEventOf_concat id events event).trans (if_pos h)
  exact ⟨by rw [hcut]; rfl, by simp [saysNothingAfter, hcut]⟩

/-- Events that are no transcript events say nothing. -/
theorem EndsIn.append (h : EndsIn events id) (hevent : event.event.isTranscriptEvent = false) :
    EndsIn (events ++ [event]) id := by
  by_cases hid : event.agentSessionId = id
  · exact endsIn_of_last hid
  · obtain ⟨cutoff, hcut⟩ := isSome_iff_exists.mp h.present
    have hcut' := ((lastEventOf_concat id events event).trans (if_neg hid)).trans hcut
    have hlt : cutoff + 1 ≤ events.length := by
      obtain ⟨⟨e, he, -⟩, -⟩ := rposition_eq_some_iff.mp hcut
      exact (List.getElem?_eq_some_iff.mp he).1
    refine ⟨by rw [hcut']; rfl, ?_⟩
    have hsilent := h.silent
    simp only [saysNothingAfter, hcut, hcut', all_some] at hsilent ⊢
    rw [drop_append_of_le_length hlt, all_append, hsilent]
    simp [hevent]

theorem checkpointInOrder_append (hevent : event.event.isTranscriptEvent = false) :
    checkpointInOrder (events ++ [event]) = checkpointInOrder events := by
  have hlater : ∀ e ∈ [event], e.event.isTranscriptEvent = false := by simpa using hevent
  unfold checkpointInOrder
  rw [latestCompactionCheckpoint_append_other _ hlater, replayTranscript_append_other _ hlater]

/-- Replaying a log shows the window it describes. -/
theorem EndsIn.reconstruct (h : EndsIn events id) {visible : List Message}
    (hwindow : loggedWindow events = some visible) :
    ∃ restored, reconstructRuntimeSession events id = .ok restored ∧
      restored.visibleTranscript = visible := by
  obtain ⟨cutoff, hcut⟩ := isSome_iff_exists.mp h.present
  have hmap := (reconstruct_loggedWindow hcut h.silent).trans hwindow
  cases hok : reconstructRuntimeSession events id with
  | error e =>
    rw [hok] at hmap
    cases hmap
  | ok restored =>
    rw [hok] at hmap
    exact ⟨restored, rfl, some.inj hmap⟩

end Growing

/-! ### Runs -/

namespace Interruption

variable {agentSessionId : AgentSessionId} {s : Interruption}

/-- What the log says about the stage of the call. -/
def Tracked (agentSessionId : AgentSessionId) (s : Interruption) : Prop :=
  match s.stage with
  | .called => True
  | .failed _ => True
  | .loaded session => LoadedFrom s.log agentSessionId session ∧
      checkpointInOrder s.log = true ∧ EndsIn s.log agentSessionId
  | .rolledBack session => loggedWindow s.log = some session.visibleTranscript ∧
      EndsIn s.log agentSessionId
  | .restarted session => loggedWindow s.log = some session.visibleTranscript ∧
      EndsIn s.log agentSessionId
  | .launched session => loggedWindow s.log = some session.visibleTranscript ∧
      EndsIn s.log agentSessionId

/-- What the old worker logs without saying anything. -/
theorem Tracked.append (h : s.Tracked agentSessionId)
    (hevent : event.event.isTranscriptEvent = false) :
    Tracked agentSessionId { s with log := s.log ++ [event] } := by
  have hlater : ∀ e ∈ [event], e.event.isTranscriptEvent = false := by simpa using hevent
  have hwindow : loggedWindow (s.log ++ [event]) = loggedWindow s.log := by
    rw [loggedWindow, latestCompactionCheckpoint_append_other _ hlater,
      replayTranscript_append_other _ hlater, loggedWindow]
  rcases s with ⟨log, worker, stage⟩
  cases stage with
  | called | failed => trivial
  | loaded session =>
    obtain ⟨hloaded, horder, hends⟩ := h
    exact ⟨hloaded.append_other hlater, (checkpointInOrder_append hevent).trans horder,
      hends.append hevent⟩
  | rolledBack | restarted | launched => exact ⟨hwindow.trans h.1, h.2.append hevent⟩

theorem Tracked.rollback (hn : (loggedIds s.log).Nodup)
    (h : LoadedFrom s.log agentSessionId session) (horder : checkpointInOrder s.log = true)
    (hends : EndsIn s.log agentSessionId) :
    loggedWindow (s.log ++ session.rollbackInterruptedTurn.2) =
        some session.rollbackInterruptedTurn.1.visibleTranscript ∧
      EndsIn (s.log ++ session.rollbackInterruptedTurn.2) agentSessionId := by
  refine ⟨rollback_loggedWindow h horder hn, ?_⟩
  rcases eq_nil_or_concat session.interruptedMessageIds with hnil | ⟨ids, id, hids⟩
  · simpa [rollbackInterruptedTurn, hnil] using hends
  · simp only [rollbackInterruptedTurn, hids, concat_eq_append,
      map_append, map_singleton, ← append_assoc]
    exact endsIn_of_last h.agentSessionId

/-- **Step lemma.** A step that meets the condition keeps the log in step with the call. -/
theorem Tracked.step (h : s.Tracked agentSessionId) {action : Action}
    (hn : (loggedIds s.log).Nodup) (hquiet : s.quiet agentSessionId action = true) :
    (s.step agentSessionId action).Tracked agentSessionId := by
  cases action with
  | append event =>
    simp only [Interruption.step]
    split
    · rcases Bool.or_eq_true_iff.mp hquiet with hcalled | hsilent
      · rcases s with ⟨log, worker, stage⟩
        cases stage with
        | called => trivial
        | _ => cases hcalled
      · exact h.append (by simpa using hsilent)
    · exact h
  | poll =>
    simp only [Interruption.step]
    split <;> exact h
  | suspend => exact h
  | proceed answer =>
    rcases s with ⟨log, worker, stage⟩
    simp only [Interruption.step, proceed]
    cases stage with
    | called =>
      cases answer with
      | error e => trivial
      | ok _ =>
        obtain ⟨hsilent, horder⟩ :
            saysNothingAfter log agentSessionId = true ∧ checkpointInOrder log = true := by
          simpa [quiet, InterruptStage.isCalled] using hquiet
        cases hload : reconstructRuntimeSession log agentSessionId with
        | error e => trivial
        | ok session =>
          obtain ⟨hloaded, hpresent⟩ := loadedFrom_of_reconstruct hsilent hload
          exact ⟨hloaded, horder, hpresent, hsilent⟩
    | loaded session =>
      obtain ⟨hloaded, horder, hends⟩ := h
      obtain ⟨hwindow, hends'⟩ := Tracked.rollback hn hloaded horder hends
      simp only
      split
      next hempty =>
        rw [rollbackInterruptedTurn, isEmpty_iff.mp hempty] at hwindow
        simp only [map_nil, append_nil] at hwindow
        exact ⟨hwindow, hends⟩
      · cases answer with
        | error e => trivial
        | ok _ => exact ⟨hwindow, hends'⟩
    | rolledBack session | restarted session =>
      cases answer with
      | error e => trivial
      | ok _ => exact h
    | launched session | failed e => exact h

/-- A step does not take anything out of the log. -/
theorem log_step (agentSessionId : AgentSessionId) (s : Interruption) (action : Action) :
    s.log <+: (s.step agentSessionId action).log := by
  cases action with
  | append event =>
    simp only [Interruption.step]
    split
    · exact prefix_append _ _
    · exact prefix_rfl
  | poll =>
    simp only [Interruption.step]
    split <;> exact prefix_rfl
  | suspend => exact prefix_rfl
  | proceed answer =>
    simp only [Interruption.step, proceed]
    repeat' split
    all_goals first | exact prefix_rfl | exact prefix_append _ _

end Interruption

/-- **An interrupt keeps log and child aligned** in every run in which the load sees everything that
was said and the old worker says nothing after it. -/
theorem interrupt_keeps_aligned (agentSessionId : AgentSessionId)
    (log : List SessionEventEnvelope) (attached polled : Bool)
    (actions : List Interruption.Action)
    (hn : (loggedIds (System.run (Interruption.step agentSessionId)
      (.start log attached polled) actions).log).Nodup)
    (hquiet : System.Meets (Interruption.step agentSessionId)
      (fun s action => s.quiet agentSessionId action = true)
      (.start log attached polled) actions) :
    (System.run (Interruption.step agentSessionId) (.start log attached polled)
      actions).Aligned agentSessionId := by
  have htracked := hquiet.run (I := fun s => (loggedIds s.log).Nodup → s.Tracked agentSessionId)
    (fun s action h hquiet hn => by
      obtain ⟨later, hlater⟩ := s.log_step agentSessionId action
      rw [← hlater, loggedIds_append] at hn
      exact (h hn.of_append_left).step hn.of_append_left hquiet)
    (fun _ => trivial) hn
  generalize System.run (Interruption.step agentSessionId) (.start log attached polled)
    actions = s at htracked ⊢
  rcases s with ⟨log, worker, stage⟩
  cases stage with
  | launched session => exact htracked.2.reconstruct htracked.1
  | _ => trivial

/-! ### Two runs -/

/-- An event of the child. -/
def childEvent (event : SessionEventKind) : SessionEventEnvelope where
  sessionId := ⟨"s"⟩
  agentSessionId := ⟨"a"⟩
  turnId := none
  toolCallId := none
  event

/-- A round, and the request of the turn that is interrupted. -/
def childLog : List SessionEventEnvelope :=
  [ childEvent (.transcriptMessage (.user "ask" ⟨"u0"⟩)),
    childEvent (.transcriptMessage (.assistant "answer" ⟨"a1"⟩)),
    childEvent (.transcriptMessage (.user "ask" ⟨"u2"⟩)) ]

/-- The call is made, and the old worker logs an event between load and rollback. -/
def interruptedBy (event : SessionEventKind) : Interruption :=
  System.run (Interruption.step ⟨"a"⟩) (.start childLog true true)
    [.proceed (.ok ()), .append (childEvent event), .proceed (.ok ()), .proceed (.ok ()),
      .suspend, .proceed (.ok ())]

/-- A notification does no harm. -/
theorem notification_keeps_alignment :
    (interruptedBy (.notification "tool" "done")).Aligned ⟨"a"⟩ :=
  interrupt_keeps_aligned ⟨"a"⟩ childLog true true _ (by decide +kernel) (by decide +kernel)

/-- **An answer logged between load and abort survives in the log only.** -/
theorem interrupt_loses_alignment :
    (loggedIds (interruptedBy (.transcriptMessage (.assistant "late" ⟨"a3"⟩))).log).Nodup ∧
      ¬ (interruptedBy (.transcriptMessage (.assistant "late" ⟨"a3"⟩))).Aligned ⟨"a"⟩ := by
  refine ⟨by decide +kernel, ?_⟩
  rintro ⟨restored, hrestored, hvisible⟩
  have hshown := congrArg (fun result => result.toOption.map fun restored : RuntimeSession =>
    restored.visibleTranscript.map Message.messageId) hrestored
  simp only [Except.toOption, map_some, hvisible] at hshown
  revert hshown
  decide +kernel

end Nanoclaw
