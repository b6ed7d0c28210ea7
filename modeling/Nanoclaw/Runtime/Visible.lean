import Nanoclaw.Runtime.Change

/-!
# The Visible Transcript under Changes

The window of a session is valid if its summary is in the transcript and what follows the window
starts inside it (`RuntimeSession.WindowValid`). Every change keeps that, also an interrupted one,
and in a valid window an appended message appears at the end (`visibleTranscript_pushMessage`).
-/

namespace Nanoclaw

open List

namespace RuntimeSession

/-- **The window lies in the transcript.** -/
def WindowValid (session : RuntimeSession) : Prop :=
  ∀ k ∈ session.compactionSummaryIndex,
    k < session.transcript.length ∧ session.postSummaryStart ≤ session.transcript.length

theorem windowValid_new (sessionId : SessionId) (agentSessionId : AgentSessionId) :
    (new sessionId agentSessionId).WindowValid :=
  nofun

variable {session session' : RuntimeSession} {tail : List ℕ}

theorem WindowValid.of_length (h : session.WindowValid)
    (hsummary : session'.compactionSummaryIndex = session.compactionSummaryIndex)
    (hpost : session'.postSummaryStart = session.postSummaryStart)
    (hlen : session.transcript.length ≤ session'.transcript.length) : session'.WindowValid := by
  intro k hk
  obtain ⟨hlt, hle⟩ := h k (hsummary ▸ hk)
  exact ⟨hlt.trans_le hlen, hpost ▸ hle.trans hlen⟩

theorem windowValid_installWindow {k : ℕ}
    (hk : k < session.transcript.length) : (session.installWindow k tail).WindowValid := by
  rintro _ ⟨⟩
  exact ⟨hk, hk⟩

/-! ### Appending -/

theorem window_pushMessage (h : session.WindowValid)
    (message : Message) : (session.pushMessage message).window = session.window ++ [message] := by
  unfold window retainedTail pushMessage
  dsimp only
  cases hk : session.compactionSummaryIndex with
  | none => rfl
  | some k =>
    obtain ⟨hlt, hle⟩ := h k hk
    have htail : ∀ i ∈ session.retainedTailIndices.filter fun i => decide (i < k),
        i < session.transcript.length := fun i hi =>
      (of_decide_eq_true (mem_filter.mp hi).2 : i < k).trans hlt
    simp only [getElem?_append_left hlt, drop_append_of_le_length hle,
      filterMap_getElem?_append _ _ htail, append_assoc]

/-- **An appended message appears at the end**, unless its identifier was removed before. -/
theorem visibleTranscript_pushMessage (h : session.WindowValid)
    (message : Message) : (session.pushMessage message).visibleTranscript =
      session.visibleTranscript ++ [message].filter session.survives := by
  rw [visibleTranscript_eq, visibleTranscript_eq, window_pushMessage h, filter_append]
  rfl

/-! ### Compacting -/

/-- **A compaction shows the summary and the tail.** -/
theorem visibleTranscript_installSummary {message : Message}
    (htail : ∀ i ∈ tail, i < session.transcript.length) :
    ((session.pushMessage message).installWindow session.transcript.length tail).visibleTranscript =
        (message :: tail.filterMap fun i => session.transcript[i]?).filter session.survives := by
  rw [visibleTranscript_eq]
  have hfilter : (tail.filter fun i => decide (i < session.transcript.length)) = tail :=
    filter_eq_self.mpr fun i hi => decide_eq_true (htail i hi)
  have hwindow : ((session.pushMessage message).installWindow session.transcript.length
      tail).window = message :: tail.filterMap fun i => session.transcript[i]? := by
    simp only [window, retainedTail, installWindow, transcript_pushMessage]
    rw [hfilter, filterMap_getElem?_append _ _ htail]
    simp
  rw [hwindow]
  rfl

/-! ### Editing -/

/-- An edit leaves alone in the window what it leaves alone in messages. -/
theorem map_visibleTranscript_congr {β : Type}
    (f : Message → β) (hsummary : session'.compactionSummaryIndex = session.compactionSummaryIndex)
    (htail : session'.retainedTailIndices = session.retainedTailIndices)
    (hpost : session'.postSummaryStart = session.postSummaryStart)
    (hremoved : session'.removedMessageIds = session.removedMessageIds)
    (hids : session'.ids = session.ids)
    (hf : session'.transcript.map f = session.transcript.map f) :
    session'.visibleTranscript.map f = session.visibleTranscript.map f := by
  have hany : ∀ i : ℕ, (session'.transcript[i]?).any session'.survives =
      (session.transcript[i]?).any session.survives := by
    intro i
    have hid : (session'.transcript[i]?).map Message.messageId =
        (session.transcript[i]?).map Message.messageId := by
      rw [← getElem?_map, ← getElem?_map]
      exact congrArg (·[i]?) hids
    have hsurvives : ∀ (s : RuntimeSession) (m : Option Message), m.any s.survives =
        (m.map Message.messageId).any fun id => decide (id ∉ s.removedMessageIds) := by
      intro s m
      cases m <;> rfl
    rw [hsurvives, hsurvives, hid, hremoved]
  have hlen : session'.transcript.length = session.transcript.length := by
    simpa using congrArg length hf
  have hindices : session'.visibleMessageIndices = session.visibleMessageIndices := by
    unfold visibleMessageIndices
    rw [hsummary, htail, hpost, hlen]
    simp only [hany]
  unfold visibleTranscript
  rw [hindices, map_filterMap, map_filterMap]
  refine filterMap_congr fun i _ => ?_
  rw [← getElem?_map, ← getElem?_map, hf]

end RuntimeSession

/-! ### Changes keep the window valid -/

open RuntimeSession

theorem Core.windowValid_foldl_removeLogged {core : Core} (h : core.session.WindowValid)
    (turnId : TurnId) (ids : List MessageId) :
    (ids.foldl (Core.removeLogged turnId) core).session.WindowValid := by
  rw [Core.session_foldl_removeLogged]
  exact h.of_length rfl rfl le_rfl

theorem Change.windowValid (core : Core) (change : Change) (h : core.session.WindowValid) :
    (change.apply core).session.WindowValid := by
  cases change with
  | log | record | reset | usage | start | rotate => exact h.of_length rfl rfl le_rfl
  | push | edit =>
    refine h.of_length rfl rfl ?_
    simp [Change.apply, Change.pushLogged, Core.mapSession, Core.append]
  | remove turnId ids =>
    exact (Core.windowValid_foldl_removeLogged h turnId ids).of_length rfl rfl le_rfl
  | commit =>
    refine windowValid_installWindow ?_
    simp [Change.pushLogged, Core.mapSession, Core.append]

theorem Change.Interrupted.windowValid {core core' : Core} {change : Change}
    {event : SessionEventKind} (hi : change.Interrupted core event core')
    (h : core.session.WindowValid) : core'.session.WindowValid := by
  cases hi with
  | push | edit | commitSummary =>
    refine h.of_length rfl rfl ?_
    simp [Core.mapSession]
  | remove => exact (Core.windowValid_foldl_removeLogged h _ _).of_length rfl rfl le_rfl
  | commitCheckpoint =>
    refine windowValid_installWindow ?_
    simp [Change.pushLogged, Core.mapSession, Core.append]
  | usage => exact h.of_length rfl rfl le_rfl

end Nanoclaw
