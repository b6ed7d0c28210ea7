import Nanoclaw.Runtime.Session

/-!
# The Log Mirrors the Session

`Mirrors session events`: the log replays to the messages of the session that survive, and its
latest checkpoint names the summary and the retained tail of the session. Every change that the
runtime makes keeps this together with the event it logs. The window is related through
identifiers only, so an edit of a message does not touch it.
-/

namespace Nanoclaw

open List RuntimeSession

/-- The checkpoint names the summary and the survivors of the retained tail. -/
structure CheckpointMirrors (session : RuntimeSession) (summaryIndex : ℕ)
    (checkpoint : CompactionCheckpoint) : Prop where
  index : session.compactionSummaryIndex = some summaryIndex
  summary : session.ids[summaryIndex]? = some checkpoint.summaryMessageId
  post : session.postSummaryStart = summaryIndex + 1
  tail_lt : ∀ i ∈ session.retainedTailIndices, i < summaryIndex
  tail : (session.retainedTailIndices.filterMap (fun i => session.ids[i]?)).filter
      (fun id => decide (id ∉ session.removedMessageIds)) =
    checkpoint.retainedTailMessageIds.filter
      (fun id => decide (id ∈ session.ids ∧ id ∉ session.removedMessageIds))

/-- The latest checkpoint of the log describes the window of the session. -/
def WindowMirrors (session : RuntimeSession) (events : List SessionEventEnvelope) : Prop :=
  match latestCompactionCheckpoint events with
  | .error _ => False
  | .ok none => session.compactionSummaryIndex = none
  | .ok (some checkpoint) =>
    (∀ id ∈ checkpoint.retainedTailMessageIds, id ∈ loggedIds events) ∧
      ∃ summaryIndex, CheckpointMirrors session summaryIndex checkpoint

/-- **The log mirrors the session.** -/
structure Mirrors (session : RuntimeSession) (events : List SessionEventEnvelope) : Prop where
  ids : session.ids.Sublist (loggedIds events)
  removed : ∀ id ∈ session.removedMessageIds, id ∈ loggedIds events
  survivors : replayTranscript events = session.transcript.filter session.survives
  window : WindowMirrors session events

/-! ### The latest checkpoint of a growing log -/

variable {event : SessionEventEnvelope} {events : List SessionEventEnvelope}
  {session : RuntimeSession}

theorem compactionRecord_eq_none (h : event.event.isTranscriptEvent = false) :
    compactionRecord event = none := by
  rcases event with ⟨sid, aid, tid, cid, kind⟩
  cases kind <;> first | rfl | cases h

section

variable (events)

theorem latestCompactionCheckpoint_append_of_none (h : compactionRecord event = none) :
    latestCompactionCheckpoint (events ++ [event]) = latestCompactionCheckpoint events := by
  unfold latestCompactionCheckpoint
  rw [reverse_append, reverse_singleton, singleton_append, findSome?_cons, h]

theorem latestCompactionCheckpoint_append_of_some {checkpoint : CompactionCheckpoint}
    (h : compactionRecord event =
      some (some checkpoint.summaryMessageId, checkpoint.retainedTailMessageIds)) :
    latestCompactionCheckpoint (events ++ [event]) = .ok (some checkpoint) := by
  unfold latestCompactionCheckpoint
  rw [reverse_append, reverse_singleton, singleton_append, findSome?_cons, h]

theorem latestCompactionCheckpoint_append_other
    {later : List SessionEventEnvelope} (h : ∀ e ∈ later, e.event.isTranscriptEvent = false) :
    latestCompactionCheckpoint (events ++ later) = latestCompactionCheckpoint events := by
  induction later using reverseRecOn with
  | nil => rw [append_nil]
  | append_singleton later event ih =>
    rw [← append_assoc, latestCompactionCheckpoint_append_of_none _
      (compactionRecord_eq_none (h event (by simp)))]
    exact ih fun e he => h e (by simp [he])

end

/-! ### Frames -/

/-- The window relation survives a log that grows without compactions. -/
theorem WindowMirrors.append {session' : RuntimeSession} (h : WindowMirrors session events)
    (hevent : compactionRecord event = none)
    (hindex : session'.compactionSummaryIndex = session.compactionSummaryIndex)
    (hcheck : ∀ summaryIndex checkpoint,
      (∀ id ∈ checkpoint.retainedTailMessageIds, id ∈ loggedIds events) →
      CheckpointMirrors session summaryIndex checkpoint →
      CheckpointMirrors session' summaryIndex checkpoint) :
    WindowMirrors session' (events ++ [event]) := by
  unfold WindowMirrors at h ⊢
  rw [latestCompactionCheckpoint_append_of_none events hevent]
  generalize latestCompactionCheckpoint events = latest at h ⊢
  rcases latest with e | _ | checkpoint
  · exact h
  · exact hindex.trans h
  · obtain ⟨hlogged, k, hk⟩ := h
    refine ⟨fun id hid => ?_, k, hcheck k checkpoint hlogged hk⟩
    rw [loggedIds_append]
    exact mem_append_left _ (hlogged id hid)

namespace Mirrors

section

variable (h : Mirrors session events) {message : Message}

include h

/-- The identifiers of a mirrored session are pairwise distinct. -/
theorem nodup_ids (hn : (loggedIds events).Nodup) : session.ids.Nodup :=
  h.ids.nodup hn

/-- The relation reads the transcript, the removals and the window only. -/
theorem of_same_window {session' : RuntimeSession}
    (htranscript : session'.transcript = session.transcript)
    (hremoved : session'.removedMessageIds = session.removedMessageIds)
    (hindex : session'.compactionSummaryIndex = session.compactionSummaryIndex)
    (htail : session'.retainedTailIndices = session.retainedTailIndices)
    (hpost : session'.postSummaryStart = session.postSummaryStart) : Mirrors session' events := by
  have hids : session'.ids = session.ids := by
    rw [RuntimeSession.ids, htranscript]
    rfl
  have hsurvives : session'.survives = session.survives := by
    funext m
    rw [survives, hremoved]
    rfl
  refine ⟨hids ▸ h.ids, hremoved ▸ h.removed, ?_, ?_⟩
  · rw [htranscript, hsurvives, h.survivors]
  · have hwindow := h.window
    unfold WindowMirrors at hwindow ⊢
    generalize latestCompactionCheckpoint events = latest at hwindow ⊢
    rcases latest with e | _ | checkpoint
    · exact hwindow
    · exact hindex.trans hwindow
    · obtain ⟨hlogged, k, hk⟩ := hwindow
      refine ⟨hlogged, k, hindex.trans hk.index, hids ▸ hk.summary, hpost.trans hk.post,
        htail ▸ hk.tail_lt, ?_⟩
      rw [htail, hids, hremoved, hk.tail]

/-- Logging an event that is no transcript event keeps the session mirrored. -/
theorem other (he : event.event.isTranscriptEvent = false) :
    Mirrors session (events ++ [event]) := by
  have hlater : ∀ e ∈ [event], e.event.isTranscriptEvent = false := by simpa using he
  have hids : loggedIds (events ++ [event]) = loggedIds events ++ loggedIds [event] :=
    loggedIds_append _ _
  refine ⟨?_, fun id hid => ?_, ?_, ?_⟩
  · rw [hids]
    exact h.ids.trans (sublist_append_left _ _)
  · rw [hids]
    exact mem_append_left _ (h.removed id hid)
  · rw [replayTranscript_append_other events hlater, h.survivors]
  · exact h.window.append (compactionRecord_eq_none he) rfl fun _ _ _ hk => hk

/-! ### Changes of the transcript -/

/-- Appending and logging a message under a fresh identifier keeps the mirror. -/
theorem push (he : event.event = .transcriptMessage message)
    (hn : (loggedIds (events ++ [event])).Nodup) :
    Mirrors (session.pushMessage message) (events ++ [event]) := by
  have hlogged : loggedIds (events ++ [event]) = loggedIds events ++ [message.messageId] := by
    simp [loggedIds, introducedId, he]
  rw [hlogged] at hn
  have hfresh : message.messageId ∉ loggedIds events := fun hmem =>
    disjoint_of_nodup_append hn hmem (by simp)
  refine ⟨?_, fun id hid => ?_, ?_, ?_⟩
  · rw [ids_pushMessage, hlogged]
    exact h.ids.append (List.Sublist.refl _)
  · rw [hlogged]
    exact mem_append_left _ (h.removed id hid)
  · have hsurvives : session.survives message = true :=
      decide_eq_true fun hmem => hfresh (h.removed _ hmem)
    rw [replayTranscript_append hn.of_append_left, he, applyEvent, h.survivors]
    simp [hsurvives]
  · refine h.window.append (by simp [compactionRecord, he]) rfl ?_
    -- The window positions lie inside the old transcript, and the named tail messages
    -- are older than the new one.
    intro k checkpoint hnamed hk
    have hlt : k < session.ids.length := (List.getElem?_eq_some_iff.mp hk.summary).1
    have htail : ∀ i ∈ session.retainedTailIndices, i < session.ids.length := fun i hi =>
      (hk.tail_lt i hi).trans hlt
    refine ⟨hk.index, ?_, hk.post, hk.tail_lt, ?_⟩
    · rw [ids_pushMessage, getElem?_append_left hlt, hk.summary]
    · rw [ids_pushMessage]
      refine (congrArg _ (filterMap_getElem?_append _ _ htail)).trans (hk.tail.trans ?_)
      refine filter_congr fun id hid => ?_
      have hne : id ≠ message.messageId := fun heq => hfresh (heq ▸ hnamed id hid)
      simp [hne]

/-- Editing a message and logging the edit keeps the session mirrored. -/
theorem edit (hn : (loggedIds events).Nodup) {i : ℕ} {old : Message}
    (hi : session.transcript[i]? = some old) (hid : message.messageId = old.messageId)
    (he : event.event = .transcriptMessagePatched old.messageId message) :
    Mirrors (session.setMessage i message) (events ++ [event]) := by
  have hlogged : loggedIds (events ++ [event]) = loggedIds events := by
    simp [loggedIds, introducedId, he]
  have hset : session.transcript.set i message =
      replaceKey Message.messageId old.messageId message session.transcript :=
    set_eq_replaceKey Message.messageId (h.nodup_ids hn) hi
  have hids : (session.setMessage i message).ids = session.ids := by
    rw [RuntimeSession.ids, transcript_setMessage, hset,
      map_key_replaceKey Message.messageId hid]
    rfl
  refine ⟨?_, fun id hid => ?_, ?_, ?_⟩
  · rw [hids, hlogged]
    exact h.ids
  · rw [hlogged]
    exact h.removed id hid
  · have hwith : message.withMessageId old.messageId = message := by
      rw [← hid]
      rfl
    rw [replayTranscript_append hn, he, applyEvent, hwith, h.survivors, transcript_setMessage, hset]
    refine (filter_replaceKey Message.messageId hid ?_ _).symm
    intro x y hxy
    simp [survives, hxy]
  · refine h.window.append (by simp [compactionRecord, he]) rfl ?_
    intro k checkpoint _ hk
    refine ⟨hk.index, ?_, hk.post, hk.tail_lt, ?_⟩
    · rw [hids, hk.summary]
    · rw [hids]
      exact hk.tail

/-- Removing a message of the session and logging the removal keeps it mirrored. -/
theorem remove (hn : (loggedIds events).Nodup) {messageId : MessageId}
    (hmem : messageId ∈ session.ids) (he : event.event = .transcriptMessageRemoved messageId) :
    Mirrors (session.removeMessage messageId) (events ++ [event]) := by
  have hlogged : loggedIds (events ++ [event]) = loggedIds events := by
    simp [loggedIds, introducedId, he]
  refine ⟨?_, fun id hid => ?_, ?_, ?_⟩
  · rw [hlogged]
    exact h.ids
  · rw [hlogged]
    rcases Finset.mem_insert.mp hid with rfl | hid
    · exact h.ids.subset hmem
    · exact h.removed id hid
  · rw [replayTranscript_append hn, he, applyEvent, h.survivors, eraseKey, filter_filter]
    refine filter_congr fun m _ => ?_
    simp [survives]
  · refine h.window.append (by simp [compactionRecord, he]) rfl ?_
    intro k checkpoint _ hk
    refine ⟨hk.index, hk.summary, hk.post, hk.tail_lt, ?_⟩
    have hsplit := congrArg (filter fun id => decide (id ≠ messageId)) hk.tail
    simpa [not_or, and_left_comm, and_comm, and_assoc] using hsplit

/-- Moving the window and logging its checkpoint keeps the mirror. -/
theorem compact {summaryIndex : ℕ} {retained : List ℕ} (checkpoint : CompactionCheckpoint)
    (hsummary : session.ids[summaryIndex]? = some checkpoint.summaryMessageId)
    (hlt : ∀ i ∈ retained, i < summaryIndex)
    (htail : checkpoint.retainedTailMessageIds = retained.filterMap fun i => session.ids[i]?)
    (he : compactionRecord event =
      some (some checkpoint.summaryMessageId, checkpoint.retainedTailMessageIds)) :
    Mirrors (session.installWindow summaryIndex retained) (events ++ [event]) := by
  obtain ⟨reason, sources, retained, chars, hkind⟩ := compactionRecord_eq_some he
  have hlogged : loggedIds (events ++ [event]) = loggedIds events := by
    simp [loggedIds, introducedId, hkind]
  have hreplay : replayTranscript (events ++ [event]) = replayTranscript events := by
    simp [replayTranscript, replayEvent, hkind]
  have hmem : ∀ id ∈ checkpoint.retainedTailMessageIds, id ∈ session.ids := by
    intro id hid
    rw [htail] at hid
    obtain ⟨i, -, hi⟩ := mem_filterMap.mp hid
    exact mem_of_getElem? hi
  refine ⟨?_, fun id hid => ?_, ?_, ?_⟩
  · rw [hlogged]
    exact h.ids
  · rw [hlogged]
    exact h.removed id hid
  · rw [hreplay]
    exact h.survivors
  · unfold WindowMirrors
    rw [latestCompactionCheckpoint_append_of_some events he, hlogged]
    refine ⟨fun id hid => h.ids.subset (hmem id hid), summaryIndex, rfl, hsummary, rfl, hlt, ?_⟩
    rw [htail]
    refine filter_congr fun id hid => ?_
    have hid' : id ∈ session.ids := hmem id (htail ▸ hid)
    exact decide_eq_decide.mpr (by simp [hid'])

end

end Mirrors

end Nanoclaw
