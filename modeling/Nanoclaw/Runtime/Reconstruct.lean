import Nanoclaw.Runtime.Mirror

/-!
# When Reconstruction Restores the Window

For a session that its log mirrors, when `reconstructRuntimeSession` gives the same visible
transcript. Without a compaction it always does. After one it does when the summary survives and
the surviving retained tail begins at a request-round start (`RuntimeSession.replaysWindow`):
otherwise extending the tail brings back messages that the compaction had summarised.
-/

namespace Nanoclaw

open List Option RuntimeSession

variable {session : RuntimeSession}

namespace RuntimeSession

/-- The messages of the transcript that were not removed. -/
def surviving (session : RuntimeSession) : List Message :=
  session.transcript.filter session.survives

/-- The surviving messages in front of a position. -/
abbrev survivingBefore (session : RuntimeSession) (k : ℕ) : List Message :=
  (session.transcript.take k).filter session.survives

/-- What survives of the tail that was retained in front of a summary. -/
abbrev survivingTail (session : RuntimeSession) (k : ℕ) : List Message :=
  (session.retainedTail k).filter session.survives

/-- The positions of the surviving tail among the surviving messages. -/
def survivingPositions (session : RuntimeSession) (k : ℕ) : List ℕ :=
  (session.survivingTail k).filterMap fun m => messageIndex session.surviving m.messageId

/-- A message opens the transcript or a request round of it. -/
def opensRound (transcript : List Message) (message : Message) : Bool :=
  (messageIndex transcript message.messageId).all fun i =>
    decide (i = 0) || startsRequestRound transcript i

/-- **The window can be rebuilt**: no compaction, or the surviving tail begins at a round start. -/
def replaysWindow (session : RuntimeSession) : Bool :=
  match session.compactionSummaryIndex with
  | none => true
  | some summaryIndex =>
    (session.transcript[summaryIndex]?).any session.survives &&
      (((session.retainedTail summaryIndex).filter session.survives).head?.all
        (opensRound session.surviving))

theorem visibleTranscript_of_removed_eq_empty
    (h : session.removedMessageIds = ∅) : session.visibleTranscript = session.window := by
  rw [visibleTranscript_eq]
  refine filter_eq_self.mpr fun m _ => ?_
  simp [survives, h]

end RuntimeSession

/-! ### Positions in the surviving transcript -/

variable {m : Message} {i : ℕ}

section Positions

variable {messageId : MessageId}

/-- A surviving message is found at its position. -/
theorem messageIndex_eq_some (hn : session.ids.Nodup) :
    messageIndex session.surviving messageId = some i ↔
      ∃ m, session.surviving[i]? = some m ∧ m.messageId = messageId :=
  rposition_key Message.messageId ((filter_sublist.map _).nodup hn)

/-- Survivors are in the transcript and were not removed. -/
theorem mem_map_surviving {id : MessageId} : id ∈ session.surviving.map Message.messageId ↔
      id ∈ session.ids ∧ id ∉ session.removedMessageIds := by
  constructor
  · rintro h
    obtain ⟨m, hm, rfl⟩ := mem_map.mp h
    obtain ⟨hmem, hs⟩ := mem_filter.mp hm
    exact ⟨mem_map_of_mem hmem, of_decide_eq_true hs⟩
  · rintro ⟨hmem, hs⟩
    obtain ⟨m, hm, rfl⟩ := mem_map.mp hmem
    exact mem_map_of_mem (mem_filter.mpr ⟨hm, decide_eq_true hs⟩)

/-- An identifier that was removed, or never used, is not found. -/
theorem messageIndex_eq_none
    (h : ¬ (messageId ∈ session.ids ∧ messageId ∉ session.removedMessageIds)) :
    messageIndex session.surviving messageId = none := by
  refine rposition_eq_none_iff.mpr fun m hm => decide_eq_false ?_
  rintro rfl
  exact h (mem_map_surviving.mp (mem_map_of_mem hm))

/-- The position of a surviving message leads back to it. -/
theorem exists_messageIndex (hn : session.ids.Nodup) (hm : m ∈ session.surviving) :
    ∃ i, messageIndex session.surviving m.messageId = some i ∧ session.surviving[i]? = some m := by
  obtain ⟨i, hi⟩ := mem_iff_getElem?.mp hm
  exact ⟨i, (messageIndex_eq_some hn).mpr ⟨m, hi, rfl⟩, hi⟩

end Positions

/-! ### The window of a mirrored session -/

variable {summary : Message} {k : ℕ}

namespace CheckpointMirrors

variable {checkpoint : CompactionCheckpoint}

section

variable (hk : CheckpointMirrors session k checkpoint)

include hk

theorem retainedTail_eq : session.retainedTail k =
      session.retainedTailIndices.filterMap fun i => session.transcript[i]? := by
  rw [retainedTail, filter_eq_self.mpr]
  exact fun i hi => decide_eq_true (hk.tail_lt i hi)

/-- The named tail messages that are still there are the surviving tail. -/
theorem map_messageId_tail : (session.survivingTail k).map Message.messageId =
      checkpoint.retainedTailMessageIds.filter
        (fun id => decide (id ∈ session.ids ∧ id ∉ session.removedMessageIds)) := by
  have hids : (session.retainedTail k).map Message.messageId =
      session.retainedTailIndices.filterMap fun i => session.ids[i]? := by
    rw [hk.retainedTail_eq, map_filterMap]
    refine filterMap_congr fun i _ => ?_
    rw [ids, getElem?_map]
  rw [← hk.tail, ← hids, List.filter_map]
  rfl

/-- The surviving tail lies before the summary. -/
theorem mem_take_of_mem_tail (hm : m ∈ session.survivingTail k) :
    m ∈ session.survivingBefore k := by
  obtain ⟨hmem, hs⟩ := mem_filter.mp hm
  rw [hk.retainedTail_eq] at hmem
  obtain ⟨i, hi, hget⟩ := mem_filterMap.mp hmem
  refine mem_filter.mpr ⟨mem_of_getElem? (i := i) ?_, hs⟩
  rw [getElem?_take_of_lt (hk.tail_lt i hi), hget]

theorem mem_surviving_of_mem_tail (hm : m ∈ session.survivingTail k) : m ∈ session.surviving :=
  (List.Sublist.filter _ (take_sublist k _)).subset (hk.mem_take_of_mem_tail hm)

/-- **The positions named by the checkpoint** are those of the surviving tail. -/
theorem filterMap_messageIndex :
    checkpoint.retainedTailMessageIds.filterMap (messageIndex session.surviving) =
      session.survivingPositions k := by
  have hnamed : checkpoint.retainedTailMessageIds.filterMap (messageIndex session.surviving) =
      (checkpoint.retainedTailMessageIds.filter fun id =>
        decide (id ∈ session.ids ∧ id ∉ session.removedMessageIds)).filterMap
          (messageIndex session.surviving) := by
    rw [filterMap_filter]
    refine filterMap_congr fun id _ => ?_
    by_cases h : id ∈ session.ids ∧ id ∉ session.removedMessageIds
    · rw [if_pos (decide_eq_true h)]
    · rw [messageIndex_eq_none h, ite_self]
  rw [hnamed, ← hk.map_messageId_tail, filterMap_map]
  rfl

variable (hn : session.ids.Nodup)

include hn

/-- The surviving tail is read back from its positions. -/
theorem filterMap_getElem?_tail :
    (session.survivingPositions k).filterMap (fun i => session.surviving[i]?) =
      session.survivingTail k := by
  rw [survivingPositions, filterMap_filterMap]
  refine (filterMap_congr fun m hm => ?_).trans filterMap_some
  obtain ⟨i, hi, hget⟩ := exists_messageIndex hn (hk.mem_surviving_of_mem_tail hm)
  rw [hi, bind_some, hget]

variable (hs : session.transcript[k]? = some summary) (hsurvives : session.survives summary = true)

include hs hsurvives

/-- The summary sits right behind the surviving messages before it. -/
theorem messageIndex_summary : messageIndex session.surviving checkpoint.summaryMessageId =
      some (session.survivingBefore k).length := by
  have hid : summary.messageId = checkpoint.summaryMessageId := by
    have := hk.summary
    rw [ids, getElem?_map, hs] at this
    exact some.inj this
  refine (messageIndex_eq_some hn).mpr ⟨summary, ?_, hid⟩
  rw [surviving, filter_eq_of_getElem? hs hsurvives, getElem?_append_right (le_refl _),
    Nat.sub_self]
  rfl

/-- The positions of the surviving tail lie before the summary. -/
theorem messageIndex_tail_lt (hi : i ∈ session.survivingPositions k) :
    i < (session.survivingBefore k).length := by
  obtain ⟨m, hm, hi⟩ := mem_filterMap.mp hi
  obtain ⟨j, hj⟩ := mem_iff_getElem?.mp (hk.mem_take_of_mem_tail hm)
  obtain ⟨hlt, -⟩ := List.getElem?_eq_some_iff.mp hj
  have hget : session.surviving[j]? = some m := by
    rw [surviving, filter_eq_of_getElem? hs hsurvives, getElem?_append_left hlt, hj]
  obtain rfl : j = i :=
    some.inj (((messageIndex_eq_some hn).mpr ⟨m, hget, rfl⟩).symm.trans hi)
  exact hlt

end

/-- The visible transcript of the session, read off the surviving messages. -/
theorem visibleTranscript (hk : CheckpointMirrors session k checkpoint)
    (hs : session.transcript[k]? = some summary) (hsurvives : session.survives summary = true) :
    session.visibleTranscript = summary :: session.survivingTail k ++
      (session.transcript.drop (k + 1)).filter session.survives := by
  rw [visibleTranscript_eq, window, hk.index]
  simp [hs, hk.post, hsurvives]

end CheckpointMirrors

/-! ### Restoring the window -/

variable (transcript : List Message) {events : List SessionEventEnvelope} {cutoff : ℕ}

/-- The extension of a tail that begins before the summary. -/
theorem upgrade_cons {first k : ℕ} (rest : List ℕ) (hfirst : first < k) :
    upgradeRetainedTailIndicesForRequestRounds transcript (first :: rest) k =
      range' (requestRoundStart transcript first)
        (first - requestRoundStart transcript first) ++ first :: rest := by
  simp only [upgradeRetainedTailIndicesForRequestRounds, if_neg (not_le.mpr hfirst)]
  split
  next heq => rw [heq, Nat.sub_self, range'_zero, nil_append]
  · rfl

/-- Positions come in front of the tail, none if it begins at a round start. -/
theorem upgrade_eq_append {tail : List ℕ} (hlt : ∀ i ∈ tail, i < k) :
    ∃ added, upgradeRetainedTailIndicesForRequestRounds transcript tail k = added ++ tail ∧
      (∀ i ∈ added, i < k) ∧
      (added = [] ↔ ∀ first ∈ tail.head?,
        first = 0 ∨ startsRequestRound transcript first = true) := by
  cases tail with
  | nil => exact ⟨[], rfl, by simp, by simp⟩
  | cons first rest =>
    have hfirst : first < k := hlt first (by simp)
    have hle := requestRoundStart_le transcript first
    refine ⟨_, upgrade_cons transcript rest hfirst, ?_, ?_⟩
    · intro i hi
      have := mem_range'_1.mp hi
      omega
    · rw [range'_eq_nil_iff]
      simp only [head?_cons, mem_some_iff, forall_eq', ← requestRoundStart_eq_self]
      omega

section Restore

variable {base : RuntimeSession} {checkpoint : CompactionCheckpoint}
  (hk : CheckpointMirrors session k checkpoint) (htranscript : base.transcript = session.surviving)

include hk htranscript

theorem restoreWindow_eq_error (hremoved : (session.transcript[k]?).any session.survives = false) :
    ∃ e, restoreWindow base checkpoint = .error e := by
  have hnone : messageIndex session.surviving checkpoint.summaryMessageId = none := by
    refine messageIndex_eq_none fun h => ?_
    have hsummary := hk.summary
    rw [ids, getElem?_map, map_eq_some_iff] at hsummary
    obtain ⟨summary, hs, hid⟩ := hsummary
    rw [hs, any_some, survives, decide_eq_false_iff_not, hid] at hremoved
    exact hremoved h.2
  unfold restoreWindow
  rw [htranscript, hnone]
  exact ⟨_, rfl⟩

variable (hn : session.ids.Nodup) (hs : session.transcript[k]? = some summary)
  (hsurvives : session.survives summary = true)

include hn hs hsurvives

/-- With its summary the window is the surviving tail from a round start on. -/
theorem restoreWindow_eq_ok : ∃ added, restoreWindow base checkpoint =
        .ok (base.installWindow (session.survivingBefore k).length
          (added ++ session.survivingPositions k)) ∧
      (∀ i ∈ added, i < (session.survivingBefore k).length) ∧
      (added = [] ↔ (session.survivingTail k).head?.all (opensRound session.surviving) = true) := by
  have hlt := fun i hi => hk.messageIndex_tail_lt hn hs hsurvives (i := i) hi
  obtain ⟨added, hadded, haddedlt, hempty⟩ := upgrade_eq_append session.surviving hlt
  refine ⟨added, ?_, haddedlt, hempty.trans ?_⟩
  · unfold restoreWindow
    rw [htranscript, hk.messageIndex_summary hn hs hsurvives, hk.filterMap_messageIndex]
    simp only
    rw [filter_eq_self.mpr fun i hi => decide_eq_true (hlt i hi), hadded]
  · -- The first restored position is that of the first surviving tail message.
    rw [survivingPositions]
    cases htail : session.survivingTail k with
    | nil => simp
    | cons m rest =>
      obtain ⟨i, hi, -⟩ := exists_messageIndex hn
        (hk.mem_surviving_of_mem_tail (m := m) (by rw [htail]; simp))
      simp [opensRound, hi]

variable (hempty : base.removedMessageIds = ∅)

include hempty

/-- **Restoring gives back the visible transcript exactly when nothing is added.** -/
theorem visibleTranscript_restored {added : List ℕ}
    (hadded : ∀ i ∈ added, i < (session.survivingBefore k).length) :
    (base.installWindow (session.survivingBefore k).length
        (added ++ session.survivingPositions k)).visibleTranscript =
      session.visibleTranscript ↔ added = [] := by
  have hsurviving := filter_eq_of_getElem? hs hsurvives
  have hlt : ∀ i ∈ added ++ session.survivingPositions k,
      i < (session.survivingBefore k).length := fun i hi =>
    (mem_append.mp hi).elim (hadded i) (hk.messageIndex_tail_lt hn hs hsurvives)
  have hwindow : (base.installWindow (session.survivingBefore k).length
      (added ++ session.survivingPositions k)).visibleTranscript =
      summary :: (added.filterMap (fun i => session.surviving[i]?) ++ session.survivingTail k) ++
        (session.transcript.drop (k + 1)).filter session.survives := by
    rw [visibleTranscript_of_removed_eq_empty (by simpa using hempty)]
    simp only [window, installWindow, retainedTail, htranscript]
    rw [filter_eq_self.mpr fun i hi => decide_eq_true (hlt i hi), filterMap_append,
      hk.filterMap_getElem?_tail hn, surviving, hsurviving]
    simp
  rw [hwindow, hk.visibleTranscript hs hsurvives]
  constructor
  · intro heq
    have hlen := congrArg length heq
    simp only [length_cons, length_append] at hlen
    refine eq_nil_iff_forall_not_mem.mpr fun i hi => ?_
    have hpos : i < session.surviving.length := by
      rw [surviving, hsurviving, length_append]
      exact Nat.lt_add_right _ (hadded i hi)
    have hmem : session.surviving[i] ∈ added.filterMap fun i => session.surviving[i]? :=
      mem_filterMap.mpr ⟨i, hi, getElem?_eq_getElem hpos⟩
    have := length_pos_of_mem hmem
    omega
  · rintro rfl
    simp

/-- The window restored without additions is the one the checkpoint names. -/
theorem checkpointMirrors_restored : CheckpointMirrors
      (base.installWindow (session.survivingBefore k).length (session.survivingPositions k))
      (session.survivingBefore k).length checkpoint := by
  have hids : base.ids = session.surviving.map Message.messageId := by rw [ids, htranscript]
  refine ⟨rfl, ?_, rfl, fun i hi => hk.messageIndex_tail_lt hn hs hsurvives hi, ?_⟩
  · obtain ⟨m, hm, hid⟩ :=
      (messageIndex_eq_some hn).mp (hk.messageIndex_summary hn hs hsurvives)
    rw [ids_installWindow, hids, getElem?_map, hm, map_some, hid]
  · have hread := congrArg (map Message.messageId) (hk.filterMap_getElem?_tail hn)
    rw [hk.map_messageId_tail, map_filterMap] at hread
    have hnone : ∀ id, id ∉ base.removedMessageIds := fun id => hempty ▸ Finset.notMem_empty id
    refine (filter_eq_self.mpr fun id _ => decide_eq_true (hnone id)).trans ?_
    simp only [ids_installWindow, hids, getElem?_map]
    refine hread.trans (filter_congr fun id _ => decide_eq_decide.mpr ?_)
    rw [mem_map_surviving]
    exact (and_iff_left (hnone id)).symm

end Restore

/-! ### Reconstruction -/

/-- No transcript event was logged after the last event of the agent session. -/
def saysNothingAfter (events : List SessionEventEnvelope) (target : AgentSessionId) : Bool :=
  (lastEventOf events target).all fun cutoff =>
    (events.drop (cutoff + 1)).all fun e => !e.event.isTranscriptEvent

theorem later_of_saysNothingAfter {target : AgentSessionId}
    (hcut : lastEventOf events target = some cutoff) (h : saysNothingAfter events target = true) :
    ∀ e ∈ events.drop (cutoff + 1), e.event.isTranscriptEvent = false := by
  simpa [saysNothingAfter, hcut] using h

/-- No transcript event behind the cut: nothing is lost. -/
theorem take_mirrors_cut {cut : ℕ} (h : ∀ e ∈ events.drop cut, e.event.isTranscriptEvent = false) :
    replayTranscript (events.take cut) = replayTranscript events ∧
      latestCompactionCheckpoint (events.take cut) = latestCompactionCheckpoint events := by
  have hsplit := take_append_drop cut events
  constructor
  · conv_rhs => rw [← hsplit, replayTranscript_append_other _ h]
  · conv_rhs => rw [← hsplit, latestCompactionCheckpoint_append_other _ h]

namespace Mirrors

variable
  {agentSessionId : AgentSessionId}
  (h : Mirrors session events) (hn : (loggedIds events).Nodup)
  (hcut : lastEventOf events agentSessionId = some cutoff)
  (hlater : ∀ e ∈ events.drop (cutoff + 1), e.event.isTranscriptEvent = false)

include h hlater in
/-- A replayed session has the messages that survive. -/
theorem transcript_replayed (agentSessionId : AgentSessionId) :
    (replayedSession (events.take (cutoff + 1)) agentSessionId).transcript = session.surviving := by
  rw [transcript_replayedSession, (take_mirrors_cut hlater).1, h.survivors, surviving]

include h hn hcut hlater

/-- **Reconstruction restores the visible transcript** exactly when the window can be rebuilt. -/
theorem reconstruct_iff :
    (∃ restored, reconstructRuntimeSession events agentSessionId = .ok restored ∧
        restored.visibleTranscript = session.visibleTranscript) ↔
      session.replaysWindow = true := by
  have hcheckpoint := (take_mirrors_cut hlater).2
  have hwindow := h.window
  unfold WindowMirrors at hwindow
  unfold reconstructRuntimeSession replaysWindow
  rw [hcut]
  simp only [hcheckpoint]
  have htranscript := h.transcript_replayed hlater agentSessionId
  generalize hbase : replayedSession (events.take (cutoff + 1)) agentSessionId = base at *
  have hremoved : base.removedMessageIds = ∅ := by rw [← hbase, removedMessageIds_replayedSession]
  generalize latestCompactionCheckpoint events = latest at hwindow ⊢
  rcases latest with e | _ | checkpoint
  · exact hwindow.elim
  · -- Without a compaction the whole surviving transcript is visible on both sides.
    rw [hwindow]
    refine iff_of_true ⟨base, rfl, ?_⟩ rfl
    have hbaseindex : base.compactionSummaryIndex = none := by rw [← hbase]; rfl
    rw [visibleTranscript_of_removed_eq_empty hremoved,
      visibleTranscript_eq, RuntimeSession.window, RuntimeSession.window,
      hwindow, hbaseindex, htranscript, surviving]
  · obtain ⟨-, k, hk⟩ := hwindow
    have hids := h.nodup_ids hn
    simp only [hk.index]
    cases hany : (session.transcript[k]?).any session.survives with
    | false =>
      obtain ⟨e, he⟩ := restoreWindow_eq_error hk htranscript hany
      refine iff_of_false ?_ (by simp)
      rintro ⟨restored, hok, -⟩
      cases he.symm.trans hok
    | true =>
      obtain ⟨summary, hsum, hs⟩ := (any_eq_true _ _).mp hany
      obtain ⟨added, hok, hadded, hempty⟩ := restoreWindow_eq_ok hk htranscript hids hsum hs
      have hvisible := visibleTranscript_restored hk htranscript hids hsum hs hremoved hadded
      rw [Bool.true_and, ← hempty, ← hvisible]
      constructor
      · rintro ⟨restored, heq, hres⟩
        cases hok.symm.trans heq
        exact hres
      · exact fun hres => ⟨_, hok, hres⟩

/-- **A restored session is mirrored again**, so that a run can go on from it. -/
theorem of_reconstruct (hreplays : session.replaysWindow = true) {restored : RuntimeSession}
    (hok : reconstructRuntimeSession events agentSessionId = .ok restored) :
    Mirrors restored events := by
  have hcheckpoint := (take_mirrors_cut hlater).2
  have hwindow := h.window
  unfold WindowMirrors at hwindow
  unfold reconstructRuntimeSession at hok
  rw [hcut] at hok
  simp only [hcheckpoint] at hok
  have htranscript := h.transcript_replayed hlater agentSessionId
  generalize hbase : replayedSession (events.take (cutoff + 1)) agentSessionId = base at *
  have hremoved : base.removedMessageIds = ∅ := by rw [← hbase, removedMessageIds_replayedSession]
  have hbaseids : base.ids.Sublist (loggedIds events) := by
    rw [RuntimeSession.ids, htranscript]
    exact (filter_sublist.map _).trans h.ids
  have hsurvivors : ∀ restored : RuntimeSession, restored.transcript = base.transcript →
      restored.removedMessageIds = ∅ →
      replayTranscript events = restored.transcript.filter restored.survives := by
    intro restored ht hr
    rw [ht, htranscript, filter_eq_self.mpr fun m _ => by simp [survives, hr]]
    exact h.survivors
  have hnone : ∀ id ∈ base.removedMessageIds, id ∈ loggedIds events := by
    rw [hremoved]
    exact fun id hid => absurd hid (Finset.notMem_empty id)
  cases hlatest : latestCompactionCheckpoint events with
  | error e =>
    rw [hlatest] at hwindow
    exact hwindow.elim
  | ok latest =>
    rw [hlatest] at hwindow hok
    cases latest with
    | none =>
      cases hok
      refine ⟨hbaseids, hnone, hsurvivors _ rfl hremoved, ?_⟩
      rw [WindowMirrors, hlatest, ← hbase]
      rfl
    | some checkpoint =>
      obtain ⟨hlogged, k, hk⟩ := hwindow
      have hids := h.nodup_ids hn
      rw [replaysWindow, hk.index, Bool.and_eq_true] at hreplays
      obtain ⟨summary, hsum, hs⟩ := (any_eq_true _ _).mp hreplays.1
      obtain ⟨added, hrestore, -, hempty⟩ :=
        restoreWindow_eq_ok hk htranscript hids hsum hs
      obtain rfl := hempty.mpr hreplays.2
      cases hrestore.symm.trans hok
      refine ⟨hbaseids, hnone, hsurvivors _ rfl hremoved, ?_⟩
      rw [WindowMirrors, hlatest]
      exact ⟨hlogged, _, checkpointMirrors_restored hk htranscript hids hsum hs hremoved⟩

end Mirrors

end Nanoclaw
