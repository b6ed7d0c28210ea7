import Nanoclaw.Runtime.Reconstruct

/-!
# Checkpoint Windows

The messages that a compaction checkpoint leaves visible in a transcript, and how they change
with it: a window grows with appended messages, and removed messages are removed from the window
as long as the retained tail is removed as a whole or the transcript up to its first message is
kept. `loggedWindow` is the window that a log as a whole describes.
-/

namespace Nanoclaw

open List Option RuntimeSession Message

variable (transcript : List Message)

/-- The messages that a checkpoint leaves visible: the summary, the retained tail extended to a
round start, and what follows the summary. -/
def checkpointWindow (checkpoint : CompactionCheckpoint) (summaryIndex : ℕ) : List Message :=
  let retainedTailIndices :=
    (checkpoint.retainedTailMessageIds.filterMap (messageIndex transcript)).filter
      fun i => decide (i < summaryIndex)
  (summaryIndex ::
      upgradeRetainedTailIndicesForRequestRounds transcript retainedTailIndices summaryIndex ++
    List.range' (summaryIndex + 1) (transcript.length - (summaryIndex + 1))).filterMap
      fun i => transcript[i]?

/-- The positions of the retained tail, before it is extended. -/
def tailPositions (retainedTailMessageIds : List MessageId) (k : ℕ) : List ℕ :=
  (retainedTailMessageIds.filterMap (messageIndex transcript)).filter fun i => decide (i < k)

/-- The positions of the retained tail, extended to a round start. -/
abbrev extendedTail (ids : List MessageId) (k : ℕ) : List ℕ :=
  upgradeRetainedTailIndicesForRequestRounds transcript (tailPositions transcript ids k) k

variable {transcript} {ids : List MessageId} {k i : ℕ} {tail : List ℕ} {summary : Message}

theorem of_mem_tailPositions (h : i ∈ tailPositions transcript ids k) :
    i < k ∧ i < transcript.length := by
  obtain ⟨hi, hlt⟩ := mem_filter.mp h
  obtain ⟨id, -, hid⟩ := mem_filterMap.mp hi
  obtain ⟨⟨m, hm, -⟩, -⟩ := rposition_eq_some_iff.mp hid
  exact ⟨of_decide_eq_true hlt, (List.getElem?_eq_some_iff.mp hm).1⟩

/-- The positions of an extended tail stay before the summary. -/
theorem lt_of_mem_upgrade (hlt : ∀ i ∈ tail, i < k)
    (hi : i ∈ upgradeRetainedTailIndicesForRequestRounds transcript tail k) : i < k := by
  obtain ⟨added, hadded, haddedlt, -⟩ := upgrade_eq_append transcript hlt
  rw [hadded] at hi
  exact (mem_append.mp hi).elim (haddedlt i) (hlt i)

theorem lt_of_mem_extendedTail (hi : i ∈ extendedTail transcript ids k) : i < k :=
  lt_of_mem_upgrade (fun _ hi => (of_mem_tailPositions hi).1) hi

/-- The checkpoint window, with the retained positions still to be read. -/
theorem checkpointWindow_eq (transcript : List Message) (checkpoint : CompactionCheckpoint)
    (hk : transcript[k]? = some summary) : checkpointWindow transcript checkpoint k = summary ::
      (extendedTail transcript checkpoint.retainedTailMessageIds k).filterMap
        (fun i => transcript[i]?) ++ transcript.drop (k + 1) := by
  simp only [checkpointWindow, cons_append]
  rw [filterMap_cons_some hk, filterMap_append,
    filterMap_getElem?_range']
  rfl

/-- **The window the runtime restores** is the window of the checkpoint. -/
theorem restoreWindow_visible (session : RuntimeSession) (hempty : session.removedMessageIds = ∅)
    (checkpoint : CompactionCheckpoint)
    (hk : messageIndex session.transcript checkpoint.summaryMessageId = some k) :
    ∃ restored, restoreWindow session checkpoint = .ok restored ∧
      restored.visibleTranscript = checkpointWindow session.transcript checkpoint k := by
  obtain ⟨⟨summary, hsummary, -⟩, -⟩ := rposition_eq_some_iff.mp hk
  unfold restoreWindow
  rw [hk]
  refine ⟨_, rfl, ?_⟩
  rw [visibleTranscript_of_removed_eq_empty (by simpa using hempty),
    checkpointWindow_eq _ _ hsummary]
  simp only [window, installWindow, retainedTail, hsummary, toList_some]
  rw [← tailPositions, filter_eq_self.mpr fun i hi => decide_eq_true (lt_of_mem_extendedTail hi),
    singleton_append]

variable {checkpoint : CompactionCheckpoint}

section Growing

variable {later : List Message}

theorem messageIndex_append (id : MessageId) : messageIndex (transcript ++ later) id =
      ((messageIndex later id).map (· + transcript.length)).or (messageIndex transcript id) :=
  rposition_append _ _ _

/-- A position before the summary is found in the part that has the summary. -/
theorem messageIndex_append_filter_lt (hk : k < transcript.length)
    (hn : ((transcript ++ later).map messageId).Nodup) (id : MessageId) :
    (messageIndex (transcript ++ later) id).filter (fun i => decide (i < k)) =
      (messageIndex transcript id).filter fun i => decide (i < k) := by
  rw [messageIndex_append]
  cases hlater : messageIndex later id with
  | none => rfl
  | some i =>
    have hnone : messageIndex transcript id = none := by
      refine rposition_eq_none_iff.mpr fun m hm => decide_eq_false fun hid => ?_
      obtain ⟨⟨m', hm', hid'⟩, -⟩ := rposition_eq_some_iff.mp hlater
      rw [map_append] at hn
      refine disjoint_of_nodup_append hn (mem_map_of_mem hm) ?_
      rw [hid, ← of_decide_eq_true hid']
      exact mem_map_of_mem (mem_of_getElem? hm')
    have hge : k ≤ i + transcript.length := by omega
    rw [hnone]
    simpa using hge

theorem startsRequestRound_append (hi : i < transcript.length) :
    startsRequestRound (transcript ++ later) i = startsRequestRound transcript i := by
  unfold startsRequestRound
  rw [getElem?_append_left hi, getElem?_append_left (by omega : i - 1 < _)]

theorem requestRoundStart_append (hi : i < transcript.length) :
    requestRoundStart (transcript ++ later) i = requestRoundStart transcript i := by
  induction i with
  | zero => rfl
  | succ i ih =>
    rw [requestRoundStart, requestRoundStart, startsRequestRound_append hi, ih (by omega)]

variable (hk : k < transcript.length)

include hk

/-- Extending a tail to a round start looks at messages before the summary only. -/
theorem upgrade_append : upgradeRetainedTailIndicesForRequestRounds (transcript ++ later) tail k =
      upgradeRetainedTailIndicesForRequestRounds transcript tail k := by
  cases tail with
  | nil => rfl
  | cons first rest =>
    unfold upgradeRetainedTailIndicesForRequestRounds
    by_cases hfirst : k ≤ first
    · simp only [if_pos hfirst]
    · simp only [if_neg hfirst, requestRoundStart_append (by omega : first < transcript.length)]

/-- A window grows if the positions of its retained messages stay. -/
theorem checkpointWindow_append_of (hstay : ∀ id ∈ checkpoint.retainedTailMessageIds,
      (messageIndex (transcript ++ later) id).filter (fun i => decide (i < k)) =
        (messageIndex transcript id).filter fun i => decide (i < k)) :
    checkpointWindow (transcript ++ later) checkpoint k =
      checkpointWindow transcript checkpoint k ++ later := by
  have hsummary := getElem?_eq_getElem hk
  have htail : tailPositions (transcript ++ later) checkpoint.retainedTailMessageIds k =
      tailPositions transcript checkpoint.retainedTailMessageIds k := by
    rw [tailPositions, tailPositions, filter_filterMap, filter_filterMap]
    exact filterMap_congr hstay
  rw [checkpointWindow_eq _ _ hsummary,
    checkpointWindow_eq _ _ ((getElem?_append_left hk).trans hsummary), extendedTail, htail,
    upgrade_append hk,
    filterMap_getElem?_append _ _ fun i hi => (lt_of_mem_extendedTail hi).trans hk,
    drop_append_of_le_length hk, append_assoc]

/-- **A window grows with the transcript** behind its summary. -/
theorem checkpointWindow_append (hn : ((transcript ++ later).map messageId).Nodup) :
    checkpointWindow (transcript ++ later) checkpoint k =
      checkpointWindow transcript checkpoint k ++ later :=
  checkpointWindow_append_of hk fun id _ => messageIndex_append_filter_lt hk hn id

end Growing

/-! ### Removing messages -/

section Removing

theorem filterMap_tailPositions (hn : (transcript.map messageId).Nodup)
    (ids : List MessageId) (k : ℕ) :
    (tailPositions transcript ids k).filterMap (fun i => transcript[i]?) = ids.filterMap fun id =>
        (transcript.take k).find? fun m => decide (m.messageId = id) := by
  unfold tailPositions
  rw [filter_filterMap, filterMap_filterMap]
  refine filterMap_congr fun id _ => ext fun m => ?_
  have hnk : ((transcript.take k).map messageId).Nodup :=
    ((take_sublist k transcript).map _).nodup hn
  rw [find?_key messageId hnk, bind_eq_some_iff]
  constructor
  · rintro ⟨i, hi, hm⟩
    obtain ⟨hi, hlt⟩ := filter_eq_some_iff.mp hi
    obtain ⟨m', hm', hid⟩ := (rposition_key messageId hn).mp hi
    obtain rfl : m' = m := some.inj (hm'.symm.trans hm)
    refine ⟨mem_of_getElem? (i := i) ?_, hid⟩
    rw [getElem?_take_of_lt (of_decide_eq_true hlt), hm']
  · rintro ⟨hm, hid⟩
    obtain ⟨i, hi⟩ := mem_iff_getElem?.mp hm
    rw [getElem?_take, ite_none_right_eq_some] at hi
    refine ⟨i, filter_eq_some_iff.mpr ⟨?_, decide_eq_true hi.1⟩, hi.2⟩
    exact (rposition_key messageId hn).mpr ⟨m, hi.2, hid⟩

variable {keep : Message → Bool}

/-- The tail of a transcript from which messages were removed. -/
theorem filterMap_tailPositions_filter (hn : (transcript.map messageId).Nodup)
    (hk : transcript[k]? = some summary) (hkeep : keep summary = true) (ids : List MessageId) :
    (tailPositions (transcript.filter keep) ids ((transcript.take k).filter keep).length).filterMap
        (fun i => (transcript.filter keep)[i]?) =
      ((tailPositions transcript ids k).filterMap fun i => transcript[i]?).filter keep := by
  have hn' : ((transcript.filter keep).map messageId).Nodup := (filter_sublist.map _).nodup hn
  have htake : (transcript.filter keep).take ((transcript.take k).filter keep).length =
      (transcript.take k).filter keep := by
    rw [filter_eq_of_getElem? hk hkeep, take_left']
    rfl
  have hnk : ((transcript.take k).map messageId).Nodup :=
    ((take_sublist k transcript).map _).nodup hn
  rw [filterMap_tailPositions hn', filterMap_tailPositions hn, htake, filter_filterMap]
  exact filterMap_congr fun id _ => find?_key_filter messageId hnk keep id

/-- If all messages up to a position are kept, they stay where they are. -/
theorem filter_eq_take_append {first : ℕ} (h : ∀ i ≤ first, ∀ m ∈ transcript[i]?, keep m = true) :
    transcript.filter keep =
      transcript.take (first + 1) ++ (transcript.drop (first + 1)).filter keep := by
  conv_lhs => rw [← take_append_drop (first + 1) transcript, filter_append]
  congr 1
  refine filter_eq_self.mpr fun m hm => ?_
  obtain ⟨i, hi⟩ := mem_iff_getElem?.mp hm
  rw [getElem?_take, ite_none_right_eq_some] at hi
  exact h i (by omega) m hi.2

/-- **The extended tail after messages were removed**, as a whole or only behind its first one. -/
theorem upgrade_filter (hn : (transcript.map messageId).Nodup)
    (hk : transcript[k]? = some summary) (hkeep : keep summary = true) (ids : List MessageId)
    (h : (∀ i ∈ extendedTail transcript ids k, ∀ m ∈ transcript[i]?, keep m = false) ∨
      ∀ first ∈ (tailPositions transcript ids k).head?,
        ∀ i ≤ first, ∀ m ∈ transcript[i]?, keep m = true) :
    (extendedTail (transcript.filter keep) ids ((transcript.take k).filter keep).length).filterMap
        (fun i => (transcript.filter keep)[i]?) =
      ((extendedTail transcript ids k).filterMap fun i => transcript[i]?).filter keep := by
  have hread := filterMap_tailPositions_filter hn hk hkeep ids
  -- A tail of which nothing is left has no positions.
  have hnil :
      ((tailPositions transcript ids k).filterMap fun i => transcript[i]?).filter keep = [] →
      tailPositions (transcript.filter keep) ids ((transcript.take k).filter keep).length = [] := by
    intro hempty
    rw [hempty, filterMap_eq_nil_iff] at hread
    refine eq_nil_iff_forall_not_mem.mpr fun i hi => ?_
    have hnone := getElem?_eq_none_iff.mp (hread i hi)
    have := (of_mem_tailPositions hi).2
    omega
  rcases h with hdropped | hkept
  · have hgone : ((extendedTail transcript ids k).filterMap fun i => transcript[i]?).filter
        keep = [] := by
      refine filter_eq_nil_iff.mpr fun m hm => ?_
      obtain ⟨i, hi, hm⟩ := mem_filterMap.mp hm
      rw [hdropped i hi m hm]
      exact Bool.false_ne_true
    obtain ⟨added, hadded, -, -⟩ := upgrade_eq_append transcript
      fun i (hi : i ∈ tailPositions transcript ids k) => (of_mem_tailPositions hi).1
    rw [hgone]
    rw [extendedTail, hadded, filterMap_append, filter_append, append_eq_nil_iff] at hgone
    rw [extendedTail, hnil hgone.2]
    rfl
  · unfold extendedTail
    generalize hpositions : tailPositions transcript ids k = tail at hread hkept hnil ⊢
    generalize hpositions' : tailPositions (transcript.filter keep) ids
      ((transcript.take k).filter keep).length = tail' at hread hnil ⊢
    rcases tail with _ | ⟨first, rest⟩
    · rw [hnil rfl]
      rfl
    obtain ⟨hfirst, hlt⟩ := of_mem_tailPositions (hpositions ▸ mem_cons_self)
    have hm := getElem?_eq_getElem hlt
    have hkept := hkept first rfl
    rw [filterMap_cons_some hm, filter_cons_of_pos (hkept first le_rfl _ hm)] at hread
    rcases tail' with _ | ⟨first', rest'⟩
    · cases hread
    obtain ⟨hfirst', hlt'⟩ := of_mem_tailPositions (hpositions' ▸ mem_cons_self)
    have hsplit := filter_eq_take_append hkept
    have hlen : (transcript.take (first + 1)).length = first + 1 := by rw [length_take]; omega
    -- Up to the first tail message both transcripts are the same.
    have hsame : ∀ i ≤ first, (transcript.filter keep)[i]? = transcript[i]? := by
      intro i hi
      rw [hsplit, getElem?_append_left (by omega), getElem?_take_of_lt (by omega)]
    have hstart : requestRoundStart (transcript.filter keep) first =
        requestRoundStart transcript first := by
      conv_rhs => rw [← take_append_drop (first + 1) transcript]
      rw [hsplit, requestRoundStart_append (by omega), requestRoundStart_append (by omega)]
    obtain rfl : first' = first := by
      rw [filterMap_cons_some (getElem?_eq_getElem hlt')] at hread
      refine position_unique messageId ((filter_sublist.map _).nodup hn)
        (getElem?_eq_getElem hlt') ((hsame first le_rfl).trans hm) ?_
      exact congrArg _ (cons.inj hread).1
    rw [upgrade_cons _ _ hfirst', upgrade_cons _ _ hfirst, hstart, filterMap_append,
      filterMap_append, filter_append, filterMap_cons_some hm,
      filter_cons_of_pos (hkept first' le_rfl _ hm), hread]
    congr 1
    have hrange : ∀ i ∈ range' (requestRoundStart transcript first')
        (first' - requestRoundStart transcript first'), i ≤ first' := fun i hi => by
      have := mem_range'_1.mp hi
      omega
    rw [filterMap_congr fun i hi => hsame i (hrange i hi)]
    refine (filter_eq_self.mpr fun m hm => ?_).symm
    obtain ⟨i, hi, hm⟩ := mem_filterMap.mp hm
    exact hkept i (hrange i hi) m hm

/-- **A window of a transcript from which messages were removed.** -/
theorem checkpointWindow_filter (keep : Message → Bool) (hn : (transcript.map messageId).Nodup)
    (hk : messageIndex transcript checkpoint.summaryMessageId = some k)
    (hsummary : ∀ m ∈ transcript[k]?, keep m = true)
    (h : (∀ i ∈ extendedTail transcript checkpoint.retainedTailMessageIds k,
        ∀ m ∈ transcript[i]?, keep m = false) ∨
      ∀ first ∈ (tailPositions transcript checkpoint.retainedTailMessageIds k).head?,
        ∀ i ≤ first, ∀ m ∈ transcript[i]?, keep m = true) :
    ∃ k', messageIndex (transcript.filter keep) checkpoint.summaryMessageId = some k' ∧
      checkpointWindow (transcript.filter keep) checkpoint k' =
        (checkpointWindow transcript checkpoint k).filter keep := by
  obtain ⟨summary, hm, hid⟩ := (rposition_key messageId hn).mp hk
  have hkeep := hsummary summary hm
  have hsplit := filter_eq_of_getElem? hm hkeep
  have hn' : ((transcript.filter keep).map messageId).Nodup := (filter_sublist.map _).nodup hn
  have hm' : (transcript.filter keep)[((transcript.take k).filter keep).length]? =
      some summary := by
    rw [hsplit, getElem?_append_right le_rfl, Nat.sub_self]
    rfl
  refine ⟨_, (rposition_key messageId hn').mpr ⟨summary, hm', hid⟩, ?_⟩
  rw [checkpointWindow_eq _ _ hm', checkpointWindow_eq _ _ hm,
    upgrade_filter hn hm hkeep checkpoint.retainedTailMessageIds h, filter_append,
    filter_cons_of_pos hkeep]
  conv_lhs => rw [hsplit]
  simp

end Removing

/-! ### The window of a log -/

/-- **The window of a log**: the survivors that its latest compaction leaves visible. -/
def loggedWindow (events : List SessionEventEnvelope) : Option (List Message) :=
  match latestCompactionCheckpoint events with
  | .error _ => none
  | .ok none => some (replayTranscript events)
  | .ok (some checkpoint) =>
    (messageIndex (replayTranscript events) checkpoint.summaryMessageId).map
      (checkpointWindow (replayTranscript events) checkpoint)

/-- **Reconstruction shows the window of the log** if nothing was said after the agent session. -/
theorem reconstruct_loggedWindow {events : List SessionEventEnvelope} {id : AgentSessionId}
    {cutoff : ℕ} (hcut : lastEventOf events id = some cutoff)
    (hafter : saysNothingAfter events id = true) :
    (reconstructRuntimeSession events id).toOption.map visibleTranscript = loggedWindow events := by
  obtain ⟨hreplay, hcheckpoint⟩ := take_mirrors_cut (later_of_saysNothingAfter hcut hafter)
  unfold reconstructRuntimeSession loggedWindow
  rw [hcut]
  simp only [hcheckpoint]
  set base := replayedSession (events.take (cutoff + 1)) id with hbase
  have htranscript : base.transcript = replayTranscript events := by
    rw [transcript_replayedSession, hreplay]
  rcases latestCompactionCheckpoint events with e | _ | checkpoint
  · rfl
  · refine congrArg some ?_
    rw [visibleTranscript_of_removed_eq_empty (by simp [hbase]), ← htranscript]
    rfl
  · simp only
    cases hk : messageIndex (replayTranscript events) checkpoint.summaryMessageId with
    | none =>
      unfold restoreWindow
      rw [htranscript, hk]
      rfl
    | some k =>
      obtain ⟨restored, hrestored, hvisible⟩ := restoreWindow_visible base (by simp [hbase])
        checkpoint (htranscript ▸ hk)
      rw [hrestored, ← htranscript]
      exact congrArg some hvisible

/-- The last agent session is rebuilt from the whole log. -/
theorem reconstructRuntimeSession_last {events : List SessionEventEnvelope}
    {last : SessionEventEnvelope} (hlast : events.getLast? = some last) :
    reconstructRuntimeSession events last.agentSessionId =
      match latestCompactionCheckpoint events with
      | .error error => .error error
      | .ok none => .ok (replayedSession events last.agentSessionId)
      | .ok (some checkpoint) =>
        restoreWindow (replayedSession events last.agentSessionId) checkpoint := by
  obtain ⟨before, rfl⟩ := getLast?_eq_some_iff.mp hlast
  have hcut := (lastEventOf_concat last.agentSessionId before last).trans (if_pos rfl)
  have htake : (before ++ [last]).take (before.length + 1) = before ++ [last] :=
    take_of_length_le (by simp)
  rcases hlatest : latestCompactionCheckpoint (before ++ [last]) with _ | _ | _ <;>
    simp only [reconstructRuntimeSession, hcut, htake, hlatest]

end Nanoclaw
