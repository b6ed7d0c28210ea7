import Nanoclaw.Runtime.Window

/-!
# The Store's View of a Transcript

The store replays each agent session of a log from its own events only, cut to the window of its
own latest compaction, and puts the pieces one after the other. `reconstructRuntimeSession`
replays the whole log. `InScope` is what an event has to satisfy for the two to stay together: it
edits only messages of its own agent session, and it is a compaction only in the first one.
-/

namespace Nanoclaw

open List Option

/-- The events of one agent session. -/
def agentSessionEvents (events : List SessionEventEnvelope) (agentSessionId : AgentSessionId) :
    List SessionEventEnvelope :=
  events.filter fun event => decide (event.agentSessionId = agentSessionId)

namespace Store

variable (events : List SessionEventEnvelope)

/-- The latest compaction, unless it names no summary. -/
def latestCompactionCheckpoint : Option CompactionCheckpoint :=
  (events.reverse.findSome? compactionRecord).bind fun record =>
    record.1.map fun summaryMessageId =>
      { summaryMessageId, retainedTailMessageIds := record.2 }

/-- One agent session's visible transcript; all without a summary there. -/
def visibleAgentSessionTranscript : List Message :=
  let transcript := replayTranscript events
  match latestCompactionCheckpoint events with
  | none => transcript
  | some checkpoint =>
    match messageIndex transcript checkpoint.summaryMessageId with
    | none => transcript
    | some summaryIndex => checkpointWindow transcript checkpoint summaryIndex

def visibleTranscript : List Message :=
  if (agentSessionIds events).length ≤ 1 then visibleAgentSessionTranscript events
  else (agentSessionIds events).flatMap fun agentSessionId =>
    visibleAgentSessionTranscript (agentSessionEvents events agentSessionId)

end Store

/-- **Store and runtime show the same transcript** of a log, rebuilt for its last agent session. -/
def ViewAgrees (events : List SessionEventEnvelope) : Prop :=
  ∃ last ∈ events.getLast?, ∃ restored,
    reconstructRuntimeSession events last.agentSessionId = .ok restored ∧
      Store.visibleTranscript events = restored.visibleTranscript

/-! ### Events in scope -/

/-- The message an event edits or removes. -/
def editedId (event : SessionEventEnvelope) : Option MessageId :=
  match event.event with
  | .transcriptMessagePatched messageId _ => some messageId
  | .transcriptMessageRemoved messageId => some messageId
  | _ => none

/-- The message an event removes. -/
def removedId (event : SessionEventEnvelope) : Option MessageId :=
  match event.event with
  | .transcriptMessageRemoved messageId => some messageId
  | _ => none

/-- **An event stays in scope**, given what was logged before it. -/
@[mk_iff]
structure InScope (logged : List SessionEventEnvelope) (event : SessionEventEnvelope) : Prop where
  /-- It does not go back to an agent session that was left. -/
  current : ∀ earlier ∈ logged, earlier.agentSessionId = event.agentSessionId →
    logged.getLast?.map SessionEventEnvelope.agentSessionId = some event.agentSessionId
  /-- A message has a new identifier. -/
  fresh : ∀ id ∈ introducedId event, id ∉ loggedIds logged
  /-- An edited message was logged by the same agent session. -/
  own : ∀ id ∈ editedId event, ∀ earlier ∈ logged, introducedId earlier = some id →
    earlier.agentSessionId = event.agentSessionId
  /-- The summary of the latest compaction is not removed. -/
  summary : ∀ id ∈ removedId event,
    (Store.latestCompactionCheckpoint logged).map CompactionCheckpoint.summaryMessageId ≠ some id
  /-- A compaction is made in the first agent session of the log. -/
  compaction : (compactionRecord event).isSome = true → ∀ earlier ∈ logged,
    earlier.agentSessionId = event.agentSessionId

variable {event : SessionEventEnvelope}

instance (logged : List SessionEventEnvelope) (event : SessionEventEnvelope) :
    Decidable (InScope logged event) :=
  decidable_of_iff' _ (inScope_iff logged event)

/-- Every event of the log was in scope when it was logged. -/
def Scoped (events : List SessionEventEnvelope) : Prop :=
  EachAfter InScope events

instance (events : List SessionEventEnvelope) : Decidable (Scoped events) :=
  inferInstanceAs (Decidable (EachAfter InScope events))

variable {events : List SessionEventEnvelope}

theorem scoped_append : Scoped (events ++ [event]) ↔ Scoped events ∧ InScope events event :=
  eachAfter_append

/-- A scoped log uses no message identifier twice. -/
theorem Scoped.nodup (h : Scoped events) : (loggedIds events).Nodup := by
  induction events using reverseRecOn with
  | nil => exact nodup_nil
  | append_singleton events event ih =>
    obtain ⟨hevents, hevent⟩ := scoped_append.mp h
    rw [loggedIds_append]
    have hfresh := hevent.fresh
    cases hid : introducedId event <;> simp_all [loggedIds, List.nodup_append]
    exact fun id x hx hintro heq => hfresh x hx (heq ▸ hintro)

/-! ### The agent sessions of a scoped log -/

theorem agentSessionIds_append (events : List SessionEventEnvelope) (event : SessionEventEnvelope) :
    agentSessionIds (events ++ [event]) =
      if event.agentSessionId ∈ agentSessionIds events then agentSessionIds events
      else agentSessionIds events ++ [event.agentSessionId] := by
  unfold agentSessionIds
  rw [foldl_append, foldl_cons, foldl_nil]

variable {id : AgentSessionId}

theorem mem_agentSessionIds :
    id ∈ agentSessionIds events ↔ ∃ event ∈ events, event.agentSessionId = id := by
  induction events using reverseRecOn with
  | nil => simp [agentSessionIds]
  | append_singleton events event ih =>
    rw [agentSessionIds_append]
    grind

theorem nodup_agentSessionIds (events : List SessionEventEnvelope) :
    (agentSessionIds events).Nodup := by
  induction events using reverseRecOn with
  | nil => exact nodup_nil
  | append_singleton events event ih =>
    rw [agentSessionIds_append]
    split
    · exact ih
    next hmem => exact nodup_append_comm.mp (nodup_cons.mpr ⟨hmem, ih⟩)

theorem agentSessionEvents_snoc_self (events : List SessionEventEnvelope)
    (event : SessionEventEnvelope) :
    agentSessionEvents (events ++ [event]) event.agentSessionId =
      agentSessionEvents events event.agentSessionId ++ [event] := by
  simp [agentSessionEvents]

theorem agentSessionEvents_snoc_of_ne (h : event.agentSessionId ≠ id) :
    agentSessionEvents (events ++ [event]) id = agentSessionEvents events id := by
  simp [agentSessionEvents, h]

variable {ids : List AgentSessionId}

/-- The other agent sessions do not see an event. -/
theorem flatMap_agentSessionEvents_snoc {α : Type} (events : List SessionEventEnvelope)
    (f : List SessionEventEnvelope → List α) (h : event.agentSessionId ∉ ids) :
    (ids.flatMap fun id => f (agentSessionEvents (events ++ [event]) id)) =
      ids.flatMap fun id => f (agentSessionEvents events id) :=
  flatMap_congr fun _ hid =>
    congrArg f (agentSessionEvents_snoc_of_ne fun heq => h (heq ▸ hid))

theorem agentSessionEvents_eq_nil (h : id ∉ agentSessionIds events) :
    agentSessionEvents events id = [] :=
  filter_eq_nil_iff.mpr fun event he hid =>
    h (mem_agentSessionIds.mpr ⟨event, he, of_decide_eq_true hid⟩)

/-- The last agent session of a scoped log is that of its last event. -/
theorem Scoped.getLast?_agentSessionIds (h : Scoped events) : (agentSessionIds events).getLast? =
      events.getLast?.map SessionEventEnvelope.agentSessionId := by
  induction events using reverseRecOn with
  | nil => rfl
  | append_singleton events event ih =>
    obtain ⟨hevents, hevent⟩ := scoped_append.mp h
    rw [agentSessionIds_append, getLast?_concat, map_some]
    split
    next hmem =>
      obtain ⟨earlier, hearlier, hid⟩ := mem_agentSessionIds.mp hmem
      rw [ih hevents, hevent.current earlier hearlier hid]
    · rw [getLast?_concat]

/-- **The agent session of the next event comes last**: it is the last one so far, or a
new one. -/
theorem InScope.agentSessionIds_eq (hevents : Scoped events) (hevent : InScope events event) :
    ∃ before, event.agentSessionId ∉ before ∧
      agentSessionIds (events ++ [event]) = before ++ [event.agentSessionId] ∧
      (agentSessionIds events = before ++ [event.agentSessionId] ∨
        agentSessionIds events = before ∧ agentSessionEvents events event.agentSessionId = []) := by
  rw [agentSessionIds_append]
  by_cases hmem : event.agentSessionId ∈ agentSessionIds events
  · obtain ⟨earlier, hearlier, hid⟩ := mem_agentSessionIds.mp hmem
    have hlast := hevents.getLast?_agentSessionIds.trans (hevent.current earlier hearlier hid)
    obtain ⟨before, hbefore⟩ := getLast?_eq_some_iff.mp hlast
    have hn := nodup_agentSessionIds events
    rw [hbefore] at hn
    refine ⟨before, fun h => ?_, by rw [if_pos hmem, hbefore], .inl hbefore⟩
    exact disjoint_of_nodup_append hn h (mem_singleton_self _)
  · exact ⟨agentSessionIds events, hmem, if_neg hmem, .inr ⟨rfl, agentSessionEvents_eq_nil hmem⟩⟩

/-! ### Replaying agent sessions one by one -/

/-- A surviving message was logged. -/
theorem exists_of_mem_replayTranscript
    (hn : (loggedIds events).Nodup) {m : Message} (hm : m ∈ replayTranscript events) :
    ∃ event ∈ events, introducedId event = some m.messageId :=
  mem_filterMap.mp ((replay_exact hn).2.subset (mem_map_of_mem hm))

/-- An event that edits no message of the first part edits the second part. -/
theorem applyEvent_append {xs ys : List Message}
    (h : ∀ id ∈ editedId event, id ∉ xs.map Message.messageId) :
    applyEvent event.event (xs ++ ys) = xs ++ applyEvent event.event ys := by
  rcases event with ⟨sid, aid, tid, cid, kind⟩
  cases kind with
  | transcriptMessage message => exact append_assoc ..
  | transcriptMessagePatched id message =>
    have hxs := replaceKey_of_notMem Message.messageId (message.withMessageId id) (h id rfl)
    simp only [applyEvent, replaceKey, map_append] at hxs ⊢
    rw [hxs]
  | transcriptMessageRemoved id =>
    have hxs := eraseKey_of_notMem Message.messageId (h id rfl)
    simp only [applyEvent, eraseKey, filter_append] at hxs ⊢
    rw [hxs]
  | _ => rfl

theorem Scoped.nodup_agentSessionEvents (h : Scoped events)
    (id : AgentSessionId) : (loggedIds (agentSessionEvents events id)).Nodup :=
  (filter_sublist.filterMap introducedId).nodup h.nodup

/-- **Agent sessions that edit only their own messages** can be replayed one by one. -/
theorem Scoped.replayTranscript_eq_flatMap (h : Scoped events) :
    replayTranscript events = (agentSessionIds events).flatMap fun id =>
      replayTranscript (agentSessionEvents events id) := by
  induction events using reverseRecOn with
  | nil => rfl
  | append_singleton events event ih =>
    obtain ⟨hevents, hevent⟩ := scoped_append.mp h
    obtain ⟨before, hnew, hids, hbefore⟩ := hevent.agentSessionIds_eq hevents
    -- What was replayed so far, split at the agent session of the event.
    have hsplit : replayTranscript events =
        (before.flatMap fun id => replayTranscript (agentSessionEvents events id)) ++
          replayTranscript (agentSessionEvents events event.agentSessionId) := by
      rw [ih hevents]
      rcases hbefore with hbefore | ⟨hbefore, hnil⟩
      · rw [hbefore, flatMap_append, flatMap_singleton]
      · rw [hbefore, hnil]
        exact (append_nil _).symm
    have hedits : ∀ id ∈ editedId event, id ∉
        (before.flatMap fun id => replayTranscript (agentSessionEvents events id)).map
          Message.messageId := by
      intro id hid hmem
      obtain ⟨m, hm, hmid⟩ := mem_map.mp hmem
      obtain ⟨other, hother, hm⟩ := mem_flatMap.mp hm
      obtain ⟨earlier, hearlier, hintro⟩ :=
        exists_of_mem_replayTranscript (hevents.nodup_agentSessionEvents other) hm
      obtain ⟨hearlier, hagent⟩ := mem_filter.mp hearlier
      have hown := hevent.own id hid earlier hearlier (hmid ▸ hintro)
      exact hnew (hown ▸ of_decide_eq_true hagent ▸ hother)
    rw [replayTranscript_append hevents.nodup, hsplit, applyEvent_append hedits, hids,
      flatMap_append, flatMap_singleton, agentSessionEvents_snoc_self,
      replayTranscript_append (hevents.nodup_agentSessionEvents _),
      flatMap_agentSessionEvents_snoc _ _ hnew]

/-! ### The checkpoint of a scoped log -/

/-- A compaction is right behind its summary, in the same agent session. -/
def FollowsSummary (logged : List SessionEventEnvelope) (event : SessionEventEnvelope) : Prop :=
  ∀ record, compactionRecord event = some record →
    ∃ previous ∈ logged.getLast?, ∃ message, previous.event = .transcriptMessage message ∧
      previous.agentSessionId = event.agentSessionId ∧ record.1 = some message.messageId

/-- Every compaction of the log was logged after its summary. -/
def Summarised (events : List SessionEventEnvelope) : Prop :=
  EachAfter FollowsSummary events

/-- The record of the latest compaction. -/
def latestRecord (events : List SessionEventEnvelope) :
    Option (Option MessageId × List MessageId) :=
  events.reverse.findSome? compactionRecord

theorem latestRecord_append (events : List SessionEventEnvelope) (event : SessionEventEnvelope) :
    latestRecord (events ++ [event]) = (compactionRecord event).or (latestRecord events) := by
  unfold latestRecord
  rw [reverse_append, reverse_singleton, singleton_append, findSome?_cons]
  cases compactionRecord event <;> rfl

variable {record : Option MessageId × List MessageId}

/-- Leaving out events that are no compaction leaves the latest record. -/
theorem latestRecord_agentSessionEvents
    (h : ∀ event ∈ events, (compactionRecord event).isSome = true → event.agentSessionId = id) :
    latestRecord (agentSessionEvents events id) = latestRecord events := by
  induction events using reverseRecOn with
  | nil => rfl
  | append_singleton events event ih =>
    have hih := ih fun e he => h e (mem_append_left _ he)
    rw [latestRecord_append]
    by_cases hid : event.agentSessionId = id
    · subst hid
      rw [agentSessionEvents_snoc_self, latestRecord_append, hih]
    · have hnone : compactionRecord event = none := by
        by_contra hne
        exact hid (h event (by simp) (isSome_iff_ne_none.mpr hne))
      rw [agentSessionEvents_snoc_of_ne hid, hih, hnone]
      rfl

/-- **The compactions of a scoped log** were made in its first agent session. -/
theorem Scoped.compaction_first (h : Scoped events) (he : event ∈ events)
    (hrecord : (compactionRecord event).isSome = true) :
    events.head?.map SessionEventEnvelope.agentSessionId = some event.agentSessionId := by
  induction events using reverseRecOn with
  | nil => cases he
  | append_singleton events last ih =>
    obtain ⟨hevents, hlast⟩ := scoped_append.mp h
    cases events with
    | nil => rw [mem_singleton.mp he]; rfl
    | cons first rest =>
      rcases mem_append.mp he with he | he
      · exact ih hevents he
      · obtain rfl := mem_singleton.mp he
        exact congrArg some (hlast.compaction hrecord first (by simp))

/-- The summary of the latest compaction survives in a scoped log. -/
theorem Scoped.summary_survives (h : Scoped events) (hsum : Summarised events)
    (hlatest : latestRecord events = some record) :
    ∃ id, record.1 = some id ∧ id ∈ (replayTranscript events).map Message.messageId := by
  induction events using reverseRecOn with
  | nil => cases hlatest
  | append_singleton events event ih =>
    obtain ⟨hevents, hevent⟩ := scoped_append.mp h
    obtain ⟨hsums, hfollows⟩ := eachAfter_append.mp hsum
    rw [latestRecord_append] at hlatest
    rw [replayTranscript_append hevents.nodup]
    cases hrecord : compactionRecord event with
    | some record' =>
      -- The summary was the last message that was logged.
      obtain rfl : record' = record := by simpa [hrecord] using hlatest
      obtain ⟨previous, hprevious, message, hmessage, -, hid⟩ := hfollows _ hrecord
      obtain ⟨before, rfl⟩ := getLast?_eq_some_iff.mp hprevious
      refine ⟨message.messageId, hid, ?_⟩
      have hsame : applyEvent event.event (replayTranscript (before ++ [previous])) =
          replayTranscript (before ++ [previous]) := by
        obtain ⟨_, _, _, _, hkind⟩ := compactionRecord_eq_some hrecord
        rw [hkind]
        rfl
      rw [hsame, replayTranscript_append (scoped_append.mp hevents).1.nodup, hmessage]
      simp [applyEvent]
    | none =>
      rw [hrecord, none_or] at hlatest
      obtain ⟨id, hid, hmem⟩ := ih hevents hsums hlatest
      refine ⟨id, hid, ?_⟩
      have hkept : ∀ removed ∈ removedId event, id ≠ removed := by
        rintro removed hremoved rfl
        refine hevent.summary _ hremoved ?_
        change Option.map _ (bind (latestRecord events) _) = _
        rw [hlatest]
        simp [hid]
      rcases event with ⟨sid, aid, tid, cid, kind⟩
      cases kind with
      | transcriptMessage message => simpa [applyEvent] using Or.inl (mem_map.mp hmem)
      | transcriptMessagePatched other message =>
        simpa only [applyEvent, map_key_replaceKey Message.messageId
          (Message.messageId_withMessageId message other)] using hmem
      | transcriptMessageRemoved other =>
        obtain ⟨m, hm, rfl⟩ := mem_map.mp hmem
        refine mem_map_of_mem (mem_filter.mpr ⟨hm, ?_⟩)
        simpa using hkept other rfl
      | _ => exact hmem

/-! ### Store and runtime -/

/-- The store's transcript is that of the agent sessions, also of one. -/
theorem Store.visibleTranscript_eq_flatMap (events : List SessionEventEnvelope) :
    Store.visibleTranscript events = (agentSessionIds events).flatMap fun id =>
      visibleAgentSessionTranscript (agentSessionEvents events id) := by
  unfold Store.visibleTranscript
  split
  next hlen =>
    match hids : agentSessionIds events, hlen with
    | [], _ =>
      have hnil : events = [] := eq_nil_iff_forall_not_mem.mpr fun e he => by
        have := mem_agentSessionIds.mpr ⟨e, he, rfl⟩
        rw [hids] at this
        cases this
      rw [hnil]
      rfl
    | [id], _ =>
      have hall : agentSessionEvents events id = events :=
        filter_eq_self.mpr fun e he => by
          have := mem_agentSessionIds.mpr ⟨e, he, rfl⟩
          rw [hids] at this
          exact decide_eq_true (mem_singleton.mp this)
      rw [flatMap_singleton, hall]
  · rfl

/-- With a compaction whose summary is there the store shows its window. -/
theorem Store.visibleAgentSessionTranscript_of_some (checkpoint : CompactionCheckpoint) {k : ℕ}
    (h : latestRecord events =
      some (some checkpoint.summaryMessageId, checkpoint.retainedTailMessageIds))
    (hk : messageIndex (replayTranscript events) checkpoint.summaryMessageId = some k) :
    visibleAgentSessionTranscript events =
      checkpointWindow (replayTranscript events) checkpoint k := by
  rw [latestRecord] at h
  simp only [visibleAgentSessionTranscript, latestCompactionCheckpoint, h, bind_some, map_some, hk]

/-- A message identifier is introduced by events of one agent session only. -/
theorem agentSessionId_eq_of_introducedId
    (hn : (loggedIds events).Nodup) {e e' : SessionEventEnvelope} (he : e ∈ events)
    (he' : e' ∈ events) {id : MessageId} (hid : introducedId e = some id)
    (hid' : introducedId e' = some id) : e.agentSessionId = e'.agentSessionId := by
  have hpair := pairwise_iff_getElem.mp (pairwise_filterMap.mp hn)
  obtain ⟨i, hi, rfl⟩ := getElem_of_mem he
  obtain ⟨j, hj, rfl⟩ := getElem_of_mem he'
  rcases lt_trichotomy i j with hij | rfl | hij
  · exact absurd rfl (hpair i j hi hj hij id hid id hid')
  · rfl
  · exact absurd rfl (hpair j i hj hi hij id hid' id hid)

/-- The summary of a compaction was logged by the agent session of the compaction. -/
theorem Summarised.exists_summary (h : Summarised events) (he : event ∈ events)
    (hrecord : compactionRecord event = some record) :
    ∃ summary ∈ events, introducedId summary = record.1 ∧
      summary.agentSessionId = event.agentSessionId := by
  obtain ⟨i, hi, rfl⟩ := getElem_of_mem he
  obtain ⟨previous, hprevious, message, hmessage, hagent, hid⟩ := h i hi record hrecord
  refine ⟨previous, mem_of_mem_take (mem_of_getLast? hprevious), ?_, hagent⟩
  rw [introducedId, hmessage, hid]

/-- Agent sessions without a compaction are shown as they are replayed. -/
theorem Store.flatMap_visible_of_no_compaction (events : List SessionEventEnvelope)
    (ids : List AgentSessionId)
    (h : ∀ event ∈ events, event.agentSessionId ∈ ids → compactionRecord event = none) :
    (ids.flatMap fun id => visibleAgentSessionTranscript (agentSessionEvents events id)) =
      ids.flatMap fun id => replayTranscript (agentSessionEvents events id) := by
  refine flatMap_congr fun id hid => ?_
  have hnone : latestRecord (agentSessionEvents events id) = none := by
    refine findSome?_eq_none_iff.mpr fun event he => ?_
    obtain ⟨he, hagent⟩ := mem_filter.mp (mem_reverse.mp he)
    exact h event he (of_decide_eq_true hagent ▸ hid)
  rw [latestRecord] at hnone
  simp only [visibleAgentSessionTranscript, latestCompactionCheckpoint, hnone, bind_none]

variable (h : Scoped events)

include h

/-- **The agent session of a compaction is the first one**, and no other agent session
compacted. -/
theorem Scoped.agentSessionIds_eq_cons {compaction : SessionEventEnvelope}
    (hmem : compaction ∈ events) (hrecord : (compactionRecord compaction).isSome = true) :
    ∃ rest, agentSessionIds events = compaction.agentSessionId :: rest ∧
      compaction.agentSessionId ∉ rest ∧
      ∀ event ∈ events, (compactionRecord event).isSome = true →
        event.agentSessionId = compaction.agentSessionId := by
  have hhead := h.compaction_first hmem hrecord
  obtain ⟨rest, hids⟩ := head?_eq_some_iff.mp ((head?_agentSessionIds events).trans hhead)
  refine ⟨rest, hids, (nodup_cons.mp (hids ▸ nodup_agentSessionIds events)).1, ?_⟩
  exact fun event he hsome => some.inj ((h.compaction_first he hsome).symm.trans hhead)

/-- The logs of `ids` hold no message of another agent session. -/
theorem Scoped.messageIndex_others {logged : SessionEventEnvelope} (hmem : logged ∈ events)
    {id : MessageId} (hid : introducedId logged = some id) (hids : logged.agentSessionId ∉ ids) :
    messageIndex (ids.flatMap fun other => replayTranscript (agentSessionEvents events other))
      id = none := by
  refine rposition_eq_none_iff.mpr fun m hm => decide_eq_false fun heq => ?_
  obtain ⟨other, hother, hm⟩ := mem_flatMap.mp hm
  obtain ⟨event, he, hevent⟩ :=
    exists_of_mem_replayTranscript (h.nodup_agentSessionEvents other) hm
  obtain ⟨he, hagent⟩ := mem_filter.mp he
  have hsame := agentSessionId_eq_of_introducedId h.nodup hmem he hid (heq ▸ hevent)
  rw [of_decide_eq_true hagent] at hsame
  exact hids (hsame ▸ hother)

/-- Without a compaction both show the whole transcript. -/
theorem Scoped.view_agrees_of_none
    (hne : events ≠ []) (hrecord : latestRecord events = none) : ViewAgrees events := by
  have hlast := getLast?_eq_getLast_of_ne_nil hne
  refine ⟨events.getLast hne, hlast, replayedSession events (events.getLast hne).agentSessionId,
    ?_, ?_⟩
  · unfold latestRecord at hrecord
    rw [reconstructRuntimeSession_last hlast, latestCompactionCheckpoint, hrecord]
  · rw [Store.visibleTranscript_eq_flatMap,
      RuntimeSession.visibleTranscript_of_removed_eq_empty (by simp)]
    refine Eq.trans (Store.flatMap_visible_of_no_compaction _ _ fun event he _ => ?_)
      h.replayTranscript_eq_flatMap.symm
    exact findSome?_eq_none_iff.mp hrecord event (mem_reverse.mpr he)

/-- **Store and runtime show the same transcript of a scoped log**: its compactions were all made in
the first agent session. -/
theorem Scoped.view_agrees (hsum : Summarised events) (hne : events ≠ []) : ViewAgrees events := by
  cases hrecord : latestRecord events with
  | none => exact h.view_agrees_of_none hne hrecord
  | some record =>
    obtain ⟨summaryId, hid, hmem⟩ := h.summary_survives hsum hrecord
    obtain ⟨compaction, hcompaction, hcrecord⟩ := exists_of_findSome?_eq_some hrecord
    rw [mem_reverse] at hcompaction
    obtain ⟨rest, hids, hrest, hfirst⟩ :=
      h.agentSessionIds_eq_cons hcompaction (by rw [hcrecord]; rfl)
    obtain ⟨summary, hsummary, hintro, hagent⟩ := hsum.exists_summary hcompaction hcrecord
    obtain ⟨recordId, tail⟩ := record
    obtain rfl : recordId = some summaryId := hid
    -- The transcript: what the first agent session left, then what the later ones did.
    set here := agentSessionEvents events compaction.agentSessionId
    set later := rest.flatMap fun id => replayTranscript (agentSessionEvents events id)
    have hreplay : replayTranscript events = replayTranscript here ++ later := by
      rw [h.replayTranscript_eq_flatMap, hids, flatMap_cons]
    have hindex : messageIndex (replayTranscript events) summaryId =
        messageIndex (replayTranscript here) summaryId := by
      rw [hreplay, messageIndex_append, h.messageIndex_others hsummary hintro (hagent ▸ hrest)]
      rfl
    obtain ⟨k, hk⟩ : ∃ k, messageIndex (replayTranscript events) summaryId = some k := by
      rw [← isSome_iff_exists, isSome_iff_ne_none]
      intro hnone
      obtain ⟨m, hm, hmid⟩ := mem_map.mp hmem
      exact of_decide_eq_false (rposition_eq_none_iff.mp hnone m hm) hmid
    obtain ⟨⟨m, hm, -⟩, -⟩ := rposition_eq_some_iff.mp (hindex ▸ hk)
    have hklt := (List.getElem?_eq_some_iff.mp hm).1
    have hn := nodup_replayTranscript h.nodup
    rw [hreplay] at hn
    -- The window of the runtime, and that of the store.
    have hlast := getLast?_eq_getLast_of_ne_nil hne
    obtain ⟨restored, hrestored, hvisible⟩ := restoreWindow_visible
      (replayedSession events (events.getLast hne).agentSessionId) (by simp)
      ⟨summaryId, tail⟩ hk
    refine ⟨events.getLast hne, hlast, restored, ?_, ?_⟩
    · unfold latestRecord at hrecord
      rw [reconstructRuntimeSession_last hlast, latestCompactionCheckpoint, hrecord]
      exact hrestored
    · have hstore := Store.flatMap_visible_of_no_compaction events rest fun event he hin => by
          by_contra hsome
          exact hrest (hfirst event he (isSome_iff_ne_none.mpr hsome) ▸ hin)
      have hhere := Store.visibleAgentSessionTranscript_of_some ⟨summaryId, tail⟩
        ((latestRecord_agentSessionEvents hfirst).trans hrecord) (hindex ▸ hk)
      rw [Store.visibleTranscript_eq_flatMap, hids, flatMap_cons, hstore, hhere, hvisible,
        transcript_replayedSession, hreplay, checkpointWindow_append hklt hn]

end Nanoclaw
