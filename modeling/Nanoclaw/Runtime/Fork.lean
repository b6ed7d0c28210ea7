import Nanoclaw.Lib.Proc
import Nanoclaw.Runtime.Window

/-!
# Forks of a Session

A fork is persisted as a seed: its transcript as messages, and a checkpoint if it was compacted.
Reconstructing the seed gives the fork back. The window is written down as identifiers, so a
retained message must not share its identifier with a later one, and a session without messages
has no seed.
-/

namespace Nanoclaw

open List Option

/-! ### Extending the tail twice -/

variable {k : ℕ} (session : RuntimeSession)

/-- **Extending a tail twice** is extending it once. -/
theorem upgrade_upgrade (transcript : List Message) {tail : List ℕ} (hlt : ∀ i ∈ tail, i < k) :
    upgradeRetainedTailIndicesForRequestRounds transcript
        (upgradeRetainedTailIndicesForRequestRounds transcript tail k) k =
      upgradeRetainedTailIndicesForRequestRounds transcript tail k := by
  cases tail with
  | nil => rfl
  | cons first rest =>
    have hfirst : first < k := hlt first mem_cons_self
    have hle := requestRoundStart_le transcript first
    -- The extended tail begins where the walk back has stopped.
    obtain ⟨rest', hrest⟩ : ∃ rest', upgradeRetainedTailIndicesForRequestRounds transcript
        (first :: rest) k = requestRoundStart transcript first :: rest' := by
      rw [upgrade_cons transcript rest hfirst]
      rcases eq_zero_or_pos (first - requestRoundStart transcript first) with hzero | hpos
      · refine ⟨rest, ?_⟩
        rw [hzero, range'_zero, nil_append,
          show requestRoundStart transcript first = first by omega]
      · obtain ⟨n, hn⟩ := Nat.exists_eq_succ_of_ne_zero hpos.ne'
        exact ⟨_, by rw [hn, range'_succ, cons_append]⟩
    rw [hrest, upgrade_cons transcript rest' (hle.trans_lt hfirst),
      requestRoundStart_requestRoundStart, Nat.sub_self, range'_zero, nil_append]

/-! ### Seeds -/

/-- The event of a session. -/
def seedEvent (event : SessionEventKind) : SessionEventEnvelope where
  sessionId := session.sessionId
  agentSessionId := session.agentSessionId
  turnId := none
  toolCallId := none
  event

/-- The messages of a seed. -/
def seedMessages : List SessionEventEnvelope :=
  session.transcript.map fun message => seedEvent session (.transcriptMessage message)

theorem replayTranscript_seedMessages :
    replayTranscript (seedMessages session) = session.transcript := by
  rw [seedMessages]
  induction session.transcript using reverseRecOn with
  | nil => rfl
  | append_singleton messages message ih =>
    rw [map_append, map_singleton, replayTranscript_append_message _ rfl, ih]

theorem loggedIds_seedMessages : loggedIds (seedMessages session) = session.ids := by
  rw [loggedIds, seedMessages, filterMap_map, RuntimeSession.ids, ← filterMap_eq_map]
  rfl

/-- A seed starts with the messages, and all of it is logged by the session. -/
theorem seedRuntimeSessionEvents_eq_ok {session : RuntimeSession}
    {seed : List SessionEventEnvelope} (h : seedRuntimeSessionEvents session = .ok seed) :
    (∃ later, seed = seedMessages session ++ later) ∧
      ∀ event ∈ seed, event.agentSessionId = session.agentSessionId := by
  have hmessages : ∀ event ∈ seedMessages session,
      event.agentSessionId = session.agentSessionId := forall_mem_map.mpr fun _ _ => rfl
  unfold seedRuntimeSessionEvents at h
  split at h
  · cases h
    exact ⟨⟨[], (append_nil _).symm⟩, hmessages⟩
  · split at h
    · cases h
    · obtain ⟨retained, -, h⟩ := Proc.except_bind_eq_ok.mp h
      cases h
      exact ⟨⟨_, rfl⟩, forall_mem_append.mpr ⟨hmessages, forall_mem_singleton.mpr rfl⟩⟩

theorem findSome?_compactionRecord_seedMessages :
    (seedMessages session).reverse.findSome? compactionRecord = none := by
  refine findSome?_eq_none_iff.mpr fun event hevent => ?_
  obtain ⟨message, -, rfl⟩ := mem_map.mp (mem_reverse.mp hevent)
  rfl

/-- A position that the identifier of its message leads back to. -/
def FoundAgain (transcript : List Message) (i : ℕ) : Prop :=
  ∃ message, transcript[i]? = some message ∧ messageIndex transcript message.messageId = some i

/-- **A window that can be written down** with the identifiers of its messages. -/
structure SeedableWindow (session : RuntimeSession) (k : ℕ) : Prop where
  summary : FoundAgain session.transcript k
  tail : ∀ i ∈ session.retainedTailIndices, i < k ∧ FoundAgain session.transcript i
  upgraded : upgradeRetainedTailIndicesForRequestRounds session.transcript
    session.retainedTailIndices k = session.retainedTailIndices

/-- **A session that a seed can give back**: nothing but a transcript and a window. -/
inductive Seedable (session : RuntimeSession) : Prop where
  | uncompacted (h : session =
      { RuntimeSession.new session.sessionId session.agentSessionId with
        transcript := session.transcript })
  | compacted (k : ℕ)
      (h : session =
        { RuntimeSession.new session.sessionId session.agentSessionId with
          transcript := session.transcript }.installWindow k session.retainedTailIndices)
      (window : SeedableWindow session k)

variable {events : List SessionEventEnvelope} {id : AgentSessionId} {session}

/-- The identifiers of the retained messages. -/
def retainedIds (session : RuntimeSession) : List MessageId :=
  session.retainedTailIndices.filterMap fun i => (session.transcript[i]?).map Message.messageId

/-- The identifiers lead back to the retained positions. -/
theorem SeedableWindow.positions (h : SeedableWindow session k) :
    ((retainedIds session).filterMap (messageIndex session.transcript)).filter
      (fun i => decide (i < k)) = session.retainedTailIndices := by
  have hback : (retainedIds session).filterMap (messageIndex session.transcript) =
      session.retainedTailIndices := by
    rw [retainedIds, filterMap_filterMap]
    refine (filterMap_congr fun i hi => ?_).trans filterMap_some
    obtain ⟨-, message, hmessage, hindex⟩ := h.tail i hi
    rw [hmessage]
    exact hindex
  rw [hback]
  exact filter_eq_self.mpr fun i hi => decide_eq_true (h.tail i hi).1

theorem SeedableWindow.seed_eq (h : SeedableWindow session k) {summary : Message}
    (hk : session.compactionSummaryIndex = some k)
    (hsummary : session.transcript[k]? = some summary) :
    ∃ sources chars, seedRuntimeSessionEvents session = .ok (seedMessages session ++
      [seedEvent session (.compactionCompleted "fork_context" sources (retainedIds session).length
        chars (some summary.messageId) (retainedIds session))]) := by
  have hmap : session.retainedTailIndices.map (fun i =>
      ((session.transcript[i]?).map Message.messageId).getD ⟨""⟩) = retainedIds session := by
    rw [← filterMap_eq_map']
    refine filterMap_congr fun i hi => ?_
    obtain ⟨-, message, hmessage, -⟩ := h.tail i hi
    rw [hmessage]
    rfl
  refine ⟨k - session.retainedTailIndices.countP fun index => decide (index < k),
    summary.textContent.length, ?_⟩
  unfold seedRuntimeSessionEvents
  rw [hk]
  dsimp only
  rw [hsummary]
  rw [Proc.except_mapM_eq (g := fun i =>
    ((session.transcript[i]?).map Message.messageId).getD ⟨""⟩), hmap]
  · rfl
  · intro i hi
    obtain ⟨-, message, hmessage, -⟩ := h.tail i hi
    rw [hmessage, map_some, getD_some]

/-- **The seed of a session gives the session back.** -/
theorem Seedable.reconstruct_seed (h : Seedable session) (hne : session.transcript ≠ []) :
    ∃ seed, seedRuntimeSessionEvents session = .ok seed ∧
      reconstructRuntimeSession seed session.agentSessionId = .ok session := by
  cases h with
  | uncompacted h =>
    have hindex : session.compactionSummaryIndex = none := by rw [h]; rfl
    have hlast : (seedMessages session).getLast? =
        some (seedEvent session (.transcriptMessage (session.transcript.getLast hne))) := by
      rw [seedMessages, getLast?_map, getLast?_eq_some_getLast hne, map_some]
    refine ⟨seedMessages session, ?_, (reconstructRuntimeSession_last hlast).trans ?_⟩
    · unfold seedRuntimeSessionEvents
      rw [hindex]
      rfl
    · rw [latestCompactionCheckpoint, findSome?_compactionRecord_seedMessages, replayedSession,
        hlast, replayTranscript_seedMessages]
      exact congrArg Except.ok h.symm
  | compacted k h window =>
    have hindex : session.compactionSummaryIndex = some k := by rw [h]; rfl
    obtain ⟨summary, hsummary, hfound⟩ := window.summary
    obtain ⟨sources, chars, hseed⟩ := window.seed_eq hindex hsummary
    have hlast := getLast?_concat (l := seedMessages session)
      (a := seedEvent session (.compactionCompleted "fork_context" sources
        (retainedIds session).length chars (some summary.messageId) (retainedIds session)))
    refine ⟨_, hseed, (reconstructRuntimeSession_last hlast).trans ?_⟩
    rw [replayedSession, hlast, replayTranscript, foldl_append, latestCompactionCheckpoint,
      reverse_append, reverse_singleton]
    change restoreWindow { RuntimeSession.new session.sessionId session.agentSessionId with
      transcript := replayTranscript (seedMessages session) }
      ⟨summary.messageId, retainedIds session⟩ = _
    rw [replayTranscript_seedMessages, restoreWindow, hfound]
    dsimp only
    rw [window.positions, window.upgraded, ← h]

/-! ### Reconstructed sessions -/

/-- No retained message has the identifier of a later message. -/
def RetainsLastIds (session : RuntimeSession) : Prop :=
  ∀ i ∈ session.retainedTailIndices, ∀ j < session.ids.length, i < j →
    session.ids[j]? ≠ session.ids[i]?

theorem foundAgain_of_forall {transcript : List Message} {i : ℕ} (hi : i < transcript.length)
    (h : ∀ j < (transcript.map Message.messageId).length, i < j →
      (transcript.map Message.messageId)[j]? ≠ (transcript.map Message.messageId)[i]?) :
    FoundAgain transcript i := by
  refine ⟨transcript[i], getElem?_eq_getElem hi, rposition_eq_some_iff.mpr
    ⟨⟨transcript[i], getElem?_eq_getElem hi, decide_eq_true rfl⟩, fun j later hj hlater => ?_⟩⟩
  have hlength := (List.getElem?_eq_some_iff.mp hlater).1
  refine decide_eq_false fun hsame => h j (by rwa [length_map]) hj ?_
  rw [getElem?_map, getElem?_map, hlater, getElem?_eq_getElem hi, map_some, map_some, hsame]

/-- **A reconstructed session can be written down again** if retained identifiers are last. -/
theorem seedable_of_reconstruct (h : reconstructRuntimeSession events id = .ok session)
    (hids : RetainsLastIds session) : Seedable session := by
  unfold reconstructRuntimeSession at h
  split at h
  · cases h
  next cutoff hcutoff =>
    dsimp only at h
    split at h
    · cases h
    · cases h
      exact .uncompacted rfl
    next checkpoint hcheckpoint =>
      unfold restoreWindow at h
      split at h
      · cases h
      next k hk =>
        cases h
        obtain ⟨⟨summary, hsummary, hid⟩, -⟩ := rposition_eq_some_iff.mp hk
        have hlength := (List.getElem?_eq_some_iff.mp hsummary).1
        refine .compacted k rfl ⟨⟨summary, hsummary, ?_⟩, fun i hi => ?_, ?_⟩
        · rw [of_decide_eq_true hid]
          exact hk
        · have hlt := lt_of_mem_upgrade
            (fun i hi => of_decide_eq_true (mem_filter.mp hi).2) hi
          exact ⟨hlt, foundAgain_of_forall (hlt.trans hlength) (hids i hi)⟩
        · exact upgrade_upgrade _ fun i hi => of_decide_eq_true (mem_filter.mp hi).2

theorem Seedable.forkRuntimeSession (h : Seedable session)
    (sessionId : SessionId) (agentSessionId : AgentSessionId) :
    Seedable (forkRuntimeSession session sessionId agentSessionId) := by
  cases h with
  | uncompacted h =>
    refine .uncompacted ?_
    rw [h]
    rfl
  | compacted k h window =>
    refine .compacted k ?_ ⟨window.summary, window.tail, window.upgraded⟩
    rw [h]
    rfl

/-- **A reconstructed session, forked, persisted and reconstructed** is the fork. -/
theorem fork_round_trip {events : List SessionEventEnvelope} {id : AgentSessionId}
    {session : RuntimeSession} (h : reconstructRuntimeSession events id = .ok session)
    (hne : session.transcript ≠ []) (hids : RetainsLastIds session) (sessionId : SessionId)
    (agentSessionId : AgentSessionId) :
    ∃ seed forked, seedRuntimeSessionEvents (forkRuntimeSession session sessionId agentSessionId) =
        .ok seed ∧
      reconstructRuntimeSession seed agentSessionId = .ok forked ∧
      forked = { session with sessionId, agentSessionId } ∧
      forked.visibleTranscript = session.visibleTranscript ∧
      ∀ sessionId' agentSessionId', ∃ seed',
        seedRuntimeSessionEvents (forkRuntimeSession forked sessionId' agentSessionId') =
            .ok seed' ∧
          reconstructRuntimeSession seed' agentSessionId' =
            .ok { forked with sessionId := sessionId', agentSessionId := agentSessionId' } := by
  have hseedable := seedable_of_reconstruct h hids
  have hrename : ∀ sessionId agentSessionId, forkRuntimeSession session sessionId agentSessionId =
      { session with sessionId, agentSessionId } := by
    intro sessionId agentSessionId
    cases hseedable with
    | uncompacted h => rw [h]; rfl
    | compacted k h _ => rw [h]; rfl
  have hagain := fun sessionId agentSessionId =>
    (hseedable.forkRuntimeSession sessionId agentSessionId).reconstruct_seed hne
  obtain ⟨seed, hseed, hforked⟩ := hagain sessionId agentSessionId
  refine ⟨seed, _, hseed, hforked, hrename _ _, rfl, fun sessionId' agentSessionId' => ?_⟩
  obtain ⟨seed', hseed', hforked'⟩ := hagain sessionId' agentSessionId'
  refine ⟨seed', hseed', hforked'.trans (congrArg Except.ok ?_)⟩
  rw [hrename sessionId' agentSessionId', hrename sessionId agentSessionId]

/-! ### A compacted session, and a session without messages -/

/-- With distinct identifiers, all retained messages are last ones. -/
theorem retainsLastIds_of_nodup (hn : session.ids.Nodup) : RetainsLastIds session :=
  fun _ _ _ hj hlt hsame => hlt.ne' ((getElem?_inj hj hn).mp hsame)

/-- An event of the session `s`, logged by the agent session `a`. -/
def loggedBy (event : SessionEventKind) : SessionEventEnvelope where
  sessionId := ⟨"s"⟩
  agentSessionId := ⟨"a"⟩
  turnId := none
  toolCallId := none
  event

/-- A compaction that retains an answer without its request. -/
def answerRetained : List SessionEventEnvelope :=
  [loggedBy (.transcriptMessage (Message.user "request" ⟨"u1"⟩)),
    loggedBy (.transcriptMessage (Message.assistant "answer" ⟨"a1"⟩)),
    loggedBy (.transcriptMessage (Message.system "summary" ⟨"m1"⟩)),
    loggedBy (.compactionCompleted "manual" 1 1 7 (some ⟨"m1"⟩) [⟨"a1"⟩])]

theorem fork_round_trip_answer_retained :
    ∃ session, reconstructRuntimeSession answerRetained ⟨"a"⟩ = .ok session ∧
      session.retainedTailIndices = [0, 1] ∧
      ∃ seed, seedRuntimeSessionEvents (forkRuntimeSession session ⟨"t"⟩ ⟨"b"⟩) = .ok seed ∧
        reconstructRuntimeSession seed ⟨"b"⟩ =
          .ok { session with sessionId := ⟨"t"⟩, agentSessionId := ⟨"b"⟩ } := by
  have hsession : ∃ session, reconstructRuntimeSession answerRetained ⟨"a"⟩ = .ok session ∧
      session.ids = [⟨"u1"⟩, ⟨"a1"⟩, ⟨"m1"⟩] ∧ session.retainedTailIndices = [0, 1] :=
    ⟨_, rfl, rfl, rfl⟩
  obtain ⟨session, hsession, hids, htail⟩ := hsession
  have hlast : RetainsLastIds session := retainsLastIds_of_nodup (by rw [hids]; decide)
  have hne : session.transcript ≠ [] := fun hnil => by
    rw [RuntimeSession.ids, hnil] at hids
    cases hids
  obtain ⟨seed, forked, hseed, hforked, rfl, -, -⟩ :=
    fork_round_trip hsession hne hlast ⟨"t"⟩ ⟨"b"⟩
  exact ⟨session, hsession, htail, seed, hseed, hforked⟩

/-- A compaction that retains a request whose identifier is used again. -/
def requestRepeated : List SessionEventEnvelope :=
  [loggedBy (.transcriptMessage (Message.user "request" ⟨"d"⟩)),
    loggedBy (.transcriptMessage (Message.assistant "answer" ⟨"a1"⟩)),
    loggedBy (.transcriptMessage (Message.user "again" ⟨"d"⟩)),
    loggedBy (.transcriptMessage (Message.system "summary" ⟨"m1"⟩)),
    loggedBy (.compactionCompleted "manual" 1 1 7 (some ⟨"m1"⟩) [⟨"a1"⟩])]

/-- A retained message whose identifier comes again is not found again. -/
theorem repeated_id_moves_window :
    ∃ session, reconstructRuntimeSession requestRepeated ⟨"a"⟩ = .ok session ∧
      session.retainedTailIndices = [0, 1] ∧ ¬ RetainsLastIds session ∧
      ∃ seed, seedRuntimeSessionEvents (forkRuntimeSession session ⟨"t"⟩ ⟨"b"⟩) = .ok seed ∧
        ∃ forked, reconstructRuntimeSession seed ⟨"b"⟩ = .ok forked ∧
          forked.retainedTailIndices = [2, 1] :=
  ⟨_, rfl, rfl, fun h => h 0 (by decide) 2 (by decide) (by decide) rfl, _, rfl, _, rfl, rfl⟩

/-- Nothing is reconstructed from the empty seed of an empty session. -/
theorem fork_without_messages_is_lost :
    ∃ session, reconstructRuntimeSession [loggedBy (.sessionStart none)] ⟨"a"⟩ = .ok session ∧
      ∃ seed, seedRuntimeSessionEvents (forkRuntimeSession session ⟨"t"⟩ ⟨"b"⟩) = .ok seed ∧
        ∀ forked, reconstructRuntimeSession seed ⟨"b"⟩ ≠ .ok forked :=
  ⟨_, rfl, _, rfl, fun _ h => by cases h⟩

end Nanoclaw
