import Nanoclaw.Store.IndexInvariant

/-!
# Consistency of the Session Index

The indexed summary of a session is that of its log, as long as no message is logged under an
identifier that the latest compaction of its agent session already names: such a message changes
what is visible, and the record only counts it.
-/

namespace Nanoclaw

/-- **The index agrees with the files**: it has the summary of every session file, and no
other. -/
def IndexAgrees (store : FileSessionStore) : Prop :=
  ∀ s, (store.index.sessions.get s).isSome = (store.disk.files.get s).isSome ∧
    (store.index.sessions.get s).map (fun record => (record.summary, record.agentSessionIds)) =
      (store.disk.files.get s).bind fun file => file.load.toOption.bind fun events =>
        (summarizeSessionEvents s events).map fun summary =>
          (summary, agentSessionIds (envelopes events))

/-- The event logs no message named by the latest compaction there. -/
def LogsUnnamed (logged : List StampedEvent) (event : StampedEvent) : Prop :=
  Unnamed (envelopes logged) event.toSessionEventEnvelope

instance (logged : List StampedEvent) (event : StampedEvent) :
    Decidable (LogsUnnamed logged event) :=
  inferInstanceAs (Decidable (Unnamed _ _))

/-- **The store keeps records on track.** -/
theorem recordInvariant_tracks : RecordInvariant (fun _ => LogsUnnamed) Tracks where
  rebuilt := indexedRecordFromEvents_tracks
  first hrebuild hnamed := by
    rw [applyEventToRecord_default]
    exact Tracks.apply ⟨rfl, rfl, rfl⟩ hrebuild hnamed
  next h hrebuild hnamed := h.apply hrebuild hnamed

theorem Consistent.indexAgrees {store : FileSessionStore}
    {logs : SessionId → List StampedEvent} (h : Consistent Tracks store logs) :
    IndexAgrees store := by
  intro s
  refine ⟨by rw [(h.indexed s).isSome, h.onDisk.isSome_file], ?_⟩
  have hindexed := h.indexed s
  rw [h.onDisk.file]
  cases hget : store.index.sessions.get s with
  | none =>
    rw [hget] at hindexed
    rw [if_pos (show logs s = [] from hindexed)]
    rfl
  | some record =>
    rw [hget] at hindexed
    obtain ⟨hne, htracks⟩ := hindexed
    rw [if_neg hne, Option.bind_some, SessionFile.load_ofEvents]
    simp [Except.toOption, summarizeSessionEvents, hne, htracks.summary_eq, htracks.ids]

/-- **The index agrees with the files along every run** of appends, pruning and reopening, as
long as no message is logged under an identifier that the latest compaction of its agent
session already names. -/
theorem index_agrees_along_run {disk : Disk} {logs : SessionId → List StampedEvent}
    (hlogs : Logs disk logs) (hsidecar : disk.sidecar = none)
    (retention : SessionStoreRetentionPolicy) (nowMs : Timestamp) (steps : List StoreStep) :
    ∃ store, openWithOptions disk retention nowMs = .ok store ∧
      (System.Meets FileSessionStore.step (FileSessionStore.LogsAll fun _ => LogsUnnamed) store
          steps → IndexAgrees (System.run FileSessionStore.step store steps)) := by
  obtain ⟨store, _, hopen, -, -, hstore⟩ :=
    recordInvariant_tracks.openWithOptions hlogs hsidecar retention nowMs
  refine ⟨store, hopen, fun hmeets => ?_⟩
  obtain ⟨_, h⟩ := recordInvariant_tracks.run ⟨_, hstore⟩ hmeets
  exact h.indexAgrees

/-! ### A run, and a run that ends in disagreement -/

/-- An empty directory. -/
def emptyDisk : Disk where
  files := .empty

theorem logs_emptyDisk : Logs emptyDisk fun _ => [] :=
  ⟨fun _ => rfl, fun _ _ h => by cases h⟩

/-- An event of the session `s`, logged by the agent session `a`. -/
def eventAt (timestampMs : Timestamp) (event : SessionEventKind) : StampedEvent where
  sessionId := ⟨"s"⟩
  agentSessionId := ⟨"a"⟩
  turnId := none
  toolCallId := none
  event
  timestampMs

/-- A message of the user with its identifier as text. -/
def messageEvent (timestampMs : Timestamp) (id : String) : StampedEvent :=
  eventAt timestampMs (.transcriptMessage (Message.user id ⟨id⟩))

/-- A compaction to a summary. -/
def compactionEvent (timestampMs : Timestamp) (summaryId : String) : StampedEvent :=
  eventAt timestampMs (.compactionCompleted "manual" 1 0 1 (some ⟨summaryId⟩) [])

/-- Two messages, a summary of them, a compaction, a further message and a restart. -/
def compactedSteps : List StoreStep :=
  [.appendBatch 0 [messageEvent 1 "u1", messageEvent 2 "u2"],
    .appendBatch 0 [messageEvent 3 "m1", compactionEvent 4 "m1"],
    .appendBatch 0 [messageEvent 5 "u3"], .reopen 0]

theorem index_agrees_after_compaction : ∃ store, openWithOptions emptyDisk {} 0 = .ok store ∧
      System.Meets FileSessionStore.step (FileSessionStore.LogsAll fun _ => LogsUnnamed) store
        compactedSteps ∧
      IndexAgrees (System.run FileSessionStore.step store compactedSteps) := by
  obtain ⟨store, hopen, h⟩ := index_agrees_along_run logs_emptyDisk rfl {} 0 compactedSteps
  refine have hmeets := ?_; ⟨store, hopen, hmeets, h hmeets⟩
  cases hopen
  decide +kernel

/-- A compaction before its summary: one message is visible, two are counted. -/
theorem index_disagrees_with_late_summary : ∃ store, openWithOptions emptyDisk {} 0 = .ok store ∧
      ¬ IndexAgrees (System.run FileSessionStore.step store
        [.appendBatch 0 [compactionEvent 1 "m1"], .appendBatch 0 [messageEvent 2 "u1"],
          .appendBatch 0 [messageEvent 3 "m1"]]) := by
  refine ⟨applyRetention emptyDisk ⟨indexVersion, .empty⟩ {} 0, rfl, fun h => ?_⟩
  have hs := (h ⟨"s"⟩).2
  revert hs
  decide +kernel

end Nanoclaw
