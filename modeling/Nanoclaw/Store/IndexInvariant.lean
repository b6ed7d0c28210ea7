import Nanoclaw.Store.FileStore

/-!
# Invariants of the Session Index

A property of records and logs that survives the counting of an event and holds of every rebuilt
record (`RecordInvariant`) holds of all records, in memory and in the sidecar, along every run of
the store. `LogsAll C` asks `C` of every event of a step that is counted, given the record and
the log of its session.
-/

namespace Nanoclaw

open List

/-! ### Steps of the store -/

/-- All events of a batch meet a condition on record and log before. -/
def AllAfter (C : IndexedSessionRecord → List StampedEvent → StampedEvent → Prop) :
    Option IndexedSessionRecord → List StampedEvent → List StampedEvent → Prop
  | _, _, [] => True
  | record, logged, event :: events =>
    C (record.getD (defaultIndexedRecord event)) logged event ∧
      AllAfter C (countEvent event record) (logged ++ [event]) events

instance AllAfter.decidable (C : IndexedSessionRecord → List StampedEvent → StampedEvent → Prop)
    [∀ record logged event, Decidable (C record logged event)] :
    ∀ record logged events, Decidable (AllAfter C record logged events)
  | _, _, [] => .isTrue trivial
  | record, logged, event :: events =>
    have := AllAfter.decidable C (countEvent event record) (logged ++ [event]) events
    inferInstanceAs (Decidable (C (record.getD (defaultIndexedRecord event)) logged event ∧
      AllAfter C (countEvent event record) (logged ++ [event]) events))

/-- A step of the store. -/
inductive StoreStep where
  | appendBatch (nowMs : Timestamp) (events : List StampedEvent)
  | reopen (nowMs : Timestamp)

namespace FileSessionStore

def step (store : FileSessionStore) : StoreStep → FileSessionStore
  | .appendBatch nowMs events => (store.appendBatch nowMs events).2
  | .reopen nowMs => (openWithOptions store.disk store.retention nowMs).toOption.getD store

/-- Every event of the step meets a condition, unless its record is rebuilt. -/
def LogsAll (C : IndexedSessionRecord → List StampedEvent → StampedEvent → Prop)
    (store : FileSessionStore) : StoreStep → Prop
  | .appendBatch _ events =>
    ∀ s ∈ events.map (·.sessionId), (rebuildFallbacks events).get s = none →
      AllAfter C (store.index.sessions.get s) (store.disk.eventsOf s) (eventsOfSession s events)
  | .reopen _ => True

instance (C : IndexedSessionRecord → List StampedEvent → StampedEvent → Prop)
    [∀ record logged event, Decidable (C record logged event)] (store : FileSessionStore) :
    ∀ step, Decidable (store.LogsAll C step)
  | .appendBatch _ events => inferInstanceAs (Decidable (∀ s ∈ events.map (·.sessionId),
      (rebuildFallbacks events).get s = none →
        AllAfter C (store.index.sessions.get s) (store.disk.eventsOf s) (eventsOfSession s events)))
  | .reopen _ => .isTrue trivial

theorem logsAll_true (store : FileSessionStore) (step : StoreStep) :
    store.LogsAll (fun _ _ _ => True) step := by
  cases step with
  | reopen nowMs => trivial
  | appendBatch nowMs events =>
    intro s _ _
    generalize store.index.sessions.get s = record
    generalize store.disk.eventsOf s = logged
    induction eventsOfSession s events generalizing record logged with
    | nil => trivial
    | cons event events ih => exact ⟨trivial, ih _ _⟩

end FileSessionStore

/-! ### Invariants of records -/

/-- **A property of a record and its log that the store keeps**, if every event it counts
meets `C`. -/
structure RecordInvariant (C : IndexedSessionRecord → List StampedEvent → StampedEvent → Prop)
    (P : SessionId → IndexedSessionRecord → List StampedEvent → Prop) : Prop where
  rebuilt : ∀ {sessionId record events}, (∀ event ∈ events, event.sessionId = sessionId) →
    indexedRecordFromEvents events = some record → P sessionId record events
  first : ∀ {event}, rebuildIndexRecord event.event = false →
    C (defaultIndexedRecord event) [] event →
    P event.sessionId (applyEventToRecord (defaultIndexedRecord event) event) [event]
  next : ∀ {sessionId record events event}, P sessionId record events →
    rebuildIndexRecord event.event = false → C record events event →
    P sessionId (applyEventToRecord record event) (events ++ [event])

/-- An empty log has no record, others one with the property. -/
def Indexed (P : SessionId → IndexedSessionRecord → List StampedEvent → Prop)
    (sessionId : SessionId) (record : Option IndexedSessionRecord)
    (events : List StampedEvent) : Prop :=
  match record with
  | none => events = []
  | some record => events ≠ [] ∧ P sessionId record events

/-- **Index, sidecar and files belong to the same logs**, with records of a property. -/
structure Consistent (P : SessionId → IndexedSessionRecord → List StampedEvent → Prop)
    (store : FileSessionStore) (logs : SessionId → List StampedEvent) : Prop where
  onDisk : Logs store.disk logs
  indexed : ∀ s, Indexed P s (store.index.sessions.get s) (logs s)
  version : store.index.version = indexVersion
  sidecar : store.disk.sidecar = some store.index

variable {logs : SessionId → List StampedEvent} {store : FileSessionStore}

section

variable {C : IndexedSessionRecord → List StampedEvent → StampedEvent → Prop}
  {P : SessionId → IndexedSessionRecord → List StampedEvent → Prop} {events : List StampedEvent}
  {record : Option IndexedSessionRecord} {sessionId : SessionId}

theorem Indexed.isSome (h : Indexed P sessionId record events) :
    record.isSome = decide (events ≠ []) := by
  cases record with
  | none => simp [show events = [] from h]
  | some record => simp [h.1]

theorem Consistent.keys_eq
    (h : Consistent P store logs) : store.index.sessions.keys = store.disk.files.keys :=
  OrdMap.keys_eq_iff.mpr fun s => by rw [(h.indexed s).isSome, h.onDisk.isSome_file]

namespace RecordInvariant

variable (hP : RecordInvariant C P)

include hP

theorem countEvent (h : Indexed P sessionId record events) {event : StampedEvent}
    (hown : event.sessionId = sessionId) (hrebuild : rebuildIndexRecord event.event = false)
    (hC : C (record.getD (defaultIndexedRecord event)) events event) :
    Indexed P sessionId (countEvent event record) (events ++ [event]) := by
  refine ⟨by simp, ?_⟩
  cases record with
  | some record => exact hP.next h.2 hrebuild hC
  | none =>
    obtain rfl : events = [] := h
    subst hown
    exact hP.first hrebuild hC

theorem foldl_countEvent {later : List StampedEvent}
    (hown : ∀ event ∈ later, event.sessionId = sessionId)
    (hrebuild : ∀ event ∈ later, rebuildIndexRecord event.event = false)
    (h : Indexed P sessionId record events) (hC : AllAfter C record events later) :
    Indexed P sessionId (later.foldl (fun record event => Nanoclaw.countEvent event record) record)
      (events ++ later) := by
  induction later generalizing record events with
  | nil => simpa using h
  | cons event later ih =>
    obtain ⟨howner, hown⟩ := forall_mem_cons.mp hown
    obtain ⟨hkind, hrebuild⟩ := forall_mem_cons.mp hrebuild
    have := ih hown hrebuild (hP.countEvent h howner hkind hC.1) hC.2
    simpa using this

theorem indexedRecordFromEvents (hown : ∀ event ∈ events, event.sessionId = sessionId) :
    Indexed P sessionId (indexedRecordFromEvents events) events := by
  cases hrecord : Nanoclaw.indexedRecordFromEvents events with
  | some record =>
    refine ⟨fun hnil => ?_, hP.rebuilt hown hrecord⟩
    subst hnil
    cases hrecord
  | none =>
    by_contra hne
    have := indexedRecordFromEvents_isSome hne
    rw [hrecord] at this
    cases this

end RecordInvariant

end

/-! ### Appending -/

/-- The sessions of a batch whose record is rebuilt. -/
theorem isSome_rebuildFallbacks (events : List StampedEvent) (s : SessionId) :
    ((rebuildFallbacks events).get s).isSome = true ↔
      ∃ event ∈ eventsOfSession s events, rebuildIndexRecord event.event = true := by
  have hlast : ∀ (xs : List StampedEvent) (start : Option StampedEvent),
      (xs.foldl (fun _ event => some event) start).isSome = true ↔
        xs ≠ [] ∨ start.isSome = true := by
    intro xs
    induction xs with
    | nil => simp
    | cons x xs ih =>
      intro start
      rw [foldl_cons, ih]
      simp
  have hget : (rebuildFallbacks events).get s = _ :=
    OrdMap.get_foldl_alter (fun event : StampedEvent => event.sessionId)
      (fun event _ => some event) _ .empty s
  rw [hget, hlast]
  simp only [eventsOfSession, ne_eq, filter_eq_nil_iff, mem_filter, not_forall,
    OrdMap.get_empty, Option.isSome_none, Bool.false_eq_true, or_false, not_not, exists_prop]
  exact exists_congr fun event => and_right_comm

section

variable {C : IndexedSessionRecord → List StampedEvent → StampedEvent → Prop}
  {P : SessionId → IndexedSessionRecord → List StampedEvent → Prop} {events : List StampedEvent}

theorem rebuiltRecords_eq (h : Logs store.disk logs) (events : List StampedEvent) :
    rebuiltRecords (store.disk.run (writeOps none events)) events =
      .ok ((rebuildFallbacks events).entries.map fun entry =>
        (entry.1, rebuiltRecord (logs entry.1 ++ eventsOfSession entry.1 events) entry.2)) := by
  refine Proc.except_mapM_eq fun (s, fallback) hentry => ?_
  have hsome : ((rebuildFallbacks events).get s).isSome = true :=
    Option.isSome_iff_exists.mpr ⟨fallback, OrdMap.mem_entries.mp hentry⟩
  obtain ⟨event, hevent, -⟩ := (isSome_rebuildFallbacks events s).mp hsome
  dsimp only
  rw [(h.append events).load (append_ne_nil_of_right_ne_nil _ (ne_nil_of_mem hevent))]
  rfl

/-- A record is rebuilt, or has counted the events of its session. -/
theorem indexAfter_eq (h : Logs store.disk logs) (events : List StampedEvent) :
    ∃ index, store.indexAfter events = .ok index ∧ index.version = store.index.version ∧
      ∀ s, index.sessions.get s =
        match (rebuildFallbacks events).get s with
        | some fallback => some (rebuiltRecord (logs s ++ eventsOfSession s events) fallback)
        | none => (countEvents events store.index.sessions).get s := by
  have hindex : store.indexAfter events = .ok
      { store.index with
        sessions := ((rebuildFallbacks events).entries.map fun entry =>
          (entry.1, rebuiltRecord (logs entry.1 ++ eventsOfSession entry.1 events) entry.2)).foldl
            (fun sessions entry => sessions.insert entry.1 entry.2)
            (countEvents events store.index.sessions) } := by
    rw [FileSessionStore.indexAfter, rebuiltRecords_eq h]
    rfl
  refine ⟨_, hindex, rfl, fun s => ?_⟩
  rw [foldl_map]
  refine (OrdMap.get_foldl_entries (rebuildFallbacks events) (fun entry _ =>
    some (rebuiltRecord (logs entry.1 ++ eventsOfSession entry.1 events) entry.2))
      (countEvents events store.index.sessions) s).trans ?_
  cases (rebuildFallbacks events).get s <;> rfl

/-- The events of a session whose record is not rebuilt are counted one by one. -/
theorem get_countEvents {s : SessionId} (hfallback : (rebuildFallbacks events).get s = none)
    (sessions : OrdMap SessionId IndexedSessionRecord) :
    (countEvents events sessions).get s = (eventsOfSession s events).foldl
      (fun record event => countEvent event record) (sessions.get s) := by
  have hcounted : ((events.filter fun event =>
      ((rebuildFallbacks events).get event.sessionId).isNone).filter
        fun event => decide (event.sessionId = s)) = eventsOfSession s events := by
    rw [filter_filter]
    refine filter_congr fun event _ => ?_
    by_cases hs : event.sessionId = s
    · simp [hs, hfallback]
    · simp [hs]
  rw [countEvents, OrdMap.get_foldl_alter (fun event : StampedEvent => event.sessionId)
    countEvent, hcounted]

/-- **The index after the events are counted** belongs to the extended logs. -/
theorem RecordInvariant.indexAfter (hP : RecordInvariant C P) (h : Consistent P store logs)
    (hC : ∀ s ∈ events.map (·.sessionId), (rebuildFallbacks events).get s = none →
      AllAfter C (store.index.sessions.get s) (logs s) (eventsOfSession s events)) :
    ∃ index, store.indexAfter events = .ok index ∧ index.version = indexVersion ∧
      ∀ s, Indexed P s (index.sessions.get s) (logs s ++ eventsOfSession s events) := by
  have hlogs := h.onDisk.append events
  obtain ⟨index, hindex, hversion, hget⟩ := indexAfter_eq h.onDisk events
  refine ⟨index, hindex, hversion.trans h.version, fun s => ?_⟩
  rw [hget]
  cases hfallback : (rebuildFallbacks events).get s with
  | some fallback =>
    -- The record is rebuilt from the file, which has at least the event that asked for it.
    obtain ⟨event, hevent, -⟩ := (isSome_rebuildFallbacks events s).mp (by rw [hfallback]; rfl)
    have hne : logs s ++ eventsOfSession s events ≠ [] :=
      append_ne_nil_of_right_ne_nil _ (ne_nil_of_mem hevent)
    have hindexed := hP.indexedRecordFromEvents (hlogs.own s)
    obtain ⟨record, hrecord⟩ := Option.isSome_iff_exists.mp (indexedRecordFromEvents_isSome hne)
    rw [hrecord] at hindexed
    dsimp only
    rw [rebuiltRecord, hrecord]
    exact hindexed
  | none =>
    have hkinds : ∀ event ∈ eventsOfSession s events, rebuildIndexRecord event.event = false := by
      intro event hevent
      by_contra hkind
      have := (isSome_rebuildFallbacks events s).mpr ⟨event, hevent, by simpa using hkind⟩
      rw [hfallback] at this
      cases this
    rw [get_countEvents hfallback]
    have howner : ∀ event ∈ eventsOfSession s events, event.sessionId = s := fun event hevent =>
      of_decide_eq_true (mem_filter.mp hevent).2
    refine hP.foldl_countEvent howner hkinds (h.indexed s) ?_
    by_cases hmem : s ∈ events.map (·.sessionId)
    · exact hC s hmem hfallback
    · have hnil : eventsOfSession s events = [] :=
        filter_eq_nil_iff.mpr fun event hevent hs =>
          hmem (List.mem_map.mpr ⟨event, hevent, of_decide_eq_true hs⟩)
      rw [hnil]
      trivial

/-- Pruned sessions have no log. -/
def prunedLogs (pruned : List SessionId) (logs : SessionId → List StampedEvent) :
    SessionId → List StampedEvent :=
  fun s => if s ∈ pruned then [] else logs s

variable {index : FileSessionStoreIndex} {disk : Disk}

theorem indexed_without (h : ∀ s, Indexed P s (index.sessions.get s) (logs s))
    (pruned : List SessionId) (s : SessionId) :
    Indexed P s ((index.without pruned).sessions.get s) (prunedLogs pruned logs s) := by
  rw [FileSessionStoreIndex.without, OrdMap.get_foldl_erase, prunedLogs]
  split
  · rfl
  · exact h s

theorem prunedLogs_nil (logs : SessionId → List StampedEvent) : prunedLogs [] logs = logs :=
  funext fun _ => if_neg not_mem_nil

theorem consistent_applyRetention (hlogs : Logs disk logs)
    (hindexed : ∀ s, Indexed P s (index.sessions.get s) (logs s))
    (hversion : index.version = indexVersion) (retention : SessionStoreRetentionPolicy)
    (nowMs : Timestamp) :
    Consistent P (applyRetention disk index retention nowMs)
      (prunedLogs (selectSessionsToPrune index retention nowMs) logs) := by
  refine ⟨?_, indexed_without hindexed _, hversion, ?_⟩
  · rw [applyRetention]
    rw [Disk.run_append]
    exact (hlogs.removeFiles _).persistIndexFile _
  · rw [applyRetention]
    rw [Disk.run_append, sidecar_persistIndexFile]

@[simp] theorem appendLockedEvents_nil (store : FileSessionStore) (nowMs : Timestamp) :
    store.appendLockedEvents nowMs [] = (.ok (), store) := rfl

/-- An append writes the events and then prunes sessions, as opening does. -/
theorem appendLockedEvents_eq (hindex : store.indexAfter events = .ok index)
    (hevents : events ≠ []) (nowMs : Timestamp) : (store.appendLockedEvents nowMs events).2 =
      applyRetention (store.disk.run (writeOps none events)) index store.retention nowMs := by
  rw [FileSessionStore.appendLockedEvents, FileSessionStore.appendFileOps,
    if_neg (by simpa using hevents), if_neg (by simpa using hevents), hindex]
  exact congrArg (FileSessionStore.mk · _ _) (Disk.run_append ..)

/-- **An append keeps the store consistent**, but for the sessions that are pruned. -/
theorem RecordInvariant.append (hP : RecordInvariant C P) (h : Consistent P store logs)
    (nowMs : Timestamp)
    (hC : ∀ s ∈ events.map (·.sessionId), (rebuildFallbacks events).get s = none →
      AllAfter C (store.index.sessions.get s) (logs s) (eventsOfSession s events)) :
    ∃ pruned, (store.retention = {} → pruned = []) ∧
      Consistent P (store.appendLockedEvents nowMs events).2
        (prunedLogs pruned fun s => logs s ++ eventsOfSession s events) := by
  by_cases hevents : events = []
  · subst hevents
    refine ⟨[], fun _ => rfl, ?_⟩
    simpa [prunedLogs_nil, eventsOfSession] using h
  · obtain ⟨index, hindex, hversion, hindexed⟩ := hP.indexAfter h hC
    rw [appendLockedEvents_eq hindex hevents]
    refine ⟨_, fun hretention => ?_,
      consistent_applyRetention (h.onDisk.append events) hindexed hversion _ _⟩
    rw [hretention, selectSessionsToPrune_default]

/-! ### Opening -/

/-- **Reopening keeps the store consistent**: the sidecar has the sessions on disk. -/
theorem Consistent.reopen (h : Consistent P store logs) (nowMs : Timestamp) :
    openWithOptions store.disk store.retention nowMs =
        .ok (applyRetention store.disk store.index store.retention nowMs) ∧
      Consistent P (applyRetention store.disk store.index store.retention nowMs)
        (prunedLogs (selectSessionsToPrune store.index store.retention nowMs) logs) := by
  have hload : loadOrRebuildIndex store.disk = .ok store.index := by
    rw [loadOrRebuildIndex, h.sidecar]
    exact if_pos ⟨h.version, h.keys_eq⟩
  exact ⟨by rw [openWithOptions, hload]; rfl,
    consistent_applyRetention h.onDisk h.indexed h.version store.retention nowMs⟩

/-- Opening a directory of logs that has no sidecar. -/
theorem RecordInvariant.openWithOptions (hP : RecordInvariant C P) (h : Logs disk logs)
    (hsidecar : disk.sidecar = none) (retention : SessionStoreRetentionPolicy) (nowMs : Timestamp) :
    ∃ store pruned, openWithOptions disk retention nowMs = .ok store ∧
      store.retention = retention ∧ (retention = {} → pruned = []) ∧
      Consistent P store (prunedLogs pruned logs) := by
  obtain ⟨index, hindex, hversion, hget⟩ := rebuildIndex_eq h.readable
  have hload : loadOrRebuildIndex disk = .ok index := by rw [loadOrRebuildIndex, hsidecar, hindex]
  have hindexed : ∀ s, Indexed P s (index.sessions.get s) (logs s) := fun s => by
    rw [hget, h.eventsOf]
    exact hP.indexedRecordFromEvents (h.own s)
  refine ⟨applyRetention disk index retention nowMs, selectSessionsToPrune index retention nowMs,
    by rw [Nanoclaw.openWithOptions, hload]; rfl, rfl, fun hretention => ?_,
    consistent_applyRetention h hindexed hversion retention nowMs⟩
  rw [hretention, selectSessionsToPrune_default]

/-! ### Runs -/

variable (hP : RecordInvariant C P) (h : ∃ logs, Consistent P store logs)

include hP h

theorem RecordInvariant.step (step : StoreStep) (hC : store.LogsAll C step) :
    ∃ logs, Consistent P (store.step step) logs := by
  obtain ⟨logs, h⟩ := h
  cases step with
  | appendBatch nowMs events =>
    obtain ⟨pruned, -, happended⟩ := hP.append h nowMs fun s hs hfallback => by
      rw [← h.onDisk.eventsOf]
      exact hC s hs hfallback
    exact ⟨_, happended⟩
  | reopen nowMs =>
    obtain ⟨hopen, hreopened⟩ := h.reopen nowMs
    rw [FileSessionStore.step, hopen]
    exact ⟨_, hreopened⟩

/-- **What the store keeps holds of all records after every run** whose events meet the
condition. -/
theorem RecordInvariant.run {steps : List StoreStep}
    (hC : System.Meets FileSessionStore.step (FileSessionStore.LogsAll C) store steps) :
    ∃ logs, Consistent P (System.run FileSessionStore.step store steps) logs :=
  hC.run (I := fun store => ∃ logs, Consistent P store logs) (fun _ step h => hP.step h step) h

end

end Nanoclaw
