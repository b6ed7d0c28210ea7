import Nanoclaw.Store.IndexInvariant

/-!
# Crashes of the File Store

An append that is interrupted leaves the directory as the file operations before the interruption
left it (`crashed`). The directory *recovers* if the index that opening it yields has, for every
session, the record rebuilt from the events in its file.

Opening trusts the sidecar if it names the sessions that have a file, so it notices an interrupted
append only if a file was created or removed. Moreover the records of the sidecar need not be the
rebuilt ones in the first place. Whether they are is read off the logs: a run is traced with the
events from which every record was rebuilt and those counted since (`RecordHistory`).
-/

namespace Nanoclaw

open List Option SessionFile FileSessionStore

/-- **Every record is the one rebuilt from the log.** -/
def Exact (disk : Disk) (index : FileSessionStoreIndex) : Prop :=
  ∀ s, index.sessions.get s = indexedRecordFromEvents (disk.eventsOf s)

/-- **Opening yields the rebuilt records**, whatever the retention policy. -/
def Recovers (disk : Disk) : Prop :=
  ∀ retention nowMs, ∃ store, openWithOptions disk retention nowMs = .ok store ∧
    Exact store.disk store.index

/-- The directory after the first `k` file operations of an append. -/
def FileSessionStore.crashed (store : FileSessionStore) (nowMs : Timestamp)
    (events : List StampedEvent) (k : ℕ) : Disk :=
  store.disk.run ((store.appendFileOps nowMs events).take k)

/-! ### Recovery -/

variable {disk : Disk} {logs : SessionId → List StampedEvent} {store : FileSessionStore}

/-- What opening leaves of a session: its file and its record, or neither. -/
theorem get_applyRetention (disk : Disk) (index : FileSessionStoreIndex)
    (retention : SessionStoreRetentionPolicy) (nowMs : Timestamp) (s : SessionId) :
    let opened := applyRetention disk index retention nowMs
    opened.disk.files.get s = none ∧ opened.index.sessions.get s = none ∨
      opened.disk.files.get s = disk.files.get s ∧
        opened.index.sessions.get s = index.sessions.get s := by
  intro opened
  have hfile : opened.disk.files.get s =
      if s ∈ selectSessionsToPrune index retention nowMs then none else disk.files.get s :=
    (congrArg (fun disk : Disk => disk.files.get s) (Disk.run_append ..)).trans
      (get_run_removeFiles ..)
  have hrecord : opened.index.sessions.get s =
      if s ∈ selectSessionsToPrune index retention nowMs then none else index.sessions.get s := by
    convert OrdMap.get_foldl_erase (selectSessionsToPrune index retention nowMs) index.sessions s
    rfl
  rw [hfile, hrecord]
  split
  · exact .inl ⟨rfl, rfl⟩
  · exact .inr ⟨rfl, rfl⟩

theorem Exact.applyRetention {index : FileSessionStoreIndex} (h : Exact disk index)
    (retention : SessionStoreRetentionPolicy) (nowMs : Timestamp) :
    Exact (applyRetention disk index retention nowMs).disk
      (applyRetention disk index retention nowMs).index := by
  intro s
  rcases get_applyRetention disk index retention nowMs s with ⟨hfile, hrecord⟩ | ⟨hfile, hrecord⟩
  · rw [hrecord, Disk.eventsOf, hfile]
    rfl
  · rw [hrecord, Disk.eventsOf, hfile]
    exact h s

/-- **A directory recovers** unless a sidecar with the right sessions and other records is
trusted. -/
theorem recovers_iff (h : disk.Readable) :
    Recovers disk ↔ ∀ index, disk.sidecar = some index → index.version = indexVersion →
      index.sessions.keys = disk.files.keys → Exact disk index := by
  constructor
  · intro hrecovers index hsidecar hversion hkeys s
    obtain ⟨store, hopen, hexact⟩ := hrecovers {} 0
    rw [openWithOptions, loadOrRebuildIndex, hsidecar] at hopen
    dsimp only at hopen
    rw [if_pos ⟨hversion, hkeys⟩] at hopen
    cases hopen
    have hs := hexact s
    simpa [applyRetention, FileSessionStoreIndex.without, persistIndexFile, Disk.apply,
      Disk.eventsOf] using hs
  · intro hexact retention nowMs
    obtain ⟨index, hload, hindex⟩ : ∃ index, loadOrRebuildIndex disk = .ok index ∧
        Exact disk index := by
      obtain ⟨rebuilt, hrebuilt, -, hget⟩ := rebuildIndex_eq h
      unfold loadOrRebuildIndex
      cases hsidecar : disk.sidecar with
      | none => exact ⟨rebuilt, hrebuilt, hget⟩
      | some index =>
        dsimp only
        split
        next htrust => exact ⟨index, rfl, hexact index hsidecar htrust.1 htrust.2⟩
        · exact ⟨rebuilt, hrebuilt, hget⟩
    exact ⟨_, by rw [openWithOptions, hload]; rfl, hindex.applyRetention retention nowMs⟩

/-! ### Counted events -/

/-- A record has counted every event of the log. -/
def CountsEvents (_ : SessionId) (record : IndexedSessionRecord) (events : List StampedEvent) :
    Prop :=
  record.summary.eventCount = events.length

theorem recordInvariant_countsEvents : RecordInvariant (fun _ _ _ => True) CountsEvents where
  rebuilt hown hrecord := congrArg SessionSummary.eventCount
    (indexedRecordFromEvents_tracks hown hrecord).summary
  first _ _ := rfl
  next h _ _ := by
    rw [CountsEvents, length_append, ← h]
    rfl

/-! ### Histories of records -/

/-- The events a record was rebuilt from, and those counted since. -/
structure RecordHistory where
  rebuilt : List StampedEvent := []
  counted : List StampedEvent := []

namespace RecordHistory

def events (history : RecordHistory) : List StampedEvent :=
  history.rebuilt ++ history.counted

/-- The record after its history. -/
def record (history : RecordHistory) : Option IndexedSessionRecord :=
  history.counted.foldl (fun record event => countEvent event record)
    (indexedRecordFromEvents history.rebuilt)

/-- The lines of the counted events, cut to the last characters. -/
def corpus (history : RecordHistory) : String :=
  ((envelopes history.counted).flatMap addedSearchText).foldl appendSearchText
    (buildSearchCorpus (envelopes history.rebuilt))

/-- **Counting has kept up with the log**: every counted message is one more visible message,
and the corpus is the one of the whole log. -/
def Settled (history : RecordHistory) : Prop :=
  (Store.visibleTranscript (envelopes history.rebuilt)).length + messageCount history.counted =
      (Store.visibleTranscript (envelopes history.events)).length ∧
    history.corpus = buildSearchCorpus (envelopes history.events)

instance (history : RecordHistory) : Decidable history.Settled :=
  inferInstanceAs (Decidable (_ ∧ _))

/-- Further events are counted. -/
def count (history : RecordHistory) (later : List StampedEvent) : RecordHistory :=
  { history with counted := history.counted ++ later }

variable {history : RecordHistory} {s : SessionId}

theorem events_count (history : RecordHistory) (later : List StampedEvent) :
    (history.count later).events = history.events ++ later :=
  (append_assoc ..).symm

theorem record_count (history : RecordHistory) (later : List StampedEvent) :
    (history.count later).record =
      later.foldl (fun record event => countEvent event record) history.record :=
  foldl_append

theorem eq_empty (h : history.events = []) : history = {} := by
  obtain ⟨hrebuilt, hcounted⟩ := append_eq_nil_iff.mp h
  cases history
  simp_all

/-- **What a record holds after its history**, if a missing one counts as empty. -/
theorem counted_record (hown : ∀ event ∈ history.events, event.sessionId = s) :
    Counted s (history.record.getD (emptyRecord s)) history.events
        ((Store.visibleTranscript (envelopes history.rebuilt)).length +
          messageCount history.counted) ∧
      (history.record.getD (emptyRecord s)).searchCorpus = history.corpus := by
  obtain ⟨rebuilt, counted⟩ := history
  induction counted using reverseRecOn with
  | nil =>
    rw [events, append_nil] at hown ⊢
    rw [messageCount, countP_nil, Nat.add_zero]
    cases hrecord : indexedRecordFromEvents rebuilt with
    | none =>
      obtain rfl : rebuilt = [] := by
        by_contra hne
        simpa [hrecord] using indexedRecordFromEvents_isSome hne
      have hempty : Tracks s (emptyRecord s) [] := ⟨rfl, rfl, rfl⟩
      exact ⟨hempty, rfl⟩
    | some record =>
      have hcorpus : corpus ⟨rebuilt, []⟩ = buildSearchCorpus (envelopes rebuilt) := by
        simp [corpus, envelopes]
      rw [show RecordHistory.record ⟨rebuilt, []⟩ = some record from hrecord, hcorpus]
      exact ⟨indexedRecordFromEvents_tracks hown hrecord,
        searchCorpus_indexedRecordFromEvents hrecord⟩
  | append_singleton counted event ih =>
    have hevents := events_count ⟨rebuilt, counted⟩ [event]
    have hrecord := record_count ⟨rebuilt, counted⟩ [event]
    rw [count] at hevents hrecord
    rw [hevents] at hown ⊢
    obtain ⟨hbefore, howner⟩ := forall_mem_append.mp hown
    obtain rfl := howner event mem_cons_self
    obtain ⟨hcounted, hcorpus⟩ := ih hbefore
    rw [hrecord, foldl_cons, foldl_nil, countEvent_eq, Option.getD_some, messageCount,
      countP_append, ← Nat.add_assoc]
    refine ⟨hcounted.apply event, ?_⟩
    rw [searchCorpus_applyEventToRecord, hcorpus, corpus, corpus]
    simp

theorem isSome_record : history.record.isSome = decide (history.events ≠ []) := by
  obtain ⟨rebuilt, counted⟩ := history
  induction counted using reverseRecOn with
  | nil => cases rebuilt <;> simp [record, events, indexedRecordFromEvents, summarizeSessionEvents]
  | append_singleton counted event _ => simp [record, events, countEvent]

/-- **A counted record is the rebuilt one** exactly if counting has kept up with the log. -/
theorem record_eq_iff (hown : ∀ event ∈ history.events, event.sessionId = s) :
    history.record = indexedRecordFromEvents history.events ↔ history.Settled := by
  by_cases hnil : history.events = []
  · rw [eq_empty hnil]
    decide
  obtain ⟨record, hrecord⟩ : ∃ record, history.record = some record :=
    isSome_iff_exists.mp (by simp [isSome_record, hnil])
  obtain ⟨rebuilt, hrebuilt⟩ := isSome_iff_exists.mp (indexedRecordFromEvents_isSome hnil)
  obtain ⟨hcounted, hcorpus⟩ := counted_record hown
  have htracks := indexedRecordFromEvents_tracks hown hrebuilt
  rw [hrecord, Option.getD_some] at hcounted hcorpus
  rw [hrecord, hrebuilt, Option.some_inj, IndexedSessionRecord.ext_iff, hcounted.summary,
    htracks.summary, hcounted.ids, htracks.ids, hcounted.tokenUsage, htracks.tokenUsage, hcorpus,
    searchCorpus_indexedRecordFromEvents hrebuilt, Settled]
  simp

end RecordHistory

/-- A store that remembers the history of every record. -/
structure TracedStore where
  store : FileSessionStore
  history : SessionId → RecordHistory

/-- **The histories explain the files and the records.** -/
def Explains (history : SessionId → RecordHistory) (disk : Disk) (index : FileSessionStoreIndex) :
    Prop :=
  ∀ s, disk.eventsOf s = (history s).events ∧ index.sessions.get s = (history s).record

namespace TracedStore

/-- A store that was opened without a sidecar. -/
def opened (store : FileSessionStore) : TracedStore where
  store
  history s := { rebuilt := store.disk.eventsOf s }

/-- Count a batch or rebuild the record. The history ends with the file. -/
def step (traced : TracedStore) (step : StoreStep) : TracedStore where
  store := traced.store.step step
  history s :=
    if ((traced.store.step step).disk.files.get s).isNone then {}
    else match step with
      | .reopen _ => traced.history s
      | .appendBatch _ events =>
        let extended := (traced.history s).count (eventsOfSession s events)
        if ((rebuildFallbacks events).get s).isSome then { rebuilt := extended.events }
        else extended

/-- The histories change nothing in the store. -/
theorem store_run (traced : TracedStore) (steps : List StoreStep) :
    (System.run step traced steps).store = System.run FileSessionStore.step traced.store steps := by
  induction steps generalizing traced with
  | nil => rfl
  | cons step steps ih => exact ih _

end TracedStore

/-- A run that started with a directory of logs without a sidecar. -/
def Reachable (traced : TracedStore) : Prop :=
  ∃ disk logs retention nowMs opened steps, Logs disk logs ∧ disk.sidecar = none ∧
    openWithOptions disk retention nowMs = .ok opened ∧
    traced = System.run TracedStore.step (.opened opened) steps

/-- The histories of the sessions that are left. -/
theorem Explains.applyRetention {history : SessionId → RecordHistory}
    {index : FileSessionStoreIndex} (h : Explains history disk index)
    (retention : SessionStoreRetentionPolicy) (nowMs : Timestamp) :
    Explains (fun s =>
        if ((applyRetention disk index retention nowMs).disk.files.get s).isNone then {}
        else history s)
      (applyRetention disk index retention nowMs).disk
      (applyRetention disk index retention nowMs).index := by
  intro s
  obtain ⟨hevents, hget⟩ := h s
  dsimp only
  rcases get_applyRetention disk index retention nowMs s with ⟨hfile, hrecord⟩ | ⟨hfile, hrecord⟩
  · rw [hrecord, Disk.eventsOf, hfile]
    exact ⟨rfl, rfl⟩
  · rw [hrecord, Disk.eventsOf, hfile]
    cases hnone : disk.files.get s with
    | some file =>
      rw [Disk.eventsOf, hnone] at hevents
      exact ⟨hevents, hget⟩
    | none =>
      rw [Disk.eventsOf, hnone] at hevents
      rw [hget, RecordHistory.eq_empty hevents.symm]
      exact ⟨rfl, rfl⟩

/-- A batch is counted in the histories. -/
theorem Explains.append {history : SessionId → RecordHistory} (hlogs : Logs store.disk logs)
    (h : Explains history store.disk store.index) (events : List StampedEvent) :
    ∃ index, store.indexAfter events = .ok index ∧
      Explains (fun s =>
          if ((rebuildFallbacks events).get s).isSome then
            { rebuilt := ((history s).count (eventsOfSession s events)).events }
          else (history s).count (eventsOfSession s events))
        (store.disk.run (writeOps none events)) index := by
  obtain ⟨index, hindex, -, hget⟩ := indexAfter_eq hlogs events
  refine ⟨index, hindex, fun s => ?_⟩
  obtain ⟨hevents, hrecord⟩ := h s
  rw [hlogs.eventsOf] at hevents
  dsimp only
  rw [(hlogs.append events).eventsOf, hget, hevents, ← RecordHistory.events_count]
  cases hfallback : (rebuildFallbacks events).get s with
  | none =>
    refine ⟨rfl, ?_⟩
    rw [get_countEvents hfallback, hrecord]
    exact (RecordHistory.record_count ..).symm
  | some fallback =>
    refine ⟨(append_nil _).symm, ?_⟩
    obtain ⟨event, hevent, -⟩ := (isSome_rebuildFallbacks events s).mp (by rw [hfallback]; rfl)
    have hne : ((history s).count (eventsOfSession s events)).events ≠ [] := by
      rw [RecordHistory.events_count]
      exact append_ne_nil_of_right_ne_nil _ (ne_nil_of_mem hevent)
    obtain ⟨record, hrecord⟩ := isSome_iff_exists.mp (indexedRecordFromEvents_isSome hne)
    dsimp only
    rw [rebuiltRecord, hrecord]
    exact hrecord.symm

/-- The store has counted its events, and the histories explain it. -/
def Explained (traced : TracedStore) : Prop :=
  (∃ logs, Consistent CountsEvents traced.store logs) ∧
    Explains traced.history traced.store.disk traced.store.index

theorem Explained.step {traced : TracedStore} (h : Explained traced) (step : StoreStep) :
    Explained (traced.step step) := by
  obtain ⟨⟨logs, hstore⟩, hexplains⟩ := h
  refine ⟨recordInvariant_countsEvents.step ⟨logs, hstore⟩ step
    (traced.store.logsAll_true step), ?_⟩
  rw [TracedStore.step]
  cases step with
  | reopen nowMs =>
    have hstep : traced.store.step (.reopen nowMs) =
        applyRetention traced.store.disk traced.store.index traced.store.retention nowMs := by
      rw [FileSessionStore.step, (hstore.reopen nowMs).1]
      rfl
    rw [hstep]
    exact hexplains.applyRetention _ nowMs
  | appendBatch nowMs events =>
    rw [FileSessionStore.step, FileSessionStore.appendBatch]
    by_cases hevents : events = []
    · subst hevents
      intro s
      obtain ⟨hlog, hget⟩ := hexplains s
      rw [appendLockedEvents_nil]
      dsimp only
      split
      next hnone =>
        rw [hget, hlog]
        rw [Disk.eventsOf, isNone_iff_eq_none.mp hnone] at hlog
        rw [RecordHistory.eq_empty hlog.symm]
        exact ⟨rfl, rfl⟩
      · rw [hget, hlog]
        simp [rebuildFallbacks, RecordHistory.count, eventsOfSession]
    · obtain ⟨index, hindex, happended⟩ := hexplains.append hstore.onDisk events
      rw [appendLockedEvents_eq hindex hevents]
      exact happended.applyRetention _ nowMs

variable {traced : TracedStore}

theorem Reachable.explained (h : Reachable traced) : Explained traced := by
  obtain ⟨disk, logs, retention, nowMs, opened, steps, hlogs, hsidecar, hopen, rfl⟩ := h
  refine System.run_invariant (fun _ step h => h.step step) ⟨?_, fun s => ⟨?_, ?_⟩⟩ steps
  · obtain ⟨opened', _, hopen', -, -, hopened⟩ :=
      recordInvariant_countsEvents.openWithOptions hlogs hsidecar retention nowMs
    obtain rfl : opened' = opened := Except.ok.inj (hopen'.symm.trans hopen)
    exact ⟨_, hopened⟩
  · exact (append_nil _).symm
  · have hrecovers : Recovers disk := (recovers_iff hlogs.readable).mpr (by simp [hsidecar])
    obtain ⟨opened', hopen', hexact⟩ := hrecovers retention nowMs
    obtain rfl : opened' = opened := Except.ok.inj (hopen'.symm.trans hopen)
    exact hexact s

/-- **The records are the rebuilt ones** exactly if counting has kept up with every log. -/
theorem Explained.exact_iff (h : Explained traced) :
    Exact traced.store.disk traced.store.index ↔ ∀ s, (traced.history s).Settled := by
  obtain ⟨⟨logs, hstore⟩, hexplains⟩ := h
  refine forall_congr' fun s => ?_
  obtain ⟨hevents, hrecord⟩ := hexplains s
  rw [hrecord, hevents]
  refine RecordHistory.record_eq_iff (s := s) fun event hevent => hstore.onDisk.own s event ?_
  rwa [← hstore.onDisk.eventsOf, hevents]

/-! ### Interrupted writes -/

/-- The files hold the logs; a session without events may have an empty one. -/
def Holds (disk : Disk) (logs : SessionId → List StampedEvent) : Prop :=
  ∀ s, match disk.files.get s with
    | none => logs s = []
    | some file => file.load = .ok (logs s) ∧ file.lines.flatten = logs s

/-- A directory with a complete line for every event. -/
def Complete (disk : Disk) (logs : SessionId → List StampedEvent) : Prop :=
  ∀ s, disk.files.get s = none ∧ logs s = [] ∨ disk.files.get s = some (.ofEvents (logs s))

namespace Holds

theorem readable (h : Holds disk logs) : disk.Readable := by
  intro s file hfile
  have hs := h s
  rw [hfile] at hs
  rw [hs.1, hs.2]

theorem eventsOf (h : Holds disk logs) (s : SessionId) : disk.eventsOf s = logs s := by
  have hs := h s
  unfold Disk.eventsOf
  cases hfile : disk.files.get s <;> rw [hfile] at hs
  · exact hs.symm
  · exact hs.2

end Holds

variable (events : List StampedEvent) {ops : List FileOp} {s : SessionId}

/-- A file whose last line has no line break yet. -/
theorem load_writeEvent_ofEvents (event : StampedEvent) :
    ((ofEvents events).writeEvent event).load = .ok (events ++ [event]) ∧
      ((ofEvents events).writeEvent event).lines.flatten = events ++ [event] := by
  have hflat : ((ofEvents events).writeEvent event).lines.flatten = events ++ [event] := by
    have := flatten_ofEvents events
    simpa [lines, writeEvent, ofEvents] using this
  refine ⟨?_, hflat⟩
  rw [load, hflat]
  simp [lines, writeEvent, ofEvents]

namespace Complete

section

variable (h : Complete disk logs)

include h

theorem holds : Holds disk logs := by
  intro s
  rcases h s with ⟨hfile, hlogs⟩ | hfile <;> rw [hfile]
  · exact hlogs
  · exact ⟨load_ofEvents _, flatten_ofEvents _⟩

theorem openFile (id : SessionId) : Complete (disk.apply (.openFile id)) logs := by
  intro s
  simp only [Disk.apply, OrdMap.get_alter]
  by_cases hs : s = id
  · subst hs
    rw [if_pos rfl]
    rcases h s with ⟨hfile, hlogs⟩ | hfile
    · rw [hfile, hlogs]
      exact .inr rfl
    · rw [hfile]
      exact .inr rfl
  · rw [if_neg hs]
    exact h s

/-- A file that is there holds the log. -/
theorem file (hfile : (disk.files.get s).isSome = true) :
    disk.files.get s = some (.ofEvents (logs s)) :=
  (h s).resolve_left fun hnone => by simp [hnone.1] at hfile

end

variable (event : StampedEvent) (h : Complete disk logs)
  (hfile : (disk.files.get event.sessionId).isSome = true)

include h hfile

/-- An event written without its line break can be read. -/
theorem writeEvent :
    Holds (disk.apply (.writeEvent event)) fun s => logs s ++ eventsOfSession s [event] := by
  intro s
  simp only [Disk.apply, OrdMap.get_alter, eventsOfSession]
  by_cases hs : s = event.sessionId
  · subst hs
    rw [if_pos rfl, filter_cons_of_pos (by simp), h.file hfile]
    exact load_writeEvent_ofEvents _ _
  · rw [if_neg hs, filter_cons_of_neg (by simpa using Ne.symm hs), filter_nil, append_nil]
    exact h.holds s

theorem writeLine :
    Complete ((disk.apply (.writeEvent event)).apply (.writeNewline event.sessionId))
      fun s => logs s ++ eventsOfSession s [event] := by
  intro s
  simp only [Disk.apply, OrdMap.get_alter, eventsOfSession]
  by_cases hs : s = event.sessionId
  · subst hs
    rw [filter_cons_of_pos (by simp), filter_nil, h.file hfile, ← writeNewline_writeEvent_ofEvents]
    simp
  · rw [if_neg hs, if_neg hs, filter_cons_of_neg (by simpa using Ne.symm hs),
      filter_nil, append_nil]
    exact h s

end Complete

theorem Logs.complete (h : Logs disk logs) : Complete disk logs := by
  intro s
  rw [h.file]
  by_cases hs : logs s = []
  · exact .inl ⟨if_pos hs, hs⟩
  · exact .inr (if_neg hs)

/-- **The writes of a batch, cut anywhere**: some of its events are in the files. -/
theorem writes_prefix (active : Option SessionId)
    (h : Complete disk logs) (hactive : ∀ s ∈ active, (disk.files.get s).isSome = true) (k : ℕ) :
    ∃ written, (∀ event, .writeEvent event ∈ (writeOps active events).take k ↔ event ∈ written) ∧
      Holds (disk.run ((writeOps active events).take k)) fun s =>
        logs s ++ eventsOfSession s written := by
  induction events generalizing active disk logs k with
  | nil => exact ⟨[], by simp [writeOps], by simpa [writeOps, eventsOfSession] using h.holds⟩
  | cons event events ih =>
    -- From a directory in which the file of the event is there.
    have hline : ∀ {disk : Disk}, Complete disk logs →
        (disk.files.get event.sessionId).isSome = true → ∀ k,
        ∃ written, (∀ e, .writeEvent e ∈ ([FileOp.writeEvent event,
            .writeNewline event.sessionId] ++
              writeOps (some event.sessionId) events).take k ↔ e ∈ written) ∧
          Holds (disk.run (([FileOp.writeEvent event, .writeNewline event.sessionId] ++
            writeOps (some event.sessionId) events).take k)) fun s =>
              logs s ++ eventsOfSession s written := by
      intro disk h hfile k
      rcases k with _ | _ | k
      · exact ⟨[], by simp, by simpa [eventsOfSession] using h.holds⟩
      · exact ⟨[event], by simp, h.writeEvent event hfile⟩
      · have hsome : ∀ s ∈ some event.sessionId, (((disk.apply (.writeEvent event)).apply
            (.writeNewline event.sessionId)).files.get s).isSome = true := by
          rintro s ⟨⟩
          simpa [Disk.apply] using hfile
        obtain ⟨written, hwritten, hholds⟩ :=
          ih (some event.sessionId) (h.writeLine event hfile) hsome k
        refine ⟨event :: written, fun e => ?_, ?_⟩
        · simp [hwritten]
        · have hsplit : ∀ s, eventsOfSession s (event :: written) =
              eventsOfSession s [event] ++ eventsOfSession s written := fun s =>
            filter_append [event] written
          simpa [hsplit] using hholds
    rw [writeOps]
    split
    next hopen => exact hline h (hactive _ hopen) k
    · cases k with
      | zero => exact ⟨[], by simp, by simpa [eventsOfSession] using h.holds⟩
      | succ k =>
        obtain ⟨written, hwritten, hholds⟩ :=
          hline (h.openFile event.sessionId) (by simp [Disk.apply]) k
        exact ⟨written, fun e => by simpa using hwritten e, hholds⟩

/-! ### Interrupted appends -/

/-- Only the rename changes the sidecar. -/
theorem sidecar_run (h : .renameTemp ∉ ops) (disk : Disk) :
    (disk.run ops).sidecar = disk.sidecar := by
  induction ops generalizing disk with
  | nil => rfl
  | cons op ops ih =>
    rw [Disk.run_cons, ih (fun hmem => h (mem_cons_of_mem _ hmem))]
    cases op with
    | renameTemp => exact absurd mem_cons_self h
    | _ => rfl

theorem renameTemp_notMem_writeOps (active : Option SessionId) :
    .renameTemp ∉ writeOps active events := by
  induction events generalizing active with
  | nil => exact not_mem_nil
  | cons event events ih =>
    rw [writeOps]
    split <;> simp [ih]

/-- Removals leave a file as it is or take it away. -/
theorem get_run_of_removals
    (h : ∀ op ∈ ops, (∃ s, op = .removeFile s) ∨ ∃ index, op = .writeTemp index) (disk : Disk)
    (s : SessionId) :
    (disk.run ops).files.get s = none ∨ (disk.run ops).files.get s = disk.files.get s := by
  induction ops generalizing disk with
  | nil => exact .inr rfl
  | cons op ops ih =>
    obtain ⟨hop, hops⟩ := forall_mem_cons.mp h
    rcases ih hops (disk.apply op) with hnone | hsame
    · exact .inl hnone
    · rw [Disk.run_cons, hsame]
      rcases hop with ⟨id, rfl⟩ | ⟨index, rfl⟩
      · simp only [Disk.apply, OrdMap.get_erase]
        split
        · exact .inl rfl
        · exact .inr rfl
      · exact .inr rfl

section

/-- **After an interruption before the rename** some events are written and some files gone. -/
theorem crash_prefix (h : Logs store.disk logs) (nowMs : Timestamp) (events : List StampedEvent)
    (k : ℕ) (hrename : .renameTemp ∉ (store.appendFileOps nowMs events).take k) :
    ∃ written,
      (∀ event, .writeEvent event ∈ (store.appendFileOps nowMs events).take k ↔ event ∈ written) ∧
      (store.crashed nowMs events k).Readable ∧
      ∀ s, ((store.crashed nowMs events k).files.get s).isSome = true →
        (store.crashed nowMs events k).eventsOf s = logs s ++ eventsOfSession s written := by
  unfold crashed
  unfold appendFileOps at hrename ⊢
  split
  · -- Nothing to append.
    refine ⟨[], by simp, by simpa using h.readable, fun s _ => ?_⟩
    simp [h.eventsOf, eventsOfSession]
  next hevents =>
    rw [if_neg hevents] at hrename
    obtain ⟨index, hindex, -, -⟩ := indexAfter_eq h events
    rw [hindex] at hrename ⊢
    by_cases hk : k ≤ (writeOps none events).length
    · -- The writes were interrupted.
      rw [take_append_of_le_length hk]
      obtain ⟨written, hwritten, hholds⟩ := writes_prefix events none h.complete (by simp) k
      exact ⟨written, hwritten, hholds.readable, fun s _ => hholds.eventsOf s⟩
    · -- All events are written, and some of the files are removed.
      rw [take_append, take_of_length_le (by omega)] at hrename ⊢
      generalize k - (writeOps none events).length = j at hrename ⊢
      obtain ⟨written, hwritten, hholds⟩ := writes_prefix events none h.complete (by simp)
        (writeOps none events).length
      rw [take_length] at hwritten hholds
      have hlater : ∀ op ∈ ((selectSessionsToPrune index store.retention nowMs).map
          FileOp.removeFile ++ persistIndexFile (index.without
            (selectSessionsToPrune index store.retention nowMs))).take j,
          (∃ s, op = .removeFile s) ∨ ∃ index, op = .writeTemp index := by
        intro op hop
        have hmem := mem_of_mem_take hop
        simp only [persistIndexFile, mem_append, List.mem_map, mem_cons,
          not_mem_nil, or_false] at hmem
        rcases hmem with ⟨s, -, rfl⟩ | rfl | rfl
        · exact .inl ⟨s, rfl⟩
        · exact .inr ⟨_, rfl⟩
        · exact absurd (mem_append_right _ hop) hrename
      refine ⟨written, fun event => ?_, ?_⟩
      · rw [mem_append, hwritten, or_iff_left]
        intro hmem
        rcases hlater _ hmem with ⟨s, ⟨⟩⟩ | ⟨index, ⟨⟩⟩
      · have hfile := get_run_of_removals hlater (store.disk.run (writeOps none events))
        rw [Disk.run_append]
        refine ⟨fun s file hget => ?_, fun s hget => ?_⟩ <;> rcases hfile s with hnone | hsame
        · cases hnone.symm.trans hget
        · exact hholds.readable s file (hsame ▸ hget)
        · simp [hnone] at hget
        · rw [Disk.eventsOf, hsame]
          exact hholds.eventsOf s

variable {events}

/-- A record that has counted its events is not the one of a longer log. -/
theorem countsEvents_ne {record : Option IndexedSessionRecord}
    {later : List StampedEvent} (h : Indexed CountsEvents s record events) (hevents : events ≠ [])
    (hlater : later ≠ []) : record ≠ indexedRecordFromEvents (events ++ later) := by
  intro heq
  cases record with
  | none => exact hevents h
  | some record =>
    have hcount : record.summary.eventCount = (events ++ later).length := by
      obtain ⟨first, rest, rfl⟩ := exists_cons_of_ne_nil hevents
      exact congrArg (fun record => record.elim 0 fun r => r.summary.eventCount) heq
    have hold : record.summary.eventCount = events.length := h.2
    have := length_pos_of_ne_nil hlater
    rw [length_append] at hcount
    omega

/-- After an interruption that left the set of files, the records of the sidecar are exact if
they were before and no event has reached a file. -/
theorem exact_crashed_iff (h : Consistent CountsEvents store logs) {written : List StampedEvent}
    (hheld : ∀ s, (disk.files.get s).isSome = true →
      disk.eventsOf s = logs s ++ eventsOfSession s written)
    (hfiles : ∀ s, (disk.files.get s).isSome = (store.disk.files.get s).isSome) :
    Exact disk store.index ↔ Exact store.disk store.index ∧
      ∀ event ∈ written, store.disk.files.get event.sessionId = none := by
  have hlogs : ∀ s, logs s ≠ [] ↔ (store.disk.files.get s).isSome = true := fun s => by
    rw [h.onDisk.isSome_file, decide_eq_true_iff]
  have hrecord : ∀ s, logs s = [] → store.index.sessions.get s = none := fun s hs => by
    rw [← not_isSome_iff_eq_none, (h.indexed s).isSome]
    simp [hs]
  have hiff : ∀ s, store.index.sessions.get s = indexedRecordFromEvents (disk.eventsOf s) ↔
      store.index.sessions.get s = indexedRecordFromEvents (store.disk.eventsOf s) ∧
        (logs s ≠ [] → eventsOfSession s written = []) := by
    intro s
    rw [h.onDisk.eventsOf]
    by_cases hs : logs s = []
    · -- A session without a file has no record and no events.
      have hnone : disk.files.get s = none := by
        rw [← not_isSome_iff_eq_none, hfiles, ← hlogs]
        exact not_not.mpr hs
      simp [hrecord s hs, Disk.eventsOf, hnone, hs, indexedRecordFromEvents]
    · rw [hheld s (by rwa [hfiles, ← hlogs])]
      by_cases hnil : eventsOfSession s written = []
      · simp [hnil]
      · simp [hs, hnil, countsEvents_ne (h.indexed s) hs hnil]
  rw [Exact, Exact, forall_congr' hiff, forall_and, and_congr_right_iff]
  intro _
  simp only [← not_isSome_iff_eq_none, ← hlogs, eventsOfSession, filter_eq_nil_iff,
    decide_eq_true_eq]
  grind

/-- An append that got as far as the rename is complete. -/
theorem take_eq_of_renameTemp_mem (nowMs : Timestamp) {k : ℕ}
    (h : .renameTemp ∈ (store.appendFileOps nowMs events).take k) :
    (store.appendFileOps nowMs events).take k = store.appendFileOps nowMs events := by
  obtain ⟨before, hops, hbefore⟩ : ∃ before,
      store.appendFileOps nowMs events = before ++ [.renameTemp] ∧ .renameTemp ∉ before := by
    have hmem := mem_of_mem_take h
    unfold appendFileOps at hmem ⊢
    split at hmem
    · cases hmem
    next hevents =>
      rw [if_neg hevents]
      cases hindex : store.indexAfter events with
      | error error =>
        rw [hindex] at hmem
        simp [renameTemp_notMem_writeOps] at hmem
      | ok index =>
        exact ⟨writeOps none events ++ ((selectSessionsToPrune index store.retention nowMs).map
          .removeFile ++ [.writeTemp (index.without
            (selectSessionsToPrune index store.retention nowMs))]), by
              simp [persistIndexFile], by simp [renameTemp_notMem_writeOps]⟩
  rw [hops] at h ⊢
  refine take_of_length_le ?_
  by_contra hk
  rw [length_append, length_singleton] at hk
  rw [take_append_of_le_length (by omega)] at h
  exact hbefore (mem_of_mem_take h)

/-- An interruption after the rename leaves the directory as the append does. -/
theorem crashed_eq_of_renameTemp_mem (nowMs : Timestamp) {k : ℕ}
    (h : .renameTemp ∈ (store.appendFileOps nowMs events).take k) :
    store.crashed nowMs events k = (store.step (.appendBatch nowMs events)).disk := by
  have hevents : ¬ events.isEmpty = true := by
    intro hempty
    rw [appendFileOps, if_pos hempty] at h
    simp at h
  rw [crashed, take_eq_of_renameTemp_mem nowMs h, step, appendBatch, appendLockedEvents,
    if_neg hevents]
  cases store.indexAfter events <;> rfl

/-- The directory of a store recovers if its records are the rebuilt ones. -/
theorem Consistent.recovers_iff (h : Consistent CountsEvents store logs) :
    Recovers store.disk ↔ Exact store.disk store.index := by
  rw [Nanoclaw.recovers_iff h.onDisk.readable, h.sidecar]
  refine ⟨fun hexact => hexact _ rfl h.version h.keys_eq, ?_⟩
  rintro hexact index ⟨⟩ - -
  exact hexact

end

/-- **The interruptions from which the store recovers.** Before the rename: the set of files has
changed, or counting has kept up with every log and no event has reached a session that had a file.
After it: counting has kept up with every log that the batch leaves. -/
theorem crashed_recovers_iff {traced : TracedStore} (h : Reachable traced)
    (nowMs : Timestamp) (events : List StampedEvent) (k : ℕ) :
    (.renameTemp ∉ (traced.store.appendFileOps nowMs events).take k →
      (Recovers (traced.store.crashed nowMs events k) ↔
        (∃ s, ((traced.store.crashed nowMs events k).files.get s).isSome ≠
          (traced.store.disk.files.get s).isSome) ∨
        (∀ s, (traced.history s).Settled) ∧
          ∀ event, .writeEvent event ∈ (traced.store.appendFileOps nowMs events).take k →
            traced.store.disk.files.get event.sessionId = none)) ∧
    (.renameTemp ∈ (traced.store.appendFileOps nowMs events).take k →
      (Recovers (traced.store.crashed nowMs events k) ↔
        ∀ s, ((traced.step (.appendBatch nowMs events)).history s).Settled)) := by
  have hexplained := h.explained
  obtain ⟨logs, hstore⟩ := hexplained.1
  refine ⟨fun hrename => ?_, fun hrename => ?_⟩
  · obtain ⟨written, hwritten, hreadable, hheld⟩ :=
      crash_prefix hstore.onDisk nowMs events k hrename
    have hsidecar : (traced.store.crashed nowMs events k).sidecar = some traced.store.index :=
      (sidecar_run hrename _).trans hstore.sidecar
    simp only [hwritten]
    rw [recovers_iff hreadable, hsidecar, ← hexplained.exact_iff]
    by_cases hfiles : ∀ s, ((traced.store.crashed nowMs events k).files.get s).isSome =
        (traced.store.disk.files.get s).isSome
    · have hkeys : traced.store.index.sessions.keys =
          (traced.store.crashed nowMs events k).files.keys :=
        hstore.keys_eq.trans (OrdMap.keys_eq_iff.mpr fun s => (hfiles s).symm)
      rw [or_iff_right (not_exists.mpr fun s => not_not.mpr (hfiles s)),
        ← exact_crashed_iff hstore hheld hfiles]
      refine ⟨fun hexact => hexact _ rfl hstore.version hkeys, ?_⟩
      rintro hexact index ⟨⟩ - -
      exact hexact
    · refine ⟨fun _ => .inl (not_forall.mp hfiles), ?_⟩
      rintro - index ⟨⟩ - hkeys
      exact absurd (fun s => (OrdMap.keys_eq_iff.mp (hkeys.symm.trans hstore.keys_eq)) s) hfiles
  · have hnext := hexplained.step (.appendBatch nowMs events)
    obtain ⟨_, hconsistent⟩ := hnext.1
    rw [crashed_eq_of_renameTemp_mem nowMs hrename, ← hnext.exact_iff]
    exact hconsistent.recovers_iff

/-! ### Two interruptions -/

/-- A notification in a session, logged by the agent session `a`. -/
def notificationEvent (sessionId message : String) : StampedEvent where
  sessionId := ⟨sessionId⟩
  agentSessionId := ⟨"a"⟩
  turnId := none
  toolCallId := none
  event := .notification "source" message
  timestampMs := 0

/-- The store on an empty directory. -/
def freshStore : FileSessionStore :=
  applyRetention { files := .empty } ⟨indexVersion, .empty⟩ {} 0

/-- One event in the session `s`. -/
def oneEvent : TracedStore :=
  (TracedStore.opened freshStore).step (.appendBatch 0 [notificationEvent "s" "first"])

theorem reachable_freshStore (steps : List StoreStep) :
    Reachable (System.run TracedStore.step (.opened freshStore) steps) :=
  ⟨{ files := .empty }, fun _ => [], {}, 0, freshStore, steps,
    ⟨fun _ => rfl, fun _ _ h => by cases h⟩, rfl, rfl, rfl⟩

theorem settled_oneEvent (s : SessionId) : (oneEvent.history s).Settled := by
  by_cases hs : s = ⟨"s"⟩
  · subst hs
    decide +kernel
  · have hfile : oneEvent.store.disk.files = OrdMap.empty.alter ⟨"s"⟩
        fun _ => some (.ofEvents [notificationEvent "s" "first"]) := rfl
    have hnone : (oneEvent.store.disk.files.get s).isNone = true := by
      simp [hfile, OrdMap.get_alter, hs]
    rw [show oneEvent.history s = {} from if_pos hnone]
    decide

/-- A second session is on disk and the sidecar is not written: the index is rebuilt. And the first
session after its whole append. -/
theorem recovers_after_new_session :
    Recovers (oneEvent.store.crashed 0 [notificationEvent "t" "second"] 3) ∧
      Recovers (freshStore.crashed 0 [notificationEvent "s" "first"] 5) := by
  constructor
  · refine ((crashed_recovers_iff (reachable_freshStore [_]) _ _ _).1 ?_).mpr (.inl ⟨⟨"t"⟩, ?_⟩)
    · intro hmem
      simp [appendFileOps, writeOps] at hmem
    · decide +kernel
  · refine ((crashed_recovers_iff (reachable_freshStore []) _ _ _).2 ?_).mpr settled_oneEvent
    have hops : freshStore.appendFileOps 0 [notificationEvent "s" "first"] =
        [.openFile ⟨"s"⟩, .writeEvent (notificationEvent "s" "first"), .writeNewline ⟨"s"⟩,
          .writeTemp oneEvent.store.index, .renameTemp] := rfl
    simp [System.run, TracedStore.opened, hops]

/-- The second event is on disk, the sidecar is old: its record is trusted. -/
theorem stale_record_after_crash : Reachable oneEvent ∧
      ¬ Recovers (oneEvent.store.crashed 0 [notificationEvent "s" "second"] 3) := by
  refine ⟨reachable_freshStore [_], fun h => ?_⟩
  obtain ⟨store, hopen, hexact⟩ := h {} 0
  have hs := hexact ⟨"s"⟩
  cases hopen
  revert hs
  decide +kernel

end Nanoclaw
