import Nanoclaw.Lib.Words
import Nanoclaw.Store.IndexConsistency
import Nanoclaw.Store.Search

/-!
# Agreement of the Searches

The same events are appended to a file store without retention limits and to a store in memory.
The file store shows nothing that the store in memory does not show. It shows all of it as long
as no corpus was cut (`FitsCorpus`), if the query has nothing but single spaces between its words
and every agent session logs another event before its first message (`Introduced`), because a
message leaves the identifier of its agent session out of the corpus.
-/

namespace Nanoclaw

open List Option Text

/-! ### Lower case and white space -/

/-- Lower-casing works word by word: it keeps white space and makes words of words. -/
def LowersWords (lower : String → String) : Prop :=
  Words.WordMap Text.isWhitespace fun text => (lower (String.ofList text)).toList

/-- The words of a query have single spaces between them. -/
def SingleSpaced (query : String) : Prop :=
  corpusLine query = query

instance (query : String) : Decidable (SingleSpaced query) :=
  inferInstanceAs (Decidable (_ = _))

theorem toList_corpusLine (value : String) :
    (corpusLine value).toList = Words.collapse isWhitespace ' ' value.toList := by
  rw [corpusLine, String.toList_intercalate, splitWhitespace, List.map_map]
  have hid : String.toList ∘ String.ofList = id := funext fun _ => String.toList_ofList
  rw [hid, List.map_id]
  rfl

variable {query : String}

section Lower

variable {lower : String → String} (hlower : LowersWords lower)

include hlower

theorem toList_lower_corpusLine (value : String) : (lower (corpusLine value)).toList =
      Words.collapse isWhitespace ' ' (lower value).toList := by
  have hmap := hlower.collapse_map (show isWhitespace ' ' = true by decide) value.toList
  rw [← toList_corpusLine, String.ofList_toList, String.ofList_toList] at hmap
  exact hmap

/-- **A single-spaced query is found in the line of a value** in which it is found. -/
theorem contains_corpusLine (hquery : SingleSpaced query) {value : String}
    (h : Contains lower (lower query) value) : Contains lower (lower query) (corpusLine value) := by
  have hcollapsed : Words.collapse isWhitespace ' ' (lower query).toList =
      (lower query).toList := by
    rw [← toList_lower_corpusLine hlower, hquery]
  rw [Contains, toList_lower_corpusLine hlower]
  exact Words.collapse_isInfix hcollapsed h

end Lower

/-! ### Corpora as lines -/

/-- A corpus with a number of lines. -/
def corpusOfLines (lines : List String) : String :=
  "\n".intercalate lines

/-- The lines of some values; a blank value has none. -/
def linesOf (values : List String) : List String :=
  (values.map corpusLine).filter fun line => !line.isEmpty

variable {values : List String} {value line corpus : String} {event : StampedEvent}

theorem mem_linesOf (hvalue : value ∈ values) :
    corpusLine value = "" ∨ corpusLine value ∈ linesOf values := by
  by_cases hempty : corpusLine value = ""
  · exact .inl hempty
  · refine .inr (mem_filter.mpr ⟨mem_map_of_mem hvalue, ?_⟩)
    simpa using hempty

theorem ne_empty_of_mem_linesOf (h : line ∈ linesOf values) : line ≠ "" := by
  have := (mem_filter.mp h).2
  simpa using this

variable {lines : List String}

section

variable (hlines : ∀ line ∈ lines, line ≠ "")

include hlines

theorem corpusOfLines_ne_empty (hnil : lines ≠ []) : corpusOfLines lines ≠ "" := by
  obtain ⟨line, rest, rfl⟩ := exists_cons_of_ne_nil hnil
  have hline : line ≠ "" := hlines line mem_cons_self
  refine ne_of_apply_ne String.toList ?_
  rw [corpusOfLines, String.toList_intercalate, map_cons]
  change ['\n'].intercalate _ ≠ _
  rw [Words.intercalate_singleton_cons]
  simp [hline]

theorem appendSearchCorpusLine_corpusOfLines (value : String) :
    appendSearchCorpusLine (corpusOfLines lines) value =
      corpusOfLines (lines ++ linesOf [value]) := by
  rw [appendSearchCorpusLine]
  by_cases hvalue : corpusLine value = ""
  · simp [hvalue, linesOf]
  · have hone : linesOf [value] = [corpusLine value] := by simp [linesOf, hvalue]
    rw [if_neg (by simpa using hvalue), hone]
    by_cases hnil : lines = []
    · subst hnil
      simp [corpusOfLines]
    · have hcorpus := corpusOfLines_ne_empty hlines hnil
      rw [if_neg (by simpa using hcorpus), corpusOfLines, corpusOfLines,
        String.intercalate_append_of_ne_nil hnil (cons_ne_nil _ _),
        String.intercalate_singleton]

theorem foldl_appendSearchCorpusLine (values : List String) :
    values.foldl appendSearchCorpusLine (corpusOfLines lines) =
      corpusOfLines (lines ++ linesOf values) := by
  induction values generalizing lines with
  | nil => simp [linesOf]
  | cons value values ih =>
    rw [foldl_cons, appendSearchCorpusLine_corpusOfLines hlines, ih, append_assoc, linesOf,
      linesOf, ← filter_append, ← map_append, singleton_append]
    · rfl
    exact forall_mem_append.mpr ⟨hlines, fun _ => ne_empty_of_mem_linesOf⟩

end

variable {lower : String → String} (record : IndexedSessionRecord)

theorem contains_corpusOfLines (hlower : LowersWords lower) {queryLower : String}
    (hline : line ∈ lines) (h : Contains lower queryLower line) :
    Contains lower queryLower (corpusOfLines lines) := by
  have hlines := hlower.intercalate_map (show isWhitespace '\n' = true by decide)
    (lines.map String.toList)
  have htext : String.ofList (['\n'].intercalate (lines.map String.toList)) =
      corpusOfLines lines := by
    rw [← String.ofList_toList (s := corpusOfLines lines), corpusOfLines, String.toList_intercalate]
    rfl
  rw [htext, List.map_map] at hlines
  rw [Contains, hlines]
  refine h.trans (Words.isInfix_intercalate (mem_map.mpr ⟨line, hline, ?_⟩))
  rw [Function.comp_apply, String.ofList_toList]

/-! ### Text that is not cut -/

theorem length_le_appendSearchCorpusLine (corpus value : String) :
    corpus.length ≤ (appendSearchCorpusLine corpus value).length := by
  rw [appendSearchCorpusLine]
  split
  · exact le_rfl
  · split
    next h => simp [String.isEmpty_iff.mp h]
    · simp [String.length_append, add_assoc]

theorem length_le_foldl_appendSearchCorpusLine (values : List String) (corpus : String) :
    corpus.length ≤ (values.foldl appendSearchCorpusLine corpus).length := by
  induction values generalizing corpus with
  | nil => exact le_rfl
  | cons value values ih => exact (length_le_appendSearchCorpusLine corpus value).trans (ih _)

/-- A corpus that stays short enough is never cut. -/
theorem foldl_appendSearchText
    (h : (values.foldl appendSearchCorpusLine corpus).length ≤ maxSearchCorpusChars) :
    values.foldl appendSearchText corpus = values.foldl appendSearchCorpusLine corpus := by
  induction values generalizing corpus with
  | nil => rw [foldl_nil, foldl_nil]
  | cons value values ih =>
    rw [foldl_cons] at h
    have hfits := (length_le_foldl_appendSearchCorpusLine values _).trans h
    have hone : appendSearchText corpus value = appendSearchCorpusLine corpus value := by
      rw [appendSearchText, if_neg (not_lt.mpr hfits)]
    rw [foldl_cons, hone, ih h, foldl_cons]

/-! ### Corpora that cover a log -/

/-- The events before which nothing is cut off. -/
def FitsCorpus (event : StampedEvent) : Prop :=
  ((addedSearchText event.toSessionEventEnvelope).foldl appendSearchCorpusLine
    record.searchCorpus).length ≤ maxSearchCorpusChars

/-- An agent session that logs a message has logged something else before. -/
def Introduced (logged : List StampedEvent) (event : StampedEvent) : Prop :=
  IsTranscriptMessage event.event = true → ∃ earlier ∈ logged,
    earlier.agentSessionId = event.agentSessionId ∧ IsTranscriptMessage earlier.event = false

/-- What an appended event has to meet for its session to be found. -/
def StaysFindable (logged : List StampedEvent) (event : StampedEvent) : Prop :=
  LogsUnnamed logged event ∧ FitsCorpus record event ∧ Introduced logged event

instance (record : IndexedSessionRecord) (logged : List StampedEvent) (event : StampedEvent) :
    Decidable (StaysFindable record logged event) := by
  unfold StaysFindable FitsCorpus Introduced
  infer_instance

/-- **The corpus has a line for everything that is searched.** -/
def CorpusCovers (events : List StampedEvent) : Prop :=
  ∃ lines, (∀ line ∈ lines, line ≠ "") ∧ record.searchCorpus = corpusOfLines lines ∧
    ∀ value ∈ searchedStrings (envelopes events), corpusLine value = "" ∨ corpusLine value ∈ lines

variable {record} {events : List StampedEvent} {logs : SessionId → List StampedEvent}
  {store : FileSessionStore} {s : SessionId} {memory : InMemorySessionStore}

theorem covers_of_indexedRecordFromEvents (h : indexedRecordFromEvents events = some record) :
    CorpusCovers record events := by
  refine ⟨linesOf (searchedStrings (envelopes events)), fun _ => ne_empty_of_mem_linesOf, ?_,
    fun value hvalue => mem_linesOf hvalue⟩
  rw [searchCorpus_indexedRecordFromEvents h]
  exact foldl_appendSearchCorpusLine (fun line hline => absurd hline not_mem_nil) _

/-- With one more event, only what is added to the corpus is searched. -/
theorem mem_searchedStrings_append (hrebuild : rebuildIndexRecord event.event = false)
    (hnamed : LogsUnnamed events event) (hintroduced : Introduced events event)
    (h : value ∈ searchedStrings (envelopes (events ++ [event]))) :
    value ∈ searchedStrings (envelopes events) ∨
      value ∈ addedSearchText event.toSessionEventEnvelope := by
  rw [envelopes_append, envelopes_singleton] at h
  rcases mem_append.mp h with hvalue | hvalue
  · rw [flatMap_append, flatMap_singleton] at hvalue
    rcases mem_append.mp hvalue with hvalue | hvalue
    · exact .inl (mem_append_left _ hvalue)
    · cases hmessage : IsTranscriptMessage event.event with
      | false =>
        refine .inr ?_
        revert hrebuild hmessage hvalue
        rw [addedSearchText]
        cases event.event <;> simp [rebuildIndexRecord, IsTranscriptMessage]
      | true =>
        -- Only the agent session is searched in a message, and an earlier event has it.
        obtain ⟨earlier, hearlier, hagent, -⟩ := hintroduced hmessage
        have hid : value ∈ [event.agentSessionId.value].filter fun value =>
            !(trim value).isEmpty := by
          revert hmessage hvalue
          rw [searchableSessionEventStrings]
          cases event.event <;> simp [IsTranscriptMessage, SessionEventKind.searchStrings]
        refine .inl (mem_append_left _ (mem_flatMap.mpr
          ⟨earlier.toSessionEventEnvelope, mem_map_of_mem hearlier, ?_⟩))
        rw [← hagent] at hid
        exact mem_filter.mpr ⟨mem_cons.mpr (.inl (by simpa using
          (mem_filter.mp hid).1)), (mem_filter.mp hid).2⟩
  · obtain ⟨message, hmessage, rfl⟩ := mem_map.mp hvalue
    by_cases hkind : ∃ logged, event.event = .transcriptMessage logged
    · obtain ⟨logged, hlogged⟩ := hkind
      obtain ⟨before, after, hevents, happend⟩ :=
        Store.visibleTranscript_append_message hlogged hnamed
      rw [happend] at hmessage
      have hcases : message ∈ Store.visibleTranscript (envelopes events) ∨ message = logged := by
        rw [hevents]
        simp at hmessage ⊢
        tauto
      rcases hcases with hold | rfl
      · exact .inl (mem_append_right _ (mem_map_of_mem hold))
      · exact .inr (by simp [addedSearchText, hlogged])
    · have hother : event.event.isTranscriptEvent = false := by
        revert hrebuild hkind
        cases event.event <;> simp [rebuildIndexRecord, SessionEventKind.isTranscriptEvent]
      rw [Store.visibleTranscript_append_other hother] at hmessage
      exact .inl (mem_append_right _ (mem_map_of_mem hmessage))

/-- **One more event keeps the log covered**, if nothing is cut off. -/
theorem CorpusCovers.apply (h : CorpusCovers record events)
    (hrebuild : rebuildIndexRecord event.event = false)
    (hfindable : StaysFindable record events event) :
    CorpusCovers (applyEventToRecord record event) (events ++ [event]) := by
  obtain ⟨lines, hlines, hcorpus, hcovered⟩ := h
  obtain ⟨hnamed, hfits, hintroduced⟩ := hfindable
  refine ⟨lines ++ linesOf (addedSearchText event.toSessionEventEnvelope), ?_, ?_, ?_⟩
  · exact forall_mem_append.mpr ⟨hlines, fun _ => ne_empty_of_mem_linesOf⟩
  · rw [searchCorpus_applyEventToRecord, foldl_appendSearchText hfits, hcorpus,
      foldl_appendSearchCorpusLine hlines]
  · intro value hvalue
    rcases mem_searchedStrings_append hrebuild hnamed hintroduced hvalue with hold | hadded
    · exact (hcovered value hold).imp_right (mem_append_left _)
    · exact (mem_linesOf hadded).imp_right (mem_append_right _)

/-- **The store keeps the logs covered** and its records on track. -/
theorem recordInvariant_covers : RecordInvariant StaysFindable
    fun sessionId record events => Tracks sessionId record events ∧ CorpusCovers record events where
  rebuilt hown hrecord :=
    ⟨indexedRecordFromEvents_tracks hown hrecord, covers_of_indexedRecordFromEvents hrecord⟩
  first {event} hrebuild hfindable := by
    have hempty : CorpusCovers (defaultIndexedRecord event) [] :=
      ⟨[], by simp, rfl, fun value hvalue => by cases hvalue⟩
    exact ⟨recordInvariant_tracks.first hrebuild hfindable.1, hempty.apply hrebuild hfindable⟩
  next h hrebuild hfindable :=
    ⟨recordInvariant_tracks.next h.1 hrebuild hfindable.1, h.2.apply hrebuild hfindable⟩

/-- **The index drops no session that matches.** -/
theorem CorpusCovers.recordMatchesQuery (hlower : LowersWords lower)
    (hquery : SingleSpaced query) (h : CorpusCovers record events)
    (hfound : Found lower (lower query) record.summary (envelopes events)) :
    recordMatchesQuery lower record (lower query) = true := by
  rw [Nanoclaw.recordMatchesQuery, Bool.or_eq_true, Bool.or_eq_true]
  rcases hfound with hid | ⟨prompt, hprompt, hmatch⟩ | ⟨value, hvalue, hmatch⟩
  · exact .inl (.inl (decide_eq_true hid))
  · exact .inl (.inr (by rw [hprompt]; simpa using hmatch))
  · obtain ⟨lines, -, hcorpus, hcovered⟩ := h
    have hline := contains_corpusLine hlower hquery hmatch
    refine .inr (decide_eq_true ?_)
    rw [hcorpus]
    rcases hcovered value hvalue with hempty | hmem
    · have hnothing : (lower "").toList = [] := hlower.nil_iff.mpr rfl
      rw [hempty, Contains, hnothing, infix_nil] at hline
      rw [Contains, hline]
      exact nil_infix
    · exact contains_corpusOfLines hlower hmem hline

/-! ### The same events in both stores -/

namespace InMemorySessionStore

def step (store : InMemorySessionStore) : StoreStep → InMemorySessionStore
  | .appendBatch _ events => store.appendBatch events
  | .reopen _ => store

theorem get_appendBatch (store : InMemorySessionStore) (events : List StampedEvent)
    (s : SessionId) :
    (store.appendBatch events).events.get s =
      (eventsOfSession s events).foldl (fun logged event => some (logged.getD [] ++ [event]))
        (store.events.get s) := by
  have hevents : (store.appendBatch events).events =
      events.foldl (fun sessions event => sessions.alter event.sessionId
        fun logged => some (logged.getD [] ++ [event])) store.events := by
    rw [appendBatch]
    induction events generalizing store with
    | nil => rfl
    | cons event events ih => exact ih (store.append event)
  rw [hevents]
  exact OrdMap.get_foldl_alter (fun event : StampedEvent => event.sessionId)
    (fun event logged => some (logged.getD [] ++ [event])) _ _ s

end InMemorySessionStore

/-- The entry of a log in memory. -/
def memoryEntry (logged : List StampedEvent) : Option (List StampedEvent) :=
  if logged = [] then none else some logged

theorem foldl_memoryEntry (logged later : List StampedEvent) :
    later.foldl (fun logged event => some (logged.getD [] ++ [event])) (memoryEntry logged) =
      memoryEntry (logged ++ later) := by
  induction later generalizing logged with
  | nil => simp
  | cons event later ih =>
    have hone : some ((memoryEntry logged).getD [] ++ [event]) =
        memoryEntry (logged ++ [event]) := by
      rw [memoryEntry, memoryEntry, if_neg (by simp : logged ++ [event] ≠ [])]
      split <;> simp_all
    rw [foldl_cons, hone, ih, append_assoc, singleton_append]

/-- **Both stores have the same logs**, and nothing is pruned. -/
structure SameLogs (P : SessionId → IndexedSessionRecord → List StampedEvent → Prop)
    (store : FileSessionStore) (memory : InMemorySessionStore)
    (logs : SessionId → List StampedEvent) : Prop where
  retention : store.retention = {}
  consistent : Consistent P store logs
  memory : ∀ s, memory.events.get s = memoryEntry (logs s)

section

variable {C : IndexedSessionRecord → List StampedEvent → StampedEvent → Prop}
  {P : SessionId → IndexedSessionRecord → List StampedEvent → Prop}

theorem retention_appendBatch (store : FileSessionStore) (nowMs : Timestamp)
    (events : List StampedEvent) :
    (store.appendBatch nowMs events).2.retention = store.retention := by
  rw [FileSessionStore.appendBatch, FileSessionStore.appendLockedEvents]
  split
  · rfl
  · dsimp only
    split <;> rfl

/-- **A step keeps the logs the same.** -/
theorem SameLogs.step (hP : RecordInvariant C P) (h : SameLogs P store memory logs)
    (step : StoreStep) (hC : store.LogsAll C step) :
    ∃ logs', SameLogs P (store.step step) (memory.step step) logs' := by
  cases step with
  | appendBatch nowMs events =>
    obtain ⟨pruned, hpruned, happended⟩ := hP.append h.consistent nowMs fun s hs hfallback => by
      rw [← h.consistent.onDisk.eventsOf]
      exact hC s hs hfallback
    rw [hpruned h.retention, prunedLogs_nil] at happended
    refine ⟨_, (retention_appendBatch store nowMs events).trans h.retention, happended, fun s => ?_⟩
    rw [InMemorySessionStore.step, InMemorySessionStore.get_appendBatch, h.memory,
      foldl_memoryEntry]
  | reopen nowMs =>
    obtain ⟨hopen, hreopened⟩ := h.consistent.reopen nowMs
    rw [h.retention, selectSessionsToPrune_default, prunedLogs_nil] at hreopened
    refine ⟨logs, ?_⟩
    rw [FileSessionStore.step, hopen, h.retention]
    exact ⟨rfl, hreopened, h.memory⟩

theorem meets_true (store : FileSessionStore) (steps : List StoreStep) :
    System.Meets FileSessionStore.step (FileSessionStore.LogsAll fun _ _ _ => True) store
      steps := by
  induction steps generalizing store with
  | nil => trivial
  | cons step steps ih => exact ⟨store.logsAll_true step, ih _⟩

/-- **A run keeps the logs the same.** -/
theorem sameLogs_run (hP : RecordInvariant C P) {nowMs : Timestamp}
    (hopen : openWithOptions emptyDisk {} nowMs = .ok store) {steps : List StoreStep}
    (hC : System.Meets FileSessionStore.step (FileSessionStore.LogsAll C) store steps) :
    ∃ logs, SameLogs P (System.run FileSessionStore.step store steps)
      (System.run InMemorySessionStore.step {} steps) logs := by
  obtain ⟨opened, pruned, hopened, hretention, hpruned, hstart⟩ :=
    hP.openWithOptions logs_emptyDisk rfl {} nowMs
  obtain rfl : opened = store := Except.ok.inj (hopened.symm.trans hopen)
  rw [hpruned rfl, prunedLogs_nil] at hstart
  exact hC.simulates .step
    (R := fun store memory => ∃ logs, SameLogs P store memory logs)
    (fun _ _ step ⟨_, h⟩ hstep => h.step hP step hstep) ⟨_, hretention, hstart, fun _ => rfl⟩

end

/-! ### What the searches show -/

/-- A search in the file store, session by session. -/
def fileSearch (lower : String → String) (query : String) (record : IndexedSessionRecord)
    (events : List StampedEvent) : Option RankedSessionSearchResult :=
  if (Text.trim query).isEmpty = true ∨
      recordMatchesQuery lower record (lower (Text.trim query)) = true then
    searchSessionEventsRanked lower record.summary events query
  else none

/-- A session that is listed without a query. -/
def listed (summary : SessionSummary) : RankedSessionSearchResult where
  result := { summary, matchedEventCount := 0, previewMatches := [] }
  promptMatch := false
  sessionIdMatch := false
  metadataMatchCount := 0
  transcriptMatchCount := 0

/-- Without a query the sessions are in the order of their summaries. -/
theorem sortSessionSummaries_map (summaries : List SessionSummary) :
    (sortSessionSummaries summaries).map (fun summary => (listed summary).result) =
      (sortRankedSessionSearchResults (summaries.map listed)).map (·.result) := by
  have hsort := map_insertionSort (fun left right => (compareSummaries left right).isLE = true)
    (fun left right => (compareRanked left right).isLE = true) listed summaries
    fun left _ right _ => .rfl
  rw [sortRankedSessionSearchResults, ← hsort, List.map_map]
  rfl

section

variable {P : SessionId → IndexedSessionRecord → List StampedEvent → Prop}

section

variable (h : SameLogs P store memory logs)

include h

theorem SameLogs.keys_eq : store.index.sessions.keys = memory.events.keys :=
  OrdMap.keys_eq_iff.mpr fun s => by
    rw [(h.consistent.indexed s).isSome, h.memory, memoryEntry]
    split <;> simp_all

theorem SameLogs.indexed (hrecord : store.index.sessions.get s = some record) :
    logs s ≠ [] ∧ P s record (logs s) := by
  have hindexed := h.consistent.indexed s
  rw [hrecord] at hindexed
  exact hindexed

theorem SameLogs.events_eq (hrecord : store.index.sessions.get s = some record) :
    store.events s = .ok (logs s) := by
  rw [FileSessionStore.events, h.consistent.onDisk.file, if_neg (h.indexed hrecord).1]
  exact SessionFile.load_ofEvents _

/-- **The search of the file store**, session by session. -/
theorem SameLogs.searchSessions_eq
    (hid : ∀ {s record}, store.index.sessions.get s = some record → record.summary.sessionId = s)
    (lower : String → String) (query : String) :
    store.searchSessions lower query =
      .ok ((sortRankedSessionSearchResults (store.index.sessions.keys.filterMap fun s =>
        (store.index.sessions.get s).bind fun record =>
          fileSearch lower query record (logs s))).map (·.result)) := by
  rw [← OrdMap.filterMap_entries fun entry => fileSearch lower query entry.2 (logs entry.1),
    FileSessionStore.searchSessions]
  cases hquery : (trim query).isEmpty with
  | true =>
    simp only [if_true, fileSearch, hquery, true_or, searchSessionEventsRanked]
    rw [FileSessionStore.listSessions, filterMap_eq_map', OrdMap.values, List.map_map]
    exact congrArg Except.ok ((sortSessionSummaries_map _).trans (by rw [List.map_map]; rfl))
  | false =>
    simp only [Bool.false_eq_true, if_false, fileSearch, hquery, false_or]
    have hread : ∀ summary ∈ (store.index.sessions.values.filter fun record =>
        recordMatchesQuery lower record (lower (trim query))).map (·.summary),
        store.searchCandidate lower (trim query) summary =
          .ok (searchSessionEventsRanked lower summary (logs summary.sessionId) query) := by
      intro summary hsummary
      obtain ⟨record, hrecord, rfl⟩ := mem_map.mp hsummary
      obtain ⟨⟨s, record⟩, hentry, rfl⟩ := mem_map.mp (mem_filter.mp hrecord).1
      have hget := OrdMap.mem_entries.mp hentry
      dsimp only
      rw [FileSessionStore.searchCandidate, hid hget, h.events_eq hget]
      simp only [searchSessionEventsRanked, trim_trim]
      rfl
    rw [Proc.except_mapM_eq hread]
    refine congrArg (fun found =>
      Except.ok ((sortRankedSessionSearchResults found).map (·.result))) ?_
    rw [filterMap_map, filterMap_map, filterMap_filter, OrdMap.values, filterMap_map]
    refine filterMap_congr ?_
    rintro ⟨s, record⟩ hentry
    have hget := OrdMap.mem_entries.mp hentry
    simp only [Function.comp_apply, id_eq, hid hget]

theorem SameLogs.memory_searchSessions_eq (lower : String → String) (query : String) :
    memory.searchSessions lower query =
      (sortRankedSessionSearchResults (store.index.sessions.keys.filterMap fun s =>
        (summarizeSessionEvents s (logs s)).bind fun summary =>
          searchSessionEventsRanked lower summary (logs s) query)).map (·.result) := by
  rw [InMemorySessionStore.searchSessions, OrdMap.filterMap_entries, ← h.keys_eq]
  refine congrArg (fun found => (sortRankedSessionSearchResults found).map (·.result)) ?_
  refine filterMap_congr fun s hs => ?_
  rw [h.memory, memoryEntry]
  split
  next hnil => simp [hnil, summarizeSessionEvents]
  · rfl

end

/-- **Covered sessions are found by both searches.** -/
theorem SameLogs.searchSessions_agree (hlower : LowersWords lower)
    (h : SameLogs (fun s record events => Tracks s record events ∧ CorpusCovers record events)
      store memory logs) (hquery : SingleSpaced (trim query)) :
    store.searchSessions lower query = .ok (memory.searchSessions lower query) := by
  rw [h.searchSessions_eq (fun hrecord => by rw [(h.indexed hrecord).2.1.summary]; rfl),
    h.memory_searchSessions_eq]
  refine congrArg (fun found =>
    Except.ok ((sortRankedSessionSearchResults found).map (·.result))) ?_
  refine filterMap_congr fun s hs => ?_
  obtain ⟨record, hrecord⟩ := isSome_iff_exists.mp (OrdMap.mem_keys.mp hs)
  obtain ⟨hne, htracks, hcovers⟩ := h.indexed hrecord
  have hsummarize : summarizeSessionEvents s (logs s) = some record.summary := by
    simp [summarizeSessionEvents, hne, htracks.summary_eq]
  rw [hrecord, hsummarize, bind_some, bind_some, fileSearch]
  split
  · rfl
  · -- The index rules the session out, so nothing of it matches.
    next hout =>
      rw [not_or] at hout
      by_contra hfound
      exact hout.2 (hcovers.recordMatchesQuery hlower hquery
        ((isSome_searchSessionEventsRanked (by simpa using hout.1)).mp
          (isSome_iff_ne_none.mpr (Ne.symm hfound))))

end

/-! ### Results that are shown -/

/-- What a result tells: the session, the number of matches and the previews. -/
def SessionSearchResult.hit (result : SessionSearchResult) : SessionId × ℕ × List String :=
  (result.summary.sessionId, result.matchedEventCount, result.previewMatches)

/-- A record names its session and has the last prompt of the log. -/
def NamesSession (sessionId : SessionId) (record : IndexedSessionRecord)
    (events : List StampedEvent) : Prop :=
  record.summary.sessionId = sessionId ∧
    record.summary.lastUserPrompt = (summaryOf sessionId events).lastUserPrompt

theorem recordInvariant_namesSession : RecordInvariant (fun _ _ _ => True) NamesSession where
  rebuilt hown hrecord := by
    have hsummary := (indexedRecordFromEvents_tracks hown hrecord).summary
    exact ⟨by rw [hsummary]; rfl, by rw [hsummary]⟩
  first _ _ := ⟨rfl, rfl⟩
  next h _ _ := by
    refine ⟨h.1, ?_⟩
    simp [applyEventToRecord, h.2, summaryOf]

/-- Of a summary, only identifier and last prompt matter. -/
theorem hit_searchSessionEventsRanked {summary summary' : SessionSummary}
    (hid : summary.sessionId = summary'.sessionId)
    (hprompt : summary.lastUserPrompt = summary'.lastUserPrompt) (events : List StampedEvent)
    (query : String) :
    (searchSessionEventsRanked lower summary events query).map (·.result.hit) =
      (searchSessionEventsRanked lower summary' events query).map (·.result.hit) := by
  simp only [searchSessionEventsRanked, apply_ite (Option.map _), map_some,
    map_none, SessionSearchResult.hit, hid, hprompt]

theorem filterMap_sublist_filterMap {α β : Type} {f g : α → Option β} {xs : List α}
    (h : ∀ x ∈ xs, f x = none ∨ f x = g x) : (xs.filterMap f).Sublist (xs.filterMap g) := by
  have hf : xs.filterMap f = (xs.filter fun x => (f x).isSome).filterMap g := by
    rw [filterMap_filter]
    refine filterMap_congr fun x hx => ?_
    rcases h x hx with hnone | heq
    · rw [hnone]
      rfl
    · rw [← heq]
      cases f x <;> rfl
  rw [hf]
  exact filter_sublist.filterMap g

theorem map_hit_perm (found : List RankedSessionSearchResult) :
    (((sortRankedSessionSearchResults found).map (·.result)).map SessionSearchResult.hit).Perm
      (found.map (·.result.hit)) := by
  rw [List.map_map]
  exact (perm_insertionSort _ found).map _

/-- **The file store shows nothing that the store in memory does not show.** -/
theorem SameLogs.searchSessions_subperm
    (h : SameLogs NamesSession store memory logs) (lower : String → String) (query : String) :
    ∃ results, store.searchSessions lower query = .ok results ∧
      (results.map SessionSearchResult.hit).Subperm
        ((memory.searchSessions lower query).map SessionSearchResult.hit) := by
  refine ⟨_, h.searchSessions_eq (fun hrecord => (h.indexed hrecord).2.1) lower query, ?_⟩
  rw [h.memory_searchSessions_eq]
  refine (map_hit_perm _).subperm.trans (.trans ?_ (map_hit_perm _).symm.subperm)
  rw [map_filterMap, map_filterMap]
  refine (filterMap_sublist_filterMap fun s hs => ?_).subperm
  obtain ⟨record, hrecord⟩ := isSome_iff_exists.mp (OrdMap.mem_keys.mp hs)
  obtain ⟨hne, hid, hprompt⟩ := h.indexed hrecord
  have hsummarize : summarizeSessionEvents s (logs s) = some (summaryOf s (logs s)) := by
    simp [summarizeSessionEvents, hne]
  rw [hrecord, hsummarize, bind_some, bind_some, fileSearch]
  split
  · exact .inr (hit_searchSessionEventsRanked hid hprompt _ _)
  · exact .inl rfl

/-- **After every run** the file store shows nothing else, and all if no corpus was cut. -/
theorem search_agrees_along_run {lower : String → String} (hlower : LowersWords lower)
    (nowMs : Timestamp) (steps : List StoreStep) :
    ∃ store, openWithOptions emptyDisk {} nowMs = .ok store ∧ ∀ query : String,
      (∃ results, (System.run FileSessionStore.step store steps).searchSessions lower query =
          .ok results ∧
        (results.map SessionSearchResult.hit).Subperm
          (((System.run InMemorySessionStore.step {} steps).searchSessions lower query).map
            SessionSearchResult.hit)) ∧
      (System.Meets FileSessionStore.step (FileSessionStore.LogsAll StaysFindable) store steps →
        SingleSpaced (Text.trim query) →
        (System.run FileSessionStore.step store steps).searchSessions lower query =
          .ok ((System.run InMemorySessionStore.step {} steps).searchSessions lower query)) := by
  obtain ⟨store, _, hopen, -⟩ :=
    recordInvariant_namesSession.openWithOptions logs_emptyDisk rfl {} nowMs
  refine ⟨store, hopen, fun query => ⟨?_, fun hmeets hquery => ?_⟩⟩
  · obtain ⟨logs, h⟩ := sameLogs_run recordInvariant_namesSession hopen (meets_true store steps)
    exact h.searchSessions_subperm lower query
  · obtain ⟨logs, h⟩ := sameLogs_run recordInvariant_covers hopen hmeets
    exact h.searchSessions_agree hlower hquery

/-! ### A search, and a search that misses a session -/

/-- Lower-casing the ASCII letters works word by word. -/
theorem lowersWords_toAsciiLowercase : LowersWords toAsciiLowercase := by
  have hupper : ∀ c : Char, 'A' ≤ c ∧ c ≤ 'Z' →
      isWhitespace c = false ∧ isWhitespace c.toLower = false := by
    intro c ⟨hlow, hhigh⟩
    have hrange : 65 ≤ c.toNat ∧ c.toNat ≤ 90 := ⟨hlow, hhigh⟩
    have hletters : ∀ n < 91, 65 ≤ n → isWhitespace (Char.ofNat n) = false ∧
        isWhitespace (Char.ofNat n).toLower = false := by decide
    have := hletters c.toNat (by omega) hrange.1
    rwa [Char.ofNat_toNat] at this
  have hmap : (fun text => (toAsciiLowercase (String.ofList text)).toList) =
      map fun c => if 'A' ≤ c ∧ c ≤ 'Z' then c.toLower else c := by
    funext text
    rw [toAsciiLowercase, String.toList_ofList, String.toList_ofList]
  rw [LowersWords, hmap]
  refine .of_map (fun c hc => if_neg fun h => ?_) fun c hc => ?_
  · rw [(hupper c h).1] at hc
    cases hc
  · split
    next h => exact (hupper c h).2
    · exact hc

/-- A notification and a message, and a restart. -/
def searchedSteps : List StoreStep :=
  [.appendBatch 0 [eventAt 1 (.notification "cli" "Hello  World"), messageEvent 2 "hello"],
    .reopen 0]

theorem search_agrees_on_notification : ∃ store, openWithOptions emptyDisk {} 0 = .ok store ∧
      System.Meets FileSessionStore.step (FileSessionStore.LogsAll StaysFindable) store
        searchedSteps ∧
      (System.run FileSessionStore.step store searchedSteps).searchSessions
          Text.toAsciiLowercase "HELLO" =
        .ok ((System.run InMemorySessionStore.step {} searchedSteps).searchSessions
          Text.toAsciiLowercase "HELLO") := by
  obtain ⟨store, hopen, h⟩ := search_agrees_along_run lowersWords_toAsciiLowercase 0 searchedSteps
  refine have hmeets := ?_; ⟨store, hopen, hmeets, (h "HELLO").2 hmeets (by decide +kernel)⟩
  cases hopen
  decide +kernel

/-- A text as long as a corpus can be. -/
def longText : String :=
  String.ofList (List.replicate maxSearchCorpusChars 'x')

theorem corpusLine_longText : corpusLine longText = longText := by
  have hwords : Words.words isWhitespace (replicate maxSearchCorpusChars 'x') = _ :=
    Words.words_of_forall fun c hc => by rw [eq_of_mem_replicate hc]; decide
  have hne : replicate maxSearchCorpusChars 'x' ≠ [] := by
    rw [Ne, replicate_eq_nil_iff]
    decide
  refine String.toList_injective ?_
  rw [toList_corpusLine, longText, String.toList_ofList, Words.collapse, hwords, if_neg hne,
    intercalate_singleton]

/-- A long text takes the place of everything before it. -/
theorem appendSearchText_longText (hcorpus : corpus ≠ "") :
    appendSearchText corpus longText = longText := by
  have hlength : longText.length = maxSearchCorpusChars := by
    rw [longText, String.length_ofList, length_replicate]
  have hline : appendSearchCorpusLine corpus longText = corpus ++ "\n" ++ longText := by
    have hlong : longText ≠ "" := fun h => by
      rw [h] at hlength
      cases hlength
    rw [appendSearchCorpusLine, corpusLine_longText, if_neg (by simpa using hlong),
      if_neg (by simpa using hcorpus)]
  have hover : (corpus ++ "\n" ++ longText).length = corpus.length + 1 + maxSearchCorpusChars := by
    rw [String.length_append, String.length_append, hlength]
    rfl
  rw [appendSearchText, hline, if_pos (by omega), keepRecentChars, if_neg (by omega), hover,
    Nat.add_sub_cancel, String.toList_append, drop_left' (by simp; rfl)]
  exact String.ofList_toList

/-- A notification, and a long message in the same session. -/
def longEvents : List StampedEvent :=
  [eventAt 1 (.notification "cli" "needle"), messageEvent 2 longText]

theorem eventsOfSession_longEvents (s : SessionId) :
    eventsOfSession s longEvents = if s = ⟨"s"⟩ then longEvents else [] := by
  by_cases hs : s = ⟨"s"⟩
  · subst hs
    rfl
  · simp [eventsOfSession, longEvents, eventAt, messageEvent, hs, Ne.symm hs]

theorem not_contains_longText : ¬ Contains toAsciiLowercase "needle" longText := by
  intro h
  have hlower : (toAsciiLowercase longText).toList = replicate maxSearchCorpusChars 'x' := by
    rw [toAsciiLowercase, longText, String.toList_ofList, String.toList_ofList, map_replicate]
    rfl
  rw [Contains, hlower] at h
  have hmem : 'n' ∈ replicate maxSearchCorpusChars 'x' := h.subset (by decide)
  exact absurd (eq_of_mem_replicate hmem) (by decide)

/-- The record of a session to which events were appended that are only counted. -/
theorem get_index_appendBatch
    (hlogs : Logs store.disk logs) (hretention : store.retention = {}) (nowMs : Timestamp)
    (hevents : events ≠ []) (hfallback : (rebuildFallbacks events).get s = none) :
    (store.appendBatch nowMs events).2.index.sessions.get s =
      (eventsOfSession s events).foldl (fun record event => countEvent event record)
        (store.index.sessions.get s) := by
  obtain ⟨index, hindex, -, hget⟩ := indexAfter_eq hlogs events
  rw [FileSessionStore.appendBatch, FileSessionStore.appendLockedEvents,
    if_neg (by simpa using hevents), hindex]
  dsimp only
  rw [hretention, selectSessionsToPrune_default]
  refine (hget s).trans ?_
  rw [hfallback]
  exact get_countEvents hfallback _

/-- A message is put behind what the notification has left in the corpus. -/
theorem searchCorpus_notified {text : String}
    (h : [eventAt 1 (.notification "cli" "needle"), messageEvent 2 text].foldl
      (fun record event => countEvent event record) none = some record) :
    (∃ corpus ≠ "", record.searchCorpus = appendSearchText corpus text) ∧
      record.summary.lastUserPrompt = none := by
  have hadded : addedSearchText (messageEvent 2 text).toSessionEventEnvelope = [text] := rfl
  cases h
  refine ⟨⟨(addedSearchText (eventAt 1 (.notification "cli" "needle")).toSessionEventEnvelope).foldl
    appendSearchText "", by decide +kernel, ?_⟩, rfl⟩
  rw [searchCorpus_applyEventToRecord, hadded, foldl_cons, foldl_nil]
  dsimp only
  rw [countEvent, getD_some, searchCorpus_applyEventToRecord]
  rfl

/-- A long message cuts a notification off, and only the store in memory finds it. -/
theorem search_misses_text_before_long_message :
    ∃ store, openWithOptions emptyDisk {} 0 = .ok store ∧
      (System.run FileSessionStore.step store [.appendBatch 0 longEvents]).searchSessions
        Text.toAsciiLowercase "needle" = .ok [] ∧
      (System.run InMemorySessionStore.step {} [.appendBatch 0 longEvents]).searchSessions
        Text.toAsciiLowercase "needle" ≠ [] := by
  have hopen : openWithOptions emptyDisk {} 0 =
      .ok (applyRetention emptyDisk ⟨indexVersion, .empty⟩ {} 0) := rfl
  refine ⟨_, hopen, ?_⟩
  obtain ⟨logs, h⟩ := sameLogs_run recordInvariant_namesSession hopen
    (meets_true _ [.appendBatch 0 longEvents])
  generalize hstore :
    System.run FileSessionStore.step (applyRetention emptyDisk ⟨indexVersion, .empty⟩ {} 0)
      [.appendBatch 0 longEvents] = store at h ⊢
  have hget : ∀ s, store.index.sessions.get s =
      (eventsOfSession s longEvents).foldl (fun record event => countEvent event record) none := by
    intro s
    rw [← hstore]
    exact get_index_appendBatch (logs_emptyDisk.persistIndexFile _) rfl 0 (by simp [longEvents]) rfl
  have hid : ∀ {s record}, store.index.sessions.get s = some record →
      record.summary.sessionId = s := fun hrecord => (h.indexed hrecord).2.1
  constructor
  · rw [h.searchSessions_eq hid, filterMap_eq_nil_iff.mpr]
    · rfl
    · intro s hs
      obtain ⟨record, hrecord⟩ := isSome_iff_exists.mp (OrdMap.mem_keys.mp hs)
      have hrecord' := hrecord
      rw [hget, eventsOfSession_longEvents] at hrecord'
      split at hrecord'
      next hsession =>
        obtain ⟨⟨corpus, hcorpus, hcut⟩, hprompt⟩ := searchCorpus_notified hrecord'
        rw [hrecord, bind_some, fileSearch, if_neg]
        rw [not_or, recordMatchesQuery, hid hrecord, hcut, appendSearchText_longText hcorpus,
          hprompt, hsession]
        have hlower : toAsciiLowercase (trim "needle") = "needle" := by decide +kernel
        rw [hlower, decide_eq_false not_contains_longText]
        decide +kernel
      · cases hrecord'
  · have hlogs : logs ⟨"s"⟩ = longEvents := by
      have hmemory := h.memory ⟨"s"⟩
      rw [System.run_cons, System.run_nil, InMemorySessionStore.step,
        InMemorySessionStore.get_appendBatch, eventsOfSession_longEvents, if_pos rfl,
        memoryEntry] at hmemory
      split at hmemory
      · cases hmemory
      · exact (some.inj hmemory).symm
    intro hnil
    rw [h.memory_searchSessions_eq, map_eq_nil_iff] at hnil
    have hnone := filterMap_eq_nil_iff.mp
      (((perm_insertionSort _ _).symm.trans (.of_eq hnil)).eq_nil) ⟨"s"⟩
      (OrdMap.mem_keys.mpr (by rw [hget, eventsOfSession_longEvents, if_pos rfl]; rfl))
    rw [hlogs] at hnone
    have hfound : Found toAsciiLowercase (toAsciiLowercase (trim "needle"))
        (summaryOf ⟨"s"⟩ longEvents) (envelopes longEvents) :=
      .inr (.inr ⟨"needle", by decide +kernel, by decide +kernel⟩)
    have hsome := (isSome_searchSessionEventsRanked (by decide +kernel)).mpr hfound
    have hnone' : searchSessionEventsRanked toAsciiLowercase (summaryOf ⟨"s"⟩ longEvents)
        longEvents "needle" = none := hnone
    rw [hnone'] at hsome
    cases hsome

end Nanoclaw
