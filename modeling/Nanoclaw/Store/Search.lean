import Nanoclaw.Store.IndexInvariant

/-!
# Searching Sessions

A search looks for a query in the identifier of a session, its last prompt, its visible messages
and the searchable strings of its events, and shows up to three previews
(`searchSessionEventsRanked`). The file store first asks the index which sessions may match. Case
is ignored by the Unicode tables, a parameter `lower`. The results are sorted by an order in
which only results for the same session are equal.
-/

namespace Nanoclaw

open List

structure SessionSearchResult where
  summary : SessionSummary
  matchedEventCount : ℕ
  previewMatches : List String

structure RankedSessionSearchResult where
  result : SessionSearchResult
  promptMatch : Bool
  sessionIdMatch : Bool
  metadataMatchCount : ℕ
  transcriptMatchCount : ℕ

/-! ### One session -/

section Ranked

variable (lower : String → String) (queryLower : String)

/-- A text contains the query, which is in lower case already. -/
def Contains (text : String) : Prop :=
  queryLower.toList <:+: (lower text).toList

instance (text : String) : Decidable (Contains lower queryLower text) :=
  inferInstanceAs (Decidable (_ <:+: _))

def eventMatches (event : SessionEventEnvelope) : List String :=
  (searchableSessionEventStrings event).filter fun candidate =>
    decide (Contains lower queryLower candidate)

/-- What is shown for an event that matches. -/
def previewCandidates (event : SessionEventEnvelope) : List String :=
  let previewable := previewableEventStrings event
  let matching := previewable.filter fun candidate => decide (Contains lower queryLower candidate)
  if !matching.isEmpty then matching
  else if previewable.isEmpty then eventMatches lower queryLower event
  else previewable

def pushPreviews : List String → List String → List String
  | previews, [] => previews
  | previews, candidate :: candidates =>
    if previews.length = 3 then previews
    else pushPreviews (pushUniquePreview previews (previewText candidate 80)) candidates

/-- The loop over the events, which ends with the third preview. -/
def metadataMatches (count : ℕ) (previews : List String) :
    List SessionEventEnvelope → ℕ × List String
  | [] => (count, previews)
  | event :: events =>
    if (eventMatches lower queryLower event).isEmpty then metadataMatches count previews events
    else
      let previews := pushPreviews previews (previewCandidates lower queryLower event)
      if previews.length = 3 then (count + 1, previews)
      else metadataMatches (count + 1) previews events

/-- The loop over the visible messages. -/
def transcriptMatches (messages : List Message) : ℕ × List String :=
  messages.foldl (fun (count, previews) message =>
    if Contains lower queryLower message.textContent then
      (count + 1,
        if previews.length < 3 then
          pushUniquePreview previews (previewText (messageOperatorText message) 80)
        else previews)
    else (count, previews)) (0, [])

end Ranked

def searchSessionEventsRanked (lower : String → String) (summary : SessionSummary)
    (events : List StampedEvent) (query : String) : Option RankedSessionSearchResult :=
  let query := Text.trim query
  if query.isEmpty then
    some
      { result := { summary, matchedEventCount := 0, previewMatches := [] }
        promptMatch := false
        sessionIdMatch := false
        metadataMatchCount := 0
        transcriptMatchCount := 0 }
  else
    let queryLower := lower query
    let sessionIdMatch := decide (Contains lower queryLower summary.sessionId.value)
    let promptMatch :=
      summary.lastUserPrompt.any fun prompt => decide (Contains lower queryLower prompt)
    let transcript :=
      transcriptMatches lower queryLower (Store.visibleTranscript (envelopes events))
    let metadata := metadataMatches lower queryLower 0 [] (envelopes events)
    let previewMatches :=
      ((if sessionIdMatch then ["session id: " ++ summary.sessionId.value] else []) ++
        (if promptMatch then ["prompt: " ++ previewText (summary.lastUserPrompt.getD "") 80]
          else []) ++
        metadata.2 ++ transcript.2).take 3
    if previewMatches.isEmpty then none
    else some
      { result := { summary, matchedEventCount := metadata.1 + transcript.1, previewMatches }
        promptMatch
        sessionIdMatch
        metadataMatchCount := metadata.1
        transcriptMatchCount := transcript.1 }

/-! ### Order of the results -/

def compareRanked (left right : RankedSessionSearchResult) : Ordering :=
  (compare right.promptMatch left.promptMatch).then <|
  (compare right.sessionIdMatch left.sessionIdMatch).then <|
  (compare right.metadataMatchCount left.metadataMatchCount).then <|
  (compare right.transcriptMatchCount left.transcriptMatchCount).then <|
  (compare right.result.matchedEventCount left.result.matchedEventCount).then <|
  (compare right.result.summary.lastTimestampMs left.result.summary.lastTimestampMs).then <|
  compare left.result.summary.sessionId right.result.summary.sessionId

def sortRankedSessionSearchResults (results : List RankedSessionSearchResult) :
    List RankedSessionSearchResult :=
  results.insertionSort fun left right => (compareRanked left right).isLE

def compareSummaries (left right : SessionSummary) : Ordering :=
  (compare right.lastTimestampMs left.lastTimestampMs).then <|
  compare left.sessionId right.sessionId

def sortSessionSummaries (sessions : List SessionSummary) : List SessionSummary :=
  sessions.insertionSort fun left right => (compareSummaries left right).isLE

/-! ### The store in memory -/

/-- The sessions with their events. -/
structure InMemorySessionStore where
  events : OrdMap SessionId (List StampedEvent) := .empty

namespace InMemorySessionStore

def append (store : InMemorySessionStore) (event : StampedEvent) : InMemorySessionStore where
  events := store.events.alter event.sessionId fun events => some (events.getD [] ++ [event])

def appendBatch (store : InMemorySessionStore) (events : List StampedEvent) :
    InMemorySessionStore :=
  events.foldl append store

def searchSessions (lower : String → String) (store : InMemorySessionStore) (query : String) :
    List SessionSearchResult :=
  let found := store.events.entries.filterMap fun (sessionId, events) => do
    let summary ← summarizeSessionEvents sessionId events
    searchSessionEventsRanked lower summary events query
  (sortRankedSessionSearchResults found).map (·.result)

end InMemorySessionStore

/-! ### The file store -/

def recordMatchesQuery (lower : String → String) (record : IndexedSessionRecord)
    (queryLower : String) : Bool :=
  decide (Contains lower queryLower record.summary.sessionId.value) ||
    (record.summary.lastUserPrompt.any fun prompt => decide (Contains lower queryLower prompt)) ||
    decide (Contains lower queryLower record.searchCorpus)

namespace FileSessionStore

def events (store : FileSessionStore) (sessionId : SessionId) :
    Except SessionStoreError (List StampedEvent) :=
  match store.disk.files.get sessionId with
  | none => .error (.sessionNotFound sessionId)
  | some file => file.load

def listSessions (store : FileSessionStore) : List SessionSummary :=
  sortSessionSummaries (store.index.sessions.values.map (·.summary))

/-- The replay of a session that the index does not rule out. -/
def searchCandidate (lower : String → String) (store : FileSessionStore) (query : String)
    (summary : SessionSummary) :
    Except SessionStoreError (Option RankedSessionSearchResult) := do
  let events ← store.events summary.sessionId
  return searchSessionEventsRanked lower summary events query

def searchSessions (lower : String → String) (store : FileSessionStore) (query : String) :
    Except SessionStoreError (List SessionSearchResult) :=
  let query := Text.trim query
  if query.isEmpty then
    .ok (store.listSessions.map fun summary =>
      { summary, matchedEventCount := 0, previewMatches := [] })
  else do
    let queryLower := lower query
    let candidateSummaries := (store.index.sessions.values.filter fun record =>
      recordMatchesQuery lower record queryLower).map (·.summary)
    let found ← candidateSummaries.mapM (store.searchCandidate lower query)
    return (sortRankedSessionSearchResults (found.filterMap id)).map (·.result)

end FileSessionStore

/-! ### Matches of a result -/

/-- What is searched beside the identifier and the last prompt. -/
def searchedStrings (events : List SessionEventEnvelope) : List String :=
  events.flatMap searchableSessionEventStrings ++
    (Store.visibleTranscript events).map Message.textContent

/-- Something of the session matches. -/
def Found (lower : String → String) (queryLower : String) (summary : SessionSummary)
    (events : List SessionEventEnvelope) : Prop :=
  Contains lower queryLower summary.sessionId.value ∨
    (∃ prompt ∈ summary.lastUserPrompt, Contains lower queryLower prompt) ∨
    ∃ value ∈ searchedStrings events, Contains lower queryLower value

section Found

variable {lower : String → String} {queryLower : String} {events : List SessionEventEnvelope}
  {messages : List Message} {previews : List String} {summary : SessionSummary} {query : String}

theorem pushUniquePreview_ne_nil (previews : List String) (candidate : String) :
    pushUniquePreview previews candidate ≠ [] := by
  rw [pushUniquePreview]
  split
  next hany =>
    rintro rfl
    simp at hany
  · simp

theorem pushPreviews_ne_nil {candidates : List String} (h : previews ≠ [] ∨ candidates ≠ []) :
    pushPreviews previews candidates ≠ [] := by
  induction candidates generalizing previews with
  | nil => simpa [pushPreviews] using h
  | cons candidate candidates ih =>
    rw [pushPreviews]
    split
    next hfull =>
      rintro rfl
      cases hfull
    · exact ih (.inl (pushUniquePreview_ne_nil _ _))

theorem previewCandidates_ne_nil {event : SessionEventEnvelope}
    (h : eventMatches lower queryLower event ≠ []) :
    previewCandidates lower queryLower event ≠ [] := by
  simp only [previewCandidates]
  split
  next hmatching => simpa using hmatching
  · split
    · exact h
    next hpreviewable => simpa using hpreviewable

/-- Every event that matches has a preview. -/
theorem metadataMatches_eq_nil (count : ℕ) :
    (metadataMatches lower queryLower count previews events).2 = [] ↔
      previews = [] ∧ ∀ event ∈ events, eventMatches lower queryLower event = [] := by
  induction events generalizing count previews with
  | nil => simp [metadataMatches]
  | cons event events ih =>
    rw [metadataMatches, forall_mem_cons]
    split
    next hempty => simp [ih, isEmpty_iff.mp hempty]
    next hmatches =>
      rw [List.isEmpty_iff] at hmatches
      have hpushed : pushPreviews previews (previewCandidates lower queryLower event) ≠ [] :=
        pushPreviews_ne_nil (.inr (previewCandidates_ne_nil hmatches))
      dsimp only
      split <;> simp [ih, hpushed, hmatches]

/-- Every visible message that matches has a preview. -/
theorem transcriptMatches_eq_nil : (transcriptMatches lower queryLower messages).2 = [] ↔
      ∀ message ∈ messages, ¬ Contains lower queryLower message.textContent := by
  rw [transcriptMatches]
  induction messages using reverseRecOn with
  | nil => simp
  | append_singleton messages message ih =>
    rw [foldl_append, foldl_cons, foldl_nil, forall_mem_append, ← ih]
    obtain ⟨count, previews⟩ := messages.foldl _ (0, ([] : List String))
    dsimp only
    split
    next hmatch =>
      have hpushed : (if previews.length < 3 then
          pushUniquePreview previews (previewText (messageOperatorText message) 80)
        else previews) ≠ [] := by
        split
        · exact pushUniquePreview_ne_nil _ _
        next hfull =>
          rintro rfl
          exact hfull (by decide)
      simp [hpushed, hmatch]
    next hmatch => simp [hmatch]

/-- **A session is in the results exactly if something of it matches.** -/
theorem isSome_searchSessionEventsRanked {events : List StampedEvent}
    (hquery : (Text.trim query).isEmpty = false) :
    (searchSessionEventsRanked lower summary events query).isSome = true ↔
      Found lower (lower (Text.trim query)) summary (envelopes events) := by
  -- Every kind of match leaves a preview.
  rw [← not_iff_not]
  simp only [searchSessionEventsRanked, hquery, Bool.false_eq_true, if_false, Bool.not_eq_true,
    Option.isSome_eq_false_iff, Option.isNone_iff_eq_none, ite_eq_left_iff, reduceCtorEq,
    imp_false, not_not, List.isEmpty_iff, take_eq_nil_iff, append_eq_nil_iff,
    false_or, metadataMatches_eq_nil, transcriptMatches_eq_nil, Found, searchedStrings]
  cases summary.lastUserPrompt <;> simp [eventMatches, and_assoc] <;> grind

end Found

end Nanoclaw
