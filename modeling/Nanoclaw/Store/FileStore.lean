import Nanoclaw.Lib.Proc
import Nanoclaw.Lib.System
import Nanoclaw.Store.Index

/-!
# The File Store

A directory with one file per session, to which every event is appended as a line, and a sidecar
file with the index. An append is a list of file operations (`appendFileOps`): it writes the
events, removes the files of the sessions that are no longer kept, writes the index to a temporary
file and renames it over the sidecar.

A line is the list of the events written to it; only a line with one event can be read back.
Session identifiers are plain file names. `Logs` is the abstract content of a directory.
-/

namespace Nanoclaw

open List

inductive SessionStoreError where
  | sessionNotFound (sessionId : SessionId)
  | io
  | json

/-! ### Files -/

/-- The complete lines, and the line behind the last line break. -/
structure SessionFile where
  closed : List (List StampedEvent) := []
  last : List StampedEvent := []

variable (events : List StampedEvent)

namespace SessionFile

def lines (file : SessionFile) : List (List StampedEvent) :=
  file.closed ++ [file.last]

/-- `load_events_from_path`: empty lines are skipped, a line has to be one event. -/
def load (file : SessionFile) : Except SessionStoreError (List StampedEvent) :=
  if file.lines.all fun line => decide (line.length ≤ 1) then .ok file.lines.flatten
  else .error .json

def writeEvent (event : StampedEvent) (file : SessionFile) : SessionFile :=
  { file with last := file.last ++ [event] }

def writeNewline (file : SessionFile) : SessionFile where
  closed := file.closed ++ [file.last]
  last := []

/-- The file with one line for each event. -/
def ofEvents (events : List StampedEvent) : SessionFile where
  closed := events.map fun event => [event]

theorem load_ofEvents : (ofEvents events).load = .ok events := by
  have hall : (ofEvents events).lines.all (fun line => decide (line.length ≤ 1)) = true := by
    simp [lines, ofEvents]
  rw [load, if_pos hall]
  simp only [lines, ofEvents, flatten_append, flatten_singleton, append_nil]
  rw [← flatMap_def, flatMap_singleton']

theorem writeNewline_writeEvent_ofEvents (event : StampedEvent) :
    ((ofEvents events).writeEvent event).writeNewline = ofEvents (events ++ [event]) := by
  simp [ofEvents, writeEvent, writeNewline]

end SessionFile

/-! ### The directory -/

structure Disk where
  files : OrdMap SessionId SessionFile
  temp : Option FileSessionStoreIndex := none
  /-- The index of the sidecar file; none if it cannot be read. -/
  sidecar : Option FileSessionStoreIndex := none

inductive FileOp where
  /-- Open for appending; the file is created if it is missing. -/
  | openFile (sessionId : SessionId)
  | writeEvent (event : StampedEvent)
  | writeNewline (sessionId : SessionId)
  | removeFile (sessionId : SessionId)
  | writeTemp (index : FileSessionStoreIndex)
  | renameTemp

namespace Disk

variable (disk : Disk)

def apply : FileOp → Disk
  | .openFile sessionId =>
    { disk with files := disk.files.alter sessionId fun file => some (file.getD {}) }
  | .writeEvent event =>
    { disk with files := disk.files.alter event.sessionId (Option.map (·.writeEvent event)) }
  | .writeNewline sessionId =>
    { disk with files := disk.files.alter sessionId (Option.map (·.writeNewline)) }
  | .removeFile sessionId => { disk with files := disk.files.erase sessionId }
  | .writeTemp index => { disk with temp := some index }
  | .renameTemp => { disk with sidecar := disk.temp, temp := none }

def run (ops : List FileOp) : Disk :=
  ops.foldl apply disk

@[simp] theorem run_nil : disk.run [] = disk := rfl

@[simp] theorem run_cons (op : FileOp) (ops : List FileOp) :
    disk.run (op :: ops) = (disk.apply op).run ops := rfl

theorem run_append (ops later : List FileOp) : disk.run (ops ++ later) = (disk.run ops).run later :=
  foldl_append

def load (sessionId : SessionId) : Except SessionStoreError (List StampedEvent) :=
  match disk.files.get sessionId with
  | some file => file.load
  | none => .error .io

/-- The events of a session on disk. -/
def eventsOf (sessionId : SessionId) : List StampedEvent :=
  (disk.files.get sessionId).elim [] fun file => file.lines.flatten

end Disk

/-- The events of one session among those of a batch. -/
def eventsOfSession (sessionId : SessionId) (events : List StampedEvent) : List StampedEvent :=
  events.filter fun event => decide (event.sessionId = sessionId)

/-- The writes of a batch; `active` is the session whose file is open. -/
def writeOps : Option SessionId → List StampedEvent → List FileOp
  | _, [] => []
  | active, event :: events =>
    (if active = some event.sessionId then [] else [.openFile event.sessionId]) ++
      [.writeEvent event, .writeNewline event.sessionId] ++
      writeOps (some event.sessionId) events

/-- Write the index beside the sidecar and move it there. -/
def persistIndexFile (index : FileSessionStoreIndex) : List FileOp :=
  [.writeTemp index, .renameTemp]

/-! ### The store -/

structure FileSessionStore where
  disk : Disk
  index : FileSessionStoreIndex
  retention : SessionStoreRetentionPolicy

/-- The last event of each session for which the record has to be rebuilt. -/
def rebuildFallbacks (events : List StampedEvent) : OrdMap SessionId StampedEvent :=
  (events.filter fun event => rebuildIndexRecord event.event).foldl
    (fun fallbacks event => fallbacks.insert event.sessionId event) .empty

/-- A record rebuilt from the events of a file. -/
def rebuiltRecord (loaded : List StampedEvent) (fallback : StampedEvent) : IndexedSessionRecord :=
  (indexedRecordFromEvents loaded).getD (defaultIndexedRecord fallback)

/-- The records rebuilt from the files. -/
def rebuiltRecords (disk : Disk) (events : List StampedEvent) :
    Except SessionStoreError (List (SessionId × IndexedSessionRecord)) :=
  (rebuildFallbacks events).entries.mapM fun (sessionId, fallback) => do
    let loaded ← disk.load sessionId
    return (sessionId, rebuiltRecord loaded fallback)

def FileSessionStoreIndex.without (index : FileSessionStoreIndex) (pruned : List SessionId) :
    FileSessionStoreIndex :=
  { index with sessions := pruned.foldl (fun sessions id => sessions.erase id) index.sessions }

/-- Count one event in the record of its session. -/
def countEvent (event : StampedEvent) (record : Option IndexedSessionRecord) :
    Option IndexedSessionRecord :=
  some (applyEventToRecord (record.getD (defaultIndexedRecord event)) event)

/-- The first event is counted as in an empty record. -/
theorem countEvent_eq (event : StampedEvent) (record : Option IndexedSessionRecord) :
    countEvent event record =
      some (applyEventToRecord (record.getD (emptyRecord event.sessionId)) event) := by
  cases record with
  | none => exact congrArg some (applyEventToRecord_default event)
  | some record => rfl

/-- Count the events of the sessions whose record is not rebuilt. -/
def countEvents (events : List StampedEvent) (sessions : OrdMap SessionId IndexedSessionRecord) :
    OrdMap SessionId IndexedSessionRecord :=
  (events.filter fun event => ((rebuildFallbacks events).get event.sessionId).isNone).foldl
    (fun sessions event => sessions.alter event.sessionId (countEvent event)) sessions

namespace FileSessionStore

variable (store : FileSessionStore)

/-- The index after the events are counted, before sessions are pruned. -/
def indexAfter (events : List StampedEvent) : Except SessionStoreError FileSessionStoreIndex := do
  let rebuilt ← rebuiltRecords (store.disk.run (writeOps none events)) events
  return { store.index with
    sessions := rebuilt.foldl (fun sessions entry => sessions.insert entry.1 entry.2)
      (countEvents events store.index.sessions) }

/-- **The file operations of an append**, in their order. -/
def appendFileOps (nowMs : Timestamp) (events : List StampedEvent) : List FileOp :=
  if events.isEmpty then []
  else writeOps none events ++
    match store.indexAfter events with
    | .error _ => []
    | .ok index =>
      let pruned := selectSessionsToPrune index store.retention nowMs
      pruned.map .removeFile ++ persistIndexFile (index.without pruned)

def appendLockedEvents (nowMs : Timestamp)
    (events : List StampedEvent) : Except SessionStoreError Unit × FileSessionStore :=
  if events.isEmpty then (.ok (), store)
  else
    let disk := store.disk.run (store.appendFileOps nowMs events)
    match store.indexAfter events with
    | .error error => (.error error, { store with disk })
    | .ok index =>
      let pruned := selectSessionsToPrune index store.retention nowMs
      (.ok (), { store with disk, index := index.without pruned })

def append (nowMs : Timestamp) (event : StampedEvent) :
    Except SessionStoreError Unit × FileSessionStore :=
  store.appendLockedEvents nowMs [event]

def appendBatch (nowMs : Timestamp) (events : List StampedEvent) :
    Except SessionStoreError Unit × FileSessionStore :=
  store.appendLockedEvents nowMs events

end FileSessionStore

/-! ### Opening -/

def rebuildIndex (disk : Disk) : Except SessionStoreError FileSessionStoreIndex := do
  let loaded ← disk.files.entries.mapM fun (sessionId, file) => do
    return (sessionId, ← file.load)
  let sessions := loaded.foldl (fun sessions entry =>
    match indexedRecordFromEvents entry.2 with
    | some record => sessions.insert entry.1 record
    | none => sessions) .empty
  return { version := indexVersion, sessions }

/-- The sidecar is used if it has the sessions that have a file. -/
def loadOrRebuildIndex (disk : Disk) : Except SessionStoreError FileSessionStoreIndex :=
  match disk.sidecar with
  | some index =>
    if index.version = indexVersion ∧ index.sessions.keys = disk.files.keys then .ok index
    else rebuildIndex disk
  | none => rebuildIndex disk

/-- Prune the sessions that are no longer kept and write the sidecar. -/
def applyRetention (disk : Disk) (index : FileSessionStoreIndex)
    (retention : SessionStoreRetentionPolicy) (nowMs : Timestamp) : FileSessionStore :=
  let pruned := selectSessionsToPrune index retention nowMs
  let index := index.without pruned
  { disk := disk.run (pruned.map .removeFile ++ persistIndexFile index), index, retention }

def openWithOptions (disk : Disk) (retention : SessionStoreRetentionPolicy) (nowMs : Timestamp) :
    Except SessionStoreError FileSessionStore := do
  let index ← loadOrRebuildIndex disk
  return applyRetention disk index retention nowMs

/-! ### The logs of a directory -/

theorem SessionFile.flatten_ofEvents : (ofEvents events).lines.flatten = events := by
  have hload := load_ofEvents events
  unfold load at hload
  split at hload
  · exact Except.ok.inj hload
  · cases hload

/-- **What a directory holds**: a log for every session; a session without events has no
file. -/
structure Logs (disk : Disk) (logs : SessionId → List StampedEvent) : Prop where
  file : ∀ s, disk.files.get s = if logs s = [] then none else some (.ofEvents (logs s))
  own : ∀ s, ∀ event ∈ logs s, event.sessionId = s

namespace Logs

variable {disk : Disk} {logs : SessionId → List StampedEvent} (h : Logs disk logs)

include h

theorem isSome_file (s : SessionId) : (disk.files.get s).isSome = decide (logs s ≠ []) := by
  rw [h.file]
  split <;> simp_all

theorem eventsOf (s : SessionId) : disk.eventsOf s = logs s := by
  unfold Disk.eventsOf
  rw [h.file]
  split
  next hnil => exact hnil.symm
  · exact SessionFile.flatten_ofEvents _

theorem load {s : SessionId} (hs : logs s ≠ []) : disk.load s = .ok (logs s) := by
  rw [Disk.load, h.file, if_neg hs]
  exact SessionFile.load_ofEvents _

end Logs

/-! ### The writes of a batch -/

/-- One event written to the file of its session. -/
def writeLine (event : StampedEvent) (file : Option SessionFile) : Option SessionFile :=
  some (((file.getD {}).writeEvent event).writeNewline)

/-- What a batch leaves in a file. That of the active session exists. -/
theorem get_run_writeOps (active : Option SessionId) (disk : Disk)
    (hactive : ∀ s ∈ active, (disk.files.get s).isSome = true) (s : SessionId) :
    (disk.run (writeOps active events)).files.get s =
      (eventsOfSession s events).foldl (fun file event => writeLine event file)
        (disk.files.get s) := by
  induction events generalizing active disk with
  | nil => rfl
  | cons event events ih =>
    -- Opening, writing and ending the line come down to one change of the file.
    have hfirst : ∀ s, (disk.run
        ((if active = some event.sessionId then [] else [.openFile event.sessionId]) ++
          [.writeEvent event, .writeNewline event.sessionId])).files.get s =
        if s = event.sessionId then writeLine event (disk.files.get s)
        else disk.files.get s := by
      split
      next hopen =>
        obtain ⟨file, hfile⟩ := Option.isSome_iff_exists.mp (hactive _ hopen)
        simp only [nil_append, Disk.run_cons, Disk.run_nil, Disk.apply, OrdMap.get_alter]
        split <;> simp_all [writeLine]
      · simp only [singleton_append, Disk.run_cons, Disk.run_nil, Disk.apply, OrdMap.get_alter]
        split <;> simp_all [writeLine]
    rw [writeOps, Disk.run_append, ih, hfirst]
    · by_cases hs : event.sessionId = s
      · subst hs
        rw [if_pos rfl, eventsOfSession, eventsOfSession, filter_cons_of_pos (by simp), foldl_cons]
      · rw [if_neg (Ne.symm hs), eventsOfSession, eventsOfSession,
          filter_cons_of_neg (by simpa using hs)]
    · rintro s ⟨⟩
      rw [hfirst, if_pos rfl]
      rfl

theorem foldl_writeLine (logged later : List StampedEvent) :
    later.foldl (fun file event => writeLine event file)
        (if logged = [] then none else some (.ofEvents logged)) =
      if logged ++ later = [] then none else some (.ofEvents (logged ++ later)) := by
  induction later generalizing logged with
  | nil => simp
  | cons event later ih =>
    have hline : writeLine event (if logged = [] then none else some (.ofEvents logged)) =
        if logged ++ [event] = [] then none else some (.ofEvents (logged ++ [event])) := by
      rw [if_neg (by simp : logged ++ [event] ≠ []), ← SessionFile.writeNewline_writeEvent_ofEvents]
      by_cases hnil : logged = []
      · subst hnil
        rfl
      · rw [if_neg hnil]
        rfl
    rw [foldl_cons, hline, ih]
    simp

/-- Removed files are gone, the others are as before. -/
theorem get_run_removeFiles (disk : Disk) (pruned : List SessionId) (s : SessionId) :
    (disk.run (pruned.map .removeFile)).files.get s =
      if s ∈ pruned then none else disk.files.get s := by
  convert OrdMap.get_foldl_erase pruned disk.files s using 2
  induction pruned generalizing disk with
  | nil => rfl
  | cons id pruned ih => exact ih _

variable {logs : SessionId → List StampedEvent} {disk : Disk}

section

variable (h : Logs disk logs)

include h

/-- **The writes of an append extend the logs** of its sessions. -/
theorem Logs.append :
    Logs (disk.run (writeOps none events)) fun s => logs s ++ eventsOfSession s events where
  file s := by
    rw [get_run_writeOps events none disk (by simp), h.file, foldl_writeLine]
  own s := forall_mem_append.mpr
    ⟨h.own s, fun event hevent => of_decide_eq_true (mem_filter.mp hevent).2⟩

theorem Logs.removeFiles (pruned : List SessionId) :
    Logs (disk.run (pruned.map .removeFile)) fun s => if s ∈ pruned then [] else logs s where
  file s := by
    rw [get_run_removeFiles, h.file]
    split <;> simp
  own s event hevent := by
    split at hevent
    · cases hevent
    · exact h.own s event hevent

/-- The index files are no session files. -/
theorem Logs.persistIndexFile (index : FileSessionStoreIndex) :
    Logs (disk.run (persistIndexFile index)) logs :=
  ⟨h.file, h.own⟩

/-! ### A rebuilt index -/

/-- Every file can be read. -/
def Disk.Readable (disk : Disk) : Prop :=
  ∀ s file, disk.files.get s = some file → file.load = .ok file.lines.flatten

theorem Logs.readable : disk.Readable := by
  intro s file hfile
  rw [h.file] at hfile
  split at hfile
  · cases hfile
  · cases hfile
    rw [SessionFile.load_ofEvents, SessionFile.flatten_ofEvents]

end

/-- **A rebuilt index** has the record of every log. -/
theorem rebuildIndex_eq (h : disk.Readable) :
    ∃ index, rebuildIndex disk = .ok index ∧ index.version = indexVersion ∧
      ∀ s, index.sessions.get s = indexedRecordFromEvents (disk.eventsOf s) := by
  have hloaded : (disk.files.entries.mapM fun (sessionId, file) => do
      return (sessionId, ← file.load) : Except SessionStoreError _) =
        .ok (disk.files.entries.map fun entry => (entry.1, entry.2.lines.flatten)) := by
    refine Proc.except_mapM_eq fun (sessionId, file) hentry => ?_
    dsimp only
    rw [h sessionId file (OrdMap.mem_entries.mp hentry)]
    rfl
  refine ⟨_, by rw [rebuildIndex, hloaded]; rfl, rfl, fun s => ?_⟩
  have halter : ∀ (sessions : OrdMap SessionId IndexedSessionRecord) (id : SessionId)
      (record : Option IndexedSessionRecord),
      (match record with
        | some record => sessions.insert id record
        | none => sessions) = sessions.alter id fun old => record.or old := by
    intro sessions id record
    ext1 k
    rw [OrdMap.get_alter]
    cases record with
    | none => split <;> simp_all
    | some record => exact OrdMap.get_insert ..
  rw [foldl_map]
  simp only [halter]
  rw [OrdMap.get_foldl_entries disk.files
    (fun entry old => (indexedRecordFromEvents entry.2.lines.flatten).or old) .empty]
  unfold Disk.eventsOf
  cases disk.files.get s with
  | none => rfl
  | some file => exact Option.or_none

@[simp] theorem sidecar_persistIndexFile (disk : Disk) (index : FileSessionStoreIndex) :
    (disk.run (persistIndexFile index)).sidecar = some index := rfl

end Nanoclaw
