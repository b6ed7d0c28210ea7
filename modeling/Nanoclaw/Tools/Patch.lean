import Nanoclaw.Lib.FileEdits
import Nanoclaw.Lib.SortedMap
import Nanoclaw.Tools.TextEdit
import Nanoclaw.Types.Path

/-!
# Patches

`patch_files` takes a list of operations on files and makes them as one patch. The operations are
staged first: each of them sees what the ones before it have staged. If one fails, nothing was
written. Then the files that have changed are committed in the order of their paths, and the
change is recorded as a checkpoint. A file is staged under its resolved path; through links and
`..` there may be several paths to one file.

What a patch asks for is said again by `requested`, with no staging: every operation has an
`effect` on the texts that it is given.
-/

namespace Nanoclaw.Tools

open SortedMap

/-! ### Operations -/

inductive PatchOperation where
  | write (path content : String) (ifExists : Option WriteExistingBehavior)
      (ifMissing : Option WriteMissingBehavior) (expectedSnapshot : Option String)
  | edit (path : String) (edits : List TextEditOperation) (expectedSnapshot : Option String)
  | delete (path : String) (expectedSnapshot : Option String) (ignoreMissing : Option Bool)
  | move (fromPath toPath : String) (expectedSnapshot : Option String)
      (ifDestinationExists : Option WriteExistingBehavior) (ignoreMissing : Option Bool)

namespace PatchOperation

def commandName : PatchOperation → String
  | write .. => "write"
  | edit .. => "edit"
  | delete .. => "delete"
  | move .. => "move"

def primaryPath : PatchOperation → String
  | write path .. | edit path .. | delete path .. => path
  | move fromPath .. => fromPath

end PatchOperation

/-! ### The disk -/

/-- What is in a file: a text, or something that is not one. -/
inductive FileData where
  | text (content : String)
  | binary (bytes : List UInt8)
  deriving DecidableEq

variable (ctx : ToolExecutionContext)

abbrev Disk : Type :=
  FileTree FileName FileData

/-- What a tool knows of its surroundings. -/
structure ToolExecutionContext where
  /-- `resolve_tool_path_against_workspace_root`. -/
  resolveToolPath : String → Except ToolError PathBuf
  assertPathWriteAllowed : PathBuf → Except ToolError Unit
  /-- Where the system finds the file of a path, or makes it. -/
  locate : PathBuf → List FileName
  /-- Where the path itself leads: to the same place, or to a link. -/
  entry : PathBuf → List FileName
  /-- The system refuses to read the file, for reasons that are not in the tree. -/
  unreadable : PathBuf → Bool
  /-- The system refuses to change the file, for reasons that are not in the tree. -/
  unwritable : PathBuf → Bool
  /-- The answer of the checkpoint handler, if there is one. -/
  checkpoint : Option (Except ToolError String)
  stableTextHash : String → String

def loadOptionalTextFile (disk : Disk) (path : PathBuf) : Except ToolError (Option String) :=
  if ctx.unreadable path then .error .io
  else
    match disk.read (ctx.locate path) with
    | .absent => .ok none
    | .found (.text content) => .ok (some content)
    | .found (.binary _) | .refused => .error .io

/-- The path ends in a link. -/
def endsInLink (disk : Disk) (path : PathBuf) : Bool :=
  (disk.node (ctx.entry path)).any FileTree.Node.isLink

/-- `remove_file` takes a link away, but not the file it leads to. -/
def removedPlace (disk : Disk) (path : PathBuf) : List FileName :=
  if endsInLink ctx disk path && (disk.fileAt (ctx.locate path)).isSome then ctx.entry path
  else ctx.locate path

theorem removedPlace_ne_dir {ctx : ToolExecutionContext} {disk : Disk} {path : PathBuf}
    (h : disk.Open (ctx.locate path)) : disk.node (removedPlace ctx disk path) ≠ some .dir := by
  unfold removedPlace endsInLink
  split
  next hlink =>
    intro hdir
    simp [hdir, FileTree.Node.isLink] at hlink
  · exact h.not_dir

/-- Write a file and its directories, or remove it; a refusal keeps all files. -/
def commitTextFile (disk : Disk) (path : PathBuf)
    (content : Option String) : Except ToolError Unit × Disk :=
  if h : ctx.unwritable path = false ∧ disk.Open (ctx.locate path) then
    match content with
    | some content => (.ok (), disk.write (ctx.locate path) (.text content) h.2)
    | none => (.ok (), disk.remove (removedPlace ctx disk path) (removedPlace_ne_dir h.2))
  else (.error .io, disk)

/-! ### Staging -/

structure StagedFile where
  displayPath : String
  resolvedPath : PathBuf
  baselineContent : Option String
  content : Option String

/-- What is reported of an operation. -/
structure OperationRecord where
  index : ℕ
  command : String
  summary : String
  snapshotBefore : Option String
  snapshotAfter : Option String
  deriving DecidableEq

/-- The result for an operation that failed. -/
structure PatchRejection where
  summary : String
  failedPath : String
  failedOperationIndex : ℕ
  appliedOperations : List OperationRecord
  deriving DecidableEq

/-- Why staging ends early: with an error, or with a result that is one. -/
inductive Halt where
  | failed (error : ToolError)
  | rejected (result : PatchRejection)

structure Staging where
  staged : List (PathBuf × StagedFile) := []
  operations : List OperationRecord := []

def insertStaged (path : PathBuf) (entry : StagedFile) (staged : List (PathBuf × StagedFile)) :
    List (PathBuf × StagedFile) :=
  alter path (fun _ => some entry) staged

/-- The entry is taken out of the map; it is put back when it has changed. -/
def stageEntryByResolved (disk : Disk) (displayPath : String)
    (resolved : PathBuf) (staged : List (PathBuf × StagedFile)) :
    Except Halt (StagedFile × List (PathBuf × StagedFile)) :=
  match get resolved staged with
  | some entry => .ok (entry, alter resolved (fun _ => none) staged)
  | none =>
    match loadOptionalTextFile ctx disk resolved with
    | .error error => .error (.failed error)
    | .ok content =>
      .ok ({ displayPath, resolvedPath := resolved, baselineContent := content, content }, staged)

def resolveAllowed (path : String) : Except Halt PathBuf :=
  match ctx.resolveToolPath path with
  | .error error => .error (.failed error)
  | .ok resolved =>
    match ctx.assertPathWriteAllowed resolved with
    | .error error => .error (.failed error)
    | .ok () => .ok resolved

/-- Both paths of a move are resolved before one of them is checked. -/
def resolveMove (fromPath toPath : String) : Except Halt (PathBuf × PathBuf) :=
  match ctx.resolveToolPath fromPath, ctx.resolveToolPath toPath with
  | .error error, _ | .ok _, .error error => .error (.failed error)
  | .ok fromResolved, .ok toResolved =>
    match ctx.assertPathWriteAllowed fromResolved, ctx.assertPathWriteAllowed toResolved with
    | .error error, _ | .ok (), .error error => .error (.failed error)
    | .ok (), .ok () => .ok (fromResolved, toResolved)

def patchErrorResult (operation : PatchOperation) (index : ℕ) (applied : List OperationRecord)
    (summary : String) : Halt :=
  .rejected {
    summary
    failedPath := operation.primaryPath
    failedOperationIndex := index
    appliedOperations := applied }

/-- An operation on one file. -/
def stageMutation (disk : Disk) (operation : PatchOperation)
    (index : ℕ) (path : String) (mutate : Option String → Except ToolError MutationOutcome)
    (staging : Staging) : Except Halt Staging := do
  let resolved ← resolveAllowed ctx path
  let (entry, staged) ← stageEntryByResolved ctx disk path resolved staging.staged
  match mutate entry.content with
  | .error error => .error (.failed error)
  | .ok outcome =>
    if outcome.isError then
      .error (patchErrorResult operation index staging.operations outcome.summary)
    else
      .ok {
        staged := insertStaged entry.resolvedPath { entry with content := outcome.nextContent }
          staged
        operations := staging.operations ++ [{
          index
          command := operation.commandName
          summary := outcome.summary
          snapshotBefore := outcome.snapshotBefore
          snapshotAfter := outcome.snapshotAfter }] }

/-- The rest of a move, with the text of its source. -/
def stageMoveTo (disk : Disk) (operation : PatchOperation)
    (index : ℕ) (fromPath toPath : String) (fromResolved toResolved : PathBuf)
    (expectedSnapshot : Option String) (ifDestinationExists : WriteExistingBehavior)
    (fromEntry : StagedFile) (content : String) (staged : List (PathBuf × StagedFile))
    (operations : List OperationRecord) : Except Halt Staging :=
  let snapshotBefore := ctx.stableTextHash content
  match expectedSnapshot with
  | some expected =>
    if snapshotBefore ≠ expected then
      .error (patchErrorResult operation index operations ("Snapshot mismatch for " ++ fromPath ++
        ". Expected " ++ expected ++ ", re-read before moving."))
    else moveContent snapshotBefore
  | none => moveContent snapshotBefore
where
  moveContent (snapshotBefore : String) : Except Halt Staging := do
    let (toEntry, staged) ← stageEntryByResolved ctx disk toPath toResolved staged
    if toEntry.content.isSome ∧ ifDestinationExists = .error then
      .error (patchErrorResult operation index operations
        (toPath ++ " already exists. Re-run with if_destination_exists=overwrite."))
    else
      .ok {
        staged := insertStaged toResolved { toEntry with content := some content }
          (insertStaged fromResolved { fromEntry with content := none } staged)
        operations := operations ++ [{
          index
          command := operation.commandName
          summary := "Moved " ++ fromPath ++ " -> " ++ toPath
          snapshotBefore := some snapshotBefore
          snapshotAfter := some (ctx.stableTextHash content) }] }

/-- A move is made of a deletion and a creation. -/
def stageMove (disk : Disk) (operation : PatchOperation) (index : ℕ)
    (fromPath toPath : String) (expectedSnapshot : Option String)
    (ifDestinationExists : WriteExistingBehavior) (ignoreMissing : Bool)
    (staging : Staging) : Except Halt Staging := do
  let (fromResolved, toResolved) ← resolveMove ctx fromPath toPath
  if fromResolved = toResolved then
    .error (patchErrorResult operation index staging.operations
      ("Cannot move " ++ fromPath ++ " to itself. Provide a different destination path."))
  else
    let (fromEntry, staged) ← stageEntryByResolved ctx disk fromPath fromResolved staging.staged
    match fromEntry.content with
    | none =>
      if ignoreMissing then
        .ok {
          staged := insertStaged fromResolved fromEntry staged
          operations := staging.operations ++ [{
            index
            command := operation.commandName
            summary := "Skipped move for missing source " ++ fromPath
            snapshotBefore := none
            snapshotAfter := none }] }
      else
        .error (patchErrorResult operation index staging.operations (fromPath ++
          " does not exist. Re-run with ignore_missing=true to treat as a no-op."))
    | some content =>
      stageMoveTo ctx disk operation index fromPath toPath fromResolved toResolved
        expectedSnapshot ifDestinationExists fromEntry content staged staging.operations

/-- What an operation on one file does to its text. -/
def PatchOperation.mutation : PatchOperation → Option String → Except ToolError MutationOutcome
  | write path content ifExists ifMissing expectedSnapshot, existing =>
    .ok (applyWrite ctx.stableTextHash existing path {
      content
      ifExists := ifExists.getD .overwrite
      ifMissing := ifMissing.getD .create
      expectedSnapshot })
  | edit path edits expectedSnapshot, existing =>
    applyTextEdits ctx.stableTextHash existing path expectedSnapshot edits
  | delete path expectedSnapshot ignoreMissing, existing =>
    .ok (applyDelete ctx.stableTextHash existing path expectedSnapshot (ignoreMissing.getD false))
  | move .., _ => .error (.invalidState "not an operation on one file")

def stageOperation (disk : Disk) (index : ℕ)
    (operation : PatchOperation) (staging : Staging) : Except Halt Staging :=
  match operation with
  | .move fromPath toPath expectedSnapshot ifDestinationExists ignoreMissing =>
    stageMove ctx disk operation index fromPath toPath expectedSnapshot
      (ifDestinationExists.getD .overwrite) (ignoreMissing.getD false) staging
  | operation =>
    stageMutation ctx disk operation index operation.primaryPath (operation.mutation ctx) staging

def stageOperations (disk : Disk) : ℕ → List PatchOperation → Staging → Except Halt Staging
  | _, [], staging => .ok staging
  | index, operation :: rest, staging => do
    let staging ← stageOperation ctx disk index operation staging
    stageOperations disk (index + 1) rest staging

/-! ### Committing -/

def StagedFile.changed (entry : StagedFile) : Bool :=
  entry.baselineContent != entry.content

def Staging.changedEntries (staging : Staging) : List StagedFile :=
  (staging.staged.map Prod.snd).filter StagedFile.changed

def commitAll : Disk → List StagedFile → Except ToolError Unit × Disk
  | disk, [] => (.ok (), disk)
  | disk, entry :: rest =>
    match commitTextFile ctx disk entry.resolvedPath entry.content with
    | (.error error, disk) => (.error error, disk)
    | (.ok (), disk) => commitAll disk rest

def recordCheckpoint (changed : List StagedFile) : Except ToolError (Option String) :=
  if changed.isEmpty then .ok none
  else
    match ctx.checkpoint with
    | none => .ok none
    | some answer => answer.map some

structure PatchSuccess where
  operationCount : ℕ
  changedFiles : List String
  checkpointId : Option String
  operations : List OperationRecord
  deriving DecidableEq

inductive PatchResult where
  | applied (success : PatchSuccess)
  | rejected (rejection : PatchRejection)
  deriving DecidableEq

/-- What is left to do when all operations have been staged. -/
def finishPatch (disk : Disk) (operations : List PatchOperation)
    (staging : Staging) : Except ToolError PatchResult × Disk :=
  let changed := staging.changedEntries
  match commitAll ctx disk changed with
  | (.error error, disk) => (.error error, disk)
  | (.ok (), disk) =>
    match recordCheckpoint ctx changed with
    | .error error => (.error error, disk)
    | .ok checkpointId =>
      (.ok (.applied {
        operationCount := operations.length
        changedFiles := changed.map StagedFile.displayPath
        checkpointId
        operations := staging.operations }), disk)

/-- **A patch**: its result, and the disk after it. -/
def executePatchOperations (toolName : String) (disk : Disk)
    (operations : List PatchOperation) : Except ToolError PatchResult × Disk :=
  if operations.isEmpty then
    (.error (.invalidInput (toolName ++ " requires at least one operation")), disk)
  else
    match stageOperations ctx disk 1 operations {} with
    | .error (.failed error) => (.error error, disk)
    | .error (.rejected rejection) => (.ok (.rejected rejection), disk)
    | .ok staging => finishPatch ctx disk operations staging

/-! ### What a patch asks for -/

/-- The texts of the files, by their paths. -/
abbrev View : Type :=
  PathBuf → Option String

/-- What each file is to have in it, or nothing if the operation fails. -/
abbrev Effect : Type :=
  Option (List (PathBuf × Option String))

/-- The effect of an operation on one file, in terms of the texts that it loads. -/
def PatchOperation.mutationEffect
    (load : PathBuf → Except ToolError (Option String)) (operation : PatchOperation) : Effect :=
  match resolveAllowed ctx operation.primaryPath with
  | .error _ => none
  | .ok path =>
    match load path with
    | .error _ => none
    | .ok existing =>
      match operation.mutation ctx existing with
      | .error _ => none
      | .ok outcome => if outcome.isError then none else some [(path, outcome.nextContent)]

/-- The effect of a move. -/
def moveEffect (load : PathBuf → Except ToolError (Option String))
    (fromPath toPath : String) (expectedSnapshot : Option String)
    (ifDestinationExists : WriteExistingBehavior) (ignoreMissing : Bool) : Effect :=
  match resolveMove ctx fromPath toPath with
  | .error _ => none
  | .ok (source, destination) =>
    if source = destination then none
    else
      match load source with
      | .error _ => none
      | .ok none => if ignoreMissing then some [] else none
      | .ok (some content) =>
        if expectedSnapshot.all (· = ctx.stableTextHash content) then
          match load destination with
          | .error _ => none
          | .ok existing =>
            if existing.isSome ∧ ifDestinationExists = .error then none
            else some [(destination, some content), (source, none)]
        else none

/-- **The effect of an operation**, in terms of the texts that it loads. -/
def PatchOperation.effect
    (load : PathBuf → Except ToolError (Option String)) (operation : PatchOperation) : Effect :=
  match operation with
  | .move fromPath toPath expectedSnapshot ifDestinationExists ignoreMissing =>
    moveEffect ctx load fromPath toPath expectedSnapshot (ifDestinationExists.getD .overwrite)
      (ignoreMissing.getD false)
  | operation => operation.mutationEffect ctx load

def View.apply (view : View) (effect : List (PathBuf × Option String)) : View :=
  effect.foldl (fun view change => Function.update view change.1 change.2) view

/-- The texts that are on disk. -/
def View.ofDisk (disk : Disk) : View :=
  fun path => (loadOptionalTextFile ctx disk path).toOption.join

/-- Only what can be read on disk is loaded, with the text of the view. -/
def View.load (disk : Disk) (view : View) (path : PathBuf) : Except ToolError (Option String) :=
  (loadOptionalTextFile ctx disk path).map fun _ => view path

/-- **What a patch asks for**, from the view that it starts with. -/
def requestedFrom (disk : Disk) : List PatchOperation → View → Option View
  | [], view => some view
  | operation :: rest, view => do
    let effect ← operation.effect ctx (view.load ctx disk)
    requestedFrom disk rest (view.apply effect)

def requested (disk : Disk) (operations : List PatchOperation) : Option View :=
  requestedFrom ctx disk operations (.ofDisk ctx disk)

/-! ### Staging makes what the patch asks for -/

section

variable {ctx} {disk : Disk} {view : View}

/-- What is staged under a path, or not, stands for the text that the view has there. -/
def StandsFor (ctx : ToolExecutionContext) (disk : Disk) (view : View) (path : PathBuf) :
    Option StagedFile → Prop
  | some entry => entry.resolvedPath = path ∧
      loadOptionalTextFile ctx disk path = .ok entry.baselineContent ∧ entry.content = view path
  | none => view path = View.ofDisk ctx disk path

/-- **The staged files stand for a view.** -/
structure Represents (ctx : ToolExecutionContext) (disk : Disk)
    (staged : List (PathBuf × StagedFile)) (view : View) : Prop where
  sorted : Sorted staged
  standsFor : ∀ path, StandsFor ctx disk view path (get path staged)

variable {path : PathBuf}

theorem StandsFor.update {other : PathBuf} {entry : Option StagedFile}
    (h : StandsFor ctx disk view other entry) (hne : other ≠ path) (content : Option String) :
    StandsFor ctx disk (Function.update view path content) other entry := by
  cases entry with
  | none => exact (Function.update_of_ne hne _ _).trans h
  | some entry => exact ⟨h.1, h.2.1, h.2.2.trans (Function.update_of_ne hne _ _).symm⟩

variable {entry : StagedFile}

theorem StandsFor.with_content (h : StandsFor ctx disk view path (some entry))
    (content : Option String) :
    StandsFor ctx disk (Function.update view path content) path (some { entry with content }) :=
  ⟨h.1, h.2.1, by rw [Function.update_self]⟩

variable {rest : List (PathBuf × StagedFile)}

section

variable (hrest : Sorted rest) (hentry : StandsFor ctx disk view path (some entry))
  (hother : ∀ other, other ≠ path → StandsFor ctx disk view other (get other rest))

include hrest hentry hother

/-- An entry that was taken out of the map is put back. -/
theorem Represents.insert : Represents ctx disk (insertStaged path entry rest) view where
  sorted := hrest.alter _ _
  standsFor other := by
    by_cases hpath : other = path
    · subst hpath
      rw [insertStaged, get_alter_self hrest]
      exact hentry
    · rw [insertStaged, get_alter_of_ne hpath]
      exact hother other hpath

/-- An entry is put back with another text. -/
theorem Represents.insert_update (content : Option String) :
    Represents ctx disk (insertStaged path { entry with content } rest)
      (Function.update view path content) :=
  .insert hrest (hentry.with_content content) fun other hne => (hother other hne).update hne content

end

variable {base : Option String} {staged : List (PathBuf × StagedFile)}

theorem View.ofDisk_of_ok (h : loadOptionalTextFile ctx disk path = .ok base) :
    View.ofDisk ctx disk path = base := by
  rw [View.ofDisk, h]
  rfl

theorem stageEntryByResolved_cases (displayPath : String) (hsorted : Sorted staged)
    (h : StandsFor ctx disk view path (get path staged)) :
    (∃ error, loadOptionalTextFile ctx disk path = .error error ∧
      stageEntryByResolved ctx disk displayPath path staged = .error (.failed error)) ∨
    ∃ entry rest, stageEntryByResolved ctx disk displayPath path staged = .ok (entry, rest) ∧
      StandsFor ctx disk view path (some entry) ∧ Sorted rest ∧
      ∀ other, other ≠ path → get other rest = get other staged := by
  unfold stageEntryByResolved
  cases hget : get path staged with
  | some entry =>
    rw [hget] at h
    exact .inr ⟨entry, _, rfl, h, hsorted.alter _ _, fun other hne => get_alter_of_ne hne _ _⟩
  | none =>
    rw [hget] at h
    cases hload : loadOptionalTextFile ctx disk path with
    | error error => exact .inl ⟨error, rfl, rfl⟩
    | ok content =>
      refine .inr ⟨_, staged, rfl, ⟨rfl, hload, ?_⟩, hsorted, fun _ _ => rfl⟩
      exact (h.trans (View.ofDisk_of_ok hload)).symm

theorem View.load_of_ok (h : loadOptionalTextFile ctx disk path = .ok base) :
    view.load ctx disk path = .ok (view path) := by
  rw [View.load, h]
  rfl

theorem View.load_of_error {error : ToolError}
    (h : loadOptionalTextFile ctx disk path = .error error) :
    view.load ctx disk path = .error error := by
  rw [View.load, h]
  rfl

/-- The outcome of a step of the staging loop, and what the step asks for. -/
def Agrees (ctx : ToolExecutionContext) (disk : Disk) (result : Except Halt Staging)
    (requested : Option View) : Prop :=
  (∃ halt, result = .error halt ∧ requested = none) ∨
    ∃ staging view, result = .ok staging ∧ requested = some view ∧
      Represents ctx disk staging.staged view

variable {staging : Staging} (operation : PatchOperation) (index : ℕ) (fromPath toPath : String)

/-- An operation on one file. -/
theorem stageMutation_effect (h : Represents ctx disk staging.staged view) :
    Agrees ctx disk (stageMutation ctx disk operation index operation.primaryPath
        (operation.mutation ctx) staging)
      ((operation.mutationEffect ctx (view.load ctx disk)).map view.apply) := by
  unfold stageMutation PatchOperation.mutationEffect
  cases hresolve : resolveAllowed ctx operation.primaryPath with
  | error halt => exact Or.inl ⟨halt, rfl, rfl⟩
  | ok path =>
    simp only [bind, Except.bind]
    rcases stageEntryByResolved_cases operation.primaryPath h.sorted (h.standsFor path) with
      ⟨error, hload, hstage⟩ | ⟨entry, rest, hstage, hentry, hrest, hother⟩
    · rw [hstage, View.load_of_error hload]
      exact Or.inl ⟨_, rfl, rfl⟩
    · obtain ⟨rfl, hload, hcontent⟩ := id hentry
      simp only [hstage, View.load_of_ok hload, hcontent]
      cases hmutate : operation.mutation ctx (view entry.resolvedPath) with
      | error error => exact Or.inl ⟨_, rfl, rfl⟩
      | ok outcome =>
        cases herror : outcome.isError with
        | true => exact Or.inl ⟨_, if_pos herror, by simp only [herror]; rfl⟩
        | false =>
          simp only [herror]
          refine Or.inr ⟨_, _, rfl, rfl, .insert_update hrest hentry (fun other hne => ?_) _⟩
          rw [hother other hne]
          exact h.standsFor other

/-- The end of a move: the destination is staged while the source is taken out. -/
theorem moveContent_effect {source destination : PathBuf}
    (ifDestinationExists : WriteExistingBehavior) (operations : List OperationRecord)
    (snapshotBefore content : String) (h : Represents ctx disk staged view)
    (hsame : source ≠ destination) (hentry : StandsFor ctx disk view source (some entry))
    (hrest : Sorted rest) (hother : ∀ other, other ≠ source → get other rest = get other staged) :
    Agrees ctx disk
      (stageMoveTo.moveContent ctx disk operation index fromPath toPath source destination
        ifDestinationExists entry content rest operations snapshotBefore)
      (Option.map view.apply <|
        match view.load ctx disk destination with
        | .error _ => none
        | .ok existing =>
          if existing.isSome ∧ ifDestinationExists = .error then none
          else some [(destination, some content), (source, none)]) := by
  have hdestination : StandsFor ctx disk view destination (get destination rest) := by
    rw [hother destination (Ne.symm hsame)]
    exact h.standsFor destination
  unfold stageMoveTo.moveContent
  simp only [bind, Except.bind]
  rcases stageEntryByResolved_cases toPath hrest hdestination with
    ⟨error, hload, hstage⟩ | ⟨toEntry, rest', hstage, htoEntry, hrest', hother'⟩
  · rw [hstage, View.load_of_error hload]
    exact .inl ⟨_, rfl, rfl⟩
  · obtain ⟨-, hload, hcontent⟩ := id htoEntry
    simp only [hstage, View.load_of_ok hload, hcontent]
    by_cases hexists : (view destination).isSome ∧ ifDestinationExists = .error
    · rw [if_pos hexists, if_pos hexists]
      exact .inl ⟨_, rfl, rfl⟩
    · rw [if_neg hexists, if_neg hexists]
      refine .inr ⟨_, _, rfl, rfl, ?_⟩
      -- The source and the destination are both out of the map before they are put back.
      have hmoved : view.apply [(destination, some content), (source, none)] =
          Function.update (Function.update view source none) destination (some content) :=
        Function.update_comm hsame.symm _ _ _
      rw [hmoved]
      refine .insert_update (hrest'.alter _ _) (htoEntry.update (.symm hsame) none)
        (fun other hne => ?_) _
      by_cases hsource : other = source
      · subst hsource
        rw [get_alter_self hrest']
        exact hentry.with_content none
      · rw [get_alter_of_ne hsource, hother' other hne, hother other hsource]
        exact (h.standsFor other).update hsource none

theorem stageMove_effect (expectedSnapshot : Option String)
    (ifDestinationExists : WriteExistingBehavior) (ignoreMissing : Bool)
    (h : Represents ctx disk staging.staged view) :
    Agrees ctx disk (stageMove ctx disk operation index fromPath toPath expectedSnapshot
        ifDestinationExists ignoreMissing staging)
      ((moveEffect ctx (view.load ctx disk) fromPath toPath expectedSnapshot ifDestinationExists
        ignoreMissing).map view.apply) := by
  unfold stageMove moveEffect
  cases hresolve : resolveMove ctx fromPath toPath with
  | error halt => exact .inl ⟨halt, rfl, rfl⟩
  | ok paths =>
    obtain ⟨source, destination⟩ := paths
    simp only [bind, Except.bind]
    by_cases hsame : source = destination
    · rw [if_pos hsame, if_pos hsame]
      exact .inl ⟨_, rfl, rfl⟩
    · rw [if_neg hsame, if_neg hsame]
      rcases stageEntryByResolved_cases fromPath h.sorted (h.standsFor source) with
        ⟨error, hload, hstage⟩ | ⟨entry, rest, hstage, hentry, hrest, hother⟩
      · rw [hstage, View.load_of_error hload]
        exact .inl ⟨_, rfl, rfl⟩
      · obtain ⟨-, hload, hcontent⟩ := id hentry
        simp only [hstage, View.load_of_ok hload]
        cases hview : view source with
        | none =>
          rw [hview] at hcontent
          rw [hcontent]
          cases ignoreMissing with
          | false => exact .inl ⟨_, rfl, rfl⟩
          | true =>
            refine .inr ⟨_, view, rfl, rfl, ?_⟩
            exact .insert hrest hentry fun other hne => by
              rw [hother other hne]
              exact h.standsFor other
        | some content =>
          rw [hview] at hcontent
          simp only [hcontent, stageMoveTo]
          have hmove := moveContent_effect operation index fromPath toPath ifDestinationExists
            staging.operations (ctx.stableTextHash content) content h hsame hentry hrest hother
          cases expectedSnapshot with
          | none => exact hmove
          | some expected =>
            by_cases hsnapshot : ctx.stableTextHash content = expected
            · simpa [hsnapshot] using hmove
            · refine .inl ⟨_, if_pos hsnapshot, ?_⟩
              simp [Ne.symm hsnapshot]

/-- **Staging an operation is its effect** on what is staged. -/
theorem stageOperation_effect (operation : PatchOperation)
    (h : Represents ctx disk staging.staged view) :
    Agrees ctx disk (stageOperation ctx disk index operation staging)
      ((operation.effect ctx (view.load ctx disk)).map view.apply) := by
  cases operation with
  | write | edit | delete => exact stageMutation_effect _ index h
  | move => exact stageMove_effect _ index _ _ _ _ _ h

/-- **Staging a patch makes what the patch asks for.** -/
theorem stageOperations_agrees (operations : List PatchOperation) (index : ℕ)
    (h : Represents ctx disk staging.staged view) :
    Agrees ctx disk (stageOperations ctx disk index operations staging)
      (requestedFrom ctx disk operations view) := by
  induction operations generalizing index staging view with
  | nil => exact .inr ⟨staging, view, rfl, rfl, h⟩
  | cons operation rest ih =>
    unfold stageOperations requestedFrom
    rcases stageOperation_effect index operation h with
      ⟨halt, hstage, heffect⟩ | ⟨staging', view', hstage, heffect, hrepresents⟩
    · rw [Option.map_eq_none_iff] at heffect
      rw [hstage, heffect]
      exact .inl ⟨halt, rfl, rfl⟩
    · obtain ⟨effect, hsome, rfl⟩ := Option.map_eq_some_iff.mp heffect
      rw [hstage, hsome]
      exact ih (index + 1) hrepresents

theorem stageOperations_requested (ctx : ToolExecutionContext) (disk : Disk)
    (operations : List PatchOperation) :
    Agrees ctx disk (stageOperations ctx disk 1 operations {}) (requested ctx disk operations) :=
  stageOperations_agrees operations 1 ⟨.nil, fun _ => rfl⟩

end

end Nanoclaw.Tools
