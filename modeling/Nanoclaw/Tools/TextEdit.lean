import Nanoclaw.Lib.Text

/-!
# Edits of Texts

What the file tools do to the text of one file: write it, edit it line by line or by exact match,
delete it. A short hash of the text guards against edits of something that has changed since it
was read.
-/

namespace Nanoclaw.Tools

open List

/-- `ToolError`, as far as the file tools raise it. What the system says is left out. -/
inductive ToolError where
  | invalidInput (message : String)
  | invalidState (message : String)
  | io
  | sandbox (message : String)
  deriving DecidableEq

/-! ### Texts by lines -/

/-- A text by lines; the flag tells whether the last one is closed. -/
structure TextBuffer where
  lines : List String
  trailingNewline : Bool

namespace TextBuffer

variable (buffer : TextBuffer)

/-- `split('\n')`. -/
def splitLines (text : String) : List String :=
  (text.toList.splitOn '\n').map String.ofList

/-- Lines that are closed by line breaks, but the last, are split again. -/
theorem splitLines_join {lines : List String} {last : String}
    (h : ∀ line ∈ lines ++ [last], '\n' ∉ line.toList) :
    splitLines (String.join (lines.map (· ++ "\n")) ++ last) = lines ++ [last] := by
  have hlist : ∀ ls : List String, (String.join (ls.map (· ++ "\n")) ++ last).toList =
        ['\n'].intercalate ((ls ++ [last]).map String.toList) := by
    intro ls
    induction ls with
    | nil => simp
    | cons l ls ih =>
      obtain ⟨next, rest, hnext⟩ := exists_cons_of_ne_nil
        (append_ne_nil_of_right_ne_nil ls (cons_ne_nil last []))
      rw [cons_append, map_cons, map_cons, hnext, map_cons,
        intercalate_cons_cons, ← map_cons, ← hnext, ← ih]
      simp [String.toList_join]
  rw [splitLines, hlist, splitOn_intercalate]
  · simp
  · exact forall_mem_map.mpr h
  · simp

/-- The lines of a text. -/
def parse (text : String) : TextBuffer :=
  if text.isEmpty then { lines := [], trailingNewline := false }
  else if text.toList.getLast? = some '\n' then
    { lines := (splitLines text).dropLast, trailingNewline := true }
  else { lines := splitLines text, trailingNewline := false }

/-- The text of the lines; no lines give the empty text. -/
def toText : String :=
  let text := "\n".intercalate buffer.lines
  if buffer.trailingNewline && !buffer.lines.isEmpty then text ++ "\n" else text

/-- Line numbers from one on, as a half-open range of positions. -/
def normalizeLineRange (lineCount startLine endLine : ℕ) : Except ToolError (ℕ × ℕ) :=
  if startLine = 0 then .error (.invalidInput "line numbers are 1-indexed")
  else if endLine < startLine then
    .error (.invalidInput ("end_line " ++ toString endLine ++ " is before start_line " ++
      toString startLine))
  else if lineCount < endLine then
    .error (.invalidInput ("end_line " ++ toString endLine ++ " is beyond end of file (" ++
      toString lineCount ++ " lines total)"))
  else .ok (startLine - 1, endLine)

/-- A final line break adds no line. -/
def parseReplacementLines (text : String) : List String :=
  if text.isEmpty then []
  else if text.toList.getLast? = some '\n' then (splitLines text).dropLast
  else splitLines text

/-- `Vec::splice` over the range from `first` up to `last`. -/
def splice (lines : List String) (first last : ℕ) (replacement : List String) : List String :=
  lines.take first ++ replacement ++ lines.drop last

/-- The text of the lines in the range. -/
def lineSliceText (startLine endLine : ℕ) : Except ToolError String := do
  let (first, last) ← normalizeLineRange buffer.lines.length startLine endLine
  return "\n".intercalate ((buffer.lines.take last).drop first)

/-- Put lines in the place of a range. -/
def replaceLines (startLine endLine : ℕ) (text : String) : Except ToolError TextBuffer := do
  let (first, last) ← normalizeLineRange buffer.lines.length startLine endLine
  return { buffer with lines := splice buffer.lines first last (parseReplacementLines text) }

/-- Put lines behind a line; behind line 0 is at the top. -/
def insertAfter (afterLine : ℕ) (text : String) : Except ToolError TextBuffer :=
  if buffer.lines.length < afterLine then
    .error (.invalidInput ("after_line " ++ toString afterLine ++ " is beyond end of file (" ++
      toString buffer.lines.length ++ " lines total)"))
  else
    .ok { buffer with
      lines := splice buffer.lines afterLine afterLine (parseReplacementLines text) }

end TextBuffer

/-! ### Mutations -/

/-- What a write does to a file that exists. -/
inductive WriteExistingBehavior where
  | error
  | overwrite
  deriving DecidableEq

/-- What a write does if there is no file. -/
inductive WriteMissingBehavior where
  | create
  | error
  deriving DecidableEq

/-- One edit of the edit tool. -/
inductive TextEditOperation where
  | strReplace (oldText newText : String) (replaceAll : Bool)
  | replaceLines (startLine endLine : ℕ) (text : String) (expectedSelectionHash : Option String)
  | insert (afterLine : ℕ) (text : String)

/-- What a tool reports: the text to store, if any, and a summary. -/
structure MutationOutcome where
  nextContent : Option String
  summary : String
  isError : Bool
  snapshotBefore : Option String
  snapshotAfter : Option String

/-- A call of the write tool. -/
structure WriteRequest where
  content : String
  ifExists : WriteExistingBehavior
  ifMissing : WriteMissingBehavior
  expectedSnapshot : Option String

/-- A refusal, after which nothing is stored. -/
def errorOutcome (snapshotBefore : Option String) (summary : String) : MutationOutcome where
  nextContent := none
  summary := summary
  isError := true
  snapshotBefore := snapshotBefore
  snapshotAfter := none

section

/- The hash of a text, `stable_text_hash`. -/
variable (stableTextHash : String → String)

/-- **The write tool**, given the text that is there. -/
def applyWrite (existing : Option String) (path : String) (request : WriteRequest) :
    MutationOutcome :=
  let snapshotBefore := existing.map stableTextHash
  match request.expectedSnapshot with
  | some expected =>
    if snapshotBefore ≠ some expected then
      errorOutcome snapshotBefore ("Snapshot mismatch for " ++ path ++ ". Expected " ++ expected ++
        ", re-read before overwriting.")
    else write snapshotBefore
  | none => write snapshotBefore
where
  write (snapshotBefore : Option String) : MutationOutcome :=
    if existing.isSome ∧ request.ifExists = .error then
      errorOutcome snapshotBefore (path ++ " already exists. Re-run with if_exists=overwrite or " ++
        "use edit/patch for partial changes.")
    else if existing.isNone ∧ request.ifMissing = .error then
      errorOutcome snapshotBefore (path ++ " does not exist. Re-run with if_missing=create.")
    else
      { nextContent := some request.content
        summary :=
          if existing.isSome then
            "Wrote " ++ toString request.content.utf8ByteSize ++ " bytes to " ++ path
          else
            "Created " ++ path ++ " with " ++ toString request.content.utf8ByteSize ++ " bytes"
        isError := false
        snapshotBefore := snapshotBefore
        snapshotAfter := some (stableTextHash request.content) }

/-- Replace a text, which has to occur once unless all are replaced. -/
def runStringReplace (path content oldText newText : String) (replaceAll : Bool) :
    MutationOutcome :=
  let occurrences := Text.countMatches content oldText
  if occurrences = 0 then
    errorOutcome (some (stableTextHash content)) ("No exact match found in " ++ path)
  else if 1 < occurrences ∧ replaceAll = false then
    errorOutcome (some (stableTextHash content)) ("Found " ++ toString occurrences ++
      " matches in " ++ path ++
      ". Re-run with replace_all=true or provide a more specific old_text.")
  else
    { nextContent := some
        (if replaceAll then Text.replace content oldText newText
        else Text.replacen content oldText newText 1)
      summary := "Edited " ++ path ++ " using str_replace (" ++
        toString (if replaceAll then occurrences else 1) ++ " replacement" ++
        (if replaceAll && occurrences != 1 then "s" else "") ++ ")"
      isError := false
      snapshotBefore := some (stableTextHash content)
      snapshotAfter := none }

/-- Replace lines, if their hash is the expected one. -/
def runLineReplace (path content : String) (startLine endLine : ℕ) (replacementText : String)
    (expectedSelectionHash : Option String) : Except ToolError MutationOutcome := do
  let buffer := TextBuffer.parse content
  let currentSlice ← buffer.lineSliceText startLine endLine
  let currentSliceHash := stableTextHash currentSlice
  match expectedSelectionHash with
  | some expected =>
    if expected ≠ currentSliceHash then
      return errorOutcome (some (stableTextHash content)) ("Slice mismatch for " ++ path ++
        " lines " ++ toString startLine ++ "-" ++ toString endLine ++ ". Expected " ++ expected ++
        ", found " ++ currentSliceHash ++ ". Re-read that range before editing.")
  | none => pure ()
  let buffer ← buffer.replaceLines startLine endLine replacementText
  return {
    nextContent := some buffer.toText
    summary := "Edited " ++ path ++ " using replace_lines (" ++ toString startLine ++ "-" ++
      toString endLine ++ ")"
    isError := false
    snapshotBefore := some (stableTextHash content)
    snapshotAfter := none }

/-- Insert lines. -/
def runInsert (path content : String) (afterLine : ℕ) (insertText : String) :
    Except ToolError MutationOutcome := do
  let buffer ← (TextBuffer.parse content).insertAfter afterLine insertText
  return {
    nextContent := some buffer.toText
    summary := "Edited " ++ path ++ " using insert (after line " ++ toString afterLine ++ ")"
    isError := false
    snapshotBefore := some (stableTextHash content)
    snapshotAfter := none }

/-- One edit of a text. -/
def applySingleEdit (path content : String) : TextEditOperation → Except ToolError MutationOutcome
  | .strReplace oldText newText replaceAll =>
    .ok (runStringReplace stableTextHash path content oldText newText replaceAll)
  | .replaceLines startLine endLine text expectedSelectionHash =>
    runLineReplace stableTextHash path content startLine endLine text expectedSelectionHash
  | .insert afterLine text => runInsert stableTextHash path content afterLine text

/-- The loop over the edits. An error keeps the text that was reached. -/
def runEdits (path snapshotBefore : String) :
    String → List TextEditOperation → Except ToolError (String ⊕ MutationOutcome)
  | working, [] => .ok (.inl working)
  | working, operation :: rest => do
    let outcome ← applySingleEdit stableTextHash path working operation
    if outcome.isError then
      return .inr {
        nextContent := some working
        summary := outcome.summary
        isError := true
        snapshotBefore := some snapshotBefore
        snapshotAfter := none }
    match outcome.nextContent with
    | some next => runEdits path snapshotBefore next rest
    | none => throw (.invalidState "text edit unexpectedly removed file content")

/-- **The edit tool**, given the text that is there. -/
def applyTextEdits (existing : Option String) (path : String) (expectedSnapshot : Option String)
    (edits : List TextEditOperation) : Except ToolError MutationOutcome :=
  match existing with
  | none =>
    .ok (errorOutcome none
      (path ++ " does not exist. Use write or patch/write to create it first."))
  | some existing =>
    if edits.isEmpty then .error (.invalidInput "edit requires at least one operation")
    else
      let snapshotBefore := stableTextHash existing
      match expectedSnapshot with
      | some expected =>
        if expected ≠ snapshotBefore then
          .ok (errorOutcome (some snapshotBefore) ("Snapshot mismatch for " ++ path ++
            ". Expected " ++ expected ++ ", found " ++ snapshotBefore ++
            ". Re-read the file before editing."))
        else edit existing snapshotBefore
      | none => edit existing snapshotBefore
where
  edit (existing snapshotBefore : String) : Except ToolError MutationOutcome := do
    match ← runEdits stableTextHash path snapshotBefore existing edits with
    | .inr outcome => return outcome
    | .inl working =>
      return {
        nextContent := some working
        summary := "Edited " ++ path ++ " with " ++ toString edits.length ++ " operation(s)"
        isError := false
        snapshotBefore := some snapshotBefore
        snapshotAfter := some (stableTextHash working) }

/-- **The delete tool**, given the text that is there. -/
def applyDelete (existing : Option String) (path : String) (expectedSnapshot : Option String)
    (ignoreMissing : Bool) : MutationOutcome :=
  let snapshotBefore := existing.map stableTextHash
  match existing with
  | none =>
    if ignoreMissing then
      { nextContent := none
        summary := "Skipped delete for missing file " ++ path
        isError := false
        snapshotBefore := none
        snapshotAfter := none }
    else
      errorOutcome none
        (path ++ " does not exist. Re-run with ignore_missing=true to treat it as a no-op.")
  | some _ =>
    match expectedSnapshot with
    | some expected =>
      if snapshotBefore ≠ some expected then
        errorOutcome snapshotBefore ("Snapshot mismatch for " ++ path ++ ". Expected " ++
          expected ++ ", re-read before deleting.")
      else deleted snapshotBefore
    | none => deleted snapshotBefore
where
  deleted (snapshotBefore : Option String) : MutationOutcome :=
    { nextContent := none
      summary := "Deleted " ++ path
      isError := false
      snapshotBefore := snapshotBefore
      snapshotAfter := none }

end

end Nanoclaw.Tools
