import Mathlib.Data.List.ReduceOption
import Nanoclaw.Tools.PatchFreeform

/-!
# The Published Patch Grammar

The freeform patch tool publishes a grammar, `patch_files.lark`, and reads its input with a
parser that is written by hand. Here the derivations of the grammar are trees, one type per rule.
The parser wants every change to begin with a context line, an update to have a move target or a
change, and no path to be blank (`Hunk.Accepted`); it also trims paths and contexts.
-/

namespace Nanoclaw.Tools.PatchGrammar

open List Text

/-! ### Derivations -/

/-- `/(.*)/`. -/
structure LineText where
  text : String
  oneLine : '\n' ∉ text.toList

/-- `/(.+)/`, as in `filename`. -/
structure NonEmptyText extends LineText where
  nonEmpty : text ≠ ""

inductive ChangeMark where
  | added
  | removed
  | kept

def ChangeMark.text : ChangeMark → String
  | added => "+"
  | removed => "-"
  | kept => " "

/-- `change_context | change_line`. -/
inductive ChangeItem where
  | changeContext (text : Option NonEmptyText)
  | changeLine (mark : ChangeMark) (text : LineText)

structure Change where
  items : List ChangeItem
  items_ne : items ≠ []
  eofLine : Bool

inductive Hunk where
  | addHunk (filename : NonEmptyText) (lines : List LineText) (lines_ne : lines ≠ [])
  | deleteHunk (filename : NonEmptyText)
  | updateHunk (filename : NonEmptyText) (changeMove : Option NonEmptyText) (change : Option Change)

/-- `start`; `finalLineFeed` is the optional `LF` of `end_patch`. -/
structure Patch where
  hunks : List Hunk
  hunks_ne : hunks ≠ []
  finalLineFeed : Bool

/-! ### The derived text, by lines -/

def addLine (line : LineText) : String :=
  "+" ++ line.text

def changeLine (mark : ChangeMark) (line : LineText) : String :=
  mark.text ++ line.text

def contextLine : Option NonEmptyText → String
  | none => "@@"
  | some context => "@@ " ++ context.text

def ChangeItem.line : ChangeItem → String
  | changeContext context => contextLine context
  | changeLine mark line => PatchGrammar.changeLine mark line

def eofLines (eofLine : Bool) : List String :=
  if eofLine then [endOfFileMarker] else []

def Change.lines (change : Change) : List String :=
  change.items.map ChangeItem.line ++ eofLines change.eofLine

def moveLines (changeMove : Option NonEmptyText) : List String :=
  (changeMove.map fun target => moveMarker ++ target.text).toList

def changeLines (change : Option Change) : List String :=
  change.elim [] Change.lines

def Hunk.lines : Hunk → List String
  | addHunk filename lines _ => (addMarker ++ filename.text) :: lines.map addLine
  | deleteHunk filename => [deleteMarker ++ filename.text]
  | updateHunk filename changeMove change =>
    (updateMarker ++ filename.text) :: (moveLines changeMove ++ changeLines change)

/-- The text of a derivation. Every line but the last is closed by an `LF`. -/
def Patch.text (patch : Patch) : String :=
  String.join ((beginMarker :: patch.hunks.flatMap Hunk.lines).map (· ++ "\n")) ++ endMarker ++
    if patch.finalLineFeed then "\n" else ""

/-! ### The derived hunks -/

/-- A context line, its change lines, and whether an end-of-file line follows. -/
structure ChangeSection where
  context : Option NonEmptyText
  lines : List (ChangeMark × LineText)
  eofLine : Bool

/-- The change lines before the next context line. -/
def leadingLines : List ChangeItem → List (ChangeMark × LineText)
  | .changeLine mark line :: items => (mark, line) :: leadingLines items
  | _ => []

def hasContext : List ChangeItem → Bool
  | [] => false
  | .changeContext _ :: _ => true
  | .changeLine _ _ :: items => hasContext items

/-- Every context line opens a section. -/
def sections (eofLine : Bool) : List ChangeItem → List ChangeSection
  | [] => []
  | .changeContext context :: items =>
    { context, lines := leadingLines items, eofLine := eofLine && !hasContext items } ::
      sections eofLine items
  | .changeLine _ _ :: items => sections eofLine items

def oldLine : ChangeMark × LineText → Option String
  | (.added, _) => none
  | (_, line) => some line.text

def newLine : ChangeMark × LineText → Option String
  | (.removed, _) => none
  | (_, line) => some line.text

/-- A blank context is no context. -/
def contextText (context : NonEmptyText) : Option String :=
  if (Text.trim context.text).isEmpty then none else some (Text.trim context.text)

def ChangeSection.chunk (part : ChangeSection) : UpdateChunk where
  changeContext := part.context.bind contextText
  oldLines := part.lines.filterMap oldLine
  newLines := part.lines.filterMap newLine
  isEndOfFile := part.eofLine

def Change.chunks (change : Change) : List UpdateChunk :=
  (sections change.eofLine change.items).map ChangeSection.chunk

/-- **The hunk that was derived**: lines as they are, paths and contexts trimmed. -/
def Hunk.derived : Hunk → PatchHunk
  | addHunk filename lines _ =>
    .add (Text.trim filename.text) ("\n".intercalate (lines.map LineText.text))
  | deleteHunk filename => .delete (Text.trim filename.text)
  | updateHunk filename changeMove change =>
    .update (Text.trim filename.text) (changeMove.map fun target => Text.trim target.text)
      (change.elim [] Change.chunks)

def NonEmptyText.NotBlank (name : NonEmptyText) : Prop :=
  Text.trim name.text ≠ ""

def Change.BeginsWithContext (change : Change) : Prop :=
  ∃ context, change.items.head? = some (.changeContext context)

/-- **What the parser demands of a hunk** beyond the grammar. -/
def Hunk.Accepted : Hunk → Prop
  | addHunk filename _ _ => filename.NotBlank
  | deleteHunk filename => filename.NotBlank
  | updateHunk filename changeMove change =>
    filename.NotBlank ∧ (∀ target ∈ changeMove, target.NotBlank) ∧
      (changeMove.isSome ∨ change.isSome) ∧ ∀ c ∈ change, c.BeginsWithContext

/-! ### Reading a derivation -/

def readMove : Option NonEmptyText → Except ParseStop (Option String)
  | none => .ok none
  | some target => do
    let path ← parseNonEmptyPath target.text "move target"
    return some path

def readChange : Option Change → Except ParseStop (List UpdateChunk)
  | none => .ok []
  | some change =>
    match change.items with
    | .changeLine mark line :: _ => invalid
        ("patch_files freeform update hunks must start each chunk with `@@`; found `" ++
          changeLine mark line ++ "`")
    | _ => .ok change.chunks

/-- What the parser makes of a hunk, by the parts of its derivation. -/
def Hunk.read : Hunk → Except ParseStop PatchHunk
  | addHunk filename lines _ => do
    let path ← parseNonEmptyPath filename.text "add file"
    return .add path ("\n".intercalate (lines.map LineText.text))
  | deleteHunk filename => do
    let path ← parseNonEmptyPath filename.text "delete file"
    return .delete path
  | updateHunk filename changeMove change => do
    let path ← parseNonEmptyPath filename.text "update file"
    let movePath ← readMove changeMove
    let chunks ← readChange change
    if chunks.isEmpty && movePath.isNone then
      invalid ("update hunk for `" ++ path ++ "` must include at least one change or a move target")
    else .ok (.update path movePath chunks)

theorem parseNonEmptyPath_eq_ok {name : NonEmptyText} {label path : String} :
    parseNonEmptyPath name.text label = .ok path ↔ name.NotBlank ∧ trim name.text = path := by
  rw [parseNonEmptyPath, NonEmptyText.NotBlank]
  split <;> simp_all

theorem readMove_eq_ok {changeMove : Option NonEmptyText} {movePath : Option String} :
    readMove changeMove = .ok movePath ↔ (∀ target ∈ changeMove, target.NotBlank) ∧
      changeMove.map (fun target => trim target.text) = movePath := by
  cases changeMove with
  | none => simp [readMove]
  | some target =>
    rw [readMove, Proc.except_bind_eq_ok]
    simp [parseNonEmptyPath_eq_ok, and_assoc, pure, Except.pure]

theorem readChange_eq_ok {change : Option Change} {chunks : List UpdateChunk} :
    readChange change = .ok chunks ↔
      (∀ c ∈ change, c.BeginsWithContext) ∧ change.elim [] Change.chunks = chunks := by
  cases change with
  | none => simp [readChange]
  | some change =>
    rw [readChange]
    split
    next mark line items hitems => simp [Change.BeginsWithContext, hitems]
    next hitems =>
      obtain ⟨item, items, hcons⟩ := exists_cons_of_ne_nil change.items_ne
      cases item with
      | changeLine mark line => exact absurd hcons (hitems mark line items)
      | changeContext context => simp [Change.BeginsWithContext, hcons]

theorem Change.BeginsWithContext.chunks_ne_nil {change : Change}
    (h : change.BeginsWithContext) : change.chunks ≠ [] := by
  obtain ⟨context, hhead⟩ := h
  obtain ⟨items, hitems⟩ := head?_eq_some_iff.mp hhead
  rw [Change.chunks, hitems]
  exact cons_ne_nil _ _

/-- **A hunk is read exactly if it is accepted**, and as it was derived. -/
theorem Hunk.read_eq_ok {hunk : Hunk} {result : PatchHunk} :
    hunk.read = .ok result ↔ hunk.Accepted ∧ hunk.derived = result := by
  cases hunk with
  | addHunk filename lines _ | deleteHunk filename =>
    rw [read, Proc.except_bind_eq_ok]
    simp [parseNonEmptyPath_eq_ok, and_assoc, pure, Except.pure, Accepted, derived]
  | updateHunk filename changeMove change =>
    simp only [read, Proc.except_bind_eq_ok, parseNonEmptyPath_eq_ok, readMove_eq_ok,
      readChange_eq_ok, and_assoc, exists_eq_left', exists_and_left, Accepted, derived]
    cases changeMove <;> cases change <;> simp
    exact fun _ hbegins => by rw [if_neg hbegins.chunks_ne_nil, Except.ok.injEq]

/-! ### What the lines of a derivation look like to the parser -/

variable (mark : ChangeMark) (context : Option NonEmptyText) (item : ChangeItem)
  (change : Option Change) (patch : Patch)

theorem ChangeMark.startsWith_changeLine (line : LineText) {start : String}
    (h : ∀ mark : ChangeMark, startsWith mark.text start = false ∧
      startsWith start mark.text = false) : startsWith (changeLine mark line) start = false :=
  startsWith_append_of_departs (h mark) line.text

theorem startsWith_contextLine : startsWith (contextLine context) "@@" = true := by
  cases context with
  | none => decide
  | some context => exact startsWith_append_of_startsWith (by decide) context.text

theorem not_asterisks_contextLine : startsWith (contextLine context) "***" = false := by
  cases context with
  | none => decide
  | some context => exact startsWith_append_of_departs (by decide) context.text

theorem not_asterisks_changeLine (line : LineText) :
    startsWith (changeLine mark line) "***" = false :=
  mark.startsWith_changeLine line fun mark => by cases mark <;> decide

theorem not_context_changeLine (line : LineText) : startsWith (changeLine mark line) "@@" = false :=
  mark.startsWith_changeLine line fun mark => by cases mark <;> decide

theorem ChangeItem.not_asterisks : startsWith item.line "***" = false := by
  cases item with
  | changeContext context => exact not_asterisks_contextLine context
  | changeLine mark line => exact not_asterisks_changeLine mark line

variable {line marker : String}

theorem endsUpdate_eq_false (h : startsWith line "***" = false) : endsUpdate line = false := by
  rw [endsUpdate, h, Bool.false_and]

theorem changeOf_changeLine (line : LineText) :
    changeOf (changeLine mark line) = .ok (match mark with
      | .added => .added line.text
      | .removed => .removed line.text
      | .kept => .context line.text) := by
  cases mark <;> simp [changeOf, changeLine, ChangeMark.text, String.toList_append]

/-- **What may follow a hunk**: nothing, or a header that belongs to another hunk. -/
def Follows (rest : List String) : Prop :=
  ∀ line ∈ rest.head?, endsUpdate line = true ∧ Text.startsWith line moveMarker = false

variable {rest : List String}

theorem endsUpdate_marker (h : startsWith marker "***" = true)
    (hdeparts : startsWith marker endOfFileMarker = false ∧
      startsWith endOfFileMarker marker = false) (name : String) :
    endsUpdate (marker ++ name) = true := by
  have hother : startsWith (marker ++ name) endOfFileMarker = false :=
    startsWith_append_of_departs hdeparts name
  have hne : marker ++ name ≠ endOfFileMarker := ne_of_startsWith hother (by decide)
  rw [endsUpdate, startsWith_append_of_startsWith h name, Bool.true_and]
  exact bne_iff_ne.mpr hne

theorem Hunk.follows (hunk : Hunk) (rest : List String) : Follows (hunk.lines ++ rest) := by
  cases hunk with
  | addHunk | deleteHunk | updateHunk =>
    rintro line ⟨⟩
    exact ⟨endsUpdate_marker (by decide) (by decide) _,
      startsWith_append_of_departs (by decide) _⟩

/-! ### The parts of a hunk -/

theorem parseAddContents_lines {lines : List LineText} (hlines : lines ≠ [])
    (hrest : Follows rest) :
    parseAddContents (lines.map addLine ++ rest) =
      .ok ("\n".intercalate (lines.map LineText.text), rest) := by
  have hend : inAddedFile rest = false := by
    cases rest with
    | nil => rfl
    | cons line rest => simp [inAddedFile, (Bool.and_eq_true_iff.mp (hrest line rfl).1).1]
  have hplus : ∀ line : LineText, startsWith (addLine line) "***" = false :=
    fun line => startsWith_append_of_departs (by decide) line.text
  have hscan : Scan.scanAll inAddedFile parseAddedLine
      ((lines.flatMap fun line => [addLine line]) ++ rest) =
        (lines.mapM fun line => Except.ok line.text).map fun texts => (texts, rest) :=
    Scan.scanAll_flatMap (fun _ => True) rfl parseAddedLine_consumes
      (fun line rest => by simp [inAddedFile, hplus]) (fun _ _ => trivial)
      (fun line rest _ => by simp [parseAddedLine, addLine, Except.map]) lines trivial hend
  rw [← map_eq_flatMap, Proc.except_mapM_eq fun _ _ => rfl] at hscan
  rw [parseAddContents, hscan]
  exact if_neg (by simpa using hlines)

/-- What may follow the change lines of a section. -/
def FollowsLines (rest : List String) : Prop :=
  ∀ line ∈ rest.head?, (Text.startsWith line "@@" || endsUpdate line) = true

theorem Follows.lines (h : Follows rest) : FollowsLines rest := by
  intro line hline
  rw [(h line hline).1, Bool.or_true]

theorem parseChangeLines_lines (lines : List (ChangeMark × LineText)) (eofLine : Bool)
    (hrest : FollowsLines rest) :
    parseChangeLines (lines.map (fun l => changeLine l.1 l.2) ++ (eofLines eofLine ++ rest)) =
      .ok (⟨lines.filterMap oldLine, lines.filterMap newLine, eofLine⟩, rest) := by
  induction lines with
  | nil =>
    cases eofLine with
    | true => rfl
    | false =>
      cases rest with
      | nil => rfl
      | cons line rest => exact if_pos (hrest line rfl)
  | cons l lines ih =>
    obtain ⟨mark, line⟩ := l
    have hend : endsUpdate (changeLine mark line) = false :=
      endsUpdate_eq_false (not_asterisks_changeLine mark line)
    have hne : changeLine mark line ≠ endOfFileMarker :=
      ne_of_startsWith (not_asterisks_changeLine mark line) (by decide)
    rw [map_cons, cons_append, parseChangeLines, not_context_changeLine, hend,
      if_neg (by decide), if_neg hne, changeOf_changeLine, ih]
    cases mark <;> rfl

def ChangeSection.yield (part : ChangeSection) : List String :=
  contextLine part.context ::
    (part.lines.map (fun l => changeLine l.1 l.2) ++ eofLines part.eofLine)

theorem stripStart_contextLine : ∃ text, stripStart (contextLine context) "@@" = some text ∧
      (if (trim text).isEmpty then none else some (trim text)) = context.bind contextText := by
  cases context with
  | none => exact ⟨"", by decide, by decide⟩
  | some context =>
    have hline : contextLine (some context) = "@@" ++ (" " ++ context.text) := by rfl
    refine ⟨" " ++ context.text, by rw [hline, stripStart_append], ?_⟩
    have htrim : trim (" " ++ context.text) = trim context.text :=
      trimMatches_cons (by rw [String.toList_append]; rfl) (by decide)
    rw [htrim]
    rfl

theorem parseUpdateChunk_yield (part : ChangeSection) (hrest : FollowsLines rest) :
    parseUpdateChunk (part.yield ++ rest) = .ok (part.chunk, rest) := by
  obtain ⟨text, hstrip, htext⟩ := stripStart_contextLine part.context
  rw [ChangeSection.yield, cons_append, parseUpdateChunk, hstrip, append_assoc]
  dsimp only
  rw [parseChangeLines_lines part.lines part.eofLine hrest, htext]
  rfl

/-- The lines of a change are its leading change lines and then its sections. -/
theorem lines_eq_sections (eofLine : Bool) (items : List ChangeItem) :
    items.map ChangeItem.line ++ eofLines eofLine =
      (leadingLines items).map (fun l => changeLine l.1 l.2) ++
        (eofLines (eofLine && !hasContext items) ++
          (sections eofLine items).flatMap ChangeSection.yield) := by
  induction items with
  | nil => cases eofLine <;> rfl
  | cons item items ih =>
    cases item with
    | changeLine mark line =>
      rw [map_cons, cons_append, ih]
      rfl
    | changeContext context =>
      rw [map_cons, cons_append, ih, sections, flatMap_cons,
        ChangeSection.yield, hasContext, Bool.not_true, Bool.and_false]
      simp [leadingLines, eofLines, ChangeItem.line]

theorem parseUpdateChunks_lines (hrest : Follows rest) :
    parseUpdateChunks (changeLines change ++ rest) =
      (readChange change).map fun chunks => (chunks, rest) := by
  have hend : inUpdate rest = false := by
    cases rest with
    | nil => rfl
    | cons line rest => simp [inUpdate, (hrest line rfl).1]
  have hround : ∀ input, Scan.scanAll inUpdate parseUpdateChunk input = _ :=
    Scan.scanAll_eq rfl parseUpdateChunk_consumes
  cases change with
  | none =>
    rw [parseUpdateChunks, hround]
    exact if_neg (by simp [changeLines, hend])
  | some change =>
    obtain ⟨item, items, hitems⟩ := exists_cons_of_ne_nil change.items_ne
    cases item with
    | changeLine mark line =>
      have hin : inUpdate (changeLine mark line :: (items.map ChangeItem.line ++
          eofLines change.eofLine ++ rest)) = true := by
        simp [inUpdate, endsUpdate_eq_false (not_asterisks_changeLine mark line)]
      have hlines : changeLines (some change) ++ rest = changeLine mark line ::
          (items.map ChangeItem.line ++ eofLines change.eofLine ++ rest) := by
        simp [changeLines, Change.lines, hitems, ChangeItem.line]
      rw [parseUpdateChunks, hround, hlines, if_pos hin, parseUpdateChunk,
        stripStart_eq_none (not_context_changeLine mark line), readChange, hitems]
      rfl
    | changeContext context =>
      -- the change is the list of its sections, and the loop reads them one by one
      have hlines : changeLines (some change) =
          (sections change.eofLine change.items).flatMap ChangeSection.yield := by
        change change.items.map ChangeItem.line ++ eofLines change.eofLine = _
        rw [lines_eq_sections, hitems]
        simp [leadingLines, hasContext, eofLines]
      have hscan : Scan.scanAll inUpdate parseUpdateChunk
          ((sections change.eofLine change.items).flatMap ChangeSection.yield ++ rest) =
            ((sections change.eofLine change.items).mapM fun part =>
              Except.ok part.chunk).map fun chunks => (chunks, rest) :=
        Scan.scanAll_flatMap FollowsLines rfl parseUpdateChunk_consumes (fun part rest => by
            simp [inUpdate, ChangeSection.yield,
              endsUpdate_eq_false (not_asterisks_contextLine part.context)])
          (fun part rest => by
            rintro line ⟨⟩
            rw [startsWith_contextLine, Bool.true_or])
          (fun part rest hrest => parseUpdateChunk_yield part hrest) _ hrest.lines hend
      rw [Proc.except_mapM_eq fun _ _ => rfl] at hscan
      rw [parseUpdateChunks, hlines, hscan, readChange, hitems]
      simp only [Change.chunks, hitems]

theorem parseMoveTarget_lines (changeMove : Option NonEmptyText)
    (hrest : ∀ line ∈ rest.head?, startsWith line moveMarker = false) :
    parseMoveTarget (moveLines changeMove ++ rest) =
      (readMove changeMove).map fun movePath => (movePath, rest) := by
  cases changeMove with
  | none =>
    cases rest with
    | nil => rfl
    | cons line rest =>
      simp [moveLines, parseMoveTarget, readMove, Except.map, stripStart_eq_none (hrest line rfl)]
  | some target =>
    simp only [moveLines, Option.map_some, Option.toList_some, singleton_append,
      parseMoveTarget, stripStart_append, readMove]
    cases parseNonEmptyPath target.text "move target" <;> rfl

theorem not_move_changeLines (hrest : Follows rest) :
    ∀ line ∈ (changeLines change ++ rest).head?, startsWith line moveMarker = false := by
  cases change with
  | none => exact fun line hline => (hrest line hline).2
  | some change =>
    obtain ⟨item, items, hitems⟩ := exists_cons_of_ne_nil change.items_ne
    intro line hline
    obtain rfl : item.line = line := by
      simpa [changeLines, Change.lines, hitems] using hline
    rw [Bool.eq_false_iff]
    intro hmove
    have hasterisks : startsWith item.line "***" = true := by
      rw [startsWith, isPrefixOf_iff_prefix] at hmove ⊢
      exact .trans (by decide) hmove
    exact Bool.false_ne_true (item.not_asterisks.symm.trans hasterisks)

/-- **A round of the main loop reads a hunk** in front of whatever follows it. -/
theorem parseHunk_lines (hunk : Hunk) (hrest : Follows rest) :
    parseHunk (hunk.lines ++ rest) = (hunk.read.map some).map fun result => (result, rest) := by
  cases hunk with
  | addHunk filename lines hlines =>
    rw [Hunk.lines, cons_append, parseHunk, stripStart_append, Hunk.read]
    dsimp only
    rw [parseAddContents_lines hlines hrest]
    cases parseNonEmptyPath filename.text "add file" <;> rfl
  | deleteHunk filename =>
    rw [Hunk.lines, singleton_append, parseHunk,
      stripStart_eq_none (startsWith_append_of_departs (by decide) filename.text),
      stripStart_append, Hunk.read]
    dsimp only
    cases parseNonEmptyPath filename.text "delete file" <;> rfl
  | updateHunk filename changeMove change =>
    rw [Hunk.lines, cons_append, parseHunk,
      stripStart_eq_none (startsWith_append_of_departs (by decide) filename.text),
      stripStart_eq_none (startsWith_append_of_departs (by decide) filename.text),
      stripStart_append, Hunk.read, append_assoc]
    dsimp only
    cases parseNonEmptyPath filename.text "update file" with
    | error e => rfl
    | ok path =>
      change parseUpdate path _ >>= _ = _
      rw [parseUpdate, parseMoveTarget_lines changeMove (not_move_changeLines change hrest)]
      cases readMove changeMove with
      | error e => rfl
      | ok movePath =>
        change (parseUpdateChunks _ >>= _) >>= _ = _
        rw [parseUpdateChunks_lines change hrest]
        cases readChange change with
        | error e => rfl
        | ok chunks =>
          cases hempty : chunks.isEmpty && movePath.isNone <;>
            simp [Except.map, bind, Except.bind, pure, Except.pure, hempty]

/-! ### The text as a whole -/

theorem oneLine_append (hmarker : '\n' ∉ marker.toList) (line : LineText) :
    '\n' ∉ (marker ++ line.text).toList := by
  rw [String.toList_append, mem_append, not_or]
  exact ⟨hmarker, line.oneLine⟩

theorem ChangeItem.oneLine : '\n' ∉ item.line.toList := by
  cases item with
  | changeLine mark line => exact oneLine_append (by cases mark <;> decide) line
  | changeContext context =>
    cases context with
    | none => decide
    | some context => exact oneLine_append (by decide) context.toLineText

theorem oneLine_changeLines : ∀ line ∈ changeLines change, '\n' ∉ line.toList := by
  cases change with
  | none => exact forall_mem_nil _
  | some change =>
    refine forall_mem_append.mpr ⟨forall_mem_map.mpr fun item _ => item.oneLine, ?_⟩
    cases change.eofLine <;> decide

theorem Hunk.oneLine (hunk : Hunk) : ∀ line ∈ hunk.lines, '\n' ∉ line.toList := by
  have hheader {marker : String} (hmarker : '\n' ∉ marker.toList) (filename : NonEmptyText) :
      '\n' ∉ (marker ++ filename.text).toList := oneLine_append hmarker filename.toLineText
  cases hunk with
  | addHunk filename lines _ =>
    exact forall_mem_cons.mpr ⟨hheader (by decide) filename,
      forall_mem_map.mpr fun added _ => oneLine_append (by decide) added⟩
  | deleteHunk filename => exact forall_mem_singleton.mpr (hheader (by decide) filename)
  | updateHunk filename changeMove change =>
    refine forall_mem_cons.mpr ⟨hheader (by decide) filename,
      forall_mem_append.mpr ⟨?_, oneLine_changeLines change⟩⟩
    cases changeMove with
    | none => exact forall_mem_nil _
    | some target => exact forall_mem_singleton.mpr (hheader (by decide) target)

/-- All lines of a derivation. -/
def Patch.allLines (patch : Patch) : List String :=
  beginMarker :: (patch.hunks.flatMap Hunk.lines ++ [endMarker])

theorem Patch.oneLine : ∀ line ∈ patch.allLines, '\n' ∉ line.toList := by
  refine forall_mem_cons.mpr
    ⟨by decide, forall_mem_append.mpr ⟨?_, forall_mem_singleton.mpr (by decide)⟩⟩
  exact forall_mem_flatMap.mpr fun hunk _ => hunk.oneLine

/-- The text up to the end marker. -/
def Patch.core (patch : Patch) : String :=
  String.join ((beginMarker :: patch.hunks.flatMap Hunk.lines).map (· ++ "\n")) ++ endMarker

theorem Patch.splitLines_core : TextBuffer.splitLines patch.core = patch.allLines := by
  rw [core, TextBuffer.splitLines_join]
  · rfl
  · exact patch.oneLine

theorem Patch.trim_text : trim patch.text = patch.core := by
  have hcore : trim patch.core = patch.core := by
    have hlist : patch.core.toList = '*' :: ((beginMarker.toList.tail ++ ['\n'] ++
        (String.join ((patch.hunks.flatMap Hunk.lines).map (· ++ "\n"))).toList ++
          endMarker.toList.dropLast) ++ ['h']) := by
      simp [core, beginMarker, endMarker, String.toList_join]
    exact trimMatches_eq_self hlist (by decide) (by decide)
  rw [text]
  split
  · rw [trim, trimMatches_concat String.toList_append (by decide)]
    exact hcore
  · rw [String.append_empty]
    exact hcore

theorem patchBody_allLines : patchBody patch.allLines = .ok (patch.hunks.flatMap Hunk.lines) := by
  have hbegin : patch.allLines.findIdx? (· == beginMarker) = some 0 := by
    simp [Patch.allLines, findIdx?_cons]
  have hend : Scan.rposition (· == endMarker) patch.allLines =
      some ((patch.hunks.flatMap Hunk.lines).length + 1) := by
    simp [Patch.allLines, Scan.rposition, findIdx?_cons]
  rw [patchBody, hbegin, hend]
  simp [Patch.allLines]

theorem normalizeLineEnds_eq_self {text : String} (h : '\r' ∉ text.toList) :
    normalizeLineEnds text = text := by
  have hpattern : "\r\n".toList = '\r' :: ['\n'] := by decide
  rw [normalizeLineEnds, replace_eq_self hpattern h, replaceChar_eq_self h]

/-- **On a derivable text the parser reads the hunks of the derivation one by one.** -/
theorem parsePatchFiles_text (h : '\r' ∉ patch.text.toList) :
    parsePatchFiles patch.text = patch.hunks.mapM Hunk.read := by
  have hscan : Scan.scanAll hasLines parseHunk (patch.hunks.flatMap Hunk.lines ++ []) =
      (patch.hunks.mapM fun hunk => (Hunk.read hunk).map some).map fun rounds => (rounds, []) :=
    Scan.scanAll_flatMap Follows rfl parseHunk_consumes
      (fun hunk rest => by cases hunk <;> rfl) (fun hunk rest => hunk.follows rest)
      (fun hunk rest hrest => parseHunk_lines hunk hrest) patch.hunks
      nofun rfl
  rw [append_nil, Proc.except_mapM_map] at hscan
  rw [parsePatchFiles, normalizeLineEnds_eq_self h, patch.trim_text, patch.splitLines_core,
    patchBody_allLines]
  change Scan.scanAll hasLines parseHunk _ >>= _ = _
  rw [hscan]
  cases hread : patch.hunks.mapM Hunk.read with
  | error e => rfl
  | ok hunks =>
    have hne : hunks ≠ [] := by
      rintro rfl
      exact patch.hunks_ne (length_eq_zero_iff.mp (Proc.except_mapM_forall₂ hread).length_eq)
    change (if (hunks.map some).reduceOption.isEmpty then _ else
      Except.ok (hunks.map some).reduceOption) = _
    have hsome : (hunks.map some).reduceOption = hunks := by simp [reduceOption]
    rw [hsome, if_neg (by simpa using hne)]

/-- **Conformance with the published grammar**: a derivable text without carriage returns is
accepted exactly if its hunks meet the parser's further demands, and is read as derived. -/
theorem grammar_conformance (patch : Patch) (h : '\r' ∉ patch.text.toList) :
    ((∃ hunks, parsePatchFiles patch.text = .ok hunks) ↔ ∀ hunk ∈ patch.hunks, hunk.Accepted) ∧
      ∀ hunks, parsePatchFiles patch.text = .ok hunks → hunks = patch.hunks.map Hunk.derived := by
  rw [parsePatchFiles_text patch h]
  constructor
  · constructor
    · rintro ⟨hunks, hread⟩ hunk hmem
      obtain ⟨result, -, hresult⟩ := Proc.exists_of_except_mapM hread hmem
      exact (Hunk.read_eq_ok.mp hresult).1
    · intro haccepted
      exact Proc.except_mapM_ok _ fun hunk hmem =>
        ⟨hunk.derived, Hunk.read_eq_ok.mpr ⟨haccepted hunk hmem, rfl⟩⟩
  · intro hunks hread
    have haccepted : ∀ hunk ∈ patch.hunks, hunk.read = .ok hunk.derived := by
      intro hunk hmem
      obtain ⟨result, -, hresult⟩ := Proc.exists_of_except_mapM hread hmem
      obtain ⟨-, rfl⟩ := Hunk.read_eq_ok.mp hresult
      exact hresult
    rw [Proc.except_mapM_eq haccepted] at hread
    exact (Except.ok.inj hread).symm

/-! ### Two derivations -/

/-- Adds a file, and moves and changes another. -/
def addAndMove : Patch where
  hunks := [
    .addHunk ⟨⟨"new.txt", by decide⟩, by decide⟩ [⟨"*** End Patch", by decide⟩, ⟨"", by decide⟩]
      (by decide),
    .updateHunk ⟨⟨"a.rs", by decide⟩, by decide⟩ (some ⟨⟨"b.rs", by decide⟩, by decide⟩)
      (some {
        items := [.changeContext (some ⟨⟨"fn main", by decide⟩, by decide⟩),
          .changeLine .kept ⟨"x", by decide⟩, .changeLine .removed ⟨"y", by decide⟩,
          .changeContext none, .changeLine .added ⟨"z", by decide⟩]
        items_ne := by decide
        eofLine := true })]
  hunks_ne := by decide
  finalLineFeed := true

theorem grammar_conformance_addAndMove : addAndMove.hunks.map Hunk.derived = [
      .add "new.txt" "*** End Patch\n",
      .update "a.rs" (some "b.rs") [⟨some "fn main", ["x", "y"], ["x"], false⟩,
        ⟨none, [], ["z"], true⟩]] ∧
    ((∃ hunks, parsePatchFiles addAndMove.text = .ok hunks) ↔
      ∀ hunk ∈ addAndMove.hunks, hunk.Accepted) ∧
    ∀ hunks, parsePatchFiles addAndMove.text = .ok hunks →
      hunks = addAndMove.hunks.map Hunk.derived :=
  ⟨by decide +kernel, grammar_conformance addAndMove (by decide +kernel)⟩

/-- An update whose change begins with a change line, as the grammar allows. -/
def changeWithoutContext : Patch where
  hunks := [.updateHunk ⟨⟨"a.rs", by decide⟩, by decide⟩ none
    (some { items := [.changeLine .added ⟨"x", by decide⟩], items_ne := by decide,
            eofLine := false })]
  hunks_ne := by decide
  finalLineFeed := false

/-- **A derivable text that is rejected**: the parser wants a context line first. -/
theorem derivable_text_is_rejected :
    changeWithoutContext.text = "*** Begin Patch\n*** Update File: a.rs\n+x\n*** End Patch" ∧
    parsePatchFiles changeWithoutContext.text = invalid
      "patch_files freeform update hunks must start each chunk with `@@`; found `+x`" := by
  decide +kernel

end Nanoclaw.Tools.PatchGrammar
