import Nanoclaw.Lib.Scan
import Nanoclaw.Tools.TextEdit

/-!
# The Freeform Patch Parser

A patch may be given as a text between `*** Begin Patch` and `*** End Patch`: a list of hunks,
each of which adds, deletes or updates a file. The loops of the source move an index; here they
are the loops of `Scan`, over the lines that are left before the end marker. A change line is
split after its first byte; if its first character has several, the parser panics.
-/

namespace Nanoclaw.Tools

open List

structure UpdateChunk where
  changeContext : Option String
  oldLines : List String
  newLines : List String
  isEndOfFile : Bool
  deriving DecidableEq

inductive PatchHunk where
  | add (path contents : String)
  | delete (path : String)
  | update (path : String) (movePath : Option String) (chunks : List UpdateChunk)
  deriving DecidableEq

def beginMarker : String := "*** Begin Patch"
def endMarker : String := "*** End Patch"
def addMarker : String := "*** Add File: "
def deleteMarker : String := "*** Delete File: "
def updateMarker : String := "*** Update File: "
def moveMarker : String := "*** Move to: "
def endOfFileMarker : String := "*** End of File"

/-- How the parser stops before the end: it returns an error, or it panics. -/
inductive ParseStop where
  | error (error : ToolError)
  | panicked
  deriving DecidableEq

/-- Return `ToolError::invalid`. -/
abbrev invalid {α : Type} (message : String) : Except ParseStop α :=
  .error (.error (.invalidInput message))

def parseNonEmptyPath (raw label : String) : Except ParseStop String :=
  let path := Text.trim raw
  if path.isEmpty then
    invalid ("patch_files freeform " ++ label ++ " path must not be empty")
  else .ok path

/-! ### The body of an added file -/

/-- The line is there and does not start another part of the patch. -/
def inAddedFile (lines : List String) : Bool :=
  lines.head?.any fun line => !Text.startsWith line "***"

def parseAddedLine : Scan.Scanner String ParseStop String
  | [] => invalid "patch_files freeform add hunks may only contain `+` lines"
  | line :: rest =>
    match Text.stripStart line "+" with
    | some content => .ok (content, rest)
    | none => invalid "patch_files freeform add hunks may only contain `+` lines"

def parseAddContents (lines : List String) : Except ParseStop (String × List String) := do
  let (contentLines, rest) ← Scan.scanAll inAddedFile parseAddedLine lines
  if contentLines.isEmpty then
    invalid "patch_files freeform add file hunks must contain at least one `+` line"
  else .ok ("\n".intercalate contentLines, rest)

/-! ### The changes of an updated file -/

/-- Inside an update, only the end-of-file marker starts with asterisks. -/
def endsUpdate (line : String) : Bool :=
  Text.startsWith line "***" && line != endOfFileMarker

def inUpdate (lines : List String) : Bool :=
  lines.head?.any fun line => !endsUpdate line

/-- The lines below the context line of a chunk. -/
structure ChangeLines where
  oldLines : List String
  newLines : List String
  isEndOfFile : Bool

namespace ChangeLines

def empty : ChangeLines := ⟨[], [], false⟩

def context (content : String) (changes : ChangeLines) : ChangeLines :=
  { changes with
    oldLines := content :: changes.oldLines, newLines := content :: changes.newLines }

def removed (content : String) (changes : ChangeLines) : ChangeLines :=
  { changes with oldLines := content :: changes.oldLines }

def added (content : String) (changes : ChangeLines) : ChangeLines :=
  { changes with newLines := content :: changes.newLines }

end ChangeLines

/-- What a change line does to the lines read so far. -/
def changeOf (changeLine : String) : Except ParseStop (ChangeLines → ChangeLines) :=
  match changeLine.toList with
  | [] => invalid "patch_files freeform change lines must begin with ` `, `+`, or `-`"
  | ' ' :: content => .ok (.context (String.ofList content))
  | '-' :: content => .ok (.removed (String.ofList content))
  | '+' :: content => .ok (.added (String.ofList content))
  | first :: _ =>
    -- The line is split after its first byte.
    if first.utf8Size = 1 then
      invalid ("unsupported patch_files freeform change line `" ++ changeLine ++ "`")
    else .error .panicked

def parseChangeLines : Scan.Scanner String ParseStop ChangeLines
  | [] => .ok (.empty, [])
  | line :: rest =>
    if Text.startsWith line "@@" || endsUpdate line then .ok (.empty, line :: rest)
    else if line = endOfFileMarker then .ok ({ ChangeLines.empty with isEndOfFile := true }, rest)
    else do
      let change ← changeOf line
      let (changes, rest) ← parseChangeLines rest
      return (change changes, rest)

def parseUpdateChunk : Scan.Scanner String ParseStop UpdateChunk
  | [] => invalid
      "patch_files freeform update hunks must start each chunk with `@@`; found ``"
  | line :: rest =>
    match Text.stripStart line "@@" with
    | none => invalid
        ("patch_files freeform update hunks must start each chunk with `@@`; found `" ++
          line ++ "`")
    | some context => do
      let (changes, rest) ← parseChangeLines rest
      return ({ changeContext :=
                  if (Text.trim context).isEmpty then none else some (Text.trim context)
                oldLines := changes.oldLines
                newLines := changes.newLines
                isEndOfFile := changes.isEndOfFile }, rest)

def parseUpdateChunks : Scan.Scanner String ParseStop (List UpdateChunk) :=
  Scan.scanAll inUpdate parseUpdateChunk

/-! ### Hunks -/

/-- The move target, if the next line gives one. -/
def parseMoveTarget : Scan.Scanner String ParseStop (Option String)
  | [] => .ok (none, [])
  | line :: rest =>
    match Text.stripStart line moveMarker with
    | some value => do
      let movePath ← parseNonEmptyPath value "move target"
      return (some movePath, rest)
    | none => .ok (none, line :: rest)

def parseUpdate (path : String) (lines : List String) :
    Except ParseStop (PatchHunk × List String) := do
  let (movePath, rest) ← parseMoveTarget lines
  let (chunks, rest) ← parseUpdateChunks rest
  if chunks.isEmpty && movePath.isNone then
    invalid ("update hunk for `" ++ path ++ "` must include at least one change or a move target")
  else .ok (.update path movePath chunks, rest)

/-- One round of the main loop. A blank line gives no hunk. -/
def parseHunk : Scan.Scanner String ParseStop (Option PatchHunk)
  | [] => .ok (none, [])
  | line :: rest =>
    match Text.stripStart line addMarker with
    | some path => do
      let path ← parseNonEmptyPath path "add file"
      let (contents, rest) ← parseAddContents rest
      return (some (.add path contents), rest)
    | none =>
    match Text.stripStart line deleteMarker with
    | some path => do
      let path ← parseNonEmptyPath path "delete file"
      return (some (.delete path), rest)
    | none =>
    match Text.stripStart line updateMarker with
    | some path => do
      let path ← parseNonEmptyPath path "update file"
      let (hunk, rest) ← parseUpdate path rest
      return (some hunk, rest)
    | none =>
      if (Text.trim line).isEmpty then .ok (none, rest)
      else invalid ("unexpected patch_files freeform line `" ++ line ++ "`")

/-- Every line end is a line feed afterwards. -/
def normalizeLineEnds (text : String) : String :=
  Text.replaceChar (Text.replace text "\r\n" "\n") '\r' "\n"

/-- The lines between the first begin marker and the last end marker. -/
def patchBody (lines : List String) : Except ParseStop (List String) :=
  match lines.findIdx? (· == beginMarker) with
  | none => invalid "patch_files freeform input is missing `*** Begin Patch`"
  | some beginIndex =>
  match Scan.rposition (· == endMarker) lines with
  | none => invalid "patch_files freeform input is missing `*** End Patch`"
  | some endIndex =>
    if endIndex ≤ beginIndex then
      invalid ("patch_files freeform markers are malformed; " ++
        "`*** End Patch` must come after `*** Begin Patch`")
    else .ok ((lines.take endIndex).drop (beginIndex + 1))

def hasLines (lines : List String) : Bool :=
  !lines.isEmpty

def parsePatchFiles (patchText : String) : Except ParseStop (List PatchHunk) := do
  let body ← patchBody (TextBuffer.splitLines (Text.trim (normalizeLineEnds patchText)))
  let (rounds, _) ← Scan.scanAll hasLines parseHunk body
  let hunks := rounds.reduceOption
  if hunks.isEmpty then
    invalid ("patch_files freeform input requires at least one file hunk " ++
      "between the begin/end markers")
  else .ok hunks

/-! ### Every loop ends -/

theorem parseAddedLine_consumes : Scan.Consumes inAddedFile parseAddedLine := by
  intro input value rest _ h
  cases input with
  | nil => cases h
  | cons line lines =>
    rw [parseAddedLine] at h
    split at h
    · cases h
      exact suffix_rfl
    · cases h

variable {lines rest : List String}

theorem parseChangeLines_suffix {changes : ChangeLines}
    (h : parseChangeLines lines = .ok (changes, rest)) : rest <:+ lines := by
  induction lines generalizing changes with
  | nil =>
    cases h
    exact suffix_rfl
  | cons line lines ih =>
    rw [parseChangeLines] at h
    split at h
    · cases h
      exact suffix_rfl
    split at h
    · cases h
      exact suffix_cons _ _
    obtain ⟨change, -, h⟩ := Proc.except_bind_eq_ok.mp h
    obtain ⟨⟨changes', rest'⟩, hchanges, h⟩ := Proc.except_bind_eq_ok.mp h
    cases h
    exact (ih hchanges).trans (suffix_cons _ _)

theorem parseUpdateChunk_consumes : Scan.Consumes inUpdate parseUpdateChunk := by
  intro input value rest _ h
  cases input with
  | nil => cases h
  | cons line lines =>
    rw [parseUpdateChunk] at h
    split at h
    · cases h
    obtain ⟨⟨changes, rest'⟩, hchanges, h⟩ := Proc.except_bind_eq_ok.mp h
    cases h
    exact parseChangeLines_suffix hchanges

theorem parseMoveTarget_suffix {movePath : Option String}
    (h : parseMoveTarget lines = .ok (movePath, rest)) : rest <:+ lines := by
  cases lines with
  | nil =>
    cases h
    exact suffix_rfl
  | cons line lines =>
    rw [parseMoveTarget] at h
    split at h
    · obtain ⟨path, -, h⟩ := Proc.except_bind_eq_ok.mp h
      cases h
      exact suffix_cons _ _
    · cases h
      exact suffix_rfl

theorem parseHunk_consumes : Scan.Consumes hasLines parseHunk := by
  intro input hunk rest hlines h
  cases input with
  | nil => cases hlines
  | cons line lines =>
    rw [parseHunk] at h
    split at h
    · obtain ⟨path, -, h⟩ := Proc.except_bind_eq_ok.mp h
      obtain ⟨⟨contents, rest'⟩, hcontents, h⟩ := Proc.except_bind_eq_ok.mp h
      obtain ⟨⟨contentLines, rest'⟩, hscan, hcontents⟩ := Proc.except_bind_eq_ok.mp hcontents
      dsimp only at hcontents
      split at hcontents <;> cases hcontents
      cases h
      exact Scan.many_suffix parseAddedLine_consumes hscan
    split at h
    · obtain ⟨path, -, h⟩ := Proc.except_bind_eq_ok.mp h
      cases h
      exact suffix_rfl
    split at h
    · obtain ⟨path, -, h⟩ := Proc.except_bind_eq_ok.mp h
      obtain ⟨⟨hunk, rest'⟩, hupdate, h⟩ := Proc.except_bind_eq_ok.mp h
      obtain ⟨⟨movePath, rest₁⟩, hmove, hupdate⟩ := Proc.except_bind_eq_ok.mp hupdate
      obtain ⟨⟨chunks, rest₂⟩, hchunks, hupdate⟩ := Proc.except_bind_eq_ok.mp hupdate
      dsimp only at hupdate
      split at hupdate <;> cases hupdate
      cases h
      exact (Scan.many_suffix parseUpdateChunk_consumes hchunks).trans
        (parseMoveTarget_suffix hmove)
    split at h <;> cases h
    exact suffix_rfl

/-! ### Places in a patch -/

/-- Where the parser is between two lines: between the hunks, in an added file, below the first line
of an update, between its chunks, or among the changes of a chunk. -/
inductive Place where
  | hunks
  | added (full : Bool)
  | header
  | chunks (full : Bool)
  | changes

namespace Place

/-- A line between the hunks. -/
def ofHunkLine (line : String) : Option Place :=
  match Text.stripStart line addMarker with
  | some path => if (Text.trim path).isEmpty then none else some (.added false)
  | none =>
  match Text.stripStart line deleteMarker with
  | some path => if (Text.trim path).isEmpty then none else some .hunks
  | none =>
  match Text.stripStart line updateMarker with
  | some path => if (Text.trim path).isEmpty then none else some .header
  | none => if (Text.trim line).isEmpty then some .hunks else none

/-- A line between the chunks of an update. -/
def ofChunkLine (full : Bool) (line : String) : Option Place :=
  if endsUpdate line then if full then ofHunkLine line else none
  else (Text.stripStart line "@@").map fun _ => .changes

/-- **Where a line leads**, unless it is refused. -/
def next (place : Place) (line : String) : Option Place :=
  match place with
  | .hunks => ofHunkLine line
  | .added full =>
    if Text.startsWith line "***" then if full then ofHunkLine line else none
    else (Text.stripStart line "+").map fun _ => .added true
  | .header =>
    match Text.stripStart line moveMarker with
    | some value => if (Text.trim value).isEmpty then none else some (.chunks true)
    | none => ofChunkLine false line
  | .chunks full => ofChunkLine full line
  | .changes =>
    if Text.startsWith line "@@" || endsUpdate line then ofChunkLine true line
    else if line = endOfFileMarker then some (.chunks true)
    else if (changeOf line).toBool then some .changes else none

end Place

/-- The line begins with a character of several bytes. -/
def beginsWide (line : String) : Bool :=
  line.toList.head?.any fun first => decide (first.utf8Size ≠ 1)

/-- **Such a line stands among the changes of a chunk**, and no line before it is refused. -/
def SplitsCharacter (body : List String) : Prop :=
  ∃ before line after, body = before ++ line :: after ∧
    before.foldlM Place.next Place.hunks = some Place.changes ∧
    beginsWide line = true

/-! ### Panics, line by line -/

section After

variable {β γ : Type}

/-- The parser panics, or it goes on with a value. -/
def After (x : Except ParseStop β) (P : β → Prop) : Prop :=
  match x with
  | .ok value => P value
  | .error .panicked => True
  | .error (.error _) => False

variable {P : β → Prop}

@[simp] theorem after_ok (value : β) : After (.ok value) P ↔ P value := .rfl

@[simp] theorem after_map (f : γ → β) (x : Except ParseStop γ) :
    After (f <$> x) P ↔ After x fun value => P (f value) := by
  rcases x with (_ | _) | _ <;> rfl

@[simp] theorem after_invalid (message : String) : After (invalid message) P ↔ False := .rfl

@[simp] theorem after_bind (x : Except ParseStop γ) (f : γ → Except ParseStop β) :
    After (x >>= f) P ↔ After x fun value => After (f value) P := by
  rcases x with (_ | _) | _ <;> rfl

theorem after_ite {p : Prop} [Decidable p] (x y : Except ParseStop β) :
    After (if p then x else y) P ↔ if p then After x P else After y P := by
  split <;> rfl

theorem after_false_iff (x : Except ParseStop β) :
    After x (fun _ => False) ↔ x = .error .panicked := by
  rcases x with (_ | _) | _ <;> simp [After]

/-- A round of a loop. -/
theorem after_scanAll {more : List String → Bool} {item : Scan.Scanner String ParseStop β}
    (hnil : more [] = false) (hitem : Scan.Consumes more item) (lines : List String)
    {P : List β × List String → Prop} : After (Scan.scanAll more item lines) P ↔
      if more lines then After (item lines) fun read =>
        After (Scan.scanAll more item read.2) fun later => P (read.1 :: later.1, later.2)
      else P ([], lines) := by
  rw [Scan.scanAll_eq hnil hitem]
  split <;> simp

@[simp] theorem after_path (raw label : String) {P : Prop} :
    After (parseNonEmptyPath raw label) (fun _ => P) ↔ ¬ (Text.trim raw).isEmpty ∧ P := by
  simp only [parseNonEmptyPath]
  split <;> simp_all

theorem beginsWide_eq_false {line start : String} (h : Text.startsWith line start = true)
    (hstart : start.toList.head?.any (·.utf8Size = 1) = true) : beginsWide line = false := by
  obtain ⟨rest, hrest⟩ := isPrefixOf_iff_prefix.mp h
  rw [beginsWide, ← hrest]
  cases hlist : start.toList with
  | nil => simp [hlist] at hstart
  | cons first later => simpa [hlist] using hstart

theorem after_changeOf (line : String) {P : Prop} : After (changeOf line) (fun _ => P) ↔
    beginsWide line = true ∨ (changeOf line).toBool = true ∧ P := by
  unfold changeOf beginsWide
  split
  · simp [*, Except.toBool]
  · simp [*, Except.toBool, show ' '.utf8Size = 1 from rfl]
  · simp [*, Except.toBool, show '-'.utf8Size = 1 from rfl]
  · simp [*, Except.toBool, show '+'.utf8Size = 1 from rfl]
  next hline =>
    rw [hline]
    split <;> simp_all [Except.toBool, After]

end After

/-- The parser panics between the hunks, or later. -/
def PanicsInHunks (lines : List String) : Prop :=
  After (Scan.scanAll hasLines parseHunk lines) fun _ => False

/-- The parser panics between the chunks of an update, or later. -/
def PanicsInChunks (full : Bool) (lines : List String) : Prop :=
  After (Scan.scanAll inUpdate parseUpdateChunk lines) fun read =>
    (read.1 = [] → full = true) ∧ PanicsInHunks read.2

/-- **The parser panics from a place on.** -/
def Panics (lines : List String) : Place → Prop
  | .hunks => PanicsInHunks lines
  | .added full => After (Scan.scanAll inAddedFile parseAddedLine lines) fun read =>
    (read.1 = [] → full = true) ∧ PanicsInHunks read.2
  | .header => After (parseMoveTarget lines) fun read => PanicsInChunks read.1.isSome read.2
  | .chunks full => PanicsInChunks full lines
  | .changes => After (parseChangeLines lines) fun read => PanicsInChunks true read.2

variable (line : String) (full : Bool)

theorem panicsInHunks_cons :
    PanicsInHunks (line :: rest) ↔ ∃ place ∈ Place.ofHunkLine line, Panics rest place := by
  rw [PanicsInHunks, after_scanAll rfl parseHunk_consumes, if_pos (by rfl), parseHunk,
    Place.ofHunkLine]
  cases Text.stripStart line addMarker with
  | some path =>
    simp [parseAddContents, Panics, PanicsInHunks, after_ite]
  | none =>
  cases Text.stripStart line deleteMarker with
  | some path => simp [Panics, PanicsInHunks]
  | none =>
  cases Text.stripStart line updateMarker with
  | some path =>
    simp [parseUpdate, parseUpdateChunks, Panics, PanicsInHunks, PanicsInChunks, after_ite,
      Option.isSome_iff_ne_none]
  | none => simp [after_ite, Panics, PanicsInHunks]

theorem panicsInChunks_cons : PanicsInChunks full (line :: rest) ↔
    ∃ place ∈ Place.ofChunkLine full line, Panics rest place := by
  rw [PanicsInChunks, after_scanAll rfl parseUpdateChunk_consumes, Place.ofChunkLine]
  by_cases hend : endsUpdate line = true
  · cases full <;> simp [inUpdate, hend, panicsInHunks_cons]
  · rw [if_pos (by simp [inUpdate, hend]), if_neg hend, parseUpdateChunk]
    cases Text.stripStart line "@@" <;> simp [Panics, PanicsInChunks]

theorem panics_cons (place : Place) : Panics (line :: rest) place ↔
    place = .changes ∧ beginsWide line = true ∨ ∃ next ∈ place.next line, Panics rest next := by
  cases place with
  | hunks => simp [Panics, Place.next, panicsInHunks_cons]
  | added full =>
    rw [Panics, after_scanAll rfl parseAddedLine_consumes, Place.next, parseAddedLine]
    by_cases hend : Text.startsWith line "***" = true
    · cases full <;> simp [inAddedFile, hend, panicsInHunks_cons]
    · rw [if_pos (by simp [inAddedFile, hend]), if_neg hend]
      cases Text.stripStart line "+" <;> simp [Panics]
  | header =>
    rw [Panics, parseMoveTarget, Place.next]
    cases Text.stripStart line moveMarker with
    | some value => simp [Panics]
    | none => simp [panicsInChunks_cons]
  | chunks full => simp [Panics, Place.next, panicsInChunks_cons]
  | changes =>
    rw [Panics, parseChangeLines, Place.next]
    by_cases hend : (Text.startsWith line "@@" || endsUpdate line) = true
    · have hnarrow : beginsWide line = false := by
        rcases Bool.or_eq_true_iff.mp hend with h | h
        · exact beginsWide_eq_false h rfl
        · exact beginsWide_eq_false (Bool.and_eq_true_iff.mp h).1 rfl
      rw [if_pos hend, if_pos hend]
      simp [panicsInChunks_cons, hnarrow]
    · rw [if_neg hend, if_neg hend]
      by_cases heof : line = endOfFileMarker
      · simp [heof, Panics, show beginsWide endOfFileMarker = false from rfl]
      · rw [if_neg heof, if_neg heof]
        simp [after_changeOf, Panics]

theorem panics_nil (place : Place) : ¬ Panics [] place := by
  have hchunks (full : Bool) : ¬ PanicsInChunks full [] := by
    cases full <;> simp [PanicsInChunks, PanicsInHunks, Scan.scanAll, Scan.many]
  cases place with
  | hunks => exact id
  | added full => cases full <;> simp [Panics, PanicsInHunks, Scan.scanAll, Scan.many]
  | header => exact hchunks false
  | chunks full => exact hchunks full
  | changes => exact hchunks true

theorem panics_iff (place : Place) (lines : List String) : Panics lines place ↔
    ∃ before line after, lines = before ++ line :: after ∧
      before.foldlM Place.next place = some Place.changes ∧ beginsWide line = true := by
  induction lines generalizing place with
  | nil => simp [panics_nil]
  | cons line rest ih =>
    rw [panics_cons]
    simp only [ih]
    constructor
    · rintro (⟨rfl, hwide⟩ | ⟨next, hnext, before, wide, after, rfl, hbefore, hwide⟩)
      · exact ⟨[], line, rest, rfl, rfl, hwide⟩
      · refine ⟨line :: before, wide, after, rfl, ?_, hwide⟩
        rw [foldlM_cons, Option.mem_def.mp hnext]
        exact hbefore
    · rintro ⟨_ | ⟨first, before⟩, wide, after, heq, hbefore, hwide⟩
      · cases heq
        cases hbefore
        exact .inl ⟨rfl, hwide⟩
      · cases heq
        rw [foldlM_cons] at hbefore
        obtain ⟨next, hnext, hbefore⟩ := Option.bind_eq_some_iff.mp hbefore
        exact .inr ⟨next, hnext, before, wide, after, rfl, hbefore, hwide⟩

/-- The lines of a text, as the parser reads them. -/
def patchLines (patchText : String) : List String :=
  TextBuffer.splitLines (Text.trim (normalizeLineEnds patchText))

/-- **When the parser panics**: a line that begins with a character of several bytes stands among
the changes of a chunk, and no line before it is refused. -/
theorem parser_panics_iff (patchText : String) : parsePatchFiles patchText = .error .panicked ↔
    ∃ body, patchBody (patchLines patchText) = .ok body ∧ SplitsCharacter body := by
  have hbody {P} : After (patchBody (patchLines patchText)) P ↔
      ∃ body, patchBody (patchLines patchText) = .ok body ∧ P body := by
    unfold patchBody
    repeat' split
    all_goals simp
  rw [← after_false_iff, parsePatchFiles, after_bind, ← patchLines, hbody]
  refine exists_congr fun body => and_congr_right fun _ => ?_
  rw [after_bind]
  refine Iff.trans ?_ (panics_iff .hunks body)
  refine iff_of_eq (congrArg (After _) (funext fun read => propext ?_))
  simp only [after_ite, after_invalid, after_ok, ite_self]

/-- **An accented letter in the first place of a change line**: the line is split inside it. -/
theorem accented_line_panics :
    parsePatchFiles "*** Begin Patch\n*** Update File: a\n@@\né\n*** End Patch" =
      .error .panicked := by
  decide +kernel

end Nanoclaw.Tools
