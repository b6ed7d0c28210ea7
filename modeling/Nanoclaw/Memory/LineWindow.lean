import Nanoclaw.Lib.Text

/-!
# The line window of a memory document

A get request of `memory-core` names a document of the corpus, a first line and a number of
lines, and is answered with these lines, numbered, and with the line numbers they really have.

* `memory_window_iff` — the answer is the window asked for exactly for a document without lines,
  or for a count that is not zero and does not take the sum of both numbers past 64 bits.
-/

open List

namespace Nanoclaw.Memory

/-- A document of the corpus: no vector of strings has `2 ^ 63` of them. -/
structure MemoryCorpusDocument (μ : Type) where
  path : String
  snapshotId : String
  title : String
  lines : List String
  metadata : μ
  length_lt : lines.length < 2 ^ 63

structure MemoryGetRequest where
  path : String
  startLine : Option UInt64
  lineCount : Option UInt64

structure MemoryDocument (μ : Type) where
  path : String
  snapshotId : String
  title : String
  requestedStartLine : ℕ
  resolvedStartLine : ℕ
  resolvedEndLine : ℕ
  totalLines : ℕ
  text : String
  metadata : μ
deriving DecidableEq

/-- How a request fails; a panic is an overflow or a slice out of order. -/
inductive GetFailure where
  | pathNotInCorpus (path : String)
  | panic
deriving DecidableEq

def formatNumberedLines (lines : List String) (startLine : ℕ) : String :=
  let width := max (toString (startLine + (lines.length - 1))).length 2
  "\n".intercalate ((lines.zipIdx startLine).map fun (line, number) =>
    String.ofList ((toString number).toList.leftpad width ' ') ++ " | " ++ line)

variable {μ : Type} (document : MemoryCorpusDocument μ) (req : MemoryGetRequest)

def MemoryGetRequest.start : ℕ :=
  max (req.startLine.elim 1 UInt64.toNat) 1

namespace MemoryCorpusDocument

/-- The answer from lines `start` to `last` of a document. -/
def answer (start last : ℕ) (lines : List String) : MemoryDocument μ where
  path := document.path
  snapshotId := document.snapshotId
  title := document.title
  requestedStartLine := req.start
  resolvedStartLine := start
  resolvedEndLine := last
  totalLines := document.lines.length
  text := formatNumberedLines lines start
  metadata := document.metadata

/-- The number of lines asked for: without one, all. -/
def requestedCount : ℕ :=
  req.lineCount.elim document.lines.length UInt64.toNat

/-- `get`, once the document is found. -/
def read : Except GetFailure (MemoryDocument μ) :=
  if document.lines = [] then .ok (document.answer req 0 0 [])
  else
    let lineCount := max (document.requestedCount req) 1
    let resolvedStart := min req.start (max document.lines.length 1)
    if 2 ^ 64 ≤ resolvedStart + lineCount then .error .panic
    else
      let resolvedEnd := min (resolvedStart + lineCount - 1) document.lines.length
      if resolvedEnd < resolvedStart - 1 then .error .panic
      else .ok (document.answer req resolvedStart resolvedEnd
        ((document.lines.take resolvedEnd).drop (resolvedStart - 1)))

/-- The line a window starts at. -/
def windowStart : ℕ :=
  min req.start document.lines.length

/-- The lines asked for. -/
def windowLines : List String :=
  (document.lines.drop (document.windowStart req - 1)).take (document.requestedCount req)

/-- The answer meant: the lines of the window, under their numbers. -/
def window : MemoryDocument μ :=
  document.answer req (document.windowStart req)
    (document.windowStart req + (document.windowLines req).length - 1) (document.windowLines req)

theorem read_eq_window_iff : document.read req = .ok (document.window req) ↔ document.lines = [] ∨
      0 < document.requestedCount req ∧
        document.windowStart req + document.requestedCount req < 2 ^ 64 := by
  by_cases hnil : document.lines = []
  · simp [read, window, windowStart, windowLines, hnil]
  have hlength := length_pos_iff.mpr hnil
  have hlt := document.length_lt
  have hstart : 1 ≤ document.windowStart req := le_min (le_max_right _ _) hlength
  have hle : document.windowStart req ≤ document.lines.length := min_le_right _ _
  rw [read, if_neg hnil, or_iff_right hnil, max_eq_left (show 1 ≤ _ from hlength)]
  dsimp only
  rw [← windowStart]
  split
  next hover =>
    refine iff_of_false nofun ?_
    omega
  next hover =>
    rw [if_neg (by omega)]
    constructor
    · intro hanswer
      have hlast : min _ _ = _ - 1 :=
        congrArg MemoryDocument.resolvedEndLine (Except.ok.inj hanswer)
      have hlines : (document.windowLines req).length ≤ document.requestedCount req :=
        length_take_le _ _
      omega
    · rintro ⟨hcount, -⟩
      rw [max_eq_left (show 1 ≤ _ from hcount), window, windowLines, length_take, length_drop,
        drop_take]
      congr 2
      · omega
      · rw [take_eq_take_iff, length_drop]
        omega

end MemoryCorpusDocument

variable (documents : List (MemoryCorpusDocument μ))

def MemoryGetRequest.find? : Option (MemoryCorpusDocument μ) :=
  documents.find? fun document => document.path = Text.replaceChar req.path '\\' "/"

def get : Except GetFailure (MemoryDocument μ) :=
  match req.find? documents with
  | none => .error (.pathNotInCorpus req.path)
  | some document => document.read req

/-- **The window asked for is answered unless the numbers overflow or none is asked for.** -/
theorem memory_window_iff (documents : List (MemoryCorpusDocument μ)) :
    (∀ document, req.find? documents = some document →
        get req documents = .ok (document.window req)) ↔
      ∀ document, req.find? documents = some document → document.lines = [] ∨
        0 < document.requestedCount req ∧
          document.windowStart req + document.requestedCount req < 2 ^ 64 := by
  refine forall₂_congr fun document hfind => ?_
  rw [get, hfind]
  exact document.read_eq_window_iff req

/-- The largest count, from the second line on, panics. -/
theorem largest_count_panics : get ⟨"MEMORY.md", some 2, some (-1)⟩
      [⟨"MEMORY.md", "snapshot", "Memory", ["one", "two"], (), by decide⟩] = .error .panic := by
  decide

end Nanoclaw.Memory
