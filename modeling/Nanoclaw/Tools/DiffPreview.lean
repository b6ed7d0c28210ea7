import Nanoclaw.Tools.TextEdit

/-!
# Diff Previews

What a file tool shows of its change: one hunk with the lines between the common first and last
lines of the two texts, which are compared by their lines.

* `diff_preview_rebuilds_lines` — there is no preview exactly for texts with the same lines.
-/

open List

namespace Nanoclaw.Tools

def stripReturn (line : String) : String :=
  if line.toList.getLast? = some '\r' then String.ofList line.toList.dropLast else line

/-- `str::lines`: a line loses its end, and a last line that is empty is none. -/
def linesOfText (text : String) : List String :=
  let pieces := TextBuffer.splitLines text
  pieces.dropLast.map stripReturn ++ (pieces.getLast?.filter (!·.isEmpty)).toList

/-- How far the loop that compares two lists gets. -/
def commonLength : List String → List String → ℕ
  | a :: as, b :: bs => if a = b then commonLength as bs + 1 else 0
  | _, _ => 0

structure DiffHunk where
  prefixLen : ℕ
  suffixLen : ℕ
  removed : List String
  added : List String

/-- The second loop counts back to what the first one has counted. -/
def diffHunk (before after : List String) : DiffHunk :=
  let prefixLen := commonLength before after
  let suffixLen := commonLength (before.drop prefixLen).reverse (after.drop prefixLen).reverse
  { prefixLen
    suffixLen
    removed := (before.take (before.length - suffixLen)).drop prefixLen
    added := (after.take (after.length - suffixLen)).drop prefixLen }

def diffPreviewLineLimit : ℕ :=
  12

def collapseDiffPreviewBody (lines : List String) : List String :=
  if lines.length ≤ diffPreviewLineLimit then lines
  else
    let tail := (diffPreviewLineLimit - 1) / 2
    let head := diffPreviewLineLimit - tail - 1
    let hidden := lines.length - (head + tail)
    lines.take head ++ ["… +" ++ toString hidden ++ " lines"] ++ lines.drop (lines.length - tail)

structure DiffPreview where
  path : String
  beforeLines : ℕ
  afterLines : ℕ
  preview : String

def computeDiffPreview (path : String) (before after : Option String) : Option DiffPreview :=
  if before = after then none
  else
    let beforeLines := linesOfText (before.getD "")
    let afterLines := linesOfText (after.getD "")
    let { prefixLen, removed, added, .. } := diffHunk beforeLines afterLines
    if removed.isEmpty && added.isEmpty then none
    else
      let oldStart := if removed.isEmpty then 0 else prefixLen + 1
      let newStart := if added.isEmpty then 0 else prefixLen + 1
      let header := ["--- " ++ path, "+++ " ++ path,
        "@@ -" ++ toString oldStart ++ "," ++ toString removed.length ++ " +" ++
          toString newStart ++ "," ++ toString added.length ++ " @@"]
      let body := removed.map ("-" ++ ·) ++ added.map ("+" ++ ·)
      some {
        path
        beforeLines := beforeLines.length
        afterLines := afterLines.length
        preview := "\n".intercalate (header ++ collapseDiffPreviewBody body) }

/-- What the loop has counted is common to both lists. -/
theorem commonLength_spec (as bs : List String) : ∃ common as' bs', as = common ++ as' ∧
    bs = common ++ bs' ∧ common.length = commonLength as bs := by
  fun_induction commonLength as bs with
  | case1 as b bs ih =>
    obtain ⟨common, as', bs', rfl, rfl, hlength⟩ := ih
    exact ⟨b :: common, as', bs', rfl, rfl, by rw [← hlength, length_cons]⟩
  | _ as bs => exact ⟨[], _, _, rfl, rfl, rfl⟩

/-- The loop does not stop while the lists agree. -/
theorem le_commonLength (as bs : List String) {n : ℕ} (h : n ≤ as.length) (h' : n ≤ bs.length)
    (hsame : as.take n = bs.take n) : n ≤ commonLength as bs := by
  induction as generalizing bs n with
  | nil => simp_all
  | cons a as ih => cases bs <;> cases n <;> simp_all [commonLength]

/-- Hunk and common lines, as many first ones as possible, make both texts. -/
structure DiffHunk.Rebuilds (hunk : DiffHunk) (before after : List String) : Prop where
  before_eq : before = before.take hunk.prefixLen ++ hunk.removed ++
    before.drop (before.length - hunk.suffixLen)
  after_eq : after = before.take hunk.prefixLen ++ hunk.added ++
    before.drop (before.length - hunk.suffixLen)
  longest : ∀ n ≤ before.length, n ≤ after.length → before.take n = after.take n →
    n ≤ hunk.prefixLen
  apart : hunk.prefixLen + hunk.suffixLen ≤ before.length ∧
    hunk.prefixLen + hunk.suffixLen ≤ after.length

theorem diffHunk_rebuilds (before after : List String) :
    (diffHunk before after).Rebuilds before after := by
  have hlongest := fun n => le_commonLength before after (n := n)
  obtain ⟨first, before', after', rfl, rfl, hfirst⟩ := commonLength_spec before after
  obtain ⟨last, removed, added, hbefore, hafter, hlast⟩ :=
    commonLength_spec before'.reverse after'.reverse
  rw [reverse_eq_iff, reverse_append] at hbefore hafter
  rw [← hfirst] at hlongest
  rw [diffHunk]
  simp only [← hfirst, drop_left, ← hlast]
  have hend (middle : List String) : let text := first ++ (middle ++ last.reverse)
      text.take (text.length - last.length) = first ++ middle ∧
        text.drop (text.length - last.length) = last.reverse := by
    simp [← append_assoc]
  subst hbefore hafter
  refine ⟨?_, ?_, hlongest, ?_⟩
  · simp only [hend, take_left, drop_left, append_assoc]
  · simp only [hend, take_left, drop_left, append_assoc]
  · simp only [length_append, length_reverse]
    omega

theorem DiffHunk.Rebuilds.empty_iff {hunk : DiffHunk} {before after : List String}
    (h : hunk.Rebuilds before after) :
    hunk.removed = [] ∧ hunk.added = [] ↔ before = after := by
  have hbefore := h.before_eq
  have hafter := h.after_eq
  constructor
  · rintro ⟨hremoved, hadded⟩
    rw [hremoved] at hbefore
    rw [hadded] at hafter
    exact hbefore.trans hafter.symm
  · rintro rfl
    have hlong := h.longest before.length le_rfl le_rfl rfl
    replace hbefore := congrArg length hbefore
    replace hafter := congrArg length hafter
    simp only [length_append, length_take] at hbefore hafter
    exact ⟨length_eq_zero_iff.mp (by omega), length_eq_zero_iff.mp (by omega)⟩

/-- **A preview shows the whole change**; there is none exactly for equal lines. -/
theorem diff_preview_rebuilds_lines (path : String) (before after : Option String) :
    let beforeLines := linesOfText (before.getD "")
    let afterLines := linesOfText (after.getD "")
    (computeDiffPreview path before after = none ↔ beforeLines = afterLines) ∧
      (diffHunk beforeLines afterLines).Rebuilds beforeLines afterLines := by
  have h := diffHunk_rebuilds (linesOfText (before.getD "")) (linesOfText (after.getD ""))
  refine ⟨?_, h⟩
  rw [computeDiffPreview]
  split
  next hsame => simp [hsame]
  · simp only [← h.empty_iff, Bool.and_eq_true, List.isEmpty_iff]
    split <;> simp_all

/-- Different texts with the same lines have no preview. -/
theorem line_end_has_no_preview : "x\n" ≠ "x" ∧
    (computeDiffPreview "a" (some "x\n") (some "x")).isNone = true ∧
    (computeDiffPreview "a" none (some "")).isNone = true := by
  decide +kernel

end Nanoclaw.Tools
