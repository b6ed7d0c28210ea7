import Nanoclaw.Lib.SortedMap
import Mathlib.Data.List.Chain
import Mathlib.Data.String.Basic

/-!
# Rendered Document Blocks

A fetched page is rendered block by block into one text. Each block's record holds the range of
its characters in that text, which citations refer to.

* `ranges_agree` — the ranges cut the text into the renderings of the blocks that are not empty
  and the separators between them, and the empty blocks leave no trace in them.
-/

open List

namespace Nanoclaw.Web

inductive WebDocumentBlock
  | heading (level : UInt8) (text : String)
  | paragraph (text : String)
  | list (ordered : Bool) (items : List String)
  | codeBlock (text : String)
  | table (rows : List (List String))
deriving DecidableEq

structure CollectedDocumentBlock where
  content : WebDocumentBlock
  linkHrefs : List String

structure WebDocumentBlockRecord where
  id : String
  startIndex : ℕ
  endIndex : ℕ
  citationIds : List String
  content : WebDocumentBlock

def renderDocumentBlock : WebDocumentBlock → String
  | .heading level text => String.ofList (replicate level.toNat '#') ++ " " ++ text
  | .paragraph text => text
  | .list ordered items => "\n".intercalate <| items.zipIdx.map fun (item, index) =>
    if ordered then toString (index + 1) ++ ". " ++ item else "- " ++ item
  | .codeBlock text => "```text\n" ++ text ++ "\n```"
  | .table rows => "\n".intercalate (rows.map " | ".intercalate)

/-- The locals of the loop of `render_document_blocks`. -/
structure Rendering where
  rendered : String := ""
  renderedChars : ℕ := 0
  records : List WebDocumentBlockRecord := []

variable (linkIdsByHref : List (String × String))

def Rendering.separate (state : Rendering) : Rendering :=
  if state.rendered.isEmpty then state
  else { state with
    rendered := state.rendered ++ "\n\n"
    renderedChars := state.renderedChars + 2 }

/-- One round of the loop. -/
def Rendering.push (state : Rendering) (entry : CollectedDocumentBlock × ℕ) : Rendering :=
  let (block, index) := entry
  let blockText := renderDocumentBlock block.content
  if blockText.isEmpty then state else
  let state := state.separate
  let endIndex := state.renderedChars + blockText.length
  { rendered := state.rendered ++ blockText
    renderedChars := endIndex
    records := state.records ++ [{
      id := "blk_" ++ String.ofList (leftpad 4 '0' (toString (index + 1)).toList)
      startIndex := state.renderedChars
      endIndex
      citationIds := block.linkHrefs.filterMap (SortedMap.get · linkIdsByHref)
      content := block.content }] }

def renderDocumentBlocks (blocks : List CollectedDocumentBlock) :
    String × List WebDocumentBlockRecord :=
  let state := blocks.zipIdx.foldl (Rendering.push linkIdsByHref) {}
  (state.rendered, state.records)

/-! ### Ranges of a text -/

/-- The characters of the text in a range are those of a piece. -/
structure Shows (text : String) (start stop : ℕ) (piece : String) : Prop where
  le : start ≤ stop
  stop_le : stop ≤ text.length
  chars : (text.toList.drop start).take (stop - start) = piece.toList

variable {text piece : String} {start stop : ℕ}

theorem Shows.append (h : Shows text start stop piece) (more : String) :
    Shows (text ++ more) start stop piece := by
  have hstop := h.stop_le
  refine ⟨h.le, by simp only [String.length_append]; omega, ?_⟩
  have hstart : start ≤ text.toList.length := Nat.le_trans h.le hstop
  rw [String.toList_append, drop_append_of_le_length hstart, take_append_of_le_length, h.chars]
  rw [length_drop]
  exact Nat.sub_le_sub_right hstop _

theorem shows_end (text piece : String) :
    Shows (text ++ piece) text.length (text.length + piece.length) piece :=
  ⟨Nat.le_add_right .., by simp, by simp [← String.length_toList]⟩

/-! ### The loop -/

/-- What holds of the text and the records after every round. -/
structure Rendering.Agrees (state : Rendering) : Prop where
  chars : state.renderedChars = state.rendered.length
  empty : state.rendered = "" ↔ state.records = []
  shows : ∀ record ∈ state.records, Shows state.rendered record.startIndex record.endIndex
    (renderDocumentBlock record.content)
  ascending : state.records.Pairwise fun a b => a.endIndex < b.startIndex
  separated : state.records.IsChain fun a b =>
    b.startIndex = a.endIndex + 2 ∧ Shows state.rendered a.endIndex b.startIndex "\n\n"
  first : ∀ record ∈ state.records.head?, record.startIndex = 0
  last : ∀ record ∈ state.records.getLast?, record.endIndex = state.renderedChars

variable {state a b : Rendering}

theorem Rendering.Agrees.push (h : state.Agrees) (entry : CollectedDocumentBlock × ℕ) :
    (Rendering.push linkIdsByHref state entry).Agrees := by
  rw [Rendering.push]
  split
  · exact h
  next htext =>
  rw [String.isEmpty_iff] at htext
  set blockText := renderDocumentBlock entry.1.content with hblock
  by_cases hempty : state.rendered = ""
  · obtain ⟨rendered, chars, records⟩ := state
    obtain rfl : rendered = "" := hempty
    obtain rfl : chars = 0 := h.chars
    obtain rfl : records = [] := h.empty.mp rfl
    have hshows := shows_end "" blockText
    constructor <;> simp_all [separate]
  · have hchars := h.chars
    have hrecords := mt h.empty.mpr hempty
    have hkeep := fun start stop piece (hs : Shows state.rendered start stop piece) =>
      (hs.append "\n\n").append blockText
    simp only [separate, String.isEmpty_iff, hempty, if_false]
    refine ⟨?_, ?_, ?_, ?_, ?_, ?_, ?_⟩
    · simp [hchars]
      rfl
    · simp [htext]
    · rw [forall_mem_append, forall_mem_singleton]
      refine ⟨fun record hr => hkeep _ _ _ (h.shows record hr), ?_⟩
      have hnew := shows_end (state.rendered ++ "\n\n") blockText
      rwa [String.length_append, ← hchars] at hnew
    · refine pairwise_append.mpr ⟨h.ascending, pairwise_singleton .., fun record hr _ hnew => ?_⟩
      have hle := (h.shows record hr).stop_le
      cases mem_singleton.mp hnew
      dsimp only
      omega
    · refine isChain_append.mpr ⟨h.separated.imp fun _ _ hs => hs.imp_right (hkeep _ _ _),
        isChain_singleton _, fun record hr _ hnew => ?_⟩
      have hlast := h.last record hr
      cases hnew
      have hgap := (shows_end state.rendered "\n\n").append blockText
      rw [← hchars] at hgap
      rw [hlast]
      exact ⟨rfl, hgap⟩
    · rw [head?_append_of_ne_nil _ hrecords]
      exact h.first
    · simp

/-- The rounds of the loop, with any numbers for the blocks. -/
theorem Rendering.Agrees.foldl (h : state.Agrees) (entries : List (CollectedDocumentBlock × ℕ)) :
    (entries.foldl (Rendering.push linkIdsByHref) state).Agrees := by
  induction entries generalizing state with
  | nil => exact h
  | cons entry entries ih => exact ih (h.push linkIdsByHref entry)

/-- Whether a block appears in the text. -/
def CollectedDocumentBlock.visible (block : CollectedDocumentBlock) : Bool :=
  !(renderDocumentBlock block.content).isEmpty

def WebDocumentBlockRecord.range (record : WebDocumentBlockRecord) : ℕ × ℕ :=
  (record.startIndex, record.endIndex)

/-- The records are those of the blocks that appear. -/
theorem Rendering.content_foldl (state : Rendering) (blocks : List CollectedDocumentBlock) (n : ℕ) :
    ((blocks.zipIdx n).foldl (Rendering.push linkIdsByHref) state).records.map (·.content) =
      state.records.map (·.content) ++ (blocks.filter (·.visible)).map (·.content) := by
  induction blocks generalizing state n with
  | nil => simp
  | cons block blocks ih =>
    rw [zipIdx_cons, foldl_cons, ih, Rendering.push, filter_cons]
    split <;> simp_all [CollectedDocumentBlock.visible, separate]
    split <;> rfl

/-- Two renderings that differ in the ids of the blocks only. -/
def Rendering.Alike (a b : Rendering) : Prop :=
  a.rendered = b.rendered ∧ a.renderedChars = b.renderedChars ∧
    a.records.map (·.range) = b.records.map (·.range)

/-- The blocks that render to nothing leave no trace but in the ids. -/
theorem Rendering.Alike.foldl (h : Alike a b) (blocks : List CollectedDocumentBlock) (m n : ℕ) :
    Alike ((blocks.zipIdx m).foldl (Rendering.push linkIdsByHref) a)
      (((blocks.filter (·.visible)).zipIdx n).foldl (Rendering.push linkIdsByHref) b) := by
  induction blocks generalizing a b m n with
  | nil => exact h
  | cons block blocks ih =>
    rw [zipIdx_cons, foldl_cons, filter_cons]
    split
    next hvisible =>
      refine ih ?_ _ _
      obtain ⟨hrendered, hchars, hranges⟩ := h
      simp_all [Alike, Rendering.push, separate, CollectedDocumentBlock.visible]
      split <;> simp_all [WebDocumentBlockRecord.range]
    next hhidden =>
      refine ih ?_ _ _
      rw [Rendering.push, if_pos (by simpa [CollectedDocumentBlock.visible] using hhidden)]
      exact h

/-- **The text and the ranges agree.** The records are those of the blocks with a rendering, in
order; a range holds the rendering of its block; the ranges ascend from the start to the end of the
text with a separator between neighbours; and empty blocks leave no trace. -/
theorem ranges_agree (blocks : List CollectedDocumentBlock) :
    let (text, records) := renderDocumentBlocks linkIdsByHref blocks
    records.map (·.content) = (blocks.filter (·.visible)).map (·.content) ∧
      (∀ record ∈ records,
        Shows text record.startIndex record.endIndex (renderDocumentBlock record.content)) ∧
      (records.Pairwise fun a b => a.endIndex < b.startIndex) ∧
      (records.IsChain fun a b =>
        b.startIndex = a.endIndex + 2 ∧ Shows text a.endIndex b.startIndex "\n\n") ∧
      (∀ record ∈ records.head?, record.startIndex = 0) ∧
      (∀ record ∈ records.getLast?, record.endIndex = text.length) ∧
      let (text', records') := renderDocumentBlocks linkIdsByHref (blocks.filter (·.visible))
      text' = text ∧ records'.map (·.range) = records.map (·.range) := by
  have hinit : Rendering.Agrees {} := by constructor <;> simp
  have h := hinit.foldl linkIdsByHref blocks.zipIdx
  have halike : Rendering.Alike {} {} := ⟨rfl, rfl, rfl⟩
  obtain ⟨htext, -, hranges⟩ := halike.foldl linkIdsByHref blocks 0 0
  exact ⟨Rendering.content_foldl linkIdsByHref {} blocks 0, h.shows, h.ascending, h.separated,
    h.first, fun record hr => (h.last record hr).trans h.chars, htext.symm, hranges.symm⟩

end Nanoclaw.Web
