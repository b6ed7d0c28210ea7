import Nanoclaw.Provider.Anthropic

/-!
# The Content Blocks of an Anthropic Stream

A block begins at a start event, its deltas are the delta events of its index up to the next
start or stop of that index, and it is stopped if a stop comes first. `blocksOf` reads the blocks
off the events, without running the adapter.
-/

namespace Nanoclaw.Provider.Anthropic

open List

/-! ### Reading the blocks off the events -/

/-- A content block of the events. -/
structure Block where
  start : Value
  deltas : List Value
  stopped : Bool

/-- The deltas of an open block, and whether it is stopped. -/
def deltasOf (index : ℕ) : List Event → List Value × Bool
  | [] => ([], false)
  | .blockStart (some i) _ :: events => if i = index then ([], false) else deltasOf index events
  | .blockDelta (some i) (some delta) :: events =>
    if i = index then (delta :: (deltasOf index events).1, (deltasOf index events).2)
    else deltasOf index events
  | .blockStop (some i) :: events => if i = index then ([], true) else deltasOf index events
  | _ :: events => deltasOf index events

def blocksOf : List Event → List Block
  | [] => []
  | .blockStart (some index) (some start) :: events =>
    ⟨start, (deltasOf index events).1, (deltasOf index events).2⟩ :: blocksOf events
  | _ :: events => blocksOf events

variable (wire : Wire)

namespace AnthropicBlockState

def applyDeltas (state : AnthropicBlockState) (deltas : List Value) : AnthropicBlockState :=
  deltas.foldl (fun state delta => (state.applyDelta delta).1) state

/-- If the block is stopped, it can be finished. -/
def FinishesWith (state : AnthropicBlockState) (rest : List Value × Bool) : Prop :=
  rest.2 = true → ∃ output, (state.applyDeltas rest.1).finish wire = .ok output

end AnthropicBlockState

namespace Block

/-- The state the block opens in. -/
def opened (block : Block) : Option AnthropicBlockState :=
  (AnthropicBlockState.fromStart block.start).toOption

/-- The kind is known, and a stopped block can be finished. -/
def Sound (block : Block) : Prop :=
  ∃ state, block.opened = some state ∧ state.FinishesWith wire (block.deltas, block.stopped)

end Block

/-! ### What the adapter does with an event -/

/-- Events that are not about blocks and report no error. -/
def Event.isAside : Event → Bool
  | .error _ => false
  | .blockStart _ _ => false
  | .blockDelta _ _ => false
  | .blockStop _ => false
  | _ => true

/-- The adapter fails at the event, whatever came before. -/
def Event.isMalformed : Event → Bool
  | .error _ => true
  | .blockStart (some _) (some start) => (AnthropicBlockState.fromStart start).toOption.isNone
  | .blockStart _ _ => true
  | .blockDelta (some _) (some _) => false
  | .blockDelta _ _ => true
  | .blockStop none => true
  | _ => false

/-- **The steps of the adapter** that go on reading. -/
inductive Handled (before : State) : Event → List ModelEvent → State → Prop
  | aside {event : Event} {after : State} (haside : event.isAside = true)
      (hblocks : after.blocks = before.blocks) (hreasoning : after.reasoning = before.reasoning) :
      Handled before event [] after
  | start {index : ℕ} {start : Value} {opened : AnthropicBlockState}
      (hopened : AnthropicBlockState.fromStart start = .ok opened) :
      Handled before (.blockStart (some index) (some start)) []
        { before with blocks := before.blocks.insert index opened }
  | deltaUnknown {index : ℕ} {delta : Value} (hblock : before.blocks.lookup index = none) :
      Handled before (.blockDelta (some index) (some delta)) [] before
  | delta {index : ℕ} {delta : Value} {block : AnthropicBlockState}
      (hblock : before.blocks.lookup index = some block) :
      Handled before (.blockDelta (some index) (some delta))
        ((block.applyDelta delta).2.toList.map .textDelta)
        { before with blocks := before.blocks.insert index (block.applyDelta delta).1 }
  | stopUnknown {index : ℕ} (hblock : before.blocks.lookup index = none) :
      Handled before (.blockStop (some index)) [] before
  | stop {index : ℕ} {block : AnthropicBlockState} {output : Option AnthropicBlockOutput}
      {out : List ModelEvent} {after : State} (hblock : before.blocks.lookup index = some block)
      (hfinish : block.finish wire = .ok output)
      (hclosed : { before with blocks := before.blocks.erase index }.closed output =
        (out, .next after)) :
      Handled before (.blockStop (some index)) out after

variable {event : Event} {out : List ModelEvent} {before after : State}
  {output : Option AnthropicBlockOutput}

theorem closed_eq_next (state : State) (output : Option AnthropicBlockOutput) :
    ∃ out after, state.closed output = (out, .next after) := by
  rcases output with - | call | item <;> exact ⟨_, _, rfl⟩

/-- **One event**: the adapter goes on, stops at `message_stop`, or fails. -/
theorem handle_cases (s : State) (event : Event) :
    (∃ out after, s.handle wire event = (out, .next after) ∧ Handled wire s event out after) ∨
      (event = .messageStop ∧ s.handle wire event = ([], .stop s)) ∨
      ∃ e, s.handle wire event = ([], .fail e) ∧ (event.isMalformed = true ∨
        ∃ index state, event = .blockStop (some index) ∧ s.blocks.lookup index = some state ∧
          ∀ output, state.finish wire ≠ .ok output) := by
  cases event with
  | messageStart | messageDelta | other => exact .inl ⟨_, _, rfl, .aside rfl rfl rfl⟩
  | messageStop => exact .inr (.inl ⟨rfl, rfl⟩)
  | error => exact .inr (.inr ⟨_, rfl, .inl rfl⟩)
  | blockStart index block =>
    rcases index with - | index
    · exact .inr (.inr ⟨_, rfl, .inl rfl⟩)
    rcases block with - | start
    · exact .inr (.inr ⟨_, rfl, .inl rfl⟩)
    rw [State.handle, Event.isMalformed]
    split
    next hstart => exact .inr (.inr ⟨_, rfl, .inl (by rw [hstart]; rfl)⟩)
    next hopened => exact .inl ⟨_, _, rfl, .start hopened⟩
  | blockDelta index delta =>
    rcases index with - | index
    · exact .inr (.inr ⟨_, rfl, .inl rfl⟩)
    rcases delta with - | delta
    · exact .inr (.inr ⟨_, rfl, .inl rfl⟩)
    rw [State.handle]
    split
    next hblock => exact .inl ⟨_, _, rfl, .deltaUnknown hblock⟩
    next hblock => exact .inl ⟨_, _, rfl, .delta hblock⟩
  | blockStop index =>
    rcases index with - | index
    · exact .inr (.inr ⟨_, rfl, .inl rfl⟩)
    rw [State.handle]
    split
    next hblock => exact .inl ⟨_, _, rfl, .stopUnknown hblock⟩
    next block hblock =>
      split
      next hfinish =>
        refine .inr (.inr ⟨_, rfl, .inr ⟨index, block, rfl, hblock, fun output houtput => ?_⟩⟩)
        cases hfinish.symm.trans houtput
      next output hfinish =>
        obtain ⟨out, after, hclosed⟩ := closed_eq_next _ output
        exact .inl ⟨out, after, hclosed, .stop hblock hfinish hclosed⟩

theorem handled_of_handle (h : before.handle wire event = (out, .next after)) :
    Handled wire before event out after := by
  obtain ⟨_, _, heq, hhandled⟩ | ⟨-, heq⟩ | ⟨_, heq, -⟩ := handle_cases wire before event <;>
    cases heq.symm.trans h
  exact hhandled

variable {inputs : List (Except RuntimeError Value)} {s last : State} {i : ℕ}
  {e : RuntimeError}

/-- **Induction over the events of an accepted stream.** -/
theorem accepted_events {P : State → List Event → List ModelEvent → State → Prop}
    (hend : ∀ s, P s [] [] s) (hstop : ∀ s, P s [.messageStop] [] s)
    (hnext : ∀ s event out s' events emitted last, Handled wire s event out s' →
      P s' events emitted last → P s (event :: events) (out ++ emitted) last)
    (h : ((messagePayloads wire).read s inputs).ending = .ok last) :
    P s (((messagePayloads wire).read s inputs).consumed.map .ofPayload)
      ((messagePayloads wire).read s inputs).emitted last := by
  refine Reducer.accepted_induction
    (P := fun s consumed emitted last => P s (consumed.map .ofPayload) emitted last)
    hend (fun s payload out s' hstep => ?_)
    (fun s payload out s' consumed emitted last hstep ih => ?_) h
  · obtain ⟨_, _, heq, -⟩ | ⟨hevent, heq⟩ | ⟨_, heq, -⟩ :=
      handle_cases wire s (.ofPayload payload) <;> cases heq.symm.trans hstep
    rw [map_singleton, hevent]
    exact hstop _
  · exact hnext s _ out s' _ _ _ (handled_of_handle wire hstep) ih

/-! ### The adapter over the blocks -/

/-- What is passed on of a block: a text, or what it comes to in the end. -/
inductive Piece where
  | text (text : String)
  | output (output : AnthropicBlockOutput)

namespace Piece

def event? : Piece → Option ModelEvent
  | .text delta => some (.textDelta delta)
  | .output (.toolCall call) => some (.toolCallRequested call)
  | .output (.reasoning _) => none

def reasoning? : Piece → Option Reasoning
  | .output (.reasoning item) => some item
  | _ => none

end Piece

/-- What an open block passes on with its deltas, and comes to if it is stopped. -/
def AnthropicBlockState.piecesWith : AnthropicBlockState → List Value → Bool → List Piece
  | state, [], stopped =>
    if stopped then (state.finish wire).toOption.join.toList.map .output else []
  | state, delta :: deltas, stopped =>
    (state.applyDelta delta).2.toList.map .text ++
      (state.applyDelta delta).1.piecesWith deltas stopped

def Block.pieces (block : Block) : List Piece :=
  block.opened.elim [] fun state => state.piecesWith wire block.deltas block.stopped

/-- What the open blocks and those that start pass on with the events that follow. -/
def piecesWith (blocks : Blocks) (events : List Event) : List Piece :=
  blocks.entries.flatMap (fun entry =>
      entry.2.piecesWith wire (deltasOf entry.1 events).1 (deltasOf entry.1 events).2) ++
    (blocksOf events).flatMap (Block.pieces wire)

/-- The pieces are those of a reading, with the reasoning before and after it. -/
structure PassedOn (pieces : List Piece) (emitted : List ModelEvent)
    (before after : List Reasoning) : Prop where
  emitted : emitted = pieces.filterMap Piece.event?
  reasoning : after = before ++ pieces.filterMap Piece.reasoning?

variable {wire}

theorem PassedOn.append {pieces pieces' : List Piece} {emitted emitted' : List ModelEvent}
    {before between after : List Reasoning} (h : PassedOn pieces emitted before between)
    (h' : PassedOn pieces' emitted' between after) :
    PassedOn (pieces ++ pieces') (emitted ++ emitted') before after where
  emitted := by rw [h.emitted, h'.emitted, filterMap_append]
  reasoning := by rw [h'.reasoning, h.reasoning, append_assoc, filterMap_append]

theorem passedOn_texts (text : Option String) (reasoning : List Reasoning) :
    PassedOn (text.toList.map .text) (text.toList.map .textDelta) reasoning reasoning := by
  cases text <;> exact ⟨rfl, (append_nil _).symm⟩

/-- A block that stops passes on what it comes to. -/
theorem passedOn_closed (hclosed : before.closed output = (out, .next after)) :
    PassedOn (output.toList.map .output) out before.reasoning after.reasoning := by
  rcases output with - | call | item <;> cases hclosed
  · exact ⟨rfl, (append_nil _).symm⟩
  · exact ⟨rfl, (append_nil _).symm⟩
  · exact ⟨rfl, rfl⟩

theorem closed_blocks {state : State} (h : state.closed output = (out, .next after)) :
    after.blocks = state.blocks := by
  rcases output with - | call | item <;> cases h <;> rfl

section

variable (h : event.isAside = true)

include h

theorem deltasOf_aside (index : ℕ)
    (events : List Event) : deltasOf index (event :: events) = deltasOf index events := by
  cases event <;> first | rfl | exact absurd h Bool.false_ne_true

theorem blocksOf_aside (events : List Event) : blocksOf (event :: events) = blocksOf events := by
  cases event <;> first | rfl | exact absurd h Bool.false_ne_true

theorem piecesWith_aside (blocks : Blocks) (events : List Event) :
    piecesWith wire blocks (event :: events) = piecesWith wire blocks events := by
  simp only [piecesWith, deltasOf_aside h, blocksOf_aside h]

end

variable {index : ℕ}

theorem piecesWith_nil (blocks : Blocks) : piecesWith wire blocks [] = [] := by
  have hentries : blocks.entries.flatMap (fun entry =>
      entry.2.piecesWith wire (deltasOf entry.1 []).1 (deltasOf entry.1 []).2) = [] :=
    flatMap_eq_nil_iff.mpr fun _ _ => rfl
  rw [piecesWith, hentries]
  rfl

/-- The pieces with a block put in: its own and those of the others. -/
theorem piecesWith_insert (blocks : Blocks) (index : ℕ) (state : AnthropicBlockState)
    (events : List Event) :
    piecesWith wire (blocks.insert index state) events =
      state.piecesWith wire (deltasOf index events).1 (deltasOf index events).2 ++
        piecesWith wire (blocks.erase index) events := by
  rw [piecesWith, AList.entries_insert, flatMap_cons, append_assoc]
  rfl

variable (wire) in
/-- The share of one index in the pieces, at an event about that index. -/
theorem piecesWith_perm (blocks : Blocks) (event : Event) (index : ℕ) (events : List Event)
    (hother : ∀ i, i ≠ index → deltasOf i (event :: events) = deltasOf i events) :
    (piecesWith wire blocks (event :: events)).Perm
      ((blocks.lookup index).elim [] (fun state => state.piecesWith wire
          (deltasOf index (event :: events)).1 (deltasOf index (event :: events)).2) ++
        ((blocks.erase index).entries.flatMap (fun entry => entry.2.piecesWith wire
            (deltasOf entry.1 events).1 (deltasOf entry.1 events).2) ++
          (blocksOf (event :: events)).flatMap (Block.pieces wire))) := by
  rw [piecesWith, ← append_assoc]
  exact (AList.flatMap_entries_perm (fun entry hentry => by rw [hother entry.1 hentry])
    blocks).append_right _

variable {blocks : Blocks} {state : AnthropicBlockState}

/-- A block starts; an open block of its index passes on no more. -/
theorem piecesWith_start {start : Value} (hstate : AnthropicBlockState.fromStart start = .ok state)
    (events : List Event) :
    (piecesWith wire (blocks.insert index state) events).Perm
      (piecesWith wire blocks (.blockStart (some index) (some start) :: events)) := by
  have hopen := piecesWith_perm wire blocks (.blockStart (some index) (some start)) index events
    fun i hi => by rw [deltasOf, if_neg hi.symm]
  have hlost : ((blocks.lookup index).elim [] fun s => s.piecesWith wire [] false) = [] := by
    cases blocks.lookup index <;> rfl
  rw [deltasOf, if_pos rfl, hlost, blocksOf, flatMap_cons, Block.pieces, Block.opened,
    hstate] at hopen
  rw [piecesWith_insert]
  exact (perm_append_comm_assoc ..).trans hopen.symm

/-- A delta of an open block; the text that it passes on comes first. -/
theorem piecesWith_delta {delta : Value} (hstate : blocks.lookup index = some state)
    (events : List Event) :
    ((state.applyDelta delta).2.toList.map Piece.text ++
        piecesWith wire (blocks.insert index (state.applyDelta delta).1) events).Perm
      (piecesWith wire blocks (.blockDelta (some index) (some delta) :: events)) := by
  have hopen := piecesWith_perm wire blocks (.blockDelta (some index) (some delta)) index events
    fun i hi => by rw [deltasOf, if_neg hi.symm]
  rw [hstate, Option.elim_some, deltasOf, if_pos rfl, AnthropicBlockState.piecesWith,
    append_assoc] at hopen
  rw [piecesWith_insert]
  exact hopen.symm

theorem piecesWith_stop (hstate : blocks.lookup index = some state)
    (hfinish : state.finish wire = .ok output) (events : List Event) :
    (output.toList.map Piece.output ++ piecesWith wire (blocks.erase index) events).Perm
      (piecesWith wire blocks (.blockStop (some index) :: events)) := by
  have hopen := piecesWith_perm wire blocks (.blockStop (some index)) index events
    fun i hi => by rw [deltasOf, if_neg hi.symm]
  rw [hstate, Option.elim_some, deltasOf, if_pos rfl, AnthropicBlockState.piecesWith,
    hfinish] at hopen
  exact hopen.symm

variable {events : List Event}

/-- An event about a block that is not open changes nothing. -/
theorem piecesWith_unknown
    (hother : ∀ i, i ≠ index → deltasOf i (event :: events) = deltasOf i events)
    (hblocks : blocksOf (event :: events) = blocksOf events) (hstate : blocks.lookup index = none) :
    (piecesWith wire blocks events).Perm (piecesWith wire blocks (event :: events)) := by
  have hopen := piecesWith_perm wire blocks event index events hother
  have herase : (blocks.erase index).entries = blocks.entries :=
    kerase_of_notMem_keys (AList.lookup_eq_none.mp hstate)
  rw [hstate, Option.elim_none, nil_append] at hopen
  refine .trans ?_ hopen.symm
  rw [piecesWith, hblocks, herase]

/-- **What an accepted stream passes on**: texts, and what the stopped blocks come to. -/
theorem pieces_perm (h : ((messagePayloads wire).read s inputs).ending = .ok last) :
    ∃ pieces, PassedOn pieces ((messagePayloads wire).read s inputs).emitted s.reasoning
        last.reasoning ∧ pieces.Perm (piecesWith wire s.blocks
          (((messagePayloads wire).read s inputs).consumed.map .ofPayload)) := by
  refine accepted_events wire (P := fun s events emitted last => ∃ pieces,
    PassedOn pieces emitted s.reasoning last.reasoning ∧
      pieces.Perm (piecesWith wire s.blocks events))
    (fun s => ?_) (fun s => ?_) (fun s event out s' events emitted last hstep ih => ?_) h
  · exact ⟨[], ⟨rfl, (append_nil _).symm⟩, by rw [piecesWith_nil]⟩
  · exact ⟨[], ⟨rfl, (append_nil _).symm⟩, by rw [piecesWith_aside rfl, piecesWith_nil]⟩
  · obtain ⟨pieces, hpassed, hperm⟩ := ih
    cases hstep with
    | aside haside hblocks hreasoning =>
      rw [hreasoning] at hpassed
      rw [hblocks] at hperm
      exact ⟨pieces, hpassed, hperm.trans (by rw [piecesWith_aside haside])⟩
    | start hopened => exact ⟨pieces, hpassed, hperm.trans (piecesWith_start hopened events)⟩
    | deltaUnknown hblock =>
      exact ⟨pieces, hpassed, hperm.trans
        (piecesWith_unknown (fun i hi => by rw [deltasOf, if_neg hi.symm]) rfl hblock)⟩
    | delta hblock =>
      exact ⟨_, (passedOn_texts _ _).append hpassed,
        (hperm.append_left _).trans (piecesWith_delta hblock events)⟩
    | stopUnknown hblock =>
      exact ⟨pieces, hpassed, hperm.trans
        (piecesWith_unknown (fun i hi => by rw [deltasOf, if_neg hi.symm]) rfl hblock)⟩
    | stop hblock hfinish hclosed =>
      rw [closed_blocks hclosed] at hperm
      have hpassed' := (passedOn_closed hclosed).append hpassed
      exact ⟨_, hpassed', (hperm.append_left _).trans (piecesWith_stop hblock hfinish events)⟩

/-- What an open block comes to in the end, if it is stopped. -/
def AnthropicBlockState.comesTo (wire : Wire) (state : AnthropicBlockState) (deltas : List Value)
    (stopped : Bool) : Option AnthropicBlockOutput :=
  if stopped then ((state.applyDeltas deltas).finish wire).toOption.join else none

theorem AnthropicBlockState.piecesWith_filterMap {β : Type} {f : Piece → Option β}
    (hf : ∀ text, f (.text text) = none) (state : AnthropicBlockState) (deltas : List Value)
    (stopped : Bool) : (state.piecesWith wire deltas stopped).filterMap f =
      ((state.comesTo wire deltas stopped).bind fun output => f (.output output)).toList := by
  induction deltas generalizing state with
  | nil =>
    cases stopped with
    | false => rfl
    | true =>
      change .filterMap f ((state.finish wire).toOption.join.toList.map .output) =
        ((state.finish wire).toOption.join.bind _).toList
      cases (state.finish wire).toOption.join with
      | none => rfl
      | some output => cases f (.output output) <;> rfl
  | cons delta deltas ih =>
    have htext : .filterMap f ((state.applyDelta delta).2.toList.map .text) = [] := by
      rw [filterMap_map, filterMap_eq_nil_iff]
      exact fun text _ => hf text
    rw [piecesWith, filterMap_append, htext, ih]
    rfl

/-! ### Every stopped block can be finished -/

/-- The open blocks and those that start can be finished with the events that follow. -/
@[mk_iff] structure AllFinish (wire : Wire) (blocks : Blocks) (events : List Event) : Prop where
  opened : ∀ index state, blocks.lookup index = some state →
    state.FinishesWith wire (deltasOf index events)
  started : ∀ block ∈ blocksOf events, block.Sound wire

theorem allFinish_nil (blocks : Blocks) : AllFinish wire blocks [] where
  opened _ _ _ hstopped := absurd hstopped Bool.false_ne_true
  started _ hblock := by cases hblock

/-- An event about one index leaves the other blocks as they are. -/
theorem allFinish_iff_event {blocks' : Blocks}
    (hother : ∀ i, i ≠ index → deltasOf i (event :: events) = deltasOf i events)
    (hblocks : ∀ i, i ≠ index → blocks'.lookup i = blocks.lookup i)
    (hindex : ((∀ state, blocks.lookup index = some state →
          state.FinishesWith wire (deltasOf index (event :: events))) ∧
        ∀ block ∈ blocksOf (event :: events), block.Sound wire) ↔
      (∀ state, blocks'.lookup index = some state →
          state.FinishesWith wire (deltasOf index events)) ∧
        ∀ block ∈ blocksOf events, block.Sound wire) :
    AllFinish wire blocks (event :: events) ↔ AllFinish wire blocks' events := by
  constructor
  · rintro ⟨hopened, hstarted⟩
    have hnew := hindex.mp ⟨hopened index, hstarted⟩
    refine ⟨fun i state hstate => ?_, hnew.2⟩
    by_cases hi : i = index
    · subst hi
      exact hnew.1 state hstate
    · rw [← hother i hi]
      exact hopened i state ((hblocks i hi).symm.trans hstate)
  · rintro ⟨hopened, hstarted⟩
    have hold := hindex.mpr ⟨hopened index, hstarted⟩
    refine ⟨fun i state hstate => ?_, hold.2⟩
    by_cases hi : i = index
    · subst hi
      exact hold.1 state hstate
    · rw [hother i hi]
      exact hopened i state ((hblocks i hi).trans hstate)

/-- **A step leaves it open to the later events** whether the blocks can be finished. -/
theorem Handled.allFinish_iff (h : Handled wire before event out after) :
    AllFinish wire before.blocks (event :: events) ↔ AllFinish wire after.blocks events := by
  cases h with
  | aside haside hblocks _ =>
    simp only [allFinish_iff, hblocks, deltasOf_aside haside, blocksOf_aside haside]
  | @start index start opened hopened =>
    refine allFinish_iff_event (fun i hi => by rw [deltasOf, if_neg hi.symm])
      (fun i hi => AList.lookup_insert_ne hi) ?_
    have hfirst : ∀ state, before.blocks.lookup index = some state → state.FinishesWith wire
        (deltasOf index (.blockStart (some index) (some start) :: events)) := by
      intro state _ hstopped
      rw [deltasOf, if_pos rfl] at hstopped
      cases hstopped
    have hsound : Block.Sound wire ⟨start, (deltasOf index events).1, (deltasOf index events).2⟩ ↔
        opened.FinishesWith wire (deltasOf index events) := by
      rw [Block.Sound, Block.opened, hopened]
      exact ⟨fun ⟨_, hstate, h⟩ => Option.some.inj hstate ▸ h, fun h => ⟨opened, rfl, h⟩⟩
    rw [and_iff_right hfirst, blocksOf, forall_mem_cons, hsound, AList.lookup_insert]
    exact and_congr_left fun _ => ⟨fun h _ hstate => Option.some.inj hstate ▸ h, fun h => h _ rfl⟩
  | @deltaUnknown index delta hblock =>
    refine allFinish_iff_event (fun i hi => by rw [deltasOf, if_neg hi.symm]) (fun _ _ => rfl) ?_
    rw [hblock]
    exact and_congr_left fun _ => ⟨nofun, nofun⟩
  | @delta index delta block hblock =>
    refine allFinish_iff_event (fun i hi => by rw [deltasOf, if_neg hi.symm])
      (fun i hi => AList.lookup_insert_ne hi) ?_
    rw [hblock, AList.lookup_insert, deltasOf, if_pos rfl]
    refine and_congr_left fun _ => ?_
    exact ⟨fun h _ hstate => Option.some.inj hstate ▸ h _ rfl,
      fun h _ hstate => Option.some.inj hstate ▸ h _ rfl⟩
  | @stopUnknown index hblock =>
    refine allFinish_iff_event (fun i hi => by rw [deltasOf, if_neg hi.symm]) (fun _ _ => rfl) ?_
    rw [hblock]
    exact and_congr_left fun _ => ⟨nofun, nofun⟩
  | @stop index block output _ _ hblock hfinish hclosed =>
    rw [closed_blocks hclosed]
    refine allFinish_iff_event (fun i hi => by rw [deltasOf, if_neg hi.symm])
      (fun i hi => AList.lookup_erase_ne hi) ?_
    rw [hblock, AList.lookup_erase, deltasOf, if_pos rfl]
    refine and_congr_left fun _ => ⟨fun _ => nofun, fun _ _ hstate => ?_⟩
    exact fun _ => Option.some.inj hstate ▸ ⟨output, hfinish⟩

/-- **The blocks of an accepted stream** are of known kinds and can be finished if stopped. -/
theorem allFinish_of_accepted (h : ((messagePayloads wire).read s inputs).ending = .ok last) :
    AllFinish wire s.blocks (((messagePayloads wire).read s inputs).consumed.map .ofPayload) := by
  refine accepted_events wire (P := fun s events _ _ => AllFinish wire s.blocks events)
    (fun s => allFinish_nil _) (fun s => ?_)
    (fun s event out s' events emitted last hstep ih => hstep.allFinish_iff.mpr ih) h
  exact ⟨fun _ _ _ hstopped => absurd hstopped Bool.false_ne_true, nofun⟩

/-! ### The streams that are accepted -/

def Event.isMessageStop : Event → Bool
  | .messageStop => true
  | _ => false

def endsMessage (payload : Value) : Bool := (Event.ofPayload payload).isMessageStop

def failsMessage (payload : Value) : Bool := (Event.ofPayload payload).isMalformed

theorem Handled.well_formed (h : Handled wire before event out after) :
    event.isMalformed = false := by
  cases h with
  | aside haside hblocks hreasoning =>
    cases event <;> first | rfl | exact absurd haside Bool.false_ne_true
  | start hopened => rw [Event.isMalformed, hopened]; rfl
  | _ => rfl

theorem decides : (messagePayloads wire).Decides endsMessage failsMessage := by
  intro s payload
  rcases hstep : (messagePayloads wire).step s payload with ⟨out, s' | s' | e⟩
  · refine ⟨?_, (handled_of_handle wire hstep).well_formed⟩
    change s.handle wire (.ofPayload payload) = _ at hstep
    rw [endsMessage]
    cases hevent : Event.ofPayload payload <;> rw [hevent] at hstep <;> first | rfl | cases hstep
  · obtain ⟨_, _, heq, -⟩ | ⟨hevent, -⟩ | ⟨_, heq, -⟩ := handle_cases wire s (.ofPayload payload)
    · cases heq.symm.trans hstep
    · rw [endsMessage, failsMessage, hevent]
      exact ⟨rfl, rfl⟩
    · cases heq.symm.trans hstep
  · trivial

/-- Where the blocks can be finished, a well-formed event is no failure. -/
theorem AllFinish.not_fail (h : AllFinish wire s.blocks (event :: events))
    (hformed : event.isMalformed = false) : s.handle wire event ≠ (out, .fail e) := by
  intro hfail
  obtain ⟨_, _, heq, -⟩ | ⟨-, heq⟩ |
    ⟨_, -, hmalformed | ⟨index, state, rfl, hstate, hunfinished⟩⟩ := handle_cases wire s event
  · cases heq.symm.trans hfail
  · cases heq.symm.trans hfail
  · rw [hformed] at hmalformed
    cases hmalformed
  · have hfinishes := h.opened index state hstate
    rw [deltasOf, if_pos rfl] at hfinishes
    obtain ⟨output, houtput⟩ := hfinishes rfl
    exact hunfinished output houtput

/-- **The streams that are accepted.** -/
theorem accepted_iff : (∃ last, ((messagePayloads wire).read s inputs).ending = .ok last) ↔
      Reducer.readable endsMessage failsMessage inputs = true ∧
        AllFinish wire s.blocks ((Reducer.upTo endsMessage inputs).map .ofPayload) := by
  constructor
  · rintro ⟨last, hlast⟩
    obtain ⟨hconsumed, hreadable⟩ := decides.accepted hlast
    rw [← hconsumed]
    exact ⟨hreadable, allFinish_of_accepted hlast⟩
  · rintro ⟨hreadable, hfinish⟩
    refine decides.accepted_of_readable
      (fun s payloads => AllFinish wire s.blocks (payloads.map .ofPayload))
      (fun s payload out s' rest hstep hsafe => ?_) (fun s payload out e rest hstep hsafe => ?_)
      hreadable hfinish
    · exact (handled_of_handle wire hstep).allFinish_iff.mp hsafe
    · by_contra hformed
      exact hsafe.not_fail (eq_false_of_ne_true hformed) hstep

end Nanoclaw.Provider.Anthropic
