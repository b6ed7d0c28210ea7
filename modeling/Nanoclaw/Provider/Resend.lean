import Nanoclaw.Provider.CutOff

/-!
# Sending a Stored Answer Again

The answer to a request is stored as one message of text, reasoning and calls, and sent again
with every later request. Signed reasoning without a text is stored but becomes no content of a
request, and a message without content is an error.
-/

namespace Nanoclaw.Provider.Anthropic

open List Option AnthropicBlockState Proc

/-! ### Messages that can be sent -/

/-- A request whose other parts can be encoded is encoded with the message. -/
def SendsAgain (message : Message) : Prop :=
  ∀ (setup : Setup) (request : ModelRequest), message ∈ request.messages →
    (∀ other ∈ request.messages, other = message ∨
      ∃ blocks, encodeMessage setup.roundtripText other = .ok blocks) →
    (∀ tool ∈ request.tools, tool.inputSchema.isSome = true) →
    (∀ params ∈ setup.options.additionalParams, params.asObject.isSome = true) →
    ∃ body, buildAnthropicMessagesBody setup.roundtripText setup.coerceObjectSchema setup.model
      request setup.options = .ok body

/-- The stored message can be sent again, whatever its identifier. -/
def StoredAnswerSendsAgain (stream : ModelStream) : Prop :=
  ∀ env rt response rt', exec (stream.foldlM (readModelEvent env) {}) rt = (.ok response, rt') →
    (response.assistantText.isEmpty && response.toolCalls.isEmpty &&
      response.assistantReasoning.isEmpty) = false →
    ∀ id, SendsAgain (.assistantParts (assistantResponseParts response) id)

variable {parts : List MessagePart} {id : MessageId}

theorem encodeMessage_assistant {roundtripText : ToolResult → String} :
    (∃ blocks, encodeMessage roundtripText (.assistantParts parts id) =
      .ok blocks) ↔ ∃ part ∈ parts, (anthropicPart roundtripText part).isSome = true := by
  change (∃ blocks, (anthropicMessage roundtripText "assistant" parts).map _ = .ok blocks) ↔ _
  rw [anthropicMessage]
  split
  next hempty =>
    refine ⟨nofun, fun ⟨part, hpart, hsome⟩ => ?_⟩
    have hnone := filterMap_eq_nil_iff.mp (isEmpty_iff.mp hempty) part hpart
    rw [hnone] at hsome
    cases hsome
  next hempty =>
    refine ⟨fun _ => ?_, fun _ => ⟨_, rfl⟩⟩
    by_contra hnone
    refine hempty (isEmpty_iff.mpr (filterMap_eq_nil_iff.mpr fun part hpart => ?_))
    exact not_isSome_iff_eq_none.mp fun hsome => hnone ⟨part, hpart, hsome⟩

theorem mergeTopLevelObject_ok (target : List (String × Value)) {additionalParams : Option Value}
    (h : ∀ params ∈ additionalParams, params.asObject.isSome = true) :
    ∃ fields, mergeTopLevelObject target additionalParams = .ok fields := by
  cases additionalParams with
  | none => exact ⟨target, rfl⟩
  | some params =>
    obtain ⟨fields, hfields⟩ := isSome_iff_exists.mp (h params rfl)
    exact ⟨_, by rw [mergeTopLevelObject, hfields]⟩

/-- An assistant message can be sent if and only if a part of it becomes content. -/
theorem sendsAgain_iff : SendsAgain (.assistantParts parts id) ↔ ∀ roundtripText, ∃ part ∈ parts,
      (anthropicPart roundtripText part).isSome = true := by
  constructor
  · intro h roundtripText
    obtain ⟨body, hbody⟩ := h ⟨roundtripText, fun _ => .null, "", {}⟩
      ⟨⟨""⟩, ⟨""⟩, ⟨""⟩, [], [.assistantParts parts id], [], [], none⟩ (mem_singleton.mpr rfl)
      (fun other hother => .inl (mem_singleton.mp hother)) nofun nofun
    obtain ⟨encoded, hencoded, -⟩ := except_bind_eq_ok.mp hbody
    obtain ⟨blocks, -, hblocks⟩ := exists_of_except_mapM hencoded (mem_singleton.mpr rfl)
    exact encodeMessage_assistant.mp ⟨blocks, hblocks⟩
  · intro h setup request hmem hothers htools hparams
    have hsent : ∃ blocks, encodeMessage setup.roundtripText (.assistantParts parts id) =
      .ok blocks := encodeMessage_assistant.mpr (h setup.roundtripText)
    obtain ⟨encoded, hencoded⟩ := except_mapM_ok request.messages fun other hother =>
      (hothers other hother).elim (fun heq => heq ▸ hsent) fun h => h
    -- The message itself is one of those that the request carries.
    have hnonempty : (encoded.flatMap Prod.snd).isEmpty = false := by
      obtain ⟨blocks, hblocks, hencode⟩ := exists_of_except_mapM hencoded hmem
      change (anthropicMessage setup.roundtripText "assistant" parts).map _ = _ at hencode
      cases hblock : anthropicMessage setup.roundtripText "assistant" parts with
      | error e => rw [hblock] at hencode; cases hencode
      | ok block =>
        rw [hblock] at hencode
        cases hencode
        rw [isEmpty_eq_false_iff_exists_mem]
        exact ⟨block, mem_flatMap.mpr ⟨_, hblocks, mem_singleton.mpr rfl⟩⟩
    obtain ⟨tools, htools⟩ := except_mapM_ok (f := toolBlock setup.coerceObjectSchema)
      request.tools fun tool htool => by
        obtain ⟨schema, hschema⟩ := isSome_iff_exists.mp (htools tool htool)
        exact ⟨_, by rw [toolBlock, hschema]⟩
    rw [buildAnthropicMessagesBody, hencoded]
    change ∃ body, (if (encoded.flatMap Prod.snd).isEmpty = true then _ else _) = _
    rw [hnonempty]
    exact (mergeTopLevelObject_ok _ hparams).elim fun fields hfields => ⟨.object fields,
      except_bind_eq_ok.mpr ⟨tools, htools, except_bind_eq_ok.mpr ⟨fields, hfields, rfl⟩⟩⟩

/-! ### What the pieces become -/

/-- The piece becomes no content of a later request. -/
def Piece.Blank : Piece → Prop
  | .text delta => delta = ""
  | .output (.toolCall _) => False
  | .output (.reasoning item) => item.displayText = ""

def Piece.text? : Piece → Option String
  | .text delta => some delta
  | _ => none

def Piece.call? : Piece → Option ToolCall
  | .output (.toolCall call) => some call
  | _ => none

variable {pieces : List Piece} {wire : Wire} {block : Block} {response : TurnResponse}
  (deltas : List Value)

theorem forall_blank_iff : (∀ piece ∈ pieces, piece.Blank) ↔
    String.join (pieces.filterMap Piece.text?) = "" ∧ pieces.filterMap Piece.call? = [] ∧
      ∀ item ∈ pieces.filterMap Piece.reasoning?, item.displayText = "" := by
  induction pieces with
  | nil => exact ⟨fun _ => ⟨rfl, rfl, nofun⟩, fun _ => nofun⟩
  | cons piece pieces ih =>
    rw [forall_mem_cons, ih]
    rcases piece with delta | call | item
    · change delta = "" ∧ _ ↔ .join (delta :: _) = "" ∧ _
      rw [String.join_cons, String.append_eq_empty_iff, and_assoc]
      rfl
    · exact ⟨fun h => h.1.elim, fun h => nomatch h.2.1⟩
    · change item.displayText = "" ∧ _ ↔ _ ∧ _ ∧ ∀ other ∈ item :: _, _
      rw [forall_mem_cons, and_left_comm, and_left_comm (a := item.displayText = "")]
      rfl

/-- A stored message can be sent unless all that was passed on is blank. -/
theorem sendsAgain_response_iff
    (htext : response.assistantText = String.join (pieces.filterMap Piece.text?))
    (hcalls : response.toolCalls = pieces.filterMap Piece.call?)
    (hreasoning : response.assistantReasoning = pieces.filterMap Piece.reasoning?) :
    SendsAgain (.assistantParts (assistantResponseParts response) id) ↔
      ¬ ∀ piece ∈ pieces, piece.Blank := by
  rw [sendsAgain_iff, forall_blank_iff, ← htext, ← hcalls, ← hreasoning, assistantResponseParts]
  constructor
  · rintro h ⟨htext, hcalls, hitems⟩
    obtain ⟨part, hpart, hsome⟩ := h fun _ => ""
    rw [htext, hcalls, map_nil, append_nil] at hpart
    obtain ⟨item, hitem, rfl⟩ := mem_map.mp hpart
    rw [anthropicPart, hitems item hitem] at hsome
    cases hsome
  · intro h roundtripText
    by_contra hnone
    push Not at hnone
    refine h ⟨?_, ?_, fun item hitem => ?_⟩
    · by_contra hne
      refine hnone (.text response.assistantText) (mem_append_left _ (mem_append_left _ ?_)) rfl
      rw [if_neg (fun hempty => hne (String.isEmpty_iff.mp hempty))]
      exact mem_singleton.mpr rfl
    · refine eq_nil_iff_forall_not_mem.mpr fun call hcall => ?_
      exact hnone (.toolCall call) (mem_append_right _ (List.mem_map_of_mem hcall)) rfl
    · by_contra hne
      refine hnone (.reasoning item) (mem_append_left _
        (mem_append_right _ (mem_map_of_mem hitem))) ?_
      rw [anthropicPart, if_neg (fun hempty => hne (String.isEmpty_iff.mp hempty))]
      rfl

/-! ### The condition on the blocks -/

/-- The texts of a text block. -/
def textsOf : List String :=
  deltas.filterMap fun delta =>
    if delta.str "type" = some "text_delta" then delta.str "text" else none

/-- The text of a thinking block. -/
def thoughtOf : String :=
  String.join <| deltas.filterMap fun delta =>
    if delta.str "type" = some "thinking_delta" then delta.str "thinking" else none

/-- The signature of a thinking block: that of its last signature delta. -/
def signatureOf : Option String :=
  deltas.foldl (fun signature delta =>
    if delta.str "type" = some "signature_delta" then delta.str "signature" else signature) none

def Block.thinks (block : Block) : Bool :=
  match block.opened with
  | some (.thinking _ _ _) => true
  | _ => false

/-- No text, and no finished call or finished thought with a text. -/
structure Block.Silent (block : Block) : Prop where
  text : block.opened = some .text → ∀ text ∈ textsOf block.deltas, text = ""
  call : block.callId?.isSome = true → block.stopped = false
  thought : block.thinks = true → block.stopped = true → thoughtOf block.deltas = ""

/-- **Only a signature is left of the blocks.** -/
structure OnlySigned (blocks : List Block) : Prop where
  silent : ∀ block ∈ blocks, block.Silent
  signed : ∃ block ∈ blocks, block.thinks = true ∧ block.stopped = true ∧
    (signatureOf block.deltas).isSome = true

theorem applyDeltas_thinking (id : Option String) (thought : String) (signature : Option String)
    (deltas : List Value) :
    (thinking id thought signature).applyDeltas deltas =
      .thinking id (thought ++ thoughtOf deltas) (deltas.foldl (fun signature delta =>
        if delta.str "type" = some "signature_delta" then delta.str "signature" else signature)
          signature) := by
  induction deltas generalizing thought signature with
  | nil => rw [thoughtOf, filterMap_nil, String.join_nil, String.append_empty]; rfl
  | cons delta deltas ih =>
    change ((thinking id thought signature).applyDelta delta).1.applyDeltas
      deltas = _
    rw [applyDelta, thoughtOf, filterMap_cons, foldl_cons]
    by_cases hthinking : delta.str "type" = some "thinking_delta"
    · rw [if_pos hthinking, if_pos hthinking, if_neg (by rw [hthinking]; decide), ih]
      cases delta.str "thinking" with
      | none => rw [getD_none, String.append_empty]; rfl
      | some text =>
        rw [String.join_cons, String.append_assoc]
        rfl
    · rw [if_neg hthinking, if_neg hthinking]
      by_cases hsignature : delta.str "type" = some "signature_delta"
      · rw [if_pos hsignature, if_pos hsignature, ih]
        rfl
      · rw [if_neg hsignature, if_neg hsignature, ih]
        rfl

/-- A block whose deltas are not passed on passes on what it comes to. -/
theorem piecesWith_of_ne_text {state : AnthropicBlockState} (h : state ≠ .text)
    (deltas : List Value) (stopped : Bool) : state.piecesWith wire deltas stopped =
      (state.comesTo wire deltas stopped).toList.map .output := by
  induction deltas generalizing state with
  | nil => cases stopped <;> rfl
  | cons delta deltas ih =>
    have hdelta : (state.applyDelta delta).2 = none ∧ (state.applyDelta delta).1 ≠ .text := by
      cases state with
      | text => exact absurd rfl h
      | toolUse id name inputJson => exact ⟨rfl, by simp [applyDelta]⟩
      | thinking id thought signature =>
        rw [applyDelta]
        split
        · exact ⟨rfl, by simp⟩
        · split <;> exact ⟨rfl, by simp⟩
    rw [AnthropicBlockState.piecesWith, hdelta.1, ih hdelta.2]
    rfl

theorem text_pieces (stopped : Bool) :
    text.piecesWith wire deltas stopped = (textsOf deltas).map .text := by
  induction deltas with
  | nil => cases stopped <;> rfl
  | cons delta deltas ih =>
    rw [AnthropicBlockState.piecesWith, AnthropicBlockState.applyDelta, ih, textsOf, textsOf,
      filterMap_cons]
    cases (if delta.str "type" = some "text_delta" then delta.str "text" else none) <;> rfl

theorem fromStart_thinking {start : Value} {id signature : Option String} {thought : String}
    (h : (fromStart start).toOption = some (.thinking id thought signature)) :
    thought = "" ∧ signature = none := by
  rw [fromStart] at h
  split at h
  · cases h
  · split at h <;> cases h
  · cases h
    exact ⟨rfl, rfl⟩
  · cases h

/-- **What a block of an accepted stream passes on.** -/
inductive Passes (block : Block) : List Piece → Prop
  | text (hopened : block.opened = some .text) (hcall : block.callId? = none)
      (hthinks : block.thinks = false) : Passes block ((textsOf block.deltas).map .text)
  | unfinished (htext : block.opened ≠ some .text) (hstopped : block.stopped = false) :
      Passes block []
  | call (htext : block.opened ≠ some .text) (hstopped : block.stopped = true)
      (hcall : block.callId?.isSome = true) (hthinks : block.thinks = false) (call : ToolCall) :
      Passes block [.output (.toolCall call)]
  | nothing (htext : block.opened ≠ some .text) (hcall : block.callId? = none)
      (hthought : thoughtOf block.deltas = "") (hsignature : signatureOf block.deltas = none) :
      Passes block []
  | thought (htext : block.opened ≠ some .text) (hcall : block.callId? = none)
      (hstopped : block.stopped = true) (hthinks : block.thinks = true) (item : Reasoning)
      (hdisplay : item.displayText = thoughtOf block.deltas)
      (hsigned : thoughtOf block.deltas = "" → (signatureOf block.deltas).isSome = true) :
      Passes block [.output (.reasoning item)]

theorem Block.Sound.passes (h : block.Sound wire) : Passes block (block.pieces wire) := by
  obtain ⟨state, hopened, hfinishes⟩ := h
  have hcall : block.callId? = state.callId? := by rw [Block.callId?, hopened]; rfl
  have hthinks : block.thinks = match some state with
      | some (.thinking _ _ _) => true
      | _ => false := by rw [Block.thinks, hopened]
  rw [Block.pieces, hopened, elim_some]
  by_cases htext : state = .text
  · subst htext
    rw [text_pieces]
    exact .text hopened hcall hthinks
  have hne : block.opened ≠ some .text := fun h => htext (some.inj (hopened.symm.trans h))
  rw [piecesWith_of_ne_text htext, comesTo]
  cases hstopped : block.stopped with
  | false => exact .unfinished hne hstopped
  | true =>
    obtain ⟨output, houtput⟩ := hfinishes hstopped
    rw [houtput]
    cases state with
    | text => exact absurd rfl htext
    | toolUse id name inputJson =>
      have hid := (finish_callId? houtput).trans (applyDeltas_callId? _ _)
      rcases output with - | call | item
      · cases hid
      · exact .call hne hstopped (by rw [hcall]; rfl) hthinks call
      · cases hid
    | thinking id thought signature =>
      obtain ⟨rfl, rfl⟩ := fromStart_thinking hopened
      rw [applyDeltas_thinking, finish] at houtput
      split at houtput
      next hblank =>
        cases houtput
        rw [Bool.and_eq_true, String.isEmpty_iff, isNone_iff_eq_none] at hblank
        exact .nothing hne hcall hblank.1 hblank.2
      next hblank =>
        cases houtput
        refine .thought hne hcall hstopped hthinks _ (String.intercalate_singleton ..) ?_
        intro hthought
        by_contra hsigned
        rw [not_isSome_iff_eq_none] at hsigned
        rw [hthought] at hblank
        exact hblank (by rw [← signatureOf, hsigned]; rfl)

theorem Passes.blank_iff (h : Passes block pieces) :
    (∀ piece ∈ pieces, piece.Blank) ↔ block.Silent := by
  cases h with
  | text hopened hcall hthinks =>
    rw [List.forall_mem_map]
    exact ⟨fun h => ⟨fun _ => h, by simp [hcall], by simp [hthinks]⟩, fun h => h.text hopened⟩
  | unfinished htext hstopped =>
    exact ⟨fun _ => ⟨(absurd · htext), fun _ => hstopped, by simp [hstopped]⟩, fun _ => nofun⟩
  | call htext hstopped hcall hthinks call =>
    refine ⟨fun h => (h _ mem_cons_self).elim, fun h => ?_⟩
    cases hstopped.symm.trans (h.call hcall)
  | nothing htext hcall hthought hsignature =>
    exact ⟨fun _ => ⟨(absurd · htext), by simp [hcall], fun _ _ => hthought⟩, fun _ => nofun⟩
  | thought htext hcall hstopped hthinks item hdisplay hsigned =>
    rw [forall_mem_singleton]
    exact ⟨fun h => ⟨(absurd · htext), by simp [hcall], fun _ _ => hdisplay.symm.trans h⟩,
      fun h => hdisplay.trans (h.thought hthinks hstopped)⟩

theorem Passes.reasons_iff (h : Passes block pieces) (hsilent : block.Silent) :
    (∃ piece ∈ pieces, piece.reasoning?.isSome = true) ↔
      block.thinks = true ∧ block.stopped = true ∧ (signatureOf block.deltas).isSome = true := by
  cases h with
  | text hopened hcall hthinks => simp [hthinks, Piece.reasoning?]
  | unfinished htext hstopped => simp [hstopped]
  | call htext hstopped hcall hthinks call => simp [hthinks, Piece.reasoning?]
  | nothing htext hcall hthought hsignature => simp [hsignature]
  | thought htext hcall hstopped hthinks item hdisplay hsigned =>
    have hsignature := hsigned (hsilent.thought hthinks hstopped)
    simp [hthinks, hstopped, hsignature, Piece.reasoning?]

/-- What is left of the blocks of an accepted stream, in terms of what they pass on. -/
theorem onlySigned_iff {blocks : List Block} (hsound : ∀ block ∈ blocks, block.Sound wire) :
    OnlySigned blocks ↔ (∀ piece ∈ blocks.flatMap (Block.pieces wire), piece.Blank) ∧
      ∃ piece ∈ blocks.flatMap (Block.pieces wire), piece.reasoning?.isSome = true := by
  have hblank : (∀ piece ∈ blocks.flatMap (Block.pieces wire), piece.Blank) ↔
      ∀ block ∈ blocks, block.Silent := by
    rw [forall_mem_flatMap]
    exact forall₂_congr fun block hblock => (hsound block hblock).passes.blank_iff
  constructor
  · rintro ⟨hsilent, block, hblock, hsigned⟩
    obtain ⟨piece, hpiece, hreasoning⟩ :=
      ((hsound block hblock).passes.reasons_iff (hsilent block hblock)).mpr hsigned
    exact ⟨hblank.mpr hsilent, piece, mem_flatMap.mpr ⟨block, hblock, hpiece⟩, hreasoning⟩
  · rintro ⟨hpieces, piece, hpiece, hreasoning⟩
    obtain ⟨block, hblock, hpiece⟩ := mem_flatMap.mp hpiece
    have hsilent := hblank.mp hpieces
    exact ⟨hsilent, block, hblock, ((hsound block hblock).passes.reasons_iff
      (hsilent block hblock)).mp ⟨piece, hpiece, hreasoning⟩⟩

/-! ### The answer of a stream -/

section

variable {inputs : List (Except RuntimeError String)} {last : State}

/-- If the observer never fails, a stream without errors is read to its end. -/
theorem readStream_ok {stream : ModelStream}
    (h : ∀ event ∈ stream, ∃ model, event = .ok model ∧ ∀ message, model ≠ .error message)
    (response : TurnResponse) (rt : AgentRuntime) : ∃ response' rt',
      exec (stream.foldlM (readModelEvent quietEnv) response) rt = (.ok response', rt') := by
  induction stream generalizing response rt with
  | nil => exact ⟨response, rt, rfl⟩
  | cons event stream ih =>
    obtain ⟨⟨model, rfl, hmodel⟩, hrest⟩ := forall_mem_cons.mp h
    have hone : ∃ response' rt', exec (readModelEvent quietEnv response (.ok model)) rt =
        (.ok response', rt') := by
      cases model with
      | error message => exact absurd rfl (hmodel message)
      | _ => exact ⟨_, _, rfl⟩
    obtain ⟨response', rt', hread⟩ := hone
    obtain ⟨response'', rt'', hreads⟩ := ih hrest response' rt'
    exact ⟨response'', rt'', by rw [foldlM_cons, exec_bind_ok hread, hreads]⟩

section

variable (hlast : ((messages wire).reading inputs).ending = .ok last)

include hlast

theorem stream_accepted : (messages wire).stream inputs =
      ((messages wire).reading inputs).emitted.map .ok ++ [.ok (State.complete wire last)] := by
  rw [Adapter.stream_eq, hlast]
  rfl

variable (hpassed : PassedOn pieces ((messages wire).reading inputs).emitted [] last.reasoning)

include hpassed

theorem stream_ok : ∀ event ∈ (messages wire).stream inputs,
      ∃ model, event = .ok model ∧ ∀ message, model ≠ .error message := by
  rw [stream_accepted hlast, hpassed.emitted]
  refine forall_mem_append.mpr
    ⟨forall_mem_map.mpr fun model hmodel => ?_, forall_mem_singleton.mpr ⟨_, rfl, nofun⟩⟩
  obtain ⟨piece, -, hpiece⟩ := mem_filterMap.mp hmodel
  rcases piece with delta | call | item <;> cases hpiece <;> exact ⟨_, rfl, nofun⟩

/-- The response adds up to what was passed on. -/
theorem response_eq (hadds : AddsUp ((messages wire).stream inputs) {} response) :
    response.assistantText = String.join (pieces.filterMap Piece.text?) ∧
      response.toolCalls = pieces.filterMap Piece.call? ∧
      response.assistantReasoning = pieces.filterMap Piece.reasoning? := by
  have hemitted := hpassed.emitted
  refine ⟨?_, ?_, ?_⟩
  · rw [hadds.text, stream_accepted hlast, hemitted, streamText, filterMap_append,
      filterMap_map, filterMap_filterMap]
    change "" ++ .join (_ ++ []) = _
    rw [append_nil]
    refine congrArg String.join (filterMap_congr fun piece _ => ?_)
    rcases piece with delta | call | item <;> rfl
  · rw [hadds.calls, Adapter.streamCalls_eq completesLast, hemitted, filterMap_filterMap]
    refine filterMap_congr fun piece _ => ?_
    rcases piece with delta | call | item <;> rfl
  · rw [hadds.reasoning, stream_accepted hlast, hemitted, streamReasoning, foldl_append]
    exact hpassed.reasoning

end

end

/-- **Stored answers that can be sent again**: all but those of which only a signature is
left. -/
theorem stored_answer_sends_again_iff (wire : Wire) (inputs : List (Except RuntimeError String)) :
    StoredAnswerSendsAgain ((messages wire).stream inputs) ↔ ((messages wire).Readable inputs →
        (∀ block ∈ messageBlocks ((messages wire).received inputs), block.Sound wire) →
        ¬ OnlySigned (messageBlocks ((messages wire).received inputs))) := by
  rw [← and_imp, ← messages_accepted_iff]
  -- What was passed on, and that it is what the blocks pass on.
  have hpieces : ∀ last, ((messages wire).reading inputs).ending = .ok last → ∃ pieces,
      PassedOn pieces ((messages wire).reading inputs).emitted [] last.reasoning ∧
      (OnlySigned (messageBlocks ((messages wire).received inputs)) ↔
        (∀ piece ∈ pieces, piece.Blank) ∧ ∃ piece ∈ pieces, piece.reasoning?.isSome = true) := by
    intro last hlast
    obtain ⟨pieces, hpassed, hperm⟩ := pieces_perm hlast
    have hsound := (messages_accepted_iff.mp ⟨last, hlast⟩).2
    refine ⟨pieces, hpassed, (onlySigned_iff hsound).trans ?_⟩
    have hmem : ∀ piece, piece ∈ (messageBlocks ((messages wire).received inputs)).flatMap
        (Block.pieces wire) ↔ piece ∈ pieces := by
      intro piece
      rw [hperm.mem_iff, (decides.accepted hlast).1]
      rfl
    simp only [hmem]
  constructor
  · rintro h ⟨last, hlast⟩ hsigned
    obtain ⟨pieces, hpassed, hiff⟩ := hpieces last hlast
    obtain ⟨hblank, piece, hpiece, hreasoning⟩ := hiff.mp hsigned
    have hok := stream_ok hlast hpassed
    obtain ⟨response, rt', hread⟩ := readStream_ok hok {} freshRuntime
    obtain ⟨htext, hcalls, hitems⟩ := response_eq hlast hpassed (readStream_addsUp hread)
    have hitem : response.assistantReasoning ≠ [] := by
      obtain ⟨item, hitem⟩ := isSome_iff_exists.mp hreasoning
      rw [hitems]
      exact ne_nil_of_mem (mem_filterMap.mpr ⟨piece, hpiece, hitem⟩)
    exact (sendsAgain_response_iff htext hcalls hitems).mp (h quietEnv freshRuntime response rt'
      hread (by rw [isEmpty_eq_false_iff.mpr hitem, Bool.and_false]) ⟨""⟩) hblank
  · intro h env rt response rt' hread hstored id
    have hadds := readStream_addsUp hread
    cases hlast : ((messages wire).reading inputs).ending with
    | error e =>
      obtain ⟨model, hmodel⟩ := hadds.ok (.error e) (by
        rw [Adapter.stream_eq, hlast]
        exact mem_append_right _ (mem_singleton.mpr rfl))
      cases hmodel
    | ok last =>
      obtain ⟨pieces, hpassed, hiff⟩ := hpieces last hlast
      obtain ⟨htext, hcalls, hitems⟩ := response_eq hlast hpassed hadds
      rw [sendsAgain_response_iff htext hcalls hitems]
      intro hblank
      refine h ⟨last, hlast⟩ (hiff.mpr ⟨hblank, ?_⟩)
      -- Something was stored, and it is neither a text nor a call.
      by_contra hnone
      push Not at hnone
      obtain ⟨hnoText, hnoCall, -⟩ := forall_blank_iff.mp hblank
      rw [← htext] at hnoText
      rw [← hcalls] at hnoCall
      have hnoItem : response.assistantReasoning = [] := by
        rw [hitems, filterMap_eq_nil_iff]
        exact fun piece hpiece => not_isSome_iff_eq_none.mp (hnone piece hpiece)
      rw [hnoText, hnoCall, hnoItem] at hstored
      cases hstored

/-- A thinking block starts, is signed and stops, and the answer ends. -/
def signingWire : Wire where
  parseJson data :=
    if data = "start" then some (.object [("type", .string "content_block_start"),
      ("index", .number "0"), ("content_block", .object [("type", .string "thinking")])])
    else if data = "sign" then some (.object [("type", .string "content_block_delta"),
      ("index", .number "0"), ("delta", .object [("type", .string "signature_delta"),
        ("signature", .string "signature")])])
    else if data = "stop" then some (.object [("type", .string "content_block_stop"),
      ("index", .number "0")])
    else if data = "end" then some (.object [("type", .string "message_stop")])
    else none
  freshMessageId := ⟨"message"⟩
  freshCallId _ := ⟨"call"⟩
  toolOrigins _ := none

/-- **A signed thought without a text** is stored, and no request can be sent with it. -/
theorem signed_thought_blocks_session :
    (messages signingWire).Readable [.ok "start", .ok "sign", .ok "stop", .ok "end"] ∧
      ¬ StoredAnswerSendsAgain
        ((messages signingWire).stream [.ok "start", .ok "sign", .ok "stop", .ok "end"]) := by
  refine ⟨show Reducer.readable _ _ _ = true by decide +kernel, fun h => ?_⟩
  have hsends := h quietEnv freshRuntime
    { assistantMessageId := some ⟨"message"⟩
      assistantReasoning := [{ id := none, content := [.text "" (some "signature")] }] } _ rfl rfl
    ⟨""⟩
  obtain ⟨part, hpart, hsome⟩ := sendsAgain_iff.mp hsends fun _ => ""
  rw [mem_singleton.mp hpart] at hsome
  exact absurd hsome (by decide +kernel)

end Nanoclaw.Provider.Anthropic
