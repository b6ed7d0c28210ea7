import Nanoclaw.Provider.AnthropicBlocks
import Nanoclaw.Provider.OpenAi
import Nanoclaw.Runtime.TurnMoves

/-!
# Streams that Are Cut Off

A provider marks the end of a response with an event of its own. None of the adapters waits for
it: when the connection ends, or at the marker `[DONE]` or a close frame, each reports a
completion with what it has, and calls that were not finished are dropped.
-/

namespace Nanoclaw.Provider

open List OpenAi Proc

/-! ### Adapters -/

def isCompletion : Except RuntimeError ModelEvent → Bool
  | .ok (.responseComplete _ _ _ _) => true
  | _ => false

/-- An adapter, and what its payloads mean. -/
structure Adapter (σ ι : Type) where
  decode : ι → Reducer.Decoded Value RuntimeError
  reducer : Reducer σ Value RuntimeError ModelEvent
  start : σ
  /-- The terminal event of the provider. -/
  terminal : Value → Bool
  /-- The calls that payloads open. -/
  opened : List Value → List ToolCallId
  /-- The adapter stops reading at the payload. -/
  stops : Value → Bool
  /-- The adapter fails at the payload, whatever came before. -/
  fails : Value → Bool

namespace Adapter

variable {σ ι : Type} (a : Adapter σ ι) (inputs : List (Except RuntimeError ι))

def stream : ModelStream := (a.reducer.comap a.decode).stream a.start inputs

/-- The payloads that the adapter read. -/
def seen : List Value :=
  ((a.reducer.comap a.decode).read a.start inputs).consumed.filterMap fun i =>
    (a.decode i).payload?

/-- The terminal event was read, and every call that was opened is among the calls. -/
def Whole (payloads : List Value) (calls : List ToolCall) : Prop :=
  (∃ payload ∈ payloads, a.terminal payload = true) ∧ (a.opened payloads).Subperm (calls.map (·.id))

/-- **A cut-off stream is not a finished answer**, to the adapter and to the runtime. -/
structure CutOffIsError : Prop where
  reported : (∃ event ∈ a.stream inputs, isCompletion event = true) →
    a.Whole (a.seen inputs) (streamCalls (a.stream inputs))
  stored : ∀ env rt response rt',
    exec ((a.stream inputs).foldlM (readModelEvent env) {}) rt = (.ok response, rt') →
      a.Whole (a.seen inputs) response.toolCalls

/-- The payloads up to the one at which the adapter stops. -/
def received : List Value := Reducer.upTo a.stops (Reducer.payloads a.decode inputs)

/-- Neither the transport nor a payload up to there is a failure. -/
def Readable : Prop :=
  Reducer.readable a.stops a.fails (Reducer.payloads a.decode inputs) = true

/-- The reading of the payloads. -/
def reading : Reducer.Reading σ Value RuntimeError ModelEvent :=
  a.reducer.read a.start (Reducer.payloads a.decode inputs)

end Adapter

/-- A reducer that reports a completion in the end, and only then. -/
structure CompletesLast {σ ι : Type} (r : Reducer σ ι RuntimeError ModelEvent) : Prop where
  step : ∀ s i, ∀ event ∈ (r.step s i).1, isCompletion (.ok event) = false
  finish : ∀ s, isCompletion (.ok (r.finish s)) = true

/-! ### What a stream adds up to -/

def eventCall : ModelEvent → Option ToolCall
  | .toolCallRequested call => some call
  | _ => none

def streamText (stream : ModelStream) : String :=
  String.join <| stream.filterMap fun
    | .ok (.textDelta delta) => some delta
    | _ => none

/-- The reasoning of the last completion, if there is one. -/
def streamReasoning (reasoning : List Reasoning) (stream : ModelStream) : List Reasoning :=
  stream.foldl (fun reasoning event => match event with
    | .ok (.responseComplete _ _ _ reasoning) => reasoning
    | _ => reasoning) reasoning

/-- The response is the one before with the stream, which has no error. -/
structure AddsUp (stream : ModelStream) (before after : TurnResponse) : Prop where
  ok : ∀ event ∈ stream, ∃ model, event = .ok model
  calls : after.toolCalls = before.toolCalls ++ streamCalls stream
  text : after.assistantText = before.assistantText ++ streamText stream
  reasoning : after.assistantReasoning = streamReasoning before.assistantReasoning stream

theorem AddsUp.append {stream stream' : ModelStream} {before between after : TurnResponse}
    (h : AddsUp stream before between) (h' : AddsUp stream' between after) :
    AddsUp (stream ++ stream') before after where
  ok event hevent := (mem_append.mp hevent).elim (h.ok event) (h'.ok event)
  calls := by
    rw [h'.calls, h.calls, append_assoc, streamCalls, streamCalls, streamCalls, filterMap_append]
  text := by
    rw [h'.text, h.text, String.append_assoc, streamText, streamText, streamText,
      filterMap_append, String.join_append]
  reasoning := by
    rw [h'.reasoning, h.reasoning, streamReasoning, streamReasoning, streamReasoning, foldl_append]

variable {response : TurnResponse} {env : Env}

theorem readModelEvent_addsUp {event : Except RuntimeError ModelEvent} :
    Triple (fun _ => True) (readModelEvent env response event)
      (fun response' _ => AddsUp [event] response response') fun _ _ => True := by
  have hanswer : Triple (fun _ => True) (answer event) (fun model _ => event = .ok model)
      fun _ _ => True := by
    cases event with
    | error e => exact .throw fun _ _ => trivial
    | ok model => exact .pure fun _ _ => rfl
  refine .bind hanswer fun model => .of_state fun rt hmodel => ?_
  subst hmodel
  have hone : ∀ e ∈ [(.ok model : Except RuntimeError ModelEvent)], ∃ model, e = .ok model :=
    fun e he => ⟨model, mem_singleton.mp he⟩
  cases model with
  | textDelta | responseComplete =>
    refine .bind (.trivial _) fun _ => .pure fun _ _ => ?_
    exact ⟨hone, (append_nil _).symm, by simp [streamText], rfl⟩
  | toolCallRequested call =>
    refine .bind (.trivial _) fun _ => .pure fun _ _ => ?_
    exact ⟨hone, rfl, by simp [streamText], rfl⟩
  | error message => exact .throw fun _ _ => trivial

/-- **The response that the runtime makes of a stream.** -/
theorem readStream_addsUp {stream : ModelStream} {rt rt' : AgentRuntime}
    (h : exec (stream.foldlM (readModelEvent env) {}) rt = (.ok response, rt')) :
    AddsUp stream {} response := by
  have hfold : ∀ (stream : ModelStream) (before : TurnResponse), Triple (fun _ => True)
      (stream.foldlM (readModelEvent env) before)
      (fun after _ => AddsUp stream before after) fun _ _ => True := by
    intro stream
    induction stream with
    | nil =>
      exact fun before => .pure fun _ _ => ⟨nofun, (append_nil _).symm, by simp [streamText], rfl⟩
    | cons event stream ih =>
      intro before
      refine .bind (R := fun between _ => AddsUp [event] before between)
        readModelEvent_addsUp fun between => ?_
      refine .of_state fun rt hbetween => ?_
      exact (ih between).conseq (fun _ _ => trivial) (fun _ _ h => hbetween.append h) fun _ _ h => h
  exact (hfold stream {}).of_ok trivial h

namespace Adapter

variable {σ ι : Type} {a : Adapter σ ι} {inputs : List (Except RuntimeError ι)}

theorem stream_eq : a.stream inputs =
    (a.reading inputs).emitted.map .ok ++ [(a.reading inputs).ending.map a.reducer.finish] := by
  obtain ⟨-, hemitted, hending⟩ := Reducer.read_comap a.decode a.reducer a.start inputs
  rw [stream, Reducer.stream, hemitted, hending]
  rfl

theorem streamCalls_ok (events : List ModelEvent) :
    streamCalls (events.map .ok) = events.filterMap eventCall := by
  rw [streamCalls, filterMap_map]
  refine filterMap_congr fun event _ => ?_
  cases event <;> rfl

/-- The calls of the stream are those emitted on the way. -/
theorem streamCalls_eq (hlast : CompletesLast a.reducer) :
    streamCalls (a.stream inputs) = (a.reading inputs).emitted.filterMap eventCall := by
  have hending : streamCalls [(a.reading inputs).ending.map a.reducer.finish] = [] := by
    cases (a.reading inputs).ending with
    | error e => rfl
    | ok last =>
      have hfinish := hlast.finish last
      change streamCalls [.ok (a.reducer.finish last)] = []
      cases hevent : a.reducer.finish last <;> rw [hevent] at hfinish <;>
        first | rfl | exact absurd hfinish Bool.false_ne_true
  rw [stream_eq, ← streamCalls_ok, streamCalls, filterMap_append]
  exact (congrArg _ hending).trans (append_nil _)

/-- **For every adapter**: a cut-off stream is an error if and only if what it accepts is
whole. -/
theorem cutOffIsError_iff (hlast : CompletesLast a.reducer)
    (hdecides : a.reducer.Decides a.stops a.fails) :
    a.CutOffIsError inputs ↔ ∀ last, (a.reading inputs).ending = .ok last →
      a.Whole (a.received inputs) ((a.reading inputs).emitted.filterMap eventCall) := by
  have hemitted : ∀ event ∈ (a.reading inputs).emitted, isCompletion (.ok event) = false :=
    Reducer.emitted_forall hlast.step
  have hseen : ∀ last, (a.reading inputs).ending = .ok last →
      a.seen inputs = a.received inputs := fun last hending =>
    (Reducer.read_comap a.decode a.reducer a.start inputs).1.trans (hdecides.accepted hending).1
  have hmem : (a.reading inputs).ending.map a.reducer.finish ∈ a.stream inputs := by
    rw [stream_eq]
    exact mem_append_right _ (mem_singleton.mpr rfl)
  constructor
  · rintro ⟨hreported, -⟩ last hending
    rw [hending] at hmem
    rw [← streamCalls_eq hlast, ← hseen last hending]
    exact hreported ⟨_, hmem, hlast.finish last⟩
  · intro hwhole
    -- The last event of the stream decides; it is an error unless the payloads are accepted.
    have hend : ∀ model, (a.reading inputs).ending.map a.reducer.finish = .ok model →
        a.Whole (a.seen inputs) ((a.reading inputs).emitted.filterMap eventCall) := by
      intro model hmodel
      cases hending : (a.reading inputs).ending with
      | error e => rw [hending] at hmodel; cases hmodel
      | ok last =>
        rw [hseen last hending]
        exact hwhole last hending
    refine ⟨?_, fun env rt response rt' hread => ?_⟩
    · rintro ⟨event, hevent, hcompletion⟩
      rw [streamCalls_eq hlast]
      rw [stream_eq] at hevent
      rcases mem_append.mp hevent with hevent | hevent
      · obtain ⟨model, hmodel, rfl⟩ := mem_map.mp hevent
        rw [hemitted model hmodel] at hcompletion
        cases hcompletion
      · rw [← mem_singleton.mp hevent] at hend
        cases event with
        | error e => cases hcompletion
        | ok model => exact hend model rfl
    · have hadds := readStream_addsUp hread
      obtain ⟨model, hmodel⟩ := hadds.ok _ hmem
      rw [hadds.calls, streamCalls_eq hlast]
      exact hend model hmodel

end Adapter

/-! ### Events that are no completions -/

theorem textDeltas_not_completion (delta : Option String) :
    ∀ event ∈ delta.toList.map ModelEvent.textDelta, isCompletion (.ok event) = false :=
  forall_mem_map.mpr fun _ _ => rfl

theorem calls_not_completion (calls : List ToolCall) :
    ∀ event ∈ calls.map ModelEvent.toolCallRequested, isCompletion (.ok event) = false :=
  forall_mem_map.mpr fun _ _ => rfl

theorem eventCall_textDeltas (delta : Option String) :
    (delta.toList.map ModelEvent.textDelta).filterMap eventCall = [] := by
  cases delta <;> rfl

theorem eventCall_calls (calls : List ToolCall) :
    (calls.map ModelEvent.toolCallRequested).filterMap eventCall = calls := by
  rw [filterMap_map]
  exact filterMap_some

/-! ### The Responses transport -/

variable {inputs : List (Except RuntimeError Value)}

namespace OpenAi

variable (wire : Wire) {s last : State}

/-- The call that the payload adds to the output, unfinished. -/
def addedCallId (chunk : Value) : Option ToolCallId :=
  if chunk.str "type" = some "response.output_item.added" then
    ((chunk.get "item").bind (parseOpenAiToolCallItem wire)).map (·.id)
  else none

/-- The call that is done with the event. -/
def doneCallId : Event → Option ToolCallId
  | .itemDone (some item) => (parseOpenAiToolCallItem wire item).map (·.id)
  | _ => none

def Event.isCompleted : Event → Bool
  | .completed _ => true
  | _ => false

def Event.isFailed : Event → Bool
  | .failed _ => true
  | _ => false

/-- The adapter of the Responses transport. Only the marker of the end stops the reading. -/
def responses : Adapter State String where
  decode := decodeData wire "failed to parse OpenAI Responses event payload"
  reducer := responsesPayloads wire
  start := {}
  terminal chunk := (Event.ofResponses chunk).isCompleted
  opened chunks := chunks.filterMap (addedCallId wire)
  stops _ := false
  fails chunk := (Event.ofResponses chunk).isFailed

/-- The calls that are done. -/
def doneInResponse (chunks : List Value) : List ToolCallId :=
  chunks.filterMap fun chunk => doneCallId wire (.ofResponses chunk)

section

variable (state : State) (item : Value)

/-- An item that is done passes on its call, and nothing else. -/
theorem itemDone_events : (state.itemDone wire item).1 =
      (parseOpenAiToolCallItem wire item).toList.map .toolCallRequested := by
  rw [State.itemDone]
  cases parseOpenAiToolCallItem wire item <;> rfl

theorem itemDone_calls : ((state.itemDone wire item).1.filterMap eventCall).map (·.id) =
      (doneCallId wire (.itemDone (some item))).toList := by
  rw [itemDone_events, doneCallId]
  cases parseOpenAiToolCallItem wire item <;> rfl

theorem itemDone_not_completion :
    ∀ event ∈ (state.itemDone wire item).1, isCompletion (.ok event) = false := by
  rw [itemDone_events]
  exact calls_not_completion _

end

theorem responses_completesLast : CompletesLast (responsesPayloads wire) where
  step s chunk := by
    change ∀ event ∈ (responsesEvent wire s (.ofResponses chunk)).1, _
    rcases Event.ofResponses chunk with delta | (- | item) | response | message | -
    · exact textDeltas_not_completion delta
    · exact nofun
    · exact itemDone_not_completion wire s item
    · exact nofun
    · exact nofun
    · exact nofun
  finish _ := rfl

/-- An event fails, or passes on the call that is done with it. -/
theorem responsesEvent_cases (state : State) (event : Event) :
    (event.isFailed = true ∧ ∃ e, responsesEvent wire state event = ([], .fail e)) ∨
      (event.isFailed = false ∧ ∃ out after, responsesEvent wire state event = (out, .next after) ∧
        (out.filterMap eventCall).map (·.id) = (doneCallId wire event).toList) := by
  rcases event with delta | (- | item) | response | message | -
  · exact .inr ⟨rfl, _, _, rfl, by rw [eventCall_textDeltas]; rfl⟩
  · exact .inr ⟨rfl, _, _, rfl, rfl⟩
  · exact .inr ⟨rfl, _, _, rfl, itemDone_calls wire state item⟩
  · exact .inr ⟨rfl, _, _, rfl, rfl⟩
  · exact .inl ⟨rfl, _, rfl⟩
  · exact .inr ⟨rfl, _, _, rfl, rfl⟩

theorem responses_decides :
    (responsesPayloads wire).Decides (responses wire).stops (responses wire).fails := by
  intro s chunk
  change Reducer.Fits false _ (responsesEvent wire s (.ofResponses chunk)).2
  rcases responsesEvent_cases wire s (.ofResponses chunk) with
    ⟨-, e, hstep⟩ | ⟨hpasses, out, after, hstep, -⟩
  · rw [hstep]
    trivial
  · rw [hstep]
    exact ⟨rfl, hpasses⟩

theorem responses_accepted_iff {inputs : List (Except RuntimeError String)} :
    (∃ last, ((responses wire).reading inputs).ending = .ok last) ↔
      (responses wire).Readable inputs := by
  refine (responses_decides wire).accepted_iff_readable fun s chunk out e h => ?_
  rcases responsesEvent_cases wire s (.ofResponses chunk) with
    ⟨hfails, -⟩ | ⟨-, out', after, hstep, -⟩
  · exact hfails
  · cases hstep.symm.trans h

/-- The calls that an accepted stream passes on are those that are done. -/
theorem responses_calls (h : ((responsesPayloads wire).read s inputs).ending = .ok last) :
    (((responsesPayloads wire).read s inputs).emitted.filterMap eventCall).map (·.id) =
      doneInResponse wire ((responsesPayloads wire).read s inputs).consumed := by
  refine Reducer.accepted_induction (P := fun _ consumed emitted _ =>
    (emitted.filterMap eventCall).map (·.id) = doneInResponse wire consumed)
    (fun _ => rfl) (fun s chunk out s' hstop => ?_)
    (fun s chunk out s' consumed emitted last hnext ih => ?_) h
  · exact nomatch ((responses_decides wire).fits hstop).1
  · rcases responsesEvent_cases wire s (.ofResponses chunk) with
      ⟨-, e, hstep⟩ | ⟨-, out', after, hstep, hcalls⟩
    · cases hstep.symm.trans hnext
    · cases hstep.symm.trans hnext
      rw [filterMap_append, map_append, ih, hcalls, doneInResponse, doneInResponse, filterMap_cons]
      cases doneCallId wire (.ofResponses chunk) <;> rfl

/-! ### The realtime transport -/

/-- The events at which the realtime transport ends the stream with an error. -/
def Event.failsRealtime : Event → Bool
  | .failed _ => true
  | .completed (some response) => response.str "status" = some "failed"
  | _ => false

/-- The calls in the output of a finished response. -/
def Event.outputCallIds : Event → List ToolCallId
  | .completed (some response) =>
    (((response.get "output").bind Value.asArray).getD []).filterMap fun item =>
      (parseOpenAiToolCallItem wire item).map (·.id)
  | _ => []

/-- The adapter of the realtime transport. -/
def realtime : Adapter State WsMessage where
  decode := decodeFrame wire
  reducer := realtimePayloads wire
  start := {}
  terminal chunk := (Event.ofRealtime chunk).isCompleted
  opened chunks := chunks.filterMap (addedCallId wire)
  stops chunk := (Event.ofRealtime chunk).isCompleted
  fails chunk := (Event.ofRealtime chunk).failsRealtime

/-- The ids that are not known yet, each once. -/
def newIds (known : List ToolCallId) : List ToolCallId → List ToolCallId
  | [] => []
  | id :: ids => if id ∈ known then newIds known ids else id :: newIds (known ++ [id]) ids

/-- The calls that are done, and those of the output that are new. -/
def finishedCallIds (known : List ToolCallId) : List Event → List ToolCallId
  | [] => []
  | event :: events =>
    (doneCallId wire event).toList ++ newIds known (event.outputCallIds wire) ++
      finishedCallIds (known ++ (doneCallId wire event).toList) events

theorem outputItem_calls (state : State) (item : Value) :
    ∃ calls : List ToolCall, (state.outputItem wire item).1 = calls.map .toolCallRequested ∧
      (state.outputItem wire item).2.emittedToolCallIds =
        state.emittedToolCallIds ++ calls.map (·.id) ∧
      ∀ ids, newIds state.emittedToolCallIds
          (((parseOpenAiToolCallItem wire item).map (·.id)).toList ++ ids) =
        calls.map (·.id) ++ newIds (state.emittedToolCallIds ++ calls.map (·.id)) ids := by
  rw [State.outputItem]
  cases parseOpenAiToolCallItem wire item with
  | none => exact ⟨[], rfl, (append_nil _).symm, fun ids => by simp⟩
  | some call =>
    by_cases hknown : call.id ∈ state.emittedToolCallIds
    · refine ⟨[], ?_, ?_, fun ids => ?_⟩ <;> simp [newIds, hknown]
    · refine ⟨[call], ?_, ?_, fun ids => ?_⟩ <;> simp [newIds, hknown]

/-- The output of a finished response passes on the calls that are new. -/
theorem outputItems_calls (state : State) (items : List Value) :
    ∃ calls : List ToolCall, (state.outputItems wire items).1 = calls.map .toolCallRequested ∧
      calls.map (·.id) = newIds state.emittedToolCallIds
        (items.filterMap fun item => (parseOpenAiToolCallItem wire item).map (·.id)) := by
  induction items generalizing state with
  | nil => exact ⟨[], rfl, rfl⟩
  | cons item items ih =>
    obtain ⟨first, hevents, hstate, hnew⟩ := outputItem_calls wire state item
    obtain ⟨calls, hrest, hids⟩ := ih (state.outputItem wire item).2
    refine ⟨first ++ calls, ?_, ?_⟩
    · rw [map_append, ← hevents, ← hrest]
      rfl
    · have hsplit : (item :: items).filterMap
          (fun item => (parseOpenAiToolCallItem wire item).map (·.id)) =
            ((parseOpenAiToolCallItem wire item).map (·.id)).toList ++
              items.filterMap fun item => (parseOpenAiToolCallItem wire item).map (·.id) := by
        rw [filterMap_cons]
        cases (parseOpenAiToolCallItem wire item).map (·.id) <;> rfl
      rw [hsplit, hnew, map_append, hids, hstate]

theorem realtimeEvent_cases (state : State) (event : Event) :
    (event.failsRealtime = true ∧ ∃ e, realtimeEvent wire state event = ([], .fail e)) ∨
      (event.failsRealtime = false ∧ event.isCompleted = false ∧ ∃ out after,
        realtimeEvent wire state event = (out, .next after) ∧
        (out.filterMap eventCall).map (·.id) = (doneCallId wire event).toList ∧
        after.emittedToolCallIds = state.emittedToolCallIds ++ (doneCallId wire event).toList) ∨
      (event.failsRealtime = false ∧ event.isCompleted = true ∧
        ∃ (calls : List ToolCall) (after : State),
        realtimeEvent wire state event = (calls.map .toolCallRequested, .stop after) ∧
        calls.map (·.id) = newIds state.emittedToolCallIds (event.outputCallIds wire)) := by
  rcases event with delta | (- | item) | (- | response) | message | -
  · refine .inr (.inl ⟨rfl, rfl, _, _, rfl, ?_, (append_nil _).symm⟩)
    rw [eventCall_textDeltas]
    rfl
  · exact .inr (.inl ⟨rfl, rfl, _, _, rfl, rfl, (append_nil _).symm⟩)
  · refine .inr (.inl ⟨rfl, rfl, _, _, rfl, itemDone_calls wire state item, ?_⟩)
    change (state.itemDone wire item).2.emittedToolCallIds = _
    rw [State.itemDone, doneCallId]
    cases parseOpenAiToolCallItem wire item with
    | none => exact (append_nil _).symm
    | some call => rfl
  · exact .inr (.inr ⟨rfl, rfl, [], _, rfl, rfl⟩)
  · by_cases hstatus : response.str "status" = some "failed"
    · exact .inl ⟨decide_eq_true hstatus, _, by rw [realtimeEvent, if_pos hstatus]⟩
    · obtain ⟨calls, hevents, hids⟩ := outputItems_calls wire
        { state with
          responseId := (response.str "id").map .mk
          usage := parseOpenAiUsage (response.get "usage") }
        (((response.get "output").bind Value.asArray).getD [])
      exact .inr (.inr ⟨decide_eq_false hstatus, rfl, calls, _,
        by rw [realtimeEvent, if_neg hstatus, ← hevents], hids⟩)
  · exact .inl ⟨rfl, _, rfl⟩
  · exact .inr (.inl ⟨rfl, rfl, _, _, rfl, rfl, (append_nil _).symm⟩)

theorem realtime_completesLast : CompletesLast (realtimePayloads wire) where
  step s chunk := by
    change ∀ event ∈ (realtimeEvent wire s (.ofRealtime chunk)).1, _
    rcases realtimeEvent_cases wire s (.ofRealtime chunk) with
      ⟨-, e, hstep⟩ | ⟨-, hcompleted, -⟩ | ⟨-, -, calls, after, hstep, -⟩
    · rw [hstep]
      exact nofun
    · generalize Event.ofRealtime chunk = event at hcompleted
      rcases event with delta | (- | item) | response | message | -
      · exact textDeltas_not_completion delta
      · exact nofun
      · exact itemDone_not_completion wire s item
      · cases hcompleted
      · exact nofun
      · exact nofun
    · rw [hstep]
      exact calls_not_completion calls
  finish _ := rfl

theorem realtime_decides :
    (realtimePayloads wire).Decides (realtime wire).stops (realtime wire).fails := by
  intro s chunk
  change Reducer.Fits _ _ (realtimeEvent wire s (.ofRealtime chunk)).2
  rcases realtimeEvent_cases wire s (.ofRealtime chunk) with ⟨-, e, hstep⟩ |
    ⟨hpasses, hcompleted, out, after, hstep, -⟩ |
      ⟨hpasses, hcompleted, calls, after, hstep, -⟩ <;> rw [hstep]
  · trivial
  · exact ⟨hcompleted, hpasses⟩
  · exact ⟨hcompleted, hpasses⟩

theorem realtime_accepted_iff {inputs : List (Except RuntimeError WsMessage)} :
    (∃ last, ((realtime wire).reading inputs).ending = .ok last) ↔
      (realtime wire).Readable inputs := by
  refine (realtime_decides wire).accepted_iff_readable fun s chunk out e h => ?_
  rcases realtimeEvent_cases wire s (.ofRealtime chunk) with
    ⟨hfails, -⟩ | ⟨-, -, out', after, hstep, -⟩ | ⟨-, -, calls, after, hstep, -⟩
  · exact hfails
  · cases hstep.symm.trans h
  · cases hstep.symm.trans h

/-- The calls that an accepted stream passes on are those that are finished. -/
theorem realtime_calls (h : ((realtimePayloads wire).read s inputs).ending = .ok last) :
    (((realtimePayloads wire).read s inputs).emitted.filterMap eventCall).map (·.id) =
      finishedCallIds wire s.emittedToolCallIds
        (((realtimePayloads wire).read s inputs).consumed.map .ofRealtime) := by
  refine Reducer.accepted_induction (P := fun s consumed emitted _ =>
    (emitted.filterMap eventCall).map (·.id) =
      finishedCallIds wire s.emittedToolCallIds (consumed.map .ofRealtime))
    (fun _ => rfl) (fun s chunk out s' hstop => ?_)
    (fun s chunk out s' consumed emitted last hnext ih => ?_) h
  · rcases realtimeEvent_cases wire s (.ofRealtime chunk) with
      ⟨-, e, hstep⟩ | ⟨-, -, out', after, hstep, -⟩ | ⟨-, hcompleted, calls, after, hstep, hids⟩
    · cases hstep.symm.trans hstop
    · cases hstep.symm.trans hstop
    · have hdone : doneCallId wire (.ofRealtime chunk) = none := by
        cases hevent : Event.ofRealtime chunk <;> rw [hevent] at hcompleted <;>
          first | rfl | cases hcompleted
      cases hstep.symm.trans hstop
      rw [eventCall_calls, hids, map_singleton, finishedCallIds, hdone]
      exact (append_nil _).symm
  · rcases realtimeEvent_cases wire s (.ofRealtime chunk) with
      ⟨-, e, hstep⟩ | ⟨-, hcompleted, out', after, hstep, hcalls, hids⟩ |
        ⟨-, -, calls, after, hstep, -⟩
    · cases hstep.symm.trans hnext
    · have houtput : (Event.ofRealtime chunk).outputCallIds wire = [] := by
        cases hevent : Event.ofRealtime chunk <;> rw [hevent] at hcompleted <;>
          first | rfl | cases hcompleted
      cases hstep.symm.trans hnext
      rw [filterMap_append, map_append, hcalls, ih, hids, map_cons,
        finishedCallIds, houtput, newIds, append_nil]
    · cases hstep.symm.trans hnext

end OpenAi

/-! ### The Anthropic transport -/

namespace Anthropic

variable {wire : Wire}

/-- The call that a block is about. -/
def AnthropicBlockState.callId? : AnthropicBlockState → Option ToolCallId
  | .toolUse id _ _ => some id
  | _ => none

def Block.callId? (block : Block) : Option ToolCallId :=
  block.opened.bind AnthropicBlockState.callId?

def Piece.callId? : Piece → Option ToolCallId
  | .output (.toolCall call) => some call.id
  | _ => none

def messageBlocks (payloads : List Value) : List Block := blocksOf (payloads.map .ofPayload)

variable (wire) in
/-- The adapter of the Anthropic transport. -/
def messages : Adapter State String where
  decode := decodeData wire "failed to parse Anthropic event payload"
  reducer := messagePayloads wire
  start := {}
  terminal := endsMessage
  opened payloads := (messageBlocks payloads).filterMap Block.callId?
  stops := endsMessage
  fails := failsMessage

theorem completesLast : CompletesLast (messagePayloads wire) where
  step s payload := by
    change ∀ model ∈ (s.handle wire (.ofPayload payload)).1, _
    generalize Event.ofPayload payload = event
    obtain ⟨_, _, heq, hhandled⟩ | ⟨-, heq⟩ | ⟨_, heq, -⟩ := handle_cases wire s event <;> rw [heq]
    · cases hhandled with
      | aside _ _ _ => exact nofun
      | start _ => exact nofun
      | deltaUnknown _ => exact nofun
      | delta _ => exact textDeltas_not_completion _
      | stopUnknown _ => exact nofun
      | @stop _ _ output _ _ _ _ hclosed =>
        rcases output with - | call | item
        · cases hclosed
          exact nofun
        · cases hclosed
          exact calls_not_completion [call]
        · cases hclosed
          exact nofun
    · exact nofun
    · exact nofun
  finish _ := rfl

theorem applyDelta_callId? (state : AnthropicBlockState) (delta : Value) :
    (state.applyDelta delta).1.callId? = state.callId? := by
  cases state with
  | text => rfl
  | toolUse id name inputJson => rfl
  | thinking id thought signature =>
    rw [AnthropicBlockState.applyDelta]
    split
    · rfl
    · split <;> rfl

theorem applyDeltas_callId? (state : AnthropicBlockState) (deltas : List Value) :
    (state.applyDeltas deltas).callId? = state.callId? := by
  induction deltas generalizing state with
  | nil => rfl
  | cons delta deltas ih => exact (ih _).trans (applyDelta_callId? state delta)

/-- A block that can be finished passes on the call it is about. -/
theorem finish_callId? {state : AnthropicBlockState} {output : Option AnthropicBlockOutput}
    (h : state.finish wire = .ok output) :
    (output.bind fun output => Piece.callId? (.output output)) = state.callId? := by
  cases state with
  | text => cases h; rfl
  | toolUse id name inputJson =>
    rw [AnthropicBlockState.finish] at h
    generalize (if (Text.trim inputJson).isEmpty then some (Value.object [])
      else wire.parseJson inputJson) = arguments at h
    cases arguments with
    | none => cases h
    | some arguments => cases h; rfl
  | thinking id thought signature =>
    rw [AnthropicBlockState.finish] at h
    split at h <;> cases h <;> rfl

/-- A block of an accepted stream passes on its call iff it is stopped. -/
theorem Block.Sound.callIds {block : Block} (h : block.Sound wire) :
    (block.pieces wire).filterMap Piece.callId? =
      if block.stopped then block.callId?.toList else [] := by
  obtain ⟨state, hopened, hfinishes⟩ := h
  rw [Block.pieces, Block.callId?, hopened, Option.elim_some, Option.bind_some,
    AnthropicBlockState.piecesWith_filterMap (fun _ => rfl), AnthropicBlockState.comesTo]
  cases hstopped : block.stopped with
  | false => rfl
  | true =>
    obtain ⟨output, houtput⟩ := hfinishes hstopped
    have hcall := finish_callId? houtput
    rw [applyDeltas_callId?] at hcall
    rw [if_pos rfl, ← hcall]
    rw [houtput]
    rfl

/-- The calls that an accepted stream passes on are those of the blocks that are stopped. -/
theorem calls_perm {last : State} (h : ((messagePayloads wire).read {} inputs).ending = .ok last) :
    ((((messagePayloads wire).read {} inputs).emitted.filterMap eventCall).map (·.id)).Perm
      (((messageBlocks ((messagePayloads wire).read {} inputs).consumed).filter
        Block.stopped).filterMap Block.callId?) := by
  obtain ⟨pieces, hpassed, hperm⟩ := pieces_perm h
  have hcalls : (((messagePayloads wire).read {} inputs).emitted.filterMap eventCall).map (·.id) =
      pieces.filterMap Piece.callId? := by
    rw [hpassed.emitted, filterMap_filterMap, map_filterMap]
    refine filterMap_congr fun piece _ => ?_
    rcases piece with text | call | item <;> rfl
  have hblocks : ∀ blocks : List Block, (∀ block ∈ blocks, block.Sound wire) →
      (blocks.flatMap (Block.pieces wire)).filterMap Piece.callId? =
        (blocks.filter Block.stopped).filterMap Block.callId? := by
    intro blocks hsound
    induction blocks with
    | nil => rfl
    | cons block blocks ih =>
      rw [flatMap_cons, filterMap_append, (hsound block mem_cons_self).callIds,
        ih fun other hother => hsound other (mem_cons_of_mem _ hother), filter_cons]
      cases block.stopped with
      | false => rfl
      | true =>
        rw [if_pos rfl, if_pos rfl, filterMap_cons]
        cases block.callId? <;> rfl
  rw [hcalls]
  exact (hperm.filterMap _).trans (.of_eq (hblocks _ (allFinish_of_accepted h).started))

/-- All blocks of calls are stopped iff the opened calls are passed on. -/
theorem callIds_subperm_iff {blocks : List Block} : (blocks.filterMap Block.callId?).Subperm
        ((blocks.filter Block.stopped).filterMap Block.callId?) ↔
      ∀ block ∈ blocks, block.callId?.isSome → block.stopped = true := by
  constructor
  · intro hsubperm block hblock hcall
    have hlength := hsubperm.length_le
    rw [length_filterMap_eq_countP, length_filterMap_eq_countP,
      countP_eq_countP_filter_add blocks _ Block.stopped] at hlength
    by_contra hopen
    refine countP_eq_zero.mp (Nat.le_zero.mp (le_of_add_le_add_left hlength)) block ?_ hcall
    exact mem_filter.mpr ⟨hblock, by rw [eq_false_of_ne_true hopen]; rfl⟩
  · intro hstopped
    refine (List.Perm.of_eq ?_).subperm
    rw [filterMap_filter]
    refine filterMap_congr fun block hblock => ?_
    cases hcall : block.callId? with
    | none => exact (ite_self _).symm
    | some id => rw [if_pos (hstopped block hblock (by rw [hcall]; rfl))]

theorem messages_accepted_iff {inputs : List (Except RuntimeError String)} :
    (∃ last, ((messages wire).reading inputs).ending = .ok last) ↔ (messages wire).Readable inputs ∧
        ∀ block ∈ messageBlocks ((messages wire).received inputs), block.Sound wire := by
  refine accepted_iff.trans (and_congr_right fun _ => ⟨AllFinish.started, fun h => ⟨?_, h⟩⟩)
  intro index state hstate
  cases hstate

end Anthropic

open Anthropic

/-- **Streams that are cut off.** Each adapter reports a completion only for a whole response if and
only if the payloads it receives, unless one is rejected, have the terminal event and finish every
opened call. -/
theorem cut_off_is_error_iff (wire : Wire) :
    (∀ inputs, (OpenAi.responses wire).CutOffIsError inputs ↔
      ((OpenAi.responses wire).Readable inputs → (∃ chunk ∈ (OpenAi.responses wire).received inputs,
          (OpenAi.responses wire).terminal chunk = true) ∧
        (((OpenAi.responses wire).received inputs).filterMap (OpenAi.addedCallId wire)).Subperm
          (OpenAi.doneInResponse wire ((OpenAi.responses wire).received inputs)))) ∧
    (∀ inputs, (OpenAi.realtime wire).CutOffIsError inputs ↔
      ((OpenAi.realtime wire).Readable inputs → (∃ chunk ∈ (OpenAi.realtime wire).received inputs,
          (OpenAi.realtime wire).terminal chunk = true) ∧
        (((OpenAi.realtime wire).received inputs).filterMap (OpenAi.addedCallId wire)).Subperm
          (OpenAi.finishedCallIds wire []
            (((OpenAi.realtime wire).received inputs).map .ofRealtime)))) ∧
    (∀ inputs, (messages wire).CutOffIsError inputs ↔ ((messages wire).Readable inputs →
        (∀ block ∈ messageBlocks ((messages wire).received inputs), block.Sound wire) →
        (∃ payload ∈ (messages wire).received inputs, (messages wire).terminal payload = true) ∧
        ∀ block ∈ messageBlocks ((messages wire).received inputs),
          block.callId?.isSome → block.stopped = true)) := by
  refine ⟨fun inputs => ?_, fun inputs => ?_, fun inputs => ?_⟩
  · rw [Adapter.cutOffIsError_iff (responses_completesLast wire)
      (responses_decides wire), ← responses_accepted_iff, forall_exists_index]
    refine forall₂_congr fun last hlast => and_congr_right fun _ => ?_
    have hcalls := responses_calls wire hlast
    rw [((responses_decides wire).accepted hlast).1] at hcalls
    exact .of_eq (congrArg _ hcalls)
  · rw [Adapter.cutOffIsError_iff (realtime_completesLast wire)
      (realtime_decides wire), ← realtime_accepted_iff, forall_exists_index]
    refine forall₂_congr fun last hlast => and_congr_right fun _ => ?_
    have hcalls := realtime_calls wire hlast
    rw [((realtime_decides wire).accepted hlast).1] at hcalls
    exact .of_eq (congrArg _ hcalls)
  · rw [Adapter.cutOffIsError_iff completesLast decides, ← and_imp, ← messages_accepted_iff,
      forall_exists_index]
    refine forall₂_congr fun last hlast => and_congr_right fun _ => ?_
    have hcalls := calls_perm hlast
    have hreceived := (decides.accepted hlast).1
    change ((messagePayloads wire).read {} _).consumed = _ at hreceived
    rw [hreceived] at hcalls
    exact hcalls.subperm_left.trans callIds_subperm_iff

/-- A wire on which the text `added` opens a tool call. -/
def openingWire : Wire where
  parseJson data := if data = "added" then
    some (.object [("type", .string "response.output_item.added"),
      ("item", .object [("type", .string "function_call"), ("id", .string "call"),
        ("name", .string "read")])]) else none
  freshMessageId := ⟨"message"⟩
  freshCallId _ := ⟨"call"⟩
  toolOrigins _ := none

/-- **A stream that ends in the middle of a tool call** is reported as complete, without the
call. -/
theorem cut_off_call_is_completed :
    (OpenAi.responses openingWire).opened ((OpenAi.responses openingWire).received [.ok "added"]) =
        [⟨"call"⟩] ∧
      (∃ event ∈ (OpenAi.responses openingWire).stream [.ok "added"], isCompletion event = true) ∧
      streamCalls ((OpenAi.responses openingWire).stream [.ok "added"]) = [] ∧
      ¬ (OpenAi.responses openingWire).CutOffIsError [.ok "added"] := by
  have hcompleted : ∃ event ∈ (responses openingWire).stream [.ok "added"],
      isCompletion event = true := by
    decide +kernel
  refine ⟨by decide +kernel, hcompleted, by decide +kernel, fun h => ?_⟩
  exact absurd (h.reported hcompleted).1 (by decide +kernel)

end Nanoclaw.Provider
