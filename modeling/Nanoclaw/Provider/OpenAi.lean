import Nanoclaw.Provider.Payload

/-!
# The OpenAI Adapters

The adapters of the Responses transport, which reads server-sent events, and of the realtime
transport, which reads the frames of a socket. A tool call is passed on when it is done; the
realtime transport also looks for calls in the finished response. Both end the stream with a
completion when there is nothing left to read, whatever they have seen.
-/

namespace Nanoclaw.Provider

namespace OpenAi

variable (wire : Wire)

/-! ### Items of the output -/

def parseOpenAiArguments : Option Value → Value
  | some (.string text) => (wire.parseJson text).getD (.string text)
  | some value => value
  | none => .object []

def parseOpenAiToolCallItem (item : Value) : Option ToolCall := do
  let itemType ← item.str "type"
  if itemType = "function_call" ∨ itemType = "custom_tool_call" then
    let toolName : ToolName := ⟨(item.str "name").getD ""⟩
    return {
      id := ⟨((item.str "id").or (item.str "call_id")).getD ""⟩
      callId := ((item.str "call_id").map CallId.mk).getD (wire.freshCallId item)
      toolName
      arguments := if itemType = "custom_tool_call" then .string ((item.str "input").getD "")
        else parseOpenAiArguments wire (item.get "arguments")
      origin := (wire.toolOrigins toolName).getD (.provider "openai") }
  else none

def parseOpenAiReasoningItem (item : Value) : Option Reasoning :=
  if item.str "type" = some "reasoning" then
    let summaries :=
      (((item.get "summary").bind Value.asArray).getD []).filterMap (Value.str "text")
    some {
      id := item.str "id"
      content := summaries.map .summary ++ ((item.str "encrypted_content").map .encrypted).toList }
  else none

def parseOpenAiMessageId (item : Value) : Option MessageId :=
  if item.str "type" = some "message" then (item.str "id").map MessageId.mk else none

def parseOpenAiUsage (usage : Option Value) : Option TokenUsage := do
  let usage ← usage
  let inputTokens := (usage.u64 "input_tokens").getD 0
  let outputTokens := (usage.u64 "output_tokens").getD 0
  let cacheReadTokens :=
    ((usage.get "input_tokens_details").bind (Value.u64 "cached_tokens")).getD 0
  let reasoningTokens :=
    ((usage.get "output_tokens_details").bind (Value.u64 "reasoning_tokens")).getD 0
  reportedUsage
    { usageFromInputOutput inputTokens outputTokens cacheReadTokens with reasoningTokens }

/-! ### Events -/

inductive Event where
  | textDelta (delta : Option String)
  | itemDone (item : Option Value)
  | completed (response : Option Value)
  | failed (message : String)
  | other

/-- The message of an error object. -/
def errorMessage (holder : Option Value) (otherwise : String) : String :=
  ((holder.bind (Value.get "error")).bind (Value.str "message")).getD otherwise

/-- An event that both transports have. -/
def Event.ofOutput (chunk : Value) : Event :=
  match chunk.str "type" with
  | some "response.output_text.delta" => .textDelta (chunk.str "delta")
  | some "response.refusal.delta" => .textDelta (chunk.str "delta")
  | some "response.output_item.done" => .itemDone (chunk.get "item")
  | _ => .other

def Event.ofResponses (chunk : Value) : Event :=
  match chunk.str "type" with
  | some "response.completed" => .completed (chunk.get "response")
  | some "response.failed" => .failed (errorMessage (chunk.get "response") "OpenAI response failed")
  | _ => .ofOutput chunk

def Event.ofRealtime (chunk : Value) : Event :=
  match chunk.str "type" with
  | some "response.done" => .completed (chunk.get "response")
  | some "error" => .failed (errorMessage (some chunk) "OpenAI realtime socket error")
  | _ => .ofOutput chunk

/-! ### The state of an adapter -/

structure State where
  reasoning : List Reasoning := []
  messageId : Option MessageId := none
  responseId : Option ResponseId := none
  /-- The calls passed on so far; only the realtime transport looks at them. -/
  emittedToolCallIds : List ToolCallId := []
  usage : Option TokenUsage := none

def State.complete (state : State) : ModelEvent :=
  .responseComplete (some (state.messageId.getD wire.freshMessageId))
    (state.responseId.map .openAiResponses) state.usage state.reasoning

/-- An item is done. -/
def State.itemDone (state : State) (item : Value) : List ModelEvent × State :=
  match parseOpenAiToolCallItem wire item with
  | some call =>
    ([.toolCallRequested call],
      { state with emittedToolCallIds := state.emittedToolCallIds ++ [call.id] })
  | none =>
    ([], { state with
      reasoning := state.reasoning ++ (parseOpenAiReasoningItem item).toList
      messageId := (parseOpenAiMessageId item).or state.messageId })

/-- An item in the output of a finished realtime response. -/
def State.outputItem (state : State) (item : Value) : List ModelEvent × State :=
  match parseOpenAiToolCallItem wire item with
  | some call =>
    if call.id ∈ state.emittedToolCallIds then ([], state)
    else ([.toolCallRequested call],
      { state with emittedToolCallIds := state.emittedToolCallIds ++ [call.id] })
  | none =>
    ([], { state with
      messageId := state.messageId.or (parseOpenAiMessageId item)
      reasoning := state.reasoning ++ (parseOpenAiReasoningItem item).toList })

def State.outputItems (state : State) : List Value → List ModelEvent × State
  | [] => ([], state)
  | item :: items =>
    let (events, state) := state.outputItem wire item
    let (events', state) := state.outputItems items
    (events ++ events', state)

/-! ### The Responses transport -/

def responsesEvent (state : State) : Event → List ModelEvent × Verdict State RuntimeError
  | .textDelta delta => (delta.toList.map .textDelta, .next state)
  | .itemDone none => ([], .next state)
  | .itemDone (some item) =>
    let (events, state) := state.itemDone wire item
    (events, .next state)
  | .completed response =>
    ([], .next { state with
      usage := parseOpenAiUsage (response.bind (Value.get "usage"))
      responseId := (response.bind (Value.str "id")).map ResponseId.mk })
  | .failed message => ([], .fail (.modelBackendMessage message))
  | .other => ([], .next state)

def responsesPayloads : Reducer State Value RuntimeError ModelEvent where
  step state chunk := responsesEvent wire state (.ofResponses chunk)
  finish := State.complete wire

/-- The loop of `stream_openai_responses_turn`. -/
def responsesReducer : Reducer State String RuntimeError ModelEvent :=
  (responsesPayloads wire).comap (decodeData wire "failed to parse OpenAI Responses event payload")

/-! ### The realtime transport -/

inductive WsMessage where
  | text (text : String)
  | close
  | other

def realtimeEvent (state : State) : Event → List ModelEvent × Verdict State RuntimeError
  | .textDelta delta => (delta.toList.map .textDelta, .next state)
  | .itemDone none => ([], .next state)
  | .itemDone (some item) =>
    let (events, state) := state.itemDone wire item
    (events, .next state)
  | .completed none => ([], .stop state)
  | .completed (some response) =>
    if response.str "status" = some "failed" then
      ([], .fail (.modelBackendMessage
        (errorMessage (some response) "OpenAI realtime response failed")))
    else
      let (events, state) :=
        { state with
          responseId := (response.str "id").map ResponseId.mk
          usage := parseOpenAiUsage (response.get "usage") }.outputItems wire
        (((response.get "output").bind Value.asArray).getD [])
      (events, .stop state)
  | .failed message => ([], .fail (.modelBackendMessage message))
  | .other => ([], .next state)

def decodeFrame : WsMessage → Reducer.Decoded Value RuntimeError
  | .close => .stop
  | .other => .skip
  | .text text => (wire.parseJson text).elim (.bad (ProviderError.protocol
      "failed to parse OpenAI realtime event payload").toRuntimeError) .payload

def realtimePayloads : Reducer State Value RuntimeError ModelEvent where
  step state chunk := realtimeEvent wire state (.ofRealtime chunk)
  finish := State.complete wire

/-- The loop of `stream_openai_realtime_turn`. -/
def realtimeReducer : Reducer State WsMessage RuntimeError ModelEvent :=
  (realtimePayloads wire).comap (decodeFrame wire)

/-! ### Requests -/

def isRetryableOpenAiResponsesStatus (status : ℕ) : Bool :=
  status ∈ [429, 500, 502, 503, 504]

/-- The error object of a body, if the body is JSON and has one. -/
def bodyError (body : String) : Option Value :=
  (wire.parseJson body).bind (Value.get "error")

/-- The provider says that it does not have the response the request continues. -/
def isPreviousResponseNotFound (body : String) : Bool :=
  (bodyError wire body).bind (Value.str "code") = some "previous_response_not_found"

def classifyOpenAiError (status : ℕ) (body : String) : RuntimeError :=
  if isPreviousResponseNotFound wire body then
    .providerContinuationLost (((bodyError wire body).bind (Value.str "message")).getD
      "OpenAI previous_response_id could not be resumed")
  else
    let message := (bodyError wire body).bind fun error =>
      match error.str "code", error.str "message" with
      | some code, some message => some (code ++ ": " ++ message)
      | none, some message => some message
      | _, none => none
    modelBackendRequest (message.getD
      ("OpenAI Responses request failed with status " ++ toString status ++ ": " ++ body))
      status (isRetryableOpenAiResponsesStatus status)

/-- The options of a request that can make its body fail. -/
structure Options where
  additionalParams : Option Value := none
  /-- `openai_responses.store`; the outer option tells whether Responses options are given. -/
  store : Option (Option Bool) := none

/-- `build_openai_responses_body`, as far as it can fail. -/
def buildOpenAiResponsesBody (options : Options) (request : ModelRequest) :
    Except ProviderError Unit :=
  if options.additionalParams.any fun params => params.asObject.isNone then
    .error (.config "OpenAI additional_params must be a JSON object when provided")
  else if options.store = some (some false) ∧ request.continuation.isSome then
    .error (.config ("OpenAI `previous_response_id` chaining requires stored responses; " ++
      "do not set store=false when chaining is enabled"))
  else .ok ()

/-- `stream_openai_responses_turn`: the request is sent when the stream is read. -/
def streamOpenAiResponsesTurn (options : Options) (outcome : HttpOutcome)
    (request : ModelRequest) : Except RuntimeError (List (Except RuntimeError ModelEvent)) :=
  match buildOpenAiResponsesBody options request with
  | .error error => .error error.toRuntimeError
  | .ok _ =>
    .ok (streamOutcome outcome "failed to send OpenAI Responses request"
      "failed to decode OpenAI Responses event stream"
      "failed to read OpenAI Responses error body" (classifyOpenAiError wire)
      ((responsesReducer wire).stream {}))

end OpenAi

end Nanoclaw.Provider
