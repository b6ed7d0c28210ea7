import Nanoclaw.Lib.KeyedList
import Nanoclaw.Provider.Payload

/-!
# The Anthropic Adapter

An Anthropic response comes as content blocks, each with a start, deltas and a stop. Text is
passed on delta by delta, a tool call or a piece of thinking when its block stops. The adapter
ends the stream with a completion at `message_stop`, and when there is nothing left to read. A
later request encodes the transcript again; a message without content is an error.
-/

namespace Nanoclaw.Provider.Anthropic

variable (wire : Wire)

/-! ### Content blocks -/

inductive AnthropicBlockState where
  | text
  | toolUse (id : ToolCallId) (name : ToolName) (inputJson : String)
  | thinking (id : Option String) (thought : String) (signature : Option String)
  deriving DecidableEq

inductive AnthropicBlockOutput where
  | toolCall (call : ToolCall)
  | reasoning (reasoning : Reasoning)

namespace AnthropicBlockState

def fromStart (block : Value) : Except ProviderError AnthropicBlockState :=
  match (block.str "type").getD "" with
  | "text" => .ok .text
  | "tool_use" =>
    match block.str "id", block.str "name" with
    | none, _ => .error (.protocol "Anthropic tool_use block missing id")
    | some _, none => .error (.protocol "Anthropic tool_use block missing name")
    | some id, some name =>
      .ok (.toolUse ⟨id⟩ ⟨name⟩ (if Value.isBlank (block.get "input") then ""
        else ((block.get "input").map Value.render).getD ""))
  | "thinking" => .ok (.thinking (block.str "id") "" none)
  | other => .error (.protocol ("unsupported Anthropic content block type `" ++ other ++ "`"))

/-- The state after a delta, and the text that is passed on. -/
def applyDelta (delta : Value) : AnthropicBlockState → AnthropicBlockState × Option String
  | .text => (.text, if delta.str "type" = some "text_delta" then delta.str "text" else none)
  | .toolUse id name inputJson =>
    (.toolUse id name (if delta.str "type" = some "input_json_delta" then
      inputJson ++ (delta.str "partial_json").getD "" else inputJson), none)
  | .thinking id thought signature =>
    if delta.str "type" = some "thinking_delta" then
      (.thinking id (thought ++ (delta.str "thinking").getD "") signature, none)
    else if delta.str "type" = some "signature_delta" then
      (.thinking id thought (delta.str "signature"), none)
    else (.thinking id thought signature, none)

def finish : AnthropicBlockState → Except ProviderError (Option AnthropicBlockOutput)
  | .text => .ok none
  | .toolUse id name inputJson =>
    let arguments := if (Text.trim inputJson).isEmpty then some (.object [])
      else wire.parseJson inputJson
    match arguments with
    | none => .error .json
    | some arguments =>
      .ok (some (.toolCall {
        id
        callId := ⟨id.value⟩
        toolName := name
        arguments
        origin := (wire.toolOrigins name).getD (.provider "anthropic") }))
  | .thinking id thought signature =>
    if thought.isEmpty && signature.isNone then .ok none
    else .ok (some (.reasoning { id, content := [.text thought signature] }))

end AnthropicBlockState

/-! ### Events -/

inductive Event where
  | messageStart (message : Option Value)
  | messageDelta (usage : Option Value)
  | blockStart (index : Option ℕ) (block : Option Value)
  | blockDelta (index : Option ℕ) (delta : Option Value)
  | blockStop (index : Option ℕ)
  | error (message : String)
  | messageStop
  | other

def Event.ofPayload (payload : Value) : Event :=
  match (payload.str "type").getD "" with
  | "message_start" => .messageStart (payload.get "message")
  | "message_delta" => .messageDelta (payload.get "usage")
  | "content_block_start" => .blockStart (payload.u64 "index") (payload.get "content_block")
  | "content_block_delta" => .blockDelta (payload.u64 "index") (payload.get "delta")
  | "content_block_stop" => .blockStop (payload.u64 "index")
  | "error" => .error (((payload.get "error").bind (Value.str "message")).getD
      "Anthropic stream error")
  | "message_stop" => .messageStop
  | _ => .other

/-- Input tokens are counted with those written to and read from the cache. -/
def applyAnthropicUsage (target : TokenUsage) (usage : Option Value) : TokenUsage :=
  match usage with
  | none => target
  | some usage =>
    let target := match usage.u64 "input_tokens" with
      | none => target
      | some inputTokens =>
        let cacheWriteTokens := (usage.u64 "cache_creation_input_tokens").getD 0
        let cacheReadTokens :=
          (usage.u64 "cache_read_input_tokens").getD target.cacheReadTokens
        { target with
          inputTokens :=
            saturatingAdd (saturatingAdd inputTokens cacheWriteTokens) cacheReadTokens
          cacheReadTokens
          prefillTokens := saturatingAdd inputTokens cacheWriteTokens }
    match usage.u64 "output_tokens" with
    | none => target
    | some outputTokens => { target with outputTokens, decodeTokens := outputTokens }

/-! ### The adapter -/

/-- The blocks that are open, by their index. -/
abbrev Blocks : Type := AList fun _ : ℕ => AnthropicBlockState

structure State where
  messageId : Option String := none
  reasoning : List Reasoning := []
  blocks : Blocks := ∅
  usage : TokenUsage := {}

def State.complete (state : State) : ModelEvent :=
  .responseComplete (some ((state.messageId.map MessageId.mk).getD wire.freshMessageId)) none
    (reportedUsage state.usage) state.reasoning

def failWith (error : ProviderError) : List ModelEvent × Verdict State RuntimeError :=
  ([], .fail error.toRuntimeError)

/-- What is passed on of a block that stops. -/
def State.closed (state : State) :
    Option AnthropicBlockOutput → List ModelEvent × Verdict State RuntimeError
  | some (.toolCall call) => ([.toolCallRequested call], .next state)
  | some (.reasoning item) => ([], .next { state with reasoning := state.reasoning ++ [item] })
  | none => ([], .next state)

def State.handle (state : State) : Event → List ModelEvent × Verdict State RuntimeError
  | .messageStart message =>
    ([], .next { state with
      messageId := message.bind (Value.str "id")
      usage := applyAnthropicUsage state.usage (message.bind (Value.get "usage")) })
  | .messageDelta usage => ([], .next { state with usage := applyAnthropicUsage state.usage usage })
  | .blockStart none _ => failWith (.protocol "Anthropic stream missing block index")
  | .blockStart (some _) none => failWith (.protocol "Anthropic stream missing content_block")
  | .blockStart (some index) (some block) =>
    match AnthropicBlockState.fromStart block with
    | .error error => failWith error
    | .ok opened => ([], .next { state with blocks := state.blocks.insert index opened })
  | .blockDelta none _ => failWith (.protocol "Anthropic stream missing block index")
  | .blockDelta (some _) none => failWith (.protocol "Anthropic stream missing delta")
  | .blockDelta (some index) (some delta) =>
    match state.blocks.lookup index with
    | none => ([], .next state)
    | some block =>
      let (block, text) := block.applyDelta delta
      (text.toList.map .textDelta, .next { state with blocks := state.blocks.insert index block })
  | .blockStop none => failWith (.protocol "Anthropic stream missing block index")
  | .blockStop (some index) =>
    match state.blocks.lookup index with
    | none => ([], .next state)
    | some block =>
      match block.finish wire with
      | .error error => failWith error
      | .ok output => { state with blocks := state.blocks.erase index }.closed output
  | .error message => ([], .fail (.modelBackendMessage message))
  | .messageStop => ([], .stop state)
  | .other => ([], .next state)

def messagePayloads : Reducer State Value RuntimeError ModelEvent where
  step state payload := state.handle wire (.ofPayload payload)
  finish := State.complete wire

/-- The loop of `stream_anthropic_turn`. -/
def reducer : Reducer State String RuntimeError ModelEvent :=
  (messagePayloads wire).comap (decodeData wire "failed to parse Anthropic event payload")

/-! ### Encoding messages -/

def textBlock (text : String) : Value :=
  .object [("type", .string "text"), ("text", .string text)]

def isPdfAttachment (fileName mimeType uri : Option String) : Bool :=
  mimeType = some "application/pdf" ||
    fileName.any (fun name => Text.endsWith (Text.toAsciiLowercase name) ".pdf") ||
    uri.any fun uri => Text.endsWith (Text.toAsciiLowercase uri) ".pdf"

def isRemoteFileUrl (uri : String) : Bool :=
  Text.startsWith uri "http://" || Text.startsWith uri "https://"

def optionalString : Option String → Value
  | some text => .string text
  | none => .null

def documentBlock (source : List (String × Value)) (title : Option String) : Value :=
  .object [("type", .string "document"), ("source", .object source),
    ("title", optionalString title)]

def anthropicFileBlock (fileName mimeType dataBase64 uri : Option String) : Option Value :=
  if !isPdfAttachment fileName mimeType uri then none
  else
    match uri.filter isRemoteFileUrl with
    | some uri => some (documentBlock [("type", .string "url"), ("url", .string uri)] fileName)
    | none =>
      dataBase64.map fun data =>
        documentBlock [("type", .string "base64"), ("media_type", .string "application/pdf"),
          ("data", .string data)] fileName

variable (roundtripText : ToolResult → String)

/-- `message_part_text`, with `stringify_json` as the compact text of a value. -/
def messagePartText : MessagePart → Option String
  | .text text => some text
  | .inlineText text => some text
  | .paste _ text => some text
  | .reasoning reasoning =>
    if reasoning.displayText.isEmpty then none else some reasoning.displayText
  | .resource _ _ (some text) _ => some text
  | .resource uri _ none _ => some uri
  | .json value => some value.render
  | .providerExtension _ _ payload => some payload.render
  | .reference kind name uri text => referenceDisplayText kind name uri text
  | .file _ _ _ (some uri) => some uri
  | .file (some fileName) mimeType (some _) none =>
    some ("[file:" ++ fileName ++ spaced mimeType ++ "]")
  | .file none mimeType (some _) none => some ("[inline_file" ++ spaced mimeType ++ "]")
  | .file _ _ none none => none
  | .imageUrl url _ => some url
  | .toolResult result => some (roundtripText result)
  | .toolCall call => some call.arguments.render
  | .image _ _ => none

def toolResultBlock (result : ToolResult) : Value :=
  .object [("type", .string "tool_result"), ("tool_use_id", .string result.callId.value),
    ("is_error", .bool result.isError), ("content", .array [textBlock (roundtripText result)])]

/-- The content that a part of a message becomes, if any. -/
def anthropicPart : MessagePart → Option Value
  | .text text => some (textBlock text)
  | .inlineText text => some (textBlock text)
  | .paste _ text => some (textBlock text)
  | .image mimeType dataBase64 =>
    some (.object [("type", .string "image"), ("source", .object [("type", .string "base64"),
      ("media_type", .string mimeType), ("data", .string dataBase64)])])
  | .imageUrl url _ =>
    some (.object [("type", .string "image"),
      ("source", .object [("type", .string "url"), ("url", .string url)])])
  | .file fileName mimeType dataBase64 uri =>
    (anthropicFileBlock fileName mimeType dataBase64 uri).or
      ((messagePartText roundtripText (.file fileName mimeType dataBase64 uri)).map textBlock)
  | .toolCall call =>
    some (.object [("type", .string "tool_use"), ("id", .string call.callId.value),
      ("name", .string call.toolName.value), ("input", call.arguments)])
  | .reasoning reasoning =>
    if reasoning.displayText.isEmpty then none else some (textBlock reasoning.displayText)
  | .toolResult result => some (toolResultBlock roundtripText result)
  | other => (messagePartText roundtripText other).map textBlock

def anthropicMessage (role : String) (parts : List MessagePart) : Except ProviderError Value :=
  let content := parts.filterMap (anthropicPart roundtripText)
  if content.isEmpty then
    .error (.protocol ("Anthropic " ++ role ++ " message did not contain any supported content"))
  else .ok (.object [("role", .string role), ("content", .array content)])

/-- The results stand before all other content. -/
def anthropicToolMessage (parts : List MessagePart) : Except ProviderError Value :=
  let toolResults := parts.filterMap fun
    | .toolResult result => some (toolResultBlock roundtripText result)
    | _ => none
  let trailingContent := parts.filterMap fun
    | .toolResult _ => none
    | other => (messagePartText roundtripText other).map textBlock
  let content := toolResults ++ trailingContent
  if content.isEmpty then
    .error (.protocol "Anthropic tool message did not contain any supported content")
  else .ok (.object [("role", .string "user"), ("content", .array content)])

def renderInstructionText (values : List String) : Option String :=
  let rendered := "\n\n".intercalate ((values.map Text.trim).filter fun value => !value.isEmpty)
  if rendered.isEmpty then none else some rendered

/-- What a message adds to the system blocks and to the messages of the request. -/
def encodeMessage (message : Message) : Except ProviderError (List Value × List Value) :=
  match message.role with
  | .system => .ok ((renderInstructionText [message.textContent]).toList.map textBlock, [])
  | .user => (anthropicMessage roundtripText "user" message.parts).map fun block => ([], [block])
  | .assistant =>
    (anthropicMessage roundtripText "assistant" message.parts).map fun block => ([], [block])
  | .tool => (anthropicToolMessage roundtripText message.parts).map fun block => ([], [block])

/-- The options of a request; numbers are given by their literals. -/
structure Options where
  maxTokens : Option String := none
  temperature : Option String := none
  additionalParams : Option Value := none

/-- The block of a tool; one without a schema breaks an assertion. -/
def toolBlock (coerceObjectSchema : String → Value) (tool : ToolSpec) :
    Except ProviderError Value :=
  match tool.inputSchema with
  | none => .error (.panicked "function tools must define an input schema")
  | some schema =>
    .ok (.object [("name", .string tool.name.value), ("description", .string tool.description),
      ("input_schema", coerceObjectSchema schema)])

/-- Insert the fields of the additional parameters, replacing those that are there. -/
def mergeTopLevelObject (target : List (String × Value)) (additionalParams : Option Value) :
    Except ProviderError (List (String × Value)) :=
  match additionalParams with
  | none => .ok target
  | some params =>
    match params.asObject with
    | none => .error (.config "Anthropic additional_params must be a JSON object when provided")
    | some fields => .ok ((target.filter fun field => field.1 ∉ fields.map Prod.fst) ++ fields)

def buildAnthropicMessagesBody (coerceObjectSchema : String → Value) (model : String)
    (request : ModelRequest) (options : Options) : Except ProviderError Value := do
  let framed := (request.instructions ++ request.additionalContext).filterMap fun text =>
    (renderInstructionText [text]).map textBlock
  let encoded ← request.messages.mapM (encodeMessage roundtripText)
  let systemBlocks := framed ++ encoded.flatMap Prod.fst
  let messages := encoded.flatMap Prod.snd
  if messages.isEmpty then
    .error (.protocol "Anthropic request did not contain any user or assistant messages")
  else
    let tools ← request.tools.mapM (toolBlock coerceObjectSchema)
    let fields ← mergeTopLevelObject
      ([("model", .string model), ("stream", .bool true),
        ("max_tokens", .number (options.maxTokens.getD "4096"))] ++
        (options.temperature.map fun literal => ("temperature", Value.number literal)).toList ++
        [("messages", .array messages)] ++
        (if systemBlocks.isEmpty then [] else [("system", .array systemBlocks)]) ++
        (if tools.isEmpty then [] else [("tools", .array tools)])) options.additionalParams
    return .object fields

/-! ### Requests -/

def isRetryableAnthropicStatus (status : ℕ) : Bool :=
  status ∈ [429, 500, 502, 503, 504, 529]

def classifyAnthropicError (status : ℕ) (body : String) : RuntimeError :=
  let message := ((wire.parseJson body).bind (Value.get "error")).bind (Value.str "message")
  modelBackendRequest (message.getD
    ("Anthropic request failed with status " ++ toString status ++ ": " ++ body))
    status (isRetryableAnthropicStatus status)

/-- The parameters of `stream_anthropic_turn` that stay the same over a session. -/
structure Setup where
  roundtripText : ToolResult → String
  coerceObjectSchema : String → Value
  model : String
  options : Options

/-- `stream_anthropic_turn`: the body is built at once, and sent when the stream is read. -/
def streamAnthropicTurn (setup : Setup) (outcome : HttpOutcome) (request : ModelRequest) :
    Except RuntimeError (List (Except RuntimeError ModelEvent)) :=
  match buildAnthropicMessagesBody setup.roundtripText setup.coerceObjectSchema setup.model request
      setup.options with
  | .error error => .error error.toRuntimeError
  | .ok _ =>
    .ok (streamOutcome outcome "failed to send Anthropic streaming request"
      "failed to decode Anthropic event stream" "failed to read Anthropic error response body"
      (classifyAnthropicError wire) ((reducer wire).stream {}))

end Nanoclaw.Provider.Anthropic
