import Nanoclaw.Lib.Text

/-!
# Messages

The transcript data of the `types` crate, with the text rendering that the token estimates and
the history window are computed from. Identifiers are opaque strings, one type for each kind. A
tool result holds message parts and a message part may hold a tool result; the knot is tied by
making the result record generic in the type of its parts (`ToolResultOf`).
-/

namespace Nanoclaw

/-! ### Identifiers -/

structure MessageId where
  value : String
  deriving DecidableEq

structure ToolCallId where
  value : String
  deriving DecidableEq

structure CallId where
  value : String

structure ToolName where
  value : String
  deriving DecidableEq

structure SessionId where
  value : String
  deriving DecidableEq

structure AgentSessionId where
  value : String
  deriving DecidableEq

structure TurnId where
  value : String
  deriving DecidableEq

structure ResponseId where
  value : String
  deriving DecidableEq

/-! ### Values, tool calls and tool results -/

/-- A JSON value; numbers are kept as their literal. -/
inductive Value where
  | null
  | bool (value : Bool)
  | number (literal : String)
  | string (value : String)
  | array (items : List Value)
  | object (fields : List (String × Value))

/-- The two-digit hexadecimal form of a control character. -/
def hexByte (n : ℕ) : String :=
  String.ofList [Nat.digitChar (n / 16), Nat.digitChar (n % 16)]

/-- The escape of a character inside a JSON string. -/
def escapeJsonChar (c : Char) : String :=
  if c = '"' then "\\\""
  else if c = '\\' then "\\\\"
  else if c.toNat = 8 then "\\b"
  else if c.toNat = 9 then "\\t"
  else if c.toNat = 10 then "\\n"
  else if c.toNat = 12 then "\\f"
  else if c.toNat = 13 then "\\r"
  else if c.toNat < 32 then "\\u00" ++ hexByte c.toNat
  else String.singleton c

def quoteJson (s : String) : String :=
  "\"" ++ String.join (s.toList.map escapeJsonChar) ++ "\""

namespace Value

mutual

/-- The compact JSON text of a value. -/
def render : Value → String
  | .null => "null"
  | .bool value => if value then "true" else "false"
  | .number literal => literal
  | .string value => quoteJson value
  | .array items => "[" ++ ",".intercalate (renderItems items) ++ "]"
  | .object fields => "\x7b" ++ ",".intercalate (renderFields fields) ++ "\x7d"

def renderItems : List Value → List String
  | [] => []
  | item :: items => item.render :: renderItems items

def renderFields : List (String × Value) → List String
  | [] => []
  | (name, value) :: fields => (quoteJson name ++ ":" ++ value.render) :: renderFields fields

end

end Value

inductive ToolOrigin where
  | local
  | mcp (serverName : String)
  | provider (provider : String)
  deriving DecidableEq

/-- A tool invocation requested by the model. -/
structure ToolCall where
  id : ToolCallId
  callId : CallId
  toolName : ToolName
  arguments : Value
  origin : ToolOrigin

/-- The outcome of a tool invocation, generic in the type of its message parts. -/
structure ToolResultOf (Part : Type) where
  id : ToolCallId
  callId : CallId
  toolName : ToolName
  parts : List Part
  structuredContent : Option Value
  metadata : Option Value
  isError : Bool

/-! ### Message parts -/

inductive MessageRole where
  | system
  | user
  | assistant
  | tool
  deriving DecidableEq

inductive ReasoningContent where
  | text (text : String) (signature : Option String)
  | encrypted (data : String)
  | redacted (data : String)
  | summary (text : String)
  deriving DecidableEq

structure Reasoning where
  id : Option String
  content : List ReasoningContent
  deriving DecidableEq

inductive MessagePart where
  | text (text : String)
  | inlineText (text : String)
  | paste (label text : String)
  | image (mimeType dataBase64 : String)
  | imageUrl (url : String) (mimeType : Option String)
  | file (fileName mimeType dataBase64 uri : Option String)
  | reference (kind : String) (name uri text : Option String)
  | toolCall (call : ToolCall)
  | toolResult (result : ToolResultOf MessagePart)
  | reasoning (reasoning : Reasoning)
  | resource (uri : String) (mimeType text : Option String) (metadata : Option Value)
  | json (value : Value)
  | providerExtension (provider kind : String) (payload : Value)

abbrev ToolResult : Type :=
  ToolResultOf MessagePart

/-- A transcript message. -/
structure Message where
  role : MessageRole
  parts : List MessagePart
  name : Option String
  messageId : MessageId
  metadata : List (String × Value)

/-! ### Constructors

Every constructor takes the fresh identifier the source draws. -/

namespace Message

def new (role : MessageRole) (parts : List MessagePart) (messageId : MessageId) : Message :=
  { role, parts, name := none, messageId, metadata := [] }

def text (role : MessageRole) (text : String) (messageId : MessageId) : Message :=
  new role [.text text] messageId

def system (text : String) (messageId : MessageId) : Message :=
  Message.text .system text messageId

def user (text : String) (messageId : MessageId) : Message :=
  Message.text .user text messageId

def assistant (text : String) (messageId : MessageId) : Message :=
  Message.text .assistant text messageId

def assistantParts (parts : List MessagePart) (messageId : MessageId) : Message :=
  new .assistant parts messageId

def withMessageId (message : Message) (messageId : MessageId) : Message :=
  { message with messageId }

/-- The transcript message that carries a tool result. -/
def toolResult (result : ToolResult) (messageId : MessageId) : Message :=
  { role := .tool
    parts := [.toolResult result]
    name := some result.toolName.value
    messageId
    metadata := [] }

@[simp] theorem messageId_withMessageId (m : Message) (id : MessageId) :
    (m.withMessageId id).messageId = id := rfl

end Message

namespace ToolResultOf

/-- The result recorded for a call that was refused or failed. -/
def error (id : ToolCallId) (callId : CallId) (toolName : ToolName) (text : String) : ToolResult :=
  { id, callId, toolName
    parts := [.text text]
    structuredContent := none
    metadata := none
    isError := true }

/-- The text parts of a result, one per line. -/
def textContent (result : ToolResult) : String :=
  "\n".intercalate <| result.parts.filterMap fun
    | .text text => some text
    | _ => none

end ToolResultOf

/-! ### Text rendering -/

namespace Reasoning

def displayText (reasoning : Reasoning) : String :=
  "\n".intercalate <| reasoning.content.filterMap fun
    | .text text _ => some text
    | .redacted data => some data
    | .summary text => some text
    | .encrypted _ => none

end Reasoning

/-- An optional field rendered after a space. -/
def spaced (field : Option String) : String :=
  (field.map (" " ++ ·)).getD ""

def fileDisplayText (fileName mimeType uri : Option String) : String :=
  "[file:" ++ fileName.getD "unnamed" ++ spaced mimeType ++ spaced uri ++ "]"

def imageUrlDisplayText (url : String) (mimeType : Option String) : String :=
  "[image_url:" ++ url ++ spaced mimeType ++ "]"

def referenceDisplayText (kind : String) (name uri text : Option String) : Option String :=
  match text, name, uri with
  | some text, some name, _ => some (name ++ "\n" ++ text)
  | some text, none, some uri => some (uri ++ "\n" ++ text)
  | some text, none, none => some text
  | none, some name, _ => some name
  | none, none, some uri => some uri
  | none, none, none =>
    let kind := Text.trim kind
    if kind.isEmpty then none else some ("[" ++ kind ++ "]")

/-- The text a part contributes to `Message.textContent`. -/
def messagePartDisplayText : MessagePart → Option String
  | .text text => some text
  | .inlineText text => some text
  | .paste _ text => some text
  | .reasoning reasoning =>
    let text := reasoning.displayText
    if text.isEmpty then none else some text
  | .image mimeType _ => some ("[image:" ++ mimeType ++ "]")
  | .imageUrl url mimeType => some (imageUrlDisplayText url mimeType)
  | .file fileName mimeType _ uri => some (fileDisplayText fileName mimeType uri)
  | .resource _ _ (some text) _ => some text
  | .resource uri _ none _ => some uri
  | .reference kind name uri text => referenceDisplayText kind name uri text
  | .toolResult result => some result.textContent
  | .json _ => none
  | .providerExtension _ _ _ => none
  | .toolCall _ => none

def messagePartIsInline : MessagePart → Bool
  | .inlineText _ => true
  | .paste _ _ => true
  | _ => false

/-- Join rendered parts: inline neighbours stay on one line. -/
def joinRenderedMessageText : List (String × Bool) → String
  | [] => ""
  | (text, inline) :: rest => go text inline rest
where
  /-- The loop, with the text so far and whether the part before was inline. -/
  go (rendered : String) (previousInline : Bool) : List (String × Bool) → String
    | [] => rendered
    | (text, inline) :: rest =>
      if previousInline && inline then go (rendered ++ text) inline rest
      else go (rendered ++ "\n" ++ text) inline rest

namespace Message

def textContent (message : Message) : String :=
  joinRenderedMessageText <| message.parts.filterMap fun part =>
    (messagePartDisplayText part).map fun text => (text, messagePartIsInline part)

end Message

/-! ### Operator text

The rendering shown to operators, which keeps a marker for every part. -/

variable (message : Message)

/-- An optional text rendered after a space, on one line. -/
def spacedLine (field : Option String) : String :=
  spaced (field.map fun text => Text.replaceChar text '\n' " ")

def resourceDisplayText (uri : String) (mimeType text : Option String) : String :=
  "[resource:" ++ uri ++ spaced mimeType ++ spacedLine text ++ "]"

def referenceOperatorText (kind : String) (name uri text : Option String) : String :=
  "[reference:" ++ kind ++ spaced name ++ spaced uri ++ spacedLine text ++ "]"

def messagePartOperatorText : MessagePart → String
  | .text text => text
  | .inlineText text => text
  | .paste _ text => text
  | .reasoning reasoning =>
    let text := reasoning.displayText
    if text.isEmpty then "[reasoning]" else "[reasoning] " ++ text
  | .image mimeType _ => "[image:" ++ mimeType ++ "]"
  | .imageUrl url mimeType => imageUrlDisplayText url mimeType
  | .file fileName mimeType _ uri => fileDisplayText fileName mimeType uri
  | .reference kind name uri text => referenceOperatorText kind name uri text
  | .toolCall call => "[tool_call:" ++ call.toolName.value ++ "]"
  | .toolResult result =>
    let text := result.textContent
    if text.isEmpty then "[tool_result:" ++ result.toolName.value ++ "]"
    else "[tool_result:" ++ result.toolName.value ++ "] " ++ text
  | .resource uri mimeType text _ => resourceDisplayText uri mimeType text
  | .json value => "[json] " ++ value.render
  | .providerExtension provider kind _ => "[provider_extension:" ++ provider ++ ":" ++ kind ++ "]"

def messageOperatorText : String :=
  joinRenderedMessageText <| message.parts.map fun part =>
    (messagePartOperatorText part, messagePartIsInline part)

/-! ### Tool protocol parts -/

def messageToolCallIds : List ToolCallId :=
  message.parts.filterMap fun
    | .toolCall call => some call.id
    | _ => none

def messageToolResultIds : List ToolCallId :=
  message.parts.filterMap fun
    | .toolResult result => some result.id
    | _ => none

/-- A part of the tool protocol: a call or a result. -/
def MessagePart.isToolProtocol : MessagePart → Bool
  | .toolCall _ => true
  | .toolResult _ => true
  | _ => false

def messageContainsToolProtocolItems : Bool :=
  message.parts.any MessagePart.isToolProtocol

end Nanoclaw
