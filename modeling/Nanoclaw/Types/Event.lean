import Nanoclaw.Types.Activity
import Nanoclaw.Types.Hook

/-!
# Session Events

The persisted event log: event kinds, envelopes, and the progress events shown to an observer.
The event kinds that carry an activity record are one constructor, `SessionEventKind.activity`.
-/

namespace Nanoclaw

/-- The upstream response a provider-managed history continues from. -/
inductive ProviderContinuation where
  | openAiResponses (responseId : ResponseId)
  deriving DecidableEq

structure ContextWindowUsage where
  usedTokens : ℕ
  maxTokens : ℕ
  deriving DecidableEq

structure TokenUsage where
  inputTokens : ℕ := 0
  outputTokens : ℕ := 0
  prefillTokens : ℕ := 0
  decodeTokens : ℕ := 0
  cacheReadTokens : ℕ := 0
  reasoningTokens : ℕ := 0
  deriving DecidableEq

structure TokenLedgerSnapshot where
  contextWindow : Option ContextWindowUsage := none
  lastUsage : Option TokenUsage := none
  cumulativeUsage : TokenUsage := {}
  deriving DecidableEq

inductive TokenUsagePhase where
  | requestStarted
  | responseCompleted
  deriving DecidableEq

/-- Counters are 64 bit and stop at the largest value. -/
def saturatingAdd (a b : ℕ) : ℕ :=
  min (a + b) (2 ^ 64 - 1)

def TokenUsage.accumulate (total other : TokenUsage) : TokenUsage where
  inputTokens := saturatingAdd total.inputTokens other.inputTokens
  outputTokens := saturatingAdd total.outputTokens other.outputTokens
  prefillTokens := saturatingAdd total.prefillTokens other.prefillTokens
  decodeTokens := saturatingAdd total.decodeTokens other.decodeTokens
  cacheReadTokens := saturatingAdd total.cacheReadTokens other.cacheReadTokens
  reasoningTokens := saturatingAdd total.reasoningTokens other.reasoningTokens

/-! ### Model requests and responses -/

/-- The approval hints a tool declares. -/
structure ToolApprovalProfile where
  mutatesState : Bool := false
  openWorld : Bool := false
  needsNetwork : Bool := false
  needsHostEscape : Bool := false
  approvalMessage : Option String := none

/-- A tool as shown to the model; the input schema is kept in its serialised form. -/
structure ToolSpec where
  name : ToolName
  description : String
  inputSchema : Option String
  approval : ToolApprovalProfile

structure ModelRequest where
  sessionId : SessionId
  agentSessionId : AgentSessionId
  turnId : TurnId
  instructions : List String
  messages : List Message
  tools : List ToolSpec
  additionalContext : List String
  continuation : Option ProviderContinuation

/-- One event of a streamed model response. -/
inductive ModelEvent where
  | textDelta (delta : String)
  | toolCallRequested (call : ToolCall)
  | responseComplete (messageId : Option MessageId)
      (continuation : Option ProviderContinuation) (usage : Option TokenUsage)
      (reasoning : List Reasoning)
  | error (message : String)

/-! ### Submitted prompts -/

inductive SubmittedPromptAttachmentKind where
  | paste (text : String)
  | localImage (requestedPath : String) (mimeType : Option String)
  | remoteImage (requestedUrl : String) (mimeType : Option String)
  | localFile (requestedPath : String) (fileName mimeType : Option String)
  | remoteFile (requestedUrl : String) (fileName mimeType : Option String)
  | embeddedImage (mimeType : Option String)
  | embeddedFile (fileName mimeType uri : Option String)

structure SubmittedPromptAttachment where
  placeholder : Option String
  kind : SubmittedPromptAttachmentKind

namespace SubmittedPromptAttachment

def previewText (attachment : SubmittedPromptAttachment) : String :=
  match attachment.kind with
  | .paste _ => attachment.placeholder.getD "[Paste]"
  | .localImage requestedPath _ => "image " ++ requestedPath
  | .remoteImage requestedUrl _ => "image " ++ requestedUrl
  | .localFile requestedPath _ _ => "file " ++ requestedPath
  | .remoteFile requestedUrl _ _ => "file " ++ requestedUrl
  | .embeddedImage mimeType => "image " ++ mimeType.getD "embedded"
  | .embeddedFile fileName mimeType uri =>
    "file " ++ ((fileName.or uri).or mimeType).getD "embedded"

def searchStrings (attachment : SubmittedPromptAttachment) : List String :=
  attachment.previewText ::
    match attachment.kind with
    | .paste text => [text]
    | .localImage requestedPath _ => [requestedPath]
    | .localFile requestedPath _ _ => [requestedPath]
    | .remoteImage requestedUrl _ => [requestedUrl]
    | .remoteFile requestedUrl _ _ => [requestedUrl]
    | .embeddedImage _ => []
    | .embeddedFile fileName mimeType uri => fileName.toList ++ mimeType.toList ++ uri.toList

end SubmittedPromptAttachment

/-- What the user typed and attached. -/
structure SubmittedPromptSnapshot where
  text : String := ""
  attachments : List SubmittedPromptAttachment := []

namespace SubmittedPromptSnapshot

/-- The trimmed text; the attachments if there is none. -/
def previewText (prompt : SubmittedPromptSnapshot) : String :=
  let trimmed := Text.trim prompt.text
  if trimmed.isEmpty then
    " · ".intercalate (prompt.attachments.map SubmittedPromptAttachment.previewText)
  else trimmed

def searchStrings (prompt : SubmittedPromptSnapshot) : List String :=
  (if (Text.trim prompt.text).isEmpty then [] else [prompt.text]) ++
    prompt.attachments.flatMap SubmittedPromptAttachment.searchStrings

end SubmittedPromptSnapshot

/-! ### The persisted log -/

inductive SessionEventKind where
  | sessionStart (reason : Option String)
  | instructionsLoaded (count : ℕ)
  | steerApplied (message : String) (reason : Option String)
  | userPromptSubmit (prompt : SubmittedPromptSnapshot)
  | modelRequestStarted (request : ModelRequest)
  | compactionCompleted (reason : String)
      (sourceMessageCount retainedMessageCount summaryChars : ℕ)
      (summaryMessageId : Option MessageId) (retainedTailMessageIds : List MessageId)
  | modelResponseCompleted (assistantText : String) (toolCalls : List ToolCall)
      (continuation : Option ProviderContinuation)
  | tokenUsageUpdated (phase : TokenUsagePhase) (ledger : TokenLedgerSnapshot)
  | hookInvoked (hookName : String) (event : HookEvent)
  | hookCompleted (hookName : String) (event : HookEvent) (output : List HookEffect)
  | transcriptMessage (message : Message)
  | transcriptMessagePatched (messageId : MessageId) (message : Message)
  | transcriptMessageRemoved (messageId : MessageId)
  | toolApprovalRequested (call : ToolCall) (reasons : List String)
  | toolApprovalResolved (call : ToolCall) (approved : Bool) (reason : Option String)
  | toolCallStarted (call : ToolCall)
  | toolCallCompleted (call : ToolCall) (output : ToolResult)
  | toolCallFailed (call : ToolCall) (error : String)
  | notification (source message : String)
  | stop (reason : Option String)
  | stopFailure (reason : Option String)
  | sessionEnd (reason : Option String)
  | activity (record : Activity)

/-- A logged event with the identities it was logged under. -/
structure SessionEventEnvelope where
  sessionId : SessionId
  agentSessionId : AgentSessionId
  turnId : Option TurnId
  toolCallId : Option ToolCallId
  event : SessionEventKind

/-- **Events that the reconstruction of a session reads**; the others leave the window alone. -/
def SessionEventKind.isTranscriptEvent : SessionEventKind → Bool
  | .transcriptMessage _ => true
  | .transcriptMessagePatched _ _ => true
  | .transcriptMessageRemoved _ => true
  | .compactionCompleted .. => true
  | _ => false

/-! ### Progress events -/

/-- What the runtime shows to its observer. -/
inductive RuntimeProgressEvent where
  | steerApplied (message : String) (reason : Option String)
  | userPromptAdded (prompt : Message)
  | compactionCompleted (reason : String) (sourceMessageCount retainedMessageCount : ℕ)
      (summary : String) (compactedThroughMessageId summaryMessageId : MessageId)
  | modelRequestStarted (turnId : TurnId) (iteration : ℕ)
  | providerRetryScheduled (turnId : TurnId) (iteration statusCode retryCount : ℕ)
  | tokenUsageUpdated (phase : TokenUsagePhase) (ledger : TokenLedgerSnapshot)
  | notification (source message : String)
  | tuiToastShow (variant message : String)
  | tuiPromptAppend (text : String) (onlyWhenEmpty : Bool)
  | assistantTextDelta (delta : String)
  | toolCallRequested (call : ToolCall)
  | modelResponseCompleted (assistantText : String) (toolCalls : List ToolCall)
  | toolApprovalRequested (call : ToolCall) (reasons : List String)
  | toolApprovalResolved (call : ToolCall) (approved : Bool) (reason : Option String)
  | toolLifecycle (event : SessionEventKind)
  | turnCompleted (turnId : TurnId) (assistantText : String)

/-! ### Errors -/

/-- The errors the runtime returns, with the payload its callers look at. -/
inductive RuntimeError where
  | hookBlocked (reason : String)
  | toolDenied (name : String)
  | permissionDenied (name : String)
  | modelBackendMessage (message : String)
  | providerContinuationLost (message : String)
  | tool (message : String)
  | store (message : String)
  | invalidState (message : String)
  | hook (message : String)
  /-- A failed backend request; `retryStatus` is set when it may be retried. -/
  | modelBackend (message : String) (retryStatus : Option ℕ)
  /-- An error of a component the runtime only forwards. -/
  | external (message : String)
  deriving DecidableEq

/-- The text of an error. -/
def RuntimeError.text : RuntimeError → String
  | .hookBlocked reason => "hook blocked execution: " ++ reason
  | .toolDenied name => "tool denied: " ++ name
  | .permissionDenied name => "permission denied: " ++ name
  | .modelBackendMessage message => "model backend error: " ++ message
  | .providerContinuationLost message => "provider continuation lost: " ++ message
  | .tool message => "tool error: " ++ message
  | .store message => message
  | .invalidState message => "runtime state error: " ++ message
  | .hook message => "runtime hook error: " ++ message
  | .modelBackend message _ => "model backend error: " ++ message
  | .external message => message

end Nanoclaw
