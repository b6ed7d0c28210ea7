import Nanoclaw.Types.Message

/-!
# Hooks

Hook events, registrations, and the effects a hook may return, with the context the runtime hands
to a hook. Of the execution policy of a registration the effect permissions (`HookEffectPolicy`)
are kept, which decide whether an effect is accepted.
-/

namespace Nanoclaw

inductive HookEvent where
  | sessionStart
  | instructionsLoaded
  | userPromptSubmit
  | preToolUse
  | permissionRequest
  | postToolUse
  | postToolUseFailure
  | notification
  | subagentStart
  | subagentStop
  | stop
  | stopFailure
  | configChange
  | preCompact
  | postCompact
  | sessionEnd
  | elicitation
  | elicitationResult
  deriving DecidableEq

inductive HookHandlerKind where
  | command
  | http
  | prompt
  | agent
  | wasm
  deriving DecidableEq

inductive PermissionDecision where
  | allow
  | deny
  | ask

inductive PermissionBehavior where
  | allow
  | deny
  deriving DecidableEq

inductive GateDecision where
  | allow
  | block
  deriving DecidableEq

inductive ElicitationAction where
  | accept
  | decline
  | cancel

inductive HookMutationPermission where
  | deny
  | allow
  | reviewRequired

/-- What an executable hook may do; everything is off by default. -/
structure HookEffectPolicy where
  messageMutation : HookMutationPermission := .deny
  allowContextInjection : Bool := false
  allowInstructionInjection : Bool := false
  allowToolArgRewrite : Bool := false
  allowPermissionDecision : Bool := false
  allowGateDecision : Bool := false
  allowTuiEventEmission : Bool := false

/-- A registered hook. A registration without an execution policy is host-defined. -/
structure HookRegistration where
  name : String
  event : HookEvent
  handler : HookHandlerKind
  /-- The effect permissions of the execution policy, if there is one. -/
  execution : Option HookEffectPolicy

inductive MessageSelector where
  | current
  | messageId (messageId : MessageId)
  | lastOfRole (role : MessageRole)

structure MessagePatch where
  role : Option MessageRole := none
  replaceParts : Option (List MessagePart) := none
  appendParts : List MessagePart := []

inductive HookEffect where
  | appendMessage (role : MessageRole) (parts : List MessagePart)
  | replaceMessage (selector : MessageSelector) (message : Message)
  | patchMessage (selector : MessageSelector) (patch : MessagePatch)
  | removeMessage (selector : MessageSelector)
  | addContext (text : String)
  | setPermissionDecision (decision : PermissionDecision) (reason : Option String)
  | setPermissionBehavior (behavior : PermissionBehavior) (reason : Option String)
  | setGateDecision (decision : GateDecision) (reason : Option String)
  | elicitation (action : ElicitationAction) (content : Option String)
  | rewriteToolArgs (toolName : ToolName) (arguments : Value)
  | injectInstruction (text : String)
  | showToast (variant message : String)
  | appendPrompt (text : String) (onlyWhenEmpty : Bool)
  | stop (reason : String)

/-- One hook's answer to one event. -/
structure HookInvocation where
  registration : HookRegistration
  effects : List HookEffect

/-- The answers of all matching hooks, in registration order. -/
abbrev HookInvocationBatch : Type :=
  List HookInvocation

/-- What the runtime tells a hook about the event, beside the identifiers. -/
inductive HookPayload where
  | reason (reason : String)
  | instructionCount (count : ℕ)
  | prompt (message : Message)
  | toolCall (call : ToolCall)
  | toolOutput (result : ToolResult)
  | toolError (error : String)
  | assistantText (text : String)
  | preCompact (reason : String) (sourceMessageCount retainedMessageCount : ℕ)
  | postCompact (reason : String) (sourceMessageCount retainedMessageCount : ℕ) (summary : String)

structure HookContext where
  event : HookEvent
  sessionId : SessionId
  agentSessionId : AgentSessionId
  turnId : Option TurnId
  fields : List (String × String)
  payload : HookPayload

end Nanoclaw
