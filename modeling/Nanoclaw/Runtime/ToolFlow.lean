import Nanoclaw.Runtime.HookEffects

/-!
# Handling One Tool Call

`handleToolCall` decides about a tool call, in the order of the source: `PreToolUse` hooks, which
may rewrite the arguments; `PermissionRequest` hooks if one of them asked; the approval policy;
the handler if there is a reason left to ask it; the loop detector. A refusal is recorded as a
failed result. Each point of the decision is a function that returns the text of its refusal, and
`authorizeToolCall` is their sequence.
-/

namespace Nanoclaw

inductive ToolExecutionDisposition where
  | completed
  | failed
  deriving DecidableEq

def approvalReasonsForTool (spec : ToolSpec) : List String :=
  (if spec.approval.mutatesState then ["tool mutates workspace or persistent state"] else []) ++
  (if spec.approval.needsNetwork then ["tool performs network access"] else []) ++
  (if spec.approval.openWorld then
    ["tool reaches outside the workspace or touches external systems"] else []) ++
  (if spec.approval.needsHostEscape then
    ["tool requires host escape or unsandboxed execution"] else []) ++
  spec.approval.approvalMessage.toList

def severityLabel : LoopSignalSeverity → String
  | .warning => "warning"
  | .critical => "critical"

/-- The fields hooks are matched on, sorted by name. -/
def toolHookFields (call : ToolCall) : List (String × String) :=
  match call.origin with
  | .mcp serverName => [("mcp_server_name", serverName), ("tool_name", call.toolName.value)]
  | _ => [("tool_name", call.toolName.value)]

section

variable (env : Env) (turnId : TurnId) (call : ToolCall)

/-- Log a tool lifecycle event and show it. -/
def reportToolLifecycle (event : SessionEventKind) : RuntimeM Unit := do
  let progress ← appendToolLifecycleEvent env turnId call event
  onEvent env progress

def recordToolFailureResult (error : String) : RuntimeM Unit := do
  let messageId ← freshMessageId env
  let result := ToolResultOf.error call.id call.callId call.toolName error
  appendTranscriptMessage env turnId (Message.toolResult result messageId)
  reportToolLifecycle env turnId call (.toolCallFailed call error)
  let failureHooks ← runHooks env .postToolUseFailure (some turnId)
    [("tool_name", call.toolName.value)] (.toolError error)
  let _ ← applyHookEffectsWithObserver env turnId failureHooks none (some call.toolName)

/-! ### Deciding about a call -/

/-- The `PermissionRequest` hooks: a refusal, or reasons for an approval. -/
def reviewByHooks (preEffects : AppliedHookEffects) : RuntimeM (Except String (List String)) := do
  match preEffects.permissionDecision.getD .allow with
  | .deny => return .error (RuntimeError.toolDenied call.toolName.value).text
  | .allow => return .ok []
  | .ask =>
    let permissionHooks ← runHooks env .permissionRequest (some turnId) (toolHookFields call)
      (.toolCall call)
    let permissionEffects ←
      applyHookEffectsWithObserver env turnId permissionHooks none (some call.toolName)
    if permissionEffects.permissionBehavior = some .deny ∨
        (permissionEffects.blockedReason "permission request denied").isSome then
      let error := (RuntimeError.permissionDenied call.toolName.value).text
      return .error ((permissionEffects.gateReason.or permissionEffects.stopReason).getD error)
    else return .ok [permissionEffects.gateReason.getD "hook requested approval"]

/-- A refusal, or the reasons for the handler. An allow keeps those of the hooks. -/
def reviewByPolicy (spec : ToolSpec) (call : ToolCall) (hookReasons : List String) :
    RuntimeM (Except String (List String)) := do
  let approvalReasons := approvalReasonsForTool spec
  let request : ToolApprovalRequest := { call, spec, reasons := approvalReasons ++ hookReasons }
  let decision := env.approvalPolicy (← tick) request
  note (.policy request decision)
  match decision with
  | .allow => return .ok hookReasons
  | .ask reason =>
    return .ok (approvalReasons ++ hookReasons ++ [reason.getD "approval policy requested review"])
  | .deny reason =>
    return .error (reason.getD (RuntimeError.permissionDenied call.toolName.value).text)
  | .abstain => return .ok (approvalReasons ++ hookReasons)

/-- Ask the handler if there is a reason to; the result is its refusal. -/
def reviewByHandler (spec : ToolSpec) (call : ToolCall) (reasons : List String) :
    RuntimeM (Option String) := do
  if reasons.isEmpty then return none
  appendEvent env (some turnId) (some call.id) (.toolApprovalRequested call reasons)
  onEvent env (.toolApprovalRequested call reasons)
  let request : ToolApprovalRequest := { call, spec, reasons }
  let outcome ← answer (env.approvalHandler (← tick) request)
  note (.handler request outcome)
  match outcome with
  | .approve =>
    appendEvent env (some turnId) (some call.id) (.toolApprovalResolved call true none)
    onEvent env (.toolApprovalResolved call true none)
    return none
  | .deny reason =>
    appendEvent env (some turnId) (some call.id) (.toolApprovalResolved call false reason)
    onEvent env (.toolApprovalResolved call false reason)
    return some (reason.getD (RuntimeError.permissionDenied call.toolName.value).text)

/-- Announce the call; only a critical signal of the detector refuses it. -/
def inspectForLoops : RuntimeM (Option String) := do
  reportToolLifecycle env turnId call (.toolCallStarted call)
  let (signal?, detector) := (← get).toolLoopDetector.inspect call
  modify fun rt => { rt with toolLoopDetector := detector }
  match signal? with
  | none => return none
  | some signal =>
    note (.loopSignal call signal)
    let message := "loop_detector [" ++ severityLabel signal.severity ++ "] " ++ signal.reason
    appendEvent env (some turnId) (some call.id) (.notification "loop_detector" message)
    onEvent env (.notification "loop_detector" message)
    match signal.severity with
    | .warning => return none
    | .critical => return some ("loop detector blocked tool call: " ++ signal.reason)

/-- The call with the arguments it would run with, and the refusal if there is one. -/
def authorizeToolCall (spec : ToolSpec) (call : ToolCall) :
    RuntimeM (ToolCall × Option String) := do
  let preHooks ← runHooks env .preToolUse (some turnId) (toolHookFields call) (.toolCall call)
  let preEffects ← applyHookEffectsWithObserver env turnId preHooks none (some call.toolName)
  let call := { call with
    arguments := preEffects.rewrittenToolArguments.getD call.arguments }
  match preEffects.blockedReason "tool use blocked" with
  | some reason => return (call, some reason)
  | none =>
    match ← reviewByHooks env turnId call preEffects with
    | .error reason => return (call, some reason)
    | .ok hookReasons =>
      match ← reviewByPolicy env spec call hookReasons with
      | .error reason => return (call, some reason)
      | .ok reasons =>
        match ← reviewByHandler env turnId spec call reasons with
        | some reason => return (call, some reason)
        | none => return (call, ← inspectForLoops env turnId call)

/-! ### Running a call -/

/-- Record the result of a call and tell the hooks. -/
def recordToolResult (result : ToolResult) : RuntimeM Unit := do
  modify fun rt => { rt with toolLoopDetector := rt.toolLoopDetector.recordResult call result }
  let result := { result with callId := call.callId }
  let messageId ← freshMessageId env
  appendTranscriptMessage env turnId (Message.toolResult result messageId)
  reportToolLifecycle env turnId call (.toolCallCompleted call result)
  let postHooks ← runHooks env .postToolUse (some turnId) [("tool_name", call.toolName.value)]
    (.toolOutput result)
  let postEffects ← applyHookEffectsWithObserver env turnId postHooks none (some call.toolName)
  match postEffects.blockedReason "post tool hook blocked" with
  | some reason => throw (.hookBlocked reason)
  | none => return

def executeToolCall : RuntimeM ToolExecutionDisposition := do
  answer (env.effectiveSandboxPolicy (← tick))
  let outcome := env.execute (← tick) call.toolName call.id call.arguments
  note (.execute call.toolName call.id call.arguments)
  match outcome with
  | .ok result =>
    recordToolResult env turnId call result
    return .completed
  | .error error =>
    modify fun rt =>
      { rt with toolLoopDetector := rt.toolLoopDetector.recordError call error.text }
    recordToolFailureResult env turnId call error.text
    return .failed

def handleToolCall : RuntimeM ToolExecutionDisposition := do
  match env.tools.find? fun spec => decide (spec.name = call.toolName) with
  | none => throw (.tool ("tool not found: " ++ call.toolName.value))
  | some spec =>
    let (call, refusal) ← authorizeToolCall env turnId spec call
    match refusal with
    | some reason =>
      recordToolFailureResult env turnId call reason
      return .failed
    | none => executeToolCall env turnId call

end

end Nanoclaw
