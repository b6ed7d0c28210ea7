import Nanoclaw.Runtime.State

/-!
# Hook Effects

A batch of hook answers is folded into one record (`AppliedHookEffects`). Every effect is checked
against the permissions of its hook; of two verdicts the stricter one wins; edits of earlier
messages are queued and carried out once the whole batch is folded. Each edit changes the
transcript in memory, logs the change, and only then resets the provider continuation.
-/

namespace Nanoclaw

/-- Which message is edited. -/
inductive TranscriptMutationTarget where
  | messageId (messageId : MessageId)
  | lastOfRole (role : MessageRole)

/-- An edit of the transcript. -/
inductive TranscriptMutation where
  | replace (target : TranscriptMutationTarget) (message : Message)
  | patch (target : TranscriptMutationTarget) (patch : MessagePatch)
  | remove (target : TranscriptMutationTarget)

/-- What a hook shows to the user. -/
inductive HookUiEvent where
  | toast (variant message : String)
  | promptAppend (text : String) (onlyWhenEmpty : Bool)

/-- What the effects of a batch come to. -/
structure AppliedHookEffects where
  currentMessage : Option Message := none
  appendedMessages : List Message := []
  transcriptMutations : List TranscriptMutation := []
  additionalContext : List String := []
  injectedInstructions : List String := []
  permissionDecision : Option PermissionDecision := none
  permissionBehavior : Option PermissionBehavior := none
  gateDecision : Option GateDecision := none
  gateReason : Option String := none
  stopReason : Option String := none
  rewrittenToolArguments : Option Value := none
  uiEvents : List HookUiEvent := []

variable (registration : HookRegistration)

/-- Why the hooks blocked, if they did: a closed gate or a stop request. -/
def AppliedHookEffects.blockedReason (applied : AppliedHookEffects) (defaultReason : String) :
    Option String :=
  match applied.gateDecision with
  | some .block => some ((applied.gateReason.or applied.stopReason).getD defaultReason)
  | _ => applied.stopReason

/-! ### Permissions of a hook -/

/-- The hook may edit messages. -/
def ensureMessageMutationAllowed : Except RuntimeError Unit :=
  match (registration.execution.map HookEffectPolicy.messageMutation).getD .deny with
  | .allow => .ok ()
  | .reviewRequired => .error (.hook
      ("hook `" ++ registration.name ++ "` requires host review for message mutation"))
  | .deny => .error (.hook
      ("hook `" ++ registration.name ++ "` is not granted message mutation permission"))

/-- A host-defined hook may do everything, others need the permission bit. -/
def requireEffectPermission (permission : HookEffectPolicy → Bool)
    (what : String) : Except RuntimeError Unit :=
  match registration.execution with
  | none => .ok ()
  | some policy =>
    if permission policy then .ok ()
    else .error (.hook ("hook `" ++ registration.name ++ "` is not allowed to " ++ what))

/-- The hook may have the effect. -/
def validateEffect (effect : HookEffect) : Except RuntimeError Unit :=
  match effect with
  | .appendMessage .. =>
    if registration.execution.isNone then .ok () else ensureMessageMutationAllowed registration
  | .replaceMessage .. | .patchMessage .. | .removeMessage .. =>
    if registration.execution.isNone then .ok ()
    else if registration.handler ≠ .wasm then .error (.hook
      ("hook `" ++ registration.name ++ "` uses message mutation reserved for wasm hooks"))
    else ensureMessageMutationAllowed registration
  | .addContext .. =>
    requireEffectPermission registration HookEffectPolicy.allowContextInjection
      "inject additional context"
  | .injectInstruction .. =>
    requireEffectPermission registration HookEffectPolicy.allowInstructionInjection
      "inject instructions"
  | .rewriteToolArgs .. =>
    requireEffectPermission registration HookEffectPolicy.allowToolArgRewrite "rewrite tool args"
  | .setPermissionDecision .. | .setPermissionBehavior .. =>
    requireEffectPermission registration HookEffectPolicy.allowPermissionDecision
      "influence permission decisions"
  | .setGateDecision .. | .stop .. =>
    requireEffectPermission registration HookEffectPolicy.allowGateDecision "gate execution"
  | .showToast .. | .appendPrompt .. =>
    requireEffectPermission registration HookEffectPolicy.allowTuiEventEmission "emit tui events"
  | .elicitation .. => .ok ()

/-! ### Merging verdicts -/

/-- A denial wins, then a question. -/
def mergePermissionDecision (current : Option PermissionDecision) (next : PermissionDecision) :
    PermissionDecision :=
  match current, next with
  | some .deny, _ | _, .deny => .deny
  | some .ask, _ | _, .ask => .ask
  | _, _ => .allow

/-- A denial wins. -/
def mergePermissionBehavior (current : Option PermissionBehavior) (next : PermissionBehavior) :
    PermissionBehavior :=
  match current, next with
  | some .deny, _ | _, .deny => .deny
  | _, _ => .allow

/-- A block wins. -/
def mergeGateDecision (current : Option GateDecision) (next : GateDecision) : GateDecision :=
  match current, next with
  | some .block, _ | _, .block => .block
  | _, _ => .allow

/-! ### Folding one effect -/

/-- New parts go behind those that stay or replace them. -/
def applyPatch (message : Message) (patch : MessagePatch) : Message :=
  { message with
    role := patch.role.getD message.role
    parts := patch.replaceParts.getD message.parts ++ patch.appendParts }

/-- A text to be shown is not blank. -/
def requireNonEmptyUiText (field text : String) : Except RuntimeError String :=
  if (Text.trim text).isEmpty then .error (.hook
    ("hook `" ++ registration.name ++ "` emitted an empty " ++ field))
  else .ok text

/-- One of the four variants, in any case. -/
def normalizeToastVariant (variant : String) : Except RuntimeError String :=
  let normalized := Text.toAsciiLowercase (Text.trim variant)
  if normalized ∈ ["info", "success", "warning", "error"] then .ok normalized
  else .error (.hook ("hook `" ++ registration.name ++ "` emitted unsupported toast variant `" ++
    variant ++ "`"))

namespace AppliedHookEffects

variable (applied : AppliedHookEffects)

/-- Queue a mutation, or apply it at once to the message being built. -/
def select (selector : MessageSelector) (onCurrent : Except RuntimeError AppliedHookEffects)
    (mutation : TranscriptMutationTarget → TranscriptMutation) :
    Except RuntimeError AppliedHookEffects :=
  let queue (target : TranscriptMutationTarget) :=
    { applied with transcriptMutations := applied.transcriptMutations ++ [mutation target] }
  match selector with
  | .current => onCurrent
  | .messageId messageId => .ok (queue (.messageId messageId))
  | .lastOfRole role => .ok (queue (.lastOfRole role))

/-- Replace the selected message. -/
def applyMessageReplacement (selector : MessageSelector)
    (message : Message) : Except RuntimeError AppliedHookEffects :=
  applied.select selector (.ok { applied with currentMessage := some message })
    fun target => .replace target message

/-- Patch it. -/
def applyMessagePatch (selector : MessageSelector)
    (patch : MessagePatch) : Except RuntimeError AppliedHookEffects :=
  applied.select selector
    (match applied.currentMessage with
      | none => .error (.hook "hook attempted to patch a missing current message")
      | some message => .ok { applied with currentMessage := some (applyPatch message patch) })
    fun target => .patch target patch

/-- Remove it. -/
def applyMessageRemoval (selector : MessageSelector) : Except RuntimeError AppliedHookEffects :=
  applied.select selector (.ok { applied with currentMessage := none }) fun target => .remove target

/-- The first reason given by any verdict is kept. -/
def withReason (reason : Option String) : AppliedHookEffects :=
  { applied with gateReason := applied.gateReason.or reason }

end AppliedHookEffects

/-- Fold one effect into the record; `freshId` is for a message it creates. -/
def applyHookEffect (applied : AppliedHookEffects) (registration : HookRegistration)
    (currentToolName : Option ToolName) (freshId : MessageId) (effect : HookEffect) :
    Except RuntimeError AppliedHookEffects := do
  validateEffect registration effect
  match effect with
  | .appendMessage role parts =>
    return { applied with
      appendedMessages := applied.appendedMessages ++ [Message.new role parts freshId] }
  | .replaceMessage selector message => applied.applyMessageReplacement selector message
  | .patchMessage selector patch => applied.applyMessagePatch selector patch
  | .removeMessage selector => applied.applyMessageRemoval selector
  | .addContext text =>
    return { applied with additionalContext := applied.additionalContext ++ [text] }
  | .setPermissionDecision decision reason =>
    return { applied with
      permissionDecision :=
        some (mergePermissionDecision applied.permissionDecision decision) }.withReason reason
  | .setPermissionBehavior behavior reason =>
    return { applied with
      permissionBehavior :=
        some (mergePermissionBehavior applied.permissionBehavior behavior) }.withReason reason
  | .setGateDecision decision reason =>
    return { applied with
      gateDecision := some (mergeGateDecision applied.gateDecision decision) }.withReason reason
  | .elicitation .. => return applied
  | .rewriteToolArgs toolName arguments =>
    match currentToolName with
    | none => .error (.hook ("hook `" ++ registration.name ++
        "` attempted to rewrite tool args outside tool execution"))
    | some current =>
      if toolName = current then
        return { applied with rewrittenToolArguments := some arguments }
      else return applied
  | .injectInstruction text =>
    return { applied with injectedInstructions := applied.injectedInstructions ++ [text] }
  | .showToast variant message =>
    let variant ← normalizeToastVariant registration variant
    let message ← requireNonEmptyUiText registration "toast message" message
    return { applied with uiEvents := applied.uiEvents ++ [.toast variant message] }
  | .appendPrompt text onlyWhenEmpty =>
    let text ← requireNonEmptyUiText registration "prompt append text" text
    return { applied with uiEvents := applied.uiEvents ++ [.promptAppend text onlyWhenEmpty] }
  | .stop reason => return { applied with stopReason := applied.stopReason.or (some reason) }

/-! ### Editing the transcript -/

/-- The role in an error. -/
def describeRole : MessageRole → String
  | .system => "system"
  | .user => "user"
  | .assistant => "assistant"
  | .tool => "tool"

/-- Only visible messages are edited. Roles are resolved at the edit. -/
def resolveMutableTranscriptTarget (session : RuntimeSession) :
    TranscriptMutationTarget → Except RuntimeError (ℕ × MessageId)
  | .messageId messageId =>
    match session.visibleTranscriptIndexForMessageId messageId with
    | some index => .ok (index, messageId)
    | none => .error (.hook <|
        if session.transcriptContainsMessageId messageId then
          "hook cannot mutate compacted or otherwise hidden transcript message `" ++
            messageId.value ++ "`"
        else "unknown transcript message id `" ++ messageId.value ++ "`")
  | .lastOfRole role =>
    match session.visibleTranscriptLastIndexForRole role with
    | some index =>
      match session.transcript[index]? with
      | some message => .ok (index, message.messageId)
      | none => .error (.invalidState
          ("visible transcript index " ++ toString index ++ " vanished during role lookup"))
    | none => .error (.hook <|
        if session.transcriptContainsRole role then
          "hook cannot mutate compacted or otherwise hidden last `" ++ describeRole role ++
            "` transcript message"
        else "hook cannot find any `" ++ describeRole role ++ "` transcript message")

section

variable (env : Env) (turnId : TurnId) (target : TranscriptMutationTarget)

/-- A replacement keeps the identity of the message it replaces. -/
def applyTranscriptMessageReplacement (message : Message) : RuntimeM Unit := do
  let (index, messageId) ← answer (resolveMutableTranscriptTarget (← get).session target)
  let message := message.withMessageId messageId
  modifySession fun session =>
    { session.setMessage index message with
      removedMessageIds := session.removedMessageIds.erase messageId }
  appendEvent env (some turnId) none (.transcriptMessagePatched messageId message)
  resetProviderContinuation

/-- A patched message is logged as a whole. -/
def applyTranscriptMessagePatch (patch : MessagePatch) : RuntimeM Unit := do
  let session := (← get).session
  let (index, messageId) ← answer (resolveMutableTranscriptTarget session target)
  match session.transcript[index]? with
  | none => throw (.invalidState
      ("transcript index " ++ toString index ++ " vanished during patch"))
  | some message =>
    let patched := applyPatch message patch
    modifySession (·.setMessage index patched)
    appendEvent env (some turnId) none (.transcriptMessagePatched messageId patched)
    resetProviderContinuation

/-- A removed message is hidden. -/
def applyTranscriptMessageRemoval : RuntimeM Unit := do
  let (_, messageId) ← answer (resolveMutableTranscriptTarget (← get).session target)
  modifySession (·.removeMessage messageId)
  appendEvent env (some turnId) none (.transcriptMessageRemoved messageId)
  resetProviderContinuation

/-- One queued edit. -/
def applyTranscriptMutation : TranscriptMutation → RuntimeM Unit
  | .replace target message => applyTranscriptMessageReplacement env turnId target message
  | .patch target patch => applyTranscriptMessagePatch env turnId target patch
  | .remove target => applyTranscriptMessageRemoval env turnId target

/-- All queued edits, up to an error. -/
def applyTranscriptMutations (mutations : List TranscriptMutation) : RuntimeM Unit :=
  mutations.forM (applyTranscriptMutation env turnId)

/-! ### Applying a batch -/

/-- Fold the effects of one answer, drawing an identifier for each. -/
def applyEffects (registration : HookRegistration) (currentToolName : Option ToolName)
    (applied : AppliedHookEffects) (effects : List HookEffect) : RuntimeM AppliedHookEffects :=
  effects.foldlM
    (fun applied effect => do
      let freshId ← freshMessageId env
      answer (applyHookEffect applied registration currentToolName freshId effect))
    applied

/-- The answer of one hook, logged before and after. -/
def applyInvocation (currentToolName : Option ToolName) (applied : AppliedHookEffects)
    (invocation : HookInvocation) : RuntimeM AppliedHookEffects := do
  let registration := invocation.registration
  appendEvent env (some turnId) none (.hookInvoked registration.name registration.event)
  let applied ← applyEffects env registration currentToolName applied invocation.effects
  appendEvent env (some turnId) none
    (.hookCompleted registration.name registration.event invocation.effects)
  return applied

/-- Context and instructions wait for the next request. -/
def extendPending (applied : AppliedHookEffects) : RuntimeM Unit :=
  modify fun rt =>
    { rt with
      pendingAdditionalContext := rt.pendingAdditionalContext ++ applied.additionalContext
      pendingInjectedInstructions :=
        rt.pendingInjectedInstructions ++ applied.injectedInstructions }

/-- Fold all answers, and only then edit and append. -/
def applyHookEffects (batch : HookInvocationBatch) (currentMessage : Option Message)
    (currentToolName : Option ToolName) : RuntimeM AppliedHookEffects := do
  let applied ← batch.foldlM (applyInvocation env turnId currentToolName) { currentMessage }
  applyTranscriptMutations env turnId applied.transcriptMutations
  extendPending applied
  appendHookMessages env turnId applied.appendedMessages
  return applied

/-- The event as observers get it. -/
def HookUiEvent.progressEvent : HookUiEvent → RuntimeProgressEvent
  | .toast variant message => .tuiToastShow variant message
  | .promptAppend text onlyWhenEmpty => .tuiPromptAppend text onlyWhenEmpty

/-- Show what the hooks want shown. -/
def emitHookUiEvents (applied : AppliedHookEffects) : RuntimeM Unit :=
  applied.uiEvents.forM fun event => onEvent env event.progressEvent

/-- **A batch of hook answers is carried out.** -/
def applyHookEffectsWithObserver (batch : HookInvocationBatch) (currentMessage : Option Message)
    (currentToolName : Option ToolName) : RuntimeM AppliedHookEffects := do
  let applied ← applyHookEffects env turnId batch currentMessage currentToolName
  emitHookUiEvents env applied
  return applied

end

end Nanoclaw
