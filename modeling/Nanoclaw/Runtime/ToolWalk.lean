import Nanoclaw.Runtime.ToolFlow

/-!
# Walks through the Tool Flow

Some properties hold of all methods of the tool flow because what they are made of has them. A
`Walk` is such a property of programs and of what they return. Appending a result to the
transcript and writing the loop detector are not part of it.
-/

namespace Nanoclaw

/-- The event belongs to the handling of a tool call. -/
def HookEvent.isToolEvent : HookEvent → Bool
  | .preToolUse | .permissionRequest | .postToolUse | .postToolUseFailure => true
  | _ => false

/-- **A property of programs that the tool flow is made of**; `Known` is about hook effects. -/
structure Walk (env : Env) (turnId : TurnId) (K : (α : Type) → RuntimeM α → (α → Prop) → Prop)
    (Known : HookEvent → AppliedHookEffects → Prop) : Prop where
  pure {α : Type} {a : α} {Q : α → Prop} : Q a → K α (pure a) Q
  bind {α β : Type} {m : RuntimeM β} {f : β → RuntimeM α} {R : β → Prop} {Q : α → Prop} :
    K β m R → (∀ b, R b → K α (f b) Q) → K α (m >>= f) Q
  get : K AgentRuntime get fun _ => True
  tick : K ℕ tick fun _ => True
  freshMessageId : K MessageId (freshMessageId env) fun _ => True
  note (interaction : Interaction) : K PUnit (note interaction) fun _ => True
  onEvent (event : RuntimeProgressEvent) : K Unit (onEvent env event) fun _ => True
  logs (toolCallId : Option ToolCallId) {event : SessionEventKind} :
    event.isPlain = true →
      K Unit (appendEvent env (some turnId) toolCallId event) fun _ => True
  handler (now : ℕ) (request : ToolApprovalRequest) :
    K _ (answer (env.approvalHandler now request)) fun _ => True
  sandbox (now : ℕ) : K Unit (answer (env.effectiveSandboxPolicy now)) fun _ => True
  hookRound {α : Type} {Q : α → Prop} {f : AppliedHookEffects → RuntimeM α} {event : HookEvent}
    {fields : List (String × String)} {payload : HookPayload} {toolName : ToolName} :
    event.isToolEvent = true → (∀ applied, Known event applied → K α (f applied) Q) →
      K α (do
        let batch ← runHooks env event (some turnId) fields payload
        let applied ← applyHookEffectsWithObserver env turnId batch none (some toolName)
        f applied) Q
  blocked {applied : AppliedHookEffects} {reason : String} : Known .postToolUse applied →
    applied.blockedReason "post tool hook blocked" = some reason →
      K Unit (throw (.hookBlocked reason)) fun _ => True

namespace Walk

variable {env : Env} {turnId : TurnId} {K : (α : Type) → RuntimeM α → (α → Prop) → Prop}
  {Known : HookEvent → AppliedHookEffects → Prop} (h : Walk env turnId K Known)
  {spec : ToolSpec} {call : ToolCall} {error : String} {result : ToolResult}

include h

theorem reportToolLifecycle {event : SessionEventKind} (hevent : event.isPlain = true) :
    K _ (reportToolLifecycle env turnId call event) fun _ => True :=
  h.bind (R := fun _ => True) (h.bind (h.logs _ hevent) fun _ _ => h.pure trivial)
    fun _ _ => h.onEvent _

/-! ### Deciding about a call -/

theorem reviewByHooks {preEffects : AppliedHookEffects} :
    K _ (reviewByHooks env turnId call preEffects) fun _ => True := by
  unfold Nanoclaw.reviewByHooks
  split
  · exact h.pure trivial
  · exact h.pure trivial
  · refine h.hookRound rfl fun applied _ => ?_
    split <;> exact h.pure trivial

theorem reviewByPolicy {hookReasons : List String} :
    K _ (reviewByPolicy env spec call hookReasons) fun _ => True := by
  refine h.bind h.tick fun now _ => h.bind (h.note _) fun _ _ => ?_
  split <;> exact h.pure trivial

theorem reviewByHandler {reasons : List String} :
    K _ (reviewByHandler env turnId spec call reasons) fun _ => True := by
  unfold Nanoclaw.reviewByHandler
  split
  · exact h.pure trivial
  refine h.bind (h.logs _ rfl) fun _ _ => h.bind (h.onEvent _) fun _ _ => ?_
  refine h.bind h.tick fun now _ => h.bind (h.handler now _) fun outcome _ => ?_
  refine h.bind (h.note _) fun _ _ => ?_
  split <;> exact h.bind (h.logs _ rfl) fun _ _ => h.bind (h.onEvent _) fun _ _ => h.pure trivial

section Detector

variable (hdetector : ∀ f : AgentRuntime → ToolLoopDetector,
  K PUnit (modify fun rt => { rt with toolLoopDetector := f rt }) fun _ => True)

include hdetector

theorem inspectForLoops : K _ (inspectForLoops env turnId call) fun _ => True := by
  refine h.bind (h.reportToolLifecycle rfl) fun _ _ => h.bind h.get fun rt _ => ?_
  refine h.bind (hdetector _) fun _ _ => ?_
  split
  · exact h.pure trivial
  · refine h.bind (h.note _) fun _ _ => h.bind (h.logs _ rfl) fun _ _ => ?_
    refine h.bind (h.onEvent _) fun _ _ => ?_
    split <;> exact h.pure trivial

/-- Deciding about a call may rewrite its arguments, nothing else. -/
theorem authorizeToolCall :
    K _ (authorizeToolCall env turnId spec call) fun result => result.1.id = call.id := by
  refine h.hookRound rfl fun applied _ => ?_
  split
  · exact h.pure rfl
  refine h.bind h.reviewByHooks fun hookReview _ => ?_
  split
  · exact h.pure rfl
  refine h.bind h.reviewByPolicy fun policyReview _ => ?_
  split
  · exact h.pure rfl
  refine h.bind h.reviewByHandler fun refusal _ => ?_
  split
  · exact h.pure rfl
  · exact h.bind (h.inspectForLoops hdetector) fun _ _ => h.pure rfl

end Detector

/-! ### Running a call -/

/-- What follows the result of a refused or failed call. -/
theorem afterToolFailure : K _ (do
      Nanoclaw.reportToolLifecycle env turnId call (.toolCallFailed call error)
      let failureHooks ← runHooks env .postToolUseFailure (some turnId)
        [("tool_name", call.toolName.value)] (.toolError error)
      let _ ← applyHookEffectsWithObserver env turnId failureHooks none (some call.toolName))
      fun _ => True :=
  h.bind (h.reportToolLifecycle rfl) fun _ _ => h.hookRound rfl fun _ _ => h.pure trivial

/-- What follows the result of a call that ran. -/
theorem afterToolResult : K _ (do
      Nanoclaw.reportToolLifecycle env turnId call (.toolCallCompleted call result)
      let postHooks ← runHooks env .postToolUse (some turnId)
        [("tool_name", call.toolName.value)] (.toolOutput result)
      let postEffects ← applyHookEffectsWithObserver env turnId postHooks none (some call.toolName)
      match postEffects.blockedReason "post tool hook blocked" with
      | some reason => throw (.hookBlocked reason)
      | none => return) fun _ => True := by
  refine h.bind (h.reportToolLifecycle rfl) fun _ _ => h.hookRound rfl fun applied hknown => ?_
  split
  next hblocked => exact h.blocked hknown hblocked
  · exact h.pure trivial

variable (hpush : ∀ result id,
  K Unit (appendTranscriptMessage env turnId (Message.toolResult result id)) fun _ => True)

include hpush

theorem recordToolFailureResult :
    K _ (recordToolFailureResult env turnId call error) fun _ => True :=
  h.bind h.freshMessageId fun _ _ => h.bind (hpush _ _) fun _ _ => h.afterToolFailure

variable (hdetector : ∀ f : AgentRuntime → ToolLoopDetector,
  K PUnit (modify fun rt => { rt with toolLoopDetector := f rt }) fun _ => True)

include hdetector

theorem recordToolResult : K _ (recordToolResult env turnId call result) fun _ => True :=
  h.bind (hdetector _) fun _ _ => h.bind h.freshMessageId fun _ _ =>
    h.bind (hpush _ _) fun _ _ => h.afterToolResult

theorem executeToolCall : K _ (executeToolCall env turnId call) fun _ => True := by
  refine h.bind h.tick fun now _ => h.bind (h.sandbox now) fun _ _ => ?_
  refine h.bind h.tick fun _ _ => h.bind (h.note _) fun _ _ => ?_
  split
  · exact h.bind (h.recordToolResult hpush hdetector) fun _ _ => h.pure trivial
  · exact h.bind (hdetector _) fun _ _ =>
      h.bind (h.recordToolFailureResult hpush) fun _ _ => h.pure trivial

/-- **A call is handled by a walk**, if the tool is registered or an unknown tool is no harm. -/
theorem handleToolCall (hmissing : (env.tools.find? fun spec =>
      decide (spec.name = call.toolName)) = none →
      K ToolExecutionDisposition (throw (.tool ("tool not found: " ++ call.toolName.value)))
        fun _ => True) :
    K _ (handleToolCall env turnId call) fun _ => True := by
  unfold Nanoclaw.handleToolCall
  split
  next hnone => exact hmissing hnone
  · refine h.bind (h.authorizeToolCall hdetector) fun result _ => ?_
    obtain ⟨call', refusal⟩ := result
    cases refusal with
    | some reason => exact h.bind (h.recordToolFailureResult hpush) fun _ _ => h.pure trivial
    | none => exact h.executeToolCall hpush hdetector

end Walk

end Nanoclaw
