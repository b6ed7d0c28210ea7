import Nanoclaw.Runtime.HookVerdict
import Nanoclaw.Runtime.ToolWalk

/-!
# Tool Calls That Are Always Handled

`Env.ServesCalls`: the store, the observer, the handler and the sandbox answer, the tool is
registered, the hooks of the call answer with effects that apply, and no `PostToolUse` hook
blocks. Everything else, the results of the tools included, may be a failure.
-/

namespace Nanoclaw

open Proc

/-- The effect edits an earlier message of the transcript. -/
def HookEffect.editsTranscript : HookEffect → Bool
  | .replaceMessage .current _ | .patchMessage .current _ | .removeMessage .current => false
  | .replaceMessage .. | .patchMessage .. | .removeMessage .. => true
  | _ => false

/-- Accepted while a call is handled, and no edit of an earlier message. -/
structure HookEffect.Applies (effect : HookEffect) (registration : HookRegistration) : Prop where
  accepted : ∀ applied toolName freshId, ∃ applied',
    applyHookEffect applied registration (some toolName) freshId effect = .ok applied'
  stays : effect.editsTranscript = false

/-- All effects of the batch apply. -/
def HookInvocationBatch.Applies (batch : HookInvocationBatch) : Prop :=
  ∀ invocation ∈ batch, ∀ effect ∈ invocation.effects, effect.Applies invocation.registration

/-- **What handling a call asks is answered.** -/
structure Env.ServesCalls (env : Env) : Prop where
  store : ∀ now event, env.store now event = .ok ()
  observer : ∀ now event, env.observer now event = .ok ()
  handler : ∀ now request, ∃ outcome, env.approvalHandler now request = .ok outcome
  sandbox : ∀ now, env.effectiveSandboxPolicy now = .ok ()
  toolHooks : ∀ now context, context.event.isToolEvent = true →
    ∃ batch, env.runHooks now context = .ok batch ∧ batch.Applies ∧
      (context.event = .postToolUse → ∀ effect ∈ batch.effects, effect.blocks = false)

variable {registration : HookRegistration} {applied : AppliedHookEffects}

/-- An effect that edits no earlier message queues no edit. -/
theorem transcriptMutations_applyHookEffect {applied' : AppliedHookEffects}
    {toolName : Option ToolName} {freshId : MessageId} {effect : HookEffect}
    (hstays : effect.editsTranscript = false)
    (h : applyHookEffect applied registration toolName freshId effect = .ok applied') :
    applied'.transcriptMutations = applied.transcriptMutations := by
  obtain ⟨_, -, h⟩ := except_bind_eq_ok.mp h
  cases effect with
  | replaceMessage selector | removeMessage selector =>
    cases selector with
    | current => cases h; rfl
    | messageId | lastOfRole => cases hstays
  | patchMessage selector patch =>
    cases selector with
    | current =>
      simp only [AppliedHookEffects.applyMessagePatch] at h
      split at h <;> cases h
      rfl
    | messageId | lastOfRole => cases hstays
  | rewriteToolArgs name arguments =>
    dsimp only at h
    split at h
    · cases h
    · split at h <;> cases h <;> rfl
  | showToast variant message =>
    obtain ⟨_, -, h⟩ := except_bind_eq_ok.mp h
    obtain ⟨_, -, h⟩ := except_bind_eq_ok.mp h
    cases h
    rfl
  | appendPrompt text onlyWhenEmpty =>
    obtain ⟨_, -, h⟩ := except_bind_eq_ok.mp h
    cases h
    rfl
  | _ => cases h; rfl

section Returns

variable {env : Env} {turnId : TurnId}

theorem tick_returns : Returns (fun _ => True) tick :=
  Returns.get.bind fun _ _ => (Returns.modify _).bind fun _ _ => Returns.pure trivial

variable {α : Type} {event : SessionEventKind} {fields : List (String × String)}
  {payload : HookPayload} {batch : HookInvocationBatch}

theorem answer_returns {response : Except RuntimeError α} {a : α} (h : response = .ok a) :
    Returns (fun b => b = a) (answer response) := by
  subst h
  exact .pure rfl

theorem freshMessageId_returns : Returns (fun _ => True) (freshMessageId env) :=
  tick_returns.bind fun _ _ => .pure trivial

theorem note_returns (interaction : Interaction) : Returns (fun _ => True) (note interaction) :=
  .modify _

variable {toolName : ToolName}

/-- What an accepted effect adds to the record is no queued edit. -/
theorem applyEffects_returns
    {effects : List HookEffect} (heffects : ∀ effect ∈ effects, effect.Applies registration)
    (happ : applied.transcriptMutations = []) :
    Returns (fun applied => applied.transcriptMutations = [])
      (applyEffects env registration (some toolName) applied effects) :=
  .foldlM effects (fun applied effect he happ =>
    freshMessageId_returns.bind fun freshId _ => by
      obtain ⟨applied', hok⟩ := (heffects effect he).accepted applied toolName freshId
      rw [hok]
      exact .pure
        ((transcriptMutations_applyHookEffect (heffects effect he).stays hok).trans happ)) happ

variable {call : ToolCall} (henv : env.ServesCalls)

include henv

theorem onEvent_returns (event : RuntimeProgressEvent) :
    Returns (fun _ => True) (onEvent env event) :=
  tick_returns.bind fun now _ =>
    (answer_returns (henv.observer now event)).result fun _ _ _ => trivial

theorem appendEvent_returns {turnId : Option TurnId} {toolCallId : Option ToolCallId} :
    Returns (fun _ => True) (appendEvent env turnId toolCallId event) :=
  Returns.get.bind fun _ _ => tick_returns.bind fun now _ =>
    (answer_returns (henv.store now _)).bind fun _ _ => .modify _

theorem appendTranscriptMessage_returns {message : Message} :
    Returns (fun _ => True) (appendTranscriptMessage env turnId message) :=
  .bind (R := fun _ => True) (.modify _) fun _ _ => appendEvent_returns henv

theorem runHooks_returns {event : HookEvent} (hevent : event.isToolEvent = true)
    {hookTurn : Option TurnId} :
    Returns (fun batch => batch.Applies ∧
        (event = .postToolUse → ∀ effect ∈ batch.effects, effect.blocks = false))
      (runHooks env event hookTurn fields payload) := by
  refine Returns.get.bind fun rt _ => tick_returns.bind fun now _ => ?_
  obtain ⟨batch, hok, happlies⟩ := henv.toolHooks now
    { event, sessionId := rt.session.sessionId, agentSessionId := rt.session.agentSessionId
      turnId := hookTurn, fields, payload } hevent
  refine (answer_returns hok).bind fun batch' hbatch => ?_
  subst hbatch
  exact (note_returns _).bind fun _ _ => .pure happlies

theorem applyHookEffects_returns (hbatch : batch.Applies) :
    Returns (fun _ => True) (applyHookEffects env turnId batch none (some toolName)) := by
  have hinvocation : ∀ applied, ∀ invocation ∈ batch, applied.transcriptMutations = [] →
      Returns (fun applied => applied.transcriptMutations = [])
        (applyInvocation env turnId (some toolName) applied invocation) :=
    fun applied invocation hi happ => (appendEvent_returns henv).bind fun _ _ =>
      (applyEffects_returns (hbatch invocation hi) happ).bind fun _ happ' =>
        (appendEvent_returns henv).bind fun _ _ => .pure happ'
  refine (Returns.foldlM batch hinvocation rfl).bind fun applied happ => ?_
  rw [happ]
  refine .bind (R := fun _ => True) (.pure trivial) fun _ _ => ?_
  refine .bind (R := fun _ => True) (.modify _) fun _ _ => ?_
  refine .bind (R := fun _ => True) (.forM _ fun m _ =>
    appendTranscriptMessage_returns henv) fun _ _ => .pure trivial

/-- Effects of a tool call are applied; they block only if one does. -/
theorem applyHookEffectsWithObserver_returns (hbatch : batch.Applies) :
    Returns (fun applied => (∀ effect ∈ batch.effects, effect.blocks = false) →
        ∀ reason, applied.blockedReason reason = none)
      (applyHookEffectsWithObserver env turnId batch none (some toolName)) := by
  have hreturns : Returns (fun _ => True)
      (applyHookEffectsWithObserver env turnId batch none (some toolName)) :=
    (applyHookEffects_returns henv hbatch).bind fun _ _ =>
      .bind (R := fun _ => True) (.forM _ fun _ _ => onEvent_returns henv _)
        fun _ _ => .pure trivial
  refine (hreturns.and_triple (applyHookEffectsWithObserver_verdict env batch none)).result
    fun applied _ h hno reason => ?_
  rw [← Option.not_isSome_iff_eq_none, applied.isSome_blockedReason, h.2, verdictOf_isBlocking]
  rintro ⟨effect, hmem, hblocks⟩
  rw [hno effect hmem] at hblocks
  cases hblocks

/-- A tool call that is served returns, as every part of its handling does. -/
theorem Env.ServesCalls.walk : Walk env turnId (fun _ m Q => Returns Q m) fun event applied =>
      event = .postToolUse → ∀ reason, applied.blockedReason reason = none where
  pure := .pure
  bind := .bind
  get := .get
  tick := tick_returns
  freshMessageId := freshMessageId_returns
  note := note_returns
  onEvent := onEvent_returns henv
  logs _ _ _ := appendEvent_returns henv
  handler now request := by
    obtain ⟨outcome, hok⟩ := henv.handler now request
    exact (answer_returns hok).result fun _ _ _ => trivial
  sandbox now := (answer_returns (henv.sandbox now)).result fun _ _ _ => trivial
  hookRound hevent hf := (runHooks_returns henv hevent).bind fun _ hbatch =>
    (applyHookEffectsWithObserver_returns henv hbatch.1).bind fun applied happ =>
      hf applied fun he => happ (hbatch.2 he)
  blocked hopen hblocked := nomatch (hopen rfl _).symm.trans hblocked

/-- **A call of a registered tool is handled without an error.** -/
theorem handleToolCall_returns (hregistered : ∃ spec ∈ env.tools, spec.name = call.toolName) :
    Returns (fun _ => True) (handleToolCall env turnId call) := by
  refine henv.walk.handleToolCall (fun _ _ => appendTranscriptMessage_returns henv)
    (fun _ => .modify _) fun hnone => ?_
  obtain ⟨spec, hspec, hname⟩ := hregistered
  exact absurd (decide_eq_true hname) (List.find?_eq_none.mp hnone spec hspec)

end Returns

end Nanoclaw
