import Nanoclaw.Runtime.Bookkeeping
import Nanoclaw.Runtime.HookVerdict

/-!
# A Tool Runs Only After It Was Authorised

Every question that decides about a call is recorded in the trace with its answer. `Authorizes
interactions arguments`: no hook refused the call in the channel its event reads, the policy did
not deny it, the detector at most warned, policy and handler were shown these arguments, and if a
hook or the policy asked for a review, the handler approved.

A `PreToolUse` hook refuses by a permission decision, a closed gate or a stop; a
`PermissionRequest` hook by a permission behaviour, a closed gate or a stop. The other channel of
each is not read.
-/

namespace Nanoclaw

open List Proc

namespace Interaction

def isExecute : Interaction → Bool
  | .execute .. => true
  | _ => false

/-- The answer lets a call run with these arguments. -/
def Permits (arguments : Value) : Interaction → Prop
  | .hooks context batch =>
    (context.event = .preToolUse → ∀ e ∈ batch.effects, e.denies = false ∧ e.blocks = false) ∧
    (context.event = .permissionRequest →
      ∀ e ∈ batch.effects, e.deniesRequest = false ∧ e.blocks = false)
  | .policy request decision =>
    request.call.arguments = arguments ∧ ∀ reason, decision ≠ .deny reason
  | .handler request outcome => request.call.arguments = arguments ∧ outcome = .approve
  | .loopSignal _ signal => signal.severity = .warning
  | .execute .. => False

/-- The answer asks for a review. -/
def AsksReview : Interaction → Prop
  | .hooks context batch => context.event = .preToolUse ∧ ∃ e ∈ batch.effects, e.asks = true
  | .policy _ decision => ∃ reason, decision = .ask reason
  | _ => False

end Interaction

/-- **The interactions authorise a call** with these arguments. -/
structure Authorizes (interactions : List Interaction) (arguments : Value) : Prop where
  permits : ∀ i ∈ interactions, i.Permits arguments
  hooksAsked : ∃ context batch, .hooks context batch ∈ interactions ∧ context.event = .preToolUse
  policyAsked : ∃ request decision, .policy request decision ∈ interactions
  approved : (∃ i ∈ interactions, i.AsksReview) →
    ∃ request, .handler request .approve ∈ interactions

def NoExecute (interactions : List Interaction) : Prop :=
  ∀ i ∈ interactions, i.isExecute = false

/-- Every execution was authorised by what precedes it, and there is only one. -/
def ExecutesSoundly (call : ToolCall) (interactions : List Interaction) : Prop :=
  ∀ name id arguments, .execute name id arguments ∈ interactions →
    name = call.toolName ∧ id = call.id ∧
      ∃ before after, interactions = before ++ .execute name id arguments :: after ∧
        Authorizes before arguments ∧ NoExecute after

theorem noExecute_nil : NoExecute [] :=
  forall_mem_nil _

variable {interactions : List Interaction}

theorem NoExecute.executesSoundly (h : NoExecute interactions)
    (call : ToolCall) : ExecutesSoundly call interactions :=
  fun _ _ _ hmem => absurd (h _ hmem) Bool.noConfusion

/-! ### Interactions since a point of the trace -/

/-- The interactions since a point of the trace have a property. -/
def Since (start : List Interaction) (P : List Interaction → Prop) (rt : AgentRuntime) : Prop :=
  ∃ new, rt.trace = start ++ new ∧ P new

variable {P : List Interaction → Prop} {start : List Interaction} {i : Interaction} {α : Type}

theorem Since.imp {Q : List Interaction → Prop} {rt : AgentRuntime}
    (h : Since start P rt) (hPQ : ∀ new, P new → Q new) : Since start Q rt := by
  obtain ⟨new, htrace, hP⟩ := h
  exact ⟨new, htrace, hPQ new hP⟩

/-- The last interaction is this one, and the earlier ones have a property. -/
def After (P : List Interaction → Prop) (interaction : Interaction) (new : List Interaction) :
    Prop :=
  ∃ old, new = old ++ [interaction] ∧ P old

/-- A question that runs nothing, after others. -/
theorem noExecute_after (hi : i.isExecute = false) (h : ∀ new, P new → NoExecute new)
    (new : List Interaction) (hnew : After P i new) : NoExecute new := by
  obtain ⟨old, rfl, hold⟩ := hnew
  exact forall_mem_append.mpr ⟨h old hold, forall_mem_singleton.mpr hi⟩

theorem apart_since : Apart (Since start P) := by
  rintro rt rt' htrace - - ⟨new, hnew, hP⟩
  exact ⟨new, htrace.trans hnew, hP⟩

/-- What asks nothing keeps what is known of the interactions. -/
theorem Since.keeps {m : RuntimeM α}
    {E : List Interaction → Prop} (hm : Preserves (Since start P) m) (hE : ∀ new, P new → E new) :
    Triple (Since start P) m (fun _ => Since start P) (fun _ => Since start E) :=
  hm.exits fun _ _ h => h.imp hE

/-! ### Programs that record their questions -/

section Rounds

variable (env : Env) (turnId : TurnId)

/-- Recording an interaction. -/
theorem note_since (interaction : Interaction) {E : RuntimeError → AgentRuntime → Prop} :
    Triple (Since start P) (note interaction) (fun _ => Since start (After P interaction)) E := by
  refine .modify fun rt hrt => ?_
  obtain ⟨new, htrace, hP⟩ := hrt
  exact ⟨new ++ [interaction], by simp [htrace], new, rfl, hP⟩

/-- An event is logged and shown to the observer. -/
theorem announce_since {turn : Option TurnId} {tool : Option ToolCallId}
    {event : SessionEventKind} {progress : RuntimeProgressEvent} {f : RuntimeM α}
    {Q : α → AgentRuntime → Prop} {E : List Interaction → Prop}
    (hE : ∀ new, P new → E new) (hf : Triple (Since start P) f Q (fun _ => Since start E)) :
    Triple (Since start P) (do
      appendEvent env turn tool event
      onEvent env progress
      f) Q (fun _ => Since start E) :=
  (Since.keeps (apart_since.appendEvent env _ _ _) hE).bind fun _ =>
    (Since.keeps (apart_since.onEvent env _) hE).bind fun _ => hf

/-- Asking the hooks of an event and folding their answers. -/
theorem hookRound_since (event : HookEvent) (hookTurn : Option TurnId)
    (fields : List (String × String)) (payload : HookPayload) (currentMessage : Option Message)
    (currentToolName : Option ToolName) {f : AppliedHookEffects → RuntimeM α}
    {R : List Interaction → Prop} {Q : α → AgentRuntime → Prop} (hR : ∀ new, P new → R new)
    (hstep : ∀ context batch new, After P (.hooks context batch) new → R new)
    (hf : ∀ context batch applied, context.event = event →
      applied.verdict = verdictOf batch.effects →
      Triple (Since start (After P (.hooks context batch))) (f applied) Q
        (fun _ => Since start R)) : Triple (Since start P) (do
      let batch ← runHooks env event hookTurn fields payload
      let applied ← applyHookEffectsWithObserver env turnId batch currentMessage currentToolName
      f applied) Q (fun _ => Since start R) := by
  have hask : Triple (Since start P) (runHooks env event hookTurn fields payload)
      (fun batch rt => ∃ context, context.event = event ∧
        Since start (After P (.hooks context batch)) rt)
      (fun _ => Since start R) := by
    refine .get_bind fun rt hrt => ?_
    refine .at_state (P := Since start P) ?_ hrt
    refine (Since.keeps apart_since.tick hR).bind fun now => ?_
    refine (Since.keeps (preserves_answer _) hR).bind fun batch => ?_
    let context : HookContext :=
      { event, sessionId := rt.session.sessionId, agentSessionId := rt.session.agentSessionId
        turnId := hookTurn, fields, payload }
    exact (note_since (.hooks context batch)).bind fun _ =>
      .pure fun _ h => ⟨context, rfl, h⟩
  refine hask.bind fun batch rt hrt => ?_
  obtain ⟨context, hevent, hafter⟩ := hrt
  have hfold : Triple (Since start (After P (.hooks context batch)))
      (applyHookEffectsWithObserver env turnId batch currentMessage currentToolName)
      (fun applied rt => applied.verdict = verdictOf batch.effects ∧
        Since start (After P (.hooks context batch)) rt)
      (fun _ => Since start R) := by
    exact ((applyHookEffectsWithObserver_verdict env batch currentMessage).and (Since.keeps
      (apart_since.applyHookEffectsWithObserver env turnId _ _ _) (hstep context batch))).conseq
        (fun _ h => ⟨trivial, h⟩) (fun _ _ h => h) fun _ _ h => h.2
  refine hfold.bind (fun applied rt hrt => ?_) rt hafter
  exact hf context batch applied hevent hrt.1 rt hrt.2

end Rounds

/-! ### The points of the decision -/

/-- Nothing has refused; the handler is asked for the `reasons`. -/
structure Passed (interactions : List Interaction) (arguments : Value) (reasons : List String) :
    Prop where
  permits : ∀ i ∈ interactions, i.Permits arguments
  hooksAsked : ∃ context batch, .hooks context batch ∈ interactions ∧ context.event = .preToolUse
  pending : (∃ i ∈ interactions, i.AsksReview) → reasons ≠ []

variable {arguments : Value}

theorem noExecute_of_permits
    (h : ∀ i ∈ interactions, i.Permits arguments) : NoExecute interactions := by
  intro i hi
  have hi := h i hi
  cases i with
  | execute => exact hi.elim
  | _ => rfl

theorem permits_append (h : ∀ i ∈ interactions, i.Permits arguments) (hi : i.Permits arguments) :
    ∀ j ∈ interactions ++ [i], j.Permits arguments :=
  forall_mem_append.mpr ⟨h, forall_mem_singleton.mpr hi⟩

theorem hooksAsked_append (h : ∃ context batch,
      .hooks context batch ∈ interactions ∧ context.event = .preToolUse) (i : Interaction) :
    ∃ context batch, .hooks context batch ∈ interactions ++ [i] ∧ context.event = .preToolUse := by
  obtain ⟨context, batch, hmem, hevent⟩ := h
  exact ⟨context, batch, mem_append_left _ hmem, hevent⟩

variable {batch : HookInvocationBatch} {context : HookContext}

theorem not_blocks (hblock : (verdictOf batch.effects).isBlocking = false) {e : HookEffect}
    (he : e ∈ batch.effects) : e.blocks = false := by
  refine Bool.eq_false_iff.mpr fun hb => ?_
  rw [(verdictOf_isBlocking _).mpr ⟨e, he, hb⟩] at hblock
  cases hblock

/-- A batch that neither denies nor blocks permits the call. -/
theorem permits_preToolUse (hevent : context.event = .preToolUse)
    (hdeny : (verdictOf batch.effects).permissionDecision ≠ some .deny)
    (hblock : (verdictOf batch.effects).isBlocking = false) :
    (Interaction.hooks context batch).Permits arguments := by
  refine ⟨fun _ e he => ⟨?_, not_blocks hblock he⟩, fun h => nomatch hevent.symm.trans h⟩
  exact Bool.eq_false_iff.mpr fun hd => hdeny (verdictOf_denies _ ⟨e, he, hd⟩)

theorem permits_permissionRequest (hevent : context.event = .permissionRequest)
    (hdeny : (verdictOf batch.effects).permissionBehavior ≠ some .deny)
    (hblock : (verdictOf batch.effects).isBlocking = false) :
    (Interaction.hooks context batch).Permits arguments := by
  refine ⟨fun h => (nomatch hevent.symm.trans h), fun _ e he => ⟨?_, not_blocks hblock he⟩⟩
  exact Bool.eq_false_iff.mpr fun hd => hdeny (verdictOf_deniesRequest _ ⟨e, he, hd⟩)

section Decision

variable (env : Env) (turnId : TurnId)

/-- Passed with `P` of the result, or refused without an execution. -/
def Decides {α : Type} (start : List Interaction) (P : α → List Interaction → Prop) :
    Except String α → AgentRuntime → Prop
  | .ok a => Since start (P a)
  | .error _ => Since start NoExecute

/-- Either nothing refuses the call and `P` holds, or nothing was executed. -/
def Clears (start : List Interaction) (P : List Interaction → Prop) :
    Option String → AgentRuntime → Prop
  | none => Since start P
  | some _ => Since start NoExecute

variable {call : ToolCall} {spec : ToolSpec}

theorem reviewByHooks_passed {preEffects : AppliedHookEffects}
    (hevent : context.event = .preToolUse) (hverdict : preEffects.verdict = verdictOf batch.effects)
    (hblock : preEffects.verdict.isBlocking = false) :
    Triple (Since start fun new => new = [.hooks context batch])
      (reviewByHooks env turnId call preEffects)
      (Decides start fun reasons new => Passed new call.arguments reasons)
      (fun _ => Since start NoExecute) := by
  have hquiet : ∀ new, new = [Interaction.hooks context batch] → NoExecute new := by
    rintro _ rfl
    exact forall_mem_singleton.mpr rfl
  have hdecision : preEffects.permissionDecision = (verdictOf batch.effects).permissionDecision :=
    congrArg HookVerdict.permissionDecision hverdict
  rw [hverdict] at hblock
  unfold reviewByHooks
  rw [hdecision]
  split
  · exact .pure fun _ h => h.imp hquiet
  · -- No hook asked: the decision is an allow or there is none.
    next hallow =>
      have hdeny : (verdictOf batch.effects).permissionDecision ≠ some .deny :=
        fun hd => by simp [hd] at hallow
      refine .pure fun _ h => h.imp ?_
      rintro _ rfl
      refine ⟨forall_mem_singleton.mpr (permits_preToolUse hevent hdeny hblock),
        ⟨context, batch, by simp, hevent⟩, ?_⟩
      rintro ⟨i, hi, hasks⟩
      cases mem_singleton.mp hi
      simp [verdictOf_asks _ hdeny hasks.2] at hallow
  next hask =>
    have hdeny : (verdictOf batch.effects).permissionDecision ≠ some .deny :=
      fun hd => by simp [hd] at hask
    refine hookRound_since env turnId _ _ _ _ _ _ hquiet
      (fun _ _ => noExecute_after rfl hquiet) fun c b applied hc hv => ?_
    have hblocked := applied.isSome_blockedReason "permission request denied"
    split
    · exact .pure fun _ h => h.imp (noExecute_after rfl hquiet)
    next hrefused =>
      rw [hblocked, not_or, Bool.not_eq_true] at hrefused
      refine .pure fun _ h => h.imp ?_
      rintro _ ⟨old, rfl, rfl⟩
      refine ⟨permits_append (forall_mem_singleton.mpr (permits_preToolUse hevent hdeny hblock)) ?_,
        ⟨context, batch, by simp, hevent⟩, fun _ => by simp⟩
      refine permits_permissionRequest hc ?_ (hv ▸ hrefused.2)
      exact fun hd => hrefused.1 ((congrArg HookVerdict.permissionBehavior hv).trans hd)

theorem reviewByPolicy_passed {hookReasons : List String} :
    Triple (Since start fun new => Passed new call.arguments hookReasons)
      (reviewByPolicy env spec call hookReasons)
      (Decides start fun reasons new => Passed new call.arguments reasons ∧
        ∃ request decision, .policy request decision ∈ new)
      (fun _ => Since start NoExecute) := by
  have hno : ∀ new, Passed new call.arguments hookReasons → NoExecute new :=
    fun _ h => noExecute_of_permits h.permits
  unfold reviewByPolicy
  refine (Since.keeps apart_since.tick hno).bind fun now => ?_
  dsimp only
  generalize hrequest : ToolApprovalRequest.mk call spec
    (approvalReasonsForTool spec ++ hookReasons) = request
  have hcall : request.call.arguments = call.arguments := by rw [← hrequest]
  generalize env.approvalPolicy now request = decision
  refine (note_since _).bind fun _ => ?_
  -- What the policy adds to the reasons, if it does not deny.
  have hpassed : ∀ reasons, (∀ reason, decision ≠ .deny reason) →
      (hookReasons ≠ [] ∨ (∃ reason, decision = .ask reason) → reasons ≠ []) →
      ∀ new, After (fun old => Passed old call.arguments hookReasons)
        (.policy request decision) new →
      Passed new call.arguments reasons ∧ ∃ request decision, .policy request decision ∈ new := by
    rintro reasons hdeny hreasons _ ⟨old, rfl, hold⟩
    refine ⟨⟨permits_append hold.permits ⟨hcall, hdeny⟩, hooksAsked_append hold.hooksAsked _, ?_⟩,
      request, decision, by simp⟩
    rintro ⟨i, hi, hasks⟩
    rcases mem_append.mp hi with hi | hi
    · exact hreasons (.inl (hold.pending ⟨i, hi, hasks⟩))
    · cases mem_singleton.mp hi
      exact hreasons (.inr hasks)
  split
  · refine Triple.pure fun _ h => h.imp (hpassed hookReasons nofun ?_)
    exact fun h => h.elim id nofun
  · exact Triple.pure fun _ h => h.imp (hpassed _ nofun fun _ => by simp)
  · exact .pure fun _ h => h.imp (noExecute_after rfl hno)
  · refine .pure fun _ h => h.imp (hpassed _ nofun ?_)
    exact fun h => h.elim (fun h => by simp [h]) nofun

/-- A reason is left: the handler approves, or the call is refused. -/
theorem reviewByHandler_authorizes {reasons : List String} :
    Triple (Since start fun new => Passed new call.arguments reasons ∧
        ∃ request decision, .policy request decision ∈ new)
      (reviewByHandler env turnId spec call reasons)
      (Clears start fun new => Authorizes new call.arguments)
      (fun _ => Since start NoExecute) := by
  have hno : ∀ new, (Passed new call.arguments reasons ∧
      ∃ request decision, .policy request decision ∈ new) → NoExecute new :=
    fun _ h => noExecute_of_permits h.1.permits
  unfold reviewByHandler
  split
  next hempty =>
    refine Triple.pure fun _ h => h.imp fun new hnew => ?_
    refine ⟨hnew.1.permits, hnew.1.hooksAsked, hnew.2, fun hasks => ?_⟩
    exact absurd (isEmpty_iff.mp hempty) (hnew.1.pending hasks)
  refine announce_since env hno ?_
  refine (Since.keeps apart_since.tick hno).bind fun now => ?_
  refine (Since.keeps (preserves_answer _) hno).bind fun outcome => ?_
  generalize hrequest : ToolApprovalRequest.mk call spec reasons = request
  have hcall : request.call.arguments = call.arguments := by rw [← hrequest]
  refine (note_since _).bind fun _ => ?_
  have hno' := noExecute_after (i := .handler request outcome) rfl hno
  split
  · refine announce_since env hno' ?_
    refine Triple.pure fun _ h => h.imp ?_
    rintro _ ⟨old, rfl, hold, request', decision, hpolicy⟩
    exact ⟨permits_append hold.permits ⟨hcall, rfl⟩, hooksAsked_append hold.hooksAsked _,
      ⟨request', decision, mem_append_left _ hpolicy⟩, fun _ => ⟨request, by simp⟩⟩
  · exact announce_since env hno' <| Triple.pure fun _ h => h.imp hno'

theorem Authorizes.noExecute (h : Authorizes interactions arguments) : NoExecute interactions :=
  noExecute_of_permits h.permits

/-- The detector lets the call pass, at most with a warning, or refuses it. -/
theorem inspectForLoops_authorizes : Triple (Since start fun new => Authorizes new call.arguments)
      (inspectForLoops env turnId call)
      (Clears start fun new => Authorizes new call.arguments)
      (fun _ => Since start NoExecute) := by
  have hno : ∀ new, Authorizes new call.arguments → NoExecute new := fun _ h => h.noExecute
  unfold inspectForLoops
  refine (Since.keeps (apart_since.reportToolLifecycle env turnId call _) hno).bind fun _ => ?_
  refine Triple.get_bind fun rt hrt => ?_
  dsimp only
  generalize rt.toolLoopDetector.inspect call = inspected
  obtain ⟨signal, detector⟩ := inspected
  refine .at_state (P := Since start fun new => Authorizes new call.arguments) ?_ hrt
  refine .bind (R := fun _ => Since start fun new => Authorizes new call.arguments)
    (.modify fun _ h => h) fun _ => ?_
  split
  · exact .pure fun _ h => h
  next signal _ =>
    refine (note_since _).bind fun _ => ?_
    have hno' := noExecute_after (i := .loopSignal call signal) rfl hno
    refine announce_since env hno' ?_
    split
    next hwarning =>
      refine .pure fun _ h => h.imp ?_
      rintro _ ⟨old, rfl, hold⟩
      obtain ⟨request, decision, hpolicy⟩ := hold.policyAsked
      refine ⟨permits_append hold.permits hwarning, hooksAsked_append hold.hooksAsked _,
        ⟨request, decision, mem_append_left _ hpolicy⟩, ?_⟩
      rintro ⟨i, hi, hasks⟩
      rcases mem_append.mp hi with hi | hi
      · obtain ⟨request, happroved⟩ := hold.approved ⟨i, hi, hasks⟩
        exact ⟨request, mem_append_left _ happroved⟩
      · cases mem_singleton.mp hi
        exact hasks.elim
    · exact .pure fun _ h => h.imp hno'

/-- **A decision without refusal authorises the call** with the arguments it returns. -/
theorem authorizeToolCall_authorizes :
    Triple (Since start fun new => new = []) (authorizeToolCall env turnId spec call)
      (fun result rt => (result.1.toolName = call.toolName ∧ result.1.id = call.id) ∧
        Clears start (fun new => Authorizes new result.1.arguments) result.2 rt)
      (fun _ => Since start NoExecute) := by
  have hnil : ∀ new : List Interaction, new = [] → NoExecute new := by
    rintro _ rfl
    exact noExecute_nil
  refine hookRound_since env turnId _ _ _ _ _ _ hnil (fun _ _ => noExecute_after rfl hnil)
    fun context batch preEffects hevent hverdict => ?_
  have hblocked := preEffects.isSome_blockedReason "tool use blocked"
  dsimp only
  split
  · exact .pure fun _ h => ⟨⟨rfl, rfl⟩, h.imp (noExecute_after rfl hnil)⟩
  next hopen =>
    rw [hopen] at hblocked
    refine .bind ((reviewByHooks_passed env turnId hevent hverdict hblocked.symm).pre
      fun _ h => h.imp ?_) fun result => ?_
    · rintro _ ⟨old, rfl, rfl⟩
      rfl
    cases result with
    | error reason => exact .pure fun _ h => ⟨⟨rfl, rfl⟩, h⟩
    | ok hookReasons =>
      refine (reviewByPolicy_passed env).bind fun result => ?_
      cases result with
      | error reason => exact .pure fun _ h => ⟨⟨rfl, rfl⟩, h⟩
      | ok reasons =>
        refine (reviewByHandler_authorizes env turnId).bind fun refusal => ?_
        cases refusal with
        | some reason => exact .pure fun _ h => ⟨⟨rfl, rfl⟩, h⟩
        | none =>
          exact (inspectForLoops_authorizes env turnId).bind fun refusal =>
            .pure fun _ h => ⟨⟨rfl, rfl⟩, h⟩

/-! ### Running the call -/

/-- The call was executed once, and what precedes the execution authorised it. -/
def Executed (call : ToolCall) (new : List Interaction) : Prop :=
  ∃ before after, new = before ++ .execute call.toolName call.id call.arguments :: after ∧
    Authorizes before call.arguments ∧ NoExecute after

theorem Executed.executesSoundly {new : List Interaction}
    (h : Executed call new) : ExecutesSoundly call new := by
  obtain ⟨before, after, rfl, hbefore, hafter⟩ := h
  intro name id arguments hmem
  rcases mem_append.mp hmem with hmem | hmem
  · exact absurd (hbefore.noExecute _ hmem) Bool.noConfusion
  · rcases mem_cons.mp hmem with heq | hmem
    · cases heq
      exact ⟨rfl, rfl, before, after, rfl, hbefore, hafter⟩
    · exact absurd (hafter _ hmem) Bool.noConfusion

section

variable (hafter : ∀ context batch new, After P (.hooks context batch) new → P new)

include hafter

/-- Reporting a failed call only asks hooks. -/
theorem recordToolFailureResult_since {error : String} :
    Preserves (Since start P) (recordToolFailureResult env turnId call error) := by
  refine (apart_since.freshMessageId env).bind fun _ => ?_
  refine (apart_since.appendTranscriptMessage env turnId _).bind fun _ => ?_
  refine (apart_since.reportToolLifecycle env turnId call _).bind fun _ => ?_
  exact hookRound_since env turnId _ _ _ _ _ _ (fun _ h => h) hafter
    fun context batch _ _ _ => .pure fun _ h => h.imp (hafter context batch)

theorem recordToolResult_since {result : ToolResult} :
    Preserves (Since start P) (recordToolResult env turnId call result) := by
  refine Triple.bind (R := fun _ => Since start P) (Triple.modify fun _ h => h) fun _ => ?_
  refine (apart_since.freshMessageId env).bind fun _ => ?_
  refine (apart_since.appendTranscriptMessage env turnId _).bind fun _ => ?_
  refine (apart_since.reportToolLifecycle env turnId call _).bind fun _ => ?_
  refine hookRound_since env turnId _ _ _ _ _ _ (fun _ h => h) hafter fun context batch _ _ _ => ?_
  split
  · exact .throw fun _ h => h.imp (hafter context batch)
  · exact .pure fun _ h => h.imp (hafter context batch)

end

theorem executeToolCall_sound : Triple (Since start fun new => Authorizes new call.arguments)
      (executeToolCall env turnId call) (fun _ => Since start (ExecutesSoundly call))
      (fun _ => Since start (ExecutesSoundly call)) := by
  have hno : ∀ new, Authorizes new call.arguments → ExecutesSoundly call new :=
    fun _ h => h.noExecute.executesSoundly call
  have hrun : ∀ context batch new, After (Executed call) (.hooks context batch) new →
      Executed call new := by
    rintro context batch _ ⟨_, rfl, before, after, rfl, hbefore, hafter⟩
    exact ⟨before, after ++ [.hooks context batch], by simp, hbefore,
      noExecute_after rfl (fun _ h => h) _ ⟨after, rfl, hafter⟩⟩
  have hdone : ∀ {α : Type} {m : RuntimeM α}, Preserves (Since start (Executed call)) m →
      Triple (Since start (Executed call)) m (fun _ => Since start (Executed call))
        (fun _ => Since start (ExecutesSoundly call)) := fun h =>
    h.exits fun _ _ h => h.imp fun _ => Executed.executesSoundly
  unfold executeToolCall
  refine (Since.keeps apart_since.tick hno).bind fun _ => ?_
  refine (Since.keeps (preserves_answer _) hno).bind fun _ => ?_
  refine (Since.keeps apart_since.tick hno).bind fun now => ?_
  refine (note_since _).bind fun _ => ?_
  refine Triple.of_state fun rt hrt => Triple.at_state (P := Since start (Executed call)) ?_
    (hrt.imp ?_)
  · split
    · exact (hdone (recordToolResult_since env turnId hrun)).bind fun _ =>
        Triple.pure fun _ h => h.imp fun _ => Executed.executesSoundly
    · refine Triple.bind (R := fun _ => Since start (Executed call))
        (Triple.modify fun _ h => h) fun _ => ?_
      exact (hdone (recordToolFailureResult_since env turnId hrun)).bind fun _ =>
        Triple.pure fun _ h => h.imp fun _ => Executed.executesSoundly
  · rintro _ ⟨old, rfl, hold⟩
    exact ⟨old, [], rfl, hold, noExecute_nil⟩

/-- **Every execution in the trace of a call was authorised by what precedes it.** -/
theorem handleToolCall_sound :
    Triple (Since start fun new => new = []) (handleToolCall env turnId call)
      (fun _ => Since start (ExecutesSoundly call))
      (fun _ => Since start (ExecutesSoundly call)) := by
  have hsound : ∀ new, NoExecute new → ExecutesSoundly call new := fun _ h => h.executesSoundly call
  unfold handleToolCall
  split
  · refine .throw fun _ h => h.imp ?_
    rintro _ rfl
    exact hsound [] noExecute_nil
  next spec _ =>
    refine .bind ((authorizeToolCall_authorizes env turnId).exits fun _ _ h => h.imp hsound)
      fun result => ?_
    obtain ⟨call', refusal⟩ := result
    cases refusal with
    | some reason =>
      refine .bind (R := fun _ => Since start NoExecute)
        ((recordToolFailureResult_since env turnId (P := NoExecute)
          fun _ _ => noExecute_after rfl fun _ h => h).pre (fun _ h => h.2) |>.exits
            fun _ _ h => h.imp hsound) fun _ => ?_
      exact .pure fun _ h => h.imp hsound
    | none =>
      rintro rt ⟨⟨hname, hid⟩, hclear⟩
      have hcall : ∀ new, ExecutesSoundly call' new → ExecutesSoundly call new := by
        intro new h name id arguments hmem
        obtain ⟨hn, hi, hrest⟩ := h name id arguments hmem
        exact ⟨hn.trans hname, hi.trans hid, hrest⟩
      exact (executeToolCall_sound env turnId).post (fun _ _ h => h.imp hcall)
        (fun _ _ h => h.imp hcall) rt hclear

end Decision

/-- **Tool authorisation.** A call is executed only after it was authorised, with the arguments that
policy and handler were shown; and the order of hook effects does not matter. -/
theorem tool_execution_authorized :
    (∀ (env : Env) (turnId : TurnId) (call : ToolCall) (rt : AgentRuntime),
      ∃ new, ((handleToolCall env turnId call).exec rt).2.trace = rt.trace ++ new ∧
        ExecutesSoundly call new) ∧
    ∀ (env env' : Env) (turnId turnId' : TurnId) (batch batch' : HookInvocationBatch)
      (currentMessage currentMessage' : Option Message) (tool tool' : Option ToolName)
      (rt rt' after after' : AgentRuntime) (applied applied' : AppliedHookEffects),
      batch.effects.Perm batch'.effects →
      (applyHookEffectsWithObserver env turnId batch currentMessage tool).exec rt =
        (.ok applied, after) →
      (applyHookEffectsWithObserver env' turnId' batch' currentMessage' tool').exec rt' =
        (.ok applied', after') →
      applied.verdict = applied'.verdict := by
  constructor
  · intro env turnId call rt
    exact Triple.state_iff.mp (handleToolCall_sound env turnId) rt ⟨[], (append_nil _).symm, rfl⟩
  · intro env env' turnId turnId' batch batch' m m' tool tool' rt rt' after after' applied
      applied' hperm happ happ'
    have h := (applyHookEffectsWithObserver_verdict env batch m).of_ok trivial happ
    have h' := (applyHookEffectsWithObserver_verdict env' batch' m').of_ok trivial happ'
    rw [h, h', verdictOf_perm hperm]

/-! ### The channels of the two hook events -/

def writeTool : ToolSpec where
  name := ⟨"write"⟩
  description := ""
  inputSchema := none
  approval := {}

def writeCall : ToolCall where
  id := ⟨"1"⟩
  callId := ⟨"1"⟩
  toolName := ⟨"write"⟩
  arguments := .null
  origin := .local

/-- A hook of the host that answers two events. -/
def reviewEnv (onPermissionRequest : HookEffect) : Env :=
  { quietEnv with
    tools := [writeTool]
    runHooks _ context :=
      let answer (effect : HookEffect) : HookInvocationBatch :=
        [{ registration :=
            { name := "host", event := context.event, handler := .command, execution := none }
           effects := [effect] }]
      match context.event with
      | .preToolUse => .ok (answer (.setPermissionDecision .ask none))
      | .permissionRequest => .ok (answer onPermissionRequest)
      | _ => .ok [] }

def Interaction.deniesAtRequest : Interaction → Bool
  | .hooks context batch =>
    decide (context.event = .permissionRequest) && batch.effects.any HookEffect.denies
  | _ => false

/-- A permission decision of a `PermissionRequest` hook is not read. -/
theorem permission_decision_at_request_ignored :
    ∃ new, ((handleToolCall (reviewEnv (.setPermissionDecision .deny none)) ⟨"t"⟩
        writeCall).exec freshRuntime).2.trace = new ∧
      (∃ i ∈ new, i.deniesAtRequest = true) ∧ ∃ i ∈ new, i.isExecute = true := by
  refine ⟨_, rfl, any_eq_true.mp ?_, any_eq_true.mp ?_⟩
  · decide +kernel
  · decide +kernel

/-- A call that a hook wants reviewed and the handler approves is executed soundly. -/
theorem reviewed_call_executes :
    ∃ new, ((handleToolCall (reviewEnv (.setPermissionBehavior .allow none)) ⟨"t"⟩
        writeCall).exec freshRuntime).2.trace = freshRuntime.trace ++ new ∧
      ExecutesSoundly writeCall new ∧ ∃ i ∈ new, i.isExecute = true := by
  obtain ⟨new, htrace, hsound⟩ := tool_execution_authorized.1
    (reviewEnv (.setPermissionBehavior .allow none)) ⟨"t"⟩ writeCall freshRuntime
  refine ⟨new, htrace, hsound, any_eq_true.mp ?_⟩
  -- The trace was empty before the call.
  rw [show new = _ from htrace.symm]
  decide +kernel

end Nanoclaw
