import Nanoclaw.Runtime.LoopLockout
import Nanoclaw.Runtime.ToolAuthorization
import Nanoclaw.Runtime.ToolWalk
import Nanoclaw.Runtime.TurnLoop

/-!
# Rounds of Tool Calls

What the rounds of the turn loop do to the trace and to the loop detector, whatever hooks,
policy, handler, store and tools answer.
-/

namespace Nanoclaw

open List Proc

variable {env : Env} {turnId : TurnId} {call : ToolCall} {interactions start : List Interaction}

/-! ### What runs -/

/-- The tools that ran, each with the call it ran for. -/
def executions (interactions : List Interaction) : List (ToolName × ToolCallId) :=
  interactions.filterMap fun
    | .execute name id _ => some (name, id)
    | _ => none

theorem executions_eq_nil (h : NoExecute interactions) : executions interactions = [] := by
  refine filterMap_eq_nil_iff.mpr fun i hi => ?_
  have hno := h i hi
  cases i with
  | execute => cases hno
  | _ => rfl

theorem ExecutesSoundly.executions_sublist (h : ExecutesSoundly call interactions) :
    executions interactions <+ [(call.toolName, call.id)] := by
  by_cases hno : NoExecute interactions
  · rw [executions_eq_nil hno]
    exact nil_sublist _
  obtain ⟨i, hi, hexecute⟩ : ∃ i ∈ interactions, i.isExecute ≠ false := by
    simpa [NoExecute] using hno
  cases i with
  | execute name id arguments =>
    obtain ⟨rfl, rfl, before, after, rfl, hbefore, hafter⟩ := h name id arguments hi
    have hsplit : executions (before ++ .execute call.toolName call.id arguments :: after) =
        executions before ++ (call.toolName, call.id) :: executions after := by simp [executions]
    rw [hsplit, executions_eq_nil hbefore.noExecute, executions_eq_nil hafter, nil_append]
  | _ => exact absurd rfl hexecute

/-- **The tools of a round run in the order of its calls, for each call at most once.** -/
theorem round_runs_calls_in_order (env : Env) (turnId : TurnId) (calls : List ToolCall)
    (stats : SkillCaptureRuntimeStats) (rt : AgentRuntime) :
    ∃ new, ((handleToolCalls env turnId calls stats).exec rt).2.trace = rt.trace ++ new ∧
      executions new <+ calls.map fun call => (call.toolName, call.id) := by
  induction calls generalizing stats rt with
  | nil => exact ⟨[], (append_nil _).symm, nil_sublist _⟩
  | cons call calls ih =>
    obtain ⟨new, htrace, hsound⟩ := Triple.state_iff.mp
      (@handleToolCall_sound rt.trace env turnId call) rt ⟨[], (append_nil _).symm, rfl⟩
    rw [handleToolCalls, foldlM_cons, bind_assoc, exec_bind]
    rcases hcall : (handleToolCall env turnId call).exec rt with ⟨error | outcome, rt'⟩
    all_goals rw [hcall] at htrace
    · exact ⟨new, htrace, hsound.executions_sublist.trans ((nil_sublist _).cons_cons _)⟩
    · obtain ⟨later, hlater, hsub⟩ := ih (stats.recordToolResult outcome) rt'
      refine ⟨new ++ later, by rw [← append_assoc, ← htrace]; exact hlater, ?_⟩
      rw [executions, filterMap_append]
      exact hsound.executions_sublist.append hsub

/-! ### The loop detector in the tool flow -/

section Flow

variable (env) (turnId)

section

variable (J : ToolLoopDetector → Prop)

/-- The detector of the runtime has a property. -/
abbrev DetectorHas (rt : AgentRuntime) : Prop :=
  J rt.toolLoopDetector

theorem note_detector (interaction : Interaction) : Preserves (DetectorHas J) (note interaction) :=
  .modify fun _ h => h

/-- Asking hooks does not touch the detector. -/
theorem runHooks_detector (event : HookEvent) (hookTurn : Option TurnId)
    (fields : List (String × String)) (payload : HookPayload) :
    Preserves (DetectorHas J) (runHooks env event hookTurn fields payload) :=
  .get_bind fun _ => (apart_detector J).tick.bind fun _ =>
    (preserves_answer _).bind fun _ => (note_detector J _).bind fun _ => .pure _

/-- What is known of the detector is kept by everything that does not write it. -/
theorem walk_detector : Walk env turnId (fun _ m Q => Triple (DetectorHas J) m
      (fun a rt => Q a ∧ DetectorHas J rt) fun _ => DetectorHas J) fun _ _ => True := by
  have hJ := apart_detector J
  have hkeep {α : Type} {m : RuntimeM α} (h : Preserves (DetectorHas J) m) :=
    h.result (Q := fun _ rt => True ∧ DetectorHas J rt) fun _ _ h => ⟨trivial, h⟩
  exact {
    pure := fun hQ => .pure fun _ h => ⟨hQ, h⟩
    bind := fun hm hf => hm.bind fun b rt h => hf b h.1 rt h.2
    get := .get fun _ h => ⟨trivial, h⟩
    tick := hkeep hJ.tick
    freshMessageId := hkeep (hJ.freshMessageId env)
    note := fun _ => hkeep (note_detector J _)
    onEvent := fun _ => hkeep (hJ.onEvent env _)
    logs := fun _ _ _ => hkeep (hJ.appendEvent env _ _ _)
    handler := fun _ _ => hkeep (preserves_answer _)
    sandbox := fun _ => hkeep (preserves_answer _)
    hookRound := fun _ hf => Triple.bind (runHooks_detector env J _ _ _ _) fun _ =>
      Triple.bind (hJ.applyHookEffectsWithObserver env turnId _ _ _) fun applied =>
        hf applied trivial
    blocked := fun _ _ => .throw fun _ h => h }

theorem recordToolFailureResult_detector (call : ToolCall) (error : String) :
    Preserves (DetectorHas J)
      (recordToolFailureResult env turnId call error) :=
  ((walk_detector env turnId J).recordToolFailureResult fun _ _ =>
    ((apart_detector J).appendTranscriptMessage env turnId _).result
      fun _ _ h => ⟨trivial, h⟩).result fun _ _ h => h.2

/-- The detector has looked at the call and lets it pass. -/
def LetsPass (call : ToolCall) (detector : ToolLoopDetector) : Prop :=
  ∃ old, J old ∧ old.judgesCritical call = false ∧ detector = (old.inspect call).2

end

variable {J : ToolLoopDetector → Prop}
  (hJ : ∀ detector call outcome, J detector → J (detector.step (.call call outcome)))

include hJ

theorem inspectForLoops_detector (call : ToolCall) :
    Triple (DetectorHas J) (inspectForLoops env turnId call)
      (fun refusal rt => DetectorHas J rt ∧ (refusal = none → DetectorHas (LetsPass J call) rt))
      fun _ => DetectorHas J := by
  refine Triple.bind ((apart_detector J).reportToolLifecycle env turnId call _) fun _ =>
    .get_bind fun rt hrt => ?_
  dsimp only
  have hlost := hJ rt.toolLoopDetector call .lost hrt
  rw [ToolLoopDetector.step, ite_self] at hlost
  let J' : ToolLoopDetector → Prop := fun detector =>
    J detector ∧ (rt.toolLoopDetector.judgesCritical call = false → LetsPass J call detector)
  refine .bind (R := fun _ => DetectorHas J')
    (.modify fun _ _ => ⟨hlost, fun h => ⟨_, hrt, h, rfl⟩⟩) fun _ => ?_
  split
  next hnone =>
    refine .pure fun _ h => ⟨h.1, fun _ => h.2 ?_⟩
    simp [ToolLoopDetector.judgesCritical, hnone]
  next signal hsignal =>
    have hJ' := apart_detector J'
    refine .exits (show Triple _ _ _ fun _ => DetectorHas J' from ?_) fun _ _ h => h.1
    refine Triple.bind (note_detector J' _) fun _ => Triple.bind (hJ'.appendEvent env _ _ _)
      fun _ => Triple.bind (hJ'.onEvent env _) fun _ => ?_
    split
    next hwarning =>
      refine .pure fun _ h => ⟨h.1, fun _ => h.2 ?_⟩
      simp [ToolLoopDetector.judgesCritical, hsignal, hwarning]
    · exact .pure fun _ h => ⟨h.1, by simp⟩

theorem authorizeToolCall_detector (spec : ToolSpec) (call : ToolCall) :
    Triple (DetectorHas J) (authorizeToolCall env turnId spec call)
      (fun result rt => DetectorHas J rt ∧
        (result.2 = none → DetectorHas (LetsPass J result.1) rt)) fun _ => DetectorHas J := by
  have hwalk := walk_detector env turnId J
  refine Triple.bind (runHooks_detector env J _ _ _ _) fun _ => Triple.bind
    ((apart_detector J).applyHookEffectsWithObserver env turnId _ _ _) fun preEffects => ?_
  split
  · exact .pure fun _ h => ⟨h, nofun⟩
  refine (hwalk.reviewByHooks.result fun _ _ h => h.2).bind fun review => ?_
  split
  · exact .pure fun _ h => ⟨h, nofun⟩
  refine (hwalk.reviewByPolicy.result fun _ _ h => h.2).bind fun review => ?_
  split
  · exact .pure fun _ h => ⟨h, nofun⟩
  refine (hwalk.reviewByHandler.result fun _ _ h => h.2).bind fun review => ?_
  split
  · exact .pure fun _ h => ⟨h, nofun⟩
  · exact (inspectForLoops_detector env turnId hJ _).bind fun _ => .pure fun _ h => h

theorem executeToolCall_detector (call : ToolCall) :
    Triple (DetectorHas (LetsPass J call)) (executeToolCall env turnId call)
      (fun _ => DetectorHas J) fun _ => DetectorHas J := by
  have hstep : ∀ (outcome : CallOutcome) detector, LetsPass J call detector →
      J (outcome.rec detector (detector.recordResult call) (detector.recordError call)) := by
    rintro outcome _ ⟨old, hold, hpass, rfl⟩
    have hkept := hJ old call outcome hold
    cases outcome <;> rwa [ToolLoopDetector.step, hpass, if_neg Bool.false_ne_true] at hkept
  have hkeep {α : Type} {m : RuntimeM α}
      (h : Preserves (DetectorHas (LetsPass J call)) m) :=
    h.exits (E := fun _ => DetectorHas J) fun _ _ h => hstep .lost _ h
  have hpass := apart_detector (LetsPass J call)
  refine (hkeep hpass.tick).bind fun _ => (hkeep (preserves_answer _)).bind fun _ => ?_
  refine (hkeep hpass.tick).bind fun now => (hkeep (note_detector _ _)).bind fun _ => ?_
  split
  next result _ =>
    refine .bind (.bind (R := fun _ => DetectorHas J)
      (.modify fun _ h => hstep (.result result) _ h) fun _ => ?_) fun _ => Preserves.pure _
    refine ((apart_detector J).freshMessageId env).bind fun _ =>
      ((apart_detector J).appendTranscriptMessage env turnId _).bind fun _ => ?_
    exact (walk_detector env turnId J).afterToolResult.result fun _ _ h => h.2
  next error _ =>
    refine .bind (R := fun _ => DetectorHas J)
      (.modify fun _ h => hstep (.error error.text) _ h) fun _ => ?_
    exact (recordToolFailureResult_detector env turnId J call _).bind fun _ => Preserves.pure _

/-- **What the steps of the detector keep, the handling of a call keeps.** -/
theorem handleToolCall_detector (call : ToolCall) :
    Preserves (DetectorHas J) (handleToolCall env turnId call) := by
  unfold handleToolCall
  split
  · exact Preserves.throw _
  refine (authorizeToolCall_detector env turnId hJ _ call).bind fun result => ?_
  obtain ⟨call', refusal⟩ := result
  cases refusal with
  | some reason =>
    exact Triple.bind ((recordToolFailureResult_detector env turnId J call' reason).pre
      fun _ h => h.1) fun _ => Preserves.pure _
  | none => exact (executeToolCall_detector env turnId hJ call').pre fun _ h => h.2 rfl

omit hJ

/-- What the detector comes to by steps of the tool flow. -/
def DetectorReaches (detector detector' : ToolLoopDetector) : Prop :=
  ∃ actions, detector' = System.run ToolLoopDetector.step detector actions

/-- The detector of the runtime has come from `detector`. -/
def FollowsFrom (detector : ToolLoopDetector) (rt : AgentRuntime) : Prop :=
  DetectorReaches detector rt.toolLoopDetector

/-- **The tool flow changes the detector by its steps only**, whatever is answered. -/
theorem handleToolCall_follows (detector : ToolLoopDetector) (call : ToolCall) :
    Preserves (FollowsFrom detector) (handleToolCall env turnId call) := by
  refine handleToolCall_detector env turnId (J := DetectorReaches detector) ?_ call
  rintro _ call outcome ⟨actions, rfl⟩
  exact ⟨actions ++ [.call call outcome], by rw [System.run_append]; rfl⟩

end Flow

/-! ### Rounds -/

/-- A round of calls and what is answered in it. -/
structure Round where
  env : Env
  turnId : TurnId
  calls : List ToolCall
  stats : SkillCaptureRuntimeStats := {}

def AgentRuntime.handleRound (rt : AgentRuntime) (round : Round) : AgentRuntime :=
  ((handleToolCalls round.env round.turnId round.calls round.stats).exec rt).2

/-- What the handling of every call keeps holds after all rounds. -/
theorem rounds_invariant {I : AgentRuntime → Prop} {rt : AgentRuntime}
    (hI : ∀ env turnId call, Preserves I (handleToolCall env turnId call)) (h : I rt)
    (rounds : List Round) : I (System.run AgentRuntime.handleRound rt rounds) := by
  refine System.run_invariant (fun rt round h => ?_) h rounds
  have hround : Preserves I (handleToolCalls round.env round.turnId round.calls round.stats) :=
    .foldlM _ (fun _ _ => (hI _ _ _).bind fun _ => .pure _) _
  exact Triple.state_iff.mp hround rt h

/-- A locked detector refuses what everything else lets pass. -/
theorem handleToolCall_locked : Preserves
    (fun rt => rt.toolLoopDetector.Locked ∧ Since start NoExecute rt)
    (handleToolCall env turnId call) := by
  have hstep : ∀ (detector : ToolLoopDetector) call outcome, detector.Locked →
      (detector.step (.call call outcome)).Locked := fun _ _ _ h => h.step_call _ _
  refine Triple.state_iff.mpr fun rt ⟨hlocked, new, htrace, hno⟩ => ⟨?_, ?_⟩
  · exact Triple.state_iff.mp (handleToolCall_detector env turnId hstep call) rt hlocked
  have hrefused : Triple
      (fun s => s.toolLoopDetector.Locked ∧ Since rt.trace (fun new => new = []) s)
      (handleToolCall env turnId call) (fun _ => Since rt.trace NoExecute)
      fun _ => Since rt.trace NoExecute := by
    unfold handleToolCall
    split
    · refine .throw fun _ h => h.2.imp ?_
      rintro _ rfl
      exact noExecute_nil
    refine .bind (((authorizeToolCall_detector env turnId hstep _ call).and
      (authorizeToolCall_authorizes env turnId)).exits fun _ _ h => h.2) fun result => ?_
    obtain ⟨call', refusal⟩ := result
    cases refusal with
    | some reason =>
      exact .bind ((recordToolFailureResult_since env turnId (P := NoExecute) fun _ _ =>
        noExecute_after rfl fun _ h => h).pre fun _ h => h.2.2) fun _ => Preserves.pure _
    | none =>
      rintro rt ⟨⟨-, hpass⟩, -⟩
      obtain ⟨old, hold, hpass, -⟩ := hpass rfl
      exact absurd (hpass.symm.trans (hold call')) Bool.false_ne_true
  obtain ⟨later, hlater, hno'⟩ := Triple.state_iff.mp hrefused rt
    ⟨hlocked, [], (append_nil _).symm, rfl⟩
  exact ⟨new ++ later, by rw [hlater, htrace, append_assoc], forall_mem_append.mpr ⟨hno, hno'⟩⟩

/-- **A locked runtime runs no tool again** and stays locked, through any number of rounds,
which change the detector by its steps only. -/
theorem locked_runtime_runs_no_tool (rt : AgentRuntime) (hlocked : rt.toolLoopDetector.Locked)
    (rounds : List Round) :
    ((System.run AgentRuntime.handleRound rt rounds).toolLoopDetector.Locked ∧
      Since rt.trace NoExecute (System.run AgentRuntime.handleRound rt rounds)) ∧
    FollowsFrom rt.toolLoopDetector (System.run AgentRuntime.handleRound rt rounds) :=
  ⟨rounds_invariant (fun _ _ _ => handleToolCall_locked)
      ⟨hlocked, [], (append_nil _).symm, noExecute_nil⟩ rounds,
    rounds_invariant (fun env turnId => handleToolCall_follows env turnId _) ⟨[], rfl⟩ rounds⟩

/-- A round with one call, which the handler approves. -/
def writeRound : Round where
  env := reviewEnv (.setPermissionBehavior .allow none)
  turnId := ⟨"t"⟩
  calls := [writeCall]

theorem locked_runtime_refuses_write : Since [] NoExecute (System.run AgentRuntime.handleRound
      { freshRuntime with
        toolLoopDetector := System.run ToolLoopDetector.step { config := { enabled := true } }
          (ToolLoopDetector.probes 9) } [writeRound]) :=
  (locked_runtime_runs_no_tool _
    (ToolLoopDetector.locked_probed rfl (by decide) (by decide) (.inl (by decide))) _).1.2

end Nanoclaw
