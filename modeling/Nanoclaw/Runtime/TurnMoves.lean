import Nanoclaw.Runtime.Moves
import Nanoclaw.Runtime.ToolWalk
import Nanoclaw.Runtime.TurnLoop

/-!
# The Turn Loop Moves by Changes

`Moves` for the handling of tool calls and for the turn loop. A response is read from a
stream that the backend answered with while it was collected (`Streamed`), so its calls
are calls of that answer.
-/

namespace Nanoclaw

open Proc

/-! ### Tool calls -/

variable {stats : SkillCaptureRuntimeStats} {start : Core} {A : Allowed} {since iteration : ℕ}
  {env : Env}

section ToolCalls

variable {turnId : TurnId}

theorem modifyDetector_moves (f : AgentRuntime → ToolLoopDetector) :
    Moves env A (modify fun rt => { rt with toolLoopDetector := f rt }) fun _ => True :=
  .of_core (fun _ => rfl) fun _ => le_rfl

variable (hA : Internal A) (henv : env.Respects A)

include hA henv

/-- The handling of a call moves by changes, as every part of it does. -/
theorem walk_moves : Walk env turnId (fun _ m Q => Moves env A m Q) fun _ _ => True where
  pure := .pure
  bind := .bind
  get _ _ := .get fun _ hs => ⟨trivial, hs⟩
  tick := tick_moves
  freshMessageId := freshMessageId_moves.weaken fun _ _ => trivial
  note := note_moves
  onEvent := onEvent_moves
  logs _ _ := hA.logs
  handler _ _ := (answer_moves _).weaken fun _ _ => trivial
  sandbox _ := (answer_moves _).weaken fun _ _ => trivial
  hookRound _ hf := hookRound_moves hA henv pushable_none fun applied _ => hf applied trivial
  blocked _ _ := .throw _

variable (hpush : ∀ result id, Pushable A (Message.toolResult result id))

include hpush

theorem handleToolCalls_moves {calls : List ToolCall} :
    Moves env A (handleToolCalls env turnId calls stats) fun _ => True :=
  .foldlM calls (fun _ _ _ _ => .bind ((walk_moves hA henv).handleToolCall (fun _ id =>
    appendTranscriptMessage_moves fun core => hpush _ id core turnId) modifyDetector_moves
      fun _ => .throw _) fun _ _ => .pure trivial) trivial

end ToolCalls

/-! ### Model responses -/

/-- The calls a stream asks for. -/
def streamCalls (stream : ModelStream) : List ToolCall :=
  stream.filterMap fun
    | .ok (.toolCallRequested call) => some call
    | _ => none

/-- The backend answered with this stream since the given time. -/
def Streamed (env : Env) (since : ℕ) (stream : ModelStream) (rt : AgentRuntime) : Prop :=
  ∃ now request, since ≤ now ∧ now < rt.clock ∧ env.streamTurn now request = .ok stream

/-- A method that moves by changes and returns a streamed answer of the backend. -/
def Streams (env : Env) (A : Allowed) (start : Core) (since : ℕ)
    (m : RuntimeM (ModelStream × SkillCaptureRuntimeStats)) : Prop :=
  Triple (Reached A start since) m
    (fun answer rt => Streamed env since answer.1 rt ∧ Reached A start since rt)
    fun _ => Left env A start since

theorem Streams.bind {β : Type} {R : β → Prop} {m : RuntimeM β}
    {f : β → RuntimeM (ModelStream × SkillCaptureRuntimeStats)} (hm : Moves env A m R)
    (hf : ∀ b, Streams env A start since (f b)) : Streams env A start since (m >>= f) :=
  Triple.bind (hm start since) fun b => (hf b).pre fun _ h => h.2

variable {instructions : List String} {response : TurnResponse}

section Responses

variable {turnId : TurnId}

variable
  {recover : RuntimeError →
    Option (SkillCaptureRuntimeStats → RuntimeM (ModelStream × SkillCaptureRuntimeStats))}

theorem attemptStream_streams
    {retry : RuntimeError → ℕ → RuntimeM (ModelStream × SkillCaptureRuntimeStats)}
    {request : ModelRequest} (hrecover : ∀ error rebuild, recover error = some rebuild →
      ∀ stats, Streams env A start since (rebuild stats))
    (hretry : ∀ error statusCode, Streams env A start since (retry error statusCode)) :
    Streams env A start since (attemptStream env recover retry request stats) := by
  refine Triple.bind (R := fun now rt => (since ≤ now ∧ now < rt.clock) ∧
    Reached A start since rt) (fun rt hs => ⟨⟨hs.clock, rt.clock.lt_succ_self⟩, hs.same rfl
      rt.clock.le_succ⟩) fun now => ?_
  have hdrop : ∀ {m : RuntimeM (ModelStream × SkillCaptureRuntimeStats)},
      Streams env A start since m → Triple (fun rt => (since ≤ now ∧ now < rt.clock) ∧
        Reached A start since rt) m
        (fun answer rt => Streamed env since answer.1 rt ∧ Reached A start since rt)
        fun _ => Left env A start since := fun hm =>
    hm.pre fun _ h => h.2
  refine Triple.bind (R := fun _ rt => (since ≤ now ∧ now < rt.clock) ∧ Reached A start since rt)
    (Triple.modify fun rt hs => ⟨hs.1, hs.2.same rfl le_rfl⟩) fun _ => ?_
  split
  next stream hstream =>
    exact Triple.pure fun rt hs => ⟨⟨now, request, hs.1.1, hs.1.2, hstream⟩, hs.2⟩
  next error _ =>
    split
    next rebuild hrebuild => exact hdrop (hrecover error rebuild hrebuild stats)
    · split
      · exact hdrop (hretry error _)
      · exact Triple.throw fun _ hs => hs.2.left

theorem streamWithRetries_streams (hrecover : ∀ error rebuild, recover error = some rebuild →
      ∀ stats, Streams env A start since (rebuild stats)) (remaining : ℕ) (request : ModelRequest)
    (stats : SkillCaptureRuntimeStats) :
    Streams env A start since
      (streamWithRetries env turnId iteration recover remaining request stats) := by
  induction remaining generalizing request stats with
  | zero => exact attemptStream_streams hrecover fun error _ => .throw fun _ hs => hs.left
  | succ remaining ih =>
    refine attemptStream_streams hrecover fun error statusCode => ?_
    exact .bind (onEvent_moves _) fun _ => .bind (onEvent_moves _) fun _ => ih _ _

variable (hA : Rotating A)

include hA

/-- The ledger is written and logged. -/
theorem usage_moves {α : Type} {Q : α → Prop} (step : UsageStep) {m : RuntimeM TokenLedgerSnapshot}
    (hm : ∀ rt, m.exec rt = (.ok (step.record rt.session.tokenLedger), { rt with
      session := { rt.session with tokenLedger := step.record rt.session.tokenLedger } }))
    {f : TokenLedgerSnapshot → RuntimeM α} (hf : ∀ ledger, Moves env A (f ledger) Q) :
    Moves env A (do
      let ledger ← m
      appendEvent env (some turnId) none (.tokenUsageUpdated step.phase ledger)
      f ledger) Q := by
  intro start since rt hs
  simp only [exec_bind, hm, exec_appendEvent]
  generalize hstore : env.store _ _ = response
  cases response with
  | ok _ =>
    exact hf _ start since _ (hs.change (.usage turnId step) (hA.usage _ _ _) trivial rfl
      rt.clock.le_succ)
  | error e =>
    exact hs.interrupted (.usage turnId step) (hA.usage _ _ _) trivial ⟨_, _, _, rfl, hstore⟩ .usage
      rt.clock.le_succ

theorem prepareRequest_moves {forceFullTranscript : Bool} :
    Moves env A (prepareRequest env turnId instructions iteration forceFullTranscript stats)
      fun _ => True := by
  refine .read fun rt => ?_
  refine Moves.bind (R := fun _ => True) ?_ fun _ _ => Moves.pure trivial
  refine (hA.logs rfl).bind fun _ _ => ?_
  refine usage_moves hA (.request _) (fun _ => rfl) fun ledger => ?_
  exact (onEvent_moves _).bind fun _ _ => onEvent_moves _

theorem openStream_streams :
    Streams env A start since (openStream env turnId instructions iteration stats) := by
  have hrebuild : ∀ error stats, Streams env A start since
      (rebuildLostRequest env turnId instructions iteration error stats) := fun error stats =>
    .bind (resetProviderContinuation_moves hA.reset) fun _ =>
      .bind (hA.logs rfl) fun _ =>
        .bind (onEvent_moves _) fun _ => .bind (prepareRequest_moves hA)
          fun request => streamWithRetries_streams
            (fun _ _ hnone => absurd hnone (Option.some_ne_none _).symm) _ _ _
  refine .bind (prepareRequest_moves hA) fun request => ?_
  refine streamWithRetries_streams (fun error rebuild hsome stats => ?_) _ _ _
  split at hsome
  · cases hsome
    exact hrebuild error stats
  · cases hsome

omit hA in
/-- Reading an event adds its call to the response, if it is one. -/
theorem readModelEvent_moves {event : Except RuntimeError ModelEvent} :
    Moves env A (readModelEvent env response event) fun response' =>
      response'.toolCalls = response.toolCalls ++ streamCalls [event] := by
  refine (answer_moves _).bind fun model hmodel => ?_
  subst hmodel
  cases model with
  | textDelta delta => exact (onEvent_moves _).bind fun _ _ => Moves.pure (List.append_nil _).symm
  | toolCallRequested call => exact (onEvent_moves _).bind fun _ _ => .pure rfl
  | responseComplete messageId continuation usage reasoning =>
    exact freshMessageId_moves.bind fun _ _ => Moves.pure (List.append_nil _).symm
  | error message => exact .throw _

omit hA in
/-- A response has the calls of its stream, in their order. -/
theorem readStream_moves {stream : ModelStream} :
    Moves env A (stream.foldlM (readModelEvent env) response) fun response' =>
      response'.toolCalls = response.toolCalls ++ streamCalls stream := by
  induction stream generalizing response with
  | nil => exact Moves.pure (List.append_nil _).symm
  | cons event stream ih =>
    refine readModelEvent_moves.bind fun response₁ h₁ => ih.weaken fun response₂ h₂ => ?_
    have hcons : streamCalls (event :: stream) = streamCalls [event] ++ streamCalls stream :=
      List.filterMap_append (l := [event])
    rw [h₂, h₁, hcons, List.append_assoc]

/-- **A collected response was streamed while it was collected.** -/
theorem collectModelResponse_reaches :
    Triple (Reached A start since) (collectModelResponse env turnId instructions iteration stats)
      (fun answer rt => (∃ stream, Streamed env since stream rt ∧
        answer.1.toolCalls = streamCalls stream) ∧ Reached A start since rt)
      fun _ => Left env A start since := by
  refine .bind (openStream_streams hA) fun opened => ?_
  obtain ⟨stream, stats⟩ := opened
  refine .of_state fun rt hrt => ?_
  obtain ⟨⟨now, request, hsince, hnow, hstream⟩, hreached⟩ := hrt
  -- From here on the clock is past the answer, so the answer stays in the past.
  have hpast : Reached A start (now + 1) rt := ⟨hreached.steps, hnow⟩
  refine (Moves.from_state (Q := fun answer => answer.1.toolCalls = streamCalls stream) ?_
    hpast).post
    (fun answer s h => ⟨⟨stream, ⟨now, request, hsince, h.2.clock, hstream⟩, h.1⟩, h.2.steps, ?_⟩)
    fun _ s h => ⟨h.aborts, ?_⟩
  · refine readStream_moves.bind fun response hresponse => ?_
    refine (hA.logs rfl).bind fun _ _ => ?_
    refine (onEvent_moves _).bind fun _ _ => ?_
    refine usage_moves hA (.response _) (fun _ => rfl) fun ledger => ?_
    refine (onEvent_moves _).bind fun _ _ => .bind (R := fun _ => True)
      (.of_core (fun _ => rfl) fun _ => le_rfl) fun _ _ => .pure ?_
    exact hresponse
  · exact (hsince.trans (now.le_succ)).trans h.2.clock
  · exact (hsince.trans (now.le_succ)).trans h.clock

end Responses

/-! ### The loop -/

section Loop

variable {turnId : TurnId}

theorem updateProviderContinuation_moves {continuation : Option ProviderContinuation}
    (hA : ∀ core, A core (.record continuation)) :
    Moves env A (updateProviderContinuation continuation) fun _ => True := fun _ _ =>
  .modify fun _ hs => ⟨trivial, hs.change (.record continuation) (hA _) trivial rfl le_rfl⟩

theorem persistAssistantResponse_moves
    (hpush : ∀ id, Pushable A (Message.assistantParts (assistantResponseParts response) id)) :
    Moves env A (persistAssistantResponse env turnId response) fun _ => True := by
  unfold persistAssistantResponse
  split
  · exact .pure trivial
  · exact freshMessageId_moves.bind fun id _ =>
      appendTranscriptMessage_moves fun core => hpush _ core turnId

variable (hA : Internal A) (henv : env.Respects A) {assistantText : String}

include hA henv

theorem handleStopHooks_moves :
    Moves env A (handleStopHooks env turnId assistantText) fun _ => True := by
  refine hookRound_moves hA henv pushable_none fun applied _ => ?_
  split
  · exact .pure trivial
  · refine (hA.logs rfl).bind fun _ _ => ?_
    split
    · exact .throw _
    · exact .pure trivial

theorem settleToolRound_moves : Moves env A (settleToolRound env turnId) fun _ => True :=
  tick_moves.bind fun now _ => (applyHookEffectsWithObserver_moves hA (henv.async now)
    pushable_none).bind fun _ _ => (drainRuntimeSteers_moves hA).bind fun _ _ =>
      .pure trivial

theorem finishTurn_moves : Moves env A (finishTurn env turnId assistantText) fun _ => True := by
  refine (handleStopHooks_moves hA henv).bind fun goesOn _ => ?_
  split
  · exact .pure trivial
  refine (drainRuntimeSteers_moves hA).bind fun steered _ => ?_
  split
  · exact .pure trivial
  refine (hA.logs rfl).bind fun _ _ => ?_
  exact (onEvent_moves _).bind fun _ _ => .pure trivial

end Loop

section WholeLoop

variable {turnId : TurnId} (hA : Compacting A)
  (henv : env.Respects A) (hpush : ∀ message, Pushable A message)
  (hrecord : ∀ core continuation, A core (.record continuation))

include hA henv hpush hrecord

theorem turnRound_moves :
    Moves env A (turnRound env turnId instructions iteration stats) fun _ => True := by
  have hcollect : Moves env A (collectModelResponse env turnId instructions iteration stats)
      fun _ => True := fun _ _ =>
    (collectModelResponse_reaches hA.toRotating).result fun _ _ h => ⟨trivial, h.2⟩
  refine (compactIfNeeded_moves hA henv).bind fun _ _ => hcollect.bind fun collected _ => ?_
  refine (persistAssistantResponse_moves fun _ => hpush _).bind fun _ _ => ?_
  refine (updateProviderContinuation_moves fun core => hrecord core _).bind fun _ _ => ?_
  split
  · exact (finishTurn_moves hA.toInternal henv).bind fun _ _ => .pure trivial
  · refine (handleToolCalls_moves hA.toInternal henv fun _ _ => hpush _).bind fun _ _ => ?_
    exact (settleToolRound_moves hA.toInternal henv).bind fun _ _ => .pure trivial

/-- **The turn loop moves by changes.** -/
theorem turnLoop_moves (fuel iteration : ℕ) (stats : SkillCaptureRuntimeStats) :
    Moves env A (turnLoop env turnId instructions fuel iteration stats) fun _ => True := by
  induction fuel generalizing iteration stats with
  | zero => exact .pure trivial
  | succ fuel ih =>
    refine (turnRound_moves hA henv hpush hrecord).bind fun result _ => ?_
    obtain ⟨outcome, stats⟩ := result
    cases outcome with
    | some outcome => exact .pure trivial
    | none => exact ih _ stats

end WholeLoop

end Nanoclaw
