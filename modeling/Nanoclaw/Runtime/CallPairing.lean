import Nanoclaw.Runtime.ToolLog
import Nanoclaw.Runtime.ToolPhase
import Nanoclaw.Runtime.TurnMoves

/-!
# Tool Calls and Their Results

Every visible tool call should be answered by exactly one result, in a later message
(`CallsAnswered`). The turn loop appends the message with all calls of a response before it
handles the first of them, and an error on the way leaves calls without a result.

`Env.PairsCalls` says that nothing fails while calls are open and nothing else tampers with them.
-/

namespace Nanoclaw

open List Exchange Proc

/-- **Every visible call has exactly one result, in a later message.** -/
def CallsAnswered (session : RuntimeSession) : Prop :=
  Paired (session.visibleTranscript.map Message.exchange)

theorem callsAnswered_iff {session : RuntimeSession} :
    CallsAnswered session ↔ Paired session.toolLog :=
  paired_loud_iff.symm

/-- The model asks at this time for a call with this identifier. -/
def Env.Requests (env : Env) (now : ℕ) (id : ToolCallId) : Prop :=
  ∃ request stream, env.streamTurn now request = .ok stream ∧
    id ∈ (streamCalls stream).map ToolCall.id

/-- **Nothing fails while calls are open, and nothing tampers with them**, from the given
state on. -/
structure Env.PairsCalls (env : Env) (session : RuntimeSession) : Prop extends
    env.ServesCalls, env.LeavesToolParts where
  registered : ∀ now request stream, env.streamTurn now request = .ok stream →
    ∀ call ∈ streamCalls stream, ∃ spec ∈ env.tools, spec.name = call.toolName
  distinct : ∀ now request stream, env.streamTurn now request = .ok stream →
    ((streamCalls stream).map ToolCall.id).Nodup
  apart : ∀ now now' id, env.Requests now id → env.Requests now' id → now = now'
  fresh : ∀ now id, env.Requests now id → id ∉ answersOf session.toolLog
  results : ∀ now name id arguments result,
    env.execute now name id arguments = .ok result → result.id = id
  messageIds : ∀ now, env.freshMessageId now ∉ session.removedMessageIds

/-! ### The invariant of the loop -/

/-- All visible calls but the waiting ones have results, and only calls have. -/
structure Balanced (env : Env) (start : RuntimeSession) (waiting : List ToolCallId)
    (rt : AgentRuntime) : Prop where
  window : rt.session.WindowValid
  removed : rt.session.removedMessageIds = start.removedMessageIds
  pending : Pending waiting rt.session.toolLog
  asked : ∀ id ∈ waiting, ∃ now < rt.clock, env.Requests now id
  known : ∀ id ∈ answersOf rt.session.toolLog,
    id ∈ answersOf start.toolLog ∨ ∃ now < rt.clock, env.Requests now id

variable {message : Message} {id : ToolCallId} {toolName : String} {now : ℕ}

section Balanced

variable {env : Env} {start : RuntimeSession} {waiting : List ToolCallId} {rt rt' : AgentRuntime}

theorem Balanced.init (hwindow : rt.session.WindowValid) (h : CallsAnswered rt.session) :
    Balanced env rt.session [] rt where
  window := hwindow
  removed := rfl
  pending := (callsAnswered_iff.mp h).pending nodup_nil nofun
  asked := nofun
  known _ h := .inl h

theorem asked_of_le {clock clock' : ℕ} (hclock : clock ≤ clock')
    (h : ∃ now < clock, env.Requests now id) : ∃ now < clock', env.Requests now id :=
  h.imp fun _ => .imp_left (·.trans_le hclock)

theorem Balanced.neutral (h : Balanced env start waiting rt)
    (hr : Reached (Neutral fun _ => False) rt.core rt.clock rt') :
    Balanced env start waiting rt' := by
  obtain ⟨hkept, hlog⟩ := hr.steps.toolLog_eq h.window
  have hlog' : rt'.session.toolLog = rt.session.toolLog := hlog
  exact ⟨hkept.window, hkept.removed.trans h.removed, hlog' ▸ h.pending,
    fun id hid => asked_of_le hr.clock (h.asked id hid),
    fun id hid => (h.known id (hlog' ▸ hid)).imp_right (asked_of_le hr.clock)⟩

theorem Balanced.compact (h : Balanced env start [] rt)
    (hr : Reached (Neutral fun tail => ∃ n, tail = rt.session.visibleMessageIndices.drop n)
      rt.core rt.clock rt') : Balanced env start [] rt' := by
  have hsteps : Steps (Neutral fun tail =>
      ∃ n, tail = rt.core.session.visibleMessageIndices.drop n) rt.core rt'.core := hr.steps
  obtain ⟨hkept, hsuffix⟩ := hsteps.toolLog_suffix h.window
  have hsuffix' : rt'.session.toolLog <:+ rt.session.toolLog := hsuffix
  refine ⟨hkept.window, hkept.removed.trans h.removed,
    (h.pending.paired.of_suffix hsuffix').pending nodup_nil nofun,
    nofun, fun id hid => ?_⟩
  obtain ⟨first, hfirst⟩ := hsuffix'
  have hmem : id ∈ answersOf rt.session.toolLog := by
    rw [← hfirst, answersOf_append]
    exact mem_append_right _ hid
  exact (h.known id hmem).imp_right (asked_of_le hr.clock)

/-- Appending a message whose results answer calls that waited. -/
theorem Balanced.push (h : Balanced env start waiting rt)
    (hsession : rt'.session = rt.session.pushMessage message) (hclock : rt.clock ≤ rt'.clock)
    {waiting' : List ToolCallId} (hwaiting : waiting' ⊆ waiting)
    (hpending : Pending waiting' rt'.session.toolLog)
    (hanswers : ∀ id ∈ answersOf rt'.session.toolLog,
      id ∈ answersOf rt.session.toolLog ∨ id ∈ waiting) : Balanced env start waiting' rt' where
  window := hsession ▸ h.window.of_length rfl rfl (by simp)
  removed := hsession ▸ h.removed
  pending := hpending
  asked id hid := asked_of_le hclock (h.asked id (hwaiting hid))
  known id hid := (hanswers id hid).elim
    (fun hid => (h.known id hid).imp_right (asked_of_le hclock))
    fun hid => .inr (asked_of_le hclock (h.asked id hid))

/-- Appending a message with calls that wait. -/
theorem Balanced.ask (h : Balanced env start waiting rt) {asks : List ToolCallId}
    (hx : message.exchange = ⟨asks, []⟩) (hasks : ∀ id ∈ asks, id ∈ waiting)
    (hsession : rt'.session = rt.session.pushMessage message) (hclock : rt.clock ≤ rt'.clock) :
    Balanced env start waiting rt' := by
  have hlog : rt'.session.toolLog = rt.session.toolLog ∨
      rt'.session.toolLog = rt.session.toolLog ++ [⟨asks, []⟩] := by
    rw [hsession, RuntimeSession.toolLog_pushMessage h.window]
    cases hm : rt.session.survives message with
    | false => exact .inl (by simp [hm, loud])
    | true =>
      cases hs : message.exchange.silent with
      | true => exact .inl (by simp [hm, loud_silent hs])
      | false =>
        have hloud := loud_of_not_silent hs
        rw [hx] at hloud
        exact .inr (by simp [hm, hx, hloud])
  have hanswers : answersOf rt'.session.toolLog = answersOf rt.session.toolLog := by
    rcases hlog with hlog | hlog <;> simp [hlog]
  refine h.push hsession hclock (Subset.refl _) ?_ fun id hid => .inl (hanswers ▸ hid)
  rcases hlog with hlog | hlog
  · exact hlog ▸ h.pending
  · exact hlog ▸ h.pending.ask hasks

/-- Appending the result of the first call that waits. -/
theorem Balanced.answer (h : Balanced env start (id :: waiting) rt)
    (hx : message.exchange = ⟨[], [id]⟩) (hid : message.messageId ∉ start.removedMessageIds)
    (hsession : rt'.session = rt.session.pushMessage message) (hclock : rt.clock ≤ rt'.clock) :
    Balanced env start waiting rt' := by
  have hlog : rt'.session.toolLog = rt.session.toolLog ++ [⟨[], [id]⟩] := by
    rw [hsession, RuntimeSession.toolLog_pushMessage_survives h.window (h.removed ▸ hid)
      (by rw [hx]; rfl), hx]
  refine h.push hsession hclock (subset_cons_self _ _) (hlog ▸ h.pending.answer) fun id' hid' => ?_
  rw [hlog, answersOf_append, mem_append] at hid'
  exact hid'.imp_right fun hid' => mem_cons.mpr (.inl (by simpa using hid'))

end Balanced

/-! ### The tool phase -/

section Loop

variable {env : Env} {start : RuntimeSession} {turnId : TurnId} (henv : env.PairsCalls start)

include henv

variable {α : Type} {Q : α → Prop} {result : ToolResult} {call : ToolCall} {iteration : ℕ}
  {stats : SkillCaptureRuntimeStats} {m : RuntimeM α}

/-- A method that moves by neutral changes keeps the balance on both exits. -/
theorem Moves.balanced (hm : Moves env (Neutral fun _ => False) m Q) (waiting : List ToolCallId) :
    Triple (Balanced env start waiting) m (fun a rt => Q a ∧ Balanced env start waiting rt)
      fun _ => Balanced env start waiting :=
  .of_state fun rt hrt => (hm.reaches henv.store rt).post
    (fun _ _ h => ⟨h.1, hrt.neutral h.2⟩) fun _ _ h => hrt.neutral h

theorem Moves.preserves (hm : Moves env (Neutral fun _ => False) m Q)
    (waiting : List ToolCallId) : Preserves (Balanced env start waiting) m :=
  (hm.balanced henv waiting).result fun _ _ h => h.2

theorem appendTranscriptMessage_balanced {P Q : AgentRuntime → Prop}
    (h : ∀ rt rt', P rt → rt'.session = rt.session.pushMessage message →
      rt.clock ≤ rt'.clock → Q rt') :
    Triple P (appendTranscriptMessage env turnId message) (fun _ => Q) (fun _ _ => False) := by
  intro rt hrt
  unfold appendTranscriptMessage
  rw [exec_bind]
  simp only [exec_appendEvent, henv.store]
  exact h rt _ hrt rfl rt.clock.le_succ

/-- A message identifier drawn by the runtime is not that of a removed message. -/
theorem freshMessageId_balanced (waiting : List ToolCallId) :
    Triple (Balanced env start waiting) (freshMessageId env)
      (fun id rt => id ∉ start.removedMessageIds ∧ Balanced env start waiting rt)
      fun _ => Balanced env start waiting :=
  (freshMessageId_moves.balanced henv waiting).result
    fun id _ h => ⟨by obtain ⟨now, rfl⟩ := h.1; exact henv.messageIds now, h.2⟩

variable {waiting : List ToolCallId}

/-- Recording a result answers the first waiting call. -/
theorem recordResult_balanced (hid : result.id = id) {f : Unit → RuntimeM α}
    (hf : ∀ u, Moves env (Neutral fun _ => False) (f u) Q) :
    Triple (Balanced env start (id :: waiting))
      (do
        let messageId ← freshMessageId env
        appendTranscriptMessage env turnId (Message.toolResult result messageId) >>= f)
      (fun _ => Balanced env start waiting) fun _ _ => True := by
  refine .bind ((freshMessageId_balanced henv _).exits fun _ _ _ => trivial) fun messageId => ?_
  refine .bind ((appendTranscriptMessage_balanced henv fun rt rt' hrt hsession hclock =>
    hrt.2.answer (by rw [Message.exchange_toolResult, hid]) hrt.1 hsession hclock).exits
      fun _ _ h => h.elim) fun u => ?_
  exact ((hf u).preserves henv waiting).exits fun _ _ _ => trivial

theorem recordToolFailureResult_balanced {error : String} :
    Triple (Balanced env start (call.id :: waiting))
      (recordToolFailureResult env turnId call error)
      (fun _ => Balanced env start waiting) fun _ _ => True := by
  have hid : (ToolResultOf.error call.id call.callId call.toolName error).id = call.id := rfl
  exact recordResult_balanced henv hid fun _ => (walk_moves
    (neutral_rotating fun _ => False).toInternal
      (henv.toLeavesToolParts.respects fun _ => False)).afterToolFailure

theorem recordToolResult_balanced (hid : result.id = call.id) :
    Triple (Balanced env start (call.id :: waiting)) (recordToolResult env turnId call result)
      (fun _ => Balanced env start waiting) fun _ _ => True := by
  refine .bind (R := fun _ => Balanced env start (call.id :: waiting))
    (.modify fun _ h => { h with }) fun _ => ?_
  have hid' : ({ result with callId := call.callId } : ToolResult).id = call.id := hid
  exact recordResult_balanced henv hid' fun _ => (walk_moves
    (neutral_rotating fun _ => False).toInternal
      (henv.toLeavesToolParts.respects fun _ => False)).afterToolResult

theorem executeToolCall_balanced :
    Triple (Balanced env start (call.id :: waiting)) (executeToolCall env turnId call)
      (fun _ => Balanced env start waiting) fun _ _ => True := by
  have hneutral : ∀ {α : Type} {m : RuntimeM α} {Q : α → Prop},
      Moves env (Neutral fun _ => False) m Q →
      Triple (Balanced env start (call.id :: waiting)) m
        (fun _ => Balanced env start (call.id :: waiting)) fun _ _ => True := fun hm =>
    (hm.preserves henv _).exits fun _ _ _ => trivial
  refine (hneutral tick_moves).bind fun _ => (hneutral (answer_moves _)).bind fun _ => ?_
  refine (hneutral tick_moves).bind fun now => (hneutral (note_moves _)).bind fun _ => ?_
  split
  next result hresult =>
    exact (recordToolResult_balanced henv (henv.results _ _ _ _ _ hresult)).bind fun _ =>
      .pure fun _ h => h
  · refine .bind (R := fun _ => Balanced env start (call.id :: waiting))
      (.modify fun _ h => { h with }) fun _ => ?_
    exact (recordToolFailureResult_balanced henv).bind fun _ => .pure fun _ h => h

/-- **Handling a call answers it.** -/
theorem handleToolCall_balanced (hregistered : ∃ spec ∈ env.tools, spec.name = call.toolName) :
    Triple (Balanced env start (call.id :: waiting)) (handleToolCall env turnId call)
      (fun _ => Balanced env start waiting) (fun _ => Balanced env start []) := by
  have hinternal := (neutral_rotating fun _ => False).toInternal
  have hrespects := henv.toLeavesToolParts.respects fun _ => False
  suffices hkeeps : Triple (Balanced env start (call.id :: waiting))
      (handleToolCall env turnId call) (fun _ => Balanced env start waiting) fun _ _ => True from
    ((handleToolCall_returns henv.toServesCalls hregistered).and_triple hkeeps).result
      fun _ _ h => h.2
  unfold handleToolCall
  split
  · exact .throw fun _ _ => trivial
  refine .bind ((((walk_moves hinternal hrespects).authorizeToolCall modifyDetector_moves).balanced
    henv _).exits fun _ _ _ => trivial) fun authorized => ?_
  obtain ⟨call', refusal⟩ := authorized
  refine .of_state fun rt hrt => .at_state ?_ hrt.2
  rw [← show call'.id = call.id from hrt.1]
  cases refusal with
  | some reason => exact (recordToolFailureResult_balanced henv).bind fun _ => .pure fun _ h => h
  | none => exact executeToolCall_balanced henv

/-- **Handling the calls of a response answers them all.** -/
theorem handleToolCalls_balanced {calls : List ToolCall}
    (hregistered : ∀ call ∈ calls, ∃ spec ∈ env.tools, spec.name = call.toolName)
    (stats : SkillCaptureRuntimeStats) :
    Triple (Balanced env start (calls.map ToolCall.id)) (handleToolCalls env turnId calls stats)
      (fun _ => Balanced env start []) (fun _ => Balanced env start []) := by
  induction calls generalizing stats with
  | nil => exact .pure fun _ h => h
  | cons call calls ih =>
    obtain ⟨hcall, hcalls⟩ := forall_mem_cons.mp hregistered
    refine .bind ?_ fun stats => ih hcalls stats
    exact (handleToolCall_balanced henv hcall).bind fun _ => .pure fun _ h => h

/-! ### A round of the loop -/

omit henv in
theorem exchange_assistantResponse (response : TurnResponse) (id : MessageId) :
    (Message.assistantParts (assistantResponseParts response) id).exchange =
      ⟨response.toolCalls.map ToolCall.id, []⟩ := by
  cases h : response.assistantText.isEmpty <;>
    simp [Message.exchange, messageToolCallIds, messageToolResultIds, Message.assistantParts,
      Message.new, assistantResponseParts, filterMap_map]

/-- A response whose calls are new may be recorded; its calls then wait. -/
theorem persistAssistantResponse_balanced {response : TurnResponse} :
    Triple (Balanced env start (response.toolCalls.map ToolCall.id))
      (persistAssistantResponse env turnId response)
      (fun _ => Balanced env start (response.toolCalls.map ToolCall.id))
      (fun _ => Balanced env start []) := by
  unfold persistAssistantResponse
  split
  · exact .pure fun _ h => h
  -- While the identifier is drawn nothing can fail: the clock only ticks.
  refine .bind (freshMessageId_returns.and_triple
    ((freshMessageId_moves (A := Neutral fun _ => False)).balanced henv _)) fun freshId => ?_
  exact (appendTranscriptMessage_balanced henv fun rt rt' hrt hsession hclock =>
    hrt.2.2.ask (exchange_assistantResponse _ _) (fun _ h => h) hsession hclock).exits
      fun _ _ h => h.elim

variable {instructions : List String}

theorem collectModelResponse_balanced :
    Triple (Balanced env start []) (collectModelResponse env turnId instructions iteration stats)
      (fun answer rt => (∀ call ∈ answer.1.toolCalls, ∃ spec ∈ env.tools,
        spec.name = call.toolName) ∧
        Balanced env start (answer.1.toolCalls.map ToolCall.id) rt)
      (fun _ => Balanced env start []) := by
  refine .of_state fun rt hrt => ?_
  refine ((collectModelResponse_reaches (neutral_rotating fun _ => False)).at_state
    (.refl rt)).post (fun answer rt' h => ?_) fun _ rt' h => hrt.neutral (h.reached henv.store)
  obtain ⟨⟨stream, ⟨now, request, hsince, hnow, hstream⟩, hcalls⟩, hreached⟩ := h
  have hrequests : ∀ id ∈ answer.1.toolCalls.map ToolCall.id, env.Requests now id :=
    fun id hid => ⟨request, stream, hstream, hcalls ▸ hid⟩
  rw [hcalls]
  refine ⟨henv.registered now request stream hstream, ?_⟩
  have hbalanced := hrt.neutral hreached
  refine { hbalanced with
    pending := hbalanced.pending.paired.pending (henv.distinct now request stream hstream)
      fun id hid hmem => ?_
    asked := fun id hid => ⟨now, hnow, hrequests id (hcalls ▸ hid)⟩ }
  -- A result known before this response answers an older request.
  have hreq := hrequests id (hcalls ▸ hid)
  obtain ⟨-, hlog⟩ := hreached.steps.toolLog_eq hrt.window
  have hlog' : rt'.session.toolLog = rt.session.toolLog := hlog
  rcases hrt.known id (hlog' ▸ hmem) with hstart | ⟨before, hbefore, hreq'⟩
  · exact henv.fresh now id hreq hstart
  · have := henv.apart now before id hreq hreq'
    omega

/-- **Step lemma.** A round of the loop keeps all calls answered, on both exits. -/
theorem turnRound_balanced :
    Preserves (Balanced env start []) (turnRound env turnId instructions iteration stats) := by
  have hinternal := (neutral_rotating fun _ => False).toInternal
  have hrespects := henv.toLeavesToolParts.respects fun _ => False
  have hcompact : Preserves (Balanced env start []) (compactIfNeeded env turnId instructions) := by
    refine .of_state fun rt hrt => ?_
    refine (compactIfNeeded_reaches (A := Neutral fun tail =>
      ∃ n, tail = rt.session.visibleMessageIndices.drop n) (neutral_rotating _)
      (henv.toLeavesToolParts.respects _) rt fun _ _ splitAt _ _ _ _ _ _ _ => ⟨splitAt, rfl⟩).post
      (fun _ _ h => hrt.compact h) fun _ _ h => hrt.compact (h.reached henv.store)
  refine hcompact.bind fun _ => (collectModelResponse_balanced henv).bind fun collected => ?_
  obtain ⟨response, stats⟩ := collected
  refine .of_state fun rt hrt => .at_state ?_ hrt.2
  have hregistered : ∀ call ∈ response.toolCalls, ∃ spec ∈ env.tools,
      spec.name = call.toolName := hrt.1
  refine (persistAssistantResponse_balanced henv).bind fun _ => ?_
  refine Triple.bind (R := fun _ => Balanced env start (response.toolCalls.map ToolCall.id))
    (.modify fun _ h => { h with }) fun _ => ?_
  cases hcalls : response.toolCalls with
  | nil => exact ((finishTurn_moves hinternal hrespects).preserves henv []).bind fun _ => .pure _
  | cons call calls =>
    rw [hcalls] at hregistered
    refine (handleToolCalls_balanced henv hregistered _).bind fun _ => ?_
    exact ((settleToolRound_moves hinternal hrespects).preserves henv []).bind fun _ => .pure _

/-- **Run lemma.** The loop keeps all calls answered, on both exits. -/
theorem turnLoop_balanced (fuel iteration : ℕ) (stats : SkillCaptureRuntimeStats) :
    Preserves (Balanced env start []) (turnLoop env turnId instructions fuel iteration stats) := by
  induction fuel generalizing iteration stats with
  | zero => exact .pure _
  | succ fuel ih =>
    refine (turnRound_balanced henv).bind fun result => ?_
    obtain ⟨outcome, stats⟩ := result
    cases outcome with
    | some outcome => exact .pure _
    | none => exact ih _ stats

end Loop

/-- **Every exit of the turn loop has all visible calls answered**, if nothing fails or tampers. -/
theorem turn_loop_answers_calls {env : Env} {rt : AgentRuntime}
    (henv : env.PairsCalls rt.session) (hwindow : rt.session.WindowValid)
    (hanswered : CallsAnswered rt.session) (turnId : TurnId) (instructions : List String)
    (fuel : ℕ) : CallsAnswered ((runTurnLoop env turnId instructions fuel).exec rt).2.session := by
  have hstart : Balanced env rt.session [] rt := .init hwindow hanswered
  rw [callsAnswered_iff, runTurnLoop]
  exact (Triple.state_iff.mp (turnLoop_balanced henv fuel 0 {}) rt hstart).pending.paired

/-! ### One call -/

def echoTool : ToolSpec where
  name := ⟨"echo"⟩
  description := ""
  inputSchema := none
  approval := {}

/-- A call of a tool, with empty arguments. -/
def callOf (toolName : String) : ToolCall where
  id := ⟨"call-1"⟩
  callId := ⟨"call-1"⟩
  toolName := ⟨toolName⟩
  arguments := .object []
  origin := .local

/-- One call is asked for, then texts follow. The tool `echo` is registered. -/
def oneCallEnv (toolName : String) : Env :=
  { quietEnv with
    tools := [echoTool]
    streamTurn := fun now _ =>
      if now = 4 then .ok [.ok (.toolCallRequested (callOf toolName))]
      else .ok [.ok (.textDelta "done")] }

theorem oneCallEnv_stream {request : ModelRequest}
    {stream : ModelStream} (h : (oneCallEnv toolName).streamTurn now request = .ok stream) :
    now = 4 ∧ streamCalls stream = [callOf toolName] ∨ streamCalls stream = [] := by
  simp only [oneCallEnv] at h
  split at h <;> cases h
  next hnow => exact .inl ⟨hnow, rfl⟩
  · exact .inr rfl

theorem oneCallEnv_requests (h : (oneCallEnv toolName).Requests now id) : now = 4 := by
  obtain ⟨request, stream, hstream, hid⟩ := h
  rcases oneCallEnv_stream hstream with ⟨hnow, -⟩ | hnil
  · exact hnow
  · rw [hnil] at hid
    cases hid

theorem oneCallEnv_pairsCalls : (oneCallEnv "echo").PairsCalls freshRuntime.session where
  store _ _ := rfl
  observer _ _ := rfl
  handler _ _ := ⟨_, rfl⟩
  sandbox _ := rfl
  toolHooks _ _ _ := ⟨[], rfl, forall_mem_nil _, fun _ => forall_mem_nil _⟩
  hooks _ _ _ h := by
    cases h
    exact forall_mem_nil _
  async _ _ h := absurd h not_mem_nil
  registered now request stream h call hcall := by
    rcases oneCallEnv_stream h with ⟨-, hcalls⟩ | hcalls <;> rw [hcalls] at hcall
    · cases mem_singleton.mp hcall
      exact ⟨echoTool, mem_singleton_self _, rfl⟩
    · cases hcall
  distinct now request stream h := by
    rcases oneCallEnv_stream h with ⟨-, hcalls⟩ | hcalls <;> rw [hcalls]
    · exact nodup_singleton _
    · exact nodup_nil
  apart _ _ _ h h' := (oneCallEnv_requests h).trans (oneCallEnv_requests h').symm
  fresh := nofun
  results _ _ _ _ _ h := by
    cases h
    rfl
  messageIds _ := Finset.notMem_empty _

theorem freshRuntime_callsAnswered : CallsAnswered freshRuntime.session :=
  fun before entry later h => absurd h (by simp [freshRuntime, AgentRuntime.new,
    RuntimeSession.visibleTranscript, RuntimeSession.visibleMessageIndices, RuntimeSession.new])

/-- A call of a registered tool is answered when the loop returns. -/
theorem echo_call_answered : (((runTurnLoop (oneCallEnv "echo") ⟨"t"⟩ [] 3).exec
        freshRuntime).2.session.visibleTranscript.map Message.exchange =
      [⟨[⟨"call-1"⟩], []⟩, ⟨[], [⟨"call-1"⟩]⟩, ⟨[], []⟩]) ∧
    CallsAnswered ((runTurnLoop (oneCallEnv "echo") ⟨"t"⟩ [] 3).exec freshRuntime).2.session :=
  ⟨by decide +kernel, turn_loop_answers_calls oneCallEnv_pairsCalls
    (RuntimeSession.windowValid_new _ _) freshRuntime_callsAnswered _ _ _⟩

/-- **A call of an unknown tool stays open**: the loop records it and exits with an error. -/
theorem unknown_tool_leaves_call_open :
    ((runTurnLoop (oneCallEnv "missing") ⟨"t"⟩ [] 3).exec freshRuntime).1 =
      .error (.tool "tool not found: missing") ∧
    CallsAnswered freshRuntime.session ∧
    ¬ CallsAnswered ((runTurnLoop (oneCallEnv "missing") ⟨"t"⟩ [] 3).exec
      freshRuntime).2.session := by
  have hvisible : ((runTurnLoop (oneCallEnv "missing") ⟨"t"⟩ [] 3).exec
      freshRuntime).2.session.visibleTranscript.map Message.exchange =
        [] ++ ⟨[⟨"call-1"⟩], []⟩ :: [] := by decide +kernel
  refine ⟨by decide +kernel, freshRuntime_callsAnswered, fun h => ?_⟩
  have hsettled := h [] _ [] hvisible ⟨"call-1"⟩ (mem_singleton_self _)
  exact absurd hsettled.2 not_mem_nil

end Nanoclaw
