import Nanoclaw.Runtime.Compaction
import Nanoclaw.Runtime.ToolFlow

/-!
# The Turn Loop

`runTurnLoop` is the loop of one user turn: compact if the history is too long, ask the model,
record its answer, handle its tool calls one after the other, and go on until the model asks for
none and no hook or steer wants another round. The loop of the source has no bound; here it runs
on a fuel and returns `none` when it is used up.
-/

namespace Nanoclaw

structure RunTurnOutcome where
  turnId : TurnId
  assistantText : String
  deriving DecidableEq

/-- What a streamed model response adds up to. -/
structure TurnResponse where
  assistantText : String := ""
  toolCalls : List ToolCall := []
  assistantReasoning : List Reasoning := []
  assistantMessageId : Option MessageId := none
  providerContinuation : Option ProviderContinuation := none
  tokenUsage : Option TokenUsage := none

/-- A response as the backend streams it. -/
abbrev ModelStream : Type :=
  List (Except RuntimeError ModelEvent)

/-! ### Counters shown to the model -/

structure SkillCaptureRuntimeStats where
  toolCallCount : ℕ := 0
  failedToolCallCount : ℕ := 0
  providerRetryCount : ℕ := 0

namespace SkillCaptureRuntimeStats

variable (stats : SkillCaptureRuntimeStats)

def recordToolResult (outcome : ToolExecutionDisposition) : SkillCaptureRuntimeStats :=
  { stats with
    toolCallCount := saturatingAdd stats.toolCallCount 1
    failedToolCallCount := if outcome = .failed then saturatingAdd stats.failedToolCallCount 1
      else stats.failedToolCallCount }

def recordProviderRetry : SkillCaptureRuntimeStats :=
  { stats with providerRetryCount := saturatingAdd stats.providerRetryCount 1 }

def errorRecoverySignalCount : ℕ :=
  saturatingAdd stats.failedToolCallCount stats.providerRetryCount

def renderAdditionalContext : String :=
  "## Runtime Skill Capture Signals\n" ++
  "These host counters describe the current turn so far. Treat them as authoritative " ++
  "instead of estimating task complexity or recovery work from memory.\n" ++
  "- tool_calls_so_far: " ++ toString stats.toolCallCount ++ "\n" ++
  "- failed_tool_calls_so_far: " ++ toString stats.failedToolCallCount ++ "\n" ++
  "- provider_retries_so_far: " ++ toString stats.providerRetryCount ++ "\n" ++
  "- error_recovery_signals_so_far: " ++ toString stats.errorRecoverySignalCount ++ "\n" ++
  "Use these counters when deciding whether the finished workflow is complex, " ++
  "failure-prone, or reusable enough to justify `skill_manage` before you conclude the task."

end SkillCaptureRuntimeStats

def skillCaptureContextHeader : String := "## Runtime Skill Capture Signals"

def maxProviderRequestRetries : ℕ := 5

/-- One block of counters per request: an older one is dropped. -/
def injectSkillCaptureContext (additionalContext : List String)
    (stats : SkillCaptureRuntimeStats) : List String :=
  (additionalContext.filter fun entry =>
    !skillCaptureContextHeader.toList.isPrefixOf entry.toList) ++
    [stats.renderAdditionalContext]

def ModelRequest.withSkillCapture (request : ModelRequest) (stats : SkillCaptureRuntimeStats) :
    ModelRequest :=
  { request with
    additionalContext := injectSkillCaptureContext request.additionalContext stats }

/-! ### Building a request -/

def isProviderContinuationLost : RuntimeError → Bool
  | .providerContinuationLost _ => true
  | _ => false

def modelBackendRetryHint : RuntimeError → Option ℕ
  | .modelBackend _ retryStatus => retryStatus
  | _ => none

section

variable (env : Env)

/-- What is sent of the history: all that is visible, or, without tool calls and results in it, what
was appended since the recorded response. -/
def requestWindow (session : RuntimeSession) : List Message × Option ProviderContinuation :=
  if !env.providerManagedHistory then (session.visibleTranscript, none)
  else match session.providerContinuation with
    | none => (session.visibleTranscript, none)
    | some continuation =>
      let start := min session.providerTranscriptCursor session.transcript.length
      let delta := (session.transcript.drop start).filter session.survives
      if delta.any messageContainsToolProtocolItems then (session.visibleTranscript, none)
      else (delta, some continuation)

def buildModelRequest (turnId : TurnId) (instructions : List String)
    (forceFullTranscript : Bool) (rt : AgentRuntime) : ModelRequest :=
  let window := if forceFullTranscript then (rt.session.visibleTranscript, none)
    else requestWindow env rt.session
  { sessionId := rt.session.sessionId
    agentSessionId := rt.session.agentSessionId
    turnId
    instructions := instructions ++ rt.pendingInjectedInstructions
    messages := window.1
    tools := modelVisibleToolSpecs env
    additionalContext := rt.pendingAdditionalContext
    continuation := window.2 }

variable (turnId : TurnId) (instructions : List String)

def recordRequestTokenWindow (contextWindow : ContextWindowUsage) :
    RuntimeM TokenLedgerSnapshot := do
  modifySession fun session =>
    { session with
      tokenLedger := { session.tokenLedger with contextWindow := some contextWindow } }
  return (← get).session.tokenLedger

def recordResponseTokenUsage (usage : Option TokenUsage) : RuntimeM TokenLedgerSnapshot := do
  modifySession fun session =>
    { session with
      tokenLedger := { session.tokenLedger with
        lastUsage := usage
        cumulativeUsage := match usage with
          | some usage => session.tokenLedger.cumulativeUsage.accumulate usage
          | none => session.tokenLedger.cumulativeUsage } }
  return (← get).session.tokenLedger

def publishModelRequestStarted (iteration : ℕ) (request : ModelRequest) : RuntimeM Unit := do
  appendEvent env (some turnId) none (.modelRequestStarted request)
  let ledger ← recordRequestTokenWindow
    { usedTokens := estimatePromptTokens request.instructions request.messages request.tools
        request.additionalContext
      maxTokens := env.compactionConfig.contextWindowTokens }
  appendEvent env (some turnId) none (.tokenUsageUpdated .requestStarted ledger)
  onEvent env (.modelRequestStarted turnId iteration)
  onEvent env (.tokenUsageUpdated .requestStarted ledger)

/-- Build a request and announce it. -/
def prepareRequest (iteration : ℕ) (forceFullTranscript : Bool)
    (stats : SkillCaptureRuntimeStats) : RuntimeM ModelRequest := do
  let request := (buildModelRequest env turnId instructions forceFullTranscript
    (← get)).withSkillCapture stats
  publishModelRequestStarted env turnId iteration request
  return request

/-! ### Streaming a response -/

/-- After a failure `recover` takes its own errors, `retry` those to retry. -/
def attemptStream (recover : RuntimeError → Option (SkillCaptureRuntimeStats →
      RuntimeM (ModelStream × SkillCaptureRuntimeStats)))
    (retry : RuntimeError → ℕ → RuntimeM (ModelStream × SkillCaptureRuntimeStats))
    (request : ModelRequest) (stats : SkillCaptureRuntimeStats) :
    RuntimeM (ModelStream × SkillCaptureRuntimeStats) := do
  let now ← tick
  modify fun rt => { rt with requests := rt.requests ++ [(now, request)] }
  match env.streamTurn now request with
  | .ok stream => return (stream, stats)
  | .error error =>
    match recover error with
    | some rebuild => rebuild stats
    | none =>
      match modelBackendRetryHint error with
      | some statusCode => retry error statusCode
      | none => throw error

/-- Ask the backend, with the given number of retries left. -/
def streamWithRetries (iteration : ℕ) (recover : RuntimeError → Option (SkillCaptureRuntimeStats →
      RuntimeM (ModelStream × SkillCaptureRuntimeStats))) :
    ℕ → ModelRequest → SkillCaptureRuntimeStats → RuntimeM (ModelStream × SkillCaptureRuntimeStats)
  | 0, request, stats => attemptStream env recover (fun error _ => throw error) request stats
  | remaining + 1, request, stats =>
    attemptStream env recover
      (fun _ statusCode => do
        let stats := stats.recordProviderRetry
        onEvent env (.providerRetryScheduled turnId iteration statusCode
          (maxProviderRequestRetries - remaining))
        onEvent env (.modelRequestStarted turnId iteration)
        streamWithRetries iteration recover remaining (request.withSkillCapture stats) stats)
      request stats

/-- The provider lost the continuation: forget it and send the full history. -/
def rebuildLostRequest (iteration : ℕ) (error : RuntimeError)
    (stats : SkillCaptureRuntimeStats) : RuntimeM (ModelStream × SkillCaptureRuntimeStats) := do
  resetProviderContinuation
  appendEvent env (some turnId) none (.notification "provider_state" error.text)
  onEvent env (.notification "provider_state" error.text)
  let request ← prepareRequest env turnId instructions iteration true stats
  streamWithRetries env turnId iteration (fun _ => none) maxProviderRequestRetries request stats

def openStream (iteration : ℕ) (stats : SkillCaptureRuntimeStats) :
    RuntimeM (ModelStream × SkillCaptureRuntimeStats) := do
  let request ← prepareRequest env turnId instructions iteration false stats
  let recover (error : RuntimeError) :=
    if request.continuation.isSome && isProviderContinuationLost error then
      some (rebuildLostRequest env turnId instructions iteration error)
    else none
  streamWithRetries env turnId iteration recover maxProviderRequestRetries request stats

/-- Fold one event of the stream into the response. -/
def readModelEvent (response : TurnResponse) (event : Except RuntimeError ModelEvent) :
    RuntimeM TurnResponse := do
  match ← answer event with
  | .textDelta delta =>
    onEvent env (.assistantTextDelta delta)
    return { response with assistantText := response.assistantText ++ delta }
  | .toolCallRequested call =>
    onEvent env (.toolCallRequested call)
    return { response with toolCalls := response.toolCalls ++ [call] }
  | .responseComplete messageId continuation usage reasoning =>
    let freshId ← freshMessageId env
    return { response with
      assistantMessageId := some (messageId.getD freshId)
      providerContinuation := continuation
      assistantReasoning := reasoning
      tokenUsage := usage }
  | .error message => throw (.modelBackendMessage message)

def collectModelResponse (iteration : ℕ)
    (stats : SkillCaptureRuntimeStats) : RuntimeM (TurnResponse × SkillCaptureRuntimeStats) := do
  let (stream, stats) ← openStream env turnId instructions iteration stats
  let response ← stream.foldlM (readModelEvent env) {}
  appendEvent env (some turnId) none (.modelResponseCompleted response.assistantText
    response.toolCalls response.providerContinuation)
  onEvent env (.modelResponseCompleted response.assistantText response.toolCalls)
  let ledger ← recordResponseTokenUsage response.tokenUsage
  appendEvent env (some turnId) none (.tokenUsageUpdated .responseCompleted ledger)
  onEvent env (.tokenUsageUpdated .responseCompleted ledger)
  clearPendingRequestEffects
  return (response, stats)

/-! ### Recording the answer and stopping -/

/-- The parts of the assistant message: text, reasoning, calls. -/
def assistantResponseParts (response : TurnResponse) : List MessagePart :=
  (if response.assistantText.isEmpty then [] else [.text response.assistantText]) ++
    response.assistantReasoning.map .reasoning ++ response.toolCalls.map .toolCall

def persistAssistantResponse (response : TurnResponse) : RuntimeM Unit := do
  if response.assistantText.isEmpty && response.toolCalls.isEmpty &&
      response.assistantReasoning.isEmpty then return
  let freshId ← freshMessageId env
  appendTranscriptMessage env turnId (Message.assistantParts (assistantResponseParts response)
    (response.assistantMessageId.getD freshId))

/-- Ask the `Stop` hooks; the result tells whether the turn goes on. -/
def handleStopHooks (assistantText : String) : RuntimeM Bool := do
  let stopHooks ← runHooks env .stop (some turnId) [("reason", "assistant_complete")]
    (.assistantText assistantText)
  let stopEffects ← applyHookEffectsWithObserver env turnId stopHooks none none
  match stopEffects.blockedReason "stop blocked" with
  | none => return false
  | some reason =>
    appendEvent env (some turnId) none (.stopFailure (some reason))
    if stopEffects.appendedMessages.isEmpty && stopEffects.additionalContext.isEmpty &&
        stopEffects.injectedInstructions.isEmpty then
      throw (.hookBlocked reason)
    else return true

/-! ### The loop -/

/-- Handle the calls of a response one after the other. -/
def handleToolCalls (calls : List ToolCall) (stats : SkillCaptureRuntimeStats) :
    RuntimeM SkillCaptureRuntimeStats :=
  calls.foldlM
    (fun stats call => do
      let outcome ← handleToolCall env turnId call
      return stats.recordToolResult outcome)
    stats

/-- After the calls of a response: late hook answers and steers. -/
def settleToolRound : RuntimeM Unit := do
  let drained := env.drainAsyncInvocations (← tick)
  let _ ← applyHookEffectsWithObserver env turnId drained none none
  let _ ← drainRuntimeSteers env

/-- Without calls the turn ends, unless a hook or a steer goes on. -/
def finishTurn (assistantText : String) : RuntimeM (Option RunTurnOutcome) := do
  if ← handleStopHooks env turnId assistantText then return none
  if ← drainRuntimeSteers env then return none
  appendEvent env (some turnId) none (.stop (some "assistant_complete"))
  onEvent env (.turnCompleted turnId assistantText)
  return some { turnId, assistantText }

/-- One round of the loop; the outcome is there when the turn is over. -/
def turnRound (iteration : ℕ) (stats : SkillCaptureRuntimeStats) :
    RuntimeM (Option RunTurnOutcome × SkillCaptureRuntimeStats) := do
  let _ ← compactIfNeeded env turnId instructions
  let (response, stats) ← collectModelResponse env turnId instructions iteration stats
  persistAssistantResponse env turnId response
  updateProviderContinuation response.providerContinuation
  if response.toolCalls.isEmpty then
    return (← finishTurn env turnId response.assistantText, stats)
  else
    let stats ← handleToolCalls env turnId response.toolCalls stats
    settleToolRound env turnId
    return (none, stats)

def turnLoop : ℕ → ℕ → SkillCaptureRuntimeStats → RuntimeM (Option RunTurnOutcome)
  | 0, _, _ => return none
  | fuel + 1, iteration, stats => do
    let iteration := saturatingAdd iteration 1
    let (outcome, stats) ← turnRound env turnId instructions iteration stats
    match outcome with
    | some outcome => return some outcome
    | none => turnLoop fuel iteration stats

/-- The loop of a user turn, cut off after `fuel` rounds. -/
def runTurnLoop (fuel : ℕ) : RuntimeM (Option RunTurnOutcome) :=
  turnLoop env turnId instructions fuel 0 {}

end

end Nanoclaw
