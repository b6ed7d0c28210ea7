import Nanoclaw.Lib.Proc
import Nanoclaw.Runtime.Change
import Nanoclaw.Runtime.LoopDetection

/-!
# The Agent Runtime and Its Environment

The state of an `AgentRuntime`, everything outside of it that it talks to (`Env`), and the
primitive operations its methods are written in.

The methods are programs `RuntimeM α = Proc AgentRuntime RuntimeError α`, which keep the state
written before an error, as `?` does. Everything that is decided elsewhere is answered by an
environment indexed by a clock that advances with every question, so a statement for all
environments is one for all answers. No method reads `trace` and `continuationBase`, which are
there for statements.
-/

namespace Nanoclaw

/-! ### Approval requests -/

structure ToolApprovalRequest where
  call : ToolCall
  spec : ToolSpec
  reasons : List String

inductive ToolApprovalOutcome where
  | approve
  | deny (reason : Option String)
  deriving DecidableEq

inductive ToolApprovalPolicyDecision where
  | allow
  | ask (reason : Option String)
  | deny (reason : Option String)
  | abstain

/-! ### Compaction requests -/

structure CompactionConfig where
  enabled : Bool := false
  contextWindowTokens : ℕ := 200000
  triggerTokens : ℕ := 150000
  preserveRecentMessages : ℕ := 8

structure CompactionRequest where
  messages : List Message
  visibleMessages : List Message
  instructions : Option String

/-! ### The environment -/

structure AugmentedUserMessage where
  prefixMessages : List Message
  message : Message

structure SteerCommand where
  message : String
  reason : Option String

/-- Everything the runtime asks. The first argument of an answer is the clock. -/
structure Env where
  /-- The store accepts an event or reports an error. -/
  store : ℕ → SessionEventEnvelope → Except RuntimeError Unit
  observer : ℕ → RuntimeProgressEvent → Except RuntimeError Unit
  runHooks : ℕ → HookContext → Except RuntimeError HookInvocationBatch
  drainAsyncInvocations : ℕ → HookInvocationBatch
  /-- The steers queued at a safe point. -/
  pendingSteers : ℕ → List SteerCommand
  augment : ℕ → Message → AugmentedUserMessage
  compact : ℕ → CompactionRequest → Except RuntimeError String
  streamTurn : ℕ → ModelRequest → Except RuntimeError (List (Except RuntimeError ModelEvent))
  approvalPolicy : ℕ → ToolApprovalRequest → ToolApprovalPolicyDecision
  approvalHandler : ℕ → ToolApprovalRequest → Except RuntimeError ToolApprovalOutcome
  /-- The sandbox policy that the sticky grants give for the next tool run. -/
  effectiveSandboxPolicy : ℕ → Except RuntimeError Unit
  /-- Run a tool under a call identifier with the given arguments. -/
  execute : ℕ → ToolName → ToolCallId → Value → Except RuntimeError ToolResult
  freshMessageId : ℕ → MessageId
  freshTurnId : ℕ → TurnId
  freshAgentSessionId : ℕ → AgentSessionId
  /-- The registered tools. -/
  tools : List ToolSpec
  /-- Which registered tools the model is shown. -/
  isModelVisible : ToolSpec → Bool
  providerManagedHistory : Bool
  compactionConfig : CompactionConfig
  baseInstructions : List String

/-- The store may reject the event at some time. -/
def Env.Rejects (env : Env) (event : SessionEventKind) : Prop :=
  ∃ now envelope e, envelope.event = event ∧ env.store now envelope = .error e

/-! ### The runtime state -/

/-- A question that decides about a tool call, with its answer. -/
inductive Interaction where
  | hooks (context : HookContext) (answers : HookInvocationBatch)
  | policy (request : ToolApprovalRequest) (decision : ToolApprovalPolicyDecision)
  | handler (request : ToolApprovalRequest) (outcome : ToolApprovalOutcome)
  | loopSignal (call : ToolCall) (signal : LoopSignal)
  | execute (toolName : ToolName) (id : ToolCallId) (arguments : Value)

structure AgentRuntime where
  session : RuntimeSession
  /-- The events the store holds for the session, oldest first. -/
  log : List SessionEventEnvelope
  toolLoopDetector : ToolLoopDetector
  pendingAdditionalContext : List String := []
  pendingInjectedInstructions : List String := []
  /-- The number of questions asked so far. -/
  clock : ℕ := 0
  /-- The interactions so far, oldest first. -/
  trace : List Interaction := []
  /-- The visible transcript when the provider continuation was recorded. -/
  continuationBase : List Message := []
  /-- The requests so far, each with the time of the question. -/
  requests : List (ℕ × ModelRequest) := []

abbrev RuntimeM (α : Type) : Type :=
  Proc AgentRuntime RuntimeError α

namespace AgentRuntime

/-- A runtime over a session, with an empty log. -/
def new (session : RuntimeSession) (loopDetection : LoopDetectionConfig) : AgentRuntime where
  session := session
  log := []
  toolLoopDetector := { config := loopDetection }

/-- The session, its log and the recorded continuation base. -/
def core (rt : AgentRuntime) : Core where
  session := rt.session
  log := rt.log
  continuationBase := rt.continuationBase

end AgentRuntime

/-! ### Primitive operations -/

/-- Advance the clock and return the time before. -/
def tick : RuntimeM ℕ := do
  let now := (← get).clock
  modify fun rt => { rt with clock := now + 1 }
  return now

def note (interaction : Interaction) : RuntimeM Unit :=
  modify fun rt => { rt with trace := rt.trace ++ [interaction] }

def modifySession (f : RuntimeSession → RuntimeSession) : RuntimeM Unit :=
  modify fun rt => { rt with session := f rt.session }

/-- Return the value of an answer or exit with its error. -/
def answer {α : Type} : Except RuntimeError α → RuntimeM α
  | .ok a => return a
  | .error e => throw e

section

variable (env : Env)

/-- The store takes the event, or its error is thrown and the log is as before. -/
def storeAppend (event : SessionEventEnvelope) : RuntimeM Unit := do
  answer (env.store (← tick) event)
  modify fun rt => { rt with log := rt.log ++ [event] }

def onEvent (event : RuntimeProgressEvent) : RuntimeM Unit := do
  answer (env.observer (← tick) event)

def freshMessageId : RuntimeM MessageId :=
  return env.freshMessageId (← tick)

def freshTurnId : RuntimeM TurnId :=
  return env.freshTurnId (← tick)

def appendEvent (turnId : Option TurnId) (toolCallId : Option ToolCallId)
    (event : SessionEventKind) : RuntimeM Unit := do
  let session := (← get).session
  storeAppend env
    { sessionId := session.sessionId, agentSessionId := session.agentSessionId
      turnId, toolCallId, event }

/-- Append a message to the transcript and log it. -/
def appendTranscriptMessage (turnId : TurnId) (message : Message) : RuntimeM Unit := do
  modifySession (·.pushMessage message)
  appendEvent env (some turnId) none (.transcriptMessage message)

def appendHookMessages (turnId : TurnId) (messages : List Message) : RuntimeM Unit :=
  messages.forM (appendTranscriptMessage env turnId)

/-- Log a tool lifecycle event and return what the observer is shown of it. -/
def appendToolLifecycleEvent (turnId : TurnId) (call : ToolCall) (event : SessionEventKind) :
    RuntimeM RuntimeProgressEvent := do
  appendEvent env (some turnId) (some call.id) event
  return .toolLifecycle event

def resetProviderContinuation : RuntimeM Unit :=
  modifySession RuntimeSession.clearContinuation

def updateProviderContinuation (continuation : Option ProviderContinuation) : RuntimeM Unit :=
  modify fun rt =>
    { rt with
      session := { rt.session with
        providerContinuation := continuation
        providerTranscriptCursor := rt.session.transcript.length }
      continuationBase := rt.session.visibleTranscript }

def clearPendingRequestEffects : RuntimeM Unit :=
  modify fun rt =>
    { rt with pendingAdditionalContext := [], pendingInjectedInstructions := [] }

/-- Ask the hooks of an event. -/
def runHooks (event : HookEvent) (turnId : Option TurnId) (fields : List (String × String))
    (payload : HookPayload) : RuntimeM HookInvocationBatch := do
  let session := (← get).session
  let context : HookContext :=
    { event, sessionId := session.sessionId, agentSessionId := session.agentSessionId
      turnId, fields, payload }
  let answers ← answer (env.runHooks (← tick) context)
  note (.hooks context answers)
  return answers

end

/-! ### A quiet environment -/

/-- Nothing is refused and nothing is added: no hooks, and a fixed summary. -/
def quietEnv : Env where
  store _ _ := .ok ()
  observer _ _ := .ok ()
  runHooks _ _ := .ok []
  drainAsyncInvocations _ := []
  pendingSteers _ := []
  augment _ message := { prefixMessages := [], message }
  compact _ _ := .ok "summary"
  streamTurn _ _ := .ok []
  approvalPolicy _ _ := .abstain
  approvalHandler _ _ := .ok .approve
  effectiveSandboxPolicy _ := .ok ()
  execute _ name id _ := .ok (ToolResultOf.error id ⟨id.value⟩ name "")
  freshMessageId now := ⟨"m" ++ toString now⟩
  freshTurnId now := ⟨"t" ++ toString now⟩
  freshAgentSessionId now := ⟨"a" ++ toString now⟩
  tools := []
  isModelVisible _ := true
  providerManagedHistory := false
  compactionConfig := { preserveRecentMessages := 2 }
  baseInstructions := []

def freshRuntime : AgentRuntime :=
  AgentRuntime.new (RuntimeSession.new ⟨"s"⟩ ⟨"a"⟩) {}

end Nanoclaw
