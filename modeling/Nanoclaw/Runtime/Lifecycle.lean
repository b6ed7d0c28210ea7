import Nanoclaw.Runtime.HookEffects

/-!
# Session Lifecycle

Starting, ending and rotating the agent session of a runtime, switching it to another
session, loading instructions, steering, and rolling the visible history back.
-/

namespace Nanoclaw

section

variable (env : Env)

def startAgentSession (turnId : TurnId) (reason : String) : RuntimeM Unit := do
  if (← get).session.agentSessionStarted then return
  let batch ← runHooks env .sessionStart none [("reason", reason)] (.reason reason)
  let effects ← applyHookEffectsWithObserver env turnId batch none none
  match effects.blockedReason "session start blocked" with
  | some reason => throw (.hookBlocked reason)
  | none =>
    appendEvent env none none (.sessionStart (some reason))
    modifySession fun session => { session with agentSessionStarted := true }

/-- End the current agent session and start a fresh one on the same transcript. -/
def rotateAgentSession (turnId : TurnId) (endReason startReason : String) : RuntimeM Unit := do
  appendEvent env none none (.sessionEnd (some endReason))
  let nextAgentSessionId := env.freshAgentSessionId (← tick)
  modifySession fun session =>
    { session with
      agentSessionId := nextAgentSessionId
      agentSessionStarted := false
      tokenLedger := {} }
  resetProviderContinuation
  startAgentSession env turnId startReason

def recordInstructionLoad (turnId : TurnId) (instructions : List String) : RuntimeM Unit := do
  if instructions.isEmpty then return
  let batch ← runHooks env .instructionsLoaded (some turnId)
    [("reason", "runtime_instructions")] (.instructionCount instructions.length)
  let effects ← applyHookEffectsWithObserver env turnId batch none none
  match effects.blockedReason "instruction load blocked" with
  | some reason => throw (.hookBlocked reason)
  | none => appendEvent env (some turnId) none (.instructionsLoaded instructions.length)

def endSession (reason : Option String) : RuntimeM Unit := do
  if (← get).session.agentSessionStarted then
    appendEvent env none none (.sessionEnd reason)

/-- Drop what belongs to the session that is left. -/
def clearSessionScopedState : RuntimeM Unit := do
  clearPendingRequestEffects
  modify fun rt => { rt with toolLoopDetector := rt.toolLoopDetector.reset }

/-- Take over a reconstructed session. -/
def attachSession (session : RuntimeSession) : RuntimeM Unit := do
  modifySession fun _ =>
    { session with
      agentSessionStarted := false
      providerContinuation := none
      providerTranscriptCursor := 0
      tokenLedger := {} }
  clearSessionScopedState

/-- End the current agent session and take over a reconstructed one. -/
def resumeSession (session : RuntimeSession) : RuntimeM Unit := do
  endSession env (some "operator_resume_switch")
  attachSession session

/-- Steering appends a system message; it never edits earlier history. -/
def steerWithObserver (message : String) (reason : Option String) : RuntimeM Unit := do
  let turnId ← freshTurnId env
  let messageId ← freshMessageId env
  appendTranscriptMessage env turnId (Message.system message messageId)
  appendEvent env (some turnId) none (.steerApplied message reason)
  onEvent env (.steerApplied message reason)

/-- Apply the queued steers; the result tells whether there were any. -/
def drainRuntimeSteers : RuntimeM Bool := do
  let steers := env.pendingSteers (← tick)
  steers.forM fun steer => steerWithObserver env steer.message steer.reason
  return !steers.isEmpty

/-! ### Rolling back the visible history -/

/-- Hide one message and log the removal. -/
def removeVisibleMessage (turnId : TurnId) (messageId : MessageId) : RuntimeM Unit := do
  modifySession (·.removeMessage messageId)
  appendEvent env (some turnId) none (.transcriptMessageRemoved messageId)

/-- Remove a visible message and everything visible after it; returns what was removed. -/
def rollbackVisibleHistoryFromMessage (messageId : MessageId) : RuntimeM (List MessageId) := do
  let session := (← get).session
  let visibleIndices := session.visibleMessageIndices
  match visibleIndices.findIdx? fun i =>
      (session.transcript[i]?).any fun m => decide (m.messageId = messageId) with
  | none => throw (.invalidState
      ("cannot roll back from unknown visible message `" ++ messageId.value ++ "`"))
  | some startAt =>
    let removedMessageIds := (visibleIndices.drop startAt).filterMap fun i =>
      (session.transcript[i]?).map Message.messageId
    if removedMessageIds.isEmpty then return removedMessageIds
    let turnId ← freshTurnId env
    removedMessageIds.forM (removeVisibleMessage env turnId)
    resetProviderContinuation
    return removedMessageIds

end

end Nanoclaw
