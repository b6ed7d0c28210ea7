import Nanoclaw.Runtime.Lifecycle

/-!
# Compaction of the Visible History

`compactVisibleHistory` summarises the older part of the visible transcript, keeps a tail of
recent messages, and moves the runtime to a fresh agent session. `selectCompactionSplitIndex`
chooses where the two parts meet. The loops run on a fuel that bounds them: each iteration moves
the split to the left.
-/

namespace Nanoclaw

variable (visibleMessages messages : List Message)

def retainedTailMinTokens : ℕ := 10000

def retainedTailMinTextMessages : ℕ := 5

/-- What a retained tail should hold at least. -/
structure ContextFloor where
  minTokens : ℕ
  minTextMessages : ℕ

/-- The floor of the source, given by its two constants. -/
def retainedTailFloor : ContextFloor := ⟨retainedTailMinTokens, retainedTailMinTextMessages⟩

/-! ### Estimates -/

def estimateMessageTokens (message : Message) : ℕ :=
  Text.divCeil (message.textContent.utf8ByteSize + 32) 4

def estimateMessagesTokens : ℕ :=
  (messages.map estimateMessageTokens).sum

def messageHasTextContent (message : Message) : Bool :=
  (decide (message.role = .user) || decide (message.role = .assistant)) &&
    !(Text.trim message.textContent).isEmpty

def countTextMessages : ℕ :=
  messages.countP messageHasTextContent

def estimatePromptTokens (instructions : List String) (messages : List Message)
    (tools : List ToolSpec) (additionalContext : List String) : ℕ :=
  let chars := (instructions.map String.utf8ByteSize).sum +
    (additionalContext.map String.utf8ByteSize).sum +
    (messages.map fun m => m.textContent.utf8ByteSize + 32).sum +
    (tools.map fun tool => tool.name.value.utf8ByteSize + tool.description.utf8ByteSize +
      (tool.inputSchema.map String.utf8ByteSize).getD 0).sum
  Text.divCeil chars 4

/-! ### Choosing the split -/

def alignSplitAtToRequestRoundBoundary (splitAt : ℕ) : Option ℕ :=
  let splitAt := requestRoundStart visibleMessages splitAt
  if 2 ≤ splitAt then some splitAt else none

def previousRequestRoundStart (splitAt : ℕ) : Option ℕ :=
  (List.range' 2 (splitAt - 2)).reverse.find? (startsRequestRound visibleMessages)

/-- The messages from one index up to another. -/
def messagesBetween (start stop : ℕ) : List Message :=
  (messages.take stop).drop start

def expandRetainedTailLoop (floor : ContextFloor) (visibleMessages : List Message) :
    ℕ → ℕ → ℕ → ℕ → Option ℕ
  | 0, splitAt, _, _ => some splitAt
  | fuel + 1, splitAt, retainedTokens, retainedTextMessages =>
    if 2 < splitAt ∧
        (retainedTokens < floor.minTokens ∨ retainedTextMessages < floor.minTextMessages) then
      match previousRequestRoundStart visibleMessages splitAt with
      | none => none
      | some start =>
        let round := messagesBetween visibleMessages start splitAt
        expandRetainedTailLoop floor visibleMessages fuel start
          (retainedTokens + estimateMessagesTokens round)
          (retainedTextMessages + countTextMessages round)
    else some splitAt

def expandRetainedTailForContextFloor (floor : ContextFloor) (visibleMessages : List Message)
    (splitAt : ℕ) : Option ℕ :=
  if estimateMessagesTokens visibleMessages < floor.minTokens then some splitAt
  else
    let tail := visibleMessages.drop splitAt
    expandRetainedTailLoop floor visibleMessages splitAt splitAt
      (estimateMessagesTokens tail) (countTextMessages tail)

/-- The results whose call is not among the messages. -/
def missingToolCallIds : List ToolCallId :=
  let toolCallIds := messages.flatMap messageToolCallIds
  (messages.flatMap messageToolResultIds).filter fun id => decide (id ∉ toolCallIds)

def findPreviousToolCallIndex (splitAt : ℕ) (requiredCallIds : List ToolCallId) : Option ℕ :=
  (List.range splitAt).reverse.find? fun index =>
    (visibleMessages[index]?).any fun m =>
      (messageToolCallIds m).any fun id => decide (id ∈ requiredCallIds)

def adjustSplitAtLoop : ℕ → ℕ → Option ℕ
  | 0, _ => none
  | fuel + 1, splitAt =>
    let missingCallIds := missingToolCallIds (visibleMessages.drop splitAt)
    if missingCallIds.isEmpty then some splitAt
    else match findPreviousToolCallIndex visibleMessages splitAt missingCallIds with
      | none => none
      | some previousCallIndex =>
        if previousCallIndex < 2 then none
        else adjustSplitAtLoop fuel previousCallIndex

def adjustSplitAtForToolPairs (splitAt : ℕ) : Option ℕ :=
  adjustSplitAtLoop visibleMessages (splitAt + 1) splitAt

def selectCompactionSplitIndex (preserveRecentMessages : ℕ) : Option ℕ :=
  let count := visibleMessages.length
  if count < 2 then none
  else
    let splitAt := count - min preserveRecentMessages (count - 1)
    if splitAt < 2 then none
    else if splitAt = count then some splitAt
    else
      (alignSplitAtToRequestRoundBoundary visibleMessages splitAt).bind fun splitAt =>
        (expandRetainedTailForContextFloor retainedTailFloor visibleMessages splitAt).bind
          fun splitAt =>
          (adjustSplitAtForToolPairs visibleMessages splitAt).bind fun splitAt =>
            alignSplitAtToRequestRoundBoundary visibleMessages splitAt

/-! ### Compacting -/

section

variable (env : Env)

/-- The instructions of the caller, then those of the hooks. -/
def compactionInstructions (instructions : Option String) (injected : List String) :
    Option String :=
  if injected.isEmpty then instructions
  else
    let injected := "\n\n".intercalate injected
    match instructions with
    | some existing => some (existing ++ "\n\n" ++ injected)
    | none => some injected

/-- Append and log the summary, move the window to it and log the checkpoint. -/
def commitCompaction (turnId : TurnId) (reason summary : String) (sourceMessageCount : ℕ)
    (retainedTailIndices : List ℕ) : RuntimeM MessageId := do
  let session := (← get).session
  let retainedTailMessageIds := retainedTailIndices.filterMap fun i => session.ids[i]?
  let summaryIndex := session.transcript.length
  let summaryMessageId ← freshMessageId env
  appendTranscriptMessage env turnId (Message.system summary summaryMessageId)
  resetProviderContinuation
  modifySession (·.installWindow summaryIndex retainedTailIndices)
  appendEvent env (some turnId) none
    (.compactionCompleted reason sourceMessageCount retainedTailIndices.length summary.length
      (some summaryMessageId) retainedTailMessageIds)
  return summaryMessageId

/-- Summarise the source messages and carry the compaction through. -/
def runCompaction (turnId : TurnId) (reason : String) (instructions : Option String)
    (postCompactionInstructions : Option (List String))
    (sourceMessages visibleMessages : List Message) (compactedThrough : MessageId)
    (retainedTailIndices : List ℕ) : RuntimeM Bool := do
  let counts := (sourceMessages.length, retainedTailIndices.length)
  let preHooks ← runHooks env .preCompact (some turnId) [("reason", reason)]
    (.preCompact reason counts.1 counts.2)
  let preEffects ← applyHookEffectsWithObserver env turnId preHooks none none
  if (preEffects.blockedReason "compaction blocked").isSome then return false
  let summary ← answer (env.compact (← tick)
    { messages := sourceMessages, visibleMessages
      instructions := compactionInstructions instructions preEffects.injectedInstructions })
  let summaryMessageId ← commitCompaction env turnId reason summary counts.1 retainedTailIndices
  onEvent env (.compactionCompleted reason counts.1 counts.2 summary compactedThrough
    summaryMessageId)
  let postHooks ← runHooks env .postCompact (some turnId) [("reason", reason)]
    (.postCompact reason counts.1 counts.2 summary)
  let _ ← applyHookEffectsWithObserver env turnId postHooks none none
  rotateAgentSession env turnId "compaction" "compaction"
  match postCompactionInstructions with
  | some instructions => recordInstructionLoad env turnId instructions
  | none => pure ()
  return true

/-- Compact the visible history. The retained tail is chosen before the hooks run. -/
def compactVisibleHistory (turnId : TurnId) (reason : String) (instructions : Option String)
    (postCompactionInstructions : Option (List String)) : RuntimeM Bool := do
  let session := (← get).session
  let visibleIndices := session.visibleMessageIndices
  if visibleIndices.length < 2 then return false
  let visibleMessages := session.visibleTranscript
  match selectCompactionSplitIndex visibleMessages env.compactionConfig.preserveRecentMessages with
  | none => return false
  | some splitAt =>
    if splitAt < 2 then return false
    let sourceMessages := (visibleIndices.take splitAt).filterMap fun i => session.transcript[i]?
    if sourceMessages.length < 2 then return false
    match sourceMessages.getLast? with
    | none => return false
    | some last =>
      runCompaction env turnId reason instructions postCompactionInstructions sourceMessages
        visibleMessages last.messageId (visibleIndices.drop splitAt)

def modelVisibleToolSpecs : List ToolSpec :=
  env.tools.filter env.isModelVisible

def compactIfNeeded (turnId : TurnId) (instructions : List String) : RuntimeM Bool := do
  let rt ← get
  if !env.compactionConfig.enabled then return false
  if env.providerManagedHistory && rt.session.providerContinuation.isSome then return false
  let visibleMessages := rt.session.visibleTranscript
  if visibleMessages.length < 3 then return false
  let estimatedTokens := estimatePromptTokens instructions visibleMessages
    (modelVisibleToolSpecs env) rt.pendingAdditionalContext
  if estimatedTokens < env.compactionConfig.triggerTokens then return false
  compactVisibleHistory env turnId "auto" none (some instructions)

end

end Nanoclaw
