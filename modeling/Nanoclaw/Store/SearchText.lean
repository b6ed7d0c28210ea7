import Nanoclaw.Types.Event

/-!
# Search Text

The strings that make an event findable, and those shown for a match. Messages are searched only
as far as they are visible. A corpus has one line per searchable string, with single spaces.
-/

namespace Nanoclaw

/-! ### Strings of activity records -/

/-- The text of a schedule. -/
def renderCronScheduleSummary : CronScheduleRecord → String
  | .once runAtUnixS => "once at " ++ toString runAtUnixS
  | .recurring intervalSeconds nextRunUnixS maxRuns =>
    "every " ++ toString intervalSeconds ++ "s next " ++ toString nextRunUnixS ++
      ((maxRuns.map fun runs => " max " ++ toString runs).getD "")

/-- The searched strings of a monitor event. -/
def MonitorEventKind.searchStrings : MonitorEventKind → List String
  | .line stream text => [stream.display, text]
  | .stateChanged status => [status.display]
  | .completed exitCode => ["completed", toString exitCode]
  | .failed exitCode error => "failed" :: (exitCode.map toString).toList ++ error.toList
  | .cancelled reason => "cancelled" :: reason.toList

/-- Those of the origin of a checkpoint. -/
def CheckpointOrigin.searchStrings : CheckpointOrigin → List String
  | .fileTool toolName => [toolName.value]
  | .restore restoredFrom restoreMode => [restoredFrom.value, restoreMode.display]

/-- Those of a browser session. -/
def BrowserSummaryRecord.searchStrings (summary : BrowserSummaryRecord) : List String :=
  [summary.browserId.value, summary.status.display, summary.currentUrl,
    if summary.headless then "headless" else "headful"] ++ summary.title.toList ++
    (summary.viewport.map fun (width, height) =>
      toString width ++ "x" ++ toString height).toList ++
    (summary.taskId.map TaskId.value).toList

/-- Those of a worktree. -/
def WorktreeSummaryRecord.searchStrings (summary : WorktreeSummaryRecord) : List String :=
  [summary.worktreeId.value, summary.scope.display, summary.status.display, summary.root] ++
    summary.label.toList ++ (summary.taskId.map TaskId.value).toList ++
    (summary.parentAgentId.map AgentId.value).toList ++
    (summary.childAgentId.map AgentId.value).toList

/-- Those of a checkpoint. -/
def CheckpointRecord.searchStrings (checkpoint : CheckpointRecord) : List String :=
  [checkpoint.checkpointId.value, checkpoint.scope.display, checkpoint.summary] ++
    (checkpoint.rollbackMessageId.map MessageId.value).toList ++
    (checkpoint.promptMessageId.map MessageId.value).toList ++
    checkpoint.origin.searchStrings ++
    checkpoint.changedFiles.flatMap fun file => [file.requestedPath, file.resolvedPath]

/-- Those of a scheduled task. -/
def CronSummaryRecord.searchStrings (summary : CronSummaryRecord) : List String :=
  [summary.cronId.value, summary.status.display, summary.role, summary.promptSummary,
    renderCronScheduleSummary summary.schedule]

/-- Those of a report of a child. -/
def AgentEnvelopeKind.searchStrings : AgentEnvelopeKind → List String
  | .spawnRequested task => [task.taskId.value, task.role]
  | .started task => [task.taskId.value, task.role]
  | .statusChanged status => [status.display]
  | .input message delivery => [delivery.display, messageOperatorText message]
  | .artifact item => [item.kind, item.uri] ++ item.label.toList
  | .claimRequested files => files
  | .claimGranted files => files
  | .claimRejected files owner => files ++ [owner.value]
  | .result reported =>
    [reported.taskId.value, reported.agentId.value, reported.status.display, reported.summary,
      reported.text] ++ reported.claimedFiles ++ reported.artifacts.map AgentArtifact.uri
  | .failed error => [error]
  | .cancelled reason => reason.toList
  | .heartbeat => ["heartbeat"]

/-- Those of a record of an activity. -/
def Activity.searchStrings : Activity → List String
  | .browserOpened summary => summary.searchStrings
  | .browserUpdated summary => summary.searchStrings
  | .monitorStarted summary =>
    [summary.monitorId.value, summary.status.display, summary.cwd, summary.command,
      summary.shell] ++ (summary.taskId.map TaskId.value).toList
  | .monitorEvent monitorId kind => monitorId.value :: kind.searchStrings
  | .monitorUpdated summary =>
    [summary.monitorId.value, summary.status.display, summary.cwd, summary.command]
  | .worktreeEntered summary => summary.searchStrings
  | .worktreeUpdated summary => summary.searchStrings
  | .checkpointCreated checkpoint => checkpoint.searchStrings
  | .cronCreated summary taskTemplate =>
    summary.searchStrings ++ [taskTemplate.prompt] ++
      taskTemplate.allowedTools.map ToolName.value ++ taskTemplate.requestedWriteSet ++
      (taskTemplate.activeWorktreeId.map WorktreeId.value).toList ++
      taskTemplate.worktreeRoot.toList
  | .cronUpdated summary => summary.searchStrings ++ (summary.latestTaskId.map TaskId.value).toList
  | .taskCreated task parentAgentId =>
    [task.taskId.value, task.role, task.prompt] ++ task.requestedWriteSet ++
      (parentAgentId.map AgentId.value).toList
  | .taskCompleted taskId agentId status => [taskId.value, agentId.value, status.display]
  | .taskUpdated taskId status summary => [taskId.value, status.display] ++ summary.toList
  | .subagentStart handle task =>
    [handle.agentId.value, handle.taskId.value, handle.role, task.prompt] ++ task.requestedWriteSet
  | .agentEnvelope envelope => envelope.kind.searchStrings
  | .subagentStop handle result error =>
    [handle.agentId.value, handle.taskId.value, handle.status.display] ++
      (result.elim [] fun result => [result.summary, result.text] ++ result.claimedFiles) ++
      error.toList

/-! ### Strings of events -/

/-- Those of an effect of a hook. -/
def HookEffect.searchStrings : HookEffect → List String
  | .showToast variant message => [variant, message]
  | .appendPrompt text _ => [text]
  | .stop reason => [reason]
  | .rewriteToolArgs toolName arguments => [toolName.value, arguments.render]
  | .setGateDecision _ reason => reason.toList
  | .setPermissionDecision _ reason => reason.toList
  | .setPermissionBehavior _ reason => reason.toList
  | _ => []

/-- The `Debug` text. -/
def TokenUsagePhase.debug : TokenUsagePhase → String
  | .requestStarted => "RequestStarted"
  | .responseCompleted => "ResponseCompleted"

/-- The line that a ledger is found by. -/
def tokenUsageLine (phase : TokenUsagePhase) (ledger : TokenLedgerSnapshot) : String :=
  let usage := ledger.cumulativeUsage
  "token_usage " ++ phase.debug ++ " context=" ++ (ledger.contextWindow.elim "unknown" fun window =>
      toString window.usedTokens ++ "/" ++ toString window.maxTokens) ++
    " input=" ++ toString usage.inputTokens ++ " output=" ++ toString usage.outputTokens ++
    " prefill=" ++ toString usage.prefillTokens ++ " decode=" ++ toString usage.decodeTokens ++
    " cache_read=" ++ toString usage.cacheReadTokens ++
    " reasoning=" ++ toString usage.reasoningTokens

/-- The strings of an event beside its agent session. -/
def SessionEventKind.searchStrings : SessionEventKind → List String
  | .sessionStart reason => reason.toList
  | .stop reason => reason.toList
  | .stopFailure reason => reason.toList
  | .sessionEnd reason => reason.toList
  | .instructionsLoaded count => ["instructions " ++ toString count]
  | .steerApplied message reason => message :: reason.toList
  | .userPromptSubmit prompt => prompt.searchStrings
  | .modelRequestStarted request => request.tools.map fun tool => tool.name.value
  | .compactionCompleted reason sourceMessageCount retainedMessageCount summaryChars _ _ =>
    [reason, "compaction " ++ toString sourceMessageCount ++ " " ++
      toString retainedMessageCount ++ " " ++ toString summaryChars]
  | .modelResponseCompleted _ toolCalls _ => toolCalls.map fun call => call.toolName.value
  | .tokenUsageUpdated phase ledger => [tokenUsageLine phase ledger]
  | .hookInvoked hookName _ => [hookName]
  | .hookCompleted hookName _ output => hookName :: output.flatMap HookEffect.searchStrings
  | .transcriptMessage _ => []
  | .transcriptMessagePatched messageId _ => [messageId.value, "transcript patched"]
  | .transcriptMessageRemoved messageId => [messageId.value, "transcript removed"]
  | .toolApprovalRequested call reasons => call.toolName.value :: reasons
  | .toolApprovalResolved call _ reason => call.toolName.value :: reason.toList
  | .toolCallStarted call => [call.toolName.value, call.arguments.render]
  | .toolCallCompleted call output =>
    [call.toolName.value, output.textContent] ++ (output.metadata.map Value.render).toList
  | .toolCallFailed call error => [call.toolName.value, error]
  | .activity record => record.searchStrings
  | .notification source message => [source, message]

/-- The strings in which an event is searched; no blank ones. -/
def searchableSessionEventStrings (event : SessionEventEnvelope) : List String :=
  (event.agentSessionId.value :: event.event.searchStrings).filter fun value =>
    !(Text.trim value).isEmpty

/-! ### Strings shown for a match -/

/-- The effect as shown, under the name of its hook. -/
def HookEffect.previewStrings (hookName : String) : HookEffect → List String
  | .showToast variant message => [hookName ++ ": " ++ variant, hookName ++ ": " ++ message]
  | .appendPrompt text _ => [hookName ++ ": " ++ text]
  | .stop reason => [hookName ++ ": " ++ reason]
  | .rewriteToolArgs toolName arguments => [toolName.value, arguments.render]
  | .setGateDecision _ reason => (reason.map (hookName ++ ": " ++ ·)).toList
  | .setPermissionDecision _ reason => (reason.map (hookName ++ ": " ++ ·)).toList
  | .setPermissionBehavior _ reason => (reason.map (hookName ++ ": " ++ ·)).toList
  | _ => []

/-- The browser session as shown. -/
def BrowserSummaryRecord.previewStrings (summary : BrowserSummaryRecord) : List String :=
  [summary.browserId.value, summary.status.display, summary.currentUrl] ++
    summary.title.toList ++ (summary.taskId.map TaskId.value).toList

/-- The strings shown for an event, most of them as searched. -/
def previewableEventStrings (event : SessionEventEnvelope) : List String :=
  match event.event with
  | .modelRequestStarted request => request.tools.map fun tool => tool.name.value
  | .hookCompleted hookName _ output => output.flatMap (HookEffect.previewStrings hookName)
  | .activity (.agentEnvelope ⟨_, _, _, .input message delivery⟩) =>
    [delivery.display, messageOperatorText message]
  | .activity (.browserOpened summary) => summary.previewStrings
  | .activity (.browserUpdated summary) => summary.previewStrings
  | _ => searchableSessionEventStrings event

/-- A text on one line, cut to a number of characters. -/
def previewText (value : String) (maxChars : ℕ) : String :=
  let collapsed := " ".intercalate (Text.splitWhitespace value)
  if collapsed.length ≤ maxChars then collapsed
  else String.ofList (collapsed.toList.take (maxChars - 3)) ++ "..."

/-- Add a preview that is not there yet. -/
def pushUniquePreview (previews : List String) (candidate : String) : List String :=
  if previews.any (· == candidate) then previews else previews ++ [candidate]

/-! ### Corpora -/

/-- A value as a line of a corpus. -/
def corpusLine (value : String) : String :=
  " ".intercalate (Text.splitWhitespace value)

/-- Add a line to a corpus, unless it is blank. -/
def appendSearchCorpusLine (corpus value : String) : String :=
  if (corpusLine value).isEmpty then corpus
  else if corpus.isEmpty then corpusLine value
  else corpus ++ "\n" ++ corpusLine value

/-- The last characters of a corpus. -/
def keepRecentChars (corpus : String) (maxChars : ℕ) : String :=
  if corpus.length ≤ maxChars then corpus
  else String.ofList (corpus.toList.drop (corpus.length - maxChars))

end Nanoclaw
