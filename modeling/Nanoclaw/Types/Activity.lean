import Nanoclaw.Types.Message

/-!
# Activity Records

What the log records about everything beside the conversation: browsers, monitors, worktrees,
checkpoints, scheduled tasks, tasks and child agents. The records keep the fields that the search
of the store and its token accounting read. Paths are kept as their display text.
-/

namespace Nanoclaw

/-! ### Identifiers -/

/-- A child agent. -/
structure AgentId where
  value : String

/-- A task, of a child agent or of a tool. -/
structure TaskId where
  value : String

/-- A browser session. -/
structure BrowserId where
  value : String

/-- A process that is watched. -/
structure MonitorId where
  value : String

/-- A worktree. -/
structure WorktreeId where
  value : String

/-- A checkpoint. -/
structure CheckpointId where
  value : String

/-- A scheduled task. -/
structure CronId where
  value : String

/-! ### Statuses -/

/-- The status of a child agent. -/
inductive AgentStatus where
  | queued
  | running
  | waitingApproval
  | waitingMessage
  | completed
  | failed
  | cancelled
  deriving DecidableEq

namespace AgentStatus

/-- The child has ended. -/
def isTerminal : AgentStatus → Bool
  | completed | failed | cancelled => true
  | _ => false

/-- The `Display` text. -/
def display : AgentStatus → String
  | queued => "queued"
  | running => "running"
  | waitingApproval => "waiting_approval"
  | waitingMessage => "waiting_message"
  | completed => "completed"
  | failed => "failed"
  | cancelled => "cancelled"

end AgentStatus

/-- The status of a task. -/
inductive TaskStatus where
  | open
  | queued
  | running
  | waitingApproval
  | waitingMessage
  | completed
  | failed
  | cancelled

/-- Its `Display` text. -/
def TaskStatus.display : TaskStatus → String
  | «open» => "open"
  | queued => "queued"
  | running => "running"
  | waitingApproval => "waiting_approval"
  | waitingMessage => "waiting_message"
  | completed => "completed"
  | failed => "failed"
  | cancelled => "cancelled"

/-- The status of a watched process. -/
inductive MonitorStatus where
  | running
  | completed
  | failed
  | cancelled

/-- Its `Display` text. -/
def MonitorStatus.display : MonitorStatus → String
  | running => "running"
  | completed => "completed"
  | failed => "failed"
  | cancelled => "cancelled"

/-- The status of a scheduled task. -/
inductive CronStatus where
  | scheduled
  | completed
  | cancelled
  | failed

/-- Its `Display` text. -/
def CronStatus.display : CronStatus → String
  | scheduled => "scheduled"
  | completed => "completed"
  | cancelled => "cancelled"
  | failed => "failed"

/-- The status of a browser session. -/
inductive BrowserStatus where
  | open
  | closed
  | failed

/-- Its `Display` text. -/
def BrowserStatus.display : BrowserStatus → String
  | «open» => "open"
  | closed => "closed"
  | failed => "failed"

/-- Where a line of a process comes from. -/
inductive MonitorStream where
  | stdout
  | stderr

/-- Its `Display` text. -/
def MonitorStream.display : MonitorStream → String
  | stdout => "stdout"
  | stderr => "stderr"

/-- Whom a worktree belongs to. -/
inductive WorktreeScope where
  | session
  | childAgent

/-- Its `Display` text. -/
def WorktreeScope.display : WorktreeScope → String
  | session => "session"
  | childAgent => "child_agent"

/-- The status of a worktree. -/
inductive WorktreeStatus where
  | active
  | inactive
  | removed

/-- Its `Display` text. -/
def WorktreeStatus.display : WorktreeStatus → String
  | active => "active"
  | inactive => "inactive"
  | removed => "removed"

/-- What a checkpoint covers. -/
inductive CheckpointScope where
  | code
  | conversation
  | both

/-- Its `Display` text. -/
def CheckpointScope.display : CheckpointScope → String
  | code => "code"
  | conversation => "conversation"
  | both => "both"

/-- What is restored. -/
inductive CheckpointRestoreMode where
  | codeOnly
  | conversationOnly
  | both

/-- Its `Display` text. -/
def CheckpointRestoreMode.display : CheckpointRestoreMode → String
  | codeOnly => "code_only"
  | conversationOnly => "conversation_only"
  | both => "both"

/-- How an input reaches a child. -/
inductive AgentInputDelivery where
  | queue
  | interrupt

/-- Its `Display` text. -/
def AgentInputDelivery.display : AgentInputDelivery → String
  | queue => "queue"
  | interrupt => "interrupt"

/-! ### Child agents -/

/-- Something that a child has made. -/
structure AgentArtifact where
  kind : String
  uri : String
  label : Option String

/-- What a child returns in the end. -/
structure AgentResultEnvelope where
  status : AgentStatus
  summary : String
  text : String
  artifacts : List AgentArtifact := []
  claimedFiles : List String
  structuredPayload : Option Value := none

/-- A result as it is logged, with the identifiers of the child and its task. -/
structure LoggedResult extends AgentResultEnvelope where
  agentId : AgentId
  taskId : TaskId

/-- What the parent knows of a child. -/
structure AgentHandle where
  agentId : AgentId
  sessionId : SessionId
  agentSessionId : AgentSessionId
  taskId : TaskId
  role : String
  status : AgentStatus

/-- What a child is asked to do. -/
structure AgentTaskSpec where
  taskId : TaskId
  role : String
  prompt : String
  requestedWriteSet : List String := []

/-- What a child reports. -/
inductive AgentEnvelopeKind where
  | spawnRequested (task : AgentTaskSpec)
  | started (task : AgentTaskSpec)
  | statusChanged (status : AgentStatus)
  | input (message : Message) (delivery : AgentInputDelivery)
  | artifact (artifact : AgentArtifact)
  | claimRequested (files : List String)
  | claimGranted (files : List String)
  | claimRejected (files : List String) (owner : AgentId)
  | result (result : LoggedResult)
  | failed (error : String)
  | cancelled (reason : Option String)
  | heartbeat

/-- A message of a child agent to its parent, under the sessions of the child. -/
structure AgentEnvelope where
  agentId : AgentId
  sessionId : SessionId
  agentSessionId : AgentSessionId
  kind : AgentEnvelopeKind

/-! ### Tools and tasks -/

/-- The state of a browser session. -/
structure BrowserSummaryRecord where
  browserId : BrowserId
  taskId : Option TaskId
  status : BrowserStatus
  currentUrl : String
  headless : Bool
  title : Option String
  /-- Width and height. -/
  viewport : Option (ℕ × ℕ)

/-- The state of a watched process. -/
structure MonitorSummaryRecord where
  monitorId : MonitorId
  taskId : Option TaskId
  command : String
  cwd : String
  shell : String
  status : MonitorStatus

/-- What a watched process does. -/
inductive MonitorEventKind where
  | line (stream : MonitorStream) (text : String)
  | stateChanged (status : MonitorStatus)
  | completed (exitCode : ℤ)
  | failed (exitCode : Option ℤ) (error : Option String)
  | cancelled (reason : Option String)

/-- The state of a worktree. -/
structure WorktreeSummaryRecord where
  worktreeId : WorktreeId
  scope : WorktreeScope
  status : WorktreeStatus
  root : String
  parentAgentId : Option AgentId
  taskId : Option TaskId
  childAgentId : Option AgentId
  label : Option String

/-- A file that a checkpoint covers. -/
structure CheckpointFileRecord where
  requestedPath : String
  resolvedPath : String

/-- Why a checkpoint was made. -/
inductive CheckpointOrigin where
  | fileTool (toolName : ToolName)
  | restore (restoredFrom : CheckpointId) (restoreMode : CheckpointRestoreMode)

/-- A checkpoint, without the texts of its files. -/
structure CheckpointRecord where
  checkpointId : CheckpointId
  scope : CheckpointScope
  origin : CheckpointOrigin
  summary : String
  rollbackMessageId : Option MessageId
  promptMessageId : Option MessageId
  changedFiles : List CheckpointFileRecord

/-- When a scheduled task runs. -/
inductive CronScheduleRecord where
  | once (runAtUnixS : ℕ)
  | recurring (intervalSeconds nextRunUnixS : ℕ) (maxRuns : Option ℕ)

/-- The state of a scheduled task. -/
structure CronSummaryRecord where
  cronId : CronId
  latestTaskId : Option TaskId
  role : String
  promptSummary : String
  status : CronStatus
  schedule : CronScheduleRecord

/-- What is started at each run. -/
structure CronTaskTemplateRecord where
  prompt : String
  allowedTools : List ToolName
  requestedWriteSet : List String
  activeWorktreeId : Option WorktreeId
  worktreeRoot : Option String

/-- **What an activity event records.** -/
inductive Activity where
  | browserOpened (summary : BrowserSummaryRecord)
  | browserUpdated (summary : BrowserSummaryRecord)
  | monitorStarted (summary : MonitorSummaryRecord)
  | monitorEvent (monitorId : MonitorId) (kind : MonitorEventKind)
  | monitorUpdated (summary : MonitorSummaryRecord)
  | worktreeEntered (summary : WorktreeSummaryRecord)
  | worktreeUpdated (summary : WorktreeSummaryRecord)
  | checkpointCreated (checkpoint : CheckpointRecord)
  | cronCreated (summary : CronSummaryRecord) (taskTemplate : CronTaskTemplateRecord)
  | cronUpdated (summary : CronSummaryRecord)
  | taskCreated (task : AgentTaskSpec) (parentAgentId : Option AgentId)
  | taskUpdated (taskId : TaskId) (status : TaskStatus) (summary : Option String)
  | taskCompleted (taskId : TaskId) (agentId : AgentId) (status : TaskStatus)
  | subagentStart (handle : AgentHandle) (task : AgentTaskSpec)
  | agentEnvelope (envelope : AgentEnvelope)
  | subagentStop (handle : AgentHandle) (result : Option LoggedResult) (error : Option String)

end Nanoclaw
