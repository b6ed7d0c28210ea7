import Nanoclaw.Lib.Kahn
import Nanoclaw.Lib.Proc
import Nanoclaw.Subagent.Executor
import Nanoclaw.Subagent.Scheduler
import Nanoclaw.Tools.TextEdit

/-!
# Spawning a Batch

`spawn` plans every task of a batch, which may create a worktree, resolves the dependencies,
claims the write sets, appends the events, and registers the children. What the profile resolver,
`git`, the store and the file paths answer is given by the environment; the answers for one task
are found under its position in the batch.
-/

namespace Nanoclaw

/-! ### Requests -/

inductive ChildWorktreeMode where
  | inherit
  | dedicated
  deriving DecidableEq

structure SubagentTaskSpec where
  taskId : String
  steer : Option String := none
  allowedTools : List String := []
  requestedWriteSet : List String := []
  dependencyIds : List String := []

structure SubagentLaunchSpec where
  task : SubagentTaskSpec
  initialInput : Message
  forkContext : Bool := false
  worktreeMode : ChildWorktreeMode := .inherit

structure SubagentParentContext (α : Type) where
  sessionId : Option SessionId := none
  agentSessionId : Option AgentSessionId := none
  parentAgentId : Option α := none

/-! ### Tools of a child -/

inductive ToolSource where
  | mcpTool (serverName : String)
  | mcpResource (serverName : String)
  | other

/-- A tool of a registry, as far as its resolution reads it. -/
structure RegisteredTool where
  name : String
  source : ToolSource := .other
  mcpServerBoundaries : List String := []

/-- The tools in the order of their names, and the other names of tools. -/
structure ToolRegistry where
  tools : List RegisteredTool
  aliases : List (String × String) := []

namespace ToolRegistry

def names (registry : ToolRegistry) : List String :=
  registry.tools.map RegisteredTool.name

def canonicalNameFor (name : String) (registry : ToolRegistry) : Option String :=
  if name ∈ registry.names then some name
  else (registry.aliases.find? (·.1 == name)).map Prod.snd

def get (name : String) (registry : ToolRegistry) : Option RegisteredTool :=
  (registry.canonicalNameFor name).bind fun canonical =>
    registry.tools.find? (·.name == canonical)

def filteredByNames (allowedNames : List String) (registry : ToolRegistry) : ToolRegistry :=
  let allowed := allowedNames.filterMap registry.canonicalNameFor
  { tools := registry.tools.filter fun tool => tool.name ∈ allowed
    aliases := registry.aliases.filter fun entry => entry.2 ∈ allowed }

end ToolRegistry

def defaultExcludedChildTools : List String :=
  ["spawn_agent", "send_input", "wait_agent", "resume_agent", "list_agents", "close_agent"]

def knownMcpServerNames (tool : RegisteredTool) : List String :=
  tool.mcpServerBoundaries ++
    match tool.source with
    | .mcpTool serverName | .mcpResource serverName =>
      if serverName ≠ "*" then [serverName] else []
    | .other => []

def toolSpecMatchesMcpServerAllowlist (allowedServers : List String) (tool : RegisteredTool) :
    Bool :=
  match tool.source with
  | .mcpTool serverName => serverName ∈ allowedServers
  | .mcpResource serverName => serverName = "*" || serverName ∈ allowedServers
  | .other => true

/-- The elements of a list in order, each of them once. -/
def inOrder (xs : List String) : List String :=
  (xs.foldl (fun m x => m.insert x ()) (OrdMap.empty : OrdMap String Unit)).keys

def filterToolsByMcpServerAllowlist (candidateNames : List String)
    (allowedMcpServers : Option (List String)) (registry : ToolRegistry) :
    Except String (List String) :=
  match allowedMcpServers with
  | none => .ok candidateNames
  | some allowedServers =>
    let knownServers := registry.tools.flatMap knownMcpServerNames
    match (inOrder allowedServers).find? (· ∉ knownServers) with
    | some serverName => .error ("spawn_agent: unknown allowed MCP server `" ++ serverName ++ "`")
    | none =>
      .ok (candidateNames.filter fun name =>
        (registry.get name).any (toolSpecMatchesMcpServerAllowlist allowedServers))

/-- The names `resolve_child_tools` begins with. -/
def requestedNames (requested : List String) (profileAllowedTools : Option (List String))
    (registry : ToolRegistry) : List String :=
  let names := (if requested.isEmpty then registry.names else requested).filter fun name =>
    name ∉ defaultExcludedChildTools
  match profileAllowedTools with
  | some allowedTools => names.filter (· ∈ allowedTools)
  | none => names

def resolveChildTools (requested : List String) (profileAllowedTools : Option (List String))
    (allowedMcpServers : Option (List String)) (registry : ToolRegistry) :
    Except String ToolRegistry := do
  let allowedNames ← filterToolsByMcpServerAllowlist
    (requestedNames requested profileAllowedTools registry) allowedMcpServers registry
  let filtered := registry.filteredByNames allowedNames
  if (profileAllowedTools.isSome || !requested.isEmpty) && filtered.names.isEmpty then
    throw "spawn_agent: no allowed tools matched the parent registry"
  pure filtered

/-! ### The environment -/

structure SubagentRuntimeProfile where
  profileName : String
  allowedTools : Option (List String) := none
  allowedMcpServers : Option (List String) := none
  supportsToolCalls : Bool := true

/-- Whether `git` makes a worktree, and whether the event that reports it is appended. -/
structure WorktreeAnswer where
  created : Except String Unit
  worktreeId : WorktreeId
  published : Except String Unit

structure SpawnEnv where
  toolRegistry : ToolRegistry
  resolveProfile : SubagentLaunchSpec → Except String SubagentRuntimeProfile
  /-- `resolve_tool_path_against_workspace_root`. -/
  resolveToolPath : String → Except String PathBuf
  worktreeManager : Option (ℕ → WorktreeAnswer)
  /-- `load_runtime_session` for the session of the parent. -/
  loadRuntimeSession : ℕ → Except String Unit
  /-- The append of the events of one child. -/
  appendParentEvents : ℕ → Except String Unit

/-! ### The state -/

/-- An agent in the session manager. -/
structure RegisteredAgent (α : Type) where
  parentAgentId : Option α
  agent : ScheduledAgent

structure SpawnState (α : Type) [LinearOrder α] where
  records : OrdMap α (RegisteredAgent α) := .empty
  leases : LeaseIndex α := {}
  /-- The child worktrees that are there. -/
  worktrees : List WorktreeId := []

variable {α : Type} [LinearOrder α]

/-- A call of code that reads the state only. -/
def spawnLift {β : Type} (result : Except Tools.ToolError β) :
    Proc (SpawnState α) Tools.ToolError β :=
  match result with
  | .ok value => pure value
  | .error error => throw error

/-! ### Planning -/

/-- `SessionWorktreeManager::create_child_worktree`. -/
def createChildWorktree (parent : SubagentParentContext α) (answer : WorktreeAnswer) :
    Proc (SpawnState α) Tools.ToolError Unit := do
  if parent.sessionId.isNone then
    throw (.invalidState "worktree tools require an attached runtime session")
  if parent.agentSessionId.isNone then
    throw (.invalidState "worktree tools require an attached runtime agent session")
  match answer.created with
  | .error error => throw (.invalidState error)
  | .ok () =>
    modify fun s => { s with worktrees := s.worktrees ++ [answer.worktreeId] }
    match answer.published with
    | .error error => throw (.invalidState error)
    | .ok () => pure ()

def maybeAllocateChildWorktree (env : SpawnEnv) (parent : SubagentParentContext α) (index : ℕ)
    (worktreeMode : ChildWorktreeMode) : Proc (SpawnState α) Tools.ToolError Unit :=
  if worktreeMode ≠ .dedicated then pure ()
  else
    match env.worktreeManager with
    | none => throw (.invalidState "spawn_agent dedicated worktrees require a worktree manager")
    | some manager => createChildWorktree parent (manager index)

/-- The session of a child is persisted before it starts if it is a fork. -/
def buildChildSession (env : SpawnEnv) (parent : SubagentParentContext α) (index : ℕ)
    (forkContext : Bool) : Except Tools.ToolError Bool := do
  if !forkContext then pure false
  else
    if parent.sessionId.isNone then
      throw (.invalidState "spawn_agent fork_context requires the parent runtime session id")
    if parent.agentSessionId.isNone then
      throw (.invalidState "spawn_agent fork_context requires the parent agent session id")
    match env.loadRuntimeSession index with
    | .error error => throw (.invalidState error)
    | .ok () => pure true

/-- What `spawn` checks about a task before it makes a worktree: the write set. -/
def checkTask (env : SpawnEnv) (launch : SubagentLaunchSpec) :
    Except Tools.ToolError (List PathBuf) := do
  let profile ← (env.resolveProfile launch).mapError .invalidState
  let tools ← (resolveChildTools launch.task.allowedTools profile.allowedTools
    profile.allowedMcpServers env.toolRegistry).mapError .invalidState
  if !profile.supportsToolCalls && !tools.names.isEmpty then
    throw (.invalidInput ("subagent profile `" ++ profile.profileName ++
      "` does not support tool calls, but task `" ++ launch.task.taskId ++
      "` resolved local tools"))
  (launch.task.requestedWriteSet.mapM env.resolveToolPath).mapError .invalidState

/-- Plan one task. The dependencies are resolved later. -/
def planChild (env : SpawnEnv) (newAgentId : ℕ → α) (parent : SubagentParentContext α)
    (index : ℕ) (launch : SubagentLaunchSpec) :
    Proc (SpawnState α) Tools.ToolError (PlannedChildSpawn α × List String) := do
  let requestedFiles ← spawnLift (checkTask env launch)
  maybeAllocateChildWorktree env parent index launch.worktreeMode
  let persistSessionSeed ← spawnLift (buildChildSession env parent index launch.forkContext)
  pure ({
    agentId := newAgentId index
    taskId := launch.task.taskId
    steer := launch.task.steer
    requestedFiles
    persistSessionSeed
    initialInput := launch.initialInput }, launch.task.dependencyIds)

def planChildren (env : SpawnEnv) (newAgentId : ℕ → α) (parent : SubagentParentContext α) :
    ℕ → List SubagentLaunchSpec →
      Proc (SpawnState α) Tools.ToolError (List (PlannedChildSpawn α × List String))
  | _, [] => pure []
  | index, launch :: rest => do
    let child ← planChild env newAgentId parent index launch
    let children ← planChildren env newAgentId parent (index + 1) rest
    pure (child :: children)

/-! ### Dependencies -/

/-- The agents of the parent by their tasks. -/
def existingByTaskId (parentAgentId : Option α) (records : OrdMap α (RegisteredAgent α)) :
    Except Tools.ToolError (List (String × α)) :=
  (records.entries.filter fun entry => entry.2.parentAgentId == parentAgentId).foldlM
    (fun existing entry =>
      let taskId := entry.2.agent.taskId
      if existing.any (·.1 == taskId) then
        .error (.invalidInput ("duplicate child task id `" ++ taskId ++
          "` already exists under parent scope"))
      else .ok (existing ++ [(taskId, entry.1)])) []

/-- The children of the batch by their tasks. -/
def batchByTaskId (existing : List (String × α)) (planned : List (PlannedChildSpawn α)) :
    Except Tools.ToolError (List (String × α)) :=
  planned.foldlM (fun batch child =>
    if existing.any (·.1 == child.taskId) then
      .error (.invalidInput ("child task id `" ++ child.taskId ++
        "` already exists under parent scope"))
    else if batch.any (·.1 == child.taskId) then
      .error (.invalidInput ("duplicate agent task id `" ++ child.taskId ++ "` in batch spawn"))
    else .ok (batch ++ [(child.taskId, child.agentId)])) []

def findTask (taskId : String) (tasks : List (String × α)) : Option α :=
  (tasks.find? (·.1 == taskId)).map Prod.snd

def resolveDependencies (existing batch : List (String × α)) (taskId : String)
    (dependencyIds : List String) : Except Tools.ToolError (List α) :=
  dependencyIds.mapM fun dependencyId =>
    match findTask dependencyId batch with
    | some agentId => .ok agentId
    | none =>
      match findTask dependencyId existing with
      | some agentId => .ok agentId
      | none =>
        .error (.invalidInput ("agent task " ++ taskId ++ " references unknown dependency `" ++
          dependencyId ++ "`"))

/-- The tasks that name a task among their dependencies. -/
def reverseEdges (planned : List (PlannedChildSpawn α × List String)) (taskId : String) :
    List String :=
  planned.flatMap fun child =>
    (child.2.filter (· == taskId)).map fun _ => child.1.taskId

/-- The number of dependencies a task has within the batch. -/
def dependencyCounts (planned : List (PlannedChildSpawn α × List String)) (taskId : String) : ℕ :=
  match planned.find? (·.1.taskId == taskId) with
  | some child =>
    (child.2.filter fun dependencyId => planned.any (·.1.taskId == dependencyId)).length
  | none => 0

def resolveDependencyPlan (parent : SubagentParentContext α)
    (records : OrdMap α (RegisteredAgent α)) (planned : List (PlannedChildSpawn α × List String)) :
    Except Tools.ToolError (List (PlannedChildSpawn α)) := do
  let existing ← existingByTaskId parent.parentAgentId records
  let batch ← batchByTaskId existing (planned.map Prod.fst)
  let children ← planned.mapM fun (child, dependencyIds) => do
    let dependencyAgentIds ← resolveDependencies existing batch child.taskId dependencyIds
    pure { child with dependencyAgentIds }
  let ready := (inOrder (planned.map (·.1.taskId))).filter (dependencyCounts planned · == 0)
  let visited :=
    Kahn.visit (reverseEdges planned) planned.length (dependencyCounts planned) ready
  if visited ≠ planned.length then
    throw (.invalidInput "agent batch dependencies contain a cycle")
  pure children

/-! ### The batch -/

def releaseLeases (agentIds : List α) : Proc (SpawnState α) Tools.ToolError Unit :=
  agentIds.forM fun agentId =>
    modify fun s => { s with leases := s.leases.release agentId }

/-- Claim the write sets of the batch, or give all of them back. -/
def claimLeases [ToString α] (claimedAgents : List α) :
    List (PlannedChildSpawn α) → Proc (SpawnState α) Tools.ToolError (List α)
  | [] => pure claimedAgents
  | child :: rest => do
    if child.requestedFiles.isEmpty then claimLeases claimedAgents rest
    else
      match (← get).leases.claim child.agentId child.requestedFiles with
      | (.ok (), leases) =>
        modify fun s => { s with leases }
        claimLeases (claimedAgents ++ [child.agentId]) rest
      | (.error conflict, _) =>
        releaseLeases claimedAgents
        throw (.invalidState ("write lease conflict for " ++ conflict.requested ++
          " owned by " ++ toString conflict.owner))

/-- The events of the children, up to the first that cannot be appended. -/
def appendSpawnEvents (env : SpawnEnv) (parent : SubagentParentContext α)
    (planned : List (PlannedChildSpawn α)) : Except Tools.ToolError Unit :=
  if parent.sessionId.isNone || parent.agentSessionId.isNone then .ok ()
  else (List.range planned.length).forM fun index =>
    (env.appendParentEvents index).mapError .invalidState

/-- The record of a new child. -/
def registered (parent : SubagentParentContext α) (child : PlannedChildSpawn α) :
    RegisteredAgent α where
  parentAgentId := parent.parentAgentId
  agent := { taskId := child.taskId, record := { mailbox := 0 } }

/-- The children that are launched at once, and those that the scheduler gets. -/
structure SpawnOutcome (α : Type) [LinearOrder α] where
  handles : List α
  ready : List α
  blocked : OrdMap α (List α)

/-- **`spawn`**, up to the launch of the first children. -/
def spawn [ToString α] (env : SpawnEnv) (newAgentId : ℕ → α) (parent : SubagentParentContext α)
    (tasks : List SubagentLaunchSpec) : Proc (SpawnState α) Tools.ToolError (SpawnOutcome α) := do
  let planned ← planChildren env newAgentId parent 0 tasks
  let planned ← spawnLift (resolveDependencyPlan parent (← get).records planned)
  let claimedAgents ← claimLeases [] planned
  match appendSpawnEvents env parent planned with
  | .error error => do
    releaseLeases claimedAgents
    throw error
  | .ok () => do
    modify fun s => { s with
      records := planned.foldl (fun records child =>
        records.insert child.agentId (registered parent child)) s.records }
    pure {
      handles := planned.map PlannedChildSpawn.agentId
      ready := (planned.filter (·.dependencyAgentIds.isEmpty)).map PlannedChildSpawn.agentId
      blocked := (planned.filter (!·.dependencyAgentIds.isEmpty)).foldl
        (fun blocked child => blocked.insert child.agentId child.dependencyAgentIds) .empty }

end Nanoclaw
