import Nanoclaw.Subagent.Cancellation
import Nanoclaw.Subagent.WriteLease

/-!
# The Subagent Executor

All child agents together with the lease manager they share. A step is a step of one child or of
a call of `spawn`, which claims the leases of a whole batch before it inserts the first child.
Here a child may be launched as soon as it is inserted, which allows more interleavings.
-/

namespace Nanoclaw

/-- One child of a batch, as `spawn` plans it. -/
structure PlannedChildSpawn (α : Type) where
  /-- A new identifier. -/
  agentId : α
  taskId : String
  steer : Option String := none
  requestedFiles : List PathBuf
  dependencyAgentIds : List α := []
  persistSessionSeed : Bool := false
  initialInput : Message

/-- The child that is inserted for a plan. -/
def PlannedChildSpawn.child {α : Type} (planned : PlannedChildSpawn α) : Child α :=
  .spawned planned.taskId planned.steer planned.requestedFiles planned.dependencyAgentIds
    planned.persistSessionSeed planned.initialInput

/-- Where a call of `spawn` is. -/
inductive SpawnStage (α : Type) where
  | claiming (claimedAgents : List α) (rest : List (PlannedChildSpawn α))
  /-- In `append_spawn_events`. -/
  | announcing (claimedAgents : List α)
  /-- The leases are released again before the call fails. -/
  | rollingBack (rest : List α)
  | inserting (rest : List (PlannedChildSpawn α))
  | returned

structure Spawn (α : Type) where
  planned : List (PlannedChildSpawn α)
  stage : SpawnStage α

structure Executor (α : Type) where
  children : α → Option (Child α) := fun _ => none
  leases : LeaseIndex α := {}
  spawns : List (Spawn α) := []

namespace Executor

inductive Action (α : Type) where
  | child (agentId : α) (action : Child.Action)
  | spawn (planned : List (PlannedChildSpawn α))
  | advanceSpawn (call : ℕ) (answer : Bool)

variable {α : Type} [LinearOrder α] (agentId : α)

/-- The identifiers of all children that were ever planned. -/
def agentIds (executor : Executor α) : List α :=
  executor.spawns.flatMap fun spawn => spawn.planned.map PlannedChildSpawn.agentId

/-- `WriteLeaseManager::claimed_paths`, as texts. -/
def claimedFiles (executor : Executor α) : List String :=
  (executor.leases.claimedPaths agentId).map fun path => pathText (pathComponents path)

def snapshot (executor : Executor α) : Option AgentRecordSnapshot :=
  (executor.children agentId).map fun child =>
    { taskId := child.taskId
      status := child.record.status
      summary := child.record.result.map AgentResultEnvelope.summary }

/-- The claim of the write set is granted. -/
def grants (files : List PathBuf) (executor : Executor α) : Bool :=
  (executor.leases.claim agentId files).1.toBool

/-- The action with the answers of the lease manager and of the other children. -/
def answered (child : Child α) (executor : Executor α) : Child.Action → Child.Action
  | .schedule index _ =>
    .schedule index (match child.launches[index]? with
      | some { stage := .gating (dependency :: _) _ _, .. } => executor.snapshot dependency
      | _ => none)
  | .launch index answer _ => .launch index answer (executor.claimedFiles agentId)
  | .work index answer _ => .work index answer (executor.claimedFiles agentId)
  | .advanceCancel call _ => .advanceCancel call (executor.claimedFiles agentId)
  | .advanceResume call answer =>
    .advanceResume call (match child.resumes[call]? with
      | some { files, stage := .checked } => executor.grants agentId files
      | _ => answer)
  | action => action

/-- The effect of a call of the lease manager. -/
def callLeases (leases : LeaseIndex α) : Option LeaseCall → LeaseIndex α
  | none => leases
  | some .release => leases.release agentId
  | some (.claim files) => (leases.claim agentId files).2

/-- One step of a call of `spawn`. -/
def advanceSpawn (call : ℕ) (answer : Bool) (executor : Executor α) : Executor α :=
  match executor.spawns[call]? with
  | none => executor
  | some spawn =>
    let goto (stage : SpawnStage α) (executor : Executor α) : Executor α :=
      { executor with spawns := executor.spawns.set call { spawn with stage } }
    match spawn.stage with
    | .claiming claimedAgents [] => goto (.announcing claimedAgents) executor
    | .claiming claimedAgents (planned :: rest) =>
      if planned.requestedFiles.isEmpty then goto (.claiming claimedAgents rest) executor
      else
        match executor.leases.claim planned.agentId planned.requestedFiles with
        | (.ok (), leases) =>
          goto (.claiming (claimedAgents ++ [planned.agentId]) rest) { executor with leases }
        | (.error _, _) => goto (.rollingBack claimedAgents) executor
    | .announcing claimedAgents =>
      goto (if answer then .inserting spawn.planned else .rollingBack claimedAgents) executor
    | .rollingBack [] => goto .returned executor
    | .rollingBack (agentId :: rest) =>
      goto (.rollingBack rest) { executor with leases := executor.leases.release agentId }
    | .inserting [] => goto .returned executor
    | .inserting (planned :: rest) =>
      goto (.inserting rest)
        { executor with
          children := Function.update executor.children planned.agentId (some planned.child) }
    | .returned => executor

/-- **One step of the executor.** Only batches with fresh identifiers occur. -/
def step (executor : Executor α) : Action α → Executor α
  | .child agentId action =>
    match executor.children agentId with
    | none => executor
    | some child =>
      let (child, call) := child.step (executor.answered agentId child action)
      { executor with
        children := Function.update executor.children agentId (some child)
        leases := callLeases agentId executor.leases call }
  | .spawn planned =>
    if (executor.agentIds ++ planned.map PlannedChildSpawn.agentId).Nodup then
      { executor with spawns := executor.spawns ++ [⟨planned, .claiming [] planned⟩] }
    else executor
  | .advanceSpawn call answer => executor.advanceSpawn call answer

/-! ### The property -/

/-- **An unfinished child owns leases on its whole write set**, and no two have overlapping ones. -/
structure LeasesHeld (executor : Executor α) : Prop where
  held : ∀ agentId child, executor.children agentId = some child →
    child.record.status.isTerminal = false →
      ∀ path ∈ child.writeSet, normalizePath path ∈ executor.leases.claimedPaths agentId
  disjoint : ∀ agentId other child child', agentId ≠ other →
    executor.children agentId = some child → executor.children other = some child' →
    child.record.status.isTerminal = false → child'.record.status.isTerminal = false →
      ∀ path ∈ child.writeSet, ∀ path' ∈ child'.writeSet,
        ¬ normalizePath path <+: normalizePath path'

end Executor

end Nanoclaw
