import Nanoclaw.Lib.OrdMap
import Nanoclaw.Subagent.Child

/-!
# The Dependency Scheduler

`spawn` hands the children of a batch that have dependencies to a task of their own, which walks
over them in passes: it launches the children that are ready, fails those whose dependencies
failed, and waits until one of the agents the others depend on has finished.

A step is one access to the session manager by the scheduler, or by one of the tasks that work on
agents at the same time. An agent keeps, beside its record, whether a task may still write that
record. Launches of one pass end in any order. A worker whose agent is cancelled may write any
number of times before it is dropped.

A set that is only extended and walked over is a list. Resumed agents are not part of this
system: a child that was never launched has no session that could be resumed.
-/

namespace Nanoclaw

/-! ### Agents -/

/-- Who may write the record of an agent, beside calls of `cancel`. -/
inductive AgentStage where
  /-- Nobody has launched the agent yet. -/
  | idle
  /-- A worker runs. -/
  | live
  /-- The worker is gone, or the launch was given up. -/
  | done
  deriving DecidableEq

structure ScheduledAgent where
  taskId : String
  record : AgentRecord
  stage : AgentStage := .idle

namespace ScheduledAgent

/-- `AgentSessionManager::snapshot`, as far as the gate reads it. -/
def snapshot (agent : ScheduledAgent) : AgentRecordSnapshot where
  taskId := agent.taskId
  status := agent.record.status
  summary := agent.record.result.map AgentResultEnvelope.summary

/-- A call of `cancel`. -/
def cancel (reason : Option String) (claimedFiles : List String) (agent : ScheduledAgent) :
    ScheduledAgent :=
  match agent.record.cancel reason claimedFiles with
  | none => agent
  | some (record, _, _) => { agent with record }

/-- The worker is spawned. -/
def launch (agent : ScheduledAgent) : ScheduledAgent :=
  { agent with stage := .live }

/-- The last write of a task to the record. -/
def finish (result : AgentResultEnvelope) (error : Option String) (agent : ScheduledAgent) :
    ScheduledAgent :=
  match agent.record.finish result error with
  | none => { agent with stage := .done }
  | some record => { agent with record, stage := .done }

/-- The task ends without writing the record. -/
def stop (agent : ScheduledAgent) : ScheduledAgent :=
  { agent with stage := .done }

/-- The worker writes a status on its way. -/
def report (status : AgentStatus) (agent : ScheduledAgent) : ScheduledAgent :=
  if status.isTerminal then agent
  else { agent with record := agent.record.updateStatus status }

end ScheduledAgent

/-! ### The state -/

/-- What one walk over the blocked children has found so far. -/
structure SchedulerPass (α : Type) where
  ready : List α := []
  failed : List (α × List DependencyFailure) := []
  waitingOn : List α := []

/-- Where `dependency_gate` is. -/
structure GateProgress (α : Type) where
  rest : List α
  pending : List α := []
  failures : List DependencyFailure := []

/-- Where `run_dependency_scheduler` is. -/
inductive SchedulerPhase (α : Type) where
  /-- At the head of the loop. -/
  | checking
  /-- In the walk over the blocked children. -/
  | visiting (rest : List (α × List α)) (pass : SchedulerPass α)
  /-- In `dependency_gate` for a child. -/
  | gating (agentId : α) (gate : GateProgress α) (rest : List (α × List α)) (pass : SchedulerPass α)
  /-- Taking the ready children out of the map. -/
  | choosing (rest readyPlans : List α) (pass : SchedulerPass α)
  /-- In `launch_ready_children_bounded`, with the launches that have not ended. -/
  | launching (readyPlans : List α) (pass : SchedulerPass α)
  /-- In the walk over the failed children. -/
  | condemning (rest : List (α × List DependencyFailure)) (waitingOn : List α)
  /-- In `wait`, with the agents that are still to be read in this round. -/
  | waiting (waitingOn rest : List α) (completed : Bool)
  | exited

structure Scheduler (α : Type) [LinearOrder α] where
  /-- The children of the batch that have dependencies, as they were handed over. -/
  plans : OrdMap α (List α)
  blocked : OrdMap α (List α)
  phase : SchedulerPhase α := .checking
  /-- The records of the session manager. -/
  agents : α → Option ScheduledAgent
  /-- The children whose worker the scheduler has spawned. -/
  launched : List α := []

namespace Scheduler

inductive Action (α : Type) where
  /-- The scheduler goes on. -/
  | advance (claimedFiles : List String)
  /-- A launch of this pass ends. -/
  | launch (agentId : α) (answer : Except String Unit) (claimedFiles : List String)
  | cancel (agentId : α) (reason : Option String) (claimedFiles : List String)
  | report (agentId : α) (status : AgentStatus)
  | finish (agentId : α) (how : WorkerEnd) (claimedFiles : List String)
  | stop (agentId : α)
  /-- An agent outside of the batch is launched. -/
  | start (agentId : α)
  /-- An agent outside of the batch is given up before it is launched. -/
  | abandon (agentId : α) (failures : List DependencyFailure) (claimedFiles : List String)

variable {α : Type} [LinearOrder α] (agentId : α)

def snapshot (s : Scheduler α) : Option AgentRecordSnapshot :=
  (s.agents agentId).map ScheduledAgent.snapshot

/-- Change one agent. -/
def update (f : ScheduledAgent → ScheduledAgent) (s : Scheduler α) : Scheduler α :=
  { s with agents := Function.update s.agents agentId ((s.agents agentId).map f) }

/-- Change one agent, if it is in a stage. -/
def updateIn (stage : AgentStage) (agentId : α) (f : ScheduledAgent → ScheduledAgent)
    (s : Scheduler α) : Scheduler α :=
  s.update agentId fun agent => if agent.stage = stage then f agent else agent

/-- One dependency is read. -/
def gateDependency (dependency : α) (snapshot : AgentRecordSnapshot) (gate : GateProgress α) :
    GateProgress α :=
  match snapshot.status with
  | .completed => gate
  | .failed | .cancelled =>
    { gate with
      failures := gate.failures ++ [⟨snapshot.taskId, snapshot.status, snapshot.summary⟩] }
  | _ => { gate with pending := gate.pending ++ [dependency] }

/-- What the answer of the gate adds to the pass. -/
def judge (gate : GateProgress α) (pass : SchedulerPass α) : SchedulerPass α :=
  if !gate.failures.isEmpty then
    { pass with failed := pass.failed ++ [(agentId, gate.failures)] }
  else if gate.pending.isEmpty then { pass with ready := pass.ready ++ [agentId] }
  else { pass with waitingOn := pass.waitingOn ++ gate.pending }

/-- One step of `run_dependency_scheduler` outside of the launches. -/
def advance (claimedFiles : List String) (s : Scheduler α) : Scheduler α :=
  match s.phase with
  | .checking =>
    { s with
      phase := if s.blocked.entries.isEmpty then .exited else .visiting s.blocked.entries {} }
  | .visiting [] pass => { s with phase := .choosing pass.ready [] pass }
  | .visiting ((agentId, dependencies) :: rest) pass =>
    if (s.snapshot agentId).all (·.status.isTerminal) then
      { s with phase := .visiting rest { pass with ready := pass.ready ++ [agentId] } }
    else { s with phase := .gating agentId { rest := dependencies } rest pass }
  | .gating agentId { rest := [], pending, failures } rest pass =>
    { s with phase := .visiting rest (judge agentId { rest := [], pending, failures } pass) }
  | .gating agentId { rest := dependency :: others, pending, failures } rest pass =>
    match s.snapshot dependency with
    | none => { s with phase := .visiting rest { pass with ready := pass.ready ++ [agentId] } }
    | some snapshot =>
      { s with
        phase := .gating agentId
          (gateDependency dependency snapshot { rest := others, pending, failures }) rest pass }
  | .choosing [] readyPlans pass => { s with phase := .launching readyPlans pass }
  | .choosing (agentId :: rest) readyPlans pass =>
    match s.blocked.get agentId with
    | none => { s with phase := .choosing rest readyPlans pass }
    | some _ =>
      if (s.snapshot agentId).all (·.status.isTerminal) then
        { s.update agentId ScheduledAgent.stop with
          blocked := s.blocked.erase agentId
          phase := .choosing rest readyPlans pass }
      else
        { s with
          blocked := s.blocked.erase agentId
          phase := .choosing rest (readyPlans ++ [agentId]) pass }
  | .launching [] pass => { s with phase := .condemning pass.failed pass.waitingOn }
  | .launching (_ :: _) _ => s
  | .condemning [] waitingOn =>
    { s with
      phase :=
        if s.blocked.entries.isEmpty then .exited
        else if waitingOn.isEmpty then .exited
        else .waiting waitingOn waitingOn false }
  | .condemning ((agentId, failures) :: rest) waitingOn =>
    match s.blocked.get agentId with
    | none => { s with phase := .condemning rest waitingOn }
    | some _ =>
      let (result, summary) := blockedResult failures claimedFiles
      { s.update agentId (ScheduledAgent.finish result (some summary)) with
        blocked := s.blocked.erase agentId
        phase := .condemning rest waitingOn }
  | .waiting _ [] true => { s with phase := .checking }
  -- Nothing was finished: the next round begins after an update.
  | .waiting waitingOn [] false => { s with phase := .waiting waitingOn waitingOn false }
  | .waiting waitingOn (agentId :: rest) completed =>
    match s.snapshot agentId with
    | none => { s with phase := .checking }
    | some snapshot =>
      { s with phase := .waiting waitingOn rest (completed || snapshot.status.isTerminal) }
  | .exited => s

/-- A launch of the pass ends with a worker, or with a failed child. -/
def launch (answer : Except String Unit) (claimedFiles : List String)
    (s : Scheduler α) : Scheduler α :=
  match s.phase with
  | .launching readyPlans pass =>
    if agentId ∈ readyPlans then
      let phase := .launching (readyPlans.erase agentId) pass
      match answer with
      | .ok () =>
        { s.update agentId ScheduledAgent.launch with
          phase
          launched := s.launched ++ [agentId] }
      | .error error =>
        { s.update agentId
            (ScheduledAgent.finish (failedResult error claimedFiles) (some error)) with
          phase }
    else s
  | _ => s

/-- **One step of the system.** -/
def step (s : Scheduler α) : Action α → Scheduler α
  | .advance claimedFiles => s.advance claimedFiles
  | .launch agentId answer claimedFiles => s.launch agentId answer claimedFiles
  | .cancel agentId reason claimedFiles =>
    s.update agentId (ScheduledAgent.cancel reason claimedFiles)
  | .report agentId status => s.updateIn .live agentId (ScheduledAgent.report status)
  | .finish agentId how claimedFiles =>
    s.updateIn .live agentId
      (ScheduledAgent.finish (how.result claimedFiles).1 (how.result claimedFiles).2)
  | .stop agentId => s.updateIn .live agentId ScheduledAgent.stop
  | .start agentId =>
    if (s.plans.get agentId).isSome then s
    else s.updateIn .idle agentId ScheduledAgent.launch
  | .abandon agentId failures claimedFiles =>
    if (s.plans.get agentId).isSome then s
    else
      s.updateIn .idle agentId
        (ScheduledAgent.finish (blockedResult failures claimedFiles).1
          (some (blockedResult failures claimedFiles).2))

/-! ### The properties -/

/-- The status of an agent. -/
def status (s : Scheduler α) : Option AgentStatus :=
  (s.agents agentId).map fun agent => agent.record.status

/-- **An agent has ended without success**: nothing writes its record any more. -/
def EndedBadly (s : Scheduler α) : Prop :=
  ∃ agent, s.agents agentId = some agent ∧ agent.stage = .done ∧
    (agent.record.status = .failed ∨ agent.record.status = .cancelled)

/-- **The scheduler rests**: it has exited, or none of the agents it waits for has finished. -/
def Rests (s : Scheduler α) : Prop :=
  match s.phase with
  | .exited => True
  | .waiting waitingOn _ _ =>
    ∀ agentId ∈ waitingOn, ∃ status, s.status agentId = some status ∧ status.isTerminal = false
  | _ => False

/-- A child of the batch depends on an agent. -/
def DependsOn (s : Scheduler α) (child dependency : α) : Prop :=
  ∃ dependencies, s.plans.get child = some dependencies ∧ dependency ∈ dependencies

/-- A step that does not cancel the child, with no dependency cancelled. -/
def Uncancelled (child : α) (dependencies : List α) (s : Scheduler α) (action : Action α) : Prop :=
  (∀ dependency ∈ dependencies, s.status dependency ≠ some .cancelled) ∧
    ∀ reason claimedFiles, action ≠ .cancel child reason claimedFiles

/-- A step of the scheduler itself. -/
def Action.IsOwn : Action α → Prop
  | .advance _ | .launch .. => True
  | _ => False

/-- **The system when the scheduler starts**: dependencies have a record, children of the batch were
not launched, and completed agents have no worker any more. -/
structure Started (s : Scheduler α) : Prop where
  blocked : s.blocked = s.plans
  phase : s.phase = .checking
  launched : s.launched = []
  dependencies : ∀ child dependencies, s.plans.get child = some dependencies →
    ∀ dependency ∈ dependencies, (s.agents dependency).isSome = true
  children : ∀ child dependencies, s.plans.get child = some dependencies →
    ∃ agent, s.agents child = some agent ∧ agent.stage = .idle
  completed : ∀ agentId agent, s.agents agentId = some agent →
    agent.record.status = .completed → agent.stage = .done

end Scheduler

end Nanoclaw
