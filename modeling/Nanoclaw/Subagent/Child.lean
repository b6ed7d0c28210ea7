import Nanoclaw.Lib.Positions
import Nanoclaw.Lib.System
import Nanoclaw.Subagent.Record
import Nanoclaw.Types.Path

/-!
# One Child Agent

Everything that happens to one child agent, as a transition system. A step is what one of the
tasks that work on the child (the dependency scheduler, the launch, the worker, calls of `send`,
`cancel` and `resume`) does between two points at which another task can come in.

A launch is one attempt to run the child, made by `spawn` or `resume`. It keeps the launch plan,
the receiving end of its mailbox channel and, once it was spawned, the worker. The worker
advances while it is polled (`Worker.polled`) and can be suspended where the source awaits
something; aborting it takes effect when it is not being polled.

What tasks outside of the child answer is part of the action. The fields `accepted`, `ran` and
`mark` are bookkeeping for statements. Interrupting sends are not part of this system.
-/

namespace Nanoclaw

/-! ### The worker -/

inductive ChildStartMode where
  | runInput (message : Message) (applyInitialSteer : Bool)
  | awaitMessage

/-- How a worker ends: `finish_success`, `finish_cancel` or `fail`. -/
inductive WorkerEnd where
  | success (answer : ChildAnswer)
  | cancel (reason : Option String)
  | fail (error : String)

/-- The result and the error a worker leaves in the record. -/
def WorkerEnd.result (claimedFiles : List String) : WorkerEnd → AgentResultEnvelope × Option String
  | success answer => (normalizeChildResult answer claimedFiles, none)
  | cancel reason => (cancelledResult reason claimedFiles, reason)
  | fail error => (failedResult error claimedFiles, some error)

/-- Where a worker is in `ChildAgentWorker::run`. -/
inductive WorkerPc where
  /-- Before the first status is written. -/
  | starting
  /-- Appending the start events. -/
  | announcing
  | steering
  /-- Waiting for the first message after a resume. -/
  | awaiting
  /-- Before the status `Running` is written after that message. -/
  | promoting
  | announcingRun
  /-- At the head of the loop over the inputs. -/
  | ready
  /-- In `run_input`. -/
  | running
  /-- In `consume_mailbox`, with the messages received so far. -/
  | draining (answer : ChildAnswer) (batch : List Message)
  /-- Before the record is finished. -/
  | finishing (how : WorkerEnd)
  /-- Appending the stop events and releasing the worktree. -/
  | announcingEnd (how : WorkerEnd)
  /-- Before the leases are released. -/
  | releasing (how : WorkerEnd)
  /-- In `end_session`. -/
  | ending (how : WorkerEnd)
  /-- Returned or dropped; a worker may return without finishing the record. -/
  | gone (how : Option WorkerEnd)

namespace WorkerPc

/-- The source awaits something here. -/
def awaits : WorkerPc → Bool
  | announcing | steering | awaiting | announcingRun | running | announcingEnd _ | ending _ => true
  | _ => false

def isGone : WorkerPc → Bool
  | gone _ => true
  | _ => false

end WorkerPc

structure Worker where
  pc : WorkerPc := .starting
  /-- The inputs to run next, from the message in the start mode on. -/
  nextInputs : List Message
  polled : Bool := false
  aborted : Bool := false

/-! ### Launches -/

/-- What the dependency gate reads of another child. -/
structure AgentRecordSnapshot where
  taskId : String
  status : AgentStatus
  /-- The summary of the result, if there is one. -/
  summary : Option String

/-- Where a launch is on its way from the scheduler to the worker. -/
inductive LaunchStage (α : Type) where
  /-- In the scheduler's map of blocked children. -/
  | blocked
  /-- In `dependency_gate`, with the dependencies still to read. -/
  | gating (rest : List α) (pending : Bool) (failures : List DependencyFailure)
  /-- Ready, before the status is read once more. -/
  | chosen
  /-- Before `fail_blocked_child`. -/
  | condemned (failures : List DependencyFailure)
  /-- In `persist_child_session_seed`. -/
  | seeding
  /-- In `build_child_runtime`. -/
  | building
  /-- The worker is spawned, its join handle not yet attached. -/
  | attaching
  /-- Before `fail_launch_child`. -/
  | failing (error : String)
  /-- After a failure, before the leases are released. -/
  | clearing
  /-- The worker is attached, or the launch was given up. -/
  | over

structure Launch (α : Type) where
  dependencies : List α := []
  persistSessionSeed : Bool := false
  startMode : ChildStartMode
  stage : LaunchStage α
  mailbox : List AgentControlMessage := []
  receiverOpen : Bool := true
  worker : Option Worker := none
  /-- The inputs that sends put into the mailbox. -/
  accepted : List Message := []
  /-- The inputs that the worker began to run. -/
  ran : List Message := []

/-- What a step leaves: the launch, the record and whether the leases are released. -/
structure Progress (α : Type) where
  launch : Launch α
  record : AgentRecord
  releases : Bool := false

namespace Launch

variable {α : Type} (launch : Launch α)

/-- The stage in which a child that may start begins to start. -/
def firstStage (persistSessionSeed : Bool) : LaunchStage α :=
  if persistSessionSeed then .seeding else .building

/-- The launch is given up, and the receiver with it. -/
def drop : Launch α :=
  { launch with stage := .over, receiverOpen := false }

/-- The inputs a new worker begins with. -/
def startInputs : List Message :=
  match launch.startMode with
  | .runInput message _ => [message]
  | .awaitMessage => []

/-- One step of `run_dependency_scheduler`; the gate reads one dependency at a time. -/
def schedule (record : AgentRecord) (dependency : Option AgentRecordSnapshot)
    (launch : Launch α) : Launch α :=
  match launch.stage with
  | .blocked =>
    if record.status.isTerminal then { launch with stage := .chosen }
    else { launch with stage := .gating launch.dependencies false [] }
  | .gating (_ :: rest) pending failures =>
    match dependency with
    | none => { launch with stage := .chosen }
    | some snapshot =>
      match snapshot.status with
      | .completed => { launch with stage := .gating rest pending failures }
      | .failed | .cancelled =>
        { launch with
          stage := .gating rest pending
            (failures ++ [⟨snapshot.taskId, snapshot.status, snapshot.summary⟩]) }
      | _ => { launch with stage := .gating rest true failures }
  | .gating [] pending failures =>
    if !failures.isEmpty then { launch with stage := .condemned failures }
    else if pending then { launch with stage := .blocked }
    else { launch with stage := .chosen }
  | .chosen =>
    if record.status.isTerminal then launch.drop
    else { launch with stage := firstStage launch.persistSessionSeed }
  | _ => launch

/-- The record is finished for a child that never ran. -/
def abandon (result : AgentResultEnvelope) (error : String) (record : AgentRecord)
    (launch : Launch α) : Progress α :=
  match record.finish result (some error) with
  | some record => { launch := { launch with stage := .clearing }, record }
  | none => { launch := launch.drop, record }

/-- One step of `launch_child_async`, `attach_child_worker`, `fail_launch_child` and
`fail_blocked_child`. -/
def advance (index : ℕ) (answer : Except String Unit) (claimedFiles : List String)
    (record : AgentRecord) (launch : Launch α) : Progress α :=
  match launch.stage with
  | .seeding =>
    match answer with
    | .ok () => { launch := { launch with stage := .building }, record }
    | .error error =>
      { launch := { launch with
          stage := .failing ("failed to persist forked child context: " ++ error) }
        record }
  | .building =>
    match answer with
    | .ok () =>
      { launch := { launch with
          stage := .attaching
          worker := some { nextInputs := launch.startInputs } }
        record }
    | .error error =>
      { launch := { launch with
          stage := .failing ("failed to prepare child runtime: " ++ error) }
        record }
  | .attaching =>
    { launch := { launch with stage := .over }, record := record.attachJoinHandle index }
  | .failing error => launch.abandon (failedResult error claimedFiles) error record
  | .condemned failures =>
    let (result, summary) := blockedResult failures claimedFiles
    launch.abandon result summary record
  | .clearing => { launch := launch.drop, record, releases := true }
  | _ => { launch, record }

/-- The worker returns, and the receiver with it. -/
def leave (how : Option WorkerEnd) (worker : Worker) (launch : Launch α) : Launch α :=
  { launch with worker := some { worker with pc := .gone how }, receiverOpen := false }

def goto (pc : WorkerPc) (worker : Worker) (launch : Launch α) : Launch α :=
  { launch with worker := some { worker with pc } }

/-- One step of a polled worker, given its steering and senders. -/
def work (steer : Option String) (hasSender : Bool) (answer : Except String ChildAnswer)
    (claimedFiles : List String) (record : AgentRecord) (worker : Worker)
    (launch : Launch α) : Progress α :=
  match worker.pc with
  | .starting =>
    let status := match launch.startMode with
      | .runInput _ _ => AgentStatus.running
      | .awaitMessage => AgentStatus.waitingMessage
    { launch := launch.goto .announcing worker, record := record.updateStatus status }
  | .announcing =>
    match answer with
    | .error _ => { launch := launch.leave none worker, record }
    | .ok _ =>
      match launch.startMode with
      | .runInput _ applyInitialSteer =>
        if applyInitialSteer && steer.isSome then
          { launch := launch.goto .steering worker, record }
        else { launch := launch.goto .ready worker, record }
      | .awaitMessage => { launch := launch.goto .awaiting worker, record }
  | .steering =>
    match answer with
    | .error error => { launch := launch.goto (.finishing (.fail error)) worker, record }
    | .ok _ => { launch := launch.goto .ready worker, record }
  | .awaiting =>
    match launch.mailbox with
    | .input message :: rest =>
      { launch := { launch with mailbox := rest }.goto .promoting
          { worker with nextInputs := [message] }
        record }
    | .cancel reason :: rest =>
      { launch := { launch with mailbox := rest }.goto (.finishing (.cancel reason)) worker
        record }
    | [] =>
      if hasSender then { launch, record }
      else
        { launch := launch.goto
            (.finishing (.cancel (some "child agent mailbox closed"))) worker
          record }
  | .promoting =>
    { launch := launch.goto .announcingRun worker, record := record.updateStatus .running }
  | .announcingRun =>
    match answer with
    | .error _ => { launch := launch.leave none worker, record }
    | .ok _ => { launch := launch.goto .ready worker, record }
  | .ready =>
    match worker.nextInputs with
    | [] => { launch := launch.leave none worker, record }
    | message :: rest =>
      { launch := { launch with ran := launch.ran ++ [message] }.goto .running
          { worker with nextInputs := rest }
        record }
  | .running =>
    match answer with
    | .error error => { launch := launch.goto (.finishing (.fail error)) worker, record }
    | .ok answer => { launch := launch.goto (.draining answer []) worker, record }
  | .draining answer batch =>
    match launch.mailbox with
    | .input message :: rest =>
      { launch := { launch with mailbox := rest }.goto
          (.draining answer (batch ++ [message])) worker
        record }
    | .cancel reason :: rest =>
      { launch := { launch with mailbox := rest }.goto (.finishing (.cancel reason)) worker
        record }
    | [] =>
      -- The inputs that are still queued locally do not keep the worker from finishing.
      if batch.isEmpty then
        { launch := launch.goto (.finishing (.success answer)) worker, record }
      else
        { launch := launch.goto .ready
            { worker with nextInputs := worker.nextInputs ++ batch }
          record }
  | .finishing how =>
    let (result, error) := how.result claimedFiles
    match record.finish result error with
    | none => { launch := launch.leave none worker, record }
    | some record => { launch := launch.goto (.announcingEnd how) worker, record }
  | .announcingEnd how => { launch := launch.goto (.releasing how) worker, record }
  | .releasing how => { launch := launch.goto (.ending how) worker, record, releases := true }
  | .ending how => { launch := launch.leave (some how) worker, record }
  | .gone _ => { launch, record }

/-- The executor polls the worker; an aborted one is dropped instead. -/
def poll : Launch α :=
  match launch.worker with
  | some worker =>
    if worker.polled || worker.pc.isGone then launch
    else if worker.aborted then launch.leave none worker
    else { launch with worker := some { worker with polled := true } }
  | none => launch

/-- The worker gives way where it awaits something. -/
def suspend : Launch α :=
  match launch.worker with
  | some worker =>
    if worker.polled && worker.pc.awaits then
      { launch with worker := some { worker with polled := false } }
    else launch
  | none => launch

/-- `JoinHandle::abort`. -/
def abort : Launch α :=
  { launch with worker := launch.worker.map fun worker => { worker with aborted := true } }

/-- An input enters the mailbox, unless the receiver was dropped. -/
def sendInput (message : Message) (launch : Launch α) : Launch α :=
  if launch.receiverOpen then
    { launch with
      mailbox := launch.mailbox ++ [.input message]
      accepted := launch.accepted ++ [message] }
  else launch

end Launch

/-! ### Calls -/

/-- A call of `send` with `Queue` delivery that found the child not finished. -/
inductive SendStage where
  | checked
  /-- The sender of this launch's mailbox was cloned. -/
  | addressed (launch : ℕ)
  | returned
  deriving DecidableEq

structure Send where
  message : Message
  stage : SendStage := .checked

/-- A call of `cancel` that found the child not finished. -/
inductive CancelStage where
  | checked
  | read (claimedFiles : List String)
  /-- After `AgentSessionManager::cancel`, before the leases are released. -/
  | marked
  | released
  | returned
  deriving DecidableEq

structure Cancel where
  reason : Option String
  stage : CancelStage := .checked

/-- A call of `resume` that found the child finished. -/
inductive ResumeStage where
  | checked
  /-- The leases are claimed; in `load_runtime_session`. -/
  | loading
  | reopening
  /-- Before the leases are released again. -/
  | abandoning
  | returned
  deriving DecidableEq

structure Resume where
  /-- The write set as it is resolved for this call. -/
  files : List PathBuf
  stage : ResumeStage := .checked

/-! ### The child -/

/-- The last cancellation: its result, and the inputs begun at its return. -/
structure Mark where
  result : AgentResultEnvelope
  returned : Option (List Message) := none

structure Child (α : Type) where
  taskId : String
  steer : Option String := none
  writeSet : List PathBuf
  record : AgentRecord
  launches : List (Launch α)
  sends : List Send := []
  cancels : List Cancel := []
  resumes : List Resume := []
  mark : Option Mark := none

/-- A call of the lease manager. -/
inductive LeaseCall where
  | claim (files : List PathBuf)
  | release

inductive Child.Action where
  | schedule (launch : ℕ) (dependency : Option AgentRecordSnapshot)
  | launch (launch : ℕ) (answer : Except String Unit) (claimedFiles : List String)
  | poll (launch : ℕ)
  | suspend (launch : ℕ)
  | work (launch : ℕ) (answer : Except String ChildAnswer) (claimedFiles : List String)
  | send (message : Message)
  | advanceSend (call : ℕ)
  | cancel (reason : Option String)
  | advanceCancel (call : ℕ) (claimedFiles : List String)
  | resume (files : List PathBuf)
  | advanceResume (call : ℕ) (answer : Bool)

namespace Child

variable {α : Type} (child : Child α)

/-- A child as `spawn` inserts it. -/
def spawned (taskId : String) (steer : Option String) (writeSet : List PathBuf)
    (dependencies : List α) (persistSessionSeed : Bool) (message : Message) : Child α where
  taskId := taskId
  steer := steer
  writeSet := writeSet
  record := { mailbox := 0 }
  launches := [{
    dependencies
    persistSessionSeed
    startMode := .runInput message true
    stage := if dependencies.isEmpty then Launch.firstStage persistSessionSeed else .blocked }]

/-- The launch that a resume makes. -/
def resumedLaunch : Launch α :=
  { startMode := .awaitMessage, stage := Launch.firstStage false }

def setLaunch (index : ℕ) (launch : Launch α) (child : Child α) : Child α :=
  { child with launches := child.launches.set index launch }

@[simp] theorem launches_setLaunch (index : ℕ) (launch : Launch α) (child : Child α) :
    (child.setLaunch index launch).launches = child.launches.set index launch := rfl

/-- A sender of the launch's mailbox is left: the one in the record, or a clone. -/
def hasSender (index : ℕ) (child : Child α) : Bool :=
  child.record.mailbox == index || child.sends.any fun send => send.stage == .addressed index

/-- All inputs that workers of the child began to run. -/
def inputsRun : List Message :=
  child.launches.flatMap Launch.ran

/-- Put the outcome of a step of a launch back. -/
def settle (index : ℕ) (progress : Progress α) (child : Child α) : Child α × Option LeaseCall :=
  ({ child.setLaunch index progress.launch with record := progress.record },
    if progress.releases then some .release else none)

/-- One step of a call of `send`. -/
def advanceSend (call : ℕ) (child : Child α) : Child α :=
  match child.sends[call]? with
  | none => child
  | some send =>
    match send.stage with
    | .checked =>
      { child with
        sends := child.sends.set call { send with stage := .addressed child.record.mailbox } }
    | .addressed index =>
      let sent := match child.launches[index]? with
        | some launch => child.setLaunch index (launch.sendInput send.message)
        | none => child
      { sent with sends := child.sends.set call { send with stage := .returned } }
    | .returned => child

/-- One step of a call of `cancel`. -/
def advanceCancel (call : ℕ) (claimedFiles : List String) (child : Child α) :
    Child α × Option LeaseCall :=
  match child.cancels[call]? with
  | none => (child, none)
  | some cancel =>
    let goto (stage : CancelStage) (child : Child α) : Child α :=
      { child with cancels := child.cancels.set call { cancel with stage } }
    match cancel.stage with
    | .checked => (goto (.read claimedFiles) child, none)
    | .read claimedFiles =>
      match child.record.cancel cancel.reason claimedFiles with
      | none => (goto .marked child, none)
      | some (record, handle, result) =>
        let aborted := match handle.bind fun index =>
            child.launches[index]?.map fun launch => (index, launch) with
          | some (index, launch) => child.setLaunch index launch.abort
          | none => child
        (goto .marked { aborted with record, mark := some { result } }, none)
    | .marked => (goto .released child, some .release)
    | .released =>
      let mark := child.mark.map fun mark =>
        { mark with returned := some (mark.returned.getD child.inputsRun) }
      (goto .returned { child with mark }, none)
    | .returned => (child, none)

/-- One step of `resume`; the answer is that of the leases or of the load. -/
def advanceResume (call : ℕ) (answer : Bool) (child : Child α) : Child α × Option LeaseCall :=
  match child.resumes[call]? with
  | none => (child, none)
  | some resume =>
    let goto (stage : ResumeStage) (child : Child α) : Child α :=
      { child with resumes := child.resumes.set call { resume with stage } }
    match resume.stage with
    | .checked => (goto (if answer then .loading else .returned) child, some (.claim resume.files))
    | .loading => (goto (if answer then .reopening else .abandoning) child, none)
    | .reopening =>
      match child.record.reopen child.launches.length with
      | none => (goto .abandoning child, none)
      | some record =>
        (goto .returned
          { child with
            record
            writeSet := resume.files
            launches := child.launches ++ [resumedLaunch]
            mark := none }, none)
    | .abandoning => (goto .returned child, some .release)
    | .returned => (child, none)

/-- **One step of a task that works on the child**, with its call of the lease manager. -/
def step : Action → Child α × Option LeaseCall
  | .schedule index dependency =>
    match child.launches[index]? with
    | some launch => (child.setLaunch index (launch.schedule child.record dependency), none)
    | none => (child, none)
  | .launch index answer claimedFiles =>
    match child.launches[index]? with
    | some launch => child.settle index (launch.advance index answer claimedFiles child.record)
    | none => (child, none)
  | .poll index =>
    match child.launches[index]? with
    | some launch => (child.setLaunch index launch.poll, none)
    | none => (child, none)
  | .suspend index =>
    match child.launches[index]? with
    | some launch => (child.setLaunch index launch.suspend, none)
    | none => (child, none)
  | .work index answer claimedFiles =>
    match child.launches[index]? with
    | some launch =>
      match launch.worker with
      | some worker =>
        if worker.polled then
          child.settle index (launch.work child.steer (child.hasSender index) answer
            claimedFiles child.record worker)
        else (child, none)
      | none => (child, none)
    | none => (child, none)
  | .send message =>
    if child.record.status.isTerminal then (child, none)
    else ({ child with sends := child.sends ++ [{ message }] }, none)
  | .advanceSend call => (child.advanceSend call, none)
  | .cancel reason =>
    if child.record.status.isTerminal then (child, none)
    else ({ child with cancels := child.cancels ++ [{ reason }] }, none)
  | .advanceCancel call claimedFiles => child.advanceCancel call claimedFiles
  | .resume files =>
    if child.record.status.isTerminal then
      ({ child with resumes := child.resumes ++ [{ files }] }, none)
    else (child, none)
  | .advanceResume call answer => child.advanceResume call answer

/-- The child after one step. -/
def next (action : Action) : Child α :=
  (child.step action).1

/-! ### What a step does to the launches -/

/-- What an action makes of the launch with number `index`, where it touches it. -/
inductive Evolves (child : Child α) : Action → ℕ → Launch α → Launch α → Prop where
  | schedule (index : ℕ) (dependency : Option AgentRecordSnapshot) (launch : Launch α) :
      Evolves child (.schedule index dependency) index launch
        (launch.schedule child.record dependency)
  | advance (index : ℕ) (answer : Except String Unit) (claimedFiles : List String)
      (launch : Launch α) :
      Evolves child (.launch index answer claimedFiles) index launch
        (launch.advance index answer claimedFiles child.record).launch
  | poll (index : ℕ) (launch : Launch α) : Evolves child (.poll index) index launch launch.poll
  | suspend (index : ℕ) (launch : Launch α) :
      Evolves child (.suspend index) index launch launch.suspend
  | work (index : ℕ) (answer : Except String ChildAnswer) (claimedFiles : List String)
      (launch : Launch α) (worker : Worker) (hworker : launch.worker = some worker)
      (hpolled : worker.polled = true) :
      Evolves child (.work index answer claimedFiles) index launch
        (launch.work child.steer (child.hasSender index) answer claimedFiles child.record
          worker).launch
  | sendInput (call index : ℕ) (send : Send) (launch : Launch α)
      (hsend : child.sends[call]? = some send) (hstage : send.stage = .addressed index) :
      Evolves child (.advanceSend call) index launch (launch.sendInput send.message)
  | abort (call index : ℕ) (files claimedFiles : List String) (cancel : Cancel)
      (launch : Launch α) (hcancel : child.cancels[call]? = some cancel)
      (hstage : cancel.stage = .read files)
      (hstatus : child.record.status.isTerminal = false)
      (hhandle : child.record.joinHandle = some index) :
      Evolves child (.advanceCancel call claimedFiles) index launch launch.abort

/-- A launch of the child after a step: untouched, touched by the step, or new. -/
inductive Origin (child : Child α) (action : Action) (index : ℕ) (launch : Launch α) : Prop where
  | kept (h : child.launches[index]? = some launch)
  | evolved (old : Launch α) (h : child.launches[index]? = some old)
      (he : Evolves child action index old launch)
  | resumed (hindex : index = child.launches.length) (h : launch = resumedLaunch)

theorem Origin.of_set {child : Child α} {action : Action} {index i : ℕ}
    {launch old touched : Launch α} (hold : child.launches[i]? = some old)
    (he : Evolves child action i old touched)
    (h : (child.launches.set i touched)[index]? = some launch) :
    Origin child action index launch := by
  rcases getElem?_set_cases h with ⟨rfl, rfl⟩ | ⟨-, hkept⟩
  · exact .evolved old hold he
  · exact .kept hkept

/-- **Where the launches after a step come from.** -/
theorem origin_next (action : Action) {index : ℕ} {launch : Launch α}
    (h : (child.next action).launches[index]? = some launch) :
    Origin child action index launch := by
  cases action with
  | schedule | launch | poll | suspend =>
    rw [next, step] at h
    split at h
    next old hl => exact .of_set hl (by constructor) h
    · exact .kept h
  | work i answer claimedFiles =>
    rw [next, step] at h
    split at h
    next old hl =>
      split at h
      next worker hw =>
        split at h
        next hp => exact .of_set hl (.work i answer claimedFiles old worker hw hp) h
        · exact .kept h
      · exact .kept h
    · exact .kept h
  | send | cancel | resume =>
    rw [next, step] at h
    split at h <;> exact .kept h
  | advanceSend call =>
    rw [next, step, advanceSend] at h
    split at h
    · exact .kept h
    next send hs =>
      split at h
      · exact .kept h
      next i hstage =>
        split at h
        next old hl => exact .of_set hl (.sendInput call i send old hs hstage) h
        · exact .kept h
      · exact .kept h
  | advanceCancel call claimedFiles =>
    rw [next, step, advanceCancel] at h
    cases hc : child.cancels[call]? with
    | none => exact .kept (by simpa [hc] using h)
    | some cancel =>
      cases hstage : cancel.stage with
      | checked | marked | released | returned => exact .kept (by simpa [hc, hstage] using h)
      | read files =>
        cases ht : child.record.status.isTerminal with
        | true => exact .kept (by simpa [hc, hstage, AgentRecord.cancel, ht] using h)
        | false =>
          simp only [hc, hstage, AgentRecord.cancel, ht] at h
          cases hj : child.record.joinHandle with
          | none => exact .kept (by simpa [hj] using h)
          | some i =>
            cases hl : child.launches[i]? with
            | none => exact .kept (by simpa [hj, hl] using h)
            | some old =>
              exact .of_set hl (.abort call i files claimedFiles cancel old hc hstage ht hj)
                (by simpa [hj, hl] using h)
  | advanceResume call answer =>
    rw [next, step, advanceResume] at h
    split at h
    · exact .kept h
    · dsimp only at h
      split at h
      · exact .kept h
      · exact .kept h
      · split at h
        · exact .kept h
        · rcases getElem?_snoc_eq_some.mp h with hkept | ⟨hindex, hnew⟩
          · exact .kept hkept
          · exact .resumed hindex hnew.symm
      · exact .kept h
      · exact .kept h

end Child

end Nanoclaw
