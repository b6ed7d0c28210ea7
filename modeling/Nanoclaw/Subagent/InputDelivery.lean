import Nanoclaw.Subagent.Child

/-!
# Delivery of Inputs to a Child

The inputs of a launch are the message it was started with and the messages that sends put into
its mailbox. From there they move in batches to the worker's local queue and into the session.

No input is run twice or out of order (`Launch.Sound`). But the worker decides to finish when it
finds the mailbox empty, whatever its local queue holds, and a send is accepted as long as the
worker has not returned.
-/

namespace Nanoclaw

open System

/-! ### The inputs of a launch -/

/-- The messages received by the drain in progress. -/
def WorkerPc.batch : WorkerPc → List Message
  | .draining _ batch => batch
  | _ => []

@[simp] theorem WorkerPc.batch_starting : WorkerPc.starting.batch = [] := rfl

@[simp] theorem WorkerPc.batch_gone (how : Option WorkerEnd) : (gone how).batch = [] := rfl

/-- The worker has decided to succeed, and has not returned. -/
def WorkerPc.succeeding : WorkerPc → Bool
  | .finishing (.success _) | .announcingEnd (.success _) | .releasing (.success _)
  | .ending (.success _) => true
  | _ => false

/-- The worker has finished the record with success. -/
def WorkerPc.succeeded : WorkerPc → Bool
  | .announcingEnd (.success _) | .releasing (.success _) | .ending (.success _)
  | .gone (some (.success _)) => true
  | _ => false

variable {pc : WorkerPc} {action : Child.Action} {index : ℕ} (result : AgentResultEnvelope)
  (record : AgentRecord) (dependency : Option AgentRecordSnapshot) (error : String)

theorem WorkerPc.isGone_of_succeeded (h : pc.succeeded = true)
    (hs : pc.succeeding = false) : pc.isGone = true := by
  unfold succeeded at h
  split at h
  · cases hs
  · cases hs
  · cases hs
  · rfl
  · cases h

/-- The worker has not received anything yet. -/
def WorkerPc.early : WorkerPc → Bool
  | .starting | .announcing | .awaiting => true
  | _ => false

/-- The worker of the launch is not built yet. -/
def LaunchStage.unborn {α : Type} : LaunchStage α → Bool
  | .blocked | .gating _ _ _ | .chosen | .seeding | .building => true
  | _ => false

namespace Launch

variable {α : Type}

/-- The inputs that the worker holds, or will be created with. -/
def held (launch : Launch α) : List Message :=
  match launch.worker with
  | none => launch.startInputs
  | some worker => worker.nextInputs ++ worker.pc.batch

/-- **The inputs that wait**: in the worker's local queue or in the mailbox. -/
def waiting (launch : Launch α) : List Message :=
  launch.held ++ AgentControlMessage.inputs launch.mailbox

/-- **The inputs of the launch**: the message it was started with, then the accepted
ones. -/
def inputs (launch : Launch α) : List Message :=
  launch.startInputs ++ launch.accepted

/-- What holds of every launch: the inputs begun and waiting are its inputs. -/
structure Sound (launch : Launch α) : Prop where
  conserved : launch.ran ++ launch.waiting = launch.inputs
  onlyInputs : ∀ control ∈ launch.mailbox, ∃ message, control = .input message
  unborn : launch.stage.unborn = true → launch.worker = none
  early : ∀ worker ∈ launch.worker, worker.pc.early = true → worker.nextInputs = launch.startInputs
  awaiting : ∀ worker ∈ launch.worker, worker.pc = .awaiting → launch.startInputs = []
  gone : ∀ worker ∈ launch.worker, worker.pc.isGone = true → launch.receiverOpen = false
  paused : ∀ worker ∈ launch.worker, worker.polled = false → worker.pc.batch = []

variable {launch : Launch α}

section

variable (h : launch.Sound)

include h

/-- A change of the stage that does not go back behind the worker's creation. -/
theorem Sound.setStage {stage : LaunchStage α}
    (hs : stage.unborn = true → launch.stage.unborn = true) : { launch with stage }.Sound :=
  { h with unborn := fun hu => h.unborn (hs hu) }

theorem Sound.drop : launch.drop.Sound :=
  { h with
    unborn := nofun
    gone := fun _ _ _ => rfl }

theorem Sound.schedule : (launch.schedule record dependency).Sound := by
  unfold Launch.schedule
  repeat' split
  all_goals
    first
    | exact h
    | exact h.drop
    | exact h.setStage fun hu => by simp_all [LaunchStage.unborn]

theorem Sound.abandon (record : AgentRecord) :
    (launch.abandon result error record).launch.Sound := by
  unfold Launch.abandon
  split
  · exact h.setStage nofun
  · exact h.drop

/-- The worker is created with the inputs the launch holds for it. -/
theorem Sound.create (hstage : launch.stage.unborn = true) :
    { launch with
      stage := .attaching
      worker := some { nextInputs := launch.startInputs } : Launch α }.Sound := by
  have hworker := h.unborn hstage
  have hconserved := h.conserved
  refine ⟨?_, h.onlyInputs, (nofun), ?_, ?_, ?_, ?_⟩
  · simpa [waiting, held, hworker, inputs, startInputs] using hconserved
  all_goals rintro worker ⟨⟩ hpc
  all_goals first | rfl | cases hpc

theorem Sound.advance (index : ℕ)
    (answer : Except String Unit) (claimedFiles : List String) (record : AgentRecord) :
    (launch.advance index answer claimedFiles record).launch.Sound := by
  unfold Launch.advance
  split
  next hstage =>
    split
    · exact h.setStage fun _ => by rw [hstage]; rfl
    · exact h.setStage nofun
  next hstage =>
    split
    · exact h.create (by rw [hstage]; rfl)
    · exact h.setStage nofun
  next => exact h.setStage nofun
  next => exact h.abandon _ _ _
  next => exact h.abandon _ _ _
  next => exact h.drop
  next => exact h

end

variable {worker : Worker}

section

variable (h : launch.Sound)

include h

section

variable (hworker : launch.worker = some worker)

include hworker

/-- Inputs move from the mailbox to the local queue and from there into the session. -/
theorem Sound.put {ran : List Message} {mailbox : List AgentControlMessage} {worker' : Worker}
    (hmoved : ran ++ (worker'.nextInputs ++ worker'.pc.batch ++
        AgentControlMessage.inputs mailbox) =
      launch.ran ++ (worker.nextInputs ++ worker.pc.batch ++
        AgentControlMessage.inputs launch.mailbox)) (hmailbox : mailbox ⊆ launch.mailbox)
    (hearly : worker'.pc.early = true → worker.pc.early = true ∧
      worker'.nextInputs = worker.nextInputs)
    (hawaiting : worker'.pc = .awaiting → launch.startInputs = [])
    (hgone : worker'.pc.isGone = false) (hpolled : worker'.polled = true) :
    { launch with ran, mailbox, worker := some worker' }.Sound := by
  have hconserved := h.conserved
  simp only [waiting, held, hworker] at hconserved
  refine ⟨hmoved.trans hconserved, fun control hc => h.onlyInputs control (hmailbox hc),
    fun hu => ?_, ?_, ?_, ?_, ?_⟩
  · exact nomatch hworker.symm.trans (h.unborn hu)
  · rintro _ ⟨⟩ hpc
    exact (hearly hpc).2.trans (h.early worker hworker (hearly hpc).1)
  · rintro _ ⟨⟩ hpc
    exact hawaiting hpc
  · rintro _ ⟨⟩ hpc
    exact nomatch hpc.symm.trans hgone
  · rintro _ ⟨⟩ hpaused
    exact nomatch hpaused.symm.trans hpolled

/-- A step of the worker that neither receives nor begins an input. -/
theorem Sound.goto
    (hbatch : worker.pc.batch = pc.batch) (hearly : pc.early = true → worker.pc.early = true)
    (hawaiting : pc = .awaiting → launch.startInputs = []) (hgone : pc.isGone = false)
    (hpolled : worker.polled = true) : (launch.goto pc worker).Sound :=
  h.put hworker (by rw [hbatch]) (.refl _) (fun hpc => ⟨hearly hpc, rfl⟩) hawaiting
    hgone hpolled

theorem Sound.leave (hbatch : worker.pc.batch = [])
    (how : Option WorkerEnd) : (launch.leave how worker).Sound := by
  have hconserved := h.conserved
  refine ⟨?_, h.onlyInputs, fun hu => ?_, ?_, ?_, fun _ _ _ => rfl, ?_⟩
  · simpa [Launch.leave, waiting, held, hworker, hbatch, inputs, startInputs] using hconserved
  · exact nomatch hworker.symm.trans (h.unborn hu)
  all_goals rintro _ ⟨⟩ hpc
  all_goals first | rfl | cases hpc

/-- **Every step of a worker keeps its launch sound.** -/
theorem Sound.work (hpolled : worker.polled = true) (steer : Option String) (hasSender : Bool)
    (answer : Except String ChildAnswer) (claimedFiles : List String) (record : AgentRecord) :
    (launch.work steer hasSender answer claimedFiles record worker).launch.Sound := by
  obtain ⟨pc, nextInputs, polled, aborted⟩ := worker
  cases pc with
  | starting => exact h.goto hworker rfl (fun _ => rfl) nofun rfl hpolled
  | announcing =>
    unfold Launch.work
    dsimp only
    split
    · exact h.leave hworker rfl none
    · split
      · split <;> exact h.goto hworker rfl nofun nofun rfl hpolled
      next hmode =>
        refine h.goto hworker rfl (fun _ => rfl) (fun _ => ?_) rfl hpolled
        rw [startInputs, hmode]
  | awaiting =>
    unfold Launch.work
    dsimp only
    split
    next message rest hm =>
      -- The worker held nothing, so the message it received is its only input.
      have hnone : nextInputs = [] := (h.early _ hworker rfl).trans (h.awaiting _ hworker rfl)
      refine h.put hworker ?_ (by simp [hm]) nofun nofun rfl hpolled
      rw [hm, hnone]
      rfl
    next reason rest hm => exact absurd (h.onlyInputs _ (hm ▸ List.mem_cons_self)) (by simp)
    next =>
      split
      · exact h
      · exact h.goto hworker rfl nofun nofun rfl hpolled
  | announcingRun =>
    cases answer with
    | error => exact h.leave hworker rfl none
    | ok => exact h.goto hworker rfl nofun nofun rfl hpolled
  | ready =>
    cases nextInputs with
    | nil => exact h.leave hworker rfl none
    | cons message rest =>
      refine h.put hworker ?_ (.refl _) nofun nofun rfl hpolled
      simp [WorkerPc.batch]
  | draining answer batch =>
    unfold Launch.work
    dsimp only
    split
    next message rest hm =>
      refine h.put hworker ?_ (by simp [hm]) nofun nofun rfl hpolled
      simp [hm, WorkerPc.batch]
    next reason rest hm => exact absurd (h.onlyInputs _ (hm ▸ List.mem_cons_self)) (by simp)
    next hm =>
      split
      next hb =>
        obtain rfl := List.isEmpty_iff.mp hb
        exact h.goto hworker rfl nofun nofun rfl hpolled
      next =>
        refine h.put hworker ?_ (.refl _) nofun nofun rfl hpolled
        simp [WorkerPc.batch]
  | finishing how =>
    unfold Launch.work
    dsimp only
    split
    · exact h.leave hworker rfl none
    · exact h.goto hworker rfl nofun nofun rfl hpolled
  | steering | running => cases answer <;> exact h.goto hworker rfl nofun nofun rfl hpolled
  | promoting | announcingEnd | releasing => exact h.goto hworker rfl nofun nofun rfl hpolled
  | ending how => exact h.leave hworker rfl _
  | gone => exact h

end

theorem Sound.poll : launch.poll.Sound := by
  unfold Launch.poll
  split
  next worker hworker =>
    split
    · exact h
    next hidle =>
      have hpaused : worker.polled = false := by cases hp : worker.polled <;> simp_all
      split
      · exact h.leave hworker (h.paused worker hworker hpaused) none
      · have hgone : worker.pc.isGone = false := by cases hg : worker.pc.isGone <;> simp_all
        exact h.put hworker rfl (.refl _) (fun hpc => ⟨hpc, rfl⟩)
          (h.awaiting worker hworker) hgone rfl
  · exact h

/-- A change of the worker that leaves it where it is. -/
theorem Sound.mapWorker {f : Worker → Worker}
    (hpc : ∀ worker ∈ launch.worker, (f worker).pc = worker.pc)
    (hnext : ∀ worker ∈ launch.worker, (f worker).nextInputs = worker.nextInputs)
    (hpaused : ∀ worker ∈ launch.worker, (f worker).polled = false → worker.pc.batch = []) :
    { launch with worker := launch.worker.map f }.Sound := by
  cases hw : launch.worker with
  | none =>
    rw [Option.map_none, ← hw]
    exact h
  | some worker =>
    have hconserved := h.conserved
    simp only [waiting, held, hw] at hconserved
    refine ⟨?_, h.onlyInputs, fun hu => ?_, ?_, ?_, ?_, ?_⟩
    · simpa [waiting, held, hpc worker hw, hnext worker hw, inputs, startInputs] using hconserved
    · exact nomatch hw.symm.trans (h.unborn hu)
    · rintro _ ⟨⟩ he
      exact (hnext worker hw).trans (h.early worker hw (hpc worker hw ▸ he))
    · rintro _ ⟨⟩ he
      exact h.awaiting worker hw ((hpc worker hw).symm.trans he)
    · rintro _ ⟨⟩ hg
      exact h.gone worker hw (hpc worker hw ▸ hg)
    · rintro _ ⟨⟩ hp
      exact hpc worker hw ▸ hpaused worker hw hp

theorem Sound.suspend : launch.suspend.Sound := by
  unfold Launch.suspend
  split
  next worker hworker =>
    split
    next hawaits =>
      have hbatch : worker.pc.batch = [] := by
        cases hpc : worker.pc <;> simp_all [WorkerPc.awaits, WorkerPc.batch]
      have := h.mapWorker (f := fun worker => { worker with polled := false })
        (fun _ _ => rfl) (fun _ _ => rfl) (by rintro _ hw -; simp_all)
      simpa [hworker] using this
    · exact h
  · exact h

theorem Sound.abort : launch.abort.Sound :=
  h.mapWorker (fun _ _ => rfl) (fun _ _ => rfl) h.paused

theorem Sound.sendInput (message : Message) : (launch.sendInput message).Sound := by
  unfold Launch.sendInput
  split
  · have hconserved := h.conserved
    refine { h with conserved := ?_, onlyInputs := ?_ }
    · have hsent := congrArg (· ++ [message]) hconserved
      simpa [waiting, held, inputs, startInputs] using hsent
    · exact List.forall_mem_append.mpr ⟨h.onlyInputs, List.forall_mem_singleton.mpr ⟨message, rfl⟩⟩
  · exact h

/-- **Every step keeps every launch sound**: no input is lost, doubled or overtaken. -/
theorem Sound.evolves {child : Child α} {launch' : Launch α}
    (he : child.Evolves action index launch launch') : launch'.Sound := by
  cases he with
  | schedule => exact h.schedule _ _
  | advance => exact h.advance _ _ _ _
  | poll => exact h.poll
  | suspend => exact h.suspend
  | work _ _ _ _ worker hworker hpolled => exact h.work hworker hpolled _ _ _ _ _
  | sendInput => exact h.sendInput _
  | abort => exact h.abort

end

end Launch

/-! ### Success -/

namespace Child

variable {α : Type}

/-- **The condition on one step**: a worker that finds its mailbox empty has an empty local queue,
and inputs enter a mailbox only before the worker has decided to succeed. -/
def attentive (child : Child α) : Action → Bool
  | .work index _ _ =>
    match child.launches[index]? with
    | some launch =>
      match launch.worker with
      | some worker =>
        match worker.pc with
        | .draining _ [] => !launch.mailbox.isEmpty || worker.nextInputs.isEmpty
        | _ => true
      | none => true
    | none => true
  | .advanceSend call =>
    match child.sends[call]? with
    | some { stage := .addressed index, .. } =>
      match child.launches[index]? with
      | some launch => launch.worker.all fun worker => !worker.pc.succeeding
      | none => true
    | _ => true
  | _ => true

end Child

namespace Launch

variable {α : Type}

/-- **Every accepted input is run before success**, each once and in order. -/
structure Delivered (launch : Launch α) : Prop where
  inOrder : launch.ran ++ launch.waiting = launch.inputs
  noneLeft : ∀ worker ∈ launch.worker, worker.pc.succeeded = true → launch.waiting = []

/-- A worker that has decided to succeed, or did, has nothing left. -/
def Attended (launch : Launch α) : Prop :=
  ∀ worker ∈ launch.worker, (worker.pc.succeeding || worker.pc.succeeded) = true →
    launch.waiting = []

variable {launch launch' : Launch α}

theorem Attended.of_eq (h : launch.Attended) (hworker : launch'.worker = launch.worker)
    (hwaiting : launch'.waiting = launch.waiting) : launch'.Attended :=
  fun worker hw hs => hwaiting.trans (h worker (hworker ▸ hw) hs)

variable {worker : Worker}

/-- A worker that moves on without deciding to succeed. -/
theorem attended_of_worker (hworker : launch.worker = some worker)
    (h : (worker.pc.succeeding || worker.pc.succeeded) = true → launch.waiting = []) :
    launch.Attended := by
  intro worker' hw hs
  cases hworker.symm.trans hw
  exact h hs

section

variable (h : launch.Attended)

include h

theorem Attended.goto (hworker : launch.worker = some worker) (hbatch : worker.pc.batch = pc.batch)
    (hpc : (pc.succeeding || pc.succeeded) = true →
      (worker.pc.succeeding || worker.pc.succeeded) = true) : (launch.goto pc worker).Attended := by
  refine attended_of_worker rfl fun hs => ?_
  have hwaiting := h worker hworker (hpc hs)
  simpa [waiting, held, Launch.goto, hworker, hbatch] using hwaiting

theorem Attended.leave (hworker : launch.worker = some worker) (hbatch : worker.pc.batch = [])
    {how : Option WorkerEnd}
    (hhow : (WorkerPc.gone how).succeeded = true →
      (worker.pc.succeeding || worker.pc.succeeded) = true) :
    (launch.leave how worker).Attended := by
  refine attended_of_worker rfl fun hs => ?_
  have hwaiting := h worker hworker (hhow hs)
  simpa [waiting, held, Launch.leave, hworker, hbatch] using hwaiting

theorem Attended.schedule : (launch.schedule record dependency).Attended := by
  unfold Launch.schedule
  repeat' split
  all_goals exact h

theorem Attended.abandon (record : AgentRecord) :
    (launch.abandon result error record).launch.Attended := by
  unfold Launch.abandon
  split <;> exact h

theorem Attended.advance (index : ℕ) (answer : Except String Unit) (claimedFiles : List String)
    (record : AgentRecord) : (launch.advance index answer claimedFiles record).launch.Attended := by
  unfold Launch.advance
  split
  next => split <;> exact h
  next =>
    split
    · exact attended_of_worker rfl nofun
    · exact h
  next => exact h
  next => exact h.abandon _ _ _
  next => exact h.abandon _ _ _
  next => exact h
  next => exact h

/-- **A worker succeeds only with nothing left**, if its last look met the condition. -/
theorem Attended.work (hworker : launch.worker = some worker)
    (hattentive : ∀ answer, worker.pc = .draining answer [] → launch.mailbox = [] →
      worker.nextInputs = []) (steer : Option String) (hasSender : Bool)
    (answer : Except String ChildAnswer) (claimedFiles : List String) (record : AgentRecord) :
    (launch.work steer hasSender answer claimedFiles record worker).launch.Attended := by
  obtain ⟨pc, nextInputs, polled, aborted⟩ := worker
  unfold Launch.work
  cases pc with
  | draining answer batch =>
    dsimp only
    split
    · exact attended_of_worker rfl nofun
    · exact attended_of_worker rfl nofun
    next hm =>
      split
      next hb =>
        -- The one place where success is decided.
        obtain rfl := List.isEmpty_iff.mp hb
        obtain rfl : nextInputs = [] := hattentive _ rfl hm
        refine attended_of_worker rfl fun _ => ?_
        simp [waiting, held, Launch.goto, hm, WorkerPc.batch]
      next => exact attended_of_worker rfl nofun
  | finishing how =>
    dsimp only
    split
    · exact attended_of_worker rfl nofun
    · refine h.goto hworker rfl fun hs => ?_
      cases how <;> first | rfl | cases hs
  | announcingEnd how | releasing how =>
    refine h.goto hworker rfl fun hs => ?_
    cases how <;> first | rfl | cases hs
  | ending how =>
    refine h.leave hworker rfl fun hs => ?_
    cases how <;> first | rfl | cases hs
  | _ =>
    dsimp only
    repeat' split
    all_goals first | exact h | exact attended_of_worker rfl nofun

theorem Attended.poll : launch.poll.Attended := by
  unfold Launch.poll
  split
  next worker hworker =>
    split
    · exact h
    · split
      · exact attended_of_worker rfl nofun
      · refine attended_of_worker rfl fun hs => ?_
        simpa [waiting, held, hworker] using h worker hworker hs
  · exact h

theorem Attended.suspend : launch.suspend.Attended := by
  unfold Launch.suspend
  split
  next worker hworker =>
    split
    · refine attended_of_worker rfl fun hs => ?_
      simpa [waiting, held, hworker] using h worker hworker hs
    · exact h
  · exact h

theorem Attended.abort : launch.abort.Attended := by
  unfold Launch.abort
  cases hworker : launch.worker with
  | none => exact h.of_eq (by simp [hworker]) (by simp [waiting, held, hworker, startInputs])
  | some worker =>
    refine attended_of_worker rfl fun hs => ?_
    simpa [waiting, held, hworker] using h worker hworker hs

/-- An input that a launch accepts comes before its worker decided to succeed. -/
theorem Attended.sendInput (hsound : launch.Sound)
    (hattentive : ∀ worker ∈ launch.worker, worker.pc.succeeding = false) (message : Message) :
    (launch.sendInput message).Attended := by
  unfold Launch.sendInput
  split
  next hopen =>
    intro worker hworker hs
    rw [hattentive worker hworker] at hs
    -- The worker has returned, so the receiver is closed.
    have hgone := WorkerPc.isGone_of_succeeded hs (hattentive worker hworker)
    exact nomatch hopen.symm.trans (hsound.gone worker hworker hgone)
  · exact h

end

/-- A launch that nothing happened to yet. -/
theorem sound_new (dependencies : List α) (persistSessionSeed : Bool)
    (startMode : ChildStartMode) (stage : LaunchStage α) :
    ({ dependencies, persistSessionSeed, startMode, stage } : Launch α).Sound ∧
      ({ dependencies, persistSessionSeed, startMode, stage } : Launch α).Attended := by
  have hnone : ∀ {P : Worker → Prop}, ∀ worker ∈ (none : Option Worker), P worker :=
    fun _ h => absurd h (Option.not_mem_none _)
  exact ⟨⟨rfl, nofun, fun _ => rfl, hnone, hnone, hnone, hnone⟩, hnone⟩

/-- **Every step that meets the condition keeps a launch attended.** -/
theorem Attended.evolves {child : Child α} (h : launch.Attended) (hsound : launch.Sound)
    (hlaunch : child.launches[index]? = some launch) (hattentive : child.attentive action = true)
    (he : child.Evolves action index launch launch') : launch'.Attended := by
  cases he with
  | schedule => exact h.schedule _ _
  | advance => exact h.advance _ _ _ _
  | poll => exact h.poll
  | suspend => exact h.suspend
  | work _ _ _ _ worker hworker _ =>
    refine h.work hworker (fun answer hpc hm => ?_) _ _ _ _ _
    simpa [Child.attentive, hlaunch, hworker, hpc, hm] using hattentive
  | sendInput call _ send _ hsend hstage =>
    refine h.sendInput hsound (fun worker hworker => ?_) _
    obtain ⟨message, stage⟩ := send
    obtain rfl : stage = _ := hstage
    simpa [Child.attentive, hsend, hlaunch, hworker, show launch.worker = some worker from hworker]
      using hattentive
  | abort => exact h.abort

end Launch

namespace Child

variable {α : Type}

/-- Every launch of the child is sound and attended. -/
def Attends (child : Child α) : Prop :=
  ∀ (index : ℕ) (launch : Launch α), child.launches[index]? = some launch →
    launch.Sound ∧ launch.Attended

theorem attends_spawned (taskId : String) (steer : Option String) (writeSet : List PathBuf)
    (dependencies : List α) (persistSessionSeed : Bool) (message : Message) :
    (spawned taskId steer writeSet dependencies persistSessionSeed message).Attends := by
  intro index launch h
  obtain ⟨rfl, rfl⟩ : index = 0 ∧ _ = launch := by
    simpa [spawned, List.getElem?_singleton] using h
  exact Launch.sound_new _ _ _ _

theorem attends_next {child : Child α} {action : Action} (h : child.Attends)
    (hattentive : child.attentive action = true) : (child.next action).Attends := by
  intro index launch hlaunch
  cases child.origin_next action hlaunch with
  | kept hold => exact h index launch hold
  | evolved old hold he =>
    obtain ⟨hsound, hattended⟩ := h index old hold
    exact ⟨hsound.evolves he, hattended.evolves hsound hold hattentive he⟩
  | resumed _ hnew =>
    subst hnew
    exact Launch.sound_new _ _ _ _

end Child

/-- **Every accepted input is run before success**: in every interleaving whose steps meet the
condition, every launch begins its inputs once each and in order, and has none left when its worker
has succeeded. -/
theorem accepted_inputs_run_before_success {α : Type} (taskId : String)
    (steer : Option String) (writeSet : List PathBuf) (dependencies : List α)
    (persistSessionSeed : Bool) (message : Message) (actions : List Child.Action)
    (h : Meets Child.next (fun child action => child.attentive action = true)
      (Child.spawned taskId steer writeSet dependencies persistSessionSeed message) actions) :
    ∀ launch ∈ (run Child.next
        (Child.spawned taskId steer writeSet dependencies persistSessionSeed message)
        actions).launches,
      launch.Delivered := by
  have hattends := h.run (I := Child.Attends) (fun _ _ => Child.attends_next)
    (Child.attends_spawned taskId steer writeSet dependencies persistSessionSeed message)
  intro launch hlaunch
  obtain ⟨index, hindex⟩ := List.getElem?_of_mem hlaunch
  obtain ⟨hsound, hattended⟩ := hattends index launch hindex
  refine ⟨hsound.conserved, fun worker hworker hs => hattended worker hworker ?_⟩
  rw [hs, Bool.or_true]

/-- A worker that is spawned, attached and polled, and begins its first input. -/
def firstInput : List Child.Action :=
  [.launch 0 (.ok ()) [], .launch 0 (.ok ()) [], .poll 0, .work 0 (.ok ⟨"", none⟩) [],
    .work 0 (.ok ⟨"", none⟩) [], .work 0 (.ok ⟨"", none⟩) []]

/-- A message sent with `Queue` delivery, as the call with the given number. -/
def queueInput (call : ℕ) (message : Message) : List Child.Action :=
  [.send message, .advanceSend call, .advanceSend call]

/-- The worker takes a number of steps, and every turn it runs succeeds. -/
def workOn (steps : ℕ) : List Child.Action :=
  List.replicate steps (.work 0 (.ok ⟨"done", none⟩) [])

def prompted : Child ℕ :=
  Child.spawned "task" none [] [] false (.user "go" ⟨"m0"⟩)

/-- One message arrives while the first input runs. -/
def oneQueued : List Child.Action :=
  firstInput ++ queueInput 0 (.user "go" ⟨"m1"⟩) ++ workOn 10

theorem one_queued_input_delivered :
    Meets Child.next (fun child action => child.attentive action = true) prompted oneQueued ∧
    ∀ launch ∈ (run Child.next prompted oneQueued).launches, launch.Delivered :=
  ⟨by decide +kernel,
    accepted_inputs_run_before_success "task" none [] [] false (.user "go" ⟨"m0"⟩) oneQueued
      (by decide +kernel)⟩

/-- Two messages arrive during the first input; the worker runs one. -/
def twoQueued : List Child.Action :=
  firstInput ++ queueInput 0 (.user "go" ⟨"m1"⟩) ++ queueInput 1 (.user "go" ⟨"m2"⟩) ++ workOn 11

/-- **The second of two queued inputs is never run.** -/
theorem second_queued_input_dropped :
    (run Child.next prompted twoQueued).record.status = .completed ∧
    (run Child.next prompted twoQueued).launches.map
      (fun launch => (launch.ran.map Message.messageId, launch.waiting.map Message.messageId)) =
        [([⟨"m0"⟩, ⟨"m1"⟩], [⟨"m2"⟩])] ∧
    ¬ ∀ launch ∈ (run Child.next prompted twoQueued).launches, launch.Delivered := by
  refine ⟨by decide +kernel, by decide +kernel, fun h => ?_⟩
  have hall : (run .next prompted twoQueued).launches.all (fun launch =>
      launch.worker.all fun worker => !worker.pc.succeeded || launch.waiting.isEmpty) = true := by
    refine List.all_eq_true.mpr fun launch hl => ?_
    rw [Option.all_eq_true]
    intro worker hw
    cases hs : worker.pc.succeeded with
    | false => rfl
    | true => simp [(h launch hl).noneLeft worker hw hs]
  exact absurd hall (by decide +kernel)

end Nanoclaw
