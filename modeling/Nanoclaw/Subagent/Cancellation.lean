import Nanoclaw.Subagent.Child

/-!
# Cancellation of a Child

A call of `cancel` writes the status `Cancelled` and aborts the worker whose join handle is
attached. A launch that is under way goes on to spawn its worker, a worker whose handle is not
attached yet is not aborted, and an aborted worker that is being polled runs on until it is
suspended; each writes the status without looking at it.

A cancellation is final if it finds the child at rest (`Launch.quiet`). Then every launch is dead
(`Launch.Dead`): it neither writes the record nor begins an input.
-/

namespace Nanoclaw

open List Option Launch System

/-- The child is cancelled for good: if a cancellation has returned and no resume followed, the
record is as it was written and no input was begun since. -/
def Child.Final {α : Type} (child : Child α) : Prop :=
  ∀ mark ran, child.mark = some mark → mark.returned = some ran →
    child.record.status = .cancelled ∧ child.record.result = some mark.result ∧
      mark.result.status = .cancelled ∧ child.inputsRun = ran

/-! ### Dead launches -/

/-- The launch is over, or will read the status before a worker starts. -/
def LaunchStage.resting {α : Type} : LaunchStage α → Bool
  | .blocked | .chosen | .over => true
  | _ => false

variable {record : AgentRecord} {index : ℕ}

namespace Launch

variable {α : Type}

/-- **At rest**: a cancellation stops everything this launch could still do. -/
def quiet (record : AgentRecord) (index : ℕ) (launch : Launch α) : Bool :=
  launch.stage.resting && launch.worker.all fun worker =>
    worker.pc.isGone || (record.joinHandle == some index && !worker.polled)

/-- **Dead**: the worker, if there is one, has returned or is dropped before it runs again. -/
structure Dead (launch : Launch α) : Prop where
  resting : launch.stage.resting = true
  stopped : ∀ worker ∈ launch.worker, worker.pc.isGone = true ∨
    (worker.aborted = true ∧ worker.polled = false)

variable {launch : Launch α}

theorem Dead.drop (h : launch.Dead) : launch.drop.Dead :=
  ⟨rfl, h.stopped⟩

/-- Under a terminal status, the scheduler lets go of a launch. -/
theorem Dead.schedule (h : launch.Dead) (ht : record.status.isTerminal = true)
    (dependency : Option AgentRecordSnapshot) : (launch.schedule record dependency).Dead := by
  have hresting := h.resting
  unfold Launch.schedule
  split
  next => rw [if_pos ht]; exact ⟨rfl, h.stopped⟩
  next hstage => rw [hstage] at hresting; cases hresting
  next hstage => rw [hstage] at hresting; cases hresting
  next => rw [if_pos ht]; exact h.drop
  next => exact h

@[simp] theorem ran_schedule (launch : Launch α) (record : AgentRecord)
    (dependency : Option AgentRecordSnapshot) :
    (launch.schedule record dependency).ran = launch.ran := by
  unfold schedule
  repeat' split
  all_goals rfl

theorem Dead.advance (h : launch.Dead) (index : ℕ)
    (answer : Except String Unit) (claimedFiles : List String) (record : AgentRecord) :
    launch.advance index answer claimedFiles record = { launch, record } := by
  have hresting := h.resting
  unfold Launch.advance
  cases hstage : launch.stage with
  | gating | condemned | seeding | building | attaching | failing | clearing =>
    simp [hstage, LaunchStage.resting] at hresting
  | _ => rfl

theorem Dead.poll (h : launch.Dead) : launch.poll.Dead := by
  unfold Launch.poll
  split
  next worker hworker =>
    split
    · exact h
    next hidle =>
      split
      · exact ⟨h.resting, fun _ hw => .inl (by obtain rfl := some.inj hw; rfl)⟩
      next haborted =>
        rcases h.stopped worker hworker with hgone | ⟨ha, -⟩
        · exact absurd (Bool.or_eq_true_iff.mpr (.inr hgone)) hidle
        · exact absurd ha haborted
  · exact h

@[simp] theorem ran_poll (launch : Launch α) : launch.poll.ran = launch.ran := by
  unfold poll
  repeat' split
  all_goals rfl

theorem Dead.suspend (h : launch.Dead) : launch.suspend = launch := by
  unfold Launch.suspend
  split
  next worker hworker =>
    refine if_neg fun hs => ?_
    obtain ⟨hpolled, hawaits⟩ := Bool.and_eq_true_iff.mp hs
    rcases h.stopped worker hworker with hgone | ⟨-, hp⟩
    · cases hpc : worker.pc <;> simp_all [WorkerPc.isGone, WorkerPc.awaits]
    · exact nomatch hpolled.symm.trans hp
  · rfl

/-- A dead worker that is still polled has returned, and does nothing. -/
theorem Dead.work (h : launch.Dead) {worker : Worker} (hworker : launch.worker = some worker)
    (hpolled : worker.polled = true) (steer : Option String) (hasSender : Bool)
    (answer : Except String ChildAnswer) (claimedFiles : List String) (record : AgentRecord) :
    launch.work steer hasSender answer claimedFiles record worker = { launch, record } := by
  rcases h.stopped worker hworker with hgone | ⟨-, hp⟩
  · unfold Launch.work
    cases hpc : worker.pc <;> simp_all [WorkerPc.isGone]
  · exact nomatch hpolled.symm.trans hp

theorem Dead.sendInput (h : launch.Dead) (message : Message) : (launch.sendInput message).Dead := by
  unfold Launch.sendInput
  split
  · exact ⟨h.resting, h.stopped⟩
  · exact h

@[simp] theorem ran_sendInput (launch : Launch α) (message : Message) :
    (launch.sendInput message).ran = launch.ran := by
  unfold sendInput
  split <;> rfl

/-- **Cancelling a child at rest kills its launches.** -/
theorem dead_of_quiet (h : launch.quiet record index = true) :
    (record.joinHandle ≠ some index → launch.Dead) ∧ launch.abort.Dead := by
  obtain ⟨hresting, hworker⟩ := Bool.and_eq_true_iff.mp h
  rw [Option.all_eq_true] at hworker
  constructor
  · intro hne
    refine ⟨hresting, fun worker hw => .inl ?_⟩
    simpa [hne] using hworker worker hw
  · refine ⟨hresting, fun worker hw => ?_⟩
    obtain ⟨old, hold, rfl⟩ := map_eq_some_iff.mp hw
    rcases Bool.or_eq_true_iff.mp (hworker old hold) with hgone | hidle
    · exact .inl hgone
    · exact .inr ⟨rfl, by simpa using (Bool.and_eq_true_iff.mp hidle).2⟩

end Launch

/-! ### Cancelled children -/

namespace Child

variable {α : Type}

/-- **The condition on one step**: a cancellation takes effect only on a child at rest. -/
def atRest (child : Child α) : Action → Bool
  | .advanceCancel call _ =>
    match child.cancels[call]? with
    | some { stage := .read _, .. } =>
      child.record.status.isTerminal ||
        child.launches.zipIdx.all fun (launch, index) => launch.quiet child.record index
    | _ => true
  | _ => true

/-- A cancelled, not resumed child: untouched record, dead launches. -/
def Stopped (child : Child α) : Prop :=
  ∀ mark, child.mark = some mark →
    child.record.status = .cancelled ∧ child.record.result = some mark.result ∧
      mark.result.status = .cancelled ∧ (∀ launch ∈ child.launches, launch.Dead) ∧
      ∀ ran, mark.returned = some ran → child.inputsRun = ran

variable {child : Child α} {old launch : Launch α} {reason : Option String} {files : List String}
  {call : ℕ} {claimedFiles : List String}

theorem inputsRun_setLaunch (hold : child.launches[index]? = some old)
    (hran : launch.ran = old.ran) : (child.setLaunch index launch).inputsRun = child.inputsRun := by
  have hmap : (child.launches.set index launch).map ran = child.launches.map ran := by
    refine ext_getElem? fun i => ?_
    rw [getElem?_map, getElem?_map, getElem?_set]
    split
    next hi =>
      subst hi
      rw [if_pos (List.getElem?_eq_some_iff.mp hold).1, hold, map_some, map_some, hran]
    · rfl
  unfold inputsRun
  rw [flatMap_def, flatMap_def, launches_setLaunch, hmap]

/-- A step that touches one launch and nothing else. -/
theorem Stopped.setLaunch (h : child.Stopped) (hold : child.launches[index]? = some old)
    (hdead : child.record.status.isTerminal = true → old.Dead →
      launch.Dead ∧ launch.ran = old.ran) : (child.setLaunch index launch).Stopped := by
  intro mark hmark
  obtain ⟨hstatus, hresult, hcancelled, hlaunches, hran⟩ := h mark hmark
  obtain ⟨hnew, hsame⟩ := hdead (by rw [hstatus]; rfl) (hlaunches old (mem_of_getElem? hold))
  refine ⟨hstatus, hresult, hcancelled, fun l hl => ?_, fun ran hr => ?_⟩
  · rcases mem_or_eq_of_mem_set hl with hl | rfl
    · exact hlaunches l hl
    · exact hnew
  · rw [inputsRun_setLaunch hold hsame]
    exact hran ran hr

/-- A step of a dead launch or worker leaves the record alone. -/
theorem Stopped.settle (h : child.Stopped) {progress : Progress α}
    (hold : child.launches[index]? = some old)
    (hdead : old.Dead → progress = { launch := old, record := child.record }) :
    (child.settle index progress).1.Stopped := by
  intro mark hmark
  obtain ⟨hstatus, hresult, hcancelled, hlaunches, hran⟩ := h mark hmark
  rw [hdead (hlaunches old (mem_of_getElem? hold))] at hmark ⊢
  exact h.setLaunch hold (fun _ hd => ⟨hd, rfl⟩) mark hmark

/-- What the condition says of a cancellation that finds the child unfinished. -/
theorem quiet_of_atRest (hrest : child.atRest (.advanceCancel call claimedFiles) = true)
    (hc : child.cancels[call]? = some { reason, stage := .read files })
    (ht : child.record.status.isTerminal = false) (index : ℕ) (launch : Launch α)
    (hl : child.launches[index]? = some launch) : launch.quiet child.record index = true := by
  simp only [Child.atRest, hc, ht, Bool.false_or, List.all_eq_true] at hrest
  exact hrest (launch, index) (mem_zipIdx_iff_getElem?.mpr hl)

/-- **Cancelling an unfinished child at rest** finishes the record and aborts the worker. -/
theorem advanceCancel_read (hrest : child.atRest (.advanceCancel call claimedFiles) = true)
    (hc : child.cancels[call]? = some { reason, stage := .read files })
    (ht : child.record.status.isTerminal = false) :
    ∃ (record : AgentRecord) (launches : List (Launch α)), child.advanceCancel call claimedFiles =
        ({ child with
            cancels := child.cancels.set call { reason, stage := .marked }
            record
            launches
            mark := some { result := cancelledResult reason files } }, none) ∧
      record.status = .cancelled ∧ record.result = some (cancelledResult reason files) ∧
      ∀ (index : ℕ) (launch : Launch α), launches[index]? = some launch → launch.Dead ∧
        ∃ old, child.launches[index]? = some old ∧ (launch = old.abort ∨ launch = old) := by
  have hdead := fun index launch hl => dead_of_quiet (quiet_of_atRest hrest hc ht index launch hl)
  unfold Child.advanceCancel
  simp only [hc, AgentRecord.cancel, ht, Bool.false_eq_true, if_false]
  cases hj : child.record.joinHandle with
  | none =>
    refine ⟨_, _, rfl, rfl, rfl, fun index launch hi => ⟨?_, launch, hi, .inr rfl⟩⟩
    exact (hdead index launch hi).1 (by simp [hj])
  | some j =>
    cases hl : child.launches[j]? with
    | none =>
      simp only [bind_some, hl]
      refine ⟨_, _, rfl, rfl, rfl, fun index launch hi => ⟨?_, launch, hi, .inr rfl⟩⟩
      refine (hdead index launch hi).1 fun hji => ?_
      cases hj.symm.trans hji
      cases hl.symm.trans hi
    | some old =>
      simp only [bind_some, hl]
      refine ⟨_, _, rfl, rfl, rfl, fun index launch hi => ?_⟩
      rcases getElem?_set_cases hi with ⟨rfl, rfl⟩ | ⟨hne, hkept⟩
      · exact ⟨(hdead index old hl).2, old, hl, .inl rfl⟩
      · refine ⟨?_, launch, hkept, .inr rfl⟩
        exact (hdead index launch hkept).1 (by simpa [hj] using Ne.symm hne)

variable (h : child.Stopped)

include h

theorem Stopped.advanceCancel (hrest : child.atRest (.advanceCancel call claimedFiles) = true) :
    (child.advanceCancel call claimedFiles).1.Stopped := by
  cases hc : child.cancels[call]? with
  | none =>
    simp only [Child.advanceCancel, hc]
    exact h
  | some cancel =>
    obtain ⟨reason, stage⟩ := cancel
    cases stage with
    | read files =>
      cases ht : child.record.status.isTerminal with
      | true =>
        simp only [Child.advanceCancel, hc, AgentRecord.cancel, ht]
        exact h
      | false =>
        obtain ⟨record, launches, heq, hstatus, hresult, hlaunches⟩ :=
          advanceCancel_read hrest hc ht
        rw [heq]
        rintro mark ⟨⟩
        refine ⟨hstatus, hresult, rfl, fun launch hl => ?_, by simp⟩
        obtain ⟨index, hindex⟩ := getElem?_of_mem hl
        exact (hlaunches index launch hindex).1
    | released =>
      simp only [Child.advanceCancel, hc]
      rintro mark hmark
      obtain ⟨old, hold, rfl⟩ := map_eq_some_iff.mp hmark
      obtain ⟨hstatus, hresult, hcancelled, hlaunches, hran⟩ := h old hold
      refine ⟨hstatus, hresult, hcancelled, hlaunches, ?_⟩
      rintro ran ⟨⟩
      cases hr : old.returned with
      | none => rfl
      | some ran => exact hran ran hr
    | _ =>
      simp only [Child.advanceCancel, hc]
      exact h

theorem Stopped.advanceResume (call : ℕ)
    (answer : Bool) : (child.advanceResume call answer).1.Stopped := by
  unfold Child.advanceResume
  cases child.resumes[call]? with
  | none => exact h
  | some resume =>
    obtain ⟨files, stage⟩ := resume
    cases stage with
    | checked | loading | abandoning | returned => exact h
    | reopening =>
      dsimp only
      split
      · exact h
      · exact nofun

theorem Stopped.advanceSend (call : ℕ) : (child.advanceSend call).Stopped := by
  unfold Child.advanceSend
  cases child.sends[call]? with
  | none => exact h
  | some send =>
    obtain ⟨message, stage⟩ := send
    cases stage with
    | checked | returned => exact h
    | addressed index =>
      dsimp only
      split
      next launch hl => exact h.setLaunch hl fun _ hd => ⟨hd.sendInput _, ran_sendInput _ _⟩
      · exact h

/-- **Every step keeps a cancelled child stopped**, if cancellations find it at rest. -/
theorem Stopped.next {action : Action}
    (hrest : child.atRest action = true) : (child.next action).Stopped := by
  unfold Child.next Child.step
  cases action with
  | schedule index dependency =>
    dsimp only
    split
    next launch hl => exact h.setLaunch hl fun ht hd => ⟨hd.schedule ht _, ran_schedule _ _ _⟩
    · exact h
  | launch index answer claimedFiles =>
    dsimp only
    split
    next launch hl => exact h.settle hl fun hd => hd.advance _ _ _ _
    · exact h
  | poll index =>
    dsimp only
    split
    next launch hl => exact h.setLaunch hl fun _ hd => ⟨hd.poll, ran_poll _⟩
    · exact h
  | suspend index =>
    dsimp only
    split
    next launch hl => exact h.setLaunch hl fun _ hd => by rw [hd.suspend]; exact ⟨hd, rfl⟩
    · exact h
  | work index answer claimedFiles =>
    dsimp only
    split
    next launch hl =>
      split
      next worker hworker =>
        split
        next hpolled => exact h.settle hl fun hd => hd.work hworker hpolled _ _ _ _ _
        · exact h
      · exact h
    · exact h
  | send | cancel | resume => dsimp only; split <;> exact h
  | advanceSend call => exact h.advanceSend call
  | advanceCancel call claimedFiles => exact h.advanceCancel hrest
  | advanceResume call answer => exact h.advanceResume call answer

end Child

/-- **A cancellation is final**, in every interleaving whose cancellations take effect only on a
child at rest: status and result stay and no input is begun until a resume. -/
theorem cancellation_is_final {α : Type} (taskId : String) (steer : Option String)
    (writeSet : List PathBuf) (dependencies : List α) (persistSessionSeed : Bool)
    (message : Message) (actions : List Child.Action)
    (h : Meets Child.next (fun child action => child.atRest action = true)
      (Child.spawned taskId steer writeSet dependencies persistSessionSeed message) actions) :
    (run Child.next (Child.spawned taskId steer writeSet dependencies persistSessionSeed message)
      actions).Final := by
  have hstopped := h.run (I := Child.Stopped) (fun _ _ hs hrest => hs.next hrest)
    (fun _ hmark => nomatch hmark)
  intro mark ran hmark hreturned
  obtain ⟨hstatus, hresult, hcancelled, -, hran⟩ := hstopped mark hmark
  exact ⟨hstatus, hresult, hcancelled, hran ran hreturned⟩

/-- A call of `cancel`, as the call with the given number, to its return. -/
def cancelCall (call : ℕ) : List Child.Action :=
  [.cancel none, .advanceCancel call [], .advanceCancel call [], .advanceCancel call [],
    .advanceCancel call []]

def startable : Child ℕ :=
  Child.spawned "task" none [] [] false (.user "go" ⟨"m0"⟩)

/-- The child runs its input and is waiting for the model when it is cancelled. -/
def cancelledAtRest : List Child.Action :=
  [.launch 0 (.ok ()) [], .launch 0 (.ok ()) [], .poll 0, .work 0 (.ok ⟨"", none⟩) [],
    .work 0 (.ok ⟨"", none⟩) [], .work 0 (.ok ⟨"", none⟩) [], .suspend 0] ++ cancelCall 0 ++
    [.poll 0, .work 0 (.ok ⟨"done", none⟩) []]

theorem cancelled_at_rest_final :
    Meets Child.next (fun child action => child.atRest action = true) startable cancelledAtRest ∧
    (run Child.next startable cancelledAtRest).mark.isSome ∧
    (run Child.next startable cancelledAtRest).Final :=
  ⟨by decide +kernel, by decide +kernel,
    cancellation_is_final "task" none [] [] false (.user "go" ⟨"m0"⟩) cancelledAtRest
      (by decide +kernel)⟩

/-- The child is cancelled while its runtime is being built, and the launch goes on. -/
def cancelledWhileLaunching : List Child.Action :=
  cancelCall 0 ++
    [.launch 0 (.ok ()) [], .launch 0 (.ok ()) [], .poll 0, .work 0 (.ok ⟨"", none⟩) [],
      .work 0 (.ok ⟨"", none⟩) [], .work 0 (.ok ⟨"", none⟩) []]

/-- **A child that was cancelled while it was launched runs anyway.** -/
theorem cancelled_child_runs :
    (run Child.next startable (cancelCall 0)).record.status = .cancelled ∧
    (run Child.next startable cancelledWhileLaunching).record.status = .running ∧
    (run Child.next startable cancelledWhileLaunching).inputsRun.map Message.messageId = [⟨"m0"⟩] ∧
    ¬ (run Child.next startable cancelledWhileLaunching).Final := by
  have hrunning : (run .next startable cancelledWhileLaunching).record.status = .running := by
    decide +kernel
  have hreturned : ∃ mark ran, (run .next startable cancelledWhileLaunching).mark = some mark ∧
      mark.returned = some ran := ⟨_, _, rfl, rfl⟩
  refine ⟨by decide +kernel, hrunning, by decide +kernel, fun h => ?_⟩
  obtain ⟨mark, ran, hmark, hran⟩ := hreturned
  exact absurd (hrunning.symm.trans (h mark ran hmark hran).1) (by decide)

end Nanoclaw
