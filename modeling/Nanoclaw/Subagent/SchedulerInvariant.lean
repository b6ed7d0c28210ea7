import Nanoclaw.Subagent.Scheduler

/-!
# The Invariant of the Dependency Scheduler

Agents change in few ways (`Moves`, `Stays`): a completed agent stays completed, an agent that has
ended stays as it is, and a child of the batch that was not launched is only touched by
cancellations. So what a pass has read stays true while other tasks go on.
-/

namespace Nanoclaw

open List Option ScheduledAgent

/-! ### One agent -/

variable {agent : ScheduledAgent}

namespace ScheduledAgent

/-- An ended agent keeps its status, and completing is the last act of a task. -/
structure Moves (agent agent' : ScheduledAgent) : Prop where
  done : agent.stage = .done → agent'.stage = .done ∧
    (agent.record.status.isTerminal = true → agent'.record.status = agent.record.status)
  completed : agent'.record.status = .completed →
    agent'.stage = .done ∨ agent.record.status = .completed ∧ agent'.stage = agent.stage

/-- What a step of another task may do to a child that was not launched. -/
structure Stays (agent agent' : ScheduledAgent) : Prop where
  idle : agent.stage = .idle → agent'.stage = .idle ∧
    (agent.record.status.isTerminal = true → agent'.record.status = agent.record.status)

theorem Moves.refl (agent : ScheduledAgent) : agent.Moves agent :=
  ⟨fun h => ⟨h, fun _ => rfl⟩, fun h => .inr ⟨h, rfl⟩⟩

theorem Stays.refl (agent : ScheduledAgent) : agent.Stays agent :=
  ⟨fun h => ⟨h, fun _ => rfl⟩⟩

variable (reason : Option String) (claimedFiles : List String)

/-- Cancelling leaves a finished record alone. -/
theorem cancel_cases (agent : ScheduledAgent) : agent.cancel reason claimedFiles = agent ∨
      agent.record.status.isTerminal = false ∧
        (agent.cancel reason claimedFiles).stage = agent.stage ∧
        (agent.cancel reason claimedFiles).record.status = .cancelled := by
  unfold cancel AgentRecord.cancel
  cases hterminal : agent.record.status.isTerminal
  · exact .inr ⟨rfl, rfl, rfl⟩
  · exact .inl rfl

theorem moves_cancel (agent : ScheduledAgent) : agent.Moves (agent.cancel reason claimedFiles) ∧
      agent.Stays (agent.cancel reason claimedFiles) := by
  obtain heq | ⟨hlive, hstage, hstatus⟩ := cancel_cases reason claimedFiles agent
  · rw [heq]
    exact ⟨.refl agent, .refl agent⟩
  · constructor <;> constructor <;> simp [hlive, hstage, hstatus]

@[simp] theorem stage_finish (result : AgentResultEnvelope) (error : Option String)
    (agent : ScheduledAgent) : (agent.finish result error).stage = .done := by
  unfold finish
  cases agent.record.finish result error <;> rfl

theorem status_finish {result : AgentResultEnvelope} (h : result.status.isTerminal = true)
    (error : Option String) (agent : ScheduledAgent) :
    (agent.finish result error).record.status = result.status := by
  unfold finish AgentRecord.finish
  rw [if_pos h]

/-- A task that has the record to itself may end in any way. -/
theorem moves_of_done {agent' : ScheduledAgent} (h : agent.stage ≠ .done)
    (h' : agent'.stage = .done) : agent.Moves agent' :=
  ⟨fun hdone => absurd hdone h, fun _ => .inl h'⟩

theorem moves_launch (h : agent.stage ≠ .done) (hstatus : agent.record.status ≠ .completed) :
    agent.Moves agent.launch :=
  ⟨fun hdone => absurd hdone h, fun hcompleted => absurd hcompleted hstatus⟩

theorem moves_report (status : AgentStatus) (h : agent.stage ≠ .done) :
    agent.Moves (agent.report status) := by
  refine ⟨fun hdone => absurd hdone h, fun hcompleted => ?_⟩
  unfold report at hcompleted ⊢
  split at hcompleted
  next hterminal =>
    rw [if_pos hterminal]
    exact .inr ⟨hcompleted, rfl⟩
  next hterminal =>
    have hstatus : status = .completed := hcompleted
    exact absurd (hstatus ▸ rfl) hterminal

end ScheduledAgent

namespace Scheduler

variable {α : Type} [LinearOrder α] {s s' : Scheduler α} {C : α → Prop}

/-! ### Facts that stay true -/

/-- The record of an agent was written and nobody has launched it yet. -/
def Idle (agentId : α) (s : Scheduler α) : Prop :=
  ∃ agent, s.agents agentId = some agent ∧ agent.stage = .idle

/-- An agent that was not launched has a final status. -/
def IdleFinished (agentId : α) (s : Scheduler α) : Prop :=
  ∃ agent, s.agents agentId = some agent ∧ agent.stage = .idle ∧
    agent.record.status.isTerminal = true

/-- A completed agent has no task that writes its record. -/
def CompletedDone (s : Scheduler α) : Prop :=
  ∀ agentId agent, s.agents agentId = some agent → agent.record.status = .completed →
    agent.stage = .done

/-- **What a step does to the agents**; those in `C` it does not launch. -/
structure Evolves (C : α → Prop) (s s' : Scheduler α) : Prop where
  unknown : ∀ agentId, s.agents agentId = none → s'.agents agentId = none
  moves : ∀ agentId agent, s.agents agentId = some agent →
    ∃ agent', s'.agents agentId = some agent' ∧ agent.Moves agent' ∧
      (C agentId → agent.Stays agent')

theorem Evolves.of_eq (h : s'.agents = s.agents) : Evolves C s s' :=
  ⟨fun _ => (congrFun h _).trans,
    fun _ agent hagent => ⟨agent, (congrFun h _).trans hagent, .refl agent, fun _ => .refl agent⟩⟩

variable {f : ScheduledAgent → ScheduledAgent} {agentId : α} {waitingOn flight : List α}

theorem agents_update (hagent : s.agents agentId = some agent) :
    (s.update agentId f).agents agentId = some (f agent) := by
  simp [update, hagent]

/-- A change of one agent. -/
theorem evolves_update (agentId : α) (h : ∀ agent, s.agents agentId = some agent →
      agent.Moves (f agent) ∧ (C agentId → agent.Stays (f agent))) :
    Evolves C s (s.update agentId f) := by
  refine ⟨fun other hnone => ?_, fun other agent hagent => ?_⟩
  · by_cases heq : other = agentId
    · subst heq
      simp [update, hnone]
    · simp [update, heq, hnone]
  · by_cases heq : other = agentId
    · subst heq
      exact ⟨f agent, agents_update hagent, h agent hagent⟩
    · exact ⟨agent, by simp [update, heq, hagent], .refl agent, fun _ => .refl agent⟩

/-- A change of an agent that only happens in one stage. -/
theorem evolves_updateIn {stage : AgentStage} (agentId : α)
    (h : ∀ agent, s.agents agentId = some agent → agent.stage = stage → agent.Moves (f agent))
    (hC : C agentId → stage = .live) : Evolves C s (s.updateIn stage agentId f) := by
  refine evolves_update agentId fun agent hagent => ?_
  split
  next heq =>
    refine ⟨h agent hagent heq, fun hmem => ⟨fun hidle => ?_⟩⟩
    rw [heq, hC hmem] at hidle
    cases hidle
  next => exact ⟨.refl agent, fun _ => .refl agent⟩

section Stable

theorem status_eq_some {status : AgentStatus} : s.status agentId = some status ↔
      ∃ agent, s.agents agentId = some agent ∧ agent.record.status = status := by
  rw [Scheduler.status, map_eq_some_iff]

variable (h : Evolves C s s')

include h

theorem Evolves.known (hknown : (s.agents agentId).isSome = true) :
    (s'.agents agentId).isSome = true := by
  obtain ⟨agent, hagent⟩ := isSome_iff_exists.mp hknown
  obtain ⟨agent', hagent', -, -⟩ := h.moves agentId agent hagent
  rw [hagent']
  rfl

theorem Evolves.completedDone (hdone : CompletedDone s) : CompletedDone s' := by
  intro agentId agent' hagent' hcompleted
  cases hagent : s.agents agentId with
  | none =>
    rw [h.unknown agentId hagent] at hagent'
    cases hagent'
  | some agent =>
    obtain ⟨_, heq, hmoves, -⟩ := h.moves agentId agent hagent
    cases heq.symm.trans hagent'
    obtain hstage | ⟨hbefore, hstage⟩ := hmoves.completed hcompleted
    · exact hstage
    · rw [hstage]
      exact hdone agentId agent hagent hbefore

theorem Evolves.completed (hdone : CompletedDone s)
    (hstatus : s.status agentId = some .completed) : s'.status agentId = some .completed := by
  obtain ⟨agent, hagent, hcompleted⟩ := status_eq_some.mp hstatus
  obtain ⟨agent', hagent', hmoves, -⟩ := h.moves agentId agent hagent
  have hkept := (hmoves.done (hdone agentId agent hagent hcompleted)).2 (hcompleted ▸ rfl)
  exact status_eq_some.mpr ⟨agent', hagent', hkept.trans hcompleted⟩

theorem Evolves.endedBadly (hended : s.EndedBadly agentId) : s'.EndedBadly agentId := by
  obtain ⟨agent, hagent, hstage, hbad⟩ := hended
  obtain ⟨agent', hagent', hmoves, -⟩ := h.moves agentId agent hagent
  have hterminal : agent.record.status.isTerminal = true := by
    obtain hbad | hbad := hbad <;> rw [hbad] <;> rfl
  obtain ⟨hstage', hkept⟩ := hmoves.done hstage
  refine ⟨agent', hagent', hstage', ?_⟩
  rw [hkept hterminal]
  exact hbad

theorem Evolves.idle (hC : C agentId) (hidle : s.Idle agentId) : s'.Idle agentId := by
  obtain ⟨agent, hagent, hstage⟩ := hidle
  obtain ⟨agent', hagent', -, hstays⟩ := h.moves agentId agent hagent
  exact ⟨agent', hagent', ((hstays hC).idle hstage).1⟩

theorem Evolves.idleFinished (hC : C agentId)
    (hidle : s.IdleFinished agentId) : s'.IdleFinished agentId := by
  obtain ⟨agent, hagent, hstage, hterminal⟩ := hidle
  obtain ⟨agent', hagent', -, hstays⟩ := h.moves agentId agent hagent
  obtain ⟨hstage', hkept⟩ := (hstays hC).idle hstage
  exact ⟨agent', hagent', hstage', by rw [hkept hterminal]; exact hterminal⟩

theorem Evolves.weaken {t : Scheduler α} (hagents : t.agents = s'.agents) :
    Evolves (fun _ => False) s t := by
  refine ⟨fun agentId hnone => ?_, fun agentId agent hagent => ?_⟩ <;> rw [hagents]
  · exact h.unknown agentId hnone
  · obtain ⟨agent', hagent', hmoves, -⟩ := h.moves agentId agent hagent
    exact ⟨agent', hagent', hmoves, False.elim⟩

end Stable

/-! ### Steps of the other tasks -/

/-- What a step of another task leaves unchanged. -/
structure OtherStep (s s' : Scheduler α) : Prop where
  evolves : Evolves (fun agentId => (s.plans.get agentId).isSome = true) s s'
  plans : s'.plans = s.plans
  blocked : s'.blocked = s.blocked
  phase : s'.phase = s.phase
  launched : s'.launched = s.launched

/-- Another task changes agents only, and launches none of the batch. -/
theorem step_other (hdone : CompletedDone s) {action : Action α} (hother : ¬ action.IsOwn) :
    OtherStep s (s.step action) := by
  have hlive : AgentStage.live ≠ .done := by decide
  have hidle : AgentStage.idle ≠ .done := by decide
  have hworker {f : ScheduledAgent → ScheduledAgent} (agentId : α)
      (h : ∀ agent, agent.stage ≠ .done → agent.Moves (f agent)) :
      OtherStep s (s.updateIn .live agentId f) :=
    ⟨evolves_updateIn agentId (fun agent _ hstage => h agent (hstage ▸ hlive)) fun _ => rfl,
      rfl, rfl, rfl, rfl⟩
  have houtside {f : ScheduledAgent → ScheduledAgent} (agentId : α)
      (h : ∀ agent, s.agents agentId = some agent → agent.stage ≠ .done → agent.Moves (f agent)) :
      OtherStep s (if (s.plans.get agentId).isSome then s else s.updateIn .idle agentId f) := by
    split
    next => exact ⟨.of_eq rfl, rfl, rfl, rfl, rfl⟩
    next hplan =>
      exact ⟨evolves_updateIn agentId (fun agent hagent hstage => h agent hagent (hstage ▸ hidle))
        (absurd · hplan), rfl, rfl, rfl, rfl⟩
  cases action with
  | advance => exact absurd trivial hother
  | launch => exact absurd trivial hother
  | cancel agentId reason claimedFiles =>
    refine ⟨evolves_update agentId fun agent _ => ?_, rfl, rfl, rfl, rfl⟩
    exact (agent.moves_cancel reason claimedFiles).imp_right fun hstays _ => hstays
  | report agentId status => exact hworker agentId fun _ => moves_report status
  | finish agentId how claimedFiles =>
    exact hworker agentId fun agent h => moves_of_done h (agent.stage_finish _ _)
  | stop agentId => exact hworker agentId fun _ h => moves_of_done h rfl
  | start agentId =>
    exact houtside agentId fun agent hagent h =>
      moves_launch h fun hcompleted => h (hdone agentId agent hagent hcompleted)
  | abandon agentId failures claimedFiles =>
    exact houtside agentId fun agent _ h =>
      moves_of_done h (agent.stage_finish _ _)

/-! ### The invariant -/

/-- All dependencies of a child have completed. -/
def DependenciesCompleted (child : α) (s : Scheduler α) : Prop :=
  ∃ dependencies, s.plans.get child = some dependencies ∧
    ∀ dependency ∈ dependencies, s.status dependency = some .completed

/-- The scheduler waits for all dependencies of a child that have not completed. -/
def Waits (waitingOn : List α) (child : α) (s : Scheduler α) : Prop :=
  ∃ dependencies, s.plans.get child = some dependencies ∧
    (∀ dependency ∈ dependencies, dependency ∈ waitingOn ∨ s.status dependency = some .completed) ∧
    ∃ dependency ∈ dependencies, dependency ∈ waitingOn

/-- **Where the children of the batch are**: in the map, in flight, launched, or ended. -/
structure Core (inFlight : List α) (s : Scheduler α) : Prop where
  completedDone : s.CompletedDone
  known : ∀ child dependency, s.DependsOn child dependency → (s.agents dependency).isSome = true
  blocked : ∀ child dependencies, s.blocked.get child = some dependencies →
    s.plans.get child = some dependencies ∧ s.Idle child
  idle : ∀ child ∈ inFlight, s.Idle child
  nodup : (inFlight ++ s.launched).Nodup
  taken : ∀ child ∈ inFlight ++ s.launched,
    s.blocked.get child = none ∧ s.DependenciesCompleted child
  settled : ∀ child, (s.plans.get child).isSome = true → s.blocked.get child = none →
    child ∈ inFlight ++ s.launched ∨ s.EndedBadly child

/-- **What a pass has found out about the blocked children** that it is through with. -/
structure Accounted (unvisited : List α) (pass : SchedulerPass α) (s : Scheduler α) : Prop where
  ready : ∀ child ∈ pass.ready, (s.blocked.get child).isSome = true →
    s.IdleFinished child ∨ s.DependenciesCompleted child
  covers : ∀ child, (s.blocked.get child).isSome = true →
    (child ∈ unvisited ∨ child ∈ pass.ready ∨ child ∈ pass.failed.map Prod.fst) ∨
      s.Waits pass.waitingOn child

/-- What the gate of a child has found out. -/
structure Gated (dependencies : List α) (gate : GateProgress α) (s : Scheduler α) : Prop where
  rest : ∀ dependency ∈ gate.rest, dependency ∈ dependencies
  pending : ∀ dependency ∈ gate.pending, dependency ∈ dependencies
  read : gate.failures = [] → ∀ dependency ∈ dependencies,
    (dependency ∈ gate.rest ∨ dependency ∈ gate.pending) ∨ s.status dependency = some .completed

/-- The children that are launched at the moment. -/
def inFlight : SchedulerPhase α → List α
  | .choosing _ readyPlans _ | .launching readyPlans _ => readyPlans
  | _ => []

def PhaseSound (s : Scheduler α) : SchedulerPhase α → Prop
  | .checking => True
  | .visiting rest pass =>
    s.Accounted (rest.map Prod.fst) pass ∧ ∀ entry ∈ rest, s.blocked.get entry.1 = some entry.2
  | .gating agentId gate rest pass =>
    s.Accounted (agentId :: rest.map Prod.fst) pass ∧
      (∀ entry ∈ rest, s.blocked.get entry.1 = some entry.2) ∧
      ∃ dependencies, s.blocked.get agentId = some dependencies ∧ s.Gated dependencies gate
  | .choosing rest _ pass => s.Accounted [] { pass with ready := rest }
  | .launching _ pass => s.Accounted [] { pass with ready := [] }
  | .condemning rest waitingOn => s.Accounted [] { failed := rest, waitingOn }
  | .waiting waitingOn _ _ => s.Accounted [] { waitingOn }
  | .exited => ∀ child, s.blocked.get child = none

/-- **The invariant of the system.** -/
structure Sound (s : Scheduler α) : Prop where
  core : s.Core (inFlight s.phase)
  phase : s.PhaseSound s.phase

/-- **What every step keeps**: the invariant, the plans, and how agents end. -/
structure Keeps (s s' : Scheduler α) : Prop where
  sound : Sound s'
  plans : s'.plans = s.plans
  evolves : Evolves (fun _ => False) s s'

theorem Sound.keeps (h : Sound s) : Keeps s s :=
  ⟨h, rfl, .of_eq rfl⟩

/-! ### The invariant and the agents -/

section Evolve

variable {unvisited flight' : List α} {pass : SchedulerPass α} {child : α}

section

variable (he : Evolves C s s') (hdone : s.CompletedDone)

include he hdone

theorem Evolves.dependenciesCompleted
    (hplans : s'.plans = s.plans) (h : s.DependenciesCompleted child) :
    s'.DependenciesCompleted child := by
  obtain ⟨dependencies, hplan, hall⟩ := h
  exact ⟨dependencies, by rw [hplans, hplan], fun d hd => he.completed hdone (hall d hd)⟩

theorem Evolves.waits (hplans : s'.plans = s.plans) (h : s.Waits waitingOn child) :
    s'.Waits waitingOn child := by
  obtain ⟨dependencies, hplan, hall, hsome⟩ := h
  exact ⟨dependencies, by rw [hplans, hplan],
    fun d hd => (hall d hd).imp_right (he.completed hdone), hsome⟩

theorem Evolves.gated {dependencies : List α}
    {gate : GateProgress α} (h : s.Gated dependencies gate) : s'.Gated dependencies gate :=
  ⟨h.rest, h.pending, fun hnil d hd => (h.read hnil d hd).imp_right (he.completed hdone)⟩

theorem Evolves.accounted (hplans : s'.plans = s.plans)
    (hblocked : ∀ child, (s'.blocked.get child).isSome = true →
      (s.blocked.get child).isSome = true ∧ C child)
    (h : s.Accounted unvisited pass) : s'.Accounted unvisited pass := by
  refine ⟨fun child hmem hchild => ?_, fun child hchild => ?_⟩
  · obtain ⟨hbefore, hC⟩ := hblocked child hchild
    exact (h.ready child hmem hbefore).imp (he.idleFinished hC)
      (he.dependenciesCompleted hdone hplans)
  · exact (h.covers child (hblocked child hchild).1).imp_right (he.waits hdone hplans)

end

theorem Evolves.core (he : Evolves C s s') (h : s.Core flight) (hplans : s'.plans = s.plans)
    (hblocked : ∀ child dependencies, s'.blocked.get child = some dependencies →
      s.blocked.get child = some dependencies ∧ C child)
    (hflight : ∀ child ∈ flight', child ∈ flight ∧ C child)
    (hnodup : (flight' ++ s'.launched).Nodup)
    (htaken : ∀ child ∈ flight' ++ s'.launched, child ∈ flight ++ s.launched)
    (hsettled : ∀ child, s'.blocked.get child = none → s'.EndedBadly child ∨
      s.blocked.get child = none ∧
        (child ∈ flight ++ s.launched → child ∈ flight' ++ s'.launched)) :
    s'.Core flight' where
  completedDone := he.completedDone h.completedDone
  known child dependency hdepends := by
    refine he.known (h.known child dependency ?_)
    rwa [DependsOn, ← hplans]
  blocked child dependencies hget := by
    obtain ⟨hbefore, hC⟩ := hblocked child dependencies hget
    obtain ⟨hplan, hidle⟩ := h.blocked child dependencies hbefore
    exact ⟨by rw [hplans, hplan], he.idle hC hidle⟩
  idle child hmem := by
    obtain ⟨hbefore, hC⟩ := hflight child hmem
    exact he.idle hC (h.idle child hbefore)
  nodup := hnodup
  taken child hmem := by
    obtain ⟨hnone, hcompleted⟩ := h.taken child (htaken child hmem)
    refine ⟨?_, he.dependenciesCompleted h.completedDone hplans hcompleted⟩
    cases hget : s'.blocked.get child with
    | none => rfl
    | some dependencies =>
      rw [(hblocked child dependencies hget).1] at hnone
      cases hnone
  settled child hplan hnone := by
    rw [hplans] at hplan
    obtain hended | ⟨hbefore, hkept⟩ := hsettled child hnone
    · exact .inr hended
    · exact (h.settled child hplan hbefore).imp hkept he.endedBadly

end Evolve

variable {phase : SchedulerPhase α} {snapshot : AgentRecordSnapshot} {m : OrdMap α (List α)}
  {readyPlans : List α}

/-- What a phase needs to know, when the blocked children stay. -/
theorem PhaseSound.transport (h : s.PhaseSound phase)
    (haccounted : ∀ unvisited pass, s.Accounted unvisited pass → s'.Accounted unvisited pass)
    (hgated : ∀ dependencies gate, s.Gated dependencies gate → s'.Gated dependencies gate)
    (hblocked : s'.blocked = s.blocked) : s'.PhaseSound phase := by
  cases phase with
  | checking => trivial
  | visiting rest pass => exact ⟨haccounted _ _ h.1, by rw [hblocked]; exact h.2⟩
  | gating agentId gate rest pass =>
    obtain ⟨hpass, hrest, dependencies, hget, hgate⟩ := h
    exact ⟨haccounted _ _ hpass, by rw [hblocked]; exact hrest,
      dependencies, by rw [hblocked, hget], hgated _ _ hgate⟩
  | choosing | launching | condemning | waiting => exact haccounted _ _ h
  | exited =>
    intro child
    rw [hblocked]
    exact h child

/-- **A step of another task keeps the invariant.** -/
theorem OtherStep.sound (hstep : OtherStep s s') (h : Sound s) : Sound s' := by
  obtain ⟨he, hplans, hblocked, hphase, hlaunched⟩ := hstep
  have hdone := h.core.completedDone
  have hmem : ∀ child, (s'.blocked.get child).isSome = true →
      (s.blocked.get child).isSome = true ∧ (s.plans.get child).isSome = true := by
    intro child hchild
    rw [hblocked] at hchild
    obtain ⟨dependencies, hget⟩ := isSome_iff_exists.mp hchild
    rw [(h.core.blocked child dependencies hget).1]
    exact ⟨hchild, rfl⟩
  constructor
  · rw [hphase]
    refine he.core h.core hplans (fun child dependencies hget => ?_) (fun child hflight => ?_)
      ?_ (fun child htaken => ?_) fun child hnone => .inr ?_
    · exact ⟨hblocked ▸ hget, (hmem child (by rw [hget]; rfl)).2⟩
    · obtain ⟨dependencies, hplan, -⟩ :=
        (h.core.taken child (mem_append_left _ hflight)).2
      exact ⟨hflight, by rw [hplan]; rfl⟩
    · rw [hlaunched]
      exact h.core.nodup
    · rwa [hlaunched] at htaken
    · rw [hlaunched]
      exact ⟨hblocked ▸ hnone, fun h => h⟩
  · rw [hphase]
    refine h.phase.transport (fun _ _ haccounted => ?_) (fun _ _ => he.gated hdone) hblocked
    exact he.accounted hdone hplans hmem haccounted

/-! ### Steps of the scheduler that read -/

theorem snapshot_eq_some (h : s.snapshot agentId = some snapshot) :
    s.status agentId = some snapshot.status := by
  obtain ⟨agent, hagent, rfl⟩ := map_eq_some_iff.mp h
  exact status_eq_some.mpr ⟨agent, hagent, rfl⟩

/-- The test of the source for a child that is not to be launched. -/
theorem Idle.finished_iff (h : s.Idle agentId) :
    (s.snapshot agentId).all (·.status.isTerminal) = true ↔ s.IdleFinished agentId := by
  obtain ⟨agent, hagent, hstage⟩ := h
  rw [snapshot, hagent]
  constructor
  · exact fun hterminal => ⟨agent, hagent, hstage, hterminal⟩
  · rintro ⟨_, hagent', -, hterminal⟩
    cases hagent.symm.trans hagent'
    exact hterminal

/-- A step that only moves the scheduler on. -/
theorem Sound.goto (h : Sound s) {old : SchedulerPhase α} (hold : s.phase = old)
    (hflight : inFlight phase = inFlight old) (hphase : s.PhaseSound old → s.PhaseSound phase) :
    Keeps s { s with phase } := by
  subst hold
  obtain ⟨h1, h2, h3, h4, h5, h6, h7⟩ := h.core
  exact ⟨⟨hflight ▸ ⟨h1, h2, h3, h4, h5, h6, h7⟩,
    (hphase h.phase).transport (fun _ _ h => ⟨h.ready, h.covers⟩)
      (fun _ _ h => ⟨h.rest, h.pending, h.read⟩) rfl⟩, rfl, .of_eq rfl⟩

variable {pass pass' : SchedulerPass α} {child : α} {unvisited : List α}

/-- A pass over a list of children without the first. -/
theorem Accounted.rest (h : s.Accounted (child :: unvisited) pass)
    (hready : ∀ other ∈ pass'.ready, other ∈ pass.ready ∨
      other = child ∧ (s.IdleFinished child ∨ s.DependenciesCompleted child))
    (hmono : ∀ other, other ∈ pass.ready ∨ other ∈ pass.failed.map Prod.fst →
      other ∈ pass'.ready ∨ other ∈ pass'.failed.map Prod.fst)
    (hwaiting : ∀ other ∈ pass.waitingOn, other ∈ pass'.waitingOn)
    (hchild : (child ∈ pass'.ready ∨ child ∈ pass'.failed.map Prod.fst) ∨
      s.Waits pass'.waitingOn child) : s.Accounted unvisited pass' := by
  constructor
  · intro other hmem hblocked
    obtain hmem | ⟨rfl, hgo⟩ := hready other hmem
    · exact h.ready other hmem hblocked
    · exact hgo
  · intro other hblocked
    obtain (hmem | hfound) | ⟨dependencies, hplan, hall, dependency, hd, hwait⟩ :=
      h.covers other hblocked
    · obtain rfl | hmem := mem_cons.mp hmem
      · exact hchild.imp_left .inr
      · exact .inl (.inl hmem)
    · exact .inl (.inr (hmono other hfound))
    · exact .inr ⟨dependencies, hplan, fun d hd => (hall d hd).imp_left (hwaiting d),
        dependency, hd, hwaiting dependency hwait⟩

/-- A pass that leaves out what is not blocked any more. -/
theorem Accounted.skip (h : s.Accounted unvisited pass)
    (hready : ∀ other ∈ pass'.ready, other ∈ pass.ready)
    (hcovers : ∀ other, (s.blocked.get other).isSome = true →
      other ∈ pass.ready ∨ other ∈ pass.failed.map Prod.fst →
        other ∈ pass'.ready ∨ other ∈ pass'.failed.map Prod.fst)
    (hwaiting : pass'.waitingOn = pass.waitingOn) : s.Accounted unvisited pass' where
  ready child hmem := h.ready child (hready child hmem)
  covers child hchild := by
    rw [hwaiting]
    exact (h.covers child hchild).imp_left (.imp_right (hcovers child hchild))

variable {dependencies : List α} {failures : List DependencyFailure} {rest pending : List α}

theorem Gated.read_one {dependency : α} {others : List α}
    (h : s.Gated dependencies { rest := dependency :: others, pending, failures })
    (hsnapshot : s.snapshot dependency = some snapshot) : s.Gated dependencies
      (gateDependency dependency snapshot { rest := others, pending, failures }) := by
  obtain ⟨hrest, hpending, hread⟩ := h
  have hothers : ∀ other ∈ others, other ∈ dependencies := fun other hmem =>
    hrest other (mem_cons_of_mem _ hmem)
  have hstatus := snapshot_eq_some hsnapshot
  -- What is known about the dependencies, once this one is accounted for.
  have hnext : failures = [] → ∀ pending' : List α, (∀ other ∈ pending, other ∈ pending') →
      (dependency ∈ pending' ∨ s.status dependency = some .completed) →
      ∀ other ∈ dependencies, (other ∈ others ∨ other ∈ pending') ∨
        s.status other = some .completed := by
    intro hnil pending' hsub hfound other hmem
    obtain (hhead | hold) | hcompleted := hread hnil other hmem
    · obtain rfl | htail := mem_cons.mp hhead
      · exact hfound.imp_left .inr
      · exact .inl (.inl htail)
    · exact .inl (.inr (hsub other hold))
    · exact .inr hcompleted
  have hfailed : ∀ failure : DependencyFailure,
      s.Gated dependencies { rest := others, pending, failures := failures ++ [failure] } :=
    fun failure => ⟨hothers, hpending, fun hnil => absurd hnil (by simp)⟩
  have hwaits : s.Gated dependencies
      { rest := others, pending := pending ++ [dependency], failures } := by
    refine ⟨hothers, fun other hmem => ?_, fun hnil => ?_⟩
    · obtain hmem | rfl := mem_append.mp hmem |>.imp_right mem_singleton.mp
      · exact hpending other hmem
      · exact hrest _ (mem_cons_self ..)
    · exact hnext hnil _ (fun other => mem_append_left _) (.inl (by simp))
  unfold gateDependency
  cases hcase : snapshot.status with
  | completed =>
    refine ⟨hothers, hpending, fun hnil => ?_⟩
    exact hnext hnil pending (fun _ h => h) (.inr (hstatus.trans (congrArg some hcase)))
  | failed | cancelled => exact hfailed _
  | queued | running | waitingApproval | waitingMessage => exact hwaits

/-- The answer of the gate is added to the pass. -/
theorem Accounted.judge
    (h : s.Accounted (agentId :: rest) pass) (hplan : s.plans.get agentId = some dependencies)
    (hgate : s.Gated dependencies { rest := [], pending, failures }) :
    s.Accounted rest (judge agentId { rest := [], pending, failures } pass) := by
  unfold Scheduler.judge
  cases failures with
  | cons failure failures =>
    refine h.rest (fun other hmem => .inl hmem) (fun other => ?_) (fun _ h => h) (.inl (.inr ?_))
    · exact .imp_right fun hmem => by simp [mem_map.mp hmem]
    · simp
  | nil =>
    have hread : ∀ dependency ∈ dependencies,
        dependency ∈ pending ∨ s.status dependency = some .completed := fun d hd => by
      simpa using hgate.read rfl d hd
    cases pending with
    | nil =>
      have hcompleted : s.DependenciesCompleted agentId :=
        ⟨dependencies, hplan, fun d hd => (hread d hd).resolve_left (not_mem_nil)⟩
      refine h.rest (fun other hmem => ?_) (fun other => ?_) (fun _ h => h) (.inl (.inl ?_))
      · exact (mem_append.mp hmem).imp_right fun hmem =>
          ⟨mem_singleton.mp hmem, .inr hcompleted⟩
      · exact .imp_left (mem_append_left _)
      · exact mem_append_right _ (mem_singleton_self _)
    | cons dependency pending =>
      refine h.rest (fun other hmem => .inl hmem) (fun _ h => h)
        (fun other => mem_append_left _) (.inr ?_)
      refine ⟨dependencies, hplan, fun d hd => ?_, dependency, ?_, ?_⟩
      · exact (hread d hd).imp_left (mem_append_right _)
      · exact hgate.pending dependency (mem_cons_self ..)
      · exact mem_append_right _ (mem_cons_self ..)

/-! ### Steps of the scheduler that change agents -/

/-- A child that was not launched and has a final status has not completed. -/
theorem bad_of_idle (hdone : s.CompletedDone) (hagent : s.agents agentId = some agent)
    (hstage : agent.stage = .idle) (hterminal : agent.record.status.isTerminal = true) :
    agent.record.status = .failed ∨ agent.record.status = .cancelled := by
  have hnot : agent.record.status ≠ .completed := fun hstatus => by
    cases hstage.symm.trans (hdone agentId agent hagent hstatus)
  cases hstatus : agent.record.status <;> simp_all [AgentStatus.isTerminal]

/-- A child that was not launched ends, or is launched. -/
theorem Idle.evolves (h : s.Idle child) (hdone : s.CompletedDone)
    (hf : ∀ agent : ScheduledAgent, (f agent).stage = .done ∨ f agent = agent.launch) :
    Evolves (· ≠ child) s (s.update child f) := by
  refine evolves_update child fun agent hagent => ⟨?_, fun hne => absurd rfl hne⟩
  obtain ⟨_, hagent', hstage⟩ := h
  cases hagent.symm.trans hagent'
  have hnot : agent.stage ≠ .done := by rw [hstage]; decide
  obtain hf | hf := hf agent
  · exact moves_of_done hnot hf
  · rw [hf]
    exact moves_launch hnot fun hstatus => hnot (hdone child agent hagent hstatus)

theorem get_erase_eq_some {other : α} (h : (m.erase child).get other = some dependencies) :
    m.get other = some dependencies ∧ other ≠ child := by
  rw [OrdMap.get_erase] at h
  split at h
  next => cases h
  next hne => exact ⟨h, hne⟩

/-- **A child leaves the map**: the others are where they were. -/
theorem Core.leave {child : α} (h : s.Core flight)
    (he : Evolves (· ≠ child) s s') (hplans : s'.plans = s.plans)
    (hblocked : s'.blocked = s.blocked.erase child) (hlaunched : s'.launched = s.launched)
    (hchild : child ∉ flight) (hended : s'.EndedBadly child) : s'.Core flight := by
  refine he.core h hplans (fun other dependencies hget => ?_) (fun other hmem => ?_) ?_
    (fun other hmem => ?_) fun other hnone => ?_
  · rw [hblocked] at hget
    exact get_erase_eq_some hget
  · exact ⟨hmem, fun heq => hchild (heq ▸ hmem)⟩
  · rw [hlaunched]
    exact h.nodup
  · rwa [hlaunched] at hmem
  · by_cases heq : other = child
    · exact .inl (heq ▸ hended)
    · rw [hblocked, OrdMap.get_erase, if_neg heq] at hnone
      rw [hlaunched]
      exact .inr ⟨hnone, fun h => h⟩

theorem Accounted.leave (h : s.Accounted [] pass)
    (hdone : s.CompletedDone) (he : Evolves (· ≠ child) s s') (hplans : s'.plans = s.plans)
    (hblocked : s'.blocked = s.blocked.erase child)
    (hready : ∀ other ∈ pass'.ready, other ∈ pass.ready)
    (hcovers : ∀ other, other ≠ child → other ∈ pass.ready ∨ other ∈ pass.failed.map Prod.fst →
        other ∈ pass'.ready ∨ other ∈ pass'.failed.map Prod.fst)
    (hwaiting : pass'.waitingOn = pass.waitingOn) : s'.Accounted [] pass' := by
  have hmem : ∀ other, (s'.blocked.get other).isSome = true →
      (s.blocked.get other).isSome = true ∧ other ≠ child := by
    intro other hother
    obtain ⟨dependencies, hget⟩ := isSome_iff_exists.mp hother
    rw [hblocked] at hget
    obtain ⟨hget, hne⟩ := get_erase_eq_some hget
    rw [hget]
    exact ⟨rfl, hne⟩
  exact (he.accounted hdone hplans hmem h).skip hready
    (fun other hother => hcovers other (hmem other hother).2) hwaiting

section

variable (h : Sound s)

include h

/-- The scheduler drops a child that has a final status already. -/
theorem Sound.drop (hphase : s.phase = .choosing (child :: rest) readyPlans pass)
    (hget : s.blocked.get child = some dependencies) (hfinished : s.IdleFinished child) :
    Keeps s { s.update child stop with
      blocked := s.blocked.erase child
      phase := .choosing rest readyPlans pass } := by
  obtain ⟨hcore, hsound⟩ := h
  rw [hphase] at hcore hsound
  have he := (hcore.blocked child dependencies hget).2.evolves hcore.completedDone
    (f := .stop) fun _ => .inl rfl
  refine ⟨⟨?_, ?_⟩, rfl, he.weaken rfl⟩
  · refine hcore.leave ⟨he.unknown, he.moves⟩ rfl rfl rfl (fun hmem => ?_) ?_
    · rw [(hcore.taken child (mem_append_left _ hmem)).1] at hget
      cases hget
    · obtain ⟨agent, hagent, hstage, hterminal⟩ := hfinished
      have hbad := bad_of_idle hcore.completedDone hagent hstage hterminal
      exact ⟨agent.stop, agents_update hagent, rfl, hbad⟩
  · refine hsound.leave hcore.completedDone ⟨he.unknown, he.moves⟩ rfl rfl
      (fun other => mem_cons_of_mem _) (fun other hne => ?_) rfl
    exact .imp_left fun hmem => (mem_cons.mp hmem).resolve_left hne

/-- The scheduler takes a ready child out of the map to launch it. -/
theorem Sound.choose (hphase : s.phase = .choosing (child :: rest) readyPlans pass)
    (hget : s.blocked.get child = some dependencies) (hfinished : ¬ s.IdleFinished child) :
    Keeps s { s with
      blocked := s.blocked.erase child
      phase := .choosing rest (readyPlans ++ [child]) pass } := by
  obtain ⟨hcore, hsound⟩ := h
  rw [hphase] at hcore hsound
  have hcompleted : s.DependenciesCompleted child :=
    (hsound.ready child (mem_cons_self ..) (by rw [hget]; rfl)).resolve_left hfinished
  have hperm : ((readyPlans ++ [child]) ++ s.launched).Perm
      (child :: (readyPlans ++ s.launched)) := by
    rw [append_assoc]
    exact perm_middle
  have hnotMem : child ∉ readyPlans ++ s.launched := fun hmem => by
    rw [(hcore.taken child hmem).1] at hget
    cases hget
  refine ⟨⟨?_, ?_⟩, rfl, .of_eq rfl⟩
  · refine ⟨hcore.completedDone, hcore.known, fun other others hother => ?_, ?_,
      hperm.nodup_iff.mpr (nodup_cons.mpr ⟨hnotMem, hcore.nodup⟩), fun other hmem => ?_,
      fun other hplan hnone => ?_⟩
    · exact hcore.blocked other others (get_erase_eq_some hother).1
    · exact forall_mem_append.mpr
        ⟨hcore.idle, forall_mem_singleton.mpr (hcore.blocked child dependencies hget).2⟩
    · refine ⟨?_, ?_⟩
      · rw [OrdMap.get_erase]
        split
        next => rfl
        next hne =>
          exact (hcore.taken other ((mem_cons.mp (hperm.mem_iff.mp hmem)).resolve_left hne)).1
      · obtain rfl | hmem := mem_cons.mp (hperm.mem_iff.mp hmem)
        · exact hcompleted
        · exact (hcore.taken other hmem).2
    · by_cases heq : other = child
      · exact .inl (hperm.mem_iff.mpr (mem_cons.mpr (.inl heq)))
      · rw [OrdMap.get_erase, if_neg heq] at hnone
        exact (hcore.settled other hplan hnone).imp_left fun hmem =>
          hperm.mem_iff.mpr (mem_cons_of_mem _ hmem)
  · refine hsound.leave hcore.completedDone (.of_eq rfl) rfl rfl
      (fun other => mem_cons_of_mem _) (fun other hne => ?_) rfl
    exact .imp_left fun hmem => (mem_cons.mp hmem).resolve_left hne

/-- The scheduler fails a child whose dependencies failed. -/
theorem Sound.condemn {rest : List (α × List DependencyFailure)}
    (hphase : s.phase = .condemning ((child, failures) :: rest) waitingOn)
    (hget : s.blocked.get child = some dependencies) (claimedFiles : List String) :
    Keeps s { s.update child (finish (blockedResult failures claimedFiles).1
        (some (blockedResult failures claimedFiles).2)) with
      blocked := s.blocked.erase child
      phase := .condemning rest waitingOn } := by
  obtain ⟨hcore, hsound⟩ := h
  rw [hphase] at hcore hsound
  have hidle := (hcore.blocked child dependencies hget).2
  have he := hidle.evolves hcore.completedDone
    (f := .finish (blockedResult failures claimedFiles).1
      (some (blockedResult failures claimedFiles).2)) fun agent => .inl (agent.stage_finish _ _)
  refine ⟨⟨?_, ?_⟩, rfl, he.weaken rfl⟩
  · refine hcore.leave ⟨he.unknown, he.moves⟩ rfl rfl rfl not_mem_nil ?_
    obtain ⟨agent, hagent, -⟩ := hidle
    refine ⟨_, agents_update hagent, agent.stage_finish _ _, ?_⟩
    rw [status_finish (blockedResult_isTerminal failures claimedFiles)]
    unfold blockedResult
    split
    · exact .inl rfl
    · exact .inr rfl
  · refine hsound.leave hcore.completedDone ⟨he.unknown, he.moves⟩ rfl rfl
      (fun other h => h) (fun other hne => ?_) rfl
    exact .imp_right fun hmem => (mem_cons.mp hmem).resolve_left hne

/-- **A launch ends**, with a worker or with a failed child. -/
theorem Sound.land (hphase : s.phase = .launching readyPlans pass) (hmem : child ∈ readyPlans)
    (hf : ∀ agent : ScheduledAgent, (f agent).stage = .done ∨ f agent = agent.launch)
    {launched : List α} (hlaunched : launched = s.launched ++ [child] ∨ launched = s.launched ∧
      (s.update child f).EndedBadly child) :
    Keeps s { s.update child f with
      phase := .launching (readyPlans.erase child) pass
      launched } := by
  obtain ⟨hcore, hsound⟩ := h
  rw [hphase] at hcore hsound
  have he := (hcore.idle child hmem).evolves hcore.completedDone hf
  have hnotBlocked := (hcore.taken child (mem_append_left _ hmem)).1
  have hne : ∀ other dependencies, s.blocked.get other = some dependencies → other ≠ child := by
    rintro other dependencies hget rfl
    rw [hnotBlocked] at hget
    cases hget
  have hnodup : readyPlans.Nodup := (nodup_append.mp hcore.nodup).1
  have hperm : (readyPlans ++ s.launched).Perm
      (readyPlans.erase child ++ (s.launched ++ [child])) := by
    rw [← append_assoc]
    exact ((perm_cons_erase hmem).append_right _).trans (perm_append_singleton child _).symm
  refine ⟨⟨?_, ?_⟩, rfl, he.weaken rfl⟩
  · refine Evolves.core ⟨he.unknown, he.moves⟩ hcore rfl (fun other dependencies hget => ?_)
      (fun other hother => ?_) ?_ (fun other hother => ?_) fun other hnone => ?_
    · exact ⟨hget, hne other dependencies hget⟩
    · exact ⟨mem_of_mem_erase hother, (hnodup.mem_erase_iff.mp hother).1⟩
    · obtain rfl | ⟨rfl, -⟩ := hlaunched
      · exact hperm.nodup_iff.mp hcore.nodup
      · exact hcore.nodup.sublist (erase_sublist.append_right _)
    · obtain rfl | ⟨rfl, -⟩ := hlaunched
      · exact hperm.mem_iff.mpr hother
      · exact (erase_sublist.append_right _).mem hother
    · obtain rfl | ⟨rfl, hended⟩ := hlaunched
      · exact .inr ⟨hnone, hperm.mem_iff.mp⟩
      · by_cases heq : other = child
        · exact .inl (heq ▸ hended)
        · refine .inr ⟨hnone, fun hother => ?_⟩
          obtain hother | hother := mem_append.mp hother
          · exact mem_append_left _ (hnodup.mem_erase_iff.mpr ⟨heq, hother⟩)
          · exact mem_append_right _ hother
  · refine Evolves.accounted ⟨he.unknown, he.moves⟩ hcore.completedDone rfl
      (fun other hother => ?_) hsound
    obtain ⟨dependencies, hget⟩ := isSome_iff_exists.mp hother
    exact ⟨hother, hne other dependencies hget⟩

theorem keeps_launch (agentId : α) (answer : Except String Unit)
    (claimedFiles : List String) : Keeps s (s.launch agentId answer claimedFiles) := by
  unfold launch
  split
  next readyPlans pass hphase =>
    split
    next hmem =>
      cases answer with
      | ok => exact h.land hphase hmem (fun _ => .inr rfl) (.inl rfl)
      | error error =>
        refine h.land hphase hmem (fun agent => .inl (agent.stage_finish _ _)) (.inr ⟨rfl, ?_⟩)
        have hcore := h.core
        rw [hphase] at hcore
        obtain ⟨agent, hagent, -⟩ := hcore.idle agentId hmem
        exact ⟨_, agents_update hagent, agent.stage_finish _ _, .inl (status_finish rfl _ agent)⟩
    next => exact h.keeps
  next => exact h.keeps

end

/-! ### Every step keeps the invariant -/

theorem get_of_entries_eq_nil (h : m.entries.isEmpty = true) (child : α) : m.get child = none := by
  rw [OrdMap.get, isEmpty_iff.mp h]
  rfl

theorem keeps_advance (h : Sound s) (claimedFiles : List String) :
    Keeps s (s.advance claimedFiles) := by
  have hsound := h.phase
  have hcore := h.core
  unfold advance
  split
  next hphase =>
    refine h.goto hphase (by split <;> rfl) fun _ => ?_
    split
    next hempty => exact get_of_entries_eq_nil hempty
    next =>
      refine ⟨⟨nofun, fun child hchild => ?_⟩,
        fun entry => OrdMap.mem_entries.mp⟩
      exact .inl (.inl (OrdMap.mem_keys.mpr hchild))
  next pass hphase => exact h.goto hphase rfl And.left
  next agentId dependencies rest pass hphase =>
    rw [hphase] at hsound
    have hget := hsound.2 (agentId, dependencies) (mem_cons_self ..)
    have hrest : ∀ entry ∈ rest, s.blocked.get entry.1 = some entry.2 := fun entry hmem =>
      hsound.2 entry (mem_cons_of_mem _ hmem)
    have hidle := (hcore.blocked agentId dependencies hget).2
    split
    next hfinished =>
      refine h.goto hphase rfl fun _ => ⟨hsound.1.rest (fun other hmem => ?_)
        (fun other => ?_) (fun _ h => h) (.inl (.inl ?_)), hrest⟩
      · exact (mem_append.mp hmem).imp_right fun hmem =>
          ⟨mem_singleton.mp hmem, .inl (hidle.finished_iff.mp hfinished)⟩
      · exact .imp_left (mem_append_left _)
      · exact mem_append_right _ (mem_singleton_self _)
    next =>
      exact h.goto hphase rfl fun _ => ⟨hsound.1, hrest, dependencies, hget,
        fun _ h => h, nofun, fun _ d hd => .inl (.inl hd)⟩
  next agentId pending failures rest pass hphase =>
    refine h.goto hphase rfl fun ⟨hpass, hrest, dependencies, hget, hgate⟩ => ?_
    exact ⟨hpass.judge (hcore.blocked agentId dependencies hget).1 hgate, hrest⟩
  next agentId dependency others pending failures rest pass hphase =>
    rw [hphase] at hsound
    obtain ⟨hpass, hrest, dependencies, hget, hgate⟩ := hsound
    cases hsnapshot : s.snapshot dependency with
    | none =>
      have hknown := hcore.known agentId dependency
        ⟨dependencies, (hcore.blocked agentId dependencies hget).1,
          hgate.rest dependency (mem_cons_self ..)⟩
      rw [snapshot, map_eq_none_iff] at hsnapshot
      rw [hsnapshot] at hknown
      cases hknown
    | some snapshot =>
      exact h.goto hphase rfl fun _ =>
        ⟨hpass, hrest, dependencies, hget, hgate.read_one hsnapshot⟩
  next readyPlans pass hphase => exact h.goto hphase rfl id
  next agentId rest readyPlans pass hphase =>
    cases hget : s.blocked.get agentId with
    | none =>
      refine h.goto hphase rfl fun hsound => hsound.skip (fun _ => mem_cons_of_mem _) ?_ rfl
      intro other hother
      refine .imp_left fun hmem => (mem_cons.mp hmem).resolve_left fun heq => ?_
      rw [heq, hget] at hother
      cases hother
    | some dependencies =>
      have hidle := (hcore.blocked agentId dependencies hget).2
      dsimp only
      split
      next hfinished => exact h.drop hphase hget (hidle.finished_iff.mp hfinished)
      next hfinished => exact h.choose hphase hget fun h => hfinished (hidle.finished_iff.mpr h)
  next pass hphase => exact h.goto hphase rfl id
  next => exact h.keeps
  next waitingOn hphase =>
    refine h.goto hphase (by split <;> [rfl; (split <;> rfl)]) fun hsound => ?_
    split
    next hempty => exact get_of_entries_eq_nil hempty
    next =>
      split
      next hnil =>
        intro child
        cases hget : s.blocked.get child with
        | none => rfl
        | some dependencies =>
          obtain hmem | ⟨_, -, -, dependency, -, hwait⟩ :=
            hsound.covers child (by rw [hget]; rfl)
          · simp at hmem
          · rw [isEmpty_iff.mp hnil] at hwait
            cases hwait
      next => exact hsound
  next agentId failures rest waitingOn hphase =>
    cases hget : s.blocked.get agentId with
    | none =>
      refine h.goto hphase rfl fun hsound => hsound.skip (fun _ h => h) ?_ rfl
      intro other hother
      refine .imp_right fun hmem => (mem_cons.mp hmem).resolve_left fun heq => ?_
      rw [show other = agentId from heq, hget] at hother
      cases hother
    | some dependencies => exact h.condemn hphase hget claimedFiles
  next hphase => exact h.goto hphase rfl fun _ => trivial
  next waitingOn hphase => exact h.goto hphase rfl id
  next waitingOn agentId rest completed hphase =>
    split
    next => exact h.goto hphase rfl fun _ => trivial
    next => exact h.goto hphase rfl id
  next => exact h.keeps

/-- **Every step keeps the invariant.** -/
theorem keeps_step (s : Scheduler α) (action : Action α) (h : Sound s) :
    Keeps s (s.step action) := by
  by_cases hown : action.IsOwn
  · cases action with
    | advance claimedFiles => exact keeps_advance h claimedFiles
    | launch agentId answer claimedFiles => exact keeps_launch h agentId answer claimedFiles
    | _ => exact absurd hown id
  · have hstep := step_other h.core.completedDone hown
    exact ⟨hstep.sound h, hstep.plans, hstep.evolves.weaken rfl⟩

theorem Started.sound (h : Started s) : Sound s := by
  constructor
  · rw [h.phase]
    refine ⟨h.completed, ?_, ?_, ?_, ?_, ?_, ?_⟩
    · rintro child dependency ⟨dependencies, hplan, hmem⟩
      exact h.dependencies child dependencies hplan dependency hmem
    · intro child dependencies hget
      rw [h.blocked] at hget
      exact ⟨hget, h.children child dependencies hget⟩
    · exact nofun
    · rw [h.launched]
      exact nodup_nil
    · rw [h.launched]
      exact nofun
    · intro child hplan hnone
      rw [h.blocked] at hnone
      rw [hnone] at hplan
      cases hplan
  · rw [h.phase]
    trivial

/-- **The invariant holds in every reachable state**, and failed agents stay as they are. -/
theorem Sound.run (h : Sound s) (actions : List (Action α)) :
    Sound (System.run step s actions) ∧ (System.run step s actions).plans = s.plans ∧
      ∀ agentId, s.EndedBadly agentId → (System.run step s actions).EndedBadly agentId := by
  refine System.run_invariant (I := fun t => Sound t ∧ t.plans = s.plans ∧
    ∀ agentId, s.EndedBadly agentId → t.EndedBadly agentId) (fun t action ht => ?_)
    ⟨h, rfl, fun _ h => h⟩ actions
  obtain ⟨hsound, hplans, hended⟩ := ht
  have hkeeps := keeps_step t action hsound
  exact ⟨hkeeps.sound, hkeeps.plans.trans hplans, fun agentId h =>
    hkeeps.evolves.endedBadly (hended agentId h)⟩

end Scheduler

end Nanoclaw
