import Nanoclaw.Subagent.SchedulerInvariant

/-!
# What the Dependency Scheduler Guarantees

What holds for every interleaving of the scheduler with the other tasks. That children of failed
agents end needs that the scheduler does not stop early: left to itself it comes to rest, since a
pass that takes no child out of the map waits for unfinished agents only (`Fresh`), and every
other pass makes the map smaller.
-/

namespace Nanoclaw

open List

namespace Scheduler

variable {α : Type} [LinearOrder α] {s s' : Scheduler α}

/-! ### The scheduler comes to rest -/

/-- A step of the scheduler. -/
def OwnStep (s s' : Scheduler α) : Prop :=
  ∃ action : Action α, action.IsOwn ∧ s' = s.step action

/-- An agent is known and has no final status. -/
def Unfinished (agentId : α) (s : Scheduler α) : Prop :=
  ∃ status, s.status agentId = some status ∧ status.isTerminal = false

/-- How many steps of the scheduler are left in a pass. -/
def left : SchedulerPhase α → ℕ
  | .visiting rest pass =>
    (rest.map fun entry => entry.2.length + 4).sum + 2 * pass.ready.length + pass.failed.length + 4
  | .gating _ gate rest pass =>
    gate.rest.length + 3 + (rest.map fun entry => entry.2.length + 4).sum +
      2 * pass.ready.length + pass.failed.length + 4
  | .choosing rest readyPlans pass => 2 * rest.length + readyPlans.length + pass.failed.length + 3
  | .launching readyPlans pass => readyPlans.length + pass.failed.length + 2
  | .condemning rest _ => rest.length + 1
  | _ => 0

/-- The agents to wait for, as far as the pass has read. -/
def held : SchedulerPhase α → List α
  | .visiting _ pass | .choosing _ _ pass | .launching _ pass => pass.waitingOn
  | .gating _ gate _ pass => pass.waitingOn ++ gate.pending
  | .condemning _ waitingOn | .waiting waitingOn _ _ => waitingOn
  | _ => []

/-- **A pass over at most `n` children** has taken one out, or waits for unfinished agents. -/
structure Fresh (n : ℕ) (s : Scheduler α) : Prop where
  le : s.blocked.entries.length ≤ n
  found : s.blocked.entries.length < n ∨
    inFlight s.phase = [] ∧ ∀ agentId ∈ held s.phase, s.Unfinished agentId

/-- The next step of the scheduler. -/
def next (s : Scheduler α) : Action α :=
  match s.phase with
  | .launching (agentId :: _) _ => .launch agentId (.ok ()) []
  | _ => .advance []

theorem isOwn_next (s : Scheduler α) : s.next.IsOwn := by
  unfold next
  split <;> trivial

variable {n : ℕ}

/-- Reading keeps a pass fresh, if it waits for unfinished agents only. -/
theorem Fresh.goto (h : Fresh n s) {phase : SchedulerPhase α}
    (hflight : inFlight phase = inFlight s.phase)
    (hheld : (∀ agentId ∈ held s.phase, s.Unfinished agentId) →
      ∀ agentId ∈ held phase, s.Unfinished agentId) : Fresh n { s with phase } := by
  obtain ⟨hle, hfound⟩ := h
  exact ⟨hle, hfound.imp_right fun ⟨hnil, hall⟩ => ⟨hflight.trans hnil, hheld hall⟩⟩

variable {child : α} {dependencies : List α}

theorem Fresh.take {child : α} (h : Fresh n s) (hget : s.blocked.get child = some dependencies)
    (hblocked : s'.blocked = s.blocked.erase child) : Fresh n s' := by
  have hlt : s'.blocked.entries.length < n := by
    rw [hblocked]
    exact (OrdMap.length_erase_lt hget).trans_le h.le
  exact ⟨hlt.le, .inl hlt⟩

variable {agentId dependency : α} {snapshot : AgentRecordSnapshot} {agent : ScheduledAgent}
  {gate : GateProgress α}

omit [LinearOrder α] in
/-- The gate holds back for unfinished agents only. -/
theorem mem_pending_gateDependency
    (h : agentId ∈ (gateDependency dependency snapshot gate).pending) :
    agentId ∈ gate.pending ∨ agentId = dependency ∧ snapshot.status.isTerminal = false := by
  unfold gateDependency at h
  cases hstatus : snapshot.status <;> rw [hstatus] at h
  case queued | running | waitingApproval | waitingMessage =>
    exact (mem_append.mp h).imp_right fun h => ⟨mem_singleton.mp h, rfl⟩
  case completed | failed | cancelled => exact .inl h

omit [LinearOrder α] in
theorem rest_gateDependency (dependency : α) (snapshot : AgentRecordSnapshot)
    (gate : GateProgress α) : (gateDependency dependency snapshot gate).rest = gate.rest := by
  unfold gateDependency
  cases snapshot.status <;> rfl

/-- The next step of a pass brings its end nearer. -/
theorem left_next (hleft : left s.phase ≠ 0) :
    left (s.step s.next).phase < left s.phase ∧ (s.step s.next).phase ≠ .checking := by
  obtain ⟨plans, blocked, phase, agents, launched⟩ := s
  cases phase with
  | checking | waiting | exited => exact absurd rfl hleft
  | visiting rest pass =>
    cases rest <;> simp only [next, step, advance] <;> [skip; split] <;> refine ⟨?_, nofun⟩
    all_goals simp [left]
    all_goals omega
  | gating agentId gate rest pass =>
    obtain ⟨others, pending, failures⟩ := gate
    cases others with
    | nil =>
      simp only [next, step, advance, judge]
      split <;> [skip; split] <;> refine ⟨?_, nofun⟩ <;> simp [left] <;> omega
    | cons dependency others =>
      simp only [next, step, advance]
      split <;> refine ⟨?_, nofun⟩
      all_goals simp [left, rest_gateDependency]
      all_goals omega
  | choosing rest readyPlans pass =>
    cases rest <;> simp only [next, step, advance] <;> [skip; (split <;> [skip; split])] <;>
      refine ⟨?_, nofun⟩
    all_goals simp [left]
    all_goals omega
  | launching readyPlans pass =>
    cases readyPlans <;>
      simp only [next, step, advance, launch, mem_cons, true_or, if_true] <;>
      refine ⟨?_, nofun⟩ <;> simp [left]
  | condemning rest waitingOn =>
    cases rest <;> simp only [next, step, advance] <;> [(split <;> [skip; split]); split] <;>
      refine ⟨?_, nofun⟩ <;> simp [left]

theorem Fresh.next (h : Fresh n s) (hleft : left s.phase ≠ 0) : Fresh n (s.step s.next) := by
  obtain ⟨plans, blocked, phase, agents, launched⟩ := s
  cases phase with
  | checking | waiting | exited => exact absurd rfl hleft
  | visiting rest pass =>
    simp only [Scheduler.next, step, advance]
    cases rest with
    | nil => exact h.goto rfl fun h => h
    | cons entry rest =>
      dsimp only
      split
      · exact h.goto rfl fun h => h
      · exact h.goto rfl fun h => by simpa only [held, append_nil] using h
  | gating agentId gate rest pass =>
    simp only [Scheduler.next, step, advance]
    obtain ⟨others, pending, failures⟩ := gate
    cases others with
    | nil =>
      dsimp only
      unfold judge
      split
      · exact h.goto rfl fun h agentId hmem => h agentId (mem_append_left _ hmem)
      · split
        · exact h.goto rfl fun h agentId hmem => h agentId (mem_append_left _ hmem)
        · exact h.goto rfl fun h => h
    | cons dependency others =>
      dsimp only
      split
      · exact h.goto rfl fun h agentId hmem => h agentId (mem_append_left _ hmem)
      next snapshot hsnapshot =>
        refine h.goto rfl fun h agentId hmem => ?_
        obtain hmem | hmem := mem_append.mp hmem
        · exact h agentId (mem_append_left _ hmem)
        · obtain hmem | ⟨rfl, hlive⟩ := mem_pending_gateDependency hmem
          · exact h agentId (mem_append_right _ hmem)
          · exact ⟨snapshot.status, snapshot_eq_some hsnapshot, hlive⟩
  | choosing rest readyPlans pass =>
    simp only [Scheduler.next, step, advance]
    cases rest with
    | nil => exact h.goto rfl fun h => h
    | cons child rest =>
      dsimp only
      split
      · exact h.goto rfl fun h => h
      next dependencies hget => split <;> exact h.take hget rfl
  | launching readyPlans pass =>
    cases readyPlans with
    | nil => exact h.goto rfl fun h => h
    | cons child readyPlans =>
      simp only [Scheduler.next, step, launch, mem_cons, true_or, if_true, erase_cons_head]
      refine ⟨h.le, .inl (h.found.resolve_right fun hfound => ?_)⟩
      exact absurd hfound.1 (cons_ne_nil _ _)
  | condemning rest waitingOn =>
    simp only [Scheduler.next, step, advance]
    cases rest with
    | nil =>
      dsimp only
      split
      · exact h.goto rfl nofun
      · split
        · exact h.goto rfl nofun
        · exact h.goto rfl fun h => h
    | cons entry rest =>
      dsimp only
      split
      · exact h.goto rfl fun h => h
      next dependencies hget => exact h.take hget rfl

/-- The scheduler is at a point where a pass is over. -/
def PassOver (s : Scheduler α) : Prop :=
  s.phase = .exited ∨ ∃ waitingOn rest completed, s.phase = .waiting waitingOn rest completed

theorem Fresh.passOver (h : Fresh n s) (hphase : s.phase ≠ .checking) :
    ∃ t, Relation.ReflTransGen OwnStep s t ∧ Fresh n t ∧ t.PassOver := by
  induction hm : left s.phase using Nat.strong_induction_on generalizing s with
  | _ m ih =>
    by_cases hleft : left s.phase = 0
    · refine ⟨s, .refl, h, ?_⟩
      cases hcase : s.phase with
      | exited => exact .inl hcase
      | waiting waitingOn rest completed => exact .inr ⟨waitingOn, rest, completed, hcase⟩
      | checking => exact absurd hcase hphase
      | visiting | gating | choosing | launching | condemning =>
        rw [hcase] at hleft
        simp only [left] at hleft
        omega
    · obtain ⟨hlt, hchecking⟩ := left_next hleft
      obtain ⟨t, hsteps, ht⟩ := ih _ (hm ▸ hlt) (h.next hleft) hchecking rfl
      exact ⟨t, .head ⟨s.next, s.isOwn_next, rfl⟩ hsteps, ht⟩

section Wait

variable {waitingOn rest : List α} {completed : Bool}

/-- Reading an agent ends the wait if the agent is not known. -/
theorem wait_read (hphase : s.phase = .waiting waitingOn (agentId :: rest) completed) :
    (s.snapshot agentId = none ∧ OwnStep s { s with phase := .checking }) ∨
      ∃ snapshot, s.snapshot agentId = some snapshot ∧ OwnStep s { s with
        phase := .waiting waitingOn rest (completed || snapshot.status.isTerminal) } := by
  cases hsnapshot : s.snapshot agentId with
  | none =>
    refine .inl ⟨rfl, .advance [], trivial, ?_⟩
    rw [step, advance, hphase]
    simp only [hsnapshot]
  | some snapshot =>
    refine .inr ⟨snapshot, rfl, .advance [], trivial, ?_⟩
    rw [step, advance, hphase]
    simp only [hsnapshot]

variable (hphase : s.phase = .waiting waitingOn rest completed)

include hphase

/-- Reading an agent that is not unfinished ends the wait. -/
theorem wait_returns (h : completed = true ∨ ∃ agentId ∈ rest, ¬ s.Unfinished agentId) :
    Relation.ReflTransGen OwnStep s { s with phase := .checking } := by
  induction rest generalizing s completed with
  | nil =>
    obtain rfl | ⟨_, hmem, -⟩ := h
    · refine .single ⟨.advance [], trivial, ?_⟩
      rw [step, advance, hphase]
    · cases hmem
  | cons agentId rest ih =>
    obtain ⟨-, hstep⟩ | ⟨snapshot, hsnapshot, hstep⟩ := wait_read hphase
    · exact .single hstep
    · refine .head hstep (ih rfl ?_)
      obtain rfl | ⟨other, hmem, hother⟩ := h
      · exact .inl rfl
      · obtain rfl | hmem := mem_cons.mp hmem
        · refine .inl ?_
          cases hterminal : snapshot.status.isTerminal
          · exact absurd ⟨_, snapshot_eq_some hsnapshot, hterminal⟩ hother
          · exact Bool.or_true completed
        · exact .inr ⟨other, hmem, hother⟩

/-- A round of reading ends the wait or begins anew. -/
theorem wait_again : Relation.ReflTransGen OwnStep s { s with phase := .checking } ∨
      Relation.ReflTransGen OwnStep s { s with phase := .waiting waitingOn waitingOn false } := by
  induction rest generalizing s completed with
  | nil =>
    cases completed with
    | true => exact .inl (wait_returns hphase (.inl rfl))
    | false =>
      refine .inr (.single ⟨.advance [], trivial, ?_⟩)
      rw [step, advance, hphase]
  | cons agentId rest ih =>
    obtain ⟨-, hstep⟩ | ⟨snapshot, -, hstep⟩ := wait_read hphase
    · exact .inl (.single hstep)
    · exact (ih rfl).imp (.head hstep) (.head hstep)

end Wait

/-- If the scheduler does not rest at the end of a pass, it begins another one. -/
theorem PassOver.checking (h : s.PassOver) (hrests : ¬ s.Rests) :
    Relation.ReflTransGen OwnStep s { s with phase := .checking } := by
  obtain hphase | ⟨waitingOn, rest, completed, hphase⟩ := h
  · exact absurd (by rw [Rests, hphase]; trivial) hrests
  · rw [Rests, hphase] at hrests
    have hsome : ∃ agentId ∈ waitingOn, ¬ s.Unfinished agentId := by
      by_contra hnone
      exact hrests fun agentId hmem => not_not.mp fun hnot => hnone ⟨agentId, hmem, hnot⟩
    obtain hchecking | hagain := wait_again hphase
    · exact hchecking
    · exact hagain.trans (wait_returns rfl (.inr hsome))

/-- **A pass from the head of the loop** ends at rest, or with fewer blocked children. -/
theorem pass_from_checking (hphase : s.phase = .checking) :
    ∃ t, Relation.ReflTransGen OwnStep s t ∧ t.PassOver ∧
      (t.Rests ∨ t.blocked.entries.length < s.blocked.entries.length) := by
  by_cases hempty : s.blocked.entries.isEmpty = true
  · refine ⟨{ s with phase := .exited }, .single ⟨.advance [], trivial, ?_⟩, .inl rfl, .inl trivial⟩
    rw [step, advance, hphase]
    simp only [hempty, if_true]
  · have hstep : OwnStep s { s with phase := .visiting s.blocked.entries {} } := by
      refine ⟨.advance [], trivial, ?_⟩
      rw [step, advance, hphase]
      simp only [hempty, if_false, Bool.false_eq_true]
    have hfresh : Fresh s.blocked.entries.length
        { s with phase := .visiting s.blocked.entries {} } :=
      ⟨le_rfl, .inr ⟨rfl, nofun⟩⟩
    obtain ⟨t, hsteps, ht, hover⟩ := hfresh.passOver nofun
    refine ⟨t, .head hstep hsteps, hover, ht.found.symm.imp_left fun hheld => ?_⟩
    obtain hexited | ⟨waitingOn, rest, completed, hwaiting⟩ := hover
    · rw [Rests, hexited]
      trivial
    · rw [hwaiting] at hheld
      rw [Rests, hwaiting]
      exact hheld.2

/-- **The scheduler comes to rest** when no other task takes a step. -/
theorem comes_to_rest (s : Scheduler α) : ∃ t, Relation.ReflTransGen OwnStep s t ∧ t.Rests := by
  -- From the end of a pass, by induction on the number of blocked children.
  have hover : ∀ n, ∀ s : Scheduler α, s.PassOver → s.blocked.entries.length = n →
      ∃ t, Relation.ReflTransGen OwnStep s t ∧ t.Rests := by
    intro n
    induction n using Nat.strong_induction_on with
    | _ n ih =>
      intro s hover hn
      by_cases hrests : s.Rests
      · exact ⟨s, .refl, hrests⟩
      · obtain ⟨t, hsteps, hover', hrests' | hlt⟩ :=
          pass_from_checking (s := { s with phase := .checking }) rfl
        · exact ⟨t, (hover.checking hrests).trans hsteps, hrests'⟩
        · obtain ⟨u, hrest, hu⟩ := ih _ (hn ▸ hlt) t hover' rfl
          exact ⟨u, ((hover.checking hrests).trans hsteps).trans hrest, hu⟩
  by_cases hphase : s.phase = .checking
  · obtain ⟨t, hsteps, hpass, -⟩ := pass_from_checking hphase
    obtain ⟨u, hrest, hu⟩ := hover _ t hpass rfl
    exact ⟨u, hsteps.trans hrest, hu⟩
  · have hfresh : Fresh (s.blocked.entries.length + 1) s :=
      ⟨Nat.le_succ _, .inl (Nat.lt_succ_self _)⟩
    obtain ⟨t, hsteps, -, hpass⟩ := hfresh.passOver hphase
    obtain ⟨u, hrest, hu⟩ := hover _ t hpass rfl
    exact ⟨u, hsteps.trans hrest, hu⟩

/-! ### Failed or cancelled -/

/-- The children that a pass is about to fail. -/
def condemned : SchedulerPhase α → List (α × List DependencyFailure)
  | .visiting _ pass | .gating _ _ _ pass | .choosing _ _ pass | .launching _ pass => pass.failed
  | .condemning rest _ => rest
  | _ => []

/-- The failures that the gate of a child has collected. -/
def gateFailures (child : α) : SchedulerPhase α → List DependencyFailure
  | .gating agentId gate _ _ => if agentId = child then gate.failures else []
  | _ => []

/-- **Nothing has cancelled a child**, and nothing is about to. -/
structure Spared (child : α) (s : Scheduler α) : Prop where
  status : child ∈ s.launched ∨ s.status child ≠ some .cancelled
  condemned : ∀ failures, (child, failures) ∈ condemned s.phase →
    failures ≠ [] ∧ ∀ failure ∈ failures, failure.status = .failed
  gate : ∀ failure ∈ gateFailures child s.phase, failure.status = .failed

theorem status_update (agentId child : α) (f : ScheduledAgent → ScheduledAgent) :
    (s.update agentId f).status child =
      if child = agentId then (s.agents child).map fun agent => (f agent).record.status
      else s.status child := by
  unfold Scheduler.status update
  dsimp only
  by_cases heq : child = agentId
  · subst heq
    rw [Function.update_self, if_pos rfl, Option.map_map]
    rfl
  · rw [Function.update_of_ne heq, if_neg heq]

theorem not_idle (hagent : s.agents agentId = some agent)
    (hstage : agent.stage ≠ .idle) : ¬ s.Idle agentId := by
  rintro ⟨_, hagent', hidle⟩
  cases hagent.symm.trans hagent'
  exact hstage hidle

section

variable (h : Sound s) (hplan : (s.plans.get child).isSome = true)

include h hplan

/-- Where a child of the batch is that is not blocked and not in flight. -/
theorem Sound.launched_or_ended
    (hidle : ¬ s.Idle child) : child ∈ s.launched ∨ s.EndedBadly child := by
  cases hget : s.blocked.get child with
  | some dependencies => exact absurd (h.core.blocked child dependencies hget).2 hidle
  | none =>
    refine (h.core.settled child hplan hget).imp_left fun hmem => ?_
    exact (mem_append.mp hmem).resolve_left fun hmem => hidle (h.core.idle child hmem)

/-- The worker of a child of the batch was spawned by the scheduler. -/
theorem Sound.launched_of_live (hagent : s.agents child = some agent)
    (hlive : agent.stage = .live) : child ∈ s.launched := by
  refine (h.launched_or_ended hplan (not_idle hagent (by rw [hlive]; exact nofun))).resolve_right ?_
  rintro ⟨_, hagent', hdone, -⟩
  cases hagent.symm.trans hagent'
  cases hlive.symm.trans hdone

/-- A worker writes the record of a launched child only. -/
theorem Sound.status_updateIn_live
    (hlaunched : child ∉ s.launched) (agentId : α) (f : ScheduledAgent → ScheduledAgent) :
    (s.updateIn .live agentId f).status child = s.status child := by
  rw [updateIn, status_update]
  split
  next heq =>
    refine Option.map_congr fun agent hagent => ?_
    rw [if_neg fun hlive => hlaunched (h.launched_of_live hplan hagent hlive)]
  next => rfl

end

section Spare

variable {action : Action α}

/-- The other tasks do not cancel a child, unless they call `cancel`. -/
theorem Spared.other (h : Spared child s) (hsound : Sound s)
    (hplan : s.plans.get child = some dependencies) (hother : ¬ action.IsOwn)
    (hcancel : ∀ reason claimedFiles, action ≠ .cancel child reason claimedFiles) :
    Spared child (s.step action) := by
  have hstep := step_other hsound.core.completedDone hother
  have hplan' : (s.plans.get child).isSome = true := by rw [hplan]; rfl
  refine ⟨?_, by rw [hstep.phase]; exact h.condemned, by rw [hstep.phase]; exact h.gate⟩
  rw [hstep.launched]
  by_cases hlaunched : child ∈ s.launched
  · exact .inl hlaunched
  refine .inr ?_
  have hbefore := h.status.resolve_left hlaunched
  cases action with
  | advance => exact absurd trivial hother
  | launch => exact absurd trivial hother
  | cancel agentId reason claimedFiles =>
    have hne : child ≠ agentId := by
      rintro rfl
      exact hcancel reason claimedFiles rfl
    rwa [step, status_update, if_neg hne]
  | report | finish | stop => rwa [step, hsound.status_updateIn_live hplan' hlaunched]
  | start agentId | abandon agentId =>
    rw [step]
    split
    next => exact hbefore
    next hagent =>
      have hne : child ≠ agentId := by
        rintro rfl
        exact hagent hplan'
      rwa [updateIn, status_update, if_neg hne]

/-- A change of an agent that does not cancel it. -/
theorem status_update_ne {f : ScheduledAgent → ScheduledAgent}
    (h : s.status child ≠ some .cancelled)
    (hf : ∀ agent : ScheduledAgent, child = agentId → agent.record.status ≠ .cancelled →
      (f agent).record.status ≠ .cancelled) :
    (s.update agentId f).status child ≠ some .cancelled := by
  rw [status_update]
  split
  next heq =>
    intro hcancelled
    obtain ⟨agent, hagent, hstatus⟩ := Option.map_eq_some_iff.mp hcancelled
    exact hf agent heq (fun hbefore => h (status_eq_some.mpr ⟨agent, hagent, hbefore⟩)) hstatus
  next => exact h

/-- A launch that fails leaves its child failed. -/
theorem Spared.launch (h : Spared child s) (agentId : α) (answer : Except String Unit)
    (claimedFiles : List String) : Spared child (s.launch agentId answer claimedFiles) := by
  unfold Scheduler.launch
  split
  next readyPlans pass hphase =>
    split
    next =>
      obtain ⟨hstatus, hcondemned, -⟩ := h
      rw [hphase] at hcondemned
      cases answer with
      | ok =>
        refine ⟨hstatus.imp (mem_append_left _) fun hbefore => ?_, hcondemned, nofun⟩
        exact status_update_ne hbefore fun _ _ h => h
      | error error =>
        refine ⟨hstatus.imp_right fun hbefore => ?_, hcondemned, nofun⟩
        exact status_update_ne hbefore fun _ _ _ => nofun
    next => exact h
  next => exact h

theorem blockedResult_failed {failures : List DependencyFailure} (hne : failures ≠ [])
    (h : ∀ failure ∈ failures, failure.status = .failed) (claimedFiles : List String) :
    (blockedResult failures claimedFiles).1.status = .failed := by
  obtain ⟨failure, rest, rfl⟩ := exists_cons_of_ne_nil hne
  have hany : (failure :: rest).any (·.status == .failed) = true := by
    rw [any_cons, h failure (mem_cons_self ..)]
    rfl
  exact if_pos hany

omit [LinearOrder α] in
/-- The gate collects the failures it reads. -/
theorem mem_failures_gateDependency {failure : DependencyFailure}
    (h : failure ∈ (gateDependency dependency snapshot gate).failures) :
    failure ∈ gate.failures ∨ failure.status = snapshot.status ∧
      (snapshot.status = .failed ∨ snapshot.status = .cancelled) := by
  unfold gateDependency at h
  cases hstatus : snapshot.status <;> rw [hstatus] at h
  case queued | running | waitingApproval | waitingMessage | completed => exact .inl h
  case failed | cancelled =>
    refine (mem_append.mp h).imp_right fun h => ?_
    rw [mem_singleton.mp h]
    simp

omit [LinearOrder α] in
theorem mem_failed_judge {pass : SchedulerPass α} {entry : α × List DependencyFailure}
    (h : entry ∈ (judge agentId gate pass).failed) :
    entry ∈ pass.failed ∨ entry = (agentId, gate.failures) ∧ gate.failures ≠ [] := by
  unfold judge at h
  split at h
  next hne =>
    refine (mem_append.mp h).imp_right fun h => ⟨mem_singleton.mp h, ?_⟩
    simpa using hne
  next => split at h <;> exact .inl h

variable (h : Spared child s) (hsound : Sound s) (hplan : s.plans.get child = some dependencies)

include h hsound hplan

/-- The scheduler does not cancel a child whose dependencies are not cancelled. -/
theorem Spared.advance
    (hdependencies : ∀ dependency ∈ dependencies, s.status dependency ≠ some .cancelled)
    (claimedFiles : List String) : Spared child (s.advance claimedFiles) := by
  obtain ⟨plans, blocked, phase, agents, launched⟩ := s
  have ⟨hstatus, hcondemned, hgate⟩ := h
  cases phase with
  | checking =>
    simp only [Scheduler.advance]
    split <;> exact ⟨hstatus, nofun, nofun⟩
  | visiting rest pass =>
    cases rest with
    | nil => exact ⟨hstatus, hcondemned, nofun⟩
    | cons entry rest =>
      simp only [Scheduler.advance]
      split
      · exact ⟨hstatus, hcondemned, nofun⟩
      · refine ⟨hstatus, hcondemned, ?_⟩
        simp only [gateFailures, ite_self]
        exact nofun
  | gating agentId gate rest pass =>
    obtain ⟨others, pending, failures⟩ := gate
    cases others with
    | nil =>
      refine ⟨hstatus, fun failures' hmem => ?_, nofun⟩
      obtain hmem | ⟨heq, hne⟩ := mem_failed_judge hmem
      · exact hcondemned failures' hmem
      · cases heq
        simp only [gateFailures, if_true] at hgate
        exact ⟨hne, hgate⟩
    | cons dependency others =>
      simp only [Scheduler.advance]
      split
      next => exact ⟨hstatus, hcondemned, nofun⟩
      next snapshot hsnapshot =>
        refine ⟨hstatus, hcondemned, fun failure hmem => ?_⟩
        simp only [gateFailures] at hmem hgate
        split at hmem
        next heq =>
          rw [if_pos heq] at hgate
          obtain hmem | ⟨hfailure, hbad⟩ := mem_failures_gateDependency hmem
          · exact hgate failure hmem
          · obtain ⟨-, -, dependencies', hget, hgated⟩ := hsound.phase
            have hplan' := (hsound.core.blocked agentId dependencies' hget).1
            cases hplan.symm.trans (heq ▸ hplan')
            have hnot := hdependencies dependency (hgated.rest dependency (mem_cons_self ..))
            rw [snapshot_eq_some hsnapshot] at hnot
            exact hfailure.trans
              (hbad.resolve_right fun hcancelled => hnot (congrArg some hcancelled))
        next => cases hmem
  | choosing rest readyPlans pass =>
    cases rest with
    | nil => exact ⟨hstatus, hcondemned, nofun⟩
    | cons agentId rest =>
      simp only [Scheduler.advance]
      split
      · exact ⟨hstatus, hcondemned, nofun⟩
      · split
        · refine ⟨hstatus.imp_right fun hbefore => ?_, hcondemned, nofun⟩
          exact status_update_ne hbefore fun _ _ h => h
        · exact ⟨hstatus, hcondemned, nofun⟩
  | launching readyPlans pass =>
    cases readyPlans with
    | nil => exact ⟨hstatus, hcondemned, nofun⟩
    | cons => exact h
  | condemning rest waitingOn =>
    cases rest with
    | nil =>
      simp only [Scheduler.advance]
      split <;> [skip; split] <;> exact ⟨hstatus, nofun, nofun⟩
    | cons entry rest =>
      have hrest : ∀ failures, (child, failures) ∈ rest →
          failures ≠ [] ∧ ∀ failure ∈ failures, failure.status = .failed := fun failures hmem =>
        hcondemned failures (mem_cons_of_mem _ hmem)
      simp only [Scheduler.advance]
      split
      · exact ⟨hstatus, hrest, nofun⟩
      · refine ⟨hstatus.imp_right fun hbefore => ?_, hrest, nofun⟩
        refine status_update_ne hbefore fun agent heq _ => ?_
        obtain ⟨hne, hall⟩ := hcondemned entry.2 (by rw [heq]; exact mem_cons_self ..)
        rw [ScheduledAgent.status_finish (blockedResult_isTerminal entry.2 claimedFiles),
          blockedResult_failed hne hall]
        exact nofun
  | waiting waitingOn rest completed =>
    cases rest with
    | nil => cases completed <;> exact ⟨hstatus, nofun, nofun⟩
    | cons agentId rest =>
      simp only [Scheduler.advance]
      split <;> exact ⟨hstatus, nofun, nofun⟩
  | exited => exact h

/-- **A step that cancels neither the child nor reads a cancelled dependency** spares it. -/
theorem Spared.step
    (hstep : Uncancelled child dependencies s action) : Spared child (s.step action) := by
  by_cases hown : action.IsOwn
  · cases action with
    | advance claimedFiles => exact h.advance hsound hplan hstep.1 claimedFiles
    | launch agentId answer claimedFiles => exact h.launch agentId answer claimedFiles
    | _ => exact absurd hown id
  · exact h.other hsound hplan hown hstep.2

end Spare

/-! ### The guarantees -/

section

variable (h : s.EndedBadly agentId)

include h

theorem EndedBadly.status :
    s.status agentId = some .failed ∨ s.status agentId = some .cancelled := by
  obtain ⟨agent, hagent, -, hbad⟩ := h
  exact hbad.imp (fun hbad => status_eq_some.mpr ⟨agent, hagent, hbad⟩)
    fun hbad => status_eq_some.mpr ⟨agent, hagent, hbad⟩

theorem EndedBadly.ne_completed : s.status agentId ≠ some .completed := by
  rcases h.status with hstatus | hstatus <;> rw [hstatus] <;> exact nofun

theorem EndedBadly.not_unfinished : ¬ s.Unfinished agentId := by
  rintro ⟨status, hstatus, hlive⟩
  rcases h.status with hbad | hbad <;> cases hbad.symm.trans hstatus <;> cases hlive

end

section

variable (h : Sound s)

include h

theorem Sound.launched_of_completed (hplan : (s.plans.get child).isSome = true)
    (hcompleted : s.status child = some .completed) : child ∈ s.launched := by
  obtain ⟨agent, hagent, hstatus⟩ := status_eq_some.mp hcompleted
  have hdone := h.core.completedDone child agent hagent hstatus
  exact (h.launched_or_ended hplan (not_idle hagent (by rw [hdone]; exact nofun))).resolve_right
    fun hended => hended.ne_completed hcompleted

/-- A child with a dependency that has not completed is not launched. -/
theorem Sound.not_launched_of_dependsOn (hdepends : s.DependsOn child dependency)
    (hnot : s.status dependency ≠ some .completed) : child ∉ s.launched := by
  intro hmem
  obtain ⟨dependencies, hplan, hmemDependency⟩ := hdepends
  obtain ⟨dependencies', hplan', hall⟩ := (h.core.taken child (mem_append_right _ hmem)).2
  cases hplan.symm.trans hplan'
  exact hnot (hall dependency hmemDependency)

/-- **No child is launched that depends on an agent that failed**, directly or not. -/
theorem Sound.not_launched (hdepends : Relation.TransGen s.DependsOn child dependency)
    (hended : s.EndedBadly dependency) : child ∉ s.launched := by
  induction hdepends using Relation.TransGen.head_induction_on with
  | single hdirect => exact h.not_launched_of_dependsOn hdirect hended.ne_completed
  | head hdirect htrans ih =>
    refine h.not_launched_of_dependsOn hdirect fun hcompleted => ?_
    obtain ⟨next, ⟨dependencies, hplan, -⟩, -⟩ := Relation.TransGen.head'_iff.mp htrans
    exact ih (h.launched_of_completed (by rw [hplan]; rfl) hcompleted)

/-- At rest a child with a dependency that ended without success is not blocked. -/
theorem Sound.endedBadly_of_dependsOn (hrests : s.Rests)
    (hdepends : s.DependsOn child dependency) (hended : s.EndedBadly dependency) :
    s.EndedBadly child := by
  have hnotLaunched := h.not_launched_of_dependsOn hdepends hended.ne_completed
  obtain ⟨dependencies, hplan, hmem⟩ := hdepends
  have hsound := h.phase
  have hcore := h.core
  unfold Rests at hrests
  have hsettled : s.blocked.get child = none ∧ inFlight s.phase = [] := by
    split at hrests
    next hphase =>
      rw [hphase] at hsound ⊢
      exact ⟨hsound child, rfl⟩
    next waitingOn rest completed hphase =>
      rw [hphase] at hsound ⊢
      refine ⟨?_, rfl⟩
      cases hget : s.blocked.get child with
      | none => rfl
      | some dependencies' =>
        obtain hlists | ⟨dependencies', hplan', hall, -⟩ :=
          hsound.covers child (by rw [hget]; rfl)
        · simp at hlists
        · cases hplan.symm.trans hplan'
          obtain hwait | hcompleted := hall dependency hmem
          · exact absurd (hrests dependency hwait) hended.not_unfinished
          · exact absurd hcompleted hended.ne_completed
    next => exact hrests.elim
  refine (hcore.settled child (by rw [hplan]; rfl) hsettled.1).resolve_left ?_
  rw [hsettled.2]
  exact hnotLaunched

/-- **At rest such a child has ended without success as well.** -/
theorem Sound.endedBadly_of_rests (hrests : s.Rests)
    (hdepends : Relation.TransGen s.DependsOn child dependency) (hended : s.EndedBadly dependency) :
    s.EndedBadly child := by
  induction hdepends using Relation.TransGen.head_induction_on with
  | single hdirect => exact h.endedBadly_of_dependsOn hrests hdirect hended
  | head hdirect _ ih => exact h.endedBadly_of_dependsOn hrests hdirect ih

end

theorem Started.spared (h : Started s) {actions : List (Action α)}
    (hplan : s.plans.get child = some dependencies) (hstatus : s.status child ≠ some .cancelled)
    (hmeets : System.Meets step (Uncancelled child dependencies) s actions) :
    Spared child (System.run step s actions) := by
  have hspared : Spared child s := ⟨.inr hstatus, by rw [h.phase]; exact nofun,
    by rw [h.phase]; exact nofun⟩
  refine (hmeets.run (I := fun t => t.plans = s.plans ∧ Sound t ∧ Spared child t)
    (fun t action ht hstep => ?_) ⟨rfl, h.sound, hspared⟩).2.2
  obtain ⟨hplans, hsound, hspared⟩ := ht
  have hkeeps := keeps_step t action hsound
  exact ⟨hkeeps.plans.trans hplans, hkeeps.sound, hspared.step hsound (hplans ▸ hplan) hstep⟩

/-- **What the scheduler guarantees**, for every order of the steps of all tasks: each child is
launched at most once and after its dependencies; at the exit every child was launched or has ended;
left to itself the scheduler comes to rest; no child of an agent that ended without success,
directly or not, is ever launched, and at rest it has ended too, failed unless it or a dependency
was cancelled. -/
theorem dependency_scheduling (h : Started s) (actions : List (Action α)) :
    let t := System.run step s actions
    t.launched.Nodup ∧
      (∀ child ∈ t.launched, ∃ dependencies, s.plans.get child = some dependencies ∧
        ∀ dependency ∈ dependencies, t.status dependency = some .completed) ∧
      (t.phase = .exited → ∀ child, (s.plans.get child).isSome = true →
        child ∈ t.launched ∨ t.EndedBadly child) ∧
      (∃ u, Relation.ReflTransGen OwnStep t u ∧ u.Rests) ∧
      (∀ child dependency, Relation.TransGen s.DependsOn child dependency →
        t.EndedBadly dependency → ∀ more, let u := System.run step t more
          child ∉ u.launched ∧ (u.Rests → u.EndedBadly child)) ∧
      ∀ child dependencies, s.plans.get child = some dependencies →
        s.status child ≠ some .cancelled →
        System.Meets step (Uncancelled child dependencies) s actions →
        child ∉ t.launched → t.EndedBadly child → t.status child = some .failed := by
  intro t
  obtain ⟨hsound, hplans, -⟩ : Sound t ∧ t.plans = s.plans ∧ _ := h.sound.run actions
  refine ⟨(nodup_append.mp hsound.core.nodup).2.1, fun child hmem => ?_,
    fun hexited child hplan => ?_, comes_to_rest t, fun child dependency hdepends hended more => ?_,
    fun child dependencies hplan hstatus hmeets hlaunched hended => ?_⟩
  · rw [← hplans]
    exact (hsound.core.taken child (mem_append_right _ hmem)).2
  · have hcore := hsound.core
    have hphase := hsound.phase
    rw [hexited] at hcore hphase
    rw [← hplans] at hplan
    exact hcore.settled child hplan (hphase child)
  · intro u
    obtain ⟨hu, huPlans, hkept⟩ : Sound u ∧ u.plans = t.plans ∧ _ := hsound.run more
    have hdepends' : Relation.TransGen u.DependsOn child dependency := by
      have heq : u.DependsOn = s.DependsOn := by
        unfold DependsOn
        rw [huPlans, hplans]
      rwa [heq]
    have hended' := hkept dependency hended
    exact ⟨hu.not_launched hdepends' hended', fun hrests =>
      hu.endedBadly_of_rests hrests hdepends' hended'⟩
  · have hspared := (h.spared hplan hstatus hmeets).status.resolve_left hlaunched
    exact hended.status.resolve_right hspared

/-! ### A child with one dependency -/

/-- The child `1` depends on the agent `0`, whose worker runs. -/
def oneChild : Scheduler ℕ where
  plans := OrdMap.empty.insert 1 [0]
  blocked := OrdMap.empty.insert 1 [0]
  agents := fun
    | 0 =>
      some { taskId := "first", record := { status := .running, mailbox := 0 }, stage := .live }
    | 1 => some { taskId := "second", record := { mailbox := 0 } }
    | _ => none

theorem started_oneChild : Started oneChild := by
  have hplans : ∀ child dependencies, oneChild.plans.get child = some dependencies →
      child = 1 ∧ dependencies = [0] := by
    intro child dependencies h
    rw [show oneChild.plans = OrdMap.empty.insert 1 [0] from rfl, OrdMap.get_insert] at h
    split at h
    next heq => exact ⟨heq, (Option.some.inj h).symm⟩
    next => cases h
  refine ⟨rfl, rfl, rfl, fun child dependencies h dependency hmem => ?_,
    fun child dependencies h => ?_, fun agentId agent h hcompleted => ?_⟩
  · obtain ⟨-, rfl⟩ := hplans child dependencies h
    rw [mem_singleton.mp hmem]
    rfl
  · obtain ⟨rfl, -⟩ := hplans child dependencies h
    exact ⟨_, rfl, rfl⟩
  · match agentId with
    | 0 | 1 =>
      cases h
      cases hcompleted
    | _ + 2 => cases h

/-- The worker of the dependency ends, and the scheduler walks over its child. -/
def firstPass (ends : List (Action ℕ)) : List (Action ℕ) :=
  ends ++ List.replicate 9 (.advance [])

theorem child_fails_with_dependency :
    let t := System.run step oneChild (firstPass [.finish 0 (.fail "out of tokens") []])
    t.phase = .exited ∧ 1 ∉ t.launched ∧ t.EndedBadly 1 := by
  have hguarantees := dependency_scheduling started_oneChild
    (firstPass [.finish 0 (.fail "out of tokens") []])
  obtain ⟨-, -, -, -, hended, -⟩ := hguarantees
  obtain ⟨hlaunched, hrests⟩ := hended 1 0 (.single ⟨[0], rfl, mem_singleton_self 0⟩)
    ⟨_, rfl, rfl, .inl rfl⟩ []
  exact ⟨rfl, hlaunched, hrests trivial⟩

/-- The child of a cancelled agent does not end failed but cancelled. -/
theorem child_of_cancelled_dependency_is_cancelled : Started oneChild ∧ oneChild.DependsOn 1 0 ∧
      let t := System.run step oneChild (firstPass [.cancel 0 none [], .stop 0])
      t.phase = .exited ∧ t.EndedBadly 0 ∧ t.status 1 = some .cancelled :=
  ⟨started_oneChild, ⟨[0], rfl, mem_singleton_self 0⟩, rfl, ⟨_, rfl, rfl, .inr rfl⟩, rfl⟩

end Scheduler

end Nanoclaw
