import Mathlib.Data.List.Nodup
import Nanoclaw.Subagent.Executor
import Nanoclaw.Subagent.LeaseGuard

/-!
# Leases of Unfinished Children

The invariant of the leases of one child, for all children at once and together with the calls of
`spawn` under way. Every agent releases only its own leases, and a call of `spawn` those of
children that were not inserted.
-/

namespace Nanoclaw

open List System

namespace Executor

variable {α : Type} {executor : Executor α} {spawn : Spawn α} {call : ℕ}

theorem agentIds_set (hcall : executor.spawns[call]? = some spawn) (stage : SpawnStage α) :
    (executor.spawns.set call { spawn with stage }).flatMap
        (fun spawn => spawn.planned.map PlannedChildSpawn.agentId) = executor.agentIds := by
  obtain ⟨hlt, hget⟩ := List.getElem?_eq_some_iff.mp hcall
  unfold agentIds
  rw [flatMap_def, map_set]
  congr 1
  refine ext_getElem? fun i => ?_
  rw [getElem?_set]
  split
  next heq =>
    subst heq
    simp [hlt, hget]
  · rfl

variable [LinearOrder α]

/-- **The condition on one step of the executor.** -/
def orderly (executor : Executor α) : Action α → Bool
  | .child agentId action =>
    match executor.children agentId with
    | some child => child.orderly action
    | none => true
  | _ => true

/-- A planned child holds leases on its files. -/
def Holds (executor : Executor α) (planned : PlannedChildSpawn α) : Prop :=
  ∀ path ∈ planned.requestedFiles, normalizePath path ∈ executor.leases.claimedPaths planned.agentId

/-- What holds of a call of `spawn`: the children to be inserted are not there yet, the claimed ones
hold their leases, and only leases of children never inserted are given back. -/
def Spawning (executor : Executor α) (spawn : Spawn α) : Prop :=
  let absent (agentId : α) : Prop :=
    agentId ∈ spawn.planned.map PlannedChildSpawn.agentId ∧ executor.children agentId = none
  match spawn.stage with
  | .claiming claimedAgents rest =>
    (∀ planned ∈ spawn.planned, absent planned.agentId) ∧
      (∀ agentId ∈ claimedAgents, absent agentId) ∧
      ∃ done, spawn.planned = done ++ rest ∧ ∀ planned ∈ done, executor.Holds planned
  | .announcing claimedAgents =>
    (∀ planned ∈ spawn.planned, absent planned.agentId) ∧
      (∀ agentId ∈ claimedAgents, absent agentId) ∧
      ∀ planned ∈ spawn.planned, executor.Holds planned
  | .rollingBack rest => ∀ agentId ∈ rest, absent agentId
  | .inserting rest =>
    (rest.map PlannedChildSpawn.agentId).Nodup ∧
      ∀ planned ∈ rest, absent planned.agentId ∧ executor.Holds planned
  | .returned => True

/-- **The invariant of the executor.** -/
structure Consistent (executor : Executor α) : Prop where
  sound : executor.leases.Sound
  fresh : executor.agentIds.Nodup
  known : ∀ agentId child, executor.children agentId = some child → agentId ∈ executor.agentIds
  guarded : ∀ agentId child, executor.children agentId = some child →
    child.Guarded (executor.leases.claimedPaths agentId)
  spawning : ∀ spawn ∈ executor.spawns, executor.Spawning spawn

/-- A call of `spawn` is not disturbed by what happens to other children. -/
theorem Spawning.frame {executor' : Executor α} (h : executor.Spawning spawn)
    (hframe : ∀ agentId ∈ spawn.planned.map PlannedChildSpawn.agentId,
      executor.children agentId = none → executor'.children agentId = none ∧
        executor.leases.claimedPaths agentId ⊆ executor'.leases.claimedPaths agentId) :
    executor'.Spawning spawn := by
  have habsent : ∀ agentId, agentId ∈ spawn.planned.map PlannedChildSpawn.agentId ∧
      executor.children agentId = none →
        agentId ∈ spawn.planned.map PlannedChildSpawn.agentId ∧ executor'.children agentId = none :=
    fun agentId ha => ⟨ha.1, (hframe agentId ha.1 ha.2).1⟩
  have hholds : ∀ planned : PlannedChildSpawn α,
      planned.agentId ∈ spawn.planned.map PlannedChildSpawn.agentId ∧
        executor.children planned.agentId = none →
          executor.Holds planned → executor'.Holds planned :=
    fun planned ha hp path hpath => (hframe _ ha.1 ha.2).2 (hp path hpath)
  unfold Spawning at h ⊢
  cases hstage : spawn.stage with
  | claiming claimedAgents rest =>
    simp only [hstage] at h ⊢
    obtain ⟨hplanned, hclaimed, done, heq, hdone⟩ := h
    exact ⟨fun p hp => habsent _ (hplanned p hp), fun a ha => habsent a (hclaimed a ha), done,
      heq, fun p hp => hholds p (hplanned p (heq ▸ mem_append_left _ hp)) (hdone p hp)⟩
  | announcing claimedAgents =>
    simp only [hstage] at h ⊢
    obtain ⟨hplanned, hclaimed, hall⟩ := h
    exact ⟨fun p hp => habsent _ (hplanned p hp), fun a ha => habsent a (hclaimed a ha),
      fun p hp => hholds p (hplanned p hp) (hall p hp)⟩
  | rollingBack rest =>
    simp only [hstage] at h ⊢
    exact fun a ha => habsent a (h a ha)
  | inserting rest =>
    simp only [hstage] at h ⊢
    exact ⟨h.1, fun p hp => ⟨habsent _ (h.2 p hp).1, hholds p (h.2 p hp).1 (h.2 p hp).2⟩⟩
  | returned => trivial

variable {agentId : α} {children : α → Option (Child α)} {leases : LeaseIndex α}
  {action : Child.Action}

/-- A child that claims leases is told whether they were granted. -/
theorem granted_answered {child : Child α} {files : List PathBuf}
    (hcall : (child.step (executor.answered agentId child action)).2 = some (.claim files)) :
    (executor.answered agentId child action).granted = executor.grants agentId files := by
  obtain ⟨call, answer, heq, hr⟩ := Child.step_eq_claim hcall
  cases action with
  | advanceResume call' answer' =>
    obtain ⟨rfl, -⟩ := Child.Action.advanceResume.inj heq
    simp [answered, hr, Child.Action.granted]
  | _ => cases heq

/-- What a call of the lease manager leaves to the child that makes it. -/
theorem leasesAfter_subset (hsound : executor.leases.Sound)
    {child : Child α} {call : Option LeaseCall}
    (hcall : (child.step (executor.answered agentId child action)).2 = call) :
    Child.leasesAfter (executor.leases.claimedPaths agentId)
        (executor.answered agentId child action).granted call ⊆
      (callLeases agentId executor.leases call).claimedPaths agentId := by
  rcases call with _ | files | _
  · exact .refl _
  · rw [granted_answered hcall]
    intro path hpath
    rcases hsound.claim_cases agentId files with ⟨conflict, heq⟩ | ⟨-, heq⟩
    · simp only [Child.leasesAfter, grants, heq, Except.toBool, Bool.false_eq_true,
        if_false] at hpath
      simpa only [callLeases, heq] using hpath
    · have hok : (executor.leases.claim agentId files).1 = .ok () := by rw [heq]
      simp only [Child.leasesAfter, grants, hok, Except.toBool, if_true, mem_append] at hpath
      exact (hsound.mem_claim hok agentId path).mpr (hpath.imp_right fun hp => ⟨rfl, hp⟩)
  · exact nil_subset _

theorem sound_callLeases (h : leases.Sound) (agentId : α)
    (call : Option LeaseCall) : (callLeases agentId leases call).Sound := by
  rcases call with _ | files | _
  · exact h
  · exact h.claim agentId files
  · exact h.release agentId

theorem subset_callLeases (h : leases.Sound) {other : α}
    (hne : other ≠ agentId) (call : Option LeaseCall) :
    leases.claimedPaths other ⊆ (callLeases agentId leases call).claimedPaths other := by
  rcases call with _ | files | _
  · exact .refl _
  · exact h.subset_claim agentId other files
  · exact h.subset_release hne

/-- What holds of all children holds after one of them was set. -/
theorem forall_update {P : α → Child α → Prop} {child : Child α} (hself : P agentId child)
    (hother : ∀ other child', other ≠ agentId → children other = some child' → P other child') :
    ∀ other child', Function.update children agentId (some child) other = some child' →
      P other child' := by
  grind [Function.update_apply]

section

variable (h : executor.Consistent)

include h

/-- **A step of one child keeps the invariant.** -/
theorem Consistent.child (hC : executor.orderly (.child agentId action) = true) :
    (executor.step (.child agentId action)).Consistent := by
  unfold Executor.step
  cases hchild : executor.children agentId with
  | none =>
    simp only [hchild]
    exact h
  | some child =>
    simp only [hchild]
    have horderly : child.orderly (executor.answered agentId child action) = true := by
      simp only [orderly, hchild] at hC
      cases action <;> exact hC
    have hstep := ((h.guarded agentId child hchild).step horderly).mono
      (leasesAfter_subset h.sound rfl)
    exact {
      sound := sound_callLeases h.sound agentId _
      fresh := h.fresh
      known :=
        forall_update (h.known agentId child hchild) fun other child' _ => h.known other child'
      guarded := forall_update hstep fun other child' hne hother =>
        (h.guarded other child' hother).mono (subset_callLeases h.sound hne _)
      spawning spawn hmem := by
        refine (h.spawning spawn hmem).frame fun other _ hnone => ?_
        have hne : other ≠ agentId := by
          rintro rfl
          rw [hchild] at hnone
          cases hnone
        exact ⟨(Function.update_of_ne hne _ _).trans hnone, subset_callLeases h.sound hne _⟩ }

/-! ### Calls of `spawn` -/

/-- Different calls of `spawn` plan different children. -/
theorem Consistent.disjoint {i j : ℕ} {spawn' : Spawn α} (hi : executor.spawns[i]? = some spawn)
    (hj : executor.spawns[j]? = some spawn') (hne : i ≠ j)
    (hmem : agentId ∈ spawn.planned.map PlannedChildSpawn.agentId) :
    agentId ∉ spawn'.planned.map PlannedChildSpawn.agentId := by
  have hpair := (nodup_flatMap.mp h.fresh).2
  rw [pairwise_iff_getElem] at hpair
  obtain ⟨hlt, rfl⟩ := List.getElem?_eq_some_iff.mp hi
  obtain ⟨hlt', rfl⟩ := List.getElem?_eq_some_iff.mp hj
  intro hmem'
  rcases lt_or_gt_of_ne hne with hij | hij
  · exact hpair i j hlt hlt' hij hmem hmem'
  · exact hpair j i hlt' hlt hij hmem' hmem

/-- **A step of a call of `spawn`** that concerns only children it planned. -/
theorem Consistent.setSpawn (hcall : executor.spawns[call]? = some spawn) (stage : SpawnStage α)
    (hsound : leases.Sound)
    (hknown : ∀ agentId child, children agentId = some child → agentId ∈ executor.agentIds)
    (hguarded : ∀ agentId child, children agentId = some child →
      child.Guarded (leases.claimedPaths agentId))
    (hframe : ∀ agentId ∉ spawn.planned.map PlannedChildSpawn.agentId,
      executor.children agentId = none → children agentId = none ∧
        executor.leases.claimedPaths agentId ⊆ leases.claimedPaths agentId)
    (hown : ({ executor with children, leases } : Executor α).Spawning { spawn with stage }) :
    Consistent { children, leases, spawns := executor.spawns.set call { spawn with stage } } where
  sound := hsound
  fresh := by
    have hids := agentIds_set hcall stage
    exact (congrArg List.Nodup hids).mpr h.fresh
  known agentId child hc := by
    have hids := agentIds_set hcall stage
    exact (congrArg (agentId ∈ ·) hids).mpr (hknown agentId child hc)
  guarded := hguarded
  spawning other hmem := by
    obtain ⟨i, hi⟩ := getElem?_of_mem hmem
    rcases getElem?_set_cases hi with ⟨-, rfl⟩ | ⟨hne, hi⟩
    · exact hown
    · exact (h.spawning other (mem_of_getElem? hi)).frame fun agentId hagent hnone =>
        hframe agentId (h.disjoint hi hcall hne hagent) hnone

/-- **A step of a call of `spawn` keeps the invariant.** -/
theorem Consistent.advanceSpawn (call : ℕ) (answer : Bool) :
    (executor.advanceSpawn call answer).Consistent := by
  unfold Executor.advanceSpawn
  cases hcall : executor.spawns[call]? with
  | none => exact h
  | some spawn =>
    have hown := h.spawning spawn (mem_of_getElem? hcall)
    -- A step that changes nothing but the stage of the call.
    have hgoto (stage : SpawnStage α) (hstage : executor.Spawning { spawn with stage }) :
        Consistent { executor with spawns := executor.spawns.set call { spawn with stage } } :=
      h.setSpawn hcall stage h.sound h.known h.guarded
        (fun _ _ hnone => ⟨hnone, .refl _⟩) hstage
    obtain ⟨batch, stage⟩ := spawn
    cases stage with
    | claiming claimedAgents rest =>
      obtain ⟨hplanned, hclaimed, done, heq, hdone⟩ := hown
      change batch = done ++ rest at heq
      cases rest with
      | nil =>
        refine hgoto _ ⟨hplanned, hclaimed, fun planned hp => hdone planned ?_⟩
        simpa [heq] using hp
      | cons planned rest =>
        have hmem : planned ∈ batch := by
          rw [heq]
          simp
        dsimp only
        split
        next hempty =>
          refine hgoto _ ⟨hplanned, hclaimed, done ++ [planned], by simp [heq],
            forall_mem_append.mpr ⟨hdone, forall_mem_singleton.mpr ?_⟩⟩
          rw [Holds, isEmpty_iff.mp hempty]
          exact forall_mem_nil _
        · split
          next leases hclaim =>
            obtain rfl : (executor.leases.claim _ _).2 = leases := congrArg Prod.snd hclaim
            have hsub (agentId : α) :=
              h.sound.subset_claim planned.agentId agentId planned.requestedFiles
            refine h.setSpawn hcall _ (h.sound.claim _ _) h.known
              (fun agentId child hc => (h.guarded agentId child hc).mono (hsub agentId))
              (fun agentId _ hnone => ⟨hnone, hsub agentId⟩)
              ⟨hplanned, forall_mem_append.mpr
                ⟨hclaimed, forall_mem_singleton.mpr (hplanned planned hmem)⟩,
              done ++ [planned], by simp [heq], forall_mem_append.mpr
                ⟨fun p hp path hpath => hsub p.agentId (hdone p hp path hpath),
                forall_mem_singleton.mpr fun path hpath => ?_⟩⟩
            exact (h.sound.mem_claim (congrArg Prod.fst hclaim) _ _).mpr
              (Or.inr ⟨rfl, mem_map_of_mem hpath⟩)
          · exact hgoto _ hclaimed
    | announcing claimedAgents =>
      obtain ⟨hplanned, hclaimed, hall⟩ := hown
      have hnodup : (batch.map PlannedChildSpawn.agentId).Nodup :=
        (nodup_flatMap.mp h.fresh).1 _ (mem_of_getElem? hcall)
      cases answer with
      | true => exact hgoto _ ⟨hnodup, fun planned hp => ⟨hplanned planned hp, hall planned hp⟩⟩
      | false => exact hgoto _ hclaimed
    | rollingBack rest =>
      cases rest with
      | nil => exact hgoto _ trivial
      | cons agentId rest =>
        obtain ⟨hagent, habsent⟩ := hown agentId mem_cons_self
        refine h.setSpawn hcall _ (h.sound.release agentId) h.known (fun other child hc => ?_)
          (fun other hother hnone => ⟨hnone, h.sound.subset_release ?_⟩)
          fun other hother => hown other (mem_cons_of_mem _ hother)
        · refine (h.guarded other child hc).mono (h.sound.subset_release ?_)
          rintro rfl
          exact absurd (habsent.symm.trans hc) (by simp)
        · rintro rfl
          exact hother hagent
    | inserting rest =>
      cases rest with
      | nil => exact hgoto _ trivial
      | cons planned rest =>
        obtain ⟨hnodup, hrest⟩ := hown
        obtain ⟨⟨hagent, -⟩, hholds⟩ := hrest planned mem_cons_self
        rw [map_cons, nodup_cons] at hnodup
        refine h.setSpawn hcall _ h.sound
          (forall_update ?_ fun other child _ => h.known other child)
          (forall_update (Child.guarded_spawned hholds _ _ _ _ _)
            fun other child _ => h.guarded other child)
          (fun other hother hnone => ⟨?_, .refl _⟩)
          ⟨hnodup.2, fun p hp => ⟨⟨(hrest p (mem_cons_of_mem _ hp)).1.1, ?_⟩,
            (hrest p (mem_cons_of_mem _ hp)).2⟩⟩
        · exact mem_flatMap.mpr ⟨_, mem_of_getElem? hcall, hagent⟩
        · refine (Function.update_of_ne ?_ _ _).trans hnone
          rintro rfl
          exact hother hagent
        · refine (Function.update_of_ne ?_ _ _).trans (hrest p (mem_cons_of_mem _ hp)).1.2
          rintro heq
          exact hnodup.1 (heq ▸ mem_map_of_mem hp)
    | returned => exact h

theorem Consistent.step_spawn {batch : List (PlannedChildSpawn α)}
    (hfresh : (executor.agentIds ++ batch.map PlannedChildSpawn.agentId).Nodup) :
    Consistent { executor with spawns := executor.spawns ++ [⟨batch, .claiming [] batch⟩] } := by
  have hids : (executor.spawns ++ [⟨batch, .claiming [] batch⟩] : List (Spawn α)).flatMap
      (fun spawn => spawn.planned.map PlannedChildSpawn.agentId) =
        executor.agentIds ++ batch.map PlannedChildSpawn.agentId := by
    simp [agentIds]
  exact {
    sound := h.sound
    fresh := (congrArg List.Nodup hids).mpr hfresh
    known agentId child hc :=
      (congrArg (agentId ∈ ·) hids).mpr (mem_append_left _ (h.known agentId child hc))
    guarded := h.guarded
    spawning spawn hmem := by
      rcases mem_append.mp hmem with hmem | hmem
      · exact (h.spawning spawn hmem).frame fun _ _ hnone => ⟨hnone, .refl _⟩
      · obtain rfl := mem_singleton.mp hmem
        refine ⟨fun planned hp => ⟨mem_map_of_mem hp, ?_⟩, nofun, [], rfl, nofun⟩
        -- An identifier that is there was planned by an earlier call.
        by_contra hsome
        obtain ⟨child, hc⟩ := Option.ne_none_iff_exists'.mp hsome
        exact (nodup_append.mp hfresh).2.2 _ (h.known _ child hc) _ (mem_map_of_mem hp) rfl }

/-- **Every step that meets the condition keeps the invariant.** -/
theorem Consistent.step (action : Action α) (hC : executor.orderly action = true) :
    (executor.step action).Consistent := by
  cases action with
  | child agentId action => exact h.child hC
  | spawn batch =>
    unfold Executor.step
    dsimp only
    split
    next hfresh => exact h.step_spawn hfresh
    · exact h
  | advanceSpawn call answer => exact h.advanceSpawn call answer

end

theorem consistent_empty : ({} : Executor α).Consistent where
  sound := LeaseIndex.sound_empty
  fresh := nodup_nil
  known _ _ h := nomatch h
  guarded _ _ h := nomatch h
  spawning := nofun

theorem Consistent.leasesHeld (h : executor.Consistent) : executor.LeasesHeld := by
  have hheld : ∀ agentId child, executor.children agentId = some child →
      child.record.status.isTerminal = false → ∀ path ∈ child.writeSet,
        normalizePath path ∈ executor.leases.claimedPaths agentId :=
    fun agentId child hc ht => (h.guarded agentId child hc).held ht
  refine ⟨hheld, ?_⟩
  intro agentId other child child' hne hc hc' ht ht' path hpath path' hpath'
  exact h.sound.not_prefix hne (hheld agentId child hc ht path hpath)
    (hheld other child' hc' ht' path' hpath')

end Executor

/-- **Unfinished children hold their leases**, in every interleaving whose cancellations find the
child at rest and whose resumes find it unoccupied: on their whole write sets, no two of which
overlap. -/
theorem unfinished_children_hold_leases {α : Type} [LinearOrder α]
    (actions : List (Executor.Action α))
    (h : Meets Executor.step (fun executor action => executor.orderly action = true) {} actions) :
    (run Executor.step ({} : Executor α) actions).LeasesHeld :=
  (h.run (I := Executor.Consistent) (fun _ action hs hC => hs.step action hC)
    Executor.consistent_empty).leasesHeld

/-- The file that the children below write. -/
def sharedFile : PathBuf :=
  [.rootDir, .normal ⟨"a", rfl⟩]

/-- `spawn` is called for one child that writes the file. -/
def spawnWriter (call agentId : ℕ) : List (Executor.Action ℕ) :=
  .spawn [{ agentId, taskId := "task", requestedFiles := [sharedFile],
            initialInput := .user "go" ⟨"m0"⟩ }] ::
    List.replicate 5 (.advanceSpawn call true)

/-- A child runs to its end, more happens to it, and another one asks for the file. -/
def finishedThen (more : List Child.Action) : List (Executor.Action ℕ) :=
  spawnWriter 0 0 ++ (Child.Action.launch 0 (.ok ()) [] :: .launch 0 (.ok ()) [] :: .poll 0 ::
      List.replicate 9 (.work 0 (.ok ⟨"", none⟩) []) ++ more).map (.child 0) ++
    spawnWriter 1 1

def resumedOnce : List (Executor.Action ℕ) :=
  finishedThen [.resume [sharedFile], .advanceResume 0 true, .advanceResume 0 true,
    .advanceResume 0 true]

theorem resumed_once_holds_lease :
    Meets Executor.step (fun executor action => executor.orderly action = true) {} resumedOnce ∧
    ((run Executor.step {} resumedOnce).children 0).map (fun child => child.record.status) =
      some .queued ∧
    (run Executor.step {} resumedOnce).LeasesHeld :=
  ⟨by decide +kernel, by decide +kernel,
    unfinished_children_hold_leases resumedOnce (by decide +kernel)⟩

/-- The second of two resumes finds the child open and releases. -/
def resumedTwice : List (Executor.Action ℕ) :=
  finishedThen [.resume [sharedFile], .resume [sharedFile], .advanceResume 0 true,
    .advanceResume 1 true, .advanceResume 0 true, .advanceResume 1 true, .advanceResume 0 true,
    .advanceResume 1 true, .advanceResume 1 true]

/-- **A second resume drops the leases of the first**, and another child gets the file. -/
theorem second_resume_drops_leases : ((run Executor.step {} resumedTwice).children 0).map
      (fun child => (child.record.status, child.writeSet)) = some (.queued, [sharedFile]) ∧
    ((run Executor.step {} resumedTwice).children 1).map
      (fun child => (child.record.status, child.writeSet)) = some (.queued, [sharedFile]) ∧
    (run Executor.step {} resumedTwice).leases.claimedPaths 0 = [] ∧
    (run Executor.step {} resumedTwice).leases.claimedPaths 1 = [sharedFile] ∧
    ¬ (run Executor.step {} resumedTwice).LeasesHeld := by
  refine have hfirst := ?_; ⟨hfirst, ?_, ?_, ?_, fun h => ?_⟩
  iterate 4 decide +kernel
  obtain ⟨child, hchild, heq⟩ := Option.map_eq_some_iff.mp hfirst
  obtain ⟨hstatus, hwrite⟩ := Prod.mk.inj heq
  have hheld := h.held 0 child hchild (by rw [hstatus]; rfl) sharedFile (by simp [hwrite])
  cases hheld

end Nanoclaw
