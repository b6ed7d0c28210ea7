import Nanoclaw.Subagent.Spawn

/-!
# Batches That Cannot Be Spawned

A batch that cannot be spawned gives back the leases it claimed and registers no child. It does
not give back the dedicated worktrees, which are made while the tasks are planned.
-/

namespace Nanoclaw

open List Proc

variable {α : Type} [LinearOrder α]

/-- **Nothing has changed** for the children, the leases and the worktrees. -/
structure SpawnUnchanged (s s' : SpawnState α) : Prop where
  records : s'.records = s.records
  worktrees : s'.worktrees = s.worktrees
  leases : ∀ agentId path,
    path ∈ s'.leases.claimedPaths agentId ↔ path ∈ s.leases.claimedPaths agentId

/-- The leases are ones that the manager can reach, and new agents own none of them. -/
structure SpawnReady (newAgentId : ℕ → α) (s : SpawnState α) : Prop where
  leases : s.leases.Sound
  unclaimed : ∀ index, s.leases.claimedPaths (newAgentId index) = []

/-- All tools the task asks for are withheld from children. -/
def SubagentLaunchSpec.asksForWithheldTools (launch : SubagentLaunchSpec) : Bool :=
  !launch.task.allowedTools.isEmpty && launch.task.allowedTools.all (· ∈ defaultExcludedChildTools)

/-! ### Leases -/

/-- The leases of the listed agents may be new; all others are as they were. -/
structure Claimed (s : SpawnState α) (agentIds : List α) (s' : SpawnState α) : Prop where
  records : s'.records = s.records
  worktrees : s'.worktrees = s.worktrees
  sound : s'.leases.Sound
  unclaimed : ∀ agentId ∈ agentIds, s.leases.claimedPaths agentId = []
  others : ∀ agentId ∉ agentIds, ∀ path,
    path ∈ s'.leases.claimedPaths agentId ↔ path ∈ s.leases.claimedPaths agentId

variable {s s' : SpawnState α}

theorem Claimed.unchanged (h : Claimed s [] s') : SpawnUnchanged s s' :=
  ⟨h.records, h.worktrees, fun agentId => h.others agentId not_mem_nil⟩

/-- Releasing the leases of the listed agents undoes the claims. -/
theorem releaseLeases_spec (s : SpawnState α) (agentIds : List α)
    {E : Tools.ToolError → SpawnState α → Prop} :
    Proc.Triple (Claimed s agentIds) (releaseLeases agentIds) (fun _ => SpawnUnchanged s) E := by
  refine (Proc.Triple.forM (J := fun rest => Claimed s rest) agentIds fun agentId rest => ?_).result
    fun _ _ h => h.unchanged
  refine Proc.Triple.modify fun s' h => ?_
  obtain ⟨hrecords, hworktrees, hsound, hunclaimed, hothers⟩ := h
  refine ⟨hrecords, hworktrees, hsound.release agentId,
    fun other hmem => hunclaimed other (mem_cons_of_mem _ hmem), fun other hmem path => ?_⟩
  rw [hsound.claimedPaths_release]
  split
  next heq => rw [heq, hunclaimed agentId (mem_cons_self ..)]
  next hne => exact hothers other (by simp [hne, hmem]) path

/-- **Claiming the write sets of a batch** gives leases to the batch only, or to nobody. -/
theorem claimLeases_spec [ToString α] (s : SpawnState α) (planned : List (PlannedChildSpawn α))
    (hnew : ∀ child ∈ planned, s.leases.claimedPaths child.agentId = []) (claimedAgents : List α) :
    Proc.Triple (Claimed s claimedAgents) (claimLeases claimedAgents planned)
      (fun agentIds => Claimed s agentIds) (fun _ => SpawnUnchanged s) := by
  induction planned generalizing claimedAgents with
  | nil => exact .pure fun _ h => h
  | cons child rest ih =>
    have hrest := fun agentIds => ih (fun child hmem => hnew child (mem_cons_of_mem _ hmem))
      agentIds
    rw [claimLeases]
    split
    · exact hrest claimedAgents
    · refine .get_bind fun t ht => ?_
      have hcases := ht.sound.claim_cases child.agentId child.requestedFiles
      obtain ⟨conflict, hclaim⟩ | ⟨-, hclaim⟩ := hcases
      · rw [hclaim]
        refine .bind (R := fun _ => SpawnUnchanged s) ?_ fun _ =>
          .throw fun _ h => h
        exact (releaseLeases_spec s claimedAgents).at_state ht
      · have hok : (t.leases.claim child.agentId child.requestedFiles).1 = .ok () := by rw [hclaim]
        have hsound := ht.sound.claim child.agentId child.requestedFiles
        have hmem := ht.sound.mem_claim hok
        rw [hclaim] at hsound hmem ⊢
        refine .bind (R := fun _ => Claimed s (claimedAgents ++ [child.agentId]))
          (.modify fun t' ht' => ?_) fun _ => hrest _
        obtain rfl := ht'
        refine ⟨ht.records, ht.worktrees, hsound, forall_mem_append.mpr ⟨ht.unclaimed,
          forall_mem_singleton.mpr (hnew child mem_cons_self)⟩, fun other hother path => ?_⟩
        rw [mem_append, mem_singleton, not_or] at hother
        rw [hmem other path, ht.others other hother.1 path]
        exact or_iff_left fun h => hother.2 h.1

/-! ### Planning -/

variable {P : SpawnState α → Prop}

theorem spawnLift_spec {β : Type} (result : Except Tools.ToolError β) :
    Triple P (spawnLift result) (fun value s => result = .ok value ∧ P s) fun _ => P := by
  cases result with
  | error error => exact .throw fun _ h => h
  | ok value => exact .pure fun _ h => ⟨rfl, h⟩

variable {launch : SubagentLaunchSpec}

/-- A task that asks for withheld tools only gets no tools at all. -/
theorem requestedNames_withheld (h : launch.asksForWithheldTools = true)
    (profileAllowedTools : Option (List String)) (registry : ToolRegistry) :
    requestedNames launch.task.allowedTools profileAllowedTools registry = [] := by
  obtain ⟨hne, hall⟩ := Bool.and_eq_true_iff.mp h
  have hnames : (if launch.task.allowedTools.isEmpty then registry.names
      else launch.task.allowedTools).filter
        (fun name => decide (name ∉ defaultExcludedChildTools)) = [] := by
    rw [if_neg (by simpa using hne), filter_eq_nil_iff]
    intro name hmem
    simpa using all_eq_true.mp hall name hmem
  unfold requestedNames
  rw [hnames]
  cases profileAllowedTools <;> rfl

theorem filterTools_nil {allowedMcpServers : Option (List String)} {registry : ToolRegistry}
    {names : List String}
    (h : filterToolsByMcpServerAllowlist [] allowedMcpServers registry = .ok names) :
    names = [] := by
  unfold filterToolsByMcpServerAllowlist at h
  split at h
  · exact (Except.ok.inj h).symm
  · dsimp only at h
    split at h <;> cases h
    rfl

/-- A task that asks for withheld tools only is refused before a worktree is made. -/
theorem checkTask_withheld (env : SpawnEnv) (h : launch.asksForWithheldTools = true)
    (files : List PathBuf) : checkTask env launch ≠ .ok files := by
  intro hfiles
  have hne : launch.task.allowedTools.isEmpty = false := by
    simpa using (Bool.and_eq_true_iff.mp h).1
  obtain ⟨profile, -, hfiles⟩ := except_bind_eq_ok.mp hfiles
  obtain ⟨tools, htools, -⟩ := except_bind_eq_ok.mp hfiles
  rw [resolveChildTools, requestedNames_withheld h] at htools
  cases hnames : filterToolsByMcpServerAllowlist [] profile.allowedMcpServers env.toolRegistry with
  | error error =>
    rw [hnames] at htools
    cases htools
  | ok names =>
    rw [hnames, filterTools_nil hnames] at htools
    simp [bind, Except.bind, ToolRegistry.filteredByNames, ToolRegistry.names, hne] at htools
    cases htools

section Plan

variable (env : SpawnEnv) (newAgentId : ℕ → α) (parent : SubagentParentContext α) (index : ℕ)

/-- Planning a task keeps what does not depend on worktrees it may make. -/
theorem planChild_spec (h : launch.asksForWithheldTools = false → launch.worktreeMode = .dedicated →
      ∀ s worktrees, P s → P { s with worktrees }) :
    Triple P (planChild env newAgentId parent index launch)
      (fun child s => (launch.asksForWithheldTools = false ∧
        child.1.agentId = newAgentId index) ∧ P s) fun _ => P := by
  refine (spawnLift_spec _).bind fun files => .of_fact fun hfiles => ?_
  have hwithheld : launch.asksForWithheldTools = false := by
    by_contra hwithheld
    exact checkTask_withheld env (by simpa using hwithheld) files hfiles
  have hworktree : Preserves P
      (maybeAllocateChildWorktree env parent index launch.worktreeMode) := by
    unfold maybeAllocateChildWorktree createChildWorktree
    split
    · exact .pure _
    next hmode =>
      have hP := h hwithheld (not_not.mp hmode)
      repeat' split
      all_goals first
        | exact .throw _
        | exact .bind (.throw _) fun _ => .pure _
        | exact .bind (.modify fun s => hP s _) fun _ => .pure _
        | exact .bind (.modify fun s => hP s _) fun _ => .throw _
  refine Triple.bind hworktree fun _ => (spawnLift_spec _).bind fun _ => ?_
  exact .pure fun _ hs => ⟨⟨hwithheld, rfl⟩, hs.2⟩

/-- The tasks planned before one is refused for its tools have new identifiers. -/
theorem planChildren_spec {tasks : List SubagentLaunchSpec}
    (h : ∀ launch ∈ tasks.takeWhile (!·.asksForWithheldTools), launch.worktreeMode = .dedicated →
      ∀ s worktrees, P s → P { s with worktrees }) :
    Triple P (planChildren env newAgentId parent index tasks)
      (fun planned s => (∀ child ∈ planned, ∃ index, child.1.agentId = newAgentId index) ∧ P s)
      fun _ => P := by
  induction tasks generalizing index with
  | nil => exact .pure fun _ hs => ⟨forall_mem_nil _, hs⟩
  | cons launch rest ih =>
    simp only [takeWhile_cons, Bool.not_eq_true'] at h
    refine (planChild_spec env newAgentId parent index fun hwithheld => ?_).bind fun child =>
      .of_fact fun ⟨hwithheld, hchild⟩ => ?_
    · exact h launch (by simp [hwithheld])
    rw [if_pos hwithheld] at h
    refine (ih (index + 1) (forall_mem_cons.mp h).2).bind fun children =>
      .of_fact fun hchildren => ?_
    exact .pure fun _ hs => ⟨forall_mem_cons.mpr ⟨⟨index, hchild⟩, hchildren⟩, hs⟩

end Plan

/-! ### Dependencies -/

section Dependencies

variable {existing batch : List (String × α)} {records : OrdMap α (RegisteredAgent α)}

/-- The agents that are found by their tasks have records. -/
theorem existingByTaskId_records {parentAgentId : Option α}
    (h : existingByTaskId parentAgentId records = .ok existing) :
    ∀ entry ∈ existing, (records.get entry.2).isSome = true := by
  refine except_foldlM_ok (J := fun existing => ∀ entry ∈ existing, (records.get entry.2).isSome)
    (fun existing entry hmem existing' hall hstep => ?_) nofun h
  dsimp only at hstep
  split at hstep <;> cases hstep
  refine forall_mem_append.mpr ⟨hall, forall_mem_singleton.mpr ?_⟩
  rw [OrdMap.mem_entries.mp (mem_filter.mp hmem).1]
  rfl

omit [LinearOrder α] in
theorem batchByTaskId_agents {planned : List (PlannedChildSpawn α)}
    (h : batchByTaskId existing planned = .ok batch) :
    ∀ entry ∈ batch, ∃ child ∈ planned, child.agentId = entry.2 := by
  refine except_foldlM_ok (J := fun batch => ∀ entry ∈ batch, ∃ child ∈ planned,
    child.agentId = entry.2) (fun batch child hmem batch' hall hstep => ?_) nofun h
  repeat' split at hstep
  all_goals cases hstep
  exact forall_mem_append.mpr ⟨hall, forall_mem_singleton.mpr ⟨child, hmem, rfl⟩⟩

omit [LinearOrder α] in
theorem mem_findTask {taskId : String} {agentId : α} {tasks : List (String × α)}
    (h : findTask taskId tasks = some agentId) : ∃ entry ∈ tasks, entry.2 = agentId := by
  obtain ⟨entry, hfind, rfl⟩ := Option.map_eq_some_iff.mp h
  exact ⟨entry, mem_of_find?_eq_some hfind, rfl⟩

variable {parent : SubagentParentContext α} {child : PlannedChildSpawn α}
  {planned : List (PlannedChildSpawn α × List String)} {children : List (PlannedChildSpawn α)}

/-- The children are the planned ones, and their dependencies are known. -/
theorem mem_resolveDependencyPlan (h : resolveDependencyPlan parent records planned = .ok children)
    (hmem : child ∈ children) : (∃ entry ∈ planned, child.agentId = entry.1.agentId) ∧
      ∀ dependency ∈ child.dependencyAgentIds, (records.get dependency).isSome = true ∨
        ∃ other ∈ children, other.agentId = dependency := by
  obtain ⟨existing, hexisting, h⟩ := except_bind_eq_ok.mp h
  obtain ⟨batch, hbatch, h⟩ := except_bind_eq_ok.mp h
  obtain ⟨children', hchildren, h⟩ := except_bind_eq_ok.mp h
  dsimp only at h
  split at h <;> cases h
  obtain ⟨entry, hentry, hresolve⟩ := (mem_except_mapM hchildren).mp hmem
  obtain ⟨dependencyAgentIds, hids, hchild⟩ := except_bind_eq_ok.mp hresolve
  cases hchild
  refine ⟨⟨entry, hentry, rfl⟩, fun dependency hdependency => ?_⟩
  obtain ⟨dependencyId, -, hfound⟩ := (mem_except_mapM hids).mp hdependency
  split at hfound
  next agentId hfind =>
    cases hfound
    obtain ⟨found, hfound, rfl⟩ := mem_findTask hfind
    obtain ⟨other, hother, hid⟩ := batchByTaskId_agents hbatch found hfound
    obtain ⟨origin, horigin, rfl⟩ := mem_map.mp hother
    obtain ⟨other, hother, hresolved⟩ := exists_of_except_mapM hchildren horigin
    obtain ⟨_, -, hsame⟩ := except_bind_eq_ok.mp hresolved
    cases hsame
    exact .inr ⟨_, hother, hid⟩
  · split at hfound <;> cases hfound
    next hfind =>
      obtain ⟨found, hfound, rfl⟩ := mem_findTask hfind
      exact .inl (existingByTaskId_records hexisting found hfound)

end Dependencies

/-! ### The batch -/

variable {tasks : List SubagentLaunchSpec} (newAgentId : ℕ → α) (parent : SubagentParentContext α)

/-- The children of a batch are registered, and those with dependencies handed over. -/
def Spawned (s : SpawnState α) (outcome : SpawnOutcome α) (s' : SpawnState α) : Prop :=
  ∃ planned children, resolveDependencyPlan parent s.records planned = .ok children ∧
    s'.records = children.foldl (fun records child =>
      records.insert child.agentId (registered parent child)) s.records ∧
    outcome.blocked = (children.filter (!·.dependencyAgentIds.isEmpty)).foldl
      (fun blocked child => blocked.insert child.agentId child.dependencyAgentIds) .empty

/-- What follows the planning of a batch undoes its own effects when it fails. -/
theorem spawn_spec [ToString α] (env : SpawnEnv) (hready : SpawnReady newAgentId s) {p : Prop}
    (hp : ∀ launch ∈ tasks.takeWhile (!·.asksForWithheldTools),
      launch.worktreeMode = .dedicated → ¬ p) :
    Triple (fun t => t = s) (spawn env newAgentId parent tasks) (Spawned parent s)
      fun _ t => p → SpawnUnchanged s t := by
  -- Planning changes the worktrees only, and only if a task has one of its own.
  let P (t : SpawnState α) : Prop :=
    t.records = s.records ∧ t.leases = s.leases ∧ (p → t.worktrees = s.worktrees)
  have hsame : ∀ {t t'}, P t → SpawnUnchanged t t' → p → SpawnUnchanged s t' := by
    rintro t t' ⟨hrecords, hleases, hworktrees⟩ h hp
    exact ⟨h.records.trans hrecords, h.worktrees.trans (hworktrees hp), hleases ▸ h.leases⟩
  have hplan : ∀ {t}, P t → p → SpawnUnchanged s t := fun ht =>
    hsame ht ⟨rfl, rfl, fun _ _ => .rfl⟩
  refine .bind ((planChildren_spec (P := P) env newAgentId parent 0 fun launch hmem hmode _ _ ht =>
      ⟨ht.1, ht.2.1, fun h => absurd h (hp launch hmem hmode)⟩).conseq
    (fun _ ht => ht ▸ ⟨rfl, rfl, fun _ => rfl⟩) (fun _ _ h => h) fun _ _ => hplan) fun planned =>
    .of_fact fun hids => .get_bind fun t ht => ?_
  refine .bind ((spawnLift_spec _).exits fun _ _ ht' => ht' ▸ hplan ht) fun children =>
    .of_fact fun hresolve => ?_
  obtain ⟨hrecords, hleases, -⟩ := id ht
  have hnew : ∀ child ∈ children, t.leases.claimedPaths child.agentId = [] := by
    intro child hmem
    obtain ⟨entry, hentry, hchild⟩ := (mem_resolveDependencyPlan hresolve hmem).1
    obtain ⟨index, hindex⟩ := hids entry hentry
    rw [hchild, hindex, hleases]
    exact hready.unclaimed index
  have hstart : Claimed t [] t := ⟨rfl, rfl, hleases ▸ hready.leases, nofun, fun _ _ _ => .rfl⟩
  refine .bind (((claimLeases_spec t children hnew []).at_state hstart).exits
    fun _ _ => hsame ht) fun claimedAgents => ?_
  split
  · exact .bind (releaseLeases_spec t claimedAgents) fun _ => .throw fun _ => hsame ht
  · refine .bind (R := fun _ t' => t'.records = children.foldl (fun records child =>
      records.insert child.agentId (registered parent child)) s.records)
      (.modify fun t' ht' => ?_) fun _ => .pure fun t' ht' => ?_
    · dsimp only
      rw [ht'.records, hrecords]
    · exact ⟨planned, children, hrecords ▸ hresolve, ht', rfl⟩

/-- The scheduler that gets the blocked children of a batch. -/
def SpawnOutcome.scheduler (s : SpawnState α) (outcome : SpawnOutcome α) : Scheduler α where
  plans := outcome.blocked
  blocked := outcome.blocked
  agents agentId := (s.records.get agentId).map RegisteredAgent.agent

/-- **A spawned batch meets what the scheduler starts from**, if agents that had completed have
no worker any more. -/
theorem Spawned.started {outcome : SpawnOutcome α} (h : Spawned parent s outcome s')
    (hdone : ∀ agentId agent, s.records.get agentId = some agent →
      agent.agent.record.status = .completed → agent.agent.stage = .done) :
    (outcome.scheduler s').Started := by
  obtain ⟨planned, children, hresolve, hrecords, houtcome⟩ := h
  have hget := OrdMap.get_foldl_insert PlannedChildSpawn.agentId (registered parent) children
    s.records
  rw [← hrecords] at hget
  have hblocked : ∀ agentId dependencies, outcome.blocked.get agentId = some dependencies →
      ∃ child ∈ children, child.agentId = agentId ∧ child.dependencyAgentIds = dependencies := by
    intro agentId dependencies hsome
    rw [houtcome] at hsome
    rcases OrdMap.get_foldl_insert PlannedChildSpawn.agentId PlannedChildSpawn.dependencyAgentIds
      (children.filter (!·.dependencyAgentIds.isEmpty)) .empty agentId with
      ⟨child, hmem, hid, hchild⟩ | ⟨-, hnone⟩
    · exact ⟨child, (mem_filter.mp hmem).1, hid, Option.some.inj (hchild.symm.trans hsome)⟩
    · cases hnone.symm.trans hsome
  refine ⟨rfl, rfl, rfl, fun agentId dependencies hsome dependency hdep => ?_,
    fun agentId dependencies hsome => ?_, fun agentId agent hsome hstatus => ?_⟩
  · obtain ⟨child, hmem, -, rfl⟩ := hblocked agentId dependencies hsome
    rw [SpawnOutcome.scheduler, Option.isSome_map]
    rcases hget dependency with ⟨other, -, -, hother⟩ | ⟨hne, hother⟩ <;> rw [hother]
    · rfl
    · refine ((mem_resolveDependencyPlan hresolve hmem).2 dependency hdep).resolve_right ?_
      rintro ⟨other, hother, hid⟩
      exact hne other hother hid
  · obtain ⟨child, hmem, hid, -⟩ := hblocked agentId dependencies hsome
    rcases hget agentId with ⟨other, -, -, hother⟩ | ⟨hne, -⟩
    · exact ⟨_, congrArg (Option.map RegisteredAgent.agent) hother, rfl⟩
    · exact absurd hid (hne child hmem)
  · obtain ⟨entry, hentry, rfl⟩ := Option.map_eq_some_iff.mp hsome
    rcases hget agentId with ⟨other, -, -, hother⟩ | ⟨-, hother⟩
    · cases hother.symm.trans hentry
      cases hstatus
    · exact hdone agentId entry (hother.symm.trans hentry) hstatus

/-! ### A worktree that stays -/

theorem mem_inOrder {x : String} {xs : List String} : x ∈ inOrder xs ↔ x ∈ xs := by
  suffices h : ∀ m : OrdMap String Unit,
      x ∈ (xs.foldl (fun m x => m.insert x ()) m).keys ↔ x ∈ m.keys ∨ x ∈ xs by
    have hempty := h .empty
    rwa [show (OrdMap.empty : OrdMap String Unit).keys = [] from rfl,
      or_iff_right not_mem_nil] at hempty
  induction xs with
  | nil => exact fun m => (or_iff_left not_mem_nil).symm
  | cons y xs ih =>
    intro m
    rw [foldl_cons, ih, OrdMap.mem_keys, OrdMap.mem_keys, OrdMap.get_insert]
    by_cases hxy : x = y <;> simp [hxy]

/-- All tools are known; worktrees can be made, but their events not appended. -/
def brokenLog (tasks : List SubagentLaunchSpec) : SpawnEnv where
  toolRegistry :=
    { tools := (inOrder (tasks.flatMap (·.task.allowedTools))).map fun name => { name } }
  resolveProfile _ := .ok { profileName := "default" }
  resolveToolPath _ := .ok []
  worktreeManager := some fun _ =>
    { created := .ok (), worktreeId := ⟨"worktree"⟩, published := .error "log unavailable" }
  loadRuntimeSession _ := .ok ()
  appendParentEvents _ := .ok ()

/-- A parent with a session. -/
def attachedParent : SubagentParentContext α where
  sessionId := some ⟨"session"⟩
  agentSessionId := some ⟨"agent-session"⟩

/-- A known name among those allowed keeps its tool. -/
theorem names_filteredByNames_ne_nil {registry : ToolRegistry} {allowedNames : List String}
    (name : String) (hallowed : name ∈ allowedNames) (hknown : name ∈ registry.names) :
    (registry.filteredByNames allowedNames).names.isEmpty = false := by
  have hcanonical : registry.canonicalNameFor name = some name := if_pos hknown
  obtain ⟨tool, htool, rfl⟩ := mem_map.mp hknown
  have hmem : tool.name ∈ (registry.filteredByNames allowedNames).names := by
    refine mem_map_of_mem (mem_filter.mpr ⟨htool, ?_⟩)
    exact decide_eq_true (mem_filterMap.mpr ⟨tool.name, hallowed, hcanonical⟩)
  rw [isEmpty_eq_false_iff]
  exact ne_nil_of_mem hmem

section

variable (hmem : launch ∈ tasks) (h : launch.asksForWithheldTools = false)

include hmem h

/-- A task that asks for a tool that is not withheld is not refused. -/
theorem checkTask_brokenLog : ∃ files, checkTask (brokenLog tasks) launch = .ok files := by
  have hnames : (brokenLog tasks).toolRegistry.names =
      inOrder (tasks.flatMap (·.task.allowedTools)) := by
    simp [brokenLog, ToolRegistry.names, Function.comp_def]
  have htools : ∃ tools, resolveChildTools launch.task.allowedTools none none
      (brokenLog tasks).toolRegistry = .ok tools := by
    refine ⟨(brokenLog tasks).toolRegistry.filteredByNames
      (requestedNames launch.task.allowedTools none (brokenLog tasks).toolRegistry), ?_⟩
    unfold resolveChildTools filterToolsByMcpServerAllowlist
    simp only [bind, Except.bind]
    rw [if_neg]
    · rfl
    cases hempty : launch.task.allowedTools.isEmpty with
    | true => exact Bool.false_ne_true
    | false =>
      obtain ⟨name, hname, hkept⟩ : ∃ name ∈ launch.task.allowedTools,
          name ∉ defaultExcludedChildTools := by
        simpa [SubagentLaunchSpec.asksForWithheldTools, hempty] using h
      rw [names_filteredByNames_ne_nil name]
      · exact Bool.false_ne_true
      · simp [requestedNames, hempty, hname, hkept]
      · rw [hnames, mem_inOrder]
        exact mem_flatMap.mpr ⟨launch, hmem, hname⟩
  obtain ⟨tools, htools⟩ := htools
  obtain ⟨files, hfiles⟩ := except_mapM_ok (f := (brokenLog tasks).resolveToolPath)
    launch.task.requestedWriteSet fun _ _ => ⟨[], rfl⟩
  refine ⟨files, ?_⟩
  change ((resolveChildTools _ none none _).mapError _ >>= _) = _
  rw [htools]
  rw [hfiles]
  rfl

theorem planChild_brokenLog
    (hmode : launch.worktreeMode ≠ .dedicated) (newAgentId : ℕ → α) (index : ℕ) (s : SpawnState α) :
    ∃ child, exec (planChild (brokenLog tasks) newAgentId attachedParent index launch) s =
      (.ok child, s) := by
  obtain ⟨files, hfiles⟩ := checkTask_brokenLog hmem h
  have hsession : ∃ seed, buildChildSession (brokenLog tasks) (attachedParent (α := α)) index
      launch.forkContext = .ok seed := by
    cases launch.forkContext
    · exact ⟨false, rfl⟩
    · exact ⟨true, rfl⟩
  obtain ⟨seed, hseed⟩ := hsession
  unfold planChild
  rw [exec_bind, hfiles, maybeAllocateChildWorktree, if_pos hmode, hseed]
  exact ⟨_, rfl⟩

/-- Planning a task with a worktree fails when the worktree is there. -/
theorem planChild_dedicated
    (hmode : launch.worktreeMode = .dedicated) (newAgentId : ℕ → α) (index : ℕ) (s : SpawnState α) :
    exec (planChild (brokenLog tasks) newAgentId attachedParent index launch) s =
      (.error (.invalidState "log unavailable"),
        { s with worktrees := s.worktrees ++ [⟨"worktree"⟩] }) := by
  obtain ⟨files, hfiles⟩ := checkTask_brokenLog hmem h
  unfold planChild
  rw [exec_bind, hfiles, maybeAllocateChildWorktree, if_neg (not_not.mpr hmode)]
  rfl

end

/-- The first worktree of a batch is left behind. -/
theorem planChildren_leaves_worktree (all : List SubagentLaunchSpec) (newAgentId : ℕ → α)
    (index : ℕ) (hsub : ∀ launch ∈ tasks, launch ∈ all)
    (h : ∃ launch ∈ tasks.takeWhile (!·.asksForWithheldTools), launch.worktreeMode = .dedicated)
    (s : SpawnState α) :
    exec (planChildren (brokenLog all) newAgentId attachedParent index tasks) s =
      (.error (.invalidState "log unavailable"),
        { s with worktrees := s.worktrees ++ [⟨"worktree"⟩] }) := by
  induction tasks generalizing index with
  | nil =>
    obtain ⟨_, hmem, -⟩ := h
    cases hmem
  | cons launch rest ih =>
    obtain ⟨hlaunch, hrest⟩ := forall_mem_cons.mp hsub
    cases hwithheld : launch.asksForWithheldTools with
    | true =>
      rw [takeWhile_cons_of_neg (by rw [hwithheld]; exact Bool.false_ne_true)] at h
      obtain ⟨_, hmem, -⟩ := h
      cases hmem
    | false =>
      rw [takeWhile_cons_of_pos (by rw [hwithheld]; rfl)] at h
      rw [planChildren, exec_bind]
      by_cases hmode : launch.worktreeMode = .dedicated
      · rw [planChild_dedicated hlaunch hwithheld hmode]
      · obtain ⟨child, hchild⟩ :=
          planChild_brokenLog hlaunch hwithheld hmode newAgentId index s
        obtain ⟨other, hother, hdedicated⟩ := h
        have hrestMode : other ∈ rest.takeWhile (!·.asksForWithheldTools) := by
          refine (mem_cons.mp hother).resolve_left ?_
          rintro rfl
          exact hmode hdedicated
        rw [hchild]
        dsimp only
        rw [exec_bind, ih (index + 1) hrest ⟨other, hrestMode, hdedicated⟩]

/-- **A failed spawn has no effect** on children, leases and worktrees, for exactly the batches with
no dedicated worktree before the first task that asks for withheld tools only. -/
theorem failed_spawn_without_effect_iff [ToString α] [Inhabited α]
    (tasks : List SubagentLaunchSpec) :
    (∀ (env : SpawnEnv) (newAgentId : ℕ → α) (parent : SubagentParentContext α)
      (s s' : SpawnState α) (error : Tools.ToolError), SpawnReady newAgentId s →
      Proc.exec (spawn env newAgentId parent tasks) s = (.error error, s') → SpawnUnchanged s s') ↔
      ∀ launch ∈ tasks.takeWhile (!·.asksForWithheldTools), launch.worktreeMode ≠ .dedicated := by
  constructor
  · intro h launch hmem hmode
    have hplan := planChildren_leaves_worktree tasks (fun _ => (default : α)) 0
      (fun _ h => h) ⟨launch, hmem, hmode⟩ {}
    have hexec : exec (spawn (brokenLog tasks) (fun _ => (default : α)) attachedParent tasks)
        {} = (.error (.invalidState "log unavailable"), { worktrees := [⟨"worktree"⟩] }) := by
      rw [spawn, exec_bind, hplan]
      rfl
    have hunchanged := h (brokenLog tasks) (fun _ => default) attachedParent {} _ _
      ⟨LeaseIndex.sound_empty, fun _ => rfl⟩ hexec
    exact absurd hunchanged.worktrees (cons_ne_nil _ _)
  · intro h env newAgentId parent s s' error hready hexec
    exact (spawn_spec newAgentId parent env hready fun launch hmem hmode h =>
      h launch hmem hmode).of_error rfl hexec h

/-- One task with a worktree of its own and a dependency that does not exist. -/
def taskWithMissingDependency : SubagentLaunchSpec where
  task := { taskId := "review", dependencyIds := ["build"] }
  initialInput := Message.user "Review the change." ⟨"m1"⟩
  worktreeMode := .dedicated

/-- Worktrees are made and reported. -/
def workingLog : SpawnEnv :=
  { brokenLog [] with
    worktreeManager := some fun _ =>
      { created := .ok (), worktreeId := ⟨"worktree"⟩, published := .ok () } }

/-- The worktree of a task with an unknown dependency is left behind. -/
theorem failed_spawn_leaves_worktree : SpawnReady (fun index : ℕ => index) {} ∧
      Proc.exec (spawn workingLog (fun index : ℕ => index) attachedParent
          [taskWithMissingDependency]) {} =
        (.error (.invalidInput "agent task review references unknown dependency `build`"),
          { worktrees := [⟨"worktree"⟩] }) :=
  ⟨⟨LeaseIndex.sound_empty, fun _ => rfl⟩, rfl⟩

end Nanoclaw
