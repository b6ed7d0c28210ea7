import Nanoclaw.Sandbox.Restriction

/-!
# The Sandbox of a Hook

A command hook runs under the policy of the session, tightened by the hook's own grants. The
result is not the intersection where a list of roots is empty on one side only: the roots of the
other side are taken over as they are.
-/

namespace Nanoclaw

open List PlainPath

/-! ### The policy derived from grants -/

namespace PlainPath

/-- `Path::join` with a name. -/
def join (path : PlainPath) (name : FileName) : PlainPath :=
  ⟨{ path.1 with steps := path.1.steps ++ [.name name] }, by
    rw [FileTree.undotted_append, path.2]
    rfl⟩

theorem join_ofLocation (location : List FileName) (name : FileName) :
    (ofLocation location).join name = ofLocation (location ++ [name]) :=
  Subtype.ext (by simp [join, ofLocation])

end PlainPath

def defaultProtectedDirs : List FileName :=
  [⟨".git", rfl⟩, ⟨".nanoclaw", rfl⟩, ⟨".codex", rfl⟩]

structure SandboxScope where
  workspaceRoot : PlainPath
  worktreeRoot : Option PlainPath := none
  additionalRoots : List PlainPath := []
  readOnlyRoots : List PlainPath := []
  writableRoots : List PlainPath := []
  execRoots : List PlainPath := []
  networkPolicy : Option NetworkPolicy := none
  workspaceOnly : Bool := false

namespace SandboxScope

variable (scope : SandboxScope)

/-- Nothing was granted. -/
def grantsNothing : Bool :=
  scope.readOnlyRoots.isEmpty && scope.writableRoots.isEmpty && scope.execRoots.isEmpty

def recommendedReadableRoots : List PlainPath :=
  if scope.grantsNothing then
    dedupPaths (scope.workspaceRoot :: (scope.worktreeRoot.toList ++ scope.additionalRoots))
  else dedupPaths (scope.readOnlyRoots ++ scope.writableRoots ++ scope.execRoots)

def recommendedWritableRoots : List PlainPath :=
  if scope.grantsNothing then scope.recommendedReadableRoots else dedupPaths scope.writableRoots

/-- `recommended_for_scope`. -/
def recommendedPolicy : SandboxPolicy :=
  if !scope.workspaceOnly then .permissive
  else
    { mode := .workspaceWrite
      filesystem :=
        { readableRoots := scope.recommendedReadableRoots
          writableRoots := scope.recommendedWritableRoots
          executableRoots := dedupPaths scope.execRoots
          protectedPaths := dedupPaths (scope.recommendedReadableRoots.flatMap fun root =>
            defaultProtectedDirs.map root.join) }
      network := scope.networkPolicy.getD .off
      hostEscape := .deny
      failIfUnavailable := false }

end SandboxScope

structure HookExecutionPolicy where
  pluginRoot : Option PlainPath := none
  readRoots : List PlainPath := []
  writeRoots : List PlainPath := []
  execRoots : List PlainPath := []
  network : HookNetworkPolicy := .deny

/-- `tool_context_for_execution`: without a plugin the workspace is the working directory. -/
def toolContextForExecution (fs : FileSystem) (execution : HookExecutionPolicy) : SandboxScope :=
  let workspaceRoot := execution.pluginRoot.getD (.ofLocation fs.cwd)
  { workspaceRoot
    worktreeRoot := some workspaceRoot
    readOnlyRoots := execution.readRoots
    writableRoots := execution.writeRoots
    execRoots := execution.execRoots
    networkPolicy := some (hookNetworkToSandbox execution.network)
    workspaceOnly := true }

/-- **The policy of a hook.** -/
def tightenHookSandboxPolicy (base : SandboxPolicy) (toolContext : SandboxScope) : SandboxPolicy :=
  let derived := toolContext.recommendedPolicy
  { mode := stricterMode base.mode derived.mode
    filesystem :=
      { readableRoots :=
          intersectPathRoots base.filesystem.readableRoots derived.filesystem.readableRoots
        writableRoots :=
          intersectPathRoots base.filesystem.writableRoots derived.filesystem.writableRoots
        executableRoots :=
          intersectPathRoots base.filesystem.executableRoots derived.filesystem.executableRoots
        protectedPaths :=
          unionPaths base.filesystem.protectedPaths derived.filesystem.protectedPaths }
    network := intersectNetworkPolicy base.network derived.network
    hostEscape := stricterHostEscape base.hostEscape derived.hostEscape
    failIfUnavailable := base.failIfUnavailable || derived.failIfUnavailable }

/-! ### The derived policy has canonical roots -/

/-- The roots of the grant are canonical. -/
structure HookExecutionPolicy.CanonicalGrants (fs : FileSystem)
    (execution : HookExecutionPolicy) : Prop where
  plugin : Canonical fs execution.pluginRoot.toList
  read : Canonical fs execution.readRoots
  write : Canonical fs execution.writeRoots
  exec : Canonical fs execution.execRoots

/-- The policy that is derived from the grants of a hook. -/
def hookPolicy (fs : FileSystem) (execution : HookExecutionPolicy) : SandboxPolicy :=
  (toolContextForExecution fs execution).recommendedPolicy

section

variable {fs : FileSystem} {execution : HookExecutionPolicy}

theorem canonical_cwd (fs : FileSystem) :
    canonicalizePolicyPath fs (ofLocation fs.cwd).1 = .ok (.ofLocation fs.cwd) :=
  canonicalizePolicyPath_of_resolve
    (FileSystem.resolve_ofLocation (FileTree.present_of_dir fs.cwd_dir) false)

/-- The canonical path of a location always exists: some ancestor of it does. -/
theorem canonicalizePolicyPath_ofLocation (fs : FileSystem) (location : List FileName) :
    ∃ found, canonicalizePolicyPath fs (ofLocation location).1 = .ok found := by
  cases hresolve : fs.resolve false (fs.absolute (ofLocation location).1) with
  | ok place => exact ⟨_, canonicalizePolicyPath_of_resolve hresolve⟩
  | error error =>
    rw [canonicalizePolicyPath_of_error hresolve]
    -- the loop goes up to the root at the latest
    have hloop : ∀ (names suffix : List FileName), names ≠ [] →
        ∃ found, existingAncestor fs (fs.absolute (ofLocation location).1)
          (names.map .name) suffix = .ok found := by
      intro names
      induction names with
      | nil => exact fun _ h => absurd rfl h
      | cons name names ih =>
        intro suffix _
        rw [map_cons, existingAncestor]
        split
        · exact ⟨_, rfl⟩
        next herror =>
          cases names with
          | nil => cases herror
          | cons next names => exact ih _ (cons_ne_nil _ _)
    have hne : location ≠ [] := by
      rintro rfl
      cases hresolve
    have hsteps : (FileTree.undotted (fs.absolute (ofLocation location).1).steps).reverse
        = location.reverse.map FileTree.Step.name := by
      rw [map_reverse]
      exact congrArg reverse (FileTree.undotted_names location)
    rw [hsteps]
    exact hloop _ _ (by simpa using hne)

theorem HookExecutionPolicy.CanonicalGrants.readable (h : execution.CanonicalGrants fs) :
    Canonical fs (hookPolicy fs execution).filesystem.readableRoots := by
  intro root hroot
  change root ∈ SandboxScope.recommendedReadableRoots _ at hroot
  rw [SandboxScope.recommendedReadableRoots] at hroot
  split at hroot
  · obtain rfl : root = execution.pluginRoot.getD (.ofLocation fs.cwd) := by
      simpa [toolContextForExecution] using hroot
    cases hplugin : execution.pluginRoot with
    | none => exact canonical_cwd fs
    | some plugin => exact h.plugin plugin (by simp [hplugin])
  · rw [mem_dedupPaths, mem_append, mem_append] at hroot
    rcases hroot with (hread | hwrite) | hexec
    · exact h.read root hread
    · exact h.write root hwrite
    · exact h.exec root hexec

theorem HookExecutionPolicy.CanonicalGrants.roots (h : execution.CanonicalGrants fs) :
    CanonicalRoots fs (hookPolicy fs execution).filesystem where
  readable := h.readable
  writable := by
    intro root hroot
    change root ∈ SandboxScope.recommendedWritableRoots _ at hroot
    rw [SandboxScope.recommendedWritableRoots] at hroot
    split at hroot
    · exact h.readable root hroot
    · exact h.write root (mem_dedupPaths.mp hroot)
  executable := fun root hroot => h.exec root (mem_dedupPaths.mp hroot)
  resolves := by
    have hlocation : ∀ path ∈ (hookPolicy fs execution).filesystem.protectedPaths,
        ∃ found, canonicalizePolicyPath fs path.1 = .ok found := by
      intro path hpath
      obtain ⟨root, hroot, hpath⟩ := mem_flatMap.mp (mem_dedupPaths.mp hpath)
      obtain ⟨name, -, rfl⟩ := mem_map.mp hpath
      obtain ⟨place, rfl⟩ := h.readable.exists_place hroot
      rw [join_ofLocation]
      exact canonicalizePolicyPath_ofLocation fs _
    obtain ⟨found, hfound⟩ := Proc.except_mapM_ok _ hlocation
    exact ⟨dedupPaths found, by rw [canonicalizePaths, hfound]; rfl⟩

theorem hookPolicy_readable_ne_nil (fs : FileSystem) (execution : HookExecutionPolicy) :
    (hookPolicy fs execution).filesystem.readableRoots ≠ [] := by
  change SandboxScope.recommendedReadableRoots _ ≠ []
  rw [SandboxScope.recommendedReadableRoots]
  split
  · simp
  next hgrants =>
    simp only [SandboxScope.grantsNothing, Bool.and_eq_true, List.isEmpty_iff] at hgrants
    rw [Ne, dedupPaths_eq_nil, append_eq_nil_iff, append_eq_nil_iff]
    exact hgrants

variable {location : List FileName}

/-- What the hook may write or execute lies under its readable roots. -/
theorem allows_read_hookPolicy : Allows fs (hookPolicy fs execution) .read location ↔
      Covers fs (hookPolicy fs execution).filesystem.readableRoots location := by
  rw [allows_read_iff, or_iff_right fun h => SandboxMode.noConfusion h.1]
  refine ⟨?_, fun h => .inl (.inr h)⟩
  have hsubset : ∀ root, root ∈ (hookPolicy fs execution).filesystem.writableRoots ∨
      root ∈ (hookPolicy fs execution).filesystem.executableRoots →
      root ∈ (hookPolicy fs execution).filesystem.readableRoots := by
    simp only [hookPolicy, SandboxScope.recommendedPolicy, toolContextForExecution,
      SandboxScope.recommendedWritableRoots, SandboxScope.recommendedReadableRoots,
      SandboxScope.grantsNothing]
    grind [mem_dedupPaths]
  rintro ((⟨root, hroot, hplace⟩ | hread) | ⟨root, hroot, hplace⟩)
  · exact ⟨root, hsubset root (.inl hroot), hplace⟩
  · exact hread
  · exact ⟨root, hsubset root (.inr hroot), hplace⟩

/-! ### The tightened policy -/

/-- The policy of the session and the policy of the hook, tightened. -/
abbrev tightened (fs : FileSystem) (base : SandboxPolicy) (execution : HookExecutionPolicy) :
    SandboxPolicy :=
  tightenHookSandboxPolicy base (toolContextForExecution fs execution)

variable {base : SandboxPolicy}

theorem tightened_roots (hbase : CanonicalRoots fs base.filesystem)
    (hgrants : execution.CanonicalGrants fs) :
    CanonicalRoots fs (tightened fs base execution).filesystem where
  readable := hbase.readable.intersectPathRoots hgrants.roots.readable
  writable := hbase.writable.intersectPathRoots hgrants.roots.writable
  executable := hbase.executable.intersectPathRoots hgrants.roots.executable
  resolves := by
    obtain ⟨left, hleft⟩ := hbase.resolves
    obtain ⟨right, hright⟩ := hgrants.roots.resolves
    exact canonicalizePaths_append hleft hright

theorem not_unrestricted_tightened (access : FilesystemAccess) :
    ¬ Unrestricted (tightened fs base execution) access :=
  fun h => stricterMode_ne_danger
    (show SandboxMode.workspaceWrite ≠ .dangerFullAccess by decide) h.1

/-- **The intersection**: what the tightened policy allows, the session and the hook's grants
allow. -/
def HookConfined (fs : FileSystem) (base : SandboxPolicy) (execution : HookExecutionPolicy) :
    Prop :=
  (∀ (access : FilesystemAccess) (location : List FileName),
    canonicalizePolicyPath fs (PlainPath.ofLocation location).1 = .ok (.ofLocation location) →
    assertFilesystemAccess fs (tightened fs base execution) (PlainPath.ofLocation location).1
      access = .ok () →
    assertFilesystemAccess fs base (PlainPath.ofLocation location).1 access = .ok () ∧
    assertFilesystemAccess fs (hookPolicy fs execution) (PlainPath.ofLocation location).1
      access = .ok ()) ∧
  ∀ (Destination : Type) (matchesDomain matchesCidr : String → Destination → Prop)
    (destination : Destination),
    (tightened fs base execution).network.Reaches matchesDomain matchesCidr destination →
    base.network.Reaches matchesDomain matchesCidr destination ∧
    (hookPolicy fs execution).network.Reaches matchesDomain matchesCidr destination

/-- **Roots are taken over only where allowed** by the side without roots, or protected. -/
structure TakesOverAllowed (fs : FileSystem) (base hook : SandboxPolicy) : Prop where
  execute : base.filesystem.executableRoots = [] ↔ hook.filesystem.executableRoots = []
  writeGranted : base.filesystem.writableRoots = [] →
    base.mode = .dangerFullAccess ∨ ∀ place, .ofLocation place ∈ hook.filesystem.writableRoots →
      Covers fs (base.filesystem.protectedPaths ++ hook.filesystem.protectedPaths) place
  writeInherited : hook.filesystem.writableRoots = [] →
    ∀ place, .ofLocation place ∈ base.filesystem.writableRoots →
      Covers fs (base.filesystem.protectedPaths ++ hook.filesystem.protectedPaths) place
  readGranted : base.filesystem.readableRoots = [] →
    ∀ place, .ofLocation place ∈ hook.filesystem.readableRoots → Allows fs base .read place
  readWritten : base.filesystem.writableRoots = [] →
    ∀ place, .ofLocation place ∈ hook.filesystem.writableRoots → Allows fs base .read place
  readInherited : hook.filesystem.writableRoots = [] →
    ∀ place, .ofLocation place ∈ base.filesystem.writableRoots →
      Covers fs hook.filesystem.readableRoots place

variable {policy : SandboxPolicy}

theorem Allows.read_mono {place : List FileName}
    (h : Allows fs policy .read place) (hunder : place <+: location) :
    Allows fs policy .read location :=
  ⟨fun hwrite => FilesystemAccess.noConfusion hwrite.1,
    h.2.imp_right fun hcovers => hcovers.mono hunder⟩

theorem allows_execute_of_covers (h : Covers fs policy.filesystem.executableRoots location) :
    Allows fs policy .execute location :=
  ⟨fun hwrite => FilesystemAccess.noConfusion hwrite.1, .inr h⟩

theorem covers_tightened_protected :
    Covers fs (tightened fs base execution).filesystem.protectedPaths location ↔
      Covers fs base.filesystem.protectedPaths location ∨
        Covers fs (hookPolicy fs execution).filesystem.protectedPaths location :=
  covers_unionPaths

section

variable (hbase : CanonicalRoots fs base.filesystem) (hgrants : execution.CanonicalGrants fs)
  (h : TakesOverAllowed fs base (hookPolicy fs execution))

include hbase hgrants h

theorem tightened_write (hallows : Allows fs (tightened fs base execution) .write location) :
    Allows fs base .write location ∧ Allows fs (hookPolicy fs execution) .write location := by
  obtain ⟨hopen, hroots⟩ := allows_write_iff.mp hallows
  rw [covers_tightened_protected, not_or] at hopen
  have hguard {place : List FileName} (hunder : place <+: location) : ¬ Covers fs
      (base.filesystem.protectedPaths ++ (hookPolicy fs execution).filesystem.protectedPaths)
      place := fun hcovers => (covers_append.mp (hcovers.mono hunder)).elim hopen.1 hopen.2
  rw [allows_write_iff, allows_write_iff]
  rcases covers_intersectPathRoots hbase.writable hgrants.roots.writable
      (hroots.resolve_left (not_unrestricted_tightened _)) with
    ⟨hnil, hhook⟩ | ⟨hnil, hcovered⟩ | ⟨hleft, hright⟩
  · obtain ⟨place, hplace, hunder⟩ := hgrants.roots.writable.covers_iff.mp hhook
    rcases h.writeGranted hnil with hdanger | hguarded
    · exact ⟨⟨hopen.1, .inl ⟨hdanger, nofun, hnil⟩⟩, hopen.2, .inr hhook⟩
    · exact absurd (hguarded place hplace) (hguard hunder)
  · obtain ⟨place, hplace, hunder⟩ := hbase.writable.covers_iff.mp hcovered
    exact absurd (h.writeInherited hnil place hplace) (hguard hunder)
  · exact ⟨⟨hopen.1, .inr hleft⟩, hopen.2, .inr hright⟩

theorem tightened_execute
    (hcovers : Covers fs (tightened fs base execution).filesystem.executableRoots location) :
    Covers fs base.filesystem.executableRoots location ∧
      Covers fs (hookPolicy fs execution).filesystem.executableRoots location := by
  rcases covers_intersectPathRoots hbase.executable hgrants.roots.executable hcovers with
    ⟨hnil, hhook⟩ | ⟨hnil, hcovered⟩ | hboth
  · rw [h.execute.mp hnil] at hhook
    exact absurd hhook not_covers_nil
  · rw [h.execute.mpr hnil] at hcovered
    exact absurd hcovered not_covers_nil
  · exact hboth

theorem tightened_read (hallows : Allows fs (tightened fs base execution) .read location) :
    Allows fs base .read location ∧ Allows fs (hookPolicy fs execution) .read location := by
  rcases (allows_read_iff.mp hallows).resolve_left (not_unrestricted_tightened _) with
    (hwrite | hread) | hexec
  · rcases covers_intersectPathRoots hbase.writable hgrants.roots.writable hwrite with
      ⟨hnil, hhook⟩ | ⟨hnil, hcovered⟩ | ⟨hleft, hright⟩
    · obtain ⟨place, hplace, hunder⟩ := hgrants.roots.writable.covers_iff.mp hhook
      exact ⟨(h.readWritten hnil place hplace).read_mono hunder, .of_writable hhook⟩
    · obtain ⟨place, hplace, hunder⟩ := hbase.writable.covers_iff.mp hcovered
      exact ⟨.of_writable hcovered, .of_readable ((h.readInherited hnil place hplace).mono hunder)⟩
    · exact ⟨.of_writable hleft, .of_writable hright⟩
  · rcases covers_intersectPathRoots hbase.readable hgrants.roots.readable hread with
      ⟨hnil, hhook⟩ | ⟨hnil, -⟩ | ⟨hleft, hright⟩
    · obtain ⟨place, hplace, hunder⟩ := hgrants.roots.readable.covers_iff.mp hhook
      exact ⟨(h.readGranted hnil place hplace).read_mono hunder, .of_readable hhook⟩
    · exact absurd hnil (hookPolicy_readable_ne_nil fs execution)
    · exact ⟨.of_readable hleft, .of_readable hright⟩
  · obtain ⟨hleft, hright⟩ := tightened_execute hbase hgrants h hexec
    exact ⟨.of_executable hleft, .of_executable hright⟩

end

theorem not_allows_execute_of_nil
    (hnil : policy.filesystem.executableRoots = []) : ¬ Allows fs policy .execute location := by
  rintro ⟨-, ⟨-, hne, -⟩ | hcovers⟩
  · exact hne rfl
  · rw [rootsFor, hnil] at hcovers
    exact not_covers_nil hcovers

theorem allows_write_of_nil
    (hnil : policy.filesystem.writableRoots = []) (h : Allows fs policy .write location) :
    policy.mode = .dangerFullAccess := by
  rcases h.2 with ⟨hdanger, -⟩ | hcovers
  · exact hdanger
  · rw [rootsFor, hnil] at hcovers
    exact absurd hcovers not_covers_nil

end

/-- **The sandbox of a hook is an intersection** exactly if roots are taken over where allowed. -/
theorem hook_sandbox_is_intersection_iff (fs : FileSystem) (base : SandboxPolicy)
    (execution : HookExecutionPolicy) (hbase : CanonicalRoots fs base.filesystem)
    (hgrants : execution.CanonicalGrants fs) :
    HookConfined fs base execution ↔ TakesOverAllowed fs base (hookPolicy fs execution) := by
  have htight := tightened_roots hbase hgrants
  constructor
  · rintro ⟨hconfined, -⟩
    have hallows : ∀ (access : FilesystemAccess) (place : List FileName),
        canonicalizePolicyPath fs (ofLocation place).1 = .ok (.ofLocation place) →
        Allows fs (tightened fs base execution) access place →
        Allows fs base access place ∧ Allows fs (hookPolicy fs execution) access place := by
      intro access place hplace h
      obtain ⟨hb, hd⟩ := hconfined access place hplace ((htight.access_iff hplace).mpr h)
      exact ⟨(hbase.access_iff hplace).mp hb, (hgrants.roots.access_iff hplace).mp hd⟩
    have hwrites : ∀ place,
        canonicalizePolicyPath fs (ofLocation place).1 = .ok (.ofLocation place) →
        Covers fs (tightened fs base execution).filesystem.writableRoots place →
        ¬ Covers fs (base.filesystem.protectedPaths ++
          (hookPolicy fs execution).filesystem.protectedPaths) place →
        Allows fs base .write place ∧ Allows fs (hookPolicy fs execution) .write place := by
      intro place hplace hcovers hopen
      rw [covers_append, ← covers_tightened_protected] at hopen
      exact hallows .write place hplace (allows_write_iff.mpr ⟨hopen, .inr hcovers⟩)
    refine ⟨⟨fun hnil => ?_, fun hnil => ?_⟩, fun hnil => ?_, fun hnil place hplace => ?_,
      fun hnil place hplace => ?_, fun hnil place hplace => ?_, fun hnil place hplace => ?_⟩
    · by_contra hne
      obtain ⟨root, hroot⟩ := exists_mem_of_ne_nil _ hne
      obtain ⟨place, rfl⟩ := hgrants.roots.executable.exists_place hroot
      exact not_allows_execute_of_nil hnil (hallows .execute place
        (hgrants.roots.executable _ hroot)
        (allows_execute_of_covers (hgrants.roots.executable.taken_over hnil hroot))).1
    · by_contra hne
      obtain ⟨root, hroot⟩ := exists_mem_of_ne_nil _ hne
      obtain ⟨place, rfl⟩ := hbase.executable.exists_place hroot
      exact not_allows_execute_of_nil hnil (hallows .execute place (hbase.executable _ hroot)
        (allows_execute_of_covers (hbase.executable.left_over hnil hroot))).2
    · by_cases hdanger : base.mode = .dangerFullAccess
      · exact .inl hdanger
      refine .inr fun place hplace => ?_
      by_contra hopen
      exact hdanger (allows_write_of_nil hnil (hwrites place (hgrants.roots.writable _ hplace)
        (hgrants.roots.writable.taken_over hnil hplace) hopen).1)
    · by_contra hopen
      have hwrite := (hwrites place (hbase.writable _ hplace)
        (hbase.writable.left_over hnil hplace) hopen).2
      exact absurd (allows_write_of_nil hnil hwrite)
        (show SandboxMode.workspaceWrite ≠ .dangerFullAccess by decide)
    · exact (hallows .read place (hgrants.roots.readable _ hplace)
        (.of_readable (hgrants.roots.readable.taken_over hnil hplace))).1
    · exact (hallows .read place (hgrants.roots.writable _ hplace)
        (.of_writable (hgrants.roots.writable.taken_over hnil hplace))).1
    · exact allows_read_hookPolicy.mp (hallows .read place (hbase.writable _ hplace)
        (.of_writable (hbase.writable.left_over hnil hplace))).2
  · intro h
    refine ⟨fun access location hlocation htightened => ?_, fun _ _ _ _ hreaches =>
      reaches_intersectNetworkPolicy hreaches⟩
    rw [htight.access_iff hlocation] at htightened
    rw [hbase.access_iff hlocation, hgrants.roots.access_iff hlocation]
    cases access with
    | read => exact tightened_read hbase hgrants h htightened
    | write => exact tightened_write hbase hgrants h htightened
    | execute =>
      obtain ⟨hleft, hright⟩ := tightened_execute hbase hgrants h
        (htightened.2.resolve_left (not_unrestricted_tightened _))
      exact ⟨allows_execute_of_covers hleft, allows_execute_of_covers hright⟩

/-- A session that may use `/ws` in these ways. -/
def wsSession (mode : SandboxMode) (writable executable : Bool) : SandboxPolicy where
  mode := mode
  filesystem :=
    { readableRoots := [.ofLocation [⟨"ws", .refl true⟩]]
      writableRoots := if writable then [.ofLocation [⟨"ws", .refl true⟩]] else []
      executableRoots := if executable then [.ofLocation [⟨"ws", .refl true⟩]] else [] }
  network := .off
  hostEscape := .deny
  failIfUnavailable := false

theorem canonicalRoots_wsSession :
    CanonicalRoots twoDirectories (wsSession .workspaceWrite true true).filesystem :=
  ⟨by decide +kernel, by decide +kernel, by decide +kernel, [], rfl⟩

/-- A hook that was granted all of `/ws`. -/
def wsHook : HookExecutionPolicy where
  writeRoots := [.ofLocation [⟨"ws", .refl true⟩]]
  execRoots := [.ofLocation [⟨"ws", .refl true⟩]]

/-- With roots of every kind on both sides, the sandbox is an intersection. -/
theorem hook_with_all_grants_is_confined :
    HookConfined twoDirectories (wsSession .workspaceWrite true true) wsHook := by
  have hgrants : wsHook.CanonicalGrants twoDirectories :=
    ⟨by decide +kernel, by decide +kernel, by decide +kernel, by decide +kernel⟩
  refine (hook_sandbox_is_intersection_iff _ _ _ canonicalRoots_wsSession hgrants).mpr ?_
  have hwritable : (hookPolicy twoDirectories wsHook).filesystem.writableRoots ≠ [] := by
    decide +kernel
  have hexecutable : (hookPolicy twoDirectories wsHook).filesystem.executableRoots ≠ [] := by
    decide +kernel
  exact ⟨⟨nofun, fun h => absurd h hexecutable⟩, nofun, fun h => absurd h hwritable, nofun, nofun,
    fun h => absurd h hwritable⟩

/-- **Two sandboxes that are no intersections**: a hook writes in a read-only session, and one
without a write grant writes where the session does. -/
theorem hook_writes_in_read_only_session :
    (assertFilesystemAccess twoDirectories (wsSession .readOnly false false)
        (PlainPath.ofLocation [⟨"ws", rfl⟩]).1 .write ≠ .ok () ∧
      assertFilesystemAccess twoDirectories
        (tightened twoDirectories (wsSession .readOnly false false) wsHook)
        (PlainPath.ofLocation [⟨"ws", rfl⟩]).1 .write = .ok ()) ∧
    (assertFilesystemAccess twoDirectories
        (hookPolicy twoDirectories { readRoots := [.ofLocation [⟨"home", rfl⟩]] })
        (PlainPath.ofLocation [⟨"ws", rfl⟩]).1 .write ≠ .ok () ∧
      assertFilesystemAccess twoDirectories
        (tightened twoDirectories (wsSession .workspaceWrite true true)
          { readRoots := [.ofLocation [⟨"home", rfl⟩]] })
        (PlainPath.ofLocation [⟨"ws", rfl⟩]).1 .write = .ok ()) := by
  decide +kernel

end Nanoclaw
