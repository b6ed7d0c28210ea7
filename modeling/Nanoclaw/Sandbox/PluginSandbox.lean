import Nanoclaw.Sandbox.HookSandbox

/-!
# The Sandbox of a Plugin's Tools

A tool of a plugin runs under the policy of the session, restricted to the roots that were
granted to the plugin; the root of the plugin may always be read and executed. As for hooks, a
session without roots of a kind restricts nothing.
-/

namespace Nanoclaw

/-- The plugin of a tool, with its granted permissions. -/
structure ToolPlugin where
  pluginRoot : PlainPath
  readRoots : List PlainPath := []
  writeRoots : List PlainPath := []
  execRoots : List PlainPath := []
  network : HookNetworkPolicy := .deny

/-- **The policy of a tool.** -/
def sandboxPolicyForTool (plugin : Option ToolPlugin) (base : SandboxPolicy) : SandboxPolicy :=
  match plugin with
  | none => base
  | some plugin =>
    let workspaceReadRoots :=
      unionPaths plugin.readRoots (unionPaths plugin.writeRoots plugin.execRoots)
    let writableRoots := restrictPathRoots base.filesystem.writableRoots plugin.writeRoots
    { mode := stricterMode base.mode
        (if writableRoots.isEmpty then .readOnly else .workspaceWrite)
      filesystem :=
        { readableRoots := unionPaths [plugin.pluginRoot]
            (restrictPathRoots base.filesystem.readableRoots workspaceReadRoots)
          writableRoots
          executableRoots := unionPaths [plugin.pluginRoot]
            (restrictPathRoots base.filesystem.executableRoots plugin.execRoots)
          protectedPaths := base.filesystem.protectedPaths }
      network := intersectNetworkPolicy base.network (hookNetworkToSandbox plugin.network)
      hostEscape := stricterHostEscape base.hostEscape .deny
      failIfUnavailable := base.failIfUnavailable }

namespace ToolPlugin

/-- The granted roots; what may be written or executed may be read. -/
def grantedRoots (plugin : ToolPlugin) : FilesystemAccess → List PlainPath
  | .read => plugin.readRoots ++ plugin.writeRoots ++ plugin.execRoots
  | .write => plugin.writeRoots
  | .execute => plugin.execRoots

/-- The roots of the grant are canonical. -/
structure CanonicalGrants (fs : FileSystem) (plugin : ToolPlugin) : Prop where
  root : Canonical fs [plugin.pluginRoot]
  read : Canonical fs plugin.readRoots
  write : Canonical fs plugin.writeRoots
  exec : Canonical fs plugin.execRoots

end ToolPlugin

section

variable {fs : FileSystem} {base : SandboxPolicy} {plugin : ToolPlugin}

theorem ToolPlugin.CanonicalGrants.workspaceRead (h : plugin.CanonicalGrants fs) :
    Canonical fs (unionPaths plugin.readRoots (unionPaths plugin.writeRoots plugin.execRoots)) :=
  h.read.unionPaths (h.write.unionPaths h.exec)

variable {location : List FileName}

theorem covers_granted_read :
    Covers fs (plugin.grantedRoots .read) location ↔ (Covers fs plugin.readRoots location ∨
      Covers fs plugin.writeRoots location) ∨ Covers fs plugin.execRoots location := by
  rw [ToolPlugin.grantedRoots, covers_append, covers_append]

theorem covers_workspaceRead :
    Covers fs (unionPaths plugin.readRoots (unionPaths plugin.writeRoots plugin.execRoots))
      location ↔ Covers fs (plugin.grantedRoots .read) location := by
  rw [covers_unionPaths, covers_unionPaths, covers_granted_read, or_assoc]

theorem toolPolicy_roots (hbase : CanonicalRoots fs base.filesystem)
    (hgrants : plugin.CanonicalGrants fs) :
    CanonicalRoots fs (sandboxPolicyForTool (some plugin) base).filesystem where
  readable := hgrants.root.unionPaths (hbase.readable.restrictPathRoots hgrants.workspaceRead)
  writable := hbase.writable.restrictPathRoots hgrants.write
  executable := hgrants.root.unionPaths (hbase.executable.restrictPathRoots hgrants.exec)
  resolves := hbase.resolves

theorem not_unrestricted_toolPolicy (access : FilesystemAccess) :
    ¬ Unrestricted (sandboxPolicyForTool (some plugin) base) access := by
  refine fun h => stricterMode_ne_danger ?_ h.1
  split <;> decide

/-- **The tools stay inside** the plugin, or what the session allows and was granted. -/
def PluginConfined (fs : FileSystem) (base : SandboxPolicy) (plugin : ToolPlugin) : Prop :=
  (∀ (access : FilesystemAccess) (location : List FileName),
    canonicalizePolicyPath fs (PlainPath.ofLocation location).1 = .ok (.ofLocation location) →
    assertFilesystemAccess fs (sandboxPolicyForTool (some plugin) base)
      (PlainPath.ofLocation location).1 access = .ok () →
    (access ≠ .write ∧ Covers fs [plugin.pluginRoot] location) ∨
    (assertFilesystemAccess fs base (PlainPath.ofLocation location).1 access = .ok () ∧
      Covers fs (plugin.grantedRoots access) location)) ∧
  ∀ (Destination : Type) (matchesDomain matchesCidr : String → Destination → Prop)
    (destination : Destination),
    (sandboxPolicyForTool (some plugin) base).network.Reaches matchesDomain matchesCidr
      destination →
    base.network.Reaches matchesDomain matchesCidr destination ∧
    (hookNetworkToSandbox plugin.network).Reaches matchesDomain matchesCidr destination

/-- **The condition on the session and the grant**: where the session has no roots of a kind, the
granted ones are allowed anyway, or lie in the plugin, or are protected. -/
structure GrantsAllowed (fs : FileSystem) (base : SandboxPolicy) (plugin : ToolPlugin) : Prop where
  write : base.filesystem.writableRoots = [] → base.mode = .dangerFullAccess ∨
    ∀ place, .ofLocation place ∈ plugin.writeRoots → Covers fs base.filesystem.protectedPaths place
  execute : base.filesystem.executableRoots = [] →
    ∀ place, .ofLocation place ∈ plugin.execRoots → Covers fs [plugin.pluginRoot] place
  readGranted : base.filesystem.readableRoots = [] →
    ∀ place, .ofLocation place ∈ plugin.grantedRoots .read →
      Covers fs [plugin.pluginRoot] place ∨ Allows fs base .read place
  readWritten : base.filesystem.writableRoots = [] →
    ∀ place, .ofLocation place ∈ plugin.writeRoots →
      Covers fs [plugin.pluginRoot] place ∨ Allows fs base .read place

/-! ### From the condition -/

section

variable (hbase : CanonicalRoots fs base.filesystem) (hgrants : plugin.CanonicalGrants fs)
  (h : GrantsAllowed fs base plugin)

include hbase hgrants h

theorem toolPolicy_write
    (hallows : Allows fs (sandboxPolicyForTool (some plugin) base) .write location) :
    Allows fs base .write location ∧ Covers fs plugin.writeRoots location := by
  obtain ⟨hopen, hroots⟩ := allows_write_iff.mp hallows
  have hcovers := hroots.resolve_left (not_unrestricted_toolPolicy _)
  obtain ⟨hgranted, hbaseRoots⟩ := covers_restrictPathRoots hbase.writable hgrants.write hcovers
  refine ⟨allows_write_iff.mpr ⟨hopen, ?_⟩, hgranted⟩
  rcases hbaseRoots with hnil | hcovered
  · rcases h.write hnil with hdanger | hguarded
    · exact .inl ⟨hdanger, nofun, hnil⟩
    · obtain ⟨place, hplace, hunder⟩ := hgrants.write.covers_iff.mp hgranted
      exact absurd ((hguarded place hplace).mono hunder) hopen
  · exact .inr hcovered

/-- What the executable roots cover lies in the plugin, or both lists cover it. -/
theorem toolPolicy_execute
    (hcovers : Covers fs (sandboxPolicyForTool (some plugin) base).filesystem.executableRoots
      location) :
    Covers fs [plugin.pluginRoot] location ∨ (Covers fs base.filesystem.executableRoots location ∧
        Covers fs plugin.execRoots location) := by
  rcases covers_unionPaths.mp hcovers with hplugin | hrestricted
  · exact .inl hplugin
  · obtain ⟨hgranted, hnil | hcovered⟩ :=
      covers_restrictPathRoots hbase.executable hgrants.exec hrestricted
    · obtain ⟨place, hplace, hunder⟩ := hgrants.exec.covers_iff.mp hgranted
      exact .inl ((h.execute hnil place hplace).mono hunder)
    · exact .inr ⟨hcovered, hgranted⟩

end

/-- A read that is in the plugin, or allowed by the session and granted. -/
def ReadInside (fs : FileSystem) (base : SandboxPolicy) (plugin : ToolPlugin)
    (location : List FileName) : Prop :=
  Covers fs [plugin.pluginRoot] location ∨
    (Allows fs base .read location ∧ Covers fs (plugin.grantedRoots .read) location)

theorem readInside_of_place {place : List FileName} (hunder : place <+: location)
    (hallowed : Covers fs [plugin.pluginRoot] place ∨ Allows fs base .read place)
    (hgranted : Covers fs (plugin.grantedRoots .read) location) :
    ReadInside fs base plugin location := by
  rcases hallowed with hplugin | hallows
  · exact .inl (hplugin.mono hunder)
  · exact .inr ⟨hallows.read_mono hunder, hgranted⟩

theorem toolPolicy_read (hbase : CanonicalRoots fs base.filesystem)
    (hgrants : plugin.CanonicalGrants fs) (h : GrantsAllowed fs base plugin)
    (hallows : Allows fs (sandboxPolicyForTool (some plugin) base) .read location) :
    ReadInside fs base plugin location := by
  rcases (allows_read_iff.mp hallows).resolve_left (not_unrestricted_toolPolicy _) with
    (hwrite | hread) | hexec
  · obtain ⟨hgranted, hnil | hcovered⟩ :=
      covers_restrictPathRoots hbase.writable hgrants.write hwrite
    · obtain ⟨place, hplace, hunder⟩ := hgrants.write.covers_iff.mp hgranted
      exact readInside_of_place hunder (h.readWritten hnil place hplace)
        (covers_granted_read.mpr (.inl (.inr hgranted)))
    · exact .inr ⟨.of_writable hcovered, covers_granted_read.mpr (.inl (.inr hgranted))⟩
  · rcases covers_unionPaths.mp hread with hplugin | hrestricted
    · exact .inl hplugin
    · obtain ⟨hgranted, hnil | hcovered⟩ :=
        covers_restrictPathRoots hbase.readable hgrants.workspaceRead hrestricted
      · obtain ⟨place, hplace, hunder⟩ := hgrants.workspaceRead.covers_iff.mp hgranted
        have hplace : .ofLocation place ∈ plugin.grantedRoots .read := by
          simpa [ToolPlugin.grantedRoots, or_assoc] using hplace
        exact readInside_of_place hunder (h.readGranted hnil place hplace)
          (covers_workspaceRead.mp hgranted)
      · exact .inr ⟨.of_readable hcovered, covers_workspaceRead.mp hgranted⟩
  · rcases toolPolicy_execute hbase hgrants h hexec with hplugin | ⟨hcovered, hgranted⟩
    · exact .inl hplugin
    · exact .inr ⟨.of_executable hcovered, covers_granted_read.mpr (.inr hgranted)⟩

end

/-- **The tools of a plugin stay inside** exactly if grants are allowed where roots are missing. -/
theorem plugin_stays_inside_iff (fs : FileSystem) (base : SandboxPolicy) (plugin : ToolPlugin)
    (hbase : CanonicalRoots fs base.filesystem) (hgrants : plugin.CanonicalGrants fs) :
    PluginConfined fs base plugin ↔ GrantsAllowed fs base plugin := by
  have htool := toolPolicy_roots hbase hgrants
  constructor
  · rintro ⟨hconfined, -⟩
    have hallows : ∀ (access : FilesystemAccess) (place : List FileName),
        canonicalizePolicyPath fs (PlainPath.ofLocation place).1 = .ok (.ofLocation place) →
        Allows fs (sandboxPolicyForTool (some plugin) base) access place →
        (access ≠ .write ∧ Covers fs [plugin.pluginRoot] place) ∨ Allows fs base access place := by
      intro access place hplace h
      refine (hconfined access place hplace ((htool.access_iff hplace).mpr h)).imp_right ?_
      exact fun hinside => (hbase.access_iff hplace).mp hinside.1
    refine ⟨fun hnil => ?_, fun hnil place hplace => ?_, fun hnil place hplace => ?_,
      fun hnil place hplace => ?_⟩
    · by_cases hdanger : base.mode = .dangerFullAccess
      · exact .inl hdanger
      refine .inr fun place hplace => ?_
      by_contra hopen
      rcases hallows .write place (hgrants.write _ hplace) (allows_write_iff.mpr
          ⟨hopen, .inr (hgrants.write.unrestricted hnil hplace)⟩) with ⟨hne, -⟩ | hbaseWrite
      · exact hne rfl
      · exact hdanger (allows_write_of_nil hnil hbaseWrite)
    · have hcovers : Covers fs
          (sandboxPolicyForTool (some plugin) base).filesystem.executableRoots place :=
        covers_unionPaths.mpr (.inr (hgrants.exec.unrestricted hnil hplace))
      rcases hallows .execute place (hgrants.exec _ hplace) (allows_execute_of_covers hcovers) with
        ⟨-, hplugin⟩ | hbaseExec
      · exact hplugin
      · exact absurd hbaseExec (not_allows_execute_of_nil hnil)
    · have hmem : .ofLocation place ∈
          unionPaths plugin.readRoots (unionPaths plugin.writeRoots plugin.execRoots) := by
        simpa [ToolPlugin.grantedRoots, or_assoc] using hplace
      refine (hallows .read place (hgrants.workspaceRead _ hmem) (.of_readable ?_)).imp_left
        And.right
      exact covers_unionPaths.mpr (.inr (hgrants.workspaceRead.unrestricted hnil hmem))
    · exact (hallows .read place (hgrants.write _ hplace)
        (.of_writable (hgrants.write.unrestricted hnil hplace))).imp_left And.right
  · intro h
    refine ⟨fun access location hlocation hallowed => ?_, fun _ _ _ _ hreaches =>
      reaches_intersectNetworkPolicy hreaches⟩
    rw [htool.access_iff hlocation] at hallowed
    rw [hbase.access_iff hlocation]
    cases access with
    | write => exact .inr (toolPolicy_write hbase hgrants h hallowed)
    | read =>
      exact (toolPolicy_read hbase hgrants h hallowed).imp_left fun hplugin => ⟨nofun, hplugin⟩
    | execute =>
      have hcovers := hallowed.2.resolve_left (not_unrestricted_toolPolicy _)
      rcases toolPolicy_execute hbase hgrants h hcovers with hplugin | ⟨hcovered, hgranted⟩
      · exact .inl ⟨nofun, hplugin⟩
      · exact .inr ⟨allows_execute_of_covers hcovered, hgranted⟩

/-- A plugin in `/home` that was granted to write to `/ws`. -/
def wsPlugin : ToolPlugin where
  pluginRoot := .ofLocation [⟨"home", .refl true⟩]
  writeRoots := [.ofLocation [⟨"ws", .refl true⟩]]

/-- In a session with writable roots, the plugin stays inside. -/
theorem plugin_stays_inside_writable_session :
    PluginConfined twoDirectories (wsSession .workspaceWrite true true) wsPlugin := by
  have hgrants : wsPlugin.CanonicalGrants twoDirectories :=
    ⟨by decide +kernel, by decide +kernel, by decide +kernel, by decide +kernel⟩
  exact (plugin_stays_inside_iff _ _ _ canonicalRoots_wsSession hgrants).mpr
    ⟨nofun, nofun, nofun, nofun⟩

/-- **A plugin's tool writes in a session that may not write.** -/
theorem plugin_writes_in_read_only_session :
    assertFilesystemAccess twoDirectories (wsSession .readOnly false false)
        (PlainPath.ofLocation [⟨"ws", rfl⟩]).1 .write ≠ .ok () ∧
      (sandboxPolicyForTool (some wsPlugin) (wsSession .readOnly false false)).mode = .readOnly ∧
      assertFilesystemAccess twoDirectories
        (sandboxPolicyForTool (some wsPlugin) (wsSession .readOnly false false))
        (PlainPath.ofLocation [⟨"ws", rfl⟩]).1 .write = .ok () := by
  decide +kernel

end Nanoclaw
