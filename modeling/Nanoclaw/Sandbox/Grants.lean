import Nanoclaw.Sandbox.Canonical

/-!
# Granted Permissions

What a grant adds to a policy. An empty list of roots means two things: nothing, or, with full
access, everything. So `widen_read_roots` leaves an empty list of readable roots alone under full
access. But if there are writable or executable roots, only those can be read, and a grant to
read has no effect.
-/

namespace Nanoclaw

open List

variable {fs : FileSystem}

/-! ### Widening -/

variable {location : List FileName} {roots found left right : List PlainPath}
  {permissions : GrantedFilesystemPermissions} {canonical : FilesystemPolicy}
  {policy : SandboxPolicy}

theorem Covers.mono {place : List FileName} (h : Covers fs roots place)
    (hunder : place <+: location) : Covers fs roots location := by
  obtain ⟨root, hroot, place', hplace, hbelow⟩ := h
  exact ⟨root, hroot, place', hplace, hbelow.trans hunder⟩

theorem not_covers_nil : ¬ Covers fs [] location := by
  rintro ⟨root, hroot, -⟩
  cases hroot

/-- The roots `widened` are the roots `current` and those of the grant. -/
structure Adds (fs : FileSystem) (current granted widened : List PlainPath) : Prop where
  covers : ∀ location, Covers fs widened location ↔
    Covers fs current location ∨ Covers fs granted location
  nil : widened = [] ↔ current = [] ∧ granted = []

theorem Adds.refl (roots : List PlainPath) : Adds fs roots [] roots :=
  ⟨fun _ => ⟨.inl, fun h => h.resolve_right not_covers_nil⟩, by simp⟩

/-- **What widening does to each list of roots.** -/
structure Widens (fs : FileSystem) (base : SandboxPolicy)
    (granted : GrantedFilesystemPermissions) (widened : SandboxPolicy) : Prop where
  mode : widened.mode = .dangerFullAccess ↔ base.mode = .dangerFullAccess
  readable : if base.mode = .dangerFullAccess ∧ base.filesystem.readableRoots = [] then
      widened.filesystem.readableRoots = []
    else Adds fs base.filesystem.readableRoots (granted.readRoots ++ granted.writeRoots)
      widened.filesystem.readableRoots
  writable : if base.mode = .dangerFullAccess ∧ base.filesystem.writableRoots = [] then
      widened.filesystem.writableRoots = []
    else Adds fs base.filesystem.writableRoots granted.writeRoots widened.filesystem.writableRoots
  executable : Adds fs base.filesystem.executableRoots [] widened.filesystem.executableRoots
  protectedPaths : Adds fs base.filesystem.protectedPaths [] widened.filesystem.protectedPaths

variable {paths : List PlainPath}

theorem adds_canonical (h : canonicalizePaths fs paths = .ok found) : Adds fs paths [] found :=
  ⟨fun location => by simp [covers_canonicalizePaths h, not_covers_nil],
    by simp [canonicalizePaths_eq_nil h]⟩

theorem covers_unionPaths : Covers fs (unionPaths left right) location ↔
      Covers fs left location ∨ Covers fs right location := by
  simp only [Covers, mem_unionPaths, or_and_right, exists_or]

theorem adds_unionPaths {granted added : List PlainPath}
    (h : canonicalizePaths fs paths = .ok found)
    (hadded : ∀ location, Covers fs added location ↔ Covers fs granted location)
    (hnil : added = [] ↔ granted = []) : Adds fs paths granted (unionPaths found added) where
  covers location := by
    rw [covers_unionPaths, covers_canonicalizePaths h, hadded]
  nil := by rw [unionPaths_eq_nil, canonicalizePaths_eq_nil h, hnil]

variable {base widened : SandboxPolicy}

theorem widenedMode_eq_danger :
    widenedMode base roots = .dangerFullAccess ↔ base.mode = .dangerFullAccess := by
  grind [widenedMode]

/-- The two ways a policy is widened. -/
theorem applyGrantedPermissionProfile_ok {granted : GrantedPermissionProfile}
    (h : applyGrantedPermissionProfile fs base granted = .ok widened) :
    granted.isEmpty = true ∧ widened = base ∨
    ∃ canonical permissions, canonicalizeFilesystemPolicy fs base.filesystem = .ok canonical ∧
      canonicalizeGrantedFilesystemPermissions fs granted.fileSystem = .ok permissions ∧
      widened = {
        mode := widenedMode base (widenWriteRoots base canonical.writableRoots permissions)
        filesystem := {
          readableRoots := widenReadRoots base canonical.readableRoots permissions
          writableRoots := widenWriteRoots base canonical.writableRoots permissions
          executableRoots := canonical.executableRoots
          protectedPaths := canonical.protectedPaths }
        network := widenNetworkPolicy base granted.network
        hostEscape := base.hostEscape
        failIfUnavailable := base.failIfUnavailable } := by
  unfold applyGrantedPermissionProfile at h
  split at h
  next hempty => exact .inl ⟨hempty, (Except.ok.inj h).symm⟩
  · right
    obtain ⟨canonical, hcanonical, h⟩ := Proc.except_bind_eq_ok.mp h
    obtain ⟨permissions, hpermissions, h⟩ := Proc.except_bind_eq_ok.mp h
    exact ⟨canonical, permissions, hcanonical, hpermissions, (Except.ok.inj h).symm⟩

variable {granted : GrantedFilesystemPermissions}

theorem canonicalizeGrantedFilesystemPermissions_ok
    (h : canonicalizeGrantedFilesystemPermissions fs granted = .ok permissions) :
    canonicalizePaths fs granted.readRoots = .ok permissions.readRoots ∧
      canonicalizePaths fs granted.writeRoots = .ok permissions.writeRoots := by
  obtain ⟨readRoots, hread, h⟩ := Proc.except_bind_eq_ok.mp h
  obtain ⟨writeRoots, hwrite, h⟩ := Proc.except_bind_eq_ok.mp h
  cases h
  exact ⟨hread, hwrite⟩

/-- **Widening does what it says to each list of roots.** -/
theorem widens_of_apply {granted : GrantedPermissionProfile}
    (h : applyGrantedPermissionProfile fs base granted = .ok widened) :
    Widens fs base granted.fileSystem widened := by
  rcases applyGrantedPermissionProfile_ok h with
    ⟨hempty, rfl⟩ | ⟨canonical, permissions, hcanonical, hpermissions, rfl⟩
  · simp only [GrantedPermissionProfile.isEmpty, GrantedFilesystemPermissions.isEmpty,
      Bool.and_eq_true, List.isEmpty_iff] at hempty
    obtain ⟨⟨hread, hwrite⟩, -⟩ := hempty
    refine ⟨.rfl, ?_, ?_, .refl _, .refl _⟩
    · split
      next hdanger => exact hdanger.2
      · rw [hread, hwrite]
        exact .refl _
    · split
      next hdanger => exact hdanger.2
      · rw [hwrite]
        exact .refl _
  · obtain ⟨hreadable, hwritable, hexecutable, hprotected⟩ :=
      canonicalizeFilesystemPolicy_ok hcanonical
    obtain ⟨hread, hwrite⟩ := canonicalizeGrantedFilesystemPermissions_ok hpermissions
    refine ⟨widenedMode_eq_danger, ?_, ?_, adds_canonical hexecutable, adds_canonical hprotected⟩
    · simp only [widenReadRoots, List.isEmpty_iff, canonicalizePaths_eq_nil hreadable]
      split
      · rfl
      · refine adds_unionPaths hreadable (fun location => ?_) ?_
        · rw [covers_unionPaths, covers_append, covers_canonicalizePaths hread,
            covers_canonicalizePaths hwrite]
        · rw [unionPaths_eq_nil, append_eq_nil_iff, canonicalizePaths_eq_nil hread,
            canonicalizePaths_eq_nil hwrite]
    · simp only [widenWriteRoots, List.isEmpty_iff, canonicalizePaths_eq_nil hwritable]
      split
      · rfl
      · exact adds_unionPaths hwritable (fun _ => covers_canonicalizePaths hwrite)
          (canonicalizePaths_eq_nil hwrite)

/-! ### Canonical policies -/

/-- Every path of the list is its own canonical path. -/
def Canonical (fs : FileSystem) (paths : List PlainPath) : Prop :=
  ∀ path ∈ paths, canonicalizePolicyPath fs path.1 = .ok path

instance (fs : FileSystem) (paths : List PlainPath) : Decidable (Canonical fs paths) :=
  inferInstanceAs (Decidable (∀ path ∈ paths, canonicalizePolicyPath fs path.1 = .ok path))

theorem Canonical.canonicalizePaths (h : Canonical fs paths) :
    ∃ found, canonicalizePaths fs paths = .ok found := by
  obtain ⟨found, hfound⟩ := Proc.except_mapM_ok paths fun path hpath => ⟨path, h path hpath⟩
  exact ⟨dedupPaths found, by rw [Nanoclaw.canonicalizePaths, hfound]; rfl⟩

theorem canonical_of_canonicalizePaths (h : canonicalizePaths fs paths = .ok found) :
    Canonical fs found := by
  intro path hpath
  obtain ⟨root, -, hroot⟩ := (mem_canonicalizePaths h).mp hpath
  exact canonicalizePolicyPath_idem hroot

theorem Canonical.unionPaths (hleft : Canonical fs left) (hright : Canonical fs right) :
    Canonical fs (unionPaths left right) := by
  intro path hpath
  rcases mem_unionPaths.mp hpath with hpath | hpath
  · exact hleft path hpath
  · exact hright path hpath

theorem canonical_nil : Canonical fs [] := nofun

theorem canonicalizeFilesystemPolicy_of_paths {filesystem : FilesystemPolicy}
    (hreadable : ∃ found, canonicalizePaths fs filesystem.readableRoots = .ok found)
    (hwritable : ∃ found, canonicalizePaths fs filesystem.writableRoots = .ok found)
    (hexecutable : ∃ found, canonicalizePaths fs filesystem.executableRoots = .ok found)
    (hprotected : ∃ found, canonicalizePaths fs filesystem.protectedPaths = .ok found) :
    ∃ canonical, canonicalizeFilesystemPolicy fs filesystem = .ok canonical := by
  obtain ⟨readable, hr⟩ := hreadable
  obtain ⟨writable, hw⟩ := hwritable
  obtain ⟨executable, hx⟩ := hexecutable
  obtain ⟨guarded, hp⟩ := hprotected
  exact ⟨_, by simp only [canonicalizeFilesystemPolicy, hr, hw, hx, hp]; rfl⟩

/-- **A policy that was widened consists of canonical paths.** -/
theorem canonicalizeFilesystemPolicy_widened
    (hcanonical : canonicalizeFilesystemPolicy fs base.filesystem = .ok canonical)
    (hpermissions : canonicalizeGrantedFilesystemPermissions fs granted = .ok permissions) :
    ∃ found, canonicalizeFilesystemPolicy fs
      { readableRoots := widenReadRoots base canonical.readableRoots permissions
        writableRoots := widenWriteRoots base canonical.writableRoots permissions
        executableRoots := canonical.executableRoots
        protectedPaths := canonical.protectedPaths } = .ok found := by
  obtain ⟨hreadable, hwritable, hexecutable, hprotected⟩ :=
    canonicalizeFilesystemPolicy_ok hcanonical
  obtain ⟨hread, hwrite⟩ := canonicalizeGrantedFilesystemPermissions_ok hpermissions
  have hread := canonical_of_canonicalizePaths hread
  have hwrite := canonical_of_canonicalizePaths hwrite
  refine canonicalizeFilesystemPolicy_of_paths (Canonical.canonicalizePaths ?_)
    (Canonical.canonicalizePaths ?_)
    (canonical_of_canonicalizePaths hexecutable).canonicalizePaths
    (canonical_of_canonicalizePaths hprotected).canonicalizePaths
  · simp only [widenReadRoots]
    split
    · exact canonical_nil
    · exact (canonical_of_canonicalizePaths hreadable).unionPaths (hread.unionPaths hwrite)
  · simp only [widenWriteRoots]
    split
    · exact canonical_nil
    · exact (canonical_of_canonicalizePaths hwritable).unionPaths hwrite

/-! ### What the widened policy allows -/

section

variable (h : Widens fs base granted widened)

include h

theorem Widens.protected_iff : Covers fs widened.filesystem.protectedPaths location ↔
      Covers fs base.filesystem.protectedPaths location := by
  rw [h.protectedPaths.covers]
  exact or_iff_left not_covers_nil

theorem Widens.allows_execute :
    Allows fs widened .execute location ↔ Allows fs base .execute location := by
  simp [Allows, Unrestricted, rootsFor, h.executable.covers, not_covers_nil]

/-- **Writing under the widened policy.** -/
theorem Widens.allows_write :
    Allows fs widened .write location ↔ ¬ Covers fs base.filesystem.protectedPaths location ∧
        (Unrestricted base .write ∨ Covers fs base.filesystem.writableRoots location ∨
          Covers fs granted.writeRoots location) := by
  have hwritable := h.writable
  simp only [Allows, Unrestricted, rootsFor, h.protected_iff, h.mode, true_and, ne_eq,
    reduceCtorEq, not_false_eq_true]
  refine and_congr_right fun _ => ?_
  split at hwritable
  next hdanger => simp [hdanger, hwritable]
  next hdanger =>
    rw [hwritable.covers, hwritable.nil]
    tauto

/-- The roots of a grant that can be read under the widened policy. -/
def effectiveReadRoots (base : SandboxPolicy) (granted : GrantedFilesystemPermissions) :
    List PlainPath :=
  if base.mode = .dangerFullAccess ∧ base.filesystem.readableRoots = [] then
    if base.filesystem.writableRoots = [] then [] else granted.writeRoots
  else granted.readRoots ++ granted.writeRoots

/-- **Reading under the widened policy.** -/
theorem Widens.allows_read : Allows fs widened .read location ↔
      Unrestricted base .read ∨ Covers fs (rootsFor base.filesystem .read) location ∨
        Covers fs (effectiveReadRoots base granted) location := by
  have hreadable := h.readable
  have hwritable := h.writable
  have hexecutable := h.executable.covers location
  simp only [Allows, Unrestricted, rootsFor, h.mode, reduceCtorEq, false_and, not_false_eq_true,
    true_and, ne_eq, covers_append, append_eq_nil_iff, hexecutable, h.executable.nil,
    and_true, or_iff_left not_covers_nil]
  split at hreadable
  next hdanger =>
    -- An empty list of readable roots stays as it is.
    obtain ⟨hmode, hnil⟩ := hdanger
    rw [effectiveReadRoots, if_pos ⟨hmode, hnil⟩]
    by_cases hw : base.filesystem.writableRoots = []
    · rw [if_pos ⟨hmode, hw⟩] at hwritable
      simp [hreadable, hwritable, hnil, hw, not_covers_nil]
    · rw [if_neg fun hd => hw hd.2] at hwritable
      simp only [hreadable, hnil, hw, hwritable.nil, hwritable.covers]
      tauto
  next hdanger =>
    rw [effectiveReadRoots, if_neg hdanger]
    -- Neither policy is unrestricted.
    simp only [hreadable.nil, hreadable.covers, covers_append]
    split at hwritable
    next hd =>
      simp only [hwritable, hd.2, not_covers_nil, false_or]
      grind
    · simp only [hwritable.covers]
      grind

end

/-! ### Exactness -/

/-- The granted roots; what may be written may also be read. -/
def grantedRoots (granted : GrantedFilesystemPermissions) : FilesystemAccess → List PlainPath
  | .read => granted.readRoots ++ granted.writeRoots
  | .write => granted.writeRoots
  | .execute => []

/-- **The grant is exact**: what was allowed or granted, but no writing to protected paths. -/
def GrantExact (fs : FileSystem) (policy : SandboxPolicy) (granted : GrantedPermissionProfile)
    (widened : SandboxPolicy) : Prop :=
  ∀ (access : FilesystemAccess) (location : List FileName),
    canonicalizePolicyPath fs (PlainPath.ofLocation location).1 = .ok (.ofLocation location) →
      (assertFilesystemAccess fs widened (PlainPath.ofLocation location).1 access = .ok () ↔
        assertFilesystemAccess fs policy (PlainPath.ofLocation location).1 access = .ok () ∨
          Covers fs (grantedRoots granted.fileSystem access) location ∧
            ¬ (access = .write ∧ Covers fs policy.filesystem.protectedPaths location))

/-- **The condition on the policy and the grant**: under full access with other roots but no
readable ones, what is granted for reading can be read anyway. -/
def GrantEffective (fs : FileSystem) (policy : SandboxPolicy)
    (granted : GrantedPermissionProfile) : Prop :=
  policy.mode = .dangerFullAccess → policy.filesystem.readableRoots = [] →
    policy.filesystem.writableRoots ++ policy.filesystem.executableRoots ≠ [] →
      ∀ root ∈ granted.fileSystem.readRoots ++ granted.fileSystem.writeRoots,
        ∀ place, canonicalizePolicyPath fs root.1 = .ok (.ofLocation place) →
          Covers fs (policy.filesystem.writableRoots ++ policy.filesystem.executableRoots ++
            if policy.filesystem.writableRoots = [] then []
            else granted.fileSystem.writeRoots) place

theorem assertFilesystemAccess_canonical {access : FilesystemAccess}
    (hpolicy : canonicalizeFilesystemPolicy fs policy.filesystem = .ok canonical)
    (hlocation : canonicalizePolicyPath fs (PlainPath.ofLocation location).1 =
      .ok (.ofLocation location)) :
    assertFilesystemAccess fs policy (PlainPath.ofLocation location).1 access = .ok () ↔
      Allows fs policy access location := by
  rw [assertFilesystemAccess_iff]
  constructor
  · rintro ⟨-, location', hlocation', hallows⟩
    obtain rfl := PlainPath.ofLocation_injective (Except.ok.inj (hlocation.symm.trans hlocation'))
    exact hallows
  · exact fun hallows => ⟨⟨canonical, hpolicy⟩, location, hlocation, hallows⟩

theorem covers_granted_of_effective (h : Covers fs (effectiveReadRoots policy granted) location) :
    Covers fs (grantedRoots granted .read) location := by
  unfold effectiveReadRoots at h
  split at h
  · split at h
    · exact absurd h not_covers_nil
    · exact covers_append.mpr (.inr h)
  · exact h

/-- What the condition says: the roots that are granted for reading can be read. -/
theorem GrantEffective.allows_read {granted : GrantedPermissionProfile}
    (h : GrantEffective fs policy granted) (hw : Widens fs policy granted.fileSystem widened)
    (hcovers : Covers fs (grantedRoots granted.fileSystem .read) location) :
    Allows fs widened .read location := by
  rw [hw.allows_read, effectiveReadRoots]
  split
  next hdanger =>
    obtain ⟨hmode, hnil⟩ := hdanger
    by_cases hothers : policy.filesystem.writableRoots ++ policy.filesystem.executableRoots = []
    · left
      obtain ⟨hwritable, hexecutable⟩ := append_eq_nil_iff.mp hothers
      exact ⟨hmode, by simp, by simp [rootsFor, hwritable, hexecutable, hnil]⟩
    · right
      obtain ⟨root, hroot, place, hplace, hunder⟩ := hcovers
      have hread := (h hmode hnil hothers root hroot place hplace).mono hunder
      rw [covers_append, covers_append] at hread
      simp only [rootsFor, covers_append, hnil, not_covers_nil, or_false]
      exact hread
  · exact .inr (.inr hcovers)

/-- **A grant is exact** for every policy and every grant if and only if it is effective. -/
theorem grant_is_exact_iff (fs : FileSystem) (policy : SandboxPolicy)
    (granted : GrantedPermissionProfile) (widened : SandboxPolicy)
    (h : applyGrantedPermissionProfile fs policy granted = .ok widened) :
    GrantExact fs policy granted widened ↔ GrantEffective fs policy granted := by
  have hw := widens_of_apply h
  rcases applyGrantedPermissionProfile_ok h with
    ⟨hempty, rfl⟩ | ⟨canonical, permissions, hcanonical, hpermissions, heq⟩
  · -- Nothing is granted.
    simp only [GrantedPermissionProfile.isEmpty, GrantedFilesystemPermissions.isEmpty,
      Bool.and_eq_true, List.isEmpty_iff] at hempty
    obtain ⟨⟨hread, hwrite⟩, -⟩ := hempty
    refine iff_of_true (fun access location _ => ?_) fun _ _ _ root hroot => ?_
    · have hnone : grantedRoots granted.fileSystem access = [] := by
        cases access <;> simp [grantedRoots, hread, hwrite]
      rw [hnone]
      exact (or_iff_left fun hc => not_covers_nil hc.1).symm
    · simp [hread, hwrite] at hroot
  · obtain ⟨found, hfound⟩ := canonicalizeFilesystemPolicy_widened hcanonical hpermissions
    have hfound : canonicalizeFilesystemPolicy fs widened.filesystem = .ok found := by
      rw [heq]
      exact hfound
    constructor
    · intro hexact hmode hnil hothers root hroot place hplace
      have hgranted : Covers fs (grantedRoots granted.fileSystem .read) place :=
        ⟨root, hroot, place, hplace, prefix_rfl⟩
      have hlocation := canonicalizePolicyPath_idem hplace
      have hallows := (assertFilesystemAccess_canonical hfound hlocation).mp
        ((hexact .read place hlocation).mpr (.inr ⟨hgranted, by simp⟩))
      rw [hw.allows_read, effectiveReadRoots, if_pos ⟨hmode, hnil⟩] at hallows
      simp only [rootsFor, hnil, append_nil] at hallows
      rw [covers_append]
      rcases hallows with ⟨-, -, hroots⟩ | hcovers | hcovers
      · simp [rootsFor, hnil] at hroots
        simp [hroots] at hothers
      · exact .inl hcovers
      · exact .inr hcovers
    · intro heffective access location hlocation
      rw [assertFilesystemAccess_canonical hfound hlocation,
        assertFilesystemAccess_canonical hcanonical hlocation]
      cases access with
      | execute => rw [hw.allows_execute]; simp [grantedRoots, not_covers_nil]
      | write =>
        rw [hw.allows_write]
        simp only [Allows, grantedRoots, true_and]
        tauto
      | read =>
        constructor
        · intro hallows
          rcases hw.allows_read.mp hallows with hall | hcovers | hcovers
          · exact .inl ⟨by simp, .inl hall⟩
          · exact .inl ⟨by simp, .inr hcovers⟩
          · exact .inr ⟨covers_granted_of_effective hcovers, by simp⟩
        · rintro (hallows | ⟨hcovers, -⟩)
          · exact hw.allows_read.mpr (hallows.2.imp_right .inl)
          · exact heffective.allows_read hw hcovers

/-- Two directories. -/
def twoDirectories : FileSystem where
  tree := .ofEntries [([⟨"ws", .refl true⟩], .dir), ([⟨"home", .refl true⟩], .dir)] rfl
  cwd := [⟨"ws", .refl true⟩]
  cwd_dir := rfl
  nesting := 8

/-- A policy for `/ws` that protects `/home`. -/
def homeProtected (mode : SandboxMode) : SandboxPolicy where
  mode := mode
  filesystem :=
    { writableRoots := [.ofLocation [⟨"ws", .refl true⟩]]
      protectedPaths := [.ofLocation [⟨"home", .refl true⟩]] }
  network := .off
  hostEscape := .deny
  failIfUnavailable := false

def readHome : GrantedPermissionProfile where
  fileSystem := { readRoots := [.ofLocation [⟨"home", .refl true⟩]] }

/-- The policy for `/ws`, widened by the grant to read `/home`. -/
def homeReadable : SandboxPolicy :=
  { homeProtected .workspaceWrite with
    filesystem := { (homeProtected .workspaceWrite).filesystem with
      readableRoots := [.ofLocation [⟨"home", .refl true⟩]] } }

/-- Without full access, a grant to read is exact. -/
theorem read_grant_is_exact :
    applyGrantedPermissionProfile twoDirectories (homeProtected .workspaceWrite) readHome =
      .ok homeReadable ∧
    GrantExact twoDirectories (homeProtected .workspaceWrite) readHome homeReadable := by
  refine have happly := ?_; ⟨happly, (grant_is_exact_iff _ _ _ _ happly).mpr nofun⟩
  decide +kernel

/-- **A grant opens a protected path for reading, or is ignored.** -/
theorem read_grant_is_not_exact :
    (∃ widened, applyGrantedPermissionProfile twoDirectories (homeProtected .workspaceWrite)
        readHome = .ok widened ∧
      assertFilesystemAccess twoDirectories widened
        (PlainPath.ofLocation [⟨"home", rfl⟩]).1 .read = .ok () ∧
      assertFilesystemAccess twoDirectories (homeProtected .workspaceWrite)
        (PlainPath.ofLocation [⟨"home", rfl⟩]).1 .read ≠ .ok () ∧
      Covers twoDirectories (homeProtected .workspaceWrite).filesystem.protectedPaths
        [⟨"home", rfl⟩]) ∧
    ∃ widened, applyGrantedPermissionProfile twoDirectories
        { homeProtected .dangerFullAccess with
          filesystem := { writableRoots := [.ofLocation [⟨"ws", rfl⟩]] } } readHome =
          .ok widened ∧
      assertFilesystemAccess twoDirectories widened
        (PlainPath.ofLocation [⟨"home", rfl⟩]).1 .read ≠ .ok () ∧
      Covers twoDirectories (grantedRoots readHome.fileSystem .read) [⟨"home", rfl⟩] := by
  refine ⟨⟨homeReadable, by decide +kernel, by decide +kernel, by decide +kernel, ?_⟩,
    ⟨{ homeProtected .dangerFullAccess with
      filesystem := { writableRoots := [.ofLocation [⟨"ws", rfl⟩]] } },
      by decide +kernel, by decide +kernel, ?_⟩⟩
  · exact ⟨_, mem_singleton_self _, [⟨"home", rfl⟩], by decide +kernel, prefix_rfl⟩
  · exact ⟨_, mem_singleton_self _, [⟨"home", rfl⟩], by decide +kernel, prefix_rfl⟩

end Nanoclaw
