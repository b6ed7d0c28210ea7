import Nanoclaw.Sandbox.Grants

/-!
# Requested and Granted Permissions

A tool requests permissions, and the user grants all of them or less. The answer is taken if every
granted root lies under a requested root of the same kind, and the granted network is part of the
requested one. The test is sound for every policy that is widened.
-/

namespace Nanoclaw

open SortedMap

/-! ### The subset test -/

def pathRootsAreSubset (requested granted : List PlainPath) : Bool :=
  granted.all fun grantedRoot =>
    requested.any fun requestedRoot => grantedRoot.startsWith requestedRoot

def networkPermissionsAreSubset (requested granted : Option GrantedNetworkPermissions) : Bool :=
  match requested, granted with
  | _, none => true
  | some .full, some _ => true
  | some (.allowlist requestedAllowlist), some (.allowlist grantedAllowlist) =>
    (grantedAllowlist.domains.all fun domain =>
      requestedAllowlist.domains.any fun requested => requested == domain) &&
    grantedAllowlist.cidrs.all fun cidr =>
      requestedAllowlist.cidrs.any fun requested => requested == cidr
  | _, _ => false

def grantedPermissionsAreSubset (requested granted : GrantedPermissionProfile) : Bool :=
  pathRootsAreSubset requested.fileSystem.readRoots granted.fileSystem.readRoots &&
    pathRootsAreSubset requested.fileSystem.writeRoots granted.fileSystem.writeRoots &&
    networkPermissionsAreSubset requested.network granted.network

/-- **A normalized profile**: its roots went through `normalize_granted_permission_path`. -/
def GrantedPermissionProfile.Normalized (fs : FileSystem) (profile : GrantedPermissionProfile) :
    Prop :=
  Canonical fs profile.fileSystem.readRoots ∧ Canonical fs profile.fileSystem.writeRoots

/-! ### Paths -/

variable {base widened : SandboxPolicy} {fs : FileSystem} {granted : GrantedPermissionProfile}

section

variable
  {requested : GrantedPermissionProfile}
variable {location : List FileName}

/-- **The test on paths** is sound for normalized roots. -/
theorem covers_of_pathRootsAreSubset {requested granted : List PlainPath}
    (hrequested : Canonical fs requested) (hgranted : Canonical fs granted)
    (h : pathRootsAreSubset requested granted = true) (hcovers : Covers fs granted location) :
    Covers fs requested location := by
  obtain ⟨grantedRoot, hroot, place, hplace, hunder⟩ := hcovers
  cases (hgranted _ hroot).symm.trans hplace
  obtain ⟨requestedRoot, hmem, hstarts⟩ := List.any_eq_true.mp (List.all_eq_true.mp h _ hroot)
  obtain ⟨above, rfl⟩ := canonicalizePolicyPath_location (hrequested _ hmem)
  exact ⟨_, hmem, above, hrequested _ hmem,
    (PlainPath.startsWith_ofLocation.mp hstarts).trans hunder⟩

theorem covers_effectiveReadRoots {requested granted : GrantedFilesystemPermissions}
    (hread : Covers fs granted.readRoots location → Covers fs requested.readRoots location)
    (hwrite : Covers fs granted.writeRoots location → Covers fs requested.writeRoots location)
    (h : Covers fs (effectiveReadRoots base granted) location) :
    Covers fs (effectiveReadRoots base requested) location := by
  unfold effectiveReadRoots at h ⊢
  split at h
  next hdanger =>
    rw [if_pos hdanger]
    split at h
    next hnil => exact absurd h not_covers_nil
    next hnil =>
      rw [if_neg hnil]
      exact hwrite h
  next hdanger =>
    rw [if_neg hdanger]
    exact covers_append.mpr ((covers_append.mp h).imp hread hwrite)

/-- **The accesses that a smaller grant allows**, a larger one allows as well. -/
theorem Widens.allows_mono {widenedByRequest : SandboxPolicy}
    {requested granted : GrantedFilesystemPermissions} (hgranted : Widens fs base granted widened)
    (hrequested : Widens fs base requested widenedByRequest)
    (hread : Covers fs granted.readRoots location → Covers fs requested.readRoots location)
    (hwrite : Covers fs granted.writeRoots location → Covers fs requested.writeRoots location)
    {access : FilesystemAccess} (h : Allows fs widened access location) :
    Allows fs widenedByRequest access location := by
  cases access with
  | read =>
    rw [hrequested.allows_read]
    exact (hgranted.allows_read.mp h).imp_right
      (Or.imp_right (covers_effectiveReadRoots hread hwrite))
  | write =>
    rw [hrequested.allows_write]
    exact (hgranted.allows_write.mp h).imp_right (Or.imp_right (Or.imp_right hwrite))
  | execute => exact hrequested.allows_execute.mpr (hgranted.allows_execute.mp h)

/-- What can be checked after a grant could be checked before. -/
theorem canonicalizeFilesystemPolicy_base
    (h : applyGrantedPermissionProfile fs base granted = .ok widened)
    (hwidened : ∃ found, canonicalizeFilesystemPolicy fs widened.filesystem = .ok found) :
    ∃ canonical, canonicalizeFilesystemPolicy fs base.filesystem = .ok canonical := by
  rcases applyGrantedPermissionProfile_ok h with ⟨-, rfl⟩ | ⟨canonical, -, hcanonical, -⟩
  · exact hwidened
  · exact ⟨canonical, hcanonical⟩

/-- A normalized profile can be applied, and accesses can be checked afterwards. -/
theorem applyGrantedPermissionProfile_normalized {canonical : FilesystemPolicy}
    (hnormalized : granted.Normalized fs)
    (hcanonical : canonicalizeFilesystemPolicy fs base.filesystem = .ok canonical) :
    ∃ widened, applyGrantedPermissionProfile fs base granted = .ok widened ∧
      ∃ found, canonicalizeFilesystemPolicy fs widened.filesystem = .ok found := by
  obtain ⟨readRoots, hread⟩ := hnormalized.1.canonicalizePaths
  obtain ⟨writeRoots, hwrite⟩ := hnormalized.2.canonicalizePaths
  have hpermissions : canonicalizeGrantedFilesystemPermissions fs granted.fileSystem =
      .ok { readRoots, writeRoots } := by
    simp only [canonicalizeGrantedFilesystemPermissions, hread, hwrite]
    rfl
  by_cases hempty : granted.isEmpty = true
  · exact ⟨base, by rw [applyGrantedPermissionProfile, if_pos hempty]; rfl, canonical, hcanonical⟩
  · refine ⟨_, by rw [applyGrantedPermissionProfile, if_neg hempty, hcanonical, hpermissions]; rfl,
      canonicalizeFilesystemPolicy_widened hcanonical hpermissions⟩

end

/-! ### The network -/

section

variable {Destination : Type*} {matchesDomain matchesCidr : String → Destination → Prop}
  {destination : Destination} {granted : Option GrantedNetworkPermissions}

/-- **The destinations that a policy lets through**, for any matching of entries. -/
def NetworkPolicy.Reaches (matchesDomain matchesCidr : String → Destination → Prop)
    (policy : NetworkPolicy) (destination : Destination) : Prop :=
  match policy with
  | .off => False
  | .full => True
  | .allowlist entries =>
    (∃ domain ∈ entries.domains, matchesDomain domain destination) ∨
      ∃ cidr ∈ entries.cidrs, matchesCidr cidr destination

/-- The destinations that a grant gives. -/
def GrantedNetworkPermissions.policy : GrantedNetworkPermissions → NetworkPolicy
  | .allowlist entries => .allowlist entries
  | .full => .full

theorem reaches_mergeNetworkAllowlists {left right : NetworkAllowlist} :
    (NetworkPolicy.allowlist (mergeNetworkAllowlists left right)).Reaches
        matchesDomain matchesCidr destination ↔
      (NetworkPolicy.allowlist left).Reaches matchesDomain matchesCidr destination ∨
        (NetworkPolicy.allowlist right).Reaches matchesDomain matchesCidr destination := by
  simp only [NetworkPolicy.Reaches, mergeNetworkAllowlists, unionStrings,
    mem_distinct_iff Function.injective_id, List.mem_append, or_and_right, exists_or]
  exact or_or_or_comm

/-- **The network of a widened policy** is that of the policy and that of the grant. -/
theorem reaches_widenNetworkPolicy :
    (widenNetworkPolicy base granted).Reaches matchesDomain matchesCidr destination ↔
      base.network.Reaches matchesDomain matchesCidr destination ∨
        ∃ network, granted = some network ∧
          network.policy.Reaches matchesDomain matchesCidr destination := by
  unfold widenNetworkPolicy
  cases base.network with
  | full => simp [NetworkPolicy.Reaches]
  | off =>
    rcases granted with _ | ⟨entries | _⟩ <;>
      simp [NetworkPolicy.Reaches, GrantedNetworkPermissions.policy]
  | allowlist existing =>
    rcases granted with _ | ⟨entries | _⟩
    · simp
    · simp [reaches_mergeNetworkAllowlists, GrantedNetworkPermissions.policy]
    · simp [NetworkPolicy.Reaches, GrantedNetworkPermissions.policy]

/-- **The test on the network** is sound. -/
theorem reaches_of_networkPermissionsAreSubset {requested : Option GrantedNetworkPermissions}
    (h : networkPermissionsAreSubset requested granted = true)
    (hreaches : ∃ network, granted = some network ∧
      network.policy.Reaches matchesDomain matchesCidr destination) :
    ∃ network, requested = some network ∧
      network.policy.Reaches matchesDomain matchesCidr destination := by
  obtain ⟨network, rfl, hreaches⟩ := hreaches
  rcases requested with _ | ⟨entries | _⟩
  · cases h
  · cases network with
    | full => cases h
    | allowlist grantedEntries =>
      simp only [networkPermissionsAreSubset, Bool.and_eq_true, List.all_eq_true,
        List.any_eq_true, beq_iff_eq, exists_eq_right] at h
      refine ⟨_, rfl, ?_⟩
      rcases hreaches with ⟨domain, hmem, hmatch⟩ | ⟨cidr, hmem, hmatch⟩
      · exact Or.inl ⟨domain, h.1 domain hmem, hmatch⟩
      · exact Or.inr ⟨cidr, h.2 cidr hmem, hmatch⟩
  · exact ⟨_, rfl, trivial⟩

end

theorem network_of_apply (h : applyGrantedPermissionProfile fs base granted = .ok widened) :
    widened.network = widenNetworkPolicy base granted.network := by
  rcases applyGrantedPermissionProfile_ok h with ⟨hempty, rfl⟩ | ⟨_, _, -, -, rfl⟩
  · simp only [GrantedPermissionProfile.isEmpty, Bool.and_eq_true, Option.isNone_iff_eq_none]
      at hempty
    rw [hempty.2]
    unfold widenNetworkPolicy
    cases widened.network <;> rfl
  · rfl

/-! ### Soundness -/

/-- **A grant that passes the subset test gives no more than the request**: no access and no
destination, for every base policy. -/
theorem granted_subset_is_sound {Destination : Type*} (fs : FileSystem) (base : SandboxPolicy)
    (requested granted : GrantedPermissionProfile) (hrequested : requested.Normalized fs)
    (hgranted : granted.Normalized fs) (hsubset : grantedPermissionsAreSubset requested granted)
    (widened : SandboxPolicy) (h : applyGrantedPermissionProfile fs base granted = .ok widened) :
    (∀ path access, assertFilesystemAccess fs widened path access = .ok () →
      ∃ widenedByRequest, applyGrantedPermissionProfile fs base requested = .ok widenedByRequest ∧
        assertFilesystemAccess fs widenedByRequest path access = .ok ()) ∧
    ∀ widenedByRequest, applyGrantedPermissionProfile fs base requested = .ok widenedByRequest →
      ∀ (matchesDomain matchesCidr : String → Destination → Prop) (destination : Destination),
        widened.network.Reaches matchesDomain matchesCidr destination →
          widenedByRequest.network.Reaches matchesDomain matchesCidr destination := by
  simp only [grantedPermissionsAreSubset, Bool.and_eq_true] at hsubset
  obtain ⟨⟨hread, hwrite⟩, hnetwork⟩ := hsubset
  constructor
  · intro path access hassert
    obtain ⟨hwidened, location, hlocation, hallows⟩ := assertFilesystemAccess_iff.mp hassert
    obtain ⟨canonical, hcanonical⟩ := canonicalizeFilesystemPolicy_base h hwidened
    obtain ⟨widenedByRequest, hrequest, hfound⟩ :=
      applyGrantedPermissionProfile_normalized hrequested hcanonical
    refine ⟨widenedByRequest, hrequest, assertFilesystemAccess_iff.mpr
      ⟨hfound, location, hlocation, ?_⟩⟩
    exact (widens_of_apply h).allows_mono (widens_of_apply hrequest)
      (covers_of_pathRootsAreSubset hrequested.1 hgranted.1 hread)
      (covers_of_pathRootsAreSubset hrequested.2 hgranted.2 hwrite) hallows
  · intro widenedByRequest hrequest matchesDomain matchesCidr destination hreaches
    rw [network_of_apply h, reaches_widenNetworkPolicy] at hreaches
    rw [network_of_apply hrequest, reaches_widenNetworkPolicy]
    exact hreaches.imp_right (reaches_of_networkPermissionsAreSubset hnetwork)

/-- A grant of less than what was requested: one file and one host. -/
def readOneFile : GrantedPermissionProfile where
  fileSystem := { readRoots := [.ofLocation [⟨"home", .refl true⟩, ⟨"a", .refl true⟩]] }
  network := some (.allowlist ⟨["a.org"], []⟩)

def oneFileReadable : SandboxPolicy :=
  { homeReadable with
    filesystem := { homeReadable.filesystem with readableRoots := readOneFile.fileSystem.readRoots }
    network := .allowlist ⟨["a.org"], []⟩ }

/-- The file and the host that were granted can be reached with the request as well. -/
theorem smaller_grant_is_sound : assertFilesystemAccess twoDirectories oneFileReadable
      (PlainPath.ofLocation [⟨"home", rfl⟩, ⟨"a", rfl⟩]).1 .read = .ok () ∧
    assertFilesystemAccess twoDirectories { homeReadable with network := .full }
      (PlainPath.ofLocation [⟨"home", rfl⟩, ⟨"a", rfl⟩]).1 .read = .ok () ∧
    NetworkPolicy.full.Reaches (· = ·) (· = ·) "a.org" := by
  refine have hread := ?_; ⟨hread, ?_⟩
  · decide +kernel
  have hrequest : applyGrantedPermissionProfile twoDirectories (homeProtected .workspaceWrite)
      { readHome with network := some .full } = .ok { homeReadable with network := .full } := by
    decide +kernel
  obtain ⟨haccess, hnetwork⟩ := granted_subset_is_sound twoDirectories
    (homeProtected .workspaceWrite) { readHome with network := some .full } readOneFile
    ⟨by decide +kernel, by decide +kernel⟩ ⟨by decide +kernel, by decide +kernel⟩
    (by decide +kernel) oneFileReadable (by decide +kernel)
  obtain ⟨widened, happly, hallowed⟩ := haccess _ _ hread
  cases hrequest.symm.trans happly
  exact ⟨hallowed,
    hnetwork _ hrequest (· = ·) (· = ·) _ (.inl ⟨"a.org", List.mem_singleton_self _, rfl⟩)⟩

end Nanoclaw
