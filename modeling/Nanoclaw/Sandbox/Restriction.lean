import Nanoclaw.Tools.Permissions

/-!
# Restricted Policies

Hooks and the tools of plugins run under a policy put together from that of the session and from
what was granted. Of two roots, the one inside the other is kept. To the check, no roots means
that nothing is allowed (unless there is full access), while an empty list restricts nothing when
roots are combined.
-/

namespace Nanoclaw

open List SortedMap

/-! ### Combining the parts of policies -/

/-- Of two roots, the one inside the other. -/
def overlapRoots (left right : List PlainPath) : List PlainPath :=
  dedupPaths (left.flatMap fun l => right.filterMap fun r =>
    if r.startsWith l then some r else if l.startsWith r then some l else none)

/-- A side without roots takes over those of the other. -/
def intersectPathRoots (left right : List PlainPath) : List PlainPath :=
  if left.isEmpty then unionPaths [] right
  else if right.isEmpty then unionPaths left []
  else overlapRoots left right

/-- Without roots of the session nothing is restricted. -/
def restrictPathRoots (baseRoots desiredRoots : List PlainPath) : List PlainPath :=
  if desiredRoots.isEmpty then []
  else if baseRoots.isEmpty then unionPaths [] desiredRoots
  else overlapRoots baseRoots desiredRoots

/-- The mode that allows less. -/
def stricterMode : SandboxMode → SandboxMode → SandboxMode
  | .readOnly, _ | _, .readOnly => .readOnly
  | .workspaceWrite, _ | _, .workspaceWrite => .workspaceWrite
  | .dangerFullAccess, .dangerFullAccess => .dangerFullAccess

/-- Left to the host only if both sides are. -/
def stricterHostEscape : HostEscapePolicy → HostEscapePolicy → HostEscapePolicy
  | .deny, _ | _, .deny => .deny
  | .hostManaged, .hostManaged => .hostManaged

/-- Nothing may be reached. -/
def NetworkAllowlist.isEmpty (allowlist : NetworkAllowlist) : Bool :=
  allowlist.domains.isEmpty && allowlist.cidrs.isEmpty

/-- The common entries; no network if there are none. -/
def intersectNetworkPolicy : NetworkPolicy → NetworkPolicy → NetworkPolicy
  | .off, _ | _, .off => .off
  | .full, policy | policy, .full => policy
  | .allowlist left, .allowlist right =>
    let allowed : NetworkAllowlist :=
      { domains := left.domains.filter (right.domains.contains ·)
        cidrs := left.cidrs.filter (right.cidrs.contains ·) }
    if allowed.isEmpty then .off else .allowlist allowed

/-! ### What hooks and plugins are granted -/

/-- The network that a hook asks for. -/
inductive HookNetworkPolicy where
  | deny
  | allow
  | allowDomains (domains : List String)

/-- The policy for it. -/
def hookNetworkToSandbox : HookNetworkPolicy → NetworkPolicy
  | .deny => .off
  | .allow => .full
  | .allowDomains domains => .allowlist { domains, cidrs := [] }

/-! ### Roots -/

section

variable {fs : FileSystem} {root : PlainPath} {left right : List PlainPath}

/-- A root that overlaps lies below one of the other side. -/
theorem of_mem_overlapRoots
    (h : root ∈ overlapRoots left right) : (root ∈ right ∧ ∃ l ∈ left, root.startsWith l = true) ∨
      (root ∈ left ∧ ∃ r ∈ right, root.startsWith r = true) := by
  rw [overlapRoots, mem_dedupPaths, mem_flatMap] at h
  obtain ⟨l, hl, hroot⟩ := h
  obtain ⟨r, hr, hroot⟩ := mem_filterMap.mp hroot
  split at hroot
  next hstarts =>
    cases hroot
    exact .inl ⟨hr, l, hl, hstarts⟩
  · split at hroot
    next hstarts =>
      cases hroot
      exact .inr ⟨hl, r, hr, hstarts⟩
    · cases hroot

variable {location : List FileName} {roots : List PlainPath} {place : List FileName}

/-- A canonical path covers what lies under its place. -/
theorem Canonical.covers_iff (h : Canonical fs roots) :
    Covers fs roots location ↔ ∃ place, .ofLocation place ∈ roots ∧ place <+: location := by
  constructor
  · rintro ⟨root, hroot, place, hplace, hunder⟩
    cases (h root hroot).symm.trans hplace
    exact ⟨place, hroot, hunder⟩
  · rintro ⟨place, hplace, hunder⟩
    exact ⟨_, hplace, place, h _ hplace, hunder⟩

theorem covers_nil_unionPaths :
    Covers fs (unionPaths [] roots) location ↔ Covers fs roots location := by
  rw [covers_unionPaths]
  exact or_iff_right not_covers_nil

theorem Canonical.covers_self (h : Canonical fs roots)
    (hplace : .ofLocation place ∈ roots) : Covers fs roots place :=
  h.covers_iff.mpr ⟨place, hplace, prefix_rfl⟩

/-- Canonical roots are locations. -/
theorem Canonical.exists_place (h : Canonical fs roots) (hroot : root ∈ roots) :
    ∃ place, root = .ofLocation place :=
  canonicalizePolicyPath_location (h root hroot)

section

variable (hleft : Canonical fs left) (hright : Canonical fs right)

include hleft hright

/-- **Combined roots cover only what both lists cover.** -/
theorem covers_overlapRoots (h : Covers fs (overlapRoots left right) location) :
    Covers fs left location ∧ Covers fs right location := by
  obtain ⟨root, hroot, place, hplace, hunder⟩ := h
  rcases of_mem_overlapRoots hroot with ⟨hr, l, hl, hstarts⟩ | ⟨hl, r, hr, hstarts⟩
  · obtain ⟨outer, rfl⟩ := hleft.exists_place hl
    cases (hright root hr).symm.trans hplace
    have hinside := PlainPath.startsWith_ofLocation.mp hstarts
    exact ⟨hleft.covers_iff.mpr ⟨outer, hl, hinside.trans hunder⟩,
      hright.covers_iff.mpr ⟨place, hr, hunder⟩⟩
  · obtain ⟨outer, rfl⟩ := hright.exists_place hr
    cases (hleft root hl).symm.trans hplace
    have hinside := PlainPath.startsWith_ofLocation.mp hstarts
    exact ⟨hleft.covers_iff.mpr ⟨place, hl, hunder⟩,
      hright.covers_iff.mpr ⟨outer, hr, hinside.trans hunder⟩⟩

theorem Canonical.overlapRoots : Canonical fs (overlapRoots left right) := by
  intro root hroot
  rcases of_mem_overlapRoots hroot with ⟨hr, -⟩ | ⟨hl, -⟩
  · exact hright root hr
  · exact hleft root hl

theorem Canonical.intersectPathRoots : Canonical fs (intersectPathRoots left right) := by
  rw [Nanoclaw.intersectPathRoots]
  split
  · exact canonical_nil.unionPaths hright
  split
  · exact hleft.unionPaths canonical_nil
  · exact hleft.overlapRoots hright

theorem Canonical.restrictPathRoots : Canonical fs (restrictPathRoots left right) := by
  rw [Nanoclaw.restrictPathRoots]
  split
  · exact canonical_nil
  split
  · exact canonical_nil.unionPaths hright
  · exact hleft.overlapRoots hright

/-- **What the combined roots of a kind cover**: both lists, or the one that is not empty. -/
theorem covers_intersectPathRoots (h : Covers fs (intersectPathRoots left right) location) :
    (left = [] ∧ Covers fs right location) ∨ (right = [] ∧ Covers fs left location) ∨
      (Covers fs left location ∧ Covers fs right location) := by
  rw [intersectPathRoots] at h
  split at h
  next hnil => exact .inl ⟨isEmpty_iff.mp hnil, covers_nil_unionPaths.mp h⟩
  split at h
  next hnil =>
    rw [covers_unionPaths] at h
    exact .inr (.inl ⟨isEmpty_iff.mp hnil, h.resolve_right not_covers_nil⟩)
  · exact .inr (.inr (covers_overlapRoots hleft hright h))

/-- **Restricted roots cover** what was asked for and the session's roots, if any. -/
theorem covers_restrictPathRoots (h : Covers fs (restrictPathRoots left right) location) :
    Covers fs right location ∧ (left = [] ∨ Covers fs left location) := by
  rw [restrictPathRoots] at h
  split at h
  · exact absurd h not_covers_nil
  split at h
  next hnil => exact ⟨covers_nil_unionPaths.mp h, .inl (isEmpty_iff.mp hnil)⟩
  · obtain ⟨hb, hd⟩ := covers_overlapRoots hleft hright h
    exact ⟨hd, .inr hb⟩

end

/-- The roots of the right side are taken over if the left side has none. -/
theorem Canonical.taken_over (hright : Canonical fs right) (hnil : left = [])
    (hplace : .ofLocation place ∈ right) :
    Covers fs (Nanoclaw.intersectPathRoots left right) place := by
  subst hnil
  exact covers_nil_unionPaths.mpr (hright.covers_self hplace)

/-- The roots of the left side are left if the right side has none. -/
theorem Canonical.left_over (hleft : Canonical fs left) (hnil : right = [])
    (hplace : .ofLocation place ∈ left) :
    Covers fs (Nanoclaw.intersectPathRoots left right) place := by
  subst hnil
  rw [Nanoclaw.intersectPathRoots, if_neg (by simpa using ne_nil_of_mem hplace)]
  exact covers_unionPaths.mpr (.inl (hleft.covers_self hplace))

/-- A side without roots does not restrict what is asked for. -/
theorem Canonical.unrestricted (hright : Canonical fs right) (hnil : left = [])
    (hplace : .ofLocation place ∈ right) :
    Covers fs (Nanoclaw.restrictPathRoots left right) place := by
  subst hnil
  rw [Nanoclaw.restrictPathRoots, if_neg (by simpa using ne_nil_of_mem hplace)]
  exact covers_nil_unionPaths.mpr (hright.covers_self hplace)

theorem stricterMode_ne_danger {left right : SandboxMode} (h : right ≠ .dangerFullAccess) :
    stricterMode left right ≠ .dangerFullAccess := by
  cases left <;> cases right <;> simp_all [stricterMode]

/-! ### Canonical policies -/

/-- Every root of the policy is its own canonical path. -/
structure CanonicalRoots (fs : FileSystem) (policy : FilesystemPolicy) : Prop where
  readable : Canonical fs policy.readableRoots
  writable : Canonical fs policy.writableRoots
  executable : Canonical fs policy.executableRoots
  /-- The protected paths have canonical forms. -/
  resolves : ∃ found, canonicalizePaths fs policy.protectedPaths = .ok found

theorem CanonicalRoots.canonicalizes {policy : FilesystemPolicy} (h : CanonicalRoots fs policy) :
    ∃ canonical, canonicalizeFilesystemPolicy fs policy = .ok canonical :=
  canonicalizeFilesystemPolicy_of_paths h.readable.canonicalizePaths h.writable.canonicalizePaths
    h.executable.canonicalizePaths h.resolves

/-- Access under canonical roots. -/
theorem CanonicalRoots.access_iff {policy : SandboxPolicy} (h : CanonicalRoots fs policy.filesystem)
    {access : FilesystemAccess}
    (hlocation : canonicalizePolicyPath fs (PlainPath.ofLocation location).1 =
      .ok (.ofLocation location)) :
    assertFilesystemAccess fs policy (PlainPath.ofLocation location).1 access = .ok () ↔
      Allows fs policy access location := by
  obtain ⟨canonical, hcanonical⟩ := h.canonicalizes
  exact assertFilesystemAccess_canonical hcanonical hlocation

/-- Roots are made canonical one by one. -/
theorem canonicalizePaths_append {left right foundLeft foundRight : List PlainPath}
    (hleft : canonicalizePaths fs left = .ok foundLeft)
    (hright : canonicalizePaths fs right = .ok foundRight) :
    ∃ found, canonicalizePaths fs (unionPaths left right) = .ok found := by
  obtain ⟨cleft, hcleft, -⟩ := canonicalizePaths_ok hleft
  obtain ⟨cright, hcright, -⟩ := canonicalizePaths_ok hright
  obtain ⟨found, hfound⟩ := Proc.except_mapM_ok
    (unionPaths left right) (by
      intro path hpath
      rcases mem_unionPaths.mp hpath with hl | hr
      · exact (Proc.exists_of_except_mapM hcleft hl).imp fun _ => And.right
      · exact (Proc.exists_of_except_mapM hcright hr).imp fun _ => And.right)
  exact ⟨dedupPaths found, by rw [canonicalizePaths, hfound]; rfl⟩

end

/-! ### The network -/

section

variable {Destination : Type*} {matchesDomain matchesCidr : String → Destination → Prop}
  {destination : Destination}

/-- **The combined network policy** reaches only what both policies reach. -/
theorem reaches_intersectNetworkPolicy {left right : NetworkPolicy}
    (h : (intersectNetworkPolicy left right).Reaches matchesDomain matchesCidr destination) :
    left.Reaches matchesDomain matchesCidr destination ∧
      right.Reaches matchesDomain matchesCidr destination := by
  cases left with
  | off => exact h.elim
  | full =>
    cases right with
    | off => exact h.elim
    | full => exact ⟨h, h⟩
    | allowlist right => exact ⟨trivial, h⟩
  | allowlist left =>
    cases right with
    | off => exact h.elim
    | full => exact ⟨h, trivial⟩
    | allowlist right =>
      rw [intersectNetworkPolicy] at h
      split at h
      · exact h.elim
      · rcases h with ⟨domain, hdomain, hmatch⟩ | ⟨cidr, hcidr, hmatch⟩
        · obtain ⟨hl, hr⟩ := mem_filter.mp hdomain
          exact ⟨.inl ⟨domain, hl, hmatch⟩, .inl ⟨domain, contains_iff_mem.mp hr, hmatch⟩⟩
        · obtain ⟨hl, hr⟩ := mem_filter.mp hcidr
          exact ⟨.inr ⟨cidr, hl, hmatch⟩, .inr ⟨cidr, contains_iff_mem.mp hr, hmatch⟩⟩

end

end Nanoclaw
