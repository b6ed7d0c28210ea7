import Nanoclaw.Sandbox.Canonical

/-!
# Confinement of Writes

Where a write goes that the sandbox has allowed. The check looks at the canonical path, while the
system follows the path itself. The two part where the last name of a path is a link that leads
nowhere: for the check the name stands for itself, the system makes the file where the link
leads. A protected path that ends in such a link is compared under its own name, too.
-/

namespace Nanoclaw

open List FileTree PlainPath FileSystem

namespace FileSystem

/-- **The file that is made or changed** by writing to a path. -/
def written (fs : FileSystem) (path : Path) : Option (List FileName) :=
  match fs.resolve true path with
  | .ok location =>
    match fs.tree.node location with
    | some .dir => none
    | _ => some location
  | .error _ => none

/-- The last name of the path is there, as a link. -/
def endsInLink (fs : FileSystem) (path : Path) : Bool :=
  match path.steps.reverse with
  | .name name :: rest =>
    match fs.resolve false { absolute := true, steps := rest.reverse } with
    | .ok location => (fs.tree.node (location ++ [name])).any FileTree.Node.isLink
    | .error _ => false
  | _ => false

/-- **A dangling path**: it does not exist, but its last name is there, as a link. -/
def dangling (fs : FileSystem) (path : Path) : Bool :=
  match fs.resolve false (fs.absolute path) with
  | .ok _ => false
  | .error _ => fs.endsInLink (fs.absolute path)

/-- The location is inside the place where the path is, or would be made. -/
def Inside (fs : FileSystem) (root : PlainPath) (location : List FileName) : Prop :=
  ∃ place, fs.resolve true (fs.absolute root.1) = .ok place ∧ place <+: location

end FileSystem

section

variable {fs : FileSystem} {location : List FileName}

/-- **The check and the system agree** on a path that is not dangling. -/
theorem canonicalizePolicyPath_of_target {path : Path}
    (h : fs.resolve true (fs.absolute path) = .ok location) (hpath : fs.dangling path = false) :
    canonicalizePolicyPath fs path = .ok (.ofLocation location) := by
  cases hresolve : fs.resolve false (fs.absolute path) with
  | ok found =>
    have hsame : fs.resolve true (fs.absolute path) = .ok found := resolve_create_of_ok hresolve
    cases hsame.symm.trans h
    exact canonicalizePolicyPath_of_resolve hresolve
  | error error =>
    simp only [dangling, hresolve, endsInLink] at hpath
    rw [canonicalizePolicyPath_of_error hresolve]
    rw [resolve_absolute_eq_walk] at h hresolve
    generalize (fs.absolute path).steps = steps at h hresolve hpath ⊢
    obtain rfl | ⟨steps, last, rfl⟩ := eq_nil_or_concat' steps
    · cases hresolve
    obtain ⟨base, hbase, hdir, hlast⟩ := walk_last h
    rw [FileSystem.walk_append false [] steps (by simp), hbase] at hresolve
    cases last with
    | dot =>
      have hdot : fs.walk false base [.dot] = .ok base := walk_dot hdir _ _
      cases hdot.symm.trans hresolve
    | up =>
      have hup : fs.walk false base [.up] = .ok base.dropLast := walk_up hdir _ _
      cases hup.symm.trans hresolve
    | name name =>
      rcases fs.tree.node_cases (base ++ [name]) with hnone | ⟨target, hlink⟩ | ⟨node, hnode, hl⟩
      · have hmade : fs.walk true base [.name name] = .ok (base ++ [name]) :=
          walk_missing hdir hnone _ _
        cases hmade.symm.trans hlast
        have hundotted : fs.walk false [] (undotted steps) = .ok base := walk_undotted hbase
        rw [undotted_append, reverse_append]
        change existingAncestor fs _ (.name name :: (undotted steps).reverse) [] = _
        unfold existingAncestor
        rw [reverse_reverse, resolve_steps, hundotted]
      · rw [reverse_append, reverse_singleton, singleton_append] at hpath
        simp [resolve_steps, hbase, hlink, FileTree.Node.isLink] at hpath
      · have hfound : fs.walk false base [.name name] = .ok (base ++ [name]) :=
          walk_entry hdir hnode hl _ _
        cases hfound.symm.trans hresolve

/-- **A writable root that covers a file** is found by the system where the check looked. -/
theorem inside_of_covers {root : PlainPath} {place : List FileName}
    (hroot : canonicalizePolicyPath fs root.1 = .ok (.ofLocation place))
    (hunder : place <+: location)
    (hlocation : fs.tree.Present location ∨ fs.tree.Vacant location) : fs.Inside root location := by
  rcases canonicalizePolicyPath_cases hroot with
    ⟨found, hresolve, heq⟩ | ⟨pre, name, rest, base, error, hsteps, hpre, hname, heq⟩
  · obtain rfl := ofLocation_injective heq
    exact ⟨place, resolve_create_of_ok hresolve, hunder⟩
  · obtain rfl := ofLocation_injective heq
    obtain ⟨below, rfl⟩ := hunder
    rw [append_assoc, cons_append] at hlocation
    have hdir : fs.tree.node base = some .dir := dir_strictly_above hlocation (by simp)
    -- The name leads nowhere, so nothing that is there or below it can be written.
    have hlast : rest ++ below = [] := by
      by_contra hne
      rw [append_cons] at hlocation
      have hentry : fs.tree.node (base ++ [name]) = some .dir := dir_strictly_above hlocation hne
      have hfound : fs.walk false base [.name name] = .ok (base ++ [name]) :=
        walk_entry hdir hentry rfl _ _
      exact nomatch hfound.symm.trans hname
    obtain ⟨rfl, rfl⟩ := append_eq_nil_iff.mp hlast
    refine ⟨base ++ [name], ?_, by simp⟩
    have hnone : fs.tree.node (base ++ [name]) = none := by
      rcases hlocation with ⟨node, hnode, hl⟩ | ⟨hnone, -⟩
      · have hfound : fs.walk false base [.name name] = .ok (base ++ [name]) :=
          walk_entry hdir hnode hl _ _
        exact nomatch hfound.symm.trans hname
      · exact hnone
    have hmade : fs.walk true base [.name name] = .ok (base ++ [name]) :=
      walk_missing hdir hnone _ _
    rw [FileSystem.resolve_absolute_eq_walk, hsteps, FileSystem.walk_append true [] pre (by simp),
      hpre]
    exact hmade

end

/-- **Allowed writes are confined**: if neither the path nor a protected path dangles, the file lies
inside a writable root, or there is full access and no such root, and outside of every protected
path. -/
theorem allowed_write_is_confined (fs : FileSystem) (policy : SandboxPolicy) (path : Path)
    (location : List FileName) (hallowed : assertFilesystemAccess fs policy path .write = .ok ())
    (hwritten : fs.written path = some location) (hpath : fs.dangling path = false)
    (hprotected : ∀ root ∈ policy.filesystem.protectedPaths, fs.dangling root.1 = false) :
    (policy.mode = .dangerFullAccess ∧ policy.filesystem.writableRoots = [] ∨
      ∃ root ∈ policy.filesystem.writableRoots, fs.Inside root location) ∧
    ∀ root ∈ policy.filesystem.protectedPaths, ¬ fs.Inside root location := by
  have hresolve : fs.resolve true path = .ok location := by
    unfold written at hwritten
    split at hwritten
    next found hfound =>
      split at hwritten
      · cases hwritten
      · rw [hfound, Option.some.inj hwritten]
    · cases hwritten
  have hplace : fs.tree.Present location ∨ fs.tree.Vacant location :=
    (resolve_found hresolve).imp_right And.right
  obtain ⟨-, checked, hchecked, hopen, hroots⟩ := assertFilesystemAccess_iff.mp hallowed
  rw [canonicalizePolicyPath_of_target (fs.resolve_absolute hresolve) hpath] at hchecked
  obtain rfl := ofLocation_injective (Except.ok.inj hchecked)
  constructor
  · rcases hroots with ⟨hmode, -, hnil⟩ | ⟨root, hroot, place, hcanonical, hunder⟩
    · exact .inl ⟨hmode, hnil⟩
    · exact .inr ⟨root, hroot, inside_of_covers hcanonical hunder hplace⟩
  · rintro root hroot ⟨place, htarget, hunder⟩
    exact hopen ⟨rfl, root, hroot, place,
      canonicalizePolicyPath_of_target htarget (hprotected root hroot), hunder⟩

/-- A workspace with a link `out` to the outside, and `.git` is a link too. -/
def linkedWorkspace : FileSystem where
  tree := .ofEntries
    [([⟨"ws", rfl⟩], .dir), ([⟨"home", rfl⟩], .dir),
      ([⟨"ws", rfl⟩, ⟨"out", rfl⟩], .link (PlainPath.ofLocation [⟨"home", rfl⟩, ⟨"new", rfl⟩]).1),
      ([⟨"ws", rfl⟩, ⟨".git", .refl true⟩], .link ⟨false, [.name ⟨"store", rfl⟩]⟩)] rfl
  cwd := [⟨"ws", rfl⟩]
  cwd_dir := rfl
  nesting := 8

def workspacePolicy : SandboxPolicy where
  mode := .workspaceWrite
  filesystem :=
    { writableRoots := [.ofLocation [⟨"ws", rfl⟩]]
      protectedPaths := [.ofLocation [⟨"ws", rfl⟩, ⟨".git", .refl true⟩]] }
  network := .off
  hostEscape := .deny
  failIfUnavailable := false

/-- A new file in the workspace, given by a relative path, is confined and not below the
protected directory. -/
theorem new_file_is_confined : assertFilesystemAccess linkedWorkspace { workspacePolicy with
      filesystem.protectedPaths := [.ofLocation [⟨"home", rfl⟩]] }
      ⟨false, [.dot, .name ⟨"a", rfl⟩]⟩ .write = .ok () ∧
    (∃ root ∈ workspacePolicy.filesystem.writableRoots,
      linkedWorkspace.Inside root [⟨"ws", rfl⟩, ⟨"a", rfl⟩]) ∧
    ¬ linkedWorkspace.Inside (.ofLocation [⟨"home", rfl⟩]) [⟨"ws", rfl⟩, ⟨"a", rfl⟩] := by
  refine have hallowed := ?_; ⟨hallowed, ?_⟩
  · decide +kernel
  obtain ⟨hroots, houtside⟩ := allowed_write_is_confined _ _ _ [⟨"ws", rfl⟩, ⟨"a", rfl⟩] hallowed
    (by decide +kernel) (by decide +kernel) (by
      intro root hroot
      obtain rfl := mem_singleton.mp hroot
      decide +kernel)
  refine ⟨?_, houtside _ (mem_singleton_self _)⟩
  rcases hroots with ⟨hmode, -⟩ | hinside
  · cases hmode
  · exact hinside

/-- **An allowed write need not be confined**: with full access and no roots, through the link
`out`, and to the file that a protected link leads to. -/
theorem allowed_write_escapes : (assertFilesystemAccess linkedWorkspace .permissive
        (PlainPath.ofLocation [⟨"home", rfl⟩, ⟨"a", rfl⟩]).1 .write = .ok () ∧
      linkedWorkspace.written (PlainPath.ofLocation [⟨"home", rfl⟩, ⟨"a", rfl⟩]).1 =
        some [⟨"home", rfl⟩, ⟨"a", rfl⟩] ∧
      ¬ ∃ root ∈ SandboxPolicy.permissive.filesystem.writableRoots,
        linkedWorkspace.Inside root [⟨"home", rfl⟩, ⟨"a", rfl⟩]) ∧
    (assertFilesystemAccess linkedWorkspace workspacePolicy
        (PlainPath.ofLocation [⟨"ws", rfl⟩, ⟨"out", rfl⟩]).1 .write = .ok () ∧
      linkedWorkspace.written (PlainPath.ofLocation [⟨"ws", rfl⟩, ⟨"out", rfl⟩]).1 =
        some [⟨"home", rfl⟩, ⟨"new", rfl⟩] ∧
      ¬ ∃ root ∈ workspacePolicy.filesystem.writableRoots,
        linkedWorkspace.Inside root [⟨"home", rfl⟩, ⟨"new", rfl⟩]) ∧
    (assertFilesystemAccess linkedWorkspace workspacePolicy
        (PlainPath.ofLocation [⟨"ws", rfl⟩, ⟨"store", rfl⟩]).1 .write = .ok () ∧
      linkedWorkspace.written (PlainPath.ofLocation [⟨"ws", rfl⟩, ⟨"store", rfl⟩]).1 =
        some [⟨"ws", rfl⟩, ⟨"store", rfl⟩] ∧
      ∃ root ∈ workspacePolicy.filesystem.protectedPaths,
        linkedWorkspace.Inside root [⟨"ws", rfl⟩, ⟨"store", rfl⟩]) := by
  refine ⟨⟨by decide +kernel, by decide +kernel, ?_⟩, ⟨by decide +kernel, by decide +kernel, ?_⟩,
    by decide +kernel, by decide +kernel, _, mem_singleton_self _,
    [⟨"ws", rfl⟩, ⟨"store", rfl⟩], by decide +kernel, prefix_rfl⟩
  · rintro ⟨root, hroot, -⟩
    cases hroot
  · rintro ⟨root, hroot, place, hplace, hunder⟩
    obtain rfl := mem_singleton.mp hroot
    have hws : linkedWorkspace.resolve true
        (linkedWorkspace.absolute (ofLocation [⟨"ws", rfl⟩]).1) = .ok [⟨"ws", rfl⟩] := by
      decide +kernel
    cases hws.symm.trans hplace
    exact absurd hunder (by decide +kernel)

end Nanoclaw
