import Nanoclaw.Lib.Proc
import Nanoclaw.Sandbox.Policy

/-!
# Canonical Paths and Access

What the canonical path of a path is, and which accesses a policy allows, in terms of the
locations of the file tree.
-/

namespace Nanoclaw

open List FileSystem PlainPath FileTree SortedMap

/-! ### Where paths lead -/

variable {steps : List (Step FileName)} {error : Errno}

namespace FileSystem

variable {fs : FileSystem}

/-- Follow steps from a location of the file system. -/
def walk (fs : FileSystem) : Bool → List FileName → List (Step FileName) →
    Except Errno (List FileName) :=
  fs.tree.walk (fs.tree.resolve fs.nesting)

theorem resolve_steps (create : Bool) (steps : List (Step FileName)) :
    fs.resolve create { absolute := true, steps } = fs.walk create [] steps := rfl

variable {location : List FileName}

theorem walk_ofLocation (h : fs.tree.Present location)
    (create : Bool) : fs.walk create [] (location.map .name) = .ok location :=
  walk_names [] h create

theorem resolve_ofLocation (h : fs.tree.Present location)
    (create : Bool) : fs.resolve create (ofLocation location).1 = .ok location :=
  walk_ofLocation h create

variable {create : Bool} {path : Path}

theorem resolve_found (h : fs.resolve create path = .ok location) :
    fs.tree.Present location ∨ create = true ∧ fs.tree.Vacant location :=
  FileTree.resolve_found fs.cwd_dir h

theorem walk_present (h : fs.walk false [] steps = .ok location) : fs.tree.Present location := by
  have hresolve : fs.resolve false { absolute := true, steps } = .ok location := h
  rcases resolve_found hresolve with hpresent | ⟨hfalse, -⟩
  · exact hpresent
  · cases hfalse

theorem absolute_absolute (fs : FileSystem) (path : Path) : (fs.absolute path).absolute = true := by
  unfold absolute
  split
  · assumption
  · rfl

theorem resolve_absolute_eq_walk (create : Bool) (path : Path) :
    fs.resolve create (fs.absolute path) = fs.walk create [] (fs.absolute path).steps := by
  have h := fs.absolute_absolute path
  generalize fs.absolute path = path at h
  obtain ⟨absolute, steps⟩ := path
  subst h
  rfl

/-- A path leads to the same place when it is joined to the working directory. -/
theorem resolve_absolute (h : fs.resolve create path = .ok location) :
    fs.resolve create (fs.absolute path) = .ok location := by
  unfold absolute
  split
  · exact h
  next hrel =>
    have hempty : path.steps.isEmpty = false := by
      by_contra hne
      simp_all [resolve, FileTree.resolve]
    rw [resolve_steps, hempty, FileSystem.walk,
      FileTree.walk_append create [] _ (by simpa using hempty)]
    have hcwd := walk_ofLocation (FileTree.present_of_dir fs.cwd_dir) false
    rw [FileSystem.walk] at hcwd
    rw [hcwd]
    have hwalk : fs.tree.walk (fs.tree.resolve fs.nesting) create fs.cwd path.steps =
        .ok location := by
      simpa [resolve, FileTree.resolve, hrel, hempty] using h
    exact hwalk

/-- What is found at the end of a route, one piece after the other. -/
theorem walk_append (create : Bool) (location : List FileName) (steps : List (Step FileName))
    {rest : List (Step FileName)} (hrest : rest ≠ []) : fs.walk create location (steps ++ rest) =
      (fs.walk false location steps).bind fun found => fs.walk create found rest :=
  FileTree.walk_append create location steps hrest

/-- Where a step leads nowhere, no route goes on. -/
theorem walk_cons_of_error {step : Step FileName} (h : fs.walk false location [step] = .error error)
    (rest : List (Step FileName)) : fs.walk false location (step :: rest) = .error error := by
  by_cases hrest : rest = []
  · rw [hrest]
    exact h
  · rw [← singleton_append, walk_append false location [step] hrest, h]
    rfl

/-- The last step of a route that a file can be made at. -/
theorem walk_last {last : Step FileName} (h : fs.walk create [] (steps ++ [last]) = .ok location) :
    ∃ base, fs.walk false [] steps = .ok base ∧ fs.tree.node base = some .dir ∧
      fs.walk create base [last] = .ok location := by
  rw [walk_append create [] steps (by simp)] at h
  obtain ⟨base, hbase, h⟩ := Proc.except_bind_eq_ok.mp h
  exact ⟨base, hbase, dir_of_walk h, h⟩

end FileSystem

/-! ### Canonical paths -/

section

variable {fs : FileSystem} {location : List FileName}

/-- **What exists is checked at the place where it is.** -/
theorem canonicalizePolicyPath_of_resolve {path : Path}
    (h : fs.resolve false (fs.absolute path) = .ok location) :
    canonicalizePolicyPath fs path = .ok (.ofLocation location) := by
  unfold canonicalizePolicyPath
  split
  next location' hpath =>
    have hsame := (fs.resolve_absolute hpath).symm.trans h
    rw [Except.ok.inj hsame]
  · simp only [h]

variable {absolute : Path} {suffix : List FileName}
  {left right : List PlainPath}

theorem canonicalizePolicyPath_of_error {path : Path}
    (h : fs.resolve false (fs.absolute path) = .error error) :
    canonicalizePolicyPath fs path = existingAncestor fs (fs.absolute path)
      (undotted (fs.absolute path).steps).reverse [] := by
  unfold canonicalizePolicyPath
  split
  next location hpath => exact nomatch (fs.resolve_absolute hpath).symm.trans h
  · simp only [h]

variable {found : PlainPath}

/-- What the loop over the ancestors finds: an ancestor that exists, and the names behind it, the
first of which leads nowhere unless it is the only one. -/
theorem existingAncestor_ok (h : existingAncestor fs absolute steps.reverse suffix = .ok found) :
    ∃ pre name rest location, steps = pre ++ Step.name name :: rest.map .name ∧
      fs.walk false [] pre = .ok location ∧
      found = .ofLocation (location ++ name :: (rest ++ suffix)) ∧
      (rest ≠ [] → ∃ error, fs.walk false location [.name name] = .error error) := by
  induction steps using reverseRecOn generalizing suffix with
  | nil => exact nomatch h
  | append_singleton steps last ih =>
    rw [reverse_append, reverse_singleton, singleton_append] at h
    cases last with
    | dot => exact nomatch h
    | up => exact nomatch h
    | name name =>
      unfold existingAncestor at h
      rw [reverse_reverse] at h
      split at h
      next location hresolve =>
        cases h
        exact ⟨steps, name, [], location, rfl, hresolve, rfl, fun hne => absurd rfl hne⟩
      next error hresolve =>
        obtain ⟨pre, first, rest, location, rfl, hpre, rfl, hrest⟩ := ih h
        refine ⟨pre, first, rest ++ [name], location, by simp, hpre, by simp, fun _ => ?_⟩
        by_cases hne : rest = []
        · subst hne
          rw [FileSystem.resolve_steps, FileSystem.walk_append false [] pre (by simp),
            hpre] at hresolve
          exact ⟨error, hresolve⟩
        · exact hrest hne

/-- The loop finds the ancestor behind which the first name leads nowhere. -/
theorem existingAncestor_eq {pre : List (Step FileName)} {name : FileName}
    (hpre : fs.walk false [] pre = .ok location)
    (hname : fs.walk false location [.name name] = .error error) (rest suffix : List FileName) :
    existingAncestor fs absolute (pre ++ Step.name name :: rest.map .name).reverse suffix =
      .ok (.ofLocation (location ++ name :: (rest ++ suffix))) := by
  induction rest using reverseRecOn generalizing suffix with
  | nil =>
    rw [map_nil, reverse_append, reverse_singleton, singleton_append]
    unfold existingAncestor
    rw [reverse_reverse, resolve_steps, hpre]
    rfl
  | append_singleton rest last ih =>
    rw [map_append, map_singleton, ← cons_append, ← append_assoc,
      reverse_append, reverse_singleton, singleton_append]
    unfold existingAncestor
    have hmissing : fs.resolve false
        { absolute := true, steps := pre ++ .name name :: rest.map .name } = .error error := by
      rw [FileSystem.resolve_steps, FileSystem.walk_append false [] pre (by simp), hpre]
      exact walk_cons_of_error hname _
    rw [reverse_reverse, hmissing]
    simpa using ih (last :: suffix)

/-- A plain path joined to the working directory has no dot, unless it is empty. -/
theorem undotted_absolute (fs : FileSystem) (path : PlainPath) :
    fs.resolve false (fs.absolute path.1) = .ok fs.cwd ∨
      undotted (fs.absolute path.1).steps = (fs.absolute path.1).steps := by
  obtain ⟨⟨absolute, steps⟩, hplain⟩ := path
  cases absolute with
  | true => exact .inr hplain
  | false =>
    cases steps with
    | nil =>
      left
      have hwalk : fs.walk false [] (fs.cwd.map .name ++ [.dot]) = .ok fs.cwd := by
        rw [FileSystem.walk_append false [] _ (by simp),
          walk_ofLocation (present_of_dir fs.cwd_dir)]
        exact walk_dot fs.cwd_dir _ _
      exact hwalk
    | cons step steps =>
      right
      simpa [absolute] using hplain

variable {path : PlainPath}

/-- **The canonical path of a root**: its place, or an ancestor and names that lead nowhere. -/
theorem canonicalizePolicyPath_cases (h : canonicalizePolicyPath fs path.1 = .ok found) :
    (∃ location, fs.resolve false (fs.absolute path.1) = .ok location ∧
      found = .ofLocation location) ∨
    ∃ pre name rest location error,
      (fs.absolute path.1).steps = pre ++ Step.name name :: rest.map .name ∧
      fs.walk false [] pre = .ok location ∧
      fs.walk false location [.name name] = .error error ∧
      found = .ofLocation (location ++ name :: rest) := by
  cases hresolve : fs.resolve false (fs.absolute path.1) with
  | ok location =>
    rw [canonicalizePolicyPath_of_resolve hresolve] at h
    exact .inl ⟨location, rfl, (Except.ok.inj h).symm⟩
  | error error =>
    have hplain : undotted (fs.absolute path.1).steps = (fs.absolute path.1).steps := by
      rcases undotted_absolute fs path with hcwd | hplain
      · exact nomatch hcwd.symm.trans hresolve
      · exact hplain
    rw [canonicalizePolicyPath_of_error hresolve, hplain] at h
    obtain ⟨pre, name, rest, location, hsteps, hpre, hfound, hrest⟩ := existingAncestor_ok h
    refine .inr ⟨pre, name, rest, location, ?_⟩
    rw [append_nil] at hfound
    by_cases hne : rest = []
    · subst hne
      rw [resolve_absolute_eq_walk, hsteps,
        FileSystem.walk_append false [] pre (by simp), hpre] at hresolve
      exact ⟨error, hsteps, hpre, hresolve, hfound⟩
    · obtain ⟨error, hname⟩ := hrest hne
      exact ⟨error, hsteps, hpre, hname, hfound⟩

theorem canonicalizePolicyPath_idem (h : canonicalizePolicyPath fs path.1 = .ok found) :
    canonicalizePolicyPath fs found.1 = .ok found := by
  rcases canonicalizePolicyPath_cases h with
    ⟨location, hresolve, rfl⟩ | ⟨pre, name, rest, location, error, -, hpre, hname, rfl⟩
  · rw [resolve_absolute_eq_walk] at hresolve
    exact canonicalizePolicyPath_of_resolve
      (resolve_ofLocation (walk_present hresolve) false)
  · have hlocation := walk_ofLocation (walk_present hpre) false
    have hsteps : (ofLocation (location ++ name :: rest)).1.steps =
        location.map .name ++ Step.name name :: rest.map .name := by
      simp [ofLocation]
    have hmissing : fs.resolve false
        (fs.absolute (ofLocation (location ++ name :: rest)).1) = .error error := by
      change fs.walk false [] (ofLocation (location ++ name :: rest)).1.steps = _
      rw [hsteps, FileSystem.walk_append false [] _ (by simp), hlocation]
      exact walk_cons_of_error hname _
    have habsolute : fs.absolute (ofLocation (location ++ name :: rest)).1 =
        (ofLocation (location ++ name :: rest)).1 := rfl
    rw [canonicalizePolicyPath_of_error hmissing, habsolute, (ofLocation _).2, hsteps,
      existingAncestor_eq hlocation hname rest [], append_nil]

theorem canonicalizePolicyPath_location {path : Path}
    (h : canonicalizePolicyPath fs path = .ok found) :
    ∃ location, found = .ofLocation location := by
  cases hresolve : fs.resolve false (fs.absolute path) with
  | ok location =>
    rw [canonicalizePolicyPath_of_resolve hresolve] at h
    exact ⟨location, (Except.ok.inj h).symm⟩
  | error error =>
    rw [canonicalizePolicyPath_of_error hresolve] at h
    obtain ⟨_, _, _, _, -, -, rfl, -⟩ := existingAncestor_ok h
    exact ⟨_, rfl⟩

variable {paths : List PlainPath}

@[simp] theorem mem_dedupPaths : path ∈ dedupPaths paths ↔ path ∈ paths :=
  mem_distinct_iff components_injective

@[simp] theorem mem_unionPaths : path ∈ unionPaths left right ↔ path ∈ left ∨ path ∈ right := by
  rw [unionPaths, mem_distinct_iff components_injective, mem_append]

@[simp] theorem dedupPaths_eq_nil : dedupPaths paths = [] ↔ paths = [] :=
  distinct_eq_nil

@[simp] theorem unionPaths_eq_nil : unionPaths left right = [] ↔ left = [] ∧ right = [] := by
  rw [unionPaths, distinct_eq_nil, append_eq_nil_iff]

variable {found : List PlainPath} {policy : SandboxPolicy}

section

variable (h : canonicalizePaths fs paths = .ok found)

include h

theorem canonicalizePaths_ok :
    ∃ canonical, paths.mapM (fun path => canonicalizePolicyPath fs path.1) = .ok canonical ∧
      found = dedupPaths canonical := by
  unfold canonicalizePaths at h
  cases hpaths : paths.mapM (fun path => canonicalizePolicyPath fs path.1) <;> rw [hpaths] at h <;>
    cases h
  exact ⟨_, rfl, rfl⟩

/-- **The canonical paths of a list of roots.** -/
theorem mem_canonicalizePaths :
    path ∈ found ↔ ∃ root ∈ paths, canonicalizePolicyPath fs root.1 = .ok path := by
  obtain ⟨canonical, hcanonical, rfl⟩ := canonicalizePaths_ok h
  rw [mem_dedupPaths, Proc.mem_except_mapM hcanonical]

theorem canonicalizePaths_eq_nil : found = [] ↔ paths = [] := by
  constructor
  · intro hnil
    by_contra hne
    obtain ⟨path, hpath⟩ := exists_mem_of_ne_nil _ hne
    obtain ⟨canonical, hcanonical, -⟩ := canonicalizePaths_ok h
    obtain ⟨q, -, hq⟩ := Proc.exists_of_except_mapM hcanonical hpath
    have hmem := (mem_canonicalizePaths h).mpr ⟨path, hpath, hq⟩
    rw [hnil] at hmem
    cases hmem
  · rintro rfl
    exact (Except.ok.inj h).symm

end

/-! ### Which accesses are allowed -/

/-- The location lies under one of the roots, in canonical form. -/
def Covers (fs : FileSystem) (roots : List PlainPath) (location : List FileName) : Prop :=
  ∃ root ∈ roots, ∃ place, canonicalizePolicyPath fs root.1 = .ok (.ofLocation place) ∧
    place <+: location

theorem covers_append :
    Covers fs (left ++ right) location ↔ Covers fs left location ∨ Covers fs right location := by
  simp only [Covers, mem_append, or_and_right, exists_or]

theorem covers_canonicalizePaths (h : canonicalizePaths fs paths = .ok found) :
    Covers fs found location ↔ Covers fs paths location := by
  constructor
  · rintro ⟨root, hroot, place, hplace, hunder⟩
    obtain ⟨path, hpath, hcanonical⟩ := (mem_canonicalizePaths h).mp hroot
    rw [canonicalizePolicyPath_idem hcanonical] at hplace
    cases hplace
    exact ⟨path, hpath, place, hcanonical, hunder⟩
  · rintro ⟨path, hpath, place, hcanonical, hunder⟩
    exact ⟨.ofLocation place, (mem_canonicalizePaths h).mpr ⟨path, hpath, hcanonical⟩, place,
      canonicalizePolicyPath_idem hcanonical, hunder⟩

theorem pathIsInsideAnyRoot_iff (h : canonicalizePaths fs paths = .ok found) :
    pathIsInsideAnyRoot (.ofLocation location) found = true ↔ Covers fs paths location := by
  simp only [pathIsInsideAnyRoot, any_eq_true]
  constructor
  · rintro ⟨root, hroot, hstarts⟩
    obtain ⟨path, hpath, hcanonical⟩ := (mem_canonicalizePaths h).mp hroot
    obtain ⟨place, rfl⟩ := canonicalizePolicyPath_location hcanonical
    exact ⟨path, hpath, place, hcanonical, startsWith_ofLocation.mp hstarts⟩
  · rintro ⟨path, hpath, place, hcanonical, hunder⟩
    exact ⟨.ofLocation place, (mem_canonicalizePaths h).mpr ⟨path, hpath, hcanonical⟩,
      startsWith_ofLocation.mpr hunder⟩

/-- The roots an access is checked against. -/
def rootsFor (filesystem : FilesystemPolicy) : FilesystemAccess → List PlainPath
  | .read => filesystem.writableRoots ++ filesystem.readableRoots ++ filesystem.executableRoots
  | .write => filesystem.writableRoots
  | .execute => filesystem.executableRoots

/-- With full access and no roots, reading and writing are unrestricted. -/
def Unrestricted (policy : SandboxPolicy) (access : FilesystemAccess) : Prop :=
  policy.mode = .dangerFullAccess ∧ access ≠ .execute ∧ rootsFor policy.filesystem access = []

/-- The policy allows the access at a location. -/
def Allows (fs : FileSystem) (policy : SandboxPolicy) (access : FilesystemAccess)
    (location : List FileName) : Prop :=
  ¬ (access = .write ∧ Covers fs policy.filesystem.protectedPaths location) ∧
    (Unrestricted policy access ∨ Covers fs (rootsFor policy.filesystem access) location)

theorem allows_write_iff :
    Allows fs policy .write location ↔ ¬ Covers fs policy.filesystem.protectedPaths location ∧
      (Unrestricted policy .write ∨ Covers fs policy.filesystem.writableRoots location) :=
  and_congr_left' (not_congr (and_iff_right rfl))

/-- What any of the roots covers may be read. -/
theorem allows_read_iff : Allows fs policy .read location ↔ Unrestricted policy .read ∨
      (Covers fs policy.filesystem.writableRoots location ∨
        Covers fs policy.filesystem.readableRoots location) ∨
      Covers fs policy.filesystem.executableRoots location := by
  rw [← covers_append, ← covers_append]
  exact and_iff_right fun hwrite => nomatch hwrite.1

theorem Allows.of_writable (h : Covers fs policy.filesystem.writableRoots location) :
    Allows fs policy .read location :=
  allows_read_iff.mpr (.inr (.inl (.inl h)))

theorem Allows.of_readable (h : Covers fs policy.filesystem.readableRoots location) :
    Allows fs policy .read location :=
  allows_read_iff.mpr (.inr (.inl (.inr h)))

theorem Allows.of_executable (h : Covers fs policy.filesystem.executableRoots location) :
    Allows fs policy .read location :=
  allows_read_iff.mpr (.inr (.inr h))

variable {canonical filesystem : FilesystemPolicy}

section

variable (h : canonicalizeFilesystemPolicy fs filesystem = .ok canonical)

include h

theorem canonicalizeFilesystemPolicy_ok :
    canonicalizePaths fs filesystem.readableRoots = .ok canonical.readableRoots ∧
      canonicalizePaths fs filesystem.writableRoots = .ok canonical.writableRoots ∧
      canonicalizePaths fs filesystem.executableRoots = .ok canonical.executableRoots ∧
      canonicalizePaths fs filesystem.protectedPaths = .ok canonical.protectedPaths := by
  obtain ⟨readable, hreadable, h⟩ := Proc.except_bind_eq_ok.mp h
  obtain ⟨writable, hwritable, h⟩ := Proc.except_bind_eq_ok.mp h
  obtain ⟨executable, hexecutable, h⟩ := Proc.except_bind_eq_ok.mp h
  obtain ⟨guarded, hguarded, h⟩ := Proc.except_bind_eq_ok.mp h
  cases h
  exact ⟨hreadable, hwritable, hexecutable, hguarded⟩

theorem covers_allowedRoots (access : FilesystemAccess) (location : List FileName) :
    pathIsInsideAnyRoot (.ofLocation location) (allowedRoots canonical access) = true ↔
      Covers fs (rootsFor filesystem access) location := by
  obtain ⟨hreadable, hwritable, hexecutable, -⟩ := canonicalizeFilesystemPolicy_ok h
  cases access with
  | write => exact pathIsInsideAnyRoot_iff hwritable
  | execute => exact pathIsInsideAnyRoot_iff hexecutable
  | read =>
    rw [rootsFor, covers_append, covers_append, ← pathIsInsideAnyRoot_iff hreadable,
      ← pathIsInsideAnyRoot_iff hwritable, ← pathIsInsideAnyRoot_iff hexecutable]
    simp only [allowedRoots, accessibleRootsForFilesystem, pathIsInsideAnyRoot,
      any_eq_true, mem_dedupPaths, mem_append, or_and_right, exists_or]

theorem allowedRoots_eq_nil (access : FilesystemAccess) :
    allowedRoots canonical access = [] ↔ rootsFor filesystem access = [] := by
  obtain ⟨hreadable, hwritable, hexecutable, -⟩ := canonicalizeFilesystemPolicy_ok h
  cases access with
  | write => exact canonicalizePaths_eq_nil hwritable
  | execute => exact canonicalizePaths_eq_nil hexecutable
  | read =>
    simp only [allowedRoots, accessibleRootsForFilesystem, rootsFor, dedupPaths_eq_nil,
      append_eq_nil_iff, canonicalizePaths_eq_nil hreadable,
      canonicalizePaths_eq_nil hwritable, canonicalizePaths_eq_nil hexecutable]

end

theorem filesystemAccessIsUnrestricted_iff
    (h : canonicalizeFilesystemPolicy fs policy.filesystem = .ok canonical)
    (access : FilesystemAccess) :
    filesystemAccessIsUnrestricted policy access (allowedRoots canonical access) = true ↔
      Unrestricted policy access := by
  simp only [filesystemAccessIsUnrestricted, Unrestricted, Bool.and_eq_true, List.isEmpty_iff,
    allowedRoots_eq_nil h]
  cases access <;> simp [and_comm]

/-- **Which accesses are allowed**: the policy has canonical paths and allows the canonical
place. -/
theorem assertFilesystemAccess_iff {path : Path} {access : FilesystemAccess} :
    assertFilesystemAccess fs policy path access = .ok () ↔
      (∃ canonical, canonicalizeFilesystemPolicy fs policy.filesystem = .ok canonical) ∧
        ∃ location, canonicalizePolicyPath fs path = .ok (.ofLocation location) ∧
          Allows fs policy access location := by
  cases hcanonical : canonicalizeFilesystemPolicy fs policy.filesystem with
  | error error =>
    simp only [assertFilesystemAccess, hcanonical]
    exact ⟨nofun, fun h => nomatch h.1⟩
  | ok canonical =>
    cases hpath : canonicalizePolicyPath fs path with
    | error error =>
      simp only [assertFilesystemAccess, hcanonical, hpath]
      exact ⟨nofun, fun h => nomatch h.2⟩
    | ok found =>
      obtain ⟨location, rfl⟩ := canonicalizePolicyPath_location hpath
      have hprotected : pathIsInsideAnyRoot (.ofLocation location) canonical.protectedPaths =
          true ↔ Covers fs policy.filesystem.protectedPaths location :=
        pathIsInsideAnyRoot_iff (canonicalizeFilesystemPolicy_ok hcanonical).2.2.2
      have hroots := covers_allowedRoots hcanonical access location
      have hunrestricted := filesystemAccessIsUnrestricted_iff hcanonical access
      have hplace : ∀ location', (.ok (.ofLocation location) :
          Except SandboxError PlainPath) = .ok (.ofLocation location') ↔ location' = location := by
        intro location'
        rw [Except.ok.injEq, ofLocation_injective.eq_iff, eq_comm]
      simp only [hplace, exists_eq_left, Allows, ← hprotected, ← hroots, ← hunrestricted,
        ← Bool.or_eq_true]
      simp only [assertFilesystemAccess, hcanonical, hpath, bind, Except.bind, pure, Except.pure]
      split
      next hdenied => simp [hdenied]
      next hopen =>
        split
        next hallowed => simp_all
        next hno => simp_all

end

end Nanoclaw
