import Nanoclaw.Lib.SortedMap
import Nanoclaw.Types.Path

/-!
# Sandbox Policies

A policy names the roots that may be read, written and executed, the paths protected from
writing, and what of the network may be reached. A path is checked in canonical form: what exists
is resolved by the system; of another path the longest ancestor that exists is resolved, and the
missing names are put behind it.
-/

namespace Nanoclaw

open SortedMap

/-! ### The file system -/

/-- The files as the process sees them. -/
structure FileSystem where
  tree : FileTree FileName String
  /-- The working directory. -/
  cwd : List FileName
  cwd_dir : tree.node cwd = some .dir
  /-- How deep links may be nested. -/
  nesting : ℕ

namespace FileSystem

/-- The location of a path, or with the flag that of a file to be made. -/
def resolve (fs : FileSystem) (create : Bool) (path : Path) :
    Except FileTree.Errno (List FileName) :=
  fs.tree.resolve (fs.nesting + 1) create fs.cwd path

/-- The path from the root; a relative one is joined to the working directory. -/
def absolute (fs : FileSystem) (path : Path) : Path :=
  if path.absolute then path
  else
    { absolute := true
      steps := fs.cwd.map .name ++ if path.steps.isEmpty then [.dot] else path.steps }

end FileSystem

/-! ### Policies -/

/-- How much a session may do. -/
inductive SandboxMode where
  | readOnly
  | workspaceWrite
  | dangerFullAccess
  deriving DecidableEq

/-- The roots of a policy are plain: a trailing separator of a root does not show. -/
structure FilesystemPolicy where
  readableRoots : List PlainPath := []
  writableRoots : List PlainPath := []
  executableRoots : List PlainPath := []
  protectedPaths : List PlainPath := []
  deriving DecidableEq

/-- The destinations that may be reached. -/
structure NetworkAllowlist where
  domains : List String
  cidrs : List String
  deriving DecidableEq

/-- Which part of the network may be reached. -/
inductive NetworkPolicy where
  | off
  | allowlist (allowlist : NetworkAllowlist)
  | full
  deriving DecidableEq

/-- The roots that the user granted. -/
structure GrantedFilesystemPermissions where
  readRoots : List PlainPath := []
  writeRoots : List PlainPath := []

/-- The part of the network that the user granted. -/
inductive GrantedNetworkPermissions where
  | allowlist (allowlist : NetworkAllowlist)
  | full

/-- What the user granted. -/
structure GrantedPermissionProfile where
  fileSystem : GrantedFilesystemPermissions := {}
  network : Option GrantedNetworkPermissions := none

/-- Whether the host may run a command without the sandbox. -/
inductive HostEscapePolicy where
  | deny
  | hostManaged
  deriving DecidableEq

/-- What is done to a file. -/
inductive FilesystemAccess where
  | read
  | write
  | execute
  deriving DecidableEq

/-- **What a tool may do.** -/
structure SandboxPolicy where
  mode : SandboxMode
  filesystem : FilesystemPolicy
  network : NetworkPolicy
  hostEscape : HostEscapePolicy
  failIfUnavailable : Bool
  deriving DecidableEq

variable (fs : FileSystem) (base : SandboxPolicy)

/-- The policy that allows everything. -/
def SandboxPolicy.permissive : SandboxPolicy where
  mode := .dangerFullAccess
  filesystem := {}
  network := .full
  hostEscape := .hostManaged
  failIfUnavailable := false

/-- Why a policy refuses, as a text. -/
inductive SandboxError where
  | invalidState (message : String)
  deriving DecidableEq

/-- The word for an access in a refusal. -/
def FilesystemAccess.action : FilesystemAccess → String
  | read => "read"
  | write => "write"
  | execute => "execute"

/-! ### Canonical paths -/

/-- The loop over the ancestors: reversed steps, and the names taken off. -/
def existingAncestor (absolute : Path) :
    List (FileTree.Step FileName) → List FileName → Except SandboxError PlainPath
  | .name name :: rest, suffix =>
    match fs.resolve false { absolute := true, steps := rest.reverse } with
    | .ok location => .ok (.ofLocation (location ++ name :: suffix))
    | .error _ => existingAncestor absolute rest (name :: suffix)
  | _, _ =>
    .error (.invalidState ("sandbox path " ++ absolute.display ++ " has no existing ancestor"))

/-- Where a path leads; what is missing stays as it is written. -/
def canonicalizePolicyPath (path : Path) : Except SandboxError PlainPath :=
  match fs.resolve false path with
  | .ok location => .ok (.ofLocation location)
  | .error _ =>
    let absolute := fs.absolute path
    match fs.resolve false absolute with
    | .ok location => .ok (.ofLocation location)
    | .error _ => existingAncestor fs absolute (FileTree.undotted absolute.steps).reverse []

/-- The paths through a `BTreeSet`: in order, each once. -/
def dedupPaths (paths : List PlainPath) : List PlainPath :=
  distinct PlainPath.components paths

/-- Both lists, in order, each path once. -/
def unionPaths (left right : List PlainPath) : List PlainPath :=
  distinct PlainPath.components (left ++ right)

/-- Both lists, in order, each text once. -/
def unionStrings (left right : List String) : List String :=
  distinct id (left ++ right)

/-- All paths canonical, or the first error. -/
def canonicalizePaths (paths : List PlainPath) : Except SandboxError (List PlainPath) :=
  (paths.mapM fun path => canonicalizePolicyPath fs path.1).map dedupPaths

/-- All roots of a policy canonical. -/
def canonicalizeFilesystemPolicy (policy : FilesystemPolicy) :
    Except SandboxError FilesystemPolicy := do
  let readableRoots ← canonicalizePaths fs policy.readableRoots
  let writableRoots ← canonicalizePaths fs policy.writableRoots
  let executableRoots ← canonicalizePaths fs policy.executableRoots
  let protectedPaths ← canonicalizePaths fs policy.protectedPaths
  return { readableRoots, writableRoots, executableRoots, protectedPaths }

/-! ### Access -/

/-- Names are compared as wholes. -/
def pathIsInsideAnyRoot (path : PlainPath) (roots : List PlainPath) : Bool :=
  roots.any path.startsWith

/-- What may be written or executed may be read. -/
def accessibleRootsForFilesystem (filesystem : FilesystemPolicy) : List PlainPath :=
  dedupPaths (filesystem.writableRoots ++ filesystem.readableRoots ++ filesystem.executableRoots)

/-- Full access without roots leaves only execution restricted. -/
def filesystemAccessIsUnrestricted (policy : SandboxPolicy) (access : FilesystemAccess)
    (allowedRoots : List PlainPath) : Bool :=
  allowedRoots.isEmpty && policy.mode == .dangerFullAccess &&
    match access with
    | .read | .write => true
    | .execute => false

/-- The roots that an access needs. -/
def allowedRoots (filesystem : FilesystemPolicy) : FilesystemAccess → List PlainPath
  | .read => accessibleRootsForFilesystem filesystem
  | .write => filesystem.writableRoots
  | .execute => filesystem.executableRoots

/-- **The check of one access.** -/
def assertFilesystemAccess (policy : SandboxPolicy) (path : Path)
    (access : FilesystemAccess) : Except SandboxError Unit := do
  let filesystem ← canonicalizeFilesystemPolicy fs policy.filesystem
  let path ← canonicalizePolicyPath fs path
  if access = .write ∧ pathIsInsideAnyRoot path filesystem.protectedPaths then
    throw (.invalidState ("sandbox denies write access to protected path " ++ path.display))
  let roots := allowedRoots filesystem access
  if filesystemAccessIsUnrestricted policy access roots || pathIsInsideAnyRoot path roots then
    return ()
  throw (.invalidState ("sandbox denies " ++ access.action ++ " access to " ++ path.display ++
    "; allowed roots: [" ++ ", ".intercalate (roots.map PlainPath.display) ++ "]"))

/-! ### Grants -/

/-- No root is granted. -/
def GrantedFilesystemPermissions.isEmpty (granted : GrantedFilesystemPermissions) : Bool :=
  granted.readRoots.isEmpty && granted.writeRoots.isEmpty

/-- Nothing is granted. -/
def GrantedPermissionProfile.isEmpty (granted : GrantedPermissionProfile) : Bool :=
  granted.fileSystem.isEmpty && granted.network.isNone

/-- All granted roots canonical. -/
def canonicalizeGrantedFilesystemPermissions (permissions : GrantedFilesystemPermissions) :
    Except SandboxError GrantedFilesystemPermissions := do
  let readRoots ← canonicalizePaths fs permissions.readRoots
  let writeRoots ← canonicalizePaths fs permissions.writeRoots
  return { readRoots, writeRoots }

/-- Writable roots lift a read-only mode. -/
def widenedMode (writableRoots : List PlainPath) : SandboxMode :=
  match base.mode with
  | .dangerFullAccess => .dangerFullAccess
  | .workspaceWrite => .workspaceWrite
  | .readOnly => if writableRoots.isEmpty then .readOnly else .workspaceWrite

/-- Roots that are writable are granted for reading too. -/
def widenReadRoots (current : List PlainPath)
    (granted : GrantedFilesystemPermissions) : List PlainPath :=
  if base.mode = .dangerFullAccess ∧ current.isEmpty then []
  else unionPaths current (unionPaths granted.readRoots granted.writeRoots)

/-- Full access without roots gets none, to stay full. -/
def widenWriteRoots (current : List PlainPath)
    (granted : GrantedFilesystemPermissions) : List PlainPath :=
  if base.mode = .dangerFullAccess ∧ current.isEmpty then []
  else unionPaths current granted.writeRoots

/-- Both allowlists. -/
def mergeNetworkAllowlists (left right : NetworkAllowlist) : NetworkAllowlist where
  domains := unionStrings left.domains right.domains
  cidrs := unionStrings left.cidrs right.cidrs

/-- The wider one of policy and grant, or both allowlists. -/
def widenNetworkPolicy (granted : Option GrantedNetworkPermissions) : NetworkPolicy :=
  match base.network, granted with
  | .full, _ => .full
  | policy, none => policy
  | _, some .full => .full
  | .off, some (.allowlist allowlist) => .allowlist allowlist
  | .allowlist existing, some (.allowlist allowlist) =>
    .allowlist (mergeNetworkAllowlists existing allowlist)

/-- **A policy widened by a grant.** -/
def applyGrantedPermissionProfile (base : SandboxPolicy)
    (granted : GrantedPermissionProfile) : Except SandboxError SandboxPolicy := do
  if granted.isEmpty then return base
  let filesystem ← canonicalizeFilesystemPolicy fs base.filesystem
  let grantedFilesystem ← canonicalizeGrantedFilesystemPermissions fs granted.fileSystem
  let writableRoots := widenWriteRoots base filesystem.writableRoots grantedFilesystem
  return {
    mode := widenedMode base writableRoots
    filesystem := {
      readableRoots := widenReadRoots base filesystem.readableRoots grantedFilesystem
      writableRoots
      executableRoots := filesystem.executableRoots
      protectedPaths := filesystem.protectedPaths }
    network := widenNetworkPolicy base granted.network
    hostEscape := base.hostEscape
    failIfUnavailable := base.failIfUnavailable }

end Nanoclaw
