import Nanoclaw.Lib.System
import Nanoclaw.Sandbox.HookSandbox

/-!
# The Worktree and the Permission Mode of a Session

Entering and exiting a worktree and switching the permission mode write to the tool context that
all tools share. An exit goes back to the primary worktree whichever worktree it removes. An
activated worktree gets the policy recommended for its root, also in a read-only session, and the
default mode brings back the policy of the primary root.

Git and the log are taken to succeed, and identifiers to be new.
-/

namespace Nanoclaw.Worktree

/-! ### Policies -/

inductive AgentSandboxMode where
  | dangerFullAccess
  | workspaceWrite
  | readOnly

inductive SessionPermissionMode where
  | default
  | dangerFullAccess

structure AppOptions where
  workspaceRoot : PlainPath
  workspaceOnly : Bool
  /-- The sandbox of the primary profile. -/
  sandbox : AgentSandboxMode
  sandboxFailIfUnavailable : Bool

def withFailIfUnavailable (failIfUnavailable : Bool) (policy : SandboxPolicy) : SandboxPolicy :=
  { policy with failIfUnavailable }

/-- `build_tool_context` for a workspace root. -/
def buildToolContext (options : AppOptions) (root : PlainPath) : SandboxScope where
  workspaceRoot := root
  worktreeRoot := some root
  workspaceOnly := options.workspaceOnly

def buildSandboxPolicy (options : AppOptions) (scope : SandboxScope) : SandboxPolicy :=
  let base := scope.recommendedPolicy
  match options.sandbox with
  | .dangerFullAccess => withFailIfUnavailable options.sandboxFailIfUnavailable .permissive
  | .workspaceWrite => withFailIfUnavailable options.sandboxFailIfUnavailable base
  | .readOnly =>
    { mode := .readOnly
      filesystem := { base.filesystem with writableRoots := [] }
      network := match base.network with | .full => .off | other => other
      hostEscape := .deny
      failIfUnavailable := options.sandboxFailIfUnavailable }

def sandboxPolicyForMode (defaultSandboxPolicy : SandboxPolicy) :
    SessionPermissionMode → SandboxPolicy
  | .default => defaultSandboxPolicy
  | .dangerFullAccess => withFailIfUnavailable defaultSandboxPolicy.failIfUnavailable .permissive

/-- The policy of a mode for a root. -/
def policyFor (options : AppOptions) (root : PlainPath) : SessionPermissionMode → SandboxPolicy :=
  sandboxPolicyForMode (buildSandboxPolicy options (buildToolContext options root))

/-! ### Worktrees -/

inductive WorktreeId where
  /-- `PRIMARY_WORKTREE_ID`. -/
  | primary
  | worktree (opaqueId : ℕ)
  deriving DecidableEq

inductive WorktreeScope where
  | session
  | childAgent
  deriving DecidableEq

inductive WorktreeStatus where
  | active
  | inactive
  | removed
  deriving DecidableEq

structure WorktreeSummaryRecord where
  scope : WorktreeScope
  status : WorktreeStatus
  root : PlainPath

structure ToolContext where
  scope : SandboxScope
  activeWorktreeId : WorktreeId
  sandboxPolicy : SandboxPolicy

structure Session where
  permissionMode : SessionPermissionMode
  context : ToolContext
  currentWorktreeId : WorktreeId
  entries : WorktreeId → Option WorktreeSummaryRecord

/-- The policy for an activated worktree. -/
def activePolicy (previousPolicy : SandboxPolicy) (scope : SandboxScope) : SandboxPolicy :=
  withFailIfUnavailable previousPolicy.failIfUnavailable
    (if previousPolicy.mode = .dangerFullAccess then .permissive else scope.recommendedPolicy)

def applyActiveContext (id : WorktreeId) (root : PlainPath) (context : ToolContext) : ToolContext :=
  let scope := { context.scope with workspaceRoot := root, worktreeRoot := some root }
  ⟨scope, id, activePolicy context.sandboxPolicy scope⟩

section

variable (options : AppOptions)

def primarySummary (status : WorktreeStatus) : WorktreeSummaryRecord :=
  ⟨.session, status, options.workspaceRoot⟩

def boot : Session where
  permissionMode := .default
  context :=
    { scope := buildToolContext options options.workspaceRoot
      activeWorktreeId := .primary
      sandboxPolicy := policyFor options options.workspaceRoot .default }
  currentWorktreeId := .primary
  entries
    | .primary => some (primarySummary options .active)
    | .worktree _ => none

namespace Session

variable (id : WorktreeId)

def insert (summary : WorktreeSummaryRecord) (s : Session) : Session :=
  { s with entries := Function.update s.entries id (some summary) }

/-- The session turns to a worktree. -/
def activate (summary : WorktreeSummaryRecord) (s : Session) : Session :=
  { s.insert id summary with
    currentWorktreeId := id
    context := applyActiveContext id summary.root s.context }

def removeSessionWorktree (summary : WorktreeSummaryRecord) (s : Session) : Except String Session :=
  if id = .primary then .error "cannot remove the primary worktree"
  else .ok ((s.insert id { summary with status := .removed }).activate .primary
    (primarySummary options .active))

def removeActiveNonPrimaryIfNeeded (s : Session) : Except String Session :=
  if s.currentWorktreeId = .primary then .ok s
  else match s.entries s.currentWorktreeId with
    | none => .error "missing current worktree state"
    | some summary => s.removeSessionWorktree options s.currentWorktreeId summary

def enterWorktree (root : PlainPath) (s : Session) : Except String Session :=
  (s.removeActiveNonPrimaryIfNeeded options).map fun s =>
    let primary := (s.entries .primary).getD (primarySummary options .inactive)
    (s.insert .primary { primary with status := .inactive }).activate id ⟨.session, .active, root⟩

def exitWorktree (id : Option WorktreeId) (s : Session) : Except String Session :=
  let target := id.getD s.currentWorktreeId
  match s.entries target with
  | none => .error "unknown worktree id"
  | some summary => s.removeSessionWorktree options target summary

def createChildWorktree (root : PlainPath) (s : Session) : Session :=
  s.insert id ⟨.childAgent, .active, root⟩

def releaseChildWorktree (s : Session) : Except String Session :=
  match s.entries id with
  | none => .ok s
  | some summary =>
    if summary.scope ≠ .childAgent then .error "not a child-agent worktree"
    else if summary.status = .removed then .ok s
    else .ok (s.insert id { summary with status := .removed })

def setPermissionMode (mode : SessionPermissionMode) (s : Session) : Session :=
  { s with
    permissionMode := mode
    context := { s.context with sandboxPolicy := policyFor options options.workspaceRoot mode } }

end Session

inductive Action where
  | enter (opaqueId : ℕ) (root : PlainPath)
  | exit (id : Option WorktreeId)
  | createChild (opaqueId : ℕ) (root : PlainPath)
  | releaseChild (id : WorktreeId)
  | setPermissionMode (mode : SessionPermissionMode)

/-- Operations that fail or use an old identifier are left out. -/
def step (s : Session) : Action → Session
  | .enter opaqueId root =>
    if (s.entries (.worktree opaqueId)).isSome then s
    else (s.enterWorktree options (.worktree opaqueId) root).toOption.getD s
  | .exit id => (s.exitWorktree options id).toOption.getD s
  | .createChild opaqueId root =>
    if (s.entries (.worktree opaqueId)).isSome then s
    else s.createChildWorktree (.worktree opaqueId) root
  | .releaseChild id => (s.releaseChildWorktree id).toOption.getD s
  | .setPermissionMode mode => s.setPermissionMode options mode

end

variable {options : AppOptions} {s s' : Session} {id : WorktreeId}
  {summary : WorktreeSummaryRecord} {action : Action}

/-! ### The policy of the mode and the worktree -/

/-- **The tool context follows mode and worktree**: it has the root of the current worktree and the
policy of the mode for it. -/
def Follows (options : AppOptions) (s : Session) : Prop :=
  ∃ summary, s.entries s.currentWorktreeId = some summary ∧
    s.context = ⟨buildToolContext options summary.root, s.currentWorktreeId,
      policyFor options summary.root s.permissionMode⟩

/-- No read-only policy is in force. -/
def Writes (options : AppOptions) (s : Session) : Prop :=
  s.permissionMode = .dangerFullAccess ∨ options.sandbox ≠ .readOnly

/-- **The condition on a step**: no enter or exit under a read-only policy, and the default mode is
set in the primary worktree only, if its policy has roots. -/
def KeepsPolicy (options : AppOptions) (s : Session) : Action → Prop
  | .enter _ _ | .exit _ => Writes options s
  | .setPermissionMode mode => mode = .dangerFullAccess ∨
      options.sandbox = .dangerFullAccess ∨ options.workspaceOnly = false ∨
      s.context.scope.workspaceRoot = options.workspaceRoot
  | _ => True

theorem activePolicy_policyFor (h : Writes options s) (root root' : PlainPath) :
    activePolicy (policyFor options root s.permissionMode) (buildToolContext options root') =
      policyFor options root' s.permissionMode := by
  rw [Writes] at h
  generalize s.permissionMode = mode at h
  obtain ⟨_, workspaceOnly, sandbox, _⟩ := options
  cases mode <;> cases sandbox <;> cases workspaceOnly <;>
    first
      | rfl
      | exact absurd rfl (h.resolve_left nofun)

theorem policyFor_of_rootless {mode : SessionPermissionMode}
    (h : mode = .dangerFullAccess ∨ options.sandbox = .dangerFullAccess ∨
      options.workspaceOnly = false) (root root' : PlainPath) :
    policyFor options root mode = policyFor options root' mode := by
  obtain ⟨_, workspaceOnly, sandbox, _⟩ := options
  cases mode <;> cases sandbox <;> cases workspaceOnly <;>
    first
      | rfl
      | exact absurd h (by simp)

section

variable (h : Follows options s)

include h

theorem Follows.activated (hwrites : Writes options s)
    (id' : WorktreeId) (summary' : WorktreeSummaryRecord) :
    Follows options ((s.insert id summary).activate id' summary') := by
  obtain ⟨_, -, hcontext⟩ := h
  refine ⟨summary', Function.update_self id' _ _, ?_⟩
  change applyActiveContext id' summary'.root s.context = _
  rw [hcontext]
  exact congrArg (ToolContext.mk _ _) (activePolicy_policyFor hwrites _ _)

theorem Follows.removed (hwrites : Writes options s)
    (hremove : s.removeSessionWorktree options id summary = .ok s') :
    Follows options s' ∧ s'.permissionMode = s.permissionMode := by
  rw [Session.removeSessionWorktree] at hremove
  split at hremove
  · cases hremove
  · cases hremove
    exact ⟨h.activated hwrites _ _, rfl⟩

theorem Follows.insert (hroot : ∀ old, s.entries id = some old → summary.root = old.root) :
    Follows options (s.insert id summary) := by
  obtain ⟨current, hcurrent, hcontext⟩ := h
  by_cases hid : s.currentWorktreeId = id
  · subst hid
    refine ⟨summary, Function.update_self _ _ _, ?_⟩
    rw [hroot current hcurrent]
    exact hcontext
  · exact ⟨current, (Function.update_of_ne hid _ _).trans hcurrent, hcontext⟩

theorem Follows.step
    (hC : KeepsPolicy options s action) : Follows options (step options s action) := by
  cases action with
  | enter opaqueId root =>
    rw [Worktree.step]
    split
    · exact h
    rw [Session.enterWorktree]
    cases hremove : s.removeActiveNonPrimaryIfNeeded options with
    | error => exact h
    | ok s' =>
      have hs' : Follows options s' ∧ s'.permissionMode = s.permissionMode := by
        rw [Session.removeActiveNonPrimaryIfNeeded] at hremove
        split at hremove
        · cases hremove
          exact ⟨h, rfl⟩
        · split at hremove
          · cases hremove
          · exact h.removed hC hremove
      exact hs'.1.activated (hC.imp_left hs'.2.trans) _ _
  | exit id =>
    rw [Worktree.step, Session.exitWorktree]
    split
    · exact h
    · cases hremove : s.removeSessionWorktree options _ _ with
      | error => exact h
      | ok s' => exact (h.removed hC hremove).1
  | createChild opaqueId root =>
    rw [Worktree.step]
    split
    · exact h
    next hnew => exact h.insert fun old hold => absurd (hold ▸ rfl) hnew
  | releaseChild id =>
    rw [Worktree.step, Session.releaseChildWorktree]
    split
    · exact h
    next summary hsummary =>
      split
      · exact h
      · split
        · exact h
        · refine h.insert fun old hold => ?_
          cases hsummary.symm.trans hold
          rfl
  | setPermissionMode mode =>
    obtain ⟨summary, hcurrent, hcontext⟩ := h
    have hpolicy : policyFor options options.workspaceRoot mode =
        policyFor options summary.root mode := by
      rcases hC with hmode | hsandbox | honly | hroot
      · exact policyFor_of_rootless (.inl hmode) _ _
      · exact policyFor_of_rootless (.inr (.inl hsandbox)) _ _
      · exact policyFor_of_rootless (.inr (.inr honly)) _ _
      · rw [← hroot, hcontext]
        rfl
    refine ⟨summary, hcurrent, ?_⟩
    rw [Worktree.step, Session.setPermissionMode, hcontext, hpolicy]

end

/-- **The policy follows mode and worktree** in every run whose steps meet the condition. -/
theorem policy_follows_mode_and_worktree (options : AppOptions) (actions : List Action)
    (h : System.Meets (step options) (KeepsPolicy options) (boot options) actions) :
    Follows options (System.run (step options) (boot options) actions) :=
  h.run (fun _ _ h hC => h.step hC) ⟨primarySummary options .active, rfl, rfl⟩

/-- A session in the directory `/r`. -/
def sessionOptions (sandbox : AgentSandboxMode) : AppOptions where
  workspaceRoot := .ofLocation [⟨"r", rfl⟩]
  workspaceOnly := true
  sandbox
  sandboxFailIfUnavailable := false

/-- The root of another worktree. -/
def otherRoot : PlainPath := .ofLocation [⟨"w", rfl⟩]

/-- A worktree is entered and exited, and the mode is switched and back. -/
theorem policy_follows_mode_and_worktree_back :
    Follows (sessionOptions .workspaceWrite) (System.run (step (sessionOptions .workspaceWrite))
      (boot (sessionOptions .workspaceWrite)) [.enter 0 otherRoot, .exit none,
        .setPermissionMode .dangerFullAccess, .setPermissionMode .default]) :=
  policy_follows_mode_and_worktree _ _
    ⟨.inr nofun, .inr nofun, .inl rfl, .inr (.inr (.inr rfl)), trivial⟩

/-- **A read-only session enters a worktree** and may write there. -/
theorem entering_lifts_read_only :
    ¬ Follows (sessionOptions .readOnly) (System.run (step (sessionOptions .readOnly))
      (boot (sessionOptions .readOnly)) [.enter 0 otherRoot]) := by
  rintro ⟨summary, -, hcontext⟩
  exact absurd (congrArg (·.sandboxPolicy.mode) hcontext) nofun

/-! ### One active worktree -/

/-- **One active worktree**: the current one, and the tools work in it. -/
structure OneActive (s : Session) : Prop where
  current : ∃ summary, s.entries s.currentWorktreeId = some summary ∧ summary.scope = .session ∧
    summary.status = .active ∧ s.context.scope.workspaceRoot = summary.root
  only : ∀ id summary, s.entries id = some summary → summary.scope = .session →
    summary.status = .active → id = s.currentWorktreeId

/-- **The condition on an exit**: it names the current worktree, or is made from the primary one in
a session that is not read-only. -/
def NamesCurrent (options : AppOptions) (s : Session) : Action → Prop
  | .exit id => id.getD s.currentWorktreeId = s.currentWorktreeId ∨
      s.currentWorktreeId = .primary ∧ options.sandbox ≠ .readOnly
  | .setPermissionMode _ => False
  | _ => True

/-- Besides, the tools work in the workspace while the primary worktree is current. -/
structure Kept (options : AppOptions) (s : Session) : Prop extends OneActive s where
  home : s.currentWorktreeId = .primary → s.context.scope.workspaceRoot = options.workspaceRoot

section

variable (h : Kept options s)

include h

/-- The current worktree is put aside or taken again; the session turns to `id'`. -/
theorem Kept.activated {id' : WorktreeId}
    {summary' : WorktreeSummaryRecord} (haside : summary.status ≠ .active)
    (hcurrent : s.currentWorktreeId = id ∨ s.currentWorktreeId = id')
    (hscope' : summary'.scope = .session) (hstatus' : summary'.status = .active)
    (hroot : id' = .primary → summary'.root = options.workspaceRoot) :
    Kept options ((s.insert id summary).activate id' summary') := by
  refine ⟨⟨⟨summary', Function.update_self id' _ _, hscope', hstatus', rfl⟩,
    fun j other hj hscope hstatus => ?_⟩, hroot⟩
  by_contra hne
  replace hj := (Function.update_of_ne hne _ _).symm.trans hj
  by_cases hid : j = id
  · subst hid
    cases (Function.update_self j _ _).symm.trans hj
    exact haside hstatus
  · have hj := h.only j other ((Function.update_of_ne hid _ _).symm.trans hj) hscope hstatus
    exact hcurrent.elim (fun heq => hid (hj.trans heq)) fun heq => hne (hj.trans heq)

/-- A removal leads back to the primary worktree. -/
theorem Kept.removed (hid : s.currentWorktreeId = id ∨ s.currentWorktreeId = .primary)
    (hremove : s.removeSessionWorktree options id summary = .ok s') :
    Kept options s' ∧ s'.currentWorktreeId = .primary := by
  rw [Session.removeSessionWorktree] at hremove
  split at hremove
  · cases hremove
  · cases hremove
    exact ⟨h.activated nofun hid rfl rfl fun _ => rfl, rfl⟩

theorem Kept.insert (hid : s.currentWorktreeId ≠ id)
    (hscope : summary.scope = .childAgent) : Kept options (s.insert id summary) := by
  obtain ⟨current, hcurrent, hactive⟩ := h.current
  refine ⟨⟨⟨current, (Function.update_of_ne hid _ _).trans hcurrent, hactive⟩,
    fun j other hj hsession => ?_⟩, h.home⟩
  by_cases hj' : j = id
  · subst hj'
    cases (Function.update_self j _ _).symm.trans hj
    cases hscope.symm.trans hsession
  · exact h.only j other ((Function.update_of_ne hj' _ _).symm.trans hj) hsession

theorem Kept.step (hC : NamesCurrent options s action) : Kept options (step options s action) := by
  obtain ⟨current, hcurrent, hsession, -⟩ := h.current
  cases action with
  | enter opaqueId root =>
    rw [Worktree.step]
    split
    · exact h
    rw [Session.enterWorktree]
    cases hremove : s.removeActiveNonPrimaryIfNeeded options with
    | error => exact h
    | ok s' =>
      have hs' : Kept options s' ∧ s'.currentWorktreeId = .primary := by
        rw [Session.removeActiveNonPrimaryIfNeeded, hcurrent] at hremove
        split at hremove
        next hprimary =>
          cases hremove
          exact ⟨h, hprimary⟩
        · exact h.removed (.inl rfl) hremove
      exact hs'.1.activated nofun (.inl hs'.2) rfl rfl nofun
  | exit id =>
    rw [Worktree.step, Session.exitWorktree]
    split
    · exact h
    · cases hremove : s.removeSessionWorktree options _ _ with
      | error => exact h
      | ok s' => exact (h.removed (hC.imp Eq.symm And.left) hremove).1
  | createChild opaqueId root =>
    rw [Worktree.step]
    split
    · exact h
    next hnew => exact h.insert (fun heq => hnew (by rw [← heq, hcurrent]; rfl)) rfl
  | releaseChild id =>
    rw [Worktree.step, Session.releaseChildWorktree]
    split
    · exact h
    next summary hsummary =>
      split
      · exact h
      next hchild =>
        split
        · exact h
        · refine h.insert (fun heq => hchild ?_) (not_not.mp hchild)
          rw [← heq, hcurrent] at hsummary
          cases hsummary
          rw [hsession]
          nofun
  | setPermissionMode mode => exact hC.elim

end

theorem kept_boot (options : AppOptions) : Kept options (boot options) where
  current := ⟨primarySummary options .active, rfl, rfl, rfl, rfl⟩
  only
    | .primary, _, _, _, _ => rfl
  home _ := rfl

/-- **One active worktree**, if exits meet the condition; the others change neither it nor the tool
context. -/
theorem one_active_worktree (options : AppOptions) (actions : List Action)
    (h : System.Meets (step options) (NamesCurrent options) (boot options) actions) :
    OneActive (System.run (step options) (boot options) actions) ∧
    ∀ s id, s = System.run (step options) (boot options) actions → id ≠ s.currentWorktreeId →
      NamesCurrent options s (.exit (some id)) →
      (step options s (.exit (some id))).currentWorktreeId = s.currentWorktreeId ∧
        (step options s (.exit (some id))).context = s.context := by
  have hrun := h.run
    (I := fun s => Kept options s ∧ (options.sandbox ≠ .readOnly → Follows options s))
    (fun s action hs hC => ⟨hs.1.step hC, fun hwrites => (hs.2 hwrites).step ?_⟩)
    ⟨kept_boot options, fun _ => ⟨primarySummary options .active, rfl, rfl⟩⟩
  · generalize System.run _ _ actions = s at hrun ⊢
    refine ⟨hrun.1.toOneActive, ?_⟩
    rintro s id rfl hne hC
    obtain ⟨hprimary, hwrites⟩ := hC.resolve_left hne
    obtain ⟨summary, -, hcontext⟩ := hrun.2 hwrites
    have hroot := hrun.1.home hprimary
    rw [step, Session.exitWorktree]
    split
    · exact ⟨rfl, rfl⟩
    · rw [Session.removeSessionWorktree]
      split
      · exact ⟨rfl, rfl⟩
      · refine ⟨hprimary.symm, ?_⟩
        change applyActiveContext .primary options.workspaceRoot s.context = s.context
        rw [← hroot, ← hprimary, hcontext]
        exact congrArg (ToolContext.mk _ _) (activePolicy_policyFor (.inr hwrites) _ _)
  · cases action with
    | enter | exit => exact .inr hwrites
    | setPermissionMode => exact hC.elim
    | _ => trivial

/-- A worktree is entered and exited, and then one of a child. -/
theorem one_active_worktree_exited : OneActive (System.run (step (sessionOptions .workspaceWrite))
      (boot (sessionOptions .workspaceWrite)) [.enter 0 otherRoot, .exit none,
        .createChild 1 otherRoot, .exit (some (.worktree 1))]) :=
  And.left <| one_active_worktree _ _ ⟨trivial, .inl rfl, trivial, .inr ⟨rfl, nofun⟩, trivial⟩

/-- **The worktree of a child is exited** while another one is current: two are active then. -/
theorem exit_of_child_activates_primary :
    ¬ OneActive (System.run (step (sessionOptions .workspaceWrite))
      (boot (sessionOptions .workspaceWrite)) [.enter 0 otherRoot,
        .createChild 1 otherRoot, .exit (some (.worktree 1))]) :=
  fun h => nomatch h.only (.worktree 0) _ rfl rfl rfl

end Nanoclaw.Worktree
