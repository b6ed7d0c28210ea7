import Nanoclaw.Backend.SessionResume
import Nanoclaw.Backend.Worktree
import Nanoclaw.Runtime.CallPairing
import Nanoclaw.Backend.Coordinator
import Nanoclaw.Backend.Checkpoint
import Nanoclaw.Subagent.InputDelivery
import Nanoclaw.Subagent.LeaseHolding
import Nanoclaw.Sandbox.Confinement
import Nanoclaw.Tools.PatchRefinement
import Nanoclaw.Store.ViewAgreement
import Nanoclaw.Subagent.Continuity
import Nanoclaw.Store.CrashRecovery
import Nanoclaw.Store.SearchAgreement
import Nanoclaw.Store.TokenAccounting
import Nanoclaw.Runtime.ControlPlane
import Nanoclaw.Subagent.Scheduling
import Nanoclaw.Subagent.SpawnFailure
import Nanoclaw.Tools.PatchGrammar
import Nanoclaw.Runtime.ToolRound
import Nanoclaw.Sandbox.PluginSandbox
import Nanoclaw.Tools.WebHost
import Nanoclaw.Tools.CustomTool
import Nanoclaw.Provider.EarlyFailure
import Nanoclaw.Provider.Resend
import Nanoclaw.Runtime.CompactionSplit
import Nanoclaw.Sandbox.DomainAllowlist
import Nanoclaw.Runtime.ShellApproval
import Nanoclaw.Tools.WorkspaceWatch
import Nanoclaw.Tools.FileUri
import Nanoclaw.Tools.DocumentBlocks
import Nanoclaw.Tools.DiffPreview
import Nanoclaw.Memory.LineWindow
