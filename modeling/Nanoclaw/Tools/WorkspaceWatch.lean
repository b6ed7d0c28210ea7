import Mathlib.Data.String.Basic
import Nanoclaw.Lib.OrdMap

/-!
# Watched Files

The watcher collects the events of a debounce window and merges those of one path into one.
Merging forgets the order: a deletion outweighs what comes after it, so a file that is deleted
and created again, as editors do on saving, is closed in every session that tracks it.
-/

namespace Nanoclaw.Lsp

open List

inductive WorkspaceWatchEvent where
  | created
  | changed
  | deleted
  deriving DecidableEq

namespace WorkspaceWatchEvent

def merge : WorkspaceWatchEvent → WorkspaceWatchEvent → WorkspaceWatchEvent
  | .deleted, _ => .deleted
  | _, .deleted => .deleted
  | .created, _ => .created
  | _, .created => .created
  | .changed, .changed => .changed

/-- **A deletion outweighs everything**, before it and after it. -/
theorem foldl_merge_eq_deleted (first : WorkspaceWatchEvent) (later : List WorkspaceWatchEvent) :
    later.foldl merge first = .deleted ↔ .deleted ∈ first :: later := by
  induction later generalizing first with
  | nil => simp [eq_comm]
  | cons next later ih =>
    have hmerge : first.merge next = .deleted ↔ first = .deleted ∨ next = .deleted := by
      cases first <;> cases next <;> decide
    rw [foldl_cons, ih, mem_cons, mem_cons, mem_cons, eq_comm, hmerge, or_assoc, eq_comm,
      eq_comm (a := next)]

end WorkspaceWatchEvent

variable (excluded : String → Bool) (events : List (String × WorkspaceWatchEvent)) (path : String)

/-- What is pending when the window closes; `excluded` is `should_exclude_workspace_path`. -/
def pending : OrdMap String WorkspaceWatchEvent :=
  (events.filter fun event => !excluded event.1).foldl (fun pending event =>
    pending.alter event.1 fun existing =>
      some (existing.elim event.2 (·.merge event.2))) .empty

/-- The events of a path. -/
def eventsOf : List WorkspaceWatchEvent :=
  ((events.filter fun event => !excluded event.1).filter fun event =>
    decide (event.1 = path)).map Prod.snd

/-- A session that is ready, as far as the watcher asks it. -/
structure LspSession where
  isDocumentOpen : String → Bool
  shouldTrackWorkspacePath : String → WorkspaceWatchEvent → Bool
  /-- `should_preload_path` or `is_high_priority_file`. -/
  preloads : String → Bool

/-- What a session is asked to do with the document of a path. -/
inductive DocumentRequest where
  | syncDocumentFromDisk
  | closeDocument
  | openDocumentPath
  | notifyWatchedFile (kind : WorkspaceWatchEvent)
  deriving DecidableEq

/-- What the sessions are asked to do; `isFile` says that there is a file at the path. -/
def handleWorkspaceWatchEvent (sessions : List LspSession) (isFile : String → Bool)
    (kind : WorkspaceWatchEvent) : List DocumentRequest :=
  if kind ≠ .deleted ∧ isFile path = false then []
  else (sessions.filter (·.shouldTrackWorkspacePath path kind)).flatMap fun session =>
    (match kind with
    | .changed => if session.isDocumentOpen path then [.syncDocumentFromDisk] else []
    | .deleted => [.closeDocument]
    | .created => if session.preloads path then [.openDocumentPath] else []) ++
      [.notifyWatchedFile kind]

variable {excluded events path}

theorem get_pending : (pending excluded events).get path = match eventsOf excluded events path with
    | [] => none
    | first :: later => some (later.foldl WorkspaceWatchEvent.merge first) := by
  rw [pending, OrdMap.get_foldl_alter Prod.fst, eventsOf]
  cases (events.filter fun event => !excluded event.1).filter _ with
  | nil => rfl
  | cons first later =>
    simp only [foldl_cons, map_cons, foldl_map]
    exact foldl_hom some (fun _ _ => rfl)

/-- **The last event decides** what is reported deleted exactly if no such path is there again. -/
theorem merged_is_last_deletion_iff (excluded isFile : String → Bool) (path : String)
    (events : List (String × WorkspaceWatchEvent)) (sessions : List LspSession) :
    (∀ kind, (pending excluded events).get path = some kind →
      (kind = .deleted ↔ (eventsOf excluded events path).getLast? = some .deleted) ∧
      (.closeDocument ∈ handleWorkspaceWatchEvent path sessions isFile kind →
        (eventsOf excluded events path).getLast? = some .deleted)) ↔
    (.deleted ∈ eventsOf excluded events path →
      (eventsOf excluded events path).getLast? = some .deleted) := by
  rw [get_pending]
  cases eventsOf excluded events path with
  | nil => simp
  | cons first later =>
    simp only [Option.some.injEq, forall_eq', ← WorkspaceWatchEvent.foldl_merge_eq_deleted]
    refine ⟨fun h hdeleted => h.1.mp hdeleted, fun h => ⟨⟨h, fun hlast => ?_⟩, fun hclosed => ?_⟩⟩
    · exact (WorkspaceWatchEvent.foldl_merge_eq_deleted first later).mpr (mem_of_getLast? hlast)
    · refine h ?_
      rw [handleWorkspaceWatchEvent] at hclosed
      cases hkind : later.foldl _ first <;> simp_all

/-- **A file that is saved by replacing it is closed.** -/
theorem replaced_file_is_closed :
    let events := [("a.rs", WorkspaceWatchEvent.deleted), ("a.rs", .created)]
    (pending (fun _ => false) events).get "a.rs" = some .deleted ∧
      DocumentRequest.closeDocument ∈ handleWorkspaceWatchEvent "a.rs"
        [⟨fun _ => true, fun _ _ => true, fun _ => false⟩] (fun _ => true) .deleted :=
  ⟨rfl, by decide⟩

end Nanoclaw.Lsp
