import Mathlib.Data.List.Basic
import Mathlib.Data.List.Induction

/-!
# File Trees

A tree of directories, regular files and symbolic links, and the resolution of paths in it. A
`FileTree` says what is at each location, a list of names. A `Route` is what a program hands to
the system: names, `.` and `..`; a trailing separator counts as a `.`.

`FileTree.resolve` follows a route, and the links on it up to a nesting that is a parameter. With
the flag `create` a last name that is missing is the name of a file to be made, also behind a
link.
-/

/-- One step of a route. -/
inductive FileTree.Step (ν : Type) where
  | dot
  | up
  | name (name : ν)
  deriving DecidableEq

@[ext] structure FileTree.Route (ν : Type) where
  absolute : Bool
  steps : List (FileTree.Step ν)
  deriving DecidableEq

inductive FileTree.Node (ν κ : Type) where
  | dir
  | file (content : κ)
  | link (target : FileTree.Route ν)
  deriving DecidableEq

inductive FileTree.Errno where
  | noEntry
  | notDirectory
  | loop
  deriving DecidableEq

/-- **A file tree**. Only directories have anything below them. -/
structure FileTree (ν κ : Type) where
  node : List ν → Option (FileTree.Node ν κ)
  root_dir : node [] = some .dir
  parent_dir : ∀ location name, (node (location ++ [name])).isSome = true →
    node location = some .dir

namespace FileTree

open List

variable {ν κ : Type}

def Node.isLink : Node ν κ → Bool
  | .link _ => true
  | _ => false

/-- Follow the steps from a location. `follow` resolves the links on the way. -/
def walk (tree : FileTree ν κ) (follow : Bool → List ν → Route ν → Except Errno (List ν))
    (create : Bool) : List ν → List (Step ν) → Except Errno (List ν)
  | location, [] => .ok location
  | location, step :: rest =>
    match tree.node location with
    | some .dir =>
      match step with
      | .dot => walk tree follow create location rest
      | .up => walk tree follow create location.dropLast rest
      | .name name =>
        match tree.node (location ++ [name]) with
        | none =>
          if create && rest.isEmpty then .ok (location ++ [name]) else .error .noEntry
        | some (.link target) =>
          match follow (create && rest.isEmpty) location target with
          | .ok location => walk tree follow create location rest
          | .error error => .error error
        | some _ => walk tree follow create (location ++ [name]) rest
    | _ => .error .notDirectory

/-- **The resolution of a route** from the directory `base` if it is not absolute, with at most
`depth` nested routes. The empty route leads nowhere. -/
def resolve (tree : FileTree ν κ) : ℕ → Bool → List ν → Route ν → Except Errno (List ν)
  | 0, _, _, _ => .error .loop
  | depth + 1, create, base, route =>
    if !route.absolute && route.steps.isEmpty then .error .noEntry
    else
      tree.walk (resolve tree depth) create (if route.absolute then [] else base) route.steps

variable {tree : FileTree ν κ} {follow : Bool → List ν → Route ν → Except Errno (List ν)}

/-! ### Walking -/

variable {location : List ν}

/-- A step is taken only at a directory. -/
theorem walk_of_not_dir (h : tree.node location ≠ some .dir) (create : Bool) (step : Step ν)
    (rest : List (Step ν)) :
    tree.walk follow create location (step :: rest) = .error .notDirectory := by
  unfold walk
  split
  next hdir => exact absurd hdir h
  · rfl

variable {found : List ν} {create : Bool} {rest steps : List (Step ν)} {depth : ℕ} {base : List ν}
  {route : Route ν} {below : List ν}

theorem dir_of_walk {step : Step ν}
    (h : tree.walk follow create location (step :: rest) = .ok found) :
    tree.node location = some .dir := by
  by_contra hne
  rw [walk_of_not_dir hne] at h
  cases h

section

variable (hdir : tree.node location = some .dir) {name : ν}

include hdir

theorem walk_dot (create : Bool) (rest : List (Step ν)) :
    tree.walk follow create location (.dot :: rest) = tree.walk follow create location rest := by
  rw [walk, hdir]

theorem walk_up (create : Bool) (rest : List (Step ν)) :
    tree.walk follow create location (.up :: rest) =
      tree.walk follow create location.dropLast rest := by
  rw [walk, hdir]

theorem walk_missing (h : tree.node (location ++ [name]) = none) (create : Bool)
    (rest : List (Step ν)) : tree.walk follow create location (.name name :: rest) =
      if create && rest.isEmpty then .ok (location ++ [name]) else .error .noEntry := by
  rw [walk, hdir]
  simp only [h]

theorem walk_link {target : Route ν} (h : tree.node (location ++ [name]) = some (.link target))
    (create : Bool) (rest : List (Step ν)) : tree.walk follow create location (.name name :: rest) =
      (follow (create && rest.isEmpty) location target).bind fun found =>
        tree.walk follow create found rest := by
  rw [walk, hdir]
  simp only [h]
  cases follow (create && rest.isEmpty) location target <;> rfl

theorem walk_entry {node : Node ν κ} (h : tree.node (location ++ [name]) = some node)
    (hlink : node.isLink = false) (create : Bool) (rest : List (Step ν)) :
    tree.walk follow create location (.name name :: rest) =
      tree.walk follow create (location ++ [name]) rest := by
  rw [walk, hdir]
  cases node with
  | link target => cases hlink
  | dir => simp only [h]
  | file content => simp only [h]

end

theorem node_cases (tree : FileTree ν κ) (location : List ν) :
    tree.node location = none ∨ (∃ target, tree.node location = some (.link target)) ∨
      ∃ node, tree.node location = some node ∧ node.isLink = false := by
  rcases hnode : tree.node location with _ | (_ | content | target)
  · exact Or.inl rfl
  · exact Or.inr (Or.inr ⟨.dir, rfl, rfl⟩)
  · exact Or.inr (Or.inr ⟨.file content, rfl, rfl⟩)
  · exact Or.inr (Or.inl ⟨target, rfl⟩)

/-- A route is followed step by step. -/
theorem walk_cons (create : Bool) (location : List ν) (step : Step ν) (rest : List (Step ν)) :
    tree.walk follow create location (step :: rest) =
      (tree.walk follow (create && rest.isEmpty) location [step]).bind fun found =>
        tree.walk follow create found rest := by
  simp only [walk]
  rcases tree.node location with _ | _ | _ | _
  case some.dir =>
    cases step with
    | dot | up => rfl
    | name name =>
      dsimp only
      rcases tree.node (location ++ [name]) with _ | _ | _ | target
      case some.link =>
        simp only [isEmpty_nil, Bool.and_true]
        cases follow (create && rest.isEmpty) location target <;> rfl
      all_goals cases create <;> cases rest <;> rfl
  all_goals rfl

/-- **A route is followed one piece after the other.** -/
theorem walk_append (create : Bool) (location : List ν) (steps : List (Step ν))
    (hrest : rest ≠ []) :
    tree.walk follow create location (steps ++ rest) =
      (tree.walk follow false location steps).bind fun found =>
        tree.walk follow create found rest := by
  induction steps generalizing location with
  | nil => rfl
  | cons step steps ih =>
    have hmore : (steps ++ rest).isEmpty = false := by simp [hrest]
    rw [cons_append, walk_cons, walk_cons false, hmore, Bool.and_false, Bool.false_and]
    cases tree.walk follow false location [step] with
    | error error => rfl
    | ok next => exact ih next

/-- **What exists is found in the same place with the flag.** -/
theorem walk_create_of_ok (hfollow : ∀ base route found, follow false base route = .ok found →
      follow true base route = .ok found) (h : tree.walk follow false location steps = .ok found) :
    tree.walk follow true location steps = .ok found := by
  induction steps generalizing location with
  | nil => exact h
  | cons step steps ih =>
    have hdir := dir_of_walk h
    cases step with
    | dot =>
      rw [walk_dot hdir] at h ⊢
      exact ih h
    | up =>
      rw [walk_up hdir] at h ⊢
      exact ih h
    | name name =>
      rcases tree.node_cases (location ++ [name]) with hnone | ⟨target, hlink⟩ | ⟨node, hnode, hl⟩
      · rw [walk_missing hdir hnone] at h
        cases h
      · rw [walk_link hdir hlink] at h ⊢
        cases hf : follow false location target with
        | error error =>
          rw [Bool.false_and, hf] at h
          cases h
        | ok next =>
          rw [Bool.false_and, hf] at h
          have hcreate : follow (true && steps.isEmpty) location target = .ok next := by
            cases steps with
            | nil => exact hfollow _ _ _ hf
            | cons => exact hf
          rw [hcreate]
          exact ih h
      · rw [walk_entry hdir hnode hl] at h ⊢
        exact ih h

theorem resolve_create_of_ok (h : tree.resolve depth false base route = .ok found) :
    tree.resolve depth true base route = .ok found := by
  induction depth generalizing base found route with
  | zero => exact nomatch h
  | succ depth ih =>
    unfold resolve at h ⊢
    split at h
    · cases h
    next hne =>
      rw [if_neg hne]
      exact walk_create_of_ok (fun _ _ _ hf => ih hf) h

/-! ### Where a walk ends -/

/-- There is something at the location, and it is not a link. -/
def Present (tree : FileTree ν κ) (location : List ν) : Prop :=
  ∃ node, tree.node location = some node ∧ node.isLink = false

/-- There is nothing at the location, but a directory to hold it. -/
def Vacant (tree : FileTree ν κ) (location : List ν) : Prop :=
  tree.node location = none ∧ ∃ base name, location = base ++ [name] ∧ tree.node base = some .dir

theorem present_of_dir (h : tree.node location = some .dir) : tree.Present location :=
  ⟨.dir, h, rfl⟩

/-- The locations above something are directories. -/
theorem dir_above (h : (tree.node (location ++ below)).isSome = true) (hne : below ≠ []) :
    tree.node location = some .dir := by
  induction below using reverseRecOn generalizing location with
  | nil => exact absurd rfl hne
  | append_singleton below name ih =>
    rw [← append_assoc] at h
    have hdir := tree.parent_dir (location ++ below) name h
    by_cases hb : below = []
    · rwa [hb, append_nil] at hdir
    · exact ih (by rw [hdir]; rfl) hb

/-- Everything above a location that is there or vacant is a directory. -/
theorem dir_strictly_above
    (h : tree.Present (location ++ below) ∨ tree.Vacant (location ++ below)) (hne : below ≠ []) :
    tree.node location = some .dir := by
  rcases h with ⟨node, hnode, -⟩ | ⟨-, base, name, heq, hdir⟩
  · exact dir_above (by rw [hnode]; rfl) hne
  · obtain rfl | ⟨below, last, rfl⟩ := eq_nil_or_concat' below
    · exact absurd rfl hne
    · rw [← append_assoc] at heq
      obtain ⟨rfl, -⟩ := append_inj' heq rfl
      by_cases hb : below = []
      · rwa [hb, append_nil] at hdir
      · exact dir_above (by rw [hdir]; rfl) hb

/-- **Where a walk ends**: at no link, or, with the flag, at a vacant place. -/
theorem walk_found (hfollow : ∀ create base route found, tree.node base = some .dir →
      follow create base route = .ok found →
        tree.Present found ∨ create = true ∧ tree.Vacant found) (hstart : tree.Present location)
    (h : tree.walk follow create location steps = .ok found) :
    tree.Present found ∨ create = true ∧ tree.Vacant found := by
  induction steps generalizing location with
  | nil =>
    cases h
    exact Or.inl hstart
  | cons step steps ih =>
    have hdir := dir_of_walk h
    cases step with
    | dot =>
      rw [walk_dot hdir] at h
      exact ih hstart h
    | up =>
      rw [walk_up hdir] at h
      refine ih ?_ h
      obtain rfl | ⟨parent, name, rfl⟩ := eq_nil_or_concat' location
      · exact hstart
      · rw [dropLast_concat]
        exact present_of_dir (tree.parent_dir parent name (by rw [hdir]; rfl))
    | name name =>
      rcases tree.node_cases (location ++ [name]) with hnone | ⟨target, hlink⟩ | ⟨node, hnode, hl⟩
      · rw [walk_missing hdir hnone] at h
        split at h
        next hcreate =>
          cases h
          exact Or.inr ⟨(Bool.and_eq_true_iff.mp hcreate).1, hnone, location, name, rfl, hdir⟩
        · cases h
      · rw [walk_link hdir hlink] at h
        cases hf : follow (create && steps.isEmpty) location target with
        | error error =>
          rw [hf] at h
          cases h
        | ok next =>
          rw [hf] at h
          rcases hfollow _ _ _ _ hdir hf with hpresent | ⟨hcreate, hvacant⟩
          · exact ih hpresent h
          · -- The last link leads to a vacant place.
            obtain ⟨hc, hempty⟩ := Bool.and_eq_true_iff.mp hcreate
            rw [isEmpty_iff.mp hempty] at h
            cases h
            exact Or.inr ⟨hc, hvacant⟩
      · rw [walk_entry hdir hnode hl] at h
        exact ih ⟨node, hnode, hl⟩ h

theorem resolve_found (hbase : tree.node base = some .dir)
    (h : tree.resolve depth create base route = .ok found) :
    tree.Present found ∨ create = true ∧ tree.Vacant found := by
  induction depth generalizing create base found route with
  | zero => exact nomatch h
  | succ depth ih =>
    unfold resolve at h
    split at h
    · cases h
    · refine walk_found (fun _ _ _ _ hb hf => ih hb hf) (present_of_dir ?_) h
      split
      · exact tree.root_dir
      · exact hbase

/-! ### Locations as routes -/

/-- **A location is found under its own names.** -/
theorem walk_names (location : List ν) {names : List ν}
    (h : tree.Present (location ++ names)) (create : Bool) :
    tree.walk follow create location (names.map .name) = .ok (location ++ names) := by
  induction names generalizing location with
  | nil => simp [walk]
  | cons name names ih =>
    have hdir : tree.node location = some .dir := dir_strictly_above (Or.inl h) (by simp)
    rw [append_cons] at h ⊢
    have hentry : tree.Present (location ++ [name]) := by
      by_cases hn : names = []
      · rwa [hn, append_nil] at h
      · exact present_of_dir (dir_strictly_above (Or.inl h) hn)
    obtain ⟨node, hnode, hl⟩ := hentry
    rw [map_cons, walk_entry hdir hnode hl]
    exact ih _ h

/-- What a route passes is not changed by the dots in it. -/
def undotted (steps : List (Step ν)) : List (Step ν) :=
  steps.filter fun step => match step with
    | .dot => false
    | _ => true

@[simp] theorem undotted_append (steps steps' : List (Step ν)) :
    undotted (steps ++ steps') = undotted steps ++ undotted steps' := filter_append ..

@[simp] theorem undotted_names (names : List ν) :
    undotted (names.map Step.name) = names.map .name := by
  simp [undotted, filter_eq_self]

theorem walk_undotted (h : tree.walk follow false location steps = .ok found) :
    tree.walk follow false location (undotted steps) = .ok found := by
  induction steps generalizing location with
  | nil => exact h
  | cons step steps ih =>
    cases step with
    | dot =>
      rw [walk_dot (dir_of_walk h)] at h
      exact ih h
    | up | name =>
      rw [walk_cons] at h
      refine (walk_cons ..).trans ?_
      rw [Bool.false_and] at h ⊢
      cases hnext : tree.walk follow false location [_] with
      | error error =>
        rw [hnext] at h
        cases h
      | ok next =>
        rw [hnext] at h
        exact ih h

/-! ### Trees with finitely many entries -/

section

variable [DecidableEq ν] (entries : List (List ν × Node ν κ))

def Node.isDir : Node ν κ → Bool
  | .dir => true
  | _ => false

/-- What a list of entries has at a location. -/
def lookup (location : List ν) : Option (Node ν κ) :=
  if location = [] then some .dir
  else (entries.find? fun entry => entry.1 == location).map Prod.snd

/-- Every entry stands in a directory. -/
def closed : Bool :=
  entries.all fun entry => (lookup entries entry.1.dropLast).any Node.isDir

/-- The tree with the given entries. -/
def ofEntries (h : closed entries = true) : FileTree ν κ where
  node := lookup entries
  root_dir := rfl
  parent_dir location name hsome := by
    obtain ⟨node, hnode⟩ := Option.isSome_iff_exists.mp hsome
    rw [lookup, if_neg (by simp)] at hnode
    obtain ⟨entry, hfind, rfl⟩ := Option.map_eq_some_iff.mp hnode
    have hlocation : entry.1 = location ++ [name] := by simpa using find?_some hfind
    have hparent := List.all_eq_true.mp h entry (mem_of_find?_eq_some hfind)
    rw [hlocation, dropLast_concat, Option.any_eq_true] at hparent
    obtain ⟨parent, hlookup, hdir⟩ := hparent
    cases parent with
    | dir => exact hlookup
    | file content => cases hdir
    | link target => cases hdir

end

end FileTree
