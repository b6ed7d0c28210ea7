import Nanoclaw.Lib.System
import Nanoclaw.Subagent.LeaseTrie
import Nanoclaw.Types.Path

/-!
# Write Leases

The lease manager keeps the leases twice: the set of paths of each agent, and the trie of all
leases. A claim is checked against the trie before anything is inserted; a release removes every
lease of an agent, whoever claimed it.
-/

namespace Nanoclaw

open List Option SortedMap System

/-! ### Paths -/

/-- `PathBuf::pop`: the root has no parent. -/
def popPath (path : PathBuf) : PathBuf :=
  match path.getLast? with
  | none | some .rootDir => path
  | some _ => path.dropLast

/-- The components of a path without `.` and `..`. -/
def normalizePath (path : PathBuf) : PathBuf :=
  path.foldl (fun normalized component =>
    match component with
    | .curDir => normalized
    | .parentDir => popPath normalized
    -- Pushing an absolute path replaces what was there.
    | .rootDir => [.rootDir]
    | .normal name => normalized ++ [.normal name]) []

/-! ### The index -/

/-- The leases by agent, as sorted sets of paths, and the trie. -/
structure LeaseIndex (α : Type) where
  owners : List (α × List (PathBuf × Unit)) := []
  root : LeaseTrieNode α := .empty

structure WriteLeaseConflict (α : Type) where
  requested : String
  owner : α
  ownerPath : String

namespace LeaseIndex

variable {α : Type} [LinearOrder α] (agentId : α)

def findConflict (path : PathBuf) (index : LeaseIndex α) : Option (List String × α) :=
  index.root.findConflict agentId [] (pathComponents path)

def insert (index : LeaseIndex α) (path : PathBuf) : LeaseIndex α :=
  if (get path ((get agentId index.owners).getD [])).isSome then index
  else
    { owners := alter agentId
        (fun paths => some (alter path (fun _ => some ()) (paths.getD []))) index.owners
      root := index.root.insert agentId (pathComponents path) }

def release (index : LeaseIndex α) : LeaseIndex α :=
  match get agentId index.owners with
  | none => index
  | some paths =>
    { owners := alter agentId (fun _ => none) index.owners
      root := paths.foldl
        (fun root path => root.remove agentId (pathComponents path.1)) index.root }

def claimedPaths (index : LeaseIndex α) : List PathBuf :=
  ((get agentId index.owners).getD []).map Prod.fst

/-- `WriteLeaseManager::claim`: either all paths are inserted or none. -/
def claim (paths : List PathBuf) (index : LeaseIndex α) :
    Except (WriteLeaseConflict α) Unit × LeaseIndex α :=
  let requested := paths.map normalizePath
  match requested.findSome? fun path =>
      (index.findConflict agentId path).map fun (ownedPath, owner) =>
        { requested := pathText (pathComponents path), owner, ownerPath := pathText ownedPath :
          WriteLeaseConflict α } with
  | some conflict => (.error conflict, index)
  | none => (.ok (), requested.foldl (insert agentId) index)

/-- `WriteLeaseManager::assert_write_paths`. -/
def assertWritePaths [ToString α] (agentId : Option α) (paths : List PathBuf)
    (index : LeaseIndex α) : Except String Unit :=
  match agentId with
  | none => .ok ()
  | some agentId =>
    match (paths.map normalizePath).findSome? fun path =>
        (index.findConflict agentId path).map fun (ownedPath, owner) =>
          "write lease conflict for " ++ pathText (pathComponents path) ++ ": owned by " ++
            toString owner ++ " via " ++ pathText ownedPath with
    | some error => .error error
    | none => .ok ()

/-! ### The invariant -/

/-- **The invariant of the index**: both sides agree, and related paths have one owner. -/
structure Sound (index : LeaseIndex α) : Prop where
  ownersSorted : Sorted index.owners
  paths : ∀ entry ∈ index.owners, Sorted entry.2 ∧ entry.2 ≠ []
  wf : index.root.WF
  agree : ∀ agentId components, index.root.leaseAt components = some agentId ↔
    ∃ path ∈ index.claimedPaths agentId, pathComponents path = components
  exclusive : ∀ owned owned' owner owner', index.root.leaseAt owned = some owner →
    index.root.leaseAt owned' = some owner' → LeaseTrieNode.Related owned owned' → owner = owner'

theorem sound_empty : ({} : LeaseIndex α).Sound where
  ownersSorted := .nil
  paths := nofun
  wf := LeaseTrieNode.wf_empty
  agree agentId components := by
    simp [claimedPaths]
  exclusive owned _ _ _ h := by
    rw [LeaseTrieNode.leaseAt_empty] at h
    cases h

variable {index : LeaseIndex α} {agentId}

/-- Removing a list of leases of an agent from the trie. -/
theorem foldl_remove {root : LeaseTrieNode α} (h : root.WF)
    {paths : List (PathBuf × Unit)} (hnodup : (paths.map Prod.fst).Nodup)
    (hleases : ∀ entry ∈ paths, root.leaseAt (pathComponents entry.1) = some agentId) :
    (paths.foldl (fun root path => root.remove agentId (pathComponents path.1)) root).WF ∧
      ∀ components, (paths.foldl (fun root path => root.remove agentId (pathComponents path.1))
            root).leaseAt components =
          if components ∈ paths.map (fun entry => pathComponents entry.1) then none
          else root.leaseAt components := by
  induction paths generalizing root with
  | nil => exact ⟨h, by simp⟩
  | cons entry paths ih =>
    obtain ⟨hnotmem, hnodup⟩ := nodup_cons.mp hnodup
    have hrest : ∀ entry' ∈ paths, (root.remove agentId (pathComponents entry.1)).leaseAt
        (pathComponents entry'.1) = some agentId := by
      intro entry' hmem
      rw [h.leaseAt_remove, if_neg, hleases entry' (mem_cons_of_mem _ hmem)]
      intro heq
      exact hnotmem (mem_map.mpr ⟨entry', hmem, pathComponents_injective heq⟩)
    obtain ⟨hwf, hlease⟩ := ih (h.remove (hleases entry mem_cons_self)) hnodup hrest
    refine ⟨hwf, fun components => ?_⟩
    rw [foldl_cons, hlease, h.leaseAt_remove]
    by_cases hc : components = pathComponents entry.1 <;>
      by_cases hm : components ∈ paths.map (fun entry => pathComponents entry.1) <;> simp [hm]

theorem filter_bne_eq_self {found : Option α} (h : found ≠ some agentId) :
    (found.filter fun owner => owner != agentId) = found := by
  cases found <;> simp_all [Option.filter]

section

variable (h : index.Sound)

include h

theorem Sound.sorted_paths (agentId : α) : Sorted ((get agentId index.owners).getD []) := by
  cases hget : get agentId index.owners with
  | none => exact .nil
  | some paths => exact (h.paths _ (mem_of_get hget)).1

variable {path : PathBuf}

theorem Sound.mem_claimedPaths : path ∈ index.claimedPaths agentId ↔
      (get path ((get agentId index.owners).getD [])).isSome = true :=
  (h.sorted_paths agentId).mem_keys_iff

/-- No other agent holds a path related to this one. -/
def Free (agentId : α) (path : PathBuf) (index : LeaseIndex α) : Prop :=
  ∀ owned owner, index.root.leaseAt owned = some owner →
    LeaseTrieNode.Related owned (pathComponents path) → owner = agentId

theorem Sound.free_of_findConflict (hnone : index.findConflict agentId path = none) :
    index.Free agentId path :=
  fun _ _ hlease hrelated => h.wf.findConflict_none hnone hlease hrelated

/-! ### Inserting -/

theorem Sound.claimedPaths_insert (agentId other : α) (path path' : PathBuf) :
    path' ∈ (index.insert agentId path).claimedPaths other ↔
      path' ∈ index.claimedPaths other ∨ other = agentId ∧ path' = path := by
  unfold LeaseIndex.insert
  split
  next hheld =>
    constructor
    · exact .inl
    · rintro (hmem | ⟨rfl, rfl⟩)
      · exact hmem
      · exact h.mem_claimedPaths.mpr hheld
  next =>
    have hsorted := h.sorted_paths agentId
    by_cases ho : other = agentId
    · subst ho
      rw [claimedPaths, get_alter_self h.ownersSorted, getD_some,
        (hsorted.alter _ _).mem_keys_iff, h.mem_claimedPaths]
      by_cases hp : path' = path
      · subst hp
        simp [get_alter_self hsorted]
      · simp [get_alter_of_ne hp, hp]
    · rw [claimedPaths, get_alter_of_ne ho]
      simp [ho, claimedPaths]

theorem Sound.leaseAt_insert (components : List String) :
    (index.insert agentId path).root.leaseAt components =
      if components = pathComponents path then some agentId
      else index.root.leaseAt components := by
  unfold LeaseIndex.insert
  split
  next hheld =>
    have hlease := (h.agree agentId (pathComponents path)).mpr
      ⟨path, h.mem_claimedPaths.mpr hheld, rfl⟩
    split
    next heq => rw [heq, hlease]
    next => rfl
  next => exact h.wf.leaseAt_insert agentId _ _

/-- **Inserting a free path keeps the invariant.** -/
theorem Sound.agree_insert (hfree : index.Free agentId path) {other : α}
    (components : List String) : (index.insert agentId path).root.leaseAt components = some other ↔
      ∃ path' ∈ (index.insert agentId path).claimedPaths other,
        pathComponents path' = components := by
  simp only [h.leaseAt_insert, h.claimedPaths_insert]
  split
  next heq =>
    constructor
    · intro hsome
      exact ⟨path, .inr ⟨(some.inj hsome).symm, rfl⟩, heq.symm⟩
    · rintro ⟨path', hmem | ⟨rfl, rfl⟩, hcomponents⟩
      · -- A path that is already leased and free is the agent's own.
        have hlease := (h.agree other components).mpr ⟨path', hmem, hcomponents⟩
        rw [hfree components other hlease (Or.inl (heq ▸ prefix_refl _))]
      · rfl
  next hne =>
    rw [h.agree]
    constructor
    · rintro ⟨path', hmem, hcomponents⟩
      exact ⟨path', .inl hmem, hcomponents⟩
    · rintro ⟨path', hmem | ⟨-, rfl⟩, hcomponents⟩
      · exact ⟨path', hmem, hcomponents⟩
      · exact absurd hcomponents.symm hne

theorem Sound.insert (hfree : index.Free agentId path) : (index.insert agentId path).Sound := by
  by_cases hheld : (get path ((get agentId index.owners).getD [])).isSome = true
  · rw [LeaseIndex.insert, if_pos hheld]
    exact h
  have heq : index.insert agentId path = ⟨_, _⟩ := if_neg hheld
  refine ⟨?_, ?_, ?_, fun _ => h.agree_insert hfree,
    fun owned owned' owner owner' hl hl' hrelated => ?_⟩
  · rw [heq]
    exact h.ownersSorted.alter _ _
  · rw [heq]
    refine h.ownersSorted.forall_mem_alter (P := fun paths => Sorted paths ∧ paths ≠ []) h.paths
      fun paths hpaths => ?_
    cases hpaths
    refine ⟨(h.sorted_paths agentId).alter _ _, fun hnil => ?_⟩
    have hget := get_alter_self (h.sorted_paths agentId) path fun _ => some ()
    rw [hnil] at hget
    cases hget
  · rw [heq]
    refine h.wf.insert agentId ?_
    cases hlease : index.root.leaseAt (pathComponents path) with
    | none => rfl
    | some owner =>
      obtain rfl := hfree _ owner hlease (.inl (prefix_refl _))
      obtain ⟨path', hmem, hcomponents⟩ := (h.agree owner _).mp hlease
      obtain rfl := pathComponents_injective hcomponents
      exact absurd (h.mem_claimedPaths.mp hmem) hheld
  · rw [h.leaseAt_insert] at hl hl'
    split at hl
    next heq =>
      cases hl
      split at hl'
      next => exact some.inj hl'
      next => exact (hfree owned' owner' hl' (heq ▸ hrelated.symm)).symm
    next =>
      split at hl'
      next heq' =>
        cases hl'
        exact hfree owned owner hl (heq' ▸ hrelated)
      next => exact h.exclusive owned owned' owner owner' hl hl' hrelated

/-! ### Claiming -/

variable {path' : PathBuf} {paths : List PathBuf} {other owner : α}

theorem Sound.free_insert (hfree : index.Free agentId path') :
    (index.insert agentId path).Free agentId path' := by
  intro owned owner hlease hrelated
  rw [h.leaseAt_insert] at hlease
  split at hlease
  · exact (some.inj hlease).symm
  · exact hfree owned owner hlease hrelated

theorem Sound.foldl_insert (hfree : ∀ path ∈ paths, index.Free agentId path) :
    (paths.foldl (LeaseIndex.insert agentId) index).Sound ∧
      ∀ other path, path ∈ (paths.foldl (LeaseIndex.insert agentId) index).claimedPaths other ↔
        path ∈ index.claimedPaths other ∨ other = agentId ∧ path ∈ paths := by
  induction paths generalizing index with
  | nil => exact ⟨h, by simp⟩
  | cons path paths ih =>
    have hpath := hfree path mem_cons_self
    obtain ⟨hsound, hclaimed⟩ := ih (h.insert hpath)
      fun path' hmem => h.free_insert (hfree path' (mem_cons_of_mem _ hmem))
    refine ⟨hsound, fun other path' => ?_⟩
    rw [foldl_cons, hclaimed, h.claimedPaths_insert, mem_cons]
    tauto

theorem Sound.claim_cases (agentId : α) (paths : List PathBuf) :
    (∃ conflict, index.claim agentId paths = (.error conflict, index)) ∨
      (∀ path ∈ paths, index.Free agentId (normalizePath path)) ∧ index.claim agentId paths =
          (.ok (), (paths.map normalizePath).foldl (LeaseIndex.insert agentId) index) := by
  unfold LeaseIndex.claim
  dsimp only
  split
  next conflict hfind => exact .inl ⟨conflict, rfl⟩
  next hfind =>
    refine .inr ⟨fun path hmem => ?_, rfl⟩
    have hnone := findSome?_eq_none_iff.mp hfind _ (mem_map_of_mem hmem)
    exact h.free_of_findConflict (map_eq_none_iff.mp hnone)

/-- **A claim keeps the invariant.** -/
theorem Sound.claim (agentId : α) (paths : List PathBuf) : (index.claim agentId paths).2.Sound := by
  rcases h.claim_cases agentId paths with ⟨conflict, heq⟩ | ⟨hfree, heq⟩
  · rw [heq]
    exact h
  · rw [heq]
    exact (h.foldl_insert (forall_mem_map.mpr hfree)).1

/-- **A claim that is granted gives the agent all the paths**, and takes nothing. -/
theorem Sound.mem_claim (hok : (index.claim agentId paths).1 = .ok ())
    (other : α) (path : PathBuf) : path ∈ (index.claim agentId paths).2.claimedPaths other ↔
      path ∈ index.claimedPaths other ∨ other = agentId ∧ path ∈ paths.map normalizePath := by
  rcases h.claim_cases agentId paths with ⟨conflict, heq⟩ | ⟨hfree, heq⟩
  · rw [heq] at hok
    cases hok
  · rw [heq]
    exact (h.foldl_insert (forall_mem_map.mpr hfree)).2 other path

/-! ### Releasing -/

theorem Sound.claimedPaths_release (agentId other : α) :
    (index.release agentId).claimedPaths other =
      if other = agentId then [] else index.claimedPaths other := by
  unfold LeaseIndex.release
  by_cases ho : other = agentId
  · subst ho
    split
    next hnone => simp [claimedPaths, hnone]
    next => simp [claimedPaths, get_alter_self h.ownersSorted]
  · rw [if_neg ho]
    split
    next => rfl
    next => simp [claimedPaths, get_alter_of_ne ho]

/-- **A release takes every lease of the agent and no other.** -/
theorem Sound.leaseAt_release (agentId : α) : (index.release agentId).root.WF ∧ ∀ components,
      (index.release agentId).root.leaseAt components =
        (index.root.leaseAt components).filter fun owner => owner != agentId := by
  unfold LeaseIndex.release
  split
  next hnone =>
    refine ⟨h.wf, fun components => (filter_bne_eq_self fun hlease => ?_).symm⟩
    obtain ⟨path, hmem, -⟩ := (h.agree agentId components).mp hlease
    simp [claimedPaths, hnone] at hmem
  next paths hsome =>
    have hpaths : index.claimedPaths agentId = paths.map Prod.fst := by simp [claimedPaths, hsome]
    have hsorted := h.sorted_paths agentId
    rw [hsome, getD_some] at hsorted
    obtain ⟨hwf, hlease⟩ := foldl_remove h.wf hsorted.nodup_keys fun entry hmem =>
      (h.agree agentId _).mpr ⟨entry.1, hpaths ▸ mem_map_of_mem hmem, rfl⟩
    refine ⟨hwf, fun components => ?_⟩
    rw [hlease]
    -- The leases that were removed are the agent's.
    have hmem : components ∈ paths.map (fun entry => pathComponents entry.1) ↔
        index.root.leaseAt components = some agentId := by
      rw [h.agree, hpaths]
      simp only [List.mem_map, exists_exists_and_eq_and]
    by_cases hown : index.root.leaseAt components = some agentId
    · rw [if_pos (hmem.mpr hown), hown]
      simp [Option.filter]
    · rw [if_neg (fun hc => hown (hmem.mp hc)), filter_bne_eq_self hown]

/-- **A release keeps the invariant.** -/
theorem Sound.release (agentId : α) : (index.release agentId).Sound := by
  obtain ⟨hwf, hlease⟩ := h.leaseAt_release agentId
  refine ⟨?_, ?_, hwf, fun other components => ?_, ?_⟩
  · unfold LeaseIndex.release
    split
    · exact h.ownersSorted
    · exact h.ownersSorted.alter _ _
  · unfold LeaseIndex.release
    split
    · exact h.paths
    · exact h.ownersSorted.forall_mem_alter (P := fun paths => Sorted paths ∧ paths ≠ []) h.paths
        nofun
  · rw [hlease, h.claimedPaths_release, filter_eq_some_iff]
    by_cases ho : other = agentId
    · simp [ho]
    · simp [ho, h.agree]
  · intro owned owned' owner owner' hl hl'
    rw [hlease, filter_eq_some_iff] at hl hl'
    exact h.exclusive owned owned' owner owner' hl.1 hl'.1

/-- A claim takes nothing from anybody. -/
theorem Sound.subset_claim (agentId other : α) (paths : List PathBuf) :
    index.claimedPaths other ⊆ (index.claim agentId paths).2.claimedPaths other := by
  intro path hpath
  rcases h.claim_cases agentId paths with ⟨conflict, heq⟩ | ⟨-, heq⟩
  · rw [heq]
    exact hpath
  · have hok : (index.claim agentId paths).1 = .ok () := by rw [heq]
    exact (h.mem_claim hok other path).mpr (.inl hpath)

/-- A release takes nothing from the other agents. -/
theorem Sound.subset_release (hne : other ≠ agentId) :
    index.claimedPaths other ⊆ (index.release agentId).claimedPaths other := by
  rw [h.claimedPaths_release, if_neg hne]
  exact .refl _

/-- **Different agents hold unrelated paths.** -/
theorem Sound.not_prefix (hne : agentId ≠ other)
    (hpath : path ∈ index.claimedPaths agentId) (hpath' : path' ∈ index.claimedPaths other) :
    ¬ path <+: path' := by
  intro hunder
  refine hne (h.exclusive (pathComponents path) (pathComponents path') agentId other ?_ ?_
    (.inl (pathComponents_prefix_iff.mpr hunder)))
  · exact (h.agree agentId _).mpr ⟨path, hpath, rfl⟩
  · exact (h.agree other _).mpr ⟨path', hpath', rfl⟩

/-- The path lies at, above or below a path that another agent owns. -/
def Contested (agentId : α) (path : PathBuf) (owner : α) (owned : PathBuf)
    (index : LeaseIndex α) : Prop :=
  owner ≠ agentId ∧ owned ∈ index.claimedPaths owner ∧ (owned <+: path ∨ path <+: owned)

/-- A conflict that is found is with a lease of its owner. -/
theorem Sound.findConflict_some {text : List String}
    (hfind : index.findConflict agentId path = some (text, owner)) :
    ∃ owned, text = pathComponents owned ∧ index.Contested agentId path owner owned := by
  obtain ⟨components, htext, hlease, hne, hrelated⟩ := h.wf.findConflict_some hfind
  obtain ⟨owned, hmem, rfl⟩ := (h.agree owner components).mp hlease
  exact ⟨owned, by simpa using htext, hne, hmem,
    hrelated.imp pathComponents_prefix_iff.mp pathComponents_prefix_iff.mp⟩

theorem Sound.not_free {owned : PathBuf}
    (hc : index.Contested agentId path owner owned) : ¬ index.Free agentId path := by
  obtain ⟨hne, hmem, hrelated⟩ := hc
  intro hfree
  exact hne (hfree _ owner ((h.agree owner _).mpr ⟨owned, hmem, rfl⟩)
    (hrelated.imp pathComponents_prefix_iff.mpr pathComponents_prefix_iff.mpr))

/-- What `assert_write_paths` reports. -/
def conflictMessage [ToString α] (path : PathBuf) (owner : α) (owned : PathBuf) : String :=
  "write lease conflict for " ++ pathText (pathComponents path) ++ ": owned by " ++
    toString owner ++ " via " ++ pathText (pathComponents owned)

/-- **When a write is refused, and what is reported.** -/
theorem Sound.assertWritePaths_spec [ToString α] (agentId : α) (paths : List PathBuf) :
    match index.assertWritePaths (some agentId) paths with
    | .error error => ∃ path ∈ paths, ∃ owner owned,
        index.Contested agentId (normalizePath path) owner owned ∧
          error = conflictMessage (normalizePath path) owner owned
    | .ok () => ∀ path ∈ paths, ∀ owner owned,
        ¬ index.Contested agentId (normalizePath path) owner owned := by
  unfold LeaseIndex.assertWritePaths
  dsimp only
  generalize hfind : findSome? _ (paths.map normalizePath) = found
  cases found with
  | some error =>
    obtain ⟨normal, hmem, hmap⟩ := exists_of_findSome?_eq_some hfind
    obtain ⟨path, hpath, rfl⟩ := mem_map.mp hmem
    obtain ⟨⟨text, owner⟩, hconflict, rfl⟩ := map_eq_some_iff.mp hmap
    obtain ⟨owned, rfl, hc⟩ := h.findConflict_some hconflict
    exact ⟨path, hpath, owner, owned, hc, rfl⟩
  | none =>
    intro path hmem owner owned hc
    have hnone := findSome?_eq_none_iff.mp hfind _ (mem_map_of_mem hmem)
    exact h.not_free hc (h.free_of_findConflict (map_eq_none_iff.mp hnone))

/-! ### The trie of a set of leases -/

/-- The index that is built from scratch, one lease after the other. -/
def ofLeases (leases : List (α × PathBuf)) : LeaseIndex α :=
  leases.foldl (fun index lease => index.insert lease.1 lease.2) {}

/-- Leases of an index can be inserted in any order. -/
theorem Sound.ofLeases {leases : List (α × PathBuf)}
    (hleases : ∀ lease ∈ leases, lease.2 ∈ index.claimedPaths lease.1) :
    (ofLeases leases).Sound ∧
      ∀ agentId path, path ∈ (ofLeases leases).claimedPaths agentId ↔ (agentId, path) ∈ leases := by
  induction leases using reverseRecOn with
  | nil => exact ⟨sound_empty, by simp [LeaseIndex.ofLeases, claimedPaths]⟩
  | append_singleton leases lease ih =>
    obtain ⟨hrest, hlease⟩ := forall_mem_append.mp hleases
    obtain ⟨hsound, hclaimed⟩ := ih hrest
    -- Related leases have the same owner in the index they are taken from.
    have hfree : (LeaseIndex.ofLeases leases).Free lease.1 lease.2 := by
      intro owned owner howned hrelated
      obtain ⟨path, hpath, rfl⟩ := (hsound.agree owner owned).mp howned
      have hheld := hrest _ ((hclaimed owner path).mp hpath)
      exact h.exclusive _ _ _ _ ((h.agree ..).mpr ⟨path, hheld, rfl⟩)
        ((h.agree ..).mpr ⟨_, hlease lease mem_cons_self, rfl⟩) hrelated
    rw [LeaseIndex.ofLeases, foldl_append]
    refine ⟨hsound.insert hfree, fun agentId path => ?_⟩
    refine (hsound.claimedPaths_insert ..).trans ?_
    simp [hclaimed, Prod.ext_iff]

/-- Sound indices with the same leases are equal. -/
theorem Sound.ext {index' : LeaseIndex α} (h' : index'.Sound) (hsame : ∀ agentId path,
      path ∈ index'.claimedPaths agentId ↔ path ∈ index.claimedPaths agentId) :
    index' = index := by
  have hroot : index'.root = index.root := by
    refine h'.wf.ext h.wf fun components => Option.ext fun agentId => ?_
    simp only [h'.agree, h.agree, hsame]
  have howners : index'.owners = index.owners := by
    refine h'.ownersSorted.ext h.ownersSorted fun agentId => ?_
    have hunit : ∀ held held' : Option Unit, (held.isSome ↔ held'.isSome) → held = held' := by
      rintro (_ | _) (_ | _) <;> simp
    have hpaths := (h'.sorted_paths agentId).ext (h.sorted_paths agentId) fun path => by
      have hiff := hsame agentId path
      rw [h'.mem_claimedPaths, h.mem_claimedPaths] at hiff
      exact hunit _ _ hiff
    -- No agent is listed without a path.
    have hne := fun paths hget => (h.paths (agentId, paths) (mem_of_get hget)).2
    have hne' := fun paths hget => (h'.paths (agentId, paths) (mem_of_get hget)).2
    cases hget : get agentId index.owners <;> cases hget' : get agentId index'.owners <;> simp_all
  cases index
  cases index'
  simp_all

end

/-! ### Runs of calls -/

/-- A call that changes the leases. -/
inductive Call (α : Type) where
  | claim (agentId : α) (paths : List PathBuf)
  | release (agentId : α)

def step (index : LeaseIndex α) : Call α → LeaseIndex α
  | .claim agentId paths => (index.claim agentId paths).2
  | .release agentId => index.release agentId

theorem sound_run (calls : List (Call α)) : (run step {} calls : LeaseIndex α).Sound := by
  refine run_invariant (fun index call h => ?_) sound_empty calls
  cases call with
  | claim agentId paths => exact h.claim agentId paths
  | release agentId => exact h.release agentId

end LeaseIndex

/-- **Leases are exclusive** after every sequence of claims and releases; a refused claim changes
nothing; and a write is refused exactly if a path of it is related to a path of another agent, which
is then reported. -/
theorem leases_are_exclusive {α : Type} [LinearOrder α] [ToString α]
    (calls : List (LeaseIndex.Call α)) :
    let index : LeaseIndex α := run .step {} calls
    (∀ agentId other, agentId ≠ other → ∀ path ∈ index.claimedPaths agentId,
      ∀ path' ∈ index.claimedPaths other, ¬ path <+: path') ∧
    (∀ agentId paths conflict, (index.claim agentId paths).1 = .error conflict →
      (index.claim agentId paths).2 = index) ∧
    (∀ agentId paths, (∃ error, index.assertWritePaths (some agentId) paths = .error error) ↔
      ∃ path ∈ paths, ∃ owner owned, index.Contested agentId (normalizePath path) owner owned) ∧
    (∀ agentId paths error, index.assertWritePaths (some agentId) paths = .error error →
      ∃ path ∈ paths, ∃ owner owned, index.Contested agentId (normalizePath path) owner owned ∧
          error = LeaseIndex.conflictMessage (normalizePath path) owner owned) := by
  intro index
  have h : index.Sound := LeaseIndex.sound_run calls
  refine ⟨fun agentId other hne path hpath path' hpath' => h.not_prefix hne hpath hpath',
    fun agentId paths conflict herror => ?_, fun agentId paths => ?_,
    fun agentId paths error herror => ?_⟩
  · rcases h.claim_cases agentId paths with ⟨conflict, heq⟩ | ⟨-, heq⟩
    · rw [heq]
    · rw [heq] at herror
      cases herror
  · have hspec := h.assertWritePaths_spec agentId paths
    constructor
    · rintro ⟨error, herror⟩
      rw [herror] at hspec
      obtain ⟨path, hmem, owner, owned, hc, -⟩ := hspec
      exact ⟨path, hmem, owner, owned, hc⟩
    · rintro ⟨path, hmem, owner, owned, hc⟩
      cases hresult : index.assertWritePaths (some agentId) paths with
      | error error => exact ⟨error, rfl⟩
      | ok _ =>
        rw [hresult] at hspec
        exact absurd hc (hspec path hmem owner owned)
  · have hspec := h.assertWritePaths_spec agentId paths
    rwa [herror] at hspec

/-- **The index is that of the leases**: after every sequence of claims and releases it is the
one built from scratch from the leases that are left, in any order, trie and owners. So a claim
and a release by an agent without other leases leave it as it was. -/
theorem release_restores_trie {α : Type} [LinearOrder α] (calls : List (LeaseIndex.Call α)) :
    let index : LeaseIndex α := run .step {} calls
    (∀ leases : List (α × PathBuf),
      (∀ agentId path, (agentId, path) ∈ leases ↔ path ∈ index.claimedPaths agentId) →
        LeaseIndex.ofLeases leases = index) ∧
    ∀ agentId paths, index.claimedPaths agentId = [] →
      (index.claim agentId paths).2.release agentId = index := by
  intro index
  have h : index.Sound := LeaseIndex.sound_run calls
  refine ⟨fun leases hleases => ?_, fun agentId paths hnone => ?_⟩
  · obtain ⟨hsound, hclaimed⟩ := h.ofLeases fun lease hmem => (hleases ..).mp hmem
    exact h.ext hsound fun agentId path => (hclaimed ..).trans (hleases ..)
  · have hclaim := h.claim agentId paths
    refine h.ext (hclaim.release agentId) fun other path => ?_
    rw [hclaim.claimedPaths_release]
    by_cases ho : other = agentId
    · rw [if_pos ho, ho, hnone]
    · rw [if_neg ho]
      rcases h.claim_cases agentId paths with ⟨conflict, heq⟩ | ⟨-, heq⟩
      · rw [heq]
      · exact (h.mem_claim (by rw [heq]) other path).trans (or_iff_left fun hown => ho hown.1)

end Nanoclaw
