import Mathlib.Data.String.Basic
import Nanoclaw.Lib.SortedMap

/-!
# The Lease Trie

The leases of all agents as a trie over the components of the leased paths. A node knows the owner
of its own path and, for each agent, how many leases lie at or below it; the search for a conflict
skips subtrees without a foreign lease. The meaning of a trie is `LeaseTrieNode.leaseAt`.
-/

namespace Nanoclaw

open List Option SortedMap

/-- A node: the owner of its path, the leases at or below it by agent, and its children. -/
inductive LeaseTrieNode (α : Type) where
  | mk (owner : Option α) (subtreeOwnerCounts : List (α × ℕ))
      (children : List (String × LeaseTrieNode α))

section Counts

variable {α : Type} [LinearOrder α] (ownerCounts : List (α × ℕ))

def hasForeignOwner (agentId : α) : Bool :=
  ownerCounts.any fun (owner, count) => owner != agentId && 0 < count

def decrementOwnerCount (agentId : α) : List (α × ℕ) :=
  alter agentId (fun
    | some count => if 1 < count then some (count - 1) else none
    | none => none) ownerCounts

def incrementOwnerCount (agentId : α) : List (α × ℕ) :=
  alter agentId (fun count => some (count.getD 0 + 1)) ownerCounts

end Counts

namespace LeaseTrieNode

variable {α : Type}

def owner : LeaseTrieNode α → Option α
  | mk owner _ _ => owner

def subtreeOwnerCounts : LeaseTrieNode α → List (α × ℕ)
  | mk _ counts _ => counts

def children : LeaseTrieNode α → List (String × LeaseTrieNode α)
  | mk _ _ children => children

/-- The node of an empty trie. -/
def empty : LeaseTrieNode α :=
  mk none [] []

/-- A node that is pruned. -/
def isEmpty : LeaseTrieNode α → Bool
  | mk owner counts children => owner.isNone && children.isEmpty && counts.isEmpty

variable [LinearOrder α]

/-- The owner of the node, if it is another agent. -/
def foreignOwner (agentId : α) (node : LeaseTrieNode α) : Option α :=
  node.owner.filter fun owner => owner != agentId

mutual

def findConflictingDescendant (agentId : α) (pre : List String) :
    LeaseTrieNode α → Option (List String × α)
  | mk _ counts children =>
    if hasForeignOwner counts agentId then findConflictingChild agentId pre children
    else none

/-- The loop over the children. -/
def findConflictingChild (agentId : α) (pre : List String) :
    List (String × LeaseTrieNode α) → Option (List String × α)
  | [] => none
  | (component, child) :: rest =>
    if hasForeignOwner child.subtreeOwnerCounts agentId then
      match child.foreignOwner agentId with
      | some owner => some (pre ++ [component], owner)
      | none =>
        match findConflictingDescendant agentId (pre ++ [component]) child with
        | some conflict => some conflict
        | none => findConflictingChild agentId pre rest
    else findConflictingChild agentId pre rest

end

/-- A foreign lease on the path, above or below. `pre` leads to the node. -/
def findConflict (agentId : α) (pre : List String) :
    List String → LeaseTrieNode α → Option (List String × α)
  | [], node =>
    match node.foreignOwner agentId with
    | some owner => some (pre, owner)
    | none => findConflictingDescendant agentId pre node
  | component :: components, node =>
    match node.foreignOwner agentId with
    | some owner => some (pre, owner)
    | none =>
      match get component node.children with
      | none => none
      | some child => findConflict agentId (pre ++ [component]) components child

def insert (agentId : α) : List String → LeaseTrieNode α → LeaseTrieNode α
  | [], mk _ counts children => mk (some agentId) (incrementOwnerCount counts agentId) children
  | component :: components, mk owner counts children =>
    mk owner (incrementOwnerCount counts agentId)
      (alter component (fun child => some (insert agentId components (child.getD empty))) children)

/-- Remove a lease; a child that is left empty is pruned. -/
def remove (agentId : α) : List String → LeaseTrieNode α → LeaseTrieNode α
  | [], mk _ counts children => mk none (decrementOwnerCount counts agentId) children
  | component :: components, mk owner counts children =>
    mk owner (decrementOwnerCount counts agentId) (alter component (fun child =>
        (child.map (remove agentId components)).filter fun child => !child.isEmpty) children)

end LeaseTrieNode

/-! ### The meaning of a trie -/

variable {components : List String}

namespace LeaseTrieNode

variable {α : Type}

/-- **The owner of a path.** -/
def leaseAt : List String → LeaseTrieNode α → Option α
  | [], node => node.owner
  | component :: components, node => (get component node.children).bind (leaseAt components)

variable {node : LeaseTrieNode α}

theorem leaseAt_of_isEmpty (h : node.isEmpty = true)
    (components : List String) : node.leaseAt components = none := by
  obtain ⟨owner, counts, children⟩ := node
  simp only [isEmpty, Bool.and_eq_true, isNone_iff_eq_none, List.isEmpty_iff] at h
  obtain ⟨⟨rfl, rfl⟩, -⟩ := h
  cases components <;> rfl

@[simp] theorem leaseAt_empty (components : List String) :
    (empty : LeaseTrieNode α).leaseAt components = none :=
  leaseAt_of_isEmpty rfl components

theorem leaseAt_getD_child (node : LeaseTrieNode α) (component : String)
    (components : List String) :
    ((get component node.children).getD empty).leaseAt components =
      node.leaseAt (component :: components) := by
  rw [leaseAt]
  cases get component node.children <;> simp

/-- A pruned child held no lease. -/
theorem bind_leaseAt_filter (child : Option (LeaseTrieNode α)) (components : List String) :
    (child.filter fun child => !child.isEmpty).bind (leaseAt components) =
      child.bind (leaseAt components) := by
  cases child with
  | none => rfl
  | some child =>
    cases hempty : child.isEmpty with
    | true => simp [Option.filter, hempty, leaseAt_of_isEmpty hempty]
    | false => simp [Option.filter, hempty]

/-- The search below a node: a foreign lease, or none if all are own. -/
def FoundBelow (agentId : α) (pre : List String) (node : LeaseTrieNode α) :
    Option (List String × α) → Prop
  | some (path, owner) => ∃ components, path = pre ++ components ∧
      node.leaseAt components = some owner ∧ owner ≠ agentId
  | none => ∀ components owner, components ≠ [] →
      node.leaseAt components = some owner → owner = agentId

/-- What the search through some children has to return. -/
def FoundAmong (agentId : α) (pre : List String) (children : List (String × LeaseTrieNode α)) :
    Option (List String × α) → Prop
  | some (path, owner) => ∃ entry ∈ children, ∃ components,
      path = pre ++ entry.1 :: components ∧ entry.2.leaseAt components = some owner ∧
        owner ≠ agentId
  | none => ∀ entry ∈ children, ∀ components owner,
      entry.2.leaseAt components = some owner → owner = agentId

variable {agentId : α} {pre : List String} {component : String} {owner : α}

/-- A first child without foreign leases makes no difference. -/
theorem FoundAmong.cons {child : LeaseTrieNode α} {rest : List (String × LeaseTrieNode α)}
    {result : Option (List String × α)} (h : FoundAmong agentId pre rest result)
    (hnone : ∀ components owner, child.leaseAt components = some owner → owner = agentId) :
    FoundAmong agentId pre ((component, child) :: rest) result := by
  cases result with
  | some conflict =>
    obtain ⟨entry, hmem, hfound⟩ := h
    exact ⟨entry, mem_cons_of_mem _ hmem, hfound⟩
  | none => exact forall_mem_cons.mpr ⟨hnone, h⟩

variable [LinearOrder α]

/-- The number of leases of an agent that the node knows of. -/
def countOf (agentId : α) (node : LeaseTrieNode α) : ℕ :=
  (get agentId node.subtreeOwnerCounts).getD 0

/-- **The invariant of a node**: positive counts that add up, and no empty child. -/
inductive WF : LeaseTrieNode α → Prop where
  | mk {owner : Option α} {counts : List (α × ℕ)} {children : List (String × LeaseTrieNode α)}
      (countsSorted : Sorted counts) (positive : ∀ entry ∈ counts, 0 < entry.2)
      (childrenSorted : Sorted children)
      (total : ∀ agentId, (get agentId counts).getD 0 =
        (if owner = some agentId then 1 else 0) + sum (fun child => child.countOf agentId) children)
      (live : ∀ entry ∈ children, entry.2.isEmpty = false)
      (below : ∀ entry ∈ children, WF entry.2) : WF (mk owner counts children)

theorem wf_empty : (empty : LeaseTrieNode α).WF :=
  .mk .nil nofun .nil (fun _ => rfl)
    nofun nofun

/-- **The counts know of every agent with a lease at or below a node.** -/
theorem WF.countOf_pos (h : node.WF)
    (hlease : node.leaseAt components = some agentId) : 0 < node.countOf agentId := by
  induction h generalizing components with
  | @mk owner counts children _ _ childrenSorted total _ _ ih =>
    have htotal : (LeaseTrieNode.mk owner counts children).countOf agentId = _ := total agentId
    rw [htotal]
    cases components with
    | nil =>
      rw [if_pos (show owner = some agentId from hlease)]
      exact Nat.add_pos_left one_pos _
    | cons component components =>
      obtain ⟨child, hchild, hbelow⟩ := bind_eq_some_iff.mp hlease
      have hmem := childrenSorted.mem_iff.mpr hchild
      exact Nat.add_pos_right _ (sum_pos _ hmem (ih _ hmem hbelow))

/-- **A subtree with a lease of another agent is not skipped.** -/
theorem WF.hasForeignOwner_of_leaseAt (h : node.WF) (hlease : node.leaseAt components = some owner)
    (hne : owner ≠ agentId) : hasForeignOwner node.subtreeOwnerCounts agentId = true := by
  have hpos := h.countOf_pos hlease
  rw [countOf] at hpos
  cases hget : get owner node.subtreeOwnerCounts with
  | none =>
    rw [hget] at hpos
    cases hpos
  | some count =>
    rw [hget] at hpos
    exact List.any_eq_true.mpr ⟨(owner, count), mem_of_get hget, by simpa [hne] using hpos⟩

theorem WF.child (h : node.WF) {child : LeaseTrieNode α}
    (hchild : get component node.children = some child) : child.WF := by
  cases h with
  | mk _ _ childrenSorted _ _ below => exact below _ (childrenSorted.mem_iff.mpr hchild)

theorem foreignOwner_eq_some :
    node.foreignOwner agentId = some owner ↔ node.owner = some owner ∧ owner ≠ agentId := by
  simp [foreignOwner]

theorem foreignOwner_eq_none :
    node.foreignOwner agentId = none ↔ ∀ owner, node.owner = some owner → owner = agentId := by
  simp [foreignOwner]

/-! ### Searching for a conflict -/

/-- **The loop over the children**, if the search below each child is right. -/
theorem foundAmong_findConflictingChild (agentId : α) (pre : List String)
    {children : List (String × LeaseTrieNode α)} (hwf : ∀ entry ∈ children, entry.2.WF)
    (hbelow : ∀ entry ∈ children, ∀ pre : List String,
      FoundBelow agentId pre entry.2 (findConflictingDescendant agentId pre entry.2)) :
    FoundAmong agentId pre children (findConflictingChild agentId pre children) := by
  induction children with
  | nil => exact nofun
  | cons entry rest ih =>
    obtain ⟨component, child⟩ := entry
    have hrest := ih (fun e he => hwf e (mem_cons_of_mem _ he))
      (fun e he => hbelow e (mem_cons_of_mem _ he))
    have hchild := hwf (component, child) mem_cons_self
    have hspec := hbelow (component, child) mem_cons_self (pre ++ [component])
    rw [findConflictingChild]
    by_cases hforeign : hasForeignOwner child.subtreeOwnerCounts agentId = true
    · rw [if_pos hforeign]
      cases hown : child.foreignOwner agentId with
      | some owner =>
        obtain ⟨howner, hne⟩ := foreignOwner_eq_some.mp hown
        exact ⟨(component, child), mem_cons_self, [], rfl, howner, hne⟩
      | none =>
        cases hfind : findConflictingDescendant agentId (pre ++ [component]) child with
        | some conflict =>
          rw [hfind] at hspec
          obtain ⟨components, hpath, hlease, hne⟩ := hspec
          exact ⟨(component, child), mem_cons_self, components,
            by rw [hpath, append_assoc]; rfl, hlease, hne⟩
        | none =>
          rw [hfind] at hspec
          refine hrest.cons fun components owner hlease => ?_
          cases components with
          | nil => exact foreignOwner_eq_none.mp hown owner hlease
          | cons c cs => exact hspec (c :: cs) owner (by simp) hlease
    · rw [if_neg hforeign]
      refine hrest.cons fun components owner hlease => ?_
      by_contra hne
      exact hforeign (hchild.hasForeignOwner_of_leaseAt hlease hne)

/-- **The search below a node** finds a foreign lease if there is one. -/
theorem WF.foundBelow (h : node.WF) (agentId : α) (pre : List String) :
    FoundBelow agentId pre node (findConflictingDescendant agentId pre node) := by
  induction h generalizing pre with
  | @mk owner counts children countsSorted positive childrenSorted total live below ih =>
    have hwf := WF.mk countsSorted positive childrenSorted total live below
    rw [findConflictingDescendant]
    by_cases hforeign : hasForeignOwner counts agentId = true
    · rw [if_pos hforeign]
      have hspec := foundAmong_findConflictingChild agentId pre below ih
      cases hfind : findConflictingChild agentId pre children with
      | some conflict =>
        rw [hfind] at hspec
        obtain ⟨⟨component, child⟩, hmem, components, hpath, hlease, hne⟩ := hspec
        refine ⟨component :: components, hpath, ?_, hne⟩
        simpa [leaseAt, LeaseTrieNode.children, childrenSorted.mem_iff.mp hmem] using hlease
      | none =>
        rw [hfind] at hspec
        intro components owner hcons hlease
        cases components with
        | nil => exact absurd rfl hcons
        | cons component components =>
          obtain ⟨child, hchild, hbelow⟩ := bind_eq_some_iff.mp hlease
          exact hspec _ (childrenSorted.mem_iff.mpr hchild) components owner hbelow
    · rw [if_neg hforeign]
      intro components owner _ hlease
      by_contra hne
      exact hforeign (hwf.hasForeignOwner_of_leaseAt hlease hne)

/-- Two paths are related: one is the other or lies above it. -/
def Related (components components' : List String) : Prop :=
  components <+: components' ∨ components' <+: components

section

variable (h : node.WF)

include h

/-- **A conflict that is reported is a foreign lease on a related path.** -/
theorem WF.findConflict_some {path : List String}
    (hfind : node.findConflict agentId pre components = some (path, owner)) :
    ∃ owned, path = pre ++ owned ∧ node.leaseAt owned = some owner ∧ owner ≠ agentId ∧
      Related owned components := by
  induction components generalizing node pre with
  | nil =>
    rw [findConflict] at hfind
    split at hfind
    next owner' hown =>
      cases hfind
      obtain ⟨howner, hne⟩ := foreignOwner_eq_some.mp hown
      exact ⟨[], by simp, howner, hne, .inl nil_prefix⟩
    next =>
      have hspec := h.foundBelow agentId pre
      rw [hfind] at hspec
      obtain ⟨owned, hpath, hlease, hne⟩ := hspec
      exact ⟨owned, hpath, hlease, hne, .inr nil_prefix⟩
  | cons component components ih =>
    rw [findConflict] at hfind
    split at hfind
    next owner' hown =>
      cases hfind
      obtain ⟨howner, hne⟩ := foreignOwner_eq_some.mp hown
      exact ⟨[], by simp, howner, hne, .inl nil_prefix⟩
    next =>
      split at hfind
      next => cases hfind
      next child hchild =>
        obtain ⟨owned, hpath, hlease, hne, hrelated⟩ := ih (h.child hchild) hfind
        refine ⟨component :: owned, by simp [hpath], ?_, hne, ?_⟩
        · simpa [leaseAt, hchild] using hlease
        · exact hrelated.imp (prefix_cons_inj _).mpr (prefix_cons_inj _).mpr

/-- **If no conflict is reported, every lease on a related path is the agent's own.** -/
theorem WF.findConflict_none
    (hfind : node.findConflict agentId pre components = none) {owned : List String}
    (hlease : node.leaseAt owned = some owner) (hrelated : Related owned components) :
    owner = agentId := by
  induction components generalizing node pre owned with
  | nil =>
    rw [findConflict] at hfind
    split at hfind
    next => cases hfind
    next hown =>
      cases owned with
      | nil => exact foreignOwner_eq_none.mp hown owner hlease
      | cons c cs =>
        have hspec := h.foundBelow agentId pre
        rw [hfind] at hspec
        exact hspec (c :: cs) owner (by simp) hlease
  | cons component components ih =>
    rw [findConflict] at hfind
    split at hfind
    next => cases hfind
    next hown =>
      cases owned with
      | nil => exact foreignOwner_eq_none.mp hown owner hlease
      | cons c cs =>
        obtain ⟨child, hchild, hbelow⟩ := bind_eq_some_iff.mp hlease
        have hc : c = component ∧ Related cs components := by
          rcases hrelated with hp | hp
          · obtain ⟨hc, hp⟩ := cons_prefix_cons.mp hp
            exact ⟨hc, .inl hp⟩
          · obtain ⟨hc, hp⟩ := cons_prefix_cons.mp hp
            exact ⟨hc.symm, .inr hp⟩
        obtain ⟨rfl, hbelowRelated⟩ := hc
        rw [hchild] at hfind
        exact ih (h.child hchild) hfind hbelow hbelowRelated

/-! ### Insertion -/

theorem WF.childrenSorted : Sorted node.children := by
  cases h
  assumption

theorem WF.countsSorted : Sorted node.subtreeOwnerCounts := by
  cases h
  assumption

theorem WF.getD_child (component : String) : ((get component node.children).getD empty).WF := by
  cases hchild : get component node.children with
  | none => exact wf_empty
  | some child => exact h.child hchild

/-- **Insertion gives the path an owner and changes no other.** -/
theorem WF.leaseAt_insert (agentId : α) (components components' : List String) :
    (node.insert agentId components).leaseAt components' =
      if components' = components then some agentId else node.leaseAt components' := by
  induction components generalizing node components' with
  | nil =>
    cases node
    cases components' <;> rfl
  | cons component components ih =>
    have hchild := h.getD_child component
    have hsorted := h.childrenSorted
    have hbelow := leaseAt_getD_child node component
    obtain ⟨owner, counts, children⟩ := node
    simp only [LeaseTrieNode.children] at hchild hsorted hbelow
    cases components' with
    | nil => rfl
    | cons c cs =>
      change (get c (alter component _ children)).bind _ = _
      by_cases hc : c = component
      · subst hc
        rw [get_alter_self hsorted, bind_some, ih hchild, hbelow]
        simp
      · rw [get_alter_of_ne hc, if_neg (by simp [hc])]
        rfl

end

variable {counts : List (α × ℕ)}

theorem getD_incrementOwnerCount (h : Sorted counts) (agentId other : α) :
    (get other (incrementOwnerCount counts agentId)).getD 0 =
      (get other counts).getD 0 + if other = agentId then 1 else 0 := by
  by_cases ho : other = agentId
  · subst ho
    simp [incrementOwnerCount, get_alter_self h]
  · simp [incrementOwnerCount, get_alter_of_ne ho, ho]

@[simp] theorem subtreeOwnerCounts_insert (agentId : α) (components : List String)
    (node : LeaseTrieNode α) :
    (node.insert agentId components).subtreeOwnerCounts =
      incrementOwnerCount node.subtreeOwnerCounts agentId := by
  cases components <;> cases node <;> rfl

theorem WF.countOf_insert (h : node.WF) (agentId other : α) (components : List String) :
    (node.insert agentId components).countOf other =
      node.countOf other + if other = agentId then 1 else 0 := by
  rw [countOf, subtreeOwnerCounts_insert, getD_incrementOwnerCount h.countsSorted]
  rfl

theorem positive_incrementOwnerCount (h : Sorted counts)
    (hpos : ∀ entry ∈ counts, 0 < entry.2) (agentId : α) :
    ∀ entry ∈ incrementOwnerCount counts agentId, 0 < entry.2 := by
  refine h.forall_mem_alter (P := fun count => 0 < count) hpos fun v hv => ?_
  cases hv
  exact Nat.succ_pos _

theorem isEmpty_insert (agentId : α) (components : List String) (node : LeaseTrieNode α) :
    (node.insert agentId components).isEmpty = false := by
  have hcounts : (incrementOwnerCount node.subtreeOwnerCounts agentId).isEmpty = false := by
    unfold incrementOwnerCount
    cases node.subtreeOwnerCounts with
    | nil => rfl
    | cons x m =>
      rw [alter]
      split
      · rfl
      · split <;> rfl
  obtain ⟨owner, counts, children⟩ := node
  cases components <;> simp_all [insert, isEmpty, subtreeOwnerCounts]

/-- **Inserting a lease on a free path keeps the trie well formed.** -/
theorem WF.insert (h : node.WF) (agentId : α) (hfree : node.leaseAt components = none) :
    (node.insert agentId components).WF := by
  induction components generalizing node with
  | nil =>
    cases h with
    | @mk owner counts children countsSorted positive childrenSorted total live below =>
      obtain rfl : owner = none := hfree
      refine .mk (countsSorted.alter _ _)
        (positive_incrementOwnerCount countsSorted positive agentId) childrenSorted
        (fun other => ?_) live below
      rw [getD_incrementOwnerCount countsSorted, total other]
      by_cases ho : other = agentId
      · subst ho
        simp
        omega
      · simp [ho, Ne.symm ho]
  | cons component components ih =>
    have hchild := h.getD_child component
    have hchildFree := (leaseAt_getD_child node component components).trans hfree
    cases h with
    | @mk owner counts children countsSorted positive childrenSorted total live below =>
      refine .mk (countsSorted.alter _ _)
        (positive_incrementOwnerCount countsSorted positive agentId)
        (childrenSorted.alter _ _) (fun other => ?_) ?_ ?_
      · have hsum := sum_alter childrenSorted (fun child => child.countOf other) component
          (fun child => some (.insert agentId components (child.getD empty)))
        have hcount : (LeaseTrieNode.insert agentId components
            ((get component children).getD empty)).countOf other =
              ((get component children).getD empty).countOf other +
                if other = agentId then 1 else 0 :=
          hchild.countOf_insert agentId other components
        have hweight : weight (fun child => child.countOf other) (get component children) =
            ((get component children).getD empty).countOf other := by
          cases get component children <;> rfl
        rw [getD_incrementOwnerCount countsSorted, total other]
        rw [weight_some, hweight] at hsum
        omega
      · refine childrenSorted.forall_mem_alter (P := fun child => child.isEmpty = false) live
          fun v hv => ?_
        cases hv
        exact isEmpty_insert _ _ _
      · refine childrenSorted.forall_mem_alter (P := WF) below fun v hv => ?_
        cases hv
        exact ih hchild hchildFree

/-! ### Removal -/

@[simp] theorem subtreeOwnerCounts_remove (agentId : α) (components : List String)
    (node : LeaseTrieNode α) :
    (node.remove agentId components).subtreeOwnerCounts =
      decrementOwnerCount node.subtreeOwnerCounts agentId := by
  cases components <;> cases node <;> rfl

/-- **Removal takes the owner from the path and changes no other.** -/
theorem WF.leaseAt_remove (h : node.WF) (agentId : α) (components components' : List String) :
    (node.remove agentId components).leaseAt components' =
      if components' = components then none else node.leaseAt components' := by
  induction components generalizing node components' with
  | nil =>
    cases node
    cases components' <;> rfl
  | cons component components ih =>
    have hsorted := h.childrenSorted
    have hbelow : ∀ child, get component node.children = some child → child.WF := fun _ => h.child
    obtain ⟨owner, counts, children⟩ := node
    simp only [LeaseTrieNode.children] at hsorted hbelow
    cases components' with
    | nil => rfl
    | cons c cs =>
      change (get c (alter component _ children)).bind _ = _
      by_cases hc : c = component
      · subst hc
        rw [get_alter_self hsorted, bind_leaseAt_filter, leaseAt]
        cases hchild : get c children with
        | none => simp [LeaseTrieNode.children, hchild]
        | some child => simpa [LeaseTrieNode.children, hchild] using ih (hbelow child hchild) cs
      · rw [get_alter_of_ne hc, if_neg (by simp [hc])]
        rfl

theorem getD_decrementOwnerCount (h : Sorted counts) (agentId other : α) :
    (get other (decrementOwnerCount counts agentId)).getD 0 =
      (get other counts).getD 0 - if other = agentId then 1 else 0 := by
  by_cases ho : other = agentId
  · subst ho
    rw [decrementOwnerCount, get_alter_self h, if_pos rfl]
    cases get other counts with
    | none => rfl
    | some count =>
      dsimp only
      split
      · rfl
      · simp only [getD_none, getD_some]
        omega
  · simp [decrementOwnerCount, get_alter_of_ne ho, ho]

theorem positive_decrementOwnerCount (h : Sorted counts)
    (hpos : ∀ entry ∈ counts, 0 < entry.2) (agentId : α) :
    ∀ entry ∈ decrementOwnerCount counts agentId, 0 < entry.2 := by
  refine h.forall_mem_alter (P := fun count => 0 < count) hpos fun v hv => ?_
  split at hv
  · split at hv
    · cases hv
      omega
    · cases hv
  · cases hv

theorem WF.countOf_remove (h : node.WF) (agentId other : α) (components : List String) :
    (node.remove agentId components).countOf other =
      node.countOf other - if other = agentId then 1 else 0 := by
  rw [countOf, subtreeOwnerCounts_remove, getD_decrementOwnerCount h.countsSorted]
  rfl

theorem countOf_of_isEmpty (h : node.isEmpty = true) (agentId : α) : node.countOf agentId = 0 := by
  obtain ⟨owner, counts, children⟩ := node
  simp only [isEmpty, Bool.and_eq_true, List.isEmpty_iff] at h
  obtain ⟨-, rfl⟩ := h
  rfl

theorem weight_filter_isEmpty (agentId : α) (child : Option (LeaseTrieNode α)) :
    weight (fun child => child.countOf agentId) (child.filter fun child => !child.isEmpty) =
      weight (fun child => child.countOf agentId) child := by
  cases child with
  | none => rfl
  | some child =>
    cases hempty : child.isEmpty with
    | true => simp [Option.filter, hempty, countOf_of_isEmpty hempty]
    | false => simp [Option.filter, hempty]

/-- **Removing a lease keeps the trie well formed.** -/
theorem WF.remove (h : node.WF) (hlease : node.leaseAt components = some agentId) :
    (node.remove agentId components).WF := by
  induction components generalizing node with
  | nil =>
    cases h with
    | @mk owner counts children countsSorted positive childrenSorted total live below =>
      obtain rfl : owner = some agentId := hlease
      refine .mk (countsSorted.alter _ _)
        (positive_decrementOwnerCount countsSorted positive agentId) childrenSorted
        (fun other => ?_) live below
      rw [getD_decrementOwnerCount countsSorted, total other]
      by_cases ho : other = agentId
      · subst ho
        simp
      · simp [ho, Ne.symm ho]
  | cons component components ih =>
    obtain ⟨child, hchild, hbelow⟩ := bind_eq_some_iff.mp hlease
    have hwf := h.child hchild
    have hpos := hwf.countOf_pos hbelow
    cases h with
    | @mk owner counts children countsSorted positive childrenSorted total live below =>
      have hget : get component children = some child := hchild
      refine .mk (countsSorted.alter _ _)
        (positive_decrementOwnerCount countsSorted positive agentId)
        (childrenSorted.alter _ _) (fun other => ?_) ?_ ?_
      · have hsum := sum_alter childrenSorted (fun child => child.countOf other) component
          (fun child =>
            (child.map (.remove agentId components)).filter
              fun child => !child.isEmpty)
        rw [weight_filter_isEmpty, hget, map_some, weight_some, weight_some,
          hwf.countOf_remove] at hsum
        rw [getD_decrementOwnerCount countsSorted, total other]
        by_cases ho : other = agentId
        · subst ho
          rw [if_pos rfl] at hsum ⊢
          omega
        · rw [if_neg ho] at hsum ⊢
          omega
      · refine childrenSorted.forall_mem_alter (P := fun child => child.isEmpty = false) live
          fun v hv => ?_
        simpa using (filter_eq_some_iff.mp hv).2
      · refine childrenSorted.forall_mem_alter (P := WF) below fun v hv => ?_
        obtain ⟨hv, -⟩ := filter_eq_some_iff.mp hv
        rw [hget] at hv
        cases hv
        exact ih hwf hbelow

/-! ### Canonical tries -/

/-- A node that is not pruned has a lease at or below it. -/
theorem WF.exists_lease (h : node.WF) (hlive : node.isEmpty = false) :
    ∃ components owner, node.leaseAt components = some owner := by
  induction h with
  | @mk owner counts children _ positive _ total live _ ih =>
    match owner, children, counts with
    | some owner, _, _ => exact ⟨[], owner, rfl⟩
    | none, entry :: _, _ =>
      obtain ⟨components, owner, hlease⟩ := ih entry mem_cons_self (live entry mem_cons_self)
      refine ⟨entry.1 :: components, owner, ?_⟩
      simpa [leaseAt, LeaseTrieNode.children, SortedMap.get] using hlease
    | none, [], (agentId, count) :: _ =>
      -- Nothing is left that the count could be of.
      have hcount : count = 0 := by simpa [SortedMap.get] using total agentId
      exact absurd hcount (positive (agentId, count) mem_cons_self).ne'

theorem get_counts_eq (hpos : ∀ entry ∈ counts, 0 < entry.2) (agentId : α) :
    get agentId counts = (some ((get agentId counts).getD 0)).filter (0 < ·) := by
  cases hget : get agentId counts with
  | none => rfl
  | some count => simp [Option.filter, (hpos _ (mem_of_get hget)).ne']

/-- **Well-formed tries with the same leases are equal**, nodes and counts included. -/
theorem WF.ext {node' : LeaseTrieNode α} (h : node.WF) (h' : node'.WF)
    (heq : ∀ components, node.leaseAt components = node'.leaseAt components) : node = node' := by
  induction h generalizing node' with
  | @mk owner counts children countsSorted positive childrenSorted total live below ih =>
    cases h' with
    | @mk owner' counts' children' countsSorted' positive' childrenSorted' total' live' below' =>
      obtain rfl : owner = owner' := heq []
      obtain rfl : children = children' := by
        refine childrenSorted.ext childrenSorted' fun component => ?_
        have hbelow : ∀ components, (get component children).bind (leaseAt components) =
            (get component children').bind (leaseAt components) :=
          fun components => heq (component :: components)
        cases hget : get component children with
        | none =>
          cases hget' : get component children' with
          | none => rfl
          | some child' =>
            have hmem := childrenSorted'.mem_iff.mpr hget'
            obtain ⟨components, owner, hlease⟩ := (below' _ hmem).exists_lease (live' _ hmem)
            simpa [hget, hget', hlease] using hbelow components
        | some child =>
          have hmem := childrenSorted.mem_iff.mpr hget
          cases hget' : get component children' with
          | none =>
            obtain ⟨components, owner, hlease⟩ := (below _ hmem).exists_lease (live _ hmem)
            simpa [hget, hget', hlease] using hbelow components
          | some child' =>
            refine congrArg some (ih _ hmem (below' _ (childrenSorted'.mem_iff.mpr hget'))
              fun components => ?_)
            simpa [hget, hget'] using hbelow components
      obtain rfl : counts = counts' := by
        refine countsSorted.ext countsSorted' fun agentId => ?_
        rw [get_counts_eq positive, get_counts_eq positive', total, total']
      rfl

end LeaseTrieNode

end Nanoclaw
