import Mathlib.Data.List.Infix
import Nanoclaw.Lib.FileTree

/-!
# Edits of File Trees

Reading, writing and removing the file at a location of a tree. A file can be written where
nothing but directories stand on the way to it, or nothing at all: the missing directories
are made. So a location can be written exactly if it can be read, as a file or as missing.
-/

namespace FileTree

variable {ν κ : Type} {above below : List ν}

/-- What a read gives. -/
inductive Reading (κ : Type) where
  | absent
  | found (content : κ)
  | refused

def Reading.isRefused : Reading κ → Bool
  | .refused => true
  | _ => false

/-- `above` lies strictly above `below`. -/
def Above (above below : List ν) : Prop :=
  above <+: below ∧ above ≠ below

instance [DecidableEq ν] (above below : List ν) : Decidable (Above above below) :=
  inferInstanceAs (Decidable (_ ∧ _))

theorem Above.exists_append (h : Above above below) :
    ∃ names, names ≠ [] ∧ below = above ++ names := by
  obtain ⟨⟨names, rfl⟩, hne⟩ := h
  refine ⟨names, ?_, rfl⟩
  rintro rfl
  exact hne (List.append_nil _).symm

/-- The file at a location, if there is one. -/
def fileAt (tree : FileTree ν κ) (location : List ν) : Option κ :=
  match tree.node location with
  | some (.file content) => some content
  | _ => none

/-- The file or the link at a location, if there is one. -/
def leafAt (tree : FileTree ν κ) (location : List ν) : Option (Node ν κ) :=
  (tree.node location).filter fun node => !node.isDir

variable {tree : FileTree ν κ} {location place : List ν}

theorem fileAt_eq_of_leafAt {tree' : FileTree ν κ}
    (h : tree.leafAt location = tree'.leafAt location) :
    tree.fileAt location = tree'.fileAt location := by
  rw [leafAt, leafAt] at h
  rw [fileAt, fileAt]
  generalize tree.node location = node, tree'.node location = node' at h ⊢
  rcases node with _ | _ | _ | _ <;> rcases node' with _ | _ | _ | _ <;>
    first | rfl | cases h <;> rfl

theorem fileAt_congr {tree' : FileTree ν κ}
    (h : tree.node location = tree'.node place) : tree.fileAt location = tree'.fileAt place := by
  rw [fileAt, fileAt, h]

/-- There is a file at the location, or one can be made there. -/
structure Open (tree : FileTree ν κ) (location : List ν) : Prop where
  clear : ∀ above, Above above location → tree.node above = none ∨ tree.node above = some .dir
  node : tree.node location = none ∨ ∃ content, tree.node location = some (.file content)

section

variable (h : tree.Open location)

include h

theorem Open.not_dir : tree.node location ≠ some .dir := by
  intro hdir
  rcases h.node with hnode | ⟨content, hnode⟩ <;> exact nomatch hdir.symm.trans hnode

theorem Open.not_link (target : Route ν) : tree.node location ≠ some (.link target) := by
  intro hlink
  rcases h.node with hnode | ⟨content, hnode⟩ <;> exact nomatch hlink.symm.trans hnode

theorem Open.ne_nil : location ≠ [] := by
  rintro rfl
  exact h.not_dir tree.root_dir

end

section

variable [DecidableEq ν]

/-- Everything above the location is a directory, or is missing. -/
def clear (tree : FileTree ν κ) (location : List ν) : Bool :=
  location.inits.all fun above =>
    above == location || match tree.node above with
      | none | some .dir => true
      | _ => false

/-- **Reading a file.** -/
def read (tree : FileTree ν κ) (location : List ν) : Reading κ :=
  if tree.clear location then
    match tree.node location with
    | none => .absent
    | some (.file content) => .found content
    | _ => .refused
  else .refused

theorem clear_iff : tree.clear location = true ↔
    ∀ above, Above above location → tree.node above = none ∨ tree.node above = some .dir := by
  simp only [clear, List.all_eq_true, List.mem_inits, Bool.or_eq_true, beq_iff_eq]
  constructor
  · rintro h above ⟨hup, hne⟩
    have hnode := (h above hup).resolve_left hne
    split at hnode
    · exact Or.inl ‹_›
    · exact Or.inr ‹_›
    · cases hnode
  · intro h above hup
    by_cases hne : above = location
    · exact Or.inl hne
    · right
      rcases h above ⟨hup, hne⟩ with hnode | hnode <;> rw [hnode]

/-- **When a location can be read.** -/
theorem isRefused_read : (tree.read location).isRefused = false ↔ tree.Open location := by
  unfold read
  constructor
  · intro h
    split at h
    next hclear =>
      refine ⟨clear_iff.mp hclear, ?_⟩
      split at h
      · exact Or.inl ‹_›
      next content hnode => exact Or.inr ⟨content, hnode⟩
      · cases h
    · cases h
  · rintro ⟨hclear, hnode⟩
    rw [if_pos (clear_iff.mpr hclear)]
    rcases hnode with hnode | ⟨content, hnode⟩ <;> rw [hnode] <;> rfl

instance (tree : FileTree ν κ) (location : List ν) : Decidable (tree.Open location) :=
  decidable_of_iff _ isRefused_read

theorem Open.read (h : tree.Open location) : tree.read location = match tree.fileAt location with
      | some content => .found content
      | none => .absent := by
  rw [FileTree.read, if_pos (clear_iff.mpr h.clear), fileAt]
  rcases h.node with hnode | ⟨content, hnode⟩ <;> rw [hnode]

/-! ### Edits -/

/-- **The tree with a file at the location**, and directories on the way to it. -/
def write (tree : FileTree ν κ) (location : List ν) (content : κ)
    (h : tree.Open location) : FileTree ν κ where
  node := fun place =>
    if place = location then some (.file content)
    else if place <+: location then some .dir
    else tree.node place
  root_dir := by
    rw [if_neg (Ne.symm h.ne_nil), if_pos List.nil_prefix]
  parent_dir place name hsome := by
    by_cases hloc : place ++ [name] <+: location
    · -- The entry is the file or one of the directories on the way.
      have habove : place <+: location := (List.prefix_append _ _).trans hloc
      have hne : place ≠ location := by
        rintro rfl
        exact absurd hloc.length_le (by simp)
      rw [if_neg hne, if_pos habove]
    · have hne : place ++ [name] ≠ location := by
        rintro rfl
        exact hloc List.prefix_rfl
      rw [if_neg hne, if_neg hloc] at hsome
      have hdir := tree.parent_dir place name hsome
      have hne : place ≠ location := by
        rintro rfl
        exact h.not_dir hdir
      rw [if_neg hne, hdir, ite_self]

/-- **The tree without what is at the location**, which is not a directory. -/
def remove (tree : FileTree ν κ) (location : List ν) (h : tree.node location ≠ some .dir) :
    FileTree ν κ where
  node := fun place => if place = location then none else tree.node place
  root_dir := by
    rw [if_neg, tree.root_dir]
    rintro rfl
    exact h tree.root_dir
  parent_dir place name hsome := by
    have hne : place ++ [name] ≠ location := by
      intro heq
      rw [if_pos heq] at hsome
      cases hsome
    rw [if_neg hne] at hsome
    have hdir := tree.parent_dir place name hsome
    have hne : place ≠ location := by
      rintro rfl
      exact h hdir
    rw [if_neg hne, hdir]

section Remove

variable (h : tree.node location ≠ some .dir)

theorem node_remove (place : List ν) :
    (tree.remove location h).node place = if place = location then none else tree.node place := rfl

/-- What can be written stays so when something is removed. -/
theorem Open.remove (hplace : tree.Open place) : (tree.remove location h).Open place where
  clear above hab := by
    rw [node_remove]
    split
    · exact Or.inl rfl
    · exact hplace.clear above hab
  node := by
    rw [node_remove]
    split
    · exact Or.inl rfl
    · exact hplace.node

end Remove

section

variable (h : tree.Open location) (content : κ)

theorem node_write (place : List ν) : (tree.write location content h).node place =
      if place = location then some (.file content)
      else if place <+: location then some .dir
      else tree.node place := rfl

/-- What can be written stays so, unless a file is made above or below it. -/
theorem Open.write (hplace : tree.Open place) (content : κ) (habove : ¬ Above place location)
    (hbelow : ¬ Above location place) : (tree.write location content h).Open place where
  clear above hab := by
    rw [node_write]
    have hne : above ≠ location := by
      rintro rfl
      exact hbelow hab
    rw [if_neg hne]
    split
    · exact Or.inr rfl
    · exact hplace.clear above hab
  node := by
    rw [node_write]
    split
    · exact Or.inr ⟨content, rfl⟩
    next hne =>
      rw [if_neg fun hp => habove ⟨hp, hne⟩]
      exact hplace.node

end

end

theorem node_of_fileAt {content : κ} (h : tree.fileAt location = some content) :
    tree.node location = some (.file content) := by
  unfold fileAt at h
  split at h
  next hnode => rw [hnode, Option.some.inj h]
  · cases h

theorem dir_of_fileAt (habove : Above above below)
    (h : (tree.fileAt below).isSome = true) : tree.node above = some .dir := by
  obtain ⟨content, hcontent⟩ := Option.isSome_iff_exists.mp h
  obtain ⟨names, hne, rfl⟩ := habove.exists_append
  exact dir_above (by rw [node_of_fileAt hcontent]; rfl) hne

/-- **No file stands above another.** -/
theorem not_nested (tree : FileTree ν κ) (habove : (tree.fileAt above).isSome = true)
    (hbelow : (tree.fileAt below).isSome = true) : ¬ Above above below := by
  intro h
  rw [fileAt, dir_of_fileAt h hbelow] at habove
  cases habove

end FileTree
