import Mathlib.Data.List.Sort
import Nanoclaw.Lib.SortedMap

/-!
# Ordered Maps

A map that carries the order of its entries, over `SortedMap`. Lookup needs no side condition,
and two maps with equal lookups are equal. `get_foldl_alter` is for loops that change, for every
element of a list, the entry of its key.
-/

/-- **A map with its entries in the order of the keys.** -/
structure OrdMap (κ ν : Type) [LinearOrder κ] where
  entries : List (κ × ν)
  sorted : SortedMap.Sorted entries

namespace OrdMap

open List

variable {κ ν : Type} [LinearOrder κ]

instance [DecidableEq ν] : DecidableEq (OrdMap κ ν) := fun m m' =>
  decidable_of_iff (m.entries = m'.entries) ⟨fun h => by cases m; cases m'; congr, congrArg _⟩

/-- The map without entries. -/
def empty : OrdMap κ ν where
  entries := []
  sorted := List.Pairwise.nil

/-- The value under a key. -/
def get (k : κ) (m : OrdMap κ ν) : Option ν :=
  SortedMap.get k m.entries

/-- Change the value under a key. -/
def alter (k : κ) (f : Option ν → Option ν) (m : OrdMap κ ν) : OrdMap κ ν where
  entries := SortedMap.alter k f m.entries
  sorted := m.sorted.alter k f

/-- Set the value under a key. -/
def insert (k : κ) (v : ν) (m : OrdMap κ ν) : OrdMap κ ν :=
  m.alter k fun _ => some v

/-- Drop a key. -/
def erase (k : κ) (m : OrdMap κ ν) : OrdMap κ ν :=
  m.alter k fun _ => none

/-- The keys in order. -/
def keys (m : OrdMap κ ν) : List κ :=
  m.entries.map Prod.fst

/-- The values in the order of their keys. -/
def values (m : OrdMap κ ν) : List ν :=
  m.entries.map Prod.snd

/-! ### Lookup -/

@[simp] theorem get_empty (k : κ) : get k (empty : OrdMap κ ν) = none := rfl

theorem get_alter (k k' : κ) (f : Option ν → Option ν) (m : OrdMap κ ν) :
    get k' (m.alter k f) = if k' = k then f (get k m) else get k' m := by
  split
  next h =>
    subst h
    exact SortedMap.get_alter_self m.sorted ..
  next h => exact SortedMap.get_alter_of_ne h ..

@[simp] theorem get_alter_self (k : κ) (f : Option ν → Option ν) (m : OrdMap κ ν) :
    get k (m.alter k f) = f (get k m) := by
  rw [get_alter, if_pos rfl]

theorem get_insert (k k' : κ) (v : ν) (m : OrdMap κ ν) :
    get k' (m.insert k v) = if k' = k then some v else get k' m :=
  get_alter ..

theorem get_erase (k k' : κ) (m : OrdMap κ ν) :
    get k' (m.erase k) = if k' = k then none else get k' m :=
  get_alter ..

variable {m : OrdMap κ ν} {k : κ} {v : ν} {α : Type}

/-- Dropping a key that is there makes a map smaller. -/
theorem length_erase_lt (h : m.get k = some v) : (m.erase k).entries.length < m.entries.length := by
  have hlength : ∀ l : List (κ × ν), SortedMap.sum (fun _ => 1) l = l.length := fun l => by
    simp [SortedMap.sum]
  have hsum := SortedMap.sum_alter m.sorted (fun _ => 1) k fun _ => none
  rw [show SortedMap.get k m.entries = some v from h, SortedMap.weight_none, hlength,
    hlength] at hsum
  exact Nat.lt_of_succ_le (Nat.le_of_eq hsum)

@[ext] theorem ext {m' : OrdMap κ ν} (h : ∀ k, m.get k = m'.get k) : m = m' := by
  obtain ⟨entries, sorted⟩ := m
  obtain ⟨entries', sorted'⟩ := m'
  congr
  exact sorted.ext sorted' h

theorem mem_entries : (k, v) ∈ m.entries ↔ m.get k = some v :=
  m.sorted.mem_iff

theorem mem_keys : k ∈ m.keys ↔ (m.get k).isSome = true :=
  m.sorted.mem_keys_iff

variable {μ : Type}

/-- Maps have the same keys if lookup finds something under the same keys. -/
theorem keys_eq_iff {m' : OrdMap κ μ} :
    m.keys = m'.keys ↔ ∀ k, (m.get k).isSome = (m'.get k).isSome := by
  constructor
  · intro h k
    rw [Bool.eq_iff_iff, ← mem_keys, ← mem_keys, h]
  · intro h
    have hmem : ∀ k, k ∈ m.keys ↔ k ∈ m'.keys := fun k => by rw [mem_keys, mem_keys, h]
    exact (pairwise_map.mpr m.sorted : m.keys.Pairwise (· < ·)).eq_of_mem_iff
      (pairwise_map.mpr m'.sorted) hmem

theorem filterMap_entries (f : κ × ν → Option α) (m : OrdMap κ ν) :
    m.entries.filterMap f = m.keys.filterMap fun k => (m.get k).bind fun v => f (k, v) := by
  rw [keys, filterMap_map]
  refine filterMap_congr fun (k, v) hentry => ?_
  rw [Function.comp_apply, mem_entries.mp hentry]
  rfl

/-! ### Changing all values -/

/-- Apply a function to every value. -/
def map {μ : Type} (f : ν → μ) (m : OrdMap κ ν) : OrdMap κ μ where
  entries := m.entries.map fun entry : κ × ν => (entry.1, f entry.2)
  sorted := pairwise_map.mpr m.sorted

variable (f : ν → μ)

@[simp] theorem get_map (m : OrdMap κ ν) (k : κ) : get k (m.map f) = (m.get k).map f := by
  change SortedMap.get k (m.entries.map fun entry => (entry.1, f entry.2)) =
    (SortedMap.get k m.entries).map f
  induction m.entries with
  | nil => rfl
  | cons entry entries ih =>
    rw [map_cons, SortedMap.get, SortedMap.get, ih]
    split <;> rfl

theorem values_map (m : OrdMap κ ν) : (m.map f).values = m.values.map f := by
  simp [values, map]

theorem map_insert (m : OrdMap κ ν) (k : κ) (v : ν) :
    (m.insert k v).map f = (m.map f).insert k (f v) := by
  ext1 k'
  rw [get_map, get_insert, get_insert, get_map]
  split <;> rfl

/-! ### Walking over a list -/

/-- **What a walk leaves under a key**: the elements with that key, one after the other. -/
theorem get_foldl_alter (key : α → κ) (f : α → Option ν → Option ν) (xs : List α) (m : OrdMap κ ν)
    (k : κ) [DecidablePred fun x => key x = k] :
    get k (xs.foldl (fun m x => m.alter (key x) (f x)) m) =
      (xs.filter fun x => decide (key x = k)).foldl (fun value x => f x value) (m.get k) := by
  induction xs generalizing m with
  | nil => rfl
  | cons x xs ih =>
    rw [foldl_cons, ih, get_alter]
    by_cases hk : key x = k
    · rw [if_pos hk.symm, filter_cons_of_pos (by simpa using hk), foldl_cons, hk]
    · rw [if_neg (Ne.symm hk), filter_cons_of_neg (by simpa using hk)]

/-- A walk over the entries of a map changes every key once. -/
theorem get_foldl_entries (m' : OrdMap κ μ) (f : κ × μ → Option ν → Option ν)
    (m : OrdMap κ ν) (k : κ) :
    get k (m'.entries.foldl (fun m entry => m.alter entry.1 (f entry)) m) =
      match m'.get k with
      | some value => f (k, value) (m.get k)
      | none => m.get k := by
  rw [get_foldl_alter, m'.sorted.filter_key]
  change _ = match SortedMap.get k m'.entries with
    | some value => f (k, value) (m.get k)
    | none => m.get k
  cases SortedMap.get k m'.entries <;> rfl

/-- Inserting values one after the other. -/
theorem get_foldl_insert (key : α → κ) (value : α → ν) (xs : List α) (m : OrdMap κ ν) (k : κ) :
    (∃ x ∈ xs, key x = k ∧
        get k (xs.foldl (fun m x => m.insert (key x) (value x)) m) = some (value x)) ∨
      (∀ x ∈ xs, key x ≠ k) ∧
        get k (xs.foldl (fun m x => m.insert (key x) (value x)) m) = m.get k := by
  induction xs generalizing m with
  | nil => exact .inr ⟨nofun, rfl⟩
  | cons x xs ih =>
    rcases ih (m.insert (key x) (value x)) with ⟨y, hy, hget⟩ | ⟨hne, hget⟩
    · exact .inl ⟨y, mem_cons_of_mem _ hy, hget⟩
    · rw [get_insert] at hget
      by_cases hk : k = key x
      · exact .inl ⟨x, mem_cons_self, hk.symm, hget.trans (if_pos hk)⟩
      · exact .inr ⟨forall_mem_cons.mpr ⟨Ne.symm hk, hne⟩, hget.trans (if_neg hk)⟩

/-- Dropping keys one after the other. -/
theorem get_foldl_erase (ks : List κ) (m : OrdMap κ ν) (k : κ) :
    get k (ks.foldl (fun m k => m.erase k) m) = if k ∈ ks then none else m.get k := by
  induction ks generalizing m with
  | nil => simp
  | cons k' ks ih =>
    rw [foldl_cons, ih, get_erase]
    by_cases hk : k = k' <;> simp [hk]

end OrdMap
