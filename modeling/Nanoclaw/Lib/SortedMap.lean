import Mathlib.Algebra.BigOperators.Group.List.Basic
import Mathlib.Data.Nat.Cast.Basic
import Mathlib.Order.Lattice

/-!
# Sorted Maps

A map as the list of its entries in the order of the keys. It is a plain list, so that an
inductive type may hold maps of itself; `Sorted` is the invariant. Every change is an instance
of `alter k f`, which hands the value under `k` to `f` and keeps what `f` returns.
-/

namespace SortedMap

open List

variable {κ ν : Type}

/-! ### Sums over the values -/

/-- The sum of a function over the values. -/
def sum (g : ν → ℕ) (m : List (κ × ν)) : ℕ :=
  (m.map fun x => g x.2).sum

/-- What a function gives for an optional value. -/
def weight (g : ν → ℕ) (o : Option ν) : ℕ :=
  (o.map g).getD 0

variable (g : ν → ℕ)

@[simp] theorem weight_none : weight g none = 0 := rfl

@[simp] theorem weight_some (v : ν) : weight g (some v) = g v := rfl

@[simp] theorem sum_nil : sum g ([] : List (κ × ν)) = 0 := rfl

@[simp] theorem sum_cons (x : κ × ν) (m : List (κ × ν)) : sum g (x :: m) = g x.2 + sum g m := rfl

@[simp] theorem sum_toList_append (k : κ) (o : Option ν) (m : List (κ × ν)) :
    sum g ((o.map fun v => (k, v)).toList ++ m) = weight g o + sum g m := by
  cases o <;> simp

theorem sum_pos {x : κ × ν} {m : List (κ × ν)} (hmem : x ∈ m) (hpos : 0 < g x.2) : 0 < sum g m := by
  induction m with
  | nil => cases hmem
  | cons y m ih =>
    rw [sum_cons]
    rcases List.mem_cons.mp hmem with rfl | hmem
    · exact Nat.add_pos_left hpos _
    · exact Nat.add_pos_right _ (ih hmem)

/-! ### Lookup and change -/

variable [LinearOrder κ]

/-- The entries are in strictly increasing order of their keys. -/
def Sorted (m : List (κ × ν)) : Prop :=
  m.Pairwise fun x y => x.1 < y.1

/-- The value under a key. -/
def get (k : κ) : List (κ × ν) → Option ν
  | [] => none
  | (k', v) :: m => if k = k' then some v else get k m

/-- **Change the value under a key**: `f` gets the old value and returns the new one. -/
def alter (k : κ) (f : Option ν → Option ν) : List (κ × ν) → List (κ × ν)
  | [] => ((f none).map fun v => (k, v)).toList
  | (k', v) :: m =>
    if k < k' then ((f none).map fun v => (k, v)).toList ++ (k', v) :: m
    else if k = k' then ((f (some v)).map fun v => (k, v)).toList ++ m
    else (k', v) :: alter k f m

@[simp] theorem get_nil (k : κ) : get k ([] : List (κ × ν)) = none := rfl

@[simp] theorem get_toList_append (k k' : κ) (o : Option ν) (m : List (κ × ν)) :
    get k ((o.map fun v => (k', v)).toList ++ m) =
      if k = k' then (match o with | some v => some v | none => get k m) else get k m := by
  cases o <;> simp [get]

/-! ### Lookups -/

variable {m : List (κ × ν)} {x : κ × ν}

theorem Sorted.tail (h : Sorted (x :: m)) : Sorted m :=
  .of_cons h

variable {k : κ}

/-- A key below all keys has no value. -/
theorem get_eq_none_of_forall_lt (h : ∀ x ∈ m, k < x.1) : get k m = none := by
  induction m with
  | nil => rfl
  | cons x m ih =>
    obtain ⟨k', v⟩ := x
    have hlt : k < k' := h (k', v) mem_cons_self
    rw [get, if_neg hlt.ne]
    exact ih fun x hx => h x (mem_cons_of_mem _ hx)

theorem Sorted.get_tail (h : Sorted (x :: m)) : get x.1 m = none :=
  get_eq_none_of_forall_lt fun _ hy => rel_of_pairwise_cons h hy

theorem Sorted.get_of_lt (h : Sorted (x :: m)) (hlt : k < x.1) : get k (x :: m) = none :=
  get_eq_none_of_forall_lt
    (forall_mem_cons.mpr ⟨hlt, fun _ hy => hlt.trans (rel_of_pairwise_cons h hy)⟩)

variable {v : ν} {f : Option ν → Option ν}

theorem mem_of_get (h : get k m = some v) : (k, v) ∈ m := by
  induction m with
  | nil => cases h
  | cons x m ih =>
    rw [get] at h
    split at h
    next hk =>
      subst hk
      cases h
      exact mem_cons_self
    next => exact mem_cons_of_mem _ (ih h)

section

variable (h : Sorted m)

include h

/-- In a sorted map, the entries are what lookup finds. -/
theorem Sorted.mem_iff : (k, v) ∈ m ↔ get k m = some v := by
  refine ⟨fun hmem => ?_, mem_of_get⟩
  induction m with
  | nil => cases hmem
  | cons x m ih =>
    obtain ⟨k', v'⟩ := x
    rcases mem_cons.mp hmem with heq | hmem
    · cases heq
      simp [get]
    · have hlt : k' < k := rel_of_pairwise_cons h hmem
      rw [get, if_neg hlt.ne']
      exact ih h.tail hmem

theorem Sorted.mem_keys_iff : k ∈ m.map Prod.fst ↔ (get k m).isSome = true := by
  rw [Option.isSome_iff_exists, mem_map]
  constructor
  · rintro ⟨⟨k, v⟩, hmem, rfl⟩
    exact ⟨v, h.mem_iff.mp hmem⟩
  · rintro ⟨v, hget⟩
    exact ⟨(k, v), mem_of_get hget, rfl⟩

theorem Sorted.nodup_keys : (m.map Prod.fst).Nodup :=
  pairwise_map.mpr (h.imp fun hlt => hlt.ne)

/-- The entries under a key are the one that lookup finds. -/
theorem Sorted.filter_key (k : κ) :
    m.filter (fun x => decide (x.1 = k)) = ((get k m).map fun v => (k, v)).toList := by
  induction m with
  | nil => rfl
  | cons x m ih =>
    obtain ⟨k', v⟩ := x
    by_cases hk : k' = k
    · subst hk
      rw [filter_cons_of_pos (by simp), ih h.tail, h.get_tail, get, if_pos rfl]
      rfl
    · rw [filter_cons_of_neg (by simpa using hk), ih h.tail, get, if_neg (Ne.symm hk)]

/-- **Lookup of the changed key.** -/
theorem get_alter_self (k : κ) (f : Option ν → Option ν) : get k (alter k f m) = f (get k m) := by
  induction m with
  | nil => cases hf : f none <;> simp [alter, get, hf]
  | cons x m ih =>
    obtain ⟨k', v⟩ := x
    rw [alter]
    split
    next hlt =>
      rw [get_toList_append, if_pos rfl, h.get_of_lt hlt]
      cases f none <;> rfl
    next =>
      split
      next hk =>
        subst hk
        rw [get_toList_append, if_pos rfl, h.get_tail, get, if_pos rfl]
        cases f (some v) <;> rfl
      next hk => rw [get, if_neg hk, ih h.tail, get, if_neg hk]

end

/-- **Lookup of another key.** -/
theorem get_alter_of_ne {k' : κ} (hne : k' ≠ k) (f : Option ν → Option ν)
    (m : List (κ × ν)) : get k' (alter k f m) = get k' m := by
  induction m with
  | nil => rw [alter, ← append_nil (Option.toList _), get_toList_append, if_neg hne]
  | cons x m ih =>
    rw [alter]
    split
    · rw [get_toList_append, if_neg hne]
    · split
      next hk =>
        subst hk
        rw [get_toList_append, if_neg hne, get, if_neg hne]
      next => rw [get, ih, get]

/-! ### The invariant -/

theorem mem_alter (h : x ∈ alter k f m) : x.1 = k ∨ x ∈ m := by
  induction m with
  | nil =>
    left
    cases hf : f none <;> simp_all [alter]
  | cons y m ih =>
    obtain ⟨k', v⟩ := y
    rw [alter] at h
    split at h
    · rcases mem_append.mp h with h | h
      · left
        cases hf : f none <;> simp_all
      · exact .inr h
    · split at h
      · rcases mem_append.mp h with h | h
        · left
          cases hf : f (some v) <;> simp_all
        · exact .inr (mem_cons_of_mem _ h)
      · rcases mem_cons.mp h with rfl | h
        · exact .inr mem_cons_self
        · exact (ih h).imp_right (mem_cons_of_mem _)

/-- **Changes keep the map sorted.** -/
theorem Sorted.alter (h : Sorted m) (k : κ) (f : Option ν → Option ν) : Sorted (alter k f m) := by
  induction m with
  | nil => cases hf : f none <;> simp [SortedMap.alter, Sorted, hf]
  | cons x m ih =>
    obtain ⟨k', v⟩ := x
    rw [SortedMap.alter]
    have hbelow : ∀ y ∈ m, k' < y.1 := fun y hy => rel_of_pairwise_cons h hy
    split
    next hlt =>
      cases f none with
      | none => exact h
      | some w => exact .cons (forall_mem_cons.mpr ⟨hlt, fun y hy => hlt.trans (hbelow y hy)⟩) h
    next hge =>
      split
      next hk =>
        subst hk
        cases f (some v) with
        | none => exact h.tail
        | some w => exact .cons hbelow h.tail
      next hk =>
        refine .cons (fun y hy => ?_) (ih h.tail)
        rcases mem_alter hy with hy | hy
        · exact hy ▸ lt_of_le_of_ne (not_lt.mp hge) (.symm hk)
        · exact hbelow y hy

/-- A changed map has a property if the new value and the old entries have it. -/
theorem Sorted.forall_mem_alter (h : Sorted m) {P : ν → Prop} (hold : ∀ entry ∈ m, P entry.2)
    (hnew : ∀ v, f (get k m) = some v → P v) : ∀ entry ∈ SortedMap.alter k f m, P entry.2 := by
  rintro ⟨k', v⟩ hmem
  have hget := (h.alter k f).mem_iff.mp hmem
  by_cases hk : k' = k
  · subst hk
    exact hnew v ((get_alter_self h k' f).symm.trans hget)
  · rw [get_alter_of_ne hk] at hget
    exact hold _ (mem_of_get hget)

/-- **Sorted maps with equal lookups are equal.** -/
theorem Sorted.ext {m' : List (κ × ν)} (h : Sorted m) (h' : Sorted m')
    (heq : ∀ k, get k m = get k m') : m = m' := by
  refine List.Perm.eq_of_pairwise (fun x y _ _ hxy hyx => absurd hxy hyx.asymm) h h' ?_
  have hnodup : ∀ {n : List (κ × ν)}, Sorted n → n.Nodup := fun hn =>
    .imp (fun hlt heq => absurd (heq ▸ hlt) (lt_irrefl _)) hn
  refine (perm_ext_iff_of_nodup (hnodup h) (hnodup h')).mpr fun x => ?_
  obtain ⟨k, v⟩ := x
  rw [h.mem_iff, h'.mem_iff, heq k]

/-! ### Sums and changes -/

/-- **A change moves the sum by what it does to the value under the key.** -/
theorem sum_alter (h : Sorted m) (g : ν → ℕ) (k : κ) (f : Option ν → Option ν) :
    sum g (alter k f m) + weight g (get k m) = sum g m + weight g (f (get k m)) := by
  induction m with
  | nil =>
    rw [alter, ← append_nil (Option.toList _), sum_toList_append]
    simp
  | cons x m ih =>
    obtain ⟨k', v⟩ := x
    rw [alter]
    split
    next hlt =>
      rw [sum_toList_append, h.get_of_lt hlt, weight_none]
      omega
    next =>
      split
      next hk =>
        subst hk
        rw [sum_toList_append, sum_cons, get, if_pos rfl, weight_some]
        dsimp only
        omega
      next hk =>
        have := ih h.tail
        rw [sum_cons, sum_cons, get, if_neg hk]
        omega

/-! ### Distinct elements -/

/-- The elements of a list in the order of their keys, the first one of each key. -/
def distinct {α : Type} (key : α → κ) (xs : List α) : List α :=
  (xs.foldl (fun m x => alter (key x) (fun old => some (old.getD x)) m) []).map Prod.snd

section

variable {α : Type}

theorem sorted_foldl_alter (key : α → κ) {m : List (κ × α)} (h : Sorted m) (xs : List α) :
    Sorted (xs.foldl (fun m x => alter (key x) (fun old => some (old.getD x)) m) m) := by
  induction xs generalizing m with
  | nil => exact h
  | cons x xs ih => exact ih (h.alter _ _)

/-- What collecting the elements of a list leaves under a key. -/
theorem get_foldl_alter (key : α → κ) {m : List (κ × α)} (h : Sorted m) (xs : List α) (k : κ) :
    get k (xs.foldl (fun m x => alter (key x) (fun old => some (old.getD x)) m) m) =
      (get k m).or (xs.find? fun x => key x == k) := by
  induction xs generalizing m with
  | nil => simp
  | cons x xs ih =>
    rw [foldl_cons, ih (h.alter _ _), find?_cons]
    by_cases hk : key x = k
    · subst hk
      rw [get_alter_self h]
      cases hget : get (key x) m <;> simp
    · have hne : (key x == k) = false := by simpa using hk
      rw [get_alter_of_ne (Ne.symm hk), hne]

variable {key : α → κ} {xs : List α} {x : α}

theorem mem_distinct : x ∈ distinct key xs ↔ xs.find? (fun y => key y == key x) = some x := by
  have hsorted := sorted_foldl_alter key (.nil : Sorted []) xs
  have hget := get_foldl_alter key (.nil : Sorted []) xs
  constructor
  · intro hx
    obtain ⟨⟨k, v⟩, hmem, rfl⟩ := mem_map.mp hx
    have hfind := (hget k).symm.trans (hsorted.mem_iff.mp hmem)
    have hk : key v = k := by simpa using find?_some hfind
    rw [hk]
    exact hfind
  · intro hfind
    exact mem_map.mpr ⟨(key x, x), hsorted.mem_iff.mpr ((hget (key x)).trans hfind), rfl⟩

/-- Every key of the list is still there. -/
theorem exists_mem_distinct (key : α → κ) (h : x ∈ xs) : ∃ y ∈ distinct key xs, key y = key x := by
  obtain ⟨y, hy⟩ : ∃ y, xs.find? (fun y => key y == key x) = some y := by
    rw [← Option.isSome_iff_exists, find?_isSome]
    exact ⟨x, h, by simp⟩
  have hkey : key y = key x := by simpa using find?_some hy
  exact ⟨y, mem_distinct.mpr (by rw [hkey]; exact hy), hkey⟩

/-- If the keys tell the elements apart, nothing is lost. -/
theorem mem_distinct_iff (hkey : Function.Injective key) : x ∈ distinct key xs ↔ x ∈ xs := by
  refine ⟨fun h => mem_of_find?_eq_some (mem_distinct.mp h), fun hx => ?_⟩
  obtain ⟨y, hy, heq⟩ := exists_mem_distinct key hx
  exact hkey heq ▸ hy

@[simp] theorem distinct_eq_nil : distinct key xs = [] ↔ xs = [] := by
  constructor
  · intro h
    by_contra hne
    obtain ⟨x, hx⟩ := exists_mem_of_ne_nil _ hne
    obtain ⟨y, hy, -⟩ := exists_mem_distinct key hx
    rw [h] at hy
    cases hy
  · rintro rfl
    rfl

end

end SortedMap
