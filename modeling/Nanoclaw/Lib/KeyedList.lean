import Mathlib.Data.List.AList
import Mathlib.Data.List.ReduceOption
import Nanoclaw.Lib.Positions

/-!
# Keyed Lists, and Slot Arrays that Implement Them

A keyed list has elements with pairwise distinct keys and three edits: append an element under a
fresh key, replace the element under a key in its place, erase it.

`Slots` is the usual mutable representation: an append-only array of optional elements together
with an index from keys to positions. `Slots.Exact` is its invariant: the index knows exactly the
occupied slots.
-/

/-- **The share of one key**: a map collects from the rest and from the entry of the key. -/
theorem AList.flatMap_entries_perm {κ : Type} {ν : κ → Type} {α : Type} [DecidableEq κ]
    {f g : Sigma ν → List α} {k : κ} (hfg : ∀ entry : Sigma ν, entry.1 ≠ k → f entry = g entry)
    (m : AList ν) : (m.entries.flatMap f).Perm
      ((m.lookup k).elim [] (fun v => f ⟨k, v⟩) ++ (m.erase k).entries.flatMap g) := by
  have hsame : ∀ entries : List (Sigma ν), k ∉ entries.keys →
      entries.flatMap f = entries.flatMap g := by
    intro entries hentries
    refine List.flatMap_congr fun entry hentry => hfg entry fun hkey => hentries ?_
    exact hkey ▸ List.mem_keys_of_mem hentry
  change List.Perm _ (_ ++ .flatMap g (.kerase k m.entries))
  by_cases hk : k ∈ m.entries.keys
  · obtain ⟨v, front, back, hfront, hentries, herase⟩ := List.exists_of_kerase hk
    have hlookup : m.lookup k = some v := by
      refine AList.mem_lookup_iff.mpr ?_
      rw [hentries]
      exact List.mem_append_right _ List.mem_cons_self
    have hback : k ∉ List.keys back := by
      have hnodup := m.keys_nodup
      rw [AList.keys, hentries, List.keys, List.map_append, List.nodup_append] at hnodup
      exact (List.nodup_cons.mp hnodup.2.1).1
    rw [hlookup, herase, hentries, List.flatMap_append, List.flatMap_append, hsame front hfront,
      List.flatMap_cons, hsame back hback, ← List.append_assoc, ← List.append_assoc]
    exact List.perm_append_comm.append_right _
  · rw [AList.lookup_eq_none.mpr hk, Option.elim_none, List.nil_append,
      List.kerase_of_notMem_keys hk, hsame m.entries hk]

variable {α κ : Type}

section Keyed

variable (key : α → κ) {xs : List α} {x y : α}

/-- With pairwise distinct keys, equal keys mean equal positions. -/
theorem position_unique (hn : (xs.map key).Nodup) {i j : ℕ}
    (hx : xs[i]? = some x) (hy : xs[j]? = some y) (h : key x = key y) : i = j := by
  obtain ⟨hi, -⟩ := getElem?_eq_some_iff.mp hx
  refine (List.getElem?_inj (by simpa using hi) hn).mp ?_
  simp [hx, hy, h]

variable {k : κ} {i : ℕ}

section

variable (hn : (xs.map key).Nodup)

include hn

/-- With pairwise distinct keys, the position found for a key is the position of the
one element that carries it. -/
theorem rposition_key [DecidableEq κ] :
    rposition (fun x => decide (key x = k)) xs = some i ↔ ∃ x, xs[i]? = some x ∧ key x = k := by
  rw [rposition_eq_some_iff]
  constructor
  · rintro ⟨⟨x, hx, hk⟩, -⟩
    exact ⟨x, hx, by simpa using hk⟩
  · rintro ⟨x, hx, rfl⟩
    refine ⟨⟨x, hx, by simp⟩, fun j y hj hy => ?_⟩
    by_contra hne
    have := position_unique key hn hx hy (by simpa using Eq.symm (by simpa using hne))
    omega

/-- With pairwise distinct keys, the element found under a key is the one that carries
it. -/
theorem find?_key [DecidableEq κ] :
    xs.find? (fun y => decide (key y = k)) = some x ↔ x ∈ xs ∧ key x = k := by
  constructor
  · intro h
    exact ⟨List.mem_of_find?_eq_some h, by simpa using List.find?_some h⟩
  · rintro ⟨hx, rfl⟩
    cases hfind : xs.find? (fun y => decide (key y = key x)) with
    | none => exact absurd (List.find?_eq_none.mp hfind x hx) (by simp)
    | some y =>
      have hy : key y = key x := by simpa using List.find?_some hfind
      exact congrArg some (List.inj_on_of_nodup_map hn (List.mem_of_find?_eq_some hfind) hx hy)

/-- Looking up a key after some elements were dropped. -/
theorem find?_key_filter [DecidableEq κ] (keep : α → Bool) (k : κ) :
    (xs.filter keep).find? (fun y => decide (key y = k)) =
      (xs.find? fun y => decide (key y = k)).filter keep := by
  have hn' : ((xs.filter keep).map key).Nodup := (List.filter_sublist.map _).nodup hn
  refine Option.ext fun x => ?_
  rw [Option.filter_eq_some_iff, find?_key key hn', find?_key key hn, List.mem_filter,
    and_assoc, and_assoc, and_comm (a := keep x = true)]

end

/-! ### The three edits -/

/-- Put `x` in the place of the element under the key `k`. -/
def replaceKey [DecidableEq κ] (k : κ) (x : α) (xs : List α) : List α :=
  xs.map fun y => if key y = k then x else y

/-- Take the element under the key `k` out. -/
def eraseKey [DecidableEq κ] (k : κ) (xs : List α) : List α :=
  xs.filter fun y => decide (key y ≠ k)

theorem replaceKey_of_notMem [DecidableEq κ] (x : α)
    (hk : k ∉ xs.map key) : replaceKey key k x xs = xs := by
  rw [replaceKey, List.map_congr_left, List.map_id]
  intro y hy
  refine if_neg fun hyk => hk ?_
  rw [← hyk]
  exact List.mem_map_of_mem hy

theorem eraseKey_of_notMem [DecidableEq κ] (hk : k ∉ xs.map key) : eraseKey key k xs = xs := by
  refine List.filter_eq_self.mpr fun y hy => decide_eq_true fun hyk => hk ?_
  exact hyk ▸ List.mem_map_of_mem hy

theorem map_key_replaceKey [DecidableEq κ] (hx : key x = k) (xs : List α) :
    (replaceKey key k x xs).map key = xs.map key := by
  rw [replaceKey, List.map_map]
  refine List.map_congr_left fun y _ => ?_
  by_cases h : key y = k <;> simp [h, hx]

/-- A test of the key alone does not see a replacement. -/
theorem filter_replaceKey [DecidableEq κ] (hx : key x = k) {p : α → Bool}
    (hp : ∀ y z, key y = key z → p y = p z) (xs : List α) :
    (replaceKey key k x xs).filter p = replaceKey key k x (xs.filter p) := by
  rw [replaceKey, List.filter_map]
  congr 1
  refine List.filter_congr fun y _ => ?_
  by_cases h : key y = k
  · simp [h, hp x y (hx.trans h.symm)]
  · simp [h]

theorem set_eq_replaceKey [DecidableEq κ] (hn : (xs.map key).Nodup) (hy : xs[i]? = some y) :
    xs.set i x = replaceKey key (key y) x xs := by
  refine List.ext_getElem? fun j => ?_
  rw [replaceKey, List.getElem?_set, List.getElem?_map]
  obtain ⟨hi, -⟩ := getElem?_eq_some_iff.mp hy
  by_cases hij : i = j
  · subst hij
    rw [hy, if_pos rfl, if_pos hi, Option.map_some, if_pos rfl]
  · rw [if_neg hij]
    cases hz : xs[j]? with
    | none => rfl
    | some z =>
      have hne : key z ≠ key y := fun h => hij (position_unique key hn hy hz h.symm)
      simp [hne]

/-! ### Slot arrays -/

/-- An append-only array of optional elements with an index from keys to positions. -/
structure Slots (α κ : Type) where
  /-- The elements in arrival order; an erased element leaves an empty slot. -/
  slots : List (Option α)
  /-- The position of the element under a key. -/
  index : κ → Option ℕ

namespace Slots

/-- The empty slot array. -/
def empty : Slots α κ :=
  ⟨[], fun _ => none⟩

/-- The elements held, in order. -/
def contents (t : Slots α κ) : List α :=
  t.slots.reduceOption

/-- Append an element and index it under its key. -/
def push [DecidableEq κ] (t : Slots α κ) (x : α) : Slots α κ :=
  ⟨t.slots ++ [some x], Function.update t.index (key x) (some t.slots.length)⟩

/-- Overwrite the element under a key; an unknown key changes nothing. -/
def put (t : Slots α κ) (k : κ) (x : α) : Slots α κ :=
  match t.index k with
  | none => t
  | some i => { t with slots := t.slots.set i (some x) }

/-- Empty the slot of a key and forget the key, if it is known. -/
def drop [DecidableEq κ] (t : Slots α κ) (k : κ) : Slots α κ :=
  match t.index k with
  | none => t
  | some i => ⟨t.slots.set i none, Function.update t.index k none⟩

/-- **A key is indexed at a position** iff the slot there holds it. -/
def Exact (t : Slots α κ) : Prop :=
  ∀ k i, t.index k = some i ↔ ∃ x, t.slots[i]? = some (some x) ∧ key x = k

variable {key} {t : Slots α κ}

/-- A held element sits in a slot. -/
theorem mem_contents : x ∈ t.contents ↔ ∃ i : ℕ, t.slots[i]? = some (some x) := by
  rw [contents, List.reduceOption_mem_iff, List.mem_iff_getElem?]

/-- A key is unknown exactly when no held element carries it. -/
theorem Exact.index_eq_none (h : Exact key t) : t.index k = none ↔ k ∉ t.contents.map key := by
  rw [Option.eq_none_iff_forall_not_mem]
  constructor
  · rintro hn hk
    obtain ⟨x, hx, rfl⟩ := List.mem_map.mp hk
    obtain ⟨i, hi⟩ := mem_contents.mp hx
    exact hn i ((h _ i).mpr ⟨x, hi, rfl⟩)
  · rintro hk i hi
    obtain ⟨x, hx, rfl⟩ := (h k i).mp hi
    exact hk (List.mem_map_of_mem (mem_contents.mpr ⟨i, hx⟩))

/-! ### Append -/

theorem Exact.push [DecidableEq κ] (h : Exact key t)
    (hx : key x ∉ t.contents.map key) : Exact key (t.push key x) := by
  intro k i
  simp only [Slots.push, getElem?_snoc_eq_some, Option.some.injEq]
  by_cases hk : k = key x
  · subst hk
    have hnone := h.index_eq_none.mpr hx
    rw [Function.update_self, Option.some.injEq]
    constructor
    · rintro rfl
      exact ⟨x, .inr ⟨rfl, rfl⟩, rfl⟩
    · rintro ⟨y, hy | ⟨rfl, -⟩, hkey⟩
      · rw [(h _ i).mpr ⟨y, hy, hkey⟩] at hnone
        cases hnone
      · rfl
  · rw [Function.update_of_ne hk, h k i]
    refine exists_congr fun y => and_congr_left fun hy => ?_
    refine ⟨.inl, fun hor => hor.resolve_right ?_⟩
    rintro ⟨-, rfl⟩
    exact hk hy.symm

@[simp] theorem contents_push [DecidableEq κ] (t : Slots α κ) (x : α) :
    (t.push key x).contents = t.contents ++ [x] := by
  simp [contents, push, List.reduceOption_append]

/-! ### Replace -/

/-- Two occupied slots with the same key are the same slot. -/
theorem Exact.slot_unique (h : Exact key t) {i j : ℕ} (hx : t.slots[i]? = some (some x))
    (hy : t.slots[j]? = some (some y)) (hk : key x = key y) : i = j := by
  have hi := (h (key x) i).mpr ⟨x, hx, rfl⟩
  have hj := (h (key x) j).mpr ⟨y, hy, hk.symm⟩
  exact Option.some.inj (hi.symm.trans hj)

/-- Overwriting the slot under a key is mapping every element at that key only. -/
theorem Exact.set_eq_map (h : Exact key t) (hx : t.slots[i]? = some (some x)) (f : α → Option α)
    (hf : ∀ y, key y ≠ key x → f y = some y) : t.slots.set i (f x) = t.slots.map (·.bind f) := by
  refine List.ext_getElem? fun j => ?_
  rw [List.getElem?_set, List.getElem?_map]
  obtain ⟨hi, -⟩ := getElem?_eq_some_iff.mp hx
  by_cases hij : i = j
  · subst hij
    rw [if_pos rfl, if_pos hi, hx]
    rfl
  · rw [if_neg hij]
    rcases hz : t.slots[j]? with _ | _ | z
    · rfl
    · rfl
    · have hne : key z ≠ key x := fun hk => hij (h.slot_unique hx hz hk.symm)
      simp [hf z hne]

theorem contents_map_bind (xs : List (Option α)) (f : α → Option α) :
    (xs.map (·.bind f)).reduceOption = xs.reduceOption.filterMap f := by
  simp only [List.reduceOption, List.filterMap_map, List.filterMap_filterMap]
  rfl

variable (h : Exact key t)

include h

/-- Replacing an element by one under the same key keeps the index exact. -/
theorem Exact.put (hx : key x = k) : Exact key (t.put k x) := by
  cases hk : t.index k with
  | none => rwa [Slots.put, hk]
  | some i =>
    obtain ⟨y, hy, hyk⟩ := (h k i).mp hk
    obtain ⟨hi, -⟩ := getElem?_eq_some_iff.mp hy
    intro k' j
    simp only [Slots.put, hk, h k' j, List.getElem?_set]
    by_cases hij : i = j
    · subst hij
      rw [hy, if_pos hi]
      simp [hx, hyk]
    · rw [if_neg hij]

/-- **Replace.** Overwriting the slot of a key replaces the element. -/
theorem contents_put [DecidableEq κ] (k : κ) (x : α) :
    (t.put k x).contents = replaceKey key k x t.contents := by
  cases hk : t.index k with
  | none => rw [put, hk, replaceKey_of_notMem key x (h.index_eq_none.mp hk)]
  | some i =>
    obtain ⟨y, hy, rfl⟩ := (h k i).mp hk
    have hset := h.set_eq_map hy (fun z => some (if key z = key y then x else z))
      fun z hz => by rw [if_neg hz]
    rw [if_pos rfl] at hset
    simp only [put, hk, contents]
    rw [hset, contents_map_bind, replaceKey, List.filterMap_eq_map']

/-! ### Erase -/

/-- Erasing the element under a key keeps the index exact. -/
theorem Exact.drop [DecidableEq κ] (k : κ) : Exact key (t.drop k) := by
  cases hk : t.index k with
  | none => rwa [Slots.drop, hk]
  | some i =>
    obtain ⟨y, hy, rfl⟩ := (h k i).mp hk
    obtain ⟨hi, -⟩ := getElem?_eq_some_iff.mp hy
    intro k' j
    simp only [Slots.drop, hk, List.getElem?_set]
    by_cases hk' : k' = key y
    · subst hk'
      refine iff_of_false (by simp) ?_
      rintro ⟨z, hz, hzk⟩
      by_cases hij : i = j
      · simp [hij] at hz
      · rw [if_neg hij] at hz
        exact hij (h.slot_unique hy hz hzk.symm)
    · rw [Function.update_of_ne hk', h k' j]
      refine exists_congr fun z => and_congr_left fun hz => ?_
      by_cases hij : i = j
      · subst hij
        rw [hy, if_pos hi]
        refine iff_of_false ?_ (by simp)
        rintro heq
        obtain rfl : y = z := by simpa using heq
        exact hk' hz.symm
      · rw [if_neg hij]

/-- **Erase.** Emptying the slot under a key takes the element out of the list. -/
theorem contents_drop [DecidableEq κ] (k : κ) :
    (t.drop k).contents = eraseKey key k t.contents := by
  cases hk : t.index k with
  | none => rw [drop, hk, eraseKey_of_notMem key (h.index_eq_none.mp hk)]
  | some i =>
    obtain ⟨y, hy, rfl⟩ := (h k i).mp hk
    have hset := h.set_eq_map hy (.guard fun z => decide (key z ≠ key y))
      fun z hz => by simp [Option.guard, hz]
    have hgone : .guard (fun z => decide (key z ≠ key y)) y = none := by simp [Option.guard]
    rw [hgone] at hset
    simp only [drop, hk, contents]
    rw [hset, contents_map_bind, eraseKey, List.filterMap_eq_filter]

end Slots

end Keyed
