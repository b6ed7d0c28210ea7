import Mathlib.Data.List.Basic
import Mathlib.Data.Nat.SuccPred

/-!
# Positions in Lists

A window over a list is often kept as a list of positions. This module reads such windows back:
the last position with a property, the elements at a list of positions, and how both behave when
the list grows.
-/

variable {α : Type}

/-! ### The last position with a property -/

/-- **The last position** up to a bound with a property. -/
def LastUpTo (P : ℕ → Prop) (n i : ℕ) : Prop :=
  IsGreatest {j | j ≤ n ∧ P j} i

section LastUpTo

variable {P : ℕ → Prop} {m n i : ℕ}

theorem some_eq_some_iff_lastUpTo (h : P n) : some n = some i ↔ LastUpTo P n i :=
  have hlast : LastUpTo P n n := ⟨⟨le_rfl, h⟩, fun _ hj => hj.1⟩
  ⟨fun heq => Option.some.inj heq ▸ hlast, fun hi => congrArg some (hlast.unique hi)⟩

theorem none_eq_some_iff_lastUpTo (h : ∀ j ≤ n, ¬P j) : none = some i ↔ LastUpTo P n i :=
  iff_of_false nofun fun hi => h i hi.1.1 hi.1.2

/-- Positions without the property may be skipped. -/
theorem lastUpTo_skip (hmn : m ≤ n) (h : ∀ j ≤ n, P j → j ≤ m) :
    LastUpTo P n i ↔ LastUpTo P m i := by
  have hset : {j | j ≤ n ∧ P j} = {j | j ≤ m ∧ P j} :=
    Set.ext fun j => ⟨fun hj => ⟨h j hj.1 hj.2, hj.2⟩, fun hj => ⟨hj.1.trans hmn, hj.2⟩⟩
  rw [LastUpTo, hset, LastUpTo]

/-- A scan from the right passes no position with the property. -/
theorem le_of_find?_reverse_range' {p : ℕ → Bool} {a j : ℕ}
    (h : (List.range' a n).reverse.find? p = some i) (hge : a ≤ j) (hlt : j < a + n)
    (hj : p j = true) : j ≤ i := by
  induction n with
  | zero => omega
  | succ n ih =>
    rw [List.range'_concat, one_mul, List.reverse_append, List.reverse_singleton,
      List.singleton_append, List.find?_cons] at h
    split at h
    · cases h
      omega
    next hn =>
      refine ih h (lt_of_le_of_ne (by omega) fun heq => ?_)
      rw [heq, hn] at hj
      cases hj

end LastUpTo

variable {xs : List α}

/-- Two searches find the same if and only if both find the first element that one of them
finds. -/
theorem find?_eq_find?_iff (p q : α → Bool) (xs : List α) :
    xs.find? p = xs.find? q ↔ ∀ x ∈ xs.find? fun x => p x || q x, p x = q x := by
  induction xs with
  | nil => simp
  | cons y ys ih =>
    cases hp : p y <;> cases hq : q y <;> simp only [List.find?_cons, hp, hq]
    · exact ih
    · refine iff_of_false (fun h => ?_) (by simp [hp, hq])
      simp [List.find?_some h] at hp
    · refine iff_of_false (fun h => ?_) (by simp [hp, hq])
      simp [List.find?_some h.symm] at hq
    · simp [hp, hq]

/-- The last position whose element satisfies `p`. -/
def rposition (p : α → Bool) : List α → Option ℕ
  | [] => none
  | x :: xs =>
    match rposition p xs with
    | some i => some (i + 1)
    | none => if p x then some 0 else none

/-- No position is found exactly when no element qualifies. -/
theorem rposition_eq_none_iff {p : α → Bool} : rposition p xs = none ↔ ∀ x ∈ xs, p x = false := by
  induction xs with
  | nil => simp [rposition]
  | cons x xs ih =>
    simp only [rposition]
    cases h : rposition p xs <;> simp [← ih, h]

/-- **The last position** with a property: the element there has it, no later one does. -/
theorem rposition_eq_some_iff {p : α → Bool} {i : ℕ} : rposition p xs = some i ↔
      (∃ x, xs[i]? = some x ∧ p x = true) ∧ ∀ j y, i < j → xs[j]? = some y → p y = false := by
  induction xs generalizing i with
  | nil => simp [rposition]
  | cons x xs ih =>
    rw [rposition, ← Nat.and_forall_add_one]
    cases i with
    | zero =>
      have hnone : (∀ (j : ℕ) y, xs[j]? = some y → p y = false) ↔ rposition p xs = none := by
        simp only [rposition_eq_none_iff, List.mem_iff_getElem?, forall_exists_index]
        exact forall_comm
      cases h : rposition p xs <;> simp [hnone, h]
    | succ i =>
      have hsome := @ih i
      cases h : rposition p xs <;> simp_all

/-- The last position is found in the added part, or else before it. -/
theorem rposition_append (p : α → Bool) (xs ys : List α) :
    rposition p (xs ++ ys) = ((rposition p ys).map (· + xs.length)).or (rposition p xs) := by
  induction xs with
  | nil => cases h : rposition p ys <;> simp [rposition, h]
  | cons x xs ih =>
    rw [List.cons_append, rposition, ih]
    cases h : rposition p ys with
    | none => simp [rposition]
    | some i => simp [add_assoc]

/-- The positions of a list after one element is appended. -/
theorem getElem?_snoc_eq_some {x y : α} {i : ℕ} :
    (xs ++ [x])[i]? = some y ↔ xs[i]? = some y ∨ (i = xs.length ∧ x = y) := by
  rcases lt_trichotomy i xs.length with hi | rfl | hi
  · simp [List.getElem?_append_left hi, hi.ne]
  · simp
  · simp [List.getElem?_append_right hi.le, List.getElem?_eq_none hi.le, hi.ne',
      Nat.sub_ne_zero_of_lt hi]

/-- The positions of a list after one element is replaced. -/
theorem getElem?_set_cases {x y : α} {i j : ℕ} (h : (xs.set i x)[j]? = some y) :
    j = i ∧ y = x ∨ j ≠ i ∧ xs[j]? = some y := by
  by_cases hij : i = j
  · subst hij
    have hlt := (getElem?_eq_some_iff.mp h).1
    rw [List.length_set] at hlt
    rw [List.getElem?_set_self hlt] at h
    exact .inl ⟨rfl, (Option.some.inj h).symm⟩
  · rw [List.getElem?_set_ne hij] at h
    exact .inr ⟨Ne.symm hij, h⟩

/-- Where a kept element is after others were dropped. -/
theorem filter_eq_of_getElem? {x : α} {i : ℕ} {keep : α → Bool}
    (hi : xs[i]? = some x) (hkeep : keep x = true) :
    xs.filter keep = (xs.take i).filter keep ++ x :: (xs.drop (i + 1)).filter keep := by
  obtain ⟨hlt, rfl⟩ := getElem?_eq_some_iff.mp hi
  conv_lhs => rw [← List.take_append_drop i xs, List.drop_eq_getElem_cons hlt,
    List.filter_append, List.filter_cons_of_pos hkeep]

/-! ### Reading a list of positions -/

variable (xs)

/-- Filtering positions by the element there filters the elements. -/
theorem filterMap_getElem?_filter (p : α → Bool) (is : List ℕ) :
    (is.filter fun i => (xs[i]?).any p).filterMap (fun i => xs[i]?) =
      (is.filterMap fun i => xs[i]?).filter p := by
  induction is with
  | nil => rfl
  | cons i is ih =>
    rcases h : xs[i]? with _ | x
    · simp [h, ih]
    · by_cases hp : p x = true <;> simp [h, hp, ih]

/-- Consecutive positions up to the end read a suffix. -/
theorem filterMap_getElem?_range' (start : ℕ) :
    (List.range' start (xs.length - start)).filterMap (fun i => xs[i]?) = xs.drop start := by
  induction h : xs.length - start generalizing start with
  | zero => simp [List.drop_eq_nil_of_le (by omega : xs.length ≤ start)]
  | succ n ih =>
    have hlt : start < xs.length := by omega
    rw [List.range'_succ, List.filterMap_cons_some (List.getElem?_eq_getElem hlt),
      ih (start + 1) (by omega), ← List.drop_eq_getElem_cons hlt]

/-- All positions read the whole list. -/
theorem filterMap_getElem?_range : (List.range xs.length).filterMap (fun i => xs[i]?) = xs := by
  have h := filterMap_getElem?_range' xs 0
  rwa [List.drop_zero, ← List.range_eq_range'] at h

/-- Positions inside a list read the same after the list grows. -/
theorem filterMap_getElem?_append (ys : List α) {is : List ℕ} (h : ∀ i ∈ is, i < xs.length) :
    is.filterMap (fun i => (xs ++ ys)[i]?) = is.filterMap (fun i => xs[i]?) :=
  List.filterMap_congr fun i hi => List.getElem?_append_left (h i hi)

/-! ### Conditions on what came before -/

/-- Every element satisfies `P`, given the elements before it. -/
def EachAfter (P : List α → α → Prop) (xs : List α) : Prop :=
  ∀ (i : ℕ) (hi : i < xs.length), P (xs.take i) xs[i]

instance (P : List α → α → Prop) [∀ xs x, Decidable (P xs x)] (xs : List α) :
    Decidable (EachAfter P xs) :=
  Nat.decidableBallLT xs.length fun i hi => P (xs.take i) xs[i]

section EachAfter

variable {P : List α → α → Prop} {xs} {ys : List α} {x : α}

@[simp] theorem eachAfter_nil : EachAfter P [] := fun _ hi => absurd hi (Nat.not_lt_zero _)

theorem EachAfter.of_append (h : EachAfter P (xs ++ ys)) : EachAfter P xs := by
  intro i hi
  have hi' := h i (by simp; omega)
  rwa [List.take_append_of_le_length (by omega), List.getElem_append_left hi] at hi'

/-- A list that grows by one element. -/
theorem eachAfter_append : EachAfter P (xs ++ [x]) ↔ EachAfter P xs ∧ P xs x := by
  constructor
  · intro h
    refine ⟨h.of_append, ?_⟩
    have hlast := h xs.length (by simp)
    rwa [List.take_left', List.getElem_concat_length] at hlast <;> rfl
  · rintro ⟨h, hx⟩ i hi
    rw [List.length_append, List.length_singleton] at hi
    rcases lt_or_eq_of_le (Nat.le_of_lt_succ hi) with hlt | rfl
    · rw [List.take_append_of_le_length (by omega), List.getElem_append_left hlt]
      exact h i hlt
    · rwa [List.take_left', List.getElem_concat_length] <;> rfl

end EachAfter
