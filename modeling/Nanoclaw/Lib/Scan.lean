import Nanoclaw.Lib.Proc

/-!
# Scanners over Lists

A hand-written parser walks over its input with an index. Here it is a scanner, a function from
the input that is left to a value and the input after it, or an error. Its loop is `scanAll`,
which reads items as long as a test on the input holds. The loop is bounded by the length of the
input, and the bound is never felt if every item takes something.
-/

namespace Scan

open List

variable {α β τ ε : Type}

/-- Reads a value off the front of the input and gives back what it has left. -/
abbrev Scanner (α ε β : Type) : Type :=
  List α → Except ε (β × List α)

/-- Read at most `fuel` items, as long as `more` holds of the input. -/
def many (more : List α → Bool) (item : Scanner α ε β) : ℕ → Scanner α ε (List β)
  | 0, input => .ok ([], input)
  | fuel + 1, input =>
    if more input then do
      let (value, rest) ← item input
      let (values, rest) ← many more item fuel rest
      return (value :: values, rest)
    else .ok ([], input)

/-- Read items as long as `more` holds of the input. -/
def scanAll (more : List α → Bool) (item : Scanner α ε β) : Scanner α ε (List β) :=
  fun input => many more item input.length input

/-- **Every item takes something** off the input, wherever the loop reads one. -/
def Consumes (more : List α → Bool) (item : Scanner α ε β) : Prop :=
  ∀ input value rest, more input = true → item input = .ok (value, rest) → rest <:+ input.tail

section Loop

variable {more : List α → Bool} {item : Scanner α ε β} {input rest : List α}

theorem many_fuel (hnil : more [] = false) (hitem : Consumes more item) {fuel fuel' : ℕ}
    (h : input.length ≤ fuel) (h' : input.length ≤ fuel') :
    many more item fuel input = many more item fuel' input := by
  induction fuel generalizing fuel' input with
  | zero =>
    obtain rfl : input = [] := length_eq_zero_iff.mp (Nat.le_zero.mp h)
    cases fuel' <;> simp [many, hnil]
  | succ fuel ih =>
    cases fuel' with
    | zero =>
      obtain rfl : input = [] := length_eq_zero_iff.mp (Nat.le_zero.mp h')
      simp [many, hnil]
    | succ fuel' =>
      rw [many, many]
      split
      next hmore =>
        cases hvalue : item input with
        | error e => rfl
        | ok read =>
          obtain ⟨value, rest⟩ := read
          have hrest := (hitem input value rest hmore hvalue).length_le
          rw [length_tail] at hrest
          have hfuel : many more item fuel rest = many more item fuel' rest :=
            ih (by omega) (by omega)
          change many more item fuel rest >>= _ = many more item fuel' rest >>= _
          rw [hfuel]
      · rfl

/-- **One round of the loop.** -/
theorem scanAll_eq (hnil : more [] = false) (hitem : Consumes more item) (input : List α) :
    scanAll more item input =
      if more input then do
        let (value, rest) ← item input
        let (values, rest) ← scanAll more item rest
        return (value :: values, rest)
      else .ok ([], input) := by
  cases input with
  | nil => simp [scanAll, many, hnil]
  | cons a input =>
    rw [scanAll, length_cons, many]
    split
    next hmore =>
      cases hvalue : item (a :: input) with
      | error e => rfl
      | ok read =>
        obtain ⟨value, rest⟩ := read
        have hrest : rest.length ≤ input.length := (hitem _ value rest hmore hvalue).length_le
        have hfuel : many more item input.length rest = many more item rest.length rest :=
          many_fuel hnil hitem hrest (Nat.le_refl _)
        change many more item input.length rest >>= _ = scanAll more item rest >>= _
        rw [scanAll, hfuel]
    · rfl

/-- The loop leaves an end of its input. -/
theorem many_suffix (hitem : Consumes more item) {fuel : ℕ} {input : List α}
    {values : List β} (h : many more item fuel input = .ok (values, rest)) : rest <:+ input := by
  induction fuel generalizing input values with
  | zero =>
    cases h
    exact suffix_rfl
  | succ fuel ih =>
    rw [many] at h
    split at h
    next hmore =>
      obtain ⟨⟨value, rest'⟩, hvalue, h⟩ := Proc.except_bind_eq_ok.mp h
      obtain ⟨⟨values', rest''⟩, hvalues, h⟩ := Proc.except_bind_eq_ok.mp h
      cases h
      exact (ih hvalues).trans ((hitem _ _ _ hmore hvalue).trans (tail_suffix _))
    · cases h
      exact suffix_rfl

/-- **The loop reads the trees one by one** if one item reads one tree. -/
theorem scanAll_flatMap (Follow : List α → Prop) (hnil : more [] = false)
    (hitem : Consumes more item) {yield : τ → List α} {value : τ → Except ε β}
    (hmore : ∀ tree rest, more (yield tree ++ rest) = true)
    (hfollow : ∀ tree rest, Follow (yield tree ++ rest)) (hread : ∀ tree rest, Follow rest →
      item (yield tree ++ rest) = (value tree).map fun v => (v, rest)) (trees : List τ)
    (hrest : Follow rest) (hend : more rest = false) :
    scanAll more item (trees.flatMap yield ++ rest) =
      (trees.mapM value).map fun values => (values, rest) := by
  induction trees with
  | nil =>
    rw [flatMap_nil, nil_append, scanAll_eq hnil hitem, hend]
    rfl
  | cons tree trees ih =>
    -- what follows this tree is the text of the others
    have hnext : Follow (trees.flatMap yield ++ rest) := by
      cases trees with
      | nil => exact hrest
      | cons next trees =>
        rw [flatMap_cons, append_assoc]
        exact hfollow next _
    rw [flatMap_cons, append_assoc, scanAll_eq hnil hitem, hmore, hread tree _ hnext, mapM_cons]
    cases value tree with
    | error e => rfl
    | ok v =>
      change scanAll more item (trees.flatMap yield ++ rest) >>= _ = _
      rw [ih]
      cases trees.mapM value with
      | error e => rfl
      | ok values => rfl

end Loop

/-- `rposition`: the last position of an item with `p`. -/
def rposition (p : α → Bool) (items : List α) : Option ℕ :=
  (items.reverse.findIdx? p).map fun i => items.length - 1 - i

end Scan
