import Mathlib.Algebra.Order.BigOperators.Group.List
import Mathlib.Algebra.Ring.Nat

/-!
# Saturating Sums

Counters that stop at a largest value `top`. Adding up such counters, in any order and with any
subtotals, gives the sum cut off at `top`.
-/

namespace Saturating

variable {top : ℕ}

/-- Counting up stops at the top. -/
theorem foldl_add {start : ℕ} (hstart : start ≤ top) (xs : List ℕ) :
    xs.foldl (fun total x => min (total + x) top) start = min (start + xs.sum) top := by
  induction xs generalizing start with
  | nil => simpa using hstart
  | cons x xs ih =>
    rw [List.foldl_cons, ih (min_le_right _ _), List.sum_cons]
    omega

/-- Subtotals may be cut off before they are added. -/
theorem sum_min (xs : List ℕ) : min (xs.map fun x => min x top).sum top = min xs.sum top := by
  induction xs with
  | nil => rfl
  | cons x xs ih =>
    rw [List.map_cons, List.sum_cons, List.sum_cons]
    omega

end Saturating
