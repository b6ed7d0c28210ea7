import Mathlib.Data.List.Basic

/-!
# Counting Out a Dependency Graph

The queue algorithm that looks for cycles: every node keeps the number of dependencies that were
not visited yet and is queued when it gets to zero. `edges x` lists the nodes that depend on `x`.
-/

namespace Kahn

variable {κ : Type} [DecidableEq κ]

/-- One dependency of a node was visited. -/
def relax (state : (κ → ℕ) × List κ) (dependent : κ) : (κ → ℕ) × List κ :=
  let remaining := state.1 dependent - 1
  (Function.update state.1 dependent remaining,
    if remaining = 0 then state.2 ++ [dependent] else state.2)

/-- The number of nodes that are visited in so many rounds. -/
def visit (edges : κ → List κ) : ℕ → (κ → ℕ) → List κ → ℕ
  | 0, _, _ => 0
  | _ + 1, _, [] => 0
  | rounds + 1, counts, x :: queue =>
    let (counts, queue) := (edges x).foldl relax (counts, queue)
    visit edges rounds counts queue + 1

end Kahn
