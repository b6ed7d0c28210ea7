import Mathlib.Data.List.Basic

/-!
# Runs of a Transition System

A system is a step function `step : σ → ι → σ`; an action that is not possible leaves the state
unchanged. An interleaving is a list of actions, and `run step s actions` the state it leads to.
`Meets step C s actions` says that every step of the run meets `C` on its state and action.
-/

namespace System

variable {σ ι : Type} {step : σ → ι → σ} {C : σ → ι → Prop} {actions : List ι} {I : σ → Prop}
  {s : σ}

/-- The state after a list of actions. -/
def run (step : σ → ι → σ) (s : σ) (actions : List ι) : σ :=
  actions.foldl step s

@[simp] theorem run_nil (s : σ) : run step s [] = s := rfl

@[simp] theorem run_cons (s : σ) (action : ι) (actions : List ι) :
    run step s (action :: actions) = run step (step s action) actions := rfl

theorem run_append (s : σ) (actions actions' : List ι) :
    run step s (actions ++ actions') = run step (run step s actions) actions' :=
  List.foldl_append

/-- **Every step of the run meets a condition** on the state before it. -/
def Meets (step : σ → ι → σ) (C : σ → ι → Prop) : σ → List ι → Prop
  | _, [] => True
  | s, action :: actions => C s action ∧ Meets step C (step s action) actions

instance Meets.decidable [∀ s action, Decidable (C s action)] :
    ∀ (s : σ) (actions : List ι), Decidable (Meets step C s actions)
  | _, [] => .isTrue trivial
  | s, action :: actions =>
    have := Meets.decidable (step s action) actions
    inferInstanceAs (Decidable (C s action ∧ Meets step C (step s action) actions))

/-- **What every step keeps holds after every run.** -/
theorem run_invariant (hstep : ∀ s action, I s → I (step s action))
    (h : I s) (actions : List ι) : I (run step s actions) := by
  induction actions generalizing s with
  | nil => exact h
  | cons action actions ih => exact ih (hstep s action h)

/-- **A relation to another system** is kept by runs whose steps keep it. -/
theorem Meets.simulates {τ : Type} (step' : τ → ι → τ) {R : σ → τ → Prop}
    (hstep : ∀ s t action, R s t → C s action → R (step s action) (step' t action)) {t : τ}
    (hC : Meets step C s actions) (h : R s t) :
    R (System.run step s actions) (System.run step' t actions) := by
  induction actions generalizing s t with
  | nil => exact h
  | cons action actions ih => exact ih hC.2 (hstep s t action h hC.1)

/-- **What the steps meeting a condition keep holds after every run meeting it.** -/
theorem Meets.run (hstep : ∀ s action, I s → C s action → I (step s action))
    (hC : Meets step C s actions) (h : I s) : I (run step s actions) :=
  hC.simulates (fun _ _ => ()) (R := fun s (_ : Unit) => I s) (t := ()) (fun s _ => hstep s) h

/-- **A property that a step keeps exactly under a condition** is kept by exactly the runs that meet
it. -/
theorem run_iff_meets {P : σ → Prop} (hstep : ∀ s action, P (step s action) ↔ P s ∧ C s action)
    (s : σ) (actions : List ι) : P (run step s actions) ↔ P s ∧ Meets step C s actions := by
  induction actions generalizing s with
  | nil => simp [Meets]
  | cons action actions ih => rw [run_cons, ih, hstep, and_assoc, Meets]

end System
