import Nanoclaw.Runtime.HookEffects

/-!
# The Verdict of a Batch of Hooks

What a batch of hook answers decides about a call. `verdictOf` computes it from the effects
alone. Folding a batch gives this verdict (`applyHookEffects_verdict`), it does not depend on the
order of the effects (`verdictOf_perm`), and its strict values are those some effect asked for.
-/

namespace Nanoclaw

open Proc

structure HookVerdict where
  permissionDecision : Option PermissionDecision := none
  permissionBehavior : Option PermissionBehavior := none
  gateDecision : Option GateDecision := none
  stopped : Bool := false

namespace HookEffect

/-- The effect denies the call by a permission decision. -/
def denies : HookEffect → Bool
  | .setPermissionDecision .deny _ => true
  | _ => false

/-- The effect asks for the call to be reviewed. -/
def asks : HookEffect → Bool
  | .setPermissionDecision .ask _ => true
  | _ => false

/-- The effect denies a permission request. -/
def deniesRequest : HookEffect → Bool
  | .setPermissionBehavior .deny _ => true
  | _ => false

/-- The effect closes the gate or asks to stop. -/
def blocks : HookEffect → Bool
  | .setGateDecision .block _ => true
  | .stop _ => true
  | _ => false

end HookEffect

namespace HookVerdict

def merge (verdict : HookVerdict) : HookEffect → HookVerdict
  | .setPermissionDecision decision _ =>
    { verdict with
      permissionDecision := some (mergePermissionDecision verdict.permissionDecision decision) }
  | .setPermissionBehavior behavior _ =>
    { verdict with
      permissionBehavior := some (mergePermissionBehavior verdict.permissionBehavior behavior) }
  | .setGateDecision decision _ =>
    { verdict with gateDecision := some (mergeGateDecision verdict.gateDecision decision) }
  | .stop _ => { verdict with stopped := true }
  | _ => verdict

/-- The verdict stops the call in its tracks. -/
def isBlocking (verdict : HookVerdict) : Bool :=
  decide (verdict.gateDecision = some .block) || verdict.stopped

end HookVerdict

/-- **The verdict of a list of effects.** -/
def verdictOf (effects : List HookEffect) : HookVerdict :=
  effects.foldl HookVerdict.merge {}

def HookInvocationBatch.effects (batch : HookInvocationBatch) : List HookEffect :=
  batch.flatMap HookInvocation.effects

/-! ### Order does not matter -/

theorem mergePermissionDecision_comm (current : Option PermissionDecision)
    (a b : PermissionDecision) :
    mergePermissionDecision (some (mergePermissionDecision current a)) b =
      mergePermissionDecision (some (mergePermissionDecision current b)) a := by
  rcases current with _ | _ | _ | _ <;> cases a <;> cases b <;> rfl

theorem mergePermissionBehavior_comm (current : Option PermissionBehavior)
    (a b : PermissionBehavior) :
    mergePermissionBehavior (some (mergePermissionBehavior current a)) b =
      mergePermissionBehavior (some (mergePermissionBehavior current b)) a := by
  rcases current with _ | _ | _ <;> cases a <;> cases b <;> rfl

theorem mergeGateDecision_comm (current : Option GateDecision) (a b : GateDecision) :
    mergeGateDecision (some (mergeGateDecision current a)) b =
      mergeGateDecision (some (mergeGateDecision current b)) a := by
  rcases current with _ | _ | _ <;> cases a <;> cases b <;> rfl

theorem HookVerdict.merge_comm (verdict : HookVerdict) (a b : HookEffect) :
    (verdict.merge a).merge b = (verdict.merge b).merge a := by
  cases a <;> cases b <;>
    simp only [HookVerdict.merge, mergePermissionDecision_comm, mergePermissionBehavior_comm,
      mergeGateDecision_comm]

/-- **The verdict does not depend on the order of the effects.** -/
theorem verdictOf_perm {effects effects' : List HookEffect} (h : effects.Perm effects') :
    verdictOf effects = verdictOf effects' := by
  exact h.foldl_eq' (fun a _ b _ verdict => verdict.merge_comm a b) _

/-! ### What the strict verdicts mean -/

/-- A property that a fold picks up from an element and then keeps. -/
theorem foldl_iff_exists {α β : Type} {f : β → α → β} {p : β → Prop} {q : α → Prop}
    (h : ∀ b a, p (f b a) ↔ p b ∨ q a) (b : β) (xs : List α) :
    p (xs.foldl f b) ↔ p b ∨ ∃ a ∈ xs, q a := by
  induction xs generalizing b with
  | nil => simp
  | cons x xs ih =>
    rw [List.foldl_cons, ih, h, or_assoc]
    simp

variable (effects : List HookEffect) {currentToolName : Option ToolName}

theorem verdictOf_denies (h : ∃ e ∈ effects, e.denies = true) :
    (verdictOf effects).permissionDecision = some .deny := by
  refine (foldl_iff_exists (q := fun e : HookEffect => e.denies = true)
    (p := fun v : HookVerdict => v.permissionDecision = some .deny) ?_ {} effects).mpr (.inr h)
  rintro ⟨decision, _, _, _⟩ effect
  cases effect with
  | setPermissionDecision d r =>
    rcases decision with _ | _ | _ | _ <;> cases d <;>
      simp [HookVerdict.merge, HookEffect.denies, mergePermissionDecision]
  | _ => exact (or_iff_left Bool.false_ne_true).symm

/-- Without a denial, the verdict asks if some effect does. -/
theorem verdictOf_asks (hdeny : (verdictOf effects).permissionDecision ≠ some .deny)
    (h : ∃ e ∈ effects, e.asks = true) : (verdictOf effects).permissionDecision = some .ask := by
  refine ((foldl_iff_exists (q := fun e : HookEffect => e.denies = true ∨ e.asks = true)
    (p := fun v : HookVerdict => v.permissionDecision = some .deny ∨
      v.permissionDecision = some .ask) ?_ {} effects).mpr (.inr ?_)).resolve_left hdeny
  · rintro ⟨decision, _, _, _⟩ effect
    cases effect with
    | setPermissionDecision d r =>
      rcases decision with _ | _ | _ | _ <;> cases d <;>
        simp [HookVerdict.merge, HookEffect.denies, HookEffect.asks, mergePermissionDecision]
    | _ => simp [HookVerdict.merge, HookEffect.denies, HookEffect.asks]
  · obtain ⟨e, he, hasks⟩ := h
    exact ⟨e, he, .inr hasks⟩

theorem verdictOf_deniesRequest (h : ∃ e ∈ effects, e.deniesRequest = true) :
    (verdictOf effects).permissionBehavior = some .deny := by
  refine (foldl_iff_exists (q := fun e : HookEffect => e.deniesRequest = true)
    (p := fun v : HookVerdict => v.permissionBehavior = some .deny) ?_ {} effects).mpr (.inr h)
  rintro ⟨_, behavior, _, _⟩ effect
  cases effect with
  | setPermissionBehavior b r =>
    rcases behavior with _ | _ | _ <;> cases b <;>
      simp [HookVerdict.merge, HookEffect.deniesRequest, mergePermissionBehavior]
  | _ => exact (or_iff_left Bool.false_ne_true).symm

theorem verdictOf_isBlocking :
    (verdictOf effects).isBlocking = true ↔ ∃ e ∈ effects, e.blocks = true := by
  refine (foldl_iff_exists (q := fun e : HookEffect => e.blocks = true)
    (p := fun v : HookVerdict => v.isBlocking = true) ?_ {} effects).trans
      (by simp [HookVerdict.isBlocking])
  rintro ⟨_, _, gate, stopped⟩ effect
  cases effect with
  | setGateDecision d r =>
    rcases gate with _ | _ | _ <;> cases d <;>
      simp [HookVerdict.merge, HookVerdict.isBlocking, HookEffect.blocks, mergeGateDecision]
  | stop reason => simp [HookVerdict.merge, HookVerdict.isBlocking, HookEffect.blocks]
  | _ => exact (or_iff_left Bool.false_ne_true).symm

/-! ### Folding a batch gives its verdict -/

namespace AppliedHookEffects

def verdict (applied : AppliedHookEffects) : HookVerdict where
  permissionDecision := applied.permissionDecision
  permissionBehavior := applied.permissionBehavior
  gateDecision := applied.gateDecision
  stopped := applied.stopReason.isSome

/-- The runtime takes a batch as blocking exactly if its verdict is. -/
theorem isSome_blockedReason (applied : AppliedHookEffects) (defaultReason : String) :
    (applied.blockedReason defaultReason).isSome = applied.verdict.isBlocking := by
  unfold blockedReason
  split
  next h => simp [HookVerdict.isBlocking, verdict, h]
  next h =>
    have hgate : applied.gateDecision ≠ some .block := h
    simp [HookVerdict.isBlocking, verdict, hgate]

end AppliedHookEffects

theorem applyHookEffect_verdict {applied applied' : AppliedHookEffects}
    {registration : HookRegistration} {freshId : MessageId} {effect : HookEffect}
    (h : applyHookEffect applied registration currentToolName freshId effect = .ok applied') :
    applied'.verdict = applied.verdict.merge effect := by
  obtain ⟨_, -, h⟩ := except_bind_eq_ok.mp h
  cases effect with
  | replaceMessage selector | removeMessage selector => cases selector <;> cases h <;> rfl
  | patchMessage selector patch =>
    cases selector with
    | current =>
      simp only [AppliedHookEffects.applyMessagePatch] at h
      split at h <;> cases h
      rfl
    | messageId | lastOfRole => cases h; rfl
  | rewriteToolArgs toolName arguments =>
    dsimp only at h
    split at h
    · cases h
    · split at h <;> cases h <;> rfl
  | showToast variant message =>
    obtain ⟨_, -, h⟩ := except_bind_eq_ok.mp h
    obtain ⟨_, -, h⟩ := except_bind_eq_ok.mp h
    cases h
    rfl
  | appendPrompt text onlyWhenEmpty =>
    obtain ⟨_, -, h⟩ := except_bind_eq_ok.mp h
    cases h
    rfl
  | stop reason =>
    cases h
    simp [AppliedHookEffects.verdict, HookVerdict.merge]
  | _ =>
    cases h
    rfl

section Batch

variable (env : Env) {turnId : TurnId}

theorem applyEffects_verdict (registration : HookRegistration) (applied : AppliedHookEffects)
    (effects : List HookEffect) :
    Triple (fun _ => True) (applyEffects env registration currentToolName applied effects)
      (fun applied' _ => applied'.verdict = effects.foldl HookVerdict.merge applied.verdict)
      fun _ _ => True := by
  refine (Triple.foldlM (J := fun done b _ =>
    b.verdict = done.foldl .merge applied.verdict) effects (fun done effect b => ?_)
      applied).pre fun _ _ => rfl
  refine (Triple.fact _).bind fun freshId rt h => ?_
  cases hok : applyHookEffect b registration currentToolName freshId effect with
  | error e => trivial
  | ok b' =>
    have hverdict : b'.verdict = (done ++ [effect]).foldl .merge applied.verdict := by
      rw [List.foldl_append, ← h]
      exact applyHookEffect_verdict hok
    exact hverdict

theorem applyInvocation_verdict (applied : AppliedHookEffects) (invocation : HookInvocation) :
    Triple (fun _ => True) (applyInvocation env turnId currentToolName applied invocation)
      (fun applied' _ => applied'.verdict =
        invocation.effects.foldl HookVerdict.merge applied.verdict) fun _ _ => True :=
  (Triple.trivial _).bind fun _ =>
    (applyEffects_verdict env invocation.registration applied invocation.effects).bind fun _ =>
      (Triple.fact _).bind fun _ => Triple.pure fun _ h => h

variable (batch : HookInvocationBatch) (currentMessage : Option Message)

/-- **Folding a batch gives the verdict of its effects.** -/
theorem applyHookEffects_verdict :
    Triple (fun _ => True) (applyHookEffects env turnId batch currentMessage currentToolName)
      (fun applied _ => applied.verdict = verdictOf batch.effects) fun _ _ => True := by
  have hfold : Triple (fun _ => True)
      (batch.foldlM (applyInvocation env turnId currentToolName) { currentMessage })
      (fun applied _ => applied.verdict = verdictOf batch.effects) fun _ _ => True := by
    refine (Triple.foldlM (J := fun done (b : AppliedHookEffects) _ => b.verdict =
      verdictOf (done.flatMap HookInvocation.effects)) batch (fun done invocation b => ?_) _).pre
        fun _ _ => rfl
    refine ((applyInvocation_verdict env b invocation).and (Triple.fact _)).conseq
      (fun _ h => ⟨trivial, h⟩) (fun b' _ h => ?_) fun _ _ _ => trivial
    rw [h.1, h.2, verdictOf, verdictOf, List.flatMap_append, List.foldl_append,
      List.flatMap_singleton]
  refine hfold.bind fun applied => (Triple.fact _).bind fun _ => (Triple.fact _).bind fun _ => ?_
  exact (Triple.fact _).bind fun _ => Triple.pure fun _ h => h

theorem applyHookEffectsWithObserver_verdict : Triple (fun _ => True)
      (applyHookEffectsWithObserver env turnId batch currentMessage currentToolName)
      (fun applied _ => applied.verdict = verdictOf batch.effects) fun _ _ => True :=
  (applyHookEffects_verdict env batch currentMessage).bind fun _ =>
    (Triple.fact _).bind fun _ => Triple.pure fun _ h => h

end Batch

end Nanoclaw
