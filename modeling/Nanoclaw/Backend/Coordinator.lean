import Nanoclaw.Lib.System
import Nanoclaw.Runtime.State

/-!
# The Interaction Coordinators

Tool approvals, permission requests and questions to the user reach the operator in the same way.
A coordinator holds one prompt and one responder, the sending half of a one-shot channel. The
front end takes snapshots of the prompt and hands the operator's decision to the coordinator,
which sends it to whatever responder it holds then.

The three coordinators are one definition, `CoordinatorState`, applied to a `Protocol`. A channel
is named by the number of its request. A `World` adds what the operator sees and what the
requests got.
-/

namespace Nanoclaw

open List Option System

/-! ### What a coordinator sends -/

inductive ToolError where
  | invalidState (message : String)

/-- Decision `D`, deposit `X` of a request, message `S` and the handler's result `R`. -/
structure Protocol (D X S R : Type) where
  /-- What `resolve` sends. -/
  answer : D → Option X → S
  /-- What `cancel` sends. -/
  cancelled : String → S
  /-- What the waiting handler returns; `none` means that the sender was dropped. -/
  received : Option S → R

inductive ApprovalDecision where
  | approve
  | deny (reason : Option String)

/-- Tool approvals: `ApprovalCoordinator` and `SessionToolApprovalHandler::decide`. -/
def approvalCoordinator : Protocol ApprovalDecision Unit ToolApprovalOutcome
    ToolApprovalOutcome where
  answer decision _ :=
    match decision with
    | .approve => .approve
    | .deny reason => .deny reason
  cancelled reason := .deny (some reason)
  received
    | some outcome => outcome
    | none => .deny (some "approval dialog closed")

inductive PermissionRequestDecision where
  | grantOnce
  | grantForSession
  | deny

inductive PermissionGrantScope where
  | turn
  | session

structure GrantedPermissionResponse (π : Type) where
  permissions : π
  scope : PermissionGrantScope

/-- Permission requests, over any type `π` of permission profiles with a default. -/
def permissionRequestCoordinator (π : Type) [Inhabited π] :
    Protocol PermissionRequestDecision π (Except ToolError (GrantedPermissionResponse π))
      (Except ToolError (GrantedPermissionResponse π)) where
  answer decision requestedPermissions :=
    match decision with
    | .grantOnce => .ok { permissions := requestedPermissions.getD default, scope := .turn }
    | .grantForSession =>
      .ok { permissions := requestedPermissions.getD default, scope := .session }
    | .deny => .ok { permissions := default, scope := .turn }
  cancelled reason := .error (.invalidState reason)
  received
    | some result => result
    | none => .error (.invalidState
        "request_permissions dialog closed unexpectedly: channel closed")

/-- The answers the front end submits, by question. -/
structure UserInputSubmission where
  answers : List (String × List String)

structure UserInputAnswer where
  answers : List String

structure UserInputResponse where
  answers : List (String × UserInputAnswer)

/-- Questions to the user: `UserInputCoordinator` and
`SessionUserInputHandler::request_input`. -/
def userInputCoordinator : Protocol UserInputSubmission Unit
    (Except ToolError UserInputResponse) (Except ToolError UserInputResponse) where
  answer submission _ :=
    .ok { answers := submission.answers.map fun (key, answer) => (key, ⟨answer⟩) }
  cancelled reason := .error (.invalidState reason)
  received
    | some result => result
    | none => .error (.invalidState "request_user_input dialog closed unexpectedly: channel closed")

/-! ### The coordinator -/

/-- The state behind the lock. Only permission requests deposit something to read in
`requested`. -/
structure CoordinatorState (P X : Type) where
  prompt : Option P := none
  requested : Option X := none
  /-- The channel the next decision goes to. -/
  responder : Option ℕ := none

namespace CoordinatorState

variable {P D X S R : Type}

def snapshot (state : CoordinatorState P X) : Option P :=
  state.prompt

/-- Take the responder, clear the slot and send the message, if there is a responder. -/
def send (message : Option X → S) (state : CoordinatorState P X) :
    Option (ℕ × S) × CoordinatorState P X :=
  (state.responder.map fun responder => (responder, message state.requested), {})

def resolve (protocol : Protocol D X S R) (decision : D) (state : CoordinatorState P X) :
    Option (ℕ × S) × CoordinatorState P X :=
  state.send (protocol.answer decision)

def cancel (protocol : Protocol D X S R) (reason : String) (state : CoordinatorState P X) :
    Option (ℕ × S) × CoordinatorState P X :=
  state.send fun _ => protocol.cancelled reason

/-- Put a request into the slot. The responder that was there is dropped. -/
def present (prompt : P) (requested : X) (responder : ℕ) (state : CoordinatorState P X) :
    Option ℕ × CoordinatorState P X :=
  (state.responder,
    { prompt := some prompt, requested := some requested, responder := some responder })

end CoordinatorState

/-! ### The tasks and the operator -/

/-- Why a waiting handler went on. -/
inductive Cause where
  /-- A decision made while the prompt of this request was on the screen. -/
  | decided (shown : Option ℕ)
  | cancelled
  /-- Another request took the slot. -/
  | displaced
  deriving DecidableEq

/-- A request that went on, with what its handler returned. -/
structure Delivery (R : Type) where
  request : ℕ
  result : R
  cause : Cause
  deriving DecidableEq

structure World (P X R : Type) where
  coordinator : CoordinatorState P X := {}
  /-- The prompt on the operator's screen and the request it was taken from. -/
  shown : Option (ℕ × P) := none
  /-- The prompts of all requests made so far; a request is named by its position. -/
  asked : List P := []
  delivered : List (Delivery R) := []

inductive World.Action (P D X : Type) where
  /-- A task of the parent or of a child presents a request. -/
  | request (prompt : P) (requested : X)
  /-- The front end shows the current prompt. -/
  | snapshot
  | resolve (decision : D)
  | cancel (reason : String)

namespace World

variable {P D X S R : Type} (protocol : Protocol D X S R)

/-- What the handlers of a coordinator call get to see. -/
def deliver (cause : Cause) (sent : Option (ℕ × Option S)) : List (Delivery R) :=
  (sent.map fun (request, message) => ⟨request, protocol.received message, cause⟩).toList

/-- `resolve` and `cancel`: the coordinator sends, and the handler that waited goes on. -/
def settle (cause : Cause)
    (outcome : Option (ℕ × S) × CoordinatorState P X) (world : World P X R) : World P X R :=
  { world with
    coordinator := outcome.2
    delivered := world.delivered ++ deliver protocol cause
      (outcome.1.map fun (request, message) => (request, some message)) }

/-- **One action of the tasks or of the operator.** -/
def step (world : World P X R) : Action P D X → World P X R
  | .request prompt requested =>
    let (dropped, coordinator) :=
      world.coordinator.present prompt requested world.asked.length
    { world with
      coordinator
      asked := world.asked ++ [prompt]
      delivered := world.delivered ++
        deliver protocol .displaced (dropped.map fun request => (request, none)) }
  | .snapshot =>
    { world with
      shown := world.coordinator.snapshot.bind fun prompt =>
        world.coordinator.responder.map fun request => (request, prompt) }
  | .resolve decision =>
    world.settle protocol (.decided (world.shown.map Prod.fst))
      (world.coordinator.resolve protocol decision)
  | .cancel reason => world.settle protocol .cancelled (world.coordinator.cancel protocol reason)

/-- The world after an interleaving of actions, from an empty coordinator. -/
def after (actions : List (Action P D X)) : World P X R :=
  run (step protocol) {} actions

/-! ### Every request is accounted for -/

variable (cause : Cause) (world : World P X R)

@[simp] theorem request_deliver (sent : Option (ℕ × Option S)) :
    (deliver protocol cause sent).map Delivery.request = (sent.map Prod.fst).toList := by
  cases sent <;> rfl

/-- The requests that went on, and after them the one that waits. -/
def accounted (world : World P X R) : List ℕ :=
  world.delivered.map Delivery.request ++ world.coordinator.responder.toList

/-- Each request went on once or waits, and the prompts are those of their requests. -/
structure Sound (world : World P X R) : Prop where
  accounted : world.accounted.Perm (List.range world.asked.length)
  held : ∀ request ∈ world.coordinator.responder, world.coordinator.prompt = world.asked[request]?
  shown : ∀ request prompt, world.shown = some (request, prompt) →
    world.asked[request]? = some prompt

theorem sound_empty : ({} : World P X R).Sound where
  accounted := .refl _
  held := nofun
  shown _ _ h := nomatch h

/-- Answering moves the pending request from the slot to those that went on. -/
theorem Sound.settle (message : Option X → S) {world : World P X R} (h : world.Sound) :
    (world.settle protocol cause (world.coordinator.send message)).Sound := by
  refine ⟨?_, nofun, h.shown⟩
  have haccounted : (world.settle protocol cause (world.coordinator.send message)).accounted =
      world.accounted := by
    cases hr : world.coordinator.responder <;>
      simp [World.settle, World.accounted, CoordinatorState.send, hr]
  exact haccounted ▸ h.accounted

theorem accounted_step_request (prompt : P) (requested : X) :
    (world.step protocol (.request prompt requested)).accounted =
      world.accounted ++ [world.asked.length] := by
  cases hr : world.coordinator.responder <;> simp [step, accounted, CoordinatorState.present, hr]

/-- **Every action keeps the requests accounted for.** -/
theorem sound_step (action : Action P D X) (h : world.Sound) :
    (world.step protocol action).Sound := by
  cases action with
  | request prompt requested =>
    refine ⟨?_, ?_, ?_⟩
    · rw [accounted_step_request]
      simpa [step, range_succ] using h.accounted.append_right [world.asked.length]
    · rintro request ⟨⟩
      simp [step, CoordinatorState.present]
    · intro request shown hshown
      have hasked := h.shown request shown hshown
      exact getElem?_append_left (List.getElem?_eq_some_iff.mp hasked).1 ▸ hasked
  | snapshot =>
    refine ⟨h.accounted, h.held, fun request prompt hshown => ?_⟩
    simp only [step, bind_eq_some_iff, map_eq_some_iff, Prod.mk.injEq] at hshown
    obtain ⟨_, hprompt, _, hresponder, rfl, rfl⟩ := hshown
    exact (h.held _ hresponder).symm.trans hprompt
  | resolve decision => exact h.settle protocol _ _
  | cancel reason => exact h.settle protocol _ _

/-- **After every interleaving, every request has one outcome or waits.** -/
theorem sound_after (actions : List (Action P D X)) : (after protocol actions).Sound :=
  run_invariant (sound_step protocol) sound_empty actions

end World

/-! ### Decisions and prompts -/

/-- Not displaced, and a decision at a prompt was about its prompt. -/
def Delivery.Proper {R : Type} (delivery : Delivery R) : Prop :=
  match delivery.cause with
  | .decided (some shown) => delivery.request = shown
  | .decided none => True
  | .cancelled => True
  | .displaced => False

namespace World

variable {P D X S R : Type}

/-- **Decisions answer the shown prompt**, and every request has one outcome or waits. -/
structure Faithful (world : World P X R) : Prop where
  proper : ∀ delivery ∈ world.delivered, delivery.Proper
  oneOutcome : world.accounted.Perm (List.range world.asked.length)

/-- **The condition on one action**: one request at a time, decisions about the shown one. -/
def Orderly (world : World P X R) : Action P D X → Prop
  | .request _ _ => world.coordinator.responder = none
  | .resolve _ => ∀ request ∈ world.coordinator.responder, ∀ shown ∈ world.shown, request = shown.1
  | .snapshot => True
  | .cancel _ => True

variable (protocol : Protocol D X S R)

theorem forall_mem_deliver (cause : Cause) (sent : Option (ℕ × Option S)) :
    (∀ delivery ∈ deliver protocol cause sent, delivery.Proper) ↔
      ∀ request message, sent = some (request, message) →
        (Delivery.mk request (protocol.received message) cause).Proper := by
  cases sent with
  | none => simp [deliver]
  | some sent => simp [deliver, Prod.ext_iff]

/-- **A step keeps all outcomes proper exactly if it is orderly.** -/
theorem proper_step_iff (world : World P X R) (action : Action P D X) :
    (∀ delivery ∈ (world.step protocol action).delivered, delivery.Proper) ↔
      (∀ delivery ∈ world.delivered, delivery.Proper) ∧ world.Orderly action := by
  cases action with
  | request prompt requested =>
    simp only [step, CoordinatorState.present, forall_mem_append, forall_mem_deliver]
    cases hr : world.coordinator.responder <;> simp [Orderly, hr, Delivery.Proper]
  | snapshot => simp [step, Orderly]
  | resolve decision =>
    simp only [step, settle, CoordinatorState.resolve, CoordinatorState.send,
      forall_mem_append, forall_mem_deliver]
    cases hr : world.coordinator.responder <;> cases hs : world.shown <;>
      simp [Orderly, hr, hs, Delivery.Proper]
  | cancel reason =>
    simp only [step, settle, forall_mem_append, forall_mem_deliver]
    cases hr : world.coordinator.responder <;> simp [Orderly, Delivery.Proper]

/-- The world is faithful after exactly the orderly runs. -/
theorem faithful_after_iff (actions : List (Action P D X)) :
    (after protocol actions).Faithful ↔ Meets (step protocol) Orderly {} actions := by
  have hproper := run_iff_meets
    (P := fun world : World P X R => ∀ delivery ∈ world.delivered, delivery.Proper)
    (proper_step_iff protocol) {} actions
  constructor
  · intro h
    exact (hproper.mp h.proper).2
  · intro h
    exact ⟨hproper.mpr ⟨nofun, h⟩,
      (sound_after protocol actions).accounted⟩

end World

/-- **Decisions answer the prompt that was shown** exactly in the orderly interleavings. -/
theorem decisions_answer_shown_prompt_iff {ApprovalPrompt PermissionPrompt InputPrompt : Type}
    {π : Type} [Inhabited π] (approvals : List (World.Action ApprovalPrompt ApprovalDecision Unit))
    (permissions : List (World.Action PermissionPrompt PermissionRequestDecision π))
    (inputs : List (World.Action InputPrompt UserInputSubmission Unit)) :
    ((World.after approvalCoordinator approvals).Faithful ↔
      Meets (World.step approvalCoordinator) World.Orderly {} approvals) ∧
    ((World.after (permissionRequestCoordinator π) permissions).Faithful ↔
      Meets (World.step (permissionRequestCoordinator π)) World.Orderly {} permissions) ∧
    ((World.after userInputCoordinator inputs).Faithful ↔
      Meets (World.step userInputCoordinator) World.Orderly {} inputs) :=
  ⟨World.faithful_after_iff _ approvals, World.faithful_after_iff _ permissions,
    World.faithful_after_iff _ inputs⟩

/-- The prompt to read a file is shown; before it is approved, a child asks to delete files. -/
def approvalRace : List (World.Action String ApprovalDecision Unit) :=
  [.request "read notes.md" (), .snapshot, .request "rm -rf build" (), .resolve .approve]

/-- **An approval reaches a request that was never shown.** -/
theorem approval_reaches_unseen_request :
    ¬ (World.after approvalCoordinator approvalRace).Faithful ∧
    (World.after approvalCoordinator approvalRace).delivered =
      [⟨0, .deny (some "approval dialog closed"), .displaced⟩,
        ⟨1, .approve, .decided (some 0)⟩] := by
  refine ⟨fun h => ?_, by decide⟩
  exact h.proper ⟨0, .deny (some "approval dialog closed"), .displaced⟩ (by decide)

end Nanoclaw
