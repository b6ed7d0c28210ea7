import Nanoclaw.Runtime.ToolFlow

/-!
# Bookkeeping

Logging events, showing them to the observer, appending messages and applying hook effects asks
no question that decides about a call, does not touch the loop detector and hands no request to
the backend. A property that depends on these three only, `Apart`, is kept by all of it.
-/

namespace Nanoclaw

open Proc

/-- **A property that bookkeeping cannot change.** -/
def Apart (I : AgentRuntime → Prop) : Prop :=
  ∀ rt rt', rt'.trace = rt.trace → rt'.toolLoopDetector = rt.toolLoopDetector →
    rt'.requests = rt.requests → I rt → I rt'

/-- A property of the loop detector is apart. -/
theorem apart_detector (J : ToolLoopDetector → Prop) : Apart fun rt => J rt.toolLoopDetector :=
  fun _ _ _ hdetector _ h => Eq.mpr (congrArg J hdetector) h

/-- The requests made so far are apart. -/
theorem apart_requests (requests : List (ℕ × ModelRequest)) :
    Apart fun rt => rt.requests = requests :=
  fun _ _ _ _ hrequests h => hrequests.trans h

section

variable {I : AgentRuntime → Prop} (hI : Apart I) (env : Env) (turnId : TurnId)

include hI

/-- Reading the clock keeps what is apart. -/
theorem Apart.tick : Preserves I tick :=
  fun rt h => hI rt _ rfl rfl rfl h

omit hI in
/-- An answer from outside changes no state. -/
theorem preserves_answer {α : Type} (response : Except RuntimeError α) :
    Preserves I (answer response) := by
  cases response with
  | ok a => exact .pure a
  | error e => exact .throw e

/-- Telling the observer keeps what is apart. -/
theorem Apart.onEvent (event : RuntimeProgressEvent) : Preserves I (onEvent env event) :=
  hI.tick.bind fun _ => preserves_answer _

/-- Drawing an identifier keeps it. -/
theorem Apart.freshMessageId : Preserves I (freshMessageId env) :=
  hI.tick.bind fun _ => .pure _

/-- Logging an event keeps it. -/
theorem Apart.appendEvent (turnId : Option TurnId) (toolCallId : Option ToolCallId)
    (event : SessionEventKind) : Preserves I (appendEvent env turnId toolCallId event) :=
  .get_bind fun _ => hI.tick.bind fun _ => (preserves_answer _).bind fun _ =>
    .modify fun rt h => hI rt _ rfl rfl rfl h

/-- Changing the session keeps it. -/
theorem Apart.modifySession (f : RuntimeSession → RuntimeSession) : Preserves I (modifySession f) :=
  .modify fun rt h => hI rt _ rfl rfl rfl h

/-- Appending a message keeps it. -/
theorem Apart.appendTranscriptMessage (message : Message) :
    Preserves I (appendTranscriptMessage env turnId message) :=
  (hI.modifySession _).bind fun _ => hI.appendEvent env _ _ _

/-- An edit of the transcript keeps it. -/
theorem Apart.applyTranscriptMutation (mutation : TranscriptMutation) :
    Preserves I (applyTranscriptMutation env turnId mutation) := by
  cases mutation with
  | replace | remove =>
    exact .get_bind fun _ => (preserves_answer _).bind fun _ =>
      (hI.modifySession _).bind fun _ => (hI.appendEvent env _ _ _).bind fun _ =>
        hI.modifySession _
  | patch target patch =>
    refine .get_bind fun _ => (preserves_answer _).bind fun resolved => ?_
    dsimp only
    split
    · exact .throw _
    · exact (hI.modifySession _).bind fun _ => (hI.appendEvent env _ _ _).bind fun _ =>
        hI.modifySession _

/-- Invoking a hook keeps it. -/
theorem Apart.applyInvocation (currentToolName : Option ToolName) (applied : AppliedHookEffects)
    (invocation : HookInvocation) :
    Preserves I (applyInvocation env turnId currentToolName applied invocation) :=
  (hI.appendEvent env _ _ _).bind fun _ =>
    (Preserves.foldlM _ (fun _ _ => (hI.freshMessageId env).bind fun _ =>
      preserves_answer _) _).bind fun _ => (hI.appendEvent env _ _ _).bind fun _ =>
        .pure _

/-- A batch of hook answers keeps it. -/
theorem Apart.applyHookEffectsWithObserver (batch : HookInvocationBatch)
    (currentMessage : Option Message) (currentToolName : Option ToolName) :
    Preserves I (applyHookEffectsWithObserver env turnId batch currentMessage currentToolName) := by
  have happly : Preserves I (applyHookEffects env turnId batch currentMessage currentToolName) :=
    (Preserves.foldlM batch (hI.applyInvocation env turnId currentToolName) _).bind fun _ =>
      (Preserves.forM _ (hI.applyTranscriptMutation env turnId)).bind fun _ =>
        (show Preserves I (extendPending _) from
          .modify fun rt h => hI rt _ rfl rfl rfl h).bind fun _ =>
            (Preserves.forM _ (hI.appendTranscriptMessage env turnId)).bind fun _ =>
              .pure _
  exact happly.bind fun _ => (Preserves.forM _ fun _ => hI.onEvent env _).bind fun _ =>
    .pure _

/-- Reporting a call keeps it. -/
theorem Apart.reportToolLifecycle (call : ToolCall) (event : SessionEventKind) :
    Preserves I (reportToolLifecycle env turnId call event) :=
  ((hI.appendEvent env _ _ _).bind fun _ => .pure _).bind fun _ => hI.onEvent env _

end

end Nanoclaw
