import Nanoclaw.Runtime.ReplayAgreement
import Nanoclaw.Runtime.TurnMoves
import Nanoclaw.Runtime.Visible

/-!
# Provider Continuations

A provider that manages the history is sent only what was appended since the response it is asked
to continue from. That is right as long as the visible transcript is the transcript at that
response followed by what was appended (`ContinuationSound`).

Every change keeps that. An interrupted change need not: a patch, a replacement, a removal and a
rollback change the transcript in memory, log the change, and drop the continuation only after
the store has accepted the event.
-/

namespace Nanoclaw

open Proc RuntimeSession

/-! ### The invariant -/

/-- **What is visible is what was visible at the recorded response, and what was appended
since.** -/
structure ContinuationSound (core : Core) : Prop where
  window : core.session.WindowValid
  grown : core.session.providerContinuation.isSome = true →
    core.session.providerTranscriptCursor ≤ core.session.transcript.length ∧
      core.session.visibleTranscript = core.continuationBase ++
        (core.session.transcript.drop core.session.providerTranscriptCursor).filter
          core.session.survives

namespace ContinuationSound

variable {core core' : Core}

/-- Without a continuation nothing has to be said. -/
theorem of_none (hwindow : core.session.WindowValid)
    (hnone : core.session.providerContinuation = none) : ContinuationSound core where
  window := hwindow
  grown h := by
    rw [hnone] at h
    cases h

variable (h : ContinuationSound core)

include h

/-- Appending a message extends both sides. -/
theorem push {message : Message} (hsession : core'.session = core.session.pushMessage message)
    (hbase : core'.continuationBase = core.continuationBase) : ContinuationSound core' := by
  refine ⟨?_, fun hsome => ?_⟩
  · rw [hsession]
    exact h.window.of_length rfl rfl (by simp)
  · rw [hsession] at hsome ⊢
    obtain ⟨hcursor, hgrown⟩ := h.grown hsome
    refine ⟨hcursor.trans (by simp), ?_⟩
    have hdrop : (core.session.transcript ++ [message]).drop
        core.session.providerTranscriptCursor =
        core.session.transcript.drop core.session.providerTranscriptCursor ++ [message] :=
      List.drop_append_of_le_length hcursor
    change _ = _ ++ ((core.session.transcript ++ [message]).drop
      core.session.providerTranscriptCursor).filter core.session.survives
    rw [visibleTranscript_pushMessage h.window, hgrown, hbase, hdrop, List.filter_append,
      List.append_assoc]

/-- **Every change keeps the continuation sound.** -/
theorem change (change : Change) : ContinuationSound (change.apply core) := by
  have hwindow := change.windowValid core h.window
  cases change with
  | log | usage | start | rotate => exact ⟨hwindow, h.grown⟩
  | push turnId message => exact h.push rfl rfl
  | edit | remove | commit | reset => exact of_none hwindow rfl
  | record continuation =>
    refine ⟨hwindow, fun _ => ⟨le_rfl, ?_⟩⟩
    change _ = core.session.visibleTranscript ++
      (core.session.transcript.drop core.session.transcript.length).filter _
    rw [List.drop_length, List.filter_nil, List.append_nil]
    rfl

/-- Kept by an interruption, unless an edit or a removal is rejected. -/
theorem interrupted {change : Change} {event : SessionEventKind}
    (hi : change.Interrupted core event core')
    (hedit : ∀ id message, event ≠ .transcriptMessagePatched id message)
    (hremove : ∀ id, event ≠ .transcriptMessageRemoved id) : ContinuationSound core' := by
  have hwindow := hi.windowValid h.window
  cases hi with
  | push => exact h.push rfl rfl
  | edit => exact absurd rfl (hedit _ _)
  | remove => exact absurd rfl (hremove _)
  | commitSummary => exact h.push rfl rfl
  | commitCheckpoint => exact of_none hwindow rfl
  | usage => exact ⟨hwindow, h.grown⟩

end ContinuationSound

variable {rt : AgentRuntime} {session : RuntimeSession} {env : Env}

/-- A delta is sent only if it extends what was visible when its continuation was
recorded. -/
theorem ContinuationSound.requestWindow (h : ContinuationSound rt.core) {delta : List Message}
    {continuation : ProviderContinuation}
    (hw : requestWindow env rt.session = (delta, some continuation)) :
    rt.session.visibleTranscript = rt.continuationBase ++ delta := by
  unfold Nanoclaw.requestWindow at hw
  split at hw
  · cases hw
  split at hw
  · cases hw
  next recorded hrecorded =>
    obtain ⟨hcursor, hgrown⟩ := h.grown (by
      change rt.session.providerContinuation.isSome = true
      rw [hrecorded]
      rfl)
    have hmin : min rt.session.providerTranscriptCursor rt.session.transcript.length =
        rt.session.providerTranscriptCursor := min_eq_left hcursor
    dsimp only at hw
    rw [hmin] at hw
    split at hw
    · cases hw
    · cases hw
      exact hgrown

/-! ### Runs -/

theorem reconstructRuntimeSession_windowValid {events : List SessionEventEnvelope}
    {agentSessionId : AgentSessionId}
    (h : reconstructRuntimeSession events agentSessionId = .ok session) : session.WindowValid := by
  unfold reconstructRuntimeSession at h
  split at h
  · cases h
  dsimp only at h
  split at h
  · cases h
  · cases h
    exact nofun
  · unfold restoreWindow at h
    split at h
    · cases h
    next summaryIndex hindex =>
      cases h
      obtain ⟨⟨m, hm, -⟩, -⟩ := rposition_eq_some_iff.mp hindex
      exact windowValid_installWindow (getElem?_eq_some_iff.mp hm).1

/-- What is done to a runtime and its provider exchange. -/
inductive ProviderOp where
  | runtime (op : RuntimeOp)
  | turn (turnId : TurnId) (instructions : List String) (fuel : ℕ)
  | record (continuation : Option ProviderContinuation)
  | rotate (turnId : TurnId) (endReason startReason : String)
  | resume (events : List SessionEventEnvelope) (agentSessionId : AgentSessionId)

namespace ProviderOp

def run (env : Env) : ProviderOp → RuntimeM Unit
  | .runtime op => op.run env
  | .turn turnId instructions fuel => do
    let _ ← runTurnLoop env turnId instructions fuel
  | .record continuation => updateProviderContinuation continuation
  | .rotate turnId endReason startReason => rotateAgentSession env turnId endReason startReason
  | .resume events agentSessionId => do
    let session ← answer (reconstructRuntimeSession events agentSessionId)
    resumeSession env session

/-- The event that is logged directly. -/
def logged : ProviderOp → Option SessionEventKind
  | .runtime op => op.logged
  | _ => none

/-- Perform an operation; an error leaves what was done. -/
def step (env : Env) (rt : AgentRuntime) (op : ProviderOp) : AgentRuntime :=
  ((op.run env).exec rt).2

end ProviderOp

/-- Kept by every allowed change, interrupted or not, and by taking over a session. -/
structure ProviderInvariant (env : Env) (P : SessionEventKind → Prop) (I : Core → Prop) : Prop where
  plain : ∀ event, event.isPlain = true → P event
  change : ∀ core change, Logging P core change → Change.Valid core change → I core →
    I (change.apply core)
  interrupted : ∀ core change event core', Change.Valid core change → env.Rejects event →
    I core → change.Interrupted core event core' → I core'
  attach : ∀ core session, session.WindowValid → session.providerContinuation = none →
    session.tokenLedger = {} → I core → I { core with session }

namespace ProviderInvariant

variable {P : SessionEventKind → Prop} {I : Core → Prop} (hI : ProviderInvariant env P I)

include hI

/-- A method that moves by changes keeps the invariant on both exits. -/
theorem moves {α : Type} {m : RuntimeM α} {Q : α → Prop} (hm : Moves env (Logging P) m Q) :
    Preserves (fun rt => I rt.core) m :=
  (hm.invariant (I := I) hI.change
    fun core change event core' _ hv hrejects h hi =>
      hI.interrupted core change event core' hv hrejects h hi).result
      fun _ _ h => h.2

theorem resumeSession (hwindow : session.WindowValid) :
    Preserves (fun rt => I rt.core) (resumeSession env session) := by
  refine .bind (hI.moves (endSession_moves (logging_compacting hI.plain).toInternal)) fun _ => ?_
  refine Triple.bind (R := fun _ rt => I rt.core) (Triple.modify fun rt h => ?_) fun _ => ?_
  · exact hI.attach rt.core _ (hwindow.of_length rfl rfl le_rfl) rfl rfl h
  · exact .bind (R := fun _ rt => I rt.core)
      (.modify fun _ h => h) fun _ => .modify fun _ h => h

/-- **Step lemma.** -/
theorem run (op : ProviderOp) (hop : ∀ event ∈ op.logged, P event) :
    Preserves (fun rt => I rt.core) (op.run env) := by
  have hrespects := (logging_allowsEdits (P := P)).respects env
  have hcompacting := logging_compacting hI.plain
  cases op with
  | runtime op =>
    exact hI.moves (op.run_moves (fun event h _ _ _ => hop event h) hcompacting.toInternal
      logging_allowsEdits fun _ => hcompacting)
  | turn turnId instructions fuel =>
    refine (hI.moves (turnLoop_moves hcompacting hrespects (fun _ _ _ => trivial)
      (fun _ _ => trivial) fuel 0 {})).bind fun _ => ?_
    exact .pure _
  | record continuation => exact hI.moves (updateProviderContinuation_moves fun _ => trivial)
  | rotate turnId endReason startReason =>
    exact hI.moves (rotateAgentSession_moves hcompacting.toRotating hrespects)
  | resume events agentSessionId =>
    refine Triple.bind (R := fun session rt => session.WindowValid ∧ I rt.core)
      (fun rt h => ?_) fun session => Triple.of_state fun rt hrt =>
        (hI.resumeSession hrt.1).at_state hrt.2
    cases hsession : reconstructRuntimeSession events agentSessionId with
    | error e => exact h
    | ok session => exact ⟨reconstructRuntimeSession_windowValid hsession, h⟩

/-- **Run lemma.** -/
theorem foldl (ops : List ProviderOp) (hops : ∀ op ∈ ops, ∀ event ∈ op.logged, P event)
    (h : I rt.core) : I (ops.foldl (ProviderOp.step env) rt).core := by
  induction ops generalizing rt with
  | nil => exact h
  | cons op ops ih =>
    obtain ⟨hop, hops⟩ := List.forall_mem_cons.mp hops
    exact ih hops (Triple.state_iff.mp (hI.run op hop) _ h)

end ProviderInvariant

/-- The store accepts the events of edits and removals. -/
structure Env.AcceptsEdits (env : Env) : Prop where
  edit : ∀ id message, ¬ env.Rejects (.transcriptMessagePatched id message)
  remove : ∀ id, ¬ env.Rejects (.transcriptMessageRemoved id)

theorem Env.AcceptsEdits.continuationSound (hstore : env.AcceptsEdits) :
    ProviderInvariant env (fun _ => True) ContinuationSound where
  plain _ _ := trivial
  change _ change _ _ h := h.change change
  interrupted _ _ _ _ _ hrejects h hi := by
    refine h.interrupted hi ?_ ?_
    · rintro id message rfl
      exact hstore.edit id message hrejects
    · rintro id rfl
      exact hstore.remove id hrejects
  attach _ _ hwindow hnone _ _ := .of_none hwindow hnone

/-- **Provider continuations are sound** if the store accepts edits and removals. -/
theorem request_window_extends_recorded {env : Env} (hstore : env.AcceptsEdits)
    (sessionId : SessionId) (agentSessionId : AgentSessionId) (config : LoopDetectionConfig)
    (ops : List ProviderOp) {rt : AgentRuntime}
    (hrun : ops.foldl (ProviderOp.step env)
      (AgentRuntime.new (RuntimeSession.new sessionId agentSessionId) config) = rt)
    {delta : List Message} {continuation : ProviderContinuation}
    (hw : requestWindow env rt.session = (delta, some continuation)) :
    rt.session.visibleTranscript = rt.continuationBase ++ delta := by
  subst hrun
  have hstart : ContinuationSound
      (AgentRuntime.new (new sessionId agentSessionId) config).core :=
    .of_none (windowValid_new _ _) rfl
  exact (hstore.continuationSound.foldl ops (fun _ _ _ _ => trivial) hstart).requestWindow hw

/-! ### Two runs -/

/-- The store rejects the removal of messages if told so. -/
def historyEnv (rejectRemovals : Bool) : Env :=
  { quietEnv with
    providerManagedHistory := true
    store := fun _ envelope => match envelope.event with
      | .transcriptMessageRemoved _ =>
        if rejectRemovals then .error (.store "disk full") else .ok ()
      | _ => .ok () }

/-- A round and the continuation of its response. -/
def recordedRound : List ProviderOp :=
  [.runtime (.appendMessage ⟨"t"⟩ (.user "hello" ⟨"u0"⟩)),
    .runtime (.appendMessage ⟨"t"⟩ (.assistant "hi" ⟨"a1"⟩)),
    .record (some (.openAiResponses ⟨"r1"⟩))]

/-- The round, followed by another operation. -/
def afterRound (rejectRemovals : Bool) (op : RuntimeOp) : AgentRuntime :=
  (recordedRound ++ [ProviderOp.runtime op]).foldl (ProviderOp.step (historyEnv rejectRemovals))
    freshRuntime

/-- The next prompt is sent alone. -/
theorem next_prompt_sent_alone :
    ∃ rt delta, afterRound false (.appendMessage ⟨"t"⟩ (.user "more" ⟨"u2"⟩)) = rt ∧
      requestWindow (historyEnv false) rt.session = (delta, some (.openAiResponses ⟨"r1"⟩)) ∧
      delta.map Message.messageId = [⟨"u2"⟩] ∧
      rt.session.visibleTranscript = rt.continuationBase ++ delta := by
  have haccepts : (historyEnv false).AcceptsEdits := by
    have hstore : ∀ now envelope, (historyEnv false).store now envelope = .ok () := by
      rintro now ⟨_, _, _, _, event⟩
      cases event <;> rfl
    exact ⟨fun _ _ => Env.not_rejects hstore _, fun _ => Env.not_rejects hstore _⟩
  refine ⟨_, _, rfl, Prod.ext rfl ?_, ?_, request_window_extends_recorded haccepts _ _ _ _ rfl
    (Prod.ext rfl (?_ : _ = some (ProviderContinuation.openAiResponses ⟨"r1"⟩)))⟩
  all_goals decide +kernel

/-- **A rollback whose event is rejected hides a message and keeps the continuation.** -/
theorem rejected_rollback_keeps_continuation : ∃ rt delta, afterRound true (.rollback ⟨"a1"⟩) = rt ∧
      requestWindow (historyEnv true) rt.session = (delta, some (.openAiResponses ⟨"r1"⟩)) ∧
      rt.session.visibleTranscript ≠ rt.continuationBase ++ delta := by
  refine ⟨_, _, rfl, Prod.ext rfl ?_, fun h => absurd (congrArg List.length h) ?_⟩
  all_goals decide +kernel

end Nanoclaw
