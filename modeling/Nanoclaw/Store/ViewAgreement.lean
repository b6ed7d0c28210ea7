import Nanoclaw.Runtime.ProviderContinuation
import Nanoclaw.Store.Visible

/-!
# Store View and Runtime View of a Run

A runtime logs a compaction under the agent session that made it and goes on under a new one. The
store scopes checkpoints, edits and removals to agent sessions; the runtime reads them from the
whole log. So they disagree after a second compaction, and after an edit or a removal of a message
of an earlier agent session.
-/

namespace Nanoclaw

/-! ### Compactions follow their summaries -/

variable {events : List SessionEventEnvelope}

theorem Summarised.append (h : Summarised events) {event : SessionEventEnvelope}
    (hevent : compactionRecord event = none) : Summarised (events ++ [event]) := by
  refine eachAfter_append.mpr ⟨h, fun record hrecord => ?_⟩
  rw [hevent] at hrecord
  cases hrecord

theorem Summarised.removeLogged {turnId : TurnId} (ids : List MessageId) {core : Core}
    (h : Summarised core.log) : Summarised (ids.foldl (Core.removeLogged turnId) core).log := by
  induction ids generalizing core with
  | nil => exact h
  | cons id ids ih => exact ih (h.append rfl)

/-- **Step lemma.** Every change keeps compactions behind their summaries. -/
theorem Change.summarised (core : Core) (change : Change) (hv : change.Valid core)
    (h : Summarised core.log) : Summarised (change.apply core).log := by
  cases change with
  | log turnId toolCallId event => exact h.append (by cases event <;> first | rfl | cases hv)
  | push | edit | usage => exact h.append rfl
  | remove turnId messageIds => exact h.removeLogged messageIds
  | commit turnId reason count summary summaryId tail =>
    have hpushed : Summarised (Change.pushLogged core turnId
        (Message.system summary summaryId)).log := h.append rfl
    refine eachAfter_append.mpr ⟨hpushed, fun record hrecord => ?_⟩
    cases hrecord
    exact ⟨_, List.getLast?_concat .., _, rfl, rfl, rfl⟩
  | record | reset | start | rotate => exact h

theorem Change.Interrupted.summarised {core core' : Core} {change : Change}
    {event : SessionEventKind} (hi : change.Interrupted core event core')
    (h : Summarised core.log) : Summarised core'.log := by
  cases hi with
  | push | edit | commitSummary | usage => exact h
  | remove => exact h.removeLogged _
  | commitCheckpoint => exact h.append rfl

theorem summarised_invariant (env : Env) :
    ProviderInvariant env (fun _ => True) fun core => Summarised core.log where
  plain _ _ := trivial
  change core change _ hv h := change.summarised core hv h
  interrupted _ _ _ _ _ _ h hi := hi.summarised h
  attach _ _ _ _ _ h := h

/-! ### Runs -/

/-- **Store view and runtime view agree** on the log of every run whose events stay in scope. -/
theorem store_view_agrees_of_scoped {env : Env} {sessionId : SessionId}
    {agentSessionId : AgentSessionId} {config : LoopDetectionConfig} {ops : List ProviderOp}
    {rt : AgentRuntime}
    (hrun : ops.foldl (ProviderOp.step env)
      (AgentRuntime.new (RuntimeSession.new sessionId agentSessionId) config) = rt)
    (hlog : rt.log ≠ []) (hscoped : Scoped rt.log) : ViewAgrees rt.log := by
  subst hrun
  exact hscoped.view_agrees ((summarised_invariant env).foldl ops (fun _ _ _ _ => trivial)
    eachAfter_nil) hlog

/-- Agreement of the identifiers, which can be evaluated. -/
def viewIdsAgree (events : List SessionEventEnvelope) : Bool :=
  events.getLast?.any fun last =>
    (reconstructRuntimeSession events last.agentSessionId).toOption.any fun restored =>
      decide ((Store.visibleTranscript events).map Message.messageId =
        restored.visibleTranscript.map Message.messageId)

theorem ViewAgrees.ids (h : ViewAgrees events) : viewIdsAgree events = true := by
  obtain ⟨last, hlast, restored, hrestored, hvisible⟩ := h
  rw [viewIdsAgree, hlast, Option.any_some, hrestored]
  simp [Except.toOption, hvisible]

/-- A round, a compaction of all, and a round in the next agent session. -/
def compactedRound : List ProviderOp :=
  [ .runtime (.appendMessage ⟨"t"⟩ (Message.user "ask" ⟨"u0"⟩)),
    .runtime (.appendMessage ⟨"t"⟩ (Message.assistant "answer" ⟨"a1"⟩)),
    .runtime (.appendMessage ⟨"t"⟩ (Message.user "ask" ⟨"u2"⟩)),
    .runtime (.appendMessage ⟨"t"⟩ (Message.assistant "answer" ⟨"a3"⟩)),
    .runtime (.compact ⟨"t"⟩ "manual" none none),
    .runtime (.appendMessage ⟨"t"⟩ (Message.user "ask" ⟨"u5"⟩)),
    .runtime (.appendMessage ⟨"t"⟩ (Message.assistant "answer" ⟨"a6"⟩)) ]

/-- The round, followed by another operation. -/
def afterCompactedRound (ops : List RuntimeOp) : AgentRuntime :=
  (compactedRound ++ ops.map ProviderOp.runtime).foldl (ProviderOp.step quietEnv) freshRuntime

/-- After one compaction and a rollback in the new agent session they agree. -/
theorem store_view_agrees_after_compaction :
    ∃ rt, afterCompactedRound [.rollback ⟨"u5"⟩] = rt ∧ rt.log ≠ [] ∧ Scoped rt.log ∧
      ViewAgrees rt.log := by
  have hlog : (afterCompactedRound [.rollback ⟨"u5"⟩]).log ≠ [] := by decide +kernel
  have hscoped : Scoped (afterCompactedRound [.rollback ⟨"u5"⟩]).log := by decide +kernel
  exact ⟨_, rfl, hlog, hscoped, store_view_agrees_of_scoped rfl hlog hscoped⟩

/-- **The views disagree** after a second compaction, and a rollback across agent sessions. -/
theorem store_view_disagrees :
    ¬ ViewAgrees (afterCompactedRound [.compact ⟨"t"⟩ "manual" none none]).log ∧
      ¬ ViewAgrees (afterCompactedRound [.rollback ⟨"u2"⟩]).log := by
  have hcompact : viewIdsAgree
      (afterCompactedRound [.compact ⟨"t"⟩ "manual" none none]).log = false := by
    decide +kernel
  have hrollback : viewIdsAgree (afterCompactedRound [.rollback ⟨"u2"⟩]).log = false := by
    decide +kernel
  exact ⟨fun h => Bool.false_ne_true (hcompact.symm.trans h.ids),
    fun h => Bool.false_ne_true (hrollback.symm.trans h.ids)⟩

end Nanoclaw
