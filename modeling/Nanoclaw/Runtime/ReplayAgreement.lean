import Nanoclaw.Runtime.Moves
import Nanoclaw.Runtime.Reconstruct

/-!
# Live and Replayed Sessions

A run of one runtime is a list of operations: messages appended, steers, batches of hook effects,
rollbacks and compactions. Its log mirrors the live session (`Core.Recorded`), and its last event
belongs to the current agent session (`Core.TailCurrent`).

The reconstruction does not always restore the live window. It looks for the round start before
the retained tail in the whole surviving transcript, where the message before the tail may be an
older summary, and it cannot find a summary that was removed.
-/

namespace Nanoclaw

open List Option Message Proc

/-! ### Changes keep the session mirrored -/

/-- **The log is a mirror of the session**, as long as identifiers are not reused. -/
def Core.Recorded (core : Core) : Prop :=
  (loggedIds core.log).Nodup → Mirrors core.session core.log

/-- A message that is visible is in the transcript. -/
theorem RuntimeSession.mem_ids_of_visible {session : RuntimeSession} {id : MessageId}
    (h : id ∈ session.visibleTranscript.map messageId) : id ∈ session.ids := by
  obtain ⟨m, hm, rfl⟩ := mem_map.mp h
  obtain ⟨i, -, hi⟩ := mem_filterMap.mp hm
  exact mem_map_of_mem (mem_of_getElem? hi)

/-- Growing the log keeps older identifiers distinct. -/
theorem nodup_loggedIds_of_append {events later : List SessionEventEnvelope}
    (h : (loggedIds (events ++ later)).Nodup) : (loggedIds events).Nodup := by
  rw [loggedIds_append] at h
  exact h.of_append_left

variable {core core' : Core} {A : Allowed} {env : Env} {turnId : TurnId}

theorem Core.mirrors_foldl_removeLogged (turnId : TurnId) {ids : List MessageId}
    (h : Mirrors core.session core.log) (hn : (loggedIds core.log).Nodup)
    (hids : ∀ id ∈ ids, id ∈ core.session.ids) :
    Mirrors (ids.foldl (removeLogged turnId) core).session
      (ids.foldl (removeLogged turnId) core).log := by
  induction ids generalizing core with
  | nil => exact h
  | cons id ids ih =>
    have hlogged : loggedIds (core.removeLogged turnId id).log = loggedIds core.log := by
      simp [removeLogged, append, mapSession, envelope, loggedIds, introducedId]
    refine ih (h.remove hn (hids id (by simp)) rfl) (hlogged ▸ hn) fun id' hid' => ?_
    exact hids id' (by simp [hid'])

theorem Core.loggedIds_foldl_removeLogged (turnId : TurnId) (ids : List MessageId)
    (core : Core) : loggedIds (ids.foldl (removeLogged turnId) core).log = loggedIds core.log := by
  induction ids generalizing core with
  | nil => rfl
  | cons id ids ih =>
    rw [foldl_cons, ih]
    simp [removeLogged, append, mapSession, envelope, loggedIds, introducedId]

/-- **Every change keeps the log a mirror of the session.** -/
theorem Change.recorded (core : Core) (change : Change) (hv : change.Valid core)
    (h : core.Recorded) : (change.apply core).Recorded := by
  intro hn
  cases change with
  | log turnId toolCallId event => exact (h (nodup_loggedIds_of_append hn)).other hv
  | push turnId message => exact (h (nodup_loggedIds_of_append hn)).push rfl hn
  | edit turnId index message =>
    have hn' := nodup_loggedIds_of_append hn
    obtain ⟨old, hold, hid⟩ : ∃ old, core.session.transcript[index]? = some old ∧
        old.messageId = message.messageId := by
      rw [← map_eq_some_iff, ← getElem?_map]
      exact hv.2
    have hedit : Mirrors (core.session.setMessage index message)
        (core.log ++ [core.envelope (some turnId) none
          (.transcriptMessagePatched message.messageId message)]) :=
      (h hn').edit hn' hold hid.symm (by rw [hid]; rfl)
    exact hedit.of_same_window rfl rfl rfl rfl rfl
  | remove turnId ids =>
    have hn' : (loggedIds core.log).Nodup := Core.loggedIds_foldl_removeLogged turnId ids core ▸ hn
    have hremove := Core.mirrors_foldl_removeLogged turnId (h hn') hn'
      fun id hid => RuntimeSession.mem_ids_of_visible (hv id hid)
    exact hremove.of_same_window rfl rfl rfl rfl rfl
  | commit turnId reason count summary id tail =>
    have hn' := nodup_loggedIds_of_append hn
    have hpush : Mirrors (core.session.pushMessage (.system summary id))
        (pushLogged core turnId (.system summary id)).log :=
      (h (nodup_loggedIds_of_append hn')).push rfl hn'
    let checkpoint : CompactionCheckpoint := ⟨id, tail.filterMap fun i => core.session.ids[i]?⟩
    have hcompact : Mirrors ((core.session.pushMessage (.system summary id)).installWindow
        core.session.transcript.length tail)
        ((pushLogged core turnId (.system summary id)).log ++ [core.envelope (some turnId) none
          (checkpointEvent core reason count summary id tail)]) := by
      refine hpush.compact checkpoint
        (by simp [checkpoint, RuntimeSession.ids, system, text, new])
        hv ?_ rfl
      have hlt : ∀ i ∈ tail, i < core.session.ids.length := fun i hi => by
        rw [RuntimeSession.ids, length_map]
        exact hv i hi
      rw [RuntimeSession.ids_pushMessage]
      exact (filterMap_getElem?_append _ _ hlt).symm
    exact hcompact.of_same_window rfl rfl rfl rfl rfl
  | usage =>
    exact ((h (nodup_loggedIds_of_append hn)).other rfl).of_same_window rfl rfl rfl rfl rfl
  | record | reset | start | rotate => exact (h hn).of_same_window rfl rfl rfl rfl rfl

/-! ### The last event belongs to the current agent session -/

/-- **The last event was logged under the current agent session.** -/
def Core.TailCurrent (core : Core) : Prop :=
  ∀ e ∈ core.log.getLast?, e.agentSessionId = core.session.agentSessionId

/-- The change does not move to another agent session. -/
def Stays : Allowed := fun core change =>
  ∀ agentSessionId, change = .rotate agentSessionId → agentSessionId = core.session.agentSessionId

theorem stays_internal : Internal Stays :=
  ⟨fun _ _ _ _ _ => nofun, fun _ => nofun, fun _ _ _ _ => nofun⟩

theorem stays_allowsEdits : AllowsEdits Stays :=
  ⟨fun _ _ _ => nofun, fun _ _ _ _ => nofun, fun _ _ _ => nofun⟩

theorem Core.tailCurrent_append (core : Core) (turnId : Option TurnId)
    (toolCallId : Option ToolCallId) (event : SessionEventKind) :
    (core.append turnId toolCallId event).TailCurrent := by
  intro e he
  rw [append, getLast?_concat] at he
  cases he
  rfl

theorem Core.TailCurrent.foldl_removeLogged (h : core.TailCurrent)
    (ids : List MessageId) : (ids.foldl (Core.removeLogged turnId) core).TailCurrent := by
  induction ids generalizing core with
  | nil => exact h
  | cons id ids ih => exact ih (Core.tailCurrent_append _ _ _ _)

theorem Change.tailCurrent (core : Core) (change : Change) (hA : Stays core change)
    (h : core.TailCurrent) : (change.apply core).TailCurrent := by
  cases change with
  | log | push | commit | usage => exact Core.tailCurrent_append _ _ _ _
  | edit turnId index message =>
    exact Core.tailCurrent_append (core.mapSession (·.setMessage index message)) _ _ _
  | remove turnId ids => exact h.foldl_removeLogged ids
  | record | reset | start => exact h
  | rotate agentSessionId =>
    obtain rfl := hA _ rfl
    exact h

theorem Steps.tailCurrent (hsteps : Steps Stays core core') (h : core.TailCurrent) :
    core'.TailCurrent :=
  hsteps.invariant (fun core change ha _ h => change.tailCurrent core ha h) h

section Run

variable {reason : String} {α : Type} {m : RuntimeM α} {Q : α → Prop}

/-- Starting an agent session that is not started logs under it. -/
theorem startAgentSession_tailCurrent : Triple (fun rt => rt.session.agentSessionStarted = false)
      (startAgentSession env turnId reason) (fun _ rt => rt.core.TailCurrent)
      fun _ _ => True := by
  refine .get_bind fun rt hrt => ?_
  rw [hrt]
  refine (Triple.trivial _).bind fun batch => (Triple.trivial _).bind fun applied => ?_
  split
  · exact .throw fun _ _ => trivial
  · refine (appendEvent_triple (Q := fun _ rt => rt.core.TailCurrent)
      (fun rt _ => Core.tailCurrent_append rt.core _ _ _) fun _ _ _ => trivial).bind fun _ => ?_
    exact .modify fun _ h => h

theorem rotateAgentSession_tailCurrent {endReason startReason : String} :
    Triple (fun _ => True) (rotateAgentSession env turnId endReason startReason)
      (fun _ rt => rt.core.TailCurrent) fun _ _ => True := by
  refine (Triple.trivial _).bind fun _ => (Triple.trivial _).bind fun now => ?_
  refine Triple.bind (R := fun _ rt => rt.session.agentSessionStarted = false)
    (.modify fun _ _ => rfl) fun _ => ?_
  exact .bind (R := fun _ rt => rt.session.agentSessionStarted = false)
    (.modify fun _ h => h) fun _ => startAgentSession_tailCurrent

/-- If all events are accepted, a method moves by whole changes, to any exit. -/
theorem Moves.steps (hstore : ∀ now envelope, env.store now envelope = .ok ())
    (hm : Moves env A m Q) (rt : AgentRuntime) : Steps A rt.core (m.exec rt).2.core :=
  (Triple.state_iff.mp ((hm.reaches hstore rt).result fun _ _ h => h.2) rt rfl).steps

variable (hstore : ∀ now envelope, env.store now envelope = .ok ())

include hstore

/-- A method that stays in its agent session keeps the last event current. -/
theorem Moves.tailCurrent (hm : Moves env Stays m Q) :
    Triple (fun rt => rt.core.TailCurrent) m (fun _ rt => rt.core.TailCurrent)
      fun _ rt => rt.core.TailCurrent :=
  Triple.state_iff.mpr fun rt h => (hm.steps hstore rt).tailCurrent h

/-- **A compaction that returns has logged under its new agent session.** -/
theorem compactVisibleHistory_tailCurrent {instructions : Option String}
    {postInstructions : Option (List String)} :
    Triple (fun rt => rt.core.TailCurrent)
      (compactVisibleHistory env turnId reason instructions postInstructions)
      (fun _ rt => rt.core.TailCurrent) fun _ _ => True := by
  have henv := stays_allowsEdits.respects env
  have hweak : ∀ {α : Type} {m : RuntimeM α} {Q : α → Prop}, Moves env Stays m Q →
      Triple (fun rt => rt.core.TailCurrent) m (fun _ rt => rt.core.TailCurrent)
        fun _ _ => True := fun hm =>
    (hm.tailCurrent hstore).exits fun _ _ _ => trivial
  refine .get_bind fun rt hrt => ?_
  dsimp only
  have hdone : ∀ b, Triple (fun s => s = rt) (pure b : RuntimeM Bool)
      (fun _ s => s.core.TailCurrent) fun _ _ => True :=
    fun b => .pure fun s hs => hs ▸ hrt
  repeat' split
  all_goals first
    | exact hdone false
    | skip
  refine .at_state (P := fun rt => rt.core.TailCurrent) ?_ hrt
  refine (hweak (runHooks_moves _ _ _ _)).bind fun batch => ?_
  refine (hweak (applyHookEffectsWithObserver_moves stays_internal
    (stays_allowsEdits.batchAllowed batch) pushable_none)).bind fun applied => ?_
  split
  · exact .pure fun _ h => h
  -- Whatever happens up to the rotation, the rotation logs under the new agent session.
  refine (Triple.trivial _).bind fun _ => (Triple.trivial _).bind fun summary => ?_
  refine (Triple.trivial _).bind fun _ => (Triple.trivial _).bind fun _ => ?_
  refine (Triple.trivial _).bind fun _ => (Triple.trivial _).bind fun _ => ?_
  refine rotateAgentSession_tailCurrent.bind fun _ => ?_
  split
  · exact (hweak (recordInstructionLoad_moves stays_internal henv)).bind fun _ =>
      .pure fun _ h => h
  · exact .pure fun _ h => h

end Run

/-! ### Runs of one runtime -/

/-- What is done to a runtime. Which other events are logged does not matter. -/
inductive RuntimeOp where
  | logEvent (turnId : Option TurnId) (toolCallId : Option ToolCallId)
      (event : SessionEventKind) (other : event.isTranscriptEvent = false)
  | appendMessage (turnId : TurnId) (message : Message)
  | steer (message : String) (reason : Option String)
  | hookEffects (turnId : TurnId) (batch : HookInvocationBatch)
      (currentMessage : Option Message) (currentToolName : Option ToolName)
  | rollback (messageId : MessageId)
  | compact (turnId : TurnId) (reason : String) (instructions : Option String)
      (postCompactionInstructions : Option (List String))

namespace RuntimeOp

def isCompaction : RuntimeOp → Bool
  | .compact .. => true
  | _ => false

/-- The event that is logged directly. -/
def logged : RuntimeOp → Option SessionEventKind
  | .logEvent _ _ event _ => some event
  | _ => none

def run (env : Env) : RuntimeOp → RuntimeM Unit
  | .logEvent turnId toolCallId event _ => appendEvent env turnId toolCallId event
  | .appendMessage turnId message => appendTranscriptMessage env turnId message
  | .steer message reason => steerWithObserver env message reason
  | .hookEffects turnId batch currentMessage currentToolName => do
    let _ ← applyHookEffects env turnId batch currentMessage currentToolName
  | .rollback messageId => do
    let _ ← rollbackVisibleHistoryFromMessage env messageId
  | .compact turnId reason instructions postCompactionInstructions => do
    let _ ← compactVisibleHistory env turnId reason instructions postCompactionInstructions

/-- Perform an operation, which may fail unless it is a compaction. -/
def step (env : Env) (rt : AgentRuntime) (op : RuntimeOp) : Option AgentRuntime :=
  match (op.run env).exec rt with
  | (.ok _, rt') => some rt'
  | (.error _, rt') => if op.isCompaction then none else some rt'

end RuntimeOp

/-- Perform operations one after the other. -/
def runOps (env : Env) : AgentRuntime → List RuntimeOp → Option AgentRuntime
  | rt, [] => some rt
  | rt, op :: ops => (op.step env rt).bind fun rt' => runOps env rt' ops

/-- Operations move by changes; only compactions change the agent session. -/
theorem RuntimeOp.run_moves (op : RuntimeOp) (hlog : ∀ event ∈ op.logged, ∀ core turnId toolCallId,
      A core (.log turnId toolCallId event)) (hA : Internal A)
    (hedits : AllowsEdits A) (hcompact : op.isCompaction = true → Compacting A) :
    Moves env A (op.run env) fun _ => True := by
  cases op with
  | logEvent turnId toolCallId event other =>
    exact appendEvent_moves (fun core => hlog event rfl core _ _) other
  | appendMessage turnId message =>
    exact appendTranscriptMessage_moves fun core => hedits.push core _ _
  | steer message reason => exact steerWithObserver_moves hA
  | hookEffects turnId batch currentMessage currentToolName =>
    exact (applyHookEffects_moves hA (hedits.batchAllowed batch)
      fun m _ core turnId => hedits.push core turnId m).bind fun _ _ => .pure trivial
  | rollback messageId =>
    exact (rollbackVisibleHistoryFromMessage_moves hedits.remove).bind fun _ _ =>
      .pure trivial
  | compact turnId reason instructions postCompactionInstructions =>
    exact (compactVisibleHistory_moves (hcompact rfl) (hedits.respects env)).bind
      fun _ _ => .pure trivial

theorem Steps.recorded (hsteps : Steps A core core') (h : core.Recorded) : core'.Recorded :=
  hsteps.invariant (fun core change _ hv h => change.recorded core hv h) h

/-- The log of a runtime is a mirror of its session and ends in its agent session. -/
structure AgentRuntime.Replayable (rt : AgentRuntime) : Prop where
  recorded : rt.core.Recorded
  tailCurrent : rt.core.TailCurrent

variable {rt rt' : AgentRuntime} {op : RuntimeOp}

/-- What an operation does, whether it returns or exits. -/
theorem RuntimeOp.step_eq_some (hstep : op.step env rt = some rt') :
    ∃ result, (op.run env).exec rt = (result, rt') ∧
      (op.isCompaction = true → ∃ a, result = .ok a) := by
  unfold step at hstep
  rcases hexec : (op.run env).exec rt with ⟨e | a, rt''⟩ <;> rw [hexec] at hstep
  · by_cases hop : op.isCompaction = true
    · simp only [if_pos hop] at hstep
      cases hstep
    · simp only [if_neg hop] at hstep
      cases hstep
      exact ⟨_, rfl, fun hc => absurd hc hop⟩
  · cases hstep
    exact ⟨_, rfl, fun _ => ⟨a, rfl⟩⟩

section Accepted

variable (hstore : ∀ now envelope, env.store now envelope = .ok ())

include hstore

theorem RuntimeOp.step_steps (hstep : op.step env rt = some rt') :
    Steps Anything rt.core rt'.core := by
  obtain ⟨result, hexec, -⟩ := step_eq_some hstep
  have hmoves : Moves env Anything (op.run env) fun _ => True :=
    op.run_moves (fun _ _ _ _ _ => trivial) anything_compacting.toInternal
      logging_allowsEdits fun _ => anything_compacting
  have hsteps := hmoves.steps hstore rt
  rwa [hexec] at hsteps

/-- **Step lemma.** Performing an operation keeps the runtime replayable. -/
theorem RuntimeOp.step_replayable (h : rt.Replayable)
    (hstep : op.step env rt = some rt') : rt'.Replayable := by
  refine ⟨(step_steps hstore hstep).recorded h.recorded, ?_⟩
  obtain ⟨result, hexec, hok⟩ := step_eq_some hstep
  by_cases hop : op.isCompaction = true
  · obtain ⟨a, rfl⟩ := hok hop
    cases op with
    | compact turnId reason instructions postInstructions =>
      have htail : Triple (fun rt => rt.core.TailCurrent)
          (RuntimeOp.run env (.compact turnId reason instructions postInstructions))
          (fun _ rt => rt.core.TailCurrent) fun _ _ => True :=
        (compactVisibleHistory_tailCurrent hstore).bind fun _ => Triple.pure fun _ h => h
      exact htail.of_ok h.tailCurrent hexec
    | _ => cases hop
  · -- An operation other than a compaction stays in its agent session.
    have hmoves : Moves env Stays (op.run env) fun _ => True :=
      op.run_moves (fun _ _ _ _ _ => nofun) stays_internal stays_allowsEdits
        fun hc => absurd hc hop
    have hsteps := hmoves.steps hstore rt
    rw [hexec] at hsteps
    exact hsteps.tailCurrent h.tailCurrent

/-- **Run lemma.** -/
theorem runOps_replayable {ops : List RuntimeOp} (h : rt.Replayable)
    (hrun : runOps env rt ops = some rt') : rt'.Replayable := by
  induction ops generalizing rt with
  | nil =>
    cases hrun
    exact h
  | cons op ops ih =>
    obtain ⟨rt₁, hstep, hrun⟩ := bind_eq_some_iff.mp hrun
    exact ih (RuntimeOp.step_replayable hstore h hstep) hrun

end Accepted

theorem AgentRuntime.new_replayable (sessionId : SessionId) (agentSessionId : AgentSessionId)
    (config : LoopDetectionConfig) :
    (AgentRuntime.new (RuntimeSession.new sessionId agentSessionId) config).Replayable where
  recorded _ := ⟨List.Sublist.refl [], fun id hid => absurd hid (Finset.notMem_empty id), rfl, rfl⟩
  tailCurrent _ he := absurd he (not_mem_none _)

/-! ### The reconstructed session -/

/-- The session rebuilt from the log shows what the live session shows. -/
def AgentRuntime.ReplayAgrees (rt : AgentRuntime) : Prop :=
  ∃ restored, reconstructRuntimeSession rt.log rt.session.agentSessionId = .ok restored ∧
    restored.visibleTranscript = rt.session.visibleTranscript

theorem Core.TailCurrent.lastEventOf (h : core.TailCurrent) (hlog : core.log ≠ []) :
    lastEventOf core.log core.session.agentSessionId = some (core.log.length - 1) := by
  obtain ⟨before, last, heq⟩ := (eq_nil_or_concat' core.log).resolve_left hlog
  rw [heq, lastEventOf_concat, if_pos (h last (by simp [heq])), length_append]
  rfl

/-- **When live and replayed sessions agree**, if the store accepted all events and identifiers are
distinct: exactly if something was logged and the window can be rebuilt. -/
theorem reconstruct_agrees_iff {env : Env}
    (hstore : ∀ now envelope, env.store now envelope = .ok ()) {sessionId : SessionId}
    {agentSessionId : AgentSessionId} {config : LoopDetectionConfig} {ops : List RuntimeOp}
    {rt : AgentRuntime}
    (hrun : runOps env (AgentRuntime.new (RuntimeSession.new sessionId agentSessionId) config)
      ops = some rt)
    (hn : (loggedIds rt.log).Nodup) :
    rt.ReplayAgrees ↔ rt.log ≠ [] ∧ rt.session.replaysWindow = true := by
  have h := runOps_replayable hstore
    (AgentRuntime.new_replayable sessionId agentSessionId config) hrun
  by_cases hlog : rt.log = []
  · refine iff_of_false ?_ fun hne => hne.1 hlog
    rintro ⟨restored, hrestored, -⟩
    rw [hlog] at hrestored
    cases hrestored
  · refine .trans ?_ (and_iff_right hlog).symm
    refine (h.recorded hn).reconstruct_iff hn (h.tailCurrent.lastEventOf hlog) ?_
    have hdrop : rt.log.drop (rt.log.length - 1 + 1) = [] := drop_eq_nil_of_le (by omega)
    intro e he
    cases hdrop ▸ he

/-! ### A run with two compactions -/

/-- Three rounds; after the second and the third a compaction keeps the last one. -/
def twoCompactions : List RuntimeOp :=
  [ .appendMessage ⟨"t"⟩ (Message.user "ask" ⟨"u0"⟩),
    .appendMessage ⟨"t"⟩ (Message.assistant "answer" ⟨"a1"⟩),
    .appendMessage ⟨"t"⟩ (Message.user "ask" ⟨"u2"⟩),
    .appendMessage ⟨"t"⟩ (Message.assistant "answer" ⟨"a3"⟩),
    .compact ⟨"t"⟩ "manual" none none,
    .appendMessage ⟨"t"⟩ (Message.user "ask" ⟨"u5"⟩),
    .appendMessage ⟨"t"⟩ (Message.assistant "answer" ⟨"a6"⟩),
    .compact ⟨"t"⟩ "manual" none none ]

/-- With one compaction the log restores the live session. -/
theorem one_compaction_agrees :
    ∃ rt, runOps quietEnv freshRuntime (twoCompactions.take 5) = some rt ∧
      (loggedIds rt.log).Nodup ∧ rt.ReplayAgrees := by
  have hcheck : (runOps quietEnv freshRuntime (twoCompactions.take 5)).any (fun rt =>
      decide (loggedIds rt.log).Nodup && !rt.log.isEmpty && rt.session.replaysWindow) = true := by
    decide +kernel
  obtain ⟨rt, hrt, hcheck⟩ := (any_eq_true _ _).mp hcheck
  rw [Bool.and_eq_true, Bool.and_eq_true, decide_eq_true_eq] at hcheck
  refine ⟨rt, hrt, hcheck.1.1, (reconstruct_agrees_iff (fun _ _ => rfl) hrt hcheck.1.1).mpr ?_⟩
  exact ⟨by simpa using hcheck.1.2, hcheck.2⟩

/-- After the second compaction the rebuilt session shows the first summary again. -/
theorem two_compactions_disagree : (∀ now envelope, quietEnv.store now envelope = .ok ()) ∧
      ∃ rt, runOps quietEnv freshRuntime twoCompactions = some rt ∧
        (loggedIds rt.log).Nodup ∧ ¬ rt.ReplayAgrees := by
  have hcheck : (runOps quietEnv freshRuntime twoCompactions).any (fun rt =>
      decide (loggedIds rt.log).Nodup &&
      !decide ((reconstructRuntimeSession rt.log rt.session.agentSessionId).toOption.map
          (fun restored => restored.visibleTranscript.map messageId) =
        some (rt.session.visibleTranscript.map messageId))) = true := by
    decide +kernel
  obtain ⟨rt, hrt, hcheck⟩ := (any_eq_true _ _).mp hcheck
  rw [Bool.and_eq_true, decide_eq_true_eq] at hcheck
  refine ⟨fun _ _ => rfl, rt, hrt, hcheck.1, ?_⟩
  rintro ⟨restored, hrestored, hvisible⟩
  rw [hrestored, ← hvisible] at hcheck
  simp [Except.toOption] at hcheck

end Nanoclaw
