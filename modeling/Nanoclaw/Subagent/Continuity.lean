import Nanoclaw.Runtime.Fork
import Nanoclaw.Runtime.ReplayAgreement
import Nanoclaw.Subagent.Interrupt

/-!
# A Child across Compactions

The handle of a child keeps the agent session the child was spawned with, and a resume or an
interrupt loads the child's session by it. The runtime changes its agent session with every
compaction; then a load cuts the log at the last event of a session that was left.

This module follows one child through its life: work of its runtime, status changes, resumes and
interrupts, one after the other.
-/

namespace Nanoclaw

open List RuntimeSession Proc

/-! ### The life of a child -/

structure ChildRun where
  /-- The agent session in the handle. -/
  agentSessionId : AgentSessionId
  /-- The status in the handle. -/
  status : AgentStatus
  /-- The runtime of the last worker, with the log of the child. -/
  rt : AgentRuntime

inductive ChildRun.Step where
  /-- The worker performs an operation of its runtime. -/
  | work (op : RuntimeOp)
  /-- `update_status`, `finish` and `cancel` write the status. -/
  | status (status : AgentStatus)
  | resume
  | interrupt

variable {child : ChildRun}

namespace ChildRun

/-- `build_child_session`: a fork loads the session of the parent. -/
def buildChildSession (sessionId : SessionId) (agentSessionId : AgentSessionId) :
    Option (List SessionEventEnvelope × AgentSessionId) → Except RuntimeError RuntimeSession
  | none => .ok (.new sessionId agentSessionId)
  | some (parentLog, parentAgentSessionId) => do
    let parent ← reconstructRuntimeSession parentLog parentAgentSessionId
    return forkRuntimeSession parent sessionId agentSessionId

/-- A child that starts afresh, or as a fork whose seed is persisted first. -/
def spawned (sessionId : SessionId) (agentSessionId : AgentSessionId)
    (config : LoopDetectionConfig) (fork : Option (List SessionEventEnvelope × AgentSessionId)) :
    Except RuntimeError ChildRun := do
  let session ← buildChildSession sessionId agentSessionId fork
  let log ← (if fork.isSome then seedRuntimeSessionEvents session else .ok [])
  return { agentSessionId, status := .queued, rt := { AgentRuntime.new session config with log } }

/-- A new worker with a loaded session. -/
def relaunch (child : ChildRun) (session : RuntimeSession) (removals : List SessionEventEnvelope) :
    ChildRun :=
  { child with
    status := .queued
    rt :=
      { AgentRuntime.new session child.rt.toolLoopDetector.config with
        log := child.rt.log ++ removals
        clock := child.rt.clock } }

/-- A resume needs a finished child, an interrupt a running one. -/
def step (env : Env) (child : ChildRun) : Step → ChildRun
  | .work op =>
    if child.status.isTerminal then child
    else { child with rt := ((op.run env).exec child.rt).2 }
  | .status status => { child with status }
  | .resume =>
    if child.status.isTerminal then
      match reconstructRuntimeSession child.rt.log child.agentSessionId with
      | .ok session => child.relaunch session []
      | .error _ => child
    else child
  | .interrupt =>
    if child.status = .running ∨ child.status = .waitingApproval then
      match reconstructRuntimeSession child.rt.log child.agentSessionId with
      | .ok session =>
        child.relaunch session.rollbackInterruptedTurn.1 session.rollbackInterruptedTurn.2
      | .error _ => child
    else child

/-- **The condition on a step**: a compaction finds nothing to compact, and a load finds a
window that can be rebuilt from the log. -/
def undisturbed (env : Env) (child : ChildRun) : Step → Bool
  | .work op => !op.isCompaction || (selectCompactionSplitIndex
      child.rt.session.visibleTranscript env.compactionConfig.preserveRecentMessages).isNone
  | .status _ => true
  | .resume | .interrupt => child.rt.session.replaysWindow

/-! ### What the handle is for -/

/-- The newest transcript event of a log. -/
def newestTranscriptEvent (events : List SessionEventEnvelope) : Option SessionEventEnvelope :=
  events.reverse.find? fun e => e.event.isTranscriptEvent

/-- **The handle names the agent session of the newest transcript event.** -/
def HandleCurrent (child : ChildRun) : Prop :=
  ∀ e ∈ newestTranscriptEvent child.rt.log, e.agentSessionId = child.agentSessionId

theorem handleCurrent_iff : child.HandleCurrent ↔ (newestTranscriptEvent child.rt.log).all
      (fun e => decide (e.agentSessionId = child.agentSessionId)) = true := by
  unfold HandleCurrent
  cases newestTranscriptEvent child.rt.log <;> simp

/-- **A load by the handle gives back what the child shows.** -/
def LoadsLatest (child : ChildRun) : Prop :=
  ∃ restored, reconstructRuntimeSession child.rt.log child.agentSessionId = .ok restored ∧
    restored.visibleTranscript = child.rt.session.visibleTranscript

end ChildRun

/-! ### Work without compaction -/

/-- A session that never left its agent session. -/
structure Core.Settled (agentSessionId : AgentSessionId) (core : Core) : Prop where
  current : core.session.agentSessionId = agentSessionId
  own : ∀ e ∈ core.log, e.agentSessionId = agentSessionId

namespace Core.Settled

variable {agentSessionId : AgentSessionId} {core core' : Core} (h : core.Settled agentSessionId)

include h

theorem logged (hcurrent : core'.session.agentSessionId = agentSessionId)
    {event : SessionEventEnvelope} (hlog : core'.log = core.log ++ [event])
    (hown : event.agentSessionId = agentSessionId) : core'.Settled agentSessionId := by
  refine ⟨hcurrent, ?_⟩
  rw [hlog, forall_mem_append, forall_mem_singleton]
  exact ⟨h.own, hown⟩

theorem removeLogged (turnId : TurnId) (ids : List MessageId) :
    (ids.foldl (Core.removeLogged turnId) core).Settled agentSessionId := by
  induction ids generalizing core with
  | nil => exact h
  | cons id ids ih => exact ih (h.logged h.current rfl h.current)

theorem pushLogged (turnId : TurnId) (message : Message) :
    (Change.pushLogged core turnId message).Settled agentSessionId :=
  h.logged h.current rfl h.current

/-- **Changes that stay** keep a session settled. -/
theorem change (change : Change) (hA : Stays core change) :
    (change.apply core).Settled agentSessionId := by
  cases change with
  | log | edit | usage => exact h.logged h.current rfl h.current
  | push turnId message => exact h.pushLogged turnId message
  | remove turnId ids => exact ⟨(h.removeLogged turnId ids).1, (h.removeLogged turnId ids).2⟩
  | commit turnId reason count summary id tail =>
    exact (h.pushLogged turnId (.system summary id)).logged h.current rfl h.current
  | record | reset | start => exact ⟨h.current, h.own⟩
  | rotate id => exact ⟨(hA _ rfl).trans h.current, h.own⟩

theorem interrupted {change : Change} {event : SessionEventKind}
    (hi : change.Interrupted core event core') : core'.Settled agentSessionId := by
  cases hi with
  | push | edit | commitSummary | usage => exact ⟨h.current, h.own⟩
  | @remove turnId done =>
    have hremoved := h.removeLogged turnId done
    exact ⟨hremoved.current, hremoved.own⟩
  | @commitCheckpoint turnId _ _ summary id =>
    have hpushed := h.pushLogged turnId (.system summary id)
    exact ⟨hpushed.current, hpushed.own⟩

end Core.Settled

/-- The child never left the agent session in its handle. -/
abbrev ChildRun.Settled (child : ChildRun) : Prop :=
  child.rt.core.Settled child.agentSessionId

section Work

variable {env : Env} {op : RuntimeOp}

/-- An operation that meets the condition does nothing or stays in its agent session. -/
theorem work_stays (hop : child.undisturbed env (.work op) = true) :
    ((op.run env).exec child.rt).2 = child.rt ∨ Moves env Stays (op.run env) fun _ => True := by
  by_cases hcompaction : op.isCompaction = true
  · left
    cases op with
    | compact turnId reason instructions postInstructions =>
      have hnone : selectCompactionSplitIndex child.rt.session.visibleTranscript
          env.compactionConfig.preserveRecentMessages = none := by
        simpa [ChildRun.undisturbed, hcompaction] using hop
      have hexec : (compactVisibleHistory env turnId reason instructions postInstructions).exec
          child.rt = (.ok false, child.rt) := by
        rw [compactVisibleHistory, exec_bind, exec_get]
        simp only [hnone]
        split <;> rfl
      rw [RuntimeOp.run, exec_bind, hexec]
      rfl
    | _ => cases hcompaction
  · exact .inr (op.run_moves (fun _ _ _ _ _ => nofun) stays_internal stays_allowsEdits
      fun h => absurd h hcompaction)

theorem work_settled (h : child.Settled) (hop : child.undisturbed env (.work op) = true) :
    ((op.run env).exec child.rt).2.core.Settled child.agentSessionId := by
  rcases work_stays hop with hsame | hmoves
  · rw [hsame]
    exact h
  · have htriple := hmoves.invariant (I := Core.Settled child.agentSessionId)
      (fun core change hA _ h => h.change change hA)
      fun core change event core' _ _ _ h hi => h.interrupted hi
    exact Triple.state_iff.mp (htriple.result fun _ _ h => h.2) _ h

theorem work_recorded (hstore : ∀ now envelope, env.store now envelope = .ok ())
    (h : child.rt.core.Recorded) (hop : child.undisturbed env (.work op) = true) :
    ((op.run env).exec child.rt).2.core.Recorded := by
  rcases work_stays hop with hsame | hmoves
  · rw [hsame]
    exact h
  · exact (hmoves.steps hstore child.rt).recorded h

end Work

/-! ### Loads -/

section Loads

variable {session : RuntimeSession} {events : List SessionEventEnvelope}

/-- A rolled back message was loaded. -/
theorem RuntimeSession.mem_ids_of_interrupted {id : MessageId}
    (h : id ∈ session.interruptedMessageIds) : id ∈ session.ids := by
  unfold interruptedMessageIds at h
  split at h
  · cases h
  · obtain ⟨m, hm, rfl⟩ := mem_map.mp h
    obtain ⟨i, -, hi⟩ := mem_filterMap.mp (mem_filter.mp hm).1
    exact mem_map_of_mem (mem_of_getElem? hi)

/-- Hiding messages and logging that keeps a session mirrored. -/
theorem Mirrors.removals (h : Mirrors session events) (hn : (loggedIds events).Nodup)
    {ids : List MessageId} (hids : ∀ id ∈ ids, id ∈ session.ids) :
    Mirrors (ids.foldl removeMessage session) (events ++ ids.map session.removalEvent) := by
  induction ids using reverseRecOn with
  | nil => rwa [map_nil, append_nil]
  | append_singleton ids id ih =>
    obtain ⟨hrest, hid⟩ := forall_mem_append.mp hids
    obtain ⟨hlogged, -, -⟩ := replay_append_removals hn session.removalEvent (fun _ => rfl) ids
    rw [foldl_append, map_append, ← append_assoc]
    refine (ih hrest).remove (hlogged ▸ hn) ?_ rfl
    rw [foldl_removeMessage]
    exact hid id mem_cons_self

/-- The log of a settled session ends in its agent session. -/
theorem Core.Settled.endsIn {agentSessionId : AgentSessionId} {core : Core}
    (h : core.Settled agentSessionId) (hlog : core.log ≠ []) : EndsIn core.log agentSessionId := by
  have hown := h.own (core.log.getLast hlog) (getLast_mem hlog)
  rw [← dropLast_append_getLast hlog]
  exact endsIn_of_last hown

end Loads

namespace ChildRun

variable {session : RuntimeSession} {step : Step} {env : Env}

section

variable (h : child.Settled)

include h

/-- **When a load gives back what the child shows.** -/
theorem Settled.loadsLatest_iff (hrecorded : child.rt.core.Recorded)
    (hn : (loggedIds child.rt.log).Nodup) : child.LoadsLatest ↔
      child.rt.log ≠ [] ∧ child.rt.session.replaysWindow = true := by
  by_cases hlog : child.rt.log = []
  · refine iff_of_false ?_ fun hne => hne.1 hlog
    rintro ⟨restored, hrestored, -⟩
    rw [hlog] at hrestored
    cases hrestored
  · obtain ⟨hpresent, hsilent⟩ := h.endsIn hlog
    obtain ⟨cutoff, hcut⟩ := Option.isSome_iff_exists.mp hpresent
    have hlater := later_of_saysNothingAfter hcut hsilent
    exact ((hrecorded hn).reconstruct_iff hn hcut hlater).trans (and_iff_right hlog).symm

variable (hload : reconstructRuntimeSession child.rt.log child.agentSessionId = .ok session)

include hload

theorem Settled.endsIn_of_load : EndsIn child.rt.log child.agentSessionId := by
  refine h.endsIn fun hnil => ?_
  change child.rt.log = [] at hnil
  rw [hnil] at hload
  cases hload

/-- A new worker on a loaded session of which some messages are hidden. -/
theorem relaunch_settled (ids : List MessageId) : (child.relaunch (ids.foldl removeMessage session)
      (ids.map session.removalEvent)).Settled := by
  have hagent := (loadedFrom_of_reconstruct (h.endsIn_of_load hload).silent hload).1.agentSessionId
  rw [foldl_removeMessage]
  exact ⟨hagent, forall_mem_append.mpr ⟨h.own, forall_mem_map.mpr fun _ _ => hagent⟩⟩

theorem relaunch_recorded (hrecorded : child.rt.core.Recorded)
    (hreplays : child.rt.session.replaysWindow = true) {ids : List MessageId}
    (hids : ∀ id ∈ ids, id ∈ session.ids) : (child.relaunch (ids.foldl removeMessage session)
      (ids.map session.removalEvent)).rt.core.Recorded := by
  intro hn
  have hn' : (loggedIds child.rt.log).Nodup := nodup_loggedIds_of_append hn
  obtain ⟨hpresent, hsilent⟩ := h.endsIn_of_load hload
  obtain ⟨cutoff, hcut⟩ := Option.isSome_iff_exists.mp hpresent
  have hmirrors := (hrecorded hn').of_reconstruct hn' hcut
    (later_of_saysNothingAfter hcut hsilent) hreplays hload
  exact hmirrors.removals hn' hids

end

/-! ### Runs -/

/-- **What a step can do**: change the status at most, work, or relaunch the child with a
loaded session of which some messages are hidden. -/
inductive Outcome (env : Env) (child : ChildRun) : Step → ChildRun → Prop
  | status {step : Step} (status : AgentStatus) : Outcome env child step { child with status }
  | work {op : RuntimeOp} :
      Outcome env child (.work op) { child with rt := ((op.run env).exec child.rt).2 }
  | relaunch {step : Step} {session : RuntimeSession} (ids : List MessageId)
      (loads : child.undisturbed env step = child.rt.session.replaysWindow)
      (load : reconstructRuntimeSession child.rt.log child.agentSessionId = .ok session)
      (known : ∀ id ∈ ids, id ∈ session.ids) :
      Outcome env child step (child.relaunch (ids.foldl RuntimeSession.removeMessage session)
        (ids.map session.removalEvent))

theorem step_outcome (env : Env) (child : ChildRun) (step : Step) :
    Outcome env child step (child.step env step) := by
  have hsame : Outcome env child step child := .status child.status
  cases step with
  | work op =>
    simp only [ChildRun.step]
    split
    · exact hsame
    · exact .work
  | status status => exact .status status
  | resume =>
    simp only [ChildRun.step]
    split
    · split
      next session hload => exact .relaunch [] rfl hload nofun
      · exact hsame
    · exact hsame
  | interrupt =>
    simp only [ChildRun.step]
    split
    · split
      next session hload =>
        exact .relaunch session.interruptedMessageIds rfl hload fun id => mem_ids_of_interrupted
      · exact hsame
    · exact hsame

/-- **Step lemma.** A step that meets the condition keeps the child settled. -/
theorem step_settled (h : child.Settled) (hstep : child.undisturbed env step = true) :
    (child.step env step).Settled := by
  have houtcome := step_outcome env child step
  generalize child.step env step = child' at houtcome ⊢
  cases houtcome with
  | status => exact h
  | work => exact work_settled h hstep
  | relaunch ids _ hload => exact relaunch_settled h hload ids

/-- **Step lemma.** It also keeps the log a mirror of the session, if the store accepts all
events. -/
theorem step_recorded (hstore : ∀ now envelope, env.store now envelope = .ok ()) (h : child.Settled)
    (hrecorded : child.rt.core.Recorded) (hstep : child.undisturbed env step = true) :
    (child.step env step).rt.core.Recorded := by
  have houtcome := step_outcome env child step
  generalize child.step env step = child' at houtcome ⊢
  cases houtcome with
  | status => exact hrecorded
  | work => exact work_recorded hstore hrecorded hstep
  | relaunch ids hloads hload hknown =>
    exact relaunch_recorded h hload hrecorded (hloads ▸ hstep) hknown

/-! ### The start -/

section Start

variable {fork : RuntimeSession} {seed : List SessionEventEnvelope}

/-- The messages of a seed mirror a session that has them and no window. -/
theorem mirrors_seedMessages (fork : RuntimeSession) (messages : List Message)
    (hn : (loggedIds (messages.map (seedEvent fork ∘ .transcriptMessage))).Nodup) :
    Mirrors { RuntimeSession.new fork.sessionId fork.agentSessionId with transcript := messages }
      (messages.map (seedEvent fork ∘ .transcriptMessage)) := by
  induction messages using reverseRecOn with
  | nil => exact ⟨.refl [], nofun, rfl, rfl⟩
  | append_singleton messages message ih =>
    rw [map_append] at hn ⊢
    exact (ih (nodup_loggedIds_of_append hn)).push rfl hn

/-- **A fork is mirrored by its seed.** -/
theorem mirrors_seed (h : Seedable fork) (hseed : seedRuntimeSessionEvents fork = .ok seed)
    (hn : (loggedIds seed).Nodup) : Mirrors fork seed := by
  cases h with
  | uncompacted h =>
    have hindex : fork.compactionSummaryIndex = none := by rw [h]; rfl
    unfold seedRuntimeSessionEvents at hseed
    rw [hindex] at hseed
    cases hseed
    rw [h]
    exact mirrors_seedMessages fork fork.transcript hn
  | compacted k h window =>
    have hindex : fork.compactionSummaryIndex = some k := by rw [h]; rfl
    obtain ⟨summary, hsummary, -⟩ := window.summary
    obtain ⟨sources, chars, hseed'⟩ := window.seed_eq hindex hsummary
    cases hseed.symm.trans hseed'
    have hmessages := mirrors_seedMessages fork fork.transcript (nodup_loggedIds_of_append hn)
    rw [h]
    refine hmessages.compact ⟨summary.messageId, retainedIds fork⟩ ?_
      (fun i hi => (window.tail i hi).1) ?_ rfl
    · simp [RuntimeSession.ids, hsummary]
    · simp [RuntimeSession.ids, retainedIds]

/-- **Every child starts settled**, with a log that mirrors its session. -/
theorem spawned_recorded {sessionId : SessionId} {agentSessionId : AgentSessionId}
    {config : LoopDetectionConfig}
    {parent : Option (List SessionEventEnvelope × AgentSessionId)}
    (h : spawned sessionId agentSessionId config parent = .ok child) :
    child.Settled ∧ child.rt.core.Recorded := by
  obtain ⟨session, hsession, h⟩ := except_bind_eq_ok.mp h
  obtain ⟨seed, hseed, h⟩ := except_bind_eq_ok.mp h
  cases h
  cases parent with
  | none =>
    cases hsession
    cases hseed
    exact ⟨⟨rfl, fun _ he => absurd he not_mem_nil⟩,
      (AgentRuntime.new_replayable sessionId agentSessionId config).recorded⟩
  | some parent =>
    obtain ⟨loaded, hload, hsession⟩ := except_bind_eq_ok.mp hsession
    cases hsession
    obtain ⟨⟨later, hlater⟩, hown⟩ := seedRuntimeSessionEvents_eq_ok hseed
    refine ⟨⟨rfl, hown⟩, fun hn => mirrors_seed ?_ hseed hn⟩
    have hids : (forkRuntimeSession loaded sessionId agentSessionId).ids.Nodup := by
      change (loggedIds seed).Nodup at hn
      rw [hlater] at hn
      exact loggedIds_seedMessages _ ▸ nodup_loggedIds_of_append hn
    change loaded.ids.Nodup at hids
    exact (seedable_of_reconstruct hload (retainsLastIds_of_nodup hids)).forkRuntimeSession _ _

end Start

end ChildRun

/-- **The handle follows the child** in every run whose steps meet the condition: it names the agent
session of the newest transcript event, and, if the store accepts all events and identifiers are
distinct, a load gives back what the child shows if and only if something was logged and the window
can be rebuilt. -/
theorem handle_follows_child (env : Env) (sessionId : SessionId)
    (agentSessionId : AgentSessionId) (config : LoopDetectionConfig)
    (parent : Option (List SessionEventEnvelope × AgentSessionId)) {start child : ChildRun}
    (hstart : ChildRun.spawned sessionId agentSessionId config parent = .ok start)
    (steps : List ChildRun.Step)
    (hundisturbed : System.Meets (ChildRun.step env)
      (fun child step => child.undisturbed env step = true) start steps)
    (hrun : System.run (ChildRun.step env) start steps = child) :
    child.HandleCurrent ∧
      ((∀ now envelope, env.store now envelope = .ok ()) → (loggedIds child.rt.log).Nodup →
        (child.LoadsLatest ↔
          child.rt.log ≠ [] ∧ child.rt.session.replaysWindow = true)) := by
  subst hrun
  obtain ⟨hstartSettled, hstartRecorded⟩ := ChildRun.spawned_recorded hstart
  obtain ⟨hsettled, hrecorded⟩ := hundisturbed.run
    (I := fun child : ChildRun => child.Settled ∧
      ((∀ now envelope, env.store now envelope = .ok ()) → child.rt.core.Recorded))
    (fun child step h hstep => ⟨ChildRun.step_settled h.1 hstep, fun hstore =>
      ChildRun.step_recorded hstore h.1 (h.2 hstore) hstep⟩)
    ⟨hstartSettled, fun _ => hstartRecorded⟩
  refine ⟨fun e he => ?_, fun hstore hn => ?_⟩
  · exact hsettled.own e (mem_reverse.mp (mem_of_find?_eq_some he))
  · exact hsettled.loadsLatest_iff (hrecorded hstore) hn

/-! ### Two runs -/

/-- A child that is a fork of a compacted session is resumed as it was. -/
theorem finished_child_continues :
    ∃ start, ChildRun.spawned ⟨"t"⟩ ⟨"b"⟩ {} (some (answerRetained, ⟨"a"⟩)) = .ok start ∧
      (System.run (ChildRun.step quietEnv) start
        [.work (.appendMessage ⟨"t"⟩ (.user "ask" ⟨"u5"⟩)), .status .completed,
          .resume]).LoadsLatest := by
  refine ⟨_, rfl, ?_⟩
  refine ((handle_follows_child quietEnv ⟨"t"⟩ ⟨"b"⟩ {} (some (answerRetained, ⟨"a"⟩)) rfl
    [.work (.appendMessage ⟨"t"⟩ (.user "ask" ⟨"u5"⟩)), .status .completed, .resume]
    (by decide +kernel) rfl).2 (fun _ _ => rfl) (by decide +kernel)).mpr ?_
  exact ⟨by decide +kernel, by decide +kernel⟩

/-- A child that runs two rounds. -/
def twoRounds : List ChildRun.Step :=
  [ .work (.appendMessage ⟨"t"⟩ (.user "ask" ⟨"u0"⟩)),
    .work (.appendMessage ⟨"t"⟩ (.assistant "answer" ⟨"a1"⟩)),
    .work (.appendMessage ⟨"t"⟩ (.user "ask" ⟨"u2"⟩)),
    .work (.appendMessage ⟨"t"⟩ (.assistant "answer" ⟨"a3"⟩)) ]

/-- A child that starts afresh, in a quiet environment. -/
def quietChild (steps : List ChildRun.Step) : ChildRun :=
  System.run (ChildRun.step quietEnv)
    { agentSessionId := ⟨"a"⟩, status := .queued, rt := .new (.new ⟨"s"⟩ ⟨"a"⟩) {} } steps

/-- **After a compaction the handle is left behind**, and a resume loses the next message. -/
theorem handle_loses_child : let steps := twoRounds ++ [.work (.compact ⟨"t"⟩ "auto" none none),
      .work (.appendMessage ⟨"t"⟩ (.user "more" ⟨"u5"⟩))]
    ChildRun.spawned ⟨"s"⟩ ⟨"a"⟩ {} none = .ok (quietChild []) ∧
      ¬ (quietChild steps).HandleCurrent ∧
      (quietChild steps).rt.session.visibleTranscript.map Message.messageId =
        [⟨"m6"⟩, ⟨"u2"⟩, ⟨"a3"⟩, ⟨"u5"⟩] ∧
      (quietChild (steps ++ [.status .completed, .resume])).rt.session.visibleTranscript.map
        Message.messageId = [⟨"m6"⟩, ⟨"u2"⟩, ⟨"a3"⟩] := by
  refine ⟨rfl, ?_, by decide +kernel, by decide +kernel⟩
  rw [ChildRun.handleCurrent_iff]
  decide +kernel

end Nanoclaw
