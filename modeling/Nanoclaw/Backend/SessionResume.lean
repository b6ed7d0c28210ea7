import Nanoclaw.Runtime.ReplayAgreement

/-!
# Resuming and Forking Persisted Sessions

The life of one persisted root session: the runtime works on it, leaves it, and comes back by a
resume. A resume or a fork by the session reference reconstructs the session at the *first* agent
session of its log (`loadRuntimeSessionForRootAgent`). A compaction and every resume move the
runtime to a new agent session; what is said there is cut off.

`SavedSession.latest` records what the session showed when its last event was logged.
-/

namespace Nanoclaw

open Option Proc

/-! ### Loading a persisted session -/

variable (events : List SessionEventEnvelope)

/-- Reconstruct at the first agent session, under a fresh one. -/
def loadRuntimeSessionForRootAgent (sessionId : SessionId)
    (freshAgentSessionId : AgentSessionId) : Except RuntimeError RuntimeSession :=
  match (agentSessionIds events).head? with
  | none => .error (.external ("session " ++ sessionId.value ++ " has no persisted agent sessions"))
  | some rootAgentSessionId => do
    let session ← reconstructRuntimeSession events rootAgentSessionId
    return { session with agentSessionId := freshAgentSessionId }

/-- Reconstruct at one of the agent sessions, under a fresh one. -/
def loadRuntimeSessionForAgent
    (target freshAgentSessionId : AgentSessionId) : Except RuntimeError RuntimeSession := do
  let session ← reconstructRuntimeSession events target
  return { session with agentSessionId := freshAgentSessionId }

/-- The forked session, and the events that seed its own log. -/
def forkPersistedSession (sessionId : SessionId)
    (freshAgentSessionId : AgentSessionId) (forkSessionId : SessionId)
    (forkAgentSessionId : AgentSessionId) :
    Except RuntimeError (RuntimeSession × List SessionEventEnvelope) := do
  let parent ← loadRuntimeSessionForRootAgent events sessionId freshAgentSessionId
  let forked := forkRuntimeSession parent forkSessionId forkAgentSessionId
  let seed ← seedRuntimeSessionEvents forked
  return (forked, seed)

/-! ### The life of a persisted session -/

/-- A root session, its runtime, and what it showed at its last event. -/
structure SavedSession where
  rt : AgentRuntime
  /-- The runtime works on this session now. -/
  attached : Bool
  latest : List Message

inductive SessionStep where
  /-- An operation of the runtime while it works on the session. -/
  | op (op : RuntimeOp)
  /-- The runtime turns to another session. -/
  | leave (reason : Option String)
  /-- Another component logs an event into the session. -/
  | foreign (event : SessionEventEnvelope) (other : event.event.isTranscriptEvent = false)
  /-- Resume by the session reference. -/
  | resume (freshAgentSessionId : AgentSessionId)
  /-- Resume by the reference of an agent session. -/
  | resumeAgent (target freshAgentSessionId : AgentSessionId)

namespace SavedSession

def new (sessionId : SessionId) (agentSessionId : AgentSessionId)
    (config : LoopDetectionConfig) : SavedSession where
  rt := AgentRuntime.new (RuntimeSession.new sessionId agentSessionId) config
  attached := true
  latest := []

/-- After work of the runtime, what it shows is the latest if it logged something. -/
def worked (s : SavedSession) (rt : AgentRuntime) : SavedSession :=
  { s with
    rt
    latest := if rt.log.length = s.rt.log.length then s.latest
      else rt.session.visibleTranscript }

/-- The runtime takes over a session, and ends the agent session it leaves. -/
def activate (env : Env) (s : SavedSession) (session : RuntimeSession) : SavedSession :=
  let resume := if s.attached then resumeSession env session else attachSession session
  let rt := (resume.exec s.rt).2
  { rt
    attached := true
    latest := if rt.log.length = s.rt.log.length then s.latest
      else s.rt.session.visibleTranscript }

/-- A failed resume, or one of what the runtime works on, changes nothing. -/
def step (env : Env) (s : SavedSession) : SessionStep → Option SavedSession
  | .op op => if s.attached then (op.step env s.rt).map s.worked else none
  | .leave reason =>
    if s.attached then
      some { s.worked ((endSession env reason).exec s.rt).2 with attached := false }
    else none
  | .foreign event _ => some (s.worked { s.rt with log := s.rt.log ++ [event] })
  | .resume freshAgentSessionId =>
    if s.attached then some s
    else match loadRuntimeSessionForRootAgent s.rt.log s.rt.session.sessionId
        freshAgentSessionId with
      | .ok session => some (s.activate env session)
      | .error _ => some s
  | .resumeAgent target freshAgentSessionId =>
    if s.attached ∧ target = s.rt.session.agentSessionId then some s
    else match loadRuntimeSessionForAgent s.rt.log target freshAgentSessionId with
      | .ok session => some (s.activate env session)
      | .error _ => some s

end SavedSession

/-! ### When a resume restores the latest state -/

/-- Nothing was said after the resumed agent session, and the window can be rebuilt. -/
def SessionStep.meets (s : SavedSession) : SessionStep → Bool
  | .resume _ => (agentSessionIds s.rt.log).head?.all fun root =>
    saysNothingAfter s.rt.log root && s.rt.session.replaysWindow
  | .resumeAgent target _ => saysNothingAfter s.rt.log target && s.rt.session.replaysWindow
  | _ => true

/-- Perform steps one after the other. -/
def SavedSession.run (env : Env) : SavedSession → List SessionStep → Option SavedSession
  | s, [] => some s
  | s, step :: steps => (s.step env step).bind fun s' => SavedSession.run env s' steps

/-- All resumes of a run meet the condition where they happen. -/
def SavedSession.meetsAll (env : Env) : SavedSession → List SessionStep → Bool
  | _, [] => true
  | s, step :: steps =>
    step.meets s && (s.step env step).all fun s' => SavedSession.meetsAll env s' steps

variable {session : RuntimeSession} {events}

section Load

variable {target fresh : AgentSessionId}

theorem loadRuntimeSessionForRootAgent_eq (sessionId : SessionId) {root : AgentSessionId}
    (h : (agentSessionIds events).head? = some root) :
    loadRuntimeSessionForRootAgent events sessionId fresh =
      loadRuntimeSessionForAgent events root fresh := by
  unfold loadRuntimeSessionForRootAgent
  rw [h]
  rfl

/-- An agent session that was found shows what a mirrored session shows. -/
theorem load_restores (hm : Mirrors session events) (hn : (loggedIds events).Nodup)
    (hafter : saysNothingAfter events target = true) (hw : session.replaysWindow = true)
    {loaded : RuntimeSession}
    (hload : loadRuntimeSessionForAgent events target fresh = .ok loaded) :
    loaded.visibleTranscript = session.visibleTranscript ∧ Mirrors loaded events := by
  obtain ⟨restored, hrestored, ⟨⟩⟩ := except_bind_eq_ok.mp hload
  cases hcut : lastEventOf events target with
  | none =>
    rw [reconstructRuntimeSession, hcut] at hrestored
    cases hrestored
  | some cutoff =>
    have hlater := later_of_saysNothingAfter hcut hafter
    obtain ⟨restored', hok, hvisible⟩ := (hm.reconstruct_iff hn hcut hlater).mpr hw
    cases hok.symm.trans hrestored
    refine ⟨hvisible, ?_⟩
    exact (hm.of_reconstruct hn hcut hlater hw hrestored).of_same_window rfl rfl rfl rfl rfl

/-- An agent session of the log is found. -/
theorem load_succeeds (fresh : AgentSessionId) (hm : Mirrors session events)
    (hn : (loggedIds events).Nodup) (hmem : ∃ e ∈ events, e.agentSessionId = target)
    (hafter : saysNothingAfter events target = true) (hw : session.replaysWindow = true) :
    ∃ loaded, loadRuntimeSessionForAgent events target fresh = .ok loaded := by
  cases hcut : lastEventOf events target with
  | none =>
    obtain ⟨e, he, heq⟩ := hmem
    exact absurd heq (of_decide_eq_false (rposition_eq_none_iff.mp hcut e he))
  | some cutoff =>
    have hlater := later_of_saysNothingAfter hcut hafter
    obtain ⟨restored, hok, -⟩ := (hm.reconstruct_iff hn hcut hlater).mpr hw
    exact ⟨_, except_bind_eq_ok.mpr ⟨restored, hok, rfl⟩⟩

end Load

/-! ### Runs -/

/-- **The log mirrors the session**, which shows what it showed at its last event. -/
structure SavedSession.Consistent (s : SavedSession) : Prop where
  recorded : s.rt.core.Recorded
  visible : (loggedIds s.rt.log).Nodup → s.rt.session.visibleTranscript = s.latest

namespace SavedSession.Consistent

variable {env : Env} {s : SavedSession} {rt : AgentRuntime}

/-- Work of the runtime keeps a saved session consistent. -/
theorem worked (h : s.Consistent)
    (hsteps : Steps Anything s.rt.core rt.core) : (s.worked rt).Consistent := by
  refine ⟨hsteps.recorded h.recorded, fun hn => ?_⟩
  unfold SavedSession.worked
  dsimp only
  split
  next hlen =>
    obtain ⟨later, hlater⟩ := hsteps.log_prefix
    have hlog : (loggedIds s.rt.log).Nodup :=
      nodup_loggedIds_of_append ((congrArg (loggedIds · |>.Nodup) hlater).mpr hn)
    exact (hsteps.visible_of_log_length hlen).trans (h.visible hlog)
  · rfl

/-- An event of another component keeps a saved session consistent. -/
theorem foreign (h : s.Consistent) {event : SessionEventEnvelope}
    (other : event.event.isTranscriptEvent = false) :
    (s.worked { s.rt with log := s.rt.log ++ [event] }).Consistent := by
  refine ⟨fun hn => (h.recorded (nodup_loggedIds_of_append hn)).other other, fun hn => ?_⟩
  unfold SavedSession.worked
  simp

/-- Ending the agent session logs an event that is no transcript event, or nothing. -/
theorem exec_endSession (hstore : ∀ now envelope, env.store now envelope = .ok ())
    (reason : Option String) (rt : AgentRuntime) :
    ∃ rt', (endSession env reason).exec rt = (.ok (), rt') ∧ (rt'.log = rt.log ∨
        ∃ event, event.event.isTranscriptEvent = false ∧ rt'.log = rt.log ++ [event]) := by
  unfold endSession
  rw [exec_bind, exec_get]
  dsimp only
  split
  · rw [exec_appendEvent, hstore]
    exact ⟨_, rfl, .inr ⟨_, rfl, rfl⟩⟩
  · exact ⟨rt, rfl, .inl rfl⟩

/-- Attaching a session that shows the same, with at most one event more. -/
theorem attach (h : s.Consistent) (hload : (loggedIds s.rt.log).Nodup →
      session.visibleTranscript = s.rt.session.visibleTranscript ∧ Mirrors session s.rt.log)
    (hlog : rt.log = s.rt.log ∨
      ∃ event, event.event.isTranscriptEvent = false ∧ rt.log = s.rt.log ++ [event]) :
    SavedSession.Consistent
      { rt := ((attachSession session).exec rt).2
        attached := true
        latest := if rt.log.length = s.rt.log.length then s.latest
          else s.rt.session.visibleTranscript } := by
  have hnodup : (loggedIds rt.log).Nodup → (loggedIds s.rt.log).Nodup := by
    rcases hlog with hlog | ⟨event, -, hlog⟩ <;> rw [hlog]
    · exact id
    · exact nodup_loggedIds_of_append
  refine ⟨fun hn => ?_, fun hn => ?_⟩
  · have hmirrors : Mirrors session rt.log := by
      rcases hlog with hlog | ⟨event, hevent, hlog⟩ <;> rw [hlog]
      · exact (hload (hnodup hn)).2
      · exact (hload (hnodup hn)).2.other hevent
    exact hmirrors.of_same_window rfl rfl rfl rfl rfl
  · obtain ⟨hvisible, -⟩ := hload (hnodup hn)
    change session.visibleTranscript = if _ then _ else _
    split
    · exact hvisible.trans (h.visible (hnodup hn))
    · exact hvisible

section

variable (hstore : ∀ now envelope, env.store now envelope = .ok ())

include hstore

variable (h : s.Consistent) {s' : SavedSession}

include h

/-- Taking over a session that shows the same keeps a saved session consistent. -/
theorem activate (hload : (loggedIds s.rt.log).Nodup →
      session.visibleTranscript = s.rt.session.visibleTranscript ∧ Mirrors session s.rt.log) :
    (s.activate env session).Consistent := by
  unfold SavedSession.activate
  cases s.attached with
  | false => exact h.attach hload (.inl rfl)
  | true =>
    obtain ⟨rt', hexec, hlog⟩ := exec_endSession hstore (some "operator_resume_switch") s.rt
    have hresume : (resumeSession env session).exec s.rt = (attachSession session).exec rt' := by
      rw [resumeSession, exec_bind, hexec]
    rw [if_pos rfl]
    dsimp only
    rw [hresume]
    exact h.attach hload hlog

/-- **Step lemma.** A step that meets the condition keeps a saved session consistent. -/
theorem step {step : SessionStep} (hmeets : step.meets s = true)
    (hstep : s.step env step = some s') : s'.Consistent := by
  cases step with
  | op op =>
    simp only [SavedSession.step] at hstep
    split at hstep
    · obtain ⟨rt, hop, rfl⟩ := map_eq_some_iff.mp hstep
      exact h.worked (RuntimeOp.step_steps hstore hop)
    · cases hstep
  | leave reason =>
    simp only [SavedSession.step] at hstep
    split at hstep
    · cases hstep
      have hworked := h.worked ((endSession_moves anything_compacting.toInternal).steps hstore
        (m := endSession env reason) s.rt)
      exact ⟨hworked.recorded, hworked.visible⟩
    · cases hstep
  | foreign event other =>
    cases hstep
    exact h.foreign other
  | resume fresh =>
    simp only [SavedSession.step] at hstep
    split at hstep
    · cases hstep
      exact h
    split at hstep
    next session hload =>
      cases hstep
      refine h.activate hstore fun hn => ?_
      cases hroot : (agentSessionIds s.rt.log).head? with
      | none =>
        rw [loadRuntimeSessionForRootAgent, hroot] at hload
        cases hload
      | some root =>
        rw [loadRuntimeSessionForRootAgent_eq _ hroot] at hload
        simp only [SessionStep.meets, hroot, all_some, Bool.and_eq_true] at hmeets
        exact load_restores (h.recorded hn) hn hmeets.1 hmeets.2 hload
    · cases hstep
      exact h
  | resumeAgent target fresh =>
    simp only [SavedSession.step] at hstep
    split at hstep
    · cases hstep
      exact h
    split at hstep
    next session hload =>
      cases hstep
      simp only [SessionStep.meets, Bool.and_eq_true] at hmeets
      exact h.activate hstore fun hn =>
        load_restores (h.recorded hn) hn hmeets.1 hmeets.2 hload
    · cases hstep
      exact h

/-- **Run lemma.** -/
theorem run {steps : List SessionStep}
    (hmeets : s.meetsAll env steps = true) (hrun : s.run env steps = some s') : s'.Consistent := by
  induction steps generalizing s with
  | nil =>
    cases hrun
    exact h
  | cons step steps ih =>
    obtain ⟨s₁, hstep, hrun⟩ := bind_eq_some_iff.mp hrun
    rw [SavedSession.meetsAll, hstep, Bool.and_eq_true, all_some] at hmeets
    exact ih (h.step hstore hmeets.1 hstep) hmeets.2 hrun

end

theorem new (sessionId : SessionId) (agentSessionId : AgentSessionId)
    (config : LoopDetectionConfig) :
    (SavedSession.new sessionId agentSessionId config).Consistent :=
  ⟨(AgentRuntime.new_replayable sessionId agentSessionId config).recorded, fun _ => rfl⟩

end SavedSession.Consistent

/-! ### Forks -/

/-- A mirrored window lies inside the transcript, so that a fork can be seeded. -/
theorem seedRuntimeSessionEvents_ok
    (h : Mirrors session events) (sessionId : SessionId) (agentSessionId : AgentSessionId) :
    ∃ seed, seedRuntimeSessionEvents (forkRuntimeSession session sessionId agentSessionId) =
      .ok seed := by
  have hwindow := h.window
  unfold WindowMirrors at hwindow
  unfold seedRuntimeSessionEvents forkRuntimeSession
  generalize latestCompactionCheckpoint events = latest at hwindow
  rcases latest with e | _ | checkpoint
  · exact hwindow.elim
  · simp only [hwindow]
    exact ⟨_, rfl⟩
  · obtain ⟨-, k, hk⟩ := hwindow
    have hget : ∀ i, i < session.ids.length → ∃ m, session.transcript[i]? = some m := by
      intro i hi
      rw [RuntimeSession.ids, List.length_map] at hi
      exact ⟨_, List.getElem?_eq_getElem hi⟩
    have hlt : k < session.ids.length := (getElem?_eq_some_iff.mp hk.summary).1
    obtain ⟨summary, hs⟩ := hget k hlt
    simp only [hk.index, hs]
    refine (except_mapM_ok session.retainedTailIndices fun i hi => ?_).elim fun ids hids =>
      ⟨_, except_bind_eq_ok.mpr ⟨ids, hids, rfl⟩⟩
    obtain ⟨m, hm⟩ := hget i ((hk.tail_lt i hi).trans hlt)
    exact ⟨m.messageId, by rw [hm]⟩

/-- **Resume and fork restore what was shown last** if the resumes meet the condition. -/
theorem resume_and_fork_restore_latest {env : Env}
    (hstore : ∀ now envelope, env.store now envelope = .ok ()) {sessionId : SessionId}
    {agentSessionId : AgentSessionId} {config : LoopDetectionConfig}
    {steps : List SessionStep} {s : SavedSession}
    (hrun : (SavedSession.new sessionId agentSessionId config).run env steps = some s)
    (hmeets : (SavedSession.new sessionId agentSessionId config).meetsAll env steps = true)
    (hn : (loggedIds s.rt.log).Nodup) (hlog : s.rt.log ≠ [])
    (fresh : AgentSessionId) (hresume : (SessionStep.resume fresh).meets s = true)
    (forkSessionId : SessionId) (forkAgentSessionId : AgentSessionId) :
    (∃ session, loadRuntimeSessionForRootAgent s.rt.log sessionId fresh = .ok session ∧
      session.visibleTranscript = s.latest) ∧
    ∃ forked seed, forkPersistedSession s.rt.log sessionId fresh forkSessionId
        forkAgentSessionId = .ok (forked, seed) ∧
      forked.visibleTranscript = s.latest := by
  have h := (SavedSession.Consistent.new sessionId agentSessionId config).run hstore hmeets hrun
  obtain ⟨first, rest, hfirst⟩ := List.exists_cons_of_ne_nil hlog
  have hroot : (agentSessionIds s.rt.log).head? = some first.agentSessionId := by
    rw [head?_agentSessionIds, hfirst]
    rfl
  simp only [SessionStep.meets, hroot, all_some, Bool.and_eq_true] at hresume
  have hm : Mirrors s.rt.session s.rt.log := h.recorded hn
  obtain ⟨loaded, hload⟩ := load_succeeds fresh hm hn
    ⟨first, by rw [hfirst]; simp, rfl⟩ hresume.1 hresume.2
  obtain ⟨hvisible, hmirrors⟩ := load_restores hm hn hresume.1 hresume.2 hload
  rw [← loadRuntimeSessionForRootAgent_eq sessionId hroot] at hload
  have hshown := hvisible.trans (h.visible hn)
  refine ⟨⟨loaded, hload, hshown⟩, ?_⟩
  obtain ⟨seed, hseed⟩ := seedRuntimeSessionEvents_ok hmirrors forkSessionId forkAgentSessionId
  exact ⟨_, seed, except_bind_eq_ok.mpr ⟨loaded, hload, except_bind_eq_ok.mpr ⟨seed, hseed, rfl⟩⟩,
    hshown⟩

def freshSession : SavedSession :=
  SavedSession.new ⟨"s"⟩ ⟨"a"⟩ {}

/-- Two request rounds and a compaction. -/
def compactAndLeave : List SessionStep :=
  (twoCompactions.take 5).map .op ++ [.leave (some "exit")]

/-- A compaction that nothing follows is restored, by a resume and by a fork. -/
theorem compacted_session_restored :
    ∃ s, freshSession.run quietEnv compactAndLeave = some s ∧ s.latest ≠ [] ∧
      (∃ session, loadRuntimeSessionForRootAgent s.rt.log ⟨"s"⟩ ⟨"b"⟩ = .ok session ∧
        session.visibleTranscript = s.latest) ∧
      ∃ forked seed, forkPersistedSession s.rt.log ⟨"s"⟩ ⟨"b"⟩ ⟨"f"⟩ ⟨"fa"⟩ =
          .ok (forked, seed) ∧ forked.visibleTranscript = s.latest := by
  have hmeets : freshSession.meetsAll quietEnv compactAndLeave = true := by decide +kernel
  have hcheck : (freshSession.run quietEnv compactAndLeave).any (fun s =>
      decide (loggedIds s.rt.log).Nodup && !s.rt.log.isEmpty && !s.latest.isEmpty &&
        (SessionStep.resume ⟨"b"⟩).meets s) = true := by
    decide +kernel
  obtain ⟨s, hs, hcheck⟩ := (any_eq_true _ _).mp hcheck
  rw [Bool.and_eq_true, Bool.and_eq_true, Bool.and_eq_true, decide_eq_true_eq] at hcheck
  obtain ⟨⟨⟨hn, hlog⟩, hlatest⟩, hresume⟩ := hcheck
  exact ⟨s, hs, by simpa using hlatest, resume_and_fork_restore_latest (fun _ _ => rfl) hs hmeets
    hn (by simpa using hlog) ⟨"b"⟩ hresume ⟨"f"⟩ ⟨"fa"⟩⟩

/-- A request round after the compaction. -/
def talkAfterCompaction : List SessionStep :=
  (twoCompactions.take 7).map .op ++ [.leave (some "exit")]

/-- What is said after a compaction is lost by a resume. -/
theorem resume_loses_rounds_after_compaction :
    ∃ s, freshSession.run quietEnv talkAfterCompaction = some s ∧ (loggedIds s.rt.log).Nodup ∧
      ¬ ∃ session, loadRuntimeSessionForRootAgent s.rt.log ⟨"s"⟩ ⟨"b"⟩ = .ok session ∧
        session.visibleTranscript = s.latest := by
  have hcheck : (freshSession.run quietEnv talkAfterCompaction).any (fun s =>
      decide (loggedIds s.rt.log).Nodup &&
      !decide ((loadRuntimeSessionForRootAgent s.rt.log ⟨"s"⟩ ⟨"b"⟩).toOption.map
          (fun session => session.visibleTranscript.map Message.messageId) =
        some (s.latest.map Message.messageId))) = true := by
    decide +kernel
  obtain ⟨s, hs, hcheck⟩ := (any_eq_true _ _).mp hcheck
  rw [Bool.and_eq_true, decide_eq_true_eq] at hcheck
  refine ⟨s, hs, hcheck.1, ?_⟩
  rintro ⟨session, hload, hvisible⟩
  rw [hload, ← hvisible] at hcheck
  simp [Except.toOption] at hcheck

end Nanoclaw
