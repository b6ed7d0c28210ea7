import Nanoclaw.Runtime.Compaction

/-!
# Methods Move by Changes

`Moves env A m Q`: from any run of allowed changes the method `m` continues the run, it exits in a
run that is at most interrupted in its last change, and `Q` holds of the value it returns. This
module proves it for the methods of the runtime up to compaction, so that every later invariant
is an invariant of changes. `Env.Respects A` restricts the changes that hooks may cause.
-/

namespace Nanoclaw

open List Option Proc

/-- Allowed changes led from `start` to this state, whose clock is at `since` or later. -/
structure Reached (A : Allowed) (start : Core) (since : ℕ) (rt : AgentRuntime) : Prop where
  steps : Steps A start rt.core
  clock : since ≤ rt.clock

/-- Allowed changes led from `start` to this state, the last one perhaps interrupted. -/
structure Left (env : Env) (A : Allowed) (start : Core) (since : ℕ) (rt : AgentRuntime) : Prop where
  aborts : Aborts A env.Rejects start rt.core
  clock : since ≤ rt.clock

variable {since : ℕ} {start : Core} {event : SessionEventKind} {env : Env}

section Reached

variable {A : Allowed} {rt rt' : AgentRuntime}

theorem Reached.refl (rt : AgentRuntime) : Reached A rt.core rt.clock rt :=
  ⟨.refl, le_rfl⟩

theorem Reached.of_eq (h : rt' = rt) : Reached A rt.core rt.clock rt' :=
  h ▸ .refl rt'

section

variable (h : Reached A start since rt)

include h

theorem Reached.left : Left env A start since rt :=
  ⟨h.steps.aborts, h.clock⟩

theorem Reached.same (hcore : rt'.core = rt.core) (hclock : rt.clock ≤ rt'.clock) :
    Reached A start since rt' :=
  ⟨hcore ▸ h.steps, h.clock.trans hclock⟩

theorem Reached.change (change : Change) (ha : A rt.core change) (hv : change.Valid rt.core)
    (hcore : rt'.core = change.apply rt.core) (hclock : rt.clock ≤ rt'.clock) :
    Reached A start since rt' :=
  ⟨hcore ▸ h.steps.change ha hv, h.clock.trans hclock⟩

theorem Reached.interrupted (change : Change) (ha : A rt.core change) (hv : change.Valid rt.core)
    (hr : env.Rejects event) (hi : change.Interrupted rt.core event rt'.core)
    (hclock : rt.clock ≤ rt'.clock) : Left env A start since rt' :=
  ⟨h.steps.interrupted ha hv hr hi, h.clock.trans hclock⟩

theorem Reached.trans (h' : Reached A rt.core rt.clock rt') : Reached A start since rt' :=
  ⟨.trans h.steps h'.steps, h.clock.trans h'.clock⟩

end

theorem Env.not_rejects (hstore : ∀ now envelope, env.store now envelope = .ok ())
    (event : SessionEventKind) : ¬ env.Rejects event := by
  rintro ⟨now, envelope, e, -, he⟩
  rw [hstore] at he
  cases he

theorem Left.reached (h : Left env A start since rt)
    (hstore : ∀ now envelope, env.store now envelope = .ok ()) : Reached A start since rt :=
  ⟨h.aborts.steps (Env.not_rejects hstore), h.clock⟩

theorem Reached.trans_left (h : Reached A start since rt)
    (h' : Left env A rt.core rt.clock rt') : Left env A start since rt' := by
  obtain ⟨⟨middle, hsteps, hlast⟩, hclock⟩ := h'
  exact ⟨⟨middle, h.steps.trans hsteps, hlast⟩, h.clock.trans hclock⟩

end Reached

/-- A method continues the runs of changes from one state. -/
def MovesFrom {α : Type} (env : Env) (A : Allowed) (start : Core) (since : ℕ) (m : RuntimeM α)
    (Q : α → Prop) : Prop :=
  Triple (Reached A start since) m (fun a rt => Q a ∧ Reached A start since rt)
    fun _ => Left env A start since

variable {A : Allowed}

theorem MovesFrom.bind {α β : Type} {Q : α → Prop}
    {R : β → Prop} {m : RuntimeM β} {f : β → RuntimeM α} (hm : MovesFrom env A start since m R)
    (hf : ∀ b, R b → MovesFrom env A start since (f b) Q) :
    MovesFrom env A start since (m >>= f) Q :=
  Triple.bind hm fun b s hs => hf b hs.1 s hs.2

/-- **A method moves by changes**: see the module header. -/
def Moves {α : Type} (env : Env) (A : Allowed) (m : RuntimeM α) (Q : α → Prop) : Prop :=
  ∀ start since, MovesFrom env A start since m Q

namespace Moves

variable {α β : Type} {Q : α → Prop} {R : β → Prop} {a : α} {f : β → RuntimeM α} {γ : Type}

theorem pure (h : Q a) : Moves env A (Pure.pure a) Q := fun _ _ =>
  .pure fun _ hs => ⟨h, hs⟩

variable (e : RuntimeError) (xs : List γ)

theorem throw : Moves env A (MonadExcept.throw e : RuntimeM α) Q :=
  fun _ _ => .throw fun _ hs => hs.left

theorem bind {m : RuntimeM β} (hm : Moves env A m R) (hf : ∀ b, R b → Moves env A (f b) Q) :
    Moves env A (m >>= f) Q := fun start since =>
  (hm start since).bind fun b hb => hf b hb start since

theorem throw_bind : Moves env A ((MonadExcept.throw e : RuntimeM β) >>= f) Q :=
  bind (throw (Q := fun _ => False) e) fun _ h => h.elim

variable {m : RuntimeM α}

theorem weaken {Q' : α → Prop} (hm : Moves env A m Q') (h : ∀ a, Q' a → Q a) :
    Moves env A m Q := fun start since =>
  (hm start since).result fun a _ hs => ⟨h a hs.1, hs.2⟩

theorem forM {f : γ → RuntimeM PUnit} (hf : ∀ x ∈ xs, Moves env A (f x) fun _ => True) :
    Moves env A (xs.forM f) fun _ => True := by
  induction xs with
  | nil => exact pure trivial
  | cons x xs ih =>
    obtain ⟨hx, hxs⟩ := forall_mem_cons.mp hf
    exact bind hx fun _ _ => ih hxs

theorem foldlM {f : α → γ → RuntimeM α} (hf : ∀ a, ∀ x ∈ xs, Q a → Moves env A (f a x) Q)
    (ha : Q a) : Moves env A (xs.foldlM f a) Q := by
  induction xs generalizing a with
  | nil => exact pure ha
  | cons x xs ih =>
    refine bind (hf a x (by simp) ha) fun b hb => ?_
    exact ih (fun b y hy => hf b y (by simp [hy])) hb

/-- A program that leaves the session and its log alone moves by no change. -/
theorem of_core (h : ∀ rt, (m.exec rt).2.core = rt.core)
    (hclock : ∀ rt, rt.clock ≤ (m.exec rt).2.clock) : Moves env A m fun _ => True := by
  intro start since rt hs
  have hsame := hs.same (h rt) (hclock rt)
  rcases hm : m.exec rt with ⟨e | a, rt'⟩ <;> rw [hm] at hsame
  · exact hsame.left
  · exact ⟨trivial, hsame⟩

/-- **Invariants of methods**: what every allowed change preserves, interrupted or not. -/
theorem invariant (hm : Moves env A m Q) {I : Core → Prop}
    (hstep : ∀ core change, A core change → Change.Valid core change → I core →
      I (change.apply core))
    (hint : ∀ core change event core', A core change → Change.Valid core change →
      env.Rejects event → I core → change.Interrupted core event core' → I core') :
    Triple (fun rt => I rt.core) m (fun a rt => Q a ∧ I rt.core) (fun _ rt => I rt.core) := by
  intro rt hI
  have hrun := hm rt.core rt.clock rt (.refl rt)
  rcases hexec : m.exec rt with ⟨e | a, rt'⟩ <;> rw [hexec] at hrun
  · exact hrun.aborts.invariant hstep hint hI
  · exact ⟨hrun.1, hrun.2.steps.invariant hstep hI⟩

/-- If all events are accepted, a method moves by whole changes, to any exit. -/
theorem reaches (hm : Moves env A m Q) (hstore : ∀ now envelope, env.store now envelope = .ok ())
    (rt : AgentRuntime) :
    Triple (fun s => s = rt) m (fun a s => Q a ∧ Reached A rt.core rt.clock s)
      fun _ s => Reached A rt.core rt.clock s :=
  ((hm rt.core rt.clock).pre fun _ => .of_eq).exits fun _ _ h => h.reached hstore

/-- Reading the state binds its value; the rest is a move from that state. -/
theorem get_bind {f : AgentRuntime → RuntimeM α} (hf : ∀ rt start since, Reached A start since rt →
      Triple (fun s => s = rt) (f rt) (fun a s => Q a ∧ Reached A start since s)
        fun _ => Left env A start since) : Moves env A (MonadState.get >>= f) Q :=
  fun start since => .get_bind fun rt hs => hf rt start since hs

theorem from_state (hm : Moves env A m Q) {rt : AgentRuntime} (hs : Reached A start since rt) :
    Triple (fun s => s = rt) m (fun a s => Q a ∧ Reached A start since s)
      fun _ => Left env A start since :=
  (hm start since).at_state hs

theorem read {f : AgentRuntime → RuntimeM α} (hf : ∀ rt, Moves env A (f rt) Q) :
    Moves env A (MonadState.get >>= f) Q :=
  get_bind fun rt _ _ hs => from_state (hf rt) hs

end Moves

/-! ### Primitive operations -/

variable {turnId : TurnId} {message : Message} {toolCallId : Option ToolCallId} {α : Type}

section Primitives

theorem exec_appendEvent (turnId : Option TurnId) (toolCallId : Option ToolCallId)
    (event : SessionEventKind) (rt : AgentRuntime) :
    (appendEvent env turnId toolCallId event).exec rt =
      match env.store rt.clock (rt.core.envelope turnId toolCallId event) with
      | .ok _ => (.ok (), { rt with
          clock := rt.clock + 1
          log := rt.log ++ [rt.core.envelope turnId toolCallId event] })
      | .error e => (.error e, { rt with clock := rt.clock + 1 }) := by
  simp only [appendEvent, storeAppend, tick, exec_bind, exec_get, exec_modify, exec_pure,
    Core.envelope, AgentRuntime.core]
  generalize env.store rt.clock _ = response
  cases response <;> rfl

/-- Logging either appends the event or exits with the log as before. -/
theorem appendEvent_triple {P : AgentRuntime → Prop} {Q : Unit → AgentRuntime → Prop}
    {E : RuntimeError → AgentRuntime → Prop} {turnId : Option TurnId}
    (hok : ∀ rt, P rt → Q () { rt with
      clock := rt.clock + 1
      log := rt.log ++ [rt.core.envelope turnId toolCallId event] })
    (herror : ∀ rt e, P rt → E e { rt with clock := rt.clock + 1 }) :
    Triple P (appendEvent env turnId toolCallId event) Q E := by
  intro rt hrt
  rw [exec_appendEvent]
  generalize env.store rt.clock _ = response
  cases response with
  | ok _ => exact hok rt hrt
  | error e => exact herror rt e hrt

theorem tick_moves : Moves env A tick fun _ => True :=
  .of_core (fun _ => rfl) fun rt => rt.clock.le_succ

theorem note_moves (interaction : Interaction) : Moves env A (note interaction) fun _ => True :=
  .of_core (fun _ => rfl) fun _ => le_rfl

theorem answer_moves (response : Except RuntimeError α) :
    Moves env A (answer response) fun a => response = .ok a := by
  cases response with
  | ok a => exact .pure rfl
  | error e => exact .throw e

theorem onEvent_moves (event : RuntimeProgressEvent) :
    Moves env A (onEvent env event) fun _ => True :=
  tick_moves.bind fun _ _ => (answer_moves _).weaken fun _ _ => trivial

theorem freshMessageId_moves :
    Moves env A (freshMessageId env) fun id => ∃ now, id = env.freshMessageId now :=
  tick_moves.bind fun now _ => .pure ⟨now, rfl⟩

theorem freshTurnId_moves : Moves env A (freshTurnId env) fun _ => True :=
  tick_moves.bind fun _ _ => .pure trivial

theorem runHooks_moves (event : HookEvent) (turnId : Option TurnId)
    (fields : List (String × String)) (payload : HookPayload) :
    Moves env A (runHooks env event turnId fields payload)
      fun batch => ∃ now context, env.runHooks now context = .ok batch := by
  refine .read fun rt => ?_
  refine tick_moves.bind fun now _ => (answer_moves _).bind fun batch hbatch => ?_
  exact (note_moves _).bind fun _ _ => .pure ⟨now, _, hbatch⟩

theorem appendEvent_moves {turnId : Option TurnId}
    (hA : ∀ core, A core (.log turnId toolCallId event))
    (hevent : event.isTranscriptEvent = false) :
    Moves env A (appendEvent env turnId toolCallId event) fun _ => True := fun _ _ =>
  appendEvent_triple
    (fun rt hs => ⟨trivial, hs.change (.log turnId toolCallId event) (hA _) hevent rfl
      rt.clock.le_succ⟩)
    fun rt _ hs => ⟨hs.steps.aborts, hs.clock.trans rt.clock.le_succ⟩

@[simp] theorem exec_modifySession (f : RuntimeSession → RuntimeSession) (rt : AgentRuntime) :
    (modifySession f).exec rt = (.ok (), { rt with session := f rt.session }) := rfl

theorem appendTranscriptMessage_moves (hA : ∀ core, A core (.push turnId message)) :
    Moves env A (appendTranscriptMessage env turnId message) fun _ => True := by
  intro start since rt hs
  unfold appendTranscriptMessage
  rw [exec_bind, exec_modifySession]
  simp only [exec_appendEvent]
  generalize hstore : env.store _ _ = response
  cases response with
  | ok _ => exact ⟨trivial, hs.change (.push turnId message) (hA _) trivial rfl rt.clock.le_succ⟩
  | error e =>
    exact hs.interrupted (.push turnId message) (hA _) trivial ⟨_, _, _, rfl, hstore⟩ .push
      rt.clock.le_succ

theorem resetProviderContinuation_moves (hA : ∀ core, A core .reset) :
    Moves env A resetProviderContinuation fun _ => True := fun _ _ =>
  .modify fun _ hs => ⟨trivial, hs.change .reset (hA _) trivial rfl le_rfl⟩

end Primitives

/-! ### Edits of the transcript -/

variable {target : TranscriptMutationTarget} {session : RuntimeSession} {index : ℕ}
  {messageId : MessageId}

/-- A resolved target is visible and carries the identifier it was resolved to. -/
theorem resolveMutableTranscriptTarget_ok
    (h : resolveMutableTranscriptTarget session target = .ok (index, messageId)) :
    index ∈ session.visibleMessageIndices ∧ session.ids[index]? = some messageId := by
  cases target with
  | messageId id =>
    simp only [resolveMutableTranscriptTarget] at h
    split at h
    next i hi =>
      cases h
      refine ⟨mem_of_find?_eq_some hi, ?_⟩
      have hany := find?_some hi
      obtain ⟨m, hm, hid⟩ := (any_eq_true _ _).mp hany
      rw [RuntimeSession.ids, getElem?_map, hm, map_some, of_decide_eq_true hid]
    · cases h
  | lastOfRole role =>
    simp only [resolveMutableTranscriptTarget] at h
    split at h
    next i hi =>
      split at h
      next m hm =>
        cases h
        refine ⟨mem_reverse.mp (mem_of_find?_eq_some hi), ?_⟩
        rw [RuntimeSession.ids, getElem?_map, hm, map_some]
      · cases h
    · cases h

theorem notMem_removed_of_visible (hv : index ∈ session.visibleMessageIndices)
    (hid : session.ids[index]? = some messageId) : messageId ∉ session.removedMessageIds := by
  obtain ⟨m, hm, hs⟩ := RuntimeSession.mem_visibleMessageIndices hv
  rw [RuntimeSession.ids, getElem?_map, hm] at hid
  cases hid
  exact of_decide_eq_true hs

section Edits

/-- An edit of the message that its target is resolved to. -/
theorem edit_moves (turnId : TurnId) {body : AgentRuntime → ℕ × MessageId → RuntimeM Unit}
    (h : ∀ rt index id, index ∈ rt.session.visibleMessageIndices →
      rt.session.ids[index]? = some id → ∃ change f event, A rt.core change ∧
        change.Valid rt.core ∧ change.Interrupted rt.core event (rt.core.mapSession f) ∧
        change.apply rt.core = ((rt.core.mapSession f).append (some turnId) none event).mapSession
          RuntimeSession.clearContinuation ∧
        body rt (index, id) = do
          modifySession f
          appendEvent env (some turnId) none event
          resetProviderContinuation) :
    Moves env A (do
      let rt ← get
      let resolved ← answer (resolveMutableTranscriptTarget rt.session target)
      body rt resolved) fun _ => True := by
  refine .get_bind fun rt start since hs => ?_
  cases hres : resolveMutableTranscriptTarget rt.session target with
  | error e => exact (Moves.throw_bind e).from_state hs
  | ok p =>
    obtain ⟨hv, hid⟩ := resolveMutableTranscriptTarget_ok hres
    obtain ⟨change, f, event, ha, hvalid, hint, happly, hbody⟩ := h rt p.1 p.2 hv hid
    rintro s rfl
    simp only [answer, pure_bind, hbody, exec_bind, exec_modifySession, exec_appendEvent]
    generalize hstore : env.store _ _ = response
    cases response with
    | ok _ => exact ⟨trivial, hs.change change ha hvalid happly.symm s.clock.le_succ⟩
    | error e => exact hs.interrupted change ha hvalid ⟨_, _, _, rfl, hstore⟩ hint s.clock.le_succ

theorem applyTranscriptMessageReplacement_moves
    (hA : ∀ core index id, core.session.ids[index]? = some id →
      A core (.edit turnId index (message.withMessageId id))) :
    Moves env A (applyTranscriptMessageReplacement env turnId target message) fun _ => True := by
  refine edit_moves turnId fun rt index id hv hid => ?_
  -- The target is visible, so taking it out of the removed messages does nothing.
  have herase : rt.core.session.removedMessageIds.erase id = rt.core.session.removedMessageIds :=
    Finset.erase_eq_of_notMem (notMem_removed_of_visible hv hid)
  refine ⟨.edit turnId index (message.withMessageId id), _, _, hA _ _ _ hid, ⟨hv, hid⟩, ?_, ?_, rfl⟩
  all_goals simp only [Core.mapSession, herase]
  · exact .edit
  · rfl

theorem applyTranscriptMessagePatch_moves {patch : MessagePatch}
    (hA : ∀ core index old, core.session.transcript[index]? = some old →
      A core (.edit turnId index (applyPatch old patch))) :
    Moves env A (applyTranscriptMessagePatch env turnId target patch) fun _ => True := by
  refine edit_moves turnId fun rt index id hv hid => ?_
  obtain ⟨old, hold, -⟩ := RuntimeSession.mem_visibleMessageIndices hv
  obtain rfl : old.messageId = id := by
    rw [RuntimeSession.ids, getElem?_map, hold] at hid
    exact Option.some.inj hid
  refine ⟨.edit turnId index (applyPatch old patch), _, _, hA _ _ _ hold, ⟨hv, hid⟩, .edit, rfl, ?_⟩
  dsimp only
  rw [hold]
  rfl

theorem applyTranscriptMessageRemoval_moves (hA : ∀ core id, A core (.remove turnId [id])) :
    Moves env A (applyTranscriptMessageRemoval env turnId target) fun _ => True := by
  refine edit_moves turnId fun rt index id hv hid => ⟨.remove turnId ([] ++ [id]), _, _, hA _ _,
    fun id' hid' => ?_, .remove, rfl, rfl⟩
  cases mem_singleton.mp hid'
  rw [RuntimeSession.ids, getElem?_map, map_eq_some_iff] at hid
  obtain ⟨m, hm, rfl⟩ := hid
  exact mem_map_of_mem (mem_filterMap.mpr ⟨index, hv, hm⟩)

end Edits

/-! ### What hooks may ask for -/

/-- The message may be appended in any state. -/
def Pushable (A : Allowed) (message : Message) : Prop :=
  ∀ core turnId, A core (.push turnId message)

theorem pushable_none : ∀ m ∈ (none : Option Message), Pushable A m :=
  nofun

/-- The edit is allowed on whatever message its target resolves to. -/
def MutationAllowed (A : Allowed) : TranscriptMutation → Prop
  | .replace _ message => ∀ core turnId index id, A core (.edit turnId index
      (message.withMessageId id))
  | .patch _ patch => ∀ core turnId index old, core.session.transcript[index]? = some old →
      A core (.edit turnId index (applyPatch old patch))
  | .remove _ => ∀ core turnId id, A core (.remove turnId [id])

/-- The effect only leads to allowed changes. -/
def EffectAllowed (A : Allowed) : HookEffect → Prop
  | .appendMessage role parts => ∀ freshId, Pushable A (Message.new role parts freshId)
  | .replaceMessage .current message => Pushable A message
  | .replaceMessage _ message => ∀ target, MutationAllowed A (.replace target message)
  | .patchMessage .current patch => ∀ message, Pushable A message →
      Pushable A (applyPatch message patch)
  | .patchMessage _ patch => ∀ target, MutationAllowed A (.patch target patch)
  | .removeMessage .current => True
  | .removeMessage _ => ∀ target, MutationAllowed A (.remove target)
  | _ => True

def BatchAllowed (A : Allowed) (batch : HookInvocationBatch) : Prop :=
  ∀ invocation ∈ batch, ∀ effect ∈ invocation.effects, EffectAllowed A effect

/-- The folded effects only lead to allowed changes. -/
structure AppliedAllowed (A : Allowed) (applied : AppliedHookEffects) : Prop where
  appended : ∀ m ∈ applied.appendedMessages, Pushable A m
  mutations : ∀ m ∈ applied.transcriptMutations, MutationAllowed A m
  current : ∀ m ∈ applied.currentMessage, Pushable A m

/-- The hooks of the environment only ask for allowed changes. -/
structure Env.Respects (env : Env) (A : Allowed) : Prop where
  hooks : ∀ now context batch, env.runHooks now context = .ok batch → BatchAllowed A batch
  async : ∀ now, BatchAllowed A (env.drainAsyncInvocations now)

/-- All edits a hook can ask for are allowed. -/
structure AllowsEdits (A : Allowed) : Prop where
  push : ∀ core turnId message, A core (.push turnId message)
  edit : ∀ core turnId index message, A core (.edit turnId index message)
  remove : ∀ core turnId messageIds, A core (.remove turnId messageIds)

theorem AllowsEdits.effectAllowed (h : AllowsEdits A) (effect : HookEffect) :
    EffectAllowed A effect := by
  cases effect with
  | appendMessage role parts => exact fun _ core turnId => h.push core turnId _
  | replaceMessage selector message =>
    cases selector with
    | current => exact fun core turnId => h.push core turnId _
    | _ => exact fun _ core turnId index _ => h.edit core turnId index _
  | patchMessage selector patch =>
    cases selector with
    | current => exact fun _ _ core turnId => h.push core turnId _
    | _ => exact fun _ core turnId index _ _ => h.edit core turnId index _
  | removeMessage selector =>
    cases selector with
    | current => trivial
    | _ => exact fun _ core turnId _ => h.remove core turnId _
  | _ => trivial

theorem AllowsEdits.batchAllowed (h : AllowsEdits A) (batch : HookInvocationBatch) :
    BatchAllowed A batch :=
  fun _ _ effect _ => h.effectAllowed effect

theorem AllowsEdits.respects (h : AllowsEdits A) (env : Env) : env.Respects A :=
  ⟨fun _ _ batch _ => h.batchAllowed batch, fun _ => h.batchAllowed _⟩

/-- The runtime may log events, steer, and drop the continuation. -/
structure Internal (A : Allowed) : Prop where
  log : ∀ core turnId toolCallId event, event.isPlain = true →
    A core (.log turnId toolCallId event)
  reset : ∀ core, A core .reset
  system : ∀ text id, Pushable A (Message.system text id)

/-- The runtime may also count tokens and change its agent session. -/
structure Rotating (A : Allowed) : Prop extends Internal A where
  usage : ∀ core turnId step, A core (.usage turnId step)
  start : ∀ core, A core .start
  rotate : ∀ core agentSessionId, A core (.rotate agentSessionId)

/-- A compaction may commit a tail that was chosen in the state `start`. -/
def Commits (A : Allowed) (start : Core) : Prop :=
  ∀ core preserve splitAt turnId reason count summary id, Steps A start core →
    selectCompactionSplitIndex start.session.visibleTranscript preserve = some splitAt →
    A core (.commit turnId reason count summary id
      (start.session.visibleMessageIndices.drop splitAt))

/-- The runtime may also compact, whichever state the tail was chosen in. -/
structure Compacting (A : Allowed) : Prop extends Rotating A where
  commits : ∀ start, Commits A start

/-- Every change is allowed, but only certain events are logged by themselves. -/
def Logging (P : SessionEventKind → Prop) : Allowed
  | _, .log _ _ event => P event
  | _, _ => True

section

variable {P : SessionEventKind → Prop}

theorem logging_compacting (hP : ∀ event, event.isPlain = true → P event) :
    Compacting (Logging P) where
  log _ _ _ event := hP event
  reset _ := trivial
  system _ _ _ _ := trivial
  usage _ _ _ := trivial
  start _ := trivial
  rotate _ _ := trivial
  commits _ _ _ _ _ _ _ _ _ _ _ := trivial

theorem logging_allowsEdits : AllowsEdits (Logging P) :=
  ⟨fun _ _ _ => trivial, fun _ _ _ _ => trivial, fun _ _ _ => trivial⟩

end

/-- Every change is allowed. -/
abbrev Anything : Allowed := Logging fun _ => True

theorem anything_compacting : Compacting Anything :=
  logging_compacting fun _ _ => trivial

theorem Internal.logs {turnId : Option TurnId} (hA : Internal A)
    (hevent : event.isPlain = true) :
    Moves env A (appendEvent env turnId toolCallId event) fun _ => True :=
  appendEvent_moves (fun _ => hA.log _ _ _ _ hevent) (event.isTranscriptEvent_of_isPlain hevent)

variable {applied applied' : AppliedHookEffects} {registration : HookRegistration}
  {mutation : TranscriptMutation}

/-- Folding an effect other than a message effect keeps the message fields. -/
theorem AppliedAllowed.congr (h : AppliedAllowed A applied)
    (happ : applied'.appendedMessages = applied.appendedMessages)
    (hmut : applied'.transcriptMutations = applied.transcriptMutations)
    (hcur : applied'.currentMessage = applied.currentMessage) : AppliedAllowed A applied' :=
  ⟨happ ▸ h.appended, hmut ▸ h.mutations, hcur ▸ h.current⟩

theorem AppliedAllowed.queue (h : AppliedAllowed A applied)
    (hmutation : MutationAllowed A mutation) : AppliedAllowed A
      { applied with transcriptMutations := applied.transcriptMutations ++ [mutation] } :=
  ⟨h.appended, forall_mem_append.mpr ⟨h.mutations, forall_mem_singleton.mpr hmutation⟩, h.current⟩

/-- **Folding keeps allowed effects allowed.** -/
theorem AppliedAllowed.applyHookEffect {currentToolName : Option ToolName} {freshId : MessageId}
    {effect : HookEffect} (h : AppliedAllowed A applied) (heffect : EffectAllowed A effect)
    (happ : applyHookEffect applied registration currentToolName freshId effect = .ok applied') :
    AppliedAllowed A applied' := by
  obtain ⟨_, -, happ⟩ := except_bind_eq_ok.mp happ
  cases effect with
  | appendMessage role parts =>
    cases happ
    exact ⟨forall_mem_append.mpr ⟨h.appended, forall_mem_singleton.mpr (heffect freshId)⟩,
      h.mutations, h.current⟩
  | replaceMessage selector message =>
    cases selector with
    | current =>
      cases happ
      exact ⟨h.appended, h.mutations, fun m hm => by cases hm; exact heffect⟩
    | messageId | lastOfRole =>
      cases happ
      exact h.queue (heffect _)
  | patchMessage selector patch =>
    cases selector with
    | current =>
      simp only [AppliedHookEffects.applyMessagePatch] at happ
      split at happ
      · cases happ
      next m hm =>
        cases happ
        refine ⟨h.appended, h.mutations, fun m' hm' => ?_⟩
        cases hm'
        exact heffect m (h.current m hm)
    | messageId | lastOfRole =>
      cases happ
      exact h.queue (heffect _)
  | removeMessage selector =>
    cases selector with
    | current =>
      cases happ
      exact ⟨h.appended, h.mutations, nofun⟩
    | messageId | lastOfRole =>
      cases happ
      exact h.queue (heffect _)
  | rewriteToolArgs toolName arguments =>
    dsimp only at happ
    split at happ
    · cases happ
    · split at happ <;> cases happ <;> exact h.congr rfl rfl rfl
  | showToast variant message =>
    obtain ⟨_, -, happ⟩ := except_bind_eq_ok.mp happ
    obtain ⟨_, -, happ⟩ := except_bind_eq_ok.mp happ
    cases happ
    exact h.congr rfl rfl rfl
  | appendPrompt text onlyWhenEmpty =>
    obtain ⟨_, -, happ⟩ := except_bind_eq_ok.mp happ
    cases happ
    exact h.congr rfl rfl rfl
  | _ =>
    cases happ
    exact h.congr rfl rfl rfl

/-! ### Hook effects -/

variable {currentMessage : Option Message} {toolName : Option ToolName}

section Hooks

theorem applyTranscriptMutation_moves (hm : MutationAllowed A mutation) :
    Moves env A (applyTranscriptMutation env turnId mutation) fun _ => True := by
  cases mutation with
  | replace target message =>
    exact applyTranscriptMessageReplacement_moves fun core index id _ =>
      hm core turnId index id
  | patch target patch =>
    exact applyTranscriptMessagePatch_moves fun core index old hold =>
      hm core turnId index old hold
  | remove target => exact applyTranscriptMessageRemoval_moves fun core => hm core turnId

theorem applyEffects_moves {effects : List HookEffect}
    (heffects : ∀ effect ∈ effects, EffectAllowed A effect) (happ : AppliedAllowed A applied) :
    Moves env A (applyEffects env registration toolName applied effects) (AppliedAllowed A) :=
  .foldlM effects (fun _ effect he ha => (freshMessageId_moves).bind fun _ _ =>
    (answer_moves _).weaken fun _ hok => ha.applyHookEffect (heffects effect he) hok) happ

variable (hA : Internal A) {batch : HookInvocationBatch}

include hA

theorem applyInvocation_moves {invocation : HookInvocation}
    (heffects : ∀ effect ∈ invocation.effects, EffectAllowed A effect)
    (happ : AppliedAllowed A applied) :
    Moves env A (applyInvocation env turnId toolName applied invocation) (AppliedAllowed A) :=
  (hA.logs rfl).bind fun _ _ =>
    (applyEffects_moves heffects happ).bind fun _ happ' =>
      (hA.logs rfl).bind fun _ _ => .pure happ'

/-- **A batch of allowed effects moves by allowed changes.** -/
theorem applyHookEffects_moves (hbatch : BatchAllowed A batch)
    (hcurrent : ∀ m ∈ currentMessage, Pushable A m) :
    Moves env A (applyHookEffects env turnId batch currentMessage toolName) (AppliedAllowed A) := by
  have hinit : AppliedAllowed A { currentMessage } := ⟨forall_mem_nil _, forall_mem_nil _, hcurrent⟩
  refine (Moves.foldlM batch (fun _ invocation hi ha =>
    applyInvocation_moves hA (hbatch invocation hi) ha) hinit).bind fun applied happ => ?_
  refine (Moves.forM _ fun m hm =>
    applyTranscriptMutation_moves (happ.mutations m hm)).bind fun _ _ => ?_
  refine (Moves.of_core (fun _ => rfl)
    fun _ => le_rfl).bind fun _ _ => ?_
  exact (Moves.forM applied.appendedMessages fun m hm => appendTranscriptMessage_moves fun core =>
    happ.appended m hm core turnId).bind fun _ _ => .pure happ

theorem applyHookEffectsWithObserver_moves
    (hbatch : BatchAllowed A batch) (hcurrent : ∀ m ∈ currentMessage, Pushable A m) :
    Moves env A (applyHookEffectsWithObserver env turnId batch currentMessage toolName)
      (AppliedAllowed A) :=
  (applyHookEffects_moves hA hbatch hcurrent).bind fun _ happ =>
    (Moves.forM _ fun _ _ => onEvent_moves _).bind fun _ _ => Moves.pure happ

end Hooks

/-! ### Lifecycle methods -/

section Lifecycle

variable (hA : Internal A)

include hA

theorem endSession_moves {reason : Option String} :
    Moves env A (endSession env reason) fun _ => True := by
  refine .read fun rt => ?_
  split
  · exact hA.logs rfl
  · exact .pure trivial

theorem steerWithObserver_moves {message : String} {reason : Option String} :
    Moves env A (steerWithObserver env message reason) fun _ => True :=
  freshTurnId_moves.bind fun turnId _ => freshMessageId_moves.bind fun id _ =>
    (appendTranscriptMessage_moves fun core => hA.system message id core turnId).bind
      fun _ _ => (hA.logs rfl).bind fun _ _ =>
        onEvent_moves _

theorem drainRuntimeSteers_moves : Moves env A (drainRuntimeSteers env) fun _ => True :=
  tick_moves.bind fun _ _ => (Moves.forM _ fun _ _ => steerWithObserver_moves hA).bind
    fun _ _ => .pure trivial

variable (henv : env.Respects A)

include henv

/-- Asking the hooks of an event and applying their answers. -/
theorem hookRound_moves {Q : α → Prop} {event : HookEvent} {hookTurn : Option TurnId}
    {fields : List (String × String)} {payload : HookPayload} {f : AppliedHookEffects → RuntimeM α}
    (hcurrent : ∀ m ∈ currentMessage, Pushable A m)
    (hf : ∀ applied, AppliedAllowed A applied → Moves env A (f applied) Q) : Moves env A (do
      let batch ← runHooks env event hookTurn fields payload
      let applied ← applyHookEffectsWithObserver env turnId batch currentMessage toolName
      f applied) Q :=
  (runHooks_moves event hookTurn fields payload).bind fun batch ⟨now, context, hb⟩ =>
    (applyHookEffectsWithObserver_moves hA (henv.hooks now context batch hb) hcurrent).bind hf

theorem recordInstructionLoad_moves {instructions : List String} :
    Moves env A (recordInstructionLoad env turnId instructions) fun _ => True := by
  unfold recordInstructionLoad
  split
  · exact .pure trivial
  · refine hookRound_moves hA henv pushable_none fun applied _ => ?_
    split
    · exact .throw _
    · exact hA.logs rfl

end Lifecycle

variable {reason : String}

section Rotation

variable (hA : Rotating A) (henv : env.Respects A)

include hA henv

theorem startAgentSession_moves :
    Moves env A (startAgentSession env turnId reason) fun _ => True := by
  refine .read fun rt => ?_
  split
  · exact .pure trivial
  · refine hookRound_moves hA.toInternal henv pushable_none fun applied _ => ?_
    split
    · exact .throw _
    · refine (hA.logs rfl).bind fun _ _ start since => ?_
      refine .modify fun rt hs => ⟨trivial, ?_⟩
      exact hs.change .start (hA.start _) trivial rfl le_rfl

theorem rotateAgentSession_moves {endReason startReason : String} :
    Moves env A (rotateAgentSession env turnId endReason startReason) fun _ => True := by
  refine (hA.logs rfl).bind fun _ _ => ?_
  refine tick_moves.bind fun now _ => ?_
  have hid : Moves env A (modifySession fun session =>
      { session with
        agentSessionId := env.freshAgentSessionId now
        agentSessionStarted := false
        tokenLedger := {} }) fun _ => True := fun _ _ =>
    .modify fun _ hs => ⟨trivial, hs.change (.rotate (env.freshAgentSessionId now))
      (hA.rotate _ _) trivial rfl le_rfl⟩
  refine hid.bind fun _ _ => ?_
  exact (resetProviderContinuation_moves hA.reset).bind fun _ _ =>
    startAgentSession_moves hA henv

end Rotation

/-! ### Rollback and compaction -/

variable {postInstructions : Option (List String)} {instructions : Option String}

section History

variable {tail : List ℕ}

theorem mem_visible_of_mem_drop {startAt : ℕ} {id : MessageId}
    (h : id ∈ (session.visibleMessageIndices.drop startAt).filterMap fun i =>
      (session.transcript[i]?).map Message.messageId) :
    id ∈ session.visibleTranscript.map Message.messageId := by
  obtain ⟨i, hi, hid⟩ := mem_filterMap.mp h
  obtain ⟨m, hm, rfl⟩ := map_eq_some_iff.mp hid
  exact mem_map_of_mem (mem_filterMap.mpr ⟨i, mem_of_mem_drop hi, hm⟩)

/-- Removing messages: what is done so far, and what a rejected event leaves. -/
theorem removeVisibleMessages_triple {ids : List MessageId} {core : Core} :
    Triple (fun rt => rt.core = core ∧ since ≤ rt.clock)
      (ids.forM (removeVisibleMessage env turnId))
      (fun _ rt => rt.core = ids.foldl (Core.removeLogged turnId) core ∧ since ≤ rt.clock)
      (fun _ rt => (∃ event, env.Rejects event ∧
        Change.Interrupted core (.remove turnId ids) event rt.core) ∧ since ≤ rt.clock) := by
  let J (rest : List MessageId) (rt : AgentRuntime) : Prop := ∃ done, done ++ rest = ids ∧
    rt.core = done.foldl (.removeLogged turnId) core ∧ since ≤ rt.clock
  refine (Triple.forM (J := J) ids ?_).conseq (fun _ h => ⟨[], rfl, h⟩) ?_ (fun _ _ h => h)
  · rintro id rest rt ⟨done, rfl, hcore, hclock⟩
    unfold removeVisibleMessage
    simp only [exec_bind, exec_modifySession, exec_appendEvent]
    generalize hstore : env.store _ _ = response
    cases response with
    | ok _ =>
      refine ⟨done ++ [id], by simp, ?_, hclock.trans rt.clock.le_succ⟩
      rw [foldl_append, ← hcore]
      rfl
    | error e =>
      have hint : Change.Interrupted core (.remove turnId (done ++ id :: rest)) _
        ((done.foldl (.removeLogged turnId) core).mapSession (·.removeMessage id)) := .remove
      rw [← hcore] at hint
      exact ⟨⟨_, ⟨_, _, _, rfl, hstore⟩, hint⟩, hclock.trans rt.clock.le_succ⟩
  · rintro _ rt ⟨done, hdone, hcore⟩
    rw [append_nil] at hdone
    rw [← hdone]
    exact hcore

theorem rollbackVisibleHistoryFromMessage_moves
    (hA : ∀ core turnId ids, A core (.remove turnId ids)) :
    Moves env A (rollbackVisibleHistoryFromMessage env messageId) fun _ => True := by
  refine .get_bind fun rt start since hs => ?_
  dsimp only
  split
  · exact (Moves.throw _).from_state hs
  next startAt _ =>
    have hvalid : ∀ id ∈ (rt.session.visibleMessageIndices.drop startAt).filterMap fun i =>
        (rt.session.transcript[i]?).map Message.messageId,
        id ∈ rt.session.visibleTranscript.map Message.messageId :=
      fun _ => mem_visible_of_mem_drop
    generalize (rt.session.visibleMessageIndices.drop startAt).filterMap _ = ids at hvalid ⊢
    split
    · exact (Moves.pure trivial).from_state hs
    · refine .bind (R := fun _ s => s.core = rt.core ∧ rt.clock ≤ s.clock)
        (fun s h => by subst h; exact ⟨rfl, s.clock.le_succ⟩) fun turnId => ?_
      refine .bind (removeVisibleMessages_triple.exits
        fun _ s ⟨⟨_, hrej, hint⟩, hclock⟩ =>
          hs.interrupted _ (hA _ _ _) hvalid hrej hint hclock) fun _ => ?_
      refine .bind (R := fun _ s => Reached A start since s)
        (.modify fun s h => ?_) fun _ => .pure fun _ h => ⟨trivial, h⟩
      refine hs.change (.remove turnId ids) (hA _ _ _) hvalid ?_ h.2
      rw [Change.apply, ← h.1]
      rfl

/-- Committing a compaction whose tail was chosen at the start of the run. -/
theorem commitCompaction_movesFrom {summary : String} {count : ℕ}
    (hcommit : ∀ core id, Steps A start core → A core (.commit turnId reason count summary id tail))
    (htail : ∀ i ∈ tail, i < start.session.transcript.length) :
    MovesFrom env A start since (commitCompaction env turnId reason summary count tail)
      fun _ => True := by
  intro rt hs
  have hlen : start.session.transcript.length ≤ rt.core.session.transcript.length :=
    hs.steps.invariant (I := fun core => _ ≤ core.session.transcript.length)
      (fun core change _ _ h => h.trans (change.length_transcript_le core)) le_rfl
  have hvalid : ∀ id, Change.Valid rt.core (.commit turnId reason count summary id tail) :=
    fun _ i hi => (htail i hi).trans_le hlen
  unfold commitCompaction
  simp only [freshMessageId, tick, appendTranscriptMessage, resetProviderContinuation,
    exec_bind, exec_get, exec_modify, exec_pure, exec_modifySession, exec_appendEvent]
  generalize env.freshMessageId rt.clock = id
  generalize hstore : env.store (rt.clock + 1) _ = response
  cases response with
  | error e =>
    exact hs.interrupted _ (hcommit _ id hs.steps) (hvalid id)
      ⟨_, _, _, rfl, hstore⟩ .commitSummary (Nat.le_add_right _ 2)
  | ok _ =>
    dsimp only
    generalize hstore : env.store (rt.clock + 2) _ = response
    cases response with
    | error e =>
      exact hs.interrupted _ (hcommit _ id hs.steps) (hvalid id)
        ⟨_, _, _, rfl, hstore⟩ .commitCheckpoint (Nat.le_add_right _ 3)
    | ok _ =>
      exact ⟨trivial, hs.change _ (hcommit _ id hs.steps) (hvalid id) rfl (Nat.le_add_right _ 3)⟩

variable (hA : Rotating A) (henv : env.Respects A) (rt : AgentRuntime)

include hA henv

theorem runCompaction_movesFrom {sourceMessages visibleMessages : List Message}
    {compactedThrough : MessageId} (hcommit : ∀ core summary id, Steps A start core →
      A core (.commit turnId reason sourceMessages.length summary id tail))
    (htail : ∀ i ∈ tail, i < start.session.transcript.length) :
    MovesFrom env A start since (runCompaction env turnId reason instructions postInstructions
      sourceMessages visibleMessages compactedThrough tail) fun _ => True := by
  refine (runHooks_moves _ _ _ _ start since).bind fun batch ⟨now, context, hb⟩ => ?_
  refine (applyHookEffectsWithObserver_moves hA.toInternal (henv.hooks now context batch hb)
    pushable_none start since).bind fun applied _ => ?_
  split
  · exact Moves.pure trivial start since
  refine (tick_moves start since).bind fun now _ =>
    (answer_moves _ start since).bind fun summary _ => ?_
  refine (commitCompaction_movesFrom (fun core id => hcommit core summary id) htail).bind
    fun id _ => ?_
  -- From here on the compaction is installed; what follows are moves of their own.
  refine ((onEvent_moves _).bind fun _ _ => hookRound_moves hA.toInternal henv pushable_none
    fun _ _ => (rotateAgentSession_moves hA henv).bind fun _ _ => ?_) start since
  split
  · exact (recordInstructionLoad_moves hA.toInternal henv).bind fun _ _ => .pure trivial
  · exact .pure trivial

/-- **Compaction moves by allowed changes** from the state in which it chooses its tail. -/
theorem compactVisibleHistory_reaches (hcommits : Commits A rt.core) : Triple (fun s => s = rt)
      (compactVisibleHistory env turnId reason instructions postInstructions)
      (fun _ s => Reached A rt.core rt.clock s) fun _ => Left env A rt.core rt.clock := by
  refine .get_bind fun s hs => ?_
  cases hs
  dsimp only
  have hdone : ∀ b, Triple (fun s => s = rt) (pure b : RuntimeM Bool)
      (fun _ s => Reached A rt.core rt.clock s) fun _ => Left env A rt.core rt.clock :=
    fun b => .pure fun _ => .of_eq
  split
  · exact hdone false
  split
  · exact hdone false
  next splitAt hsplit =>
    split
    · exact hdone false
    split
    · exact hdone false
    split
    · exact hdone false
    refine (runCompaction_movesFrom hA henv ?_ ?_).conseq
      (fun _ => .of_eq) (fun _ _ h => h.2) fun _ _ h => h
    · intro core summary id hsteps
      exact hcommits core _ splitAt _ _ _ _ _ hsteps hsplit
    · intro i hi
      obtain ⟨m, hm, -⟩ := RuntimeSession.mem_visibleMessageIndices (mem_of_mem_drop hi)
      exact (List.getElem?_eq_some_iff.mp hm).1

theorem compactIfNeeded_reaches {instructions : List String} (hcommits : Commits A rt.core) :
    Triple (fun s => s = rt) (compactIfNeeded env turnId instructions)
      (fun _ s => Reached A rt.core rt.clock s) fun _ => Left env A rt.core rt.clock := by
  refine .get_bind fun s hs => ?_
  cases hs
  dsimp only
  repeat' split
  all_goals first
    | exact .pure fun _ => .of_eq
    | exact compactVisibleHistory_reaches hA henv rt hcommits

end History

section Compacting

variable (hA : Compacting A) (henv : env.Respects A)

include hA henv

theorem compactVisibleHistory_moves :
    Moves env A (compactVisibleHistory env turnId reason instructions postInstructions)
      fun _ => True := fun _ _ =>
  .of_state fun rt hs => (compactVisibleHistory_reaches hA.toRotating henv rt
    (hA.commits rt.core)).post (fun _ _ h => ⟨trivial, hs.trans h⟩) fun _ _ h => hs.trans_left h

theorem compactIfNeeded_moves {instructions : List String} :
    Moves env A (compactIfNeeded env turnId instructions) fun _ => True := fun _ _ =>
  .of_state fun rt hs => (compactIfNeeded_reaches hA.toRotating henv rt
    (hA.commits rt.core)).post (fun _ _ h => ⟨trivial, hs.trans h⟩) fun _ _ h => hs.trans_left h

end Compacting

end Nanoclaw
