import Nanoclaw.Lib.Pairing
import Nanoclaw.Runtime.Moves
import Nanoclaw.Runtime.Visible

/-!
# The Tool Calls and Results That Are Visible

The tool log of a session lists the calls and results of its visible messages, message by message.
A change is `Neutral` if it does not touch calls and results, or compacts to a given tail.
-/

namespace Nanoclaw

open List Message Exchange

/-- The tool calls and results a message holds. -/
def Message.exchange (message : Message) : Exchange ToolCallId :=
  ⟨messageToolCallIds message, messageToolResultIds message⟩

@[simp] theorem Message.exchange_toolResult (result : ToolResult) (id : MessageId) :
    (toolResult result id).exchange = ⟨[], [result.id]⟩ := rfl

variable {message : Message}

/-- A message without tool protocol parts neither asks nor answers. -/
theorem Message.exchange_silent (h : messageContainsToolProtocolItems message = false) :
    message.exchange.silent = true := by
  refine silent_eq_true.mpr ⟨filterMap_eq_nil_iff.mpr fun part hp => ?_,
    filterMap_eq_nil_iff.mpr fun part hp => ?_⟩
  all_goals
    have hpart := any_eq_false.mp h part hp
    cases part <;> first | rfl | exact absurd rfl hpart

namespace RuntimeSession

/-- **The visible tool calls and results.** -/
def toolLog (session : RuntimeSession) : List (Exchange ToolCallId) :=
  loud (session.visibleTranscript.map Message.exchange)

/-- What the tool log depends on in every message. -/
def keyed (session : RuntimeSession) : List (MessageId × Exchange ToolCallId) :=
  session.transcript.map fun m => (m.messageId, m.exchange)

variable {session session' : RuntimeSession}

section

variable (h : session.WindowValid)

include h

/-- An appended message adds its calls and results at the end. -/
theorem toolLog_pushMessage (message : Message) : (session.pushMessage message).toolLog =
      session.toolLog ++ loud (([message].filter session.survives).map exchange) := by
  rw [toolLog, visibleTranscript_pushMessage h, map_append, loud_append]
  rfl

theorem toolLog_pushMessage_silent (hs : message.exchange.silent = true) :
    (session.pushMessage message).toolLog = session.toolLog := by
  rw [toolLog_pushMessage h]
  cases hm : session.survives message with
  | true => simp [hm, loud_silent hs]
  | false => simp [hm, loud]

theorem toolLog_pushMessage_survives
    (hm : message.messageId ∉ session.removedMessageIds) (hs : message.exchange.silent = false) :
    (session.pushMessage message).toolLog = session.toolLog ++ [message.exchange] := by
  have hsurvives : session.survives message = true := decide_eq_true hm
  rw [toolLog_pushMessage h]
  simp [hsurvives, loud_of_not_silent hs]

end

/-- An edit that keeps the calls and results keeps the tool log. -/
theorem toolLog_congr (hsummary : session'.compactionSummaryIndex = session.compactionSummaryIndex)
    (htail : session'.retainedTailIndices = session.retainedTailIndices)
    (hpost : session'.postSummaryStart = session.postSummaryStart)
    (hremoved : session'.removedMessageIds = session.removedMessageIds)
    (hkeyed : session'.keyed = session.keyed) : session'.toolLog = session.toolLog := by
  have hids : session'.ids = session.ids := by
    simpa [keyed, ids, Function.comp_def] using congrArg (map Prod.fst) hkeyed
  have hexchange : session'.transcript.map exchange = session.transcript.map exchange := by
    simpa [keyed, Function.comp_def] using congrArg (map Prod.snd) hkeyed
  rw [toolLog, toolLog, map_visibleTranscript_congr exchange hsummary htail hpost hremoved
    hids hexchange]

theorem keyed_setMessage {i : ℕ} {old : Message} (hold : session.transcript[i]? = some old)
    (hid : message.messageId = old.messageId) (he : message.exchange = old.exchange) :
    (session.setMessage i message).keyed = session.keyed := by
  have hkey : session.keyed[i]? = some (message.messageId, message.exchange) := by
    rw [keyed, getElem?_map, hold, hid, he]
    rfl
  obtain ⟨hlt, hget⟩ := List.getElem?_eq_some_iff.mp hkey
  rw [keyed, transcript_setMessage, map_set, ← hget]
  exact set_getElem_self hlt

section

variable (session)

theorem keyed_prefix_pushMessage (message : Message) :
    session.keyed <+: (session.pushMessage message).keyed := by
  simp [keyed]

/-- The calls and results of the messages at some positions. -/
def exchangesAt (session : RuntimeSession) (positions : List ℕ) : List (Exchange ToolCallId) :=
  ((positions.filterMap fun i => session.transcript[i]?).filter session.survives).map
    Message.exchange

theorem exchangesAt_eq (positions : List ℕ) : session.exchangesAt positions =
      ((positions.filterMap fun i => session.keyed[i]?).filter fun key =>
        decide (key.1 ∉ session.removedMessageIds)).map Prod.snd := by
  have hkeyed : (positions.filterMap fun i => session.keyed[i]?) =
      (positions.filterMap fun i => session.transcript[i]?).map
        fun m => (m.messageId, m.exchange) := by
    rw [map_filterMap]
    exact filterMap_congr fun i _ => getElem?_map
  rw [hkeyed, filter_map, map_map]
  rfl

/-- **Cutting the visible messages cuts the tool log.** -/
theorem loud_exchangesAt_suffix (n : ℕ) :
    loud (session.exchangesAt (session.visibleMessageIndices.drop n)) <:+ session.toolLog := by
  have hall : ((session.visibleMessageIndices.drop n).filterMap fun i =>
      session.transcript[i]?).filter session.survives =
      (session.visibleMessageIndices.drop n).filterMap fun i => session.transcript[i]? := by
    refine filter_eq_self.mpr fun m hm => ?_
    obtain ⟨i, hi, hget⟩ := mem_filterMap.mp hm
    obtain ⟨m', hm', hs⟩ := mem_visibleMessageIndices (mem_of_mem_drop hi)
    rw [hget] at hm'
    cases hm'
    exact hs
  have hsplit : session.visibleTranscript =
      (session.visibleMessageIndices.take n).filterMap (fun i => session.transcript[i]?) ++
        (session.visibleMessageIndices.drop n).filterMap fun i => session.transcript[i]? := by
    rw [← filterMap_append, take_append_drop]
    rfl
  rw [exchangesAt, hall, toolLog, hsplit, map_append, loud_append]
  exact suffix_append _ _

end

/-- Growing keeps the calls and results at positions of the transcript. -/
theorem exchangesAt_congr (hkeyed : session.keyed <+: session'.keyed)
    (hremoved : session'.removedMessageIds = session.removedMessageIds) {positions : List ℕ}
    (hlt : ∀ i ∈ positions, i < session.transcript.length) :
    session'.exchangesAt positions = session.exchangesAt positions := by
  obtain ⟨more, hmore⟩ := hkeyed
  rw [exchangesAt_eq, exchangesAt_eq, hremoved, ← hmore, filterMap_getElem?_append]
  intro i hi
  rw [keyed, length_map]
  exact hlt i hi

end RuntimeSession

/-! ### Neutral changes -/

open RuntimeSession

/-- **Changes that leave tool calls and results alone**, with the tails a compaction may
commit. -/
def Neutral (tails : List ℕ → Prop) : Allowed := fun core change =>
  match change with
  | .push _ message => message.exchange.silent = true
  | .edit _ index message => ∀ old, core.session.transcript[index]? = some old →
      message.exchange = old.exchange
  | .remove .. => False
  | .commit _ _ _ _ _ tail => tails tail
  | _ => True

theorem neutral_rotating (tails : List ℕ → Prop) : Rotating (Neutral tails) where
  log _ _ _ _ _ := trivial
  reset _ := trivial
  system _ _ _ _ := rfl
  usage _ _ _ := trivial
  start _ := trivial
  rotate _ _ := trivial

/-- What neutral changes keep of the state they start from. -/
structure Kept (start core : Core) : Prop where
  keyed : start.session.keyed <+: core.session.keyed
  removed : core.session.removedMessageIds = start.session.removedMessageIds
  window : core.session.WindowValid

theorem Kept.refl {core : Core} (h : core.session.WindowValid) : Kept core core :=
  ⟨prefix_rfl, rfl, h⟩

section Neutral

variable {tails : List ℕ → Prop} {start core core' : Core} {turnId : TurnId}

theorem keyed_edit {index : ℕ} (hA : Neutral tails core (.edit turnId index message))
    (hv : (Change.edit turnId index message).Valid core) :
    (core.session.setMessage index message).keyed = core.session.keyed := by
  obtain ⟨old, hold, hid⟩ := Option.map_eq_some_iff.mp (getElem?_map ▸ hv.2)
  exact keyed_setMessage hold hid.symm (hA old hold)

theorem Kept.change (h : Kept start core) {change : Change} (hA : Neutral tails core change)
    (hv : change.Valid core) : Kept start (change.apply core) := by
  have hwindow := change.windowValid core h.window
  cases change with
  | log | record | reset | usage | start | rotate => exact ⟨h.keyed, h.removed, hwindow⟩
  | push turnId message =>
    exact ⟨h.keyed.trans (keyed_prefix_pushMessage _ message), h.removed, hwindow⟩
  | edit => exact ⟨(keyed_edit hA hv).symm ▸ h.keyed, h.removed, hwindow⟩
  | remove => exact hA.elim
  | commit turnId reason count summary id tail =>
    exact ⟨h.keyed.trans (keyed_prefix_pushMessage _ (.system summary id)), h.removed, hwindow⟩

/-- A neutral change keeps the tool log, or it is a compaction to one of the tails. -/
theorem toolLog_apply {change : Change} (hA : Neutral tails core change)
    (hv : change.Valid core) (hwindow : core.session.WindowValid) :
    (change.apply core).session.toolLog = core.session.toolLog ∨
      ∃ turnId reason count summary id tail, tails tail ∧
        change = .commit turnId reason count summary id tail := by
  cases change with
  | log | record | reset | usage | start | rotate => exact .inl rfl
  | push turnId message => exact .inl (toolLog_pushMessage_silent hwindow hA)
  | edit => exact .inl (toolLog_congr rfl rfl rfl rfl (keyed_edit hA hv))
  | remove => exact hA.elim
  | commit => exact .inr ⟨_, _, _, _, _, _, hA, rfl⟩

/-- **Neutral changes without compactions keep the tool log.** -/
theorem Steps.toolLog_eq (h : Steps (Neutral fun _ => False) start core)
    (hwindow : start.session.WindowValid) :
    Kept start core ∧ core.session.toolLog = start.session.toolLog :=
  h.invariant (I := fun core => Kept start core ∧ core.session.toolLog = start.session.toolLog)
    (fun core change hA hv hI => by
      rcases toolLog_apply hA hv hI.1.window with hsame | ⟨_, _, _, _, _, _, hno, -⟩
      · exact ⟨hI.1.change hA hv, hsame.trans hI.2⟩
      · exact hno.elim)
    ⟨.refl hwindow, rfl⟩

/-- A compaction leaves the calls and results of its tail. -/
theorem toolLog_commit {reason summary : String} {count : ℕ} {id : MessageId}
    {tail : List ℕ} (htail : ∀ i ∈ tail, i < core.session.transcript.length) :
    ((Change.commit turnId reason count summary id tail).apply core).session.toolLog =
      loud (core.session.exchangesAt tail) := by
  have hvisible : ((Change.commit turnId reason count summary id tail).apply
      core).session.visibleTranscript =
      ([system summary id] ++ tail.filterMap fun i => core.session.transcript[i]?).filter
        core.session.survives :=
    visibleTranscript_installSummary htail
  have hnil : loud (([system summary id].filter core.session.survives).map exchange) = [] := by
    refine filter_eq_nil_iff.mpr fun entry he => ?_
    obtain ⟨m, hm, rfl⟩ := mem_map.mp he
    cases mem_singleton.mp (mem_of_mem_filter hm)
    exact Bool.false_ne_true
  rw [toolLog, hvisible, filter_append, map_append, loud_append, hnil]
  rfl

/-- **A compaction to a tail that was visible at the start cuts the tool log.** -/
theorem Steps.toolLog_suffix
    (h : Steps (Neutral fun tail => ∃ n, tail = start.session.visibleMessageIndices.drop n)
      start core) (hwindow : start.session.WindowValid) :
    Kept start core ∧ core.session.toolLog <:+ start.session.toolLog := by
  refine h.invariant (I := fun core => Kept start core ∧
    core.session.toolLog <:+ start.session.toolLog) (fun core change hA hv hI => ?_)
    ⟨.refl hwindow, suffix_rfl⟩
  refine ⟨hI.1.change hA hv, ?_⟩
  rcases toolLog_apply hA hv hI.1.window with hsame | ⟨_, _, _, _, _, _, ⟨n, rfl⟩, rfl⟩
  · rw [hsame]
    exact hI.2
  · rw [toolLog_commit hv, exchangesAt_congr hI.1.keyed hI.1.removed]
    · exact loud_exchangesAt_suffix start.session n
    · intro i hi
      obtain ⟨m, hm, -⟩ := mem_visibleMessageIndices (mem_of_mem_drop hi)
      exact (List.getElem?_eq_some_iff.mp hm).1

end Neutral

/-! ### Hooks that leave tool calls and results alone -/

/-- The effect adds, edits and removes no tool calls and results. -/
def HookEffect.leavesToolParts : HookEffect → Bool
  | .appendMessage _ parts => !parts.any MessagePart.isToolProtocol
  | .replaceMessage .current message => !messageContainsToolProtocolItems message
  | .replaceMessage _ _ => false
  | .patchMessage _ patch =>
    patch.replaceParts.isNone && !patch.appendParts.any MessagePart.isToolProtocol
  | .removeMessage .current => true
  | .removeMessage _ => false
  | _ => true

theorem exchange_applyPatch {patch : MessagePatch} (hreplace : patch.replaceParts = none)
    (happend : patch.appendParts.any MessagePart.isToolProtocol = false) :
    (applyPatch message patch).exchange = message.exchange := by
  have hsilent : ({ message with parts := patch.appendParts } : Message).exchange.silent = true :=
    exchange_silent happend
  obtain ⟨hcalls, hresults⟩ := silent_eq_true.mp hsilent
  have hparts : (applyPatch message patch).parts = message.parts ++ patch.appendParts := by
    rw [applyPatch, hreplace]
    rfl
  simp only [exchange, messageToolCallIds, messageToolResultIds] at hcalls hresults ⊢
  rw [hparts, filterMap_append, filterMap_append, hcalls, hresults, append_nil, append_nil]

theorem effectAllowed_neutral (tails : List ℕ → Prop) {effect : HookEffect}
    (h : effect.leavesToolParts = true) : EffectAllowed (Neutral tails) effect := by
  cases effect with
  | appendMessage role parts => exact fun _ _ _ => exchange_silent ((Bool.not_eq_true' _).mp h)
  | replaceMessage selector message =>
    cases selector with
    | current => exact fun _ _ => exchange_silent ((Bool.not_eq_true' _).mp h)
    | messageId | lastOfRole => cases h
  | patchMessage selector patch =>
    simp only [HookEffect.leavesToolParts, Bool.and_eq_true, Option.isNone_iff_eq_none,
      Bool.not_eq_true'] at h
    have hsame : ∀ message, (applyPatch message patch).exchange = message.exchange :=
      fun _ => exchange_applyPatch h.1 h.2
    cases selector with
    | current =>
      intro message hm core turnId
      change (applyPatch message patch).exchange.silent = true
      rw [hsame]
      exact hm core turnId
    | messageId | lastOfRole =>
      intro _ core turnId index old hold old' hold'
      rw [hold] at hold'
      cases hold'
      exact hsame old
  | removeMessage selector =>
    cases selector with
    | current => trivial
    | messageId | lastOfRole => cases h
  | _ => trivial

/-- No hook adds, edits or removes tool calls and results. -/
structure Env.LeavesToolParts (env : Env) : Prop where
  hooks : ∀ now context batch, env.runHooks now context = .ok batch →
    ∀ invocation ∈ batch, ∀ effect ∈ invocation.effects, effect.leavesToolParts = true
  async : ∀ now, ∀ invocation ∈ env.drainAsyncInvocations now,
    ∀ effect ∈ invocation.effects, effect.leavesToolParts = true

/-- **Such hooks ask for neutral changes only.** -/
theorem Env.LeavesToolParts.respects {env : Env} (h : env.LeavesToolParts)
    (tails : List ℕ → Prop) : env.Respects (Neutral tails) where
  hooks now context batch hb invocation hi effect he :=
    effectAllowed_neutral tails (h.hooks now context batch hb invocation hi effect he)
  async now invocation hi effect he :=
    effectAllowed_neutral tails (h.async now invocation hi effect he)

end Nanoclaw
