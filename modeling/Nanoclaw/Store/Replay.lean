import Nanoclaw.Lib.KeyedList
import Nanoclaw.Types.Event

/-!
# Replaying the Transcript from the Log

`replayTranscript` rebuilds the surviving messages of a log: a message event appends a slot, a
patch overwrites the slot of its message, a removal empties it. `applyEvent` says what the three
events mean for the list of surviving messages.
-/

namespace Nanoclaw

open List

/-- The loop body of the replay, over the slots filled so far. -/
def replayEvent (slots : Slots Message MessageId) (event : SessionEventEnvelope) :
    Slots Message MessageId :=
  match event.event with
  | .transcriptMessage message => slots.push Message.messageId message
  | .transcriptMessagePatched messageId message =>
    slots.put messageId (message.withMessageId messageId)
  | .transcriptMessageRemoved messageId => slots.drop messageId
  | _ => slots

def replayTranscript (events : List SessionEventEnvelope) : List Message :=
  (events.foldl replayEvent Slots.empty).contents

/-- **What an event means** for the list of surviving messages. -/
def applyEvent (kind : SessionEventKind) (messages : List Message) : List Message :=
  match kind with
  | .transcriptMessage message => messages ++ [message]
  | .transcriptMessagePatched messageId message =>
    replaceKey Message.messageId messageId (message.withMessageId messageId) messages
  | .transcriptMessageRemoved messageId => eraseKey Message.messageId messageId messages
  | _ => messages

/-- The identifier a message event introduces. -/
def introducedId (event : SessionEventEnvelope) : Option MessageId :=
  match event.event with
  | .transcriptMessage message => some message.messageId
  | _ => none

/-- The identifiers of all messages ever logged, in order. -/
def loggedIds (events : List SessionEventEnvelope) : List MessageId :=
  events.filterMap introducedId

@[simp] theorem loggedIds_append (es fs : List SessionEventEnvelope) :
    loggedIds (es ++ fs) = loggedIds es ++ loggedIds fs :=
  filterMap_append

/-! ### The slot array of a log -/

variable {events : List SessionEventEnvelope}

section

variable (hn : (loggedIds events).Nodup)

include hn

/-- The index stays exact; survivors are logged messages, in order. -/
theorem replay_exact : Slots.Exact Message.messageId (events.foldl replayEvent Slots.empty) ∧
      List.Sublist ((replayTranscript events).map Message.messageId) (loggedIds events) := by
  induction events using reverseRecOn with
  | nil => exact ⟨by simp [Slots.Exact, Slots.empty], .refl _⟩
  | append_singleton events event ih =>
    rw [loggedIds_append] at hn
    obtain ⟨hexact, hids⟩ := ih hn.of_append_left
    unfold replayTranscript at hids ⊢
    rw [foldl_append, foldl_cons, foldl_nil, loggedIds_append]
    set slots := events.foldl replayEvent .empty
    rcases event with ⟨sid, aid, tid, cid, kind⟩
    cases kind with
    | transcriptMessage message =>
      have hfresh : message.messageId ∉ slots.contents.map Message.messageId := fun hmem =>
        disjoint_of_nodup_append hn (hids.subset hmem) (by simp [loggedIds, introducedId])
      refine ⟨hexact.push hfresh, ?_⟩
      simp only [replayEvent, Slots.contents_push, map_append]
      exact hids.append (.refl _)
    | transcriptMessagePatched id message =>
      refine ⟨hexact.put rfl, ?_⟩
      simp only [replayEvent, Slots.contents_put hexact,
        map_key_replaceKey Message.messageId (Message.messageId_withMessageId message id)]
      exact hids.trans (sublist_append_left _ _)
    | transcriptMessageRemoved id =>
      refine ⟨hexact.drop id, ?_⟩
      simp only [replayEvent, Slots.contents_drop hexact]
      exact (filter_sublist.map _).trans (hids.trans (sublist_append_left _ _))
    | _ => exact ⟨hexact, hids.trans (sublist_append_left _ _)⟩

/-- The surviving messages have pairwise distinct identifiers. -/
theorem nodup_replayTranscript : ((replayTranscript events).map Message.messageId).Nodup :=
  (replay_exact hn).2.nodup hn

/-! ### The replay edits the surviving messages -/

/-- **Replaying one more event** applies its meaning to the surviving messages. -/
theorem replayTranscript_append (event : SessionEventEnvelope) :
    replayTranscript (events ++ [event]) = applyEvent event.event (replayTranscript events) := by
  obtain ⟨hexact, -⟩ := replay_exact hn
  unfold replayTranscript
  rw [foldl_append, foldl_cons]
  rcases event with ⟨sid, aid, tid, cid, kind⟩
  cases kind with
  | transcriptMessage message => exact Slots.contents_push _ _
  | transcriptMessagePatched id message => exact Slots.contents_put hexact _ _
  | transcriptMessageRemoved id => exact Slots.contents_drop hexact _
  | _ => rfl

end

variable (events)

theorem replayTranscript_append_message {event : SessionEventEnvelope} {message : Message}
    (h : event.event = .transcriptMessage message) :
    replayTranscript (events ++ [event]) = replayTranscript events ++ [message] := by
  unfold replayTranscript
  rw [foldl_append, foldl_cons, replayEvent, h]
  exact Slots.contents_push _ _

theorem replayTranscript_append_other
    {later : List SessionEventEnvelope} (h : ∀ e ∈ later, e.event.isTranscriptEvent = false) :
    replayTranscript (events ++ later) = replayTranscript events := by
  unfold replayTranscript
  rw [foldl_append]
  generalize events.foldl replayEvent .empty = slots
  induction later generalizing slots with
  | nil => rfl
  | cons event later ih =>
    obtain ⟨hevent, hlater⟩ := forall_mem_cons.mp h
    have hslots : replayEvent slots event = slots := by
      rcases event with ⟨sid, aid, tid, cid, kind⟩
      cases kind <;> first | rfl | cases hevent
    rw [foldl_cons, hslots]
    exact ih hlater slots

/-! ### The agent sessions of a log -/

/-- The agent sessions of a log, in the order in which they first appear. -/
def agentSessionIds (events : List SessionEventEnvelope) : List AgentSessionId :=
  events.foldl (fun seen event =>
      if event.agentSessionId ∈ seen then seen else seen ++ [event.agentSessionId]) []

theorem head?_agentSessionIds :
    (agentSessionIds events).head? = events.head?.map SessionEventEnvelope.agentSessionId := by
  induction events using reverseRecOn with
  | nil => rfl
  | append_singleton events event ih =>
    unfold agentSessionIds at ih ⊢
    rw [foldl_append, foldl_cons, foldl_nil]
    cases events with
    | nil => rfl
    | cons first rest =>
      split
      · exact ih
      · rw [head?_append, ih]
        rfl

end Nanoclaw
