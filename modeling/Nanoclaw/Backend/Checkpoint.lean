import Nanoclaw.Store.Visible

/-!
# The Turn Boundary of a Checkpoint

A checkpoint records the message that a rollback goes back to, which should be the first visible
message of the current turn. `current_turn_boundary` replays the log into a map from messages to
turns. Edits write to the map too, so a message of an earlier turn that is patched in this one
counts as a message of this turn.
-/

namespace Nanoclaw.Checkpoint

open List Option

variable (events : List SessionEventEnvelope)

/-- The map the log is replayed into, without the roles, which nothing reads. -/
def messageTurns : MessageId → Option (Option TurnId) :=
  events.foldl (fun turns event =>
    match event.event with
    | .transcriptMessage message => Function.update turns message.messageId (some event.turnId)
    | .transcriptMessagePatched messageId _ => Function.update turns messageId (some event.turnId)
    | .transcriptMessageRemoved messageId => Function.update turns messageId none
    | _ => turns) fun _ => none

/-- The message to roll back to, and the prompt: the last user message before the answer. -/
def currentTurnBoundary : Option TurnId → Option MessageId × Option MessageId
  | none => (none, none)
  | some turnId =>
    let turnMessages := (Store.visibleTranscript events).filter fun message =>
      messageTurns events message.messageId = some (some turnId)
    let requestSide := turnMessages.takeWhile fun message =>
      message.role ≠ .assistant ∧ message.role ≠ .tool
    (turnMessages.head?.map Message.messageId,
      (requestSide.reverse.find? fun message => message.role = .user).map Message.messageId)

/-- The checkpoint made with the log so far, and the event logged for it. -/
def appendCheckpoint (sessionId : SessionId)
    (agentSessionId : AgentSessionId) (turnId : Option TurnId) (checkpointId : CheckpointId)
    (origin : CheckpointOrigin) (summary : String) (changedFiles : List CheckpointFileRecord) :
    CheckpointRecord × SessionEventEnvelope :=
  let (rollbackMessageId, promptMessageId) := currentTurnBoundary events turnId
  let checkpoint : CheckpointRecord :=
    { checkpointId, origin, summary, rollbackMessageId, promptMessageId, changedFiles
      scope := if rollbackMessageId.isSome then .both else .code }
  (checkpoint,
    { sessionId, agentSessionId, turnId
      toolCallId := none
      event := .activity (.checkpointCreated checkpoint) })

/-! ### The turn of a message -/

/-- The message was appended in the turn. -/
def appendedIn (turnId : TurnId) (id : MessageId) : Bool :=
  (events.reverse.find? fun event => introducedId event = some id).any fun event =>
    event.turnId = some turnId

/-- The event appends, patches or removes the message. -/
def isAbout (event : SessionEventEnvelope) (id : MessageId) : Bool :=
  introducedId event = some id ∨ editedId event = some id

/-- The last event about the message is one of the turn and does not remove it. -/
def writtenIn (turnId : TurnId) (id : MessageId) : Bool :=
  (events.reverse.find? (isAbout · id)).any fun event =>
    event.turnId = some turnId ∧ removedId event = none

variable (turnId : TurnId)

theorem messageTurns_append (event : SessionEventEnvelope) (id : MessageId) :
    messageTurns (events ++ [event]) id =
      if isAbout event id then (if removedId event = none then some event.turnId else none)
      else messageTurns events id := by
  rw [messageTurns, foldl_append, foldl_cons, foldl_nil, ← messageTurns]
  rcases event with ⟨sid, aid, tid, cid, kind⟩
  cases kind <;> simp [isAbout, introducedId, editedId, removedId, Function.update_apply, eq_comm]

theorem messageTurns_eq_iff (id : MessageId) :
    messageTurns events id = some (some turnId) ↔ writtenIn events turnId id = true := by
  induction events using reverseRecOn with
  | nil => simp [messageTurns, writtenIn]
  | append_singleton events event ih =>
    rw [messageTurns_append, writtenIn, reverse_append, reverse_singleton, singleton_append,
      find?_cons]
    cases isAbout event id with
    | true => simp [and_comm]
    | false => exact ih

/-- **When a checkpoint goes back to its turn**: the first visible message appended in the turn is
recorded if and only if the first one appended or last written there was both. -/
theorem checkpoint_boundary_iff (sessionId : SessionId) (agentSessionId : AgentSessionId)
    (checkpointId : CheckpointId) (origin : CheckpointOrigin) (summary : String)
    (changedFiles : List CheckpointFileRecord) :
    (appendCheckpoint events sessionId agentSessionId (some turnId) checkpointId origin summary
        changedFiles).1.rollbackMessageId =
      ((Store.visibleTranscript events).map Message.messageId).find? (appendedIn events turnId) ↔
    ∀ id ∈ ((Store.visibleTranscript events).map Message.messageId).find? fun id =>
        writtenIn events turnId id || appendedIn events turnId id,
      writtenIn events turnId id = appendedIn events turnId id := by
  rw [← find?_eq_find?_iff]
  refine Eq.congr_left ?_
  rw [find?_map, ← head?_filter]
  simp [appendCheckpoint, currentTurnBoundary, messageTurns_eq_iff, Function.comp_def]

/-- The prompt of the first turn is patched in the second one. -/
def patchedLog : List SessionEventEnvelope :=
  [("t1", .transcriptMessage (.user "ask" ⟨"u1"⟩)),
    ("t1", .transcriptMessage (.assistant "answer" ⟨"a1"⟩)),
    ("t2", .transcriptMessage (.user "ask" ⟨"u2"⟩)),
    ("t2", .transcriptMessagePatched ⟨"u1"⟩ (.user "asked" ⟨"u1"⟩))].map
      fun (turn, kind) => ⟨⟨"s"⟩, ⟨"a"⟩, some ⟨turn⟩, none, kind⟩

/-- A checkpoint of the second turn goes back to the first one. -/
theorem patched_message_becomes_boundary :
    (appendCheckpoint patchedLog ⟨"s"⟩ ⟨"a"⟩ (some ⟨"t2"⟩) ⟨"c"⟩ (.fileTool ⟨"write"⟩)
        "" []).1.rollbackMessageId = some ⟨"u1"⟩ ∧
      ((Store.visibleTranscript patchedLog).map Message.messageId).find?
        (appendedIn patchedLog ⟨"t2"⟩) = some ⟨"u2"⟩ := by
  decide +kernel

end Nanoclaw.Checkpoint
