import Nanoclaw.Types.Activity

/-!
# Child Agent Records

What the session manager keeps for one child agent. Each function here is one critical section of
the record's mutex. A task of the executor, its mailbox channel and its join handle are named by
the number of the launch they belong to. The envelopes that a finished child reports are made here
as well, without the identifiers of the child and its task.
-/

namespace Nanoclaw

/-! ### Statuses -/

def parseStatus (value : String) : AgentStatus :=
  match Text.toAsciiLowercase (Text.trim value) with
  | "queued" => .queued
  | "running" => .running
  | "waiting_approval" => .waitingApproval
  | "waiting_message" => .waitingMessage
  | "failed" => .failed
  | "cancelled" => .cancelled
  | _ => .completed

/-- A finished child never reports a status that is not terminal. -/
def normalizeTerminalResultStatus (value : Option String) : AgentStatus :=
  let status := (value.map parseStatus).getD .completed
  if status.isTerminal then status else .completed

@[simp] theorem normalizeTerminalResultStatus_isTerminal (value : Option String) :
    (normalizeTerminalResultStatus value).isTerminal = true := by
  unfold normalizeTerminalResultStatus
  dsimp only
  split
  · assumption
  · rfl

/-! ### Results -/

/-- The JSON object a child may answer with. -/
structure StructuredChildPayload where
  status : Option String
  summary : Option String
  text : Option String
  artifacts : List AgentArtifact
  structuredPayload : Option Value

/-- The last answer of a child: its text, and the payload parsed from it. -/
structure ChildAnswer where
  assistantText : String
  payload : Option StructuredChildPayload

def summarizeOutput (text : String) : String :=
  let collapsed := String.intercalate " " (Text.splitWhitespace text)
  if collapsed.isEmpty then "child agent completed without output"
  else String.ofList (collapsed.toList.take 96)

def extractArtifacts (text : String) : List AgentArtifact :=
  ((Text.splitWhitespace text).filter fun token =>
      "http://".toList.isPrefixOf token.toList || "https://".toList.isPrefixOf token.toList).map
    fun token =>
      { kind := "url"
        uri := Text.trimMatches (fun c => c == ')' || c == ']' || c == ',') token
        label := none }

def normalizeChildResult (answer : ChildAnswer) (claimedFiles : List String) :
    AgentResultEnvelope :=
  match answer.payload with
  | some payload =>
    { status := normalizeTerminalResultStatus payload.status
      summary := (payload.summary.filter fun value => !(Text.trim value).isEmpty).getD
        (summarizeOutput answer.assistantText)
      text := payload.text.getD answer.assistantText
      artifacts := payload.artifacts
      claimedFiles
      structuredPayload := payload.structuredPayload }
  | none =>
    { status := .completed
      summary := summarizeOutput answer.assistantText
      text := answer.assistantText
      artifacts := extractArtifacts answer.assistantText
      claimedFiles }

theorem normalizeChildResult_isTerminal (answer : ChildAnswer) (claimedFiles : List String) :
    (normalizeChildResult answer claimedFiles).status.isTerminal = true := by
  unfold normalizeChildResult
  split
  · exact normalizeTerminalResultStatus_isTerminal _
  · rfl

/-- The result of a child that is cancelled. -/
def cancelledResult (reason : Option String) (claimedFiles : List String) :
    AgentResultEnvelope where
  status := .cancelled
  summary := reason.getD "child agent cancelled"
  text := ""
  claimedFiles := claimedFiles

/-- The result of a child that fails. -/
def failedResult (error : String) (claimedFiles : List String) : AgentResultEnvelope where
  status := .failed
  summary := summarizeOutput error
  text := error
  claimedFiles := claimedFiles

/-! ### Dependencies -/

structure DependencyFailure where
  taskId : String
  status : AgentStatus
  summary : Option String

/-- The result of a child that cannot start, and the error kept with it. -/
def blockedResult (failures : List DependencyFailure) (claimedFiles : List String) :
    AgentResultEnvelope × String :=
  let summary := "dependency gate blocked by " ++
    String.intercalate ", " (failures.map fun failure =>
      failure.taskId ++ "=" ++ failure.status.display)
  let details := String.intercalate "\n" (failures.map fun failure =>
    match failure.summary with
    | some reason => failure.taskId ++ " (" ++ failure.status.display ++ ") " ++ reason
    | none => failure.taskId ++ " (" ++ failure.status.display ++ ")")
  ({ status := if failures.any (·.status == .failed) then .failed else .cancelled
     summary
     text := details
     claimedFiles }, summary)

theorem blockedResult_isTerminal (failures : List DependencyFailure) (claimedFiles : List String) :
    (blockedResult failures claimedFiles).1.status.isTerminal = true := by
  unfold blockedResult
  split <;> rfl

/-! ### The record -/

structure AgentRecord where
  status : AgentStatus := .queued
  /-- The launch whose mailbox sends go to. -/
  mailbox : ℕ
  result : Option AgentResultEnvelope := none
  error : Option String := none
  /-- The launch whose worker a cancellation aborts. -/
  joinHandle : Option ℕ := none

namespace AgentRecord

def attachJoinHandle (launch : ℕ) (record : AgentRecord) : AgentRecord :=
  { record with joinHandle := some launch }

/-- The status is written whatever it was. -/
def updateStatus (status : AgentStatus) (record : AgentRecord) : AgentRecord :=
  { record with status }

/-- The status and result are written whatever they were. -/
def finish (result : AgentResultEnvelope) (error : Option String) (record : AgentRecord) :
    Option AgentRecord :=
  if result.status.isTerminal then
    some { record with status := result.status, result := some result, error }
  else none

/-- Open a finished record again, with a new mailbox. -/
def reopen (mailbox : ℕ) (record : AgentRecord) : Option AgentRecord :=
  if record.status.isTerminal then
    some { record with
      status := .queued, mailbox, result := none, error := none, joinHandle := none }
  else none

/-- Cancel an unfinished record; the join handle is taken and aborted. -/
def cancel (reason : Option String) (claimedFiles : List String) (record : AgentRecord) :
    Option (AgentRecord × Option ℕ × AgentResultEnvelope) :=
  if record.status.isTerminal then none
  else
    let result := cancelledResult reason claimedFiles
    some ({ record with
      status := .cancelled, result := some result, error := reason, joinHandle := none },
      record.joinHandle, result)

end AgentRecord

/-! ### Mailboxes -/

inductive AgentControlMessage where
  | input (message : Message)
  | cancel (reason : Option String)

namespace AgentControlMessage

/-- The inputs among control messages. -/
def inputs (messages : List AgentControlMessage) : List Message :=
  messages.filterMap fun
    | input message => some message
    | cancel _ => none

@[simp] theorem inputs_nil : inputs [] = [] := rfl

@[simp] theorem inputs_append (xs ys : List AgentControlMessage) :
    inputs (xs ++ ys) = inputs xs ++ inputs ys :=
  List.filterMap_append

@[simp] theorem inputs_cons_input (message : Message) (messages : List AgentControlMessage) :
    inputs (input message :: messages) = message :: inputs messages := rfl

end AgentControlMessage

end Nanoclaw
