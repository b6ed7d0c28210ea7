import Nanoclaw.Store.FileStore

/-!
# Reported Token Usage

What the store reports of the tokens that a session and its child agents used: the latest ledger
of every agent session of the log itself, and the latest one of the log of every child that the
events name.
-/

namespace Nanoclaw

inductive TokenUsageScope where
  | session
  | agentSession
  | subagent
  | task

structure TokenUsageRecord where
  scope : TokenUsageScope
  sessionId : SessionId
  agentSessionId : Option AgentSessionId
  agentName : Option String
  taskId : Option String
  ledger : TokenLedgerSnapshot

structure SessionTokenUsageReport where
  session : Option TokenUsageRecord
  agentSessions : List TokenUsageRecord
  subagents : List TokenUsageRecord
  tasks : List TokenUsageRecord
  aggregateUsage : TokenUsage

def agentSessionTokenUsageRecords (sessionId : SessionId) (events : List SessionEventEnvelope) :
    List TokenUsageRecord :=
  (latestLedgers id events).entries.map fun (agentSessionId, ledger) =>
    { scope := .agentSession
      sessionId
      agentSessionId := some agentSessionId
      agentName := none
      taskId := none
      ledger }

/-! ### Children -/

structure ChildSessionTokenUsageContext where
  sessionId : Option SessionId := none
  agentSessionId : Option AgentSessionId := none
  agentName : Option String := none
  taskId : Option String := none

structure ResolvedChildSessionTokenUsageContext where
  sessionId : SessionId
  agentSessionId : Option AgentSessionId
  agentName : Option String
  taskId : Option String

namespace ChildSessionTokenUsageContext

/-- What a start or a stop tells; it has the last word on the sessions. -/
def ofHandle (handle : AgentHandle) (agentName taskId : String)
    (context : ChildSessionTokenUsageContext) : ChildSessionTokenUsageContext where
  sessionId := some handle.sessionId
  agentSessionId := some handle.agentSessionId
  agentName := context.agentName.or (some agentName)
  taskId := context.taskId.or (some taskId)

def ofEnvelope (envelope : AgentEnvelope) (context : ChildSessionTokenUsageContext) :
    ChildSessionTokenUsageContext :=
  let context :=
    { context with
      sessionId := context.sessionId.or (some envelope.sessionId)
      agentSessionId := context.agentSessionId.or (some envelope.agentSessionId) }
  let ofTask (task : AgentTaskSpec) :=
    { context with
      agentName := context.agentName.or (some task.role)
      taskId := context.taskId.or (some task.taskId.value) }
  match envelope.kind with
  | .spawnRequested task => ofTask task
  | .started task => ofTask task
  | .result result => { context with taskId := context.taskId.or (some result.taskId.value) }
  | _ => context

def resolve (context : ChildSessionTokenUsageContext) :
    Option ResolvedChildSessionTokenUsageContext :=
  context.sessionId.map fun sessionId =>
    { sessionId
      agentSessionId := context.agentSessionId
      agentName := context.agentName
      taskId := context.taskId }

end ChildSessionTokenUsageContext

/-- The child that an event names, and what it tells about it. -/
def childContextUpdate (event : SessionEventEnvelope) :
    Option (AgentId × (ChildSessionTokenUsageContext → ChildSessionTokenUsageContext)) :=
  match event.event with
  | .activity (.subagentStart handle task) =>
    some (handle.agentId, .ofHandle handle task.role task.taskId.value)
  | .activity (.subagentStop handle _ _) =>
    some (handle.agentId, .ofHandle handle handle.role handle.taskId.value)
  | .activity (.agentEnvelope envelope) => some (envelope.agentId, .ofEnvelope envelope)
  | _ => none

def childContextsByAgent (events : List SessionEventEnvelope) :
    OrdMap String ChildSessionTokenUsageContext :=
  (events.filterMap childContextUpdate).foldl
    (fun byAgent child => byAgent.alter child.1.value fun context =>
      some (child.2 (context.getD {}))) .empty

def compareContexts (left right : ResolvedChildSessionTokenUsageContext) : Ordering :=
  (compare left.agentName right.agentName).then <|
  (compare left.taskId right.taskId).then <|
  compare left.sessionId right.sessionId

def collectChildRunTokenUsageContexts (events : List SessionEventEnvelope) :
    List ResolvedChildSessionTokenUsageContext :=
  ((childContextsByAgent events).values.filterMap (·.resolve)).insertionSort
    fun left right => (compareContexts left right).isLE

/-! ### The report -/

/-- The record of a child that has a ledger. -/
def childRecord (scope : TokenUsageScope)
    (child : ResolvedChildSessionTokenUsageContext × TokenLedgerSnapshot) : TokenUsageRecord where
  scope
  sessionId := child.1.sessionId
  agentSessionId := child.1.agentSessionId
  agentName := child.1.agentName
  taskId := child.1.taskId
  ledger := child.2

/-- The report, from the log of the session and the latest ledgers of its children. -/
def usageReport (sessionId : SessionId) (rootEvents : List SessionEventEnvelope)
    (childRecords : List (ResolvedChildSessionTokenUsageContext × Option TokenLedgerSnapshot)) :
    SessionTokenUsageReport :=
  let session := (sessionTokenUsageSnapshot rootEvents).map fun ledger =>
    { scope := .session, sessionId, agentSessionId := none, agentName := none, taskId := none,
      ledger : TokenUsageRecord }
  let children := childRecords.filterMap fun child => child.2.map (child.1, ·)
  { session
    agentSessions := agentSessionTokenUsageRecords sessionId rootEvents
    subagents := children.map (childRecord .subagent)
    tasks := children.map (childRecord .task)
    aggregateUsage := children.foldl
      (fun aggregate child => aggregate.accumulate child.2.cumulativeUsage)
      ((session.map (·.ledger.cumulativeUsage)).getD {}) }

/-- `token_usage`, for a store that reads with `events`, children in any order. -/
def tokenUsage (events : SessionId → Except SessionStoreError (List SessionEventEnvelope))
    (sessionId : SessionId) : Except SessionStoreError SessionTokenUsageReport := do
  let rootEvents ← events sessionId
  let childRecords ← (collectChildRunTokenUsageContexts rootEvents).mapM fun context =>
    (events context.sessionId).map fun log => (context, latestTokenUsageSnapshot log)
  return usageReport sessionId rootEvents childRecords

end Nanoclaw
