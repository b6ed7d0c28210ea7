import Nanoclaw.Provider.Anthropic
import Nanoclaw.Provider.OpenAi
import Nanoclaw.Runtime.Bookkeeping
import Nanoclaw.Runtime.TurnMoves

/-!
# Failures Before the First Event

The runtime retries a request that could not be opened, and when the provider has lost the
response that the request continues it sends the whole transcript. But the backends open nothing:
they return a stream that sends the request when it is first read, and a refused request is an
error in the stream, which the runtime reads after its retry loop is over.
-/

namespace Nanoclaw

open Proc

namespace Provider

/-! ### Backends over HTTP -/

/-- The two backends that send HTTP requests. -/
inductive Backend where
  | openAi (wire : Wire) (options : OpenAi.Options)
  | anthropic (wire : Wire) (setup : Anthropic.Setup)

namespace Backend

variable (backend : Backend)

/-- `ProviderBackend::stream_turn`, given what the request comes to when it is sent. -/
def streamTurn (outcome : HttpOutcome) (request : ModelRequest) : Except RuntimeError ModelStream :=
  match backend with
  | .openAi wire options => OpenAi.streamOpenAiResponsesTurn wire options outcome request
  | .anthropic wire setup => Anthropic.streamAnthropicTurn wire setup outcome request

/-- The body of the request can be built, so that the request is sent. -/
def sends (request : ModelRequest) : Bool :=
  match backend with
  | .openAi _ options => (OpenAi.buildOpenAiResponsesBody options request).isOk
  | .anthropic _ setup =>
    (Anthropic.buildAnthropicMessagesBody setup.roundtripText setup.coerceObjectSchema
      setup.model request setup.options).isOk

def isRetryableStatus (status : ℕ) : Bool :=
  match backend with
  | .openAi _ _ => OpenAi.isRetryableOpenAiResponsesStatus status
  | .anthropic _ _ => Anthropic.isRetryableAnthropicStatus status

/-- The request was refused with a status that may be retried. -/
def refusedForNow (outcome : HttpOutcome) : Bool :=
  outcome.any fun response => !response.isSuccess && backend.isRetryableStatus response.status

/-- The request was refused because the response it continues was not found. -/
def refusedAsLost (outcome : HttpOutcome) : Bool :=
  match backend with
  | .openAi wire _ => outcome.any fun response =>
    !response.isSuccess && response.text.any (OpenAi.isPreviousResponseNotFound wire)
  | .anthropic _ _ => false

/-- Opening fails only if the body cannot be built, which is not retried. -/
theorem streamTurn_error {backend : Backend} {request : ModelRequest} {outcome : HttpOutcome}
    {error : RuntimeError} (h : backend.streamTurn outcome request = .error error) :
    isProviderContinuationLost error = false ∧ modelBackendRetryHint error = none := by
  have hplain : ∀ error : ProviderError, isProviderContinuationLost error.toRuntimeError = false ∧
        modelBackendRetryHint error.toRuntimeError = none := by
    intro error
    cases error <;> exact ⟨rfl, rfl⟩
  cases backend <;>
    simp only [streamTurn, OpenAi.streamOpenAiResponsesTurn, Anthropic.streamAnthropicTurn] at h <;>
    split at h <;> cases h <;> exact hplain _

end Backend

end Provider

open Provider

variable {backend : Backend} {request : ModelRequest}

/-! ### Recovery -/

section

variable (backend) (network : ℕ → HttpOutcome)

/-- **The failures are recovered** in the requests of a round: one refused as lost is followed by
the whole visible transcript without a continuation, one refused for now by another while retries
are left, and no other by any. -/
def Recovered (visible : List Message) : ℕ → List (ℕ × ModelRequest) → Prop
  | _, [] => False
  | remaining, (now, request) :: rest =>
    if !backend.sends request then rest = []
    else if request.continuation.isSome && backend.refusedAsLost (network now) then
      (∀ next ∈ rest.head?, next.2.continuation = none ∧ next.2.messages = visible) ∧
        Recovered visible maxProviderRequestRetries rest
    else if backend.refusedForNow (network now) then
      match remaining with
      | 0 => rest = []
      | remaining + 1 => Recovered visible remaining rest
    else rest = []

/-- **Early failures are recovered**, and a continuation refused as lost is dropped. -/
structure EarlyFailuresRecovered (before after : AgentRuntime) : Prop where
  requests : ∃ new, after.requests = before.requests ++ new ∧
    Recovered backend network before.session.visibleTranscript maxProviderRequestRetries new
  dropped : ∀ new, after.requests = before.requests ++ new → ∀ asked ∈ new,
    asked.2.continuation.isSome = true → backend.sends asked.2 = true →
      backend.refusedAsLost (network asked.1) = true → after.session.providerContinuation = none

/-- A request that is sent and refused in a way that calls for recovery. -/
def CallsForRecovery (now : ℕ) (request : ModelRequest) : Prop :=
  backend.sends request = true ∧
    ((request.continuation.isSome = true ∧ backend.refusedAsLost (network now) = true) ∨
      backend.refusedForNow (network now) = true)

variable {backend network}

/-- A request is the only one iff it calls for no recovery. -/
theorem recovered_singleton {visible : List Message} {remaining now : ℕ} :
    Recovered backend network visible (remaining + 1) [(now, request)] ↔
      ¬ CallsForRecovery backend network now request := by
  rw [Recovered, CallsForRecovery]
  cases backend.sends request <;> cases request.continuation.isSome <;>
    cases backend.refusedAsLost (network now) <;> cases backend.refusedForNow (network now) <;>
    simp [Recovered]

end

/-! ### A round in an environment without failures of its own -/

/-- The store takes every event and the observer goes on after every one. -/
structure Env.Undisturbed (env : Env) : Prop where
  store : ∀ now event, env.store now event = .ok ()
  observer : ∀ now event, env.observer now event = .ok ()

/-- The backend of the environment sends its requests over the network. -/
def Env.Asks (env : Env) (backend : Backend) (network : ℕ → HttpOutcome) : Prop :=
  ∀ now request, env.streamTurn now request = backend.streamTurn (network now) request

section

variable {env : Env} {requests : List (ℕ × ModelRequest)} {network : ℕ → HttpOutcome}

theorem exec_tick (rt : AgentRuntime) :
    exec tick rt = (.ok rt.clock, { rt with clock := rt.clock + 1 }) := rfl

theorem Env.Undisturbed.exec_onEvent (h : env.Undisturbed) (event : RuntimeProgressEvent)
    (rt : AgentRuntime) :
    exec (onEvent env event) rt = (.ok (), { rt with clock := rt.clock + 1 }) := by
  rw [onEvent, exec_bind_ok (exec_tick rt), h.observer]
  rfl

theorem Env.Undisturbed.exec_append (h : env.Undisturbed) (turnId : Option TurnId)
    (toolCallId : Option ToolCallId) (event : SessionEventKind) (rt : AgentRuntime) :
    ∃ log, exec (appendEvent env turnId toolCallId event) rt =
      (.ok (), { rt with clock := rt.clock + 1, log := log }) := by
  refine ⟨rt.log ++ [rt.core.envelope turnId toolCallId event], ?_⟩
  rw [exec_appendEvent, h.store]

/-- The first request of a round. -/
def firstRequest (env : Env) (turnId : TurnId) (instructions : List String)
    (stats : SkillCaptureRuntimeStats) (rt : AgentRuntime) : ModelRequest :=
  (buildModelRequest env turnId instructions false rt).withSkillCapture stats

/-- The first request comes after two questions each to store and observer. -/
def firstRequestTime (rt : AgentRuntime) : ℕ := rt.clock + 4

section

variable (turnId : TurnId) (instructions : List String) (iteration : ℕ)
  (stats : SkillCaptureRuntimeStats) (rt : AgentRuntime)

theorem Env.Undisturbed.exec_prepareRequest (h : env.Undisturbed) :
    ∃ rt', exec (prepareRequest env turnId instructions iteration false stats) rt =
        (.ok (firstRequest env turnId instructions stats rt), rt') ∧
      rt'.clock = firstRequestTime rt ∧ rt'.requests = rt.requests := by
  set request := firstRequest env turnId instructions stats rt
  obtain ⟨log, hstarted⟩ := h.exec_append (some turnId) none (.modelRequestStarted request) rt
  set rt₁ : AgentRuntime := { rt with clock := rt.clock + 1, log := log }
  obtain ⟨ledger, rt₂, hledger, hclock, hrequests⟩ : ∃ ledger rt₂, exec (recordRequestTokenWindow
        { usedTokens := estimatePromptTokens request.instructions request.messages request.tools
            request.additionalContext
          maxTokens := env.compactionConfig.contextWindowTokens }) rt₁ = (.ok ledger, rt₂) ∧
      rt₂.clock = rt₁.clock ∧ rt₂.requests = rt₁.requests := ⟨_, _, rfl, rfl, rfl⟩
  obtain ⟨log', husage⟩ := h.exec_append (some turnId) none
    (.tokenUsageUpdated .requestStarted ledger) rt₂
  refine ⟨{ rt₂ with clock := rt₂.clock + 1 + 1 + 1, log := log' }, ?_, ?_, hrequests⟩
  · rw [prepareRequest, exec_bind_ok (exec_get rt)]
    have hpublish : exec (publishModelRequestStarted env turnId iteration request) rt =
        (.ok (), { rt₂ with clock := rt₂.clock + 1 + 1 + 1, log := log' }) := by
      rw [publishModelRequestStarted, exec_bind_ok hstarted, exec_bind_ok hledger,
        exec_bind_ok husage, exec_bind_ok (h.exec_onEvent _ _), h.exec_onEvent]
    exact exec_bind_ok hpublish
  · rw [firstRequestTime]
    rw [hclock]

/-- Reading the stream and recording the response hands nothing to the backend. -/
theorem readModelEvent_requests {response : TurnResponse} {event : Except RuntimeError ModelEvent} :
    Preserves (fun rt => rt.requests = requests) (readModelEvent env response event) := by
  have hapart := apart_requests requests
  refine (preserves_answer _).bind fun model => ?_
  cases model with
  | textDelta delta => exact (hapart.onEvent env _).bind fun _ => .pure _
  | toolCallRequested call => exact (hapart.onEvent env _).bind fun _ => .pure _
  | responseComplete messageId continuation usage reasoning =>
    exact (hapart.freshMessageId env).bind fun _ => .pure _
  | error message => exact .throw _

/-- The backend is asked once, as it is never asked again after an error. -/
theorem openStream_requests (henv : env.Undisturbed) (hasks : env.Asks backend network) :
    (exec (openStream env turnId instructions iteration stats) rt).2.requests =
      rt.requests ++ [(firstRequestTime rt, firstRequest env turnId instructions stats rt)] := by
  obtain ⟨rt₁, hprepare, hclock, hrequests⟩ :=
    henv.exec_prepareRequest turnId instructions iteration stats rt
  rw [openStream, exec_bind_ok hprepare]
  set request := firstRequest env turnId instructions stats rt
  rw [show maxProviderRequestRetries = 4 + 1 from rfl, streamWithRetries, attemptStream,
    exec_bind_ok (exec_tick rt₁), exec_bind_ok (exec_modify _ _), hasks]
  rcases hstream : backend.streamTurn (network rt₁.clock) request with error | stream
  · obtain ⟨hlost, hhint⟩ := Backend.streamTurn_error hstream
    simp only [hlost, Bool.and_false, Bool.false_eq_true, if_false, hhint, exec_throw, hrequests,
      hclock]
  · simp only [exec_pure, hrequests, hclock]

/-- **A round hands one request to the backend**, whatever comes of it. -/
theorem collectModelResponse_requests (henv : env.Undisturbed) (hasks : env.Asks backend network) :
    (exec (collectModelResponse env turnId instructions iteration stats) rt).2.requests =
      rt.requests ++ [(firstRequestTime rt, firstRequest env turnId instructions stats rt)] := by
  have hopened := openStream_requests turnId instructions iteration stats rt henv hasks
  set requests :=
    rt.requests ++ [(firstRequestTime rt, firstRequest env turnId instructions stats rt)]
  refine (Triple.state_iff (P := fun rt' => rt' = rt) (F := fun rt' => rt'.requests = requests)).mp
    (.bind (Triple.state_iff.mpr ?_) fun opened => ?_) rt rfl
  · rintro _ rfl
    exact hopened
  have hapart := apart_requests requests
  refine (Preserves.foldlM _ (fun _ _ => readModelEvent_requests) _).bind fun response => ?_
  refine (hapart.appendEvent env _ _ _).bind fun _ => (hapart.onEvent env _).bind fun _ => ?_
  refine ((hapart.modifySession _).bind fun _ => .get_bind fun _ =>
    .pure _).bind fun ledger => ?_
  refine (hapart.appendEvent env _ _ _).bind fun _ => (hapart.onEvent env _).bind fun _ => ?_
  refine .bind (.modify ?_) fun _ => .pure _
  exact fun rt' h => h

end

end

/-- **Early failures are recovered** exactly if the first request calls for no recovery. -/
theorem early_failures_recovered_iff (backend : Backend) (network : ℕ → HttpOutcome) (env : Env)
    (henv : env.Undisturbed) (hasks : env.Asks backend network) (turnId : TurnId)
    (instructions : List String) (iteration : ℕ) (stats : SkillCaptureRuntimeStats)
    (rt : AgentRuntime) :
    EarlyFailuresRecovered backend network rt
        (exec (collectModelResponse env turnId instructions iteration stats) rt).2 ↔
      ¬ CallsForRecovery backend network (firstRequestTime rt)
        (firstRequest env turnId instructions stats rt) := by
  set request := firstRequest env turnId instructions stats rt
  have hrequests := collectModelResponse_requests turnId instructions iteration stats rt henv hasks
  constructor
  · rintro ⟨⟨new, hnew, hrecovered⟩, -⟩
    rw [hrequests, List.append_cancel_left_eq] at hnew
    rw [← hnew] at hrecovered
    exact recovered_singleton.mp hrecovered
  · intro hcalls
    refine ⟨⟨_, hrequests, recovered_singleton.mpr hcalls⟩, ?_⟩
    intro new hnew asked hasked hcontinuation hsends hlost
    rw [hrequests, List.append_cancel_left_eq] at hnew
    rw [← hnew, List.mem_singleton] at hasked
    subst hasked
    exact absurd ⟨hsends, .inl ⟨hcontinuation, hlost⟩⟩ hcalls

/-- A wire on which no text is JSON. -/
def plainWire : Wire where
  parseJson _ := none
  freshMessageId := ⟨"message"⟩
  freshCallId _ := ⟨"call"⟩
  toolOrigins _ := none

/-- A quiet environment whose requests are sent to the Responses endpoint. -/
def responsesEnv (network : ℕ → HttpOutcome) : Env :=
  { quietEnv with
    streamTurn := fun now request =>
      (Backend.openAi plainWire {}).streamTurn (network now) request }

theorem early_failures_recovered_after_success :
    EarlyFailuresRecovered (.openAi plainWire {}) (fun _ => some ⟨200, none, []⟩) freshRuntime
      (exec (collectModelResponse (responsesEnv fun _ => some ⟨200, none, []⟩) ⟨"turn"⟩ [] 1 {})
        freshRuntime).2 := by
  refine (early_failures_recovered_iff (.openAi plainWire {}) (fun _ => some ⟨200, none, []⟩)
    (responsesEnv fun _ => some ⟨200, none, []⟩) ⟨fun _ _ => rfl, fun _ _ => rfl⟩
    (fun _ _ => rfl) ⟨"turn"⟩ [] 1 {} freshRuntime).mpr ?_
  rintro ⟨-, ⟨-, hlost⟩ | hrefused⟩
  · exact absurd hlost (by decide)
  · exact absurd hrefused (by decide)

/-- The first request is refused with status 503, no later one. -/
def refusedOnce (now : ℕ) : HttpOutcome :=
  if now ≤ 4 then some ⟨503, some "overloaded", []⟩ else some ⟨200, none, []⟩

/-- **A refused request ends the turn**: it is not sent again. -/
theorem refused_request_is_not_retried :
    (exec (collectModelResponse (responsesEnv refusedOnce) ⟨"turn"⟩ [] 1 {})
        freshRuntime).1.toOption.isNone = true ∧
      (exec (collectModelResponse (responsesEnv refusedOnce) ⟨"turn"⟩ [] 1 {})
        freshRuntime).2.requests.length = 1 ∧
      ¬ EarlyFailuresRecovered (.openAi plainWire {}) refusedOnce freshRuntime
        (exec (collectModelResponse (responsesEnv refusedOnce) ⟨"turn"⟩ [] 1 {})
          freshRuntime).2 := by
  have hasks : (responsesEnv refusedOnce).Asks (.openAi plainWire {}) refusedOnce := fun _ _ => rfl
  have hrequests := collectModelResponse_requests ⟨"turn"⟩ [] 1 {} freshRuntime
    ⟨fun _ _ => rfl, fun _ _ => rfl⟩ hasks
  refine ⟨by decide +kernel, by rw [hrequests]; rfl, ?_⟩
  rintro ⟨⟨new, hnew, hrecovered⟩, -⟩
  rw [hrequests, List.append_cancel_left_eq] at hnew
  rw [← hnew, show maxProviderRequestRetries = 4 + 1 from rfl, recovered_singleton] at hrecovered
  exact hrecovered ⟨by decide, .inr (by decide)⟩

end Nanoclaw
