import Nanoclaw.Lib.Reducer
import Nanoclaw.Types.Event

/-!
# What Goes Over the Wire

What both providers share: access to the fields of a JSON payload, the errors of the provider
crate, and the response to an HTTP request. The JSON parser and the identifiers that are made up
are parameters.
-/

namespace Nanoclaw

namespace Value

def get (key : String) : Value → Option Value
  | .object fields => fields.lookup key
  | _ => none

def asStr : Value → Option String
  | .string value => some value
  | _ => none

/-- An integer literal that fits 64 bits. -/
def asU64 : Value → Option ℕ
  | .number literal =>
    let digits := literal.toList
    if !digits.isEmpty && digits.all Char.isDigit then
      (some (Nat.ofDigitChars 10 digits 0)).filter (· < 2 ^ 64)
    else none
  | _ => none

def asArray : Value → Option (List Value)
  | .array items => some items
  | _ => none

def asObject : Value → Option (List (String × Value))
  | .object fields => some fields
  | _ => none

/-- The field of an object, if it is a string. -/
def str (key : String) (value : Value) : Option String :=
  (value.get key).bind asStr

/-- The field of an object, if it is an integer. -/
def u64 (key : String) (value : Value) : Option ℕ :=
  (value.get key).bind asU64

/-- The field is left out, null or an empty object. -/
def isBlank : Option Value → Bool
  | none => true
  | some .null => true
  | some (.object []) => true
  | some _ => false

end Value

namespace Provider

/-! ### Errors -/

inductive ProviderError where
  | config (message : String)
  | protocol (message : String)
  | request (message : String)
  | json
  /-- An assertion of the source that does not hold. -/
  | panicked (message : String)

/-- No error of the crate itself carries a status, so none may be retried. -/
def ProviderError.toRuntimeError : ProviderError → RuntimeError
  | .config message => .modelBackend message none
  | .protocol message => .modelBackend message none
  | .request message => .modelBackend message none
  | .json => .modelBackend "failed to serialize or decode provider JSON payload" none
  | .panicked message => .external message

/-- `RuntimeError::model_backend_request`. -/
def modelBackendRequest (message : String) (statusCode : ℕ) (retryable : Bool) : RuntimeError :=
  .modelBackend message (if retryable then some statusCode else none)

/-! ### Parameters -/

/-- What the adapters take from libraries and from the request. -/
structure Wire where
  parseJson : String → Option Value
  /-- The identifier of a message that comes without one. -/
  freshMessageId : MessageId
  /-- The identifier of a call item that comes without one. -/
  freshCallId : Value → CallId
  /-- The origins of the tools of the request. -/
  toolOrigins : ToolName → Option ToolOrigin

/-! ### Responses -/

/-- An HTTP response: one text after a failure, else a stream of events. -/
structure HttpResponse where
  status : ℕ
  text : Option String
  events : List (Option String)

def HttpResponse.isSuccess (response : HttpResponse) : Bool :=
  200 ≤ response.status && response.status < 300

/-- What a request came to; without a response it could not be sent. -/
abbrev HttpOutcome : Type := Option HttpResponse

/-- The events with the error that stands for one that cannot be decoded. -/
def HttpResponse.decoded (response : HttpResponse) (message : String) :
    List (Except RuntimeError String) :=
  response.events.map fun event => event.elim
    (.error (ProviderError.request message).toRuntimeError) .ok

/-- The stream of a request: a failure ends it before its first event. -/
def streamOutcome (outcome : HttpOutcome) (unsent undecoded unread : String)
    (classify : ℕ → String → RuntimeError)
    (reduce : List (Except RuntimeError String) → List (Except RuntimeError ModelEvent)) :
    List (Except RuntimeError ModelEvent) :=
  match outcome with
  | none => [.error (ProviderError.request unsent).toRuntimeError]
  | some response =>
    if response.isSuccess then reduce (response.decoded undecoded)
    else
      match response.text with
      | none => [.error (ProviderError.request unread).toRuntimeError]
      | some body => [.error (classify response.status body)]

/-- A server-sent event: the marker of the end, or a JSON payload. -/
def decodeData (wire : Wire) (unparsed data : String) : Reducer.Decoded Value RuntimeError :=
  if data = "[DONE]" then .stop
  else (wire.parseJson data).elim (.bad (ProviderError.protocol unparsed).toRuntimeError) .payload

/-! ### Token usage -/

def usageIsZero (usage : TokenUsage) : Bool := usage = {}

def usageFromInputOutput (inputTokens outputTokens cacheReadTokens : ℕ) : TokenUsage where
  inputTokens
  outputTokens
  prefillTokens := inputTokens - cacheReadTokens
  decodeTokens := outputTokens
  cacheReadTokens

/-- A usage that is zero is not reported. -/
def reportedUsage (usage : TokenUsage) : Option TokenUsage :=
  if usageIsZero usage then none else some usage

end Provider

end Nanoclaw
