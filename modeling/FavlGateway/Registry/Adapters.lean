/-
  The connector adapter contract (`app/adapters/base.py`) and what the three registered adapters
  make of a provider's answer.

  `InvocationResult` is the contract's result; `AdapterOutcome` is everything `execute` can see of
  `adapter.invoke`: a result, the deadline expiring around it, or any other exception.

  `httpFinish`, `internalFinish` and `webhookFinish` are the parts of the adapters' `invoke` after
  the guarded request (`security/outbound.py`): what each one reports for a response, and for each
  exception its `except` clauses name.  An exception no clause names escapes to `execute`.
-/
import FavlGateway.Library.Binary64
import FavlGateway.Registry.Models

namespace FavlGateway.Registry

open FavlGateway.Library

/-! ## The contract -/

/-- Failures worth retrying. -/
def retryableCodes : List ErrorCode := [.upstreamTimeout, .upstreamUnavailable, .upstreamError]

/-- The outcome of `validate_config`. -/
structure ValidationResult where
  valid : Bool
  errors : List String := []
  supportsIdempotency : Bool := false
  idempotencyMode : IdempotencyMode := .unsupported
  deriving DecidableEq

/-- The outcome of `health_check`. -/
structure HealthResult where
  healthy : Bool
  detail : PyStr := ⟨[]⟩
  checkedAt : Option Time := none
  latencyMs : Option ℚ := none
  deriving DecidableEq

/-- Everything the adapter may know about the connector it is serving. -/
structure ConnectorContext where
  connectorId : Uuid
  connectorVersion : Nat
  kind : ConnectorKind
  config : Dict String
  tenantId : String := "default"
  deriving DecidableEq

/-- One request to an adapter. -/
structure InvocationRequest where
  invocationId : Uuid
  connectorId : Uuid
  operation : String
  payload : Dict String
  idempotencyKey : String
  actorId : String
  tenantId : String
  deadlineAt : Time
  traceId : Option String
  attempt : Nat
  deriving DecidableEq

/-- Seconds until the deadline, never negative. -/
def InvocationRequest.secondsRemaining (r : InvocationRequest) (now : Time) : ℚ :=
  max 0 (totalSeconds (r.deadlineAt - now))

/-- What an adapter reports back. -/
structure InvocationResult where
  status : InvocationStatus
  output : Dict PyStr := []
  errorCode : Option ErrorCode := none
  errorDetail : PyStr := ⟨[]⟩
  retryable : Bool := false
  providerRequestId : Option PyStr := none
  startedAt : Option Time := none
  completedAt : Option Time := none
  auditMetadata : Dict PyStr := []
  deriving DecidableEq

/-- A classified failure; the code alone decides status and retryability. -/
def InvocationResult.failure (code : ErrorCode) (detail : PyStr) (startedAt completedAt : Option Time)
    (providerRequestId : Option PyStr := none) (auditMetadata : Dict PyStr := []) :
    InvocationResult where
  status :=
    if code = .upstreamTimeout ∨ code = .deadlineExceeded then .timedOut
    else if code ∈ retryableCodes then .failedRetryable
    else .failedTerminal
  errorCode := some code
  errorDetail := detail.take 1000
  retryable := code ∈ retryableCodes
  startedAt := startedAt
  completedAt := completedAt
  providerRequestId := providerRequestId
  auditMetadata := auditMetadata

/-- What `execute` observes of `adapter.invoke` under its deadline. -/
inductive AdapterOutcome where
  | result (r : InvocationResult)
  /-- `asyncio.wait_for` gave up, or the adapter raised `TimeoutError`. -/
  | timeout
  /-- Any other exception: its type's name and its text. -/
  | exception (typeName text : PyStr)
  deriving DecidableEq

/-- A call the service makes on an adapter, as the outside world sees it. -/
inductive AdapterCall where
  | validateConfig (kind : ConnectorKind) (config : Dict String)
  | healthCheck (context : ConnectorContext)
  | invoke (request : InvocationRequest) (context : ConnectorContext)
  deriving DecidableEq

/-- The kinds with a registered adapter, sorted (`AdapterRegistry.kinds`); MCP is absent. -/
def registeredKinds : List ConnectorKind := [.http, .internal, .webhook]

/-! ## What a guarded request can come back with -/

/-- The parts of a provider's response the adapters read. -/
structure OutboundResponse where
  statusCode : Nat
  body : List UInt8
  /-- `response.headers.get("x-request-id")` -/
  xRequestId : Option PyStr
  /-- `response.headers.get("x-correlation-id")` -/
  xCorrelationId : Option PyStr
  redirects : Nat

/-- The provider's request id: the first of the two headers that is present and not empty. -/
def OutboundResponse.providerRequestId (r : OutboundResponse) : Option PyStr :=
  match r.xRequestId with
  | some v => if v.isEmpty then r.xCorrelationId else some v
  | none => r.xCorrelationId

/-- The exceptions of a guarded request, with their text. -/
inductive OutboundError where
  /-- `httpx.TimeoutException` -/
  | timeout (typeName text : PyStr)
  | responseTooLarge (text : PyStr)
  | contentTypeRejected (text : PyStr)
  | tooManyRedirects (text : PyStr)
  | ssrfBlocked (reason : PyStr)
  /-- any other `httpx.HTTPError` -/
  | httpError (typeName text : PyStr)
  /-- anything else -/
  | other (typeName text : PyStr)

/-- How a body is decoded: Python's `json.loads` (`none` where it raises `ValueError`) and
    `body.decode("utf-8", "replace")`. -/
structure BodyDecoder where
  loads : List UInt8 → Option (Json PyStr)
  decode : List UInt8 → PyStr

namespace BodyDecoder

/-- `{}` for no body, the parsed value, or the raw text of what is not JSON. -/
def parse (D : BodyDecoder) (body : List UInt8) : Json PyStr :=
  if body.isEmpty then .obj []
  else match D.loads body with
    | some v => v
    | none => .obj [("raw", .str ((D.decode body).take 4000))]

/-- The parsed body as an object; any other value is wrapped. -/
def output (D : BodyDecoder) (body : List UInt8) : Dict PyStr :=
  match D.parse body with
  | .obj ms => ms
  | v => [("result", v)]

end BodyDecoder

def jsonNat (n : Nat) : Json PyStr := .number (.int n)

/-! ## The three adapters after the request -/

section Finish

variable (D : BodyDecoder) (started completed : Time)

/-- The http adapter's classification of a status that is not a success. -/
def httpErrorCode (statusCode : Nat) : ErrorCode :=
  if statusCode ∈ [408, 429, 502, 503, 504] then .upstreamUnavailable
  else if 400 ≤ statusCode ∧ statusCode < 500 then .upstreamClientError
  else .upstreamError

/-- `HttpAdapter.invoke`, from the guarded request on. -/
def httpFinish (remaining : ℚ) : Except OutboundError OutboundResponse → AdapterOutcome
  | .error (.timeout typeName _) => .result (.failure .upstreamTimeout typeName started completed
      none [("timeout_budget_seconds", .number (.float (roundDigits remaining 3)))])
  | .error (.responseTooLarge text) =>
    .result (.failure .responseTooLarge text started completed)
  | .error (.contentTypeRejected text) =>
    .result (.failure .contentTypeRejected text started completed)
  | .error (.tooManyRedirects text) =>
    .result (.failure .tooManyRedirects text started completed)
  | .error (.ssrfBlocked reason) => .result (.failure .ssrfBlocked reason started completed)
  | .error (.httpError typeName text) =>
    .result (.failure .upstreamUnavailable ((typeName ++ (": " : PyStr) ++ text).take 300)
      started completed)
  | .error (.other typeName text) => .exception typeName text
  | .ok response =>
    if 200 ≤ response.statusCode ∧ response.statusCode < 300 then
      .result
        { status := .succeeded
          output := D.output response.body
          providerRequestId := response.providerRequestId
          startedAt := started
          completedAt := completed
          auditMetadata := [("http_status", jsonNat response.statusCode),
            ("redirects", jsonNat response.redirects),
            ("response_bytes", jsonNat response.body.length)] }
    else
      .result (.failure (httpErrorCode response.statusCode)
        (PyStr.ofString s!"HTTP {response.statusCode}") started completed
        response.providerRequestId [("http_status", jsonNat response.statusCode)])

/-- `InternalAdapter.invoke`, from the guarded request on, with `_classify`. -/
def internalFinish (operation : String) : Except OutboundError OutboundResponse → AdapterOutcome
  | .error (.timeout _ text) => .result (.failure .upstreamTimeout text started completed)
  | .error (.responseTooLarge text) =>
    .result (.failure .responseTooLarge text started completed)
  | .error (.ssrfBlocked reason) => .result (.failure .ssrfBlocked reason started completed)
  | .error (.httpError typeName text) =>
    .result (.failure .upstreamUnavailable (typeName ++ (": " : PyStr) ++ text) started completed)
  -- no clause names these two
  | .error (.contentTypeRejected text) => .exception "ContentTypeRejected" text
  | .error (.tooManyRedirects text) => .exception "TooManyRedirects" text
  | .error (.other typeName text) => .exception typeName text
  | .ok response =>
    if 200 ≤ response.statusCode ∧ response.statusCode < 300 then
      .result
        { status := .succeeded
          output := D.output response.body
          providerRequestId := response.providerRequestId
          startedAt := started
          completedAt := completed
          auditMetadata := [("http_status", jsonNat response.statusCode),
            ("redirects", jsonNat response.redirects), ("operation", .str operation)] }
    else
      .result (.failure
        (if 400 ≤ response.statusCode ∧ response.statusCode < 500 then .upstreamClientError
          else .upstreamError)
        (PyStr.ofString s!"HTTP {response.statusCode}") started completed
        response.providerRequestId [("http_status", jsonNat response.statusCode)])

/-- The webhook's delivery record: what was sent, without the body or the secret. -/
def webhookAudit (attempt signedBytes : Nat) (targetHost : String) (statusCode : Nat) :
    Dict PyStr :=
  [("http_status", jsonNat statusCode), ("delivery_attempt", jsonNat attempt),
    ("signed_bytes", jsonNat signedBytes), ("signature_version", .str "v1"),
    ("target_host", .str targetHost)]

/-- `WebhookAdapter.invoke`, from the guarded request on. -/
def webhookFinish (attempt signedBytes : Nat) (targetHost : String) :
    Except OutboundError OutboundResponse → AdapterOutcome
  | .error (.timeout _ _) =>
    .result (.failure .upstreamTimeout "webhook delivery timed out" started completed)
  | .error (.responseTooLarge text) =>
    .result (.failure .responseTooLarge text started completed)
  | .error (.ssrfBlocked reason) => .result (.failure .ssrfBlocked reason started completed)
  | .error (.httpError typeName _) =>
    .result (.failure .upstreamUnavailable (typeName.take 200) started completed)
  -- no clause names these two
  | .error (.contentTypeRejected text) => .exception "ContentTypeRejected" text
  | .error (.tooManyRedirects text) => .exception "TooManyRedirects" text
  | .error (.other typeName text) => .exception typeName text
  | .ok response =>
    if 200 ≤ response.statusCode ∧ response.statusCode < 300 then
      .result
        { status := .succeeded
          output := [("delivered", .bool true), ("http_status", jsonNat response.statusCode)]
          providerRequestId := response.providerRequestId
          startedAt := started
          completedAt := completed
          auditMetadata := webhookAudit attempt signedBytes targetHost response.statusCode }
    else
      .result (.failure (httpErrorCode response.statusCode)
        (PyStr.ofString s!"HTTP {response.statusCode}") started completed
        response.providerRequestId
        (webhookAudit attempt signedBytes targetHost response.statusCode))

end Finish
end FavlGateway.Registry
