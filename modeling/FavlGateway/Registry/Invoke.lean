/-
  `invoke` of the three registered adapters (`app/adapters/http.py`, `app/adapters/webhook.py`,
  `app/adapters/internal.py`), up to the guarded request and around it.

  Each `invoke` is two things laid over each other: what its `try` blocks do (`…Attempt`: resolve the
  secrets, build the policy, send the request), and what its `except` clauses make of an exception
  (`…Answer`).  They are kept apart here.  An attempt says WHY an invocation stops, whatever the
  clauses say about it afterwards; what the clauses do with a response, and with the exceptions of the
  guarded request, is `httpFinish` and its companions.
-/
import FavlGateway.Library.JsonText
import FavlGateway.Registry.Main
import FavlGateway.Registry.Validators

namespace FavlGateway.Registry

open FavlGateway.Library
open FavlGateway.Security (OutboundPolicy SecretError hashable buildPolicy)

/-! ## What an adapter meets -/

/-- The arguments of `outbound.request`. -/
structure GuardedRequest where
  method : Json PyStr
  url : Json PyStr
  policy : OutboundPolicy
  jsonBody : Json String := .null
  content : Option (List UInt8) := none
  headers : List (Json String × Json String)
  connectTimeout : ℚ
  readTimeout : ℚ
  totalTimeout : ℚ

structure Surroundings extends Gateway where
  started : Time
  completed : Time
  /-- `os.environ` -/
  environ : List Char → Option String
  /-- the service's own environment -/
  env : Env
  /-- the name of an exception's type, and its text -/
  describe : Security.Exc → PyStr × PyStr
  /-- `json.dumps(envelope, separators=(",", ":"), default=str).encode()` -/
  encode : Json String → List UInt8
  /-- `build_signature` -/
  buildSignature : String → String → String → List UInt8 → String
  decoder : BodyDecoder
  /-- how the guarded request ends -/
  send : GuardedRequest → Except OutboundError OutboundResponse

/-- What is raised in the `try` blocks of an `invoke`. -/
inductive Raised where
  | secret (e : SecretError)
  /-- `config["signing_secret_ref"]` is missing -/
  | keyError
  /-- `SSRFBlocked("service_not_registered", service)` -/
  | notRegistered (service : Json String)
  /-- by the guarded request -/
  | guarded (e : OutboundError)
  /-- anything else -/
  | crash (typeName text : PyStr)

/-- What the `try` blocks come to, if nothing is raised. -/
inductive Reached where
  /-- returned before anything was sent -/
  | early (r : InvocationResult)
  | response (r : OutboundResponse)

section Adapters

variable (S : Surroundings) (request : InvocationRequest) (context : ConnectorContext)

/-- Python raised an exception of its own. -/
def crashed (e : Security.Exc) : Raised := .crash (S.describe e).1 (S.describe e).2

/-- `request.seconds_remaining(started)` -/
def remaining : ℚ := request.secondsRemaining S.started

/-- `min(clamp_timeout(config.get(key), default), remaining)` -/
def phaseTimeout (key : String) (default : ℚ) : ℚ :=
  min (clampTimeout S.env ((context.config.get? key).getD .null) default) (remaining S request)

/-- The deadline has passed. -/
def tooLate : InvocationResult :=
  .failure .deadlineExceeded "deadline passed before dispatch" S.started S.completed

/-- `config.get(key, default)` -/
def itemOr (key : String) (default : Json String) : Json String :=
  (context.config.get? key).getD default

/-- `is_secret_reference` -/
def secretReference : Json String → Option String
  | .str s =>
    if ("secret://" :: Security.legacyPrefixes).any fun p => p.toList.isPrefixOf s.toList then some s
    else none
  | _ => none

/-- `self._secrets.resolve`, for the connector's own context -/
def resolveSecret (reference : String) : Except Raised String :=
  match Security.resolve S.environ reference (uuidText context.connectorId) context.tenantId with
  | .ok secret => .ok secret
  | .error e => .error (.secret e)

/-! ## HTTP -/

/-- `headers[key] = value` -/
def setItem (headers : List (Json String × Json String)) (key value : Json String) :
    List (Json String × Json String) :=
  if headers.any fun h => h.1 = key then headers.map fun h => if h.1 = key then (key, value) else h
  else headers ++ [(key, value)]

/-- `(config.get("headers") or {}).items()` -/
def headerItems : Except Raised (Dict String) :=
  match context.config.get? "headers" with
  | none => .ok []
  | some value =>
    if value.truthy String.isEmpty then
      match value with
      | .obj ms => .ok ms
      | _ => .error (crashed S .attributeError)
    else .ok []

/-- The value of one header: a secret's, or the literal. -/
def headerValue (value : Json String) : Except Raised (Json String) :=
  match secretReference value with
  | some reference => (resolveSecret S context reference).map .str
  | none => .ok value

def resolveHeaders : Dict String → List (Json String × Json String) →
    Except Raised (List (Json String × Json String))
  | [], headers => .ok headers
  | (key, value) :: rest, headers =>
    match headerValue S context value with
    | .error e => .error e
    | .ok value => resolveHeaders rest (setItem headers (.str key) value)

/-- The header the provider takes the idempotency key from. -/
def setIdempotency (headers : List (Json String × Json String)) :
    Except Raised (List (Json String × Json String)) :=
  let key := itemOr context "idempotency_header" .null
  if key.truthy String.isEmpty then
    if hashable key.toPy then .ok (setItem headers key (.str request.idempotencyKey))
    else .error (crashed S .typeError)
  else .ok headers

/-- The ids every request carries. -/
def setIds (headers : List (Json String × Json String)) : List (Json String × Json String) :=
  let headers :=
    setItem headers (.str "X-FAVL-Invocation-ID") (.str (uuidText request.invocationId))
  match request.traceId with
  | some trace =>
    if trace.isEmpty then headers else setItem headers (.str "X-FAVL-Trace-ID") (.str trace)
  | none => headers

/-- `HttpAdapter._headers` -/
def httpHeaders : Except Raised (List (Json String × Json String)) := do
  let items ← headerItems S context
  let headers ← resolveHeaders S context items
    [(.str "Content-Type", .str "application/json"), (.str "Accept", .str "application/json")]
  let headers ← setIdempotency S request context headers
  pure (setIds request headers)

/-- `{base_url}/{path}`, or `base_url` -/
def httpUrl : PyStr :=
  let base : PyStr :=
    ⟨(S.str (itemOr context "base_url" (.str "")).toPy).codepoints.rdropWhile (· = 0x2F)⟩
  let operation : PyStr :=
    if request.operation.isEmpty then S.str (itemOr context "path" (.str "")).toPy
    else PyStr.ofString request.operation
  let path : PyStr := ⟨operation.codepoints.dropWhile (· = 0x2F)⟩
  if path.isEmpty then base else base ++ "/" ++ path

/-- The `try` blocks of `HttpAdapter.invoke`. -/
def httpAttempt : Except Raised Reached :=
  if remaining S request ≤ 0 then .ok (.early (tooLate S))
  else do
    let headers ← httpHeaders S request context
    match httpPolicy S.toGateway (Json.toPyMembers context.config) with
    | .error e => .error (crashed S e)
    | .ok policy =>
      match S.send
        { method := (itemOr context "method" (.str "POST")).toPy
          url := .str (httpUrl S request context)
          policy := policy
          jsonBody := .obj request.payload
          headers := headers
          connectTimeout := phaseTimeout S request context "connect_timeout" 5
          readTimeout := phaseTimeout S request context "read_timeout" 10
          totalTimeout := remaining S request } with
      | .error e => .error (.guarded e)
      | .ok response => .ok (.response response)

/-- `str(SecretNotPermitted(reference, why))` -/
def notPermittedText (reference why : String) : PyStr :=
  PyStr.ofString ("secret reference " ++ reference ++ " is not permitted: " ++ why)

/-- The exception goes through to `execute`. -/
def Raised.escape : Raised → AdapterOutcome
  | secret (.notPermitted reference why) =>
    .exception "SecretNotPermitted" (notPermittedText reference why)
  | secret (.notFound reference) => .exception "SecretNotFound"
      (PyStr.ofString ("'secret reference not resolvable: " ++ reference ++ "'"))
  | keyError => .exception "KeyError" "'signing_secret_ref'"
  | notRegistered (.str service) =>
    .exception "SSRFBlocked" (PyStr.ofString ("service_not_registered: " ++ service))
  | notRegistered _ => .exception "SSRFBlocked" "service_not_registered"
  | guarded (.timeout typeName text) => .exception typeName text
  | guarded (.responseTooLarge text) => .exception "ResponseTooLarge" text
  | guarded (.contentTypeRejected text) => .exception "ContentTypeRejected" text
  | guarded (.tooManyRedirects text) => .exception "TooManyRedirects" text
  | guarded (.ssrfBlocked reason) => .exception "SSRFBlocked" reason
  | guarded (.httpError typeName text) => .exception typeName text
  | guarded (.other typeName text) => .exception typeName text
  | crash typeName text => .exception typeName text

/-- A secret that is not found. -/
def secretMissing (reference : String) : AdapterOutcome :=
  .result (.failure .secretNotFound (PyStr.ofString reference) S.started S.completed)

/-- What `HttpAdapter.invoke` makes of it. -/
def httpAnswer : Except Raised Reached → AdapterOutcome
  | .ok (.early r) => .result r
  | .ok (.response r) =>
    httpFinish S.decoder S.started S.completed (remaining S request) (.ok r)
  | .error (.secret (.notFound reference)) => secretMissing S reference
  | .error (.guarded e) =>
    httpFinish S.decoder S.started S.completed (remaining S request) (.error e)
  -- among the others: `SecretNotPermitted`
  | .error r => r.escape

/-! ## Webhook -/

/-- The secret that deliveries are signed with. -/
def signingSecret : Except Raised String :=
  match context.config.get? "signing_secret_ref" with
  | none => .error .keyError
  | some (.str reference) => resolveSecret S context reference
  -- only a text has `startswith`
  | some _ => .error (crashed S .attributeError)

/-- What is sent, and signed. -/
def envelope : Json String :=
  .obj
    [("event_id", .str (uuidText request.invocationId)),
      ("event_type",
        .str (if request.operation.isEmpty then "connector.webhook" else request.operation)),
      ("occurred_at", .str (isoformat S.started)),
      ("connector_id", .str (uuidText context.connectorId)),
      ("data", .obj request.payload)]

/-- `str(int(started.timestamp()))` -/
def timestamp : String := toString (S.started.tdiv 1000000)

/-- The headers of a delivery. -/
def webhookHeaders (secret : String) : List (Json String × Json String) :=
  let body := S.encode (envelope S request context)
  [(.str "Content-Type", .str "application/json"),
    (.str "X-FAVL-Event-ID", .str (uuidText request.invocationId)),
    (.str "X-FAVL-Timestamp", .str (timestamp S)),
    (.str "X-FAVL-Signature",
      .str (S.buildSignature secret (uuidText request.invocationId) (timestamp S) body)),
    (.str "X-FAVL-Delivery-Attempt", .str (toString request.attempt))]

/-- The `try` blocks of `WebhookAdapter.invoke`; the redirect budget is zero. -/
def webhookAttempt : Except Raised Reached :=
  if remaining S request ≤ 0 then .ok (.early (tooLate S))
  else do
    let secret ← signingSecret S context
    match context.config.get? "target_url" with
    | none => .error (.crash "KeyError" "'target_url'")
    | some url =>
      match httpPolicy S.toGateway (Json.toPyMembers context.config) with
      | .error e => .error (crashed S e)
      | .ok policy =>
        match S.send
          { method := .str "POST"
            url := url.toPy
            policy := { policy with maxRedirects := 0 }
            content := some (S.encode (envelope S request context))
            headers := webhookHeaders S request context secret
            connectTimeout := phaseTimeout S request context "connect_timeout" 5
            readTimeout := phaseTimeout S request context "read_timeout" 10
            totalTimeout := remaining S request } with
        | .error e => .error (.guarded e)
        | .ok response => .ok (.response response)

/-- `httpx.URL(config["target_url"]).host`; `none` where it raises -/
def targetHost : Option PyStr :=
  match context.config.get? "target_url" with
  | some (.str url) => S.platform.urlHost (PyStr.ofString url)
  | _ => none

/-- `WebhookAdapter.invoke`, from the guarded request on. -/
def delivered (r : Except OutboundError OutboundResponse) (host : PyStr) : AdapterOutcome :=
  webhookFinish S.started S.completed request.attempt
    (S.encode (envelope S request context)).length (host.toString?.getD "") r

/-- What `WebhookAdapter.invoke` makes of it. -/
def webhookAnswer : Except Raised Reached → AdapterOutcome
  | .ok (.early r) => .result r
  | .ok (.response r) =>
    match targetHost S context with
    | some host => delivered S request context (.ok r) host
    | none => (crashed S .invalidUrl).escape
  | .error (.secret (.notFound reference)) => secretMissing S reference
  | .error .keyError => secretMissing S "signing_secret_ref"
  | .error (.guarded e) => delivered S request context (.error e) ""
  -- among the others: `SecretNotPermitted`
  | .error r => r.escape

/-! ## Internal -/

/-- `self._registry.get(service)`, and `SSRFBlocked` if there is no such service. -/
def internalTarget : Except Raised PyStr :=
  let service := itemOr context "service" (.str "")
  if !hashable service.toPy then .error (crashed S .typeError)
  else
    match service with
    | .str name =>
      match registeredBase S.deployment (PyStr.ofString name) with
      | some base => .ok base
      | none => .error (.notRegistered service)
    | _ => .error (.notRegistered service)

/-- `_operation_error`, on whatever the configuration holds; `fullmatch` wants a text. -/
def invokedOperation : Except Raised (String × Option PyStr) :=
  match itemOr context "operation" (.str "") with
  | .str operation => .ok (operation, operationError S.toGateway (PyStr.ofString operation))
  | value =>
    if value.truthy String.isEmpty then .error (crashed S .typeError)
    else .ok ("", some "config.operation is required")

/-- `InternalAdapter._policy` -/
def internalPolicy (host : PyStr) : Except Security.Exc OutboundPolicy :=
  match S.deployment.int "INTERNAL_MAX_RESPONSE_BYTES" "1048576" with
  | .error e => .error e
  | .ok bytes => .ok
      { allowedHosts := [.str host]
        allowedSchemes := ["http", "https"]
        allowPrivateAddresses := true
        maxRedirects := 0
        maxResponseBytes := bytes }

/-- The guarded request of `InternalAdapter.invoke`. -/
def internalSend (base : PyStr) (operation : String) : Except Raised Reached :=
  let path : PyStr := ⟨(PyStr.ofString operation).codepoints.dropWhile (· = 0x2F)⟩
  let url : PyStr := base ++ "/" ++ path
  match S.platform.urlHost url with
  | none => .error (crashed S .invalidUrl)
  | some host =>
    match internalPolicy S host with
    | .error e => .error (crashed S e)
    | .ok policy =>
      match S.send
        { method := .str "POST"
          url := .str url
          policy := policy
          jsonBody := .obj request.payload
          headers :=
            [(.str "X-FAVL-Invocation-ID", .str (uuidText request.invocationId)),
              (.str "X-FAVL-Idempotency-Key", .str request.idempotencyKey),
              (.str "Content-Type", .str "application/json")]
          connectTimeout := min 2 (remaining S request)
          readTimeout := remaining S request
          totalTimeout := remaining S request } with
      | .error e => .error (.guarded e)
      | .ok response => .ok (.response response)

/-- The `try` blocks of `InternalAdapter.invoke`; the service is looked up before the deadline. -/
def internalAttempt : Except Raised Reached := do
  let base ← internalTarget S context
  if remaining S request ≤ 0 then .ok (.early (tooLate S))
  else do
    let (operation, error) ← invokedOperation S context
    match error with
    | some error =>
      .ok (.early (.failure .operationNotSupported error S.started S.completed))
    | none => internalSend S request base operation

/-- The operation a success is reported with. -/
def operationHint : String :=
  match itemOr context "operation" (.str "") with
  | .str operation => operation
  | _ => ""

/-- What `InternalAdapter.invoke` makes of it. -/
def internalAnswer : Except Raised Reached → AdapterOutcome
  | .ok (.early r) => .result r
  | .ok (.response r) =>
    internalFinish S.decoder S.started S.completed (operationHint context) (.ok r)
  | .error (.notRegistered (.str service)) =>
    .result (.failure .serviceNotRegistered (PyStr.ofString service) S.started S.completed)
  -- `detail[:1000]` of what is no text
  | .error (.notRegistered _) => (crashed S .typeError).escape
  | .error (.guarded e) => internalFinish S.decoder S.started S.completed "" (.error e)
  | .error r => r.escape

end Adapters

end FavlGateway.Registry
