/-
  The public API contract (`app/schemas.py`), the caller's identity, and how a request can end.

  A payload type carries the constraints its pydantic model enforces before the handler runs, so an
  invalid payload cannot be built.  `Exc` is every exception a handler can let escape; `Response` is
  what the client sees, with `Exc.respond` the translation FastAPI and the registered handlers make.
-/
import FavlGateway.Library.Binary64
import FavlGateway.Registry.Adapters
import FavlGateway.Registry.Redaction

namespace FavlGateway.Registry

open FavlGateway.Library

/-- The verified caller (`app/identity.py`). -/
structure CallerIdentity where
  actorId : String
  tenantId : String
  verified : Bool := true
  deriving DecidableEq

/-! ## Payloads -/

/-- Config keys that would carry a literal secret. -/
def forbiddenConfigKeys : List String :=
  ["signing_secret", "api_key", "password", "token", "client_secret", "private_key"]

/-- Settings that would WIDEN outbound reach. -/
def operatorOnlyConfigKeys : List String :=
  ["allow_private_addresses", "allowed_schemes", "allow_plaintext_acknowledged"]

structure ConnectorCreate where
  name : String
  kind : ConnectorKind
  baseUrl : Option String := none
  scopes : List String := []
  config : Dict String := []
  status : ConnectorState := .enabled
  name_length : 2 ≤ name.length ∧ name.length ≤ 80
  /-- Creation has no source state, so the machine cannot police it. -/
  only_creatable_states : status ∈ creatableStates
  no_literal_secrets : ∀ k ∈ forbiddenConfigKeys, config.get? k = none
  no_privilege_escalation : ∀ k ∈ operatorOnlyConfigKeys, config.get? k = none

structure InvocationCreate where
  operation : String := ""
  payload : Dict String := []
  idempotencyKey : String
  timeoutSeconds : ℚ := 15
  operation_length : operation.length ≤ 255
  key_length : 8 ≤ idempotencyKey.length ∧ idempotencyKey.length ≤ 255
  timeout_range : 0 < timeoutSeconds ∧ timeoutSeconds ≤ 300

theorem enabled_creatable : ConnectorState.enabled ∈ creatableStates := by decide

theorem no_reason : ∀ r : String, none = some r → r.length ≤ 1024 := nofun

theorem no_key : ∀ k : String, none = some k → k.length ≤ 255 := nofun

/-- Body of every lifecycle transition endpoint; an absent body is the default. -/
structure TransitionRequest where
  reason : Option String := none
  idempotencyKey : Option String := none
  reason_length : ∀ r, reason = some r → r.length ≤ 1024 := by exact no_reason
  key_length : ∀ k, idempotencyKey = some k → k.length ≤ 255 := by exact no_key

/-! ## Documents -/

/-- A connector as it is published. -/
structure Connector where
  id : Uuid
  name : String
  kind : ConnectorKind
  baseUrl : Option String
  scopes : List String
  config : Dict String
  status : ConnectorState
  version : Nat
  createdAt : Time
  deletionRequestedAt : Option Time
  deletedAt : Option Time
  revokedAt : Option Time
  archivedAt : Option Time
  credentialsRotatedAt : Option Time
  stateReason : Option String
  supportsIdempotency : Bool
  idempotencyMode : IdempotencyMode
  deriving DecidableEq

/-- `_to_schema` -/
def toSchema (record : ConnectorRecord) : Connector where
  id := record.id
  name := record.name
  kind := record.kind
  baseUrl := record.baseUrl
  scopes := record.scopes
  -- redacted on every read path
  config := redactConfig record.config
  status := record.status
  version := record.version
  createdAt := record.createdAt
  deletionRequestedAt := record.deletionRequestedAt
  deletedAt := record.deletedAt
  revokedAt := record.revokedAt
  archivedAt := record.archivedAt
  credentialsRotatedAt := record.credentialsRotatedAt
  stateReason := record.stateReason
  supportsIdempotency := record.supportsIdempotency
  idempotencyMode := record.idempotencyMode

/-- The text of a UUID, as `str` gives it: 32 hexadecimal digits in five groups. -/
def uuidText (id : Uuid) : String :=
  let digits := (Nat.toDigits 16 id).leftpad 32 '0'
  String.ofList (digits.take 8) ++ "-" ++ String.ofList ((digits.drop 8).take 4) ++ "-" ++
    String.ofList ((digits.drop 12).take 4) ++ "-" ++ String.ofList ((digits.drop 16).take 4) ++
    "-" ++ String.ofList (digits.drop 20)

def jsonStr (s : String) : Json String := .str s

def jsonInt (n : Nat) : Json String := .number (.int n)

def jsonTime (t : Time) : Json String := .str (isoformatZ t)

/-- `connector.model_dump(mode="json")` -/
def Connector.modelDump (c : Connector) : Json String :=
  .obj
    [("id", jsonStr (uuidText c.id)), ("name", jsonStr c.name), ("kind", jsonStr c.kind.value),
      ("base_url", .ofOption jsonStr c.baseUrl), ("scopes", .arr (c.scopes.map jsonStr)),
      ("config", .obj c.config), ("status", jsonStr c.status.value), ("version", jsonInt c.version),
      ("created_at", jsonTime c.createdAt),
      ("deletion_requested_at", .ofOption jsonTime c.deletionRequestedAt),
      ("deleted_at", .ofOption jsonTime c.deletedAt),
      ("revoked_at", .ofOption jsonTime c.revokedAt),
      ("archived_at", .ofOption jsonTime c.archivedAt),
      ("credentials_rotated_at", .ofOption jsonTime c.credentialsRotatedAt),
      ("state_reason", .ofOption jsonStr c.stateReason),
      ("supports_idempotency", .bool c.supportsIdempotency),
      ("idempotency_mode", jsonStr c.idempotencyMode.value)]

/-- An invocation as it is published. -/
structure Invocation where
  id : Uuid
  connectorId : Uuid
  connectorVersion : Nat
  adapterKind : ConnectorKind
  idempotencyKey : String
  actorId : String
  tenantId : String
  operation : String
  status : InvocationStatus
  attempt : Nat
  deadlineAt : Time
  startedAt : Option Time
  completedAt : Option Time
  providerRequestId : Option PyStr
  errorCode : Option ErrorCode
  errorDetail : Option PyStr
  retryable : Option Bool
  traceId : Option String
  output : Option (Dict PyStr)
  durationMs : Option ℚ
  deriving DecidableEq

/-- `(completed_at - started_at).total_seconds() * 1000`, once both are known. -/
def InvocationRecord.durationMs (record : InvocationRecord) : Option ℚ :=
  match record.startedAt, record.completedAt with
  | some s, some c => some (nearestDouble (totalSeconds (c - s) * 1000))
  | _, _ => none

/-- `_invocation_schema` -/
def invocationSchema (record : InvocationRecord) : Invocation where
  id := record.id
  connectorId := record.connectorId
  connectorVersion := record.connectorVersion
  adapterKind := record.adapterKind
  idempotencyKey := record.idempotencyKey
  actorId := record.actorId
  tenantId := record.tenantId
  operation := record.operation
  status := record.status
  attempt := record.attempt
  deadlineAt := record.deadlineAt
  startedAt := record.startedAt
  completedAt := record.completedAt
  providerRequestId := record.providerRequestId
  errorCode := record.errorCode
  errorDetail := record.errorDetail
  retryable := record.retryable
  traceId := record.traceId
  output := record.output
  durationMs := record.durationMs

/-- One audit record as it is published. -/
structure AuditEntry where
  id : Uuid
  connectorId : Uuid
  fromState : String
  toState : String
  event : String
  actorId : String
  reason : Option String
  aggregateVersion : Nat
  recordedAt : Time
  deriving DecidableEq

def auditEntry (r : ConnectorAuditRecord) : AuditEntry where
  id := r.id
  connectorId := r.connectorId
  fromState := r.fromState
  toState := r.toState
  event := r.event
  actorId := r.actorId
  reason := r.reason
  aggregateVersion := r.aggregateVersion
  recordedAt := r.recordedAt

/-- The reply of the orchestrator-facing invoke endpoint. -/
structure InternalInvocation where
  invocationId : Uuid
  connectorId : Uuid
  connectorKind : ConnectorKind
  status : InvocationStatus
  errorCode : Option ErrorCode
  retryable : Option Bool
  output : Option (Dict PyStr)
  deriving DecidableEq

/-! ## How a request ends -/

/-- A response body. -/
inductive Body where
  | connector (c : Connector)
  | connectors (cs : List Connector)
  | audit (entries : List AuditEntry)
  | report (r : ValidationResult)
  | health (r : HealthResult)
  | invocation (v : Invocation)
  | invocations (vs : List Invocation)
  | internalInvocation (v : InternalInvocation)
  /-- `{"detail": …}`, the body of an `HTTPException` -/
  | detail (d : Json String)
  /-- the body `unknown_kind_handler` builds -/
  | unknownKind (kind : String) (registeredKinds : List String)
  | empty
  /-- an unhandled exception -/
  | internalServerError
  deriving DecidableEq

structure Response where
  statusCode : Nat
  body : Body
  deriving DecidableEq

/-- What a flush or a commit raises. -/
inductive DbError where
  /-- a UNIQUE or PRIMARY KEY violation -/
  | integrity
  /-- a value its column cannot hold -/
  | data
  deriving DecidableEq, Repr

/-- The exceptions of the service. -/
inductive Exc where
  | http (statusCode : Nat) (detail : Json String)
  | lookupError
  | transitionRejected (message current : String) (permitted : List String)
  | reasonRequired (message : String)
  | connectorNotExecutable (status : String) (code : ErrorCode) (httpStatus : Nat)
  | unknownAdapterKind (kind : String) (known : List String)
  | db (e : DbError)
  /-- reading an expired attribute outside an awaited session call -/
  | missingGreenlet
  | attributeError
  | typeError
  | keyError
  | invalidRequest
  /-- the process died -/
  | crashed
  deriving DecidableEq

/-- What the client sees of an escaped exception. -/
def Exc.respond : Exc → Response
  | .http statusCode detail => ⟨statusCode, .detail detail⟩
  | .unknownAdapterKind kind known => ⟨422, .unknownKind kind known⟩
  | _ => ⟨500, .internalServerError⟩

end FavlGateway.Registry
