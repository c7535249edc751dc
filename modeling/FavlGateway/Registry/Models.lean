/-
  The tables of the connector registry (`app/models.py`) and the database they form.

  A column constrained to an enumeration by a CHECK constraint has the enumeration as its type; a
  bounded or JSONB column keeps its text and its bound is part of `fits`.  `Rows` is any content of
  the four tables; `Db` is content that satisfies the schema: the UNIQUE and PRIMARY KEY constraints
  hold (`Rows.keys` has no duplicates; the surrogate ids of audit and outbox rows, which nothing is
  looked up by, are taken to be fresh) and every value fits its column (`Rows.fits`).  A commit builds a
  new `Db` or is refused, so no reachable state can violate a constraint, and nothing below has to
  prove it again.
-/
import FavlGateway.Library.Json
import FavlGateway.Library.Table
import FavlGateway.Registry.Lifecycle

namespace FavlGateway.Registry

open FavlGateway.Library

/-- A `uuid.UUID`, and the text it is rendered to: `str` on UUIDs loses nothing. -/
abbrev Uuid := Nat

/-- A timezone-aware instant, in microseconds since the epoch. -/
abbrev Time := Int

/-! ## What PostgreSQL accepts -/

/-- A text value PostgreSQL can store: no NUL, no lone surrogate. -/
def PyStr.storable (s : PyStr) : Bool :=
  s.codepoints.all fun c => c ≠ 0 ∧ ¬(0xD800 ≤ c ∧ c ≤ 0xDFFF)

/-- A value for a `VARCHAR(n)` column. -/
def PyStr.varchar (n : Nat) (s : PyStr) : Bool := s.length ≤ n && PyStr.storable s

/-- Text validated as Unicode, for a `TEXT` column. -/
def textFits (s : String) : Bool := PyStr.storable (PyStr.ofString s)

/-- Text validated as Unicode, for a `VARCHAR(n)` column. -/
def varcharFits (n : Nat) (s : String) : Bool := PyStr.varchar n (PyStr.ofString s)

/-- A value for an `INTEGER` column. -/
def int4Fits (n : Nat) : Bool := n ≤ 2147483647

/-- A nullable column. -/
def nullable {α : Type} (p : α → Bool) : Option α → Bool
  | none => true
  | some a => p a

/-! ## Enumerated columns -/

/-- `ConnectorKind` (`app/schemas.py`), and `ck_connectors_kind`. -/
inductive ConnectorKind where
  | http
  | mcp
  | webhook
  | internal
  deriving DecidableEq, Repr

def ConnectorKind.value : ConnectorKind → String
  | http => "http"
  | mcp => "mcp"
  | webhook => "webhook"
  | internal => "internal"

/-- How far an adapter can honour an idempotency key (`app/adapters/base.py`). -/
inductive IdempotencyMode where
  | providerKey
  | readOnly
  | gatewayDedupOnly
  | unsupported
  deriving DecidableEq, Repr

def IdempotencyMode.value : IdempotencyMode → String
  | providerKey => "provider_key"
  | readOnly => "read_only"
  | gatewayDedupOnly => "gateway_dedup_only"
  | unsupported => "unsupported"

/-- `InvocationStatus` (`app/adapters/base.py`), and `ck_invocations_status`. -/
inductive InvocationStatus where
  | accepted
  | running
  | succeeded
  | failedRetryable
  | failedTerminal
  | timedOut
  | cancelled
  deriving DecidableEq, Repr

namespace InvocationStatus

def value : InvocationStatus → String
  | accepted => "accepted"
  | running => "running"
  | succeeded => "succeeded"
  | failedRetryable => "failed_retryable"
  | failedTerminal => "failed_terminal"
  | timedOut => "timed_out"
  | cancelled => "cancelled"

/-- Accepted or running: the invocation has not been finalised. -/
def inFlight (s : InvocationStatus) : Bool := s = accepted ∨ s = running

end InvocationStatus

/-- Stable, classifiable failure reasons (`app/adapters/base.py`). -/
inductive ErrorCode where
  | configInvalid
  | unknownKind
  | connectorDisabled
  | connectorDeletionPending
  | connectorGone
  | connectorRevoked
  | connectorNotValidated
  | secretNotFound
  | ssrfBlocked
  | hostNotAllowed
  | upstreamTimeout
  | upstreamUnavailable
  | upstreamError
  | upstreamClientError
  | responseTooLarge
  | contentTypeRejected
  | tooManyRedirects
  | deadlineExceeded
  | serviceNotRegistered
  | operationNotSupported
  deriving DecidableEq, Repr

def ErrorCode.value : ErrorCode → String
  | configInvalid => "CONFIG_INVALID"
  | unknownKind => "UNKNOWN_KIND"
  | connectorDisabled => "CONNECTOR_DISABLED"
  | connectorDeletionPending => "CONNECTOR_DELETION_PENDING"
  | connectorGone => "CONNECTOR_GONE"
  | connectorRevoked => "CONNECTOR_REVOKED"
  | connectorNotValidated => "CONNECTOR_NOT_VALIDATED"
  | secretNotFound => "SECRET_NOT_FOUND"
  | ssrfBlocked => "SSRF_BLOCKED"
  | hostNotAllowed => "HOST_NOT_ALLOWED"
  | upstreamTimeout => "UPSTREAM_TIMEOUT"
  | upstreamUnavailable => "UPSTREAM_UNAVAILABLE"
  | upstreamError => "UPSTREAM_ERROR"
  | upstreamClientError => "UPSTREAM_CLIENT_ERROR"
  | responseTooLarge => "RESPONSE_TOO_LARGE"
  | contentTypeRejected => "CONTENT_TYPE_REJECTED"
  | tooManyRedirects => "TOO_MANY_REDIRECTS"
  | deadlineExceeded => "DEADLINE_EXCEEDED"
  | serviceNotRegistered => "SERVICE_NOT_REGISTERED"
  | operationNotSupported => "OPERATION_NOT_SUPPORTED"

/-! ## Rows -/

/-- A row of `connectors`. -/
structure ConnectorRecord where
  id : Uuid
  tenantId : String
  name : String
  kind : ConnectorKind
  baseUrl : Option String
  scopes : List String
  /-- Adapter-specific settings.  Secrets appear only as references. -/
  config : Dict String
  status : ConnectorState
  version : Nat := 1
  supportsIdempotency : Bool := false
  idempotencyMode : IdempotencyMode := .unsupported
  deletionRequestedAt : Option Time := none
  deletedAt : Option Time := none
  deletedBy : Option String := none
  revokedAt : Option Time := none
  archivedAt : Option Time := none
  credentialsRotatedAt : Option Time := none
  stateReason : Option String := none
  createdAt : Time
  deriving DecidableEq

def ConnectorRecord.fits (r : ConnectorRecord) : Bool :=
  varcharFits 255 r.tenantId && varcharFits 80 r.name && nullable (varcharFits 2048) r.baseUrl &&
  r.scopes.all textFits && (Json.obj r.config).storable textFits && int4Fits r.version &&
  nullable (varcharFits 255) r.deletedBy && nullable textFits r.stateReason

/-- A row of `invocations`: the persisted lifecycle of one invocation. -/
structure InvocationRecord where
  id : Uuid
  connectorId : Uuid
  /-- Pinned at invocation time, so the row reflects the connector as it was configured then. -/
  connectorVersion : Nat
  adapterKind : ConnectorKind
  idempotencyKey : String
  actorId : String
  tenantId : String
  operation : String
  status : InvocationStatus
  attempt : Nat := 1
  aggregateVersion : Nat := 1
  deadlineAt : Time
  startedAt : Option Time := none
  completedAt : Option Time := none
  providerRequestId : Option PyStr := none
  errorCode : Option ErrorCode := none
  errorDetail : Option PyStr := none
  retryable : Option Bool := none
  traceId : Option String := none
  /-- Stored so a repeated idempotency key returns the original result. -/
  output : Option (Dict PyStr) := none
  auditMetadata : Dict PyStr := []
  createdAt : Time
  deriving DecidableEq

def InvocationRecord.fits (r : InvocationRecord) : Bool :=
  int4Fits r.connectorVersion && varcharFits 255 r.idempotencyKey && varcharFits 255 r.actorId &&
  varcharFits 255 r.tenantId && varcharFits 255 r.operation && int4Fits r.attempt &&
  int4Fits r.aggregateVersion && nullable (PyStr.varchar 255) r.providerRequestId &&
  nullable (fun c => varcharFits 64 c.value) r.errorCode && nullable PyStr.storable r.errorDetail &&
  nullable (varcharFits 64) r.traceId &&
  nullable (fun d => (Json.obj d).storable PyStr.storable) r.output &&
  (Json.obj r.auditMetadata).storable PyStr.storable

/-- A row of `connector_audit`: one immutable lifecycle transition. -/
structure ConnectorAuditRecord where
  id : Uuid
  connectorId : Uuid
  tenantId : String
  fromState : String
  toState : String
  event : String
  actorId : String
  reason : Option String
  aggregateVersion : Nat
  idempotencyKey : Option String := none
  recordedAt : Time
  deriving DecidableEq

def ConnectorAuditRecord.fits (a : ConnectorAuditRecord) : Bool :=
  varcharFits 255 a.tenantId && varcharFits 24 a.fromState && varcharFits 24 a.toState &&
  varcharFits 64 a.event && varcharFits 255 a.actorId && nullable textFits a.reason &&
  int4Fits a.aggregateVersion && nullable (varcharFits 255) a.idempotencyKey

/-- A row of `outbox_events`, as the domain code stages it. -/
structure OutboxEvent where
  id : Uuid
  aggregateType : String
  aggregateId : Option Uuid
  aggregateVersion : Nat
  subject : String
  schemaVersion : Nat
  payload : Json String
  deriving DecidableEq

def OutboxEvent.fits (e : OutboxEvent) : Bool :=
  varcharFits 64 e.aggregateType && int4Fits e.aggregateVersion && varcharFits 255 e.subject &&
  e.payload.storable textFits

/-! ## Table contents and the schema's constraints -/

/-- A value of a UNIQUE or PRIMARY KEY index. -/
inductive RowKey where
  | connectorId (id : Uuid)
  /-- `uq_connectors_tenant_name` -/
  | connectorName (tenantId name : String)
  /-- `uq_connector_audit_version` -/
  | auditVersion (connectorId : Uuid) (version : Nat)
  | invocationId (id : Uuid)
  /-- `uq_invocations_idempotency` -/
  | invocationKey (tenantId : String) (connectorId : Uuid) (key : String)
  deriving DecidableEq

def ConnectorRecord.keys (r : ConnectorRecord) : List RowKey :=
  [.connectorId r.id, .connectorName r.tenantId r.name]

def ConnectorAuditRecord.key (a : ConnectorAuditRecord) : RowKey :=
  .auditVersion a.connectorId a.aggregateVersion

def InvocationRecord.keys (r : InvocationRecord) : List RowKey :=
  [.invocationId r.id, .invocationKey r.tenantId r.connectorId r.idempotencyKey]

/-- Any content of the four tables, each in insertion order. -/
@[ext]
structure Rows where
  connectors : List ConnectorRecord := []
  audit : List ConnectorAuditRecord := []
  invocations : List InvocationRecord := []
  outbox : List OutboxEvent := []

namespace Rows

/-- All index values in use. -/
def keys (r : Rows) : List RowKey :=
  r.connectors.flatMap ConnectorRecord.keys ++ r.audit.map ConnectorAuditRecord.key ++
    r.invocations.flatMap InvocationRecord.keys

/-- Every value fits its column. -/
def fits (r : Rows) : Bool :=
  r.connectors.all ConnectorRecord.fits && r.audit.all ConnectorAuditRecord.fits &&
    r.invocations.all InvocationRecord.fits && r.outbox.all OutboxEvent.fits

/-- The schema's constraints. -/
def Valid (r : Rows) : Prop := r.keys.Nodup ∧ r.fits = true

instance (r : Rows) : Decidable r.Valid := inferInstanceAs (Decidable (_ ∧ _))

def append (r r' : Rows) : Rows where
  connectors := r.connectors ++ r'.connectors
  audit := r.audit ++ r'.audit
  invocations := r.invocations ++ r'.invocations
  outbox := r.outbox ++ r'.outbox

instance : Append Rows := ⟨append⟩

@[simp] theorem append_connectors (r r' : Rows) :
    (r ++ r').connectors = r.connectors ++ r'.connectors := rfl

@[simp] theorem append_audit (r r' : Rows) : (r ++ r').audit = r.audit ++ r'.audit := rfl

@[simp] theorem append_invocations (r r' : Rows) :
    (r ++ r').invocations = r.invocations ++ r'.invocations := rfl

@[simp] theorem append_outbox (r r' : Rows) : (r ++ r').outbox = r.outbox ++ r'.outbox := rfl

@[simp] theorem append_empty (r : Rows) : r ++ {} = r := by
  ext1 <;> simp

@[simp] theorem empty_append (r : Rows) : ({} : Rows) ++ r = r := by
  ext1 <;> simp

end Rows

/-- The committed database: table contents that satisfy the schema. -/
structure Db extends Rows where
  valid : toRows.Valid

namespace Db

/-- The row of `connectors` with this primary key. -/
def connector (db : Db) (id : Uuid) : Option ConnectorRecord :=
  lookup ConnectorRecord.id db.connectors id

/-- The row of `invocations` with this primary key. -/
def invocation (db : Db) (id : Uuid) : Option InvocationRecord :=
  lookup InvocationRecord.id db.invocations id

/-- The row of `invocations` with this idempotency key. -/
def invocationByKey (db : Db) (tenantId : String) (connectorId : Uuid) (key : String) :
    Option InvocationRecord :=
  db.invocations.find? fun r =>
    r.tenantId = tenantId ∧ r.connectorId = connectorId ∧ r.idempotencyKey = key

/-- The audit trail of one connector, in insertion order. -/
def auditOf (db : Db) (id : Uuid) : List ConnectorAuditRecord :=
  db.audit.filter fun a => a.connectorId = id

/-- The outbox events of one connector, in commit order. -/
def connectorEvents (db : Db) (id : Uuid) : List OutboxEvent :=
  db.outbox.filter fun e => e.aggregateType = "connector" ∧ e.aggregateId = some id

/-- The outbox events of one invocation, in commit order. -/
def invocationEvents (db : Db) (id : Uuid) : List OutboxEvent :=
  db.outbox.filter fun e => e.aggregateType = "invocation" ∧ e.aggregateId = some id

/-- The database of a fresh deployment. -/
def empty : Db := { toRows := {}, valid := by decide }

@[ext] theorem ext {db db' : Db} (h : db.toRows = db'.toRows) : db = db' := by
  cases db
  cases db'
  cases h
  rfl

end Db
end FavlGateway.Registry
