/-
  Invocation runtime (`app/invocations.py`): idempotency, deadlines, lifecycle events.

  `accept` creates the invocation or returns the one its key already has; `execute` runs the adapter
  and persists the terminal state.  The three writes an invocation goes through are functions of the
  row before: `newInvocation`, `started`, `finished`, each committed with the event `emitted` builds
  from the row after it.
-/
import FavlGateway.Registry.Transitions

namespace FavlGateway.Registry

open FavlGateway.Library

/-! ## Who may be invoked -/

/-- `_REFUSAL`: how each non-executable state is reported. -/
def refusalFor (status : ConnectorState) : ErrorCode × Nat :=
  match status with
  | .revoked => (.connectorRevoked, 403)
  | .deletionRequested => (.connectorDeletionPending, 409)
  | .archived => (.connectorGone, 410)
  | .deleted => (.connectorGone, 410)
  | .draft => (.connectorNotValidated, 409)
  | .installed => (.connectorNotValidated, 409)
  | .configured => (.connectorNotValidated, 409)
  | .validated => (.connectorNotValidated, 409)
  | .disabled => (.connectorDisabled, 409)
  -- unmapped: the default of `_REFUSAL.get`
  | .enabled => (.connectorDisabled, 409)

/-- `check_executable`: the guard decides, the mapping only words the refusal. -/
def checkExecutable (record : ConnectorRecord) : Handler Unit :=
  if isExecutable record.status.value then .ret ()
  else .raise (.connectorNotExecutable record.status.value (refusalFor record.status).1
    (refusalFor record.status).2)

/-! ## Events -/

/-- `round(…, 3)` of a number of milliseconds. -/
def jsonMillis (ms : ℚ) : Json String := .number (.float (roundDigits ms 3))

/-- The payload of a lifecycle event: never secrets, never provider bodies. -/
def eventPayload (record : InvocationRecord) : Dict String :=
  [("invocation_id", jsonStr (uuidText record.id)),
    ("connector_id", jsonStr (uuidText record.connectorId)),
    ("connector_version", jsonInt record.connectorVersion),
    ("adapter_kind", jsonStr record.adapterKind.value),
    ("tenant_id", jsonStr record.tenantId), ("actor_id", jsonStr record.actorId),
    ("operation", jsonStr record.operation), ("status", jsonStr record.status.value),
    ("attempt", jsonInt record.attempt)] ++
  (match record.traceId with
    | some t => if t = "" then [] else [("trace_id", jsonStr t)]
    | none => []) ++
  (match record.errorCode with
    | some c => [("error_code", jsonStr c.value), ("retryable", .ofOption .bool record.retryable)]
    | none => []) ++
  (match record.durationMs with
    | some ms => [("duration_ms", jsonMillis ms)]
    | none => [])

/-- `_emit`: the event staged for a row. -/
def emitted (id : Uuid) (record : InvocationRecord) (eventType : String) : OutboxEvent :=
  outboxEvent id eventType "invocation" record.id record.aggregateVersion
    (.obj (eventPayload record))

def acceptedEvent : String := "connector.invocation.accepted"

def startedEvent : String := "connector.invocation.started"

/-- `TERMINAL_EVENT`; `none` where the lookup raises `KeyError`. -/
def terminalEvent : InvocationStatus → Option String
  | .succeeded => some "connector.invocation.succeeded"
  | .timedOut => some "connector.invocation.timed_out"
  | .failedRetryable => some "connector.invocation.failed"
  | .failedTerminal => some "connector.invocation.failed"
  | .cancelled => some "connector.invocation.failed"
  | .accepted => none
  | .running => none

/-! ## The three rows of an invocation -/

/-- What the caller of `accept` decides about the new invocation. -/
structure AcceptArgs where
  operation : String
  idempotencyKey : String
  actorId : String
  tenantId : String
  timeoutSeconds : ℚ
  traceId : Option String

/-- The row `accept` inserts. -/
def newInvocation (env : Env) (connector : ConnectorRecord) (args : AcceptArgs) :
    InvocationRecord where
  id := env.uuid4 0
  connectorId := connector.id
  connectorVersion := connector.version
  adapterKind := connector.kind
  idempotencyKey := args.idempotencyKey
  actorId := args.actorId
  tenantId := args.tenantId
  operation := args.operation
  status := .accepted
  attempt := 1
  aggregateVersion := 1
  deadlineAt := addSeconds (env.utcnow 0) args.timeoutSeconds
  traceId := args.traceId
  createdAt := env.utcnow 1

/-- The row once the adapter is about to be called. -/
def started (env : Env) (record : InvocationRecord) : InvocationRecord :=
  { record with
    status := .running
    startedAt := some (env.utcnow 2)
    aggregateVersion := record.aggregateVersion + 1 }

/-- The row `_finalise` writes. -/
def finished (env : Env) (record : InvocationRecord) (result : InvocationResult) :
    InvocationRecord :=
  let now := env.utcnow 5
  { record with
    status := result.status
    completedAt := result.completedAt <|> some now
    startedAt := record.startedAt <|> result.startedAt <|> some now
    providerRequestId := result.providerRequestId
    errorCode := result.errorCode
    errorDetail := if result.errorDetail.isEmpty then none else some result.errorDetail
    retryable := some result.retryable
    output := if result.output.isEmpty then none else some result.output
    auditMetadata := result.auditMetadata
    aggregateVersion := record.aggregateVersion + 1 }

/-! ## `accept` -/

/-- An existing invocation matched by idempotency key. -/
structure ReplayedInvocation where
  record : InvocationRecord
  inFlight : Bool

/-- Create the invocation, or return the existing one for this key. -/
def accept (env : Env) (connector : ConnectorRecord) (args : AcceptArgs) :
    Handler (InvocationRecord × Option ReplayedInvocation) := do
  match ← await (.findExisting args.tenantId connector.id args.idempotencyKey) with
  | some existing => pure (existing, some ⟨existing, existing.status.inFlight⟩)
  | none =>
    let record := newInvocation env connector args
    await (.addInvocation record)
    match ← await .flush with
    | .error .integrity =>
      -- a concurrent request with the same key won the race: reuse its row
      await .rollback
      match ← await (.findExisting args.tenantId connector.id args.idempotencyKey) with
      | none => .raise (.db .integrity)
      | some existing => pure (existing, some ⟨existing, true⟩)
    | .error .data => .raise (.db .data)
    | .ok () =>
      await (.enqueue (emitted (env.uuid4 1) record acceptedEvent))
      commit
      pure (record, none)

/-! ## `execute` -/

/-- `_finalise` -/
def finalise (env : Env) (record : InvocationRecord) (result : InvocationResult) :
    Handler InvocationRecord := do
  let record := finished env record result
  await (.setInvocation record)
  match terminalEvent result.status with
  | none => .raise .keyError
  | some event =>
    await (.enqueue (emitted (env.uuid4 3) record event))
    commit
    pure record

/-- What the adapter is told about the connector. -/
def invocationContext (connector : ConnectorRecord) (record : InvocationRecord) :
    ConnectorContext where
  connectorId := connector.id
  connectorVersion := connector.version
  kind := connector.kind
  config := connector.config
  tenantId := record.tenantId

/-- What the adapter is asked. -/
def invocationRequest (connector : ConnectorRecord) (record : InvocationRecord)
    (payload : Dict String) : InvocationRequest where
  invocationId := record.id
  connectorId := connector.id
  operation := record.operation
  payload := payload
  idempotencyKey := record.idempotencyKey
  actorId := record.actorId
  tenantId := record.tenantId
  deadlineAt := record.deadlineAt
  traceId := record.traceId
  attempt := record.attempt

/-- The result recorded for what became of `adapter.invoke`; `startedAt` is the row's. -/
def outcomeResult (env : Env) (budget : ℚ) (startedAt : Option Time) :
    AdapterOutcome → InvocationResult
  | .result r => r
  | .timeout => .failure .upstreamTimeout
      (PyStr.ofString ("adapter exceeded the " ++ formatTenths budget ++ "s deadline"))
      startedAt (some (env.utcnow 4))
  | .exception typeName text => .failure .upstreamError
      ((typeName ++ (": " : PyStr) ++ text).take 500) startedAt (some (env.utcnow 4))

/-- The list of kinds, as Python prints it. -/
def registeredKindsText : String :=
  "[" ++ ", ".intercalate (registeredKinds.map fun k => "'" ++ k.value ++ "'") ++ "]"

/-- `str(UnknownAdapterKind(kind, known))` -/
def unknownKindText (kind : ConnectorKind) : String :=
  "no adapter registered for kind '" ++ kind.value ++ "'; registered kinds: " ++
    registeredKindsText

/-- Run the adapter and persist the terminal state with its event. -/
def execute (env : Env) (connector : ConnectorRecord) (record : InvocationRecord)
    (payload : Dict String) : Handler InvocationRecord := do
  if connector.kind ∉ registeredKinds then
    finalise env record
      (.failure .unknownKind (PyStr.ofString (unknownKindText connector.kind)) none none)
  else
    let record := started env record
    await (.setInvocation record)
    await (.enqueue (emitted (env.uuid4 2) record startedEvent))
    commit
    let context := invocationContext connector record
    let request := invocationRequest connector record payload
    let budget := request.secondsRemaining (env.utcnow 3)
    await (.callAdapter (.invoke request context))
    finalise env record
      (outcomeResult env budget record.startedAt (env.invoke request context))

end FavlGateway.Registry
