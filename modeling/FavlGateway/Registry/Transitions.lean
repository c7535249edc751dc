/-
  Applying a lifecycle transition (`app/transitions.py`), and the environment a request runs in.

  One function, `apply`, is used by every transition endpoint and by validation.  `advance` is its
  assignment block; the audit row and the event it stages are functions of the row as it was read
  and of the edge that was found, so that the three accounts of one transition can be compared.

  An `Env` fixes what a request meets outside the registry: generated ids and clock readings in the
  order it asks for them, the verdicts of the adapters, operator settings, and the Python built-ins
  whose value only ever ends up in a text or a derived key.
-/
import FavlGateway.Registry.Session

namespace FavlGateway.Registry

open FavlGateway.Library

/-- What one request meets outside the registry. -/
structure Env where
  /-- `uuid.uuid4()`, by call -/
  uuid4 : Nat → Uuid
  /-- `datetime.now(UTC)`, by call -/
  utcnow : Nat → Time
  validateConfig : ConnectorKind → Dict String → ValidationResult
  healthCheck : ConnectorContext → HealthResult
  invoke : InvocationRequest → ConnectorContext → AdapterOutcome
  /-- `INTERNAL_SERVICE_TOKEN` -/
  internalServiceToken : String
  /-- `timeout_ceiling()` -/
  timeoutCeiling : ℚ
  /-- `str(value)` -/
  str : Json String → String
  /-- `repr` of a list of items -/
  repr : List (String × Json String) → String
  /-- `uuid.uuid5(uuid.NAMESPACE_OID, name)` -/
  uuid5 : String → Uuid
  /-- `float(value)`; `none` where it raises or is not finite -/
  float : Json String → Option ℚ

/-! ## The assignments of a transition -/

/-- `TIMESTAMP_COLUMN`: the column a state change stamps, set to `now`. -/
def stamp (target : ConnectorState) (now : Time) (record : ConnectorRecord) : ConnectorRecord :=
  match target with
  | .revoked => { record with revokedAt := some now }
  | .archived => { record with archivedAt := some now }
  | .deletionRequested => { record with deletionRequestedAt := some now }
  | _ => record

/-- The attributes of the connector after the transition; `find` only returns edges into the
    requested target, so `transition.target` is the caller's `target`. -/
def advance (env : Env) (record : ConnectorRecord) (transition : Transition)
    (reason : Option String) : ConnectorRecord :=
  let record := { record with
    status := transition.target
    version := record.version + 1
    stateReason := reason }
  let record := stamp transition.target (env.utcnow 0) record
  if transition.event = .credentialsRotated then
    { record with credentialsRotatedAt := some (env.utcnow 1) }
  else record

section Advance

variable (env : Env) (record : ConnectorRecord) (tr : Transition) (reason : Option String)

@[simp] theorem advance_id : (advance env record tr reason).id = record.id := by
  unfold advance stamp; grind

@[simp] theorem advance_tenantId : (advance env record tr reason).tenantId = record.tenantId := by
  unfold advance stamp; grind

@[simp] theorem advance_name : (advance env record tr reason).name = record.name := by
  unfold advance stamp; grind

@[simp] theorem advance_kind : (advance env record tr reason).kind = record.kind := by
  unfold advance stamp; grind

@[simp] theorem advance_config : (advance env record tr reason).config = record.config := by
  unfold advance stamp; grind

@[simp] theorem advance_baseUrl : (advance env record tr reason).baseUrl = record.baseUrl := by
  unfold advance stamp; grind

@[simp] theorem advance_scopes : (advance env record tr reason).scopes = record.scopes := by
  unfold advance stamp; grind

@[simp] theorem advance_deletedBy :
    (advance env record tr reason).deletedBy = record.deletedBy := by
  unfold advance stamp; grind

@[simp] theorem advance_status : (advance env record tr reason).status = tr.target := by
  unfold advance stamp; grind

@[simp] theorem advance_version :
    (advance env record tr reason).version = record.version + 1 := by
  unfold advance stamp; grind

end Advance

/-- The audit row of a transition. -/
def transitionAudit (env : Env) (record : ConnectorRecord) (transition : Transition)
    (actorId tenantId : String) (reason idempotencyKey : Option String) :
    ConnectorAuditRecord where
  id := env.uuid4 0
  connectorId := record.id
  tenantId := tenantId
  fromState := record.status.value
  toState := transition.target.value
  event := transition.event.value
  actorId := actorId
  reason := reason
  aggregateVersion := record.version + 1
  idempotencyKey := idempotencyKey
  recordedAt := env.utcnow 2

/-- `enqueue` with the schema version of the envelope. -/
def outboxEvent (id : Uuid) (subject aggregateType : String) (aggregateId : Uuid)
    (aggregateVersion : Nat) (payload : Json String) : OutboxEvent where
  id := id
  aggregateType := aggregateType
  aggregateId := some aggregateId
  aggregateVersion := aggregateVersion
  subject := subject
  schemaVersion := 1
  payload := payload

/-- The event of a transition. -/
def transitionEvent (env : Env) (record : ConnectorRecord) (transition : Transition)
    (actorId tenantId : String) (reason : Option String) : OutboxEvent :=
  outboxEvent (env.uuid4 1) transition.event.value "connector" record.id (record.version + 1) <|
    .obj
      [("connector_id", jsonStr (uuidText record.id)), ("name", jsonStr record.name),
        ("tenant_id", jsonStr tenantId), ("from_state", jsonStr record.status.value),
        ("to_state", jsonStr transition.target.value), ("actor_id", jsonStr actorId),
        ("reason", .ofOption jsonStr reason)]

/-! ## `apply` -/

structure TransitionResult where
  connector : ConnectorRecord
  event : ConnectorEvent
  /-- The connector already held the target state: no new version, no event. -/
  repeated : Bool

/-- The motive of an operationally significant transition is missing. -/
def reasonMissing (transition : Transition) (reason : Option String) : Bool :=
  transition.requiresReason && isBlank (reason.getD "")

/-- Apply one transition, or explain why it is not permitted. -/
def apply (env : Env) (connectorId : Uuid) (target : ConnectorState)
    (event : Option ConnectorEvent) (actorId tenantId : String) (reason : Option String)
    (idempotencyKey : Option String) : Handler TransitionResult := do
  match (← await (.getConnector connectorId true)).filter (·.tenantId = tenantId) with
  | none => .raise .lookupError
  | some record =>
    let current := record.status.value
    -- a real edge wins over the idempotent-repeat shortcut
    match find current target.value event with
    | .error exc =>
      match idempotentRepeat current target.value with
      | some edge => pure ⟨record, edge.event, true⟩
      | none => .raise (.transitionRejected exc.reason current (permittedTargets current))
    | .ok transition =>
      if reasonMissing transition reason then
        .raise (.reasonRequired (transition.event.value ++
          " requires a reason; an audit record without one " ++
          "cannot answer the only question later asked of it"))
      else
        let updated := advance env record transition reason
        await (.setConnector updated)
        -- row, audit and event commit together or not at all
        await (.addAudit (transitionAudit env record transition actorId tenantId reason
          idempotencyKey))
        await (.enqueue (transitionEvent env record transition actorId tenantId reason))
        commit
        pure ⟨updated, transition.event, false⟩

end FavlGateway.Registry
