/-
  The endpoints (`app/main.py`): every request the service answers on `/v1/connectors`,
  `/v1/invocations` and `/internal/connectors`, as a program over the operations of its session.

  `handler` is the routing table.  Every lifecycle endpoint is `transition` at its own
  target and event; `requestConnectorDeletion` is the one that writes the status itself.
-/
import FavlGateway.Registry.Invocations

namespace FavlGateway.Registry

open FavlGateway.Library

/-- A request once FastAPI has resolved its caller and validated its payload. -/
inductive Request where
  | listConnectors (caller : CallerIdentity) (includeDeleted : Bool)
  | getConnector (caller : CallerIdentity) (connectorId : Uuid)
  | createConnector (caller : CallerIdentity) (payload : ConnectorCreate)
  | validateConnector (caller : CallerIdentity) (connectorId : Uuid)
  | connectorHealth (caller : CallerIdentity) (connectorId : Uuid)
  | requestConnectorDeletion (caller : CallerIdentity) (connectorId : Uuid)
  | installConnector (caller : CallerIdentity) (connectorId : Uuid)
      (body : Option TransitionRequest)
  | configureConnector (caller : CallerIdentity) (connectorId : Uuid)
      (body : Option TransitionRequest)
  | enableConnector (caller : CallerIdentity) (connectorId : Uuid)
      (body : Option TransitionRequest)
  | disableConnector (caller : CallerIdentity) (connectorId : Uuid)
      (body : Option TransitionRequest)
  | rotateConnectorCredentials (caller : CallerIdentity) (connectorId : Uuid)
      (body : Option TransitionRequest)
  | revokeConnector (caller : CallerIdentity) (connectorId : Uuid)
      (body : Option TransitionRequest)
  | archiveConnector (caller : CallerIdentity) (connectorId : Uuid)
      (body : Option TransitionRequest)
  | connectorAudit (caller : CallerIdentity) (connectorId : Uuid)
  | invokeConnectorV1 (caller : CallerIdentity) (connectorId : Uuid) (payload : InvocationCreate)
      (xRequestId traceparent : Option String)
  | listInvocations (caller : CallerIdentity) (connectorId : Option Uuid)
      (statusFilter : Option String) (limit : Int) (before : Option Time)
  | getInvocation (caller : CallerIdentity) (invocationId : Uuid)
  | invokeConnectorInternal (token tenantId : String) (connectorId : Uuid)
      (payload : Dict String)

/-! ## Helpers -/

def connectorNotFound : Exc := .http 404 (jsonStr "Connector not found")

/-- `_tenant_connector`: 404 on a tenant mismatch too, which would confirm that the id exists. -/
def tenantConnector (connectorId : Uuid) (tenantId : String) : Handler ConnectorRecord := do
  match (← await (.getConnector connectorId false)).filter (·.tenantId = tenantId) with
  | none => .raise connectorNotFound
  | some record => pure record

/-- `_http_status_for`: shared by the fresh and replay branches. -/
def httpStatusFor (record : InvocationRecord) : Nat :=
  if record.status = .succeeded then 200
  else if record.status = .timedOut then 504
  else if record.status.inFlight then 202
  else 502

/-- `ADAPTERS.get(kind)` -/
def requireAdapter (kind : ConnectorKind) : Handler Unit :=
  if kind ∈ registeredKinds then .ret ()
  else .raise (.unknownAdapterKind kind.value (registeredKinds.map ConnectorKind.value))

/-- `await ADAPTERS.get(kind).validate_config(config)` -/
def validateConfig (env : Env) (kind : ConnectorKind) (config : Dict String) :
    Handler ValidationResult := do
  requireAdapter kind
  await (.callAdapter (.validateConfig kind config))
  pure (env.validateConfig kind config)

/-! ## Connectors -/

def listConnectors (caller : CallerIdentity) (includeDeleted : Bool) : Handler Response := do
  let records ← await (.listConnectors caller.tenantId includeDeleted)
  pure ⟨200, .connectors (records.map toSchema)⟩

def getConnector (caller : CallerIdentity) (connectorId : Uuid) : Handler Response := do
  let record ← tenantConnector connectorId caller.tenantId
  pure ⟨200, .connector (toSchema record)⟩

/-- The configuration that is validated and stored. -/
def effectiveConfig (payload : ConnectorCreate) : Dict String :=
  match payload.baseUrl with
  | some url =>
    if (payload.config.get? "base_url").isNone then payload.config ++ [("base_url", jsonStr url)]
    else payload.config
  | none => payload.config

/-- The row `create_connector` inserts. -/
def newConnector (env : Env) (caller : CallerIdentity) (payload : ConnectorCreate) :
    ConnectorRecord :=
  let report := env.validateConfig payload.kind (effectiveConfig payload)
  { id := env.uuid4 0
    tenantId := caller.tenantId
    name := payload.name
    kind := payload.kind
    baseUrl := payload.baseUrl
    scopes := payload.scopes
    config := effectiveConfig payload
    status := payload.status
    supportsIdempotency := report.supportsIdempotency
    idempotencyMode := report.idempotencyMode
    createdAt := env.utcnow 0 }

/-- The first audit entry: who placed the connector in its initial state. -/
def creationAudit (env : Env) (caller : CallerIdentity) (record : ConnectorRecord) :
    ConnectorAuditRecord where
  id := env.uuid4 1
  connectorId := record.id
  tenantId := caller.tenantId
  -- no source state: creation is not a transition
  fromState := ""
  toState := record.status.value
  event := ConnectorEvent.created.value
  actorId := caller.actorId
  reason := none
  aggregateVersion := record.version
  recordedAt := env.utcnow 1

def creationEvent (env : Env) (record : ConnectorRecord) : OutboxEvent :=
  outboxEvent (env.uuid4 2) ConnectorEvent.created.value "connector" record.id record.version
    (toSchema record).modelDump

def createConnector (env : Env) (caller : CallerIdentity) (payload : ConnectorCreate) :
    Handler Response := do
  if payload.kind ∉ registeredKinds then
    .raise (.http 422 (.obj
      [("error_code", jsonStr "UNKNOWN_KIND"),
        ("message", jsonStr ("no adapter registered for kind '" ++ payload.kind.value ++ "'")),
        ("registered_kinds", .arr (registeredKinds.map fun k => jsonStr k.value))]))
  else
    let report ← validateConfig env payload.kind (effectiveConfig payload)
    if !report.valid then
      .raise (.http 422 (.obj
        [("error_code", jsonStr "CONFIG_INVALID"),
          ("errors", .arr (report.errors.map jsonStr))]))
    else
      let record := newConnector env caller payload
      await (.addConnector record)
      match ← await .flush with
      | .error .integrity =>
        await .rollback
        .raise (.http 409 (jsonStr ("Connector named '" ++ payload.name ++ "' already exists")))
      | .error .data => .raise (.db .data)
      | .ok () =>
        await (.addAudit (creationAudit env caller record))
        await (.enqueue (creationEvent env record))
        commit
        pure ⟨201, .connector (toSchema record)⟩

/-- The transition a validation verdict asks for. -/
def verdictTarget (report : ValidationResult) : ConnectorState :=
  if report.valid then .validated else .configured

def verdictEvent (report : ValidationResult) : ConnectorEvent :=
  if report.valid then .validationSucceeded else .validationFailed

/-- `None`, or the joined errors up to 1024 characters. -/
def verdictReason (report : ValidationResult) : Option String :=
  if report.valid then none
  else some (String.ofList (("; ".intercalate report.errors).toList.take 1024))

/-- What validation stores so that a read reports the guarantee just established. -/
def withCapability (record : ConnectorRecord) (report : ValidationResult) : ConnectorRecord :=
  { record with
    supportsIdempotency := report.supportsIdempotency
    idempotencyMode := report.idempotencyMode }

/-- `apply` for a verdict; a rejected transition is rolled back and forgotten. -/
def recordVerdict (env : Env) (caller : CallerIdentity) (connectorId : Uuid)
    (report : ValidationResult) : Handler Unit :=
  Prog.tryCatch
    (do
      let _ ← apply env connectorId (verdictTarget report) (some (verdictEvent report))
        caller.actorId caller.tenantId (verdictReason report) none
      pure ())
    fun
    | .transitionRejected _ _ _ => await .rollback
    | e => .raise e

def validateConnector (env : Env) (caller : CallerIdentity) (connectorId : Uuid) :
    Handler Response := do
  let record ← tenantConnector connectorId caller.tenantId
  let report ← validateConfig env record.kind record.config
  recordVerdict env caller connectorId report
  let record ← tenantConnector connectorId caller.tenantId
  await (.setConnector (withCapability record report))
  commit
  pure ⟨200, .report report⟩

/-- What a health check is told; the tenant is left at its default. -/
def healthContext (record : ConnectorRecord) : ConnectorContext where
  connectorId := record.id
  connectorVersion := record.version
  kind := record.kind
  config := record.config

def connectorHealth (env : Env) (caller : CallerIdentity) (connectorId : Uuid) :
    Handler Response := do
  let record ← tenantConnector connectorId caller.tenantId
  requireAdapter record.kind
  await (.callAdapter (.healthCheck (healthContext record)))
  pure ⟨200, .health (env.healthCheck (healthContext record))⟩

/-- The attributes of the connector after its DELETE. -/
def withDeletionRequested (env : Env) (caller : CallerIdentity) (record : ConnectorRecord) :
    ConnectorRecord :=
  { record with
    status := .deletionRequested
    deletionRequestedAt := some (env.utcnow 0)
    deletedBy := some caller.actorId
    version := record.version + 1 }

def deletionEvent (env : Env) (caller : CallerIdentity) (connectorId : Uuid)
    (record : ConnectorRecord) : OutboxEvent :=
  outboxEvent (env.uuid4 0) ConnectorEvent.deletionRequested.value "connector" connectorId
    record.version <|
    .obj
      [("connector_id", jsonStr (uuidText connectorId)), ("name", jsonStr record.name),
        ("status", jsonStr record.status.value), ("requested_by", jsonStr caller.actorId),
        ("requested_at", .ofOption (fun t => jsonStr (isoformat t)) record.deletionRequestedAt)]

/-- Soft deletion, written by hand: no lookup in the table, no reason, no audit row. -/
def requestConnectorDeletion (env : Env) (caller : CallerIdentity) (connectorId : Uuid) :
    Handler Response := do
  let _ ← tenantConnector connectorId caller.tenantId
  -- re-read under a row lock now that the tenant is confirmed
  match ← await (.refreshConnector connectorId) with
  | none => .raise .invalidRequest
  | some record =>
    if record.status = .deleted then
      .raise (.http 410 (.obj
        [("error_code", jsonStr "CONNECTOR_GONE"), ("message", jsonStr "Connector is deleted")]))
    else if record.status = .deletionRequested then
      pure ⟨204, .empty⟩
    else
      let record := withDeletionRequested env caller record
      await (.setConnector record)
      await (.enqueue (deletionEvent env caller connectorId record))
      commit
      pure ⟨204, .empty⟩

/-! ## Lifecycle transitions -/

/-- The HTTP reading of `apply`'s refusals. -/
def refusalResponse : Exc → Exc
  | .lookupError => connectorNotFound
  | .reasonRequired message => .http 422 (.obj
      [("error_code", jsonStr "REASON_REQUIRED"), ("message", jsonStr message)])
  | .transitionRejected message current permitted => .http 409 (.obj
      [("error_code", jsonStr "TRANSITION_NOT_PERMITTED"), ("message", jsonStr message),
        ("current_state", jsonStr current), ("permitted_targets", .arr (permitted.map jsonStr))])
  | e => e

/-- `_transition`: apply a transition and translate its refusals into HTTP. -/
def transition (env : Env) (connectorId : Uuid) (caller : CallerIdentity)
    (target : ConnectorState) (event : Option ConnectorEvent) (body : Option TransitionRequest) :
    Handler Response := do
  let body := body.getD {}
  let result ← (apply env connectorId target event caller.actorId caller.tenantId body.reason
    body.idempotencyKey).tryCatch fun e => .raise (refusalResponse e)
  pure ⟨200, .connector (toSchema result.connector)⟩

def installConnector (env : Env) (caller : CallerIdentity) (connectorId : Uuid)
    (body : Option TransitionRequest) : Handler Response :=
  transition env connectorId caller .installed none body

/-- Reconfiguration always lands in CONFIGURED, so validation must run again. -/
def configureConnector (env : Env) (caller : CallerIdentity) (connectorId : Uuid)
    (body : Option TransitionRequest) : Handler Response :=
  transition env connectorId caller .configured (some .configured) body

def enableConnector (env : Env) (caller : CallerIdentity) (connectorId : Uuid)
    (body : Option TransitionRequest) : Handler Response :=
  transition env connectorId caller .enabled (some .enabled) body

def disableConnector (env : Env) (caller : CallerIdentity) (connectorId : Uuid)
    (body : Option TransitionRequest) : Handler Response :=
  transition env connectorId caller .disabled (some .disabled) body

/-- Records that a secret changed; the state is the one the connector is read in. -/
def rotateConnectorCredentials (env : Env) (caller : CallerIdentity) (connectorId : Uuid)
    (body : Option TransitionRequest) : Handler Response := do
  let record ← tenantConnector connectorId caller.tenantId
  transition env connectorId caller record.status (some .credentialsRotated) body

def revokeConnector (env : Env) (caller : CallerIdentity) (connectorId : Uuid)
    (body : Option TransitionRequest) : Handler Response :=
  transition env connectorId caller .revoked (some .revoked) body

def archiveConnector (env : Env) (caller : CallerIdentity) (connectorId : Uuid)
    (body : Option TransitionRequest) : Handler Response :=
  transition env connectorId caller .archived (some .archived) body

/-- Every transition this connector has undergone, oldest first. -/
def connectorAudit (caller : CallerIdentity) (connectorId : Uuid) : Handler Response := do
  let _ ← tenantConnector connectorId caller.tenantId
  let records ← await (.auditTrail connectorId caller.tenantId)
  pure ⟨200, .audit (records.map auditEntry)⟩

/-! ## Invocation -/

/-- `check_executable`, with its refusal in HTTP. -/
def requireExecutable (record : ConnectorRecord) : Handler Unit :=
  (checkExecutable record).tryCatch fun
    | .connectorNotExecutable status code httpStatus => .raise (.http httpStatus (.obj
        [("error_code", jsonStr code.value), ("status", jsonStr status)]))
    | e => .raise e

/-- `a or b` on optional texts. -/
def orText (a b : Option String) : Option String :=
  match a with
  | some s => if s = "" then b else some s
  | none => b

/-- What the public endpoint asks of `accept`. -/
def publicArgs (caller : CallerIdentity) (payload : InvocationCreate)
    (xRequestId traceparent : Option String) : AcceptArgs where
  operation := payload.operation
  idempotencyKey := payload.idempotencyKey
  actorId := caller.actorId
  tenantId := caller.tenantId
  timeoutSeconds := payload.timeoutSeconds
  traceId := orText xRequestId traceparent

def invokeConnectorV1 (env : Env) (caller : CallerIdentity) (connectorId : Uuid)
    (payload : InvocationCreate) (xRequestId traceparent : Option String) :
    Handler Response := do
  let record ← tenantConnector connectorId caller.tenantId
  requireExecutable record
  let (invocation, replay) ← accept env record (publicArgs caller payload xRequestId traceparent)
  match replay with
  | some _ => pure ⟨httpStatusFor invocation, .invocation (invocationSchema invocation)⟩
  | none =>
    let invocation ← execute env record invocation payload.payload
    pure ⟨httpStatusFor invocation, .invocation (invocationSchema invocation)⟩

/-- Newest first, keyset-paged on `created_at`, always tenant-scoped. -/
def listInvocations (caller : CallerIdentity) (connectorId : Option Uuid)
    (statusFilter : Option String) (limit : Int) (before : Option Time) :
    Handler Response := do
  let records ← await (.listInvocations ⟨caller.tenantId, connectorId, statusFilter, before, limit⟩)
  pure ⟨200, .invocations (records.map invocationSchema)⟩

def getInvocation (caller : CallerIdentity) (invocationId : Uuid) : Handler Response := do
  match (← await (.getInvocation invocationId)).filter (·.tenantId = caller.tenantId) with
  | none => .raise (.http 404 (jsonStr "Invocation not found"))
  | some record => pure ⟨200, .invocation (invocationSchema record)⟩

/-- `secrets.compare_digest` on texts: `none` where it raises `TypeError`. -/
def compareDigest (a b : String) : Option Bool :=
  if a.toList.all (·.toNat < 128) ∧ b.toList.all (·.toNat < 128) then some (a = b) else none

/-- An unset token disables the internal surface rather than opening it. -/
def requireInternalCaller (env : Env) (token : String) : Handler Unit :=
  if env.internalServiceToken = "" then
    .raise (.http 503 (.obj
      [("error_code", jsonStr "INTERNAL_SURFACE_DISABLED"),
        ("message", jsonStr "INTERNAL_SERVICE_TOKEN is not configured")]))
  else match compareDigest token env.internalServiceToken with
    | none => .raise .typeError
    | some true => .ret ()
    | some false => .raise (.http 401 (.obj [("error_code", jsonStr "INTERNAL_AUTH_FAILED")]))

/-- `clamp_timeout`: finite and bounded, whatever the configuration says. -/
def clampTimeout (env : Env) (value : Json String) (default : ℚ) : ℚ :=
  match env.float value with
  | none => min default env.timeoutCeiling
  | some parsed =>
    if parsed ≤ 0 then min default env.timeoutCeiling else min parsed env.timeoutCeiling

/-- `str(payload.get("agent_id", "unknown"))` -/
def agentId (env : Env) (payload : Dict String) : String :=
  env.str ((payload.get? "agent_id").getD (jsonStr "unknown"))

/-- `payload.get("input", {}) or {}`, where its items are taken: `none` if it has none. -/
def agentInput (payload : Dict String) : Option (Dict String) :=
  let body := (payload.get? "input").getD (.obj [])
  if body.truthy String.isEmpty then
    match body with
    | .obj members => some members
    | _ => none
  else some []

/-- Derived, so that a retry of the same agent call collapses onto the same invocation. -/
def agentKey (env : Env) (agent : String) (body : Dict String) : String :=
  let items := body.insertionSort fun a b => a.1 ≤ b.1
  "agent:" ++ agent ++ ":" ++ uuidText (env.uuid5 (env.repr items))

/-- What the internal endpoint asks of `accept`. -/
def internalArgs (env : Env) (tenantId : String) (payload body : Dict String)
    (record : ConnectorRecord) : AcceptArgs where
  operation := env.str ((record.config.get? "operation").getD (jsonStr ""))
  idempotencyKey := agentKey env (agentId env payload) body
  actorId := "agent:" ++ agentId env payload
  tenantId := tenantId
  timeoutSeconds := clampTimeout env ((record.config.get? "timeout_seconds").getD .null) 15
  traceId := none

/-- The reply of the internal endpoint: the status is in the HTTP code, not only in the body. -/
def internalReply (connectorId : Uuid) (invocation : InvocationRecord) : Handler Response := do
  -- the connector's attributes are expired if `accept` lost its race
  match ← await (.connectorAttrs connectorId) with
  | none => .raise .missingGreenlet
  | some record =>
    pure ⟨httpStatusFor invocation, .internalInvocation
      { invocationId := invocation.id
        connectorId := connectorId
        connectorKind := record.kind
        status := invocation.status
        errorCode := invocation.errorCode
        retryable := invocation.retryable
        output := invocation.output }⟩

/-- The mesh token is no authorisation for a tenant. -/
def tenantRequired : Exc := .http 400 (.obj
  [("error_code", jsonStr "TENANT_REQUIRED"),
    ("message", jsonStr "internal callers must forward the verified tenant")])

def invokeConnectorInternal (env : Env) (token tenantId : String) (connectorId : Uuid)
    (payload : Dict String) : Handler Response := do
  requireInternalCaller env token
  if tenantId = "" then
    .raise tenantRequired
  else
    let record ← tenantConnector connectorId tenantId
    requireExecutable record
    match agentInput payload with
    | none => .raise .attributeError
    | some body =>
      let (invocation, replay) ← accept env record (internalArgs env tenantId payload body record)
      let invocation ← match replay with
        | none => execute env record invocation body
        | some _ => pure invocation
      internalReply connectorId invocation

/-! ## Routing -/

/-- The handler of a request. -/
def handler (env : Env) : Request → Handler Response
  | .listConnectors caller includeDeleted => listConnectors caller includeDeleted
  | .getConnector caller connectorId => getConnector caller connectorId
  | .createConnector caller payload => createConnector env caller payload
  | .validateConnector caller connectorId => validateConnector env caller connectorId
  | .connectorHealth caller connectorId => connectorHealth env caller connectorId
  | .requestConnectorDeletion caller connectorId =>
    requestConnectorDeletion env caller connectorId
  | .installConnector caller connectorId body => installConnector env caller connectorId body
  | .configureConnector caller connectorId body => configureConnector env caller connectorId body
  | .enableConnector caller connectorId body => enableConnector env caller connectorId body
  | .disableConnector caller connectorId body => disableConnector env caller connectorId body
  | .rotateConnectorCredentials caller connectorId body =>
    rotateConnectorCredentials env caller connectorId body
  | .revokeConnector caller connectorId body => revokeConnector env caller connectorId body
  | .archiveConnector caller connectorId body => archiveConnector env caller connectorId body
  | .connectorAudit caller connectorId => connectorAudit caller connectorId
  | .invokeConnectorV1 caller connectorId payload xRequestId traceparent =>
    invokeConnectorV1 env caller connectorId payload xRequestId traceparent
  | .listInvocations caller connectorId statusFilter limit before =>
    listInvocations caller connectorId statusFilter limit before
  | .getInvocation caller invocationId => getInvocation caller invocationId
  | .invokeConnectorInternal token tenantId connectorId payload =>
    invokeConnectorInternal env token tenantId connectorId payload

end FavlGateway.Registry
