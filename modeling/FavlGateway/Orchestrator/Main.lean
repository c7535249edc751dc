/-
  The orchestrator's endpoints (`app/main.py`): agents, and the fan-out of an agent's invocation to
  the connector registry.

  `fanOutEntry` is the one place where an answer of the registry is read; `invokeAgent` puts an entry
  for each connector into its result and into the `agent.invoked` event it commits.
-/
import FavlGateway.Orchestrator.Session
import FavlGateway.Registry.Transitions

namespace FavlGateway.Orchestrator

open FavlGateway.Library
open FavlGateway.Registry
  (Uuid Time OutboxEvent outboxEvent uuidText jsonStr jsonInt jsonTime CallerIdentity)

/-- What a request finds around it: its settings, the ids it will draw and the clock. -/
structure Env where
  uuid4 : Nat → Uuid
  utcnow : Nat → Time
  /-- `AGENT_MAX_FAN_OUT` -/
  maxFanOut : Int
  /-- `CONNECTOR_REGISTRY_URL` -/
  registryUrl : String
  /-- `INTERNAL_SERVICE_TOKEN`; empty when it is not set -/
  internalServiceToken : String

structure AgentCreate where
  name : String
  description : String := ""
  connectorIds : List String := []
  name_length : 3 ≤ name.length ∧ name.length ≤ 80
  description_length : description.length ≤ 500

/-- An agent as it is published. -/
structure Agent where
  id : Uuid
  name : String
  description : String
  connectorIds : List String
  createdAt : Time
  deriving DecidableEq

/-- `_to_schema` -/
def toSchema (record : AgentRecord) : Agent where
  id := record.id
  name := record.name
  description := record.description
  connectorIds := record.connectorIds
  createdAt := record.createdAt

/-- `agent.model_dump(mode="json")` -/
def Agent.modelDump (a : Agent) : Json String :=
  .obj
    [("name", jsonStr a.name), ("description", jsonStr a.description),
      ("connector_ids", .arr (a.connectorIds.map jsonStr)), ("id", jsonStr (uuidText a.id)),
      ("created_at", jsonTime a.createdAt)]

/-- A response body. -/
inductive Body where
  | agent (a : Agent)
  | agents (as : List Agent)
  | invoked (result : Json String)
  | detail (d : Json String)
  | empty
  | internalServerError
  deriving DecidableEq

structure Response where
  statusCode : Nat
  body : Body
  deriving DecidableEq

/-- What the client sees of an escaped exception. -/
def Exc.respond : Exc → Response
  | .http statusCode detail => ⟨statusCode, .detail detail⟩
  | _ => ⟨500, .internalServerError⟩

/-- Code of the service. -/
abbrev Handler := Prog AgentOp Exc

/-- `await o` -/
def await {β : Type} (o : AgentOp β) : Handler β := Prog.perform o

/-- Raise what a flush or commit raised. -/
def Handler.ofDb (r : Except DbError Unit) : Handler Unit :=
  match r with
  | .ok () => .ret ()
  | .error e => .raise (.db e)

/-- `await session.commit()` -/
def commit : Handler Unit := await .commit >>= Handler.ofDb

/-! ## Agents -/

def agentNotFound : Exc := .http 404 (jsonStr "Agent not found")

/-- `_tenant_agent`: 404 on a tenant mismatch too. -/
def tenantAgent (agentId : Uuid) (tenantId : String) : Handler AgentRecord := do
  match (← await (.getAgent agentId)).filter (·.tenantId = tenantId) with
  | none => .raise agentNotFound
  | some record => pure record

def listAgents (tenantId : String) : Handler Response := do
  let records ← await (.listAgents tenantId)
  pure ⟨200, .agents (records.map toSchema)⟩

def getAgent (agentId : Uuid) (tenantId : String) : Handler Response := do
  let record ← tenantAgent agentId tenantId
  pure ⟨200, .agent (toSchema record)⟩

/-- The row `create_agent` inserts. -/
def newAgent (env : Env) (tenantId : String) (payload : AgentCreate) : AgentRecord where
  id := env.uuid4 0
  tenantId := tenantId
  name := payload.name
  description := payload.description
  connectorIds := payload.connectorIds
  createdAt := env.utcnow 0

def createdEvent (env : Env) (record : AgentRecord) : OutboxEvent :=
  outboxEvent (env.uuid4 1) "agent.created" "agent" record.id record.version
    (toSchema record).modelDump

def createAgent (env : Env) (tenantId : String) (payload : AgentCreate) : Handler Response := do
  let record := newAgent env tenantId payload
  await (.addAgent record)
  match ← await .flush with
  | .error .integrity =>
    await .rollback
    .raise (.http 409 (jsonStr ("Agent named '" ++ payload.name ++ "' already exists")))
  | .error e => .raise (.db e)
  | .ok () =>
    await (.enqueue (createdEvent env record))
    -- one commit covers the agent and its event
    commit
    pure ⟨201, .agent (toSchema record)⟩

def deletedEvent (env : Env) (agentId : Uuid) (record : AgentRecord) : OutboxEvent :=
  outboxEvent (env.uuid4 0) "agent.deleted" "agent" agentId (record.version + 1)
    (.obj [("agent_id", jsonStr (uuidText agentId)), ("name", jsonStr record.name)])

/-- The version of the event is computed from the row as it was read, without a lock. -/
def deleteAgent (env : Env) (agentId : Uuid) (tenantId : String) : Handler Response := do
  let record ← tenantAgent agentId tenantId
  await (.deleteAgent agentId)
  await (.enqueue (deletedEvent env agentId record))
  commit
  pure ⟨204, .empty⟩

/-! ## Fan-out -/

/-- `internal_call_headers`: the token proves the caller is inside the mesh, not its tenant. -/
def internalCallHeaders (env : Env) (tenantId : String) : List (String × String) :=
  ("X-Tenant-ID", tenantId) ::
    if env.internalServiceToken = "" then []
    else [("X-Internal-Service-Token", env.internalServiceToken)]

/-- The call for one connector. -/
def connectorCall (env : Env) (agentId : Uuid) (payload : Dict String) (tenantId : String)
    (connectorId : String) : Post where
  url := env.registryUrl ++ "/internal/connectors/" ++ connectorId ++ "/invoke"
  json := .obj [("agent_id", jsonStr (uuidText agentId)), ("input", .obj payload)]
  headers := internalCallHeaders env tenantId

/-- What the orchestrator makes of an answer of at least 400. -/
def failureEntry (connectorId : String) (statusCode : Nat) (body : Dict String) : Dict String :=
  [("connector_id", jsonStr connectorId),
    ("status", (body.get? "status").getD (jsonStr "failed")),
    ("error_code", (body.get? "error_code").getD .null),
    ("retryable", (body.get? "retryable").getD .null),
    ("http_status", jsonInt statusCode)]

/-- The entry for one connector. -/
def fanOutEntry (connectorId : String) : PostOutcome → Except Exc (Dict String)
  | .raised => .error .network
  | .httpError text => .ok
      [("connector_id", jsonStr connectorId), ("status", jsonStr "failed"),
        ("detail", jsonStr ("registry unreachable: " ++ text))]
  | .reply r =>
    if 400 ≤ r.statusCode then
      -- a body that is no JSON counts as `{}`
      match r.json.getD (.obj []) with
      | .obj body => .ok (failureEntry connectorId r.statusCode body)
      | _ => .error .attributeError
    else
      match r.json with
      | none => .error .valueError
      | some body => .ok
          [("connector_id", jsonStr connectorId), ("status", jsonStr "completed"),
            ("output", body)]

/-- The loop over the agent's connectors. -/
def fanOut (env : Env) (agentId : Uuid) (payload : Dict String) (tenantId : String) :
    List String → Handler (List (Dict String))
  | [] => pure []
  | connectorId :: rest => do
    match fanOutEntry connectorId
        (← await (.post (connectorCall env agentId payload tenantId connectorId))) with
    | .error e => .raise e
    | .ok entry =>
      let entries ← fanOut env agentId payload tenantId rest
      pure (entry :: entries)

/-- `result` -/
def invocationResult (agentId : Uuid) (outputs : List (Dict String)) : Json String :=
  .obj [("agent_id", jsonStr (uuidText agentId)), ("outputs", .arr (outputs.map .obj))]

def invokedEvent (env : Env) (agentId : Uuid) (version : Nat) (result : Json String) :
    OutboxEvent :=
  outboxEvent (env.uuid4 0) "agent.invoked" "agent" agentId version result

def fanOutTooWide (env : Env) (n : Nat) : Exc :=
  .http 422 (.obj
    [("error_code", jsonStr "FAN_OUT_TOO_WIDE"),
      ("message", jsonStr ("agent has " ++ toString n ++
        " connectors; the per-invocation limit is " ++ toString env.maxFanOut))])

def invokeAgent (env : Env) (agentId : Uuid) (payload : Dict String) (caller : CallerIdentity) :
    Handler Response := do
  let record ← tenantAgent agentId caller.tenantId
  if env.maxFanOut < record.connectorIds.length then
    .raise (fanOutTooWide env record.connectorIds.length)
  else
    -- the connection is released before the fan-out
    await .rollback
    let outputs ← fanOut env agentId payload caller.tenantId record.connectorIds
    let result := invocationResult agentId outputs
    let _ ← tenantAgent agentId caller.tenantId
    match ← await (.refreshAgent agentId) with
    | none => .raise .invalidRequest
    | some fresh =>
      await (.setVersion agentId (fresh.version + 1))
      await (.enqueue (invokedEvent env agentId (fresh.version + 1) result))
      commit
      pure ⟨200, .invoked result⟩

/-! ## Routing -/

/-- A request once FastAPI has resolved its caller and validated its payload. -/
inductive Request where
  | listAgents (tenantId : String)
  | getAgent (agentId : Uuid) (tenantId : String)
  | createAgent (tenantId : String) (payload : AgentCreate)
  | deleteAgent (agentId : Uuid) (tenantId : String)
  | invokeAgent (agentId : Uuid) (payload : Dict String) (caller : CallerIdentity)

def handler (env : Env) : Request → Handler Response
  | .listAgents tenantId => listAgents tenantId
  | .getAgent agentId tenantId => getAgent agentId tenantId
  | .createAgent tenantId payload => createAgent env tenantId payload
  | .deleteAgent agentId tenantId => deleteAgent env agentId tenantId
  | .invokeAgent agentId payload caller => invokeAgent env agentId payload caller

/-- A request: its handler within its session, its outcome as a response. -/
def serveIn (p : Handler Response) : Handler Response :=
  (p.finallyDo .close).tryCatch fun e => .ret e.respond

/-- A request as it arrives. -/
structure Incoming where
  env : Env
  request : Request

/-- The orchestrator at start, over the database `db`. -/
def orchestrator (db : Db) (reqs : Nat → Incoming) :
    System AgentOp Session World Exc Response where
  world := { db := db }
  threads i := ⟨Session.fresh, serveIn (handler (reqs i).env (reqs i).request)⟩

end FavlGateway.Orchestrator
