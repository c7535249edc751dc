/-
  Everything a request of the service ever commits.

  `Tx rq` lists the sessions in which a request may await a commit: with nothing to write, or with
  one of seven writes staged — a creation, a transition, the touch after a validation, a DELETE,
  and the accepted, started and finished rows of an invocation — each tied to what the request
  asked and to the row as the session LOADED it.  `discipline rq` demands `Tx rq` at every commit
  and, of an adapter call, that the session itself inserted the invocation.

  `handler_obeys` walks every endpoint once.  From then on no proof about runs looks at a handler:
  it goes through the cases of `Tx`.
-/
import FavlGateway.Registry.Main

namespace FavlGateway.Registry

open FavlGateway.Library

/-- A request in its environment. -/
structure Incoming where
  env : Env
  request : Request

/-- The program that serves it. -/
def Incoming.program (rq : Incoming) : Handler Response := serveIn (handler rq.env rq.request)

/-! ## What a request asks for -/

/-- The arguments of `apply`. -/
structure Ask where
  caller : CallerIdentity
  connectorId : Uuid
  target : ConnectorState
  event : Option ConnectorEvent
  reason : Option String
  idempotencyKey : Option String

def Ask.ofBody (caller : CallerIdentity) (connectorId : Uuid) (target : ConnectorState)
    (event : Option ConnectorEvent) (body : Option TransitionRequest) : Ask :=
  ⟨caller, connectorId, target, event, (body.getD {}).reason, (body.getD {}).idempotencyKey⟩

/-- The transition a request asks for, given the connector as it read it. -/
def Request.asked (env : Env) (record : ConnectorRecord) : Request → Option Ask
  | .installConnector caller connectorId body =>
    some (.ofBody caller connectorId .installed none body)
  | .configureConnector caller connectorId body =>
    some (.ofBody caller connectorId .configured (some .configured) body)
  | .enableConnector caller connectorId body =>
    some (.ofBody caller connectorId .enabled (some .enabled) body)
  | .disableConnector caller connectorId body =>
    some (.ofBody caller connectorId .disabled (some .disabled) body)
  | .rotateConnectorCredentials caller connectorId body =>
    some (.ofBody caller connectorId record.status (some .credentialsRotated) body)
  | .revokeConnector caller connectorId body =>
    some (.ofBody caller connectorId .revoked (some .revoked) body)
  | .archiveConnector caller connectorId body =>
    some (.ofBody caller connectorId .archived (some .archived) body)
  | .validateConnector caller connectorId =>
    let report := env.validateConfig record.kind record.config
    some ⟨caller, connectorId, verdictTarget report, some (verdictEvent report),
      verdictReason report, none⟩
  | _ => none

/-- What an invoke request asks of `accept`, given the connector as it read it. -/
def Request.acceptArgs (env : Env) (record : ConnectorRecord) : Request → Option AcceptArgs
  | .invokeConnectorV1 caller _ payload xRequestId traceparent =>
    some (publicArgs caller payload xRequestId traceparent)
  | .invokeConnectorInternal _ tenantId _ payload =>
    (agentInput payload).map fun body => internalArgs env tenantId payload body record
  | _ => none

/-- The connector an invoke request names. -/
def Request.invoked : Request → Option Uuid
  | .invokeConnectorV1 _ connectorId _ _ _ => some connectorId
  | .invokeConnectorInternal _ _ connectorId _ => some connectorId
  | _ => none

/-! ## Sessions between and within transactions -/

namespace Session

/-- Nothing to write. -/
structure Clean (s : Session) : Prop where
  pending : s.pending = {}
  flushed : s.flushed = {}
  connectors : ∀ {id inst}, s.connectors id = some inst →
    inst.current = inst.loaded ∧ inst.loaded.id = id
  invocations : ∀ {id inst}, s.invocations id = some inst →
    inst.current = inst.loaded ∧ inst.loaded.id = id

/-- The session holds the connector, readable, as loaded from `r`. -/
def Holds (s : Session) (id : Uuid) (r : ConnectorRecord) : Prop :=
  ∃ inst, s.connectors id = some inst ∧ inst.expired = false ∧ inst.loaded = r

/-- The session holds the invocation, readable, as loaded from `r`. -/
def HoldsInvocation (s : Session) (id : Uuid) (r : InvocationRecord) : Prop :=
  ∃ inst, s.invocations id = some inst ∧ inst.expired = false ∧ inst.loaded = r

/-- The session with an assignment to a connector it holds, and rows added. -/
def writing (s : Session) (id : Uuid) (current : ConnectorRecord) (rows : Rows) : Session :=
  { s with
    connectors := Function.update s.connectors id
      ((s.connectors id).map fun inst => { inst with current := current })
    pending := rows }

/-- The session with an assignment to an invocation it holds, and rows added. -/
def writingInvocation (s : Session) (id : Uuid) (current : InvocationRecord) (rows : Rows) :
    Session :=
  { s with
    invocations := Function.update s.invocations id
      ((s.invocations id).map fun inst => { inst with current := current })
    pending := rows }

theorem fresh_clean : fresh.Clean where
  pending := rfl
  flushed := rfl
  connectors h := by cases h
  invocations h := by cases h

end Session

/-! ## The transactions -/

/-- The session a creation is committed from. -/
def creating (env : Env) (caller : CallerIdentity) (payload : ConnectorCreate) : Session where
  flushed := { connectors := [newConnector env caller payload] }
  pending :=
    { audit := [creationAudit env caller (newConnector env caller payload)]
      outbox := [creationEvent env (newConnector env caller payload)] }

/-- The rows a transition adds. -/
def transitionRows (env : Env) (ask : Ask) (record : ConnectorRecord) (tr : Transition) : Rows where
  audit := [transitionAudit env record tr ask.caller.actorId ask.caller.tenantId ask.reason
    ask.idempotencyKey]
  outbox := [transitionEvent env record tr ask.caller.actorId ask.caller.tenantId ask.reason]

/-- The sessions in which a request may await a commit. -/
inductive Tx (rq : Incoming) : Session → Prop where
  | idle {s : Session} (clean : s.Clean) : Tx rq s
  | create {caller : CallerIdentity} {payload : ConnectorCreate}
      (request : rq.request = .createConnector caller payload)
      (valid : (rq.env.validateConfig payload.kind (effectiveConfig payload)).valid = true) :
      Tx rq (creating rq.env caller payload)
  | transition {s : Session} {ask : Ask} {record : ConnectorRecord} {tr : Transition}
      (clean : s.Clean) (held : s.Holds ask.connectorId record)
      (tenant : record.tenantId = ask.caller.tenantId)
      (asked : rq.request.asked rq.env record = some ask)
      (edge : find record.status.value ask.target.value ask.event = .ok tr)
      (reason : reasonMissing tr ask.reason = false) :
      Tx rq (s.writing ask.connectorId (advance rq.env record tr ask.reason)
        (transitionRows rq.env ask record tr))
  | touch {s : Session} {caller : CallerIdentity} {id : Uuid} {record : ConnectorRecord}
      (report : ValidationResult) (request : rq.request = .validateConnector caller id)
      (clean : s.Clean) (held : s.Holds id record) :
      Tx rq (s.writing id (withCapability record report) {})
  | delete {s : Session} {caller : CallerIdentity} {id : Uuid} {inst : Instance ConnectorRecord}
      (request : rq.request = .requestConnectorDeletion caller id) (clean : s.Clean)
      (held : s.connectors id = some inst) (locked : inst.locked = true)
      (pending : inst.loaded.status ≠ .deleted ∧ inst.loaded.status ≠ .deletionRequested) :
      Tx rq (s.writing id (withDeletionRequested rq.env caller inst.loaded)
        { outbox := [deletionEvent rq.env caller id
            (withDeletionRequested rq.env caller inst.loaded)] })
  | accept {s : Session} {args : AcceptArgs} {record : ConnectorRecord}
      (invoked : rq.request.invoked = some record.id)
      (args_eq : rq.request.acceptArgs rq.env record = some args) (clean : s.Clean)
      (first : s.inserted = []) (held : s.Holds record.id record)
      (enabled : record.status = .enabled) (tenant : args.tenantId = record.tenantId) :
      Tx rq { s with
        flushed := { invocations := [newInvocation rq.env record args] }
        pending := { outbox := [emitted (rq.env.uuid4 1) (newInvocation rq.env record args)
          acceptedEvent] } }
  | start {s : Session} {record : InvocationRecord} (clean : s.Clean)
      (held : s.HoldsInvocation record.id record) (own : record.id ∈ s.inserted)
      (accepted : record.status = .accepted) :
      Tx rq (s.writingInvocation record.id (started rq.env record)
        { outbox := [emitted (rq.env.uuid4 2) (started rq.env record) startedEvent] })
  | finish {s : Session} {record : InvocationRecord} {result : InvocationResult} {event : String}
      (clean : s.Clean) (held : s.HoldsInvocation record.id record)
      (own : record.id ∈ s.inserted) (inFlight : record.status.inFlight = true)
      (terminal : terminalEvent result.status = some event) :
      Tx rq (s.writingInvocation record.id (finished rq.env record result)
        { outbox := [emitted (rq.env.uuid4 3) (finished rq.env record result) event] })

/-- The session may call the adapter with this request: it inserted the invocation itself, and
    the request is about it. -/
def MayInvoke (s : Session) (request : InvocationRequest) : Prop :=
  ∃ record, s.HoldsInvocation request.invocationId record ∧ record.id ∈ s.inserted ∧
    record.id = request.invocationId ∧ record.status = .running ∧
    record.tenantId = request.tenantId ∧ record.connectorId = request.connectorId ∧
    record.idempotencyKey = request.idempotencyKey

/-- What must hold when an operation is awaited. -/
def Permits (rq : Incoming) : {β : Type} → RegistryOp β → Session → Prop
  | _, .commit, s => Tx rq s
  | _, .callAdapter (.invoke request _), s => MayInvoke s request
  | _, _, _ => True

/-- What an operation can answer and do to the session, on some store. -/
def Effect {β : Type} (o : RegistryOp β) (s : Session) (b : β) (s' : Session) : Prop :=
  ∃ i st, (perform i o s st).1 = b ∧ (perform i o s st).2.1 = s'

/-- The discipline of a request. -/
def discipline (rq : Incoming) : Discipline RegistryOp Session where
  pre := Permits rq
  eff := Effect

end FavlGateway.Registry
