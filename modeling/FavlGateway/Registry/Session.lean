/-
  The unit of work: what an SQLAlchemy session and PostgreSQL (READ COMMITTED) do with the
  operations a handler awaits.

  A `Session` is an identity map per ORM class, the rows added but not flushed, and the rows
  inserted by the open transaction.  An `Instance` remembers the values it was LOADED with beside
  its current attributes:

  * `session.get` on an instance the session already holds returns it as it is, with or without
    `with_for_update` (no `populate_existing`); an expired instance is read again;
  * `session.refresh` re-reads it;
  * a commit writes, column by column, only what differs from the loaded values (`mergeColumn`);
  * `rollback` expires every instance, and reading an expired attribute outside an awaited call is
    an error (`connectorAttrs` answers `none`); `expire_on_commit=False`, so a commit does not.

  `perform` is that semantics on a store nobody else uses.  `registryMachine` adds what other
  transactions can notice: FOR UPDATE row locks, and the uncommitted index values that make a
  second insert of the same key wait.  Changes of a transaction become visible at its commit and at
  once, so the flush a commit begins with is part of the commit step.  Row locks taken for
  foreign-key checks are left out: without them there are only more interleavings.
-/
import FavlGateway.Library.Interleave
import FavlGateway.Registry.Schemas

namespace FavlGateway.Registry

open FavlGateway.Library

/-! ## Sessions -/

/-- An ORM instance in an identity map. -/
structure Instance (ρ : Type) where
  loaded : ρ
  current : ρ
  expired : Bool := false
  /-- Loaded under a row lock that the open transaction still holds. -/
  locked : Bool := false

namespace Instance

variable {ρ : Type}

/-- An instance just read from its row. -/
def ofRow (row : ρ) (locked : Bool := false) : Instance ρ := ⟨row, row, false, locked⟩

/-- Rollback: pending attribute changes are gone and every attribute must be read again. -/
def expire (inst : Instance ρ) : Instance ρ := ⟨inst.loaded, inst.loaded, true, false⟩

/-- After a commit the current values are the loaded ones. -/
def flushed (inst : Instance ρ) : Instance ρ := ⟨inst.current, inst.current, inst.expired, false⟩

/-- The attributes as they can be read: not while they are expired. -/
def attrs (inst : Instance ρ) : Option ρ := if inst.expired then none else some inst.current

/-- The instance has changes to write. -/
def dirty [DecidableEq ρ] (inst : Instance ρ) : Bool := inst.current ≠ inst.loaded

end Instance

structure Session where
  /-- The identity map of `ConnectorRecord`. -/
  connectors : Uuid → Option (Instance ConnectorRecord) := fun _ => none
  /-- The identity map of `InvocationRecord`; a new row enters it when it is committed. -/
  invocations : Uuid → Option (Instance InvocationRecord) := fun _ => none
  /-- Added, not flushed. -/
  pending : Rows := {}
  /-- Inserted by the open transaction. -/
  flushed : Rows := {}
  /-- The invocations whose rows this session's committed transactions inserted. -/
  inserted : List Uuid := []

namespace Session

/-- The session of a request that has not begun. -/
def fresh : Session := {}

/-- The attributes of a connector the session holds. -/
def connectorAttrs (s : Session) (id : Uuid) : Option ConnectorRecord :=
  (s.connectors id).bind Instance.attrs

/-- The attributes of an invocation the session holds. -/
def invocationAttrs (s : Session) (id : Uuid) : Option InvocationRecord :=
  (s.invocations id).bind Instance.attrs

/-- Read a row of `connectors` into the identity map. -/
def loadConnector (s : Session) (db : Db) (id : Uuid) (locked : Bool) :
    Option ConnectorRecord × Session :=
  match db.connector id with
  | some row =>
    (some row, { s with
      connectors := Function.update s.connectors id (some (.ofRow row locked)) })
  | none => (none, s)

/-- A row a query returned, through the identity map: an instance already held keeps its
    attributes. -/
def loadInvocation (s : Session) : Option InvocationRecord → Option InvocationRecord × Session
  | none => (none, s)
  | some row =>
    match s.invocationAttrs row.id with
    | some current => (some current, s)
    | none => (some row, { s with
        invocations := Function.update s.invocations row.id (some (.ofRow row)) })

/-- The transaction ended without a commit. -/
def rolledBack (s : Session) : Session where
  connectors id := (s.connectors id).map Instance.expire
  invocations id := (s.invocations id).map Instance.expire
  inserted := s.inserted

/-- The transaction committed. -/
def committed (s : Session) : Session where
  connectors id :=
    match (s.flushed ++ s.pending).connectors.find? fun r => r.id = id with
    | some r => some (.ofRow r)
    | none => (s.connectors id).map Instance.flushed
  invocations id :=
    match (s.flushed ++ s.pending).invocations.find? fun r => r.id = id with
    | some r => some (.ofRow r)
    | none => (s.invocations id).map Instance.flushed
  inserted := s.inserted ++ (s.flushed ++ s.pending).invocations.map InvocationRecord.id

end Session

/-! ## What a commit writes -/

/-- UPDATE writes a column only where the attribute differs from the value it was loaded with. -/
def mergeColumn {α : Type} [DecidableEq α] (loaded current stored : α) : α :=
  if current = loaded then stored else current

@[simp] theorem mergeColumn_clean {α : Type} [DecidableEq α] (a stored : α) :
    mergeColumn a a stored = stored := by simp [mergeColumn]

theorem mergeColumn_loaded {α : Type} [DecidableEq α] (a current : α) :
    mergeColumn a current a = current := by
  unfold mergeColumn
  split
  · rename_i h; exact h.symm
  · rfl

theorem mergeColumn_of_ne {α : Type} [DecidableEq α] {loaded current : α} (h : current ≠ loaded)
    (stored : α) : mergeColumn loaded current stored = current := if_neg h

/-- The UPDATE of a connector, over the columns the service ever assigns. -/
def ConnectorRecord.merge (loaded current stored : ConnectorRecord) : ConnectorRecord :=
  { stored with
    status := mergeColumn loaded.status current.status stored.status
    version := mergeColumn loaded.version current.version stored.version
    supportsIdempotency := mergeColumn loaded.supportsIdempotency current.supportsIdempotency
      stored.supportsIdempotency
    idempotencyMode := mergeColumn loaded.idempotencyMode current.idempotencyMode
      stored.idempotencyMode
    deletionRequestedAt := mergeColumn loaded.deletionRequestedAt current.deletionRequestedAt
      stored.deletionRequestedAt
    deletedBy := mergeColumn loaded.deletedBy current.deletedBy stored.deletedBy
    revokedAt := mergeColumn loaded.revokedAt current.revokedAt stored.revokedAt
    archivedAt := mergeColumn loaded.archivedAt current.archivedAt stored.archivedAt
    credentialsRotatedAt := mergeColumn loaded.credentialsRotatedAt current.credentialsRotatedAt
      stored.credentialsRotatedAt
    stateReason := mergeColumn loaded.stateReason current.stateReason stored.stateReason }

/-- The UPDATE of an invocation, over the columns the service ever assigns. -/
def InvocationRecord.merge (loaded current stored : InvocationRecord) : InvocationRecord :=
  { stored with
    status := mergeColumn loaded.status current.status stored.status
    aggregateVersion := mergeColumn loaded.aggregateVersion current.aggregateVersion
      stored.aggregateVersion
    startedAt := mergeColumn loaded.startedAt current.startedAt stored.startedAt
    completedAt := mergeColumn loaded.completedAt current.completedAt stored.completedAt
    providerRequestId := mergeColumn loaded.providerRequestId current.providerRequestId
      stored.providerRequestId
    errorCode := mergeColumn loaded.errorCode current.errorCode stored.errorCode
    errorDetail := mergeColumn loaded.errorDetail current.errorDetail stored.errorDetail
    retryable := mergeColumn loaded.retryable current.retryable stored.retryable
    output := mergeColumn loaded.output current.output stored.output
    auditMetadata := mergeColumn loaded.auditMetadata current.auditMetadata
      stored.auditMetadata }

namespace Session

/-- A stored connector after this session's UPDATE of it, if it holds one. -/
def writeConnector (s : Session) (row : ConnectorRecord) : ConnectorRecord :=
  match s.connectors row.id with
  | some inst => .merge inst.loaded inst.current row
  | none => row

/-- A stored invocation after this session's UPDATE of it, if it holds one. -/
def writeInvocation (s : Session) (row : InvocationRecord) : InvocationRecord :=
  match s.invocations row.id with
  | some inst => .merge inst.loaded inst.current row
  | none => row

/-- The tables as the open transaction would leave them: its UPDATEs, then its INSERTs. -/
def contents (s : Session) (db : Db) : Rows :=
  { connectors := db.connectors.map s.writeConnector
    audit := db.audit
    invocations := db.invocations.map s.writeInvocation
    outbox := db.outbox } ++ (s.flushed ++ s.pending)

end Session

/-- Why contents are refused. -/
def Rows.refusal (r : Rows) : DbError := if r.fits then .integrity else .data

/-! ## Operations -/

/-- A filter of `list_invocations`. -/
structure InvocationQuery where
  tenantId : String
  connectorId : Option Uuid
  statusFilter : Option String
  before : Option Time
  limit : Int

/-- The operations a handler awaits, and the attribute accesses between them. -/
inductive RegistryOp : Type → Type where
  /-- `session.get(ConnectorRecord, id)`, with `with_for_update=True` when `forUpdate` -/
  | getConnector (id : Uuid) (forUpdate : Bool) : RegistryOp (Option ConnectorRecord)
  /-- `session.refresh(record, with_for_update=True)` -/
  | refreshConnector (id : Uuid) : RegistryOp (Option ConnectorRecord)
  /-- reading the attributes of a connector instance the handler holds -/
  | connectorAttrs (id : Uuid) : RegistryOp (Option ConnectorRecord)
  /-- assigning the attributes of a connector instance the handler holds -/
  | setConnector (r : ConnectorRecord) : RegistryOp Unit
  /-- assigning the attributes of an invocation instance the handler holds -/
  | setInvocation (r : InvocationRecord) : RegistryOp Unit
  /-- `session.add` -/
  | addConnector (r : ConnectorRecord) : RegistryOp Unit
  | addAudit (a : ConnectorAuditRecord) : RegistryOp Unit
  | addInvocation (r : InvocationRecord) : RegistryOp Unit
  /-- `favl_outbox.enqueue` -/
  | enqueue (e : OutboxEvent) : RegistryOp Unit
  | flush : RegistryOp (Except DbError Unit)
  | commit : RegistryOp (Except DbError Unit)
  | rollback : RegistryOp Unit
  /-- the end of `async with SessionLocal()` -/
  | close : RegistryOp Unit
  /-- `session.get(InvocationRecord, id)` -/
  | getInvocation (id : Uuid) : RegistryOp (Option InvocationRecord)
  /-- the query of `find_existing` -/
  | findExisting (tenantId : String) (connectorId : Uuid) (key : String) :
      RegistryOp (Option InvocationRecord)
  /-- the query of `list_connectors` -/
  | listConnectors (tenantId : String) (includeDeleted : Bool) :
      RegistryOp (List ConnectorRecord)
  /-- the query of `audit_trail` -/
  | auditTrail (connectorId : Uuid) (tenantId : String) :
      RegistryOp (List ConnectorAuditRecord)
  /-- the query of `list_invocations` -/
  | listInvocations (q : InvocationQuery) : RegistryOp (List InvocationRecord)
  /-- a call that leaves the service -/
  | callAdapter (c : AdapterCall) : RegistryOp Unit

/-- The database, and what the outside has seen: every adapter call, and every invocation row
    inserted, each with the request that made it. -/
structure Store where
  db : Db
  calls : List (Nat × AdapterCall) := []
  inserts : List (Nat × Uuid) := []

/-- `select … order_by(created_at)`: rows with equal keys come in table order. -/
def connectorListing (db : Db) (tenantId : String) (includeDeleted : Bool) :
    List ConnectorRecord :=
  (db.connectors.filter fun r =>
    r.tenantId = tenantId ∧ (includeDeleted ∨ r.status ≠ .deleted)).insertionSort
    fun a b => a.createdAt ≤ b.createdAt

/-- `select … order_by(aggregate_version)` -/
def auditListing (db : Db) (connectorId : Uuid) (tenantId : String) :
    List ConnectorAuditRecord :=
  (db.audit.filter fun a => a.connectorId = connectorId ∧ a.tenantId = tenantId).insertionSort
    fun a b => a.aggregateVersion ≤ b.aggregateVersion

/-- The row passes every filter of the query. -/
def InvocationQuery.selects (q : InvocationQuery) (r : InvocationRecord) : Bool :=
  r.tenantId = q.tenantId && nullable (fun c => r.connectorId = c) q.connectorId &&
    nullable (fun s => s = "" ∨ r.status.value = s) q.statusFilter &&
    nullable (fun t => r.createdAt < t) q.before

/-- `select … order_by(created_at.desc()).limit(max(1, min(limit, 200)))` -/
def invocationListing (db : Db) (q : InvocationQuery) : List InvocationRecord :=
  ((db.invocations.filter q.selects).insertionSort fun a b => b.createdAt ≤ a.createdAt).take
    (max 1 (min q.limit 200)).toNat

/-- What an operation of request `i` answers, and what it makes of the session and the store. -/
def perform (i : Nat) : {β : Type} → RegistryOp β → Session → Store → β × Session × Store
  | _, .getConnector id forUpdate, s, st =>
    match s.connectorAttrs id with
    | some current => (some current, s, st)
    | none => ((s.loadConnector st.db id forUpdate).1, (s.loadConnector st.db id forUpdate).2, st)
  | _, .refreshConnector id, s, st =>
    ((s.loadConnector st.db id true).1, (s.loadConnector st.db id true).2, st)
  | _, .connectorAttrs id, s, st => (s.connectorAttrs id, s, st)
  | _, .setConnector r, s, st =>
    ((), { s with
      connectors := Function.update s.connectors r.id
        ((s.connectors r.id).map fun inst => { inst with current := r }) }, st)
  | _, .setInvocation r, s, st =>
    ((), { s with
      invocations := Function.update s.invocations r.id
        ((s.invocations r.id).map fun inst => { inst with current := r }) }, st)
  | _, .addConnector r, s, st => ((), { s with pending := s.pending ++ { connectors := [r] } }, st)
  | _, .addAudit a, s, st => ((), { s with pending := s.pending ++ { audit := [a] } }, st)
  | _, .addInvocation r, s, st =>
    ((), { s with pending := s.pending ++ { invocations := [r] } }, st)
  | _, .enqueue e, s, st => ((), { s with pending := s.pending ++ { outbox := [e] } }, st)
  | _, .flush, s, st =>
    if (s.contents st.db).Valid then
      (.ok (), { s with flushed := s.flushed ++ s.pending, pending := {} }, st)
    else (.error (s.contents st.db).refusal, s.rolledBack, st)
  | _, .commit, s, st =>
    if h : (s.contents st.db).Valid then
      (.ok (), s.committed,
        { st with
          db := { toRows := s.contents st.db, valid := h }
          inserts := st.inserts ++ (s.flushed ++ s.pending).invocations.map fun r => (i, r.id) })
    else (.error (s.contents st.db).refusal, s.rolledBack, st)
  | _, .rollback, s, st => ((), s.rolledBack, st)
  | _, .close, _, st => ((), Session.fresh, st)
  | _, .getInvocation id, s, st =>
    ((s.loadInvocation (st.db.invocation id)).1, (s.loadInvocation (st.db.invocation id)).2, st)
  | _, .findExisting tenantId connectorId key, s, st =>
    ((s.loadInvocation (st.db.invocationByKey tenantId connectorId key)).1,
      (s.loadInvocation (st.db.invocationByKey tenantId connectorId key)).2, st)
  | _, .listConnectors tenantId includeDeleted, s, st =>
    (connectorListing st.db tenantId includeDeleted, s, st)
  | _, .auditTrail connectorId tenantId, s, st => (auditListing st.db connectorId tenantId, s, st)
  | _, .listInvocations q, s, st => (invocationListing st.db q, s, st)
  | _, .callAdapter c, s, st => ((), s, { st with calls := st.calls ++ [(i, c)] })

/-! ## What other transactions notice -/

/-- The store, the FOR UPDATE row locks on connectors, and the index values inserted by open
    transactions, each with the request that holds it. -/
structure World extends Store where
  rowLock : Uuid → Option Nat := fun _ => none
  keyLock : RowKey → Option Nat := fun _ => none

/-- Held, and not by request `i`. -/
def heldByOther (i : Nat) : Option Nat → Bool
  | none => false
  | some j => j ≠ i

/-- The operation has to wait for another transaction to end. -/
def blocked (i : Nat) : {β : Type} → RegistryOp β → Session → World → Bool
  | _, .getConnector id true, _, w => heldByOther i (w.rowLock id)
  | _, .refreshConnector id, _, w => heldByOther i (w.rowLock id)
  | _, .flush, s, w => s.pending.keys.any fun k => heldByOther i (w.keyLock k)
  | _, .commit, s, w =>
    (s.pending.keys.any fun k => heldByOther i (w.keyLock k)) ||
      w.db.connectors.any fun r =>
        ((s.connectors r.id).map Instance.dirty).getD false && heldByOther i (w.rowLock r.id)
  | _, _, _, _ => false

/-- The world after request `i`'s transaction ended. -/
def World.release (i : Nat) (w : World) : World :=
  { w with
    rowLock := fun id => if w.rowLock id = some i then none else w.rowLock id
    keyLock := fun k => if w.keyLock k = some i then none else w.keyLock k }

/-- The locks request `i` takes or gives up with an operation that answered `b`. -/
def World.relock (i : Nat) (w : World) : {β : Type} → RegistryOp β → β → Session → World
  | _, .getConnector id true, some _, _ =>
    { w with rowLock := Function.update w.rowLock id (some i) }
  | _, .refreshConnector id, some _, _ =>
    { w with rowLock := Function.update w.rowLock id (some i) }
  | _, .flush, .ok _, s =>
    { w with keyLock := fun k => if k ∈ s.pending.keys then some i else w.keyLock k }
  | _, .flush, .error _, _ => w.release i
  | _, .commit, _, _ => w.release i
  | _, .rollback, _, _ => w.release i
  | _, .close, _, _ => w.release i
  | _, _, _, _ => w

/-- The registry under interleaved requests. -/
def registryMachine : Machine RegistryOp Session World Exc where
  step := fun i {_} o s w =>
    if blocked i o s w then none
    else
      let r := perform i o s w.toStore
      some (r.1, r.2.1, World.relock i { w with toStore := r.2.2 } o r.1 s)
  abort i _ w := w.release i
  fresh := Session.fresh
  crashed := .crashed

/-! ## Programs of the service -/

/-- Code of the service: awaits `RegistryOp`s, raises `Exc`s. -/
abbrev Handler := Prog RegistryOp Exc

/-- `await o` -/
def await {β : Type} (o : RegistryOp β) : Handler β := Prog.perform o

/-- Raise what a flush or commit raised. -/
def Handler.ofDb (r : Except DbError Unit) : Handler Unit :=
  match r with
  | .ok () => .ret ()
  | .error e => .raise (.db e)

/-- `await session.commit()` -/
def commit : Handler Unit := await .commit >>= Handler.ofDb

/-- A request: its handler within its session, its outcome as a response. -/
def serveIn (p : Handler Response) : Handler Response :=
  (p.finallyDo .close).tryCatch fun e => .ret e.respond

/-- A request served with the store to itself, as request `i`. -/
def serve (i : Nat) (p : Handler Response) (st : Store) : Response × Store :=
  match Prog.run (perform i) p Session.fresh st with
  | (.ok r, _, st') => (r, st')
  | (.error e, _, st') => (e.respond, st')

end FavlGateway.Registry
