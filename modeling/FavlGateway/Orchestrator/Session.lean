/-
  The orchestrator's tables (`app/models.py`), its sessions, and its database under concurrency.

  Two tables matter: `agents` and the outbox of the service.  A session holds the agent rows it has
  loaded, the versions it has assigned, the rows it will delete and the rows it has added; a commit
  writes all of that at once.  What other transactions notice is a FOR UPDATE row lock, which a
  second locking read and any UPDATE or DELETE of the row wait for, and an uncommitted index value,
  which a second INSERT waits for.  A plain read takes no lock and waits for nothing.
-/
import FavlGateway.Library.Interleave
import FavlGateway.Registry.Schemas

namespace FavlGateway.Orchestrator

open FavlGateway.Library
open FavlGateway.Registry (Uuid Time OutboxEvent textFits varcharFits int4Fits)

/-! ## Tables -/

structure AgentRecord where
  id : Uuid
  tenantId : String
  name : String
  description : String
  connectorIds : List String
  version : Nat := 1
  createdAt : Time
  deriving DecidableEq

/-- A value of a UNIQUE or PRIMARY KEY index. -/
inductive RowKey where
  | agentId (id : Uuid)
  /-- `uq_agents_tenant_name` -/
  | agentName (tenantId name : String)
  deriving DecidableEq

namespace AgentRecord

def keys (r : AgentRecord) : List RowKey := [.agentId r.id, .agentName r.tenantId r.name]

def fits (r : AgentRecord) : Bool :=
  varcharFits 255 r.tenantId && varcharFits 80 r.name && textFits r.description &&
    r.connectorIds.all textFits && int4Fits r.version

end AgentRecord

structure Rows where
  agents : List AgentRecord := []
  outbox : List OutboxEvent := []

namespace Rows

def keys (r : Rows) : List RowKey := r.agents.flatMap AgentRecord.keys

def fits (r : Rows) : Bool := r.agents.all AgentRecord.fits && r.outbox.all OutboxEvent.fits

/-- The schema's constraints. -/
def Valid (r : Rows) : Prop := r.keys.Nodup ∧ r.fits = true

instance (r : Rows) : Decidable r.Valid := inferInstanceAs (Decidable (_ ∧ _))

def append (r r' : Rows) : Rows := ⟨r.agents ++ r'.agents, r.outbox ++ r'.outbox⟩

instance : Append Rows := ⟨append⟩

@[simp] theorem append_agents (r r' : Rows) : (r ++ r').agents = r.agents ++ r'.agents := rfl

@[simp] theorem append_outbox (r r' : Rows) : (r ++ r').outbox = r.outbox ++ r'.outbox := rfl

end Rows

/-- The committed database. -/
structure Db extends Rows where
  valid : toRows.Valid

namespace Db

/-- The row of `agents` with this primary key. -/
def agent (db : Db) (id : Uuid) : Option AgentRecord := lookup AgentRecord.id db.agents id

/-- The outbox events of one agent, in commit order. -/
def agentEvents (db : Db) (id : Uuid) : List OutboxEvent :=
  db.outbox.filter fun e => e.aggregateType = "agent" ∧ e.aggregateId = some id

/-- The database of a fresh deployment. -/
def empty : Db := { toRows := {}, valid := by decide }

end Db

/-! ## Sessions -/

/-- An agent in the identity map of a session. -/
structure Instance where
  row : AgentRecord
  expired : Bool := false
  /-- Loaded under a row lock that the open transaction still holds. -/
  locked : Bool := false

/-- A rollback expires what the session holds. -/
def Instance.expire (inst : Instance) : Instance := ⟨inst.row, true, false⟩

structure Session where
  agents : Uuid → Option Instance := fun _ => none
  /-- `record.version = …`, not yet written. -/
  assigned : List (Uuid × Nat) := []
  /-- `session.delete`, not yet written. -/
  doomed : List Uuid := []
  /-- Added, not flushed. -/
  pending : Rows := {}
  /-- Inserted by the open transaction. -/
  flushed : Rows := {}
  /-- How many calls to the registry the request has made. -/
  sent : Nat := 0

namespace Session

/-- The session of a request that has not begun. -/
def fresh : Session := {}

/-- Read a row of `agents` into the identity map. -/
def load (s : Session) (db : Db) (id : Uuid) (locked : Bool) : Option AgentRecord × Session :=
  match db.agent id with
  | some row =>
    (some row, { s with agents := Function.update s.agents id (some ⟨row, false, locked⟩) })
  | none => (none, s)

/-- An instance that can be read without a query. -/
def held (s : Session) (id : Uuid) : Option AgentRecord :=
  match s.agents id with
  | some inst => if inst.expired then none else some inst.row
  | none => none

/-- The transaction ended without a commit. -/
def rolledBack (s : Session) : Session where
  agents id := (s.agents id).map Instance.expire
  sent := s.sent

/-- A stored row after this session's UPDATE of it. -/
def write (s : Session) (row : AgentRecord) : AgentRecord :=
  match s.assigned.find? fun a => a.1 = row.id with
  | some a => { row with version := a.2 }
  | none => row

/-- The transaction committed. -/
def committed (s : Session) : Session where
  agents id :=
    if id ∈ s.doomed then none
    else (s.agents id).map fun inst => ⟨s.write inst.row, inst.expired, false⟩
  sent := s.sent

/-- The tables as the open transaction would leave them: a DELETE that matches no row is no error. -/
def contents (s : Session) (db : Db) : Rows :=
  { agents := (db.agents.filter fun row => row.id ∉ s.doomed).map s.write
    outbox := db.outbox } ++ (s.flushed ++ s.pending)

/-- An UPDATE of a row that is gone (`StaleDataError`). -/
def stale (s : Session) (db : Db) : Bool := s.assigned.any fun a => (db.agent a.1).isNone

end Session

/-! ## Operations -/

/-- What a flush or a commit raises. -/
inductive DbError where
  | integrity
  | data
  | stale
  deriving DecidableEq, Repr

/-- Why contents are refused. -/
def Rows.refusal (r : Rows) : DbError := if r.fits then .integrity else .data

/-- A call to the registry. -/
structure Post where
  url : String
  json : Json String
  headers : List (String × String)

/-- What httpx makes of the answer: the body is `none` where `response.json()` raises. -/
structure Reply where
  statusCode : Nat
  json : Option (Json String)
  deriving DecidableEq

/-- How a call to the registry ends. -/
inductive PostOutcome where
  | reply (r : Reply)
  /-- `httpx.HTTPError`, and its text -/
  | httpError (text : String)
  /-- an exception that is no `httpx.HTTPError` -/
  | raised

/-- The operations a handler awaits. -/
inductive AgentOp : Type → Type where
  /-- `session.get(AgentRecord, id)` -/
  | getAgent (id : Uuid) : AgentOp (Option AgentRecord)
  /-- `session.refresh(record, with_for_update=True)` -/
  | refreshAgent (id : Uuid) : AgentOp (Option AgentRecord)
  /-- the query of `list_agents` -/
  | listAgents (tenantId : String) : AgentOp (List AgentRecord)
  /-- assigning `version` on an instance the handler holds -/
  | setVersion (id : Uuid) (version : Nat) : AgentOp Unit
  /-- `session.delete` -/
  | deleteAgent (id : Uuid) : AgentOp Unit
  /-- `session.add` -/
  | addAgent (r : AgentRecord) : AgentOp Unit
  /-- `favl_outbox.enqueue` -/
  | enqueue (e : OutboxEvent) : AgentOp Unit
  | flush : AgentOp (Except DbError Unit)
  | commit : AgentOp (Except DbError Unit)
  | rollback : AgentOp Unit
  /-- the end of `async with SessionLocal()` -/
  | close : AgentOp Unit
  /-- `client.post` -/
  | post (p : Post) : AgentOp PostOutcome

/-- `select … order_by(created_at)` -/
def agentListing (db : Db) (tenantId : String) : List AgentRecord :=
  (db.agents.filter fun r => r.tenantId = tenantId).insertionSort fun a b =>
    a.createdAt ≤ b.createdAt

/-- What an operation answers, and what it makes of the session and the database; `network n` is how
    the request's call number `n` ends. -/
def perform (network : Nat → PostOutcome) :
    {β : Type} → AgentOp β → Session → Db → β × Session × Db
  | _, .getAgent id, s, db =>
    match s.held id with
    | some row => (some row, s, db)
    | none => ((s.load db id false).1, (s.load db id false).2, db)
  | _, .refreshAgent id, s, db => ((s.load db id true).1, (s.load db id true).2, db)
  | _, .listAgents tenantId, s, db => (agentListing db tenantId, s, db)
  | _, .setVersion id version, s, db =>
    ((), { s with assigned := s.assigned ++ [(id, version)] }, db)
  | _, .deleteAgent id, s, db => ((), { s with doomed := s.doomed ++ [id] }, db)
  | _, .addAgent r, s, db => ((), { s with pending := s.pending ++ { agents := [r] } }, db)
  | _, .enqueue e, s, db => ((), { s with pending := s.pending ++ { outbox := [e] } }, db)
  | _, .flush, s, db =>
    if (s.contents db).Valid then
      (.ok (), { s with flushed := s.flushed ++ s.pending, pending := {} }, db)
    else (.error (s.contents db).refusal, s.rolledBack, db)
  | _, .commit, s, db =>
    if s.stale db then (.error .stale, s.rolledBack, db)
    else if h : (s.contents db).Valid then
      (.ok (), s.committed, { toRows := s.contents db, valid := h })
    else (.error (s.contents db).refusal, s.rolledBack, db)
  | _, .rollback, s, db => ((), s.rolledBack, db)
  | _, .close, _, db => ((), Session.fresh, db)
  | _, .post _, s, db => (network s.sent, { s with sent := s.sent + 1 }, db)

/-! ## What other transactions notice -/

structure World where
  db : Db
  rowLock : Uuid → Option Nat := fun _ => none
  keyLock : RowKey → Option Nat := fun _ => none

/-- Held, and not by request `i`. -/
def heldByOther (i : Nat) : Option Nat → Bool
  | none => false
  | some j => j ≠ i

/-- The operation has to wait for another transaction to end. -/
def blocked (i : Nat) : {β : Type} → AgentOp β → Session → World → Bool
  | _, .refreshAgent id, _, w => heldByOther i (w.rowLock id)
  | _, .flush, s, w => s.pending.keys.any fun k => heldByOther i (w.keyLock k)
  | _, .commit, s, w =>
    (s.pending.keys.any fun k => heldByOther i (w.keyLock k)) ||
      s.assigned.any (fun a => heldByOther i (w.rowLock a.1)) ||
      s.doomed.any fun id => heldByOther i (w.rowLock id)
  | _, _, _, _ => false

/-- The world after request `i`'s transaction ended. -/
def World.release (i : Nat) (w : World) : World :=
  { w with
    rowLock := fun id => if w.rowLock id = some i then none else w.rowLock id
    keyLock := fun k => if w.keyLock k = some i then none else w.keyLock k }

/-- The locks request `i` takes or gives up with an operation that answered `b`. -/
def World.relock (i : Nat) (w : World) : {β : Type} → AgentOp β → β → Session → World
  | _, .refreshAgent id, some _, _ =>
    { w with rowLock := Function.update w.rowLock id (some i) }
  | _, .flush, .ok _, s =>
    { w with keyLock := fun k => if k ∈ s.pending.keys then some i else w.keyLock k }
  | _, .flush, .error _, _ => w.release i
  | _, .commit, _, _ => w.release i
  | _, .rollback, _, _ => w.release i
  | _, .close, _, _ => w.release i
  | _, _, _, _ => w

/-- The exceptions of the service. -/
inductive Exc where
  | http (statusCode : Nat) (detail : Json String)
  | db (e : DbError)
  /-- `session.refresh` of a row that is gone -/
  | invalidRequest
  /-- `response.json()` on a body that is none -/
  | valueError
  /-- `body.get` on a body that is no object -/
  | attributeError
  /-- what escaped `client.post` -/
  | network
  /-- the process died -/
  | crashed
  deriving DecidableEq

/-- The orchestrator under interleaved requests; `network i n` is how call `n` of request `i`
    ends. -/
def orchestratorMachine (network : Nat → Nat → PostOutcome) :
    Machine AgentOp Session World Exc where
  step := fun i {_} o s w =>
    if blocked i o s w then none
    else
      let r := perform (network i) o s w.db
      some (r.1, r.2.1, World.relock i { w with db := r.2.2 } o r.1 s)
  abort i _ w := w.release i
  fresh := Session.fresh
  crashed := .crashed

end FavlGateway.Orchestrator
