/-
  The outbox table (`favl_outbox/models.py`) and what a row says on the wire
  (`favl_outbox/envelope.py`, the message that `favl_outbox/jetstream.py` builds).

  A row has two halves.  `Event` holds the columns that are written once, when the event is enqueued;
  `Delivery` holds the ones the publisher writes.  The message of a row is a function of the first
  half alone, so whatever happens to the second cannot change it.
-/
import FavlGateway.Registry.Schemas

namespace FavlGateway.Outbox

open FavlGateway.Library
open FavlGateway.Registry (Uuid uuidText)

/-- An instant, in seconds since the epoch, exactly. -/
abbrev Instant := ℚ

/-! ## Rows -/

/-- The `status` column, under `ck_outbox_events_status`. -/
inductive Status where
  | pending
  | published
  | dead
  deriving DecidableEq, Repr

def Status.value : Status → String
  | pending => "pending"
  | published => "published"
  | dead => "dead"

/-- `ALL_STATUSES` -/
def allStatuses : List String :=
  [Status.pending.value, Status.published.value, Status.dead.value]

/-- The CHECK constraint: the column holds one of the three texts. -/
theorem Status.value_mem (s : Status) : s.value ∈ allStatuses := by
  cases s with
  | pending => simp [allStatuses]
  | published => simp [allStatuses]
  | dead => simp [allStatuses]

/-- `DEFAULT_MAX_ATTEMPTS` -/
def defaultMaxAttempts : Int := 8

/-- The columns that are written when the event is enqueued, and never again. -/
structure Event where
  id : Uuid
  aggregateType : String
  aggregateId : Option String
  aggregateVersion : Int
  subject : String
  schemaVersion : Int
  payload : Json String
  maxAttempts : Int
  createdAt : Instant

/-- The columns the publisher writes. -/
structure Delivery where
  status : Status
  attempts : Nat
  nextAttemptAt : Instant
  lastError : Option PyStr
  publishedAt : Option Instant
  streamSeq : Option Int

/-- A row of `outbox_events`. -/
structure OutboxEvent extends Event, Delivery

/-- The row with what a publisher has assigned to it. -/
def OutboxEvent.assign (row : OutboxEvent) (d : Delivery) : OutboxEvent := { row with toDelivery := d }

@[simp] theorem OutboxEvent.assign_toEvent (row : OutboxEvent) (d : Delivery) :
    (row.assign d).toEvent = row.toEvent := rfl

@[simp] theorem OutboxEvent.assign_toDelivery (row : OutboxEvent) (d : Delivery) :
    (row.assign d).toDelivery = d := rfl

@[simp] theorem OutboxEvent.assign_self (row : OutboxEvent) : row.assign row.toDelivery = row := rfl

/-! ## The envelope -/

/-- `datetime.isoformat()`, to the microsecond. -/
def Instant.isoformat (t : Instant) : String := Library.isoformat (t * 1000000).floor

/-- `build_envelope` -/
def buildEnvelope (eventId eventType aggregateType : String) (aggregateId : Option String)
    (aggregateVersion : Int) (occurredAt : Instant) (data : Json String) (schemaVersion : Int) :
    Json String :=
  .obj
    [("event_id", .str eventId), ("event_type", .str eventType),
      ("aggregate_type", .str aggregateType), ("aggregate_id", .ofOption .str aggregateId),
      ("aggregate_version", .number (.int aggregateVersion)),
      ("occurred_at", .str (Instant.isoformat occurredAt)),
      ("schema_version", .number (.int schemaVersion)), ("data", data)]

/-- `envelope_from_row` -/
def envelopeFromRow (row : Event) : Json String :=
  buildEnvelope (uuidText row.id) row.subject row.aggregateType row.aggregateId
    row.aggregateVersion row.createdAt row.payload row.schemaVersion

/-! ## The message -/

/-- What `js.publish` is called with. -/
structure Message where
  subject : String
  body : String
  headers : List (String × String)
  deriving DecidableEq

/-- `SUBJECT_PREFIX` -/
def subjectPrefix : String := "favl"

/-- The deduplication header. -/
def msgIdHeader : String := "Nats-Msg-Id"

/-- The message `JetStreamConnection.publish` makes of its arguments. -/
def jetstreamMessage (subject body msgId : String) : Message where
  subject := subjectPrefix ++ "." ++ subject
  body := body
  headers := [(msgIdHeader, msgId)]

/-- The `Nats-Msg-Id` of a message. -/
def Message.msgId (m : Message) : Option String := m.headers.lookup msgIdHeader

@[simp] theorem msgId_jetstreamMessage (subject body msgId : String) :
    (jetstreamMessage subject body msgId).msgId = some msgId := by
  simp [Message.msgId, jetstreamMessage]

/-- The message of a row; `dumps` is `json.dumps(…, default=str)`. -/
def messageOf (dumps : Json String → String) (row : Event) : Message :=
  jetstreamMessage row.subject (dumps (envelopeFromRow row)) (uuidText row.id)

@[simp] theorem msgId_messageOf (dumps : Json String → String) (row : Event) :
    (messageOf dumps row).msgId = some (uuidText row.id) := msgId_jetstreamMessage _ _ _

end FavlGateway.Outbox
