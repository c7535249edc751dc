/-
  Producer and consumer agree on the event format: `envelope_from_row` and `json.dumps` on one side
  (`favl_outbox/envelope.py`, `favl_outbox/publisher.py`), `json.loads` and `parse_event` on the other
  (`favl_outbox/consumer.py`).

  The two sides share no definition.  Each has its own version constant and its own idea of which
  fields are required, and the time crosses the wire as a text.  The round trip rests on three facts:
  what `dumps` writes `loads` reads back, what `isoformat` writes `fromisoformat` reads back, and the
  payload travels under one key, so that nothing in it can pass for a field of the envelope.
-/
import FavlGateway.Outbox.Models
import FavlGateway.Outbox.Parsing
import FavlGateway.Library.JsonText

namespace FavlGateway.Outbox

open FavlGateway.Library
open FavlGateway.Registry (uuidText)

/-! ## The producer -/

/-- `SCHEMA_VERSION` -/
def schemaVersion : Int := 1

/-- `envelope_from_row`, for a row whose `created_at` is `createdAt`. -/
def envelopeAt (row : Event) (createdAt : Datetime) : Json String :=
  .obj
    [("event_id", .str (uuidText row.id)), ("event_type", .str row.subject),
      ("aggregate_type", .str row.aggregateType),
      ("aggregate_id", .ofOption .str row.aggregateId),
      ("aggregate_version", .number (.int row.aggregateVersion)),
      ("occurred_at", .str createdAt.isoformat),
      ("schema_version", .number (.int row.schemaVersion)), ("data", row.payload)]

/-- A row whose `created_at` is in UTC. -/
theorem envelopeFromRow_eq {row : Event} {createdAt : Datetime}
    (h : createdAt.isoformat = Instant.isoformat row.createdAt) :
    envelopeFromRow row = envelopeAt row createdAt := by
  rw [envelopeFromRow, buildEnvelope, ← h]
  rfl

/-- `json.dumps(envelope_from_row(row), default=str)`; every value is a JSON type, so `default` is
    not used. -/
def wireBody (repr : ℚ → String) (row : Event) (createdAt : Datetime) : List Char :=
  Json.dumps repr (envelopeAt row createdAt)

/-- What the publisher sends for a row is that text, with `created_at` in UTC. -/
theorem messageOf_body (repr : ℚ → String) (row : Event)
    (h : (Datetime.utcFields (row.createdAt * 1000000).floor).Valid) :
    (messageOf (fun v => String.ofList (Json.dumps repr v)) row).body =
      String.ofList (wireBody repr row ⟨_, h⟩) := by
  have hutc := Datetime.isoformat_utcFields h
  rw [wireBody, ← envelopeFromRow_eq hutc]
  rfl

/-! ## The consumer -/

/-- A message handler: `parse_event(json.loads(body), subject)`; `none` where the body is no JSON
    object. -/
def consume (other : PyStr → Option Datetime) (body : List Char) (subject : Option PyStr) :
    Option (List SchemaCount × Except EventParseError DomainEvent) :=
  match Json.loads body with
  | some (.obj payload) => some (parseEvent other payload subject)
  | _ => none

/-- The event says what the row says. -/
structure DomainEvent.Carries (event : DomainEvent) (row : Event) (createdAt : Datetime)
    (data : Dict String) : Prop where
  current : event.isLegacy = false
  event_id : event.eventId = .str (PyStr.ofString (uuidText row.id))
  event_type : event.eventType = .str (PyStr.ofString row.subject)
  aggregate_type : event.aggregateType = .str (PyStr.ofString row.aggregateType)
  aggregate_id : event.aggregateId = (Json.ofOption .str row.aggregateId).toPy
  aggregate_version : event.aggregateVersion = .number (.int row.aggregateVersion)
  occurred_at : event.occurredAt = some createdAt
  data : event.data = .obj (Json.toPyMembers data)

/-! ## Between the two -/

section RoundTrip

variable {repr : ℚ → String} {other : PyStr → Option Datetime} {row : Event}
  {createdAt : Datetime} {data : Dict String}

/-- The members of the envelope, as the consumer has them. -/
def received (row : Event) (createdAt : Datetime) : Dict PyStr :=
  [("event_id", .str (uuidText row.id)), ("event_type", .str row.subject),
    ("aggregate_type", .str row.aggregateType),
    ("aggregate_id", (Json.ofOption .str row.aggregateId).toPy),
    ("aggregate_version", .number (.int row.aggregateVersion)),
    ("occurred_at", .str createdAt.isoformat),
    ("schema_version", .number (.int row.schemaVersion)), ("data", row.payload.toPy)]

theorem plain_envelopeAt (h : row.payload.plain repr = true) :
    (envelopeAt row createdAt).plain repr = true := by
  have hid : ((Json.ofOption .str row.aggregateId).plain repr) = true := by
    cases row.aggregateId with
    | none => rfl
    | some s => rfl
  simp only [envelopeAt, Json.plain, Json.plainMembers, List.map_cons, List.map_nil, h, hid,
    Bool.and_true]
  decide

/-- The body is read back as the envelope's members. -/
theorem loads_wireBody (h : row.payload.plain repr = true) :
    Json.loads (wireBody repr row createdAt) = some (.obj (received row createdAt)) :=
  Json.loads_dumps (plain_envelopeAt h)

theorem uuidText_ne_empty (id : Registry.Uuid) : uuidText id ≠ "" := by
  intro h
  have hlength := congrArg String.length h
  simp [uuidText] at hlength

theorem isTruthy_str {s : String} (h : s ≠ "") : isTruthy (.str (PyStr.ofString s)) = true := by
  simp [isTruthy, Json.truthy, h]

/-- A text without a `Z` is parsed as it is. -/
theorem replaceZ_of_not_mem {s : String} (h : 'Z' ∉ s.toList) :
    replaceZ (PyStr.ofString s) = PyStr.ofString s := by
  have hkeep : ∀ c ∈ s.toList.map Char.toNat,
      (if c = 'Z'.toNat then (PyStr.ofString "+00:00").codepoints else [c]) = [c] := by
    intro n hn
    obtain ⟨c, hc, rfl⟩ := List.mem_map.mp hn
    have hne : c.toNat ≠ 'Z'.toNat := by
      intro heq
      have hchar : c = 'Z' := Char.toNat_inj.mp heq
      rw [hchar] at hc
      exact h hc
    rw [if_neg hne]
  rw [replaceZ]
  congr 1
  show (s.toList.map Char.toNat).flatMap _ = s.toList.map Char.toNat
  rw [List.flatMap_congr hkeep, List.flatMap_singleton']

/-- The time comes back as it was written. -/
theorem parseTimestamp_isoformat (h : createdAt.isAware = true) :
    parseTimestamp other (.str (PyStr.ofString createdAt.isoformat)) = some createdAt := by
  have hreplace := replaceZ_of_not_mem createdAt.not_mem_isoformat
  simp only [parseTimestamp, hreplace, Datetime.fromisoformat_isoformat, h, if_true]

theorem isV1_received (hversion : row.schemaVersion = schemaVersion) (hsubject : row.subject ≠ "") :
    IsV1 (received row createdAt) := by
  refine ⟨?_, ?_, ?_⟩
  · simp [payloadGet, payloadGetOr, received]
  · simp [payloadGet, payloadGetOr, received, equalsInt, numberOf, numberEq, hversion,
      schemaVersion, currentSchemaVersion]
  · intro required hrequired
    rw [requiredFields, List.mem_cons, List.mem_singleton] at hrequired
    rcases hrequired with rfl | rfl
    · simpa [payloadGet, payloadGetOr, received] using isTruthy_str (uuidText_ne_empty row.id)
    · simpa [payloadGet, payloadGetOr, received] using isTruthy_str hsubject

theorem v1Event_received (haware : createdAt.isAware = true) (hdata : row.payload = .obj data) :
    (v1Event other (received row createdAt)).Carries row createdAt data where
  current := rfl
  event_id := by simp [v1Event, payloadGet, payloadGetOr, received]
  event_type := by simp [v1Event, payloadGet, payloadGetOr, received]
  aggregate_type := by simp [v1Event, payloadGet, payloadGetOr, received]
  aggregate_id := by simp [v1Event, payloadGet, payloadGetOr, received]
  aggregate_version := by simp [v1Event, payloadGet, payloadGetOr, received]
  occurred_at := by
    have htime : payloadGet (received row createdAt) "occurred_at" =
        .str (PyStr.ofString createdAt.isoformat) := by
      simp [payloadGet, payloadGetOr, received]
    rw [v1Event, htime, parseTimestamp_isoformat haware]
  data := by simp [v1Event, payloadGetOr, received, hdata, Json.toPy]

end RoundTrip

/-- **Producer and consumer agree on the event format**: a row of the producer's schema version, with
    a subject, an aware time and a JSON object for a payload, serialised and parsed, is a current
    event that carries everything the row says.

    `repr` is `float.__repr__` and `other` what `fromisoformat` makes of foreign spellings; a payload
    is `plain` if its floats read back from their `repr` and its keys are those of a `dict`. -/
theorem producer_consumer_agree (repr : ℚ → String) (other : PyStr → Option Datetime) (row : Event)
    (createdAt : Datetime) (data : Dict String) (subject : Option PyStr)
    (hversion : row.schemaVersion = schemaVersion) (hsubject : row.subject ≠ "")
    (haware : createdAt.isAware = true) (hdata : row.payload = .obj data)
    (hplain : row.payload.plain repr = true) :
    ∃ event, consume other (wireBody repr row createdAt) subject =
        some ([.processed "1"], .ok event) ∧ event.Carries row createdAt data := by
  refine ⟨v1Event other (received row createdAt), ?_, v1Event_received haware hdata⟩
  simp only [consume, loads_wireBody hplain]
  rw [parseEvent_v1 (isV1_received hversion hsubject)]

/-- A payload whose keys are those of the envelope. -/
def collidingRow : Event where
  id := 0x7f2b1c640a3d4a5e9c112b3c4d5e6f70
  aggregateType := "agent"
  aggregateId := some "aggregate-1"
  aggregateVersion := 3
  subject := "agent.created"
  schemaVersion := 1
  payload :=
    .obj
      [("event_id", .str "é"), ("schema_version", .number (.int 99)),
        ("data", .arr [.number (.float (1 / 2)), .null]), ("aggregate_version", .bool true)]
  maxAttempts := defaultMaxAttempts
  createdAt := 1785844800

/-- Two and a half hours east of Greenwich. -/
def eastern : Datetime := ⟨⟨2026, 8, 4, 14, 30, 0, 5, some 9000000000⟩, by decide⟩

theorem producer_consumer_agree_colliding :
    ∃ event, consume (fun _ => none) (wireBody (fun _ => "0.5") collidingRow eastern) none =
        some ([.processed "1"], .ok event) ∧
      event.Carries collidingRow eastern
        [("event_id", .str "é"), ("schema_version", .number (.int 99)),
          ("data", .arr [.number (.float (1 / 2)), .null]), ("aggregate_version", .bool true)] :=
  producer_consumer_agree (fun _ => "0.5") (fun _ => none) collidingRow eastern _ none rfl
    (by decide) rfl rfl (by decide +kernel)

end FavlGateway.Outbox
