/-
  Consumer-side event parsing (`favl_outbox/consumer.py`).

  A payload is any JSON object.  The parser looks at the schema version, at the truth of the two
  identifiers and at nothing else: every field of a version 1 envelope is copied into the event as it
  came, so a field of a `DomainEvent` holds a JSON value and its annotation is a property of it
  (`Annotated`), which a producer may keep and a foreign message may not.  The ordering rule then
  compares what it was given the way Python does, and `<=` between a text and a number raises.

  What the parser counts is part of its result: the labels of `SCHEMA_PROCESSED` and
  `SCHEMA_REJECTED` it increments, in order.
-/
import FavlGateway.Outbox.Consumer
import FavlGateway.Library.Datetime

namespace FavlGateway.Outbox

open FavlGateway.Library

/-! ## Numbers in Python's comparisons -/

/-- The number a value compares as: a boolean is an integer. -/
def numberOf : Json PyStr → Option Number
  | .number n => some n
  | .bool b => some (.int (if b then 1 else 0))
  | _ => none

/-- `n == k` -/
def numberEq : Number → Int → Bool
  | .int n, k => n = k
  | .float q, k => q = k
  | .negZero, k => k = 0
  | .nan, _ | .inf _, _ => false

/-- `n <= k` -/
def numberLe : Number → Int → Bool
  | .int n, k => n ≤ k
  | .float q, k => q ≤ k
  | .negZero, k => 0 ≤ k
  | .nan, _ => false
  | .inf negative, _ => negative

/-- `v == k`, for a value of any type -/
def equalsInt (v : Json PyStr) (k : Int) : Bool :=
  match numberOf v with
  | some n => numberEq n k
  | none => false

/-! ## Events -/

/-- `LEGACY_SCHEMA_VERSION` -/
def legacySchemaVersion : Int := 0

/-- `CURRENT_SCHEMA_VERSION` -/
def currentSchemaVersion : Int := 1

/-- An increment of one of the two counters, with its label. -/
inductive SchemaCount where
  | processed (schemaVersion : String)
  | rejected (reason : String)
  deriving DecidableEq

/-- Base for every rejection this module raises. -/
inductive EventParseError where
  | unsupportedSchemaVersion (version : Json PyStr)
  | malformedEnvelope (missing : String)

/-- The text of the exception; `repr` is Python's. -/
def EventParseError.message (repr : Json PyStr → PyStr) : EventParseError → PyStr
  | unsupportedSchemaVersion version => "unsupported event schema_version: " ++ repr version
  | malformedEnvelope missing => "v1 envelope is missing required field: " ++ PyStr.ofString missing

/-- Normalised internal form. -/
structure DomainEvent where
  eventId : Json PyStr
  eventType : Json PyStr
  aggregateType : Json PyStr
  aggregateId : Json PyStr
  aggregateVersion : Json PyStr
  occurredAt : Option Datetime
  schemaVersion : Int
  data : Json PyStr

def DomainEvent.isLegacy (e : DomainEvent) : Bool := e.schemaVersion = legacySchemaVersion

/-- Legacy events carry no `event_id`, so they cannot be deduplicated. -/
def DomainEvent.isDeduplicable (e : DomainEvent) : Bool := decide (e.eventId ≠ .null)

def DomainEvent.isOrderable (e : DomainEvent) : Bool := decide (e.aggregateVersion ≠ .null)

/-! ## The parser -/

/-- `payload.get(key, default)` -/
def payloadGetOr (payload : Dict PyStr) (key : String) (default : Json PyStr) : Json PyStr :=
  ((payload.find? fun m => m.1 = PyStr.ofString key).map Prod.snd).getD default

/-- `payload.get(key)` -/
def payloadGet (payload : Dict PyStr) (key : String) : Json PyStr := payloadGetOr payload key .null

/-- Python's truth of a value. -/
def isTruthy (v : Json PyStr) : Bool := v.truthy PyStr.isEmpty

/-- `v or w` -/
def truthyOr (v w : Json PyStr) : Json PyStr := if isTruthy v then v else w

section Parser

/- `other` is what `fromisoformat` makes of a text that `isoformat` does not write. -/
variable (other : PyStr → Option Datetime)

/-- `value.replace("Z", "+00:00")` -/
def replaceZ (s : PyStr) : PyStr :=
  ⟨s.codepoints.flatMap fun c =>
    if c = 'Z'.toNat then (PyStr.ofString "+00:00").codepoints else [c]⟩

/-- `_parse_timestamp` -/
def parseTimestamp : Json PyStr → Option Datetime
  | .str value =>
    match Datetime.fromisoformat other (replaceZ value) with
    | some parsed => some (if parsed.isAware then parsed else parsed.replaceUtc)
    | none => none
  | _ => none

/-- Pre-envelope format: a bare domain body, no identifiers. -/
def parseLegacyEvent (payload : Dict PyStr) (subject : Option PyStr) :
    List SchemaCount × DomainEvent :=
  ([.processed "legacy"],
    { eventId := .null
      eventType :=
        match subject with
        | some s => .str (if s.isEmpty then "unknown" else s)
        | none => .str "unknown"
      aggregateType := .null
      aggregateId :=
        truthyOr (truthyOr (payloadGet payload "agent_id") (payloadGet payload "connector_id"))
          (payloadGet payload "id")
      aggregateVersion := .null
      occurredAt := parseTimestamp other (payloadGet payload "created_at")
      schemaVersion := legacySchemaVersion
      data := .obj payload })

/-- The required fields, in the order they are looked at. -/
def requiredFields : List String := ["event_id", "event_type"]

def parseV1Event (payload : Dict PyStr) : List SchemaCount × Except EventParseError DomainEvent :=
  match requiredFields.find? fun required => !isTruthy (payloadGet payload required) with
  | some required => ([.rejected "malformed_envelope"], .error (.malformedEnvelope required))
  | none =>
    ([.processed "1"],
      .ok
        { eventId := payloadGet payload "event_id"
          eventType := payloadGet payload "event_type"
          aggregateType := payloadGet payload "aggregate_type"
          aggregateId := payloadGet payload "aggregate_id"
          aggregateVersion := payloadGet payload "aggregate_version"
          occurredAt := parseTimestamp other (payloadGet payload "occurred_at")
          schemaVersion := currentSchemaVersion
          data := payloadGetOr payload "data" (.obj []) })

def parseEvent (payload : Dict PyStr) (subject : Option PyStr) :
    List SchemaCount × Except EventParseError DomainEvent :=
  let schemaVersion := payloadGet payload "schema_version"
  if schemaVersion = .null then
    let (counts, event) := parseLegacyEvent other payload subject
    (counts, .ok event)
  else if equalsInt schemaVersion currentSchemaVersion then parseV1Event other payload
  else ([.rejected "unsupported_version"], .error (.unsupportedSchemaVersion schemaVersion))

end Parser

/-! ## The ordering rule on what was parsed -/

/-- `version_decision` on the value an event carries; `none` where a comparison raises
    `TypeError`. -/
def versionDecisionOf (incoming : Json PyStr) (lastApplied : Option Int) : Option Decision :=
  if incoming = .null then some .quarantine
  else
    match lastApplied with
    | none => some (if equalsInt incoming 1 then .apply else .quarantine)
    | some lastApplied =>
      match numberOf incoming with
      | none => none
      | some n =>
        some
          (if numberLe n lastApplied then .ignore
          else if numberEq n (lastApplied + 1) then .apply
          else .quarantine)

/-! ## Annotations -/

def isText : Json PyStr → Bool
  | .str _ => true
  | _ => false

/-- A boolean is an `int` too. -/
def isInteger : Json PyStr → Bool
  | .number (.int _) => true
  | .bool _ => true
  | _ => false

def isObject : Json PyStr → Bool
  | .obj _ => true
  | _ => false

/-- The fields that identify and order an event have their declared types. -/
structure DomainEvent.Annotated (e : DomainEvent) : Prop where
  event_id : e.eventId = .null ∨ isText e.eventId
  event_type : isText e.eventType
  aggregate_version : e.aggregateVersion = .null ∨ isInteger e.aggregateVersion
  data : isObject e.data

/-- The integer an annotated version is. -/
def versionOf : Json PyStr → Option Int
  | .number (.int n) => some n
  | .bool b => some (if b then 1 else 0)
  | _ => none

/-- On what the annotation promises, the comparisons are those between integers. -/
theorem versionDecisionOf_annotated {v : Json PyStr} (h : v = .null ∨ isInteger v)
    (lastApplied : Option Int) :
    versionDecisionOf v lastApplied = some (versionDecision (versionOf v) lastApplied) := by
  have hint : ∀ n : Int, numberOf v = some (.int n) → v ≠ .null → versionOf v = some n →
      versionDecisionOf v lastApplied = some (versionDecision (versionOf v) lastApplied) := by
    intro n hnumber hnull hversion
    unfold versionDecisionOf
    rw [if_neg hnull, hversion]
    cases lastApplied with
    | none => simp [versionDecision, equalsInt, hnumber, numberEq]
    | some k => simp [versionDecision, hnumber, numberEq, numberLe]
  rcases h with rfl | h
  · rfl
  · cases v with
    | number n =>
      cases n with
      | int n => exact hint n rfl (by simp) rfl
      | float q => cases h
      | negZero => cases h
      | nan => cases h
      | inf negative => cases h
    | bool b => exact hint (if b then 1 else 0) rfl (by simp) rfl
    | null => cases h
    | str s => cases h
    | arr xs => cases h
    | obj ms => cases h

/-- Only what compares as no number makes the rule raise. -/
theorem versionDecisionOf_eq_none {v : Json PyStr} {lastApplied : Option Int} :
    versionDecisionOf v lastApplied = none ↔
      v ≠ .null ∧ lastApplied ≠ none ∧ numberOf v = none := by
  unfold versionDecisionOf
  by_cases hv : v = .null
  · simp [hv]
  · rw [if_neg hv]
    cases lastApplied with
    | none => simp
    | some k =>
      cases hnumber : numberOf v with
      | none => simp [hv]
      | some n => simp

/-! ## What the parser makes of a payload -/

section Payloads

variable {other : PyStr → Option Datetime} {payload : Dict PyStr} {subject : Option PyStr}

/-- The payload announces version 1 and has both identifiers. -/
def IsV1 (payload : Dict PyStr) : Prop :=
  payloadGet payload "schema_version" ≠ .null ∧
    equalsInt (payloadGet payload "schema_version") currentSchemaVersion = true ∧
    ∀ required ∈ requiredFields, isTruthy (payloadGet payload required) = true

/-- The fields that are copied from the payload have the types the event declares. -/
structure FieldsTyped (payload : Dict PyStr) : Prop where
  event_id : isText (payloadGet payload "event_id")
  event_type : isText (payloadGet payload "event_type")
  aggregate_version : payloadGet payload "aggregate_version" = .null ∨
    isInteger (payloadGet payload "aggregate_version")
  data : isObject (payloadGetOr payload "data" (.obj []))

/-- The event of a version 1 envelope. -/
def v1Event (other : PyStr → Option Datetime) (payload : Dict PyStr) : DomainEvent where
  eventId := payloadGet payload "event_id"
  eventType := payloadGet payload "event_type"
  aggregateType := payloadGet payload "aggregate_type"
  aggregateId := payloadGet payload "aggregate_id"
  aggregateVersion := payloadGet payload "aggregate_version"
  occurredAt := parseTimestamp other (payloadGet payload "occurred_at")
  schemaVersion := currentSchemaVersion
  data := payloadGetOr payload "data" (.obj [])

theorem parseEvent_v1 (h : IsV1 payload) :
    parseEvent other payload subject = ([.processed "1"], .ok (v1Event other payload)) := by
  obtain ⟨hpresent, hversion, hrequired⟩ := h
  have hnone : requiredFields.find? (fun required => !isTruthy (payloadGet payload required)) =
      none := by
    rw [List.find?_eq_none]
    intro required hmem
    rw [hrequired required hmem]
    decide
  simp only [parseEvent, if_neg hpresent, hversion, if_true, parseV1Event, hnone]
  rfl

/-- Every other payload is legacy, and gives a typed event, or is rejected and counted. -/
theorem parseEvent_other (h : ¬ IsV1 payload) :
    payloadGet payload "schema_version" = .null ∧
        parseEvent other payload subject =
          ([.processed "legacy"], .ok (parseLegacyEvent other payload subject).2) ∨
      ∃ reason error,
        parseEvent other payload subject = ([.rejected reason], .error error) := by
  unfold parseEvent
  by_cases hpresent : payloadGet payload "schema_version" = .null
  · left
    exact ⟨hpresent, by rw [if_pos hpresent]; rfl⟩
  · right
    rw [if_neg hpresent]
    by_cases hversion : equalsInt (payloadGet payload "schema_version") currentSchemaVersion = true
    · rw [if_pos hversion]
      unfold parseV1Event
      cases hfind : requiredFields.find? fun required => !isTruthy (payloadGet payload required) with
      | some required => exact ⟨_, _, rfl⟩
      | none =>
        -- both identifiers are there, so the payload is version 1 after all
        refine absurd ⟨hpresent, hversion, fun required hmem => ?_⟩ h
        have htruthy := List.find?_eq_none.mp hfind required hmem
        simpa using htruthy
    · rw [if_neg hversion]
      exact ⟨_, _, rfl⟩

theorem parseLegacyEvent_annotated : (parseLegacyEvent other payload subject).2.Annotated := by
  refine ⟨Or.inl rfl, ?_, Or.inl rfl, rfl⟩
  cases subject with
  | none => rfl
  | some s => rfl

/-- A truthy value is not `None`. -/
theorem ne_null_of_truthy {v : Json PyStr} (h : isTruthy v = true) : v ≠ .null := by
  rintro rfl
  cases h

/-- The event of a version 1 envelope is annotated exactly if the envelope's fields are. -/
theorem v1Event_annotated_iff (h : IsV1 payload) :
    (v1Event other payload).Annotated ↔ FieldsTyped payload := by
  constructor
  · rintro ⟨hid, htype, hversion, hdata⟩
    have htruthy := h.2.2 "event_id" (by simp [requiredFields])
    exact ⟨hid.resolve_left (ne_null_of_truthy htruthy), htype, hversion, hdata⟩
  · rintro ⟨hid, htype, hversion, hdata⟩
    exact ⟨Or.inr hid, htype, hversion, hdata⟩

/-- Exactly the legacy events cannot be deduplicated. -/
theorem isDeduplicable_iff {counts : List SchemaCount} {event : DomainEvent}
    (h : parseEvent other payload subject = (counts, .ok event)) :
    event.isDeduplicable = true ↔ event.isLegacy = false := by
  by_cases hv1 : IsV1 payload
  · rw [parseEvent_v1 hv1] at h
    cases h
    have htruthy := hv1.2.2 "event_id" (by simp [requiredFields])
    have hne : payloadGet payload "event_id" ≠ .null := ne_null_of_truthy htruthy
    simp [DomainEvent.isDeduplicable, DomainEvent.isLegacy, v1Event, hne, currentSchemaVersion,
      legacySchemaVersion]
  · rcases @parseEvent_other other payload subject hv1 with ⟨-, hlegacy⟩ | ⟨_, _, hrejected⟩
    · rw [hlegacy] at h
      cases h
      simp [DomainEvent.isDeduplicable, DomainEvent.isLegacy, parseLegacyEvent]
    · rw [hrejected] at h
      cases h

end Payloads

/-! ## Classification -/

def SchemaCount.isRejected : SchemaCount → Bool
  | rejected _ => true
  | processed _ => false

/-- The payload is rejected and counted once, or gives an event with the declared types that the
    ordering rule decides on, whatever was applied before. -/
def Classified (other : PyStr → Option Datetime) (payload : Dict PyStr)
    (subject : Option PyStr) : Prop :=
  (∃ counts error, parseEvent other payload subject = (counts, .error error) ∧
    counts.countP SchemaCount.isRejected = 1) ∨
  ∃ counts event, parseEvent other payload subject = (counts, .ok event) ∧ event.Annotated ∧
    ∀ lastApplied, ∃ d, versionDecisionOf event.aggregateVersion lastApplied = some d

/-- **The consumer classifies a payload exactly if what it copies has the declared types**: anything
    that is not a complete version 1 envelope is classified; a complete one is classified exactly if
    its identifiers are texts, its version an integer or null and its data an object, where they are
    given. -/
theorem parse_event_classifies (other : PyStr → Option Datetime) (payload : Dict PyStr)
    (subject : Option PyStr) :
    Classified other payload subject ↔ (IsV1 payload → FieldsTyped payload) := by
  constructor
  · rintro (⟨counts, error, h, -⟩ | ⟨counts, event, h, htyped, -⟩) hv1
    · rw [parseEvent_v1 hv1] at h
      cases h
    · rw [parseEvent_v1 hv1] at h
      cases h
      exact (v1Event_annotated_iff hv1).mp htyped
  · intro h
    by_cases hv1 : IsV1 payload
    · have htyped := (@v1Event_annotated_iff other payload hv1).mpr (h hv1)
      refine Or.inr ⟨_, _, parseEvent_v1 hv1, htyped, fun lastApplied => ?_⟩
      exact ⟨_, versionDecisionOf_annotated htyped.aggregate_version lastApplied⟩
    · rcases @parseEvent_other other payload subject hv1 with
        ⟨-, hlegacy⟩ | ⟨reason, error, hrejected⟩
      · exact Or.inr ⟨_, _, hlegacy, parseLegacyEvent_annotated, fun lastApplied => ⟨_, rfl⟩⟩
      · exact Or.inl ⟨_, _, hrejected, rfl⟩

/-- An envelope whose version is a text. -/
def mistypedVersion : Dict PyStr :=
  [("schema_version", .number (.int 1)), ("event_id", .str "e-1"),
    ("event_type", .str "agent.updated"), ("aggregate_version", .str "two")]

/-- It is accepted, and the ordering rule raises on it. -/
theorem mistyped_version_unclassified :
    ¬ Classified (fun _ => none) mistypedVersion none := by
  have hv1 : IsV1 mistypedVersion := by
    unfold IsV1
    decide
  rintro (⟨counts, error, h, -⟩ | ⟨counts, event, h, -, hdecides⟩)
  · rw [parseEvent_v1 hv1] at h
    cases h
  · rw [parseEvent_v1 hv1] at h
    cases h
    obtain ⟨d, hd⟩ := hdecides (some 1)
    have hraises := versionDecisionOf_eq_none.mpr
      (show (v1Event (fun _ => none) mistypedVersion).aggregateVersion ≠ .null ∧
        some (1 : Int) ≠ none ∧
        numberOf (v1Event (fun _ => none) mistypedVersion).aggregateVersion = none by decide)
    rw [hraises] at hd
    cases hd

end FavlGateway.Outbox
