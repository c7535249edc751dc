/-
  The payloads of the registry's events are values in memory.

  Every payload is a `dict` with the keys its builder wrote, and the only floats in it are the
  duration of an invocation, which is rounded, and those of a connector's configuration, which came
  with the request.  So a payload can be sent and read back (`Json.native`) if what the request
  brought is itself a value in memory.
-/
import FavlGateway.Library.FloatText
import FavlGateway.Registry.Transactions

namespace FavlGateway.Registry

open FavlGateway.Library

/-- What a creation posts as its configuration is a value in memory. -/
def Incoming.Native (rq : Incoming) : Prop :=
  ∀ caller payload, rq.request = .createConnector caller payload →
    (Json.obj payload.config).native = true

/-! ## Redaction -/

theorem keys_redactHeaders (ms : Dict String) :
    (redactHeaders ms).map Prod.fst = ms.map Prod.fst := by
  rw [redactHeaders, List.map_map]
  rfl

theorem keys_redactMembers (parentSensitive : Bool) (ms : List (String × Json String)) :
    (redactMembers parentSensitive ms).map Prod.fst = ms.map Prod.fst := by
  induction ms with
  | nil => rfl
  | cons m ms ih =>
    obtain ⟨k, x⟩ := m
    rw [redactMembers, List.map_cons, List.map_cons, ih]

theorem native_redactHeaders {ms : Dict String} (h : Json.nativeMembers ms = true) :
    Json.nativeMembers (redactHeaders ms) = true := by
  induction ms with
  | nil => rfl
  | cons m ms ih =>
    obtain ⟨k, x⟩ := m
    rw [Json.nativeMembers, Bool.and_eq_true] at h
    rw [redactHeaders, List.map_cons, Json.nativeMembers, Bool.and_eq_true]
    refine ⟨?_, ih h.2⟩
    dsimp only
    split
    · exact h.1
    · rfl

theorem native_redactValue {key : String} {v : Json String} {parentSensitive : Bool}
    (h : v.native = true) : (redactValue key v parentSensitive).native = true := by
  unfold redactValue
  split
  · exact h
  · split
    · rfl
    · split
      · split
        · exact h
        · rfl
      · exact h

mutual

/-- Redaction leaves the keys and puts in texts only. -/
theorem native_redactAny (key : String) (parentSensitive : Bool) : ∀ v : Json String,
    v.native = true → (redactAny key parentSensitive v).native = true
  | .null, h => by
    rw [redactAny]
    exact native_redactValue h
  | .bool _, h => by
    rw [redactAny]
    exact native_redactValue h
  | .number _, h => by
    rw [redactAny]
    exact native_redactValue h
  | .str _, h => by
    rw [redactAny]
    exact native_redactValue h
  | .arr xs, h => by
    rw [Json.native] at h
    rw [redactAny, Json.native]
    exact native_redactItems key _ xs h
  | .obj ms, h => by
    rw [Json.native, Bool.and_eq_true] at h
    rw [redactAny]
    split
    · rw [Json.native, keys_redactHeaders, Bool.and_eq_true]
      exact ⟨h.1, native_redactHeaders h.2⟩
    · rw [Json.native, keys_redactMembers, Bool.and_eq_true]
      exact ⟨h.1, native_redactMembers _ ms h.2⟩

theorem native_redactItems (key : String) (parentSensitive : Bool) : ∀ xs : List (Json String),
    Json.nativeList xs = true → Json.nativeList (redactItems key parentSensitive xs) = true
  | [], _ => rfl
  | x :: xs, h => by
    rw [Json.nativeList, Bool.and_eq_true] at h
    rw [redactItems, Json.nativeList, Bool.and_eq_true]
    exact ⟨native_redactAny key parentSensitive x h.1,
      native_redactItems key parentSensitive xs h.2⟩

theorem native_redactMembers (parentSensitive : Bool) : ∀ ms : List (String × Json String),
    Json.nativeMembers ms = true → Json.nativeMembers (redactMembers parentSensitive ms) = true
  | [], _ => rfl
  | (k, x) :: ms, h => by
    rw [Json.nativeMembers, Bool.and_eq_true] at h
    rw [redactMembers, Json.nativeMembers, Bool.and_eq_true]
    exact ⟨native_redactAny k parentSensitive x h.1, native_redactMembers parentSensitive ms h.2⟩

end

theorem native_redactConfig {config : Dict String} (h : (Json.obj config).native = true) :
    (Json.obj (redactConfig config)).native = true := by
  rw [Json.native, Bool.and_eq_true] at h
  rw [redactConfig, Json.native, keys_redactMembers, Bool.and_eq_true]
  exact ⟨h.1, native_redactMembers false config h.2⟩

/-! ## The payloads -/

theorem get?_eq_none_iff {d : Dict String} {key : String} :
    d.get? key = none ↔ key ∉ d.map Prod.fst := by
  rw [Dict.get?, Option.map_eq_none_iff, List.find?_eq_none]
  simp only [decide_eq_true_eq, List.mem_map, not_exists, not_and]

/-- The URL goes in only where there is none. -/
theorem native_effectiveConfig {payload : ConnectorCreate}
    (h : (Json.obj payload.config).native = true) :
    (Json.obj (effectiveConfig payload)).native = true := by
  unfold effectiveConfig
  split
  · rename_i url _
    split
    · rename_i hnone
      rw [Json.native, Bool.and_eq_true, decide_eq_true_eq] at h
      have hkey : "base_url" ∉ payload.config.map Prod.fst :=
        get?_eq_none_iff.mp (Option.isNone_iff_eq_none.mp hnone)
      rw [Json.native, Bool.and_eq_true, decide_eq_true_eq, List.map_append,
        Json.nativeMembers_append, h.2]
      exact ⟨h.1.append (List.nodup_singleton _) (by simpa using hkey), rfl⟩
    · exact h
  · exact h

theorem native_ofOption {α : Type} {f : α → Json String} (h : ∀ a, (f a).native = true)
    (o : Option α) : (Json.ofOption f o).native = true := by
  cases o with
  | none => rfl
  | some a => exact h a

theorem native_texts (texts : List String) : Json.nativeList (texts.map jsonStr) = true := by
  rw [Json.nativeList_iff]
  intro x hx
  obtain ⟨text, -, rfl⟩ := List.mem_map.mp hx
  rfl

/-- The document of a connector, if its configuration is in memory. -/
theorem native_modelDump {c : Connector} (h : (Json.obj c.config).native = true) :
    c.modelDump.native = true := by
  have htext : ∀ o : Option String, (Json.ofOption jsonStr o).native = true :=
    native_ofOption fun _ => rfl
  have htime : ∀ o : Option Time, (Json.ofOption jsonTime o).native = true :=
    native_ofOption fun _ => rfl
  have hscopes : (Json.arr (c.scopes.map jsonStr)).native = true := native_texts c.scopes
  rw [Connector.modelDump, Json.native, Bool.and_eq_true]
  refine ⟨by simp only [List.map_cons, List.map_nil]; decide, ?_⟩
  simp only [Json.nativeMembers, htext, htime, hscopes, h, Bool.and_true]
  rfl

theorem native_creationEvent {rq : Incoming} {caller : CallerIdentity} {payload : ConnectorCreate}
    (h : rq.Native) (request : rq.request = .createConnector caller payload) :
    (creationEvent rq.env (newConnector rq.env caller payload)).payload.native = true :=
  native_modelDump (native_redactConfig (native_effectiveConfig (h caller payload request)))

theorem native_transitionEvent (env : Env) (record : ConnectorRecord) (tr : Transition)
    (actorId tenantId : String) (reason : Option String) :
    (transitionEvent env record tr actorId tenantId reason).payload.native = true := by
  cases reason <;> rfl

theorem native_deletionEvent (env : Env) (caller : CallerIdentity) (connectorId : Uuid)
    (record : ConnectorRecord) :
    (deletionEvent env caller connectorId record).payload.native = true := by
  rw [deletionEvent, outboxEvent]
  cases record.deletionRequestedAt <;> rfl

/-- The keys that an event of an invocation always has. -/
def fixedKeys : List String :=
  ["invocation_id", "connector_id", "connector_version", "adapter_kind", "tenant_id", "actor_id",
    "operation", "status", "attempt"]

theorem native_eventPayload (record : InvocationRecord) :
    (Json.obj (eventPayload record)).native = true := by
  have hretryable : (Json.ofOption Json.bool record.retryable : Json String).native = true :=
    native_ofOption (fun _ => rfl) _
  have hmillis : ∀ ms, (jsonMillis ms).native = true := fun ms => isDouble_nearestDouble _
  rw [Json.native, Bool.and_eq_true, decide_eq_true_eq]
  constructor
  · -- the optional keys are different from the fixed ones and from each other
    have hkeys : ∃ trace error duration : Bool,
        (eventPayload record).map Prod.fst = fixedKeys ++ (if trace then ["trace_id"] else []) ++
          (if error then ["error_code", "retryable"] else []) ++
          (if duration then ["duration_ms"] else []) := by
      refine ⟨record.traceId.any fun t => t ≠ "", record.errorCode.isSome,
        record.durationMs.isSome, ?_⟩
      unfold eventPayload
      rw [List.map_append, List.map_append, List.map_append]
      congr 1
      · congr 1
        · congr 1
          cases record.traceId with
          | none => rfl
          | some t =>
            by_cases ht : t = ""
            · simp [ht]
            · simp [ht]
        · cases record.errorCode with
          | none => rfl
          | some code => rfl
      · cases record.durationMs with
        | none => rfl
        | some ms => rfl
    obtain ⟨trace, error, duration, hkeys⟩ := hkeys
    rw [hkeys]
    clear hkeys
    revert trace error duration
    decide
  · unfold eventPayload
    rw [Json.nativeMembers_append, Json.nativeMembers_append, Json.nativeMembers_append]
    simp only [Bool.and_eq_true]
    refine ⟨⟨⟨rfl, ?_⟩, ?_⟩, ?_⟩
    · cases record.traceId with
      | none => rfl
      | some t =>
        dsimp only
        split
        · rfl
        · rfl
    · cases record.errorCode with
      | none => rfl
      | some code =>
        simp only [Json.nativeMembers, hretryable]
        rfl
    · cases record.durationMs with
      | none => rfl
      | some ms =>
        simp only [Json.nativeMembers, hmillis]
        rfl

theorem native_emitted (id : Uuid) (record : InvocationRecord) (event : String) :
    (emitted id record event).payload.native = true := native_eventPayload record

end FavlGateway.Registry
