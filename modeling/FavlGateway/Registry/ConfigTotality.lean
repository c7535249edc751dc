/-
  Configuration validation and the creation that rests on it (`create_connector`, `app/main.py`).

  A request ends with 201 or 422 if nothing but its configuration is in its way: the validator has
  to return, what it accepts has to fit the JSONB columns of the connector and of its event and must
  not be too deep, and what it rejects has to be reported in Unicode.

  `config_validation_total` gives both conditions: on which configurations a validator returns, and
  on which a creation is answered.
-/
import FavlGateway.Registry.LifecycleReplies
import FavlGateway.Registry.Posted

namespace FavlGateway.Registry

open FavlGateway.Library
open FavlGateway.Security (configItem)

/-! ## The question -/

/-- The validator returns. -/
def Returns (validate : Dict PyStr → Except Security.Exc Verdict) (config : Dict PyStr) : Prop :=
  ∃ verdict, validate config = .ok verdict

/-- The row of a connector without its configuration and what validation found out about it. -/
def bare (record : ConnectorRecord) : ConnectorRecord :=
  { record with config := [], supportsIdempotency := false, idempotencyMode := .unsupported }

/-- The rows a creation adds. -/
def creationRows (env : Env) (caller : CallerIdentity) (record : ConnectorRecord) : Rows where
  connectors := [record]
  audit := [creationAudit env caller record]
  outbox := [creationEvent env record]

/-- The row that was posted, but for its configuration. -/
def postedRow (env : Env) (caller : CallerIdentity) (posted : PostedConnector) :
    ConnectorRecord where
  id := env.uuid4 0
  tenantId := caller.tenantId
  name := posted.name
  kind := posted.kind
  baseUrl := posted.baseUrl
  scopes := posted.scopes
  config := []
  status := posted.status
  supportsIdempotency := false
  idempotencyMode := .unsupported
  createdAt := env.utcnow 0

/-- Nothing but its configuration can be in the way of a creation: the name is free, and every other
    value fits its column. -/
def Insertable (env : Env) (caller : CallerIdentity) (posted : PostedConnector) (db : Db) : Prop :=
  (db.toRows ++ creationRows env caller (postedRow env caller posted)).Valid

/-- A creation with this configuration is answered 201 or 422, if nothing else is in its way. -/
def Answered (L : Limits) (validate : Dict PyStr → Except Security.Exc Verdict)
    (kind : ConnectorKind) (config : Dict PyStr) : Prop :=
  ∀ (env : Env) (caller : CallerIdentity) (posted : PostedConnector) (i : Nat) (st : Store),
    posted.kind = kind → posted.effectiveConfig = config →
      Insertable env caller posted st.db →
      (serve i (createWith L validate env caller posted) st).1.statusCode = 201 ∨
        (serve i (createWith L validate env caller posted) st).1.statusCode = 422

/-- The configuration can be stored and published: it is Unicode, its numbers are finite, it has no
    NUL in it, and it is not too deep. -/
def Storable (L : Limits) (config : Dict PyStr) : Prop :=
  ∃ stored, Json.renderMembers config = some stored ∧
    (Json.obj stored).storable textFits = true ∧ L.writes stored = true ∧
    L.publishes stored = true

/-! ## What fits a JSONB column -/

section Storable

theorem storable_redactHeaders {ms : Dict String} (h : Json.storableMembers textFits ms = true) :
    Json.storableMembers textFits (redactHeaders ms) = true := by
  have hredacted : redacted.storable textFits = true := by decide
  induction ms with
  | nil => rfl
  | cons m ms ih =>
    obtain ⟨k, x⟩ := m
    simp only [Json.storableMembers, Bool.and_eq_true] at h
    simp only [redactHeaders, List.map_cons, Json.storableMembers, Bool.and_eq_true] at ih ⊢
    refine ⟨⟨h.1.1, ?_⟩, ih h.2⟩
    split
    · exact h.1.2
    · exact hredacted

theorem storable_redactValue {key : String} {v : Json String} {parentSensitive : Bool}
    (h : v.storable textFits = true) :
    (redactValue key v parentSensitive).storable textFits = true := by
  have hredacted : redacted.storable textFits = true := by decide
  unfold redactValue
  split
  · exact h
  · split
    · exact hredacted
    · split
      · split
        · exact h
        · exact hredacted
      · exact h

mutual

/-- Redaction puts in nothing that a column could not hold. -/
theorem storable_redactAny (key : String) (parentSensitive : Bool) : ∀ v : Json String,
    v.storable textFits = true → (redactAny key parentSensitive v).storable textFits = true
  | .null, h => by
    rw [redactAny]
    exact storable_redactValue h
  | .bool _, h => by
    rw [redactAny]
    exact storable_redactValue h
  | .number _, h => by
    rw [redactAny]
    exact storable_redactValue h
  | .str _, h => by
    rw [redactAny]
    exact storable_redactValue h
  | .arr xs, h => by
    rw [Json.storable] at h
    rw [redactAny, Json.storable]
    exact storable_redactItems key _ xs h
  | .obj ms, h => by
    rw [Json.storable] at h
    rw [redactAny]
    split
    · rw [Json.storable]
      exact storable_redactHeaders h
    · rw [Json.storable]
      exact storable_redactMembers _ ms h

theorem storable_redactItems (key : String) (parentSensitive : Bool) : ∀ xs : List (Json String),
    Json.storableList textFits xs = true →
      Json.storableList textFits (redactItems key parentSensitive xs) = true
  | [], _ => rfl
  | x :: xs, h => by
    rw [Json.storableList, Bool.and_eq_true] at h
    rw [redactItems, Json.storableList, Bool.and_eq_true]
    exact ⟨storable_redactAny key parentSensitive x h.1,
      storable_redactItems key parentSensitive xs h.2⟩

theorem storable_redactMembers (parentSensitive : Bool) : ∀ ms : List (String × Json String),
    Json.storableMembers textFits ms = true →
      Json.storableMembers textFits (redactMembers parentSensitive ms) = true
  | [], _ => rfl
  | (k, x) :: ms, h => by
    rw [Json.storableMembers, Bool.and_eq_true, Bool.and_eq_true] at h
    rw [redactMembers, Json.storableMembers, Bool.and_eq_true, Bool.and_eq_true]
    exact ⟨⟨h.1.1, storable_redactAny k parentSensitive x h.1.2⟩,
      storable_redactMembers parentSensitive ms h.2⟩

end

variable {record : ConnectorRecord} {env : Env} {caller : CallerIdentity} {rows : Rows}

theorem fits_bare : record.fits =
    ((bare record).fits && (Json.obj record.config).storable textFits) := by
  have hempty : (Json.obj ([] : Dict String)).storable textFits = true := rfl
  rw [Bool.eq_iff_iff]
  simp only [ConnectorRecord.fits, bare, hempty, Bool.and_eq_true, Bool.and_true]
  constructor
  · rintro ⟨⟨⟨⟨⟨⟨⟨h₁, h₂⟩, h₃⟩, h₄⟩, h₅⟩, h₆⟩, h₇⟩, h₈⟩
    exact ⟨⟨⟨⟨⟨⟨⟨h₁, h₂⟩, h₃⟩, h₄⟩, h₆⟩, h₇⟩, h₈⟩, h₅⟩
  · rintro ⟨⟨⟨⟨⟨⟨⟨h₁, h₂⟩, h₃⟩, h₄⟩, h₆⟩, h₇⟩, h₈⟩, h₅⟩
    exact ⟨⟨⟨⟨⟨⟨⟨h₁, h₂⟩, h₃⟩, h₄⟩, h₅⟩, h₆⟩, h₇⟩, h₈⟩

theorem mode_fits (mode : IdempotencyMode) : textFits mode.value = true := by
  cases mode <;> decide

/-- The event of a creation fits if it does without the configuration, and the configuration fits. -/
theorem creationEvent_fits (h : (creationEvent env (bare record)).fits = true)
    (hconfig : (Json.obj record.config).storable textFits = true) :
    (creationEvent env record).fits = true := by
  have hredacted : Json.storableMembers textFits (redactConfig record.config) = true :=
    storable_redactMembers false record.config hconfig
  simp only [creationEvent, outboxEvent, OutboxEvent.fits, bare, toSchema, Connector.modelDump,
    jsonStr, jsonInt, jsonTime, Json.storable, Json.storableMembers, Bool.and_eq_true] at h ⊢
  simp only [h, hredacted, mode_fits, and_self]

/-- The rows of a creation fit exactly if its configuration does. -/
theorem creationRows_valid
    (h : (rows ++ creationRows env caller (bare record)).Valid) :
    (rows ++ creationRows env caller record).Valid ↔
      (Json.obj record.config).storable textFits = true := by
  obtain ⟨hkeys, hfits⟩ := h
  have hsame : (rows ++ creationRows env caller record).keys =
      (rows ++ creationRows env caller (bare record)).keys := by
    simp [Rows.keys, creationRows, ConnectorRecord.keys, bare, creationAudit,
      ConnectorAuditRecord.key]
  simp only [Rows.fits, creationRows, Rows.append_connectors, Rows.append_audit,
    Rows.append_invocations, Rows.append_outbox, List.all_append, List.all_cons, List.all_nil,
    Bool.and_true, List.append_nil, Bool.and_eq_true] at hfits
  obtain ⟨⟨⟨⟨hconnectors, hbare⟩, haudits, haudit⟩, hinvocations⟩, houtbox, hevent⟩ := hfits
  constructor
  · rintro ⟨-, hfits'⟩
    simp only [Rows.fits, creationRows, Rows.append_connectors, List.all_append, List.all_cons,
      Bool.and_eq_true] at hfits'
    have hrecord := hfits'.1.1.1.2.1
    rw [fits_bare, Bool.and_eq_true] at hrecord
    exact hrecord.2
  · intro hconfig
    refine ⟨by rw [hsame]; exact hkeys, ?_⟩
    have haudit' : (creationAudit env caller record).fits = true := haudit
    simp only [Rows.fits, creationRows, Rows.append_connectors, Rows.append_audit,
      Rows.append_invocations, Rows.append_outbox, List.all_append, List.all_cons, List.all_nil,
      Bool.and_true, List.append_nil, Bool.and_eq_true]
    have hrecord : record.fits = true := by
      rw [fits_bare, hbare, hconfig]
      rfl
    exact ⟨⟨⟨⟨hconnectors, hrecord⟩, haudits, haudit'⟩, hinvocations⟩, houtbox,
      creationEvent_fits hevent hconfig⟩

/-- The connector alone fits if all the rows of its creation do. -/
theorem connectorRow_valid (h : (rows ++ creationRows env caller record).Valid) :
    (rows ++ ({ connectors := [record] } : Rows)).Valid := by
  obtain ⟨hkeys, hfits⟩ := h
  constructor
  · refine List.Nodup.sublist ?_ hkeys
    simp only [Rows.keys, creationRows, Rows.append_connectors, Rows.append_audit,
      Rows.append_invocations, List.append_nil, List.map_append, List.append_assoc]
    refine List.Sublist.append (List.Sublist.refl _) ?_
    refine List.Sublist.append (List.Sublist.refl _) ?_
    exact List.sublist_append_right _ _
  · simp only [Rows.fits, creationRows, Rows.append_connectors, Rows.append_audit,
      Rows.append_invocations, Rows.append_outbox, List.all_append, List.append_nil,
      Bool.and_eq_true] at hfits ⊢
    exact ⟨⟨⟨hfits.1.1.1, hfits.1.1.2.1⟩, hfits.1.2⟩, hfits.2.1⟩

/-- What does not fit is refused as data. -/
theorem refusal_data (h : (Json.obj record.config).storable textFits = false) :
    ¬ (rows ++ ({ connectors := [record] } : Rows)).Valid ∧
      (rows ++ ({ connectors := [record] } : Rows)).refusal = .data := by
  have hfits : (rows ++ ({ connectors := [record] } : Rows)).fits = false := by
    have hrecord : record.fits = false := by
      rw [fits_bare, h, Bool.and_false]
    simp [Rows.fits, hrecord]
  constructor
  · rintro ⟨-, htrue⟩
    rw [hfits] at htrue
    cases htrue
  · rw [Rows.refusal, hfits]
    rfl

end Storable

/-! ## How a creation is answered -/

section Create

variable {env : Env} {caller : CallerIdentity} {payload : ConnectorCreate} {i : Nat} {st : Store}

/-- The session a creation flushes. -/
def adding (env : Env) (caller : CallerIdentity) (payload : ConnectorCreate) : Session :=
  { Session.fresh with pending := { connectors := [newConnector env caller payload] } }

theorem contents_adding (db : Db) : (adding env caller payload).contents db =
    db.toRows ++ { connectors := [newConnector env caller payload] } := by
  have hconn : (adding env caller payload).writeConnector = id := rfl
  have hinv : (adding env caller payload).writeInvocation = id := rfl
  simp only [Session.contents, hconn, hinv, List.map_id]
  rfl

/-- The store after the validator was called. -/
def asked (i : Nat) (payload : ConnectorCreate) (st : Store) : Store :=
  { st with calls := st.calls ++ [(i, .validateConfig payload.kind (effectiveConfig payload))] }

/-- What a creation does with a configuration found valid. -/
def inserting (env : Env) (caller : CallerIdentity) (payload : ConnectorCreate) :
    Handler Response := do
  match ← await .flush with
  | .error .integrity =>
    await .rollback
    .raise (.http 409 (jsonStr ("Connector named '" ++ payload.name ++ "' already exists")))
  | .error .data => .raise (.db .data)
  | .ok () =>
    await (.addAudit (creationAudit env caller (newConnector env caller payload)))
    await (.enqueue (creationEvent env (newConnector env caller payload)))
    commit
    pure ⟨201, .connector (toSchema (newConnector env caller payload))⟩

/-- The creation, up to the flush. -/
theorem run_createConnector (hkind : payload.kind ∈ registeredKinds)
    (hvalid : (env.validateConfig payload.kind (effectiveConfig payload)).valid = true) :
    Prog.run (perform i) (createConnector env caller payload) Session.fresh st =
      Prog.run (perform i) (inserting env caller payload) (adding env caller payload)
        (asked i payload st) := by
  simp only [createConnector, hkind, not_true_eq_false, if_false, validateConfig, requireAdapter,
    if_true, await, Prog.ret_bind, Prog.perform_bind, Prog.op_bind, Prog.pure_eq, Prog.run_op,
    perform, hvalid, Bool.not_true, Bool.false_eq_true]
  rfl

/-- A valid configuration that fits is answered 201. -/
theorem serve_created (hkind : payload.kind ∈ registeredKinds)
    (hvalid : (env.validateConfig payload.kind (effectiveConfig payload)).valid = true)
    (hinsert : (st.db.toRows ++
      creationRows env caller (bare (newConnector env caller payload))).Valid)
    (hfits : (Json.obj (effectiveConfig payload)).storable textFits = true) :
    (serve i (createConnector env caller payload) st).1.statusCode = 201 := by
  have hrows : (st.db.toRows ++ creationRows env caller (newConnector env caller payload)).Valid :=
    (creationRows_valid hinsert).mpr hfits
  have hflush : ((adding env caller payload).contents (asked i payload st).db).Valid := by
    rw [contents_adding]
    exact connectorRow_valid hrows
  have hcommit : ((creating env caller payload).contents (asked i payload st).db).Valid := by
    rw [contents_creating]
    exact hrows
  have hrun : Prog.run (perform i) (inserting env caller payload) (adding env caller payload)
      (asked i payload st) = Prog.run (perform i) (commit >>= fun _ =>
        (Prog.ret ⟨201, .connector (toSchema (newConnector env caller payload))⟩ :
          Handler Response)) (creating env caller payload) (asked i payload st) := by
    simp only [inserting, await, Prog.perform_bind, Prog.pure_eq, Prog.run_op, perform, hflush,
      if_true]
    rfl
  rw [serve, run_createConnector hkind hvalid, hrun, commit_solo]
  simp only [hcommit, dite_true]

/-- A valid configuration that does not fit is answered 500: no handler names the refusal. -/
theorem serve_unstorable (hkind : payload.kind ∈ registeredKinds)
    (hvalid : (env.validateConfig payload.kind (effectiveConfig payload)).valid = true)
    (hfits : (Json.obj (effectiveConfig payload)).storable textFits = false) :
    (serve i (createConnector env caller payload) st).1.statusCode = 500 := by
  obtain ⟨hflush, hrefusal⟩ := @refusal_data (newConnector env caller payload)
    (asked i payload st).db.toRows hfits
  rw [← contents_adding] at hflush hrefusal
  have hrun : Prog.run (perform i) (inserting env caller payload) (adding env caller payload)
      (asked i payload st) =
        (.error (.db .data), (adding env caller payload).rolledBack, asked i payload st) := by
    simp only [inserting, await, Prog.perform_bind, Prog.pure_eq, Prog.run_op, perform, hflush,
      if_false, hrefusal, Prog.run_raise]
  rw [serve, run_createConnector hkind hvalid, hrun]
  rfl

/-- A creation that is too deep is answered 500, with its row flushed or not. -/
theorem serve_tooDeep (hfits : (st.db.toRows ++ ({ connectors := [newConnector env caller payload] } :
      Rows)).Valid) :
    (serve i (createTooDeep env caller payload) st).1.statusCode = 500 := by
  have hflush : ((adding env caller payload).contents st.db).Valid := by
    rw [contents_adding]
    exact hfits
  have hadd : perform i (.addConnector (newConnector env caller payload)) Session.fresh st =
      ((), adding env caller payload, st) := rfl
  simp only [serve, createTooDeep, await, Prog.perform_bind, Prog.run_op, hadd]
  simp only [perform, hflush, if_true]
  rfl

theorem serve_tooDeep_refused (hfits : ¬ (st.db.toRows ++
      ({ connectors := [newConnector env caller payload] } : Rows)).Valid)
    (hdata : (st.db.toRows ++ ({ connectors := [newConnector env caller payload] } :
      Rows)).refusal = .data) :
    (serve i (createTooDeep env caller payload) st).1.statusCode = 500 := by
  rw [← contents_adding] at hfits hdata
  have hadd : perform i (.addConnector (newConnector env caller payload)) Session.fresh st =
      ((), adding env caller payload, st) := rfl
  simp only [serve, createTooDeep, await, Prog.perform_bind, Prog.run_op, hadd]
  simp only [perform, hfits, if_false, hdata]
  rfl

end Create

/-! ## When validation is total -/

/-- The configuration holds no key that `ConnectorCreate` refuses. -/
def Admissible (config : Dict PyStr) : Prop :=
  (∀ k ∈ forbiddenConfigKeys, configItem config (PyStr.ofString k) = none) ∧
    ∀ k ∈ operatorOnlyConfigKeys, configItem config (PyStr.ofString k) = none

/-- A payload with this configuration, in whose way nothing else is. -/
def plainPosted (kind : ConnectorKind) (config : Dict PyStr) (h : Admissible config) :
    PostedConnector where
  name := "crm"
  kind := kind
  config := config
  name_length := by decide +kernel
  only_creatable_states := enabled_creatable
  no_literal_secrets := h.1
  no_privilege_escalation := h.2

section Totality

variable {G : Gateway} {kind : ConnectorKind} {L : Limits}
  {validate : Dict PyStr → Except Security.Exc Verdict}

theorem validatorOf_registered (h : validatorOf G kind = some validate) :
    kind ∈ registeredKinds := by
  cases kind with
  | http => decide
  | webhook => decide
  | internal => decide
  | mcp => cases h

theorem toResult_valid (verdict : Verdict) : verdict.toResult.valid = verdict.valid := by
  unfold Verdict.toResult
  split
  · rename_i hvalid
    exact hvalid.symm
  · rename_i hvalid
    exact (Bool.not_eq_true _ ▸ hvalid).symm

theorem returns_iff (h : validatorOf G kind = some validate) (config : Dict PyStr) :
    Returns validate config ↔ ¬ Raises G kind config := by
  rw [← validator_error_iff h]
  unfold Returns
  cases validate config with
  | error e => simp
  | ok verdict => simp

/-- In the way of the plain payload, there is nothing in empty tables. -/
theorem plainPosted_insertable {config : Dict PyStr} (hadmissible : Admissible config) :
    Insertable (sampleEnv 0) sampleCaller (plainPosted kind config hadmissible) Db.empty := by
  have hrow : postedRow (sampleEnv 0) sampleCaller (plainPosted kind config hadmissible) =
      { id := 0, tenantId := "acme", name := "crm", kind := kind, baseUrl := none, scopes := []
        config := [], status := .enabled, supportsIdempotency := false
        idempotencyMode := .unsupported, createdAt := 0 } := rfl
  rw [Insertable, hrow]
  cases kind with
  | http => decide +kernel
  | webhook => decide +kernel
  | internal => decide +kernel
  | mcp => decide +kernel

variable {env : Env} {caller : CallerIdentity} {posted : PostedConnector} {i : Nat} {st : Store}

/-- The answer to a creation whose validator raised. -/
theorem serve_raised {e : Security.Exc} (h : validate posted.effectiveConfig = .error e) :
    (serve i (createWith L validate env caller posted) st).1.statusCode = 500 := by
  rw [createWith, h]
  rfl

/-- The answer to a configuration that is rejected: 422, if the errors can be reported. -/
theorem serve_rejected {verdict : Verdict} (hverdict : validate posted.effectiveConfig = .ok verdict)
    (hvalid : verdict.valid = false) :
    (serve i (createWith L validate env caller posted) st).1.statusCode =
      if (configInvalid verdict.errors).render.isSome then 422 else 500 := by
  simp only [createWith, hverdict, hvalid, Bool.not_false, if_true]
  cases (configInvalid verdict.errors).render with
  | none => rfl
  | some detail => rfl

/-- The answer to a configuration that is accepted: 201, if it can be stored and published. -/
theorem serve_accepted {verdict : Verdict} (hkind : posted.kind ∈ registeredKinds)
    (hverdict : validate posted.effectiveConfig = .ok verdict) (hvalid : verdict.valid = true)
    (hinsert : Insertable env caller posted st.db) :
    ((serve i (createWith L validate env caller posted) st).1.statusCode = 201 ∧
        Storable L posted.effectiveConfig) ∨
      ((serve i (createWith L validate env caller posted) st).1.statusCode = 500 ∧
        ¬ Storable L posted.effectiveConfig) := by
  simp only [createWith, hverdict, hvalid, Bool.not_true, Bool.false_eq_true, if_false]
  cases hpayload : posted.toPayload with
  | none =>
    refine .inr ⟨rfl, ?_⟩
    rintro ⟨stored, hstored, -⟩
    rw [toPayload_none hpayload] at hstored
    cases hstored
  | some payload =>
    obtain ⟨hname, hkind', hbase, hscopes, hstatus, hrendered⟩ := toPayload_some hpayload
    have hstorable : Storable L posted.effectiveConfig ↔
        (Json.obj (effectiveConfig payload)).storable textFits = true ∧
          L.writes (effectiveConfig payload) = true ∧
          L.publishes (effectiveConfig payload) = true := by
      simp only [Storable, hrendered, Option.some.injEq, exists_eq_left']
    have hregistered : payload.kind ∈ registeredKinds := hkind' ▸ hkind
    rw [hstorable]
    dsimp only
    cases hwrites : L.writes (effectiveConfig payload) with
    | false => exact .inr ⟨rfl, fun h => Bool.noConfusion h.2.1⟩
    | true =>
      -- the environment of the insert differs in what its validator says, and that is all
      have hbare : ∀ report, bare (newConnector { env with validateConfig := report } caller payload) =
          postedRow env caller posted := by
        intro report
        simp only [bare, newConnector, postedRow, hname, hkind', hbase, hscopes, hstatus]
      have hroom : ∀ report, (st.db.toRows ++ creationRows { env with validateConfig := report }
          caller (bare (newConnector { env with validateConfig := report } caller payload))).Valid := by
        intro report
        rw [hbare]
        exact hinsert
      have haccepted : verdict.toResult.valid = true := by rwa [toResult_valid]
      simp only [Bool.not_true, Bool.false_eq_true, if_false]
      cases hpublishes : L.publishes (effectiveConfig payload) with
      | false =>
        refine .inr ⟨?_, fun h => Bool.noConfusion h.2.2⟩
        cases hfits : (Json.obj (effectiveConfig payload)).storable textFits with
        | true =>
          exact serve_tooDeep (connectorRow_valid ((creationRows_valid (hroom _)).mpr hfits))
        | false =>
          obtain ⟨hrefused, hdata⟩ :=
            @refusal_data (newConnector _ caller payload) st.db.toRows hfits
          exact serve_tooDeep_refused hrefused hdata
      | true =>
        cases hfits : (Json.obj (effectiveConfig payload)).storable textFits with
        | true => exact .inl ⟨serve_created hregistered haccepted (hroom _) hfits, by simp⟩
        | false =>
          exact .inr ⟨serve_unstorable hregistered haccepted hfits, fun h => Bool.noConfusion h.1⟩

/-- What a creation is answered if nothing but its configuration is in its way. -/
theorem answered_iff (h : validatorOf G kind = some validate) {config : Dict PyStr}
    (hadmissible : Admissible config) :
    Answered L validate kind config ↔ ¬ Raises G kind config ∧
      (Accepts G kind config → Storable L config) ∧
      (¬ Accepts G kind config → Presentable G kind config) := by
  have hkind := validatorOf_registered h
  constructor
  · intro hanswered
    have hsample := hanswered (sampleEnv 0) sampleCaller (plainPosted kind config hadmissible) 0
      { db := Db.empty } rfl rfl (plainPosted_insertable hadmissible)
    have hreturns : Returns validate config := by
      cases hverdict : validate config with
      | ok verdict => exact ⟨verdict, hverdict⟩
      | error e =>
        rw [@serve_raised L validate _ _ (plainPosted kind config hadmissible) _ _ e hverdict]
          at hsample
        omega
    obtain ⟨verdict, hverdict⟩ := hreturns
    refine ⟨(returns_iff h config).mp ⟨verdict, hverdict⟩, fun haccepts => ?_, fun hrejects => ?_⟩
    · have hvalid := (validator_valid_iff h hverdict).mpr haccepts
      rcases @serve_accepted L validate (sampleEnv 0) sampleCaller
        (plainPosted kind config hadmissible) 0 { db := Db.empty } verdict hkind hverdict hvalid
        (plainPosted_insertable hadmissible) with ⟨-, hstorable⟩ | ⟨hfailed, -⟩
      · exact hstorable
      · rw [hfailed] at hsample
        omega
    · have hinvalid : verdict.valid = false := by
        rw [Bool.eq_false_iff]
        exact fun hvalid => hrejects ((validator_valid_iff h hverdict).mp hvalid)
      rw [← validator_texts h hverdict]
      by_contra hunreported
      rw [@serve_rejected L validate _ _ (plainPosted kind config hadmissible) _ _ verdict hverdict
        hinvalid, if_neg hunreported] at hsample
      omega
  · rintro ⟨hreturns, hstorable, hpresentable⟩ env caller posted i st rfl rfl hinsert
    obtain ⟨verdict, hverdict⟩ := (returns_iff h _).mpr hreturns
    cases hvalid : verdict.valid with
    | true =>
      have haccepts := (validator_valid_iff h hverdict).mp hvalid
      rcases serve_accepted hkind hverdict hvalid hinsert with ⟨hcreated, -⟩ | ⟨-, hnot⟩
      · exact .inl hcreated
      · exact absurd (hstorable haccepts) hnot
    | false =>
      have hrejects : ¬ Accepts G posted.kind posted.effectiveConfig := by
        intro haccepts
        rw [(validator_valid_iff h hverdict).mpr haccepts] at hvalid
        cases hvalid
      rw [serve_rejected hverdict hvalid,
        if_pos ((validator_texts h hverdict).mpr (hpresentable hrejects))]
      exact .inr rfl

end Totality

/-! ## Three configurations -/

/-- What the interpreter and the libraries follow unless they are told otherwise. -/
def usualLimits : Limits := ⟨900, 900, 255⟩

/-- Headers given as a list. -/
def listedHeaders : Dict PyStr := [("headers", .arr [.str "x-trace"])]

/-- A service with a lone surrogate for its name. -/
def surrogateService : Dict PyStr := [("service", .str ⟨[0xD800]⟩), ("operation", .str "x")]

end FavlGateway.Registry
