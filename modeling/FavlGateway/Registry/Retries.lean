/-
  Sending the same lifecycle request again.

  The idempotency key of a request is written to the audit row and read by nothing: what keeps a
  retry from taking effect is only that the edge it asks for no longer starts from the state the
  connector is in.  An edge that leads back to its own source does, so the retry of a configuration
  or of a rotation is recorded once more, as long as the next version can be stored at all.

  `transitioned_valid` says when a transition commits: its version is free in the audit trail and
  its rows fit their columns.  After a first success both come down to the version number.
-/
import FavlGateway.Registry.LifecycleReplies

namespace FavlGateway.Registry

open FavlGateway.Library

/-! ## When a transition commits -/

section Valid

variable {env : Env} {ask : Ask} {record : ConnectorRecord} {tr : Transition} {db : Db}

/-- An UPDATE that keeps id, tenant and name keeps the index values. -/
theorem Rows.updateConnector_keys {r : Rows} {id : Uuid} {f : ConnectorRecord → ConnectorRecord}
    (hf : ∀ row, (f row).keys = row.keys) :
    (r.updateConnector id f).connectors.flatMap ConnectorRecord.keys =
      r.connectors.flatMap ConnectorRecord.keys := by
  simp only [Rows.updateConnector, List.flatMap_map]
  congr 1
  funext row
  split
  · exact hf row
  · rfl

/-- What a version of the connector stores of the transition that made it. -/
def recordable (record : ConnectorRecord) (ask : Ask) (tr : Transition) (env : Env) : Bool :=
  (advance env record tr ask.reason).fits &&
    (transitionAudit env record tr ask.caller.actorId ask.caller.tenantId ask.reason
      ask.idempotencyKey).fits &&
    (transitionEvent env record tr ask.caller.actorId ask.caller.tenantId ask.reason).fits

/-- The index values in use name an audit version if an audit row has it. -/
theorem Db.auditVersion_mem {id : Uuid} {n : Nat} :
    RowKey.auditVersion id n ∈ db.toRows.keys ↔ db.HasVersion id n := by
  have hconn : ∀ r : ConnectorRecord, RowKey.auditVersion id n ∉ r.keys := by
    intro r
    simp [ConnectorRecord.keys]
  have hinv : ∀ r : InvocationRecord, RowKey.auditVersion id n ∉ r.keys := by
    intro r
    simp [InvocationRecord.keys]
  simp only [Rows.keys, List.mem_append, List.mem_flatMap, hconn, hinv, and_false, exists_false,
    false_or, or_false, List.mem_map, ConnectorAuditRecord.key, RowKey.auditVersion.injEq]
  rfl

/-- The index values after a transition: one more audit version. -/
theorem transitioned_keys (hid : record.id = ask.connectorId) :
    (transitioned env ask record tr db).keys.Nodup ↔
      ¬ db.HasVersion ask.connectorId (record.version + 1) := by
  have hconn : (transitioned env ask record tr db).connectors.flatMap ConnectorRecord.keys =
      db.connectors.flatMap ConnectorRecord.keys := by
    show ((db.toRows.updateConnector _ _).connectors ++ []).flatMap _ = _
    rw [List.append_nil]
    exact Rows.updateConnector_keys fun row => rfl
  have hkeys : (transitioned env ask record tr db).keys =
      db.connectors.flatMap ConnectorRecord.keys ++ db.audit.map ConnectorAuditRecord.key ++
        RowKey.auditVersion ask.connectorId (record.version + 1) ::
          db.invocations.flatMap InvocationRecord.keys := by
    rw [Rows.keys, hconn]
    show _ ++ (db.audit ++ [_]).map _ ++ (db.invocations ++ []).flatMap _ = _
    rw [List.append_nil, List.map_append, ← List.append_assoc, List.append_assoc, ← hid]
    rfl
  rw [hkeys, List.perm_middle.nodup_iff, List.nodup_cons]
  have hmem := @Db.auditVersion_mem db ask.connectorId (record.version + 1)
  exact ⟨fun h => fun hv => h.1 (hmem.mpr hv), fun h => ⟨fun hk => h (hmem.mp hk), db.valid.1⟩⟩

/-- The values after a transition: the rows it writes and adds. -/
theorem transitioned_fits (hrec : db.connector ask.connectorId = some record) :
    (transitioned env ask record tr db).fits = recordable record ask tr env := by
  obtain ⟨hmem, hid⟩ := lookup_mem hrec
  have hall := db.valid.2
  simp only [Rows.fits, Bool.and_eq_true] at hall
  obtain ⟨⟨⟨hconn, haudit⟩, hinv⟩, hout⟩ := hall
  have hrow : (transitioned env ask record tr db).connectors.all ConnectorRecord.fits =
      (advance env record tr ask.reason).fits := by
    show ((db.toRows.updateConnector ask.connectorId _).connectors ++ []).all _ = _
    rw [List.append_nil, Bool.eq_iff_iff, List.all_eq_true]
    simp only [Rows.updateConnector, List.mem_map, forall_exists_index, and_imp,
      forall_apply_eq_imp_iff₂]
    constructor
    · intro h
      have hwritten := h record hmem
      rwa [if_pos hid, merge_advance] at hwritten
    · intro h row hrow
      by_cases hkey : row.id = ask.connectorId
      · have hsame : row = record := by
          have hfound := Db.connector_of_mem hrow
          rw [hkey, hrec] at hfound
          exact (Option.some.inj hfound).symm
        rw [if_pos hkey, hsame, merge_advance]
        exact h
      · rw [if_neg hkey]
        exact List.all_eq_true.mp hconn row hrow
  rw [Rows.fits, hrow]
  show (_ && (db.audit ++ [_]).all _ && (db.invocations ++ []).all _ &&
    (db.outbox ++ [_]).all _) = _
  rw [List.append_nil, List.all_append, List.all_append, haudit, hinv, hout]
  simp [recordable]

/-- A transition commits if its version is free in the audit trail and its rows fit. -/
theorem transitioned_valid (ask : Ask) (hrec : db.connector ask.connectorId = some record) :
    (transitioned env ask record tr db).Valid ↔
      ¬ db.HasVersion ask.connectorId (record.version + 1) ∧
        recordable record ask tr env = true := by
  rw [Rows.Valid, transitioned_keys (lookup_mem hrec).2, transitioned_fits hrec]

/-- Every state name fits the columns and the event that name it. -/
theorem value_fits (s : ConnectorState) :
    varcharFits 24 s.value = true ∧ textFits s.value = true := by
  cases s <;> exact ⟨by decide +kernel, by decide +kernel⟩

theorem event_fits (e : ConnectorEvent) :
    varcharFits 64 e.value = true ∧ varcharFits 255 e.value = true := by
  cases e <;> exact ⟨by decide +kernel, by decide +kernel⟩

/-- The columns a transition leaves alone and the two it writes. -/
theorem advance_fits {reason : Option String} : (advance env record tr reason).fits =
    ({ record with version := record.version + 1, stateReason := reason } :
      ConnectorRecord).fits := by
  have hsame : ∀ r : ConnectorRecord,
      (stamp tr.target (env.utcnow 0) r).fits = r.fits := by
    intro r
    unfold stamp
    split <;> rfl
  unfold advance
  split
  · exact hsame _
  · exact hsame _

/-- What can be stored has a version that fits. -/
theorem recordable_version (h : recordable record ask tr env = true) :
    int4Fits (record.version + 1) = true := by
  simp only [recordable, ConnectorAuditRecord.fits, transitionAudit, Bool.and_eq_true] at h
  exact h.1.2.1.2

/-- What one transition could store, the next can, as long as the version still fits. -/
theorem recordable_next {env' : Env} {tr' : Transition} (h : recordable record ask tr env = true) :
    recordable (advance env record tr ask.reason) ask tr' env' = int4Fits (record.version + 2) := by
  simp only [recordable, Bool.and_eq_true] at h
  obtain ⟨⟨hrow, haudit⟩, hevent⟩ := h
  rw [advance_fits] at hrow
  simp only [recordable, advance_fits]
  simp only [ConnectorRecord.fits, ConnectorAuditRecord.fits, OutboxEvent.fits, transitionAudit,
    transitionEvent, outboxEvent, jsonStr, Json.storable, Json.storableMembers, value_fits,
    event_fits, advance_id, advance_tenantId, advance_name, advance_config, advance_baseUrl,
    advance_scopes, advance_deletedBy, advance_version, Bool.and_eq_true, Bool.and_true] at hrow haudit hevent ⊢
  simp [hrow, haudit, hevent]

end Valid

/-! ## Retries -/

namespace LifecycleRequest

variable {q : LifecycleRequest} {env : Env} {st : Store}

/-- The same request, sent again and again with nothing in between. -/
def retried (q : LifecycleRequest) (i : Nat) (retries : List Env) (st : Store) : Store :=
  serveAll i (retries.map fun env => ⟨env, q.request⟩) st

/-- The connector, its audit trail and its events are as they were. -/
structure Unaffected (q : LifecycleRequest) (db db' : Db) : Prop where
  connector : db'.connector q.connectorId = db.connector q.connectorId
  audit : db'.auditOf q.connectorId = db.auditOf q.connectorId
  events : db'.connectorEvents q.connectorId = db.connectorEvents q.connectorId

/-- The edge the request asks for leads back to where it starts: a configuration, or the rotation
    of a connector that is in service or disabled. -/
def Loops (q : LifecycleRequest) (held : ConnectorState) : Prop :=
  q.action = .configure ∨
    q.action = .rotateCredentials ∧ (held = .enabled ∨ held = .disabled)

/-- A second such request would be recorded: it loops, and the version after next can be stored. -/
def RecordsAgain (q : LifecycleRequest) (db : Db) : Prop :=
  ∃ record, db.connector q.connectorId = some record ∧ q.Loops record.status ∧
    int4Fits (record.version + 2) = true ∧ ¬ db.HasVersion q.connectorId (record.version + 2)

/-- From the state a request leads to, it finds an edge only if it loops. -/
theorem loops_of_find {held : ConnectorState} {tr : Transition}
    (h : find (q.action.target held).value (q.action.target (q.action.target held)).value
      q.action.event = .ok tr) : q.Loops held := by
  obtain ⟨hmem, hsource, htarget, -⟩ := find_value_spec h
  obtain ⟨hevent, -⟩ := event_of_find h
  have hself : ∀ t ∈ transitions, t.source = t.target →
      t.event = .configured ∨ t.event = .validationFailed ∨
        t.event = .credentialsRotated ∧ (t.source = .enabled ∨ t.source = .disabled) := by
    decide
  unfold Loops
  obtain ⟨action, caller, connectorId, body⟩ := q
  have hloop : tr.source = tr.target := by
    rw [hsource, htarget]
    cases action <;> rfl
  rcases hself tr hmem hloop with he | he | ⟨he, hs⟩
  · rw [he] at hevent
    cases action with
    | configure => exact .inl rfl
    | _ => cases hevent
  · rw [he] at hevent
    cases action <;> cases hevent
  · rw [he] at hevent
    cases action with
    | rotateCredentials =>
      rw [hsource] at hs
      exact .inr ⟨rfl, hs⟩
    | _ => cases hevent

/-- A request that loops finds its edge again, and needs no reason. -/
theorem find_of_loops {held : ConnectorState} (h : q.Loops held) :
    ∃ tr, find (q.action.target held).value (q.action.target (q.action.target held)).value
      q.action.event = .ok tr ∧ tr.requiresReason = false := by
  rcases h with hconf | ⟨hrot, rfl | rfl⟩
  · rw [hconf]
    exact ⟨_, find_own_event ⟨.configured, .configured, .configured, false, false, false⟩
      (by decide), rfl⟩
  · rw [hrot]
    exact ⟨_, find_own_event ⟨.enabled, .enabled, .credentialsRotated, false, false, false⟩
      (by decide), rfl⟩
  · rw [hrot]
    exact ⟨_, find_own_event ⟨.disabled, .disabled, .credentialsRotated, false, false, false⟩
      (by decide), rfl⟩

/-- A request that loops is never answered as a repeat. -/
theorem not_repeated_of_loops {held : ConnectorState} (h : q.Loops held) {exc : TransitionError}
    {edge : Transition}
    (lookup : find held.value (q.action.target held).value q.action.event = .error exc)
    (hrep : idempotentRepeat held.value (q.action.target held).value = some edge) : False := by
  rcases h with hconf | ⟨hrot, hheld⟩
  · rw [hconf] at hrep
    obtain ⟨-, hmem, htarget, hidem⟩ := idempotentRepeat_value hrep
    have hinto : ∀ t ∈ transitions, t.idempotent = true → t.target ≠ .configured := by decide
    exact hinto edge hmem hidem htarget
  · rw [hrot] at lookup hrep
    have hswallowing := rotation_repeated lookup hrep
    rcases hheld with rfl | rfl
    · exact absurd hswallowing (by decide)
    · exact absurd hswallowing (by decide)

/-- An edge that is found, with its reason, is applied if it can commit. -/
theorem served_applied {i : Nat} {record : ConnectorRecord} {tr : Transition}
    (hsub : q.subject st.db = some record)
    (lookup : find record.status.value (q.action.target record.status).value q.action.event =
      .ok tr)
    (reason : reasonMissing tr (q.ask record.status).reason = false)
    (valid : (transitioned env (q.ask record.status) record tr st.db).Valid) :
    served i ⟨env, q.request⟩ st = { st with db := ⟨_, valid⟩ } := by
  have hfind : find record.status.value (q.ask record.status).target.value
      (q.ask record.status).event = .ok tr := lookup
  unfold served
  rw [serve_lifecycle]
  simp only [outcome, hsub, Ask.outcome, hfind, reason, Bool.false_eq_true, if_false, valid,
    dite_true]

/-- An edge that is applied makes the next version. -/
theorem served_version {i : Nat} {record : ConnectorRecord} {tr : Transition}
    (hsub : q.subject st.db = some record)
    (lookup : find record.status.value (q.action.target record.status).value q.action.event =
      .ok tr)
    (reason : reasonMissing tr (q.ask record.status).reason = false)
    (valid : (transitioned env (q.ask record.status) record tr st.db).Valid) :
    ((served i ⟨env, q.request⟩ st).db.connector q.connectorId).map (·.version) =
      some (record.version + 1) := by
  obtain ⟨hrec, -⟩ := subject_eq_some.mp hsub
  rw [served_applied hsub lookup reason valid]
  generalize hdb : (⟨_, valid⟩ : Db) = db₁
  have hrows : db₁.toRows = transitioned env (q.ask record.status) record tr st.db := by
    rw [← hdb]
  have hafter : db₁.connector q.connectorId = _ :=
    (transitioned_tables (q.ask record.status) hrec hrows).1
  show (db₁.connector q.connectorId).map _ = _
  rw [hafter, Option.map_some, advance_version]

/-- What leaves the store alone once leaves it alone however often it is sent. -/
theorem retried_fixed (hfixed : ∀ i env, served i ⟨env, q.request⟩ st = st) (i : Nat)
    (retries : List Env) : q.retried i retries st = st := by
  induction retries generalizing i with
  | nil => rfl
  | cons env rest ih =>
    show serveAll (i + 1) _ (served i ⟨env, q.request⟩ st) = st
    rw [hfixed]
    exact ih (i + 1)

variable {record : ConnectorRecord} {st' : Store}

/-- After a success that could not be recorded again, no retry changes anything. -/
theorem fixed_of_not_recordsAgain (hsub : q.subject st.db = some record)
    (hsucc : q.Succeeds env st record st') (hnot : ¬ q.RecordsAgain st.db) (i : Nat) (env' : Env) :
    served i ⟨env', q.request⟩ st' = st' := by
  obtain ⟨hrec, -⟩ := subject_eq_some.mp hsub
  rcases served_cases q env' st' i with hsame | ⟨record', tr', hsub', lookup', valid'⟩
  · exact hsame
  · cases hsucc with
    | repeated lookup held =>
      rw [hsub] at hsub'
      cases hsub'
      rw [lookup] at lookup'
      cases lookup'
    | @applied tr lookup reason valid =>
      -- the connector as the first request left it
      generalize hdb : (⟨_, valid⟩ : Db) = db₁ at hsub' valid' ⊢
      have hrows : db₁.toRows = transitioned env (q.ask record.status) record tr st.db := by
        rw [← hdb]
      obtain ⟨hafter, haudit, -⟩ := transitioned_tables (q.ask record.status) hrec hrows
      obtain ⟨hrec', -⟩ := subject_eq_some.mp hsub'
      have hrecord' : record' = advance env record tr (q.ask record.status).reason :=
        Option.some.inj (hrec'.symm.trans hafter)
      have hstatus : record'.status = q.action.target record.status := by
        rw [hrecord', advance_status]
        exact (event_of_find lookup).2
      have hversion : record'.version = record.version + 1 := by
        rw [hrecord', advance_version]
      obtain ⟨hfree, hrecordable⟩ := (transitioned_valid (q.ask record'.status) hrec').mp valid'
      have hfits := recordable_version hrecordable
      rw [hversion] at hfree hfits
      rw [hstatus] at lookup'
      refine absurd ⟨record, hrec, loops_of_find lookup', hfits, fun hv => hfree ?_⟩ hnot
      exact Db.HasVersion.appended haudit hv

/-- After a success that can be recorded again, the next retry is. -/
theorem recorded_again (hsub : q.subject st.db = some record)
    (hsucc : q.Succeeds env st record st') (h : q.RecordsAgain st.db) (i : Nat) :
    ¬ q.Unaffected st'.db (served i ⟨env, q.request⟩ st').db := by
  obtain ⟨hrec, htenant⟩ := subject_eq_some.mp hsub
  obtain ⟨record₀, hrec₀, hloops, hfits, hfree⟩ := h
  rw [hrec] at hrec₀
  cases hrec₀
  cases hsucc with
  | repeated lookup held => exact (not_repeated_of_loops hloops lookup held).elim
  | @applied tr lookup reason valid =>
    generalize hdb : (⟨_, valid⟩ : Db) = db₁
    have hrows : db₁.toRows = transitioned env (q.ask record.status) record tr st.db := by
      rw [← hdb]
    obtain ⟨hafter, haudit, -⟩ := transitioned_tables (q.ask record.status) hrec hrows
    obtain ⟨-, htarget⟩ := event_of_find lookup
    obtain ⟨tr', lookup', hnoreason⟩ := find_of_loops hloops
    -- the connector as the first request left it
    have hnext : recordable (advance env record tr (q.ask record.status).reason)
        (q.ask record.status) tr' env = _ :=
      recordable_next ((transitioned_valid (q.ask record.status) hrec).mp valid).2
    have hstatus : (advance env record tr (q.ask record.status).reason).status =
        q.action.target record.status := by
      rw [advance_status]
      exact htarget
    have hversion : (advance env record tr (q.ask record.status).reason).version =
        record.version + 1 := advance_version ..
    have htenant' : (advance env record tr (q.ask record.status).reason).tenantId =
        q.caller.tenantId := by
      rw [advance_tenantId]
      exact htenant
    generalize advance env record tr (q.ask record.status).reason = record' at *
    have hsub' : q.subject db₁ = some record' := subject_eq_some.mpr ⟨hafter, htenant'⟩
    rw [← hstatus] at lookup'
    have hreason' : reasonMissing tr' (q.ask record'.status).reason = false := by
      rw [reasonMissing, hnoreason, Bool.false_and]
    have hvalid' : (transitioned env (q.ask record'.status) record' tr' db₁).Valid := by
      rw [transitioned_valid (q.ask record'.status) hafter, hversion]
      refine ⟨?_, hnext.trans hfits⟩
      rintro ⟨a, ha, hconnector, hnumber⟩
      rw [haudit] at ha
      rcases List.mem_append.mp ha with ha | ha
      · exact hfree ⟨a, ha, hconnector, hnumber⟩
      · rw [List.mem_singleton.mp ha] at hnumber
        simp [transitionAudit] at hnumber
    intro hsame
    have hconnector : (served i ⟨env, q.request⟩ { st with db := db₁ }).db.connector
        q.connectorId = db₁.connector q.connectorId := hsame.connector
    have hagain := @served_version q env { st with db := db₁ } i _ _ hsub' lookup' hreason' hvalid'
    rw [hconnector, show db₁.connector q.connectorId = some record' from hafter] at hagain
    simp at hagain

end LifecycleRequest

/-- **Retrying a transition has no second effect**, unless the edge it asks for leads back to its
    own source and the version after next can be stored.  An idempotency key makes no difference. -/
theorem retry_without_effect (i : Nat) (env : Env) (q : LifecycleRequest) (st : Store)
    (h : (serve i (handler env q.request) st).1.statusCode = 200) :
    (∀ retries : List Env, q.Unaffected (served i ⟨env, q.request⟩ st).db
        (q.retried (i + 1) retries (served i ⟨env, q.request⟩ st)).db) ↔
      ¬ q.RecordsAgain st.db := by
  obtain ⟨record, hsub, hsucc⟩ := LifecycleRequest.succeeds h
  constructor
  · intro hall hagain
    exact LifecycleRequest.recorded_again hsub hsucc hagain (i + 1) (hall [env])
  · intro hnot retries
    have hfixed := LifecycleRequest.fixed_of_not_recordsAgain hsub hsucc hnot
    rw [LifecycleRequest.retried_fixed hfixed]
    exact ⟨rfl, rfl, rfl⟩

/-- A body with a reason and an idempotency key. -/
def sampleKeyed : TransitionRequest where
  reason := some "maintenance"
  idempotencyKey := some "change-0042"
  reason_length := by intro r h; cases h; decide +kernel
  key_length := by intro k h; cases h; decide +kernel

/-- The sample connector is disabled under a key. -/
def sampleDisabling : LifecycleRequest := ⟨.disable, sampleCaller, 0, some sampleKeyed⟩

/-- The sample connector is configured under a key. -/
def sampleConfiguring : LifecycleRequest := ⟨.configure, sampleCaller, 0, some sampleKeyed⟩

set_option maxRecDepth 10000 in
theorem retry_without_effect_disabled :
    sampleDisabling.Unaffected
      (served 1 ⟨sampleEnv 10, sampleDisabling.request⟩
        (serveAll 0 [sampleEnabled] { db := Db.empty })).db
      (sampleDisabling.retried 2 [sampleEnv 20, sampleEnv 30]
        (served 1 ⟨sampleEnv 10, sampleDisabling.request⟩
          (serveAll 0 [sampleEnabled] { db := Db.empty }))).db := by
  refine (retry_without_effect 1 (sampleEnv 10) sampleDisabling _ (by decide +kernel)).mpr ?_ _
  rintro ⟨record, -, hconf | ⟨hrot, -⟩, -⟩
  · cases hconf
  · cases hrot

set_option maxRecDepth 10000 in
/-- Configuring a configured connector twice under one key is recorded twice. -/
theorem configuration_recorded_twice :
    (serve 1 (handler (sampleEnv 10) sampleConfiguring.request)
        (serveAll 0 [sampleConfigured] { db := Db.empty })).1.statusCode = 200 ∧
      (sampleConfiguring.body.getD {}).idempotencyKey = some "change-0042" ∧
      ¬ sampleConfiguring.Unaffected
        (served 1 ⟨sampleEnv 10, sampleConfiguring.request⟩
          (serveAll 0 [sampleConfigured] { db := Db.empty })).db
        (sampleConfiguring.retried 2 [sampleEnv 20]
          (served 1 ⟨sampleEnv 10, sampleConfiguring.request⟩
            (serveAll 0 [sampleConfigured] { db := Db.empty }))).db := by
  refine ⟨by decide +kernel, rfl, fun h => ?_⟩
  have hlength := congrArg List.length h.audit
  revert hlength
  decide +kernel

end FavlGateway.Registry
