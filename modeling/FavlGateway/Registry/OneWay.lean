/-
  Revocation is one-way, whatever the interleaving.

  Validation and credential rotation may commit from a row they read before a revocation committed,
  so the edge table alone proves nothing.  What stops a stale writer is the UNIQUE audit version:

  * while a connector is live, every version up to its own has an audit row, and none of them
    records a revocation;
  * a session that loaded it live at version `v` finds the versions up to `v` audited for good, and
    once a revocation is on record it finds `v + 1` taken as well: the revocation was committed by a
    session at least as recent, and every version from there down is audited.

  So a transition computed from a live row commits only while no revocation is on record.  DELETE,
  which uses up a version without an audit row, leaves a row that is not live, and nothing leads
  from there back.
-/
import FavlGateway.Registry.Invariants

namespace FavlGateway.Registry

open FavlGateway.Library

/-! ## What the audit table says of a connector -/

/-- Every version up to `n` has an audit row. -/
def Db.AuditedTo (db : Db) (c : Uuid) (n : Nat) : Prop :=
  ∀ m, 1 ≤ m → m ≤ n → db.HasVersion c m

/-- A revocation of the connector is on record. -/
def Db.RevocationOnRecord (db : Db) (c : Uuid) : Prop :=
  ∃ a ∈ db.audit, a.connectorId = c ∧ a.toState = ConnectorState.revoked.value

section Audit

variable {db db' : Db} {c : Uuid} {a : ConnectorAuditRecord}

theorem Db.AuditedTo.appended {as : List ConnectorAuditRecord} (h : db'.audit = db.audit ++ as)
    {n : Nat} (hv : db.AuditedTo c n) : db'.AuditedTo c n :=
  fun m h₁ h₂ => (hv m h₁ h₂).appended h

/-- The version of an appended row joins the audited ones. -/
theorem Db.AuditedTo.step (h : db'.audit = db.audit ++ [a]) {n : Nat}
    (hv : db.AuditedTo a.connectorId n) (hn : a.aggregateVersion = n + 1) :
    db'.AuditedTo a.connectorId (n + 1) := by
  intro m h₁ h₂
  rcases Nat.lt_or_ge n m with hlt | hge
  · obtain rfl : m = n + 1 := by omega
    exact ⟨a, by rw [h]; simp, rfl, hn⟩
  · exact (hv m h₁ hge).appended h

theorem Db.RevocationOnRecord.of_appended (h : db'.audit = db.audit ++ [a])
    (hr : db'.RevocationOnRecord c) : db.RevocationOnRecord c ∨
      a.connectorId = c ∧ a.toState = ConnectorState.revoked.value := by
  obtain ⟨b, hb, hb'⟩ := hr
  rw [h] at hb
  rcases List.mem_append.mp hb with hb | hb
  · exact .inl ⟨b, hb, hb'⟩
  · rw [List.mem_singleton] at hb
    exact .inr (hb ▸ hb')

theorem Db.RevocationOnRecord.appended {as : List ConnectorAuditRecord}
    (h : db'.audit = db.audit ++ as) (hr : db.RevocationOnRecord c) :
    db'.RevocationOnRecord c := by
  obtain ⟨b, hb, hb'⟩ := hr
  exact ⟨b, by rw [h]; exact List.mem_append_left _ hb, hb'⟩

end Audit

/-! ## The invariant -/

/-- What the audit table says of a stored connector. -/
structure RowOnRecord (db : Db) (c : Uuid) (r : ConnectorRecord) : Prop where
  live : r.status.IsLive → db.AuditedTo c r.version ∧ ¬ db.RevocationOnRecord c
  revoked : r.status = .revoked → db.RevocationOnRecord c

/-- The tables' half: every connector is on record, and only existing connectors have rows. -/
structure OnRecord (db : Db) : Prop where
  row : ∀ {c r}, db.connector c = some r → RowOnRecord db c r
  known : ∀ a ∈ db.audit, ∃ r, db.connector a.connectorId = some r

/-- The session's half, for a row it loaded. -/
structure LoadedOnRecord (db : Db) (c : Uuid) (r : ConnectorRecord) : Prop where
  exists_row : ∃ r', db.connector c = some r'
  live : r.status.IsLive → db.AuditedTo c r.version ∧
    (db.RevocationOnRecord c → db.HasVersion c (r.version + 1))

theorem RowOnRecord.loaded {db : Db} {c : Uuid} {r : ConnectorRecord} (h : RowOnRecord db c r)
    (hr : db.connector c = some r) : LoadedOnRecord db c r where
  exists_row := ⟨r, hr⟩
  live hl := ⟨(h.live hl).1, fun hrev => absurd hrev (h.live hl).2⟩

/-- Self-loops of the table are at live states. -/
theorem self_loop_live : ∀ t ∈ transitions, t.source = t.target → t.source.IsLive := by
  decide

section Commit

variable {rq : Incoming} {db db' : Db} {c : Uuid} {r : ConnectorRecord}

/-- A write that adds no audit row leaves every loaded row on record. -/
theorem LoadedOnRecord.quiet (ha : db'.audit = db.audit)
    (hc : ∀ c r, db.connector c = some r → ∃ r', db'.connector c = some r')
    (h : LoadedOnRecord db c r) : LoadedOnRecord db' c r where
  exists_row := by
    obtain ⟨r', hr'⟩ := h.exists_row
    exact hc c r' hr'
  live hl := by
    simp only [Db.AuditedTo, Db.HasVersion, Db.RevocationOnRecord, ha]
    exact h.live hl

/-- A row that keeps its status and version stays on record while the audit table stays. -/
theorem RowOnRecord.quiet {r' : ConnectorRecord} (ha : db'.audit = db.audit)
    (h : RowOnRecord db c r) (hs : r'.status = r.status) (hv : r'.version = r.version) :
    RowOnRecord db' c r' where
  live hl := by
    simp only [Db.AuditedTo, Db.HasVersion, Db.RevocationOnRecord, ha, hv]
    exact h.live (hs ▸ hl)
  revoked hr := by
    simp only [Db.RevocationOnRecord, ha]
    exact h.revoked (hs ▸ hr)

/-- What a transition computed from `record` keeps on record of the rows sessions have loaded. -/
theorem LoadedOnRecord.transition {record : ConnectorRecord} {a : ConnectorAuditRecord}
    (ha : db'.audit = db.audit ++ [a]) (hv : a.aggregateVersion = record.version + 1)
    (hc : ∀ c r, db.connector c = some r → ∃ r', db'.connector c = some r')
    -- a revocation is only ever computed from a row that was live
    (hrev : a.toState = ConnectorState.revoked.value → record.status.IsLive)
    (hrec : LoadedOnRecord db a.connectorId record) (h : LoadedOnRecord db c r) :
    LoadedOnRecord db' c r where
  exists_row := by
    obtain ⟨r', hr'⟩ := h.exists_row
    exact hc c r' hr'
  live hl := by
    obtain ⟨haud, htaken⟩ := h.live hl
    refine ⟨haud.appended ha, fun hr => ?_⟩
    rcases hr.of_appended ha with hold | ⟨rfl, hto⟩
    · exact (htaken hold).appended ha
    · -- newly on record: the versions up to the revocation's own are audited, and it was free
      have haud' := (hrec.live (hrev hto)).1.step ha hv
      have hfree := Db.version_free ha
      have hle : r.version ≤ record.version := by
        by_contra hlt
        exact hfree (haud _ (by omega) (by omega))
      exact haud' _ (by omega) (by omega)

/-- The row a transition leaves is on record. -/
theorem RowOnRecord.transition {record stored : ConnectorRecord} {tr : Transition}
    {a : ConnectorAuditRecord} {reason : Option String} (ha : db'.audit = db.audit ++ [a])
    (hv : a.aggregateVersion = record.version + 1) (hto : a.toState = tr.target.value)
    (hmem : tr ∈ transitions) (hsrc : tr.source = record.status)
    (hrec : LoadedOnRecord db a.connectorId record) (hrow : RowOnRecord db a.connectorId stored) :
    RowOnRecord db' a.connectorId
      (.merge record (advance rq.env record tr reason) stored) := by
  have hstatus : (ConnectorRecord.merge record (advance rq.env record tr reason) stored).status =
      mergeColumn record.status tr.target stored.status := merge_advance_status
  have hversion : (ConnectorRecord.merge record (advance rq.env record tr reason) stored).version =
      record.version + 1 := merge_advance_version
  by_cases hself : tr.target = record.status
  · -- the status column is not written: the row keeps the stored one
    rw [hself, mergeColumn_clean] at hstatus
    have hlive : record.status.IsLive :=
      hsrc ▸ self_loop_live tr hmem (hsrc.trans hself.symm)
    refine ⟨fun hl => ?_, fun hr => ?_⟩
    · rw [hstatus] at hl
      rw [hversion]
      refine ⟨(hrec.live hlive).1.step ha hv, fun hr => ?_⟩
      rcases hr.of_appended ha with hold | ⟨-, hrev⟩
      · exact (hrow.live hl).2 hold
      · rw [hto, hself, ConnectorState.value_inj] at hrev
        exact revoked_not_live (hrev ▸ hlive)
    · rw [hstatus] at hr
      exact (hrow.revoked hr).appended ha
  · rw [mergeColumn_of_ne hself] at hstatus
    refine ⟨fun hl => ?_, fun hr => ?_⟩
    · rw [hstatus] at hl
      have hlive : record.status.IsLive := hsrc ▸ live_target_from_live tr hmem hl
      obtain ⟨haud, htaken⟩ := hrec.live hlive
      rw [hversion]
      refine ⟨haud.step ha hv, fun hr => ?_⟩
      rcases hr.of_appended ha with hold | ⟨-, hrev⟩
      · exact Db.version_free ha (hv ▸ htaken hold)
      · rw [hto, ConnectorState.value_inj] at hrev
        exact revoked_not_live (hrev ▸ hl)
    · rw [hstatus] at hr
      exact ⟨a, by rw [ha]; simp, rfl, by rw [hto, hr]⟩

/-- What a commit from session `s` has to keep. -/
structure KeepsRecord (s : Session) (db db' : Db) : Prop where
  tables : OnRecord db'
  own : ∀ c r, s.committed.Loaded c r → LoadedOnRecord db' c r
  others : ∀ c r, LoadedOnRecord db c r → LoadedOnRecord db' c r

/-- Creation: the first version, audited, of a connector that was not there. -/
theorem KeepsRecord.create {env : Env} {caller : CallerIdentity} {payload : ConnectorCreate}
    (hW : OnRecord db) (hdb : db'.toRows = (creating env caller payload).contents db) :
    KeepsRecord (creating env caller payload) db db' := by
  obtain ⟨hnew, hconn, ha, -⟩ := created hdb
  have hlive : payload.status.IsLive := payload.only_creatable_states
  have hc := fun c r h => connector_stays (c := c) (r := r) hdb h
  have hnone : ∀ c, db'.RevocationOnRecord c → db.RevocationOnRecord c := by
    intro c hr
    rcases hr.of_appended ha with hold | ⟨-, hto⟩
    · exact hold
    · exact (revoked_not_live (ConnectorState.value_injective hto ▸ hlive)).elim
  have hno : ¬ db.RevocationOnRecord (env.uuid4 0) := by
    rintro ⟨b, hb, hbc, -⟩
    obtain ⟨r, hr⟩ := hW.known b hb
    rw [hbc, hnew] at hr
    cases hr
  have haud : db'.AuditedTo (env.uuid4 0) 1 :=
    Db.AuditedTo.step ha (n := 0) (fun m h₁ h₂ => by omega) rfl
  have hrow : RowOnRecord db' (env.uuid4 0) (newConnector env caller payload) :=
    ⟨fun _ => ⟨haud, fun hr => hno (hnone _ hr)⟩,
      fun hr => (revoked_not_live (hr ▸ hlive)).elim⟩
  refine ⟨⟨fun {c r} h => ?_, fun a h => ?_⟩, fun c r h => ?_, fun c r h => ?_⟩
  · rw [hconn] at h
    split at h
    · cases h
      subst_vars
      exact hrow
    · have hold := hW.row h
      exact ⟨fun hl => ⟨(hold.live hl).1.appended ha, fun hr => (hold.live hl).2 (hnone c hr)⟩,
        fun hr => (hold.revoked hr).appended ha⟩
  · rw [ha] at h
    rcases List.mem_append.mp h with h | h
    · obtain ⟨r, hr⟩ := hW.known a h
      exact hc _ r hr
    · obtain rfl := List.mem_singleton.mp h
      exact ⟨_, (hconn _).trans (if_pos rfl)⟩
  · obtain ⟨rfl, rfl⟩ := Session.loaded_of_committed_creating h
    exact hrow.loaded ((hconn _).trans (if_pos rfl))
  · obtain ⟨r', hr'⟩ := h.exists_row
    exact ⟨hc c r' hr', fun hl => ⟨(h.live hl).1.appended ha,
      fun hr => ((h.live hl).2 (hnone c hr)).appended ha⟩⟩

/-- A transition, computed from a row that may be long out of date. -/
theorem KeepsRecord.transition {base : Session} {ask : Ask} {record : ConnectorRecord}
    {tr : Transition} (hW : OnRecord db) (clean : base.Clean)
    (hK : ∀ c r, base.Loaded c r → LoadedOnRecord db c r)
    (held : base.Holds ask.connectorId record)
    (edge : find record.status.value ask.target.value ask.event = .ok tr)
    (hdb : db'.toRows = (base.writing ask.connectorId (advance rq.env record tr ask.reason)
      (transitionRows rq.env ask record tr)).contents db) :
    KeepsRecord (base.writing ask.connectorId (advance rq.env record tr ask.reason)
      (transitionRows rq.env ask record tr)) db db' := by
  obtain ⟨hmem, hsrc, htgt, -⟩ := find_value_spec edge
  obtain ⟨hconn, ha, -⟩ := clean.written held.loaded rfl hdb
  have hid : ask.connectorId = record.id := (clean.holds_id held).symm
  have hrec := hK _ _ held.loaded
  rw [hid] at hconn hrec
  obtain ⟨stored, hstored⟩ := hrec.exists_row
  have hc := fun c r h => connector_stays (c := c) (r := r) hdb h
  have hrev : tr.target.value = ConnectorState.revoked.value → record.status.IsLive :=
    fun h => hsrc ▸ revoked_from_live tr hmem (ConnectorState.value_injective h)
  have hkeep : ∀ c r, LoadedOnRecord db c r → LoadedOnRecord db' c r :=
    fun c r h => LoadedOnRecord.transition ha rfl hc hrev hrec h
  refine ⟨⟨fun {c r} h => ?_, fun a h => ?_⟩, fun c r h => ?_, hkeep⟩
  · rw [hconn] at h
    split at h
    · subst_vars
      rw [hstored, Option.map_some, Option.some.injEq] at h
      subst h
      exact RowOnRecord.transition ha rfl rfl hmem hsrc hrec (hW.row hstored)
    · rename_i hne
      have hold := hW.row h
      refine ⟨fun hl => ⟨(hold.live hl).1.appended ha, fun hr => ?_⟩,
        fun hr => (hold.revoked hr).appended ha⟩
      rcases hr.of_appended ha with hr | ⟨hcid, -⟩
      · exact (hold.live hl).2 hr
      · exact hne hcid.symm
  · rw [ha] at h
    rcases List.mem_append.mp h with h | h
    · obtain ⟨r, hr⟩ := hW.known a h
      exact hc _ r hr
    · obtain rfl := List.mem_singleton.mp h
      exact hc _ stored hstored
  · rcases clean.loaded_of_committed_writing rfl h with ⟨rfl, rfl⟩ | ⟨-, hl⟩
    · rw [hid]
      refine ⟨hc _ stored hstored, fun hl => ?_⟩
      rw [advance_status] at hl
      have hlive : record.status.IsLive := hsrc ▸ live_target_from_live tr hmem hl
      obtain ⟨haud, htaken⟩ := hrec.live hlive
      rw [advance_version]
      refine ⟨haud.step ha rfl, fun hr => ?_⟩
      rcases hr.of_appended ha with hold | ⟨-, hto⟩
      · exact (Db.version_free ha (htaken hold)).elim
      · exact (revoked_not_live (ConnectorState.value_injective hto ▸ hl)).elim
    · exact hkeep c r (hK c r hl)

/-- A write without an audit row, of a row that is on record either way. -/
theorem KeepsRecord.unaudited {base : Session} {id : Uuid} {record current : ConnectorRecord}
    {rows : Rows} (hW : OnRecord db) (clean : base.Clean)
    (hK : ∀ c r, base.Loaded c r → LoadedOnRecord db c r) (held : base.Loaded id record)
    (hrows : rows.connectors = []) (haudit : rows.audit = [])
    (hdb : db'.toRows = (base.writing id current rows).contents db)
    (hrow : ∀ stored, RowOnRecord db id stored → db'.audit = db.audit →
      RowOnRecord db' id (.merge record current stored))
    (hcur : current.status.IsLive →
      record.status.IsLive ∧ current.version = record.version) :
    KeepsRecord (base.writing id current rows) db db' := by
  obtain ⟨hconn, ha, -⟩ := clean.written held hrows hdb
  rw [haudit, List.append_nil] at ha
  have hc := fun c r h => connector_stays (c := c) (r := r) hdb h
  refine ⟨⟨fun {c r} h => ?_, fun a h => ?_⟩, fun c r h => ?_, fun c r h => h.quiet ha hc⟩
  · rw [hconn] at h
    split at h
    · subst_vars
      obtain ⟨stored, hstored, rfl⟩ := Option.map_eq_some_iff.mp h
      exact hrow stored (hW.row hstored) ha
    · exact (hW.row h).quiet ha rfl rfl
  · rw [ha] at h
    obtain ⟨r, hr⟩ := hW.known a h
    exact hc _ r hr
  · rcases clean.loaded_of_committed_writing hrows h with ⟨rfl, rfl⟩ | ⟨-, hl⟩
    · have hrec := (hK _ _ held).quiet ha hc
      refine ⟨hrec.exists_row, fun hl => ?_⟩
      obtain ⟨hlive, hver⟩ := hcur hl
      rw [hver]
      exact hrec.live hlive
    · exact (hK c r hl).quiet ha hc

/-- Every commit keeps the connectors, and what sessions have loaded of them, on record. -/
theorem KeepsRecord.of_tx {s : Session} (htx : Tx rq s) (hdb : db'.toRows = s.contents db)
    (hW : OnRecord db) (hK : ∀ c r, s.Loaded c r → LoadedOnRecord db c r) :
    KeepsRecord s db db' := by
  cases htx.connector with
  | quiet hq =>
    have ha : db'.audit = db.audit := by rw [hdb, hq.audit]
    have hc := fun c r h => connector_stays (c := c) (r := r) hdb h
    refine ⟨⟨fun {c r} h => ?_, fun a h => ?_⟩, fun c r h => (hK c r (hq.loaded h)).quiet ha hc,
      fun c r h => h.quiet ha hc⟩
    · rw [hq.same hdb] at h
      exact (hW.row h).quiet ha rfl rfl
    · rw [ha] at h
      obtain ⟨r, hr⟩ := hW.known a h
      exact hc _ r hr
  | create request valid => exact .create hW hdb
  | transition clean held tenant asked edge reason =>
    exact .transition hW clean (fun c r h => hK c r (Session.loaded_writing.mpr h)) held edge hdb
  | touch report request clean held =>
    refine .unaudited hW clean (fun c r h => hK c r (Session.loaded_writing.mpr h)) held.loaded
      rfl rfl hdb (fun stored h ha => h.quiet ha merge_withCapability_status
        merge_withCapability_version) fun h => ⟨h, rfl⟩
  | @delete base caller id inst request clean held locked pending =>
    refine .unaudited hW clean (fun c r h => hK c r (Session.loaded_writing.mpr h))
      ⟨inst, held, rfl⟩ rfl rfl hdb (fun stored _ _ => ?_)
      fun h => absurd (show ConnectorState.deletionRequested.IsLive from h) (by decide)
    -- the row is now awaiting deletion: neither live nor revoked
    have hstatus : (ConnectorRecord.merge inst.loaded
        (withDeletionRequested rq.env caller inst.loaded) stored).status = .deletionRequested :=
      mergeColumn_of_ne (fun h => pending.2 h.symm) _
    exact ⟨fun h => absurd (hstatus ▸ h) (by decide), fun h => by rw [hstatus] at h; cases h⟩

end Commit

/-! ## The theorem -/

theorem onRecord_invariant (reqs : Nat → Incoming) :
    RegistryInvariant reqs (fun _ _ _ _ => True) OnRecord
      fun _ s db => ∀ c r, s.Loaded c r → LoadedOnRecord db c r :=
  .of_loaded (fun hW h => (hW.row h).loaded h) fun {i ss db db'} htx hdb _ hW hK => by
    have h := KeepsRecord.of_tx htx hdb hW (hK i)
    exact ⟨h.tables, h.own, h.others⟩

theorem empty_onRecord : OnRecord Db.empty where
  row h := by cases h
  known a h := by cases h

/-- Every reachable state is on record. -/
theorem reaches_onRecord {reqs : Nat → Incoming}
    {sys : System RegistryOp Session World Exc Response}
    (h : registryMachine.Reaches Machine.Any (registry Db.empty reqs) sys) :
    OnRecord sys.world.db :=
  ((onRecord_invariant reqs).reaches empty_onRecord
    (h.mono (D := CommitsMeet fun _ _ _ _ => True) fun _ _ _ _ _ => trivial)).1

/-- A connector and a recorded revocation outlive every step. -/
theorem revocation_stays {reqs : Nat → Incoming}
    {sys sys' : System RegistryOp Session World Exc Response} {c : Uuid}
    (h : registryMachine.Reaches Machine.Any (registry Db.empty reqs) sys)
    (h' : registryMachine.Reaches Machine.Any sys sys')
    (hrev : sys.world.db.RevocationOnRecord c) (hrow : ∃ r, sys.world.db.connector c = some r) :
    sys'.world.db.RevocationOnRecord c ∧ ∃ r, sys'.world.db.connector c = some r := by
  induction h' with
  | start => exact ⟨hrev, hrow⟩
  | step hr hs _ ih =>
    rcases registry_step (h.trans hr) hs with ⟨hdb, -⟩ | ⟨-, hdb, -⟩
    · rw [hdb]
      exact ih
    · obtain ⟨hrev, r, hr⟩ := ih
      exact ⟨hrev.appended (by rw [hdb]; rfl), connector_stays hdb hr⟩

/-- **Revocation is one-way under concurrency**: whatever requests run and however their steps
    interleave, a connector that was committed as REVOKED is in every later state revoked, awaiting
    deletion, archived or deleted, and never executable again. -/
theorem revoked_is_forever (reqs : Nat → Incoming)
    {sys sys' : System RegistryOp Session World Exc Response} {c : Uuid} {r : ConnectorRecord}
    (h : registryMachine.Reaches Machine.Any (registry Db.empty reqs) sys)
    (h' : registryMachine.Reaches Machine.Any sys sys')
    (hr : sys.world.db.connector c = some r) (hrev : r.status = .revoked) :
    ∃ r', sys'.world.db.connector c = some r' ∧
      r'.status ∈ [.revoked, .deletionRequested, .archived, .deleted] ∧
      isExecutable r'.status.value = false := by
  have hrecord := ((reaches_onRecord h).row hr).revoked hrev
  obtain ⟨hstays, r', hr'⟩ := revocation_stays h h' hrecord ⟨r, hr⟩
  have hlive : ¬ r'.status.IsLive :=
    fun hl => (((reaches_onRecord (h.trans h')).row hr').live hl).2 hstays
  refine ⟨r', hr', ?_, ?_⟩
  · cases hs : r'.status <;> first | decide | exact absurd (by rw [hs]; decide) hlive
  · rw [isExecutable_value, decide_eq_false_iff_not]
    exact fun hs => hlive (hs ▸ enabled_live)

/-- A rotation reads the connector, then a revocation commits, then the rotation goes on. -/
def rotationRace : Nat → Incoming
  | 0 => sampleEnabled
  | 1 => ⟨sampleEnv 10, .rotateConnectorCredentials sampleCaller 0 none⟩
  | _ => ⟨sampleEnv 20, .revokeConnector sampleCaller 0 (some sampleReason)⟩

set_option maxRecDepth 10000 in
theorem revoked_is_forever_rotationRace :
    let sys := registryMachine.schedule
      (List.replicate 9 0 ++ [1] ++ List.replicate 7 2) (registry Db.empty rotationRace)
    ∃ r', (registryMachine.schedule (List.replicate 7 1) sys).world.db.connector 0 = some r' ∧
      r'.status ∈ [.revoked, .deletionRequested, .archived, .deleted] ∧
      isExecutable r'.status.value = false := by
  intro sys
  have hstatus : (sys.world.db.connector 0).map (·.status) = some .revoked := by decide +kernel
  obtain ⟨r, hr, hrev⟩ := Option.map_eq_some_iff.mp hstatus
  exact revoked_is_forever rotationRace (Machine.reaches_schedule _ _)
    (Machine.reaches_schedule _ _) hr hrev

end FavlGateway.Registry
