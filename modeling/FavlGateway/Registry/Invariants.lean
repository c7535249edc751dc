/-
  The rule for invariants of the registry.

  An invariant comes in two halves: `W` of the tables, and `K j` of thread `j`'s session against the
  tables.  Operations that write nothing only refresh a session, so all that is left to show is what
  a COMMIT does: to the tables, to the committing session, and to the sessions of the others.
  `StoreInvariant.reaches` lifts that to every interleaving of any requests.

  `ConnectorTx` and `InvocationTx` fold the transactions into what the connector tables and the
  invocation tables can tell apart.
-/
import FavlGateway.Registry.Effects

namespace FavlGateway.Registry

open FavlGateway.Library

/-! ## Lookups after a write -/

namespace Db

variable {db db' : Db} {id c : Uuid} {rows : Rows}

theorem connector_updated {f : ConnectorRecord → ConnectorRecord}
    (h : db'.toRows = db.toRows.updateConnector id f ++ rows) (hr : rows.connectors = [])
    (hf : ∀ r, (f r).id = r.id) :
    db'.connector c = if c = id then (db.connector id).map f else db.connector c := by
  unfold connector
  rw [h, Rows.append_connectors, hr, List.append_nil]
  exact lookup_update hf

theorem invocation_updated {f : InvocationRecord → InvocationRecord}
    (h : db'.toRows = db.toRows.updateInvocation id f ++ rows) (hr : rows.invocations = [])
    (hf : ∀ r, (f r).id = r.id) :
    db'.invocation c = if c = id then (db.invocation id).map f else db.invocation c := by
  unfold invocation
  rw [h, Rows.append_invocations, hr, List.append_nil]
  exact lookup_update hf

/-- An inserted connector was not there before, and is found by its id. -/
theorem connector_inserted {r : ConnectorRecord} (h : db'.connectors = db.connectors ++ [r]) :
    db.connector r.id = none ∧
      db'.connector c = if c = r.id then some r else db.connector c := by
  have hnone : db.connector r.id = none := by
    cases hfind : db.connector r.id with
    | none => rfl
    | some r' =>
      obtain ⟨hmem, hid⟩ := lookup_mem hfind
      have hnd := db'.connectorKeys_nodup
      rw [h] at hnd
      exact (index_disjoint hnd hmem (k := .connectorId r.id) (by simp [ConnectorRecord.keys, hid])
        (by simp [ConnectorRecord.keys])).elim
  refine ⟨hnone, ?_⟩
  unfold connector
  rw [h]
  exact lookup_insert hnone

/-- An inserted invocation was not there before, and is found by its id. -/
theorem invocation_inserted {r : InvocationRecord} (h : db'.invocations = db.invocations ++ [r]) :
    db.invocation r.id = none ∧
      db'.invocation c = if c = r.id then some r else db.invocation c := by
  have hnone : db.invocation r.id = none := by
    cases hfind : db.invocation r.id with
    | none => rfl
    | some r' =>
      obtain ⟨hmem, hid⟩ := lookup_mem hfind
      have hnd := db'.invocationKeys_nodup
      rw [h] at hnd
      exact (index_disjoint hnd hmem (k := .invocationId r.id) (by simp [InvocationRecord.keys, hid])
        (by simp [InvocationRecord.keys])).elim
  refine ⟨hnone, ?_⟩
  unfold invocation
  rw [h]
  exact lookup_insert hnone

/-- There is an audit row of the connector with this version. -/
def HasVersion (db : Db) (c : Uuid) (n : Nat) : Prop :=
  ∃ a ∈ db.audit, a.connectorId = c ∧ a.aggregateVersion = n

theorem HasVersion.appended {as : List ConnectorAuditRecord} (h : db'.audit = db.audit ++ as)
    {n : Nat} (hv : db.HasVersion c n) : db'.HasVersion c n := by
  obtain ⟨b, hb, hb'⟩ := hv
  exact ⟨b, by rw [h]; exact List.mem_append_left _ hb, hb'⟩

/-- The audit row of a commit carries a version that was free. -/
theorem version_free {a : ConnectorAuditRecord} (h : db'.audit = db.audit ++ [a]) :
    ¬ db.HasVersion a.connectorId a.aggregateVersion := by
  rintro ⟨b, hb, hc, hv⟩
  have hnd := db'.auditKeys_nodup
  rw [h, List.map_append] at hnd
  exact (List.nodup_append.mp hnd).2.2 b.key (List.mem_map_of_mem hb) a.key (by simp)
    (by rw [ConnectorAuditRecord.key, ConnectorAuditRecord.key, hc, hv])

theorem connectorEvents_appended {es : List OutboxEvent} (h : db'.outbox = db.outbox ++ es) :
    db'.connectorEvents c = db.connectorEvents c ++
      es.filter fun e => e.aggregateType = "connector" ∧ e.aggregateId = some c := by
  rw [connectorEvents, h, List.filter_append]
  rfl

theorem invocationEvents_appended {es : List OutboxEvent} (h : db'.outbox = db.outbox ++ es) :
    db'.invocationEvents c = db.invocationEvents c ++
      es.filter fun e => e.aggregateType = "invocation" ∧ e.aggregateId = some c := by
  rw [invocationEvents, h, List.filter_append]
  rfl

/-- A commit that stages an event changes the database. -/
theorem ne_of_outbox {e : OutboxEvent} (h : db'.outbox = db.outbox ++ [e]) : db' ≠ db := by
  rintro rfl
  simpa using congrArg List.length h

/-- One more event, of connector `id`. -/
theorem connectorEvents_one {e : OutboxEvent} (h : db'.outbox = db.outbox ++ [e])
    (ht : e.aggregateType = "connector") (hid : e.aggregateId = some id) :
    db'.connectorEvents c =
      if c = id then db.connectorEvents c ++ [e] else db.connectorEvents c := by
  rw [connectorEvents_appended h]
  rcases eq_or_ne c id with rfl | hne
  · simp [ht, hid]
  · simp [hid, hne, hne.symm]

/-- One more event, of invocation `id`. -/
theorem invocationEvents_one {e : OutboxEvent} (h : db'.outbox = db.outbox ++ [e])
    (ht : e.aggregateType = "invocation") (hid : e.aggregateId = some id) :
    db'.invocationEvents c =
      if c = id then db.invocationEvents c ++ [e] else db.invocationEvents c := by
  rw [invocationEvents_appended h]
  rcases eq_or_ne c id with rfl | hne
  · simp [ht, hid]
  · simp [hid, hne, hne.symm]

end Db

/-! ## What an UPDATE makes of a row -/

section Merge

variable {env : Env} {record stored : ConnectorRecord} {tr : Transition} {reason : Option String}
  {report : ValidationResult} {caller : CallerIdentity}

@[simp] theorem ConnectorRecord.merge_id (loaded current stored : ConnectorRecord) :
    (merge loaded current stored).id = stored.id := rfl

@[simp] theorem ConnectorRecord.merge_tenantId (loaded current stored : ConnectorRecord) :
    (merge loaded current stored).tenantId = stored.tenantId := rfl

@[simp] theorem InvocationRecord.merge_id (loaded current stored : InvocationRecord) :
    (merge loaded current stored).id = stored.id := rfl

/-- The merged row, where the stored one is the one that was loaded. -/
theorem merge_advance : ConnectorRecord.merge record (advance env record tr reason) record =
    advance env record tr reason := by
  cases ht : tr.target <;> by_cases he : tr.event = .credentialsRotated <;>
    simp [ConnectorRecord.merge, advance, stamp, ht, he, mergeColumn_loaded]

theorem merge_withCapability :
    ConnectorRecord.merge record (withCapability record report) record =
      withCapability record report := by
  simp [ConnectorRecord.merge, withCapability, mergeColumn_loaded]

theorem merge_withDeletionRequested :
    ConnectorRecord.merge record (withDeletionRequested env caller record) record =
      withDeletionRequested env caller record := by
  simp [ConnectorRecord.merge, withDeletionRequested, mergeColumn_loaded]

/-- A transition always writes the version. -/
theorem merge_advance_version :
    (ConnectorRecord.merge record (advance env record tr reason) stored).version =
      record.version + 1 := by
  simp [ConnectorRecord.merge, mergeColumn]

/-- It writes the status only if the edge changes it. -/
theorem merge_advance_status :
    (ConnectorRecord.merge record (advance env record tr reason) stored).status =
      mergeColumn record.status tr.target stored.status := by
  simp [ConnectorRecord.merge]

theorem merge_withCapability_version :
    (ConnectorRecord.merge record (withCapability record report) stored).version =
      stored.version := by
  simp [ConnectorRecord.merge, withCapability]

theorem merge_withCapability_status :
    (ConnectorRecord.merge record (withCapability record report) stored).status =
      stored.status := by
  simp [ConnectorRecord.merge, withCapability]

end Merge

/-! ## The two views of a transaction -/

/-- The commit leaves the connector tables as they are. -/
structure ConnectorQuiet (s : Session) : Prop where
  connectors : ∀ db, (s.contents db).connectors = db.connectors
  audit : ∀ db, (s.contents db).audit = db.audit
  outbox : ∃ es, (∀ db, (s.contents db).outbox = db.outbox ++ es) ∧
    ∀ e ∈ es, e.aggregateType = "invocation"
  loaded : ∀ {c r}, s.committed.Loaded c r → s.Loaded c r
  readable : ∀ {c r}, s.committed.Holds c r → s.Holds c r

/-- The commit leaves the invocation table as it is. -/
structure InvocationQuiet (s : Session) : Prop where
  invocations : ∀ db, (s.contents db).invocations = db.invocations
  outbox : ∃ es, (∀ db, (s.contents db).outbox = db.outbox ++ es) ∧
    ∀ e ∈ es, e.aggregateType = "connector"
  loaded : ∀ {v r}, s.committed.LoadedInvocation v r → s.LoadedInvocation v r
  inserted : s.committed.inserted = s.inserted
  rows : (s.flushed ++ s.pending).invocations = []

/-- A transaction, to the connector tables. -/
inductive ConnectorTx (rq : Incoming) : Session → Prop where
  | quiet {s : Session} (h : ConnectorQuiet s) : ConnectorTx rq s
  | create {caller : CallerIdentity} {payload : ConnectorCreate}
      (request : rq.request = .createConnector caller payload)
      (valid : (rq.env.validateConfig payload.kind (effectiveConfig payload)).valid = true) :
      ConnectorTx rq (creating rq.env caller payload)
  | transition {s : Session} {ask : Ask} {record : ConnectorRecord} {tr : Transition}
      (clean : s.Clean) (held : s.Holds ask.connectorId record)
      (tenant : record.tenantId = ask.caller.tenantId)
      (asked : rq.request.asked rq.env record = some ask)
      (edge : find record.status.value ask.target.value ask.event = .ok tr)
      (reason : reasonMissing tr ask.reason = false) :
      ConnectorTx rq (s.writing ask.connectorId (advance rq.env record tr ask.reason)
        (transitionRows rq.env ask record tr))
  | touch {s : Session} {caller : CallerIdentity} {id : Uuid} {record : ConnectorRecord}
      (report : ValidationResult) (request : rq.request = .validateConnector caller id)
      (clean : s.Clean) (held : s.Holds id record) :
      ConnectorTx rq (s.writing id (withCapability record report) {})
  | delete {s : Session} {caller : CallerIdentity} {id : Uuid} {inst : Instance ConnectorRecord}
      (request : rq.request = .requestConnectorDeletion caller id) (clean : s.Clean)
      (held : s.connectors id = some inst) (locked : inst.locked = true)
      (pending : inst.loaded.status ≠ .deleted ∧ inst.loaded.status ≠ .deletionRequested) :
      ConnectorTx rq (s.writing id (withDeletionRequested rq.env caller inst.loaded)
        { outbox := [deletionEvent rq.env caller id
            (withDeletionRequested rq.env caller inst.loaded)] })

/-- A transaction, to the invocation table. -/
inductive InvocationTx (rq : Incoming) : Session → Prop where
  | quiet {s : Session} (h : InvocationQuiet s) : InvocationTx rq s
  | accept {s : Session} {args : AcceptArgs} {record : ConnectorRecord}
      (invoked : rq.request.invoked = some record.id)
      (args_eq : rq.request.acceptArgs rq.env record = some args) (clean : s.Clean)
      (first : s.inserted = []) (held : s.Holds record.id record)
      (enabled : record.status = .enabled) (tenant : args.tenantId = record.tenantId) :
      InvocationTx rq (s.accepting (newInvocation rq.env record args)
        (emitted (rq.env.uuid4 1) (newInvocation rq.env record args) acceptedEvent))
  | start {s : Session} {record : InvocationRecord} (clean : s.Clean)
      (held : s.HoldsInvocation record.id record) (own : record.id ∈ s.inserted)
      (accepted : record.status = .accepted) :
      InvocationTx rq (s.writingInvocation record.id (started rq.env record)
        { outbox := [emitted (rq.env.uuid4 2) (started rq.env record) startedEvent] })
  | finish {s : Session} {record : InvocationRecord} {result : InvocationResult} {event : String}
      (clean : s.Clean) (held : s.HoldsInvocation record.id record)
      (own : record.id ∈ s.inserted) (inFlight : record.status.inFlight = true)
      (terminal : terminalEvent result.status = some event) :
      InvocationTx rq (s.writingInvocation record.id (finished rq.env record result)
        { outbox := [emitted (rq.env.uuid4 3) (finished rq.env record result) event] })

namespace Session.Clean

variable {s : Session} (hs : s.Clean) {id : Uuid}

include hs

theorem connectorQuiet : ConnectorQuiet s where
  connectors db := by rw [hs.contents_eq]
  audit db := by rw [hs.contents_eq]
  outbox := ⟨[], fun db => by rw [hs.contents_eq, List.append_nil], by simp⟩
  loaded := hs.loaded_of_committed
  readable := hs.holds_of_committed rfl (by simp [hs.flushed, hs.pending])

theorem connectorQuiet_accepting {r : InvocationRecord} {e : OutboxEvent}
    (he : e.aggregateType = "invocation") : ConnectorQuiet (s.accepting r e) where
  connectors db := by simp [hs.contents_accepting]
  audit db := by simp [hs.contents_accepting]
  outbox := ⟨[e], fun db => by simp [hs.contents_accepting], by simpa using he⟩
  loaded h := hs.loaded_of_committed_accepting h
  readable := hs.holds_of_committed rfl rfl

theorem connectorQuiet_writingInvocation {record current : InvocationRecord} {e : OutboxEvent}
    (held : s.HoldsInvocation id record) (he : e.aggregateType = "invocation") :
    ConnectorQuiet (s.writingInvocation id current { outbox := [e] }) := by
  obtain ⟨inst, hinst, -, -⟩ := held
  exact {
    connectors := fun db => by
      simp [hs.contents_writingInvocation hinst, Rows.updateInvocation]
    audit := fun db => by simp [hs.contents_writingInvocation hinst, Rows.updateInvocation]
    outbox := ⟨[e], fun db => by
      simp [hs.contents_writingInvocation hinst, Rows.updateInvocation], by simpa using he⟩
    loaded := fun h => hs.loaded_of_committed_writingInvocation rfl h
    readable := hs.holds_of_committed rfl (by simp [Session.writingInvocation, hs.flushed]) }

theorem invocationQuiet : InvocationQuiet s where
  invocations db := by rw [hs.contents_eq]
  outbox := ⟨[], fun db => by rw [hs.contents_eq, List.append_nil], by simp⟩
  loaded := hs.loadedInvocation_of_committed
  inserted := by simp [committed, hs.flushed, hs.pending]
  rows := by simp [hs.flushed, hs.pending]

theorem invocationQuiet_writing {inst : Instance ConnectorRecord} {current : ConnectorRecord}
    {rows : Rows} (held : s.connectors id = some inst) (hr : rows.invocations = [])
    (he : ∀ e ∈ rows.outbox, e.aggregateType = "connector") :
    InvocationQuiet (s.writing id current rows) where
  invocations db := by simp [hs.contents_writing held, Rows.updateConnector, hr]
  outbox := ⟨rows.outbox, fun db => by simp [hs.contents_writing held, Rows.updateConnector], he⟩
  loaded h := hs.loadedInvocation_of_committed_writing hr h
  inserted := by simp [committed, writing, hs.flushed, hr]
  rows := by simp [writing, hs.flushed, hr]

end Session.Clean

theorem Tx.connector {rq : Incoming} {s : Session} (h : Tx rq s) : ConnectorTx rq s := by
  cases h with
  | idle clean => exact .quiet clean.connectorQuiet
  | create request valid => exact .create request valid
  | transition clean held tenant asked edge reason =>
    exact .transition clean held tenant asked edge reason
  | touch report request clean held => exact .touch report request clean held
  | delete request clean held locked pending => exact .delete request clean held locked pending
  | accept invoked args_eq clean first held enabled tenant =>
    exact .quiet (clean.connectorQuiet_accepting rfl)
  | start clean held own accepted => exact .quiet (clean.connectorQuiet_writingInvocation held rfl)
  | finish clean held own inFlight terminal =>
    exact .quiet (clean.connectorQuiet_writingInvocation held rfl)

theorem Tx.invocation {rq : Incoming} {s : Session} (h : Tx rq s) : InvocationTx rq s := by
  cases h with
  | idle clean => exact .quiet clean.invocationQuiet
  | create request valid =>
    exact .quiet {
      invocations := fun db => by simp [contents_creating]
      outbox := ⟨_, fun db => by simp only [contents_creating]; rfl, by
        simp [creationEvent, outboxEvent]⟩
      loaded := fun h => (Session.loadedInvocation_of_committed_creating h).elim
      inserted := rfl
      rows := rfl }
  | transition clean held tenant asked edge reason =>
    obtain ⟨inst, hinst, -, -⟩ := held
    exact .quiet (clean.invocationQuiet_writing hinst rfl (by
      simp [transitionRows, transitionEvent, outboxEvent]))
  | touch report request clean held =>
    obtain ⟨inst, hinst, -, -⟩ := held
    exact .quiet (clean.invocationQuiet_writing hinst rfl (by simp))
  | delete request clean held locked pending =>
    exact .quiet (clean.invocationQuiet_writing held rfl (by simp [deletionEvent, outboxEvent]))
  | accept invoked args_eq clean first held enabled tenant =>
    exact .accept invoked args_eq clean first held enabled tenant
  | start clean held own accepted => exact .start clean held own accepted
  | finish clean held own inFlight terminal => exact .finish clean held own inFlight terminal

/-- The tables after the commit of an assignment to a connector the session holds. -/
theorem Session.Clean.written {base : Session} {db db' : Db} {id : Uuid}
    {record current : ConnectorRecord} {rows : Rows} (clean : base.Clean)
    (held : base.Loaded id record) (hrows : rows.connectors = [])
    (hdb : db'.toRows = (base.writing id current rows).contents db) :
    (∀ c, db'.connector c =
        if c = id then (db.connector id).map (.merge record current) else db.connector c) ∧
      db'.audit = db.audit ++ rows.audit ∧ db'.outbox = db.outbox ++ rows.outbox := by
  obtain ⟨inst, hinst, rfl⟩ := held
  rw [clean.contents_writing hinst] at hdb
  refine ⟨fun c => Db.connector_updated hdb hrows fun r => rfl, ?_, ?_⟩
  · rw [hdb]
    rfl
  · rw [hdb]
    rfl

/-- The tables after a creation. -/
theorem created {env : Env} {caller : CallerIdentity} {payload : ConnectorCreate} {db db' : Db}
    (hdb : db'.toRows = (creating env caller payload).contents db) :
    db.connector (env.uuid4 0) = none ∧
      (∀ c, db'.connector c = if c = env.uuid4 0 then some (newConnector env caller payload)
        else db.connector c) ∧
      db'.audit = db.audit ++ [creationAudit env caller (newConnector env caller payload)] ∧
      db'.outbox = db.outbox ++ [creationEvent env (newConnector env caller payload)] := by
  rw [contents_creating] at hdb
  have hconn : db'.connectors = db.connectors ++ [newConnector env caller payload] := by
    rw [hdb]
    rfl
  refine ⟨(Db.connector_inserted (c := 0) hconn).1, fun c => (Db.connector_inserted hconn).2,
    ?_, ?_⟩
  · rw [hdb]
    rfl
  · rw [hdb]
    rfl

/-- A quiet commit stages no connector event. -/
theorem ConnectorQuiet.events {s : Session} {db db' : Db} (h : ConnectorQuiet s)
    (hdb : db'.toRows = s.contents db) (c : Uuid) :
    db'.connectorEvents c = db.connectorEvents c := by
  obtain ⟨es, hes, htype⟩ := h.outbox
  have hout : db'.outbox = db.outbox ++ es := by rw [hdb, hes]
  have hnone : es.filter (fun e => e.aggregateType = "connector" ∧ e.aggregateId = some c) = [] := by
    rw [List.filter_eq_nil_iff]
    intro e he
    simp [htype e he]
  rw [Db.connectorEvents_appended hout, hnone, List.append_nil]

/-- A quiet commit changes no connector. -/
theorem ConnectorQuiet.same {s : Session} {db db' : Db} (h : ConnectorQuiet s)
    (hdb : db'.toRows = s.contents db) (c : Uuid) : db'.connector c = db.connector c := by
  have hconn : db'.connectors = db.connectors := by rw [hdb, h.connectors]
  rw [Db.connector, hconn]
  rfl

/-! ## What is never assigned -/

theorem advance_same {env : Env} {record : ConnectorRecord} {tr : Transition}
    {reason : Option String} : SameConnector record (advance env record tr reason) :=
  ⟨advance_id .., advance_tenantId .., advance_name .., advance_kind .., advance_config ..⟩

/-- What a session holds after its commit it held before, or created. -/
theorem Tx.loaded_committed {rq : Incoming} {s : Session} {db db' : Db} (htx : Tx rq s)
    (hdb : db'.toRows = s.contents db) {c : Uuid} {r : ConnectorRecord}
    (h : s.committed.Loaded c r) :
    (∃ r₀, s.Loaded c r₀ ∧ SameConnector r₀ r) ∨ db'.connector c = some r := by
  have written : ∀ {base : Session} {id : Uuid} {record current : ConnectorRecord} {rows : Rows},
      base.Clean → base.Loaded id record → rows.connectors = [] → SameConnector record current →
      (base.writing id current rows).committed.Loaded c r →
      ∃ r₀, (base.writing id current rows).Loaded c r₀ ∧ SameConnector r₀ r := by
    intro base id record current rows clean held hrows hsame h
    rcases clean.loaded_of_committed_writing hrows h with ⟨rfl, rfl⟩ | ⟨-, hl⟩
    · exact ⟨record, Session.loaded_writing.mpr held, hsame⟩
    · exact ⟨r, Session.loaded_writing.mpr hl, .refl r⟩
  cases htx.connector with
  | quiet hq => exact .inl ⟨r, hq.loaded h, .refl r⟩
  | create request valid =>
    obtain ⟨rfl, rfl⟩ := Session.loaded_of_committed_creating h
    exact .inr (((created hdb).2.1 _).trans (if_pos rfl))
  | transition clean held tenant asked edge reason =>
    exact .inl (written clean held.loaded rfl advance_same h)
  | touch report request clean held =>
    exact .inl (written clean held.loaded rfl ⟨rfl, rfl, rfl, rfl, rfl⟩ h)
  | delete request clean held locked pending =>
    exact .inl (written clean ⟨_, held, rfl⟩ rfl ⟨rfl, rfl, rfl, rfl, rfl⟩ h)

/-! ## Interleaved requests -/

/-- The service with any number of requests about to arrive. -/
def registry (db : Db) (reqs : Nat → Incoming) : System RegistryOp Session World Exc Response where
  world := { db := db }
  threads i := ⟨Session.fresh, (reqs i).program⟩

theorem World.relock_toStore (i : Nat) (w : World) {β : Type} (o : RegistryOp β) (b : β)
    (s : Session) : (World.relock i w o b s).toStore = w.toStore := by
  cases o with
  | getConnector id forUpdate => cases forUpdate <;> cases b <;> rfl
  | refreshConnector id => cases b <;> rfl
  | flush => cases b <;> rfl
  | _ => rfl

/-- A step of the machine is the operation on the store, locks aside. -/
theorem registryMachine_step {i : Nat} {β : Type} {o : RegistryOp β} {s : Session} {w : World}
    {b : β} {s' : Session} {w' : World}
    (h : registryMachine.step i o s w = some (b, s', w')) :
    perform i o s w.toStore = (b, s', w'.toStore) ∧ blocked i o s w = false ∧
      w' = World.relock i { w with toStore := w'.toStore } o b s := by
  simp only [registryMachine] at h
  split at h
  · cases h
  · rename_i hb
    simp only [Option.some.injEq, Prod.mk.injEq] at h
    obtain ⟨rfl, rfl, rfl⟩ := h
    rw [World.relock_toStore]
    exact ⟨rfl, by simpa using hb, rfl⟩

theorem registryMachine_implements (reqs : Nat → Incoming) :
    registryMachine.Implements fun i => discipline (reqs i) := by
  intro i β o s w b s' w' h
  obtain ⟨hperf, -, -⟩ := registryMachine_step h
  exact ⟨i, w.toStore, by rw [hperf], by rw [hperf]⟩

theorem registry_disciplined (db : Db) (reqs : Nat → Incoming) :
    (registry db reqs).Disciplined fun i => discipline (reqs i) :=
  fun i => (reqs i).program_obeys

/-- The side condition that every step which changes the tables meets `Cond`. -/
def CommitsMeet (Cond : Nat → (Nat → Session) → Db → Db → Prop)
    (sys : System RegistryOp Session World Exc Response) (i : Nat)
    (sys' : System RegistryOp Session World Exc Response) : Prop :=
  sys'.world.db ≠ sys.world.db → Cond i sys.sessions sys.world.db sys'.world.db

/-- What holds in every reachable state may be assumed of the state before each commit. -/
theorem commitsMeet_assuming {Cond : Nat → (Nat → Session) → Db → Db → Prop}
    {P : Nat → (Nat → Session) → Db → Prop} {sys₀ sys : System RegistryOp Session World Exc Response}
    (hP : ∀ sys, registryMachine.Reaches (CommitsMeet Cond) sys₀ sys →
      ∀ i, P i sys.sessions sys.world.db)
    (h : registryMachine.Reaches (CommitsMeet Cond) sys₀ sys) :
    registryMachine.Reaches
      (CommitsMeet fun i ss db db' => P i ss db ∧ Cond i ss db db') sys₀ sys :=
  (h.assuming hP).mono fun _ i _ hmeet hne => ⟨hmeet.1 i, hmeet.2 hne⟩

/-- Any run is one whose commits meet what holds in every reachable state. -/
theorem reaches_assuming {P : Nat → (Nat → Session) → Db → Prop}
    {sys₀ sys : System RegistryOp Session World Exc Response}
    (hP : ∀ sys, registryMachine.Reaches Machine.Any sys₀ sys →
      ∀ i, P i sys.sessions sys.world.db)
    (h : registryMachine.Reaches Machine.Any sys₀ sys) :
    registryMachine.Reaches (CommitsMeet fun i ss db _ => P i ss db) sys₀ sys :=
  (h.assuming hP).mono fun _ i _ hmeet _ => hmeet.1 i

/-- What is to be shown of an invariant `W` of the store with its sessions' half `K`. -/
structure StoreInvariant (reqs : Nat → Incoming)
    (Cond : Nat → (Nat → Session) → Db → Db → Prop) (W : Store → Prop)
    (K : Nat → Session → Store → Prop) : Prop where
  fresh : ∀ j st, K j Session.fresh st
  refreshed : ∀ {j : Nat} {s s' : Session} {st : Store}, s.Refreshed st.db s' → W st → K j s st →
    K j s' st
  call : ∀ {i : Nat} {ss : Nat → Session} {st : Store} {c : AdapterCall},
    Permits (reqs i) (.callAdapter c) (ss i) → W st → (∀ j, K j (ss j) st) →
    W { st with calls := st.calls ++ [(i, c)] } ∧
      ∀ j, K j (ss j) { st with calls := st.calls ++ [(i, c)] }
  commit : ∀ {i : Nat} {ss : Nat → Session} {st : Store} {db' : Db}, Tx (reqs i) (ss i) →
    db'.toRows = (ss i).contents st.db → (db' ≠ st.db → Cond i ss st.db db') → W st →
    (∀ j, K j (ss j) st) →
    let st' : Store := { st with
      db := db'
      inserts := st.inserts ++ ((ss i).flushed ++ (ss i).pending).invocations.map
        fun r => (i, r.id) }
    W st' ∧ K i (ss i).committed st' ∧ ∀ j, j ≠ i → K j (ss j) st'

section StoreRule

variable {reqs : Nat → Incoming} {Cond : Nat → (Nat → Session) → Db → Db → Prop}
  {W : Store → Prop} {K : Nat → Session → Store → Prop}

theorem StoreInvariant.preserved (hI : StoreInvariant reqs Cond W K) :
    Preserved registryMachine (fun i => discipline (reqs i)) (CommitsMeet Cond)
      fun w ss => W w.toStore ∧ ∀ j, K j (ss j) w.toStore where
  op := by
    rintro sys i β o k b s' w' hprog hpre hstep hcond ⟨hW, hK⟩
    obtain ⟨hperf, -, -⟩ := registryMachine_step hstep
    have hs' : s' = (perform i o (sys.sessions i) sys.world.toStore).2.1 := by rw [hperf]
    have hst' : w'.toStore = (perform i o (sys.sessions i) sys.world.toStore).2.2 := by rw [hperf]
    have others : W w'.toStore → K i s' w'.toStore →
        (∀ j, j ≠ i → K j (sys.sessions j) w'.toStore) →
        W w'.toStore ∧ ∀ j, K j (Function.update sys.sessions i s' j) w'.toStore := by
      refine fun hw hi hj => ⟨hw, fun j => ?_⟩
      rcases eq_or_ne j i with rfl | hne
      · rwa [Function.update_self]
      · rw [Function.update_of_ne hne]
        exact hj j hne
    have refreshed : w'.toStore = sys.world.toStore →
        (sys.sessions i).Refreshed sys.world.db s' →
        W w'.toStore ∧ ∀ j, K j (Function.update sys.sessions i s' j) w'.toStore := by
      intro hst href
      rw [hst] at others ⊢
      exact others hW (hI.refreshed href hW (hK i)) fun j _ => hK j
    by_cases hcom : o.isCommit = true
    · cases o with
      | commit =>
        rcases perform_commit i (sys.sessions i) sys.world.toStore with ⟨-, heq⟩ | ⟨hvalid, heq⟩
        · rw [heq] at hs' hst'
          exact refreshed hst' (hs' ▸ .rolledBack)
        · rw [heq] at hs' hst'
          have hdb : w'.db = ⟨(sys.sessions i).contents sys.world.db, hvalid⟩ := by rw [hst']
          simp only [CommitsMeet, hdb] at hcond
          obtain ⟨hw, hi, hj⟩ := hI.commit hpre rfl hcond hW hK
          rw [hst'] at others ⊢
          exact others hw (hs' ▸ hi) hj
      | _ => cases hcom
    · rw [Bool.not_eq_true] at hcom
      obtain ⟨-, -, href⟩ := perform_refreshed (i := i) hcom (sys.sessions i) sys.world.toStore
      by_cases hcall : o.isCall = true
      · cases o with
        | callAdapter c =>
          obtain ⟨hw, hk⟩ := hI.call hpre hW hK
          rw [hst'] at others ⊢
          exact others hw (hs' ▸ hk i) fun j _ => hk j
        | _ => cases hcall
      · rw [Bool.not_eq_true] at hcall
        exact refreshed (hst'.trans (perform_store hcom hcall _ _)) (hs' ▸ href)
  crash := by
    rintro w ss i ⟨hW, hK⟩
    refine ⟨hW, fun j => ?_⟩
    rcases eq_or_ne j i with rfl | hne
    · rw [Function.update_self]
      exact hI.fresh j w.toStore
    · rw [Function.update_of_ne hne]
      exact hK j

/-- **The rule for interleaved requests.** -/
theorem StoreInvariant.reaches (hI : StoreInvariant reqs Cond W K) {db₀ : Db}
    (hW : W { db := db₀ }) {sys : System RegistryOp Session World Exc Response}
    (h : registryMachine.Reaches (CommitsMeet Cond) (registry db₀ reqs) sys) :
    W sys.world.toStore ∧ ∀ j, K j (sys.sessions j) sys.world.toStore :=
  h.preserved (registryMachine_implements reqs) hI.preserved (registry_disciplined db₀ reqs)
    ⟨hW, fun j => hI.fresh j _⟩

end StoreRule

/-- The same for an invariant of the tables. -/
structure RegistryInvariant (reqs : Nat → Incoming)
    (Cond : Nat → (Nat → Session) → Db → Db → Prop) (W : Db → Prop)
    (K : Nat → Session → Db → Prop) : Prop where
  fresh : ∀ j db, K j Session.fresh db
  refreshed : ∀ {j : Nat} {s s' : Session} {db : Db}, s.Refreshed db s' → W db → K j s db →
    K j s' db
  commit : ∀ {i : Nat} {ss : Nat → Session} {db db' : Db}, Tx (reqs i) (ss i) →
    db'.toRows = (ss i).contents db → (db' ≠ db → Cond i ss db db') → W db →
    (∀ j, K j (ss j) db) → W db' ∧ K i (ss i).committed db' ∧ ∀ j, j ≠ i → K j (ss j) db'

section Rule

variable {reqs : Nat → Incoming} {Cond : Nat → (Nat → Session) → Db → Db → Prop} {W : Db → Prop}
  {K : Nat → Session → Db → Prop}

theorem RegistryInvariant.toStore (hI : RegistryInvariant reqs Cond W K) :
    StoreInvariant reqs Cond (fun st => W st.db) fun j s st => K j s st.db where
  fresh j st := hI.fresh j st.db
  refreshed := hI.refreshed
  call _ hW hK := ⟨hW, hK⟩
  commit := hI.commit

theorem RegistryInvariant.reaches (hI : RegistryInvariant reqs Cond W K) {db₀ : Db} (hW : W db₀)
    {sys : System RegistryOp Session World Exc Response}
    (h : registryMachine.Reaches (CommitsMeet Cond) (registry db₀ reqs) sys) :
    W sys.world.db ∧ ∀ j, K j (sys.sessions j) sys.world.db :=
  hI.toStore.reaches hW h

/-- An invariant whose sessions' half speaks of the connector rows they loaded: such a fact holds
    of a row as it is read, every commit keeps it, and it holds of what the committing session has
    loaded afterwards. -/
theorem RegistryInvariant.of_loaded {L : Db → Uuid → ConnectorRecord → Prop}
    (hread : ∀ {db c r}, W db → db.connector c = some r → L db c r)
    (hcommit : ∀ {i : Nat} {ss : Nat → Session} {db db' : Db}, Tx (reqs i) (ss i) →
      db'.toRows = (ss i).contents db → (db' ≠ db → Cond i ss db db') → W db →
      (∀ j c r, (ss j).Loaded c r → L db c r) →
      W db' ∧ (∀ c r, (ss i).committed.Loaded c r → L db' c r) ∧
        ∀ c r, L db c r → L db' c r) :
    RegistryInvariant reqs Cond W fun _ s db => ∀ c r, s.Loaded c r → L db c r where
  fresh _ _ := fun _ _ h => (Session.fresh_loaded h).elim
  refreshed href hW hK := fun c r h => by
    rcases href.connector h with hl | hrow
    · exact hK c r hl
    · exact hread hW hrow
  commit htx hdb hcond hW hK := by
    obtain ⟨hW', hi, hkeep⟩ := hcommit htx hdb hcond hW hK
    exact ⟨hW', hi, fun j _ c r h => hkeep c r (hK j c r h)⟩

/-- Every step of a run leaves the tables alone or commits a transaction of its request. -/
theorem registry_step {C : System RegistryOp Session World Exc Response → Nat →
      System RegistryOp Session World Exc Response → Prop} {db₀ : Db}
    {sys sys' : System RegistryOp Session World Exc Response} {i : Nat}
    (h : registryMachine.Reaches C (registry db₀ reqs) sys) (hs : registryMachine.Step sys i sys') :
    sys'.world.db = sys.world.db ∧ sys'.world.inserts = sys.world.inserts ∨
      Tx (reqs i) (sys.sessions i) ∧
        sys'.world.db.toRows = (sys.sessions i).contents sys.world.db ∧
        sys'.world.inserts = sys.world.inserts ++
          ((sys.sessions i).flushed ++ (sys.sessions i).pending).invocations.map
            fun r => (i, r.id) := by
  cases hs with
  | crash hp => exact .inl ⟨rfl, rfl⟩
  | @op β o k b s' w' hp hst =>
    have hpre := h.pre (registryMachine_implements reqs) (registry_disciplined db₀ reqs) hp
    obtain ⟨hperf, -, -⟩ := registryMachine_step hst
    have hst' : w'.toStore = (perform i o (sys.sessions i) sys.world.toStore).2.2 := by
      show _ = (perform i o (sys.threads i).session sys.world.toStore).2.2
      rw [hperf]
    show w'.db = sys.world.db ∧ w'.inserts = sys.world.inserts ∨ _ ∧ w'.db.toRows = _ ∧
      w'.inserts = _
    cases ho : o.isCommit with
    | false =>
      obtain ⟨hdb, hins, -⟩ := perform_refreshed (i := i) ho (sys.sessions i) sys.world.toStore
      exact .inl ⟨by rw [hst', hdb], by rw [hst', hins]⟩
    | true =>
      cases o with
      | commit =>
        rcases perform_commit i (sys.sessions i) sys.world.toStore with ⟨-, heq⟩ | ⟨hvalid, heq⟩
        · rw [heq] at hst'
          exact .inl ⟨by rw [hst'], by rw [hst']⟩
        · rw [heq] at hst'
          exact .inr ⟨hpre, by rw [hst'], by rw [hst']⟩
      | _ => cases ho

end Rule

/-! ## A small deployment

  One tenant and one connector, for the runs that show a theorem at work, or what the service does
  where it falls short. -/

/-- An environment whose ids and clock readings count up from `base`, and whose adapters find every
    configuration valid. -/
def sampleEnv (base : Nat) : Env where
  uuid4 n := base + n
  utcnow n := base + n
  validateConfig _ _ := { valid := true }
  healthCheck _ := { healthy := true }
  invoke _ _ := .timeout
  internalServiceToken := ""
  timeoutCeiling := 300
  str _ := ""
  repr _ := ""
  uuid5 _ := 0
  float _ := none

def sampleCaller : CallerIdentity := ⟨"operator", "acme", true⟩

def samplePayload (status : ConnectorState) (h : status ∈ creatableStates := by decide) :
    ConnectorCreate where
  name := "github"
  kind := .http
  status := status
  name_length := by decide +kernel
  only_creatable_states := h
  no_literal_secrets := by intro k _; rfl
  no_privilege_escalation := by intro k _; rfl

/-- The first request: a connector is created in service. -/
def sampleEnabled : Incoming :=
  ⟨sampleEnv 0, .createConnector sampleCaller (samplePayload .enabled)⟩

/-- The first request: a connector is created, to be validated. -/
def sampleConfigured : Incoming :=
  ⟨sampleEnv 0, .createConnector sampleCaller (samplePayload .configured)⟩

def sampleReason : TransitionRequest where
  reason := some "leaked"
  idempotencyKey := none
  reason_length := by intro r h; cases h; decide +kernel
  key_length := no_key

def sampleInvocation : InvocationCreate where
  idempotencyKey := "0123456789"
  operation_length := by decide +kernel
  key_length := by decide +kernel
  timeout_range := by norm_num

end FavlGateway.Registry
