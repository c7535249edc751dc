/-
  What the operations do to the database, and what a session then holds.

  Only a commit changes the tables.  `Refreshed` is everything any OTHER operation can do to a
  session: it drops, keeps, or reads again; a refused commit is one of these.  For a commit,
  `contents` is computed once for each shape of session `Tx` names, so that a proof about a
  committed write starts from an equation between tables.
-/
import FavlGateway.Registry.Discipline

namespace FavlGateway.Registry

open FavlGateway.Library

/-! ## What a session has loaded -/

namespace Session

/-- The session has an instance of the connector, readable or not, loaded from `r`. -/
def Loaded (s : Session) (id : Uuid) (r : ConnectorRecord) : Prop :=
  ∃ inst, s.connectors id = some inst ∧ inst.loaded = r

/-- The session has an instance of the invocation, readable or not, loaded from `r`. -/
def LoadedInvocation (s : Session) (id : Uuid) (r : InvocationRecord) : Prop :=
  ∃ inst, s.invocations id = some inst ∧ inst.loaded = r

variable {s s' : Session} {id : Uuid} {db : Db}

theorem Holds.loaded {r : ConnectorRecord} (h : s.Holds id r) : s.Loaded id r := by
  obtain ⟨inst, hinst, -, hr⟩ := h
  exact ⟨inst, hinst, hr⟩

theorem HoldsInvocation.loaded {r : InvocationRecord} (h : s.HoldsInvocation id r) :
    s.LoadedInvocation id r := by
  obtain ⟨inst, hinst, -, hr⟩ := h
  exact ⟨inst, hinst, hr⟩

@[simp] theorem fresh_loaded {r : ConnectorRecord} : ¬ fresh.Loaded id r := by
  rintro ⟨inst, h, -⟩
  cases h

@[simp] theorem fresh_loadedInvocation {r : InvocationRecord} :
    ¬ fresh.LoadedInvocation id r := by
  rintro ⟨inst, h, -⟩
  cases h

/-- What an operation that writes nothing can make of a session: an instance was there before, or
    was read from the database as it is. -/
structure Refreshed (db : Db) (s s' : Session) : Prop where
  connector : ∀ {id r}, s'.Loaded id r → s.Loaded id r ∨ db.connector id = some r
  readable : ∀ {id r}, s'.Holds id r → s.Holds id r ∨ db.connector id = some r
  invocation : ∀ {id r}, s'.LoadedInvocation id r →
    s.LoadedInvocation id r ∨ db.invocation id = some r
  inserted : s'.inserted = s.inserted ∨ s' = fresh

theorem Refreshed.refl : Refreshed db s s := ⟨.inl, .inl, .inl, .inl rfl⟩

theorem Refreshed.fresh : Refreshed db s fresh where
  connector h := (fresh_loaded h).elim
  readable h := (fresh_loaded h.loaded).elim
  invocation h := (fresh_loadedInvocation h).elim
  inserted := .inr rfl

theorem Refreshed.rolledBack : Refreshed db s s.rolledBack where
  connector := by
    rintro id r ⟨inst, h, rfl⟩
    obtain ⟨inst₀, h₀, rfl⟩ := Option.map_eq_some_iff.mp h
    exact .inl ⟨inst₀, h₀, rfl⟩
  readable := by
    rintro id r ⟨inst, h, hread, -⟩
    obtain ⟨inst₀, -, rfl⟩ := Option.map_eq_some_iff.mp h
    cases hread
  invocation := by
    rintro id r ⟨inst, h, rfl⟩
    obtain ⟨inst₀, h₀, rfl⟩ := Option.map_eq_some_iff.mp h
    exact .inl ⟨inst₀, h₀, rfl⟩
  inserted := .inl rfl

theorem Refreshed.loadConnector (locked : Bool) :
    Refreshed db s (s.loadConnector db id locked).2 := by
  unfold Session.loadConnector
  split
  · rename_i row hrow
    refine ⟨?_, ?_, .inl, .inl rfl⟩
    · rintro id' r ⟨inst, h, rfl⟩
      rcases eq_or_ne id' id with rfl | hne
      · simp only [Function.update_self, Option.some.injEq] at h
        subst h
        exact .inr hrow
      · simp only [Function.update_of_ne hne] at h
        exact .inl ⟨inst, h, rfl⟩
    · rintro id' r ⟨inst, h, hread, rfl⟩
      rcases eq_or_ne id' id with rfl | hne
      · simp only [Function.update_self, Option.some.injEq] at h
        subst h
        exact .inr hrow
      · simp only [Function.update_of_ne hne] at h
        exact .inl ⟨inst, h, hread, rfl⟩
  · exact .refl

theorem Refreshed.loadInvocation {row : Option InvocationRecord}
    (hrow : ∀ r, row = some r → db.invocation r.id = some r) :
    Refreshed db s (s.loadInvocation row).2 := by
  cases row with
  | none => exact .refl
  | some row =>
    simp only [Session.loadInvocation]
    split
    · exact .refl
    · refine ⟨.inl, .inl, ?_, .inl rfl⟩
      rintro id' r ⟨inst, h, rfl⟩
      rcases eq_or_ne id' row.id with rfl | hne
      · simp only [Function.update_self, Option.some.injEq] at h
        subst h
        exact .inr (hrow row rfl)
      · simp only [Function.update_of_ne hne] at h
        exact .inl ⟨inst, h, rfl⟩

theorem Refreshed.assign (current : ConnectorRecord) : Refreshed db s { s with
    connectors := Function.update s.connectors id
      ((s.connectors id).map fun inst => { inst with current := current }) } := by
  refine ⟨?_, ?_, .inl, .inl rfl⟩
  · rintro id' r ⟨inst, h, rfl⟩
    rcases eq_or_ne id' id with rfl | hne
    · simp only [Function.update_self, Option.map_eq_some_iff] at h
      obtain ⟨inst₀, h₀, rfl⟩ := h
      exact .inl ⟨inst₀, h₀, rfl⟩
    · simp only [Function.update_of_ne hne] at h
      exact .inl ⟨inst, h, rfl⟩
  · rintro id' r ⟨inst, h, hread, rfl⟩
    rcases eq_or_ne id' id with rfl | hne
    · simp only [Function.update_self, Option.map_eq_some_iff] at h
      obtain ⟨inst₀, h₀, rfl⟩ := h
      exact .inl ⟨inst₀, h₀, hread, rfl⟩
    · simp only [Function.update_of_ne hne] at h
      exact .inl ⟨inst, h, hread, rfl⟩

theorem Refreshed.assignInvocation (current : InvocationRecord) : Refreshed db s { s with
    invocations := Function.update s.invocations id
      ((s.invocations id).map fun inst => { inst with current := current }) } := by
  refine ⟨.inl, .inl, ?_, .inl rfl⟩
  rintro id' r ⟨inst, h, rfl⟩
  rcases eq_or_ne id' id with rfl | hne
  · simp only [Function.update_self, Option.map_eq_some_iff] at h
    obtain ⟨inst₀, h₀, rfl⟩ := h
    exact .inl ⟨inst₀, h₀, rfl⟩
  · simp only [Function.update_of_ne hne] at h
    exact .inl ⟨inst, h, rfl⟩

end Session

/-! ## Rows by their keys -/

namespace Db

variable (db : Db)

theorem connectorKeys_nodup : (db.connectors.flatMap ConnectorRecord.keys).Nodup :=
  (List.nodup_append.mp (List.nodup_append.mp db.valid.1).1).1

theorem auditKeys_nodup : (db.audit.map ConnectorAuditRecord.key).Nodup :=
  (List.nodup_append.mp (List.nodup_append.mp db.valid.1).1).2.1

theorem invocationKeys_nodup : (db.invocations.flatMap InvocationRecord.keys).Nodup :=
  (List.nodup_append.mp db.valid.1).2.1

variable {db}

theorem connector_of_mem {r : ConnectorRecord} (h : r ∈ db.connectors) :
    db.connector r.id = some r := by
  obtain ⟨r', hr'⟩ := @lookup_isSome_of_mem _ _ _ ConnectorRecord.id _ _ h
  obtain ⟨hmem, hid⟩ := lookup_mem hr'
  have heq : r' = r := eq_of_index db.connectorKeys_nodup hmem h (k := .connectorId r.id)
    (by simp [ConnectorRecord.keys, hid]) (by simp [ConnectorRecord.keys])
  rw [connector, hr', heq]

theorem invocation_of_mem {r : InvocationRecord} (h : r ∈ db.invocations) :
    db.invocation r.id = some r := by
  obtain ⟨r', hr'⟩ := @lookup_isSome_of_mem _ _ _ InvocationRecord.id _ _ h
  obtain ⟨hmem, hid⟩ := lookup_mem hr'
  have heq : r' = r := eq_of_index db.invocationKeys_nodup hmem h (k := .invocationId r.id)
    (by simp [InvocationRecord.keys, hid]) (by simp [InvocationRecord.keys])
  rw [invocation, hr', heq]

/-- One row for each idempotency key. -/
theorem invocation_key_unique {r r' : InvocationRecord} (h : r ∈ db.invocations)
    (h' : r' ∈ db.invocations) (ht : r.tenantId = r'.tenantId)
    (hc : r.connectorId = r'.connectorId) (hk : r.idempotencyKey = r'.idempotencyKey) :
    r = r' := by
  refine eq_of_index db.invocationKeys_nodup h h'
    (k := .invocationKey r.tenantId r.connectorId r.idempotencyKey) ?_ ?_
  · simp [InvocationRecord.keys]
  · simp [InvocationRecord.keys, ht, hc, hk]

theorem invocationByKey_mem {tenantId key : String} {connectorId : Uuid} {r : InvocationRecord}
    (h : db.invocationByKey tenantId connectorId key = some r) :
    r ∈ db.invocations ∧ r.tenantId = tenantId ∧ r.connectorId = connectorId ∧
      r.idempotencyKey = key := by
  have hp := List.find?_some h
  simp only [Bool.decide_and, Bool.and_eq_true, decide_eq_true_eq] at hp
  exact ⟨List.mem_of_find?_eq_some h, hp.1, hp.2.1, hp.2.2⟩

end Db

/-! ## Operations that write nothing -/

/-- The operation is a commit. -/
def RegistryOp.isCommit : {β : Type} → RegistryOp β → Bool
  | _, .commit => true
  | _, _ => false

/-- The operation is a call that leaves the service. -/
def RegistryOp.isCall : {β : Type} → RegistryOp β → Bool
  | _, .callAdapter _ => true
  | _, _ => false

/-- Only commits and calls change the store. -/
theorem perform_store {i : Nat} {β : Type} {o : RegistryOp β} (ho : o.isCommit = false)
    (hc : o.isCall = false) (s : Session) (st : Store) : (perform i o s st).2.2 = st := by
  cases o with
  | commit => cases ho
  | callAdapter c => cases hc
  | getConnector id forUpdate =>
    simp only [perform]
    split <;> rfl
  | flush =>
    simp only [perform]
    split <;> rfl
  | _ => rfl

/-- An operation other than a commit leaves the tables alone and only refreshes the session. -/
theorem perform_refreshed {i : Nat} {β : Type} {o : RegistryOp β} (ho : o.isCommit = false)
    (s : Session) (st : Store) :
    (perform i o s st).2.2.db = st.db ∧ (perform i o s st).2.2.inserts = st.inserts ∧
      s.Refreshed st.db (perform i o s st).2.1 := by
  cases o with
  | commit => cases ho
  | getConnector id forUpdate =>
    simp only [perform]
    split
    · exact ⟨rfl, rfl, .refl⟩
    · exact ⟨rfl, rfl, .loadConnector forUpdate⟩
  | refreshConnector id => exact ⟨rfl, rfl, .loadConnector true⟩
  | setConnector r => exact ⟨rfl, rfl, .assign r⟩
  | setInvocation r => exact ⟨rfl, rfl, .assignInvocation r⟩
  | flush =>
    simp only [perform]
    split
    · exact ⟨rfl, rfl, .inl, .inl, .inl, .inl rfl⟩
    · exact ⟨rfl, rfl, .rolledBack⟩
  | rollback => exact ⟨rfl, rfl, .rolledBack⟩
  | close => exact ⟨rfl, rfl, .fresh⟩
  | getInvocation id =>
    refine ⟨rfl, rfl, .loadInvocation fun r hr => ?_⟩
    exact Db.invocation_of_mem (lookup_mem hr).1
  | findExisting tenantId connectorId key =>
    refine ⟨rfl, rfl, .loadInvocation fun r hr => ?_⟩
    exact Db.invocation_of_mem (Db.invocationByKey_mem hr).1
  | connectorAttrs id => exact ⟨rfl, rfl, .refl⟩
  | addConnector r => exact ⟨rfl, rfl, .inl, .inl, .inl, .inl rfl⟩
  | addAudit a => exact ⟨rfl, rfl, .inl, .inl, .inl, .inl rfl⟩
  | addInvocation r => exact ⟨rfl, rfl, .inl, .inl, .inl, .inl rfl⟩
  | enqueue e => exact ⟨rfl, rfl, .inl, .inl, .inl, .inl rfl⟩
  | listConnectors tenantId includeDeleted => exact ⟨rfl, rfl, .refl⟩
  | auditTrail connectorId tenantId => exact ⟨rfl, rfl, .refl⟩
  | listInvocations q => exact ⟨rfl, rfl, .refl⟩
  | callAdapter c => exact ⟨rfl, rfl, .refl⟩

/-- A commit either leaves the store as it was and expires the session, or makes the transaction's
    contents the database. -/
theorem perform_commit (i : Nat) (s : Session) (st : Store) :
    (¬ (s.contents st.db).Valid ∧ (perform i .commit s st).2 = (s.rolledBack, st)) ∨
      ∃ h : (s.contents st.db).Valid, (perform i .commit s st).2 = (s.committed,
        { st with
          db := ⟨s.contents st.db, h⟩
          inserts := st.inserts ++ (s.flushed ++ s.pending).invocations.map fun r => (i, r.id) }) := by
  simp only [perform]
  split
  · rename_i h
    exact .inr ⟨h, rfl⟩
  · rename_i h
    exact .inl ⟨h, rfl⟩

/-! ## The tables after each transaction -/

/-- The tables after an UPDATE of one connector and INSERTs. -/
def Rows.updateConnector (r : Rows) (id : Uuid) (f : ConnectorRecord → ConnectorRecord) : Rows :=
  { r with connectors := r.connectors.map fun row => if row.id = id then f row else row }

/-- The tables after an UPDATE of one invocation. -/
def Rows.updateInvocation (r : Rows) (id : Uuid) (f : InvocationRecord → InvocationRecord) :
    Rows :=
  { r with invocations := r.invocations.map fun row => if row.id = id then f row else row }

theorem ConnectorRecord.merge_clean (loaded stored : ConnectorRecord) :
    merge loaded loaded stored = stored := by
  simp [merge]

theorem InvocationRecord.merge_clean (loaded stored : InvocationRecord) :
    merge loaded loaded stored = stored := by
  simp [merge]

namespace Session.Clean

variable {s : Session} {db : Db}

theorem writeConnector_eq (hs : s.Clean) (row : ConnectorRecord) : s.writeConnector row = row := by
  unfold writeConnector
  split
  · rename_i inst hinst
    rw [(hs.connectors hinst).1, ConnectorRecord.merge_clean]
  · rfl

theorem writeInvocation_eq (hs : s.Clean) (row : InvocationRecord) :
    s.writeInvocation row = row := by
  unfold writeInvocation
  split
  · rename_i inst hinst
    rw [(hs.invocations hinst).1, InvocationRecord.merge_clean]
  · rfl

theorem map_writeConnector (hs : s.Clean) (l : List ConnectorRecord) :
    l.map s.writeConnector = l := by
  rw [show s.writeConnector = id from funext hs.writeConnector_eq, List.map_id]

theorem map_writeInvocation (hs : s.Clean) (l : List InvocationRecord) :
    l.map s.writeInvocation = l := by
  rw [show s.writeInvocation = id from funext hs.writeInvocation_eq, List.map_id]

/-- A clean session commits nothing. -/
theorem contents_eq (hs : s.Clean) : s.contents db = db.toRows := by
  simp only [contents, hs.map_writeConnector, hs.map_writeInvocation, hs.pending, hs.flushed,
    Rows.append_empty]

variable {id : Uuid} {inst : Instance ConnectorRecord} {current : ConnectorRecord} {rows : Rows}

/-- An assignment to a connector is an UPDATE of its row, merged with what is stored. -/
theorem contents_writing (hs : s.Clean) (held : s.connectors id = some inst) :
    (s.writing id current rows).contents db =
      db.toRows.updateConnector id (.merge inst.loaded current) ++ rows := by
  have hconn : (s.writing id current rows).writeConnector =
      fun row => if row.id = id then .merge inst.loaded current row else row := by
    funext row
    unfold Session.writeConnector writing
    by_cases hrow : row.id = id
    · simp [hrow, held]
    · simp only [Function.update_of_ne hrow, hrow, if_false]
      exact hs.writeConnector_eq row
  have hinv : db.invocations.map (s.writing id current rows).writeInvocation = db.invocations :=
    hs.map_writeInvocation db.invocations
  have hrows : (s.writing id current rows).flushed ++ (s.writing id current rows).pending =
      rows := by simp [writing, hs.flushed]
  unfold contents
  rw [hconn, hinv, hrows]
  rfl

variable {inst' : Instance InvocationRecord} {current' : InvocationRecord}

/-- An assignment to an invocation is an UPDATE of its row, merged with what is stored. -/
theorem contents_writingInvocation (hs : s.Clean) (held : s.invocations id = some inst') :
    (s.writingInvocation id current' rows).contents db =
      db.toRows.updateInvocation id (.merge inst'.loaded current') ++ rows := by
  have hinv : (s.writingInvocation id current' rows).writeInvocation =
      fun row => if row.id = id then .merge inst'.loaded current' row else row := by
    funext row
    unfold Session.writeInvocation writingInvocation
    by_cases hrow : row.id = id
    · simp [hrow, held]
    · simp only [Function.update_of_ne hrow, hrow, if_false]
      exact hs.writeInvocation_eq row
  have hconn : db.connectors.map (s.writingInvocation id current' rows).writeConnector =
      db.connectors := hs.map_writeConnector db.connectors
  have hrows : (s.writingInvocation id current' rows).flushed ++
      (s.writingInvocation id current' rows).pending = rows := by
    simp [writingInvocation, hs.flushed]
  unfold contents
  rw [hconn, hinv, hrows]
  rfl

/-- Accepting an invocation is an INSERT. -/
theorem contents_accepting (hs : s.Clean) (r : InvocationRecord) (e : OutboxEvent) :
    (s.accepting r e).contents db = db.toRows ++ { invocations := [r], outbox := [e] } := by
  have hconn : db.connectors.map (s.accepting r e).writeConnector = db.connectors :=
    hs.map_writeConnector db.connectors
  have hinv : db.invocations.map (s.accepting r e).writeInvocation = db.invocations :=
    hs.map_writeInvocation db.invocations
  simp only [contents, hconn, hinv]
  rfl

end Session.Clean

/-- A creation is an INSERT. -/
theorem contents_creating (env : Env) (caller : CallerIdentity) (payload : ConnectorCreate)
    (db : Db) :
    (creating env caller payload).contents db = db.toRows ++
      { connectors := [newConnector env caller payload]
        audit := [creationAudit env caller (newConnector env caller payload)]
        outbox := [creationEvent env (newConnector env caller payload)] } := by
  have hconn : (creating env caller payload).writeConnector = id := rfl
  have hinv : (creating env caller payload).writeInvocation = id := rfl
  simp only [Session.contents, hconn, hinv, List.map_id]
  rfl

theorem Session.writeConnector_id (s : Session) (row : ConnectorRecord) :
    (s.writeConnector row).id = row.id := by
  unfold Session.writeConnector
  split <;> rfl

/-- The columns of a connector that nothing ever assigns. -/
structure SameConnector (r r' : ConnectorRecord) : Prop where
  id : r'.id = r.id
  tenantId : r'.tenantId = r.tenantId
  name : r'.name = r.name
  kind : r'.kind = r.kind
  config : r'.config = r.config

theorem SameConnector.refl (r : ConnectorRecord) : SameConnector r r := ⟨rfl, rfl, rfl, rfl, rfl⟩

theorem Session.writeConnector_same (s : Session) (row : ConnectorRecord) :
    SameConnector row (s.writeConnector row) := by
  unfold Session.writeConnector
  split
  · exact ⟨rfl, rfl, rfl, rfl, rfl⟩
  · exact .refl row

/-- A connector, its immutable columns unchanged, outlives every commit. -/
theorem connector_stays_same {s : Session} {db db' : Db} (hdb : db'.toRows = s.contents db)
    {c : Uuid} {r : ConnectorRecord} (h : db.connector c = some r) :
    ∃ r', db'.connector c = some r' ∧ SameConnector r r' := by
  obtain ⟨hmem, rfl⟩ := lookup_mem h
  refine ⟨s.writeConnector r, ?_, s.writeConnector_same r⟩
  rw [← s.writeConnector_id r]
  apply Db.connector_of_mem
  rw [hdb]
  exact List.mem_append_left _ (List.mem_map_of_mem hmem)

/-- Connectors outlive every commit. -/
theorem connector_stays {s : Session} {db db' : Db} (hdb : db'.toRows = s.contents db) {c : Uuid}
    {r : ConnectorRecord} (h : db.connector c = some r) : ∃ r', db'.connector c = some r' := by
  obtain ⟨r', hr', -⟩ := connector_stays_same hdb h
  exact ⟨r', hr'⟩

/-! ## What a session has loaded, around a commit -/

namespace Session

variable {s : Session} {id c v : Uuid} {current r : ConnectorRecord}
  {current' r' : InvocationRecord} {rows : Rows}

/-- Staging a write changes no loaded values. -/
theorem loaded_writing : (s.writing id current rows).Loaded c r ↔ s.Loaded c r := by
  unfold Loaded writing
  rcases eq_or_ne c id with rfl | hne
  · simp only [Function.update_self, Option.map_eq_some_iff]
    constructor
    · rintro ⟨_, ⟨inst, hinst, rfl⟩, rfl⟩
      exact ⟨inst, hinst, rfl⟩
    · rintro ⟨inst, hinst, rfl⟩
      exact ⟨_, ⟨inst, hinst, rfl⟩, rfl⟩
  · simp only [Function.update_of_ne hne]

theorem loadedInvocation_writingInvocation :
    (s.writingInvocation id current' rows).LoadedInvocation v r' ↔ s.LoadedInvocation v r' := by
  unfold LoadedInvocation writingInvocation
  rcases eq_or_ne v id with rfl | hne
  · simp only [Function.update_self, Option.map_eq_some_iff]
    constructor
    · rintro ⟨_, ⟨inst, hinst, rfl⟩, rfl⟩
      exact ⟨inst, hinst, rfl⟩
    · rintro ⟨inst, hinst, rfl⟩
      exact ⟨_, ⟨inst, hinst, rfl⟩, rfl⟩
  · simp only [Function.update_of_ne hne]

/-- Where a session inserts no connectors, its commit makes current values the loaded ones. -/
theorem committed_loaded (hc : (s.flushed ++ s.pending).connectors = [])
    (h : s.committed.Loaded c r) : ∃ inst, s.connectors c = some inst ∧ inst.current = r := by
  obtain ⟨inst, hinst, rfl⟩ := h
  simp only [committed, hc, List.find?_nil, Option.map_eq_some_iff] at hinst
  obtain ⟨inst₀, h₀, rfl⟩ := hinst
  exact ⟨inst₀, h₀, rfl⟩

theorem committed_holds (hc : (s.flushed ++ s.pending).connectors = [])
    (h : s.committed.Holds c r) :
    ∃ inst, s.connectors c = some inst ∧ inst.expired = false ∧ inst.current = r := by
  obtain ⟨inst, hinst, hread, rfl⟩ := h
  simp only [committed, hc, List.find?_nil, Option.map_eq_some_iff] at hinst
  obtain ⟨inst₀, h₀, rfl⟩ := hinst
  exact ⟨inst₀, h₀, hread, rfl⟩

theorem committed_loadedInvocation (hv : (s.flushed ++ s.pending).invocations = [])
    (h : s.committed.LoadedInvocation v r') :
    ∃ inst, s.invocations v = some inst ∧ inst.current = r' := by
  obtain ⟨inst, hinst, rfl⟩ := h
  simp only [committed, hv, List.find?_nil, Option.map_eq_some_iff] at hinst
  obtain ⟨inst₀, h₀, rfl⟩ := hinst
  exact ⟨inst₀, h₀, rfl⟩

namespace Clean

variable (hs : s.Clean)

include hs

theorem loaded_of_committed (h : s.committed.Loaded c r) : s.Loaded c r := by
  obtain ⟨inst, hinst, rfl⟩ := committed_loaded (by simp [hs.flushed, hs.pending]) h
  exact ⟨inst, hinst, (hs.connectors hinst).1.symm⟩

/-- What a session without changed connectors reads after its commit it could read before. -/
theorem holds_of_committed {t : Session} (ht : t.connectors = s.connectors)
    (hc : (t.flushed ++ t.pending).connectors = []) (h : t.committed.Holds c r) : t.Holds c r := by
  obtain ⟨inst, hinst, hread, rfl⟩ := committed_holds hc h
  exact ⟨inst, hinst, hread, (hs.connectors (ht ▸ hinst)).1.symm⟩

theorem loadedInvocation_of_committed (h : s.committed.LoadedInvocation v r') :
    s.LoadedInvocation v r' := by
  obtain ⟨inst, hinst, rfl⟩ := committed_loadedInvocation (by simp [hs.flushed, hs.pending]) h
  exact ⟨inst, hinst, (hs.invocations hinst).1.symm⟩

/-- After an assignment is committed, its instance was loaded with the assigned values. -/
theorem loaded_of_committed_writing (hr : rows.connectors = [])
    (h : (s.writing id current rows).committed.Loaded c r) :
    c = id ∧ r = current ∨ c ≠ id ∧ s.Loaded c r := by
  obtain ⟨inst, hinst, rfl⟩ := committed_loaded (by simp [writing, hs.flushed, hr]) h
  rcases eq_or_ne c id with rfl | hne
  · simp only [writing, Function.update_self, Option.map_eq_some_iff] at hinst
    obtain ⟨inst₀, -, rfl⟩ := hinst
    exact .inl ⟨rfl, rfl⟩
  · simp only [writing, Function.update_of_ne hne] at hinst
    exact .inr ⟨hne, inst, hinst, (hs.connectors hinst).1.symm⟩

theorem loadedInvocation_of_committed_writing (hr : rows.invocations = [])
    (h : (s.writing id current rows).committed.LoadedInvocation v r') :
    s.LoadedInvocation v r' := by
  obtain ⟨inst, hinst, rfl⟩ := committed_loadedInvocation (by simp [writing, hs.flushed, hr]) h
  exact ⟨inst, hinst, (hs.invocations hinst).1.symm⟩

theorem loadedInvocation_of_committed_writingInvocation (hr : rows.invocations = [])
    (h : (s.writingInvocation id current' rows).committed.LoadedInvocation v r') :
    v = id ∧ r' = current' ∨ v ≠ id ∧ s.LoadedInvocation v r' := by
  obtain ⟨inst, hinst, rfl⟩ :=
    committed_loadedInvocation (by simp [writingInvocation, hs.flushed, hr]) h
  rcases eq_or_ne v id with rfl | hne
  · simp only [writingInvocation, Function.update_self, Option.map_eq_some_iff] at hinst
    obtain ⟨inst₀, -, rfl⟩ := hinst
    exact .inl ⟨rfl, rfl⟩
  · simp only [writingInvocation, Function.update_of_ne hne] at hinst
    exact .inr ⟨hne, inst, hinst, (hs.invocations hinst).1.symm⟩

theorem loaded_of_committed_writingInvocation (hr : rows.connectors = [])
    (h : (s.writingInvocation id current' rows).committed.Loaded c r) : s.Loaded c r := by
  obtain ⟨inst, hinst, rfl⟩ := committed_loaded (by simp [writingInvocation, hs.flushed, hr]) h
  exact ⟨inst, hinst, (hs.connectors hinst).1.symm⟩

theorem loaded_of_committed_accepting {e : OutboxEvent}
    (h : (s.accepting r' e).committed.Loaded c r) : s.Loaded c r := by
  obtain ⟨inst, hinst, rfl⟩ := committed_loaded (by rfl) h
  exact ⟨inst, hinst, (hs.connectors hinst).1.symm⟩

theorem loadedInvocation_of_committed_accepting {e : OutboxEvent}
    (h : (s.accepting current' e).committed.LoadedInvocation v r') :
    v = current'.id ∧ r' = current' ∨ v ≠ current'.id ∧ s.LoadedInvocation v r' := by
  obtain ⟨inst, hinst, rfl⟩ := h
  simp only [committed, accepting, Rows.append_invocations, List.append_nil,
    List.find?_cons, List.find?_nil] at hinst
  by_cases hid : current'.id = v
  · simp only [hid, decide_true, Option.some.injEq] at hinst
    subst hinst
    exact .inl ⟨hid.symm, rfl⟩
  · simp only [hid, decide_false, Option.map_eq_some_iff] at hinst
    obtain ⟨inst₀, h₀, rfl⟩ := hinst
    exact .inr ⟨fun h => hid h.symm, inst₀, h₀, (hs.invocations h₀).1.symm⟩

end Clean

theorem loaded_of_committed_creating {env : Env} {caller : CallerIdentity}
    {payload : ConnectorCreate} (h : (creating env caller payload).committed.Loaded c r) :
    c = env.uuid4 0 ∧ r = newConnector env caller payload := by
  obtain ⟨inst, hinst, rfl⟩ := h
  simp only [committed, creating, Rows.append_connectors, List.append_nil,
    List.find?_cons, List.find?_nil] at hinst
  by_cases hid : (newConnector env caller payload).id = c
  · simp only [hid, decide_true, Option.some.injEq] at hinst
    subst hinst
    exact ⟨hid.symm, rfl⟩
  · simp [hid] at hinst

theorem loadedInvocation_of_committed_creating {env : Env} {caller : CallerIdentity}
    {payload : ConnectorCreate} :
    ¬ (creating env caller payload).committed.LoadedInvocation v r' := by
  intro h
  obtain ⟨inst, hinst, -⟩ := committed_loadedInvocation (by rfl) h
  cases hinst

end Session

end FavlGateway.Registry
