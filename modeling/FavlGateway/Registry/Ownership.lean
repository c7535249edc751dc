/-
  Who inserted an invocation, and what that gives the inserter.

  Every row of `invocations` was inserted by exactly one request (`Store.inserts`, recorded by the
  commit itself).  Only that request ever writes the row again or calls the adapter for it, so what
  its session has loaded of the row IS the row, for as long as the request runs.
-/
import FavlGateway.Registry.Invariants

namespace FavlGateway.Registry

open FavlGateway.Library

/-! ## Invocations around a commit -/

theorem Session.writeInvocation_id (s : Session) (row : InvocationRecord) :
    (s.writeInvocation row).id = row.id := by
  unfold Session.writeInvocation
  split <;> rfl

/-- The columns of an invocation that nothing ever assigns. -/
structure SameInvocation (r r' : InvocationRecord) : Prop where
  id : r'.id = r.id
  tenantId : r'.tenantId = r.tenantId
  connectorId : r'.connectorId = r.connectorId
  idempotencyKey : r'.idempotencyKey = r.idempotencyKey
  adapterKind : r'.adapterKind = r.adapterKind

theorem SameInvocation.refl (r : InvocationRecord) : SameInvocation r r := ⟨rfl, rfl, rfl, rfl, rfl⟩

theorem SameInvocation.trans {r r' r'' : InvocationRecord} (h : SameInvocation r r')
    (h' : SameInvocation r' r'') : SameInvocation r r'' :=
  ⟨h'.id.trans h.id, h'.tenantId.trans h.tenantId, h'.connectorId.trans h.connectorId,
    h'.idempotencyKey.trans h.idempotencyKey, h'.adapterKind.trans h.adapterKind⟩

theorem Session.writeInvocation_same (s : Session) (row : InvocationRecord) :
    SameInvocation row (s.writeInvocation row) := by
  unfold Session.writeInvocation
  split
  · exact ⟨rfl, rfl, rfl, rfl, rfl⟩
  · exact .refl row

section Stays

variable {s : Session} {db db' : Db} (hdb : db'.toRows = s.contents db)

include hdb

/-- Invocations outlive every commit. -/
theorem invocation_stays {v : Uuid} {r : InvocationRecord} (h : db.invocation v = some r) :
    ∃ r', db'.invocation v = some r' ∧ SameInvocation r r' := by
  obtain ⟨hmem, rfl⟩ := lookup_mem h
  refine ⟨s.writeInvocation r, ?_, s.writeInvocation_same r⟩
  rw [← s.writeInvocation_id r]
  apply Db.invocation_of_mem
  rw [hdb]
  exact List.mem_append_left _ (List.mem_map_of_mem hmem)

theorem invocationIds_committed : db'.invocations.map (·.id) =
    db.invocations.map (·.id) ++ (s.flushed ++ s.pending).invocations.map (·.id) := by
  rw [hdb, Session.contents, Rows.append_invocations, List.map_append, List.map_map]
  congr 1
  exact List.map_congr_left fun r _ => s.writeInvocation_id r

end Stays

theorem InvocationQuiet.same {s : Session} {db db' : Db} (h : InvocationQuiet s)
    (hdb : db'.toRows = s.contents db) (v : Uuid) : db'.invocation v = db.invocation v := by
  have hinv : db'.invocations = db.invocations := by rw [hdb, h.invocations]
  rw [Db.invocation, hinv]
  rfl

/-- A quiet commit stages no invocation event. -/
theorem InvocationQuiet.events {s : Session} {db db' : Db} (h : InvocationQuiet s)
    (hdb : db'.toRows = s.contents db) (v : Uuid) :
    db'.invocationEvents v = db.invocationEvents v := by
  obtain ⟨es, hes, htype⟩ := h.outbox
  have hout : db'.outbox = db.outbox ++ es := by rw [hdb, hes]
  have hnone : es.filter (fun e => e.aggregateType = "invocation" ∧ e.aggregateId = some v) =
      [] := by
    rw [List.filter_eq_nil_iff]
    intro e he
    simp [htype e he]
  rw [Db.invocationEvents_appended hout, hnone, List.append_nil]

section Written

variable {base : Session} {db db' : Db} {env : Env} {record stored current : InvocationRecord}
  {result : InvocationResult} {e : OutboxEvent}

/-- The tables after the commit of an assignment to an invocation the session holds. -/
theorem Session.Clean.writtenInvocation (clean : base.Clean)
    (held : base.LoadedInvocation record.id record)
    (hdb : db'.toRows = (base.writingInvocation record.id current { outbox := [e] }).contents db) :
    (∀ v, db'.invocation v = if v = record.id then
        (db.invocation record.id).map (.merge record current) else db.invocation v) ∧
      db'.outbox = db.outbox ++ [e] := by
  obtain ⟨inst, hinst, hload⟩ := held
  rw [clean.contents_writingInvocation hinst, hload] at hdb
  refine ⟨fun v => Db.invocation_updated hdb rfl fun r => rfl, ?_⟩
  rw [hdb]
  rfl

/-- The tables after an invocation was accepted. -/
theorem Session.Clean.accepted (clean : base.Clean)
    (hdb : db'.toRows = (base.accepting record e).contents db) :
    db.invocation record.id = none ∧
      (∀ v, db'.invocation v = if v = record.id then some record else db.invocation v) ∧
      db'.outbox = db.outbox ++ [e] := by
  rw [clean.contents_accepting] at hdb
  have hinv : db'.invocations = db.invocations ++ [record] := by
    rw [hdb]
    rfl
  refine ⟨(Db.invocation_inserted (c := 0) hinv).1, fun v => (Db.invocation_inserted hinv).2, ?_⟩
  rw [hdb]
  rfl

theorem merge_started :
    InvocationRecord.merge record (started env record) record = started env record := by
  simp [InvocationRecord.merge, started, mergeColumn_loaded]

theorem merge_finished :
    InvocationRecord.merge record (finished env record result) record =
      finished env record result := by
  simp [InvocationRecord.merge, finished, mergeColumn_loaded]

end Written

/-! ## The invariant -/

/-- Request `i` inserted the invocation that the adapter is asked for. -/
def AskedByInserter (st : Store) (i : Nat) (request : InvocationRequest) : Prop :=
  (i, request.invocationId) ∈ st.inserts ∧
    ∃ row, st.db.invocation request.invocationId = some row ∧ row.tenantId = request.tenantId ∧
      row.connectorId = request.connectorId ∧ row.idempotencyKey = request.idempotencyKey

/-- The inserts on record are those of the rows, and every adapter was called by the inserter. -/
structure Owned (st : Store) : Prop where
  inserts : st.inserts.map Prod.snd = st.db.invocations.map (·.id)
  calls : ∀ {i request context}, (i, .invoke request context) ∈ st.calls →
    AskedByInserter st i request

/-- Each row has one inserter. -/
theorem Owned.unique {st : Store} (h : Owned st) {i j : Nat} {v : Uuid} (hi : (i, v) ∈ st.inserts)
    (hj : (j, v) ∈ st.inserts) : i = j := by
  have hids : (st.db.invocations.map (·.id)).Nodup := by
    refine List.Nodup.of_map (fun id => RowKey.invocationId id) ?_
    rw [List.map_map]
    refine List.Nodup.sublist ?_ st.db.invocationKeys_nodup
    induction st.db.invocations with
    | nil => exact List.Sublist.refl _
    | cons r rest ih =>
      simp only [List.map_cons, List.flatMap_cons, InvocationRecord.keys, List.cons_append,
        List.nil_append, Function.comp]
      exact (ih.cons _).cons_cons _
  rw [← h.inserts] at hids
  exact congrArg Prod.fst (List.inj_on_of_nodup_map hids hi hj rfl)

theorem AskedByInserter.committed {st : Store} {s : Session} {db' : Db} {ins : List (Nat × Uuid)}
    (hdb : db'.toRows = s.contents st.db) {i : Nat} {request : InvocationRequest}
    (h : AskedByInserter st i request) :
    AskedByInserter { st with db := db', inserts := st.inserts ++ ins } i request := by
  obtain ⟨hins, row, hrow, ht, hc, hk⟩ := h
  obtain ⟨row', hrow', hsame⟩ := invocation_stays hdb hrow
  exact ⟨List.mem_append_left _ hins, row', hrow', hsame.tenantId.trans ht,
    hsame.connectorId.trans hc, hsame.idempotencyKey.trans hk⟩

/-- A session has its own rows as they are stored. -/
def Session.OwnCurrent (s : Session) (db : Db) : Prop :=
  ∀ v ∈ s.inserted, ∀ r, s.LoadedInvocation v r → db.invocation v = some r

section Commit

variable {rq : Incoming} {s base : Session} {db db' : Db} {record current : InvocationRecord}
  {e : OutboxEvent}

/-- An own row is written back to what it was computed from. -/
theorem Session.Clean.writtenOwn (clean : base.Clean)
    (held : base.HoldsInvocation record.id record) (own : record.id ∈ base.inserted)
    (hmerge : InvocationRecord.merge record current record = current)
    (hdb : db'.toRows = (base.writingInvocation record.id current { outbox := [e] }).contents db)
    (hcur : (base.writingInvocation record.id current { outbox := [e] }).OwnCurrent db) :
    db.invocation record.id = some record ∧
      (∀ v, db'.invocation v = if v = record.id then some current else db.invocation v) ∧
      db'.outbox = db.outbox ++ [e] := by
  have hstored : db.invocation record.id = some record :=
    hcur _ own _ (Session.loadedInvocation_writingInvocation.mpr held.loaded)
  obtain ⟨hrows, hout⟩ := clean.writtenInvocation held.loaded hdb
  rw [hstored, Option.map_some, hmerge] at hrows
  exact ⟨hstored, hrows, hout⟩

theorem Session.Clean.ownCurrent_written (clean : base.Clean)
    (held : base.HoldsInvocation record.id record) (own : record.id ∈ base.inserted)
    (hmerge : InvocationRecord.merge record current record = current)
    (hdb : db'.toRows = (base.writingInvocation record.id current { outbox := [e] }).contents db)
    (hcur : (base.writingInvocation record.id current { outbox := [e] }).OwnCurrent db) :
    (base.writingInvocation record.id current { outbox := [e] }).committed.OwnCurrent db' := by
  obtain ⟨-, hrows, -⟩ := clean.writtenOwn held own hmerge hdb hcur
  intro v hv r hr
  rw [hrows]
  rcases clean.loadedInvocation_of_committed_writingInvocation rfl hr with ⟨rfl, rfl⟩ | ⟨hne, hl⟩
  · exact if_pos rfl
  · rw [if_neg hne]
    refine hcur v ?_ r (Session.loadedInvocation_writingInvocation.mpr hl)
    simpa [Session.committed, Session.writingInvocation, clean.flushed] using hv

/-- What the committing session calls its own is stored as it has it. -/
theorem Session.OwnCurrent.committed (hcur : s.OwnCurrent db) (htx : Tx rq s)
    (hdb : db'.toRows = s.contents db) : s.committed.OwnCurrent db' := by
  cases htx.invocation with
  | quiet hq =>
    intro v hv r hr
    rw [hq.same hdb]
    exact hcur v (hq.inserted ▸ hv) r (hq.loaded hr)
  | @accept base args record invoked args_eq clean first held enabled tenant =>
    obtain ⟨-, hrows, -⟩ := clean.accepted hdb
    intro v hv r hr
    rw [hrows]
    rcases clean.loadedInvocation_of_committed_accepting hr with ⟨rfl, rfl⟩ | ⟨hne, -⟩
    · exact if_pos rfl
    · simp [Session.committed, Session.accepting, first] at hv
      exact absurd hv hne
  | start clean held own accepted =>
    exact clean.ownCurrent_written held own merge_started hdb hcur
  | finish clean held own inFlight terminal =>
    exact clean.ownCurrent_written held own merge_finished hdb hcur

/-- The commit of another request leaves them as they are. -/
theorem invocation_of_other (htx : Tx rq s) (hdb : db'.toRows = s.contents db)
    (hcur : s.OwnCurrent db) {v : Uuid} (hv : v ∉ s.inserted) {r : InvocationRecord}
    (h : db.invocation v = some r) : db'.invocation v = some r := by
  cases htx.invocation with
  | quiet hq => rwa [hq.same hdb]
  | @accept base args record invoked args_eq clean first held enabled tenant =>
    obtain ⟨hnew, hrows, -⟩ := clean.accepted hdb
    rw [hrows, if_neg, h]
    rintro rfl
    rw [hnew] at h
    cases h
  | start clean held own accepted =>
    obtain ⟨-, hrows, -⟩ := clean.writtenOwn held own merge_started hdb hcur
    rw [hrows, if_neg (by rintro rfl; exact hv own), h]
  | finish clean held own inFlight terminal =>
    obtain ⟨-, hrows, -⟩ := clean.writtenOwn held own merge_finished hdb hcur
    rw [hrows, if_neg (by rintro rfl; exact hv own), h]

end Commit

/-! ## In every run -/

/-- What the session calls its own was inserted by its request, and it has it as it is stored. -/
structure OwnRows (j : Nat) (s : Session) (st : Store) : Prop where
  inserts : ∀ v ∈ s.inserted, (j, v) ∈ st.inserts
  current : s.OwnCurrent st.db

theorem OwnRows.fresh (j : Nat) (st : Store) : OwnRows j Session.fresh st where
  inserts v hv := by cases hv
  current v hv := by cases hv

theorem owned_invariant (reqs : Nat → Incoming) :
    StoreInvariant reqs (fun _ _ _ _ => True) Owned OwnRows where
  fresh := OwnRows.fresh
  refreshed {j s s' st} href hW hK := by
    rcases href.inserted with hins | rfl
    · refine ⟨fun v hv => hK.inserts v (hins ▸ hv), fun v hv r hr => ?_⟩
      rcases href.invocation hr with hl | hrow
      · exact hK.current v (hins ▸ hv) r hl
      · exact hrow
    · exact .fresh j st
  call {i ss st c} hpre hW hK := by
    refine ⟨⟨hW.inserts, fun {i' request context} hmem => ?_⟩, fun j =>
      ⟨(hK j).inserts, (hK j).current⟩⟩
    rcases List.mem_append.mp hmem with hmem | hmem
    · exact hW.calls hmem
    · -- the call that is being made
      simp only [List.mem_singleton, Prod.mk.injEq] at hmem
      obtain ⟨rfl, rfl⟩ := hmem
      obtain ⟨record, held, own, hid, -, ht, hc, hk⟩ := hpre
      rw [hid] at own
      exact ⟨(hK i').inserts _ own, record, (hK i').current _ own _ held.loaded, ht, hc, hk⟩
  commit {i ss st db'} htx hdb _ hW hK := by
    refine ⟨⟨?_, fun h => (hW.calls h).committed hdb⟩, ⟨fun v hv => ?_, ?_⟩, fun j hj => ⟨?_, ?_⟩⟩
    · rw [invocationIds_committed hdb, List.map_append, hW.inserts, List.map_map]
      rfl
    · rcases List.mem_append.mp hv with hv | hv
      · exact List.mem_append_left _ ((hK i).inserts v hv)
      · obtain ⟨r, hr, rfl⟩ := List.mem_map.mp hv
        exact List.mem_append_right _ (List.mem_map.mpr ⟨r, hr, rfl⟩)
    · exact (hK i).current.committed htx hdb
    · exact fun v hv => List.mem_append_left _ ((hK j).inserts v hv)
    · intro v hv r hr
      refine invocation_of_other htx hdb (hK i).current (fun hi => hj ?_)
        ((hK j).current v hv r hr)
      exact hW.unique ((hK j).inserts v hv) ((hK i).inserts v hi)

theorem empty_owned : Owned { db := Db.empty } where
  inserts := rfl
  calls h := by cases h

/-- Every reachable state is owned. -/
theorem reaches_owned {reqs : Nat → Incoming}
    {sys : System RegistryOp Session World Exc Response}
    (h : registryMachine.Reaches Machine.Any (registry Db.empty reqs) sys) :
    Owned sys.world.toStore ∧ ∀ j, OwnRows j (sys.sessions j) sys.world.toStore :=
  (owned_invariant reqs).reaches empty_owned
    (h.mono (D := CommitsMeet fun _ _ _ _ => True) fun _ _ _ _ _ => trivial)

/-- A row, its immutable columns unchanged, outlives every run. -/
theorem invocation_stays_later {reqs : Nat → Incoming}
    {sys sys' : System RegistryOp Session World Exc Response}
    (h : registryMachine.Reaches Machine.Any (registry Db.empty reqs) sys)
    (h' : registryMachine.Reaches Machine.Any sys sys') {r : InvocationRecord}
    (hr : r ∈ sys.world.db.invocations) :
    ∃ later ∈ sys'.world.db.invocations, SameInvocation r later := by
  induction h' with
  | start => exact ⟨r, hr, .refl r⟩
  | step hrun hs _ ih =>
    obtain ⟨later, hmem, hsame⟩ := ih
    rcases registry_step (h.trans hrun) hs with ⟨hdb, -⟩ | ⟨-, hdb, -⟩
    · rw [hdb]
      exact ⟨later, hmem, hsame⟩
    · obtain ⟨next, hnext, hsame'⟩ := invocation_stays hdb (Db.invocation_of_mem hmem)
      exact ⟨next, (lookup_mem hnext).1, hsame.trans hsame'⟩

end FavlGateway.Registry
