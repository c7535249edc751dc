/-
  Which requests move a connector along the edges of the lifecycle table.

  `apply` looks its edge up and commits the row with an audit row and an event that name it, so
  whatever request it serves, the commit is one the table allows (`Conforms`).  DELETE writes the
  status by hand: it looks nothing up, asks for no reason and stages no audit row.  So a sequence of
  requests conforms as long as no DELETE takes effect (`DeletionTakesEffect`), which is a question
  about the request and the row it finds.
-/
import FavlGateway.Registry.Solo

namespace FavlGateway.Registry

open FavlGateway.Library ConnectorState

/-! ## DELETE -/

/-- The request is a DELETE that will write: it finds a connector of its caller's tenant that is
    neither deleted nor waiting for deletion, and what it writes fits its columns. -/
def DeletionTakesEffect (rq : Incoming) (db : Db) : Prop :=
  ∃ caller id record, rq.request = .requestConnectorDeletion caller id ∧
    db.connector id = some record ∧ record.tenantId = caller.tenantId ∧
    record.status ≠ .deleted ∧ record.status ≠ .deletionRequested ∧
    varcharFits 255 caller.actorId = true ∧ int4Fits (record.version + 1) = true

theorem not_deletionTakesEffect {rq : Incoming} {db : Db}
    (h : ∀ caller id, rq.request ≠ .requestConnectorDeletion caller id) :
    ¬ DeletionTakesEffect rq db := by
  rintro ⟨caller, id, record, hrq, -⟩
  exact h caller id hrq

/-- A stored connector fits its columns. -/
theorem Db.connector_fits {db : Db} {c : Uuid} {r : ConnectorRecord}
    (h : db.connector c = some r) : r.fits = true := by
  obtain ⟨hmem, -⟩ := lookup_mem h
  have hfits := db.valid.2
  simp only [Rows.fits, Bool.and_eq_true, List.all_eq_true] at hfits
  exact hfits.1.1.1 r hmem

section Deletion

variable {i : Nat} {env : Env} {caller : CallerIdentity} {id : Uuid} {st : Store}
  {record : ConnectorRecord}

/-- The session that has read the connector under its lock. -/
def lockedSession (id : Uuid) (record : ConnectorRecord) : Session where
  connectors := Function.update (fun _ => none) id (some (.ofRow record true))

theorem lockedSession_clean (hid : record.id = id) : (lockedSession id record).Clean where
  pending := rfl
  flushed := rfl
  connectors := by
    intro id' inst h
    rcases eq_or_ne id' id with rfl | hne
    · simp only [lockedSession, Function.update_self, Option.some.injEq] at h
      subst h
      exact ⟨rfl, hid⟩
    · simp [lockedSession, Function.update_of_ne hne] at h
  invocations h := by cases h

/-- The commit of a DELETE goes through only if what it writes fits. -/
theorem deletion_commit {e : OutboxEvent} (hrow : st.db.connector id = some record) :
    (perform i .commit ((lockedSession id record).writing id
        (withDeletionRequested env caller record) { outbox := [e] }) st).2.2.db = st.db ∨
      varcharFits 255 caller.actorId = true ∧ int4Fits (record.version + 1) = true := by
  have hid : record.id = id := (lookup_mem hrow).2
  rcases perform_commit i _ st with ⟨-, heq⟩ | ⟨hvalid, heq⟩
  · exact .inl (by rw [heq])
  · have held : (lockedSession id record).Loaded id record :=
      ⟨.ofRow record true, by simp [lockedSession], rfl⟩
    have hdb : (⟨_, hvalid⟩ : Db).toRows = _ := rfl
    obtain ⟨hconn, -⟩ := (lockedSession_clean hid).written held rfl hdb
    have hnext := hconn id
    rw [if_pos rfl, hrow, Option.map_some, merge_withDeletionRequested] at hnext
    have hfits := Db.connector_fits hnext
    simp only [ConnectorRecord.fits, withDeletionRequested, Bool.and_eq_true] at hfits
    exact .inr ⟨hfits.1.2, hfits.1.1.2⟩

/-- A DELETE writes nothing, unless it takes effect. -/
theorem deletion_operations {x : Store × Store}
    (hx : x ∈ operations i ⟨env, .requestConnectorDeletion caller id⟩ st) :
    x.1.db = st.db ∧
      (x.2.db = st.db ∨ DeletionTakesEffect ⟨env, .requestConnectorDeletion caller id⟩ st.db) := by
  simp only [operations, handler, requestConnectorDeletion, tenantConnector, await,
    Prog.perform_bind, Prog.op_bind, Prog.trail] at hx
  cases hrow : st.db.connector id with
  | none =>
    simp [perform, Session.connectorAttrs, Session.fresh, Session.loadConnector, hrow,
      Prog.trail] at hx
    rw [hx]
    exact ⟨rfl, .inl rfl⟩
  | some record =>
    have hid : record.id = id := (lookup_mem hrow).2
    simp [perform, Session.connectorAttrs, Session.fresh, Session.loadConnector, hrow] at hx
    by_cases ht : record.tenantId = caller.tenantId
    · by_cases hdel : record.status = .deleted
      · simp [Option.filter, ht, hdel, Prog.trail, perform, Session.loadConnector, hrow] at hx
        subst hx
        exact ⟨rfl, .inl rfl⟩
      · by_cases hreq : record.status = .deletionRequested
        · simp [Option.filter, ht, hreq, Prog.trail, perform, Session.loadConnector, hrow] at hx
          subst hx
          exact ⟨rfl, .inl rfl⟩
        · simp [Option.filter, ht, hdel, hreq, Prog.trail, perform, Session.loadConnector,
            hrow] at hx
          subst hid
          change x = (st, st) ∨ x ∈ Prog.trail (perform i) _
            ((lockedSession record.id record).writing record.id
              (withDeletionRequested env caller record) _) st at hx
          rw [trail_commit, List.mem_singleton] at hx
          rcases hx with rfl | rfl
          · exact ⟨rfl, .inl rfl⟩
          · refine ⟨rfl, ?_⟩
            rcases deletion_commit (i := i) hrow with hdb | ⟨hactor, hversion⟩
            · exact .inl hdb
            · exact .inr ⟨caller, _, record, rfl, hrow, ht, hdel, hreq, hactor, hversion⟩
    · simp [Option.filter, ht, Prog.trail] at hx
      rw [hx]
      exact ⟨rfl, .inl rfl⟩

end Deletion

/-- While no DELETE takes effect, only the commits of the other requests matter. -/
theorem spared_invariant {W : Db → Prop} {G : Db → Db → Prop} {i : Nat} {rq : Incoming} {st : Store}
    (hrefl : ∀ db, G db db)
    (hcommit : ∀ {s : Session} {db db' : Db}, Tx rq s →
      (∀ caller id, rq.request ≠ .requestConnectorDeletion caller id) →
      db'.toRows = s.contents db → s.InSync db → W db → W db' ∧ G db db')
    (hspared : ¬ DeletionTakesEffect rq st.db) (hW : W st.db) :
    ∀ x ∈ operations i rq st, W x.1.db ∧ W x.2.db ∧ G x.1.db x.2.db := by
  by_cases hdelete : ∃ caller id, rq.request = .requestConnectorDeletion caller id
  · obtain ⟨env, request⟩ := rq
    obtain ⟨caller, id, rfl⟩ := hdelete
    intro x hx
    obtain ⟨hbefore, hafter | htakes⟩ := deletion_operations hx
    · rw [hbefore, hafter]
      exact ⟨hW, hW, hrefl _⟩
    · exact absurd htakes hspared
  · have hother : ∀ caller id, rq.request ≠ .requestConnectorDeletion caller id :=
      fun caller id h => hdelete ⟨caller, id, h⟩
    exact operations_invariant hrefl (fun htx => hcommit htx hother) hW

/-! ## Conformance -/

/-- The commit from `db` to `db'` takes connector `c` along an edge that the table has for the
    event it emits, with the reason on record that the edge requires. -/
def TakesEdge (db db' : Db) (c : Uuid) (r r' : ConnectorRecord) : Prop :=
  ∃ tr e a, find r.status.value r'.status.value (some tr.event) = .ok tr ∧
    db'.connectorEvents c = db.connectorEvents c ++ [e] ∧ e.subject = tr.event.value ∧
    db'.auditOf c = db.auditOf c ++ [a] ∧
    (tr.requiresReason = true → isBlank (a.reason.getD "") = false)

/-- Every connector keeps its status and version, or takes an edge. -/
def Conforms (db db' : Db) : Prop :=
  ∀ c r r', db.connector c = some r → db'.connector c = some r' →
    r'.status = r.status ∧ r'.version = r.version ∨ TakesEdge db db' c r r'

/-- Deletion is only ever requested from `disabled` or `revoked`. -/
theorem deletionRequested_sources : ∀ t ∈ transitions,
    t.target = deletionRequested → t.source = disabled ∨ t.source = revoked := by
  decide

/-- No edge leads from another state to `deletion_requested`. -/
theorem Conforms.not_deletionRequested {db db' : Db} (h : Conforms db db') {c : Uuid}
    {r r' : ConnectorRecord} (hr : db.connector c = some r) (hr' : db'.connector c = some r')
    (hto : r'.status = .deletionRequested) :
    r.status = .disabled ∨ r.status = .revoked ∨ r.status = .deletionRequested := by
  rcases h c r r' hr hr' with ⟨hstatus, -⟩ | ⟨tr, e, a, hfind, -⟩
  · exact .inr (.inr (hstatus ▸ hto))
  · obtain ⟨hmem, hsource, htarget, -⟩ := find_value_spec hfind
    rcases deletionRequested_sources tr hmem (htarget.trans hto) with h | h
    · exact .inl (hsource ▸ h)
    · exact .inr (.inl (hsource ▸ h))

theorem Conforms.refl (db : Db) : Conforms db db := by
  intro c r r' hr hr'
  rw [hr, Option.some.injEq] at hr'
  subst hr'
  exact .inl ⟨rfl, rfl⟩

/-- One more audit row, of connector `id`. -/
theorem Db.auditOf_one {db db' : Db} {a : ConnectorAuditRecord} (h : db'.audit = db.audit ++ [a])
    (c : Uuid) : db'.auditOf c =
      if c = a.connectorId then db.auditOf c ++ [a] else db.auditOf c := by
  unfold Db.auditOf
  rw [h, List.filter_append]
  rcases eq_or_ne c a.connectorId with rfl | hne
  · simp
  · simp [hne, hne.symm]

section Commit

variable {rq : Incoming} {s : Session} {db db' : Db}

/-- A transition takes the edge it found. -/
theorem Conforms.transition {ask : Ask} {record : ConnectorRecord} {tr : Transition}
    (clean : s.Clean) (held : s.Holds ask.connectorId record)
    (edge : find record.status.value ask.target.value ask.event = .ok tr)
    (reason : reasonMissing tr ask.reason = false)
    (hin : (s.writing ask.connectorId (advance rq.env record tr ask.reason)
      (transitionRows rq.env ask record tr)).InSync db)
    (hdb : db'.toRows = (s.writing ask.connectorId (advance rq.env record tr ask.reason)
      (transitionRows rq.env ask record tr)).contents db) : Conforms db db' := by
  have hid : record.id = ask.connectorId := clean.holds_id held
  obtain ⟨hstored, hrows, -⟩ := hin.of_writing.written clean held.loaded rfl
    (advance_id ..) merge_advance hdb
  obtain ⟨-, ha, hout⟩ := clean.written held.loaded rfl hdb
  intro c r r' hr hr'
  rw [hrows] at hr'
  split at hr'
  · rename_i hc
    subst hc
    rw [hstored, Option.some.injEq] at hr
    cases hr'
    subst hr
    obtain ⟨hmem, hsource, htarget, -⟩ := find_value_spec edge
    have hfind := find_own_event tr hmem
    rw [hsource] at hfind
    have hevents := (Db.connectorEvents_one hout rfl (congrArg some hid)).trans (if_pos rfl)
    have haudit := (Db.auditOf_one ha ask.connectorId).trans (if_pos hid.symm)
    refine .inr ⟨tr, _, _, ?_, hevents, rfl, haudit, fun hreq => ?_⟩
    · rw [advance_status]
      exact hfind
    · have hmissing := reason
      rw [reasonMissing, hreq, Bool.true_and] at hmissing
      exact hmissing
  · rw [hr, Option.some.injEq] at hr'
    exact .inl ⟨by rw [hr'], by rw [hr']⟩

/-- Whatever a request other than DELETE commits conforms. -/
theorem Conforms.of_tx (htx : Tx rq s)
    (hother : ∀ caller id, rq.request ≠ .requestConnectorDeletion caller id)
    (hdb : db'.toRows = s.contents db) (hin : s.InSync db) : Conforms db db' := by
  cases htx.connector with
  | quiet hq =>
    intro c r r' hr hr'
    rw [hq.same hdb, hr, Option.some.injEq] at hr'
    exact .inl ⟨by rw [hr'], by rw [hr']⟩
  | create request valid =>
    obtain ⟨hnew, hrows, -⟩ := created hdb
    intro c r r' hr hr'
    rw [hrows, if_neg (by rintro rfl; rw [hnew] at hr; cases hr), hr, Option.some.injEq] at hr'
    exact .inl ⟨by rw [hr'], by rw [hr']⟩
  | transition clean held tenant asked edge reason =>
    exact .transition clean held edge reason hin hdb
  | @touch base caller id record report request clean held =>
    obtain ⟨hstored, hrows, -⟩ := hin.of_writing.written clean held.loaded rfl (by rfl)
      merge_withCapability hdb
    intro c r r' hr hr'
    rw [hrows] at hr'
    split at hr'
    · rename_i hc
      subst hc
      rw [hstored, Option.some.injEq] at hr
      cases hr'
      subst hr
      exact .inl ⟨rfl, rfl⟩
    · rw [hr, Option.some.injEq] at hr'
      exact .inl ⟨by rw [hr'], by rw [hr']⟩
  | delete request clean held locked pending => exact absurd request (hother _ _)

end Commit

/-- **Lifecycle conformance**: in every sequence of requests executed one at a time, on any
    database, in which no DELETE takes effect, each committed change of a connector's status or
    version follows an edge that `find` returns for the event it emits, with the reason on record
    that the edge requires; so none leads from a live state or from `archived` to
    `deletion_requested`. -/
theorem lifecycle_conformance (i : Nat) (reqs : List Incoming) (st : Store)
    (h : EachMeets (fun rq db => ¬ DeletionTakesEffect rq db) i reqs st) :
    ∀ x ∈ allOperations i reqs st, Conforms x.1.db x.2.db ∧
      ∀ c r r', x.1.db.connector c = some r → x.2.db.connector c = some r' →
        r.status ∈ [draft, installed, configured, validated, enabled, archived] →
        r'.status ≠ .deletionRequested := by
  intro x hx
  obtain ⟨-, -, hconforms⟩ := allOperations_invariant (W := fun _ => True) (G := Conforms)
    (fun hspared hW => spared_invariant Conforms.refl
      (fun htx hother hdb hin _ => ⟨trivial, .of_tx htx hother hdb hin⟩) hspared hW) h trivial x hx
  refine ⟨hconforms, fun c r r' hr hr' hfrom hto => ?_⟩
  rcases hconforms.not_deletionRequested hr hr' hto with hs | hs | hs
  · rw [hs] at hfrom
    simp at hfrom
  · rw [hs] at hfrom
    simp at hfrom
  · rw [hs] at hfrom
    simp at hfrom

/-- A connector is configured, validated and revoked. -/
def conformingRequests : List Incoming :=
  [sampleConfigured, ⟨sampleEnv 10, .validateConnector sampleCaller 0⟩,
    ⟨sampleEnv 20, .revokeConnector sampleCaller 0 (some sampleReason)⟩]

theorem conformingRequests_spared :
    EachMeets (fun rq db => ¬ DeletionTakesEffect rq db) 0 conformingRequests
      { db := Db.empty } := by
  refine ⟨?_, ?_, ?_, trivial⟩
  · exact not_deletionTakesEffect fun _ _ => by simp [sampleConfigured]
  · exact not_deletionTakesEffect fun _ _ => by simp
  · exact not_deletionTakesEffect fun _ _ => by simp

/-- The connector moves from one status to another in this step. -/
def movesFromTo (c : Uuid) (s t : ConnectorState) (x : Store × Store) : Bool :=
  (x.1.db.connector c).map (·.status) = some s && (x.2.db.connector c).map (·.status) = some t

set_option maxRecDepth 10000 in
theorem lifecycle_conformance_revoked :
    (allOperations 0 conformingRequests { db := Db.empty }).any (movesFromTo 0 validated revoked) =
        true ∧
      ∀ x ∈ allOperations 0 conformingRequests { db := Db.empty }, Conforms x.1.db x.2.db :=
  ⟨by decide +kernel, fun x hx =>
    (lifecycle_conformance 0 conformingRequests _ conformingRequests_spared x hx).1⟩

/-- A connector in service is deleted. -/
def deletedInService : List Incoming :=
  [sampleEnabled, ⟨sampleEnv 10, .requestConnectorDeletion sampleCaller 0⟩]

set_option maxRecDepth 10000 in
/-- DELETE takes an enabled connector to `deletion_requested`, for which the table has no edge. -/
theorem deletion_leaves_the_table :
    ¬ ∀ x ∈ allOperations 0 deletedInService { db := Db.empty }, Conforms x.1.db x.2.db := by
  intro h
  have hany : (allOperations 0 deletedInService { db := Db.empty }).any
      (movesFromTo 0 enabled deletionRequested) = true := by
    decide +kernel
  obtain ⟨x, hx, hmove⟩ := List.any_eq_true.mp hany
  simp only [movesFromTo, Bool.and_eq_true, decide_eq_true_eq, Option.map_eq_some_iff] at hmove
  obtain ⟨⟨r, hr, hfrom⟩, r', hr', hto⟩ := hmove
  rcases (h x hx).not_deletionRequested hr hr' hto with hs | hs | hs
  · rw [hfrom] at hs
    cases hs
  · rw [hfrom] at hs
    cases hs
  · rw [hfrom] at hs
    cases hs

end FavlGateway.Registry
