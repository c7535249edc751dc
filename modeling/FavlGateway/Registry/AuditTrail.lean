/-
  The audit trail of a connector is complete, as long as no DELETE takes effect.

  Four accounts of one connector are kept side by side: the version and the status of its row, its
  audit rows, and its events.  `AuditTrail` says that they agree: audit rows and events are numbered
  `1, …, version`, name the same events, and the audit rows link up from the creation to the status
  the row is in.  A transition extends all four at once; a DELETE extends the row and the events
  only, and no later request makes up for the audit row it leaves out.
-/
import FavlGateway.Registry.Conformance

namespace FavlGateway.Registry

open FavlGateway.Library

/-! ## Complete trails -/

/-- Each row starts in the state the row before it ended in. -/
def Linked : String → List ConnectorAuditRecord → Prop
  | _, [] => True
  | state, a :: rest => a.fromState = state ∧ Linked a.toState rest

/-- The state a trail that started from `state` ends in. -/
def endState (state : String) (trail : List ConnectorAuditRecord) : String :=
  (trail.getLast?.map (·.toState)).getD state

theorem linked_concat {state : String} {trail : List ConnectorAuditRecord}
    {a : ConnectorAuditRecord} (h : Linked state trail) (ha : a.fromState = endState state trail) :
    Linked state (trail ++ [a]) := by
  induction trail generalizing state with
  | nil => exact ⟨ha, trivial⟩
  | cons b rest ih =>
    refine ⟨h.1, ih h.2 ?_⟩
    rw [ha, endState, endState, List.getLast?_cons]
    cases rest.getLast? with
    | none => rfl
    | some a' => rfl

/-- The version and the event an audit row records. -/
def ConnectorAuditRecord.account (a : ConnectorAuditRecord) : Nat × String :=
  (a.aggregateVersion, a.event)

/-- The version and the event an outbox event carries. -/
def OutboxEvent.account (e : OutboxEvent) : Nat × String := (e.aggregateVersion, e.subject)

/-- The trail of a connector is complete: versions `1, …, version`, linked from the creation to the
    status of the row, and one event for each audit row. -/
structure AuditTrail (db : Db) (c : Uuid) (r : ConnectorRecord) : Prop where
  versions : (db.auditOf c).map (·.aggregateVersion) = List.range' 1 r.version
  linked : Linked "" (db.auditOf c)
  last : (db.auditOf c).getLast?.map (·.toState) = some r.status.value
  events : (db.connectorEvents c).map OutboxEvent.account =
    (db.auditOf c).map ConnectorAuditRecord.account

/-- Every connector's trail is complete, and nothing is on record of others. -/
structure Audited (db : Db) : Prop where
  row : ∀ {c r}, db.connector c = some r → AuditTrail db c r
  known : ∀ {c}, db.connector c = none → db.auditOf c = [] ∧ db.connectorEvents c = []

theorem empty_audited : Audited Db.empty where
  row h := by cases h
  known _ := ⟨rfl, rfl⟩

section Commit

variable {rq : Incoming} {s : Session} {db db' : Db} {c : Uuid} {r r' : ConnectorRecord}
  {a : ConnectorAuditRecord} {e : OutboxEvent}

/-- What leaves the records and the two columns alone leaves the trail complete. -/
theorem AuditTrail.same (h : AuditTrail db c r) (ha : db'.auditOf c = db.auditOf c)
    (he : db'.connectorEvents c = db.connectorEvents c) (hv : r'.version = r.version)
    (hs : r'.status = r.status) : AuditTrail db' c r' where
  versions := by rw [ha, hv]; exact h.versions
  linked := by rw [ha]; exact h.linked
  last := by rw [ha, hs]; exact h.last
  events := by rw [ha, he]; exact h.events

/-- The next version, on record in both. -/
theorem AuditTrail.next (h : AuditTrail db c r) (ha : db'.auditOf c = db.auditOf c ++ [a])
    (he : db'.connectorEvents c = db.connectorEvents c ++ [e]) (hv : r'.version = r.version + 1)
    (hav : a.aggregateVersion = r.version + 1) (hfrom : a.fromState = r.status.value)
    (hto : a.toState = r'.status.value) (hacc : e.account = a.account) : AuditTrail db' c r' where
  versions := by
    rw [ha, List.map_append, h.versions, hv, List.range'_1_concat, List.map_singleton, hav,
      Nat.add_comm 1]
  linked := by
    rw [ha]
    refine linked_concat h.linked ?_
    rw [endState, h.last]
    exact hfrom
  last := by
    rw [ha, List.getLast?_concat]
    exact congrArg some hto
  events := by
    rw [ha, he, List.map_append, List.map_append, h.events, List.map_singleton, List.map_singleton,
      hacc]

/-- A quiet commit stages no audit row. -/
theorem ConnectorQuiet.auditOf (h : ConnectorQuiet s) (hdb : db'.toRows = s.contents db)
    (c : Uuid) : db'.auditOf c = db.auditOf c := by
  have ha : db'.audit = db.audit := by rw [hdb, h.audit]
  rw [Db.auditOf, ha]
  rfl

/-- A creation starts the trail. -/
theorem Audited.create {env : Env} {caller : CallerIdentity} {payload : ConnectorCreate}
    (hW : Audited db) (hdb : db'.toRows = (creating env caller payload).contents db) :
    Audited db' := by
  obtain ⟨hnew, hrows, ha, hout⟩ := created hdb
  have haudit := fun c => Db.auditOf_one ha c
  have hevents : ∀ c, db'.connectorEvents c = if c = env.uuid4 0 then _ else _ :=
    fun c => Db.connectorEvents_one hout rfl rfl
  obtain ⟨hnone, hnoneEvents⟩ := hW.known hnew
  refine ⟨fun {c r} hr => ?_, fun {c} hc => ?_⟩
  · rw [hrows] at hr
    split at hr
    · rename_i hc
      subst hc
      cases hr
      have ha₁ := (haudit (env.uuid4 0)).trans (if_pos rfl)
      have he₁ := (hevents (env.uuid4 0)).trans (if_pos rfl)
      rw [hnone, List.nil_append] at ha₁
      rw [hnoneEvents, List.nil_append] at he₁
      exact ⟨by rw [ha₁]; rfl, by rw [ha₁]; exact ⟨rfl, trivial⟩, by rw [ha₁]; rfl,
        by rw [ha₁, he₁]; rfl⟩
    · rename_i hne
      exact (hW.row hr).same ((haudit c).trans (if_neg hne)) ((hevents c).trans (if_neg hne)) rfl
        rfl
  · rw [hrows] at hc
    split at hc
    · cases hc
    · rename_i hne
      obtain ⟨ha₀, he₀⟩ := hW.known hc
      exact ⟨((haudit c).trans (if_neg hne)).trans ha₀, ((hevents c).trans (if_neg hne)).trans he₀⟩

/-- A transition extends the trail of its connector. -/
theorem Audited.transition {ask : Ask} {record : ConnectorRecord} {tr : Transition}
    (hW : Audited db) (clean : s.Clean) (held : s.Holds ask.connectorId record)
    (hin : (s.writing ask.connectorId (advance rq.env record tr ask.reason)
      (transitionRows rq.env ask record tr)).InSync db)
    (hdb : db'.toRows = (s.writing ask.connectorId (advance rq.env record tr ask.reason)
      (transitionRows rq.env ask record tr)).contents db) : Audited db' := by
  have hid : record.id = ask.connectorId := clean.holds_id held
  obtain ⟨hstored, hrows, -⟩ := hin.of_writing.written clean held.loaded rfl
    (advance_id ..) merge_advance hdb
  obtain ⟨-, ha, hout⟩ := clean.written held.loaded rfl hdb
  have haudit := fun c => Db.auditOf_one ha c
  have hevents : ∀ c, db'.connectorEvents c = if c = ask.connectorId then _ else _ :=
    fun c => Db.connectorEvents_one hout rfl (congrArg some hid)
  have hother : ∀ c, c ≠ ask.connectorId → db'.auditOf c = db.auditOf c := by
    intro c hne
    exact (haudit c).trans (if_neg fun h => hne (h.trans hid))
  refine ⟨fun {c r} hr => ?_, fun {c} hc => ?_⟩
  · rw [hrows] at hr
    split at hr
    · rename_i hc
      subst hc
      cases hr
      refine (hW.row hstored).next ((haudit _).trans (if_pos hid.symm))
        ((hevents _).trans (if_pos rfl)) (advance_version ..) rfl rfl ?_ rfl
      rw [advance_status]
      rfl
    · rename_i hne
      exact (hW.row hr).same (hother c hne) ((hevents c).trans (if_neg hne)) rfl rfl
  · rw [hrows] at hc
    split at hc
    · cases hc
    · rename_i hne
      obtain ⟨ha₀, he₀⟩ := hW.known hc
      exact ⟨(hother c hne).trans ha₀, ((hevents c).trans (if_neg hne)).trans he₀⟩

/-- A touch leaves every trail as it is. -/
theorem Audited.touch {id : Uuid} {record : ConnectorRecord} {report : ValidationResult}
    (hW : Audited db) (clean : s.Clean) (held : s.Holds id record)
    (hin : (s.writing id (withCapability record report) {}).InSync db)
    (hdb : db'.toRows = (s.writing id (withCapability record report) {}).contents db) :
    Audited db' := by
  obtain ⟨hstored, hrows, -⟩ := hin.of_writing.written clean held.loaded rfl (by rfl)
    merge_withCapability hdb
  obtain ⟨-, ha, hout⟩ := clean.written held.loaded rfl hdb
  have haudit : ∀ c, db'.auditOf c = db.auditOf c := by
    intro c
    rw [Db.auditOf, ha, List.append_nil]
    rfl
  have hevents : ∀ c, db'.connectorEvents c = db.connectorEvents c := by
    intro c
    rw [Db.connectorEvents_appended hout]
    exact List.append_nil _
  refine ⟨fun {c r} hr => ?_, fun {c} hc => ?_⟩
  · rw [hrows] at hr
    split at hr
    · rename_i hc
      subst hc
      cases hr
      exact (hW.row hstored).same (haudit _) (hevents _) rfl rfl
    · exact (hW.row hr).same (haudit c) (hevents c) rfl rfl
  · rw [hrows] at hc
    split at hc
    · cases hc
    · rw [haudit, hevents]
      exact hW.known hc

/-- Whatever a request other than DELETE commits keeps the trails complete. -/
theorem Audited.of_tx (hW : Audited db) (htx : Tx rq s)
    (hother : ∀ caller id, rq.request ≠ .requestConnectorDeletion caller id)
    (hdb : db'.toRows = s.contents db) (hin : s.InSync db) : Audited db' := by
  cases htx.connector with
  | quiet hq =>
    refine ⟨fun {c r} hr => ?_, fun {c} hc => ?_⟩
    · rw [hq.same hdb] at hr
      exact (hW.row hr).same (hq.auditOf hdb c) (hq.events hdb c) rfl rfl
    · rw [hq.same hdb] at hc
      rw [hq.auditOf hdb, hq.events hdb]
      exact hW.known hc
  | create request valid => exact hW.create hdb
  | transition clean held tenant asked edge reason => exact hW.transition clean held hin hdb
  | touch report request clean held => exact hW.touch clean held hin hdb
  | delete request clean held locked pending => exact absurd request (hother _ _)

end Commit

/-- **The audit trail is complete**: in every sequence of requests executed one at a time in which
    no DELETE takes effect, in every state passed through, the audit rows of each connector carry
    the versions `1, …, version`, link up from its creation to its status, and correspond to its
    events one by one. -/
theorem audit_trail_complete (reqs : List Incoming)
    (h : EachMeets (fun rq db => ¬ DeletionTakesEffect rq db) 0 reqs { db := Db.empty }) :
    (∀ x ∈ allOperations 0 reqs { db := Db.empty }, ∀ c r,
      (x.1.db.connector c = some r → AuditTrail x.1.db c r) ∧
        (x.2.db.connector c = some r → AuditTrail x.2.db c r)) ∧
    ∀ c r, (serveAll 0 reqs { db := Db.empty }).db.connector c = some r →
      AuditTrail (serveAll 0 reqs { db := Db.empty }).db c r := by
  have hserve : ∀ {i rq} {st : Store}, ¬ DeletionTakesEffect rq st.db → Audited st.db →
      ∀ x ∈ operations i rq st, Audited x.1.db ∧ Audited x.2.db ∧ True :=
    fun hspared hW => spared_invariant (fun _ => trivial)
      (fun htx hother hdb hin hW => ⟨hW.of_tx htx hother hdb hin, trivial⟩) hspared hW
  refine ⟨fun x hx c r => ?_, fun c r hr => ?_⟩
  · obtain ⟨hbefore, hafter, -⟩ := allOperations_invariant (G := fun _ _ => True) hserve h
      empty_audited x hx
    exact ⟨hbefore.row, hafter.row⟩
  · refine Audited.row (serveAll_invariant (fun hspared hW => ?_) h empty_audited) hr
    exact served_of_operations (P := fun st => Audited st.db) hW
      fun y hy _ => (hserve hspared hW y hy).2.1

set_option maxRecDepth 10000 in
theorem audit_trail_complete_revoked :
    ∃ r, (serveAll 0 conformingRequests { db := Db.empty }).db.connector 0 = some r ∧
      r.version = 3 ∧ AuditTrail (serveAll 0 conformingRequests { db := Db.empty }).db 0 r := by
  have hversion : ((serveAll 0 conformingRequests { db := Db.empty }).db.connector 0).map
      (·.version) = some 3 := by
    decide +kernel
  obtain ⟨r, hr, hv⟩ := Option.map_eq_some_iff.mp hversion
  exact ⟨r, hr, hv, (audit_trail_complete conformingRequests conformingRequests_spared).2 0 r hr⟩

set_option maxRecDepth 10000 in
/-- After the DELETE the connector is at version 2 with one audit row. -/
theorem deletion_missing_from_trail :
    ¬ ∀ c r, (serveAll 0 deletedInService { db := Db.empty }).db.connector c = some r →
      AuditTrail (serveAll 0 deletedInService { db := Db.empty }).db c r := by
  intro h
  have hversion : ((serveAll 0 deletedInService { db := Db.empty }).db.connector 0).map
      (·.version) = some 2 := by
    decide +kernel
  have haudit : ((serveAll 0 deletedInService { db := Db.empty }).db.auditOf 0).length = 1 := by
    decide +kernel
  obtain ⟨r, hr, hv⟩ := Option.map_eq_some_iff.mp hversion
  have hlength := congrArg List.length (h 0 r hr).versions
  rw [List.length_map, haudit, List.length_range', hv] at hlength
  cases hlength

end FavlGateway.Registry
