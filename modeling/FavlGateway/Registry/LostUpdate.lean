/-
  Which interleavings lose an update of a connector, and that no others do.

  Every committed write that moves `connectors.version` carries an event with the new version.  A
  transition carries an audit row as well, and the UNIQUE audit version refuses a second transition
  computed from the same row.  DELETE carries none: it relies on its row lock, which keeps IT from
  overwriting anything (`Locks`), but leaves nothing behind to stop a validation or a rotation that
  read the row before.  Such a session writes the version of the DELETE a second time and takes the
  connector out of `deletion_requested` again.

  `SparesDeletions` says of a commit that it is not of this kind.  In runs where every commit is of
  that sort, versions up to the row's own are all taken (`Numbered`), so that a transition which
  commits can only have been computed from the stored row (`Recent`).
-/
import FavlGateway.Registry.Locks

namespace FavlGateway.Registry

open FavlGateway.Library

/-! ## Versions in use -/

/-- The version of a DELETE: an event, and no audit row to reserve it. -/
def Db.DeletedAt (db : Db) (c : Uuid) (n : Nat) : Prop :=
  ∃ e ∈ db.connectorEvents c, e.subject = ConnectorEvent.deletionRequested.value ∧
    e.aggregateVersion = n

/-- The session is not about to write a version that a DELETE, committed after the session read the
    connector, has written already. -/
def Session.SparesDeletions (s : Session) (db : Db) : Prop :=
  ∀ c inst, s.connectors c = some inst → inst.current.version ≠ inst.loaded.version →
    ¬ db.DeletedAt c (inst.loaded.version + 1)

/-- The versions of a connector's events are those up to its own, in order, and each of them is
    audited or a DELETE's. -/
structure Numbered (db : Db) : Prop where
  events : ∀ {c r}, db.connector c = some r →
    (db.connectorEvents c).map (·.aggregateVersion) = List.range' 1 r.version
  used : ∀ {c r}, db.connector c = some r → ∀ n, 1 ≤ n → n ≤ r.version →
    db.HasVersion c n ∨ db.DeletedAt c n
  known : ∀ {c}, db.connector c = none → db.connectorEvents c = []

/-- What a session loaded, against what is stored: not from the future, and the stored row itself,
    but for a capability, if the version is the same. -/
structure Recent (r stored : ConnectorRecord) : Prop where
  version_le : r.version ≤ stored.version
  same : r.version = stored.version → ∃ report, stored = withCapability r report

/-- What a session loaded of connector `c` is recent. -/
def LoadedRecent (db : Db) (c : Uuid) (r : ConnectorRecord) : Prop :=
  ∃ stored, db.connector c = some stored ∧ Recent r stored

/-! ## Capabilities aside -/

section Capability

variable {env : Env} {r stored : ConnectorRecord} {tr : Transition} {reason : Option String}
  {report : ValidationResult} {caller : CallerIdentity}

theorem withCapability_self :
    withCapability r ⟨true, [], r.supportsIdempotency, r.idempotencyMode⟩ = r := rfl

/-- A transition does not look at the capability. -/
theorem advance_withCapability :
    advance env (withCapability r report) tr reason =
      withCapability (advance env r tr reason) report := by
  cases ht : tr.target <;> by_cases he : tr.event = .credentialsRotated <;>
    simp [advance, stamp, withCapability, ht, he]

theorem asked_withCapability {request : Request} :
    request.asked env (withCapability r report) = request.asked env r := by
  cases request <;> rfl

/-- The UPDATE of a transition, where only the capability has changed since the row was read. -/
theorem merge_advance_withCapability :
    ConnectorRecord.merge r (advance env r tr reason) (withCapability r report) =
      advance env (withCapability r report) tr reason := by
  cases ht : tr.target <;> by_cases he : tr.event = .credentialsRotated <;>
    simp [ConnectorRecord.merge, advance, stamp, withCapability, ht, he, mergeColumn_loaded]

/-- The UPDATE after a validation only ever changes the capability. -/
theorem merge_touch : ∃ report', ConnectorRecord.merge r (withCapability r report) stored =
    withCapability stored report' := by
  refine ⟨⟨true, [], mergeColumn r.supportsIdempotency report.supportsIdempotency
    stored.supportsIdempotency, mergeColumn r.idempotencyMode report.idempotencyMode
    stored.idempotencyMode⟩, ?_⟩
  simp [ConnectorRecord.merge, withCapability]

theorem Recent.refl : Recent r r := ⟨Nat.le_refl _, fun _ => ⟨_, withCapability_self.symm⟩⟩

theorem Recent.touched (h : Recent r stored) : Recent r (withCapability stored report) where
  version_le := h.version_le
  same hv := by
    obtain ⟨report', rfl⟩ := h.same hv
    exact ⟨report, rfl⟩

end Capability

/-! ## One commit -/

/-- A written row, computed from `r`. -/
inductive WrittenFrom (rq : Incoming) (r : ConnectorRecord) : ConnectorRecord → Prop where
  | transition {ask : Ask} {tr : Transition} (asked : rq.request.asked rq.env r = some ask)
      (edge : find r.status.value ask.target.value ask.event = .ok tr) :
      WrittenFrom rq r (advance rq.env r tr ask.reason)
  | deletion {caller : CallerIdentity} {id : Uuid}
      (request : rq.request = .requestConnectorDeletion caller id) :
      WrittenFrom rq r (withDeletionRequested rq.env caller r)

/-- What a commit makes of connector `c`, stored as `r`: it numbers nothing, or it writes the next
    version, computed from `r`, with the event of that version. -/
inductive NextVersion (rq : Incoming) (db db' : Db) (c : Uuid) (r : ConnectorRecord) : Prop where
  | kept {r' : ConnectorRecord} (row : db'.connector c = some r') (version : r'.version = r.version)
      (events : db'.connectorEvents c = db.connectorEvents c)
  | written {r' : ConnectorRecord} {e : OutboxEvent} (row : db'.connector c = some r')
      (source : WrittenFrom rq r r') (version : r'.version = r.version + 1)
      (events : db'.connectorEvents c = db.connectorEvents c ++ [e])
      (number : e.aggregateVersion = r'.version)

/-- What a commit from session `s` has to keep, and what it may do. -/
structure KeepsNumbers (rq : Incoming) (s : Session) (db db' : Db) : Prop where
  tables : Numbered db'
  own : ∀ c r, s.committed.Loaded c r → LoadedRecent db' c r
  others : ∀ c r, LoadedRecent db c r → LoadedRecent db' c r
  step : ∀ c r, db.connector c = some r → NextVersion rq db db' c r

section Commit

variable {rq : Incoming} {s : Session} {db db' : Db}

/-- Versions in use stay in use. -/
theorem Numbered.used_appended {c : Uuid} {n : Nat} {as : List ConnectorAuditRecord}
    {es : List OutboxEvent} (ha : db'.audit = db.audit ++ as) (ho : db'.outbox = db.outbox ++ es)
    (h : db.HasVersion c n ∨ db.DeletedAt c n) : db'.HasVersion c n ∨ db'.DeletedAt c n := by
  rcases h with h | ⟨e, he, h⟩
  · exact .inl (h.appended ha)
  · exact .inr ⟨e, by rw [Db.connectorEvents_appended ho]; exact List.mem_append_left _ he, h⟩

/-- A commit that numbers nothing. -/
theorem KeepsNumbers.unnumbered (hW : Numbered db) (ha : db'.audit = db.audit)
    (hevents : ∀ c, db'.connectorEvents c = db.connectorEvents c)
    (hrow : ∀ c, db'.connector c = db.connector c ∨
      ∃ stored report, db.connector c = some stored ∧
        db'.connector c = some (withCapability stored report))
    (hown : ∀ c r, s.committed.Loaded c r → LoadedRecent db c r) : KeepsNumbers rq s db db' := by
  have back : ∀ {c r}, db'.connector c = some r → ∃ stored, db.connector c = some stored ∧
      r.version = stored.version := by
    intro c r hr
    rcases hrow c with h | ⟨stored, report, h, h'⟩
    · exact ⟨r, by rw [← h, hr], rfl⟩
    · rw [h', Option.some.injEq] at hr
      exact ⟨stored, h, by rw [← hr]; rfl⟩
  have others : ∀ c r, LoadedRecent db c r → LoadedRecent db' c r := by
    rintro c r ⟨stored, hs, hr⟩
    rcases hrow c with h | ⟨stored', report, h, h'⟩
    · exact ⟨stored, by rw [h, hs], hr⟩
    · rw [hs, Option.some.injEq] at h
      subst h
      exact ⟨_, h', hr.touched⟩
  refine ⟨⟨fun {c r} hr => ?_, fun {c r} hr n h₁ h₂ => ?_, fun {c} hc => ?_⟩,
    fun c r h => others c r (hown c r h), others, fun c r hr => ?_⟩
  · obtain ⟨stored, hs, hv⟩ := back hr
    rw [hevents, hv]
    exact hW.events hs
  · obtain ⟨stored, hs, hv⟩ := back hr
    simp only [Db.HasVersion, Db.DeletedAt, ha, hevents]
    exact hW.used hs n h₁ (hv ▸ h₂)
  · rw [hevents]
    rcases hrow c with h | ⟨stored, report, -, h'⟩
    · exact hW.known (h ▸ hc)
    · rw [h'] at hc
      cases hc
  · rcases hrow c with h | ⟨stored, report, h, h'⟩
    · exact .kept (h.trans hr) rfl (hevents c)
    · rw [hr, Option.some.injEq] at h
      subst h
      exact .kept h' rfl (hevents c)

/-- A commit that writes the next version of one connector, computed from the stored row. -/
theorem KeepsNumbers.numbered {base : Session} {id : Uuid} {stored current new : ConnectorRecord}
    {rows : Rows} {e : OutboxEvent} (hW : Numbered db) (clean : base.Clean)
    (hK : ∀ c r, base.Loaded c r → LoadedRecent db c r) (hstored : db.connector id = some stored)
    (hconnectors : rows.connectors = [])
    (hconn : ∀ c, db'.connector c = if c = id then some new else db.connector c)
    (ha : db'.audit = db.audit ++ rows.audit) (ho : db'.outbox = db.outbox ++ [e])
    (htype : e.aggregateType = "connector") (hid : e.aggregateId = some id)
    (hnumber : e.aggregateVersion = stored.version + 1)
    (hversion : new.version = stored.version + 1) (hcurrent : Recent current new)
    (hused : db'.HasVersion id (stored.version + 1) ∨ db'.DeletedAt id (stored.version + 1))
    (hfrom : WrittenFrom rq stored new) :
    KeepsNumbers rq (base.writing id current rows) db db' := by
  have hevents := fun c => Db.connectorEvents_one (c := c) ho htype hid
  have others : ∀ c r, LoadedRecent db c r → LoadedRecent db' c r := by
    rintro c r ⟨stored', hs, hr⟩
    rcases eq_or_ne c id with rfl | hne
    · rw [hstored, Option.some.injEq] at hs
      subst hs
      refine ⟨new, by rw [hconn, if_pos rfl], ?_, fun hv => ?_⟩
      · have := hr.version_le
        omega
      · have := hr.version_le
        omega
    · exact ⟨stored', by rw [hconn, if_neg hne, hs], hr⟩
  refine ⟨⟨fun {c r} hr => ?_, fun {c r} hr n h₁ h₂ => ?_, fun {c} hc => ?_⟩,
    fun c r h => ?_, others, fun c r hr => ?_⟩
  · rw [hconn] at hr
    rw [hevents]
    split at hr
    · subst_vars
      cases hr
      rw [if_pos rfl, List.map_append, hW.events hstored, hversion, List.range'_1_concat,
        List.map_singleton, hnumber, Nat.add_comm 1]
    · rename_i hne
      rw [if_neg hne]
      exact hW.events hr
  · rw [hconn] at hr
    split at hr
    · subst_vars
      cases hr
      rcases Nat.lt_or_ge stored.version n with hlt | hge
      · obtain rfl : n = stored.version + 1 := by omega
        exact hused
      · exact Numbered.used_appended ha ho (hW.used hstored n h₁ hge)
    · exact Numbered.used_appended ha ho (hW.used hr n h₁ h₂)
  · rw [hconn] at hc
    split at hc
    · cases hc
    · rename_i hne
      rw [hevents, if_neg hne]
      exact hW.known hc
  · rcases clean.loaded_of_committed_writing hconnectors h with ⟨rfl, rfl⟩ | ⟨-, hl⟩
    · exact ⟨new, by rw [hconn, if_pos rfl], hcurrent⟩
    · exact others c r (hK c r hl)
  · rcases eq_or_ne c id with rfl | hne
    · rw [hstored, Option.some.injEq] at hr
      subst hr
      exact .written (by rw [hconn, if_pos rfl]) hfrom hversion (by rw [hevents, if_pos rfl])
        (by rw [hnumber, hversion])
    · exact .kept (by rw [hconn, if_neg hne, hr]) rfl (by rw [hevents, if_neg hne])

/-- A transition that commits was computed from the stored row, or overwrites a DELETE. -/
theorem Recent.of_committed {record stored : ConnectorRecord} {a : ConnectorAuditRecord}
    (h : Recent record stored) (hW : Numbered db) (hstored : db.connector record.id = some stored)
    (ha : db'.audit = db.audit ++ [a]) (hid : a.connectorId = record.id)
    (hv : a.aggregateVersion = record.version + 1)
    (hspares : ¬ db.DeletedAt record.id (record.version + 1)) :
    ∃ report, stored = withCapability record report := by
  refine h.same (Nat.le_antisymm h.version_le (Nat.le_of_not_lt fun hlt => ?_))
  rcases hW.used hstored (record.version + 1) (by omega) hlt with htaken | hdel
  · exact Db.version_free ha (hid ▸ hv ▸ htaken)
  · exact hspares hdel

/-- The commit of a creation: the first version, with its event and its audit row. -/
theorem KeepsNumbers.created {caller : CallerIdentity} {payload : ConnectorCreate}
    (hdb : db'.toRows = (creating rq.env caller payload).contents db) (hW : Numbered db) :
    KeepsNumbers rq (creating rq.env caller payload) db db' := by
  obtain ⟨hnew, hconn, ha, ho⟩ := Registry.created hdb
  have hevents : ∀ c, db'.connectorEvents c = if c = rq.env.uuid4 0 then
      db.connectorEvents c ++ [creationEvent rq.env (newConnector rq.env caller payload)]
      else db.connectorEvents c := fun c => Db.connectorEvents_one ho rfl rfl
  have hrow := (hconn (rq.env.uuid4 0)).trans (if_pos rfl)
  have others : ∀ c r, LoadedRecent db c r → LoadedRecent db' c r := by
    rintro c r ⟨stored, hs, hr⟩
    have hne : c ≠ rq.env.uuid4 0 := by
      rintro rfl
      rw [hnew] at hs
      cases hs
    exact ⟨stored, by rw [hconn, if_neg hne, hs], hr⟩
  refine ⟨⟨fun {c r} hr => ?_, fun {c r} hr n h₁ h₂ => ?_, fun {c} hc => ?_⟩,
    fun c r h => ?_, others, fun c r hr => ?_⟩
  · rw [hconn] at hr
    rw [hevents]
    split at hr
    · subst_vars
      cases hr
      rw [if_pos rfl, hW.known hnew]
      rfl
    · rename_i hne
      rw [if_neg hne]
      exact hW.events hr
  · rw [hconn] at hr
    split at hr
    · subst_vars
      cases hr
      obtain rfl : n = 1 := Nat.le_antisymm h₂ h₁
      exact .inl ⟨_, by rw [ha]; exact List.mem_append_right _ (List.mem_singleton.mpr rfl),
        rfl, rfl⟩
    · exact Numbered.used_appended ha ho (hW.used hr n h₁ h₂)
  · rw [hconn] at hc
    split at hc
    · cases hc
    · rename_i hne
      rw [hevents, if_neg hne]
      exact hW.known hc
  · obtain ⟨rfl, rfl⟩ := Session.loaded_of_committed_creating h
    exact ⟨_, hrow, .refl⟩
  · have hne : c ≠ rq.env.uuid4 0 := by
      rintro rfl
      rw [hnew] at hr
      cases hr
    exact .kept (by rw [hconn, if_neg hne, hr]) rfl (by rw [hevents, if_neg hne])

/-- The commit of a transition writes the next version of the stored row: its audit row would
    otherwise repeat a number in use. -/
theorem KeepsNumbers.transition {base : Session} {ask : Ask} {record : ConnectorRecord}
    {tr : Transition} (clean : base.Clean) (held : base.Holds ask.connectorId record)
    (asked : rq.request.asked rq.env record = some ask)
    (edge : find record.status.value ask.target.value ask.event = .ok tr)
    (hdb : db'.toRows = (base.writing ask.connectorId (advance rq.env record tr ask.reason)
      (transitionRows rq.env ask record tr)).contents db) (hW : Numbered db)
    (hK : ∀ c r, base.Loaded c r → LoadedRecent db c r)
    (hspares : db' ≠ db → (base.writing ask.connectorId (advance rq.env record tr ask.reason)
      (transitionRows rq.env ask record tr)).SparesDeletions db) :
    KeepsNumbers rq (base.writing ask.connectorId (advance rq.env record tr ask.reason)
      (transitionRows rq.env ask record tr)) db db' := by
  obtain ⟨hconn, ha, ho⟩ := clean.written held.loaded rfl hdb
  have hid : record.id = ask.connectorId := clean.holds_id held
  obtain ⟨stored, hstored, hrecent⟩ := hK _ _ held.loaded
  have hdel : ¬ db.DeletedAt record.id (record.version + 1) := by
    obtain ⟨inst, hinst, -, rfl⟩ := held
    refine hid ▸ hspares (Db.ne_of_outbox ho) ask.connectorId
      { inst with current := advance rq.env inst.loaded tr ask.reason } ?_ ?_
    · simp [Session.writing, hinst]
    · simp
  obtain ⟨report, rfl⟩ := hrecent.of_committed hW (hid ▸ hstored) ha rfl rfl hdel
  rw [hstored] at hconn
  simp only [Option.map_some, merge_advance_withCapability] at hconn
  refine .numbered hW clean hK hstored rfl hconn ha ho rfl (congrArg some hid) rfl
    (advance_version ..) ⟨?_, fun _ => ⟨report, advance_withCapability⟩⟩ (.inl ?_)
    (.transition (asked_withCapability.trans asked) edge)
  · simp [withCapability]
  · exact ⟨_, by rw [ha]; exact List.mem_append_right _ (List.mem_singleton.mpr rfl), hid, rfl⟩

/-- The commit of a validation that only records the capability numbers nothing. -/
theorem KeepsNumbers.touched {base : Session} {id : Uuid} {record : ConnectorRecord}
    {report : ValidationResult} (clean : base.Clean) (held : base.Holds id record)
    (hdb : db'.toRows = (base.writing id (withCapability record report) {}).contents db)
    (hW : Numbered db) (hK : ∀ c r, base.Loaded c r → LoadedRecent db c r) :
    KeepsNumbers rq (base.writing id (withCapability record report) {}) db db' := by
  obtain ⟨hconn, ha, ho⟩ := clean.written held.loaded rfl hdb
  obtain ⟨stored, hstored, hrecent⟩ := hK _ _ held.loaded
  have htouch : ∃ report', ConnectorRecord.merge record (withCapability record report) stored =
      withCapability stored report' := merge_touch
  obtain ⟨report', hmerge⟩ := htouch
  rw [hstored, Option.map_some, hmerge] at hconn
  refine .unnumbered hW (by simpa using ha) (fun c => ?_) (fun c => ?_) fun c r h => ?_
  · simpa using Db.connectorEvents_appended (c := c) ho
  · rcases eq_or_ne c id with rfl | hne
    · exact .inr ⟨stored, report', hstored, by rw [hconn, if_pos rfl]⟩
    · exact .inl (by rw [hconn, if_neg hne])
  · rcases clean.loaded_of_committed_writing rfl h with ⟨rfl, rfl⟩ | ⟨-, hl⟩
    · refine ⟨stored, hstored, hrecent.version_le, fun hv => ?_⟩
      obtain ⟨report'', rfl⟩ := hrecent.same hv
      exact ⟨report'', rfl⟩
    · exact hK c r hl

/-- The commit of a DELETE writes the next version of the stored row: under its lock nobody else has
    written the row since. -/
theorem KeepsNumbers.deletion {base : Session} {caller : CallerIdentity} {id : Uuid}
    {inst : Instance ConnectorRecord} (request : rq.request = .requestConnectorDeletion caller id)
    (clean : base.Clean) (held : base.connectors id = some inst) (locked : inst.locked = true)
    (hdb : db'.toRows = (base.writing id (withDeletionRequested rq.env caller inst.loaded)
      { outbox := [deletionEvent rq.env caller id
          (withDeletionRequested rq.env caller inst.loaded)] }).contents db) (hW : Numbered db)
    (hK : ∀ c r, base.Loaded c r → LoadedRecent db c r)
    (hcurrent : db' ≠ db → (base.writing id (withDeletionRequested rq.env caller inst.loaded)
      { outbox := [deletionEvent rq.env caller id
          (withDeletionRequested rq.env caller inst.loaded)] }).LocksCurrent db) :
    KeepsNumbers rq (base.writing id (withDeletionRequested rq.env caller inst.loaded)
      { outbox := [deletionEvent rq.env caller id
          (withDeletionRequested rq.env caller inst.loaded)] }) db db' := by
  obtain ⟨hconn, ha, ho⟩ := clean.written ⟨inst, held, rfl⟩ rfl hdb
  have hstored : db.connector id = some inst.loaded :=
    hcurrent (Db.ne_of_outbox ho) id
      { inst with current := withDeletionRequested rq.env caller inst.loaded }
      (by simp [Session.writing, held]) locked
  rw [hstored] at hconn
  simp only [Option.map_some, merge_withDeletionRequested] at hconn
  refine .numbered hW clean hK hstored rfl hconn ha ho rfl rfl rfl rfl .refl (.inr ?_)
    (.deletion request)
  refine ⟨deletionEvent rq.env caller id (withDeletionRequested rq.env caller inst.loaded), ?_,
    rfl, rfl⟩
  rw [Db.connectorEvents_one ho rfl rfl, if_pos rfl]
  simp

theorem KeepsNumbers.of_tx (htx : Tx rq s) (hdb : db'.toRows = s.contents db) (hW : Numbered db)
    (hK : ∀ c r, s.Loaded c r → LoadedRecent db c r)
    (hcond : db' ≠ db → s.LocksCurrent db ∧ s.SparesDeletions db) :
    KeepsNumbers rq s db db' := by
  have hheld : ∀ {base : Session} {id : Uuid} {current : ConnectorRecord} {rows : Rows},
      s = base.writing id current rows → ∀ c r, base.Loaded c r → LoadedRecent db c r :=
    fun hs c r h => hK c r (hs ▸ Session.loaded_writing.mpr h)
  cases htx.connector with
  | quiet hq =>
    exact .unnumbered hW (by rw [hdb, hq.audit]) (hq.events hdb) (fun c => .inl (hq.same hdb c))
      fun c r h => hK c r (hq.loaded h)
  | create request valid => exact .created hdb hW
  | transition clean held tenant asked edge reason =>
    exact .transition clean held asked edge hdb hW (hheld rfl) fun hne => (hcond hne).2
  | touch report request clean held => exact .touched clean held hdb hW (hheld rfl)
  | delete request clean held locked pending =>
    exact .deletion request clean held locked hdb hW (hheld rfl) fun hne => (hcond hne).1

end Commit

/-! ## The theorem -/

/-- What is asked of a run: no commit overwrites a deletion its session has not seen. -/
def SparingDeletions (i : Nat) (ss : Nat → Session) (db _ : Db) : Prop :=
  (ss i).SparesDeletions db

/-- The same, with what the row locks guarantee. -/
def SparingUnderLocks (i : Nat) (ss : Nat → Session) (db db' : Db) : Prop :=
  (ss i).LocksCurrent db ∧ SparingDeletions i ss db db'

theorem numbered_invariant (reqs : Nat → Incoming) :
    RegistryInvariant reqs SparingUnderLocks Numbered fun _ s db => ∀ c r, s.Loaded c r →
      LoadedRecent db c r :=
  .of_loaded (fun _ h => ⟨_, h, .refl⟩) fun {i ss db db'} htx hdb hcond hW hK => by
    have h := KeepsNumbers.of_tx htx hdb hW (hK i) hcond
    exact ⟨h.tables, h.own, h.others⟩

theorem empty_numbered : Numbered Db.empty where
  events h := by cases h
  used h := by cases h
  known _ := rfl

/-- Every state such a run reaches is numbered, and what its sessions hold is recent. -/
theorem reaches_numbered {reqs : Nat → Incoming}
    {sys : System RegistryOp Session World Exc Response}
    (h : registryMachine.Reaches (CommitsMeet SparingDeletions) (registry Db.empty reqs) sys) :
    Numbered sys.world.db ∧
      ∀ j c r, (sys.sessions j).Loaded c r → LoadedRecent sys.world.db c r :=
  (numbered_invariant reqs).reaches empty_numbered
    (commitsMeet_assuming (fun _ h i => reaches_locksCurrent h i) h)

/-- **No lost update**, where no deletion is overwritten: in every state such a run reaches, the
    versions of a connector's events are exactly those up to its row's, in order, and every step
    leaves a connector's version and events alone or writes the next version, computed from the
    stored row, with its event. -/
theorem no_lost_update (reqs : Nat → Incoming)
    {sys : System RegistryOp Session World Exc Response}
    (h : registryMachine.Reaches (CommitsMeet SparingDeletions) (registry Db.empty reqs) sys) :
    (∀ c r, sys.world.db.connector c = some r →
      (sys.world.db.connectorEvents c).map (·.aggregateVersion) = List.range' 1 r.version) ∧
    ∀ i sys', registryMachine.Step sys i sys' → CommitsMeet SparingDeletions sys i sys' →
      ∀ c r, sys.world.db.connector c = some r →
        NextVersion (reqs i) sys.world.db sys'.world.db c r := by
  obtain ⟨hW, hK⟩ := reaches_numbered h
  refine ⟨fun c r hr => hW.events hr, fun i sys' hs hc c r hr => ?_⟩
  rcases registry_step h hs with ⟨hdb, -⟩ | ⟨htx, hdb, -⟩
  · rw [hdb]
    exact .kept hr rfl rfl
  · exact (KeepsNumbers.of_tx htx hdb hW (hK i) fun hne =>
      ⟨reaches_locksCurrent h i, hc hne⟩).step c r hr

/-! ## The overwritten deletion -/

/-- A validation reads the connector, then a DELETE commits, then the validation goes on. -/
def deletionRace : Nat → Incoming
  | 0 => sampleConfigured
  | 1 => ⟨sampleEnv 10, .validateConnector sampleCaller 0⟩
  | _ => ⟨sampleEnv 20, .requestConnectorDeletion sampleCaller 0⟩

/-- Where no event is a DELETE's, there is no deletion to overwrite. -/
def noDeletions (w : World) : Bool :=
  w.db.outbox.all fun e => e.subject ≠ ConnectorEvent.deletionRequested.value

theorem spares_of_noDeletions (sys : System RegistryOp Session World Exc Response) (i : Nat)
    (sys' : System RegistryOp Session World Exc Response) (h : noDeletions sys.world = true) :
    CommitsMeet SparingDeletions sys i sys' := by
  rintro - c inst - - ⟨e, he, hsubject, -⟩
  have := List.all_eq_true.mp h e (List.mem_filter.mp he).1
  simp [hsubject] at this

set_option maxRecDepth 10000 in
/-- Without the DELETE, the validation numbers its event 2. -/
theorem no_lost_update_validated :
    ∃ r, (registryMachine.schedule (List.replicate 9 0 ++ List.replicate 14 1)
        (registry Db.empty deletionRace)).world.db.connector 0 = some r ∧ r.version = 2 ∧
      ((registryMachine.schedule (List.replicate 9 0 ++ List.replicate 14 1)
        (registry Db.empty deletionRace)).world.db.connectorEvents 0).map (·.aggregateVersion) =
        List.range' 1 2 := by
  have hversion : ((registryMachine.schedule (List.replicate 9 0 ++ List.replicate 14 1)
      (registry Db.empty deletionRace)).world.db.connector 0).map (·.version) = some 2 := by
    decide +kernel
  obtain ⟨r, hr, hv⟩ := Option.map_eq_some_iff.mp hversion
  refine ⟨r, hr, hv, ?_⟩
  rw [← hv]
  exact (no_lost_update deletionRace (Machine.reaches_scheduleAll spares_of_noDeletions _ _
    (by decide +kernel))).1 0 r hr

set_option maxRecDepth 10000 in
/-- With it, version 2 is written twice, and the connector is taken out of `deletion_requested`. -/
theorem validation_overwrites_deletion :
    let sys := registryMachine.schedule
      (List.replicate 9 0 ++ List.replicate 2 1 ++ List.replicate 6 2 ++ List.replicate 14 1)
      (registry Db.empty deletionRace)
    registryMachine.Reaches Machine.Any (registry Db.empty deletionRace) sys ∧
      ∃ r, sys.world.db.connector 0 = some r ∧ r.status = .validated ∧ r.version = 2 ∧
        (sys.world.db.connectorEvents 0).map (·.subject) =
          ["connector.created", "connector.deletion_requested", "connector.validation_succeeded"] ∧
        (sys.world.db.connectorEvents 0).map (·.aggregateVersion) ≠ List.range' 1 r.version := by
  intro sys
  have hrow : (sys.world.db.connector 0).map (fun r => (r.status, r.version)) =
      some (.validated, 2) := by decide +kernel
  have hevents : (sys.world.db.connectorEvents 0).map (fun e => (e.subject, e.aggregateVersion)) =
      [("connector.created", 1), ("connector.deletion_requested", 2),
        ("connector.validation_succeeded", 2)] := by decide +kernel
  obtain ⟨r, hr, hv⟩ := Option.map_eq_some_iff.mp hrow
  obtain ⟨hstatus, hversion⟩ := Prod.mk.inj hv
  have hsubjects := congrArg (List.map Prod.fst) hevents
  have hversions := congrArg (List.map Prod.snd) hevents
  simp only [List.map_map, List.map_cons, List.map_nil] at hsubjects hversions
  refine ⟨Machine.reaches_schedule _ _, r, hr, hstatus, hversion, hsubjects, ?_⟩
  rw [hversion]
  exact fun h => absurd (hversions.symm.trans h) (by decide)

end FavlGateway.Registry
