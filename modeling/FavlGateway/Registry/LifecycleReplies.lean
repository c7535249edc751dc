/-
  What the reply to a lifecycle request means.

  Seven endpoints move a connector through its lifecycle, and each is `apply` at its own target and
  event.  Served alone, such a request is a FUNCTION of the tables (`LifecycleRequest.outcome`): it
  is refused, or the edge it found is applied and recorded, or the connector already is where the
  request would take it and the request is answered as a repeat.  `serve_lifecycle` says that the
  endpoints compute this function; everything below it reads the function, not the handlers.

  What does a 200 then say about the RECORD?  The requested event is on it, in the audit trail and in
  the outbox under the next version, or some edge of that event leads into the state the connector
  holds — unless a rotation was swallowed as the repeat of another event.
-/
import FavlGateway.Registry.Solo

namespace FavlGateway.Registry

open FavlGateway.Library

/-! ## The endpoints -/

/-- The lifecycle endpoints. -/
inductive LifecycleAction where
  | install
  | configure
  | enable
  | disable
  | rotateCredentials
  | revoke
  | archive
  deriving DecidableEq, Repr

namespace LifecycleAction

/-- The event a caller of the endpoint asks for. -/
def requested : LifecycleAction → ConnectorEvent
  | install => .installed
  | configure => .configured
  | enable => .enabled
  | disable => .disabled
  | rotateCredentials => .credentialsRotated
  | revoke => .revoked
  | archive => .archived

/-- The target the endpoint hands to `apply`, for a connector read in the state `held`. -/
def target (held : ConnectorState) : LifecycleAction → ConnectorState
  | install => .installed
  | configure => .configured
  | enable => .enabled
  | disable => .disabled
  | rotateCredentials => held
  | revoke => .revoked
  | archive => .archived

/-- The event the endpoint hands to `apply`; installing leaves it to the lookup. -/
def event (action : LifecycleAction) : Option ConnectorEvent :=
  if action = install then none else some action.requested

end LifecycleAction

/-- A request to a lifecycle endpoint. -/
structure LifecycleRequest where
  action : LifecycleAction
  caller : CallerIdentity
  connectorId : Uuid
  body : Option TransitionRequest := none

namespace LifecycleRequest

/-- The request as it is routed. -/
def request (q : LifecycleRequest) : Request :=
  match q.action with
  | .install => .installConnector q.caller q.connectorId q.body
  | .configure => .configureConnector q.caller q.connectorId q.body
  | .enable => .enableConnector q.caller q.connectorId q.body
  | .disable => .disableConnector q.caller q.connectorId q.body
  | .rotateCredentials => .rotateConnectorCredentials q.caller q.connectorId q.body
  | .revoke => .revokeConnector q.caller q.connectorId q.body
  | .archive => .archiveConnector q.caller q.connectorId q.body

/-- What the endpoint asks of `apply`, for a connector read in the state `held`. -/
def ask (q : LifecycleRequest) (held : ConnectorState) : Ask :=
  .ofBody q.caller q.connectorId (q.action.target held) q.action.event q.body

/-- The connector the caller may see under the id. -/
def subject (q : LifecycleRequest) (db : Db) : Option ConnectorRecord :=
  (db.connector q.connectorId).filter (·.tenantId = q.caller.tenantId)

end LifecycleRequest

/-! ## `apply`, while nobody else writes -/

/-- The tables after a transition. -/
def transitioned (env : Env) (ask : Ask) (record : ConnectorRecord) (tr : Transition) (db : Db) :
    Rows :=
  db.toRows.updateConnector ask.connectorId (.merge record (advance env record tr ask.reason)) ++
    transitionRows env ask record tr

/-- What `apply` answers about the connector it read, and the store it leaves. -/
def Ask.outcome (env : Env) (ask : Ask) (record : ConnectorRecord) (st : Store) :
    Except Exc TransitionResult × Store :=
  let current := record.status.value
  match find current ask.target.value ask.event with
  | .error exc =>
    match idempotentRepeat current ask.target.value with
    | some edge => (.ok ⟨record, edge.event, true⟩, st)
    | none => (.error (.transitionRejected exc.reason current (permittedTargets current)), st)
  | .ok tr =>
    if reasonMissing tr ask.reason then
      (.error (.reasonRequired (tr.event.value ++
        " requires a reason; an audit record without one " ++
        "cannot answer the only question later asked of it")), st)
    else if h : (transitioned env ask record tr st.db).Valid then
      (.ok ⟨advance env record tr ask.reason, tr.event, false⟩, { st with db := ⟨_, h⟩ })
    else (.error (.db (transitioned env ask record tr st.db).refusal), st)

/-- What `apply` answers, and the store it leaves. -/
def Ask.answer (env : Env) (ask : Ask) (st : Store) : Except Exc TransitionResult × Store :=
  match (st.db.connector ask.connectorId).filter (·.tenantId = ask.caller.tenantId) with
  | none => (.error .lookupError, st)
  | some record => ask.outcome env record st

theorem Ask.answer_some {env : Env} {ask : Ask} {st : Store} {record : ConnectorRecord}
    (h : (st.db.connector ask.connectorId).filter (·.tenantId = ask.caller.tenantId) =
      some record) : ask.answer env st = ask.outcome env record st := by
  unfold Ask.answer
  rw [h]

namespace LifecycleRequest

/-- What a lifecycle request comes to, and the store it leaves. -/
def outcome (q : LifecycleRequest) (env : Env) (st : Store) :
    Except Exc TransitionResult × Store :=
  match q.subject st.db with
  | none => (.error .lookupError, st)
  | some record => (q.ask record.status).outcome env record st

/-- The response to the caller. -/
def reply : Except Exc TransitionResult → Response
  | .ok result => ⟨200, .connector (toSchema result.connector)⟩
  | .error e => (refusalResponse e).respond

end LifecycleRequest

section Solo

variable {i : Nat} {env : Env} {s : Session} {st : Store}

/-- Reading a connector answers its stored row. -/
theorem getConnector_solo (clean : s.Clean) (hin : s.InSync st.db) (id : Uuid) (forUpdate : Bool) :
    ∃ s', perform i (.getConnector id forUpdate) s st = (st.db.connector id, s', st) ∧
      s'.Clean ∧ s'.InSync st.db ∧ ∀ r, st.db.connector id = some r → s'.Holds id r := by
  have heff := perform_effect i (.getConnector id forUpdate) s st
  obtain ⟨clean', -, -, hheld, -⟩ := clean.effect_getConnector heff
  have hst : (perform i (.getConnector id forUpdate) s st).2.2 = st := perform_store rfl rfl s st
  obtain ⟨-, -, href⟩ := perform_refreshed (i := i) (o := .getConnector id forUpdate) rfl s st
  have hb : (perform i (.getConnector id forUpdate) s st).1 = st.db.connector id := by
    simp only [perform]
    cases hattrs : s.connectorAttrs id with
    | some current => exact (hin id current (clean.attrs_eq.mp hattrs).loaded).symm
    | none =>
      show (s.loadConnector st.db id forUpdate).1 = _
      unfold Session.loadConnector
      cases st.db.connector id with
      | none => rfl
      | some row => rfl
  refine ⟨(perform i (.getConnector id forUpdate) s st).2.1, ?_, clean', hin.refreshed href, ?_⟩
  · rw [← hb]
    exact Prod.ext rfl (Prod.ext rfl hst)
  · intro r hr
    exact hheld r (hb.trans hr)

/-- A last commit makes the session's contents the tables, or is refused. -/
theorem commit_solo {α : Type} (a : α) :
    Prog.run (perform i) (commit >>= fun _ => (Prog.ret a : Handler α)) s st =
      if h : (s.contents st.db).Valid then
        (.ok a, s.committed, { st with
          db := ⟨s.contents st.db, h⟩
          inserts := st.inserts ++ (s.flushed ++ s.pending).invocations.map fun r => (i, r.id) })
      else (.error (.db (s.contents st.db).refusal), s.rolledBack, st) := by
  simp only [commit, await, Prog.perform_bind, Prog.op_bind, Prog.run_op, perform]
  by_cases h : (s.contents st.db).Valid
  · simp only [h, dite_true]
    rfl
  · simp only [h, dite_false]
    rfl

/-- **`apply` computes its outcome**, from any session that holds nothing stale. -/
theorem apply_solo (clean : s.Clean) (hin : s.InSync st.db) (ask : Ask) :
    ∃ s', Prog.run (perform i) (apply env ask.connectorId ask.target ask.event ask.caller.actorId
        ask.caller.tenantId ask.reason ask.idempotencyKey) s st =
      ((ask.answer env st).1, s', (ask.answer env st).2) := by
  obtain ⟨s₁, hget, clean₁, hin₁, hheld⟩ :=
    getConnector_solo (i := i) clean hin ask.connectorId true
  simp only [apply, Ask.answer, await, Prog.perform_bind, Prog.run_op, hget]
  cases hb : (st.db.connector ask.connectorId).filter (·.tenantId = ask.caller.tenantId) with
  | none => exact ⟨s₁, rfl⟩
  | some record =>
    obtain ⟨hrec, -⟩ := Option.filter_eq_some_iff.mp hb
    have held := hheld record hrec
    have hid : record.id = ask.connectorId := clean₁.holds_id held
    simp only [Ask.outcome]
    cases hfind : find record.status.value ask.target.value ask.event with
    | error exc =>
      cases hrep : idempotentRepeat record.status.value ask.target.value with
      | none => exact ⟨s₁, rfl⟩
      | some edge => exact ⟨s₁, rfl⟩
    | ok tr =>
      by_cases hreason : reasonMissing tr ask.reason = true
      · simp only [hreason, if_true]
        exact ⟨s₁, rfl⟩
      · simp only [hreason, Bool.false_eq_true, if_false]
        -- the three staged writes make the session of a transition
        have hstaged : ({ (s₁.writing record.id (advance env record tr ask.reason) {}) with
            pending := {} ++ { audit := [transitionAudit env record tr ask.caller.actorId
                ask.caller.tenantId ask.reason ask.idempotencyKey] } ++ { outbox :=
              [transitionEvent env record tr ask.caller.actorId ask.caller.tenantId ask.reason] } }
            : Session) = s₁.writing ask.connectorId (advance env record tr ask.reason)
              (transitionRows env ask record tr) := by
          rw [hid]
          rfl
        have hset : (perform i (.setConnector (advance env record tr ask.reason)) s₁ st).2.1 =
            s₁.writing record.id (advance env record tr ask.reason) {} := by
          rw [clean₁.effect_setConnector (perform_effect i _ s₁ st), advance_id]
        obtain ⟨inst, hinst, -, hloaded⟩ := held
        have hcontents : (s₁.writing ask.connectorId (advance env record tr ask.reason)
            (transitionRows env ask record tr)).contents st.db =
            transitioned env ask record tr st.db := by
          rw [clean₁.contents_writing hinst, transitioned, hloaded]
        simp only [Prog.run_op]
        show ∃ s', Prog.run (perform i) (commit >>= fun _ => Prog.ret _)
          { (perform i (.setConnector (advance env record tr ask.reason)) s₁ st).2.1 with
            pending := _ ++ _ ++ _ } st = _
        rw [hset]
        show ∃ s', Prog.run (perform i) (commit >>= fun _ => Prog.ret _)
          { s₁.writing record.id (advance env record tr ask.reason) {} with
            pending := {} ++ _ ++ _ } st = _
        rw [hstaged, commit_solo, hcontents]
        by_cases hvalid : (transitioned env ask record tr st.db).Valid
        · have hins : ((s₁.writing ask.connectorId (advance env record tr ask.reason)
              (transitionRows env ask record tr)).flushed ++ (s₁.writing ask.connectorId
              (advance env record tr ask.reason)
              (transitionRows env ask record tr)).pending).invocations = [] := by
            simp [Session.writing, clean₁.flushed, transitionRows]
          simp only [hvalid, dite_true, hins, List.map_nil, List.append_nil]
          exact ⟨_, rfl⟩
        · simp only [hvalid, dite_false]
          exact ⟨_, rfl⟩

/-- The response to a transition that was run to its end. -/
theorem transition_solo (clean : s.Clean) (hin : s.InSync st.db) (connectorId : Uuid)
    (caller : CallerIdentity) (target : ConnectorState) (event : Option ConnectorEvent)
    (body : Option TransitionRequest) {answer : Except Exc TransitionResult × Store}
    (hanswer : (Ask.ofBody caller connectorId target event body).answer env st = answer) :
    ∃ r s', Prog.run (perform i) (transition env connectorId caller target event body) s st =
        (r, s', answer.2) ∧
      (∀ response, r = .ok response → LifecycleRequest.reply answer.1 = response) ∧
      ∀ e, r = .error e → LifecycleRequest.reply answer.1 = e.respond := by
  obtain ⟨s', hrun⟩ := @apply_solo i env s st clean hin
    (.ofBody caller connectorId target event body)
  rw [hanswer] at hrun
  unfold transition
  rw [Prog.run_bind, Prog.run_tryCatch]
  have hrun' : Prog.run (perform i) (apply env connectorId target event caller.actorId
      caller.tenantId (body.getD {}).reason (body.getD {}).idempotencyKey) s st =
      (answer.1, s', answer.2) := hrun
  simp only [hrun']
  cases answer.1 with
  | ok result =>
    refine ⟨.ok ⟨200, .connector (toSchema result.connector)⟩, s', rfl, ?_, ?_⟩
    · intro response h
      exact Except.ok.inj h
    · intro e h
      cases h
  | error e =>
    refine ⟨.error (refusalResponse e), s', rfl, ?_, ?_⟩
    · intro response h
      cases h
    · intro e' h
      rw [← Except.error.inj h]
      rfl

/-- **The lifecycle endpoints compute their outcome.** -/
theorem serve_lifecycle (q : LifecycleRequest) :
    serve i (handler env q.request) st =
      (LifecycleRequest.reply (q.outcome env st).1, (q.outcome env st).2) := by
  have hrun : ∃ r s', Prog.run (perform i) (handler env q.request) Session.fresh st =
        (r, s', (q.outcome env st).2) ∧
      (∀ response, r = .ok response → LifecycleRequest.reply (q.outcome env st).1 = response) ∧
      ∀ e, r = .error e → LifecycleRequest.reply (q.outcome env st).1 = e.respond := by
    obtain ⟨action, caller, connectorId, body⟩ := q
    by_cases hrotate : action = .rotateCredentials
    · subst hrotate
      obtain ⟨s₁, hget, clean, hin, -⟩ := @getConnector_solo i _ st
        Session.fresh_clean Session.fresh_inSync connectorId false
      simp only [LifecycleRequest.request, handler, rotateConnectorCredentials, tenantConnector,
        await, Prog.perform_bind, Prog.op_bind, Prog.run_op, hget]
      cases hb : (st.db.connector connectorId).filter (·.tenantId = caller.tenantId) with
      | none =>
        have hnone : LifecycleRequest.outcome ⟨.rotateCredentials, caller, connectorId, body⟩ env
            st = (.error .lookupError, st) := by
          simp only [LifecycleRequest.outcome, LifecycleRequest.subject, hb]
        rw [hnone]
        refine ⟨.error connectorNotFound, s₁, rfl, ?_, ?_⟩
        · intro response h
          cases h
        · intro e h
          rw [← Except.error.inj h]
          rfl
      | some record =>
        refine transition_solo clean hin connectorId caller record.status _ body ?_
        have hanswer : (Ask.ofBody caller connectorId record.status (some .credentialsRotated)
            body).answer env st = _ := Ask.answer_some hb
        rw [hanswer]
        simp only [LifecycleRequest.outcome, LifecycleRequest.subject, hb]
        rfl
    · have hanswer : ∀ held, (LifecycleRequest.ask ⟨action, caller, connectorId, body⟩ held).answer
          env st = LifecycleRequest.outcome ⟨action, caller, connectorId, body⟩ env st := by
        intro held
        cases action <;> first | rfl | exact absurd rfl hrotate
      have htr := transition_solo (i := i) Session.fresh_clean Session.fresh_inSync connectorId
        caller _ _ body (hanswer .draft)
      cases action <;> first | exact htr | exact absurd rfl hrotate
  obtain ⟨r, s', hrun, hok, herr⟩ := hrun
  unfold serve
  rw [hrun]
  cases r with
  | ok response => rw [hok response rfl]
  | error e => rw [herr e rfl]

end Solo

/-! ## How a lifecycle request can end -/

namespace LifecycleRequest

variable {q : LifecycleRequest} {env : Env} {st : Store} {i : Nat}

/-- The two ways a lifecycle request succeeds, on the connector `record`. -/
inductive Succeeds (q : LifecycleRequest) (env : Env) (st : Store) (record : ConnectorRecord) :
    Store → Prop where
  /-- No edge, but some idempotent edge leads into the state the connector holds. -/
  | repeated {exc : TransitionError} {edge : Transition}
      (lookup : find record.status.value (q.action.target record.status).value q.action.event =
        .error exc)
      (held : idempotentRepeat record.status.value (q.action.target record.status).value =
        some edge) :
      Succeeds q env st record st
  /-- An edge was found, and its row, audit row and event committed. -/
  | applied {tr : Transition}
      (lookup : find record.status.value (q.action.target record.status).value q.action.event =
        .ok tr)
      (reason : reasonMissing tr (q.ask record.status).reason = false)
      (valid : (transitioned env (q.ask record.status) record tr st.db).Valid) :
      Succeeds q env st record { st with db := ⟨_, valid⟩ }

theorem subject_eq_some {db : Db} {record : ConnectorRecord} :
    q.subject db = some record ↔
      db.connector q.connectorId = some record ∧ record.tenantId = q.caller.tenantId := by
  unfold subject
  rw [Option.filter_eq_some_iff]
  simp

/-- A lifecycle request is refused, and leaves the store alone, or succeeds. -/
theorem outcome_cases (q : LifecycleRequest) (env : Env) (st : Store) :
    (∃ e, q.outcome env st = (.error e, st) ∧ (reply (.error e)).statusCode ≠ 200) ∨
      ∃ record result, q.subject st.db = some record ∧ (q.outcome env st).1 = .ok result ∧
        q.Succeeds env st record (q.outcome env st).2 := by
  cases hsub : q.subject st.db with
  | none =>
    refine .inl ⟨.lookupError, by simp only [outcome, hsub], ?_⟩
    simp [reply, refusalResponse, connectorNotFound, Exc.respond]
  | some record =>
    have hout : q.outcome env st = (q.ask record.status).outcome env record st := by
      simp only [outcome, hsub]
    rw [hout]
    cases hfind : find record.status.value (q.ask record.status).target.value
        (q.ask record.status).event with
    | error exc =>
      cases hrep : idempotentRepeat record.status.value
          (q.ask record.status).target.value with
      | none =>
        simp only [Ask.outcome, hfind, hrep]
        refine .inl ⟨_, rfl, ?_⟩
        simp [reply, refusalResponse, Exc.respond]
      | some edge =>
        simp only [Ask.outcome, hfind, hrep]
        exact .inr ⟨record, _, rfl, rfl, .repeated hfind hrep⟩
    | ok tr =>
      simp only [Ask.outcome, hfind]
      by_cases hreason : reasonMissing tr (q.ask record.status).reason = true
      · simp only [hreason, if_true]
        refine .inl ⟨_, rfl, ?_⟩
        simp [reply, refusalResponse, Exc.respond]
      · simp only [hreason, Bool.false_eq_true, if_false]
        by_cases hvalid : (transitioned env (q.ask record.status) record tr st.db).Valid
        · simp only [hvalid, dite_true]
          exact .inr ⟨record, _, rfl, rfl, .applied hfind (by simpa using hreason) hvalid⟩
        · simp only [hvalid, dite_false]
          refine .inl ⟨_, rfl, ?_⟩
          simp [reply, refusalResponse, Exc.respond]

/-- A 200 is a success. -/
theorem succeeds (h : (serve i (handler env q.request) st).1.statusCode = 200) :
    ∃ record, q.subject st.db = some record ∧
      q.Succeeds env st record (served i ⟨env, q.request⟩ st) := by
  rw [serve_lifecycle] at h
  unfold served
  rw [serve_lifecycle]
  rcases outcome_cases q env st with ⟨e, hout, hcode⟩ | ⟨record, result,
    hsub, -, hsucc⟩
  · rw [hout] at h
    exact absurd h hcode
  · exact ⟨record, hsub, hsucc⟩

/-- Success or not, the store is as it was or the edge was applied. -/
theorem served_cases (q : LifecycleRequest) (env : Env) (st : Store) (i : Nat) :
    served i ⟨env, q.request⟩ st = st ∨ ∃ record tr,
      q.subject st.db = some record ∧
      find record.status.value (q.action.target record.status).value q.action.event = .ok tr ∧
      (transitioned env (q.ask record.status) record tr st.db).Valid := by
  unfold served
  rw [serve_lifecycle]
  rcases outcome_cases q env st with ⟨e, hout, -⟩ | ⟨record, result, hsub,
    -, hsucc⟩
  · rw [hout]
    exact .inl rfl
  · generalize (q.outcome env st).2 = st' at hsucc ⊢
    cases hsucc with
    | repeated lookup held => exact .inl rfl
    | applied lookup reason valid => exact .inr ⟨record, _, hsub, lookup, valid⟩

end LifecycleRequest

/-- The connector, the audit trail and the outbox after a transition. -/
theorem transitioned_tables {env : Env} (ask : Ask) {record : ConnectorRecord} {tr : Transition}
    {db db' : Db} (hrec : db.connector ask.connectorId = some record)
    (hdb : db'.toRows = transitioned env ask record tr db) :
    db'.connector ask.connectorId = some (advance env record tr ask.reason) ∧
      db'.audit = db.audit ++ (transitionRows env ask record tr).audit ∧
      db'.outbox = db.outbox ++ (transitionRows env ask record tr).outbox := by
  refine ⟨?_, by rw [hdb]; rfl, by rw [hdb]; rfl⟩
  have hupdated := Db.connector_updated (c := ask.connectorId) hdb rfl fun r => rfl
  rw [if_pos rfl, hrec, Option.map_some, merge_advance] at hupdated
  exact hupdated

/-! ## What is on record after a success -/

/-- The next version of the connector, with one audit row and one event that name `event`. -/
structure RecordedVersion (db db' : Db) (id : Uuid) (event : ConnectorEvent)
    (record record' : ConnectorRecord) (a : ConnectorAuditRecord) (e : OutboxEvent) : Prop where
  before : db.connector id = some record
  after : db'.connector id = some record'
  version : record'.version = record.version + 1
  audit : db'.audit = db.audit ++ [a]
  audit_connector : a.connectorId = id
  audit_version : a.aggregateVersion = record'.version
  audit_event : a.event = event.value
  outbox : db'.outbox = db.outbox ++ [e]
  event_connector : e.aggregateType = "connector" ∧ e.aggregateId = some id
  event_version : e.aggregateVersion = record'.version
  event_subject : e.subject = event.value

/-- A transition that commits is the next version. -/
theorem transitioned_recordedVersion {env : Env} (ask : Ask) {record : ConnectorRecord}
    {tr : Transition} {db db' : Db} (hrec : db.connector ask.connectorId = some record)
    (hdb : db'.toRows = transitioned env ask record tr db) :
    RecordedVersion db db' ask.connectorId tr.event record (advance env record tr ask.reason)
      (transitionAudit env record tr ask.caller.actorId ask.caller.tenantId ask.reason
        ask.idempotencyKey)
      (transitionEvent env record tr ask.caller.actorId ask.caller.tenantId ask.reason) := by
  obtain ⟨hafter, haudit, hout⟩ := transitioned_tables ask hrec hdb
  have hid : record.id = ask.connectorId := (lookup_mem hrec).2
  exact {
    before := hrec
    after := hafter
    version := advance_version ..
    audit := haudit
    audit_connector := hid
    audit_version := (advance_version ..).symm
    audit_event := rfl
    outbox := hout
    event_connector := ⟨rfl, congrArg some hid⟩
    event_version := (advance_version ..).symm
    event_subject := rfl }

namespace LifecycleRequest

/-- The requested event was committed with the next version of the connector. -/
def Committed (q : LifecycleRequest) (db db' : Db) : Prop :=
  ∃ record record' a e,
    RecordedVersion db db' q.connectorId q.action.requested record record' a e

/-- Nothing changed, and the requested event leads into the state the connector holds. -/
def AlreadyThere (q : LifecycleRequest) (db db' : Db) : Prop :=
  db' = db ∧ ∃ record, db.connector q.connectorId = some record ∧
    ∃ t ∈ transitions, t.event = q.action.requested ∧ t.target = record.status

/-- A rotation is in the audit trail, and its time is on the connector. -/
def RotationRecorded (q : LifecycleRequest) (env : Env) (db db' : Db) : Prop :=
  ∃ a, db'.audit = db.audit ++ [a] ∧ a.connectorId = q.connectorId ∧
    a.event = ConnectorEvent.credentialsRotated.value ∧
    (db'.connector q.connectorId).bind (·.credentialsRotatedAt) = some (env.utcnow 1)

/-- The requested event is on record. -/
def OnRecord (q : LifecycleRequest) (env : Env) (db db' : Db) : Prop :=
  (q.Committed db db' ∨ q.AlreadyThere db db') ∧
    (q.action = .rotateCredentials → q.RotationRecorded env db db')

/-- The states in which a rotation passes for the repeat of the event that led into them. -/
def swallowingStates : List ConnectorState := [.revoked, .deletionRequested, .archived]

/-- A rotation for a connector that is already out of service. -/
def Swallowed (q : LifecycleRequest) (db : Db) : Prop :=
  q.action = .rotateCredentials ∧
    ∃ record, db.connector q.connectorId = some record ∧ record.status ∈ swallowingStates

section Table

/-- The edge an endpoint finds carries the event it asks for. -/
theorem event_of_find {action : LifecycleAction} {held : ConnectorState} {tr : Transition}
    (h : find held.value (action.target held).value action.event = .ok tr) :
    tr.event = action.requested ∧ tr.target = action.target held := by
  obtain ⟨hmem, -, htarget, hevent⟩ := find_value_spec h
  refine ⟨?_, htarget⟩
  have hinstalled : ∀ t ∈ transitions, t.target = .installed → t.event = .installed := by decide
  cases action with
  | install => exact hinstalled tr hmem htarget
  | _ => exact hevent _ rfl

/-- Some edge of the requested event leads into the state an endpoint asks for; a rotation asks
    for the state the connector is in. -/
theorem requested_leads {action : LifecycleAction} (held : ConnectorState)
    (hne : action ≠ .rotateCredentials) :
    ∃ t ∈ transitions, t.event = action.requested ∧ t.target = action.target held := by
  cases action with
  | rotateCredentials => exact absurd rfl hne
  | _ =>
    simp only [LifecycleAction.requested, LifecycleAction.target]
    decide

/-- A rotation that finds no edge is answered as a repeat in exactly the swallowing states. -/
theorem rotation_repeated {held : ConnectorState} {exc : TransitionError} {edge : Transition}
    (h : find held.value held.value (some .credentialsRotated) = .error exc)
    (hrep : idempotentRepeat held.value held.value = some edge) : held ∈ swallowingStates := by
  obtain ⟨-, hmem, htarget, hidem⟩ := idempotentRepeat_value hrep
  have hinto : ∀ t ∈ transitions, t.idempotent = true →
      t.target ∈ swallowingStates ∨ t.target = .disabled := by decide
  rcases hinto edge hmem hidem with hs | hs
  · exact htarget ▸ hs
  · have hfind := find_own_event ⟨.disabled, .disabled, .credentialsRotated, false, false, false⟩
      (by decide)
    rw [← htarget, hs] at h
    rw [show find ConnectorState.disabled.value ConnectorState.disabled.value
      (some .credentialsRotated) = _ from hfind] at h
    cases h

/-- No rotation is an edge from a swallowing state. -/
theorem rotation_not_edge {held : ConnectorState} {tr : Transition}
    (h : find held.value held.value (some .credentialsRotated) = .ok tr) :
    held ∉ swallowingStates := by
  obtain ⟨hmem, -, htarget, hevent⟩ := find_value_spec h
  have hfrom : ∀ t ∈ transitions, t.event = .credentialsRotated →
      t.target ∉ swallowingStates := by decide
  exact htarget ▸ hfrom tr hmem (hevent _ rfl)

end Table

/-- An applied edge puts the requested event on record. -/
theorem applied_onRecord {q : LifecycleRequest} {env : Env} {record : ConnectorRecord}
    {tr : Transition} {db db' : Db} (hrec : db.connector q.connectorId = some record)
    (lookup : find record.status.value (q.action.target record.status).value q.action.event =
      .ok tr)
    (hdb : db'.toRows = transitioned env (q.ask record.status) record tr db) :
    q.OnRecord env db db' := by
  obtain ⟨hevent, -⟩ := event_of_find lookup
  have hnext : RecordedVersion db db' q.connectorId tr.event record _ _ _ :=
    transitioned_recordedVersion (q.ask record.status) hrec hdb
  rw [hevent] at hnext
  refine ⟨.inl ⟨record, _, _, _, hnext⟩, fun hrotate => ?_⟩
  have hrotated : tr.event = .credentialsRotated := by
    rw [hevent, hrotate]
    rfl
  refine ⟨_, hnext.audit, hnext.audit_connector, congrArg ConnectorEvent.value hrotated, ?_⟩
  rw [hnext.after]
  simp [advance, hrotated]

end LifecycleRequest

/-- **A successful reply means the requested event is on record**, unless a rotation was taken for
    the repeat of the event that put the connector out of service: for every store, every lifecycle
    request and whatever the environment answers. -/
theorem lifecycle_reply_on_record (i : Nat) (env : Env) (q : LifecycleRequest) (st : Store)
    (h : (serve i (handler env q.request) st).1.statusCode = 200) :
    q.OnRecord env st.db (served i ⟨env, q.request⟩ st).db ↔ ¬ q.Swallowed st.db := by
  obtain ⟨record, hsub, hsucc⟩ := LifecycleRequest.succeeds h
  obtain ⟨hrec, -⟩ := LifecycleRequest.subject_eq_some.mp hsub
  generalize served i ⟨env, q.request⟩ st = st' at hsucc ⊢
  cases hsucc with
  | repeated lookup held =>
    by_cases hrotate : q.action = .rotateCredentials
    · rw [hrotate] at lookup held
      have hswallowed : q.Swallowed st.db :=
        ⟨hrotate, record, hrec, LifecycleRequest.rotation_repeated lookup held⟩
      refine iff_of_false ?_ (not_not_intro hswallowed)
      rintro ⟨-, hrotation⟩
      obtain ⟨a, ha, -⟩ := hrotation hrotate
      simpa using congrArg List.length ha
    · refine iff_of_true ⟨.inr ⟨rfl, record, hrec, ?_⟩, fun hr => absurd hr hrotate⟩ ?_
      · obtain ⟨hheld, -⟩ := idempotentRepeat_value held
        obtain ⟨t, hmem, hevent, htarget⟩ :=
          LifecycleRequest.requested_leads record.status hrotate
        exact ⟨t, hmem, hevent, htarget.trans hheld.symm⟩
      · exact fun hswallowed => hrotate hswallowed.1
  | applied lookup reason valid =>
    refine iff_of_true (LifecycleRequest.applied_onRecord hrec lookup rfl) ?_
    rintro ⟨hrotate, record', hrec', hstate⟩
    rw [hrec] at hrec'
    cases hrec'
    rw [hrotate] at lookup
    exact LifecycleRequest.rotation_not_edge lookup hstate

/-- A rotation of the sample connector. -/
def sampleRotation : LifecycleRequest := ⟨.rotateCredentials, sampleCaller, 0, none⟩

set_option maxRecDepth 10000 in
theorem lifecycle_reply_on_record_rotated :
    sampleRotation.OnRecord (sampleEnv 10) (serveAll 0 [sampleEnabled] { db := Db.empty }).db
      (served 1 ⟨sampleEnv 10, sampleRotation.request⟩
        (serveAll 0 [sampleEnabled] { db := Db.empty })).db := by
  refine (lifecycle_reply_on_record 1 (sampleEnv 10) sampleRotation _ (by decide +kernel)).mpr ?_
  rintro ⟨-, record, hrec, hstate⟩
  have henabled : ((serveAll 0 [sampleEnabled] { db := Db.empty }).db.connector 0).map
      (·.status) = some .enabled := by
    decide +kernel
  rw [show (serveAll 0 [sampleEnabled] { db := Db.empty }).db.connector 0 = some record from hrec,
    Option.map_some, Option.some.injEq] at henabled
  rw [henabled] at hstate
  exact absurd hstate (by decide)

/-- A connector is created in service and revoked. -/
def revokedInService : List Incoming :=
  [sampleEnabled, ⟨sampleEnv 10, .revokeConnector sampleCaller 0 (some sampleReason)⟩]

set_option maxRecDepth 10000 in
/-- Rotating the credentials of a revoked connector answers 200 and records nothing. -/
theorem rotation_swallowed :
    (serve 2 (handler (sampleEnv 20) sampleRotation.request)
        (serveAll 0 revokedInService { db := Db.empty })).1.statusCode = 200 ∧
      ¬ sampleRotation.OnRecord (sampleEnv 20) (serveAll 0 revokedInService { db := Db.empty }).db
        (served 2 ⟨sampleEnv 20, sampleRotation.request⟩
          (serveAll 0 revokedInService { db := Db.empty })).db := by
  refine ⟨by decide +kernel, ?_⟩
  rintro ⟨-, hrotation⟩
  obtain ⟨a, ha, -⟩ := hrotation rfl
  have hlength : (served 2 ⟨sampleEnv 20, sampleRotation.request⟩
      (serveAll 0 revokedInService { db := Db.empty })).db.audit.length =
      (serveAll 0 revokedInService { db := Db.empty }).db.audit.length := by
    decide +kernel
  rw [ha, List.length_append, List.length_singleton] at hlength
  omega

end FavlGateway.Registry
