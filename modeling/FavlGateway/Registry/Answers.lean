/-
  What a client of the registry is told is what was done.

  A request that has one transaction, the creation, a lifecycle transition or the DELETE, changes
  the tables in one step, its commit, or not at all (`Library.Ghost`), and its answer says which:
  with 201, 200 or 204 the step did what the answer shows (`Done`), or there was nothing left to do
  (`Settled`).  Whether there was is decided, and the answer made, by the connector as it was stored
  while the request had it locked (`WasSeen`); rotate-credentials goes by the row as it read it
  before.

  An invocation has three transactions and a validation has two.  Of every request it holds that it
  has changed nothing when it is answered 4xx: the client may correct it and send it again.  A 500
  says as much of the requests with one transaction only.
-/
import FavlGateway.Library.Ghost
import FavlGateway.Registry.InvocationLog
import FavlGateway.Registry.Locks

namespace FavlGateway.Registry

open FavlGateway.Library

/-! ## What a request does -/

/-- The request writes in one transaction: an invocation has three, a validation two. -/
def Request.oneStep : Request → Bool
  | .validateConnector _ _ => false
  | .invokeConnectorV1 _ _ _ _ _ => false
  | .invokeConnectorInternal _ _ _ _ => false
  | _ => true

/-- The request is answered from what is stored. -/
def Request.isRead : Request → Bool
  | .listConnectors _ _ => true
  | .getConnector _ _ => true
  | .connectorHealth _ _ => true
  | .connectorAudit _ _ => true
  | .listInvocations _ _ _ _ _ => true
  | .getInvocation _ _ => true
  | _ => false

/-- The request reads the connector before it takes the row lock. -/
def Request.rotates : Request → Bool
  | .rotateConnectorCredentials _ _ _ => true
  | _ => false

/-- The request is at fault. -/
def Response.isRefusal (response : Response) : Bool :=
  400 ≤ response.statusCode && response.statusCode < 500

/-- The tables before and after a request was carried out, and what its client is told; `seen` holds
    of the connectors that the request has read, `seen true` of those it has read under the lock. -/
inductive Done (env : Env) (seen : Bool → Uuid → ConnectorRecord → Prop) (db db' : Db)
    (request : Request) : Response → Prop where
  | created {caller : CallerIdentity} {payload : ConnectorCreate}
      (asked : request = .createConnector caller payload)
      (valid : (env.validateConfig payload.kind (effectiveConfig payload)).valid = true)
      (tables : db'.toRows = db.toRows ++
        { connectors := [newConnector env caller payload]
          audit := [creationAudit env caller (newConnector env caller payload)]
          outbox := [creationEvent env (newConnector env caller payload)] }) :
      Done env seen db db' request ⟨201, .connector (toSchema (newConnector env caller payload))⟩
  | moved {ask : Ask} {record : ConnectorRecord} {tr : Transition}
      (asked : request.asked env record = some ask) (tenant : record.tenantId = ask.caller.tenantId)
      (read : seen (!request.rotates) ask.connectorId record)
      (current : request.rotates = false → db.connector ask.connectorId = some record)
      (edge : find record.status.value ask.target.value ask.event = .ok tr)
      (reason : reasonMissing tr ask.reason = false)
      (tables : db'.toRows = db.toRows.updateConnector ask.connectorId
        (.merge record (advance env record tr ask.reason)) ++ transitionRows env ask record tr) :
      Done env seen db db' request ⟨200, .connector (toSchema (advance env record tr ask.reason))⟩
  | deleted {caller : CallerIdentity} {connectorId : Uuid} {record : ConnectorRecord}
      (asked : request = .requestConnectorDeletion caller connectorId)
      (tenant : record.tenantId = caller.tenantId)
      (current : db.connector connectorId = some record)
      (pending : record.status ≠ .deleted ∧ record.status ≠ .deletionRequested)
      (tables : db'.toRows = db.toRows.updateConnector connectorId
          (.merge record (withDeletionRequested env caller record)) ++
        { outbox := [deletionEvent env caller connectorId
            (withDeletionRequested env caller record)] }) :
      Done env seen db db' request ⟨204, .empty⟩

/-- What a client is told of a request that did nothing. -/
inductive Settled (env : Env) (seen : Bool → Uuid → ConnectorRecord → Prop) (request : Request) :
    Response → Prop where
  | read {response : Response} (read : request.isRead = true) : Settled env seen request response
  | failed {response : Response} (status : 400 ≤ response.statusCode) :
      Settled env seen request response
  /-- The connector was in the state already. -/
  | repeated {ask : Ask} {record : ConnectorRecord} {edge : Transition}
      (asked : request.asked env record = some ask) (tenant : record.tenantId = ask.caller.tenantId)
      (read : seen (!request.rotates) ask.connectorId record)
      (already : idempotentRepeat record.status.value ask.target.value = some edge) :
      Settled env seen request ⟨200, .connector (toSchema record)⟩
  | alreadyRequested {caller : CallerIdentity} {connectorId : Uuid} {record : ConnectorRecord}
      (asked : request = .requestConnectorDeletion caller connectorId)
      (tenant : record.tenantId = caller.tenantId) (read : seen true connectorId record)
      (already : record.status = .deletionRequested) : Settled env seen request ⟨204, .empty⟩

theorem Done.not_refusal {env : Env} {seen : Bool → Uuid → ConnectorRecord → Prop} {db db' : Db}
    {request : Request} {response : Response} (h : Done env seen db db' request response) :
    response.isRefusal = false := by
  cases h <;> rfl

section Effects

variable (rq : Incoming) (seen : Bool → Uuid → ConnectorRecord → Prop)

/-- Somebody has been, or would have been, told of it. -/
def Carried (w w' : World) : Prop := ∃ response, Done rq.env seen w.db w'.db rq.request response

/-- The client is told what was done. -/
structure Told (response : Response) (xs : List (World × World)) : Prop where
  refused : response.isRefusal = true → xs = []
  settled : rq.request.oneStep = true → xs = [] → Settled rq.env seen rq.request response
  done : rq.request.oneStep = true → ∀ w w', xs = [(w, w')] →
    Done rq.env seen w.db w'.db rq.request response

end Effects

/-- What a handler's end is answered with. -/
def replied : Except Exc Response → Response
  | .ok response => response
  | .error e => e.respond

namespace Told

variable {rq : Incoming} {seen : Bool → Uuid → ConnectorRecord → Prop} {response : Response}
  {xs : List (World × World)}

theorem nothing (h : Settled rq.env seen rq.request response) : Told rq seen response [] where
  refused _ := rfl
  settled _ _ := h
  done _ _ _ hxs := by cases hxs

theorem once {w w' : World} (h : Done rq.env seen w.db w'.db rq.request response) :
    Told rq seen response [(w, w')] where
  refused hrefused := by
    rw [h.not_refusal] at hrefused
    cases hrefused
  settled _ hxs := by cases hxs
  done _ w₁ w₁' hxs := by
    cases hxs
    exact h

theorem manySteps (hsteps : rq.request.oneStep = false)
    (h : response.isRefusal = true → xs = []) : Told rq seen response xs where
  refused := h
  settled hone := by
    rw [hsteps] at hone
    cases hone
  done hone := by
    rw [hsteps] at hone
    cases hone

theorem read {response : Response} (h : rq.request.isRead = true) : Told rq seen response [] :=
  nothing (.read h)

theorem failed (h : 400 ≤ response.statusCode) : Told rq seen response [] := nothing (.failed h)

end Told

/-! ## The walk -/

/-- A row read under the lock is held under it, if it was not there before. -/
theorem effect_getConnector_locked {s s' : Session} {id : Uuid} {b : Option ConnectorRecord}
    {r : ConnectorRecord} (h : Effect (.getConnector id true) s b s')
    (hnone : s.connectors id = none) (hr : b = some r) :
    s'.connectors id = some (.ofRow r true) := by
  obtain ⟨i, st, hb, hs'⟩ := h
  have hattrs : s.connectorAttrs id = none := by
    unfold Session.connectorAttrs
    rw [hnone]
    rfl
  simp only [perform, hattrs] at hb hs'
  rw [← hs']
  exact Session.loadConnector_held (hb.trans hr)

/-- How a commit ends. -/
theorem perform_commit_cases (i : Nat) (s : Session) (st : Store) :
    (∃ e, perform i .commit s st = (.error e, s.rolledBack, st)) ∨
      ∃ st', st'.db.toRows = s.contents st.db ∧
        perform i .commit s st = (.ok (), s.committed, st') := by
  simp only [perform]
  split
  · exact .inr ⟨_, rfl, rfl⟩
  · exact .inl ⟨_, rfl⟩

/-- The row was stored at a moment of the run from `sys₀` to `fin`; if `locked`, request `i` had it
    locked then. -/
def WasSeen (i : Nat) (sys₀ fin : System RegistryOp Session World Exc Response) (locked : Bool)
    (c : Uuid) (record : ConnectorRecord) : Prop :=
  ∃ now, registryMachine.Reaches Machine.Any sys₀ now ∧
    registryMachine.Reaches Machine.Any now fin ∧ now.world.db.connector c = some record ∧
    (locked = true → now.world.rowLock c = some i)

/-- What has been seen under the lock has been seen. -/
theorem WasSeen.weaken {i : Nat} {sys₀ fin : System RegistryOp Session World Exc Response}
    {locked : Bool} {c : Uuid} {record : ConnectorRecord}
    (h : WasSeen i sys₀ fin true c record) : WasSeen i sys₀ fin locked c record := by
  obtain ⟨now, hbefore, hafter, hstored, hlock⟩ := h
  exact ⟨now, hbefore, hafter, hstored, fun _ => hlock rfl⟩

section Walk

variable {α β : Type} {rq : Incoming} {i : Nat} {s s' : Session}
  {sys₀ fin sys sys' : System RegistryOp Session World Exc Response} {xs : List (World × World)}

/-- What the session has under a lock after an operation has been seen under it. -/
theorem seen_of_instance {o : RegistryOp β} {b : β} {c : Uuid} {inst : Instance ConnectorRecord}
    (hstart : ∃ db₀ reqs, sys₀ = registry db₀ reqs)
    (hmoment : registryMachine.Moment sys₀ fin i o s b s' sys sys')
    (hinst : s'.connectors c = some inst) (hlocked : inst.locked = true) :
    WasSeen i sys₀ fin true c inst.loaded := by
  obtain ⟨db₀, reqs, rfl⟩ := hstart
  have hafter := Machine.Reaches.step hmoment.reached hmoment.own trivial
  obtain ⟨hlock, hstored⟩ :=
    reaches_locksHeld hafter i c inst (hmoment.session' ▸ hinst) hlocked
  exact ⟨sys', hafter, hmoment.rest, hstored, fun _ => hlock⟩

/-- What is read into a session has been seen. -/
theorem seen_of_read {id : Uuid} {forUpdate : Bool} {r : ConnectorRecord}
    (hstart : ∃ db₀ reqs, sys₀ = registry db₀ reqs)
    (hmoment : registryMachine.Moment sys₀ fin i (.getConnector id forUpdate) s (some r) s' sys
      sys') (hnone : s.connectors id = none) : WasSeen i sys₀ fin forUpdate id r := by
  obtain ⟨hperform, -, -⟩ := registryMachine_step hmoment.step
  have heff : Effect (.getConnector id forUpdate) s (some r) s' :=
    ⟨i, sys.world.toStore, by rw [hperform], by rw [hperform]⟩
  cases forUpdate with
  | true => exact seen_of_instance hstart hmoment (effect_getConnector_locked heff hnone rfl) rfl
  | false =>
    have hattrs : s.connectorAttrs id = none := by
      unfold Session.connectorAttrs
      rw [hnone]
      rfl
    have hrow : sys.world.db.connector id = some r := by
      have hfound := congrArg Prod.fst hperform
      simp only [perform, hattrs, Session.loadConnector] at hfound
      split at hfound
      · rename_i row hrow
        exact hrow.trans hfound
      · cases hfound
    have hrest := (Machine.Reaches.step .start hmoment.own trivial).trans hmoment.rest
    exact ⟨sys, hmoment.reached, hrest, hrow, fun h => by cases h⟩

/-- The discipline of the request, with what it has done as the ghost. -/
abbrev doing (rq : Incoming) (i : Nat)
    (sys₀ fin : System RegistryOp Session World Exc Response) :
    Discipline RegistryOp (Session × List (World × World)) :=
  registryMachine.changes (fun w : World => w.db) (fun before w w' =>
    rq.request.oneStep = true → before = [] ∧ Carried rq (WasSeen i sys₀ fin) w w') i sys₀ fin

/-- The program tells its client what the request has done. -/
abbrev Discloses (rq : Incoming) (i : Nat)
    (sys₀ fin : System RegistryOp Session World Exc Response) (k : Handler Response) (s : Session)
    (xs : List (World × World)) : Prop :=
  k.Obeys (doing rq i sys₀ fin) (fun r p => Told rq (WasSeen i sys₀ fin) (replied r) p.2) (s, xs)

/-- Only a commit changes the tables. -/
theorem step_quiet {o : RegistryOp β} (ho : o.isCommit = false) {w : World} {b : β} {s' : Session}
    {w' : World} (h : registryMachine.step i o s w = some (b, s', w')) : w'.db = w.db := by
  obtain ⟨hperform, -, -⟩ := registryMachine_step h
  obtain ⟨hdb, -, -⟩ := perform_refreshed (i := i) ho s w.toStore
  rw [hperform] at hdb
  exact hdb

theorem doing_await {o : RegistryOp β} {k : β → Handler α}
    {Q : Except Exc α → Session × List (World × World) → Prop} (ho : o.isCommit = false)
    (h : ∀ b s', Effect o s b s' → (k b).Obeys (doing rq i sys₀ fin) Q (s', xs)) :
    (await o >>= k).Obeys (doing rq i sys₀ fin) Q (s, xs) := by
  refine Machine.changes_quiet (step_quiet ho) ?_
  intro b s' sys sys' hmoment
  obtain ⟨hperform, -, -⟩ := registryMachine_step hmoment.step
  exact h b s' ⟨i, sys.world.toStore, by rw [hperform], by rw [hperform]⟩

/-- Reading a connector: one that the session did not have has been seen. -/
theorem doing_getConnector {id : Uuid} {forUpdate : Bool}
    {k : Option ConnectorRecord → Handler α}
    {Q : Except Exc α → Session × List (World × World) → Prop}
    (hstart : ∃ db₀ reqs, sys₀ = registry db₀ reqs)
    (h : ∀ found s', Effect (.getConnector id forUpdate) s found s' →
      (s.connectors id = none → ∀ r, found = some r → WasSeen i sys₀ fin forUpdate id r) →
      (k found).Obeys (doing rq i sys₀ fin) Q (s', xs)) :
    (await (.getConnector id forUpdate) >>= k).Obeys (doing rq i sys₀ fin) Q (s, xs) := by
  refine Machine.changes_quiet (step_quiet rfl) ?_
  intro found s' sys sys' hmoment
  obtain ⟨hperform, -, -⟩ := registryMachine_step hmoment.step
  refine h found s' ⟨i, sys.world.toStore, by rw [hperform], by rw [hperform]⟩ ?_
  rintro hnone r rfl
  exact seen_of_read hstart hmoment hnone

/-- A commit that has something to write, and what its client is told. -/
theorem doing_commit {k : Unit → Handler α} (response : Response)
    {Q : Except Exc α → Session × List (World × World) → Prop}
    (hstart : ∃ db₀ reqs, sys₀ = registry db₀ reqs)
    (hwrites : (s.flushed ++ s.pending).outbox ≠ [])
    (hdone : ∀ db db' : Db, s.LocksCurrent db → db'.toRows = s.contents db →
      Done rq.env (WasSeen i sys₀ fin) db db' rq.request response)
    (herr : ∀ e s', Q (.error (.db e)) (s', []))
    (hok : ∀ s' xs, Told rq (WasSeen i sys₀ fin) response xs →
      (k ()).Obeys (doing rq i sys₀ fin) Q (s', xs)) :
    (commit >>= k).Obeys (doing rq i sys₀ fin) Q (s, []) := by
  obtain ⟨db₀, reqs, rfl⟩ := hstart
  unfold commit await
  simp only [Prog.perform_bind, Prog.op_bind]
  refine Machine.changes_change (fun b _ => ∃ e, b = .error e) (fun b _ w w' => b = .ok () ∧
    Done rq.env (WasSeen i (registry db₀ reqs) fin) w.db w'.db rq.request response) ?_ ?_ ?_
  · intro b s' sys sys' hmoment
    obtain ⟨hperform, -, -⟩ := registryMachine_step hmoment.step
    rcases perform_commit_cases i s sys.world.toStore with
      ⟨e, hrefused⟩ | ⟨st', hrows, haccepted⟩
    · rw [hperform] at hrefused
      obtain ⟨rfl, -, hsame⟩ : b = _ ∧ s' = _ ∧ sys'.world.toStore = _ := by simpa using hrefused
      exact .inl ⟨⟨e, rfl⟩, congrArg Store.db hsame⟩
    · rw [hperform] at haccepted
      obtain ⟨rfl, -, hnew⟩ : b = _ ∧ s' = _ ∧ sys'.world.toStore = _ := by
        simpa using haccepted
      rw [← hnew] at hrows
      have hlocks := reaches_locksCurrent hmoment.reached i
      rw [hmoment.session] at hlocks
      have hdid := hdone _ _ hlocks hrows
      refine .inr ⟨⟨rfl, hdid⟩, ?_, fun _ => ⟨rfl, response, hdid⟩⟩
      intro hsame
      have houtbox := congrArg Rows.outbox hrows
      rw [hsame, Session.contents, Rows.append_outbox, List.self_eq_append_right] at houtbox
      exact hwrites houtbox
  · rintro b s' ⟨e, rfl⟩
    exact herr e s'
  · rintro b s' w w' ⟨rfl, hdid⟩
    exact hok s' _ (.once hdid)

/-! ## Connectors that were read -/

/-- What a session has loaded is stored, under the same tenant. -/
theorem reaches_loaded_tenant {reqs : Nat → Incoming} {db₀ : Db}
    {sys : System RegistryOp Session World Exc Response}
    (h : registryMachine.Reaches Machine.Any (registry db₀ reqs) sys) {c : Uuid}
    {r : ConnectorRecord} (hr : (sys.sessions i).Loaded c r) :
    ∃ stored, sys.world.db.connector c = some stored ∧ stored.tenantId = r.tenantId := by
  have hinv : RegistryInvariant reqs (fun _ _ _ _ => True) (fun _ => True) fun _ s db =>
      ∀ c r, s.Loaded c r → ∃ stored, db.connector c = some stored ∧
        stored.tenantId = r.tenantId := by
    refine .of_loaded (fun _ hstored => ⟨_, hstored, rfl⟩) ?_
    intro j ss db db' htx hdb _ _ hK
    have keep : ∀ c t, (∃ stored, db.connector c = some stored ∧ stored.tenantId = t) →
        ∃ stored, db'.connector c = some stored ∧ stored.tenantId = t := by
      rintro c t ⟨stored, hstored, rfl⟩
      obtain ⟨stored', hstored', hsame⟩ := connector_stays_same hdb hstored
      exact ⟨stored', hstored', hsame.tenantId⟩
    refine ⟨trivial, fun c r hloaded => ?_, fun c r => keep c r.tenantId⟩
    rcases htx.loaded_committed hdb hloaded with ⟨r₀, hr₀, hsame⟩ | hstored
    · rw [hsame.tenantId]
      exact keep c r₀.tenantId (hK j c r₀ hr₀)
    · exact ⟨r, hstored, rfl⟩
  have hmeets := h.mono (D := CommitsMeet fun _ _ _ _ => True) fun _ _ _ _ _ => trivial
  exact (hinv.reaches trivial hmeets).2 i c r hr

/-- The session is clean and has a connector of the tenant, readable or not. -/
structure Session.Knows (s : Session) (id : Uuid) (tenantId : String) : Prop where
  clean : s.Clean
  loaded : ∃ r, s.Loaded id r ∧ r.tenantId = tenantId

namespace Session.Knows

variable {id : Uuid} {tenantId : String}

theorem rolledBack (h : s.Knows id tenantId) : s.rolledBack.Knows id tenantId where
  clean := h.clean.rolledBack
  loaded := by
    obtain ⟨r, ⟨inst, hinst, rfl⟩, htenant⟩ := h.loaded
    exact ⟨inst.loaded, ⟨inst.expire, by simp [Session.rolledBack, hinst], rfl⟩, htenant⟩

/-- Neither end of a transaction that writes the connector loses it. -/
theorem writing (h : s.Knows id tenantId) (current : ConnectorRecord) (rows : Rows)
    (hid : current.id = id) (htenant : current.tenantId = tenantId) (hc : rows.connectors = [])
    (hv : rows.invocations = []) : (s.writing id current rows).committed.Knows id tenantId ∧
      (s.writing id current rows).rolledBack.Knows id tenantId := by
  obtain ⟨r, ⟨inst, hinst, rfl⟩, hr⟩ := h.loaded
  refine ⟨⟨h.clean.committed_writing hid hc hv, current,
    ⟨Instance.flushed { inst with current := current }, ?_, rfl⟩, htenant⟩,
    ⟨h.clean.rolledBack_writing, inst.loaded,
    ⟨Instance.expire { inst with current := current }, ?_, rfl⟩, hr⟩⟩
  · simp [Session.committed, Session.writing, h.clean.flushed, hc, hinst]
  · simp [Session.rolledBack, Session.writing, hinst]

theorem of_holds (hs : s.Clean) {r : ConnectorRecord} (held : s.Holds id r) :
    s.Knows id r.tenantId := ⟨hs, r, held.loaded, rfl⟩

/-- Read again it is found, and is the tenant's. -/
theorem get (h : s.Knows id tenantId) (st : Store) (forUpdate : Bool)
    (hstored : ∀ r, s.Loaded id r → ∃ stored, st.db.connector id = some stored ∧
      stored.tenantId = r.tenantId) :
    ∃ r, (perform i (.getConnector id forUpdate) s st).1 = some r ∧ r.tenantId = tenantId := by
  obtain ⟨r, hr, htenant⟩ := h.loaded
  obtain ⟨stored, hrow, hsame⟩ := hstored r hr
  obtain ⟨inst, hinst, rfl⟩ := hr
  simp only [perform]
  cases hattrs : s.connectorAttrs id with
  | some current =>
    obtain ⟨inst', hinst', -, rfl⟩ := h.clean.attrs_eq.mp hattrs
    rw [hinst] at hinst'
    cases hinst'
    exact ⟨inst.loaded, rfl, htenant⟩
  | none =>
    refine ⟨stored, ?_, hsame.trans htenant⟩
    simp [Session.loadConnector, hrow]

end Session.Knows

/-- Reading again a connector that the session has. -/
theorem getConnector_doing {id : Uuid} {tenantId : String} {forUpdate : Bool}
    {k : Option ConnectorRecord → Handler α}
    {Q : Except Exc α → Session × List (World × World) → Prop} (hs : s.Knows id tenantId)
    (hstart : ∃ db₀ reqs, sys₀ = registry db₀ reqs)
    (h : ∀ r s', s'.Knows id tenantId → s'.Holds id r → r.tenantId = tenantId →
      (k (some r)).Obeys (doing rq i sys₀ fin) Q (s', xs)) :
    (await (.getConnector id forUpdate) >>= k).Obeys (doing rq i sys₀ fin) Q (s, xs) := by
  obtain ⟨db₀, reqs, rfl⟩ := hstart
  refine Machine.changes_quiet (step_quiet rfl) ?_
  rintro found s' sys sys' ⟨hr, -, -, hsession, -, hst⟩
  obtain ⟨hperform, -, -⟩ := registryMachine_step hst
  have hread := hs.get (i := i) sys.world.toStore forUpdate fun r hloaded =>
    reaches_loaded_tenant hr (hsession ▸ hloaded)
  rw [hperform] at hread
  obtain ⟨r, hfound, htenant⟩ := hread
  obtain rfl : found = some r := hfound
  have heff : Effect (.getConnector id forUpdate) s (some r) s' :=
    ⟨i, sys.world.toStore, by rw [hperform], by rw [hperform]⟩
  obtain ⟨hs', -, -, hheld, -⟩ := hs.clean.effect_getConnector heff
  have held := hheld r rfl
  exact h r s' (htenant ▸ .of_holds hs' held) held htenant

/-- Refreshing a connector that the session has. -/
theorem refreshConnector_doing {id : Uuid} {tenantId : String}
    {k : Option ConnectorRecord → Handler α}
    {Q : Except Exc α → Session × List (World × World) → Prop} (hs : s.Knows id tenantId)
    (hstart : ∃ db₀ reqs, sys₀ = registry db₀ reqs)
    (h : ∀ r s', s'.Clean → s'.connectors id = some (.ofRow r true) → r.tenantId = tenantId →
      WasSeen i sys₀ fin true id r → (k (some r)).Obeys (doing rq i sys₀ fin) Q (s', xs)) :
    (await (.refreshConnector id) >>= k).Obeys (doing rq i sys₀ fin) Q (s, xs) := by
  obtain ⟨db₀, reqs, rfl⟩ := hstart
  refine Machine.changes_quiet (step_quiet rfl) ?_
  intro found s' sys sys' hmoment
  obtain ⟨hperform, -, -⟩ := registryMachine_step hmoment.step
  obtain ⟨r, hloaded, htenant⟩ := hs.loaded
  obtain ⟨stored, hrow, hsame⟩ :=
    reaches_loaded_tenant hmoment.reached (hmoment.session ▸ hloaded)
  have hfound : (perform i (.refreshConnector id) s sys.world.toStore).1 = some stored := by
    simp [perform, Session.loadConnector, hrow]
  rw [hperform] at hfound
  obtain rfl : found = some stored := hfound
  obtain ⟨hs', hheld⟩ := hs.clean.effect_refreshConnector
    ⟨i, sys.world.toStore, by rw [hperform], by rw [hperform]⟩
  exact h stored s' hs' (hheld stored rfl) (hsame.trans htenant)
    (seen_of_instance ⟨db₀, reqs, rfl⟩ hmoment (hheld stored rfl) rfl)

/-- A request that begins with a connector of its tenant: without one it is answered 404. -/
theorem Discloses.ofConnector {connectorId : Uuid} {tenantId : String}
    {k : ConnectorRecord → Handler Response} (hstart : ∃ db₀ reqs, sys₀ = registry db₀ reqs)
    (h : ∀ record s', s'.Clean → s'.Holds connectorId record → record.tenantId = tenantId →
      WasSeen i sys₀ fin false connectorId record → Discloses rq i sys₀ fin (k record) s' []) :
    Discloses rq i sys₀ fin (tenantConnector connectorId tenantId >>= k) Session.fresh [] := by
  unfold tenantConnector
  rw [Prog.bind_assoc']
  refine doing_getConnector hstart ?_
  intro found s' heff hseen
  obtain ⟨hs', -, -, hheld, -⟩ := Session.fresh_clean.effect_getConnector heff
  cases hfilter : found.filter (·.tenantId = tenantId) with
  | none => exact .failed (by decide : 400 ≤ 404)
  | some record =>
    obtain ⟨hrecord, htenant⟩ := Option.filter_eq_some_iff.mp hfilter
    exact h record s' hs' (hheld record hrecord) (of_decide_eq_true htenant)
      (hseen rfl record hrecord)

/-! ## Requests with one transaction -/

/-- `apply` ends with the transition, or with nothing done. -/
theorem apply_doing (ask : Ask) (hs : s.Clean) (hstart : ∃ db₀ reqs, sys₀ = registry db₀ reqs)
    (hasked : ∀ record, (∀ r, s.Holds ask.connectorId r → record = r) →
      rq.request.asked rq.env record = some ask)
    (hfirst : s.connectors ask.connectorId = none ∨ rq.request.rotates = true ∧
      ∃ r, s.Holds ask.connectorId r ∧ WasSeen i sys₀ fin false ask.connectorId r) :
    (apply rq.env ask.connectorId ask.target ask.event ask.caller.actorId ask.caller.tenantId
      ask.reason ask.idempotencyKey).Obeys (doing rq i sys₀ fin) (fun r p => match r with
        | .ok result =>
          Told rq (WasSeen i sys₀ fin) ⟨200, .connector (toSchema result.connector)⟩ p.2
        | .error e => Told rq (WasSeen i sys₀ fin) (refusalResponse e).respond p.2) (s, []) := by
  unfold apply
  refine doing_getConnector hstart ?_
  intro found s' heff hseen
  obtain ⟨hs', -, -, hheld, hhit⟩ := hs.effect_getConnector heff
  cases hfilter : found.filter (·.tenantId = ask.caller.tenantId) with
  | none => exact .failed (by decide)
  | some record =>
    obtain ⟨rfl, htenant⟩ := Option.filter_eq_some_iff.mp hfilter
    have htenant : record.tenantId = ask.caller.tenantId := of_decide_eq_true htenant
    obtain ⟨inst, hinst, hread, hloaded⟩ := hheld record rfl
    have hid : record.id = ask.connectorId := hs'.holds_id (hheld record rfl)
    have hask : rq.request.asked rq.env record = some ask :=
      hasked record fun r hr => Option.some.inj (hhit r hr).1
    have hread : WasSeen i sys₀ fin (!rq.request.rotates) ask.connectorId record := by
      rcases hfirst with hnone | ⟨hrotates, r, hr, hbefore⟩
      · exact (hseen hnone record rfl).weaken
      · rw [hrotates, Option.some.inj (hhit r hr).1]
        exact hbefore
    dsimp only
    cases hfind : find record.status.value ask.target.value ask.event with
    | error exc =>
      cases hrepeat : idempotentRepeat record.status.value ask.target.value with
      | none => exact .failed (by decide : 400 ≤ 409)
      | some edge => exact .nothing (.repeated hask htenant hread hrepeat)
    | ok tr =>
      dsimp only
      by_cases hreason : reasonMissing tr ask.reason = true
      · rw [if_pos hreason]
        exact .failed (by decide : 400 ≤ 422)
      rw [if_neg hreason]
      refine doing_await rfl ?_
      intro _ s₁ h₁
      refine doing_await rfl ?_
      intro _ s₂ h₂
      refine doing_await rfl ?_
      intro _ s₃ h₃
      obtain rfl := hs'.effect_setConnector h₁
      obtain rfl := effect_addAudit h₂
      obtain rfl := effect_enqueue h₃
      rw [advance_id, hid]
      change (commit >>= _).Obeys (doing rq i sys₀ fin) _ (s'.writing ask.connectorId
        (advance rq.env record tr ask.reason) (transitionRows rq.env ask record tr), [])
      refine doing_commit ⟨200, .connector (toSchema (advance rq.env record tr ask.reason))⟩ hstart
        ?_ ?_ ?_ ?_
      · simp [Session.writing, hs'.flushed, transitionRows]
      · intro db db' hcurrent hdb
        refine .moved hask htenant hread ?_ hfind (by simpa using hreason) ?_
        · intro hrotates
          have hnone := hfirst.resolve_right fun h => by simp [hrotates] at h
          -- the lock: the row that was read is the one that is stored
          have hlocked := effect_getConnector_locked heff hnone rfl
          exact hcurrent ask.connectorId { Instance.ofRow record true with
            current := advance rq.env record tr ask.reason } (by simp [Session.writing, hlocked])
            rfl
        · rw [hdb, hs'.contents_writing hinst, hloaded]
      · exact fun e s' => .failed (by decide : 400 ≤ 500)
      · exact fun s' xs htold => htold

theorem transition_doing (hs : s.Clean) (hstart : ∃ db₀ reqs, sys₀ = registry db₀ reqs)
    {connectorId : Uuid} {caller : CallerIdentity} {target : ConnectorState}
    {event : Option ConnectorEvent} {body : Option TransitionRequest}
    (hasked : ∀ record, (∀ r, s.Holds connectorId r → record = r) →
      rq.request.asked rq.env record = some (.ofBody caller connectorId target event body))
    (hfirst : s.connectors connectorId = none ∨ rq.request.rotates = true ∧
      ∃ r, s.Holds connectorId r ∧ WasSeen i sys₀ fin false connectorId r) :
    Discloses rq i sys₀ fin (transition rq.env connectorId caller target event body) s [] := by
  refine Prog.Obeys.bind (Prog.Obeys.tryCatch ?_)
  have happly := apply_doing (i := i) (.ofBody caller connectorId target event body) hs hstart
    hasked hfirst
  refine happly.mono ?_
  intro r p htold
  cases r with
  | ok result => exact htold
  | error e => exact htold

theorem createConnector_doing (hstart : ∃ db₀ reqs, sys₀ = registry db₀ reqs)
    {caller : CallerIdentity} {payload : ConnectorCreate}
    (hrequest : rq.request = .createConnector caller payload) :
    Discloses rq i sys₀ fin (createConnector rq.env caller payload) Session.fresh [] := by
  unfold createConnector
  by_cases hkind : payload.kind ∉ registeredKinds
  · rw [if_pos hkind]
    exact .failed (by decide : 400 ≤ 422)
  rw [if_neg hkind]
  unfold validateConfig requireAdapter
  rw [if_pos (not_not.mp hkind), Prog.ret_bind, Prog.bind_assoc']
  refine doing_await rfl ?_
  intro _ s₁ h₁
  obtain rfl := effect_callAdapter h₁
  simp only [Prog.pure_eq, Prog.ret_bind]
  by_cases hvalid : (rq.env.validateConfig payload.kind (effectiveConfig payload)).valid = true
  · rw [if_neg (by simp [hvalid])]
    refine doing_await rfl ?_
    intro _ s₂ h₂
    obtain ⟨_, _, -, rfl⟩ := h₂
    refine doing_await rfl ?_
    intro flushed s₃ h₃
    rcases effect_flush h₃ with ⟨rfl, rfl⟩ | ⟨⟨e, rfl⟩, -⟩
    · refine doing_await rfl ?_
      intro _ s₄ h₄
      refine doing_await rfl ?_
      intro _ s₅ h₅
      obtain rfl := effect_addAudit h₄
      obtain rfl := effect_enqueue h₅
      change (commit >>= _).Obeys (doing rq i sys₀ fin) _ (creating rq.env caller payload, [])
      refine doing_commit ⟨201, .connector (toSchema (newConnector rq.env caller payload))⟩ hstart
        ?_ ?_ ?_ ?_
      · simp [creating]
      · intro db db' _ hdb
        exact .created hrequest hvalid (hdb.trans (contents_creating rq.env caller payload db))
      · exact fun e s' => .failed (by decide : 400 ≤ 500)
      · exact fun s' xs htold => htold
    · cases e with
      | integrity =>
        refine doing_await rfl ?_
        intro _ s₄ _
        exact .failed (by decide : 400 ≤ 409)
      | data => exact .failed (by decide : 400 ≤ 500)
  · rw [if_pos (by simpa using hvalid)]
    exact .failed (by decide : 400 ≤ 422)

theorem requestConnectorDeletion_doing (hstart : ∃ db₀ reqs, sys₀ = registry db₀ reqs)
    {caller : CallerIdentity} {connectorId : Uuid}
    (hrequest : rq.request = .requestConnectorDeletion caller connectorId) :
    Discloses rq i sys₀ fin (requestConnectorDeletion rq.env caller connectorId) Session.fresh
      [] := by
  unfold requestConnectorDeletion
  refine .ofConnector hstart ?_
  intro found s₁ hs₁ hheld hfound _
  have hknows : s₁.Knows connectorId caller.tenantId := hfound ▸ .of_holds hs₁ hheld
  refine refreshConnector_doing hknows hstart ?_
  intro record s₂ hs₂ hinst htenant hread
  have hid : record.id = connectorId := (hs₂.connectors hinst).2
  dsimp only
  by_cases hdeleted : record.status = .deleted
  · rw [if_pos hdeleted]
    exact .failed (by decide : 400 ≤ 410)
  rw [if_neg hdeleted]
  by_cases hrequested : record.status = .deletionRequested
  · rw [if_pos hrequested]
    exact .nothing (.alreadyRequested hrequest htenant hread hrequested)
  rw [if_neg hrequested]
  refine doing_await rfl ?_
  intro _ s₃ h₃
  refine doing_await rfl ?_
  intro _ s₄ h₄
  obtain rfl := hs₂.effect_setConnector h₃
  obtain rfl := effect_enqueue h₄
  subst hid
  change (commit >>= _).Obeys (doing rq i sys₀ fin) _ (s₂.writing record.id
    (withDeletionRequested rq.env caller record) { outbox := [deletionEvent rq.env caller
      record.id (withDeletionRequested rq.env caller record)] }, [])
  refine doing_commit ⟨204, .empty⟩ hstart ?_ ?_ ?_ ?_
  · simp [Session.writing, hs₂.flushed]
  · intro db db' hcurrent hdb
    refine .deleted hrequest htenant ?_ ⟨hdeleted, hrequested⟩ ?_
    · exact hcurrent record.id { Instance.ofRow record true with
        current := withDeletionRequested rq.env caller record } (by simp [Session.writing, hinst])
        rfl
    · rw [hdb, hs₂.contents_writing hinst]
      rfl
  · exact fun e s' => .failed (by decide : 400 ≤ 500)
  · exact fun s' xs htold => htold

/-! ## Requests with several transactions -/

/-- A request with several transactions may do anything; what it has done is known no more. -/
theorem doing_any {o : RegistryOp β} {k : β → Handler α}
    {Q : Except Exc α → Session × List (World × World) → Prop}
    (hsteps : rq.request.oneStep = false)
    (h : ∀ b s' xs', Effect o s b s' → (k b).Obeys (doing rq i sys₀ fin) Q (s', xs')) :
    (await o >>= k).Obeys (doing rq i sys₀ fin) Q (s, xs) := by
  refine ⟨?_, ?_⟩
  · intro b s' sys sys' _
    refine .inr fun hone => ?_
    rw [hsteps] at hone
    cases hone
  · rintro b ⟨s', xs'⟩ ⟨sys, sys', hmoment, -⟩
    obtain ⟨hperform, -, -⟩ := registryMachine_step hmoment.step
    exact h b s' xs' ⟨i, sys.world.toStore, by rw [hperform], by rw [hperform]⟩

/-- The transition of a verdict keeps the connector in the session, and raises nothing that a client
    would be told with 4xx. -/
theorem apply_knows {connectorId : Uuid} {tenantId : String} (hs : s.Knows connectorId tenantId)
    (hsteps : rq.request.oneStep = false) (hstart : ∃ db₀ reqs, sys₀ = registry db₀ reqs)
    {target : ConnectorState} {event : Option ConnectorEvent} {actorId : String}
    {reason key : Option String} :
    (apply rq.env connectorId target event actorId tenantId reason key).Obeys (doing rq i sys₀ fin)
      (fun r p => p.1.Knows connectorId tenantId ∧
        ∀ e, r = .error e → e.respond.isRefusal = false) (s, xs) := by
  unfold apply
  refine getConnector_doing hs hstart ?_
  intro record s' hs' held htenant
  have hfilter : (some record).filter (·.tenantId = tenantId) = some record := by
    simp [htenant]
  simp only [hfilter]
  cases hfind : find record.status.value target.value event with
  | error exc =>
    cases idempotentRepeat record.status.value target.value with
    | none => exact ⟨hs', fun e he => by cases he; rfl⟩
    | some edge => exact ⟨hs', fun e he => by cases he⟩
  | ok tr =>
    dsimp only
    by_cases hreason : reasonMissing tr reason = true
    · rw [if_pos hreason]
      exact ⟨hs', fun e he => by cases he; rfl⟩
    rw [if_neg hreason]
    refine doing_any hsteps ?_
    intro _ s₁ xs₁ h₁
    refine doing_any hsteps ?_
    intro _ s₂ xs₂ h₂
    refine doing_any hsteps ?_
    intro _ s₃ xs₃ h₃
    obtain rfl := hs'.clean.effect_setConnector h₁
    obtain rfl := effect_addAudit h₂
    obtain rfl := effect_enqueue h₃
    have hid : record.id = connectorId := hs'.clean.holds_id held
    obtain ⟨hcommitted, hrolledBack⟩ := hs'.writing (advance rq.env record tr reason)
      ⟨[], [transitionAudit rq.env record tr actorId tenantId reason key], [],
        [transitionEvent rq.env record tr actorId tenantId reason]⟩
      ((advance_id ..).trans hid) ((advance_tenantId ..).trans htenant) rfl rfl
    rw [advance_id, hid]
    unfold commit
    rw [Prog.bind_assoc']
    refine doing_any hsteps ?_
    intro b s₄ xs₄ h₄
    rcases effect_commit h₄ with ⟨rfl, rfl⟩ | ⟨⟨e, rfl⟩, rfl⟩
    · exact ⟨hcommitted, fun e he => by cases he⟩
    · exact ⟨hrolledBack, fun e he => by cases he; rfl⟩

/-- The end of a validation: the connector is there to be written. -/
theorem touch_doing {connectorId : Uuid} {tenantId : String} (hs : s.Knows connectorId tenantId)
    (hsteps : rq.request.oneStep = false) (hstart : ∃ db₀ reqs, sys₀ = registry db₀ reqs)
    (report : ValidationResult) :
    Discloses rq i sys₀ fin (tenantConnector connectorId tenantId >>= fun record =>
      await (.setConnector (withCapability record report)) >>= fun _ =>
        commit >>= fun _ => .ret ⟨200, .report report⟩) s xs := by
  unfold tenantConnector
  rw [Prog.bind_assoc']
  refine getConnector_doing hs hstart ?_
  intro record s₁ _ _ htenant
  have hfilter : (some record).filter (·.tenantId = tenantId) = some record := by
    simp [htenant]
  simp only [hfilter]
  refine doing_any hsteps ?_
  intro _ s₂ xs₂ _
  unfold commit
  rw [Prog.bind_assoc']
  refine doing_any hsteps ?_
  intro b s₃ xs₃ _
  cases b with
  | ok _ => exact .manySteps hsteps fun h => by cases h
  | error e => exact .manySteps hsteps fun h => by cases h

theorem validateConnector_doing (hstart : ∃ db₀ reqs, sys₀ = registry db₀ reqs)
    {caller : CallerIdentity} {connectorId : Uuid}
    (hrequest : rq.request = .validateConnector caller connectorId) :
    Discloses rq i sys₀ fin (validateConnector rq.env caller connectorId) Session.fresh [] := by
  have hsteps : rq.request.oneStep = false := by rw [hrequest]; rfl
  unfold validateConnector
  refine .ofConnector hstart ?_
  intro record s₁ hs₁ hheld htenant _
  have hknows : s₁.Knows connectorId caller.tenantId := htenant ▸ .of_holds hs₁ hheld
  unfold validateConfig requireAdapter
  split
  swap
  · exact .manySteps hsteps fun _ => rfl
  simp only [Prog.ret_bind, Prog.bind_assoc', Prog.pure_eq]
  refine doing_await rfl ?_
  intro _ s₂ h₂
  obtain rfl := effect_callAdapter h₂
  unfold recordVerdict
  refine Prog.Obeys.bind (Prog.Obeys.tryCatch (Prog.Obeys.bind ?_))
  refine (apply_knows hknows hsteps hstart).mono ?_
  rintro (e | result) ⟨s₃, xs₃⟩ ⟨hs₃, herr⟩
  · have hraised : Told rq (WasSeen i sys₀ fin) e.respond xs₃ := .manySteps hsteps fun h => by
      rw [herr e rfl] at h
      cases h
    cases e with
    | transitionRejected =>
      refine doing_any hsteps ?_
      intro _ s₄ xs₄ h₄
      obtain rfl := effect_rollback h₄
      exact touch_doing hs₃.rolledBack hsteps hstart _
    | _ => exact hraised
  · exact touch_doing hs₃ hsteps hstart _

/-! ## Invocations -/

/-- Nothing is refused any more. -/
def NotRefused {α : Type} : Except Exc α → Prop
  | .ok _ => True
  | .error e => e.respond.isRefusal = false

theorem accept_notRefused {env : Env} {connector : ConnectorRecord} {args : AcceptArgs} :
    (accept env connector args).Obeys (.anything RegistryOp) (fun r _ => NotRefused r) () := by
  unfold accept
  refine ⟨trivial, fun found _ _ => ?_⟩
  cases found with
  | some existing => trivial
  | none =>
    refine ⟨trivial, fun _ _ _ => ⟨trivial, fun flushed _ _ => ?_⟩⟩
    cases flushed with
    | ok _ =>
      refine ⟨trivial, fun _ _ _ => ⟨trivial, fun committed _ _ => ?_⟩⟩
      cases committed with
      | ok _ => trivial
      | error e => rfl
    | error e =>
      cases e with
      | data => rfl
      | integrity =>
        refine ⟨trivial, fun _ _ _ => ⟨trivial, fun again _ _ => ?_⟩⟩
        cases again with
        | none => rfl
        | some existing => trivial

theorem finalise_notRefused {env : Env} {record : InvocationRecord} {result : InvocationResult} :
    (finalise env record result).Obeys (.anything RegistryOp) (fun r _ => NotRefused r) () := by
  unfold finalise
  refine ⟨trivial, fun _ _ _ => ?_⟩
  cases terminalEvent result.status with
  | none => rfl
  | some event =>
    refine ⟨trivial, fun _ _ _ => ⟨trivial, fun committed _ _ => ?_⟩⟩
    cases committed with
    | ok _ => trivial
    | error e => rfl

theorem execute_notRefused {env : Env} {connector : ConnectorRecord} {record : InvocationRecord}
    {payload : Dict String} :
    (execute env connector record payload).Obeys (.anything RegistryOp) (fun r _ => NotRefused r)
      () := by
  unfold execute
  split
  · exact finalise_notRefused
  · refine ⟨trivial, fun _ _ _ => ⟨trivial, fun _ _ _ => ⟨trivial, fun committed _ _ => ?_⟩⟩⟩
    cases committed with
    | ok _ => exact ⟨trivial, fun _ _ _ => finalise_notRefused⟩
    | error e => rfl

/-- The status code of an invocation refuses nothing. -/
theorem httpStatusFor_notRefused (record : InvocationRecord) (body : Body) :
    (Response.mk (httpStatusFor record) body).isRefusal = false := by
  unfold Response.isRefusal httpStatusFor
  split
  · rfl
  · split
    · rfl
    · split <;> rfl

/-- From here on the request may do anything but refuse. -/
theorem Told.accepted {k : Handler Response} (hsteps : rq.request.oneStep = false)
    (h : k.Obeys (.anything RegistryOp) (fun r _ => (replied r).isRefusal = false) ()) :
    Discloses rq i sys₀ fin k s xs := by
  have hpre : ∀ {β : Type} (o : RegistryOp β) p, (doing rq i sys₀ fin).pre o p := by
    intro β o p b s' sys sys' _
    refine .inr fun hone => ?_
    rw [hsteps] at hone
    cases hone
  refine (h.anywhere hpre (s, xs)).mono ?_
  intro r p hr
  refine .manySteps hsteps fun hrefused => ?_
  rw [hr] at hrefused
  cases hrefused

theorem invokeConnectorV1_doing (hstart : ∃ db₀ reqs, sys₀ = registry db₀ reqs)
    {caller : CallerIdentity} {connectorId : Uuid} {payload : InvocationCreate}
    {xRequestId traceparent : Option String} (hrequest : rq.request =
      .invokeConnectorV1 caller connectorId payload xRequestId traceparent) :
    Discloses rq i sys₀ fin
      (invokeConnectorV1 rq.env caller connectorId payload xRequestId traceparent) Session.fresh
      [] := by
  have hsteps : rq.request.oneStep = false := by rw [hrequest]; rfl
  unfold invokeConnectorV1
  refine .ofConnector hstart ?_
  intro record s₁ _ _ _ _
  rcases requireExecutable_cases record with hexec | ⟨e, hraise⟩
  swap
  · rw [hraise]
    exact .manySteps hsteps fun _ => rfl
  rw [hexec, Prog.ret_bind]
  refine Told.accepted hsteps (Prog.Obeys.bind (accept_notRefused.mono ?_))
  rintro (e | ⟨invocation, replay⟩) _ hr
  · exact hr
  cases replay with
  | some existing => exact httpStatusFor_notRefused invocation _
  | none =>
    refine Prog.Obeys.bind (execute_notRefused.mono ?_)
    rintro (e | invocation') _ hr
    · exact hr
    · exact httpStatusFor_notRefused invocation' _

theorem internalReply_notRefused {connectorId : Uuid} {invocation : InvocationRecord} :
    (internalReply connectorId invocation).Obeys (.anything RegistryOp)
      (fun r _ => (replied r).isRefusal = false) () := by
  unfold internalReply
  refine ⟨trivial, fun attrs _ _ => ?_⟩
  cases attrs with
  | none => rfl
  | some record => exact httpStatusFor_notRefused invocation _

theorem invokeConnectorInternal_doing (hstart : ∃ db₀ reqs, sys₀ = registry db₀ reqs)
    {token tenantId : String} {connectorId : Uuid} {payload : Dict String}
    (hrequest : rq.request = .invokeConnectorInternal token tenantId connectorId payload) :
    Discloses rq i sys₀ fin (invokeConnectorInternal rq.env token tenantId connectorId payload)
      Session.fresh [] := by
  have hsteps : rq.request.oneStep = false := by rw [hrequest]; rfl
  unfold invokeConnectorInternal
  rcases requireInternalCaller_cases rq.env token with hret | ⟨e, hraise⟩
  swap
  · rw [hraise]
    exact .manySteps hsteps fun _ => rfl
  rw [hret, Prog.ret_bind]
  by_cases htenant : tenantId = ""
  · rw [if_pos htenant]
    exact .failed (by decide : 400 ≤ 400)
  rw [if_neg htenant]
  refine .ofConnector hstart ?_
  intro record s₁ _ _ _ _
  rcases requireExecutable_cases record with hexec | ⟨e, hraise⟩
  swap
  · rw [hraise]
    exact .manySteps hsteps fun _ => rfl
  rw [hexec, Prog.ret_bind]
  cases agentInput payload with
  | none => exact .failed (by decide : 400 ≤ 500)
  | some body =>
    refine Told.accepted hsteps (Prog.Obeys.bind (accept_notRefused.mono ?_))
    rintro (e | ⟨invocation, replay⟩) _ hr
    · exact hr
    cases replay with
    | some existing => exact internalReply_notRefused
    | none =>
      refine Prog.Obeys.bind (execute_notRefused.mono ?_)
      rintro (e | invocation') _ hr
      · exact hr
      · exact internalReply_notRefused

/-! ## Every request -/

/-- Every request does what its client is told. -/
theorem handler_doing (hstart : ∃ db₀ reqs, sys₀ = registry db₀ reqs) :
    Discloses rq i sys₀ fin (handler rq.env rq.request) Session.fresh [] := by
  have hs := Session.fresh_clean
  have hnone : ∀ c, Session.fresh.connectors c = none := fun _ => rfl
  cases hrequest : rq.request with
  | listConnectors caller includeDeleted =>
    refine doing_await rfl ?_
    intro found s₁ _
    exact .read (by rw [hrequest]; rfl)
  | getConnector caller connectorId =>
    refine .ofConnector hstart ?_
    intro record s₁ _ _ _ _
    exact .read (by rw [hrequest]; rfl)
  | createConnector caller payload => exact createConnector_doing hstart hrequest
  | validateConnector caller connectorId => exact validateConnector_doing hstart hrequest
  | connectorHealth caller connectorId =>
    refine .ofConnector hstart ?_
    intro record s₁ _ _ _ _
    have hread : rq.request.isRead = true := by rw [hrequest]; rfl
    unfold requireAdapter
    split
    · refine doing_await rfl ?_
      intro _ s₂ _
      exact .read hread
    · exact .read hread
  | requestConnectorDeletion caller connectorId =>
    exact requestConnectorDeletion_doing hstart hrequest
  | installConnector caller connectorId body =>
    exact transition_doing hs hstart (fun _ _ => by rw [hrequest]; rfl) (.inl (hnone _))
  | configureConnector caller connectorId body =>
    exact transition_doing hs hstart (fun _ _ => by rw [hrequest]; rfl) (.inl (hnone _))
  | enableConnector caller connectorId body =>
    exact transition_doing hs hstart (fun _ _ => by rw [hrequest]; rfl) (.inl (hnone _))
  | disableConnector caller connectorId body =>
    exact transition_doing hs hstart (fun _ _ => by rw [hrequest]; rfl) (.inl (hnone _))
  | rotateConnectorCredentials caller connectorId body =>
    refine .ofConnector hstart ?_
    intro record s₁ hs₁ hheld _ hread
    refine transition_doing hs₁ hstart (fun record' h => ?_)
      (.inr ⟨by rw [hrequest]; rfl, record, hheld, hread⟩)
    rw [h record hheld, hrequest]
    rfl
  | revokeConnector caller connectorId body =>
    exact transition_doing hs hstart (fun _ _ => by rw [hrequest]; rfl) (.inl (hnone _))
  | archiveConnector caller connectorId body =>
    exact transition_doing hs hstart (fun _ _ => by rw [hrequest]; rfl) (.inl (hnone _))
  | connectorAudit caller connectorId =>
    refine .ofConnector hstart ?_
    intro record s₁ _ _ _ _
    refine doing_await rfl ?_
    intro found s₂ _
    exact .read (by rw [hrequest]; rfl)
  | invokeConnectorV1 caller connectorId payload xRequestId traceparent =>
    exact invokeConnectorV1_doing hstart hrequest
  | listInvocations caller connectorId statusFilter limit before =>
    refine doing_await rfl ?_
    intro found s₁ _
    exact .read (by rw [hrequest]; rfl)
  | getInvocation caller invocationId =>
    refine doing_await rfl ?_
    intro found s₁ _
    have hread : rq.request.isRead = true := by rw [hrequest]; rfl
    cases found.filter (·.tenantId = caller.tenantId) with
    | none => exact .read hread
    | some record => exact .read hread
  | invokeConnectorInternal token tenantId connectorId payload =>
    exact invokeConnectorInternal_doing hstart hrequest

/-- And the program that serves it. -/
theorem program_doing (hstart : ∃ db₀ reqs, sys₀ = registry db₀ reqs) :
    rq.program.Obeys (doing rq i sys₀ fin)
      (fun r p => ∀ response, r = .ok response → Told rq (WasSeen i sys₀ fin) response p.2)
      (Session.fresh, []) := by
  refine Prog.Obeys.tryCatch (Prog.Obeys.finallyDo ((handler_doing hstart).mono ?_))
  rintro r ⟨s, xs⟩ htold
  refine ⟨Machine.changes_pre (step_quiet rfl), ?_⟩
  rintro ⟨s', xs'⟩ heff
  obtain ⟨hxs, -⟩ := Machine.changes_eff (step_quiet rfl) heff
  have hxs' : xs' = xs := hxs
  subst hxs'
  cases r with
  | ok response =>
    intro response' hresponse
    cases hresponse
    exact htold
  | error e =>
    intro response hresponse
    cases hresponse
    exact htold

end Walk

/-! ## In every run -/

/-- **A client is told what was done.**  At every moment of every run, a request with one
    transaction has left the tables alone, in all its steps, or it has changed them in one step,
    which did what the request asks for, as a whole.  Once a request is answered, the answer says
    which: after a 4xx it has changed nothing, and a request with one transaction has done exactly
    what the answer shows, or nothing where the connector it had locked left nothing to do. -/
theorem answers_disclose_effects (reqs : Nat → Incoming) (db₀ : Db)
    {sys : System RegistryOp Session World Exc Response}
    (h : registryMachine.Reaches Machine.Any (registry db₀ reqs) sys) (i : Nat) :
    ∃ xs, registryMachine.History (fun w : World => w.db) i (registry db₀ reqs) xs sys ∧
      ((reqs i).request.oneStep = true →
        xs = [] ∨ ∃ w w', xs = [(w, w')] ∧
          Carried (reqs i) (WasSeen i (registry db₀ reqs) sys) w w') ∧
      ∀ response, (sys.threads i).prog = .ret response →
        Told (reqs i) (WasSeen i (registry db₀ reqs) sys) response xs := by
  obtain ⟨xs, hhistory, hallowed, hobeys⟩ := h.history (fun _ _ => rfl)
    (fun _ _ hresponse => (by cases hresponse)) (program_doing ⟨db₀, reqs, rfl⟩)
  refine ⟨xs, hhistory, fun hone => Allowed.once fun before w w' after hxs => ?_, ?_⟩
  · exact hallowed before w w' after hxs hone
  · intro response hret
    rw [hret] at hobeys
    exact hobeys response rfl

/-- Everybody creates the same connector. -/
def createdByAll (n : Nat) : Incoming := ⟨sampleEnv (10 * n), sampleEnabled.request⟩

/-- The second creation waits at its flush for the first to commit. -/
def createdInTurn : List Nat := [0, 0, 0, 1, 1, 1, 0, 0, 0, 0, 1, 1, 1]

set_option maxRecDepth 10000 in
/-- The second client is told 409, and no step of its request has changed anything. -/
theorem answers_disclose_effects_createdByAll :
    let sys := registryMachine.schedule createdInTurn (registry Db.empty createdByAll)
    (sys.threads 1).prog = .ret ⟨409, .detail (jsonStr "Connector named 'github' already exists")⟩ ∧
      registryMachine.History (fun w : World => w.db) 1 (registry Db.empty createdByAll) []
        sys := by
  intro sys
  have hret : (sys.threads 1).prog =
      .ret ⟨409, .detail (jsonStr "Connector named 'github' already exists")⟩ :=
    Prog.eq_ret_of_returned (by decide +kernel)
  have hreach : registryMachine.Reaches Machine.Any (registry Db.empty createdByAll) sys :=
    Machine.reaches_schedule _ _
  clear_value sys
  obtain ⟨xs, hhistory, -, htold⟩ := answers_disclose_effects createdByAll Db.empty hreach 1
  obtain rfl : xs = [] := (htold _ hret).refused rfl
  exact ⟨hret, hhistory⟩

end FavlGateway.Registry
