/-
  An invocation and its events tell the same story.

  The events of an invocation are numbered without a gap up to its `aggregate_version`, their
  subjects are those of its status (`LogShape`), and the last one carries that status.  Each of the
  three writes an invocation goes through extends the log by one event, and is committed by the
  request that inserted the row, from the row as it is stored (`Ownership`); so the story holds
  across any interleaving, and ends with the first terminal status.

  From there on the row answers every replay that passes the gate: the token of an internal caller,
  its tenant header, and the state of the connector, as it is stored when the request comes.
  `replays_standing` follows the program of ONE later request through a run in which everybody else
  does what they like.
-/
import FavlGateway.Registry.Idempotency

namespace FavlGateway.Registry

open FavlGateway.Library

/-! ## The log of an invocation -/

/-- The status an event's payload records. -/
def OutboxEvent.recordedStatus (e : OutboxEvent) : Option (Json String) :=
  match e.payload with
  | .obj members => Dict.get? members "status"
  | _ => none

/-- The subjects of an invocation's events, by its status. -/
inductive LogShape : InvocationStatus → List String → Prop where
  | accepted : LogShape .accepted [acceptedEvent]
  | running : LogShape .running [acceptedEvent, startedEvent]
  | refused {status : InvocationStatus} {event : String} (h : terminalEvent status = some event) :
      LogShape status [acceptedEvent, event]
  | finished {status : InvocationStatus} {event : String} (h : terminalEvent status = some event) :
      LogShape status [acceptedEvent, startedEvent, event]

/-- The events of an invocation agree with its row. -/
structure Logged (db : Db) (r : InvocationRecord) : Prop where
  versions : (db.invocationEvents r.id).map (·.aggregateVersion) =
    List.range' 1 r.aggregateVersion
  subjects : LogShape r.status ((db.invocationEvents r.id).map (·.subject))
  last : (db.invocationEvents r.id).getLast?.bind OutboxEvent.recordedStatus =
    some (jsonStr r.status.value)

/-- Every invocation is logged, and there are no events without a row. -/
structure AllLogged (db : Db) : Prop where
  row : ∀ {v r}, db.invocation v = some r → Logged db r
  known : ∀ {v}, db.invocation v = none → db.invocationEvents v = []

/-- What one step may do to a row. -/
inductive Moves (r : InvocationRecord) : InvocationRecord → Prop where
  | same : Moves r r
  | started {r' : InvocationRecord} (before : r.status = .accepted) (after : r'.status = .running) :
      Moves r r'
  | finished {r' : InvocationRecord} (before : r.status.inFlight = true)
      (after : r'.status.inFlight = false) : Moves r r'

theorem terminal_not_inFlight {status : InvocationStatus} {event : String}
    (h : terminalEvent status = some event) : status.inFlight = false := by
  cases status <;> first | rfl | cases h

/-- An accepted row starts. -/
theorem LogShape.begin {subjects : List String} (h : LogShape .accepted subjects) :
    LogShape .running (subjects ++ [startedEvent]) := by
  cases h with
  | accepted => exact .running
  | refused h => cases h
  | finished h => cases h

/-- A row in flight ends. -/
theorem LogShape.extend {status : InvocationStatus} {subjects : List String} {event : String}
    {next : InvocationStatus} (h : LogShape status subjects) (hstatus : status.inFlight = true)
    (hnext : terminalEvent next = some event) : LogShape next (subjects ++ [event]) := by
  cases h with
  | accepted => exact .refused hnext
  | running => exact .finished hnext
  | refused h => rw [terminal_not_inFlight h] at hstatus; cases hstatus
  | finished h => rw [terminal_not_inFlight h] at hstatus; cases hstatus

/-- No event of a row in flight is a terminal one. -/
theorem LogShape.not_terminal {status : InvocationStatus} {subjects : List String}
    (h : LogShape status subjects) (hstatus : status.inFlight = true) {subject : String}
    (hmem : subject ∈ subjects) (other : InvocationStatus) :
    terminalEvent other ≠ some subject := by
  have hterminal : ∀ subject ∈ [acceptedEvent, startedEvent],
      terminalEvent other ≠ some subject := by
    cases other <;> decide
  cases h with
  | accepted => exact hterminal subject (List.mem_append_left [startedEvent] hmem)
  | running => exact hterminal subject hmem
  | refused h => rw [terminal_not_inFlight h] at hstatus; cases hstatus
  | finished h => rw [terminal_not_inFlight h] at hstatus; cases hstatus

/-- The last event of a row that has ended is its terminal one. -/
theorem LogShape.terminal {status : InvocationStatus} {subjects : List String}
    (h : LogShape status subjects) (hstatus : status.inFlight = false) :
    ∃ event, terminalEvent status = some event ∧ subjects.getLast? = some event := by
  cases h with
  | accepted => cases hstatus
  | running => cases hstatus
  | refused h => exact ⟨_, h, rfl⟩
  | finished h => exact ⟨_, h, rfl⟩

section Logged

variable {db : Db} {r : InvocationRecord}

theorem Logged.not_terminal (h : Logged db r) (hflight : r.status.inFlight = true)
    {e : OutboxEvent} (he : e ∈ db.invocationEvents r.id) (other : InvocationStatus) :
    terminalEvent other ≠ some e.subject :=
  h.subjects.not_terminal hflight (List.mem_map_of_mem he) other

theorem Logged.terminal (h : Logged db r) (hended : r.status.inFlight = false) :
    ∃ e, (db.invocationEvents r.id).getLast? = some e ∧ terminalEvent r.status = some e.subject ∧
      e.aggregateVersion = r.aggregateVersion := by
  obtain ⟨event, hevent, hlast⟩ := h.subjects.terminal hended
  rw [List.getLast?_map, Option.map_eq_some_iff] at hlast
  obtain ⟨e, he, rfl⟩ := hlast
  refine ⟨e, he, hevent, ?_⟩
  have hversion := congrArg List.getLast? h.versions
  rw [List.getLast?_map, he, List.getLast?_range'] at hversion
  split at hversion
  · cases hversion
  · have hversion : e.aggregateVersion = 1 + r.aggregateVersion - 1 := by simpa using hversion
    omega

end Logged

section Commit

variable {rq : Incoming} {s : Session} {db db' : Db}

/-- The next event of a row. -/
theorem Logged.next {record current : InvocationRecord} {id : Uuid} {subject : String}
    (h : Logged db record) (hid : current.id = record.id)
    (hversion : current.aggregateVersion = record.aggregateVersion + 1)
    (hshape : LogShape current.status
      ((db.invocationEvents record.id).map (·.subject) ++ [subject]))
    (hevents : db'.invocationEvents record.id =
      db.invocationEvents record.id ++ [emitted id current subject]) : Logged db' current := by
  refine ⟨?_, ?_, ?_⟩
  · rw [hid, hevents, List.map_append, h.versions, hversion, List.range'_1_concat,
      List.map_singleton, Nat.add_comm 1]
    rw [← hversion]
    rfl
  · rw [hid, hevents, List.map_append]
    exact hshape
  · rw [hid, hevents, List.getLast?_concat]
    rfl

/-- What a commit does to the log, and to each row. -/
structure KeepsLog (db db' : Db) : Prop where
  tables : AllLogged db'
  born : ∀ v r, db.invocation v = none → db'.invocation v = some r → r.status = .accepted
  moves : ∀ v r, db.invocation v = some r → ∃ r', db'.invocation v = some r' ∧ Moves r r'

theorem KeepsLog.refl (hW : AllLogged db) : KeepsLog db db where
  tables := hW
  born v r hnone hr := by
    rw [hnone] at hr
    cases hr
  moves v r hr := ⟨r, hr, .same⟩

/-- The commit of the next state of one row. -/
theorem KeepsLog.written {record current : InvocationRecord} {id : Uuid} {subject : String}
    (hW : AllLogged db) (hstored : db.invocation record.id = some record)
    (hrows : ∀ v, db'.invocation v = if v = record.id then some current else db.invocation v)
    (hout : db'.outbox = db.outbox ++ [emitted id current subject])
    (hid : current.id = record.id)
    (hversion : current.aggregateVersion = record.aggregateVersion + 1)
    (hshape : LogShape record.status ((db.invocationEvents record.id).map (·.subject)) →
      LogShape current.status ((db.invocationEvents record.id).map (·.subject) ++ [subject]))
    (hmoves : Moves record current) : KeepsLog db db' := by
  have hevents : ∀ v, db'.invocationEvents v = if v = record.id then
      db.invocationEvents v ++ [emitted id current subject] else db.invocationEvents v :=
    fun v => Db.invocationEvents_one hout rfl (by rw [← hid]; rfl)
  have hlog := hW.row hstored
  refine ⟨⟨fun {v r} hr => ?_, fun {v} hv => ?_⟩, fun v r hnone hr => ?_, fun v r hr => ?_⟩
  · rw [hrows] at hr
    split at hr
    · cases hr
      exact hlog.next hid hversion (hshape hlog.subjects) ((hevents _).trans (if_pos rfl))
    · rename_i hne
      obtain ⟨-, rfl⟩ := lookup_mem hr
      have hold := hW.row hr
      have hsame : db'.invocationEvents r.id = db.invocationEvents r.id :=
        (hevents _).trans (if_neg hne)
      exact ⟨hsame ▸ hold.versions, hsame ▸ hold.subjects, hsame ▸ hold.last⟩
  · rw [hrows] at hv
    split at hv
    · cases hv
    · rename_i hne
      rw [hevents, if_neg hne]
      exact hW.known hv
  · rw [hrows, if_neg (by rintro rfl; rw [hstored] at hnone; cases hnone), hnone] at hr
    cases hr
  · rw [hrows]
    rcases eq_or_ne v record.id with rfl | hne
    · rw [hstored, Option.some.injEq] at hr
      subst hr
      exact ⟨current, if_pos rfl, hmoves⟩
    · exact ⟨r, by rw [if_neg hne, hr], .same⟩

theorem KeepsLog.of_tx (htx : Tx rq s) (hdb : db'.toRows = s.contents db) (hW : AllLogged db)
    (hcur : s.OwnCurrent db) : KeepsLog db db' := by
  cases htx.invocation with
  | quiet hq =>
    refine ⟨⟨fun {v r} hr => ?_, fun {v} hv => ?_⟩, fun v r hnone hr => ?_,
      fun v r hr => ⟨r, ?_, .same⟩⟩
    · rw [hq.same hdb] at hr
      have hold := hW.row hr
      exact ⟨by rw [hq.events hdb]; exact hold.versions, by rw [hq.events hdb]; exact hold.subjects,
        by rw [hq.events hdb]; exact hold.last⟩
    · rw [hq.same hdb] at hv
      rw [hq.events hdb]
      exact hW.known hv
    · rw [hq.same hdb, hnone] at hr
      cases hr
    · rw [hq.same hdb, hr]
  | @accept base args record invoked args_eq clean first held enabled tenant =>
    obtain ⟨hnew, hrows, hout⟩ := clean.accepted hdb
    have hevents : ∀ v, db'.invocationEvents v = if v = rq.env.uuid4 0 then
        db.invocationEvents v ++ [emitted (rq.env.uuid4 1) (newInvocation rq.env record args)
          acceptedEvent] else db.invocationEvents v :=
      fun v => Db.invocationEvents_one hout rfl rfl
    have hempty : db.invocationEvents (rq.env.uuid4 0) = [] := hW.known hnew
    have hfirst : db'.invocationEvents (rq.env.uuid4 0) =
        [emitted (rq.env.uuid4 1) (newInvocation rq.env record args) acceptedEvent] := by
      rw [hevents, if_pos rfl, hempty, List.nil_append]
    refine ⟨⟨fun {v r} hr => ?_, fun {v} hv => ?_⟩, fun v r hnone hr => ?_, fun v r hr => ?_⟩
    · rw [hrows] at hr
      split at hr
      · cases hr
        have hsame : db'.invocationEvents (newInvocation rq.env record args).id = _ := hfirst
        exact ⟨by rw [hsame]; rfl, by rw [hsame]; exact .accepted, by rw [hsame]; rfl⟩
      · rename_i hne
        obtain ⟨-, rfl⟩ := lookup_mem hr
        have hold := hW.row hr
        have hsame : db'.invocationEvents r.id = db.invocationEvents r.id :=
          (hevents _).trans (if_neg hne)
        exact ⟨hsame ▸ hold.versions, hsame ▸ hold.subjects, hsame ▸ hold.last⟩
    · rw [hrows] at hv
      split at hv
      · cases hv
      · rename_i hne
        have hother : db'.invocationEvents v = db.invocationEvents v :=
          (hevents v).trans (if_neg hne)
        rw [hother]
        exact hW.known hv
    · rw [hrows] at hr
      split at hr
      · cases hr
        rfl
      · rw [hnone] at hr
        cases hr
    · have hne : v ≠ rq.env.uuid4 0 := by
        rintro rfl
        have hnone : db.invocation (rq.env.uuid4 0) = none := hnew
        rw [hnone] at hr
        cases hr
      exact ⟨r, (hrows v).trans ((if_neg hne).trans hr), .same⟩
  | start clean held own accepted =>
    obtain ⟨hstored, hrows, hout⟩ := clean.writtenOwn held own merge_started hdb hcur
    refine .written hW hstored hrows hout rfl rfl (fun h => ?_) (.started accepted rfl)
    rw [accepted] at h
    exact h.begin
  | finish clean held own inFlight terminal =>
    obtain ⟨hstored, hrows, hout⟩ := clean.writtenOwn held own merge_finished hdb hcur
    exact .written hW hstored hrows hout rfl rfl (fun h => h.extend inFlight terminal)
      (.finished inFlight (terminal_not_inFlight terminal))

end Commit

/-! ## In every run -/

section Runs

variable {reqs : Nat → Incoming} {sys sys' : System RegistryOp Session World Exc Response}

theorem logged_invariant (reqs : Nat → Incoming) :
    RegistryInvariant reqs (fun i ss db _ => (ss i).OwnCurrent db) AllLogged
      fun _ _ _ => True where
  fresh _ _ := trivial
  refreshed _ _ _ := trivial
  commit {i ss db db'} htx hdb hcond hW _ := by
    refine ⟨?_, trivial, fun _ _ => trivial⟩
    by_cases hne : db' = db
    · rw [hne]
      exact hW
    · exact (KeepsLog.of_tx htx hdb hW (hcond hne)).tables

theorem empty_logged : AllLogged Db.empty where
  row h := by cases h
  known _ := rfl

/-- Every reachable state is logged. -/
theorem reaches_logged (h : registryMachine.Reaches Machine.Any (registry Db.empty reqs) sys) :
    AllLogged sys.world.db :=
  ((logged_invariant reqs).reaches empty_logged
    (reaches_assuming (fun _ hrun i => ((reaches_owned hrun).2 i).current) h)).1

/-- Every step of a run keeps the log. -/
theorem step_keepsLog (h : registryMachine.Reaches Machine.Any (registry Db.empty reqs) sys)
    {i : Nat} (hs : registryMachine.Step sys i sys') : KeepsLog sys.world.db sys'.world.db := by
  have hW := reaches_logged h
  rcases registry_step h hs with ⟨hdb, -⟩ | ⟨htx, hdb, -⟩
  · rw [hdb]
    exact .refl hW
  · exact .of_tx htx hdb hW ((reaches_owned h).2 i).current

/-- A terminal row is final. -/
theorem terminal_forever (h : registryMachine.Reaches Machine.Any (registry Db.empty reqs) sys)
    (h' : registryMachine.Reaches Machine.Any sys sys') {v : Uuid} {r : InvocationRecord}
    (hr : sys.world.db.invocation v = some r) (hterminal : r.status.inFlight = false) :
    sys'.world.db.invocation v = some r := by
  induction h' with
  | start => exact hr
  | step hrun hs _ ih =>
    obtain ⟨r', hr', hmoves⟩ := (step_keepsLog (h.trans hrun) hs).moves v r ih
    cases hmoves with
    | same => exact hr'
    | started before after =>
      rw [before] at hterminal
      cases hterminal
    | finished before after =>
      rw [before] at hterminal
      cases hterminal

end Runs

/-! ## The connector an invocation was accepted for -/

/-- The connector of an invocation is of the kind and of the tenant it was accepted for. -/
def Db.ConnectorOf (db : Db) (c : Uuid) (kind : ConnectorKind) (tenantId : String) : Prop :=
  ∃ k, db.connector c = some k ∧ k.kind = kind ∧ k.tenantId = tenantId

/-- Every invocation is one of its connector's. -/
def Placed (db : Db) : Prop :=
  ∀ r ∈ db.invocations, db.ConnectorOf r.connectorId r.adapterKind r.tenantId

section Placed

variable {rq : Incoming} {s : Session} {db db' : Db}

theorem Db.ConnectorOf.committed (hdb : db'.toRows = s.contents db) {c : Uuid}
    {kind : ConnectorKind} {tenantId : String} (h : db.ConnectorOf c kind tenantId) :
    db'.ConnectorOf c kind tenantId := by
  obtain ⟨k, hk, rfl, rfl⟩ := h
  obtain ⟨k', hk', hsame⟩ := connector_stays_same hdb hk
  exact ⟨k', hk', hsame.kind, hsame.tenantId⟩

/-- The row a transaction inserts is for a connector the session has loaded. -/
theorem Tx.inserted_for (htx : Tx rq s) {r : InvocationRecord}
    (hr : r ∈ (s.flushed ++ s.pending).invocations) :
    ∃ record, s.Loaded r.connectorId record ∧ record.kind = r.adapterKind ∧
      record.tenantId = r.tenantId := by
  cases htx.invocation with
  | quiet hq =>
    rw [hq.rows] at hr
    cases hr
  | @accept base args record invoked args_eq clean first held enabled tenant =>
    simp only [Session.accepting, Rows.append_invocations, List.append_nil,
      List.mem_singleton] at hr
    subst hr
    exact ⟨record, held.loaded, rfl, tenant.symm⟩
  | start clean held own accepted => simp [Session.writingInvocation, clean.flushed] at hr
  | finish clean held own inFlight terminal =>
    simp [Session.writingInvocation, clean.flushed] at hr

theorem placed_invariant (reqs : Nat → Incoming) :
    RegistryInvariant reqs (fun _ _ _ _ => True) Placed
      fun _ s db => ∀ c r, s.Loaded c r → db.ConnectorOf c r.kind r.tenantId := by
  refine .of_loaded (fun {db c r} _ hr => ⟨r, hr, rfl, rfl⟩) ?_
  intro i ss db db' htx hdb _ hW hL
  refine ⟨fun r hr => ?_, fun c r hr => ?_, fun c r h => h.committed hdb⟩
  · rw [hdb] at hr
    rcases List.mem_append.mp hr with hr | hr
    · obtain ⟨r₀, hr₀, rfl⟩ := List.mem_map.mp hr
      have hsame := (ss i).writeInvocation_same r₀
      rw [hsame.connectorId, hsame.adapterKind, hsame.tenantId]
      exact (hW r₀ hr₀).committed hdb
    · obtain ⟨record, hloaded, hkind, htenant⟩ := htx.inserted_for hr
      rw [← hkind, ← htenant]
      exact (hL i _ record hloaded).committed hdb
  · rcases htx.loaded_committed hdb hr with ⟨r₀, hloaded, hsame⟩ | hrow
    · rw [hsame.kind, hsame.tenantId]
      exact (hL i c r₀ hloaded).committed hdb
    · exact ⟨r, hrow, rfl, rfl⟩

/-- Every reachable state is placed. -/
theorem reaches_placed {reqs : Nat → Incoming}
    {sys : System RegistryOp Session World Exc Response}
    (h : registryMachine.Reaches Machine.Any (registry Db.empty reqs) sys) :
    Placed sys.world.db := by
  refine ((placed_invariant reqs).reaches ?_
    (h.mono (D := CommitsMeet fun _ _ _ _ => True) fun _ _ _ _ _ => trivial)).1
  intro r hr
  cases hr

end Placed

/-! ## Replays -/

/-- The request asks for the invocation again: it names the tenant, the connector and the key. -/
def Request.Replays (env : Env) (r : InvocationRecord) : Request → Prop
  | .invokeConnectorV1 caller connectorId payload _ _ =>
    r.HasKey caller.tenantId connectorId payload.idempotencyKey
  | .invokeConnectorInternal _ tenantId connectorId payload =>
    ∃ body, agentInput payload = some body ∧
      r.HasKey tenantId connectorId (agentKey env (agentId env payload) body)
  | _ => False

/-- How a row answers a replay, on the surface the request came in by. -/
def InvocationRecord.answer (r : InvocationRecord) : Request → Response
  | .invokeConnectorInternal _ _ _ _ => ⟨httpStatusFor r, .internalInvocation
      { invocationId := r.id
        connectorId := r.connectorId
        connectorKind := r.adapterKind
        status := r.status
        errorCode := r.errorCode
        retryable := r.retryable
        output := r.output }⟩
  | _ => ⟨httpStatusFor r, .invocation (invocationSchema r)⟩

/-- What a request has to pass before its key is looked up, where its connector is stored as `k`. -/
def Request.gate (env : Env) (k : ConnectorRecord) : Request → Handler Unit
  | .invokeConnectorInternal token tenantId _ _ => do
    requireInternalCaller env token
    if tenantId = "" then .raise tenantRequired else requireExecutable k
  | _ => requireExecutable k

/-- The answer to a replay whose connector is stored as `k`: the row's, if it passes the gate. -/
def Request.replayed (env : Env) (k : ConnectorRecord) (r : InvocationRecord) (request : Request) :
    Response :=
  match request.gate env k with
  | .raise e => e.respond
  | _ => r.answer request

/-- The replay is answered so, for its connector as it was stored at some time between the two
    states. -/
def Answers (env : Env) (request : Request) (r : InvocationRecord)
    (asked answered : System RegistryOp Session World Exc Response) (response : Response) : Prop :=
  ∃ now k, registryMachine.Reaches Machine.Any asked now ∧
    registryMachine.Reaches Machine.Any now answered ∧
    now.world.db.connector r.connectorId = some k ∧ response = request.replayed env k r

/-- The row stands, and so does its connector. -/
structure Stands (db : Db) (r : InvocationRecord) : Prop where
  row : db.invocation r.id = some r
  connector : db.ConnectorOf r.connectorId r.adapterKind r.tenantId

/-- What an operation can answer in the states of `P`, while the row stands. -/
def standing (P : Store → Prop) (r : InvocationRecord) : Discipline RegistryOp Session where
  pre _ _ := True
  eff o s b s' := ∃ i st, P st ∧ Stands st.db r ∧ (perform i o s st).1 = b ∧
    (perform i o s st).2.1 = s'

section Replay

variable {env : Env} {request : Request} {r : InvocationRecord} {s : Session} {P : Store → Prop}

/-- A row is found by its key. -/
theorem Db.invocationByKey_of_mem {db : Db} (hmem : r ∈ db.invocations) {tenantId key : String}
    {connectorId : Uuid} (hkey : r.HasKey tenantId connectorId key) :
    db.invocationByKey tenantId connectorId key = some r := by
  obtain ⟨ht, hc, hk⟩ := hkey
  cases hfind : db.invocationByKey tenantId connectorId key with
  | none =>
    have hnone := List.find?_eq_none.mp hfind r hmem
    simp [ht, hc, hk] at hnone
  | some r' =>
    obtain ⟨hmem', ht', hc', hk'⟩ := Db.invocationByKey_mem hfind
    rw [Db.invocation_key_unique hmem' hmem (ht'.trans ht.symm) (hc'.trans hc.symm)
      (hk'.trans hk.symm)]

/-- The key finds the row. -/
theorem Stands.byKey {db : Db} (h : Stands db r) {tenantId key : String} {connectorId : Uuid}
    (hkey : r.HasKey tenantId connectorId key) :
    db.invocationByKey tenantId connectorId key = some r :=
  Db.invocationByKey_of_mem (lookup_mem h.row).1 hkey

theorem requireExecutable_cases (record : ConnectorRecord) :
    requireExecutable record = .ret () ∨ ∃ e, requireExecutable record = .raise e := by
  unfold requireExecutable checkExecutable
  split
  · exact .inl rfl
  · exact .inr ⟨_, rfl⟩

theorem requireInternalCaller_cases (env : Env) (token : String) :
    requireInternalCaller env token = .ret () ∨ ∃ e, requireInternalCaller env token = .raise e := by
  unfold requireInternalCaller
  split
  · exact .inr ⟨_, rfl⟩
  · split
    · exact .inr ⟨_, rfl⟩
    · exact .inl rfl
    · exact .inr ⟨_, rfl⟩

/-- The connector is stored as `k` in one of the states. -/
def StoredIn (P : Store → Prop) (r : InvocationRecord) (k : ConnectorRecord) : Prop :=
  ∃ st, P st ∧ st.db.connector r.connectorId = some k

/-- The connector a fresh session reads is the row's, as it is stored. -/
theorem tenantConnector_standing :
    (tenantConnector r.connectorId r.tenantId).Obeys (standing P r) (fun result s' =>
      ∃ record, result = .ok record ∧ StoredIn P r record ∧ record.id = r.connectorId ∧
        record.kind = r.adapterKind ∧ s'.connectorAttrs r.connectorId = some record ∧
        s'.invocationAttrs r.id = none) Session.fresh := by
  refine ⟨trivial, ?_⟩
  rintro b s' ⟨i, st, hP, hstands, rfl, rfl⟩
  obtain ⟨record, hrow, hkind, htenant⟩ := hstands.connector
  have hmine : (some record).filter (·.tenantId = r.tenantId) = some record :=
    Option.filter_some_pos (by simpa using htenant)
  simp only [perform, Session.connectorAttrs, Session.fresh, Option.bind_none,
    Session.loadConnector, hrow, Prog.bind, hmine]
  exact ⟨record, rfl, ⟨st, hP, hrow⟩, (lookup_mem hrow).2, hkind,
    by simp [Instance.attrs, Instance.ofRow], rfl⟩

/-- `accept` returns the row. -/
theorem accept_standing {connector : ConnectorRecord} {args : AcceptArgs}
    (hkey : r.HasKey args.tenantId connector.id args.idempotencyKey)
    (hnone : s.invocationAttrs r.id = none) :
    (accept env connector args).Obeys (standing P r) (fun result s' =>
      s'.connectors = s.connectors ∧ ∃ replay, result = .ok (r, some replay)) s := by
  refine ⟨trivial, ?_⟩
  rintro b s' ⟨i, st, -, hstands, rfl, rfl⟩
  have hrow := hstands.byKey hkey
  have hans : (s.loadInvocation (some r)).1 = some r := by
    simp only [Session.loadInvocation, hnone]
  simp only [perform, hrow, Prog.bind, hans]
  exact ⟨Session.loadInvocation_connectors _, _, rfl⟩

/-- How a handler ends while the row stands. -/
def EndsWith (env : Env) (request : Request) (P : Store → Prop) (r : InvocationRecord) :
    Except Exc Response → Session → Prop
  | .ok response, _ => ∃ k, StoredIn P r k ∧ response = request.replayed env k r
  | .error e, _ => ∃ k, StoredIn P r k ∧ e.respond = request.replayed env k r

theorem replayed_of_raise {k : ConnectorRecord} {e : Exc} (h : request.gate env k = .raise e) :
    request.replayed env k r = e.respond := by
  unfold Request.replayed
  rw [h]

theorem replayed_of_ret {k : ConnectorRecord} (h : request.gate env k = .ret ()) :
    request.replayed env k r = r.answer request := by
  unfold Request.replayed
  rw [h]

theorem invokeConnectorV1_standing {caller : CallerIdentity} {connectorId : Uuid}
    {payload : InvocationCreate} {xRequestId traceparent : Option String}
    (hkey : r.HasKey caller.tenantId connectorId payload.idempotencyKey) :
    (invokeConnectorV1 env caller connectorId payload xRequestId traceparent).Obeys (standing P r)
      (EndsWith env (.invokeConnectorV1 caller connectorId payload xRequestId traceparent) P r)
      Session.fresh := by
  obtain ⟨ht, rfl, hk⟩ := hkey
  unfold invokeConnectorV1
  rw [← ht]
  refine Prog.Obeys.bind (tenantConnector_standing.mono ?_)
  rintro result s₁ ⟨record, rfl, hstored, hid, -, -, hnone⟩
  dsimp only
  have hgate : (Request.invokeConnectorV1 caller r.connectorId payload xRequestId traceparent).gate
      env record = requireExecutable record := rfl
  rcases requireExecutable_cases record with hret | ⟨e, hraise⟩
  · simp only [hret, Prog.ret_bind]
    refine Prog.Obeys.bind ((accept_standing ⟨ht, hid.symm, hk⟩ hnone).mono ?_)
    rintro result s₂ ⟨-, replay, rfl⟩
    exact ⟨record, hstored, (replayed_of_ret (hgate.trans hret)).symm⟩
  · simp only [hraise, Prog.raise_bind]
    exact ⟨record, hstored, (replayed_of_raise (hgate.trans hraise)).symm⟩

theorem invokeConnectorInternal_standing {token tenantId : String} {connectorId : Uuid}
    {payload body : Dict String} (hstored : ∃ k, StoredIn P r k)
    (hbody : agentInput payload = some body)
    (hkey : r.HasKey tenantId connectorId (agentKey env (agentId env payload) body)) :
    (invokeConnectorInternal env token tenantId connectorId payload).Obeys (standing P r)
      (EndsWith env (.invokeConnectorInternal token tenantId connectorId payload) P r)
      Session.fresh := by
  obtain ⟨k₀, hk₀⟩ := hstored
  obtain ⟨ht, rfl, hk⟩ := hkey
  unfold invokeConnectorInternal
  rcases requireInternalCaller_cases env token with htoken | ⟨e, hraise⟩
  swap
  · rw [hraise]
    refine ⟨k₀, hk₀, (replayed_of_raise ?_).symm⟩
    simp only [Request.gate, hraise, Prog.raise_bind]
  rw [htoken, Prog.ret_bind]
  by_cases hempty : tenantId = ""
  · rw [if_pos hempty]
    refine ⟨k₀, hk₀, (replayed_of_raise ?_).symm⟩
    simp only [Request.gate, htoken, Prog.ret_bind, if_pos hempty]
  have hgate : ∀ k, (Request.invokeConnectorInternal token tenantId r.connectorId payload).gate
      env k = requireExecutable k := by
    intro k
    simp only [Request.gate, htoken, Prog.ret_bind, if_neg hempty]
  rw [if_neg hempty, ← ht]
  refine Prog.Obeys.bind (tenantConnector_standing.mono ?_)
  rintro result s₁ ⟨record, rfl, hstored, hid, hkind, hattrs, hnone⟩
  dsimp only
  rcases requireExecutable_cases record with hret | ⟨e, hraise⟩
  swap
  · simp only [hraise, Prog.raise_bind]
    rw [ht]
    exact ⟨record, hstored, (replayed_of_raise ((hgate record).trans hraise)).symm⟩
  simp only [hret, Prog.ret_bind, hbody]
  refine Prog.Obeys.bind ((accept_standing ⟨rfl, hid.symm, hk⟩ hnone).mono ?_)
  rintro result s₂ ⟨hconn, replay, rfl⟩
  -- the reply reads the connector once more, as the session still holds it
  refine ⟨trivial, ?_⟩
  rintro b s₃ ⟨i, st, -, -, rfl, rfl⟩
  have hattrs₂ : s₂.connectorAttrs r.connectorId = some record := by
    unfold Session.connectorAttrs
    rw [hconn]
    exact hattrs
  simp only [perform, hattrs₂]
  refine ⟨record, hstored, ?_⟩
  rw [ht, replayed_of_ret ((hgate record).trans hret), hkind]
  rfl

/-- A replay is answered by the row, or turned away at the gate. -/
theorem program_standing {rq : Incoming} (hstored : ∃ k, StoredIn P r k)
    (h : rq.request.Replays rq.env r) :
    rq.program.Obeys (standing P r) (fun result _ => ∀ response, result = .ok response →
      ∃ k, StoredIn P r k ∧ response = rq.request.replayed rq.env k r) Session.fresh := by
  have hhandler : (handler rq.env rq.request).Obeys (standing P r)
      (EndsWith rq.env rq.request P r) Session.fresh := by
    cases hrq : rq.request with
    | invokeConnectorV1 caller connectorId payload xRequestId traceparent =>
      rw [hrq] at h
      exact invokeConnectorV1_standing h
    | invokeConnectorInternal token tenantId connectorId payload =>
      rw [hrq] at h
      obtain ⟨body, hbody, hkey⟩ := h
      exact invokeConnectorInternal_standing hstored hbody hkey
    | _ =>
      rw [hrq] at h
      cases h
  refine Prog.Obeys.tryCatch (Prog.Obeys.finallyDo (hhandler.mono ?_))
  rintro (e | response) s hend
  · refine ⟨trivial, fun s' _ response h => ?_⟩
    cases h
    exact hend
  · refine ⟨trivial, fun s' _ response h => ?_⟩
    cases h
    exact hend

end Replay

/-- While its row stays as it is, a replay is answered by it, or turned away at the gate. -/
theorem replays_standing {reqs : Nat → Incoming}
    {sys sys' : System RegistryOp Session World Exc Response}
    (h : registryMachine.Reaches Machine.Any (registry Db.empty reqs) sys)
    (h' : registryMachine.Reaches Machine.Any sys sys') {r : InvocationRecord}
    (hstays : ∀ sys', registryMachine.Reaches Machine.Any sys sys' →
      sys'.world.db.invocation r.id = some r) {j : Nat}
    (hj : sys.threads j = (registry Db.empty reqs).threads j)
    (hreplay : (reqs j).request.Replays (reqs j).env r) {response : Response}
    (hret : (sys'.threads j).prog = .ret response) :
    Answers (reqs j).env (reqs j).request r sys sys' response := by
  have hplaced : ∀ now, registryMachine.Reaches Machine.Any sys now →
      now.world.db.ConnectorOf r.connectorId r.adapterKind r.tenantId :=
    fun now hnow => reaches_placed (h.trans hnow) r (lookup_mem (hstays now hnow)).1
  -- the states between the two
  let P : Store → Prop := fun st => ∃ now, registryMachine.Reaches Machine.Any sys now ∧
    registryMachine.Reaches Machine.Any now sys' ∧ now.world.toStore = st
  have hstart : ∃ k, StoredIn P r k := by
    obtain ⟨k, hk, -⟩ := hplaced sys .start
    exact ⟨k, sys.world.toStore, ⟨sys, .start, h', rfl⟩, hk⟩
  have hobeys := h'.between.obeys (i := j) (D := standing P r)
    (Q := fun result _ => ∀ response, result = .ok response →
      ∃ k, StoredIn P r k ∧ response = (reqs j).request.replayed (reqs j).env k r) ?_
    (fun _ h => by cases h) ?_
  · rw [hret] at hobeys
    obtain ⟨k, ⟨st, ⟨now, hnow, hrest, rfl⟩, hk⟩, hresponse⟩ := hobeys response rfl
    exact ⟨now, k, hnow, hrest, hk, hresponse⟩
  · intro now hrun β o b s' w' hst
    obtain ⟨hperf, -, -⟩ := registryMachine_step hst
    have hnow : registryMachine.Reaches Machine.Any sys now := hrun.mono fun _ _ _ _ => trivial
    have hrest : registryMachine.Reaches Machine.Any now sys' := by
      cases hrun with
      | start => exact h'
      | step _ _ hbetween => exact hbetween.2
    exact ⟨j, now.world.toStore, ⟨now, hnow, hrest, rfl⟩, ⟨hstays now hnow, hplaced now hnow⟩,
      by rw [hperf], by rw [hperf]⟩
  · rw [hj]
    exact program_standing hstart hreplay

/-- **The log of an invocation**: in every reachable state the events of each invocation carry the
    versions `1, …, aggregate_version`, in the order accepted, started, ended, and the last one its
    status.  A row is inserted as accepted, then starts, then ends, or ends at once; and once it
    has ended nothing changes it, and every later replay of its key is answered by it, unless the
    gate turns it away, for its token, its tenant header or the connector as it is then stored. -/
theorem invocation_log (reqs : Nat → Incoming)
    {sys : System RegistryOp Session World Exc Response}
    (h : registryMachine.Reaches Machine.Any (registry Db.empty reqs) sys) :
    (∀ i sys', registryMachine.Step sys i sys' → ∀ v r', sys.world.db.invocation v = none →
      sys'.world.db.invocation v = some r' → r'.status = .accepted) ∧
    ∀ v r, sys.world.db.invocation v = some r →
      Logged sys.world.db r ∧
      (∀ i sys', registryMachine.Step sys i sys' →
        ∃ r', sys'.world.db.invocation v = some r' ∧ Moves r r') ∧
      (r.status.inFlight = false → ∀ sys', registryMachine.Reaches Machine.Any sys sys' →
        sys'.world.db.invocation v = some r ∧
        ∀ j response, sys.threads j = (registry Db.empty reqs).threads j →
          (reqs j).request.Replays (reqs j).env r → (sys'.threads j).prog = .ret response →
          Answers (reqs j).env (reqs j).request r sys sys' response) := by
  refine ⟨fun i sys' hs => (step_keepsLog h hs).born, fun v r hr => ?_⟩
  refine ⟨(reaches_logged h).row hr, fun i sys' hs => (step_keepsLog h hs).moves v r hr,
    fun hterminal sys' h' => ⟨terminal_forever h h' hr hterminal, ?_⟩⟩
  intro j response hj hreplay hret
  obtain ⟨-, rfl⟩ := lookup_mem hr
  exact replays_standing h h' (fun _ hlater => terminal_forever h hlater hr hterminal) hj hreplay
    hret

set_option maxRecDepth 10000 in
/-- The same key three times: the second request runs to its end, then the third arrives, and shows
    the row. -/
theorem invocation_log_invokedTwice :
    let sys := registryMachine.schedule (List.replicate 9 0 ++ List.replicate 30 1)
      (registry Db.empty invokedTwice)
    ∃ r, sys.world.db.invocation 10 = some r ∧ r.status = .timedOut ∧
      Logged sys.world.db r ∧
      ∀ sys' response, registryMachine.Reaches Machine.Any sys sys' →
        (sys'.threads 2).prog = .ret response →
          Answers (invokedTwice 2).env (invokedTwice 2).request r sys sys' response := by
  intro sys
  have hrow : (sys.world.db.invocation 10).map
      (fun r => (r.status, r.tenantId, r.connectorId, r.idempotencyKey)) =
        some (.timedOut, sampleCaller.tenantId, 0, sampleInvocation.idempotencyKey) := by
    decide +kernel
  have hfresh : sys.threads 2 = (registry Db.empty invokedTwice).threads 2 :=
    Machine.threads_schedule (by decide)
  have hreach : registryMachine.Reaches Machine.Any (registry Db.empty invokedTwice) sys :=
    Machine.reaches_schedule _ _
  clear_value sys
  obtain ⟨r, hr, hsame⟩ := Option.map_eq_some_iff.mp hrow
  simp only [Prod.mk.injEq] at hsame
  obtain ⟨hstatus, hkey⟩ := hsame
  obtain ⟨hlogged, -, hended⟩ := (invocation_log invokedTwice hreach).2 10 r hr
  refine ⟨r, hr, hstatus, hlogged, ?_⟩
  intro sys' response hlater hret
  exact (hended (by rw [hstatus]; rfl) sys' hlater).2 2 response hfresh hkey hret

end FavlGateway.Registry
