/-
  How a call of the registry's internal endpoint can end, and what the orchestrator reads of it.

  The registry reports the state of an invocation in the status code and in the body; a refusal is an
  `HTTPException`, whose body FastAPI wraps in `detail`.  `InternalEnd` says how a call can end,
  whatever happens to the database in between: refused by a guard, broken, the reply for an invocation
  that the key has, or the reply for the invocation the call carried out.
-/
import FavlGateway.Orchestrator.Main
import FavlGateway.Registry.Invariants

namespace FavlGateway.Orchestrator

open FavlGateway.Library
open FavlGateway.Registry
  (Uuid InvocationRecord ConnectorRecord ConnectorKind InternalInvocation RegistryOp isExecutable
    compareDigest httpStatusFor jsonStr uuidText)

/-! ## The wire -/

/-- `invocation.output`, as JSON. -/
def outputJson : Option (Dict PyStr) → Option (Json String)
  | none => some .null
  | some output => (Json.obj output).render

/-- The body the internal endpoint builds by hand, as JSON. -/
def internalJson (v : InternalInvocation) : Option (Json String) :=
  (outputJson v.output).map fun output =>
    .obj
      [("invocation_id", jsonStr (uuidText v.invocationId)),
        ("connector_id", jsonStr (uuidText v.connectorId)),
        ("connector_kind", jsonStr v.connectorKind.value), ("status", jsonStr v.status.value),
        ("error_code", .ofOption (fun c => jsonStr c.value) v.errorCode),
        ("retryable", .ofOption .bool v.retryable), ("output", output)]

/-- What httpx reads of a response of the internal endpoint; a body that cannot be sent is a server
    error, whose text is no JSON. -/
def wire (response : Registry.Response) : Reply :=
  match response.body with
  | .internalInvocation v =>
    match internalJson v with
    | some json => ⟨response.statusCode, some json⟩
    | none => ⟨500, none⟩
  | .detail d => ⟨response.statusCode, some (.obj [("detail", d)])⟩
  | .unknownKind kind known => ⟨response.statusCode, some (.obj
      [("error_code", jsonStr "UNKNOWN_KIND"), ("kind", jsonStr kind),
        ("registered_kinds", .arr (known.map jsonStr))])⟩
  -- no answer of the internal endpoint has another body
  | _ => ⟨response.statusCode, none⟩

/-! ## How a call of the internal endpoint ends -/

/-- The operations of a call with their answers. -/
abbrev CallLog := List (Prog.Answered RegistryOp)

/-- The row that the derived idempotency key has when `accept` looks it up first. -/
def CallLog.found : CallLog → Option InvocationRecord
  | [] => none
  | ⟨.findExisting _ _ _, row⟩ :: _ => row
  | _ :: log => CallLog.found log

/-- The connector as the call reads it. -/
def CallLog.connector : CallLog → Option ConnectorRecord
  | [] => none
  | ⟨.getConnector _ _, row⟩ :: _ => row
  | _ :: log => CallLog.connector log

/-- The call passes the guards of the endpoint: a configured and matching token, a tenant, and a
    connector of that tenant which can be executed. -/
structure Admitted (env : Registry.Env) (token tenantId : String) (log : CallLog) : Prop where
  configured : env.internalServiceToken ≠ ""
  authentic : compareDigest token env.internalServiceToken = some true
  tenant : tenantId ≠ ""
  executable : ∃ record, log.connector = some record ∧ record.tenantId = tenantId ∧
    isExecutable record.status.value = true

/-- The endpoint's answer for an invocation. -/
def invocationReply (connectorId : Uuid) (record : InvocationRecord) (kind : ConnectorKind) :
    Registry.Response :=
  ⟨httpStatusFor record, .internalInvocation
    { invocationId := record.id
      connectorId := connectorId
      connectorKind := kind
      status := record.status
      errorCode := record.errorCode
      retryable := record.retryable
      output := record.output }⟩

/-- How a call can end. -/
inductive InternalEnd (env : Registry.Env) (token tenantId : String) (connectorId : Uuid)
    (log : CallLog) : Except Registry.Exc Registry.Response → Prop where
  /-- a guard raised -/
  | refused {statusCode : Nat} {detail : Json String} (free : log.found = none)
      (guarded : ¬ Admitted env token tenantId log) (failed : 400 ≤ statusCode) :
      InternalEnd env token tenantId connectorId log (.error (.http statusCode detail))
  /-- a server error -/
  | broken {e : Registry.Exc} (free : log.found = none)
      (unhandled : e.respond = ⟨500, .internalServerError⟩) :
      InternalEnd env token tenantId connectorId log (.error e)
  /-- the key has an invocation -/
  | replayed {existing : InvocationRecord} {kind : ConnectorKind}
      (admitted : Admitted env token tenantId log) (found : log.found = some existing)
      (fits : existing.fits = true) :
      InternalEnd env token tenantId connectorId log
        (.ok (invocationReply connectorId existing kind))
  /-- the invocation was carried out -/
  | finished {record : InvocationRecord} {kind : ConnectorKind}
      (admitted : Admitted env token tenantId log) (free : log.found = none)
      (settled : record.status.inFlight = false) :
      InternalEnd env token tenantId connectorId log
        (.ok (invocationReply connectorId record kind))

section Ends

variable {env : Registry.Env} {token tenantId : String} {connectorId : Uuid}
  {payload : Dict String} {rq : Registry.Incoming} {s s' : Registry.Session} {log : CallLog}

/-- The token is configured and matches. -/
def Authentic (env : Registry.Env) (token : String) : Prop :=
  env.internalServiceToken ≠ "" ∧ compareDigest token env.internalServiceToken = some true

theorem requireInternalCaller_ends {r : Except Registry.Exc Unit}
    (h : Prog.Ends (Registry.discipline rq) (Registry.requireInternalCaller env token) s log r s') :
    log = [] ∧ s' = s ∧ (r = .ok () ∧ Authentic env token ∨
      ¬ Authentic env token ∧ (r = .error .typeError ∨
        ∃ statusCode detail, r = .error (.http statusCode detail) ∧ 400 ≤ statusCode)) := by
  unfold Registry.requireInternalCaller at h
  split at h
  · rename_i hunset
    obtain ⟨rfl, rfl, rfl⟩ := h.of_raise
    exact ⟨rfl, rfl, .inr ⟨fun ha => ha.1 hunset, .inr ⟨503, _, rfl, by decide⟩⟩⟩
  · rename_i hset
    split at h
    · rename_i hdigest
      obtain ⟨rfl, rfl, rfl⟩ := h.of_raise
      refine ⟨rfl, rfl, .inr ⟨fun ha => ?_, .inl rfl⟩⟩
      have hmatch := ha.2
      rw [hdigest] at hmatch
      cases hmatch
    · rename_i hdigest
      obtain ⟨rfl, rfl, rfl⟩ := h.of_ret
      exact ⟨rfl, rfl, .inl ⟨rfl, hset, hdigest⟩⟩
    · rename_i hdigest
      obtain ⟨rfl, rfl, rfl⟩ := h.of_raise
      refine ⟨rfl, rfl, .inr ⟨fun ha => ?_, .inr ⟨401, _, rfl, by decide⟩⟩⟩
      have hmatch := ha.2
      rw [hdigest] at hmatch
      cases hmatch

theorem tenantConnector_ends {r : Except Registry.Exc ConnectorRecord}
    (hs : s.Clean) (h : Prog.Ends (Registry.discipline rq)
      (Registry.tenantConnector connectorId tenantId) s log r s') :
    s'.Clean ∧ s'.invocations = s.invocations ∧
      ((∃ record, r = .ok record ∧ log = [⟨.getConnector connectorId false, some record⟩] ∧
          record.tenantId = tenantId ∧ s'.Holds connectorId record) ∨
        ∃ found, r = .error Registry.connectorNotFound ∧
          log = [⟨.getConnector connectorId false, found⟩] ∧
          ∀ record, found = some record → record.tenantId ≠ tenantId) := by
  obtain ⟨found, s₁, rest, heff, rfl, hrest⟩ := h.of_perform
  obtain ⟨hclean, -, hinv, hheld, -⟩ := hs.effect_getConnector heff
  cases hfilter : found.filter (·.tenantId = tenantId) with
  | none =>
    rw [hfilter] at hrest
    obtain ⟨rfl, rfl, rfl⟩ := hrest.of_raise
    refine ⟨hclean, hinv, .inr ⟨found, rfl, rfl, ?_⟩⟩
    rintro record rfl
    simpa using hfilter
  | some record =>
    rw [hfilter] at hrest
    obtain ⟨rfl, rfl, rfl⟩ := hrest.of_ret
    obtain ⟨rfl, htenant⟩ := Option.filter_eq_some_iff.mp hfilter
    refine ⟨hclean, hinv, .inl ⟨record, rfl, rfl, by simpa using htenant, ?_⟩⟩
    exact hheld record rfl

theorem requireExecutable_ends {record : ConnectorRecord} {r : Except Registry.Exc Unit}
    (h : Prog.Ends (Registry.discipline rq) (Registry.requireExecutable record) s log r s') :
    log = [] ∧ s' = s ∧ (r = .ok () ∧ isExecutable record.status.value = true ∨
      isExecutable record.status.value = false ∧
        ∃ statusCode detail, r = .error (.http statusCode detail) ∧ 400 ≤ statusCode) := by
  unfold Registry.requireExecutable Registry.checkExecutable at h
  split at h
  · rename_i hexec
    obtain ⟨rfl, rfl, rfl⟩ := h.of_ret
    exact ⟨rfl, rfl, .inl ⟨rfl, hexec⟩⟩
  · rename_i hexec
    obtain ⟨rfl, rfl, rfl⟩ := h.of_raise
    refine ⟨rfl, rfl, .inr ⟨by simpa using hexec, _, _, rfl, ?_⟩⟩
    cases record.status <;> decide

/-- An exception that is answered with a server error. -/
def Unhandled (e : Registry.Exc) : Prop := e.respond = ⟨500, .internalServerError⟩

theorem commit_ends {r : Except Registry.Exc Unit}
    (h : Prog.Ends (Registry.discipline rq) Registry.commit s log r s') :
    r = .ok () ∨ ∃ e, r = .error e ∧ Unhandled e := by
  rcases h.of_bind with ⟨answer, s₁, l₁, l₂, -, h₂, -⟩ | ⟨e, h, -⟩
  · cases answer with
    | ok u =>
      obtain ⟨-, rfl, -⟩ := h₂.of_ret
      exact .inl rfl
    | error e =>
      obtain ⟨-, rfl, -⟩ := h₂.of_raise
      exact .inr ⟨_, rfl, rfl⟩
  · obtain ⟨b, s₁, rest, -, -, hrest⟩ := h.of_perform
    cases hrest

/-- The look-up finds a row that the database holds, unless the session has invocations. -/
theorem findExisting_fits {tenantId key : String} {found : Option InvocationRecord}
    (hinv : s.invocations = fun _ => none)
    (heff : Registry.Effect (.findExisting tenantId connectorId key) s found s')
    {existing : InvocationRecord} (hfound : found = some existing) : existing.fits = true := by
  obtain ⟨i, st, rfl, -⟩ := heff
  change (s.loadInvocation (st.db.invocationByKey tenantId connectorId key)).1 = _ at hfound
  cases hrow : st.db.invocationByKey tenantId connectorId key with
  | none =>
    rw [hrow] at hfound
    cases hfound
  | some row =>
    rw [hrow] at hfound
    simp only [Registry.Session.loadInvocation, Registry.Session.invocationAttrs, hinv,
      Option.bind_none] at hfound
    cases hfound
    have hvalid := st.db.valid.2
    simp only [Registry.Rows.fits, Bool.and_eq_true, List.all_eq_true] at hvalid
    exact hvalid.1.2 existing (List.mem_of_find?_eq_some hrow)

/-- The call finds the invocation of its key, or it is the first, or it fails. -/
theorem accept_ends {record : ConnectorRecord} {args : Registry.AcceptArgs}
    {r : Except Registry.Exc (InvocationRecord × Option Registry.ReplayedInvocation)}
    (hinv : s.invocations = fun _ => none) (hs : s.Clean)
    (h : Prog.Ends (Registry.discipline rq) (Registry.accept env record args) s log r s') :
    (∃ existing flag, r = .ok (existing, some flag) ∧
        (∀ rest, CallLog.found (log ++ rest) = some existing) ∧ existing.fits = true ∧
        s'.connectors = s.connectors) ∨
      (∀ rest, CallLog.found (log ++ rest) = none) ∧
        ((∃ new, r = .ok (new, none)) ∨
          (∃ existing flag, r = .ok (existing, some flag) ∧ ∀ id, s'.connectorAttrs id = none) ∨
          ∃ e, r = .error e ∧ Unhandled e) := by
  obtain ⟨found, s₁, rest, heff, rfl, hrest⟩ := h.of_perform
  obtain ⟨hs₁, -, hconnectors⟩ := hs.effect_findExisting heff
  cases found with
  | some existing =>
    obtain ⟨rfl, rfl, rfl⟩ := hrest.of_ret
    exact .inl ⟨existing, _, rfl, fun _ => rfl, findExisting_fits hinv heff rfl, hconnectors⟩
  | none =>
    refine .inr ⟨fun _ => rfl, ?_⟩
    obtain ⟨u, s₂, rest₂, -, rfl, hrest₂⟩ := hrest.of_perform
    obtain ⟨answer, s₃, rest₃, heff₃, rfl, hrest₃⟩ := hrest₂.of_perform
    cases answer with
    | ok u =>
      obtain ⟨u, s₄, rest₄, -, rfl, hrest₄⟩ := hrest₃.of_perform
      rcases hrest₄.of_bind with ⟨u, s₅, l₁, l₂, -, hret, -⟩ | ⟨e, hcommit, rfl⟩
      · obtain ⟨rfl, rfl, rfl⟩ := hret.of_ret
        exact .inl ⟨_, rfl⟩
      · rcases commit_ends hcommit with hok | ⟨e', he, hunhandled⟩
        · cases hok
        · cases he
          exact .inr (.inr ⟨e, rfl, hunhandled⟩)
    | error e =>
      cases e with
      | data =>
        obtain ⟨rfl, rfl, rfl⟩ := hrest₃.of_raise
        exact .inr (.inr ⟨_, rfl, rfl⟩)
      | integrity =>
        -- the race for the key is lost: the rollback expires the connector
        obtain ⟨u, s₄, rest₄, heff₄, rfl, hrest₄⟩ := hrest₃.of_perform
        obtain rfl := Registry.effect_rollback heff₄
        obtain ⟨found, s₅, rest₅, heff₅, rfl, hrest₅⟩ := hrest₄.of_perform
        have hconnectors₅ : s₅.connectors = s₃.rolledBack.connectors := by
          obtain ⟨i, st, -, rfl⟩ := heff₅
          exact Registry.Session.loadInvocation_connectors _
        cases found with
        | none =>
          obtain ⟨rfl, rfl, rfl⟩ := hrest₅.of_raise
          exact .inr (.inr ⟨_, rfl, rfl⟩)
        | some existing =>
          obtain ⟨rfl, rfl, rfl⟩ := hrest₅.of_ret
          refine .inr (.inl ⟨existing, _, rfl, fun id => ?_⟩)
          unfold Registry.Session.connectorAttrs
          rw [hconnectors₅]
          show ((s₃.connectors id).map Registry.Instance.expire).bind Registry.Instance.attrs = none
          cases s₃.connectors id <;> rfl

theorem finalise_ends {record : InvocationRecord} {result : Registry.InvocationResult}
    {r : Except Registry.Exc InvocationRecord}
    (h : Prog.Ends (Registry.discipline rq) (Registry.finalise env record result) s log r s') :
    (∃ final, r = .ok final ∧ final.status.inFlight = false) ∨ ∃ e, r = .error e ∧ Unhandled e := by
  obtain ⟨u, s₁, rest, -, -, hrest⟩ := h.of_perform
  cases hevent : Registry.terminalEvent result.status with
  | none =>
    rw [hevent] at hrest
    obtain ⟨-, rfl, -⟩ := hrest.of_raise
    exact .inr ⟨_, rfl, rfl⟩
  | some event =>
    rw [hevent] at hrest
    obtain ⟨u, s₂, rest₂, -, -, hrest⟩ := hrest.of_perform
    rcases hrest.of_bind with ⟨u, s₃, l₁, l₂, -, hret, -⟩ | ⟨e, hcommit, rfl⟩
    · obtain ⟨-, rfl, -⟩ := hret.of_ret
      refine .inl ⟨_, rfl, ?_⟩
      show result.status.inFlight = false
      cases hstatus : result.status <;> rw [hstatus] at hevent <;> first | rfl | cases hevent
    · rcases commit_ends hcommit with hok | ⟨e', he, hunhandled⟩
      · cases hok
      · cases he
        exact .inr ⟨e, rfl, hunhandled⟩

theorem execute_ends {record : ConnectorRecord} {invocation : InvocationRecord}
    {r : Except Registry.Exc InvocationRecord}
    (h : Prog.Ends (Registry.discipline rq) (Registry.execute env record invocation payload) s log r
      s') :
    (∃ final, r = .ok final ∧ final.status.inFlight = false) ∨ ∃ e, r = .error e ∧ Unhandled e := by
  unfold Registry.execute at h
  split at h
  · exact finalise_ends h
  · obtain ⟨u, s₁, rest, -, -, hrest⟩ := h.of_perform
    obtain ⟨u, s₂, rest₂, -, -, hrest⟩ := hrest.of_perform
    rcases hrest.of_bind with ⟨u, s₃, l₁, l₂, -, hrest, -⟩ | ⟨e, hcommit, rfl⟩
    · obtain ⟨u, s₄, rest₄, -, -, hrest⟩ := hrest.of_perform
      exact finalise_ends hrest
    · rcases commit_ends hcommit with hok | ⟨e', he, hunhandled⟩
      · cases hok
      · cases he
        exact .inr ⟨e, rfl, hunhandled⟩

/-- The reply, or a server error if the connector's attributes are expired. -/
theorem internalReply_ends {invocation : InvocationRecord}
    {r : Except Registry.Exc Registry.Response}
    (h : Prog.Ends (Registry.discipline rq) (Registry.internalReply connectorId invocation) s log r
      s') :
    (∃ kind, r = .ok (invocationReply connectorId invocation kind) ∧
        s.connectorAttrs connectorId ≠ none) ∨
      r = .error .missingGreenlet ∧ s.connectorAttrs connectorId = none := by
  obtain ⟨found, s₁, rest, heff, -, hrest⟩ := h.of_perform
  have hattrs : s.connectorAttrs connectorId = found := by
    obtain ⟨i, st, hfound, -⟩ := heff
    exact hfound
  cases found with
  | none =>
    obtain ⟨-, rfl, -⟩ := hrest.of_raise
    exact .inr ⟨rfl, hattrs⟩
  | some record =>
    obtain ⟨-, rfl, -⟩ := hrest.of_ret
    refine .inl ⟨record.kind, rfl, ?_⟩
    rw [hattrs]
    exact Option.some_ne_none record

/-- The guards refuse the call, or let it through with the connector it has read. -/
theorem guards_end {k : ConnectorRecord → Registry.Handler Registry.Response}
    {r : Except Registry.Exc Registry.Response}
    (h : Prog.Ends (Registry.discipline rq)
      (do
        Registry.requireInternalCaller env token
        if tenantId = "" then .raise Registry.tenantRequired
        else
          let record ← Registry.tenantConnector connectorId tenantId
          Registry.requireExecutable record
          k record)
      Registry.Session.fresh log r s') :
    InternalEnd env token tenantId connectorId log r ∨
      ∃ record s₁ rest, log = ⟨.getConnector connectorId false, some record⟩ :: rest ∧
        Admitted env token tenantId log ∧ s₁.Clean ∧ s₁.invocations = (fun _ => none) ∧
        s₁.Holds connectorId record ∧
        Prog.Ends (Registry.discipline rq) (k record) s₁ rest r s' := by
  rcases h.of_bind with ⟨u, s₁, l₁, l₂, hcaller, hrest, rfl⟩ | ⟨e, hcaller, rfl⟩
  swap
  · obtain ⟨rfl, -, hok | ⟨hauth, he⟩⟩ := requireInternalCaller_ends hcaller
    · cases hok.1
    · have hguarded : ¬ Admitted env token tenantId [] := fun ha =>
        hauth ⟨ha.configured, ha.authentic⟩
      rcases he with he | ⟨statusCode, detail, he, hfailed⟩
      · cases he
        exact .inl (.broken rfl rfl)
      · cases he
        exact .inl (.refused rfl hguarded hfailed)
  obtain ⟨rfl, rfl, ⟨-, hauth⟩ | ⟨-, he⟩⟩ := requireInternalCaller_ends hcaller
  swap
  · rcases he with he | ⟨_, _, he, _⟩ <;> cases he
  rw [List.nil_append]
  split at hrest
  · rename_i hempty
    obtain ⟨rfl, rfl, -⟩ := hrest.of_raise
    exact .inl (.refused rfl (fun ha => ha.tenant hempty) (by decide))
  rename_i htenant
  rcases hrest.of_bind with ⟨record, s₂, l₃, l₄, hconnector, hrest₂, rfl⟩ | ⟨e, hconnector, rfl⟩
  swap
  · obtain ⟨-, -, ⟨_, he, -⟩ | ⟨found, he, rfl, hother⟩⟩ :=
      tenantConnector_ends Registry.Session.fresh_clean hconnector
    · cases he
    · cases he
      refine .inl (.refused rfl (fun ha => ?_) (by decide))
      obtain ⟨record, hfound, hsame, -⟩ := ha.executable
      exact hother record hfound hsame
  obtain ⟨hclean, hinv, ⟨_, hrecord, rfl, hsame, hheld⟩ | ⟨_, he, -⟩⟩ :=
    tenantConnector_ends Registry.Session.fresh_clean hconnector
  swap
  · cases he
  cases hrecord
  rcases hrest₂.of_bind with ⟨u, s₃, l₅, l₆, hexecutable, hrest₃, rfl⟩ | ⟨e, hexecutable, rfl⟩
  swap
  · obtain ⟨rfl, -, hok | ⟨hexec, statusCode, detail, he, hfailed⟩⟩ :=
      requireExecutable_ends hexecutable
    · cases hok.1
    · cases he
      refine .inl (.refused rfl (fun ha => ?_) hfailed)
      obtain ⟨_, hfound, -, hexec'⟩ := ha.executable
      cases hfound
      rw [hexec] at hexec'
      cases hexec'
  obtain ⟨rfl, rfl, ⟨-, hexec⟩ | ⟨-, _, _, he, -⟩⟩ := requireExecutable_ends hexecutable
  swap
  · cases he
  rw [List.nil_append, List.singleton_append]
  exact .inr ⟨record, _, _, rfl, ⟨hauth.1, hauth.2, htenant, record, rfl, hsame, hexec⟩, hclean,
    hinv, hheld, hrest₃⟩

/-- A new invocation is carried out and shown, or the call breaks off. -/
theorem newInvocation_ends {record : ConnectorRecord} {invocation : InvocationRecord}
    {whole : CallLog} {r : Except Registry.Exc Registry.Response}
    (hpasses : Admitted env token tenantId whole) (hfree : whole.found = none)
    (h : Prog.Ends (Registry.discipline rq)
      (Registry.execute env record invocation payload >>= fun final =>
        Registry.internalReply connectorId final) s log r s') :
    InternalEnd env token tenantId connectorId whole r := by
  rcases h.of_bind with ⟨final, s₁, l₁, l₂, hexecute, hreply, rfl⟩ | ⟨e, hexecute, rfl⟩
  · rcases execute_ends hexecute with ⟨_, he, hsettled⟩ | ⟨_, he, -⟩
    · cases he
      rcases internalReply_ends hreply with ⟨kind, rfl, -⟩ | ⟨rfl, -⟩
      · exact .finished hpasses hfree hsettled
      · exact .broken hfree rfl
    · cases he
  · rcases execute_ends hexecute with ⟨_, he, -⟩ | ⟨_, he, hunhandled⟩
    · cases he
    · cases he
      exact .broken hfree hunhandled

/-- **How a call of the internal endpoint can end**, whatever the database becomes in between. -/
theorem invokeConnectorInternal_ends {r : Except Registry.Exc Registry.Response}
    (h : Prog.Ends (Registry.discipline rq)
      (Registry.invokeConnectorInternal env token tenantId connectorId payload)
      Registry.Session.fresh log r s') :
    InternalEnd env token tenantId connectorId log r := by
  rcases guards_end h with hend |
    ⟨record, s₁, rest, rfl, hpasses, hclean, hinv, hheld, hrest⟩
  · exact hend
  split at hrest
  · obtain ⟨rfl, rfl, -⟩ := hrest.of_raise
    exact .broken rfl rfl
  rcases hrest.of_bind with ⟨⟨invocation, replay⟩, s₂, l₁, l₂, haccept, hanswer, rfl⟩ |
    ⟨e, haccept, rfl⟩
  swap
  · rcases accept_ends hinv hclean haccept with ⟨_, _, he, -⟩ | ⟨hfree, ⟨_, he⟩ | ⟨_, _, he, -⟩ |
      ⟨e', he, hunhandled⟩⟩
    · cases he
    · cases he
    · cases he
    · cases he
      have hnone := hfree []
      rw [List.append_nil] at hnone
      exact .broken hnone hunhandled
  -- a replay shows the row there is
  have hshown : ∀ existing flag, (Except.ok (invocation, replay) : Except Registry.Exc _) =
      .ok (existing, some flag) → ∃ l₃, Prog.Ends (Registry.discipline rq)
        (Registry.internalReply connectorId existing) s₂ l₃ r s' := by
    intro existing flag he
    cases he
    rcases hanswer.of_bind with ⟨_, s₃, l₃, l₄, hret, hreply, -⟩ | ⟨e, hret, -⟩
    · obtain ⟨rfl, he, rfl⟩ := hret.of_ret
      cases he
      exact ⟨l₄, hreply⟩
    · cases hret
  rcases accept_ends hinv hclean haccept with ⟨existing, flag, he, hfound, hfits, hconnectors⟩ |
    ⟨hfree, ⟨new, he⟩ | ⟨existing, flag, he, hexpired⟩ | ⟨_, he, -⟩⟩
  · obtain ⟨l₃, hreply⟩ := hshown existing flag he
    rcases internalReply_ends hreply with ⟨kind, rfl, -⟩ | ⟨-, hexpired⟩
    · exact .replayed hpasses (hfound _) hfits
    · -- nothing was rolled back: the connector is still loaded
      have hattrs := hclean.attrs_eq.mpr hheld
      unfold Registry.Session.connectorAttrs at hattrs hexpired
      rw [hconnectors, hattrs] at hexpired
      cases hexpired
  · cases he
    exact newInvocation_ends hpasses (hfree _) hanswer
  · obtain ⟨l₃, hreply⟩ := hshown existing flag he
    rcases internalReply_ends hreply with ⟨-, -, hheld⟩ | ⟨rfl, -⟩
    · exact absurd (hexpired connectorId) hheld
    · exact .broken (hfree _) rfl
  · cases he

end Ends

/-! ## How the fan-out ends -/

/-- An outcome as a response. -/
def respond : Except Registry.Exc Registry.Response → Registry.Response
  | .ok response => response
  | .error e => e.respond

/-- A call of the internal endpoint, with everything that happened in it. -/
structure RegistryCall where
  env : Registry.Env
  token : String
  tenantId : String
  connectorId : Uuid
  payload : Dict String
  log : CallLog
  outcome : Except Registry.Exc Registry.Response
  session : Registry.Session
  ends : Prog.Ends
    (Registry.discipline ⟨env, .invokeConnectorInternal token tenantId connectorId payload⟩)
    (Registry.invokeConnectorInternal env token tenantId connectorId payload)
    Registry.Session.fresh log outcome session

def RegistryCall.response (call : RegistryCall) : Registry.Response := respond call.outcome

/-- Every call that the registry answers in any of its runs is one of these. -/
theorem RegistryCall.of_run {db : Registry.Db} {reqs : Nat → Registry.Incoming}
    {C : System RegistryOp Registry.Session Registry.World Registry.Exc Registry.Response → Nat →
      System RegistryOp Registry.Session Registry.World Registry.Exc Registry.Response → Prop}
    {sys : System RegistryOp Registry.Session Registry.World Registry.Exc Registry.Response}
    (h : Registry.registryMachine.Reaches C (Registry.registry db reqs) sys) {i : Nat}
    {env : Registry.Env} {token tenantId : String} {connectorId : Uuid} {payload : Dict String}
    (hrequest : reqs i = ⟨env, .invokeConnectorInternal token tenantId connectorId payload⟩)
    {response : Registry.Response} (hreturned : (sys.threads i).prog = .ret response) :
    ∃ call : RegistryCall, call.env = env ∧ call.token = token ∧ call.tenantId = tenantId ∧
      call.connectorId = connectorId ∧ call.payload = payload ∧ call.response = response := by
  obtain ⟨log, hends⟩ := h.ends (Registry.registryMachine_implements reqs) hreturned
  change Prog.Ends _ (reqs i).program Registry.Session.fresh log _ _ at hends
  rw [hrequest] at hends
  rcases hends.of_tryCatch with ⟨a, hclosed, ha⟩ | ⟨e, s₁, l₁, l₂, hclosed, hret, -⟩
  · cases ha
    obtain ⟨s₂, l₃, hhandler, -, -⟩ := hclosed.of_finallyDo
    exact ⟨⟨env, token, tenantId, connectorId, payload, l₃, _, s₂, hhandler⟩, rfl, rfl, rfl, rfl, rfl,
      rfl⟩
  · obtain ⟨-, hresponse, -⟩ := hret.of_ret
    cases hresponse
    obtain ⟨s₂, l₃, hhandler, -, -⟩ := hclosed.of_finallyDo
    exact ⟨⟨env, token, tenantId, connectorId, payload, l₃, _, s₂, hhandler⟩, rfl, rfl, rfl, rfl, rfl,
      rfl⟩

/-- What becomes of a call that the orchestrator makes. -/
inductive Answer where
  /-- the internal endpoint answers -/
  | internal (call : RegistryCall)
  /-- FastAPI refuses the request: no such route, or an id that is no UUID -/
  | refused (statusCode : Nat) (detail : Json String) (failed : 400 ≤ statusCode)
  /-- the connector id has made the URL another one -/
  | elsewhere (reply : Reply)
  | unreachable (text : String)
  /-- an exception that is no `httpx.HTTPError` -/
  | raised

/-- The answer as httpx presents it. -/
def Answer.outcome : Answer → PostOutcome
  | internal call => .reply (wire call.response)
  | refused statusCode detail _ => .reply ⟨statusCode, some (.obj [("detail", detail)])⟩
  | elsewhere reply => .reply reply
  | unreachable text => .httpError text
  | raised => .raised

end FavlGateway.Orchestrator
