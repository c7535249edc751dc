/-
  Losing the race for an idempotency key.

  Two requests with one key can both find no invocation for it.  The second to INSERT is refused by
  the unique index, rolls back, and reads the row of the first.  From that rollback on every instance
  its session holds is expired.  The public endpoint reads nothing but the winner's row; the internal
  endpoint names the connector's kind in its reply, and that attribute is gone.

  The rest of the program after a lost flush is known exactly: `flush_of_handler` inverts the partial
  runs of the two endpoints (`Prog.Comes`), whose only flush is the one in `accept`.  What that rest
  can still do, whatever the others commit meanwhile, is then one walk through it (`Prog.Obeys`).
-/
import FavlGateway.Registry.InvocationLog

namespace FavlGateway.Registry

open FavlGateway.Library

/-! ## The only flush of an invoke request -/

/-- The operation is a flush. -/
def RegistryOp.isFlush : {β : Type} → RegistryOp β → Bool
  | _, .flush => true
  | _, _ => false

/-- No path through the handler flushes. -/
def FlushFree {α : Type} (p : Handler α) : Prop := p.AtMost RegistryOp.isFlush 0

namespace FlushFree

variable {α β : Type}

theorem ret (a : α) : FlushFree (.ret a) := trivial

theorem raise (e : Exc) : FlushFree (.raise e : Handler α) := trivial

theorem await {o : RegistryOp β} {f : β → Handler α} (ho : o.isFlush = false)
    (hf : ∀ b, FlushFree (f b)) : FlushFree (await o >>= f) := by
  refine ⟨fun h => absurd (h.symm.trans ho) (by decide), fun b => ?_⟩
  rw [if_neg (by simp [ho])]
  exact hf b

theorem seq {p : Handler β} {f : β → Handler α} (hp : FlushFree p) (hf : ∀ b, FlushFree (f b)) :
    FlushFree (p >>= f) := by
  show (p >>= f).AtMost RegistryOp.isFlush (0 + 0)
  exact Prog.AtMost.bind hp hf

theorem commit : FlushFree commit :=
  .await rfl fun b => by cases b <;> trivial

end FlushFree

theorem tenantConnector_flushFree (connectorId : Uuid) (tenantId : String) :
    FlushFree (tenantConnector connectorId tenantId) := by
  refine .await rfl fun b => ?_
  split
  · exact .raise _
  · exact .ret _

theorem finalise_flushFree (env : Env) (record : InvocationRecord) (result : InvocationResult) :
    FlushFree (finalise env record result) := by
  refine .await rfl fun _ => ?_
  split
  · exact .raise _
  · exact .await rfl fun _ => .seq .commit fun _ => .ret _

theorem execute_flushFree (env : Env) (connector : ConnectorRecord) (record : InvocationRecord)
    (payload : Dict String) : FlushFree (execute env connector record payload) := by
  unfold execute
  split
  · exact finalise_flushFree ..
  · exact .await rfl fun _ => .await rfl fun _ => .seq .commit fun _ =>
      .await rfl fun _ => finalise_flushFree ..

theorem internalReply_flushFree (connectorId : Uuid) (invocation : InvocationRecord) :
    FlushFree (internalReply connectorId invocation) := by
  refine .await rfl fun b => ?_
  split
  · exact .raise _
  · exact .ret _

/-- What is left of `accept` after its flush was refused by the unique index. -/
def reuseWinner (tenantId : String) (connectorId : Uuid) (key : String) :
    Handler (InvocationRecord × Option ReplayedInvocation) := do
  await .rollback
  match ← await (.findExisting tenantId connectorId key) with
  | none => .raise (.db .integrity)
  | some existing => pure (existing, some ⟨existing, true⟩)

/-- What is left of `accept` after its flush. -/
def acceptRest (env : Env) (connector : ConnectorRecord) (args : AcceptArgs) :
    Except DbError Unit → Handler (InvocationRecord × Option ReplayedInvocation)
  | .error .integrity => reuseWinner args.tenantId connector.id args.idempotencyKey
  | .error .data => .raise (.db .data)
  | .ok () => do
    await (.enqueue (emitted (env.uuid4 1) (newInvocation env connector args) acceptedEvent))
    commit
    pure (newInvocation env connector args, none)

theorem acceptRest_flushFree (env : Env) (connector : ConnectorRecord) (args : AcceptArgs)
    (answer : Except DbError Unit) : FlushFree (acceptRest env connector args answer) := by
  match answer with
  | .error .integrity =>
    refine .await rfl fun _ => .await rfl fun b => ?_
    split
    · exact .raise _
    · exact .ret _
  | .error .data => exact .raise _
  | .ok () => exact .await rfl fun _ => .seq .commit fun _ => .ret _

section Inversion

variable {rq : Incoming} {env : Env} {s s' : Session} {α : Type}

/-- The flush of `accept` comes from a session that has loaded no invocation, and the rest after its
    refusal reuses the winner's row. -/
theorem flush_of_accept {connector : ConnectorRecord} {args : AcceptArgs}
    (hinv : s.invocations = fun _ => none)
    {k : Except DbError Unit → Handler (InvocationRecord × Option ReplayedInvocation)}
    (h : Prog.Comes (discipline rq) (accept env connector args) s (.op .flush k) s') :
    s'.invocations = (fun _ => none) ∧
      k (.error .integrity) = reuseWinner args.tenantId connector.id args.idempotencyKey := by
  obtain ⟨found, s₁, heff, h⟩ := h.past RegistryOp.isFlush rfl rfl
  cases found with
  | some existing => cases h
  | none =>
    have hinv₁ : s₁.invocations = fun _ => none := by
      obtain ⟨i, st, hnone, rfl⟩ := heff
      simp only [perform] at hnone ⊢
      cases hrow : st.db.invocationByKey args.tenantId connector.id args.idempotencyKey with
      | none => exact hinv
      | some row =>
        simp only [hrow, Session.loadInvocation, Session.invocationAttrs, hinv,
          Option.bind_none] at hnone
        cases hnone
    obtain ⟨u, s₂, heff₂, h⟩ := h.past RegistryOp.isFlush rfl rfl
    obtain ⟨_, _, -, rfl⟩ := heff₂
    rcases h.of_op with ⟨heq, rfl⟩ | ⟨answer, s₃, heff₃, h⟩
    · cases heq
      exact ⟨hinv₁, rfl⟩
    -- no other flush follows
    · cases h.unmarked RegistryOp.isFlush (acceptRest_flushFree env connector args answer)

/-- The connector a fresh session has found. -/
theorem tenantConnector_comes {connectorId : Uuid} {tenantId : String} {record : ConnectorRecord}
    (h : Prog.Comes (discipline rq) (tenantConnector connectorId tenantId) Session.fresh
      (.ret record) s') :
    record.id = connectorId ∧ s'.invocations = fun _ => none := by
  rcases h.of_perform with ⟨heq, -⟩ | ⟨found, s₁, heff, h⟩
  · cases heq
  obtain ⟨clean, -, hinv, hheld, -⟩ := Session.fresh_clean.effect_getConnector heff
  cases hfilter : found.filter (·.tenantId = tenantId) with
  | none =>
    rw [hfilter] at h
    obtain ⟨heq, -⟩ := h.of_raise
    cases heq
  | some found' =>
    rw [hfilter] at h
    obtain ⟨heq, rfl⟩ := h.of_ret
    cases heq
    obtain ⟨rfl, -⟩ := Option.filter_eq_some_iff.mp hfilter
    exact ⟨clean.holds_id (hheld record rfl), hinv⟩

/-- The guard performs no operation. -/
theorem requireExecutable_comes {record : ConnectorRecord} {q : Handler Unit}
    (h : Prog.Comes (discipline rq) (requireExecutable record) s q s') :
    s' = s ∧ ∀ β (o : RegistryOp β) k, q ≠ .op o k := by
  rcases requireExecutable_cases record with hret | ⟨e, hraise⟩
  · rw [hret] at h
    obtain ⟨rfl, rfl⟩ := h.of_ret
    exact ⟨rfl, fun _ _ _ h => by cases h⟩
  · rw [hraise] at h
    obtain ⟨rfl, rfl⟩ := h.of_raise
    exact ⟨rfl, fun _ _ _ h => by cases h⟩

/-- After it lost its race the public endpoint answers with the row it reads. -/
theorem flush_of_public {caller : CallerIdentity} {connectorId : Uuid}
    {payload : InvocationCreate} {xRequestId traceparent : Option String}
    {k : Except DbError Unit → Handler Response}
    (h : Prog.Comes (discipline rq)
      (invokeConnectorV1 env caller connectorId payload xRequestId traceparent) Session.fresh
      (.op .flush k) s') :
    s'.invocations = (fun _ => none) ∧ ∃ f,
      k (.error .integrity) =
        (reuseWinner caller.tenantId connectorId payload.idempotencyKey >>= f) ∧
      ∀ w replay, f (w, some replay) =
        .ret ⟨httpStatusFor w, .invocation (invocationSchema w)⟩ := by
  rcases h.of_bind with ⟨k₁, h₁, -⟩ | ⟨record, s₁, h₁, hrest₁⟩
  · cases h₁.unmarked RegistryOp.isFlush (tenantConnector_flushFree connectorId caller.tenantId)
  obtain ⟨hid, hinv⟩ := tenantConnector_comes h₁
  rcases hrest₁.of_bind with ⟨k₂, h₂, -⟩ | ⟨_, s₂, h₂, hrest₂⟩
  · exact absurd rfl ((requireExecutable_comes h₂).2 _ _ _)
  obtain ⟨rfl, -⟩ := requireExecutable_comes h₂
  rcases hrest₂.of_bind with ⟨k₃, h₃, rfl⟩ | ⟨⟨invocation, replay⟩, s₃, h₃, hrest₃⟩
  · obtain ⟨hinv', hreuse⟩ := flush_of_accept hinv h₃
    rw [hid] at hreuse
    exact ⟨hinv', _, congrArg (· >>= _) hreuse, fun w replay => rfl⟩
  · cases replay with
    | some replay => cases hrest₃
    | none =>
      cases hrest₃.unmarked RegistryOp.isFlush
        (FlushFree.seq (execute_flushFree env record invocation payload.payload) fun _ => .ret _)

/-- After it lost its race the internal endpoint goes on to its reply. -/
theorem flush_of_internal {token tenantId : String} {connectorId : Uuid} {payload : Dict String}
    {k : Except DbError Unit → Handler Response}
    (h : Prog.Comes (discipline rq)
      (invokeConnectorInternal env token tenantId connectorId payload) Session.fresh
      (.op .flush k) s') :
    s'.invocations = (fun _ => none) ∧ ∃ body f, agentInput payload = some body ∧
      k (.error .integrity) =
        (reuseWinner tenantId connectorId (agentKey env (agentId env payload) body) >>= f) ∧
      ∀ w replay, f (w, some replay) = internalReply connectorId w := by
  unfold invokeConnectorInternal at h
  rcases requireInternalCaller_cases env token with hret | ⟨e, hraise⟩
  swap
  · rw [hraise] at h
    cases h
  rw [hret, Prog.ret_bind] at h
  split at h
  · cases h
  rcases h.of_bind with ⟨k₁, h₁, -⟩ | ⟨record, s₁, h₁, hrest₁⟩
  · cases h₁.unmarked RegistryOp.isFlush (tenantConnector_flushFree connectorId tenantId)
  obtain ⟨hid, hinv⟩ := tenantConnector_comes h₁
  rcases hrest₁.of_bind with ⟨k₂, h₂, -⟩ | ⟨_, s₂, h₂, hrest₂⟩
  · exact absurd rfl ((requireExecutable_comes h₂).2 _ _ _)
  obtain ⟨rfl, -⟩ := requireExecutable_comes h₂
  cases hbody : agentInput payload with
  | none =>
    rw [hbody] at hrest₂
    cases hrest₂
  | some body =>
    rw [hbody] at hrest₂
    rcases hrest₂.of_bind with ⟨k₃, h₃, rfl⟩ | ⟨⟨invocation, replay⟩, s₃, h₃, hrest₃⟩
    · obtain ⟨hinv', hreuse⟩ := flush_of_accept hinv h₃
      rw [hid] at hreuse
      exact ⟨hinv', body, _, rfl, congrArg (· >>= _) hreuse, fun w replay => rfl⟩
    · cases replay with
      | some replay =>
        cases hrest₃.unmarked RegistryOp.isFlush (internalReply_flushFree connectorId invocation)
      | none =>
        cases hrest₃.unmarked RegistryOp.isFlush
          (FlushFree.seq (execute_flushFree env record invocation body)
            fun v => internalReply_flushFree connectorId v)

end Inversion

/-! ## What the loser can still do -/

/-- The request comes in by the public endpoint. -/
def Request.isPublic : Request → Bool
  | .invokeConnectorV1 _ _ _ _ _ => true
  | _ => false

/-- In this step request `i`, which asks for the invocation `winner` again, is refused its own row:
    it found none under the key, and the unique index holds the winner's. -/
structure LosesRace (reqs : Nat → Incoming) (i : Nat) (winner : InvocationRecord)
    (sys sys' : System RegistryOp Session World Exc Response) : Prop where
  asks : (reqs i).request.Replays (reqs i).env winner
  taken : winner ∈ sys.world.db.invocations
  refused : ∃ k s' w', (sys.threads i).prog = .op .flush k ∧
    registryMachine.step i .flush (sys.sessions i) sys.world =
      some (.error .integrity, s', w') ∧
    sys' = ⟨w', Function.update sys.threads i ⟨s', k (.error .integrity)⟩⟩

/-- The response describes the winner's invocation, as it stood at some time between the lost race
    and the response, with the status that `_http_status_for` gives it. -/
def DescribesWinner (request : Request) (winner : InvocationRecord)
    (lost answered : System RegistryOp Session World Exc Response) (response : Response) : Prop :=
  ∃ sys w, registryMachine.Reaches Machine.Any lost sys ∧
    registryMachine.Reaches Machine.Any sys answered ∧
    sys.world.db.invocation winner.id = some w ∧ response = w.answer request

/-- Operations that wait for no lock. -/
def RegistryOp.waitsForNothing : {β : Type} → RegistryOp β → Bool
  | _, .rollback => true
  | _, .close => true
  | _, .findExisting _ _ _ => true
  | _, .connectorAttrs _ => true
  | _, _ => false

theorem not_blocked {i : Nat} {β : Type} {o : RegistryOp β} (ho : o.waitsForNothing = true)
    (s : Session) (w : World) : blocked i o s w = false := by
  cases o <;> first | rfl | cases ho

/-- What the operations can answer between two states of a run. -/
def duringRun (lost answered : System RegistryOp Session World Exc Response) :
    Discipline RegistryOp Session where
  pre o _ := o.waitsForNothing = true
  eff o s b s' := ∃ sys i, registryMachine.Reaches Machine.Any lost sys ∧
    registryMachine.Reaches Machine.Any sys answered ∧
    (perform i o s sys.world.toStore).1 = b ∧ (perform i o s sys.world.toStore).2.1 = s'

section Loser

variable {reqs : Nat → Incoming} {lost answered : System RegistryOp Session World Exc Response}
  {winner : InvocationRecord} {s : Session} {tenantId key : String} {connectorId : Uuid}

/-- The loser reads the winner's row, and its session has nothing else left to read. -/
theorem reuseWinner_during (h : registryMachine.Reaches Machine.Any (registry Db.empty reqs) lost)
    (htaken : winner ∈ lost.world.db.invocations)
    (hkey : winner.HasKey tenantId connectorId key) (hinv : s.invocations = fun _ => none) :
    (reuseWinner tenantId connectorId key).Obeys (duringRun lost answered) (fun r s' =>
      (∃ w replay, r = .ok (w, some replay) ∧ ∃ sys,
        registryMachine.Reaches Machine.Any lost sys ∧
        registryMachine.Reaches Machine.Any sys answered ∧
        sys.world.db.invocation winner.id = some w) ∧ ∀ id, s'.connectorAttrs id = none) s := by
  refine ⟨rfl, fun _ s₁ heff => ?_⟩
  obtain ⟨_, _, -, -, -, rfl⟩ := heff
  refine ⟨rfl, fun found s₂ heff => ?_⟩
  obtain ⟨sys, i, hsys, hleft, rfl, rfl⟩ := heff
  -- the winner's row is still there, and is what the key finds
  obtain ⟨row, hmem, hsame⟩ := invocation_stays_later h hsys htaken
  have hfound : sys.world.db.invocationByKey tenantId connectorId key = some row :=
    Db.invocationByKey_of_mem hmem ⟨hsame.tenantId.trans hkey.1,
      hsame.connectorId.trans hkey.2.1, hsame.idempotencyKey.trans hkey.2.2⟩
  have hanswer : (s.rolledBack.loadInvocation (some row)).1 = some row := by
    simp only [Session.loadInvocation, Session.invocationAttrs, Session.rolledBack, hinv,
      Option.map_none, Option.bind_none]
  simp only [perform, hfound, hanswer]
  refine ⟨⟨row, ⟨row, true⟩, rfl, sys, hsys, hleft, ?_⟩, fun id => ?_⟩
  · rw [← hsame.id]
    exact Db.invocation_of_mem hmem
  · unfold Session.connectorAttrs
    rw [Session.loadInvocation_connectors]
    show ((s.connectors id).map Instance.expire).bind Instance.attrs = none
    cases s.connectors id <;> rfl

/-- How the loser's program ends: with the winner's row if it came in by the public endpoint, with a
    server error otherwise. -/
def LosersEnd (request : Request) (winner : InvocationRecord)
    (lost answered : System RegistryOp Session World Exc Response) :
    Except Exc Response → Session → Prop
  | .ok response, _ => request.isPublic = true ∧ DescribesWinner request winner lost answered response
  | .error e, _ => request.isPublic = false ∧ e = .missingGreenlet

/-- What is left of either endpoint after a lost race. -/
theorem loser_during (h : registryMachine.Reaches Machine.Any (registry Db.empty reqs) lost)
    (htaken : winner ∈ lost.world.db.invocations)
    {rq : Incoming} (hasks : rq.request.Replays rq.env winner)
    {k : Except DbError Unit → Handler Response}
    (hcomes : Prog.Comes (discipline rq) (handler rq.env rq.request) Session.fresh
      (.op .flush k) s) :
    (k (.error .integrity)).Obeys (duringRun lost answered)
      (LosersEnd rq.request winner lost answered) s.rolledBack := by
  have hrolledBack : s.invocations = (fun _ => none) →
      s.rolledBack.invocations = fun _ => none := by
    intro hinv
    simp only [Session.rolledBack, hinv, Option.map_none]
  cases hrq : rq.request with
  | invokeConnectorV1 caller connectorId payload xRequestId traceparent =>
    rw [hrq] at hasks hcomes
    obtain ⟨hinv, f, hk, hf⟩ := flush_of_public hcomes
    rw [hk]
    refine Prog.Obeys.bind ((reuseWinner_during h htaken hasks (hrolledBack hinv)).mono ?_)
    rintro r s' ⟨⟨w, replay, rfl, sys, hsys, hleft, hrow⟩, -⟩
    simp only [hf]
    exact ⟨rfl, sys, w, hsys, hleft, hrow, rfl⟩
  | invokeConnectorInternal token tenantId connectorId payload =>
    rw [hrq] at hasks hcomes
    obtain ⟨hinv, body, f, hbody, hk, hf⟩ := flush_of_internal hcomes
    obtain ⟨body', hbody', hkey⟩ := hasks
    rw [hbody, Option.some.injEq] at hbody'
    subst hbody'
    rw [hk]
    refine Prog.Obeys.bind ((reuseWinner_during h htaken hkey (hrolledBack hinv)).mono ?_)
    rintro r s' ⟨⟨w, replay, rfl, -⟩, hexpired⟩
    simp only [hf]
    -- the reply reads an attribute that the rollback expired
    refine ⟨rfl, fun attrs s₁ heff => ?_⟩
    obtain ⟨_, _, -, -, rfl, rfl⟩ := heff
    simp only [perform, hexpired connectorId]
    exact ⟨rfl, rfl⟩
  | _ =>
    rw [hrq] at hasks
    cases hasks

end Loser

/-- The flush of a request is one of its handler. -/
theorem flush_of_program {rq : Incoming} {s : Session} {k : Except DbError Unit → Handler Response}
    (h : Prog.Comes (discipline rq) rq.program Session.fresh (.op .flush k) s) :
    ∃ k', Prog.Comes (discipline rq) (handler rq.env rq.request) Session.fresh (.op .flush k') s ∧
      k = fun b => ((k' b).finallyDo .close).tryCatch fun e => .ret e.respond := by
  rcases h.of_tryCatch with ⟨k₁, h₁, rfl⟩ | ⟨e, s₁, -, hrest⟩
  · obtain ⟨k₂, h₂, rfl⟩ := h₁.of_finallyDo RegistryOp.isFlush rfl rfl
    exact ⟨k₂, h₂, rfl⟩
  · cases hrest

/-- A step that loses the race leaves a session with everything expired, and the program after the
    refused flush. -/
theorem LosesRace.lost {reqs : Nat → Incoming} {i : Nat} {winner : InvocationRecord}
    {sys lost : System RegistryOp Session World Exc Response} (h : LosesRace reqs i winner sys lost) :
    ∃ k, (sys.threads i).prog = .op .flush k ∧
      (lost.threads i).prog = k (.error .integrity) ∧
      (lost.threads i).session = (sys.sessions i).rolledBack ∧
      lost.world.db = sys.world.db ∧ registryMachine.Step sys i lost := by
  obtain ⟨k, s', w', hp, hstep, rfl⟩ := h.refused
  obtain ⟨hperf, -, -⟩ := registryMachine_step hstep
  have hstore := perform_store (i := i) (o := .flush) rfl rfl (sys.sessions i) sys.world.toStore
  rw [hperf] at hstore
  refine ⟨k, hp, by simp, ?_, congrArg Store.db hstore, .op hp hstep⟩
  have hs' : s' = (perform i .flush (sys.sessions i) sys.world.toStore).2.1 := by rw [hperf]
  have hanswer : (perform i .flush (sys.sessions i) sys.world.toStore).1 =
      .error .integrity := by rw [hperf]
  simp only [Function.update_self]
  rw [hs']
  simp only [perform] at hanswer ⊢
  split at hanswer
  · cases hanswer
  · rename_i hinvalid
    rw [if_neg hinvalid]

/-- No row is answered with a server error. -/
theorem answer_not_serverError (w : InvocationRecord) (request : Request) :
    (w.answer request).statusCode ≠ 500 := by
  have hstatus : httpStatusFor w ≠ 500 := by
    unfold httpStatusFor
    repeat' split
    all_goals omega
  cases request <;> exact hstatus

/-- **Losing the idempotency race is a normal reply**, on the public endpoint and only there: in
    every run, whoever loses the race waits for nothing any more, and what it answers describes the
    winner's invocation if and only if it came in by the public endpoint. -/
theorem lost_race_reply (reqs : Nat → Incoming) {i : Nat} {winner : InvocationRecord}
    {sys lost answered : System RegistryOp Session World Exc Response}
    (h : registryMachine.Reaches Machine.Any (registry Db.empty reqs) sys)
    (hlost : LosesRace reqs i winner sys lost)
    (hlater : registryMachine.Reaches Machine.Any lost answered) :
    (∀ (β : Type) (o : RegistryOp β) (k : β → Handler Response),
      (answered.threads i).prog = .op o k →
        blocked i o (answered.sessions i) answered.world = false) ∧
    ∀ response, (answered.threads i).prog = .ret response →
      (DescribesWinner (reqs i).request winner lost answered response ↔
        (reqs i).request.isPublic = true) := by
  obtain ⟨k, hp, hprog, hsession, hdb, hs⟩ := hlost.lost
  have hreach : registryMachine.Reaches Machine.Any (registry Db.empty reqs) lost :=
    .step h hs trivial
  have htaken : winner ∈ lost.world.db.invocations := by
    rw [hdb]
    exact hlost.taken
  -- the rest of the program, from the partial run it stands in
  have hcomes := h.comes (registryMachine_implements reqs) i
  rw [hp] at hcomes
  rcases hcomes with hcrashed | hcomes
  · cases hcrashed
  obtain ⟨k', hhandler, rfl⟩ := flush_of_program hcomes
  have hobeys : (lost.threads i).prog.Obeys (duringRun lost answered) (fun r _ =>
      ∀ response, r = .ok response →
        (reqs i).request.isPublic = true ∧
          DescribesWinner (reqs i).request winner lost answered response ∨
        (reqs i).request.isPublic = false ∧ response.statusCode = 500)
      (lost.threads i).session := by
    rw [hprog, hsession]
    refine Prog.Obeys.tryCatch (Prog.Obeys.finallyDo
      ((loser_during hreach htaken hlost.asks hhandler).mono ?_))
    rintro (e | response) s hend
    · refine ⟨rfl, fun s' _ response hresponse => .inr ⟨hend.1, ?_⟩⟩
      cases hresponse
      rw [hend.2]
      rfl
    · refine ⟨rfl, fun s' _ response hresponse => .inl ?_⟩
      cases hresponse
      exact hend
  have hanswered := hlater.between.obeys (D := duringRun lost answered) ?_ ?_ hobeys
  · refine ⟨fun β o k hop => ?_, fun response hret => ?_⟩
    · rw [hop] at hanswered
      exact not_blocked hanswered.1 _ _
    · rw [hret] at hanswered
      rcases hanswered response rfl with ⟨hpublic, hdescribes⟩ | ⟨hinternal, hcode⟩
      · exact ⟨fun _ => hpublic, fun _ => hdescribes⟩
      · rw [hinternal]
        refine ⟨?_, fun h => by cases h⟩
        rintro ⟨_, w, -, -, -, rfl⟩
        exact absurd hcode (answer_not_serverError w _)
  · intro sys' hrun β o b s' w' hstep
    obtain ⟨hperf, -, -⟩ := registryMachine_step hstep
    have hleft : registryMachine.Reaches Machine.Any sys' answered := by
      cases hrun with
      | start => exact hlater
      | step _ _ hbetween => exact hbetween.2
    exact ⟨sys', i, hrun.mono fun _ _ _ _ => trivial, hleft, by rw [hperf], by rw [hperf]⟩
  · intro response hresponse
    cases hresponse

/-! ## Two races -/

/-- Request `i` is about to be refused its row. -/
def refusedNext (sys : System RegistryOp Session World Exc Response) (i : Nat) : Bool :=
  match (sys.threads i).prog with
  | .op .flush _ =>
    match registryMachine.step i .flush (sys.sessions i) sys.world with
    | some (.error .integrity, _, _) => true
    | _ => false
  | _ => false

theorem LosesRace.of_refusedNext {reqs : Nat → Incoming} {i : Nat} {winner : InvocationRecord}
    {sys : System RegistryOp Session World Exc Response} (h : refusedNext sys i = true)
    (asks : (reqs i).request.Replays (reqs i).env winner)
    (taken : winner ∈ sys.world.db.invocations) :
    LosesRace reqs i winner sys (registryMachine.advance sys i) := by
  refine ⟨asks, taken, ?_⟩
  unfold refusedNext at h
  split at h
  · rename_i k hp
    split at h
    · rename_i s' w' hstep
      refine ⟨k, s', w', hp, hstep, ?_⟩
      unfold Machine.advance
      rw [hp]
      simp only
      rw [show registryMachine.step i .flush (sys.threads i).session sys.world = _ from hstep]
    · cases h
  · cases h

/-- Requests 1 and 2 both find no invocation; request 2 inserts its own. -/
def bothFindNone : List Nat := List.replicate 9 0 ++ List.replicate 3 1 ++ List.replicate 6 2

/-- The columns of a row that make up its key. -/
def InvocationRecord.keyColumns (r : InvocationRecord) : String × Uuid × String :=
  (r.tenantId, r.connectorId, r.idempotencyKey)

set_option maxRecDepth 10000 in
theorem lost_race_reply_public :
    let sys := registryMachine.schedule bothFindNone (registry Db.empty invokedTwice)
    let lost := registryMachine.advance sys 1
    let answered := registryMachine.schedule (List.replicate 3 1) lost
    ∃ winner response, LosesRace invokedTwice 1 winner sys lost ∧
      (answered.threads 1).prog = .ret response ∧ response.statusCode = 202 ∧
      DescribesWinner (invokedTwice 1).request winner lost answered response := by
  intro sys lost answered
  have hrow : (sys.world.db.invocation 20).map InvocationRecord.keyColumns =
      some ("acme", 0, "0123456789") := by
    decide +kernel
  obtain ⟨winner, hwinner, hkey⟩ := Option.map_eq_some_iff.mp hrow
  have hreturned : (answered.threads 1).prog.returned.map (·.statusCode) = some 202 := by
    decide +kernel
  obtain ⟨response, hret, hcode⟩ := Option.map_eq_some_iff.mp hreturned
  simp only [InvocationRecord.keyColumns, Prod.mk.injEq] at hkey
  have hlost : LosesRace invokedTwice 1 winner sys lost :=
    .of_refusedNext (by decide +kernel) hkey (lookup_mem hwinner).1
  have hprog := Prog.eq_ret_of_returned hret
  refine ⟨winner, response, hlost, hprog, hcode, ?_⟩
  exact ((lost_race_reply invokedTwice (Machine.reaches_schedule _ _) hlost
    (Machine.reaches_schedule _ _)).2 response hprog).mpr rfl

/-- A connector, an invocation of it by an agent, and the same call once more. -/
def calledTwice : Nat → Incoming
  | 0 => sampleEnabled
  | i => ⟨{ sampleEnv (10 * i) with internalServiceToken := "token" },
      .invokeConnectorInternal "token" "acme" 0 []⟩

set_option maxRecDepth 10000 in
/-- The loser of the race between two agent calls is answered with a server error. -/
theorem agent_call_loses_reply :
    let sys := registryMachine.schedule bothFindNone (registry Db.empty calledTwice)
    let lost := registryMachine.advance sys 1
    let answered := registryMachine.schedule (List.replicate 4 1) lost
    ∃ winner response, LosesRace calledTwice 1 winner sys lost ∧
      (answered.threads 1).prog = .ret response ∧ response = ⟨500, .internalServerError⟩ ∧
      ¬ DescribesWinner (calledTwice 1).request winner lost answered response := by
  intro sys lost answered
  have hrow : (sys.world.db.invocation 20).map InvocationRecord.keyColumns =
      some ("acme", 0, agentKey (calledTwice 1).env (agentId (calledTwice 1).env []) []) := by
    decide +kernel
  obtain ⟨winner, hwinner, hkey⟩ := Option.map_eq_some_iff.mp hrow
  have hreturned : (answered.threads 1).prog.returned = some ⟨500, .internalServerError⟩ := by
    decide +kernel
  simp only [InvocationRecord.keyColumns, Prod.mk.injEq] at hkey
  have hlost : LosesRace calledTwice 1 winner sys lost :=
    .of_refusedNext (by decide +kernel) ⟨[], rfl, hkey⟩ (lookup_mem hwinner).1
  refine ⟨winner, _, hlost, Prog.eq_ret_of_returned hreturned, rfl, ?_⟩
  rintro ⟨_, w, -, -, -, hanswer⟩
  exact answer_not_serverError w _ (congrArg Response.statusCode hanswer).symm

end FavlGateway.Registry
