/-
  What an invocation of an agent reports: one entry for each of its calls, in the response and in the
  `agent.invoked` event.

  `reporting` is the discipline that every request keeps; from it `reaches_reported` and
  `reaches_answered` say of every run that what stands in the outbox, and what a request has returned,
  are the entries of the calls that some request made.
-/
import FavlGateway.Orchestrator.Sequence

namespace FavlGateway.Orchestrator

open FavlGateway.Library
open FavlGateway.Registry (Uuid OutboxEvent CallerIdentity)

/-! ## What an invocation reports -/

/-- The entries, in order, are those of the calls from number `k` on. -/
def Entries (network : Nat → PostOutcome) (k : Nat) (outputs : List (Dict String)) : Prop :=
  ∀ n entry, outputs[n]? = some entry →
    ∃ connectorId, fanOutEntry connectorId (network (k + n)) = .ok entry

/-- The result of an invocation whose calls end as `network` says. -/
def Reports (network : Nat → PostOutcome) (agentId : Uuid) (result : Json String) : Prop :=
  ∃ outputs, result = invocationResult agentId outputs ∧ Entries network 0 outputs

/-- The request invokes the agent. -/
def Incoming.Invokes (rq : Incoming) (agentId : Uuid) : Prop :=
  ∃ payload caller, rq.request = .invokeAgent agentId payload caller

/-- An `agent.invoked` event of the request, with its result. -/
def Published (network : Nat → PostOutcome) (rq : Incoming) (e : OutboxEvent) : Prop :=
  e.subject = "agent.invoked" →
    ∃ agentId version result, rq.Invokes agentId ∧
      e = invokedEvent rq.env agentId version result ∧ Reports network agentId result

/-- The event an operation stages. -/
def AgentOp.staged : {β : Type} → AgentOp β → List OutboxEvent
  | _, .enqueue e => [e]
  | _, _ => []

/-- A request whose calls end as `network` says may stage what it reports. -/
def reporting (network : Nat → PostOutcome) (rq : Incoming) : Discipline AgentOp Session where
  pre o _ := ∀ e ∈ o.staged, Published network rq e
  eff o s b s' := ∃ db, (perform network o s db).1 = b ∧ (perform network o s db).2.1 = s'

/-- A response with the result of an invocation reports it. -/
def Answered (network : Nat → PostOutcome) (rq : Incoming) (r : Except Exc Response) : Prop :=
  ∀ statusCode result, r = .ok ⟨statusCode, .invoked result⟩ →
    ∃ agentId, rq.Invokes agentId ∧ Reports network agentId result

section FanOut

variable {network : Nat → PostOutcome} {rq : Incoming} {s : Session} {agentId : Uuid}
  {payload : Dict String} {tenantId : String}

theorem Answered.of_error (e : Exc) : Answered network rq (.error e) := by
  intro statusCode result h
  cases h

theorem nothing_staged : ∀ e ∈ ([] : List OutboxEvent), Published network rq e := by
  intro e he
  cases he

theorem Entries.nil (k : Nat) : Entries network k [] := by
  intro n entry h
  cases h

theorem Entries.cons {k : Nat} {connectorId : String} {entry : Dict String}
    {outputs : List (Dict String)} (hentry : fanOutEntry connectorId (network k) = .ok entry)
    (h : Entries network (k + 1) outputs) : Entries network k (entry :: outputs) := by
  intro n entry' hn
  cases n with
  | zero =>
    cases hn
    exact ⟨connectorId, hentry⟩
  | succ n =>
    obtain ⟨connectorId', hentry'⟩ := h n entry' hn
    refine ⟨connectorId', ?_⟩
    rw [← hentry']
    congr 2
    omega

theorem load_sent {db : Db} {id : Uuid} {locked : Bool} : (s.load db id locked).2.sent = s.sent := by
  unfold Session.load
  cases db.agent id <;> rfl

/-- A read changes nothing but the identity map. -/
theorem perform_getAgent (network : Nat → PostOutcome) (s : Session) (db : Db) (id : Uuid) :
    (perform network (.getAgent id) s db).2 = (s, db) ∨
      (perform network (.getAgent id) s db).2 = ((s.load db id false).2, db) := by
  unfold perform
  cases hheld : s.held id with
  | some row =>
    left
    simp only [hheld]
  | none =>
    right
    simp only [hheld]

theorem getAgent_sent {db : Db} {id : Uuid} :
    (perform network (.getAgent id) s db).2.1.sent = s.sent := by
  rcases perform_getAgent network s db id with h | h
  · rw [h]
  · rw [h]
    exact load_sent

theorem tenantAgent_reports {α : Type} {Q : Except Exc α → Session → Prop}
    {k : AgentRecord → Handler α} (hnone : ∀ s', Q (.error agentNotFound) s')
    (hsome : ∀ record s', s'.sent = s.sent → (k record).Obeys (reporting network rq) Q s') :
    (tenantAgent agentId tenantId >>= k).Obeys (reporting network rq) Q s := by
  unfold tenantAgent await
  simp only [Prog.perform_bind, Prog.op_bind]
  refine ⟨nothing_staged, ?_⟩
  rintro found s' ⟨db, -, rfl⟩
  dsimp only
  cases found.filter (·.tenantId = tenantId) with
  | none => exact hnone _
  | some record => exact hsome record _ getAgent_sent

/-- By induction on the connectors: one call for each, and one entry of each call. -/
theorem fanOut_reports (connectorIds : List String) :
    (fanOut rq.env agentId payload tenantId connectorIds).Obeys (reporting network rq)
      (fun r _ => ∀ outputs, r = .ok outputs → Entries network s.sent outputs) s := by
  induction connectorIds generalizing s with
  | nil =>
    intro outputs h
    cases h
    exact Entries.nil _
  | cons connectorId connectorIds ih =>
    refine ⟨nothing_staged, ?_⟩
    rintro outcome s' ⟨db, hanswer, hsent⟩
    change network s.sent = outcome at hanswer
    have hnext : s'.sent = s.sent + 1 := hsent ▸ rfl
    cases hentry : fanOutEntry connectorId outcome with
    | error e =>
      simp only [Prog.bind, hentry]
      intro outputs h
      cases h
    | ok entry =>
      simp only [Prog.bind, hentry]
      refine Prog.Obeys.bind (ih.mono fun r s'' hrest => ?_)
      cases r with
      | error e =>
        intro outputs h
        cases h
      | ok entries =>
        intro outputs h
        cases h
        have hentries := hrest entries rfl
        rw [hnext] at hentries
        rw [← hanswer] at hentry
        exact hentries.cons hentry

theorem invokeAgent_reports {caller : CallerIdentity}
    (request : rq.request = .invokeAgent agentId payload caller) :
    (invokeAgent rq.env agentId payload caller).Obeys (reporting network rq)
      (fun r _ => Answered network rq r) Session.fresh := by
  have hinvokes : rq.Invokes agentId := ⟨payload, caller, request⟩
  refine tenantAgent_reports (fun _ => Answered.of_error _) fun record s₁ hs₁ => ?_
  split
  · exact Answered.of_error _
  refine ⟨nothing_staged, ?_⟩
  rintro u s₂ ⟨db, -, rfl⟩
  have hzero : ((perform network .rollback s₁ db).2.1).sent = 0 := hs₁
  show Prog.Obeys _ _ (fanOut rq.env agentId payload caller.tenantId record.connectorIds >>= _) _
  refine Prog.Obeys.bind ((fanOut_reports _).mono fun r s₃ hloop => ?_)
  rw [hzero] at hloop
  cases r with
  | error e => exact Answered.of_error _
  | ok outputs =>
    have hreports : Reports network agentId (invocationResult agentId outputs) :=
      ⟨outputs, rfl, hloop outputs rfl⟩
    refine tenantAgent_reports (fun _ => Answered.of_error _) fun _ s₄ _ => ?_
    refine ⟨nothing_staged, ?_⟩
    intro found s₅ _
    cases found with
    | none => exact Answered.of_error _
    | some row =>
      refine ⟨nothing_staged, fun _ s₆ _ => ⟨?_, fun _ s₇ _ => ⟨nothing_staged, ?_⟩⟩⟩
      · intro e he _
        cases List.mem_singleton.mp he
        exact ⟨agentId, row.version + 1, _, hinvokes, rfl, hreports⟩
      · intro answer s₈ _
        cases answer with
        | ok u =>
          intro statusCode result hresponse
          cases hresponse
          exact ⟨agentId, hinvokes, hreports⟩
        | error e => exact Answered.of_error _

/-- Events of other subjects are not asked about. -/
theorem staged_other {e : OutboxEvent} (h : e.subject ≠ "agent.invoked") :
    ∀ e' ∈ [e], Published network rq e' := by
  intro e' he hsubject
  cases List.mem_singleton.mp he
  exact absurd hsubject h

theorem commit_reports {response : Response} (h : Answered network rq (.ok response)) :
    (commit >>= fun _ => Prog.ret response).Obeys (reporting network rq)
      (fun r _ => Answered network rq r) s := by
  refine ⟨nothing_staged, fun answer s' _ => ?_⟩
  cases answer with
  | ok u => exact h
  | error e => exact Answered.of_error _

theorem createAgent_reports {payload : AgentCreate} :
    (createAgent rq.env tenantId payload).Obeys (reporting network rq)
      (fun r _ => Answered network rq r) s := by
  refine ⟨nothing_staged, fun _ s₁ _ => ⟨nothing_staged, fun answer s₂ _ => ?_⟩⟩
  cases answer with
  | ok u =>
    refine ⟨staged_other ?_, fun _ s₃ _ => commit_reports ?_⟩
    · show "agent.created" ≠ "agent.invoked"
      decide
    · intro statusCode result h
      cases h
  | error e =>
    cases e with
    | integrity => exact ⟨nothing_staged, fun _ _ _ => Answered.of_error _⟩
    | data => exact Answered.of_error _
    | stale => exact Answered.of_error _

theorem deleteAgent_reports :
    (deleteAgent rq.env agentId tenantId).Obeys (reporting network rq)
      (fun r _ => Answered network rq r) s := by
  refine tenantAgent_reports (fun _ => Answered.of_error _) fun record s₁ _ => ?_
  refine ⟨nothing_staged, fun _ s₂ _ => ⟨staged_other ?_, fun _ s₃ _ => commit_reports ?_⟩⟩
  · show "agent.deleted" ≠ "agent.invoked"
    decide
  · intro statusCode result h
    cases h

theorem getAgent_reports :
    (getAgent agentId tenantId).Obeys (reporting network rq) (fun r _ => Answered network rq r)
      s := by
  refine tenantAgent_reports (fun _ => Answered.of_error _) fun record s₁ _ => ?_
  intro statusCode result h
  cases h

theorem listAgents_reports :
    (listAgents tenantId).Obeys (reporting network rq) (fun r _ => Answered network rq r) s := by
  refine ⟨nothing_staged, fun records s₁ _ => ?_⟩
  intro statusCode result h
  cases h

/-- Every request stages and answers what its calls report. -/
theorem serveIn_reports (network : Nat → PostOutcome) (rq : Incoming) :
    (serveIn (handler rq.env rq.request)).Obeys (reporting network rq)
      (fun r _ => Answered network rq r) Session.fresh := by
  have hhandler : (handler rq.env rq.request).Obeys (reporting network rq)
      (fun r _ => Answered network rq r) Session.fresh := by
    cases hrequest : rq.request with
    | listAgents tenantId => exact listAgents_reports
    | getAgent agentId tenantId => exact getAgent_reports
    | createAgent tenantId payload => exact createAgent_reports
    | deleteAgent agentId tenantId => exact deleteAgent_reports
    | invokeAgent agentId payload caller => exact invokeAgent_reports hrequest
  refine Prog.Obeys.tryCatch (Prog.Obeys.finallyDo (hhandler.mono fun r s h => ?_))
  refine ⟨nothing_staged, fun s' _ => ?_⟩
  cases r with
  | ok response => exact h
  | error e =>
    intro statusCode result hresponse
    cases e <;> cases hresponse

end FanOut

/-! ### Any number of requests -/

section Run

variable {network : Nat → Nat → PostOutcome} {reqs : Nat → Incoming}
  {sys : System AgentOp Session World Exc Response}

theorem reporting_implements (reqs : Nat → Incoming) :
    (orchestratorMachine network).Implements fun i => reporting (network i) (reqs i) := by
  intro i β o s w b s' w' h
  obtain ⟨hperform, -, -⟩ := orchestratorMachine_step h
  exact ⟨w.db, by rw [hperform], by rw [hperform]⟩

/-- What an operation writes to the outbox was staged, and what is staged an operation stages. -/
theorem perform_outbox (answers : Nat → PostOutcome) {β : Type} (o : AgentOp β) (s : Session)
    (db : Db) :
    (∀ e ∈ (perform answers o s db).2.2.outbox,
      e ∈ db.outbox ∨ e ∈ (s.flushed ++ s.pending).outbox) ∧
    ∀ e ∈ ((perform answers o s db).2.1.flushed ++ (perform answers o s db).2.1.pending).outbox,
      e ∈ (s.flushed ++ s.pending).outbox ∨ e ∈ o.staged := by
  have hload : ∀ id locked, ((s.load db id locked).2.flushed ++
      (s.load db id locked).2.pending).outbox = (s.flushed ++ s.pending).outbox := by
    intro id locked
    unfold Session.load
    cases db.agent id <;> rfl
  cases o with
  | getAgent id =>
    rcases perform_getAgent answers s db id with h | h
    · rw [h]
      exact ⟨fun e he => .inl he, fun e he => .inl he⟩
    · rw [h]
      exact ⟨fun e he => .inl he, fun e he => .inl (by rw [← hload id false]; exact he)⟩
  | refreshAgent id =>
    exact ⟨fun e he => .inl he, fun e he => .inl (by rw [← hload id true]; exact he)⟩
  | enqueue e' =>
    refine ⟨fun e he => .inl he, fun e he => ?_⟩
    simpa [perform, AgentOp.staged, or_assoc] using he
  | addAgent r =>
    refine ⟨fun e he => .inl he, fun e he => .inl ?_⟩
    simpa [perform] using he
  | flush =>
    unfold perform
    dsimp only
    split
    · refine ⟨fun e he => .inl he, fun e he => .inl ?_⟩
      simpa using he
    · refine ⟨fun e he => .inl he, fun e he => ?_⟩
      cases he
  | commit =>
    unfold perform
    dsimp only
    split
    · refine ⟨fun e he => .inl he, fun e he => ?_⟩
      cases he
    · split
      · refine ⟨fun e he => ?_, fun e he => ?_⟩
        · exact List.mem_append.mp he
        · cases he
      · refine ⟨fun e he => .inl he, fun e he => ?_⟩
        cases he
  | rollback =>
    refine ⟨fun e he => .inl he, fun e he => ?_⟩
    cases he
  | close =>
    refine ⟨fun e he => .inl he, fun e he => ?_⟩
    cases he
  | listAgents tenantId => exact ⟨fun e he => .inl he, fun e he => .inl he⟩
  | setVersion id version => exact ⟨fun e he => .inl he, fun e he => .inl he⟩
  | deleteAgent id => exact ⟨fun e he => .inl he, fun e he => .inl he⟩
  | post p => exact ⟨fun e he => .inl he, fun e he => .inl he⟩

/-- Every event, in the outbox or staged, is a request's report. -/
structure Reported (network : Nat → Nat → PostOutcome) (reqs : Nat → Incoming) (w : World)
    (ss : Nat → Session) : Prop where
  outbox : ∀ e ∈ w.db.outbox, ∃ i, Published (network i) (reqs i) e
  staged : ∀ i, ∀ e ∈ ((ss i).flushed ++ (ss i).pending).outbox, Published (network i) (reqs i) e

theorem reported_preserved :
    Preserved (α := Response) (orchestratorMachine network)
      (fun i => reporting (network i) (reqs i)) Machine.Any (Reported network reqs) where
  op {sys i β o k b s' w'} _ hpre hstep _ hJ := by
    obtain ⟨hperform, -, -⟩ := orchestratorMachine_step hstep
    obtain ⟨houtbox, hstaged⟩ := perform_outbox (network i) o (sys.sessions i)
      sys.world.db
    rw [hperform] at houtbox hstaged
    constructor
    · intro e he
      rcases houtbox e he with hold | hnew
      · exact hJ.outbox e hold
      · exact ⟨i, hJ.staged i e hnew⟩
    · intro j e he
      rcases eq_or_ne j i with rfl | hne
      · rw [Function.update_self] at he
        rcases hstaged e he with hold | hnew
        · exact hJ.staged j e hold
        · exact hpre e hnew
      · rw [Function.update_of_ne hne] at he
        exact hJ.staged j e he
  crash {w ss i} hJ := by
    constructor
    · exact hJ.outbox
    · intro j e he
      rcases eq_or_ne j i with rfl | hne
      · rw [Function.update_self] at he
        cases he
      · rw [Function.update_of_ne hne] at he
        exact hJ.staged j e he

/-- Every `agent.invoked` event of a run is the report of a request. -/
theorem reaches_reported
    (h : (orchestratorMachine network).Reaches Machine.Any (orchestrator Db.empty reqs) sys) :
    ∀ e ∈ sys.world.db.outbox, ∃ i, Published (network i) (reqs i) e := by
  have hstart : Reported network reqs (orchestrator Db.empty reqs).world
      (orchestrator Db.empty reqs).sessions := by
    constructor
    · intro e he
      cases he
    · intro i e he
      cases he
  have hdisciplined : (orchestrator Db.empty reqs).Disciplined
      fun i => reporting (network i) (reqs i) := fun i =>
    (serveIn_reports (network i) (reqs i)).mono fun _ _ _ => trivial
  exact (h.preserved (reporting_implements reqs) reported_preserved hdisciplined hstart).outbox

/-- And so is every result that a request returns. -/
theorem reaches_answered {db : Db}
    (h : (orchestratorMachine network).Reaches Machine.Any (orchestrator db reqs) sys) {i : Nat}
    {statusCode : Nat} {result : Json String}
    (hreturned : (sys.threads i).prog = .ret ⟨statusCode, .invoked result⟩) :
    ∃ agentId, (reqs i).Invokes agentId ∧ Reports (network i) agentId result := by
  have hobeys := h.obeys (D := reporting (network i) (reqs i))
    (fun _ _ {_ _ _ _ _} hstep => reporting_implements reqs hstep)
    (Answered.of_error _) (serveIn_reports (network i) (reqs i))
  rw [hreturned] at hobeys
  exact hobeys statusCode result rfl

end Run

end FavlGateway.Orchestrator
