/-
  Where the fan-out posts: which endpoint of the registry the URL of a call addresses.

  The ids of an agent's connectors are free texts, stored by `create_agent` and put into a URL by
  `invoke_agent`.  `reaches_stored` follows them from the one to the other through every run; what a
  URL with such a text in its path addresses is a matter of RFC 3986 (`Uri.addresses_iff`).
-/
import FavlGateway.Library.Uri
import FavlGateway.Orchestrator.FanOut

namespace FavlGateway.Orchestrator

open FavlGateway.Library
open FavlGateway.Registry (Uuid CallerIdentity)

/-! ## Addresses -/

/-- The code points of a text. -/
def codes (s : String) : List Nat := (PyStr.ofString s).codepoints

/-- The URL addresses the endpoint at which the registry invokes the connector with this id. -/
def AddressesInvoke (url connectorId : String) : Prop :=
  Uri.Addresses (codes url)
    [codes "internal", codes "connectors", codes connectorId, codes "invoke"]

theorem codes_append (s t : String) : codes (s ++ t) = codes s ++ codes t := by
  simp [codes, PyStr.ofString]

/-- **A call addresses the invoke endpoint of its connector** if, and only if, the id may stand as
    one segment of a path, and the registry's URL has no path of its own. -/
theorem connectorCall_addresses_iff (env : Env) (agentId : Uuid) (payload : Dict String)
    (tenantId connectorId : String) :
    AddressesInvoke (connectorCall env agentId payload tenantId connectorId).url connectorId ↔
      Uri.BareOrigin (codes env.registryUrl) ∧ Uri.IsSegment (codes connectorId) := by
  have hurl : codes (connectorCall env agentId payload tenantId connectorId).url =
      codes env.registryUrl ++ slash :: (codes "internal/connectors" ++
        slash :: (codes connectorId ++ slash :: codes "invoke")) := by
    show codes (env.registryUrl ++ "/internal/connectors/" ++ connectorId ++ "/invoke") = _
    simp only [codes_append, List.append_assoc]
    rfl
  have hfront : (codes "internal/connectors").splitOn slash =
      [codes "internal", codes "connectors"] := by decide
  have hback : (codes "invoke").splitOn slash = [codes "invoke"] := by decide
  have hhead : (codes "internal/connectors" ++
      slash :: (codes connectorId ++ slash :: codes "invoke")).head? ≠ some slash := by
    intro h
    injection h with h
    revert h
    decide
  have haddresses := @Uri.addresses_iff (codes env.registryUrl) (codes connectorId)
    (codes "internal/connectors") (codes "invoke") (by decide) (by decide) (by decide)
    (by decide) hhead
  rw [hfront, hback, ← hurl] at haddresses
  exact haddresses

/-! ## From `create_agent` to the fan-out -/

/-- Some request creates an agent with this connector. -/
def Given (reqs : Nat → Incoming) (connectorId : String) : Prop :=
  ∃ j tenantId payload, (reqs j).request = .createAgent tenantId payload ∧
    connectorId ∈ payload.connectorIds

/-- The connectors of the agent were given. -/
def AllGiven (reqs : Nat → Incoming) (record : AgentRecord) : Prop :=
  ∀ connectorId ∈ record.connectorIds, Given reqs connectorId

/-- The row an operation adds. -/
def AgentOp.added : {β : Type} → AgentOp β → List AgentRecord
  | _, .addAgent r => [r]
  | _, _ => []

/-- The call an operation makes. -/
def AgentOp.posted : {β : Type} → AgentOp β → List Post
  | _, .post p => [p]
  | _, _ => []

/-- The agents an operation finds. -/
def AgentOp.found : {β : Type} → AgentOp β → β → List AgentRecord
  | _, .getAgent _, record => record.toList
  | _, .refreshAgent _, record => record.toList
  | _, .listAgents _, records => records
  | _, _, _ => []

/-- The request calls a connector of a stored agent. -/
def Calls (stored : AgentRecord → Prop) (rq : Incoming) (p : Post) : Prop :=
  ∃ agentId payload caller record connectorId,
    rq.request = .invokeAgent agentId payload caller ∧ stored record ∧
    connectorId ∈ record.connectorIds ∧
    p = connectorCall rq.env agentId payload caller.tenantId connectorId

/-- A request that finds nothing but stored agents adds agents as it was asked to, and calls their
    connectors. -/
def calling (stored : AgentRecord → Prop) (rq : Incoming) : Discipline AgentOp Session where
  pre o _ := (∀ r ∈ o.added, ∃ tenantId payload,
      rq.request = .createAgent tenantId payload ∧ r.connectorIds = payload.connectorIds) ∧
    ∀ p ∈ o.posted, Calls stored rq p
  eff o _ b _ := ∀ r ∈ o.found b, stored r

section Calling

variable {stored : AgentRecord → Prop} {rq : Incoming} {s : Session} {agentId : Uuid}
  {tenantId : String}

/-- Operations that neither add nor post. -/
theorem calling_pre {β : Type} {o : AgentOp β} (hadded : o.added = []) (hposted : o.posted = []) :
    (calling stored rq).pre o s := by
  constructor
  · rw [hadded]
    intro r hr
    cases hr
  · rw [hposted]
    intro p hp
    cases hp

theorem tenantAgent_calls {α : Type} {k : AgentRecord → Handler α}
    (hsome : ∀ record s', stored record →
      (k record).Obeys (calling stored rq) (fun _ _ => True) s') :
    (tenantAgent agentId tenantId >>= k).Obeys (calling stored rq) (fun _ _ => True) s := by
  unfold tenantAgent await
  simp only [Prog.perform_bind, Prog.op_bind]
  refine ⟨calling_pre rfl rfl, ?_⟩
  intro found s' hfound
  dsimp only
  cases hfilter : found.filter (·.tenantId = tenantId) with
  | none => trivial
  | some record =>
    refine hsome record s' (hfound record ?_)
    obtain ⟨hrecord, -⟩ := Option.filter_eq_some_iff.mp hfilter
    exact Option.mem_toList.mpr hrecord

/-- By induction on the connectors that are left. -/
theorem fanOut_calls {payload : Dict String} {caller : CallerIdentity} {record : AgentRecord}
    (hrequest : rq.request = .invokeAgent agentId payload caller) (hstored : stored record)
    (connectorIds : List String) (h : ∀ connectorId ∈ connectorIds, connectorId ∈ record.connectorIds) :
    (fanOut rq.env agentId payload caller.tenantId connectorIds).Obeys (calling stored rq)
      (fun _ _ => True) s := by
  induction connectorIds generalizing s with
  | nil => trivial
  | cons connectorId connectorIds ih =>
    refine ⟨⟨nofun, ?_⟩, ?_⟩
    · intro p hp
      cases List.mem_singleton.mp hp
      exact ⟨agentId, payload, caller, record, connectorId, hrequest, hstored,
        h connectorId List.mem_cons_self, rfl⟩
    · intro outcome s' _
      cases hentry : fanOutEntry connectorId outcome with
      | error e =>
        simp only [Prog.bind, hentry]
        trivial
      | ok entry =>
        simp only [Prog.bind, hentry]
        refine Prog.Obeys.bind ((ih fun c hc => h c (List.mem_cons_of_mem _ hc)).mono ?_)
        intro r s'' _
        cases r with
        | error e => trivial
        | ok entries => trivial

theorem commit_calls {response : Response} :
    (commit >>= fun _ => Prog.ret response).Obeys (calling stored rq) (fun _ _ => True) s := by
  refine ⟨calling_pre rfl rfl, fun answer s' _ => ?_⟩
  cases answer with
  | ok u => trivial
  | error e => trivial

theorem invokeAgent_calls {payload : Dict String} {caller : CallerIdentity}
    (hrequest : rq.request = .invokeAgent agentId payload caller) :
    (invokeAgent rq.env agentId payload caller).Obeys (calling stored rq) (fun _ _ => True) s := by
  refine tenantAgent_calls fun record s₁ hstored => ?_
  split
  · trivial
  refine ⟨calling_pre rfl rfl, fun _ s₂ _ => ?_⟩
  show Prog.Obeys _ _ (fanOut rq.env agentId payload caller.tenantId record.connectorIds >>= _) _
  refine Prog.Obeys.bind ((fanOut_calls hrequest hstored _ fun _ hc => hc).mono fun r s₃ _ => ?_)
  cases r with
  | error e => trivial
  | ok outputs =>
    refine tenantAgent_calls fun _ s₄ _ => ⟨calling_pre rfl rfl, fun found s₅ _ => ?_⟩
    cases found with
    | none => trivial
    | some row =>
      exact ⟨calling_pre rfl rfl, fun _ s₆ _ => ⟨calling_pre rfl rfl, fun _ s₇ _ => commit_calls⟩⟩

theorem createAgent_calls {payload : AgentCreate}
    (hrequest : rq.request = .createAgent tenantId payload) :
    (createAgent rq.env tenantId payload).Obeys (calling stored rq) (fun _ _ => True) s := by
  refine ⟨⟨?_, nofun⟩, fun _ s₁ _ => ⟨calling_pre rfl rfl, fun answer s₂ _ => ?_⟩⟩
  · intro r hr
    cases List.mem_singleton.mp hr
    exact ⟨tenantId, payload, hrequest, rfl⟩
  · cases answer with
    | ok u => exact ⟨calling_pre rfl rfl, fun _ s₃ _ => commit_calls⟩
    | error e =>
      cases e with
      | integrity => exact ⟨calling_pre rfl rfl, fun _ _ _ => trivial⟩
      | data => trivial
      | stale => trivial

/-- Every request adds what it was asked to add, and calls what is stored. -/
theorem serveIn_calls (stored : AgentRecord → Prop) (rq : Incoming) :
    (serveIn (handler rq.env rq.request)).Obeys (calling stored rq) (fun _ _ => True)
      Session.fresh := by
  have hhandler : (handler rq.env rq.request).Obeys (calling stored rq) (fun _ _ => True)
      Session.fresh := by
    cases hrequest : rq.request with
    | listAgents tenantId => exact ⟨calling_pre rfl rfl, fun _ _ _ => trivial⟩
    | getAgent agentId tenantId => exact tenantAgent_calls fun _ _ _ => trivial
    | createAgent tenantId payload => exact createAgent_calls hrequest
    | deleteAgent agentId tenantId =>
      refine tenantAgent_calls fun _ _ _ => ⟨calling_pre rfl rfl, fun _ _ _ => ?_⟩
      exact ⟨calling_pre rfl rfl, fun _ _ _ => commit_calls⟩
    | invokeAgent agentId payload caller => exact invokeAgent_calls hrequest
  refine Prog.Obeys.tryCatch (Prog.Obeys.finallyDo (hhandler.mono fun r s _ => ?_))
  refine ⟨calling_pre rfl rfl, fun s' _ => ?_⟩
  cases r with
  | ok response => trivial
  | error e => trivial

end Calling

/-! ### What is stored was given -/

section Stored

variable {reqs : Nat → Incoming} {network : Nat → PostOutcome} {s : Session} {db : Db}

/-- The agents a session holds, or is about to insert, were given. -/
structure SessionGiven (reqs : Nat → Incoming) (s : Session) : Prop where
  held : ∀ id inst, s.agents id = some inst → AllGiven reqs inst.row
  staged : ∀ r ∈ (s.flushed ++ s.pending).agents, AllGiven reqs r

theorem sessionGiven_fresh : SessionGiven reqs Session.fresh := by
  constructor
  · intro id inst h
    cases h
  · intro r hr
    cases hr

/-- An UPDATE leaves the connectors alone. -/
theorem write_connectorIds (s : Session) (row : AgentRecord) :
    (s.write row).connectorIds = row.connectorIds := by
  unfold Session.write
  split <;> rfl

theorem AllGiven.write {row : AgentRecord} (h : AllGiven reqs row) (s : Session) :
    AllGiven reqs (s.write row) := by
  unfold AllGiven
  rw [write_connectorIds]
  exact h

theorem SessionGiven.rolledBack (h : SessionGiven reqs s) : SessionGiven reqs s.rolledBack := by
  constructor
  · intro id inst hinst
    obtain ⟨held, hheld, rfl⟩ := Option.map_eq_some_iff.mp hinst
    exact h.held id held hheld
  · intro r hr
    cases hr

theorem SessionGiven.committed (h : SessionGiven reqs s) : SessionGiven reqs s.committed := by
  constructor
  · intro id inst hinst
    unfold Session.committed at hinst
    dsimp only at hinst
    split at hinst
    · cases hinst
    · obtain ⟨held, hheld, rfl⟩ := Option.map_eq_some_iff.mp hinst
      exact (h.held id held hheld).write s
  · intro r hr
    cases hr

theorem SessionGiven.load (h : SessionGiven reqs s) (hdb : ∀ r ∈ db.agents, AllGiven reqs r)
    (id : Uuid) (locked : Bool) :
    (∀ r ∈ (s.load db id locked).1.toList, AllGiven reqs r) ∧
      SessionGiven reqs (s.load db id locked).2 := by
  unfold Session.load
  cases hrow : db.agent id with
  | none => exact ⟨nofun, h⟩
  | some row =>
    have hgiven : AllGiven reqs row := hdb row (lookup_mem hrow).1
    refine ⟨fun r hr => ?_, ?_, h.staged⟩
    · cases List.mem_singleton.mp hr
      exact hgiven
    · intro id' inst hinst
      rcases eq_or_ne id' id with rfl | hne
      · simp only [Function.update_self, Option.some.injEq] at hinst
        rw [← hinst]
        exact hgiven
      · simp only [Function.update_of_ne hne] at hinst
        exact h.held id' inst hinst

/-- The tables that a commit would leave. -/
theorem SessionGiven.contents (h : SessionGiven reqs s) (hdb : ∀ r ∈ db.agents, AllGiven reqs r) :
    ∀ r ∈ (s.contents db).agents, AllGiven reqs r := by
  intro r hr
  rcases List.mem_append.mp hr with hr | hr
  · obtain ⟨row, hrow, rfl⟩ := List.mem_map.mp hr
    exact (hdb row (List.mem_of_mem_filter hrow)).write s
  · exact h.staged r hr

theorem SessionGiven.held_row (h : SessionGiven reqs s) {id : Uuid} {row : AgentRecord}
    (hheld : s.held id = some row) : AllGiven reqs row := by
  unfold Session.held at hheld
  split at hheld
  · rename_i inst hinst
    split at hheld
    · cases hheld
    · cases hheld
      exact h.held id inst hinst
  · cases hheld

/-- What an operation finds was given. -/
theorem SessionGiven.found (h : SessionGiven reqs s) (hdb : ∀ r ∈ db.agents, AllGiven reqs r)
    {β : Type} (o : AgentOp β) : ∀ r ∈ o.found (perform network o s db).1, AllGiven reqs r := by
  intro r hr
  cases o with
  | getAgent id =>
    unfold perform at hr
    cases hheld : s.held id with
    | some row =>
      simp only [hheld] at hr
      cases List.mem_singleton.mp hr
      exact h.held_row hheld
    | none =>
      simp only [hheld] at hr
      exact (h.load hdb id false).1 r hr
  | refreshAgent id => exact (h.load hdb id true).1 r hr
  | listAgents tenantId =>
    have hmem : r ∈ db.agents.filter fun r => r.tenantId = tenantId :=
      (List.mem_insertionSort _).mp hr
    exact hdb r (List.mem_of_mem_filter hmem)
  | _ => cases hr

/-- And so is what it makes of the session and of the database, if what it adds is. -/
theorem SessionGiven.perform (h : SessionGiven reqs s) (hdb : ∀ r ∈ db.agents, AllGiven reqs r)
    {β : Type} (o : AgentOp β) (hadded : ∀ r ∈ o.added, AllGiven reqs r) :
    SessionGiven reqs (perform network o s db).2.1 ∧
      ∀ r ∈ (perform network o s db).2.2.agents, AllGiven reqs r := by
  cases o with
  | getAgent id =>
    rcases perform_getAgent network s db id with heq | heq
    · rw [heq]
      exact ⟨h, hdb⟩
    · rw [heq]
      exact ⟨(h.load hdb id false).2, hdb⟩
  | refreshAgent id => exact ⟨(h.load hdb id true).2, hdb⟩
  | listAgents tenantId => exact ⟨h, hdb⟩
  | addAgent r =>
    refine ⟨⟨h.held, fun r' hr' => ?_⟩, hdb⟩
    have hcases : r' ∈ (s.flushed ++ s.pending).agents ∨ r' = r := by
      simpa [Orchestrator.perform, or_assoc] using hr'
    rcases hcases with hold | rfl
    · exact h.staged r' hold
    · exact hadded r' (List.mem_singleton.mpr rfl)
  | flush =>
    unfold Orchestrator.perform
    dsimp only
    split
    · refine ⟨⟨h.held, fun r hr => h.staged r ?_⟩, hdb⟩
      simpa using hr
    · exact ⟨h.rolledBack, hdb⟩
  | commit =>
    unfold Orchestrator.perform
    dsimp only
    split
    · exact ⟨h.rolledBack, hdb⟩
    · split
      · exact ⟨h.committed, h.contents hdb⟩
      · exact ⟨h.rolledBack, hdb⟩
  | rollback => exact ⟨h.rolledBack, hdb⟩
  | close => exact ⟨sessionGiven_fresh, hdb⟩
  | setVersion id version => exact ⟨⟨h.held, h.staged⟩, hdb⟩
  | deleteAgent id => exact ⟨⟨h.held, h.staged⟩, hdb⟩
  | enqueue e =>
    refine ⟨⟨h.held, fun r hr => h.staged r ?_⟩, hdb⟩
    simpa [Orchestrator.perform] using hr
  | post p => exact ⟨⟨h.held, h.staged⟩, hdb⟩

/-- Every agent, stored, held or about to be stored, was given its connectors. -/
structure WorldGiven (reqs : Nat → Incoming) (w : World) (ss : Nat → Session) : Prop where
  rows : ∀ r ∈ w.db.agents, AllGiven reqs r
  sessions : ∀ i, SessionGiven reqs (ss i)

end Stored

/-! ### Runs -/

section Run

variable {reqs : Nat → Incoming} {network : Nat → Nat → PostOutcome}
  {sys : System AgentOp Session World Exc Response}

theorem worldGiven_preserved :
    Preserved (α := Response) (orchestratorMachine network)
      (fun i => calling (fun _ => True) (reqs i)) Machine.Any (WorldGiven reqs) where
  op {sys i β o k b s' w'} _ hpre hstep _ hJ := by
    obtain ⟨hperform, -, -⟩ := orchestratorMachine_step hstep
    have hadded : ∀ r ∈ o.added, AllGiven reqs r := by
      intro r hr connectorId hconnector
      obtain ⟨tenantId, payload, hrequest, hids⟩ := hpre.1 r hr
      exact ⟨i, tenantId, payload, hrequest, hids ▸ hconnector⟩
    obtain ⟨hsession, hrows⟩ := (hJ.sessions i).perform hJ.rows o hadded
    rw [hperform] at hsession hrows
    refine ⟨hrows, fun j => ?_⟩
    rcases eq_or_ne j i with rfl | hne
    · rw [Function.update_self]
      exact hsession
    · rw [Function.update_of_ne hne]
      exact hJ.sessions j
  crash {w ss i} hJ := by
    refine ⟨hJ.rows, fun j => ?_⟩
    rcases eq_or_ne j i with rfl | hne
    · rw [Function.update_self]
      exact sessionGiven_fresh
    · rw [Function.update_of_ne hne]
      exact hJ.sessions j

/-- In every run, every agent was given its connectors. -/
theorem reaches_given
    (h : (orchestratorMachine network).Reaches Machine.Any (orchestrator Db.empty reqs) sys) :
    WorldGiven reqs sys.world sys.sessions := by
  have hstart : WorldGiven reqs (orchestrator Db.empty reqs).world
      (orchestrator Db.empty reqs).sessions := ⟨nofun, fun _ => sessionGiven_fresh⟩
  refine h.preserved (fun _ _ _ => trivial) worldGiven_preserved (fun i => ?_) hstart
  exact serveIn_calls (fun _ => True) (reqs i)

/-- **What the fan-out addresses**: in every run, a request that is about to post calls a connector
    that some `create_agent` was given, and the call addresses that connector's invoke endpoint if,
    and only if, its id may stand as one segment of a path and the registry's URL is an origin. -/
theorem fan_out_addresses_iff
    (h : (orchestratorMachine network).Reaches Machine.Any (orchestrator Db.empty reqs) sys)
    {i : Nat} {p : Post} {k : PostOutcome → Handler Response}
    (hpost : (sys.threads i).prog = .op (.post p) k) :
    ∃ agentId payload caller connectorId,
      (reqs i).request = .invokeAgent agentId payload caller ∧ Given reqs connectorId ∧
      p = connectorCall (reqs i).env agentId payload caller.tenantId connectorId ∧
      (AddressesInvoke p.url connectorId ↔
        Uri.BareOrigin (codes (reqs i).env.registryUrl) ∧ Uri.IsSegment (codes connectorId)) := by
  have hfound : ∀ sys, (orchestratorMachine network).Reaches Machine.Any
      (orchestrator Db.empty reqs) sys → ∀ {β : Type} {o : AgentOp β} {b : β} {s' : Session}
      {w' : World}, (orchestratorMachine network).step i o (sys.sessions i) sys.world =
        some (b, s', w') →
      (calling (AllGiven reqs) (reqs i)).eff o (sys.sessions i) b s' := by
    intro sys hsys β o b s' w' hstep
    obtain ⟨hperform, -, -⟩ := orchestratorMachine_step hstep
    have hgiven := reaches_given hsys
    have hanswer : ∀ r ∈ o.found (perform (network i) o (sys.sessions i) sys.world.db).1,
        AllGiven reqs r := (hgiven.sessions i).found hgiven.rows o
    rw [hperform] at hanswer
    exact hanswer
  have hobeys := h.obeys hfound (Q := fun _ _ => True) trivial
    (serveIn_calls (AllGiven reqs) (reqs i))
  rw [hpost] at hobeys
  obtain ⟨agentId, payload, caller, record, connectorId, hrequest, hrecord, hconnector, hp⟩ :=
    hobeys.1.2 p (List.mem_singleton.mpr rfl)
  refine ⟨agentId, payload, caller, connectorId, hrequest, hrecord connectorId hconnector, hp, ?_⟩
  rw [hp]
  exact connectorCall_addresses_iff _ _ _ _ _

end Run

/-! ## Two ids -/

/-- An agent with one connector is created, and invoked. -/
def sampleFanOut (connectorId : String) : Nat → Incoming
  | 0 => sampleCreate [connectorId]
  | _ => sampleInvoke 20

/-- The invocation as it is about to post. -/
def sampleCalls (connectorId : String) : System AgentOp Session World Exc Response :=
  (orchestratorMachine noNetwork).schedule (List.replicate 5 0 ++ List.replicate 2 1)
    (orchestrator Db.empty (sampleFanOut connectorId))

/-- The call that a program makes next. -/
def nextPost : Handler Response → Option Post
  | .op (.post p) _ => some p
  | _ => none

theorem of_nextPost {q : Handler Response} {p : Post} (h : nextPost q = some p) :
    ∃ k, q = .op (.post p) k := by
  unfold nextPost at h
  split at h
  · cases h
    exact ⟨_, rfl⟩
  · cases h

/-- The call for the one connector. -/
def sampleCall (connectorId : String) : Post :=
  connectorCall (sampleEnv 20) 0 [] "acme" connectorId

theorem sampleCalls_plain : nextPost ((sampleCalls "3f2a").threads 1).prog =
    some (sampleCall "3f2a") := by
  rfl

theorem sampleCalls_crafted :
    nextPost ((sampleCalls "../../v1/connectors?").threads 1).prog =
      some (sampleCall "../../v1/connectors?") := by
  rfl

theorem sampleOrigin : Uri.BareOrigin (codes (sampleEnv 20).registryUrl) := by
  constructor
  · decide
  · decide
  · decide

/-- A plain id is addressed. -/
theorem fan_out_addresses_iff_plain : ∃ p, nextPost ((sampleCalls "3f2a").threads 1).prog = some p ∧
    AddressesInvoke p.url "3f2a" := by
  obtain ⟨k, hk⟩ := of_nextPost sampleCalls_plain
  obtain ⟨agentId, payload, caller, connectorId, hrequest, ⟨j, tenantId, create, hcreate, hmem⟩, hp,
    haddresses⟩ := fan_out_addresses_iff (Machine.reaches_schedule _ _) hk
  have hconnector : connectorId = "3f2a" := by
    cases j with
    | zero =>
      cases hcreate
      exact List.mem_singleton.mp hmem
    | succ j => cases hcreate
  rw [hconnector] at haddresses
  refine ⟨_, sampleCalls_plain, haddresses.mpr ⟨sampleOrigin, ?_⟩⟩
  exact ⟨by decide, by decide, by decide, by decide⟩

/-- An id with a path and a question mark in it is not: the call, with the token that proves it
    comes from inside, goes to the endpoint that creates connectors. -/
theorem crafted_id_redirects : ∃ p k,
    (orchestratorMachine noNetwork).Reaches Machine.Any
      (orchestrator Db.empty (sampleFanOut "../../v1/connectors?"))
      (sampleCalls "../../v1/connectors?") ∧
    ((sampleCalls "../../v1/connectors?").threads 1).prog = .op (.post p) k ∧
    ¬ AddressesInvoke p.url "../../v1/connectors?" ∧
    Uri.removeDots [] (Uri.parse (codes p.url)).path = codes "/v1/connectors" := by
  obtain ⟨k, hk⟩ := of_nextPost sampleCalls_crafted
  refine ⟨_, k, Machine.reaches_schedule _ _, hk, ?_, ?_⟩
  · intro h
    have hsegment := ((connectorCall_addresses_iff _ _ _ _ _).mp h).2.slash
    revert hsegment
    decide
  · decide +kernel

end FavlGateway.Orchestrator
