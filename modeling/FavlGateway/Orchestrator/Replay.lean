/-
  The outbox of the orchestrator is a log of its agents.

  `replay` reads the events of an agent in commit order and knows, at the end, whether there is one,
  as what it was published when it was created, and the version it has come to.  That is what the
  table says, whatever the requests do to each other (`Replayed`): a deletion is recorded in the
  transaction that deletes, an invocation is numbered under the row lock, and a row that is there
  cannot be created again.  It holds where the versions of the events are out of sequence, too.

  A commit appends one event, so every prefix of the log was the log once, and whoever has read that
  far knows the agents as they were then.
-/
import FavlGateway.Library.EventLog
import FavlGateway.Library.Ghost
import FavlGateway.Orchestrator.Sequence

namespace FavlGateway.Orchestrator

open FavlGateway.Library
open FavlGateway.Registry (Uuid OutboxEvent outboxEvent CallerIdentity)

/-! ## Reading the log -/

/-- What a reader of the log knows of an agent: the document that was published when it was created,
    and its version. -/
structure Known where
  published : Json String
  version : Nat
  deriving DecidableEq

/-- The reader's next event of an agent. -/
def Known.read (known : Option Known) (e : OutboxEvent) : Option Known :=
  if e.subject = "agent.created" then some ⟨e.payload, e.aggregateVersion⟩
  else if e.subject = "agent.deleted" then none
  else known.map fun k => { k with version := e.aggregateVersion }

/-- What the log says of agent `a`. -/
def replay (log : List OutboxEvent) (a : Uuid) : Option Known :=
  (log.filter fun e => e.aggregateType = "agent" ∧ e.aggregateId = some a).foldl Known.read none

/-- What there is to know of a row. -/
def AgentRecord.known (row : AgentRecord) : Known := ⟨(toSchema row).modelDump, row.version⟩

/-- The log says what the table says. -/
def Replayed (db : Db) : Prop := ∀ a, replay db.outbox a = (db.agent a).map AgentRecord.known

theorem empty_replayed : Replayed Db.empty := fun _ => rfl

/-! ## Every commit is logged as what it did -/

section Tables

variable {rq : Incoming} {s : Session} {db db' : Db} {a id : Uuid} {e : OutboxEvent}

/-- An event of one agent says nothing of the others. -/
theorem replay_of_contents (h : db'.toRows = s.contents db)
    (he : (s.flushed ++ s.pending).outbox = [e]) (htype : e.aggregateType = "agent")
    (hid : e.aggregateId = some id) :
    replay db'.outbox a =
      if a = id then Known.read (replay db.outbox a) e else replay db.outbox a := by
  have hevents := events_of_contents (a := a) h he htype hid
  unfold replay
  show (db'.agentEvents a).foldl _ none = _
  rw [hevents]
  split
  · rw [List.foldl_append]
    rfl
  · rfl

/-- The row that a transaction inserts was not there. -/
theorem agent_eq_none_of_inserted (h : db'.toRows = s.contents db) (hdoomed : s.doomed = [])
    {r : AgentRecord} (hr : r ∈ (s.flushed ++ s.pending).agents) : db.agent r.id = none := by
  cases hrow : db.agent r.id with
  | none => rfl
  | some row =>
    obtain ⟨hmem, hid⟩ := lookup_mem hrow
    have hkeys : ((s.contents db).agents.flatMap AgentRecord.keys).Nodup := by
      rw [← h]
      exact db'.valid.1
    rw [Session.contents, Rows.append_agents, List.flatMap_append] at hkeys
    -- the old row and the new one have the same primary key
    refine absurd rfl ((List.nodup_append.mp hkeys).2.2 (.agentId r.id) ?_ (.agentId r.id) ?_)
    · refine List.mem_flatMap.mpr ⟨s.write row, List.mem_map.mpr ⟨row, ?_, rfl⟩, ?_⟩
      · simpa [hdoomed] using hmem
      · simp [AgentRecord.keys, s.write_id, hid]
    · exact List.mem_flatMap.mpr ⟨r, hr, by simp [AgentRecord.keys]⟩

/-- The row that is written is the one with the assigned version; no other row changes. -/
theorem map_write_of_assigned {version : Nat} (h : s.assigned = [(id, version)])
    (db : Db) : (db.agent a).map s.write =
      if a = id then (db.agent a).map fun row => { row with version := version }
      else db.agent a := by
  cases hfound : db.agent a with
  | none => split <;> rfl
  | some row =>
    have hrow : row.id = a := (lookup_mem hfound).2
    split
    · rename_i hsame
      simp [Session.write, h, hrow, hsame]
    · rename_i hother
      simp [Session.write, h, hrow, Ne.symm hother]

/-- A transaction has one event. -/
theorem Tx.outbox (h : Tx rq s) : ∃ e, (s.flushed ++ s.pending).outbox = [e] := by
  cases h with
  | create _ _ _ rows => exact ⟨_, congrArg Rows.outbox rows⟩
  | delete _ _ _ rows => exact ⟨_, congrArg Rows.outbox rows⟩
  | invoke _ _ _ rows => exact ⟨_, congrArg Rows.outbox rows⟩

/-- **The step lemma**: what a transaction does to the tables it says in its event. -/
theorem Replayed.commit (h : Replayed db) (htx : Tx rq s) (hdb : db'.toRows = s.contents db)
    (hlocks : ∀ id inst, s.agents id = some inst → inst.locked = true →
      db.agent id = some inst.row) : Replayed db' := by
  intro a
  have ha := h a
  have hagent := agent_of_contents (a := a) hdb
  have hnone : lookup AgentRecord.id ([] : List AgentRecord) a = none := rfl
  cases htx with
  | @create tenantId payload request assigned doomed rows =>
    have hlog := replay_of_contents (a := a) hdb (congrArg Rows.outbox rows) rfl rfl
    rw [rows, doomed, if_neg List.not_mem_nil, map_write_of_unassigned assigned] at hagent
    rw [hagent, hlog, ha]
    split
    · rename_i hsame
      have hnew := agent_eq_none_of_inserted hdb doomed
        (r := newAgent rq.env tenantId payload) (by rw [rows]; exact List.mem_singleton_self _)
      rw [hsame, show db.agent (newAgent rq.env tenantId payload).id = none from hnew]
      simp [lookup, Known.read, createdEvent, outboxEvent, AgentRecord.known]
    · rename_i hother
      have hmiss : lookup AgentRecord.id [newAgent rq.env tenantId payload] a = none := by
        simp [lookup, Ne.symm hother]
      rw [hmiss, Option.or_none]
  | @delete c inst held assigned doomed rows =>
    have hlog := replay_of_contents (a := a) hdb (congrArg Rows.outbox rows) rfl rfl
    rw [rows, doomed, map_write_of_unassigned assigned, hnone, Option.or_none] at hagent
    rw [hagent, hlog, ha]
    simp only [List.mem_singleton]
    split
    · simp [Known.read, deletedEvent, outboxEvent]
    · rfl
  | @invoke c row result held assigned doomed rows =>
    have hlog := replay_of_contents (a := a) hdb (congrArg Rows.outbox rows) rfl rfl
    rw [rows, doomed, if_neg List.not_mem_nil, hnone, Option.or_none,
      map_write_of_assigned assigned] at hagent
    rw [hagent, hlog, ha]
    split
    · rename_i hsame
      -- the lock: the event was numbered from the stored row
      rw [hsame, hlocks c _ held rfl]
      simp [Known.read, invokedEvent, outboxEvent, AgentRecord.known, toSchema]
    · rfl

end Tables

/-! ## In every run -/

section Runs

variable {network : Nat → Nat → PostOutcome} {reqs : Nat → Incoming} {db₀ : Db}
  {sys sys' : System AgentOp Session World Exc Response} {i : Nat}

/-- Who dies leaves the others their locks. -/
theorem locksCurrent_crash {w : World} {j : Nat} {s : Session} (h : LocksCurrent j s w)
    (hne : j ≠ i) : LocksCurrent j s (w.release i) := by
  intro id inst hinst
  obtain ⟨hid, hlocked⟩ := h id inst hinst
  refine ⟨hid, ?_⟩
  intro hl
  obtain ⟨hlock, hrow⟩ := hlocked hl
  exact ⟨World.rowLock_release hlock hne, hrow⟩

theorem locksCurrent_preserved (network : Nat → Nat → PostOutcome) (reqs : Nat → Incoming) :
    Preserved (α := Response) (orchestratorMachine network) (fun i => discipline (reqs i))
      Machine.Any fun w ss => ∀ j, LocksCurrent j (ss j) w where
  op := by
    rintro sys i β o k b s' w' - - hstep - hlocks j
    rcases eq_or_ne j i with rfl | hne
    · rw [Function.update_self]
      exact locksCurrent_own hstep (hlocks j)
    · rw [Function.update_of_ne hne]
      exact locksCurrent_other hstep hne (hlocks j)
  crash := by
    rintro w ss i hlocks j
    rcases eq_or_ne j i with rfl | hne
    · rw [Function.update_self]
      exact LocksCurrent.fresh
    · rw [Function.update_of_ne hne]
      exact locksCurrent_crash (hlocks j) hne

theorem reaches_locksCurrent
    (h : (orchestratorMachine network).Reaches Machine.Any (orchestrator db₀ reqs) sys) (j : Nat) :
    LocksCurrent j (sys.sessions j) sys.world :=
  h.preserved (orchestratorMachine_implements reqs) (locksCurrent_preserved network reqs)
    (orchestrator_disciplined db₀ reqs) (fun _ => LocksCurrent.fresh) j

/-- A step that changes the tables commits one of the transactions. -/
theorem table_step
    (h : (orchestratorMachine network).Reaches Machine.Any (orchestrator db₀ reqs) sys)
    (hs : (orchestratorMachine network).Step sys i sys') :
    sys'.world.db = sys.world.db ∨ Tx (reqs i) (sys.sessions i) ∧
      sys'.world.db.toRows = (sys.sessions i).contents sys.world.db := by
  cases hs with
  | crash hp => exact .inl rfl
  | @op β o k b s' w' hp hst =>
    obtain ⟨hperform, -, -⟩ := orchestratorMachine_step hst
    cases ho : o.isCommit with
    | false =>
      have hdb := perform_db (network i) sys.world.db ho (s := (sys.threads i).session)
      rw [hperform] at hdb
      exact .inl hdb
    | true =>
      cases o with
      | commit =>
        have hcommit := perform_commit (network i) (sys.threads i).session sys.world.db
        rw [hperform] at hcommit
        rcases hcommit with hrefused | ⟨db', hdb', hcommitted⟩
        · exact .inl (Prod.mk.inj hrefused).2
        · refine .inr ⟨h.pre (orchestratorMachine_implements reqs)
            (orchestrator_disciplined db₀ reqs) hp, ?_⟩
          rw [show w'.db = db' from (Prod.mk.inj hcommitted).2]
          exact hdb'
      | _ => cases ho

theorem reaches_replayed
    (h : (orchestratorMachine network).Reaches Machine.Any (orchestrator Db.empty reqs) sys) :
    Replayed sys.world.db := by
  induction h with
  | start => exact empty_replayed
  | @step sys sys' i hr hs _ ih =>
    rcases table_step hr hs with hsame | ⟨htx, hdb⟩
    · rw [hsame]
      exact ih
    · exact ih.commit htx hdb fun id inst hinst hl =>
        ((reaches_locksCurrent hr i id inst hinst).2 hl).2

/-- A step appends one event to the log, or none. -/
theorem outbox_step
    (h : (orchestratorMachine network).Reaches Machine.Any (orchestrator db₀ reqs) sys)
    (hs : (orchestratorMachine network).Step sys i sys') :
    Appends sys.world.db.outbox sys'.world.db.outbox := by
  rcases table_step h hs with hsame | ⟨htx, hdb⟩
  · exact .inl (by rw [hsame])
  · obtain ⟨e, he⟩ := htx.outbox
    refine .inr ⟨e, ?_⟩
    rw [hdb, ← he]
    rfl

/-- The log only grows. -/
theorem outbox_prefix {past : System AgentOp Session World Exc Response}
    (hpast : (orchestratorMachine network).Reaches Machine.Any (orchestrator db₀ reqs) past)
    (h : (orchestratorMachine network).Reaches Machine.Any past sys) :
    past.world.db.outbox <+: sys.world.db.outbox := by
  induction h with
  | start => exact List.prefix_rfl
  | step hr hs _ ih => exact ih.trans (outbox_step (hpast.trans hr) hs).isPrefix

end Runs

/-! ## What is read is in the log -/

/-- GET requests. -/
def Request.isRead : Request → Bool
  | .getAgent _ _ => true
  | .listAgents _ => true
  | _ => false

/-- Whose each agent is. -/
def Db.owner (db : Db) (a : Uuid) : Option String := (db.agent a).map AgentRecord.tenantId

/-- The answer to a GET request is what the log says, for a reader who knows whose each agent is: no
    event names the tenant. -/
inductive Tells (log : List OutboxEvent) (owner : Uuid → Option String) :
    Request → Response → Prop where
  | agent {a : Agent} {tenantId : String} {version : Nat} (own : owner a.id = some tenantId)
      (known : replay log a.id = some ⟨a.modelDump, version⟩) :
      Tells log owner (.getAgent a.id tenantId) ⟨200, .agent a⟩
  | missing {agentId : Uuid} {tenantId : String}
      (missing : replay log agentId = none ∨ owner agentId ≠ some tenantId) :
      Tells log owner (.getAgent agentId tenantId) agentNotFound.respond
  | list {tenantId : String} {as : List Agent}
      (all : ∀ id, id ∈ as.map Agent.id ↔
        (replay log id).isSome = true ∧ owner id = some tenantId)
      (known : ∀ a ∈ as, ∃ version, replay log a.id = some ⟨a.modelDump, version⟩)
      (once : (as.map Agent.id).Nodup)
      (ordered : as.Pairwise fun a b => a.createdAt ≤ b.createdAt) :
      Tells log owner (.listAgents tenantId) ⟨200, .agents as⟩

theorem Replayed.known {db : Db} (h : Replayed db) {id : Uuid} {row : AgentRecord}
    (hrow : db.agent id = some row) :
    replay db.outbox (toSchema row).id = some ⟨(toSchema row).modelDump, row.version⟩ := by
  have hid : row.id = id := (lookup_mem hrow).2
  show replay db.outbox row.id = _
  rw [h, hid, hrow]
  rfl

/-- The row of the table with a row's id is the row. -/
theorem Db.agent_of_mem {db : Db} {row : AgentRecord} (hrow : row ∈ db.agents) :
    db.agent row.id = some row := by
  have hfound : ∃ row', db.agent row.id = some row' := lookup_isSome_of_mem hrow
  obtain ⟨row', hrow'⟩ := hfound
  obtain ⟨hmem, hid⟩ := lookup_mem hrow'
  refine hrow'.trans (congrArg some ?_)
  exact eq_of_index db.valid.1 hmem hrow (k := .agentId row.id)
    (by simp [AgentRecord.keys, hid]) (by simp [AgentRecord.keys])

/-- A session that has not begun reads what is stored. -/
theorem perform_getAgent_fresh (network : Nat → PostOutcome) (id : Uuid) (db : Db) :
    (perform network (.getAgent id) Session.fresh db).1 = db.agent id := by
  show (Session.fresh.load db id false).1 = db.agent id
  unfold Session.load
  cases db.agent id <;> rfl

/-- What a GET request is answered on these tables. -/
def Request.answer (db : Db) : Request → Option Response
  | .getAgent agentId tenantId =>
    match (db.agent agentId).filter (·.tenantId = tenantId) with
    | none => some agentNotFound.respond
    | some row => some ⟨200, .agent (toSchema row)⟩
  | .listAgents tenantId => some ⟨200, .agents ((agentListing db tenantId).map toSchema)⟩
  | _ => none

theorem mem_agentListing {db : Db} {tenantId : String} {row : AgentRecord} :
    row ∈ agentListing db tenantId ↔ row ∈ db.agents ∧ row.tenantId = tenantId := by
  rw [agentListing, List.mem_insertionSort, List.mem_filter, decide_eq_true_eq]

/-- A listing has no agent twice. -/
theorem agentListing_nodup (db : Db) (tenantId : String) :
    (((agentListing db tenantId).map toSchema).map Agent.id).Nodup := by
  have hids : (db.agents.map AgentRecord.id).Nodup := by
    rw [List.nodup_iff_pairwise_ne, List.pairwise_map]
    have hkeys := (List.nodup_flatMap.mp db.valid.1).2
    refine hkeys.imp ?_
    intro a b hdisjoint hid
    exact hdisjoint (a := .agentId a.id) (by simp [AgentRecord.keys])
      (by simp [AgentRecord.keys, hid])
  have hsame : ((agentListing db tenantId).map toSchema).map Agent.id =
      (agentListing db tenantId).map AgentRecord.id := by
    rw [List.map_map]
    rfl
  rw [hsame]
  refine (((List.perm_insertionSort _ _).map _).nodup_iff).mpr ?_
  exact hids.sublist (List.filter_sublist.map _)

/-- An answer on tables that the log replays is what the log says. -/
theorem Replayed.tells {db : Db} (h : Replayed db) {request : Request} {response : Response}
    (hanswer : request.answer db = some response) :
    Tells db.outbox db.owner request response := by
  cases request with
  | getAgent agentId tenantId =>
    cases hfound : (db.agent agentId).filter (·.tenantId = tenantId) with
    | none =>
      simp only [Request.answer, hfound, Option.some.injEq] at hanswer
      subst hanswer
      refine .missing ?_
      cases hrow : db.agent agentId with
      | none => exact .inl (by rw [h, hrow]; rfl)
      | some row =>
        refine .inr ?_
        rw [hrow, Option.filter_some, ite_eq_right_iff] at hfound
        simp only [decide_eq_true_eq, reduceCtorEq, imp_false] at hfound
        simpa [Db.owner, hrow] using hfound
    | some row =>
      simp only [Request.answer, hfound, Option.some.injEq] at hanswer
      subst hanswer
      obtain ⟨hrow, htenant⟩ := Option.filter_eq_some_iff.mp hfound
      have hid : row.id = agentId := (lookup_mem hrow).2
      subst hid
      exact .agent (by simpa [Db.owner, toSchema, hrow] using htenant) (h.known hrow)
  | listAgents tenantId =>
    cases hanswer
    refine .list ?_ ?_ (agentListing_nodup db tenantId) ?_
    · intro id
      simp only [List.mem_map, exists_exists_and_eq_and, mem_agentListing]
      constructor
      · rintro ⟨row, ⟨hrow, rfl⟩, rfl⟩
        have hstored : db.agent (toSchema row).id = some row := Db.agent_of_mem hrow
        rw [h, Db.owner, hstored]
        exact ⟨rfl, rfl⟩
      · rintro ⟨-, howner⟩
        obtain ⟨row, hrow, htenant⟩ := Option.map_eq_some_iff.mp howner
        obtain ⟨hmem, hid⟩ := lookup_mem hrow
        exact ⟨row, ⟨hmem, htenant⟩, hid⟩
    · intro a ha
      obtain ⟨row, hrow, rfl⟩ := List.mem_map.mp ha
      exact ⟨_, h.known (Db.agent_of_mem (mem_agentListing.mp hrow).1)⟩
    · have htotal : Std.Total fun a b : AgentRecord => a.createdAt ≤ b.createdAt :=
        ⟨fun a b => le_total a.createdAt b.createdAt⟩
      have htrans : IsTrans AgentRecord fun a b => a.createdAt ≤ b.createdAt :=
        ⟨fun _ _ _ hab hbc => le_trans hab hbc⟩
      rw [List.pairwise_map]
      exact List.pairwise_insertionSort _ _
  | _ => cases hanswer

/-- Operations that read the tables for a response. -/
def AgentOp.isRead : {β : Type} → AgentOp β → Bool
  | _, .getAgent _ => true
  | _, .listAgents _ => true
  | _, _ => false

/-- A request beside the tables as they were when it last read. -/
def reading : Discipline AgentOp (Session × Db) where
  pre _ _ := True
  eff o p b p' := ∃ network db, (perform network o p.1 db).1 = b ∧
    (perform network o p.1 db).2.1 = p'.1 ∧ p'.2 = if o.isRead then db else p.2

/-- A GET request is answered from the tables it read. -/
theorem serveIn_reading {rq : Incoming} (hread : rq.request.isRead = true) (x : Db) :
    (serveIn (handler rq.env rq.request)).Obeys reading (fun r p => ∀ response,
      r = .ok response → rq.request.answer p.2 = some response) (Session.fresh, x) := by
  have hhandler : (handler rq.env rq.request).Obeys reading (fun r p =>
      rq.request.answer p.2 = some (match r with
        | .ok response => response
        | .error e => e.respond)) (Session.fresh, x) := by
    cases hrequest : rq.request with
    | getAgent agentId tenantId =>
      simp only [handler, getAgent, tenantAgent, await, Prog.perform_bind, Prog.op_bind]
      refine ⟨trivial, ?_⟩
      rintro found ⟨s', x'⟩ ⟨network, db, rfl, -, rfl⟩
      rw [perform_getAgent_fresh]
      dsimp only
      cases hrow : (x'.agent agentId).filter (·.tenantId = tenantId) with
      | none =>
        show Request.answer x' _ = _
        simp only [Request.answer, hrow]
      | some row =>
        show Request.answer x' _ = _
        simp only [Request.answer, hrow]
    | listAgents tenantId =>
      refine ⟨trivial, ?_⟩
      rintro found ⟨s', x'⟩ ⟨network, db, rfl, -, rfl⟩
      rfl
    | _ =>
      rw [hrequest] at hread
      cases hread
  refine Prog.Obeys.tryCatch (Prog.Obeys.finallyDo (hhandler.mono ?_))
  rintro r ⟨s, x⟩ hend
  refine ⟨trivial, ?_⟩
  rintro ⟨s', x'⟩ ⟨network, db, -, -, rfl⟩
  cases r with
  | ok response =>
    intro response' hresponse
    cases hresponse
    exact hend
  | error e =>
    intro response hresponse
    cases hresponse
    exact hend

/-! ## The log of a run -/

/-- **The outbox is a log of the agents**: in every run, whoever has read the first `n` events knows
    what the table said when these were all there were, and that was so at some moment of the run.
    What a GET request answers is, for some `n`, exactly what such a reader knows of the agents that
    were the tenant's at that moment. -/
theorem outbox_replays (network : Nat → Nat → PostOutcome) (reqs : Nat → Incoming)
    {sys : System AgentOp Session World Exc Response}
    (h : (orchestratorMachine network).Reaches Machine.Any (orchestrator Db.empty reqs) sys) :
    (∀ n, ∃ past, (orchestratorMachine network).Reaches Machine.Any
        (orchestrator Db.empty reqs) past ∧
      (orchestratorMachine network).Reaches Machine.Any past sys ∧
      past.world.db.outbox = sys.world.db.outbox.take n ∧
      ∀ a, replay (sys.world.db.outbox.take n) a = (past.world.db.agent a).map AgentRecord.known) ∧
    ∀ i response, (reqs i).request.isRead = true → (sys.threads i).prog = .ret response →
      ∃ n past, (orchestratorMachine network).Reaches Machine.Any
          (orchestrator Db.empty reqs) past ∧
        (orchestratorMachine network).Reaches Machine.Any past sys ∧
        past.world.db.outbox = sys.world.db.outbox.take n ∧
        Tells (sys.world.db.outbox.take n) past.world.db.owner (reqs i).request response := by
  refine ⟨?_, ?_⟩
  · intro n
    obtain ⟨past, hpast, hrest, hlog⟩ := h.at_prefix (fun w : World => w.db.outbox)
      (fun hr hs _ => outbox_step hr hs) (n := n) (Nat.zero_le n)
    refine ⟨past, hpast, hrest, hlog, ?_⟩
    intro a
    rw [← hlog]
    exact reaches_replayed hpast a
  · intro i response hread hret
    -- the ghost: the tables that were read last, as they were at a moment of the run
    have hghost := h.obeys_ghost (i := i) (D := reading)
      (Q := fun r p => ∀ response, r = .ok response →
        (reqs i).request.answer p.2 = some response)
      (fun sys db => ∃ past, (orchestratorMachine network).Reaches Machine.Any
        (orchestrator Db.empty reqs) past ∧
        (orchestratorMachine network).Reaches Machine.Any past sys ∧ past.world.db = db)
      ⟨_, .start, .start, rfl⟩ ?_ ?_ ?_ (serveIn_reading hread Db.empty)
    · obtain ⟨db, ⟨past, hpast, hrest, rfl⟩, hobeys⟩ := hghost
      rw [hret] at hobeys
      have hprefix := outbox_prefix hpast hrest
      refine ⟨past.world.db.outbox.length, past, hpast, hrest, ?_, ?_⟩
      · exact (List.prefix_iff_eq_take.mp hprefix)
      · rw [← List.prefix_iff_eq_take.mp hprefix]
        exact (reaches_replayed hpast).tells (hobeys response rfl)
    · rintro sys sys' j db hr _ hs hc ⟨past, hpast, hrest, hdb⟩
      exact ⟨past, hpast, .step hrest hs hc, hdb⟩
    · rintro sys db β o k b s' w' hr hp - hst hc ⟨past, hpast, hrest, hdb⟩
      obtain ⟨hperform, -, -⟩ := orchestratorMachine_step hst
      refine ⟨if o.isRead then sys.world.db else db, ?_, ?_⟩
      · exact ⟨network i, sys.world.db, by rw [hperform], by rw [hperform], rfl⟩
      · split
        · exact ⟨sys, hr, .step .start (.op hp hst) hc, rfl⟩
        · exact ⟨past, hpast, .step hrest (.op hp hst) hc, hdb⟩
    · rintro sys sys' db hr hs hc - ⟨past, hpast, hrest, hdb⟩
      exact ⟨db, fun response hresponse => (by cases hresponse), past, hpast, .step hrest hs hc,
        hdb⟩

set_option maxRecDepth 10000 in
/-- The deletion has the number of the invocation before it, and the agent is gone.  Who has read
    two of the three events knows the agent at version 2, and so it was. -/
theorem outbox_replays_invokedMeanwhile :
    (sampleRun invokedMeanwhile).world.db.agent 0 = none ∧
      ∃ past row, (orchestratorMachine noNetwork).Reaches Machine.Any past
          (sampleRun invokedMeanwhile) ∧
        past.world.db.agent 0 = some row ∧ row.version = 2 := by
  refine ⟨by decide +kernel, ?_⟩
  obtain ⟨past, -, hrest, -, hlog⟩ := (outbox_replays noNetwork sampleRequests
    (Machine.reaches_schedule invokedMeanwhile (orchestrator Db.empty sampleRequests))).1 2
  have hversion : (replay ((sampleRun invokedMeanwhile).world.db.outbox.take 2) 0).map
      (·.version) = some 2 := by decide +kernel
  obtain ⟨known, hknown, hsecond⟩ := Option.map_eq_some_iff.mp hversion
  obtain ⟨row, hrow, rfl⟩ := Option.map_eq_some_iff.mp ((hlog 0).symm.trans hknown)
  exact ⟨past, row, hrest, hrow, hsecond⟩

end FavlGateway.Orchestrator
