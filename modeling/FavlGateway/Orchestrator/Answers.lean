/-
  What a client of the orchestrator is told is what was done.

  A request changes the tables in one step, its commit, or not at all, whatever runs beside it and
  wherever its process dies (`Library.Ghost`).  The step does what the request asked for, as a whole
  (`Done`), and the client is told of it: with 201, 204 or 200 there was such a step, with an error,
  and after a GET, there was none.  The `agent.invoked` event carries the result that the client was
  given.

  A deletion reads its agent without a lock.  Its event is of the row as it was read, and where
  another deletion has been faster the event is all that it writes: the client is told 204 as well.
-/
import FavlGateway.Orchestrator.Replay

namespace FavlGateway.Orchestrator

open FavlGateway.Library
open FavlGateway.Registry (Uuid OutboxEvent CallerIdentity)

/-! ## What a request does -/

/-- The tables before and after a request was carried out, and what its client is told; `was` holds
    of the rows that had been stored, then or before. -/
inductive Done (env : Env) (was : Uuid → AgentRecord → Prop) (db db' : Db) :
    Request → Response → Prop where
  | created {tenantId : String} {payload : AgentCreate}
      (agents : db'.agents = db.agents ++ [newAgent env tenantId payload])
      (outbox : db'.outbox = db.outbox ++ [createdEvent env (newAgent env tenantId payload)]) :
      Done env was db db' (.createAgent tenantId payload)
        ⟨201, .agent (toSchema (newAgent env tenantId payload))⟩
  | deleted {agentId : Uuid} {tenantId : String} {row stored : AgentRecord}
      (read : was agentId row) (tenant : row.tenantId = tenantId)
      (found : db.agent agentId = some stored)
      (agents : db'.agents = db.agents.filter fun r => r.id ≠ agentId)
      (outbox : db'.outbox = db.outbox ++ [deletedEvent env agentId row]) :
      Done env was db db' (.deleteAgent agentId tenantId) ⟨204, .empty⟩
  /-- The row has been deleted since it was read. -/
  | deletedAgain {agentId : Uuid} {tenantId : String} {row : AgentRecord}
      (read : was agentId row) (tenant : row.tenantId = tenantId)
      (gone : db.agent agentId = none) (agents : db'.agents = db.agents)
      (outbox : db'.outbox = db.outbox ++ [deletedEvent env agentId row]) :
      Done env was db db' (.deleteAgent agentId tenantId) ⟨204, .empty⟩
  | invoked {agentId : Uuid} {payload : Dict String} {caller : CallerIdentity}
      {row : AgentRecord} {result : Json String} (found : db.agent agentId = some row)
      (agents : db'.agents = db.agents.map fun r =>
        if r.id = agentId then { r with version := row.version + 1 } else r)
      (outbox : db'.outbox = db.outbox ++ [invokedEvent env agentId (row.version + 1) result]) :
      Done env was db db' (.invokeAgent agentId payload caller) ⟨200, .invoked result⟩

section Effects

variable (rq : Incoming) (was : World → Uuid → AgentRecord → Prop)

/-- Somebody has been, or would have been, told of it. -/
def Carried (w w' : World) : Prop :=
  ∃ response, Done rq.env (was w) w.db w'.db rq.request response

/-- The client is told what was done. -/
def Told (response : Response) : List (World × World) → Prop
  | [] => rq.request.isRead = true ∨ 400 ≤ response.statusCode
  | [(w, w')] => Done rq.env (was w) w.db w'.db rq.request response
  | _ => False

/-- A handler has done nothing when it raises. -/
def Handled : Except Exc Response → List (World × World) → Prop
  | .ok response, xs => Told rq was response xs
  | .error e, xs => xs = [] ∧ 400 ≤ e.respond.statusCode

end Effects

/-! ## What a session has read -/

/-- The row was stored at a moment of the run from `sys₀` to `fin`, when the world was `w` or
    before. -/
def WasStored (network : Nat → Nat → PostOutcome)
    (sys₀ fin : System AgentOp Session World Exc Response) (w : World) (id : Uuid)
    (row : AgentRecord) : Prop :=
  ∃ past now, (orchestratorMachine network).Reaches Machine.Any sys₀ past ∧
    (orchestratorMachine network).Reaches Machine.Any past now ∧
    (orchestratorMachine network).Reaches Machine.Any now fin ∧
    now.world = w ∧ past.world.db.agent id = some row

section Read

variable {network : Nat → Nat → PostOutcome} {rq : Incoming} {i : Nat} {s s' : Session}
  {w w' : World} {id c : Uuid} {inst : Instance}

theorem load_remembers {db : Db} {locked : Bool}
    (h : (s.load db c locked).2.agents id = some inst) :
    s.agents id = some inst ∨ db.agent id = some inst.row := by
  unfold Session.load at h
  cases hfound : db.agent c with
  | none =>
    rw [hfound] at h
    exact .inl h
  | some row =>
    rw [hfound] at h
    dsimp only at h
    rcases eq_or_ne id c with rfl | hne
    · rw [Function.update_self] at h
      cases h
      exact .inr hfound
    · rw [Function.update_of_ne hne] at h
      exact .inl h

theorem rolledBack_remembers (h : s.rolledBack.agents id = some inst) :
    ∃ old, s.agents id = some old ∧ old.row = inst.row := by
  obtain ⟨old, hold, rfl⟩ := Option.map_eq_some_iff.mp h
  exact ⟨old, hold, rfl⟩

/-- The row that a commit has written is stored, and the others are as they were read. -/
theorem committed_remembers {db' : Db} (htx : Tx rq s) (hlocks : LocksCurrent i s w)
    (hdb : db'.toRows = s.contents w.db) (h : s.committed.agents id = some inst) :
    (∃ old, s.agents id = some old ∧ old.row = inst.row) ∨ db'.agent id = some inst.row := by
  simp only [Session.committed] at h
  split at h
  · cases h
  rename_i hspared
  obtain ⟨old, hold, rfl⟩ := Option.map_eq_some_iff.mp h
  have hunassigned : s.assigned = [] → s.write old.row = old.row := by
    intro hnone
    simp [Session.write, hnone]
  cases htx with
  | create _ assigned _ _ => exact .inl ⟨old, hold, (hunassigned assigned).symm⟩
  | delete _ assigned _ _ => exact .inl ⟨old, hold, (hunassigned assigned).symm⟩
  | @invoke agentId row result held assigned _ _ =>
    rcases eq_or_ne id agentId with rfl | hne
    · rw [held] at hold
      cases hold
      have hstored : w.db.agent id = some row := ((hlocks id _ held).2 rfl).2
      refine .inr ?_
      rw [agent_of_contents hdb, if_neg hspared, hstored]
      rfl
    · refine .inl ⟨old, hold, ?_⟩
      have hid : old.row.id = id := (hlocks id old hold).1
      simp [Session.write, assigned, hid, hne.symm]

/-- What a request has in its session after an operation it had before, or it is stored. -/
theorem step_remembers {β : Type} {o : AgentOp β} {b : β}
    (hst : (orchestratorMachine network).step i o s w = some (b, s', w')) (htx : Permits rq o s)
    (hlocks : LocksCurrent i s w) (h : s'.agents id = some inst) :
    (∃ old, s.agents id = some old ∧ old.row = inst.row) ∨ w.db.agent id = some inst.row ∨
      w'.db.agent id = some inst.row := by
  obtain ⟨hperform, -, -⟩ := orchestratorMachine_step hst
  obtain rfl : (perform (network i) o s w.db).2.1 = s' := by rw [hperform]
  have keep : s.agents id = some inst → ∃ old, s.agents id = some old ∧ old.row = inst.row :=
    fun hold => ⟨inst, hold, rfl⟩
  cases o with
  | getAgent c =>
    unfold perform at h
    dsimp only at h
    split at h
    · exact .inl (keep h)
    · rcases load_remembers h with hold | hrow
      · exact .inl (keep hold)
      · exact .inr (.inl hrow)
  | refreshAgent c =>
    rcases load_remembers h with hold | hrow
    · exact .inl (keep hold)
    · exact .inr (.inl hrow)
  | flush =>
    unfold perform at h
    dsimp only at h
    split at h
    · exact .inl (keep h)
    · exact .inl (rolledBack_remembers h)
  | commit =>
    rcases perform_commit (network i) s w.db with hrefused | ⟨db', hdb', hcommitted⟩
    · rw [hrefused] at h
      exact .inl (rolledBack_remembers h)
    · rw [hcommitted] at h
      rw [hperform] at hcommitted
      obtain rfl : w'.db = db' := (Prod.mk.inj hcommitted).2
      rcases committed_remembers htx hlocks hdb' h with hold | hrow
      · exact .inl hold
      · exact .inr (.inr hrow)
  | rollback => exact .inl (rolledBack_remembers h)
  | close => cases h
  | _ => exact .inl (keep h)

/-- What a session has read was stored once. -/
theorem reaches_remembers {reqs : Nat → Incoming} {db₀ : Db}
    {sys : System AgentOp Session World Exc Response}
    (h : (orchestratorMachine network).Reaches Machine.Any (orchestrator db₀ reqs) sys)
    (hinst : (sys.sessions i).agents id = some inst) :
    ∃ past, (orchestratorMachine network).Reaches Machine.Any (orchestrator db₀ reqs) past ∧
      (orchestratorMachine network).Reaches Machine.Any past sys ∧
      past.world.db.agent id = some inst.row := by
  induction h generalizing inst with
  | start => cases hinst
  | @step sys sys' j hr hs hc ih =>
    have before : ∀ old, (sys.sessions i).agents id = some old → old.row = inst.row →
        ∃ past, (orchestratorMachine network).Reaches Machine.Any (orchestrator db₀ reqs) past ∧
          (orchestratorMachine network).Reaches Machine.Any past sys' ∧
          past.world.db.agent id = some inst.row := by
      intro old hold hrow
      obtain ⟨past, hpast, hrest, hstored⟩ := ih hold
      exact ⟨past, hpast, .step hrest hs hc, hrow ▸ hstored⟩
    rcases eq_or_ne i j with rfl | hne
    · have hafter := Machine.Reaches.step hr hs hc
      cases hs with
      | crash hp =>
        rw [System.sessions_update, Function.update_self] at hinst
        cases hinst
      | op hp hst =>
        rw [System.sessions_update, Function.update_self] at hinst
        have htx := hr.pre (orchestratorMachine_implements reqs)
          (orchestrator_disciplined db₀ reqs) hp
        rcases step_remembers hst htx (reaches_locksCurrent hr i) hinst with
          ⟨old, hold, hrow⟩ | hrow | hrow
        · exact before old hold hrow
        · exact ⟨sys, hr, .step .start (.op hp hst) hc, hrow⟩
        · exact ⟨_, hafter, .start, hrow⟩
    · have hold : (sys.sessions i).agents id = some inst := by
        cases hs with
        | crash hp => simpa [System.sessions, Function.update_of_ne hne] using hinst
        | op hp hst => simpa [System.sessions, Function.update_of_ne hne] using hinst
      exact before inst hold rfl

end Read

/-! ## The walk -/

/-- How a commit ends. -/
theorem perform_commit_cases (network : Nat → PostOutcome) (s : Session) (db : Db) :
    (∃ e, perform network .commit s db = (.error e, s.rolledBack, db)) ∨
      ∃ db', db'.toRows = s.contents db ∧
        perform network .commit s db = (.ok (), s.committed, db') := by
  unfold perform
  dsimp only
  split
  · exact .inl ⟨_, rfl⟩
  · split
    · exact .inr ⟨_, rfl, rfl⟩
    · exact .inl ⟨_, rfl⟩

section Walk

variable {α : Type} {network : Nat → Nat → PostOutcome} {rq : Incoming} {i : Nat} {s : Session}
  {sys₀ fin : System AgentOp Session World Exc Response} {xs : List (World × World)}

/-- The discipline of the request, with what it has done as the ghost: it does one thing. -/
abbrev doing (network : Nat → Nat → PostOutcome) (rq : Incoming) (i : Nat)
    (sys₀ fin : System AgentOp Session World Exc Response) :
    Discipline AgentOp (Session × List (World × World)) :=
  (orchestratorMachine network).changes World.db
    (fun before w w' => before = [] ∧ Carried rq (WasStored network sys₀ fin) w w') i sys₀ fin

/-- Only a commit does anything. -/
theorem step_quiet {β : Type} {o : AgentOp β} {b : β} {s' : Session} {w w' : World}
    (ho : o.isCommit = false) (h : (orchestratorMachine network).step i o s w = some (b, s', w')) :
    w'.db = w.db := by
  obtain ⟨hperform, -, -⟩ := orchestratorMachine_step h
  have hdb := perform_db (network i) w.db ho (s := s)
  rw [hperform] at hdb
  exact hdb

theorem doing_quiet {β : Type} {o : AgentOp β} {k : β → Handler α}
    {Q : Except Exc α → Session × List (World × World) → Prop} (ho : o.isCommit = false)
    (h : ∀ b s', Effect o s b s' → (k b).Obeys (doing network rq i sys₀ fin) Q (s', xs)) :
    Prog.Obeys (doing network rq i sys₀ fin) Q (.op o k) (s, xs) := by
  refine Machine.changes_quiet (step_quiet ho) ?_
  intro b s' sys sys' hmoment
  obtain ⟨hperform, -, -⟩ := orchestratorMachine_step hmoment.step
  exact h b s' ⟨network i, sys.world.db, by rw [hperform], by rw [hperform]⟩

/-- A commit that has something to write, and what its client is told. -/
theorem doing_commit {response : Response} (hwrites : (s.flushed ++ s.pending).outbox ≠ [])
    (hdone : ∀ w w' : World, LocksCurrent i s w →
      (∀ id inst, s.agents id = some inst → WasStored network sys₀ fin w id inst.row) →
      w'.db.toRows = s.contents w.db →
      Done rq.env (WasStored network sys₀ fin w) w.db w'.db rq.request response)
    (hstart : ∃ db₀ reqs, sys₀ = orchestrator db₀ reqs) :
    (commit >>= fun _ => Prog.ret response).Obeys (doing network rq i sys₀ fin)
      (fun r p => Handled rq (WasStored network sys₀ fin) r p.2) (s, []) := by
  obtain ⟨db₀, reqs, rfl⟩ := hstart
  simp only [commit, await, Prog.perform_bind, Prog.op_bind]
  refine Machine.changes_change (fun b _ => ∃ e, b = .error e) (fun b _ w w' => b = .ok () ∧
    Done rq.env (WasStored network (orchestrator db₀ reqs) fin w) w.db w'.db rq.request response)
    ?_ ?_ ?_
  · rintro b s' sys sys' ⟨hr, hown, hrest, hsession, -, hst⟩
    obtain ⟨hperform, -, -⟩ := orchestratorMachine_step hst
    rcases perform_commit_cases (network i) s sys.world.db with
      ⟨e, hrefused⟩ | ⟨db', hdb', haccepted⟩
    · rw [hperform] at hrefused
      obtain ⟨rfl, -, hsame⟩ : b = _ ∧ s' = _ ∧ sys'.world.db = _ := by simpa using hrefused
      exact .inl ⟨⟨e, rfl⟩, hsame⟩
    · rw [hperform] at haccepted
      obtain ⟨rfl, -, hnew⟩ : b = _ ∧ s' = _ ∧ sys'.world.db = _ := by simpa using haccepted
      rw [← hnew] at hdb'
      have hwas : ∀ id inst, s.agents id = some inst →
          WasStored network (orchestrator db₀ reqs) fin sys.world id inst.row := by
        intro id inst hinst
        obtain ⟨past, hpast, hbefore, hstored⟩ := reaches_remembers hr (hsession ▸ hinst)
        have hafter := (Machine.Reaches.step .start hown trivial).trans hrest
        exact ⟨past, sys, hpast, hbefore, hafter, rfl, hstored⟩
      have hdid := hdone _ _ (hsession ▸ reaches_locksCurrent hr i) hwas hdb'
      refine .inr ⟨⟨rfl, hdid⟩, ?_, rfl, response, hdid⟩
      intro hsame
      have houtbox := congrArg Rows.outbox hdb'
      rw [hsame, Session.contents, Rows.append_outbox, List.self_eq_append_right] at houtbox
      exact hwrites houtbox
  · rintro b s' ⟨e, rfl⟩
    exact ⟨rfl, (by decide : 400 ≤ 500)⟩
  · rintro b s' w w' ⟨rfl, hdid⟩
    exact hdid

/-- Reading an agent of the caller's tenant. -/
theorem tenantAgent_doing {Q : Except Exc α → Session × List (World × World) → Prop}
    {agentId : Uuid} {tenantId : String} {k : AgentRecord → Handler α} (hidle : s.Idle)
    (hnone : ∀ s', Q (.error agentNotFound) (s', xs))
    (hsome : ∀ record inst s', s'.Idle → s'.agents agentId = some inst → inst.row = record →
      record.tenantId = tenantId → (k record).Obeys (doing network rq i sys₀ fin) Q (s', xs)) :
    (tenantAgent agentId tenantId >>= k).Obeys (doing network rq i sys₀ fin) Q (s, xs) := by
  unfold tenantAgent await
  simp only [Prog.perform_bind, Prog.op_bind]
  refine doing_quiet rfl ?_
  intro found s' heff
  obtain ⟨hidle', hfound⟩ := Effect.getAgent heff hidle
  cases hfilter : found.filter (·.tenantId = tenantId) with
  | none => exact hnone s'
  | some record =>
    obtain ⟨hrecord, htenant⟩ := Option.filter_eq_some_iff.mp hfilter
    obtain ⟨inst, hinst, hrow⟩ := hfound record hrecord
    exact hsome record inst s' hidle' hinst hrow (of_decide_eq_true htenant)

/-- The exceptions of the loop body are no `HTTPException`. -/
theorem fanOutEntry_raises {connectorId : String} {answer : PostOutcome} {e : Exc}
    (h : fanOutEntry connectorId answer = .error e) : e.respond.statusCode = 500 := by
  unfold fanOutEntry at h
  split at h
  · cases h
    rfl
  · cases h
  · split at h
    · split at h
      · cases h
      · cases h
        rfl
    · split at h
      · cases h
        rfl
      · cases h

section Contents

variable {id : Uuid} {rows : Rows} {db db' : Db}

theorem contents_insert (h : db'.toRows = s.contents db) (hassigned : s.assigned = [])
    (hdoomed : s.doomed = []) (hrows : s.flushed ++ s.pending = rows) :
    db'.toRows = db.toRows ++ rows := by
  have hwrite : s.write = fun r => r := by
    funext r
    simp [Session.write, hassigned]
  simp [h, Session.contents, hdoomed, hwrite, hrows]

theorem contents_delete (h : db'.toRows = s.contents db) (hassigned : s.assigned = [])
    (hdoomed : s.doomed = [id]) (hrows : s.flushed ++ s.pending = rows) :
    db'.toRows = ⟨db.agents.filter fun r => r.id ≠ id, db.outbox⟩ ++ rows := by
  have hwrite : s.write = fun r => r := by
    funext r
    simp [Session.write, hassigned]
  simp [h, Session.contents, hdoomed, hwrite, hrows]

/-- Deleting a row that is gone changes nothing. -/
theorem filter_id_eq_self (h : db.agent id = none) :
    (db.agents.filter fun r => r.id ≠ id) = db.agents := by
  refine List.filter_eq_self.mpr fun r hr => ?_
  have hne := List.find?_eq_none.mp h r hr
  simpa using hne

theorem contents_assign {version : Nat} (h : db'.toRows = s.contents db)
    (hassigned : s.assigned = [(id, version)]) (hdoomed : s.doomed = [])
    (hrows : s.flushed ++ s.pending = rows) :
    db'.toRows = ⟨db.agents.map fun r => if r.id = id then { r with version := version } else r,
      db.outbox⟩ ++ rows := by
  have hwrite : s.write = fun r => if r.id = id then { r with version := version } else r := by
    funext r
    by_cases hid : r.id = id
    · simp [Session.write, hassigned, hid]
    · simp [Session.write, hassigned, hid, Ne.symm hid]
  simp [h, Session.contents, hdoomed, hwrite, hrows]

end Contents

theorem createAgent_doing {tenantId : String} {payload : AgentCreate}
    (hstart : ∃ db₀ reqs, sys₀ = orchestrator db₀ reqs)
    (request : rq.request = .createAgent tenantId payload) :
    (createAgent rq.env tenantId payload).Obeys (doing network rq i sys₀ fin)
      (fun r p => Handled rq (WasStored network sys₀ fin) r p.2) (Session.fresh, []) := by
  unfold createAgent
  simp only [await, Prog.perform_bind, Prog.pure_eq]
  refine doing_quiet rfl ?_
  rintro u s₁ ⟨network₁, db₁, -, rfl⟩
  refine doing_quiet rfl ?_
  intro answer s₂ heff
  rcases Effect.flush heff with ⟨rfl, rfl⟩ | ⟨e, rfl⟩
  · refine doing_quiet rfl ?_
    rintro u s₃ ⟨network₃, db₃, -, rfl⟩
    refine doing_commit (List.cons_ne_nil _ _) ?_ hstart
    intro w w' _ _ hdb
    have hnew := contents_insert hdb rfl rfl rfl
    rw [request]
    exact .created (congrArg Rows.agents hnew) (congrArg Rows.outbox hnew)
  · cases e with
    | integrity =>
      refine doing_quiet rfl ?_
      intro u s₃ _
      exact ⟨rfl, (by decide : 400 ≤ 409)⟩
    | data => exact ⟨rfl, (by decide : 400 ≤ 500)⟩
    | stale => exact ⟨rfl, (by decide : 400 ≤ 500)⟩

theorem deleteAgent_doing {agentId : Uuid} {tenantId : String}
    (hstart : ∃ db₀ reqs, sys₀ = orchestrator db₀ reqs)
    (request : rq.request = .deleteAgent agentId tenantId) :
    (deleteAgent rq.env agentId tenantId).Obeys (doing network rq i sys₀ fin)
      (fun r p => Handled rq (WasStored network sys₀ fin) r p.2) (Session.fresh, []) := by
  unfold deleteAgent
  refine tenantAgent_doing Session.fresh_idle (fun _ => ⟨rfl, (by decide : 400 ≤ 404)⟩) ?_
  intro record inst s hidle hinst hrow htenant
  simp only [await, Prog.perform_bind, Prog.pure_eq]
  refine doing_quiet rfl ?_
  rintro u s₁ ⟨network₁, db₁, -, rfl⟩
  refine doing_quiet rfl ?_
  rintro u s₂ ⟨network₂, db₂, -, rfl⟩
  have hrows : s.flushed ++ (s.pending ++ ⟨[], [deletedEvent rq.env agentId record]⟩) =
      ⟨[], [deletedEvent rq.env agentId record]⟩ := by
    rw [hidle.pending, hidle.flushed]
    rfl
  refine doing_commit ?_ ?_ hstart
  · exact hrows ▸ List.cons_ne_nil _ _
  · intro w w' _ hwas hdb
    have hnew := contents_delete hdb hidle.assigned (congrArg (· ++ [agentId]) hidle.doomed) hrows
    have hagents := (congrArg Rows.agents hnew).trans (List.append_nil _)
    have hread : WasStored network sys₀ fin w agentId record := hrow ▸ hwas agentId inst hinst
    rw [request]
    cases hfound : w.db.agent agentId with
    | some stored =>
      exact .deleted hread htenant hfound hagents (congrArg Rows.outbox hnew)
    | none =>
      refine .deletedAgain hread htenant hfound (hagents.trans ?_) (congrArg Rows.outbox hnew)
      exact filter_id_eq_self hfound

/-- The fan-out writes nothing. -/
theorem fanOut_doing {Q : Except Exc α → Session × List (World × World) → Prop} {agentId : Uuid}
    {payload : Dict String} {tenantId : String} {k : List (Dict String) → Handler α}
    (hraise : ∀ e s', 400 ≤ e.respond.statusCode → Q (.error e) (s', xs))
    (hk : ∀ outputs s', s'.Idle → (k outputs).Obeys (doing network rq i sys₀ fin) Q (s', xs))
    (connectorIds : List String) (hidle : s.Idle) :
    (fanOut rq.env agentId payload tenantId connectorIds >>= k).Obeys (doing network rq i sys₀ fin) Q
      (s, xs) := by
  induction connectorIds generalizing s k with
  | nil => exact hk [] s hidle
  | cons connectorId rest ih =>
    unfold fanOut
    simp only [await, Prog.perform_bind, Prog.op_bind]
    refine doing_quiet rfl ?_
    rintro answer s' ⟨network₁, db₁, -, rfl⟩
    cases hentry : fanOutEntry connectorId answer with
    | error e => exact hraise e _ (by rw [fanOutEntry_raises hentry]; decide)
    | ok entry =>
      dsimp only
      rw [Prog.bind_assoc']
      refine ih (fun outputs s' hs' => hk _ s' hs') ?_
      exact ⟨hidle.assigned, hidle.doomed, hidle.pending, hidle.flushed⟩

theorem invokeAgent_doing {agentId : Uuid} {payload : Dict String} {caller : CallerIdentity}
    (hstart : ∃ db₀ reqs, sys₀ = orchestrator db₀ reqs)
    (request : rq.request = .invokeAgent agentId payload caller) :
    (invokeAgent rq.env agentId payload caller).Obeys (doing network rq i sys₀ fin)
      (fun r p => Handled rq (WasStored network sys₀ fin) r p.2) (Session.fresh, []) := by
  unfold invokeAgent
  refine tenantAgent_doing Session.fresh_idle (fun _ => ⟨rfl, (by decide : 400 ≤ 404)⟩) ?_
  intro record inst s hidle hinst hrow _
  split
  · exact ⟨rfl, (by decide : 400 ≤ 422)⟩
  simp only [await, Prog.perform_bind, Prog.pure_eq]
  refine doing_quiet rfl ?_
  rintro u s₁ ⟨network₁, db₁, -, rfl⟩
  refine fanOut_doing (fun _ _ h => ⟨rfl, h⟩) ?_ _ s.rolledBack_idle
  intro outputs s₂ hidle₂
  refine tenantAgent_doing hidle₂ (fun _ => ⟨rfl, (by decide : 400 ≤ 404)⟩) ?_
  intro fresh inst₃ s₃ hidle₃ _ _ _
  refine doing_quiet rfl ?_
  intro found s₄ heff
  obtain ⟨hidle₄, hlocked⟩ := Effect.refreshAgent heff hidle₃
  cases found with
  | none => exact ⟨rfl, (by decide : 400 ≤ 500)⟩
  | some row =>
    refine doing_quiet rfl ?_
    rintro u s₅ ⟨network₅, db₅, -, rfl⟩
    refine doing_quiet rfl ?_
    rintro u s₆ ⟨network₆, db₆, -, rfl⟩
    have hrows : s₄.flushed ++ (s₄.pending ++ ⟨[], [invokedEvent rq.env agentId (row.version + 1)
        (invocationResult agentId outputs)]⟩) = ⟨[], [invokedEvent rq.env agentId (row.version + 1)
          (invocationResult agentId outputs)]⟩ := by
      rw [hidle₄.pending, hidle₄.flushed]
      rfl
    refine doing_commit ?_ ?_ hstart
    · exact hrows ▸ List.cons_ne_nil _ _
    · intro w w' hlocks _ hdb
      -- the lock: the row that was read is the one that is stored
      have hstored : w.db.agent agentId = some row := ((hlocks agentId _ (hlocked row rfl)).2 rfl).2
      have hnew := contents_assign hdb
        (congrArg (· ++ [(agentId, row.version + 1)]) hidle₄.assigned) hidle₄.doomed hrows
      rw [request]
      refine .invoked hstored ?_ (congrArg Rows.outbox hnew)
      exact (congrArg Rows.agents hnew).trans (List.append_nil _)

/-- Every request does what it says, or nothing. -/
theorem serveIn_doing (hstart : ∃ db₀ reqs, sys₀ = orchestrator db₀ reqs) :
    (serveIn (handler rq.env rq.request)).Obeys (doing network rq i sys₀ fin)
      (fun r p => ∀ response, r = .ok response →
        Told rq (WasStored network sys₀ fin) response p.2) (Session.fresh, []) := by
  have hhandler : (handler rq.env rq.request).Obeys (doing network rq i sys₀ fin)
      (fun r p => Handled rq (WasStored network sys₀ fin) r p.2) (Session.fresh, []) := by
    cases hrequest : rq.request with
    | listAgents tenantId =>
      refine doing_quiet rfl ?_
      intro found s' _
      exact .inl (by rw [hrequest]; rfl)
    | getAgent agentId tenantId =>
      refine tenantAgent_doing Session.fresh_idle (fun _ => ⟨rfl, (by decide : 400 ≤ 404)⟩) ?_
      intro record inst s' _ _ _ _
      exact .inl (by rw [hrequest]; rfl)
    | createAgent tenantId payload => exact createAgent_doing hstart hrequest
    | deleteAgent agentId tenantId => exact deleteAgent_doing hstart hrequest
    | invokeAgent agentId payload caller => exact invokeAgent_doing hstart hrequest
  refine Prog.Obeys.tryCatch (Prog.Obeys.finallyDo (hhandler.mono ?_))
  rintro r ⟨s, xs⟩ hend
  refine ⟨Machine.changes_pre (step_quiet rfl), ?_⟩
  rintro ⟨s', xs'⟩ heff
  obtain ⟨hxs, -⟩ := Machine.changes_eff (step_quiet rfl) heff
  have hxs' : xs' = xs := hxs
  subst hxs'
  cases r with
  | ok response =>
    intro response' hresponse
    cases hresponse
    exact hend
  | error e =>
    intro response hresponse
    cases hresponse
    obtain ⟨rfl, hstatus⟩ : xs' = [] ∧ _ := hend
    exact .inr hstatus

end Walk

/-! ## In every run -/

/-- **A client is told what was done.**  At every moment of every run, each request has left the
    tables alone, in all its steps, or it has changed them in one step, and that step did what the
    request asks for, as a whole; of a deletion that another has overtaken it wrote the event only.
    Once the request is answered, the answer says which: after an error or a GET there was no such
    step, else there was, and it did what the client is told. -/
theorem answers_tell_effects (network : Nat → Nat → PostOutcome) (reqs : Nat → Incoming) (db₀ : Db)
    {sys : System AgentOp Session World Exc Response}
    (h : (orchestratorMachine network).Reaches Machine.Any (orchestrator db₀ reqs) sys) (i : Nat) :
    ∃ xs, (orchestratorMachine network).History World.db i (orchestrator db₀ reqs) xs sys ∧
      (xs = [] ∨ ∃ w w', xs = [(w, w')] ∧
        Carried (reqs i) (WasStored network (orchestrator db₀ reqs) sys) w w') ∧
      ∀ response, (sys.threads i).prog = .ret response →
        Told (reqs i) (WasStored network (orchestrator db₀ reqs) sys) response xs := by
  obtain ⟨xs, hhistory, hallowed, hobeys⟩ := h.history (fun _ _ => rfl)
    (fun _ _ hresponse => (by cases hresponse)) (serveIn_doing ⟨db₀, reqs, rfl⟩)
  refine ⟨xs, hhistory, hallowed.once, ?_⟩
  intro response hret
  rw [hret] at hobeys
  exact hobeys response rfl

/-- An agent with a connector; request 1 deletes it, request 2 invokes it. -/
def calledMeanwhile : Nat → Incoming
  | 0 => sampleCreate ["crm"]
  | 1 => sampleDelete 10
  | n => sampleInvoke (10 * n)

/-- The invocation calls the registry, then the agent is deleted, then the call comes back. -/
def deletedMeanwhile : List Nat :=
  List.replicate 5 0 ++ List.replicate 3 2 ++ List.replicate 5 1 ++ List.replicate 2 2

/-- No call to the registry is answered. -/
def timedOut (_ _ : Nat) : PostOutcome := .httpError "timed out"

set_option maxRecDepth 10000 in
/-- The connector has been called, the client is told 404, and no step of the request has changed
    anything. -/
theorem answers_tell_effects_deletedMeanwhile :
    let sys := (orchestratorMachine timedOut).schedule deletedMeanwhile
      (orchestrator Db.empty calledMeanwhile)
    (sys.threads 2).prog = .ret agentNotFound.respond ∧
      (orchestratorMachine timedOut).History World.db 2 (orchestrator Db.empty calledMeanwhile) []
        sys := by
  intro sys
  have hret : (sys.threads 2).prog = .ret agentNotFound.respond :=
    Prog.eq_ret_of_returned (by decide +kernel)
  have hreach : (orchestratorMachine timedOut).Reaches Machine.Any
    (orchestrator Db.empty calledMeanwhile) sys := Machine.reaches_schedule _ _
  clear_value sys
  obtain ⟨xs, hhistory, honce, htold⟩ :=
    answers_tell_effects timedOut calledMeanwhile Db.empty hreach 2
  have hanswer := htold _ hret
  rcases honce with rfl | ⟨w, w', rfl, -⟩
  · exact ⟨hret, hhistory⟩
  · cases hanswer

end FavlGateway.Orchestrator
