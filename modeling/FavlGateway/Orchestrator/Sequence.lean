/-
  The versions of an agent's events.

  An invocation reads the agent under a row lock before it numbers its event, so what it writes is
  computed from the stored row.  A deletion numbers its event from an unlocked read.  As long as
  every deletion still finds the version it read when it commits, the events of an agent are
  numbered `1, …, n` in commit order and only the last can be a deletion; the two ways to break this
  (a second deletion, an invocation in between) are at the end.

  A commit is one of three transactions (`Tx`), each with its one event; `Sequenced` is the
  invariant of the tables, `LocksCurrent` that of the sessions.
-/
import FavlGateway.Orchestrator.Main
import FavlGateway.Outbox.Consumer

namespace FavlGateway.Orchestrator

open FavlGateway.Library
open FavlGateway.Registry
  (Uuid Time OutboxEvent outboxEvent uuidText jsonStr jsonInt jsonTime CallerIdentity)

/-! ## What a request can commit -/

/-- A session about to commit. -/
inductive Tx (rq : Incoming) : Session → Prop where
  | create {s : Session} {tenantId : String} {payload : AgentCreate}
      (request : rq.request = .createAgent tenantId payload)
      (assigned : s.assigned = []) (doomed : s.doomed = [])
      (rows : s.flushed ++ s.pending =
        ⟨[newAgent rq.env tenantId payload],
          [createdEvent rq.env (newAgent rq.env tenantId payload)]⟩) : Tx rq s
  | delete {s : Session} {id : Uuid} {inst : Instance} (held : s.agents id = some inst)
      (assigned : s.assigned = []) (doomed : s.doomed = [id])
      (rows : s.flushed ++ s.pending = ⟨[], [deletedEvent rq.env id inst.row]⟩) : Tx rq s
  | invoke {s : Session} {id : Uuid} {row : AgentRecord} {result : Json String}
      (held : s.agents id = some ⟨row, false, true⟩)
      (assigned : s.assigned = [(id, row.version + 1)]) (doomed : s.doomed = [])
      (rows : s.flushed ++ s.pending =
        ⟨[], [invokedEvent rq.env id (row.version + 1) result]⟩) : Tx rq s

/-- The outcome of an operation, on some database. -/
def Effect {β : Type} (o : AgentOp β) (s : Session) (b : β) (s' : Session) : Prop :=
  ∃ network db, (perform network o s db).1 = b ∧ (perform network o s db).2.1 = s'

/-- When a request may await an operation. -/
def Permits (rq : Incoming) {β : Type} : AgentOp β → Session → Prop
  | .commit, s => Tx rq s
  | _, _ => True

def discipline (rq : Incoming) : Discipline AgentOp Session where
  pre := Permits rq
  eff := Effect

/-- Nothing to write. -/
structure Session.Idle (s : Session) : Prop where
  assigned : s.assigned = []
  doomed : s.doomed = []
  pending : s.pending = {}
  flushed : s.flushed = {}

theorem Session.fresh_idle : Session.fresh.Idle := ⟨rfl, rfl, rfl, rfl⟩

theorem Session.rolledBack_idle (s : Session) : s.rolledBack.Idle := ⟨rfl, rfl, rfl, rfl⟩

section Effects

variable {s s' : Session} {id : Uuid} {found : Option AgentRecord}

theorem Session.load_idle (h : s.Idle) (db : Db) (locked : Bool) :
    (s.load db id locked).2.Idle := by
  unfold Session.load
  split
  · exact ⟨h.assigned, h.doomed, h.pending, h.flushed⟩
  · exact h

theorem Session.load_found {db : Db} {locked : Bool} {row : AgentRecord}
    (h : (s.load db id locked).1 = some row) :
    (s.load db id locked).2.agents id = some ⟨row, false, locked⟩ := by
  unfold Session.load at h ⊢
  cases hagent : db.agent id with
  | none =>
    rw [hagent] at h
    cases h
  | some stored =>
    rw [hagent] at h
    cases h
    simp

/-- A read leaves an instance of what it found. -/
theorem Effect.getAgent (h : Effect (.getAgent id) s found s') (hidle : s.Idle) :
    s'.Idle ∧ ∀ row, found = some row → ∃ inst, s'.agents id = some inst ∧ inst.row = row := by
  obtain ⟨network, db, hfound, hs⟩ := h
  unfold perform at hfound hs
  cases hheld : s.held id with
  | some row =>
    simp only [hheld] at hfound hs
    subst hfound hs
    refine ⟨hidle, ?_⟩
    intro row' hrow
    cases hrow
    unfold Session.held at hheld
    split at hheld
    · rename_i inst hinst
      split at hheld
      · cases hheld
      · exact ⟨inst, hinst, Option.some.inj hheld⟩
    · cases hheld
  | none =>
    simp only [hheld] at hfound hs
    subst hfound hs
    refine ⟨Session.load_idle hidle db false, ?_⟩
    intro row hrow
    exact ⟨_, Session.load_found hrow, rfl⟩

/-- A locking read leaves a locked instance of what it found. -/
theorem Effect.refreshAgent (h : Effect (.refreshAgent id) s found s') (hidle : s.Idle) :
    s'.Idle ∧ ∀ row, found = some row → s'.agents id = some ⟨row, false, true⟩ := by
  obtain ⟨network, db, hfound, hs⟩ := h
  change (s.load db id true).1 = found at hfound
  change (s.load db id true).2 = s' at hs
  subst hfound hs
  exact ⟨Session.load_idle hidle db true, fun row hrow => Session.load_found hrow⟩

theorem Effect.flush {answer : Except DbError Unit} (h : Effect .flush s answer s') :
    answer = .ok () ∧ s' = { s with flushed := s.flushed ++ s.pending, pending := {} } ∨
      ∃ e, answer = .error e := by
  obtain ⟨network, db, hanswer, hs⟩ := h
  unfold perform at hanswer hs
  dsimp only at hanswer hs
  split at hanswer
  · rename_i hvalid
    rw [if_pos hvalid] at hs
    exact Or.inl ⟨hanswer.symm, hs.symm⟩
  · exact Or.inr ⟨_, hanswer.symm⟩

end Effects

/-! ## Every handler keeps to its transactions -/

section Obeys

variable {rq : Incoming} {s : Session}

/-- Reading an agent of the caller's tenant. -/
theorem tenantAgent_obeys {α : Type} {Q : Except Exc α → Session → Prop} {agentId : Uuid}
    {tenantId : String} {k : AgentRecord → Handler α} (hidle : s.Idle)
    (hnone : ∀ s', s'.Idle → Q (.error agentNotFound) s')
    (hsome : ∀ record inst s', s'.Idle → s'.agents agentId = some inst → inst.row = record →
      (k record).Obeys (discipline rq) Q s') :
    (tenantAgent agentId tenantId >>= k).Obeys (discipline rq) Q s := by
  unfold tenantAgent await
  simp only [Prog.perform_bind, Prog.op_bind]
  refine ⟨trivial, ?_⟩
  intro found s' heff
  obtain ⟨hidle', hfound⟩ := Effect.getAgent heff hidle
  dsimp only
  cases hfilter : found.filter (·.tenantId = tenantId) with
  | none => exact hnone s' hidle'
  | some record =>
    have hrecord : found = some record := by
      obtain ⟨hmem, -⟩ := Option.filter_eq_some_iff.mp hfilter
      exact hmem
    obtain ⟨inst, hinst, hrow⟩ := hfound record hrecord
    exact hsome record inst s' hidle' hinst hrow

/-- What a commit answers is passed on. -/
theorem commit_obeys {Q : Except Exc Response → Session → Prop} {response : Response}
    (htx : Tx rq s) (hQ : ∀ r s', Q r s') :
    (commit >>= fun _ => Prog.ret response).Obeys (discipline rq) Q s := by
  unfold commit await
  simp only [Prog.perform_bind]
  refine ⟨htx, ?_⟩
  intro answer s' _
  cases answer with
  | ok u => exact hQ _ _
  | error e => exact hQ _ _

theorem createAgent_obeys {tenantId : String} {payload : AgentCreate}
    (request : rq.request = .createAgent tenantId payload) :
    (createAgent rq.env tenantId payload).Obeys (discipline rq) (fun _ _ => True)
      Session.fresh := by
  unfold createAgent
  simp only [await, Prog.perform_bind, Prog.pure_eq]
  refine ⟨trivial, ?_⟩
  rintro u s₁ ⟨network, db, -, rfl⟩
  refine ⟨trivial, ?_⟩
  intro answer s₂ heff
  rcases Effect.flush heff with ⟨rfl, rfl⟩ | ⟨e, rfl⟩
  · refine ⟨trivial, ?_⟩
    rintro u s₃ ⟨network₃, db₃, -, rfl⟩
    refine commit_obeys ?_ fun _ _ => trivial
    exact .create request rfl rfl rfl
  · cases e with
    | integrity => exact ⟨trivial, fun _ _ _ => trivial⟩
    | data => trivial
    | stale => trivial

theorem deleteAgent_obeys {agentId : Uuid} {tenantId : String} :
    (deleteAgent rq.env agentId tenantId).Obeys (discipline rq) (fun _ _ => True)
      Session.fresh := by
  unfold deleteAgent
  refine tenantAgent_obeys Session.fresh_idle (fun _ _ => trivial) ?_
  intro record inst s hidle hinst hrow
  simp only [await, Prog.perform_bind, Prog.pure_eq]
  refine ⟨trivial, ?_⟩
  rintro u s₁ ⟨network, db, -, rfl⟩
  refine ⟨trivial, ?_⟩
  rintro u s₂ ⟨network₂, db₂, -, rfl⟩
  refine commit_obeys ?_ fun _ _ => trivial
  refine Tx.delete hinst hidle.assigned ?_ ?_
  · simp [perform, hidle.doomed]
  · simp [perform, hidle.pending, hidle.flushed, hrow]
    rfl

/-- The fan-out touches no table. -/
theorem fanOut_obeys {α : Type} {Q : Except Exc α → Session → Prop} {agentId : Uuid}
    {payload : Dict String} {tenantId : String} {k : List (Dict String) → Handler α}
    (hraise : ∀ e s', Q (.error e) s')
    (hk : ∀ outputs s', s'.Idle → (k outputs).Obeys (discipline rq) Q s')
    (connectorIds : List String) (hidle : s.Idle) :
    (fanOut rq.env agentId payload tenantId connectorIds >>= k).Obeys (discipline rq) Q s := by
  induction connectorIds generalizing s k with
  | nil => exact hk [] s hidle
  | cons connectorId rest ih =>
    unfold fanOut
    simp only [await, Prog.perform_bind, Prog.op_bind]
    refine ⟨trivial, ?_⟩
    rintro answer s' ⟨network, db, -, rfl⟩
    dsimp only
    cases hentry : fanOutEntry connectorId answer with
    | error e => exact hraise e _
    | ok entry =>
      dsimp only
      rw [Prog.bind_assoc']
      refine ih (fun outputs s' hs' => hk _ s' hs') ?_
      exact ⟨hidle.assigned, hidle.doomed, hidle.pending, hidle.flushed⟩

theorem invokeAgent_obeys {agentId : Uuid} {payload : Dict String} {caller : CallerIdentity} :
    (invokeAgent rq.env agentId payload caller).Obeys (discipline rq) (fun _ _ => True)
      Session.fresh := by
  unfold invokeAgent
  refine tenantAgent_obeys Session.fresh_idle (fun _ _ => trivial) ?_
  intro record inst s hidle hinst hrow
  split
  · trivial
  · simp only [await, Prog.perform_bind, Prog.pure_eq]
    refine ⟨trivial, ?_⟩
    rintro u s₁ ⟨network, db, -, rfl⟩
    refine fanOut_obeys (fun _ _ => trivial) ?_ _ s.rolledBack_idle
    intro outputs s₂ hidle₂
    refine tenantAgent_obeys hidle₂ (fun _ _ => trivial) ?_
    intro fresh inst₃ s₃ hidle₃ _ _
    refine ⟨trivial, ?_⟩
    intro found s₄ heff
    obtain ⟨hidle₄, hlocked⟩ := Effect.refreshAgent heff hidle₃
    cases found with
    | none => trivial
    | some row =>
      refine ⟨trivial, ?_⟩
      rintro u s₅ ⟨network₅, db₅, -, rfl⟩
      refine ⟨trivial, ?_⟩
      rintro u s₆ ⟨network₆, db₆, -, rfl⟩
      refine commit_obeys ?_ fun _ _ => trivial
      refine @Tx.invoke rq _ agentId row (invocationResult agentId outputs) (hlocked row rfl) ?_
        hidle₄.doomed ?_
      · simp [perform, hidle₄.assigned]
      · simp [perform, hidle₄.pending, hidle₄.flushed]
        rfl

theorem handler_obeys (rq : Incoming) :
    (handler rq.env rq.request).Obeys (discipline rq) (fun _ _ => True) Session.fresh := by
  cases hrequest : rq.request with
  | listAgents tenantId => exact ⟨trivial, fun _ _ _ => trivial⟩
  | getAgent agentId tenantId =>
    exact tenantAgent_obeys Session.fresh_idle (fun _ _ => trivial) fun _ _ _ _ _ _ => trivial
  | createAgent tenantId payload => exact createAgent_obeys hrequest
  | deleteAgent agentId tenantId => exact deleteAgent_obeys
  | invokeAgent agentId payload caller => exact invokeAgent_obeys

/-- So does the request around it. -/
theorem serveIn_obeys (rq : Incoming) :
    (serveIn (handler rq.env rq.request)).Obeys (discipline rq) (fun _ _ => True)
      Session.fresh := by
  refine Prog.Obeys.tryCatch (Prog.Obeys.finallyDo ((handler_obeys rq).mono ?_))
  intro r s _
  refine ⟨trivial, ?_⟩
  intro s' _
  cases r with
  | ok response => trivial
  | error e => trivial

end Obeys

/-! ## What a commit makes of the tables -/

/-- The events are numbered `1, …, n`. -/
def NumberedTo (n : Nat) (events : List OutboxEvent) : Prop :=
  events.map (·.aggregateVersion) = List.range' 1 n

/-- The events are not deletions. -/
def NoDeletion (events : List OutboxEvent) : Prop := ∀ e ∈ events, e.subject ≠ "agent.deleted"

/-- The row and the events of an agent agree: while there is a row, its version is the last number;
    after that only the last event can be a deletion. -/
def InStep : Option AgentRecord → List OutboxEvent → Prop
  | some row, events => 1 ≤ row.version ∧ NumberedTo row.version events ∧ NoDeletion events
  | none, events => ∃ n, NumberedTo n events ∧ NoDeletion events.dropLast

def Sequenced (db : Db) : Prop := ∀ a, InStep (db.agent a) (db.agentEvents a)

/-- Every row the session will delete still has the version it was read at. -/
def Session.DeletesUnchanged (s : Session) (db : Db) : Prop :=
  ∀ id ∈ s.doomed, ∀ inst, s.agents id = some inst →
    (db.agent id).map (·.version) = some inst.row.version

/-- No event has the id of a row the session will insert. -/
def Session.InsertsNew (s : Session) (db : Db) : Prop :=
  ∀ r ∈ (s.flushed ++ s.pending).agents, db.agentEvents r.id = []

section Tables

variable {rq : Incoming} {s : Session} {db db' : Db} {a id : Uuid} {events : List OutboxEvent}
  {e : OutboxEvent} {row : AgentRecord}

theorem Session.write_id (s : Session) (row : AgentRecord) : (s.write row).id = row.id := by
  unfold Session.write
  split <;> rfl

theorem agent_of_contents (h : db'.toRows = s.contents db) :
    db'.agent a = ((if a ∈ s.doomed then none else db.agent a).map s.write).or
      (lookup AgentRecord.id (s.flushed ++ s.pending).agents a) := by
  have hagents : db'.agents = (db.agents.filter fun row => row.id ∉ s.doomed).map s.write ++
      (s.flushed ++ s.pending).agents := by
    rw [h]
    rfl
  unfold Db.agent lookup
  rw [hagents, List.find?_append, List.find?_map, List.find?_filter]
  congr 2
  split
  · rename_i hdoomed
    rw [List.find?_eq_none]
    intro row _ hrow
    simp only [Function.comp, Session.write_id, Bool.decide_and, Bool.and_eq_true,
      decide_eq_true_eq] at hrow
    exact hrow.1 (hrow.2 ▸ hdoomed)
  · rename_i hspared
    congr 1
    funext row
    simp only [Function.comp, Session.write_id]
    by_cases hid : row.id = a
    · simp [hid, hspared]
    · simp [hid]

theorem events_of_contents (h : db'.toRows = s.contents db)
    (he : (s.flushed ++ s.pending).outbox = [e]) (htype : e.aggregateType = "agent")
    (hid : e.aggregateId = some id) :
    db'.agentEvents a = if a = id then db.agentEvents a ++ [e] else db.agentEvents a := by
  have houtbox : db'.outbox = db.outbox ++ [e] := by
    rw [← he, h]
    rfl
  unfold Db.agentEvents
  rw [houtbox, List.filter_append]
  rcases eq_or_ne a id with rfl | hne
  · simp [htype, hid]
  · have hother : ¬ id = a := fun h => hne h.symm
    simp [hne, htype, hid, hother]

theorem NumberedTo.concat {n : Nat} (h : NumberedTo n events) (he : e.aggregateVersion = n + 1) :
    NumberedTo (n + 1) (events ++ [e]) := by
  unfold NumberedTo at h ⊢
  rw [List.map_append, h, List.range'_1_concat, List.map_singleton, he, Nat.add_comm 1]

theorem NoDeletion.concat (h : NoDeletion events) (he : e.subject ≠ "agent.deleted") :
    NoDeletion (events ++ [e]) := by
  intro x hx
  rcases List.mem_append.mp hx with hx | hx
  · exact h x hx
  · rw [List.mem_singleton.mp hx]
    exact he

/-- Where no event is, no row is. -/
theorem InStep.row_eq_none {found : Option AgentRecord} (h : InStep found []) : found = none := by
  cases found with
  | none => rfl
  | some row =>
    obtain ⟨hone, hnumbered, -⟩ := h
    have hlength := congrArg List.length hnumbered
    simp only [List.map_nil, List.length_nil, List.length_range'] at hlength
    omega

theorem InStep.deleted (h : InStep (some row) events)
    (he : e.aggregateVersion = row.version + 1) : InStep none (events ++ [e]) := by
  obtain ⟨-, hnumbered, hspared⟩ := h
  refine ⟨row.version + 1, hnumbered.concat he, ?_⟩
  rw [List.dropLast_concat]
  exact hspared

theorem InStep.invoked (h : InStep (some row) events)
    (he : e.aggregateVersion = row.version + 1) (hsubject : e.subject ≠ "agent.deleted") :
    InStep (some { row with version := row.version + 1 }) (events ++ [e]) := by
  obtain ⟨-, hnumbered, hspared⟩ := h
  exact ⟨Nat.le_add_left 1 row.version, hnumbered.concat he, hspared.concat hsubject⟩

/-- A session that assigned nothing updates no row. -/
theorem map_write_of_unassigned (h : s.assigned = []) (found : Option AgentRecord) :
    found.map s.write = found := by
  have hwrite : ∀ row, s.write row = row := by
    intro row
    simp [Session.write, h]
  cases found with
  | none => rfl
  | some row => rw [Option.map_some, hwrite]

/-- **The step lemma**: every transaction adds the next number of its agent. -/
theorem Sequenced.commit (h : Sequenced db) (htx : Tx rq s) (hdb : db'.toRows = s.contents db)
    (hlocks : ∀ id inst, s.agents id = some inst → inst.locked = true → db.agent id = some inst.row)
    (hkeys : ∀ id inst, s.agents id = some inst → inst.row.id = id)
    (hdeletes : s.DeletesUnchanged db) (hinserts : s.InsertsNew db) : Sequenced db' := by
  intro a
  have ha := h a
  have hagent := agent_of_contents (a := a) hdb
  cases htx with
  | @create tenantId payload request assigned doomed rows =>
    have hevents := events_of_contents (a := a) hdb (congrArg Rows.outbox rows) rfl rfl
    rw [rows, doomed, if_neg List.not_mem_nil, map_write_of_unassigned assigned] at hagent
    rw [hagent, hevents]
    rcases eq_or_ne a (newAgent rq.env tenantId payload).id with rfl | hne
    · have hnew := hinserts (newAgent rq.env tenantId payload) (by rw [rows]; simp)
      rw [hnew] at ha ⊢
      rw [ha.row_eq_none, if_pos rfl]
      simp only [lookup, List.find?_cons, decide_true, Option.none_or, List.nil_append]
      refine ⟨Nat.le_refl 1, rfl, ?_⟩
      intro x hx
      rw [List.mem_singleton.mp hx]
      simp [createdEvent, outboxEvent]
    · have hother : lookup AgentRecord.id [newAgent rq.env tenantId payload] a = none := by
        simp [lookup, Ne.symm hne]
      rw [hother, Option.or_none, if_neg hne]
      exact ha
  | @delete c inst held assigned doomed rows =>
    have hevents := events_of_contents (a := a) hdb (congrArg Rows.outbox rows) rfl rfl
    have hnone : lookup AgentRecord.id ([] : List AgentRecord) a = none := rfl
    rw [rows, doomed, map_write_of_unassigned assigned, hnone, Option.or_none] at hagent
    rw [hagent, hevents]
    rcases eq_or_ne a c with rfl | hne
    · rw [if_pos (List.mem_singleton.mpr rfl), if_pos rfl]
      -- the row is still there, at the version the event was computed from
      have hversion := hdeletes a (by rw [doomed]; simp) inst held
      obtain ⟨row, hrow, hsame⟩ := Option.map_eq_some_iff.mp hversion
      rw [hrow] at ha
      refine ha.deleted ?_
      rw [hsame]
      rfl
    · rw [if_neg (mt List.mem_singleton.mp hne), if_neg hne]
      exact ha
  | @invoke c row result held assigned doomed rows =>
    have hevents := events_of_contents (a := a) hdb (congrArg Rows.outbox rows) rfl rfl
    have hnone : lookup AgentRecord.id ([] : List AgentRecord) a = none := rfl
    rw [rows, doomed, if_neg List.not_mem_nil, hnone, Option.or_none] at hagent
    rw [hagent, hevents]
    rcases eq_or_ne a c with rfl | hne
    · -- the lock: the event was computed from the stored row
      have hstored := hlocks a _ held rfl
      have hid : row.id = a := hkeys a _ held
      rw [hstored] at ha
      rw [hstored, Option.map_some, if_pos rfl]
      have hwrite : s.write row = { row with version := row.version + 1 } := by
        simp [Session.write, assigned, hid]
      rw [hwrite]
      refine ha.invoked rfl ?_
      simp [invokedEvent, outboxEvent]
    · have hkept : (db.agent a).map s.write = db.agent a := by
        cases hstored : db.agent a with
        | none => rfl
        | some other =>
          obtain ⟨-, hid⟩ := lookup_mem hstored
          have hwrite : s.write other = other := by
            simp [Session.write, assigned, hid, Ne.symm hne]
          rw [Option.map_some, hwrite]
      rw [hkept, if_neg hne]
      exact ha

end Tables

/-! ## Any number of requests -/

/-- What session `i` has loaded is filed under its id, and what it has loaded under a row lock that
    it still holds is what is stored. -/
def LocksCurrent (i : Nat) (s : Session) (w : World) : Prop :=
  ∀ id inst, s.agents id = some inst →
    inst.row.id = id ∧ (inst.locked = true → w.rowLock id = some i ∧ w.db.agent id = some inst.row)

def AgentOp.isCommit : {β : Type} → AgentOp β → Bool
  | _, .commit => true
  | _, _ => false

section Machine

variable {network : Nat → Nat → PostOutcome} {i j : Nat} {β : Type} {o : AgentOp β}
  {s s' : Session} {w w' : World} {b : β} {id : Uuid}

theorem World.relock_db (o : AgentOp β) (b : β) (s : Session) :
    (World.relock i w o b s).db = w.db := by
  cases o with
  | refreshAgent id => cases b <;> rfl
  | flush => cases b <;> rfl
  | _ => rfl

/-- A step of the machine is the operation on the database, locks aside. -/
theorem orchestratorMachine_step
    (h : (orchestratorMachine network).step i o s w = some (b, s', w')) :
    perform (network i) o s w.db = (b, s', w'.db) ∧ blocked i o s w = false ∧
      w' = World.relock i { w with db := w'.db } o b s := by
  simp only [orchestratorMachine] at h
  split at h
  · cases h
  · rename_i hblocked
    simp only [Option.some.injEq, Prod.mk.injEq] at h
    obtain ⟨rfl, rfl, rfl⟩ := h
    rw [World.relock_db]
    exact ⟨rfl, by simpa using hblocked, rfl⟩

theorem orchestratorMachine_implements (reqs : Nat → Incoming) :
    (orchestratorMachine network).Implements fun i => discipline (reqs i) := by
  intro i β o s w b s' w' h
  obtain ⟨hperform, -, -⟩ := orchestratorMachine_step h
  exact ⟨network i, w.db, by rw [hperform], by rw [hperform]⟩

theorem orchestrator_disciplined (db : Db) (reqs : Nat → Incoming) :
    (orchestrator db reqs).Disciplined fun i => discipline (reqs i) :=
  fun i => serveIn_obeys (reqs i)

/-- Only a commit writes. -/
theorem perform_db (answers : Nat → PostOutcome) (db : Db) (h : o.isCommit = false) :
    (perform answers o s db).2.2 = db := by
  cases o with
  | getAgent id => unfold perform; dsimp only; split <;> rfl
  | flush => unfold perform; dsimp only; split <;> rfl
  | commit => cases h
  | _ => rfl

/-- A commit writes the contents of its session, or nothing. -/
theorem perform_commit (answers : Nat → PostOutcome) (s : Session) (db : Db) :
    (perform answers .commit s db).2 = (s.rolledBack, db) ∨
      ∃ db', db'.toRows = s.contents db ∧
        (perform answers .commit s db).2 = (s.committed, db') := by
  unfold perform
  dsimp only
  split
  · exact Or.inl rfl
  · split
    · exact Or.inr ⟨_, rfl, rfl⟩
    · exact Or.inl rfl

theorem World.rowLock_release (h : w.rowLock id = some j) (hne : j ≠ i) :
    (w.release i).rowLock id = some j := by
  have hother : ¬ some j = some i := by simpa using hne
  simp only [World.release, h, if_neg hother]

theorem heldByOther_of {j : Nat} (hne : j ≠ i) : heldByOther i (some j) = true := by
  simpa [heldByOther] using hne

/-- A step of another request takes no row lock away. -/
theorem rowLock_kept (h : (orchestratorMachine network).step i o s w = some (b, s', w'))
    (hlock : w.rowLock id = some j) (hne : j ≠ i) : w'.rowLock id = some j := by
  obtain ⟨-, hblocked, hw'⟩ := orchestratorMachine_step h
  rw [hw']
  cases o with
  | refreshAgent c =>
    cases b with
    | none => exact hlock
    | some row =>
      have hother : id ≠ c := by
        rintro rfl
        have hheld : heldByOther i (w.rowLock id) = false := hblocked
        rw [hlock, heldByOther_of hne] at hheld
        cases hheld
      simp only [World.relock, Function.update_of_ne hother]
      exact hlock
  | flush => cases b with
    | ok u => exact hlock
    | error e => exact World.rowLock_release hlock hne
  | commit => exact World.rowLock_release hlock hne
  | rollback => exact World.rowLock_release hlock hne
  | close => exact World.rowLock_release hlock hne
  | _ => exact hlock

/-- Nor does it write the locked row. -/
theorem agent_kept (h : (orchestratorMachine network).step i o s w = some (b, s', w'))
    (hlock : w.rowLock id = some j) (hne : j ≠ i) {row : AgentRecord}
    (hrow : w.db.agent id = some row) : w'.db.agent id = some row := by
  obtain ⟨hperform, hblocked, -⟩ := orchestratorMachine_step h
  cases ho : o.isCommit with
  | false =>
    have hdb := perform_db (network i) w.db ho (s := s)
    rw [hperform] at hdb
    rw [show w'.db = w.db from hdb]
    exact hrow
  | true =>
    cases o with
    | commit =>
      have hcommit := perform_commit (network i) s w.db
      rw [hperform] at hcommit
      rcases hcommit with hrefused | ⟨db', hdb', hcommitted⟩
      · rw [(Prod.mk.inj hrefused).2]
        exact hrow
      · rw [(Prod.mk.inj hcommitted).2]
        -- a row that the commit writes is not locked by another request
        have hfree : heldByOther i (w.rowLock id) = true := by
          rw [hlock]
          exact heldByOther_of hne
        simp only [blocked, Bool.or_eq_false_iff, List.any_eq_false] at hblocked
        obtain ⟨⟨-, hassigned⟩, hdoomed⟩ := hblocked
        have hspared : id ∉ s.doomed := fun hmem => hdoomed id hmem hfree
        have hwrite : s.write row = row := by
          unfold Session.write
          obtain ⟨-, hid⟩ := lookup_mem hrow
          cases hfind : s.assigned.find? fun a => a.1 = row.id with
          | none => rfl
          | some a =>
            have hsame : a.1 = row.id := by simpa using List.find?_some hfind
            refine absurd ?_ (hassigned a (List.mem_of_find?_eq_some hfind))
            rw [hsame, hid]
            exact hfree
        rw [agent_of_contents hdb', if_neg hspared, hrow, Option.map_some, hwrite, Option.some_or]
    | _ => cases ho

/-- Once its locks are gone, a session only has to have its rows filed right. -/
theorem LocksCurrent.unlocked (hs : LocksCurrent i s w)
    (h : ∀ id inst, s'.agents id = some inst → inst.locked = false ∧
      ∃ old, s.agents id = some old ∧ inst.row.id = old.row.id) : LocksCurrent i s' w' := by
  intro id inst hinst
  obtain ⟨hunlocked, old, hold, hsame⟩ := h id inst hinst
  refine ⟨hsame.trans (hs id old hold).1, ?_⟩
  intro hlocked
  rw [hunlocked] at hlocked
  cases hlocked

theorem LocksCurrent.rolledBack (hs : LocksCurrent i s w) : LocksCurrent i s.rolledBack w' := by
  refine hs.unlocked ?_
  intro id inst hinst
  obtain ⟨old, hold, rfl⟩ := Option.map_eq_some_iff.mp hinst
  exact ⟨rfl, old, hold, rfl⟩

theorem LocksCurrent.committed (hs : LocksCurrent i s w) : LocksCurrent i s.committed w' := by
  refine hs.unlocked ?_
  intro id inst hinst
  simp only [Session.committed] at hinst
  split at hinst
  · cases hinst
  · obtain ⟨old, hold, rfl⟩ := Option.map_eq_some_iff.mp hinst
    exact ⟨rfl, old, hold, s.write_id old.row⟩

theorem LocksCurrent.fresh : LocksCurrent i Session.fresh w := by
  intro id inst hinst
  cases hinst

/-- What a read finds is what is stored. -/
theorem LocksCurrent.load (hs : LocksCurrent i s w) (id : Uuid) (locked : Bool)
    (hdb : w'.db = w.db) (hkept : ∀ c, w.rowLock c = some i → w'.rowLock c = some i)
    (hlock : ∀ row, w.db.agent id = some row → locked = true → w'.rowLock id = some i) :
    LocksCurrent i (s.load w.db id locked).2 w' := by
  have hold : LocksCurrent i s w' := by
    intro c inst hinst
    obtain ⟨hid, hlocked⟩ := hs c inst hinst
    refine ⟨hid, ?_⟩
    intro hl
    obtain ⟨hheld, hrow⟩ := hlocked hl
    exact ⟨hkept c hheld, by rw [hdb, hrow]⟩
  unfold Session.load
  cases hfound : w.db.agent id with
  | none => exact hold
  | some row =>
    intro c inst hinst
    dsimp only at hinst
    rcases eq_or_ne c id with rfl | hne
    · rw [Function.update_self] at hinst
      cases hinst
      refine ⟨(lookup_mem hfound).2, ?_⟩
      intro hl
      exact ⟨hlock row hfound hl, by rw [hdb, hfound]⟩
    · rw [Function.update_of_ne hne] at hinst
      exact hold c inst hinst

/-- What the request itself holds after its step. -/
theorem locksCurrent_own (h : (orchestratorMachine network).step i o s w = some (b, s', w'))
    (hs : LocksCurrent i s w) : LocksCurrent i s' w' := by
  obtain ⟨hperform, -, hw'⟩ := orchestratorMachine_step h
  have hs' : (perform (network i) o s w.db).2.1 = s' := by rw [hperform]
  have hdb : (perform (network i) o s w.db).2.2 = w'.db := by rw [hperform]
  cases o with
  | getAgent id =>
    rw [perform_db _ _ rfl] at hdb
    rw [← hdb] at hw'
    unfold perform at hs'
    dsimp only at hs'
    split at hs'
    · rw [← hs', hw']
      exact hs
    · rw [← hs', hw']
      refine hs.load id false rfl (fun c hc => hc) ?_
      intro row _ hl
      cases hl
  | refreshAgent id =>
    rw [perform_db _ _ rfl] at hdb
    have hfound : (s.load w.db id true).1 = b := congrArg Prod.fst hperform
    change (s.load w.db id true).2 = s' at hs'
    rw [← hs']
    refine hs.load id true hdb.symm ?_ ?_
    · intro c hc
      rw [hw']
      cases b with
      | none => exact hc
      | some row =>
        show Function.update w.rowLock id (some i) c = some i
        rcases eq_or_ne c id with rfl | hne
        · rw [Function.update_self]
        · rw [Function.update_of_ne hne]
          exact hc
    · intro row hrow _
      unfold Session.load at hfound
      rw [hrow] at hfound
      rw [hw', ← hfound]
      exact Function.update_self ..
  | flush =>
    rw [perform_db _ _ rfl] at hdb
    unfold perform at hperform
    dsimp only at hperform
    split at hperform
    · rw [← (Prod.mk.inj (Prod.mk.inj hperform).2).1, hw', ← (Prod.mk.inj hperform).1, ← hdb]
      exact hs
    · rw [← (Prod.mk.inj (Prod.mk.inj hperform).2).1]
      exact hs.rolledBack
  | commit =>
    rcases perform_commit (network i) s w.db with hrefused | ⟨db', -, hcommitted⟩
    · rw [← hs', hrefused]
      exact hs.rolledBack
    · rw [← hs', hcommitted]
      exact hs.committed
  | rollback =>
    rw [← hs']
    exact hs.rolledBack
  | close =>
    rw [← hs']
    exact LocksCurrent.fresh
  | _ =>
    rw [perform_db _ _ rfl] at hdb
    rw [← hs', hw', ← hdb]
    exact hs

theorem locksCurrent_other (h : (orchestratorMachine network).step i o s w = some (b, s', w'))
    (hne : j ≠ i) {t : Session} (ht : LocksCurrent j t w) : LocksCurrent j t w' := by
  intro id inst hinst
  obtain ⟨hid, hlocked⟩ := ht id inst hinst
  refine ⟨hid, ?_⟩
  intro hl
  obtain ⟨hlock, hrow⟩ := hlocked hl
  exact ⟨rowLock_kept h hlock hne, agent_kept h hlock hne hrow⟩

end Machine

/-- A commit deletes rows as they were read, and inserts rows under new ids. -/
def Session.Orderly (s : Session) (db : Db) : Prop := s.DeletesUnchanged db ∧ s.InsertsNew db

/-- The side condition that every step which changes the tables is orderly. -/
def OrderlyCommits (sys : System AgentOp Session World Exc Response) (i : Nat)
    (sys' : System AgentOp Session World Exc Response) : Prop :=
  sys'.world.db ≠ sys.world.db → (sys.sessions i).Orderly sys.world.db

theorem sequenced_preserved (network : Nat → Nat → PostOutcome) (reqs : Nat → Incoming) :
    Preserved (orchestratorMachine network) (fun i => discipline (reqs i)) OrderlyCommits
      fun w ss => Sequenced w.db ∧ ∀ j, LocksCurrent j (ss j) w where
  op := by
    rintro sys i β o k b s' w' - hpre hstep hcond ⟨hsequenced, hlocks⟩
    refine ⟨?_, ?_⟩
    · cases ho : o.isCommit with
      | false =>
        obtain ⟨hperform, -, -⟩ := orchestratorMachine_step hstep
        have hdb := perform_db (network i) sys.world.db ho (s := sys.sessions i)
        rw [hperform] at hdb
        rw [show w'.db = sys.world.db from hdb]
        exact hsequenced
      | true =>
        cases o with
        | commit =>
          obtain ⟨hperform, -, -⟩ := orchestratorMachine_step hstep
          have hcommit := perform_commit (network i) (sys.sessions i) sys.world.db
          rw [hperform] at hcommit
          rcases hcommit with hrefused | ⟨db', hdb', hcommitted⟩
          · rw [(Prod.mk.inj hrefused).2]
            exact hsequenced
          · have hw' : w'.db = db' := (Prod.mk.inj hcommitted).2
            rw [hw']
            by_cases hsame : db' = sys.world.db
            · rw [hsame]
              exact hsequenced
            · obtain ⟨hdeletes, hinserts⟩ := hcond (by rw [hw']; exact hsame)
              refine hsequenced.commit hpre hdb' ?_ ?_ hdeletes hinserts
              · intro id inst hinst hl
                exact ((hlocks i id inst hinst).2 hl).2
              · intro id inst hinst
                exact (hlocks i id inst hinst).1
        | _ => cases ho
    · intro j
      rcases eq_or_ne j i with rfl | hne
      · rw [Function.update_self]
        exact locksCurrent_own hstep (hlocks j)
      · rw [Function.update_of_ne hne]
        exact locksCurrent_other hstep hne (hlocks j)
  crash := by
    rintro w ss i ⟨hsequenced, hlocks⟩
    refine ⟨hsequenced, ?_⟩
    intro j
    rcases eq_or_ne j i with rfl | hne
    · rw [Function.update_self]
      exact LocksCurrent.fresh
    · rw [Function.update_of_ne hne]
      intro id inst hinst
      obtain ⟨hid, hlocked⟩ := hlocks j id inst hinst
      refine ⟨hid, ?_⟩
      intro hl
      obtain ⟨hlock, hrow⟩ := hlocked hl
      exact ⟨World.rowLock_release hlock hne, hrow⟩

theorem empty_sequenced : Sequenced Db.empty := by
  intro a
  refine ⟨0, rfl, ?_⟩
  intro e he
  cases he

/-- What a consumer of the agent's events is given, in commit order. -/
def versionsOf (events : List OutboxEvent) : List (Option Int) :=
  events.map fun e => some (e.aggregateVersion : Int)

/-- A consumer applies events that are numbered `1, …, n`, all of them. -/
theorem NumberedTo.applied {n : Nat} {events : List OutboxEvent} (h : NumberedTo n events) :
    (Outbox.project (versionsOf events)).applied = Outbox.versionsTo n := by
  have hversions : versionsOf events = (Outbox.versionsTo n).map some := by
    unfold versionsOf Outbox.versionsTo
    rw [← h, List.map_map, List.map_map]
    rfl
  rw [hversions]
  suffices hinorder : (Outbox.project ((Outbox.versionsTo n).map some)).InOrder n by
    exact hinorder.applied
  clear h hversions
  induction n with
  | zero => exact ⟨rfl, rfl⟩
  | succ n ih =>
    rw [Outbox.versionsTo_succ, List.map_append, List.map_singleton, Outbox.project_concat]
    have hnext := ih.deliver (some ((n : Int) + 1))
    rw [if_pos rfl] at hnext
    exact hnext

/-- **The events of an agent are in sequence**, in every run whose commits are orderly: they are
    numbered `1, …, n` in commit order, only the last can be a deletion, and a consumer applies every
    one of them. -/
theorem agent_events_in_sequence {network : Nat → Nat → PostOutcome} {reqs : Nat → Incoming}
    {sys : System AgentOp Session World Exc Response}
    (h : (orchestratorMachine network).Reaches OrderlyCommits (orchestrator Db.empty reqs) sys)
    (a : Uuid) :
    ∃ n, NumberedTo n (sys.world.db.agentEvents a) ∧
      NoDeletion (sys.world.db.agentEvents a).dropLast ∧
      (Outbox.project (versionsOf (sys.world.db.agentEvents a))).applied = Outbox.versionsTo n := by
  have hinv := h.preserved (orchestratorMachine_implements reqs) (sequenced_preserved network reqs)
    (orchestrator_disciplined Db.empty reqs)
    ⟨empty_sequenced, fun _ => LocksCurrent.fresh⟩
  have ha := hinv.1 a
  cases hrow : sys.world.db.agent a with
  | none =>
    rw [hrow] at ha
    obtain ⟨n, hnumbered, hspared⟩ := ha
    exact ⟨n, hnumbered, hspared, hnumbered.applied⟩
  | some row =>
    rw [hrow] at ha
    obtain ⟨-, hnumbered, hspared⟩ := ha
    refine ⟨row.version, hnumbered, ?_, hnumbered.applied⟩
    intro e he
    exact hspared e (List.dropLast_subset _ he)

/-! ## Deletions that overlap -/

def sampleEnv (base : Nat) : Env where
  uuid4 n := base + n
  utcnow n := n
  maxFanOut := 16
  registryUrl := "http://localhost:8001"
  internalServiceToken := ""

def sampleCreate (connectorIds : List String) : Incoming :=
  ⟨sampleEnv 0, .createAgent "acme" ⟨"agent", "", connectorIds, by decide, by decide⟩⟩

def sampleDelete (base : Nat) : Incoming := ⟨sampleEnv base, .deleteAgent 0 "acme"⟩

def sampleInvoke (base : Nat) : Incoming :=
  ⟨sampleEnv base, .invokeAgent 0 [] ⟨"alice", "acme", true⟩⟩

/-- An agent is created; request 1 deletes it, request 2 invokes it, request 3 deletes it. -/
def sampleRequests : Nat → Incoming
  | 0 => sampleCreate []
  | 1 => sampleDelete 10
  | 2 => sampleInvoke 20
  | _ => sampleDelete 30

/-- Nobody calls the registry: the agent has no connectors. -/
def noNetwork (_ _ : Nat) : PostOutcome := .raised

/-- The state a schedule of these requests leads to. -/
def sampleRun (turns : List Nat) : System AgentOp Session World Exc Response :=
  (orchestratorMachine noNetwork).schedule turns (orchestrator Db.empty sampleRequests)

/-- What the outbox says of the agent. -/
def sampleEvents (turns : List Nat) : List (String × Nat) :=
  ((sampleRun turns).world.db.agentEvents 0).map fun e => (e.subject, e.aggregateVersion)

def orderly (sys : System AgentOp Session World Exc Response) (i : Nat) : Bool :=
  ((sys.sessions i).doomed.all fun id =>
    match (sys.sessions i).agents id with
    | some inst => (sys.world.db.agent id).map (·.version) = some inst.row.version
    | none => true) &&
  ((sys.sessions i).flushed ++ (sys.sessions i).pending).agents.all fun r =>
    (sys.world.db.agentEvents r.id).isEmpty

theorem orderlyCommits_of_orderly (sys : System AgentOp Session World Exc Response) (i : Nat)
    (sys' : System AgentOp Session World Exc Response) (h : orderly sys i = true) :
    OrderlyCommits sys i sys' := by
  intro _
  simp only [orderly, Bool.and_eq_true, List.all_eq_true] at h
  refine ⟨?_, ?_⟩
  · intro id hid inst hinst
    have hunchanged := h.1 id hid
    rw [hinst] at hunchanged
    simpa using hunchanged
  · intro r hr
    exact List.isEmpty_iff.mp (h.2 r hr)

/-- The agent is created, invoked, then deleted. -/
def oneAfterTheOther : List Nat := List.replicate 5 0 ++ List.replicate 8 2 ++ List.replicate 5 1

/-- The deletion reads the agent, then the invocation runs, then the deletion goes on. -/
def invokedMeanwhile : List Nat :=
  List.replicate 5 0 ++ [1] ++ List.replicate 8 2 ++ List.replicate 4 1

/-- Both deletions read the agent before either commits. -/
def deletedTwice : List Nat := List.replicate 5 0 ++ [1, 3] ++ List.replicate 4 1 ++ List.replicate 4 3

set_option maxRecDepth 10000 in
theorem agent_events_in_sequence_ordered :
    sampleEvents oneAfterTheOther =
        [("agent.created", 1), ("agent.invoked", 2), ("agent.deleted", 3)] ∧
      ∃ n, NumberedTo n ((sampleRun oneAfterTheOther).world.db.agentEvents 0) := by
  refine ⟨by decide +kernel, ?_⟩
  have hreaches := Machine.reaches_scheduleChecked orderlyCommits_of_orderly oneAfterTheOther
    (M := orchestratorMachine noNetwork) (orchestrator Db.empty sampleRequests)
    (by decide +kernel)
  obtain ⟨n, hnumbered, -⟩ := agent_events_in_sequence hreaches 0
  exact ⟨n, hnumbered⟩

set_option maxRecDepth 10000 in
/-- An invocation that commits between the deletion's read and its commit takes the deletion's
    number, and the consumer ignores the deletion; and two deletions can both be recorded. -/
theorem deletion_out_of_sequence :
    (orchestratorMachine noNetwork).Reaches Machine.Any (orchestrator Db.empty sampleRequests)
        (sampleRun invokedMeanwhile) ∧
      sampleEvents invokedMeanwhile =
        [("agent.created", 1), ("agent.invoked", 2), ("agent.deleted", 2)] ∧
      Outbox.versionDecision (some 2) (Outbox.project [some 1, some 2]).lastApplied = .ignore ∧
      (orchestratorMachine noNetwork).Reaches Machine.Any (orchestrator Db.empty sampleRequests)
        (sampleRun deletedTwice) ∧
      sampleEvents deletedTwice =
        [("agent.created", 1), ("agent.deleted", 2), ("agent.deleted", 2)] :=
  ⟨Machine.reaches_schedule _ _, by decide +kernel, by decide, Machine.reaches_schedule _ _,
    by decide +kernel⟩

end FavlGateway.Orchestrator
