/-
  A tenant of the orchestrator might be its only one.

  The tenants share the tables, the row locks, the uncommitted ids and the sequence of events.
  Still no interleaving lets the requests of one tenant observe another's: take the others out of a
  run, and the rest of it is a run, with the same responses, the same agents of the tenant, and the
  same events of them (`tenants_might_be_alone`).

  What carries it is that a session changes what is of its own tenant (`Session.Of`), while the
  table without the rows of the others, and the locks without theirs, are a database and locks
  again on which every operation of the tenant answers what it answered (`Session.Beside.perform`).
  The one assumption is on `uuid4`: no id is drawn for two tenants (`IdsApart`).
-/
import FavlGateway.Library.Projection
import FavlGateway.Orchestrator.Replay

namespace FavlGateway.Orchestrator

open FavlGateway.Library
open FavlGateway.Registry (Uuid OutboxEvent outboxEvent CallerIdentity)

/-! ## Tenants and their agents -/

/-- The tenant a request is served for. -/
def Request.tenantId : Request → String
  | .listAgents tenantId => tenantId
  | .getAgent _ tenantId => tenantId
  | .createAgent tenantId _ => tenantId
  | .deleteAgent _ tenantId => tenantId
  | .invokeAgent _ _ caller => caller.tenantId

/-- The id that a request draws for a new agent. -/
def Incoming.drawn (rq : Incoming) : Option Uuid :=
  match rq.request with
  | .createAgent _ _ => some (rq.env.uuid4 0)
  | _ => none

/-- The id is drawn by a request of the tenant. -/
def DrawnFor (reqs : Nat → Incoming) (tenantId : String) (id : Uuid) : Prop :=
  ∃ i, (reqs i).request.tenantId = tenantId ∧ (reqs i).drawn = some id

/-- No id is drawn for two tenants. -/
def IdsApart (reqs : Nat → Incoming) : Prop :=
  ∀ {T T' : String} {id : Uuid}, DrawnFor reqs T id → DrawnFor reqs T' id → T = T'

/-- Every agent has an id that was drawn for its tenant. -/
def AllDrawn (reqs : Nat → Incoming) (agents : List AgentRecord) : Prop :=
  ∀ r ∈ agents, DrawnFor reqs r.tenantId r.id

/-- A session of tenant `T` has read what it likes, and changes what is of `T`. -/
structure Session.Of (reqs : Nat → Incoming) (T : String) (s : Session) : Prop where
  loaded : ∀ id inst, s.agents id = some inst → DrawnFor reqs inst.row.tenantId id
  assigned : ∀ a ∈ s.assigned, DrawnFor reqs T a.1
  doomed : ∀ id ∈ s.doomed, DrawnFor reqs T id
  agents : ∀ r ∈ (s.flushed ++ s.pending).agents, r.tenantId = T ∧ DrawnFor reqs T r.id
  outbox : ∀ e ∈ (s.flushed ++ s.pending).outbox, ∃ id, e.aggregateId = some id ∧
    DrawnFor reqs T id

/-- Two databases, the second one with the agents of `A` and their events alone. -/
structure DbBeside (reqs : Nat → Incoming) (A : String) (db db₀ : Db) : Prop where
  agents : db₀.agents = db.agents.filter fun r => r.tenantId = A
  events : ∀ id, DrawnFor reqs A id → db₀.agentEvents id = db.agentEvents id

/-- Two sessions of `A`, the second one on such a database. -/
structure Session.Beside (A : String) (s s₀ : Session) : Prop where
  loaded : ∀ id, s₀.agents id = (s.agents id).filter fun inst => inst.row.tenantId = A
  assigned : s₀.assigned = s.assigned
  doomed : s₀.doomed = s.doomed
  pending : s₀.pending = s.pending
  flushed : s₀.flushed = s.flushed
  sent : s₀.sent = s.sent

/-- What an operation of tenant `T` is for. -/
def Confined (reqs : Nat → Incoming) (T : String) : {β : Type} → AgentOp β → Prop
  | _, .refreshAgent id => DrawnFor reqs T id
  | _, .listAgents tenantId => tenantId = T
  | _, .setVersion id _ => DrawnFor reqs T id
  | _, .deleteAgent id => DrawnFor reqs T id
  | _, .addAgent r => r.tenantId = T ∧ DrawnFor reqs T r.id
  | _, .enqueue e => ∃ id, e.aggregateId = some id ∧ DrawnFor reqs T id
  | _, _ => True

/-- What it answers to whoever may only see `A`. -/
def seenBy (A : String) : {β : Type} → AgentOp β → β → β
  | _, .getAgent _, found => found.filter fun r => r.tenantId = A
  | _, _, answer => answer

section Tables

variable {reqs : Nat → Incoming} {A T : String} {s s₀ : Session} {db db₀ : Db} {id : Uuid}
  (network : Nat → PostOutcome)

theorem Session.write_tenantId (s : Session) (row : AgentRecord) :
    (s.write row).tenantId = row.tenantId := by
  unfold Session.write
  split <;> rfl

theorem Session.write_other (h : ∀ a ∈ s.assigned, a.1 ≠ row.id) : s.write row = row := by
  unfold Session.write
  split
  · rename_i a ha
    have hid := (List.find?_eq_some_iff_append.mp ha).1
    exact absurd (of_decide_eq_true hid) (h a (List.mem_of_find?_eq_some ha))
  · rfl

theorem filter_own {row : AgentRecord} (h : row.tenantId = A) :
    (some row).filter (fun r => decide (r.tenantId = A)) = some row :=
  Option.filter_some_pos (decide_eq_true h)

theorem filter_foreign {row : AgentRecord} (h : row.tenantId ≠ A) :
    (some row).filter (fun r => decide (r.tenantId = A)) = none :=
  Option.filter_some_neg (decide_eq_false h)

theorem agent_beside (h : db₀.agents = db.agents.filter fun r => r.tenantId = A) (id : Uuid) :
    db₀.agent id = (db.agent id).filter fun r => r.tenantId = A := by
  unfold Db.agent
  rw [h]
  refine lookup_filter fun r hr r' hr' hid => ?_
  exact eq_of_index db.valid.1 hr hr' (k := .agentId r.id) (by simp [AgentRecord.keys])
    (by simp [AgentRecord.keys, hid])

/-- The rows that a session of `T` would leave are drawn for their tenants. -/
theorem Session.Of.contents (hs : s.Of reqs T) (hdb : AllDrawn reqs db.agents) :
    AllDrawn reqs (s.contents db).agents := by
  intro r hr
  rcases List.mem_append.mp hr with hr | hr
  · obtain ⟨r₀, hr₀, rfl⟩ := List.mem_map.mp hr
    rw [s.write_tenantId, s.write_id]
    exact hdb r₀ (List.mem_filter.mp hr₀).1
  · obtain ⟨htenant, hdrawn⟩ := hs.agents r hr
    rw [htenant]
    exact hdrawn

/-- A row of somebody else's is neither deleted nor updated. -/
theorem Session.Of.spares (hs : s.Of reqs T) (hids : IdsApart reqs) {r : AgentRecord}
    (hr : DrawnFor reqs r.tenantId r.id) (hT : r.tenantId ≠ T) :
    r.id ∉ s.doomed ∧ s.write r = r := by
  refine ⟨fun hmem => hT (hids hr (hs.doomed _ hmem)), Session.write_other fun a ha heq => ?_⟩
  exact hT (hids hr (heq ▸ hs.assigned a ha))

/-- The rows that a session would leave to tenants other than its own are those there are. -/
theorem Session.Of.contents_others (hs : s.Of reqs T) (hids : IdsApart reqs)
    (hdb : AllDrawn reqs db.agents) {p : AgentRecord → Bool}
    (hp : ∀ r r', r.tenantId = r'.tenantId → p r = p r') (hT : ∀ r, p r = true → r.tenantId ≠ T) :
    (s.contents db).agents.filter p = db.agents.filter p := by
  have hnew : (s.flushed ++ s.pending).agents.filter p = [] := by
    refine List.filter_eq_nil_iff.mpr fun r hr => ?_
    exact fun hpr => hT r hpr (hs.agents r hr).1
  show (_ ++ _ : List AgentRecord).filter p = _
  rw [List.filter_append, hnew, List.append_nil, List.filter_map, List.filter_filter]
  have hfilter : (db.agents.filter fun r => (p ∘ s.write) r && decide (r.id ∉ s.doomed)) =
      db.agents.filter p := by
    refine List.filter_congr fun r hr => ?_
    have hpw : p (s.write r) = p r := hp _ _ (s.write_tenantId r)
    simp only [Function.comp, hpw]
    cases hpr : p r with
    | false => rfl
    | true => simp [(hs.spares hids (hdb r hr) (hT r hpr)).1]
  rw [hfilter]
  refine (List.map_congr_left fun r hr => ?_).trans (List.map_id _)
  obtain ⟨hr, hpr⟩ := List.mem_filter.mp hr
  exact (hs.spares hids (hdb r hr) (hT r hpr)).2

theorem Session.Beside.write_eq (h : s.Beside A s₀) (row : AgentRecord) :
    s₀.write row = s.write row := by
  unfold Session.write
  rw [h.assigned]

/-- The rows of `A` that the two sessions would leave are the same. -/
theorem Session.Beside.contents (h : s.Beside A s₀) (hs : s.Of reqs A)
    (hdb : db₀.agents = db.agents.filter fun r => r.tenantId = A) :
    (s₀.contents db₀).agents = (s.contents db).agents.filter fun r => r.tenantId = A := by
  have hnew : (s.flushed ++ s.pending).agents.filter (fun r => decide (r.tenantId = A)) =
      (s.flushed ++ s.pending).agents :=
    List.filter_eq_self.mpr fun r hr => decide_eq_true (hs.agents r hr).1
  show (_ ++ _ : List AgentRecord) = (_ ++ _ : List AgentRecord).filter _
  rw [List.filter_append, hnew, h.pending, h.flushed, hdb, h.doomed, List.filter_map,
    List.filter_filter, List.filter_filter]
  congr 1
  refine (List.map_congr_left fun r _ => h.write_eq r).trans ?_
  congr 1
  refine List.filter_congr fun r _ => ?_
  simp only [Function.comp, s.write_tenantId]
  exact Bool.and_comm _ _

/-- What a session of `A` would leave is what is `A`'s of it, and the rows of the others as they
    are. -/
theorem Session.Beside.contents_perm (h : s.Beside A s₀) (hs : s.Of reqs A) (hids : IdsApart reqs)
    (hdrawn : AllDrawn reqs db.agents)
    (hdb : db₀.agents = db.agents.filter fun r => r.tenantId = A) :
    ((s₀.contents db₀).agents ++ db.agents.filter fun r => !decide (r.tenantId = A)).Perm
      (s.contents db).agents := by
  have hothers : (s.contents db).agents.filter (fun r => !decide (r.tenantId = A)) =
      db.agents.filter fun r => !decide (r.tenantId = A) :=
    hs.contents_others hids hdrawn (fun r r' heq => by rw [heq]) fun r hr => by simpa using hr
  rw [h.contents hs hdb, ← hothers]
  exact List.filter_append_perm (fun r => decide (r.tenantId = A)) (s.contents db).agents

theorem Session.Beside.fits_eq (h : s.Beside A s₀) (hs : s.Of reqs A) (hids : IdsApart reqs)
    (hdrawn : AllDrawn reqs db.agents)
    (hdb : db₀.agents = db.agents.filter fun r => r.tenantId = A) :
    (s₀.contents db₀).fits = (s.contents db).fits := by
  have hfitsDb := db.valid.2
  have hfitsDb₀ := db₀.valid.2
  unfold Rows.fits at hfitsDb hfitsDb₀
  rw [Bool.and_eq_true] at hfitsDb hfitsDb₀
  have hothers : (db.agents.filter fun r => !decide (r.tenantId = A)).all AgentRecord.fits =
      true := by
    rw [List.all_eq_true] at hfitsDb ⊢
    exact fun r hr => hfitsDb.1 r (List.mem_filter.mp hr).1
  have hagents : (s.contents db).agents.all AgentRecord.fits =
      (s₀.contents db₀).agents.all AgentRecord.fits := by
    rw [← (h.contents_perm hs hids hdrawn hdb).all_eq, List.all_append, hothers, Bool.and_true]
  have houtbox : (s₀.contents db₀).outbox.all OutboxEvent.fits =
      (s.contents db).outbox.all OutboxEvent.fits := by
    show (db₀.outbox ++ (s₀.flushed ++ s₀.pending).outbox).all _ =
      (db.outbox ++ (s.flushed ++ s.pending).outbox).all _
    rw [List.all_append, List.all_append, hfitsDb.2, hfitsDb₀.2, h.flushed, h.pending]
  unfold Rows.fits
  rw [hagents, houtbox]

/-- Rows of different tenants share neither an id nor a name. -/
theorem keys_apart (hids : IdsApart reqs) {r r' : AgentRecord} (hr : DrawnFor reqs r.tenantId r.id)
    (hr' : DrawnFor reqs r'.tenantId r'.id) (hT : r.tenantId ≠ r'.tenantId) {k : RowKey}
    (hk : k ∈ r.keys) : k ∉ r'.keys := by
  intro hk'
  simp only [AgentRecord.keys, List.mem_cons, List.not_mem_nil, or_false] at hk hk'
  rcases hk with rfl | rfl <;> rcases hk' with hkey | hkey
  · rw [RowKey.agentId.injEq] at hkey
    rw [hkey] at hr
    exact hT (hids hr hr')
  · cases hkey
  · cases hkey
  · rw [RowKey.agentName.injEq] at hkey
    exact hT hkey.1

theorem Session.Beside.keys_nodup (h : s.Beside A s₀) (hs : s.Of reqs A) (hids : IdsApart reqs)
    (hdrawn : AllDrawn reqs db.agents)
    (hdb : db₀.agents = db.agents.filter fun r => r.tenantId = A) :
    (s₀.contents db₀).keys.Nodup ↔ (s.contents db).keys.Nodup := by
  have hperm := ((h.contents_perm hs hids hdrawn hdb).flatMap_right AgentRecord.keys).nodup_iff
  rw [List.flatMap_append] at hperm
  unfold Rows.keys
  rw [← hperm, List.nodup_append]
  refine ⟨fun hnodup => ⟨hnodup, ?_, ?_⟩, fun hnodup => hnodup.1⟩
  · have hsplit := ((List.filter_append_perm (fun r => decide (r.tenantId = A))
      db.agents).flatMap_right AgentRecord.keys).nodup_iff.mpr db.valid.1
    rw [List.flatMap_append] at hsplit
    exact (List.nodup_append.mp hsplit).2.1
  · intro k hk k' hk' heq
    subst heq
    obtain ⟨r, hr, hrk⟩ := List.mem_flatMap.mp hk
    obtain ⟨r', hr', hrk'⟩ := List.mem_flatMap.mp hk'
    rw [h.contents hs hdb] at hr
    obtain ⟨hr, hrA⟩ := List.mem_filter.mp hr
    obtain ⟨hr', hrA'⟩ := List.mem_filter.mp hr'
    have hA : r.tenantId = A := of_decide_eq_true hrA
    have hA' : r'.tenantId ≠ A := by simpa using hrA'
    have hT : r.tenantId ≠ r'.tenantId := fun heq => hA' (heq.symm.trans hA)
    exact keys_apart hids (hs.contents hdrawn r hr) (hdrawn r' hr') hT hrk hrk'

/-- The constraints hold of the one's rows if they do of the other's. -/
theorem Session.Beside.valid (h : s.Beside A s₀) (hs : s.Of reqs A) (hids : IdsApart reqs)
    (hdrawn : AllDrawn reqs db.agents)
    (hdb : db₀.agents = db.agents.filter fun r => r.tenantId = A) :
    (s₀.contents db₀).Valid ↔ (s.contents db).Valid := by
  unfold Rows.Valid
  rw [h.keys_nodup hs hids hdrawn hdb, h.fits_eq hs hids hdrawn hdb]

/-- An event of somebody else's is none of `A`'s. -/
theorem filter_events_other {events : List OutboxEvent} (hids : IdsApart reqs) (hT : T ≠ A)
    (h : ∀ e ∈ events, ∃ id, e.aggregateId = some id ∧ DrawnFor reqs T id)
    (hid : DrawnFor reqs A id) :
    (events.filter fun e => e.aggregateType = "agent" ∧ e.aggregateId = some id) = [] := by
  refine List.filter_eq_nil_iff.mpr fun e he hmatch => ?_
  obtain ⟨id', hid', hdrawn⟩ := h e he
  have hsame := (of_decide_eq_true hmatch).2
  rw [hid', Option.some.injEq] at hsame
  exact hT (hids (hsame ▸ hdrawn) hid)

/-! ## What one operation does -/

/-- Reading a row keeps a session its tenant's. -/
theorem Session.Of.load (hs : s.Of reqs T) (hdb : AllDrawn reqs db.agents) (id : Uuid)
    (locked : Bool) : (s.load db id locked).2.Of reqs T := by
  unfold Session.load
  cases hrow : db.agent id with
  | none => exact hs
  | some row =>
    refine ⟨fun id' inst hinst => ?_, hs.assigned, hs.doomed, hs.agents, hs.outbox⟩
    dsimp only at hinst
    rcases eq_or_ne id' id with rfl | hne
    · rw [Function.update_self, Option.some.injEq] at hinst
      subst hinst
      obtain ⟨hmem, hid⟩ := lookup_mem hrow
      exact hid ▸ hdb row hmem
    · rw [Function.update_of_ne hne] at hinst
      exact hs.loaded id' inst hinst

theorem Session.Of.rolledBack (hs : s.Of reqs T) : s.rolledBack.Of reqs T where
  loaded id inst hinst := by
    obtain ⟨inst', hinst', rfl⟩ := Option.map_eq_some_iff.mp hinst
    exact hs.loaded id inst' hinst'
  assigned a ha := by cases ha
  doomed a ha := by cases ha
  agents r hr := by cases hr
  outbox e he := by cases he

theorem Session.Of.committed (hs : s.Of reqs T) : s.committed.Of reqs T where
  loaded id inst hinst := by
    unfold Session.committed at hinst
    dsimp only at hinst
    split at hinst
    · cases hinst
    · obtain ⟨inst', hinst', rfl⟩ := Option.map_eq_some_iff.mp hinst
      rw [s.write_tenantId]
      exact hs.loaded id inst' hinst'
  assigned a ha := by cases ha
  doomed a ha := by cases ha
  agents r hr := by cases hr
  outbox e he := by cases he

theorem Session.Of.fresh : Session.fresh.Of reqs T where
  loaded id inst hinst := by cases hinst
  assigned a ha := by cases ha
  doomed a ha := by cases ha
  agents r hr := by cases hr
  outbox e he := by cases he

/-- **A session stays its tenant's**, and every agent stays drawn for its own. -/
theorem Session.Of.perform (hs : s.Of reqs T) (hdb : AllDrawn reqs db.agents) {β : Type}
    {o : AgentOp β} (ho : Confined reqs T o) :
    (perform network o s db).2.1.Of reqs T ∧
      AllDrawn reqs (perform network o s db).2.2.agents := by
  cases o with
  | getAgent id =>
    unfold Orchestrator.perform
    dsimp only
    split
    · exact ⟨hs, hdb⟩
    · exact ⟨hs.load hdb id false, hdb⟩
  | refreshAgent id => exact ⟨hs.load hdb id true, hdb⟩
  | listAgents tenantId => exact ⟨hs, hdb⟩
  | setVersion id version =>
    refine ⟨⟨hs.loaded, fun a ha => ?_, hs.doomed, hs.agents, hs.outbox⟩, hdb⟩
    rcases List.mem_append.mp ha with ha | ha
    · exact hs.assigned a ha
    · rw [List.mem_singleton.mp ha]
      exact ho
  | deleteAgent id =>
    refine ⟨⟨hs.loaded, hs.assigned, fun a ha => ?_, hs.agents, hs.outbox⟩, hdb⟩
    rcases List.mem_append.mp ha with ha | ha
    · exact hs.doomed a ha
    · rw [List.mem_singleton.mp ha]
      exact ho
  | addAgent r =>
    refine ⟨⟨hs.loaded, hs.assigned, hs.doomed, fun r' hr' => ?_, fun e he => ?_⟩, hdb⟩
    · simp only [Orchestrator.perform, Rows.append_agents, ← List.append_assoc] at hr'
      rcases List.mem_append.mp hr' with hr' | hr'
      · exact hs.agents r' hr'
      · rw [List.mem_singleton.mp hr']
        exact ho
    · simp only [Orchestrator.perform, Rows.append_outbox, List.append_nil] at he
      exact hs.outbox e he
  | enqueue e =>
    refine ⟨⟨hs.loaded, hs.assigned, hs.doomed, fun r hr => ?_, fun e' he' => ?_⟩, hdb⟩
    · simp only [Orchestrator.perform, Rows.append_agents, List.append_nil] at hr
      exact hs.agents r hr
    · simp only [Orchestrator.perform, Rows.append_outbox, ← List.append_assoc] at he'
      rcases List.mem_append.mp he' with he' | he'
      · exact hs.outbox e' he'
      · rw [List.mem_singleton.mp he']
        exact ho
  | flush =>
    unfold Orchestrator.perform
    dsimp only
    split
    · refine ⟨⟨hs.loaded, hs.assigned, hs.doomed, fun r hr => ?_, fun e he => ?_⟩, hdb⟩
      · exact hs.agents r (by simpa using hr)
      · exact hs.outbox e (by simpa using he)
    · exact ⟨hs.rolledBack, hdb⟩
  | commit =>
    unfold Orchestrator.perform
    dsimp only
    split
    · exact ⟨hs.rolledBack, hdb⟩
    · split
      · exact ⟨hs.committed, hs.contents hdb⟩
      · exact ⟨hs.rolledBack, hdb⟩
  | rollback => exact ⟨hs.rolledBack, hdb⟩
  | close => exact ⟨.fresh, hdb⟩
  | post p => exact ⟨⟨hs.loaded, hs.assigned, hs.doomed, hs.agents, hs.outbox⟩, hdb⟩

/-- **What others do `A` does not notice.** -/
theorem DbBeside.other (h : DbBeside reqs A db db₀) (hids : IdsApart reqs) (hT : T ≠ A)
    (hs : s.Of reqs T) (hdb : AllDrawn reqs db.agents) {β : Type} (o : AgentOp β) :
    DbBeside reqs A (perform network o s db).2.2 db₀ := by
  cases o with
  | getAgent id =>
    unfold Orchestrator.perform
    dsimp only
    split <;> exact h
  | flush =>
    unfold Orchestrator.perform
    dsimp only
    split <;> exact h
  | commit =>
    unfold Orchestrator.perform
    dsimp only
    split
    · exact h
    · split
      · refine ⟨h.agents.trans ?_, fun id hid => (h.events id hid).trans ?_⟩
        · refine (hs.contents_others hids hdb (fun r r' heq => by rw [heq]) fun r hr => ?_).symm
          rw [of_decide_eq_true hr]
          exact hT.symm
        · show _ = (db.outbox ++ (s.flushed ++ s.pending).outbox).filter _
          rw [List.filter_append, filter_events_other hids hT hs.outbox hid, List.append_nil]
          rfl
      · exact h
  | _ => exact h

theorem Session.Beside.rolledBack (h : s.Beside A s₀) : s.rolledBack.Beside A s₀.rolledBack where
  loaded id := by
    show (s₀.agents id).map Instance.expire = ((s.agents id).map Instance.expire).filter _
    rw [h.loaded]
    cases s.agents id with
    | none => rfl
    | some inst => by_cases hA : inst.row.tenantId = A <;> simp [Option.filter, Instance.expire, hA]
  assigned := rfl
  doomed := rfl
  pending := rfl
  flushed := rfl
  sent := h.sent

theorem Session.Beside.committed (h : s.Beside A s₀) : s.committed.Beside A s₀.committed where
  loaded id := by
    unfold Session.committed
    dsimp only
    rw [h.doomed, h.loaded]
    split
    · rfl
    · cases s.agents id with
      | none => rfl
      | some inst =>
        by_cases hA : inst.row.tenantId = A <;>
          simp [Option.filter, h.write_eq, s.write_tenantId, hA]
  assigned := rfl
  doomed := rfl
  pending := rfl
  flushed := rfl
  sent := h.sent

/-- A row of `A`'s is read alike. -/
theorem Session.Beside.load (h : s.Beside A s₀) (hs : s.Of reqs T) (hids : IdsApart reqs)
    (hdrawn : AllDrawn reqs db.agents)
    (hdb : db₀.agents = db.agents.filter fun r => r.tenantId = A) (id : Uuid) (locked : Bool) :
    (s.load db id locked).1.filter (fun r => r.tenantId = A) = (s₀.load db₀ id locked).1 ∧
      (s.load db id locked).2.Beside A (s₀.load db₀ id locked).2 := by
  unfold Session.load
  rw [agent_beside hdb]
  cases hrow : db.agent id with
  | none => exact ⟨rfl, h⟩
  | some row =>
    obtain ⟨hmem, hid⟩ := lookup_mem hrow
    by_cases hA : row.tenantId = A
    · rw [filter_own hA]
      refine ⟨rfl, ?_, h.assigned, h.doomed, h.pending, h.flushed, h.sent⟩
      intro id'
      dsimp only
      rcases eq_or_ne id' id with rfl | hne
      · simp [Option.filter, hA]
      · simp only [Function.update_of_ne hne]
        exact h.loaded id'
    · rw [filter_foreign hA]
      refine ⟨rfl, ?_, h.assigned, h.doomed, h.pending, h.flushed, h.sent⟩
      intro id'
      dsimp only
      rcases eq_or_ne id' id with rfl | hne
      · rw [h.loaded, Function.update_self]
        -- what was read before under this id was not `A`'s either
        cases hinst : s.agents id' with
        | none => simp [Option.filter, hA]
        | some inst =>
          have hsame := hids (hs.loaded id' inst hinst) (hid ▸ hdrawn row hmem)
          simp [Option.filter, hsame, hA]
      · rw [Function.update_of_ne hne]
        exact h.loaded id'

theorem Session.held_loaded (s : Session) {row : AgentRecord} (h : s.held id = some row) :
    ∃ inst, s.agents id = some inst ∧ inst.row = row := by
  unfold Session.held at h
  split at h
  · rename_i inst hinst
    split at h
    · cases h
    · exact ⟨inst, hinst, Option.some.inj h⟩
  · cases h

/-- What can be read without a query. -/
theorem Session.Beside.held (h : s.Beside A s₀) (id : Uuid) :
    s₀.held id = (s.held id).filter fun r => r.tenantId = A := by
  unfold Session.held
  rw [h.loaded]
  cases s.agents id with
  | none => rfl
  | some inst =>
    by_cases hA : inst.row.tenantId = A
    · rw [Option.filter_some_pos (by simpa using hA)]
      dsimp only
      split <;> simp [Option.filter, hA]
    · rw [Option.filter_some_neg (by simpa using hA)]
      dsimp only
      split <;> simp [Option.filter, hA]

theorem Session.Beside.refusal (h : s.Beside A s₀) (hs : s.Of reqs A) (hids : IdsApart reqs)
    (hdrawn : AllDrawn reqs db.agents) (hdb : DbBeside reqs A db db₀) :
    (s₀.contents db₀).refusal = (s.contents db).refusal := by
  unfold Rows.refusal
  rw [h.fits_eq hs hids hdrawn hdb.agents]

/-- What `A` has assigned is as stale alone as among the others. -/
theorem Session.Beside.stale (h : s.Beside A s₀) (hs : s.Of reqs A) (hids : IdsApart reqs)
    (hdrawn : AllDrawn reqs db.agents) (hdb : DbBeside reqs A db db₀) :
    s₀.stale db₀ = s.stale db := by
  unfold Session.stale
  rw [h.assigned, Bool.eq_iff_iff, List.any_eq_true, List.any_eq_true]
  refine exists_congr fun a => and_congr_right fun ha => ?_
  rw [agent_beside hdb.agents]
  cases hrow : db.agent a.1 with
  | none => rfl
  | some row =>
    obtain ⟨hmem, hid⟩ := lookup_mem hrow
    have hA : row.tenantId = A := hids (hid ▸ hdrawn row hmem) (hs.assigned a ha)
    simp [Option.filter, hA]

/-- The operation does alone what it does among the others, and is answered what `A` may see. -/
def DoneAlone (reqs : Nat → Incoming) (network : Nat → PostOutcome) (A : String) {β : Type}
    (o : AgentOp β) (s s₀ : Session) (db db₀ : Db) : Prop :=
  seenBy A o (perform network o s db).1 = (perform network o s₀ db₀).1 ∧
    (perform network o s db).2.1.Beside A (perform network o s₀ db₀).2.1 ∧
    DbBeside reqs A (perform network o s db).2.2 (perform network o s₀ db₀).2.2

/-- A look at the identity map, or a query. -/
theorem Session.Beside.getAgent (h : s.Beside A s₀) (hs : s.Of reqs A) (hids : IdsApart reqs)
    (hdrawn : AllDrawn reqs db.agents) (hdb : DbBeside reqs A db db₀) (id : Uuid) :
    DoneAlone reqs network A (.getAgent id) s s₀ db db₀ := by
  unfold DoneAlone
  have hheld := h.held id
  have hload := h.load hs hids hdrawn hdb.agents id false
  cases hrow : s.held id with
  | some row =>
    rw [hrow] at hheld
    by_cases hA : row.tenantId = A
    · rw [filter_own hA] at hheld
      simp only [Orchestrator.perform, hrow, hheld]
      exact ⟨filter_own hA, h, hdb⟩
    · rw [filter_foreign hA] at hheld
      have hnone : db₀.agent id = none := by
        rw [agent_beside hdb.agents]
        cases hstored : db.agent id with
        | none => rfl
        | some stored =>
          -- what is stored under this id is of the tenant that it was read as
          obtain ⟨hmem, hid⟩ := lookup_mem hstored
          obtain ⟨inst, hinst, rfl⟩ := s.held_loaded hrow
          have hsame := hids (hs.loaded id inst hinst) (hid ▸ hdrawn stored hmem)
          simp [Option.filter, ← hsame, hA]
      simp only [Orchestrator.perform, hrow, hheld, Session.load, hnone]
      exact ⟨filter_foreign hA, h, hdb⟩
  | none =>
    rw [hrow] at hheld
    simp only [Orchestrator.perform, hrow, hheld, Option.filter_none]
    exact ⟨hload.1, hload.2, hdb⟩

/-- A query for a row of `A`'s. -/
theorem Session.Beside.refreshAgent (h : s.Beside A s₀) (hs : s.Of reqs A) (hids : IdsApart reqs)
    (hdrawn : AllDrawn reqs db.agents) (hdb : DbBeside reqs A db db₀) {id : Uuid}
    (ho : Confined reqs A (.refreshAgent id)) :
    DoneAlone reqs network A (.refreshAgent id) s s₀ db db₀ := by
  have hload := h.load hs hids hdrawn hdb.agents id true
  refine ⟨?_, hload.2, hdb⟩
  refine Eq.trans ?_ hload.1
  show (s.load db id true).1 = _
  unfold Session.load
  cases hrow : db.agent id with
  | none => rfl
  | some row =>
    obtain ⟨hmem, hid⟩ := lookup_mem hrow
    have hA : row.tenantId = A := hids (hid ▸ hdrawn row hmem) ho
    simp [Option.filter, hA]

theorem Session.Beside.commit (h : s.Beside A s₀) (hs : s.Of reqs A) (hids : IdsApart reqs)
    (hdrawn : AllDrawn reqs db.agents) (hdb : DbBeside reqs A db db₀) :
    DoneAlone reqs network A .commit s s₀ db db₀ := by
  unfold DoneAlone
  have hvalid := h.valid hs hids hdrawn hdb.agents
  have hrefusal := h.refusal hs hids hdrawn hdb
  have hstale := h.stale hs hids hdrawn hdb
  cases hst : s.stale db with
  | true =>
    rw [hst] at hstale
    simp only [Orchestrator.perform, hst, hstale, if_true]
    exact ⟨rfl, h.rolledBack, hdb⟩
  | false =>
    rw [hst] at hstale
    by_cases hv : (s.contents db).Valid
    · simp only [Orchestrator.perform, hst, hstale, dif_pos hv, dif_pos (hvalid.mpr hv)]
      refine ⟨rfl, h.committed, h.contents hs hdb.agents, fun id hid => ?_⟩
      show (db₀.outbox ++ (s₀.flushed ++ s₀.pending).outbox).filter _ =
        (db.outbox ++ (s.flushed ++ s.pending).outbox).filter _
      rw [List.filter_append, List.filter_append, h.flushed, h.pending]
      exact congrArg (· ++ _) (hdb.events id hid)
    · simp only [Orchestrator.perform, hst, hstale, dif_neg hv,
        dif_neg (fun hv₀ => hv (hvalid.mp hv₀)), hrefusal]
      exact ⟨rfl, h.rolledBack, hdb⟩

/-- **`A` can do the same alone**, and is answered what it may see. -/
theorem Session.Beside.perform (h : s.Beside A s₀) (hs : s.Of reqs A) (hids : IdsApart reqs)
    (hdrawn : AllDrawn reqs db.agents) (hdb : DbBeside reqs A db db₀) {β : Type} {o : AgentOp β}
    (ho : Confined reqs A o) :
    seenBy A o (perform network o s db).1 = (perform network o s₀ db₀).1 ∧
      (perform network o s db).2.1.Beside A (perform network o s₀ db₀).2.1 ∧
      DbBeside reqs A (perform network o s db).2.2 (perform network o s₀ db₀).2.2 := by
  have hvalid := h.valid hs hids hdrawn hdb.agents
  have hrefusal := h.refusal hs hids hdrawn hdb
  cases o with
  | getAgent id => exact h.getAgent network hs hids hdrawn hdb id
  | refreshAgent id => exact h.refreshAgent network hs hids hdrawn hdb ho
  | listAgents tenantId =>
    obtain rfl : tenantId = A := ho
    refine ⟨?_, h, hdb⟩
    show agentListing db tenantId = agentListing db₀ tenantId
    unfold agentListing
    rw [hdb.agents, List.filter_filter]
    simp
  | setVersion id version =>
    exact ⟨rfl, ⟨h.loaded, by simp [Orchestrator.perform, h.assigned], h.doomed, h.pending,
      h.flushed, h.sent⟩, hdb⟩
  | deleteAgent id =>
    exact ⟨rfl, ⟨h.loaded, h.assigned, by simp [Orchestrator.perform, h.doomed], h.pending,
      h.flushed, h.sent⟩, hdb⟩
  | addAgent r =>
    exact ⟨rfl, ⟨h.loaded, h.assigned, h.doomed, by simp [Orchestrator.perform, h.pending],
      h.flushed, h.sent⟩, hdb⟩
  | enqueue e =>
    exact ⟨rfl, ⟨h.loaded, h.assigned, h.doomed, by simp [Orchestrator.perform, h.pending],
      h.flushed, h.sent⟩, hdb⟩
  | flush =>
    by_cases hv : (s.contents db).Valid
    · simp only [Orchestrator.perform, if_pos hv, if_pos (hvalid.mpr hv)]
      exact ⟨rfl, ⟨h.loaded, h.assigned, h.doomed, rfl, by simp [h.flushed, h.pending], h.sent⟩,
        hdb⟩
    · simp only [Orchestrator.perform, if_neg hv, if_neg (fun hv₀ => hv (hvalid.mp hv₀)), hrefusal]
      exact ⟨rfl, h.rolledBack, hdb⟩
  | commit => exact h.commit network hs hids hdrawn hdb
  | rollback => exact ⟨rfl, h.rolledBack, hdb⟩
  | close => exact ⟨rfl, ⟨fun _ => rfl, rfl, rfl, rfl, rfl, rfl⟩, hdb⟩
  | post p =>
    exact ⟨by simp [Orchestrator.perform, seenBy, h.sent], ⟨h.loaded, h.assigned, h.doomed,
      h.pending, h.flushed, by simp [Orchestrator.perform, h.sent]⟩, hdb⟩

end Tables

/-! ## Locks -/

/-- The locks of `mine`, and no others. -/
structure LocksOf (mine : Nat → Bool) (w w₀ : World) : Prop where
  rowLock : ∀ id, w₀.rowLock id = (w.rowLock id).filter mine
  keyLock : ∀ k, w₀.keyLock k = (w.keyLock k).filter mine

section Locks

variable {mine : Nat → Bool} {i : Nat} {w w₀ : World} {s s₀ : Session} {A : String} {db db₀ : Db}
  {lock : Option Nat}

/-- Nobody waits for a lock that is not there. -/
theorem heldByOther_filter (h : heldByOther i lock = false) :
    heldByOther i (lock.filter mine) = false := by
  cases lock with
  | none => rfl
  | some j => cases hj : mine j <;> simp [Option.filter, hj, heldByOther] at h ⊢; exact h

theorem filter_release_own (hi : mine i = true) :
    (if lock = some i then none else lock).filter mine =
      if lock.filter mine = some i then none else lock.filter mine := by
  cases lock with
  | none => rfl
  | some j =>
    rcases eq_or_ne j i with rfl | hne
    · simp [Option.filter, hi]
    · cases hj : mine j <;> simp [Option.filter, hj, hne]

theorem filter_release_other (hi : mine i = false) :
    (if lock = some i then none else lock).filter mine = lock.filter mine := by
  split
  · rename_i hlock
    rw [hlock]
    simp [Option.filter, hi]
  · rfl

/-- A lock that one of the others takes was held by none of `mine`. -/
theorem filter_taken (hi : mine i = false) (hfree : heldByOther i lock = false) :
    (some i).filter mine = lock.filter mine := by
  have htaken : (some i).filter mine = none := by simp [Option.filter, hi]
  rw [htaken]
  cases lock with
  | none => rfl
  | some j =>
    obtain rfl : j = i := by simpa [heldByOther] using hfree
    exact htaken.symm

theorem LocksOf.withDb (h : LocksOf mine w w₀) :
    LocksOf mine { w with db := db } { w₀ with db := db₀ } := ⟨h.rowLock, h.keyLock⟩

theorem LocksOf.release (h : LocksOf mine w w₀) (hi : mine i = true) :
    LocksOf mine (w.release i) (w₀.release i) where
  rowLock id := by
    show (if w₀.rowLock id = some i then none else w₀.rowLock id) = _
    rw [h.rowLock]
    exact (filter_release_own hi).symm
  keyLock k := by
    show (if w₀.keyLock k = some i then none else w₀.keyLock k) = _
    rw [h.keyLock]
    exact (filter_release_own hi).symm

theorem LocksOf.release_other (h : LocksOf mine w w₀) (hi : mine i = false) :
    LocksOf mine (w.release i) w₀ where
  rowLock id := (h.rowLock id).trans (filter_release_other hi).symm
  keyLock k := (h.keyLock k).trans (filter_release_other hi).symm

/-- What is not blocked among the others is not blocked alone. -/
theorem LocksOf.unblocked (h : LocksOf mine w w₀) (hs : s.Beside A s₀) {β : Type} {o : AgentOp β}
    (hfree : blocked i o s w = false) : blocked i o s₀ w₀ = false := by
  cases o with
  | refreshAgent id =>
    show heldByOther i (w₀.rowLock id) = false
    rw [h.rowLock]
    exact heldByOther_filter hfree
  | flush =>
    simp only [blocked, hs.pending, List.any_eq_false, h.keyLock, Bool.not_eq_true] at hfree ⊢
    exact fun k hk => heldByOther_filter (hfree k hk)
  | commit =>
    simp only [blocked, hs.pending, hs.assigned, hs.doomed, Bool.or_eq_false_iff,
      List.any_eq_false, h.keyLock, h.rowLock, Bool.not_eq_true] at hfree ⊢
    obtain ⟨⟨hkeys, hassigned⟩, hdoomed⟩ := hfree
    exact ⟨⟨fun k hk => heldByOther_filter (hkeys k hk),
      fun a ha => heldByOther_filter (hassigned a ha)⟩,
      fun id hid => heldByOther_filter (hdoomed id hid)⟩
  | _ => rfl

theorem LocksOf.relock (h : LocksOf mine w w₀) (hi : mine i = true) (hs : s.Beside A s₀)
    {β : Type} (o : AgentOp β) (b : β) :
    LocksOf mine (World.relock i w o b s) (World.relock i w₀ o (seenBy A o b) s₀) := by
  have htake : (some i).filter mine = some i := by simp [Option.filter, hi]
  cases o with
  | refreshAgent id =>
    cases b with
    | none => exact h
    | some row =>
      refine ⟨fun id' => ?_, h.keyLock⟩
      show Function.update w₀.rowLock id (some i) id' =
        (Function.update w.rowLock id (some i) id').filter mine
      rcases eq_or_ne id' id with rfl | hne
      · rw [Function.update_self, Function.update_self]
        exact htake.symm
      · rw [Function.update_of_ne hne, Function.update_of_ne hne]
        exact h.rowLock id'
  | flush =>
    cases b with
    | ok u =>
      refine ⟨h.rowLock, fun k => ?_⟩
      show (if k ∈ s₀.pending.keys then some i else w₀.keyLock k) =
        (if k ∈ s.pending.keys then some i else w.keyLock k).filter mine
      rw [hs.pending]
      split
      · exact htake.symm
      · exact h.keyLock k
    | error e => exact h.release hi
  | commit => cases b <;> exact h.release hi
  | rollback => exact h.release hi
  | close => exact h.release hi
  | _ => exact h

theorem LocksOf.relock_other (h : LocksOf mine w w₀) (hi : mine i = false) {β : Type}
    {o : AgentOp β} (hfree : blocked i o s w = false) (b : β) :
    LocksOf mine (World.relock i { w with db := db } o b s) w₀ := by
  have h' : LocksOf mine { w with db := db } w₀ := ⟨h.rowLock, h.keyLock⟩
  cases o with
  | refreshAgent id =>
    cases b with
    | none => exact h'
    | some row =>
      refine ⟨fun id' => ?_, h.keyLock⟩
      show _ = (Function.update w.rowLock id (some i) id').filter mine
      rcases eq_or_ne id' id with rfl | hne
      · rw [Function.update_self, filter_taken hi hfree]
        exact h.rowLock id'
      · rw [Function.update_of_ne hne]
        exact h.rowLock id'
  | flush =>
    cases b with
    | ok u =>
      simp only [blocked, List.any_eq_false, Bool.not_eq_true] at hfree
      refine ⟨h.rowLock, fun k => ?_⟩
      show _ = (if k ∈ s.pending.keys then some i else w.keyLock k).filter mine
      split
      · rename_i hk
        rw [filter_taken hi (hfree k hk)]
        exact h.keyLock k
      · exact h.keyLock k
    | error e => exact h'.release_other hi
  | commit => cases b <;> exact h'.release_other hi
  | rollback => exact h'.release_other hi
  | close => exact h'.release_other hi
  | _ => exact h'

end Locks

/-! ## The handlers -/

/-- What a handler may rely on: it is told of agents that were drawn for their tenants. -/
def AnswersDrawn (reqs : Nat → Incoming) : {β : Type} → AgentOp β → β → Prop
  | _, .getAgent id, found => ∀ row, found = some row → DrawnFor reqs row.tenantId id
  | _, _, _ => True

/-- A request works on what is its tenant's. -/
def confinement (reqs : Nat → Incoming) (T : String) : Discipline AgentOp Session where
  pre o _ := Confined reqs T o
  eff o _ b _ := AnswersDrawn reqs o b

section Handlers

variable {reqs : Nat → Incoming} {T A : String} {α : Type} {env : Env} {s : Session}

/-- An agent that a handler goes on with is its tenant's. -/
theorem tenantAgent_confined {Q : Except Exc α → Session → Prop} {agentId : Uuid}
    {k : AgentRecord → Handler α} (hnone : ∀ s', Q (.error agentNotFound) s')
    (hsome : DrawnFor reqs T agentId → ∀ record s', (k record).Obeys (confinement reqs T) Q s') :
    (tenantAgent agentId T >>= k).Obeys (confinement reqs T) Q s := by
  unfold tenantAgent await
  simp only [Prog.perform_bind, Prog.op_bind]
  refine ⟨trivial, ?_⟩
  intro found s' hdrawn
  dsimp only
  cases hfilter : found.filter (·.tenantId = T) with
  | none => exact hnone s'
  | some record =>
    obtain ⟨hfound, htenant⟩ := Option.filter_eq_some_iff.mp hfilter
    have hT : record.tenantId = T := of_decide_eq_true htenant
    exact hsome (hT ▸ hdrawn record hfound) record s'

theorem commit_confined {Q : Except Exc Response → Session → Prop} {response : Response}
    (hQ : ∀ r s', Q r s') :
    (commit >>= fun _ => Prog.ret response).Obeys (confinement reqs T) Q s := by
  unfold commit await
  simp only [Prog.perform_bind]
  refine ⟨trivial, ?_⟩
  intro answer s' _
  cases answer with
  | ok u => exact hQ _ _
  | error e => exact hQ _ _

theorem fanOut_confined {Q : Except Exc α → Session → Prop} {agentId : Uuid}
    {payload : Dict String} {tenantId : String} {k : List (Dict String) → Handler α}
    (hraise : ∀ e s', Q (.error e) s')
    (hk : ∀ outputs s', (k outputs).Obeys (confinement reqs T) Q s')
    (connectorIds : List String) :
    (fanOut env agentId payload tenantId connectorIds >>= k).Obeys (confinement reqs T) Q s := by
  induction connectorIds generalizing s k with
  | nil => exact hk [] s
  | cons connectorId rest ih =>
    unfold fanOut
    simp only [await, Prog.perform_bind, Prog.op_bind]
    refine ⟨trivial, ?_⟩
    intro answer s' _
    dsimp only
    cases hentry : fanOutEntry connectorId answer with
    | error e => exact hraise e _
    | ok entry =>
      dsimp only
      rw [Prog.bind_assoc']
      exact ih fun outputs s' => hk _ s'

/-- **Every handler works on what is its tenant's.** -/
theorem handler_confined (i : Nat) :
    (handler (reqs i).env (reqs i).request).Obeys (confinement reqs (reqs i).request.tenantId)
      (fun _ _ => True) s := by
  have hdrawn : ∀ id, (reqs i).drawn = some id → DrawnFor reqs (reqs i).request.tenantId id :=
    fun id hid => ⟨i, rfl, hid⟩
  unfold Incoming.drawn at hdrawn
  cases hrequest : (reqs i).request with
  | listAgents tenantId => exact ⟨rfl, fun _ _ _ => trivial⟩
  | getAgent agentId tenantId =>
    exact tenantAgent_confined (fun _ => trivial) fun _ _ _ => trivial
  | createAgent tenantId payload =>
    rw [hrequest] at hdrawn
    have hid := hdrawn _ rfl
    simp only [handler, createAgent, await, Prog.perform_bind, Prog.pure_eq]
    refine ⟨⟨rfl, hid⟩, fun _ _ _ => ⟨trivial, ?_⟩⟩
    intro answer s' _
    cases answer with
    | ok u => exact ⟨⟨_, rfl, hid⟩, fun _ _ _ => commit_confined fun _ _ => trivial⟩
    | error e =>
      cases e with
      | integrity => exact ⟨trivial, fun _ _ _ => trivial⟩
      | data => trivial
      | stale => trivial
  | deleteAgent agentId tenantId =>
    refine tenantAgent_confined (fun _ => trivial) ?_
    intro hid record s'
    simp only [await, Prog.perform_bind, Prog.pure_eq]
    exact ⟨hid, fun _ _ _ => ⟨⟨_, rfl, hid⟩, fun _ _ _ => commit_confined fun _ _ => trivial⟩⟩
  | invokeAgent agentId payload caller =>
    refine tenantAgent_confined (fun _ => trivial) ?_
    intro hid record s'
    split
    · trivial
    · simp only [await, Prog.perform_bind, Prog.pure_eq]
      refine ⟨trivial, fun _ _ _ => fanOut_confined (fun _ _ => trivial) ?_ _⟩
      intro outputs s₂
      refine tenantAgent_confined (fun _ => trivial) ?_
      intro _ fresh s₃
      refine ⟨hid, ?_⟩
      intro found s₄ _
      cases found with
      | none => trivial
      | some row =>
        refine ⟨hid, fun _ _ _ => ⟨⟨_, rfl, hid⟩, fun _ _ _ => ?_⟩⟩
        exact commit_confined fun _ _ => trivial

theorem serveIn_confined (i : Nat) :
    (serveIn (handler (reqs i).env (reqs i).request)).Obeys
      (confinement reqs (reqs i).request.tenantId) (fun _ _ => True) s := by
  refine Prog.Obeys.tryCatch (Prog.Obeys.finallyDo ((handler_confined i).mono ?_))
  intro r s _
  refine ⟨trivial, ?_⟩
  intro s' _
  cases r with
  | ok response => trivial
  | error e => trivial

/-- Of an agent of somebody else's a handler sees nothing. -/
theorem tenantAgent_seesOnly {agentId : Uuid} {k : AgentRecord → Handler α}
    (hk : ∀ record, (k record).SeesOnly (seenBy A)) :
    (tenantAgent agentId A >>= k).SeesOnly (seenBy A) := by
  unfold tenantAgent await
  rw [Prog.bind_assoc']
  refine .perform_view (fun found => ?_) fun found => ?_
  · simp [seenBy, Option.filter_filter]
  · cases found.filter (·.tenantId = A) with
    | none => exact .raise _
    | some record => exact hk record

theorem commit_seesOnly {response : Response} :
    (commit >>= fun _ => Prog.ret response).SeesOnly (seenBy A) := by
  unfold commit await
  rw [Prog.bind_assoc']
  refine .perform (fun _ => rfl) fun answer => ?_
  cases answer with
  | ok u => exact .ret _
  | error e => exact .raise _

theorem fanOut_seesOnly {agentId : Uuid} {payload : Dict String} {tenantId : String}
    (connectorIds : List String) :
    (fanOut env agentId payload tenantId connectorIds).SeesOnly (seenBy A) := by
  induction connectorIds with
  | nil => exact .ret _
  | cons connectorId rest ih =>
    unfold fanOut await
    refine .perform (fun _ => rfl) fun answer => ?_
    cases fanOutEntry connectorId answer with
    | error e => exact .raise _
    | ok entry => exact .bind ih fun _ => .ret _

/-- **Every handler sees only what is its tenant's.** -/
theorem handler_seesOnly (request : Request) :
    (handler env request).SeesOnly (seenBy request.tenantId) := by
  cases request with
  | listAgents tenantId => exact .perform (fun _ => rfl) fun _ => .ret _
  | getAgent agentId tenantId => exact tenantAgent_seesOnly fun _ => .ret _
  | createAgent tenantId payload =>
    refine .perform (fun _ => rfl) fun _ => .perform (fun _ => rfl) fun answer => ?_
    cases answer with
    | ok u => exact .perform (fun _ => rfl) fun _ => commit_seesOnly
    | error e =>
      cases e with
      | integrity => exact .perform (fun _ => rfl) fun _ => .raise _
      | data => exact .raise _
      | stale => exact .raise _
  | deleteAgent agentId tenantId =>
    exact tenantAgent_seesOnly fun _ => .perform (fun _ => rfl) fun _ =>
      .perform (fun _ => rfl) fun _ => commit_seesOnly
  | invokeAgent agentId payload caller =>
    refine tenantAgent_seesOnly fun record => ?_
    split
    · exact .raise _
    · refine .perform (fun _ => rfl) fun _ => .bind (fanOut_seesOnly _) fun outputs => ?_
      refine tenantAgent_seesOnly fun _ => .perform (fun _ => rfl) fun found => ?_
      cases found with
      | none => exact .raise _
      | some row =>
        exact .perform (fun _ => rfl) fun _ => .perform (fun _ => rfl) fun _ => commit_seesOnly

theorem serveIn_seesOnly (request : Request) :
    (serveIn (handler env request)).SeesOnly (seenBy request.tenantId) :=
  .tryCatch (.finallyDo (handler_seesOnly request)) fun _ => .ret _

end Handlers

/-! ## Among the others, and alone -/

/-- The orchestrator, and the part of it that is `A`'s. -/
structure Beside (reqs : Nat → Incoming) (A : String) (w : World) (ss : Nat → Session) (w₀ : World)
    (ss₀ : Nat → Session) : Prop where
  drawn : AllDrawn reqs w.db.agents
  own : ∀ i, (ss i).Of reqs (reqs i).request.tenantId
  db : DbBeside reqs A w.db w₀.db
  locks : LocksOf (fun i => (reqs i).request.tenantId = A) w w₀
  sessions : ∀ i, (reqs i).request.tenantId = A → (ss i).Beside A (ss₀ i)

section Runs

variable {network : Nat → Nat → PostOutcome} {reqs : Nat → Incoming} {A : String}

theorem own_update {ss : Nat → Session} {i : Nat} {s' : Session}
    (h : ∀ j, (ss j).Of reqs (reqs j).request.tenantId)
    (hs' : s'.Of reqs (reqs i).request.tenantId) (j : Nat) :
    (Function.update ss i s' j).Of reqs (reqs j).request.tenantId := by
  rcases eq_or_ne j i with rfl | hne
  · rwa [Function.update_self]
  · rw [Function.update_of_ne hne]
    exact h j

theorem sessions_update {ss ss₀ : Nat → Session} {i : Nat} {s' s₀' : Session}
    (h : ∀ j, (reqs j).request.tenantId = A → (ss j).Beside A (ss₀ j)) (hs' : s'.Beside A s₀')
    (j : Nat) (hj : (reqs j).request.tenantId = A) :
    (Function.update ss i s' j).Beside A (Function.update ss₀ i s₀' j) := by
  rcases eq_or_ne j i with rfl | hne
  · rwa [Function.update_self, Function.update_self]
  · rw [Function.update_of_ne hne, Function.update_of_ne hne]
    exact h j hj

theorem sessions_other {ss ss₀ : Nat → Session} {i : Nat}
    (h : ∀ j, (reqs j).request.tenantId = A → (ss j).Beside A (ss₀ j))
    (hi : ¬ (reqs i).request.tenantId = A) (s' : Session) (j : Nat)
    (hj : (reqs j).request.tenantId = A) : (Function.update ss i s' j).Beside A (ss₀ j) := by
  rw [Function.update_of_ne fun heq : j = i => hi (heq ▸ hj)]
  exact h j hj

theorem fresh_beside : Session.fresh.Beside A Session.fresh :=
  ⟨fun _ => rfl, rfl, rfl, rfl, rfl, rfl⟩

theorem orchestratorMachine_step_of {i : Nat} {β : Type} {o : AgentOp β} {s : Session} {w : World}
    {b : β} (hfree : blocked i o s w = false) (hb : (perform (network i) o s w.db).1 = b) :
    (orchestratorMachine network).step i o s w = some (b, (perform (network i) o s w.db).2.1,
      World.relock i { w with db := (perform (network i) o s w.db).2.2 } o b s) := by
  subst hb
  simp only [orchestratorMachine, hfree, if_neg Bool.false_ne_true]

/-- The requests of `A` do alone what they do among the others. -/
theorem beside_projects (network : Nat → Nat → PostOutcome) (hids : IdsApart reqs) :
    Projects (orchestratorMachine network) (fun i => (reqs i).request.tenantId = A)
      (fun i => confinement reqs (reqs i).request.tenantId) (seenBy A) (Beside reqs A) where
  eff := by
    intro w ss w₀ ss₀ i β o b s' w' h hst
    obtain ⟨hperform, -, -⟩ := orchestratorMachine_step hst
    cases o with
    | getAgent id =>
      rintro row rfl
      unfold perform at hperform
      dsimp only at hperform
      split at hperform
      · rename_i row' hheld
        obtain rfl : row' = row := Option.some.inj (Prod.mk.inj hperform).1
        obtain ⟨inst, hinst, rfl⟩ := (ss i).held_loaded hheld
        exact (h.own i).loaded id inst hinst
      · have hanswer : ((ss i).load w.db id false).1 = some row := (Prod.mk.inj hperform).1
        unfold Session.load at hanswer
        split at hanswer
        · rename_i row' hrow
          cases hanswer
          obtain ⟨hmem, hid⟩ := lookup_mem hrow
          exact hid ▸ h.drawn row hmem
        · cases hanswer
    | _ => trivial
  own := by
    intro w ss w₀ ss₀ i β o b s' w' h hi hpre hst
    obtain ⟨hperform, hfree, hw'⟩ := orchestratorMachine_step hst
    have hbeside := h.sessions i hi
    have hpreA : Confined reqs A o := hi ▸ hpre
    have hown : (ss i).Of reqs A := hi ▸ h.own i
    obtain ⟨hanswer, hsession, hdb⟩ :=
      hbeside.perform (network i) hown hids h.drawn h.db hpreA
    obtain ⟨hkeeps, hdrawn⟩ := (h.own i).perform (network i) h.drawn hpre
    rw [hperform] at hanswer hsession hdb hkeeps hdrawn
    dsimp only at hanswer hsession hdb hkeeps hdrawn
    have hmine : decide ((reqs i).request.tenantId = A) = true := decide_eq_true hi
    refine ⟨_, _, orchestratorMachine_step_of (h.locks.unblocked hbeside hfree) hanswer.symm,
      hdrawn, own_update h.own hkeeps, ?_, ?_, sessions_update h.sessions hsession⟩
    · rw [World.relock_db]
      exact hdb
    · rw [hw']
      exact h.locks.withDb.relock hmine hbeside o b
  other := by
    intro w ss w₀ ss₀ i β o b s' w' h hi hpre hst
    obtain ⟨hperform, hfree, hw'⟩ := orchestratorMachine_step hst
    have hdb := h.db.other (network i) hids hi (h.own i) h.drawn o
    obtain ⟨hkeeps, hdrawn⟩ := (h.own i).perform (network i) h.drawn hpre
    rw [hperform] at hdb hkeeps hdrawn
    dsimp only at hdb hkeeps hdrawn
    have hothers : decide ((reqs i).request.tenantId = A) = false := decide_eq_false hi
    refine ⟨hdrawn, own_update h.own hkeeps, hdb, ?_, sessions_other h.sessions hi s'⟩
    rw [hw']
    exact h.locks.relock_other hothers hfree b
  ownCrash := by
    intro w ss w₀ ss₀ i h hi
    exact ⟨h.drawn, own_update h.own .fresh, h.db, h.locks.release (decide_eq_true hi),
      sessions_update h.sessions fresh_beside⟩
  otherCrash := by
    intro w ss w₀ ss₀ i h hi
    exact ⟨h.drawn, own_update h.own .fresh, h.db, h.locks.release_other (decide_eq_false hi),
      sessions_other h.sessions hi _⟩

/-- **Every tenant might be alone.**  Whatever else the orchestrator serves meanwhile, and whoever
    crashes, to the requests of a tenant the run is one in which nobody but they take a step: they
    get the same responses, and leave the same agents and the same events of them. -/
theorem tenants_might_be_alone (network : Nat → Nat → PostOutcome) (reqs : Nat → Incoming)
    (hids : IdsApart reqs) {sys : System AgentOp Session World Exc Response}
    (h : (orchestratorMachine network).Reaches Machine.Any (orchestrator Db.empty reqs) sys)
    (A : String) :
    ∃ alone, (orchestratorMachine network).Reaches
        (Machine.Of fun i => (reqs i).request.tenantId = A) (orchestrator Db.empty reqs) alone ∧
      (∀ i, (reqs i).request.tenantId = A → (alone.threads i).prog = (sys.threads i).prog) ∧
      alone.world.db.agents = (sys.world.db.agents.filter fun r => r.tenantId = A) ∧
      ∀ id, DrawnFor reqs A id → alone.world.db.agentEvents id = sys.world.db.agentEvents id := by
  have hstart : Beside reqs A (orchestrator Db.empty reqs).world
      (orchestrator Db.empty reqs).sessions (orchestrator Db.empty reqs).world
      (orchestrator Db.empty reqs).sessions := by
    refine ⟨?_, fun _ => .fresh, ⟨rfl, fun _ _ => rfl⟩, ⟨fun _ => rfl, fun _ => rfl⟩,
      fun _ _ => fresh_beside⟩
    intro r hr
    cases hr
  obtain ⟨alone, hreaches, halone⟩ := h.alone (beside_projects network hids)
    ⟨fun i => serveIn_confined i, fun i hi => hi ▸ serveIn_seesOnly (reqs i).request, hstart,
      fun _ _ => rfl⟩
  exact ⟨alone, hreaches, halone.progs, halone.related.db.agents, halone.related.db.events⟩

end Runs

/-- Two tenants create an agent each; request 2 wants the agent of the other tenant deleted, and the
    rest invoke it. -/
def twoTenants : Nat → Incoming
  | 0 => sampleCreate []
  | 1 => ⟨sampleEnv 10, .createAgent "globex" ⟨"seller", "sells", [], by decide, by decide⟩⟩
  | 2 => ⟨sampleEnv 20, .deleteAgent 0 "globex"⟩
  | n + 3 => sampleInvoke (10 * (n + 3))

theorem twoTenants_drawn {i : Nat} {id : Uuid} (h : (twoTenants i).drawn = some id) :
    (i = 0 ∧ id = 0) ∨ (i = 1 ∧ id = 10) := by
  rcases i with _ | _ | _ | n
  · exact .inl ⟨rfl, (Option.some.inj h).symm⟩
  · exact .inr ⟨rfl, (Option.some.inj h).symm⟩
  · cases h
  · cases h

theorem twoTenants_apart : IdsApart twoTenants := by
  rintro T T' id ⟨i, rfl, hid⟩ ⟨j, rfl, hid'⟩
  rcases twoTenants_drawn hid with ⟨rfl, rfl⟩ | ⟨rfl, rfl⟩ <;>
    rcases twoTenants_drawn hid' with ⟨rfl, hne⟩ | ⟨rfl, hne⟩ <;>
    first | rfl | cases hne

/-- The agents are created in turns; the deletion and an invocation of the same agent interleave. -/
def inTurns : List Nat := [0, 1, 0, 1, 0, 1, 0, 1, 0, 1, 3, 2, 3, 2] ++ List.replicate 8 3

set_option maxRecDepth 10000 in
/-- There are two agents, and an event of each creation and of the invocation; alone, the first
    tenant has its own agent, invoked once. -/
theorem tenants_might_be_alone_inTurns :
    let sys := (orchestratorMachine noNetwork).schedule inTurns (orchestrator Db.empty twoTenants)
    sys.world.db.agents.map (fun r => (r.tenantId, r.version)) = [("acme", 2), ("globex", 1)] ∧
      ∃ alone, (orchestratorMachine noNetwork).Reaches
          (Machine.Of fun i => (twoTenants i).request.tenantId = "acme")
          (orchestrator Db.empty twoTenants) alone ∧
        alone.world.db.agents.map (fun r => (r.tenantId, r.version)) = [("acme", 2)] ∧
        (alone.world.db.agentEvents 0).map (·.subject) = ["agent.created", "agent.invoked"] := by
  intro sys
  obtain ⟨hall, hacme, hevents⟩ :
      sys.world.db.agents.map (fun r => (r.tenantId, r.version)) = [("acme", 2), ("globex", 1)] ∧
      (sys.world.db.agents.filter fun r => r.tenantId = "acme").map
        (fun r => (r.tenantId, r.version)) = [("acme", 2)] ∧
      (sys.world.db.agentEvents 0).map (·.subject) = ["agent.created", "agent.invoked"] := by
    decide +kernel
  obtain ⟨alone, hreaches, -, hagents, hsame⟩ := tenants_might_be_alone noNetwork twoTenants
    twoTenants_apart (Machine.reaches_schedule inTurns (orchestrator Db.empty twoTenants)) "acme"
  refine ⟨hall, alone, hreaches, ?_, ?_⟩
  · rw [hagents]
    exact hacme
  · rw [hsame 0 ⟨0, rfl, rfl⟩]
    exact hevents

end FavlGateway.Orchestrator
