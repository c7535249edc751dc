/-
  A slow connector stalls nobody else.

  `invokeAgent` rolls its session back before the fan-out.  So a request that awaits a call to the
  registry has no connection of the pool and no lock, however long the call takes; and whoever has
  one goes on, within the service, as soon as those who hold a lock have given it up.  `Held` is
  what one request holds; `considerate` follows every handler with it.
-/
import FavlGateway.Library.Ghost
import FavlGateway.Orchestrator.Pool

namespace FavlGateway.Orchestrator

open FavlGateway.Library
open FavlGateway.Registry (Uuid CallerIdentity)

/-! ## What a request holds -/

/-- The rows a request has locked, whether it holds index values, and whether it has a
    connection. -/
@[ext]
structure Held where
  rows : Uuid → Prop
  keys : Prop
  connection : Prop

namespace Held

/-- Nothing. -/
def nothing : Held := ⟨fun _ => False, False, False⟩

/-- A connection, at most. -/
def onlyConnection (connection : Prop) : Held := ⟨fun _ => False, False, connection⟩

/-- A row or an index value is held. -/
def Locks (h : Held) : Prop := (∃ id, h.rows id) ∨ h.keys

theorem onlyConnection_locks (connection : Prop) : ¬ (onlyConnection connection).Locks := by
  rintro (⟨id, h⟩ | h) <;> exact h

/-- What is held after an operation that answered `b`. -/
def after (h : Held) : {β : Type} → AgentOp β → β → Session → Held
  | _, .refreshAgent id, some _, _ => ⟨fun c => c = id ∨ h.rows c, h.keys, True⟩
  | _, .flush, .ok _, s => ⟨h.rows, h.keys ∨ s.pending.keys ≠ [], True⟩
  | _, .flush, .error _, _ => onlyConnection True
  | _, .commit, .ok _, _ => nothing
  | _, .commit, .error _, _ => onlyConnection True
  | _, .rollback, _, _ => nothing
  | _, .close, _, _ => nothing
  | _, o, _, s => ⟨h.rows, h.keys, h.connection ∨ o.usesConnection s = true⟩

end Held

/-- What request `i` holds in the world. -/
def heldBy (i : Nat) (w : PooledWorld) : Held :=
  ⟨fun id => w.rowLock id = some i, ∃ k, w.keyLock k = some i, i ∈ w.connections⟩

section World

variable {network : Nat → Nat → PostOutcome} {i j : Nat} {β : Type} {o : AgentOp β}
  {s s' : Session} {w w' : PooledWorld} {b : β}

/-- What an operation makes of the connection of its request. -/
theorem mem_reconnect (o : AgentOp β) (b : β) (s : Session) :
    i ∈ w.reconnect i o b s ↔ ((heldBy i w).after o b s).connection := by
  have hmem := fun uses => (@PooledWorld.mem_connect i i uses w)
  have hgone : i ∈ w.disconnect i ↔ False :=
    iff_of_false (fun h => (PooledWorld.mem_disconnect.mp h).1 rfl) id
  have htaken : i ∈ w.connect i true ↔ True :=
    iff_of_true ((hmem true).mpr (.inr ⟨rfl, rfl⟩)) trivial
  cases o with
  | refreshAgent id => cases b with
    | none => exact (hmem true).trans (or_congr_right (and_iff_right rfl))
    | some row => exact htaken
  | flush => cases b with
    | ok u => exact htaken
    | error e => exact htaken
  | commit => cases b with
    | ok u => exact hgone
    | error e => exact htaken
  | rollback => exact hgone
  | close => exact hgone
  | _ => exact (hmem _).trans (or_congr_right (and_iff_right rfl))

theorem mem_reconnect_of_ne (hne : j ≠ i) (o : AgentOp β) (b : β) (s : Session) :
    j ∈ w.reconnect i o b s ↔ j ∈ w.connections := by
  have hmem : ∀ uses, j ∈ w.connect i uses ↔ j ∈ w.connections := fun uses => by
    rw [PooledWorld.mem_connect]
    simp [hne]
  have hkept : j ∈ w.disconnect i ↔ j ∈ w.connections := by
    rw [PooledWorld.mem_disconnect, and_iff_right hne]
  cases o with
  | commit => cases b with
    | ok u => exact hkept
    | error e => exact hmem true
  | rollback => exact hkept
  | close => exact hkept
  | _ => exact hmem _

/-- What an operation makes of the locks of its request. -/
theorem locks_relock (o : AgentOp β) (b : β) (s : Session) (db : Db) :
    (∀ id, (World.relock i { w.toWorld with db := db } o b s).rowLock id = some i ↔
      ((heldBy i w).after o b s).rows id) ∧
    ((∃ k, (World.relock i { w.toWorld with db := db } o b s).keyLock k = some i) ↔
      ((heldBy i w).after o b s).keys) := by
  have hreleased : (∀ id, (w.toWorld.release i).rowLock id = some i ↔ False) ∧
      ((∃ k, (w.toWorld.release i).keyLock k = some i) ↔ False) := by
    simp [World.release]
  cases o with
  | refreshAgent id => cases b with
    | none => exact ⟨fun _ => Iff.rfl, Iff.rfl⟩
    | some row =>
      refine ⟨fun c => ?_, Iff.rfl⟩
      show Function.update w.rowLock id (some i) c = some i ↔ c = id ∨ w.rowLock c = some i
      rw [Function.update_apply, take_eq_some fun _ _ => rfl]
      simp
  | flush => cases b with
    | ok u =>
      refine ⟨fun _ => Iff.rfl, ?_⟩
      show (∃ k, (if k ∈ s.pending.keys then some i else w.keyLock k) = some i) ↔
        (∃ k, w.keyLock k = some i) ∨ s.pending.keys ≠ []
      have hsome : (∃ k, k ∈ s.pending.keys) ↔ s.pending.keys ≠ [] := by
        refine ⟨?_, List.exists_mem_of_ne_nil _⟩
        rintro ⟨k, hk⟩
        exact List.ne_nil_of_mem hk
      simp only [take_eq_some fun _ _ => rfl, true_and, exists_or, hsome]
      exact or_comm
    | error e => exact hreleased
  | commit => cases b with
    | ok u => exact hreleased
    | error e => exact hreleased
  | rollback => exact hreleased
  | close => exact hreleased
  | _ => exact ⟨fun _ => Iff.rfl, Iff.rfl⟩

/-- A step leaves what the others hold as it is. -/
theorem locks_relock_of_ne (hne : j ≠ i) (hfree : blocked i o s w.toWorld = false) (b : β)
    (db : Db) :
    (∀ id, (World.relock i { w.toWorld with db := db } o b s).rowLock id = some j ↔
      w.rowLock id = some j) ∧
    ∀ k, (World.relock i { w.toWorld with db := db } o b s).keyLock k = some j ↔
      w.keyLock k = some j := by
  have hreleased : (∀ id, (w.toWorld.release i).rowLock id = some j ↔ w.rowLock id = some j) ∧
      ∀ k, (w.toWorld.release i).keyLock k = some j ↔ w.keyLock k = some j := by
    simp only [World.release, release_eq_some, ne_eq, hne, not_false_eq_true, true_and,
      implies_true, and_self]
  have hown : ∀ {lock : Option Nat}, heldByOther i lock = false → lock = some j → j = i := by
    rintro lock hlock rfl
    simpa [heldByOther] using hlock
  cases o with
  | refreshAgent id => cases b with
    | none => exact ⟨fun _ => Iff.rfl, fun _ => Iff.rfl⟩
    | some row =>
      refine ⟨fun c => ?_, fun _ => Iff.rfl⟩
      show Function.update w.rowLock id (some i) c = some j ↔ _
      have hother : c = id → w.rowLock c = some j → j = i := by
        rintro rfl
        exact hown hfree
      rw [Function.update_apply, take_eq_some hother]
      simp [hne]
  | flush => cases b with
    | ok u =>
      refine ⟨fun _ => Iff.rfl, fun k => ?_⟩
      simp only [blocked, List.any_eq_false, Bool.not_eq_true] at hfree
      show (if k ∈ s.pending.keys then some i else w.keyLock k) = some j ↔ _
      rw [take_eq_some fun hk hj => hown (hfree k hk) hj]
      simp [hne]
    | error e => exact hreleased
  | commit => exact hreleased
  | rollback => exact hreleased
  | close => exact hreleased
  | _ => exact ⟨fun _ => Iff.rfl, fun _ => Iff.rfl⟩

/-- What a step makes of what its request holds. -/
theorem heldBy_step (h : (pooledMachine network).step i o s w = some (b, s', w')) :
    heldBy i w' = (heldBy i w).after o b s := by
  obtain ⟨-, hstep, hconnections⟩ := pooledMachine_step h
  obtain ⟨-, -, hw⟩ := orchestratorMachine_step hstep
  obtain ⟨hrows, hkeys⟩ := @locks_relock i β w o b s w'.db
  rw [← hw] at hrows hkeys
  refine Held.ext (funext fun id => propext (hrows id)) (propext hkeys) (propext ?_)
  show i ∈ w'.connections ↔ _
  rw [hconnections]
  exact mem_reconnect o b s

theorem heldBy_step_of_ne (hne : j ≠ i)
    (h : (pooledMachine network).step i o s w = some (b, s', w')) : heldBy j w' = heldBy j w := by
  obtain ⟨-, hstep, hconnections⟩ := pooledMachine_step h
  obtain ⟨-, hfree, hw⟩ := orchestratorMachine_step hstep
  obtain ⟨hrows, hkeys⟩ := locks_relock_of_ne hne hfree b w'.db
  rw [← hw] at hrows hkeys
  refine Held.ext (funext fun id => propext (hrows id)) (propext (exists_congr hkeys))
    (propext ?_)
  show j ∈ w'.connections ↔ _
  rw [hconnections]
  exact mem_reconnect_of_ne hne o b s

end World

/-! ## What a request may await while it holds something -/

/-- With locks a request only ends its transaction, over the connection it has, and what it inserts,
    updates and deletes by that is locked already; a call to the registry it awaits with nothing. -/
def Unhindered (h : Held) : {β : Type} → AgentOp β → Session → Prop
  | _, .getAgent _, _ => ¬ h.Locks
  | _, .refreshAgent _, _ => ¬ h.Locks
  | _, .listAgents _, _ => ¬ h.Locks
  | _, .flush, _ => ¬ h.Locks
  | _, .commit, s => h.Locks → h.connection ∧ s.pending.keys = [] ∧
      (∀ a ∈ s.assigned, h.rows a.1) ∧ ∀ id ∈ s.doomed, h.rows id
  | _, .post _, _ => h = Held.nothing
  | _, _, _ => True

/-- A request that keeps nobody waiting. -/
def considerate : Discipline AgentOp (Session × Held) where
  pre o x := Unhindered x.2 o x.1
  eff o x b x' := Effect o x.1 b x'.1 ∧ x'.2 = x.2.after o b x.1

section Rules

variable {α β : Type} {s : Session} {h : Held} {Q : Except Exc α → Session × Held → Prop}

theorem considerate_await {o : AgentOp β} {f : β → Handler α} (hpre : Unhindered h o s)
    (hrest : ∀ b s', Effect o s b s' → (f b).Obeys considerate Q (s', h.after o b s)) :
    (await o >>= f).Obeys considerate Q (s, h) := by
  refine ⟨hpre, ?_⟩
  rintro b ⟨s', h'⟩ ⟨heff, rfl⟩
  exact hrest b s' heff

/-- What a commit answers is passed on. -/
theorem considerate_commit {response : Response} {Q : Except Exc Response → Session × Held → Prop}
    (hpre : Unhindered h .commit s) (hQ : ∀ r x, Q r x) :
    (commit >>= fun _ => Prog.ret response).Obeys considerate Q (s, h) := by
  refine Prog.Obeys.bind (considerate_await hpre fun answer s' _ => ?_)
  cases answer with
  | ok u => exact hQ _ _
  | error e => exact hQ _ _

/-- Reading an agent of the caller's tenant, without locks. -/
theorem tenantAgent_considerate {agentId : Uuid} {tenantId : String} {k : AgentRecord → Handler α}
    {connection : Prop} (hidle : s.Idle) (hnone : ∀ x, Q (.error agentNotFound) x)
    (hsome : ∀ record inst s' connection', s'.Idle → s'.agents agentId = some inst →
      inst.row = record → (k record).Obeys considerate Q (s', Held.onlyConnection connection')) :
    (tenantAgent agentId tenantId >>= k).Obeys considerate Q
      (s, Held.onlyConnection connection) := by
  unfold tenantAgent
  rw [Prog.bind_assoc']
  refine considerate_await (Held.onlyConnection_locks _) fun found s' heff => ?_
  obtain ⟨hidle', hfound⟩ := Effect.getAgent heff hidle
  cases hfilter : found.filter (·.tenantId = tenantId) with
  | none => exact hnone _
  | some record =>
    obtain ⟨hrecord, -⟩ := Option.filter_eq_some_iff.mp hfilter
    obtain ⟨inst, hinst, hrow⟩ := hfound record hrecord
    exact hsome record inst s' _ hidle' hinst hrow

end Rules

/-! ## The handlers -/

section Handlers

variable {rq : Incoming} {agentId : Uuid} {tenantId : String}

/-- What is left to see of a handler: whatever it ends with. -/
def AnyOutcome : Except Exc Response → Session × Held → Prop := fun _ _ => True

theorem createAgent_considerate {payload : AgentCreate} :
    (createAgent rq.env tenantId payload).Obeys considerate AnyOutcome
      (Session.fresh, Held.nothing) := by
  unfold createAgent
  refine considerate_await trivial ?_
  rintro u s₁ ⟨network, db, -, rfl⟩
  refine considerate_await (Held.onlyConnection_locks _) fun answer s₂ heff => ?_
  rcases Effect.flush heff with ⟨rfl, rfl⟩ | ⟨e, rfl⟩
  · refine considerate_await trivial ?_
    rintro u s₃ ⟨network₃, db₃, -, rfl⟩
    refine considerate_commit (fun _ => ?_) fun _ _ => trivial
    refine ⟨.inl trivial, rfl, fun a ha => ?_, fun id hid => ?_⟩
    · exact (List.not_mem_nil ha).elim
    · exact (List.not_mem_nil hid).elim
  · cases e with
    | integrity => exact considerate_await trivial fun _ _ _ => trivial
    | data => trivial
    | stale => trivial

theorem deleteAgent_considerate :
    (deleteAgent rq.env agentId tenantId).Obeys considerate AnyOutcome
      (Session.fresh, Held.nothing) := by
  unfold deleteAgent
  refine tenantAgent_considerate Session.fresh_idle (fun _ => trivial) ?_
  intro record inst s connection _ _ _
  refine considerate_await trivial ?_
  rintro u s₁ ⟨network, db, -, rfl⟩
  refine considerate_await trivial ?_
  rintro u s₂ ⟨network₂, db₂, -, rfl⟩
  refine considerate_commit (fun hlocks => ?_) fun _ _ => trivial
  exact absurd hlocks (Held.onlyConnection_locks _)

/-- The fan-out begins and ends with nothing. -/
theorem fanOut_considerate {payload : Dict String} {k : List (Dict String) → Handler Response}
    (hk : ∀ outputs s, s.Idle → (k outputs).Obeys considerate AnyOutcome (s, Held.nothing))
    (connectorIds : List String) {s : Session} (hidle : s.Idle) :
    (fanOut rq.env agentId payload tenantId connectorIds >>= k).Obeys considerate AnyOutcome
      (s, Held.nothing) := by
  induction connectorIds generalizing s k with
  | nil => exact hk [] s hidle
  | cons connectorId rest ih =>
    unfold fanOut
    rw [Prog.bind_assoc']
    refine considerate_await rfl ?_
    rintro answer s' ⟨network, db, -, rfl⟩
    have hnothing : ∀ b s, Held.nothing.after
        (.post (connectorCall rq.env agentId payload tenantId connectorId)) b s = Held.nothing := by
      intro b s
      refine Held.ext rfl rfl ?_
      simp [Held.after, Held.nothing, AgentOp.usesConnection]
    rw [hnothing]
    cases hentry : fanOutEntry connectorId answer with
    | error e => trivial
    | ok entry =>
      dsimp only
      rw [Prog.bind_assoc']
      refine ih (fun outputs s' hs' => hk _ s' hs') ?_
      exact ⟨hidle.assigned, hidle.doomed, hidle.pending, hidle.flushed⟩

theorem invokeAgent_considerate {payload : Dict String} {caller : CallerIdentity} :
    (invokeAgent rq.env agentId payload caller).Obeys considerate AnyOutcome
      (Session.fresh, Held.nothing) := by
  unfold invokeAgent
  refine tenantAgent_considerate Session.fresh_idle (fun _ => trivial) ?_
  intro record inst s connection hidle _ _
  split
  · trivial
  · refine considerate_await trivial ?_
    rintro u s₁ ⟨network, db, -, rfl⟩
    refine fanOut_considerate ?_ _ s.rolledBack_idle
    intro outputs s₂ hidle₂
    refine tenantAgent_considerate hidle₂ (fun _ => trivial) ?_
    intro fresh inst₃ s₃ connection₃ hidle₃ _ _
    refine considerate_await (Held.onlyConnection_locks _) fun found s₄ heff => ?_
    obtain ⟨hidle₄, -⟩ := Effect.refreshAgent heff hidle₃
    cases found with
    | none => trivial
    | some row =>
      refine considerate_await trivial ?_
      rintro u s₅ ⟨network₅, db₅, -, rfl⟩
      refine considerate_await trivial ?_
      rintro u s₆ ⟨network₆, db₆, -, rfl⟩
      refine considerate_commit (fun _ => ?_) fun _ _ => trivial
      -- the row it writes is the one it has locked
      refine ⟨.inl (.inl trivial), ?_, fun a ha => ?_, fun id hid => ?_⟩
      · simp [perform, Rows.keys, hidle₄.pending]
      · simp [perform, hidle₄.assigned] at ha
        exact .inl (by rw [ha])
      · simp [perform, hidle₄.doomed] at hid

theorem handler_considerate (rq : Incoming) :
    (handler rq.env rq.request).Obeys considerate AnyOutcome (Session.fresh, Held.nothing) := by
  cases hrequest : rq.request with
  | listAgents tenantId =>
    exact considerate_await (Held.onlyConnection_locks _) fun _ _ _ => trivial
  | getAgent agentId tenantId =>
    exact tenantAgent_considerate Session.fresh_idle (fun _ => trivial)
      fun _ _ _ _ _ _ _ => trivial
  | createAgent tenantId payload => exact createAgent_considerate
  | deleteAgent agentId tenantId => exact deleteAgent_considerate
  | invokeAgent agentId payload caller => exact invokeAgent_considerate

/-- A request ends with nothing. -/
theorem serveIn_considerate (rq : Incoming) :
    (serveIn (handler rq.env rq.request)).Obeys considerate (fun _ x => x.2 = Held.nothing)
      (Session.fresh, Held.nothing) := by
  refine Prog.Obeys.tryCatch (Prog.Obeys.finallyDo ((handler_considerate rq).mono ?_))
  rintro r ⟨s, h⟩ _
  refine ⟨trivial, ?_⟩
  rintro ⟨s', h'⟩ ⟨-, rfl⟩
  cases r with
  | ok response => rfl
  | error e => rfl

end Handlers

/-! ## In every run -/

/-- What is held on each level: locks, and above them a connection. -/
def Held.At (h : Held) : Nat → Prop
  | 0 => h.Locks
  | 1 => h.connection
  | _ => False

/-- What request `j` holds in the world, level by level. -/
def PooledWorld.Holds (n : Nat) (w : PooledWorld) (j : Nat) : Prop := (heldBy j w).At n

section Runs

variable {network : Nat → Nat → PostOutcome} {reqs : Nat → Incoming} {db₀ : Db} {i : Nat}
  {sys : System AgentOp Session PooledWorld Exc Response}

theorem Held.nothing_at (n : Nat) : ¬ Held.nothing.At n := by
  match n with
  | 0 => exact Held.onlyConnection_locks _
  | 1 => exact id
  | _ + 2 => exact id

theorem holdsAny_of_nothing {w : PooledWorld} {j : Nat} (h : heldBy j w = Held.nothing) :
    ¬ HoldsAny PooledWorld.Holds w j := by
  rintro ⟨n, hn⟩
  unfold PooledWorld.Holds at hn
  rw [h] at hn
  exact Held.nothing_at n hn

theorem heldBy_abort {j : Nat} (s : Session) (w : PooledWorld) :
    heldBy j ((pooledMachine network).abort i s w) =
      if j = i then Held.nothing else heldBy j w := by
  split
  · rename_i h
    subst h
    refine Held.ext ?_ ?_ ?_
    · simp [heldBy, pooledMachine, orchestratorMachine, World.release, Held.nothing]
    · simp [heldBy, pooledMachine, orchestratorMachine, World.release, Held.nothing]
    · simp [heldBy, pooledMachine, PooledWorld.disconnect, Held.nothing]
  · rename_i hne
    simp only [heldBy, pooledMachine, orchestratorMachine, World.release, release_eq_some,
      PooledWorld.mem_disconnect, ne_eq, hne, not_false_eq_true, true_and]

theorem heldBy_start : heldBy i (pooledOrchestrator db₀ reqs).world = Held.nothing := by
  simp [heldBy, pooledOrchestrator, Held.nothing]

/-- Every request stays considerate. -/
theorem reaches_considerate
    (h : (pooledMachine network).Reaches Machine.Any (pooledOrchestrator db₀ reqs) sys) (i : Nat) :
    (sys.threads i).prog.Obeys considerate (fun _ x => x.2 = Held.nothing)
      (sys.sessions i, heldBy i sys.world) := by
  refine h.obeys_view (heldBy i) ?_ ?_ ?_ ?_
  · intro sys _ j sys' hne hs
    cases hs with
    | op hp hst => exact heldBy_step_of_ne hne.symm hst
    | crash hp => exact (heldBy_abort _ _).trans (if_neg hne.symm)
  · intro sys _ β o b s' w' hst
    obtain ⟨-, hstep, -⟩ := pooledMachine_step hst
    obtain ⟨hperform, -, -⟩ := orchestratorMachine_step hstep
    exact ⟨⟨network i, sys.world.db, by rw [hperform], by rw [hperform]⟩, heldBy_step hst⟩
  · exact fun s w => (heldBy_abort s w).trans (if_pos rfl)
  · rw [heldBy_start]
    exact serveIn_considerate (reqs i)

/-- Where nobody else holds a lock, no operation waits for one. -/
theorem blocked_of_alone {w : PooledWorld} (hothers : ∀ j, j ≠ i → ¬ (heldBy j w).Locks) {β : Type}
    (o : AgentOp β) (s : Session) : blocked i o s w.toWorld = false := by
  have hrow : ∀ id, heldByOther i (w.rowLock id) = false := by
    intro id
    cases hlock : w.rowLock id with
    | none => rfl
    | some j =>
      refine decide_eq_false (not_not.mpr ?_)
      by_contra hne
      exact hothers j hne (.inl ⟨id, hlock⟩)
  have hkey : ∀ k, heldByOther i (w.keyLock k) = false := by
    intro k
    cases hlock : w.keyLock k with
    | none => rfl
    | some j =>
      refine decide_eq_false (not_not.mpr ?_)
      by_contra hne
      exact hothers j hne (.inr ⟨k, hlock⟩)
  cases o with
  | refreshAgent id => exact hrow id
  | flush => simp [blocked, hkey]
  | commit => simp [blocked, hkey, hrow]
  | _ => rfl

theorem poolBlocked_of_connection {w : PooledWorld} (h : (heldBy i w).connection) {β : Type}
    (o : AgentOp β) (s : Session) : poolBlocked i o s w = false := by
  have hmem : i ∈ w.connections := h
  simp [poolBlocked, hmem]

/-- Who has a connection or a lock has not ended. -/
theorem holder_awaits
    (h : (pooledMachine network).Reaches Machine.Any (pooledOrchestrator db₀ reqs) sys)
    (hholds : HoldsAny PooledWorld.Holds sys.world i) :
    ∃ (β : Type) (o : AgentOp β) (k : β → Handler Response), (sys.threads i).prog = .op o k ∧
      Unhindered (heldBy i sys.world) o (sys.sessions i) := by
  have hobeys := reaches_considerate h i
  cases hp : (sys.threads i).prog with
  | ret response =>
    rw [hp] at hobeys
    exact absurd hholds (holdsAny_of_nothing hobeys)
  | raise e =>
    rw [hp] at hobeys
    exact absurd hholds (holdsAny_of_nothing hobeys)
  | op o k =>
    rw [hp] at hobeys
    exact ⟨_, o, k, rfl, hobeys.1⟩

/-- Who has a lock waits for nobody. -/
theorem unhindered_free {w : PooledWorld} {β : Type} {o : AgentOp β} {s : Session}
    (h : Unhindered (heldBy i w) o s) (hlocks : (heldBy i w).Locks) :
    ∃ b s' w', (pooledMachine network).step i o s w = some (b, s', w') := by
  have hown : heldByOther i (some i) = false := by simp [heldByOther]
  cases o with
  | getAgent id => exact absurd hlocks h
  | refreshAgent id => exact absurd hlocks h
  | listAgents tenantId => exact absurd hlocks h
  | flush => exact absurd hlocks h
  | post p =>
    have hnothing : heldBy i w = Held.nothing := h
    rw [hnothing] at hlocks
    exact absurd hlocks (Held.onlyConnection_locks _)
  | commit =>
    obtain ⟨hconnection, hkeys, hassigned, hdoomed⟩ := h hlocks
    refine pooledMachine_free (poolBlocked_of_connection hconnection _ _) ?_
    simp only [blocked, hkeys, List.any_nil, Bool.false_or, Bool.or_eq_false_iff, List.any_eq_false,
      Bool.not_eq_true]
    refine ⟨fun a ha => ?_, fun id hid => ?_⟩
    · have hlock : w.rowLock a.1 = some i := hassigned a ha
      rw [hlock, hown]
    · have hlock : w.rowLock id = some i := hdoomed id hid
      rw [hlock, hown]
  | _ => exact pooledMachine_free rfl rfl

/-- The orchestrator holds its locks and connections in an orderly way. -/
theorem pooled_orderly (network : Nat → Nat → PostOutcome) (db₀ : Db) (reqs : Nat → Incoming) :
    (pooledMachine network).Orderly 2 PooledWorld.Holds (pooledOrchestrator db₀ reqs) where
  start n j hj := holdsAny_of_nothing heldBy_start ⟨n, hj⟩
  step hst n j hne hj := by
    unfold PooledWorld.Holds at hj ⊢
    rwa [heldBy_step_of_ne hne hst] at hj
  abort i s w n j hj := by
    unfold PooledWorld.Holds at hj ⊢
    rw [heldBy_abort] at hj
    split at hj
    · exact (Held.nothing_at n hj).elim
    · exact hj
  holder sys h n hn j hj hbelow := by
    obtain ⟨β, o, k, hp, hfree⟩ := holder_awaits h ⟨n, hj⟩
    refine ⟨β, o, k, hp, ?_⟩
    match n, hn with
    | 0, _ => exact unhindered_free hfree hj
    | 1, _ =>
      exact pooledMachine_free (poolBlocked_of_connection hj _ _)
        (blocked_of_alone (hbelow 0 Nat.one_pos) _ _)
  free {i β} o s w hfree := by
    refine pooledMachine_free ?_ (blocked_of_alone (fun j _ => hfree 0 (by decide) j) o s)
    have hnobody : w.connections = [] :=
      List.eq_nil_iff_forall_not_mem.mpr (hfree 1 (by decide))
    simp [poolBlocked, hnobody, poolSize]

/-- **A slow connector stalls nobody else**: in every reachable state, a request that awaits a call
    to the registry has no connection of the pool and no lock.  So, however many calls never come
    back, every other request whose process is alive can be brought to its answer, while nobody else
    moves but requests that have a connection or a lock. -/
theorem slow_calls_stall_nobody (network : Nat → Nat → PostOutcome) (reqs : Nat → Incoming)
    (db₀ : Db) {sys : System AgentOp Session PooledWorld Exc Response}
    (h : (pooledMachine network).Reaches Machine.Any (pooledOrchestrator db₀ reqs) sys) (i : Nat) :
    (∀ p k, (sys.threads i).prog = .op (.post p) k → heldBy i sys.world = Held.nothing) ∧
    ((sys.threads i).prog = .raise .crashed ∨ ∃ turns response,
      (pooledMachine network).Allows (fun now j => j = i ∨ heldBy j now.world ≠ Held.nothing) turns
        sys ∧
      (((pooledMachine network).schedule turns sys).threads i).prog = .ret response) := by
  refine ⟨fun p k hp => ?_, ?_⟩
  · have hobeys := reaches_considerate h i
    rw [hp] at hobeys
    exact hobeys.1
  · rcases h.returns (fun j => Prog.Returns.tryCatch_ret _ Exc.respond) i with hcrashed | hreturns
    · exact .inl hcrashed
    · obtain ⟨turns, response, hturns, hend⟩ :=
        h.can_return (pooled_orderly network db₀ reqs) hreturns
      refine .inr ⟨turns, response, hturns.mono ?_, hend⟩
      exact fun now j hj => hj.imp_right fun hheld hnothing => holdsAny_of_nothing hnothing hheld

end Runs

/-- An agent with one connector is created, then invoked by everybody else. -/
def invokedByAll : Nat → Incoming
  | 0 => sampleCreate ["crm"]
  | n + 1 => sampleInvoke (10 * (n + 1))

/-- The agent is created, and sixteen invocations begin. -/
def sixteenCalls : List Nat :=
  List.replicate 5 0 ++ (List.range' 1 16).flatMap fun i => [i, i]

set_option maxRecDepth 10000 in
/-- Sixteen requests await the registry, more than there are connections; the next one is answered
    all the same. -/
theorem slow_calls_stall_nobody_sixteen :
    let sys := (pooledMachine noNetwork).schedule sixteenCalls
      (pooledOrchestrator Db.empty invokedByAll)
    (∃ p k, (sys.threads 16).prog = .op (.post p) k) ∧ heldBy 16 sys.world = Held.nothing ∧
      ((sys.threads 17).prog = .raise .crashed ∨ ∃ turns response,
        (pooledMachine noNetwork).Allows
          (fun now j => j = 17 ∨ heldBy j now.world ≠ Held.nothing) turns sys ∧
        (((pooledMachine noNetwork).schedule turns sys).threads 17).prog = .ret response) := by
  intro sys
  have hreach := Machine.reaches_schedule (M := pooledMachine noNetwork) sixteenCalls
    (pooledOrchestrator Db.empty invokedByAll)
  have hcall : ∃ p k, (sys.threads 16).prog = .op (.post p) k := ⟨_, _, rfl⟩
  obtain ⟨p, k, hp⟩ := hcall
  exact ⟨⟨p, k, hp⟩,
    (slow_calls_stall_nobody noNetwork invokedByAll Db.empty hreach 16).1 p k hp,
    (slow_calls_stall_nobody noNetwork invokedByAll Db.empty hreach 17).2⟩

end FavlGateway.Orchestrator
