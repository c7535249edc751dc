/-
  The orchestrator with its connection pool (`app/db.py`).

  A session takes a connection for its first statement and gives it back when its transaction is
  over; who wants one while all are taken waits.  A flush or a commit that fails ends the
  transaction of the database, and its locks, but the session keeps the connection until it is
  rolled back or closed.

  `pooledMachine` is `orchestratorMachine` with the pool.  It only waits more often
  (`pooled_restricts`), so that whatever holds in every run of the orchestrator holds here.
-/
import FavlGateway.Library.Progress
import FavlGateway.Orchestrator.Sequence

namespace FavlGateway.Orchestrator

open FavlGateway.Library
open FavlGateway.Registry (Uuid)

/-- `pool_size` -/
def poolSize : Nat := 5

/-- `max_overflow` -/
def maxOverflow : Nat := 10

/-- The world with the requests that have a connection of the pool. -/
structure PooledWorld extends World where
  connections : List Nat := []

/-- The operation sends a statement. -/
def AgentOp.usesConnection : {β : Type} → AgentOp β → Session → Bool
  | _, .getAgent id, s => (s.held id).isNone
  | _, .refreshAgent _, _ => true
  | _, .listAgents _, _ => true
  | _, .flush, _ => true
  | _, .commit, _ => true
  | _, _, _ => false

/-- The operation has to wait for a connection. -/
def poolBlocked (i : Nat) {β : Type} (o : AgentOp β) (s : Session) (w : PooledWorld) : Bool :=
  o.usesConnection s && i ∉ w.connections && poolSize + maxOverflow ≤ w.connections.length

/-- Request `i` has a connection if it `uses` one, from now on. -/
def PooledWorld.connect (i : Nat) (uses : Bool) (w : PooledWorld) : List Nat :=
  if uses ∧ i ∉ w.connections then i :: w.connections else w.connections

/-- Request `i` has none any more. -/
def PooledWorld.disconnect (i : Nat) (w : PooledWorld) : List Nat :=
  w.connections.filter fun j => j ≠ i

/-- Who has a connection after an operation of request `i` that answered `b`. -/
def PooledWorld.reconnect (i : Nat) (w : PooledWorld) :
    {β : Type} → AgentOp β → β → Session → List Nat
  | _, .commit, .ok _, _ => w.disconnect i
  | _, .rollback, _, _ => w.disconnect i
  | _, .close, _, _ => w.disconnect i
  | _, o, _, s => w.connect i (o.usesConnection s)

/-- The orchestrator under interleaved requests, with its pool. -/
def pooledMachine (network : Nat → Nat → PostOutcome) :
    Machine AgentOp Session PooledWorld Exc where
  step := fun i {_} o s w =>
    if poolBlocked i o s w then none
    else ((orchestratorMachine network).step i o s w.toWorld).map fun r =>
      (r.1, r.2.1, { toWorld := r.2.2, connections := w.reconnect i o r.1 s })
  abort i s w :=
    { toWorld := (orchestratorMachine network).abort i s w.toWorld
      connections := w.disconnect i }
  fresh := (orchestratorMachine network).fresh
  crashed := (orchestratorMachine network).crashed

/-- The orchestrator at start, with nobody connected. -/
def pooledOrchestrator (db : Db) (reqs : Nat → Incoming) :
    System AgentOp Session PooledWorld Exc Response where
  world := { db := db }
  threads i := ⟨Session.fresh, serveIn (handler (reqs i).env (reqs i).request)⟩

section Step

variable {network : Nat → Nat → PostOutcome} {i : Nat} {β : Type} {o : AgentOp β}
  {s s' : Session} {w w' : PooledWorld} {b : β}

/-- A step is one of the orchestrator, by a request that need not wait for a connection. -/
theorem pooledMachine_step (h : (pooledMachine network).step i o s w = some (b, s', w')) :
    poolBlocked i o s w = false ∧
      (orchestratorMachine network).step i o s w.toWorld = some (b, s', w'.toWorld) ∧
      w'.connections = w.reconnect i o b s := by
  simp only [pooledMachine] at h
  split at h
  · cases h
  · rename_i hfree
    obtain ⟨r, hr, heq⟩ := Option.map_eq_some_iff.mp h
    cases heq
    exact ⟨by simpa using hfree, hr, rfl⟩

theorem pooledMachine_free (hpool : poolBlocked i o s w = false)
    (hfree : blocked i o s w.toWorld = false) :
    ∃ b s' w', (pooledMachine network).step i o s w = some (b, s', w') := by
  simp only [pooledMachine, hpool, orchestratorMachine, hfree, Bool.false_eq_true, if_false,
    Option.map_some]
  exact ⟨_, _, _, rfl⟩

end Step

theorem pooled_restricts (network : Nat → Nat → PostOutcome) :
    (pooledMachine network).Restricts (orchestratorMachine network) PooledWorld.toWorld where
  step h := (pooledMachine_step h).2.1
  abort _ _ _ := rfl
  fresh := rfl
  crashed := rfl

/-- **The pool changes nothing but when a request waits.** -/
theorem pooled_reaches {network : Nat → Nat → PostOutcome} {db : Db} {reqs : Nat → Incoming}
    {sys : System AgentOp Session PooledWorld Exc Response}
    (h : (pooledMachine network).Reaches Machine.Any (pooledOrchestrator db reqs) sys) :
    (orchestratorMachine network).Reaches Machine.Any (orchestrator db reqs)
      ⟨sys.world.toWorld, sys.threads⟩ :=
  (pooled_restricts network).reaches h

section Connections

variable {i j : Nat} {uses : Bool} {w : PooledWorld}

theorem PooledWorld.mem_connect :
    j ∈ w.connect i uses ↔ j ∈ w.connections ∨ j = i ∧ uses = true := by
  unfold connect
  split
  · rename_i h
    simp [h.1, or_comm]
  · rename_i h
    refine ⟨.inl, ?_⟩
    rintro (hmem | ⟨rfl, huses⟩)
    · exact hmem
    · exact not_not.mp fun hnot => h ⟨huses, hnot⟩

theorem PooledWorld.mem_disconnect : j ∈ w.disconnect i ↔ j ≠ i ∧ j ∈ w.connections := by
  rw [disconnect, List.mem_filter, decide_eq_true_iff, and_comm]

end Connections

/-- No request has two connections, and the pool is never overdrawn. -/
structure PooledWorld.Bounded (w : PooledWorld) : Prop where
  nodup : w.connections.Nodup
  length : w.connections.length ≤ poolSize + maxOverflow

theorem reaches_bounded {network : Nat → Nat → PostOutcome} {db : Db} {reqs : Nat → Incoming}
    {sys : System AgentOp Session PooledWorld Exc Response}
    (h : (pooledMachine network).Reaches Machine.Any (pooledOrchestrator db reqs) sys) :
    sys.world.Bounded := by
  induction h with
  | start => exact ⟨List.nodup_nil, Nat.zero_le _⟩
  | @step sys sys' i _ hs _ ih =>
    have hgiven : ∀ w' : PooledWorld, w'.connections = sys.world.disconnect i → w'.Bounded := by
      intro w' hw'
      refine ⟨?_, ?_⟩
      · rw [hw']
        exact ih.nodup.filter _
      · rw [hw']
        exact (List.length_filter_le _ _).trans ih.length
    cases hs with
    | crash hp => exact hgiven _ rfl
    | @op β o k b s' w' hp hst =>
      obtain ⟨hfree, -, hconnections⟩ := pooledMachine_step hst
      have htaken : w'.connections =
          sys.world.connect i (o.usesConnection (sys.threads i).session) → w'.Bounded := by
        intro hw'
        unfold PooledWorld.connect at hw'
        split at hw'
        · rename_i huses
          have hroom : ¬ poolSize + maxOverflow ≤ sys.world.connections.length := by
            intro hfull
            simp [poolBlocked, huses, hfull] at hfree
          refine ⟨?_, ?_⟩
          · rw [hw']
            exact List.nodup_cons.mpr ⟨huses.2, ih.nodup⟩
          · rw [hw', List.length_cons]
            omega
        · exact ⟨hw' ▸ ih.nodup, hw' ▸ ih.length⟩
      cases o with
      | commit => cases b with
        | ok u => exact hgiven _ hconnections
        | error e => exact htaken hconnections
      | rollback => exact hgiven _ hconnections
      | close => exact hgiven _ hconnections
      | _ => exact htaken hconnections

end FavlGateway.Orchestrator
