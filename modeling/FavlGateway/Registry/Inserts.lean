/-
  The registry with the locks of its INSERT statements.

  A flush inserts the rows that were added.  PostgreSQL enters each row into its unique indexes, one
  after the other, and then locks the rows it refers to FOR KEY SHARE.  Each of these steps may have
  to wait: for the transaction that has entered the same value, or for one that has the connector
  locked FOR UPDATE.  What has been entered so far stays entered meanwhile, and others wait for it.
  Many transactions may hold a row FOR KEY SHARE at once; an UPDATE that leaves the keys alone,
  which is every UPDATE of the service, does not mind them.

  `keyedMachine` is `registryMachine` with these steps (`withInserts`).  A commit is one step here as
  there: what it inserts it enters and gives up at once, because no commit of the service that
  inserts anything has to wait (`Registry.Courtesy`).

  Between its steps an INSERT has done nothing that can be read, so whatever holds in every run of
  the registry holds here (`keyed_reaches`).
-/
import FavlGateway.Library.Progress
import FavlGateway.Registry.Invariants

namespace FavlGateway.Registry

open FavlGateway.Library

/-! ## What is inserted -/

/-- The connectors that inserted rows refer to. -/
def Rows.references (r : Rows) : List Uuid :=
  r.audit.map (·.connectorId) ++ r.invocations.map (·.connectorId)

/-- The connectors that the rows about to be inserted refer to, but for those the transaction has
    inserted itself: nobody else can see them. -/
def Session.references (s : Session) : List Uuid :=
  s.pending.references.filter fun c => c ∉ (s.flushed ++ s.pending).connectors.map (·.id)

/-! ## The steps of an INSERT -/

inductive InsertOp : Type → Type where
  /-- What is to be entered, and which connectors it refers to. -/
  | plan : InsertOp (List RowKey × List Uuid)
  /-- Enter a value into its index; false where a stored row has it. -/
  | enter (k : RowKey) : InsertOp Bool
  /-- Lock a connector FOR KEY SHARE. -/
  | refer (c : Uuid) : InsertOp Unit

/-- An operation of the registry, or a step of the INSERT statements before a flush is through. -/
abbrev KeyedOp (β : Type) : Type := RegistryOp β ⊕ InsertOp β

section Programs

variable {ε α : Type}

/-- Lock the connectors, then go on. -/
def referring : List Uuid → Prog KeyedOp ε α → Prog KeyedOp ε α
  | [], rest => rest
  | c :: cs, rest => .op (.inr (.refer c)) fun _ => referring cs rest

/-- Enter the values, lock the connectors, then go on; a value that is taken ends the statement. -/
def entering : List RowKey → List Uuid → Prog KeyedOp ε α → Prog KeyedOp ε α
  | [], cs, rest => referring cs rest
  | k :: ks, cs, rest =>
    .op (.inr (.enter k)) fun entered => if entered then entering ks cs rest else rest

/-- What comes before an operation. -/
def before : {β : Type} → RegistryOp β → Prog KeyedOp ε α → Prog KeyedOp ε α
  | _, .flush, rest => .op (.inr .plan) fun rows => entering rows.1 rows.2 rest
  | _, _, rest => rest

/-- The program with its INSERT statements taken apart. -/
def withInserts : Prog RegistryOp ε α → Prog KeyedOp ε α
  | .ret a => .ret a
  | .raise e => .raise e
  | .op o k => before o (.op (.inl o) fun b => withInserts (k b))

theorem referring_returns {rest : Prog KeyedOp ε α} (h : rest.Returns) (cs : List Uuid) :
    (referring cs rest).Returns := by
  induction cs with
  | nil => exact h
  | cons c cs ih => exact fun _ => ih

theorem entering_returns {rest : Prog KeyedOp ε α} (h : rest.Returns) (ks : List RowKey)
    (cs : List Uuid) : (entering ks cs rest).Returns := by
  induction ks with
  | nil => exact referring_returns h cs
  | cons k ks ih =>
    intro entered
    cases entered with
    | true => exact ih
    | false => exact h

/-- A program that cannot raise still cannot. -/
theorem withInserts_returns {p : Prog RegistryOp ε α} (h : p.Returns) :
    (withInserts p).Returns := by
  induction p with
  | ret a => trivial
  | raise e => exact h
  | op o k ih => cases o with
    | flush =>
      have hend : (.op (.inl .flush) fun b => withInserts (k b) : Prog KeyedOp ε α).Returns :=
        fun b => ih b (h b)
      exact fun rows => entering_returns hend rows.1 rows.2
    | _ => exact fun b => ih b (h b)

end Programs

/-! ## Who waits -/

/-- The world with the values that INSERT statements have entered, and the FOR KEY SHARE locks, each
    with the request that holds it. -/
structure KeyedWorld extends World where
  entries : RowKey → Option Nat := fun _ => none
  shares : List (Uuid × Nat) := []

/-- Some other request holds the connector FOR KEY SHARE. -/
def KeyedWorld.sharedByOther (i : Nat) (w : KeyedWorld) (c : Uuid) : Bool :=
  w.shares.any fun x => x.1 = c ∧ x.2 ≠ i

/-- The operation has to wait for an index value or a foreign key. -/
def keyBlocked (i : Nat) : {β : Type} → KeyedOp β → Session → KeyedWorld → Bool
  | _, .inl (.getConnector id true), _, w => w.sharedByOther i id
  | _, .inl (.refreshConnector id), _, w => w.sharedByOther i id
  | _, .inl .commit, s, w => (s.pending.keys.any fun k => heldByOther i (w.entries k)) ||
      s.references.any fun c => heldByOther i (w.rowLock c)
  | _, .inr (.enter k), _, w => heldByOther i (w.entries k)
  | _, .inr (.refer c), _, w => heldByOther i (w.rowLock c)
  | _, _, _, _ => false

/-- The transaction is over. -/
def RegistryOp.ends : {β : Type} → RegistryOp β → β → Bool
  | _, .flush, .error _ => true
  | _, .commit, _ => true
  | _, .rollback, _ => true
  | _, .close, _ => true
  | _, _, _ => false

/-- The world once request `i` has given up what its INSERT statements hold. -/
def KeyedWorld.unkey (i : Nat) (w : KeyedWorld) : KeyedWorld where
  toWorld := w.toWorld
  entries k := if w.entries k = some i then none else w.entries k
  shares := w.shares.filter fun x => x.2 ≠ i

/-- The world after a step of an INSERT. -/
def KeyedWorld.rekey (i : Nat) (w : KeyedWorld) : {β : Type} → InsertOp β → β → KeyedWorld
  | _, .enter k, true => { w with entries := Function.update w.entries k (some i) }
  | _, .refer c, _ => { w with shares := w.shares ++ [(c, i)] }
  | _, _, _ => w

/-- The registry under interleaved requests, with its INSERT statements. -/
def keyedMachine : Machine KeyedOp Session KeyedWorld Exc where
  step := fun i {_} o s w =>
    if keyBlocked i o s w then none
    else match o with
      | .inl o => (registryMachine.step i o s w.toWorld).map fun r =>
          (r.1, r.2.1, { if o.ends r.1 then w.unkey i else w with toWorld := r.2.2 })
      | .inr .plan => some ((s.pending.keys, s.references), s, w)
      | .inr (.enter k) =>
        if k ∈ w.db.keys then some (false, s, w)
        else some (true, s, { w with entries := Function.update w.entries k (some i) })
      | .inr (.refer c) => some ((), s, { w with shares := w.shares ++ [(c, i)] })
  abort i s w := { w.unkey i with toWorld := registryMachine.abort i s w.toWorld }
  fresh := registryMachine.fresh
  crashed := registryMachine.crashed

/-- The service with any number of requests about to arrive. -/
def keyedRegistry (db : Db) (reqs : Nat → Incoming) :
    System KeyedOp Session KeyedWorld Exc Response where
  world := { db := db }
  threads i := ⟨Session.fresh, withInserts (reqs i).program⟩

section Step

variable {i : Nat} {β : Type} {s s' : Session} {w w' : KeyedWorld} {b : β}

/-- An operation is one of the registry that no index value or foreign key is in the way of. -/
theorem keyedMachine_whole {o : RegistryOp β}
    (h : keyedMachine.step i (.inl o) s w = some (b, s', w')) :
    keyBlocked i (.inl o) s w = false ∧
      registryMachine.step i o s w.toWorld = some (b, s', w'.toWorld) ∧
      w' = { if o.ends b then w.unkey i else w with toWorld := w'.toWorld } := by
  simp only [keyedMachine] at h
  split at h
  · cases h
  · rename_i hfree
    obtain ⟨r, hr, heq⟩ := Option.map_eq_some_iff.mp h
    cases heq
    exact ⟨by simpa using hfree, hr, rfl⟩

/-- A step of an INSERT changes nothing but what its request holds. -/
theorem keyedMachine_insert {o : InsertOp β}
    (h : keyedMachine.step i (.inr o) s w = some (b, s', w')) :
    keyBlocked i (.inr o) s w = false ∧ s' = s ∧ w' = w.rekey i o b := by
  simp only [keyedMachine] at h
  split at h
  · cases h
  rename_i hfree
  refine ⟨by simpa using hfree, ?_⟩
  cases o with
  | plan =>
    cases h
    exact ⟨rfl, rfl⟩
  | enter k =>
    dsimp only at h
    split at h
    · cases h
      exact ⟨rfl, rfl⟩
    · cases h
      exact ⟨rfl, rfl⟩
  | refer c =>
    cases h
    exact ⟨rfl, rfl⟩

theorem rekey_toWorld {o : InsertOp β} : (w.rekey i o b).toWorld = w.toWorld := by
  cases o with
  | enter k => cases b <;> rfl
  | _ => rfl

theorem keyedMachine_free {o : KeyedOp β} (hkey : keyBlocked i o s w = false)
    (hfree : ∀ o', o = .inl o' → blocked i o' s w.toWorld = false) :
    ∃ b s' w', keyedMachine.step i o s w = some (b, s', w') := by
  simp only [keyedMachine, hkey, Bool.false_eq_true, if_false]
  cases o with
  | inl o =>
    simp only [registryMachine, hfree o rfl, Bool.false_eq_true, if_false, Option.map_some]
    exact ⟨_, _, _, rfl⟩
  | inr o => cases o with
    | plan => exact ⟨_, _, _, rfl⟩
    | enter k =>
      dsimp only
      split
      · exact ⟨_, _, _, rfl⟩
      · exact ⟨_, _, _, rfl⟩
    | refer c => exact ⟨_, _, _, rfl⟩

end Step

/-! ## The registry below -/

/-- Where a program of the registry stands while its INSERT statements run. -/
inductive Under {ε α : Type} : Prog RegistryOp ε α → Prog KeyedOp ε α → Prop where
  | between (p : Prog RegistryOp ε α) : Under p (withInserts p)
  | entering (k : Except DbError Unit → Prog RegistryOp ε α) (ks : List RowKey) (cs : List Uuid) :
      Under (.op .flush k) (entering ks cs (.op (.inl .flush) fun b => withInserts (k b)))

namespace Under

variable {ε α : Type} {p : Prog RegistryOp ε α}

/-- An operation of the registry is its own. -/
theorem whole {β : Type} {o : RegistryOp β} {f : β → Prog KeyedOp ε α}
    (h : Under p (.op (.inl o) f)) : ∃ k, p = .op o k ∧ ∀ b, Under (k b) (f b) := by
  generalize hq : (.op (.inl o) f : Prog KeyedOp ε α) = q at h
  cases h with
  | between p =>
    cases p with
    | ret a => cases hq
    | raise e => cases hq
    | op o' k =>
      cases o' with
      | flush => cases hq
      | _ =>
        cases hq
        exact ⟨k, rfl, fun b => .between (k b)⟩
  | entering k ks cs =>
    cases ks with
    | cons k ks => cases hq
    | nil => cases cs with
      | cons c cs => cases hq
      | nil =>
        cases hq
        exact ⟨k, rfl, fun b => .between (k b)⟩

/-- A step of an INSERT leaves the program of the registry where it is. -/
theorem insert {β : Type} {o : InsertOp β} {f : β → Prog KeyedOp ε α}
    (h : Under p (.op (.inr o) f)) (b : β) : Under p (f b) := by
  generalize hq : (.op (.inr o) f : Prog KeyedOp ε α) = q at h
  cases h with
  | between p =>
    cases p with
    | ret a => cases hq
    | raise e => cases hq
    | op o' k =>
      cases o' with
      | flush =>
        cases hq
        exact .entering k b.1 b.2
      | _ => cases hq
  | entering k ks cs =>
    cases ks with
    | cons key ks =>
      cases hq
      cases b with
      | true => exact .entering k ks cs
      | false => exact .entering k [] []
    | nil => cases cs with
      | nil => cases hq
      | cons c cs =>
        cases hq
        exact .entering k [] cs

/-- A program that has operations before it has operations above it. -/
theorem op {β : Type} {o : KeyedOp β} {f : β → Prog KeyedOp ε α} (h : Under p (.op o f)) :
    ∃ (γ : Type) (o' : RegistryOp γ) (k : γ → Prog RegistryOp ε α), p = .op o' k := by
  generalize hq : (.op o f : Prog KeyedOp ε α) = q at h
  cases h with
  | between p => cases p with
    | ret a => cases hq
    | raise e => cases hq
    | op o' k => exact ⟨_, o', k, rfl⟩
  | entering k ks cs => exact ⟨_, .flush, k, rfl⟩

end Under

/-- **INSERT statements change nothing but when a request waits**: a run in which they are taken
    apart is a run of the registry, step for step but for theirs. -/
theorem keyed_reaches {db : Db} {reqs : Nat → Incoming}
    {sys : System KeyedOp Session KeyedWorld Exc Response}
    (h : keyedMachine.Reaches Machine.Any (keyedRegistry db reqs) sys) :
    ∃ threads, registryMachine.Reaches Machine.Any (registry db reqs)
        ⟨sys.world.toWorld, threads⟩ ∧
      ∀ j, (threads j).session = sys.sessions j ∧ Under (threads j).prog (sys.threads j).prog := by
  induction h with
  | start => exact ⟨_, .start, fun j => ⟨rfl, .between _⟩⟩
  | @step sys sys' i _ hs _ ih =>
    obtain ⟨threads, hr, hunder⟩ := ih
    obtain ⟨hsession, hprog⟩ := hunder i
    have others : ∀ (t : Thread KeyedOp Session Exc Response) (t' : Thread RegistryOp Session Exc
        Response), t'.session = t.session ∧ Under t'.prog t.prog → ∀ j,
        (Function.update threads i t' j).session = (Function.update sys.threads i t j).session ∧
          Under (Function.update threads i t' j).prog (Function.update sys.threads i t j).prog := by
      intro t t' ht j
      rcases eq_or_ne j i with rfl | hne
      · simpa using ht
      · simpa [System.sessions, Function.update_of_ne hne] using hunder j
    cases hs with
    | @op β o f b s' w' hp hst =>
      rw [hp] at hprog
      cases o with
      | inl o =>
        obtain ⟨k, hk, hnext⟩ := hprog.whole
        obtain ⟨-, hstep, -⟩ := keyedMachine_whole hst
        have hbelow : registryMachine.step i o (threads i).session sys.world.toWorld =
            some (b, s', w'.toWorld) := by
          rw [show (threads i).session = (sys.threads i).session from hsession]
          exact hstep
        have hs : registryMachine.Step ⟨sys.world.toWorld, threads⟩ i
            ⟨w'.toWorld, Function.update threads i ⟨s', k b⟩⟩ := .op hk hbelow
        exact ⟨_, .step hr hs trivial, others _ _ ⟨rfl, hnext b⟩⟩
      | inr o =>
        obtain ⟨-, rfl, rfl⟩ := keyedMachine_insert hst
        refine ⟨threads, ?_, fun j => ?_⟩
        · dsimp only
          rw [rekey_toWorld]
          exact hr
        · have hsame := others ⟨(sys.threads i).session, f b⟩ (threads i)
            ⟨hsession, hprog.insert b⟩ j
          rwa [Function.update_eq_self] at hsame
    | crash hp =>
      rw [hp] at hprog
      obtain ⟨γ, o, k, hk⟩ := hprog.op
      have hs : registryMachine.Step ⟨sys.world.toWorld, threads⟩ i _ := .crash hk
      refine ⟨_, .step hr hs trivial, others _ _ ⟨rfl, ?_⟩⟩
      exact .between (.raise registryMachine.crashed)

end FavlGateway.Registry
