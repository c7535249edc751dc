/-
  What a FOR UPDATE row lock is worth.

  An instance that was loaded under a lock its session still holds shows the row as it is stored:
  nobody else can commit a write to that row.  That is why DELETE, which stages no audit row and so
  has no unique version to stop it, still never overwrites what it has not seen.

  An instance that was in the session BEFORE the lock was taken enjoys no such thing, because
  `session.get` hands it back without reading it again.
-/
import FavlGateway.Registry.Invariants

namespace FavlGateway.Registry

open FavlGateway.Library

/-- The locked instances of session `s`, of request `i`: the lock is held, the values are current. -/
def LocksHeldBy (i : Nat) (w : World) (s : Session) : Prop :=
  ∀ c inst, s.connectors c = some inst → inst.locked = true →
    w.rowLock c = some i ∧ w.db.connector c = some inst.loaded

section Locks

variable {i j : Nat} {s s' : Session} {w w' : World}

/-- A session without locked instances. -/
theorem LocksHeldBy.of_unlocked (h : ∀ c inst, s.connectors c = some inst → inst.locked = false) :
    LocksHeldBy i w s := by
  intro c inst hinst hlocked
  rw [h c inst hinst] at hlocked
  cases hlocked

theorem Session.rolledBack_unlocked (c : Uuid) (inst : Instance ConnectorRecord)
    (h : s.rolledBack.connectors c = some inst) : inst.locked = false := by
  obtain ⟨inst₀, -, rfl⟩ := Option.map_eq_some_iff.mp h
  rfl

theorem Session.fresh_unlocked (c : Uuid) (inst : Instance ConnectorRecord)
    (h : Session.fresh.connectors c = some inst) : inst.locked = false := by cases h

theorem Session.committed_unlocked (c : Uuid) (inst : Instance ConnectorRecord)
    (h : s.committed.connectors c = some inst) : inst.locked = false := by
  simp only [Session.committed] at h
  split at h
  · cases h
    rfl
  · obtain ⟨inst₀, -, rfl⟩ := Option.map_eq_some_iff.mp h
    rfl

/-- The end of another transaction gives up none of this one's locks. -/
theorem World.release_rowLock {c : Uuid} (hne : j ≠ i) (h : w.rowLock c = some j) :
    (World.release i w).rowLock c = some j := by
  simp [World.release, h, hne]

theorem LocksHeldBy.release (hne : j ≠ i) (h : LocksHeldBy j w s) :
    LocksHeldBy j (World.release i w) s := by
  intro c inst hinst hlocked
  obtain ⟨hlock, hrow⟩ := h c inst hinst hlocked
  exact ⟨World.release_rowLock hne hlock, hrow⟩

theorem World.relock_rowLock {β : Type} {o : RegistryOp β} {b : β} {t : Session} {st : Store} :
    (World.relock i { w with toStore := st } o b t).rowLock = (World.relock i w o b t).rowLock := by
  cases o with
  | getConnector id forUpdate => cases forUpdate <;> cases b <;> rfl
  | refreshConnector id => cases b <;> rfl
  | flush => cases b <;> rfl
  | _ => rfl

theorem World.relock_db {β : Type} {o : RegistryOp β} {b : β} {t : Session} {st : Store}
    (h : st.db = w.db) :
    (World.relock i { w with toStore := st } o b t).db = (World.relock i w o b t).db := by
  rw [World.relock_toStore, World.relock_toStore]
  exact h

theorem LocksHeldBy.same (hlock : w'.rowLock = w.rowLock) (hdb : w'.db = w.db)
    (h : LocksHeldBy j w s) : LocksHeldBy j w' s := by
  intro c inst hinst hlocked
  rw [hlock, hdb]
  exact h c inst hinst hlocked

/-- Taking a row lock that nobody else holds. -/
theorem LocksHeldBy.lock {c : Uuid} (hne : j ≠ i) (hfree : heldByOther i (w.rowLock c) = false)
    (h : LocksHeldBy j w s) :
    LocksHeldBy j { w with rowLock := Function.update w.rowLock c (some i) } s := by
  intro c' inst hinst hlocked
  obtain ⟨hlock, hrow⟩ := h c' inst hinst hlocked
  refine ⟨?_, hrow⟩
  have hcc : c' ≠ c := by
    rintro rfl
    rw [hlock] at hfree
    simp [heldByOther, hne] at hfree
  simpa [Function.update_of_ne hcc] using hlock

/-- What another request's operation leaves of this session's locks, its commit aside. -/
theorem LocksHeldBy.others {β : Type} {o : RegistryOp β} {b : β} {t : Session} (hne : j ≠ i)
    (hfree : blocked i o t w = false) (h : LocksHeldBy j w s) :
    LocksHeldBy j (World.relock i w o b t) s := by
  cases o with
  | getConnector c forUpdate =>
    cases forUpdate with
    | false => exact h
    | true => cases b with
      | none => exact h
      | some r => exact h.lock hne hfree
  | refreshConnector c => cases b with
    | none => exact h
    | some r => exact h.lock hne hfree
  | flush => cases b with
    | ok u => exact h.same rfl rfl
    | error e => exact h.release hne
  | commit => exact h.release hne
  | rollback => exact h.release hne
  | close => exact h.release hne
  | _ => exact h

/-- Locks taken once more. -/
theorem LocksHeldBy.relock {c : Uuid} (h : LocksHeldBy i w s) :
    LocksHeldBy i { w with rowLock := Function.update w.rowLock c (some i) } s := by
  intro c' inst hinst hlocked
  obtain ⟨hlock, hrow⟩ := h c' inst hinst hlocked
  refine ⟨?_, hrow⟩
  rcases eq_or_ne c' c with rfl | hcc
  · exact Function.update_self ..
  · simpa [Function.update_of_ne hcc] using hlock

/-- Reading a row: if it is locked, by this request. -/
theorem LocksHeldBy.load {c : Uuid} {locked : Bool} {row : ConnectorRecord}
    (h : LocksHeldBy i w s) (hrow : w.db.connector c = some row)
    (hlock : locked = true → w.rowLock c = some i) :
    LocksHeldBy i w { s with
      connectors := Function.update s.connectors c (some (.ofRow row locked)) } := by
  intro c' inst hinst hlocked
  rcases eq_or_ne c' c with rfl | hne
  · simp only [Function.update_self, Option.some.injEq] at hinst
    subst hinst
    exact ⟨hlock hlocked, hrow⟩
  · simp only [Function.update_of_ne hne] at hinst
    exact h c' inst hinst hlocked

/-- What an operation leaves of its own session's locks, its commit aside. -/
theorem LocksHeldBy.own {β : Type} {o : RegistryOp β} (ho : o.isCommit = false)
    (h : LocksHeldBy i w s) :
    LocksHeldBy i (World.relock i w o (perform i o s w.toStore).1 s)
      (perform i o s w.toStore).2.1 := by
  cases o with
  | commit => cases ho
  | getConnector c forUpdate =>
    simp only [perform]
    split
    · cases forUpdate with
      | false => exact h
      | true => exact h.relock
    · unfold Session.loadConnector
      split
      · rename_i row hrow
        cases forUpdate with
        | false => exact h.load hrow fun h => by cases h
        | true => exact h.relock.load hrow fun _ => Function.update_self ..
      · cases forUpdate <;> exact h
  | refreshConnector c =>
    simp only [perform]
    unfold Session.loadConnector
    split
    · rename_i row hrow
      exact h.relock.load hrow fun _ => Function.update_self ..
    · exact h
  | setConnector r =>
    intro c inst hinst hlocked
    simp only [perform] at hinst
    rcases eq_or_ne c r.id with rfl | hne
    · simp only [Function.update_self, Option.map_eq_some_iff] at hinst
      obtain ⟨inst₀, h₀, rfl⟩ := hinst
      exact h _ inst₀ h₀ hlocked
    · simp only [Function.update_of_ne hne] at hinst
      exact h c inst hinst hlocked
  | flush =>
    simp only [perform]
    split
    · exact LocksHeldBy.same rfl rfl h
    · exact .of_unlocked Session.rolledBack_unlocked
  | rollback => exact .of_unlocked Session.rolledBack_unlocked
  | close => exact .of_unlocked Session.fresh_unlocked
  | getInvocation id =>
    simp only [perform]
    exact fun c inst hinst => h c inst (by rwa [Session.loadInvocation_connectors] at hinst)
  | findExisting tenantId connectorId key =>
    simp only [perform]
    exact fun c inst hinst => h c inst (by rwa [Session.loadInvocation_connectors] at hinst)
  | _ => exact h

/-- A commit that is not blocked leaves the rows others have locked as they are. -/
theorem LocksHeldBy.commit (hne : j ≠ i) (h : LocksHeldBy j w s')
    (hfree : blocked i .commit s w = false) {db' : Db} (hdb : db'.toRows = s.contents w.db) :
    LocksHeldBy j { World.release i w with db := db' } s' := by
  intro c inst hinst hlocked
  obtain ⟨hlock, hrow⟩ := h c inst hinst hlocked
  refine ⟨World.release_rowLock hne hlock, ?_⟩
  obtain ⟨hmem, hid⟩ := lookup_mem hrow
  have hwrite : s.writeConnector inst.loaded = inst.loaded := by
    simp only [blocked, Bool.or_eq_false_iff, List.any_eq_false] at hfree
    have hclean := hfree.2 inst.loaded hmem
    rw [hid, hlock] at hclean
    have hij : heldByOther i (some j) = true := by simp [heldByOther, hne]
    simp only [hij, Bool.and_true, Bool.not_eq_true] at hclean
    unfold Session.writeConnector
    rw [hid]
    cases hs : s.connectors c with
    | none => rfl
    | some inst₀ =>
      rw [hs] at hclean
      have hcur : inst₀.current = inst₀.loaded := by simpa [Instance.dirty] using hclean
      simp only [hcur, ConnectorRecord.merge_clean]
  have hmem' : inst.loaded ∈ db'.connectors := by
    rw [hdb]
    exact List.mem_append_left _ (List.mem_map.mpr ⟨inst.loaded, hmem, hwrite⟩)
  have := Db.connector_of_mem hmem'
  rwa [hid] at this

end Locks

/-- All locked instances are current. -/
def LocksHeld (w : World) (ss : Nat → Session) : Prop := ∀ j, LocksHeldBy j w (ss j)

theorem LocksHeld.update {i : Nat} {s' : Session} {w w' : World} {ss : Nat → Session}
    (h : LocksHeld w ss) (hown : LocksHeldBy i w' s')
    (hothers : ∀ {j s}, j ≠ i → LocksHeldBy j w s → LocksHeldBy j w' s) :
    LocksHeld w' (Function.update ss i s') := by
  intro j
  rcases eq_or_ne j i with rfl | hne
  · rwa [Function.update_self]
  · rw [Function.update_of_ne hne]
    exact hothers hne (h j)

theorem locksHeld_preserved (reqs : Nat → Incoming)
    (C : System RegistryOp Session World Exc Response → Nat →
      System RegistryOp Session World Exc Response → Prop) :
    Preserved registryMachine (fun i => discipline (reqs i)) C LocksHeld where
  op := by
    rintro sys i β o k b s' w' - - hstep - h
    obtain ⟨hperf, hfree, hw'⟩ := registryMachine_step hstep
    rw [Prod.mk.injEq, Prod.mk.injEq] at hperf
    obtain ⟨hb, hs', hst⟩ := hperf
    rw [← hst] at hw'
    rw [hw', ← hs']
    by_cases hcom : o.isCommit = true
    · cases o with
      | commit =>
        rcases perform_commit i (sys.sessions i) sys.world.toStore with ⟨-, heq⟩ | ⟨hvalid, heq⟩
        · simp only [heq]
          exact h.update (.of_unlocked Session.rolledBack_unlocked)
            fun hne hj => hj.release hne
        · simp only [heq]
          exact h.update (.of_unlocked Session.committed_unlocked)
            fun hne hj => hj.commit hne hfree rfl
      | _ => cases hcom
    · rw [Bool.not_eq_true] at hcom
      obtain ⟨hdb, -, -⟩ := perform_refreshed (i := i) hcom (sys.sessions i) sys.world.toStore
      refine h.update ?_ fun hne hj => ?_
      · rw [← hb]
        exact ((h i).own hcom).same World.relock_rowLock (World.relock_db hdb)
      · exact (hj.others hne hfree).same World.relock_rowLock (World.relock_db hdb)
  crash := by
    intro w ss i h
    exact h.update (.of_unlocked Session.fresh_unlocked) fun hne hj => hj.release hne

/-- What the session holds under a lock is what is stored. -/
def Session.LocksCurrent (s : Session) (db : Db) : Prop :=
  ∀ c inst, s.connectors c = some inst → inst.locked = true → db.connector c = some inst.loaded

section Runs

variable {reqs : Nat → Incoming} {db₀ : Db}
  {C : System RegistryOp Session World Exc Response → Nat →
    System RegistryOp Session World Exc Response → Prop}
  {sys : System RegistryOp Session World Exc Response}

theorem reaches_locksHeld (h : registryMachine.Reaches C (registry db₀ reqs) sys) :
    LocksHeld sys.world sys.sessions :=
  h.preserved (registryMachine_implements reqs) (locksHeld_preserved reqs C)
    (registry_disciplined db₀ reqs) fun _ => .of_unlocked Session.fresh_unlocked

/-- In every run, locked instances are current. -/
theorem reaches_locksCurrent (h : registryMachine.Reaches C (registry db₀ reqs) sys) (i : Nat) :
    (sys.sessions i).LocksCurrent sys.world.db :=
  fun c inst hinst hlocked => (reaches_locksHeld h i c inst hinst hlocked).2

end Runs

end FavlGateway.Registry
