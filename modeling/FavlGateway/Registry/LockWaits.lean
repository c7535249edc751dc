/-
  Who holds a row waits for nobody.

  The courtesy of the handlers holds in every run in which their INSERT statements are taken apart
  (`Registry.Inserts`).  What a request holds comes on three levels:

  0. the rows it has locked FOR UPDATE, and the index values of its INSERTs that are through;
  1. of an INSERT under way, the value it enters last and the rows it has locked FOR KEY SHARE;
  2. of an INSERT under way, the primary key it enters first.

  Whoever holds something waits at most for others that hold something of a lower level.  That is
  the form `Library.Progress` asks for: there is no deadlock between requests, a slow provider never
  makes anybody wait, and no lock is left behind.
-/
import FavlGateway.Library.Ghost
import FavlGateway.Registry.Courtesy

namespace FavlGateway.Registry

open FavlGateway.Library

/-! ## What a request holds while it inserts -/

/-- What a request holds, with what its INSERT statements have entered and locked. -/
@[ext]
structure Hand where
  held : Held
  entries : RowKey → Prop
  shares : Uuid → Prop

namespace Hand

def nothing : Hand := ⟨Held.nothing, fun _ => False, fun _ => False⟩

/-- No INSERT statement holds anything. -/
structure Idle (h : Hand) : Prop where
  entries : ∀ k, ¬ h.entries k
  shares : ∀ c, ¬ h.shares c

theorem nothing_idle : nothing.Idle := ⟨fun _ h => h, fun _ h => h⟩

/-- What is held after an operation that answered `b`. -/
def after (h : Hand) : {β : Type} → KeyedOp β → β → Session → Hand
  | _, .inl o, b, s => if o.ends b then nothing else { h with held := h.held.after o b s }
  | _, .inr (.enter k), true, _ => { h with entries := fun k' => k' = k ∨ h.entries k' }
  | _, .inr (.refer c), _, _ => { h with shares := fun c' => c' = c ∨ h.shares c' }
  | _, _, _, _ => h

end Hand

theorem Held.after_of_ends {β : Type} {o : RegistryOp β} {b : β} (hends : o.ends b = true)
    (h : Held) (s : Session) : h.after o b s = Held.nothing := by
  cases o with
  | flush => cases b with
    | ok u => cases hends
    | error e => rfl
  | commit => rfl
  | rollback => rfl
  | close => rfl
  | _ => cases hends

/-- What request `i` holds in the world. -/
def handOf (i : Nat) (w : KeyedWorld) : Hand :=
  ⟨heldBy i w.toWorld, fun k => w.entries k = some i, fun c => (c, i) ∈ w.shares⟩

section World

variable {i j : Nat} {w w' : KeyedWorld} {β : Type} {o : KeyedOp β} {s s' : Session} {b : β}

theorem mem_released {x : Uuid × Nat} {l : List (Uuid × Nat)} :
    x ∈ l.filter (fun x => x.2 ≠ i) ↔ x ∈ l ∧ x.2 ≠ i := by
  rw [List.mem_filter, decide_eq_true_iff]

theorem handOf_unkey {base : World} (hbase : heldBy i base = Held.nothing) :
    handOf i { w.unkey i with toWorld := base } = Hand.nothing := by
  ext1
  · exact hbase
  · funext k
    simp only [handOf, KeyedWorld.unkey, release_eq_some, Hand.nothing, ne_eq, not_true_eq_false,
      false_and]
  · funext c
    simp only [handOf, KeyedWorld.unkey, mem_released, Hand.nothing, ne_eq, not_true_eq_false,
      and_false]

theorem handOf_unkey_of_ne (hne : j ≠ i) {base : World}
    (hbase : heldBy j base = heldBy j w.toWorld) :
    handOf j { w.unkey i with toWorld := base } = handOf j w := by
  ext1
  · exact hbase
  · funext k
    simp only [handOf, KeyedWorld.unkey, release_eq_some, ne_eq, hne, not_false_eq_true, true_and]
  · funext c
    simp only [handOf, KeyedWorld.unkey, mem_released, ne_eq, hne, not_false_eq_true, and_true]

/-- What an operation makes of what its request holds. -/
theorem handOf_own (hst : keyedMachine.step i o s w = some (b, s', w')) :
    handOf i w' = (handOf i w).after o b s := by
  cases o with
  | inl o =>
    obtain ⟨-, hstep, hw⟩ := keyedMachine_whole hst
    obtain ⟨-, -, hbase⟩ := registryMachine_step hstep
    have hheld : heldBy i w'.toWorld = (heldBy i w.toWorld).after o b s := by
      rw [hbase]
      exact heldBy_relock o b _ _
    simp only [Hand.after]
    rw [hw]
    split
    · rename_i hends
      rw [Held.after_of_ends hends] at hheld
      exact handOf_unkey hheld
    · exact Hand.ext hheld rfl rfl
  | inr o =>
    obtain ⟨-, -, rfl⟩ := keyedMachine_insert hst
    cases o with
    | plan => rfl
    | enter k => cases b with
      | false => rfl
      | true =>
        refine Hand.ext rfl ?_ rfl
        funext k'
        rcases eq_or_ne k' k with rfl | hne
        · simp [handOf, KeyedWorld.rekey, Hand.after]
        · simp [handOf, KeyedWorld.rekey, Hand.after, hne]
    | refer c =>
      refine Hand.ext rfl rfl ?_
      funext c'
      simp [handOf, KeyedWorld.rekey, Hand.after, or_comm]

/-- It leaves what the others hold as it is. -/
theorem handOf_other (hne : j ≠ i) (hst : keyedMachine.step i o s w = some (b, s', w')) :
    handOf j w' = handOf j w := by
  cases o with
  | inl o =>
    obtain ⟨-, hstep, hw⟩ := keyedMachine_whole hst
    obtain ⟨-, hfree, hbase⟩ := registryMachine_step hstep
    have hheld : heldBy j w'.toWorld = heldBy j w.toWorld := by
      rw [hbase]
      exact heldBy_relock_of_ne hne hfree _ _
    rw [hw]
    split
    · exact handOf_unkey_of_ne hne hheld
    · exact Hand.ext hheld rfl rfl
  | inr o =>
    obtain ⟨hfree, -, rfl⟩ := keyedMachine_insert hst
    cases o with
    | plan => rfl
    | enter k => cases b with
      | false => rfl
      | true =>
        refine Hand.ext rfl ?_ rfl
        funext k'
        rcases eq_or_ne k' k with rfl | hk
        · -- it was nobody else's value
          have hown : w.entries k' ≠ some j := by
            intro hj
            simp [keyBlocked, hj, heldByOther, hne] at hfree
          simp [handOf, KeyedWorld.rekey, hown, hne.symm]
        · simp [handOf, KeyedWorld.rekey, hk]
    | refer c =>
      refine Hand.ext rfl rfl ?_
      funext c'
      simp [handOf, KeyedWorld.rekey, hne]

theorem handOf_abort : handOf i (keyedMachine.abort i s w) = Hand.nothing :=
  handOf_unkey heldBy_release

theorem handOf_abort_of_ne (hne : j ≠ i) : handOf j (keyedMachine.abort i s w) = handOf j w :=
  handOf_unkey_of_ne hne (heldBy_release_of_ne hne)

end World

/-! ## What a request may await while it inserts -/

/-- A request inserts while it holds nothing else: it enters the primary key first, the other value
    last, and then refers to connectors.  Else it holds no more than its transaction does. -/
def Careful (h : Hand) : {β : Type} → KeyedOp β → Session → Prop
  | _, .inl .flush, s => ¬ h.held.Some ∧ s.AddsOne
  | _, .inl o, s => (h.held.Some → Unhindered h.held o s) ∧ Modest h.held o s ∧
      (h.held.Some ∨ h.Idle)
  | _, .inr .plan, _ => h.Idle
  | _, .inr (.enter k), _ => ¬ h.held.Some ∧ k.isAudit = false ∧
      (∀ k', h.entries k' → k'.isPrimary = true ∧ k.isPrimary = false) ∧ ∀ c, ¬ h.shares c
  | _, .inr (.refer _), _ => ¬ h.held.Some

/-- What an operation makes of the session. -/
def KeyedEffect : {β : Type} → KeyedOp β → Session → β → Session → Prop
  | _, .inl o, s, b, s' => Effect o s b s'
  | _, .inr .plan, s, b, s' => b = (s.pending.keys, s.references) ∧ s' = s
  | _, .inr _, s, _, s' => s' = s

def careful : Discipline KeyedOp (Session × Hand) where
  pre o x := Careful x.2 o x.1
  eff o x b x' := KeyedEffect o x.1 b x'.1 ∧ x'.2 = x.2.after o b x.1

/-- Between statements, INSERTs hold something only for a transaction that holds their values. -/
def Hand.Backed (h : Hand) : Prop := h.held.Some ∨ h.Idle

section Walk

variable {α : Type} {s : Session} {h : Hand} {rest : Prog KeyedOp Exc α}
  {Q : Except Exc α → Session × Hand → Prop}

theorem referring_careful (cs : List Uuid) (hheld : ¬ h.held.Some)
    (hrest : ∀ shares, rest.Obeys careful Q (s, { h with shares := shares })) :
    (referring cs rest).Obeys careful Q (s, h) := by
  induction cs generalizing h with
  | nil => exact hrest h.shares
  | cons c cs ih =>
    refine ⟨hheld, ?_⟩
    rintro ⟨⟩ ⟨s', h'⟩ ⟨hs', rfl⟩
    obtain rfl : s' = s := hs'
    exact ih hheld fun shares => hrest shares

theorem not_audit_of_isPrimary {k : RowKey} (h : k.isPrimary = true) : k.isAudit = false := by
  cases k with
  | auditVersion => cases h
  | _ => rfl

/-- The INSERT of one row. -/
theorem entering_careful {key value : RowKey} (cs : List Uuid) (hheld : ¬ h.held.Some)
    (hidle : h.Idle) (hkey : key.isPrimary = true) (hvalue : value.isPrimary = false)
    (haudit : value.isAudit = false)
    (hrest : ∀ entries shares, rest.Obeys careful Q (s, ⟨h.held, entries, shares⟩)) :
    (entering [key, value] cs rest).Obeys careful Q (s, h) := by
  refine ⟨⟨hheld, not_audit_of_isPrimary hkey, fun k hk => (hidle.entries k hk).elim,
    hidle.shares⟩, ?_⟩
  rintro entered ⟨s', h'⟩ ⟨hs', rfl⟩
  obtain rfl : s' = s := hs'
  cases entered with
  | false => exact hrest h.entries h.shares
  | true =>
    refine ⟨⟨hheld, haudit, ?_, hidle.shares⟩, ?_⟩
    · rintro k (rfl | hk)
      · exact ⟨hkey, hvalue⟩
      · exact (hidle.entries k hk).elim
    rintro entered ⟨s'', h''⟩ ⟨hs'', rfl⟩
    obtain rfl : s'' = s' := hs''
    cases entered with
    | false => exact hrest _ _
    | true => exact referring_careful cs hheld fun shares => hrest _ shares

/-- What a transaction holds it holds until its end. -/
theorem Held.Some.after {β : Type} {o : RegistryOp β} {b : β} {h : Held} (hsome : h.Some)
    (hends : o.ends b = false) (s : Session) : (h.after o b s).Some := by
  have hrow : ∀ c, Held.Some { h with rows := fun c' => c' = c ∨ h.rows c' } :=
    fun c => .inl ⟨c, .inl rfl⟩
  cases o with
  | getConnector id forUpdate => cases forUpdate with
    | false => exact hsome
    | true => cases b with
      | none => exact hsome
      | some r => exact hrow id
  | refreshConnector id => cases b with
    | none => exact hsome
    | some r => exact hrow id
  | flush => cases b with
    | error e => cases hends
    | ok u => exact hsome.imp_right .inl
  | commit => cases hends
  | rollback => cases hends
  | close => cases hends
  | _ => exact hsome

theorem Hand.Backed.after {β : Type} {o : RegistryOp β} (hback : h.Backed) (b : β) (s : Session) :
    (h.after (.inl o) b s).Backed := by
  cases hends : o.ends b with
  | true =>
    simp only [Hand.after, hends, if_true]
    exact .inr Hand.nothing_idle
  | false =>
    simp only [Hand.after, hends, Bool.false_eq_true, if_false]
    exact hback.imp (fun hsome => hsome.after hends s) fun hidle => ⟨hidle.entries, hidle.shares⟩

theorem Hand.after_held {β : Type} (o : RegistryOp β) (b : β) (s : Session) :
    (h.after (.inl o) b s).held = h.held.after o b s := by
  cases hends : o.ends b with
  | true =>
    simp only [Hand.after, hends, if_true, Held.after_of_ends hends]
    rfl
  | false => simp only [Hand.after, hends, Bool.false_eq_true, if_false]

/-- The end of a flush: the values are the transaction's. -/
theorem Hand.backed_flush (hadds : s.AddsOne) (b : Except DbError Unit) :
    (h.after (.inl .flush) b s).Backed := by
  cases b with
  | error e => exact .inr Hand.nothing_idle
  | ok u =>
    obtain ⟨key, value, hkeys, -⟩ := hadds
    refine .inl (.inr (.inr ?_))
    rw [hkeys]
    exact List.cons_ne_nil _ _

/-- **A courteous program inserts carefully**, and at its end its INSERTs hold something only for a
    transaction. -/
theorem withInserts_careful {p : Handler α} {Q : Except Exc α → Session × Held → Prop}
    (hp : p.Obeys courteous Q (s, h.held)) (hback : h.Backed) :
    (withInserts p).Obeys careful (fun r x => Q r (x.1, x.2.held) ∧ x.2.Backed) (s, h) := by
  induction p generalizing s h with
  | ret a => exact ⟨hp, hback⟩
  | raise e => exact ⟨hp, hback⟩
  | @op β o k ih =>
    obtain ⟨⟨hunhindered, hmodest⟩, hrest⟩ := hp
    have next : ∀ (h' : Hand) (b : β) (s' : Session), h'.held = h.held → Effect o s b s' →
        (h'.after (.inl o) b s).Backed → (withInserts (k b)).Obeys careful
          (fun r x => Q r (x.1, x.2.held) ∧ x.2.Backed) (s', h'.after (.inl o) b s) := by
      intro h' b s' hheld heff hback'
      refine ih b ?_ hback'
      rw [Hand.after_held, hheld]
      exact hrest b (s', h.held.after o b s) ⟨heff, rfl⟩
    cases o with
    | flush =>
      have hheld : ¬ h.held.Some := fun hsome => hunhindered hsome
      have hidle : h.Idle := hback.resolve_left hheld
      refine ⟨hidle, ?_⟩
      rintro ⟨ks, cs⟩ ⟨s', h'⟩ ⟨⟨hrows, hs'⟩, rfl⟩
      obtain rfl : s' = s := hs'
      obtain ⟨key, value, hkeys, hkey, hvalue, haudit⟩ := hmodest
      obtain ⟨rfl, rfl⟩ : ks = s'.pending.keys ∧ cs = s'.references := Prod.mk.inj hrows
      rw [hkeys]
      refine entering_careful _ hheld hidle hkey hvalue haudit fun entries shares => ?_
      have hadds : s'.AddsOne := ⟨key, value, hkeys, hkey, hvalue, haudit⟩
      refine ⟨⟨hheld, hadds⟩, ?_⟩
      rintro b ⟨s'', h''⟩ ⟨heff, rfl⟩
      exact next _ b s'' rfl heff (Hand.backed_flush hadds b)
    | _ =>
      refine ⟨⟨hunhindered, hmodest, hback⟩, ?_⟩
      rintro b ⟨s', h'⟩ ⟨heff, rfl⟩
      exact next h b s' rfl heff (hback.after b s)

end Walk

/-! ## In every run -/

section Runs

variable {reqs : Nat → Incoming} {db₀ : Db} {i j : Nat}
  {sys : System KeyedOp Session KeyedWorld Exc Response}

/-- Every request stays careful. -/
theorem reaches_careful (h : keyedMachine.Reaches Machine.Any (keyedRegistry db₀ reqs) sys)
    (i : Nat) : (sys.threads i).prog.Obeys careful
      (fun _ x => x.2.held = Held.nothing ∧ x.2.Backed)
      (sys.sessions i, handOf i sys.world) := by
  refine h.obeys_view (handOf i) ?_ ?_ ?_ ?_
  · intro sys _ j sys' hne hs
    cases hs with
    | op hp hst => exact handOf_other hne.symm hst
    | crash hp => exact handOf_abort_of_ne hne.symm
  · intro sys _ β o b s' w' hst
    refine ⟨?_, handOf_own hst⟩
    cases o with
    | inl o =>
      obtain ⟨-, hstep, -⟩ := keyedMachine_whole hst
      obtain ⟨hperform, -, -⟩ := registryMachine_step hstep
      exact ⟨i, sys.world.toStore, by rw [hperform], by rw [hperform]⟩
    | inr o =>
      obtain ⟨-, rfl, -⟩ := keyedMachine_insert hst
      cases o with
      | plan =>
        simp only [keyedMachine] at hst
        split at hst
        · cases hst
        · cases hst
          exact ⟨rfl, rfl⟩
      | enter k => rfl
      | refer c => rfl
  · intro s w
    rw [handOf_abort]
    exact ⟨rfl, .inr Hand.nothing_idle⟩
  · have hnothing : handOf i (keyedRegistry db₀ reqs).world = Hand.nothing := by
      refine Hand.ext (Held.ext ?_ ?_) ?_ ?_
      · simp [handOf, heldBy, keyedRegistry, Hand.nothing, Held.nothing]
      · simp [handOf, heldBy, keyedRegistry, Hand.nothing, Held.nothing]
      · simp [handOf, keyedRegistry, Hand.nothing]
      · simp [handOf, keyedRegistry, Hand.nothing]
    rw [hnothing]
    exact withInserts_careful (h := Hand.nothing) (program_courteous (reqs i))
      (.inr Hand.nothing_idle)

/-- No open transaction has inserted a version of an audit trail. -/
theorem keyLock_not_audit (h : keyedMachine.Reaches Machine.Any (keyedRegistry db₀ reqs) sys)
    {k : RowKey} (hk : k.isAudit = true) : sys.world.keyLock k = none := by
  induction h with
  | start => rfl
  | @step sys sys' i hr hs _ ih =>
    have hrelease : (sys.world.toWorld.release i).keyLock k = none := by
      simp [World.release, ih]
    cases hs with
    | crash hp => exact hrelease
    | @op β o f b s' w' hp hst =>
      cases o with
      | inr o =>
        obtain ⟨-, -, rfl⟩ := keyedMachine_insert hst
        dsimp only
        rw [rekey_toWorld]
        exact ih
      | inl o =>
        obtain ⟨-, hstep, -⟩ := keyedMachine_whole hst
        obtain ⟨-, -, hw⟩ := registryMachine_step hstep
        show w'.toWorld.keyLock k = none
        rw [hw]
        cases o with
        | getConnector id forUpdate => cases forUpdate <;> cases b <;> exact ih
        | refreshConnector id => cases b <;> exact ih
        | flush => cases b with
          | error e => exact hrelease
          | ok u =>
            have hpre := reaches_careful hr i
            rw [hp] at hpre
            obtain ⟨-, key, value, hkeys, hkey, -, haudit⟩ := hpre.1
            have hfree : k ∉ (sys.sessions i).pending.keys := by
              rw [hkeys, List.mem_pair]
              rintro (rfl | rfl)
              · rw [not_audit_of_isPrimary hkey] at hk
                cases hk
              · rw [hk] at haudit
                cases haudit
            simp only [World.relock]
            exact (if_neg hfree).trans ih
        | commit => exact hrelease
        | rollback => exact hrelease
        | close => exact hrelease
        | _ => exact ih

/-- And none enters one. -/
theorem entries_not_audit (h : keyedMachine.Reaches Machine.Any (keyedRegistry db₀ reqs) sys)
    {k : RowKey} (hk : k.isAudit = true) : sys.world.entries k = none := by
  induction h with
  | start => rfl
  | @step sys sys' i hr hs _ ih =>
    have hunkey : (sys.world.unkey i).entries k = none := by
      simp [KeyedWorld.unkey, ih]
    cases hs with
    | crash hp => exact hunkey
    | @op β o f b s' w' hp hst =>
      show w'.entries k = none
      cases o with
      | inl o =>
        obtain ⟨-, -, hw⟩ := keyedMachine_whole hst
        rw [hw]
        split
        · exact hunkey
        · exact ih
      | inr o =>
        have hpre := reaches_careful hr i
        rw [hp] at hpre
        obtain ⟨-, -, rfl⟩ := keyedMachine_insert hst
        cases o with
        | enter k' => cases b with
          | false => exact ih
          | true =>
            have haudit : k'.isAudit = false := hpre.1.2.1
            have hne : k ≠ k' := by
              rintro rfl
              rw [hk] at haudit
              cases haudit
            exact (Function.update_of_ne hne _ _).trans ih
        | _ => exact ih

/-- No connector that is locked FOR UPDATE is locked FOR KEY SHARE by another request. -/
theorem shares_apart (h : keyedMachine.Reaches Machine.Any (keyedRegistry db₀ reqs) sys)
    {c : Uuid} (hshare : (c, j) ∈ sys.world.shares) (hlock : sys.world.rowLock c = some i) :
    i = j := by
  induction h generalizing i with
  | start => cases hshare
  | @step sys sys' l hr hs _ ih =>
    have hreleased : ∀ {w : World}, w.rowLock = sys.world.rowLock →
        (w.release l).rowLock c = some i → (c, j) ∈ sys.world.shares → i = j := by
      intro w hw hlock hshare
      have hlock : (if w.rowLock c = some l then none else w.rowLock c) = some i := hlock
      rw [release_eq_some, hw] at hlock
      exact ih hshare hlock.2
    cases hs with
    | crash hp => exact hreleased rfl hlock (mem_released.mp hshare).1
    | @op β o f b s' w' hp hst =>
      cases o with
      | inl o =>
        obtain ⟨hkey, hstep, hw⟩ := keyedMachine_whole hst
        obtain ⟨-, -, hbase⟩ := registryMachine_step hstep
        have hold : (c, j) ∈ sys.world.shares := by
          have hshare : (c, j) ∈ w'.shares := hshare
          rw [hw] at hshare
          split at hshare
          · exact (mem_released.mp hshare).1
          · exact hshare
        have hlock : w'.toWorld.rowLock c = some i := hlock
        -- a row is locked FOR UPDATE if no other request has it FOR KEY SHARE
        have hlocked : ∀ id, sys.world.sharedByOther l id = false →
            Function.update sys.world.rowLock id (some l) c = some i → i = j := by
          intro id hfree hlock
          rcases eq_or_ne c id with rfl | hne
          · rw [Function.update_self, Option.some.injEq] at hlock
            subst hlock
            simp only [KeyedWorld.sharedByOther, List.any_eq_false, decide_eq_true_eq, not_and,
              not_not] at hfree
            exact (hfree _ hold rfl).symm
          · rw [Function.update_of_ne hne] at hlock
            exact ih hold hlock
        rw [hbase] at hlock
        cases o with
        | getConnector id forUpdate => cases forUpdate with
          | false => exact ih hold hlock
          | true => cases b with
            | none => exact ih hold hlock
            | some r => exact hlocked id hkey hlock
        | refreshConnector id => cases b with
          | none => exact ih hold hlock
          | some r => exact hlocked id hkey hlock
        | flush => cases b with
          | ok u => exact ih hold hlock
          | error e => exact hreleased rfl hlock hold
        | commit => exact hreleased rfl hlock hold
        | rollback => exact hreleased rfl hlock hold
        | close => exact hreleased rfl hlock hold
        | _ => exact ih hold hlock
      | inr o =>
        obtain ⟨hfree, -, rfl⟩ := keyedMachine_insert hst
        cases o with
        | plan => exact ih hshare hlock
        | enter k => cases b with
          | false => exact ih hshare hlock
          | true => exact ih hshare hlock
        | refer c' =>
          rcases List.mem_append.mp hshare with hold | hnew
          · exact ih hold hlock
          · cases List.mem_singleton.mp hnew
            have hlock : sys.world.rowLock c = some i := hlock
            simpa [keyBlocked, hlock, heldByOther] using hfree

end Runs

/-! ## Levels -/

/-- What is held on a level. -/
def Hand.Level (h : Hand) : Nat → Prop
  | 0 => h.held.Some
  | 1 => (∃ k, h.entries k ∧ k.isPrimary = false) ∨ ∃ c, h.shares c
  | _ => ∃ k, h.entries k

/-- Request `j` holds something of level `n`. -/
def KeyedWorld.Holds (w : KeyedWorld) (n j : Nat) : Prop := (handOf j w).Level n

/-- The operation is a call that leaves the service. -/
def callsOut : {β : Type} → KeyedOp β → Bool
  | _, .inl o => o.isCall
  | _, .inr _ => false

theorem Hand.Idle.not_level {h : Hand} (hidle : h.Idle) (hheld : ¬ h.held.Some) (n : Nat) :
    ¬ h.Level n := by
  rcases n with _ | _ | n
  · exact hheld
  · rintro (⟨k, hk, -⟩ | ⟨c, hc⟩)
    · exact hidle.entries k hk
    · exact hidle.shares c hc
  · rintro ⟨k, hk⟩
    exact hidle.entries k hk

theorem heldByOther_self (i : Nat) : heldByOther i (some i) = false := by simp [heldByOther]

theorem holder_of_heldByOther {i : Nat} {lock : Option Nat} (h : heldByOther i lock = true) :
    ∃ j, j ≠ i ∧ lock = some j := by
  cases lock with
  | none => cases h
  | some j => exact ⟨j, by simpa [heldByOther] using h, rfl⟩

section KeyedRuns

variable {reqs : Nat → Incoming} {db₀ : Db} {i : Nat}
  {sys : System KeyedOp Session KeyedWorld Exc Response}

/-- A transaction that holds something goes on, within the service. -/
theorem transaction_unhindered
    (h : keyedMachine.Reaches Machine.Any (keyedRegistry db₀ reqs) sys) {β : Type}
    {o : RegistryOp β} (hfree : Unhindered (heldBy i sys.world.toWorld) o (sys.sessions i)) :
    o.isCall = false ∧ blocked i o (sys.sessions i) sys.world.toWorld = false ∧
      keyBlocked i (.inl o) (sys.sessions i) sys.world = false := by
  have hunshared : ∀ c, sys.world.rowLock c = some i → sys.world.sharedByOther i c = false := by
    intro c hc
    simp only [KeyedWorld.sharedByOther, List.any_eq_false, decide_eq_true_eq, not_and, not_not]
    rintro ⟨c', j⟩ hx rfl
    exact (shares_apart h hx hc).symm
  cases o with
  | getConnector id forUpdate => cases forUpdate with
    | false => exact ⟨rfl, rfl, rfl⟩
    | true =>
      have hlock : sys.world.rowLock id = some i := hfree
      refine ⟨rfl, ?_, hunshared id hlock⟩
      simp only [blocked, hlock, heldByOther_self]
  | refreshConnector id =>
    have hlock : sys.world.rowLock id = some i := hfree
    refine ⟨rfl, ?_, hunshared id hlock⟩
    simp only [blocked, hlock, heldByOther_self]
  | flush => exact hfree.elim
  | callAdapter c => exact hfree.elim
  | commit =>
    obtain ⟨haudit, hdirty, hrefs⟩ := hfree
    refine ⟨rfl, ?_, ?_⟩
    · simp only [blocked, Bool.or_eq_false_iff, List.any_eq_false]
      refine ⟨fun k hk => ?_, fun r _ => ?_⟩
      · have hnone : sys.world.keyLock k = none := keyLock_not_audit h (haudit k hk)
        rw [hnone]
        simp [heldByOther]
      · cases hinst : (sys.sessions i).connectors r.id with
        | none => simp
        | some inst =>
          by_cases hd : inst.dirty = true
          · have hlock : sys.world.rowLock r.id = some i := hdirty r.id inst hinst hd
            simp [hlock, heldByOther_self]
          · simp [hd]
    · simp only [keyBlocked, Bool.or_eq_false_iff, List.any_eq_false]
      refine ⟨fun k hk => ?_, fun c hc => ?_⟩
      · have hnone : sys.world.entries k = none := entries_not_audit h (haudit k hk)
        rw [hnone]
        simp [heldByOther]
      · have hlock : sys.world.rowLock c = some i := hrefs c hc
        simp [hlock, heldByOther_self]
  | _ => exact ⟨rfl, rfl, rfl⟩

/-- Whoever holds something goes on within the service, or waits for another who holds something of
    a lower level. -/
theorem holder_waits (h : keyedMachine.Reaches Machine.Any (keyedRegistry db₀ reqs) sys) {n : Nat}
    (hholds : sys.world.Holds n i) :
    ∃ (β : Type) (o : KeyedOp β) (k : β → Prog KeyedOp Exc Response),
      (sys.threads i).prog = .op o k ∧ callsOut o = false ∧
        ((∃ b s' w', keyedMachine.step i o (sys.sessions i) sys.world = some (b, s', w')) ∨
          ∃ m, m < n ∧ ∃ j, j ≠ i ∧ sys.world.Holds m j) := by
  have hcareful := reaches_careful h i
  have hended : ¬ ((handOf i sys.world).held = Held.nothing ∧ (handOf i sys.world).Backed) := by
    rintro ⟨hnothing, hback⟩
    have hheld : ¬ (handOf i sys.world).held.Some := by
      rw [hnothing]
      exact Held.nothing_some
    exact (hback.resolve_left hheld).not_level hheld n hholds
  cases hp : (sys.threads i).prog with
  | ret response =>
    rw [hp] at hcareful
    exact absurd hcareful hended
  | raise e =>
    rw [hp] at hcareful
    exact absurd hcareful hended
  | @op β o k =>
    rw [hp] at hcareful
    have hpre : Careful (handOf i sys.world) o (sys.sessions i) := hcareful.1
    refine ⟨β, o, k, rfl, ?_⟩
    by_cases hsome : (handOf i sys.world).held.Some
    · -- level 0: the transaction holds something
      have hwhole : ∀ o' : RegistryOp β, o = .inl o' →
          Unhindered (handOf i sys.world).held o' (sys.sessions i) := by
        rintro o' rfl
        cases o' with
        | flush => exact absurd hsome hpre.1
        | _ => exact hpre.1 hsome
      cases o with
      | inl o =>
        obtain ⟨hcall, hfree, hkey⟩ := transaction_unhindered h (hwhole o rfl)
        refine ⟨hcall, .inl (keyedMachine_free hkey fun o' heq => ?_)⟩
        cases heq
        exact hfree
      | inr o => cases o with
        | plan => exact ⟨rfl, .inl (keyedMachine_free rfl fun o' heq => by cases heq)⟩
        | enter k => exact absurd hsome hpre.1
        | refer c => exact absurd hsome hpre
    · -- the INSERTs of a flush hold something
      have hbusy : ¬ (handOf i sys.world).Idle := fun hidle => hidle.not_level hsome n hholds
      have hpos : 0 < n := by
        refine Nat.pos_of_ne_zero ?_
        rintro rfl
        exact hsome hholds
      cases o with
      | inl o => cases o with
        | flush =>
          refine ⟨rfl, ?_⟩
          cases hblocked : blocked i .flush (sys.sessions i) sys.world.toWorld with
          | false =>
            refine .inl (keyedMachine_free rfl fun o' heq => ?_)
            cases heq
            exact hblocked
          | true =>
            obtain ⟨key, -, hkey⟩ := List.any_eq_true.mp hblocked
            obtain ⟨j, hne, hj⟩ := holder_of_heldByOther hkey
            exact .inr ⟨0, hpos, j, hne, .inr ⟨key, hj⟩⟩
        | _ => exact absurd (hpre.2.2.resolve_left hsome) hbusy
      | inr o => cases o with
        | plan => exact absurd hpre hbusy
        | enter key =>
          refine ⟨rfl, ?_⟩
          obtain ⟨-, -, hentries, hshares⟩ := hpre
          cases hblocked : heldByOther i (sys.world.entries key) with
          | false => exact .inl (keyedMachine_free hblocked fun o' heq => by cases heq)
          | true =>
            obtain ⟨j, hne, hj⟩ := holder_of_heldByOther hblocked
            rcases n with _ | _ | n
            · exact absurd hpos (Nat.lt_irrefl 0)
            · -- on level 1 all values are entered
              rcases hholds with ⟨k', hk', hlast⟩ | ⟨c, hc⟩
              · rw [(hentries k' hk').1] at hlast
                cases hlast
              · exact absurd hc (hshares c)
            · obtain ⟨k', hk'⟩ := hholds
              have hlevel : sys.world.Holds 1 j := .inl ⟨key, hj, (hentries k' hk').2⟩
              exact .inr ⟨1, Nat.succ_lt_succ (Nat.succ_pos n), j, hne, hlevel⟩
        | refer c =>
          refine ⟨rfl, ?_⟩
          cases hblocked : heldByOther i (sys.world.rowLock c) with
          | false => exact .inl (keyedMachine_free hblocked fun o' heq => by cases heq)
          | true =>
            obtain ⟨j, hne, hj⟩ := holder_of_heldByOther hblocked
            exact .inr ⟨0, hpos, j, hne, .inl ⟨c, hj⟩⟩

/-- The registry locks in an orderly way. -/
theorem keyed_orderly (db₀ : Db) (reqs : Nat → Incoming) :
    keyedMachine.Orderly 3 (fun n w j => w.Holds n j) (keyedRegistry db₀ reqs) where
  start n j := by
    refine Hand.Idle.not_level ⟨fun k hk => ?_, fun c hc => ?_⟩ ?_ n
    · cases hk
    · cases hc
    · rintro (⟨c, hc⟩ | ⟨k, hk⟩)
      · cases hc
      · cases hk
  step hst n j hne hj := by
    rwa [KeyedWorld.Holds, handOf_other hne hst] at hj
  abort i s w n j hj := by
    rcases eq_or_ne j i with rfl | hne
    · rw [KeyedWorld.Holds, handOf_abort] at hj
      exact absurd hj (Hand.nothing_idle.not_level Held.nothing_some n)
    · rwa [KeyedWorld.Holds, handOf_abort_of_ne hne] at hj
  holder sys h n hn j hj hbelow := by
    obtain ⟨β, o, k, hp, -, hstep | ⟨m, hm, i, hne, hi⟩⟩ := holder_waits h hj
    · exact ⟨β, o, k, hp, hstep⟩
    · exact absurd hi (hbelow m hm i hne)
  free {i β} o s w hfree := by
    have hrow : ∀ c, w.rowLock c = none := fun c => by
      cases hc : w.rowLock c with
      | none => rfl
      | some j => exact (hfree 0 (by decide) j (.inl ⟨c, hc⟩)).elim
    have hvalue : ∀ k, w.keyLock k = none := fun k => by
      cases hk : w.keyLock k with
      | none => rfl
      | some j => exact (hfree 0 (by decide) j (.inr ⟨k, hk⟩)).elim
    have hentry : ∀ k, w.entries k = none := fun k => by
      cases hk : w.entries k with
      | none => rfl
      | some j => exact (hfree 2 (by decide) j ⟨k, hk⟩).elim
    have hshares : ∀ c, w.sharedByOther i c = false := by
      intro c
      simp only [KeyedWorld.sharedByOther, List.any_eq_false]
      exact fun x hx => (hfree 1 (by decide) x.2 (.inr ⟨x.1, hx⟩)).elim
    refine keyedMachine_free ?_ fun o' heq => ?_
    · cases o with
      | inl o => cases o with
        | getConnector id forUpdate => cases forUpdate with
          | false => rfl
          | true => exact hshares id
        | refreshConnector id => exact hshares id
        | commit => simp [keyBlocked, heldByOther, hrow, hentry]
        | _ => rfl
      | inr o => cases o <;> simp [keyBlocked, heldByOther, hrow, hentry]
    · subst heq
      cases o' with
      | getConnector id forUpdate => cases forUpdate <;> simp [blocked, heldByOther, hrow]
      | refreshConnector id => simp [blocked, heldByOther, hrow]
      | flush => simp [blocked, heldByOther, hvalue]
      | commit => simp [blocked, heldByOther, hvalue, hrow]
      | _ => rfl

/-- **Locks are held briefly**: in every reachable state, whoever holds something has not ended, does
    not call an adapter, and is not waiting, unless another holds something of a lower level; so
    nobody waits who has locked a row or whose INSERTs are through.  And nobody can be waiting for
    ever: every request whose process is alive can be brought to its answer, while nobody else moves
    but requests that hold something. -/
theorem locks_held_briefly (reqs : Nat → Incoming) (db₀ : Db)
    {sys : System KeyedOp Session KeyedWorld Exc Response}
    (h : keyedMachine.Reaches Machine.Any (keyedRegistry db₀ reqs) sys) (i : Nat) :
    (∀ n, sys.world.Holds n i →
      ∃ (β : Type) (o : KeyedOp β) (k : β → Prog KeyedOp Exc Response),
        (sys.threads i).prog = .op o k ∧ callsOut o = false ∧
          ((∃ b s' w', keyedMachine.step i o (sys.sessions i) sys.world = some (b, s', w')) ∨
            ∃ m, m < n ∧ ∃ j, j ≠ i ∧ sys.world.Holds m j)) ∧
    ((sys.threads i).prog = .raise .crashed ∨ ∃ turns response,
      keyedMachine.Allows (fun now j => j = i ∨ ∃ n, now.world.Holds n j) turns sys ∧
        ((keyedMachine.schedule turns sys).threads i).prog = .ret response) := by
  refine ⟨fun n hholds => holder_waits h hholds, ?_⟩
  have hstart : ∀ j, ((keyedRegistry db₀ reqs).threads j).prog.Returns := fun j =>
    withInserts_returns (Prog.Returns.tryCatch_ret _ Exc.respond)
  rcases h.returns hstart i with hcrashed | hreturns
  · exact .inl hcrashed
  · exact .inr (h.can_return (keyed_orderly db₀ reqs) hreturns)

end KeyedRuns

/-- A connector is created in service; request 1 invokes it, and everybody else disables it. -/
def disabledByAll : Nat → Incoming
  | 0 => sampleEnabled
  | 1 => ⟨sampleEnv 10, .invokeConnectorV1 sampleCaller 0 sampleInvocation none none⟩
  | n => ⟨sampleEnv (10 * n), .disableConnector sampleCaller 0 (some sampleReason)⟩

set_option maxRecDepth 10000 in
/-- The invocation has entered its idempotency key and waits to refer to the connector, which
    request 2 has locked.  Request 2 waits for nobody, and the invocation will be answered. -/
theorem locks_held_briefly_disabledByAll :
    let sys := keyedMachine.schedule (List.replicate 10 0 ++ List.replicate 6 1 ++ [2])
      (keyedRegistry Db.empty disabledByAll)
    sys.world.Holds 1 1 ∧ heldByOther 1 (sys.world.rowLock 0) = true ∧
      (∃ (β : Type) (o : KeyedOp β) (k : β → Prog KeyedOp Exc Response),
        (sys.threads 2).prog = .op o k ∧ callsOut o = false ∧
          ∃ b s' w', keyedMachine.step 2 o (sys.sessions 2) sys.world = some (b, s', w')) ∧
      ((sys.threads 1).prog = .raise .crashed ∨ ∃ turns response,
        keyedMachine.Allows (fun now j => j = 1 ∨ ∃ n, now.world.Holds n j) turns sys ∧
          ((keyedMachine.schedule turns sys).threads 1).prog = .ret response) := by
  intro sys
  have hreach : keyedMachine.Reaches Machine.Any (keyedRegistry Db.empty disabledByAll) sys :=
    Machine.reaches_schedule _ _
  obtain ⟨hentry, hlock⟩ :
      sys.world.entries (.invocationKey "acme" 0 "0123456789") = some 1 ∧
        sys.world.rowLock 0 = some 2 := by decide +kernel
  clear_value sys
  refine ⟨.inl ⟨_, hentry, rfl⟩, by rw [hlock]; rfl, ?_,
    (locks_held_briefly disabledByAll Db.empty hreach 1).2⟩
  obtain ⟨β, o, k, hp, hcall, hstep | ⟨m, hm, -⟩⟩ :=
    (locks_held_briefly disabledByAll Db.empty hreach 2).1 0 (.inl ⟨0, hlock⟩)
  · exact ⟨β, o, k, hp, hcall, hstep⟩
  · exact absurd hm (Nat.not_lt_zero m)

end FavlGateway.Registry
