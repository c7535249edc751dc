/-
  The outbox with books: who claimed which row, who called the broker for it, and what became of it.

  `ledgerMachine` is `outboxMachine` with a number for every drain and a `Ledger` beside the table; the
  programs see neither (`ledger_erases`).  A drain ends in one of two ways.  If its commit takes effect
  its calls are settled; if its transaction is rolled back — by a lost connection, a commit that is
  refused, an exception, a killed process — the rows it had claimed are entered as rolled back.

  `Balanced` is what holds of the books in every reachable state.  The account of a row rests on
  two things: a call is settled, rolled back or in an open drain, and as many calls are settled as
  the row has spent attempts.
-/
import FavlGateway.Library.Bookkeeping
import FavlGateway.Outbox.Delivery
import Mathlib.Data.Finset.Card

namespace FavlGateway.Outbox

open FavlGateway.Library
open FavlGateway.Registry (Uuid uuidText)

/-! ## The books -/

/-- A session, with its open drain: its number, the rows as they were claimed, and the rows the
    broker was called for. -/
structure Drain extends Session where
  number : Nat := 0
  claimed : List OutboxEvent := []
  called : List Uuid := []

/-- Entries are a row and the number of a drain. -/
structure Ledger where
  claims : List (Uuid × Nat) := []
  /-- one entry for each publish call -/
  calls : List (Uuid × Nat) := []
  /-- the calls of drains whose commit took effect -/
  settled : Finset (Uuid × Nat) := ∅
  /-- the rows that a drain had claimed when it was rolled back -/
  rolledBack : Finset (Uuid × Nat) := ∅

structure Books extends Universe where
  ledger : Ledger := {}

/-- What the open drain has claimed. -/
def Drain.claims (d : Drain) : List (Uuid × Nat) := d.claimed.map fun r => (r.id, d.number)

/-- The publish calls of the open drain. -/
def Drain.calls (d : Drain) : List (Uuid × Nat) := d.called.map fun row => (row, d.number)

def Ledger.settle (l : Ledger) (d : Drain) : Ledger :=
  { l with settled := l.settled ∪ d.calls.toFinset }

def Ledger.rollBack (l : Ledger) (d : Drain) : Ledger :=
  { l with rolledBack := l.rolledBack ∪ d.claims.toFinset }

/-- Whether a commit that would leave these rows takes effect. -/
def takesEffect (live : Bool) (written : List OutboxEvent) : Outcome → Bool
  | .refused _ => false
  | .done | .unreported _ => live && decide (written.map (·.id)).Nodup

/-- What the operation that answered `b` makes of the open drain. -/
def Drain.next (d : Drain) (tick : Nat) (s : Session) : {β : Type} → OutboxOp β → β → Drain
  | _, .claim _ _, .ok rows => { toSession := s, number := tick, claimed := rows }
  | _, .publish row _ _ _, _ => { d with toSession := s, called := row :: d.called }
  | _, .commit, _ => { toSession := s }
  | _, .close, _ => { toSession := s }
  | _, _, _ => { d with toSession := s }

/-- What it enters in the ledger. -/
def Ledger.next (l : Ledger) (tick : Nat) (d : Drain) (effect : Bool) :
    {β : Type} → OutboxOp β → β → Ledger
  | _, .claim _ _, .ok rows => { l with claims := l.claims ++ rows.map fun r => (r.id, tick) }
  | _, .publish row _ _ _, _ => { l with calls := l.calls ++ [(row, d.number)] }
  | _, .commit, _ => if effect then l.settle d else l.rollBack d
  | _, .close, _ => l.rollBack d
  | _, _, _ => l

/-- The transaction of session `i` is rolled back. -/
def Books.rollBack (i : Nat) (d : Drain) (u : Books) : Books :=
  { u with toWorld := u.toWorld.release i, ledger := u.ledger.rollBack d }

/-- One operation of session `i`, entered in the books. -/
def enter (i : Nat) (f : Fate) {β : Type} (o : OutboxOp β) (d : Drain) (u : Books) :
    β × Drain × Books :=
  let r := perform i f o d.toSession u.toWorld
  let effect := takesEffect d.live (writeBack d.held u.rows ++ d.added) f.outcome
  (r.1, d.next u.tick r.2.1 o r.1,
    { u with toWorld := r.2.2, tick := u.tick + 1, ledger := u.ledger.next u.tick d effect o r.1 })

/-- `act`, entered in the books. -/
def book (i : Nat) (f : Fate) {β : Type} (o : OutboxOp β) (d : Drain) (u : Books) :
    β × Drain × Books :=
  if f.dropped then enter i f o { d with live := false } (u.rollBack i d) else enter i f o d u

/-- The sessions on one outbox table, with books. -/
def ledgerMachine : Machine OutboxOp Drain Books Exc where
  step := fun i {_} o d u => some (book i (u.fates u.tick) o d u)
  abort i d u := u.rollBack i d
  fresh := {}
  crashed := .crashed

theorem ledgerMachine_step {i : Nat} {β : Type} {o : OutboxOp β} {d d' : Drain} {u u' : Books}
    {b : β} (h : ledgerMachine.step i o d u = some (b, d', u')) :
    book i (u.fates u.tick) o d u = (b, d', u') := Option.some.inj h

/-- An empty table with empty books. -/
def bookedOutbox (dumps : Json String → String) (fates : Nat → Fate) (jobs : Nat → Job) :
    System OutboxOp Drain Books Exc Unit :=
  ⟨{ fates := fates }, fun i => ⟨{}, (jobs i).task dumps⟩⟩

/-! ### Without the books -/

@[simp] theorem Drain.next_toSession (d : Drain) (tick : Nat) (s : Session) {β : Type}
    (o : OutboxOp β) (b : β) : (d.next tick s o b).toSession = s := by
  cases o with
  | claim now limit => cases b <;> rfl
  | _ => rfl

/-- **The books change nothing**: without them the machine is `outboxMachine`. -/
theorem ledger_erases : ledgerMachine.Erases outboxMachine Drain.toSession Books.toUniverse where
  step := by
    intro i β o d u
    show some _ = some _
    congr 1
    unfold book act
    by_cases hdropped : (u.fates u.tick).dropped = true
    · simp only [if_pos hdropped, enter, Drain.next_toSession]
      rfl
    · simp only [if_neg hdropped, enter, Drain.next_toSession]
  abort _ _ _ := rfl
  fresh := rfl
  crashed := rfl

theorem bookedOutbox_erase (dumps : Json String → String) (fates : Nat → Fate) (jobs : Nat → Job) :
    (bookedOutbox dumps fates jobs).erase Drain.toSession Books.toUniverse = outbox dumps fates jobs :=
  rfl

/-- No two rows of a reachable table have one key. -/
theorem keys_of_reaches {dumps : Json String → String} {fates : Nat → Fate} {jobs : Nat → Job}
    {sys : System OutboxOp Drain Books Exc Unit}
    (h : ledgerMachine.Reaches Machine.Any (bookedOutbox dumps fates jobs) sys) :
    (sys.world.rows.map (·.id)).Nodup := by
  have hsound : Sound dumps sys.world.toUniverse _ := sound_of_reaches (ledger_erases.reaches h)
  exact hsound.1.keys

/-! ## The account of a row -/

/-- `min(policy.max_attempts, row.max_attempts)` -/
def limitOf (policy : RetryPolicy) (row : Event) : Int := min policy.maxAttempts row.maxAttempts

/-- A row within its limit. -/
structure OutboxEvent.Within (limit : Int) (row : OutboxEvent) : Prop where
  attempts : (row.attempts : Int) ≤ limit
  pending : row.status = .pending → (row.attempts : Int) < limit
  published : row.status = .published → (row.attempts : Int) < limit
  dead : row.status = .dead → (row.attempts : Int) = limit
  publishedAt : row.publishedAt.isSome = true ↔ row.status = .published

/-- The attempts that a row has spent, the successful one included. -/
def OutboxEvent.spent (row : OutboxEvent) : Nat :=
  row.attempts + if row.status = .published then 1 else 0

/-- A row as it is enqueued. -/
structure OutboxEvent.Fresh (row : OutboxEvent) : Prop where
  status : row.status = .pending
  attempts : row.attempts = 0
  publishedAt : row.publishedAt = none

/-- What is written down of an attempt for a row. -/
inductive Recorded (policy : RetryPolicy) (row : OutboxEvent) (d : Delivery) : Prop where
  | failed (attempts : d.attempts = row.attempts + 1) (publishedAt : d.publishedAt = row.publishedAt)
      (status : d.status =
        if limitOf policy row.toEvent ≤ (row.attempts + 1 : Nat) then .dead else .pending)
  | published (attempts : d.attempts = row.attempts) (publishedAt : d.publishedAt.isSome = true)
      (status : d.status = .published)

section Account

variable {policy : RetryPolicy} {row : OutboxEvent} {d : Delivery} {limit : Int}

theorem OutboxEvent.Fresh.within (h : row.Fresh) (hlimit : 1 ≤ limit) : row.Within limit := by
  have hattempts : (row.attempts : Int) = 0 := by rw [h.attempts]; rfl
  refine ⟨by omega, fun _ => by omega, fun _ => by omega, ?_, ?_⟩
  · intro hdead
    rw [h.status] at hdead
    cases hdead
  · rw [h.publishedAt, h.status]
    exact ⟨nofun, nofun⟩

/-- **An attempt keeps a pending row within its limit.** -/
theorem Recorded.within (h : Recorded policy row d) (hpending : row.status = .pending)
    (hrow : row.Within (limitOf policy row.toEvent)) :
    (row.assign d).Within (limitOf policy row.toEvent) := by
  have hlt := hrow.pending hpending
  have hnone : ¬ row.publishedAt.isSome = true := by
    rw [hrow.publishedAt, hpending]
    exact nofun
  cases h with
  | failed hattempts hpublished hstatus =>
    by_cases hlimit : limitOf policy row.toEvent ≤ (row.attempts + 1 : Nat)
    · rw [if_pos hlimit] at hstatus
      have hfull : (d.attempts : Int) = limitOf policy row.toEvent := by
        rw [hattempts]
        omega
      refine ⟨hfull.le, ?_, ?_, fun _ => hfull, ?_⟩
      · intro hp
        exact nomatch hstatus.symm.trans hp
      · intro hp
        exact nomatch hstatus.symm.trans hp
      · show d.publishedAt.isSome = true ↔ d.status = .published
        rw [hpublished, hstatus]
        exact iff_of_false hnone nofun
    · rw [if_neg hlimit] at hstatus
      have hless : (d.attempts : Int) < limitOf policy row.toEvent := by
        rw [hattempts]
        omega
      refine ⟨hless.le, fun _ => hless, fun _ => hless, ?_, ?_⟩
      · intro hp
        exact nomatch hstatus.symm.trans hp
      · show d.publishedAt.isSome = true ↔ d.status = .published
        rw [hpublished, hstatus]
        exact iff_of_false hnone nofun
  | published hattempts hpublished hstatus =>
    have hless : (d.attempts : Int) < limitOf policy row.toEvent := by rw [hattempts]; exact hlt
    refine ⟨hless.le, fun _ => hless, fun _ => hless, ?_, ?_⟩
    · intro hp
      exact nomatch hstatus.symm.trans hp
    · exact iff_of_true hpublished hstatus

/-- It is spent. -/
theorem Recorded.spent (h : Recorded policy row d) (hpending : row.status = .pending) :
    (row.assign d).spent = row.spent + 1 := by
  have hbefore : row.spent = row.attempts := by
    unfold OutboxEvent.spent
    rw [hpending]
    rfl
  rw [hbefore]
  show d.attempts + (if d.status = .published then 1 else 0) = row.attempts + 1
  cases h with
  | failed hattempts hpublished hstatus =>
    have hunpublished : d.status ≠ .published := by
      rw [hstatus]
      split <;> exact nofun
    rw [if_neg hunpublished, hattempts]
  | published hattempts hpublished hstatus => rw [if_pos hstatus, hattempts]

/-- No row spends more than its limit, and one that is pending has spent less. -/
theorem OutboxEvent.Within.spent_le (h : row.Within limit) :
    (row.spent : Int) ≤ limit ∧ (row.status = .pending → (row.spent : Int) < limit) := by
  unfold OutboxEvent.spent
  by_cases hpublished : row.status = .published
  · have hlt := h.published hpublished
    rw [if_pos hpublished]
    refine ⟨by push_cast; omega, fun hpending => ?_⟩
    rw [hpublished] at hpending
    cases hpending
  · rw [if_neg hpublished]
    exact ⟨h.attempts, h.pending⟩

end Account

/-! ## What holds of the books -/

/-- Every held row is the claimed one, or says what became of the call for it. -/
structure Drain.Accounted (policy : RetryPolicy) (d : Drain) : Prop where
  ids : d.held.map (·.id) = d.claimed.map (·.id)
  held : ∀ h ∈ d.held, ∃ r ∈ d.claimed, r.id = h.id ∧
    (h = r ∧ r.id ∉ d.called ∨ Recorded policy r h.toDelivery)

/-- When the code may await an operation: it has one drain open at a time, calls the broker once for
    a claimed row, and commits only what is accounted for. -/
def Promises (policy : RetryPolicy) {β : Type} : OutboxOp β → Drain → Prop
  | .claim _ _, d => d.claimed = []
  | .publish row _ _ _, d => row ∈ d.claimed.map (·.id) ∧ row ∉ d.called
  | .add row, _ => row.Fresh
  | .commit, d => d.Accounted policy
  | _, _ => True

/-- The books of the table. -/
structure Books.Sound (policy : RetryPolicy) (u : Books) : Prop where
  keys : (u.rows.map (·.id)).Nodup
  within : ∀ r ∈ u.rows, 1 ≤ limitOf policy r.toEvent → r.Within (limitOf policy r.toEvent)
  nodup : u.ledger.calls.Nodup
  dated : ∀ c ∈ u.ledger.calls, c.2 < u.tick
  known : ∀ c ∈ u.ledger.settled, c.1 ∈ u.rows.map (·.id)
  spent : ∀ r ∈ u.rows, (u.ledger.settled.filter fun c => c.1 = r.id).card ≤ r.spent

/-- The open drain of session `i`. -/
structure Drain.Sound (i : Nat) (u : Books) (d : Drain) : Prop where
  called : ∀ x ∈ d.called, x ∈ d.claimed.map (·.id)
  present : ∀ r ∈ d.claimed, r.id ∈ u.rows.map (·.id)
  locked : d.live = true → ∀ r ∈ d.claimed,
    r ∈ u.rows ∧ r.status = .pending ∧ u.lock r.id = some i
  lost : d.live = false → ∀ c ∈ d.claims, c ∈ u.ledger.rolledBack
  made : d.claimed ≠ [] → ∀ x, (x, d.number) ∈ u.ledger.calls → x ∈ d.called
  dated : d.claimed ≠ [] → d.number < u.tick
  added : ∀ a ∈ d.added, a.Fresh

/-- The books balance. -/
structure Balanced (policy : RetryPolicy) (u : Books) (ss : Nat → Drain) : Prop where
  books : u.Sound policy
  drains : ∀ i, (ss i).Sound i u
  distinct : ∀ i j, (ss i).claimed ≠ [] → (ss j).claimed ≠ [] → (ss i).number = (ss j).number → i = j
  accounted : ∀ c ∈ u.ledger.calls, c ∈ u.ledger.rolledBack ∨ c ∈ u.ledger.settled ∨
    ∃ i, (ss i).live = true ∧ c ∈ (ss i).calls

/-- What a step leaves to the open drain of session `j`. -/
structure Books.Leaves (j : Nat) (d : Drain) (u u' : Books) : Prop where
  rows : ∀ r ∈ u.rows, u.lock r.id = some j → r ∈ u'.rows
  ids : ∀ x ∈ u.rows.map (·.id), x ∈ u'.rows.map (·.id)
  locks : ∀ x, u.lock x = some j → u'.lock x = some j
  lost : u.ledger.rolledBack ⊆ u'.ledger.rolledBack
  tick : u.tick ≤ u'.tick
  calls : d.claimed ≠ [] → ∀ c ∈ u'.ledger.calls, c ∈ u.ledger.calls ∨ c.2 ≠ d.number

section Balance

variable {policy : RetryPolicy} {u u' : Books} {ss : Nat → Drain} {d d' : Drain} {i j : Nat}
  {f : Fate} {r : OutboxEvent}

theorem Promises.offline {β : Type} {o : OutboxOp β} (h : Promises policy o d) :
    Promises policy o { d with live := false } := by
  cases o with
  | commit => exact ⟨h.ids, h.held⟩
  | _ => exact h

/-- A session without a drain. -/
theorem Drain.Sound.empty : Drain.Sound i u {} := by
  constructor <;> simp [Drain.claims]

theorem Drain.Sound.others (h : d.Sound j u) (hu : u.Leaves j d u') : d.Sound j u' where
  called := h.called
  present r hr := hu.ids _ (h.present r hr)
  locked hlive r hr := by
    obtain ⟨hmem, hpending, hlock⟩ := h.locked hlive r hr
    exact ⟨hu.rows r hmem hlock, hpending, hu.locks _ hlock⟩
  lost hlive c hc := hu.lost (h.lost hlive c hc)
  made hclaimed x hx := by
    rcases hu.calls hclaimed _ hx with hold | hother
    · exact h.made hclaimed x hold
    · exact absurd rfl hother
  dated hclaimed := (h.dated hclaimed).trans_le hu.tick
  added := h.added

/-- Two drains that are open have different numbers. -/
theorem Balanced.number_ne (h : Balanced policy u ss) (hi : (ss i).claimed ≠ []) (hne : j ≠ i)
    (hj : (ss j).claimed ≠ []) : (ss j).number ≠ (ss i).number :=
  fun hsame => hne (h.distinct j i hj hi hsame)

/-- Where a call is accounted for, if session `i` is told apart. -/
theorem Balanced.accounted_or (h : Balanced policy u ss) {c : Uuid × Nat}
    (hc : c ∈ u.ledger.calls) :
    c ∈ u.ledger.rolledBack ∨ c ∈ u.ledger.settled ∨ ((ss i).live = true ∧ c ∈ (ss i).calls) ∨
      ∃ j, j ≠ i ∧ (ss j).live = true ∧ c ∈ (ss j).calls := by
  rcases h.accounted c hc with hlost | hsettled | ⟨j, hj⟩
  · exact .inl hlost
  · exact .inr (.inl hsettled)
  · rcases eq_or_ne j i with rfl | hne
    · exact .inr (.inr (.inl hj))
    · exact .inr (.inr (.inr ⟨j, hne, hj⟩))

/-- **What a step of session `i` has to show.** -/
theorem Balanced.update (h : Balanced policy u ss) (hbooks : u'.Sound policy)
    (hself : d'.Sound i u') (hothers : ∀ j, j ≠ i → u.Leaves j (ss j) u')
    (hdistinct : d'.claimed ≠ [] → ∀ j, j ≠ i → (ss j).claimed ≠ [] → (ss j).number ≠ d'.number)
    (haccounted : ∀ c ∈ u'.ledger.calls, c ∈ u'.ledger.rolledBack ∨ c ∈ u'.ledger.settled ∨
      (d'.live = true ∧ c ∈ d'.calls) ∨ ∃ j, j ≠ i ∧ (ss j).live = true ∧ c ∈ (ss j).calls) :
    Balanced policy u' (Function.update ss i d') where
  books := hbooks
  drains j := by
    rcases eq_or_ne j i with rfl | hj
    · rw [Function.update_self]
      exact hself
    · rw [Function.update_of_ne hj]
      exact (h.drains j).others (hothers j hj)
  distinct j k := by
    intro hj hk hnumber
    rcases eq_or_ne j i with rfl | hji
    · rcases eq_or_ne k j with rfl | hkj
      · rfl
      · rw [Function.update_self] at hj hnumber
        rw [Function.update_of_ne hkj] at hk hnumber
        exact absurd hnumber.symm (hdistinct hj k hkj hk)
    · rw [Function.update_of_ne hji] at hj hnumber
      rcases eq_or_ne k i with rfl | hki
      · rw [Function.update_self] at hk hnumber
        exact absurd hnumber (hdistinct hk j hji hj)
      · rw [Function.update_of_ne hki] at hk hnumber
        exact h.distinct j k hj hk hnumber
  accounted c hc := by
    rcases haccounted c hc with hlost | hsettled | hself | ⟨j, hj, hopen⟩
    · exact .inl hlost
    · exact .inr (.inl hsettled)
    · exact .inr (.inr ⟨i, by rw [Function.update_self]; exact hself⟩)
    · exact .inr (.inr ⟨j, by rw [Function.update_of_ne hj]; exact hopen⟩)

/-! ### Quiet steps -/

/-- The table and the ledger are as they were. -/
structure Books.Same (u u' : Books) : Prop where
  rows : u'.rows = u.rows
  lock : u'.lock = u.lock
  ledger : u'.ledger = u.ledger
  tick : u.tick ≤ u'.tick

/-- The open drain is as it was. -/
structure Drain.Same (d d' : Drain) : Prop where
  claimed : d'.claimed = d.claimed
  called : d'.called = d.called
  number : d'.number = d.number
  live : d'.live = d.live

theorem Books.Same.sound (hu : u.Same u') (h : u.Sound policy) : u'.Sound policy where
  keys := by rw [hu.rows]; exact h.keys
  within := by rw [hu.rows]; exact h.within
  nodup := by rw [hu.ledger]; exact h.nodup
  dated c hc := by
    rw [hu.ledger] at hc
    exact (h.dated c hc).trans_le hu.tick
  known := by rw [hu.ledger, hu.rows]; exact h.known
  spent := by rw [hu.ledger, hu.rows]; exact h.spent

theorem Books.Same.leaves (hu : u.Same u') : u.Leaves j d u' where
  rows r hr _ := by rw [hu.rows]; exact hr
  ids x hx := by rw [hu.rows]; exact hx
  locks x hx := by rw [hu.lock]; exact hx
  lost := by rw [hu.ledger]
  tick := hu.tick
  calls _ c hc := .inl (by rw [hu.ledger] at hc; exact hc)

theorem Drain.Same.sound (hd : d.Same d') (h : d.Sound i u) (hadded : ∀ a ∈ d'.added, a.Fresh) :
    d'.Sound i u where
  called := by rw [hd.called, hd.claimed]; exact h.called
  present := by rw [hd.claimed]; exact h.present
  locked := by rw [hd.live, hd.claimed]; exact h.locked
  lost := by unfold Drain.claims; rw [hd.live, hd.claimed, hd.number]; exact h.lost
  made := by rw [hd.claimed, hd.number, hd.called]; exact h.made
  dated := by rw [hd.claimed, hd.number]; exact h.dated
  added := hadded

theorem Balanced.quiet (h : Balanced policy u ss) (hu : u.Same u') (hd : (ss i).Same d')
    (hadded : ∀ a ∈ d'.added, a.Fresh) : Balanced policy u' (Function.update ss i d') := by
  refine h.update (hu.sound h.books) ((hd.sound (h.drains i) hadded).others hu.leaves)
    (fun j _ => hu.leaves) ?_ ?_
  · intro hclaimed j hj
    rw [hd.claimed] at hclaimed
    rw [hd.number]
    exact h.number_ne hclaimed hj
  · intro c hc
    rw [hu.ledger] at hc ⊢
    have hopen : d'.calls = (ss i).calls := by
      unfold Drain.calls
      rw [hd.called, hd.number]
    rw [hd.live, hopen]
    exact h.accounted_or hc

/-! ### The end of a drain -/

theorem Books.leaves_rollBack (hj : j ≠ i) : u.Leaves j d (u.rollBack i (ss i)) where
  rows _ hr _ := hr
  ids _ hx := hx
  locks x hx := (World.grows_release (i := i)).locks j hj x hx
  lost := Finset.subset_union_left
  tick := le_refl _
  calls _ _ hc := .inl hc

/-- The transaction of session `i` is rolled back under it. -/
theorem Balanced.rollBack (h : Balanced policy u ss) (i : Nat) :
    Balanced policy (u.rollBack i (ss i)) (Function.update ss i { ss i with live := false }) := by
  have hbooks : (u.rollBack i (ss i)).Sound policy :=
    ⟨h.books.keys, h.books.within, h.books.nodup, h.books.dated, h.books.known, h.books.spent⟩
  have hi := h.drains i
  refine h.update hbooks ?_ (fun j hj => Books.leaves_rollBack hj)
    (fun hclaimed j hj => h.number_ne hclaimed hj) ?_
  · refine ⟨hi.called, hi.present, nofun, fun _ c hc => ?_, hi.made, hi.dated, hi.added⟩
    exact Finset.mem_union_right _ (List.mem_toFinset.mpr hc)
  · intro c hc
    rcases h.accounted_or (i := i) hc with hlost | hsettled | ⟨-, hopen⟩ | hothers
    · exact .inl (Finset.mem_union_left _ hlost)
    · exact .inr (.inl hsettled)
    · -- the calls of the drain are among the rows it had claimed
      obtain ⟨x, hx, rfl⟩ := List.mem_map.mp hopen
      obtain ⟨r, hr, rfl⟩ := List.mem_map.mp (hi.called x hx)
      exact .inl (Finset.mem_union_right _ (List.mem_toFinset.mpr (List.mem_map_of_mem hr)))
    · exact .inr (.inr (.inr hothers))

/-- A session whose transaction is gone ends. -/
theorem Balanced.forget (h : Balanced policy u ss) (hlive : (ss i).live = false) :
    Balanced policy u (Function.update ss i {}) := by
  refine h.update h.books .empty (fun j _ => Books.Same.leaves ⟨rfl, rfl, rfl, le_refl _⟩) ?_ ?_
  · intro hclaimed
    exact absurd rfl hclaimed
  · intro c hc
    rcases h.accounted_or (i := i) hc with hlost | hsettled | hself | hothers
    · exact .inl hlost
    · exact .inr (.inl hsettled)
    · rw [hlive] at hself
      cases hself.1
    · exact .inr (.inr (.inr hothers))

/-- A drain that is rolled back ends with its session. -/
theorem Balanced.ended (h : Balanced policy u ss) (i : Nat) :
    Balanced policy (u.rollBack i (ss i)) (Function.update ss i {}) := by
  have hgone := (h.rollBack i).forget (i := i) (by rw [Function.update_self])
  rwa [Function.update_idem] at hgone

/-! ### Claims and calls -/

/-- A drain begins. -/
theorem Balanced.claim (h : Balanced policy u ss) (hnone : (ss i).claimed = [])
    (hlive : (ss i).live = true) {order : Uuid → Nat} {now : Instant} {limit : Nat}
    {rows : List OutboxEvent} (hrows : rows = u.toWorld.claimable order now limit)
    (hd : d' = { toSession := { (ss i).toSession with held := rows }, number := u.tick,
                 claimed := rows })
    (hu : u'.rows = u.rows ∧ u'.lock = (u.toWorld.claimedBy i rows).lock ∧ u'.tick = u.tick + 1)
    (hledger : u'.ledger = { u.ledger with claims := u'.ledger.claims }) :
    Balanced policy u' (Function.update ss i d') := by
  obtain ⟨htable, hlock, htick⟩ := hu
  have hi := h.drains i
  have hclaimable : ∀ r ∈ rows, r ∈ u.rows ∧ r.status = .pending ∧ u.lock r.id = none := by
    intro r hr
    rw [hrows] at hr
    obtain ⟨hmem, hpending, -, hfree⟩ := mem_claimable hr
    exact ⟨hmem, hpending, hfree⟩
  have hcalls : u'.ledger.calls = u.ledger.calls := by rw [hledger]
  have hsettled : u'.ledger.settled = u.ledger.settled := by rw [hledger]
  have hlost : u'.ledger.rolledBack = u.ledger.rolledBack := by rw [hledger]
  have hbooks : u'.Sound policy := by
    refine ⟨?_, ?_, ?_, ?_, ?_, ?_⟩
    · rw [htable]; exact h.books.keys
    · rw [htable]; exact h.books.within
    · rw [hcalls]; exact h.books.nodup
    · intro c hc
      rw [hcalls] at hc
      have := h.books.dated c hc
      omega
    · rw [hsettled, htable]; exact h.books.known
    · rw [hsettled, htable]; exact h.books.spent
  refine h.update hbooks ?_ ?_ ?_ ?_
  · subst hd
    refine ⟨fun x hx => absurd hx List.not_mem_nil, ?_, ?_, ?_, ?_, ?_, hi.added⟩
    · intro r hr
      rw [htable]
      exact List.mem_map_of_mem (hclaimable r hr).1
    · intro _ r hr
      obtain ⟨hmem, hpending, -⟩ := hclaimable r hr
      rw [htable, hlock]
      exact ⟨hmem, hpending, if_pos (List.mem_map_of_mem hr)⟩
    · intro hdead
      exact nomatch hlive.symm.trans hdead
    · intro _ x hx
      -- the number is new
      rw [hcalls] at hx
      exact absurd (h.books.dated _ hx) (lt_irrefl _)
    · intro _
      rw [htick]
      exact Nat.lt_succ_self _
  · intro j hj
    have hgrows := World.grows_claimedBy (i := i) fun r hr => (hclaimable r hr).2.2
    refine ⟨?_, ?_, ?_, ?_, ?_, ?_⟩
    · intro r hr _
      rw [htable]; exact hr
    · intro x hx
      rw [htable]; exact hx
    · intro x hx
      rw [hlock]
      exact hgrows.locks j hj x hx
    · rw [hlost]
    · omega
    · intro _ c hc
      rw [hcalls] at hc
      exact .inl hc
  · intro _ j _ hclaimed
    subst hd
    exact ((h.drains j).dated hclaimed).ne
  · intro c hc
    rw [hcalls] at hc
    rw [hlost, hsettled]
    rcases h.accounted_or (i := i) hc with hlost | hsettled | ⟨-, hopen⟩ | hothers
    · exact .inl hlost
    · exact .inr (.inl hsettled)
    · -- there was no open drain
      obtain ⟨x, hx, rfl⟩ := List.mem_map.mp hopen
      have hmem := hi.called x hx
      rw [hnone] at hmem
      cases hmem
    · exact .inr (.inr (.inr hothers))

/-- The broker is called. -/
theorem Balanced.publish (h : Balanced policy u ss) {row : Uuid}
    (hclaimed : row ∈ (ss i).claimed.map (·.id)) (hcalled : row ∉ (ss i).called)
    (hd : d'.claimed = (ss i).claimed ∧ d'.called = row :: (ss i).called ∧
      d'.number = (ss i).number ∧ d'.live = (ss i).live ∧ d'.added = (ss i).added)
    (hu : u'.rows = u.rows ∧ u'.lock = u.lock ∧ u'.tick = u.tick + 1)
    (hledger : u'.ledger =
      { u.ledger with calls := u.ledger.calls ++ [(row, (ss i).number)] }) :
    Balanced policy u' (Function.update ss i d') := by
  obtain ⟨hclaims, hcalls, hnumber, hlive, hadded⟩ := hd
  obtain ⟨hrows, hlock, htick⟩ := hu
  have hi := h.drains i
  have hnonempty : (ss i).claimed ≠ [] := by
    intro hnil
    rw [hnil] at hclaimed
    cases hclaimed
  have hnew : (row, (ss i).number) ∉ u.ledger.calls := fun hold =>
    hcalled (hi.made hnonempty row hold)
  have hlater : ∀ c ∈ u'.ledger.calls, c ∈ u.ledger.calls ∨ c = (row, (ss i).number) := by
    intro c hc
    rw [hledger] at hc
    rcases List.mem_append.mp hc with hold | hlast
    · exact .inl hold
    · exact .inr (List.mem_singleton.mp hlast)
  have hbooks : u'.Sound policy := by
    refine ⟨?_, ?_, ?_, ?_, ?_, ?_⟩
    · rw [hrows]; exact h.books.keys
    · rw [hrows]; exact h.books.within
    · rw [hledger]
      exact List.Nodup.append h.books.nodup (List.nodup_singleton _)
        (List.disjoint_singleton.mpr hnew)
    · intro c hc
      rw [htick]
      rcases hlater c hc with hold | rfl
      · exact (h.books.dated c hold).trans (Nat.lt_succ_self _)
      · exact (hi.dated hnonempty).trans (Nat.lt_succ_self _)
    · rw [hledger, hrows]; exact h.books.known
    · rw [hledger, hrows]; exact h.books.spent
  have hlost : u'.ledger.rolledBack = u.ledger.rolledBack := by rw [hledger]
  have hsettled : u'.ledger.settled = u.ledger.settled := by rw [hledger]
  have hopen : d'.calls = (row, (ss i).number) :: (ss i).calls := by
    unfold Drain.calls
    rw [hcalls, hnumber]
    rfl
  refine h.update hbooks ?_ ?_ ?_ ?_
  · refine ⟨?_, ?_, ?_, ?_, ?_, ?_, ?_⟩
    · rw [hcalls, hclaims]
      intro x hx
      rcases List.mem_cons.mp hx with rfl | hx
      · exact hclaimed
      · exact hi.called x hx
    · rw [hclaims, hrows]; exact hi.present
    · rw [hlive, hclaims, hrows, hlock]; exact hi.locked
    · unfold Drain.claims
      rw [hlive, hclaims, hnumber, hlost]
      exact hi.lost
    · rw [hclaims, hnumber, hcalls]
      intro hne x hx
      rcases hlater _ hx with hold | hlast
      · exact List.mem_cons_of_mem _ (hi.made hne x hold)
      · cases hlast
        exact List.mem_cons_self ..
    · rw [hclaims, hnumber, htick]
      exact fun hne => (hi.dated hne).trans (Nat.lt_succ_self _)
    · rw [hadded]; exact hi.added
  · intro j hj
    refine ⟨?_, ?_, ?_, ?_, ?_, ?_⟩
    · intro r hr _
      rw [hrows]; exact hr
    · intro x hx
      rw [hrows]; exact hx
    · intro x hx
      rw [hlock]; exact hx
    · rw [hlost]
    · omega
    · intro hne c hc
      rcases hlater c hc with hold | rfl
      · exact .inl hold
      · exact .inr (h.number_ne hnonempty hj hne).symm
  · intro _ j hj hne
    rw [hnumber]
    exact h.number_ne hnonempty hj hne
  · intro c hc
    rw [hlost, hsettled, hlive, hopen]
    rcases hlater c hc with hold | rfl
    · rcases h.accounted_or (i := i) hold with hlost | hsettled | ⟨hlive, hmem⟩ | hothers
      · exact .inl hlost
      · exact .inr (.inl hsettled)
      · exact .inr (.inr (.inl ⟨hlive, List.mem_cons_of_mem _ hmem⟩))
      · exact .inr (.inr (.inr hothers))
    · cases hgone : (ss i).live with
      | true => exact .inr (.inr (.inl ⟨rfl, List.mem_cons_self ..⟩))
      | false =>
        -- a drain that has been rolled back already
        obtain ⟨r, hr, rfl⟩ := List.mem_map.mp hclaimed
        exact .inl (hi.lost hgone _ (List.mem_map_of_mem hr))

/-! ### The commit -/

theorem mem_writeBack_of_notMem {held rows : List OutboxEvent} (hr : r ∈ rows)
    (hid : r.id ∉ held.map (·.id)) : r ∈ writeBack held rows := by
  refine List.mem_map.mpr ⟨r, hr, ?_⟩
  cases hfound : lookup (·.id) held r.id with
  | none => rfl
  | some h =>
    obtain ⟨hmem, hsame⟩ := lookup_mem hfound
    exact absurd (List.mem_map.mpr ⟨h, hmem, hsame⟩) hid

/-- A drain that is accounted for writes only the rows that it has claimed. -/
theorem Drain.Accounted.mem_writeBack (h : d.Accounted policy) (hr : r ∈ u.rows)
    (hid : r.id ∉ d.claimed.map (·.id)) : r ∈ writeBack d.held u.rows :=
  mem_writeBack_of_notMem hr (by rw [h.ids]; exact hid)

/-- A written row is the row before, with no call, or with the record of one. -/
theorem Balanced.written (h : Balanced policy u ss) (hlive : (ss i).live = true)
    (haccounted : (ss i).Accounted policy) (hr : r ∈ writeBack (ss i).held u.rows) :
    ∃ r₀ ∈ u.rows, r₀.toEvent = r.toEvent ∧ (r = r₀ ∧ r₀.id ∉ (ss i).called ∨
      ∃ del, r = r₀.assign del ∧ r₀.status = .pending ∧ Recorded policy r₀ del) := by
  obtain ⟨r₀, hr₀, rfl⟩ := List.mem_map.mp hr
  cases hfound : lookup (·.id) (ss i).held r₀.id with
  | none =>
    refine ⟨r₀, hr₀, rfl, .inl ⟨rfl, fun hcalled => ?_⟩⟩
    have hclaimed := (h.drains i).called _ hcalled
    rw [← haccounted.ids] at hclaimed
    obtain ⟨held, hheld, hid⟩ := List.mem_map.mp hclaimed
    obtain ⟨found, hsome⟩ : ∃ found, lookup (·.id) (ss i).held held.id = some found :=
      lookup_isSome_of_mem hheld
    rw [hid, hfound] at hsome
    cases hsome
  | some held =>
    obtain ⟨hheld, hid⟩ := lookup_mem hfound
    obtain ⟨r₁, hr₁, hid₁, hrecord⟩ := haccounted.held held hheld
    obtain ⟨hmem, hpending, -⟩ := (h.drains i).locked hlive r₁ hr₁
    have hsame : r₁ = r₀ := eq_of_id h.books.keys hmem hr₀ (hid₁.trans hid)
    subst hsame
    refine ⟨r₁, hr₀, rfl, ?_⟩
    rcases hrecord with ⟨rfl, huncalled⟩ | hrecorded
    · exact .inl ⟨rfl, huncalled⟩
    · exact .inr ⟨held.toDelivery, rfl, hpending, hrecorded⟩

/-- A drain settles one call for a row at most. -/
theorem card_settle (l : Ledger) (d : Drain) (x : Uuid) :
    ((l.settle d).settled.filter fun c => c.1 = x).card ≤
      (l.settled.filter fun c => c.1 = x).card + if x ∈ d.called then 1 else 0 := by
  unfold Ledger.settle
  rw [Finset.filter_union]
  refine (Finset.card_union_le _ _).trans (Nat.add_le_add_left ?_ _)
  by_cases hx : x ∈ d.called
  · rw [if_pos hx]
    have hsub : (d.calls.toFinset.filter fun c => c.1 = x) ⊆ {(x, d.number)} := by
      intro c hc
      obtain ⟨hmem, hid⟩ := Finset.mem_filter.mp hc
      obtain ⟨y, -, rfl⟩ := List.mem_map.mp (List.mem_toFinset.mp hmem)
      exact Finset.mem_singleton.mpr (Prod.ext hid rfl)
    exact (Finset.card_le_card hsub).trans (Finset.card_singleton _).le
  · rw [if_neg hx, Nat.le_zero, Finset.card_eq_zero, Finset.filter_eq_empty_iff]
    rintro c hc rfl
    obtain ⟨y, hy, rfl⟩ := List.mem_map.mp (List.mem_toFinset.mp hc)
    exact hx hy

/-- Settled calls are for rows of the table. -/
theorem Balanced.settled_known (h : Balanced policy u ss) (i : Nat) {c : Uuid × Nat}
    (hc : c ∈ (u.ledger.settle (ss i)).settled) : c.1 ∈ u.rows.map (·.id) := by
  rcases Finset.mem_union.mp hc with hold | hnew
  · exact h.books.known c hold
  · obtain ⟨x, hx, rfl⟩ := List.mem_map.mp (List.mem_toFinset.mp hnew)
    obtain ⟨r, hr, hid⟩ := List.mem_map.mp ((h.drains i).called x hx)
    show x ∈ u.rows.map (·.id)
    rw [← hid]
    exact (h.drains i).present r hr

/-- **A commit takes effect.** -/
theorem Balanced.commit (h : Balanced policy u ss) (hlive : (ss i).live = true)
    (haccounted : (ss i).Accounted policy)
    (hnodup : ((writeBack (ss i).held u.rows ++ (ss i).added).map (·.id)).Nodup)
    (hu : u'.rows = writeBack (ss i).held u.rows ++ (ss i).added ∧
      u'.lock = (u.toWorld.release i).lock ∧ u'.tick = u.tick + 1)
    (hledger : u'.ledger = u.ledger.settle (ss i)) :
    Balanced policy u' (Function.update ss i {}) := by
  obtain ⟨hrows, hlock, htick⟩ := hu
  have hi := h.drains i
  have hids : ∀ x ∈ u.rows.map (·.id), x ∈ u'.rows.map (·.id) := by
    intro x hx
    rw [hrows, List.map_append, map_id_writeBack]
    exact List.mem_append_left _ hx
  have hcalls : u'.ledger.calls = u.ledger.calls := by rw [hledger]; rfl
  have hlost : u'.ledger.rolledBack = u.ledger.rolledBack := by rw [hledger]; rfl
  have hbooks : u'.Sound policy := by
    refine ⟨?_, ?_, ?_, ?_, ?_, ?_⟩
    · rw [hrows]; exact hnodup
    · intro r hr hlimit
      rw [hrows] at hr
      rcases List.mem_append.mp hr with hr | hr
      · obtain ⟨r₀, hr₀, hevent, ⟨rfl, -⟩ | ⟨del, rfl, hpending, hrecorded⟩⟩ :=
          h.written hlive haccounted hr
        · exact h.books.within r hr₀ hlimit
        · exact hrecorded.within hpending (h.books.within r₀ hr₀ hlimit)
      · exact (hi.added r hr).within hlimit
    · rw [hcalls]; exact h.books.nodup
    · intro c hc
      rw [hcalls] at hc
      rw [htick]
      exact (h.books.dated c hc).trans (Nat.lt_succ_self _)
    · rw [hledger]
      exact fun c hc => hids _ (h.settled_known i hc)
    · intro r hr
      rw [hrows] at hr
      rw [hledger]
      rcases List.mem_append.mp hr with hr | hr
      · refine (card_settle _ _ _).trans ?_
        obtain ⟨r₀, hr₀, hevent, ⟨rfl, huncalled⟩ | ⟨del, rfl, hpending, hrecorded⟩⟩ :=
          h.written hlive haccounted hr
        · rw [if_neg huncalled]
          exact h.books.spent r hr₀
        · rw [hrecorded.spent hpending]
          exact Nat.add_le_add (h.books.spent r₀ hr₀) (by split <;> decide)
      · -- no call for a new row has been settled
        have hnew : r.id ∉ u.rows.map (·.id) := by
          rw [List.map_append, map_id_writeBack] at hnodup
          exact fun hold => List.disjoint_of_nodup_append hnodup hold (List.mem_map_of_mem hr)
        have hnone : ((u.ledger.settle (ss i)).settled.filter fun c => c.1 = r.id) = ∅ := by
          rw [Finset.filter_eq_empty_iff]
          intro c hc hid
          exact hnew (hid ▸ h.settled_known i hc)
        rw [hnone]
        exact Nat.zero_le _
  refine h.update hbooks .empty ?_ ?_ ?_
  · intro j hj
    refine ⟨?_, hids, ?_, ?_, ?_, ?_⟩
    · intro r hr hlocked
      rw [hrows]
      refine List.mem_append_left _ (haccounted.mem_writeBack hr fun hclaimed => ?_)
      obtain ⟨r₁, hr₁, hid⟩ := List.mem_map.mp hclaimed
      obtain ⟨-, -, hmine⟩ := hi.locked hlive r₁ hr₁
      rw [hid, hlocked] at hmine
      exact hj (Option.some.inj hmine)
    · rw [hlock]
      exact (World.grows_release (i := i)).locks j hj
    · rw [hlost]
    · omega
    · intro _ c hc
      rw [hcalls] at hc
      exact .inl hc
  · intro hclaimed
    exact absurd rfl hclaimed
  · intro c hc
    rw [hcalls] at hc
    rw [hlost, hledger]
    rcases h.accounted_or (i := i) hc with hlost | hsettled | ⟨-, hopen⟩ | hothers
    · exact .inl hlost
    · exact .inr (.inl (Finset.mem_union_left _ hsettled))
    · exact .inr (.inl (Finset.mem_union_right _ (List.mem_toFinset.mpr hopen)))
    · exact .inr (.inr (.inr hothers))

/-! ### Every step -/

theorem Balanced.later (h : Balanced policy u ss) (hu : u.Same u') : Balanced policy u' ss := by
  have hquiet := h.quiet (i := 0) hu ⟨rfl, rfl, rfl, rfl⟩ (h.drains 0).added
  rwa [Function.update_eq_self] at hquiet

/-- A claim that answers was carried out on a live transaction. -/
theorem perform_claim (now : Instant) (limit : Nat) (s : Session) (w : World) :
    (s.live = true ∧ perform i f (.claim now limit) s w =
        (.ok (w.claimable f.order now limit), { s with held := w.claimable f.order now limit },
          w.claimedBy i (w.claimable f.order now limit))) ∨
      ∃ e, perform i f (.claim now limit) s w = (.error e, s, w) := by
  unfold perform
  dsimp only
  split
  · rename_i hlive _
    exact .inl ⟨hlive, rfl⟩
  · exact .inr ⟨_, rfl⟩
  · exact .inr ⟨_, rfl⟩
  · exact .inr ⟨_, rfl⟩

/-- A publish call changes the broker, and what was acknowledged. -/
theorem perform_publish (row : Uuid) (subject body msgId : String) (s : Session) (w : World) :
    ∃ b acks broker, perform i f (.publish row subject body msgId) s w =
      (b, { s with acks := acks }, { w with broker := broker }) := by
  unfold perform
  dsimp only
  split
  · exact ⟨_, _, _, rfl⟩
  · exact ⟨_, s.acks, w.broker, rfl⟩

/-- A commit that takes effect leaves the rows it has written. -/
theorem perform_commit (s : Session) (w : World) :
    (perform i f .commit s w).2 = ({}, if takesEffect s.live (writeBack s.held w.rows ++ s.added)
      f.outcome = true then
        { w with rows := writeBack s.held w.rows ++ s.added }.release i else w.release i) := by
  show ((({} : Session), (w.commit i s.live (writeBack s.held w.rows ++ s.added) f.outcome).2)) = _
  congr 1
  unfold World.commit takesEffect
  split
  · rename_i hok
    have hboth : (s.live && decide ((writeBack s.held w.rows ++ s.added).map (·.id)).Nodup) = true := by
      rw [hok.1, decide_eq_true hok.2]
      rfl
    cases f.outcome with
    | done => exact (if_pos hboth).symm
    | refused exc => rfl
    | unreported exc => exact (if_pos hboth).symm
  · rename_i hok
    cases f.outcome with
    | refused exc => rfl
    | _ =>
      rw [if_neg]
      simpa using hok

theorem takesEffect_eq_true {live : Bool} {written : List OutboxEvent} {outcome : Outcome}
    (h : takesEffect live written outcome = true) :
    live = true ∧ (written.map (·.id)).Nodup := by
  cases outcome with
  | refused exc => cases h
  | _ => simpa [takesEffect] using h

/-- **One operation keeps the balance**, on a connection that stands. -/
theorem Balanced.enter {β : Type} {o : OutboxOp β} (h : Balanced policy u ss)
    (hpre : Promises policy o (ss i)) :
    Balanced policy (enter i f o (ss i) u).2.2
      (Function.update ss i (enter i f o (ss i) u).2.1) := by
  have hadded := (h.drains i).added
  have hsame : ∀ w : World, w.rows = u.rows → w.lock = u.lock →
      u.Same { u with toWorld := w, tick := u.tick + 1 } :=
    fun w hrows hlock => ⟨hrows, hlock, rfl, Nat.le_succ _⟩
  cases o with
  | now => exact h.quiet (hsame u.toWorld rfl rfl) ⟨rfl, rfl, rfl, rfl⟩ hadded
  | uniform low high => exact h.quiet (hsame u.toWorld rfl rfl) ⟨rfl, rfl, rfl, rfl⟩ hadded
  | assign row d => exact h.quiet (hsame u.toWorld rfl rfl) ⟨rfl, rfl, rfl, rfl⟩ hadded
  | sleep seconds => exact h.quiet (hsame u.toWorld rfl rfl) ⟨rfl, rfl, rfl, rfl⟩ hadded
  | add row =>
    refine h.quiet (hsame u.toWorld rfl rfl) ⟨rfl, rfl, rfl, rfl⟩ fun a ha => ?_
    rcases List.mem_append.mp ha with ha | ha
    · exact hadded a ha
    · rw [List.mem_singleton.mp ha]
      exact hpre
  | refreshStats =>
    unfold Outbox.enter perform
    dsimp only
    split <;> exact h.quiet (hsame u.toWorld rfl rfl) ⟨rfl, rfl, rfl, rfl⟩ hadded
  | claim now limit =>
    unfold Outbox.enter
    rcases perform_claim (i := i) (f := f) now limit (ss i).toSession u.toWorld with
      ⟨hlive, hclaim⟩ | ⟨e, hrefused⟩
    · simp only [hclaim]
      exact h.claim hpre hlive rfl rfl ⟨rfl, rfl, rfl⟩ rfl
    · simp only [hrefused]
      exact h.quiet (hsame u.toWorld rfl rfl) ⟨rfl, rfl, rfl, rfl⟩ hadded
  | publish row subject body msgId =>
    unfold Outbox.enter
    obtain ⟨b, acks, broker, hcall⟩ := perform_publish (i := i) (f := f) row subject body msgId
      (ss i).toSession u.toWorld
    simp only [hcall]
    exact h.publish hpre.1 hpre.2 ⟨rfl, rfl, rfl, rfl, rfl⟩ ⟨rfl, rfl, rfl⟩ rfl
  | close => exact (h.ended i).later ⟨rfl, rfl, rfl, Nat.le_succ _⟩
  | commit =>
    unfold Outbox.enter
    simp only [perform_commit]
    cases heffect : takesEffect (ss i).live (writeBack (ss i).held u.rows ++ (ss i).added)
        f.outcome with
    | true =>
      obtain ⟨hlive, hnodup⟩ := takesEffect_eq_true heffect
      exact h.commit hlive hpre hnodup ⟨rfl, rfl, rfl⟩ rfl
    | false => exact (h.ended i).later ⟨rfl, rfl, rfl, Nat.le_succ _⟩

/-- **The step lemma**, whether or not the connection is lost first. -/
theorem Balanced.book {β : Type} {o : OutboxOp β} (h : Balanced policy u ss)
    (hpre : Promises policy o (ss i)) :
    Balanced policy (book i f o (ss i) u).2.2
      (Function.update ss i (book i f o (ss i) u).2.1) := by
  unfold Outbox.book
  split
  · have hgone := h.rollBack i
    have hself : Function.update ss i { ss i with live := false } i = { ss i with live := false } :=
      Function.update_self ..
    have hstep := hgone.enter (i := i) (f := f) (o := o) (by rw [hself]; exact hpre.offline)
    rwa [hself, Function.update_idem] at hstep
  · exact h.enter hpre

end Balance

end FavlGateway.Outbox
