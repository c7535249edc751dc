/-
  A publisher with a clock.

  `Timed` is one publisher alone on its table: others commit new rows at any time, but nobody else
  publishes.  A step (`Elapses`) is an operation of the publisher that takes some time, no longer
  than `OperationalDelays` allows where it bounds it; which publish attempts were started, and when,
  is written down.

  The second half says, operation by operation, what a step can do; nothing after it looks into the
  operations again.
-/
import FavlGateway.Outbox.Publisher

namespace FavlGateway.Outbox

open FavlGateway.Library
open FavlGateway.Registry (Uuid uuidText)

/-! ## A publisher with a clock -/

/-- One publisher, the world, and the publish attempts so far with their starts. -/
structure Timed where
  clock : Instant
  world : World
  session : Session := {}
  attempts : List (Uuid × Instant) := []

/-- The publish attempt an operation starts. -/
def started : {β : Type} → OutboxOp β → Instant → List (Uuid × Instant)
  | _, .publish row _ _ _, t => [(row, t)]
  | _, _, _ => []

/-- What an operation makes of the state when it takes `wait` seconds, in which others commit the
    rows `arrivals`. -/
def Timed.after (f : Fate) (wait : ℚ) (arrivals : List OutboxEvent) {β : Type} (o : OutboxOp β)
    (s : Timed) : β × Timed :=
  let r := act 0 { f with now := s.clock } o s.session s.world
  (r.1,
    { clock := s.clock + wait
      world := { r.2.2 with rows := r.2.2.rows ++ arrivals }
      session := r.2.1
      attempts := s.attempts ++ started o s.clock })

/-- The bounds of `OperationalDelays` on what the publisher waits for; `none` where nothing is
    promised.  Nothing in the loop connects: that happens before it starts, or in the client. -/
def maxWait (delays : OperationalDelays) : {β : Type} → OutboxOp β → Option ℚ
  | _, .claim _ _ => some delays.dbLockWaitSeconds
  | _, .publish _ _ _ _ => some delays.publishTimeoutSeconds
  | _, .sleep _ => some delays.pollIntervalSeconds
  | _, .commit => none
  | _, .close => none
  | _, .refreshStats => none
  | _, _ => some 0

/-- A step of the publisher within the operational delays. -/
def Elapses (delays : OperationalDelays) {β : Type} (o : OutboxOp β) (s : Timed) (b : β)
    (s' : Timed) : Prop :=
  ∃ f wait arrivals, s.after f wait arrivals o = (b, s') ∧ 0 ≤ f.random ∧ f.random ≤ 1 ∧ 0 ≤ wait ∧
    (∀ d ∈ maxWait delays o, wait ≤ d) ∧ (s'.world.rows.map (·.id)).Nodup

/-- A row that has been attempted before is attempted again no later after it fell due than the
    operational delays allow for, its own publish call aside. -/
def OnSchedule (delays : OperationalDelays) {β : Type} : OutboxOp β → Timed → Prop
  | .publish row _ _ _, s => ∀ r ∈ s.session.held, r.id = row → (∃ t, (row, t) ∈ s.attempts) →
    s.clock ≤ r.nextAttemptAt + (delays.perAttemptSeconds - delays.publishTimeoutSeconds)
  | _, _ => True

/-- No drain is rolled back at its commit. -/
def Committed {β : Type} : OutboxOp β → β → Prop
  | .commit, answer => answer.isOk = true
  | _, _ => True

/-- The steps within the operational delays that meet a condition. -/
def timed (delays : OperationalDelays) (C : {β : Type} → OutboxOp β → Timed → β → Prop) :
    Discipline OutboxOp Timed where
  pre _ _ := True
  eff o s b s' := Elapses delays o s b s' ∧ C o s b

/-- No condition. -/
def Anyhow {β : Type} (_ : OutboxOp β) (_ : Timed) (_ : β) : Prop := True

/-- No row is held up, and no drain is rolled back. -/
def Undelayed (delays : OperationalDelays) {β : Type} (o : OutboxOp β) (s : Timed) (b : β) : Prop :=
  OnSchedule delays o s ∧ Committed o b

/-- Before the publisher's first drain, on any table. -/
structure Timed.Initial (s : Timed) : Prop where
  session : s.session = {}
  attempts : s.attempts = []
  keys : (s.world.rows.map (·.id)).Nodup

/-- The table as the open transaction would leave it. -/
def Timed.view (s : Timed) : List OutboxEvent := writeBack s.session.held s.world.rows

/-! ## What a step can do -/

/-- What every step leaves alone, unless it commits or starts an attempt. -/
structure Timed.Onward (s s' : Timed) : Prop where
  rows : ∃ arrivals, s'.world.rows = s.world.rows ++ arrivals
  keys : (s'.world.rows.map (·.id)).Nodup
  attempts : s'.attempts = s.attempts
  clock : s.clock ≤ s'.clock
  added : s'.session.added = s.session.added

section Steps

variable {delays : OperationalDelays} {s s' : Timed}

/-- A step is an operation on a session whose connection may be gone, on the same rows. -/
theorem Elapses.cases {β : Type} {o : OutboxOp β} {b : β} (h : Elapses delays o s b s') :
    ∃ f live w wait arrivals, w.rows = s.world.rows ∧ f.now = s.clock ∧
      (perform 0 f o { s.session with live := live } w).1 = b ∧
      s'.session = (perform 0 f o { s.session with live := live } w).2.1 ∧
      s'.world.rows = (perform 0 f o { s.session with live := live } w).2.2.rows ++ arrivals ∧
      s'.attempts = s.attempts ++ started o s.clock ∧ s'.clock = s.clock + wait ∧ 0 ≤ wait ∧
      (∀ d ∈ maxWait delays o, wait ≤ d) ∧ 0 ≤ f.random ∧ f.random ≤ 1 ∧
      (s'.world.rows.map (·.id)).Nodup := by
  obtain ⟨f, wait, arrivals, hafter, hlow, hhigh, hwait, hmax, hkeys⟩ := h
  unfold Timed.after act at hafter
  split at hafter
  · cases hafter
    exact ⟨{ f with now := s.clock }, false, s.world.release 0, wait, arrivals, rfl, rfl, rfl, rfl,
      rfl, rfl, rfl, hwait, hmax, hlow, hhigh, hkeys⟩
  · cases hafter
    exact ⟨{ f with now := s.clock }, s.session.live, s.world, wait, arrivals, rfl, rfl, rfl, rfl,
      rfl, rfl, rfl, hwait, hmax, hlow, hhigh, hkeys⟩

/-- An operation that writes no row and starts no attempt. -/
theorem Elapses.onward {β : Type} {o : OutboxOp β} {b : β} (h : Elapses delays o s b s')
    (hrows : ∀ f t w, (perform 0 f o t w).2.2.rows = w.rows)
    (hadded : ∀ f t w, (perform 0 f o t w).2.1.added = t.added)
    (hstarted : ∀ t, started o t = []) : s.Onward s' := by
  obtain ⟨f, live, w, wait, arrivals, hw, -, -, hs, hrows', hattempts, hclock, hwait, -, -, -, hkeys⟩ :=
    h.cases
  refine ⟨⟨arrivals, ?_⟩, hkeys, ?_, ?_, ?_⟩
  · rw [hrows', hrows, hw]
  · rw [hattempts, hstarted, List.append_nil]
  · rw [hclock]
    exact le_add_of_nonneg_right hwait
  · rw [hs, hadded]

theorem Elapses.held {β : Type} {o : OutboxOp β} {b : β} (h : Elapses delays o s b s')
    (hheld : ∀ f t w, (perform 0 f o t w).2.1.held = t.held) :
    s'.session.held = s.session.held := by
  obtain ⟨f, live, w, wait, arrivals, -, -, -, hs, -⟩ := h.cases
  rw [hs, hheld]

/-- An operation that nothing has to be waited for. -/
theorem Elapses.instant {β : Type} {o : OutboxOp β} {b : β} (h : Elapses delays o s b s')
    (hmax : maxWait delays o = some 0) : s'.clock = s.clock := by
  obtain ⟨f, live, w, wait, arrivals, -, -, -, -, -, -, hclock, hwait, hle, -⟩ := h.cases
  have hzero : wait = 0 := le_antisymm (hle 0 hmax) hwait
  rw [hclock, hzero, add_zero]

theorem Elapses.now {t : Instant} (h : Elapses delays .now s t s') :
    t = s.clock ∧ s'.clock = s.clock ∧ s'.session.held = s.session.held ∧ s.Onward s' := by
  obtain ⟨f, live, w, wait, arrivals, -, hnow, rfl, -⟩ := h.cases
  refine ⟨hnow, h.instant rfl, h.held fun _ _ _ => rfl, ?_⟩
  exact h.onward (fun _ _ _ => rfl) (fun _ _ _ => rfl) fun _ => rfl

theorem Elapses.uniform {low high u : ℚ} (h : Elapses delays (.uniform low high) s u s')
    (hle : low ≤ high) :
    u ≤ high ∧ s'.clock = s.clock ∧ s'.session.held = s.session.held ∧ s.Onward s' := by
  obtain ⟨f, live, w, wait, arrivals, -, -, rfl, -, -, -, -, -, -, -, hhigh, -⟩ := h.cases
  refine ⟨?_, h.instant rfl, h.held fun _ _ _ => rfl, ?_⟩
  · show low + (high - low) * f.random ≤ high
    nlinarith only [hle, hhigh]
  · exact h.onward (fun _ _ _ => rfl) (fun _ _ _ => rfl) fun _ => rfl

theorem Elapses.assign {row : Uuid} {d : Delivery} {u : Unit}
    (h : Elapses delays (.assign row d) s u s') :
    s'.clock = s.clock ∧ s'.session.held = assigned row d s.session.held ∧ s.Onward s' := by
  refine ⟨h.instant rfl, ?_, h.onward (fun _ _ _ => rfl) (fun _ _ _ => rfl) fun _ => rfl⟩
  obtain ⟨f, live, w, wait, arrivals, -, -, -, hs, -⟩ := h.cases
  rw [hs]
  rfl

theorem Elapses.refreshStats {r : Except Exc Unit} (h : Elapses delays .refreshStats s r s') :
    s'.session.held = s.session.held ∧ s.Onward s' := by
  have hsame : ∀ f t w, (perform 0 f .refreshStats t w).2 = (t, w) := by
    intro f t w
    unfold perform
    dsimp only
    split <;> rfl
  refine ⟨h.held fun f t w => by rw [hsame], ?_⟩
  exact h.onward (fun f t w => by rw [hsame]) (fun f t w => by rw [hsame]) fun _ => rfl

theorem Elapses.sleep {q : ℚ} {u : Unit} (h : Elapses delays (.sleep q) s u s') :
    s'.session.held = s.session.held ∧ s.Onward s' :=
  ⟨h.held fun _ _ _ => rfl, h.onward (fun _ _ _ => rfl) (fun _ _ _ => rfl) fun _ => rfl⟩

/-- A claim that raises holds nothing new; one that answers holds pending rows of the table. -/
theorem Elapses.claim {now : Instant} {limit : Nat} {r : Except Exc (List OutboxEvent)}
    (h : Elapses delays (.claim now limit) s r s') :
    s.Onward s' ∧ (∀ e, r = .error e → s'.session.held = s.session.held) ∧
      ∀ rows, r = .ok rows → s'.session.held = rows ∧
        (∀ row ∈ rows, row ∈ s.world.rows ∧ row.status = .pending) ∧
        ((s.world.rows.map (·.id)).Nodup → (rows.map (·.id)).Nodup) := by
  refine ⟨h.onward ?_ ?_ fun _ => rfl, ?_, ?_⟩
  · intro f t w
    unfold perform
    dsimp only
    split <;> rfl
  · intro f t w
    unfold perform
    dsimp only
    split <;> rfl
  · intro e he
    obtain ⟨f, live, w, wait, arrivals, -, -, rfl, hs, -⟩ := h.cases
    rw [hs]
    unfold perform at he ⊢
    dsimp only at he ⊢
    split at he
    · cases he
    · rfl
    · rfl
    · rfl
  · intro rows hr
    obtain ⟨f, live, w, wait, arrivals, hw, -, rfl, hs, -⟩ := h.cases
    rw [hs]
    unfold perform at hr ⊢
    dsimp only at hr ⊢
    split at hr
    · cases hr
      refine ⟨rfl, ?_, ?_⟩
      · intro row hrow
        obtain ⟨hmem, hpending, -⟩ := mem_claimable hrow
        exact ⟨hw ▸ hmem, hpending⟩
      · intro hnodup
        exact nodup_claimable (by rw [hw]; exact hnodup)
    · cases hr
    · cases hr
    · cases hr

theorem Elapses.publish {row : Uuid} {subject body msgId : String} {r : Except Exc PubAck}
    (h : Elapses delays (.publish row subject body msgId) s r s') :
    (∃ arrivals, s'.world.rows = s.world.rows ++ arrivals) ∧ (s'.world.rows.map (·.id)).Nodup ∧
      s'.attempts = s.attempts ++ [(row, s.clock)] ∧ s.clock ≤ s'.clock ∧
      s'.clock ≤ s.clock + delays.publishTimeoutSeconds ∧
      s'.session.held = s.session.held ∧ s'.session.added = s.session.added := by
  have hkept : ∀ f t w,
      (perform 0 f (.publish row subject body msgId) t w).2.1.held = t.held ∧
      (perform 0 f (.publish row subject body msgId) t w).2.1.added = t.added ∧
      (perform 0 f (.publish row subject body msgId) t w).2.2.rows = w.rows := by
    intro f t w
    unfold perform
    dsimp only
    split <;> exact ⟨rfl, rfl, rfl⟩
  obtain ⟨f, live, w, wait, arrivals, hw, -, -, hs, hrows, hattempts, hclock, hwait, hmax, -, -,
    hkeys⟩ := h.cases
  obtain ⟨hheld, hadded, hsame⟩ := hkept f { s.session with live := live } w
  have hbound : wait ≤ delays.publishTimeoutSeconds := hmax _ rfl
  refine ⟨⟨arrivals, by rw [hrows, hsame, hw]⟩, hkeys, hattempts, ?_, ?_, ?_, ?_⟩
  · linarith
  · linarith
  · rw [hs, hheld]
  · rw [hs, hadded]

/-- A commit that answers leaves the table as the transaction saw it, and no transaction. -/
theorem Elapses.commit {r : Except Exc Unit} (h : Elapses delays .commit s r s')
    (hok : r.isOk = true) (hadded : s.session.added = []) :
    s'.session = {} ∧ (∃ arrivals, s'.world.rows = s.view ++ arrivals) ∧
      (s'.world.rows.map (·.id)).Nodup ∧ s'.attempts = s.attempts ∧ s.clock ≤ s'.clock := by
  obtain ⟨f, live, w, wait, arrivals, hw, -, rfl, hs, hrows, hattempts, hclock, hwait, -, -, -,
    hkeys⟩ := h.cases
  have hwritten : (perform 0 f .commit { s.session with live := live } w).2.2.rows = s.view := by
    unfold perform World.commit at hok ⊢
    dsimp only at hok ⊢
    rw [hadded, List.append_nil] at hok ⊢
    split at hok
    · rename_i hlive
      rw [if_pos hlive]
      cases houtcome : f.outcome with
      | done =>
        show writeBack s.session.held w.rows = s.view
        rw [hw]
        rfl
      | refused exc =>
        rw [houtcome] at hok
        cases hok
      | unreported exc =>
        rw [houtcome] at hok
        cases hok
    · cases hok
  refine ⟨by rw [hs]; rfl, ⟨arrivals, by rw [hrows, hwritten]⟩, hkeys, ?_, by linarith⟩
  rw [hattempts]
  exact List.append_nil _

theorem Elapses.close {u : Unit} (h : Elapses delays .close s u s') :
    s'.session = {} ∧ (∃ arrivals, s'.world.rows = s.world.rows ++ arrivals) ∧
      (s'.world.rows.map (·.id)).Nodup ∧ s'.attempts = s.attempts ∧ s.clock ≤ s'.clock := by
  obtain ⟨f, live, w, wait, arrivals, hw, -, -, hs, hrows, hattempts, hclock, hwait, -, -, -,
    hkeys⟩ := h.cases
  refine ⟨by rw [hs]; rfl, ⟨arrivals, by rw [hrows, ← hw]; rfl⟩, hkeys, ?_, by linarith⟩
  rw [hattempts]
  exact List.append_nil _

end Steps

end FavlGateway.Outbox
