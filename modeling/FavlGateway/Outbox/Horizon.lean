/-
  The certified retry horizon against the schedule it is meant to bound.

  `worst_case_retry_horizon` charges a row for its own attempts and backoffs.  The publisher, though,
  works through a batch one row at a time, so a row that has fallen due also waits for the publish
  calls of the rows before it, and nothing in the horizon pays for those.  A run that keeps to the
  bounds of `OperationalDelays` can stretch a row's attempts beyond the horizon and beyond the
  duplicate window itself (`retries_escape_the_window`).

  The horizon does bound every run in which no row is held up on the way to a further attempt
  (`OnSchedule`) and no drain is rolled back (`Committed`): then each further attempt costs no more
  than the sum charges for it, which is the invariant `Accounted`.
-/
import FavlGateway.Outbox.Timed

namespace FavlGateway.Outbox

open FavlGateway.Library
open FavlGateway.Registry (Uuid uuidText)

/-! ## The account of a run -/

/-- No two attempts of one row are further apart than the horizon. -/
def Timed.Within (policy : RetryPolicy) (delays : OperationalDelays) (s : Timed) : Prop :=
  ∀ x ∈ s.attempts, ∀ y ∈ s.attempts, x.1 = y.1 →
    y.2 - x.2 ≤ worstCaseRetryHorizon policy delays

/-- A row may be attempted again, and will be on its way early enough for an attempt that started
    at `t`. -/
def OnAccount (policy : RetryPolicy) (delays : OperationalDelays) (r : OutboxEvent) (t : Instant) :
    Prop :=
  (r.attempts : Int) < policy.maxAttempts ∧
    r.nextAttemptAt + (delays.perAttemptSeconds - delays.publishTimeoutSeconds) ≤
      t + budget policy delays r.attempts

/-- What holds between the steps of the publisher; `busy` is the row whose publish call has just
    failed, until that is recorded. -/
structure Accounted (policy : RetryPolicy) (delays : OperationalDelays) (busy : Option OutboxEvent)
    (s : Timed) : Prop where
  keys : (s.world.rows.map (·.id)).Nodup
  known : ∀ x ∈ s.attempts, x.1 ∈ s.world.rows.map (·.id)
  past : ∀ x ∈ s.attempts, x.2 ≤ s.clock
  added : s.session.added = []
  within : s.Within policy delays
  due : ∀ r ∈ s.view, r.status = .pending → (∀ b ∈ busy, r.id ≠ b.id) →
    ∀ x ∈ s.attempts, x.1 = r.id → OnAccount policy delays r x.2
  spent : ∀ b ∈ busy, (b.attempts + 1 : Int) < policy.maxAttempts →
    ∀ x ∈ s.attempts, x.1 = b.id →
      s.clock ≤ x.2 + delays.publishTimeoutSeconds + budget policy delays b.attempts

/-- Between two drains. -/
def Settled (policy : RetryPolicy) (delays : OperationalDelays) (s : Timed) : Prop :=
  Accounted policy delays none s ∧ s.session.held = []

/-- The row is held, and nothing has been assigned to it yet. -/
def Timed.Loaded (s : Timed) (r : OutboxEvent) : Prop := r ∈ s.session.held ∧ r ∈ s.view

section Account

variable {policy : RetryPolicy} {delays : OperationalDelays} {busy busy' : Option OutboxEvent}
  {s s' : Timed} {row r : OutboxEvent} {base : List OutboxEvent}

theorem not_busy {P : OutboxEvent → Prop} : ∀ b ∈ (none : Option OutboxEvent), P b :=
  fun b hb => absurd hb (Option.not_mem_none b)

/-- Rows that others have committed meanwhile are new. -/
theorem new_of_arrived {held rows arrivals : List OutboxEvent}
    (hkeys : ((rows ++ arrivals).map (·.id)).Nodup) (hr : r ∈ writeBack held arrivals) :
    r.id ∉ rows.map (·.id) := by
  have hid : r.id ∈ arrivals.map (·.id) := by
    have hmem : r.id ∈ (writeBack held arrivals).map (·.id) := List.mem_map_of_mem hr
    rwa [map_id_writeBack] at hmem
  rw [List.map_append] at hkeys
  intro hmem
  exact (List.nodup_append.mp hkeys).2.2 _ hmem _ hid rfl

/-- **What a step has to show**: it leaves the attempts alone, and what it makes of the rows that
    were there, the new ones aside, is on account. -/
theorem Accounted.step (h : Accounted policy delays busy s)
    (hbase : base.map (·.id) = s.world.rows.map (·.id))
    (hrows : ∃ arrivals, s'.world.rows = base ++ arrivals)
    (hkeys : (s'.world.rows.map (·.id)).Nodup) (hattempts : s'.attempts = s.attempts)
    (hclock : s.clock ≤ s'.clock) (hadded : s'.session.added = [])
    (hdue : ∀ r ∈ writeBack s'.session.held base, r.status = .pending →
      (∀ b ∈ busy', r.id ≠ b.id) → ∀ x ∈ s.attempts, x.1 = r.id → OnAccount policy delays r x.2)
    (hspent : ∀ b ∈ busy', (b.attempts + 1 : Int) < policy.maxAttempts →
      ∀ x ∈ s.attempts, x.1 = b.id →
        s'.clock ≤ x.2 + delays.publishTimeoutSeconds + budget policy delays b.attempts) :
    Accounted policy delays busy' s' := by
  obtain ⟨arrivals, hrows⟩ := hrows
  refine ⟨hkeys, ?_, ?_, hadded, ?_, ?_, ?_⟩
  · intro x hx
    rw [hattempts] at hx
    rw [hrows, List.map_append, hbase]
    exact List.mem_append_left _ (h.known x hx)
  · intro x hx
    rw [hattempts] at hx
    exact le_trans (h.past x hx) hclock
  · intro x hx y hy
    rw [hattempts] at hx hy
    exact h.within x hx y hy
  · intro r hr hpending hother x hx hid
    rw [hattempts] at hx
    rw [Timed.view, hrows, writeBack_append] at hr
    rcases List.mem_append.mp hr with hr | hr
    · exact hdue r hr hpending hother x hx hid
    · rw [hrows] at hkeys
      have hnew := new_of_arrived hkeys hr
      rw [hbase, ← hid] at hnew
      exact absurd (h.known x hx) hnew
  · intro b hb hretry x hx hid
    rw [hattempts] at hx
    exact hspent b hb hretry x hx hid

/-- A step that only lets time pass. -/
theorem Accounted.wait (h : Accounted policy delays none s) (hon : s.Onward s')
    (hheld : s'.session.held = s.session.held) : Accounted policy delays none s' := by
  refine h.step rfl hon.rows hon.keys hon.attempts hon.clock (by rw [hon.added, h.added]) ?_ not_busy
  rw [hheld]
  exact h.due

/-- A step that takes no time, while a failure is being recorded. -/
theorem Accounted.instant (h : Accounted policy delays busy s) (hon : s.Onward s')
    (hheld : s'.session.held = s.session.held) (hclock : s'.clock = s.clock) :
    Accounted policy delays busy s' := by
  refine h.step rfl hon.rows hon.keys hon.attempts hon.clock (by rw [hon.added, h.added]) ?_ ?_
  · rw [hheld]
    exact h.due
  · rw [hclock]
    exact h.spent

/-- A row that was only read stays so while others are worked on. -/
theorem Timed.Loaded.onward (h : s.Loaded r) (hheld : s'.session.held = s.session.held)
    (hrows : ∃ arrivals, s'.world.rows = s.world.rows ++ arrivals) : s'.Loaded r := by
  obtain ⟨arrivals, hrows⟩ := hrows
  refine ⟨by rw [hheld]; exact h.1, ?_⟩
  rw [Timed.view, hrows, hheld, writeBack_append]
  exact List.mem_append_left _ h.2

theorem Timed.Loaded.assign {d : Delivery} {id : Uuid} (h : s.Loaded r) (hne : r.id ≠ id)
    (hrow : id ∈ s.session.held.map (·.id))
    (hheld : s'.session.held = assigned id d s.session.held) (hon : s.Onward s') : s'.Loaded r := by
  obtain ⟨arrivals, hrows⟩ := hon.rows
  refine ⟨by rw [hheld]; exact mem_assigned_of_ne h.1 hne, ?_⟩
  rw [Timed.view, hrows, hheld, writeBack_append, writeBack_assigned hrow]
  exact List.mem_append_left _ (mem_assigned_of_ne h.2 hne)

/-- **An attempt starts**: on schedule, so it is within the horizon of those before. -/
theorem Accounted.publish (sane : Accountable policy delays)
    (h : Accounted policy delays none s) (hloaded : s.Loaded row) (hpending : row.status = .pending)
    {subject body msgId : String} {reply : Except Exc PubAck}
    (heff : Elapses delays (.publish row.id subject body msgId) s reply s')
    (hon : OnSchedule delays (.publish row.id subject body msgId) s) :
    Accounted policy delays (some row) s' := by
  obtain ⟨⟨arrivals, hrows⟩, hkeys, hattempts, hlow, hhigh, hheld, hadded⟩ := heff.publish
  -- what an attempt before has left: the row is due early enough
  have hbefore : ∀ x ∈ s.attempts, x.1 = row.id →
      (row.attempts : Int) < policy.maxAttempts ∧
        s.clock ≤ x.2 + budget policy delays row.attempts := by
    intro x hx hid
    obtain ⟨hretry, hdue⟩ := h.due row hloaded.2 hpending not_busy x hx hid
    have hstart := hon row hloaded.1 rfl ⟨x.2, by rw [← hid]; exact hx⟩
    exact ⟨hretry, le_trans hstart hdue⟩
  refine ⟨hkeys, ?_, ?_, by rw [hadded, h.added], ?_, ?_, ?_⟩
  · intro x hx
    rw [hattempts] at hx
    rw [hrows, List.map_append]
    refine List.mem_append_left _ ?_
    rcases List.mem_append.mp hx with hx | hx
    · exact h.known x hx
    · have hmem : row.id ∈ s.view.map (·.id) := List.mem_map_of_mem hloaded.2
      rw [Timed.view, map_id_writeBack] at hmem
      rw [List.mem_singleton.mp hx]
      exact hmem
  · intro x hx
    rw [hattempts] at hx
    rcases List.mem_append.mp hx with hx | hx
    · exact le_trans (h.past x hx) hlow
    · rw [List.mem_singleton.mp hx]
      exact hlow
  · intro x hx y hy hid
    rw [hattempts] at hx hy
    have hhorizon := sane.horizon_nonneg
    rcases List.mem_append.mp hx with hx | hx
    · rcases List.mem_append.mp hy with hy | hy
      · exact h.within x hx y hy hid
      · rw [List.mem_singleton.mp hy] at hid ⊢
        obtain ⟨hretry, hstart⟩ := hbefore x hx hid
        have hbudget := sane.budget_le_horizon hretry
        show s.clock - x.2 ≤ _
        linarith
    · have hlast : y.2 ≤ s.clock := by
        rcases List.mem_append.mp hy with hy | hy
        · exact h.past y hy
        · rw [List.mem_singleton.mp hy]
      rw [List.mem_singleton.mp hx]
      show y.2 - s.clock ≤ _
      linarith
  · intro r hr hstatus hother x hx hid
    rw [hattempts] at hx
    have hne : r.id ≠ row.id := hother row rfl
    rcases List.mem_append.mp hx with hx | hx
    · rw [Timed.view, hheld, hrows, writeBack_append] at hr
      rcases List.mem_append.mp hr with hr | hr
      · exact h.due r hr hstatus not_busy x hx hid
      · rw [hrows] at hkeys
        have hnew := new_of_arrived hkeys hr
        rw [← hid] at hnew
        exact absurd (h.known x hx) hnew
    · rw [List.mem_singleton.mp hx] at hid
      exact absurd hid.symm hne
  · intro b hb hretry x hx hid
    obtain rfl := Option.mem_some_iff.mp hb
    rw [hattempts] at hx
    have hagain : (row.attempts : Int) < policy.maxAttempts := by omega
    have hbudget := sane.budget_nonneg hagain
    rcases List.mem_append.mp hx with hx | hx
    · obtain ⟨-, hstart⟩ := hbefore x hx hid
      linarith
    · rw [List.mem_singleton.mp hx]
      show s'.clock ≤ s.clock + delays.publishTimeoutSeconds + budget policy delays row.attempts
      linarith

/-- **An attempt's outcome is recorded**: if the row stays pending, it is on account again. -/
theorem Accounted.assign {d : Delivery} (h : Accounted policy delays (some row) s)
    (hrow : row.id ∈ s.session.held.map (·.id))
    (hheld : s'.session.held = assigned row.id d s.session.held) (hon : s.Onward s')
    (hdue : d.status = .pending → ∀ x ∈ s.attempts, x.1 = row.id →
      (d.attempts : Int) < policy.maxAttempts ∧
        d.nextAttemptAt + (delays.perAttemptSeconds - delays.publishTimeoutSeconds) ≤
          x.2 + budget policy delays d.attempts) :
    Accounted policy delays none s' := by
  refine h.step rfl hon.rows hon.keys hon.attempts hon.clock (by rw [hon.added, h.added]) ?_ not_busy
  intro r hr hpending _ x hx hid
  rw [hheld, writeBack_assigned hrow] at hr
  rcases mem_assigned hr with ⟨hr, hne⟩ | ⟨r₀, hr₀, hid₀, rfl⟩
  · refine h.due r hr hpending ?_ x hx hid
    intro b hb
    obtain rfl := Option.mem_some_iff.mp hb
    exact hne
  · exact hdue hpending x hx (hid.trans hid₀)

end Account

/-! ## The publisher keeps the account -/

/-- Undelayed steps, each awaited while no two attempts are too far apart. -/
def certified (policy : RetryPolicy) (delays : OperationalDelays) : Discipline OutboxOp Timed where
  pre _ s := s.Within policy delays
  eff o s b s' := Elapses delays o s b s' ∧ Undelayed delays o s b

/-- How code between two attempts may end: on account, or cancelled. -/
def Ending {α : Type} (policy : RetryPolicy) (delays : OperationalDelays) (keep : Timed → Prop) :
    Except Exc α → Timed → Prop
  | .ok _, s => Accounted policy delays none s ∧ keep s
  | .error e, s => e.isException = false ∧ s.Within policy delays

section Obeys

variable {dumps : Json String → String} {policy : RetryPolicy} {delays : OperationalDelays}
  {publisher : OutboxPublisher} {s : Timed} {row : OutboxEvent} {result : DrainResult} {exc : Exc}

/-- `compute_backoff` never exceeds what `backoff_for` bounds it by. -/
theorem backoff_le (sane : Accountable policy delays) {a : Nat} (hpos : 1 ≤ a)
    (ha : (a : Int) < policy.maxAttempts) {noise : ℚ}
    (hnoise : noise ≤ policy.raw a * policy.jitterRatio) :
    max (1 / 10) (policy.raw a + noise) ≤ policy.backoffFor a := by
  refine max_le (sane.floor a hpos ha) ?_
  calc policy.raw a + noise ≤ policy.raw a + policy.raw a * policy.jitterRatio := by linarith
    _ = policy.backoffFor a := by rw [RetryPolicy.backoffFor]; ring

theorem raw_nonneg (sane : Accountable policy delays) {a : Nat} (hpos : 1 ≤ a)
    (ha : (a : Int) < policy.maxAttempts) : 0 ≤ policy.raw a := by
  have hfloor := sane.floor a hpos ha
  have hjitter := sane.jitter
  rw [RetryPolicy.backoffFor] at hfloor
  by_contra hneg
  have hprod : policy.raw a * (1 + policy.jitterRatio) ≤ 0 :=
    mul_nonpos_of_nonpos_of_nonneg (le_of_lt (not_le.mp hneg)) (by linarith)
  linarith

/-- The other rows of the batch stay as they were read. -/
def Spares (s : Timed) (row : OutboxEvent) (s' : Timed) : Prop :=
  ∀ r, r.id ≠ row.id → s.Loaded r → s'.Loaded r

theorem recordFailure_certified (sane : Accountable policy delays)
    (h : Accounted policy delays (some row) s) (hheld : row ∈ s.session.held) :
    (recordFailure policy row exc result).Obeys (certified policy delays)
      (Ending policy delays (Spares s row)) s := by
  have hrow : row.id ∈ s.session.held.map (·.id) := List.mem_map_of_mem hheld
  unfold recordFailure computeBackoff await
  dsimp only
  split
  · refine ⟨h.within, ?_⟩
    intro u s' heff
    obtain ⟨-, hassigned, hon⟩ := heff.1.assign
    exact ⟨h.assign hrow hassigned hon nofun, fun r hne hr => hr.assign hne hrow hassigned hon⟩
  · rename_i hlimit
    have hretry : ((row.attempts + 1 : Nat) : Int) < policy.maxAttempts :=
      lt_of_lt_of_le (not_le.mp hlimit) (min_le_left _ _)
    have hraw := raw_nonneg sane (Nat.le_add_left 1 row.attempts) hretry
    have hjitter : 0 ≤ policy.raw (row.attempts + 1) * policy.jitterRatio :=
      mul_nonneg hraw sane.jitter
    refine ⟨h.within, ?_⟩
    intro noise s₁ heff₁
    obtain ⟨hnoise, hclock₁, hheld₁, hon₁⟩ := heff₁.1.uniform (by
      show -(policy.raw (row.attempts + 1) * policy.jitterRatio) ≤ _
      exact neg_le_self hjitter)
    have h₁ := h.instant hon₁ hheld₁ hclock₁
    refine ⟨h₁.within, ?_⟩
    intro now s₂ heff₂
    obtain ⟨rfl, hclock₂, hheld₂, hon₂⟩ := heff₂.1.now
    have h₂ := h₁.instant hon₂ hheld₂ hclock₂
    have hrow₂ : row.id ∈ s₂.session.held.map (·.id) := by rwa [hheld₂, hheld₁]
    refine ⟨h₂.within, ?_⟩
    intro u s₃ heff₃
    obtain ⟨-, hassigned, hon₃⟩ := heff₃.1.assign
    refine ⟨h₂.assign hrow₂ hassigned hon₃ ?_, ?_⟩
    · intro _ x hx hid
      refine ⟨hretry, ?_⟩
      have hspent := h₂.spent row rfl (by push_cast at hretry; exact hretry) x hx hid
      have hback := backoff_le sane (Nat.le_add_left 1 row.attempts) hretry hnoise
      rw [hclock₂] at hspent
      show s₁.clock + max (1 / 10) (policy.raw (row.attempts + 1) + noise) + _ ≤
        x.2 + (budget policy delays row.attempts + delays.perAttemptSeconds +
          policy.backoffFor (row.attempts + 1))
      linarith
    · intro r hne hr
      have hr₂ := (hr.onward hheld₁ hon₁.rows).onward hheld₂ hon₂.rows
      exact hr₂.assign hne hrow₂ hassigned hon₃

theorem publishRow_certified (sane : Accountable policy delays)
    (h : Accounted policy delays none s) (hloaded : s.Loaded row) (hpending : row.status = .pending) :
    (publishRow dumps policy row result).Obeys (certified policy delays)
      (Ending policy delays (Spares s row)) s := by
  unfold publishRow await
  simp only [Prog.perform_bind, Prog.pure_eq]
  refine ⟨h.within, ?_⟩
  intro reply s₁ heff₁
  have h₁ := h.publish sane hloaded hpending heff₁.1 heff₁.2.1
  obtain ⟨hrows₁, -, -, -, -, hheld₁, -⟩ := heff₁.1.publish
  have hspares₁ : ∀ r, s.Loaded r → s₁.Loaded r := fun r hr => hr.onward hheld₁ hrows₁
  have hmem₁ : row ∈ s₁.session.held := (hspares₁ row hloaded).1
  cases reply with
  | error exc =>
    dsimp only
    split
    · refine (recordFailure_certified sane h₁ hmem₁).mono ?_
      intro outcome s' hending
      cases outcome with
      | error e => exact hending
      | ok result' => exact ⟨hending.1, fun r hne hr => hending.2 r hne (hspares₁ r hr)⟩
    · rename_i hcancelled
      exact ⟨by simpa using hcancelled, h₁.within⟩
  | ok ack =>
    refine ⟨h₁.within, ?_⟩
    intro now s₂ heff₂
    obtain ⟨-, hclock₂, hheld₂, hon₂⟩ := heff₂.1.now
    have h₂ := h₁.instant hon₂ hheld₂ hclock₂
    have hrow₂ : row.id ∈ s₂.session.held.map (·.id) := by
      rw [hheld₂]
      exact List.mem_map_of_mem hmem₁
    refine ⟨h₂.within, ?_⟩
    intro u s₃ heff₃
    obtain ⟨-, hassigned, hon₃⟩ := heff₃.1.assign
    refine ⟨h₂.assign hrow₂ hassigned hon₃ nofun, ?_⟩
    intro r hne hr
    exact ((hspares₁ r hr).onward hheld₂ hon₂.rows).assign hne hrow₂ hassigned hon₃

theorem publishRows_certified (sane : Accountable policy delays) {rows : List OutboxEvent}
    (h : Accounted policy delays none s) (hkeys : (rows.map (·.id)).Nodup)
    (hrows : ∀ r ∈ rows, s.Loaded r ∧ r.status = .pending) :
    (publishRows dumps policy rows result).Obeys (certified policy delays)
      (Ending policy delays fun _ => True) s := by
  induction rows generalizing s result with
  | nil => exact ⟨h, trivial⟩
  | cons row rows ih =>
    obtain ⟨hloaded, hpending⟩ := hrows row (List.mem_cons_self ..)
    rw [List.map_cons, List.nodup_cons] at hkeys
    unfold publishRows
    refine Prog.Obeys.bind ((publishRow_certified sane h hloaded hpending).mono ?_)
    intro outcome s' hending
    cases outcome with
    | error e => exact hending
    | ok result' =>
      refine ih hending.1 hkeys.2 fun r hr => ?_
      obtain ⟨hr', hstatus⟩ := hrows r (List.mem_cons_of_mem _ hr)
      refine ⟨hending.2 r ?_ hr', hstatus⟩
      intro hid
      exact hkeys.1 (hid ▸ List.mem_map_of_mem hr)

/-- How a drain may end: settled, unless it was cancelled. -/
def Drained {α : Type} (policy : RetryPolicy) (delays : OperationalDelays) :
    Except Exc α → Timed → Prop
  | .ok _, s => Settled policy delays s
  | .error e, s => s.Within policy delays ∧ (e.isException = true → Settled policy delays s)

theorem Settled.wait {s' : Timed} (h : Settled policy delays s) (hon : s.Onward s')
    (hheld : s'.session.held = s.session.held) : Settled policy delays s' :=
  ⟨h.1.wait hon hheld, hheld.trans h.2⟩

/-- Closing a session that holds nothing. -/
theorem Settled.close {s' : Timed} {u : Unit} (h : Settled policy delays s)
    (heff : Elapses delays .close s u s') : Settled policy delays s' := by
  obtain ⟨hsession, hrows, hkeys, hattempts, hclock⟩ := heff.close
  refine ⟨h.1.step rfl hrows hkeys hattempts hclock (by rw [hsession]) ?_ not_busy,
    by rw [hsession]⟩
  have hdue := h.1.due
  rw [Timed.view, h.2] at hdue
  rw [hsession]
  exact hdue

theorem Timed.Within.close {s' : Timed} {u : Unit} (h : s.Within policy delays)
    (heff : Elapses delays .close s u s') : s'.Within policy delays := by
  obtain ⟨-, -, -, hattempts, -⟩ := heff.close
  intro x hx y hy
  rw [hattempts] at hx hy
  exact h x hx y hy

theorem drainBatch_certified (sane : Accountable publisher.retryPolicy delays) {now : Instant}
    (h : Settled publisher.retryPolicy delays s) :
    (drainBatch dumps publisher now).Obeys (certified publisher.retryPolicy delays)
      (Drained publisher.retryPolicy delays) s := by
  unfold drainBatch attempt await
  simp only [Prog.perform_bind, Prog.op_bind]
  refine ⟨h.1.within, ?_⟩
  intro answer s₁ heff₁
  obtain ⟨hon, hraised, hclaimed⟩ := heff₁.1.claim
  cases answer with
  | error e =>
    have h₁ := h.wait hon (hraised e rfl)
    exact ⟨h₁.1.within, fun _ => h₁⟩
  | ok rows =>
    obtain ⟨hheld, hmem, hnodup⟩ := hclaimed rows rfl
    obtain ⟨arrivals, hrows⟩ := hon.rows
    have hin : ∀ r ∈ rows, r ∈ s.world.rows := fun r hr => (hmem r hr).1
    -- claiming only reads: the transaction would leave the table as it is
    have hread : writeBack s₁.session.held s.world.rows = s.world.rows := by
      rw [hheld]
      exact writeBack_eq_self h.1.keys hin
    have hview : ∀ r ∈ s.world.rows, r ∈ s₁.view := by
      intro r hr
      rw [Timed.view, hrows, writeBack_append, hread]
      exact List.mem_append_left _ hr
    have h₁ : Accounted publisher.retryPolicy delays none s₁ := by
      refine h.1.step rfl hon.rows hon.keys hon.attempts hon.clock (by rw [hon.added, h.1.added]) ?_
        not_busy
      have hdue := h.1.due
      rw [Timed.view, h.2, writeBack_nil] at hdue
      rw [hread]
      exact hdue
    simp only [Prog.ofExcept, Prog.ret_bind]
    refine Prog.Obeys.bind ((publishRows_certified sane h₁ (hnodup h.1.keys) ?_).mono ?_)
    · intro r hr
      exact ⟨⟨by rw [hheld]; exact hr, hview r (hin r hr)⟩, (hmem r hr).2⟩
    · intro outcome s₂ hending
      cases outcome with
      | error e =>
        refine ⟨hending.2, fun hexception => ?_⟩
        rw [hending.1] at hexception
        cases hexception
      | ok result =>
        obtain ⟨h₂, -⟩ := hending
        refine ⟨h₂.within, ?_⟩
        intro answer s₃ heff₃
        have hok : answer.isOk = true := heff₃.2.2
        obtain ⟨hsession, hwritten, hkeys, hattempts, hclock⟩ := heff₃.1.commit hok h₂.added
        have h₃ : Settled publisher.retryPolicy delays s₃ := by
          refine ⟨h₂.step map_id_writeBack hwritten hkeys hattempts hclock (by rw [hsession]) ?_
            not_busy, by rw [hsession]⟩
          rw [hsession, writeBack_nil]
          exact h₂.due
        cases answer with
        | error e => cases hok
        | ok u => exact h₃

theorem drainOnce_certified (sane : Accountable publisher.retryPolicy delays)
    (h : Settled publisher.retryPolicy delays s) :
    (drainOnce dumps publisher).Obeys (certified publisher.retryPolicy delays)
      (Drained publisher.retryPolicy delays) s := by
  unfold drainOnce await
  simp only [Prog.perform_bind]
  refine ⟨h.1.within, ?_⟩
  intro now s₁ heff₁
  obtain ⟨-, -, hheld, hon⟩ := heff₁.1.now
  have h₁ := h.wait hon hheld
  refine Prog.Obeys.finallyDo ((drainBatch_certified sane h₁).mono ?_)
  intro outcome s₂ hdrained
  cases outcome with
  | ok result => exact ⟨hdrained.1.within, fun s₃ heff₃ => hdrained.close heff₃.1⟩
  | error e =>
    exact ⟨hdrained.1, fun s₃ heff₃ =>
      ⟨hdrained.1.close heff₃.1, fun hexception => (hdrained.2 hexception).close heff₃.1⟩⟩

/-- How one turn may end: settled, unless it was cancelled. -/
def Turned {α : Type} (policy : RetryPolicy) (delays : OperationalDelays) :
    Except Exc α → Timed → Prop
  | .ok _, s => Settled policy delays s
  | .error _, s => s.Within policy delays

theorem loopDelay_certified (sane : Accountable publisher.retryPolicy delays)
    (h : Settled publisher.retryPolicy delays s) :
    (loopDelay dumps publisher).Obeys (certified publisher.retryPolicy delays)
      (Turned publisher.retryPolicy delays) s := by
  have hraise : ∀ e s', (s'.Within publisher.retryPolicy delays ∧
      (Exc.isException e = true → Settled publisher.retryPolicy delays s')) →
      ((if e.isException then .ret publisher.idleInterval else .raise e : Task ℚ)).Obeys
        (certified publisher.retryPolicy delays) (Turned publisher.retryPolicy delays) s' := by
    intro e s' hdrained
    split
    · rename_i hexception
      exact hdrained.2 hexception
    · exact hdrained.1
  refine Prog.Obeys.tryCatch (Prog.Obeys.bind ((drainOnce_certified sane h).mono ?_))
  intro outcome s₁ hdrained
  cases outcome with
  | error e => exact hraise e s₁ hdrained
  | ok result =>
    refine ⟨hdrained.1.within, ?_⟩
    intro answer s₂ heff₂
    obtain ⟨hheld, hon⟩ := heff₂.1.refreshStats
    have h₂ := Settled.wait hdrained hon hheld
    cases answer with
    | error e => exact hraise e s₂ ⟨h₂.1.within, fun _ => h₂⟩
    | ok u => exact h₂

/-- **The loop invariant**: between two turns the run is settled. -/
theorem publisherLoop_certified (sane : Accountable publisher.retryPolicy delays) (turns : Nat)
    (h : Settled publisher.retryPolicy delays s) :
    (publisherLoop dumps publisher turns).Obeys (certified publisher.retryPolicy delays)
      (fun _ s' => s'.Within publisher.retryPolicy delays) s := by
  induction turns generalizing s with
  | zero => exact h.1.within
  | succ turns ih =>
    unfold publisherLoop
    refine Prog.Obeys.bind ((loopDelay_certified sane h).mono ?_)
    intro outcome s₁ hturned
    cases outcome with
    | error e => exact hturned
    | ok delay =>
      refine ⟨hturned.1.within, ?_⟩
      intro u s₂ heff₂
      obtain ⟨hheld, hon⟩ := heff₂.1.sleep
      exact ih (Settled.wait hturned hon hheld)

theorem Timed.Initial.settled (h : s.Initial) : Settled policy delays s := by
  have hnone : ∀ x ∈ s.attempts, False := by
    intro x hx
    rw [h.attempts] at hx
    cases hx
  refine ⟨⟨h.keys, ?_, ?_, by rw [h.session], ?_, ?_, not_busy⟩, by rw [h.session]⟩
  · exact fun x hx => (hnone x hx).elim
  · exact fun x hx => (hnone x hx).elim
  · exact fun x hx => (hnone x hx).elim
  · exact fun r _ _ _ x hx => (hnone x hx).elim

end Obeys

/-! ## A broker that does not answer -/

/-- Two attempts a second apart, five seconds for a publish call and one for a sleep: the horizon is
    13 seconds. -/
def stalledPolicy : RetryPolicy := ⟨2, 1, 1, 0⟩

def stalledDelays : OperationalDelays := ⟨0, 0, 5, 0, 1⟩

def stalledPublisher : OutboxPublisher where
  retryPolicy := stalledPolicy
  pollInterval := 1

/-- A row committed at `t`. -/
def pendingRow (id : Uuid) (t : Instant) : OutboxEvent where
  id := id
  aggregateType := "agent"
  aggregateId := none
  aggregateVersion := 1
  subject := "agent.created"
  schemaVersion := 1
  payload := .obj []
  maxAttempts := defaultMaxAttempts
  createdAt := t
  status := .pending
  attempts := 0
  nextAttemptAt := t
  lastError := none
  publishedAt := none
  streamSeq := none

def stalledFate : {β : Type} → OutboxOp β → Fate
  | _, .publish _ _ _ _ => { outcome := .refused (.raised "TimeoutError" "nats: timeout") }
  | _, _ => {}

/-- Publish calls and sleeps take the time they may take, and nothing else takes any. -/
def stalledWait : {β : Type} → OutboxOp β → ℚ
  | _, .publish _ _ _ _ => 5
  | _, .sleep _ => 1
  | _, _ => 0

def stall {β : Type} (o : OutboxOp β) (s : Timed) (u : Unit) : β × Timed × Unit :=
  ((s.after (stalledFate o) (stalledWait o) [] o).1,
    (s.after (stalledFate o) (stalledWait o) [] o).2, u)

/-- Two turns of the loop. -/
def twoTurns : Task Unit := publisherLoop (fun _ => "") stalledPublisher 2

/-- What two turns come to. -/
def stalledRun (start : Timed) : Except Exc Unit × Timed × Unit := Prog.run stall twoTurns start ()

/-- The primary key still holds. -/
def keysCheck {β : Type} (_ : OutboxOp β) (_ : Timed) (_ : β) (s' : Timed) : Bool :=
  (s'.world.rows.map (·.id)).Nodup

/-- And the step is undelayed. -/
def undelayedCheck : {β : Type} → OutboxOp β → Timed → β → Timed → Bool
  | _, .publish row _ _ _, s, _, s' =>
    (s'.world.rows.map (·.id)).Nodup ∧ ((∀ x ∈ s.attempts, x.1 ≠ row) ∨ ∀ r ∈ s.session.held,
      s.clock ≤ r.nextAttemptAt +
        (stalledDelays.perAttemptSeconds - stalledDelays.publishTimeoutSeconds))
  | _, .commit, _, answer, s' => (s'.world.rows.map (·.id)).Nodup ∧ answer.isOk = true
  | _, _, _, _, s' => (s'.world.rows.map (·.id)).Nodup

section Stall

variable {β : Type} {o : OutboxOp β} {s s' : Timed} {b : β} {u u' : Unit}

theorem stall_elapses (hstall : stall o s u = (b, s', u')) (h : (s'.world.rows.map (·.id)).Nodup) :
    Elapses stalledDelays o s b s' := by
  cases hstall
  refine ⟨stalledFate o, stalledWait o, [], rfl, ?_, ?_, ?_, ?_, h⟩
  · cases o <;> exact le_refl _
  · cases o <;> exact zero_le_one
  · cases o <;> norm_num [stalledWait]
  · cases o <;> simp [maxWait, stalledWait, stalledDelays]

theorem keys_of_undelayedCheck (h : undelayedCheck o s b s' = true) :
    (s'.world.rows.map (·.id)).Nodup := by
  cases o with
  | publish row subject body msgId => exact (of_decide_eq_true h).1
  | commit => exact (of_decide_eq_true h).1
  | _ => exact of_decide_eq_true h

theorem undelayed_of_check (h : undelayedCheck o s b s' = true) :
    Undelayed stalledDelays o s b := by
  cases o with
  | publish row subject body msgId =>
    refine ⟨?_, trivial⟩
    rintro r hr - ⟨t, ht⟩
    rcases (of_decide_eq_true h).2 with hnew | hdue
    · exact absurd rfl (hnew _ ht)
    · exact hdue r hr
  | commit => exact ⟨trivial, (of_decide_eq_true h).2⟩
  | _ => exact ⟨trivial, trivial⟩

end Stall

/-! ## When the horizon holds -/

/-- **The certified horizon bounds the undelayed runs**: as long as every further attempt starts on
    schedule and every drain commits, the attempts of a row are no further apart than the horizon,
    and so within the share of the duplicate window that the gate allows. -/
theorem retries_within_horizon (dumps : Json String → String) (publisher : OutboxPublisher)
    (delays : OperationalDelays) {window margin utilisation : ℚ}
    (accepted : validateDuplicateWindow publisher.retryPolicy delays window margin =
      .ok utilisation)
    (sane : Accountable publisher.retryPolicy delays) (turns : Nat) {s₀ s : Timed} {rest : Task Unit}
    (hstart : s₀.Initial)
    (hrun : Prog.Comes (timed delays fun o s b => Undelayed delays o s b)
      (publisherLoop dumps publisher turns) s₀ rest s)
    {row : Uuid} {t t' : Instant} (ht : (row, t) ∈ s.attempts) (ht' : (row, t') ∈ s.attempts) :
    t' - t ≤ worstCaseRetryHorizon publisher.retryPolicy delays ∧ t' - t ≤ window * margin ∧
      (0 < margin → margin ≤ 1 → t' - t ≤ window) := by
  have hwithin : s.Within publisher.retryPolicy delays :=
    hrun.always (publisherLoop_certified sane turns hstart.settled)
  have hspan := hwithin _ ht _ ht' rfl
  have hback := hwithin _ ht' _ ht rfl
  have hgate := horizon_le_of_validate accepted
  refine ⟨hspan, le_trans hspan hgate, ?_⟩
  intro hpos hle
  dsimp only at hspan hback
  have hwindow : 0 ≤ window := by
    by_contra hneg
    have hprod : window * margin < 0 := mul_neg_of_neg_of_pos (not_le.mp hneg) hpos
    linarith
  nlinarith only [hspan, hgate, hwindow, hle]

/-- One row is due. -/
def lone : Timed where
  clock := 10
  world := { rows := [pendingRow 0 0] }

theorem stalled_accountable : Accountable stalledPolicy stalledDelays := by
  refine ⟨by decide, by decide +kernel, le_refl _, ?_⟩
  intro a hpos ha
  have hone : a = 1 := by
    have hlt : (a : Int) < 2 := ha
    omega
  rw [hone]
  decide +kernel

theorem retries_within_horizon_retried :
    (stalledRun lone).2.1.attempts = [(0, 10), (0, 16)] ∧
      (16 - 10 ≤ worstCaseRetryHorizon stalledPolicy stalledDelays ∧ (16 : ℚ) - 10 ≤ 18 * (3 / 4) ∧
        ((0 : ℚ) < 3 / 4 → (3 / 4 : ℚ) ≤ 1 → (16 : ℚ) - 10 ≤ 18)) := by
  have hattempts : (stalledRun lone).2.1.attempts = [(0, 10), (0, 16)] := by decide +kernel
  have hrun : Prog.Comes (timed stalledDelays fun o s b => Undelayed stalledDelays o s b) twoTurns
      lone (.ofExcept (stalledRun lone).1) (stalledRun lone).2.1 := by
    refine Prog.Comes.of_checked stall undelayedCheck ?_ _ _ _ (by decide +kernel)
    rintro β o s b s' hcheck ⟨u, u', hstall⟩
    exact ⟨stall_elapses hstall (keys_of_undelayedCheck hcheck), undelayed_of_check hcheck⟩
  have haccepted : validateDuplicateWindow stalledPolicy stalledDelays 18 (3 / 4) =
      .ok (13 / 18) := by decide +kernel
  have hfirst : ((0 : Uuid), (10 : Instant)) ∈ (stalledRun lone).2.1.attempts := by
    rw [hattempts]
    simp
  have hlast : ((0 : Uuid), (16 : Instant)) ∈ (stalledRun lone).2.1.attempts := by
    rw [hattempts]
    simp
  exact ⟨hattempts, retries_within_horizon (fun _ => "") stalledPublisher stalledDelays haccepted
    stalled_accountable 2 ⟨rfl, rfl, by decide⟩ hrun hfirst hlast⟩

/-! ## When it does not -/

/-- Four rows are due. -/
def backlog : Timed where
  clock := 10
  world := { rows := [pendingRow 0 0, pendingRow 1 1, pendingRow 2 2, pendingRow 3 3] }

/-- **The gate accepts a configuration whose retries escape the duplicate window**: the first row of
    a batch of four is attempted again only after the calls for the other three have timed out. -/
theorem retries_escape_the_window :
    validateDuplicateWindow stalledPolicy stalledDelays 18 (3 / 4) = .ok (13 / 18) ∧
      backlog.Initial ∧
      Prog.Comes (timed stalledDelays fun o s b => Anyhow o s b) twoTurns backlog
        (.ofExcept (stalledRun backlog).1) (stalledRun backlog).2.1 ∧
      (0, 10) ∈ (stalledRun backlog).2.1.attempts ∧ (0, 31) ∈ (stalledRun backlog).2.1.attempts ∧
      ¬ (31 - 10 ≤ worstCaseRetryHorizon stalledPolicy stalledDelays) ∧
      ¬ ((31 : ℚ) - 10 ≤ 18) := by
  have hattempts : (stalledRun backlog).2.1.attempts =
      [(0, 10), (1, 15), (2, 20), (3, 25), (0, 31), (1, 36), (2, 41), (3, 46)] := by
    decide +kernel
  refine ⟨by decide +kernel, ⟨rfl, rfl, by decide⟩, ?_, ?_, ?_, by decide +kernel, by norm_num⟩
  · refine Prog.Comes.of_checked stall keysCheck ?_ _ _ _ (by decide +kernel)
    rintro β o s b s' hcheck ⟨u, u', hstall⟩
    exact ⟨stall_elapses hstall (of_decide_eq_true hcheck), trivial⟩
  · rw [hattempts]
    simp
  · rw [hattempts]
    simp

end FavlGateway.Outbox
