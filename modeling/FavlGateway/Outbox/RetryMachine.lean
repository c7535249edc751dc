/-
  The retry machine of an outbox row (`drain_once`, `_publish_row`, `_record_failure`).

  Any number of publishers with one retry policy, and any writers, on one table; publish calls end as
  they like, and drains are rolled back at any point.  A row goes from `pending` to `published` or
  `dead` within `min(policy.max_attempts, row.max_attempts)` attempts, and stays there.  A drain
  that is rolled back forgets its attempts, so the broker may be called once more for each of them:
  **`outbox_retry_machine`**.

  The programs are looked at once, for what they promise (`Promises`); the rest follows from the
  books (`Balanced`).
-/
import FavlGateway.Outbox.Ledger

namespace FavlGateway.Outbox

open FavlGateway.Library
open FavlGateway.Registry (Uuid uuidText)

/-! ## What an operation does to a drain -/

/-- The outcome of an operation, on a table without two rows of one key. -/
def Booked {β : Type} (o : OutboxOp β) (d : Drain) (b : β) (d' : Drain) : Prop :=
  ∃ i f u, (u.rows.map (·.id)).Nodup ∧ (book i f o d u).1 = b ∧ (book i f o d u).2.1 = d'

def retryDiscipline (policy : RetryPolicy) : Discipline OutboxOp Drain where
  pre := Promises policy
  eff := Booked

/-- The drain is where it was. -/
structure Drain.Kept (d d' : Drain) : Prop where
  held : d'.held = d.held
  claimed : d'.claimed = d.claimed
  called : d'.called = d.called

section Effects

variable {d d' : Drain}

/-- An operation on a session whose connection may be gone. -/
theorem Booked.cases {β : Type} {o : OutboxOp β} {b : β} (h : Booked o d b d') :
    ∃ i f u live, (u.rows.map (·.id)).Nodup ∧ (enter i f o { d with live := live } u).1 = b ∧
      (enter i f o { d with live := live } u).2.1 = d' := by
  obtain ⟨i, f, u, hkeys, hb, hd⟩ := h
  unfold book at hb hd
  split at hb
  · rename_i hdropped
    rw [if_pos hdropped] at hd
    exact ⟨i, f, u.rollBack i d, false, hkeys, hb, hd⟩
  · rename_i hkept
    rw [if_neg hkept] at hd
    exact ⟨i, f, u, d.live, hkeys, hb, hd⟩

theorem Booked.now {t : Instant} (h : Booked .now d t d') : d.Kept d' := by
  obtain ⟨i, f, u, live, -, -, rfl⟩ := h.cases
  exact ⟨rfl, rfl, rfl⟩

theorem Booked.uniform {low high x : ℚ} (h : Booked (.uniform low high) d x d') : d.Kept d' := by
  obtain ⟨i, f, u, live, -, -, rfl⟩ := h.cases
  exact ⟨rfl, rfl, rfl⟩

theorem Booked.add {row : OutboxEvent} {x : Unit} (h : Booked (.add row) d x d') : d.Kept d' := by
  obtain ⟨i, f, u, live, -, -, rfl⟩ := h.cases
  exact ⟨rfl, rfl, rfl⟩

theorem Booked.sleep {seconds : ℚ} {x : Unit} (h : Booked (.sleep seconds) d x d') :
    d.Kept d' := by
  obtain ⟨i, f, u, live, -, -, rfl⟩ := h.cases
  exact ⟨rfl, rfl, rfl⟩

theorem Booked.refreshStats {r : Except Exc Unit} (h : Booked .refreshStats d r d') :
    d.Kept d' := by
  obtain ⟨i, f, u, live, -, -, rfl⟩ := h.cases
  unfold enter perform
  dsimp only
  split <;> exact ⟨rfl, rfl, rfl⟩

theorem Booked.assign {row : Uuid} {del : Delivery} {x : Unit}
    (h : Booked (.assign row del) d x d') :
    d'.held = assigned row del d.held ∧ d'.claimed = d.claimed ∧ d'.called = d.called := by
  obtain ⟨i, f, u, live, -, -, rfl⟩ := h.cases
  exact ⟨rfl, rfl, rfl⟩

theorem Booked.publish {row : Uuid} {subject body msgId : String} {r : Except Exc PubAck}
    (h : Booked (.publish row subject body msgId) d r d') :
    d'.held = d.held ∧ d'.claimed = d.claimed ∧ d'.called = row :: d.called := by
  obtain ⟨i, f, u, live, -, -, rfl⟩ := h.cases
  obtain ⟨b, acks, broker, hcall⟩ := perform_publish (i := i) (f := f) row subject body msgId
    { d with live := live }.toSession u.toWorld
  unfold enter
  simp only [hcall]
  exact ⟨rfl, rfl, rfl⟩

/-- A drain begins with pending rows, each of them once. -/
theorem Booked.claim {now : Instant} {limit : Nat} {rows : List OutboxEvent}
    (h : Booked (.claim now limit) d (.ok rows) d') :
    d'.held = rows ∧ d'.claimed = rows ∧ d'.called = [] ∧ (rows.map (·.id)).Nodup ∧
      ∀ r ∈ rows, r.status = .pending := by
  obtain ⟨i, f, u, live, hkeys, hb, rfl⟩ := h.cases
  unfold enter at hb ⊢
  rcases perform_claim (i := i) (f := f) now limit { d with live := live }.toSession u.toWorld with
    ⟨-, hclaim⟩ | ⟨e, hrefused⟩
  · simp only [hclaim] at hb ⊢
    cases hb
    exact ⟨rfl, rfl, rfl, nodup_claimable hkeys, fun r hr => (mem_claimable hr).2.1⟩
  · simp only [hrefused] at hb
    cases hb

theorem Booked.close {x : Unit} (h : Booked .close d x d') : d' = {} := by
  obtain ⟨i, f, u, live, -, -, rfl⟩ := h.cases
  rfl

end Effects

/-! ## What the programs promise -/

/-- In the middle of a batch: the rows still to come are held as they were claimed. -/
structure Drain.Working (policy : RetryPolicy) (rows : List OutboxEvent) (d : Drain) : Prop where
  accounted : d.Accounted policy
  nodup : (d.held.map (·.id)).Nodup
  distinct : (rows.map (·.id)).Nodup
  rows : ∀ r ∈ rows, r ∈ d.held ∧ r ∈ d.claimed ∧ r.status = .pending ∧ r.id ∉ d.called

/-- The broker has been called for `row`, and the rows after it are still to come. -/
def Drain.Calling (policy : RetryPolicy) (row : OutboxEvent) (rows : List OutboxEvent)
    (d : Drain) : Prop :=
  ∃ d₀ : Drain, d₀.Working policy (row :: rows) ∧ d.held = d₀.held ∧ d.claimed = d₀.claimed ∧
    d.called = row.id :: d₀.called

/-- A session that holds nothing has nothing to account for. -/
theorem Drain.Accounted.of_nil {policy : RetryPolicy} {d : Drain} (hheld : d.held = [])
    (hclaimed : d.claimed = []) : d.Accounted policy := by
  refine ⟨by rw [hheld, hclaimed], fun h hh => ?_⟩
  rw [hheld] at hh
  exact absurd hh List.not_mem_nil

section Obeys

variable {dumps : Json String → String} {policy : RetryPolicy} {d d' : Drain} {row : OutboxEvent}
  {rows : List OutboxEvent} {result : DrainResult} {publisher : OutboxPublisher} {del : Delivery}

theorem Drain.Working.begin (hheld : d.held = rows) (hclaimed : d.claimed = rows)
    (hcalled : d.called = []) (hnodup : (rows.map (·.id)).Nodup)
    (hpending : ∀ r ∈ rows, r.status = .pending) : d.Working policy rows := by
  refine ⟨⟨by rw [hheld, hclaimed], fun h hh => ?_⟩, by rw [hheld]; exact hnodup, hnodup, ?_⟩
  · rw [hheld] at hh
    rw [hclaimed, hcalled]
    exact ⟨h, hh, rfl, .inl ⟨rfl, List.not_mem_nil⟩⟩
  · intro r hr
    rw [hheld, hclaimed, hcalled]
    exact ⟨hr, hr, hpending r hr, List.not_mem_nil⟩

theorem Drain.Calling.kept (h : d.Calling policy row rows) (hkept : d.Kept d') :
    d'.Calling policy row rows := by
  obtain ⟨d₀, hworking, hheld, hclaimed, hcalled⟩ := h
  exact ⟨d₀, hworking, hkept.held.trans hheld, hkept.claimed.trans hclaimed,
    hkept.called.trans hcalled⟩

theorem Drain.Calling.pending (h : d.Calling policy row rows) : row.status = .pending := by
  obtain ⟨d₀, hworking, -⟩ := h
  exact (hworking.rows row (List.mem_cons_self ..)).2.2.1

/-- What became of the call is assigned. -/
theorem Drain.Calling.assign {u : Unit} (h : d.Calling policy row rows)
    (heff : Booked (.assign row.id del) d u d') (hrecorded : Recorded policy row del) :
    d'.Working policy rows := by
  obtain ⟨d₀, hworking, hheld₀, hclaimed₀, hcalled₀⟩ := h
  obtain ⟨hheld₁, hclaimed₁, hcalled₁⟩ := heff.assign
  have hheld : d'.held = assigned row.id del d₀.held := by rw [hheld₁, hheld₀]
  have hclaimed : d'.claimed = d₀.claimed := hclaimed₁.trans hclaimed₀
  have hcalled : d'.called = row.id :: d₀.called := hcalled₁.trans hcalled₀
  obtain ⟨-, hrow, -⟩ := hworking.rows row (List.mem_cons_self ..)
  have hnodup : row.id ∉ rows.map (·.id) ∧ (rows.map (·.id)).Nodup :=
    List.nodup_cons.mp hworking.distinct
  refine ⟨⟨?_, ?_⟩, ?_, hnodup.2, ?_⟩
  · rw [hheld, hclaimed, map_id_assigned]
    exact hworking.accounted.ids
  · intro held hmem
    rw [hheld] at hmem
    rw [hclaimed, hcalled]
    rcases mem_assigned hmem with ⟨hmem, hne⟩ | ⟨r₀, hr₀, hid, rfl⟩
    · obtain ⟨r, hr, hid, ⟨hsame, huncalled⟩ | hrecord⟩ := hworking.accounted.held held hmem
      · refine ⟨r, hr, hid, .inl ⟨hsame, fun hmem => ?_⟩⟩
        rcases List.mem_cons.mp hmem with hrow | hmem
        · exact hne (hid.symm.trans hrow)
        · exact huncalled hmem
      · exact ⟨r, hr, hid, .inr hrecord⟩
    · exact ⟨row, hrow, hid.symm, .inr hrecorded⟩
  · rw [hheld, map_id_assigned]
    exact hworking.nodup
  · intro r hr
    obtain ⟨hmem, hmemClaimed, hpending, huncalled⟩ := hworking.rows r (List.mem_cons_of_mem _ hr)
    have hne : r.id ≠ row.id := fun hsame => hnodup.1 (hsame ▸ List.mem_map_of_mem hr)
    rw [hheld, hclaimed, hcalled]
    refine ⟨mem_assigned_of_ne hmem hne, hmemClaimed, hpending, fun hmem => ?_⟩
    rcases List.mem_cons.mp hmem with hsame | hmem
    · exact hne hsame
    · exact huncalled hmem

/-- Failure bookkeeping records the failure. -/
theorem recordFailure_promises {exc : Exc} (h : d.Calling policy row rows) :
    (recordFailure policy row exc result).Obeys (retryDiscipline policy)
      (fun _ d' => d'.Working policy rows) d := by
  have hpending := h.pending
  unfold recordFailure computeBackoff await
  dsimp only
  split
  · rename_i hlimit
    refine ⟨trivial, ?_⟩
    intro u d₁ heff
    exact h.assign heff (.failed rfl rfl (if_pos hlimit).symm)
  · rename_i hlimit
    refine ⟨trivial, ?_⟩
    intro noise d₁ heff₁
    refine ⟨trivial, ?_⟩
    intro now d₂ heff₂
    refine ⟨trivial, ?_⟩
    intro u d₃ heff₃
    have hcalling := (h.kept heff₁.uniform).kept heff₂.now
    exact hcalling.assign heff₃ (.failed rfl rfl (hpending.trans (if_neg hlimit).symm))

theorem publishRow_promises (h : d.Working policy (row :: rows)) :
    (publishRow dumps policy row result).Obeys (retryDiscipline policy)
      (fun outcome d' => outcome.isOk = true → d'.Working policy rows) d := by
  obtain ⟨-, hclaimed, -, huncalled⟩ := h.rows row (List.mem_cons_self ..)
  unfold publishRow await
  simp only [Prog.perform_bind, Prog.pure_eq]
  refine ⟨⟨List.mem_map_of_mem hclaimed, huncalled⟩, ?_⟩
  intro reply d₁ heff₁
  have hcalling : d₁.Calling policy row rows := ⟨d, h, heff₁.publish⟩
  cases reply with
  | error exc =>
    dsimp only
    split
    · refine (recordFailure_promises hcalling).mono ?_
      intro outcome d' hworking _
      exact hworking
    · exact nofun
  | ok ack =>
    refine ⟨trivial, ?_⟩
    intro now d₂ heff₂
    refine ⟨trivial, ?_⟩
    intro u d₃ heff₃ _
    exact (hcalling.kept heff₂.now).assign heff₃ (.published rfl rfl rfl)

/-- One row after the other. -/
theorem publishRows_promises (h : d.Working policy rows) :
    (publishRows dumps policy rows result).Obeys (retryDiscipline policy)
      (fun outcome d' => outcome.isOk = true → d'.Accounted policy) d := by
  induction rows generalizing d result with
  | nil => exact fun _ => h.accounted
  | cons row rows ih =>
    unfold publishRows
    refine Prog.Obeys.bind ((publishRow_promises h).mono ?_)
    intro outcome d' hworking
    cases outcome with
    | error e =>
      intro hok
      cases hok
    | ok result' => exact ih (hworking rfl)

/-- Whatever a drain does, its session ends without one. -/
theorem close_promises : (retryDiscipline policy).pre .close d ∧
    ∀ d', (retryDiscipline policy).eff .close d () d' → d'.held = [] ∧ d'.claimed = [] := by
  refine ⟨trivial, fun d' heff => ?_⟩
  rw [heff.close]
  exact ⟨rfl, rfl⟩

theorem drainOnce_promises (hpolicy : publisher.retryPolicy = policy) (hnone : d.claimed = []) :
    (drainOnce dumps publisher).Obeys (retryDiscipline policy)
      (fun _ d' => d'.held = [] ∧ d'.claimed = []) d := by
  unfold drainOnce await
  simp only [Prog.perform_bind]
  refine ⟨trivial, ?_⟩
  intro now d₁ heff₁
  refine Prog.Obeys.finallyDo ?_
  unfold drainBatch attempt await
  simp only [Prog.perform_bind, Prog.op_bind]
  refine ⟨heff₁.now.claimed.trans hnone, ?_⟩
  intro answer d₂ heff₂
  cases answer with
  | error e => exact close_promises
  | ok rows =>
    obtain ⟨hheld, hclaimed, hcalled, hnodup, hpending⟩ := heff₂.claim
    simp only [Prog.ofExcept, Prog.ret_bind]
    rw [hpolicy]
    refine Prog.Obeys.bind
      ((publishRows_promises (.begin hheld hclaimed hcalled hnodup hpending)).mono ?_)
    intro outcome d₃ haccounted
    cases outcome with
    | error e => exact close_promises
    | ok result =>
      refine ⟨haccounted rfl, ?_⟩
      intro answer d₄ _
      cases answer with
      | error e => exact close_promises
      | ok u => exact close_promises

theorem loopDelay_promises (hpolicy : publisher.retryPolicy = policy) (hnone : d.claimed = []) :
    (loopDelay dumps publisher).Obeys (retryDiscipline policy) (fun _ d' => d'.claimed = []) d := by
  have hraise : ∀ e d', d'.claimed = [] → ((if Exc.isException e then .ret publisher.idleInterval
      else .raise e : Task ℚ)).Obeys (retryDiscipline policy) (fun _ d' => d'.claimed = []) d' := by
    intro e d' hnone'
    split <;> exact hnone'
  refine Prog.Obeys.tryCatch (Prog.Obeys.bind ((drainOnce_promises hpolicy hnone).mono ?_))
  rintro outcome d₁ ⟨-, hnone₁⟩
  cases outcome with
  | error e => exact hraise e d₁ hnone₁
  | ok result =>
    refine ⟨trivial, ?_⟩
    intro answer d₂ heff
    have hnone₂ := heff.refreshStats.claimed.trans hnone₁
    cases answer with
    | error e => exact hraise e d₂ hnone₂
    | ok u => exact hnone₂

theorem publisherLoop_promises (hpolicy : publisher.retryPolicy = policy) (hnone : d.claimed = [])
    (turns : Nat) :
    (publisherLoop dumps publisher turns).Obeys (retryDiscipline policy) (fun _ _ => True) d := by
  induction turns generalizing d with
  | zero => trivial
  | succ turns ih =>
    unfold publisherLoop
    refine Prog.Obeys.bind ((loopDelay_promises hpolicy hnone).mono ?_)
    intro outcome d₁ hnone₁
    cases outcome with
    | error e => trivial
    | ok delay => exact ⟨trivial, fun _ d₂ heff => ih (heff.sleep.claimed.trans hnone₁)⟩

/-- Enqueued rows are new ones. -/
theorem enqueueAll_promises (hheld : d.held = []) (hclaimed : d.claimed = [])
    (events : List Enqueue) :
    (enqueueAll events).Obeys (retryDiscipline policy)
      (fun _ d' => d'.held = [] ∧ d'.claimed = []) d := by
  induction events generalizing d with
  | nil => exact ⟨hheld, hclaimed⟩
  | cons e events ih =>
    refine ⟨trivial, fun _ d₁ heff₁ => ⟨trivial, fun _ d₂ heff₂ => ⟨⟨rfl, rfl, rfl⟩, ?_⟩⟩⟩
    intro _ d₃ heff₃
    refine ih ?_ ?_
    · rw [heff₃.add.held, heff₂.now.held, heff₁.now.held, hheld]
    · rw [heff₃.add.claimed, heff₂.now.claimed, heff₁.now.claimed, hclaimed]

theorem writer_promises (hheld : d.held = []) (hclaimed : d.claimed = []) (events : List Enqueue) :
    (writer events).Obeys (retryDiscipline policy) (fun _ _ => True) d := by
  refine Prog.Obeys.finallyDo (Prog.Obeys.bind
    ((enqueueAll_promises hheld hclaimed events).mono ?_))
  rintro outcome d₁ ⟨hheld₁, hclaimed₁⟩
  cases outcome with
  | error e => exact ⟨trivial, fun _ _ => trivial⟩
  | ok u =>
    refine ⟨.of_nil hheld₁ hclaimed₁, ?_⟩
    intro answer d₂ _
    cases answer with
    | error e => exact ⟨trivial, fun _ _ => trivial⟩
    | ok u => exact ⟨trivial, fun _ _ => trivial⟩

/-- A publisher runs under this policy. -/
def Job.Under (policy : RetryPolicy) : Job → Prop
  | .publisher p _ => p.retryPolicy = policy
  | .writer _ => True

/-- Every session keeps the promises. -/
theorem task_promises {job : Job} (hjob : job.Under policy) :
    (job.task dumps).Obeys (retryDiscipline policy) (fun _ _ => True) {} := by
  cases job with
  | publisher p turns => exact publisherLoop_promises hjob rfl turns
  | writer events => exact writer_promises rfl rfl events

end Obeys

/-! ## Every run -/

/-- The claims of a row so far. -/
def Ledger.claimsOf (l : Ledger) (row : Uuid) : List (Uuid × Nat) :=
  l.claims.filter fun c => c.1 = row

/-- How many publish calls there have been for a row. -/
def Ledger.callsFor (l : Ledger) (row : Uuid) : Nat := l.calls.countP fun c => c.1 = row

/-- How many of the drains that had claimed a row were rolled back. -/
def Ledger.rolledBackFor (l : Ledger) (row : Uuid) : Nat :=
  (l.rolledBack.filter fun c => c.1 = row).card

section Run

variable {dumps : Json String → String} {fates : Nat → Fate} {jobs : Nat → Job}
  {policy : RetryPolicy} {sys sys' : System OutboxOp Drain Books Exc Unit} {u : Books}
  {ss : Nat → Drain} {i : Nat} {f : Fate} {r : OutboxEvent}

/-- Every operation of a run is awaited as promised. -/
theorem promises_of_reaches (hjobs : ∀ i, (jobs i).Under policy)
    (h : ledgerMachine.Reaches Machine.Any (bookedOutbox dumps fates jobs) sys) {β : Type}
    {o : OutboxOp β} {k : β → Task Unit} (hp : (sys.threads i).prog = .op o k) :
    Promises policy o (sys.sessions i) := by
  have hobeys : (sys.threads i).prog.Obeys (retryDiscipline policy) (fun _ _ => True)
      (sys.threads i).session := by
    refine h.obeys ?_ trivial (task_promises (hjobs i))
    intro sys₁ h₁ β o b d' u' hstep
    have hbook := ledgerMachine_step hstep
    exact ⟨i, _, sys₁.world, keys_of_reaches h₁, by rw [hbook], by rw [hbook]⟩
  rw [hp] at hobeys
  exact hobeys.1

theorem balanced_preserved : Preserved (α := Unit) ledgerMachine (fun _ => retryDiscipline policy)
    Machine.Any (Balanced policy) where
  op := by
    intro sys i β o k b d' u' hp hpre hstep _ hbalanced
    have hkept := hbalanced.book (f := sys.world.fates sys.world.tick) hpre
    rwa [ledgerMachine_step hstep] at hkept
  crash := by
    intro u ss i hbalanced
    exact hbalanced.ended i

/-- **The run lemma**: the books of every reachable state balance. -/
theorem balanced_of_reaches (hjobs : ∀ i, (jobs i).Under policy)
    (h : ledgerMachine.Reaches Machine.Any (bookedOutbox dumps fates jobs) sys) :
    Balanced policy sys.world sys.sessions := by
  refine Machine.Reaches.preservedUnder balanced_preserved
    (fun sys₁ h₁ {i β o k} hp => promises_of_reaches hjobs h₁ hp) ⟨?_, fun i => .empty, ?_, ?_⟩ h
  · constructor <;> simp [bookedOutbox]
  · intro i j hi
    exact absurd rfl hi
  · simp [bookedOutbox]

/-! ### The end of a row -/

/-- One operation leaves a row alone that is not pending. -/
theorem Balanced.terminal_enter {β : Type} {o : OutboxOp β} (h : Balanced policy u ss)
    (hpre : Promises policy o (ss i)) (hr : r ∈ u.rows) (hdone : r.status ≠ .pending) :
    r ∈ (Outbox.enter i f o (ss i) u).2.2.rows ∧
      (Outbox.enter i f o (ss i) u).2.2.ledger.claimsOf r.id = u.ledger.claimsOf r.id := by
  -- the rows that a live session has claimed are pending
  have hunclaimed : ∀ r' ∈ u.rows, r'.status = .pending → r'.id ≠ r.id := by
    intro r' hr' hpending hid
    rw [eq_of_id h.books.keys hr' hr hid] at hpending
    exact hdone hpending
  cases o with
  | now | uniform | assign | sleep | add | close => exact ⟨hr, rfl⟩
  | refreshStats =>
    unfold Outbox.enter perform
    dsimp only
    split <;> exact ⟨hr, rfl⟩
  | publish row subject body msgId =>
    obtain ⟨b, acks, broker, hcall⟩ := perform_publish (i := i) (f := f) row subject body msgId
      (ss i).toSession u.toWorld
    unfold Outbox.enter
    simp only [hcall]
    exact ⟨hr, rfl⟩
  | claim now limit =>
    unfold Outbox.enter
    rcases perform_claim (i := i) (f := f) now limit (ss i).toSession u.toWorld with
      ⟨-, hclaim⟩ | ⟨e, hrefused⟩
    · simp only [hclaim]
      refine ⟨hr, ?_⟩
      have hnone : ((u.toWorld.claimable f.order now limit).map fun r' => (r'.id, u.tick)).filter
          (fun c => c.1 = r.id) = [] := by
        rw [List.filter_eq_nil_iff]
        intro c hc hid
        obtain ⟨r', hr', rfl⟩ := List.mem_map.mp hc
        obtain ⟨hmem, hpending, -⟩ := mem_claimable hr'
        exact hunclaimed r' hmem hpending (of_decide_eq_true hid)
      show List.filter _ (u.ledger.claims ++ _) = _
      rw [List.filter_append, hnone, List.append_nil]
      rfl
    · simp only [hrefused]
      exact ⟨hr, rfl⟩
  | commit =>
    unfold Outbox.enter
    simp only [perform_commit]
    cases heffect : takesEffect (ss i).live (writeBack (ss i).held u.rows ++ (ss i).added)
        f.outcome with
    | true =>
      obtain ⟨hlive, -⟩ := takesEffect_eq_true heffect
      refine ⟨List.mem_append_left _ (Drain.Accounted.mem_writeBack hpre hr fun hmem => ?_), rfl⟩
      obtain ⟨r', hr', hid⟩ := List.mem_map.mp hmem
      obtain ⟨hmem', hpending, -⟩ := (h.drains i).locked hlive r' hr'
      exact hunclaimed r' hmem' hpending hid
    | false => exact ⟨hr, rfl⟩

/-- So does one whose connection is lost first. -/
theorem Balanced.terminal_book {β : Type} {o : OutboxOp β} (h : Balanced policy u ss)
    (hpre : Promises policy o (ss i)) (hr : r ∈ u.rows) (hdone : r.status ≠ .pending) :
    r ∈ (Outbox.book i f o (ss i) u).2.2.rows ∧
      (Outbox.book i f o (ss i) u).2.2.ledger.claimsOf r.id = u.ledger.claimsOf r.id := by
  unfold Outbox.book
  split
  · have hself : Function.update ss i { ss i with live := false } i = { ss i with live := false } :=
      Function.update_self ..
    have hstep := (h.rollBack i).terminal_enter (i := i) (f := f) (o := o) (r := r)
      (by rw [hself]; exact hpre.offline) hr hdone
    rwa [hself] at hstep
  · exact h.terminal_enter hpre hr hdone

/-- **A row that is published or dead stays as it is, and is never claimed again.** -/
theorem terminal_of_reaches (hjobs : ∀ i, (jobs i).Under policy)
    (h : ledgerMachine.Reaches Machine.Any (bookedOutbox dumps fates jobs) sys)
    (h' : ledgerMachine.Reaches Machine.Any sys sys') (hr : r ∈ sys.world.rows)
    (hdone : r.status ≠ .pending) :
    r ∈ sys'.world.rows ∧
      sys'.world.ledger.claimsOf r.id = sys.world.ledger.claimsOf r.id := by
  induction h' with
  | start => exact ⟨hr, rfl⟩
  | @step sys₁ sys₂ j h₁ hs _ ih =>
    have hreached := h.trans h₁
    cases hs with
    | op hp hstep =>
      obtain ⟨hmem, hclaims⟩ := (balanced_of_reaches hjobs hreached).terminal_book (i := j)
        (f := sys₁.world.fates sys₁.world.tick) (promises_of_reaches hjobs hreached hp) ih.1 hdone
      unfold System.sessions at hmem hclaims
      rw [ledgerMachine_step hstep] at hmem hclaims
      exact ⟨hmem, hclaims.trans ih.2⟩
    | crash hp => exact ih

/-! ### The calls for a row -/

/-- **The count**: a row's calls are rolled back, settled, or the one of its open drain. -/
theorem Balanced.callsFor_le (h : Balanced policy u ss) (hr : r ∈ u.rows)
    (hwithin : r.Within (limitOf policy r.toEvent)) :
    (u.ledger.callsFor r.id : Int) ≤ limitOf policy r.toEvent + u.ledger.rolledBackFor r.id := by
  obtain ⟨hspent, hpending⟩ := hwithin.spent_le
  have hsettled := h.books.spent r hr
  have hcount : u.ledger.callsFor r.id =
      (u.ledger.calls.toFinset.filter fun c => c.1 = r.id).card := by
    unfold Ledger.callsFor
    rw [List.countP_eq_length_filter, ← List.toFinset_card_of_nodup (h.books.nodup.filter _)]
    congr 1
    ext c
    simp
  -- the open calls of the row are those of the session that has it locked
  by_cases hopen : ∃ i, (ss i).live = true ∧ r.id ∈ (ss i).called
  · obtain ⟨i, hlive, hcalled⟩ := hopen
    have hmine : ∀ j, (ss j).live = true → r.id ∈ (ss j).called →
        r.status = .pending ∧ u.lock r.id = some j := by
      intro j hlive hcalled
      obtain ⟨r', hr', hid⟩ := List.mem_map.mp ((h.drains j).called _ hcalled)
      obtain ⟨hmem, hstatus, hlock⟩ := (h.drains j).locked hlive r' hr'
      rw [eq_of_id h.books.keys hmem hr hid] at hstatus hlock
      exact ⟨hstatus, hlock⟩
    have hsub : (u.ledger.calls.toFinset.filter fun c => c.1 = r.id) ⊆
        ((u.ledger.rolledBack.filter fun c => c.1 = r.id) ∪
          (u.ledger.settled.filter fun c => c.1 = r.id)) ∪ {(r.id, (ss i).number)} := by
      intro c hc
      obtain ⟨hmem, hid⟩ := Finset.mem_filter.mp hc
      rcases h.accounted c (List.mem_toFinset.mp hmem) with hlost | hsettled | ⟨j, hjlive, hj⟩
      · exact Finset.mem_union_left _
          (Finset.mem_union_left _ (Finset.mem_filter.mpr ⟨hlost, hid⟩))
      · exact Finset.mem_union_left _
          (Finset.mem_union_right _ (Finset.mem_filter.mpr ⟨hsettled, hid⟩))
      · obtain ⟨x, hx, rfl⟩ := List.mem_map.mp hj
        have hx' : x = r.id := hid
        rw [hx'] at hx ⊢
        have hlock := (hmine j hjlive hx).2
        rw [(hmine i hlive hcalled).2] at hlock
        rw [Option.some.inj hlock]
        exact Finset.mem_union_right _ (Finset.mem_singleton_self _)
    have hcard := (Finset.card_le_card hsub).trans (Finset.card_union_le _ _)
    have hparts := Finset.card_union_le (u.ledger.rolledBack.filter fun c => c.1 = r.id)
      (u.ledger.settled.filter fun c => c.1 = r.id)
    rw [Finset.card_singleton] at hcard
    have hless := hpending (hmine i hlive hcalled).1
    rw [hcount, Ledger.rolledBackFor]
    omega
  · have hsub : (u.ledger.calls.toFinset.filter fun c => c.1 = r.id) ⊆
        (u.ledger.rolledBack.filter fun c => c.1 = r.id) ∪
          (u.ledger.settled.filter fun c => c.1 = r.id) := by
      intro c hc
      obtain ⟨hmem, hid⟩ := Finset.mem_filter.mp hc
      rcases h.accounted c (List.mem_toFinset.mp hmem) with hlost | hsettled | ⟨j, hjlive, hj⟩
      · exact Finset.mem_union_left _ (Finset.mem_filter.mpr ⟨hlost, hid⟩)
      · exact Finset.mem_union_right _ (Finset.mem_filter.mpr ⟨hsettled, hid⟩)
      · obtain ⟨x, hx, rfl⟩ := List.mem_map.mp hj
        exact absurd ⟨j, hjlive, hid ▸ hx⟩ hopen
    have hcard := (Finset.card_le_card hsub).trans (Finset.card_union_le _ _)
    rw [hcount, Ledger.rolledBackFor]
    omega

theorem one_le_limitOf (hpolicy : 1 ≤ policy.maxAttempts) (hrow : 1 ≤ r.maxAttempts) :
    1 ≤ limitOf policy r.toEvent := le_min hpolicy hrow

/-- The account of one row in the state `sys`. -/
structure RetryMachine (policy : RetryPolicy) (sys : System OutboxOp Drain Books Exc Unit)
    (row : OutboxEvent) : Prop where
  within : row.Within (limitOf policy row.toEvent)
  /-- a row that is published or dead stays so, and is never claimed again -/
  terminal : row.status ≠ .pending → ∀ sys', ledgerMachine.Reaches Machine.Any sys sys' →
    row ∈ sys'.world.rows ∧
      sys'.world.ledger.claimsOf row.id = sys.world.ledger.claimsOf row.id
  calls : (sys.world.ledger.callsFor row.id : Int) ≤
    limitOf policy row.toEvent + sys.world.ledger.rolledBackFor row.id

/-- **The retry machine of every row**: whatever the publish calls answer, however many publishers
    share the table, and wherever a drain is rolled back. -/
theorem outbox_retry_machine (dumps : Json String → String) (fates : Nat → Fate)
    (jobs : Nat → Job) (policy : RetryPolicy) (hpolicy : 1 ≤ policy.maxAttempts)
    (hjobs : ∀ i, (jobs i).Under policy)
    (h : ledgerMachine.Reaches Machine.Any (bookedOutbox dumps fates jobs) sys)
    {row : OutboxEvent} (hrow : row ∈ sys.world.rows) (hmax : 1 ≤ row.maxAttempts) :
    RetryMachine policy sys row := by
  have hbalanced := balanced_of_reaches hjobs h
  have hwithin := hbalanced.books.within row hrow (one_le_limitOf hpolicy hmax)
  refine ⟨hwithin, ?_, hbalanced.callsFor_le hrow hwithin⟩
  intro hdone sys' h'
  exact terminal_of_reaches hjobs h h' hrow hdone

/-- The rows of the outbox without books are within their limits. -/
theorem within_of_reaches (hpolicy : 1 ≤ policy.maxAttempts) (hjobs : ∀ i, (jobs i).Under policy)
    {sys : System OutboxOp Session Universe Exc Unit}
    (h : outboxMachine.Reaches Machine.Any (outbox dumps fates jobs) sys) {row : OutboxEvent}
    (hrow : row ∈ sys.world.rows) (hmax : 1 ≤ row.maxAttempts) :
    row.Within (limitOf policy row.toEvent) := by
  rw [← bookedOutbox_erase] at h
  obtain ⟨booked, hbooked, rfl⟩ := ledger_erases.lift h
  exact (balanced_of_reaches hjobs hbooked).books.within row hrow (one_le_limitOf hpolicy hmax)

end Run

/-! ### A rolled-back attempt -/

/-- One event, and one publisher with two attempts for it. -/
def twoAttempts : RetryPolicy := ⟨2, 1, 300, 1 / 4⟩

def oneByOne : Nat → Job
  | 0 => .writer [⟨7, "agent.created", .obj [], "agent", none, 1, 1, none⟩]
  | _ => .publisher { retryPolicy := twoAttempts } 3

/-- Every publish call fails, and the commit of the first drain as well. -/
def allRefused (tick : Nat) : Fate :=
  { now := tick
    outcome := if tick ∈ [7, 11, 16, 26] then .refused jetstreamUnavailable else .done }

/-- The writer, and three drains. -/
def threeDrains : List Nat := List.replicate 5 0 ++ List.replicate 25 1

def afterThreeDrains : System OutboxOp Drain Books Exc Unit :=
  ledgerMachine.schedule threeDrains (bookedOutbox (fun _ => "") allRefused oneByOne)

theorem outbox_retry_machine_dead :
    afterThreeDrains.world.ledger.callsFor 7 = 3 ∧
      afterThreeDrains.world.ledger.rolledBackFor 7 = 1 ∧
      ∃ row ∈ afterThreeDrains.world.rows, row.id = 7 ∧ row.status = .dead ∧
        RetryMachine twoAttempts afterThreeDrains row := by
  have hjobs : ∀ i, (oneByOne i).Under twoAttempts := by
    intro i
    cases i with
    | zero => trivial
    | succ i => rfl
  have hrow : ∃ row ∈ afterThreeDrains.world.rows,
      row.id = 7 ∧ row.status = .dead ∧ 1 ≤ row.maxAttempts := by decide +kernel
  obtain ⟨row, hmem, hid, hdead, hmax⟩ := hrow
  have hreaches : ledgerMachine.Reaches Machine.Any
      (bookedOutbox (fun _ => "") allRefused oneByOne) afterThreeDrains :=
    Machine.reaches_schedule threeDrains _
  have hpolicy : 1 ≤ twoAttempts.maxAttempts := by decide
  refine ⟨by decide +kernel, by decide +kernel, row, hmem, hid, hdead, ?_⟩
  exact outbox_retry_machine (fun _ => "") allRefused oneByOne twoAttempts hpolicy hjobs hreaches
    hmem hmax

end FavlGateway.Outbox
