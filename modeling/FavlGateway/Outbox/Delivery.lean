/-
  Any number of publishers and writers on one outbox table: what is delivered, and under which id.

  `outboxMachine` interleaves the sessions of all replicas, one operation at a time; a session may
  lose its transaction or its process at any point.  Three things carry the result:

  * what a session's operations leave to the others (`World.Grows`): the written-once columns of
    every row stay, acknowledgements stay, nobody's locks are taken away;
  * what the programs promise (`Permits`): a publish call is for a held row and carries the
    message of that row, and a row is marked published only after the acknowledgement;
  * what holds of the world and of every session (`Faithful`, `Honest`).
-/
import FavlGateway.Library.Interleave
import FavlGateway.Outbox.Publisher

namespace FavlGateway.Outbox

open FavlGateway.Library
open FavlGateway.Registry (Uuid uuidText)

/-! ## Replicas and writers -/

/-- The world, and how the operations to come will fare. -/
structure Universe extends World where
  fates : Nat → Fate
  tick : Nat := 0

/-- The sessions on one outbox table.  A killed process loses its transaction. -/
def outboxMachine : Machine OutboxOp Session Universe Exc where
  step := fun i {_} o s u =>
    let r := act i (u.fates u.tick) o s u.toWorld
    some (r.1, r.2.1, { u with toWorld := r.2.2, tick := u.tick + 1 })
  abort i _ u := { u with toWorld := u.toWorld.release i }
  fresh := {}
  crashed := .crashed

/-- What a session is there for. -/
inductive Job where
  | publisher (p : OutboxPublisher) (turns : Nat)
  | writer (events : List Enqueue)

def Job.task (dumps : Json String → String) : Job → Task Unit
  | .publisher p turns => publisherLoop dumps p turns
  | .writer events => FavlGateway.Outbox.writer events

/-- An empty table, and all sessions there will ever be. -/
def outbox (dumps : Json String → String) (fates : Nat → Fate) (jobs : Nat → Job) :
    System OutboxOp Session Universe Exc Unit :=
  ⟨{ fates := fates }, fun i => ⟨{}, (jobs i).task dumps⟩⟩

/-! ## What the others notice -/

/-- What the operations of session `i` leave to the others. -/
structure World.Grows (i : Nat) (w w' : World) : Prop where
  events : ∀ e ∈ w.rows.map (·.toEvent), e ∈ w'.rows.map (·.toEvent)
  acked : ∀ m ∈ w.broker.acked, m ∈ w'.broker.acked
  locks : ∀ j, j ≠ i → ∀ id, w.lock id = some j → w'.lock id = some j

section Grows

variable {i : Nat} {w w' w'' : World} {s : Session} {rows : List OutboxEvent} {row : Uuid}
  {m : Message} {seq : Option Int} {outcome : Outcome} {live : Bool}

theorem World.Grows.refl (w : World) : w.Grows i w := ⟨fun _ h => h, fun _ h => h, fun _ _ _ h => h⟩

theorem World.Grows.trans (h : w.Grows i w') (h' : w'.Grows i w'') : w.Grows i w'' :=
  ⟨fun e he => h'.events e (h.events e he), fun m hm => h'.acked m (h.acked m hm),
    fun j hj id hid => h'.locks j hj id (h.locks j hj id hid)⟩

theorem World.grows_release : w.Grows i (w.release i) := by
  refine ⟨fun _ h => h, fun _ h => h, ?_⟩
  intro j hj id hid
  show (if w.lock id = some i then none else w.lock id) = some j
  rw [hid, if_neg (by simpa using hj)]

/-- A claim takes locks that nobody holds. -/
theorem World.grows_claimedBy (h : ∀ r ∈ rows, w.lock r.id = none) :
    w.Grows i (w.claimedBy i rows) := by
  refine ⟨fun _ h => h, fun _ h => h, ?_⟩
  intro j _ id hid
  show (if id ∈ rows.map (·.id) then some i else w.lock id) = some j
  rw [if_neg, hid]
  intro hmem
  obtain ⟨r, hr, rfl⟩ := List.mem_map.mp hmem
  rw [h r hr] at hid
  cases hid

theorem World.grows_write (h : ∀ e ∈ w.rows.map (·.toEvent), e ∈ rows.map (·.toEvent)) :
    w.Grows i { w with rows := rows } :=
  ⟨h, fun _ h => h, fun _ _ _ h => h⟩

theorem World.grows_commit (h : ∀ e ∈ w.rows.map (·.toEvent), e ∈ rows.map (·.toEvent)) :
    w.Grows i (w.commit i live rows outcome).2 := by
  unfold World.commit
  split
  · cases outcome with
    | done => exact (World.grows_write h).trans World.grows_release
    | refused exc => exact World.grows_release
    | unreported exc => exact (World.grows_write h).trans World.grows_release
  · exact World.grows_release

theorem Broker.acked_publish (b : Broker) :
    ∀ m' ∈ b.acked, m' ∈ (b.publish row m seq outcome).2.acked := by
  intro m' hm'
  cases outcome with
  | done => exact List.mem_append_left _ hm'
  | refused exc => exact hm'
  | unreported exc => exact hm'

theorem perform_grows (f : Fate) {β : Type} (o : OutboxOp β) (s : Session) (w : World) :
    w.Grows i (perform i f o s w).2.2 := by
  cases o with
  | claim now limit =>
    unfold perform
    dsimp only
    split
    · exact World.grows_claimedBy fun r hr => (mem_claimable hr).2.2.2
    · exact .refl w
    · exact .refl w
    · exact .refl w
  | publish row subject body msgId =>
    unfold perform
    dsimp only
    split
    · exact ⟨fun _ h => h, Broker.acked_publish w.broker, fun _ _ _ h => h⟩
    · exact .refl w
  | commit =>
    refine World.grows_commit fun e he => ?_
    rw [List.map_append, map_toEvent_writeBack]
    exact List.mem_append_left _ he
  | close => exact World.grows_release
  | refreshStats =>
    unfold perform
    dsimp only
    split <;> exact .refl w
  | now => exact .refl w
  | uniform low high => exact .refl w
  | assign row d => exact .refl w
  | add row => exact .refl w
  | sleep seconds => exact .refl w

theorem act_grows (f : Fate) {β : Type} (o : OutboxOp β) (s : Session) (w : World) :
    w.Grows i (act i f o s w).2.2 := by
  unfold act
  split
  · exact World.grows_release.trans (perform_grows f o _ _)
  · exact perform_grows f o s w

end Grows

/-! ## What the programs promise -/

/-- The outcome of an operation, in some world. -/
def Effect {β : Type} (o : OutboxOp β) (s : Session) (b : β) (s' : Session) : Prop :=
  ∃ i f w, (act i f o s w).1 = b ∧ (act i f o s w).2.1 = s'

/-- When the code may await an operation: a publish call carries the message of a held row, only an
    acknowledged row is marked published, and new rows are pending. -/
def Permits (dumps : Json String → String) {β : Type} : OutboxOp β → Session → Prop
  | .publish row subject body msgId, s =>
    ∃ h ∈ s.held, h.id = row ∧ jetstreamMessage subject body msgId = messageOf dumps h.toEvent
  | .assign row d, s =>
    d.status = .published → ∃ h ∈ s.held, h.id = row ∧ messageOf dumps h.toEvent ∈ s.acks
  | .add row, _ => row.status = .pending
  | _, _ => True

def discipline (dumps : Json String → String) : Discipline OutboxOp Session where
  pre := Permits dumps
  eff := Effect

/-- The written-once columns of the claimed rows. -/
def Session.events (s : Session) : List Event := s.held.map (·.toEvent)

section Obeys

variable {dumps : Json String → String} {s s' : Session} {policy : RetryPolicy} {row : OutboxEvent}
  {result : DrainResult} {publisher : OutboxPublisher}

/-- An operation in some world, on a session whose connection may be gone. -/
theorem Effect.cases {β : Type} {o : OutboxOp β} {b : β} (h : Effect o s b s') :
    ∃ i f w live, (perform i f o { s with live := live } w).1 = b ∧
      (perform i f o { s with live := live } w).2.1 = s' := by
  obtain ⟨i, f, w, hb, hs⟩ := h
  unfold act at hb hs
  split at hb
  · rename_i hdropped
    rw [if_pos hdropped] at hs
    exact ⟨i, f, _, false, hb, hs⟩
  · rename_i hkept
    rw [if_neg hkept] at hs
    exact ⟨i, f, w, s.live, hb, hs⟩

theorem Effect.now {t : Instant} (h : Effect .now s t s') : s'.held = s.held ∧ s'.acks = s.acks := by
  obtain ⟨i, f, w, live, -, rfl⟩ := h.cases
  exact ⟨rfl, rfl⟩

theorem Effect.uniform {low high u : ℚ} (h : Effect (.uniform low high) s u s') :
    s'.held = s.held := by
  obtain ⟨i, f, w, live, -, rfl⟩ := h.cases
  rfl

theorem Effect.assign {id : Uuid} {d : Delivery} {u : Unit} (h : Effect (.assign id d) s u s') :
    s'.events = s.events := by
  obtain ⟨i, f, w, live, -, rfl⟩ := h.cases
  exact map_toEvent_assigned

theorem Effect.publish {id : Uuid} {subject body msgId : String} {r : Except Exc PubAck}
    (h : Effect (.publish id subject body msgId) s r s') :
    s'.held = s.held ∧ (r.isOk = true → jetstreamMessage subject body msgId ∈ s'.acks) := by
  obtain ⟨i, f, w, live, rfl, rfl⟩ := h.cases
  unfold perform
  dsimp only
  split
  · refine ⟨rfl, fun hok => ?_⟩
    dsimp only at hok ⊢
    rw [if_pos hok]
    exact List.mem_cons_self ..
  · exact ⟨rfl, fun hok => by cases hok⟩

theorem Effect.claim {now : Instant} {limit : Nat} {rows : List OutboxEvent}
    (h : Effect (.claim now limit) s (.ok rows) s') :
    s'.held = rows ∧ ∀ r ∈ rows, r.status = .pending := by
  obtain ⟨i, f, w, live, hrows, rfl⟩ := h.cases
  unfold perform at hrows ⊢
  dsimp only at hrows ⊢
  split at hrows
  · cases hrows
    exact ⟨rfl, fun r hr => (mem_claimable hr).2.1⟩
  · cases hrows
  · cases hrows
  · cases hrows

theorem mem_events {e : Event} (h : e ∈ s.events) : ∃ r ∈ s.held, r.toEvent = e :=
  List.mem_map.mp h

/-- Failure bookkeeping changes no event, and marks nothing published. -/
theorem recordFailure_obeys {exc : Exc} (hpending : row.status ≠ .published) :
    (recordFailure policy row exc result).Obeys (discipline dumps)
      (fun _ s' => s'.events = s.events) s := by
  unfold recordFailure computeBackoff await
  dsimp only
  split
  · refine ⟨nofun, ?_⟩
    intro u s' heff
    exact heff.assign
  · refine ⟨trivial, ?_⟩
    intro noise s₁ heff₁
    refine ⟨trivial, ?_⟩
    intro now s₂ heff₂
    refine ⟨fun h => absurd h hpending, ?_⟩
    intro u s₃ heff₃
    show s₃.events = s.events
    rw [heff₃.assign, Session.events, heff₂.now.1, heff₁.uniform]
    rfl

theorem publishRow_obeys (hpending : row.status ≠ .published) (hheld : row.toEvent ∈ s.events) :
    (publishRow dumps policy row result).Obeys (discipline dumps)
      (fun _ s' => s'.events = s.events) s := by
  obtain ⟨h, hmem, hevent⟩ := mem_events hheld
  have hid : h.id = row.id := congrArg Event.id hevent
  unfold publishRow await
  simp only [Prog.perform_bind, Prog.pure_eq]
  refine ⟨⟨h, hmem, hid, by rw [hevent]; rfl⟩, ?_⟩
  intro reply s₁ heff₁
  obtain ⟨hkept, hacked⟩ := heff₁.publish
  have hevents : s₁.events = s.events := by rw [Session.events, hkept]; rfl
  cases reply with
  | error exc =>
    dsimp only
    split
    · rw [← hevents]
      exact recordFailure_obeys hpending
    · exact hevents
  | ok ack =>
    refine ⟨trivial, ?_⟩
    intro now s₂ heff₂
    refine ⟨fun _ => ⟨h, ?_, hid, ?_⟩, ?_⟩
    · rw [heff₂.now.1, hkept]
      exact hmem
    · rw [heff₂.now.2, hevent]
      exact hacked rfl
    · intro u s₃ heff₃
      show s₃.events = s.events
      rw [heff₃.assign, Session.events, heff₂.now.1]
      exact hevents

/-- One row after the other: the rows still to come stay held. -/
theorem publishRows_obeys {rows : List OutboxEvent} (hpending : ∀ r ∈ rows, r.status ≠ .published)
    (hheld : ∀ r ∈ rows, r.toEvent ∈ s.events) :
    (publishRows dumps policy rows result).Obeys (discipline dumps) (fun _ _ => True) s := by
  induction rows generalizing s result with
  | nil => trivial
  | cons row rows ih =>
    unfold publishRows
    refine Prog.Obeys.bind ((publishRow_obeys (hpending row (List.mem_cons_self ..))
      (hheld row (List.mem_cons_self ..))).mono ?_)
    intro outcome s' hevents
    cases outcome with
    | error e => trivial
    | ok result' =>
      refine ih (fun r hr => hpending r (List.mem_cons_of_mem _ hr)) fun r hr => ?_
      rw [hevents]
      exact hheld r (List.mem_cons_of_mem _ hr)

theorem drainOnce_obeys :
    (drainOnce dumps publisher).Obeys (discipline dumps) (fun _ _ => True) s := by
  unfold drainOnce await
  simp only [Prog.perform_bind]
  refine ⟨trivial, ?_⟩
  intro now s₁ _
  refine Prog.Obeys.finallyDo ?_
  unfold drainBatch attempt await
  simp only [Prog.perform_bind, Prog.op_bind]
  refine ⟨trivial, ?_⟩
  intro answer s₂ heff
  cases answer with
  | error e => exact ⟨trivial, fun _ _ => trivial⟩
  | ok rows =>
    obtain ⟨hheld, hpending⟩ := heff.claim
    have hrows : ∀ r ∈ rows, r.status ≠ .published := by
      intro r hr hpublished
      rw [hpending r hr] at hpublished
      cases hpublished
    have hevents : ∀ r ∈ rows, r.toEvent ∈ s₂.events := by
      intro r hr
      rw [Session.events, hheld]
      exact List.mem_map_of_mem hr
    simp only [Prog.ofExcept, Prog.ret_bind]
    refine Prog.Obeys.bind ((publishRows_obeys hrows hevents).mono ?_)
    intro outcome s₃ _
    cases outcome with
    | error e => exact ⟨trivial, fun _ _ => trivial⟩
    | ok result =>
      refine ⟨trivial, ?_⟩
      intro answer s₄ _
      cases answer with
      | error e => exact ⟨trivial, fun _ _ => trivial⟩
      | ok u => exact ⟨trivial, fun _ _ => trivial⟩

theorem loopDelay_obeys :
    (loopDelay dumps publisher).Obeys (discipline dumps) (fun _ _ => True) s := by
  have hraise : ∀ e s', ((if Exc.isException e then .ret publisher.idleInterval
      else .raise e : Task ℚ)).Obeys (discipline dumps) (fun _ _ => True) s' := by
    intro e s'
    split <;> trivial
  refine Prog.Obeys.tryCatch (Prog.Obeys.bind (drainOnce_obeys.mono ?_))
  intro outcome s₁ _
  cases outcome with
  | error e => exact hraise e s₁
  | ok result =>
    refine ⟨trivial, ?_⟩
    intro answer s₂ _
    cases answer with
    | error e => exact hraise e s₂
    | ok u => trivial

theorem publisherLoop_obeys (turns : Nat) :
    (publisherLoop dumps publisher turns).Obeys (discipline dumps) (fun _ _ => True) s := by
  induction turns generalizing s with
  | zero => trivial
  | succ turns ih =>
    unfold publisherLoop
    refine Prog.Obeys.bind (loopDelay_obeys.mono ?_)
    intro outcome s₁ _
    cases outcome with
    | error e => trivial
    | ok delay => exact ⟨trivial, fun _ s₂ _ => ih⟩

theorem enqueueAll_obeys (events : List Enqueue) :
    (enqueueAll events).Obeys (discipline dumps) (fun _ _ => True) s := by
  induction events generalizing s with
  | nil => trivial
  | cons e events ih =>
    refine ⟨trivial, fun _ s₁ _ => ⟨trivial, fun _ s₂ _ => ⟨rfl, fun _ s₃ _ => ?_⟩⟩⟩
    exact ih

theorem writer_obeys (events : List Enqueue) :
    (writer events).Obeys (discipline dumps) (fun _ _ => True) s := by
  refine Prog.Obeys.finallyDo (Prog.Obeys.bind ((enqueueAll_obeys events).mono ?_))
  intro outcome s₁ _
  cases outcome with
  | error e => exact ⟨trivial, fun _ _ => trivial⟩
  | ok u =>
    refine ⟨trivial, ?_⟩
    intro answer s₂ _
    cases answer with
    | error e => exact ⟨trivial, fun _ _ => trivial⟩
    | ok u => exact ⟨trivial, fun _ _ => trivial⟩

/-- Every session of the outbox keeps the promises. -/
theorem task_obeys (job : Job) :
    (job.task dumps).Obeys (discipline dumps) (fun _ _ => True) s := by
  cases job with
  | publisher p turns => exact publisherLoop_obeys turns
  | writer events => exact writer_obeys events

end Obeys

/-! ## What holds of the world and of every session -/

/-- The table and the broker agree. -/
structure World.Faithful (dumps : Json String → String) (w : World) : Prop where
  keys : (w.rows.map (·.id)).Nodup
  published : ∀ r ∈ w.rows, r.status = .published → messageOf dumps r.toEvent ∈ w.broker.acked
  stored : ∀ m ∈ w.broker.acked, m ∈ w.broker.stored
  sent : ∀ x ∈ w.broker.sent, ∃ e ∈ w.rows.map (·.toEvent), e.id = x.1 ∧ x.2 = messageOf dumps e

/-- What session `i` holds is what the table holds, and what it has noted has happened. -/
structure Session.Honest (dumps : Json String → String) (i : Nat) (w : World) (s : Session) :
    Prop where
  held : ∀ e ∈ s.events, e ∈ w.rows.map (·.toEvent)
  locked : s.live = true → ∀ e ∈ s.events, w.lock e.id = some i
  marked : ∀ h ∈ s.held, h.status = .published → messageOf dumps h.toEvent ∈ w.broker.acked
  acks : ∀ m ∈ s.acks, m ∈ w.broker.acked
  added : ∀ a ∈ s.added, a.status = .pending

section Invariant

variable {dumps : Json String → String} {i j : Nat} {w w' : World} {s s' : Session} {f : Fate}

/-- A session without a transaction. -/
theorem Session.Honest.empty : Session.Honest dumps i w {} := by
  constructor <;> simp [Session.events]

/-- What another session's operation leaves of it. -/
theorem Session.Honest.others (h : s.Honest dumps j w) (hgrows : w.Grows i w') (hne : j ≠ i) :
    s.Honest dumps j w' where
  held e he := hgrows.events e (h.held e he)
  locked hlive e he := hgrows.locks j hne _ (h.locked hlive e he)
  marked r hr hstatus := hgrows.acked _ (h.marked r hr hstatus)
  acks m hm := hgrows.acked m (h.acks m hm)
  added := h.added

/-- Its transaction is rolled back under it. -/
theorem Session.Honest.dropped (h : s.Honest dumps i w) :
    ({ s with live := false } : Session).Honest dumps i (w.release i) where
  held := h.held
  locked hlive := by cases hlive
  marked := h.marked
  acks := h.acks
  added := h.added

theorem World.Faithful.release (h : w.Faithful dumps) : (w.release i).Faithful dumps :=
  ⟨h.keys, h.published, h.stored, h.sent⟩

theorem World.Faithful.claimedBy {rows : List OutboxEvent} (h : w.Faithful dumps) :
    (w.claimedBy i rows).Faithful dumps := ⟨h.keys, h.published, h.stored, h.sent⟩

/-- Two rows with one id, one of them held: they show one event. -/
theorem held_event_eq (hw : w.Faithful dumps) (h : s.Honest dumps i w) {r held : OutboxEvent}
    (hr : r ∈ w.rows) (hheld : held ∈ s.held) (hid : held.id = r.id) :
    held.toEvent = r.toEvent := by
  obtain ⟨r', hr', hevent⟩ := List.mem_map.mp (h.held _ (List.mem_map_of_mem hheld))
  have hsame : r' = r := eq_of_id hw.keys hr' hr (by rw [← hid, ← hevent])
  rw [← hevent, hsame]

/-- **The commit**: the held rows are written back, the added ones inserted. -/
theorem World.Faithful.commit (hw : w.Faithful dumps) (h : s.Honest dumps i w) :
    (w.commit i s.live (writeBack s.held w.rows ++ s.added) f.outcome).2.Faithful dumps := by
  have hwritten : ((writeBack s.held w.rows ++ s.added).map (·.id)).Nodup →
      World.Faithful dumps { w with rows := writeBack s.held w.rows ++ s.added } := by
    intro hnodup
    refine ⟨hnodup, ?_, hw.stored, ?_⟩
    · intro r hr hstatus
      rcases List.mem_append.mp hr with hr | hr
      · rcases mem_writeBack hr with hr | ⟨r₀, hr₀, held, hheld, hid, rfl⟩
        · exact hw.published r hr hstatus
        · have hmarked := h.marked held hheld hstatus
          rw [held_event_eq hw h hr₀ hheld hid] at hmarked
          exact hmarked
      · rw [h.added r hr] at hstatus
        cases hstatus
    · intro x hx
      obtain ⟨e, he, hmessage⟩ := hw.sent x hx
      refine ⟨e, ?_, hmessage⟩
      rw [List.map_append, map_toEvent_writeBack]
      exact List.mem_append_left _ he
  unfold World.commit
  split
  · rename_i hok
    cases f.outcome with
    | done => exact (hwritten hok.2).release
    | refused exc => exact hw.release
    | unreported exc => exact (hwritten hok.2).release
  · exact hw.release

/-- **The publish call**: it is for a row of the table, and carries its message. -/
theorem World.Faithful.publish {row : Uuid} {m : Message} {seq : Option Int} {outcome : Outcome}
    (hw : w.Faithful dumps)
    (hm : ∃ e ∈ w.rows.map (·.toEvent), e.id = row ∧ m = messageOf dumps e) :
    World.Faithful dumps { w with broker := (w.broker.publish row m seq outcome).2 } := by
  have hsent : ∀ x ∈ w.broker.sent ++ [(row, m)],
      ∃ e ∈ w.rows.map (·.toEvent), e.id = x.1 ∧ x.2 = messageOf dumps e := by
    intro x hx
    rcases List.mem_append.mp hx with hx | hx
    · exact hw.sent x hx
    · obtain ⟨e, he, hid, hmessage⟩ := hm
      rw [List.mem_singleton.mp hx]
      exact ⟨e, he, hid, hmessage⟩
  cases outcome with
  | refused exc => exact ⟨hw.keys, hw.published, hw.stored, hsent⟩
  | unreported exc =>
    refine ⟨hw.keys, hw.published, ?_, hsent⟩
    intro m' hm'
    exact List.mem_append_left _ (hw.stored m' hm')
  | done =>
    refine ⟨hw.keys, ?_, ?_, hsent⟩
    · intro r hr hstatus
      exact List.mem_append_left _ (hw.published r hr hstatus)
    · intro m' hm'
      rcases List.mem_append.mp hm' with hm' | hm'
      · exact List.mem_append_left _ (hw.stored m' hm')
      · exact List.mem_append_right _ hm'

/-- What a permitted operation makes of the world. -/
theorem perform_faithful {β : Type} {o : OutboxOp β} (hw : w.Faithful dumps)
    (h : s.Honest dumps i w) (hpre : Permits dumps o s) :
    (perform i f o s w).2.2.Faithful dumps := by
  cases o with
  | claim now limit =>
    unfold perform
    dsimp only
    split
    · exact hw.claimedBy
    · exact hw
    · exact hw
    · exact hw
  | publish row subject body msgId =>
    obtain ⟨held, hheld, hid, hmessage⟩ := hpre
    unfold perform
    dsimp only
    split
    · refine hw.publish ⟨held.toEvent, ?_, hid, hmessage⟩
      exact h.held _ (List.mem_map_of_mem hheld)
    · exact hw
  | commit => exact hw.commit h
  | close => exact hw.release
  | refreshStats =>
    unfold perform
    dsimp only
    split <;> exact hw
  | now => exact hw
  | uniform low high => exact hw
  | assign row d => exact hw
  | add row => exact hw
  | sleep seconds => exact hw

/-- What a permitted operation makes of its own session. -/
theorem perform_honest {β : Type} {o : OutboxOp β} (hw : w.Faithful dumps)
    (h : s.Honest dumps i w) (hpre : Permits dumps o s) :
    (perform i f o s w).2.1.Honest dumps i (perform i f o s w).2.2 := by
  cases o with
  | claim now limit =>
    unfold perform
    dsimp only
    split
    · refine ⟨?_, ?_, ?_, h.acks, h.added⟩
      · intro e he
        obtain ⟨r, hr, rfl⟩ := List.mem_map.mp he
        exact List.mem_map_of_mem (mem_claimable hr).1
      · intro _ e he
        obtain ⟨r, hr, rfl⟩ := List.mem_map.mp he
        show (if r.id ∈ _ then some i else _) = some i
        rw [if_pos (List.mem_map_of_mem hr)]
      · intro r hr hstatus
        rw [(mem_claimable hr).2.1] at hstatus
        cases hstatus
    · exact h
    · exact h
    · exact h
  | publish row subject body msgId =>
    unfold perform
    dsimp only
    split
    · have hgrown : ∀ m ∈ w.broker.acked, m ∈
          (w.broker.publish row (jetstreamMessage subject body msgId) f.seq f.outcome).2.acked :=
        Broker.acked_publish w.broker
      refine ⟨h.held, h.locked, fun r hr hstatus => hgrown _ (h.marked r hr hstatus), ?_, h.added⟩
      intro m hm
      dsimp only at hm
      cases houtcome : f.outcome with
      | done =>
        rw [houtcome] at hm
        rcases List.mem_cons.mp hm with rfl | hm
        · exact List.mem_append_right _ (List.mem_singleton.mpr rfl)
        · exact List.mem_append_left _ (h.acks m hm)
      | refused exc =>
        rw [houtcome] at hm
        exact h.acks m hm
      | unreported exc =>
        rw [houtcome] at hm
        exact h.acks m hm
    · exact h
  | assign row d =>
    refine ⟨?_, ?_, ?_, h.acks, h.added⟩
    · intro e he
      rw [Session.events, perform, map_toEvent_assigned] at he
      exact h.held e he
    · intro hlive e he
      rw [Session.events, perform, map_toEvent_assigned] at he
      exact h.locked hlive e he
    · intro r hr hstatus
      rcases mem_assigned hr with ⟨hr, -⟩ | ⟨r₀, hr₀, hid, rfl⟩
      · exact h.marked r hr hstatus
      · -- the acknowledged message is that of a held row with this id, and there is only one
        obtain ⟨held, hheld, hid', hack⟩ := hpre hstatus
        obtain ⟨r₁, hr₁, hevent⟩ := List.mem_map.mp (h.held _ (List.mem_map_of_mem hr₀))
        have hrid : r₁.id = r₀.id := congrArg Event.id hevent
        have hsame := held_event_eq hw h hr₁ hheld (by rw [hid', hrid, hid])
        rw [hsame, hevent] at hack
        exact h.acks _ hack
  | add row =>
    refine ⟨h.held, h.locked, h.marked, h.acks, ?_⟩
    intro a ha
    rcases List.mem_append.mp ha with ha | ha
    · exact h.added a ha
    · rw [List.mem_singleton.mp ha]
      exact hpre
  | commit => exact .empty
  | close => exact .empty
  | refreshStats =>
    unfold perform
    dsimp only
    split <;> exact h
  | now => exact h
  | uniform low high => exact h
  | sleep seconds => exact h

theorem Permits.offline {β : Type} {o : OutboxOp β} (h : Permits dumps o s) :
    Permits dumps o { s with live := false } := by
  cases o <;> exact h

/-- **The step lemma**: an operation that the code may await keeps the world faithful and its own
    session honest, whether or not the connection is lost first. -/
theorem act_keeps {β : Type} {o : OutboxOp β} (hw : w.Faithful dumps) (h : s.Honest dumps i w)
    (hpre : Permits dumps o s) :
    (act i f o s w).2.2.Faithful dumps ∧
      (act i f o s w).2.1.Honest dumps i (act i f o s w).2.2 := by
  unfold act
  split
  · exact ⟨perform_faithful hw.release h.dropped hpre.offline,
      perform_honest hw.release h.dropped hpre.offline⟩
  · exact ⟨perform_faithful hw h hpre, perform_honest hw h hpre⟩

end Invariant

/-! ## Every run -/

section Run

variable {dumps : Json String → String} {fates : Nat → Fate} {jobs : Nat → Job}
  {sys sys' : System OutboxOp Session Universe Exc Unit}

theorem outboxMachine_implements : outboxMachine.Implements fun _ => discipline dumps := by
  intro i β o s u b s' u' h
  cases h
  exact ⟨i, _, u.toWorld, rfl, rfl⟩

theorem outbox_disciplined : (outbox dumps fates jobs).Disciplined fun _ => discipline dumps :=
  fun i => task_obeys (jobs i)

/-- The world is faithful and every session is honest. -/
def Sound (dumps : Json String → String) (u : Universe) (sessions : Nat → Session) : Prop :=
  u.toWorld.Faithful dumps ∧ ∀ i, (sessions i).Honest dumps i u.toWorld

theorem sound_preserved :
    Preserved (α := Unit) outboxMachine (fun _ => discipline dumps) Machine.Any (Sound dumps) where
  op := by
    intro sys i β o k b s' u' hp hpre hstep _ hsound
    cases hstep
    obtain ⟨hfaithful, hhonest⟩ := act_keeps (f := sys.world.fates sys.world.tick) hsound.1
      (hsound.2 i) hpre
    refine ⟨hfaithful, fun j => ?_⟩
    rcases eq_or_ne j i with rfl | hne
    · rw [Function.update_self]
      exact hhonest
    · rw [Function.update_of_ne hne]
      exact (hsound.2 j).others (act_grows _ _ _ _) hne
  crash := by
    intro u ss i hsound
    refine ⟨hsound.1.release, fun j => ?_⟩
    rcases eq_or_ne j i with rfl | hne
    · rw [Function.update_self]
      exact .empty
    · rw [Function.update_of_ne hne]
      exact (hsound.2 j).others World.grows_release hne

/-- **The run lemma**. -/
theorem sound_of_reaches (h : outboxMachine.Reaches Machine.Any (outbox dumps fates jobs) sys) :
    Sound dumps sys.world sys.sessions := by
  refine h.preserved outboxMachine_implements sound_preserved outbox_disciplined ⟨?_, ?_⟩
  · constructor <;> simp [outbox]
  · exact fun i => .empty

/-- The events of the committed rows stay. -/
theorem events_of_reaches (h : outboxMachine.Reaches Machine.Any sys sys') {e : Event}
    (he : e ∈ sys.world.rows.map (·.toEvent)) : e ∈ sys'.world.rows.map (·.toEvent) := by
  induction h with
  | start => exact he
  | @step sys₁ sys₂ i _ hs _ ih =>
    cases hs with
    | op hp hstep =>
      cases hstep
      exact (act_grows (i := i) _ _ _ _).events e ih
    | crash hp => exact (World.grows_release (i := i)).events e ih

/-- What the outbox owes its consumers in the state `sys`. -/
structure AtLeastOnce (dumps : Json String → String)
    (sys : System OutboxOp Session Universe Exc Unit) : Prop where
  /-- a committed row stays in the table, as the same event, in one of the three statuses -/
  kept : ∀ row ∈ sys.world.rows, ∀ sys', outboxMachine.Reaches Machine.Any sys sys' →
    ∃ row' ∈ sys'.world.rows, row'.toEvent = row.toEvent ∧ row'.status.value ∈ allStatuses
  /-- what is marked published was acknowledged under the row's id, and is stored -/
  published : ∀ row ∈ sys.world.rows, row.status = .published →
    ∃ m ∈ sys.world.broker.acked, m ∈ sys.world.broker.stored ∧
      m.msgId = some (uuidText row.id) ∧ m.body = dumps (envelopeFromRow row.toEvent)
  /-- everything that was ever sent for a row carries its id and the same body -/
  identity : ∀ row ∈ sys.world.rows, ∀ m, (row.id, m) ∈ sys.world.broker.sent →
    m.msgId = some (uuidText row.id) ∧ m.body = dumps (envelopeFromRow row.toEvent)
  /-- nothing is sent for a row that is not committed -/
  accounted : ∀ x ∈ sys.world.broker.sent, ∃ row ∈ sys.world.rows, row.id = x.1
  /-- no row is claimed by two open transactions -/
  exclusive : ∀ i j, (sys.sessions i).live = true → (sys.sessions j).live = true →
    ∀ row ∈ (sys.sessions i).held, ∀ row' ∈ (sys.sessions j).held, row.id = row'.id → i = j

/-- **Delivery is at least once, under a stable identity**: whatever the replicas, the writers and
    the order of their steps, however the calls to the database and the broker end, and wherever
    processes die or transactions are rolled back. -/
theorem outbox_at_least_once (dumps : Json String → String) (fates : Nat → Fate) (jobs : Nat → Job)
    {sys : System OutboxOp Session Universe Exc Unit}
    (h : outboxMachine.Reaches Machine.Any (outbox dumps fates jobs) sys) :
    AtLeastOnce dumps sys := by
  obtain ⟨hfaithful, hhonest⟩ := sound_of_reaches h
  refine ⟨?_, ?_, ?_, ?_, ?_⟩
  · intro row hrow sys' h'
    obtain ⟨row', hrow', hevent⟩ :=
      List.mem_map.mp (events_of_reaches h' (List.mem_map_of_mem hrow))
    exact ⟨row', hrow', hevent, row'.status.value_mem⟩
  · intro row hrow hstatus
    have hacked := hfaithful.published row hrow hstatus
    exact ⟨_, hacked, hfaithful.stored _ hacked, msgId_messageOf dumps row.toEvent, rfl⟩
  · intro row hrow m hm
    obtain ⟨e, he, hid, hmessage⟩ := hfaithful.sent _ hm
    obtain ⟨row', hrow', rfl⟩ := List.mem_map.mp he
    -- the sent message is that of a row with this id, and there is only one
    have hsame : row' = row := eq_of_id hfaithful.keys hrow' hrow hid
    have hm' : m = messageOf dumps row.toEvent := by rw [← hsame]; exact hmessage
    rw [hm']
    exact ⟨msgId_messageOf dumps row.toEvent, rfl⟩
  · intro x hx
    obtain ⟨e, he, hid, -⟩ := hfaithful.sent x hx
    obtain ⟨row, hrow, rfl⟩ := List.mem_map.mp he
    exact ⟨row, hrow, hid⟩
  · intro i j hi hj row hrow row' hrow' hid
    have hlock := (hhonest i).locked hi row.toEvent (List.mem_map_of_mem hrow)
    have hlock' := (hhonest j).locked hj row'.toEvent (List.mem_map_of_mem hrow')
    have hsame : row.toEvent.id = row'.toEvent.id := hid
    rw [hsame, hlock'] at hlock
    exact (Option.some.inj hlock).symm

end Run

/-! ### A commit that fails after the publish -/

/-- One event, and two replicas of the publisher. -/
def twoReplicas : Nat → Job
  | 0 => .writer [⟨7, "agent.created", .obj [], "agent", none, 1, 1, none⟩]
  | _ => .publisher { retryPolicy := ⟨8, 1, 300, 1 / 4⟩ } 1

/-- The first replica's commit is refused. -/
def commitRefused (tick : Nat) : Fate :=
  if tick = 10 then { outcome := .refused databaseError } else {}

/-- The writer, the first replica's drain, and the second's. -/
def bothDrains : List Nat := List.replicate 5 0 ++ List.replicate 7 1 ++ List.replicate 7 2

def afterBothDrains : System OutboxOp Session Universe Exc Unit :=
  outboxMachine.schedule bothDrains (outbox (fun _ => "") commitRefused twoReplicas)

theorem outbox_at_least_once_republished :
    afterBothDrains.world.broker.sent.map (·.1) = [7, 7] ∧
      afterBothDrains.world.rows.map (·.status) = [.published] ∧
      AtLeastOnce (fun _ => "") afterBothDrains :=
  ⟨by decide +kernel, by decide +kernel,
    outbox_at_least_once _ _ _ (Machine.reaches_schedule bothDrains _)⟩

end FavlGateway.Outbox
