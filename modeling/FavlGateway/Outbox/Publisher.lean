/-
  The outbox publisher (`favl_outbox/publisher.py`) and the enqueue side (`favl_outbox/repository.py`).

  * `OutboxOp` — what either side awaits: the clock, the claiming query, a publish call, attribute
    assignments on claimed rows, the end of the transaction, a sleep.
  * `drainOnce`, `publisherLoop`, `writer` — the code, as programs over these operations.
  * `act` — what an operation does to the session and to the world outside (the table, its row locks,
    the broker).  Everything that is not up to the code is read off a `Fate`: what the clock says,
    how an outside call ends, whether the transaction is rolled back under the session.

  `json.dumps(…, default=str)` is the parameter `dumps`.
-/
import FavlGateway.Library.Prog
import FavlGateway.Library.Table
import FavlGateway.Outbox.Models
import FavlGateway.Outbox.Timing
import Mathlib.Data.List.Sort

namespace FavlGateway.Outbox

open FavlGateway.Library
open FavlGateway.Registry (Uuid uuidText)

/-! ## Exceptions and operations -/

inductive Exc where
  /-- an `Exception`: `type(exc).__name__` and `str(exc)` -/
  | raised (name text : PyStr)
  /-- `asyncio.CancelledError`, which `except Exception` lets through -/
  | cancelled
  /-- how a killed process reads -/
  | crashed
  deriving DecidableEq

def Exc.isException : Exc → Bool
  | raised _ _ => true
  | cancelled | crashed => false

/-- `f"{type(exc).__name__}: {exc}"` -/
def Exc.describe : Exc → PyStr
  | raised name text => name ++ (": " : PyStr) ++ text
  | cancelled => "CancelledError: "
  | crashed => ""

/-- `ConnectionError("jetstream unavailable")` -/
def jetstreamUnavailable : Exc := .raised "ConnectionError" "jetstream unavailable"

/-- What a statement raises on a transaction that is gone, and a commit that breaks the primary key. -/
def databaseError : Exc := .raised "DBAPIError" ""

/-- The broker's acknowledgement; `none` where it has no `seq`. -/
structure PubAck where
  seq : Option Int

inductive OutboxOp : Type → Type where
  /-- `datetime.now(UTC)` -/
  | now : OutboxOp Instant
  /-- `SELECT … WHERE status = 'pending' AND next_attempt_at <= now ORDER BY created_at LIMIT limit
      FOR UPDATE SKIP LOCKED` -/
  | claim (now : Instant) (limit : Nat) : OutboxOp (Except Exc (List OutboxEvent))
  /-- `JetStreamConnection.publish(subject, body, msg_id)`, called for `row` -/
  | publish (row : Uuid) (subject body msgId : String) : OutboxOp (Except Exc PubAck)
  /-- `generator.uniform(low, high)` -/
  | uniform (low high : ℚ) : OutboxOp ℚ
  /-- attribute assignments on a claimed row -/
  | assign (row : Uuid) (d : Delivery) : OutboxOp Unit
  /-- `session.add` -/
  | add (row : OutboxEvent) : OutboxOp Unit
  | commit : OutboxOp (Except Exc Unit)
  /-- the end of the session: what is not committed is rolled back -/
  | close : OutboxOp Unit
  /-- `refresh_stats`: two SELECTs of its own -/
  | refreshStats : OutboxOp (Except Exc Unit)
  /-- `asyncio.wait_for(self._stop.wait(), timeout=seconds)` -/
  | sleep (seconds : ℚ) : OutboxOp Unit

/-- Code of the outbox: awaits `OutboxOp`s, raises `Exc`s. -/
abbrev Task := Prog OutboxOp Exc

/-- `await o` -/
def await {β : Type} (o : OutboxOp β) : Task β := Prog.perform o

/-- `await o`, where `o` may raise. -/
def attempt {β : Type} (o : OutboxOp (Except Exc β)) : Task β := await o >>= Prog.ofExcept

/-! ## Publishing -/

/-- `compute_backoff`: exponential backoff with proportional jitter. -/
def computeBackoff (attempts : Nat) (policy : RetryPolicy) : Task ℚ := do
  let raw := min (policy.baseSeconds * 2 ^ (attempts - 1)) policy.capSeconds
  let jitter := raw * policy.jitterRatio
  let noise ← await (.uniform (-jitter) jitter)
  return max (1 / 10) (raw + noise)

structure DrainResult where
  claimed : Nat := 0
  published : Nat := 0
  failed : Nat := 0
  deadLettered : Nat := 0
  subjects : List String := []

/-- The configuration of an `OutboxPublisher`. -/
structure OutboxPublisher where
  retryPolicy : RetryPolicy
  batchSize : Nat := 100
  pollInterval : ℚ := 1 / 4
  idleInterval : ℚ := 1

/-- `_record_failure` -/
def recordFailure (policy : RetryPolicy) (row : OutboxEvent) (exc : Exc) (result : DrainResult) :
    Task DrainResult := do
  let attempts := row.attempts + 1
  let failure := { row.toDelivery with
    attempts := attempts
    lastError := some (exc.describe.take 2000) }
  let result := { result with failed := result.failed + 1 }
  -- the limit of the running policy, even if the row's own is higher
  let limit := min policy.maxAttempts row.maxAttempts
  if limit ≤ attempts then
    await (.assign row.id { failure with status := .dead })
    return { result with deadLettered := result.deadLettered + 1 }
  else
    let delay ← computeBackoff attempts policy
    let now ← await .now
    await (.assign row.id { failure with nextAttemptAt := now + delay })
    return result

/-- `_publish_row` -/
def publishRow (dumps : Json String → String) (policy : RetryPolicy) (row : OutboxEvent)
    (result : DrainResult) : Task DrainResult := do
  let body := dumps (envelopeFromRow row.toEvent)
  let reply ← await (.publish row.id row.subject body (uuidText row.id))
  match reply with
  | .error exc => if exc.isException then recordFailure policy row exc result else .raise exc
  | .ok ack =>
    let now ← await .now
    await (.assign row.id { row.toDelivery with
      status := .published
      publishedAt := some now
      streamSeq := ack.seq
      lastError := none })
    return { result with
      published := result.published + 1
      subjects := result.subjects ++ [row.subject] }

/-- `for row in rows: await self._publish_row(row, result)` -/
def publishRows (dumps : Json String → String) (policy : RetryPolicy) :
    List OutboxEvent → DrainResult → Task DrainResult
  | [], result => return result
  | row :: rows, result => do
    let result ← publishRow dumps policy row result
    publishRows dumps policy rows result

/-- The body of `drain_once`'s transaction. -/
def drainBatch (dumps : Json String → String) (publisher : OutboxPublisher) (now : Instant) :
    Task DrainResult := do
  let rows ← attempt (.claim now publisher.batchSize)
  let result ← publishRows dumps publisher.retryPolicy rows { claimed := rows.length }
  attempt .commit
  return result

/-- `drain_once`: claim and publish one batch. -/
def drainOnce (dumps : Json String → String) (publisher : OutboxPublisher) : Task DrainResult := do
  let now ← await .now
  (drainBatch dumps publisher now).finallyDo .close

/-- What one turn of the loop sleeps. -/
def loopDelay (dumps : Json String → String) (publisher : OutboxPublisher) : Task ℚ :=
  (do
    let result ← drainOnce dumps publisher
    attempt .refreshStats
    -- back off when idle, keep polling tight while a backlog is draining
    return if result.claimed ≠ 0 then publisher.pollInterval else publisher.idleInterval).tryCatch
  fun exc => if exc.isException then return publisher.idleInterval else .raise exc

/-- `_run`, for this many turns of its loop. -/
def publisherLoop (dumps : Json String → String) (publisher : OutboxPublisher) : Nat → Task Unit
  | 0 => return ()
  | turns + 1 => do
    let delay ← loopDelay dumps publisher
    await (.sleep delay)
    publisherLoop dumps publisher turns

/-! ## Enqueueing -/

/-- The arguments of `enqueue`, and the `uuid.uuid4()` it draws. -/
structure Enqueue where
  id : Uuid
  subject : String
  payload : Json String
  aggregateType : String
  aggregateId : Option String := none
  aggregateVersion : Int := 1
  schemaVersion : Int := 1
  maxAttempts : Option Int := none

/-- `enqueue`, with the column defaults that the flush fills in. -/
def enqueue (e : Enqueue) : Task Unit := do
  let nextAttemptAt ← await .now
  let createdAt ← await .now
  await (.add
    { id := e.id
      aggregateType := e.aggregateType
      aggregateId := e.aggregateId
      aggregateVersion := e.aggregateVersion
      subject := e.subject
      schemaVersion := e.schemaVersion
      payload := e.payload
      maxAttempts := e.maxAttempts.getD defaultMaxAttempts
      createdAt := createdAt
      status := .pending
      attempts := 0
      nextAttemptAt := nextAttemptAt
      lastError := none
      publishedAt := none
      streamSeq := none })

/-- `enqueue`, once for each event of a domain transaction. -/
def enqueueAll : List Enqueue → Task Unit
  | [] => return ()
  | e :: es => do
    enqueue e
    enqueueAll es

/-- A domain transaction, as far as the outbox is concerned. -/
def writer (es : List Enqueue) : Task Unit :=
  (do enqueueAll es; attempt .commit).finallyDo .close

/-! ## The world outside -/

/-- What the broker has seen. -/
structure Broker where
  /-- the messages that were sent, each with the row it was sent for -/
  sent : List (Uuid × Message) := []
  stored : List Message := []
  acked : List Message := []

/-- The committed rows, the FOR UPDATE locks on them with their holders, and the broker. -/
structure World where
  rows : List OutboxEvent := []
  lock : Uuid → Option Nat := fun _ => none
  broker : Broker := {}

/-- One database session. -/
structure Session where
  /-- its transaction has not been rolled back under it -/
  live : Bool := true
  /-- the claimed rows, with what was assigned to them -/
  held : List OutboxEvent := []
  added : List OutboxEvent := []
  /-- the messages that the broker acknowledged to this session -/
  acks : List Message := []

/-- How a call to the outside ends. -/
inductive Outcome where
  | done
  /-- not carried out -/
  | refused (exc : Exc)
  /-- carried out, and reported as failed -/
  | unreported (exc : Exc)

/-- How an operation fares: everything that is not up to the code. -/
structure Fate where
  now : Instant := 0
  /-- `random.random()` -/
  random : ℚ := 0
  outcome : Outcome := .done
  /-- the transaction is rolled back under the session: its connection is lost -/
  dropped : Bool := false
  /-- `JetStreamConnection.ready` -/
  ready : Bool := true
  seq : Option Int := none
  /-- the order PostgreSQL gives to rows with one `created_at` -/
  order : Uuid → Nat := id

/-- `ORDER BY created_at` -/
def createdBefore (order : Uuid → Nat) (a b : OutboxEvent) : Prop :=
  a.createdAt < b.createdAt ∨ a.createdAt = b.createdAt ∧ order a.id ≤ order b.id

instance (order : Uuid → Nat) : DecidableRel (createdBefore order) := fun a b =>
  inferInstanceAs
    (Decidable (a.createdAt < b.createdAt ∨ a.createdAt = b.createdAt ∧ order a.id ≤ order b.id))

/-- The rows a claiming query locks and answers. -/
def World.claimable (w : World) (order : Uuid → Nat) (now : Instant) (limit : Nat) :
    List OutboxEvent :=
  ((w.rows.filter fun row => row.status = .pending ∧ row.nextAttemptAt ≤ now ∧
    w.lock row.id = none).insertionSort (createdBefore order)).take limit

/-- Session `i` locks these rows. -/
def World.claimedBy (i : Nat) (w : World) (rows : List OutboxEvent) : World :=
  { w with lock := fun id => if id ∈ rows.map (·.id) then some i else w.lock id }

/-- Session `i` gives up its locks. -/
def World.release (i : Nat) (w : World) : World :=
  { w with lock := fun id => if w.lock id = some i then none else w.lock id }

/-- Assignments to the row with this key. -/
def assigned (row : Uuid) (d : Delivery) (rows : List OutboxEvent) : List OutboxEvent :=
  rows.map fun r => if r.id = row then r.assign d else r

/-- The UPDATEs of a commit: each held row's columns that the publisher writes. -/
def writeBack (held rows : List OutboxEvent) : List OutboxEvent :=
  rows.map fun r => ((lookup (·.id) held r.id).map fun h => r.assign h.toDelivery).getD r

/-- What the call that hands `m` to the broker makes of it. -/
def Broker.publish (row : Uuid) (m : Message) (seq : Option Int) (broker : Broker) :
    Outcome → Except Exc PubAck × Broker
  | .done =>
    (.ok ⟨seq⟩, ⟨broker.sent ++ [(row, m)], broker.stored ++ [m], broker.acked ++ [m]⟩)
  | .refused exc => (.error exc, { broker with sent := broker.sent ++ [(row, m)] })
  | .unreported exc =>
    (.error exc, { broker with
      sent := broker.sent ++ [(row, m)]
      stored := broker.stored ++ [m] })

/-- The end of session `i`'s transaction, on the rows it would leave. -/
def World.commit (i : Nat) (live : Bool) (written : List OutboxEvent) (w : World) :
    Outcome → Except Exc Unit × World
  | outcome =>
    if live = true ∧ (written.map (·.id)).Nodup then
      match outcome with
      | .done => (.ok (), { w with rows := written }.release i)
      | .refused exc => (.error exc, w.release i)
      | .unreported exc => (.error exc, { w with rows := written }.release i)
    else (.error databaseError, w.release i)

/-- One operation of session `i`, on a connection that stands or falls with `s.live`. -/
def perform (i : Nat) (f : Fate) : {β : Type} → OutboxOp β → Session → World → β × Session × World
  | _, .now, s, w => (f.now, s, w)
  | _, .claim now limit, s, w =>
    match s.live, f.outcome with
    | true, .done =>
      (.ok (w.claimable f.order now limit), { s with held := w.claimable f.order now limit },
        w.claimedBy i (w.claimable f.order now limit))
    | true, .refused exc => (.error exc, s, w)
    | true, .unreported exc => (.error exc, s, w)
    | false, _ => (.error databaseError, s, w)
  | _, .publish row subject body msgId, s, w =>
    if f.ready then
      let m := jetstreamMessage subject body msgId
      let r := w.broker.publish row m f.seq f.outcome
      (r.1, { s with acks := if r.1.isOk then m :: s.acks else s.acks }, { w with broker := r.2 })
    else (.error jetstreamUnavailable, s, w)
  | _, .uniform low high, s, w => (low + (high - low) * f.random, s, w)
  | _, .assign row d, s, w => ((), { s with held := assigned row d s.held }, w)
  | _, .add row, s, w => ((), { s with added := s.added ++ [row] }, w)
  | _, .commit, s, w =>
    let r := w.commit i s.live (writeBack s.held w.rows ++ s.added) f.outcome
    (r.1, {}, r.2)
  | _, .close, _, w => ((), {}, w.release i)
  | _, .refreshStats, s, w =>
    match f.outcome with
    | .done => (.ok (), s, w)
    | .refused exc => (.error exc, s, w)
    | .unreported exc => (.error exc, s, w)
  | _, .sleep _, s, w => ((), s, w)

/-- One operation of session `i`; its connection may be lost just before. -/
def act (i : Nat) (f : Fate) {β : Type} (o : OutboxOp β) (s : Session) (w : World) :
    β × Session × World :=
  if f.dropped then perform i f o { s with live := false } (w.release i) else perform i f o s w

/-! ## Rows -/

section Rows

variable {rows held : List OutboxEvent} {r : OutboxEvent} {row : Uuid} {d : Delivery} {w : World}
  {order : Uuid → Nat} {now : Instant} {limit : Nat}

@[simp] theorem map_toEvent_assigned :
    (assigned row d rows).map (·.toEvent) = rows.map (·.toEvent) := by
  simp only [assigned, List.map_map]
  refine List.map_congr_left fun r _ => ?_
  simp only [Function.comp]
  split <;> rfl

@[simp] theorem map_toEvent_writeBack :
    (writeBack held rows).map (·.toEvent) = rows.map (·.toEvent) := by
  simp only [writeBack, List.map_map]
  refine List.map_congr_left fun r _ => ?_
  simp only [Function.comp]
  cases lookup (·.id) held r.id <;> rfl

theorem map_id_eq (rows : List OutboxEvent) :
    rows.map (·.id) = (rows.map (·.toEvent)).map (·.id) := by rw [List.map_map]; rfl

@[simp] theorem map_id_writeBack : (writeBack held rows).map (·.id) = rows.map (·.id) := by
  rw [map_id_eq, map_toEvent_writeBack, ← map_id_eq]

@[simp] theorem map_id_assigned : (assigned row d rows).map (·.id) = rows.map (·.id) := by
  rw [map_id_eq, map_toEvent_assigned, ← map_id_eq]

theorem mem_assigned (h : r ∈ assigned row d rows) :
    (r ∈ rows ∧ r.id ≠ row) ∨ ∃ r₀ ∈ rows, r₀.id = row ∧ r = r₀.assign d := by
  obtain ⟨r₀, hr₀, rfl⟩ := List.mem_map.mp h
  split
  · exact .inr ⟨r₀, hr₀, by assumption, rfl⟩
  · exact .inl ⟨hr₀, by assumption⟩

theorem mem_assigned_of_ne (h : r ∈ rows) (hne : r.id ≠ row) : r ∈ assigned row d rows :=
  List.mem_map.mpr ⟨r, h, if_neg hne⟩

theorem mem_writeBack (h : r ∈ writeBack held rows) :
    r ∈ rows ∨ ∃ r₀ ∈ rows, ∃ h ∈ held, h.id = r₀.id ∧ r = r₀.assign h.toDelivery := by
  obtain ⟨r₀, hr₀, rfl⟩ := List.mem_map.mp h
  cases hfound : lookup (·.id) held r₀.id with
  | none => exact .inl hr₀
  | some h =>
    obtain ⟨hmem, hid⟩ := lookup_mem hfound
    exact .inr ⟨r₀, hr₀, h, hmem, hid, rfl⟩

@[simp] theorem writeBack_nil : writeBack [] rows = rows := by
  have hsame : ∀ r : OutboxEvent,
      ((lookup (·.id) ([] : List OutboxEvent) r.id).map fun h => r.assign h.toDelivery).getD r = r :=
    fun r => rfl
  simp only [writeBack, hsame, List.map_id']

theorem writeBack_append {rows' : List OutboxEvent} :
    writeBack held (rows ++ rows') = writeBack held rows ++ writeBack held rows' :=
  List.map_append

/-- Rows that were only read are written back as they are. -/
theorem writeBack_eq_self (hkeys : (rows.map (·.id)).Nodup) (h : ∀ r ∈ held, r ∈ rows) :
    writeBack held rows = rows := by
  refine (List.map_congr_left fun r hr => ?_).trans (List.map_id' rows)
  cases hfound : lookup (·.id) held r.id with
  | none => rfl
  | some r' =>
    obtain ⟨hmem, hid⟩ := lookup_mem hfound
    have hsame : r' = r := List.inj_on_of_nodup_map hkeys (h r' hmem) hr hid
    rw [hsame]
    rfl

/-- What is assigned to a held row shows in the table the transaction would leave. -/
theorem writeBack_assigned (h : row ∈ held.map (·.id)) :
    writeBack (assigned row d held) rows = assigned row d (writeBack held rows) := by
  unfold writeBack assigned
  rw [List.map_map]
  refine List.map_congr_left fun r _ => ?_
  have hupdate : lookup (·.id) (held.map fun h => if h.id = row then h.assign d else h) r.id =
      if r.id = row then (lookup (·.id) held row).map fun h => h.assign d
      else lookup (·.id) held r.id := lookup_update fun _ => rfl
  simp only [Function.comp]
  rw [hupdate]
  rcases eq_or_ne r.id row with hid | hne
  · obtain ⟨h₀, hh₀, hid₀⟩ := List.mem_map.mp h
    obtain ⟨h₁, hfound⟩ : ∃ h₁, lookup (·.id) held h₀.id = some h₁ := lookup_isSome_of_mem hh₀
    rw [hid₀] at hfound
    rw [if_pos hid, hid, hfound]
    exact (if_pos hid).symm
  · rw [if_neg hne]
    cases lookup (·.id) held r.id with
    | none => exact (if_neg hne).symm
    | some h₀ => exact (if_neg hne).symm

/-- A claiming query answers rows that are pending, due and not locked. -/
theorem mem_claimable (h : r ∈ w.claimable order now limit) :
    r ∈ w.rows ∧ r.status = .pending ∧ r.nextAttemptAt ≤ now ∧ w.lock r.id = none := by
  have hsorted := List.mem_of_mem_take h
  rw [List.mem_insertionSort, List.mem_filter] at hsorted
  simpa using hsorted

/-- It answers no row twice. -/
theorem nodup_claimable (h : (w.rows.map (·.id)).Nodup) :
    ((w.claimable order now limit).map (·.id)).Nodup := by
  have hsub : ((w.rows.filter fun row => row.status = .pending ∧ row.nextAttemptAt ≤ now ∧
      w.lock row.id = none).map (·.id)).Nodup :=
    (List.filter_sublist.map _).nodup h
  have hperm := List.perm_insertionSort (createdBefore order)
    (w.rows.filter fun row => row.status = .pending ∧ row.nextAttemptAt ≤ now ∧
      w.lock row.id = none)
  have hsorted := (hperm.map (·.id)).nodup_iff.mpr hsub
  exact ((List.take_sublist limit _).map _).nodup hsorted

/-- Rows with one key are one row. -/
theorem eq_of_id (h : (rows.map (·.id)).Nodup) {r r' : OutboxEvent} (hr : r ∈ rows) (hr' : r' ∈ rows)
    (hid : r.id = r'.id) : r = r' := List.inj_on_of_nodup_map h hr hr' hid

end Rows

end FavlGateway.Outbox
