/-
  From the events a service has committed to what a consumer makes of them.

  `Relay` is the way between: writers that stage the events of the service, and publishers.  What a
  relay ever sends is the message of an event (`relay_sent`).  A consumer that follows `parse_event`
  and `version_decision` keeps a `View` of one aggregate, and whatever it is sent of what was sent,
  in whatever order and however often, its view is the aggregate's log up to some version
  (`view_follows`); and it is the whole log once the messages of the log have arrived in order,
  among others (`view_catches_up`).
-/
import FavlGateway.Outbox.Consumer
import FavlGateway.Outbox.Delivery
import FavlGateway.Outbox.WireFormat
import FavlGateway.Registry.AgentKeys

namespace FavlGateway.Outbox

open FavlGateway.Library
open FavlGateway.Registry (Uuid uuidText)

/-! ## The relay -/

/-- The arguments of `enqueue` for an event of a service. -/
def staged (e : Registry.OutboxEvent) : Enqueue where
  id := e.id
  subject := e.subject
  payload := e.payload
  aggregateType := e.aggregateType
  aggregateId := e.aggregateId.map uuidText
  aggregateVersion := e.aggregateVersion
  schemaVersion := e.schemaVersion

/-- The row is that of the event, whenever it was added. -/
structure RowOf (e : Registry.OutboxEvent) (row : Event) : Prop where
  id : row.id = e.id
  subject : row.subject = e.subject
  payload : row.payload = e.payload
  aggregateType : row.aggregateType = e.aggregateType
  aggregateId : row.aggregateId = e.aggregateId.map uuidText
  aggregateVersion : row.aggregateVersion = e.aggregateVersion
  schemaVersion : row.schemaVersion = e.schemaVersion

/-- Any number of sessions on an outbox table, whose writers stage events of the service only. -/
structure Relay (events : List Registry.OutboxEvent) where
  jobs : Nat → Job
  writers : ∀ {i : Nat} {items : List Enqueue}, jobs i = .writer items →
    ∀ item ∈ items, ∃ e ∈ events, item = staged e

/-- What a session may add. -/
def staging (events : List Registry.OutboxEvent) : Discipline OutboxOp Session where
  pre
    | .add row, _ => ∃ e ∈ events, RowOf e row.toEvent
    | _, _ => True
  eff _ _ _ _ := True

section Relay

variable {events : List Registry.OutboxEvent} {dumps : Json String → String}
  {policy : RetryPolicy} {publisher : OutboxPublisher} {s : Session}

theorem recordFailure_staging {row : OutboxEvent} {exc : Exc} {result : DrainResult} :
    (recordFailure policy row exc result).Obeys (staging events) (fun _ _ => True) s := by
  unfold recordFailure
  dsimp only
  split
  · exact ⟨trivial, fun _ _ _ => trivial⟩
  · exact ⟨trivial, fun _ _ _ => ⟨trivial, fun _ _ _ => ⟨trivial, fun _ _ _ => trivial⟩⟩⟩

theorem publishRow_staging {row : OutboxEvent} {result : DrainResult} :
    (publishRow dumps policy row result).Obeys (staging events) (fun _ _ => True) s := by
  unfold publishRow await
  simp only [Prog.perform_bind, Prog.pure_eq]
  refine ⟨trivial, ?_⟩
  intro reply s' _
  cases reply with
  | ok ack => exact ⟨trivial, fun _ _ _ => ⟨trivial, fun _ _ _ => trivial⟩⟩
  | error exc =>
    dsimp only
    split
    · exact recordFailure_staging
    · trivial

theorem publishRows_staging {rows : List OutboxEvent} {result : DrainResult} :
    (publishRows dumps policy rows result).Obeys (staging events) (fun _ _ => True) s := by
  induction rows generalizing result s with
  | nil => trivial
  | cons row rows ih =>
    refine Prog.Obeys.bind (publishRow_staging.mono ?_)
    rintro (e | result') s' -
    · trivial
    · exact ih

theorem drainOnce_staging :
    (drainOnce dumps publisher).Obeys (staging events) (fun _ _ => True) s := by
  refine ⟨trivial, fun now s₁ _ => Prog.Obeys.finallyDo ?_⟩
  unfold drainBatch attempt await
  simp only [Prog.perform_bind, Prog.op_bind]
  refine ⟨trivial, ?_⟩
  rintro (e | rows) s₂ -
  · exact ⟨trivial, fun _ _ => trivial⟩
  · simp only [Prog.ofExcept, Prog.ret_bind]
    refine Prog.Obeys.bind (publishRows_staging.mono ?_)
    rintro (e | result) s₃ -
    · exact ⟨trivial, fun _ _ => trivial⟩
    · refine ⟨trivial, ?_⟩
      rintro (e | u) s₄ -
      · exact ⟨trivial, fun _ _ => trivial⟩
      · exact ⟨trivial, fun _ _ => trivial⟩

theorem loopDelay_staging :
    (loopDelay dumps publisher).Obeys (staging events) (fun _ _ => True) s := by
  refine Prog.Obeys.tryCatch (Prog.Obeys.bind (drainOnce_staging.mono ?_))
  have hidle : ∀ (e : Exc) s', ((if e.isException then .ret publisher.idleInterval
      else .raise e : Task ℚ)).Obeys (staging events) (fun _ _ => True) s' := by
    intro e s'
    split <;> trivial
  rintro (e | result) s₁ -
  · exact hidle e s₁
  · refine ⟨trivial, ?_⟩
    rintro (e | u) s₂ -
    · exact hidle e s₂
    · trivial

theorem publisherLoop_staging (turns : Nat) :
    (publisherLoop dumps publisher turns).Obeys (staging events) (fun _ _ => True) s := by
  induction turns generalizing s with
  | zero => trivial
  | succ turns ih =>
    refine Prog.Obeys.bind (loopDelay_staging.mono ?_)
    rintro (e | delay) s₁ -
    · trivial
    · exact ⟨trivial, fun _ _ _ => ih⟩

theorem enqueueAll_staging {items : List Enqueue}
    (hitems : ∀ item ∈ items, ∃ e ∈ events, item = staged e) :
    (enqueueAll items).Obeys (staging events) (fun _ _ => True) s := by
  induction items generalizing s with
  | nil => trivial
  | cons item items ih =>
    obtain ⟨e, he, rfl⟩ := hitems item (List.mem_cons_self ..)
    refine ⟨trivial, fun _ _ _ => ⟨trivial, fun _ _ _ => ⟨⟨e, he, ?_⟩, fun _ _ _ => ?_⟩⟩⟩
    · exact ⟨rfl, rfl, rfl, rfl, rfl, rfl, rfl⟩
    · exact ih fun item' hitem' => hitems item' (List.mem_cons_of_mem _ hitem')

/-- Every session of a relay stages events of the service only. -/
theorem Relay.task_staging (relay : Relay events) (i : Nat) :
    ((relay.jobs i).task dumps).Obeys (staging events) (fun _ _ => True) s := by
  cases hjob : relay.jobs i with
  | publisher p turns => exact publisherLoop_staging turns
  | writer items =>
    refine Prog.Obeys.finallyDo (Prog.Obeys.bind
      ((enqueueAll_staging (relay.writers hjob)).mono ?_))
    rintro (e | u) s₁ -
    · exact ⟨trivial, fun _ _ => trivial⟩
    · refine ⟨trivial, ?_⟩
      rintro (e | u) s₂ -
      · exact ⟨trivial, fun _ _ => trivial⟩
      · exact ⟨trivial, fun _ _ => trivial⟩

/-- Every row is that of an event of the service. -/
def Rooted (events : List Registry.OutboxEvent) (rows : List OutboxEvent) : Prop :=
  ∀ row ∈ rows, ∃ e ∈ events, RowOf e row.toEvent

theorem Rooted.commit {written : List OutboxEvent} {w : World} {i : Nat} {live : Bool}
    {outcome : Outcome} (h : Rooted events w.rows) (hwritten : Rooted events written) :
    Rooted events (w.commit i live written outcome).2.rows := by
  unfold World.commit
  split
  · cases outcome with
    | done => exact hwritten
    | refused exc => exact h
    | unreported exc => exact hwritten
  · exact h

/-- What is written back is written to rows that were there. -/
theorem Rooted.writeBack {held rows : List OutboxEvent} (h : Rooted events rows) :
    Rooted events (Outbox.writeBack held rows) := by
  intro row hrow
  have hsame : (Outbox.writeBack held rows).map (·.toEvent) = rows.map (·.toEvent) :=
    map_toEvent_writeBack
  have hevent : row.toEvent ∈ rows.map (·.toEvent) := hsame ▸ List.mem_map_of_mem hrow
  obtain ⟨row₀, hrow₀, hsame⟩ := List.mem_map.mp hevent
  rw [← hsame]
  exact h row₀ hrow₀

theorem Rooted.perform {i : Nat} {f : Fate} {β : Type} {o : OutboxOp β} {w : World}
    (hpre : (staging events).pre o s) (hrows : Rooted events w.rows)
    (hadded : Rooted events s.added) :
    Rooted events (Outbox.perform i f o s w).2.2.rows ∧
      Rooted events (Outbox.perform i f o s w).2.1.added := by
  have hempty : Rooted events [] := by
    intro row hrow
    cases hrow
  cases o with
  | add row =>
    refine ⟨hrows, fun row' hrow' => ?_⟩
    rcases List.mem_append.mp hrow' with hrow' | hrow'
    · exact hadded row' hrow'
    · rw [List.mem_singleton.mp hrow']
      exact hpre
  | commit =>
    refine ⟨hrows.commit fun row hrow => ?_, hempty⟩
    exact (List.mem_append.mp hrow).elim (hrows.writeBack row) (hadded row)
  | close => exact ⟨hrows, hempty⟩
  | claim now limit =>
    unfold Outbox.perform
    dsimp only
    split <;> exact ⟨hrows, hadded⟩
  | publish row subject body msgId =>
    unfold Outbox.perform
    dsimp only
    split <;> exact ⟨hrows, hadded⟩
  | refreshStats =>
    unfold Outbox.perform
    dsimp only
    split <;> exact ⟨hrows, hadded⟩
  | now => exact ⟨hrows, hadded⟩
  | uniform low high => exact ⟨hrows, hadded⟩
  | assign row d => exact ⟨hrows, hadded⟩
  | sleep seconds => exact ⟨hrows, hadded⟩

theorem rooted_preserved : Preserved (α := Unit) outboxMachine (fun _ => staging events)
    Machine.Any fun u ss => Rooted events u.rows ∧ ∀ i, Rooted events (ss i).added where
  op := by
    rintro sys i β o k b s' u' - hpre hstep - ⟨hrows, hadded⟩
    cases hstep
    have hlive : (staging events).pre o { sys.sessions i with live := false } := by
      cases o <;> exact hpre
    have hact : Rooted events (act i (sys.world.fates sys.world.tick) o (sys.sessions i)
        sys.world.toWorld).2.2.rows ∧ Rooted events (act i (sys.world.fates sys.world.tick) o
          (sys.sessions i) sys.world.toWorld).2.1.added := by
      unfold act
      split
      · exact Rooted.perform hlive hrows (hadded i)
      · exact Rooted.perform hpre hrows (hadded i)
    refine ⟨hact.1, fun j => ?_⟩
    rcases eq_or_ne j i with rfl | hne
    · rw [Function.update_self]
      exact hact.2
    · rw [Function.update_of_ne hne]
      exact hadded j
  crash := by
    rintro u ss i ⟨hrows, hadded⟩
    refine ⟨hrows, fun j => ?_⟩
    rcases eq_or_ne j i with rfl | hne
    · rw [Function.update_self]
      intro row hrow
      cases hrow
    · rw [Function.update_of_ne hne]
      exact hadded j

/-- The message is that of an event of the service, whenever its row was added. -/
def MessageOf (dumps : Json String → String) (e : Registry.OutboxEvent) (m : Message) : Prop :=
  ∃ row, RowOf e row ∧ m = messageOf dumps row

/-- **What a relay sends are messages of the service's events**, each under the id of its event. -/
theorem relay_sent (relay : Relay events) {fates : Nat → Fate}
    {sys : System OutboxOp Session Universe Exc Unit}
    (h : outboxMachine.Reaches Machine.Any (outbox dumps fates relay.jobs) sys) {id : Uuid}
    {m : Message} (hm : (id, m) ∈ sys.world.broker.sent) :
    ∃ e ∈ events, e.id = id ∧ MessageOf dumps e m := by
  obtain ⟨row, hrow, hid, hmessage⟩ := (sound_of_reaches h).1.sent _ hm
  have hrooted : Rooted events sys.world.rows ∧ ∀ i, Rooted events (sys.sessions i).added := by
    refine h.preserved (D := fun _ => staging events) (fun _ => trivial) rooted_preserved
      (fun i => relay.task_staging i) ⟨?_, fun i => ?_⟩
    · intro row hrow
      cases hrow
    · intro row hrow
      cases hrow
  obtain ⟨row₀, hrow₀, rfl⟩ := List.mem_map.mp hrow
  obtain ⟨e, he, hof⟩ := hrooted.1 row₀ hrow₀
  exact ⟨e, he, hof.id.symm.trans hid, row₀.toEvent, hof, hmessage⟩

/-- Messages that were sent under the ids of a log are those of the log. -/
theorem relay_sent_log (relay : Relay events) {fates : Nat → Fate}
    {sys : System OutboxOp Session Universe Exc Unit}
    (h : outboxMachine.Reaches Machine.Any (outbox dumps fates relay.jobs) sys)
    (hkeys : (events.map (·.id)).Nodup) {log : List Registry.OutboxEvent} (hlog : log ⊆ events)
    {sent : List (Uuid × Message)} (hsent : sent ⊆ sys.world.broker.sent)
    (hids : sent.map Prod.fst = log.map (·.id)) :
    List.Forall₂ (MessageOf dumps) log (sent.map Prod.snd) := by
  induction log generalizing sent with
  | nil =>
    rw [List.map_eq_nil_iff.mp hids]
    exact .nil
  | cons e log ih =>
    obtain ⟨⟨id, m⟩, sent, rfl, rfl, htail⟩ := List.map_eq_cons_iff.mp hids
    obtain ⟨he, hlog⟩ := List.cons_subset.mp hlog
    obtain ⟨hm, hsent⟩ := List.cons_subset.mp hsent
    obtain ⟨e', he', hid, hmessage⟩ := relay_sent relay h hm
    rw [List.inj_on_of_nodup_map hkeys he' he hid] at hmessage
    exact .cons hmessage (ih hlog hsent htail)

end Relay

/-! ## What a consumer makes of a message -/

/-- The consumer's event says what the service's event says. -/
structure DomainEvent.Tells (event : DomainEvent) (e : Registry.OutboxEvent) : Prop where
  event_id : event.eventId = .str (PyStr.ofString (uuidText e.id))
  event_type : event.eventType = .str (PyStr.ofString e.subject)
  aggregate_type : event.aggregateType = .str (PyStr.ofString e.aggregateType)
  aggregate_id : event.aggregateId =
    (Json.ofOption (fun id => .str (uuidText id)) e.aggregateId).toPy
  aggregate_version : event.aggregateVersion = .number (.int e.aggregateVersion)
  data : event.data = e.payload.toPy

/-- The event can be read: it is of the current version, and its payload is a JSON object whose
    floats read back. -/
structure Readable (repr : ℚ → String) (e : Registry.OutboxEvent) : Prop where
  version : e.schemaVersion = 1
  subject : e.subject ≠ ""
  plain : e.payload.plain repr = true

/-- The members of a row's envelope, as the consumer has them. -/
def rowMembers (row : Event) : Dict PyStr :=
  [("event_id", .str (uuidText row.id)), ("event_type", .str row.subject),
    ("aggregate_type", .str row.aggregateType),
    ("aggregate_id", (Json.ofOption .str row.aggregateId).toPy),
    ("aggregate_version", .number (.int row.aggregateVersion)),
    ("occurred_at", .str (Instant.isoformat row.createdAt)),
    ("schema_version", .number (.int row.schemaVersion)), ("data", row.payload.toPy)]

section Messages

variable {repr : ℚ → String} {other : PyStr → Option Datetime} {e : Registry.OutboxEvent}
  {row : Event} {m : Message}

/-- `json.dumps(…, default=str)`, as a text. -/
def dumpsText (repr : ℚ → String) (v : Json String) : String := String.ofList (Json.dumps repr v)

theorem loads_envelopeFromRow (h : row.payload.plain repr = true) :
    Json.loads (dumpsText repr (envelopeFromRow row)).toList = some (.obj (rowMembers row)) := by
  have hplain : (envelopeFromRow row).plain repr = true := by
    have hid : ((Json.ofOption .str row.aggregateId).plain repr) = true := by
      cases row.aggregateId with
      | none => rfl
      | some s => rfl
    simp only [envelopeFromRow, buildEnvelope, Json.plain, Json.plainMembers, List.map_cons,
      List.map_nil, h, hid, Bool.and_true]
    decide
  rw [dumpsText, String.toList_ofList]
  exact Json.loads_dumps hplain

theorem isV1_rowMembers (he : Readable repr e) (hof : RowOf e row) : IsV1 (rowMembers row) := by
  have hversion : row.schemaVersion = 1 := by rw [hof.schemaVersion, he.version]; rfl
  have hsubject : row.subject ≠ "" := by rw [hof.subject]; exact he.subject
  refine ⟨?_, ?_, ?_⟩
  · simp [payloadGet, payloadGetOr, rowMembers]
  · simp [payloadGet, payloadGetOr, rowMembers, equalsInt, numberOf, numberEq, hversion,
      currentSchemaVersion]
  · intro required hrequired
    rw [requiredFields, List.mem_cons, List.mem_singleton] at hrequired
    rcases hrequired with rfl | rfl
    · simpa [payloadGet, payloadGetOr, rowMembers] using isTruthy_str (uuidText_ne_empty row.id)
    · simpa [payloadGet, payloadGetOr, rowMembers] using isTruthy_str hsubject

theorem v1Event_tells (hof : RowOf e row) : (v1Event other (rowMembers row)).Tells e where
  event_id := by simp [v1Event, payloadGet, payloadGetOr, rowMembers, hof.id]
  event_type := by simp [v1Event, payloadGet, payloadGetOr, rowMembers, hof.subject]
  aggregate_type := by simp [v1Event, payloadGet, payloadGetOr, rowMembers, hof.aggregateType]
  aggregate_id := by
    cases hid : e.aggregateId <;>
      simp [v1Event, payloadGet, payloadGetOr, rowMembers, hof.aggregateId, hid, Json.ofOption]
  aggregate_version := by
    simp [v1Event, payloadGet, payloadGetOr, rowMembers, hof.aggregateVersion]
  data := by simp [v1Event, payloadGetOr, rowMembers, hof.payload]

/-- **The message of an event is read as that event.** -/
theorem consume_messageOf (other : PyStr → Option Datetime) (he : Readable repr e)
    (hm : MessageOf (dumpsText repr) e m) (subject : Option PyStr) : ∃ event,
      consume other m.body.toList subject = some ([.processed "1"], .ok event) ∧
        event.Tells e := by
  obtain ⟨row, hof, rfl⟩ := hm
  have hplain : row.payload.plain repr = true := by rw [hof.payload]; exact he.plain
  refine ⟨v1Event other (rowMembers row), ?_, v1Event_tells hof⟩
  have hbody : (messageOf (dumpsText repr) row).body = dumpsText repr (envelopeFromRow row) := rfl
  simp only [consume, hbody, loads_envelopeFromRow hplain]
  rw [parseEvent_v1 (isV1_rowMembers he hof)]

end Messages

/-! ## A consumer's view of one aggregate -/

/-- What a consumer knows of an aggregate: the events it has applied, oldest first, and the version
    of the last one. -/
structure View where
  lastApplied : Option Int := none
  applied : List DomainEvent := []

/-- The event is one of the aggregate. -/
def DomainEvent.isOf (aggregateType : String) (aggregateId : Uuid) (event : DomainEvent) : Bool :=
  event.aggregateType = .str (PyStr.ofString aggregateType) &&
    event.aggregateId = .str (PyStr.ofString (uuidText aggregateId))

/-- The service's event is one of the aggregate. -/
def isAbout (aggregateType : String) (aggregateId : Uuid) (e : Registry.OutboxEvent) : Bool :=
  e.aggregateType = aggregateType && e.aggregateId = some aggregateId

/-- An event of the aggregate is applied if it is next; all else is left alone. -/
def View.apply (aggregateType : String) (aggregateId : Uuid) (view : View) (event : DomainEvent) :
    View :=
  if event.isOf aggregateType aggregateId then
    match versionDecisionOf event.aggregateVersion view.lastApplied with
    | some .apply => ⟨versionOf event.aggregateVersion, view.applied ++ [event]⟩
    | _ => view
  else view

/-- One message; what `parse_event` rejects is left alone too. -/
def View.handle (other : PyStr → Option Datetime) (aggregateType : String) (aggregateId : Uuid)
    (view : View) (m : Message) : View :=
  match consume other m.body.toList (some (PyStr.ofString m.subject)) with
  | some (_, .ok event) => view.apply aggregateType aggregateId event
  | _ => view

/-- The view after these messages. -/
def viewOf (other : PyStr → Option Datetime) (aggregateType : String) (aggregateId : Uuid)
    (deliveries : List Message) : View :=
  deliveries.foldl (View.handle other aggregateType aggregateId) {}

/-- The log of an aggregate: its events carry the versions `1, 2, …`, in order. -/
structure LogOf (events : List Registry.OutboxEvent) (aggregateType : String) (aggregateId : Uuid)
    (log : List Registry.OutboxEvent) : Prop where
  log_eq : log = events.filter (isAbout aggregateType aggregateId)
  versions : log.map (·.aggregateVersion) = List.range' 1 log.length

/-- The view is the log up to version `k`. -/
structure View.At (log : List Registry.OutboxEvent) (k : Nat) (view : View) : Prop where
  le : k ≤ log.length
  last : view.lastApplied = if k = 0 then none else some (k : Int)
  applied : List.Forall₂ DomainEvent.Tells view.applied (log.take k)

section Views

variable {events log : List Registry.OutboxEvent} {aggregateType : String} {aggregateId : Uuid}
  {view : View} {k : Nat} {e : Registry.OutboxEvent} {event : DomainEvent}

/-- The consumer sees to which aggregate an event belongs. -/
theorem DomainEvent.Tells.isOf (h : event.Tells e) :
    event.isOf aggregateType aggregateId = isAbout aggregateType aggregateId e := by
  have hid : event.aggregateId = .str (PyStr.ofString (uuidText aggregateId)) ↔
      e.aggregateId = some aggregateId := by
    rw [h.aggregate_id]
    cases e.aggregateId with
    | none => simp [Json.ofOption, Json.toPy]
    | some id => simp [Json.ofOption, Json.toPy, Registry.uuidText_injective.eq_iff]
  unfold DomainEvent.isOf isAbout
  rw [h.aggregate_type]
  simp only [hid, Json.str.injEq, PyStr.ofString_inj]

/-- An event stands in the log where its version says. -/
theorem LogOf.version_of_getElem? (h : LogOf events aggregateType aggregateId log) {n : Nat}
    (hn : log[n]? = some e) : e.aggregateVersion = n + 1 := by
  have hversion : (log.map (·.aggregateVersion))[n]? = some e.aggregateVersion := by
    rw [List.getElem?_map, hn]
    rfl
  rw [h.versions, List.getElem?_eq_some_iff] at hversion
  obtain ⟨hlt, hn'⟩ := hversion
  rw [List.getElem_range'] at hn'
  omega

/-- A view of no event is the one to start from. -/
theorem View.At.eq_start (h : view.At log 0) : view = {} := by
  obtain ⟨-, hlast, happlied⟩ := h
  cases view
  rw [List.take_zero, List.forall₂_nil_right_iff] at happlied
  cases hlast
  cases happlied
  rfl

/-- The next event of the aggregate is applied, all else is left alone. -/
theorem View.At.apply (h : view.At log k) (hlog : LogOf events aggregateType aggregateId log)
    (he : e ∈ events) (htells : event.Tells e) :
    (view.apply aggregateType aggregateId event).At log
      (if isAbout aggregateType aggregateId e = true ∧ e.aggregateVersion = k + 1 then k + 1
        else k) := by
  unfold View.apply
  rw [htells.isOf]
  by_cases habout : isAbout aggregateType aggregateId e = true
  · have hdecides : versionDecisionOf event.aggregateVersion view.lastApplied =
        some (versionDecision (some (e.aggregateVersion : Int)) view.lastApplied) := by
      rw [htells.aggregate_version]
      exact versionDecisionOf_annotated (.inr rfl) _
    have hprojection : Projection.InOrder ⟨view.lastApplied, versionsTo k⟩ k := ⟨rfl, h.last⟩
    have happly : versionDecision (some (e.aggregateVersion : Int)) view.lastApplied = .apply ↔
      some (e.aggregateVersion : Int) = some ((k : Int) + 1) := hprojection.apply_iff
    rw [if_pos habout, hdecides]
    by_cases hnext : e.aggregateVersion = k + 1
    · have hmem : e ∈ log := by
        rw [hlog.log_eq]
        exact List.mem_filter.mpr ⟨he, habout⟩
      obtain ⟨j, hj⟩ := List.mem_iff_getElem?.mp hmem
      have hk : log[k]? = some e := by
        rwa [show k = j by have := hlog.version_of_getElem? hj; omega]
      have hdo : versionDecision (some (e.aggregateVersion : Int)) view.lastApplied = .apply :=
        happly.mpr (by rw [hnext]; rfl)
      rw [hdo, if_pos ⟨habout, hnext⟩]
      refine ⟨(List.getElem?_eq_some_iff.mp hk).1, ?_, ?_⟩
      · rw [htells.aggregate_version, if_neg (Nat.succ_ne_zero k), hnext]
        rfl
      · rw [List.take_add_one, hk]
        exact List.rel_append h.applied (.cons htells .nil)
    · have hdont : versionDecision (some (e.aggregateVersion : Int)) view.lastApplied ≠ .apply := by
        intro hdo
        have hversion := Option.some.inj (happly.mp hdo)
        omega
      rw [if_neg fun hand => hnext hand.2]
      split
      · rename_i hdo
        exact absurd (Option.some.inj hdo) hdont
      · exact h
  · rw [if_neg habout, if_neg fun hand => habout hand.1]
    exact h

variable {repr : ℚ → String} {other : PyStr → Option Datetime} {m : Message}
  {deliveries : List Message}

/-- **The step lemma**: a message of an event moves the view if the event is next. -/
theorem View.At.handle (h : view.At log k) (other : PyStr → Option Datetime)
    (hlog : LogOf events aggregateType aggregateId log) (hreadable : Readable repr e)
    (he : e ∈ events) (hm : MessageOf (dumpsText repr) e m) :
    (view.handle other aggregateType aggregateId m).At log
      (if isAbout aggregateType aggregateId e = true ∧ e.aggregateVersion = k + 1 then k + 1
        else k) := by
  obtain ⟨event, hconsume, htells⟩ :=
    consume_messageOf other hreadable hm (some (PyStr.ofString m.subject))
  unfold View.handle
  rw [hconsume]
  exact h.apply hlog he htells

/-- **The run lemma**: a view stays a prefix of the log, and never goes back. -/
theorem View.At.handles (h : view.At log k) (other : PyStr → Option Datetime)
    (hlog : LogOf events aggregateType aggregateId log)
    (hreadable : ∀ e ∈ events, Readable repr e)
    (hsent : ∀ m ∈ deliveries, ∃ e ∈ events, MessageOf (dumpsText repr) e m) :
    ∃ k', k ≤ k' ∧ (deliveries.foldl (View.handle other aggregateType aggregateId) view).At log
      k' := by
  induction deliveries generalizing view k with
  | nil => exact ⟨k, Nat.le_refl k, h⟩
  | cons m deliveries ih =>
    obtain ⟨e, he, hm⟩ := hsent m (List.mem_cons_self ..)
    have hstep := h.handle other hlog (hreadable e he) he hm
    obtain ⟨k', hle, hk'⟩ := ih hstep fun m' hm' => hsent m' (List.mem_cons_of_mem _ hm')
    refine ⟨k', ?_, hk'⟩
    split at hle <;> omega

/-- Messages of the events that are still to come bring the view to the end of the log, whatever
    else comes in between. -/
theorem View.At.catches_up {later : List Message} (h : view.At log k)
    (hlog : LogOf events aggregateType aggregateId log)
    (hreadable : ∀ e ∈ events, Readable repr e)
    (hsent : ∀ m ∈ deliveries, ∃ e ∈ events, MessageOf (dumpsText repr) e m)
    (hlater : later.Sublist deliveries) {n : Nat} (hn : n ≤ k)
    (hmessages : List.Forall₂ (MessageOf (dumpsText repr)) (log.drop n) later) :
    (deliveries.foldl (View.handle other aggregateType aggregateId) view).At log log.length := by
  induction hlater generalizing view k n with
  | slnil =>
    have hend : log.length ≤ n := List.drop_eq_nil_iff.mp (List.forall₂_nil_right_iff.mp hmessages)
    rwa [show log.length = k from Nat.le_antisymm (hend.trans hn) h.le]
  | cons m _ ih =>
    obtain ⟨e, he, hm⟩ := hsent m (List.mem_cons_self ..)
    have hstep := h.handle other hlog (hreadable e he) he hm
    refine ih hstep (fun m' hm' => hsent m' (List.mem_cons_of_mem _ hm')) ?_ hmessages
    split <;> omega
  | cons_cons m _ ih =>
    -- the message of the event with version `n + 1`
    obtain ⟨e, rest, hm, hrest, hdrop⟩ := List.forall₂_cons_right_iff.mp hmessages
    have hn' : log[n]? = some e := by
      rw [← List.head?_drop, hdrop]
      rfl
    obtain ⟨he, habout⟩ := List.mem_filter.mp (hlog.log_eq ▸ List.mem_of_getElem? hn')
    have hversion := hlog.version_of_getElem? hn'
    have hstep := h.handle other hlog (hreadable e he) he hm
    rw [List.drop_eq_getElem?_toList_append, hn'] at hdrop
    obtain rfl : log.drop (n + 1) = rest := by simpa using hdrop
    refine ih hstep (fun m' hm' => hsent m' (List.mem_cons_of_mem _ hm')) ?_ hrest
    rw [if_congr (and_iff_right habout) rfl rfl]
    split <;> omega

end Views

/-! ## Through the relay -/

section Through

variable {events log : List Registry.OutboxEvent} {aggregateType : String} {aggregateId : Uuid}
  {repr : ℚ → String} {relay : Relay events}
  {fates : Nat → Fate} {sys : System OutboxOp Session Universe Exc Unit}
  {deliveries : List Message}

/-- Every delivery is a message that the relay has sent. -/
def Delivers (sys : System OutboxOp Session Universe Exc Unit) (deliveries : List Message) : Prop :=
  ∀ m ∈ deliveries, ∃ id, (id, m) ∈ sys.world.broker.sent

/-- **A view is a prefix of the log**, whatever is delivered of what was sent. -/
theorem view_follows (other : PyStr → Option Datetime)
    (hlog : LogOf events aggregateType aggregateId log)
    (hreadable : ∀ e ∈ events, Readable repr e)
    (h : outboxMachine.Reaches Machine.Any (outbox (dumpsText repr) fates relay.jobs) sys)
    (hdelivers : Delivers sys deliveries) :
    ∃ k, (viewOf other aggregateType aggregateId deliveries).At log k := by
  have hsent : ∀ m ∈ deliveries, ∃ e ∈ events, MessageOf (dumpsText repr) e m := by
    intro m hm
    obtain ⟨id, hid⟩ := hdelivers m hm
    obtain ⟨e, he, -, hmessage⟩ := relay_sent relay h hid
    exact ⟨e, he, hmessage⟩
  have hstart : View.At log 0 {} := ⟨Nat.zero_le _, rfl, .nil⟩
  obtain ⟨k, -, hk⟩ := hstart.handles other hlog hreadable hsent
  exact ⟨k, hk⟩

/-- **A view catches up**: it is the whole log once the messages of the log have arrived in order,
    among whatever else. -/
theorem view_catches_up (other : PyStr → Option Datetime)
    (hlog : LogOf events aggregateType aggregateId log)
    (hreadable : ∀ e ∈ events, Readable repr e)
    (h : outboxMachine.Reaches Machine.Any (outbox (dumpsText repr) fates relay.jobs) sys)
    (hdelivers : Delivers sys deliveries) {later : List Message}
    (hlater : later.Sublist deliveries)
    (hmessages : List.Forall₂ (MessageOf (dumpsText repr)) log later) :
    (viewOf other aggregateType aggregateId deliveries).At log log.length := by
  have hsent : ∀ m ∈ deliveries, ∃ e ∈ events, MessageOf (dumpsText repr) e m := by
    intro m hm
    obtain ⟨id, hid⟩ := hdelivers m hm
    obtain ⟨e, he, -, hmessage⟩ := relay_sent relay h hid
    exact ⟨e, he, hmessage⟩
  have hstart : View.At log 0 {} := ⟨Nat.zero_le _, rfl, .nil⟩
  exact hstart.catches_up hlog hreadable hsent hlater (Nat.le_refl 0) hmessages

end Through

end FavlGateway.Outbox
