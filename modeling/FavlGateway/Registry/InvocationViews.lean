/-
  A consumer of invocation events never shows what was not so.

  The events that the registry commits go through a relay, several times perhaps and out of order,
  to a consumer that follows `parse_event` and `version_decision` (`Outbox.Downstream`).  Its view
  of an invocation is a prefix of the invocation's log; and every prefix of the log was the log once
  (`Library.EventLog`), when the row was as the prefix says (`InvocationLog`).
-/
import FavlGateway.Library.EventLog
import FavlGateway.Outbox.Downstream
import FavlGateway.Registry.EventPayloads
import FavlGateway.Registry.InvocationLog

namespace FavlGateway.Registry

open FavlGateway.Library
open FavlGateway.Outbox (View viewOf Relay LogOf Readable MessageOf Delivers DomainEvent dumpsText
  payloadGet outboxMachine)

/-! ## The events of the registry -/

/-- The event is one that the registry stages for this request. -/
structure OutboxEvent.Proper (rq : Incoming) (e : OutboxEvent) : Prop where
  version : e.schemaVersion = 1
  subject : e.subject ≠ ""
  payload : rq.Native → e.payload.native = true

theorem ConnectorEvent.value_ne_empty (event : ConnectorEvent) : event.value ≠ "" := by
  cases event <;> decide

theorem terminalEvent_ne_empty {status : InvocationStatus} {event : String}
    (h : terminalEvent status = some event) : event ≠ "" := by
  cases status <;> cases h <;> decide

theorem creationEvent_proper {rq : Incoming} {caller : CallerIdentity} {payload : ConnectorCreate}
    (request : rq.request = .createConnector caller payload) :
    (creationEvent rq.env (newConnector rq.env caller payload)).Proper rq :=
  ⟨rfl, ConnectorEvent.value_ne_empty .created, fun h => native_creationEvent h request⟩

theorem transitionEvent_proper {rq : Incoming} {env : Env} {record : ConnectorRecord}
    {tr : Transition} {actorId tenantId : String} {reason : Option String} :
    (transitionEvent env record tr actorId tenantId reason).Proper rq :=
  ⟨rfl, ConnectorEvent.value_ne_empty tr.event, fun _ => native_transitionEvent ..⟩

theorem deletionEvent_proper {rq : Incoming} {env : Env} {caller : CallerIdentity}
    {connectorId : Uuid} {record : ConnectorRecord} :
    (deletionEvent env caller connectorId record).Proper rq :=
  ⟨rfl, ConnectorEvent.value_ne_empty .deletionRequested, fun _ => native_deletionEvent ..⟩

theorem emitted_proper {rq : Incoming} {id : Uuid} {record : InvocationRecord} {event : String}
    (h : event ≠ "") : (emitted id record event).Proper rq :=
  ⟨rfl, h, fun _ => native_emitted ..⟩

theorem Session.Clean.rows_writing {s : Session} (hs : s.Clean) (id : Uuid)
    (current : ConnectorRecord) (rows : Rows) :
    (s.writing id current rows).flushed ++ (s.writing id current rows).pending = rows := by
  simp [Session.writing, hs.flushed]

theorem Session.Clean.rows_writingInvocation {s : Session} (hs : s.Clean) (id : Uuid)
    (current : InvocationRecord) (rows : Rows) :
    (s.writingInvocation id current rows).flushed ++
      (s.writingInvocation id current rows).pending = rows := by
  simp [Session.writingInvocation, hs.flushed]

/-- A transaction adds one event, or none. -/
theorem Tx.outbox {rq : Incoming} {s : Session} (h : Tx rq s) :
    (s.flushed ++ s.pending).outbox = [] ∨
      ∃ e, (s.flushed ++ s.pending).outbox = [e] ∧ e.Proper rq := by
  cases h with
  | idle clean => exact .inl (by simp [clean.flushed, clean.pending])
  | create request valid => exact .inr ⟨_, rfl, creationEvent_proper request⟩
  | transition clean held tenant asked edge reason =>
    exact .inr ⟨_, congrArg Rows.outbox (clean.rows_writing _ _ _), transitionEvent_proper⟩
  | touch report request clean held =>
    exact .inl (congrArg Rows.outbox (clean.rows_writing _ _ _))
  | delete request clean held locked pending =>
    exact .inr ⟨_, congrArg Rows.outbox (clean.rows_writing _ _ _), deletionEvent_proper⟩
  | accept invoked args_eq clean first held enabled tenant =>
    exact .inr ⟨_, rfl, emitted_proper (by decide)⟩
  | start clean held own accepted =>
    exact .inr ⟨_, congrArg Rows.outbox (clean.rows_writingInvocation _ _ _),
      emitted_proper (by decide)⟩
  | finish clean held own inFlight terminal =>
    exact .inr ⟨_, congrArg Rows.outbox (clean.rows_writingInvocation _ _ _),
      emitted_proper (terminalEvent_ne_empty terminal)⟩

section Runs

variable {reqs : Nat → Incoming} {db₀ : Db}
  {sys sys' : System RegistryOp Session World Exc Response} {i : Nat}

/-- A step adds one event to the outbox, or none. -/
theorem outbox_step (h : registryMachine.Reaches Machine.Any (registry db₀ reqs) sys)
    (hs : registryMachine.Step sys i sys') :
    sys'.world.db.outbox = sys.world.db.outbox ∨
      ∃ e, sys'.world.db.outbox = sys.world.db.outbox ++ [e] ∧ e.Proper (reqs i) := by
  rcases registry_step h hs with ⟨hdb, -⟩ | ⟨htx, hdb, -⟩
  · exact .inl (by rw [hdb])
  · have houtbox : sys'.world.db.outbox =
        sys.world.db.outbox ++ ((sys.sessions i).flushed ++ (sys.sessions i).pending).outbox :=
      congrArg Rows.outbox hdb
    rcases htx.outbox with hnone | ⟨e, he, hproper⟩
    · exact .inl (by rw [houtbox, hnone, List.append_nil])
    · exact .inr ⟨e, by rw [houtbox, he], hproper⟩

/-- Every event can be read, if floats are spelled so that they can be read back. -/
theorem reaches_readable {repr : ℚ → String} (hrepr : SpellsDoubles repr)
    (hnative : ∀ i, (reqs i).Native)
    (h : registryMachine.Reaches Machine.Any (registry Db.empty reqs) sys) :
    ∀ e ∈ sys.world.db.outbox, Readable repr e := by
  induction h with
  | start =>
    intro e he
    cases he
  | @step _ _ i hr hs _ ih =>
    intro e he
    rcases outbox_step hr hs with hsame | ⟨e', hnew, hproper⟩
    · exact ih e (hsame ▸ he)
    · rw [hnew] at he
      rcases List.mem_append.mp he with he | he
      · exact ih e he
      · rw [List.mem_singleton.mp he]
        exact ⟨hproper.version, hproper.subject,
          Json.plain_of_native hrepr _ (hproper.payload (hnative i))⟩

/-- The log of an invocation grows by one event at a time. -/
theorem invocationEvents_step (v : Uuid)
    (h : registryMachine.Reaches Machine.Any (registry db₀ reqs) sys)
    (hs : registryMachine.Step sys i sys') :
    Appends (sys.world.db.invocationEvents v) (sys'.world.db.invocationEvents v) := by
  unfold Db.invocationEvents
  rcases outbox_step h hs with hsame | ⟨e, hnew, -⟩
  · exact .inl (by rw [hsame])
  · rw [hnew, List.filter_append, List.filter_singleton]
    cases decide (e.aggregateType = "invocation" ∧ e.aggregateId = some v) with
    | true => exact .inr ⟨e, rfl⟩
    | false => exact .inl (List.append_nil _)

theorem reaches_logOf (h : registryMachine.Reaches Machine.Any (registry Db.empty reqs) sys)
    (v : Uuid) :
    LogOf sys.world.db.outbox "invocation" v (sys.world.db.invocationEvents v) where
  log_eq := by
    refine List.filter_congr fun e _ => ?_
    simp [Outbox.isAbout]
  versions := by
    cases hrow : sys.world.db.invocation v with
    | none =>
      rw [(reaches_logged h).known hrow]
      rfl
    | some r =>
      have hversions := ((reaches_logged h).row hrow).versions
      rw [(lookup_mem hrow).2] at hversions
      have hlength := congrArg List.length hversions
      rw [List.length_map, List.length_range'] at hlength
      rw [hversions, hlength]

end Runs

/-! ## What a consumer shows -/

/-- What the data of an event says of the status. -/
def shownStatus (event : DomainEvent) : Json PyStr :=
  match event.data with
  | .obj members => payloadGet members "status"
  | _ => .null

/-- The view shows the row: its version and its status, and that it came to it as rows do. -/
structure ShowsInvocation (view : View) (r : InvocationRecord) : Prop where
  version : view.lastApplied = some (r.aggregateVersion : Int)
  status : view.applied.getLast?.map shownStatus = some (.str (PyStr.ofString r.status.value))
  story : ∃ subjects, LogShape r.status subjects ∧
    view.applied.map (·.eventType) = subjects.map fun subject => .str (PyStr.ofString subject)

theorem payloadGet_toPyMembers (members : Dict String) (key : String) :
    payloadGet (Json.toPyMembers members) key = ((members.get? key).map Json.toPy).getD .null := by
  induction members with
  | nil => rfl
  | cons m members ih =>
    obtain ⟨k, x⟩ := m
    unfold payloadGet Outbox.payloadGetOr Dict.get? at ih ⊢
    rw [Json.toPyMembers, List.find?_cons, List.find?_cons]
    by_cases hkey : k = key
    · simp [hkey]
    · simpa [hkey] using ih

/-- The status of an event is the one that the service recorded. -/
theorem shownStatus_of_tells {event : DomainEvent} {e : OutboxEvent} {s : String}
    (h : event.Tells e) (hs : e.recordedStatus = some (jsonStr s)) :
    shownStatus event = .str (PyStr.ofString s) := by
  unfold OutboxEvent.recordedStatus at hs
  unfold shownStatus
  rw [h.data]
  cases hpayload : e.payload with
  | obj members =>
    rw [hpayload] at hs
    dsimp only at hs
    simp only [Json.toPy, payloadGet_toPyMembers, hs]
    rfl
  | _ =>
    rw [hpayload] at hs
    cases hs

/-- The last event that a view has applied is the last of its log. -/
theorem shownStatus_last {applied : List DomainEvent} {events : List OutboxEvent} {s : String}
    (h : List.Forall₂ DomainEvent.Tells applied events)
    (hlast : events.getLast?.bind OutboxEvent.recordedStatus = some (jsonStr s)) :
    applied.getLast?.map shownStatus = some (.str (PyStr.ofString s)) := by
  obtain ⟨e, he, hstatus⟩ := Option.bind_eq_some_iff.mp hlast
  rw [List.getLast?_eq_head?_reverse, List.head?_eq_some_iff] at he
  obtain ⟨earlier, hreverse⟩ := he
  have hreversed := List.forall₂_reverse_iff.mpr h
  rw [hreverse] at hreversed
  obtain ⟨event, _, htells, -, happlied⟩ := List.forall₂_cons_right_iff.mp hreversed
  rw [List.getLast?_eq_head?_reverse, happlied]
  exact congrArg some (shownStatus_of_tells htells hstatus)

/-- The events that a view has applied are of the types that its log says. -/
theorem eventTypes_of_tells {applied : List DomainEvent} {events : List OutboxEvent}
    (h : List.Forall₂ DomainEvent.Tells applied events) :
    applied.map (·.eventType) =
      (events.map (·.subject)).map fun subject => .str (PyStr.ofString subject) := by
  induction h with
  | nil => rfl
  | cons htells _ ih => rw [List.map_cons, htells.event_type, ih]; rfl

/-- A view that is the log of an invocation shows its row. -/
theorem ShowsInvocation.of_logged {db : Db} {r : InvocationRecord} {view : View}
    (h : Logged db r) {log : List OutboxEvent} {k : Nat} (hview : view.At log k)
    (hlog : log.take k = db.invocationEvents r.id) : ShowsInvocation view r := by
  have hk : k ≠ 0 := by
    rintro rfl
    have hlast := h.last
    rw [← hlog] at hlast
    cases hlast
  have happlied : List.Forall₂ DomainEvent.Tells view.applied (db.invocationEvents r.id) :=
    hlog ▸ hview.applied
  have hlength : k = r.aggregateVersion := by
    have hversions := congrArg List.length h.versions
    rwa [List.length_map, List.length_range', ← hlog, List.length_take_of_le hview.le] at hversions
  refine ⟨?_, shownStatus_last happlied h.last, _, h.subjects, eventTypes_of_tells happlied⟩
  rw [hview.last, if_neg hk, hlength]

/-- The view shows the invocation as it was at some time in the run up to `sys`. -/
def ShowsPast (reqs : Nat → Incoming) (sys : System RegistryOp Session World Exc Response)
    (v : Uuid) (view : View) : Prop :=
  ∃ past r, registryMachine.Reaches Machine.Any (registry Db.empty reqs) past ∧
    registryMachine.Reaches Machine.Any past sys ∧ past.world.db.invocation v = some r ∧
    ShowsInvocation view r

section Consumers

variable {reqs : Nat → Incoming} {sys : System RegistryOp Session World Exc Response} {v : Uuid}
  {view : View} {k : Nat}

/-- A prefix of the log is an invocation as it was. -/
theorem showsPast_of_at (h : registryMachine.Reaches Machine.Any (registry Db.empty reqs) sys)
    (hview : view.At (sys.world.db.invocationEvents v) k) (hk : k ≠ 0) :
    ShowsPast reqs sys v view := by
  obtain ⟨past, hpast, hlater, hlog⟩ :=
    h.at_prefix (fun w : World => w.db.invocationEvents v)
      (fun hr hs _ => invocationEvents_step v hr hs) (Nat.zero_le k)
  have hevents : past.world.db.invocationEvents v ≠ [] := by
    rw [← List.length_pos_iff, hlog, List.length_take_of_le hview.le]
    omega
  cases hrow : past.world.db.invocation v with
  | none => exact absurd ((reaches_logged hpast).known hrow) hevents
  | some r =>
    have hlogged := (reaches_logged hpast).row hrow
    obtain ⟨-, rfl⟩ := lookup_mem hrow
    exact ⟨past, r, hpast, hlater, hrow, .of_logged hlogged hview hlog.symm⟩

end Consumers

/-- **A consumer shows invocations as they were.**  Whatever the registry is asked, and whatever
    becomes of its events on the way (lost, late, repeated, out of order, from several publishers
    that may crash), a consumer that decides by version shows of an invocation nothing, or the
    version and the status that its row had at some time of the run, which it reached by the events
    that lead there.  And once the messages of its log have come in order, among others, it shows
    the row as it is. -/
theorem consumers_see_the_past (reqs : Nat → Incoming)
    {sys : System RegistryOp Session World Exc Response}
    (h : registryMachine.Reaches Machine.Any (registry Db.empty reqs) sys) {repr : ℚ → String}
    (hrepr : SpellsDoubles repr) (hnative : ∀ i, (reqs i).Native)
    (relay : Relay sys.world.db.outbox) {fates : Nat → Outbox.Fate}
    {out : System Outbox.OutboxOp Outbox.Session Outbox.Universe Outbox.Exc Unit}
    (hout : outboxMachine.Reaches Machine.Any
      (Outbox.outbox (dumpsText repr) fates relay.jobs) out)
    {deliveries : List Outbox.Message} (hdelivers : Delivers out deliveries)
    (other : PyStr → Option Datetime) (v : Uuid) :
    (viewOf other "invocation" v deliveries = {} ∨
      ShowsPast reqs sys v (viewOf other "invocation" v deliveries)) ∧
    ∀ later r, later.Sublist deliveries →
      List.Forall₂ (MessageOf (dumpsText repr)) (sys.world.db.invocationEvents v) later →
      sys.world.db.invocation v = some r →
      ShowsInvocation (viewOf other "invocation" v deliveries) r := by
  have hlogOf := reaches_logOf h v
  have hreadable := reaches_readable hrepr hnative h
  refine ⟨?_, ?_⟩
  · obtain ⟨k, hview⟩ := Outbox.view_follows other hlogOf hreadable hout hdelivers
    rcases Nat.eq_zero_or_pos k with rfl | hpos
    · exact .inl hview.eq_start
    · exact .inr (showsPast_of_at h hview (by omega))
  · intro later r hlater hmessages hrow
    have hview := Outbox.view_catches_up other hlogOf hreadable hout hdelivers hlater
      hmessages
    have hlogged := (reaches_logged h).row hrow
    obtain ⟨-, rfl⟩ := lookup_mem hrow
    exact .of_logged hlogged hview List.take_length

/-! ### One invocation, and a consumer that is sent everything twice -/

/-- All events are staged by one writer, and every other session is a publisher's. -/
def oneWriter (events : List OutboxEvent) : Relay events where
  jobs
    | 0 => .writer (events.map Outbox.staged)
    | _ => .publisher { retryPolicy := ⟨8, 1, 300, 1 / 4⟩ } 1
  writers {i items} hjob := by
    intro item hitem
    cases i with
    | zero =>
      cases hjob
      obtain ⟨e, he, rfl⟩ := List.mem_map.mp hitem
      exact ⟨e, he, rfl⟩
    | succ i => cases hjob

/-- A connector, and an invocation of it that times out after two milliseconds. -/
def invokedSlowly : Nat → Incoming
  | 0 => sampleEnabled
  | i => ⟨{ sampleEnv (10 * i) with utcnow := fun n => 1000 * n },
      .invokeConnectorV1 sampleCaller 0 sampleInvocation none none⟩

/-- The connector has no configuration. -/
theorem invokedSlowly_native (i : Nat) : (invokedSlowly i).Native := by
  intro caller payload hrequest
  cases i with
  | zero =>
    cases hrequest
    rfl
  | succ i => cases hrequest

def afterInvokedSlowly : System RegistryOp Session World Exc Response :=
  registryMachine.schedule (List.replicate 9 0 ++ List.replicate 30 1)
    (registry Db.empty invokedSlowly)

/-- How Python writes the only float there is, and a spelling of the others. -/
def durationRepr (q : ℚ) : String := if q = 2 then "2.0" else exactText q

theorem durationRepr_spells : SpellsDoubles durationRepr := by
  intro q hq
  by_cases htwo : q = 2
  · rw [htwo]
    decide +kernel
  · have hsame : durationRepr q = exactText q := if_neg htwo
    rw [ReadsBack, hsame]
    exact readsBack_exactText q hq

/-- The writer, and one drain. -/
def afterOneDrain : System Outbox.OutboxOp Outbox.Session Outbox.Universe Outbox.Exc Unit :=
  outboxMachine.schedule (List.replicate 14 0 ++ List.replicate 16 1)
    (Outbox.outbox (dumpsText durationRepr) (fun _ => {})
      (oneWriter afterInvokedSlowly.world.db.outbox).jobs)

/-- Backwards first, then in order. -/
theorem consumers_see_the_past_backwards :
    let messages := afterOneDrain.world.broker.sent.map Prod.snd
    let view := viewOf (fun _ => none) "invocation" 10 (messages.reverse ++ messages)
    ∃ r, afterInvokedSlowly.world.db.invocation 10 = some r ∧ r.status = .timedOut ∧
      ShowsInvocation view r := by
  intro messages view
  -- one evaluation of the two runs
  obtain ⟨hstatus, hkeys, hids⟩ :
      (afterInvokedSlowly.world.db.invocation 10).map (·.status) = some .timedOut ∧
        (afterInvokedSlowly.world.db.outbox.map (·.id)).Nodup ∧
        (afterOneDrain.world.broker.sent.drop 1).map Prod.fst =
          (afterInvokedSlowly.world.db.invocationEvents 10).map (·.id) := by
    decide +kernel
  obtain ⟨r, hr, hs⟩ := Option.map_eq_some_iff.mp hstatus
  have hrun : registryMachine.Reaches Machine.Any (registry Db.empty invokedSlowly)
    afterInvokedSlowly := Machine.reaches_schedule _ _
  have hout : outboxMachine.Reaches Machine.Any _ afterOneDrain := Machine.reaches_schedule _ _
  have hdelivers : Delivers afterOneDrain (messages.reverse ++ messages) := by
    intro m hm
    have hm' : m ∈ messages := (List.mem_append.mp hm).elim List.mem_reverse.mp id
    obtain ⟨⟨id, m⟩, hsent, rfl⟩ := List.mem_map.mp hm'
    exact ⟨id, hsent⟩
  have hmessages : List.Forall₂ (MessageOf (dumpsText durationRepr))
      (afterInvokedSlowly.world.db.invocationEvents 10)
      ((afterOneDrain.world.broker.sent.drop 1).map Prod.snd) :=
    Outbox.relay_sent_log (oneWriter afterInvokedSlowly.world.db.outbox) hout hkeys
      (List.filter_subset_self _) (List.drop_subset 1 _) hids
  have hlater : ((afterOneDrain.world.broker.sent.drop 1).map Prod.snd).Sublist
      (messages.reverse ++ messages) :=
    ((List.drop_sublist 1 _).map Prod.snd).trans (List.sublist_append_right _ _)
  exact ⟨r, hr, hs, (consumers_see_the_past invokedSlowly hrun durationRepr_spells invokedSlowly_native
    (oneWriter afterInvokedSlowly.world.db.outbox) hout hdelivers (fun _ => none) 10).2 _ r hlater
    hmessages hr⟩

end FavlGateway.Registry
