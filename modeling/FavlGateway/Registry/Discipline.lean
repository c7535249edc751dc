/-
  Every endpoint obeys its discipline.

  The lemmas follow the call graph: what one operation does to a clean session, then the shared
  pieces (`tenantConnector`, `apply`, `accept`, `finalise`, `execute`), then the endpoints.  Each
  piece leaves a clean session behind whatever happened, which is what lets validation go on after
  a rejected transition and what makes the commits of the next piece readable as one `Tx`.
-/
import FavlGateway.Registry.Transactions

namespace FavlGateway.Registry

open FavlGateway.Library

/-! ## What operations do to a clean session -/

namespace Session

variable {s s' : Session} {id : Uuid}

/-- What a clean session can read of a connector is what it holds. -/
theorem Clean.attrs_eq (hs : s.Clean) {r : ConnectorRecord} :
    s.connectorAttrs id = some r ↔ s.Holds id r := by
  unfold connectorAttrs Holds
  cases h : s.connectors id with
  | none => simp
  | some inst =>
    obtain ⟨hcur, -⟩ := hs.connectors h
    cases he : inst.expired <;> simp [Instance.attrs, he, hcur]

theorem Clean.holds_id (hs : s.Clean) {r : ConnectorRecord} (h : s.Holds id r) : r.id = id := by
  obtain ⟨inst, hinst, -, rfl⟩ := h
  exact (hs.connectors hinst).2

theorem Clean.loadConnector (hs : s.Clean) (db : Db) (locked : Bool) :
    (s.loadConnector db id locked).2.Clean := by
  unfold Session.loadConnector
  split
  · rename_i row hrow
    have hid : row.id = id := (lookup_mem hrow).2
    refine ⟨hs.pending, hs.flushed, fun {id'} inst h => ?_, hs.invocations⟩
    rcases eq_or_ne id' id with rfl | hne
    · simp only [Function.update_self, Option.some.injEq] at h
      subst h
      exact ⟨rfl, hid⟩
    · simp only [Function.update_of_ne hne] at h
      exact hs.connectors h
  · exact hs

theorem loadConnector_inserted (db : Db) (locked : Bool) :
    (s.loadConnector db id locked).2.inserted = s.inserted := by
  unfold Session.loadConnector
  split <;> rfl

theorem loadConnector_invocations (db : Db) (locked : Bool) :
    (s.loadConnector db id locked).2.invocations = s.invocations := by
  unfold Session.loadConnector
  split <;> rfl

/-- A row that was read is held, locked if it was read so. -/
theorem loadConnector_held {db : Db} {locked : Bool} {r : ConnectorRecord}
    (h : (s.loadConnector db id locked).1 = some r) :
    (s.loadConnector db id locked).2.connectors id = some (.ofRow r locked) := by
  unfold Session.loadConnector at h ⊢
  split at h
  · rename_i row hrow
    cases h
    simp
  · cases h

theorem Clean.loadInvocation (hs : s.Clean) (row : Option InvocationRecord) :
    (s.loadInvocation row).2.Clean := by
  cases row with
  | none => exact hs
  | some row =>
    simp only [Session.loadInvocation]
    split
    · exact hs
    · refine ⟨hs.pending, hs.flushed, hs.connectors, fun {id'} inst h => ?_⟩
      rcases eq_or_ne id' row.id with rfl | hne
      · simp only [Function.update_self, Option.some.injEq] at h
        subst h
        exact ⟨rfl, rfl⟩
      · simp only [Function.update_of_ne hne] at h
        exact hs.invocations h

theorem loadInvocation_connectors (row : Option InvocationRecord) :
    (s.loadInvocation row).2.connectors = s.connectors := by
  unfold Session.loadInvocation
  split
  · rfl
  · split <;> rfl

theorem loadInvocation_inserted (row : Option InvocationRecord) :
    (s.loadInvocation row).2.inserted = s.inserted := by
  unfold Session.loadInvocation
  split
  · rfl
  · split <;> rfl

/-- A rollback leaves a clean session, whatever was pending. -/
theorem rolledBack_clean
    (hc : ∀ {id inst}, s.connectors id = some inst → inst.loaded.id = id)
    (hv : ∀ {id inst}, s.invocations id = some inst → inst.loaded.id = id) :
    s.rolledBack.Clean where
  pending := rfl
  flushed := rfl
  connectors := by
    intro id inst h
    obtain ⟨inst₀, h₀, rfl⟩ := Option.map_eq_some_iff.mp h
    have hid := hc h₀
    exact ⟨rfl, hid⟩
  invocations := by
    intro id inst h
    obtain ⟨inst₀, h₀, rfl⟩ := Option.map_eq_some_iff.mp h
    have hid := hv h₀
    exact ⟨rfl, hid⟩

theorem Clean.rolledBack (hs : s.Clean) : s.rolledBack.Clean :=
  rolledBack_clean (fun h => (hs.connectors h).2) (fun h => (hs.invocations h).2)

section Settle

variable {current : ConnectorRecord} {currentInvocation : InvocationRecord} {rows : Rows}

/-- After the commit of an assignment to a connector the session is clean again. -/
theorem Clean.committed_writing (hs : s.Clean) (hid : current.id = id)
    (hc : rows.connectors = []) (hv : rows.invocations = []) :
    (s.writing id current rows).committed.Clean where
  pending := rfl
  flushed := rfl
  connectors := by
    intro id' inst h
    simp only [committed, writing, hs.flushed, Rows.append_connectors, hc, List.append_nil,
      List.find?_nil, Option.map_eq_some_iff] at h
    obtain ⟨inst₀, h₀, rfl⟩ := h
    rcases eq_or_ne id' id with rfl | hne
    · rw [Function.update_self] at h₀
      obtain ⟨inst₁, -, rfl⟩ := Option.map_eq_some_iff.mp h₀
      exact ⟨rfl, hid⟩
    · rw [Function.update_of_ne hne] at h₀
      obtain ⟨hcur, hload⟩ := hs.connectors h₀
      exact ⟨rfl, by rw [← hload, ← hcur]; rfl⟩
  invocations := by
    intro id' inst h
    simp only [committed, writing, hs.flushed, Rows.append_invocations, hv, List.append_nil,
      List.find?_nil, Option.map_eq_some_iff] at h
    obtain ⟨inst₀, h₀, rfl⟩ := h
    obtain ⟨hcur, hload⟩ := hs.invocations h₀
    exact ⟨rfl, by rw [← hload, ← hcur]; rfl⟩

/-- A refused commit of an assignment to a connector leaves a clean session. -/
theorem Clean.rolledBack_writing (hs : s.Clean) : (s.writing id current rows).rolledBack.Clean := by
  refine rolledBack_clean (fun {id' inst} h => ?_) fun h => (hs.invocations h).2
  rcases eq_or_ne id' id with rfl | hne
  · simp only [writing, Function.update_self, Option.map_eq_some_iff] at h
    obtain ⟨inst₀, h₀, rfl⟩ := h
    exact (hs.connectors h₀).2
  · simp only [writing, Function.update_of_ne hne] at h
    exact (hs.connectors h).2

/-- After the commit of an assignment to an invocation it holds, the session is clean and holds
    the assigned row. -/
theorem Clean.committed_writingInvocation (hs : s.Clean) {r : InvocationRecord}
    (held : s.HoldsInvocation id r) (hid : currentInvocation.id = id)
    (hc : rows.connectors = []) (hv : rows.invocations = []) :
    (s.writingInvocation id currentInvocation rows).committed.Clean ∧
      (s.writingInvocation id currentInvocation rows).committed.HoldsInvocation id
        currentInvocation ∧
      (s.writingInvocation id currentInvocation rows).committed.inserted = s.inserted := by
  obtain ⟨inst, hinst, hread, -⟩ := held
  refine ⟨⟨rfl, rfl, fun {id' inst'} h => ?_, fun {id' inst'} h => ?_⟩, ?_, ?_⟩
  · simp only [committed, writingInvocation, hs.flushed, Rows.append_connectors, hc,
      List.append_nil, List.find?_nil, Option.map_eq_some_iff] at h
    obtain ⟨inst₀, h₀, rfl⟩ := h
    obtain ⟨hcur, hload⟩ := hs.connectors h₀
    exact ⟨rfl, by rw [← hload, ← hcur]; rfl⟩
  · simp only [committed, writingInvocation, hs.flushed, Rows.append_invocations, hv,
      List.append_nil, List.find?_nil, Option.map_eq_some_iff] at h
    obtain ⟨inst₀, h₀, rfl⟩ := h
    rcases eq_or_ne id' id with rfl | hne
    · rw [Function.update_self] at h₀
      obtain ⟨inst₁, -, rfl⟩ := Option.map_eq_some_iff.mp h₀
      exact ⟨rfl, hid⟩
    · rw [Function.update_of_ne hne] at h₀
      obtain ⟨hcur, hload⟩ := hs.invocations h₀
      exact ⟨rfl, by rw [← hload, ← hcur]; rfl⟩
  · refine ⟨Instance.flushed { inst with current := currentInvocation }, ?_, hread, rfl⟩
    simp [committed, writingInvocation, hs.flushed, hv, hinst]
  · simp [committed, writingInvocation, hs.flushed, hv]

end Settle

/-- The session an accepted invocation is committed from. -/
def accepting (s : Session) (r : InvocationRecord) (e : OutboxEvent) : Session :=
  { s with
    flushed := { invocations := [r] }
    pending := { outbox := [e] } }

/-- After the commit of a new invocation the session is clean, holds it and owns it. -/
theorem Clean.committed_accepting (hs : s.Clean) (r : InvocationRecord) (e : OutboxEvent) :
    (s.accepting r e).committed.Clean ∧
      (s.accepting r e).committed.HoldsInvocation r.id r ∧
      r.id ∈ (s.accepting r e).committed.inserted := by
  refine ⟨⟨rfl, rfl, fun {id' inst'} h => ?_, fun {id' inst'} h => ?_⟩, ?_, ?_⟩
  · simp only [committed, accepting, Rows.append_connectors, List.append_nil, List.find?_nil,
      Option.map_eq_some_iff] at h
    obtain ⟨inst₀, h₀, rfl⟩ := h
    obtain ⟨hcur, hload⟩ := hs.connectors h₀
    exact ⟨rfl, by rw [← hload, ← hcur]; rfl⟩
  · simp only [committed, accepting, Rows.append_invocations, List.append_nil] at h
    by_cases hid : r.id = id'
    · simp only [List.find?_cons, hid, decide_true, Option.some.injEq] at h
      subst h
      exact ⟨rfl, hid⟩
    · simp only [List.find?_cons, hid, decide_false, List.find?_nil, Option.map_eq_some_iff] at h
      obtain ⟨inst₀, h₀, rfl⟩ := h
      obtain ⟨hcur, hload⟩ := hs.invocations h₀
      exact ⟨rfl, by rw [← hload, ← hcur]; rfl⟩
  · exact ⟨.ofRow r, by simp [committed, accepting], rfl, rfl⟩
  · simp [committed, accepting]

end Session

/-! ## The operations, as effects -/

section Effects

variable {s s' : Session} {id : Uuid}

theorem Session.Clean.effect_getConnector (hs : s.Clean) {forUpdate : Bool}
    {b : Option ConnectorRecord} (h : Effect (.getConnector id forUpdate) s b s') :
    s'.Clean ∧ s'.inserted = s.inserted ∧ s'.invocations = s.invocations ∧
      (∀ r, b = some r → s'.Holds id r) ∧ ∀ r, s.Holds id r → b = some r ∧ s' = s := by
  obtain ⟨i, st, hb, hs'⟩ := h
  simp only [perform] at hb hs'
  cases hattrs : s.connectorAttrs id with
  | some current =>
    simp only [hattrs] at hb hs'
    subst hb hs'
    refine ⟨hs, rfl, rfl, fun r hr => ?_, fun r hr => ?_⟩
    · cases hr
      exact hs.attrs_eq.mp hattrs
    · rw [← hs.attrs_eq, hattrs] at hr
      exact ⟨hr, rfl⟩
  | none =>
    simp only [hattrs] at hb hs'
    subst hb hs'
    refine ⟨hs.loadConnector st.db forUpdate, Session.loadConnector_inserted st.db forUpdate,
      Session.loadConnector_invocations st.db forUpdate, fun r hr => ?_, fun r hr => ?_⟩
    · exact ⟨_, Session.loadConnector_held hr, rfl, rfl⟩
    · rw [← hs.attrs_eq, hattrs] at hr
      cases hr

theorem Session.Clean.effect_refreshConnector (hs : s.Clean) {b : Option ConnectorRecord}
    (h : Effect (.refreshConnector id) s b s') :
    s'.Clean ∧ ∀ r, b = some r → s'.connectors id = some (.ofRow r true) := by
  obtain ⟨i, st, hb, hs'⟩ := h
  subst hb hs'
  exact ⟨hs.loadConnector st.db true, fun r hr => Session.loadConnector_held hr⟩

theorem Session.Clean.effect_findExisting (hs : s.Clean) {tenantId key : String}
    {b : Option InvocationRecord} (h : Effect (.findExisting tenantId id key) s b s') :
    s'.Clean ∧ s'.inserted = s.inserted ∧ s'.connectors = s.connectors := by
  obtain ⟨i, st, hb, hs'⟩ := h
  subst hb hs'
  exact ⟨hs.loadInvocation _, Session.loadInvocation_inserted _,
    Session.loadInvocation_connectors _⟩

theorem Session.Clean.effect_setConnector (hs : s.Clean) {r : ConnectorRecord} {b : Unit}
    (h : Effect (.setConnector r) s b s') : s' = s.writing r.id r {} := by
  obtain ⟨i, st, -, rfl⟩ := h
  simp [perform, Session.writing, hs.pending]

theorem Session.Clean.effect_setInvocation (hs : s.Clean) {r : InvocationRecord} {b : Unit}
    (h : Effect (.setInvocation r) s b s') : s' = s.writingInvocation r.id r {} := by
  obtain ⟨i, st, -, rfl⟩ := h
  simp [perform, Session.writingInvocation, hs.pending]

theorem effect_addAudit {a : ConnectorAuditRecord} {b : Unit} (h : Effect (.addAudit a) s b s') :
    s' = { s with pending := s.pending ++ { audit := [a] } } := by
  obtain ⟨i, st, -, rfl⟩ := h
  rfl

theorem effect_enqueue {e : OutboxEvent} {b : Unit} (h : Effect (.enqueue e) s b s') :
    s' = { s with pending := s.pending ++ { outbox := [e] } } := by
  obtain ⟨i, st, -, rfl⟩ := h
  rfl

theorem effect_callAdapter {c : AdapterCall} {b : Unit} (h : Effect (.callAdapter c) s b s') :
    s' = s := by
  obtain ⟨i, st, -, rfl⟩ := h
  rfl

theorem effect_rollback {b : Unit} (h : Effect .rollback s b s') : s' = s.rolledBack := by
  obtain ⟨i, st, -, rfl⟩ := h
  rfl

theorem effect_flush {b : Except DbError Unit} (h : Effect .flush s b s') :
    (b = .ok () ∧ s' = { s with flushed := s.flushed ++ s.pending, pending := {} }) ∨
      ((∃ e, b = .error e) ∧ s' = s.rolledBack) := by
  obtain ⟨i, st, rfl, rfl⟩ := h
  simp only [perform]
  split
  · exact .inl ⟨rfl, rfl⟩
  · exact .inr ⟨⟨_, rfl⟩, rfl⟩

theorem effect_commit {b : Except DbError Unit} (h : Effect .commit s b s') :
    (b = .ok () ∧ s' = s.committed) ∨ ((∃ e, b = .error e) ∧ s' = s.rolledBack) := by
  obtain ⟨i, st, rfl, rfl⟩ := h
  simp only [perform]
  split
  · exact .inl ⟨rfl, rfl⟩
  · exact .inr ⟨⟨_, rfl⟩, rfl⟩

end Effects

/-! ## Rules for the two shapes of a program step -/

section Rules

variable {rq : Incoming} {α β : Type} {s : Session} {Q : Except Exc α → Session → Prop}

theorem obeys_ret {a : α} (h : Q (.ok a) s) :
    (Prog.ret a : Handler α).Obeys (discipline rq) Q s := h

theorem obeys_raise {e : Exc} (h : Q (.error e) s) :
    (Prog.raise e : Handler α).Obeys (discipline rq) Q s := h

theorem obeys_await {o : RegistryOp β} {f : β → Handler α} (hpre : Permits rq o s)
    (h : ∀ b s', Effect o s b s' → (f b).Obeys (discipline rq) Q s') :
    (await o >>= f).Obeys (discipline rq) Q s := ⟨hpre, h⟩

theorem obeys_commit {f : Unit → Handler α} (htx : Tx rq s)
    (hok : (f ()).Obeys (discipline rq) Q s.committed)
    (herr : ∀ e, Q (.error e) s.rolledBack) : (commit >>= f).Obeys (discipline rq) Q s := by
  refine Prog.Obeys.bind (obeys_await htx fun b s' he => ?_)
  rcases effect_commit he with ⟨rfl, rfl⟩ | ⟨⟨e, rfl⟩, rfl⟩
  · exact hok
  · exact herr _

end Rules

/-! ## The shared pieces -/

section Pieces

variable {rq : Incoming} {s : Session}

/-- A connector that was found is held, and is the caller's. -/
theorem tenantConnector_obeys (hs : s.Clean) (connectorId : Uuid) (tenantId : String) :
    (tenantConnector connectorId tenantId).Obeys (discipline rq)
      (fun r s' => s'.Clean ∧ s'.inserted = s.inserted ∧
        ∀ record, r = .ok record → s'.Holds connectorId record ∧ record.tenantId = tenantId) s := by
  refine obeys_await trivial fun b s' he => ?_
  obtain ⟨hs', hins, -, hheld, -⟩ := hs.effect_getConnector he
  cases hb : b.filter (·.tenantId = tenantId) with
  | none => exact obeys_raise ⟨hs', hins, by simp⟩
  | some record =>
    obtain ⟨rfl, ht⟩ := Option.filter_eq_some_iff.mp hb
    refine obeys_ret ⟨hs', hins, fun r hr => ?_⟩
    cases hr
    exact ⟨hheld _ rfl, by simpa using ht⟩

/-- `apply` leaves a clean session however it ends, and commits nothing but the transition asked
    for, found from the row as it was read. -/
theorem apply_obeys {ask : Ask} (hs : s.Clean)
    (hasked : ∀ record, (∀ r, s.Holds ask.connectorId r → record = r) →
      rq.request.asked rq.env record = some ask) :
    (apply rq.env ask.connectorId ask.target ask.event ask.caller.actorId ask.caller.tenantId
      ask.reason ask.idempotencyKey).Obeys (discipline rq) (fun _ s' => s'.Clean) s := by
  refine obeys_await trivial fun b s' he => ?_
  obtain ⟨hs', -, -, hheld, hhit⟩ := hs.effect_getConnector he
  cases hb : b.filter (·.tenantId = ask.caller.tenantId) with
  | none => exact obeys_raise hs'
  | some record =>
    obtain ⟨rfl, ht⟩ := Option.filter_eq_some_iff.mp hb
    have ht : record.tenantId = ask.caller.tenantId := by simpa using ht
    have held := hheld record rfl
    have hid : record.id = ask.connectorId := hs'.holds_id held
    have hask : rq.request.asked rq.env record = some ask :=
      hasked record fun r hr => Option.some.inj (hhit r hr).1
    cases hfind : find record.status.value ask.target.value ask.event with
    | error exc =>
      cases hrep : idempotentRepeat record.status.value ask.target.value with
      | none =>
        simp only [hfind, hrep]
        exact obeys_raise hs'
      | some edge =>
        simp only [hfind, hrep]
        exact obeys_ret hs'
    | ok tr =>
      simp only [hfind]
      by_cases hreason : reasonMissing tr ask.reason = true
      · rw [if_pos hreason]
        exact obeys_raise hs'
      · rw [if_neg hreason]
        refine obeys_await trivial fun _ s₁ h₁ => ?_
        refine obeys_await trivial fun _ s₂ h₂ => ?_
        refine obeys_await trivial fun _ s₃ h₃ => ?_
        obtain rfl := hs'.effect_setConnector h₁
        obtain rfl := effect_addAudit h₂
        obtain rfl := effect_enqueue h₃
        rw [advance_id, hid]
        refine obeys_commit (Tx.transition hs' held ht hask hfind (by simpa using hreason)) ?_ ?_
        · exact hs'.committed_writing (by simpa using hid) rfl rfl
        · exact fun _ => hs'.rolledBack_writing

/-- `transition` adds only the HTTP reading of `apply`'s refusals. -/
theorem transition_obeys (hs : s.Clean) {connectorId : Uuid} {caller : CallerIdentity}
    {target : ConnectorState} {event : Option ConnectorEvent} {body : Option TransitionRequest}
    (hasked : ∀ record, (∀ r, s.Holds connectorId r → record = r) →
      rq.request.asked rq.env record = some (.ofBody caller connectorId target event body)) :
    (transition rq.env connectorId caller target event body).Obeys (discipline rq)
      (fun _ _ => True) s := by
  refine Prog.Obeys.bind (Prog.Obeys.tryCatch ?_)
  refine (@apply_obeys rq s (.ofBody caller connectorId target event body) hs hasked).mono ?_
  intro r s' _
  cases r with
  | ok result => trivial
  | error e => trivial

/-- Looking an adapter up touches nothing. -/
theorem requireAdapter_obeys (kind : ConnectorKind) :
    (requireAdapter kind).Obeys (discipline rq) (fun _ s' => s' = s) s := by
  unfold requireAdapter
  split
  · exact obeys_ret rfl
  · exact obeys_raise rfl

/-- An adapter's verdict touches nothing. -/
theorem validateConfig_obeys (kind : ConnectorKind) (config : Dict String) :
    (validateConfig rq.env kind config).Obeys (discipline rq)
      (fun r s' => s' = s ∧ ∀ report, r = .ok report →
        report = rq.env.validateConfig kind config) s := by
  refine Prog.Obeys.bind ((requireAdapter_obeys kind).mono ?_)
  rintro (e | _) s₁ rfl
  · exact ⟨rfl, by simp⟩
  · refine obeys_await trivial fun _ s₂ he => ?_
    obtain rfl := effect_callAdapter he
    exact obeys_ret ⟨rfl, fun _ h => by cases h; rfl⟩

/-- A rejected verdict is rolled back; either way the session is clean. -/
theorem recordVerdict_obeys (hs : s.Clean) {caller : CallerIdentity} {connectorId : Uuid}
    {record : ConnectorRecord} (held : s.Holds connectorId record)
    (hrq : rq.request = .validateConnector caller connectorId) :
    (recordVerdict rq.env caller connectorId
        (rq.env.validateConfig record.kind record.config)).Obeys (discipline rq)
      (fun _ s' => s'.Clean) s := by
  refine Prog.Obeys.tryCatch (Prog.Obeys.bind ?_)
  refine (@apply_obeys rq s ⟨caller, connectorId, _, _, _, none⟩ hs fun record' h => ?_).mono ?_
  · rw [h record held, hrq]
    rfl
  · intro r s' hs'
    cases r with
    | ok result => exact hs'
    | error e =>
      cases e with
      | transitionRejected =>
        refine ⟨trivial, fun _ s₁ he => ?_⟩
        rw [effect_rollback he]
        exact hs'.rolledBack
      | _ => exact hs'

/-- Validation asks for its transition on the connector it read; its own write is the touch. -/
theorem validateConnector_obeys (hs : s.Clean) {caller : CallerIdentity} {connectorId : Uuid}
    (hrq : rq.request = .validateConnector caller connectorId) :
    (validateConnector rq.env caller connectorId).Obeys (discipline rq) (fun _ _ => True) s := by
  refine Prog.Obeys.bind ((tenantConnector_obeys hs connectorId caller.tenantId).mono ?_)
  rintro (e | record) s₁ ⟨hs₁, -, hrec⟩
  · trivial
  obtain ⟨held, -⟩ := hrec record rfl
  refine Prog.Obeys.bind ((validateConfig_obeys record.kind record.config).mono ?_)
  rintro (e | report) s₂ ⟨rfl, hrep⟩
  · trivial
  obtain rfl := hrep report rfl
  refine Prog.Obeys.bind ((recordVerdict_obeys hs₁ held hrq).mono ?_)
  rintro (e | _) s₃ hs₃
  · trivial
  refine Prog.Obeys.bind ((tenantConnector_obeys hs₃ connectorId caller.tenantId).mono ?_)
  rintro (e | record') s₄ ⟨hs₄, -, hrec'⟩
  · trivial
  obtain ⟨held', -⟩ := hrec' record' rfl
  refine obeys_await trivial fun _ s₅ he => ?_
  obtain rfl := hs₄.effect_setConnector he
  have hid : record'.id = connectorId := hs₄.holds_id held'
  refine obeys_commit ?_ trivial fun _ => trivial
  subst hid
  exact Tx.touch _ hrq hs₄ held'

/-- A creation is flushed before its audit row and event are added. -/
theorem createConnector_obeys {caller : CallerIdentity} {payload : ConnectorCreate}
    (hrq : rq.request = .createConnector caller payload) :
    (createConnector rq.env caller payload).Obeys (discipline rq) (fun _ _ => True)
      Session.fresh := by
  unfold createConnector
  split
  · trivial
  · refine Prog.Obeys.bind ((validateConfig_obeys payload.kind (effectiveConfig payload)).mono ?_)
    rintro (e | report) s₁ ⟨rfl, hrep⟩
    · trivial
    obtain rfl := hrep report rfl
    by_cases hvalid : (rq.env.validateConfig payload.kind (effectiveConfig payload)).valid = true
    · simp only [hvalid, Bool.not_true, Bool.false_eq_true, if_false]
      refine obeys_await trivial fun _ s₂ h₂ => ?_
      obtain ⟨_, _, -, rfl⟩ := h₂
      refine obeys_await trivial fun b s₃ h₃ => ?_
      rcases effect_flush h₃ with ⟨rfl, rfl⟩ | ⟨⟨e, rfl⟩, rfl⟩
      · refine obeys_await trivial fun _ s₄ h₄ => ?_
        refine obeys_await trivial fun _ s₅ h₅ => ?_
        obtain rfl := effect_addAudit h₄
        obtain rfl := effect_enqueue h₅
        exact obeys_commit (Tx.create hrq hvalid) trivial fun _ => trivial
      · cases e with
        | integrity => exact obeys_await trivial fun _ _ _ => trivial
        | data => trivial
    · simp only [hvalid, Bool.not_false, if_true]
      trivial

/-- DELETE commits a row it read again under the lock. -/
theorem requestConnectorDeletion_obeys (hs : s.Clean) {caller : CallerIdentity}
    {connectorId : Uuid} (hrq : rq.request = .requestConnectorDeletion caller connectorId) :
    (requestConnectorDeletion rq.env caller connectorId).Obeys (discipline rq)
      (fun _ _ => True) s := by
  refine Prog.Obeys.bind ((tenantConnector_obeys hs connectorId caller.tenantId).mono ?_)
  rintro (e | record₀) s₁ ⟨hs₁, -, -⟩
  · trivial
  refine obeys_await trivial fun b s₂ h₂ => ?_
  obtain ⟨hs₂, hheld⟩ := hs₁.effect_refreshConnector h₂
  cases b with
  | none => trivial
  | some record =>
    have held := hheld record rfl
    have hid : record.id = connectorId := (hs₂.connectors held).2
    by_cases hdel : record.status = .deleted
    · simp only [hdel, if_true]
      trivial
    · by_cases hreq : record.status = .deletionRequested
      · simp only [hreq, reduceCtorEq, if_true, if_false]
        trivial
      · simp only [hdel, hreq, if_false]
        refine obeys_await trivial fun _ s₃ h₃ => ?_
        refine obeys_await trivial fun _ s₄ h₄ => ?_
        obtain rfl := hs₂.effect_setConnector h₃
        obtain rfl := effect_enqueue h₄
        refine obeys_commit ?_ trivial fun _ => trivial
        subst hid
        exact Tx.delete hrq hs₂ held rfl ⟨hdel, hreq⟩

/-- An invocation that `accept` created is held and owned by the session. -/
theorem accept_obeys (hs : s.Clean) (first : s.inserted = []) {connector : ConnectorRecord}
    {args : AcceptArgs} (held : s.Holds connector.id connector)
    (invoked : rq.request.invoked = some connector.id)
    (args_eq : rq.request.acceptArgs rq.env connector = some args)
    (enabled : connector.status = .enabled) (tenant : args.tenantId = connector.tenantId) :
    (accept rq.env connector args).Obeys (discipline rq)
      (fun r s' => ∀ record, r = .ok (record, none) → s'.Clean ∧
        s'.HoldsInvocation record.id record ∧ record.id ∈ s'.inserted ∧
        record.status = .accepted ∧ record.connectorId = connector.id) s := by
  refine obeys_await trivial fun b s₁ h₁ => ?_
  obtain ⟨hs₁, hins, hconn⟩ := hs.effect_findExisting h₁
  have first₁ : s₁.inserted = [] := hins.trans first
  have held₁ : s₁.Holds connector.id connector := by
    unfold Session.Holds
    rw [hconn]
    exact held
  cases b with
  | some existing => exact obeys_ret fun _ h => by cases h
  | none =>
    refine obeys_await trivial fun _ s₂ h₂ => ?_
    obtain ⟨_, _, -, rfl⟩ := h₂
    refine obeys_await trivial fun b s₃ h₃ => ?_
    rcases effect_flush h₃ with ⟨rfl, rfl⟩ | ⟨⟨e, rfl⟩, rfl⟩
    · refine obeys_await trivial fun _ s₄ h₄ => ?_
      obtain rfl := effect_enqueue h₄
      have htx := Tx.accept invoked args_eq hs₁ first₁ held₁ enabled tenant
      have hpost := hs₁.committed_accepting (newInvocation rq.env connector args)
        (emitted (rq.env.uuid4 1) (newInvocation rq.env connector args) acceptedEvent)
      simp only [perform, hs₁.pending, hs₁.flushed]
      refine obeys_commit htx (obeys_ret fun record h => ?_) (by simp)
      cases h
      exact ⟨hpost.1, hpost.2.1, hpost.2.2, rfl, rfl⟩
    · cases e with
      | data => exact obeys_raise (by simp)
      | integrity =>
        refine obeys_await trivial fun _ s₄ _ => ?_
        refine obeys_await trivial fun b s₅ _ => ?_
        cases b with
        | none => exact obeys_raise (by simp)
        | some existing => exact obeys_ret fun _ h => by cases h

/-- `_finalise` commits the finished row of an invocation the session owns. -/
theorem finalise_obeys (hs : s.Clean) {record : InvocationRecord}
    (held : s.HoldsInvocation record.id record) (own : record.id ∈ s.inserted)
    (inFlight : record.status.inFlight = true) (result : InvocationResult) :
    (finalise rq.env record result).Obeys (discipline rq) (fun _ _ => True) s := by
  refine obeys_await trivial fun _ s₁ h₁ => ?_
  obtain rfl := hs.effect_setInvocation h₁
  cases hevent : terminalEvent result.status with
  | none => exact obeys_raise trivial
  | some event =>
    refine obeys_await trivial fun _ s₂ h₂ => ?_
    obtain rfl := effect_enqueue h₂
    exact obeys_commit (Tx.finish hs held own inFlight hevent) trivial fun _ => trivial

/-- `execute` commits the started row, calls the adapter for it, and finalises. -/
theorem execute_obeys (hs : s.Clean) {connector : ConnectorRecord} {record : InvocationRecord}
    (held : s.HoldsInvocation record.id record) (own : record.id ∈ s.inserted)
    (accepted : record.status = .accepted) (hconn : record.connectorId = connector.id)
    (payload : Dict String) :
    (execute rq.env connector record payload).Obeys (discipline rq) (fun _ _ => True) s := by
  unfold execute
  split
  · exact finalise_obeys hs held own (by rw [accepted]; rfl) _
  · refine obeys_await trivial fun _ s₁ h₁ => ?_
    refine obeys_await trivial fun _ s₂ h₂ => ?_
    obtain rfl := hs.effect_setInvocation h₁
    obtain rfl := effect_enqueue h₂
    refine obeys_commit (Tx.start hs held own accepted) ?_ fun _ => trivial
    obtain ⟨hs₃, held₃, hins₃⟩ : _ ∧ _ ∧ (s.writingInvocation record.id (started rq.env record)
        { outbox := [emitted (rq.env.uuid4 2) (started rq.env record) startedEvent] }
        ).committed.inserted = s.inserted :=
      hs.committed_writingInvocation held rfl rfl rfl
    rw [← hins₃] at own
    refine obeys_await ?_ fun _ s₄ h₄ => ?_
    · exact ⟨started rq.env record, held₃, own, rfl, rfl, rfl, hconn, rfl⟩
    · obtain rfl := effect_callAdapter h₄
      exact @finalise_obeys rq _ hs₃ (started rq.env record) held₃ own rfl _

/-- The guard lets only an ENABLED connector through. -/
theorem requireExecutable_obeys (record : ConnectorRecord) :
    (requireExecutable record).Obeys (discipline rq)
      (fun r s' => s' = s ∧ (r = .ok () → record.status = .enabled)) s := by
  unfold requireExecutable checkExecutable
  split
  · rename_i h
    exact obeys_ret ⟨rfl, fun _ => by simpa using h⟩
  · exact obeys_raise ⟨rfl, by simp⟩

theorem invokeConnectorV1_obeys {caller : CallerIdentity} {connectorId : Uuid}
    {payload : InvocationCreate} {xRequestId traceparent : Option String}
    (hrq : rq.request = .invokeConnectorV1 caller connectorId payload xRequestId traceparent) :
    (invokeConnectorV1 rq.env caller connectorId payload xRequestId traceparent).Obeys
      (discipline rq) (fun _ _ => True) Session.fresh := by
  refine Prog.Obeys.bind
    ((tenantConnector_obeys Session.fresh_clean connectorId caller.tenantId).mono ?_)
  rintro (e | record) s₁ ⟨hs₁, hins, hrec⟩
  · trivial
  obtain ⟨held, htenant⟩ := hrec record rfl
  obtain rfl := hs₁.holds_id held
  refine Prog.Obeys.bind ((requireExecutable_obeys record).mono ?_)
  rintro (e | _) s₂ ⟨rfl, hen⟩
  · trivial
  refine Prog.Obeys.bind ((accept_obeys hs₁ hins held (by rw [hrq]; rfl) (by rw [hrq]; rfl)
    (hen rfl) htenant.symm).mono ?_)
  rintro (e | ⟨invocation, replay⟩) s₃ hacc
  · trivial
  cases replay with
  | some existing => trivial
  | none =>
    obtain ⟨hs₃, held₃, own, haccepted, hconn⟩ := hacc invocation rfl
    refine Prog.Obeys.bind ((execute_obeys hs₃ held₃ own haccepted hconn _).mono ?_)
    rintro (e | _) s₄ -
    · trivial
    · trivial

/-- The token check touches nothing. -/
theorem requireInternalCaller_obeys (token : String) :
    (requireInternalCaller rq.env token).Obeys (discipline rq) (fun _ s' => s' = s) s := by
  unfold requireInternalCaller
  split
  · exact obeys_raise rfl
  · split
    · exact obeys_raise rfl
    · exact obeys_ret rfl
    · exact obeys_raise rfl

theorem internalReply_obeys (connectorId : Uuid) (invocation : InvocationRecord) (s : Session) :
    (internalReply connectorId invocation).Obeys (discipline rq) (fun _ _ => True) s := by
  refine obeys_await trivial fun b s' _ => ?_
  cases b with
  | none => exact obeys_raise trivial
  | some record => exact obeys_ret trivial

theorem invokeConnectorInternal_obeys {token tenantId : String} {connectorId : Uuid}
    {payload : Dict String}
    (hrq : rq.request = .invokeConnectorInternal token tenantId connectorId payload) :
    (invokeConnectorInternal rq.env token tenantId connectorId payload).Obeys (discipline rq)
      (fun _ _ => True) Session.fresh := by
  refine Prog.Obeys.bind ((requireInternalCaller_obeys token).mono ?_)
  rintro (e | _) s₀ rfl
  · trivial
  by_cases htenant : tenantId = ""
  · simp only [htenant, if_true]
    exact obeys_raise trivial
  simp only [htenant, if_false]
  refine Prog.Obeys.bind ((tenantConnector_obeys Session.fresh_clean connectorId tenantId).mono ?_)
  rintro (e | record) s₁ ⟨hs₁, hins, hrec⟩
  · trivial
  obtain ⟨held, hrecord⟩ := hrec record rfl
  obtain rfl := hs₁.holds_id held
  refine Prog.Obeys.bind ((requireExecutable_obeys record).mono ?_)
  rintro (e | _) s₂ ⟨rfl, hen⟩
  · trivial
  cases hinput : agentInput payload with
  | none => exact obeys_raise trivial
  | some body =>
    have hargs : rq.request.acceptArgs rq.env record =
        some (internalArgs rq.env tenantId payload body record) := by
      rw [hrq, Request.acceptArgs, hinput]
      rfl
    refine Prog.Obeys.bind ((accept_obeys hs₁ hins held (by rw [hrq]; rfl) hargs (hen rfl)
      hrecord.symm).mono ?_)
    rintro (e | ⟨invocation, replay⟩) s₃ hacc
    · trivial
    cases replay with
    | some existing => exact internalReply_obeys record.id invocation s₃
    | none =>
      obtain ⟨hs₃, held₃, own, haccepted, hconn⟩ := hacc invocation rfl
      refine Prog.Obeys.bind ((execute_obeys hs₃ held₃ own haccepted hconn _).mono ?_)
      rintro (e | invocation') s₄ -
      · trivial
      · exact internalReply_obeys record.id invocation' s₄

end Pieces

/-! ## The routing table -/

/-- Every endpoint obeys the discipline of its request. -/
theorem handler_obeys (rq : Incoming) :
    (handler rq.env rq.request).Obeys (discipline rq) (fun _ _ => True) Session.fresh := by
  have hs := Session.fresh_clean
  cases hrq : rq.request with
  | listConnectors caller includeDeleted =>
    exact obeys_await trivial fun _ _ _ => obeys_ret trivial
  | getConnector caller connectorId =>
    refine Prog.Obeys.bind ((tenantConnector_obeys hs connectorId caller.tenantId).mono ?_)
    rintro (e | record) s₁ -
    · trivial
    · trivial
  | createConnector caller payload => exact createConnector_obeys hrq
  | validateConnector caller connectorId => exact validateConnector_obeys hs hrq
  | connectorHealth caller connectorId =>
    refine Prog.Obeys.bind ((tenantConnector_obeys hs connectorId caller.tenantId).mono ?_)
    rintro (e | record) s₁ -
    · trivial
    refine Prog.Obeys.bind ((requireAdapter_obeys record.kind).mono ?_)
    rintro (e | _) s₂ -
    · trivial
    · exact obeys_await trivial fun _ _ _ => obeys_ret trivial
  | requestConnectorDeletion caller connectorId => exact requestConnectorDeletion_obeys hs hrq
  | installConnector caller connectorId body =>
    exact transition_obeys hs fun _ _ => by rw [hrq]; rfl
  | configureConnector caller connectorId body =>
    exact transition_obeys hs fun _ _ => by rw [hrq]; rfl
  | enableConnector caller connectorId body =>
    exact transition_obeys hs fun _ _ => by rw [hrq]; rfl
  | disableConnector caller connectorId body =>
    exact transition_obeys hs fun _ _ => by rw [hrq]; rfl
  | rotateConnectorCredentials caller connectorId body =>
    refine Prog.Obeys.bind ((tenantConnector_obeys hs connectorId caller.tenantId).mono ?_)
    rintro (e | record) s₁ ⟨hs₁, -, hrec⟩
    · trivial
    obtain ⟨held, -⟩ := hrec record rfl
    exact transition_obeys hs₁ fun record' h => by rw [h record held, hrq]; rfl
  | revokeConnector caller connectorId body =>
    exact transition_obeys hs fun _ _ => by rw [hrq]; rfl
  | archiveConnector caller connectorId body =>
    exact transition_obeys hs fun _ _ => by rw [hrq]; rfl
  | connectorAudit caller connectorId =>
    refine Prog.Obeys.bind ((tenantConnector_obeys hs connectorId caller.tenantId).mono ?_)
    rintro (e | record) s₁ -
    · trivial
    · exact obeys_await trivial fun _ _ _ => obeys_ret trivial
  | invokeConnectorV1 caller connectorId payload xRequestId traceparent =>
    exact invokeConnectorV1_obeys hrq
  | listInvocations caller connectorId statusFilter limit before =>
    exact obeys_await trivial fun _ _ _ => obeys_ret trivial
  | getInvocation caller invocationId =>
    refine obeys_await trivial fun b s' _ => ?_
    cases hb : b.filter (·.tenantId = caller.tenantId) with
    | none => exact obeys_raise trivial
    | some record => exact obeys_ret trivial
  | invokeConnectorInternal token tenantId connectorId payload =>
    exact invokeConnectorInternal_obeys hrq

/-- So does the program that serves it. -/
theorem Incoming.program_obeys (rq : Incoming) :
    rq.program.Obeys (discipline rq) (fun _ _ => True) Session.fresh := by
  refine Prog.Obeys.tryCatch (Prog.Obeys.finallyDo ((handler_obeys rq).mono ?_))
  intro r s _
  refine ⟨trivial, fun s' _ => ?_⟩
  cases r with
  | ok response => trivial
  | error e => trivial

end FavlGateway.Registry
