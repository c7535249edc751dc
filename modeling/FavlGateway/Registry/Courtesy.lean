/-
  What a request awaits while it holds a lock.

  A request takes row locks on connectors (`with_for_update`) and, by an INSERT that is not
  committed yet, index values.  `Held` is what one request holds; nobody else's operation changes it
  (`heldBy_relock_of_ne`), so a handler can be followed with its session and what it holds
  (`program_courteous`): whatever it awaits while it holds something waits for nobody
  (`Unhindered`), it is no call that leaves the service, and at the end it holds nothing.
-/
import FavlGateway.Registry.Inserts
import FavlGateway.Registry.InvocationLog

namespace FavlGateway.Registry

open FavlGateway.Library

/-! ## What a request holds -/

/-- The rows a request has locked, and whether it holds index values. -/
@[ext]
structure Held where
  rows : Uuid → Prop
  keys : Prop

namespace Held

/-- Nothing. -/
def nothing : Held := ⟨fun _ => False, False⟩

/-- Something is held. -/
def Some (h : Held) : Prop := (∃ c, h.rows c) ∨ h.keys

theorem nothing_some : ¬ nothing.Some := by
  rintro (⟨c, h⟩ | h) <;> exact h

/-- What is held after an operation that answered `b`. -/
def after (h : Held) : {β : Type} → RegistryOp β → β → Session → Held
  | _, .getConnector id true, some _, _ => { h with rows := fun c => c = id ∨ h.rows c }
  | _, .refreshConnector id, some _, _ => { h with rows := fun c => c = id ∨ h.rows c }
  | _, .flush, .ok _, s => { h with keys := h.keys ∨ s.pending.keys ≠ [] }
  | _, .flush, .error _, _ => nothing
  | _, .commit, _, _ => nothing
  | _, .rollback, _, _ => nothing
  | _, .close, _, _ => nothing
  | _, _, _, _ => h

end Held

/-- What request `i` holds in the world. -/
def heldBy (i : Nat) (w : World) : Held :=
  ⟨fun c => w.rowLock c = some i, ∃ k, w.keyLock k = some i⟩

section World

variable {i j : Nat} {w : World}

theorem heldBy_release : heldBy i (w.release i) = Held.nothing := by
  simp [heldBy, World.release, Held.nothing]

theorem heldBy_release_of_ne (hne : j ≠ i) : heldBy j (w.release i) = heldBy j w := by
  simp only [heldBy, World.release, release_eq_some, ne_eq, hne, not_false_eq_true, true_and]

theorem heldBy_lock {c : Uuid} :
    heldBy i { w with rowLock := Function.update w.rowLock c (some i) } =
      { heldBy i w with rows := fun c' => c' = c ∨ (heldBy i w).rows c' } := by
  ext1
  · funext c'
    rcases eq_or_ne c' c with rfl | hne
    · simp [heldBy]
    · simp [heldBy, hne]
  · rfl

theorem heldBy_lock_of_ne {c : Uuid} (hne : j ≠ i) (hfree : heldByOther i (w.rowLock c) = false) :
    heldBy j { w with rowLock := Function.update w.rowLock c (some i) } = heldBy j w := by
  ext1
  · funext c'
    rcases eq_or_ne c' c with rfl | hc
    · have hown : w.rowLock c' ≠ some j := by
        intro hj
        rw [hj] at hfree
        simp [heldByOther, hne] at hfree
      simp [heldBy, hown, hne.symm]
    · simp [heldBy, hc]
  · rfl

/-- What an operation makes of what its request holds. -/
theorem heldBy_relock {β : Type} (o : RegistryOp β) (b : β) (s : Session) (st : Store) :
    heldBy i (World.relock i { w with toStore := st } o b s) = (heldBy i w).after o b s := by
  cases o with
  | getConnector id forUpdate =>
    cases forUpdate with
    | false => rfl
    | true => cases b with
      | none => rfl
      | some r => exact heldBy_lock
  | refreshConnector id => cases b with
    | none => rfl
    | some r => exact heldBy_lock
  | flush => cases b with
    | error e => exact heldBy_release
    | ok u =>
      ext1
      · rfl
      · simp only [World.relock, heldBy, Held.after, eq_iff_iff]
        constructor
        · rintro ⟨k, hk⟩
          split at hk
          · rename_i hmem
            exact .inr (List.ne_nil_of_mem hmem)
          · exact .inl ⟨k, hk⟩
        · rintro (⟨k, hk⟩ | hne)
          · refine ⟨k, ?_⟩
            split
            · rfl
            · exact hk
          · obtain ⟨k, hk⟩ := List.exists_mem_of_ne_nil _ hne
            exact ⟨k, if_pos hk⟩
  | commit => exact heldBy_release
  | rollback => exact heldBy_release
  | close => exact heldBy_release
  | _ => rfl

/-- An operation that was not blocked leaves what the others hold as it is. -/
theorem heldBy_relock_of_ne (hne : j ≠ i) {β : Type} {o : RegistryOp β} {s : Session}
    (hfree : blocked i o s w = false) (b : β) (st : Store) :
    heldBy j (World.relock i { w with toStore := st } o b s) = heldBy j w := by
  cases o with
  | getConnector id forUpdate =>
    cases forUpdate with
    | false => rfl
    | true => cases b with
      | none => rfl
      | some r => exact heldBy_lock_of_ne hne hfree
  | refreshConnector id => cases b with
    | none => rfl
    | some r => exact heldBy_lock_of_ne hne hfree
  | flush => cases b with
    | error e => exact heldBy_release_of_ne hne
    | ok u =>
      ext1
      · rfl
      · simp only [World.relock, heldBy, eq_iff_iff]
        refine exists_congr fun k => ?_
        split
        · rename_i hmem
          simp only [blocked, List.any_eq_false] at hfree
          have hk := hfree k hmem
          constructor
          · intro h
            exact absurd (Option.some.inj h).symm hne
          · intro h
            rw [h] at hk
            simp [heldByOther, hne] at hk
        · exact Iff.rfl
  | commit => exact heldBy_release_of_ne hne
  | rollback => exact heldBy_release_of_ne hne
  | close => exact heldBy_release_of_ne hne
  | _ => rfl

end World

/-! ## What a request may await while it holds something -/

/-- The value is one of `uq_connector_audit_version`. -/
def RowKey.isAudit : RowKey → Bool
  | .auditVersion _ _ => true
  | _ => false

/-- Every connector the session has changes for is locked by its request. -/
def Session.DirtyLocked (s : Session) (h : Held) : Prop :=
  ∀ c inst, s.connectors c = some inst → inst.dirty = true → h.rows c

/-- The operation waits for nobody, and does not leave the service: it locks what is locked already,
    inserts no index values but versions of the audit trail, and updates and refers to locked
    rows. -/
def Unhindered (h : Held) : {β : Type} → RegistryOp β → Session → Prop
  | _, .getConnector id true, _ => h.rows id
  | _, .refreshConnector id, _ => h.rows id
  | _, .flush, _ => False
  | _, .commit, s => (∀ k ∈ s.pending.keys, k.isAudit = true) ∧ s.DirtyLocked h ∧
      ∀ c ∈ s.references, h.rows c
  | _, .callAdapter _, _ => False
  | _, _, _ => True

/-- The value is that of a primary key. -/
def RowKey.isPrimary : RowKey → Bool
  | .connectorId _ => true
  | .invocationId _ => true
  | _ => false

/-- What was added is one row: it has a primary key and a value of one more unique index, which is
    not that of the audit trail. -/
def Session.AddsOne (s : Session) : Prop :=
  ∃ key value, s.pending.keys = [key, value] ∧ key.isPrimary = true ∧ value.isPrimary = false ∧
    value.isAudit = false

/-- What was added has no index values, and refers to no connector. -/
structure Session.Plain (s : Session) : Prop where
  keys : s.pending.keys = []
  references : s.pending.references = []

/-- A flush inserts one row, and a commit only if the request holds something. -/
def Modest (h : Held) : {β : Type} → RegistryOp β → Session → Prop
  | _, .flush, s => s.AddsOne
  | _, .commit, s => h.Some ∨ s.Plain
  | _, _, _ => True

/-- A request that waits for nobody while it holds something. -/
def courteous : Discipline RegistryOp (Session × Held) where
  pre o x := (x.2.Some → Unhindered x.2 o x.1) ∧ Modest x.2 o x.1
  eff o x b x' := Effect o x.1 b x'.1 ∧ x'.2 = x.2.after o b x.1

section Rules

variable {α β : Type} {s : Session} {h : Held} {Q : Except Exc α → Session × Held → Prop}

theorem courteous_await {o : RegistryOp β} {f : β → Handler α}
    (hpre : h.Some → Unhindered h o s) (hmodest : Modest h o s)
    (hrest : ∀ b s', Effect o s b s' → (f b).Obeys courteous Q (s', h.after o b s)) :
    (await o >>= f).Obeys courteous Q (s, h) := by
  refine ⟨⟨hpre, hmodest⟩, ?_⟩
  rintro b ⟨s', h'⟩ ⟨heff, rfl⟩
  exact hrest b s' heff

/-- Who holds nothing may await anything modest. -/
theorem courteous_idle {o : RegistryOp β} {f : β → Handler α} (hmodest : Modest Held.nothing o s)
    (hrest : ∀ b s', Effect o s b s' → (f b).Obeys courteous Q (s', Held.nothing.after o b s)) :
    (await o >>= f).Obeys courteous Q (s, Held.nothing) :=
  courteous_await (fun hsome => absurd hsome Held.nothing_some) hmodest hrest

/-- A commit ends what is held, whether it goes through or not. -/
theorem courteous_commit {f : Unit → Handler α} (hpre : h.Some → Unhindered h .commit s)
    (hmodest : Modest h .commit s)
    (hok : (f ()).Obeys courteous Q (s.committed, Held.nothing))
    (herr : ∀ e, Q (.error e) (s.rolledBack, Held.nothing)) :
    (commit >>= f).Obeys courteous Q (s, h) := by
  refine Prog.Obeys.bind (courteous_await hpre hmodest fun b s' he => ?_)
  rcases effect_commit he with ⟨rfl, rfl⟩ | ⟨⟨e, rfl⟩, rfl⟩
  · exact hok
  · exact herr _

end Rules

/-! ## What is added -/

/-- The operation adds rows with index values. -/
def RegistryOp.adds : {β : Type} → RegistryOp β → Bool
  | _, .addConnector _ => true
  | _, .addAudit _ => true
  | _, .addInvocation _ => true
  | _, _ => false

namespace Session

variable {s s' : Session}

theorem Clean.plain (hs : s.Clean) : s.Plain := by
  constructor
  · rw [hs.pending]
    rfl
  · rw [hs.pending]
    rfl

theorem loadInvocation_pending (row : Option InvocationRecord) :
    (s.loadInvocation row).2.pending = s.pending := by
  cases row with
  | none => rfl
  | some row =>
    simp only [loadInvocation]
    split <;> rfl

/-- What operations make of the added rows. -/
theorem pending_of_effect {β : Type} {o : RegistryOp β} (ho : o.adds = false) {b : β}
    (h : Effect o s b s') : s'.pending = s.pending ∨ s'.pending = {} ∨
      ∃ e, s'.pending = s.pending ++ { outbox := [e] } := by
  obtain ⟨i, st, -, rfl⟩ := h
  cases o with
  | addConnector r => cases ho
  | addAudit a => cases ho
  | addInvocation r => cases ho
  | enqueue e => exact .inr (.inr ⟨e, rfl⟩)
  | getConnector id forUpdate =>
    simp only [perform]
    split
    · exact .inl rfl
    · unfold loadConnector
      split <;> exact .inl rfl
  | refreshConnector id =>
    simp only [perform]
    unfold loadConnector
    split <;> exact .inl rfl
  | getInvocation id => exact .inl (loadInvocation_pending _)
  | findExisting tenantId connectorId key => exact .inl (loadInvocation_pending _)
  | flush =>
    simp only [perform]
    split <;> exact .inr (.inl rfl)
  | commit =>
    simp only [perform]
    split <;> exact .inr (.inl rfl)
  | rollback => exact .inr (.inl rfl)
  | close => exact .inr (.inl rfl)
  | _ => exact .inl rfl

theorem Plain.effect (hs : s.Plain) {β : Type} {o : RegistryOp β} (ho : o.adds = false) {b : β}
    (h : Effect o s b s') : s'.Plain := by
  rcases pending_of_effect ho h with heq | heq | ⟨e, heq⟩
  · exact ⟨heq ▸ hs.keys, heq ▸ hs.references⟩
  · exact ⟨by rw [heq]; rfl, by rw [heq]; rfl⟩
  · refine ⟨?_, ?_⟩
    · rw [heq, ← hs.keys]
      simp [Rows.keys]
    · rw [heq, ← hs.references]
      simp [Rows.references]

end Session

/-! ## The handlers -/

/-- No index value is held, and no row but this connector's. -/
structure Held.OnlyRow (h : Held) (c : Uuid) : Prop where
  rows : ∀ c', h.rows c' → c' = c
  keys : ¬ h.keys

theorem Held.nothing_onlyRow (c : Uuid) : Held.nothing.OnlyRow c := ⟨fun _ h => h.elim, id⟩

theorem Held.OnlyRow.locked {h : Held} {c : Uuid} (hrow : h.OnlyRow c) (hsome : h.Some) :
    h.rows c := by
  rcases hsome with ⟨c', hc'⟩ | hkeys
  · rwa [← hrow.rows c' hc']
  · exact absurd hkeys hrow.keys

namespace Session

variable {s : Session} {h : Held} {id : Uuid}

theorem Clean.dirtyLocked (hs : s.Clean) : s.DirtyLocked h := by
  intro c inst hinst hdirty
  simp [Instance.dirty, (hs.connectors hinst).1] at hdirty

/-- Only the connector that was assigned to can have changes. -/
theorem Clean.dirtyLocked_writing (hs : s.Clean) {current : ConnectorRecord} {rows : Rows}
    (hrow : h.rows id) : (s.writing id current rows).DirtyLocked h := by
  intro c inst hinst hdirty
  rcases eq_or_ne c id with rfl | hne
  · exact hrow
  · simp only [writing, Function.update_of_ne hne] at hinst
    exact hs.dirtyLocked c inst hinst hdirty

end Session

section Pieces

variable {s : Session} {h : Held} {env : Env}

theorem tenantConnector_courteous (hs : s.Clean) (connectorId : Uuid) (tenantId : String) :
    (tenantConnector connectorId tenantId).Obeys courteous (fun r x => x.1.Clean ∧ x.2 = h ∧
      ∀ record, r = .ok record → x.1.Holds connectorId record) (s, h) := by
  refine courteous_await (fun _ => trivial) trivial fun b s' he => ?_
  obtain ⟨hs', -, -, hheld, -⟩ := hs.effect_getConnector he
  cases hb : b.filter (·.tenantId = tenantId) with
  | none => exact ⟨hs', rfl, by simp⟩
  | some record =>
    obtain ⟨rfl, -⟩ := Option.filter_eq_some_iff.mp hb
    refine ⟨hs', rfl, fun r hr => ?_⟩
    cases hr
    exact hheld _ rfl

/-- `apply` locks the one row, and inserts nothing but a version of its audit trail. -/
theorem apply_courteous (hs : s.Clean) (connectorId : Uuid) (target : ConnectorState)
    (event : Option ConnectorEvent) (actorId tenantId : String)
    (reason idempotencyKey : Option String) :
    (apply env connectorId target event actorId tenantId reason idempotencyKey).Obeys courteous
      (fun _ x => x.1.Clean ∧ x.2.OnlyRow connectorId) (s, Held.nothing) := by
  refine courteous_idle trivial fun b s' he => ?_
  obtain ⟨hs', -, -, hheld, -⟩ := hs.effect_getConnector he
  cases b with
  | none => exact ⟨hs', Held.nothing_onlyRow connectorId⟩
  | some record =>
    have hrow : (Held.nothing.after (.getConnector connectorId true) (some record) s).OnlyRow
        connectorId := ⟨fun c hc => hc.resolve_right id, id⟩
    have hlocked : (Held.nothing.after (.getConnector connectorId true) (some record) s).rows
        connectorId := .inl rfl
    generalize Held.nothing.after (.getConnector connectorId true) (some record) s = h
      at hrow hlocked
    by_cases ht : record.tenantId = tenantId
    swap
    · simp only [Option.filter_some, ht, decide_false, Bool.false_eq_true, if_false]
      exact ⟨hs', hrow⟩
    simp only [Option.filter_some, ht, decide_true, if_true]
    have hid : record.id = connectorId := hs'.holds_id (hheld record rfl)
    cases hfind : find record.status.value target.value event with
    | error exc =>
      cases hrep : idempotentRepeat record.status.value target.value with
      | none => exact ⟨hs', hrow⟩
      | some edge => exact ⟨hs', hrow⟩
    | ok tr =>
      by_cases hreason : reasonMissing tr reason = true
      · simp only [if_pos hreason]
        exact ⟨hs', hrow⟩
      · simp only [if_neg hreason]
        refine courteous_await (fun _ => trivial) trivial fun _ s₁ h₁ => ?_
        refine courteous_await (fun _ => trivial) trivial fun _ s₂ h₂ => ?_
        refine courteous_await (fun _ => trivial) trivial fun _ s₃ h₃ => ?_
        obtain rfl := hs'.effect_setConnector h₁
        obtain rfl := effect_addAudit h₂
        obtain rfl := effect_enqueue h₃
        rw [advance_id, hid]
        refine courteous_commit (fun _ => ⟨fun k hk => ?_, ?_, fun c hc => ?_⟩)
          (.inl (.inl ⟨connectorId, hlocked⟩)) ?_ fun e => ?_
        · simp only [Session.writing, Rows.keys, Rows.append_connectors, Rows.append_audit,
            Rows.append_invocations, List.append_nil, List.nil_append, List.flatMap_nil,
            List.map_cons, List.map_nil, List.mem_singleton] at hk
          subst hk
          rfl
        · exact hs'.dirtyLocked_writing hlocked
        · simp only [Session.references, Rows.references, Session.writing, Rows.append_audit,
            Rows.append_invocations, List.append_nil, List.nil_append, List.map_cons, List.map_nil,
            List.mem_filter, List.mem_singleton] at hc
          rw [hc.1]
          exact hid.symm ▸ hlocked
        · exact ⟨hs'.committed_writing (by simpa using hid) rfl rfl,
            Held.nothing_onlyRow connectorId⟩
        · exact ⟨hs'.rolledBack_writing, Held.nothing_onlyRow connectorId⟩

theorem transition_courteous (hs : s.Clean) (connectorId : Uuid) (caller : CallerIdentity)
    (target : ConnectorState) (event : Option ConnectorEvent) (body : Option TransitionRequest) :
    (transition env connectorId caller target event body).Obeys courteous (fun _ _ => True)
      (s, Held.nothing) := by
  refine Prog.Obeys.bind (Prog.Obeys.tryCatch ?_)
  refine (apply_courteous hs connectorId target event _ _ _ _).mono ?_
  intro r x _
  cases r with
  | ok result => trivial
  | error e => trivial

theorem requireAdapter_courteous (kind : ConnectorKind) :
    (requireAdapter kind).Obeys courteous (fun _ x => x = (s, h)) (s, h) := by
  unfold requireAdapter
  split
  · rfl
  · rfl

theorem validateConfig_courteous (kind : ConnectorKind) (config : Dict String) :
    (validateConfig env kind config).Obeys courteous
      (fun _ x => x = (s, Held.nothing)) (s, Held.nothing) := by
  refine Prog.Obeys.bind ((requireAdapter_courteous kind).mono ?_)
  rintro (e | _) x rfl
  · rfl
  · refine courteous_idle trivial fun _ s' he => ?_
    obtain rfl := effect_callAdapter he
    rfl

theorem recordVerdict_courteous (hs : s.Clean) (caller : CallerIdentity) (connectorId : Uuid)
    (report : ValidationResult) :
    (recordVerdict env caller connectorId report).Obeys courteous
      (fun _ x => x.1.Clean ∧ x.2.OnlyRow connectorId) (s, Held.nothing) := by
  refine Prog.Obeys.tryCatch (Prog.Obeys.bind ?_)
  refine (apply_courteous hs connectorId _ _ _ _ _ _).mono ?_
  rintro r ⟨s', h'⟩ ⟨hs', hrow⟩
  cases r with
  | ok result => exact ⟨hs', hrow⟩
  | error e =>
    cases e with
    | transitionRejected =>
      refine courteous_await (fun _ => trivial) trivial fun _ s₁ he => ?_
      rw [effect_rollback he]
      exact ⟨hs'.rolledBack, Held.nothing_onlyRow connectorId⟩
    | _ => exact ⟨hs', hrow⟩

/-- Validation may still hold the row when it commits its touch: then it is the row it touches. -/
theorem validateConnector_courteous (hs : s.Clean) (caller : CallerIdentity) (connectorId : Uuid) :
    (validateConnector env caller connectorId).Obeys courteous (fun _ _ => True)
      (s, Held.nothing) := by
  refine Prog.Obeys.bind ((tenantConnector_courteous hs connectorId caller.tenantId).mono ?_)
  rintro (e | record) ⟨s₁, h₁⟩ ⟨hs₁, rfl, -⟩
  · trivial
  refine Prog.Obeys.bind ((validateConfig_courteous record.kind record.config).mono ?_)
  rintro (e | report) ⟨s₂, h₂⟩ heq
  · trivial
  cases heq
  refine Prog.Obeys.bind ((recordVerdict_courteous hs₁ caller connectorId report).mono ?_)
  rintro (e | _) ⟨s₃, h₃⟩ ⟨hs₃, hrow⟩
  · trivial
  refine Prog.Obeys.bind ((tenantConnector_courteous hs₃ connectorId caller.tenantId).mono ?_)
  rintro (e | record') ⟨s₄, h₄⟩ ⟨hs₄, rfl, hrec⟩
  · trivial
  have hid : record'.id = connectorId := hs₄.holds_id (hrec record' rfl)
  refine courteous_await (fun _ => trivial) trivial fun _ s₅ he => ?_
  obtain rfl := hs₄.effect_setConnector he
  refine courteous_commit (fun hsome => ⟨by simp [Session.writing, Rows.keys], ?_,
    by simp [Session.references, Rows.references, Session.writing]⟩) (.inr ?_) trivial
    fun _ => trivial
  swap
  · exact hs₄.plain.effect (o := .setConnector (withCapability record' report)) rfl he
  refine hs₄.dirtyLocked_writing ?_
  show h₄.rows record'.id
  rw [hid]
  exact hrow.locked hsome

/-- A creation has changes to no connector, and its index values are those of connectors. -/
theorem createConnector_courteous (caller : CallerIdentity) (payload : ConnectorCreate) :
    (createConnector env caller payload).Obeys courteous (fun _ _ => True)
      (Session.fresh, Held.nothing) := by
  unfold createConnector
  split
  · trivial
  · refine Prog.Obeys.bind
      ((validateConfig_courteous payload.kind (effectiveConfig payload)).mono ?_)
    rintro (e | report) ⟨s₁, h₁⟩ heq
    · trivial
    cases heq
    cases hvalid : report.valid with
    | false =>
      simp only [hvalid, Bool.not_false, if_true]
      trivial
    | true =>
      simp only [hvalid, Bool.not_true, Bool.false_eq_true, if_false]
      refine courteous_idle trivial fun _ s₂ h₂ => ?_
      obtain ⟨_, _, -, rfl⟩ := h₂
      refine courteous_idle ⟨_, _, rfl, rfl, rfl, rfl⟩ fun b s₃ h₃ => ?_
      rcases effect_flush h₃ with ⟨rfl, rfl⟩ | ⟨⟨e, rfl⟩, rfl⟩
      · refine courteous_await (fun _ => trivial) trivial fun _ s₄ h₄ => ?_
        refine courteous_await (fun _ => trivial) trivial fun _ s₅ h₅ => ?_
        obtain rfl := effect_addAudit h₄
        obtain rfl := effect_enqueue h₅
        refine courteous_commit (fun _ => ⟨fun k hk => ?_, ?_, ?_⟩) (.inl (.inr (.inr ?_))) trivial
          fun _ => trivial
        · simp only [Rows.empty_append, Rows.keys, Rows.append_connectors, Rows.append_audit,
            Rows.append_invocations, List.append_nil, List.nil_append, List.flatMap_nil,
            List.map_cons, List.map_nil, List.mem_singleton] at hk
          subst hk
          rfl
        · exact Session.fresh_clean.dirtyLocked
        · simp [Session.references, Rows.references, creationAudit, perform, Session.fresh]
        · exact List.cons_ne_nil _ _
      · cases e with
        | integrity => exact courteous_idle trivial fun _ _ _ => trivial
        | data => trivial

/-- DELETE locks its row before it has changes to it. -/
theorem requestConnectorDeletion_courteous (hs : s.Clean) (caller : CallerIdentity)
    (connectorId : Uuid) :
    (requestConnectorDeletion env caller connectorId).Obeys courteous (fun _ _ => True)
      (s, Held.nothing) := by
  refine Prog.Obeys.bind ((tenantConnector_courteous hs connectorId caller.tenantId).mono ?_)
  rintro (e | record₀) ⟨s₁, h₁⟩ ⟨hs₁, rfl, -⟩
  · trivial
  refine courteous_idle trivial fun b s₂ h₂ => ?_
  obtain ⟨hs₂, hheld⟩ := hs₁.effect_refreshConnector h₂
  cases b with
  | none => trivial
  | some record =>
    have hid : record.id = connectorId := (hs₂.connectors (hheld record rfl)).2
    by_cases hdel : record.status = .deleted
    · simp only [hdel, if_true]
      trivial
    · by_cases hreq : record.status = .deletionRequested
      · simp only [hreq, reduceCtorEq, if_true, if_false]
        trivial
      · simp only [hdel, hreq, if_false]
        refine courteous_await (fun _ => trivial) trivial fun _ s₃ h₃ => ?_
        refine courteous_await (fun _ => trivial) trivial fun _ s₄ h₄ => ?_
        obtain rfl := hs₂.effect_setConnector h₃
        obtain rfl := effect_enqueue h₄
        refine courteous_commit (fun _ => ⟨by simp [Session.writing, Rows.keys], ?_,
          by simp [Session.references, Rows.references, Session.writing]⟩)
          (.inl (.inl ⟨connectorId, .inl rfl⟩)) trivial fun _ => trivial
        refine hs₂.dirtyLocked_writing ?_
        exact .inl hid

/-- `accept` holds the index values of its row while it stages the event; at its end, nothing. -/
theorem accept_courteous (hs : s.Clean) (connector : ConnectorRecord) (args : AcceptArgs) :
    (accept env connector args).Obeys courteous (fun _ x => x.2 = Held.nothing ∧ x.1.Plain)
      (s, Held.nothing) := by
  refine courteous_idle trivial fun b s₁ h₁ => ?_
  obtain ⟨hs₁, -, -⟩ := hs.effect_findExisting h₁
  cases b with
  | some existing => exact ⟨rfl, hs₁.plain⟩
  | none =>
    refine courteous_idle trivial fun _ s₂ h₂ => ?_
    obtain ⟨_, _, -, rfl⟩ := h₂
    refine courteous_idle ?_ fun b s₃ h₃ => ?_
    · simp only [Modest, Session.AddsOne, perform, hs₁.pending]
      exact ⟨_, _, rfl, rfl, rfl, rfl⟩
    rcases effect_flush h₃ with ⟨rfl, rfl⟩ | ⟨⟨e, rfl⟩, rfl⟩
    · refine courteous_await (fun _ => trivial) trivial fun _ s₄ h₄ => ?_
      obtain rfl := effect_enqueue h₄
      refine courteous_commit (fun _ => ⟨by simp [Rows.keys], hs₁.dirtyLocked,
        by simp [Session.references, Rows.references]⟩) (.inl (.inr (.inr ?_))) ⟨rfl, rfl, rfl⟩
        fun _ => ⟨rfl, rfl, rfl⟩
      simp [Rows.keys, InvocationRecord.keys, perform]
    · cases e with
      | data => exact ⟨rfl, rfl, rfl⟩
      | integrity =>
        refine courteous_idle trivial fun _ s₄ h₄ => ?_
        have hplain : s₄.Plain := (Session.Plain.mk rfl rfl).effect rfl h₄
        refine courteous_idle trivial fun b s₅ h₅ => ?_
        cases b with
        | none => exact ⟨rfl, hplain.effect rfl h₅⟩
        | some existing => exact ⟨rfl, hplain.effect rfl h₅⟩

theorem finalise_courteous (hs : s.Plain) (record : InvocationRecord) (result : InvocationResult) :
    (finalise env record result).Obeys courteous (fun _ x => x.2 = Held.nothing)
      (s, Held.nothing) := by
  refine courteous_idle trivial fun _ s₁ h₁ => ?_
  have hs₁ : s₁.Plain := hs.effect rfl h₁
  cases terminalEvent result.status with
  | none => rfl
  | some event =>
    refine courteous_idle trivial fun _ s₂ h₂ => ?_
    exact courteous_commit (fun hsome => absurd hsome Held.nothing_some)
      (.inr (hs₁.effect rfl h₂)) rfl fun _ => rfl

/-- The adapter is called by a request that holds nothing. -/
theorem execute_courteous (hs : s.Plain) (connector : ConnectorRecord) (record : InvocationRecord)
    (payload : Dict String) :
    (execute env connector record payload).Obeys courteous (fun _ x => x.2 = Held.nothing)
      (s, Held.nothing) := by
  unfold execute
  split
  · exact finalise_courteous hs record _
  · refine courteous_idle trivial fun _ s₁ h₁ => ?_
    have hs₁ : s₁.Plain := hs.effect rfl h₁
    refine courteous_idle trivial fun _ s₂ h₂ => ?_
    refine courteous_commit (fun hsome => absurd hsome Held.nothing_some)
      (.inr (hs₁.effect rfl h₂)) ?_ fun _ => rfl
    refine courteous_idle trivial fun _ s₃ h₃ => ?_
    exact finalise_courteous ((Session.Plain.mk rfl rfl).effect rfl h₃) _ _

theorem invokeConnectorV1_courteous (hs : s.Clean) (caller : CallerIdentity) (connectorId : Uuid)
    (payload : InvocationCreate) (xRequestId traceparent : Option String) :
    (invokeConnectorV1 env caller connectorId payload xRequestId traceparent).Obeys courteous
      (fun _ _ => True) (s, Held.nothing) := by
  refine Prog.Obeys.bind ((tenantConnector_courteous hs connectorId caller.tenantId).mono ?_)
  rintro (e | record) ⟨s₁, h₁⟩ ⟨hs₁, rfl, -⟩
  · trivial
  rcases requireExecutable_cases record with hret | ⟨e, hraise⟩
  swap
  · simp only [hraise, Prog.raise_bind]
    trivial
  simp only [hret, Prog.ret_bind]
  refine Prog.Obeys.bind ((accept_courteous hs₁ record _).mono ?_)
  rintro (e | ⟨invocation, replay⟩) ⟨s₂, h₂⟩ ⟨heq, hs₂⟩
  · trivial
  obtain rfl : h₂ = Held.nothing := heq
  cases replay with
  | some existing => trivial
  | none =>
    refine Prog.Obeys.bind ((execute_courteous hs₂ record invocation payload.payload).mono ?_)
    rintro (e | invocation') ⟨s₃, h₃⟩ -
    · trivial
    · trivial

theorem internalReply_courteous (connectorId : Uuid) (invocation : InvocationRecord) :
    (internalReply connectorId invocation).Obeys courteous (fun _ _ => True)
      (s, Held.nothing) := by
  refine courteous_idle trivial fun b s' _ => ?_
  cases b with
  | none => trivial
  | some record => trivial

theorem invokeConnectorInternal_courteous (hs : s.Clean) (token tenantId : String)
    (connectorId : Uuid) (payload : Dict String) :
    (invokeConnectorInternal env token tenantId connectorId payload).Obeys courteous
      (fun _ _ => True) (s, Held.nothing) := by
  unfold invokeConnectorInternal
  rcases requireInternalCaller_cases env token with hret | ⟨e, hraise⟩
  swap
  · rw [hraise]
    trivial
  rw [hret, Prog.ret_bind]
  by_cases htenant : tenantId = ""
  · rw [if_pos htenant]
    trivial
  rw [if_neg htenant]
  refine Prog.Obeys.bind ((tenantConnector_courteous hs connectorId tenantId).mono ?_)
  rintro (e | record) ⟨s₁, h₁⟩ ⟨hs₁, rfl, -⟩
  · trivial
  rcases requireExecutable_cases record with hexec | ⟨e, hraise⟩
  swap
  · simp only [hraise, Prog.raise_bind]
    trivial
  simp only [hexec, Prog.ret_bind]
  cases agentInput payload with
  | none => trivial
  | some body =>
    refine Prog.Obeys.bind ((accept_courteous hs₁ record _).mono ?_)
    rintro (e | ⟨invocation, replay⟩) ⟨s₂, h₂⟩ ⟨heq, hs₂⟩
    · trivial
    obtain rfl : h₂ = Held.nothing := heq
    cases replay with
    | some existing => exact internalReply_courteous connectorId invocation
    | none =>
      refine Prog.Obeys.bind ((execute_courteous hs₂ record invocation body).mono ?_)
      rintro (e | invocation') ⟨s₃, h₃⟩ heq'
      · trivial
      obtain rfl : h₃ = Held.nothing := heq'
      exact internalReply_courteous connectorId invocation'

end Pieces

theorem handler_courteous (env : Env) (request : Request) :
    (handler env request).Obeys courteous (fun _ _ => True) (Session.fresh, Held.nothing) := by
  have hs := Session.fresh_clean
  cases request with
  | listConnectors caller includeDeleted => exact courteous_idle trivial fun _ _ _ => trivial
  | getConnector caller connectorId =>
    refine Prog.Obeys.bind ((tenantConnector_courteous hs connectorId caller.tenantId).mono ?_)
    rintro (e | record) ⟨s₁, h₁⟩ -
    · trivial
    · trivial
  | createConnector caller payload => exact createConnector_courteous caller payload
  | validateConnector caller connectorId => exact validateConnector_courteous hs caller connectorId
  | connectorHealth caller connectorId =>
    refine Prog.Obeys.bind ((tenantConnector_courteous hs connectorId caller.tenantId).mono ?_)
    rintro (e | record) ⟨s₁, h₁⟩ ⟨-, rfl, -⟩
    · trivial
    refine Prog.Obeys.bind ((requireAdapter_courteous record.kind).mono ?_)
    rintro (e | _) x rfl
    · trivial
    · exact courteous_idle trivial fun _ _ _ => trivial
  | requestConnectorDeletion caller connectorId =>
    exact requestConnectorDeletion_courteous hs caller connectorId
  | installConnector caller connectorId body => exact transition_courteous hs ..
  | configureConnector caller connectorId body => exact transition_courteous hs ..
  | enableConnector caller connectorId body => exact transition_courteous hs ..
  | disableConnector caller connectorId body => exact transition_courteous hs ..
  | rotateConnectorCredentials caller connectorId body =>
    refine Prog.Obeys.bind ((tenantConnector_courteous hs connectorId caller.tenantId).mono ?_)
    rintro (e | record) ⟨s₁, h₁⟩ ⟨hs₁, rfl, -⟩
    · trivial
    exact transition_courteous hs₁ ..
  | revokeConnector caller connectorId body => exact transition_courteous hs ..
  | archiveConnector caller connectorId body => exact transition_courteous hs ..
  | connectorAudit caller connectorId =>
    refine Prog.Obeys.bind ((tenantConnector_courteous hs connectorId caller.tenantId).mono ?_)
    rintro (e | record) ⟨s₁, h₁⟩ ⟨-, rfl, -⟩
    · trivial
    exact courteous_idle trivial fun _ _ _ => trivial
  | invokeConnectorV1 caller connectorId payload xRequestId traceparent =>
    exact invokeConnectorV1_courteous hs caller connectorId payload xRequestId traceparent
  | listInvocations caller connectorId statusFilter limit before =>
    exact courteous_idle trivial fun _ _ _ => trivial
  | getInvocation caller invocationId =>
    refine courteous_idle trivial fun b s' _ => ?_
    cases hb : b.filter (·.tenantId = caller.tenantId) with
    | none => trivial
    | some record => trivial
  | invokeConnectorInternal token tenantId connectorId payload =>
    exact invokeConnectorInternal_courteous hs token tenantId connectorId payload

/-- Every request is courteous, and holds nothing at its end. -/
theorem program_courteous (rq : Incoming) :
    rq.program.Obeys courteous (fun _ x => x.2 = Held.nothing)
      (Session.fresh, Held.nothing) := by
  refine Prog.Obeys.tryCatch (Prog.Obeys.finallyDo ((handler_courteous rq.env rq.request).mono ?_))
  rintro r ⟨s, h⟩ -
  refine ⟨⟨fun _ => trivial, trivial⟩, ?_⟩
  rintro ⟨s', h'⟩ ⟨-, rfl⟩
  cases r with
  | ok response => rfl
  | error e => rfl

end FavlGateway.Registry
