/-
  A request of one tenant, whatever the others have.

  Two things are proved of every endpoint.  It sees only what is visible to the tenant it is served
  for (`handler_seesOnly`): a connector or an invocation it looks up is compared with the tenant at
  once.  And it is confined (`handler_confined`): its queries name the tenant, what it assigns to it
  has read, and what it adds is the tenant's.  **`tenant_noninterference`** puts the two together.
-/
import FavlGateway.Registry.InvocationLog
import FavlGateway.Registry.Solo
import FavlGateway.Registry.TenantRuns

namespace FavlGateway.Registry

open FavlGateway.Library

/-- The tenant a request is made for: the caller's, or the one an internal caller forwards. -/
def Request.tenantId : Request → String
  | .listConnectors caller _ => caller.tenantId
  | .getConnector caller _ => caller.tenantId
  | .createConnector caller _ => caller.tenantId
  | .validateConnector caller _ => caller.tenantId
  | .connectorHealth caller _ => caller.tenantId
  | .requestConnectorDeletion caller _ => caller.tenantId
  | .installConnector caller _ _ => caller.tenantId
  | .configureConnector caller _ _ => caller.tenantId
  | .enableConnector caller _ _ => caller.tenantId
  | .disableConnector caller _ _ => caller.tenantId
  | .rotateConnectorCredentials caller _ _ => caller.tenantId
  | .revokeConnector caller _ _ => caller.tenantId
  | .archiveConnector caller _ _ => caller.tenantId
  | .connectorAudit caller _ => caller.tenantId
  | .invokeConnectorV1 caller _ _ _ _ => caller.tenantId
  | .listInvocations caller _ _ _ _ => caller.tenantId
  | .getInvocation caller _ => caller.tenantId
  | .invokeConnectorInternal _ tenantId _ _ => tenantId

/-! ## What an endpoint sees -/

section Sees

variable {A : String} {env : Env} {α β : Type}

theorem seesOnly_await {o : RegistryOp β} {f : β → Handler α} (ho : ∀ b, visible A o b = b)
    (hf : ∀ b, (f b).SeesOnly (visible A)) : (await o >>= f).SeesOnly (visible A) :=
  .perform ho hf

theorem seesOnly_last {o : RegistryOp β} (ho : ∀ b, visible A o b = b) :
    (await o).SeesOnly (visible A) := ⟨fun b => congrArg Prog.ret (ho b), fun _ => trivial⟩

theorem commit_seesOnly : commit.SeesOnly (visible A) := by
  refine seesOnly_await (fun _ => rfl) fun b => ?_
  cases b with
  | ok u => trivial
  | error e => trivial

theorem tenantConnector_seesOnly (connectorId : Uuid) :
    (tenantConnector connectorId A).SeesOnly (visible A) := by
  refine .perform_view (fun b => ?_) fun b => ?_
  · simp only [visible, Option.filter_filter, Bool.and_self]
  · cases b.filter fun r => r.tenantId = A with
    | none => trivial
    | some record => trivial

theorem apply_seesOnly {connectorId : Uuid} {target : ConnectorState}
    {event : Option ConnectorEvent} {actorId : String} {reason idempotencyKey : Option String} :
    (apply env connectorId target event actorId A reason idempotencyKey).SeesOnly (visible A) := by
  refine .perform_view (fun b => ?_) fun b => ?_
  · simp only [visible, Option.filter_filter, Bool.and_self]
  · cases b.filter fun r => r.tenantId = A with
    | none => trivial
    | some record =>
      dsimp only
      cases find record.status.value target.value event with
      | error exc =>
        dsimp only
        cases idempotentRepeat record.status.value target.value with
        | none => trivial
        | some edge => trivial
      | ok tr =>
        dsimp only
        split
        · trivial
        · refine seesOnly_await (fun _ => rfl) fun _ => ?_
          refine seesOnly_await (fun _ => rfl) fun _ => ?_
          refine seesOnly_await (fun _ => rfl) fun _ => ?_
          exact commit_seesOnly.bind fun _ => trivial

theorem requireAdapter_seesOnly (kind : ConnectorKind) :
    (requireAdapter kind).SeesOnly (visible A) := by
  unfold requireAdapter
  split
  · trivial
  · trivial

theorem validateConfig_seesOnly (kind : ConnectorKind) (config : Dict String) :
    (validateConfig env kind config).SeesOnly (visible A) := by
  refine (requireAdapter_seesOnly kind).bind fun _ => ?_
  refine seesOnly_await (fun _ => rfl) fun _ => ?_
  trivial

theorem validateConnector_seesOnly {caller : CallerIdentity} (connectorId : Uuid) :
    (validateConnector env caller connectorId).SeesOnly (visible caller.tenantId) := by
  refine (tenantConnector_seesOnly connectorId).bind fun record => ?_
  refine (validateConfig_seesOnly record.kind record.config).bind fun report => ?_
  refine Prog.SeesOnly.bind ?_ fun _ => ?_
  · refine Prog.SeesOnly.tryCatch (apply_seesOnly.bind fun _ => ?_) fun e => ?_
    · trivial
    · split
      · exact seesOnly_last fun _ => rfl
      · trivial
  · refine (tenantConnector_seesOnly connectorId).bind fun record => ?_
    refine seesOnly_await (fun _ => rfl) fun _ => ?_
    exact commit_seesOnly.bind fun _ => trivial

theorem createConnector_seesOnly {caller : CallerIdentity} {payload : ConnectorCreate} :
    (createConnector env caller payload).SeesOnly (visible A) := by
  unfold createConnector
  split
  · trivial
  · refine (validateConfig_seesOnly _ _).bind fun report => ?_
    split
    · trivial
    · refine seesOnly_await (fun _ => rfl) fun _ => ?_
      refine seesOnly_await (fun _ => rfl) fun b => ?_
      cases b with
      | error e =>
        cases e with
        | integrity => exact seesOnly_await (fun _ => rfl) fun _ => trivial
        | data => trivial
      | ok u =>
        refine seesOnly_await (fun _ => rfl) fun _ => ?_
        refine seesOnly_await (fun _ => rfl) fun _ => ?_
        exact commit_seesOnly.bind fun _ => trivial

theorem requestConnectorDeletion_seesOnly {caller : CallerIdentity} {connectorId : Uuid} :
    (requestConnectorDeletion env caller connectorId).SeesOnly (visible caller.tenantId) := by
  refine (tenantConnector_seesOnly connectorId).bind fun _ => ?_
  refine seesOnly_await (fun _ => rfl) fun b => ?_
  cases b with
  | none => trivial
  | some record =>
    dsimp only
    split
    · trivial
    · split
      · trivial
      · refine seesOnly_await (fun _ => rfl) fun _ => ?_
        refine seesOnly_await (fun _ => rfl) fun _ => ?_
        exact commit_seesOnly.bind fun _ => trivial

theorem transition_seesOnly {connectorId : Uuid} {caller : CallerIdentity} {target : ConnectorState}
    {event : Option ConnectorEvent} {body : Option TransitionRequest} :
    (transition env connectorId caller target event body).SeesOnly (visible caller.tenantId) := by
  refine Prog.SeesOnly.bind ?_ fun _ => trivial
  exact apply_seesOnly.tryCatch fun _ => trivial

theorem requireExecutable_seesOnly (record : ConnectorRecord) :
    (requireExecutable record).SeesOnly (visible A) := by
  rcases requireExecutable_cases record with h | ⟨e, h⟩
  · rw [h]
    trivial
  · rw [h]
    trivial

theorem accept_seesOnly {connector : ConnectorRecord} {args : AcceptArgs} :
    (accept env connector args).SeesOnly (visible A) := by
  refine seesOnly_await (fun _ => rfl) fun b => ?_
  cases b with
  | some existing => trivial
  | none =>
    refine seesOnly_await (fun _ => rfl) fun _ => ?_
    refine seesOnly_await (fun _ => rfl) fun b => ?_
    cases b with
    | error e =>
      cases e with
      | integrity =>
        refine seesOnly_await (fun _ => rfl) fun _ => ?_
        refine seesOnly_await (fun _ => rfl) fun b => ?_
        cases b with
        | none => trivial
        | some existing => trivial
      | data => trivial
    | ok u =>
      refine seesOnly_await (fun _ => rfl) fun _ => ?_
      exact commit_seesOnly.bind fun _ => trivial

theorem finalise_seesOnly {record : InvocationRecord} {result : InvocationResult} :
    (finalise env record result).SeesOnly (visible A) := by
  refine seesOnly_await (fun _ => rfl) fun _ => ?_
  split
  · trivial
  · refine seesOnly_await (fun _ => rfl) fun _ => ?_
    exact commit_seesOnly.bind fun _ => trivial

theorem execute_seesOnly {connector : ConnectorRecord} {record : InvocationRecord}
    {payload : Dict String} : (execute env connector record payload).SeesOnly (visible A) := by
  unfold execute
  split
  · exact finalise_seesOnly
  · refine seesOnly_await (fun _ => rfl) fun _ => ?_
    refine seesOnly_await (fun _ => rfl) fun _ => ?_
    refine commit_seesOnly.bind fun _ => ?_
    exact seesOnly_await (fun _ => rfl) fun _ => finalise_seesOnly

theorem invokeConnectorV1_seesOnly {caller : CallerIdentity} {connectorId : Uuid}
    {payload : InvocationCreate} {xRequestId traceparent : Option String} :
    (invokeConnectorV1 env caller connectorId payload xRequestId traceparent).SeesOnly
      (visible caller.tenantId) := by
  refine (tenantConnector_seesOnly connectorId).bind fun record => ?_
  refine (requireExecutable_seesOnly record).bind fun _ => ?_
  refine accept_seesOnly.bind fun accepted => ?_
  obtain ⟨invocation, replay⟩ := accepted
  cases replay with
  | some existing => trivial
  | none => exact execute_seesOnly.bind fun _ => trivial

theorem internalReply_seesOnly {connectorId : Uuid} {invocation : InvocationRecord} :
    (internalReply connectorId invocation).SeesOnly (visible A) := by
  refine seesOnly_await (fun _ => rfl) fun b => ?_
  cases b with
  | none => trivial
  | some record => trivial

theorem invokeConnectorInternal_seesOnly {token : String} {connectorId : Uuid}
    {payload : Dict String} :
    (invokeConnectorInternal env token A connectorId payload).SeesOnly (visible A) := by
  unfold invokeConnectorInternal
  refine Prog.SeesOnly.bind ?_ fun _ => ?_
  · rcases requireInternalCaller_cases env token with h | ⟨e, h⟩
    · rw [h]
      trivial
    · rw [h]
      trivial
  split
  · trivial
  refine (tenantConnector_seesOnly connectorId).bind fun record => ?_
  refine (requireExecutable_seesOnly record).bind fun _ => ?_
  cases agentInput payload with
  | none => trivial
  | some body =>
    refine accept_seesOnly.bind fun accepted => ?_
    obtain ⟨invocation, replay⟩ := accepted
    cases replay with
    | some existing => exact internalReply_seesOnly
    | none => exact execute_seesOnly.bind fun _ => internalReply_seesOnly

theorem getInvocation_seesOnly {caller : CallerIdentity} {invocationId : Uuid} :
    (getInvocation caller invocationId).SeesOnly (visible caller.tenantId) := by
  refine .perform_view (fun b => ?_) fun b => ?_
  · simp only [visible, Option.filter_filter, Bool.and_self]
  · cases b.filter fun r => r.tenantId = caller.tenantId with
    | none => trivial
    | some record => trivial

/-- Every endpoint sees only what is visible to the tenant. -/
theorem handler_seesOnly (request : Request) :
    (handler env request).SeesOnly (visible request.tenantId) := by
  cases request with
  | listConnectors caller includeDeleted => exact seesOnly_await (fun _ => rfl) fun _ => trivial
  | getConnector caller connectorId =>
    exact (tenantConnector_seesOnly connectorId).bind fun _ => trivial
  | createConnector caller payload => exact createConnector_seesOnly
  | validateConnector caller connectorId => exact validateConnector_seesOnly connectorId
  | connectorHealth caller connectorId =>
    refine (tenantConnector_seesOnly connectorId).bind fun record => ?_
    refine (requireAdapter_seesOnly record.kind).bind fun _ => ?_
    exact seesOnly_await (fun _ => rfl) fun _ => trivial
  | requestConnectorDeletion caller connectorId => exact requestConnectorDeletion_seesOnly
  | installConnector caller connectorId body => exact transition_seesOnly
  | configureConnector caller connectorId body => exact transition_seesOnly
  | enableConnector caller connectorId body => exact transition_seesOnly
  | disableConnector caller connectorId body => exact transition_seesOnly
  | rotateConnectorCredentials caller connectorId body =>
    exact (tenantConnector_seesOnly connectorId).bind fun _ => transition_seesOnly
  | revokeConnector caller connectorId body => exact transition_seesOnly
  | archiveConnector caller connectorId body => exact transition_seesOnly
  | connectorAudit caller connectorId =>
    refine (tenantConnector_seesOnly connectorId).bind fun _ => ?_
    exact seesOnly_await (fun _ => rfl) fun _ => trivial
  | invokeConnectorV1 caller connectorId payload xRequestId traceparent =>
    exact invokeConnectorV1_seesOnly
  | listInvocations caller connectorId statusFilter limit before =>
    exact seesOnly_await (fun _ => rfl) fun _ => trivial
  | getInvocation caller invocationId => exact getInvocation_seesOnly
  | invokeConnectorInternal token tenantId connectorId payload =>
    exact invokeConnectorInternal_seesOnly

end Sees

/-! ## What an endpoint has read -/

namespace Session

/-- Every instance is one of the row it is kept under. -/
structure Named (s : Session) : Prop where
  connector : ∀ {id inst}, s.connectors id = some inst → inst.current.id = id ∧ inst.loaded.id = id

theorem fresh_named : fresh.Named := ⟨fun h => by cases h⟩

theorem Named.loadConnector {s : Session} (hs : s.Named) (db : Db) (id : Uuid) (locked : Bool) :
    (s.loadConnector db id locked).2.Named := by
  unfold Session.loadConnector
  split
  · rename_i row hrow
    refine ⟨fun {id' inst} h => ?_⟩
    rcases eq_or_ne id' id with rfl | hne
    · simp only [Function.update_self, Option.some.injEq] at h
      subst h
      exact ⟨(lookup_mem hrow).2, (lookup_mem hrow).2⟩
    · simp only [Function.update_of_ne hne] at h
      exact hs.connector h
  · exact hs

theorem Named.rolledBack {s : Session} (hs : s.Named) : s.rolledBack.Named := by
  refine ⟨fun {id inst} h => ?_⟩
  obtain ⟨inst₀, h₀, rfl⟩ := Option.map_eq_some_iff.mp h
  exact ⟨(hs.connector h₀).2, (hs.connector h₀).2⟩

theorem Named.committed {s : Session} (hs : s.Named) : s.committed.Named := by
  refine ⟨fun {id inst} h => ?_⟩
  cases hfound : (s.flushed ++ s.pending).connectors.find? fun r => r.id = id with
  | some r =>
    simp only [Session.committed, hfound, Option.some.injEq] at h
    subst h
    exact ⟨(lookup_mem hfound).2, (lookup_mem hfound).2⟩
  | none =>
    simp only [Session.committed, hfound] at h
    obtain ⟨inst₀, h₀, rfl⟩ := Option.map_eq_some_iff.mp h
    exact ⟨(hs.connector h₀).1, (hs.connector h₀).1⟩

/-- The instances of the one session are instances of the other. -/
structure Keeps (s s' : Session) : Prop where
  connector : ∀ {id}, s.connectors id ≠ none → s'.connectors id ≠ none
  invocation : ∀ {id}, s.invocations id ≠ none → s'.invocations id ≠ none

namespace Keeps

theorem refl (s : Session) : s.Keeps s := ⟨fun h => h, fun h => h⟩

theorem trans {s s' s'' : Session} (h : s.Keeps s') (h' : s'.Keeps s'') : s.Keeps s'' :=
  ⟨fun hid => h'.connector (h.connector hid), fun hid => h'.invocation (h.invocation hid)⟩

theorem loadConnector (s : Session) (db : Db) (id : Uuid) (locked : Bool) :
    s.Keeps (s.loadConnector db id locked).2 := by
  unfold Session.loadConnector
  split
  · refine ⟨fun {id'} hknown => ?_, fun hknown => hknown⟩
    rcases eq_or_ne id' id with rfl | hne
    · simp
    · simpa [Function.update_of_ne hne] using hknown
  · exact .refl s

theorem loadInvocation (s : Session) (row : Option InvocationRecord) :
    s.Keeps (s.loadInvocation row).2 := by
  cases row with
  | none => exact .refl s
  | some r =>
    simp only [Session.loadInvocation]
    split
    · exact .refl s
    · refine ⟨fun hknown => hknown, fun {id} hknown => ?_⟩
      rcases eq_or_ne id r.id with rfl | hne
      · simp
      · simpa [Function.update_of_ne hne] using hknown

theorem rolledBack (s : Session) : s.Keeps s.rolledBack :=
  ⟨by simp [Session.rolledBack], by simp [Session.rolledBack]⟩

theorem committed (s : Session) : s.Keeps s.committed := by
  refine ⟨fun {id} hknown => ?_, fun {id} hknown => ?_⟩
  · cases hfound : (s.flushed ++ s.pending).connectors.find? fun r => r.id = id with
    | some r =>
      simp only [Session.committed, hfound]
      exact Option.some_ne_none _
    | none =>
      simp only [Session.committed, hfound]
      simpa using hknown
  · cases hfound : (s.flushed ++ s.pending).invocations.find? fun r => r.id = id with
    | some r =>
      simp only [Session.committed, hfound]
      exact Option.some_ne_none _
    | none =>
      simp only [Session.committed, hfound]
      simpa using hknown

end Keeps
end Session

section Reads

variable {A : String} {ids : Nat → Uuid} {s s' : Session} {β : Type} {o : RegistryOp β} {b : β}

/-- What the sessions of a confined request go through. -/
abbrev ConfinedEffect (A : String) (ids : Nat → Uuid) {β : Type} (o : RegistryOp β) (s : Session)
    (b : β) (s' : Session) : Prop := (confinement A ids).eff o s b s'

theorem ConfinedEffect.named (h : ConfinedEffect A ids o s b s') (hs : s.Named) : s'.Named := by
  obtain ⟨i, st, -, -, rfl⟩ := h
  cases o with
  | getConnector id forUpdate =>
    simp only [perform]
    split
    · exact hs
    · exact hs.loadConnector st.db id forUpdate
  | refreshConnector id => exact hs.loadConnector st.db id true
  | connectorAttrs id => exact ⟨hs.connector⟩
  | setConnector r =>
    refine ⟨fun {id inst} h => ?_⟩
    rcases eq_or_ne id r.id with rfl | hne
    · simp only [perform, Function.update_self] at h
      obtain ⟨inst₀, h₀, rfl⟩ := Option.map_eq_some_iff.mp h
      exact ⟨rfl, (hs.connector h₀).2⟩
    · simp only [perform, Function.update_of_ne hne] at h
      exact hs.connector h
  | setInvocation r => exact ⟨hs.connector⟩
  | addConnector r => exact ⟨hs.connector⟩
  | addAudit a => exact ⟨hs.connector⟩
  | addInvocation r => exact ⟨hs.connector⟩
  | enqueue e => exact ⟨hs.connector⟩
  | flush =>
    simp only [perform]
    split
    · exact ⟨hs.connector⟩
    · exact hs.rolledBack
  | commit =>
    simp only [perform]
    split
    · exact hs.committed
    · exact hs.rolledBack
  | rollback => exact hs.rolledBack
  | close => exact Session.fresh_named
  | getInvocation id =>
    refine ⟨fun {id' inst} h => ?_⟩
    simp only [perform, Session.loadInvocation_connectors] at h
    exact hs.connector h
  | findExisting tenantId connectorId key =>
    refine ⟨fun {id' inst} h => ?_⟩
    simp only [perform, Session.loadInvocation_connectors] at h
    exact hs.connector h
  | listConnectors tenantId includeDeleted => exact ⟨hs.connector⟩
  | auditTrail connectorId tenantId => exact ⟨hs.connector⟩
  | listInvocations q => exact ⟨hs.connector⟩
  | callAdapter c => exact ⟨hs.connector⟩

theorem ConfinedEffect.keeps (h : ConfinedEffect A ids o s b s') (hpre : Confined A ids o s) :
    s.Keeps s' := by
  obtain ⟨i, st, -, -, rfl⟩ := h
  cases o with
  | getConnector id forUpdate =>
    simp only [perform]
    split
    · exact .refl s
    · exact .loadConnector s st.db id forUpdate
  | refreshConnector id => exact .loadConnector s st.db id true
  | setConnector r =>
    refine ⟨fun {id} hknown => ?_, fun hknown => hknown⟩
    rcases eq_or_ne id r.id with rfl | hne
    · simpa [perform] using hknown
    · simpa [perform, Function.update_of_ne hne] using hknown
  | setInvocation r =>
    refine ⟨fun hknown => hknown, fun {id} hknown => ?_⟩
    rcases eq_or_ne id r.id with rfl | hne
    · simpa [perform] using hknown
    · simpa [perform, Function.update_of_ne hne] using hknown
  | flush =>
    simp only [perform]
    split
    · exact ⟨fun h => h, fun h => h⟩
    · exact .rolledBack s
  | commit =>
    simp only [perform]
    split
    · exact .committed s
    · exact .rolledBack s
  | rollback => exact .rolledBack s
  | close => exact hpre.elim
  | getInvocation id => exact .loadInvocation s _
  | findExisting tenantId connectorId key => exact .loadInvocation s _
  | connectorAttrs id => exact .refl s
  | addConnector r => exact ⟨fun h => h, fun h => h⟩
  | addAudit a => exact ⟨fun h => h, fun h => h⟩
  | addInvocation r => exact ⟨fun h => h, fun h => h⟩
  | enqueue e => exact ⟨fun h => h, fun h => h⟩
  | listConnectors tenantId includeDeleted => exact .refl s
  | auditTrail connectorId tenantId => exact .refl s
  | listInvocations q => exact .refl s
  | callAdapter c => exact .refl s

/-- The connector a session is answered is the one it asked for. -/
theorem ConfinedEffect.getConnector {id : Uuid} {forUpdate : Bool} {b : Option ConnectorRecord}
    (h : ConfinedEffect A ids (.getConnector id forUpdate) s b s') (hs : s.Named) :
    ∀ r, b = some r → r.id = id ∧ s'.connectors id ≠ none := by
  obtain ⟨i, st, -, rfl, rfl⟩ := h
  intro r hr
  simp only [perform] at hr ⊢
  cases hattrs : s.connectorAttrs id with
  | some current =>
    simp only [hattrs, Option.some.injEq] at hr ⊢
    subst hr
    obtain ⟨inst, hinst, hread⟩ := Option.bind_eq_some_iff.mp hattrs
    unfold Instance.attrs at hread
    split at hread
    · cases hread
    · rw [← Option.some.inj hread, hinst]
      exact ⟨(hs.connector hinst).1, Option.some_ne_none _⟩
  | none =>
    simp only [hattrs] at hr ⊢
    rw [Session.loadConnector_held hr]
    refine ⟨?_, Option.some_ne_none _⟩
    unfold Session.loadConnector at hr
    split at hr
    · rename_i row hrow
      cases hr
      exact (lookup_mem hrow).2
    · cases hr

/-- Read again, it is the tenant's: there is nobody else. -/
theorem ConfinedEffect.refreshConnector {id : Uuid} {b : Option ConnectorRecord}
    (h : ConfinedEffect A ids (.refreshConnector id) s b s') :
    ∀ r, b = some r → r.id = id ∧ r.tenantId = A := by
  obtain ⟨i, st, hmine, rfl, rfl⟩ := h
  intro r hr
  simp only [perform, Session.loadConnector] at hr
  split at hr
  · rename_i hrow
    cases hr
    obtain ⟨hmem, hid⟩ := lookup_mem hrow
    exact ⟨hid, hmine r hmem⟩
  · cases hr

/-- The session has added an invocation of this id, and not committed it. -/
def Session.Adding (s : Session) (id : Uuid) : Prop :=
  ∃ v ∈ (s.flushed ++ s.pending).invocations, v.id = id

theorem ConfinedEffect.addInvocation {r : InvocationRecord} {b : Unit}
    (h : ConfinedEffect A ids (.addInvocation r) s b s') : s'.Adding r.id := by
  obtain ⟨i, st, -, -, rfl⟩ := h
  exact ⟨r, by simp [perform], rfl⟩

theorem ConfinedEffect.flush {id : Uuid} (h : ConfinedEffect A ids .flush s (.ok ()) s')
    (hadding : s.Adding id) : s'.Adding id := by
  obtain ⟨i, st, -, hb, rfl⟩ := h
  obtain ⟨v, hv, hid⟩ := hadding
  refine ⟨v, ?_, hid⟩
  simp only [perform] at hb ⊢
  split at hb
  · rename_i hvalid
    rw [if_pos hvalid]
    simpa using hv
  · cases hb

theorem ConfinedEffect.enqueue {id : Uuid} {e : OutboxEvent} {b : Unit}
    (h : ConfinedEffect A ids (.enqueue e) s b s') (hadding : s.Adding id) : s'.Adding id := by
  obtain ⟨i, st, -, -, rfl⟩ := h
  obtain ⟨v, hv, hid⟩ := hadding
  exact ⟨v, by simpa [perform] using hv, hid⟩

/-- Once committed, it is an instance of the session. -/
theorem ConfinedEffect.commit {id : Uuid} (h : ConfinedEffect A ids .commit s (.ok ()) s')
    (hadding : s.Adding id) : s'.invocations id ≠ none := by
  obtain ⟨i, st, -, hb, rfl⟩ := h
  obtain ⟨v, hv, hid⟩ := hadding
  simp only [perform] at hb ⊢
  split at hb
  · rename_i hvalid
    rw [dif_pos hvalid]
    simp only [Session.committed]
    cases hfound : (s.flushed ++ s.pending).invocations.find? fun r => r.id = id with
    | some r => exact Option.some_ne_none _
    | none =>
      have hne : ¬ v.id = id := by simpa using List.find?_eq_none.mp hfound v hv
      exact absurd hid hne
  · cases hb

theorem ConfinedEffect.effect (h : ConfinedEffect A ids o s b s') : Effect o s b s' := by
  obtain ⟨i, st, -, hb, hs'⟩ := h
  exact ⟨i, st, hb, hs'⟩

end Reads

/-! ## Where an endpoint is confined -/

section Confines

variable {A : String} {ids : Nat → Uuid} {env : Env} {s : Session} {α β : Type}
  {Q : Except Exc α → Session → Prop}

theorem confined_await {o : RegistryOp β} {f : β → Handler α} (hpre : Confined A ids o s)
    (h : ∀ b s', ConfinedEffect A ids o s b s' → (f b).Obeys (confinement A ids) Q s') :
    (await o >>= f).Obeys (confinement A ids) Q s := ⟨hpre, h⟩

/-- The rest of a handler after a commit, which keeps what was read. -/
theorem confined_commit {f : Unit → Handler α} (hs : s.Named)
    (hok : ∀ s', s.Keeps s' → s'.Named → (f ()).Obeys (confinement A ids) Q s')
    (herr : ∀ e s', s.Keeps s' → s'.Named → Q (.error e) s') :
    (commit >>= f).Obeys (confinement A ids) Q s := by
  refine Prog.Obeys.bind (confined_await trivial fun b s' he => ?_)
  have hkeeps := he.keeps trivial
  have hs' := he.named hs
  cases b with
  | ok u => exact hok s' hkeeps hs'
  | error e => exact herr _ s' hkeeps hs'

theorem tenantConnector_confined (hs : s.Named) (connectorId : Uuid) :
    (tenantConnector connectorId A).Obeys (confinement A ids) (fun r s' => s'.Named ∧ s.Keeps s' ∧
      ∀ record, r = .ok record →
        record.id = connectorId ∧ record.tenantId = A ∧ s'.connectors connectorId ≠ none) s := by
  refine confined_await trivial fun b s' he => ?_
  have hs' := he.named hs
  have hkeeps := he.keeps trivial
  cases hb : b.filter fun r => r.tenantId = A with
  | none => exact ⟨hs', hkeeps, fun _ h => by cases h⟩
  | some record =>
    obtain ⟨hfound, hA⟩ := Option.filter_eq_some_iff.mp hb
    obtain ⟨hid, hknown⟩ := he.getConnector hs record hfound
    refine ⟨hs', hkeeps, fun _ h => ?_⟩
    cases h
    exact ⟨hid, of_decide_eq_true hA, hknown⟩

theorem apply_confined (hs : s.Named) {connectorId : Uuid} {target : ConnectorState}
    {event : Option ConnectorEvent} {actorId : String} {reason idempotencyKey : Option String} :
    (apply env connectorId target event actorId A reason idempotencyKey).Obeys (confinement A ids)
      (fun _ s' => s'.Named) s := by
  refine confined_await trivial fun b s₁ he => ?_
  have hs₁ := he.named hs
  cases hb : b.filter fun r => r.tenantId = A with
  | none => exact hs₁
  | some record =>
    obtain ⟨hfound, hA⟩ := Option.filter_eq_some_iff.mp hb
    obtain ⟨rfl, hknown⟩ := he.getConnector hs record hfound
    dsimp only
    cases find record.status.value target.value event with
    | error exc =>
      dsimp only
      cases idempotentRepeat record.status.value target.value with
      | none => exact hs₁
      | some edge => exact hs₁
    | ok tr =>
      dsimp only
      split
      · exact hs₁
      · refine confined_await ⟨?_, ?_⟩ fun _ s₂ he₂ => ?_
        · rw [advance_tenantId]
          exact of_decide_eq_true hA
        · rw [advance_id]
          exact hknown
        have hs₂ := he₂.named hs₁
        have hknown₂ := (he₂.keeps ⟨by rw [advance_tenantId]; exact of_decide_eq_true hA,
          by rw [advance_id]; exact hknown⟩).connector hknown
        refine confined_await ⟨rfl, .inr hknown₂⟩ fun _ s₃ he₃ => ?_
        refine confined_await trivial fun _ s₄ he₄ => ?_
        have hs₄ := he₄.named (he₃.named hs₂)
        exact confined_commit hs₄ (fun s' _ hs' => hs') fun _ s' _ hs' => hs'

/-- What a handler reads of its environment leaves the session alone. -/
theorem validateConfig_confined (hs : s.Named) (kind : ConnectorKind) (config : Dict String) :
    (validateConfig env kind config).Obeys (confinement A ids)
      (fun _ s' => s'.Named ∧ s.Keeps s') s := by
  refine Prog.Obeys.bind ?_
  unfold requireAdapter
  split
  · exact confined_await trivial fun _ s' he => ⟨he.named hs, he.keeps trivial⟩
  · exact ⟨hs, .refl s⟩

theorem recordVerdict_confined (hs : s.Named) {caller : CallerIdentity} {connectorId : Uuid}
    {report : ValidationResult} :
    (recordVerdict env caller connectorId report).Obeys (confinement caller.tenantId ids)
      (fun _ s' => s'.Named) s := by
  refine Prog.Obeys.tryCatch (.bind ((apply_confined hs).mono fun r s' hs' => ?_))
  cases r with
  | ok a => exact hs'
  | error e =>
    dsimp only
    split
    · exact ⟨trivial, fun _ s'' he => ConfinedEffect.named he hs'⟩
    · exact hs'

theorem validateConnector_confined (hs : s.Named) {caller : CallerIdentity} (connectorId : Uuid) :
    (validateConnector env caller connectorId).Obeys (confinement caller.tenantId ids)
      (fun _ _ => True) s := by
  refine .bind ((tenantConnector_confined hs connectorId).mono fun r s₁ h₁ => ?_)
  cases r with
  | error e => trivial
  | ok record =>
    refine .bind ((validateConfig_confined h₁.1 record.kind record.config).mono fun r s₂ h₂ => ?_)
    cases r with
    | error e => trivial
    | ok report =>
      refine .bind ((recordVerdict_confined h₂.1).mono fun r s₃ h₃ => ?_)
      cases r with
      | error e => trivial
      | ok u =>
        refine .bind ((tenantConnector_confined h₃ connectorId).mono fun r s₄ h₄ => ?_)
        cases r with
        | error e => trivial
        | ok record =>
          obtain ⟨rfl, hA, hknown⟩ := h₄.2.2 record rfl
          refine confined_await ⟨hA, hknown⟩ fun _ s₅ he => ?_
          exact confined_commit (he.named h₄.1) (fun _ _ _ => trivial) fun _ _ _ _ => trivial

theorem createConnector_confined (hs : s.Named) {caller : CallerIdentity}
    {payload : ConnectorCreate} :
    (createConnector env caller payload).Obeys (confinement caller.tenantId env.uuid4)
      (fun _ _ => True) s := by
  unfold createConnector
  split
  · trivial
  · refine .bind ((validateConfig_confined hs _ _).mono fun r s₁ h₁ => ?_)
    cases r with
    | error e => trivial
    | ok report =>
      dsimp only
      split
      · trivial
      · refine confined_await ⟨rfl, 0, rfl⟩ fun _ s₂ he₂ => ?_
        refine confined_await trivial fun b s₃ he₃ => ?_
        cases b with
        | error e =>
          cases e with
          | integrity => exact confined_await trivial fun _ _ _ => trivial
          | data => trivial
        | ok u =>
          refine confined_await ⟨rfl, .inl ⟨0, rfl⟩⟩ fun _ s₄ he₄ => ?_
          refine confined_await trivial fun _ s₅ he₅ => ?_
          have hs₅ := he₅.named (he₄.named (he₃.named (he₂.named h₁.1)))
          exact confined_commit hs₅ (fun _ _ _ => trivial) fun _ _ _ _ => trivial

theorem requestConnectorDeletion_confined (hs : s.Named) {caller : CallerIdentity}
    {connectorId : Uuid} :
    (requestConnectorDeletion env caller connectorId).Obeys (confinement caller.tenantId ids)
      (fun _ _ => True) s := by
  refine .bind ((tenantConnector_confined hs connectorId).mono fun r s₁ h₁ => ?_)
  cases r with
  | error e => trivial
  | ok record =>
    obtain ⟨-, -, hknown⟩ := h₁.2.2 record rfl
    refine confined_await hknown fun b s₂ he₂ => ?_
    cases b with
    | none => trivial
    | some record =>
      obtain ⟨rfl, hA⟩ := he₂.refreshConnector record rfl
      dsimp only
      split
      · trivial
      · split
        · trivial
        · refine confined_await ⟨hA, (he₂.keeps hknown).connector hknown⟩ fun _ s₃ he₃ => ?_
          refine confined_await trivial fun _ s₄ he₄ => ?_
          have hs₄ := he₄.named (he₃.named (he₂.named h₁.1))
          exact confined_commit hs₄ (fun _ _ _ => trivial) fun _ _ _ _ => trivial

theorem transition_confined (hs : s.Named) {connectorId : Uuid} {caller : CallerIdentity}
    {target : ConnectorState} {event : Option ConnectorEvent} {body : Option TransitionRequest} :
    (transition env connectorId caller target event body).Obeys (confinement caller.tenantId ids)
      (fun _ _ => True) s := by
  refine .bind (.tryCatch ((apply_confined hs).mono fun r s' _ => ?_))
  cases r with
  | ok result => trivial
  | error e => trivial

theorem requireExecutable_confined (record : ConnectorRecord) :
    (requireExecutable record).Obeys (confinement A ids) (fun _ s' => s' = s) s := by
  rcases requireExecutable_cases record with h | ⟨e, h⟩
  · rw [h]
    exact rfl
  · rw [h]
    exact rfl

/-- The new invocation is known once it is committed; a replayed one need not be. -/
theorem accept_confined (hs : s.Named) {connector : ConnectorRecord} {args : AcceptArgs}
    (hA : args.tenantId = A) :
    (accept env connector args).Obeys (confinement A env.uuid4)
      (fun r s' => s'.Named ∧ s.Keeps s' ∧ ∀ record, r = .ok (record, none) →
        record.tenantId = A ∧ s'.invocations record.id ≠ none) s := by
  refine confined_await hA fun b s₁ he₁ => ?_
  have hs₁ := he₁.named hs
  have hkeeps₁ := he₁.keeps hA
  cases b with
  | some existing => exact ⟨hs₁, hkeeps₁, fun _ h => by cases h⟩
  | none =>
    have hpre : Confined A env.uuid4 (.addInvocation (newInvocation env connector args)) s₁ :=
      ⟨hA, 0, rfl⟩
    refine confined_await hpre fun _ s₂ he₂ => ?_
    have hs₂ := he₂.named hs₁
    have hkeeps₂ := hkeeps₁.trans (he₂.keeps hpre)
    have hadded₂ := he₂.addInvocation
    refine confined_await trivial fun b s₃ he₃ => ?_
    have hs₃ := he₃.named hs₂
    have hkeeps₃ := hkeeps₂.trans (he₃.keeps trivial)
    cases b with
    | error e =>
      cases e with
      | data => exact ⟨hs₃, hkeeps₃, fun _ h => by cases h⟩
      | integrity =>
        refine confined_await trivial fun _ s₄ he₄ => ?_
        refine confined_await hA fun b s₅ he₅ => ?_
        have hs₅ := he₅.named (he₄.named hs₃)
        have hkeeps₅ := (hkeeps₃.trans (he₄.keeps trivial)).trans (he₅.keeps hA)
        cases b with
        | none => exact ⟨hs₅, hkeeps₅, fun _ h => by cases h⟩
        | some existing => exact ⟨hs₅, hkeeps₅, fun _ h => by cases h⟩
    | ok u =>
      have hadded₃ := he₃.flush hadded₂
      refine confined_await trivial fun _ s₄ he₄ => ?_
      have hkeeps₄ := hkeeps₃.trans (he₄.keeps trivial)
      have hadded₄ := he₄.enqueue hadded₃
      refine .bind (confined_await trivial fun b s₅ he₅ => ?_)
      have hs₅ := he₅.named (he₄.named hs₃)
      have hkeeps₅ := hkeeps₄.trans (he₅.keeps trivial)
      cases b with
      | error e => exact ⟨hs₅, hkeeps₅, fun _ h => by cases h⟩
      | ok u =>
        refine ⟨hs₅, hkeeps₅, fun record h => ?_⟩
        cases h
        exact ⟨hA, he₅.commit hadded₄⟩

theorem finalise_confined (hs : s.Named) {record : InvocationRecord} {result : InvocationResult}
    (hA : record.tenantId = A) (hknown : s.invocations record.id ≠ none) :
    (finalise env record result).Obeys (confinement A ids)
      (fun _ s' => s'.Named ∧ s.Keeps s') s := by
  have hpre : Confined A ids (.setInvocation (finished env record result)) s := ⟨hA, hknown⟩
  refine confined_await hpre fun _ s₁ he₁ => ?_
  have hs₁ := he₁.named hs
  have hkeeps₁ := he₁.keeps hpre
  cases terminalEvent result.status with
  | none => exact ⟨hs₁, hkeeps₁⟩
  | some event =>
    refine confined_await trivial fun _ s₂ he₂ => ?_
    have hkeeps₂ := hkeeps₁.trans (he₂.keeps trivial)
    exact confined_commit (he₂.named hs₁) (fun s' hkeeps hs' => ⟨hs', hkeeps₂.trans hkeeps⟩)
      fun _ s' hkeeps hs' => ⟨hs', hkeeps₂.trans hkeeps⟩

theorem execute_confined (hs : s.Named) {connector : ConnectorRecord} {record : InvocationRecord}
    {payload : Dict String} (hA : record.tenantId = A) (hknown : s.invocations record.id ≠ none) :
    (execute env connector record payload).Obeys (confinement A ids)
      (fun _ s' => s'.Named ∧ s.Keeps s') s := by
  unfold execute
  split
  · exact finalise_confined hs hA hknown
  · have hpre : Confined A ids (.setInvocation (started env record)) s := ⟨hA, hknown⟩
    refine confined_await hpre fun _ s₁ he₁ => ?_
    refine confined_await trivial fun _ s₂ he₂ => ?_
    have hkeeps₂ := (he₁.keeps hpre).trans (he₂.keeps trivial)
    refine confined_commit (he₂.named (he₁.named hs)) (fun s₃ hkeeps₃ hs₃ => ?_)
      fun _ s' hkeeps hs' => ⟨hs', hkeeps₂.trans hkeeps⟩
    refine confined_await trivial fun _ s₄ he₄ => ?_
    have hkeeps₄ := (hkeeps₂.trans hkeeps₃).trans (he₄.keeps trivial)
    have hknown₄ : s₄.invocations (started env record).id ≠ none := hkeeps₄.invocation hknown
    have hA' : (started env record).tenantId = A := hA
    refine (finalise_confined (he₄.named hs₃) hA' hknown₄).mono fun _ s' h => ?_
    exact ⟨h.1, hkeeps₄.trans h.2⟩

theorem invokeConnectorV1_confined (hs : s.Named) {caller : CallerIdentity} {connectorId : Uuid}
    {payload : InvocationCreate} {xRequestId traceparent : Option String} :
    (invokeConnectorV1 env caller connectorId payload xRequestId traceparent).Obeys
      (confinement caller.tenantId env.uuid4) (fun _ _ => True) s := by
  refine .bind ((tenantConnector_confined hs connectorId).mono fun r s₁ h₁ => ?_)
  cases r with
  | error e => trivial
  | ok record =>
    refine .bind ((requireExecutable_confined record).mono fun r s₂ h₂ => ?_)
    subst h₂
    cases r with
    | error e => trivial
    | ok u =>
      have hA : (publicArgs caller payload xRequestId traceparent).tenantId = caller.tenantId := rfl
      refine .bind ((accept_confined h₁.1 hA).mono fun r s₃ h₃ => ?_)
      cases r with
      | error e => trivial
      | ok accepted =>
        obtain ⟨invocation, replay⟩ := accepted
        cases replay with
        | some existing => trivial
        | none =>
          obtain ⟨hA, hknown⟩ := h₃.2.2 invocation rfl
          refine .bind ((execute_confined h₃.1 hA hknown).mono fun r s₄ _ => ?_)
          cases r with
          | error e => trivial
          | ok invocation => trivial

theorem internalReply_confined {connectorId : Uuid} {invocation : InvocationRecord}
    (hknown : s.connectors connectorId ≠ none) :
    (internalReply connectorId invocation).Obeys (confinement A ids) (fun _ _ => True) s := by
  refine confined_await hknown fun b s' _ => ?_
  cases b with
  | none => trivial
  | some record => trivial

theorem invokeConnectorInternal_confined (hs : s.Named) {token : String} {connectorId : Uuid}
    {payload : Dict String} :
    (invokeConnectorInternal env token A connectorId payload).Obeys (confinement A env.uuid4)
      (fun _ _ => True) s := by
  unfold invokeConnectorInternal
  rcases requireInternalCaller_cases env token with h | ⟨e, h⟩
  · rw [h]
    simp only [Prog.ret_bind]
    split
    · trivial
    refine .bind ((tenantConnector_confined hs connectorId).mono fun r s₁ h₁ => ?_)
    cases r with
    | error e => trivial
    | ok record =>
      obtain ⟨-, -, hconn₁⟩ := h₁.2.2 record rfl
      refine .bind ((requireExecutable_confined record).mono fun r s₂ h₂ => ?_)
      subst h₂
      cases r with
      | error e => trivial
      | ok u =>
        dsimp only
        cases agentInput payload with
        | none => trivial
        | some body =>
          have hA : (internalArgs env A payload body record).tenantId = A := rfl
          refine .bind ((accept_confined h₁.1 hA).mono fun r s₃ h₃ => ?_)
          cases r with
          | error e => trivial
          | ok accepted =>
            obtain ⟨invocation, replay⟩ := accepted
            have hconn₃ := h₃.2.1.connector hconn₁
            cases replay with
            | some existing => exact internalReply_confined hconn₃
            | none =>
              obtain ⟨hA, hknown⟩ := h₃.2.2 invocation rfl
              refine .bind ((execute_confined h₃.1 hA hknown).mono fun r s₄ h₄ => ?_)
              cases r with
              | error e => trivial
              | ok invocation => exact internalReply_confined (h₄.2.connector hconn₃)
  · rw [h]
    trivial

/-- Every endpoint is confined to the tenant it is served for. -/
theorem handler_confined (request : Request) :
    (handler env request).Obeys (confinement request.tenantId env.uuid4) (fun _ _ => True)
      Session.fresh := by
  have hs := Session.fresh_named
  cases request with
  | listConnectors caller includeDeleted => exact confined_await rfl fun _ _ _ => trivial
  | getConnector caller connectorId =>
    refine .bind ((tenantConnector_confined hs connectorId).mono fun r s₁ h₁ => ?_)
    cases r with
    | error e => trivial
    | ok record => trivial
  | createConnector caller payload => exact createConnector_confined hs
  | validateConnector caller connectorId => exact validateConnector_confined hs connectorId
  | connectorHealth caller connectorId =>
    refine .bind ((tenantConnector_confined hs connectorId).mono fun r s₁ h₁ => ?_)
    cases r with
    | error e => trivial
    | ok record =>
      refine .bind ?_
      unfold requireAdapter
      split
      · exact confined_await trivial fun _ _ _ => trivial
      · trivial
  | requestConnectorDeletion caller connectorId => exact requestConnectorDeletion_confined hs
  | installConnector caller connectorId body => exact transition_confined hs
  | configureConnector caller connectorId body => exact transition_confined hs
  | enableConnector caller connectorId body => exact transition_confined hs
  | disableConnector caller connectorId body => exact transition_confined hs
  | rotateConnectorCredentials caller connectorId body =>
    refine .bind ((tenantConnector_confined hs connectorId).mono fun r s₁ h₁ => ?_)
    cases r with
    | error e => trivial
    | ok record => exact transition_confined h₁.1
  | revokeConnector caller connectorId body => exact transition_confined hs
  | archiveConnector caller connectorId body => exact transition_confined hs
  | connectorAudit caller connectorId =>
    refine .bind ((tenantConnector_confined hs connectorId).mono fun r s₁ h₁ => ?_)
    cases r with
    | error e => trivial
    | ok record => exact confined_await rfl fun _ _ _ => trivial
  | invokeConnectorV1 caller connectorId payload xRequestId traceparent =>
    exact invokeConnectorV1_confined hs
  | listInvocations caller connectorId statusFilter limit before =>
    exact confined_await rfl fun _ _ _ => trivial
  | getInvocation caller invocationId =>
    refine confined_await trivial fun b s₁ _ => ?_
    cases b.filter fun r => r.tenantId = caller.tenantId with
    | none => trivial
    | some record => trivial
  | invokeConnectorInternal token tenantId connectorId payload =>
    exact invokeConnectorInternal_confined hs

end Confines

/-! ## Two databases -/

/-- What a request comes to for its tenant. -/
structure TenantOutcome where
  response : Response
  /-- The adapter calls it makes. -/
  calls : List (Nat × AdapterCall)
  /-- The tenant's rows when it is over. -/
  rows : Rows
  /-- The events it stages. -/
  events : List OutboxEvent

/-- Served on this store, the request comes to this outcome, and the rows of all other tenants are
    as they were. -/
structure ComesTo (i : Nat) (rq : Incoming) (st : Store) (out : TenantOutcome) : Prop where
  response : (serve i (handler rq.env rq.request) st).1 = out.response
  calls : (served i rq st).calls = st.calls ++ out.calls
  rows : (served i rq st).db.toRows.ofTenant rq.request.tenantId = out.rows
  events : (served i rq st).db.outbox = st.db.outbox ++ out.events
  others : (served i rq st).db.toRows.ofOthers rq.request.tenantId =
    st.db.toRows.ofOthers rq.request.tenantId

/-- A store with the rows of tenant `A` alone. -/
def Store.only (A : String) (st : Store) : Store := { db := st.db.only A }

section Served

variable {A : String} {ids : Nat → Uuid} {i : Nat} {rq : Incoming} {st st' : Store}

theorem beside_fresh (hapart : st.db.Apart A ids) :
    Beside A ids st Session.fresh st Session.fresh (st.only A) where
  connectors := .nothing
  invocations := .nothing
  pending := rfl
  flushed := rfl
  added := .empty
  apart := hapart
  mine := rfl
  others := rfl
  outbox := (List.append_nil _).symm
  calls := (List.append_nil _).symm

theorem Beside.only_mine {init st₀ : Store} {s s₀ : Session} (h : Beside A ids init s st s₀ st₀) :
    ∀ c ∈ st₀.db.connectors, c.tenantId = A := by
  intro c hc
  rw [h.mine] at hc
  exact of_decide_eq_true (List.mem_filter.mp hc).2

theorem Rows.ofTenant_ofTenant (A : String) (r : Rows) (outbox : List OutboxEvent) :
    ({ r.ofTenant A with outbox := outbox } : Rows).ofTenant A = r.ofTenant A := by
  ext1 <;> simp [ofTenant]

theorem Rows.ofOthers_ofTenant (A : String) (r : Rows) (outbox : List OutboxEvent) :
    ({ r.ofTenant A with outbox := outbox } : Rows).ofOthers A = {} := by
  ext1 <;> simp [ofTenant, ofOthers]

theorem serve_response_congr {p : Handler Response}
    (h : (Prog.run (perform i) p Session.fresh st).1 =
      (Prog.run (perform i) p Session.fresh st').1) : (serve i p st).1 = (serve i p st').1 := by
  unfold serve
  generalize Prog.run (perform i) p Session.fresh st = x at h
  generalize Prog.run (perform i) p Session.fresh st' = y at h
  obtain ⟨r, x⟩ := x
  obtain ⟨r', y⟩ := y
  obtain rfl : r = r' := h
  cases r with
  | ok response => rfl
  | error e => rfl

/-- The two runs of a request end alike, beside each other. -/
theorem run_beside (i : Nat) (hapart : st.db.Apart rq.request.tenantId rq.env.uuid4) :
    (serve i (handler rq.env rq.request) st).1 =
        (serve i (handler rq.env rq.request) (st.only rq.request.tenantId)).1 ∧
      ∃ s s₀, Beside rq.request.tenantId rq.env.uuid4 st s (served i rq st) s₀
        (served i rq (st.only rq.request.tenantId)) := by
  obtain ⟨hresult, hbeside⟩ := Prog.SeesOnly.run (perform i)
    (R := Beside rq.request.tenantId rq.env.uuid4 st) (fun o s w s' w' hpre h => by
      obtain ⟨hanswer, hnext⟩ := h.perform_step (i := i) o hpre
      exact ⟨hanswer, ⟨i, w', h.only_mine, rfl, rfl⟩, hnext⟩)
    (handler_seesOnly rq.request) (handler_confined rq.request) (beside_fresh hapart)
  exact ⟨serve_response_congr hresult, _, _, by simpa only [served_eq] using hbeside⟩

/-- What a request comes to where there is nobody else. -/
def outcomeAlone (i : Nat) (rq : Incoming) (st : Store) : TenantOutcome :=
  let alone := st.only rq.request.tenantId
  { response := (serve i (handler rq.env rq.request) alone).1
    calls := (served i rq alone).calls
    rows := (served i rq alone).db.toRows.ofTenant rq.request.tenantId
    events := (served i rq alone).db.outbox }

/-- It comes to the same where there are others. -/
theorem comesTo_beside (i : Nat) (hapart : st.db.Apart rq.request.tenantId rq.env.uuid4) :
    ComesTo i rq st (outcomeAlone i rq st) := by
  obtain ⟨hresponse, s, s₀, h⟩ := run_beside i hapart
  refine ⟨hresponse, h.calls, ?_, h.outbox, h.others⟩
  show _ = (served i rq (st.only _)).db.toRows.ofTenant _
  rw [h.mine, Rows.ofTenant_ofTenant]

theorem comesTo_alone (i : Nat) (hapart : st.db.Apart rq.request.tenantId rq.env.uuid4) :
    ComesTo i rq (st.only rq.request.tenantId) (outcomeAlone i rq st) := by
  obtain ⟨-, s, s₀, h⟩ := run_beside i hapart
  refine ⟨rfl, (List.nil_append _).symm, rfl, (List.nil_append _).symm, ?_⟩
  rw [h.mine, Rows.ofOthers_ofTenant]
  exact (Rows.ofOthers_ofTenant rq.request.tenantId st.db.toRows []).symm

theorem only_congr (h : st.db.toRows.ofTenant A = st'.db.toRows.ofTenant A) :
    st.only A = st'.only A := by
  unfold Store.only Db.only
  simp only [h]

end Served

/-- **Tenant noninterference**: on two databases that agree on the rows of its tenant a request
    comes to the same outcome, which is the one it has where no other tenant has any row; and it
    leaves the rows of the others as they were. -/
theorem tenant_noninterference (i : Nat) (rq : Incoming) {st st' : Store}
    (hagree : st.db.toRows.ofTenant rq.request.tenantId =
      st'.db.toRows.ofTenant rq.request.tenantId)
    (hapart : st.db.Apart rq.request.tenantId rq.env.uuid4)
    (hapart' : st'.db.Apart rq.request.tenantId rq.env.uuid4) :
    ∃ out, ComesTo i rq st out ∧ ComesTo i rq st' out ∧
      ComesTo i rq (st.only rq.request.tenantId) out := by
  refine ⟨outcomeAlone i rq st, comesTo_beside i hapart, ?_, comesTo_alone i hapart⟩
  have hout : outcomeAlone i rq st = outcomeAlone i rq st' := by
    unfold outcomeAlone
    rw [only_congr hagree]
  rw [hout]
  exact comesTo_beside i hapart'

/-! ### A connector next door -/

/-- A connector in service. -/
def connectorOf (tenantId : String) (id : Uuid) : ConnectorRecord where
  id := id
  tenantId := tenantId
  name := "github"
  kind := .http
  baseUrl := none
  scopes := []
  config := []
  status := .enabled
  createdAt := 0

theorem neighbours_valid :
    Rows.Valid { connectors := [connectorOf "acme" 1, connectorOf "globex" 2] } := by
  decide +kernel

theorem no_neighbour_valid : Rows.Valid { connectors := [connectorOf "acme" 1] } := by
  decide +kernel

def neighboursDb : Db := { toRows := _, valid := neighbours_valid }

def noNeighbourDb : Db := { toRows := _, valid := no_neighbour_valid }

/-- The operator of `acme` asks for the deletion of the connector of `globex`. -/
def deletionNextDoor : Incoming := ⟨sampleEnv 10, .requestConnectorDeletion sampleCaller 2⟩

theorem apart_neighbours : neighboursDb.Apart "acme" (sampleEnv 10).uuid4 where
  connectors c hc _ n := by
    simp only [neighboursDb, List.mem_cons, List.not_mem_nil, or_false] at hc
    obtain rfl | rfl := hc
    · exact Nat.ne_of_lt (Nat.lt_add_right n (by decide))
    · exact Nat.ne_of_lt (Nat.lt_add_right n (by decide))
  invocations v hv := absurd hv List.not_mem_nil
  audit a ha := absurd ha List.not_mem_nil

theorem apart_no_neighbour : noNeighbourDb.Apart "acme" (sampleEnv 10).uuid4 where
  connectors c hc hne := by
    obtain rfl := List.mem_singleton.mp hc
    exact absurd rfl hne
  invocations v hv := absurd hv List.not_mem_nil
  audit a ha := absurd ha List.not_mem_nil

theorem neighbours_agree :
    neighboursDb.toRows.ofTenant "acme" = noNeighbourDb.toRows.ofTenant "acme" := by
  ext1
  · decide +kernel
  · rfl
  · rfl
  · rfl

theorem deletion_next_door : ∃ out, ComesTo 0 deletionNextDoor { db := neighboursDb } out ∧
    ComesTo 0 deletionNextDoor { db := noNeighbourDb } out ∧
    ComesTo 0 deletionNextDoor (Store.only "acme" { db := neighboursDb }) out :=
  tenant_noninterference 0 deletionNextDoor neighbours_agree apart_neighbours apart_no_neighbour

end FavlGateway.Registry
