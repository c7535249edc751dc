/-
  At most one provider effect for each idempotency key.

  Three facts meet here.  The schema keeps one row for each key (`Db.invocation_key_unique`), and
  rows outlive every commit.  An adapter is only ever called by the request whose commit inserted
  the row (`Owned`).  And the code of a request, whatever the operations answer, contains at most
  one call of `adapter.invoke` on any path (`handler_invokes`).  A race, a replay or a crash between
  `accept` and `execute` can therefore cost a call, never add one.
-/
import FavlGateway.Registry.Ownership

namespace FavlGateway.Registry

open FavlGateway.Library

/-! ## How often a request calls `adapter.invoke` -/

/-- The call is one of `adapter.invoke`. -/
def AdapterCall.isInvoke : AdapterCall → Bool
  | .invoke _ _ => true
  | _ => false

/-- The operation is a call of `adapter.invoke`. -/
def RegistryOp.isInvoke : {β : Type} → RegistryOp β → Bool
  | _, .callAdapter c => c.isInvoke
  | _, _ => false

/-- No path through the handler calls `adapter.invoke` more than `n` times. -/
def InvokesAtMost {α : Type} (p : Handler α) (n : Nat) : Prop := p.AtMost RegistryOp.isInvoke n

namespace InvokesAtMost

variable {α β : Type} {n : Nat}

theorem ret (a : α) : InvokesAtMost (.ret a) n := trivial

theorem raise (e : Exc) : InvokesAtMost (.raise e : Handler α) n := trivial

theorem await {o : RegistryOp β} {f : β → Handler α} (ho : o.isInvoke = false)
    (hf : ∀ b, InvokesAtMost (f b) n) : InvokesAtMost (await o >>= f) n := by
  refine ⟨fun h => absurd (h.symm.trans ho) (by decide), fun b => ?_⟩
  rw [if_neg (by simp [ho])]
  exact hf b

/-- A piece that never calls `adapter.invoke`. -/
theorem seq {p : Handler β} {f : β → Handler α} (hp : InvokesAtMost p 0)
    (hf : ∀ b, InvokesAtMost (f b) n) : InvokesAtMost (p >>= f) n :=
  Nat.zero_add n ▸ Prog.AtMost.bind hp hf

theorem commit : InvokesAtMost commit 0 :=
  .await rfl fun b => by cases b <;> trivial

theorem handled {p : Handler α} {h : Exc → Handler α} (hp : InvokesAtMost p 0)
    (hh : ∀ e, InvokesAtMost (h e) 0) : InvokesAtMost (p.tryCatch h) 0 :=
  Prog.AtMost.tryCatch hp hh

end InvokesAtMost

section Pieces

variable (env : Env)

theorem tenantConnector_invokes (connectorId : Uuid) (tenantId : String) :
    InvokesAtMost (tenantConnector connectorId tenantId) 0 := by
  refine .await rfl fun b => ?_
  split
  · exact .raise _
  · exact .ret _

theorem requireAdapter_invokes (kind : ConnectorKind) : InvokesAtMost (requireAdapter kind) 0 := by
  unfold requireAdapter
  split
  · exact .ret _
  · exact .raise _

theorem validateConfig_invokes (kind : ConnectorKind) (config : Dict String) :
    InvokesAtMost (validateConfig env kind config) 0 :=
  .seq (requireAdapter_invokes kind) fun _ => .await rfl fun _ => .ret _

theorem apply_invokes (connectorId : Uuid) (target : ConnectorState) (event : Option ConnectorEvent)
    (actorId tenantId : String) (reason idempotencyKey : Option String) :
    InvokesAtMost (apply env connectorId target event actorId tenantId reason idempotencyKey)
      0 := by
  refine .await rfl fun b => ?_
  split
  · exact .raise _
  · dsimp only
    split
    · split
      · exact .ret _
      · exact .raise _
    · split
      · exact .raise _
      · exact .await rfl fun _ => .await rfl fun _ => .await rfl fun _ =>
          .seq .commit fun _ => .ret _

theorem transition_invokes (connectorId : Uuid) (caller : CallerIdentity) (target : ConnectorState)
    (event : Option ConnectorEvent) (body : Option TransitionRequest) :
    InvokesAtMost (transition env connectorId caller target event body) 0 :=
  .seq (.handled (apply_invokes ..) fun _ => .raise _) fun _ => .ret _

theorem recordVerdict_invokes (caller : CallerIdentity) (connectorId : Uuid)
    (report : ValidationResult) :
    InvokesAtMost (recordVerdict env caller connectorId report) 0 := by
  refine .handled (.seq (apply_invokes ..) fun _ => .ret _) fun e => ?_
  split
  · exact .await rfl fun _ => .ret _
  · exact .raise _

theorem requireExecutable_invokes (record : ConnectorRecord) :
    InvokesAtMost (requireExecutable record) 0 := by
  refine .handled ?_ fun e => ?_
  · unfold checkExecutable
    split
    · exact .ret _
    · exact .raise _
  · split <;> exact .raise _

theorem accept_invokes (connector : ConnectorRecord) (args : AcceptArgs) :
    InvokesAtMost (accept env connector args) 0 := by
  refine .await rfl fun b => ?_
  split
  · exact .ret _
  · refine .await rfl fun _ => .await rfl fun b => ?_
    split
    · refine .await rfl fun _ => .await rfl fun b => ?_
      split
      · exact .raise _
      · exact .ret _
    · exact .raise _
    · exact .await rfl fun _ => .seq .commit fun _ => .ret _

theorem finalise_invokes (record : InvocationRecord) (result : InvocationResult) :
    InvokesAtMost (finalise env record result) 0 := by
  refine .await rfl fun _ => ?_
  split
  · exact .raise _
  · exact .await rfl fun _ => .seq .commit fun _ => .ret _

/-- The one place where `adapter.invoke` is called. -/
theorem execute_invokes (connector : ConnectorRecord) (record : InvocationRecord)
    (payload : Dict String) : InvokesAtMost (execute env connector record payload) 1 := by
  unfold execute
  split
  · exact (finalise_invokes ..).mono (Nat.zero_le 1)
  · refine .await rfl fun _ => .await rfl fun _ => .seq .commit fun _ => ?_
    exact ⟨fun _ => Nat.one_pos, fun _ => finalise_invokes ..⟩

theorem internalReply_invokes (connectorId : Uuid) (invocation : InvocationRecord) :
    InvokesAtMost (internalReply connectorId invocation) 0 := by
  refine .await rfl fun b => ?_
  split
  · exact .raise _
  · exact .ret _

end Pieces

/-- A request calls `adapter.invoke` at most once, whatever its operations answer. -/
theorem handler_invokes (env : Env) (request : Request) :
    InvokesAtMost (handler env request) 1 := by
  cases request with
  | listConnectors caller includeDeleted => exact .await rfl fun _ => .ret _
  | getConnector caller connectorId =>
    exact .seq (tenantConnector_invokes ..) fun _ => .ret _
  | createConnector caller payload =>
    show InvokesAtMost (createConnector env caller payload) 1
    unfold createConnector
    split
    · exact .raise _
    · refine .seq (validateConfig_invokes ..) fun report => ?_
      split
      · exact .raise _
      · refine .await rfl fun _ => .await rfl fun b => ?_
        split
        · exact .await rfl fun _ => .raise _
        · exact .raise _
        · exact .await rfl fun _ => .await rfl fun _ => .seq .commit fun _ => .ret _
  | validateConnector caller connectorId =>
    exact .seq (tenantConnector_invokes ..) fun _ => .seq (validateConfig_invokes ..) fun _ =>
      .seq (recordVerdict_invokes ..) fun _ => .seq (tenantConnector_invokes ..) fun _ =>
        .await rfl fun _ => .seq .commit fun _ => .ret _
  | connectorHealth caller connectorId =>
    exact .seq (tenantConnector_invokes ..) fun _ => .seq (requireAdapter_invokes _) fun _ =>
      .await rfl fun _ => .ret _
  | requestConnectorDeletion caller connectorId =>
    refine .seq (tenantConnector_invokes ..) fun _ => .await rfl fun b => ?_
    split
    · exact .raise _
    · split
      · exact .raise _
      · split
        · exact .ret _
        · exact .await rfl fun _ => .await rfl fun _ => .seq .commit fun _ => .ret _
  | installConnector caller connectorId body =>
    exact (transition_invokes ..).mono (Nat.zero_le 1)
  | configureConnector caller connectorId body =>
    exact (transition_invokes ..).mono (Nat.zero_le 1)
  | enableConnector caller connectorId body =>
    exact (transition_invokes ..).mono (Nat.zero_le 1)
  | disableConnector caller connectorId body =>
    exact (transition_invokes ..).mono (Nat.zero_le 1)
  | rotateConnectorCredentials caller connectorId body =>
    exact .seq (tenantConnector_invokes ..) fun _ =>
      (transition_invokes ..).mono (Nat.zero_le 1)
  | revokeConnector caller connectorId body =>
    exact (transition_invokes ..).mono (Nat.zero_le 1)
  | archiveConnector caller connectorId body =>
    exact (transition_invokes ..).mono (Nat.zero_le 1)
  | connectorAudit caller connectorId =>
    exact .seq (tenantConnector_invokes ..) fun _ => .await rfl fun _ => .ret _
  | invokeConnectorV1 caller connectorId payload xRequestId traceparent =>
    refine .seq (tenantConnector_invokes ..) fun _ => .seq (requireExecutable_invokes _) fun _ =>
      .seq (accept_invokes ..) ?_
    rintro ⟨invocation, replay⟩
    cases replay with
    | some replayed => exact .ret _
    | none => exact Prog.AtMost.bind (m := 0) (execute_invokes ..) fun _ => InvokesAtMost.ret _
  | listInvocations caller connectorId statusFilter limit before =>
    exact .await rfl fun _ => .ret _
  | getInvocation caller invocationId =>
    refine .await rfl fun b => ?_
    split
    · exact .raise _
    · exact .ret _
  | invokeConnectorInternal token tenantId connectorId payload =>
    have hcaller : InvokesAtMost (requireInternalCaller env token) 0 := by
      unfold requireInternalCaller
      split
      · exact .raise _
      · split
        · exact .raise _
        · exact .ret _
        · exact .raise _
    refine .seq hcaller fun _ => ?_
    split
    · exact .raise _
    · refine .seq (tenantConnector_invokes ..) fun record => .seq (requireExecutable_invokes _)
        fun _ => ?_
      split
      · exact .raise _
      · refine .seq (accept_invokes ..) ?_
        rintro ⟨invocation, replay⟩
        cases replay with
        | some replayed => exact (internalReply_invokes ..).mono (Nat.zero_le 1)
        | none =>
          exact Prog.AtMost.bind (m := 0) (execute_invokes ..) fun _ => internalReply_invokes ..

/-! ## How often it was called -/

/-- The calls of `adapter.invoke` that request `i` has made. -/
def Store.invokesBy (st : Store) (i : Nat) : Nat := st.calls.countP fun x => x.1 = i ∧ x.2.isInvoke

/-- The calls of `adapter.invoke` with this idempotency key. -/
def Store.invokesFor (st : Store) (tenantId : String) (connectorId : Uuid) (key : String) :
    List (Nat × AdapterCall) :=
  st.calls.filter fun x => match x.2 with
    | .invoke request _ => request.tenantId = tenantId ∧ request.connectorId = connectorId ∧
        request.idempotencyKey = key
    | _ => false

/-- The row has this idempotency key. -/
def InvocationRecord.HasKey (r : InvocationRecord) (tenantId : String) (connectorId : Uuid)
    (key : String) : Prop :=
  r.tenantId = tenantId ∧ r.connectorId = connectorId ∧ r.idempotencyKey = key

theorem perform_calls (i : Nat) {β : Type} (o : RegistryOp β) (s : Session) (st : Store) :
    (perform i o s st).2.2.calls = st.calls ∧ o.isInvoke = false ∨
      ∃ c, o.isInvoke = c.isInvoke ∧ (perform i o s st).2.2.calls = st.calls ++ [(i, c)] := by
  by_cases hcall : o.isCall = true
  · cases o with
    | callAdapter c => exact .inr ⟨c, rfl, rfl⟩
    | _ => cases hcall
  · rw [Bool.not_eq_true] at hcall
    have hinvoke : o.isInvoke = false := by
      cases o <;> first | rfl | cases hcall
    by_cases hcom : o.isCommit = true
    · cases o with
      | commit =>
        rcases perform_commit i s st with ⟨-, heq⟩ | ⟨hvalid, heq⟩ <;>
          exact .inl ⟨by rw [heq], rfl⟩
      | _ => cases hcom
    · rw [Bool.not_eq_true] at hcom
      exact .inl ⟨by rw [perform_store hcom hcall], hinvoke⟩

theorem registryMachine_counts :
    registryMachine.Counts RegistryOp.isInvoke fun w i => w.toStore.invokesBy i where
  step := by
    intro i β o s w b s' w' h j
    obtain ⟨hperf, -, -⟩ := registryMachine_step h
    have hst : w'.toStore = (perform i o s w.toStore).2.2 := by rw [hperf]
    rw [hst]
    unfold Store.invokesBy
    rcases perform_calls i o s w.toStore with ⟨hcalls, ho⟩ | ⟨c, ho, hcalls⟩
    · simp [hcalls, ho]
    · rw [hcalls, List.countP_append, List.countP_singleton, ho]
      rcases eq_or_ne j i with rfl | hne
      · simp
      · simp [hne, hne.symm]
  abort _ _ _ _ := rfl

/-- In every run a request calls `adapter.invoke` at most once. -/
theorem reaches_invokesBy {reqs : Nat → Incoming}
    {sys : System RegistryOp Session World Exc Response}
    (h : registryMachine.Reaches Machine.Any (registry Db.empty reqs) sys) (i : Nat) :
    sys.world.toStore.invokesBy i ≤ 1 := by
  refine h.atMost registryMachine_counts (fun i => ⟨rfl, ?_⟩) i
  have hclose : InvokesAtMost ((handler (reqs i).env (reqs i).request).finallyDo .close) 1 :=
    Prog.AtMost.finallyDo rfl (handler_invokes ..)
  exact hclose.tryCatch (m := 0) fun _ => InvokesAtMost.ret _

/-! ## The theorem -/

/-- Every call with the key is for the one row with that key, by the request that inserted it. -/
theorem invokesFor_owned {st : Store} (hW : Owned st) {tenantId key : String} {connectorId : Uuid}
    {x : Nat × AdapterCall} (hx : x ∈ st.invokesFor tenantId connectorId key) :
    x.2.isInvoke = true ∧ ∃ request context, x.2 = .invoke request context ∧
      ∃ row ∈ st.db.invocations, row.id = request.invocationId ∧
        row.HasKey tenantId connectorId key ∧ (x.1, row.id) ∈ st.inserts := by
  obtain ⟨i, c⟩ := x
  obtain ⟨hmem, hkey⟩ := List.mem_filter.mp hx
  cases c with
  | invoke request context =>
    simp only [decide_eq_true_eq] at hkey
    obtain ⟨hins, row, hrow, ht, hc, hk⟩ := hW.calls hmem
    obtain ⟨hrmem, hid⟩ := lookup_mem hrow
    exact ⟨rfl, request, context, rfl, row, hrmem, hid,
      ⟨ht.trans hkey.1, hc.trans hkey.2.1, hk.trans hkey.2.2⟩, hid ▸ hins⟩
  | _ => simp at hkey

/-- Rows with one key are one row, now and ever after. -/
theorem key_unique_later {reqs : Nat → Incoming}
    {sys sys' : System RegistryOp Session World Exc Response}
    (h : registryMachine.Reaches Machine.Any (registry Db.empty reqs) sys)
    (h' : registryMachine.Reaches Machine.Any sys sys') {tenantId key : String} {connectorId : Uuid}
    {r r' : InvocationRecord} (hr : r ∈ sys.world.db.invocations)
    (hr' : r' ∈ sys'.world.db.invocations) (hk : r.HasKey tenantId connectorId key)
    (hk' : r'.HasKey tenantId connectorId key) : r'.id = r.id := by
  obtain ⟨later, hmem, hsame⟩ := invocation_stays_later h h' hr
  have heq : r' = later := Db.invocation_key_unique hr' hmem
    (hk'.1.trans (hk.1.symm.trans hsame.tenantId.symm))
    (hk'.2.1.trans (hk.2.1.symm.trans hsame.connectorId.symm))
    (hk'.2.2.trans (hk.2.2.symm.trans hsame.idempotencyKey.symm))
  rw [heq, hsame.id]

/-- **At most one provider effect for each idempotency key**: whatever requests run, however their
    steps interleave and whichever of them crash, at most one invocation row ever has the key,
    `adapter.invoke` is called for it at most once, and the call is made by the one request whose
    commit inserted the row. -/
theorem at_most_one_effect (reqs : Nat → Incoming)
    {sys : System RegistryOp Session World Exc Response}
    (h : registryMachine.Reaches Machine.Any (registry Db.empty reqs) sys) (tenantId : String)
    (connectorId : Uuid) (key : String) :
    (∀ sys', registryMachine.Reaches Machine.Any sys sys' →
      ∀ r ∈ sys.world.db.invocations, ∀ r' ∈ sys'.world.db.invocations,
        r.HasKey tenantId connectorId key → r'.HasKey tenantId connectorId key → r'.id = r.id) ∧
    (∀ r ∈ sys.world.db.invocations, ∀ r' ∈ sys.world.db.invocations,
      r.HasKey tenantId connectorId key → r'.HasKey tenantId connectorId key → r' = r) ∧
    (sys.world.toStore.invokesFor tenantId connectorId key).length ≤ 1 ∧
    ∀ x ∈ sys.world.toStore.invokesFor tenantId connectorId key,
      ∃ request context, x.2 = .invoke request context ∧
        ∃ row ∈ sys.world.db.invocations, row.id = request.invocationId ∧
          row.HasKey tenantId connectorId key ∧
          ∀ j, (j, row.id) ∈ sys.world.inserts ↔ j = x.1 := by
  obtain ⟨hW, -⟩ := reaches_owned h
  have hone : ∀ r ∈ sys.world.db.invocations, ∀ r' ∈ sys.world.db.invocations,
      r.HasKey tenantId connectorId key → r'.HasKey tenantId connectorId key → r' = r :=
    fun r hr r' hr' hk hk' => Db.invocation_key_unique hr' hr (hk'.1.trans hk.1.symm)
      (hk'.2.1.trans hk.2.1.symm) (hk'.2.2.trans hk.2.2.symm)
  refine ⟨fun sys' h' r hr r' hr' hk hk' => key_unique_later h h' hr hr' hk hk', hone, ?_,
    fun x hx => ?_⟩
  · cases hcalls : sys.world.toStore.invokesFor tenantId connectorId key with
    | nil => exact Nat.zero_le 1
    | cons x rest =>
      rw [← hcalls]
      have hx : x ∈ sys.world.toStore.invokesFor tenantId connectorId key := by simp [hcalls]
      obtain ⟨-, -, -, -, row, hrow, -, hk, hins⟩ := invokesFor_owned hW hx
      -- all of them were made by the request that made the first
      refine Nat.le_trans ?_ (reaches_invokesBy h x.1)
      rw [Store.invokesFor, ← List.countP_eq_length_filter]
      refine List.countP_mono_left fun y hy hkey => ?_
      obtain ⟨hinvoke, -, -, -, row', hrow', -, hk', hins'⟩ :=
        invokesFor_owned hW (List.mem_filter.mpr ⟨hy, hkey⟩)
      rw [hone row hrow row' hrow' hk hk'] at hins'
      simp [hW.unique hins' hins, hinvoke]
  · obtain ⟨-, request, context, heq, row, hrow, hid, hk, hins⟩ := invokesFor_owned hW hx
    exact ⟨request, context, heq, row, hrow, hid, hk, fun j =>
      ⟨fun hj => hW.unique hj hins, fun hj => hj ▸ hins⟩⟩

/-- A connector, an invocation of it, and the same request once more. -/
def invokedTwice : Nat → Incoming
  | 0 => sampleEnabled
  | i => ⟨sampleEnv (10 * i), .invokeConnectorV1 sampleCaller 0 sampleInvocation none none⟩

set_option maxRecDepth 10000 in
theorem at_most_one_effect_invokedTwice :
    let sys := registryMachine.schedule
      (List.replicate 9 0 ++ List.replicate 3 1 ++ List.replicate 14 2 ++ List.replicate 5 1)
      (registry Db.empty invokedTwice)
    sys.world.toStore.invokesFor "acme" 0 "0123456789" ≠ [] ∧
      (sys.world.toStore.invokesFor "acme" 0 "0123456789").length ≤ 1 := by
  intro sys
  refine ⟨?_, (at_most_one_effect invokedTwice (Machine.reaches_schedule _ _) _ _ _).2.2.1⟩
  have hcalls : (sys.world.toStore.invokesFor "acme" 0 "0123456789").length = 1 := by
    decide +kernel
  exact fun h => by simp [h] at hcalls

end FavlGateway.Registry
