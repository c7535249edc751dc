/-
  A request of a tenant, served beside the rows of others.

  `Beside` relates a request being served on some store to the same request being served on another
  one that holds the tenant's rows alone.  `Beside.perform_step` is the step: an operation of a
  confined request (`Confined`) keeps the relation, and the second run is answered what the tenant
  may see of the first one's answer (`visible`).
-/
import FavlGateway.Library.Noninterference
import FavlGateway.Registry.TenantView

namespace FavlGateway.Registry

open FavlGateway.Library

/-! ## Requests confined to a tenant -/

/-- What may be awaited for tenant `A`: queries with its name in them, assignments to its rows which
    the session has, new rows of it under ids that were generated. -/
def Confined (A : String) (ids : Nat → Uuid) : {β : Type} → RegistryOp β → Session → Prop
  | _, .refreshConnector id, s => s.connectors id ≠ none
  | _, .connectorAttrs id, s => s.connectors id ≠ none
  | _, .setConnector r, s => r.tenantId = A ∧ s.connectors r.id ≠ none
  | _, .setInvocation r, s => r.tenantId = A ∧ s.invocations r.id ≠ none
  | _, .addConnector r, _ => r.tenantId = A ∧ ∃ n, r.id = ids n
  | _, .addAudit a, s =>
    a.tenantId = A ∧ ((∃ n, a.connectorId = ids n) ∨ s.connectors a.connectorId ≠ none)
  | _, .addInvocation r, _ => r.tenantId = A ∧ ∃ n, r.id = ids n
  | _, .findExisting tenantId _ _, _ => tenantId = A
  | _, .listConnectors tenantId _, _ => tenantId = A
  | _, .auditTrail _ tenantId, _ => tenantId = A
  | _, .listInvocations q, _ => q.tenantId = A
  -- the session of a request is closed by what serves it
  | _, .close, _ => False
  | _, _, _ => True

/-- The discipline of a request of tenant `A`, served where there is nobody else. -/
def confinement (A : String) (ids : Nat → Uuid) : Discipline RegistryOp Session where
  pre := Confined A ids
  eff o s b s' := ∃ i st, (∀ c ∈ st.db.connectors, c.tenantId = A) ∧ (perform i o s st).1 = b ∧
    (perform i o s st).2.1 = s'

/-- What the service shows tenant `A` of an answer. -/
def visible (A : String) : {β : Type} → RegistryOp β → β → β
  | _, .getConnector _ _, b => b.filter fun r => r.tenantId = A
  | _, .getInvocation _, b => b.filter fun r => r.tenantId = A
  | _, _, b => b

/-- New rows of tenant `A`. -/
structure Rows.AddedBy (A : String) (ids : Nat → Uuid) (db : Db) (r : Rows) : Prop where
  connectors : ∀ c ∈ r.connectors, c.tenantId = A ∧ ∃ n, c.id = ids n
  audit : ∀ a ∈ r.audit, a.tenantId = A ∧
    ((∃ n, a.connectorId = ids n) ∨ ∃ c ∈ db.connectors, c.tenantId = A ∧ c.id = a.connectorId)
  invocations : ∀ v ∈ r.invocations, v.tenantId = A ∧ ∃ n, v.id = ids n

namespace Rows.AddedBy

variable {A : String} {ids : Nat → Uuid} {db : Db} {r r' : Rows}

theorem empty : AddedBy A ids db {} where
  connectors _ hc := absurd hc List.not_mem_nil
  audit _ ha := absurd ha List.not_mem_nil
  invocations _ hv := absurd hv List.not_mem_nil

theorem connectorRow {c : ConnectorRecord} (h : c.tenantId = A ∧ ∃ n, c.id = ids n) :
    AddedBy A ids db { connectors := [c] } :=
  { (empty : AddedBy A ids db {}) with
    connectors := fun c' hc => by rwa [List.mem_singleton.mp hc] }

theorem auditRow {a : ConnectorAuditRecord} (h : a.tenantId = A ∧ ((∃ n, a.connectorId = ids n) ∨
      ∃ c ∈ db.connectors, c.tenantId = A ∧ c.id = a.connectorId)) :
    AddedBy A ids db { audit := [a] } :=
  { (empty : AddedBy A ids db {}) with audit := fun a' ha => by rwa [List.mem_singleton.mp ha] }

theorem invocationRow {v : InvocationRecord} (h : v.tenantId = A ∧ ∃ n, v.id = ids n) :
    AddedBy A ids db { invocations := [v] } :=
  { (empty : AddedBy A ids db {}) with
    invocations := fun v' hv => by rwa [List.mem_singleton.mp hv] }

theorem outboxRow (e : OutboxEvent) : AddedBy A ids db { outbox := [e] } :=
  { (empty : AddedBy A ids db {}) with }

theorem append (h : AddedBy A ids db r) (h' : AddedBy A ids db r') :
    AddedBy A ids db (r ++ r') where
  connectors c hc := (List.mem_append.mp hc).elim (h.connectors c) (h'.connectors c)
  audit a ha := (List.mem_append.mp ha).elim (h.audit a) (h'.audit a)
  invocations v hv := (List.mem_append.mp hv).elim (h.invocations v) (h'.invocations v)

theorem ofTenant (h : AddedBy A ids db r) : r.ofTenant A = { r with outbox := [] } := by
  ext1
  · exact List.filter_eq_self.mpr fun c hc => decide_eq_true (h.connectors c hc).1
  · exact List.filter_eq_self.mpr fun a ha => decide_eq_true (h.audit a ha).1
  · exact List.filter_eq_self.mpr fun v hv => decide_eq_true (h.invocations v hv).1
  · rfl

theorem ofOthers (h : AddedBy A ids db r) : r.ofOthers A = {} := by
  ext1
  · exact List.filter_eq_nil_iff.mpr fun c hc => by simp [(h.connectors c hc).1]
  · exact List.filter_eq_nil_iff.mpr fun a ha => by simp [(h.audit a ha).1]
  · exact List.filter_eq_nil_iff.mpr fun v hv => by simp [(h.invocations v hv).1]
  · rfl

/-- New rows of `A` share no index value with what others have. -/
theorem key_notMem (h : AddedBy A ids db r) (hapart : db.Apart A ids) {k : RowKey}
    (hk : k ∈ r.keys) : k ∉ (db.toRows.ofOthers A).keys := by
  intro hother
  simp only [Rows.keys, Rows.ofOthers, List.mem_append, List.mem_flatMap, List.mem_map,
    List.mem_filter, Bool.not_eq_true', decide_eq_false_iff_not, ConnectorRecord.keys,
    InvocationRecord.keys, ConnectorAuditRecord.key, List.mem_cons, List.not_mem_nil,
    or_false] at hk hother
  rcases hk with (⟨c, hc, rfl | rfl⟩ | ⟨a, ha, rfl⟩) | ⟨v, hv, rfl | rfl⟩
  · obtain ⟨n, hn⟩ := (h.connectors c hc).2
    rcases hother with (⟨c', ⟨hc', hne⟩, heq | heq⟩ | ⟨a', -, heq⟩) | ⟨v', -, heq | heq⟩
    · exact hapart.connectors c' hc' hne n ((RowKey.connectorId.inj heq).symm.trans hn)
    all_goals cases heq
  · obtain ⟨hA, -⟩ := h.connectors c hc
    rcases hother with (⟨c', ⟨hc', hne⟩, heq | heq⟩ | ⟨a', -, heq⟩) | ⟨v', -, heq | heq⟩
    · cases heq
    · exact hne ((RowKey.connectorName.inj heq).1.symm.trans hA)
    all_goals cases heq
  · obtain ⟨-, hid⟩ := h.audit a ha
    rcases hother with (⟨c', -, heq | heq⟩ | ⟨a', ⟨ha', hne⟩, heq⟩) | ⟨v', -, heq | heq⟩
    · cases heq
    · cases heq
    · have hsame := (RowKey.auditVersion.inj heq).1
      obtain ⟨hfresh, hforeign⟩ := hapart.audit a' ha' hne
      rcases hid with ⟨n, hn⟩ | ⟨c, hc, hA, hcid⟩
      · exact hfresh n (hsame.trans hn)
      · exact hforeign c hc hA (hsame.trans hcid.symm)
    all_goals cases heq
  · obtain ⟨n, hn⟩ := (h.invocations v hv).2
    rcases hother with (⟨c', -, heq | heq⟩ | ⟨a', -, heq⟩) | ⟨v', ⟨hv', hne⟩, heq | heq⟩
    · cases heq
    · cases heq
    · cases heq
    · exact hapart.invocations v' hv' hne n ((RowKey.invocationId.inj heq).symm.trans hn)
    · cases heq
  · obtain ⟨hA, -⟩ := h.invocations v hv
    rcases hother with (⟨c', -, heq | heq⟩ | ⟨a', -, heq⟩) | ⟨v', ⟨hv', hne⟩, heq | heq⟩
    · cases heq
    · cases heq
    · cases heq
    · cases heq
    · exact hne ((RowKey.invocationKey.inj heq).1.symm.trans hA)

end Rows.AddedBy

/-! ## Two runs -/

/-- A request of tenant `A` being served on a store that was `init`, beside the same request on the
    rows of `A` alone. -/
structure Beside (A : String) (ids : Nat → Uuid) (init : Store) (s : Session) (st : Store)
    (s₀ : Session) (st₀ : Store) : Prop where
  connectors : MapBeside ConnectorRecord.tenantId A st.db.connector s.connectors s₀.connectors
  invocations : MapBeside InvocationRecord.tenantId A st.db.invocation s.invocations s₀.invocations
  pending : s₀.pending = s.pending
  flushed : s₀.flushed = s.flushed
  added : Rows.AddedBy A ids st.db (s.flushed ++ s.pending)
  apart : st.db.Apart A ids
  mine : st₀.db.toRows = { st.db.toRows.ofTenant A with outbox := st₀.db.outbox }
  others : st.db.toRows.ofOthers A = init.db.toRows.ofOthers A
  outbox : st.db.outbox = init.db.outbox ++ st₀.db.outbox
  calls : st.calls = init.calls ++ st₀.calls

namespace Beside

variable {A : String} {ids : Nat → Uuid} {init st st₀ : Store} {s s₀ : Session} {i : Nat}

theorem connector (h : Beside A ids init s st s₀ st₀) (id : Uuid) :
    st₀.db.connector id = (st.db.connector id).filter fun c => c.tenantId = A := by
  refine Db.connector_ofTenant ?_ id
  rw [h.mine]

theorem invocation (h : Beside A ids init s st s₀ st₀) (id : Uuid) :
    st₀.db.invocation id = (st.db.invocation id).filter fun v => v.tenantId = A := by
  refine Db.invocation_ofTenant ?_ id
  rw [h.mine]

/-- Reading a row of `connectors` into both sessions. -/
theorem loadConnector (h : Beside A ids init s st s₀ st₀) (id : Uuid) (locked : Bool) :
    ((s.loadConnector st.db id locked).1.filter fun c => c.tenantId = A) =
        (s₀.loadConnector st₀.db id locked).1 ∧
      Beside A ids init (s.loadConnector st.db id locked).2 st
        (s₀.loadConnector st₀.db id locked).2 st₀ := by
  unfold Session.loadConnector
  rw [h.connector]
  cases hrow : st.db.connector id with
  | none => exact ⟨rfl, h⟩
  | some row =>
    by_cases hA : row.tenantId = A
    · rw [filter_mine hA]
      exact ⟨rfl, { h with connectors := h.connectors.load hrow hA locked }⟩
    · rw [filter_other hA]
      exact ⟨rfl, { h with connectors := h.connectors.load_other hrow hA locked }⟩

theorem getConnector (h : Beside A ids init s st s₀ st₀) (id : Uuid) (forUpdate : Bool) :
    visible A (.getConnector id forUpdate) (perform i (.getConnector id forUpdate) s st).1 =
        (perform i (.getConnector id forUpdate) s₀ st₀).1 ∧
      Beside A ids init (perform i (.getConnector id forUpdate) s st).2.1
        (perform i (.getConnector id forUpdate) s st).2.2
        (perform i (.getConnector id forUpdate) s₀ st₀).2.1
        (perform i (.getConnector id forUpdate) s₀ st₀).2.2 := by
  have hattrs := h.connectors.attrs id
  simp only [perform, visible, Session.connectorAttrs, hattrs]
  cases hread : (s.connectors id).bind Instance.attrs with
  | none => exact h.loadConnector id forUpdate
  | some current =>
    by_cases hA : current.tenantId = A
    · rw [filter_mine hA]
      exact ⟨rfl, h⟩
    · -- an instance of somebody else's row: on the rows of `A` there is nothing to read
      obtain ⟨r, hrow, hr⟩ := h.connectors.stored hread
      have hnone : st₀.db.connector id = none := by
        rw [h.connector, hrow]
        exact filter_other fun h => hA (hr.symm.trans h)
      have hload : s₀.loadConnector st₀.db id forUpdate = (none, s₀) := by
        unfold Session.loadConnector
        rw [hnone]
      rw [filter_other hA]
      dsimp only
      rw [hload]
      exact ⟨rfl, h⟩

/-- A row of `A` is read alike. -/
theorem loadInvocation_mine (h : Beside A ids init s st s₀ st₀) {row : InvocationRecord}
    (hrow : st.db.invocation row.id = some row) (hA : row.tenantId = A) :
    (∃ v, v.tenantId = A ∧ (s.loadInvocation (some row)).1 = some v ∧
        (s₀.loadInvocation (some row)).1 = some v) ∧
      Beside A ids init (s.loadInvocation (some row)).2 st
        (s₀.loadInvocation (some row)).2 st₀ := by
  have hsame : s₀.invocations row.id = s.invocations row.id := h.invocations.eq_of_mine hrow hA
  simp only [Session.loadInvocation, Session.invocationAttrs, hsame]
  cases hread : (s.invocations row.id).bind Instance.attrs with
  | none =>
    exact ⟨⟨row, hA, rfl, rfl⟩, { h with invocations := h.invocations.load hrow hA false }⟩
  | some current =>
    obtain ⟨r, hstored, hr⟩ := h.invocations.stored hread
    obtain rfl : r = row := Option.some.inj (hstored.symm.trans hrow)
    exact ⟨⟨current, hr.symm.trans hA, rfl, rfl⟩, h⟩

/-- A row of somebody else is not seen. -/
theorem loadInvocation_other (h : Beside A ids init s st s₀ st₀) {row : InvocationRecord}
    (hrow : st.db.invocation row.id = some row) (hA : row.tenantId ≠ A) :
    ((s.loadInvocation (some row)).1.filter fun v => v.tenantId = A) = none ∧
      Beside A ids init (s.loadInvocation (some row)).2 st s₀ st₀ := by
  simp only [Session.loadInvocation, Session.invocationAttrs]
  cases hread : (s.invocations row.id).bind Instance.attrs with
  | none =>
    exact ⟨filter_other hA,
      { h with invocations := h.invocations.load_other hrow hA false }⟩
  | some current =>
    obtain ⟨r, hstored, hr⟩ := h.invocations.stored hread
    obtain rfl : r = row := Option.some.inj (hstored.symm.trans hrow)
    exact ⟨filter_other fun h => hA (hr.trans h), h⟩

theorem getInvocation (h : Beside A ids init s st s₀ st₀) (id : Uuid) :
    visible A (.getInvocation id) (perform i (.getInvocation id) s st).1 =
        (perform i (.getInvocation id) s₀ st₀).1 ∧
      Beside A ids init (perform i (.getInvocation id) s st).2.1
        (perform i (.getInvocation id) s st).2.2 (perform i (.getInvocation id) s₀ st₀).2.1
        (perform i (.getInvocation id) s₀ st₀).2.2 := by
  simp only [perform, visible, h.invocation]
  cases hfound : st.db.invocation id with
  | none => exact ⟨rfl, h⟩
  | some row =>
    have hrow : st.db.invocation row.id = some row := Db.invocation_of_mem (lookup_mem hfound).1
    by_cases hA : row.tenantId = A
    · rw [filter_mine hA]
      obtain ⟨⟨v, hv, hanswer, hanswer₀⟩, hnext⟩ := h.loadInvocation_mine hrow hA
      rw [hanswer, hanswer₀]
      exact ⟨filter_mine hv, hnext⟩
    · rw [filter_other hA]
      exact h.loadInvocation_other hrow hA

theorem findExisting (h : Beside A ids init s st s₀ st₀) (connectorId : Uuid) (key : String) :
    (perform i (.findExisting A connectorId key) s st).1 =
        (perform i (.findExisting A connectorId key) s₀ st₀).1 ∧
      Beside A ids init (perform i (.findExisting A connectorId key) s st).2.1
        (perform i (.findExisting A connectorId key) s st).2.2
        (perform i (.findExisting A connectorId key) s₀ st₀).2.1
        (perform i (.findExisting A connectorId key) s₀ st₀).2.2 := by
  have hfind : st₀.db.invocationByKey A connectorId key =
      st.db.invocationByKey A connectorId key := by
    unfold Db.invocationByKey
    rw [h.mine, Rows.ofTenant, List.find?_filter]
    congr 1
    funext v
    by_cases hA : v.tenantId = A
    · simp [hA]
    · simp [hA]
  simp only [perform, hfind]
  cases hfound : st.db.invocationByKey A connectorId key with
  | none => exact ⟨rfl, h⟩
  | some row =>
    obtain ⟨hmem, hA, -⟩ := Db.invocationByKey_mem hfound
    obtain ⟨⟨v, -, hanswer, hanswer₀⟩, hnext⟩ :=
      h.loadInvocation_mine (Db.invocation_of_mem hmem) hA
    exact ⟨hanswer.trans hanswer₀.symm, hnext⟩

/-! ### The listings -/

theorem listConnectors (h : Beside A ids init s st s₀ st₀) (includeDeleted : Bool) :
    connectorListing st.db A includeDeleted = connectorListing st₀.db A includeDeleted := by
  unfold connectorListing
  rw [h.mine, Rows.ofTenant, List.filter_filter]
  congr 2
  funext r
  by_cases hA : r.tenantId = A
  · simp [hA]
  · simp [hA]

theorem auditTrail (h : Beside A ids init s st s₀ st₀) (connectorId : Uuid) :
    auditListing st.db connectorId A = auditListing st₀.db connectorId A := by
  unfold auditListing
  rw [h.mine, Rows.ofTenant, List.filter_filter]
  congr 2
  funext a
  by_cases hA : a.tenantId = A
  · simp [hA]
  · simp [hA]

theorem listInvocations (h : Beside A ids init s st s₀ st₀) {q : InvocationQuery}
    (hq : q.tenantId = A) : invocationListing st.db q = invocationListing st₀.db q := by
  unfold invocationListing
  rw [h.mine, Rows.ofTenant, List.filter_filter]
  congr 3
  funext v
  by_cases hA : v.tenantId = A
  · simp [hA]
  · simp [InvocationQuery.selects, hA, hq]

/-! ### Commits -/

/-- What a commit writes to the rows of `A` it writes in both runs. -/
theorem writeConnector_mine (h : Beside A ids init s st s₀ st₀) {r : ConnectorRecord}
    (hr : r ∈ st.db.connectors) (hA : r.tenantId = A) :
    s.writeConnector r = s₀.writeConnector r := by
  have hsame : s₀.connectors r.id = s.connectors r.id :=
    h.connectors.eq_of_mine (Db.connector_of_mem hr) hA
  unfold Session.writeConnector
  rw [hsame]

theorem writeInvocation_mine (h : Beside A ids init s st s₀ st₀) {r : InvocationRecord}
    (hr : r ∈ st.db.invocations) (hA : r.tenantId = A) :
    s.writeInvocation r = s₀.writeInvocation r := by
  have hsame : s₀.invocations r.id = s.invocations r.id :=
    h.invocations.eq_of_mine (Db.invocation_of_mem hr) hA
  unfold Session.writeInvocation
  rw [hsame]

/-- It writes no row of somebody else. -/
theorem writeConnector_other (h : Beside A ids init s st s₀ st₀) {r : ConnectorRecord}
    (hr : r ∈ st.db.connectors) (hA : r.tenantId ≠ A) : s.writeConnector r = r := by
  unfold Session.writeConnector
  split
  · rename_i inst hinst
    obtain ⟨-, hrow, hclean⟩ := h.connectors.held hinst
    rw [Db.connector_of_mem hr, Option.map_some, Option.some.injEq] at hrow
    rw [hclean fun heq => hA (hrow.trans heq), ConnectorRecord.merge_clean]
  · rfl

theorem writeInvocation_other (h : Beside A ids init s st s₀ st₀) {r : InvocationRecord}
    (hr : r ∈ st.db.invocations) (hA : r.tenantId ≠ A) : s.writeInvocation r = r := by
  unfold Session.writeInvocation
  split
  · rename_i inst hinst
    obtain ⟨-, hrow, hclean⟩ := h.invocations.held hinst
    rw [Db.invocation_of_mem hr, Option.map_some, Option.some.injEq] at hrow
    rw [hclean fun heq => hA (hrow.trans heq), InvocationRecord.merge_clean]
  · rfl

/-- The rows of `A` a commit leaves are those the other run leaves. -/
theorem contents_mine (h : Beside A ids init s st s₀ st₀) :
    (s.contents st.db).ofTenant A = { s₀.contents st₀.db with outbox := [] } := by
  unfold Session.contents
  rw [Rows.ofTenant_append, h.added.ofTenant, h.pending, h.flushed, h.mine]
  ext1
  · refine congrArg (· ++ (s.flushed ++ s.pending).connectors) ?_
    refine filter_map_eq (fun r _ => ?_) fun r hr hA => ?_
    · rw [(s.writeConnector_same r).tenantId]
    · exact h.writeConnector_mine hr (of_decide_eq_true hA)
  · rfl
  · refine congrArg (· ++ (s.flushed ++ s.pending).invocations) ?_
    refine filter_map_eq (fun r _ => ?_) fun r hr hA => ?_
    · rw [(s.writeInvocation_same r).tenantId]
    · exact h.writeInvocation_mine hr (of_decide_eq_true hA)
  · rfl

/-- The rows of others are as they were. -/
theorem contents_others (h : Beside A ids init s st s₀ st₀) :
    (s.contents st.db).ofOthers A = st.db.toRows.ofOthers A := by
  unfold Session.contents
  rw [Rows.ofOthers_append, h.added.ofOthers, Rows.append_empty]
  ext1
  · refine (filter_map_eq (g := id) (fun r _ => ?_) fun r hr hA => ?_).trans (List.map_id _)
    · rw [(s.writeConnector_same r).tenantId]
    · exact h.writeConnector_other hr (by simpa using hA)
  · rfl
  · refine (filter_map_eq (g := id) (fun r _ => ?_) fun r hr hA => ?_).trans (List.map_id _)
    · rw [(s.writeInvocation_same r).tenantId]
    · exact h.writeInvocation_other hr (by simpa using hA)
  · rfl

/-- A commit of this session leaves the keys of the rows that were there. -/
theorem mem_keys_contents {db : Db} {k : RowKey} (hk : k ∈ (s.contents db).keys) :
    k ∈ db.keys ∨ k ∈ (s.flushed ++ s.pending).keys := by
  simp only [Session.contents, Rows.keys, Rows.append_connectors, Rows.append_audit,
    Rows.append_invocations, List.flatMap_append, List.map_append, List.mem_append] at hk ⊢
  have hconnectors : (db.connectors.map s.writeConnector).flatMap ConnectorRecord.keys =
      db.connectors.flatMap ConnectorRecord.keys := by
    rw [List.flatMap_map]
    refine List.flatMap_congr fun r _ => ?_
    simp only [ConnectorRecord.keys, (s.writeConnector_same r).id,
      (s.writeConnector_same r).tenantId, (s.writeConnector_same r).name]
  have hinvocations : (db.invocations.map s.writeInvocation).flatMap InvocationRecord.keys =
      db.invocations.flatMap InvocationRecord.keys := by
    rw [List.flatMap_map]
    refine List.flatMap_congr fun r _ => ?_
    simp only [InvocationRecord.keys, (s.writeInvocation_same r).id,
      (s.writeInvocation_same r).tenantId, (s.writeInvocation_same r).connectorId,
      (s.writeInvocation_same r).idempotencyKey]
  rw [hconnectors, hinvocations] at hk
  tauto

theorem keys_disjoint (h : Beside A ids init s st s₀ st₀) {k : RowKey}
    (hk : k ∈ (s₀.contents st₀.db).keys) : k ∉ (st.db.toRows.ofOthers A).keys := by
  rcases mem_keys_contents hk with hk | hk
  · have hmine : k ∈ (st.db.toRows.ofTenant A).keys := by
      rw [h.mine] at hk
      exact hk
    have hnodup := (st.db.keys_perm A).nodup_iff.mpr st.db.valid.1
    exact fun hother => (List.nodup_append.mp hnodup).2.2 k hmine k hother rfl
  · rw [h.flushed, h.pending] at hk
    exact h.added.key_notMem h.apart hk

/-- **The schema refuses both commits or neither, and for the same reason.** -/
theorem contents_valid (h : Beside A ids init s st s₀ st₀) :
    ((s.contents st.db).Valid ↔ (s₀.contents st₀.db).Valid) ∧
      (s.contents st.db).fits = (s₀.contents st₀.db).fits := by
  have hothers : (st.db.toRows.ofOthers A).Valid := st.db.valid.split.2
  have hkeys : (s.contents st.db).keys.Nodup ↔ (s₀.contents st₀.db).keys.Nodup := by
    rw [← ((s.contents st.db).keys_perm A).nodup_iff, h.contents_mine, h.contents_others]
    refine ⟨fun hnodup => (List.nodup_append.mp hnodup).1, fun hnodup => ?_⟩
    refine List.nodup_append.mpr ⟨hnodup, hothers.1, ?_⟩
    rintro k hk k' hk' rfl
    exact h.keys_disjoint hk hk'
  have hfits : (s.contents st.db).fits = (s₀.contents st₀.db).fits := by
    have hstored : st.db.outbox.all OutboxEvent.fits = true := by
      have hvalid := st.db.valid.2
      rw [Rows.fits, Bool.and_eq_true] at hvalid
      exact hvalid.2
    have hstored₀ : st₀.db.outbox.all OutboxEvent.fits = true := by
      rw [h.outbox, List.all_append, Bool.and_eq_true] at hstored
      exact hstored.2
    rw [(s.contents st.db).fits_split A, h.contents_mine, h.contents_others, hothers.2,
      Bool.and_true, (s₀.contents st₀.db).fits_outbox]
    simp only [Session.contents, Rows.append_outbox, List.all_append, hstored, hstored₀, h.pending,
      h.flushed]
  exact ⟨and_congr hkeys (by rw [hfits]), hfits⟩

theorem rolledBack (h : Beside A ids init s st s₀ st₀) :
    Beside A ids init s.rolledBack st s₀.rolledBack st₀ where
  connectors := h.connectors.expire
  invocations := h.invocations.expire
  pending := rfl
  flushed := rfl
  added := .empty
  apart := h.apart
  mine := h.mine
  others := h.others
  outbox := h.outbox
  calls := h.calls

theorem flush (h : Beside A ids init s st s₀ st₀) :
    (perform i .flush s st).1 = (perform i .flush s₀ st₀).1 ∧
      Beside A ids init (perform i .flush s st).2.1 (perform i .flush s st).2.2
        (perform i .flush s₀ st₀).2.1 (perform i .flush s₀ st₀).2.2 := by
  obtain ⟨hvalid, hfits⟩ := h.contents_valid
  simp only [perform, hvalid]
  split
  · refine ⟨rfl, { h with pending := rfl, flushed := ?_, added := ?_ }⟩
    · rw [h.flushed, h.pending]
    · rw [Rows.append_empty]
      exact h.added
  · refine ⟨?_, h.rolledBack⟩
    simp only [Rows.refusal, hfits]

/-- The tables after a commit. -/
theorem committed (h : Beside A ids init s st s₀ st₀) {db db₀ : Db}
    {inserts inserts₀ : List (Nat × Uuid)} (hdb : db.toRows = s.contents st.db)
    (hdb₀ : db₀.toRows = s₀.contents st₀.db) :
    Beside A ids init s.committed { st with db := db, inserts := inserts } s₀.committed
      { st₀ with db := db₀, inserts := inserts₀ } := by
  have hothers : db.toRows.ofOthers A = st.db.toRows.ofOthers A := by rw [hdb, h.contents_others]
  have hnew : s₀.flushed ++ s₀.pending = s.flushed ++ s.pending := by rw [h.flushed, h.pending]
  obtain ⟨hconnectors, haudit, hinvocations⟩ := Rows.mem_of_ofOthers hothers
  refine
    { connectors := ?_, invocations := ?_, pending := rfl, flushed := rfl, added := .empty,
      apart := ?_, mine := ?_, others := hothers.trans h.others, outbox := ?_, calls := h.calls }
  · refine h.connectors.settle
      (fun id => (s.flushed ++ s.pending).connectors.find? fun r => r.id = id) ?_ ?_
    · intro id r hfound
      obtain ⟨hmem, rfl⟩ := lookup_mem hfound
      have hA := (h.added.connectors r hmem).1
      have hrow : db.connector r.id = some r := by
        apply Db.connector_of_mem
        rw [hdb]
        exact List.mem_append_right _ hmem
      refine ⟨hA, by rw [hrow, Option.map_some, hA], ?_, ?_⟩
      · simp only [Session.committed, hfound]
      · simp only [Session.committed, hnew, hfound]
    · intro id hfound
      refine ⟨fun t hrow => ?_, ?_, ?_⟩
      · obtain ⟨r, hr, rfl⟩ := Option.map_eq_some_iff.mp hrow
        obtain ⟨r', hr', hsame⟩ := connector_stays_same hdb hr
        rw [hr', Option.map_some, hsame.tenantId]
      · simp only [Session.committed, hfound]
      · simp only [Session.committed, hnew, hfound]
  · refine h.invocations.settle
      (fun id => (s.flushed ++ s.pending).invocations.find? fun r => r.id = id) ?_ ?_
    · intro id r hfound
      obtain ⟨hmem, rfl⟩ := lookup_mem hfound
      have hA := (h.added.invocations r hmem).1
      have hrow : db.invocation r.id = some r := by
        apply Db.invocation_of_mem
        rw [hdb]
        exact List.mem_append_right _ hmem
      refine ⟨hA, by rw [hrow, Option.map_some, hA], ?_, ?_⟩
      · simp only [Session.committed, hfound]
      · simp only [Session.committed, hnew, hfound]
    · intro id hfound
      refine ⟨fun t hrow => ?_, ?_, ?_⟩
      · obtain ⟨r, hr, rfl⟩ := Option.map_eq_some_iff.mp hrow
        obtain ⟨r', hr', hsame⟩ := invocation_stays hdb hr
        rw [hr', Option.map_some, hsame.tenantId]
      · simp only [Session.committed, hfound]
      · simp only [Session.committed, hnew, hfound]
  · refine ⟨fun c hc hA => h.apart.connectors c (hconnectors c hc hA) hA,
      fun v hv hA => h.apart.invocations v (hinvocations v hv hA) hA, fun a ha hA => ?_⟩
    obtain ⟨hfresh, hforeign⟩ := h.apart.audit a (haudit a ha hA) hA
    refine ⟨hfresh, fun c hc hc' => ?_⟩
    have hmem : c ∈ (s.contents st.db).connectors := hdb ▸ hc
    rcases List.mem_append.mp hmem with hmem | hmem
    · obtain ⟨r, hr, rfl⟩ := List.mem_map.mp hmem
      have hsame := s.writeConnector_same r
      rw [hsame.id]
      exact hforeign r hr (hsame.tenantId.symm.trans hc')
    · obtain ⟨n, hn⟩ := (h.added.connectors c hmem).2
      rw [hn]
      exact hfresh n
  · have hmine := h.contents_mine
    rw [← hdb, ← hdb₀] at hmine
    show db₀.toRows = { db.toRows.ofTenant A with outbox := db₀.outbox }
    rw [hmine]
  · show db.outbox = init.db.outbox ++ db₀.outbox
    rw [hdb, hdb₀]
    show st.db.outbox ++ _ = init.db.outbox ++ (st₀.db.outbox ++ _)
    rw [h.outbox, hnew, List.append_assoc]

theorem commit (h : Beside A ids init s st s₀ st₀) :
    (perform i .commit s st).1 = (perform i .commit s₀ st₀).1 ∧
      Beside A ids init (perform i .commit s st).2.1 (perform i .commit s st).2.2
        (perform i .commit s₀ st₀).2.1 (perform i .commit s₀ st₀).2.2 := by
  obtain ⟨hiff, hfits⟩ := h.contents_valid
  by_cases hvalid : (s.contents st.db).Valid
  · have hvalid₀ : (s₀.contents st₀.db).Valid := hiff.mp hvalid
    rw [show perform i .commit s st = _ from dif_pos hvalid,
      show perform i .commit s₀ st₀ = _ from dif_pos hvalid₀]
    exact ⟨rfl, h.committed rfl rfl⟩
  · have hvalid₀ : ¬ (s₀.contents st₀.db).Valid := fun h => hvalid (hiff.mpr h)
    rw [show perform i .commit s st = _ from dif_neg hvalid,
      show perform i .commit s₀ st₀ = _ from dif_neg hvalid₀]
    refine ⟨?_, h.rolledBack⟩
    simp only [Rows.refusal, hfits]

/-! ### Any operation -/

theorem addRows (h : Beside A ids init s st s₀ st₀) {r : Rows} (hr : r.AddedBy A ids st.db) :
    Beside A ids init { s with pending := s.pending ++ r } st
      { s₀ with pending := s₀.pending ++ r } st₀ := by
  refine { h with pending := congrArg (· ++ r) h.pending, added := ?_ }
  have hassoc : s.flushed ++ (s.pending ++ r) = s.flushed ++ s.pending ++ r := by
    ext1 <;> simp [List.append_assoc]
  show Rows.AddedBy A ids st.db (s.flushed ++ (s.pending ++ r))
  rw [hassoc]
  exact h.added.append hr

/-- **The step**: an operation of a confined request keeps the two runs beside each other, and is
    answered in the second what the tenant may see of its answer in the first. -/
theorem perform_step {β : Type} (o : RegistryOp β) (hpre : Confined A ids o s₀)
    (h : Beside A ids init s st s₀ st₀) :
    visible A o (perform i o s st).1 = (perform i o s₀ st₀).1 ∧
      Beside A ids init (perform i o s st).2.1 (perform i o s st).2.2 (perform i o s₀ st₀).2.1
        (perform i o s₀ st₀).2.2 := by
  cases o with
  | getConnector id forUpdate => exact h.getConnector id forUpdate
  | refreshConnector id =>
    obtain ⟨-, r, hrow, hA⟩ := h.connectors.of_known hpre
    obtain ⟨hanswer, hnext⟩ := h.loadConnector id true
    refine ⟨?_, hnext⟩
    have hread : (s.loadConnector st.db id true).1 = some r := by
      unfold Session.loadConnector
      rw [hrow]
    show (s.loadConnector st.db id true).1 = (s₀.loadConnector st₀.db id true).1
    rw [← hanswer, hread, filter_mine hA]
  | connectorAttrs id =>
    obtain ⟨hsame, -⟩ := h.connectors.of_known hpre
    refine ⟨?_, h⟩
    show (s.connectors id).bind Instance.attrs = (s₀.connectors id).bind Instance.attrs
    rw [hsame]
  | setConnector r =>
    exact ⟨rfl, { h with connectors := h.connectors.assign hpre.2 hpre.1 }⟩
  | setInvocation r =>
    exact ⟨rfl, { h with invocations := h.invocations.assign hpre.2 hpre.1 }⟩
  | addConnector r => exact ⟨rfl, h.addRows (.connectorRow hpre)⟩
  | addAudit a =>
    refine ⟨rfl, h.addRows (.auditRow ⟨hpre.1, hpre.2.imp_right fun hknown => ?_⟩)⟩
    obtain ⟨-, r, hrow, hA⟩ := h.connectors.of_known hknown
    obtain ⟨hmem, hid⟩ := lookup_mem hrow
    exact ⟨r, hmem, hA, hid⟩
  | addInvocation r => exact ⟨rfl, h.addRows (.invocationRow hpre)⟩
  | enqueue e => exact ⟨rfl, h.addRows (.outboxRow e)⟩
  | flush => exact h.flush
  | commit => exact h.commit
  | rollback => exact ⟨rfl, h.rolledBack⟩
  | close => exact absurd hpre id
  | getInvocation id => exact h.getInvocation id
  | findExisting tenantId connectorId key =>
    obtain rfl : tenantId = A := hpre
    exact h.findExisting connectorId key
  | listConnectors tenantId includeDeleted =>
    obtain rfl : tenantId = A := hpre
    exact ⟨h.listConnectors includeDeleted, h⟩
  | auditTrail connectorId tenantId =>
    obtain rfl : tenantId = A := hpre
    exact ⟨h.auditTrail connectorId, h⟩
  | listInvocations q => exact ⟨h.listInvocations hpre, h⟩
  | callAdapter c =>
    refine ⟨rfl, { h with calls := ?_ }⟩
    show st.calls ++ [(i, c)] = init.calls ++ (st₀.calls ++ [(i, c)])
    rw [h.calls, List.append_assoc]

end Beside
end FavlGateway.Registry
