/-
  What one tenant has of the database.

  `ofTenant` and `ofOthers` split the tables: the index values are those of the two parts together,
  so either part satisfies the schema's constraints.  `MapBeside` is the same split of an identity
  map; what a session has loaded of other tenants it may have read, but not changed.
-/
import FavlGateway.Registry.Ownership

namespace FavlGateway.Registry

open FavlGateway.Library

/-! ## What is the tenant's -/

section Filter

variable {α : Type} {tenant : α → String} {A : String} {a : α}

theorem filter_mine (h : tenant a = A) : ((some a).filter fun x => tenant x = A) = some a := by
  simp [Option.filter, h]

theorem filter_other (h : tenant a ≠ A) : ((some a).filter fun x => tenant x = A) = none := by
  simp [Option.filter, h]

end Filter

/-! ## The rows of a tenant -/

namespace Rows

/-- The rows of tenant `A`.  Outbox rows have no tenant. -/
def ofTenant (A : String) (r : Rows) : Rows where
  connectors := r.connectors.filter fun c => c.tenantId = A
  audit := r.audit.filter fun a => a.tenantId = A
  invocations := r.invocations.filter fun v => v.tenantId = A

/-- The rows of all other tenants. -/
def ofOthers (A : String) (r : Rows) : Rows where
  connectors := r.connectors.filter fun c => !decide (c.tenantId = A)
  audit := r.audit.filter fun a => !decide (a.tenantId = A)
  invocations := r.invocations.filter fun v => !decide (v.tenantId = A)

variable (A : String) (r r' : Rows)

theorem ofTenant_append : (r ++ r').ofTenant A = r.ofTenant A ++ r'.ofTenant A := by
  ext1 <;> simp [ofTenant]

theorem ofOthers_append : (r ++ r').ofOthers A = r.ofOthers A ++ r'.ofOthers A := by
  ext1 <;> simp [ofOthers]

/-- What others have in the one they have in the other. -/
theorem mem_of_ofOthers {A : String} {r r' : Rows} (h : r.ofOthers A = r'.ofOthers A) :
    (∀ c ∈ r.connectors, c.tenantId ≠ A → c ∈ r'.connectors) ∧
      (∀ a ∈ r.audit, a.tenantId ≠ A → a ∈ r'.audit) ∧
      ∀ v ∈ r.invocations, v.tenantId ≠ A → v ∈ r'.invocations := by
  refine ⟨fun c hc hA => ?_, fun a ha hA => ?_, fun v hv hA => ?_⟩
  · have hmem : c ∈ (r.ofOthers A).connectors := List.mem_filter.mpr ⟨hc, by simp [hA]⟩
    rw [h] at hmem
    exact (List.mem_filter.mp hmem).1
  · have hmem : a ∈ (r.ofOthers A).audit := List.mem_filter.mpr ⟨ha, by simp [hA]⟩
    rw [h] at hmem
    exact (List.mem_filter.mp hmem).1
  · have hmem : v ∈ (r.ofOthers A).invocations := List.mem_filter.mpr ⟨hv, by simp [hA]⟩
    rw [h] at hmem
    exact (List.mem_filter.mp hmem).1

/-- Each index value is a value of the tenant's rows or of the others'. -/
theorem keys_perm : ((r.ofTenant A).keys ++ (r.ofOthers A).keys).Perm r.keys := by
  have hc := (List.filter_append_perm (fun c => decide (c.tenantId = A)) r.connectors).flatMap_right
    ConnectorRecord.keys
  have ha := (List.filter_append_perm (fun a => decide (a.tenantId = A)) r.audit).map
    ConnectorAuditRecord.key
  have hv :=
    (List.filter_append_perm (fun v => decide (v.tenantId = A)) r.invocations).flatMap_right
    InvocationRecord.keys
  rw [List.perm_iff_count] at hc ha hv ⊢
  intro k
  have hck := hc k
  have hak := ha k
  have hvk := hv k
  simp only [List.flatMap_append, List.map_append, List.count_append] at hck hak hvk
  simp only [keys, ofTenant, ofOthers, List.count_append]
  omega

theorem all_filter_split {α : Type} (p f : α → Bool) (l : List α) :
    l.all f = ((l.filter p).all f && (l.filter fun a => !p a).all f) := by
  rw [← List.all_append]
  exact ((List.filter_append_perm p l).all_eq).symm

/-- The outbox is a table of its own. -/
theorem fits_outbox :
    r.fits = (({ r with outbox := [] } : Rows).fits && r.outbox.all OutboxEvent.fits) := by
  simp only [fits, List.all_nil, Bool.and_true]

/-- Values fit if the tenant's and the others' do. -/
theorem fits_split : r.fits =
    ((r.ofTenant A).fits && (r.ofOthers A).fits && r.outbox.all OutboxEvent.fits) := by
  simp only [fits, ofTenant, ofOthers, List.all_nil, Bool.and_true]
  rw [all_filter_split (fun c => decide (c.tenantId = A)) _ r.connectors,
    all_filter_split (fun a => decide (a.tenantId = A)) _ r.audit,
    all_filter_split (fun v => decide (v.tenantId = A)) _ r.invocations]
  ac_rfl

/-- Constraints that hold of some rows hold of each tenant's. -/
theorem Valid.split {A : String} {r : Rows} (h : r.Valid) :
    (r.ofTenant A).Valid ∧ (r.ofOthers A).Valid := by
  have hkeys := (r.keys_perm A).nodup_iff.mpr h.1
  have hfits := h.2
  rw [r.fits_split A, Bool.and_eq_true, Bool.and_eq_true] at hfits
  exact ⟨⟨(List.nodup_append.mp hkeys).1, hfits.1.1⟩, ⟨(List.nodup_append.mp hkeys).2.1, hfits.1.2⟩⟩

end Rows

namespace Db

/-- The database with the rows of tenant `A` alone. -/
def only (A : String) (db : Db) : Db where
  toRows := db.toRows.ofTenant A
  valid := db.valid.split.1

/-- The ids in rows of other tenants are apart from those that will be generated, and from the ids
    of `A`'s connectors. -/
structure Apart (A : String) (ids : Nat → Uuid) (db : Db) : Prop where
  connectors : ∀ c ∈ db.connectors, c.tenantId ≠ A → ∀ n, c.id ≠ ids n
  invocations : ∀ v ∈ db.invocations, v.tenantId ≠ A → ∀ n, v.id ≠ ids n
  audit : ∀ a ∈ db.audit, a.tenantId ≠ A →
    (∀ n, a.connectorId ≠ ids n) ∧ ∀ c ∈ db.connectors, c.tenantId = A → a.connectorId ≠ c.id

variable {A : String} {db db₀ : Db}

theorem connector_ofTenant (h : db₀.connectors = (db.toRows.ofTenant A).connectors) (id : Uuid) :
    db₀.connector id = (db.connector id).filter fun c => c.tenantId = A := by
  unfold connector
  rw [h]
  refine lookup_filter fun c hc c' hc' hid => ?_
  exact eq_of_index db.connectorKeys_nodup hc hc' (k := .connectorId c.id)
    (by simp [ConnectorRecord.keys]) (by simp [ConnectorRecord.keys, hid])

theorem invocation_ofTenant (h : db₀.invocations = (db.toRows.ofTenant A).invocations) (id : Uuid) :
    db₀.invocation id = (db.invocation id).filter fun v => v.tenantId = A := by
  unfold invocation
  rw [h]
  refine lookup_filter fun v hv v' hv' hid => ?_
  exact eq_of_index db.invocationKeys_nodup hv hv' (k := .invocationId v.id)
    (by simp [InvocationRecord.keys]) (by simp [InvocationRecord.keys, hid])

end Db

/-! ## Identity maps -/

/-- The identity maps of two runs, the second one on the rows of `A` alone; `row` is the table of
    the first.  What it has of other tenants was read, and not written since. -/
structure MapBeside {ρ : Type} (tenant : ρ → String) (A : String) (row : Uuid → Option ρ)
    (m m₀ : Uuid → Option (Instance ρ)) : Prop where
  mine : ∀ id, m₀ id = (m id).filter fun inst => tenant inst.loaded = A
  held : ∀ {id inst}, m id = some inst →
    tenant inst.current = tenant inst.loaded ∧
      (row id).map tenant = some (tenant inst.loaded) ∧
      (tenant inst.loaded ≠ A → inst.current = inst.loaded)

namespace MapBeside

variable {ρ : Type} {tenant : ρ → String} {A : String} {row row' : Uuid → Option ρ}
  {m m₀ : Uuid → Option (Instance ρ)} {id : Uuid}

theorem filter_loaded {inst : Instance ρ} (h : tenant inst.loaded = A) :
    ((some inst).filter fun x => tenant x.loaded = A) = some inst := by
  simp [Option.filter, h]

theorem filter_loaded_other {inst : Instance ρ} (h : tenant inst.loaded ≠ A) :
    ((some inst).filter fun x => tenant x.loaded = A) = none := by
  simp [Option.filter, h]

theorem nothing : MapBeside tenant A row (fun _ => none) fun _ => none where
  mine _ := rfl
  held h := by cases h

/-- Of a row of `A` the two maps have the same. -/
theorem eq_of_mine (h : MapBeside tenant A row m m₀) {r : ρ} (hrow : row id = some r)
    (hr : tenant r = A) : m₀ id = m id := by
  rw [h.mine]
  cases hm : m id with
  | none => rfl
  | some inst =>
    have hstored := (h.held hm).2.1
    rw [hrow, Option.map_some, Option.some.injEq] at hstored
    exact filter_loaded (hstored.symm.trans hr)

/-- Of a row of somebody else the second map has nothing. -/
theorem eq_none (h : MapBeside tenant A row m m₀) {r : ρ} (hrow : row id = some r)
    (hr : tenant r ≠ A) : m₀ id = none := by
  rw [h.mine]
  cases hm : m id with
  | none => rfl
  | some inst =>
    have hstored := (h.held hm).2.1
    rw [hrow, Option.map_some, Option.some.injEq] at hstored
    exact filter_loaded_other fun hA => hr (hstored.trans hA)

/-- What the second map has is a row of `A`, and the first map has it too. -/
theorem of_known (h : MapBeside tenant A row m m₀) (hknown : m₀ id ≠ none) :
    m₀ id = m id ∧ ∃ r, row id = some r ∧ tenant r = A := by
  obtain ⟨inst, hinst⟩ := Option.ne_none_iff_exists'.mp hknown
  have hmine := h.mine id
  rw [hinst, eq_comm, Option.filter_eq_some_iff] at hmine
  obtain ⟨r, hrow, hr⟩ := Option.map_eq_some_iff.mp (h.held hmine.1).2.1
  exact ⟨hinst.trans hmine.1.symm, r, hrow, hr.trans (of_decide_eq_true hmine.2)⟩

theorem attrs (h : MapBeside tenant A row m m₀) (id : Uuid) :
    (m₀ id).bind Instance.attrs = ((m id).bind Instance.attrs).filter fun r => tenant r = A := by
  rw [h.mine]
  cases hm : m id with
  | none => rfl
  | some inst =>
    have hcurrent := (h.held hm).1
    by_cases hA : tenant inst.loaded = A
    · rw [filter_loaded hA, Option.bind_some]
      unfold Instance.attrs
      split
      · rfl
      · exact (filter_mine (hcurrent.trans hA)).symm
    · rw [filter_loaded_other hA, Option.bind_none, Option.bind_some]
      unfold Instance.attrs
      split
      · rfl
      · exact (filter_other fun h => hA (hcurrent.symm.trans h)).symm

/-- What can be read is of the tenant whose row it is. -/
theorem stored (h : MapBeside tenant A row m m₀) {current : ρ}
    (hread : (m id).bind Instance.attrs = some current) :
    ∃ r, row id = some r ∧ tenant r = tenant current := by
  obtain ⟨inst, hinst, hattrs⟩ := Option.bind_eq_some_iff.mp hread
  obtain ⟨hcurrent, hrow, -⟩ := h.held hinst
  obtain ⟨r, hr, htenant⟩ := Option.map_eq_some_iff.mp hrow
  refine ⟨r, hr, htenant.trans ?_⟩
  unfold Instance.attrs at hattrs
  split at hattrs
  · cases hattrs
  · rw [← Option.some.inj hattrs, hcurrent]

/-- A row of `A` is read by both. -/
theorem load (h : MapBeside tenant A row m m₀) {r : ρ} (hrow : row id = some r) (hr : tenant r = A)
    (locked : Bool) : MapBeside tenant A row (Function.update m id (some (.ofRow r locked)))
      (Function.update m₀ id (some (.ofRow r locked))) where
  mine id' := by
    rcases eq_or_ne id' id with rfl | hne
    · rw [Function.update_self, Function.update_self]
      exact (filter_loaded hr).symm
    · rw [Function.update_of_ne hne, Function.update_of_ne hne]
      exact h.mine id'
  held {id' inst} hinst := by
    rcases eq_or_ne id' id with rfl | hne
    · rw [Function.update_self, Option.some.injEq] at hinst
      subst hinst
      exact ⟨rfl, by rw [hrow]; rfl, fun _ => rfl⟩
    · rw [Function.update_of_ne hne] at hinst
      exact h.held hinst

/-- A row of somebody else is read by the first alone. -/
theorem load_other (h : MapBeside tenant A row m m₀) {r : ρ} (hrow : row id = some r)
    (hr : tenant r ≠ A) (locked : Bool) :
    MapBeside tenant A row (Function.update m id (some (.ofRow r locked))) m₀ where
  mine id' := by
    rcases eq_or_ne id' id with rfl | hne
    · rw [Function.update_self, h.eq_none hrow hr]
      exact (filter_loaded_other hr).symm
    · rw [Function.update_of_ne hne]
      exact h.mine id'
  held {id' inst} hinst := by
    rcases eq_or_ne id' id with rfl | hne
    · rw [Function.update_self, Option.some.injEq] at hinst
      subst hinst
      exact ⟨rfl, by rw [hrow]; rfl, fun _ => rfl⟩
    · rw [Function.update_of_ne hne] at hinst
      exact h.held hinst

/-- Assigning to what the second map has. -/
theorem assign (h : MapBeside tenant A row m m₀) (hknown : m₀ id ≠ none) {current : ρ}
    (hcurrent : tenant current = A) :
    MapBeside tenant A row
      (Function.update m id ((m id).map fun inst => { inst with current := current }))
      (Function.update m₀ id ((m₀ id).map fun inst => { inst with current := current })) := by
  obtain ⟨heq, r, hrow, hr⟩ := h.of_known hknown
  have hloaded : ∀ {inst}, m id = some inst → tenant inst.loaded = A := by
    intro inst hinst
    have hstored := (h.held hinst).2.1
    rw [hrow, Option.map_some, Option.some.injEq] at hstored
    exact hstored.symm.trans hr
  refine ⟨fun id' => ?_, fun {id' inst} hinst => ?_⟩
  · rcases eq_or_ne id' id with rfl | hne
    · rw [Function.update_self, Function.update_self, heq]
      cases hm : m id' with
      | none => rfl
      | some inst =>
        have hA : tenant inst.loaded = A := hloaded hm
        have hassigned : tenant ({ inst with current := current } : Instance ρ).loaded = A := hA
        exact (filter_loaded hassigned).symm
    · rw [Function.update_of_ne hne, Function.update_of_ne hne]
      exact h.mine id'
  · rcases eq_or_ne id' id with rfl | hne
    · rw [Function.update_self] at hinst
      obtain ⟨inst₀, hinst₀, rfl⟩ := Option.map_eq_some_iff.mp hinst
      have hA := hloaded hinst₀
      exact ⟨hcurrent.trans hA.symm, (h.held hinst₀).2.1, fun hne => absurd hA hne⟩
    · rw [Function.update_of_ne hne] at hinst
      exact h.held hinst

theorem expire (h : MapBeside tenant A row m m₀) :
    MapBeside tenant A row (fun id => (m id).map Instance.expire)
      fun id => (m₀ id).map Instance.expire where
  mine id := by
    rw [h.mine]
    cases m id with
    | none => rfl
    | some inst =>
      by_cases hA : tenant inst.loaded = A
      · simp [Option.filter, Instance.expire, hA]
      · simp [Option.filter, Instance.expire, hA]
  held {id inst} hinst := by
    obtain ⟨inst₀, hinst₀, rfl⟩ := Option.map_eq_some_iff.mp hinst
    exact ⟨rfl, (h.held hinst₀).2.1, fun _ => rfl⟩

/-- After a commit the new rows are held too, and what was held is as the table has it. -/
theorem settle (h : MapBeside tenant A row m m₀) (new : Uuid → Option ρ)
    {m' m₀' : Uuid → Option (Instance ρ)}
    (hnew : ∀ {id r}, new id = some r → tenant r = A ∧ (row' id).map tenant = some A ∧
      m' id = some (.ofRow r) ∧ m₀' id = some (.ofRow r))
    (hold : ∀ {id}, new id = none →
      (∀ t, (row id).map tenant = some t → (row' id).map tenant = some t) ∧
        m' id = (m id).map Instance.flushed ∧ m₀' id = (m₀ id).map Instance.flushed) :
    MapBeside tenant A row' m' m₀' where
  mine id := by
    cases hid : new id with
    | some r =>
      obtain ⟨hA, -, hm', hm₀'⟩ := hnew hid
      rw [hm', hm₀']
      exact (filter_loaded hA).symm
    | none =>
      obtain ⟨-, hm', hm₀'⟩ := hold hid
      rw [hm', hm₀', h.mine]
      cases hm : m id with
      | none => rfl
      | some inst =>
        have hcurrent := (h.held hm).1
        by_cases hA : tenant inst.loaded = A
        · simp [Option.filter, Instance.flushed, hA, hcurrent]
        · simp [Option.filter, Instance.flushed, hA, hcurrent]
  held {id inst} hinst := by
    cases hid : new id with
    | some r =>
      obtain ⟨hA, hrow, hm', -⟩ := hnew hid
      rw [hm', Option.some.injEq] at hinst
      subst hinst
      exact ⟨rfl, hrow.trans (congrArg some hA.symm), fun _ => rfl⟩
    | none =>
      obtain ⟨hkeeps, hm', -⟩ := hold hid
      rw [hm'] at hinst
      obtain ⟨inst₀, hinst₀, rfl⟩ := Option.map_eq_some_iff.mp hinst
      obtain ⟨hcurrent, hrow, -⟩ := h.held hinst₀
      exact ⟨rfl, (hkeeps _ hrow).trans (congrArg some hcurrent.symm), fun _ => rfl⟩

end MapBeside

end FavlGateway.Registry
