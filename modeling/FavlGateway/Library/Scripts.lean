/-
  What SQL scripts keep.

  A rule of a schema reads columns that are there (`Schema.Closed`), and the rows satisfy the
  schema (`Schema.Admits`).  Each statement that goes through keeps both, whatever it changes, so a
  script does: **`run_admits`**.  Whether a script runs at all is decided by its catalogs and by the
  statements that may object to rows: **`run_quiet`**, **`run_quiet_but_one`**.
-/
import FavlGateway.Library.Sql

namespace FavlGateway.Library.Sql

/-! ## Catalogs whose rules read what is there -/

/-- Every column a rule reads is a column of the schema. -/
structure Schema.Closed (S : Schema) : Prop where
  columns : ∀ T ∈ S.tables, ∀ k ∈ T.constraints, ∀ c ∈ k.rule.columns, c ∈ T.columnNames
  references : ∀ T ∈ S.tables, ∀ k ∈ T.constraints, ∀ t c, k.rule.reference = some (t, c) →
    S.hasColumn t c = true

section Catalog

variable {S S' : Schema} {table column name : String} {f : Table → Table}

theorem Schema.hasColumn_iff : S.hasColumn table column = true ↔
    ∃ T ∈ S.tables, T.name = table ∧ column ∈ T.columnNames := by
  simp [Schema.hasColumn]

theorem Schema.resolves_iff {own : List String} {k : Rule} : S.resolves own k = true ↔
    (∀ c ∈ k.columns, c ∈ own) ∧ ∀ t c, k.reference = some (t, c) → S.hasColumn t c = true := by
  unfold Schema.resolves
  cases k.reference with
  | none => simp
  | some r =>
    obtain ⟨t, c⟩ := r
    simp only [Bool.and_eq_true, List.all_eq_true, List.contains_iff_mem, Option.all_some]
    constructor
    · rintro ⟨hcolumns, href⟩
      refine ⟨hcolumns, ?_⟩
      rintro t' c' heq
      cases heq
      exact href
    · rintro ⟨hcolumns, href⟩
      exact ⟨hcolumns, href t c rfl⟩

/-- No rule reads a column that is not there. -/
theorem Schema.Closed.unread (h : S.Closed) (hnew : S.hasColumn table column = false) {T : Table}
    (hT : T ∈ S.tables) {k : Constraint} (hk : k ∈ T.constraints) :
    ¬ k.rule.Mentions T.name table column := by
  rintro (⟨htable, hcolumn⟩ | href)
  · have hthere : S.hasColumn table column = true :=
      Schema.hasColumn_iff.mpr ⟨T, hT, htable, h.columns T hT k hk column hcolumn⟩
    rw [hnew] at hthere
    cases hthere
  · have hthere := h.references T hT k hk table column href
    rw [hnew] at hthere
    cases hthere

theorem Schema.mem_alter {T : Table} : T ∈ (S.alter table f).tables ↔
    ∃ T₀ ∈ S.tables, (if T₀.name = table then f T₀ else T₀) = T :=
  List.mem_map

theorem Schema.names_alter (hf : ∀ T, (f T).name = T.name) : (S.alter table f).names = S.names := by
  unfold Schema.names Schema.alter
  rw [List.map_map]
  apply List.map_congr_left
  intro T _
  show (if T.name = table then f T else T).name = T.name
  split
  · exact hf T
  · rfl

/-- A column that survives in its altered table. -/
theorem Schema.hasColumn_alter {t c : String} (hf : ∀ T, (f T).name = T.name)
    (hkeep : ∀ T, T.name = table → t = table → c ∈ T.columnNames → c ∈ (f T).columnNames)
    (h : S.hasColumn t c = true) : (S.alter table f).hasColumn t c = true := by
  obtain ⟨T, hT, rfl, hc⟩ := Schema.hasColumn_iff.mp h
  refine Schema.hasColumn_iff.mpr ⟨_, Schema.mem_alter.mpr ⟨T, hT, rfl⟩, ?_⟩
  split
  · rename_i htable
    exact ⟨hf T, hkeep T htable htable hc⟩
  · exact ⟨rfl, hc⟩

/-! What each statement that goes through has found, and what it makes of the tables. -/

theorem catalog_createTable {T : Table} (h : (Ddl.createTable T).catalog S = .ok S') :
    T.name ∉ S.names ∧ (∀ k ∈ T.constraints, S.resolves T.columnNames k.rule = true) ∧
      S'.tables = S.tables ++ [T] := by
  simp only [Ddl.catalog] at h
  split at h
  · cases h
  · rename_i hfresh
    split at h
    · rename_i hresolves
      split at h
      · cases h
        refine ⟨?_, List.all_eq_true.mp hresolves, rfl⟩
        intro hname
        apply hfresh
        left
        simp [Schema.relations, hname]
      · cases h
    · cases h

theorem catalog_dropTable (h : (Ddl.dropTable table).catalog S = .ok S') :
    S.dependsOn table = false ∧ S'.tables = S.tables.filter fun T => T.name ≠ table := by
  simp only [Ddl.catalog] at h
  split at h
  · cases h
  · split at h
    · cases h
    · rename_i hdepends
      cases h
      exact ⟨by simpa using hdepends, rfl⟩

theorem catalog_addColumn {c : Column} (h : (Ddl.addColumn table c).catalog S = .ok S') :
    S.hasColumn table c.name = false ∧ c.defaultFits = true ∧
      S' = S.alter table fun T => { T with columns := T.columns ++ [c] } := by
  simp only [Ddl.catalog] at h
  split at h
  · cases h
  · split at h
    · cases h
    · rename_i hnew
      split at h
      · rename_i hfits
        cases h
        exact ⟨by simpa using hnew, hfits, rfl⟩
      · cases h

theorem catalog_dropColumn (h : (Ddl.dropColumn table column).catalog S = .ok S') :
    S.refersTo table column = false ∧ S'.tables = (S.alter table fun T =>
      { T with
        columns := T.columns.filter fun c => c.name ≠ column
        constraints := T.constraints.filter fun k => column ∉ k.rule.columns }).tables := by
  simp only [Ddl.catalog] at h
  split at h
  · split at h
    · cases h
    · rename_i hrefers
      cases h
      exact ⟨by simpa using hrefers, rfl⟩
  · cases h

theorem catalog_addConstraint {k : Constraint} (h : (Ddl.addConstraint table k).catalog S = .ok S') :
    (∀ T ∈ S.tables, T.name = table → S.resolves T.columnNames k.rule = true) ∧
      S' = S.alter table fun T => { T with constraints := T.constraints ++ [k] } := by
  simp only [Ddl.catalog] at h
  split at h
  · cases h
  · split at h
    · cases h
    · split at h
      · rename_i hresolves
        cases h
        refine ⟨?_, rfl⟩
        intro T hT htable
        simpa [htable] using List.all_eq_true.mp hresolves T hT
      · cases h

theorem catalog_dropConstraint (h : (Ddl.dropConstraint name table).catalog S = .ok S') :
    S' = S.alter table fun T =>
      { T with constraints := T.constraints.filter fun k => k.name ≠ name } := by
  simp only [Ddl.catalog] at h
  split at h
  · split at h
    · cases h
    · cases h
      rfl
  · cases h

/-- The statements that leave every table as it is. -/
def Ddl.LeavesTables : Ddl → Bool
  | .createIndex _ | .dropIndex _ | .update _ _ _ _ | .createFunction _ | .dropFunction _
  | .createTrigger _ | .dropTrigger _ _ => true
  | _ => false

theorem catalog_leavesTables {op : Ddl} (hop : op.LeavesTables = true)
    (h : op.catalog S = .ok S') : S'.tables = S.tables := by
  cases op with
  | createTable _ | dropTable _ | addColumn _ _ | dropColumn _ _ | addConstraint _ _
  | dropConstraint _ _ => cases hop
  | createFunction _ | dropTrigger _ _ =>
    cases h
    rfl
  | dropIndex _ | update _ _ _ _ | dropFunction _ =>
    simp only [Ddl.catalog] at h
    split at h <;> cases h
    rfl
  | createIndex _ | createTrigger _ =>
    simp only [Ddl.catalog] at h
    split at h
    · cases h
    · split at h <;> cases h
      rfl

/-! Each statement keeps a catalog closed. -/

/-- A change of a table that keeps its columns and brings only rules that resolve. -/
theorem Schema.Closed.alter (h : S.Closed) (hname : ∀ T, (f T).name = T.name)
    (hcolumns : ∀ T, ∀ c ∈ T.columnNames, c ∈ (f T).columnNames)
    (hrules : ∀ T ∈ S.tables, T.name = table → ∀ k ∈ (f T).constraints,
      k ∈ T.constraints ∨ S.resolves T.columnNames k.rule = true) :
    (S.alter table f).Closed := by
  have hkeep : ∀ t c, S.hasColumn t c = true → (S.alter table f).hasColumn t c = true := by
    intro t c hc
    exact Schema.hasColumn_alter hname (fun T _ _ => hcolumns T c) hc
  have hresolves : ∀ T ∈ S.tables, T.name = table → ∀ k ∈ (f T).constraints,
      S.resolves T.columnNames k.rule = true := by
    intro T hT htable k hk
    rcases hrules T hT htable k hk with hold | hnew
    · exact Schema.resolves_iff.mpr ⟨h.columns T hT k hold, h.references T hT k hold⟩
    · exact hnew
  constructor
  · intro T' hT' k hk c hc
    obtain ⟨T, hT, rfl⟩ := Schema.mem_alter.mp hT'
    split at hk
    · rename_i htable
      rw [if_pos htable]
      exact hcolumns T c ((Schema.resolves_iff.mp (hresolves T hT htable k hk)).1 c hc)
    · rename_i htable
      rw [if_neg htable]
      exact h.columns T hT k hk c hc
  · intro T' hT' k hk t c href
    obtain ⟨T, hT, rfl⟩ := Schema.mem_alter.mp hT'
    apply hkeep
    split at hk
    · rename_i htable
      exact (Schema.resolves_iff.mp (hresolves T hT htable k hk)).2 t c href
    · exact h.references T hT k hk t c href

theorem Schema.Closed.of_tables (h : S.Closed) (htables : S'.tables = S.tables) : S'.Closed := by
  constructor
  · rw [htables]
    exact h.columns
  · intro T hT k hk t c href
    rw [htables] at hT
    simpa [Schema.hasColumn, htables] using h.references T hT k hk t c href

theorem closed_createTable {T : Table} (h : S.Closed)
    (hS : (Ddl.createTable T).catalog S = .ok S') : S'.Closed := by
  obtain ⟨-, hresolves, htables⟩ := catalog_createTable hS
  have hkeep : ∀ t c, S.hasColumn t c = true → S'.hasColumn t c = true := by
    intro t c hc
    obtain ⟨T₀, hT₀, hfound⟩ := Schema.hasColumn_iff.mp hc
    refine Schema.hasColumn_iff.mpr ⟨T₀, ?_, hfound⟩
    rw [htables]
    exact List.mem_append_left _ hT₀
  constructor
  · intro T' hT' k hk
    rw [htables, List.mem_append, List.mem_singleton] at hT'
    rcases hT' with hold | rfl
    · exact h.columns T' hold k hk
    · exact (Schema.resolves_iff.mp (hresolves k hk)).1
  · intro T' hT' k hk t c href
    rw [htables, List.mem_append, List.mem_singleton] at hT'
    apply hkeep
    rcases hT' with hold | rfl
    · exact h.references T' hold k hk t c href
    · exact (Schema.resolves_iff.mp (hresolves k hk)).2 t c href

theorem closed_dropTable (h : S.Closed) (hS : (Ddl.dropTable table).catalog S = .ok S') :
    S'.Closed := by
  obtain ⟨hdepends, htables⟩ := catalog_dropTable hS
  constructor
  · intro T hT
    rw [htables] at hT
    exact h.columns T (List.mem_of_mem_filter hT)
  · intro T hT k hk t c href
    rw [htables, List.mem_filter] at hT
    obtain ⟨hT, hname⟩ := hT
    obtain ⟨P, hP, rfl, hc⟩ := Schema.hasColumn_iff.mp (h.references T hT k hk t c href)
    refine Schema.hasColumn_iff.mpr ⟨P, ?_, rfl, hc⟩
    rw [htables, List.mem_filter]
    refine ⟨hP, ?_⟩
    -- a table that another refers to is not the one dropped
    by_contra htable
    have hdropped : P.name = table := by simpa using htable
    have hother : T.name ≠ table := by simpa using hname
    have hrefers : S.dependsOn table = true := by
      simp only [Schema.dependsOn, List.any_eq_true, Bool.and_eq_true, decide_eq_true_eq]
      exact ⟨T, hT, hother, k, hk, by simp [href, hdropped]⟩
    rw [hdepends] at hrefers
    cases hrefers

theorem closed_dropColumn (h : S.Closed) (hS : (Ddl.dropColumn table column).catalog S = .ok S') :
    S'.Closed := by
  obtain ⟨hrefers, htables⟩ := catalog_dropColumn hS
  refine Schema.Closed.of_tables ?_ htables
  constructor
  · intro T' hT' k hk c hc
    obtain ⟨T, hT, rfl⟩ := Schema.mem_alter.mp hT'
    split at hk
    · rename_i htable
      rw [if_pos htable]
      obtain ⟨hk, hcolumn⟩ := List.mem_filter.mp hk
      have hthere : c ∈ T.columnNames := h.columns T hT k hk c hc
      obtain ⟨d, hd, rfl⟩ := List.mem_map.mp hthere
      refine List.mem_map.mpr ⟨d, List.mem_filter.mpr ⟨hd, ?_⟩, rfl⟩
      have hne : d.name ≠ column := by
        rintro rfl
        simp [hc] at hcolumn
      simpa using hne
    · rename_i htable
      rw [if_neg htable]
      exact h.columns T hT k hk c hc
  · intro T' hT' k hk t c href
    obtain ⟨T, hT, rfl⟩ := Schema.mem_alter.mp hT'
    have hold : k ∈ T.constraints := by
      split at hk
      · exact List.mem_of_mem_filter hk
      · exact hk
    refine Schema.hasColumn_alter (fun _ => rfl) ?_ (h.references T hT k hold t c href)
    rintro P - rfl hc
    obtain ⟨d, hd, rfl⟩ := List.mem_map.mp hc
    refine List.mem_map.mpr ⟨d, List.mem_filter.mpr ⟨hd, ?_⟩, rfl⟩
    have hne : d.name ≠ column := by
      rintro rfl
      have hthere : S.refersTo t d.name = true := by
        simp only [Schema.refersTo, List.any_eq_true, decide_eq_true_eq]
        exact ⟨T, hT, k, hold, href⟩
      rw [hrefers] at hthere
      cases hthere
    simpa using hne

/-- **A statement keeps a catalog closed.** -/
theorem closed_catalog {op : Ddl} (h : S.Closed) (hS : op.catalog S = .ok S') : S'.Closed := by
  cases op with
  | createTable T => exact closed_createTable h hS
  | dropTable table => exact closed_dropTable h hS
  | dropColumn table column => exact closed_dropColumn h hS
  | addColumn table c =>
    obtain ⟨-, -, rfl⟩ := catalog_addColumn hS
    refine h.alter (fun _ => rfl) ?_ fun T _ _ k hk => Or.inl hk
    intro T c hc
    simp only [Table.columnNames, List.map_append]
    exact List.mem_append_left _ hc
  | addConstraint table k =>
    obtain ⟨hresolves, rfl⟩ := catalog_addConstraint hS
    refine h.alter (fun _ => rfl) (fun _ _ hc => hc) ?_
    intro T hT htable k' hk'
    rcases List.mem_append.mp hk' with hold | hnew
    · exact Or.inl hold
    · rw [List.mem_singleton.mp hnew]
      exact Or.inr (hresolves T hT htable)
  | dropConstraint name table =>
    rw [catalog_dropConstraint hS]
    exact h.alter (fun _ => rfl) (fun _ _ hc => hc) fun T _ _ k hk =>
      Or.inl (List.mem_of_mem_filter hk)
  | createIndex _ | dropIndex _ | update _ _ _ _ | createFunction _ | dropFunction _
  | createTrigger _ | dropTrigger _ _ => exact h.of_tables (catalog_leavesTables rfl hS)

end Catalog

/-! ## What a script leaves -/

section Admission

variable {S S' : Schema} {C C' : Content} {table column name : String} {now : Int}

theorem Rule.holds_of_empty {k : Rule} {owner : String} (h : C owner = []) : k.Holds C owner := by
  cases k <;> simp [Rule.Holds, h]

/-- A rule reads its own rows and those it refers to. -/
theorem Rule.holds_congr {k : Rule} {owner : String} (hown : C' owner = C owner)
    (hreference : ∀ t c, k.reference = some (t, c) → C' t = C t) (h : k.Holds C owner) :
    k.Holds C' owner := by
  cases k with
  | primaryKey cs | unique cs | check c values => simpa [Rule.Holds, hown] using h
  | foreignKey c other target =>
    have hother : C' other = C other := hreference other target rfl
    simpa [Rule.Holds, hown, hother] using h

/-- A table that asks for less. -/
theorem Table.Admits.mono {T T' : Table} (h : T.Admits C) (hname : T'.name = T.name)
    (hcolumns : ∀ c ∈ T'.columns, c ∈ T.columns)
    (hrules : ∀ k ∈ T'.constraints, k ∈ T.constraints) : T'.Admits C := by
  unfold Table.Admits
  rw [hname]
  exact ⟨fun r hr c hc => h.1 r hr c (hcolumns c hc), fun k hk => h.2 k (hrules k hk)⟩

theorem Column.accepts_initial {c : Column} (hfits : c.defaultFits = true)
    (h : c.nullable = true ∨ c.default ≠ none) : c.accepts (c.initial now) = true := by
  unfold Column.defaultFits at hfits
  unfold Column.initial
  cases hdefault : c.default with
  | none =>
    rcases h with hnullable | hsome
    · exact hnullable
    · exact absurd hdefault hsome
  | some d =>
    rw [hdefault] at hfits
    cases d with
    | literal v => exact hfits
    | now =>
      have htype : c.type = .timestamptz := by simpa using hfits
      simp [Column.accepts, htype, DataType.holds]

/-- A column that is not nullable. -/
theorem Table.Admits.notNull {T : Table} {c : Column} {r : Row} (h : T.Admits C)
    (hc : c ∈ T.columns) (hnull : c.nullable = false) (hr : r ∈ C T.name) : r c.name ≠ .null := by
  intro hvalue
  have haccepts := h.1 r hr c hc
  rw [hvalue] at haccepts
  exact absurd (hnull.symm.trans haccepts) (by decide)

/-- New values leave no rows where there were none. -/
theorem Content.assign_nil {t : String} {g : Row → Value} (h : C t = []) :
    C.assign table column g t = [] := by
  simp [Content.assign, h]

theorem admits_createTable {T : Table} (h : S.Admits C)
    (hS : (Ddl.createTable T).catalog S = .ok S') :
    S'.Admits ((Ddl.createTable T).effect now C) := by
  obtain ⟨hname, -, htables⟩ := catalog_createTable hS
  have hsame : (Ddl.createTable T).effect now C = C := by
    show Function.update C T.name [] = C
    rw [← h.absent T.name hname]
    exact Function.update_eq_self _ _
  rw [hsame]
  constructor
  · intro T' hT'
    rw [htables, List.mem_append, List.mem_singleton] at hT'
    rcases hT' with hold | rfl
    · exact h.tables T' hold
    · have hempty : C T'.name = [] := h.absent T'.name hname
      exact ⟨by simp [hempty], fun k _ => Rule.holds_of_empty hempty⟩
  · intro t ht
    apply h.absent t
    intro hold
    apply ht
    simp only [Schema.names, htables, List.map_append]
    exact List.mem_append_left _ hold

theorem admits_dropTable (h : S.Admits C) (hS : (Ddl.dropTable table).catalog S = .ok S') :
    S'.Admits ((Ddl.dropTable table).effect now C) := by
  obtain ⟨hdepends, htables⟩ := catalog_dropTable hS
  show S'.Admits (Function.update C table [])
  constructor
  · intro T hT
    rw [htables, List.mem_filter] at hT
    obtain ⟨hT, hname⟩ := hT
    have hne : T.name ≠ table := by simpa using hname
    have hrows : Function.update C table [] T.name = C T.name := Function.update_of_ne hne _ _
    refine ⟨by rw [hrows]; exact (h.tables T hT).1, ?_⟩
    intro k hk
    refine Rule.holds_congr hrows ?_ ((h.tables T hT).2 k hk)
    intro t c href
    apply Function.update_of_ne
    rintro rfl
    have hrefers : S.dependsOn t = true := by
      simp only [Schema.dependsOn, List.any_eq_true, Bool.and_eq_true, decide_eq_true_eq]
      exact ⟨T, hT, hne, k, hk, by simp [href]⟩
    rw [hdepends] at hrefers
    cases hrefers
  · intro t ht
    by_cases htable : t = table
    · subst htable
      exact Function.update_self _ _ _
    · rw [Function.update_of_ne htable]
      apply h.absent t
      intro hold
      obtain ⟨T, hT, rfl⟩ := List.mem_map.mp hold
      apply ht
      refine List.mem_map.mpr ⟨T, ?_, rfl⟩
      rw [htables, List.mem_filter]
      exact ⟨hT, by simpa using htable⟩

theorem admits_addColumn {c : Column} (hclosed : S.Closed) (h : S.Admits C)
    (hS : (Ddl.addColumn table c).catalog S = .ok S')
    (hno : (Ddl.addColumn table c).objection S C = none) :
    S'.Admits ((Ddl.addColumn table c).effect now C) := by
  obtain ⟨hnew, hfits, rfl⟩ := catalog_addColumn hS
  show (S.alter table _).Admits (C.assign table c.name fun _ => c.initial now)
  have hinitial : C table ≠ [] → c.accepts (c.initial now) = true := by
    intro hrows
    apply Column.accepts_initial hfits
    by_contra hnull
    push Not at hnull
    simp [Ddl.objection, hnull, hrows] at hno
  constructor
  · intro T' hT'
    obtain ⟨T, hT, rfl⟩ := Schema.mem_alter.mp hT'
    -- the columns and rules that were there do not see the new column
    have hold : T.Admits (C.assign table c.name fun _ => c.initial now) := by
      refine Table.admits_assign (h.tables T hT) ?_ ?_
      · intro htable d hd hname
        have hthere : S.hasColumn table c.name = true :=
          Schema.hasColumn_iff.mpr ⟨T, hT, htable, List.mem_map.mpr ⟨d, hd, hname⟩⟩
        rw [hnew] at hthere
        cases hthere
      · intro k hk hmentions
        exact absurd hmentions (hclosed.unread hnew hT hk)
    split
    · rename_i htable
      refine ⟨?_, hold.2⟩
      intro r hr d hd
      rcases List.mem_append.mp hd with hd | hd
      · exact hold.1 r hr d hd
      · rw [List.mem_singleton.mp hd]
        obtain ⟨r₀, hr₀, rfl⟩ := Content.mem_assign.mp hr
        subst htable
        rw [Row.touch_same]
        exact hinitial (List.ne_nil_of_mem hr₀)
    · exact hold
  · intro t ht
    rw [Schema.names_alter fun _ => by rfl] at ht
    exact Content.assign_nil (h.absent t ht)

theorem admits_dropColumn (h : S.Admits C) (hS : (Ddl.dropColumn table column).catalog S = .ok S') :
    S'.Admits ((Ddl.dropColumn table column).effect now C) := by
  obtain ⟨hrefers, htables⟩ := catalog_dropColumn hS
  show S'.Admits (C.assign table column fun _ => .null)
  constructor
  · intro T' hT'
    rw [htables] at hT'
    obtain ⟨T, hT, rfl⟩ := Schema.mem_alter.mp hT'
    have hrefs : ∀ k ∈ T.constraints, k.rule.reference ≠ some (table, column) := by
      intro k hk href
      have hthere : S.refersTo table column = true := by
        simp only [Schema.refersTo, List.any_eq_true, decide_eq_true_eq]
        exact ⟨T, hT, k, hk, href⟩
      rw [hrefers] at hthere
      cases hthere
    split
    · rename_i htable
      refine Table.admits_assign ((h.tables T hT).mono rfl ?_ ?_) ?_ ?_
      · exact fun c hc => List.mem_of_mem_filter hc
      · exact fun k hk => List.mem_of_mem_filter hk
      · intro _ c hc hname
        simpa [hname] using (List.mem_filter.mp hc).2
      · rintro k hk (⟨-, hcolumn⟩ | href)
        · simpa [hcolumn] using (List.mem_filter.mp hk).2
        · exact absurd href (hrefs k (List.mem_of_mem_filter hk))
    · rename_i htable
      refine Table.admits_assign (h.tables T hT) (fun hname => absurd hname htable) ?_
      rintro k hk (⟨hname, -⟩ | href)
      · exact absurd hname htable
      · exact absurd href (hrefs k hk)
  · intro t ht
    have hnames : S'.names = S.names := by
      unfold Schema.names
      rw [htables]
      exact Schema.names_alter fun _ => rfl
    rw [hnames] at ht
    exact Content.assign_nil (h.absent t ht)

theorem admits_addConstraint {k : Constraint} (h : S.Admits C)
    (hS : (Ddl.addConstraint table k).catalog S = .ok S')
    (hno : (Ddl.addConstraint table k).objection S C = none) : S'.Admits C := by
  obtain ⟨-, rfl⟩ := catalog_addConstraint hS
  have hholds : k.rule.Holds C table := by
    by_contra hbroken
    simp [Ddl.objection, hbroken] at hno
  constructor
  · intro T' hT'
    obtain ⟨T, hT, rfl⟩ := Schema.mem_alter.mp hT'
    split
    · rename_i htable
      refine ⟨(h.tables T hT).1, ?_⟩
      intro k' hk'
      rcases List.mem_append.mp hk' with hold | hnew
      · exact (h.tables T hT).2 k' hold
      · rw [List.mem_singleton.mp hnew]
        show k.rule.Holds C T.name
        rw [htable]
        exact hholds
    · exact h.tables T hT
  · intro t ht
    rw [Schema.names_alter fun _ => by rfl] at ht
    exact h.absent t ht

theorem admits_dropConstraint (h : S.Admits C)
    (hS : (Ddl.dropConstraint name table).catalog S = .ok S') : S'.Admits C := by
  rw [catalog_dropConstraint hS]
  constructor
  · intro T' hT'
    obtain ⟨T, hT, rfl⟩ := Schema.mem_alter.mp hT'
    split
    · exact (h.tables T hT).mono rfl (fun _ hc => hc) fun _ hk => List.mem_of_mem_filter hk
    · exact h.tables T hT
  · intro t ht
    rw [Schema.names_alter fun _ => by rfl] at ht
    exact h.absent t ht

theorem Schema.Admits.of_tables (h : S.Admits C) (htables : S'.tables = S.tables) :
    S'.Admits C := by
  constructor
  · rw [htables]
    exact h.tables
  · intro t ht
    apply h.absent t
    rwa [Schema.names, htables] at ht

/-- **A statement that takes the rows leaves rows that the new schema admits.** -/
theorem admits_statement {op : Ddl} (hclosed : S.Closed) (h : S.Admits C)
    (hS : op.catalog S = .ok S') (hno : op.objection S C = none) :
    S'.Admits (op.effect now C) := by
  cases op with
  | createTable T => exact admits_createTable h hS
  | dropTable table => exact admits_dropTable h hS
  | addColumn table c => exact admits_addColumn hclosed h hS hno
  | dropColumn table column => exact admits_dropColumn h hS
  | addConstraint table k => exact admits_addConstraint h hS hno
  | dropConstraint name table => exact admits_dropConstraint h hS
  | update table column value condition =>
    have htables : S'.tables = S.tables := catalog_leavesTables rfl hS
    refine Schema.Admits.of_tables ?_ htables
    constructor
    · simp only [Ddl.objection] at hno
      split at hno
      · cases hno
      · split at hno
        · assumption
        · cases hno
    · intro t ht
      exact Content.assign_nil (h.absent t ht)
  | createIndex _ | dropIndex _ | createFunction _ | dropFunction _
  | createTrigger _ | dropTrigger _ _ => exact h.of_tables (catalog_leavesTables rfl hS)

end Admission

/-! ## Runs -/

section Runs

variable {S S' : Schema} {C : Content} {db db' : Database} {op : Ddl} {ops : List Ddl} {now : Int}

theorem exec_ok : exec now db op = .ok db' ↔ op.catalog db.schema = .ok db'.schema ∧
    op.objection db.schema db.content = none ∧ db'.content = op.effect now db.content := by
  obtain ⟨S', C'⟩ := db'
  unfold exec
  cases hS : op.catalog db.schema with
  | error e => simp
  | ok S =>
    cases hno : op.objection db.schema db.content with
    | some e => simp
    | none => simp [eq_comm]

theorem run_cons {ops : List Ddl} :
    run now db (op :: ops) = (exec now db op).bind fun db' => run now db' ops := rfl

theorem catalogs_cons : catalogs S (op :: ops) = (op.catalog S).bind fun S' => catalogs S' ops := rfl

/-- A script runs if its first statement does, and the rest from there. -/
theorem run_cons_ok : run now db (op :: ops) = .ok db' ↔
    ∃ db₁, exec now db op = .ok db₁ ∧ run now db₁ ops = .ok db' := by
  rw [run_cons]
  cases exec now db op with
  | error e => simp [Except.bind]
  | ok db₁ => simp [Except.bind]

theorem catalogs_cons_ok : catalogs S (op :: ops) = .ok S' ↔
    ∃ S₁, op.catalog S = .ok S₁ ∧ catalogs S₁ ops = .ok S' := by
  rw [catalogs_cons]
  cases op.catalog S with
  | error e => simp [Except.bind]
  | ok S₁ => simp [Except.bind]

/-- **What a script leaves**: the catalog it makes, closed, and rows that it admits. -/
theorem run_admits (hclosed : db.schema.Closed) (h : db.schema.Admits db.content)
    (hrun : run now db ops = .ok db') :
    catalogs db.schema ops = .ok db'.schema ∧ db'.schema.Closed ∧
      db'.schema.Admits db'.content := by
  induction ops generalizing db with
  | nil =>
    cases hrun
    exact ⟨rfl, hclosed, h⟩
  | cons op ops ih =>
    obtain ⟨db₁, hexec, hrest⟩ := run_cons_ok.mp hrun
    obtain ⟨hS, hno, hC⟩ := exec_ok.mp hexec
    have hadmits : db₁.schema.Admits db₁.content := by
      rw [hC]
      exact admits_statement hclosed h hS hno
    obtain ⟨hcatalogs, hends⟩ := ih (closed_catalog hclosed hS) hadmits hrest
    exact ⟨catalogs_cons_ok.mpr ⟨db₁.schema, hS, hcatalogs⟩, hends⟩

/-- A script of upgrades leaves a closed catalog. -/
theorem closed_catalogs (hclosed : S.Closed) (h : catalogs S ops = .ok S') : S'.Closed := by
  induction ops generalizing S with
  | nil =>
    cases h
    exact hclosed
  | cons op ops ih =>
    obtain ⟨S₁, hS, hrest⟩ := catalogs_cons_ok.mp h
    exact ih (closed_catalog hclosed hS) hrest

theorem closed_empty : Schema.Closed {} := ⟨nofun, nofun⟩

theorem Ddl.objection_of_quiet (h : op.Quiet = true) : op.objection S C = none := by
  cases op with
  | addColumn table c =>
    simp only [Ddl.Quiet, Bool.or_eq_true, Option.isSome_iff_ne_none] at h
    apply if_neg
    rintro ⟨hnone, hnull, -⟩
    rcases h with hnullable | hsome
    · exact hnull hnullable
    · exact hsome hnone
  | addConstraint _ _ | update _ _ _ _ => cases h
  | _ => rfl

/-- **A quiet script runs on any rows**, if the catalogs go through. -/
theorem run_quiet (hquiet : ops.all Ddl.Quiet = true) (h : catalogs S ops = .ok S') :
    run now ⟨S, C⟩ ops = .ok ⟨S', effects now C ops⟩ := by
  induction ops generalizing S C with
  | nil =>
    cases h
    rfl
  | cons op ops ih =>
    simp only [List.all_cons, Bool.and_eq_true] at hquiet
    obtain ⟨S₁, hS, hrest⟩ := catalogs_cons_ok.mp h
    refine run_cons_ok.mpr ⟨⟨S₁, op.effect now C⟩, ?_, ih hquiet.2 hrest⟩
    exact exec_ok.mpr ⟨hS, Ddl.objection_of_quiet hquiet.1, rfl⟩

/-- A script in two parts. -/
theorem run_append_ok {ops' : List Ddl} : run now db (ops ++ ops') = .ok db' ↔
    ∃ db₁, run now db ops = .ok db₁ ∧ run now db₁ ops' = .ok db' := by
  unfold run
  rw [List.foldlM_append]
  cases List.foldlM (exec now) db ops with
  | error e => simp [bind, Except.bind]
  | ok db₁ => simp [bind, Except.bind]

theorem catalogs_append_ok {ops' : List Ddl} : catalogs S (ops ++ ops') = .ok S' ↔
    ∃ S₁, catalogs S ops = .ok S₁ ∧ catalogs S₁ ops' = .ok S' := by
  unfold catalogs
  rw [List.foldlM_append]
  cases List.foldlM Ddl.catalog S ops with
  | error e => simp [bind, Except.bind]
  | ok S₁ => simp [bind, Except.bind]

/-- **A script with one statement that may object** runs if that one does not. -/
theorem run_quiet_but_one {before after : List Ddl} {S₁ : Schema}
    (hbefore : before.all Ddl.Quiet = true) (hafter : after.all Ddl.Quiet = true)
    (hS₁ : catalogs S before = .ok S₁) (h : catalogs S (before ++ op :: after) = .ok S') :
    (∃ db, run now ⟨S, C⟩ (before ++ op :: after) = .ok db) ↔
      op.objection S₁ (effects now C before) = none := by
  obtain ⟨S₁', hS₁', hrest⟩ := catalogs_append_ok.mp h
  have hsame : S₁' = S₁ := Except.ok.inj (hS₁'.symm.trans hS₁)
  subst hsame
  obtain ⟨S₂, hS₂, hlast⟩ := catalogs_cons_ok.mp hrest
  have hfirst := @run_quiet S S₁' C before now hbefore hS₁
  constructor
  · rintro ⟨db, hrun⟩
    obtain ⟨db₁, hdb₁, hrun⟩ := run_append_ok.mp hrun
    have hsame : db₁ = ⟨S₁', effects now C before⟩ := Except.ok.inj (hdb₁.symm.trans hfirst)
    subst hsame
    obtain ⟨db₂, hexec, -⟩ := run_cons_ok.mp hrun
    exact (exec_ok.mp hexec).2.1
  · intro hno
    have hexec : exec now ⟨S₁', effects now C before⟩ op =
        .ok ⟨S₂, op.effect now (effects now C before)⟩ := exec_ok.mpr ⟨hS₂, hno, rfl⟩
    have hends := @run_quiet S₂ S' (op.effect now (effects now C before)) after now hafter hlast
    exact ⟨_, run_append_ok.mpr ⟨_, hfirst, run_cons_ok.mpr ⟨_, hexec, hends⟩⟩⟩

/-- An UPDATE whose values fit their column and keep the rules that read it. -/
theorem objection_update {table column : String} {value condition : Expr} (h : S.Admits C)
    (htriggers : ∀ t ∈ S.triggers, t.table ≠ table)
    (hcolumn : ∀ T ∈ S.tables, T.name = table → ∀ c ∈ T.columns, c.name = column →
      ∀ r ∈ C table, c.accepts (Ddl.written column value condition r) = true)
    (hrules : ∀ T ∈ S.tables, ∀ k ∈ T.constraints, k.rule.Mentions T.name table column →
      k.rule.Holds (C.assign table column (Ddl.written column value condition)) T.name) :
    (Ddl.update table column value condition).objection S C = none := by
  have hadmits : ∀ T ∈ S.tables,
      T.Admits (C.assign table column (Ddl.written column value condition)) := by
    intro T hT
    exact Table.admits_assign (h.tables T hT) (hcolumn T hT) (hrules T hT)
  have hfree : ¬ ((∃ t ∈ S.triggers, t.table = table) ∧
      ∃ r ∈ C table, condition.eval r = .boolean true) := by
    rintro ⟨⟨t, ht, htable⟩, -⟩
    exact htriggers t ht htable
  exact (if_neg hfree).trans (if_pos hadmits)

end Runs

/-! ## Schemas up to the order of their entries -/

def Table.Alike (T T' : Table) : Prop :=
  T.name = T'.name ∧ T.columns.Perm T'.columns ∧ T.constraints.Perm T'.constraints

instance (T T' : Table) : Decidable (T.Alike T') := inferInstanceAs (Decidable (_ ∧ _ ∧ _))

/-- The same tables, each with the same columns and constraints, and the same indexes, functions
    and triggers. -/
def Schema.Alike (S S' : Schema) : Prop :=
  (∀ T ∈ S.tables, ∃ T' ∈ S'.tables, T.Alike T') ∧
    (∀ T' ∈ S'.tables, ∃ T ∈ S.tables, T.Alike T') ∧
    S.indexes.Perm S'.indexes ∧ S.functions.Perm S'.functions ∧ S.triggers.Perm S'.triggers

instance (S S' : Schema) : Decidable (S.Alike S') := inferInstanceAs (Decidable (_ ∧ _))

/-- Schemas that are alike admit the same rows. -/
theorem Schema.Alike.admits {S S' : Schema} {C : Content} (h : S.Alike S') (hC : S.Admits C) :
    S'.Admits C := by
  obtain ⟨hforth, hback, -⟩ := h
  constructor
  · intro T' hT'
    obtain ⟨T, hT, hname, hcolumns, hrules⟩ := hback T' hT'
    exact (hC.tables T hT).mono hname.symm (fun c hc => hcolumns.mem_iff.mpr hc)
      fun k hk => hrules.mem_iff.mpr hk
  · intro t ht
    apply hC.absent t
    intro hold
    obtain ⟨T, hT, rfl⟩ := List.mem_map.mp hold
    obtain ⟨T', hT', hname, -⟩ := hforth T hT
    exact ht (List.mem_map.mpr ⟨T', hT', hname.symm⟩)

end FavlGateway.Library.Sql
