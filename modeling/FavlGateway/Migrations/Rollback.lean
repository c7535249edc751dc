/-
  Rolling a revision back on the data it admits.

  Each revision's `downgrade` runs on the schema its chain has reached, whatever rows are stored
  under it.  Eleven of the thirteen revisions object to nothing the schema admits or first move the
  rows that a narrower rule forbids.  Two restore `UNIQUE (name)` over rows that were written under
  `UNIQUE (tenant_id, name)`: they roll back when no two rows share a name, and only then.

  **`downgrade_succeeds_iff`** says so for every revision of both chains and every content.
-/
import FavlGateway.Library.Scripts
import FavlGateway.Migrations.ConnectorRegistry
import FavlGateway.Migrations.Orchestrator
import Mathlib.Tactic.IntervalCases

namespace FavlGateway.Migrations

open FavlGateway.Library.Sql

/-! ## The chains -/

/-- The services with a database of their own. -/
inductive Service where
  | connectorRegistry
  | orchestrator
  deriving DecidableEq

def Service.migrations : Service → List Migration
  | connectorRegistry => ConnectorRegistry.migrations
  | orchestrator => Orchestrator.migrations

example (s : Service) : Linear s.migrations = true := by
  cases s <;> decide +kernel

/-- The schema after the first `n` upgrades. -/
def Service.schemaAt (s : Service) (n : Nat) : Schema :=
  match schemaOf (s.migrations.take n) with
  | .ok S => S
  | .error _ => {}

theorem Service.schemaOf_migrations (s : Service) : ∃ S, schemaOf s.migrations = .ok S := by
  have hok : (schemaOf s.migrations).isOk = true := by
    cases s <;> decide +kernel
  cases h : schemaOf s.migrations with
  | ok S => exact ⟨S, rfl⟩
  | error e =>
    rw [h] at hok
    cases hok

/-- Every upgrade goes through. -/
theorem Service.schemaOf_take (s : Service) (n : Nat) :
    schemaOf (s.migrations.take n) = .ok (s.schemaAt n) := by
  obtain ⟨S, hS⟩ := s.schemaOf_migrations
  have hsplit : s.migrations.flatMap Migration.upgrade =
      (s.migrations.take n).flatMap Migration.upgrade ++
        (s.migrations.drop n).flatMap Migration.upgrade := by
    rw [← List.flatMap_append, List.take_append_drop]
  unfold schemaOf at hS
  rw [hsplit] at hS
  obtain ⟨S₁, hS₁, -⟩ := catalogs_append_ok.mp hS
  have hfirst : schemaOf (s.migrations.take n) = .ok S₁ := hS₁
  unfold schemaAt
  rw [hfirst]

theorem Service.closed_schemaAt (s : Service) (n : Nat) : (s.schemaAt n).Closed :=
  closed_catalogs closed_empty (s.schemaOf_take n)

/-! ## What a rollback is -/

/-- **Revision `m`, `n` revisions up its chain, rolls back on a content**: its downgrade runs, and
    leaves the schema below it with rows that schema admits. -/
def RollsBack (s : Service) (n : Nat) (m : Migration) (now : Int) (C : Content) : Prop :=
  ∃ db, run now ⟨s.schemaAt (n + 1), C⟩ m.downgrade = .ok db ∧
    db.schema.Alike (s.schemaAt n) ∧ (s.schemaAt n).Admits db.content

/-- The downgrade makes the schema below of the schema of its revision. -/
def restores (s : Service) (n : Nat) : Bool :=
  match s.migrations[n]? with
  | none => true
  | some m =>
    match catalogs (s.schemaAt (n + 1)) m.downgrade with
    | .ok S => decide (S.Alike (s.schemaAt n))
    | .error _ => false

theorem restores_connectorRegistry : ∀ n < 8, restores .connectorRegistry n = true := by
  decide +kernel

theorem restores_orchestrator : ∀ n < 5, restores .orchestrator n = true := by
  decide +kernel

/-- Every downgrade takes the catalog back to the schema below. -/
theorem downgrade_catalogs {s : Service} {n : Nat} {m : Migration}
    (hm : s.migrations[n]? = some m) :
    ∃ S, catalogs (s.schemaAt (n + 1)) m.downgrade = .ok S ∧ S.Alike (s.schemaAt n) := by
  obtain ⟨hn, -⟩ := List.getElem?_eq_some_iff.mp hm
  have hrestores : restores s n = true := by
    cases s with
    | connectorRegistry => exact restores_connectorRegistry n hn
    | orchestrator => exact restores_orchestrator n hn
  unfold restores at hrestores
  rw [hm] at hrestores
  cases hS : catalogs (s.schemaAt (n + 1)) m.downgrade with
  | ok S =>
    simp only [hS] at hrestores
    exact ⟨S, rfl, of_decide_eq_true hrestores⟩
  | error e =>
    simp only [hS] at hrestores
    cases hrestores

variable {s : Service} {n : Nat} {m : Migration} {C : Content} {now : Int}

/-- A downgrade that runs leaves what the schema below admits. -/
theorem rollsBack_iff_runs (hm : s.migrations[n]? = some m) (hC : (s.schemaAt (n + 1)).Admits C) :
    RollsBack s n m now C ↔
      ∃ db, run now ⟨s.schemaAt (n + 1), C⟩ m.downgrade = .ok db := by
  constructor
  · rintro ⟨db, hrun, -⟩
    exact ⟨db, hrun⟩
  · rintro ⟨db, hrun⟩
    obtain ⟨S, hS, halike⟩ := downgrade_catalogs hm
    obtain ⟨hcatalogs, -, hadmits⟩ := run_admits (s.closed_schemaAt (n + 1)) hC hrun
    have hsame : S = db.schema := Except.ok.inj (hS.symm.trans hcatalogs)
    subst hsame
    exact ⟨db, hrun, halike, halike.admits hadmits⟩

/-- A downgrade of quiet statements rolls back on any rows. -/
theorem rollsBack_of_quiet (hm : s.migrations[n]? = some m) (hC : (s.schemaAt (n + 1)).Admits C)
    (hquiet : m.downgrade.all Ddl.Quiet = true) : RollsBack s n m now C := by
  obtain ⟨S, hS, -⟩ := downgrade_catalogs hm
  exact (rollsBack_iff_runs hm hC).mpr ⟨_, run_quiet hquiet hS⟩

/-! ## A name that was unique within a tenant -/

/-- No two rows have the same name. -/
def NamesDistinct (rows : List Row) : Prop := rows.Pairwise fun r₁ r₂ => r₁ "name" ≠ r₂ "name"

instance (rows : List Row) : Decidable (NamesDistinct rows) :=
  inferInstanceAs (Decidable (rows.Pairwise _))

theorem holds_unique_name {table : String} (hnull : ∀ r ∈ C table, r "name" ≠ .null) :
    (Rule.unique ["name"]).Holds C table ↔ NamesDistinct (C table) := by
  unfold NamesDistinct
  show (C table).Pairwise (fun r₁ r₂ => ¬ Rule.Conflict ["name"] r₁ r₂) ↔ _
  apply List.Pairwise.iff_of_mem
  intro r₁ r₂ hr₁ _
  simp [Rule.Conflict, hnull r₁ hr₁]

/-- **A downgrade that restores a unique name** rolls back when no two rows share one. -/
theorem rollsBack_unique_name {table key : String} {before after : List Ddl}
    (hm : s.migrations[n]? = some m) (hC : (s.schemaAt (n + 1)).Admits C)
    (hdowngrade : m.downgrade =
      before ++ createUniqueConstraint key table ["name"] :: after)
    (hbefore : before.all Ddl.Quiet = true) (hafter : after.all Ddl.Quiet = true)
    (hrows : effects now C before = C) (hnull : ∀ r ∈ C table, r "name" ≠ .null) :
    RollsBack s n m now C ↔ NamesDistinct (C table) := by
  obtain ⟨S, hS, -⟩ := downgrade_catalogs hm
  rw [hdowngrade] at hS
  obtain ⟨S₁, hS₁, -⟩ := catalogs_append_ok.mp hS
  rw [rollsBack_iff_runs hm hC, hdowngrade, run_quiet_but_one hbefore hafter hS₁ hS, hrows,
    ← holds_unique_name hnull]
  show (if (Rule.unique ["name"]).Holds C table then none else some (SqlError.violation key)) =
    none ↔ _
  split <;> simp_all

/-! ## Rows that are moved first -/

/-- A column of the connectors is there, after part of a script, with the rules that read it. -/
theorem admits_after {before after : List Ddl} (hm : s.migrations[n]? = some m)
    (hC : (s.schemaAt (n + 1)).Admits C) (hdowngrade : m.downgrade = before ++ after)
    (hbefore : before.all Ddl.Quiet = true) :
    ∃ S, catalogs (s.schemaAt (n + 1)) before = .ok S ∧ S.Admits (effects now C before) ∧
      run now ⟨s.schemaAt (n + 1), C⟩ before = .ok ⟨S, effects now C before⟩ := by
  obtain ⟨S', hS', -⟩ := downgrade_catalogs hm
  rw [hdowngrade] at hS'
  obtain ⟨S, hS, -⟩ := catalogs_append_ok.mp hS'
  have hrun := @run_quiet _ _ C before now hbefore hS
  exact ⟨S, hS, (run_admits (s.closed_schemaAt (n + 1)) hC hrun).2.2, hrun⟩

/-- What a script makes of a catalog it goes through on. -/
def reached (S : Schema) (ops : List Ddl) : Schema :=
  match catalogs S ops with
  | .ok S' => S'
  | .error _ => S

theorem reached_of_ok {S S' : Schema} {ops : List Ddl} (h : catalogs S ops = .ok S') :
    reached S ops = S' := by
  unfold reached
  rw [h]

section Registry

open ConnectorRegistry

/-- `status`, as 0004 adds it. -/
def statusColumn : Column :=
  ⟨"status", .varchar 24, false, some (.literal (.text "enabled"))⟩

/-- `enabled`, as the downgrade of 0004 brings it back. -/
def enabledColumn : Column := ⟨"enabled", .boolean, false, some (.literal (.boolean true))⟩

/-- The schema in which the downgrade of 0004 fills `enabled`. -/
def whereEnabled : Schema :=
  reached (Service.connectorRegistry.schemaAt 4) (connectorLifecycle.downgrade.take 5)

theorem whereEnabled_facts :
    (∀ t ∈ whereEnabled.triggers, t.table ≠ "connectors") ∧
    (∀ T ∈ whereEnabled.tables, T.name = "connectors" →
      statusColumn ∈ T.columns ∧ ∀ c ∈ T.columns, c.name = "enabled" → c = enabledColumn) ∧
    (∀ T ∈ whereEnabled.tables, ∀ k ∈ T.constraints,
      ¬ k.rule.Mentions T.name "connectors" "enabled") := by
  decide +kernel

/-- The schema in which the downgrade of 0008 parks connectors. -/
def whereParked : Schema :=
  reached (Service.connectorRegistry.schemaAt 8) (connectorLifecycleStates.downgrade.take 10)

theorem whereParked_facts :
    (∀ t ∈ whereParked.triggers, t.table ≠ "connectors") ∧
    (∀ T ∈ whereParked.tables, T.name = "connectors" →
      statusColumn ∈ T.columns ∧ ∀ c ∈ T.columns, c.name = "status" → c = statusColumn) ∧
    (∀ T ∈ whereParked.tables, ∀ k ∈ T.constraints,
      k.rule.Mentions T.name "connectors" "status" →
        T.name = "connectors" ∧ k.rule = .check "status" states) ∧
    ∃ T ∈ whereParked.tables, T.name = "connectors" ∧
      ⟨"ck_connectors_status", .check "status" states⟩ ∈ T.constraints := by
  decide +kernel

/-- The downgrade of 0004 fills `enabled` from a status that is never NULL. -/
theorem rollsBack_connectorLifecycle (hC : (Service.connectorRegistry.schemaAt 4).Admits C) :
    RollsBack .connectorRegistry 3 connectorLifecycle now C := by
  have hm : Service.connectorRegistry.migrations[3]? = some connectorLifecycle := rfl
  have hsplit : connectorLifecycle.downgrade =
      connectorLifecycle.downgrade.take 5 ++
        .update "connectors" "enabled" (.equals (.column "status") (.literal (.text "enabled")))
          (.literal (.boolean true)) :: connectorLifecycle.downgrade.drop 6 := rfl
  obtain ⟨S, hS, hadmits, -⟩ := @admits_after _ _ _ C now _ _ hm hC hsplit rfl
  obtain ⟨S', hS', -⟩ := downgrade_catalogs hm
  rw [hsplit] at hS'
  have hreached : whereEnabled = S := reached_of_ok hS
  obtain ⟨htriggers, hcolumns, hunread⟩ := whereEnabled_facts
  rw [hreached] at htriggers hcolumns hunread
  rw [rollsBack_iff_runs hm hC, hsplit]
  refine (run_quiet_but_one rfl rfl hS hS').mpr ?_
  refine objection_update hadmits htriggers ?_ ?_
  · intro T hT htable c hc hname r hr
    obtain ⟨hstatus, honly⟩ := hcolumns T hT htable
    rw [honly c hc hname]
    have hnotNull : r "status" ≠ .null := by
      rw [← htable] at hr
      exact (hadmits.tables T hT).notNull hstatus rfl hr
    simp [Ddl.written, Expr.eval, hnotNull, Column.accepts, enabledColumn, DataType.holds]
  · intro T hT k hk hmentions
    exact absurd hmentions (hunread T hT k hk)

/-- What the downgrade of 0008 writes to `status`. -/
def parked : Row → Value :=
  Ddl.written "status" (.literal (.text "disabled")) (.isIn (.column "status") addedStates)

/-- A state that 0007 does not know is parked in one that it does. -/
theorem former_of_state :
    ∀ v ∈ states, (if v ∈ addedStates then "disabled" else v) ∈ formerStates := by
  decide

theorem former_known : ∀ w ∈ formerStates, w ∈ states := by decide

theorem former_fits : ∀ w ∈ formerStates, statusColumn.accepts (.text w) = true := by decide

/-- Every connector is parked in a state that 0007 knows. -/
theorem parked_former (hC : whereParked.Admits C) {r : Row} (hr : r ∈ C "connectors") :
    ∃ w ∈ formerStates, parked r = .text w := by
  obtain ⟨-, hcolumns, -, T, hT, htable, hcheck⟩ := whereParked_facts
  have hrow : r ∈ C T.name := by rwa [htable]
  have hnotNull : r "status" ≠ .null :=
    (hC.tables T hT).notNull (hcolumns T hT htable).1 rfl hrow
  obtain ⟨v, hv, hvalue⟩ : ∃ v ∈ states, r "status" = .text v :=
    ((hC.tables T hT).2 _ hcheck r hrow).resolve_left hnotNull
  have hparked : parked r = .text (if v ∈ addedStates then "disabled" else v) := by
    unfold parked Ddl.written Expr.eval Expr.eval
    rw [hvalue]
    by_cases hadded : v ∈ addedStates <;> simp [hadded]
  exact ⟨_, former_of_state v hv, hparked⟩

theorem holds_parked (hC : whereParked.Admits C) {values : List String}
    (hvalues : ∀ w ∈ formerStates, w ∈ values) :
    (Rule.check "status" values).Holds (C.assign "connectors" "status" parked) "connectors" := by
  intro r hr
  obtain ⟨r₀, hr₀, rfl⟩ := Content.mem_assign.mp hr
  obtain ⟨w, hw, hparked⟩ := parked_former hC hr₀
  rw [Row.touch_same]
  exact Or.inr ⟨w, hvalues w hw, hparked⟩

theorem objection_park (hC : whereParked.Admits C) :
    (Ddl.update "connectors" "status" (.literal (.text "disabled"))
      (.isIn (.column "status") addedStates)).objection whereParked C = none := by
  obtain ⟨htriggers, hcolumns, hreads, -⟩ := whereParked_facts
  refine objection_update hC htriggers ?_ ?_
  · intro T hT htable c hc hname r hr
    obtain ⟨w, hw, hparked⟩ := parked_former hC hr
    rw [(hcolumns T hT htable).2 c hc hname]
    show statusColumn.accepts (parked r) = true
    rw [hparked]
    exact former_fits w hw
  · intro T hT k hk hmentions
    obtain ⟨htable, hrule⟩ := hreads T hT k hk hmentions
    rw [hrule, htable]
    exact holds_parked hC former_known

/-- The downgrade of 0008 parks what the narrower check forbids. -/
theorem rollsBack_connectorLifecycleStates
    (hC : (Service.connectorRegistry.schemaAt 8).Admits C) :
    RollsBack .connectorRegistry 7 connectorLifecycleStates now C := by
  have hm : Service.connectorRegistry.migrations[7]? = some connectorLifecycleStates := rfl
  have hsplit : connectorLifecycleStates.downgrade =
      connectorLifecycleStates.downgrade.take 10 ++
        [.update "connectors" "status" (.literal (.text "disabled"))
            (.isIn (.column "status") addedStates),
          .dropConstraint "ck_connectors_status" "connectors",
          createCheckConstraint "ck_connectors_status" "connectors" "status" formerStates] := rfl
  obtain ⟨S, hS, hadmits, hrun⟩ := @admits_after _ _ _ C now _ _ hm hC hsplit rfl
  obtain ⟨S', hS', -⟩ := downgrade_catalogs hm
  rw [hsplit] at hS'
  obtain ⟨S₁, hS₁, hrest⟩ := catalogs_append_ok.mp hS'
  have hsame : S₁ = S := Except.ok.inj (hS₁.symm.trans hS)
  have hreached : whereParked = S := reached_of_ok hS
  subst hsame
  subst hreached
  obtain ⟨S₂, hS₂, hrest⟩ := catalogs_cons_ok.mp hrest
  obtain ⟨S₃, hS₃, hrest⟩ := catalogs_cons_ok.mp hrest
  obtain ⟨S₄, hS₄, -⟩ := catalogs_cons_ok.mp hrest
  let C₁ := effects now C (connectorLifecycleStates.downgrade.take 10)
  let C₂ := C₁.assign "connectors" "status" parked
  have hpark : exec now ⟨whereParked, C₁⟩ (.update "connectors" "status"
      (.literal (.text "disabled")) (.isIn (.column "status") addedStates)) = .ok ⟨S₂, C₂⟩ :=
    exec_ok.mpr ⟨hS₂, objection_park hadmits, rfl⟩
  have hwide : exec now ⟨S₂, C₂⟩ (.dropConstraint "ck_connectors_status" "connectors") =
      .ok ⟨S₃, C₂⟩ := exec_ok.mpr ⟨hS₃, rfl, rfl⟩
  have hnarrow : exec now ⟨S₃, C₂⟩
      (createCheckConstraint "ck_connectors_status" "connectors" "status" formerStates) =
        .ok ⟨S₄, C₂⟩ :=
    exec_ok.mpr ⟨hS₄, if_pos (holds_parked hadmits fun _ hw => hw), rfl⟩
  rw [rollsBack_iff_runs hm hC, hsplit]
  exact ⟨_, run_append_ok.mpr ⟨_, hrun, run_cons_ok.mpr ⟨_, hpark, run_cons_ok.mpr ⟨_, hwide,
    run_cons_ok.mpr ⟨_, hnarrow, rfl⟩⟩⟩⟩⟩

end Registry

/-! ## Every revision -/

/-- A `name` column is there and not nullable. -/
theorem name_notNull {table : String} (hC : (s.schemaAt (n + 1)).Admits C)
    (hcolumn : ∃ T ∈ (s.schemaAt (n + 1)).tables, T.name = table ∧
      ⟨"name", .varchar 80, false, none⟩ ∈ T.columns) :
    ∀ r ∈ C table, r "name" ≠ .null := by
  obtain ⟨T, hT, rfl, hc⟩ := hcolumn
  intro r hr
  exact (hC.tables T hT).notNull hc rfl hr

theorem rollsBack_tenantScopeConnectors (hC : (Service.connectorRegistry.schemaAt 7).Admits C) :
    RollsBack .connectorRegistry 6 ConnectorRegistry.tenantScopeConnectors now C ↔
      NamesDistinct (C "connectors") := by
  have hsplit : ConnectorRegistry.tenantScopeConnectors.downgrade =
      [.dropIndex "ix_connectors_tenant", .dropConstraint "uq_connectors_tenant_name" "connectors"]
        ++ createUniqueConstraint "uq_connectors_name" "connectors" ["name"] ::
          [.dropColumn "connectors" "tenant_id"] := rfl
  exact rollsBack_unique_name rfl hC hsplit rfl rfl rfl (name_notNull hC (by decide +kernel))

theorem rollsBack_tenantScopeAgents (hC : (Service.orchestrator.schemaAt 5).Admits C) :
    RollsBack .orchestrator 4 Orchestrator.tenantScopeAgents now C ↔
      NamesDistinct (C "agents") := by
  have hsplit : Orchestrator.tenantScopeAgents.downgrade =
      [.dropIndex "ix_agents_tenant", .dropConstraint "uq_agents_tenant_name" "agents"]
        ++ createUniqueConstraint "uq_agents_name" "agents" ["name"] ::
          [.dropColumn "agents" "tenant_id"] := rfl
  exact rollsBack_unique_name rfl hC hsplit rfl rfl rfl (name_notNull hC (by decide +kernel))

/-- The names a content must not repeat for a revision to roll back. -/
def RestoresNames (s : Service) (m : Migration) (C : Content) : Prop :=
  (s = .connectorRegistry → m.revision = "0007" → NamesDistinct (C "connectors")) ∧
    (s = .orchestrator → m.revision = "0005" → NamesDistinct (C "agents"))

theorem restoresNames_of_revision (hregistry : s = .connectorRegistry → m.revision ≠ "0007")
    (horchestrator : s = .orchestrator → m.revision ≠ "0005") : RestoresNames s m C :=
  ⟨fun hs hm => absurd hm (hregistry hs), fun hs hm => absurd hm (horchestrator hs)⟩

theorem connectorRegistry_rollsBack (hm : Service.connectorRegistry.migrations[n]? = some m)
    (hC : (Service.connectorRegistry.schemaAt (n + 1)).Admits C) :
    RollsBack .connectorRegistry n m now C ↔ RestoresNames .connectorRegistry m C := by
  have hn : n < 8 := (List.getElem?_eq_some_iff.mp hm).1
  by_cases hrevision : m.revision = "0007"
  · interval_cases n <;> cases hm <;> first | exact absurd hrevision (by decide) | skip
    rw [rollsBack_tenantScopeConnectors hC]
    constructor
    · intro h
      exact ⟨fun _ _ => h, nofun⟩
    · intro h
      exact h.1 rfl rfl
  · refine iff_of_true ?_ (restoresNames_of_revision (fun _ => hrevision) nofun)
    by_cases hquiet : m.downgrade.all Ddl.Quiet = true
    · exact rollsBack_of_quiet hm hC hquiet
    · interval_cases n <;> cases hm <;> first | exact absurd rfl hquiet | skip
      · exact rollsBack_connectorLifecycle hC
      · exact absurd rfl hrevision
      · exact rollsBack_connectorLifecycleStates hC

theorem orchestrator_rollsBack (hm : Service.orchestrator.migrations[n]? = some m)
    (hC : (Service.orchestrator.schemaAt (n + 1)).Admits C) :
    RollsBack .orchestrator n m now C ↔ RestoresNames .orchestrator m C := by
  have hn : n < 5 := (List.getElem?_eq_some_iff.mp hm).1
  by_cases hrevision : m.revision = "0005"
  · interval_cases n <;> cases hm <;> first | exact absurd hrevision (by decide) | skip
    rw [rollsBack_tenantScopeAgents hC]
    constructor
    · intro h
      exact ⟨nofun, fun _ _ => h⟩
    · intro h
      exact h.2 rfl rfl
  · refine iff_of_true ?_ (restoresNames_of_revision nofun fun _ => hrevision)
    by_cases hquiet : m.downgrade.all Ddl.Quiet = true
    · exact rollsBack_of_quiet hm hC hquiet
    · interval_cases n <;> cases hm <;> first | exact absurd rfl hquiet | skip
      exact absurd rfl hrevision

/-- **Every revision of both chains and every content its schema admits**: the downgrade runs and
    leaves what the schema below admits, but for the two revisions that restore a global name,
    which roll back when no two rows share one and only then. -/
theorem downgrade_succeeds_iff (hm : s.migrations[n]? = some m)
    (hC : (s.schemaAt (n + 1)).Admits C) :
    RollsBack s n m now C ↔ RestoresNames s m C := by
  cases s with
  | connectorRegistry => exact connectorRegistry_rollsBack hm hC
  | orchestrator => exact orchestrator_rollsBack hm hC

/-! ## Two tenants with a connector of one name -/

/-- A connector called `github`. -/
def githubConnector (id : Nat) (tenant : String) : Row :=
  fun column =>
    if column = "id" then .uuid id
    else if column = "name" then .text "github"
    else if column = "kind" then .text "http"
    else if column = "scopes" then .array []
    else if column = "created_at" then .timestamp 0
    else if column = "version" then .integer 1
    else if column = "config" then .json (.obj [])
    else if column = "status" then .text "enabled"
    else if column = "supports_idempotency" then .boolean false
    else if column = "idempotency_mode" then .text "unsupported"
    else if column = "tenant_id" then .text tenant
    else .null

/-- The connectors of some tenants. -/
def githubConnectors (tenants : List String) : Content :=
  Function.update (fun _ => []) "connectors"
    (tenants.zipIdx.map fun t => githubConnector t.2 t.1)

theorem admits_githubConnectors {tenants : List String}
    (h : ∀ T ∈ (Service.connectorRegistry.schemaAt 7).tables, T.Admits (githubConnectors tenants)) :
    (Service.connectorRegistry.schemaAt 7).Admits (githubConnectors tenants) := by
  refine ⟨h, ?_⟩
  intro t ht
  apply Function.update_of_ne
  rintro rfl
  exact ht (by decide +kernel)

theorem downgrade_succeeds_iff_github :
    RollsBack .connectorRegistry 6 ConnectorRegistry.tenantScopeConnectors 0
      (githubConnectors ["acme"]) :=
  (downgrade_succeeds_iff rfl (admits_githubConnectors (by decide +kernel))).mpr
    ⟨fun _ _ => by decide +kernel, nofun⟩

/-- Two tenants may each have a connector called `github`, and 0007 then does not roll back. -/
theorem shared_name_blocks_downgrade :
    (Service.connectorRegistry.schemaAt 7).Admits (githubConnectors ["acme", "globex"]) ∧
      ∀ db, run 0 ⟨Service.connectorRegistry.schemaAt 7, githubConnectors ["acme", "globex"]⟩
        ConnectorRegistry.tenantScopeConnectors.downgrade ≠ .ok db := by
  have hadmits : (Service.connectorRegistry.schemaAt 7).Admits
      (githubConnectors ["acme", "globex"]) := admits_githubConnectors (by decide +kernel)
  refine ⟨hadmits, ?_⟩
  intro db hrun
  have hrolls := (rollsBack_iff_runs rfl hadmits).mpr ⟨db, hrun⟩
  have hdistinct := (rollsBack_tenantScopeConnectors hadmits).mp hrolls
  exact absurd hdistinct (by decide +kernel)

end FavlGateway.Migrations
