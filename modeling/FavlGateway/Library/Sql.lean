/-
  Data definition in SQL: a catalog, the rows under it, and the statements that change both.

  A database is a catalog (`Schema`) and the rows of its tables (`Content`).  A statement first
  changes the catalog, which never looks at a row, then may object to the rows it finds, and else
  changes them.  The split is what the proofs rest on: whether the catalogs of a script go
  through is a computation, and only the few statements that object to rows are left to argue about.
-/
import FavlGateway.Library.Json
import Mathlib.Algebra.Group.Int.Defs
import Mathlib.Algebra.Group.Nat.Defs
import Mathlib.Data.List.Basic
import Mathlib.Logic.Function.Basic

namespace FavlGateway.Library.Sql

/-! ## Values -/

/-- The type of a column. -/
inductive DataType where
  | uuid
  | varchar (limit : Nat)
  | text
  | boolean
  | integer
  | bigint
  | timestamptz
  | jsonb
  /-- `varchar[]` -/
  | varcharArray
  deriving DecidableEq

/-- A value in a row.  Instants are microseconds since the epoch. -/
inductive Value where
  | null
  | uuid (n : Nat)
  | text (s : String)
  | boolean (b : Bool)
  | integer (n : Int)
  | timestamp (t : Int)
  | json (j : Json String)
  | array (xs : List (Option String))
  deriving DecidableEq

/-- Text a database can store: no NUL. -/
def storableText (s : String) : Bool := s.toList.all (· ≠ '\x00')

/-- A value of the type, NULL apart. -/
def DataType.holds : DataType → Value → Bool
  | .uuid, .uuid n => n < 2 ^ 128
  | .varchar limit, .text s => s.length ≤ limit && storableText s
  | .text, .text s => storableText s
  | .boolean, .boolean _ => true
  | .integer, .integer n => -2 ^ 31 ≤ n ∧ n < 2 ^ 31
  | .bigint, .integer n => -2 ^ 63 ≤ n ∧ n < 2 ^ 63
  | .timestamptz, .timestamp _ => true
  | .jsonb, .json _ => true
  | .varcharArray, .array xs => xs.all fun x => x.all storableText
  | _, _ => false

/-- What a column holds where an INSERT names no value, and in the rows it is added to. -/
inductive Default where
  | literal (v : Value)
  /-- `now()`, the instant the transaction began. -/
  | now
  deriving DecidableEq

structure Column where
  name : String
  type : DataType
  nullable : Bool
  default : Option Default := none
  deriving DecidableEq

def Column.accepts (c : Column) : Value → Bool
  | .null => c.nullable
  | v => c.type.holds v

/-- The value a row has in a column that is added to its table. -/
def Column.initial (c : Column) (now : Int) : Value :=
  match c.default with
  | none => .null
  | some (.literal v) => v
  | some .now => .timestamp now

/-! ## Rows and constraints -/

/-- A row, by column.  What it says of a column its table does not have is never read. -/
abbrev Row := String → Value

/-- The rows of each table. -/
abbrev Content := String → List Row

inductive Rule where
  | primaryKey (columns : List String)
  | unique (columns : List String)
  /-- `CHECK (column IN (values))` -/
  | check (column : String) (values : List String)
  /-- `FOREIGN KEY (column) REFERENCES table (target)` -/
  | foreignKey (column : String) (table : String) (target : String)
  deriving DecidableEq

structure Constraint where
  name : String
  rule : Rule
  deriving DecidableEq

namespace Rule

/-- The columns of its own table that a rule reads. -/
def columns : Rule → List String
  | primaryKey cs => cs
  | unique cs => cs
  | check c _ => [c]
  | foreignKey c _ _ => [c]

/-- The column of another table that a rule reads. -/
def reference : Rule → Option (String × String)
  | foreignKey _ table target => some (table, target)
  | _ => none

/-- Two rows with one key: equal in every column of it, and NULL in none. -/
def Conflict (cs : List String) (r₁ r₂ : Row) : Prop := ∀ c ∈ cs, r₁ c ≠ .null ∧ r₁ c = r₂ c

instance (cs : List String) (r₁ r₂ : Row) : Decidable (Conflict cs r₁ r₂) :=
  inferInstanceAs (Decidable (∀ c ∈ cs, _))

/-- The rows of a table satisfy a rule of it. -/
def Holds (C : Content) (table : String) : Rule → Prop
  | primaryKey cs => (C table).Pairwise fun r₁ r₂ => ¬ Conflict cs r₁ r₂
  | unique cs => (C table).Pairwise fun r₁ r₂ => ¬ Conflict cs r₁ r₂
  | check c values => ∀ r ∈ C table, r c = .null ∨ ∃ v ∈ values, r c = .text v
  | foreignKey c other target =>
    ∀ r ∈ C table, r c = .null ∨ ∃ p ∈ C other, p target = r c

instance (C : Content) (table : String) : (k : Rule) → Decidable (Holds C table k)
  | primaryKey cs => inferInstanceAs (Decidable ((C table).Pairwise fun r₁ r₂ => ¬ Conflict cs r₁ r₂))
  | unique cs => inferInstanceAs (Decidable ((C table).Pairwise fun r₁ r₂ => ¬ Conflict cs r₁ r₂))
  | check _ _ => inferInstanceAs (Decidable (∀ r ∈ C table, _))
  | foreignKey _ _ _ => inferInstanceAs (Decidable (∀ r ∈ C table, _))

/-- The rule reads the column of the table: it is a column of its own, or the one referred to. -/
def Mentions (k : Rule) (owner table column : String) : Prop :=
  (owner = table ∧ column ∈ k.columns) ∨ k.reference = some (table, column)

instance (k : Rule) (owner table column : String) : Decidable (k.Mentions owner table column) :=
  inferInstanceAs (Decidable (_ ∨ _))

end Rule

/-! ## The catalog -/

structure Table where
  name : String
  columns : List Column
  constraints : List Constraint
  deriving DecidableEq

/-- An index.  An entry of `columns` is a column, with `DESC` behind it where the index runs so. -/
structure Index where
  name : String
  table : String
  columns : List (String × Bool)
  /-- `WHERE column = value` -/
  condition : Option (String × String) := none
  deriving DecidableEq

/-- `CREATE TRIGGER … BEFORE UPDATE OR DELETE … FOR EACH ROW`.  The functions of this model do
    nothing but raise, so a trigger refuses each row it sees. -/
structure Trigger where
  name : String
  table : String
  function : String
  deriving DecidableEq

structure Schema where
  tables : List Table := []
  indexes : List Index := []
  functions : List String := []
  triggers : List Trigger := []
  deriving DecidableEq

def Table.columnNames (T : Table) : List String := T.columns.map Column.name

/-- The names of a schema's tables. -/
def Schema.names (S : Schema) : List String := S.tables.map Table.name

/-- Every value fits its column and every constraint holds. -/
def Table.Admits (T : Table) (C : Content) : Prop :=
  (∀ r ∈ C T.name, ∀ c ∈ T.columns, c.accepts (r c.name) = true) ∧
    ∀ k ∈ T.constraints, k.rule.Holds C T.name

instance (T : Table) (C : Content) : Decidable (T.Admits C) :=
  inferInstanceAs (Decidable (_ ∧ _))

/-- **A content satisfies a schema**: each table admits its rows, and there are no others. -/
structure Schema.Admits (S : Schema) (C : Content) : Prop where
  tables : ∀ T ∈ S.tables, T.Admits C
  absent : ∀ t, t ∉ S.names → C t = []

/-- A relation, an index or a constraint with an index of its own takes a name of the schema. -/
def Schema.relations (S : Schema) : List String :=
  S.names ++ S.indexes.map Index.name ++
    S.tables.flatMap fun T => T.constraints.filterMap fun k =>
      match k.rule with
      | .primaryKey _ => some k.name
      | .unique _ => some k.name
      | _ => none

/-! ## Expressions -/

/-- What an UPDATE computes and filters by, with SQL's three-valued comparison. -/
inductive Expr where
  | literal (v : Value)
  | column (name : String)
  | equals (a b : Expr)
  | isIn (a : Expr) (values : List String)
  /-- `CASE WHEN condition THEN yes ELSE no END` -/
  | caseWhen (condition yes no : Expr)
  deriving DecidableEq

namespace Expr

def eval (r : Row) : Expr → Value
  | literal v => v
  | column name => r name
  | equals a b =>
    if a.eval r = .null ∨ b.eval r = .null then .null else .boolean (a.eval r = b.eval r)
  | isIn a values =>
    if a.eval r = .null then .null else .boolean (values.any fun v => a.eval r = .text v)
  | caseWhen condition yes no =>
    if condition.eval r = .boolean true then yes.eval r else no.eval r

def columns : Expr → List String
  | literal _ => []
  | column name => [name]
  | equals a b => a.columns ++ b.columns
  | isIn a _ => a.columns
  | caseWhen condition yes no => condition.columns ++ yes.columns ++ no.columns

end Expr

/-! ## Statements -/

/-- A statement of a migration script. -/
inductive Ddl where
  | createTable (T : Table)
  | dropTable (table : String)
  | addColumn (table : String) (column : Column)
  | dropColumn (table column : String)
  | addConstraint (table : String) (k : Constraint)
  | dropConstraint (name table : String)
  | createIndex (i : Index)
  | dropIndex (name : String)
  /-- `UPDATE table SET column = value WHERE condition` -/
  | update (table column : String) (value condition : Expr)
  /-- `CREATE OR REPLACE FUNCTION`, of a trigger function that raises -/
  | createFunction (name : String)
  /-- `DROP FUNCTION IF EXISTS` -/
  | dropFunction (name : String)
  | createTrigger (t : Trigger)
  /-- `DROP TRIGGER IF EXISTS name ON table` -/
  | dropTrigger (name table : String)
  deriving DecidableEq

/-- Why a statement is refused. -/
inductive SqlError where
  | undefinedObject
  | duplicateObject
  | dependentObjectsStillExist
  | datatypeMismatch
  | notNullViolation
  | violation (constraint : String)
  | raiseException
  deriving DecidableEq

/-- The default is a value of the column. -/
def Column.defaultFits (c : Column) : Bool :=
  match c.default with
  | none => true
  | some (.literal v) => c.accepts v
  | some .now => c.type = .timestamptz

/-- The rule comes with an index, under its own name. -/
def Rule.isKey : Rule → Bool
  | primaryKey _ => true
  | unique _ => true
  | _ => false

namespace Schema

variable (S : Schema)

def hasColumn (table column : String) : Bool :=
  S.tables.any fun T => T.name = table && T.columnNames.contains column

def alter (table : String) (f : Table → Table) : Schema :=
  { S with tables := S.tables.map fun T => if T.name = table then f T else T }

/-- A foreign key refers to the column. -/
def refersTo (table column : String) : Bool :=
  S.tables.any fun T => T.constraints.any fun k => k.rule.reference = some (table, column)

/-- A foreign key of another table refers to the table. -/
def dependsOn (table : String) : Bool :=
  S.tables.any fun T => T.name ≠ table && T.constraints.any fun k =>
    k.rule.reference.any fun r => r.1 = table

/-- Everything the rule reads is there. -/
def resolves (own : List String) (k : Rule) : Bool :=
  k.columns.all own.contains && k.reference.all fun r => S.hasColumn r.1 r.2

end Schema

namespace Ddl

/-- What a statement makes of the catalog. -/
def catalog (S : Schema) : Ddl → Except SqlError Schema
  | createTable T =>
    if T.name ∈ S.relations ∨
        T.constraints.any (fun k => k.rule.isKey && S.relations.contains k.name) then
      .error .duplicateObject
    else if T.constraints.all (fun k => S.resolves T.columnNames k.rule) then
      if T.columns.all Column.defaultFits then .ok { S with tables := S.tables ++ [T] }
      else .error .datatypeMismatch
    else .error .undefinedObject
  | dropTable table =>
    if table ∉ S.names then .error .undefinedObject
    else if S.dependsOn table then .error .dependentObjectsStillExist
    else .ok { S with
      tables := S.tables.filter fun T => T.name ≠ table
      indexes := S.indexes.filter fun i => i.table ≠ table
      triggers := S.triggers.filter fun t => t.table ≠ table }
  | addColumn table c =>
    if table ∉ S.names then .error .undefinedObject
    else if S.hasColumn table c.name then .error .duplicateObject
    else if c.defaultFits then .ok (S.alter table fun T => { T with columns := T.columns ++ [c] })
    else .error .datatypeMismatch
  | dropColumn table column =>
    if S.hasColumn table column then
      if S.refersTo table column then .error .dependentObjectsStillExist
      else
        -- the table's own constraints on the column and the indexes with it go along
        let S := S.alter table fun T =>
          { T with
            columns := T.columns.filter fun c => c.name ≠ column
            constraints := T.constraints.filter fun k => column ∉ k.rule.columns }
        .ok { S with indexes := S.indexes.filter fun i =>
          ¬ (i.table = table ∧
            (column ∈ i.columns.map Prod.fst ∨ i.condition.map Prod.fst = some column)) }
    else .error .undefinedObject
  | addConstraint table k =>
    if table ∉ S.names then .error .undefinedObject
    else if S.tables.any (fun T => T.name = table && T.constraints.any fun k' => k'.name = k.name) ∨
        k.rule.isKey ∧ k.name ∈ S.relations then .error .duplicateObject
    else if S.tables.all (fun T => T.name ≠ table || S.resolves T.columnNames k.rule) then
      .ok (S.alter table fun T => { T with constraints := T.constraints ++ [k] })
    else .error .undefinedObject
  | dropConstraint name table =>
    if S.tables.any fun T => T.name = table && T.constraints.any fun k => k.name = name then
      -- a foreign key rests on the key of the column it refers to
      if S.tables.any fun T => T.name = table && T.constraints.any fun k =>
          k.name = name && k.rule.isKey && k.rule.columns.any (S.refersTo table) then
        .error .dependentObjectsStillExist
      else .ok (S.alter table fun T =>
        { T with constraints := T.constraints.filter fun k => k.name ≠ name })
    else .error .undefinedObject
  | createIndex i =>
    if i.name ∈ S.relations then .error .duplicateObject
    else if i.columns.all (fun c => S.hasColumn i.table c.1) ∧
        i.condition.all (fun c => S.hasColumn i.table c.1) then
      .ok { S with indexes := S.indexes ++ [i] }
    else .error .undefinedObject
  | dropIndex name =>
    if name ∈ S.indexes.map Index.name then
      .ok { S with indexes := S.indexes.filter fun i => i.name ≠ name }
    else .error .undefinedObject
  | update table column value condition =>
    if (column :: value.columns ++ condition.columns).all (S.hasColumn table) then .ok S
    else .error .undefinedObject
  | createFunction name =>
    .ok { S with functions := if name ∈ S.functions then S.functions else S.functions ++ [name] }
  | dropFunction name =>
    if S.triggers.any fun t => t.function = name then .error .dependentObjectsStillExist
    else .ok { S with functions := S.functions.filter (· ≠ name) }
  | createTrigger t =>
    if t.table ∉ S.names ∨ t.function ∉ S.functions then .error .undefinedObject
    else if S.triggers.any fun t' => t'.table = t.table && t'.name = t.name then
      .error .duplicateObject
    else .ok { S with triggers := S.triggers ++ [t] }
  | dropTrigger name table =>
    .ok { S with triggers := S.triggers.filter fun t => ¬ (t.table = table ∧ t.name = name) }

end Ddl

/-- A row of table `t` once `column` of `table` is computed from each row. -/
def Row.touch (table column : String) (g : Row → Value) (t : String) (r : Row) : Row :=
  if t = table then Function.update r column (g r) else r

/-- The rows once `column` of `table` is computed from each of them. -/
def Content.assign (C : Content) (table column : String) (g : Row → Value) : Content :=
  fun t => (C t).map (Row.touch table column g t)

namespace Ddl

/-- What an UPDATE writes to its column. -/
def written (column : String) (value condition : Expr) (r : Row) : Value :=
  if condition.eval r = .boolean true then value.eval r else r column

/-- What a statement makes of the rows.  The transaction began at `now`. -/
def effect (now : Int) (C : Content) : Ddl → Content
  | createTable T => Function.update C T.name []
  | dropTable table => Function.update C table []
  | addColumn table c => C.assign table c.name fun _ => c.initial now
  | dropColumn table column => C.assign table column fun _ => .null
  | update table column value condition => C.assign table column (written column value condition)
  | _ => C

/-- The rows a statement does not take. -/
def objection (S : Schema) (C : Content) : Ddl → Option SqlError
  | addColumn table c =>
    if c.default = none ∧ ¬ c.nullable ∧ C table ≠ [] then some .notNullViolation else none
  | addConstraint table k => if k.rule.Holds C table then none else some (.violation k.name)
  | update table column value condition =>
    if (∃ t ∈ S.triggers, t.table = table) ∧
        ∃ r ∈ C table, condition.eval r = .boolean true then some .raiseException
    -- no row it writes breaks a constraint, and no row of another table that refers to one does
    else if ∀ T ∈ S.tables, T.Admits (C.assign table column (written column value condition)) then
      none
    else some (.violation table)
  | _ => none

/-- The statement takes any rows. -/
def Quiet : Ddl → Bool
  | addColumn _ c => c.nullable || c.default.isSome
  | addConstraint _ _ => false
  | update _ _ _ _ => false
  | _ => true

end Ddl

/-! ## Scripts -/

structure Database where
  schema : Schema
  content : Content

section Scripts

variable (now : Int)

/-- A statement, run. -/
def exec (db : Database) (op : Ddl) : Except SqlError Database :=
  match op.catalog db.schema with
  | .error e => .error e
  | .ok S =>
    match op.objection db.schema db.content with
    | some e => .error e
    | none => .ok ⟨S, op.effect now db.content⟩

/-- A script, run in one transaction. -/
def run (db : Database) (ops : List Ddl) : Except SqlError Database := ops.foldlM (exec now) db

/-- What a script makes of the catalog. -/
def catalogs (S : Schema) (ops : List Ddl) : Except SqlError Schema := ops.foldlM Ddl.catalog S

/-- What a script makes of the rows. -/
def effects (C : Content) (ops : List Ddl) : Content := ops.foldl (Ddl.effect now) C

end Scripts

/-! ## A column's new values -/

section Assign

variable {C : Content} {table column t : String} {g : Row → Value}

/-- A cell of another column keeps its value. -/
theorem Row.touch_of_ne {c : String} (h : ¬ (t = table ∧ c = column)) (r : Row) :
    Row.touch table column g t r c = r c := by
  unfold Row.touch
  split
  · rename_i htable
    exact Function.update_of_ne (fun hc => h ⟨htable, hc⟩) _ _
  · rfl

@[simp] theorem Row.touch_same (r : Row) : Row.touch table column g table r column = g r := by
  simp [Row.touch]

theorem Content.mem_assign {r : Row} :
    r ∈ C.assign table column g t ↔ ∃ r₀ ∈ C t, Row.touch table column g t r₀ = r :=
  List.mem_map

/-- A rule that does not read the column holds of the new rows as of the old. -/
theorem Rule.holds_assign {k : Rule} {owner : String} (h : ¬ k.Mentions owner table column)
    (hk : k.Holds C owner) : k.Holds (C.assign table column g) owner := by
  have hown : ∀ c ∈ k.columns, ∀ r, Row.touch table column g owner r c = r c := by
    intro c hc r
    apply Row.touch_of_ne
    rintro ⟨rfl, rfl⟩
    exact h (Or.inl ⟨rfl, hc⟩)
  have hkey : ∀ cs : List String, (∀ c ∈ cs, ∀ r, Row.touch table column g owner r c = r c) →
      ((C owner).Pairwise fun r₁ r₂ => ¬ Conflict cs r₁ r₂) →
      (C.assign table column g owner).Pairwise fun r₁ r₂ => ¬ Conflict cs r₁ r₂ := by
    intro cs hcs hpair
    refine List.pairwise_map.mpr (hpair.imp ?_)
    intro r₁ r₂ hno hconflict
    apply hno
    intro c hc
    have hcell := hconflict c hc
    rwa [hcs c hc, hcs c hc] at hcell
  cases k with
  | primaryKey cs => exact hkey cs hown hk
  | unique cs => exact hkey cs hown hk
  | check c values =>
    intro r hr
    obtain ⟨r₀, hr₀, rfl⟩ := Content.mem_assign.mp hr
    rw [hown c List.mem_cons_self]
    exact hk r₀ hr₀
  | foreignKey c other target =>
    intro r hr
    obtain ⟨r₀, hr₀, rfl⟩ := Content.mem_assign.mp hr
    rw [hown c List.mem_cons_self]
    rcases hk r₀ hr₀ with hnull | ⟨p, hp, hpc⟩
    · exact Or.inl hnull
    · refine Or.inr ⟨_, Content.mem_assign.mpr ⟨p, hp, rfl⟩, ?_⟩
      rw [Row.touch_of_ne ?_ p]
      · exact hpc
      · rintro ⟨rfl, rfl⟩
        exact h (Or.inr rfl)

/-- **A table and a column's new values**: it admits them if its columns of that name do and its
    rules that read the column still hold. -/
theorem Table.admits_assign {T : Table} (hT : T.Admits C)
    (hcolumn : T.name = table → ∀ c ∈ T.columns, c.name = column →
      ∀ r ∈ C table, c.accepts (g r) = true)
    (hrules : ∀ k ∈ T.constraints, k.rule.Mentions T.name table column →
      k.rule.Holds (C.assign table column g) T.name) :
    T.Admits (C.assign table column g) := by
  constructor
  · intro r hr c hc
    obtain ⟨r₀, hr₀, rfl⟩ := Content.mem_assign.mp hr
    by_cases hcell : T.name = table ∧ c.name = column
    · obtain ⟨rfl, rfl⟩ := hcell
      rw [Row.touch_same]
      exact hcolumn rfl c hc rfl r₀ hr₀
    · rw [Row.touch_of_ne hcell]
      exact hT.1 r₀ hr₀ c hc
  · intro k hk
    by_cases hmentions : k.rule.Mentions T.name table column
    · exact hrules k hk hmentions
    · exact Rule.holds_assign hmentions (hT.2 k hk)

end Assign

end FavlGateway.Library.Sql
