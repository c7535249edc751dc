/-
  Migration chains (`migrations/versions/*.py`), as scripts of SQL statements.

  A revision is the statements its `upgrade` and its `downgrade` emit, in order.  The schema at a
  revision is what the upgrades up to it make of an empty catalog.
-/
import FavlGateway.Library.Sql

namespace FavlGateway.Migrations

open FavlGateway.Library.Sql

/-! ## The operations of `alembic.op` -/

/-- `op.create_unique_constraint` -/
def createUniqueConstraint (name table : String) (columns : List String) : Ddl :=
  .addConstraint table ⟨name, .unique columns⟩

/-- `op.create_check_constraint`, of a condition `column IN (…)` -/
def createCheckConstraint (name table column : String) (values : List String) : Ddl :=
  .addConstraint table ⟨name, .check column values⟩

/-- `op.create_index`, ascending in every column -/
def createIndex (name table : String) (columns : List String) : Ddl :=
  .createIndex ⟨name, table, columns.map fun c => (c, false), none⟩

/-- `op.create_index` with `postgresql_where = sa.text("status = 'pending'")` -/
def createPendingIndex (name table : String) (columns : List String) : Ddl :=
  .createIndex ⟨name, table, columns.map fun c => (c, false), some ("status", "pending")⟩

/-! ## Chains -/

structure Migration where
  revision : String
  downRevision : Option String
  upgrade : List Ddl
  downgrade : List Ddl
  deriving DecidableEq

/-- Each revision names the one below it. -/
def Linear : List Migration → Bool
  | [] => true
  | [m] => m.downRevision.isSome || true
  | m :: m' :: rest => m'.downRevision = some m.revision && Linear (m' :: rest)

/-- The schema the upgrades make of an empty catalog. -/
def schemaOf (ms : List Migration) : Except SqlError Schema :=
  catalogs {} (ms.flatMap Migration.upgrade)

end FavlGateway.Migrations
