/-
  The migrations of the connector registry
  (`services/connector-registry/migrations/versions/`), 0001 to 0008.
-/
import FavlGateway.Migrations.Main

namespace FavlGateway.Migrations.ConnectorRegistry

open FavlGateway.Library.Sql FavlGateway.Migrations

/-! ## 0001: create connectors table -/

def connectors : Table where
  name := "connectors"
  columns := [
    ⟨"id", .uuid, false, none⟩,
    ⟨"name", .varchar 80, false, none⟩,
    ⟨"kind", .varchar 16, false, none⟩,
    ⟨"base_url", .varchar 2048, true, none⟩,
    ⟨"scopes", .varcharArray, false, some (.literal (.array []))⟩,
    ⟨"enabled", .boolean, false, some (.literal (.boolean true))⟩,
    ⟨"created_at", .timestamptz, false, some .now⟩]
  constraints := [
    ⟨"connectors_pkey", .primaryKey ["id"]⟩,
    ⟨"ck_connectors_kind", .check "kind" ["http", "mcp", "webhook", "internal"]⟩]

def createConnectors : Migration where
  revision := "0001"
  downRevision := none
  upgrade := [
    .createTable connectors,
    createUniqueConstraint "uq_connectors_name" "connectors" ["name"],
    createIndex "ix_connectors_created_at" "connectors" ["created_at"]]
  downgrade := [
    .dropIndex "ix_connectors_created_at",
    .dropConstraint "uq_connectors_name" "connectors",
    .dropTable "connectors"]

/-! ## 0002: create outbox_events table -/

def outboxEvents : Table where
  name := "outbox_events"
  columns := [
    ⟨"id", .uuid, false, none⟩,
    ⟨"aggregate_type", .varchar 64, false, none⟩,
    ⟨"aggregate_id", .varchar 64, true, none⟩,
    ⟨"subject", .varchar 255, false, none⟩,
    ⟨"payload", .jsonb, false, none⟩,
    ⟨"status", .varchar 16, false, some (.literal (.text "pending"))⟩,
    ⟨"attempts", .integer, false, some (.literal (.integer 0))⟩,
    ⟨"max_attempts", .integer, false, some (.literal (.integer 8))⟩,
    ⟨"next_attempt_at", .timestamptz, false, some .now⟩,
    ⟨"last_error", .text, true, none⟩,
    ⟨"created_at", .timestamptz, false, some .now⟩,
    ⟨"published_at", .timestamptz, true, none⟩,
    ⟨"stream_seq", .bigint, true, none⟩]
  constraints := [
    ⟨"outbox_events_pkey", .primaryKey ["id"]⟩,
    ⟨"ck_outbox_events_status", .check "status" ["pending", "published", "dead"]⟩]

def createOutboxEvents : Migration where
  revision := "0002"
  downRevision := some "0001"
  upgrade := [
    .createTable outboxEvents,
    -- Partial index: the publisher scans only pending rows.
    createPendingIndex "ix_outbox_events_due" "outbox_events" ["next_attempt_at"],
    createIndex "ix_outbox_events_status" "outbox_events" ["status"]]
  downgrade := [
    .dropIndex "ix_outbox_events_status",
    .dropIndex "ix_outbox_events_due",
    .dropTable "outbox_events"]

/-! ## 0003: add event envelope fields and aggregate versioning -/

def eventEnvelope : Migration where
  revision := "0003"
  downRevision := some "0002"
  upgrade := [
    .addColumn "outbox_events"
      ⟨"aggregate_version", .integer, false, some (.literal (.integer 1))⟩,
    .addColumn "outbox_events" ⟨"schema_version", .integer, false, some (.literal (.integer 1))⟩,
    .addColumn "connectors" ⟨"version", .integer, false, some (.literal (.integer 1))⟩,
    createIndex "ix_outbox_events_aggregate" "outbox_events"
      ["aggregate_type", "aggregate_id", "aggregate_version"]]
  downgrade := [
    .dropIndex "ix_outbox_events_aggregate",
    .dropColumn "connectors" "version",
    .dropColumn "outbox_events" "schema_version",
    .dropColumn "outbox_events" "aggregate_version"]

/-! ## 0004: connector lifecycle status and invocation records -/

def invocations : Table where
  name := "invocations"
  columns := [
    ⟨"id", .uuid, false, none⟩,
    ⟨"connector_id", .uuid, false, none⟩,
    ⟨"connector_version", .integer, false, none⟩,
    ⟨"adapter_kind", .varchar 16, false, none⟩,
    ⟨"idempotency_key", .varchar 255, false, none⟩,
    ⟨"actor_id", .varchar 255, false, none⟩,
    ⟨"tenant_id", .varchar 255, false, none⟩,
    ⟨"operation", .varchar 255, false, some (.literal (.text ""))⟩,
    ⟨"status", .varchar 24, false, none⟩,
    ⟨"attempt", .integer, false, some (.literal (.integer 1))⟩,
    ⟨"aggregate_version", .integer, false, some (.literal (.integer 1))⟩,
    ⟨"deadline_at", .timestamptz, false, none⟩,
    ⟨"started_at", .timestamptz, true, none⟩,
    ⟨"completed_at", .timestamptz, true, none⟩,
    ⟨"provider_request_id", .varchar 255, true, none⟩,
    ⟨"error_code", .varchar 64, true, none⟩,
    ⟨"error_detail", .text, true, none⟩,
    ⟨"retryable", .boolean, true, none⟩,
    ⟨"trace_id", .varchar 64, true, none⟩,
    ⟨"output", .jsonb, true, none⟩,
    ⟨"audit_metadata", .jsonb, false, some (.literal (.json (.obj [])))⟩,
    ⟨"created_at", .timestamptz, false, some .now⟩]
  constraints := [
    ⟨"invocations_pkey", .primaryKey ["id"]⟩,
    -- RESTRICT: no statement of a migration deletes a connector
    ⟨"invocations_connector_id_fkey", .foreignKey "connector_id" "connectors" "id"⟩,
    ⟨"ck_invocations_status", .check "status"
      ["accepted", "running", "succeeded", "failed_retryable", "failed_terminal", "timed_out",
        "cancelled"]⟩]

/-- The states a connector may be in from 0004 to 0007. -/
def formerStates : List String := ["draft", "enabled", "disabled", "deletion_requested", "deleted"]

def connectorLifecycle : Migration where
  revision := "0004"
  downRevision := some "0003"
  upgrade := [
    .addColumn "connectors" ⟨"config", .jsonb, false, some (.literal (.json (.obj [])))⟩,
    .addColumn "connectors" ⟨"status", .varchar 24, false, some (.literal (.text "enabled"))⟩,
    .addColumn "connectors" ⟨"deletion_requested_at", .timestamptz, true, none⟩,
    .addColumn "connectors" ⟨"deleted_at", .timestamptz, true, none⟩,
    .addColumn "connectors" ⟨"deleted_by", .varchar 255, true, none⟩,
    -- Carry the old boolean across before dropping it.
    .update "connectors" "status"
      (.caseWhen (.column "enabled") (.literal (.text "enabled")) (.literal (.text "disabled")))
      (.literal (.boolean true)),
    .dropColumn "connectors" "enabled",
    createCheckConstraint "ck_connectors_status" "connectors" "status" formerStates,
    .createTable invocations,
    createUniqueConstraint "uq_invocations_idempotency" "invocations"
      ["tenant_id", "connector_id", "idempotency_key"],
    createIndex "ix_invocations_connector" "invocations" ["connector_id", "created_at"],
    createIndex "ix_invocations_status" "invocations" ["status"]]
  downgrade := [
    .dropIndex "ix_invocations_status",
    .dropIndex "ix_invocations_connector",
    .dropConstraint "uq_invocations_idempotency" "invocations",
    .dropTable "invocations",
    .addColumn "connectors" ⟨"enabled", .boolean, false, some (.literal (.boolean true))⟩,
    .update "connectors" "enabled" (.equals (.column "status") (.literal (.text "enabled")))
      (.literal (.boolean true)),
    .dropConstraint "ck_connectors_status" "connectors",
    .dropColumn "connectors" "deleted_by",
    .dropColumn "connectors" "deleted_at",
    .dropColumn "connectors" "deletion_requested_at",
    .dropColumn "connectors" "status",
    .dropColumn "connectors" "config"]

/-! ## 0005: add claim-supporting outbox index -/

def outboxAndInvocationIndexes : Migration where
  revision := "0005"
  downRevision := some "0004"
  upgrade := [
    createPendingIndex "ix_outbox_events_claim" "outbox_events" ["created_at"],
    .createIndex ⟨"ix_invocations_created_desc", "invocations", [("created_at", true)], none⟩,
    .createIndex ⟨"ix_invocations_status_created", "invocations",
      [("status", false), ("created_at", true)], none⟩]
  downgrade := [
    .dropIndex "ix_invocations_status_created",
    .dropIndex "ix_invocations_created_desc",
    .dropIndex "ix_outbox_events_claim"]

/-! ## 0006: persist adapter idempotency capability on the connector -/

def persistIdempotencyCapability : Migration where
  revision := "0006"
  downRevision := some "0005"
  upgrade := [
    .addColumn "connectors"
      ⟨"supports_idempotency", .boolean, false, some (.literal (.boolean false))⟩,
    .addColumn "connectors"
      ⟨"idempotency_mode", .varchar 32, false, some (.literal (.text "unsupported"))⟩]
  downgrade := [
    .dropColumn "connectors" "idempotency_mode",
    .dropColumn "connectors" "supports_idempotency"]

/-! ## 0007: scope connectors to a tenant -/

def tenantScopeConnectors : Migration where
  revision := "0007"
  downRevision := some "0006"
  upgrade := [
    .addColumn "connectors"
      ⟨"tenant_id", .varchar 255, false, some (.literal (.text "default"))⟩,
    -- Names are unique per tenant, not globally.
    .dropConstraint "uq_connectors_name" "connectors",
    createUniqueConstraint "uq_connectors_tenant_name" "connectors" ["tenant_id", "name"],
    createIndex "ix_connectors_tenant" "connectors" ["tenant_id", "created_at"]]
  downgrade := [
    .dropIndex "ix_connectors_tenant",
    .dropConstraint "uq_connectors_tenant_name" "connectors",
    createUniqueConstraint "uq_connectors_name" "connectors" ["name"],
    .dropColumn "connectors" "tenant_id"]

/-! ## 0008: connector lifecycle states and immutable transition audit -/

/-- `STATES` -/
def states : List String :=
  ["draft", "installed", "configured", "validated", "enabled", "disabled", "revoked",
    "deletion_requested", "archived", "deleted"]

/-- The states 0008 adds, which its downgrade parks in `disabled`. -/
def addedStates : List String := ["installed", "configured", "validated", "revoked", "archived"]

def connectorAudit : Table where
  name := "connector_audit"
  columns := [
    ⟨"id", .uuid, false, none⟩,
    ⟨"connector_id", .uuid, false, none⟩,
    ⟨"tenant_id", .varchar 255, false, none⟩,
    ⟨"from_state", .varchar 24, false, none⟩,
    ⟨"to_state", .varchar 24, false, none⟩,
    ⟨"event", .varchar 64, false, none⟩,
    ⟨"actor_id", .varchar 255, false, none⟩,
    ⟨"reason", .text, true, none⟩,
    ⟨"aggregate_version", .integer, false, none⟩,
    ⟨"idempotency_key", .varchar 255, true, none⟩,
    ⟨"recorded_at", .timestamptz, false, some .now⟩]
  constraints := [
    ⟨"connector_audit_pkey", .primaryKey ["id"]⟩,
    ⟨"connector_audit_connector_id_fkey", .foreignKey "connector_id" "connectors" "id"⟩]

def connectorLifecycleStates : Migration where
  revision := "0008"
  downRevision := some "0007"
  upgrade := [
    -- The check constraint is widened before any row can use a new state.
    .dropConstraint "ck_connectors_status" "connectors",
    createCheckConstraint "ck_connectors_status" "connectors" "status" states,
    .addColumn "connectors" ⟨"revoked_at", .timestamptz, true, none⟩,
    .addColumn "connectors" ⟨"archived_at", .timestamptz, true, none⟩,
    .addColumn "connectors" ⟨"credentials_rotated_at", .timestamptz, true, none⟩,
    .addColumn "connectors" ⟨"state_reason", .text, true, none⟩,
    .createTable connectorAudit,
    createIndex "ix_connector_audit_connector" "connector_audit"
      ["connector_id", "aggregate_version"],
    createIndex "ix_connector_audit_tenant" "connector_audit" ["tenant_id", "recorded_at"],
    createUniqueConstraint "uq_connector_audit_version" "connector_audit"
      ["connector_id", "aggregate_version"],
    .createFunction "connector_audit_is_append_only",
    .createTrigger
      ⟨"connector_audit_immutable", "connector_audit", "connector_audit_is_append_only"⟩]
  downgrade := [
    .dropTrigger "connector_audit_immutable" "connector_audit",
    .dropFunction "connector_audit_is_append_only",
    .dropConstraint "uq_connector_audit_version" "connector_audit",
    .dropIndex "ix_connector_audit_tenant",
    .dropIndex "ix_connector_audit_connector",
    .dropTable "connector_audit",
    .dropColumn "connectors" "state_reason",
    .dropColumn "connectors" "credentials_rotated_at",
    .dropColumn "connectors" "archived_at",
    .dropColumn "connectors" "revoked_at",
    -- A row in a state the old constraint forbids is parked before the constraint comes back.
    .update "connectors" "status" (.literal (.text "disabled"))
      (.isIn (.column "status") addedStates),
    .dropConstraint "ck_connectors_status" "connectors",
    createCheckConstraint "ck_connectors_status" "connectors" "status" formerStates]

def migrations : List Migration :=
  [createConnectors, createOutboxEvents, eventEnvelope, connectorLifecycle,
    outboxAndInvocationIndexes, persistIdempotencyCapability, tenantScopeConnectors,
    connectorLifecycleStates]

end FavlGateway.Migrations.ConnectorRegistry
