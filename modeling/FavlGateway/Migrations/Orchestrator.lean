/-
  The migrations of the orchestrator (`services/orchestrator/migrations/versions/`), 0001 to 0005.
-/
import FavlGateway.Migrations.Main

namespace FavlGateway.Migrations.Orchestrator

open FavlGateway.Library.Sql FavlGateway.Migrations

/-! ## 0001: create agents table -/

def agents : Table where
  name := "agents"
  columns := [
    ⟨"id", .uuid, false, none⟩,
    ⟨"name", .varchar 80, false, none⟩,
    ⟨"description", .text, false, some (.literal (.text ""))⟩,
    ⟨"connector_ids", .varcharArray, false, some (.literal (.array []))⟩,
    ⟨"created_at", .timestamptz, false, some .now⟩]
  constraints := [⟨"agents_pkey", .primaryKey ["id"]⟩]

def createAgents : Migration where
  revision := "0001"
  downRevision := none
  upgrade := [
    .createTable agents,
    createUniqueConstraint "uq_agents_name" "agents" ["name"],
    createIndex "ix_agents_created_at" "agents" ["created_at"]]
  downgrade := [
    .dropIndex "ix_agents_created_at",
    .dropConstraint "uq_agents_name" "agents",
    .dropTable "agents"]

/-! ## 0002: create outbox_events table -/

def outboxEvents : Table where
  name := "outbox_events"
  columns := [
    ⟨"id", .uuid, false, none⟩,
    ⟨"aggregate_type", .varchar 64, false, none⟩,
    ⟨"aggregate_id", .varchar 64, true, none⟩,
    ⟨"subject", .varchar 255, false, none⟩,
    ⟨"payload", .jsonb, false, none⟩,
    ⟨"status", .varchar 16, false, some (.literal (.text "pending"))⟩,
    ⟨"attempts", .integer, false, some (.literal (.integer 0))⟩,
    ⟨"max_attempts", .integer, false, some (.literal (.integer 8))⟩,
    ⟨"next_attempt_at", .timestamptz, false, some .now⟩,
    ⟨"last_error", .text, true, none⟩,
    ⟨"created_at", .timestamptz, false, some .now⟩,
    ⟨"published_at", .timestamptz, true, none⟩,
    ⟨"stream_seq", .bigint, true, none⟩]
  constraints := [
    ⟨"outbox_events_pkey", .primaryKey ["id"]⟩,
    ⟨"ck_outbox_events_status", .check "status" ["pending", "published", "dead"]⟩]

def createOutboxEvents : Migration where
  revision := "0002"
  downRevision := some "0001"
  upgrade := [
    .createTable outboxEvents,
    createPendingIndex "ix_outbox_events_due" "outbox_events" ["next_attempt_at"],
    createIndex "ix_outbox_events_status" "outbox_events" ["status"]]
  downgrade := [
    .dropIndex "ix_outbox_events_status",
    .dropIndex "ix_outbox_events_due",
    .dropTable "outbox_events"]

/-! ## 0003: add event envelope fields and aggregate versioning -/

def eventEnvelope : Migration where
  revision := "0003"
  downRevision := some "0002"
  upgrade := [
    .addColumn "outbox_events"
      ⟨"aggregate_version", .integer, false, some (.literal (.integer 1))⟩,
    .addColumn "outbox_events" ⟨"schema_version", .integer, false, some (.literal (.integer 1))⟩,
    .addColumn "agents" ⟨"version", .integer, false, some (.literal (.integer 1))⟩,
    createIndex "ix_outbox_events_aggregate" "outbox_events"
      ["aggregate_type", "aggregate_id", "aggregate_version"]]
  downgrade := [
    .dropIndex "ix_outbox_events_aggregate",
    .dropColumn "agents" "version",
    .dropColumn "outbox_events" "schema_version",
    .dropColumn "outbox_events" "aggregate_version"]

/-! ## 0004: add claim-supporting outbox index -/

def outboxAndInvocationIndexes : Migration where
  revision := "0004"
  downRevision := some "0003"
  upgrade := [createPendingIndex "ix_outbox_events_claim" "outbox_events" ["created_at"]]
  downgrade := [.dropIndex "ix_outbox_events_claim"]

/-! ## 0005: scope agents to a tenant -/

def tenantScopeAgents : Migration where
  revision := "0005"
  downRevision := some "0004"
  upgrade := [
    .addColumn "agents" ⟨"tenant_id", .varchar 255, false, some (.literal (.text "default"))⟩,
    .dropConstraint "uq_agents_name" "agents",
    createUniqueConstraint "uq_agents_tenant_name" "agents" ["tenant_id", "name"],
    createIndex "ix_agents_tenant" "agents" ["tenant_id", "created_at"]]
  downgrade := [
    .dropIndex "ix_agents_tenant",
    .dropConstraint "uq_agents_tenant_name" "agents",
    createUniqueConstraint "uq_agents_name" "agents" ["name"],
    .dropColumn "agents" "tenant_id"]

def migrations : List Migration :=
  [createAgents, createOutboxEvents, eventEnvelope, outboxAndInvocationIndexes, tenantScopeAgents]

end FavlGateway.Migrations.Orchestrator
