import FavlGateway.Library.Interleave
import FavlGateway.Library.Noninterference
import FavlGateway.Library.Progress
import FavlGateway.Library.Ghost
import FavlGateway.Registry.LockWaits
import FavlGateway.Registry.Stranded
import FavlGateway.Registry.Answers
import FavlGateway.Orchestrator.SlowAgents
import FavlGateway.Orchestrator.Answers
import FavlGateway.Registry.TenantView
import FavlGateway.Registry.TenantRuns
import FavlGateway.Registry.TenantIsolation
import FavlGateway.Outbox.Downstream
import FavlGateway.Outbox.RetryMachine
import FavlGateway.Outbox.Ledger
import FavlGateway.Library.Bookkeeping
import FavlGateway.Identity.Userinfo
import FavlGateway.Library.JsonBytes
import FavlGateway.Library.Base64
import FavlGateway.Registry.WebhookSignature
import FavlGateway.Library.Bytes
import FavlGateway.Registry.ReferenceGrammar
import FavlGateway.Outbox.Backoff
import FavlGateway.Registry.AgentKeys
import FavlGateway.Library.JsonEqual
import FavlGateway.Library.PyRepr
import FavlGateway.Registry.ProviderHeaders
import FavlGateway.Registry.InvocationPages
import FavlGateway.Library.Paging
import FavlGateway.Registry.InvocationChecks
import FavlGateway.Orchestrator.Targets
import FavlGateway.Library.Uri
import FavlGateway.Registry.InternalPaths
import FavlGateway.Registry.References
import FavlGateway.Security.HostAllowlist
import FavlGateway.Security.Classification
import FavlGateway.Migrations.Rollback
import FavlGateway.Library.Scripts
import FavlGateway.Migrations.Orchestrator
import FavlGateway.Migrations.ConnectorRegistry
import FavlGateway.Migrations.Main
import FavlGateway.Library.Sql
import FavlGateway.Registry.CreationRuns
import FavlGateway.Registry.UrlCredentials
import FavlGateway.Registry.PublishedTexts
import FavlGateway.Registry.LocalFailures
import FavlGateway.Registry.Invoke
import FavlGateway.Registry.ConfigTotality
import FavlGateway.Registry.Posted
import FavlGateway.Security.Raises
import FavlGateway.Registry.Validators
import FavlGateway.Outbox.WireFormat
import FavlGateway.Library.JsonText
import FavlGateway.Outbox.Parsing
import FavlGateway.Library.Datetime
import FavlGateway.Security.Narrowing
import FavlGateway.Registry.InsertRace
import FavlGateway.Registry.Retries
import FavlGateway.Registry.LifecycleReplies
import FavlGateway.Outbox.Horizon
import FavlGateway.Outbox.Timed
import FavlGateway.Outbox.Delivery
import FavlGateway.Outbox.Models
import FavlGateway.Outbox.Timing
import FavlGateway.Outbox.Publisher
import FavlGateway.Security.Outbound
import FavlGateway.Security.Network
import FavlGateway.Security.Policy
import FavlGateway.Security.Ssrf
import FavlGateway.Library.Text
import FavlGateway.Library.IpAddress
import FavlGateway.Orchestrator.Agreement
import FavlGateway.Orchestrator.FanOut
import FavlGateway.Orchestrator.RegistryCalls
import FavlGateway.Orchestrator.Sequence
import FavlGateway.Orchestrator.Main
import FavlGateway.Orchestrator.Session
import FavlGateway.Registry.Confidential
import FavlGateway.Library.JsonPath
import FavlGateway.Outbox.Consumer
import FavlGateway.Security.Secrets
import FavlGateway.Registry.ValidatedVerdict
import FavlGateway.Registry.AuditTrail
import FavlGateway.Registry.Conformance
import FavlGateway.Registry.InvocationLog
import FavlGateway.Registry.Executability
import FavlGateway.Registry.Idempotency
import FavlGateway.Registry.LostUpdate
import FavlGateway.Registry.Ownership
import FavlGateway.Registry.Locks
import FavlGateway.Registry.Solo
import FavlGateway.Registry.OneWay
import FavlGateway.Library.Table
import FavlGateway.Registry.Invariants
import FavlGateway.Registry.Effects
import FavlGateway.Registry.Discipline
import FavlGateway.Registry.Transactions
import FavlGateway.Registry.Main
import FavlGateway.Registry.Invocations
import FavlGateway.Registry.Transitions
import FavlGateway.Registry.Session
import FavlGateway.Registry.Schemas
import FavlGateway.Library.Time
import FavlGateway.Registry.Adapters
import FavlGateway.Registry.Models
import FavlGateway.Library.Json
import FavlGateway.Registry.Lifecycle
import FavlGateway.Registry.InvocationViews
import FavlGateway.Library.Projection
import FavlGateway.Orchestrator.TenantsAlone
