import RuleRaven.Framework.Prog
import RuleRaven.Framework.Trace
import RuleRaven.Framework.Doubling
import RuleRaven.Framework.Pool
import RuleRaven.Framework.Monotone
import RuleRaven.Framework.Text
import RuleRaven.Framework.Json
import RuleRaven.Framework.Hex
import RuleRaven.Framework.Address
import RuleRaven.Framework.StrMap
import RuleRaven.Framework.Document
import RuleRaven.Framework.Bson
import RuleRaven.Framework.Regex
import RuleRaven.Framework.Table
import RuleRaven.Basic
import RuleRaven.Domain
import RuleRaven.Encoding
import RuleRaven.Rules.Engine
import RuleRaven.Rules.Maturity
import RuleRaven.Kube.Fingerprint
import RuleRaven.Kube.Material
import RuleRaven.Kube.Redactor
import RuleRaven.Kube.Redaction
import RuleRaven.Kube.Normalizer
import RuleRaven.Kube.Resolver
import RuleRaven.Provider.Validate
import RuleRaven.Provider.Transport
import RuleRaven.Provider.Schema
import RuleRaven.Provider.Clients
import RuleRaven.Provider.Structured
import RuleRaven.Provider.Jev
import RuleRaven.Provider.Rubric
import RuleRaven.Decision.Composer
import RuleRaven.Store.Contract
import RuleRaven.Store.Mongo
import RuleRaven.Store.Mapping
import RuleRaven.Store.Growth
import RuleRaven.Store.Effect
import RuleRaven.Store.Integrity
import RuleRaven.Store.Client
import RuleRaven.Store.Indexes
import RuleRaven.Store.Provisioning
import RuleRaven.Notify.Envelope
import RuleRaven.Notify.Dispatcher
import RuleRaven.System.Effects
import RuleRaven.System.World
import RuleRaven.Controller.Reconciler
import RuleRaven.Controller.Calls
import RuleRaven.Controller.Judgement
import RuleRaven.Controller.Sequential
import RuleRaven.Controller.Scenario
import RuleRaven.Controller.Persistence
import RuleRaven.Controller.Idempotence
import RuleRaven.Controller.Requeue
import RuleRaven.Controller.Soundness
import RuleRaven.Controller.Silence
import RuleRaven.Controller.Shortcut
import RuleRaven.System.Rules
import RuleRaven.System.Schedule
import RuleRaven.System.Recording
import RuleRaven.System.Workers
import RuleRaven.System.Lease
import RuleRaven.System.Dispatching
import RuleRaven.System.Isolation
import RuleRaven.System.Walk
import RuleRaven.System.Chronicle
import RuleRaven.System.Resolution
import RuleRaven.System.Exactness
import RuleRaven.System.Deletion
import RuleRaven.System.Fate
import RuleRaven.System.Provenance
import RuleRaven.System.Containment
import RuleRaven.System.Reverification
import RuleRaven.Kube.Manager
import RuleRaven.Controller.Sweeper
import RuleRaven.App.Config
import RuleRaven.App.Production
import RuleRaven.Rules.Ordering
import RuleRaven.Provider.Acceptance
import RuleRaven.Decision.Evidence
import RuleRaven.Controller.Failover
import RuleRaven.Kube.Headers
import RuleRaven.Framework.JsonSchema
import RuleRaven.Framework.Decode
import RuleRaven.Provider.Shapes
import RuleRaven.Provider.Decoding
import RuleRaven.Provider.Conformance
import RuleRaven.Provider.Strictness
import RuleRaven.Notify.Backoff
import RuleRaven.Notify.Signing
import RuleRaven.Notify.Receiver
import RuleRaven.Notify.Webhook
import RuleRaven.Notify.Destination
import RuleRaven.Notify.RetryAfter
import RuleRaven.Notify.Authenticity
import RuleRaven.Framework.Queue
import RuleRaven.Framework.CompareAndSwap
import RuleRaven.Health.Readiness
import RuleRaven.App.Lifecycle
import RuleRaven.Framework.Workers
import RuleRaven.Store.Precision
import RuleRaven.Notify.Phases
import RuleRaven.System.Drain
import RuleRaven.System.Course
import RuleRaven.System.Acts
import RuleRaven.System.Retry
import RuleRaven.Provider.Retry
import RuleRaven.Kube.Relisting
import RuleRaven.Rules.WellFormed
import RuleRaven.Rules.Availability
import RuleRaven.Rules.Recurrence
import RuleRaven.System.Limit
import RuleRaven.System.Manager
import RuleRaven.System.Rota
import RuleRaven.System.Upkeep
import RuleRaven.System.Shutdown
import RuleRaven.App.Process
import RuleRaven.App.Assembly
import RuleRaven.App.Startup
import RuleRaven.App.Buildable
import RuleRaven.System.Exclusion
import RuleRaven.System.Refinement
