import Sutram.Library.Runs
import Sutram.Library.Ghost
import Sutram.Library.ReadCommitted
import Sutram.Library.Dict
import Sutram.Library.Hex
import Sutram.Library.SortedKeys
import Sutram.Core.Json
import Sutram.Core.Migration
import Sutram.Workflow.StateMachine
import Sutram.Workflow.Models
import Sutram.Workflow.System
import Sutram.Workflow.Steps
import Sutram.Workflow.Transitions
import Sutram.Workflow.Invariants
import Sutram.Workflow.Redelivery
import Sutram.Workflow.Wakeup
import Sutram.Workflow.Resume
import Sutram.Workflow.Recovery
import Sutram.Workflow.RecoveryPods
import Sutram.Workflow.Sessions
import Sutram.Workflow.Announcements
import Sutram.Workflow.Stops
import Sutram.Workflow.Enqueueing
import Sutram.Workflow.Costs
import Sutram.Workflow.Checkpoints
import Sutram.Workflow.CheckpointVersions
import Sutram.Workflow.BlockedAddresses
import Sutram.Workflow.Boundary
import Sutram.Workflow.PauseReasons
import Sutram.Core.Uuid
import Sutram.Gateway.Headers
import Sutram.Gateway.Url
import Sutram.Core.Events
import Sutram.Observability.Dispatcher
import Sutram.Observability.Loop
import Sutram.Observability.Handler
import Sutram.Observability.KeptTraces
import Sutram.Workflow.Failures
import Sutram.Workflow.RowSecurity
import Sutram.Library.ConsumerGroup
import Sutram.Workflow.EventStream
import Sutram.Workflow.Routes
import Sutram.Workflow.Delivery
import Sutram.Workflow.Isolation
import Sutram.Library.Token
import Sutram.Workflow.DeliveryTask
import Sutram.Workflow.Attempts
import Sutram.Workflow.DeliveryBodies
import Sutram.Library.Reading
import Sutram.Memory.Models
import Sutram.Memory.Searcher
import Sutram.Memory.SearchRoute
import Sutram.Memory.TopResults
import Sutram.Memory.TypedSearch
import Sutram.Memory.QueryCache
import Sutram.Memory.System
import Sutram.Memory.Moves
import Sutram.Memory.Sound
import Sutram.Memory.Summaries
import Sutram.Memory.Freshness
import Sutram.Library.StableSort
import Sutram.Memory.Ranking
import Sutram.Library.ExpiringKey
import Sutram.Core.RedisLock
import Sutram.Library.Quota
import Sutram.Core.RateLimit
import Sutram.Library.Exceptional
import Sutram.Core.LockExit
import Sutram.Core.LockOwnership
import Sutram.Library.Segments
import Sutram.Gateway.Guard
import Sutram.Gateway.Idempotency
import Sutram.Gateway.Proxy
import Sutram.Library.Merging
import Sutram.Gateway.HttpClient
import Sutram.Gateway.Transparency
import Sutram.Core.UuidText
import Sutram.Core.Auth
import Sutram.Gateway.Auth
import Sutram.Observability.Backlog
import Sutram.Observability.Reclaims
import Sutram.Observability.Replay
import Sutram.Observability.BufferedSpans
import Sutram.Library.OrderBy
import Sutram.Observability.TracesApi
import Sutram.Observability.ActiveExecutions
import Sutram.Library.Grouping
import Sutram.Observability.MetricsApi
import Sutram.Library.Paging
import Sutram.Observability.AuditApi
import Sutram.Library.Projection
import Sutram.Library.Glob
import Sutram.Memory.Tenants
import Sutram.Memory.Apart
import Sutram.Memory.TenantViews
import Sutram.Memory.TenantAnswers
import Sutram.Memory.SharedEmbedder
import Sutram.Gateway.System
import Sutram.Gateway.TenantViews
import Sutram.Gateway.Admission
import Sutram.Core.JsonScan
import Sutram.Core.JsonText
import Sutram.Library.EventSource
import Sutram.Workflow.SseClients
import Sutram.Library.CacheAside
import Sutram.Memory.Embedder
import Sutram.Workflow.Crypto
import Sutram.Workflow.Subscriptions
import Sutram.Workflow.DeletedWebhooks
import Sutram.Workflow.Secrecy
import Sutram.Core.Definition
import Sutram.Library.Simulation
import Sutram.Workflow.Engine
import Sutram.Workflow.EngineFrames
import Sutram.Workflow.EveryExecution
import Sutram.Workflow.PostedSteps
