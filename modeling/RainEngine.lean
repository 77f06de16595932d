import RainEngine.Effects.Program
import RainEngine.Kernel.Json
import RainEngine.Kernel.Types
import RainEngine.Kernel.Ledger
import RainEngine.Kernel.Contents
import RainEngine.Kernel.Host
import RainEngine.Kernel.Schema
import RainEngine.Kernel.Tools
import RainEngine.Kernel.Improvement
import RainEngine.Kernel.Engine
import RainEngine.Kernel.Script
import RainEngine.Batches.Requests
import RainEngine.Batches.Progress
import RainEngine.Batches.Settlement
import RainEngine.Batches.Calm
import RainEngine.Batches.Graphs
import RainEngine.Dependencies.Cascade
import RainEngine.Batches.Completion
import RainEngine.Approvals.Consent
import RainEngine.Advances.Footprint
import RainEngine.Sessions.Replays
import RainEngine.Sessions.Loops
import RainEngine.Improvement.Projections
import RainEngine.Improvement.Bounds
import RainEngine.Sessions.Durability
import RainEngine.Sessions.Caches
import RainEngine.Approvals.Races
import RainEngine.Effects.Handovers
import RainEngine.Approvals.Resumptions
import RainEngine.Approvals.StepGraphs
import RainEngine.Approvals.Finished
import RainEngine.Approvals.Repeats
import RainEngine.Batches.Panics
import RainEngine.Batches.Waves
import RainEngine.Batches.Gates
import RainEngine.Batches.Ordering
import RainEngine.Batches.Confluence
import RainEngine.Sessions.Resumption
import RainEngine.Stores.Appenders
import RainEngine.Stores.Interchange
import RainEngine.Advances.Courses
import RainEngine.Advances.Contract
import RainEngine.Advances.Gates
import RainEngine.Advances.Reports
import RainEngine.Sessions.Termination
import RainEngine.Sessions.Plans
import RainEngine.Sessions.PlanSteps
import RainEngine.Sessions.Accounting
import RainEngine.Skills.ShellExec
import RainEngine.Skills.FileOps
import RainEngine.Logs.Keyed
import RainEngine.States.Projection
import RainEngine.States.Wakes
import RainEngine.Dependencies.Schedules
import RainEngine.Batches.Schedules
import RainEngine.Batches.Coverage
import RainEngine.Web.Redirects
import RainEngine.Skills.HttpFetch
import RainEngine.Wasm.Capabilities
import RainEngine.Transitions.Reaches
import RainEngine.Wasm.Limits
import RainEngine.Wasm.Epochs
import RainEngine.Expiry.Tables
import RainEngine.Coordination.InMemory
import RainEngine.Coordination.Leases
import RainEngine.Coordination.Redis
import RainEngine.Coordination.ValkeyLeases
import RainEngine.Expiry.Boards
import RainEngine.Coordination.Scratchpads
import RainEngine.Runtime.Ingress
import RainEngine.Ingress.Streams
import RainEngine.Providers.Truncation
import RainEngine.Wasm.Memory
import RainEngine.Stores.Paging
import RainEngine.Skills.Schemas
import RainEngine.Batches.Retries
import RainEngine.Batches.Breaker
import RainEngine.Sessions.Breakers
import RainEngine.Sessions.Latches
import RainEngine.Sessions.Denials
import RainEngine.Sessions.FailureLimit
import RainEngine.Sessions.Limits
import RainEngine.Transcripts.Pairing
import RainEngine.Providers.Prompts
import RainEngine.Providers.Gemini
import RainEngine.Runtime.Approvals
import RainEngine.Runtime.Statuses
import RainEngine.Tables.Queries
import RainEngine.Advances.Searches
import RainEngine.Graphs.Renaming
import RainEngine.Cognition.ResearchPlanner
import RainEngine.Cognition.ResearchPlans
import RainEngine.Cognition.TaskGraph
import RainEngine.Graphs.Search
import RainEngine.Retrieval.Neighbors
import RainEngine.Texts.Offsets
import RainEngine.Cognition.Extraction
import RainEngine.Texts.Delimiters
import RainEngine.Texts.Paths
import RainEngine.Blobs.Stores
import RainEngine.Logs.Watching
import RainEngine.Runtime.Streaming
import RainEngine.Logs.Cursors
import RainEngine.Channels.Adapters
import RainEngine.Channels.Telegram
import RainEngine.Audits.Origins
import RainEngine.Audits.Trails
import RainEngine.Tables.WriteThrough
import RainEngine.Serde.Manifests
import RainEngine.Runtime.Installs
import RainEngine.Logs.Registers
import RainEngine.Runtime.Webhooks
import RainEngine.Effects.Matching
import RainEngine.Advances.Inquiries
import RainEngine.Sessions.Uncached
import RainEngine.Effects.Dues
import RainEngine.Sessions.Answers
import RainEngine.Providers.OpenAi
import RainEngine.Logs.Latecomers
import RainEngine.Stores.Postgres
import RainEngine.Stores.Walks
import RainEngine.Runtime.Catchups
