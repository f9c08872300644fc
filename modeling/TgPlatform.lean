import TgPlatform.Lib.Machine
import TgPlatform.Lib.Table
import TgPlatform.Lib.Dict
import TgPlatform.Planner.Plan
import TgPlatform.Delivery.Executor
import TgPlatform.Storage.Inbox
import TgPlatform.Storage.Jobs
import TgPlatform.Storage.Conflicts
import TgPlatform.Storage.Revisions
import TgPlatform.Worker.LiveEvents
import TgPlatform.Storage.Lease
import TgPlatform.Worker.Live
import TgPlatform.Worker.Rules
import TgPlatform.Worker.Runner
import TgPlatform.Pipeline.JobLife
import TgPlatform.Pipeline.Projection
import TgPlatform.Pipeline.StatusEdges
import TgPlatform.Pipeline.AtMostOnce
import TgPlatform.Pipeline.Vanishing
import TgPlatform.Pipeline.RetryWait
import TgPlatform.Pipeline.Attempts
import TgPlatform.Pipeline.Hosting
import TgPlatform.Pipeline.Pausing
import TgPlatform.Lib.Trace
import TgPlatform.Pipeline.Fencing
import TgPlatform.Pipeline.Draining
import TgPlatform.Pipeline.NoEventLost
import TgPlatform.Lib.Fields
import TgPlatform.Pipeline.Listeners
import TgPlatform.Pipeline.Holdings
import TgPlatform.Pipeline.Tombstone
import TgPlatform.Pipeline.InboxOrder
import TgPlatform.Pipeline.CausalOrder
import TgPlatform.Pipeline.Mappings
import TgPlatform.Pipeline.Scope
import TgPlatform.Pipeline.Deletion
import TgPlatform.Pipeline.Cancelling
import TgPlatform.Platform.Approvals
import TgPlatform.Platform.Decisions
import TgPlatform.Platform.OneDecision
import TgPlatform.Platform.Replies
import TgPlatform.Platform.ApprovedContent
import TgPlatform.Platform.DeliveryViews
import TgPlatform.Platform.DeliveryScope
import TgPlatform.Ai.Callbacks
import TgPlatform.Ai.CallbackIsolation
import TgPlatform.Lib.Txn
import TgPlatform.Ai.Bindings
import TgPlatform.Ai.Trigger
import TgPlatform.Ai.Groups
import TgPlatform.Ai.Library
import TgPlatform.Control.AiRequests
import TgPlatform.Control.Views
import TgPlatform.Control.Owned
import TgPlatform.Control.BindingScope
import TgPlatform.Control.TriggerScope
import TgPlatform.Control.GroupScope
import TgPlatform.Control.AiScope
import TgPlatform.Rules.Service
import TgPlatform.Rules.Reports
import TgPlatform.Rules.Failover
import TgPlatform.Control.References
import TgPlatform.Control.AiReferences
import TgPlatform.Pipeline.BlockedRules
import TgPlatform.Pipeline.CommandOrder
import TgPlatform.Pipeline.LiveGate
import TgPlatform.Rules.Routes
import TgPlatform.Rules.SelfFeeding
import TgPlatform.Lib.Overlap
import TgPlatform.Rules.Publishing
import TgPlatform.Ai.Triggering
import TgPlatform.Ai.OneRun
import TgPlatform.Ai.Deferred
import TgPlatform.Control.Aside
import TgPlatform.Ai.Ending
import TgPlatform.Ai.Segments
import TgPlatform.Ai.Texts
import TgPlatform.Ai.WholeReplies
import TgPlatform.Ai.OwnVoice
import TgPlatform.Ai.Running
import TgPlatform.Ai.Effects
import TgPlatform.Ai.RunsEnd
import TgPlatform.Ai.Overtaking
import TgPlatform.Worker.Controller
import TgPlatform.Worker.Lifecycle
import TgPlatform.Worker.Generations
import TgPlatform.Ai.Playing
import TgPlatform.Ai.Reciting
import TgPlatform.Ai.Playback
import TgPlatform.Ai.GroupEvents
import TgPlatform.Ai.GroupTalk
import TgPlatform.Ai.Chain
import TgPlatform.Ai.Hearing
import TgPlatform.Pipeline.Orphans
import TgPlatform.Pipeline.DeadAccounts
import TgPlatform.Pipeline.LostChats
import TgPlatform.Pipeline.StoredPlans
import TgPlatform.Worker.PlannedTargets
import TgPlatform.Lib.Routine
import TgPlatform.Worker.Tick
import TgPlatform.Worker.Faults
import TgPlatform.Import.Package
import TgPlatform.Import.Zip
import TgPlatform.Import.Identity
import TgPlatform.Rules.RouteStore
import TgPlatform.Lib.Loop
import TgPlatform.Worker.Rounds
import TgPlatform.Pipeline.RoundEnds
import TgPlatform.Pipeline.AttemptLog
import TgPlatform.Worker.DeadSessions
import TgPlatform.Rules.JoinState
import TgPlatform.Lib.Receiver
import TgPlatform.Ai.ArrivalOrder
import TgPlatform.Worker.Assigning
import TgPlatform.Platform.RefusedOutcomes
import TgPlatform.Ai.CallbackDoor
import TgPlatform.Pipeline.Rendering
import TgPlatform.Rules.CloneGate
import TgPlatform.Pipeline.PolicyGate
import TgPlatform.Import.Tdata
import TgPlatform.Import.TdataSessions
import TgPlatform.Import.TdataMap
import TgPlatform.Lib.Digest
import TgPlatform.Import.TdataFraming
import TgPlatform.Control.GroupReferences
import TgPlatform.Rules.References
import TgPlatform.Control.ProjectReferences
import TgPlatform.Ingest.Album
import TgPlatform.Ai.ChatMatch
import TgPlatform.Ai.Speakers
import TgPlatform.Ai.StripNames
import TgPlatform.Ai.ContentGate
import TgPlatform.Ai.ContextBound
import TgPlatform.Worker.Heartbeat
import TgPlatform.Worker.JoinChats
import TgPlatform.Lib.Base64
import TgPlatform.Lib.JsonText
import TgPlatform.Lib.Utf8
import TgPlatform.Worker.SessionCrypto
import TgPlatform.Control.NumericRefs
import TgPlatform.Lib.Expiring
import TgPlatform.Ai.PrivateReplies
import TgPlatform.Lib.Recency
import TgPlatform.Lib.Coroutine
import TgPlatform.Mirror.Storage
import TgPlatform.Mirror.Memory
import TgPlatform.Mirror.Filters
import TgPlatform.Mirror.Processor
import TgPlatform.Mirror.Provenance
import TgPlatform.Mirror.FanOut
import TgPlatform.Lib.Rewriting
import TgPlatform.Mirror.Entities
import TgPlatform.Mirror.Keywords
import TgPlatform.Mirror.Links
import TgPlatform.Import.CodeLogin
import TgPlatform.Import.LoginHistory
import TgPlatform.Import.LoginFiles
import TgPlatform.Ids.Snowflake
import TgPlatform.Ids.SnowflakeNodes
import TgPlatform.Platform.Sessions
import TgPlatform.Platform.SessionHistory
import TgPlatform.Platform.Revocation
import TgPlatform.Platform.CacheDrops
