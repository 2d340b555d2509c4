import Atmux.OverviewStream
import Atmux.Coordinator
import Atmux.Observer
import Atmux.Federation
import Atmux.ChangeDetection
import Atmux.AutoCompact
import Atmux.Maintenance.Relaunch
import Atmux.Maintenance.Generations
import Atmux.Maintenance.Plans
import Atmux.SelfUpdate.Install
import Atmux.SelfUpdate.Rollback
import Atmux.Pulse.Runs
import Atmux.PaneGate.Relaunch
import Atmux.ResumeLease.OneLaunch
import Atmux.Pulse.Paging
import Atmux.Pulse.Versions
import Atmux.Pulse.CurrentUsage
import Atmux.Pulse.ResetRuns
import Atmux.Pulse.TokenRevisions
import Atmux.Pulse.Freshness
import Atmux.Pulse.Ingest
import Atmux.Pulse.Stored
import Atmux.Pulse.Receipts
import Atmux.Pulse.Alerts
import Atmux.Discovery
import Atmux.Workspace.FileEdit
import Atmux.Credentials.Refresh
import Atmux.Credentials.Collector
import Atmux.Transcript.NativeContext
import Atmux.Modes
import Atmux.Transcript.Redaction
import Atmux.SelfUpdate.Rendered
import Atmux.Sse
import Atmux.PaneStream
import Atmux.PaneOutages
import Atmux.Pulse.Pricing
import Atmux.MemoryCaps
import Atmux.Pulse.RateLimiter
import Atmux.Pulse.Reports
import Atmux.Routing
import Atmux.SystemdScope
import Atmux.Invocation
import Atmux.Lib.Base64
import Atmux.Pulse.Cursors
import Atmux.Lib.Fields
import Atmux.Workspace.GitStatus
import Atmux.Status
import Atmux.Lib.Capped
import Atmux.Transcript.Entries
import Atmux.Transcript.Names
import Atmux.Transcript.Parse
import Atmux.Transcript.Stable
import Atmux.Lib.Assoc
import Atmux.Pulse.Polls
import Atmux.ModelPicker.Reading
import Atmux.ModelPicker.Walk
import Atmux.Lib.Outbox
import Atmux.Lib.Errors
import Atmux.Pulse.Outbox
import Atmux.Pulse.Chunks
import Atmux.Pulse.Reporter
import Atmux.Pulse.OutboxRows
import Atmux.Pulse.Delivery
import Atmux.Pulse.ExactlyOnce
import Atmux.SseWriter
import Atmux.OverviewWatch
import Atmux.Recovery
import Atmux.Attachment
import Atmux.OldSessions
