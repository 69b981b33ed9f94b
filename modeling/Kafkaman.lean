import Kafkaman.Lib.TransitionSystem
import Kafkaman.Lib.Fallible
import Kafkaman.Lib.Table
import Kafkaman.Lib.Numbering
import Kafkaman.Lib.Restriction
import Kafkaman.Lib.SortedMap
import Kafkaman.Lib.Register
import Kafkaman.Lib.QuotedIdentifier
import Kafkaman.Lib.Descent
import Kafkaman.Lib.SeparatedList
import Kafkaman.Lib.Utf8
import Kafkaman.Lib.UniqueReading
import Kafkaman.Lib.Fnv
import Kafkaman.Lib.StoppingLoop
import Kafkaman.Lib.PollingLoop
import Kafkaman.Lib.Paging
import Kafkaman.Lib.Keyset
import Kafkaman.Lib.Interruptible
import Kafkaman.Core.Basic
import Kafkaman.Core.Idempotency
import Kafkaman.Core.Error
import Kafkaman.Core.Rows
import Kafkaman.Core.Identifier
import Kafkaman.Core.Canonical
import Kafkaman.Core.Storable
import Kafkaman.Core.Trace
import Kafkaman.Core.TraceGrammar
import Kafkaman.Core.Lifecycle
import Kafkaman.Core.Topics
import Kafkaman.Schema.Tables
import Kafkaman.Schema.Names
import Kafkaman.Schema.LockKeys
import Kafkaman.Outbox.Table
import Kafkaman.Outbox.Enqueue
import Kafkaman.Outbox.Claim
import Kafkaman.Outbox.Mark
import Kafkaman.Outbox.System
import Kafkaman.Outbox.Purge
import Kafkaman.Outbox.Sweep
import Kafkaman.Outbox.Transition
import Kafkaman.Outbox.Lineage
import Kafkaman.Outbox.Fencing
import Kafkaman.Outbox.Progress
import Kafkaman.Outbox.Pacing
import Kafkaman.Outbox.Contents
import Kafkaman.Outbox.Statement
import Kafkaman.Outbox.InFlight
import Kafkaman.Outbox.EntityLock
import Kafkaman.Outbox.Upgrade
import Kafkaman.Broker.Record
import Kafkaman.Broker.Publish
import Kafkaman.Broker.Decode
import Kafkaman.Broker.RoundTrip
import Kafkaman.Broker.Namespaces
import Kafkaman.Broker.Wire
import Kafkaman.Relay.System
import Kafkaman.Relay.Order
import Kafkaman.Relay.Delivery
import Kafkaman.Relay.Events
import Kafkaman.Relay.Loop
import Kafkaman.Received.Table
import Kafkaman.Received.Rows
import Kafkaman.Received.DeadLetters
import Kafkaman.Ingest.Consumer
import Kafkaman.Ingest.Accounting
import Kafkaman.Ingest.Fate
import Kafkaman.Ingest.Redelivery
import Kafkaman.Ingest.Group
import Kafkaman.Ingest.Breaker
import Kafkaman.Dispatch.Cache
import Kafkaman.Dispatch.Cycle
import Kafkaman.Dispatch.Atomic
import Kafkaman.Dispatch.System
import Kafkaman.Dispatch.Effects
import Kafkaman.Dispatch.Convergence
import Kafkaman.Dispatch.Concurrent
import Kafkaman.Dispatch.HandlerOrder
import Kafkaman.Dispatch.Announce
import Kafkaman.Dispatch.Sessions
import Kafkaman.Dispatch.History
import Kafkaman.Dispatch.Budget
import Kafkaman.Dispatch.Ownership
import Kafkaman.Dispatch.Drain
import Kafkaman.Dispatch.Breaker
import Kafkaman.Dispatch.Stuck
import Kafkaman.Topics.Converge
import Kafkaman.Migration.Changeset
import Kafkaman.Migration.Generated
import Kafkaman.Migration.Runner
import Kafkaman.Migration.ReplicaFence
import Kafkaman.Migration.Replicas
import Kafkaman.Migration.Resume
import Kafkaman.Migration.Shipped
import Kafkaman.Migration.DryRun
import Kafkaman.Roles.Registry
import Kafkaman.Runtime.Supervision
import Kafkaman.Config.Duration
import Kafkaman.Schema.IndexNames
import Kafkaman.Config.Retry
import Kafkaman.Dispatch.Schedule
import Kafkaman.EndToEnd.System
import Kafkaman.EndToEnd.Convergence
import Kafkaman.EndToEnd.ExactlyOnce
import Kafkaman.EndToEnd.Passage
import Kafkaman.Resync.System
import Kafkaman.Resync.Current
import Kafkaman.Resync.Pages
