import Protoactor.Lib.Machine
import Protoactor.Lib.Int32
import Protoactor.Lib.Pool
import Protoactor.Lib.Numeral
import Protoactor.Actor.Queue
import Protoactor.Actor.Mailbox
import Protoactor.Actor.Mailbox.Lane
import Protoactor.Actor.Mailbox.Interleaving
import Protoactor.Actor.Mailbox.Exclusion
import Protoactor.Actor.Mailbox.Accounting
import Protoactor.Actor.Mailbox.Delivery
import Protoactor.Actor.Mailbox.Progress
import Protoactor.Actor.Mailbox.Failure
import Protoactor.Actor.Mailbox.Nesting
import Protoactor.Actor.Mailbox.Cascade
import Protoactor.Actor.Mailbox.Nulls
import Protoactor.Actor.Future
import Protoactor.Actor.Future.Completion
import Protoactor.Actor.Future.Outcome
import Protoactor.Actor.Registry
import Protoactor.Actor.Registry.Names
import Protoactor.Actor.Context
import Protoactor.Actor.Context.Lifecycle
import Protoactor.Actor.Context.DeathWatch
import Protoactor.Actor.Context.Sending
import Protoactor.Lib.Journal
import Protoactor.Persistence.InMemory
import Protoactor.Persistence.Recovery
import Protoactor.Actor.EventStream
import Protoactor.Actor.EventStream.Delivery
import Protoactor.Actor.Supervision
import Protoactor.Actor.Supervision.Budget
import Protoactor.Actor.Supervision.Escalation
import Protoactor.Actor.System
import Protoactor.Actor.System.Stopping
import Protoactor.Actor.Spawn
import Protoactor.Actor.Spawn.Handlers
import Protoactor.Actor.Context.Receiving
import Protoactor.Actor.Mailbox.First
import Protoactor.Actor.Spawn.Started
import Protoactor.Actor.Future.Locking
import Protoactor.Actor.Future.Locking.Deadlock
import Protoactor.Actor.Future.Registered
import Protoactor.Actor.Registry.Concurrent
import Protoactor.Actor.Registry.Atomic
import Protoactor.Actor.ThreadPool
import Protoactor.Actor.ThreadPool.Tasks
import Protoactor.Actor.ThreadPool.Shutdown
import Protoactor.Actor.ThreadPool.FirstCall
import Protoactor.Actor.ThreadPool.Notified
import Protoactor.Actor.ThreadPool.Termination
import Protoactor.Actor.Dispatcher
import Protoactor.Actor.Dispatcher.Projection
import Protoactor.Actor.Dispatcher.Workers
import Protoactor.Actor.Dispatcher.Shutdown
import Protoactor.Actor.Dispatcher.Notified
import Protoactor.Actor.Dispatcher.Completion
import Protoactor.Actor.DeadLetter
import Protoactor.Actor.DeadLetter.Replies
import Protoactor.Actor.EventStream.Subscribers
import Protoactor.Actor.EventStream.Casts
import Protoactor.Actor.System.Teardown
import Protoactor.Actor.System.Teardown.Pointers
import Protoactor.Actor.Deduplication
import Protoactor.Actor.Deduplication.Refinement
import Protoactor.Actor.Context.Middleware
import Protoactor.Actor.Deduplication.Concurrent
import Protoactor.Actor.Context.Middleware.Passing
import Protoactor.Lib.Simulation
import Protoactor.Actor.Context.PassThrough
import Protoactor.Actor.Context.PassThrough.Invisible
import Protoactor.Actor.EventStream.Concurrent
import Protoactor.Actor.EventStream.Concurrent.Predicates
import Protoactor.Actor.EventStream.Concurrent.Unsubscribed
import Protoactor.Lib.Interning
import Protoactor.Remote.Messages
import Protoactor.Remote.Batch
import Protoactor.Remote.Batch.Reading
import Protoactor.Remote.EndpointManager
import Protoactor.Remote.Node
import Protoactor.Remote.Node.Handoff
import Protoactor.Remote.Node.Senders
import Protoactor.Remote.EndpointWriter
import Protoactor.Remote.EndpointWriter.Conservation
import Protoactor.Remote.EndpointWatcher
import Protoactor.Remote.EndpointWatcher.Notices
import Protoactor.Remote.EndpointManager.Concurrent
import Protoactor.Lib.Newest
import Protoactor.Lib.FlagLoop
import Protoactor.Cluster.Messages
import Protoactor.Cluster.Gossip
import Protoactor.Cluster.Gossip.Sequence
import Protoactor.Cluster.Gossip.Membership
import Protoactor.Cluster.MemberList
import Protoactor.Cluster.PubSub
import Protoactor.Cluster.IdentityLookup
import Protoactor.Cluster.Loops
import Protoactor.Actor.Mailbox.Order
import Protoactor.Actor.Context.Steady
import Protoactor.Actor.Spawn.Calls
import Protoactor.Actor.Spawn.Calls.Records
import Protoactor.Actor.Spawn.Poison
import Protoactor.Lib.Versions
import Protoactor.Lib.Sparse
import Protoactor.Persistence.Snapshots
import Protoactor.Persistence.Events
import Protoactor.Persistence.Bounds
import Protoactor.Actor.Registry.Removal
import Protoactor.Actor.Spawn.Named
import Protoactor.Actor.Spawn.Paths
import Protoactor.Actor.Context.Forwarding
import Protoactor.Actor.Context.Stashing
import Protoactor.Actor.Context.Stashing.Replay
import Protoactor.Actor.Context.Stashing.Invocations
import Protoactor.Actor.Mailbox.Posts
import Protoactor.Actor.Context.Continuing
import Protoactor.Actor.Reentry
import Protoactor.Actor.Reentry.Closures
import Protoactor.Actor.Reentry.Resumed
import Protoactor.Actor.Context.Reentrant
import Protoactor.Actor.Context.Capturing
import Protoactor.Actor.Props
import Protoactor.Actor.Mailbox.Bounded
import Protoactor.Remote.Activator
import Protoactor.Remote.EndpointWriter.Batches
import Protoactor.Router.RoundRobin
import Protoactor.Actor.PriorityQueue
import Protoactor.Scheduler.Timer
import Protoactor.Remote.Serializers
import Protoactor.Lib.Sampling
import Protoactor.Cluster.Gossip.Selection
import Protoactor.Actor.Registry.Ids
import Protoactor.Actor.Props.Chains
import Protoactor.Actor.Context.ReceiveTimeout
import Protoactor.Cluster.MemberList.Locking
import Protoactor.Cluster.MemberList.Locking.Discipline
import Protoactor.Cluster.MemberList.Locking.Updates
import Protoactor.Lib.Fifo
import Protoactor.Remote.Handshake
import Protoactor.Remote.Handshake.Safety
import Protoactor.Remote.Handshake.Delivery
import Protoactor.Remote.Handshake.Progress
import Protoactor.Remote.Handshake.Stale
import Protoactor.Remote.Handshake.Blocked
import Protoactor.Actor.Mailbox.Overtaking
import Protoactor.Lib.LookAside
import Protoactor.Cluster.IdentityLookup.Activation
import Protoactor.Remote.Handshake.Received
import Protoactor.Actor.Behavior
