import PhoenixChannel.Library.Machine
import PhoenixChannel.Library.Tables
import PhoenixChannel.Library.Deltas
import PhoenixChannel.Library.Backlog
import PhoenixChannel.Runtime.Frame
import PhoenixChannel.Runtime.Protocol
import PhoenixChannel.Runtime.References
import PhoenixChannel.Runtime.Operations
import PhoenixChannel.Runtime.Ledger
import PhoenixChannel.Runtime.Coherence
import PhoenixChannel.Runtime.Failures
import PhoenixChannel.Runtime.JoinReplies
import PhoenixChannel.Runtime.History
import PhoenixChannel.Runtime.RejoinAll
import PhoenixChannel.Runtime.Presence
import PhoenixChannel.Runtime.PresenceSync
import PhoenixChannel.Runtime.PresenceConvergence
import PhoenixChannel.Runtime.PresenceQueue
import PhoenixChannel.Runtime.PresenceChanges
import PhoenixChannel.Runtime.PresenceOutcomes
import PhoenixChannel.Runtime.PresenceContents
import PhoenixChannel.Runtime.PresenceShape
import PhoenixChannel.Runtime.PresenceRefusals
import PhoenixChannel.Runtime.Transport
import PhoenixChannel.Runtime.Codec
import PhoenixChannel.Runtime.Serializer
import PhoenixChannel.Runtime.CodecLimits
import PhoenixChannel.Runtime.Session
import PhoenixChannel.Runtime.Unsent
import PhoenixChannel.Client.Types
import PhoenixChannel.Client.EventStreams
import PhoenixChannel.Client.StatusStreams
import PhoenixChannel.Client.Presence
import PhoenixChannel.Client.PresenceGeneration
import PhoenixChannel.Client.PresenceMirror
import PhoenixChannel.Client.DriverState
import PhoenixChannel.Client.Driver
import PhoenixChannel.Client.Run
import PhoenixChannel.Client.Handlers
import PhoenixChannel.Client.Steps
import PhoenixChannel.Client.Pushes
import PhoenixChannel.Client.ProtocolMoves
import PhoenixChannel.Client.Traces
import PhoenixChannel.Client.InFlight
import PhoenixChannel.Client.StaleTimers
import PhoenixChannel.Client.StaleFrames
import PhoenixChannel.Client.JoinReply
import PhoenixChannel.Client.Confined
import PhoenixChannel.Client.Tracking
import PhoenixChannel.Client.Steady
import PhoenixChannel.Client.Endings
import PhoenixChannel.Client.Arrivals
import PhoenixChannel.Client.Invariant
import PhoenixChannel.Client.Wanted
import PhoenixChannel.Client.Generations
import PhoenixChannel.Client.Deferred
import PhoenixChannel.Client.Apart
import PhoenixChannel.Client.OneTopic
import PhoenixChannel.Client.Flushes
import PhoenixChannel.Client.Statuses
import PhoenixChannel.Client.Consistency
import PhoenixChannel.Client.QueueOrder
import PhoenixChannel.Client.PushOrder
import PhoenixChannel.Client.Subjects
import PhoenixChannel.Client.Answerable
import PhoenixChannel.Client.WrapAround
import PhoenixChannel.Client.Interference
import PhoenixChannel.Client.Standing
import PhoenixChannel.Client.Dropped
import PhoenixChannel.Client.Requests
import PhoenixChannel.Client.Honoring
import PhoenixChannel.Client.Settling
import PhoenixChannel.Client.Conservation
import PhoenixChannel.Client.Custody
import PhoenixChannel.Client.Loads
import PhoenixChannel.Client.Continuity
import PhoenixChannel.Client.Handles
import PhoenixChannel.Client.Superseded
import PhoenixChannel.Client.Withdrawals
import PhoenixChannel.Client.Wishes
import PhoenixChannel.Client.Cancelled
import PhoenixChannel.Client.Unencodable
import PhoenixChannel.Client.Plans
import PhoenixChannel.Client.LeaveAnswers
import PhoenixChannel.Client.RejoinTimers
import PhoenixChannel.Client.Completions
import PhoenixChannel.Native.Worker
import PhoenixChannel.Native.Moves
import PhoenixChannel.Native.Requests
import PhoenixChannel.Native.Lives
import PhoenixChannel.Native.Cancellation
import PhoenixChannel.Native.Bookkeeping
import PhoenixChannel.Library.Observation
import PhoenixChannel.Client.Work
import PhoenixChannel.Client.Turns
import PhoenixChannel.Client.Lifecycle
import PhoenixChannel.Client.Stillness
import PhoenixChannel.Client.Heartbeats
import PhoenixChannel.Client.Deadlines
import PhoenixChannel.Web.LongPoll
import PhoenixChannel.Web.Polling
import PhoenixChannel.Web.SessionEnd
import PhoenixChannel.Web.Traffic
import PhoenixChannel.Web.WebTransport
import PhoenixChannel.Library.Broadcast
import PhoenixChannel.Client.Subscriptions
import PhoenixChannel.Native.EventPump
import PhoenixChannel.Native.Receivers
import PhoenixChannel.Client.Dealings
import PhoenixChannel.Client.Wire
import PhoenixChannel.Client.Pings
import PhoenixChannel.Library.Framing
import PhoenixChannel.Library.Watch
import PhoenixChannel.Native.Proxy
import PhoenixChannel.Native.StatusRelay
import PhoenixChannel.Client.Endpoint
import PhoenixChannel.Web.LongPollConnector
import PhoenixChannel.Web.PageLifecycle
