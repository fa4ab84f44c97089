import PhoenixChannel.Runtime.Protocol
import PhoenixChannel.Runtime.Transport

/-! What the managed client reports: statuses, events, errors and telemetry. -/
namespace PhoenixChannel.Client
open PhoenixChannel.Runtime

/-- Names one request of a handle. -/
abbrev RequestId := Nat

/-- A duration or a point of the timer's clock. -/
abbrev Duration := Nat

/-- Condition that disconnected a managed socket. -/
inductive DisconnectReason where
  | requested
  | connect (error : TransportError)
  | transport (error : TransportError)
  | closed (close : TransportClose)
  | heartbeatTimeout
  | protocol (message : String)
  | driverStopped
  deriving DecidableEq, Repr

def DisconnectReason.shouldReconnect : DisconnectReason → Bool
  | .closed close => close.shouldReconnect
  | .requested | .driverStopped => false
  | .connect _ | .transport _ | .heartbeatTimeout | .protocol _ => true

/-- Socket connection and reconnect notification. -/
inductive SocketEvent where
  | connecting (attempt : Nat)
  | connected
  | disconnected (reason : DisconnectReason)
  | reconnectScheduled (attempt : Nat) (delay : Duration)
  | reconnectStopped (attempt : Nat) (reason : DisconnectReason)
  | closed

/-- Observable socket state. -/
inductive SocketStatus where
  | disconnected
  | connecting
  | connected
  | waitingToReconnect
  | closed
  deriving DecidableEq, Repr

/-- Protocol or lifecycle notification for one channel topic. -/
inductive ChannelEvent where
  | protocol (event : ProtocolEvent)
  | disconnected
  | joinPayloadError (message : String)
  | lagged (dropped : Nat)

/-- Observable state of one channel topic. -/
inductive ChannelStatus where
  | waitingForSocket
  | waitingToJoin
  | joining
  | joined
  | leaving
  | left
  | errored
  | closed
  deriving DecidableEq, Repr

/-- Operation named in timeout and interruption errors. -/
inductive ClientOperation where
  | join
  | call
  | cast
  | leave
  | ping
  deriving DecidableEq, Repr

/-- Failure a request is answered with. -/
inductive ClientError where
  | pushBufferFull (topic : Topic)
  | alreadyJoined (topic : Topic)
  | channelNotJoined (topic : Topic)
  | socketNotConnected
  | binaryNotSupported
  | timeout (operation : ClientOperation) (timeout : Duration)
  | interrupted (operation : ClientOperation)
  | joinPayload (topic : Topic) (message : String)
  | joinRejected (topic : Topic) (response : Payload)
  | unknownTopic (topic : Topic)

/-- What a request succeeds with: the response to a join or leave, the reply to a call,
the round trip of a ping. -/
inductive Success where
  | payload (response : Payload)
  | reply (status : ReplyStatus) (response : Payload)
  | elapsed (duration : Duration)
  | done

/-- Terminal outcome recorded for a call. -/
inductive CallOutcome where
  | reply (status : ReplyStatus)
  | cancelled
  | interrupted
  | rejected
  deriving DecidableEq, Repr

/-- Structured observation handed to the telemetry hook. -/
inductive TelemetryEvent where
  | socket (event : SocketEvent)
  | channel (topic : Topic) (event : ChannelEvent)
  | frameSent (topic : Topic) (event : String) (binary : Bool) (bytes : Nat)
  | frameReceived (topic : Topic) (event : String) (binary : Bool) (bytes : Nat)
  | connectionAttemptFinished (attempt : Nat) (duration : Duration) (connected : Bool)
  | callCompleted (topic : Topic) (event : String) (outcome : CallOutcome) (duration : Duration)

/-- Information supplied when a join payload is loaded. -/
structure JoinContext where
  attempt : Nat
  isRejoin : Bool
  deriving DecidableEq, Repr

/-- Decision of a reconnect policy. -/
inductive ReconnectAction where
  | retryAfter (delay : Duration)
  | stop
  deriving DecidableEq, Repr

end PhoenixChannel.Client
