import PhoenixChannel.Client.Types

/-! The state of the driver.

`DriverState` holds the tables the driver owns, `Connection` the locals of one connected
period, and `Driver` both with the clock, the transport and a trace of what the driver did.
A response sender is named by its request's id. Event subscribers and payload loaders are
not held: an emitted event and a started load are entries of the trace. -/
namespace PhoenixChannel.Client
open PhoenixChannel.Runtime Library

/-- Settings the driver reads, and the texts of durations in its messages. -/
structure Options where
  heartbeatInterval : Duration
  heartbeatTimeout : Duration
  connectTimeout : Duration
  joinTimeout : Duration
  reconnectDelay : Nat → Duration
  reconnectPolicy : Option (Nat → DisconnectReason → ReconnectAction)
  rejoinDelay : Nat → Duration
  pushBufferCapacity : Nat
  connectOnStart : Bool

/-- What the driver is built with. `showDuration` prints a duration for a message. -/
structure Env where
  options : Options
  codec : Codec
  showDuration : Duration → String

/-- A call or cast that waits for its channel to be joined. -/
inductive QueuedPush where
  | call (id : RequestId) (event : String) (payload : Payload) (started : Duration)
  | cast (id : RequestId) (event : String) (payload : Payload)

namespace QueuedPush

def id : QueuedPush → RequestId
  | .call id _ _ _ | .cast id _ _ => id

def operation : QueuedPush → ClientOperation
  | .call _ _ _ _ => .call
  | .cast _ _ _ => .cast

end QueuedPush

/-- A leave that waits for its reply. The sender is gone once the request was cancelled. -/
structure PendingLeave where
  id : RequestId
  timeout : Duration
  response : Bool

structure ChannelRecord where
  status : ChannelStatus
  desired : Bool
  everJoined : Bool
  activePayload : Option UInt64
  joinAttempt : Nat
  joinTimeout : Duration
  rejoinScheduled : Bool
  joinWaiters : List RequestId
  queued : List QueuedPush
  deferredLeave : Option PendingLeave

structure PendingCall where
  id : RequestId
  topic : Topic
  event : String
  started : Duration

structure PendingPing where
  id : RequestId
  started : Duration

/-- The deadline of a transmitted join or leave. -/
inductive OperationTimeout where
  | join (topic : Topic) (reference : Reference) (duration : Duration)
  | leave (topic : Topic) (reference : Reference) (duration : Duration)
  deriving DecidableEq

namespace OperationTimeout

def topic : OperationTimeout → Topic
  | .join topic _ _ | .leave topic _ _ => topic

def reference : OperationTimeout → Reference
  | .join _ reference _ | .leave _ reference _ => reference

def duration : OperationTimeout → Duration
  | .join _ _ duration | .leave _ _ duration => duration

end OperationTimeout

/-- A sleep that ends at `due` and then yields its value. -/
structure Timer (α : Type) where
  due : Duration
  value : α
  deriving DecidableEq

structure DriverState where
  protocol : Protocol
  channels : Table Topic ChannelRecord
  pendingJoins : Table Reference Topic
  pendingCalls : Table Reference PendingCall
  pendingPings : Table Reference PendingPing
  pendingLeaves : Table Reference PendingLeave
  nextPayloadId : UInt64
  socketStatus : SocketStatus

/-- What lives as long as one connection: payload loads, timers and the heartbeat. -/
structure Connection where
  payloads : List (Topic × UInt64)
  rejoins : List (Timer Topic)
  operationTimeouts : List (Timer OperationTimeout)
  heartbeatReference : Option Reference
  heartbeatDue : Duration

/-- Where the driver's loop waits. -/
inductive Phase where
  | idle
  | connecting (started due : Duration)
  | connected
  | waiting (due : Duration)
  | closed
  deriving DecidableEq, Repr

/-- Something the driver did. `accepted` marks a command it took with a response to give,
`cancelled` a response it dropped for a cancellation, and a frame or a load names the
requests it is made for; these are kept for the statements only. -/
inductive Effect where
  | accepted (operation : ClientOperation) (id : RequestId)
  | answered (operation : ClientOperation) (id : RequestId) (result : Except ClientError Success)
  | cancelled (operation : ClientOperation) (id : RequestId)
  | outgoing (served : List RequestId) (frame : Frame)
  | loading (topic : Topic) (payloadId : UInt64) (context : JoinContext) (served : List RequestId)
  | acknowledged
  | delivered (topic : Topic) (event : ChannelEvent)
  | deliveredSocket (event : SocketEvent)
  | telemetry (event : TelemetryEvent)

structure Driver where
  state : DriverState
  connection : Connection
  phase : Phase
  attempt : Nat
  clock : Duration
  transport : Transport
  trace : List Effect

/-- The driver after a step of a handler, and why the connection ends if it does. -/
abbrev Result := Driver × Option DisconnectReason

def Connection.none : Connection := ⟨[], [], [], Option.none, 0⟩

def DriverState.new : DriverState := ⟨.new, ∅, ∅, ∅, ∅, ∅, 0, .disconnected⟩

namespace Driver

def emitAll (d : Driver) (effects : List Effect) : Driver :=
  { d with trace := d.trace ++ effects }

def emit (d : Driver) (effect : Effect) : Driver := d.emitAll [effect]

def telemetry (d : Driver) (event : TelemetryEvent) : Driver := d.emit (.telemetry event)

/-- Sends one result to each of the senders. -/
def answerAll (d : Driver) (operation : ClientOperation) (ids : List RequestId)
    (result : Except ClientError Success) : Driver :=
  d.emitAll (ids.map fun id => .answered operation id result)

def answer (d : Driver) (operation : ClientOperation) (id : RequestId)
    (result : Except ClientError Success) : Driver :=
  d.answerAll operation [id] result

def record (d : Driver) (topic : Topic) : Option ChannelRecord := d.state.channels[topic]?

def setRecord (d : Driver) (topic : Topic) (record : ChannelRecord) : Driver :=
  { d with state := { d.state with channels := d.state.channels.insert topic record } }

def setProtocol (d : Driver) (protocol : Protocol) : Driver :=
  { d with state := { d.state with protocol } }

/-- Sets the status of a registered channel. -/
def setStatus (d : Driver) (topic : Topic) (status : ChannelStatus) : Driver :=
  match d.record topic with
  | some channel => d.setRecord topic { channel with status }
  | none => d

def emitCallCompleted (d : Driver) (topic : Topic) (event : String) (started : Duration)
    (outcome : CallOutcome) : Driver :=
  d.telemetry (.callCompleted topic event outcome (d.clock - started))

/-- Reports a channel event to the hook, and to the subscribers of a registered channel. -/
def emitChannel (d : Driver) (topic : Topic) (event : ChannelEvent) : Driver :=
  let d := d.telemetry (.channel topic event)
  if d.state.channels.contains topic then d.emit (.delivered topic event) else d

def socketStatusOf : SocketEvent → SocketStatus
  | .connecting _ => .connecting
  | .connected => .connected
  | .disconnected reason => if reason.shouldReconnect then .waitingToReconnect else .disconnected
  | .reconnectStopped _ _ => .disconnected
  | .reconnectScheduled _ _ => .waitingToReconnect
  | .closed => .closed

/-- Reports a socket event. The closing of the socket closes every channel. -/
def emitSocket (d : Driver) (event : SocketEvent) : Driver :=
  let d := d.telemetry (.socket event)
  let status := socketStatusOf event
  let channels :=
    if status = .closed then
      d.state.channels.map fun _ channel => { channel with status := .closed }
    else d.state.channels
  { d with state := { d.state with socketStatus := status, channels } }.emit (.deliveredSocket event)

/-- What was done from `d` to `d'`. -/
def done (d d' : Driver) : List Effect := d'.trace.drop d.trace.length

/-! ### What the small steps leave alone

Writing a record, emitting effects and setting the protocol each change one field. These equations
say so, and are simp lemmas. -/

section
variable (d : Driver) (effects : List Effect) (effect : Effect) (event : TelemetryEvent)
  (operation : ClientOperation) (ids : List RequestId) (id : RequestId)
  (result : Except ClientError Success)

@[simp] theorem emitAll_state : (d.emitAll effects).state = d.state := rfl
@[simp] theorem emitAll_connection : (d.emitAll effects).connection = d.connection := rfl
@[simp] theorem emitAll_transport : (d.emitAll effects).transport = d.transport := rfl
@[simp] theorem emitAll_clock : (d.emitAll effects).clock = d.clock := rfl
@[simp] theorem emitAll_phase : (d.emitAll effects).phase = d.phase := rfl
@[simp] theorem emitAll_trace : (d.emitAll effects).trace = d.trace ++ effects := rfl
@[simp] theorem emit_eq : d.emit effect = d.emitAll [effect] := rfl
@[simp] theorem telemetry_eq : d.telemetry event = d.emitAll [.telemetry event] := rfl
@[simp] theorem answerAll_eq : d.answerAll operation ids result =
    d.emitAll (ids.map fun id => .answered operation id result) := rfl
@[simp] theorem answer_eq : d.answer operation id result =
    d.emitAll [.answered operation id result] := rfl
@[simp] theorem emitAll_emitAll (effects' : List Effect) :
    (d.emitAll effects).emitAll effects' = d.emitAll (effects ++ effects') := by
  simp [emitAll]
@[simp] theorem emitCallCompleted_eq (topic : Topic) (name : String) (started : Duration)
    (outcome : CallOutcome) :
    d.emitCallCompleted topic name started outcome =
      d.emitAll [.telemetry (.callCompleted topic name outcome (d.clock - started))] := rfl

/-- The effects of reporting a channel event. -/
def channelEffects (topic : Topic) (event : ChannelEvent) : List Effect :=
  .telemetry (.channel topic event) ::
    if d.state.channels.contains topic then [.delivered topic event] else []

theorem emitChannel_eq (topic : Topic) (event : ChannelEvent) :
    d.emitChannel topic event = d.emitAll (d.channelEffects topic event) := by
  unfold emitChannel channelEffects
  by_cases h : d.state.channels.contains topic
  · simp [h]
  · simp [h]

@[simp] theorem emitAll_record (topic : Topic) :
    (d.emitAll effects).record topic = d.record topic := rfl

end

theorem done_of_append {d d' : Driver} {effects : List Effect}
    (h : d'.trace = d.trace ++ effects) : d.done d' = effects := by
  rw [done, h, List.drop_left]

theorem setStatus_of_some {d : Driver} {topic : Topic} {channel : ChannelRecord}
    (h : d.record topic = some channel) (status : ChannelStatus) :
    d.setStatus topic status = d.setRecord topic { channel with status } := by
  simp only [setStatus, h]

theorem setStatus_of_none {d : Driver} {topic : Topic} (h : d.record topic = none)
    (status : ChannelStatus) : d.setStatus topic status = d := by
  simp only [setStatus, h]

@[simp] theorem record_setRecord (d : Driver) (topic : Topic) (channel : ChannelRecord) :
    (d.setRecord topic channel).record topic = some channel := by
  simp [record, setRecord]

end Driver
end PhoenixChannel.Client
