import PhoenixChannel.Client.Driver
import PhoenixChannel.Library.Machine

/-! The driver's loop.

An input is one thing a phase of the loop can wake up for. What the environment decides is
part of it: the order in which inputs come, what a load or a connection attempt results
in, the order a hash map is iterated in, how time passes. A timer fires when it is due, or
later. -/
namespace PhoenixChannel.Client
open PhoenixChannel.Runtime Library

/-- Commands of the lifecycle queue. -/
inductive LifecycleCommand where
  | register (topic : Topic)
  | unregister (topic : Topic)
  | cancel (id : RequestId)

/-- Commands of the command queue. A response sender is named by its request's id. -/
inductive Command where
  | connect
  | disconnect
  | subscribe
  | subscribeChannel (topic : Topic)
  | ping (id : RequestId)
  | join (id : RequestId) (topic : Topic) (timeout : Duration)
  | call (id : RequestId) (topic : Topic) (event : String) (payload : Payload) (started : Duration)
  | cast (id : RequestId) (topic : Topic) (event : String) (payload : Payload)
  | leave (id : RequestId) (topic : Topic) (timeout : Duration)
  | shutdown

/-- The request a command is made for. -/
def Command.request : Command → Option (ClientOperation × RequestId)
  | .ping id => some (.ping, id)
  | .join id _ _ => some (.join, id)
  | .call id _ _ _ _ => some (.call, id)
  | .cast id _ _ _ => some (.cast, id)
  | .leave id _ _ => some (.leave, id)
  | .connect | .disconnect | .subscribe | .subscribeChannel _ | .shutdown => none

/-- What the loop wakes up for. -/
inductive Input where
  | lifecycle (command : LifecycleCommand)
  | lifecycleClosed
  | command (command : Command)
  | commandsClosed
  /-- The connection attempt ended; `order` is the order the channel map is iterated in. -/
  | connection (result : Except TransportError Transport) (order : List Topic)
  | connectTimeout
  | message (message : WireMessage)
  | transportClosed (close : TransportClose)
  | transportFailed (error : TransportError)
  | heartbeat
  | payload (topic : Topic) (payloadId : UInt64) (result : Except String Value)
  | rejoin (timer : Timer Topic)
  | operationTimeout (timer : Timer OperationTimeout)
  | retry
  /-- A handle is dropped: its status closes before the driver hears of it. -/
  | handleDropped (topic : Topic)
  | tick (elapsed : Duration)

namespace Driver

/-- Notes the request of a command the driver takes. -/
def accept (d : Driver) (command : Command) : Driver :=
  match command.request with
  | some (operation, id) => d.emit (.accepted operation id)
  | none => d

def acknowledge (d : Driver) : Driver := d.emit .acknowledged

/-! ### Offline

Without a connection a join is only noted and a push only queued. A ping is refused, and a leave has
nothing to leave. -/

def handleOfflineLifecycle (env : Env) (d : Driver) : LifecycleCommand → Driver
  | .register topic => d.register env topic
  | .unregister topic => d.unregister topic
  | .cancel id => d.cancel id

/-- Commands other than the connection controls, which the loop handles itself. -/
def handleOfflineCommand (env : Env) (d : Driver) : Command → Driver
  | .ping id => d.answer .ping id (.error .socketNotConnected)
  | .join id topic timeout =>
    match d.record topic with
    | some channel =>
      d.setRecord topic { channel with
        desired := true, joinTimeout := max channel.joinTimeout timeout
        status := .waitingForSocket, joinWaiters := channel.joinWaiters.insert id }
    | none => d.answer .join id (.error (.unknownTopic topic))
  | .call id topic event payload started => d.queue env topic (.call id event payload started)
  | .cast id topic event payload => d.queue env topic (.cast id event payload)
  | .leave id topic _ =>
    ((d.setStatus topic .left).stopChannel topic).answer .leave id (.ok (.payload .emptyObject))
  | .connect | .disconnect | .subscribe | .subscribeChannel _ | .shutdown => d

/-! ### Connected

A command is carried out, and may end the connection. -/

/-- A dropped handle's channel leaves the server if it is joined. -/
def unregisterConnected (env : Env) (d : Driver) (topic : Topic) : Result :=
  if d.state.protocol.channelState topic = some .joined then
    match d.state.protocol.leave topic with
    | (.ok outbound, protocol) =>
      ((d.setProtocol protocol).unregister topic).sendFrame env [] outbound.frame
    | (.error _, protocol) => ((d.setProtocol protocol).unregister topic, none)
  else (d.unregister topic, none)

def handleConnectedLifecycle (env : Env) (d : Driver) : LifecycleCommand → Result
  | .register topic => (d.register env topic, none)
  | .unregister topic => d.unregisterConnected env topic
  | .cancel id => (d.cancel id, none)

def handlePing (env : Env) (d : Driver) (id : RequestId) : Result :=
  let (outbound, protocol) := d.state.protocol.heartbeat
  let d := d.setProtocol protocol
  let d := { d with
    state := { d.state with
      pendingPings := d.state.pendingPings.insert outbound.reference ⟨id, d.clock⟩ } }
  d.sendFrame env [id] outbound.frame

def handleJoin (d : Driver) (id : RequestId) (topic : Topic) (timeout : Duration) : Driver :=
  match d.record topic with
  | none => d.answer .join id (.error (.unknownTopic topic))
  | some channel =>
    if d.state.protocol.channelState topic = some .joined then
      (d.setRecord topic { channel with desired := true, status := .joined }).answer .join id
        (.error (.alreadyJoined topic))
    else
      let d := d.setRecord topic { channel with
        desired := true, status := .waitingToJoin
        joinTimeout := max channel.joinTimeout timeout
        joinWaiters := channel.joinWaiters.insert id }
      d.loadPayload topic

def handlePush (env : Env) (d : Driver) (topic : Topic) (push : QueuedPush) : Result :=
  if d.state.protocol.channelState topic = some .joined then d.sendPush env topic push
  else (d.queue env topic push, none)

/-- A leave is sent for a joined channel, deferred while a join is in flight, and has
nothing to do otherwise. -/
def handleLeave (env : Env) (d : Driver) (id : RequestId) (topic : Topic) (timeout : Duration) :
    Result :=
  let state := d.state.protocol.channelState topic
  let status := if state = some .joined ∨ state = some .joining then .leaving else .left
  let d := (d.setStatus topic status).stopChannel topic
  if state = some .joined then d.sendLeave env topic ⟨id, timeout, true⟩
  else if state = some .joining then
    match d.record topic with
    | some channel =>
      (d.setRecord topic { channel with deferredLeave := some ⟨id, timeout, true⟩ }, none)
    | none => (d.answer .leave id (.ok (.payload .emptyObject)), none)
  else (d.answer .leave id (.ok (.payload .emptyObject)), none)

def handleConnectedCommand (env : Env) (d : Driver) : Command → Result
  | .ping id => d.handlePing env id
  | .join id topic timeout => (d.handleJoin id topic timeout, none)
  | .call id topic event payload started => d.handlePush env topic (.call id event payload started)
  | .cast id topic event payload => d.handlePush env topic (.cast id event payload)
  | .leave id topic timeout => d.handleLeave env id topic timeout
  | .connect | .disconnect | .subscribe | .subscribeChannel _ | .shutdown => (d, none)

/-! ### Between connections

A lost connection interrupts what was in flight. Whether and when the next attempt starts is up to
the policy. -/

/-- A channel that lost its connection. -/
def offlineRecord (channel : ChannelRecord) : ChannelRecord :=
  { channel with
    activePayload := none, rejoinScheduled := false, deferredLeave := none
    status := if channel.desired then .waitingForSocket else .left }

/-- What the requests in flight are told when the connection ends. -/
def interruptions (old : DriverState) (clock : Duration) : List Effect :=
  (old.pendingCalls.toList.flatMap fun entry =>
      [.telemetry (.callCompleted entry.2.topic entry.2.event .interrupted (clock - entry.2.started)),
        .answered .call entry.2.id (.error (.interrupted .call))]) ++
    (old.pendingPings.toList.map fun entry =>
      .answered .ping entry.2.id (.error (.interrupted .ping))) ++
    ((old.pendingLeaves.toList.filter fun entry => entry.2.response).map fun entry =>
      .answered .leave entry.2.id (.error (.interrupted .leave))) ++
    (((old.channels.toList.filterMap fun entry => entry.2.deferredLeave).filter fun pending =>
      pending.response).map fun pending =>
        .answered .leave pending.id (.error (.interrupted .leave)))

/-- Reports a request that a reset cut off. -/
def reportInterrupted (d : Driver) (event : ProtocolEvent) : Driver :=
  match event with
  | .requestInterrupted topic _ _ => d.emitChannel topic (.protocol event)
  | _ => d

/-- Interrupts what was in flight and resets every channel. -/
def onDisconnect (d : Driver) (reason : DisconnectReason) : Driver :=
  let (events, protocol) := d.state.protocol.resetConnection
  let old := d.state
  let state : DriverState :=
    ⟨protocol, old.channels.map fun _ channel => offlineRecord channel, ∅, ∅, ∅, ∅,
      old.nextPayloadId, old.socketStatus⟩
  let d := { d with state, connection := .none }.emitAll (interruptions old d.clock)
  let d := old.channels.keys.foldl (fun d topic => d.emitChannel topic .disconnected) d
  let d := events.foldl reportInterrupted d
  d.emitSocket (.disconnected reason)

/-- What follows a connection that ended or failed by itself. -/
def reconnectAction (env : Env) (attempt : Nat) (reason : DisconnectReason) : ReconnectAction :=
  match env.options.reconnectPolicy with
  | some policy => policy attempt reason
  | none =>
    if reason.shouldReconnect then .retryAfter (env.options.reconnectDelay attempt) else .stop

def afterFailure (env : Env) (d : Driver) (reason : DisconnectReason) : Driver :=
  let attempt := nextAttempt d.attempt
  let d := { d with attempt }
  match reconnectAction env attempt reason with
  | .retryAfter delay =>
    { d.emitSocket (.reconnectScheduled attempt delay) with phase := .waiting (d.clock + delay) }
  | .stop => { d.emitSocket (.reconnectStopped attempt reason) with phase := .idle }

def beginConnect (env : Env) (d : Driver) : Driver :=
  { d.emitSocket (.connecting d.attempt) with
    phase := .connecting d.clock (d.clock + env.options.connectTimeout) }

/-- The application asked for the disconnect: no retry follows. -/
def disconnect (d : Driver) : Driver :=
  { (d.onDisconnect .requested).acknowledge with phase := .idle }

def close (d : Driver) : Driver := { d.emitSocket .closed with phase := .closed }

def attemptFinished (d : Driver) (started : Duration) (connected : Bool) : Driver :=
  d.telemetry (.connectionAttemptFinished d.attempt (d.clock - started) connected)

/-- The attempt failed. -/
def connectFailed (env : Env) (d : Driver) (started : Duration) (error : TransportError) : Driver :=
  let d := (d.attemptFinished started false).emitSocket (.disconnected (.connect error))
  d.afterFailure env (.connect error)

/-- The attempt succeeded: every wanted channel loads a payload. -/
def connectionMade (env : Env) (d : Driver) (started : Duration) (transport : Transport)
    (order : List Topic) : Driver :=
  let d := d.attemptFinished started true
  let d := { d with attempt := 0, transport }.emitSocket .connected
  let d := { d with
    state := { d.state with
      channels := d.state.channels.map fun _ channel => { channel with rejoinScheduled := false } }
    connection := { Connection.none with heartbeatDue := d.clock + env.options.heartbeatInterval }
    phase := .connected }
  let desired := order.filter fun topic => (d.record topic).any ChannelRecord.desired
  desired.foldl (fun d topic => (d.setStatus topic .waitingToJoin).loadPayload topic) d

/-- The result of a handler of the connected loop. -/
def settle (env : Env) : Result → Driver
  | (d, none) => d
  | (d, some reason) => (d.onDisconnect reason).afterFailure env reason

/-! ### Steps

In each phase the loop wakes up for some of the inputs; the others are refused, and stay with
whoever sends them. -/

def stepIdle (env : Env) (d : Driver) : Input → Option Driver
  | .lifecycle command => some (d.handleOfflineLifecycle env command)
  | .lifecycleClosed | .commandsClosed => some d.close
  | .command .connect => some ({ d.acknowledge with attempt := 0 }.beginConnect env)
  | .command .disconnect => some d.acknowledge
  | .command .shutdown => some d.acknowledge.close
  | .command command => some ((d.accept command).handleOfflineCommand env command)
  | _ => none

def stepConnecting (env : Env) (d : Driver) (started due : Duration) : Input → Option Driver
  | .lifecycle command => some (d.handleOfflineLifecycle env command)
  | .lifecycleClosed | .commandsClosed => some d.close
  | .connection (.ok transport) order =>
    if Table.IsOrder order d.state.channels then some (d.connectionMade env started transport order)
    else none
  | .connection (.error e) _ => some (d.connectFailed env started e)
  | .connectTimeout =>
    if due ≤ d.clock then
      some (d.connectFailed env started ⟨.connect, "connection attempt timed out after " ++
        env.showDuration env.options.connectTimeout⟩)
    else none
  | .command .connect => some d.acknowledge
  | .command .disconnect => some (d.attemptFinished started false).disconnect
  | .command .shutdown => some (d.attemptFinished started false).acknowledge.close
  | .command command => some ((d.accept command).handleOfflineCommand env command)
  | _ => none

def stepWaiting (env : Env) (d : Driver) (due : Duration) : Input → Option Driver
  | .lifecycle command => some (d.handleOfflineLifecycle env command)
  | .lifecycleClosed | .commandsClosed => some d.close
  | .retry => if due ≤ d.clock then some (d.beginConnect env) else none
  | .command .connect => some d.acknowledge
  | .command .disconnect => some d.disconnect
  | .command .shutdown => some d.acknowledge.close
  | .command command => some ((d.accept command).handleOfflineCommand env command)
  | _ => none

/-- A load, a rejoin timer or a deadline that completed is no longer waited for. -/
def takePayload (d : Driver) (topic : Topic) (payloadId : UInt64) : Driver :=
  { d with
    connection := { d.connection with payloads := d.connection.payloads.erase (topic, payloadId) } }

def takeRejoin (d : Driver) (timer : Timer Topic) : Driver :=
  { d with connection := { d.connection with rejoins := d.connection.rejoins.erase timer } }

def takeOperationTimeout (d : Driver) (timer : Timer OperationTimeout) : Driver :=
  { d with
    connection := { d.connection with
      operationTimeouts := d.connection.operationTimeouts.erase timer } }

/-- A message of the connected loop. An acknowledged heartbeat restarts its interval. -/
def onMessage (env : Env) (d : Driver) (message : WireMessage) : Result :=
  let awaiting := d.connection.heartbeatReference.isSome
  (d.handleIncoming env message).andThen fun d =>
    if awaiting && d.connection.heartbeatReference.isNone then
      ({ d with
        connection := { d.connection with
          heartbeatDue := d.clock + env.options.heartbeatInterval } }, none)
    else (d, none)

def stepConnected (env : Env) (d : Driver) : Input → Option Driver
  | .lifecycle command => some (settle env (d.handleConnectedLifecycle env command))
  | .lifecycleClosed | .commandsClosed => some (settle env (d, some .driverStopped))
  | .command .connect => some d.acknowledge
  | .command .disconnect => some d.disconnect
  | .command .shutdown => some { d.acknowledge.close with connection := .none }
  | .command command => some (settle env ((d.accept command).handleConnectedCommand env command))
  | .message message => some (settle env (d.onMessage env message))
  | .transportClosed close => some (settle env (d, some (.closed close)))
  | .transportFailed e => some (settle env (d, some (.transport e)))
  | .heartbeat =>
    if d.connection.heartbeatDue ≤ d.clock then some (settle env (d.handleHeartbeat env)) else none
  | .payload topic payloadId result =>
    if (topic, payloadId) ∈ d.connection.payloads then
      some (settle env ((d.takePayload topic payloadId).handlePayload env topic payloadId result))
    else none
  | .rejoin timer =>
    if timer ∈ d.connection.rejoins ∧ timer.due ≤ d.clock then
      some ((d.takeRejoin timer).handleRejoin timer.value)
    else none
  | .operationTimeout timer =>
    if timer ∈ d.connection.operationTimeouts ∧ timer.due ≤ d.clock then
      some ((d.takeOperationTimeout timer).handleOperationTimeout env timer.value)
    else none
  | _ => none

def step (env : Env) (d : Driver) (input : Input) : Option Driver :=
  match input with
  | .tick elapsed => some { d with clock := d.clock + elapsed }
  | .handleDropped topic => some (d.setStatus topic .closed)
  | input =>
    match d.phase with
    | .idle => d.stepIdle env input
    | .connecting started due => d.stepConnecting env started due input
    | .connected => d.stepConnected env input
    | .waiting due => d.stepWaiting env due input
    | .closed => none

def start (env : Env) : Driver :=
  let d : Driver := ⟨.new, .none, .idle, 0, 0, ⟨true, []⟩, []⟩
  if env.options.connectOnStart then d.beginConnect env else d

end Driver

/-- The driver as a machine. -/
def driver (env : Env) : Machine Driver Input := ⟨Driver.start env, Driver.step env⟩

/-! ### An environment to run in

A codec that knows the frames it is given, so that runs on fixed inputs can be evaluated. -/

/-- The texts of the payloads below. -/
def payloadText : Payload → String
  | .json (.object []) => "\x7b\x7d"
  | .json (.object [("response", .object []), ("status", .string status)]) =>
    "\x7b\"response\":\x7b\x7d,\"status\":\"" ++ status ++ "\"\x7d"
  | _ => "null"

def referenceText : Option Reference → String
  | some reference => "\"" ++ reference ++ "\""
  | none => "null"

/-- The text of a frame with one of those payloads. -/
def frameText (frame : Frame) : String :=
  "[" ++ referenceText frame.joinRef ++ "," ++ referenceText frame.reference ++ ",\"" ++ frame.topic ++
    "\",\"" ++ frame.event ++ "\"," ++ payloadText frame.payload ++ "]"

/-- A reply with an empty response. -/
def replyFrame (status : String) (topic : Topic) (joinRef reference : Reference) : Frame :=
  ⟨some joinRef, some reference, topic, "phx_reply",
    .json (.object [("response", .object []), ("status", .string status)])⟩

/-- A server event of a generation, with an empty payload. -/
def serverFrame (event : String) (topic : Topic) (joinRef : Reference) : Frame :=
  ⟨some joinRef, none, topic, event, .emptyObject⟩

/-- Default settings, and a codec for the given frames. -/
def smallEnv (frames : List Frame) : Env where
  options :=
    { heartbeatInterval := 30, heartbeatTimeout := 30, connectTimeout := 10, joinTimeout := 10
      reconnectDelay := fun _ => 1, reconnectPolicy := none, rejoinDelay := fun _ => 1
      pushBufferCapacity := 64, connectOnStart := true }
  codec :=
    { encode := fun frame => .ok (.text (frameText frame))
      decode := fun message =>
        match frames.find? fun frame => message = .text (frameText frame) with
        | some frame => .ok frame
        | none => .error "unknown message" }
  showDuration := fun duration => duration.repr ++ "s"

/-- A frame as the transport delivers it. -/
def Input.frame (frame : Frame) : Input := .message (.text (frameText frame))

/-- A connection that carries everything. -/
def Input.connectionMade (order : List Topic) : Input := .connection (.ok ⟨true, []⟩) order

/-- A channel is being joined. -/
def joining : List Input :=
  [.connectionMade [], .lifecycle (.register "room"), .command (.join 1 "room" 10),
    .payload "room" 1 (.ok (.object []))]

end PhoenixChannel.Client
