import PhoenixChannel.Client.DriverState

/-! The driver's handlers.

Each handler takes the driver to the driver after it. One that may end the connection also
returns the reason; what it did before failing stays done. -/
namespace PhoenixChannel.Client
open PhoenixChannel.Runtime Library

/-- The rest of a handler, unless the connection ended before it. -/
def Result.andThen (r : Result) (f : Driver → Result) : Result :=
  match r with
  | (d, none) => f d
  | (d, some reason) => (d, some reason)

namespace Driver

/-! ### Sending

A push of a channel that is not joined stays in the queue. A frame that cannot be sent ends the
connection. -/

/-- Encodes and sends a frame made for the `served` requests. -/
def sendFrame (env : Env) (d : Driver) (served : List RequestId) (frame : Frame) : Result :=
  let d := d.emit (.outgoing served frame)
  match env.codec.encode frame with
  | .error message => (d, some (.protocol message))
  | .ok message =>
    let (binary, bytes) := message.metadata
    let d := d.telemetry (.frameSent frame.topic frame.event binary bytes)
    match d.transport.send with
    | (.ok _, transport) => ({ d with transport }, none)
    | (.error e, transport) => ({ d with transport }, some (.transport e))

def scheduleOperationTimeout (d : Driver) (operation : OperationTimeout) : Driver :=
  { d with
    connection := { d.connection with
      operationTimeouts :=
        d.connection.operationTimeouts ++ [⟨d.clock + operation.duration, operation⟩] } }

/-- Sends a call or a cast of a joined channel. -/
def sendPush (env : Env) (d : Driver) (topic : Topic) : QueuedPush → Result
  | .call id event payload started =>
    if payload.isBinary && !d.transport.supportsBinary then
      ((d.emitCallCompleted topic event started .rejected).answer .call id
        (.error .binaryNotSupported), none)
    else
      match d.state.protocol.push topic event payload with
      | (.error e, protocol) => (d.setProtocol protocol, some (.protocol e.toString))
      | (.ok outbound, protocol) =>
        let d := d.setProtocol protocol
        let call : PendingCall := ⟨id, topic, outbound.frame.event, started⟩
        let d := { d with
          state := { d.state with
            pendingCalls := d.state.pendingCalls.insert outbound.reference call } }
        d.sendFrame env [id] outbound.frame
  | .cast id event payload =>
    if payload.isBinary && !d.transport.supportsBinary then
      (d.answer .cast id (.error .binaryNotSupported), none)
    else
      match d.state.protocol.cast topic event payload with
      | .error e => (d, some (.protocol e.toString))
      | .ok frame =>
        match d.sendFrame env [id] frame with
        | (d, none) => (d.answer .cast id (.ok .done), none)
        | (d, some reason) => (d.answer .cast id (.error (.interrupted .cast)), some reason)

/-- Takes the first push of a channel's queue. -/
def popQueued (d : Driver) (topic : Topic) : Option (QueuedPush × Driver) :=
  match d.record topic with
  | none => none
  | some channel =>
    match channel.queued with
    | [] => none
    | push :: queued => some (push, d.setRecord topic { channel with queued })

/-- The loop of `flush`, for at most `fuel` pushes. -/
def flushLoop (env : Env) (topic : Topic) : Nat → Driver → Result
  | 0, d => (d, none)
  | fuel + 1, d =>
    match d.popQueued topic with
    | none => (d, none)
    | some (push, d) => (d.sendPush env topic push).andThen (flushLoop env topic fuel)

/-- Sends the queued pushes of a channel. Nothing is queued meanwhile, so the length of
the queue is fuel enough. -/
def flush (env : Env) (d : Driver) (topic : Topic) : Result :=
  flushLoop env topic ((d.record topic).elim 0 fun channel => channel.queued.length) d

/-- Sends a leave of a joined channel and sets its deadline. -/
def sendLeave (env : Env) (d : Driver) (topic : Topic) (pending : PendingLeave) : Result :=
  match d.state.protocol.leave topic with
  | (.error e, protocol) => (d.setProtocol protocol, some (.protocol e.toString))
  | (.ok outbound, protocol) =>
    let d := d.setProtocol protocol
    let d := { d with
      state := { d.state with
        pendingLeaves := d.state.pendingLeaves.insert outbound.reference pending } }
    let d := d.scheduleOperationTimeout (.leave topic outbound.reference pending.timeout)
    d.sendFrame env [pending.id] outbound.frame

/-! ### Channels

Stopping a channel answers everything that waits for it. Its record stays until its handle is
dropped. -/

/-- Registers a handle's topic, unless there is a record for it. -/
def register (env : Env) (d : Driver) (topic : Topic) : Driver :=
  if d.state.channels.contains topic then d
  else
    d.setRecord topic ⟨.closed, false, false, none, 0, env.options.joinTimeout, false, [], [], none⟩

/-- Answers the sender of a leave, if it is still there. -/
def answerLeave (d : Driver) (pending : Option PendingLeave)
    (result : Except ClientError Success) : Driver :=
  match pending with
  | some pending => if pending.response then d.answer .leave pending.id result else d
  | none => d

/-- Stops wanting a channel and interrupts what waits for it. -/
def stopChannel (d : Driver) (topic : Topic) : Driver :=
  match d.record topic with
  | none => d
  | some channel =>
    let d := d.setRecord topic { channel with
      desired := false, activePayload := none, rejoinScheduled := false, joinWaiters := []
      queued := [], deferredLeave := none }
    let d := d.answerLeave channel.deferredLeave (.error (.interrupted .leave))
    let d := d.answerAll .join channel.joinWaiters (.error (.interrupted .join))
    let d := d.emitAll (channel.queued.map fun push =>
      .answered push.operation push.id (.error (.interrupted push.operation)))
    d.emitAll (channel.queued.filterMap fun
      | .call _ event _ started =>
        some (.telemetry (.callCompleted topic event .interrupted (d.clock - started)))
      | .cast _ _ _ => none)

def discardChannel (d : Driver) (topic : Topic) : Driver :=
  d.setProtocol (d.state.protocol.discardChannel topic).2

def unregister (d : Driver) (topic : Topic) : Driver :=
  let d := d.stopChannel topic
  let d := { d with state := { d.state with channels := d.state.channels.erase topic } }
  d.discardChannel topic

/-- Queues a push of a channel that is not joined. -/
def queue (env : Env) (d : Driver) (topic : Topic) (push : QueuedPush) : Driver :=
  match d.record topic with
  | none => d.answer push.operation push.id (.error (.interrupted push.operation))
  | some channel =>
    if channel.everJoined && !channel.desired then
      d.answer push.operation push.id (.error (.channelNotJoined topic))
    else if channel.queued.length < env.options.pushBufferCapacity then
      d.setRecord topic { channel with queued := channel.queued ++ [push] }
    else d.answer push.operation push.id (.error (.pushBufferFull topic))

/-- Starts loading a join payload for a wanted channel with nothing in progress. -/
def loadPayload (d : Driver) (topic : Topic) : Driver :=
  match d.record topic with
  | none => d
  | some channel =>
    if !channel.desired || channel.activePayload.isSome then d
    else if (d.state.protocol.channelState topic).any ChannelState.active then d
    else
      let payloadId := Protocol.advance d.state.nextPayloadId
      let channel' := { channel with status := .waitingToJoin, activePayload := some payloadId }
      let d := { d with
        state := { d.state with
          channels := d.state.channels.insert topic channel'
          nextPayloadId := payloadId }
        connection := { d.connection with
          payloads := d.connection.payloads ++ [(topic, payloadId)] } }
      d.emit (.loading topic payloadId ⟨channel.joinAttempt, channel.everJoined⟩ channel.joinWaiters)

/-- Saturating successor of a `u32`. -/
def nextAttempt (attempt : Nat) : Nat := min (attempt + 1) (2 ^ 32 - 1)

def scheduleRejoin (env : Env) (d : Driver) (topic : Topic) : Driver :=
  match d.record topic with
  | none => d
  | some channel =>
    if !channel.desired || channel.rejoinScheduled then d
    else
      let joinAttempt := nextAttempt channel.joinAttempt
      let d := d.setRecord topic { channel with rejoinScheduled := true, joinAttempt }
      { d with
        connection := { d.connection with
          rejoins := d.connection.rejoins ++ [⟨d.clock + env.options.rejoinDelay joinAttempt, topic⟩] } }

/-! ### Payload results and timers

A load has an id, and a result under another id than the one the record waits for is dropped. -/

def forgetJoins (d : Driver) (topic : Topic) : Driver :=
  { d with
    state := { d.state with
      pendingJoins := d.state.pendingJoins.filter fun _ pending => pending != topic } }

def eraseJoin (d : Driver) (reference : Reference) : Driver :=
  { d with state := { d.state with pendingJoins := d.state.pendingJoins.erase reference } }

def eraseLeave (d : Driver) (reference : Reference) : Driver :=
  { d with state := { d.state with pendingLeaves := d.state.pendingLeaves.erase reference } }

/-- Starts a join generation with a loaded payload: `rejoin` for a topic the protocol
knows as inactive, `join` for one it does not know. -/
def startJoin (d : Driver) (topic : Topic) (payload : Value) :
    Option (Except ProtocolError Outbound × Protocol) :=
  match d.state.protocol.channelState topic with
  | some .disconnected | some .errored | some .closed => some (d.state.protocol.rejoin topic payload)
  | none => some (d.state.protocol.join topic payload)
  | some _ => none

/-- Tracks and sends a join that the protocol built. -/
def sendJoin (env : Env) (d : Driver) (topic : Topic) (channel : ChannelRecord) (protocol : Protocol)
    (outbound : Outbound) : Result :=
  let d := (d.setProtocol protocol).setRecord topic { channel with status := .joining }
  let d := { d with
    state := { d.state with
      pendingJoins := d.state.pendingJoins.insert outbound.reference topic } }
  let d := d.scheduleOperationTimeout (.join topic outbound.reference channel.joinTimeout)
  d.sendFrame env channel.joinWaiters outbound.frame

/-- A payload load completed. Its result counts only for the load the channel waits for. -/
def handlePayload (env : Env) (d : Driver) (topic : Topic) (payloadId : UInt64)
    (payload : Except String Value) : Result :=
  match d.record topic with
  | none => (d, none)
  | some channel =>
    if channel.activePayload ≠ some payloadId then (d, none)
    else
      let channel := { channel with activePayload := none }
      let d := d.setRecord topic channel
      if !channel.desired then (d, none)
      else
        match payload with
        | .error message =>
          let d := d.setRecord topic { channel with
            desired := false, status := .errored, joinWaiters := [] }
          let d := d.answerAll .join channel.joinWaiters (.error (.joinPayload topic message))
          (d.emitChannel topic (.joinPayloadError message), none)
        | .ok payload =>
          match d.startJoin topic payload with
          | none => (d, none)
          | some (.error e, protocol) => (d.setProtocol protocol, some (.protocol e.toString))
          | some (.ok outbound, protocol) => d.sendJoin env topic channel protocol outbound

/-- A rejoin timer fired. -/
def handleRejoin (d : Driver) (topic : Topic) : Driver :=
  match d.record topic with
  | none => d
  | some channel =>
    let d := d.setRecord topic { channel with rejoinScheduled := false }
    if channel.desired then d.loadPayload topic else d

/-- A join was not answered in time: its generation is discarded. -/
def joinTimedOut (env : Env) (d : Driver) (topic : Topic) (duration : Duration) : Driver :=
  let d := d.discardChannel topic
  match d.record topic with
  | none => d
  | some channel =>
    let channel := { channel with activePayload := none }
    match channel.deferredLeave with
    | some pending =>
      let d := d.setRecord topic { channel with deferredLeave := none, status := .left }
      d.answerLeave (some pending) (.error (.timeout .leave pending.timeout))
    | none =>
      if channel.desired then
        let d := d.setRecord topic { channel with status := .errored, joinWaiters := [] }
        let d := d.answerAll .join channel.joinWaiters (.error (.timeout .join duration))
        d.scheduleRejoin env topic
      else d.setRecord topic { channel with status := .left }

/-- A leave was not answered in time: its channel is discarded. -/
def leaveTimedOut (d : Driver) (topic : Topic) (pending : PendingLeave) (duration : Duration) :
    Driver :=
  let d := d.answerLeave (some pending) (.error (.timeout .leave duration))
  let d := d.discardChannel topic
  match d.record topic with
  | none => d
  | some channel =>
    if channel.desired then (d.setStatus topic .waitingToJoin).loadPayload topic
    else d.setStatus topic .left

/-- The deadline of a join or leave passed. It means something only while its reference is
in the table of the operation. -/
def handleOperationTimeout (env : Env) (d : Driver) : OperationTimeout → Driver
  | .join topic reference duration =>
    let pending := d.state.pendingJoins[reference]?
    let d := d.eraseJoin reference
    if pending = some topic then d.joinTimedOut env topic duration else d
  | .leave topic reference duration =>
    match d.state.pendingLeaves[reference]? with
    | none => d
    | some pending => (d.eraseLeave reference).leaveTimedOut topic pending duration

/-- The heartbeat timer fired. -/
def handleHeartbeat (env : Env) (d : Driver) : Result :=
  if d.connection.heartbeatReference.isSome then (d, some .heartbeatTimeout)
  else
    let (outbound, protocol) := d.state.protocol.heartbeat
    let d := d.setProtocol protocol
    let d := { d with
      connection := { d.connection with heartbeatReference := some outbound.reference } }
    (d.sendFrame env [] outbound.frame).andThen fun d =>
      ({ d with
        connection := { d.connection with
          heartbeatDue := d.clock + env.options.heartbeatTimeout } }, none)

/-! ### Incoming frames

The protocol turns a frame into an event, and each kind of event has its handler. -/

/-- A join succeeded: its waiters are answered, and then the leave deferred meanwhile is
sent, or the queue. -/
def onJoined (env : Env) (d : Driver) (topic : Topic) (reference : Reference) (response : Payload) :
    Result :=
  let event := ChannelEvent.protocol (.joined topic reference response)
  let d := d.eraseJoin reference
  match d.record topic with
  | none => (d.emitChannel topic event).flush env topic
  | some channel =>
    let status := if channel.deferredLeave.isSome then .leaving else .joined
    let d := d.setRecord topic { channel with
      everJoined := true, joinAttempt := 0, rejoinScheduled := false, deferredLeave := none
      status, joinWaiters := [] }
    let d := d.answerAll .join channel.joinWaiters (.ok (.payload response))
    let d := d.emitChannel topic event
    match channel.deferredLeave with
    | some pending => d.sendLeave env topic pending
    | none => d.flush env topic

/-- A join was refused. A leave deferred meanwhile has nothing left to do. -/
def onJoinError (env : Env) (d : Driver) (topic : Topic) (reference : Reference)
    (response : Payload) : Driver :=
  let event := ChannelEvent.protocol (.joinError topic reference response)
  let d := d.eraseJoin reference
  match d.record topic with
  | none => d.emitChannel topic event
  | some channel =>
    let status := if channel.deferredLeave.isSome then .left else .errored
    let d := d.setRecord topic { channel with deferredLeave := none, status, joinWaiters := [] }
    let d := d.answerLeave channel.deferredLeave (.ok (.payload .emptyObject))
    let d := d.answerAll .join channel.joinWaiters (.error (.joinRejected topic response))
    (d.emitChannel topic event).scheduleRejoin env topic

def onReply (d : Driver) (topic : Topic) (event : String) (reference : Reference)
    (status : ReplyStatus) (response : Payload) : Driver :=
  let report := ChannelEvent.protocol (.reply topic event reference status response)
  match d.state.pendingCalls[reference]? with
  | none => d.emitChannel topic report
  | some pending =>
    let d := { d with
      state := { d.state with pendingCalls := d.state.pendingCalls.erase reference } }
    let d := d.emitCallCompleted pending.topic pending.event pending.started (.reply status)
    (d.answer .call pending.id (.ok (.reply status response))).emitChannel topic report

def onLeft (d : Driver) (topic : Topic) (reference : Reference) (response : Payload) : Driver :=
  let event := ChannelEvent.protocol (.left topic reference response)
  let pending := d.state.pendingLeaves[reference]?
  let d := (d.eraseLeave reference).answerLeave pending (.ok (.payload response))
  match d.record topic with
  | none => d.emitChannel topic event
  | some channel =>
    if channel.desired then ((d.setStatus topic .waitingToJoin).emitChannel topic event).loadPayload topic
    else (d.setStatus topic .left).emitChannel topic event

def onHeartbeatAck (d : Driver) (reference : Reference) : Driver :=
  if d.connection.heartbeatReference = some reference then
    { d with connection := { d.connection with heartbeatReference := none } }
  else
    match d.state.pendingPings[reference]? with
    | none => d
    | some ping =>
      let d := { d with
        state := { d.state with pendingPings := d.state.pendingPings.erase reference } }
      d.answer .ping ping.id (.ok (.elapsed (d.clock - ping.started)))

def onChannelError (env : Env) (d : Driver) (topic : Topic) (payload : Payload) : Driver :=
  let d := (d.forgetJoins topic).setStatus topic .errored
  (d.emitChannel topic (.protocol (.channelError topic payload))).scheduleRejoin env topic

def onChannelClosed (d : Driver) (topic : Topic) (payload : Payload) : Driver :=
  let d := d.forgetJoins topic
  let d :=
    match d.record topic with
    | some channel => d.setRecord topic { channel with desired := false, status := .closed }
    | none => d
  (d.emitChannel topic (.protocol (.channelClosed topic payload))).stopChannel topic

/-- What the driver does about a protocol event. -/
def handleEvent (env : Env) (d : Driver) (event : ProtocolEvent) : Result :=
  match event with
  | .joined topic reference response => d.onJoined env topic reference response
  | .joinError topic reference response => (d.onJoinError env topic reference response, none)
  | .reply topic name reference status response =>
    (d.onReply topic name reference status response, none)
  | .left topic reference response => (d.onLeft topic reference response, none)
  | .heartbeatAck reference _ => (d.onHeartbeatAck reference, none)
  | .channelError topic payload => (d.onChannelError env topic payload, none)
  | .channelClosed topic payload => (d.onChannelClosed topic payload, none)
  | .message frame | .staleMessage frame | .unmatchedReply frame =>
    (d.emitChannel frame.topic (.protocol event), none)
  | .requestInterrupted topic _ _ => (d.emitChannel topic (.protocol event), none)

/-- A decoded frame arrived. -/
def handleFrame (env : Env) (d : Driver) (frame : Frame) : Result :=
  match d.state.protocol.receive frame with
  | (.error e, protocol) => (d.setProtocol protocol, some (.protocol e.toString))
  | (.ok event, protocol) => (d.setProtocol protocol).handleEvent env event

/-- A message arrived. -/
def handleIncoming (env : Env) (d : Driver) (message : WireMessage) : Result :=
  match env.codec.decode message with
  | .error e => (d, some (.protocol e))
  | .ok frame =>
    let (binary, bytes) := message.metadata
    (d.telemetry (.frameReceived frame.topic frame.event binary bytes)).handleFrame env frame

/-! ### Cancellation

A request that its caller gave up is looked for in the tables first, then in the records. -/

/-- Drops the response of a call whose frame was sent. -/
def cancelCall (d : Driver) (id : RequestId) : Driver :=
  match d.state.pendingCalls.toList.find? fun entry => entry.2.id == id with
  | none => d
  | some (reference, pending) =>
    let d := { d with
      state := { d.state with pendingCalls := d.state.pendingCalls.erase reference } }
    let d := d.emit (.cancelled .call id)
    let d := d.emitCallCompleted pending.topic pending.event pending.started .cancelled
    d.setProtocol (d.state.protocol.forgetPush reference).2

def cancelPing (d : Driver) (id : RequestId) : Driver :=
  match d.state.pendingPings.toList.find? fun entry => entry.2.id == id with
  | none => d
  | some (reference, _) =>
    let d := { d with
      state := { d.state with pendingPings := d.state.pendingPings.erase reference } }
    let d := d.emit (.cancelled .ping id)
    d.setProtocol (d.state.protocol.forgetHeartbeat reference).2

/-- A leave that was sent stays pending without its response. -/
def cancelLeave (d : Driver) (id : RequestId) : Driver :=
  match d.state.pendingLeaves.toList.find? fun entry => entry.2.id == id with
  | none => d
  | some (reference, pending) =>
    let d := { d with
      state := { d.state with
        pendingLeaves := d.state.pendingLeaves.insert reference { pending with response := false } } }
    if pending.response then d.emit (.cancelled .leave id) else d

/-- Cancels a request whose frame was sent. -/
def cancelPending (d : Driver) (id : RequestId) : Driver :=
  ((d.cancelCall id).cancelPing id).cancelLeave id

/-- Removes the first push with the given id. -/
def removeQueued (id : RequestId) : List QueuedPush → List QueuedPush
  | [] => []
  | push :: rest => if push.id = id then rest else push :: removeQueued id rest

/-- Cancels a leave or a push that one channel holds back. -/
def cancelUnsent (d : Driver) (topic : Topic) (channel : ChannelRecord) (id : RequestId) : Driver :=
  match channel.deferredLeave.filter fun pending => pending.id == id with
  | some pending =>
    let d := d.setRecord topic { channel with
      deferredLeave := some { pending with response := false } }
    if pending.response then d.emit (.cancelled .leave id) else d
  | none =>
    match channel.queued.find? fun push => push.id == id with
    | none => d
    | some push =>
      let d := d.setRecord topic { channel with queued := removeQueued id channel.queued }
      let d := d.emit (.cancelled push.operation id)
      match push with
      | .call _ event _ started => d.emitCallCompleted topic event started .cancelled
      | .cast _ _ _ => d

/-- Cancels a join that waits; the last waiter of a channel that never joined takes the
join attempt with it. -/
def cancelJoin (d : Driver) (topic : Topic) (channel : ChannelRecord) (id : RequestId) : Driver :=
  let joinWaiters := channel.joinWaiters.erase id
  let d := (d.setRecord topic { channel with joinWaiters }).emit (.cancelled .join id)
  if joinWaiters.isEmpty && !channel.everJoined then
    let d := d.setRecord topic { channel with
      joinWaiters, desired := false, activePayload := none, status := .left }
    (d.forgetJoins topic).discardChannel topic
  else d

/-- Drops the response of a request, and what it alone was waited for. Ids are distinct,
so the order in which the source looks through its hash maps does not matter. -/
def cancel (d : Driver) (id : RequestId) : Driver :=
  match d.state.channels.toList.find? fun entry => entry.2.joinWaiters.contains id with
  | some (topic, channel) => d.cancelJoin topic channel id
  | none =>
    match d.state.channels.toList.find? fun entry =>
        entry.2.deferredLeave.any (fun pending => pending.id == id) ||
          entry.2.queued.any fun push => push.id == id with
    | some (topic, channel) => d.cancelUnsent topic channel id
    | none => d.cancelPending id

end Driver
end PhoenixChannel.Client
