import PhoenixChannel.Library.Machine
import PhoenixChannel.Library.Tables
import PhoenixChannel.Runtime.Frame
import Std.Data.ExtTreeSet

/-! The native worker and the host threads that use it.

Host futures hand their commands to a worker thread over a bounded queue, and what keeps
the books over a second, unbounded one. The worker takes from either queue as it likes,
and runs most commands as tasks of their own. Everything that another thread can see
between two steps is a step of its own here; the worker's thread runs one thing at a
time. A run ends when the worker does. -/
namespace PhoenixChannel.Native
open PhoenixChannel.Runtime (Topic Payload)
open Library

abbrev RequestId := UInt64

abbrev ChannelId := UInt64

/-- A set of request ids. -/
abbrev RequestIds := Std.ExtTreeSet RequestId compare

/-- Names one request future, and the sender and receiver of its response. -/
abbrev CallerId := Nat

/-- Names one spawned task. -/
abbrev TaskId := Nat

/-- What a request asks the client for in a task of its own. A timeout is in milliseconds. -/
inductive HostOperation where
  | connect
  | disconnect
  | disconnectWith (code : UInt16) (reason : String)
  | ping (timeout : Option Nat)
  | join (id : ChannelId) (timeout : Option Nat)
  | call (id : ChannelId) (event : String) (payload : Payload) (timeout : Option Nat)
  | cast (id : ChannelId) (event : String) (payload : Payload) (timeout : Option Nat)
  | leave (id : ChannelId) (timeout : Option Nat)

/-- The channel an operation is for. -/
def HostOperation.channel? : HostOperation → Option ChannelId
  | .connect | .disconnect | .disconnectWith _ _ | .ping _ => none
  | .join id _ | .call id _ _ _ | .cast id _ _ _ | .leave id _ => some id

inductive HostCommand where
  | operation (requestId : RequestId) (operation : HostOperation) (response : CallerId)
  | channel (requestId : RequestId) (topic : Topic) (response : CallerId)
  | shutdown

/-- The request a command carries. -/
def HostCommand.request? : HostCommand → Option RequestId
  | .operation id _ _ | .channel id _ _ => some id
  | .shutdown => none

inductive ControlCommand where
  | register (id : RequestId)
  | cancel (id : RequestId)
  | finished (id : RequestId)
  | removeChannel (id : ChannelId)
  | shutdown
  deriving DecidableEq

/-- The request a control command is about. -/
def ControlCommand.request? : ControlCommand → Option RequestId
  | .register id | .cancel id | .finished id => some id
  | .removeChannel _ | .shutdown => none

/-- What the host may ask for. -/
inductive HostRequest where
  | operation (operation : HostOperation)
  | channel (topic : Topic)

def HostRequest.build : HostRequest → RequestId → CallerId → HostCommand
  | .operation what, id, response => .operation id what response
  | .channel name, id, response => .channel id name response

/-- How far a request future got. Once it waits it may be dropped. -/
inductive Phase where
  | reserved
  | issued (id : RequestId)
  | registered (id : RequestId)
  | waiting (id : RequestId)
  deriving DecidableEq

def Phase.id? : Phase → Option RequestId
  | .reserved => none
  | .issued id | .registered id | .waiting id => some id

structure Caller where
  request : HostRequest
  phase : Phase

/-- A response that was sent and not yet read. -/
inductive Response where
  | ok
  | error
  | registration (id : ChannelId)
  deriving DecidableEq

/-- A spawned operation. `channel` is its own `Rc<Channel>`, by topic; an aborted task stays
until the runtime drops it. -/
structure Task where
  requestId : RequestId
  response : CallerId
  operation : HostOperation
  channel : Option Topic
  aborted : Bool

/-- What a task sends. Without its channel it fails at once. -/
def Task.result (task : Task) (success : Bool) : Response :=
  if success && (task.operation.channel?.isNone || task.channel.isSome) then .ok else .error

/-- What became of opening a channel whose topic was free. -/
inductive Opening where
  | opened
  | driverStopped
  | eventsFailed
  deriving DecidableEq

/-- What the worker did, for the statements only. -/
inductive Event where
  | issued (id : RequestId)
  | handled (command : ControlCommand)
  | executed (id : RequestId)
  | skipped (id : RequestId)
  deriving DecidableEq

/-- The host, the two queues, the worker and its tasks. `spawned`, `called` and `issued`
count; they and `log` are kept for names and statements only. -/
structure State where
  permits : Nat
  nextRequest : UInt64
  callers : Table CallerId Caller
  responses : Table CallerId Response
  handles : List ChannelId
  control : List ControlCommand
  commands : List HostCommand
  running : Bool
  knownRequests : RequestIds
  cancelled : RequestIds
  operations : Table RequestId TaskId
  channels : Table ChannelId Topic
  nextId : UInt64
  tasks : Table TaskId Task
  /-- The task that has sent its response and not yet its `Finished`. -/
  finishing : Option TaskId
  called : Nat
  spawned : Nat
  issued : Nat
  log : List Event

/-- `WorkerOwner::next_request_id`, and what it leaves in the counter. -/
def nextRequestId (next : UInt64) : RequestId × UInt64 :=
  if next = 0 then (1, 2) else (next, next + 1)

namespace State

/-- A worker that just started, over a command queue of the given capacity. -/
def start (capacity : Nat) : State :=
  ⟨capacity, 1, ∅, ∅, [], [], [], true, ∅, ∅, ∅, ∅, 1, ∅, none, 0, 0, 0, []⟩

def note (s : State) (event : Event) : State := { s with log := s.log ++ [event] }

def sendControl (s : State) (command : ControlCommand) : State :=
  { s with control := s.control ++ [command] }

/-- The worker ends: its queues, its books and its tasks go with it. -/
def stop (s : State) : State :=
  { s with
    running := false, control := [], commands := []
    knownRequests := ∅, cancelled := ∅, operations := ∅, channels := ∅
    tasks := ∅, finishing := none }

/-- The caller's receiver takes a response: its future is not gone, and it has none yet. -/
def listens (s : State) (caller : CallerId) : Bool :=
  s.callers.contains caller && !s.responses.contains caller

/-- `response.send(..)`, without effect when the receiver is gone. -/
def respond (s : State) (caller : CallerId) (response : Response) : State :=
  if s.listens caller then { s with responses := s.responses.insert caller response } else s

/-- The caller's future is over. -/
def endCaller (s : State) (caller : CallerId) : State :=
  { s with callers := s.callers.erase caller, responses := s.responses.erase caller }

/-- `operation.abort()`: without effect on a task that is over. -/
def abort (s : State) (task : TaskId) : State :=
  { s with tasks := s.tasks.modify task fun t => { t with aborted := true } }

/-- A live `Channel` has this topic: one in the map, or one that a task holds. -/
def topicTaken (s : State) (topic : Topic) : Bool :=
  (s.channels.toList.any fun entry => entry.2 == topic) ||
    s.tasks.toList.any fun entry => entry.2.channel == some topic

/-! ### The worker

Control commands are handled at once. Most host commands become tasks of their own. -/

def handleControl (s : State) : ControlCommand → State
  | .register id => { s with knownRequests := s.knownRequests.insert id }
  | .cancel id =>
    match s.operations[id]? with
    | some operation => { s with operations := s.operations.erase id }.abort operation
    | none =>
      if s.knownRequests.contains id then { s with cancelled := s.cancelled.insert id } else s
  | .finished id =>
    { s with
      operations := s.operations.erase id
      knownRequests := s.knownRequests.erase id
      cancelled := s.cancelled.erase id }
  | .removeChannel id => { s with channels := s.channels.erase id }
  | .shutdown => s.stop

/-- Spawns the operation's task, with its own hold on the channel. -/
def trackOperation (s : State) (id : RequestId) (operation : HostOperation) (response : CallerId) : State :=
  let channel := operation.channel?.bind fun channel => s.channels[channel]?
  { s with
    tasks := s.tasks.insert s.spawned ⟨id, response, operation, channel, false⟩
    operations := s.operations.insert id s.spawned
    spawned := s.spawned + 1 }

/-- `HostCommand::Channel`. The id is used up even when the channel's events fail. -/
def openChannel (s : State) (topic : Topic) (response : CallerId) (opening : Opening) : State :=
  if s.topicTaken topic then s.respond response .error
  else
    match opening with
    | .driverStopped => s.respond response .error
    | .eventsFailed => { s with nextId := s.nextId + 1 }.respond response .error
    | .opened =>
      { s with
        nextId := s.nextId + 1
        channels := s.channels.insert s.nextId topic }.respond response (.registration s.nextId)

/-- What every request's arm begins with: the id is no longer known, and no longer cancelled.
The arm goes on when it was not. -/
def takeUp (s : State) (id : RequestId) : State :=
  { s with
    knownRequests := s.knownRequests.erase id
    cancelled := s.cancelled.erase id }

def handleHostCommand (s : State) (opening : Opening) : HostCommand → State
  | .operation id operation response =>
    if s.cancelled.contains id then (s.takeUp id).note (.skipped id)
    else ((s.takeUp id).trackOperation id operation response).note (.executed id)
  | .channel id topic response =>
    if s.cancelled.contains id then (s.takeUp id).note (.skipped id)
    else ((s.takeUp id).openChannel topic response opening).note (.executed id)
  | .shutdown => s.stop

/-! ### The host

A host future makes its request, waits, and may be dropped at any time. -/

/-- A future reads its response: a failure leaves its guard armed. -/
def receive (s : State) (caller : CallerId) (id : RequestId) : Response → State
  | .ok => s.endCaller caller
  | .error => (s.endCaller caller).sendControl (.cancel id)
  | .registration channel =>
    let s := s.endCaller caller
    { s with handles := channel :: s.handles }

end State

/-- One step of some thread. -/
inductive Input where
  /-- A request future gets its place in the command queue. -/
  | reserve (request : HostRequest)
  | issue (caller : CallerId)
  | register (caller : CallerId)
  | submit (caller : CallerId)
  | receive (caller : CallerId)
  /-- A request future is dropped while it waits. -/
  | drop (caller : CallerId)
  /-- The last clone of a `NativeChannel` is dropped. -/
  | dropHandle (id : ChannelId)
  | submitShutdown
  | dropOwner
  /-- The worker's loop takes the next control command. -/
  | control
  /-- The worker's loop takes the next command. -/
  | command (opening : Opening)
  /-- The driver or a stream of the socket ended. -/
  | stop
  /-- A task's operation completes and sends its response. -/
  | respond (task : TaskId) (success : Bool)
  | finish
  /-- The runtime drops an aborted task. -/
  | reap (task : TaskId)

namespace State

def turn (s : State) : Input → Option State
  | .reserve request =>
    if s.permits = 0 then none
    else
      some { s with
        permits := s.permits - 1
        callers := s.callers.insert s.called ⟨request, .reserved⟩
        called := s.called + 1 }
  | .issue caller =>
    match s.callers[caller]? with
    | some ⟨request, .reserved⟩ =>
      let (id, nextRequest) := nextRequestId s.nextRequest
      some ({ s with
        nextRequest
        callers := s.callers.insert caller ⟨request, .issued id⟩
        issued := s.issued + 1 }.note (.issued id))
    | _ => none
  | .register caller =>
    match s.callers[caller]? with
    | some ⟨request, .issued id⟩ =>
      some ({ s with callers := s.callers.insert caller ⟨request, .registered id⟩ }.sendControl (.register id))
    | _ => none
  | .submit caller =>
    match s.callers[caller]? with
    | some ⟨request, .registered id⟩ =>
      some { s with
        callers := s.callers.insert caller ⟨request, .waiting id⟩
        commands := s.commands ++ [request.build id caller] }
    | _ => none
  | .receive caller =>
    match s.callers[caller]?, s.responses[caller]? with
    | some ⟨_, .waiting id⟩, some response => some (s.receive caller id response)
    | _, _ => none
  | .drop caller =>
    match s.callers[caller]? with
    | some ⟨_, .waiting id⟩ => some ((s.endCaller caller).sendControl (.cancel id))
    | _ => none
  | .dropHandle id =>
    if id ∈ s.handles then
      some ({ s with handles := s.handles.erase id }.sendControl (.removeChannel id))
    else none
  | .submitShutdown =>
    if s.permits = 0 then none
    else some { s with permits := s.permits - 1, commands := s.commands ++ [.shutdown] }
  | .dropOwner =>
    if s.callers.isEmpty && s.handles.isEmpty then some (s.sendControl .shutdown) else none
  | .control =>
    match s.finishing, s.control with
    | none, command :: rest => some (({ s with control := rest }.handleControl command).note (.handled command))
    | _, _ => none
  | .command opening =>
    match s.finishing, s.commands with
    | none, command :: rest =>
      some ({ s with commands := rest, permits := s.permits + 1 }.handleHostCommand opening command)
    | _, _ => none
  | .stop => if s.finishing.isNone then some s.stop else none
  | .respond task success =>
    match s.finishing, s.tasks[task]? with
    | none, some t =>
      if t.aborted then none
      else some ({ s with finishing := some task }.respond t.response (t.result success))
    | _, _ => none
  | .finish =>
    match s.finishing with
    | none => none
    | some task =>
      match s.tasks[task]? with
      | none => none
      | some t =>
        some ({ s with tasks := s.tasks.erase task, finishing := none }.sendControl (.finished t.requestId))
  | .reap task =>
    match s.finishing, s.tasks[task]? with
    | none, some t => if t.aborted then some { s with tasks := s.tasks.erase task } else none
    | _, _ => none

/-- Nothing happens once the worker is gone. -/
def step (s : State) (input : Input) : Option State :=
  if s.running then s.turn input else none

/-- A worker over a command queue of a capacity, under any order of the threads' steps. -/
def machine (capacity : Nat) : Machine State Input := ⟨start capacity, step⟩

end State
end PhoenixChannel.Native
