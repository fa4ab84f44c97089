import PhoenixChannel.Library.Tables
import PhoenixChannel.Runtime.Frame
import Std.Data.String.ToNat

/-! The protocol state machine.

`Protocol` is the pure state of the client's side of Phoenix Channels: which topics it
knows and in which state, and which requests wait for a reply. Its operations return the
frame to send with the reference that will correlate the reply; `receive` turns an
incoming frame into a semantic event.

A fallible operation returns its result next to the state it leaves, since it may have
advanced the reference counter before failing. -/
namespace PhoenixChannel.Runtime
open Library (Table)

/-- Local lifecycle state for a channel topic. -/
inductive ChannelState where
  | joining
  | joined
  | leaving
  | closed
  | errored
  | disconnected
  deriving DecidableEq, Repr

/-- `ChannelState::Joining | ChannelState::Joined | ChannelState::Leaving`. -/
def ChannelState.active : ChannelState → Bool
  | .joining | .joined | .leaving => true
  | .closed | .errored | .disconnected => false

/-- Status carried by a `phx_reply`. -/
inductive ReplyStatus where
  | ok
  | error
  deriving DecidableEq, Repr

/-- An outbound frame and the reference allocated to correlate its reply. -/
structure Outbound where
  reference : Reference
  frame : Frame

/-- Semantic event produced from an incoming frame or a connection reset. -/
inductive ProtocolEvent where
  | joined (topic : Topic) (reference : Reference) (response : Payload)
  | joinError (topic : Topic) (reference : Reference) (response : Payload)
  | left (topic : Topic) (reference : Reference) (response : Payload)
  | reply (topic : Topic) (event : String) (reference : Reference) (status : ReplyStatus)
      (response : Payload)
  | message (frame : Frame)
  | channelClosed (topic : Topic) (payload : Payload)
  | channelError (topic : Topic) (payload : Payload)
  | heartbeatAck (reference : Reference) (status : ReplyStatus)
  | requestInterrupted (topic : Topic) (event : String) (reference : Reference)
  | staleMessage (frame : Frame)
  | unmatchedReply (frame : Frame)

/-- Invalid operation or reply for the current protocol state. -/
inductive ProtocolError where
  | alreadyActive (topic : Topic)
  | notJoined (topic : Topic)
  | unknownTopic (topic : Topic)
  | invalidReplyPayload
  | invalidReplyStatus
  deriving DecidableEq, Repr

def ProtocolError.toString : ProtocolError → String
  | .alreadyActive topic => "topic is already active: " ++ topic
  | .notJoined topic => "topic is not joined: " ++ topic
  | .unknownTopic topic => "unknown topic: " ++ topic
  | .invalidReplyPayload => "phx_reply payload must be an object"
  | .invalidReplyStatus => "phx_reply status must be ok or error"

structure Channel where
  state : ChannelState
  joinRef : Reference
  params : Value

/-- A request that waits for its reply. -/
inductive Pending where
  | join (topic : Topic)
  | leave (topic : Topic)
  | push (topic : Topic) (event : String)
  | heartbeat
  deriving DecidableEq, Repr

/-- The topic a pending request belongs to; a heartbeat has none. -/
def Pending.topic? : Pending → Option Topic
  | .join topic | .leave topic | .push topic _ => some topic
  | .heartbeat => none

/-- The protocol state. `allocated` counts the references handed out since `new`; it is
kept for the statements only, and no operation reads it. -/
structure Protocol where
  nextReference : UInt64
  channels : Table Topic Channel
  pending : Table Reference Pending
  allocated : Nat

namespace Protocol

def new : Protocol := ⟨0, ∅, ∅, 0⟩

def channelState (p : Protocol) (topic : Topic) : Option ChannelState :=
  p.channels[topic]?.map Channel.state

/-- The counter after one more allocation: it wraps at 2^64 and skips zero. -/
def advance (n : UInt64) : UInt64 :=
  if n + 1 = 0 then 1 else n + 1

def allocateReference (p : Protocol) : Reference × Protocol :=
  let next := advance p.nextReference
  (next.toNat.repr, { p with nextReference := next, allocated := p.allocated + 1 })

def join (p : Protocol) (topic : Topic) (params : Value) :
    Except ProtocolError Outbound × Protocol :=
  if (p.channelState topic).any ChannelState.active then (.error (.alreadyActive topic), p)
  else
    let (reference, p) := p.allocateReference
    (.ok ⟨reference, ⟨some reference, some reference, topic, "phx_join", .json params⟩⟩,
      { p with
        channels := p.channels.insert topic ⟨.joining, reference, params⟩
        pending := p.pending.insert reference (.join topic) })

/-- Removes all local state associated with a topic, and says whether it was known. -/
def discardChannel (p : Protocol) (topic : Topic) : Bool × Protocol :=
  (p.channels.contains topic,
    { p with
      channels := p.channels.erase topic
      pending := p.pending.filter fun _ pending => pending.topic? != some topic })

/-- Starts a new join generation for a disconnected, errored, or closed topic. -/
def rejoin (p : Protocol) (topic : Topic) (refreshedParams : Value) :
    Except ProtocolError Outbound × Protocol :=
  match p.channelState topic with
  | some .disconnected | some .errored | some .closed =>
    (p.discardChannel topic).2.join topic refreshedParams
  | some _ => (.error (.alreadyActive topic), p)
  | none => p.join topic refreshedParams

/-- The inactive topics with the parameters stored by their prior join, in the order the
channel map is iterated in. -/
def inactive (p : Protocol) (order : List Topic) : List (Topic × Value) :=
  order.filterMap fun topic =>
    match p.channels[topic]? with
    | some channel => if channel.state.active then none else some (topic, channel.params)
    | none => none

/-- Rejoins the listed topics one after another, dropping the refusals. -/
def rejoinEach : Protocol → List (Topic × Value) → List Outbound × Protocol
  | p, [] => ([], p)
  | p, (topic, params) :: rest =>
    match p.rejoin topic params with
    | (.ok outbound, p) =>
      let (outbounds, p) := rejoinEach p rest
      (outbound :: outbounds, p)
    | (.error _, p) => rejoinEach p rest

/-- Rejoins every inactive topic. `order` is the iteration order of the channel map. -/
def rejoinAllWithStoredParams (p : Protocol) (order : List Topic) : List Outbound × Protocol :=
  p.rejoinEach (p.inactive order)

/-- Starts leaving a joined topic. The reference is allocated before the topic is
looked up, so a refused leave still uses one. -/
def leave (p : Protocol) (topic : Topic) : Except ProtocolError Outbound × Protocol :=
  let (reference, p) := p.allocateReference
  match p.channels[topic]? with
  | none => (.error (.unknownTopic topic), p)
  | some channel =>
    if channel.state ≠ .joined then (.error (.notJoined topic), p)
    else
      (.ok ⟨reference, ⟨some channel.joinRef, some reference, topic, "phx_leave", .emptyObject⟩⟩,
        { p with
          channels := p.channels.insert topic { channel with state := .leaving }
          pending := p.pending.insert reference (.leave topic) })

/-- The join reference of a joined topic. -/
def joinedRef (p : Protocol) (topic : Topic) : Option Reference :=
  match p.channels[topic]? with
  | some channel => if channel.state = .joined then some channel.joinRef else none
  | none => none

/-- Builds and tracks an application push that expects a reply. -/
def push (p : Protocol) (topic : Topic) (event : String) (payload : Payload) :
    Except ProtocolError Outbound × Protocol :=
  match p.joinedRef topic with
  | none => (.error (.notJoined topic), p)
  | some joinRef =>
    let (reference, p) := p.allocateReference
    (.ok ⟨reference, ⟨some joinRef, some reference, topic, event, payload⟩⟩,
      { p with pending := p.pending.insert reference (.push topic event) })

/-- Builds a push that does not request a reply. -/
def cast (p : Protocol) (topic : Topic) (event : String) (payload : Payload) :
    Except ProtocolError Frame :=
  match p.joinedRef topic with
  | none => .error (.notJoined topic)
  | some joinRef => .ok ⟨some joinRef, none, topic, event, payload⟩

/-- Stops correlating a push reply. -/
def forgetPush (p : Protocol) (reference : Reference) : Bool × Protocol :=
  match p.pending[reference]? with
  | some (.push _ _) => (true, { p with pending := p.pending.erase reference })
  | _ => (false, p)

/-- Stops correlating a heartbeat reply. -/
def forgetHeartbeat (p : Protocol) (reference : Reference) : Bool × Protocol :=
  match p.pending[reference]? with
  | some .heartbeat => (true, { p with pending := p.pending.erase reference })
  | _ => (false, p)

/-- Builds and tracks a heartbeat. -/
def heartbeat (p : Protocol) : Outbound × Protocol :=
  let (reference, p) := p.allocateReference
  (⟨reference, ⟨none, some reference, "phoenix", "heartbeat", .emptyObject⟩⟩,
    { p with pending := p.pending.insert reference .heartbeat })

def decodeReplyStatus : Option String → Except ProtocolError ReplyStatus
  | some "ok" => .ok .ok
  | some "error" => .ok .error
  | _ => .error .invalidReplyStatus

def decodeReplyPayload : Payload → Except ProtocolError (ReplyStatus × Payload)
  | .json value =>
    match value.asObject with
    | none => .error .invalidReplyPayload
    | some object =>
      match decodeReplyStatus ((Members.get object "status").bind Value.asStr) with
      | .error e => .error e
      | .ok status => .ok (status, .json ((Members.get object "response").getD (.object [])))
  | .reply status response =>
    match decodeReplyStatus (some status) with
    | .error e => .error e
    | .ok status => .ok (status, response)
  | .binary _ => .error .invalidReplyPayload

/-- The table with the channel of `topic`, if known, moved to `state`. -/
def setState (channels : Table Topic Channel) (topic : Topic) (state : ChannelState) :
    Table Topic Channel :=
  channels.modify topic fun channel => { channel with state }

/-- Settles the request a reply was correlated with. -/
def settle (p : Protocol) (reference : Reference) (status : ReplyStatus) (response : Payload) :
    Pending → ProtocolEvent × Protocol
  | .join topic =>
    match status with
    | .ok => (.joined topic reference response,
        { p with channels := setState p.channels topic .joined })
    | .error => (.joinError topic reference response,
        { p with channels := setState p.channels topic .errored })
  | .leave topic =>
    (.left topic reference response, { p with channels := p.channels.erase topic })
  | .push topic event => (.reply topic event reference status response, p)
  | .heartbeat => (.heartbeatAck reference status, p)

/-- A reply settles the pending request with its reference. The request is no longer
pending even when the payload turns out to be malformed. -/
def receiveReply (p : Protocol) (frame : Frame) : Except ProtocolError ProtocolEvent × Protocol :=
  match frame.reference with
  | none => (.ok (.unmatchedReply frame), p)
  | some reference =>
    match p.pending[reference]? with
    | none => (.ok (.unmatchedReply frame), p)
    | some pending =>
      let p := { p with pending := p.pending.erase reference }
      match decodeReplyPayload frame.payload with
      | .error e => (.error e, p)
      | .ok (status, response) =>
        let (event, p) := p.settle reference status response pending
        (.ok event, p)

/-- A frame belongs to an earlier join generation when the topic is known and the frame
carries a join reference that is not the topic's. -/
def stale (p : Protocol) (frame : Frame) : Bool :=
  p.channels[frame.topic]?.any fun channel =>
    frame.joinRef.isSome && frame.joinRef != some channel.joinRef

/-- Applies an incoming frame and returns its semantic event. -/
def receive (p : Protocol) (frame : Frame) : Except ProtocolError ProtocolEvent × Protocol :=
  if p.stale frame then (.ok (.staleMessage frame), p)
  else if frame.event = "phx_reply" then p.receiveReply frame
  else if frame.event = "phx_close" then
    (.ok (.channelClosed frame.topic frame.payload),
      { p with channels := setState p.channels frame.topic .closed })
  else if frame.event = "phx_error" then
    (.ok (.channelError frame.topic frame.payload),
      { p with channels := setState p.channels frame.topic .errored })
  else (.ok (.message frame), p)

/-- The event that reports a request cut off by a reset; heartbeats are not reported. -/
def interruption (reference : Reference) : Pending → Option ProtocolEvent
  | .join topic => some (.requestInterrupted topic "phx_join" reference)
  | .leave topic => some (.requestInterrupted topic "phx_leave" reference)
  | .push topic event => some (.requestInterrupted topic event reference)
  | .heartbeat => none

/-- Marks every channel disconnected and returns the interrupted requests. The source
drains a hash map, so the order of the events carries no meaning. -/
def resetConnection (p : Protocol) : List ProtocolEvent × Protocol :=
  (p.pending.toList.filterMap fun entry => interruption entry.1 entry.2,
    { p with
      channels := p.channels.map fun _ channel => { channel with state := .disconnected }
      pending := ∅ })

end Protocol
end PhoenixChannel.Runtime
