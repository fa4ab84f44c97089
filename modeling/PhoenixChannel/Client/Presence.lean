import PhoenixChannel.Client.Types
import PhoenixChannel.Runtime.Presence

/-! The presence consumer of a channel.

`ChannelPresence` feeds the channel's message frames to a tracker and turns its changes
into presence events. Every event that ends a join generation resets the tracker; after a
lag it refuses to go on until it is resynchronized. -/
namespace PhoenixChannel.Client
open PhoenixChannel.Runtime

/-- A synchronized presence change or channel lifecycle event. -/
inductive PresenceEvent where
  | joined (key : String) (current : Option Presence) (joined : Presence)
  | left (key : String) (current left : Presence)
  | synced
  | disconnected
  | channelLeft
  | channelClosed
  | channelError

/-- Failure while decoding or consuming presence events. -/
inductive PresenceStreamError where
  | decode (error : PresenceError)
  | desynchronized (dropped : Nat)
  | resyncRequired

structure ChannelPresence where
  tracker : PresenceTracker
  pending : List PresenceEvent
  desynchronized : Bool

namespace ChannelPresence

def new : ChannelPresence := ⟨.new, [], false⟩

/-- The events of one synchronization, the entries before it named by `previous`. -/
def changeEvents (previous : PresenceState) (diff : PresenceDiff) : List PresenceEvent :=
  diff.joins.toList.map (fun entry => .joined entry.1 previous[entry.1]? entry.2) ++
    diff.leaves.toList.filterMap (fun entry =>
      previous[entry.1]?.map fun current => .left entry.1 current entry.2) ++
    [.synced]

def reset (p : ChannelPresence) : ChannelPresence := { p with tracker := p.tracker.reset }

/-- Applies a message frame, and queues the events of its changes. -/
def message (p : ChannelPresence) (frame : Frame) :
    Option (Except PresenceStreamError PresenceEvent) × ChannelPresence :=
  match p.tracker.apply frame with
  | (.ok (.synced diff), tracker) =>
    (none, { p with tracker, pending := p.pending ++ changeEvents p.tracker.state diff })
  | (.ok .ignored, tracker) | (.ok .pending, tracker) => (none, { p with tracker })
  | (.error e, tracker) => (some (.error (.decode e)), { p with tracker })

/-- Consumes one channel event: what `next` returns for it at once, if anything, and the
consumer afterwards. -/
def consume (p : ChannelPresence) :
    ChannelEvent → Option (Except PresenceStreamError PresenceEvent) × ChannelPresence
  | .protocol (.message frame) => p.message frame
  | .disconnected => (some (.ok .disconnected), p.reset)
  | .lagged dropped =>
    (some (.error (.desynchronized dropped)), { p.reset with pending := [], desynchronized := true })
  | .protocol (.left _ _ _) => (some (.ok .channelLeft), p.reset)
  | .protocol (.channelClosed _ _) => (some (.ok .channelClosed), p.reset)
  | .protocol (.channelError _ _) => (some (.ok .channelError), p.reset)
  | .protocol _ | .joinPayloadError _ => (none, p)

/-- The next presence event, given the channel events that are there to be read. With the
consumer come the events left unread; `none` stands for waiting for more of them. -/
def next (p : ChannelPresence) (events : List ChannelEvent) :
    Option (Except PresenceStreamError PresenceEvent) × ChannelPresence × List ChannelEvent :=
  if p.desynchronized then (some (.error .resyncRequired), p, events)
  else
    match p.pending with
    | event :: pending => (some (.ok event), { p with pending }, events)
    | [] =>
      match events with
      | [] => (none, p, [])
      | event :: events =>
        match p.consume event with
        | (some result, p) => (some result, p, events)
        | (none, p) => next p events

/-- What a completed `resync` makes of the consumer. -/
def resynchronized (p : ChannelPresence) : ChannelPresence :=
  { p.reset with pending := [], desynchronized := false }

end ChannelPresence
end PhoenixChannel.Client
