import PhoenixChannel.Client.EventStreams
import PhoenixChannel.Library.Broadcast

/-! Subscriptions to one application event name.

A subscription reads the channel's events and returns the messages of its name, and whatever ends the
flow of messages; it leaves out the rest. -/
namespace PhoenixChannel.Client
open PhoenixChannel.Runtime PhoenixChannel.Library

/-- What a subscription returns. -/
inductive SubscriptionEvent where
  | message (payload : Payload)
  | disconnected
  | channelError (payload : Payload)
  | channelClosed (payload : Payload)
  | lagged (dropped : Nat)

/-- What the subscription to `name` returns for an event, if anything. -/
def subscribed (name : String) : ChannelEvent → Option SubscriptionEvent
  | .protocol (.message frame) => if frame.event = name then some (.message frame.payload) else none
  | .protocol (.channelError _ payload) => some (.channelError payload)
  | .protocol (.channelClosed _ payload) => some (.channelClosed payload)
  | .disconnected => some .disconnected
  | .lagged dropped => some (.lagged dropped)
  | .protocol _ | .joinPayloadError _ => none

/-- `EventSubscription::next`, given the events that are there; `none` stands for waiting. -/
def EventSubscription.next (name : String) : List ChannelEvent → Option SubscriptionEvent × List ChannelEvent
  | [] => (none, [])
  | event :: events =>
    match subscribed name event with
    | some result => (some result, events)
    | none => next name events

/-- What the next `n` calls return, up to one that has to wait. -/
def EventSubscription.returned (name : String) : Nat → List ChannelEvent → List SubscriptionEvent
  | 0, _ => []
  | n + 1, events =>
    match next name events with
    | (some result, events) => result :: returned name n events
    | (none, _) => []

/-- What a subscription's results tell of, where they stand for `items` of a stream, and those for events:
each event is returned, of no interest to the subscription, counted in a marker that is returned, or one of
those that a lost item is or counts. -/
inductive Heard (name : String) :
    List (Receipt SubscriptionEvent) → List ChannelEvent → List ChannelEvent → Prop where
  | nil : Heard name [] [] []
  | returned {results : List (Receipt SubscriptionEvent)} {items emitted : List ChannelEvent}
    {event : ChannelEvent} {result : SubscriptionEvent} (hs : subscribed name event = some result)
    (h : Heard name results items emitted) : Heard name (.item result :: results) (event :: items) (event :: emitted)
  | left {results : List (Receipt SubscriptionEvent)} {items emitted : List ChannelEvent} {event : ChannelEvent}
    (hs : subscribed name event = none) (h : Heard name results items emitted) :
    Heard name results (event :: items) (event :: emitted)
  | marker {results : List (Receipt SubscriptionEvent)} {items emitted : List ChannelEvent}
    (missing : List ChannelEvent) (hm : missing ≠ []) (h : Heard name results items emitted) :
    Heard name (.item (.lagged missing.length) :: results) (.lagged missing.length :: items) (missing ++ emitted)
  | gap {results : List (Receipt SubscriptionEvent)} {items emitted missed lost : List ChannelEvent}
    (ht : EventSubscriber.Tells missed lost) (hle : missed.length ≤ lost.length)
    (h : Heard name results items emitted) :
    Heard name (.lagged missed.length :: results) (missed ++ items) (lost ++ emitted)

end PhoenixChannel.Client
