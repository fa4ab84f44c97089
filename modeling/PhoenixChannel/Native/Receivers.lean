import PhoenixChannel.Client.Presence
import PhoenixChannel.Client.Subscriptions
import PhoenixChannel.Native.EventPump

/-! What the host's consumers make of the broadcast.

A native subscription returns what it reads of its event name, and passes a failed receive on. A native
presence consumer does what the client's does, until it reads of a loss, in a marker or from a failed
receive: then it says so and refuses to go on. So up to there it tells exactly what a client's consumer tells
that reads every event the driver emitted. -/
namespace PhoenixChannel.Native
open PhoenixChannel.Runtime PhoenixChannel.Client PhoenixChannel.Library
open EventPump (Reports)

/-- Failure while consuming a broadcast. -/
inductive NativeEventError where
  | lagged (missed : Nat)
  | closed

/-- `receive_event`, of what the broadcast gave. -/
def receiveEvent {T : Type} : Receipt T → Except NativeEventError T
  | .item event => .ok event
  | .lagged missed => .error (.lagged missed)

/-! ### Subscriptions

A subscription reads one event name and skips the others. -/

/-- `NativeEventSubscription::next`, given what there is to receive; `none` stands for waiting. -/
def NativeEventSubscription.next (name : String) :
    List (Except NativeEventError ChannelEvent) →
      Option (Except NativeEventError SubscriptionEvent) × List (Except NativeEventError ChannelEvent)
  | [] => (none, [])
  | .error error :: incoming => (some (.error error), incoming)
  | .ok event :: incoming =>
    match subscribed name event with
    | some result => (some (.ok result), incoming)
    | none => next name incoming

/-- What the next `n` calls return, up to one that has to wait. -/
def NativeEventSubscription.returned (name : String) :
    Nat → List (Except NativeEventError ChannelEvent) → List (Except NativeEventError SubscriptionEvent)
  | 0, _ => []
  | n + 1, incoming =>
    match next name incoming with
    | (some result, incoming) => result :: returned name n incoming
    | (none, _) => []

/-! ### Presence

The consumer is the client's, with a latch beside it: once something was lost it has no state to
tell of. -/

/-- Failure while consuming native presence events. -/
inductive NativePresenceError where
  | events (error : NativeEventError)
  | decode (error : PresenceError)
  | desynchronized (dropped : Nat)
  | resyncRequired

structure NativeChannelPresence where
  tracker : PresenceTracker
  pending : List PresenceEvent
  desynchronized : Bool

namespace NativeChannelPresence

def new : NativeChannelPresence := ⟨.new, [], false⟩

def reset (p : NativeChannelPresence) : NativeChannelPresence := { p with tracker := p.tracker.reset }

def message (p : NativeChannelPresence) (frame : Frame) :
    Option (Except NativePresenceError PresenceEvent) × NativeChannelPresence :=
  match p.tracker.apply frame with
  | (.ok (.synced diff), tracker) =>
    (none, { p with tracker, pending := p.pending ++ ChannelPresence.changeEvents p.tracker.state diff })
  | (.ok .ignored, tracker) | (.ok .pending, tracker) => (none, { p with tracker })
  | (.error e, tracker) => (some (.error (.decode e)), { p with tracker })

/-- A loss, told by the stream or by the broadcast. -/
def lag (p : NativeChannelPresence) (dropped : Nat) :
    Option (Except NativePresenceError PresenceEvent) × NativeChannelPresence :=
  (some (.error (.desynchronized dropped)), { p.reset with pending := [], desynchronized := true })

/-- What `next` returns at once for what it received, if anything, and the consumer after it. -/
def consume (p : NativeChannelPresence) :
    Except NativeEventError ChannelEvent →
      Option (Except NativePresenceError PresenceEvent) × NativeChannelPresence
  | .ok (.protocol (.message frame)) => p.message frame
  | .ok .disconnected => (some (.ok .disconnected), p.reset)
  | .ok (.lagged dropped) => p.lag dropped
  | .error (.lagged missed) => p.lag missed
  | .ok (.protocol (.left _ _ _)) => (some (.ok .channelLeft), p.reset)
  | .ok (.protocol (.channelClosed _ _)) => (some (.ok .channelClosed), p.reset)
  | .ok (.protocol (.channelError _ _)) => (some (.ok .channelError), p.reset)
  | .ok (.protocol _) | .ok (.joinPayloadError _) => (none, p)
  | .error .closed => (some (.error (.events .closed)), p)

/-- The next presence event, given what there is to receive, and what is left of it. -/
def next (p : NativeChannelPresence) (incoming : List (Except NativeEventError ChannelEvent)) :
    Option (Except NativePresenceError PresenceEvent) × NativeChannelPresence ×
      List (Except NativeEventError ChannelEvent) :=
  if p.desynchronized then (some (.error .resyncRequired), p, incoming)
  else
    match p.pending with
    | event :: pending => (some (.ok event), { p with pending }, incoming)
    | [] =>
      match incoming with
      | [] => (none, p, [])
      | received :: incoming =>
        match p.consume received with
        | (some result, p) => (some result, p, incoming)
        | (none, p) => next p incoming

/-- What the next `n` calls return. -/
def results : Nat → NativeChannelPresence → List (Except NativeEventError ChannelEvent) →
    List (Option (Except NativePresenceError PresenceEvent))
  | 0, _, _ => []
  | n + 1, p, incoming =>
    match p.next incoming with
    | (result, p, incoming) => result :: results n p incoming

end NativeChannelPresence

/-- What the next `n` calls of a client's consumer return, up to one that has to wait. -/
def clientReturned : Nat → ChannelPresence → List ChannelEvent → List (Except PresenceStreamError PresenceEvent)
  | 0, _, _ => []
  | n + 1, c, events =>
    match c.next events with
    | (some result, c, events) => result :: clientReturned n c events
    | (none, _) => []

/-- A client's result, as the host gets it. -/
def toNative : Except PresenceStreamError PresenceEvent → Except NativePresenceError PresenceEvent
  | .ok event => .ok event
  | .error (.decode error) => .error (.decode error)
  | .error (.desynchronized dropped) => .error (.desynchronized dropped)
  | .error .resyncRequired => .error .resyncRequired

/-- The consumers hold the same. -/
def nativeOf (c : ChannelPresence) : NativeChannelPresence := ⟨c.tracker, c.pending, c.desynchronized⟩

/-! ### What a subscription hears

What a subscription returns, and the failed receives between, are what was broadcast under its name. -/

/-- What a native subscription returns before it has to wait. -/
def heard (name : String) (results : List (Receipt ChannelEvent)) : List (Receipt SubscriptionEvent) :=
  results.filterMap fun
    | .item event => (subscribed name event).map .item
    | .lagged missed => some (.lagged missed)

/-- A call returns the first of what is heard. -/
theorem next_heard (name : String) (results : List (Receipt ChannelEvent)) :
    ∃ rest, NativeEventSubscription.next name (results.map receiveEvent) =
        ((heard name results).head?.map receiveEvent, rest.map receiveEvent) ∧
      heard name rest = (heard name results).tail := by
  induction results with
  | nil => exact ⟨[], rfl, rfl⟩
  | cons result results ih =>
    cases result with
    | lagged missed => exact ⟨results, rfl, rfl⟩
    | item event =>
      cases hs : subscribed name event with
      | some returned =>
        refine ⟨results, ?_, ?_⟩
        · simp only [List.map_cons, receiveEvent, NativeEventSubscription.next, heard, List.filterMap_cons, hs,
            Option.map_some, List.head?_cons]
        · simp only [heard, List.filterMap_cons, hs, Option.map_some, List.tail_cons]
      | none =>
        obtain ⟨rest, hnext, hrest⟩ := ih
        have hsame : heard name (.item event :: results) = heard name results := by
          simp only [heard, List.filterMap_cons, hs, Option.map_none]
        refine ⟨rest, ?_, by rw [hsame, hrest]⟩
        rw [hsame, ← hnext]
        simp only [List.map_cons, receiveEvent, NativeEventSubscription.next, hs]

/-- What a subscription returns is the first part of what there is to hear. -/
theorem returned_heard (name : String) (n : Nat) (results : List (Receipt ChannelEvent)) :
    NativeEventSubscription.returned name n (results.map receiveEvent) =
      ((heard name results).map receiveEvent).take n := by
  induction n generalizing results with
  | zero => rfl
  | succ n ih =>
    obtain ⟨rest, hnext, hrest⟩ := next_heard name results
    rw [NativeEventSubscription.returned, hnext]
    cases hh : heard name results with
    | nil => rfl
    | cons first others =>
      have hothers : heard name rest = others := by rw [hrest, hh, List.tail_cons]
      rw [List.map_cons, List.take_succ_cons, ← hothers, ← ih rest]
      rfl

/-- What can be heard of a report are the events of the name and the losses it tells. -/
theorem heard_of_reports (name : String) {results : List (Receipt ChannelEvent)} {items emitted : List ChannelEvent}
    (h : Reports results items emitted) : Heard name (heard name results) items emitted := by
  induction h with
  | nil => exact .nil
  | event event _ ih =>
    cases hs : subscribed name event with
    | some result =>
      simp only [heard, List.filterMap_cons, hs, Option.map_some]
      exact .returned hs ih
    | none =>
      simp only [heard, List.filterMap_cons, hs, Option.map_none]
      exact .left hs ih
  | marker missing hm _ ih => exact .marker missing hm ih
  | gap ht hle _ ih => exact .gap ht hle ih

/-- Where no receive failed, the results are the items. -/
theorem items_of_reports {results : List (Receipt ChannelEvent)} {items emitted : List ChannelEvent}
    (h : Reports results items emitted) (hr : ∀ result ∈ results, result.missed = none) :
    results = items.map .item := by
  induction h with
  | nil => rfl
  | event event _ ih => rw [List.map_cons, ← ih fun result hm => hr result (List.mem_cons_of_mem _ hm)]
  | marker missing hm _ ih => rw [List.map_cons, ← ih fun result hm => hr result (List.mem_cons_of_mem _ hm)]
  | gap ht hle _ ih => cases hr _ (List.mem_cons_self ..)

/-- What is heard of items alone is what the client's subscription returns. -/
theorem client_next_heard (name : String) (events : List ChannelEvent) :
    (EventSubscription.next name events).1.map .item = (heard name (events.map .item)).head? ∧
      heard name ((EventSubscription.next name events).2.map .item) = (heard name (events.map .item)).tail := by
  induction events with
  | nil => exact ⟨rfl, rfl⟩
  | cons event events ih =>
    cases hs : subscribed name event with
    | some result =>
      simp only [EventSubscription.next, heard, List.map_cons, List.filterMap_cons, hs, Option.map_some,
        List.head?_cons, List.tail_cons, and_self]
    | none =>
      have hsame : heard name ((event :: events).map .item) = heard name (events.map .item) := by
        simp only [heard, List.map_cons, List.filterMap_cons, hs, Option.map_none]
      have hnext : EventSubscription.next name (event :: events) = EventSubscription.next name events := by
        simp only [EventSubscription.next, hs]
      rw [hsame, hnext]
      exact ih

/-- The client's own subscription returns the same, for events that it reads itself. -/
theorem client_returned_heard (name : String) (n : Nat) (events : List ChannelEvent) :
    (EventSubscription.returned name n events).map Receipt.item = (heard name (events.map .item)).take n := by
  induction n generalizing events with
  | zero => rfl
  | succ n ih =>
    obtain ⟨hfirst, hrest⟩ := client_next_heard name events
    rcases hnext : EventSubscription.next name events with ⟨_ | result, rest⟩
    · rw [hnext] at hfirst
      have hnone : heard name (events.map .item) = [] := List.head?_eq_none_iff.mp hfirst.symm
      rw [hnone, EventSubscription.returned, hnext]
      rfl
    · rw [hnext] at hfirst hrest
      obtain ⟨others, hh⟩ := List.head?_eq_some_iff.mp hfirst.symm
      rw [hh, List.tail_cons] at hrest
      rw [hh, EventSubscription.returned, hnext, List.take_succ_cons, ← hrest, ← ih rest]
      rfl

/-! ### What a presence consumer tells

As long as nothing is lost the two consumers do the same to every item. -/

namespace NativeChannelPresence

/-- An event that was received is consumed as the client's consumer does. -/
theorem consume_ok (c : ChannelPresence) (event : ChannelEvent) :
    (nativeOf c).consume (.ok event) = ((c.consume event).1.map toNative, nativeOf (c.consume event).2) := by
  cases event with
  | disconnected => rfl
  | joinPayloadError message => rfl
  | lagged dropped => rfl
  | protocol event =>
    cases event with
    | message frame =>
      show (nativeOf c).message frame = ((c.message frame).1.map toNative, nativeOf (c.message frame).2)
      rcases ha : c.tracker.apply frame with ⟨result, tracker⟩
      have ha' : (nativeOf c).tracker.apply frame = (result, tracker) := ha
      cases result with
      | error e => simp only [message, ChannelPresence.message, ha, ha']; rfl
      | ok update =>
        cases update with
        | ignored => simp only [message, ChannelPresence.message, ha, ha']; rfl
        | pending => simp only [message, ChannelPresence.message, ha, ha']; rfl
        | synced diff => simp only [message, ChannelPresence.message, ha, ha']; rfl
    | _ => rfl

/-- A client's consumer that reads takes the next event. -/
theorem client_next_cons {c : ChannelPresence} (hd : c.desynchronized = false) (hp : c.pending = [])
    (event : ChannelEvent) (events : List ChannelEvent) :
    c.next (event :: events) = match c.consume event with
      | (some result, c) => (some result, c, events)
      | (none, c) => c.next events := by
  rw [ChannelPresence.next, hd, hp]
  rfl

/-- One receive, by whether it has something to tell. -/
theorem next_cons {p : NativeChannelPresence} (hd : p.desynchronized = false) (hp : p.pending = [])
    (received : Except NativeEventError ChannelEvent) (incoming : List (Except NativeEventError ChannelEvent)) :
    p.next (received :: incoming) = match p.consume received with
      | (some result, p) => (some result, p, incoming)
      | (none, p) => p.next incoming := by
  rw [next, hd, hp]
  rfl

/-! ### Up to the first loss

The receipts before the first loss are all events, and the client's consumer on them returns what
the native one does. -/

/-- What a consumer gets before the first loss, and what that counts. -/
def untilLoss : List (Receipt ChannelEvent) → List ChannelEvent × Option Nat
  | [] => ([], none)
  | .lagged missed :: _ => ([], some missed)
  | .item (.lagged dropped) :: _ => ([], some dropped)
  | .item event :: received => (event :: (untilLoss received).1, (untilLoss received).2)

/-- What the calls return that would read on: nothing yet, or that there was a loss, and from the next
call on that the consumer must be resynchronized. -/
def beyond : Option Nat → Nat → List (Option (Except NativePresenceError PresenceEvent))
  | none, n => List.replicate n none
  | some _, 0 => []
  | some dropped, n + 1 => some (.error (.desynchronized dropped)) :: List.replicate n (some (.error .resyncRequired))

/-- For what it received, a native consumer returns what a client's does of the events emitted, up to the
first loss, and then what is beyond it. -/
structure Mirrors (received : List (Receipt ChannelEvent)) (emitted : List ChannelEvent) : Prop where
  /-- What comes before the first loss is what was emitted first, and without a loss it is all of that. -/
  intact : ∃ rest, emitted = (untilLoss received).1 ++ rest ∧ ((untilLoss received).2 = none → rest = [])
  returned (n : Nat) : clientReturned n .new (untilLoss received).1 <+: clientReturned n .new emitted
  results (n : Nat) : new.results n (received.map receiveEvent) =
    (clientReturned n .new (untilLoss received).1).map (fun result => some (toNative result)) ++
      beyond (untilLoss received).2 (n - (clientReturned n .new (untilLoss received).1).length)

/-- An event before the first loss is on the intact side. -/
theorem untilLoss_cons {event : ChannelEvent} (he : ∀ dropped, event ≠ .lagged dropped)
    (received : List (Receipt ChannelEvent)) :
    untilLoss (.item event :: received) = (event :: (untilLoss received).1, (untilLoss received).2) := by
  cases event with
  | lagged dropped => exact absurd rfl (he dropped)
  | protocol event => rfl
  | disconnected => rfl
  | joinPayloadError message => rfl

/-- What comes before the first loss are the events from the start on, none left out. -/
theorem intact_of_reports {received : List (Receipt ChannelEvent)} {items emitted : List ChannelEvent}
    (h : Reports received items emitted) :
    ∃ rest, emitted = (untilLoss received).1 ++ rest ∧ ((untilLoss received).2 = none → rest = []) := by
  induction h with
  | nil => exact ⟨[], rfl, fun _ => rfl⟩
  | event event _ ih =>
    by_cases hlag : ∃ dropped, event = .lagged dropped
    · obtain ⟨dropped, rfl⟩ := hlag
      exact ⟨_, rfl, fun hnone => absurd hnone (Option.some_ne_none dropped)⟩
    · obtain ⟨rest, hemitted, hall⟩ := ih
      rw [untilLoss_cons fun dropped he => hlag ⟨dropped, he⟩]
      exact ⟨rest, congrArg _ hemitted, hall⟩
  | marker missing hm _ _ => exact ⟨_, rfl, fun hnone => absurd hnone (Option.some_ne_none missing.length)⟩
  | @gap results items emitted missed lost ht hle _ _ =>
    exact ⟨_, rfl, fun hnone => absurd hnone (Option.some_ne_none missed.length)⟩

/-- Only a marker desynchronizes a client's consumer. -/
theorem consume_desynchronized (c : ChannelPresence) {event : ChannelEvent}
    (he : ∀ dropped, event ≠ .lagged dropped) : (c.consume event).2.desynchronized = c.desynchronized := by
  cases event with
  | lagged dropped => exact absurd rfl (he dropped)
  | disconnected => rfl
  | joinPayloadError message => rfl
  | protocol event =>
    cases event with
    | message frame =>
      show (c.message frame).2.desynchronized = c.desynchronized
      unfold ChannelPresence.message
      rcases c.tracker.apply frame with ⟨(e | update), tracker⟩
      · rfl
      · cases update <;> rfl
    | _ => rfl

/-- A consumer that reads of a loss says so, and is desynchronized. -/
theorem next_lost {p : NativeChannelPresence} (hd : p.desynchronized = false) (hp : p.pending = [])
    {received : Except NativeEventError ChannelEvent} {dropped : Nat} (hlag : p.consume received = p.lag dropped)
    (incoming : List (Except NativeEventError ChannelEvent)) :
    ∃ q rest, p.next (received :: incoming) = (some (.error (.desynchronized dropped)), q, rest) ∧
      q.desynchronized = true := by
  rw [next_cons hd hp, hlag]
  exact ⟨_, _, rfl, rfl⟩

/-- A client's consumer that has something to return does not read. -/
theorem client_next_unread {c : ChannelPresence} (h : c.desynchronized = true ∨ c.pending ≠ []) :
    ∃ result c', ∀ events, c.next events = (some result, c', events) := by
  obtain ⟨tracker, pending, desynchronized⟩ := c
  cases desynchronized with
  | true => exact ⟨_, _, fun events => by rw [ChannelPresence.next.eq_def]; rfl⟩
  | false =>
    cases pending with
    | cons event pending => exact ⟨_, _, fun events => by rw [ChannelPresence.next.eq_def]; rfl⟩
    | nil =>
      rcases h with h | h
      · exact absurd h Bool.false_ne_true
      · exact absurd rfl h

/-- An event that is pending is returned by both consumers. -/
theorem next_pending {c : ChannelPresence} {event : PresenceEvent} {pending : List PresenceEvent}
    (hd : c.desynchronized = false) (hp : c.pending = event :: pending) (events : List ChannelEvent)
    (incoming : List (Except NativeEventError ChannelEvent)) :
    c.next events = (some (.ok event), { c with pending }, events) ∧
      (nativeOf c).next incoming = (some (.ok event), nativeOf { c with pending }, incoming) := by
  rw [ChannelPresence.next.eq_def, next.eq_def, nativeOf, hd, hp]
  exact ⟨rfl, rfl⟩

/-- A call returns what the client's returns of what comes before the first loss. Where that waits, it waits
too if there is no loss, and else reads of it. -/
theorem next_untilLoss (received : List (Receipt ChannelEvent)) {c : ChannelPresence}
    (hd : c.desynchronized = false) :
    (∃ result c' received', c.next (untilLoss received).1 = (some result, c', (untilLoss received').1) ∧
        (untilLoss received').2 = (untilLoss received).2 ∧ c'.desynchronized = false ∧
        (nativeOf c).next (received.map receiveEvent) =
          (some (toNative result), nativeOf c', received'.map receiveEvent)) ∨
      (c.next (untilLoss received).1).1 = none ∧
        ((untilLoss received).2 = none ∧ (∃ q : NativeChannelPresence, q.desynchronized = false ∧ q.pending = [] ∧
            (nativeOf c).next (received.map receiveEvent) = (none, q, [])) ∨
          ∃ dropped, (untilLoss received).2 = some dropped ∧ ∃ q rest,
            (nativeOf c).next (received.map receiveEvent) = (some (.error (.desynchronized dropped)), q, rest) ∧
              q.desynchronized = true) := by
  induction received generalizing c with
  | nil =>
    cases hp : c.pending with
    | cons event pending =>
      obtain ⟨hclient, hnext⟩ := next_pending hd hp [] []
      exact .inl ⟨_, _, [], hclient, rfl, hd, hnext⟩
    | nil =>
      refine .inr ⟨?_, .inl ⟨rfl, nativeOf c, hd, hp, ?_⟩⟩
      · rw [ChannelPresence.next.eq_def, hd, hp]
        rfl
      · rw [next.eq_def, nativeOf, hd, hp]
        rfl
  | cons result received ih =>
    cases hp : c.pending with
    | cons event pending =>
      obtain ⟨hclient, hnext⟩ := next_pending hd hp (untilLoss (result :: received)).1
        ((result :: received).map receiveEvent)
      exact .inl ⟨_, _, result :: received, hclient, rfl, hd, hnext⟩
    | nil =>
      have hwait : (c.next []).1 = none := by
        rw [ChannelPresence.next.eq_def, hd, hp]
        rfl
      cases result with
      | lagged missed =>
        exact .inr ⟨hwait, .inr ⟨missed, rfl, next_lost (p := nativeOf c) hd hp rfl _⟩⟩
      | item event =>
        by_cases hlag : ∃ dropped, event = .lagged dropped
        · obtain ⟨dropped, rfl⟩ := hlag
          exact .inr ⟨hwait, .inr ⟨dropped, rfl, next_lost (p := nativeOf c) hd hp rfl _⟩⟩
        · have he : ∀ dropped, event ≠ .lagged dropped := fun dropped he => hlag ⟨dropped, he⟩
          have hsame := consume_desynchronized c he
          rw [untilLoss_cons he, List.map_cons, receiveEvent, next_cons (p := nativeOf c) hd hp,
            client_next_cons hd hp, consume_ok]
          rcases hc : c.consume event with ⟨_ | result, c'⟩ <;> rw [hc] at hsame
          · exact ih (hsame.trans hd)
          · exact .inl ⟨result, c', received, rfl, rfl, hsame.trans hd, rfl⟩

/-- A desynchronized consumer asks for a resynchronization, call after call. -/
theorem results_desynchronized {p : NativeChannelPresence} (hd : p.desynchronized = true) (n : Nat)
    (incoming : List (Except NativeEventError ChannelEvent)) :
    p.results n incoming = List.replicate n (some (.error .resyncRequired)) := by
  induction n with
  | zero => rfl
  | succ n ih =>
    have hnext : p.next incoming = (some (.error .resyncRequired), p, incoming) := by
      rw [next.eq_def, if_pos hd]
    rw [results, hnext, List.replicate_succ]
    exact congrArg _ ih

/-- One that has read all waits, call after call. -/
theorem results_waiting {p : NativeChannelPresence} (hd : p.desynchronized = false) (hp : p.pending = []) (n : Nat) :
    p.results n [] = List.replicate n none := by
  induction n with
  | zero => rfl
  | succ n ih =>
    have hnext : p.next [] = (none, p, []) := by
      rw [next.eq_def, hd, hp]
      rfl
    rw [results, hnext, List.replicate_succ]
    exact congrArg _ ih

theorem clientReturned_waiting (n : Nat) {c : ChannelPresence} {events : List ChannelEvent}
    (h : (c.next events).1 = none) : clientReturned (n + 1) c events = [] := by
  rcases hc : c.next events with ⟨_ | result, rest⟩ <;> rw [hc] at h
  · rw [clientReturned, hc]
  · cases h

/-- Up to the first loss the results are those of the client's consumer, and behind it comes the refusal. -/
theorem results_untilLoss (n : Nat) (received : List (Receipt ChannelEvent)) {c : ChannelPresence}
    (hd : c.desynchronized = false) :
    (nativeOf c).results n (received.map receiveEvent) =
      (clientReturned n c (untilLoss received).1).map (fun result => some (toNative result)) ++
        beyond (untilLoss received).2 (n - (clientReturned n c (untilLoss received).1).length) := by
  induction n generalizing received c with
  | zero => cases (untilLoss received).2 <;> rfl
  | succ n ih =>
    rcases next_untilLoss received hd with ⟨result, c', received', hclient, hloss, hd', hnext⟩ |
      ⟨hclient, ⟨hloss, q, hq, hp, hnext⟩ | ⟨dropped, hloss, q, rest, hnext, hq⟩⟩
    · rw [results, hnext, clientReturned, hclient, List.map_cons, List.length_cons, Nat.add_sub_add_right,
        List.cons_append, ← hloss, ← ih received' hd']
    · rw [clientReturned_waiting n hclient, hloss, results, hnext]
      exact congrArg _ (results_waiting hq hp n)
    · rw [clientReturned_waiting n hclient, hloss, results, hnext]
      exact congrArg _ (results_desynchronized hq n rest)

/-- A call that does not wait returns the same with more to read. -/
theorem client_next_append {c c' : ChannelPresence} {events events' : List ChannelEvent}
    {result : Except PresenceStreamError PresenceEvent} (h : c.next events = (some result, c', events'))
    (rest : List ChannelEvent) : c.next (events ++ rest) = (some result, c', events' ++ rest) := by
  induction events generalizing c with
  | nil =>
    by_cases hunread : c.desynchronized = true ∨ c.pending ≠ []
    · obtain ⟨first, after, hnext⟩ := client_next_unread hunread
      rw [hnext] at h
      cases h
      exact hnext _
    · rw [not_or, Bool.not_eq_true, not_not] at hunread
      rw [ChannelPresence.next.eq_def, hunread.1, hunread.2] at h
      cases h
  | cons event events ih =>
    by_cases hunread : c.desynchronized = true ∨ c.pending ≠ []
    · obtain ⟨first, after, hnext⟩ := client_next_unread hunread
      rw [hnext] at h
      cases h
      exact hnext _
    · rw [not_or, Bool.not_eq_true, not_not] at hunread
      rw [client_next_cons hunread.1 hunread.2] at h
      rw [List.cons_append, client_next_cons hunread.1 hunread.2]
      rcases hc : c.consume event with ⟨_ | first, after⟩ <;> rw [hc] at h
      · exact ih h
      · cases h
        rfl

/-- What is returned of the first events comes first of what is returned of all. -/
theorem clientReturned_prefix (n : Nat) (c : ChannelPresence) (events rest : List ChannelEvent) :
    clientReturned n c events <+: clientReturned n c (events ++ rest) := by
  induction n generalizing c events with
  | zero => exact List.prefix_refl _
  | succ n ih =>
    rcases hc : c.next events with ⟨_ | result, c', events'⟩
    · rw [clientReturned, hc]
      exact List.nil_prefix
    · rw [clientReturned, hc, clientReturned, client_next_append hc rest]
      exact List.cons_prefix_cons.mpr ⟨rfl, ih c' events'⟩

/-- So any report of the driver's events is mirrored up to its first loss. -/
theorem mirrors_of_reports {received : List (Receipt ChannelEvent)} {items emitted : List ChannelEvent}
    (h : Reports received items emitted) : Mirrors received emitted := by
  obtain ⟨rest, hemitted, hall⟩ := intact_of_reports h
  refine ⟨⟨rest, hemitted, hall⟩, fun n => ?_, fun n => results_untilLoss n received (c := .new) rfl⟩
  rw [hemitted]
  exact clientReturned_prefix n .new _ rest

end NativeChannelPresence

/-! ### Every run

Both, for a receiver that was opened anywhere in a run of the event pump. -/

section
variable {C R : Type} {B : Broadcast ChannelEvent C R} {s : EventPump ChannelEvent C R} {r : Receiver ChannelEvent R}

/-- **A subscription's losses are reported where they are.** Every event that its receiver was told of is
returned, or is of no interest, or is counted in a marker that is returned, or is lost with the items that a
failed call counts; and where no receive failed the calls return what a client's subscription does. -/
theorem subscription_accounted (name : String) (hB : B.Lawful) (h : (EventPump.machine B).Reachable s)
    (hb : s.stream.drops < 2 ^ 64 - 1) (hr : r ∈ s.receivers) :
    ∃ observed returned, s.Observed B r observed ∧ Heard name returned (s.passed B r) observed ∧
      (∀ n, NativeEventSubscription.returned name n (r.results.map receiveEvent) =
        (returned.map receiveEvent).take n) ∧
      ((∀ result ∈ r.results, result.missed = none) → ∀ n,
        NativeEventSubscription.returned name n (r.results.map receiveEvent) =
          (EventSubscription.returned name n (s.passed B r)).map .ok) := by
  obtain ⟨observed, hobserved, hreports⟩ := (EventPump.sound hB h).observed hb hr
  refine ⟨observed, _, hobserved, heard_of_reports name hreports, fun n => returned_heard name n r.results,
    fun hall n => ?_⟩
  rw [returned_heard, items_of_reports hreports hall, ← List.map_take, ← client_returned_heard, List.map_map]
  rfl

/-- A subscription of such a receiver is told of the two items too. -/
theorem subscription_accounted_late :
    ∃ (s : EventPump ChannelEvent (List ChannelEvent) Nat) (r : Receiver ChannelEvent Nat),
      r.results.map Receipt.missed = [some 2, none] ∧ ∃ observed returned,
        s.Observed (ring ChannelEvent 1) r observed ∧
          Heard "notice" returned (s.passed (ring ChannelEvent 1) r) observed ∧
          ∀ n, NativeEventSubscription.returned "notice" n (r.results.map receiveEvent) =
            (returned.map receiveEvent).take n := by
  obtain ⟨s, r, h, hb, hr, -, hresults⟩ := EventPump.reachable_late
  obtain ⟨observed, returned, hobserved, hheard, hcalls, -⟩ :=
    subscription_accounted "notice" (ring_lawful ChannelEvent 1) h hb hr
  exact ⟨s, r, hresults, observed, returned, hobserved, hheard, hcalls⟩

/-- **A native presence consumer tells what a client's would tell without losses**, up to the first loss
it reads of; then it says what that counts, and from there it only asks to be resynchronized. -/
theorem presence_mirrored (hB : B.Lawful) (h : (EventPump.machine B).Reachable s)
    (hb : s.stream.drops < 2 ^ 64 - 1) (hr : r ∈ s.receivers) :
    ∃ observed, s.Observed B r observed ∧ Reports r.results (s.passed B r) observed ∧
      NativeChannelPresence.Mirrors r.results observed := by
  obtain ⟨observed, hobserved, hreports⟩ := (EventPump.sound hB h).observed hb hr
  exact ⟨observed, hobserved, hreports, NativeChannelPresence.mirrors_of_reports hreports⟩

/-- The late receiver's consumer reads of the loss first. -/
theorem presence_mirrored_late :
    ∃ (s : EventPump ChannelEvent (List ChannelEvent) Nat) (r : Receiver ChannelEvent Nat),
      (∃ observed, s.Observed (ring ChannelEvent 1) r observed ∧ NativeChannelPresence.Mirrors r.results observed) ∧
        NativeChannelPresence.new.results 2 (r.results.map receiveEvent) =
          [some (.error (.desynchronized 2)), some (.error .resyncRequired)] := by
  obtain ⟨s, r, h, hb, hr, -, hresults⟩ := EventPump.reachable_late
  obtain ⟨observed, hobserved, -, hmirrors⟩ := presence_mirrored (ring_lawful ChannelEvent 1) h hb hr
  refine ⟨s, r, ⟨observed, hobserved, hmirrors⟩, ?_⟩
  have hfirst : NativeChannelPresence.untilLoss r.results = ([], some 2) := by
    rcases hreceived : r.results with _ | ⟨item | missed, rest⟩ <;> rw [hreceived] at hresults
    · cases hresults
    · cases hresults
    · cases Option.some.inj (List.cons.inj hresults).1
      rfl
  rw [hmirrors.results 2, hfirst]
  rfl

end

end PhoenixChannel.Native
