import PhoenixChannel.Client.EventStreams
import PhoenixChannel.Library.Broadcast

/-! From the driver's events to the host's receivers.

The driver sends a subscriber's events into a bounded channel, a pump on the worker's thread reads them
and broadcasts them, and every receiver on a host thread reads the broadcast at its own pace. Events are
lost in either half. A loss in the first half is a marker among the items of the stream; one in the second
half is a failed receive, which counts items. A marker that is skipped is one of those, and what it counted
is counted nowhere else. `Reports` says what a receiver's results tell of the events by way of the items
they stand for. The broadcast channel is a parameter. -/
namespace PhoenixChannel.Native
open PhoenixChannel.Library PhoenixChannel.Client
open PhoenixChannel.Client.EventSubscriber (Tells Accounts)

/-- A receiver on a host thread: where it subscribed, its end of the channel, and what it was given. -/
structure Receiver (T R : Type) where
  start : Nat
  receiver : R
  results : List (Receipt T)

/-- A subscriber's events on their way to the host. -/
structure EventPump (T C R : Type) where
  stream : EventStream T
  channel : C
  receivers : List (Receiver T R)

namespace EventPump

inductive Input (T : Type) where
  /-- `send_bounded`. The pump keeps its receiver as long as the driver runs. -/
  | emit (event : T) (marker own : SendOutcome)
  /-- The pump reads an event and broadcasts it. -/
  | pump
  | subscribe
  | receive (receiver : Nat)

variable {T C R : Type} [LaggedEvent T]

def emit (s : EventPump T C R) (event : T) (marker own : SendOutcome) : Option (EventPump T C R) :=
  if marker = .disconnected ∨ own = .disconnected then none
  else (s.stream.step (.emit event marker own)).map fun stream => { s with stream }

section
variable (B : Broadcast T C R)

/-- One turn of `while let Some(event) = event_rx.next().await`. -/
def pump (s : EventPump T C R) : Option (EventPump T C R) :=
  s.stream.subscriber.buffer.head?.bind fun event =>
    (s.stream.step .read).map fun stream => { s with stream, channel := B.send s.channel event }

def subscribe (s : EventPump T C R) : EventPump T C R :=
  { s with receivers := s.receivers ++ [⟨s.stream.read.length, B.subscribe s.channel, []⟩] }

/-- `receive_event`, when there is something to receive. -/
def receive (s : EventPump T C R) (receiver : Nat) : Option (EventPump T C R) :=
  s.receivers[receiver]?.bind fun r =>
    (B.recv s.channel r.receiver).map fun received =>
      { s with
        receivers := s.receivers.set receiver
          { r with receiver := received.2, results := r.results ++ [received.1] } }

def step (s : EventPump T C R) : Input T → Option (EventPump T C R)
  | .emit event marker own => s.emit event marker own
  | .pump => s.pump B
  | .subscribe => some (s.subscribe B)
  | .receive receiver => s.receive B receiver

def machine : Machine (EventPump T C R) (Input T) where
  start := ⟨(EventStream.machine T).start, B.channel, []⟩
  step := step B

/-- What was broadcast from where the receiver subscribed to where it is. -/
def passed (s : EventPump T C R) (r : Receiver T R) : List T :=
  between s.stream.read r.start (B.position r.receiver)

/-- The events a receiver was told of: those between what the stream told before it subscribed and what
it has yet to be told of, which is on its way or will be in the next marker. -/
def Observed (s : EventPump T C R) (r : Receiver T R) (observed : List T) : Prop :=
  ∃ before after, s.stream.emitted = before ++ observed ++ after ∧ Tells (s.stream.read.take r.start) before ∧
    Accounts (s.stream.read.drop (B.position r.receiver) ++ s.stream.subscriber.buffer)
      s.stream.subscriber.dropped after

end

/-- What results tell of that stand for `items` of a stream, and those for events. -/
inductive Reports : List (Receipt T) → List T → List T → Prop where
  | nil : Reports [] [] []
  | event {results : List (Receipt T)} {items emitted : List T} (event : T) (h : Reports results items emitted) :
    Reports (.item event :: results) (event :: items) (event :: emitted)
  | marker {results : List (Receipt T)} {items emitted : List T} (missing : List T) (hm : missing ≠ [])
    (h : Reports results items emitted) :
    Reports (.item (LaggedEvent.lagged missing.length) :: results) (LaggedEvent.lagged missing.length :: items)
      (missing ++ emitted)
  /-- The number is that of the items, where a marker is one for all that it counts. -/
  | gap {results : List (Receipt T)} {items emitted missed lost : List T} (ht : Tells missed lost)
    (hle : missed.length ≤ lost.length) (h : Reports results items emitted) :
    Reports (.lagged missed.length :: results) (missed ++ items) (lost ++ emitted)

/-! ### Parts of a stream

What results tell of items, and items of events, is put together piece by piece. -/

omit [LaggedEvent T] in
/-- A list cut in two, seen from its last item: that is in the second part unless this is empty. -/
theorem append_eq_concat {first second stream : List T} {last : T} (h : first ++ second = stream ++ [last]) :
    second = [] ∧ first = stream ++ [last] ∨ ∃ rest, second = rest ++ [last] ∧ first ++ rest = stream := by
  rcases List.eq_nil_or_concat second with rfl | ⟨rest, item, rfl⟩
  · exact .inl ⟨rfl, (List.append_nil first).symm.trans h⟩
  · rw [List.concat_eq_append, ← List.append_assoc] at h
    obtain ⟨hrest, hitem⟩ := List.append_inj' h rfl
    cases hitem
    exact .inr ⟨rest, List.concat_eq_append, hrest⟩

/-- A part of a stream tells of a part of the events. -/
theorem tells_append {first second emitted : List T} (h : Tells (first ++ second) emitted) :
    ∃ before after, emitted = before ++ after ∧ Tells first before ∧ Tells second after := by
  generalize hs : first ++ second = stream at h
  induction h generalizing second with
  | nil =>
    obtain ⟨rfl, rfl⟩ := List.append_eq_nil_iff.mp hs
    exact ⟨[], [], rfl, .nil, .nil⟩
  | event h event ih =>
    rcases append_eq_concat hs with ⟨rfl, rfl⟩ | ⟨rest, rfl, hrest⟩
    · exact ⟨_, [], (List.append_nil _).symm, h.event event, .nil⟩
    · obtain ⟨before, after, rfl, hb, ha⟩ := ih hrest
      exact ⟨before, after ++ [event], List.append_assoc .., hb, ha.event event⟩
  | marker h missing hm ih =>
    rcases append_eq_concat hs with ⟨rfl, rfl⟩ | ⟨rest, rfl, hrest⟩
    · exact ⟨_, [], (List.append_nil _).symm, h.marker missing hm, .nil⟩
    · obtain ⟨before, after, rfl, hb, ha⟩ := ih hrest
      exact ⟨before, after ++ missing, List.append_assoc .., hb, ha.marker missing hm⟩

/-- An item of a stream is an event, or a marker for what it counts. -/
theorem tells_one {item : T} {emitted : List T} (h : Tells [item] emitted) :
    emitted = [item] ∨ emitted ≠ [] ∧ item = LaggedEvent.lagged emitted.length := by
  generalize hs : [item] = stream at h
  cases h with
  | nil => cases hs
  | @event stream emitted h event =>
    obtain ⟨rfl, hlast⟩ := List.append_inj' (show [] ++ [item] = _ from hs) rfl
    cases hlast
    rw [EventSubscriber.tells_nil h]
    exact .inl rfl
  | @marker stream emitted h missing hm =>
    obtain ⟨rfl, hlast⟩ := List.append_inj' (show [] ++ [item] = _ from hs) rfl
    cases hlast
    rw [EventSubscriber.tells_nil h]
    exact .inr ⟨hm, rfl⟩

/-- What covers a stream reports what the stream tells of. -/
theorem reports_of_covers {results : List (Receipt T)} {items emitted : List T} (hc : Covers results items)
    (ht : Tells items emitted) : Reports results items emitted := by
  induction hc generalizing emitted with
  | nil =>
    rw [EventSubscriber.tells_nil ht]
    exact .nil
  | @item results items item _ ih =>
    obtain ⟨before, after, rfl, hb, ha⟩ := tells_append (show Tells ([item] ++ items) emitted from ht)
    rcases tells_one hb with rfl | ⟨hm, hmarker⟩
    · exact .event item (ih ha)
    · rw [hmarker]
      exact .marker before hm (ih ha)
  | lagged missed _ ih =>
    obtain ⟨before, after, rfl, hb, ha⟩ := tells_append ht
    exact .gap hb hb.length_le (ih ha)

/-! ### Every run

What a receiver was given covers the broadcast from its place on, and what was broadcast, with what
the pump has still to read, tells the driver's events. -/

/-- The two halves of the way: the stream is the driver's, what the pump read is what it broadcast, and
a receiver's results cover that from where it subscribed to where it is. -/
structure Sound (B : Broadcast T C R) (s : EventPump T C R) : Prop where
  connected : s.stream.connected = true
  dropped : s.stream.subscriber.dropped ≤ s.stream.drops
  told : s.stream.drops < 2 ^ 64 - 1 → s.stream.Told
  sent : B.sent s.channel = s.stream.read
  placed : ∀ r ∈ s.receivers, r.start ≤ B.position r.receiver ∧
    B.position r.receiver ≤ s.stream.read.length ∧ Covers r.results (s.passed B r)

/-- A subscriber whose sends do not find it gone stays. -/
theorem connected_sendBounded (subscriber : EventSubscriber T) (event : T) {marker own : SendOutcome}
    (hm : marker ≠ .disconnected) (ho : own ≠ .disconnected) :
    (subscriber.sendBounded event marker own).1 = true := by
  unfold EventSubscriber.sendBounded
  by_cases hd : subscriber.dropped > 0
  · rw [if_pos hd]
    cases marker with
    | sent => cases own with
      | sent => rfl
      | full => rfl
      | disconnected => exact absurd rfl ho
    | full => rfl
    | disconnected => exact absurd rfl hm
  · rw [if_neg hd]
    cases own with
    | sent => rfl
    | full => rfl
    | disconnected => exact absurd rfl ho

section
variable {B : Broadcast T C R} {s s' : EventPump T C R}

/-- Nothing was sent, and nobody listens. -/
theorem sound_start (hB : B.Lawful) : Sound B (machine B).start where
  connected := rfl
  dropped := Nat.le_refl _
  told _ := show Accounts [] 0 [] from ⟨[], [], .nil, rfl, rfl⟩
  sent := hB.sent_channel
  placed _ hr := (List.not_mem_nil hr).elim

/-- The driver's half: nothing changes for the receivers. -/
theorem Sound.emit (h : Sound B s) {event : T} {marker own : SendOutcome} (hs : s.emit event marker own = some s') :
    Sound B s' := by
  unfold EventPump.emit at hs
  by_cases hgone : marker = .disconnected ∨ own = .disconnected
  · rw [if_pos hgone] at hs
    cases hs
  · rw [if_neg hgone] at hs
    obtain ⟨stream, hst, rfl⟩ := Option.map_eq_some_iff.mp hs
    have hemit : stream = s.stream.emit event marker own := by
      rw [EventStream.step, if_pos h.connected] at hst
      exact (Option.some.inj hst).symm
    subst hemit
    rw [not_or] at hgone
    have hcount := EventSubscriber.dropped_sendBounded s.stream.subscriber event marker own
    refine ⟨connected_sendBounded _ event hgone.1 hgone.2, ?_, fun hb => ?_, h.sent, h.placed⟩
    · exact Nat.le_trans hcount (Nat.add_le_add_right h.dropped _)
    · have hgrows : s.stream.drops ≤ (s.stream.emit event marker own).drops := Nat.le_add_right ..
      have hbefore := Nat.lt_of_le_of_lt hgrows hb
      have hroom := Nat.lt_of_le_of_lt h.dropped hbefore
      exact EventStream.told_emit (h.told hbefore) h.connected hroom event marker own

/-- What is broadcast is the next item of the stream, behind every receiver's place. -/
theorem Sound.pump (hB : B.Lawful) (h : Sound B s) (hs : s.pump B = some s') : Sound B s' := by
  unfold EventPump.pump at hs
  obtain ⟨event, hhead, hs⟩ := Option.bind_eq_some_iff.mp hs
  obtain ⟨rest, hbuffer⟩ := List.head?_eq_some_iff.mp hhead
  obtain ⟨stream, hst, rfl⟩ := Option.map_eq_some_iff.mp hs
  have hread : stream = { s.stream with
      subscriber := { s.stream.subscriber with buffer := rest }, read := s.stream.read ++ [event] } := by
    simp only [EventStream.step, hbuffer, Option.some.injEq] at hst
    exact hst.symm
  subst hread
  refine ⟨h.connected, h.dropped, fun hb => EventStream.told_read (h.told hb) hbuffer, ?_, fun r hr => ?_⟩
  · rw [hB.sent_send, h.sent]
  obtain ⟨hstart, hplace, hcovers⟩ := h.placed r hr
  refine ⟨hstart, ?_, ?_⟩
  · show B.position r.receiver ≤ (s.stream.read ++ [event]).length
    rw [List.length_append]
    exact Nat.le_add_right_of_le hplace
  · show Covers r.results (between (s.stream.read ++ [event]) r.start (B.position r.receiver))
    rw [between_concat hplace]
    exact hcovers

/-- A new receiver starts behind the last item. -/
theorem Sound.subscribe (hB : B.Lawful) (h : Sound B s) : Sound B (s.subscribe B) := by
  refine ⟨h.connected, h.dropped, h.told, h.sent, fun r hr => ?_⟩
  rcases List.mem_append.mp hr with hr | hr
  · exact h.placed r hr
  · obtain rfl := List.mem_singleton.mp hr
    have hplace : B.position (B.subscribe s.channel) = s.stream.read.length := by
      rw [hB.position_subscribe, h.sent]
    refine ⟨Nat.le_of_eq hplace.symm, Nat.le_of_eq hplace, ?_⟩
    show Covers [] (between s.stream.read s.stream.read.length (B.position (B.subscribe s.channel)))
    rw [hplace, between_self]
    exact .nil

/-- A receiver goes on by what its result stands for. -/
theorem Sound.receive (hB : B.Lawful) (h : Sound B s) {receiver : Nat} (hs : s.receive B receiver = some s') :
    Sound B s' := by
  obtain ⟨r, hr, hs⟩ := Option.bind_eq_some_iff.mp hs
  obtain ⟨⟨result, end'⟩, hrecv, rfl⟩ := Option.map_eq_some_iff.mp hs
  refine ⟨h.connected, h.dropped, h.told, h.sent, fun r' hr' => ?_⟩
  obtain ⟨hstart, hplace, hcovers⟩ := h.placed r (List.mem_of_getElem? hr)
  rcases List.mem_or_eq_of_mem_set hr' with hr' | rfl
  · exact h.placed r' hr'
  · obtain ⟨hle, hlength, hone⟩ := hB.recv_covers hrecv
    rw [h.sent] at hlength hone
    have hall := hcovers.append hone
    rw [passed, between_append hstart hle hlength] at hall
    exact ⟨Nat.le_trans hstart hle, hlength, hall⟩

/-- One case for each input, by the lemmas above. -/
theorem Sound.step (hB : B.Lawful) (h : Sound B s) {input : Input T} (hs : s.step B input = some s') :
    Sound B s' := by
  cases input with
  | emit event marker own => exact h.emit hs
  | pump => exact h.pump hB hs
  | subscribe =>
    cases hs
    exact h.subscribe hB
  | receive receiver => exact h.receive hB hs

theorem sound (hB : B.Lawful) (h : (machine B).Reachable s) : Sound B s :=
  h.invariant (P := Sound B) (sound_start hB) fun _ _ _ _ hsound _ hs => hsound.step hB hs

/-- The two halves together. -/
theorem Sound.observed (h : Sound B s) (hb : s.stream.drops < 2 ^ 64 - 1) {r : Receiver T R}
    (hr : r ∈ s.receivers) : ∃ observed, s.Observed B r observed ∧ Reports r.results (s.passed B r) observed := by
  obtain ⟨hconnected, -, htold, -, hplaced⟩ := h
  obtain ⟨hstart, hplace, hcovers⟩ := hplaced r hr
  have htold := htold hb
  rw [EventStream.Told, if_pos hconnected] at htold
  obtain ⟨told, missing, htells, hmissing, hemitted⟩ := htold
  have hsplit : s.stream.read ++ s.stream.subscriber.buffer = s.stream.read.take r.start ++
      (s.passed B r ++ (s.stream.read.drop (B.position r.receiver) ++ s.stream.subscriber.buffer)) := by
    have hfirst : s.stream.read.take (B.position r.receiver) = s.stream.read.take r.start ++ s.passed B r := by
      have hcut := List.take_append_drop r.start (s.stream.read.take (B.position r.receiver))
      rw [List.take_take, Nat.min_eq_left hstart] at hcut
      exact hcut.symm
    rw [← List.append_assoc, ← List.append_assoc, ← hfirst, List.take_append_drop]
  rw [hsplit] at htells
  obtain ⟨before, rest, rfl, hbefore, hrest⟩ := tells_append htells
  obtain ⟨observed, after, rfl, hobserved, hafter⟩ := tells_append hrest
  refine ⟨observed, ⟨before, after ++ missing, ?_, hbefore, after, missing, hafter, hmissing, rfl⟩,
    reports_of_covers hcovers hobserved⟩
  rw [hemitted, List.append_assoc, List.append_assoc, List.append_assoc]

/-- A receiver that has to wait is at the end of what was broadcast. -/
theorem Sound.waits (hB : B.Lawful) (h : Sound B s) {r : Receiver T R} (hr : r ∈ s.receivers)
    (hw : B.recv s.channel r.receiver = none) : B.position r.receiver = s.stream.read.length :=
  Nat.le_antisymm (h.placed r hr).2.1 (h.sent ▸ hB.recv_waits hw)

/-- **Every event from a receiver's subscription to its place is given, or counted in a marker it was given,
or lost with the items of a failed receive**, in the order in which the driver emitted them; and a receiver
that has to wait has all of what was broadcast behind it. -/
theorem events_accounted (hB : B.Lawful) (h : (machine B).Reachable s) (hb : s.stream.drops < 2 ^ 64 - 1)
    {r : Receiver T R} (hr : r ∈ s.receivers) :
    (∃ observed, s.Observed B r observed ∧ Reports r.results (s.passed B r) observed) ∧
      (B.recv s.channel r.receiver = none → B.position r.receiver = s.stream.read.length) :=
  ⟨(sound hB h).observed hb hr, (sound hB h).waits hB hr⟩

end

/-- A receiver of a broadcast that keeps one item is late for an event and for the marker of two more: its
failed receive counts two where three are lost. -/
def late : List (Input ChannelEvent) :=
  [.subscribe, .emit .disconnected .sent .sent, .emit .disconnected .sent .full, .emit .disconnected .full .sent,
    .emit .disconnected .sent .sent, .pump, .pump, .pump, .receive 0, .receive 0]

/-- Such a receiver is told of two items that it missed, and reads the third. -/
theorem reachable_late : ∃ (s : EventPump ChannelEvent (List ChannelEvent) Nat) (r : Receiver ChannelEvent Nat),
    (machine (ring ChannelEvent 1)).Reachable s ∧ s.stream.drops < 2 ^ 64 - 1 ∧ r ∈ s.receivers ∧
      s.stream.emitted.length = 4 ∧ r.results.map Receipt.missed = [some 2, none] := by
  obtain ⟨s, hreach, hs⟩ := Machine.reachable_of_run (machine (ring ChannelEvent 1)) late
    (fun s => s.stream.drops < 2 ^ 64 - 1 ∧ s.stream.emitted.length = 4 ∧
      s.receivers.any fun r => r.results.map Receipt.missed = [some 2, none]) (by decide +kernel)
  obtain ⟨hb, hemitted, hany⟩ := of_decide_eq_true hs
  obtain ⟨r, hr, hresults⟩ := List.any_eq_true.mp hany
  exact ⟨s, r, hreach, hb, hr, hemitted, of_decide_eq_true hresults⟩

/-- Three of the four events are lost with the two items, and the fourth is given. -/
theorem events_accounted_late :
    ∃ (s : EventPump ChannelEvent (List ChannelEvent) Nat) (r : Receiver ChannelEvent Nat),
      s.stream.emitted.length = 4 ∧ r.results.map Receipt.missed = [some 2, none] ∧
        ∃ observed, s.Observed (ring ChannelEvent 1) r observed ∧
          Reports r.results (s.passed (ring ChannelEvent 1) r) observed := by
  obtain ⟨s, r, h, hb, hr, hemitted, hresults⟩ := reachable_late
  exact ⟨s, r, hemitted, hresults, (events_accounted (ring_lawful ChannelEvent 1) h hb hr).1⟩

end EventPump
end PhoenixChannel.Native
