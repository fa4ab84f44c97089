import PhoenixChannel.Client.Presence
import PhoenixChannel.Runtime.Ledger
import PhoenixChannel.Runtime.PresenceConvergence

/-! One join generation, as the protocol and the presence tracker see it.

The protocol calls a frame stale when it carries a join reference that is not its
channel's; one without a join reference is never stale. The tracker applies a diff when
its join reference equals the one of the last full state; one without a join reference
never does. A subscription runs both on the same frames. -/
namespace PhoenixChannel.Client
open PhoenixChannel.Runtime Library

/-- The topic whose subscribers get an event. -/
def eventTopic : ProtocolEvent → Option Topic
  | .joined topic _ _ | .joinError topic _ _ | .left topic _ _ | .reply topic _ _ _ _
  | .channelClosed topic _ | .channelError topic _ | .requestInterrupted topic _ _ => some topic
  | .message frame | .staleMessage frame | .unmatchedReply frame => some frame.topic
  | .heartbeatAck _ _ => none

/-- The protocol and the presence consumer of one of its topics. -/
structure Subscription where
  protocol : Protocol
  presence : ChannelPresence

namespace Subscription

/-- What happens to a subscription. -/
inductive Input where
  /-- An operation of the protocol; the topic's events go to the consumer. -/
  | op (op : Op)
  /-- The bounded event stream dropped events. -/
  | lagged (dropped : Nat)
  /-- `resync` completed. -/
  | resynchronized

/-- The consumer reads an event, unless it waits for a resynchronization. -/
def deliver (p : ChannelPresence) (event : ChannelEvent) : ChannelPresence :=
  if p.desynchronized then p else (p.consume event).2

/-- The events an operation brings the topic's subscribers. -/
def delivered (topic : Topic) (p : Protocol) (op : Op) : List ChannelEvent :=
  let events := ((p.perform op).1.events.filter fun event => eventTopic event = some topic).map
    ChannelEvent.protocol
  match op with
  | .resetConnection => .disconnected :: events
  | _ => events

def machine (topic : Topic) : Machine Subscription Input where
  start := ⟨.new, .new⟩
  step s
    | .op op =>
      some ⟨(s.protocol.perform op).2, (delivered topic s.protocol op).foldl deliver s.presence⟩
    | .lagged dropped => some { s with presence := deliver s.presence (.lagged dropped) }
    | .resynchronized => some { s with presence := s.presence.resynchronized }

variable {topic : Topic}

/-- The join reference of the topic's current generation. -/
def generation (topic : Topic) (s : Subscription) : Option Reference :=
  s.protocol.channels[topic]?.map Channel.joinRef

/-- The protocol reports a frame of the topic as a message. -/
structure Reported (topic : Topic) (s : Subscription) (frame : Frame) : Prop where
  topic : frame.topic = topic
  message : (s.protocol.receive frame).1 = .ok (.message frame)

/-- The frame is one of the two presence events. -/
def Presenting (frame : Frame) : Prop :=
  frame.event = "presence_state" ∨ frame.event = "presence_diff"

/-- An event that ends the generation for the consumer. -/
def Ends : ChannelEvent → Prop
  | .disconnected | .lagged _ | .protocol (.left _ _ _) | .protocol (.channelClosed _ _)
  | .protocol (.channelError _ _) => True
  | _ => False

/-- A diff takes effect in the step it arrives in, and nothing is left queued. -/
def AppliedAtOnce (t : PresenceTracker) (frame : Frame) (diff : PresenceDiff) : Prop :=
  (t.apply frame).1 = .ok (.synced diff) ∧
    (t.apply frame).2.state.connections = diff.delta.apply t.state.connections ∧
    (t.apply frame).2.pendingDiffs = []

/-- A step in which generation `r` goes on, and every presence frame that is reported as a
message carries a join reference. -/
structure Continues (topic : Topic) (r : Reference) (s : Subscription) (i : Input) : Prop where
  operation : ∃ op, i = .op op ∧
    (((s.protocol.perform op).2.channels[topic]?).map Channel.joinRef = some r) ∧
    (∀ event ∈ delivered topic s.protocol op, ¬ Ends event) ∧
    (∀ frame, .protocol (.message frame) ∈ delivered topic s.protocol op → Presenting frame →
      frame.joinRef ≠ none)

/-- The consumer listens to the two presence events, on a tracker that cannot fail. -/
structure Listening (p : ChannelPresence) : Prop where
  stateEvent : p.tracker.stateEvent = "presence_state"
  diffEvent : p.tracker.diffEvent = "presence_diff"
  tagged : p.tracker.Tagged

/-- The consumer has applied the full state of generation `r`, and nothing is queued. -/
structure Following (r : Reference) (p : ChannelPresence) : Prop extends Listening p where
  following : p.desynchronized = false
  joinRef : p.tracker.joinRef = some r
  pending : p.tracker.pendingDiffs = []

/-! ### Events at the consumer

A tracker that listens stays one. In a generation that goes on it also keeps the generation's join
reference and an empty queue. -/

theorem consume_message (p : ChannelPresence) (frame : Frame) :
    (p.consume (.protocol (.message frame))).2.tracker = (p.tracker.apply frame).2 ∧
      (p.consume (.protocol (.message frame))).2.desynchronized = p.desynchronized := by
  show (p.message frame).2.tracker = _ ∧ (p.message frame).2.desynchronized = _
  unfold ChannelPresence.message
  rcases p.tracker.apply frame with ⟨_ | (_ | _ | _), _⟩ <;> exact ⟨rfl, rfl⟩

theorem listening_reset {p : ChannelPresence} (h : Listening p) : Listening p.reset :=
  ⟨h.stateEvent, h.diffEvent, ⟨PresenceState.tagged_empty, by simp [ChannelPresence.reset,
    PresenceTracker.reset]⟩⟩

/-- No event changes what the consumer listens to, and no frame makes the tracker fail. -/
theorem listening_consume {p : ChannelPresence} (h : Listening p) (event : ChannelEvent) :
    Listening (p.consume event).2 := by
  cases event with
  | disconnected => exact listening_reset h
  | joinPayloadError => exact h
  | lagged =>
    have hr := listening_reset h
    exact ⟨hr.stateEvent, hr.diffEvent, hr.tagged⟩
  | protocol event =>
    cases event with
    | message frame =>
      obtain ⟨ht, _⟩ := consume_message p frame
      have hs := PresenceTracker.same_apply h.tagged frame
      refine ⟨?_, ?_, ?_⟩
      · rw [ht, hs.stateEvent, h.stateEvent]
      · rw [ht, hs.diffEvent, h.diffEvent]
      · rw [ht]
        exact h.tagged.apply frame
    | left | channelClosed | channelError => exact listening_reset h
    | _ => exact h

theorem listening_deliver {p : ChannelPresence} (h : Listening p) (event : ChannelEvent) :
    Listening (deliver p event) := by
  unfold deliver
  split
  · exact h
  · exact listening_consume h event

/-- A frame of generation `r`, or of no interest, keeps the consumer up to date. -/
theorem following_message {p : ChannelPresence} {r : Reference} (h : Following r p) (frame : Frame)
    (hf : Presenting frame → frame.joinRef = some r) :
    Following r (p.consume (.protocol (.message frame))).2 := by
  obtain ⟨ht, hd⟩ := consume_message p frame
  have hl := listening_consume h.toListening (.protocol (.message frame))
  have happ := PresenceTracker.applied h.tagged frame
  refine ⟨hl, by rw [hd, h.following], ?_, ?_⟩
  all_goals
    rw [ht]
    generalize (p.tracker.apply frame).1 = result at happ
    generalize (p.tracker.apply frame).2 = tracker at happ
    cases happ with
    | ignored | refused => first | exact h.joinRef | exact h.pending
    | state hs _ _ =>
      have := hf (.inl (by rw [hs.event, h.stateEvent]))
      first | exact this | rfl
    | queued hdiff hr =>
      have := hf (.inr (by rw [hdiff.event, h.diffEvent]))
      simp [h.joinRef, this] at hr
    | diff _ _ _ _ _ => first | exact h.joinRef | exact h.pending

/-- A presence frame that carries the generation's reference leaves nothing queued, and every other event
leaves the tracker alone. -/
theorem following_deliver {p : ChannelPresence} {r : Reference} (h : Following r p)
    {event : ChannelEvent} (he : ¬ Ends event)
    (hf : ∀ frame, event = .protocol (.message frame) → Presenting frame →
      frame.joinRef = some r) : Following r (deliver p event) := by
  have hon : deliver p event = (p.consume event).2 := by simp [deliver, h.following]
  rw [hon]
  cases event with
  | disconnected | lagged => exact absurd trivial he
  | joinPayloadError => exact h
  | protocol event =>
    cases event with
    | message frame => exact following_message h frame (hf frame rfl)
    | left | channelClosed | channelError => exact absurd trivial he
    | _ => exact h

/-- So do any number of events that do not end the generation. -/
theorem following_foldl {events : List ChannelEvent} {p : ChannelPresence} {r : Reference}
    (h : Following r p) (he : ∀ event ∈ events, ¬ Ends event)
    (hf : ∀ frame, .protocol (.message frame) ∈ events → Presenting frame →
      frame.joinRef = some r) : Following r (events.foldl deliver p) := by
  induction events generalizing p with
  | nil => exact h
  | cons event rest ih =>
    refine ih (following_deliver h (he event List.mem_cons_self) fun frame heq => ?_)
      (fun e hm => he e (List.mem_cons_of_mem _ hm))
      (fun frame hm => hf frame (List.mem_cons_of_mem _ hm))
    exact hf frame (heq ▸ List.mem_cons_self)

/-! ### Frames at the protocol

What the protocol reports as a message is not stale, so its join reference is the channel's, if it
has one. -/

/-- A message is reported for the frame received, and the protocol stays as it is. -/
theorem message_received {p : Protocol} {frame frame' : Frame}
    (h : (p.receive frame).1 = .ok (.message frame')) :
    frame' = frame ∧ p.stale frame = false ∧ (p.receive frame).2 = p := by
  have hr := Protocol.received p frame
  rw [h] at hr
  generalize (p.receive frame).2 = p' at hr ⊢
  generalize he : (Except.ok (ProtocolEvent.message frame') :
    Except ProtocolError ProtocolEvent) = result at hr
  cases hr with
  | message hs _ _ _ =>
    cases he
    exact ⟨rfl, hs, rfl⟩
  | @settled r pending status response =>
    cases pending <;> cases status <;> cases he
  | _ => cases he

/-- A reported frame carries the current join reference, or none. -/
theorem joinRef_of_reported {s : Subscription} {frame : Frame} {r : Reference}
    (hg : s.generation topic = some r) (h : s.Reported topic frame) :
    frame.joinRef = none ∨ frame.joinRef = some r := by
  obtain ⟨_, hs, _⟩ := message_received h.message
  obtain ⟨channel, hc, hr⟩ := Option.map_eq_some_iff.mp hg
  rw [Protocol.stale, h.topic, hc, Option.any_some, hr] at hs
  cases hj : frame.joinRef with
  | none => exact .inl rfl
  | some r' =>
    rw [hj] at hs
    exact .inr (by simpa using hs)

/-- Only a receive reports a message, and it reports its own frame. -/
theorem message_of_perform {p : Protocol} {op : Op} {frame : Frame}
    (h : .message frame ∈ (p.perform op).1.events) :
    op = .receive frame ∧ (p.receive frame).1 = .ok (.message frame) := by
  cases op with
  | receive frame' =>
    cases hr : (p.receive frame').1 with
    | error e => simp [Protocol.perform, Protocol.reporting, hr] at h
    | ok event =>
      simp only [Protocol.perform, Protocol.reporting, hr, List.mem_singleton] at h
      subst h
      obtain ⟨rfl, _⟩ := message_received hr
      exact ⟨rfl, hr⟩
  | resetConnection =>
    obtain ⟨⟨r, pending⟩, _, he⟩ := List.mem_filterMap.mp h
    cases pending <;> cases he
  | join topic params | rejoin topic params | leave topic | push topic event payload =>
    simp only [Protocol.perform, Protocol.returning_events] at h
    cases h
  | _ => cases h

/-- A message frame reaches the subscribers of its topic, when it is received. -/
theorem reported_of_delivered {s : Subscription} {op : Op} {frame : Frame}
    (h : .protocol (.message frame) ∈ delivered topic s.protocol op) : s.Reported topic frame := by
  have hmem : .protocol (.message frame) ∈ ((s.protocol.perform op).1.events.filter fun event =>
      eventTopic event = some topic).map ChannelEvent.protocol := by
    cases op with
    | resetConnection =>
      rcases List.mem_cons.mp h with h | h
      · cases h
      · exact h
    | _ => exact h
  obtain ⟨event, hevent, heq⟩ := List.mem_map.mp hmem
  cases heq
  obtain ⟨hin, htopic⟩ := List.mem_filter.mp hevent
  obtain ⟨_, hr⟩ := message_of_perform hin
  exact ⟨by simpa [eventTopic] using htopic, hr⟩

/-! ### Runs

While generation `r` goes on, both sides keep the join reference `r`. -/

theorem listening_foldl {events : List ChannelEvent} {p : ChannelPresence} (h : Listening p) :
    Listening (events.foldl deliver p) := by
  induction events generalizing p with
  | nil => exact h
  | cons event rest ih => exact ih (listening_deliver h event)

/-- A new consumer listens, and every step keeps it so. -/
theorem listening_of_reachable {s : Subscription} (h : (machine topic).Reachable s) :
    Listening s.presence := by
  refine Machine.Reach.invariant (P := fun s => Listening s.presence) ?_ ?_ h
  · exact ⟨rfl, rfl, PresenceState.tagged_empty, by simp [machine, ChannelPresence.new,
      PresenceTracker.new, PresenceTracker.withEvents]⟩
  intro s i s' _ hl _ hs
  cases i with
  | op op =>
    cases hs
    exact listening_foldl hl
  | lagged dropped =>
    cases hs
    exact listening_deliver hl _
  | resynchronized =>
    cases hs
    have hr := listening_reset hl
    exact ⟨hr.stateEvent, hr.diffEvent, hr.tagged⟩

/-- The protocol's current generation is `r`, and the consumer follows it. -/
structure Synced (topic : Topic) (r : Reference) (s : Subscription) : Prop where
  generation : s.generation topic = some r
  following : Following r s.presence

theorem synced_step {r : Reference} {s s' : Subscription} {i : Input} (h : Synced topic r s)
    (hc : Continues topic r s i) (hs : (machine topic).step s i = some s') : Synced topic r s' := by
  obtain ⟨op, rfl, hgen, hends, hcarry⟩ := hc.operation
  cases hs
  refine ⟨hgen, following_foldl h.following hends fun frame hmem hp => ?_⟩
  rcases joinRef_of_reported h.generation (reported_of_delivered hmem) with hn | hr
  · exact absurd hn (hcarry frame hmem hp)
  · exact hr

/-- A full state of the current generation brings the consumer up to date. -/
theorem synced_snapshot {r : Reference} {s s' : Subscription} {snapshot : Frame}
    {newState : PresenceState} (hl : Listening s.presence) (hg : s.generation topic = some r)
    (hd : s.presence.desynchronized = false) (hrep : s.Reported topic snapshot)
    (hr : snapshot.joinRef = some r) (hst : s.presence.tracker.IsState snapshot newState)
    (hs : (machine topic).step s (.op (.receive snapshot)) = some s') : Synced topic r s' := by
  obtain ⟨_, _, hsame⟩ := message_received hrep.message
  have hevents : delivered topic s.protocol (.receive snapshot) =
      [.protocol (.message snapshot)] := by
    simp [delivered, Protocol.perform, Protocol.reporting, hrep.message, eventTopic, hrep.topic]
  cases hs
  rw [hevents]
  refine ⟨?_, ?_⟩
  · show (((s.protocol.receive snapshot).2.channels[topic]?).map Channel.joinRef) = some r
    rw [hsame]
    exact hg
  · obtain ⟨ht, hd'⟩ := consume_message s.presence snapshot
    obtain ⟨changes, state, happ, _, _⟩ := PresenceTracker.apply_state hl.tagged hst
    have hl' := listening_consume hl (.protocol (.message snapshot))
    show Following r (deliver s.presence _)
    rw [show deliver s.presence _ = (s.presence.consume (.protocol (.message snapshot))).2 by
      simp [deliver, hd]]
    refine ⟨hl', by rw [hd', hd], ?_, ?_⟩
    · rw [ht, happ]
      exact hr
    · rw [ht, happ]

/-- **When a diff takes effect.** A full state of the current generation was applied, and
since then the generation went on and every presence frame carried a join reference. A diff
that the protocol then reports as a message is applied at once exactly when it carries a
join reference too. -/
theorem applied_at_once_iff {s₀ s₁ s : Subscription} (h : (machine topic).Reachable s₀)
    {r : Reference} (hg : s₀.generation topic = some r)
    (hd : s₀.presence.desynchronized = false) {snapshot : Frame} {newState : PresenceState}
    (hrep : s₀.Reported topic snapshot) (hr : snapshot.joinRef = some r)
    (hst : s₀.presence.tracker.IsState snapshot newState)
    (hs₁ : (machine topic).step s₀ (.op (.receive snapshot)) = some s₁)
    (hpath : (machine topic).Path (Continues topic r) s₁ s) {frame : Frame} {diff : PresenceDiff}
    (hrep' : s.Reported topic frame) (hdiff : s.presence.tracker.IsDiff frame diff) :
    AppliedAtOnce s.presence.tracker frame diff ↔ frame.joinRef ≠ none := by
  have hsync : Synced topic r s := hpath.invariant (fun _ _ _ => synced_step)
    (synced_snapshot (listening_of_reachable h) hg hd hrep hr hst hs₁)
  have hf := hsync.following
  constructor
  · rintro ⟨happ, _⟩ hnone
    rw [PresenceTracker.apply_diff_queued hdiff (by simp [hf.joinRef, hnone])] at happ
    cases happ
  · intro hsome
    have hj : frame.joinRef = some r :=
      (joinRef_of_reported hsync.generation hrep').resolve_left hsome
    obtain ⟨state, happ, _, hc⟩ := PresenceTracker.apply_diff_now hf.tagged hdiff hf.joinRef hj
    exact ⟨by rw [happ], by rw [happ, hc], by rw [happ]; exact hf.pending⟩

/-! ### A broadcast

A diff without a join reference passes the protocol as if it were current, and is queued by the
tracker. -/

/-- A diff of `room` in which `ada` joins, with or without a join reference. -/
def adaJoins (joinRef : Option Reference) : Frame :=
  ⟨joinRef, none, "room", "presence_diff", .json (.object
    [("joins", .object [("ada", .object [("metas", .array [.object [("phx_ref", .string "a")]])])]),
      ("leaves", .object [])])⟩

def ada : PresenceDiff := ⟨(∅ : PresenceState).insert "ada" ⟨[[("phx_ref", .string "a")]], []⟩, ∅⟩

/-- `room` is joined under reference 1. -/
def joining : List Input :=
  [.op (.join "room" .null),
    .op (.receive ⟨some "1", some "1", "room", "phx_reply", .reply "ok" .emptyObject⟩)]

/-- The full state of that generation: nobody is there. -/
def nobody : Frame := ⟨some "1", none, "room", "presence_state", .emptyObject⟩

def joined : Subscription := ((machine "room").run (machine "room").start joining).get rfl

def followed : Subscription := ((machine "room").step joined (.op (.receive nobody))).get rfl

theorem reachable_joined : (machine "room").Reachable joined :=
  Machine.reachable_iff_run.mpr ⟨joining, rfl⟩

/-- With the join reference the diff is applied. -/
theorem applied_at_once_iff_ada :
    AppliedAtOnce followed.presence.tracker (adaJoins (some "1")) ada := by
  have hrep : joined.Reported "room" nobody := ⟨rfl, rfl⟩
  have hstate : joined.presence.tracker.IsState nobody ∅ := ⟨rfl, rfl⟩
  have hrep' : followed.Reported "room" (adaJoins (some "1")) := ⟨rfl, rfl⟩
  have hdiff : followed.presence.tracker.IsDiff (adaJoins (some "1")) ada := ⟨rfl, by decide, rfl⟩
  exact (applied_at_once_iff (r := "1") reachable_joined rfl rfl hrep rfl hstate rfl .refl hrep'
    hdiff).mpr (by decide)

/-- Broadcast by the server, the same diff is reported as a message and stays queued. -/
theorem broadcast_diff_queued :
    (machine "room").Reachable joined ∧ joined.Reported "room" nobody ∧
      (machine "room").step joined (.op (.receive nobody)) = some followed ∧
      followed.generation "room" = some "1" ∧ followed.presence.tracker.joinRef = some "1" ∧
      followed.Reported "room" (adaJoins none) ∧
      followed.presence.tracker.IsDiff (adaJoins none) ada ∧
      (followed.presence.tracker.apply (adaJoins none)).1 = .ok .pending ∧
      (followed.presence.tracker.apply (adaJoins none)).2.pendingDiffs = [ada] ∧
      ¬ AppliedAtOnce followed.presence.tracker (adaJoins none) ada := by
  refine ⟨reachable_joined, ⟨rfl, rfl⟩, rfl, rfl, rfl, ⟨rfl, rfl⟩, ⟨rfl, by decide, rfl⟩, rfl, rfl,
    ?_⟩
  rintro ⟨happ, _⟩
  cases happ

end Subscription
end PhoenixChannel.Client
