import PhoenixChannel.Client.Run
import PhoenixChannel.Runtime.Operations

/-! What the small handlers do, case by case.

Each comes down to writing one record, changing one table and emitting effects. Later proofs
use these equations and never unfold the handlers. -/
namespace PhoenixChannel.Client
open PhoenixChannel.Runtime Library

/-- What `stop_channel` leaves of a record. -/
def ChannelRecord.stopped (channel : ChannelRecord) : ChannelRecord :=
  { channel with
    desired := false, activePayload := none, rejoinScheduled := false, joinWaiters := []
    queued := [], deferredLeave := none }

/-- What a successful join leaves of a record. -/
def ChannelRecord.joined (channel : ChannelRecord) : ChannelRecord :=
  { channel with
    everJoined := true, joinAttempt := 0, rejoinScheduled := false, deferredLeave := none
    status := if channel.deferredLeave.isSome then .leaving else .joined
    joinWaiters := [] }

/-- The record once its load is over. -/
def ChannelRecord.loaded (channel : ChannelRecord) : ChannelRecord :=
  { channel with activePayload := none }

/-- The record of a wanted channel whose join was not answered. -/
def ChannelRecord.unanswered (channel : ChannelRecord) : ChannelRecord :=
  { channel with activePayload := none, status := .errored, joinWaiters := [] }

/-- What a refused join leaves of a record. -/
def ChannelRecord.refused (channel : ChannelRecord) : ChannelRecord :=
  { channel with
    deferredLeave := none, status := if channel.deferredLeave.isSome then .left else .errored
    joinWaiters := [] }

/-- What is left of a channel whose last waiter gave up. -/
def ChannelRecord.abandoned (channel : ChannelRecord) (id : RequestId) : ChannelRecord :=
  { channel with
    joinWaiters := channel.joinWaiters.erase id
    desired := false, activePayload := none, status := .left }

/-- A record without a rejoin timer. -/
def ChannelRecord.unscheduled (channel : ChannelRecord) : ChannelRecord :=
  { channel with rejoinScheduled := false }

/-- A record once an event of the socket was reported: its closing closes every channel. -/
def ChannelRecord.heard (event : SocketEvent) (channel : ChannelRecord) : ChannelRecord :=
  { channel with status := if Driver.socketStatusOf event = .closed then .closed else channel.status }

/-- The answer to the sender of a leave, if it is still there. -/
def leaveAnswers (pending : Option PendingLeave) (result : Except ClientError Success) :
    List Effect :=
  match pending with
  | some pending => if pending.response then [.answered .leave pending.id result] else []
  | none => []

/-- What the requests held by a stopped channel are told. -/
def stopEffects (topic : Topic) (clock : Duration) (channel : ChannelRecord) : List Effect :=
  leaveAnswers channel.deferredLeave (.error (.interrupted .leave)) ++
    channel.joinWaiters.map (fun id => .answered .join id (.error (.interrupted .join))) ++
    channel.queued.map (fun push =>
      .answered push.operation push.id (.error (.interrupted push.operation))) ++
    channel.queued.filterMap fun
      | .call _ event _ started =>
        some (.telemetry (.callCompleted topic event .interrupted (clock - started)))
      | .cast _ _ _ => none

/-- What is told of a push that is cancelled while it waits in the queue of a topic. -/
def QueuedPush.cancellation (topic : Topic) (clock : Duration) : QueuedPush → List Effect
  | .call id event _ started =>
    [.cancelled .call id, .telemetry (.callCompleted topic event .cancelled (clock - started))]
  | .cast id _ _ => [.cancelled .cast id]

theorem QueuedPush.mem_cancellation (push : QueuedPush) (topic : Topic) (clock : Duration) :
    .cancelled push.operation push.id ∈ push.cancellation topic clock := by
  cases push <;> exact List.mem_cons_self

theorem QueuedPush.forall_cancellation {P : Effect → Prop} (push : QueuedPush) {topic : Topic}
    {clock : Duration} (hc : P (.cancelled push.operation push.id))
    (ht : ∀ event duration, P (.telemetry (.callCompleted topic event .cancelled duration))) :
    ∀ effect ∈ push.cancellation topic clock, P effect := by
  cases push with
  | call id event payload started => exact List.forall_mem_cons.mpr ⟨hc, by simpa using ht event _⟩
  | cast id event payload => exact List.forall_mem_singleton.mpr hc

/-- The effect is a report to the event streams or to the hook. -/
def Effect.IsReport : Effect → Prop
  | .delivered _ _ | .deliveredSocket _ | .telemetry _ => True
  | _ => False

/-- Only a leave whose sender waits is answered. -/
theorem mem_leaveAnswers {pending : Option PendingLeave} {result : Except ClientError Success}
    {effect : Effect} (h : effect ∈ leaveAnswers pending result) :
    ∃ leave, pending = some leave ∧ leave.response = true ∧
      effect = .answered .leave leave.id result := by
  cases pending with
  | none => cases h
  | some leave =>
    cases hr : leave.response with
    | false => simp [leaveAnswers, hr] at h
    | true =>
      simp only [leaveAnswers, hr, if_true, List.mem_singleton] at h
      exact ⟨leave, rfl, hr, h⟩

/-- A stop tells requests that they were interrupted, and the hook about the calls. -/
theorem mem_stopEffects {topic : Topic} {clock : Duration} {channel : ChannelRecord}
    {effect : Effect} (h : effect ∈ stopEffects topic clock channel) :
    (∃ operation id, effect = .answered operation id (.error (.interrupted operation))) ∨
      ∃ event, effect = .telemetry event := by
  simp only [stopEffects, List.mem_append, List.mem_map, List.mem_filterMap] at h
  rcases h with ((h | ⟨id, -, rfl⟩) | ⟨push, -, rfl⟩) | ⟨push, -, h⟩
  · obtain ⟨leave, -, -, rfl⟩ := mem_leaveAnswers h
    exact .inl ⟨.leave, leave.id, rfl⟩
  · exact .inl ⟨.join, id, rfl⟩
  · exact .inl ⟨push.operation, push.id, rfl⟩
  · cases push with
    | call id event payload started => exact .inr ⟨_, (Option.some.inj h).symm⟩
    | cast id event payload => cases h

namespace Driver
variable {d : Driver} {topic : Topic} {channel : ChannelRecord}

@[simp] theorem emitAll_nil (d : Driver) : d.emitAll [] = d := by
  simp [emitAll]

theorem answerLeave_eq (d : Driver) (pending : Option PendingLeave)
    (result : Except ClientError Success) :
    d.answerLeave pending result = d.emitAll (leaveAnswers pending result) := by
  unfold answerLeave leaveAnswers
  cases pending with
  | none => simp
  | some pending => cases hr : pending.response <;> simp [hr]

theorem stopChannel_of_none (h : d.record topic = none) : d.stopChannel topic = d := by
  simp only [stopChannel, h]

theorem stopChannel_of_some (h : d.record topic = some channel) :
    d.stopChannel topic =
      (d.setRecord topic channel.stopped).emitAll (stopEffects topic d.clock channel) := by
  simp only [stopChannel, h, answerLeave_eq, answerAll_eq, emitAll_emitAll]
  rfl

/-- A stopped channel has nobody to tell. -/
theorem stopEffects_stopped (topic : Topic) (clock : Duration) (channel : ChannelRecord) :
    stopEffects topic clock channel.stopped = [] := rfl

theorem setRecord_setRecord (d : Driver) (topic : Topic) (channel channel' : ChannelRecord) :
    (d.setRecord topic channel).setRecord topic channel' = d.setRecord topic channel' := by
  have hi : (d.state.channels.insert topic channel).insert topic channel' =
      d.state.channels.insert topic channel' := by
    apply Std.ExtTreeMap.ext_getElem?
    intro t
    simp only [Table.lookup_insert]
    by_cases ht : t = topic <;> simp [ht]
  simp only [setRecord, hi]

/-- Writing a record back changes nothing. -/
theorem setRecord_self (h : d.record topic = some channel) : d.setRecord topic channel = d := by
  have hi : d.state.channels.insert topic channel = d.state.channels := by
    apply Std.ExtTreeMap.ext_getElem?
    intro t
    rw [Table.lookup_insert]
    by_cases ht : t = topic
    · rw [if_pos ht, ht]
      exact h.symm
    · rw [if_neg ht]
  simp only [setRecord, hi]

theorem setProtocol_self (d : Driver) : d.setProtocol d.state.protocol = d := rfl

theorem record_setRecord_eq (d : Driver) (topic t : Topic) (channel : ChannelRecord) :
    (d.setRecord topic channel).record t = if t = topic then some channel else d.record t := by
  rw [record, setRecord, Table.lookup_insert]
  rfl

theorem forgetJoins_lookup (d : Driver) (topic : Topic) (r : Reference) :
    (d.forgetJoins topic).state.pendingJoins[r]? =
      (d.state.pendingJoins[r]?).filter fun t => t != topic :=
  Std.ExtTreeMap.getElem?_filter'

theorem channelEffects_report (d : Driver) (topic : Topic) (event : ChannelEvent) :
    ∀ effect ∈ d.channelEffects topic event, effect.IsReport := by
  intro effect h
  unfold channelEffects at h
  rcases List.mem_cons.mp h with rfl | h
  · trivial
  · split at h
    · cases List.mem_singleton.mp h
      trivial
    · cases h

/-! ### Queues, loads and rejoin timers

A push is refused by a channel that was left, by a full queue, or queued. A load or a rejoin timer
starts only where none is outstanding. -/

section
variable (env : Env) (d : Driver) (topic : Topic)

/-- A push that is not sent is refused, or waits in the queue of its topic. -/
theorem queue_cases (push : QueuedPush) :
    (∃ error, (∀ channel, d.record topic = some channel →
        (channel.everJoined = true ∧ channel.desired = false) ∨
          env.options.pushBufferCapacity ≤ channel.queued.length) ∧
        d.queue env topic push = d.answer push.operation push.id (.error error)) ∨
      ∃ channel, d.record topic = some channel ∧ (channel.everJoined = true → channel.desired = true) ∧
        channel.queued.length < env.options.pushBufferCapacity ∧
        d.queue env topic push = d.setRecord topic { channel with queued := channel.queued ++ [push] } := by
  unfold queue
  cases hr : d.record topic with
  | none => exact .inl ⟨_, nofun, rfl⟩
  | some channel =>
    dsimp only
    by_cases hw : (channel.everJoined && !channel.desired) = true
    · rw [if_pos hw]
      refine .inl ⟨_, fun channel' hc => .inl ?_, rfl⟩
      cases hc
      simpa using hw
    rw [if_neg hw]
    by_cases hroom : channel.queued.length < env.options.pushBufferCapacity
    · rw [if_pos hroom]
      exact .inr ⟨channel, rfl, by simpa using hw, hroom, rfl⟩
    · rw [if_neg hroom]
      refine .inl ⟨_, fun channel' hc => .inr ?_, rfl⟩
      cases hc
      exact Nat.le_of_not_lt hroom

/-- The driver that waits for a payload it is about to load. -/
def trackLoad (channel : ChannelRecord) : Driver :=
  let payloadId := Protocol.advance d.state.nextPayloadId
  { d with
    state := { d.state with
      channels := d.state.channels.insert topic
        { channel with status := .waitingToJoin, activePayload := some payloadId }
      nextPayloadId := payloadId }
    connection := { d.connection with payloads := d.connection.payloads ++ [(topic, payloadId)] } }

theorem trackLoad_record (channel : ChannelRecord) (t : Topic) :
    (d.trackLoad topic channel).record t = if t = topic then
      some { channel with
        status := .waitingToJoin, activePayload := some (Protocol.advance d.state.nextPayloadId) }
      else d.record t :=
  record_setRecord_eq d topic t _

/-- A load is started for a wanted channel with nothing in progress. -/
theorem loadPayload_cases :
    ((∀ channel, d.record topic = some channel → channel.desired = true →
        channel.activePayload.isSome = true ∨
          (d.state.protocol.channelState topic).any ChannelState.active = true) ∧
        d.loadPayload topic = d) ∨
      ∃ channel, d.record topic = some channel ∧ channel.desired = true ∧ channel.activePayload = none ∧
        (d.state.protocol.channelState topic).any ChannelState.active = false ∧
        d.loadPayload topic = (d.trackLoad topic channel).emitAll
          [.loading topic (Protocol.advance d.state.nextPayloadId)
            ⟨channel.joinAttempt, channel.everJoined⟩ channel.joinWaiters] := by
  unfold loadPayload
  cases hr : d.record topic with
  | none => exact .inl ⟨nofun, rfl⟩
  | some channel =>
    dsimp only
    by_cases hd : (!channel.desired || channel.activePayload.isSome) = true
    · rw [if_pos hd]
      refine .inl ⟨fun channel' hc hdes => .inl ?_, rfl⟩
      cases hc
      simpa [hdes] using hd
    rw [if_neg hd]
    by_cases ha : (d.state.protocol.channelState topic).any ChannelState.active = true
    · rw [if_pos ha]
      exact .inl ⟨fun _ _ _ => .inr ha, rfl⟩
    · rw [if_neg ha]
      simp only [Bool.or_eq_true, Bool.not_eq_true', not_or, Bool.not_eq_false, Option.isSome_iff_ne_none,
        ne_eq, not_not] at hd
      exact .inr ⟨channel, rfl, hd.1, hd.2, Bool.eq_false_iff.mpr ha, rfl⟩

/-- The driver with a rejoin timer for a channel. -/
def trackRejoin (channel : ChannelRecord) : Driver :=
  let joinAttempt := nextAttempt channel.joinAttempt
  { d.setRecord topic { channel with rejoinScheduled := true, joinAttempt } with
    connection := { d.connection with
      rejoins := d.connection.rejoins ++ [⟨d.clock + env.options.rejoinDelay joinAttempt, topic⟩] } }

theorem trackRejoin_record (channel : ChannelRecord) (t : Topic) :
    (d.trackRejoin env topic channel).record t = if t = topic then
      some { channel with rejoinScheduled := true, joinAttempt := nextAttempt channel.joinAttempt }
      else d.record t :=
  record_setRecord_eq d topic t _

/-- A rejoin is scheduled for a wanted channel that has none scheduled. -/
theorem scheduleRejoin_cases :
    ((∀ channel, d.record topic = some channel → channel.desired = true →
        channel.rejoinScheduled = true) ∧ d.scheduleRejoin env topic = d) ∨
      ∃ channel, d.record topic = some channel ∧ channel.desired = true ∧
        channel.rejoinScheduled = false ∧
        d.scheduleRejoin env topic = d.trackRejoin env topic channel := by
  unfold scheduleRejoin
  cases hr : d.record topic with
  | none => exact .inl ⟨nofun, rfl⟩
  | some channel =>
    dsimp only
    by_cases hd : (!channel.desired || channel.rejoinScheduled) = true
    · rw [if_pos hd]
      refine .inl ⟨fun channel' hc hdes => ?_, rfl⟩
      cases hc
      simpa [hdes] using hd
    · rw [if_neg hd]
      simp only [Bool.or_eq_true, Bool.not_eq_true', not_or, Bool.not_eq_false, Bool.not_eq_true] at hd
      exact .inr ⟨channel, rfl, hd.1, hd.2, rfl⟩

end

/-! ### Sending

`sendFrame` touches the transport and the trace only. An error of either the codec or the transport
is the end of the connection. -/

section
variable (env : Env) (d : Driver) (served : List RequestId) (frame : Frame)

/-- A frame that is handed over changes the transport, and effects tell what became of it. -/
theorem sendFrame_driver : ∃ (effects : List Effect) (transport : Transport),
    (d.sendFrame env served frame).1 = { d.emitAll effects with transport } := by
  unfold sendFrame
  cases env.codec.encode frame with
  | error message => exact ⟨_, _, rfl⟩
  | ok message =>
    simp only [telemetry_eq, emit_eq, emitAll_emitAll, emitAll_transport]
    rcases d.transport.send with ⟨_ | _, transport⟩
    · exact ⟨_, transport, rfl⟩
    · exact ⟨_, transport, rfl⟩

@[simp] theorem sendFrame_state : (d.sendFrame env served frame).1.state = d.state := by
  obtain ⟨effects, transport, he⟩ := sendFrame_driver env d served frame
  rw [he]
  rfl

@[simp] theorem sendFrame_connection :
    (d.sendFrame env served frame).1.connection = d.connection := by
  obtain ⟨effects, transport, he⟩ := sendFrame_driver env d served frame
  rw [he]
  rfl

@[simp] theorem sendFrame_clock : (d.sendFrame env served frame).1.clock = d.clock := by
  obtain ⟨effects, transport, he⟩ := sendFrame_driver env d served frame
  rw [he]
  rfl

@[simp] theorem sendFrame_phase : (d.sendFrame env served frame).1.phase = d.phase := by
  obtain ⟨effects, transport, he⟩ := sendFrame_driver env d served frame
  rw [he]
  rfl

/-- A frame is sent once, and all that the hook may hear is that it was sent. -/
theorem sendFrame_reports :
    ∃ events : List TelemetryEvent,
      (∀ event ∈ events, ∃ binary bytes, event = .frameSent frame.topic frame.event binary bytes) ∧
        (d.sendFrame env served frame).1.trace = d.trace ++ .outgoing served frame :: events.map .telemetry := by
  unfold sendFrame
  cases env.codec.encode frame with
  | error message => exact ⟨[], List.forall_mem_nil _, rfl⟩
  | ok message =>
    let event : TelemetryEvent :=
      .frameSent frame.topic frame.event message.metadata.1 message.metadata.2
    have hevent : ∀ e ∈ [event], ∃ binary bytes, e = .frameSent frame.topic frame.event binary bytes := by
      intro e hm
      exact ⟨_, _, List.mem_singleton.mp hm⟩
    simp only [telemetry_eq, emit_eq, emitAll_transport]
    rcases d.transport.send with ⟨_ | _, _⟩
    · exact ⟨[event], hevent, by simp [event]⟩
    · exact ⟨[event], hevent, by simp [event]⟩

theorem sendFrame_trace :
    ∃ events : List TelemetryEvent,
      (d.sendFrame env served frame).1.trace =
        d.trace ++ .outgoing served frame :: events.map .telemetry := by
  obtain ⟨events, -, ht⟩ := sendFrame_reports env d served frame
  exact ⟨events, ht⟩

end

section
variable {env : Env} {d : Driver} {topic : Topic} {id : RequestId} {event : String}
  {payload : Payload} {started : Duration} {joinRef : Reference}

theorem sendCall_of_binary (hb : (payload.isBinary && !d.transport.supportsBinary) = true) :
    d.sendPush env topic (.call id event payload started) =
      (d.emitAll [.telemetry (.callCompleted topic event .rejected (d.clock - started)),
        .answered .call id (.error .binaryNotSupported)], none) := by
  simp [sendPush, hb]

theorem sendCall_of_not_joined (hb : ¬ (payload.isBinary && !d.transport.supportsBinary) = true)
    (hj : d.state.protocol.joinedRef topic = none) :
    d.sendPush env topic (.call id event payload started) =
      (d, some (.protocol (ProtocolError.notJoined topic).toString)) := by
  simp only [sendPush, hb, Protocol.push_of_not_joined hj, setProtocol_self]
  rfl

/-- The driver that waits for the reply to a call it is about to send. -/
def trackCall (d : Driver) (topic : Topic) (id : RequestId) (event : String) (payload : Payload)
    (started : Duration) : Driver :=
  let p := d.state.protocol
  { d with
    state := { d.state with
      protocol := (p.push topic event payload).2
      pendingCalls := d.state.pendingCalls.insert p.nextText ⟨id, topic, event, started⟩ } }

theorem sendCall_of_joined (hb : ¬ (payload.isBinary && !d.transport.supportsBinary) = true)
    (hj : d.state.protocol.joinedRef topic = some joinRef) :
    d.sendPush env topic (.call id event payload started) =
      (d.trackCall topic id event payload started).sendFrame env [id]
        ⟨some joinRef, some d.state.protocol.nextText, topic, event, payload⟩ := by
  simp only [sendPush, hb, trackCall, Protocol.push_of_joined hj]
  rfl

theorem sendCast_of_binary (hb : (payload.isBinary && !d.transport.supportsBinary) = true) :
    d.sendPush env topic (.cast id event payload) =
      (d.emitAll [.answered .cast id (.error .binaryNotSupported)], none) := by
  simp [sendPush, hb]

theorem sendCast_of_not_joined (hb : ¬ (payload.isBinary && !d.transport.supportsBinary) = true)
    (hj : d.state.protocol.joinedRef topic = none) :
    d.sendPush env topic (.cast id event payload) =
      (d, some (.protocol (ProtocolError.notJoined topic).toString)) := by
  simp only [sendPush, hb, Protocol.cast_of_not_joined hj]
  rfl

/-- What the sender of a cast is told once the frame was handed to the transport. -/
def castResult : Option DisconnectReason → Except ClientError Success
  | none => .ok .done
  | some _ => .error (.interrupted .cast)

theorem sendCast_of_joined (hb : ¬ (payload.isBinary && !d.transport.supportsBinary) = true)
    (hj : d.state.protocol.joinedRef topic = some joinRef) :
    ∃ r, r = d.sendFrame env [id] ⟨some joinRef, none, topic, event, payload⟩ ∧
      d.sendPush env topic (.cast id event payload) =
        (r.1.emitAll [.answered .cast id (castResult r.2)], r.2) := by
  refine ⟨_, rfl, ?_⟩
  simp only [sendPush, hb, Protocol.cast_of_joined hj]
  rcases d.sendFrame env [id] ⟨some joinRef, none, topic, event, payload⟩ with ⟨d', _ | reason⟩
  · rfl
  · rfl

end

/-- What becomes of a push: it is refused, ends the connection where its channel is not joined, or is
sent. -/
inductive PushHandled (env : Env) (d : Driver) (topic : Topic) (r : Result) : QueuedPush → Prop where
  | refusedCall (id : RequestId) (event : String) (payload : Payload) (started : Duration)
      (hb : (payload.isBinary && !d.transport.supportsBinary) = true)
      (he : r = (d.emitAll [.telemetry (.callCompleted topic event .rejected (d.clock - started)),
        .answered .call id (.error .binaryNotSupported)], none)) :
      PushHandled env d topic r (.call id event payload started)
  | refusedCast (id : RequestId) (event : String) (payload : Payload)
      (hb : (payload.isBinary && !d.transport.supportsBinary) = true)
      (he : r = (d.emitAll [.answered .cast id (.error .binaryNotSupported)], none)) :
      PushHandled env d topic r (.cast id event payload)
  | notJoined (push : QueuedPush) (hj : d.state.protocol.joinedRef topic = none)
      (he : r = (d, some (.protocol (ProtocolError.notJoined topic).toString))) :
      PushHandled env d topic r push
  | call (id : RequestId) (event : String) (payload : Payload) (started : Duration) (joinRef : Reference)
      (hb : ¬ (payload.isBinary && !d.transport.supportsBinary) = true)
      (hj : d.state.protocol.joinedRef topic = some joinRef)
      (he : r = (d.trackCall topic id event payload started).sendFrame env [id]
        ⟨some joinRef, some d.state.protocol.nextText, topic, event, payload⟩) :
      PushHandled env d topic r (.call id event payload started)
  | cast (id : RequestId) (event : String) (payload : Payload) (joinRef : Reference) (sent : Result)
      (hb : ¬ (payload.isBinary && !d.transport.supportsBinary) = true)
      (hj : d.state.protocol.joinedRef topic = some joinRef)
      (hs : sent = d.sendFrame env [id] ⟨some joinRef, none, topic, event, payload⟩)
      (he : r = (sent.1.emitAll [.answered .cast id (castResult sent.2)], sent.2)) :
      PushHandled env d topic r (.cast id event payload)

/-- The cases of `PushHandled` are all there are: binary payloads first, then the protocol, then the
frame. -/
theorem push_handled (env : Env) (d : Driver) (topic : Topic) (push : QueuedPush) :
    PushHandled env d topic (d.sendPush env topic push) push := by
  cases push with
  | call id event payload started =>
    by_cases hb : (payload.isBinary && !d.transport.supportsBinary) = true
    · exact .refusedCall id event payload started hb (sendCall_of_binary hb)
    cases hj : d.state.protocol.joinedRef topic with
    | none => exact .notJoined _ hj (sendCall_of_not_joined hb hj)
    | some joinRef => exact .call id event payload started joinRef hb hj (sendCall_of_joined hb hj)
  | cast id event payload =>
    by_cases hb : (payload.isBinary && !d.transport.supportsBinary) = true
    · exact .refusedCast id event payload hb (sendCast_of_binary hb)
    cases hj : d.state.protocol.joinedRef topic with
    | none => exact .notJoined _ hj (sendCast_of_not_joined hb hj)
    | some joinRef =>
      obtain ⟨sent, hs, he⟩ := sendCast_of_joined hb hj
      exact .cast id event payload joinRef sent hb hj hs he

section
variable {env : Env} {d : Driver} {topic : Topic} {channel : Channel} {pending : PendingLeave}

variable (env pending) in
theorem sendLeave_of_not_joined (hj : d.state.protocol.joinedRef topic = none) :
    ∃ e, d.sendLeave env topic pending =
      (d.setProtocol d.state.protocol.allocateReference.2, some (.protocol e)) := by
  unfold sendLeave
  rcases Protocol.leave_cases d.state.protocol topic with ⟨error, hl⟩ | ⟨channel, hc, hs⟩
  · rw [hl]
    exact ⟨_, rfl⟩
  · simp [Protocol.joinedRef, hc, hs] at hj

/-- The driver that waits for the reply to a leave it is about to send, for so long. -/
def trackLeave (d : Driver) (topic : Topic) (pending : PendingLeave) : Driver :=
  let p := d.state.protocol
  { d with
    state := { d.state with
      protocol := (p.leave topic).2
      pendingLeaves := d.state.pendingLeaves.insert p.nextText pending }
    connection := { d.connection with
      operationTimeouts := d.connection.operationTimeouts ++
        [⟨d.clock + pending.timeout, .leave topic p.nextText pending.timeout⟩] } }

theorem sendLeave_of_joined (hc : d.state.protocol.channels[topic]? = some channel)
    (hs : channel.state = .joined) :
    d.sendLeave env topic pending =
      (d.trackLeave topic pending).sendFrame env [pending.id]
        ⟨some channel.joinRef, some d.state.protocol.nextText, topic, "phx_leave", .emptyObject⟩ := by
  simp only [sendLeave, trackLeave, Protocol.leave_of_joined hc hs]
  rfl

end

section
variable {env : Env} {d : Driver} {topic : Topic}

theorem unregisterConnected_of_not_joined
    (h : d.state.protocol.channelState topic ≠ some .joined) :
    d.unregisterConnected env topic = (d.unregister topic, none) := by
  rw [unregisterConnected, if_neg h]

theorem unregisterConnected_of_joined {channel : Channel}
    (hc : d.state.protocol.channels[topic]? = some channel) (hs : channel.state = .joined) :
    d.unregisterConnected env topic =
      ((d.setProtocol (d.state.protocol.leave topic).2).unregister topic).sendFrame env []
        ⟨some channel.joinRef, some d.state.protocol.nextText, topic, "phx_leave", .emptyObject⟩ := by
  have hj : d.state.protocol.channelState topic = some .joined := by
    rw [Protocol.channelState, hc, Option.map_some, hs]
  rw [unregisterConnected, if_pos hj, Protocol.leave_of_joined hc hs]

/-- The driver that waits for the answer to a ping it is about to send. -/
def trackPing (d : Driver) (id : RequestId) : Driver :=
  { d with
    state := { d.state with
      protocol := d.state.protocol.heartbeat.2
      pendingPings := d.state.pendingPings.insert d.state.protocol.nextText ⟨id, d.clock⟩ } }

theorem handlePing_eq (env : Env) (d : Driver) (id : RequestId) :
    d.handlePing env id = (d.trackPing id).sendFrame env [id]
      ⟨none, some d.state.protocol.nextText, "phoenix", "heartbeat", .emptyObject⟩ := rfl

/-- The driver that waits for the answer to a heartbeat it is about to send. -/
def trackHeartbeat (d : Driver) : Driver :=
  { d with
    state := { d.state with protocol := d.state.protocol.heartbeat.2 }
    connection := { d.connection with heartbeatReference := some d.state.protocol.nextText } }

theorem handleHeartbeat_of_some (h : d.connection.heartbeatReference.isSome = true) :
    d.handleHeartbeat env = (d, some .heartbeatTimeout) := by
  rw [handleHeartbeat, if_pos h]

theorem handleHeartbeat_of_none (h : ¬ d.connection.heartbeatReference.isSome = true) :
    d.handleHeartbeat env =
      (d.trackHeartbeat.sendFrame env []
        ⟨none, some d.state.protocol.nextText, "phoenix", "heartbeat", .emptyObject⟩).andThen fun d =>
          ({ d with
            connection := { d.connection with
              heartbeatDue := d.clock + env.options.heartbeatTimeout } }, none) := by
  rw [handleHeartbeat, if_neg h]
  rfl

end

/-! ### The queue

What holds of one push sent from the queue, and composes, holds of a flush. -/

/-- A push is taken from the front. -/
theorem popQueued_eq_some {d d' : Driver} {topic : Topic} {push : QueuedPush}
    (h : d.popQueued topic = some (push, d')) :
    ∃ (channel : ChannelRecord) (queued : List QueuedPush), d.record topic = some channel ∧
      channel.queued = push :: queued ∧ d' = d.setRecord topic { channel with queued } := by
  unfold popQueued at h
  cases hr : d.record topic with
  | none =>
    rw [hr] at h
    cases h
  | some channel =>
    rw [hr] at h
    dsimp only at h
    cases hq : channel.queued with
    | nil =>
      rw [hq] at h
      cases h
    | cons push' queued =>
      rw [hq] at h
      cases h
      exact ⟨channel, queued, rfl, hq, rfl⟩

/-- What one push that is taken from the queue and sent does, a flush does. -/
theorem flush_induction {env : Env} {topic : Topic} {R : Driver → Driver → Prop} (hrefl : ∀ d, R d d)
    (htrans : ∀ d d' d'', R d d' → R d' d'' → R d d'')
    (hsend : ∀ (d : Driver) (channel : ChannelRecord) (push : QueuedPush) (queued : List QueuedPush),
      d.record topic = some channel → channel.queued = push :: queued →
        R d ((d.setRecord topic { channel with queued }).sendPush env topic push).1) (d : Driver) :
    R d (d.flush env topic).1 := by
  unfold flush
  generalize (d.record topic).elim 0 (fun channel => channel.queued.length) = fuel
  induction fuel generalizing d with
  | zero => exact hrefl d
  | succ fuel ih =>
    unfold flushLoop
    cases hq : d.popQueued topic with
    | none => exact hrefl d
    | some popped =>
      obtain ⟨push, d'⟩ := popped
      obtain ⟨channel, queued, hr, hpush, rfl⟩ := popQueued_eq_some hq
      have hone := hsend d channel push queued hr hpush
      dsimp only
      rcases hs : (d.setRecord topic { channel with queued }).sendPush env topic push with ⟨d'', _ | reason⟩
      · rw [hs] at hone
        exact htrans _ _ _ hone (ih d'')
      · rw [hs] at hone
        exact hone

/-! ### Incoming frames

A frame is reported before it is handled. -/

/-- What is done about a frame that arrived, after it was reported. -/
theorem handleIncoming_of_decoded {env : Env} {d : Driver} {message : WireMessage} {frame : Frame}
    (hd : env.codec.decode message = .ok frame) :
    ∃ event, d.handleIncoming env message = (d.emitAll [.telemetry event]).handleFrame env frame := by
  simp only [handleIncoming, hd]
  exact ⟨_, rfl⟩

/-! ### Joins

A join that succeeds answers its waiters, and then sends the leave that was deferred or the pushes
that were queued. -/

section
variable {env : Env} {d : Driver} {topic : Topic} {reference : Reference} {response : Payload}
  {channel : ChannelRecord}

theorem onJoined_of_none (h : d.record topic = none) :
    d.onJoined env topic reference response =
      ((d.eraseJoin reference).emitChannel topic
        (.protocol (.joined topic reference response))).flush env topic := by
  have hrec : (d.eraseJoin reference).record topic = none := h
  simp only [onJoined, hrec]

/-- The driver that has answered the waiters of a join and reported it. -/
def welcome (d : Driver) (topic : Topic) (reference : Reference) (response : Payload)
    (channel : ChannelRecord) : Driver :=
  (((d.eraseJoin reference).setRecord topic channel.joined).emitAll
    (channel.joinWaiters.map fun id => .answered .join id (.ok (.payload response)))).emitChannel
      topic (.protocol (.joined topic reference response))

theorem onJoined_of_deferred {pending : PendingLeave} (h : d.record topic = some channel)
    (hp : channel.deferredLeave = some pending) :
    d.onJoined env topic reference response =
      (d.welcome topic reference response channel).sendLeave env topic pending := by
  have hrec : (d.eraseJoin reference).record topic = some channel := h
  simp only [onJoined, hrec, hp, welcome, ChannelRecord.joined]
  rfl

theorem onJoined_of_not_deferred (h : d.record topic = some channel)
    (hp : channel.deferredLeave = none) :
    d.onJoined env topic reference response =
      (d.welcome topic reference response channel).flush env topic := by
  have hrec : (d.eraseJoin reference).record topic = some channel := h
  simp only [onJoined, hrec, hp, welcome, ChannelRecord.joined]
  rfl

end

/-! ### Other replies

An event whose record is gone does less: what waits for the reply is still answered. -/

section
variable {env : Env} {d : Driver} {topic : Topic} {reference : Reference} {response : Payload}
  {channel : ChannelRecord}

/-- What the requests waiting for a refused join are told. -/
def refusals (topic : Topic) (response : Payload) (channel : ChannelRecord) : List Effect :=
  leaveAnswers channel.deferredLeave (.ok (.payload .emptyObject)) ++
    channel.joinWaiters.map fun id => .answered .join id (.error (.joinRejected topic response))

theorem onJoinError_of_none (h : d.record topic = none) :
    d.onJoinError env topic reference response =
      (d.eraseJoin reference).emitChannel topic (.protocol (.joinError topic reference response)) := by
  have hrec : (d.eraseJoin reference).record topic = none := h
  simp only [onJoinError, hrec]

theorem onJoinError_of_some (h : d.record topic = some channel) :
    d.onJoinError env topic reference response =
      ((((d.eraseJoin reference).setRecord topic channel.refused).emitAll
        (refusals topic response channel)).emitChannel topic
          (.protocol (.joinError topic reference response))).scheduleRejoin env topic := by
  have hrec : (d.eraseJoin reference).record topic = some channel := h
  simp only [onJoinError, hrec, answerLeave_eq, answerAll_eq, emitAll_emitAll, refusals,
    ChannelRecord.refused]

/-- The driver that has answered the sender of a leave. -/
def leaveSettled (d : Driver) (reference : Reference) (response : Payload) : Driver :=
  (d.eraseLeave reference).emitAll
    (leaveAnswers d.state.pendingLeaves[reference]? (.ok (.payload response)))

theorem onLeft_of_none (h : d.record topic = none) :
    d.onLeft topic reference response =
      (d.leaveSettled reference response).emitChannel topic
        (.protocol (.left topic reference response)) := by
  have hrec : (d.leaveSettled reference response).record topic = none := h
  simp only [onLeft, answerLeave_eq]
  simp only [leaveSettled] at hrec ⊢
  simp only [hrec]

theorem onLeft_of_some (h : d.record topic = some channel) :
    d.onLeft topic reference response =
      if channel.desired then
        (((d.leaveSettled reference response).setRecord topic
          { channel with status := .waitingToJoin }).emitChannel topic
            (.protocol (.left topic reference response))).loadPayload topic
      else
        ((d.leaveSettled reference response).setRecord topic { channel with status := .left }).emitChannel
          topic (.protocol (.left topic reference response)) := by
  have hrec : (d.leaveSettled reference response).record topic = some channel := h
  have hset := fun status => setStatus_of_some hrec status
  simp only [onLeft, answerLeave_eq]
  simp only [leaveSettled] at hrec hset ⊢
  simp only [hrec, hset]

theorem onReply_of_none {event : String} {status : ReplyStatus}
    (h : d.state.pendingCalls[reference]? = none) :
    d.onReply topic event reference status response =
      d.emitChannel topic (.protocol (.reply topic event reference status response)) := by
  simp only [onReply, h]

/-- The driver that has answered the sender of a call. -/
def callSettled (d : Driver) (reference : Reference) (call : PendingCall) (status : ReplyStatus)
    (response : Payload) : Driver :=
  { d with state := { d.state with pendingCalls := d.state.pendingCalls.erase reference } }.emitAll
    [.telemetry (.callCompleted call.topic call.event (.reply status) (d.clock - call.started)),
      .answered .call call.id (.ok (.reply status response))]

theorem onReply_of_some {event : String} {status : ReplyStatus} {call : PendingCall}
    (h : d.state.pendingCalls[reference]? = some call) :
    d.onReply topic event reference status response =
      (d.callSettled reference call status response).emitChannel topic
        (.protocol (.reply topic event reference status response)) := by
  simp only [onReply, h, emitCallCompleted_eq, answer_eq, emitAll_emitAll, callSettled]
  rfl

theorem onChannelClosed_of_none (h : d.record topic = none) (payload : Payload) :
    d.onChannelClosed topic payload =
      (d.forgetJoins topic).emitChannel topic (.protocol (.channelClosed topic payload)) := by
  have hrec : (d.forgetJoins topic).record topic = none := h
  simp only [onChannelClosed, hrec]
  rw [stopChannel_of_none]
  rw [emitChannel_eq]
  exact hrec

end

/-! ### Payload results

A result that is not awaited, or not wanted any more, is dropped. One that failed is told to the
waiters. -/

section
variable {env : Env} {d : Driver} {topic : Topic} {payloadId : UInt64} {channel : ChannelRecord}

theorem handlePayload_of_none (h : d.record topic = none) (payload : Except String Value) :
    d.handlePayload env topic payloadId payload = (d, none) := by
  simp only [handlePayload, h]

/-- The result of a load that the channel does not wait for any more. -/
theorem handlePayload_of_other (h : d.record topic = some channel)
    (ha : channel.activePayload ≠ some payloadId) (payload : Except String Value) :
    d.handlePayload env topic payloadId payload = (d, none) := by
  simp only [handlePayload, h, ne_eq, ha, not_false_eq_true, if_true]

/-- What is done about the result of the load that the channel waits for. -/
theorem handlePayload_of_awaited (h : d.record topic = some channel)
    (ha : channel.activePayload = some payloadId) (payload : Except String Value) :
    d.handlePayload env topic payloadId payload =
      (let d := d.setRecord topic channel.loaded
      if !channel.desired then (d, none)
      else
        match payload with
        | .error message =>
          let d := d.setRecord topic { channel.loaded with
            desired := false, status := .errored, joinWaiters := [] }
          let d := d.answerAll .join channel.joinWaiters (.error (.joinPayload topic message))
          (d.emitChannel topic (.joinPayloadError message), none)
        | .ok payload =>
          match d.startJoin topic payload with
          | none => (d, none)
          | some (.error e, protocol) => (d.setProtocol protocol, some (.protocol e.toString))
          | some (.ok outbound, protocol) =>
            d.sendJoin env topic channel.loaded protocol outbound) := by
  simp only [handlePayload, h, ha, ne_eq, not_true_eq_false, if_false]
  rfl

theorem handlePayload_of_undesired (h : d.record topic = some channel)
    (ha : channel.activePayload = some payloadId) (hd : channel.desired = false)
    (payload : Except String Value) :
    d.handlePayload env topic payloadId payload = (d.setRecord topic channel.loaded, none) := by
  rw [handlePayload_of_awaited h ha, hd]
  rfl

/-- A load that failed ends the wish for the channel, and with it the joins that waited. -/
theorem handlePayload_of_error (h : d.record topic = some channel)
    (ha : channel.activePayload = some payloadId) (hd : channel.desired = true) (message : String) :
    d.handlePayload env topic payloadId (.error message) =
      (((d.setRecord topic { channel.loaded with
          desired := false, status := .errored, joinWaiters := [] }).emitAll
        (channel.joinWaiters.map fun id =>
          .answered .join id (.error (.joinPayload topic message)))).emitChannel topic
            (.joinPayloadError message), none) := by
  rw [handlePayload_of_awaited h ha, hd]
  simp only [Bool.not_true, Bool.false_eq_true, if_false, setRecord_setRecord, answerAll_eq]

theorem startJoin_of_active (h : (d.state.protocol.channelState topic).any ChannelState.active = true)
    (payload : Value) : d.startJoin topic payload = none := by
  unfold startJoin
  cases hs : d.state.protocol.channelState topic with
  | none => simp [hs] at h
  | some state => cases state <;> simp_all [ChannelState.active]

/-- The payload of a channel that is active comes too late. -/
theorem handlePayload_of_active (h : d.record topic = some channel)
    (ha : channel.activePayload = some payloadId) (hd : channel.desired = true)
    (hs : (d.state.protocol.channelState topic).any ChannelState.active = true) (payload : Value) :
    d.handlePayload env topic payloadId (.ok payload) =
      (d.setRecord topic channel.loaded, none) := by
  have hstart := startJoin_of_active (d := d.setRecord topic channel.loaded) hs payload
  rw [handlePayload_of_awaited h ha, hd]
  simp only [Bool.not_true, Bool.false_eq_true, if_false, hstart]

/-- The driver that waits for the reply to a join it is about to send. -/
def trackJoin (d : Driver) (topic : Topic) (params : Value) (channel : ChannelRecord) : Driver :=
  let p := d.state.protocol
  { d with
    state := { d.state with
      protocol := (p.join topic params).2
      channels := d.state.channels.insert topic { channel with status := .joining }
      pendingJoins := d.state.pendingJoins.insert p.nextText topic }
    connection := { d.connection with
      operationTimeouts := d.connection.operationTimeouts ++
        [⟨d.clock + channel.joinTimeout, .join topic p.nextText channel.joinTimeout⟩] } }

/-- An inactive channel is joined anew, with what the protocol had of it discarded. -/
theorem startJoin_of_inactive
    (h : ¬ (d.state.protocol.channelState topic).any ChannelState.active = true) (payload : Value) :
    ∃ d₁, (d₁ = d ∨ d.state.protocol.channelState topic ≠ none ∧ d₁ = d.discardChannel topic) ∧
      d₁.state.protocol.channelState topic = none ∧
      d.startJoin topic payload = some (d₁.state.protocol.join topic payload) := by
  have hdiscard : (d.discardChannel topic).state.protocol.channelState topic = none := by
    show ((d.state.protocol.channels.erase topic)[topic]?).map Channel.state = none
    rw [Table.lookup_erase, if_pos rfl]
    rfl
  unfold startJoin
  cases hs : d.state.protocol.channelState topic with
  | none => exact ⟨d, .inl rfl, hs, rfl⟩
  | some state =>
    have hna : ¬ state.active := by simpa [hs] using h
    have hrejoin := @Protocol.rejoin_of_inactive d.state.protocol topic payload state hs hna
    refine ⟨d.discardChannel topic, .inr ⟨nofun, rfl⟩, hdiscard, ?_⟩
    cases state <;> first
      | exact congrArg some hrejoin
      | exact absurd rfl hna

variable (env) in
/-- A load whose channel is idle joins it anew; a channel left over from before is discarded first. -/
theorem handlePayload_of_inactive (h : d.record topic = some channel)
    (ha : channel.activePayload = some payloadId) (hd : channel.desired = true)
    (hs : ¬ (d.state.protocol.channelState topic).any ChannelState.active = true) (payload : Value) :
    ∃ d₁, (d₁ = d ∨ d.state.protocol.channelState topic ≠ none ∧ d₁ = d.discardChannel topic) ∧
      d₁.state.protocol.channelState topic = none ∧
      d.handlePayload env topic payloadId (.ok payload) =
        (d₁.trackJoin topic payload channel.loaded).sendFrame env channel.joinWaiters
          ⟨some d.state.protocol.nextText, some d.state.protocol.nextText, topic, "phx_join",
            .json payload⟩ := by
  obtain ⟨d₁, hd₁, hs₁, hstart⟩ := startJoin_of_inactive hs payload
  have hstart : (d.setRecord topic channel.loaded).startJoin topic payload =
      some (d₁.state.protocol.join topic payload) := hstart
  refine ⟨d₁, hd₁, hs₁, ?_⟩
  have hrec : (d.state.channels.insert topic channel.loaded).insert topic
      { channel.loaded with status := .joining } =
      d.state.channels.insert topic { channel.loaded with status := .joining } :=
    congrArg (fun d : Driver => d.state.channels) (setRecord_setRecord d topic channel.loaded _)
  rw [handlePayload_of_awaited h ha, hd]
  simp only [Bool.not_true, Bool.false_eq_true, if_false, hstart, Protocol.join_of_unknown hs₁,
    sendJoin, trackJoin]
  rcases hd₁ with rfl | ⟨-, rfl⟩
  · simp only [setRecord, setProtocol, scheduleOperationTimeout, hrec]
    rfl
  · simp only [setRecord, setProtocol, scheduleOperationTimeout, hrec]
    rfl

/-- What is done about the result of a load: nothing, if the channel does not wait for it; it
comes too late, if the channel is not wanted or already active; or the load has failed, or the
channel is joined. -/
inductive PayloadHandled (env : Env) (d : Driver) (topic : Topic) (payloadId : UInt64)
    (payload : Except String Value) (r : Result) : Prop where
  | ignored (h : ∀ channel, d.record topic = some channel → channel.activePayload ≠ some payloadId)
      (he : r = (d, none))
  | late (channel : ChannelRecord) (hr : d.record topic = some channel)
      (ha : channel.activePayload = some payloadId)
      (h : channel.desired = false ∨
        (d.state.protocol.channelState topic).any ChannelState.active = true)
      (he : r = (d.setRecord topic channel.loaded, none))
  | failed (message : String) (channel : ChannelRecord) (hp : payload = .error message)
      (hr : d.record topic = some channel) (ha : channel.activePayload = some payloadId)
      (he : r = (((d.setRecord topic { channel.loaded with
          desired := false, status := .errored, joinWaiters := [] }).emitAll
        (channel.joinWaiters.map fun id =>
          .answered .join id (.error (.joinPayload topic message)))).emitChannel topic
            (.joinPayloadError message), none))
  | joined (value : Value) (channel : ChannelRecord) (d₁ : Driver) (hp : payload = .ok value)
      (hr : d.record topic = some channel) (ha : channel.activePayload = some payloadId)
      (hd : channel.desired = true)
      (hs : ¬ (d.state.protocol.channelState topic).any ChannelState.active = true)
      (hd₁ : d₁ = d ∨ d.state.protocol.channelState topic ≠ none ∧ d₁ = d.discardChannel topic)
      (hs₁ : d₁.state.protocol.channelState topic = none)
      (he : r = (d₁.trackJoin topic value channel.loaded).sendFrame env channel.joinWaiters
        ⟨some d.state.protocol.nextText, some d.state.protocol.nextText, topic, "phx_join",
          .json value⟩)

/-- The cases of `PayloadHandled` in the order in which the source asks for them. -/
theorem payload_handled (env : Env) (d : Driver) (topic : Topic) (payloadId : UInt64)
    (payload : Except String Value) :
    PayloadHandled env d topic payloadId payload (d.handlePayload env topic payloadId payload) := by
  cases hr : d.record topic with
  | none => exact .ignored (fun channel h => by cases hr.symm.trans h) (handlePayload_of_none hr payload)
  | some channel =>
    by_cases ha : channel.activePayload = some payloadId
    swap
    · refine .ignored (fun channel' h => ?_) (handlePayload_of_other hr ha payload)
      cases hr.symm.trans h
      exact ha
    cases hd : channel.desired with
    | false => exact .late channel hr ha (.inl hd) (handlePayload_of_undesired hr ha hd payload)
    | true =>
      cases payload with
      | error message => exact .failed message channel rfl hr ha (handlePayload_of_error hr ha hd message)
      | ok value =>
        by_cases hs : (d.state.protocol.channelState topic).any ChannelState.active = true
        · exact .late channel hr ha (.inr hs) (handlePayload_of_active hr ha hd hs value)
        · obtain ⟨d₁, hd₁, hs₁, he⟩ := handlePayload_of_inactive env hr ha hd hs value
          exact .joined value channel d₁ rfl hr ha hd hs hd₁ hs₁ he

end

/-! ### Leaves

A leave is sent, deferred until the join is answered, or answered at once. -/

/-- What a leave does once the channel is stopped: it is sent, waits for the join in flight, or has
nothing to do. -/
inductive LeaveHandled (env : Env) (d : Driver) (id : RequestId) (topic : Topic) (timeout : Duration)
    (r : Result) : Prop where
  | sent (channel : Channel) (hc : d.state.protocol.channels[topic]? = some channel)
      (hs : channel.state = .joined)
      (he : r = ((d.setStatus topic .leaving).stopChannel topic).sendLeave env topic ⟨id, timeout, true⟩)
  | deferred (channel : ChannelRecord) (hs : d.state.protocol.channelState topic = some .joining)
      (hr : ((d.setStatus topic .leaving).stopChannel topic).record topic = some channel)
      (he : r = (((d.setStatus topic .leaving).stopChannel topic).setRecord topic
        { channel with deferredLeave := some ⟨id, timeout, true⟩ }, none))
  | idle (hs : d.state.protocol.channelState topic ≠ some .joined)
      (hj : d.state.protocol.channelState topic = some .joining → d.record topic = none)
      (he : r = (((d.setStatus topic .left).stopChannel topic).answer .leave id
        (.ok (.payload .emptyObject)), none))

/-- The cases of `LeaveHandled`, by the state of the protocol's channel. -/
theorem leave_handled (env : Env) (d : Driver) (id : RequestId) (topic : Topic) (timeout : Duration) :
    LeaveHandled env d id topic timeout (d.handleLeave env id topic timeout) := by
  unfold handleLeave
  dsimp only
  by_cases hs : d.state.protocol.channelState topic = some .joined
  · rw [if_pos hs, if_pos (.inl hs)]
    obtain ⟨channel, hc, hstate⟩ := Option.map_eq_some_iff.mp hs
    exact .sent channel hc hstate rfl
  rw [if_neg hs]
  by_cases hj : d.state.protocol.channelState topic = some .joining
  · rw [if_pos hj, if_pos (.inr hj)]
    cases hr : d.record topic with
    | none =>
      refine .idle hs (fun _ => hr) ?_
      simp only [setStatus_of_none hr, stopChannel_of_none hr, hr]
    | some channel =>
      have hstopped : ((d.setStatus topic .leaving).stopChannel topic).record topic =
          some { channel.stopped with status := .leaving } := by
        rw [setStatus_of_some hr, stopChannel_of_some (record_setRecord ..), emitAll_record, record_setRecord]
        rfl
      rw [hstopped]
      exact .deferred _ hj hstopped rfl
  · rw [if_neg hj, if_neg fun h => h.elim hs hj]
    exact .idle hs (fun h => absurd h hj) rfl

/-! ### Deadlines

A request that is gone has been answered. Otherwise the protocol's channel is discarded and the
record says what comes next. -/

section
variable {env : Env} {d : Driver} {topic : Topic} {channel : ChannelRecord}

theorem joinTimedOut_of_none (h : d.record topic = none) (duration : Duration) :
    d.joinTimedOut env topic duration = d.discardChannel topic := by
  have hrec : (d.discardChannel topic).record topic = none := h
  simp only [joinTimedOut, hrec]

theorem joinTimedOut_of_deferred {pending : PendingLeave} (h : d.record topic = some channel)
    (hp : channel.deferredLeave = some pending) (duration : Duration) :
    d.joinTimedOut env topic duration =
      ((d.discardChannel topic).setRecord topic
        { channel.loaded with deferredLeave := none, status := .left }).answerLeave (some pending)
          (.error (.timeout .leave pending.timeout)) := by
  have hrec : (d.discardChannel topic).record topic = some channel := h
  simp only [joinTimedOut, hrec, hp]
  rfl

theorem joinTimedOut_of_wanted (h : d.record topic = some channel)
    (hp : channel.deferredLeave = none) (hd : channel.desired = true) (duration : Duration) :
    d.joinTimedOut env topic duration =
      (((d.discardChannel topic).setRecord topic channel.unanswered).emitAll
        (channel.joinWaiters.map fun id =>
          .answered .join id (.error (.timeout .join duration)))).scheduleRejoin env topic := by
  have hrec : (d.discardChannel topic).record topic = some channel := h
  simp only [joinTimedOut, hrec, hp, hd, if_true, answerAll_eq, ChannelRecord.unanswered]

theorem joinTimedOut_of_unwanted (h : d.record topic = some channel)
    (hp : channel.deferredLeave = none) (hd : channel.desired = false) (duration : Duration) :
    d.joinTimedOut env topic duration =
      (d.discardChannel topic).setRecord topic { channel.loaded with status := .left } := by
  have hrec : (d.discardChannel topic).record topic = some channel := h
  simp only [joinTimedOut, hrec, hp, hd, Bool.false_eq_true, if_false, ChannelRecord.loaded]

variable {pending : PendingLeave}

theorem leaveTimedOut_of_none (h : d.record topic = none) (duration : Duration) :
    d.leaveTimedOut topic pending duration =
      (d.answerLeave (some pending) (.error (.timeout .leave duration))).discardChannel topic := by
  simp only [leaveTimedOut, answerLeave_eq]
  have hrec : ((d.emitAll (leaveAnswers (some pending)
      (.error (.timeout .leave duration)))).discardChannel topic).record topic = none := h
  simp only [hrec]

theorem leaveTimedOut_of_some (h : d.record topic = some channel) (duration : Duration) :
    d.leaveTimedOut topic pending duration =
      (let d := (d.answerLeave (some pending) (.error (.timeout .leave duration))).discardChannel topic
      if channel.desired then (d.setStatus topic .waitingToJoin).loadPayload topic
      else d.setStatus topic .left) := by
  simp only [leaveTimedOut, answerLeave_eq]
  have hrec : ((d.emitAll (leaveAnswers (some pending)
      (.error (.timeout .leave duration)))).discardChannel topic).record topic = some channel := h
  simp only [hrec]

end

/-! ### Cancellation

The three tables are searched by request id, and each finds at most one entry to drop. -/

section
variable {d : Driver} {topic : Topic} {channel : ChannelRecord} {id : RequestId}
  {reference : Reference}

theorem cancelJoin_of_others (h : ¬ (channel.joinWaiters.erase id = [] ∧ channel.everJoined = false)) :
    d.cancelJoin topic channel id =
      (d.setRecord topic { channel with joinWaiters := channel.joinWaiters.erase id }).emitAll
        [.cancelled .join id] := by
  have hc : ¬ ((channel.joinWaiters.erase id).isEmpty && !channel.everJoined) = true := by
    simpa using h
  simp only [cancelJoin, if_neg hc, emit_eq]

/-- The last waiter of a channel that never joined takes back the wish, the join and the channel. -/
theorem cancelJoin_of_last (he : channel.joinWaiters.erase id = [])
    (hj : channel.everJoined = false) :
    d.cancelJoin topic channel id =
      (((d.setRecord topic (channel.abandoned id)).emitAll [.cancelled .join id]).forgetJoins
        topic).discardChannel topic := by
  have hset := setRecord_setRecord d topic
    { channel with joinWaiters := channel.joinWaiters.erase id } (channel.abandoned id)
  have hc : ((channel.joinWaiters.erase id).isEmpty && !channel.everJoined) = true := by
    simp [he, hj]
  simp only [cancelJoin, if_pos hc, emit_eq]
  rw [← hset]
  rfl

theorem cancelCall_of_none (h : d.state.pendingCalls.toList.find? (fun entry => entry.2.id == id) = none) :
    d.cancelCall id = d := by
  simp only [cancelCall, h]

theorem cancelCall_of_some {call : PendingCall}
    (h : d.state.pendingCalls.toList.find? (fun entry => entry.2.id == id) = some (reference, call)) :
    d.cancelCall id =
      ({ d with state := { d.state with pendingCalls := d.state.pendingCalls.erase reference } }.emitAll
        [.cancelled .call id,
          .telemetry (.callCompleted call.topic call.event .cancelled (d.clock - call.started))]).setProtocol
            (d.state.protocol.forgetPush reference).2 := by
  simp only [cancelCall, h, emit_eq, emitCallCompleted_eq, emitAll_emitAll]
  rfl

theorem cancelPing_of_none (h : d.state.pendingPings.toList.find? (fun entry => entry.2.id == id) = none) :
    d.cancelPing id = d := by
  simp only [cancelPing, h]

theorem cancelPing_of_some {ping : PendingPing}
    (h : d.state.pendingPings.toList.find? (fun entry => entry.2.id == id) = some (reference, ping)) :
    d.cancelPing id =
      ({ d with state := { d.state with pendingPings := d.state.pendingPings.erase reference } }.emitAll
        [.cancelled .ping id]).setProtocol (d.state.protocol.forgetHeartbeat reference).2 := by
  simp only [cancelPing, h, emit_eq]
  rfl

theorem cancelLeave_of_none
    (h : d.state.pendingLeaves.toList.find? (fun entry => entry.2.id == id) = none) :
    d.cancelLeave id = d := by
  simp only [cancelLeave, h]

/-- A leave that was sent stays in the table without its response. -/
theorem cancelLeave_of_some {leave : PendingLeave}
    (h : d.state.pendingLeaves.toList.find? (fun entry => entry.2.id == id) = some (reference, leave)) :
    d.cancelLeave id =
      { d with
        state := { d.state with
          pendingLeaves :=
            d.state.pendingLeaves.insert reference { leave with response := false } } }.emitAll
        (if leave.response then [.cancelled .leave id] else []) := by
  simp only [cancelLeave, h, emit_eq]
  split
  · rfl
  · rw [emitAll_nil]

/-- A cancellation finds no call, or ends the one it finds and forgets its request. -/
theorem cancelCall_cases (d : Driver) (id : RequestId) :
    d.cancelCall id = d ∨ ∃ (reference : Reference) (call : PendingCall),
      d.state.pendingCalls[reference]? = some call ∧ call.id = id ∧
        d.cancelCall id =
          ({ d with state := { d.state with pendingCalls := d.state.pendingCalls.erase reference } }.emitAll
            [.cancelled .call id,
              .telemetry (.callCompleted call.topic call.event .cancelled (d.clock - call.started))]).setProtocol
                (d.state.protocol.forgetPush reference).2 := by
  cases hf : d.state.pendingCalls.toList.find? fun entry => entry.2.id == id with
  | none => exact .inl (cancelCall_of_none hf)
  | some entry =>
    obtain ⟨reference, call⟩ := entry
    obtain ⟨hc, hid⟩ := Table.lookup_of_find hf
    exact .inr ⟨reference, call, hc, eq_of_beq hid, cancelCall_of_some hf⟩

/-- A cancellation finds no ping, or drops the one it finds and forgets its heartbeat. -/
theorem cancelPing_cases (d : Driver) (id : RequestId) :
    d.cancelPing id = d ∨ ∃ (reference : Reference) (ping : PendingPing),
      d.state.pendingPings[reference]? = some ping ∧ ping.id = id ∧
        d.cancelPing id =
          ({ d with state := { d.state with pendingPings := d.state.pendingPings.erase reference } }.emitAll
            [.cancelled .ping id]).setProtocol (d.state.protocol.forgetHeartbeat reference).2 := by
  cases hf : d.state.pendingPings.toList.find? fun entry => entry.2.id == id with
  | none => exact .inl (cancelPing_of_none hf)
  | some entry =>
    obtain ⟨reference, ping⟩ := entry
    obtain ⟨hp, hid⟩ := Table.lookup_of_find hf
    exact .inr ⟨reference, ping, hp, eq_of_beq hid, cancelPing_of_some hf⟩

/-- A cancellation finds no leave, or keeps the one it finds without its response. -/
theorem cancelLeave_cases (d : Driver) (id : RequestId) :
    d.cancelLeave id = d ∨ ∃ (reference : Reference) (leave : PendingLeave),
      d.state.pendingLeaves[reference]? = some leave ∧ leave.id = id ∧
        d.cancelLeave id =
          { d with
            state := { d.state with
              pendingLeaves :=
                d.state.pendingLeaves.insert reference { leave with response := false } } }.emitAll
            (if leave.response then [.cancelled .leave id] else []) := by
  cases hf : d.state.pendingLeaves.toList.find? fun entry => entry.2.id == id with
  | none => exact .inl (cancelLeave_of_none hf)
  | some entry =>
    obtain ⟨reference, leave⟩ := entry
    obtain ⟨hl, hid⟩ := Table.lookup_of_find hf
    exact .inr ⟨reference, leave, hl, eq_of_beq hid, cancelLeave_of_some hf⟩

/-- What a cancellation does with what one channel holds back. -/
inductive UnsentCancelled (d : Driver) (topic : Topic) (channel : ChannelRecord) (id : RequestId)
    (d' : Driver) : Prop where
  | leave (pending : PendingLeave) (hd : channel.deferredLeave = some pending) (hid : pending.id = id)
      (he : d' = (d.setRecord topic { channel with
          deferredLeave := some { pending with response := false } }).emitAll
        (if pending.response then [.cancelled .leave id] else []))
  | push (push : QueuedPush) (hf : channel.queued.find? (fun push => push.id == id) = some push)
      (he : d' = (d.setRecord topic { channel with queued := removeQueued id channel.queued }).emitAll
        (push.cancellation topic d.clock))
  | nothing (hd : ∀ pending, channel.deferredLeave = some pending → pending.id ≠ id)
      (hq : ∀ push ∈ channel.queued, push.id ≠ id) (he : d' = d)

/-- A leave that was put off is found before the queue. -/
theorem cancelUnsent_cases (d : Driver) (topic : Topic) (channel : ChannelRecord) (id : RequestId) :
    UnsentCancelled d topic channel id (d.cancelUnsent topic channel id) := by
  unfold cancelUnsent
  split
  · rename_i pending hp
    obtain ⟨hd, hid⟩ := Option.filter_eq_some_iff.mp hp
    refine .leave pending hd (eq_of_beq hid) ?_
    dsimp only
    split
    · rfl
    · rw [emitAll_nil]
  · rename_i hnone
    have hd : ∀ pending, channel.deferredLeave = some pending → pending.id ≠ id := fun pending hd hid =>
      Option.filter_eq_none_iff.mp hnone pending hd (by simpa using hid)
    split
    · rename_i hf
      refine .nothing hd (fun push hm hid => ?_) rfl
      exact List.find?_eq_none.mp hf push hm (by simpa using hid)
    · rename_i push hf
      refine .push push hf ?_
      have hid : push.id = id := by simpa using List.find?_some hf
      cases push with
      | call id event payload started =>
        cases hid
        simp only [emit_eq, emitCallCompleted_eq, emitAll_emitAll]
        rfl
      | cast id event payload =>
        cases hid
        rfl

/-- Where a cancellation finds the request: among those that wait for a join, among what a
channel holds back, or nowhere but in flight. -/
inductive CancelFound (d : Driver) (id : RequestId) (d' : Driver) : Prop where
  | join (topic : Topic) (channel : ChannelRecord) (hr : d.record topic = some channel)
      (hm : id ∈ channel.joinWaiters) (he : d' = d.cancelJoin topic channel id)
  | unsent (topic : Topic) (channel : ChannelRecord) (hr : d.record topic = some channel)
      (hm : (∃ pending, channel.deferredLeave = some pending ∧ pending.id = id) ∨
        ∃ push ∈ channel.queued, push.id = id)
      (he : d' = d.cancelUnsent topic channel id)
  | pending (hj : ∀ topic channel, d.record topic = some channel → id ∉ channel.joinWaiters)
      (hq : ∀ topic channel, d.record topic = some channel → ∀ push ∈ channel.queued, push.id ≠ id)
      (he : d' = d.cancelPending id)

/-- The places are searched in this order, and ids are distinct. -/
theorem cancel_found (d : Driver) (id : RequestId) : CancelFound d id (d.cancel id) := by
  unfold cancel
  split
  · rename_i topic channel hfind
    obtain ⟨hr, hm⟩ := Table.lookup_of_find hfind
    exact .join topic channel hr (by simpa using hm) rfl
  rename_i hnojoin
  split
  · rename_i topic channel hfind
    obtain ⟨hr, hm⟩ := Table.lookup_of_find hfind
    refine .unsent topic channel hr ?_ rfl
    simpa [Bool.or_eq_true, Option.any_eq_true, List.any_eq_true] using hm
  · rename_i hnounsent
    refine .pending (fun topic channel hr hm => ?_) (fun topic channel hr push hm hid => ?_) rfl
    · exact Table.not_of_find hnojoin hr (by simpa using hm)
    · refine Table.not_of_find hnounsent hr (Bool.or_eq_true_iff.mpr (.inr ?_))
      exact List.any_eq_true.mpr ⟨push, hm, by simpa using hid⟩

end

/-! ### Losing the connection

Every record is rewritten in the same way, whatever the order the table is iterated in. -/

/-- What a lost connection leaves of the tables. -/
def lost (old : DriverState) (reason : DisconnectReason) : DriverState :=
  ⟨old.protocol.resetConnection.2, old.channels.map fun _ channel => offlineRecord channel, ∅, ∅, ∅, ∅,
    old.nextPayloadId, socketStatusOf (.disconnected reason)⟩

/-- One report after another, each of the kind `P`. -/
theorem foldl_reports {α : Type} {P : Effect → Prop} {f : Driver → α → Driver}
    (hf : ∀ d a, ∃ reports, (∀ effect ∈ reports, P effect) ∧ f d a = d.emitAll reports)
    (l : List α) (d : Driver) :
    ∃ reports, (∀ effect ∈ reports, P effect) ∧ l.foldl f d = d.emitAll reports := by
  induction l generalizing d with
  | nil => exact ⟨[], List.forall_mem_nil _, (emitAll_nil d).symm⟩
  | cons a l ih =>
    obtain ⟨first, hfirst, he⟩ := hf d a
    obtain ⟨rest, hrest, he'⟩ := ih (f d a)
    refine ⟨first ++ rest, fun effect hm => ?_, ?_⟩
    · rcases List.mem_append.mp hm with hm | hm
      · exact hfirst effect hm
      · exact hrest effect hm
    · rw [List.foldl_cons, he', he, emitAll_emitAll]

/-- The end of the socket ends the status of every channel. -/
theorem emitSocket_record (d : Driver) (event : SocketEvent) (t : Topic) :
    (d.emitSocket event).record t = (d.record t).map (ChannelRecord.heard event) := by
  by_cases hs : socketStatusOf event = .closed
  · have hheard : ChannelRecord.heard event = fun channel => { channel with status := .closed } := by
      funext channel
      rw [ChannelRecord.heard, if_pos hs]
    simp only [record, emitSocket, telemetry_eq, emit_eq, emitAll_state, if_pos hs, hheard]
    exact Std.ExtTreeMap.getElem?_map
  · have hheard : ChannelRecord.heard event = id := by
      funext channel
      rw [ChannelRecord.heard, if_neg hs]
      rfl
    simp only [record, emitSocket, telemetry_eq, emit_eq, emitAll_state, if_neg hs, hheard, Option.map_id, id]

theorem emitSocket_trace (d : Driver) (event : SocketEvent) :
    (d.emitSocket event).trace = d.trace ++ [.telemetry (.socket event), .deliveredSocket event] := by
  simp only [emitSocket, telemetry_eq, emit_eq, emitAll_trace, List.append_assoc, List.cons_append, List.nil_append]

/-- A lost connection is reported to the hook and to the subscribers. -/
theorem emitSocket_disconnected (d : Driver) (reason : DisconnectReason) :
    d.emitSocket (.disconnected reason) =
      { d with state := { d.state with
          socketStatus := socketStatusOf (.disconnected reason) } }.emitAll
        [.telemetry (.socket (.disconnected reason)), .deliveredSocket (.disconnected reason)] := by
  have hs : socketStatusOf (.disconnected reason) ≠ .closed := by
    unfold socketStatusOf
    dsimp only
    split
    · exact SocketStatus.noConfusion
    · exact SocketStatus.noConfusion
  simp only [emitSocket, telemetry_eq, emit_eq, if_neg hs, emitAll, List.append_assoc]
  rfl

/-- What a lost connection reports is of any kind that its channel and socket reports are of. -/
theorem onDisconnect_reports {P : Effect → Prop}
    (hP : ∀ (d : Driver) (topic : Topic) (event : ChannelEvent), ∀ effect ∈ d.channelEffects topic event, P effect)
    (d : Driver) (reason : DisconnectReason) (ht : P (.telemetry (.socket (.disconnected reason))))
    (hd : P (.deliveredSocket (.disconnected reason))) :
    ∃ reports, (∀ effect ∈ reports, P effect) ∧
      d.onDisconnect reason = { d with state := lost d.state reason, connection := .none }.emitAll
        (interruptions d.state d.clock ++ reports) := by
  unfold onDisconnect
  dsimp only
  have hdown : ∀ (d : Driver) (topic : Topic), ∃ reports, (∀ effect ∈ reports, P effect) ∧
      d.emitChannel topic .disconnected = d.emitAll reports := fun d topic =>
    ⟨_, hP d topic .disconnected, emitChannel_eq ..⟩
  have hcut : ∀ (d : Driver) (event : ProtocolEvent), ∃ reports, (∀ effect ∈ reports, P effect) ∧
      d.reportInterrupted event = d.emitAll reports := by
    intro d event
    unfold reportInterrupted
    split
    · exact ⟨_, hP d _ _, emitChannel_eq ..⟩
    · exact ⟨[], List.forall_mem_nil _, (emitAll_nil d).symm⟩
  obtain ⟨downs, hdowns, he⟩ := foldl_reports hdown d.state.channels.keys
    ({ d with
      state := ⟨d.state.protocol.resetConnection.2,
        d.state.channels.map fun _ channel => offlineRecord channel, ∅, ∅, ∅, ∅,
        d.state.nextPayloadId, d.state.socketStatus⟩
      connection := .none }.emitAll (interruptions d.state d.clock))
  rw [he]
  obtain ⟨cuts, hcuts, he⟩ := foldl_reports hcut d.state.protocol.resetConnection.1 (Driver.emitAll _ downs)
  rw [he, emitSocket_disconnected]
  refine ⟨downs ++ cuts ++ [.telemetry (.socket (.disconnected reason)),
    .deliveredSocket (.disconnected reason)], fun effect hm => ?_, ?_⟩
  · simp only [List.mem_append, List.mem_cons, List.not_mem_nil, or_false] at hm
    rcases hm with (hm | hm) | rfl | rfl
    · exact hdowns effect hm
    · exact hcuts effect hm
    · exact ht
    · exact hd
  · simp only [emitAll, List.append_assoc, lost]

/-- **A lost connection interrupts what was in flight**; all else it does is to report. -/
theorem onDisconnect_eq (d : Driver) (reason : DisconnectReason) :
    ∃ reports, (∀ effect ∈ reports, effect.IsReport) ∧
      d.onDisconnect reason = { d with state := lost d.state reason, connection := .none }.emitAll
        (interruptions d.state d.clock ++ reports) :=
  onDisconnect_reports channelEffects_report d reason trivial trivial

/-! ### A new connection

Rejoins are unscheduled, and a load is started for every wanted channel, one after the other. -/

/-- The driver of a new connection, before it starts any load. -/
def connected (env : Env) (d : Driver) (started : Duration) (transport : Transport) : Driver :=
  { d with
    attempt := 0, transport, phase := .connected
    connection := { Connection.none with heartbeatDue := d.clock + env.options.heartbeatInterval }
    state := { d.state with
      socketStatus := .connected
      channels := d.state.channels.map fun _ => ChannelRecord.unscheduled } }.emitAll
    [.telemetry (.connectionAttemptFinished d.attempt (d.clock - started) true),
      .telemetry (.socket .connected), .deliveredSocket .connected]

theorem connected_record (env : Env) (d : Driver) (started : Duration) (transport : Transport)
    (t : Topic) :
    (d.connected env started transport).record t =
      (d.record t).map ChannelRecord.unscheduled :=
  Std.ExtTreeMap.getElem?_map

/-- A wanted channel loads a payload, with its status. -/
def startLoad (d : Driver) (topic : Topic) : Driver :=
  (d.setStatus topic .waitingToJoin).loadPayload topic

/-- The channels that are wanted are loaded one after the other, in whatever order the table gives. -/
theorem connectionMade_eq (env : Env) (d : Driver) (started : Duration) (transport : Transport)
    (order : List Topic) :
    d.connectionMade env started transport order =
      (order.filter fun topic => (d.record topic).any ChannelRecord.desired).foldl startLoad
        (d.connected env started transport) := by
  have hfresh : ∀ topic, ((d.connected env started transport).record topic).any ChannelRecord.desired =
      (d.record topic).any ChannelRecord.desired := by
    intro topic
    rw [connected_record, Option.any_map]
    rfl
  simp only [← hfresh]
  have hs : socketStatusOf .connected ≠ .closed := nofun
  simp only [connectionMade, connected, emitSocket, attemptFinished, telemetry_eq, emit_eq, if_neg hs,
    emitAll, List.append_assoc]
  rfl

/-- **The rule for a new connection**: what it brings and every load keeps holds after the loads. -/
theorem connectionMade_induction (P : Driver → Prop) {env : Env} {d : Driver} {started : Duration}
    {transport : Transport} {order : List Topic} (hc : P (d.connected env started transport))
    (hload : ∀ (d' : Driver) (topic : Topic), P d' → P (d'.startLoad topic)) :
    P (d.connectionMade env started transport order) := by
  rw [connectionMade_eq]
  exact List.foldlRecOn _ startLoad hc fun d' h topic _ => hload d' topic h

end Driver
end PhoenixChannel.Client
