import PhoenixChannel.Client.Loads
import PhoenixChannel.Client.Traces

/-! What most handlers leave alone of rejoins and leaves.

A record plans a rejoin by its flag and a leave by deferring it; a rejoin timer or a pending leave
stands for it elsewhere. `KeepsPlans G` says that none of this has changed, but for what was settled,
and that only leaves of the kind `G` were answered with success. What else a handler does is free. -/
namespace PhoenixChannel.Client
open PhoenixChannel.Runtime Library

/-- Whether a rejoin is scheduled, after how many attempts, and which leave is deferred. -/
def ChannelRecord.plans (channel : ChannelRecord) : Bool × Nat × Option RequestId :=
  (channel.rejoinScheduled, channel.joinAttempt, channel.deferredLeave.map PendingLeave.id)

/-- The leave that the effect answers with success. -/
def Effect.grants : Effect → Option RequestId
  | .answered .leave id (.ok _) => some id
  | _ => none

theorem Effect.grants_eq_some {effect : Effect} {id : RequestId} (h : effect.grants = some id) :
    ∃ success, effect = .answered .leave id (.ok success) := by
  unfold Effect.grants at h
  split at h
  · cases h
    exact ⟨_, rfl⟩
  · cases h

theorem grants_of_report {effect : Effect} (h : effect.IsReport) : effect.grants = none := by
  cases effect with
  | answered => exact h.elim
  | _ => rfl

theorem grants_of_refusal {operation : ClientOperation} {id : RequestId} {error : ClientError} :
    Effect.grants (.answered operation id (.error error)) = none := by
  cases operation <;> rfl

namespace Driver

structure KeepsPlans (G : RequestId → Prop) (d d' : Driver) : Prop where
  phase : d'.phase = d.phase
  clock : d'.clock = d.clock
  rejoins : d'.connection.rejoins = d.connection.rejoins
  records : ∀ t : Topic, (d'.record t).map ChannelRecord.plans = (d.record t).map ChannelRecord.plans
  leaves : ∀ (r : Reference) (leave' : PendingLeave), d'.state.pendingLeaves[r]? = some leave' →
    ∃ leave, d.state.pendingLeaves[r]? = some leave ∧ leave.id = leave'.id
  pending : ∀ (r : Reference) (t : Topic), d'.state.protocol.pending[r]? = some (.leave t) →
    d.state.protocol.pending[r]? = some (.leave t)
  emits : d.Emits (fun effect => ∀ id, effect.grants = some id → G id) d'

section
variable {G : RequestId → Prop} {env : Env} {d d' d'' : Driver} {topic : Topic} {effects : List Effect}

/-- Plans that both steps keep, both together keep. -/
theorem KeepsPlans.trans (h : KeepsPlans G d d') (h' : KeepsPlans G d' d'') : KeepsPlans G d d'' where
  phase := h'.phase.trans h.phase
  clock := h'.clock.trans h.clock
  rejoins := h'.rejoins.trans h.rejoins
  records t := (h'.records t).trans (h.records t)
  leaves r leave' hl := by
    obtain ⟨leave, hl, he⟩ := h'.leaves r leave' hl
    obtain ⟨leave₀, hl, he₀⟩ := h.leaves r leave hl
    exact ⟨leave₀, hl, he₀.trans he⟩
  pending r t hp := h.pending r t (h'.pending r t hp)
  emits := h.emits.trans h'.emits

/-- Nothing of it was touched. -/
theorem KeepsPlans.of_eq (hph : d'.phase = d.phase) (hc : d'.clock = d.clock)
    (hr : d'.connection.rejoins = d.connection.rejoins)
    (hrec : ∀ t : Topic, (d'.record t).map ChannelRecord.plans = (d.record t).map ChannelRecord.plans)
    (hl : d'.state.pendingLeaves = d.state.pendingLeaves)
    (hp : ∀ (r : Reference) (t : Topic), d'.state.protocol.pending[r]? = some (.leave t) →
      d.state.protocol.pending[r]? = some (.leave t))
    (he : d.Emits (fun effect => effect.grants = none) d') : KeepsPlans G d d' where
  phase := hph
  clock := hc
  rejoins := hr
  records := hrec
  leaves r leave' h := ⟨leave', by rw [← hl]; exact h, rfl⟩
  pending := hp
  emits := he.mono fun effect hnone id hsome => by cases hnone.symm.trans hsome

theorem KeepsPlans.refl (G : RequestId → Prop) (d : Driver) : KeepsPlans G d d :=
  .of_eq rfl rfl rfl (fun _ => rfl) rfl (fun _ _ h => h) (.refl _ d)

/-- Records, leaves and requests stay as they are. -/
theorem KeepsPlans.same (h : KeepsPlans G d d') (hph : d''.phase = d'.phase) (hc : d''.clock = d'.clock)
    (hr : d''.connection.rejoins = d'.connection.rejoins) (hrec : d''.state.channels = d'.state.channels)
    (hl : d''.state.pendingLeaves = d'.state.pendingLeaves)
    (hp : d''.state.protocol.pending = d'.state.protocol.pending) (ht : d''.trace = d'.trace) :
    KeepsPlans G d d'' :=
  h.trans (.of_eq hph hc hr (fun t => by rw [record, hrec, record]) hl (fun r t h => by rw [← hp]; exact h)
    (.of_trace ht))

theorem KeepsPlans.emitAll (h : KeepsPlans G d d') (he : ∀ effect ∈ effects, effect.grants = none) :
    KeepsPlans G d (d'.emitAll effects) :=
  h.trans (.of_eq rfl rfl rfl (fun _ => rfl) rfl (fun _ _ h => h) ⟨effects, rfl, he⟩)

/-- A leave of the kind is answered. -/
theorem KeepsPlans.grant (h : KeepsPlans G d d')
    (he : ∀ effect ∈ effects, ∀ id, effect.grants = some id → G id) : KeepsPlans G d (d'.emitAll effects) :=
  h.trans { KeepsPlans.refl G d' with records := fun _ => rfl, emits := ⟨effects, rfl, he⟩ }

theorem KeepsPlans.refuse (h : KeepsPlans G d d') {operation : ClientOperation} {ids : List RequestId}
    {error : ClientError} :
    KeepsPlans G d (d'.emitAll (ids.map fun id => .answered operation id (.error error))) := by
  refine h.emitAll fun effect hm => ?_
  obtain ⟨id, -, rfl⟩ := List.mem_map.mp hm
  exact grants_of_refusal

theorem KeepsPlans.refuseLeave (h : KeepsPlans G d d') {pending : Option PendingLeave} {error : ClientError} :
    KeepsPlans G d (d'.answerLeave pending (.error error)) := by
  rw [answerLeave_eq]
  refine h.emitAll fun effect hm => ?_
  obtain ⟨leave, -, -, rfl⟩ := mem_leaveAnswers hm
  exact grants_of_refusal

theorem KeepsPlans.emitChannel (h : KeepsPlans G d d') {event : ChannelEvent} :
    KeepsPlans G d (d'.emitChannel topic event) := by
  rw [emitChannel_eq]
  exact h.emitAll fun effect hm => grants_of_report (channelEffects_report d' topic event effect hm)

theorem KeepsPlans.setRecord (h : KeepsPlans G d d') {channel channel' : ChannelRecord}
    (hr : d'.record topic = some channel) (hp : channel'.plans = channel.plans) :
    KeepsPlans G d (d'.setRecord topic channel') := by
  refine h.trans (.of_eq rfl rfl rfl (fun t => ?_) rfl (fun _ _ h => h) (.of_trace rfl))
  rw [record_setRecord_eq]
  by_cases ht : t = topic
  · rw [if_pos ht, ht, hr, Option.map_some, Option.map_some, hp]
  · rw [if_neg ht]

/-- A status is no plan. -/
theorem KeepsPlans.setStatus (h : KeepsPlans G d d') {status : ChannelStatus} :
    KeepsPlans G d (d'.setStatus topic status) := by
  cases hr : d'.record topic with
  | none =>
    rw [setStatus_of_none hr]
    exact h
  | some channel =>
    rw [setStatus_of_some hr]
    exact h.setRecord hr rfl

/-- A frame that goes out is no plan. -/
theorem KeepsPlans.sendFrame (h : KeepsPlans G d d') {served : List RequestId} {frame : Frame} :
    KeepsPlans G d (d'.sendFrame env served frame).1 := by
  have hs := sendFrame_state env d' served frame
  obtain ⟨events, ht⟩ := sendFrame_trace env d' served frame
  refine h.trans (.of_eq (sendFrame_phase ..) (sendFrame_clock ..) (by rw [sendFrame_connection])
    (fun t => by rw [record, hs, record]) (by rw [hs]) (fun r t hp => by rw [hs] at hp; exact hp) ⟨_, ht, ?_⟩)
  intro effect hm
  rcases List.mem_cons.mp hm with rfl | hm
  · rfl
  · obtain ⟨event, -, rfl⟩ := List.mem_map.mp hm
    rfl

/-- A load is no rejoin any more, and no leave. -/
theorem KeepsPlans.loadPayload (h : KeepsPlans G d d') : KeepsPlans G d (d'.loadPayload topic) := by
  rcases loadPayload_cases d' topic with ⟨-, he⟩ | ⟨channel, hr, -, -, -, he⟩
  · rw [he]
    exact h
  · rw [he]
    refine KeepsPlans.emitAll ?_ (by simp [Effect.grants])
    let channel' : ChannelRecord :=
      { channel with
        status := .waitingToJoin, activePayload := some (Protocol.advance d'.state.nextPayloadId) }
    have hw : KeepsPlans G d (d'.setRecord topic channel') := h.setRecord hr rfl
    exact hw.same rfl rfl rfl rfl rfl rfl rfl

/-- The protocol forgets requests, or begins to wait for others than leaves. -/
theorem KeepsPlans.setProtocol (h : KeepsPlans G d d') {p : Protocol}
    (hp : ∀ (r : Reference) (t : Topic), p.pending[r]? = some (.leave t) →
      d'.state.protocol.pending[r]? = some (.leave t)) : KeepsPlans G d (d'.setProtocol p) :=
  h.trans (.of_eq rfl rfl rfl (fun _ => rfl) rfl hp (.of_trace rfl))

theorem KeepsPlans.calls (h : KeepsPlans G d d') {pendingCalls : Table Reference PendingCall} :
    KeepsPlans G d { d' with state := { d'.state with pendingCalls } } :=
  h.same rfl rfl rfl rfl rfl rfl rfl

theorem KeepsPlans.pings (h : KeepsPlans G d d') {pendingPings : Table Reference PendingPing} :
    KeepsPlans G d { d' with state := { d'.state with pendingPings } } :=
  h.same rfl rfl rfl rfl rfl rfl rfl

theorem KeepsPlans.forgetJoins (h : KeepsPlans G d d') : KeepsPlans G d (d'.forgetJoins topic) :=
  h.same rfl rfl rfl rfl rfl rfl rfl

theorem KeepsPlans.eraseJoin (h : KeepsPlans G d d') {reference : Reference} :
    KeepsPlans G d (d'.eraseJoin reference) :=
  h.same rfl rfl rfl rfl rfl rfl rfl

theorem KeepsPlans.eraseLeave (h : KeepsPlans G d d') {reference : Reference} :
    KeepsPlans G d (d'.eraseLeave reference) := by
  exact h.trans { KeepsPlans.refl G d' with
    records := fun _ => rfl
    emits := .of_trace rfl
    leaves := fun r leave' hl => ⟨leave', Table.lookup_of_erase hl, rfl⟩ }

theorem pending_discardChannel {p : Protocol} {t : Topic} {r : Reference} {x : Pending}
    (h : (p.discardChannel t).2.pending[r]? = some x) : p.pending[r]? = some x := by
  have h : (p.pending.filter fun _ pending => pending.topic? != some t)[r]? = some x := h
  rw [Std.ExtTreeMap.getElem?_filter'] at h
  exact Option.eq_some_of_filter_eq_some h

theorem KeepsPlans.discardChannel (h : KeepsPlans G d d') : KeepsPlans G d (d'.discardChannel topic) :=
  h.setProtocol fun _ _ hp => pending_discardChannel hp

/-- Something that is not a leave waits for the next reference. -/
theorem pending_insert {p : Protocol} {x : Pending} {r r' : Reference} {t : Topic}
    (hx : ∀ t, x ≠ .leave t) (h : (p.pending.insert r' x)[r]? = some (.leave t)) :
    p.pending[r]? = some (.leave t) := by
  rw [Table.lookup_insert] at h
  split at h
  · cases Option.some.inj h
    exact absurd rfl (hx t)
  · exact h

/-- A push waits under its own reference, which is none of a leave. -/
theorem KeepsPlans.sendPush (h : KeepsPlans G d d') {push : QueuedPush} :
    KeepsPlans G d (d'.sendPush env topic push).1 := by
  cases push_handled env d' topic push with
  | refusedCall id event payload started hb he =>
    rw [he]
    exact h.emitAll (by simp [Effect.grants])
  | refusedCast id event payload hb he =>
    rw [he]
    exact h.emitAll (by simp [Effect.grants])
  | notJoined push hj he =>
    rw [he]
    exact h
  | call id event payload started joinRef hb hj he =>
    rw [he]
    have htrack : KeepsPlans G d (d'.trackCall topic id event payload started) := by
      refine h.trans (.of_eq rfl rfl rfl (fun _ => rfl) rfl (fun r t hp => ?_) (.of_trace rfl))
      have hnot : ∀ t, Pending.push topic event ≠ .leave t := by simp
      simp only [trackCall, Protocol.push_of_joined hj] at hp
      exact pending_insert hnot hp
    exact htrack.sendFrame
  | cast id event payload joinRef sent hb hj hs he =>
    rw [he, hs]
    exact h.sendFrame.emitAll (by simp [Effect.grants])

theorem KeepsPlans.flush (h : KeepsPlans G d d') : KeepsPlans G d (d'.flush env topic).1 := by
  refine h.trans (flush_induction (KeepsPlans.refl G) (fun _ _ _ => KeepsPlans.trans)
    (fun d channel push queued hr _ => ?_) d')
  have hpop : KeepsPlans G d (d.setRecord topic { channel with queued }) :=
    (KeepsPlans.refl G d).setRecord hr rfl
  exact hpop.sendPush

/-- The closing of the socket touches the status of a record only. -/
theorem KeepsPlans.emitSocket (h : KeepsPlans G d d') {event : SocketEvent} :
    KeepsPlans G d (d'.emitSocket event) := by
  refine h.trans (.of_eq rfl rfl rfl (fun t => ?_) rfl (fun _ _ h => h)
    ((Emits.refl _ d').emitSocket (by simp [Effect.grants]) (by simp [Effect.grants])))
  rw [emitSocket_record, Option.map_map]
  rfl

theorem KeepsPlans.queue (h : KeepsPlans G d d') {push : QueuedPush} :
    KeepsPlans G d (d'.queue env topic push) := by
  rcases queue_cases env d' topic push with ⟨error, -, he⟩ | ⟨channel, hr, -, -, he⟩
  · rw [he]
    exact h.refuse
  · rw [he]
    exact h.setRecord hr rfl

end

/-! ### Handlers

Commands and payload results, but for leaves. -/

section
variable {G : RequestId → Prop} {env : Env} {d d' : Driver} {topic : Topic} {channel : ChannelRecord}
  {id : RequestId} {reference : Reference} {response : Payload} {p : Protocol}

/-- Taking a command notes its request. -/
theorem plans_accept (G : RequestId → Prop) (d : Driver) (command : Command) :
    KeepsPlans G d (d.accept command) := by
  unfold accept
  split
  · exact (KeepsPlans.refl G d).emitAll (by simp [Effect.grants])
  · exact .refl G d

/-- A join loads or waits, and leaves a scheduled rejoin as it is. -/
theorem KeepsPlans.handleJoin (h : KeepsPlans G d d') {timeout : Duration} :
    KeepsPlans G d (d'.handleJoin id topic timeout) := by
  unfold Driver.handleJoin
  cases hr : d'.record topic with
  | none => exact h.refuse
  | some channel =>
    dsimp only
    split
    · refine (h.setRecord hr ?_).refuse
      rfl
    · refine (h.setRecord hr ?_).loadPayload
      rfl

/-- A heartbeat waits for its reply. -/
theorem KeepsPlans.heartbeat (h : KeepsPlans G d d') :
    KeepsPlans G d (d'.setProtocol d'.state.protocol.heartbeat.2) :=
  h.setProtocol fun r t hp => by
    rw [Protocol.heartbeat_eq] at hp
    exact pending_insert (x := .heartbeat) nofun hp

theorem KeepsPlans.handlePing (h : KeepsPlans G d d') : KeepsPlans G d (d'.handlePing env id).1 := by
  have htrack : KeepsPlans G d (d'.trackPing id) := h.heartbeat.same rfl rfl rfl rfl rfl rfl rfl
  exact htrack.sendFrame

/-- A heartbeat waits under its own reference, which is none of a leave. -/
theorem KeepsPlans.handleHeartbeat (h : KeepsPlans G d d') : KeepsPlans G d (d'.handleHeartbeat env).1 := by
  by_cases hh : d'.connection.heartbeatReference.isSome = true
  · rw [handleHeartbeat_of_some hh]
    exact h
  · rw [handleHeartbeat_of_none hh]
    have htrack : KeepsPlans G d d'.trackHeartbeat := h.heartbeat.same rfl rfl rfl rfl rfl rfl rfl
    let frame : Frame := ⟨none, some d'.state.protocol.nextText, "phoenix", "heartbeat", .emptyObject⟩
    have hsend : KeepsPlans G d (d'.trackHeartbeat.sendFrame env [] frame).1 := htrack.sendFrame
    rcases hs : d'.trackHeartbeat.sendFrame env [] frame with ⟨d₁, _ | reason⟩
    · rw [hs] at hsend
      exact hsend.same rfl rfl rfl rfl rfl rfl rfl
    · rw [hs] at hsend
      exact hsend

theorem KeepsPlans.handlePush (h : KeepsPlans G d d') {push : QueuedPush} :
    KeepsPlans G d (d'.handlePush env topic push).1 := by
  unfold Driver.handlePush
  split
  · exact h.sendPush
  · exact h.queue

/-- A join that is sent leaves the plans of its record as they are. -/
theorem KeepsPlans.handlePayload (h : KeepsPlans G d d') {payloadId : UInt64}
    {payload : Except String Value} :
    KeepsPlans G d (d'.handlePayload env topic payloadId payload).1 := by
  cases payload_handled env d' topic payloadId payload with
  | ignored hi he =>
    rw [he]
    exact h
  | late channel hr ha hl he =>
    rw [he]
    exact h.setRecord hr rfl
  | failed message channel hp hr ha he =>
    rw [he]
    refine (h.setRecord hr ?_).refuse.emitChannel
    rfl
  | joined value channel d₁ hp hr ha hd hs hd₁ hs₁ he =>
    rw [he]
    have hfirst : KeepsPlans G d d₁ ∧ d₁.record topic = some channel := by
      rcases hd₁ with rfl | ⟨-, rfl⟩
      · exact ⟨h, hr⟩
      · exact ⟨h.discardChannel, hr⟩
    have hwrite : KeepsPlans G d (d₁.setRecord topic { channel.loaded with status := .joining }) :=
      hfirst.1.setRecord hfirst.2 rfl
    have hjoin : KeepsPlans G d ((d₁.setRecord topic { channel.loaded with status := .joining }).setProtocol
        (d₁.state.protocol.join topic value).2) := by
      refine hwrite.setProtocol fun r t hp => ?_
      have hnot : ∀ t', Pending.join topic ≠ .leave t' := nofun
      rw [Protocol.join_of_unknown hs₁] at hp
      exact pending_insert hnot hp
    have htrack : KeepsPlans G d (d₁.trackJoin topic value channel.loaded) :=
      hjoin.same rfl rfl rfl rfl rfl rfl rfl
    exact htrack.sendFrame

/-! ### Events

The reply to a call and to a heartbeat, and what comes of a leave that is answered or given up. -/

/-- A frame settles a request at most. -/
theorem pending_receive {p : Protocol} {frame : Frame} {r : Reference} {x : Pending}
    (h : (p.receive frame).2.pending[r]? = some x) : p.pending[r]? = some x := by
  have hr := Protocol.received p frame
  generalize (p.receive frame).1 = result at hr
  generalize (p.receive frame).2 = p' at hr h
  cases hr with
  | malformed hs hr hf hp hd => exact Table.lookup_of_erase h
  | settled hs hr hf hp hd =>
    rw [Protocol.settle_pending] at h
    exact Table.lookup_of_erase h
  | stale | unmatched | closed | errored | message => exact h

theorem KeepsPlans.receive (h : KeepsPlans G d d') {frame : Frame} {result : Except ProtocolError ProtocolEvent}
    (hrec : d'.state.protocol.receive frame = (result, p)) : KeepsPlans G d (d'.setProtocol p) :=
  h.setProtocol fun _ _ hp => pending_receive (by rw [hrec]; exact hp)

/-- The reply to a push answers no leave. -/
theorem KeepsPlans.onReply (h : KeepsPlans G d d') {event : String} {status : ReplyStatus} :
    KeepsPlans G d (d'.onReply topic event reference status response) := by
  cases hc : d'.state.pendingCalls[reference]? with
  | none =>
    rw [onReply_of_none hc]
    exact h.emitChannel
  | some call =>
    rw [onReply_of_some hc]
    have hsettled : KeepsPlans G d (d'.callSettled reference call status response) :=
      h.calls.emitAll (by simp [Effect.grants])
    exact hsettled.emitChannel

theorem KeepsPlans.onHeartbeatAck (h : KeepsPlans G d d') : KeepsPlans G d (d'.onHeartbeatAck reference) := by
  unfold Driver.onHeartbeatAck
  split
  · exact h.same rfl rfl rfl rfl rfl rfl rfl
  · cases d'.state.pendingPings[reference]? with
    | none => exact h
    | some ping => exact h.pings.emitAll (by simp [Effect.grants])

/-- The reply to a leave answers the leave that waits for it. -/
theorem KeepsPlans.onLeft (h : KeepsPlans G d d')
    (hg : ∀ leave, d'.state.pendingLeaves[reference]? = some leave → G leave.id) :
    KeepsPlans G d (d'.onLeft topic reference response) := by
  have hsettled : KeepsPlans G d (d'.leaveSettled reference response) := by
    refine h.eraseLeave.grant fun effect hm id he => ?_
    obtain ⟨leave, hl, -, rfl⟩ := mem_leaveAnswers hm
    cases he
    exact hg leave hl
  cases hr : d'.record topic with
  | none =>
    rw [onLeft_of_none hr]
    exact hsettled.emitChannel
  | some channel =>
    have hr' : (d'.leaveSettled reference response).record topic = some channel := hr
    rw [onLeft_of_some hr]
    split
    · refine (hsettled.setRecord hr' ?_).emitChannel.loadPayload
      rfl
    · refine (hsettled.setRecord hr' ?_).emitChannel
      rfl

/-- The leave that timed out is settled, and its topic's requests are dropped. -/
theorem KeepsPlans.leaveTimedOut (h : KeepsPlans G d d') {pending : PendingLeave} {duration : Duration} :
    KeepsPlans G d (d'.leaveTimedOut topic pending duration) := by
  cases hr : d'.record topic with
  | none =>
    rw [leaveTimedOut_of_none hr]
    exact h.refuseLeave.discardChannel
  | some channel =>
    rw [leaveTimedOut_of_some hr]
    dsimp only
    split
    · exact h.refuseLeave.discardChannel.setStatus.loadPayload
    · exact h.refuseLeave.discardChannel.setStatus

/-! ### Cancellation

A cancelled leave keeps its place, so its plan stays. -/

/-- A waiter that is gone changes no plan. -/
theorem KeepsPlans.cancelJoin (h : KeepsPlans G d d') (hr : d'.record topic = some channel) :
    KeepsPlans G d (d'.cancelJoin topic channel id) := by
  by_cases hl : channel.joinWaiters.erase id = [] ∧ channel.everJoined = false
  · rw [cancelJoin_of_last hl.1 hl.2]
    refine ((h.setRecord hr ?_).emitAll ?_).forgetJoins.discardChannel
    · rfl
    · simp [Effect.grants]
  · rw [cancelJoin_of_others hl]
    refine (h.setRecord hr ?_).emitAll ?_
    · rfl
    · simp [Effect.grants]

/-- A deferred leave without its sender is still deferred. -/
theorem KeepsPlans.cancelUnsent (h : KeepsPlans G d d') (hr : d'.record topic = some channel) :
    KeepsPlans G d (d'.cancelUnsent topic channel id) := by
  cases d'.cancelUnsent_cases topic channel id with
  | leave pending hd hid he =>
    rw [he]
    refine KeepsPlans.emitAll (h.setRecord hr ?_) (by simp [Effect.grants])
    simp [ChannelRecord.plans, hd]
  | push push hf he =>
    rw [he]
    refine KeepsPlans.emitAll (h.setRecord hr (by rfl)) ?_
    exact push.forall_cancellation (by simp [Effect.grants]) (by simp [Effect.grants])
  | nothing hd hq he =>
    rw [he]
    exact h

/-- A call is no plan. -/
theorem KeepsPlans.cancelCall (h : KeepsPlans G d d') : KeepsPlans G d (d'.cancelCall id) := by
  rcases cancelCall_cases d' id with hcancel | ⟨reference, call, -, -, hcancel⟩
  · rw [hcancel]
    exact h
  · rw [hcancel]
    refine KeepsPlans.setProtocol (h.calls.emitAll (by simp [Effect.grants])) fun r t hp => ?_
    rcases Protocol.forgetPush_cases d'.state.protocol reference with ⟨topic, event, -, he⟩ | he
    · rw [he] at hp
      exact Table.lookup_of_erase hp
    · rw [he] at hp
      exact hp

/-- A ping is no plan. -/
theorem KeepsPlans.cancelPing (h : KeepsPlans G d d') : KeepsPlans G d (d'.cancelPing id) := by
  rcases cancelPing_cases d' id with hcancel | ⟨reference, ping, -, -, hcancel⟩
  · rw [hcancel]
    exact h
  · rw [hcancel]
    refine KeepsPlans.setProtocol (h.pings.emitAll (by simp [Effect.grants])) fun r t hp => ?_
    rcases Protocol.forgetHeartbeat_cases d'.state.protocol reference with ⟨-, he⟩ | he
    · rw [he] at hp
      exact Table.lookup_of_erase hp
    · rw [he] at hp
      exact hp

/-- A leave that is cancelled keeps its place and its id. -/
theorem KeepsPlans.cancelLeave (h : KeepsPlans G d d') : KeepsPlans G d (d'.cancelLeave id) := by
  rcases cancelLeave_cases d' id with hcancel | ⟨reference, leave, hl, -, hcancel⟩
  · rw [hcancel]
    exact h
  · rw [hcancel]
    refine KeepsPlans.emitAll (h.trans { KeepsPlans.refl G d' with
      records := fun _ => rfl, emits := .of_trace rfl, leaves := fun r leave' hl' => ?_ }) ?_
    · have hl' : (d'.state.pendingLeaves.insert reference { leave with response := false })[r]? =
        some leave' := hl'
      rw [Table.lookup_insert] at hl'
      split at hl'
      · rename_i he
        cases Option.some.inj hl'
        exact ⟨leave, by rw [he]; exact hl, rfl⟩
      · exact ⟨leave', hl', rfl⟩
    · intro effect hm
      split at hm
      · cases List.mem_singleton.mp hm
        rfl
      · cases hm

/-- Wherever the request is found, rejoins and leaves stay as they were planned. -/
theorem KeepsPlans.cancel (h : KeepsPlans G d d') : KeepsPlans G d (d'.cancel id) := by
  cases d'.cancel_found id with
  | join topic channel hr hm he =>
    rw [he]
    exact h.cancelJoin hr
  | unsent topic channel hr hm he =>
    rw [he]
    exact h.cancelUnsent hr
  | pending hj hq he =>
    rw [he]
    exact h.cancelCall.cancelPing.cancelLeave

end

end Driver
end PhoenixChannel.Client
