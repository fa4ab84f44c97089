import PhoenixChannel.Client.Traces
import PhoenixChannel.Client.Tracking

/-! Join generations across a handler.

Only the result of a payload load starts a join. Every other handler leaves a channel with
the join reference it had, or without a channel, and sends a leave only under the join
reference its channel had. -/
namespace PhoenixChannel.Client
open PhoenixChannel.Runtime Library

/-- A leave that is sent carries the join reference of its topic's channel. -/
def Effect.LeavesBy (p : Protocol) (effect : Effect) : Prop :=
  ∀ served frame, effect = .outgoing served frame → frame.event = "phx_leave" →
    ∃ c : Channel, p.channels[frame.topic]? = some c ∧ frame.joinRef = some c.joinRef

instance (p : Protocol) : Lenient (Effect.LeavesBy p) where
  report effect h served frame he := by
    subst he
    cases h
  failure _ _ _ _ _ he := by cases he
  leave _ _ _ _ he := by cases he
  load _ _ _ _ _ _ he := by cases he

namespace Driver

/-- From `d` to `d'` no channel was joined, and leaves were sent for channels of `d`. -/
structure Aged (d d' : Driver) : Prop where
  channels : ∀ (t : Topic) (c' : Channel), d'.state.protocol.channels[t]? = some c' →
    ∃ c : Channel, d.state.protocol.channels[t]? = some c ∧ c.joinRef = c'.joinRef
  leaves : d.Emits (Effect.LeavesBy d.state.protocol) d'

section
variable {d d' d'' : Driver} {topic : Topic}

theorem Aged.refl (d : Driver) : d.Aged d := ⟨fun _ c hc => ⟨c, hc, rfl⟩, .refl _ d⟩

theorem Aged.trans (h : d.Aged d') (h' : d'.Aged d'') : d.Aged d'' := by
  refine ⟨fun t c'' hc => ?_, h.leaves.trans (h'.leaves.mono fun effect he served frame hs hv => ?_)⟩
  · obtain ⟨c', hc', he'⟩ := h'.channels t c'' hc
    obtain ⟨c, hc, he⟩ := h.channels t c' hc'
    exact ⟨c, hc, he.trans he'⟩
  · obtain ⟨c', hc', hj⟩ := he served frame hs hv
    obtain ⟨c, hc, he⟩ := h.channels frame.topic c' hc'
    exact ⟨c, hc, by rw [hj, he]⟩

theorem aged_of_eq (hp : d'.state.protocol.channels = d.state.protocol.channels)
    (he : d.Emits (Effect.LeavesBy d.state.protocol) d') : d.Aged d' :=
  ⟨fun t c hc => ⟨c, by rw [← hp]; exact hc, rfl⟩, he⟩

/-- Channels that are known, in whatever state. -/
theorem aged_of_known (ht : d'.trace = d.trace)
    (h : ∀ (t : Topic) (c' : Channel), d'.state.protocol.channels[t]? = some c' →
      ∃ c : Channel, d.state.protocol.channels[t]? = some c ∧ c.joinRef = c'.joinRef) : d.Aged d' :=
  ⟨h, .of_trace ht⟩

/-- A push is no leave. -/
theorem aged_pushed (h : d.Pushed d') : d.Aged d' := by
  refine aged_of_eq h.channels ?_
  obtain ⟨effects, ht, he⟩ := h.effects
  refine ⟨effects, ht, fun effect hm served frame hs _ => ?_⟩
  subst hs
  obtain ⟨hsome, hj⟩ := he _ hm
  obtain ⟨r, hr⟩ := Option.isSome_iff_exists.mp hsome
  rw [hr] at hj
  obtain ⟨c, hc, -, hcr⟩ := Protocol.joinedRef_eq_some.mp hj
  exact ⟨c, hc, by rw [hr, hcr]⟩

theorem aged_discardChannel (d : Driver) (topic : Topic) : d.Aged (d.discardChannel topic) := by
  refine aged_of_known rfl fun t c hc => ⟨c, ?_, rfl⟩
  have hc : (d.state.protocol.channels.erase topic)[t]? = some c := hc
  rw [Table.lookup_erase] at hc
  split at hc
  · cases hc
  · exact hc

/-- The state of a channel is not its generation. -/
theorem aged_setState {state : ChannelState} (ht : d'.trace = d.trace)
    (hp : d'.state.protocol.channels = Protocol.setState d.state.protocol.channels topic state) :
    d.Aged d' := by
  refine aged_of_known ht fun t c' hc => ?_
  rw [hp, Protocol.lookup_setState] at hc
  split at hc
  · obtain ⟨c, hold, rfl⟩ := Option.map_eq_some_iff.mp hc
    exact ⟨c, hold, rfl⟩
  · exact ⟨c', hc, rfl⟩

/-- An incoming frame starts no generation. -/
theorem aged_receive (d : Driver) (frame : Frame) :
    d.Aged (d.setProtocol (d.state.protocol.receive frame).2) := by
  have h := Protocol.received d.state.protocol frame
  generalize (d.state.protocol.receive frame).1 = result at h
  generalize (d.state.protocol.receive frame).2 = p at h ⊢
  cases h with
  | stale _ | unmatched _ _ _ | malformed _ _ _ _ _ | message _ _ _ _ =>
    exact aged_of_eq rfl (.of_trace rfl)
  | closed _ _ | errored _ _ => exact aged_setState rfl rfl
  | @settled r pending status response _ _ _ hp _ =>
    cases pending with
    | join topic => cases status <;> exact aged_setState rfl rfl
    | leave topic =>
      refine aged_of_known rfl fun t c hc => ⟨c, ?_, rfl⟩
      have hc : (d.state.protocol.channels.erase topic)[t]? = some c := hc
      rw [Table.lookup_erase] at hc
      split at hc
      · cases hc
      · exact hc
    | push topic event => exact aged_of_eq rfl (.of_trace rfl)
    | heartbeat => exact aged_of_eq rfl (.of_trace rfl)

/-- A leave of a joined channel keeps its join reference. -/
theorem aged_leave {channel : Channel} (hc : d.state.protocol.channels[topic]? = some channel)
    (hs : channel.state = .joined) (ht : d'.trace = d.trace)
    (hp : d'.state.protocol.channels = (d.state.protocol.leave topic).2.channels) : d.Aged d' := by
  refine aged_of_known ht fun t c' hc' => ?_
  rw [hp, Protocol.leave_of_joined hc hs, Table.lookup_insert] at hc'
  split at hc'
  · cases hc'
    rename_i he
    exact ⟨channel, by rw [he, hc], rfl⟩
  · exact ⟨c', hc', rfl⟩

theorem heartbeat_ne_leave : ("heartbeat" : String) ≠ "phx_leave" := by decide

/-- A frame that is not a leave, or is one of a known channel. -/
theorem aged_sendFrame (env : Env) (h : d.Aged d') (served : List RequestId) {frame : Frame}
    (hf : frame.event = "phx_leave" → ∃ c : Channel,
      d.state.protocol.channels[frame.topic]? = some c ∧ frame.joinRef = some c.joinRef) :
    d.Aged (d'.sendFrame env served frame).1 := by
  refine ⟨fun t c hc => h.channels t c ?_, h.leaves.sendFrame fun served' frame' he hv => ?_⟩
  · rw [sendFrame_state] at hc
    exact hc
  · cases he
    exact hf hv

end

/-! ### Handlers

A handler that discards a channel leaves it without a generation, and any other keeps the one there
is. -/

section
variable (env : Env) (d : Driver) (topic : Topic)

/-- A leave is sent for the generation that was joined. -/
theorem aged_sendLeave (pending : PendingLeave) : d.Aged (d.sendLeave env topic pending).1 := by
  cases hj : d.state.protocol.joinedRef topic with
  | none =>
    obtain ⟨e, he⟩ := sendLeave_of_not_joined env pending hj
    rw [he]
    exact aged_of_eq rfl (.of_trace rfl)
  | some joinRef =>
    obtain ⟨channel, hc, hs, -⟩ := Protocol.joinedRef_eq_some.mp hj
    rw [sendLeave_of_joined hc hs]
    have htrack : d.Aged (d.trackLeave topic pending) := aged_leave hc hs rfl rfl
    exact aged_sendFrame env htrack _ fun _ => ⟨channel, hc, rfl⟩

theorem aged_unregister : d.Aged (d.unregister topic) := by
  have hstop : d.Emits (Effect.LeavesBy d.state.protocol) (d.stopChannel topic) :=
    (Emits.refl _ d).stopChannel
  have herase : d.Aged { d.stopChannel topic with
      state := { (d.stopChannel topic).state with
        channels := (d.stopChannel topic).state.channels.erase topic } } :=
    aged_of_eq (by simp) (hstop.silent rfl)
  exact herase.trans (aged_discardChannel ..)

theorem aged_unregisterConnected : d.Aged (d.unregisterConnected env topic).1 := by
  by_cases hj : d.state.protocol.channelState topic = some .joined
  · obtain ⟨channel, hc, hs⟩ := Option.map_eq_some_iff.mp hj
    rw [unregisterConnected_of_joined hc hs]
    have hleave : d.Aged (d.setProtocol (d.state.protocol.leave topic).2) := aged_leave hc hs rfl rfl
    exact aged_sendFrame env (hleave.trans (aged_unregister ..)) _ fun _ => ⟨channel, hc, rfl⟩
  · rw [unregisterConnected_of_not_joined hj]
    exact aged_unregister ..

/-- A cancelled call leaves the channels alone. -/
theorem aged_cancelCall (id : RequestId) : d.Aged (d.cancelCall id) := by
  rcases cancelCall_cases d id with hcancel | ⟨reference, call, -, -, hcancel⟩
  · rw [hcancel]
    exact .refl d
  · rw [hcancel]
    refine aged_of_eq ?_ ⟨_, rfl, fun effect hm served frame he => ?_⟩
    · exact Protocol.forgetPush_channels ..
    · subst he
      simp at hm

/-- A cancelled ping leaves the channels alone. -/
theorem aged_cancelPing (id : RequestId) : d.Aged (d.cancelPing id) := by
  rcases cancelPing_cases d id with hcancel | ⟨reference, ping, -, -, hcancel⟩
  · rw [hcancel]
    exact .refl d
  · rw [hcancel]
    refine aged_of_eq ?_ ⟨_, rfl, fun effect hm served frame he => ?_⟩
    · exact Protocol.forgetHeartbeat_channels ..
    · subst he
      simp at hm

theorem aged_cancelLeave (id : RequestId) : d.Aged (d.cancelLeave id) := by
  rcases cancelLeave_cases d id with hcancel | ⟨reference, leave, -, -, hcancel⟩
  · rw [hcancel]
    exact .refl d
  · rw [hcancel]
    refine aged_of_eq rfl ⟨_, rfl, fun effect hm served frame he => ?_⟩
    subst he
    split at hm <;> simp at hm

/-- What was not sent leaves the channels alone. -/
theorem aged_cancelUnsent (channel : ChannelRecord) (id : RequestId) :
    d.Aged (d.cancelUnsent topic channel id) := by
  refine aged_of_eq (by simp) ?_
  cases d.cancelUnsent_cases topic channel id with
  | leave pending hd hid hcancel =>
    rw [hcancel]
    exact (Emits.of_trace rfl).emitAll (by simp [Effect.LeavesBy])
  | push push hf hcancel =>
    rw [hcancel]
    refine (Emits.of_trace rfl).emitAll (push.forall_cancellation ?_ ?_)
    · simp [Effect.LeavesBy]
    · simp [Effect.LeavesBy]
  | nothing hd hq hcancel =>
    rw [hcancel]
    exact .refl _ d

/-- A cancellation discards a channel at most, and makes none. -/
theorem aged_cancel (id : RequestId) : d.Aged (d.cancel id) := by
  cases d.cancel_found id with
  | join topic channel hr hm hcancel =>
    rw [hcancel]
    have hemit : ∀ channel', d.Aged ((d.setRecord topic channel').emitAll [.cancelled .join id]) :=
      fun channel' => aged_of_eq rfl ⟨_, rfl, by simp [Effect.LeavesBy]⟩
    by_cases h : channel.joinWaiters.erase id = [] ∧ channel.everJoined = false
    · rw [cancelJoin_of_last h.1 h.2]
      have hforget : d.Aged (((d.setRecord topic (channel.abandoned id)).emitAll
          [.cancelled .join id]).forgetJoins topic) :=
        (hemit _).trans (aged_of_eq rfl (.of_trace rfl))
      exact hforget.trans (aged_discardChannel ..)
    · rw [cancelJoin_of_others h]
      exact hemit _
  | unsent topic channel hr hm hcancel =>
    rw [hcancel]
    exact aged_cancelUnsent ..
  | pending hj hq hcancel =>
    rw [hcancel]
    exact ((aged_cancelCall d id).trans (aged_cancelPing ..)).trans (aged_cancelLeave ..)

/-- The leave of a dropped handle carries the channel's own join reference. -/
theorem aged_handleConnectedLifecycle (command : LifecycleCommand) :
    d.Aged (d.handleConnectedLifecycle env command).1 := by
  cases command with
  | register topic =>
    refine aged_of_eq (by simp [handleConnectedLifecycle]) (.of_trace ?_)
    simp only [handleConnectedLifecycle, register]
    split <;> rfl
  | unregister topic => exact aged_unregisterConnected ..
  | cancel id => exact aged_cancel ..

theorem emits_accept {P : Effect → Prop} (h : ∀ operation id, P (.accepted operation id))
    (d : Driver) (command : Command) : d.Emits P (d.accept command) := by
  unfold accept
  split
  · exact (Emits.refl P d).emitAll fun effect hm => by
      cases List.mem_singleton.mp hm
      exact h ..
  · exact .refl P d

theorem aged_accept (command : Command) : d.Aged (d.accept command) :=
  aged_of_eq (by rw [accept_protocol]) (emits_accept (fun _ _ _ _ he => by cases he) d command)

theorem aged_queue (push : QueuedPush) : d.Aged (d.queue env topic push) := by
  refine aged_of_eq (by simp) ?_
  rcases queue_cases env d topic push with ⟨error, -, he⟩ | ⟨channel, -, -, -, he⟩
  · rw [he]
    exact (Emits.refl _ d).emitAll (List.forall_mem_singleton.mpr (Lenient.failure ..))
  · rw [he]
    exact .of_trace rfl

theorem aged_handlePush (push : QueuedPush) : d.Aged (d.handlePush env topic push).1 := by
  unfold handlePush
  split
  · exact aged_pushed (sendPush_pushed ..)
  · exact aged_queue ..

theorem aged_handlePing (id : RequestId) : d.Aged (d.handlePing env id).1 := by
  have htrack : d.Aged (d.trackPing id) := aged_of_eq rfl (.of_trace rfl)
  rw [handlePing_eq]
  exact aged_sendFrame env htrack _ fun he => absurd he heartbeat_ne_leave

/-- A join starts a load; the channel is made when that has its result. -/
theorem aged_handleJoin (id : RequestId) (timeout : Duration) :
    d.Aged (d.handleJoin id topic timeout) := by
  refine aged_of_eq (by simp) ?_
  have hfail : ∀ (d' : Driver) error, d'.trace = d.trace → d.Emits (Effect.LeavesBy d.state.protocol)
      (d'.emitAll [.answered .join id (.error error)]) := fun d' error ht =>
    (Emits.of_trace ht).emitAll fun effect hm => by
      cases List.mem_singleton.mp hm
      exact Lenient.failure ..
  unfold handleJoin
  cases d.record topic with
  | none => exact hfail d _ rfl
  | some channel =>
    dsimp only
    split
    · exact hfail _ _ rfl
    · exact Emits.loadPayload (.of_trace rfl)

/-- A leave carries the channel's own join reference. -/
theorem aged_handleLeave (id : RequestId) (timeout : Duration) :
    d.Aged (d.handleLeave env id topic timeout).1 := by
  have hstop : ∀ status, d.Aged ((d.setStatus topic status).stopChannel topic) := fun status =>
    aged_of_eq (by simp) (Emits.refl _ d).setStatus.stopChannel
  cases leave_handled env d id topic timeout with
  | sent channel hc hs he =>
    rw [he]
    exact (hstop _).trans (aged_sendLeave ..)
  | deferred channel hs hr he =>
    rw [he]
    exact (hstop _).trans (aged_of_eq rfl (.of_trace rfl))
  | idle hs hj he =>
    rw [he]
    refine (hstop _).trans (aged_of_eq rfl ((Emits.refl _ _).emitAll fun effect hm => ?_))
    cases List.mem_singleton.mp hm
    exact Lenient.leave ..

/-- No command makes a channel. -/
theorem aged_handleConnectedCommand (command : Command) :
    d.Aged (d.handleConnectedCommand env command).1 := by
  cases command with
  | connect | disconnect | subscribe | subscribeChannel _ | shutdown => exact .refl d
  | ping id => exact aged_handlePing ..
  | join id topic timeout => exact aged_handleJoin ..
  | call id topic event payload started => exact aged_handlePush ..
  | cast id topic event payload => exact aged_handlePush ..
  | leave id topic timeout => exact aged_handleLeave ..

/-- A heartbeat leaves the channels alone. -/
theorem aged_handleHeartbeat : d.Aged (d.handleHeartbeat env).1 := by
  by_cases h : d.connection.heartbeatReference.isSome = true
  · rw [handleHeartbeat_of_some h]
    exact .refl d
  · rw [handleHeartbeat_of_none h]
    have htrack : d.Aged d.trackHeartbeat := aged_of_eq rfl (.of_trace rfl)
    have hs : d.Aged (d.trackHeartbeat.sendFrame env []
        ⟨none, some d.state.protocol.nextText, "phoenix", "heartbeat", .emptyObject⟩).1 :=
      aged_sendFrame env htrack _ fun he => absurd he heartbeat_ne_leave
    rcases hsend : d.trackHeartbeat.sendFrame env []
      ⟨none, some d.state.protocol.nextText, "phoenix", "heartbeat", .emptyObject⟩ with ⟨d', _ | reason⟩
    · rw [hsend] at hs
      exact hs.trans (aged_of_eq rfl (.of_trace rfl))
    · rw [hsend] at hs
      exact hs

/-- A rejoin that comes due starts a load. -/
theorem aged_handleRejoin : d.Aged (d.handleRejoin topic) := by
  refine aged_of_eq (by simp) ?_
  unfold handleRejoin
  cases d.record topic with
  | none => exact .refl _ d
  | some channel =>
    dsimp only
    split
    · exact Emits.loadPayload (.of_trace rfl)
    · exact .of_trace rfl

/-- The channel is discarded, and none is made. -/
theorem aged_joinTimedOut (duration : Duration) : d.Aged (d.joinTimedOut env topic duration) := by
  refine (aged_discardChannel d topic).trans (aged_of_eq (by simp) ?_)
  have hset : ∀ channel, (d.discardChannel topic).Emits
      (Effect.LeavesBy (d.discardChannel topic).state.protocol)
      ((d.discardChannel topic).setRecord topic channel) := fun _ => .of_trace rfl
  cases hr : d.record topic with
  | none =>
    rw [joinTimedOut_of_none hr]
    exact .refl _ _
  | some channel =>
    cases hp : channel.deferredLeave with
    | some pending =>
      rw [joinTimedOut_of_deferred hr hp]
      exact (hset _).answerLeave
    | none =>
      cases hd : channel.desired with
      | true =>
        rw [joinTimedOut_of_wanted hr hp hd]
        exact (hset _).failAll.scheduleRejoin
      | false =>
        rw [joinTimedOut_of_unwanted hr hp hd]
        exact hset _

/-- The channel is discarded, and none is made. -/
theorem aged_leaveTimedOut (pending : PendingLeave) (duration : Duration) :
    d.Aged (d.leaveTimedOut topic pending duration) := by
  have hanswer : d.Aged (d.answerLeave (some pending) (.error (.timeout .leave duration))) :=
    aged_of_eq (by simp) (Emits.refl _ d).answerLeave
  have hdiscard := hanswer.trans (aged_discardChannel _ topic)
  cases hr : d.record topic with
  | none =>
    rw [leaveTimedOut_of_none hr]
    exact hdiscard
  | some channel =>
    rw [leaveTimedOut_of_some hr]
    dsimp only
    split
    · exact hdiscard.trans (aged_of_eq (by simp) (Emits.refl _ _).setStatus.loadPayload)
    · exact hdiscard.trans (aged_of_eq (by simp) (Emits.refl _ _).setStatus)

/-- A deadline discards a channel at most. -/
theorem aged_handleOperationTimeout (operation : OperationTimeout) :
    d.Aged (d.handleOperationTimeout env operation) := by
  cases operation with
  | join topic reference duration =>
    have herase : d.Aged (d.eraseJoin reference) := aged_of_eq rfl (.of_trace rfl)
    simp only [handleOperationTimeout]
    split
    · exact herase.trans (aged_joinTimedOut ..)
    · exact herase
  | leave topic reference duration =>
    simp only [handleOperationTimeout]
    split
    · exact .refl d
    · have herase : d.Aged (d.eraseLeave reference) := aged_of_eq rfl (.of_trace rfl)
      exact herase.trans (aged_leaveTimedOut ..)

end

/-! ### Incoming frames and disconnects

No frame starts a generation. A lost connection ends them all. -/

section
variable (env : Env) (d : Driver) (topic : Topic)

/-- A leave that was put off goes out under the reference that the reply confirmed. -/
theorem aged_onJoined (reference : Reference) (response : Payload) :
    d.Aged (d.onJoined env topic reference response).1 := by
  have herase : d.Aged (d.eraseJoin reference) := aged_of_eq rfl (.of_trace rfl)
  cases hr : d.record topic with
  | none =>
    rw [onJoined_of_none hr]
    have hreport : d.Aged ((d.eraseJoin reference).emitChannel topic
        (.protocol (.joined topic reference response))) :=
      herase.trans (aged_of_eq (by simp) (Emits.refl _ _).emitChannel)
    exact hreport.trans (aged_pushed (flush_pushed ..))
  | some channel =>
    have hwelcome : d.Aged (d.welcome topic reference response channel) := by
      refine aged_of_eq (by simp [welcome]) (Emits.emitChannel ?_)
      refine (Emits.of_trace rfl).emitAll fun effect hm served frame he => ?_
      obtain ⟨id, -, rfl⟩ := List.mem_map.mp hm
      cases he
    cases hp : channel.deferredLeave with
    | none =>
      rw [onJoined_of_not_deferred hr hp]
      exact hwelcome.trans (aged_pushed (flush_pushed ..))
    | some pending =>
      rw [onJoined_of_deferred hr hp]
      exact hwelcome.trans (aged_sendLeave ..)

/-- The next generation begins with the rejoin, not yet here. -/
theorem aged_onJoinError (reference : Reference) (response : Payload) :
    d.Aged (d.onJoinError env topic reference response) := by
  refine aged_of_eq (by simp) ?_
  cases hr : d.record topic with
  | none =>
    rw [onJoinError_of_none hr]
    exact Emits.emitChannel (.of_trace rfl)
  | some channel =>
    rw [onJoinError_of_some hr]
    have hrefused : d.Emits (Effect.LeavesBy d.state.protocol)
        ((d.eraseJoin reference).setRecord topic channel.refused) := .of_trace rfl
    refine (hrefused.emitAll fun effect hm => ?_).emitChannel.scheduleRejoin
    rcases List.mem_append.mp hm with hm | hm
    · obtain ⟨leave, -, -, rfl⟩ := mem_leaveAnswers hm
      exact Lenient.leave ..
    · obtain ⟨id, -, rfl⟩ := List.mem_map.mp hm
      exact Lenient.failure ..

/-- A reply leaves the channels alone. -/
theorem aged_onReply (event : String) (reference : Reference) (status : ReplyStatus)
    (response : Payload) : d.Aged (d.onReply topic event reference status response) := by
  refine aged_of_eq (by simp) ?_
  cases hc : d.state.pendingCalls[reference]? with
  | none =>
    rw [onReply_of_none hc]
    exact (Emits.refl _ d).emitChannel
  | some call =>
    rw [onReply_of_some hc]
    refine Emits.emitChannel (Emits.emitAll (.of_trace rfl) fun effect hm served frame he => ?_)
    subst he
    simp at hm

/-- The next generation begins with the load, not yet here. -/
theorem aged_onLeft (reference : Reference) (response : Payload) :
    d.Aged (d.onLeft topic reference response) := by
  have hsettled : d.Emits (Effect.LeavesBy d.state.protocol) (d.leaveSettled reference response) := by
    refine Emits.emitAll (.of_trace rfl) fun effect hm => ?_
    obtain ⟨leave, -, -, rfl⟩ := mem_leaveAnswers hm
    exact Lenient.leave ..
  refine aged_of_eq (by simp) ?_
  cases hr : d.record topic with
  | none =>
    rw [onLeft_of_none hr]
    exact hsettled.emitChannel
  | some channel =>
    rw [onLeft_of_some hr]
    split
    · exact hsettled.setRecord.emitChannel.loadPayload
    · exact hsettled.setRecord.emitChannel

/-- An acknowledgement leaves the channels alone. -/
theorem aged_onHeartbeatAck (reference : Reference) : d.Aged (d.onHeartbeatAck reference) := by
  refine aged_of_eq (by simp) ?_
  unfold onHeartbeatAck
  split
  · exact .of_trace rfl
  · split
    · exact .refl _ d
    · refine Emits.emitAll (.of_trace rfl) fun effect hm served frame he => ?_
      subst he
      simp at hm

theorem aged_onChannelError (payload : Payload) : d.Aged (d.onChannelError env topic payload) := by
  have hforget : d.Emits (Effect.LeavesBy d.state.protocol) (d.forgetJoins topic) := .of_trace rfl
  exact aged_of_eq (by simp) hforget.setStatus.emitChannel.scheduleRejoin

theorem aged_onChannelClosed (payload : Payload) : d.Aged (d.onChannelClosed topic payload) := by
  have hforget : d.Emits (Effect.LeavesBy d.state.protocol) (d.forgetJoins topic) := .of_trace rfl
  refine aged_of_eq (by simp) ?_
  unfold onChannelClosed
  dsimp only
  split
  · exact hforget.setRecord.emitChannel.stopChannel
  · exact hforget.emitChannel.stopChannel

/-- No event of the server makes a channel. -/
theorem aged_handleEvent (event : ProtocolEvent) : d.Aged (d.handleEvent env event).1 := by
  cases event with
  | joined topic reference response => exact aged_onJoined ..
  | joinError topic reference response => exact aged_onJoinError ..
  | reply topic name reference status response => exact aged_onReply ..
  | left topic reference response => exact aged_onLeft ..
  | heartbeatAck reference status => exact aged_onHeartbeatAck ..
  | channelError topic payload => exact aged_onChannelError ..
  | channelClosed topic payload => exact aged_onChannelClosed ..
  | message frame | staleMessage frame | unmatchedReply frame =>
    exact aged_of_eq (by simp [handleEvent]) (Emits.refl _ d).emitChannel
  | requestInterrupted topic name reference =>
    exact aged_of_eq (by simp [handleEvent]) (Emits.refl _ d).emitChannel

/-- No message makes a channel, whatever it means. -/
theorem aged_onMessage (message : WireMessage) : d.Aged (d.onMessage env message).1 := by
  have hframe : ∀ (d : Driver) (frame : Frame), d.Aged (d.handleFrame env frame).1 := by
    intro d frame
    have hr := aged_receive d frame
    unfold handleFrame
    split
    · rename_i h
      rw [h] at hr
      exact hr
    · rename_i h
      rw [h] at hr
      exact hr.trans (aged_handleEvent ..)
  have hincoming : d.Aged (d.handleIncoming env message).1 := by
    unfold handleIncoming
    split
    · exact .refl d
    · have hreport : ∀ event, d.Aged (d.telemetry event) := fun event =>
        aged_of_eq rfl ((Emits.refl _ d).emitAll fun effect hm => by
          cases List.mem_singleton.mp hm
          exact Lenient.report _ trivial)
      exact (hreport _).trans (hframe ..)
  unfold onMessage
  dsimp only
  rcases hi : d.handleIncoming env message with ⟨d', _ | reason⟩
  · rw [hi] at hincoming
    simp only [Result.andThen]
    split
    · exact hincoming.trans (aged_of_eq rfl (.of_trace rfl))
    · exact hincoming
  · rw [hi] at hincoming
    exact hincoming

/-- A lost connection sends nothing. -/
theorem aged_onDisconnect (reason : DisconnectReason) : d.Aged (d.onDisconnect reason) := by
  refine ⟨fun t c' hc => ?_, ?_⟩
  · rw [onDisconnect_protocol] at hc
    obtain ⟨c, hold, rfl⟩ := Table.lookup_of_map hc
    exact ⟨c, hold, rfl⟩
  · obtain ⟨reports, hr, he⟩ := onDisconnect_eq d reason
    rw [he]
    refine Emits.emitAll (.of_trace rfl) fun effect hm served frame hs => ?_
    subst hs
    rcases List.mem_append.mp hm with hm | hm
    · simp [interruptions] at hm
    · cases hr _ hm

theorem aged_emitSocket (event : SocketEvent) : d.Aged (d.emitSocket event) :=
  aged_of_eq rfl ((Emits.refl _ d).emitSocket (Lenient.report _ trivial) (Lenient.report _ trivial))

theorem aged_afterFailure (reason : DisconnectReason) : d.Aged (d.afterFailure env reason) := by
  unfold afterFailure
  dsimp only
  have hattempt : d.Aged { d with attempt := nextAttempt d.attempt } :=
    aged_of_eq rfl (.of_trace rfl)
  split
  · exact (hattempt.trans (aged_emitSocket ..)).trans (aged_of_eq rfl (.of_trace rfl))
  · exact (hattempt.trans (aged_emitSocket ..)).trans (aged_of_eq rfl (.of_trace rfl))

theorem aged_settle {d : Driver} {r : Result} (h : d.Aged r.1) : d.Aged (settle env r) := by
  rcases r with ⟨d', _ | reason⟩
  · exact h
  · exact (h.trans (aged_onDisconnect ..)).trans (aged_afterFailure ..)

end

/-! ### Steps

A payload result joins an inactive channel only, and nothing else joins one, so the generation of an
active channel is never replaced. -/

section
variable {env : Env} {d d' d'' : Driver} {t : Topic} {r : Reference}

/-- A leave of the topic that is sent carries the join reference. -/
def LeavesUnder (t : Topic) (r : Reference) (effect : Effect) : Prop :=
  ∀ served frame, effect = .outgoing served frame → frame.topic = t → frame.event = "phx_leave" →
    frame.joinRef = some r

instance (t : Topic) (r : Reference) : Lenient (LeavesUnder t r) where
  report effect h served frame he := by
    subst he
    cases h
  failure _ _ _ _ _ he := by cases he
  leave _ _ _ _ he := by cases he
  load _ _ _ _ _ _ he := by cases he

/-- From `d` to `d'` the topic's generation is not replaced, and a leave is sent for it only. -/
structure SameGeneration (t : Topic) (r : Reference) (d d' : Driver) : Prop where
  channel : ∀ c' : Channel, d'.state.protocol.channels[t]? = some c' → c'.joinRef = r
  leaves : d.Emits (LeavesUnder t r) d'

/-- A handler that makes no channel leaves the topic with the generation it had, or without a channel. -/
theorem Aged.sameGeneration (h : d.Aged d')
    (hc : ∀ c : Channel, d.state.protocol.channels[t]? = some c → c.joinRef = r) :
    SameGeneration t r d d' where
  channel c' hc' := by
    obtain ⟨c, hold, he⟩ := h.channels t c' hc'
    rw [← he]
    exact hc c hold
  leaves := h.leaves.mono fun effect he served frame hs ht hv => by
    obtain ⟨c, hold, hj⟩ := he served frame hs hv
    rw [ht] at hold
    rw [hj, hc c hold]

theorem SameGeneration.trans (h : SameGeneration t r d d') (h' : SameGeneration t r d' d'') :
    SameGeneration t r d d'' := ⟨h'.channel, h.leaves.trans h'.leaves⟩

theorem SameGeneration.aged (h : SameGeneration t r d d') (h' : d'.Aged d'') :
    SameGeneration t r d d'' := h.trans (h'.sameGeneration h.channel)

/-- A join of another topic. -/
theorem sameGeneration_startJoin {d₁ : Driver} {topic : Topic} {params : Value}
    {channel : ChannelRecord} (hd : d₁ = d ∨ d₁ = d.discardChannel topic) (hne : t ≠ topic)
    (hs : d₁.state.protocol.channelState topic = none)
    (hc : ∀ c : Channel, d.state.protocol.channels[t]? = some c → c.joinRef = r)
    (served : List RequestId) (reference : Reference) :
    SameGeneration t r d ((d₁.trackJoin topic params channel).sendFrame env served
      ⟨some reference, some reference, topic, "phx_join", .json params⟩).1 := by
  have hd₁ : d.Aged d₁ := by
    rcases hd with rfl | rfl
    · exact .refl d₁
    · exact aged_discardChannel ..
  have hold : SameGeneration t r d d₁ := hd₁.sameGeneration hc
  refine ⟨fun c' hc' => ?_, ?_⟩
  · have hp : (d₁.trackJoin topic params channel).state.protocol =
        (d₁.state.protocol.join topic params).2 := rfl
    rw [sendFrame_state, hp, Protocol.join_of_unknown hs, Table.lookup_insert, if_neg hne] at hc'
    exact hold.channel c' hc'
  · refine Emits.sendFrame (hold.leaves.silent (by rfl)) fun served' frame he ht _ => ?_
    cases he
    exact absurd ht.symm hne

/-- A payload starts a join of an inactive channel only. -/
theorem sameGeneration_payload {topic : Topic} {payloadId : UInt64} {result : Except String Value}
    (ha : d.Active t) (hc : ∀ c : Channel, d.state.protocol.channels[t]? = some c → c.joinRef = r) :
    SameGeneration t r d
      ((d.takePayload topic payloadId).handlePayload env topic payloadId result).1 := by
  have haged : ∀ {d' : Driver}, d.Aged d' → SameGeneration t r d d' := fun h => h.sameGeneration hc
  have htake : d.Aged (d.takePayload topic payloadId) := aged_of_eq rfl (.of_trace rfl)
  have hset : ∀ channel, d.Aged ((d.takePayload topic payloadId).setRecord topic channel) :=
    fun _ => aged_of_eq rfl (.of_trace rfl)
  cases payload_handled env (d.takePayload topic payloadId) topic payloadId result with
  | ignored h he =>
    rw [he]
    exact haged htake
  | late channel hr hactive h he =>
    rw [he]
    exact haged (hset _)
  | failed message channel hp hr hactive he =>
    rw [he]
    refine haged ((hset { channel.loaded with
      desired := false, status := .errored, joinWaiters := [] }).trans (aged_of_eq (by simp) ?_))
    exact (Emits.refl _ _).failAll.emitChannel
  | joined value channel d₁ hp hr hactive hd hs hd₁ hs₁ he =>
    rw [he]
    have hne : t ≠ topic := by
      rintro rfl
      exact hs ha
    exact (haged htake).trans (sameGeneration_startJoin (hd₁.imp_right And.right) hne hs₁ hc ..)

/-- **A step of the connected loop replaces the generation of no active channel**, and sends a
leave for that generation only. -/
theorem sameGeneration_connectedStep {input : Input} (ha : d.Active t)
    (hc : ∀ c : Channel, d.state.protocol.channels[t]? = some c → c.joinRef = r)
    (hs : ConnectedStep env d input d') : SameGeneration t r d d' := by
  have haged : ∀ {d' : Driver}, d.Aged d' → SameGeneration t r d d' := fun h => h.sameGeneration hc
  have hack : ∀ d : Driver, d.Aged d.acknowledge := fun d =>
    aged_of_eq rfl ⟨_, rfl, fun effect hm served frame he => by
      subst he
      simp at hm⟩
  cases hs with
  | lifecycle command => exact haged (aged_settle env (aged_handleConnectedLifecycle ..))
  | command command =>
    exact haged (aged_settle env ((aged_accept ..).trans (aged_handleConnectedCommand ..)))
  | acknowledge => exact haged (hack d)
  | disconnect =>
    have hdisconnect := (aged_onDisconnect d .requested).trans (hack _)
    exact haged (hdisconnect.trans (aged_of_eq rfl (.of_trace rfl)))
  | close =>
    exact haged ((hack d).trans ((aged_emitSocket ..).trans (aged_of_eq rfl (.of_trace rfl))))
  | lost input hi reason => exact haged (aged_settle env (.refl d))
  | message message => exact haged (aged_settle env (aged_onMessage ..))
  | heartbeat => exact haged (aged_settle env (aged_handleHeartbeat ..))
  | payload topic payloadId result hm =>
    exact (sameGeneration_payload ha hc).aged (aged_settle env (.refl _))
  | rejoin timer hm =>
    have htake : d.Aged (d.takeRejoin timer) := aged_of_eq rfl (.of_trace rfl)
    exact haged (htake.trans (aged_handleRejoin ..))
  | operationTimeout timer hm =>
    have htake : d.Aged (d.takeOperationTimeout timer) := aged_of_eq rfl (.of_trace rfl)
    exact haged (htake.trans (aged_handleOperationTimeout ..))

end

end Driver
end PhoenixChannel.Client
