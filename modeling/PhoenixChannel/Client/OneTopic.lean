import PhoenixChannel.Client.Apart

/-! Every handler works on one topic.

A command, a payload result or a timer names its topic, and a frame the topic of its event.
A ping and the driver's own heartbeat go out under the topic `phoenix`. -/
namespace PhoenixChannel.Client
open PhoenixChannel.Runtime Library
open Protocol (Move Moves)

namespace Driver

/-! ### Commands

A command writes its topic's record and sends under a new reference. -/

section
variable (env : Env) (d : Driver) (topic : Topic)

theorem Apart.unregister {d d' : Driver} {topic : Topic} (h : Apart topic d d') :
    Apart topic d (d'.unregister topic) :=
  h.stopChannel.eraseRecord.discardChannel

theorem apart_accept (command : Command) : Apart topic d (d.accept command) := by
  unfold accept
  split
  · exact (Apart.refl topic d).emitAll (by simp [Effect.SentFor])
  · exact .refl topic d

/-- A dropped handle leaves its own channel. -/
theorem apart_unregisterConnected : Apart topic d (d.unregisterConnected env topic).1 := by
  by_cases hj : d.state.protocol.channelState topic = some .joined
  · obtain ⟨channel, hc, hs⟩ := Option.map_eq_some_iff.mp hj
    rw [unregisterConnected_of_joined hc hs]
    -- the leave's request is discarded with the channel
    have hleave : Apart topic d (d.setProtocol (d.state.protocol.leave topic).2) := by
      have hm : d.Moved (d.setProtocol (d.state.protocol.leave topic).2) :=
        moved_of_move (.leave topic)
      have hp := congrArg Prod.snd (Protocol.leave_of_joined hc hs)
      refine .tracked (x := .leave topic) rfl (fun _ _ => rfl) (fun t ht => ?_) (.of_trace rfl) hm
        (by rw [setProtocol_protocol, hp]) (by rw [setProtocol_protocol, hp]) (by simp [Pending.topic?])
        (fun _ _ => ⟨rfl, rfl, rfl, rfl⟩) fun t => ⟨.inl, fun _ h _ => .inl h, fun _ h _ => .inl h⟩
      rw [setProtocol_protocol, hp, Table.lookup_insert, if_neg ht]
    exact hleave.unregister.sendFrame rfl
  · rw [unregisterConnected_of_not_joined hj]
    exact (Apart.refl topic d).unregister

theorem apart_handlePing (id : RequestId) : Apart "phoenix" d (d.handlePing env id).1 := by
  rw [handlePing_eq]
  have htrack : Apart "phoenix" d (d.trackPing id) :=
    apart_heartbeat "phoenix" rfl rfl rfl rfl rfl rfl rfl rfl
  exact htrack.sendFrame rfl

/-- A join writes the record of its topic. -/
theorem apart_handleJoin (id : RequestId) (timeout : Duration) :
    Apart topic d (d.handleJoin id topic timeout) := by
  unfold handleJoin
  cases d.record topic with
  | none => exact (Apart.refl topic d).answer
  | some channel =>
    dsimp only
    split
    · exact (Apart.refl topic d).setRecord.answer
    · exact (Apart.refl topic d).setRecord.loadPayload

theorem apart_handlePush (push : QueuedPush) : Apart topic d (d.handlePush env topic push).1 := by
  unfold handlePush
  split
  · exact apart_sendPush env d topic push
  · exact (Apart.refl topic d).queue

/-- A leave stops the channel of its topic. -/
theorem apart_handleLeave (id : RequestId) (timeout : Duration) :
    Apart topic d (d.handleLeave env id topic timeout).1 := by
  have hstop : ∀ status, Apart topic d ((d.setStatus topic status).stopChannel topic) := fun _ =>
    (Apart.refl topic d).setStatus.stopChannel
  cases leave_handled env d id topic timeout with
  | sent channel hc hs he =>
    rw [he]
    exact (hstop _).trans (apart_sendLeave env _ topic _)
  | deferred channel hs hr he =>
    rw [he]
    exact (hstop _).setRecord
  | idle hs hj he =>
    rw [he]
    exact (hstop _).answer

end

/-! ### Payload results and timers

The list a result or a timer is taken from is the connection's, and not part of what a topic has. -/

section
variable (env : Env) (d : Driver) (topic : Topic)

theorem apart_takePayload (payloadId : UInt64) : Apart topic d (d.takePayload topic payloadId) :=
  .of_record rfl (fun _ _ => rfl) rfl rfl rfl rfl rfl (.of_trace rfl)

theorem apart_takeRejoin (timer : Timer Topic) : Apart topic d (d.takeRejoin timer) :=
  .of_record rfl (fun _ _ => rfl) rfl rfl rfl rfl rfl (.of_trace rfl)

/-- The result of a load names its topic. -/
theorem apart_handlePayload (payloadId : UInt64) (payload : Except String Value) :
    Apart topic d (d.handlePayload env topic payloadId payload).1 := by
  cases payload_handled env d topic payloadId payload with
  | ignored h he =>
    rw [he]
    exact .refl topic d
  | late channel hr ha h he =>
    rw [he]
    exact (Apart.refl topic d).setRecord
  | failed message channel hp hr ha he =>
    rw [he]
    exact (Apart.refl topic d).setRecord.answers.emitChannel
  | joined value channel d₁ hp hr ha hd hs hd₁ hs₁ he =>
    rw [he]
    have hdiscard : Apart topic d d₁ := by
      rcases hd₁ with rfl | ⟨-, rfl⟩
      · exact .refl topic d₁
      · exact (Apart.refl topic d).discardChannel
    exact (hdiscard.trans (apart_trackJoin hs₁)).sendFrame rfl

/-- A rejoin names its topic. -/
theorem apart_handleRejoin : Apart topic d (d.handleRejoin topic) := by
  unfold handleRejoin
  cases d.record topic with
  | none => exact .refl topic d
  | some channel =>
    dsimp only
    split
    · exact (Apart.refl topic d).setRecord.loadPayload
    · exact (Apart.refl topic d).setRecord

variable {d topic}

/-- The channel that is discarded is the topic's. -/
theorem Apart.joinTimedOut {d' : Driver} (h : Apart topic d d') {duration : Duration} :
    Apart topic d (d'.joinTimedOut env topic duration) := by
  have hdiscard : Apart topic d (d'.discardChannel topic) := h.discardChannel
  unfold Driver.joinTimedOut
  dsimp only
  split
  · exact hdiscard
  · split
    · exact hdiscard.setRecord.answerLeave
    split
    · exact hdiscard.setRecord.answers.scheduleRejoin
    · exact hdiscard.setRecord

/-- The channel that is discarded is the topic's. -/
theorem Apart.leaveTimedOut {d' : Driver} (h : Apart topic d d') {pending : PendingLeave}
    {duration : Duration} : Apart topic d (d'.leaveTimedOut topic pending duration) := by
  have hdiscard : Apart topic d
      ((d'.answerLeave (some pending) (.error (.timeout .leave duration))).discardChannel topic) :=
    h.answerLeave.discardChannel
  unfold Driver.leaveTimedOut
  dsimp only
  split
  · exact hdiscard
  · split
    · exact hdiscard.setStatus.loadPayload
    · exact hdiscard.setStatus

/-- A deadline that passed, and what was held under its reference. -/
theorem apart_takeOperationTimeout {timer : Timer OperationTimeout}
    (hm : timer ∈ d.connection.operationTimeouts) :
    Apart timer.value.topic d
        ((d.takeOperationTimeout timer).eraseJoin timer.value.reference) ∧
      Apart timer.value.topic d
        ((d.takeOperationTimeout timer).eraseLeave timer.value.reference) ∧
      Apart timer.value.topic d (d.takeOperationTimeout timer) := by
  have hown : (d.entry timer.value.reference).Of timer.value.topic :=
    .deadline timer (List.mem_filter.mpr ⟨hm, decide_eq_true rfl⟩) rfl
  have hsub : ∀ r, (d.connection.operationTimeouts.erase timer).filter (·.value.reference = r) ⊆
      d.connection.operationTimeouts.filter (·.value.reference = r) := fun r =>
    (List.erase_sublist.filter _).subset
  have hother : ∀ r, r ≠ timer.value.reference →
      (d.connection.operationTimeouts.erase timer).filter (·.value.reference = r) =
        d.connection.operationTimeouts.filter (·.value.reference = r) := by
    intro r hne
    rw [← List.erase_filter, List.erase_of_not_mem]
    intro hm
    exact hne (of_decide_eq_true (List.mem_filter.mp hm).2).symm
  refine ⟨?_, ?_, ?_⟩
  · refine .settled (r := timer.value.reference) rfl rfl (fun _ _ => rfl) (.of_trace rfl)
      (moved_of_eq rfl) hown (fun r hne => ?_) ⟨.inr rfl, .inl ?_, .inr rfl, hsub _⟩
    · simp only [entry, takeOperationTimeout, eraseJoin, Table.lookup_erase, if_neg hne, hother r hne]
    · simp only [entry, eraseJoin, Table.lookup_erase, if_true]
  · refine .settled (r := timer.value.reference) rfl rfl (fun _ _ => rfl) (.of_trace rfl)
      (moved_of_eq rfl) hown (fun r hne => ?_) ⟨.inr rfl, .inr rfl, .inr rfl, hsub _⟩
    simp only [entry, takeOperationTimeout, eraseLeave, Table.lookup_erase, if_neg hne, hother r hne]
  · refine .settled (r := timer.value.reference) rfl rfl (fun _ _ => rfl) (.of_trace rfl)
      (moved_of_eq rfl) hown (fun r hne => ?_) ⟨.inr rfl, .inr rfl, .inr rfl, hsub _⟩
    simp only [entry, takeOperationTimeout, hother r hne]

/-- A deadline's reference is its topic's, as references in use are. -/
theorem apart_operationTimeout {timer : Timer OperationTimeout}
    (hm : timer ∈ d.connection.operationTimeouts) :
    Apart timer.value.topic d
      ((d.takeOperationTimeout timer).handleOperationTimeout env timer.value) := by
  obtain ⟨hjoin, hleave, htake⟩ := apart_takeOperationTimeout hm
  cases hv : timer.value with
  | join topic reference duration =>
    rw [hv] at hjoin
    simp only [handleOperationTimeout]
    split
    · exact hjoin.joinTimedOut env
    · exact hjoin
  | leave topic reference duration =>
    rw [hv] at hleave htake
    simp only [handleOperationTimeout]
    split
    · exact htake
    · exact hleave.leaveTimedOut

end

/-! ### Frames

The event that the protocol makes of a frame names the frame's topic. What was pending under its
reference was the topic's own. -/

section
variable {env : Env} {d : Driver} {topic : Topic} {reference : Reference} {response : Payload}
  {frame : Frame} {p : Protocol}

theorem setState_other (channels : Table Topic Channel) {t : Topic} (state : ChannelState)
    (ht : t ≠ topic) : (Protocol.setState channels topic state)[t]? = channels[t]? := by
  rw [Protocol.lookup_setState, if_neg ht]

/-- A join that a reply settled. -/
theorem apart_joinSettled {state : ChannelState}
    (hm : Move d.state.protocol p) (hp : d.state.protocol.pending[reference]? = some (.join topic))
    (he : p = { d.state.protocol with
      channels := Protocol.setState d.state.protocol.channels topic state
      pending := d.state.protocol.pending.erase reference }) :
    Apart topic d ((d.setProtocol p).eraseJoin reference) := by
  refine .resolved (p := p) hm hp rfl (by rw [he]) (fun t ht => ?_) rfl rfl rfl rfl (.of_trace rfl)
    (.inr rfl) (.inl rfl) (.inl rfl)
  rw [he]
  exact setState_other _ _ ht

theorem receive_move (hrec : d.state.protocol.receive frame = (.ok event, p)) :
    Move d.state.protocol p := by
  have hm := Move.receive (p := d.state.protocol) frame
  rwa [hrec] at hm

/-- The reply names the topic that its join was sent for. -/
theorem apart_joined
    (hrec : d.state.protocol.receive frame = (.ok (.joined topic reference response), p)) :
    Apart topic d ((d.setProtocol p).onJoined env topic reference response).1 := by
  obtain ⟨hp, he⟩ := Protocol.receive_explains hrec
  have hsettle := apart_joinSettled (receive_move hrec) hp he
  cases hr : (d.setProtocol p).record topic with
  | none =>
    rw [onJoined_of_none hr]
    exact hsettle.emitChannel.trans (apart_flush ..)
  | some channel =>
    have hwelcome : Apart topic d ((d.setProtocol p).welcome topic reference response channel) :=
      hsettle.setRecord.answers.emitChannel
    cases hl : channel.deferredLeave with
    | none =>
      rw [onJoined_of_not_deferred hr hl]
      exact hwelcome.trans (apart_flush ..)
    | some pending =>
      rw [onJoined_of_deferred hr hl]
      exact hwelcome.trans (apart_sendLeave ..)

theorem Apart.leaveAnswers {d' : Driver} (h : Apart topic d d') {pending : Option PendingLeave}
    {result : Except ClientError Success} :
    Apart topic d (d'.emitAll (leaveAnswers pending result)) := by
  rw [← answerLeave_eq]
  exact h.answerLeave

/-- The reply names the topic that its join was sent for. -/
theorem apart_joinError
    (hrec : d.state.protocol.receive frame = (.ok (.joinError topic reference response), p)) :
    Apart topic d ((d.setProtocol p).onJoinError env topic reference response) := by
  obtain ⟨hp, he⟩ := Protocol.receive_explains hrec
  have hsettle := apart_joinSettled (receive_move hrec) hp he
  cases hr : (d.setProtocol p).record topic with
  | none =>
    rw [onJoinError_of_none hr]
    exact hsettle.emitChannel
  | some channel =>
    rw [onJoinError_of_some hr, refusals, ← emitAll_emitAll]
    exact hsettle.setRecord.leaveAnswers.answers.emitChannel.scheduleRejoin

/-- The reply names the topic that its leave was sent for. -/
theorem apart_left
    (hrec : d.state.protocol.receive frame = (.ok (.left topic reference response), p)) :
    Apart topic d ((d.setProtocol p).onLeft topic reference response) := by
  obtain ⟨hp, he⟩ := Protocol.receive_explains hrec
  have herase : Apart topic d ((d.setProtocol p).eraseLeave reference) := by
    refine .resolved (p := p) (receive_move hrec) hp rfl (by rw [he]) (fun t ht => ?_) rfl rfl rfl rfl
      (.of_trace rfl) (.inl rfl) (.inl rfl) (.inr rfl)
    rw [he, Table.lookup_erase, if_neg ht]
  have hsettle : Apart topic d ((d.setProtocol p).leaveSettled reference response) :=
    herase.leaveAnswers
  cases hr : (d.setProtocol p).record topic with
  | none =>
    rw [onLeft_of_none hr]
    exact hsettle.emitChannel
  | some channel =>
    rw [onLeft_of_some hr]
    split
    · exact hsettle.setRecord.emitChannel.loadPayload
    · exact hsettle.setRecord.emitChannel

/-- The call under the reply's reference is one of the topic that the push was sent on. -/
theorem apart_reply {event : String} {status : ReplyStatus}
    (hrec : d.state.protocol.receive frame = (.ok (.reply topic event reference status response), p)) :
    Apart topic d ((d.setProtocol p).onReply topic event reference status response) := by
  obtain ⟨-, -, hp, he⟩ := Protocol.receive_explains hrec
  have hchannel : ∀ t : Topic, t ≠ topic → p.channels[t]? = d.state.protocol.channels[t]? :=
    fun t _ => by rw [he]
  cases hc : (d.setProtocol p).state.pendingCalls[reference]? with
  | none =>
    rw [onReply_of_none hc]
    have hreceive : Apart topic d (d.setProtocol p) :=
      .resolved (p := p) (receive_move hrec) hp rfl (by rw [he]) hchannel rfl rfl rfl rfl
        (.of_trace rfl) (.inl rfl) (.inl rfl) (.inl rfl)
    exact hreceive.emitChannel
  | some call =>
    rw [onReply_of_some hc]
    have herase : Apart topic d { d.setProtocol p with
        state := { (d.setProtocol p).state with
          pendingCalls := d.state.pendingCalls.erase reference } } :=
      .resolved (p := p) (receive_move hrec) hp rfl (by rw [he]) hchannel rfl rfl rfl rfl
        (.of_trace rfl) (.inl rfl) (.inr rfl) (.inl rfl)
    exact (herase.emitAll (by simp [Effect.SentFor])).emitChannel

/-- A heartbeat that is no longer pending was under nobody's reference. -/
theorem entry_of_heartbeat {d' : Driver} (hp : d.state.protocol.pending[reference]? = some .heartbeat)
    (he : d'.state.protocol.pending = d.state.protocol.pending.erase reference)
    (hj : d'.state.pendingJoins = d.state.pendingJoins)
    (hc : d'.state.pendingCalls = d.state.pendingCalls)
    (hl : d'.state.pendingLeaves = d.state.pendingLeaves)
    (ho : d'.connection.operationTimeouts = d.connection.operationTimeouts) (r : Reference) :
    d'.entry r = d.entry r := by
  simp only [entry, he, hj, hc, hl, ho, Table.lookup_erase]
  by_cases hr : r = reference
  · rw [if_pos hr, hr, hp]
    rfl
  · rw [if_neg hr]

/-- A heartbeat's answer is nobody's. -/
theorem apart_heartbeatAck {status : ReplyStatus} (topic : Topic)
    (hrec : d.state.protocol.receive frame = (.ok (.heartbeatAck reference status), p)) :
    Apart topic d ((d.setProtocol p).onHeartbeatAck reference) := by
  obtain ⟨hp, he⟩ := Protocol.receive_explains hrec
  have hreceive : Apart topic d (d.setProtocol p) := by
    refine .of_requests rfl rfl (fun t _ => by rw [setProtocol_protocol, he]) (.of_trace rfl)
      (moved_of_move (receive_move hrec)) fun _ _ _ =>
        .of_entry (Move.grows (receive_move hrec))
          (entry_of_heartbeat hp (by rw [setProtocol_protocol, he]) rfl rfl rfl rfl)
  have hany : ∀ (d₁ d₂ : Driver), d₂.phase = d₁.phase → d₂.state.channels = d₁.state.channels →
      d₂.state.protocol = d₁.state.protocol → d₂.state.pendingJoins = d₁.state.pendingJoins →
      d₂.state.pendingCalls = d₁.state.pendingCalls →
      d₂.state.pendingLeaves = d₁.state.pendingLeaves →
      d₂.connection.operationTimeouts = d₁.connection.operationTimeouts → d₂.trace = d₁.trace →
      Apart topic d₁ d₂ := fun d₁ d₂ hph hr hp hj hc hl ho ht =>
    .of_record hph (fun t _ => by rw [record, record, hr]) hp hj hc hl ho (.of_trace ht)
  unfold onHeartbeatAck
  split
  · exact hreceive.trans (hany _ _ rfl rfl rfl rfl rfl rfl rfl rfl)
  split
  · exact hreceive
  · have herase : Apart topic d { d.setProtocol p with
        state := { (d.setProtocol p).state with
          pendingPings := (d.setProtocol p).state.pendingPings.erase reference } } :=
      hreceive.trans (hany _ _ rfl rfl rfl rfl rfl rfl rfl rfl)
    exact herase.emitAll (by simp [Effect.SentFor])

/-- An error or a close of a channel. -/
theorem apart_down {state : ChannelState} (hm : Move d.state.protocol p)
    (he : p = { d.state.protocol with
      channels := Protocol.setState d.state.protocol.channels topic state }) :
    Apart topic d (d.setProtocol p) := by
  refine .of_requests rfl rfl (fun t ht => ?_) (.of_trace rfl) (moved_of_move hm) fun _ _ _ =>
    .of_entry (Move.grows hm) fun r => ?_
  · rw [setProtocol_protocol, he]
    exact setState_other _ _ ht
  · rw [he]
    rfl

theorem apart_channelError {payload : Payload}
    (hrec : d.state.protocol.receive frame = (.ok (.channelError topic payload), p)) :
    Apart topic d ((d.setProtocol p).onChannelError env topic payload) := by
  obtain ⟨-, -, -, he⟩ := Protocol.receive_explains hrec
  exact (apart_down (receive_move hrec) he).forgetJoins.setStatus.emitChannel.scheduleRejoin

/-- A close names the topic that is closed. -/
theorem apart_channelClosed {payload : Payload}
    (hrec : d.state.protocol.receive frame = (.ok (.channelClosed topic payload), p)) :
    Apart topic d ((d.setProtocol p).onChannelClosed topic payload) := by
  obtain ⟨-, -, -, he⟩ := Protocol.receive_explains hrec
  have hforget := (apart_down (receive_move hrec) he).forgetJoins
  unfold onChannelClosed
  dsimp only
  split
  · exact hforget.setRecord.emitChannel.stopChannel
  · exact hforget.emitChannel.stopChannel

/-- The topic whose channel a protocol event is about. -/
def topicOf : ProtocolEvent → Topic
  | .joined topic _ _ | .joinError topic _ _ | .left topic _ _ | .reply topic _ _ _ _
  | .channelClosed topic _ | .channelError topic _ | .requestInterrupted topic _ _ => topic
  | .message frame | .staleMessage frame | .unmatchedReply frame => frame.topic
  | .heartbeatAck _ _ => "phoenix"

/-- One case for each event that a frame can mean. -/
theorem apart_handleEvent {event : ProtocolEvent}
    (hrec : d.state.protocol.receive frame = (.ok event, p)) :
    Apart (topicOf event) d ((d.setProtocol p).handleEvent env event).1 := by
  cases event with
  | joined topic reference response => exact apart_joined hrec
  | joinError topic reference response => exact apart_joinError hrec
  | reply topic name reference status response => exact apart_reply hrec
  | left topic reference response => exact apart_left hrec
  | heartbeatAck reference status => exact apart_heartbeatAck _ hrec
  | channelError topic payload => exact apart_channelError hrec
  | channelClosed topic payload => exact apart_channelClosed hrec
  | message frame | staleMessage frame | unmatchedReply frame =>
    have he := Protocol.receive_explains hrec
    cases he
    exact (Apart.refl _ d).emitChannel
  | requestInterrupted topic name reference => cases Protocol.receive_explains hrec

end

/-! ### Heartbeats

A heartbeat frame has the topic `phoenix`, whoever asked for it, and no channel is touched. -/

section
variable (env : Env) (d : Driver)

/-- The due time of the next heartbeat concerns no topic. -/
theorem Apart.heartbeatDue {d d' : Driver} {topic : Topic} (h : Apart topic d d') {due : Duration} :
    Apart topic d { d' with connection := { d'.connection with heartbeatDue := due } } :=
  h.trans (.of_record rfl (fun _ _ => rfl) rfl rfl rfl rfl rfl (.of_trace rfl))

/-- The heartbeat's topic is `phoenix`. -/
theorem apart_handleHeartbeat : Apart "phoenix" d (d.handleHeartbeat env).1 := by
  by_cases h : d.connection.heartbeatReference.isSome = true
  · rw [handleHeartbeat_of_some h]
    exact .refl ..
  · rw [handleHeartbeat_of_none h]
    have htrack : Apart "phoenix" d d.trackHeartbeat :=
      apart_heartbeat "phoenix" rfl rfl rfl rfl rfl rfl rfl rfl
    have hs : Apart "phoenix" d (d.trackHeartbeat.sendFrame env []
        ⟨none, some d.state.protocol.nextText, "phoenix", "heartbeat", .emptyObject⟩).1 :=
      htrack.sendFrame rfl
    rcases hsend : d.trackHeartbeat.sendFrame env []
      ⟨none, some d.state.protocol.nextText, "phoenix", "heartbeat", .emptyObject⟩ with ⟨d', _ | reason⟩
    · rw [hsend] at hs
      exact hs.heartbeatDue
    · rw [hsend] at hs
      exact hs

/-- A message that decodes concerns the topic of its event, unless it is no good. -/
theorem apart_onMessage {message : WireMessage} {frame : Frame} {event : ProtocolEvent} {p : Protocol}
    (hd : env.codec.decode message = .ok frame)
    (hrec : d.state.protocol.receive frame = (.ok event, p)) :
    Apart (topicOf event) d (d.onMessage env message).1 := by
  have hi : Apart (topicOf event) d (d.handleIncoming env message).1 := by
    obtain ⟨report, hi⟩ := handleIncoming_of_decoded (d := d) hd
    rw [hi]
    have hreport : Apart (topicOf event) d (d.emitAll [.telemetry report]) :=
      (Apart.refl _ d).emitAll (by simp [Effect.SentFor])
    have hrec' : (d.emitAll [.telemetry report]).state.protocol.receive frame = (.ok event, p) := hrec
    simp only [handleFrame, hrec']
    exact hreport.trans (apart_handleEvent hrec')
  unfold onMessage
  dsimp only
  rcases hh : d.handleIncoming env message with ⟨d', _ | reason⟩
  · rw [hh] at hi
    simp only [Result.andThen]
    split
    · exact hi.heartbeatDue
    · exact hi
  · rw [hh] at hi
    exact hi

end

/-! ### Cancellation

The cancellations whose topic is known. The general case is left to the modules that use them. -/

section
variable {d : Driver} {topic : Topic} {channel : ChannelRecord} {id : RequestId}

/-- The record that the request was found in is the topic's. -/
theorem apart_cancelJoin : Apart topic d (d.cancelJoin topic channel id) := by
  unfold cancelJoin
  dsimp only
  have hset : Apart topic d ((d.setRecord topic
      { channel with joinWaiters := channel.joinWaiters.erase id }).emit (.cancelled .join id)) :=
    (Apart.refl topic d).setRecord.emitAll (by simp [Effect.SentFor])
  split
  · exact hset.setRecord.forgetJoins.discardChannel
  · exact hset

/-- The record that the request was found in is the topic's. -/
theorem apart_cancelUnsent : Apart topic d (d.cancelUnsent topic channel id) := by
  cases d.cancelUnsent_cases topic channel id with
  | leave pending hd hid he =>
    rw [he]
    exact (Apart.refl topic d).setRecord.emitAll (by simp [Effect.SentFor])
  | push push hf he =>
    rw [he]
    refine (Apart.refl topic d).setRecord.emitAll ?_
    exact push.forall_cancellation (by simp [Effect.SentFor]) (by simp [Effect.SentFor])
  | nothing hd hq he =>
    rw [he]
    exact .refl topic d

/-- A cancelled call's request is forgotten; its reference was the topic's. -/
theorem apart_cancelCall {reference : Reference} {call : PendingCall}
    (hfind : d.state.pendingCalls.toList.find? (fun entry => entry.2.id == id) = some (reference, call)) :
    Apart call.topic d (d.cancelCall id) := by
  have hcall := (Table.lookup_of_find hfind).1
  rw [cancelCall_of_some hfind]
  have hm : Move d.state.protocol (d.state.protocol.forgetPush reference).2 := .forgetPush reference
  have hforget := Protocol.forgetPush_cases d.state.protocol reference
  generalize d.state.protocol.forgetPush reference = forgotten at hm hforget ⊢
  have hpend : forgotten.2.pending = d.state.protocol.pending ∨
      forgotten.2.pending = d.state.protocol.pending.erase reference := by
    rcases hforget with ⟨_, _, _, rfl⟩ | rfl
    · exact .inr rfl
    · exact .inl rfl
  have hchannels : forgotten.2.channels = d.state.protocol.channels := by
    rcases hforget with ⟨_, _, _, rfl⟩ | rfl <;> rfl
  refine .settled (r := reference) rfl rfl (fun t _ => by rw [setProtocol_protocol, hchannels])
    ⟨[.cancelled .call id, .telemetry (.callCompleted call.topic call.event .cancelled
      (d.clock - call.started))], rfl, by simp [Effect.SentFor]⟩
    (moved_of_move hm) (.call call hcall rfl) (fun r hne => ?_) ⟨?_, .inr rfl, .inl ?_, List.Subset.refl _⟩
  · have hlook : forgotten.2.pending[r]? = d.state.protocol.pending[r]? := by
      rcases hpend with he | he
      · rw [he]
      · rw [he, Table.lookup_erase, if_neg hne]
    simp only [entry, setProtocol, emitAll, hlook, Table.lookup_erase, if_neg hne]
  · show Option.filter _ forgotten.2.pending[reference]? = none ∨
      Option.filter _ forgotten.2.pending[reference]? = Option.filter _ d.state.protocol.pending[reference]?
    rcases hpend with he | he
    · rw [he]
      exact .inr rfl
    · rw [he, Table.lookup_erase, if_pos rfl]
      exact .inl rfl
  · show (d.state.pendingCalls.erase reference)[reference]? = none
    rw [Table.lookup_erase, if_pos rfl]

/-- A ping is nobody's, so its cancellation is apart from every topic. -/
theorem apart_cancelPing (topic : Topic) (d : Driver) (id : RequestId) :
    Apart topic d (d.cancelPing id) := by
  rcases cancelPing_cases d id with hcancel | ⟨reference, ping, -, -, hcancel⟩
  · rw [hcancel]
    exact .refl topic d
  · rw [hcancel]
    have hm : Move d.state.protocol (d.state.protocol.forgetHeartbeat reference).2 :=
      .forgetHeartbeat reference
    have hforget := Protocol.forgetHeartbeat_cases d.state.protocol reference
    generalize d.state.protocol.forgetHeartbeat reference = forgotten at hm hforget ⊢
    have hsent : d.Emits (Effect.SentFor topic)
        (({ d with state := { d.state with
            pendingPings := d.state.pendingPings.erase reference } }.emitAll
          [.cancelled .ping id]).setProtocol forgotten.2) :=
      ⟨[.cancelled .ping id], rfl, by simp [Effect.SentFor]⟩
    refine .of_requests rfl rfl (fun t _ => ?_) hsent (moved_of_move hm) fun _ _ _ =>
      .of_entry (Move.grows hm) ?_
    · rcases hforget with ⟨_, rfl⟩ | rfl <;> rfl
    · rcases hforget with ⟨hp, rfl⟩ | rfl
      · exact entry_of_heartbeat hp rfl rfl rfl rfl rfl
      · exact fun _ => rfl

end

end Driver
end PhoenixChannel.Client
