import PhoenixChannel.Client.Pushes
import PhoenixChannel.Client.Steps

/-! How the driver moves its protocol.

Most of the driver's work leaves the protocol alone. What is left of a handler is a few
protocol operations, so pending requests and channels stay together over whole runs. -/
namespace PhoenixChannel.Client
open PhoenixChannel.Runtime Library
open Protocol (Move Moves)

namespace Driver

/-! ### What leaves the protocol alone

These are simp lemmas: a proof about the protocol goes past them without a step of its own. -/

section
variable (env : Env) (d : Driver) (topic : Topic)

@[simp] theorem setRecord_protocol (channel : ChannelRecord) :
    (d.setRecord topic channel).state.protocol = d.state.protocol := rfl

@[simp] theorem setProtocol_protocol (p : Protocol) : (d.setProtocol p).state.protocol = p := rfl

@[simp] theorem scheduleOperationTimeout_state (operation : OperationTimeout) :
    (d.scheduleOperationTimeout operation).state = d.state := rfl

@[simp] theorem discardChannel_protocol :
    (d.discardChannel topic).state.protocol = (d.state.protocol.discardChannel topic).2 := rfl

@[simp] theorem forgetJoins_protocol :
    (d.forgetJoins topic).state.protocol = d.state.protocol := rfl

@[simp] theorem eraseJoin_protocol (reference : Reference) :
    (d.eraseJoin reference).state.protocol = d.state.protocol := rfl

@[simp] theorem eraseLeave_protocol (reference : Reference) :
    (d.eraseLeave reference).state.protocol = d.state.protocol := rfl

@[simp] theorem emitChannel_state (event : ChannelEvent) :
    (d.emitChannel topic event).state = d.state := by
  rw [emitChannel_eq]
  rfl

@[simp] theorem emitSocket_protocol (event : SocketEvent) :
    (d.emitSocket event).state.protocol = d.state.protocol := rfl

@[simp] theorem setStatus_protocol (status : ChannelStatus) :
    (d.setStatus topic status).state.protocol = d.state.protocol := by
  unfold setStatus
  cases d.record topic <;> rfl

@[simp] theorem answerLeave_state (pending : Option PendingLeave)
    (result : Except ClientError Success) : (d.answerLeave pending result).state = d.state := by
  unfold answerLeave
  cases pending with
  | none => rfl
  | some pending => cases hr : pending.response <;> simp [hr]

@[simp] theorem stopChannel_protocol :
    (d.stopChannel topic).state.protocol = d.state.protocol := by
  unfold stopChannel
  cases d.record topic <;> simp

@[simp] theorem unregister_protocol :
    (d.unregister topic).state.protocol = (d.state.protocol.discardChannel topic).2 := by
  simp [unregister]

@[simp] theorem register_protocol :
    (d.register env topic).state.protocol = d.state.protocol := by
  unfold register
  split <;> rfl

@[simp] theorem queue_protocol (push : QueuedPush) :
    (d.queue env topic push).state.protocol = d.state.protocol := by
  rcases queue_cases env d topic push with ⟨error, -, he⟩ | ⟨channel, -, -, -, he⟩
  · rw [he]
    rfl
  · rw [he]
    rfl

@[simp] theorem loadPayload_protocol :
    (d.loadPayload topic).state.protocol = d.state.protocol := by
  rcases loadPayload_cases d topic with ⟨-, he⟩ | ⟨channel, -, -, -, -, he⟩
  · rw [he]
  · rw [he]
    rfl

@[simp] theorem scheduleRejoin_protocol :
    (d.scheduleRejoin env topic).state.protocol = d.state.protocol := by
  rcases scheduleRejoin_cases env d topic with ⟨-, he⟩ | ⟨channel, -, -, -, he⟩
  · rw [he]
  · rw [he]
    rfl

@[simp] theorem onReply_protocol (event : String) (reference : Reference) (status : ReplyStatus)
    (response : Payload) :
    (d.onReply topic event reference status response).state.protocol = d.state.protocol := by
  unfold onReply
  cases d.state.pendingCalls[reference]? <;> simp

@[simp] theorem onLeft_protocol (reference : Reference) (response : Payload) :
    (d.onLeft topic reference response).state.protocol = d.state.protocol := by
  unfold onLeft
  dsimp only
  split
  · simp
  · split <;> simp

@[simp] theorem onHeartbeatAck_protocol (reference : Reference) :
    (d.onHeartbeatAck reference).state.protocol = d.state.protocol := by
  unfold onHeartbeatAck
  split
  · rfl
  · cases d.state.pendingPings[reference]? <;> rfl

@[simp] theorem onJoinError_protocol (reference : Reference) (response : Payload) :
    (d.onJoinError env topic reference response).state.protocol = d.state.protocol := by
  unfold onJoinError
  dsimp only
  split <;> simp

@[simp] theorem onChannelError_protocol (payload : Payload) :
    (d.onChannelError env topic payload).state.protocol = d.state.protocol := by
  simp [onChannelError]

@[simp] theorem onChannelClosed_protocol (payload : Payload) :
    (d.onChannelClosed topic payload).state.protocol = d.state.protocol := by
  unfold onChannelClosed
  dsimp only
  split <;> simp

@[simp] theorem handleRejoin_protocol :
    (d.handleRejoin topic).state.protocol = d.state.protocol := by
  unfold handleRejoin
  cases d.record topic with
  | none => rfl
  | some channel =>
    dsimp only
    split <;> simp

@[simp] theorem joinTimedOut_protocol (duration : Duration) :
    (d.joinTimedOut env topic duration).state.protocol =
      (d.state.protocol.discardChannel topic).2 := by
  unfold joinTimedOut
  dsimp only
  split
  · rfl
  · split
    · simp
    · split <;> simp

@[simp] theorem leaveTimedOut_protocol (pending : PendingLeave) (duration : Duration) :
    (d.leaveTimedOut topic pending duration).state.protocol =
      (d.state.protocol.discardChannel topic).2 := by
  unfold leaveTimedOut
  dsimp only
  split
  · simp
  · split <;> simp

@[simp] theorem handleJoin_protocol (id : RequestId) (timeout : Duration) :
    (d.handleJoin id topic timeout).state.protocol = d.state.protocol := by
  unfold handleJoin
  cases d.record topic with
  | none => rfl
  | some channel =>
    dsimp only
    split <;> simp

@[simp] theorem cancelUnsent_protocol (channel : ChannelRecord) (id : RequestId) :
    (d.cancelUnsent topic channel id).state.protocol = d.state.protocol := by
  cases d.cancelUnsent_cases topic channel id with
  | leave _ _ _ he | push _ _ he | nothing _ _ he => simp [he]

@[simp] theorem cancelLeave_protocol (id : RequestId) :
    (d.cancelLeave id).state.protocol = d.state.protocol := by
  rcases cancelLeave_cases d id with he | ⟨_, _, -, -, he⟩
  · rw [he]
  · rw [he]
    rfl

@[simp] theorem handleOfflineCommand_protocol (command : Command) :
    (d.handleOfflineCommand env command).state.protocol = d.state.protocol := by
  cases command <;> simp [handleOfflineCommand]
  split <;> rfl

end

/-! ### What moves it

One lemma for a handler says which protocol operations it is made of. -/

section
variable (env : Env) (d : Driver) (topic : Topic)

theorem moved_andThen {d : Driver} {r : Result} {f : Driver → Result} (h : d.Moved r.1)
    (hf : ∀ d', Moved d' (f d').1) : d.Moved (r.andThen f).1 := by
  rcases r with ⟨d', _ | reason⟩
  · exact h.trans (hf d')
  · exact h

theorem sendPush_moved (push : QueuedPush) : d.Moved (d.sendPush env topic push).1 :=
  (sendPush_pushed env d topic push).moved

theorem flush_moved : d.Moved (d.flush env topic).1 := (flush_pushed env d topic).moved

/-- A leave moves the protocol once. -/
theorem sendLeave_moved (pending : PendingLeave) :
    d.Moved (d.sendLeave env topic pending).1 := by
  unfold sendLeave
  have hm := Move.leave (p := d.state.protocol) topic
  split <;>
  · rename_i h
    rw [h] at hm
    refine moved_of_move ?_
    simpa using hm

/-- A join that may be started is the protocol's rejoin, which discards a channel that was left over. -/
theorem startJoin_move {d : Driver} {topic : Topic} {payload : Value}
    {r : Except ProtocolError Outbound × Protocol} (h : d.startJoin topic payload = some r) :
    r = d.state.protocol.rejoin topic payload := by
  unfold startJoin at h
  split at h
  · exact (Option.some.inj h).symm
  · exact (Option.some.inj h).symm
  · exact (Option.some.inj h).symm
  · rename_i hs
    rw [Protocol.rejoin_of_unknown hs]
    exact (Option.some.inj h).symm
  · cases h

/-- The result of a load joins at most. -/
theorem handlePayload_moved (payloadId : UInt64) (payload : Except String Value) :
    d.Moved (d.handlePayload env topic payloadId payload).1 := by
  unfold handlePayload
  split
  · exact moved_of_eq rfl
  split
  · exact moved_of_eq rfl
  dsimp only
  split
  · exact moved_of_eq rfl
  split
  · exact moved_of_eq (by simp)
  · rename_i payload
    have hm := Move.rejoin (p := d.state.protocol) topic payload
    split
    · exact moved_of_eq rfl
    · rename_i h
      rw [← setRecord_protocol, ← startJoin_move h] at hm
      exact moved_of_move hm
    · rename_i h
      rw [← setRecord_protocol, ← startJoin_move h] at hm
      refine moved_of_move ?_
      simpa [sendJoin] using hm

/-- A deadline discards a channel at most. -/
theorem handleOperationTimeout_moved (operation : OperationTimeout) :
    d.Moved (d.handleOperationTimeout env operation) := by
  cases operation with
  | join topic reference duration =>
    unfold handleOperationTimeout
    dsimp only
    split
    · refine moved_of_move ?_
      rw [joinTimedOut_protocol]
      exact .discardChannel topic
    · exact moved_of_eq rfl
  | leave topic reference duration =>
    unfold handleOperationTimeout
    dsimp only
    split
    · exact moved_of_eq rfl
    · refine moved_of_move ?_
      rw [leaveTimedOut_protocol]
      exact .discardChannel topic

theorem handleHeartbeat_moved : d.Moved (d.handleHeartbeat env).1 := by
  unfold handleHeartbeat
  split
  · exact moved_of_eq rfl
  · refine moved_andThen (moved_of_move ?_) fun d => moved_of_eq rfl
    rw [sendFrame_state]
    exact .heartbeat

/-- After a join there may be pushes, or the leave that was put off. -/
theorem onJoined_moved (reference : Reference) (response : Payload) :
    d.Moved (d.onJoined env topic reference response).1 := by
  unfold onJoined
  dsimp only
  split
  · exact Moved.trans (moved_of_eq (by simp)) (flush_moved ..)
  · split
    · exact Moved.trans (moved_of_eq (by simp)) (sendLeave_moved ..)
    · exact Moved.trans (moved_of_eq (by simp)) (flush_moved ..)

/-- One case for each event. -/
theorem handleEvent_moved (event : ProtocolEvent) : d.Moved (d.handleEvent env event).1 := by
  cases event with
  | joined topic reference response => exact onJoined_moved ..
  | joinError topic reference response => exact moved_of_eq (by simp [handleEvent])
  | reply topic event reference status response => exact moved_of_eq (by simp [handleEvent])
  | left topic reference response => exact moved_of_eq (by simp [handleEvent])
  | heartbeatAck reference status => exact moved_of_eq (by simp [handleEvent])
  | channelError topic payload => exact moved_of_eq (by simp [handleEvent])
  | channelClosed topic payload => exact moved_of_eq (by simp [handleEvent])
  | message frame => exact moved_of_eq (by simp [handleEvent])
  | staleMessage frame => exact moved_of_eq (by simp [handleEvent])
  | unmatchedReply frame => exact moved_of_eq (by simp [handleEvent])
  | requestInterrupted topic event reference => exact moved_of_eq (by simp [handleEvent])

/-- A frame is received, and what it means is handled. -/
theorem handleFrame_moved (frame : Frame) : d.Moved (d.handleFrame env frame).1 := by
  unfold handleFrame
  have hm := Move.receive (p := d.state.protocol) frame
  split
  · rename_i h
    rw [h] at hm
    exact moved_of_move hm
  · rename_i event p h
    rw [h] at hm
    exact Relation.ReflTransGen.trans (.single hm) (handleEvent_moved env (d.setProtocol p) event)

theorem handleIncoming_moved (message : WireMessage) :
    d.Moved (d.handleIncoming env message).1 := by
  unfold handleIncoming
  split
  · exact moved_of_eq rfl
  · rename_i frame _
    exact handleFrame_moved env (d.telemetry _) frame

/-- A cancelled push or ping is forgotten, a cancelled leave is not. -/
theorem cancelPending_moved (id : RequestId) : d.Moved (d.cancelPending id) := by
  have hcall : d.Moved (d.cancelCall id) := by
    unfold cancelCall
    split
    · exact moved_of_eq rfl
    · exact moved_of_move (.forgetPush _)
  have hping : Moved (d.cancelCall id) ((d.cancelCall id).cancelPing id) := by
    unfold cancelPing
    split
    · exact moved_of_eq rfl
    · exact moved_of_move (.forgetHeartbeat _)
  exact (hcall.trans hping).trans (moved_of_eq (by simp [cancelPending]))

theorem cancelJoin_moved (channel : ChannelRecord) (id : RequestId) :
    d.Moved (d.cancelJoin topic channel id) := by
  unfold cancelJoin
  dsimp only
  split
  · exact moved_of_move (.discardChannel topic)
  · exact moved_of_eq rfl

/-- Where a cancellation ends an attempt the channel is discarded. -/
theorem cancel_moved (id : RequestId) : d.Moved (d.cancel id) := by
  cases d.cancel_found id with
  | join topic channel hr hm he =>
    rw [he]
    exact cancelJoin_moved ..
  | unsent topic channel hr hm he =>
    rw [he]
    exact moved_of_eq (by simp)
  | pending hj hq he =>
    rw [he]
    exact cancelPending_moved ..

theorem unregister_moved : d.Moved (d.unregister topic) := by
  refine moved_of_move ?_
  rw [unregister_protocol]
  exact .discardChannel topic

theorem handleOfflineLifecycle_moved (command : LifecycleCommand) :
    d.Moved (d.handleOfflineLifecycle env command) := by
  cases command with
  | register topic => exact moved_of_eq (by simp [handleOfflineLifecycle])
  | unregister topic => exact unregister_moved ..
  | cancel id => exact cancel_moved ..

/-- A dropped handle sends a leave if its channel is joined, and discards the channel. -/
theorem unregisterConnected_moved : d.Moved (d.unregisterConnected env topic).1 := by
  unfold unregisterConnected
  have hm := Move.leave (p := d.state.protocol) topic
  split
  · split <;>
    · rename_i p h
      rw [h] at hm
      refine Relation.ReflTransGen.trans (.single hm) ?_
      have hu := unregister_moved (d.setProtocol p) topic
      first
        | exact hu
        | rwa [sendFrame_state]
  · exact unregister_moved ..

theorem handleConnectedLifecycle_moved (command : LifecycleCommand) :
    d.Moved (d.handleConnectedLifecycle env command).1 := by
  cases command with
  | register topic => exact moved_of_eq (by simp [handleConnectedLifecycle])
  | unregister topic => exact unregisterConnected_moved ..
  | cancel id => exact cancel_moved ..

theorem handlePing_moved (id : RequestId) : d.Moved (d.handlePing env id).1 := by
  unfold handlePing
  refine moved_of_move ?_
  rw [sendFrame_state]
  exact .heartbeat

theorem handlePush_moved (push : QueuedPush) : d.Moved (d.handlePush env topic push).1 := by
  unfold handlePush
  split
  · exact sendPush_moved ..
  · exact moved_of_eq (by simp)

/-- A leave that is sent at once moves the protocol once. -/
theorem handleLeave_moved (id : RequestId) (timeout : Duration) :
    d.Moved (d.handleLeave env id topic timeout).1 := by
  cases leave_handled env d id topic timeout with
  | sent channel hc hs he =>
    rw [he]
    exact Moved.trans (moved_of_eq (by simp)) (sendLeave_moved ..)
  | deferred channel hs hr he =>
    rw [he]
    exact moved_of_eq (by simp)
  | idle hs hj he =>
    rw [he]
    exact moved_of_eq (by simp)

/-- Every command moves the protocol once or not at all. -/
theorem handleConnectedCommand_moved (command : Command) :
    d.Moved (d.handleConnectedCommand env command).1 := by
  cases command with
  | connect | disconnect | subscribe | subscribeChannel _ | shutdown => exact moved_of_eq rfl
  | ping id => exact handlePing_moved ..
  | join id topic timeout => exact moved_of_eq (by simp [handleConnectedCommand])
  | call id topic event payload started => exact handlePush_moved ..
  | cast id topic event payload => exact handlePush_moved ..
  | leave id topic timeout => exact handleLeave_moved ..

/-! ### Whole steps

So what the protocol's operations keep, every run of the driver keeps. -/

theorem foldl_protocol {α : Type} (f : Driver → α → Driver)
    (hf : ∀ d a, (f d a).state.protocol = d.state.protocol) (l : List α) :
    (l.foldl f d).state.protocol = d.state.protocol := by
  induction l generalizing d with
  | nil => rfl
  | cons a l ih => rw [List.foldl_cons, ih, hf]

/-- A lost connection resets the protocol. -/
theorem onDisconnect_protocol (reason : DisconnectReason) :
    (d.onDisconnect reason).state.protocol = d.state.protocol.resetConnection.2 := by
  unfold onDisconnect
  dsimp only
  rw [emitSocket_protocol, foldl_protocol, foldl_protocol]
  · rfl
  · intro d topic
    simp
  · intro d event
    unfold reportInterrupted
    split <;> simp

theorem onDisconnect_moved (reason : DisconnectReason) : d.Moved (d.onDisconnect reason) := by
  refine moved_of_move ?_
  rw [onDisconnect_protocol]
  exact .resetConnection

theorem afterFailure_protocol (reason : DisconnectReason) :
    (d.afterFailure env reason).state.protocol = d.state.protocol := by
  unfold afterFailure
  dsimp only
  split <;> rfl

theorem settle_moved {d : Driver} {r : Result} (h : d.Moved r.1) : d.Moved (settle env r) := by
  rcases r with ⟨d', _ | reason⟩
  · exact h
  · have hd := onDisconnect_moved d' reason
    exact (h.trans hd).trans (moved_of_eq (afterFailure_protocol env _ reason))

/-- A new connection loads payloads, and joins later. -/
theorem connectionMade_protocol (started : Duration) (transport : Transport)
    (order : List Topic) :
    (d.connectionMade env started transport order).state.protocol = d.state.protocol := by
  unfold connectionMade
  dsimp only
  rw [foldl_protocol]
  · rfl
  · intro d topic
    simp

theorem accept_protocol (command : Command) :
    (d.accept command).state.protocol = d.state.protocol := by
  unfold accept
  split <;> rfl

theorem onMessage_moved (message : WireMessage) : d.Moved (d.onMessage env message).1 := by
  unfold onMessage
  refine moved_andThen (handleIncoming_moved ..) fun d => ?_
  split <;> exact moved_of_eq rfl

end

theorem offlineCommand_moved {env : Env} {d : Driver} (command : Command) :
    d.Moved ((d.accept command).handleOfflineCommand env command) := by
  refine moved_of_eq ?_
  rw [handleOfflineCommand_protocol, accept_protocol]

theorem disconnect_moved (d : Driver) : d.Moved d.disconnect := onDisconnect_moved ..

theorem connectFailed_moved (env : Env) (d : Driver) (started : Duration) (error : TransportError) :
    d.Moved (d.connectFailed env started error) := by
  refine moved_of_eq ?_
  rw [connectFailed, afterFailure_protocol]
  rfl

/-- Without a connection only losing one moves the protocol. -/
theorem offline_moved {env : Env} {d d' : Driver} {input : Input}
    (h : OfflineStep env d input d') : d.Moved d' := by
  cases h with
  | lifecycle command => exact handleOfflineLifecycle_moved ..
  | command command => exact offlineCommand_moved command
  | acknowledge command hc => exact moved_of_eq rfl
  | disconnect d₁ reports he hr =>
    rw [he]
    exact disconnect_moved (d.emitAll reports)
  | close input hi d₁ reports he hr =>
    rw [he]
    exact moved_of_eq rfl
  | connect input hi d₁ reports he attempt hr =>
    rw [he]
    exact moved_of_eq rfl
  | failed input hi started error => exact connectFailed_moved ..
  | made started due transport order hp ho => exact moved_of_eq (connectionMade_protocol ..)

/-- A connected step moves the protocol by the moves of a coherent client. -/
theorem connected_moved {env : Env} {d d' : Driver} {input : Input}
    (h : ConnectedStep env d input d') : d.Moved d' := by
  cases h with
  | lifecycle command => exact settle_moved _ (handleConnectedLifecycle_moved ..)
  | command command =>
    have ha : d.Moved (d.accept command) := moved_of_eq (accept_protocol d command)
    exact settle_moved _ (ha.trans (handleConnectedCommand_moved ..))
  | acknowledge => exact moved_of_eq rfl
  | disconnect => exact disconnect_moved d
  | close => exact moved_of_eq rfl
  | lost input hi reason => exact settle_moved _ (moved_of_eq rfl)
  | message message => exact settle_moved _ (onMessage_moved ..)
  | heartbeat => exact settle_moved _ (handleHeartbeat_moved ..)
  | payload topic payloadId result hm =>
    exact settle_moved env (handlePayload_moved env (d.takePayload topic payloadId) _ _ result)
  | rejoin timer hm => exact moved_of_eq (by rw [handleRejoin_protocol]; rfl)
  | operationTimeout timer hm =>
    exact handleOperationTimeout_moved env (d.takeOperationTimeout timer) timer.value

/-- **Every step moves the protocol by the moves of a coherent client.** -/
theorem step_moved {env : Env} {d d' : Driver} {input : Input} (h : d.step env input = some d') :
    d.Moved d' := by
  cases stepped h with
  | tick elapsed hi hd =>
    subst hd
    exact moved_of_eq rfl
  | dropped topic hi hd =>
    subst hd
    exact moved_of_eq (by simp)
  | offline hc ho hs => exact offline_moved hs
  | connected hp hs => exact connected_moved hs

theorem start_protocol (env : Env) : (start env).state.protocol = .new := by
  unfold start
  dsimp only
  split <;> rfl

theorem reachable_moves {env : Env} {d : Driver} (h : (driver env).Reachable d) :
    Moves .new d.state.protocol := by
  induction h with
  | start =>
    show Moves _ (start env).state.protocol
    rw [start_protocol]
  | step _ _ hs ih => exact Relation.ReflTransGen.trans ih (step_moved hs)

/-- **Pending requests and channels stay together in every run.** -/
theorem reachable_coherent {env : Env} {d : Driver} (h : (driver env).Reachable d) :
    d.state.protocol.Coherent :=
  Protocol.coherent_new.moves (reachable_moves h)

theorem reachable_numbered {env : Env} {d : Driver} (h : (driver env).Reachable d)
    (hb : d.state.protocol.allocated < 2 ^ 64) : d.state.protocol.Numbered :=
  Protocol.numbered_new.moves (reachable_moves h) hb

end Driver
end PhoenixChannel.Client
