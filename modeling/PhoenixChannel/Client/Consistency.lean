import PhoenixChannel.Client.Invariant
import PhoenixChannel.Client.Statuses

/-! A channel's status never claims more than the protocol holds.

The agreement of the two is kept by every step in every phase: without a connection no
channel is active and no status claims one, and a lost connection rewrites both. -/
namespace PhoenixChannel.Client
open PhoenixChannel.Runtime Library

namespace Driver

/-- What holds in every phase: statuses agree, and without a connection no channel is
active. -/
structure Consistent (d : Driver) : Prop where
  agrees : ∀ t, d.Agrees t
  idle : d.phase = .connected ∨ d.phase = .closed ∨ ∀ t, ¬ d.Active t

section
variable {env : Env} {d d' : Driver} {t topic : Topic}

/-- A driver that only loses channels has no active one where it had none. -/
theorem Dormant.inactive (hd : d.Dormant d') (h : ∀ t, ¬ d.Active t) (t : Topic) : ¬ d'.Active t := by
  intro ha
  rw [Active, Protocol.channelState] at ha
  cases hc : d'.state.protocol.channels[t]? with
  | none =>
    rw [hc] at ha
    cases ha
  | some c =>
    refine h t ?_
    rw [Active, Protocol.channelState, hd.channels t c hc, ← hc]
    exact ha

/-- The closing of the socket closes every status. -/
theorem Agrees.emitSocket (h : d.Agrees t) {event : SocketEvent} : (d.emitSocket event).Agrees t := by
  intro channel hc
  rw [emitSocket_record, Option.map_eq_some_iff] at hc
  obtain ⟨channel', hold, rfl⟩ := hc
  by_cases hs : socketStatusOf event = .closed
  · refine .of_calm ?_ (h channel' hold).flushed
    rw [ChannelRecord.heard, if_pos hs]
    exact ChannelStatus.calm_closed
  · rw [ChannelRecord.heard, if_neg hs]
    exact h channel' hold

/-- The protocol marks every channel disconnected, and each record is rewritten to say no more. -/
theorem agrees_onDisconnect (d : Driver) (reason : DisconnectReason) (t : Topic) :
    (d.onDisconnect reason).Agrees t ∧ ¬ (d.onDisconnect reason).Active t := by
  obtain ⟨reports, -, he⟩ := onDisconnect_eq d reason
  rw [he]
  have hs : (lost d.state reason).protocol.channelState t =
      (d.state.protocol.channelState t).map fun _ => .disconnected := by
    show ((d.state.protocol.channels.map fun _ channel => _)[t]?).map Channel.state = _
    rw [Std.ExtTreeMap.getElem?_map, Protocol.channelState, Option.map_map, Option.map_map]
    rfl
  constructor
  · intro channel hc
    obtain ⟨channel', -, rfl⟩ := Table.lookup_of_map hc
    refine .of_calm ?_ fun hj => ?_
    · simp only [offlineRecord]
      split
      · exact ChannelStatus.calm_waitingForSocket
      · exact ChannelStatus.calm_left
    · have hj := hs.symm.trans hj
      cases hcs : d.state.protocol.channelState t with
      | none =>
        rw [hcs] at hj
        cases hj
      | some state =>
        rw [hcs] at hj
        cases hj
  · intro ha
    have ha : ((lost d.state reason).protocol.channelState t).any ChannelState.active = true := ha
    rw [hs] at ha
    cases hcs : d.state.protocol.channelState t with
    | none =>
      rw [hcs] at ha
      cases ha
    | some state =>
      rw [hcs] at ha
      cases ha

/-- After a failure the driver is offline, and no channel is active. -/
theorem consistent_disconnected (env : Env) (d : Driver) (reason : DisconnectReason) :
    (settle env (d, some reason)).Consistent := by
  have hlost := agrees_onDisconnect d reason
  have hst : (settle env (d, some reason)).state.protocol = (d.onDisconnect reason).state.protocol :=
    afterFailure_protocol ..
  refine ⟨fun t => ?_, .inr (.inr fun t => ?_)⟩
  · simp only [settle, afterFailure]
    have hattempt : ({ d.onDisconnect reason with
        attempt := nextAttempt (d.onDisconnect reason).attempt } : Driver).Agrees t := (hlost t).1
    split
    · exact hattempt.emitSocket
    · exact hattempt.emitSocket
  · rw [Active, hst]
    exact (hlost t).2

/-- A handler of the connected loop. -/
theorem consistent_settle {r : Result}
    (hr : r.2 = none → r.1.phase = .connected ∧ ∀ t, r.1.Agrees t) : (settle env r).Consistent := by
  rcases r with ⟨d', _ | reason⟩
  · obtain ⟨hp, ha⟩ := hr rfl
    exact ⟨ha, .inl hp⟩
  · exact consistent_disconnected env d' reason

/-- A handler that works on one topic. -/
theorem consistent_apart {r : Result} (hp : d.phase = .connected) (h : ∀ t, d.Agrees t)
    (hr : r.2 = none → ∃ topic, Apart topic d r.1 ∧ r.1.Agrees topic) :
    (settle env r).Consistent := by
  refine consistent_settle fun hok => ?_
  obtain ⟨topic, hk, hown⟩ := hr hok
  exact ⟨hk.phase.trans hp, hk.agrees h hown⟩

theorem agrees_startLoad {d : Driver} (topic : Topic) (h : ∀ t, d.Agrees t) :
    ∀ t, (d.startLoad topic).Agrees t := by
  have hk : Apart topic d (d.startLoad topic) := (Apart.refl topic d).setStatus.loadPayload
  exact hk.agrees h (Agrees.loadPayload ((h topic).flushed.setStatus ChannelStatus.calm_waitingToJoin))

/-- A connection that was just made sends joins only for channels that nobody claims joined. -/
theorem consistent_connectionMade (h : ∀ t, d.Agrees t) (started : Duration)
    (transport : Transport) (order : List Topic) :
    (d.connectionMade env started transport order).Consistent := by
  have hagrees : (∀ t, (d.connectionMade env started transport order).Agrees t) ∧
      (d.connectionMade env started transport order).phase = .connected := by
    refine connectionMade_induction (fun d' => (∀ t, d'.Agrees t) ∧ d'.phase = .connected)
      ⟨fun t channel hc => ?_, rfl⟩ fun d' topic h' => ?_
    · rw [connected_record, Option.map_eq_some_iff] at hc
      obtain ⟨channel', hold, rfl⟩ := hc
      have ha := h t channel' hold
      exact ha.retouch rfl rfl rfl
    · have hk : Apart topic d' (d'.startLoad topic) := (Apart.refl topic d').setStatus.loadPayload
      exact ⟨agrees_startLoad topic h'.1, hk.phase.trans h'.2⟩
  exact ⟨hagrees.1, .inl hagrees.2⟩

theorem agrees_offlineLifecycle (env : Env) (h : ∀ t, d.Agrees t) (command : LifecycleCommand) :
    ∀ t, (d.handleOfflineLifecycle env command).Agrees t := by
  cases command with
  | register topic => exact (Apart.refl topic d).register.agrees h (agrees_register env (h topic))
  | unregister topic => exact (Apart.refl topic d).unregister.agrees h (agrees_unregister d topic)
  | cancel id => exact agrees_cancel d id h

/-- Without a connection a command changes what is wanted, and no status claims more for it. -/
theorem agrees_offlineCommand (env : Env) (h : ∀ t, d.Agrees t) (hi : ∀ t, ¬ d.Active t)
    (command : Command) : ∀ t, (d.handleOfflineCommand env command).Agrees t := by
  have hidle : ∀ t, d.state.protocol.channelState t ≠ some .joined := fun t hs =>
    hi t (by rw [Active, hs]; rfl)
  cases command with
  | connect | disconnect | subscribe | subscribeChannel _ | shutdown => exact h
  | ping id => exact h
  | join id topic timeout =>
    simp only [handleOfflineCommand]
    cases hr : d.record topic with
    | none => exact h
    | some channel =>
      exact (Apart.refl topic d).setRecord.agrees h
        (agrees_setRecord ChannelStatus.calm_waitingForSocket (h topic channel hr).flushed)
  | call id topic event payload started =>
    exact (Apart.refl topic d).queue.agrees h (agrees_queue env (h topic) _ (hidle topic))
  | cast id topic event payload =>
    exact (Apart.refl topic d).queue.agrees h (agrees_queue env (h topic) _ (hidle topic))
  | leave id topic timeout =>
    have hk : Apart topic d ((d.setStatus topic .left).stopChannel topic) :=
      (Apart.refl topic d).setStatus.stopChannel
    refine hk.agrees h ?_
    cases hr : d.record topic with
    | none => exact agrees_of_none (stopChannel_record_of_none hr .left)
    | some channel =>
      exact agrees_of_record (stopChannel_record hr .left)
        (.of_calm ChannelStatus.calm_left fun _ => rfl)

theorem agrees_accept (h : ∀ t, d.Agrees t) (command : Command) (t : Topic) :
    (d.accept command).Agrees t := by
  unfold accept
  split
  · exact h t
  · exact h t

theorem consistent_close (h : ∀ t, d.Agrees t) : d.close.Consistent :=
  ⟨fun t => Agrees.emitSocket (h t), .inr (.inl rfl)⟩

theorem consistent_offline (hi : ∀ t, ¬ d.Active t) (hd : d.Dormant d')
    (ha : ∀ t, d'.Agrees t) : d'.Consistent :=
  ⟨ha, .inr (.inr (hd.inactive hi))⟩

theorem consistent_disconnect (d : Driver) : d.disconnect.Consistent :=
  ⟨fun t => (agrees_onDisconnect d .requested t).1,
    .inr (.inr fun t => (agrees_onDisconnect d .requested t).2)⟩

/-- What the statuses of an offline driver go through when nothing of them is written. -/
theorem consistent_quiet (h : d.Consistent) (hi : ∀ t, ¬ d.Active t)
    (hr : d'.state.channels = d.state.channels) (hp : d'.state.protocol = d.state.protocol) :
    d'.Consistent :=
  ⟨fun t => (h.agrees t).of_eq (by rw [record, record, hr]) (by rw [hp]),
    .inr (.inr fun t => by rw [Active, hp]; exact hi t)⟩

theorem consistent_connecting (h : d.Consistent) (hi : ∀ t, ¬ d.Active t) (attempt : Nat) :
    ({ d.emitSocket (.connecting attempt) with
      phase := .connecting d.clock (d.clock + env.options.connectTimeout) } : Driver).Consistent :=
  ⟨fun t => show (d.emitSocket (.connecting attempt)).Agrees t from (h.agrees t).emitSocket,
    .inr (.inr hi)⟩

/-- A failed attempt finds the driver as inactive as it was. -/
theorem consistent_connectFailed (h : d.Consistent) (hi : ∀ t, ¬ d.Active t) (started : Duration)
    (error : TransportError) : (d.connectFailed env started error).Consistent := by
  have hfailed : ∀ t, ((d.attemptFinished started false).emitSocket
      (.disconnected (.connect error))).Agrees t := fun t =>
    Agrees.emitSocket (d := d.attemptFinished started false) (h.agrees t)
  refine ⟨fun t => ?_, .inr (.inr fun t => ?_)⟩
  · simp only [connectFailed, afterFailure]
    split
    · exact Agrees.emitSocket (hfailed t)
    · exact Agrees.emitSocket (hfailed t)
  · rw [Active, connectFailed, afterFailure_protocol]
    exact hi t

theorem consistent_stepOffline {d' : Driver} (h : d.Consistent) (hi : ∀ t, ¬ d.Active t)
    {command : Command} (hs : d' = (d.accept command).handleOfflineCommand env command) :
    d'.Consistent := by
  rw [hs]
  refine consistent_offline hi (dormant_offlineCommand env d command) ?_
  refine agrees_offlineCommand env (agrees_accept h.agrees command) (fun t => ?_) command
  rw [Active, accept_protocol]
  exact hi t

/-- One case for each step without a connection. -/
theorem consistent_offlineStep {input : Input} (h : d.Consistent) (hi : ∀ t, ¬ d.Active t)
    (hs : OfflineStep env d input d') : d'.Consistent := by
  cases hs with
  | lifecycle command =>
    exact consistent_offline hi (dormant_handleOfflineLifecycle ..)
      (agrees_offlineLifecycle env h.agrees _)
  | command command => exact consistent_stepOffline h hi rfl
  | acknowledge command hc => exact consistent_quiet h hi rfl rfl
  | disconnect d₁ reports he hr => exact consistent_disconnect d₁
  | close input hi' d₁ reports he hr =>
    rw [he]
    exact consistent_close (d := d.emitAll reports) h.agrees
  | connect input hi' d₁ reports he attempt hr =>
    rw [he]
    exact consistent_connecting (d := { d.emitAll reports with attempt })
      (consistent_quiet h hi rfl rfl) hi attempt
  | failed input hi' started error => exact consistent_connectFailed h hi ..
  | made started due transport order hp ho => exact consistent_connectionMade h.agrees ..

/-- A dropped handle takes the channel along with the record. -/
theorem consistent_lifecycle (hp : d.phase = .connected) (h : ∀ t, d.Agrees t)
    (command : LifecycleCommand) :
    (settle env (d.handleConnectedLifecycle env command)).Consistent := by
  cases command with
  | register topic =>
    exact consistent_apart hp h fun _ =>
      ⟨topic, (Apart.refl topic d).register, agrees_register env (h topic)⟩
  | unregister topic =>
    exact consistent_apart hp h fun _ =>
      ⟨topic, apart_unregisterConnected env d topic, agrees_unregisterConnected env d topic⟩
  | cancel id =>
    refine consistent_settle fun _ => ⟨?_, agrees_cancel d id h⟩
    exact (dormant_cancel d id).phase.trans hp

/-- A command of a connected driver ends with what its handler leaves, or with a failure. -/
theorem consistent_command (hp : d.phase = .connected) (h : ∀ t, d.Agrees t) (command : Command) :
    (settle env (d.handleConnectedCommand env command)).Consistent := by
  cases command with
  | connect | disconnect | subscribe | subscribeChannel _ | shutdown =>
    exact consistent_settle fun _ => ⟨hp, h⟩
  | ping id =>
    refine consistent_apart hp h fun _ => ⟨"phoenix", apart_handlePing env d id, ?_⟩
    simp only [handleConnectedCommand, handlePing_eq]
    have htrack : (d.trackPing id).Agrees "phoenix" := (h "phoenix").of_eq rfl rfl
    exact htrack.sendFrame _ _ _
  | join id topic timeout =>
    exact consistent_apart hp h fun _ =>
      ⟨topic, apart_handleJoin d topic id timeout, agrees_handleJoin (h topic) id timeout⟩
  | call id topic event payload started =>
    exact consistent_apart hp h fun _ =>
      ⟨topic, apart_handlePush env d topic _, agrees_handlePush env (h topic) _⟩
  | cast id topic event payload =>
    exact consistent_apart hp h fun _ =>
      ⟨topic, apart_handlePush env d topic _, agrees_handlePush env (h topic) _⟩
  | leave id topic timeout =>
    exact consistent_apart hp h fun hok =>
      ⟨topic, apart_handleLeave env d topic id timeout, agrees_handleLeave env d topic id timeout hok⟩

/-- A heartbeat has a topic of its own, which has no channel. -/
theorem agrees_handleHeartbeat (h : ∀ t, d.Agrees t) : (d.handleHeartbeat env).1.Agrees "phoenix" := by
  by_cases hh : d.connection.heartbeatReference.isSome = true
  · rw [handleHeartbeat_of_some hh]
    exact h _
  · rw [handleHeartbeat_of_none hh]
    have htrack : d.trackHeartbeat.Agrees "phoenix" := (h "phoenix").of_eq rfl rfl
    have hs : (d.trackHeartbeat.sendFrame env []
        ⟨none, some d.state.protocol.nextText, "phoenix", "heartbeat", .emptyObject⟩).1.Agrees "phoenix" :=
      htrack.sendFrame _ _ _
    rcases hsend : d.trackHeartbeat.sendFrame env []
      ⟨none, some d.state.protocol.nextText, "phoenix", "heartbeat", .emptyObject⟩ with ⟨d', _ | reason⟩
    · rw [hsend] at hs
      exact hs.of_eq rfl rfl
    · rw [hsend] at hs
      exact hs

/-- One case for each thing that a connected driver wakes up for. -/
theorem consistent_connectedStep {input : Input} (hp : d.phase = .connected)
    (h : ∀ t, d.Agrees t) (hco : d.state.protocol.Coherent) (hs : ConnectedStep env d input d') :
    d'.Consistent := by
  cases hs with
  | lifecycle command => exact consistent_lifecycle hp h command
  | command command =>
    exact consistent_command ((apart_accept d "" command).phase.trans hp) (agrees_accept h command) _
  | acknowledge => exact ⟨h, .inl hp⟩
  | disconnect => exact consistent_disconnect d
  | close => exact ⟨fun t => Agrees.emitSocket (d := d.acknowledge) (h t), .inr (.inl rfl)⟩
  | lost input hi reason => exact consistent_disconnected ..
  | message message => exact consistent_apart hp h fun hok => agrees_onMessage _ hco h hok
  | heartbeat =>
    exact consistent_apart hp h fun _ =>
      ⟨"phoenix", apart_handleHeartbeat env d, agrees_handleHeartbeat h⟩
  | payload topic payloadId result hm =>
    refine consistent_apart hp h fun _ => ⟨topic, (apart_takePayload d topic payloadId).trans
      (apart_handlePayload env _ topic payloadId result), ?_⟩
    have htake : (d.takePayload topic payloadId).Agrees topic := (h topic).of_eq rfl rfl
    exact agrees_handlePayload env htake _ _
  | rejoin timer hm =>
    have hk := (apart_takeRejoin d timer.value timer).trans (apart_handleRejoin _ timer.value)
    refine ⟨hk.agrees h ?_, .inl (hk.phase.trans hp)⟩
    have htake : (d.takeRejoin timer).Agrees timer.value := (h timer.value).of_eq rfl rfl
    exact agrees_handleRejoin htake
  | operationTimeout timer hm =>
    have hk := apart_operationTimeout env hm
    exact ⟨hk.agrees h (agrees_operationTimeout env (h _)), .inl (hk.phase.trans hp)⟩

/-- **Every step keeps the statuses consistent.** -/
theorem consistent_step {input : Input} (h : d.Consistent) (hco : d.state.protocol.Coherent)
    (hs : d.step env input = some d') : d'.Consistent := by
  cases stepped hs with
  | tick elapsed hi hd =>
    subst hd
    exact ⟨h.agrees, h.idle⟩
  | dropped topic hi hd =>
    subst hd
    have hk : Apart topic d (d.setStatus topic .closed) := (Apart.refl topic d).setStatus
    refine ⟨hk.agrees h.agrees ((h.agrees topic).flushed.setStatus ChannelStatus.calm_closed), ?_⟩
    rw [hk.phase]
    refine h.idle.imp_right (.imp_right fun hi t => ?_)
    rw [Active, setStatus_protocol]
    exact hi t
  | offline hc hcl hs =>
    exact consistent_offlineStep h ((h.idle.resolve_left hc).resolve_left hcl) hs
  | connected hp hs => exact consistent_connectedStep hp h.agrees hco hs

/-- At first there is neither a record nor a channel. -/
theorem consistent_start (env : Env) : (start env).Consistent := by
  have hnone : ∀ t, (⟨.new, .none, .idle, 0, 0, ⟨true, []⟩, []⟩ : Driver).Agrees t := by
    intro t channel hc
    simp [record, DriverState.new] at hc
  have hidle : ∀ t, ¬ (⟨.new, .none, .idle, 0, 0, ⟨true, []⟩, []⟩ : Driver).Active t := by
    intro t ha
    simp [Active, DriverState.new, Protocol.new, Protocol.channelState] at ha
  unfold start
  dsimp only
  split
  · exact consistent_connecting ⟨hnone, .inr (.inr hidle)⟩ hidle 0
  · exact ⟨hnone, .inr (.inr hidle)⟩

theorem reachable_consistent (h : (driver env).Reachable d) : d.Consistent := by
  induction h with
  | start => exact consistent_start env
  | step hr _ hs ih => exact consistent_step ih (reachable_coherent hr) hs

end

/-- **The status of a channel never claims more than the protocol holds**, in any phase. -/
theorem status_held (env : Env) (d : Driver) (h : (driver env).Reachable d) :
    ∀ (topic : Topic) (channel : ChannelRecord), d.record topic = some channel →
      (channel.status = .joined → d.state.protocol.channelState topic = some .joined) ∧
      (channel.status = .joining → d.state.protocol.channelState topic = some .joining) ∧
      (channel.status = .leaving → d.state.protocol.channelState topic = some .leaving ∨
        d.state.protocol.channelState topic = some .joining ∧ channel.deferredLeave.isSome = true) := by
  intro topic channel hr
  have ha := (reachable_consistent h).agrees topic channel hr
  exact ⟨ha.joined, ha.joining, ha.leaving⟩

/-- A leave during a join: the channel says that it is leaving while it is joining. -/
theorem status_held_leaving :
    ∃ d : Driver, ∃ channel : ChannelRecord, d.record "room" = some channel ∧
      channel.status = .leaving ∧
      (d.state.protocol.channelState "room" = some .leaving ∨
        d.state.protocol.channelState "room" = some .joining ∧ channel.deferredLeave.isSome = true) := by
  obtain ⟨d, hr, hd⟩ := Machine.reachable_of_run (driver (smallEnv []))
    (joining ++ [.command (.leave 2 "room" 10)])
    (fun d => (d.record "room").any fun channel => channel.status = .leaving) (by decide +kernel)
  obtain ⟨channel, hrecord, hleaving⟩ := (Option.any_eq_true _ _).mp hd
  have hleaving := of_decide_eq_true hleaving
  exact ⟨d, channel, hrecord, hleaving, (status_held _ d hr "room" channel hrecord).2.2 hleaving⟩

end Driver
end PhoenixChannel.Client
