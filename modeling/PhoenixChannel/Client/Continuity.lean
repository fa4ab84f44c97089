import PhoenixChannel.Client.Loads

/-! Every step continues the records, loads and generations there are. -/
namespace PhoenixChannel.Client
open PhoenixChannel.Runtime Library
open Protocol (Move Moves)

namespace Driver

/-! ### Sending

Sending writes no record and starts no load. -/

section
variable {gone joins : Option Topic} {env : Env} {d d' : Driver} {topic : Topic}

/-- A frame goes out that could have gone out from the start. -/
theorem Continues.sendKnown (h : Continues gone joins d d') (env : Env) {served : List RequestId}
    {frame : Frame} (hf : joins ≠ some frame.topic → d.Grounded frame) :
    Continues gone joins d (d'.sendFrame env served frame).1 := by
  obtain ⟨effects, ht, h⟩ := h
  obtain ⟨events, hsent⟩ := sendFrame_trace env d' served frame
  have hloads : loadsOf (effects ++ .outgoing served frame :: events.map .telemetry) = loadsOf effects := by
    rw [loadsOf_append, loadsOf_sent, List.append_nil]
  refine ⟨_, by rw [hsent, ht, List.append_assoc], fun t hg => ?_, fun t => ?_, ?_, fun load hm => ?_,
    fun t j hj hk => ?_, fun served' frame' hm hj => ?_⟩
  · rw [record, sendFrame_state]
    exact h.records t hg
  · rw [hloads, awaited, record, sendFrame_state]
    exact h.awaited t
  · rw [hloads, sendFrame_state]
    exact h.ids
  · rw [sendFrame_connection] at hm
    rw [hloads]
    exact h.payloads load hm
  · rw [Known, sendFrame_state] at hk
    exact h.known t j hj hk
  · rcases List.mem_append.mp hm with hm | hm
    · exact h.frames served' frame' hm hj
    rcases List.mem_cons.mp hm with he | hm
    · cases he
      exact hf hj
    · obtain ⟨event, -, he⟩ := List.mem_map.mp hm
      cases he

theorem Continues.sendFrame (h : Continues gone joins d d') (env : Env) {served : List RequestId}
    {frame : Frame} (hf : joins ≠ some frame.topic → d'.Grounded frame) :
    Continues gone joins d (d'.sendFrame env served frame).1 := by
  refine h.sendKnown env fun hj => ?_
  obtain ⟨effects, -, h⟩ := h
  exact h.grounded hj (hf hj)

/-- Pushes start no load. -/
theorem sendPush_nextPayloadId (env : Env) (d : Driver) (topic : Topic) (push : QueuedPush) :
    (d.sendPush env topic push).1.state.nextPayloadId = d.state.nextPayloadId := by
  cases push_handled env d topic push with
  | refusedCall id event payload started hb he =>
    rw [he]
    rfl
  | refusedCast id event payload hb he =>
    rw [he]
    rfl
  | notJoined push hj he => rw [he]
  | call id event payload started joinRef hb hj he =>
    rw [he, sendFrame_state]
    rfl
  | cast id event payload joinRef sent hb hj hs he => rw [he, hs, emitAll_state, sendFrame_state]

theorem flush_nextPayloadId (env : Env) (d : Driver) (topic : Topic) :
    (d.flush env topic).1.state.nextPayloadId = d.state.nextPayloadId :=
  flush_induction (R := fun d d' => d'.state.nextPayloadId = d.state.nextPayloadId) (fun _ => rfl)
    (fun _ _ _ h h' => h'.trans h) (fun _ _ push _ _ _ => sendPush_nextPayloadId env _ topic push) d

/-- Pushes go out for a joined channel. -/
theorem Continues.pushed (h : Continues gone joins d d') {d'' : Driver} (hp : d'.Pushed d'')
    (hn : d''.state.nextPayloadId = d'.state.nextPayloadId) : Continues gone joins d d'' := by
  obtain ⟨effects, ht, heffects⟩ := hp.effects
  have hnone : loadsOf effects = [] := by
    refine List.filterMap_eq_nil_iff.mpr fun effect hm => ?_
    cases effect with
    | loading topic payloadId context served => exact (heffects _ hm).elim
    | _ => rfl
  have hsame : ∀ t : Topic, (d''.record t).map ChannelRecord.unqueued =
      (d'.record t).map ChannelRecord.unqueued := hp.records
  refine h.trans ⟨effects, ht, fun t _ => ?_, fun t => .inr ?_, ?_, fun load hm => .inl ?_,
    fun t j _ hk => ?_, fun served frame hm _ => ?_⟩
  · have := congrArg Option.isSome (hsame t)
    simpa only [Option.isSome_map] using this
  · have := congrArg (fun r => r.bind ChannelRecord.activePayload) (hsame t)
    simp only [Option.bind_map] at this
    rw [hnone]
    exact this
  · rw [hnone]
    exact hn
  · rw [hp.connection] at hm
    exact hm
  · obtain ⟨c, hc, hj⟩ := hk
    exact ⟨c, by rw [← hp.channels]; exact hc, hj⟩
  · obtain ⟨hsome, hjoined⟩ := heffects _ hm
    obtain ⟨j, hr⟩ := Option.isSome_iff_exists.mp hsome
    obtain ⟨c, hc, -, hj⟩ := Protocol.joinedRef_eq_some.mp (hjoined.trans hr)
    exact .inr ⟨j, hr, c, hc, hj⟩

theorem Continues.sendPush (h : Continues gone joins d d') (env : Env) {push : QueuedPush} :
    Continues gone joins d (d'.sendPush env topic push).1 :=
  h.pushed (sendPush_pushed env d' topic push) (sendPush_nextPayloadId ..)

theorem Continues.flush (h : Continues gone joins d d') (env : Env) :
    Continues gone joins d (d'.flush env topic).1 :=
  h.pushed (flush_pushed env d' topic) (flush_nextPayloadId ..)

/-- A leave goes out under the join reference of its channel, which is known. -/
theorem Continues.sendLeave (h : Continues gone joins d d') (env : Env) {pending : PendingLeave} :
    Continues gone joins d (d'.sendLeave env topic pending).1 := by
  cases hj : d'.state.protocol.joinedRef topic with
  | none =>
    obtain ⟨e, he⟩ := sendLeave_of_not_joined env pending hj
    rw [he]
    exact h.same rfl rfl rfl rfl (.of_trace rfl)
  | some joinRef =>
    obtain ⟨c, hc, hs, -⟩ := Protocol.joinedRef_eq_some.mp hj
    rw [sendLeave_of_joined hc hs]
    have hleave : Continues gone joins d (d'.setProtocol (d'.state.protocol.leave topic).2) :=
      h.setProtocol (aged_leave hc hs rfl rfl)
    have htrack : Continues gone joins d (d'.trackLeave topic pending) :=
      hleave.same rfl rfl rfl rfl (.of_trace rfl)
    refine htrack.sendFrame env fun _ => .inr ⟨c.joinRef, rfl, { c with state := .leaving }, ?_, rfl⟩
    simp only [trackLeave, Protocol.leave_of_joined hc hs, Table.lookup_insert, if_pos]

end

/-! ### Lifecycle

A record is made by the command that registers its topic and removed by the one that unregisters it. -/

section
variable {gone joins : Option Topic} {env : Env} {d d' : Driver} {topic : Topic} {id : RequestId}
  {channel : ChannelRecord}

/-- A record that is new waits for nothing. -/
theorem continues_register (env : Env) (d : Driver) (topic : Topic) :
    Continues (some topic) joins d (d.register env topic) := by
  unfold register
  split
  · exact .refl ..
  · refine .of_idle (fun t ht => ?_) (fun t => ?_) rfl (fun _ hm => hm) (fun _ _ _ hk => hk)
      (.of_trace rfl)
    · rw [record_setRecord_eq, if_neg fun he => ht (by rw [he])]
    · by_cases ht : t = topic
      · rw [ht]
        exact .inl (awaited_of_some (record_setRecord ..))
      · rw [awaited, record_setRecord_eq, if_neg ht]
        exact .inr rfl

/-- The record may go, and the loads of its topic with it. -/
theorem Continues.unregister (h : Continues (some topic) joins d d') :
    Continues (some topic) joins d (d'.unregister topic) := by
  have hstop : Continues (some topic) joins d (d'.stopChannel topic) := h.stopChannel
  refine Continues.discardChannel (hstop.trans (.of_idle (fun t ht => ?_) (fun t => ?_) rfl
    (fun _ hm => hm) (fun _ _ _ hk => hk) (.of_trace rfl)))
  · show ((d'.stopChannel topic).state.channels.erase topic)[t]?.isSome = _
    rw [Table.lookup_erase, if_neg fun he => ht (by rw [he])]
    rfl
  · by_cases ht : t = topic
    · refine .inl ?_
      show ((d'.stopChannel topic).state.channels.erase topic)[t]?.bind _ = none
      rw [Table.lookup_erase, if_pos ht]
      rfl
    · refine .inr ?_
      show ((d'.stopChannel topic).state.channels.erase topic)[t]?.bind _ = _
      rw [Table.lookup_erase, if_neg ht]
      rfl

/-- A leave of a channel that is unregistered goes out under its join reference. -/
theorem continues_unregisterConnected (env : Env) (d : Driver) (topic : Topic) :
    Continues (some topic) joins d (d.unregisterConnected env topic).1 := by
  by_cases hj : d.state.protocol.channelState topic = some .joined
  swap
  · rw [unregisterConnected_of_not_joined hj]
    exact (Continues.refl _ _ d).unregister
  obtain ⟨c, hc, hs⟩ := Option.map_eq_some_iff.mp hj
  rw [unregisterConnected_of_joined hc hs]
  have hleave : Continues (some topic) joins d (d.setProtocol (d.state.protocol.leave topic).2) :=
    (Continues.refl _ _ d).setProtocol (aged_leave hc hs rfl rfl)
  exact hleave.unregister.sendKnown env fun _ => .inr ⟨c.joinRef, rfl, c, hc, rfl⟩

/-! ### Cancellation

A cancellation withdraws a wish or a request. It starts nothing. -/

/-- A record waits on for its load, or for nothing any more. -/
theorem continues_cancelJoin (hr : d.record topic = some channel) :
    Continues gone joins d (d.cancelJoin topic channel id) := by
  by_cases h : channel.joinWaiters.erase id = [] ∧ channel.everJoined = false
  · rw [cancelJoin_of_last h.1 h.2]
    have hset : Continues gone joins d (d.setRecord topic (channel.abandoned id)) :=
      (Continues.refl _ _ d).setRecord hr (.inl rfl)
    exact (hset.emitAll (by simp [Effect.Sends])).forgetJoins.discardChannel
  · rw [cancelJoin_of_others h]
    have hset : Continues gone joins d
        (d.setRecord topic { channel with joinWaiters := channel.joinWaiters.erase id }) :=
      (Continues.refl _ _ d).setRecord hr (.inr rfl)
    exact hset.emitAll (by simp [Effect.Sends])

/-- Taking a push or a leave out of a record leaves its load alone. -/
theorem continues_cancelUnsent (hr : d.record topic = some channel) :
    Continues gone joins d (d.cancelUnsent topic channel id) := by
  cases d.cancelUnsent_cases topic channel id with
  | leave pending hd hid he =>
    rw [he]
    refine Continues.emitAll ((Continues.refl _ _ d).setRecord hr (.inr rfl)) ?_
    simp [Effect.Sends]
  | push push hf he =>
    rw [he]
    refine Continues.emitAll ((Continues.refl _ _ d).setRecord hr (.inr rfl)) ?_
    exact push.forall_cancellation (by simp [Effect.Sends]) (by simp [Effect.Sends])
  | nothing hd hq he =>
    rw [he]
    exact .refl ..

/-- Requests under references have nothing to do with records. -/
theorem continues_cancelPending (d : Driver) (id : RequestId) :
    Continues gone joins d (d.cancelPending id) := by
  have hcall : Continues gone joins d (d.cancelCall id) := by
    rcases cancelCall_cases d id with hcancel | ⟨reference, call, -, -, hcancel⟩
    · rw [hcancel]
      exact .refl ..
    · rw [hcancel]
      refine .of_same rfl rfl rfl ?_ ⟨_, rfl, by simp [Effect.Sends]⟩
      exact Protocol.forgetPush_channels ..
  have hping : ∀ d : Driver, Continues gone joins d (d.cancelPing id) := fun d => by
    rcases cancelPing_cases d id with hcancel | ⟨reference, ping, -, -, hcancel⟩
    · rw [hcancel]
      exact .refl ..
    · rw [hcancel]
      refine .of_same rfl rfl rfl ?_ ⟨_, rfl, by simp [Effect.Sends]⟩
      exact Protocol.forgetHeartbeat_channels ..
  have hleave : ∀ d : Driver, Continues gone joins d (d.cancelLeave id) := fun d => by
    rcases cancelLeave_cases d id with hcancel | ⟨reference, leave, -, -, hcancel⟩
    · rw [hcancel]
      exact .refl ..
    · rw [hcancel]
      refine .of_same rfl rfl rfl rfl ⟨_, rfl, fun effect hm => ?_⟩
      split at hm
      · cases List.mem_singleton.mp hm
        exact not_false
      · cases hm
  exact (hcall.trans (hping _)).trans (hleave _)

/-- Wherever the request is found, its record stays. -/
theorem continues_cancel (d : Driver) (id : RequestId) : Continues gone joins d (d.cancel id) := by
  cases d.cancel_found id with
  | join topic channel hr hm he =>
    rw [he]
    exact continues_cancelJoin hr
  | unsent topic channel hr hm he =>
    rw [he]
    exact continues_cancelUnsent hr
  | pending hj hq he =>
    rw [he]
    exact continues_cancelPending d id

/-! ### Commands

A join is the one command that starts a load, and only for a record that is there. -/

theorem continues_accept (d : Driver) (command : Command) : Continues gone joins d (d.accept command) := by
  unfold accept
  split
  · exact (Continues.refl _ _ d).emitAll (by simp [Effect.Sends])
  · exact .refl ..

theorem Continues.queue (h : Continues gone joins d d') {push : QueuedPush} :
    Continues gone joins d (d'.queue env topic push) := by
  rcases queue_cases env d' topic push with ⟨error, -, he⟩ | ⟨channel, hr, -, -, he⟩
  · rw [he]
    exact h.emitAll (by simp [Effect.Sends])
  · rw [he]
    exact h.setRecord hr (.inr rfl)

/-- A heartbeat goes out under no join reference. -/
theorem Continues.heartbeat (h : Continues gone joins d d') (env : Env) {served : List RequestId}
    {r : Option Reference} :
    Continues gone joins d
      (d'.sendFrame env served ⟨none, r, "phoenix", "heartbeat", .emptyObject⟩).1 :=
  h.sendFrame env fun _ => .inl ⟨rfl, rfl⟩

/-- A join starts a load under the next id, or waits for the one under way. -/
theorem continues_handleJoin (d : Driver) (id : RequestId) (topic : Topic) (timeout : Duration) :
    Continues gone joins d (d.handleJoin id topic timeout) := by
  unfold handleJoin
  cases hr : d.record topic with
  | none => exact (Continues.refl _ _ d).emitAll (by simp [Effect.Sends])
  | some channel =>
    dsimp only
    split
    · have hset : Continues gone joins d
          (d.setRecord topic { channel with desired := true, status := .joined }) :=
        (Continues.refl _ _ d).setRecord hr (.inr rfl)
      exact hset.emitAll (by simp [Effect.Sends])
    · have hset : Continues gone joins d (d.setRecord topic { channel with
          desired := true, status := .waitingToJoin
          joinTimeout := max channel.joinTimeout timeout
          joinWaiters := channel.joinWaiters.insert id }) :=
        (Continues.refl _ _ d).setRecord hr (.inr rfl)
      exact hset.loadPayload

/-- A leave stops the channel first. -/
theorem continues_stopped (env : Env) (d : Driver) (id : RequestId) (topic : Topic) (timeout : Duration) :
    ∃ status, Continues gone joins ((d.setStatus topic status).stopChannel topic)
      (d.handleLeave env id topic timeout).1 := by
  cases leave_handled env d id topic timeout with
  | sent channel hc hs he =>
    rw [he]
    exact ⟨_, (Continues.refl _ _ _).sendLeave env⟩
  | deferred channel hs hr he =>
    rw [he]
    exact ⟨_, (Continues.refl _ _ _).setRecord hr (.inr rfl)⟩
  | idle hs hj he =>
    rw [he]
    exact ⟨_, (Continues.refl _ _ _).emitAll (by simp [Effect.Sends])⟩

theorem continues_handleLeave (env : Env) (d : Driver) (id : RequestId) (topic : Topic)
    (timeout : Duration) : Continues gone joins d (d.handleLeave env id topic timeout).1 := by
  obtain ⟨status, hrest⟩ : ∃ status, Continues gone joins ((d.setStatus topic status).stopChannel topic) _ :=
    continues_stopped env d id topic timeout
  exact (Continues.refl _ _ d).setStatus.stopChannel.trans hrest

/-- Of the commands a join alone may start a load, and none sends a `phx_join`. -/
theorem Continues.handleConnectedCommand (h : Continues gone joins d d') (command : Command) :
    Continues gone joins d (d'.handleConnectedCommand env command).1 := by
  cases command with
  | ping id =>
    have htrack : Continues gone joins d (d'.trackPing id) := h.same rfl rfl rfl rfl (.of_trace rfl)
    exact htrack.heartbeat env
  | join id topic timeout => exact h.trans (continues_handleJoin d' id topic timeout)
  | call id topic event payload started =>
    simp only [Driver.handleConnectedCommand, handlePush]
    split
    · exact h.sendPush env
    · exact h.queue
  | cast id topic event payload =>
    simp only [Driver.handleConnectedCommand, handlePush]
    split
    · exact h.sendPush env
    · exact h.queue
  | leave id topic timeout => exact h.trans (continues_handleLeave env d' id topic timeout)
  | connect | disconnect | subscribe | subscribeChannel _ | shutdown => exact h

/-- Without a connection nothing is loaded or sent. -/
theorem Continues.handleOfflineCommand (h : Continues gone joins d d') (command : Command) :
    Continues gone joins d (d'.handleOfflineCommand env command) := by
  cases command with
  | ping id => exact h.emitAll (by simp [Effect.Sends])
  | join id topic timeout =>
    simp only [Driver.handleOfflineCommand]
    cases hr : d'.record topic with
    | none => exact h.emitAll (by simp [Effect.Sends])
    | some channel => exact h.setRecord hr (.inr rfl)
  | call id topic event payload started => exact h.queue
  | cast id topic event payload => exact h.queue
  | leave id topic timeout => exact h.setStatus.stopChannel.emitAll (by simp [Effect.Sends])
  | connect | disconnect | subscribe | subscribeChannel _ | shutdown => exact h

end

/-! ### Payload results and timers

A generation starts with the result of the load the channel waits for. -/

section
variable {gone joins : Option Topic} {env : Env} {d d' : Driver} {topic : Topic}
  {channel : ChannelRecord} {reference : Reference} {response : Payload}

/-- This is where a `phx_join` is allowed: the record waits for no load any more. -/
theorem Continues.trackJoin (h : Continues gone (some topic) d d') {params : Value}
    (hr : d'.record topic = some channel) :
    Continues gone (some topic) d (d'.trackJoin topic params channel.loaded) := by
  have hset : Continues gone (some topic) d
      (d'.setRecord topic { channel.loaded with status := .joining }) := h.setRecord hr (.inl rfl)
  refine hset.trans (.of_idle (fun _ _ => rfl) (fun _ => .inr rfl) rfl (fun _ hm => hm) (fun t j ht hk => ?_)
    (.of_trace rfl))
  have hne : t ≠ topic := fun he => ht (by rw [he])
  obtain ⟨c, hc, hj⟩ := hk
  have hjoin : (d'.state.protocol.join topic params).2.channels[t]? = d'.state.protocol.channels[t]? := by
    by_cases ha : (d'.state.protocol.channelState topic).any ChannelState.active
    · rw [Protocol.join_of_active ha]
    · rw [Protocol.join_of_inactive ha, Table.lookup_insert, if_neg hne]
  exact ⟨c, hjoin.symm.trans hc, hj⟩

/-- Only here a topic is joined. -/
theorem continues_handlePayload (env : Env) (d : Driver) (topic : Topic) (payloadId : UInt64)
    (payload : Except String Value) :
    Continues gone (some topic) d (d.handlePayload env topic payloadId payload).1 := by
  cases payload_handled env d topic payloadId payload with
  | ignored h he =>
    rw [he]
    exact .refl ..
  | late channel hr ha h he =>
    rw [he]
    exact (Continues.refl _ _ d).setRecord hr (.inl rfl)
  | failed message channel hp hr ha he =>
    rw [he]
    refine Continues.emitChannel (Continues.answers ?_)
    exact (Continues.refl _ _ d).setRecord hr (.inl rfl)
  | joined value channel d₁ hp hr ha hd hs hd₁ hs₁ he =>
    rw [he]
    have hdiscard : Continues gone (some topic) d d₁ ∧ d₁.record topic = some channel := by
      rcases hd₁ with rfl | ⟨-, rfl⟩
      · exact ⟨.refl .., hr⟩
      · exact ⟨(Continues.refl _ _ d).discardChannel, hr⟩
    exact (hdiscard.1.trackJoin hdiscard.2).sendFrame env fun hj => absurd rfl hj

/-- A rejoin that comes due starts the next load. -/
theorem Continues.handleRejoin (h : Continues gone joins d d') :
    Continues gone joins d (d'.handleRejoin topic) := by
  unfold Driver.handleRejoin
  cases hr : d'.record topic with
  | none => exact h
  | some channel =>
    have hset : Continues gone joins d (d'.setRecord topic { channel with rejoinScheduled := false }) :=
      h.setRecord hr (.inr rfl)
    dsimp only
    split
    · exact hset.loadPayload
    · exact hset

/-- The channel is gone, and its record has a rejoin ahead or nothing. -/
theorem Continues.joinTimedOut (h : Continues gone joins d d') {duration : Duration} :
    Continues gone joins d (d'.joinTimedOut env topic duration) := by
  have hdiscard : Continues gone joins d (d'.discardChannel topic) := h.discardChannel
  cases hr : d'.record topic with
  | none =>
    rw [joinTimedOut_of_none hr]
    exact hdiscard
  | some channel =>
    have hr' : (d'.discardChannel topic).record topic = some channel := hr
    cases hl : channel.deferredLeave with
    | some pending =>
      rw [joinTimedOut_of_deferred hr hl]
      exact (hdiscard.setRecord hr' (.inl rfl)).answerLeave
    | none =>
      cases hd : channel.desired with
      | true =>
        rw [joinTimedOut_of_wanted hr hl hd]
        refine Continues.scheduleRejoin (Continues.answers ?_)
        exact hdiscard.setRecord hr' (.inl rfl)
      | false =>
        rw [joinTimedOut_of_unwanted hr hl hd]
        exact hdiscard.setRecord hr' (.inl rfl)

/-- The channel is gone; where it is wanted again, the next load starts. -/
theorem Continues.leaveTimedOut (h : Continues gone joins d d') {pending : PendingLeave}
    {duration : Duration} : Continues gone joins d (d'.leaveTimedOut topic pending duration) := by
  have hdiscard : Continues gone joins d
      ((d'.answerLeave (some pending) (.error (.timeout .leave duration))).discardChannel topic) :=
    h.answerLeave.discardChannel
  unfold Driver.leaveTimedOut
  dsimp only
  split
  · exact hdiscard
  · split
    · exact hdiscard.setStatus.loadPayload
    · exact hdiscard.setStatus

/-- A deadline whose reference is no longer in its table does nothing. -/
theorem Continues.handleOperationTimeout (h : Continues gone joins d d') (operation : OperationTimeout) :
    Continues gone joins d (d'.handleOperationTimeout env operation) := by
  unfold Driver.handleOperationTimeout
  split
  · dsimp only
    split
    · exact h.eraseJoin.joinTimedOut
    · exact h.eraseJoin
  · split
    · exact h
    · exact h.eraseLeave.leaveTimedOut

/-! ### Frames

A frame ends generations and starts none. The reply to a leave may start the load of the next one. -/

/-- What goes out after a join carries its reference, which its channel has. -/
theorem Continues.onJoined (h : Continues gone joins d d') :
    Continues gone joins d (d'.onJoined env topic reference response).1 := by
  cases hr : d'.record topic with
  | none =>
    rw [onJoined_of_none hr]
    exact h.eraseJoin.emitChannel.flush env
  | some channel =>
    have hr' : (d'.eraseJoin reference).record topic = some channel := hr
    have hset : Continues gone joins d ((d'.eraseJoin reference).setRecord topic channel.joined) :=
      h.eraseJoin.setRecord hr' (.inr rfl)
    have hwelcome : Continues gone joins d (d'.welcome topic reference response channel) :=
      hset.answers.emitChannel
    cases hl : channel.deferredLeave with
    | none =>
      rw [onJoined_of_not_deferred hr hl]
      exact hwelcome.flush env
    | some pending =>
      rw [onJoined_of_deferred hr hl]
      exact hwelcome.sendLeave env

/-- A refused join leaves its record, with a rejoin ahead if the channel is wanted. -/
theorem Continues.onJoinError (h : Continues gone joins d d') :
    Continues gone joins d (d'.onJoinError env topic reference response) := by
  cases hr : d'.record topic with
  | none =>
    rw [onJoinError_of_none hr]
    exact h.eraseJoin.emitChannel
  | some channel =>
    have hr' : (d'.eraseJoin reference).record topic = some channel := hr
    have hset : Continues gone joins d ((d'.eraseJoin reference).setRecord topic channel.refused) :=
      h.eraseJoin.setRecord hr' (.inr rfl)
    rw [onJoinError_of_some hr, refusals, ← emitAll_emitAll, ← answerLeave_eq]
    exact hset.answerLeave.answers.emitChannel.scheduleRejoin

/-- The channel is gone; where it is wanted again, the next load starts. -/
theorem Continues.onLeft (h : Continues gone joins d d') :
    Continues gone joins d (d'.onLeft topic reference response) := by
  have hsettle : Continues gone joins d (d'.leaveSettled reference response) := by
    rw [leaveSettled, ← answerLeave_eq]
    exact h.eraseLeave.answerLeave
  cases hr : d'.record topic with
  | none =>
    rw [onLeft_of_none hr]
    exact hsettle.emitChannel
  | some channel =>
    have hr' : (d'.leaveSettled reference response).record topic = some channel := hr
    have hset : ∀ status, Continues gone joins d
        ((d'.leaveSettled reference response).setRecord topic { channel with status }) := fun _ =>
      hsettle.setRecord hr' (.inr rfl)
    rw [onLeft_of_some hr]
    split
    · exact (hset _).emitChannel.loadPayload
    · exact (hset _).emitChannel

/-- A reply is answered to its call and told to the subscribers. -/
theorem Continues.onReply (h : Continues gone joins d d') {event : String} {status : ReplyStatus} :
    Continues gone joins d (d'.onReply topic event reference status response) := by
  cases hc : d'.state.pendingCalls[reference]? with
  | none =>
    rw [onReply_of_none hc]
    exact h.emitChannel
  | some call =>
    rw [onReply_of_some hc]
    have hsettled : Continues gone joins d (d'.callSettled reference call status response) :=
      h.same rfl rfl rfl rfl ⟨_, rfl, by simp [Effect.Sends]⟩
    exact hsettled.emitChannel

theorem Continues.onHeartbeatAck (h : Continues gone joins d d') :
    Continues gone joins d (d'.onHeartbeatAck reference) := by
  unfold Driver.onHeartbeatAck
  split
  · exact h.same rfl rfl rfl rfl (.of_trace rfl)
  split
  · exact h
  · exact h.same rfl rfl rfl rfl ⟨_, rfl, by simp [Effect.Sends]⟩

/-- The record waits for no load any more. -/
theorem Continues.onChannelClosed (h : Continues gone joins d d') {payload : Payload} :
    Continues gone joins d (d'.onChannelClosed topic payload) := by
  cases hr : d'.record topic with
  | none =>
    rw [onChannelClosed_of_none hr]
    exact h.forgetJoins.emitChannel
  | some channel =>
    have hr : (d'.forgetJoins topic).record topic = some channel := hr
    simp only [Driver.onChannelClosed, hr]
    have hset : Continues gone joins d ((d'.forgetJoins topic).setRecord topic
        { channel with desired := false, status := .closed }) :=
      h.forgetJoins.setRecord hr (.inr rfl)
    exact hset.emitChannel.stopChannel

/-- One case for each event that a frame can mean. -/
theorem Continues.handleEvent (h : Continues gone joins d d') (event : ProtocolEvent) :
    Continues gone joins d (d'.handleEvent env event).1 := by
  cases event with
  | joined topic reference response => exact h.onJoined
  | joinError topic reference response => exact h.onJoinError
  | reply topic name reference status response => exact h.onReply
  | left topic reference response => exact h.onLeft
  | heartbeatAck reference status => exact h.onHeartbeatAck
  | channelError topic payload => exact h.forgetJoins.setStatus.emitChannel.scheduleRejoin
  | channelClosed topic payload => exact h.onChannelClosed
  | message frame | staleMessage frame | unmatchedReply frame => exact h.emitChannel
  | requestInterrupted topic name reference => exact h.emitChannel

/-- Receiving a frame makes no channel known that was not, so the references of what follows were known
before. -/
theorem continues_handleIncoming (env : Env) (d : Driver) (message : WireMessage) :
    Continues gone joins d (d.handleIncoming env message).1 := by
  cases hd : env.codec.decode message with
  | error e =>
    simp only [handleIncoming, hd]
    exact .refl ..
  | ok frame =>
    obtain ⟨report, hi⟩ := handleIncoming_of_decoded (d := d) hd
    rw [hi]
    have hreport : Continues gone joins d (d.emitAll [.telemetry report]) :=
      (Continues.refl _ _ d).emitAll (by simp [Effect.Sends])
    have hreceive : Continues gone joins d
        ((d.emitAll [.telemetry report]).setProtocol (d.state.protocol.receive frame).2) :=
      hreport.setProtocol (aged_receive (d.emitAll [.telemetry report]) frame)
    rcases hrec : d.state.protocol.receive frame with ⟨e | event, p⟩
    · rw [hrec] at hreceive
      simp only [handleFrame, emitAll_state, hrec]
      exact hreceive
    · rw [hrec] at hreceive
      simp only [handleFrame, emitAll_state, hrec]
      exact hreceive.handleEvent event

/-- The heartbeat's next deadline is nothing to the channels. -/
theorem Continues.heartbeatDue (h : Continues gone joins d d') (due : Duration) :
    Continues gone joins d { d' with connection := { d'.connection with heartbeatDue := due } } :=
  h.same rfl rfl rfl rfl (.of_trace rfl)

/-- The report of an acknowledged join comes last. -/
theorem continues_onMessage (env : Env) (d : Driver) (message : WireMessage) :
    Continues gone joins d (d.onMessage env message).1 := by
  have hincoming : Continues gone joins d (d.handleIncoming env message).1 := continues_handleIncoming ..
  unfold onMessage
  dsimp only
  rcases hh : d.handleIncoming env message with ⟨d', _ | reason⟩
  · rw [hh] at hincoming
    simp only [Result.andThen]
    split
    · exact hincoming.heartbeatDue _
    · exact hincoming
  · rw [hh] at hincoming
    exact hincoming

/-- A heartbeat has no join reference, as it is on no channel. -/
theorem continues_handleHeartbeat (env : Env) (d : Driver) :
    Continues gone joins d (d.handleHeartbeat env).1 := by
  by_cases hh : d.connection.heartbeatReference.isSome = true
  · rw [handleHeartbeat_of_some hh]
    exact .refl ..
  · rw [handleHeartbeat_of_none hh]
    have htrack : Continues gone joins d d.trackHeartbeat := .of_same rfl rfl rfl rfl (.of_trace rfl)
    have hs : Continues gone joins d (d.trackHeartbeat.sendFrame env []
        ⟨none, some d.state.protocol.nextText, "phoenix", "heartbeat", .emptyObject⟩).1 :=
      htrack.heartbeat env
    rcases hsend : d.trackHeartbeat.sendFrame env []
      ⟨none, some d.state.protocol.nextText, "phoenix", "heartbeat", .emptyObject⟩ with ⟨d', _ | reason⟩
    · rw [hsend] at hs
      exact hs.heartbeatDue _
    · rw [hsend] at hs
      exact hs

end

/-! ### The connection

A lost connection ends every generation and keeps every record; a new one starts the loads of the
wanted channels. -/

section
variable {gone joins : Option Topic} {env : Env} {d d' : Driver} {topic : Topic}

/-- Every record is rewritten, and stops waiting or waits on. -/
theorem Continues.of_map {f : ChannelRecord → ChannelRecord}
    (hf : ∀ channel, (f channel).activePayload = none ∨ (f channel).activePayload = channel.activePayload)
    (hr : ∀ t, d'.record t = (d.record t).map f)
    (hn : d'.state.nextPayloadId = d.state.nextPayloadId)
    (hl : ∀ load ∈ d'.connection.payloads, load ∈ d.connection.payloads)
    (hk : ∀ (t : Topic) (j : Reference), d'.Known t j → d.Known t j)
    (he : d.Emits (fun effect => ¬ effect.Sends) d') : Continues gone joins d d' := by
  refine .of_idle (fun t _ => by rw [hr, Option.isSome_map]) (fun t => ?_) hn hl (fun t j _ => hk t j) he
  rw [awaited, awaited, hr]
  cases d.record t with
  | none => exact .inl rfl
  | some channel => exact hf channel

theorem Continues.emitSocket (h : Continues gone joins d d') {event : SocketEvent} :
    Continues gone joins d (d'.emitSocket event) := by
  exact h.trans (.of_map (f := ChannelRecord.heard event) (fun _ => .inr rfl) (emitSocket_record d' event) rfl
    (fun _ hm => hm) (fun _ _ hk => hk) (idle_emitSocket d' event))

theorem idle_interruptions (old : DriverState) (clock : Duration) :
    ∀ effect ∈ interruptions old clock, ¬ effect.Sends := by
  intro effect hm
  rcases mem_interruptions hm with ⟨operation, id, rfl⟩ | ⟨event, rfl⟩ <;> exact not_false

theorem idle_onDisconnect (d : Driver) (reason : DisconnectReason) :
    d.Emits (fun effect => ¬ effect.Sends) (d.onDisconnect reason) := by
  obtain ⟨reports, hreports, he⟩ := onDisconnect_eq d reason
  rw [he]
  refine ⟨_, rfl, fun effect hm => ?_⟩
  rcases List.mem_append.mp hm with hm | hm
  · exact idle_interruptions d.state d.clock effect hm
  · exact idle_of_report (hreports effect hm)

/-- The end of a connection sends and starts nothing. -/
theorem idle_settle (env : Env) (r : Result) :
    r.1.Emits (fun effect => ¬ effect.Sends) (settle env r) := by
  rcases r with ⟨d', _ | reason⟩
  · exact .refl ..
  have hattempt : d'.Emits (fun effect => ¬ effect.Sends)
      { d'.onDisconnect reason with attempt := nextAttempt (d'.onDisconnect reason).attempt } :=
    (idle_onDisconnect d' reason).silent rfl
  unfold settle afterFailure
  dsimp only
  split
  · exact (hattempt.trans (idle_emitSocket _ _)).silent rfl
  · exact (hattempt.trans (idle_emitSocket _ _)).silent rfl

/-- The loads under way are given up with the connection, and the records stay. -/
theorem Continues.onDisconnect (h : Continues gone joins d d') {reason : DisconnectReason} :
    Continues gone joins d (d'.onDisconnect reason) := by
  have haged := aged_onDisconnect (d := d') reason
  have hidle := idle_onDisconnect d' reason
  obtain ⟨reports, -, he⟩ := onDisconnect_eq d' reason
  rw [he] at haged hidle ⊢
  refine h.trans (.of_map (f := offlineRecord) (fun _ => .inl rfl) (fun t => Std.ExtTreeMap.getElem?_map) rfl
    nofun (fun t j hk => ?_) hidle)
  obtain ⟨c', hc', rfl⟩ := hk
  exact haged.channels t c' hc'

/-- What follows a failure is a report. -/
theorem Continues.afterFailure (h : Continues gone joins d d') {reason : DisconnectReason} :
    Continues gone joins d (d'.afterFailure env reason) := by
  have hattempt : Continues gone joins d { d' with attempt := nextAttempt d'.attempt } :=
    h.same rfl rfl rfl rfl (.of_trace rfl)
  unfold Driver.afterFailure
  dsimp only
  split
  · exact hattempt.emitSocket.same rfl rfl rfl rfl (.of_trace rfl)
  · exact hattempt.emitSocket.same rfl rfl rfl rfl (.of_trace rfl)

theorem Continues.settle {r : Result} (h : Continues gone joins d r.1) :
    Continues gone joins d (settle env r) := by
  rcases r with ⟨d', _ | reason⟩
  · exact h
  · exact h.onDisconnect.afterFailure

theorem Continues.disconnect (h : Continues gone joins d d') : Continues gone joins d d'.disconnect :=
  h.onDisconnect.same rfl rfl rfl rfl ⟨[.acknowledged], rfl, by simp [Effect.Sends]⟩

theorem Continues.close (h : Continues gone joins d d') : Continues gone joins d d'.close :=
  h.emitSocket.same rfl rfl rfl rfl (.of_trace rfl)

theorem Continues.notices (h : Continues gone joins d d') {reports : List Effect}
    (hr : ∀ effect ∈ reports, effect.IsNotice) : Continues gone joins d (d'.emitAll reports) := by
  refine h.emitAll fun effect hm => ?_
  rcases hr effect hm with hr | rfl
  · exact idle_of_report hr
  · exact not_false

theorem continues_connectionMade (env : Env) (d : Driver) (started : Duration) (transport : Transport)
    (order : List Topic) :
    Continues gone joins d (d.connectionMade env started transport order) := by
  have hconnected : Continues gone joins d (d.connected env started transport) :=
    .of_map (f := ChannelRecord.unscheduled) (fun _ => .inr rfl) (fun t => connected_record ..) rfl nofun
      (fun _ _ hk => hk) ⟨_, rfl, by simp [Effect.Sends]⟩
  exact connectionMade_induction (Continues gone joins d) hconnected fun d' topic h => h.setStatus.loadPayload

end

/-! ### Steps

Each kind of step in each phase, by the lemma for its handler. -/

end Driver

/-- The topic whose record an input lets come or go. -/
def Input.registers : Input → Option Topic
  | .lifecycle (.register topic) | .lifecycle (.unregister topic) => some topic
  | _ => none

/-- The topic whose load an input completes. -/
def Input.loaded : Input → Option Topic
  | .payload topic _ _ => some topic
  | _ => none

namespace Driver

section
variable {gone joins : Option Topic} {env : Env} {d d' : Driver} {input : Input}

theorem continues_handleLifecycle (env : Env) (d : Driver) (command : LifecycleCommand) :
    Continues (Input.lifecycle command).registers joins d (d.handleConnectedLifecycle env command).1 ∧
      Continues (Input.lifecycle command).registers joins d (d.handleOfflineLifecycle env command) := by
  cases command with
  | register topic => exact ⟨continues_register env d topic, continues_register env d topic⟩
  | unregister topic =>
    exact ⟨continues_unregisterConnected env d topic, (Continues.refl _ _ d).unregister⟩
  | cancel id => exact ⟨continues_cancel d id, continues_cancel d id⟩

/-- One case for each step without a connection. Only a new connection loads, for every wanted channel. -/
theorem OfflineStep.continues (hs : OfflineStep env d input d') :
    Continues input.registers input.loaded d d' := by
  have hreports : ∀ {reports : List Effect}, (∀ effect ∈ reports, effect.IsNotice) →
      Continues input.registers input.loaded d (d.emitAll reports) := fun hr =>
    (Continues.refl _ _ d).notices hr
  cases hs with
  | lifecycle command => exact (continues_handleLifecycle env d command).2
  | command command => exact (continues_accept d command).handleOfflineCommand command
  | acknowledge command hc => exact (Continues.refl _ _ d).emitAll (by simp [Effect.Sends])
  | disconnect d₁ reports he hr =>
    rw [he]
    exact (hreports hr).disconnect
  | close input hi d₁ reports he hr =>
    rw [he]
    exact (hreports hr).close
  | connect input hi d₁ reports he attempt hr =>
    rw [he]
    have hattempt : Continues input.registers input.loaded d { d.emitAll reports with attempt } :=
      (hreports hr).same rfl rfl rfl rfl (.of_trace rfl)
    exact hattempt.emitSocket.same rfl rfl rfl rfl (.of_trace rfl)
  | failed input hi started error =>
    have hfinished : Continues input.registers input.loaded d (d.attemptFinished started false) :=
      (Continues.refl _ _ d).emitAll (by simp [Effect.Sends])
    exact hfinished.emitSocket.afterFailure
  | made started due transport order hp ho => exact continues_connectionMade env d started transport order

/-- One case for each thing that a connected driver wakes up for. Only the result of a load may join. -/
theorem ConnectedStep.continues (hs : ConnectedStep env d input d') :
    Continues input.registers input.loaded d d' := by
  cases hs with
  | lifecycle command => exact (continues_handleLifecycle env d command).1.settle
  | command command => exact ((continues_accept d command).handleConnectedCommand command).settle
  | acknowledge => exact (Continues.refl _ _ d).emitAll (by simp [Effect.Sends])
  | disconnect => exact (Continues.refl _ _ d).disconnect
  | close =>
    have hclose : Continues none none d d.acknowledge.close :=
      ((Continues.refl _ _ d).emitAll (by simp [Effect.Sends])).close
    exact hclose.trans (.of_idle (fun _ _ => rfl) (fun _ => .inr rfl) rfl (List.nil_subset _) (fun _ _ _ hk => hk)
      (.of_trace rfl))
  | lost input hi reason =>
    have hrefl : Continues input.registers input.loaded d (d, some reason).1 := .refl ..
    exact hrefl.settle
  | message message => exact (continues_onMessage env d message).settle
  | heartbeat => exact (continues_handleHeartbeat env d).settle
  | payload topic payloadId result hm =>
    have htake : Continues none (some topic) d (d.takePayload topic payloadId) :=
      .of_idle (fun _ _ => rfl) (fun _ => .inr rfl) rfl (fun _ hm => List.mem_of_mem_erase hm)
        (fun _ _ _ hk => hk) (.of_trace rfl)
    exact (htake.trans (continues_handlePayload env _ topic payloadId result)).settle
  | rejoin timer hm =>
    have htake : Continues none none d (d.takeRejoin timer) := .of_same rfl rfl rfl rfl (.of_trace rfl)
    exact htake.handleRejoin
  | operationTimeout timer hm =>
    have htake : Continues none none d (d.takeOperationTimeout timer) :=
      .of_same rfl rfl rfl rfl (.of_trace rfl)
    exact htake.handleOperationTimeout timer.value

/-- **Every step continues records, loads and generations**: a record comes or goes only
with its handle, a load has the next id, and only the result of a load sends a join. -/
theorem continues_step (hs : d.step env input = some d') :
    Continues input.registers input.loaded d d' := by
  rcases stepped hs with ⟨elapsed, rfl, rfl⟩ | ⟨topic, rfl, rfl⟩ | ⟨-, -, hs⟩ | ⟨-, hs⟩
  · exact .of_same rfl rfl rfl rfl (.of_trace rfl)
  · exact (Continues.refl _ _ d).setStatus
  · exact hs.continues
  · exact hs.continues

end

/-! ### What an input leads to

The steps again, read backwards: which inputs can have made a change of the records, loads or
timers. -/

section
variable {env : Env} {d d' : Driver} {t : Topic} {id : UInt64}

/-- What became of a lifecycle command, in whatever phase. -/
theorem lifecycle_cases {command : LifecycleCommand} (hs : d.step env (.lifecycle command) = some d') :
    d' = d.handleOfflineLifecycle env command ∨
      d' = settle env (d.handleConnectedLifecycle env command) := by
  unfold step at hs
  dsimp only at hs
  split at hs
  · exact .inl (Option.some.inj hs).symm
  · exact .inl (Option.some.inj hs).symm
  · exact .inr (Option.some.inj hs).symm
  · exact .inl (Option.some.inj hs).symm
  · cases hs

/-- A message is taken by a connected driver only. -/
theorem message_cases {message : WireMessage} (hs : d.step env (.message message) = some d') :
    d' = settle env (d.onMessage env message) := by
  unfold step at hs
  dsimp only at hs
  split at hs
  · cases hs
  · cases hs
  · exact (Option.some.inj hs).symm
  · cases hs
  · cases hs

/-- A deadline is taken by a connected driver only. -/
theorem timeout_cases {timer : Timer OperationTimeout}
    (hs : d.step env (.operationTimeout timer) = some d') :
    d' = (d.takeOperationTimeout timer).handleOperationTimeout env timer.value := by
  unfold step at hs
  dsimp only at hs
  split at hs
  · cases hs
  · cases hs
  · simp only [stepConnected] at hs
    split at hs
    · exact (Option.some.inj hs).symm
    · cases hs
  · cases hs
  · cases hs

/-- The result of a load is taken by a connected driver only. -/
theorem payload_cases {result : Except String Value} (hs : d.step env (.payload t id result) = some d') :
    d.phase = .connected ∧
      d' = settle env ((d.takePayload t id).handlePayload env t id result) := by
  unfold step at hs
  dsimp only at hs
  split at hs
  · cases hs
  · cases hs
  · simp only [stepConnected] at hs
    split at hs
    · exact ⟨by assumption, (Option.some.inj hs).symm⟩
    · cases hs
  · cases hs
  · cases hs

/-- What became of a leave, in whatever phase. -/
theorem leave_cases {rid : RequestId} {timeout : Duration}
    (hs : d.step env (.command (.leave rid t timeout)) = some d') :
    d' = (d.accept (.leave rid t timeout)).handleOfflineCommand env (.leave rid t timeout) ∨
      d' = settle env ((d.accept (.leave rid t timeout)).handleConnectedCommand env
        (.leave rid t timeout)) := by
  unfold step at hs
  dsimp only at hs
  split at hs
  · exact .inl (Option.some.inj hs).symm
  · exact .inl (Option.some.inj hs).symm
  · exact .inr (Option.some.inj hs).symm
  · exact .inl (Option.some.inj hs).symm
  · cases hs

end

end Driver
end PhoenixChannel.Client
