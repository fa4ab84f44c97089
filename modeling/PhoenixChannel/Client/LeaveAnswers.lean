import PhoenixChannel.Client.Superseded
import PhoenixChannel.Client.Plans

/-! When a leave is answered with success.

The driver keeps a leave by its reference or in the record that defers it, and both say on which topic
it was made. So the reply to a leave, or to the join it was deferred to, answers the leave that asked
for this topic. What is left is the leave that finds nothing to do. It is answered at once, also while
an earlier leave of the channel waits for the server. -/
namespace PhoenixChannel.Client
open PhoenixChannel.Runtime Library

namespace Driver

/-- The leaves that are held were made on their topic. -/
structure Asked (A : RequestId → Topic → Prop) (d : Driver) : Prop where
  deferred : ∀ (t : Topic) (channel : ChannelRecord) (leave : PendingLeave), d.record t = some channel →
    channel.deferredLeave = some leave → A leave.id t
  sent : ∀ (r : Reference) (t : Topic) (leave : PendingLeave),
    d.state.protocol.pending[r]? = some (.leave t) → d.state.pendingLeaves[r]? = some leave → A leave.id t

/-- From `d` to `d'` leaves are held as they were made, and those answered with success are of the kind `G`. -/
structure Grants (A : RequestId → Topic → Prop) (G : RequestId → Prop) (d d' : Driver) : Prop where
  asked : d.Asked A → d'.Asked A
  emits : d.Emits (fun effect => ∀ id, effect.grants = some id → G id) d'

section
variable {A : RequestId → Topic → Prop} {G G' : RequestId → Prop} {env : Env} {d d' d'' : Driver} {topic : Topic}
  {channel : ChannelRecord} {effects : List Effect}

theorem Grants.trans (h : Grants A G d d') (h' : Grants A G d' d'') : Grants A G d d'' :=
  ⟨fun ha => h'.asked (h.asked ha), h.emits.trans h'.emits⟩

theorem Grants.mono (h : Grants A G d d') (himp : ∀ id, G id → G' id) : Grants A G' d d' :=
  ⟨h.asked, h.emits.mono fun _ hg id he => himp id (hg id he)⟩

/-- Leaves that are held under their references or in their records are held on their topics. -/
theorem KeepsPlans.asked (h : KeepsPlans G d d') (ha : d.Asked A) : d'.Asked A where
  deferred t channel leave hr hl := by
    have hplans := h.records t
    rw [hr, Option.map_some] at hplans
    obtain ⟨channel', hr', hp⟩ := Option.map_eq_some_iff.mp hplans.symm
    simp only [ChannelRecord.plans, Prod.mk.injEq] at hp
    rw [hl, Option.map_some] at hp
    obtain ⟨leave', hl', he⟩ := Option.map_eq_some_iff.mp hp.2.2
    rw [← he]
    exact ha.deferred t channel' leave' hr' hl'
  sent r t leave hp hl := by
    obtain ⟨leave', hl', he⟩ := h.leaves r leave hl
    rw [← he]
    exact ha.sent r t leave' (h.pending r t hp) hl'

theorem KeepsPlans.grants (h : KeepsPlans G d d') : Grants A G d d' := ⟨h.asked, h.emits⟩

theorem Grants.refl (A : RequestId → Topic → Prop) (G : RequestId → Prop) (d : Driver) : Grants A G d d :=
  (KeepsPlans.refl G d).grants

/-- The handler does not touch what the driver holds. -/
theorem Grants.keeps (h : Grants A G d d') (h' : KeepsPlans G d' d'') : Grants A G d d'' := h.trans h'.grants

theorem Grants.emitAll (h : Grants A G d d') (he : ∀ effect ∈ effects, effect.grants = none) :
    Grants A G d (d'.emitAll effects) :=
  h.keeps ((KeepsPlans.refl G d').emitAll he)

/-- A record's deferred leave goes, or was made on its topic. -/
theorem Grants.setRecord (h : Grants A G d d')
    (hl : ∀ leave, channel.deferredLeave = some leave → A leave.id topic) :
    Grants A G d (d'.setRecord topic channel) := by
  refine h.trans ⟨fun ha => ⟨fun t channel' leave hr hl' => ?_, ha.sent⟩, .of_trace rfl⟩
  rw [record_setRecord_eq] at hr
  split at hr
  · rename_i ht
    cases hr
    rw [ht]
    exact hl leave hl'
  · exact ha.deferred t channel' leave hr hl'

/-- A record that keeps its deferred leave. -/
theorem Grants.rewrite (h : Grants A G d d') {channel' : ChannelRecord} (hr : d'.record topic = some channel)
    (hl : channel'.deferredLeave = channel.deferredLeave) : Grants A G d (d'.setRecord topic channel') := by
  refine h.trans ⟨fun ha => ?_, .of_trace rfl⟩
  refine ((Grants.refl A G d').setRecord fun leave hl' => ?_).asked ha
  exact ha.deferred topic channel leave hr (by rw [← hl, hl'])

/-- An interruption is no success. -/
theorem Grants.stopChannel (h : Grants A G d d') : Grants A G d (d'.stopChannel topic) := by
  cases hr : d'.record topic with
  | none =>
    rw [stopChannel_of_none hr]
    exact h
  | some channel =>
    rw [stopChannel_of_some hr]
    have hwrite : Grants A G d (d'.setRecord topic channel.stopped) := h.setRecord nofun
    refine hwrite.emitAll fun effect hm => ?_
    rcases mem_stopEffects hm with ⟨operation, id, rfl⟩ | ⟨event, rfl⟩
    · exact grants_of_refusal
    · rfl

theorem Grants.register (h : Grants A G d d') : Grants A G d (d'.register env topic) := by
  unfold Driver.register
  split
  · exact h
  · exact h.setRecord nofun

theorem Grants.unregister (h : Grants A G d d') : Grants A G d (d'.unregister topic) := by
  let d₁ : Driver := { d'.stopChannel topic with
    state := { (d'.stopChannel topic).state with
      channels := (d'.stopChannel topic).state.channels.erase topic } }
  have herase : Grants A G d d₁ := h.stopChannel.trans
    ⟨fun ha => ⟨fun t channel leave hr hl => ha.deferred t channel leave (Table.lookup_of_erase hr) hl, ha.sent⟩,
      .of_trace rfl⟩
  exact herase.keeps (KeepsPlans.refl G d₁).discardChannel

theorem Grants.scheduleRejoin (h : Grants A G d d') : Grants A G d (d'.scheduleRejoin env topic) := by
  rcases scheduleRejoin_cases env d' topic with ⟨-, he⟩ | ⟨channel, hr, -, -, he⟩
  · rw [he]
    exact h
  · rw [he]
    have hwrite : Grants A G d (d'.setRecord topic { channel with
        rejoinScheduled := true, joinAttempt := nextAttempt channel.joinAttempt }) := h.rewrite hr rfl
    exact hwrite.trans ⟨fun ha => ⟨ha.deferred, ha.sent⟩, .of_trace rfl⟩

/-- A rejoin answers no leave. -/
theorem Grants.handleRejoin (h : Grants A G d d') : Grants A G d (d'.handleRejoin topic) := by
  unfold Driver.handleRejoin
  cases hr : d'.record topic with
  | none => exact h
  | some channel =>
    have hwrite : Grants A G d (d'.setRecord topic { channel with rejoinScheduled := false }) := h.rewrite hr rfl
    dsimp only
    split
    · exact hwrite.keeps (KeepsPlans.refl G _).loadPayload
    · exact hwrite

/-- A leave that goes out was made on its topic. -/
theorem Grants.sendLeave (h : Grants A G d d') {pending : PendingLeave} (hp : d.Asked A → A pending.id topic) :
    Grants A G d (d'.sendLeave env topic pending).1 := by
  cases hc : d'.state.protocol.joinedRef topic with
  | none =>
    obtain ⟨e, he⟩ := sendLeave_of_not_joined env pending hc
    rw [he]
    exact h.keeps ((KeepsPlans.refl G d').setProtocol fun _ _ h => h)
  | some joinRef =>
    obtain ⟨channel, hc, hs, -⟩ := Protocol.joinedRef_eq_some.mp hc
    rw [sendLeave_of_joined hc hs]
    have htrack : Grants A G d (d'.trackLeave topic pending) := by
      refine ⟨fun ha₀ => ?_, h.emits.silent rfl⟩
      have ha := h.asked ha₀
      refine ⟨ha.deferred, fun r t leave hpend hl => ?_⟩
      have hl : (d'.state.pendingLeaves.insert d'.state.protocol.nextText pending)[r]? = some leave := hl
      simp only [trackLeave, Protocol.leave_of_joined hc hs] at hpend
      rw [Table.lookup_insert] at hl hpend
      split at hl
      · rename_i hr
        rw [if_pos hr] at hpend
        cases hl
        cases hpend
        exact hp ha₀
      · rename_i hr
        rw [if_neg hr] at hpend
        exact ha.sent r t leave hpend hl
    exact htrack.keeps (KeepsPlans.refl G _).sendFrame

/-- Nothing waits for a topic that was discarded. -/
theorem not_pending_discardChannel {p : Protocol} {t : Topic} {r : Reference} {x : Pending}
    (h : (p.discardChannel t).2.pending[r]? = some x) : x.topic? ≠ some t := by
  have h : (p.pending.filter fun _ pending => pending.topic? != some t)[r]? = some x := h
  rw [Std.ExtTreeMap.getElem?_filter', Option.filter_eq_some_iff] at h
  simpa using h.2

/-- The leave of a dropped handle waits for no reply. -/
theorem Grants.unregisterConnected (h : Grants A G d d') : Grants A G d (d'.unregisterConnected env topic).1 := by
  by_cases hj : d'.state.protocol.channelState topic = some .joined
  · obtain ⟨c, hc, hs⟩ := Option.map_eq_some_iff.mp hj
    rw [unregisterConnected_of_joined hc hs]
    refine Grants.keeps ?_ (KeepsPlans.refl G _).sendFrame
    let d₁ : Driver := d'.setProtocol (d'.state.protocol.leave topic).2
    have hunregister : ∀ A : RequestId → Topic → Prop, Grants A G d₁ (d₁.unregister topic) := fun A =>
      (Grants.refl A G d₁).unregister
    refine h.trans ⟨fun ha => ?_, ((Emits.of_trace rfl).trans (hunregister A).emits)⟩
    -- the leave of this topic waits under the next reference until the channel is discarded
    have hbut : d₁.Asked fun id t => A id t ∨ t = topic := by
      refine ⟨fun t channel leave hr hl => .inl (ha.deferred t channel leave hr hl), fun r t leave hp hl => ?_⟩
      have hp : (d'.state.protocol.leave topic).2.pending[r]? = some (.leave t) := hp
      rw [Protocol.leave_of_joined hc hs, Table.lookup_insert] at hp
      split at hp
      · cases hp
        exact .inr rfl
      · exact .inl (ha.sent r t leave hp hl)
    have hafter := (hunregister _).asked hbut
    refine ⟨fun t channel leave hr hl => ?_, fun r t leave hp hl => ?_⟩
    · refine (hafter.deferred t channel leave hr hl).resolve_right fun ht => ?_
      rw [ht, record_unregister] at hr
      cases hr
    · refine (hafter.sent r t leave hp hl).resolve_right fun ht => ?_
      rw [unregister_protocol] at hp
      exact not_pending_discardChannel (by rw [ht] at hp; exact hp) rfl
  · rw [unregisterConnected_of_not_joined hj]
    exact h.unregister

/-- A leave is sent, deferred to a join, or granted. -/
theorem grants_handleLeave (h : Grants A G d d') {id : RequestId} {timeout : Duration} (hid : A id topic)
    (hg : d'.state.protocol.channelState topic ≠ some .joined →
      (d'.state.protocol.channelState topic = some .joining → d'.record topic = none) → G id) :
    Grants A G d (d'.handleLeave env id topic timeout).1 := by
  have hstop : ∀ status, Grants A G d ((d'.setStatus topic status).stopChannel topic) := fun status =>
    (h.keeps (KeepsPlans.refl G d').setStatus).stopChannel
  cases leave_handled env d' id topic timeout with
  | sent channel hc hs he =>
    rw [he]
    exact (hstop _).sendLeave fun _ => hid
  | deferred channel hs hr he =>
    rw [he]
    refine (hstop _).setRecord fun leave hl => ?_
    cases hl
    exact hid
  | idle hs hj he =>
    rw [he]
    refine (hstop _).keeps ((KeepsPlans.refl G _).grant fun effect hm id' he => ?_)
    cases List.mem_singleton.mp hm
    cases he
    exact hg hs hj

/-- A timeout is no success, and the deferred leave is told of it. -/
theorem Grants.joinTimedOut (h : Grants A G d d') {duration : Duration} :
    Grants A G d (d'.joinTimedOut env topic duration) := by
  have hdiscard : Grants A G d (d'.discardChannel topic) := h.keeps (KeepsPlans.refl G d').discardChannel
  cases hr : d'.record topic with
  | none =>
    rw [joinTimedOut_of_none hr]
    exact hdiscard
  | some channel =>
    have hr' : (d'.discardChannel topic).record topic = some channel := hr
    cases hp : channel.deferredLeave with
    | some pending =>
      rw [joinTimedOut_of_deferred hr hp]
      refine Grants.keeps (hdiscard.setRecord ?_) (KeepsPlans.refl G _).refuseLeave
      nofun
    | none =>
      cases hd : channel.desired with
      | true =>
        rw [joinTimedOut_of_wanted hr hp hd]
        refine (Grants.keeps (hdiscard.rewrite hr' ?_) (KeepsPlans.refl G _).refuse).scheduleRejoin
        rfl
      | false =>
        rw [joinTimedOut_of_unwanted hr hp hd]
        exact hdiscard.rewrite hr' rfl

/-- A timeout is no success. -/
theorem Grants.handleOperationTimeout (h : Grants A G d d') (operation : OperationTimeout) :
    Grants A G d (d'.handleOperationTimeout env operation) := by
  cases operation with
  | join topic reference duration =>
    have herase : Grants A G d (d'.eraseJoin reference) := h.keeps (KeepsPlans.refl G d').eraseJoin
    simp only [Driver.handleOperationTimeout]
    split
    · exact herase.joinTimedOut
    · exact herase
  | leave topic reference duration =>
    simp only [Driver.handleOperationTimeout]
    split
    · exact h
    · exact h.keeps (KeepsPlans.refl G d').eraseLeave.leaveTimedOut

/-! ### Events

A leave is answered with success by the reply to its own frame, or by the reply that refuses the
join it was deferred to. -/

/-- The leaves that an event answers with success. -/
def EventGrants (d : Driver) (event : ProtocolEvent) (id : RequestId) : Prop :=
  match event with
  | .left _ reference _ => ∃ leave, d.state.pendingLeaves[reference]? = some leave ∧ leave.id = id
  | .joinError topic _ _ =>
    ∃ channel leave, d.record topic = some channel ∧ channel.deferredLeave = some leave ∧ leave.id = id
  | _ => False

/-- A deferred leave is sent with its topic, and so is held on it under the new reference. -/
theorem grants_onJoined (reference : Reference) (response : Payload) :
    Grants A G d (d.onJoined env topic reference response).1 := by
  have herase : KeepsPlans G d (d.eraseJoin reference) := (KeepsPlans.refl G d).eraseJoin
  cases hr : d.record topic with
  | none =>
    rw [onJoined_of_none hr]
    exact herase.emitChannel.flush.grants
  | some channel =>
    have hwelcome : Grants A G d (d.welcome topic reference response channel) := by
      have hwrite : Grants A G d ((d.eraseJoin reference).setRecord topic channel.joined) :=
        herase.grants.setRecord nofun
      refine Grants.keeps (hwrite.emitAll fun effect hm => ?_) (KeepsPlans.refl G _).emitChannel
      obtain ⟨id, -, rfl⟩ := List.mem_map.mp hm
      rfl
    cases hp : channel.deferredLeave with
    | none =>
      rw [onJoined_of_not_deferred hr hp]
      exact hwelcome.keeps (KeepsPlans.refl G _).flush
    | some pending =>
      rw [onJoined_of_deferred hr hp]
      exact hwelcome.sendLeave fun ha => ha.deferred topic channel pending hr hp

/-- A refused join answers the leave that was deferred to it. -/
theorem grants_onJoinError (reference : Reference) (response : Payload)
    (hg : ∀ channel leave, d.record topic = some channel → channel.deferredLeave = some leave → G leave.id) :
    Grants A G d (d.onJoinError env topic reference response) := by
  have herase : KeepsPlans G d (d.eraseJoin reference) := (KeepsPlans.refl G d).eraseJoin
  cases hr : d.record topic with
  | none =>
    rw [onJoinError_of_none hr]
    exact herase.emitChannel.grants
  | some channel =>
    rw [onJoinError_of_some hr]
    have hwrite : Grants A G d ((d.eraseJoin reference).setRecord topic channel.refused) :=
      herase.grants.setRecord nofun
    refine (Grants.keeps hwrite ?_).scheduleRejoin
    refine KeepsPlans.emitChannel ((KeepsPlans.refl G _).grant fun effect hm id he => ?_)
    rcases List.mem_append.mp hm with hm | hm
    · obtain ⟨leave, hl, -, rfl⟩ := mem_leaveAnswers hm
      cases he
      exact hg channel leave hr hl
    · obtain ⟨waiter, -, rfl⟩ := List.mem_map.mp hm
      cases he

theorem grants_onChannelError (payload : Payload) : Grants A G d (d.onChannelError env topic payload) :=
  (KeepsPlans.refl G d).forgetJoins.setStatus.emitChannel.grants.scheduleRejoin

/-- A channel that the server closes interrupts the leave that was deferred. -/
theorem grants_onChannelClosed (payload : Payload) : Grants A G d (d.onChannelClosed topic payload) := by
  have hforget : KeepsPlans G d (d.forgetJoins topic) := (KeepsPlans.refl G d).forgetJoins
  unfold onChannelClosed
  dsimp only
  split
  · rename_i channel hr
    refine KeepsPlans.grants (KeepsPlans.emitChannel (hforget.setRecord hr ?_)) |>.stopChannel
    rfl
  · exact hforget.emitChannel.grants.stopChannel

/-- An event answers a leave, or tells the driver of a channel that is left or refused. -/
theorem grants_handleEvent (event : ProtocolEvent) :
    Grants A (d.EventGrants event) d (d.handleEvent env event).1 := by
  cases event with
  | joined topic reference response => exact grants_onJoined reference response
  | joinError topic reference response =>
    exact grants_onJoinError reference response fun channel leave hr hl => ⟨channel, leave, hr, hl, rfl⟩
  | reply topic name reference status response => exact (KeepsPlans.refl _ d).onReply.grants
  | left topic reference response =>
    exact ((KeepsPlans.refl _ d).onLeft fun leave hl => ⟨leave, hl, rfl⟩).grants
  | heartbeatAck reference status => exact (KeepsPlans.refl _ d).onHeartbeatAck.grants
  | channelError topic payload => exact grants_onChannelError payload
  | channelClosed topic payload => exact grants_onChannelClosed payload
  | message frame | staleMessage frame | unmatchedReply frame => exact (KeepsPlans.refl _ d).emitChannel.grants
  | requestInterrupted topic name reference => exact (KeepsPlans.refl _ d).emitChannel.grants

end

/-! ### Steps

`Asked` says that every leave the driver holds was asked for on the topic it is held for. A step
keeps this, and what it grants was asked for. -/

section
variable {A : RequestId → Topic → Prop} {G : RequestId → Prop} {env : Env} {d d' d'' : Driver} {topic : Topic}
  {input : Input}

/-- Whatever was held for the connection is gone with it. -/
theorem Grants.onDisconnect (h : Grants A G d d') {reason : DisconnectReason} :
    Grants A G d (d'.onDisconnect reason) := by
  obtain ⟨reports, hreports, he⟩ := onDisconnect_eq d' reason
  rw [he]
  refine h.trans ⟨fun _ => ⟨fun t channel leave hr hl => ?_, fun r t leave hp hl => ?_⟩, _, rfl, ?_⟩
  · obtain ⟨channel', -, rfl⟩ := Table.lookup_of_map hr
    cases hl
  · exact absurd hl Table.not_lookup_empty
  · intro effect hm id hg
    rcases List.mem_append.mp hm with hm | hm
    · obtain ⟨success, rfl⟩ := Effect.grants_eq_some hg
      rcases mem_interruptions hm with ⟨operation, id', he⟩ | ⟨event, he⟩
      · cases he
      · cases he
    · rw [grants_of_report (hreports effect hm)] at hg
      cases hg

/-- Records, leaves and requests stay as they are. -/
theorem Grants.same (h : Grants A G d d') (hs : d''.state = d'.state) (ht : d''.trace = d'.trace) :
    Grants A G d d'' := by
  refine h.trans ⟨fun ha => ⟨fun t channel leave hr hl => ?_, fun r t leave hp hl => ?_⟩, .of_trace ht⟩
  · rw [record, hs] at hr
    exact ha.deferred t channel leave hr hl
  · rw [hs] at hp hl
    exact ha.sent r t leave hp hl

theorem Grants.emitSocket (h : Grants A G d d') {event : SocketEvent} : Grants A G d (d'.emitSocket event) :=
  h.keeps (KeepsPlans.refl G d').emitSocket

theorem Grants.afterFailure (h : Grants A G d d') {reason : DisconnectReason} :
    Grants A G d (d'.afterFailure env reason) := by
  have hattempt : Grants A G d { d' with attempt := nextAttempt d'.attempt } := h.same rfl rfl
  unfold Driver.afterFailure
  dsimp only
  split
  · exact hattempt.emitSocket.same rfl rfl
  · exact hattempt.emitSocket.same rfl rfl

theorem Grants.settle {r : Result} (h : Grants A G d r.1) : Grants A G d (settle env r) := by
  rcases r with ⟨d', _ | reason⟩
  · exact h
  · exact h.onDisconnect.afterFailure

/-- Why a leave of a topic is answered with success: there is no channel to leave, or the reply to the
leave has come, or the reply that refuses the join it was deferred to. -/
inductive Granted (env : Env) (d : Driver) : Input → RequestId → Topic → Prop where
  | idle (id : RequestId) (topic : Topic) (timeout : Duration)
      (hs : d.state.protocol.channelState topic ≠ some .joined)
      (hj : d.state.protocol.channelState topic = some .joining → d.record topic = none) :
    Granted env d (.command (.leave id topic timeout)) id topic
  | left {message : WireMessage} {frame : Frame} {p : Protocol} {topic : Topic} {reference : Reference}
      {response : Payload} {leave : PendingLeave} (hd : env.codec.decode message = .ok frame)
      (hrec : d.state.protocol.receive frame = (.ok (.left topic reference response), p))
      (hl : d.state.pendingLeaves[reference]? = some leave) : Granted env d (.message message) leave.id topic
  | refused {message : WireMessage} {frame : Frame} {p : Protocol} {topic : Topic} {reference : Reference}
      {response : Payload} {channel : ChannelRecord} {leave : PendingLeave}
      (hd : env.codec.decode message = .ok frame)
      (hrec : d.state.protocol.receive frame = (.ok (.joinError topic reference response), p))
      (hr : d.record topic = some channel) (hl : channel.deferredLeave = some leave) :
    Granted env d (.message message) leave.id topic

/-- The topics on which an input may ask for a leave. -/
def Asks (A : RequestId → Topic → Prop) (input : Input) : Prop :=
  ∀ id topic timeout, input = .command (.leave id topic timeout) → A id topic

/-- Of the commands only a leave that finds nothing to do is answered with success. -/
theorem grants_command (command : Command) (hA : Asks A (.command command)) :
    Grants A (fun id => ∃ t, Granted env d (.command command) id t) d
      ((d.accept command).handleConnectedCommand env command).1 := by
  have haccept := plans_accept (fun id => ∃ t, Granted env d (.command command) id t) d command
  cases command with
  | connect | disconnect | subscribe | shutdown => exact haccept.grants
  | subscribeChannel topic => exact haccept.grants
  | ping id => exact haccept.handlePing.grants
  | join id topic timeout => exact haccept.handleJoin.grants
  | call id topic event payload started => exact haccept.handlePush.grants
  | cast id topic event payload => exact haccept.handlePush.grants
  | leave id topic timeout =>
    exact grants_handleLeave haccept.grants (hA id topic timeout rfl) fun hs hj => ⟨topic, .idle id topic timeout hs hj⟩

theorem grants_lifecycle (command : LifecycleCommand) :
    Grants A G d (d.handleConnectedLifecycle env command).1 ∧ Grants A G d (d.handleOfflineLifecycle env command) := by
  have hrefl := Grants.refl A G d
  cases command with
  | register topic => exact ⟨hrefl.register, hrefl.register⟩
  | unregister topic => exact ⟨hrefl.unregisterConnected, hrefl.unregister⟩
  | cancel id => exact ⟨(KeepsPlans.refl G d).cancel.grants, (KeepsPlans.refl G d).cancel.grants⟩

/-- Of the messages only the reply to a leave and the refusal of a join answer one with success. -/
theorem grants_onMessage (message : WireMessage) :
    Grants A (fun id => ∃ t, Granted env d (.message message) id t) d (d.onMessage env message).1 := by
  have hdue : ∀ {G : RequestId → Prop} {d' : Driver} (due : Duration), Grants A G d d' →
      Grants A G d { d' with connection := { d'.connection with heartbeatDue := due } } := fun due h =>
    h.same rfl rfl
  have hincoming : Grants A (fun id => ∃ t, Granted env d (.message message) id t) d
      (d.handleIncoming env message).1 := by
    cases hd : env.codec.decode message with
    | error e =>
      simp only [handleIncoming, hd]
      exact .refl ..
    | ok frame =>
      obtain ⟨report, hi⟩ := handleIncoming_of_decoded (d := d) hd
      rw [hi]
      have hreport : ∀ G, KeepsPlans G d (d.emitAll [.telemetry report]) := fun G =>
        (KeepsPlans.refl G d).emitAll (by simp [Effect.grants])
      rcases hrec : d.state.protocol.receive frame with ⟨e | event, p⟩
      · have hrec' : (d.emitAll [.telemetry report]).state.protocol.receive frame = (.error e, p) := hrec
        simp only [handleFrame, hrec']
        exact ((hreport _).receive hrec').grants
      · have hrec' : (d.emitAll [.telemetry report]).state.protocol.receive frame = (.ok event, p) := hrec
        simp only [handleFrame, hrec']
        refine ((hreport _).receive hrec').grants.trans ((grants_handleEvent event).mono fun id hg => ?_)
        cases event with
        | left topic reference response =>
          obtain ⟨leave, hl, rfl⟩ := hg
          exact ⟨topic, .left hd hrec hl⟩
        | joinError topic reference response =>
          obtain ⟨channel, leave, hr, hl, rfl⟩ := hg
          exact ⟨topic, .refused hd hrec hr hl⟩
        | _ => exact hg.elim
  unfold onMessage
  dsimp only
  rcases hi : d.handleIncoming env message with ⟨d₁, _ | reason⟩
  · rw [hi] at hincoming
    simp only [Result.andThen]
    split
    · exact hdue _ hincoming
    · exact hincoming
  · rw [hi] at hincoming
    exact hincoming

theorem Grants.disconnect (h : Grants A G d d') : Grants A G d d'.disconnect :=
  (h.onDisconnect.emitAll (by simp [Effect.grants])).same rfl rfl

theorem Grants.close (h : Grants A G d d') : Grants A G d d'.close := h.emitSocket.same rfl rfl

/-- **A step of the connected loop answers a leave with success only for a reason**, and holds those
that were asked for. -/
theorem ConnectedStep.grants (hs : ConnectedStep env d input d') (hA : Asks A input) :
    Grants A (fun id => ∃ t, Granted env d input id t) d d' := by
  cases hs with
  | lifecycle command => exact grants_lifecycle command |>.1.settle
  | command command => exact (grants_command command hA).settle
  | acknowledge => exact (Grants.refl ..).emitAll (by simp [Effect.grants])
  | disconnect => exact (Grants.refl ..).disconnect
  | close => exact ((Grants.refl ..).emitAll (by simp [Effect.grants])).close.same rfl rfl
  | lost input hi reason =>
    have hrefl : Grants A (fun id => ∃ t, Granted env d input id t) d (d, some reason).1 := .refl ..
    exact hrefl.settle
  | message message => exact (grants_onMessage message).settle
  | heartbeat => exact ((KeepsPlans.refl _ d).handleHeartbeat.grants).settle
  | payload topic payloadId result hm =>
    have htake : Grants A (fun id => ∃ t, Granted env d (.payload topic payloadId result) id t) d
        (d.takePayload topic payloadId) := (Grants.refl ..).same rfl rfl
    exact (htake.keeps (KeepsPlans.refl _ _).handlePayload).settle
  | rejoin timer hm =>
    have htake : Grants A (fun id => ∃ t, Granted env d (.rejoin timer) id t) d (d.takeRejoin timer) :=
      (Grants.refl ..).same rfl rfl
    exact htake.handleRejoin
  | operationTimeout timer hm =>
    have htake : Grants A (fun id => ∃ t, Granted env d (.operationTimeout timer) id t) d
        (d.takeOperationTimeout timer) := (Grants.refl ..).same rfl rfl
    exact htake.handleOperationTimeout timer.value

/-- Without a connection there is nothing to leave. -/
theorem grants_offlineCommand (command : Command) :
    Grants A (fun _ => True) d ((d.accept command).handleOfflineCommand env command) := by
  have haccept := plans_accept (fun _ => True) d command
  cases command with
  | connect | disconnect | subscribe | shutdown => exact haccept.grants
  | subscribeChannel topic => exact haccept.grants
  | ping id => exact haccept.refuse.grants
  | join id topic timeout =>
    simp only [handleOfflineCommand]
    split
    · rename_i channel hr
      refine KeepsPlans.grants (haccept.setRecord hr ?_)
      rfl
    · exact haccept.refuse.grants
  | call id topic event payload started => exact haccept.queue.grants
  | cast id topic event payload => exact haccept.queue.grants
  | leave id topic timeout =>
    exact (haccept.setStatus.grants.stopChannel).keeps ((KeepsPlans.refl _ _).grant fun _ _ _ _ => trivial)

/-- A new connection holds the leaves that were held before it. -/
theorem asked_connectionMade (ha : d.Asked A) (started : Duration) (transport : Transport) (order : List Topic) :
    (d.connectionMade env started transport order).Asked A := by
  have hconnected : (d.connected env started transport).Asked A := by
    refine ⟨fun t channel leave hr hl => ?_, ha.sent⟩
    rw [connected_record, Option.map_eq_some_iff] at hr
    obtain ⟨channel', hr, rfl⟩ := hr
    exact ha.deferred t channel' leave hr hl
  refine connectionMade_induction (Asked A) hconnected fun d' topic h => ?_
  have hload : KeepsPlans (fun _ => True) d' (d'.startLoad topic) := (KeepsPlans.refl _ d').setStatus.loadPayload
  exact hload.asked h

/-- Without a connection no leave is held that was not held before. -/
theorem OfflineStep.asked (hs : OfflineStep env d input d') (ha : d.Asked A) : d'.Asked A := by
  -- which leaves are granted does not matter here
  let G : RequestId → Prop := fun _ => True
  have hreports : ∀ {d₁ : Driver} {reports : List Effect}, d₁ = d.emitAll reports →
      (∀ effect ∈ reports, effect.IsNotice) → Grants A G d d₁ := by
    rintro d₁ reports rfl hr
    refine (Grants.refl A G d).emitAll fun effect hm => ?_
    rcases hr effect hm with hr | rfl
    · exact grants_of_report hr
    · rfl
  cases hs with
  | lifecycle command => exact (grants_lifecycle (G := G) command).2.asked ha
  | command command => exact (grants_offlineCommand command).asked ha
  | acknowledge command hc => exact ((Grants.refl A G d).emitAll (by simp [Effect.grants])).asked ha
  | disconnect d₁ reports he hr => exact (hreports he hr).disconnect.asked ha
  | close input hi d₁ reports he hr => exact (hreports he hr).close.asked ha
  | connect input hi d₁ reports he attempt hr =>
    have hattempt : Grants A G d { d₁ with attempt } := (hreports he hr).same rfl rfl
    have hbegin : Grants A G d ({ d₁ with attempt }.beginConnect env) := hattempt.emitSocket.same rfl rfl
    exact hbegin.asked ha
  | failed input hi started error =>
    have hfinished : Grants A G d (d.attemptFinished started false) :=
      (Grants.refl A G d).emitAll (by simp [Effect.grants])
    exact hfinished.emitSocket.afterFailure.asked ha
  | made started due transport order hp ho => exact asked_connectionMade ha started transport order

/-- Every step keeps leaves on their topics: a new one is asked for by the step's own command. -/
theorem asked_step (hs : d.step env input = some d') (hA : Asks A input) (ha : d.Asked A) : d'.Asked A := by
  cases stepped hs with
  | tick elapsed hi hd =>
    rw [hd]
    exact ⟨ha.deferred, ha.sent⟩
  | dropped topic hi hd =>
    rw [hd]
    exact ((KeepsPlans.refl (fun _ => True) d).setStatus).asked ha
  | offline hc ho hs => exact hs.asked ha
  | connected hp hs => exact (hs.grants hA).asked ha

/-- The leaves that a run asks for. -/
def AskedIn (inputs : List Input) (id : RequestId) (t : Topic) : Prop :=
  ∃ timeout, .command (.leave id t timeout) ∈ inputs

/-- **The leaves held were made on their topic.** -/
theorem asked_run {inputs : List Input} (hr : (driver env).run (driver env).start inputs = some d) :
    d.Asked (AskedIn inputs) := by
  induction inputs using List.reverseRecOn generalizing d with
  | nil =>
    cases hr
    have hs := settled_start env
    have hch : (start env).state.channels = ∅ := by
      unfold start
      dsimp only
      split <;> rfl
    refine ⟨fun t channel leave hr hl => ?_, fun r t leave hp hl => ?_⟩
    · have hr : (start env).state.channels[t]? = some channel := hr
      rw [hch] at hr
      exact absurd hr Table.not_lookup_empty
    · have hl : (start env).state.pendingLeaves[r]? = some leave := hl
      rw [hs.leaves] at hl
      exact absurd hl Table.not_lookup_empty
  | append_singleton inputs input ih =>
    obtain ⟨d₁, hrun, hs⟩ := Machine.run_concat.mp hr
    have hbefore : ∀ id t, AskedIn inputs id t → AskedIn (inputs ++ [input]) id t :=
      fun id t ⟨timeout, hm⟩ => ⟨timeout, List.mem_append_left _ hm⟩
    have hold := ih hrun
    refine asked_step hs ?_ ⟨fun t channel leave hr hl => hbefore _ _ (hold.deferred t channel leave hr hl),
      fun r t leave hp hl => hbefore _ _ (hold.sent r t leave hp hl)⟩
    rintro id topic timeout rfl
    exact ⟨timeout, List.mem_append_right _ (List.mem_singleton.mpr rfl)⟩

/-! ### Channels have records

A channel that the protocol knows has a record, so a leave that finds no record finds no channel. -/

/-- A topic is forgotten with its handle. -/
theorem not_known_unregistered {j : Reference} (hs : d.step env (.lifecycle (.unregister topic)) = some d') :
    ¬ d'.Known topic j := by
  have hdiscarded : ∀ d₁ : Driver, ∀ p : Protocol, d₁.state.protocol = (p.discardChannel topic).2 →
      ¬ d₁.Known topic j := by
    rintro d₁ p hp ⟨c, hc, -⟩
    have hc : (p.channels.erase topic)[topic]? = some c := by
      rw [hp] at hc
      exact hc
    rw [Table.lookup_erase, if_pos rfl] at hc
    cases hc
  rcases lifecycle_cases hs with rfl | rfl
  · exact hdiscarded _ _ (unregister_protocol ..)
  · intro hk
    have hrefl : Continues none none (d.handleConnectedLifecycle env (.unregister topic)).1
        (d.handleConnectedLifecycle env (.unregister topic)).1 := .refl ..
    have hsettle : Continues none none (d.handleConnectedLifecycle env (.unregister topic)).1
        (settle env (d.handleConnectedLifecycle env (.unregister topic))) := hrefl.settle
    obtain ⟨effects, -, hcontinued⟩ := hsettle
    have hk := hcontinued.known topic j nofun hk
    by_cases hj : d.state.protocol.channelState topic = some .joined
    · obtain ⟨c, hc, hst⟩ := Option.map_eq_some_iff.mp hj
      simp only [handleConnectedLifecycle, unregisterConnected_of_joined hc hst] at hk
      exact hdiscarded _ _ (by rw [sendFrame_state, unregister_protocol]) hk
    · simp only [handleConnectedLifecycle, unregisterConnected_of_not_joined hj] at hk
      exact hdiscarded _ _ (unregister_protocol ..) hk

/-- **The channels that the protocol knows have records.** -/
theorem record_of_known {t : Topic} {j : Reference} (h : (driver env).Reachable d) (hk : d.Known t j) :
    (d.record t).isSome = true := by
  induction h generalizing t j with
  | start =>
    obtain ⟨c, hc, -⟩ := hk
    have hc : (start env).state.protocol.channels[t]? = some c := hc
    rw [start_protocol] at hc
    cases hc
  | @step d d' input hreach _ hs ih =>
    have hs : d.step env input = some d' := hs
    obtain ⟨effects, -, hcontinued⟩ := continues_step hs
    by_cases hreg : input.registers = some t
    · cases input with
      | lifecycle command =>
        cases command with
        | register topic =>
          cases Option.some.inj hreg
          exact record_registered hs
        | unregister topic =>
          cases Option.some.inj hreg
          exact absurd hk (not_known_unregistered hs)
        | cancel id => cases hreg
      | _ => cases hreg
    rw [hcontinued.records t hreg]
    by_cases hload : input.loaded = some t
    · cases input with
      | payload topic payloadId result =>
        cases Option.some.inj hload
        by_contra hnone
        have hr : d.record t = none := by simpa using hnone
        obtain ⟨-, rfl⟩ := payload_cases hs
        have hr' : (d.takePayload t payloadId).record t = none := hr
        rw [handlePayload_of_none hr'] at hk
        exact hnone (ih hk)
      | _ => cases hload
    · exact ih (hcontinued.known t j hload hk)

/-! ### What is promised

A leave that finds nothing to do is answered at once, and any other one when the server acknowledges
it. `Overlap` relates two leaves of one channel by what the driver held when it took the second. -/

/-- Requests of different inputs have different ids. -/
theorem input_of_id {inputs : List Input} (h : (requests inputs).Nodup) {i i' : Input} {id : RequestId}
    (hi : i ∈ inputs) (hi' : i' ∈ inputs) (hx : i.request.map Prod.snd = some id)
    (hx' : i'.request.map Prod.snd = some id) : i = i' := by
  induction inputs with
  | nil => cases hi
  | cons first rest ih =>
    have hfirst : ∀ {i : Input}, i ∈ rest → i.request.map Prod.snd = some id →
        first.request.map Prod.snd = some id → False := by
      intro i hm hid hid'
      rw [requests, List.filterMap_cons, hid'] at h
      exact (List.nodup_cons.mp h).1 (List.mem_filterMap.mpr ⟨i, hm, hid⟩)
    have hrest : (requests rest).Nodup := by
      refine h.sublist ?_
      rw [requests, requests, List.filterMap_cons]
      split
      · exact List.Sublist.refl _
      · exact List.sublist_cons_self ..
    rcases List.mem_cons.mp hi with rfl | hm
    · rcases List.mem_cons.mp hi' with rfl | hm'
      · rfl
      · exact (hfirst hm' hx' hx).elim
    · rcases List.mem_cons.mp hi' with rfl | hm'
      · exact (hfirst hm hx hx').elim
      · exact ih hrest hm hm'

/-- The topic of a leave that is granted is the one it was asked for on. -/
theorem Granted.topic_eq {inputs : List Input} {id : RequestId} {t t' : Topic} {timeout : Duration}
    (hr : (driver env).run (driver env).start inputs = some d) (hids : (requests (inputs ++ [input])).Nodup)
    (hg : Granted env d input id t') (hask : .command (.leave id t timeout) ∈ inputs ++ [input]) : t' = t := by
  have hasked := asked_run hr
  have hone : ∀ timeout', .command (.leave id t' timeout') ∈ inputs ++ [input] → t' = t := by
    intro timeout' hm
    cases input_of_id hids hm hask rfl rfl
    rfl
  cases hg with
  | idle id topic timeout' hs hj => exact hone timeout' (List.mem_append_right _ (List.mem_singleton.mpr rfl))
  | left hd hrec hl =>
    obtain ⟨timeout', hm⟩ := hasked.sent _ _ _ (Protocol.receive_explains hrec).1 hl
    exact hone timeout' (List.mem_append_left _ hm)
  | refused hd hrec hr' hl =>
    obtain ⟨timeout', hm⟩ := hasked.deferred _ _ _ hr' hl
    exact hone timeout' (List.mem_append_left _ hm)

/-- A leave with nothing to do is answered at once. -/
theorem handleLeave_idle (env : Env) {id : RequestId} (timeout : Duration)
    (hs : d.state.protocol.channelState topic ≠ some .joined)
    (hj : d.state.protocol.channelState topic = some .joining → d.record topic = none) :
    ∃ status, d.handleLeave env id topic timeout =
      (((d.setStatus topic status).stopChannel topic).emitAll
        [.answered .leave id (.ok (.payload .emptyObject))], none) := by
  cases leave_handled env d id topic timeout with
  | sent channel hc hstate => exact absurd (Option.map_eq_some_iff.mpr ⟨channel, hc, hstate⟩) hs
  | deferred channel hjoining hr =>
    rw [setStatus_of_none (hj hjoining), stopChannel_of_none (hj hjoining), hj hjoining] at hr
    cases hr
  | idle _ _ he => exact ⟨.left, he⟩

/-- A stopped channel is not wanted. -/
theorem stopChannel_unwanted (d : Driver) (topic : Topic) :
    ¬ ((d.stopChannel topic).record topic).any ChannelRecord.desired = true := by
  cases hr : d.record topic with
  | none =>
    rw [stopChannel_of_none hr, hr]
    nofun
  | some channel =>
    rw [stopChannel_of_some hr, emitAll_record, record_setRecord]
    nofun

/-- What is left of a message whose event ends no connection. -/
theorem settle_onMessage {message : WireMessage} {frame : Frame} {event : ProtocolEvent} {p : Protocol}
    (hd : env.codec.decode message = .ok frame) (hrec : d.state.protocol.receive frame = (.ok event, p))
    (hn : ∀ d₁ : Driver, (d₁.handleEvent env event).2 = none) :
    ∃ d₁ : Driver, d₁.state.protocol = p ∧
      (settle env (d.onMessage env message)).state = (d₁.handleEvent env event).1.state := by
  obtain ⟨report, hi⟩ := handleIncoming_of_decoded (d := d) hd
  have hrec' : (d.emitAll [.telemetry report]).state.protocol.receive frame = (.ok event, p) := hrec
  refine ⟨(d.emitAll [.telemetry report]).setProtocol p, rfl, ?_⟩
  have hnone := hn ((d.emitAll [.telemetry report]).setProtocol p)
  simp only [onMessage, hi, handleFrame, hrec']
  rcases hr : ((d.emitAll [.telemetry report]).setProtocol p).handleEvent env event with ⟨d₁, _ | reason⟩
  · simp only [Result.andThen]
    split <;> rfl
  · rw [hr] at hnone
    cases hnone

/-- A reply that grants a leave leaves no channel to leave. -/
theorem Granted.gone {message : WireMessage} {id : RequestId} {t : Topic}
    (hs : d.step env (.message message) = some d') (hg : Granted env d (.message message) id t) : ¬ d'.Active t := by
  rw [message_cases hs, Active]
  cases hg with
  | left hd hrec hl =>
    obtain ⟨d₁, hp, he⟩ := settle_onMessage hd hrec fun _ => rfl
    have hafter := (Protocol.receive_explains hrec).2
    rw [Protocol.channelState, he, handleEvent, onLeft_protocol, hp, hafter, Table.lookup_erase, if_pos rfl]
    exact Bool.false_ne_true
  | refused hd hrec hr hl =>
    obtain ⟨d₁, hp, he⟩ := settle_onMessage hd hrec fun _ => rfl
    have hafter := (Protocol.receive_explains hrec).2
    rw [Protocol.channelState, he, handleEvent, onJoinError_protocol, hp, hafter, Protocol.lookup_setState, if_pos rfl]
    cases d.state.protocol.channels[t]? with
    | none => exact Bool.false_ne_true
    | some c => exact Bool.false_ne_true

/-- A leave that finds nothing to do leaves the protocol alone, and its channel unwanted. -/
theorem leave_idle_active {id : RequestId} {t : Topic} {timeout : Duration}
    (hs : d.step env (.command (.leave id t timeout)) = some d') (hp : d.phase = .connected)
    (hn : d.state.protocol.channelState t ≠ some .joined) (hj : d.state.protocol.channelState t ≠ some .joining) :
    (¬ d'.Active t ∨ (d'.record t).any ChannelRecord.desired = true) ↔
      d.state.protocol.channelState t ≠ some .leaving := by
  have he : d' = settle env ((d.accept (.leave id t timeout)).handleLeave env id t timeout) := by
    unfold step at hs
    rw [hp] at hs
    exact (Option.some.inj hs).symm
  have hn' : (d.accept (.leave id t timeout)).state.protocol.channelState t ≠ some .joined := hn
  obtain ⟨status, hidle⟩ := handleLeave_idle env timeout hn' fun h => absurd h hj
  rw [hidle] at he
  have hproto : d'.state.protocol = d.state.protocol := by
    rw [he, settle, emitAll_state, stopChannel_protocol, setStatus_protocol]
    rfl
  have hrec : ¬ (d'.record t).any ChannelRecord.desired = true := by
    rw [he, settle, emitAll_record]
    exact stopChannel_unwanted _ t
  rw [or_iff_left hrec, Active, hproto]
  generalize d.state.protocol.channelState t = channelState at hn hj
  cases channelState with
  | none => simp
  | some state => cases state <;> simp [ChannelState.active] at hn hj ⊢

/-- The server acknowledges a leave of the topic: it replies to one, or refuses the join that one
may be deferred to. -/
def AcknowledgesLeave (env : Env) (d : Driver) (input : Input) (t : Topic) : Prop :=
  ∃ message frame p reference response, input = .message message ∧ env.codec.decode message = .ok frame ∧
    (d.state.protocol.receive frame = (.ok (.left t reference response), p) ∨
      d.state.protocol.receive frame = (.ok (.joinError t reference response), p))

/-- The driver holds another leave of the topic, which was not acknowledged yet. -/
def HoldsLeave (inputs : List Input) (d : Driver) (t : Topic) : Prop :=
  ∃ id timeout, .command (.leave id t timeout) ∈ inputs ∧ (.leave, id) ∈ d.held

/-- Two leaves of the topic overlap: the driver still holds the first when it takes the second. -/
def Overlap (env : Env) (inputs : List Input) (t : Topic) (first second : RequestId) : Prop :=
  ∃ (before after : List Input) (timeout timeout' : Duration) (d : Driver),
    inputs = before ++ .command (.leave second t timeout') :: after ∧
      (driver env).run (driver env).start before = some d ∧
      .command (.leave first t timeout) ∈ before ∧ (.leave, first) ∈ d.held

/-- An answer that comes with a message of the server is an acknowledgement. -/
theorem Granted.acknowledges {message : WireMessage} {id : RequestId} {t : Topic}
    (hg : Granted env d (.message message) id t) : AcknowledgesLeave env d (.message message) t := by
  cases hg with
  | left hd hrec hl => exact ⟨_, _, _, _, _, rfl, hd, .inl hrec⟩
  | refused hd hrec hr hl => exact ⟨_, _, _, _, _, rfl, hd, .inr hrec⟩

/-- The last input is the only one that makes its request. -/
theorem last_of_id {inputs before after : List Input} {i i' : Input} {id : RequestId}
    (h : (requests (inputs ++ [i])).Nodup) (hx : i.request.map Prod.snd = some id)
    (hx' : i'.request.map Prod.snd = some id) (he : inputs ++ [i] = before ++ i' :: after) :
    before = inputs ∧ after = [] := by
  have hnodup : ((inputs ++ [i]).flatMap fun i => (i.request.map Prod.snd).toList).Nodup := by
    rwa [requests, List.filterMap_eq_flatMap_toList] at h
  have hlast : id ∈ (i.request.map Prod.snd).toList := by
    rw [hx]
    exact List.mem_singleton_self _
  have hother : id ∈ (i'.request.map Prod.snd).toList := by
    rw [hx']
    exact List.mem_singleton_self _
  have hafter : [] = after := same_place he hnodup hlast hother
  subst hafter
  exact ⟨(List.append_inj_left' he rfl).symm, rfl⟩

/-- A leave that is answered at once overlaps only with leaves that are held then. -/
theorem overlap_idle {inputs : List Input} {id first second : RequestId} {t : Topic} {timeout : Duration}
    (hr : (driver env).run (driver env).start inputs = some d)
    (hids : (requests (inputs ++ [.command (.leave id t timeout)])).Nodup)
    (ho : Overlap env (inputs ++ [.command (.leave id t timeout)]) t first second)
    (hid : id = first ∨ id = second) : HoldsLeave inputs d t := by
  obtain ⟨before, after, timeout₁, timeout₂, d₁, he, hrun, hm, hheld⟩ := ho
  rcases hid with rfl | rfl
  · -- the first of two leaves is not the last input
    obtain ⟨earlier, later, rfl⟩ := List.append_of_mem hm
    rw [List.append_assoc, List.cons_append] at he
    have hnil := (last_of_id hids rfl rfl he).2
    simp at hnil
  · obtain ⟨rfl, -⟩ := last_of_id hids rfl rfl he
    obtain rfl := Option.some.inj (hrun.symm.trans hr)
    exact ⟨first, timeout₁, hm, hheld⟩

/-- **A leave is answered with success when its channel is gone**, and two leaves that overlap are
answered with success only when the server acknowledges the leave; unless the leave is one that
finds nothing to do while another leave of the channel is in flight. -/
theorem leave_granted_gone_iff {inputs : List Input} {id : RequestId} {t : Topic} {timeout : Duration}
    {success : Success} (hr : (driver env).run (driver env).start inputs = some d)
    (hs : d.step env input = some d') (hp : d.phase = .connected)
    (hids : (requests (inputs ++ [input])).Nodup) (hask : .command (.leave id t timeout) ∈ inputs ++ [input])
    (hok : .answered .leave id (.ok success) ∈ d.done d') :
    ((¬ d'.Active t ∨ (d'.record t).any ChannelRecord.desired = true) ∧
      ∀ first second, Overlap env (inputs ++ [input]) t first second → id = first ∨ id = second →
        AcknowledgesLeave env d input t) ↔
      ¬ (input = .command (.leave id t timeout) ∧
        (d.state.protocol.channelState t = some .leaving ∨ HoldsLeave inputs d t)) := by
  have hstep : ConnectedStep env d input d' := by
    cases stepped hs with
    | tick elapsed hi hd =>
      have hsilent : d.Emits (fun _ => False) d' := .of_trace (by rw [hd])
      exact (hsilent.done hok).elim
    | dropped topic hi hd =>
      have hsilent : KeepsPlans (fun _ => False) d d' := by
        rw [hd]
        exact (KeepsPlans.refl _ d).setStatus
      exact (hsilent.emits.done hok id rfl).elim
    | offline hc ho hs => exact absurd hp hc
    | connected hp hstep => exact hstep
  have hgrants : Grants (AskedIn (inputs ++ [input])) (fun id => ∃ t, Granted env d input id t) d d' := by
    refine hstep.grants ?_
    rintro id topic timeout rfl
    exact ⟨timeout, List.mem_append_right _ (List.mem_singleton.mpr rfl)⟩
  obtain ⟨t', hg⟩ := hgrants.emits.done hok id rfl
  cases hg.topic_eq hr hids hask
  have hgone : ∀ message, input = .message message →
      (((¬ d'.Active t ∨ (d'.record t).any ChannelRecord.desired = true) ∧
        ∀ first second, Overlap env (inputs ++ [input]) t first second → id = first ∨ id = second →
          AcknowledgesLeave env d input t) ↔
        ¬ (input = .command (.leave id t timeout) ∧
          (d.state.protocol.channelState t = some .leaving ∨ HoldsLeave inputs d t))) := by
    rintro message rfl
    exact iff_of_true ⟨.inl (hg.gone hs), fun _ _ _ _ => hg.acknowledges⟩ fun h => by cases h.1
  cases hg with
  | left => exact hgone _ rfl
  | refused => exact hgone _ rfl
  | idle id topic timeout' hn hj =>
    cases input_of_id hids (List.mem_append_right _ (List.mem_singleton.mpr rfl)) hask rfl rfl
    have hreach : (driver env).Reachable d := Machine.reachable_iff_run.mpr ⟨_, hr⟩
    have hjoining : d.state.protocol.channelState t ≠ some .joining := by
      intro h
      obtain ⟨c, hc, hst⟩ := Option.map_eq_some_iff.mp h
      have hrec := record_of_known hreach ⟨c, hc, rfl⟩
      rw [hj h] at hrec
      cases hrec
    rw [leave_idle_active hs hp hn hjoining]
    constructor
    · rintro ⟨hleaving, hack⟩ ⟨-, hl | ⟨other, timeout', hm, hheld⟩⟩
      · exact hleaving hl
      · -- the other leave is held when this one is taken
        obtain ⟨message, -, -, -, -, hi, -⟩ := hack other id
          ⟨inputs, [], timeout', timeout, d, rfl, hr, hm, hheld⟩ (.inr rfl)
        cases hi
    · intro hno
      refine ⟨fun hl => hno ⟨rfl, .inl hl⟩, fun first second ho hid => ?_⟩
      exact absurd ⟨rfl, .inr (overlap_idle hr hids ho hid)⟩ hno

end

/-! ### Two leaves of one channel

The runs at which the promise is kept and broken. -/

/-- Whether a leave was answered with success between two states. -/
def grantedBetween (d d' : Driver) (id : RequestId) : Bool :=
  (d.done d').any fun effect => effect.grants = some id

theorem answered_of_grantedBetween {d d' : Driver} {id : RequestId} (h : grantedBetween d d' id = true) :
    ∃ success, .answered .leave id (.ok success) ∈ d.done d' := by
  obtain ⟨effect, hm, he⟩ := List.any_eq_true.mp h
  obtain ⟨success, rfl⟩ := Effect.grants_eq_some (of_decide_eq_true he)
  exact ⟨success, hm⟩

/-- A channel is left twice while its join is in flight. -/
def leavingTwice : List Input :=
  joining ++ [.command (.leave 2 "room" 10), .command (.leave 3 "room" 10)]

/-- The server refuses the join. -/
def refusal : Frame := replyFrame "error" "room" "1" "1"

/-- The second of two leaves that overlap is answered when the server refuses the join. -/
theorem leave_granted_gone_refused :
    ∃ d d' : Driver, (driver (smallEnv [refusal])).run (driver (smallEnv [refusal])).start leavingTwice = some d ∧
      d.step (smallEnv [refusal]) (.frame refusal) = some d' ∧
      (¬ d'.Active "room" ∨ (d'.record "room").any ChannelRecord.desired = true) ∧
      Overlap (smallEnv [refusal]) (leavingTwice ++ [.frame refusal]) "room" 2 3 ∧
      AcknowledgesLeave (smallEnv [refusal]) d (.frame refusal) "room" := by
  have hrun : ((driver (smallEnv [refusal])).run (driver (smallEnv [refusal])).start leavingTwice).any (fun d =>
      d.phase = .connected &&
        (d.step (smallEnv [refusal]) (.frame refusal)).any fun d' => grantedBetween d d' 3) = true := by
    decide +kernel
  have hfirst : ((driver (smallEnv [refusal])).run (driver (smallEnv [refusal])).start
      (joining ++ [.command (.leave 2 "room" 10)])).any (fun d => decide ((.leave, 2) ∈ d.held)) = true := by
    decide +kernel
  obtain ⟨d, hr, hd⟩ := Option.any_eq_true _ _ |>.mp hrun
  obtain ⟨d₁, hr₁, hheld⟩ := Option.any_eq_true _ _ |>.mp hfirst
  simp only [Bool.and_eq_true, decide_eq_true_eq, Option.any_eq_true] at hd
  obtain ⟨hp, d', hs, hg⟩ := hd
  obtain ⟨success, hok⟩ := answered_of_grantedBetween hg
  have hask : .command (.leave 3 "room" 10) ∈ leavingTwice ++ [.frame refusal] := by
    simp [leavingTwice]
  have hoverlap : Overlap (smallEnv [refusal]) (leavingTwice ++ [.frame refusal]) "room" 2 3 :=
    ⟨joining ++ [.command (.leave 2 "room" 10)], [.frame refusal], 10, 10, d₁, by simp [leavingTwice], hr₁,
      by simp, of_decide_eq_true hheld⟩
  obtain ⟨hgone, hack⟩ := (leave_granted_gone_iff hr hs hp (by decide) hask hok).mpr fun h => by cases h.1
  exact ⟨d, d', hr, hs, hgone, hoverlap, hack 2 3 hoverlap (.inr rfl)⟩

/-- The replies to a join and to the leave after it, and a failure of the channel. -/
def leaveReplies : List Frame :=
  [replyFrame "ok" "room" "1" "1", replyFrame "ok" "room" "1" "2", serverFrame "phx_error" "room" "1"]

/-- A channel was joined, and is left. -/
def leavingOnce : List Input :=
  joining ++ [.frame (replyFrame "ok" "room" "1" "1"), .command (.leave 2 "room" 10)]

/-- The channel fails while its leave is in flight. -/
def failedWhileLeaving : List Input := leavingOnce ++ [.frame (serverFrame "phx_error" "room" "1")]

/-- A second leave is answered with success while the first one is in flight, while the channel
is still there, and also when the channel has failed meanwhile. -/
theorem leave_granted_while_leaving :
    (¬ ∀ (env : Env) (inputs : List Input) (input : Input) (d d' : Driver) (id : RequestId) (t : Topic)
      (timeout : Duration) (success : Success), (driver env).run (driver env).start inputs = some d →
      d.step env input = some d' → d.phase = .connected → (requests (inputs ++ [input])).Nodup →
      .command (.leave id t timeout) ∈ inputs ++ [input] → .answered .leave id (.ok success) ∈ d.done d' →
      ¬ d'.Active t ∨ (d'.record t).any ChannelRecord.desired = true) ∧
    ¬ ∀ (env : Env) (inputs : List Input) (input : Input) (d d' : Driver) (id : RequestId) (t : Topic)
      (timeout : Duration) (success : Success), (driver env).run (driver env).start inputs = some d →
      d.step env input = some d' → d.phase = .connected → (requests (inputs ++ [input])).Nodup →
      .command (.leave id t timeout) ∈ inputs ++ [input] → .answered .leave id (.ok success) ∈ d.done d' →
      ∀ first second, Overlap env (inputs ++ [input]) t first second → id = first ∨ id = second →
        AcknowledgesLeave env d input t := by
  constructor
  · intro hall
    have hrun : ((driver (smallEnv leaveReplies)).run (driver (smallEnv leaveReplies)).start leavingOnce).any (fun d =>
        d.phase = .connected &&
          (d.step (smallEnv leaveReplies) (.command (.leave 3 "room" 10))).any fun d' =>
            grantedBetween d d' 3 && decide (d'.state.protocol.channelState "room" = some .leaving) &&
              !(d'.record "room").any ChannelRecord.desired) = true := by decide +kernel
    obtain ⟨d, hr, hd⟩ := Option.any_eq_true _ _ |>.mp hrun
    simp only [Bool.and_eq_true, decide_eq_true_eq, Option.any_eq_true] at hd
    obtain ⟨hp, d', hs, ⟨hg, hleaving⟩, hunwanted⟩ := hd
    obtain ⟨success, hok⟩ := answered_of_grantedBetween hg
    rcases hall _ _ _ d d' 3 "room" 10 success hr hs hp (by decide) (by simp) hok with hgone | hwanted
    · exact hgone (by rw [Active, hleaving]; rfl)
    · rw [hwanted] at hunwanted
      cases hunwanted
  · intro hall
    have hrun : ((driver (smallEnv leaveReplies)).run (driver (smallEnv leaveReplies)).start
        failedWhileLeaving).any (fun d => d.phase = .connected && decide ((.leave, 2) ∈ d.held) &&
          (d.step (smallEnv leaveReplies) (.command (.leave 3 "room" 10))).any fun d' =>
            grantedBetween d d' 3) = true := by decide +kernel
    obtain ⟨d, hr, hd⟩ := Option.any_eq_true _ _ |>.mp hrun
    simp only [Bool.and_eq_true, decide_eq_true_eq, Option.any_eq_true] at hd
    obtain ⟨⟨hp, hheld⟩, d', hs, hg⟩ := hd
    obtain ⟨success, hok⟩ := answered_of_grantedBetween hg
    obtain ⟨message, -, -, -, -, hi, -⟩ := hall _ _ _ d d' 3 "room" 10 success hr hs hp (by decide) (by simp) hok
      2 3 ⟨failedWhileLeaving, [], 10, 10, d, rfl, hr, by simp [failedWhileLeaving, leavingOnce], hheld⟩ (.inr rfl)
    cases hi

end Driver
end PhoenixChannel.Client
