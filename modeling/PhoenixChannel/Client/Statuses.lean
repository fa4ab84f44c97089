import PhoenixChannel.Client.Flushes
import PhoenixChannel.Client.OneTopic

/-! What a channel's status claims, and what the protocol holds.

The status of a record and the state of the protocol's channel are written apart from each
other. `Agrees` is what every handler leaves of its topic; with it goes that a joined
channel holds no push back. -/
namespace PhoenixChannel.Client
open PhoenixChannel.Runtime Library

/-- The record's status claims no more than the protocol's state, and a joined channel has
nothing queued. -/
structure ChannelRecord.Agrees (channel : ChannelRecord) (state : Option ChannelState) : Prop where
  joined : channel.status = .joined → state = some .joined
  joining : channel.status = .joining → state = some .joining
  leaving : channel.status = .leaving →
    state = some .leaving ∨ state = some .joining ∧ channel.deferredLeave.isSome = true
  flushed : state = some .joined → channel.queued = []

/-- A status that claims nothing. -/
def ChannelStatus.Calm (status : ChannelStatus) : Prop :=
  status ≠ .joined ∧ status ≠ .joining ∧ status ≠ .leaving

namespace ChannelStatus

theorem calm_waitingForSocket : waitingForSocket.Calm := ⟨nofun, nofun, nofun⟩

theorem calm_waitingToJoin : waitingToJoin.Calm := ⟨nofun, nofun, nofun⟩

theorem calm_left : left.Calm := ⟨nofun, nofun, nofun⟩

theorem calm_errored : errored.Calm := ⟨nofun, nofun, nofun⟩

theorem calm_closed : closed.Calm := ⟨nofun, nofun, nofun⟩

end ChannelStatus

namespace ChannelRecord.Agrees
variable {channel channel' : ChannelRecord} {state : Option ChannelState}

theorem of_calm (hs : channel.status.Calm) (hf : state = some .joined → channel.queued = []) :
    channel.Agrees state :=
  ⟨fun h => absurd h hs.1, fun h => absurd h hs.2.1, fun h => absurd h hs.2.2, hf⟩

theorem of_joined (hs : channel.status = .joined) (hj : state = some .joined)
    (hf : state = some .joined → channel.queued = []) : channel.Agrees state := by
  refine ⟨fun _ => hj, fun h => ?_, fun h => ?_, hf⟩
  · cases hs.symm.trans h
  · cases hs.symm.trans h

theorem of_joining (hs : channel.status = .joining) : channel.Agrees (some .joining) := by
  refine ⟨fun h => ?_, fun _ => rfl, fun h => ?_, nofun⟩
  · cases hs.symm.trans h
  · cases hs.symm.trans h

/-- Only the status, the queue and the held back leave matter. -/
theorem retouch (h : channel.Agrees state) (hs : channel'.status = channel.status)
    (hl : channel'.deferredLeave = channel.deferredLeave) (hq : channel'.queued = channel.queued) :
    channel'.Agrees state := by
  refine ⟨fun h' => h.joined (hs.symm.trans h'), fun h' => h.joining (hs.symm.trans h'), fun h' => ?_, fun h' => ?_⟩
  · rw [hl]
    exact h.leaving (hs.symm.trans h')
  · rw [hq]
    exact h.flushed h'

end ChannelRecord.Agrees

namespace Driver

def Agrees (d : Driver) (t : Topic) : Prop :=
  ∀ channel : ChannelRecord, d.record t = some channel →
    channel.Agrees (d.state.protocol.channelState t)

/-- The topic's record holds no push back from a joined channel. -/
def Flushed (d : Driver) (t : Topic) : Prop :=
  ∀ channel : ChannelRecord, d.record t = some channel →
    d.state.protocol.channelState t = some .joined → channel.queued = []

section
variable {d d' d'' : Driver} {t topic : Topic} {channel : ChannelRecord}

theorem agrees_of_none (h : d.record t = none) : d.Agrees t := by
  intro channel hc
  cases h.symm.trans hc

theorem agrees_of_record (h : d.record t = some channel)
    (ha : channel.Agrees (d.state.protocol.channelState t)) : d.Agrees t := by
  intro channel' hc
  cases h.symm.trans hc
  exact ha

theorem Agrees.flushed (h : d.Agrees t) : d.Flushed t := fun channel hc => (h channel hc).flushed

theorem Agrees.of_eq (h : d.Agrees t) (hr : d'.record t = d.record t)
    (hc : d'.state.protocol.channels[t]? = d.state.protocol.channels[t]?) : d'.Agrees t := by
  intro channel hc'
  rw [Protocol.channelState, hc]
  exact h channel (by rw [← hr]; exact hc')

theorem Agrees.emitAll (h : d.Agrees t) (effects : List Effect) : (d.emitAll effects).Agrees t := h

theorem Agrees.emitChannel (h : d.Agrees t) {t' : Topic} {event : ChannelEvent} :
    (d.emitChannel t' event).Agrees t := by
  rw [emitChannel_eq]
  exact h

theorem Agrees.answerLeave (h : d.Agrees t) {pending : Option PendingLeave}
    {result : Except ClientError Success} : (d.answerLeave pending result).Agrees t := by
  rw [answerLeave_eq]
  exact h

theorem Agrees.sendFrame (h : d.Agrees t) (env : Env) (served : List RequestId) (frame : Frame) :
    (d.sendFrame env served frame).1.Agrees t :=
  h.of_eq (by rw [record, sendFrame_state, record]) (by rw [sendFrame_state])

/-- A record written with a status that claims nothing. -/
theorem agrees_setRecord (hs : channel.status.Calm)
    (hf : d.state.protocol.channelState t = some .joined → channel.queued = []) :
    (d.setRecord t channel).Agrees t :=
  agrees_of_record (record_setRecord d t channel) (.of_calm hs hf)

theorem Flushed.setStatus (h : d.Flushed t) {status : ChannelStatus} (hs : status.Calm) :
    (d.setStatus t status).Agrees t := by
  cases hr : d.record t with
  | none =>
    rw [setStatus_of_none hr]
    exact agrees_of_none hr
  | some channel =>
    rw [setStatus_of_some hr]
    exact agrees_setRecord hs (h channel hr)

/-- A load changes the status to one that claims nothing. -/
theorem Agrees.loadPayload (h : d.Agrees t) : (d.loadPayload t).Agrees t := by
  rcases loadPayload_cases d t with ⟨-, he⟩ | ⟨channel, hr, -, -, -, he⟩
  · rw [he]
    exact h
  · rw [he]
    refine agrees_of_record (record_setRecord ..) (.of_calm ChannelStatus.calm_waitingToJoin fun hs => ?_)
    exact (h channel hr).flushed hs

theorem Agrees.scheduleRejoin (h : d.Agrees t) {env : Env} : (d.scheduleRejoin env t).Agrees t := by
  rcases scheduleRejoin_cases env d t with ⟨-, he⟩ | ⟨channel, hr, -, -, he⟩
  · rw [he]
    exact h
  · rw [he]
    exact agrees_of_record (record_setRecord ..) ((h channel hr).retouch rfl rfl rfl)

/-- A topic that the protocol does not know, with a status that claims nothing. -/
theorem agrees_discarded (hr : d.record t = some channel) (hs : channel.status.Calm)
    (hd : d.state.protocol.channels[t]? = none) : d.Agrees t := by
  refine agrees_of_record hr (.of_calm hs fun hj => ?_)
  rw [Protocol.channelState, hd] at hj
  cases hj

/-- Where the topic's own record agrees after work on it, every topic's does. -/
theorem Apart.agrees (h : Apart topic d d') (hd : ∀ t, d.Agrees t) (hown : d'.Agrees topic) :
    ∀ t, d'.Agrees t := by
  intro t
  by_cases ht : t = topic
  · rw [ht]
    exact hown
  · exact (hd t).of_eq (h.record t ht) (h.channel t ht)

end

/-! ### Commands

Each handler writes the status and moves the protocol in the same step, so the two agree again
afterwards. -/

section
variable (env : Env) (d : Driver) (topic : Topic)

theorem agrees_register {d : Driver} {topic : Topic} (h : d.Agrees topic) :
    (d.register env topic).Agrees topic := by
  unfold register
  split
  · exact h
  · exact agrees_setRecord ChannelStatus.calm_closed fun _ => rfl

theorem agrees_unregister : (d.unregister topic).Agrees topic := by
  refine agrees_of_none ?_
  show ((d.stopChannel topic).state.channels.erase topic)[topic]? = none
  rw [Table.lookup_erase, if_pos rfl]

theorem agrees_unregisterConnected : (d.unregisterConnected env topic).1.Agrees topic := by
  by_cases hj : d.state.protocol.channelState topic = some .joined
  · obtain ⟨channel, hc, hs⟩ := Option.map_eq_some_iff.mp hj
    rw [unregisterConnected_of_joined hc hs]
    exact (agrees_unregister (d.setProtocol _) topic).sendFrame _ _ _
  · rw [unregisterConnected_of_not_joined hj]
    exact agrees_unregister d topic

/-- The record a stop leaves, with the status that was written before it. -/
theorem stopChannel_record {d : Driver} {topic : Topic} {channel : ChannelRecord}
    (hr : d.record topic = some channel) (status : ChannelStatus) :
    ((d.setStatus topic status).stopChannel topic).record topic =
      some { channel.stopped with status } := by
  rw [setStatus_of_some hr, stopChannel_of_some (record_setRecord ..), emitAll_record,
    record_setRecord]
  rfl

theorem stopChannel_record_of_none {d : Driver} {topic : Topic} (hr : d.record topic = none)
    (status : ChannelStatus) : ((d.setStatus topic status).stopChannel topic).record topic = none := by
  rw [setStatus_of_none hr, stopChannel_of_none hr]
  exact hr

theorem agrees_handleJoin {d : Driver} {topic : Topic} (h : d.Agrees topic) (id : RequestId)
    (timeout : Duration) : (d.handleJoin id topic timeout).Agrees topic := by
  cases hr : d.record topic with
  | none =>
    simp only [handleJoin, hr]
    exact h
  | some channel =>
    by_cases hj : d.state.protocol.channelState topic = some .joined
    · simp only [handleJoin, hr, if_pos hj]
      exact agrees_of_record (d := d.setRecord topic { channel with desired := true, status := .joined })
        (record_setRecord ..) (.of_joined rfl hj (h channel hr).flushed)
    · simp only [handleJoin, hr, if_neg hj]
      refine Agrees.loadPayload ?_
      exact agrees_setRecord ChannelStatus.calm_waitingToJoin (h channel hr).flushed

theorem agrees_queue {d : Driver} {topic : Topic} (h : d.Agrees topic) (push : QueuedPush)
    (hj : d.state.protocol.channelState topic ≠ some .joined) :
    (d.queue env topic push).Agrees topic := by
  rcases queue_cases env d topic push with ⟨error, -, he⟩ | ⟨channel, hr, -, -, he⟩
  · rw [he]
    exact h
  · rw [he]
    have ha := h channel hr
    exact agrees_of_record (record_setRecord ..)
      ⟨ha.joined, ha.joining, ha.leaving, fun hs => absurd hs hj⟩

theorem agrees_handlePush {d : Driver} {topic : Topic} (h : d.Agrees topic) (push : QueuedPush) :
    (d.handlePush env topic push).1.Agrees topic := by
  unfold handlePush
  split
  · refine h.of_eq ?_ (by rw [(sendPush_pushed env d topic push).channels])
    rw [record, (sendPush_sends env d topic push).1, record]
  · rename_i hj
    exact agrees_queue env h push hj

/-- A leave that is sent leaves the protocol's channel leaving. -/
theorem sendLeave_state {env : Env} {d : Driver} {topic : Topic} {pending : PendingLeave}
    (hok : (d.sendLeave env topic pending).2 = none) :
    (d.sendLeave env topic pending).1.state.protocol.channelState topic = some .leaving ∧
      (d.sendLeave env topic pending).1.record topic = d.record topic := by
  cases hj : d.state.protocol.joinedRef topic with
  | none =>
    obtain ⟨e, he⟩ := sendLeave_of_not_joined env pending hj
    rw [he] at hok
    cases hok
  | some joinRef =>
    obtain ⟨c, hc, hs, -⟩ := Protocol.joinedRef_eq_some.mp hj
    have hp : (d.trackLeave topic pending).state.protocol = (d.state.protocol.leave topic).2 := rfl
    rw [sendLeave_of_joined hc hs, record, sendFrame_state, hp, Protocol.leave_of_joined hc hs]
    refine ⟨?_, rfl⟩
    show (d.state.protocol.channels.insert topic _)[topic]?.map Channel.state = _
    rw [Table.lookup_insert, if_pos rfl]
    rfl

/-- A channel that is leaving may say so. -/
theorem agrees_sendLeave {d : Driver} {topic : Topic} {pending : PendingLeave}
    (hok : (d.sendLeave env topic pending).2 = none)
    (h : ∀ channel, d.record topic = some channel → channel.status = .leaving) :
    (d.sendLeave env topic pending).1.Agrees topic := by
  obtain ⟨hs, hr⟩ := sendLeave_state hok
  intro channel hc
  rw [hr] at hc
  have hl := h channel hc
  rw [hs]
  refine ⟨fun hj => ?_, fun hj => ?_, fun _ => .inl rfl, nofun⟩
  · cases hl.symm.trans hj
  · cases hl.symm.trans hj

theorem agrees_handleLeave (id : RequestId) (timeout : Duration)
    (hok : (d.handleLeave env id topic timeout).2 = none) :
    (d.handleLeave env id topic timeout).1.Agrees topic := by
  have hstopped : ∀ channel, ((d.setStatus topic .leaving).stopChannel topic).record topic = some channel →
      channel.status = .leaving ∧ channel.queued = [] := fun channel hc => by
    cases hr : d.record topic with
    | none => cases (stopChannel_record_of_none hr .leaving).symm.trans hc
    | some channel' =>
      cases (stopChannel_record hr .leaving).symm.trans hc
      exact ⟨rfl, rfl⟩
  cases leave_handled env d id topic timeout with
  | sent channel hc hs he =>
    rw [he] at hok ⊢
    exact agrees_sendLeave env hok fun channel hc => (hstopped channel hc).1
  | deferred channel hs hr he =>
    obtain ⟨hleaving, hqueued⟩ := hstopped channel hr
    have hpr : ((d.setStatus topic .leaving).stopChannel topic).state.protocol = d.state.protocol := by simp
    rw [he]
    refine agrees_of_record (record_setRecord ..) ⟨fun h => ?_, fun h => ?_, fun _ => .inr ⟨?_, rfl⟩, fun _ => hqueued⟩
    · cases hleaving.symm.trans h
    · cases hleaving.symm.trans h
    · rw [setRecord_protocol, hpr]
      exact hs
  | idle hs hj he =>
    rw [he]
    cases hr : d.record topic with
    | none => exact agrees_of_none (stopChannel_record_of_none hr .left)
    | some channel =>
      exact agrees_of_record (stopChannel_record hr .left) (.of_calm ChannelStatus.calm_left fun _ => rfl)

end

/-! ### Payload results and timers

A join that starts makes both say joining; one that is given up discards the channel. -/

section
variable (env : Env) {d : Driver} {topic : Topic}

/-- A join that is sent leaves the protocol's channel joining. -/
theorem agrees_trackJoin {params : Value} {channel : ChannelRecord}
    (hs : d.state.protocol.channelState topic = none) :
    (d.trackJoin topic params channel).Agrees topic := by
  have hr : (d.trackJoin topic params channel).record topic = some { channel with status := .joining } := by
    show (d.state.channels.insert topic _)[topic]? = _
    rw [Table.lookup_insert, if_pos rfl]
  have hp : (d.trackJoin topic params channel).state.protocol =
      (d.state.protocol.join topic params).2 := rfl
  have hstate : (d.trackJoin topic params channel).state.protocol.channelState topic = some .joining := by
    rw [hp, Protocol.join_of_unknown hs, Protocol.channelState, Table.lookup_insert, if_pos rfl]
    rfl
  refine agrees_of_record hr ?_
  rw [hstate]
  exact .of_joining rfl

theorem agrees_handlePayload (h : d.Agrees topic) (payloadId : UInt64)
    (payload : Except String Value) :
    (d.handlePayload env topic payloadId payload).1.Agrees topic := by
  cases payload_handled env d topic payloadId payload with
  | ignored hi he =>
    rw [he]
    exact h
  | late channel hr ha hl he =>
    rw [he]
    exact agrees_of_record (record_setRecord ..) ((h channel hr).retouch rfl rfl rfl)
  | failed message channel hp hr ha he =>
    rw [he]
    refine Agrees.emitChannel (Agrees.emitAll ?_ _)
    exact agrees_setRecord ChannelStatus.calm_errored (h channel hr).flushed
  | joined value channel d₁ hp hr ha hd hs hd₁ hs₁ he =>
    rw [he]
    exact (agrees_trackJoin hs₁).sendFrame _ _ _

theorem agrees_handleRejoin (h : d.Agrees topic) : (d.handleRejoin topic).Agrees topic := by
  unfold handleRejoin
  cases hr : d.record topic with
  | none => exact h
  | some channel =>
    have hset : (d.setRecord topic { channel with rejoinScheduled := false }).Agrees topic :=
      agrees_of_record (record_setRecord ..) ((h channel hr).retouch rfl rfl rfl)
    dsimp only
    split
    · exact hset.loadPayload
    · exact hset

theorem discarded_channel (d : Driver) (topic : Topic) :
    (d.discardChannel topic).state.protocol.channels[topic]? = none := by
  show (d.state.protocol.channels.erase topic)[topic]? = none
  rw [Table.lookup_erase, if_pos rfl]

theorem agrees_joinTimedOut (d : Driver) (topic : Topic) (duration : Duration) :
    (d.joinTimedOut env topic duration).Agrees topic := by
  have hset : ∀ channel : ChannelRecord, channel.status.Calm →
      ((d.discardChannel topic).setRecord topic channel).Agrees topic := fun channel hs =>
    agrees_discarded (record_setRecord ..) hs (discarded_channel d topic)
  cases hr : d.record topic with
  | none =>
    rw [joinTimedOut_of_none hr]
    exact agrees_of_none hr
  | some channel =>
    cases hl : channel.deferredLeave with
    | some pending =>
      rw [joinTimedOut_of_deferred hr hl]
      exact Agrees.answerLeave (hset _ ChannelStatus.calm_left)
    | none =>
      cases hd : channel.desired with
      | true =>
        rw [joinTimedOut_of_wanted hr hl hd]
        exact Agrees.scheduleRejoin (Agrees.emitAll (hset _ ChannelStatus.calm_errored) _)
      | false =>
        rw [joinTimedOut_of_unwanted hr hl hd]
        exact hset _ ChannelStatus.calm_left

/-- A discarded channel has nothing to flush. -/
theorem flushed_of_unknown (h : d.state.protocol.channels[topic]? = none) : d.Flushed topic := by
  intro channel _ hs
  rw [Protocol.channelState, h] at hs
  cases hs

theorem agrees_leaveTimedOut (d : Driver) (topic : Topic) (pending : PendingLeave)
    (duration : Duration) : (d.leaveTimedOut topic pending duration).Agrees topic := by
  have hflushed : ((d.answerLeave (some pending) (.error (.timeout .leave duration))).discardChannel
      topic).Flushed topic := flushed_of_unknown (discarded_channel _ topic)
  cases hr : d.record topic with
  | none =>
    rw [leaveTimedOut_of_none hr]
    refine agrees_of_none ?_
    rw [answerLeave_eq]
    exact hr
  | some channel =>
    rw [leaveTimedOut_of_some hr]
    dsimp only
    split
    · exact Agrees.loadPayload (hflushed.setStatus ChannelStatus.calm_waitingToJoin)
    · exact hflushed.setStatus ChannelStatus.calm_left

theorem agrees_operationTimeout {timer : Timer OperationTimeout} (h : d.Agrees timer.value.topic) :
    ((d.takeOperationTimeout timer).handleOperationTimeout env timer.value).Agrees
      timer.value.topic := by
  cases hv : timer.value with
  | join topic reference duration =>
    rw [hv] at h
    simp only [handleOperationTimeout]
    split
    · exact agrees_joinTimedOut _ _ _ _
    · exact h
  | leave topic reference duration =>
    rw [hv] at h
    simp only [handleOperationTimeout]
    split
    · exact h
    · exact agrees_leaveTimedOut _ _ _ _

end

/-! ### Frames

The event says what the protocol's channel is now, and the handler sets the status after it. -/

section
variable {env : Env} {d : Driver} {topic : Topic} {reference : Reference} {response : Payload}
  {frame : Frame} {p : Protocol}

/-- The state of a channel, known or not, that was set. -/
theorem channelState_setState (p : Protocol) (topic : Topic) (state : ChannelState)
    (pending : Table Reference Pending) :
    Protocol.channelState
        { p with channels := Protocol.setState p.channels topic state, pending } topic =
      (p.channelState topic).map fun _ => state := by
  rw [Protocol.channelState, Protocol.channelState, Protocol.lookup_setState, if_pos rfl]
  cases p.channels[topic]? <;> rfl

theorem agrees_joined
    (hrec : d.state.protocol.receive frame = (.ok (.joined topic reference response), p))
    (hco : d.state.protocol.Coherent)
    (hok : ((d.setProtocol p).onJoined env topic reference response).2 = none) :
    ((d.setProtocol p).onJoined env topic reference response).1.Agrees topic := by
  obtain ⟨hp, he⟩ := Protocol.receive_explains hrec
  have hs : p.channelState topic = some .joined := by
    obtain ⟨c, hc, -⟩ := hco.joins reference topic hp
    rw [he, channelState_setState, Protocol.channelState, hc]
    rfl
  cases hr : (d.setProtocol p).record topic with
  | none =>
    rw [onJoined_of_none hr, flush_of_none (by rw [emitChannel_eq]; exact hr)]
    exact (agrees_of_none (d := (d.setProtocol p).eraseJoin reference) hr).emitChannel
  | some channel =>
    have hwr := welcome_record (d.setProtocol p) topic reference response channel
    cases hl : channel.deferredLeave with
    | some pending =>
      rw [onJoined_of_deferred hr hl] at hok ⊢
      refine agrees_sendLeave env hok fun channel' hc => ?_
      cases hwr.symm.trans hc
      simp only [ChannelRecord.joined, hl, Option.isSome_some, if_true]
    | none =>
      rw [onJoined_of_not_deferred hr hl] at hok ⊢
      obtain ⟨sent, rest, effects, -, hrec', -, -, hdone⟩ := flush_sends env hwr
      have hstate : (((d.setProtocol p).welcome topic reference response channel).flush env
          topic).1.state.protocol.channelState topic = some .joined := by
        rw [Protocol.channelState, (flush_pushed ..).channels, welcome_protocol]
        exact hs
      refine agrees_of_record hrec' ?_
      rw [hstate]
      refine ⟨fun _ => rfl, fun h => ?_, fun h => ?_, fun _ => hdone hok⟩
      · simp [ChannelRecord.joined, hl] at h
      · simp [ChannelRecord.joined, hl] at h

/-- A state that is not joined holds nothing back. -/
theorem flushed_of_state {state : ChannelState} (hne : state ≠ .joined)
    (hs : d.state.protocol.channelState topic = none ∨
      d.state.protocol.channelState topic = some state) : d.Flushed topic := by
  intro channel _ hj
  rcases hs with hs | hs
  · cases hs.symm.trans hj
  · exact absurd (Option.some.inj (hs.symm.trans hj)) hne

/-- A channel whose state was set, if it is known. -/
theorem channelState_of_set {state : ChannelState} {pending : Table Reference Pending}
    (he : p = { d.state.protocol with
      channels := Protocol.setState d.state.protocol.channels topic state, pending }) :
    p.channelState topic = none ∨ p.channelState topic = some state := by
  rw [he, channelState_setState]
  cases d.state.protocol.channelState topic with
  | none => exact .inl rfl
  | some _ => exact .inr rfl

theorem agrees_joinError
    (hrec : d.state.protocol.receive frame = (.ok (.joinError topic reference response), p)) :
    ((d.setProtocol p).onJoinError env topic reference response).Agrees topic := by
  obtain ⟨-, he⟩ := Protocol.receive_explains hrec
  have hflushed : ∀ d' : Driver, d'.state.protocol = p → d'.Flushed topic := fun d' hd =>
    flushed_of_state (show ChannelState.errored ≠ .joined by decide) (by rw [hd]; exact channelState_of_set he)
  cases hr : (d.setProtocol p).record topic with
  | none =>
    rw [onJoinError_of_none hr]
    exact (agrees_of_none (d := (d.setProtocol p).eraseJoin reference) hr).emitChannel
  | some channel =>
    rw [onJoinError_of_some hr]
    refine Agrees.scheduleRejoin (Agrees.emitChannel (Agrees.emitAll ?_ _))
    refine agrees_setRecord ?_ fun hs => ?_
    · simp only [ChannelRecord.refused]
      split
      · exact ChannelStatus.calm_left
      · exact ChannelStatus.calm_errored
    · exact hflushed ((d.setProtocol p).setRecord topic channel.refused) rfl _ (record_setRecord ..) hs

theorem agrees_left
    (hrec : d.state.protocol.receive frame = (.ok (.left topic reference response), p)) :
    ((d.setProtocol p).onLeft topic reference response).Agrees topic := by
  obtain ⟨-, he⟩ := Protocol.receive_explains hrec
  have hgone : p.channels[topic]? = none := by
    rw [he, Table.lookup_erase, if_pos rfl]
  have hset : ∀ channel : ChannelRecord, channel.status.Calm →
      (((d.setProtocol p).leaveSettled reference response).setRecord topic channel).Agrees topic :=
    fun channel hs => agrees_discarded (record_setRecord ..) hs hgone
  cases hr : (d.setProtocol p).record topic with
  | none =>
    rw [onLeft_of_none hr]
    exact (agrees_of_none (d := (d.setProtocol p).leaveSettled reference response) hr).emitChannel
  | some channel =>
    rw [onLeft_of_some hr]
    split
    · exact Agrees.loadPayload (Agrees.emitChannel (hset _ ChannelStatus.calm_waitingToJoin))
    · exact Agrees.emitChannel (hset _ ChannelStatus.calm_left)

theorem agrees_reply {event : String} {status : ReplyStatus} (h : d.Agrees topic)
    (hrec : d.state.protocol.receive frame = (.ok (.reply topic event reference status response), p)) :
    ((d.setProtocol p).onReply topic event reference status response).Agrees topic := by
  obtain ⟨-, -, -, he⟩ := Protocol.receive_explains hrec
  have hreceive : (d.setProtocol p).Agrees topic :=
    h.of_eq rfl (by rw [setProtocol_protocol, he])
  cases hc : (d.setProtocol p).state.pendingCalls[reference]? with
  | none =>
    rw [onReply_of_none hc]
    exact hreceive.emitChannel
  | some call =>
    rw [onReply_of_some hc]
    have hsettled : ((d.setProtocol p).callSettled reference call status response).Agrees topic :=
      hreceive.of_eq rfl rfl
    exact hsettled.emitChannel

theorem agrees_heartbeatAck {status : ReplyStatus} {t : Topic} (h : d.Agrees t)
    (hrec : d.state.protocol.receive frame = (.ok (.heartbeatAck reference status), p)) :
    ((d.setProtocol p).onHeartbeatAck reference).Agrees t := by
  obtain ⟨-, he⟩ := Protocol.receive_explains hrec
  have hreceive : (d.setProtocol p).Agrees t := h.of_eq rfl (by rw [setProtocol_protocol, he])
  unfold onHeartbeatAck
  split
  · exact hreceive.of_eq rfl rfl
  split
  · exact hreceive
  · exact hreceive.of_eq rfl rfl

theorem agrees_channelError {payload : Payload}
    (hrec : d.state.protocol.receive frame = (.ok (.channelError topic payload), p)) :
    ((d.setProtocol p).onChannelError env topic payload).Agrees topic := by
  obtain ⟨-, -, -, he⟩ := Protocol.receive_explains hrec
  have hflushed : ((d.setProtocol p).forgetJoins topic).Flushed topic :=
    flushed_of_state (show ChannelState.errored ≠ .joined by decide) (channelState_of_set he)
  exact Agrees.scheduleRejoin (Agrees.emitChannel (hflushed.setStatus ChannelStatus.calm_errored))

theorem agrees_channelClosed (d : Driver) (topic : Topic) (payload : Payload) :
    (d.onChannelClosed topic payload).Agrees topic := by
  cases hr : d.record topic with
  | none =>
    rw [onChannelClosed_of_none hr]
    exact (agrees_of_none (d := d.forgetJoins topic) hr).emitChannel
  | some channel =>
    have hr : (d.forgetJoins topic).record topic = some channel := hr
    simp only [onChannelClosed, hr]
    rw [emitChannel_eq, stopChannel_of_some (emitAll_record _ _ _ ▸ record_setRecord ..)]
    exact agrees_of_record (record_setRecord ..) (.of_calm ChannelStatus.calm_closed fun _ => rfl)

variable (env) in
theorem agrees_handleEvent {event : ProtocolEvent}
    (hrec : d.state.protocol.receive frame = (.ok event, p)) (hco : d.state.protocol.Coherent)
    (h : ∀ t, d.Agrees t) (hok : ((d.setProtocol p).handleEvent env event).2 = none) :
    ((d.setProtocol p).handleEvent env event).1.Agrees (topicOf event) := by
  cases event with
  | joined topic reference response => exact agrees_joined hrec hco hok
  | joinError topic reference response => exact agrees_joinError hrec
  | reply topic name reference status response => exact agrees_reply (h topic) hrec
  | left topic reference response => exact agrees_left hrec
  | heartbeatAck reference status => exact agrees_heartbeatAck (h _) hrec
  | channelError topic payload => exact agrees_channelError hrec
  | channelClosed topic payload => exact agrees_channelClosed _ _ _
  | message frame | staleMessage frame | unmatchedReply frame =>
    have he := Protocol.receive_explains hrec
    cases he
    exact (h frame.topic).emitChannel
  | requestInterrupted topic name reference => cases Protocol.receive_explains hrec

theorem agrees_onMessage (message : WireMessage) (hco : d.state.protocol.Coherent)
    (h : ∀ t, d.Agrees t) (hok : (d.onMessage env message).2 = none) :
    ∃ topic, Apart topic d (d.onMessage env message).1 ∧ (d.onMessage env message).1.Agrees topic := by
  cases hd : env.codec.decode message with
  | error e =>
    simp only [onMessage, handleIncoming, hd] at hok
    cases hok
  | ok frame =>
    obtain ⟨report, hi⟩ := handleIncoming_of_decoded (d := d) hd
    rcases hrec : d.state.protocol.receive frame with ⟨e | event, p⟩
    · have hrec' : (d.emitAll [.telemetry report]).state.protocol.receive frame = (.error e, p) := hrec
      simp only [onMessage, hi, handleFrame, hrec'] at hok
      cases hok
    refine ⟨topicOf event, apart_onMessage env d hd hrec, ?_⟩
    have hrec' : (d.emitAll [.telemetry report]).state.protocol.receive frame = (.ok event, p) := hrec
    have hevent := agrees_handleEvent env hrec' hco h
    simp only [onMessage, hi, handleFrame, hrec'] at hok ⊢
    rcases hh : ((d.emitAll [.telemetry report]).setProtocol p).handleEvent env event with
      ⟨d', _ | reason⟩
    · rw [hh] at hevent
      simp only [Result.andThen]
      split
      · exact (hevent rfl).of_eq rfl rfl
      · exact hevent rfl
    · rw [hh] at hok
      cases hok

end

/-! ### Cancellation

A cancellation touches a channel only where the last waiter of a join gives up. -/

section
variable {d : Driver} {t topic : Topic} {channel : ChannelRecord} {id : RequestId}

theorem agrees_cancelJoin (h : d.Agrees topic) (hr : d.record topic = some channel) :
    (d.cancelJoin topic channel id).Agrees topic := by
  by_cases hc : channel.joinWaiters.erase id = [] ∧ channel.everJoined = false
  · rw [cancelJoin_of_last hc.1 hc.2]
    exact agrees_discarded (record_setRecord ..) ChannelStatus.calm_left (discarded_channel _ topic)
  · rw [cancelJoin_of_others hc]
    exact agrees_of_record (record_setRecord ..) ((h channel hr).retouch rfl rfl rfl)

theorem agrees_cancelUnsent (h : d.Agrees topic) (hr : d.record topic = some channel) :
    (d.cancelUnsent topic channel id).Agrees topic := by
  have ha := h channel hr
  cases d.cancelUnsent_cases topic channel id with
  | leave pending hd hid he =>
    have hset : (d.setRecord topic { channel with
        deferredLeave := some { pending with response := false } }).Agrees topic :=
      agrees_of_record (record_setRecord ..)
        ⟨ha.joined, ha.joining, fun hl => (ha.leaving hl).imp_right fun hj => ⟨hj.1, rfl⟩, ha.flushed⟩
    rw [he]
    exact hset.emitAll _
  | push push hf he =>
    have hset : (d.setRecord topic { channel with
        queued := removeQueued id channel.queued }).Agrees topic :=
      agrees_of_record (record_setRecord ..) ⟨ha.joined, ha.joining, ha.leaving, fun hs => by
        rw [setRecord_protocol] at hs
        simp only [ha.flushed hs, removeQueued]⟩
    rw [he]
    exact hset.emitAll _
  | nothing hd hq he =>
    rw [he]
    exact h

theorem agrees_cancelCall (h : d.Agrees t) : (d.cancelCall id).Agrees t := by
  rcases cancelCall_cases d id with hcancel | ⟨reference, call, -, -, hcancel⟩
  · rw [hcancel]
    exact h
  · rw [hcancel]
    exact h.of_eq rfl (by rw [setProtocol_protocol, Protocol.forgetPush_channels])

theorem agrees_cancelPing (h : d.Agrees t) : (d.cancelPing id).Agrees t := by
  rcases cancelPing_cases d id with hcancel | ⟨reference, ping, -, -, hcancel⟩
  · rw [hcancel]
    exact h
  · rw [hcancel]
    exact h.of_eq rfl (by rw [setProtocol_protocol, Protocol.forgetHeartbeat_channels])

theorem agrees_cancelLeave (h : d.Agrees t) : (d.cancelLeave id).Agrees t := by
  rcases cancelLeave_cases d id with hcancel | ⟨reference, leave, -, -, hcancel⟩
  · rw [hcancel]
    exact h
  · rw [hcancel]
    exact h.of_eq rfl rfl

theorem agrees_cancel (d : Driver) (id : RequestId) (h : ∀ t, d.Agrees t) :
    ∀ t, (d.cancel id).Agrees t := by
  cases d.cancel_found id with
  | join topic channel hr hm he =>
    rw [he]
    exact apart_cancelJoin.agrees h (agrees_cancelJoin (h topic) hr)
  | unsent topic channel hr hm he =>
    rw [he]
    exact apart_cancelUnsent.agrees h (agrees_cancelUnsent (h topic) hr)
  | pending hj hq he =>
    rw [he]
    exact fun t => agrees_cancelLeave (agrees_cancelPing (agrees_cancelCall (h t)))

end

end Driver
end PhoenixChannel.Client
