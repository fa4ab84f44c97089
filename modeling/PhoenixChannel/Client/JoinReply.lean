import PhoenixChannel.Client.Traces

/-! What the reply to a join tells its waiters.

All waiters of a topic are answered by the reply to the one join in flight. A leave that
was deferred in the meantime goes out in the same step. -/
namespace PhoenixChannel.Client
open PhoenixChannel.Runtime Library

/-- The waiter a successful join is reported to. -/
def Effect.welcomes : Effect → Option RequestId
  | .answered .join id (.ok _) => some id
  | _ => none

theorem Effect.welcomes_eq_some {effect : Effect} {id : RequestId} (h : effect.welcomes = some id) :
    ∃ success, effect = .answered .join id (.ok success) := by
  unfold Effect.welcomes at h
  split at h
  · cases h
    exact ⟨_, rfl⟩
  · cases h

namespace Driver

/-- From `d` to `d'` no successful join is reported. -/
abbrev Quiet (d d' : Driver) : Prop := d.Emits (fun effect => effect.welcomes = none) d'

instance : Lenient fun effect => effect.welcomes = none where
  report effect h := by
    cases effect <;> first
      | rfl
      | cases h
  failure operation _ _ := by cases operation <;> rfl
  leave _ _ := rfl
  load _ _ _ _ := rfl

theorem Emits.not_welcome {d d' : Driver} (h : d.Quiet d') (id : RequestId) (success : Success) :
    .answered .join id (.ok success) ∉ d.done d' := fun hm => by
  cases h.done hm

theorem Emits.pushed {d d' d'' : Driver} (h : d.Quiet d') (hp : d'.Pushed d'') : d.Quiet d'' := by
  obtain ⟨effects, ht, he⟩ := hp.effects
  refine h.trans ⟨effects, ht, fun effect hm => ?_⟩
  have := he effect hm
  cases effect with
  | answered operation id result => rcases this with rfl | rfl <;> rfl
  | _ => rfl

/-! ### The other events

No other event tells a waiter that its join succeeded. -/

section
variable (env : Env) (d : Driver) (topic : Topic)

/-- A refusal is no welcome. -/
theorem quiet_onJoinError (reference : Reference) (response : Payload) :
    d.Quiet (d.onJoinError env topic reference response) := by
  have h : d.Quiet (d.eraseJoin reference) := .of_trace rfl
  unfold onJoinError
  dsimp only
  split
  · exact h.emitChannel
  · refine (h.setRecord.answerLeave.emitAll ?_).emitChannel.scheduleRejoin
    intro effect hm
    obtain ⟨id, -, rfl⟩ := List.mem_map.mp hm
    rfl

/-- The reply to a push is told to its caller. -/
theorem quiet_onReply (event : String) (reference : Reference) (status : ReplyStatus)
    (response : Payload) : d.Quiet (d.onReply topic event reference status response) := by
  unfold onReply
  dsimp only
  split
  · exact (Emits.of_trace rfl).emitChannel
  · simp only [emitCallCompleted_eq, answer_eq, emitAll_emitAll]
    refine Emits.emitChannel (Emits.emitAll (.of_trace rfl) ?_)
    simp [Effect.welcomes]

/-- The reply to a leave is told to its caller. -/
theorem quiet_onLeft (reference : Reference) (response : Payload) :
    d.Quiet (d.onLeft topic reference response) := by
  unfold onLeft
  dsimp only
  have h : d.Quiet (d.eraseLeave reference) := .of_trace rfl
  split
  · exact h.answerLeave.emitChannel
  · split
    · exact h.answerLeave.setStatus.emitChannel.loadPayload
    · exact h.answerLeave.setStatus.emitChannel

/-- An acknowledgement is told to a ping at most. -/
theorem quiet_onHeartbeatAck (reference : Reference) : d.Quiet (d.onHeartbeatAck reference) := by
  unfold onHeartbeatAck
  split
  · exact .of_trace rfl
  · split
    · exact .of_trace rfl
    · simp only [answer_eq]
      refine Emits.emitAll (.of_trace rfl) ?_
      simp [Effect.welcomes]

theorem quiet_onChannelError (payload : Payload) :
    d.Quiet (d.onChannelError env topic payload) := by
  have h : d.Quiet (d.forgetJoins topic) := .of_trace rfl
  exact h.setStatus.emitChannel.scheduleRejoin

theorem quiet_onChannelClosed (payload : Payload) :
    d.Quiet (d.onChannelClosed topic payload) := by
  have h : d.Quiet (d.forgetJoins topic) := .of_trace rfl
  unfold onChannelClosed
  dsimp only
  split
  · exact h.setRecord.emitChannel.stopChannel
  · exact h.emitChannel.stopChannel

/-- Only the event of a successful join welcomes anybody. -/
theorem quiet_handleEvent (event : ProtocolEvent)
    (hj : ∀ topic reference response, event ≠ .joined topic reference response) :
    d.Quiet (d.handleEvent env event).1 := by
  cases event with
  | joined topic reference response => exact absurd rfl (hj topic reference response)
  | joinError topic reference response => exact quiet_onJoinError ..
  | reply topic event reference status response => exact quiet_onReply ..
  | left topic reference response => exact quiet_onLeft ..
  | heartbeatAck reference status => exact quiet_onHeartbeatAck ..
  | channelError topic payload => exact quiet_onChannelError ..
  | channelClosed topic payload => exact quiet_onChannelClosed ..
  | message frame | staleMessage frame | unmatchedReply frame => exact .emitChannel (.of_trace rfl)
  | requestInterrupted topic event reference => exact .emitChannel (.of_trace rfl)

end

/-! ### The event of a successful join

The waiters are those of the record, so the channel they are told of is the one that was joined. -/

/-- The topic's channel is joined, and its record says so. -/
def Joined (d : Driver) (topic : Topic) : Prop :=
  d.state.protocol.channelState topic = some .joined ∧
    (d.record topic).map ChannelRecord.status = some .joined

/-- Pushes leave a joined channel joined. -/
theorem Joined.pushed {d d' : Driver} {topic : Topic} (h : d.Joined topic) (hp : d.Pushed d') :
    d'.Joined topic := by
  obtain ⟨hs, hr⟩ := h
  have hrec := congrArg (Option.map ChannelRecord.status) (hp.records topic)
  simp only [Option.map_map] at hrec
  refine ⟨?_, ?_⟩
  · rw [← hs, Protocol.channelState, Protocol.channelState, hp.channels]
  · rw [← hr]
    exact hrec

/-- A leave that is sent takes the channel out of the joined state. -/
theorem not_joined_of_sendLeave {env : Env} {d : Driver} {topic : Topic} {pending : PendingLeave}
    {channel : Channel} (hc : d.state.protocol.channels[topic]? = some channel)
    (hs : channel.state = .joined) : ¬ (d.sendLeave env topic pending).1.Joined topic := by
  intro h
  have hj := h.1
  rw [sendLeave_of_joined hc hs, sendFrame_state] at hj
  simp only [trackLeave, Protocol.leave_of_joined hc hs, Protocol.channelState, Table.lookup_insert,
    if_true, Option.map_some] at hj
  cases hj

/-- A leave that is sent answers no join. -/
theorem quiet_sendLeave (env : Env) (d : Driver) (topic : Topic) (pending : PendingLeave) :
    d.Quiet (d.sendLeave env topic pending).1 := by
  cases hj : d.state.protocol.joinedRef topic with
  | none =>
    obtain ⟨e, he⟩ := sendLeave_of_not_joined env pending hj
    rw [he]
    exact .of_trace rfl
  | some joinRef =>
    obtain ⟨channel, hc, hs, -⟩ := Protocol.joinedRef_eq_some.mp hj
    rw [sendLeave_of_joined hc hs]
    have h : d.Quiet (d.trackLeave topic pending) := .of_trace rfl
    exact h.sendFrame rfl

/-- The answers of a successful join go to the waiters. -/
theorem mem_welcome {d₀ d d' : Driver} {topic : Topic} {reference : Reference} {response : Payload}
    {channel : ChannelRecord} (hq : d₀.Quiet d)
    (h : (d.welcome topic reference response channel).Quiet d')
    {id : RequestId} {success : Success} (hm : .answered .join id (.ok success) ∈ d₀.done d') :
    id ∈ channel.joinWaiters := by
  obtain ⟨before, ht₀, hb⟩ := hq
  obtain ⟨after, ht, ha⟩ := h
  rw [welcome, emitChannel_eq] at ht
  have htrace : ((d.eraseJoin reference).setRecord topic channel.joined).trace = d.trace := rfl
  simp only [emitAll_trace, htrace, ht₀, List.append_assoc] at ht
  rw [done_of_append ht] at hm
  simp only [List.mem_append] at hm
  rcases hm with hm | hm | hm | hm
  · cases hb _ hm
  · obtain ⟨waiter, hw, heq⟩ := List.mem_map.mp hm
    cases heq
    exact hw
  · cases channelEffects_report _ _ _ _ hm
  · cases ha _ hm

/-- A successful join answers the waiters of the topic. The topic ends up joined exactly when
no leave was deferred. -/
theorem onJoined_welcomes {env : Env} {d₀ d : Driver} (hq : d₀.Quiet d) {topic : Topic} {reference : Reference}
    {response : Payload} {c : Channel} (hc : d.state.protocol.channels[topic]? = some c)
    (hs : c.state = .joined) {id : RequestId} {success : Success}
    (h : .answered .join id (.ok success) ∈ d₀.done (d.onJoined env topic reference response).1) :
    ∃ channel : ChannelRecord, d.record topic = some channel ∧ id ∈ channel.joinWaiters ∧
      ((d.onJoined env topic reference response).1.Joined topic ↔ channel.deferredLeave = none) := by
  cases hr : d.record topic with
  | none =>
    rw [onJoined_of_none hr] at h
    have herase : d₀.Quiet (d.eraseJoin reference) := hq.trans (.of_trace rfl)
    exact absurd h (Emits.not_welcome (herase.emitChannel.pushed (flush_pushed ..)) id success)
  | some channel =>
    refine ⟨channel, rfl, ?_⟩
    have hwelcome : (d.welcome topic reference response channel).state.protocol = d.state.protocol := by
      simp [welcome]
    cases hp : channel.deferredLeave with
    | none =>
      rw [onJoined_of_not_deferred hr hp] at h ⊢
      have hpushed := flush_pushed env (d.welcome topic reference response channel) topic
      have hquiet : Quiet (d.welcome topic reference response channel) _ :=
        (Emits.of_trace rfl).pushed hpushed
      refine ⟨mem_welcome hq hquiet h, iff_of_true ?_ rfl⟩
      refine Joined.pushed ⟨?_, ?_⟩ hpushed
      · rw [hwelcome, Protocol.channelState, hc]
        exact congrArg some hs
      · rw [welcome, record, emitChannel_state]
        show ((Driver.setRecord _ topic channel.joined).record topic).map _ = _
        rw [record_setRecord]
        simp [ChannelRecord.joined, hp]
    | some pending =>
      rw [onJoined_of_deferred hr hp] at h ⊢
      refine ⟨mem_welcome hq (quiet_sendLeave ..) h, iff_of_false ?_ (Option.some_ne_none _)⟩
      exact not_joined_of_sendLeave (by rw [hwelcome]; exact hc) hs

/-- **An answered join means a joined channel exactly when no leave was deferred to its
reply.** -/
theorem welcome_means_joined_iff (env : Env) (d : Driver) (message : WireMessage) (id : RequestId)
    (success : Success) (h : (driver env).Reachable d)
    (ha : .answered .join id (.ok success) ∈ d.done (d.handleIncoming env message).1) :
    ∃ (topic : Topic) (channel : ChannelRecord), d.record topic = some channel ∧
      id ∈ channel.joinWaiters ∧
      ((d.handleIncoming env message).1.Joined topic ↔ channel.deferredLeave = none) := by
  cases hd : env.codec.decode message with
  | error e =>
    simp only [handleIncoming, hd] at ha
    exact absurd ha (Emits.not_welcome (.of_trace rfl) id success)
  | ok frame =>
    obtain ⟨report, hi⟩ := handleIncoming_of_decoded (d := d) hd
    rw [hi] at ha ⊢
    have hq : d.Quiet (d.emitAll [.telemetry report]) :=
      Emits.emitAll (.of_trace rfl) (by simp [Effect.welcomes])
    rcases hrec : d.state.protocol.receive frame with ⟨e | event, p⟩
    · simp only [handleFrame, emitAll_state, hrec] at ha
      exact absurd ha (Emits.not_welcome (hq.trans (.of_trace rfl)) id success)
    · simp only [handleFrame, emitAll_state, hrec] at ha ⊢
      have hq : d.Quiet ((d.emitAll [.telemetry report]).setProtocol p) := hq.trans (.of_trace rfl)
      by_cases hj : ∀ topic reference response, event ≠ .joined topic reference response
      · exact absurd ha (Emits.not_welcome (hq.trans (quiet_handleEvent env _ event hj)) id success)
      · simp only [not_forall, not_not] at hj
        obtain ⟨topic, reference, response, rfl⟩ := hj
        obtain ⟨hp, rfl⟩ := Protocol.receive_explains hrec
        obtain ⟨c, hc, -⟩ := (reachable_coherent h).joins reference topic hp
        refine ⟨topic, onJoined_welcomes (c := { c with state := .joined }) hq ?_ rfl ha⟩
        show (Protocol.setState d.state.protocol.channels topic .joined)[topic]? = _
        rw [Protocol.lookup_setState, if_pos rfl, hc]
        rfl

/-- The reply to that join. -/
def joinReply : Frame := replyFrame "ok" "room" "1" "1"

/-- The reply to the first join, with nothing put off meanwhile. -/
theorem welcome_means_joined_iff_reply :
    ∃ d : Driver, (driver (smallEnv [joinReply])).Reachable d ∧
      ∃ (topic : Topic) (channel : ChannelRecord), d.record topic = some channel ∧
        1 ∈ channel.joinWaiters ∧
        ((d.handleIncoming (smallEnv [joinReply]) (.text (frameText joinReply))).1.Joined topic ↔
          channel.deferredLeave = none) := by
  obtain ⟨d, hr, hd⟩ := Machine.reachable_of_run (driver (smallEnv [joinReply])) joining
    (fun d => (d.done (d.handleIncoming (smallEnv [joinReply]) (.text (frameText joinReply))).1).any
      fun effect => effect.welcomes = some 1) (by decide +kernel)
  obtain ⟨effect, hm, hw⟩ := List.any_eq_true.mp hd
  obtain ⟨success, rfl⟩ := Effect.welcomes_eq_some (of_decide_eq_true hw)
  exact ⟨d, hr, welcome_means_joined_iff _ d _ 1 success hr hm⟩

/-- A leave and a second join during the first join: the second caller is told that it joined
a channel which is being left. -/
theorem welcome_while_leaving :
    ¬ ∀ (env : Env) (d : Driver) (message : WireMessage) (id : RequestId) (success : Success),
      (driver env).Reachable d → d.phase = .connected → (d.handleIncoming env message).2 = none →
      .answered .join id (.ok success) ∈ d.done (d.handleIncoming env message).1 →
      ∃ (topic : Topic) (channel : ChannelRecord), d.record topic = some channel ∧
        id ∈ channel.joinWaiters ∧ (d.handleIncoming env message).1.Joined topic := by
  intro hall
  let env := smallEnv [joinReply]
  let message : WireMessage := .text (frameText joinReply)
  obtain ⟨d, hr, hd⟩ := Machine.reachable_of_run (driver env)
    (joining ++ [.command (.leave 2 "room" 10), .command (.join 3 "room" 10)])
    (fun d => d.phase = .connected ∧ (d.handleIncoming env message).2 = none ∧
      ((d.done (d.handleIncoming env message).1).any fun effect => effect.welcomes = some 3) = true ∧
      d.state.channels.keys = ["room"] ∧
      ((d.handleIncoming env message).1.record "room").map ChannelRecord.status = some .leaving)
    (by decide +kernel)
  obtain ⟨hphase, hnone, hany, hkeys, hstatus⟩ := of_decide_eq_true hd
  obtain ⟨effect, hm, hw⟩ := List.any_eq_true.mp hany
  obtain ⟨success, rfl⟩ := Effect.welcomes_eq_some (of_decide_eq_true hw)
  obtain ⟨topic, channel, hrecord, -, hjoined⟩ := hall env d message 3 success hr hphase hnone hm
  have hkey : topic ∈ d.state.channels.keys :=
    Std.ExtTreeMap.mem_keys.mpr (Table.mem_of_lookup hrecord)
  rw [hkeys] at hkey
  cases List.mem_singleton.mp hkey
  have := hjoined.2
  rw [hstatus] at this
  cases this

end Driver
end PhoenixChannel.Client
