import PhoenixChannel.Client.Invariant
import PhoenixChannel.Client.JoinReply

/-! A wanted channel comes back.

Whatever ends a join or a leave of a wanted channel starts something else for it, with one
exception: the deadline of a join during which a leave was deferred. -/
namespace PhoenixChannel.Client
open PhoenixChannel.Runtime Library

namespace Driver

/-- Something is in progress that will bring the channel back, or settle its leave first. -/
inductive InProgress (d : Driver) (topic : Topic) (channel : ChannelRecord) : Prop where
  | loading (id : UInt64) (active : channel.activePayload = some id)
      (load : (topic, id) ∈ d.connection.payloads)
  | rejoining (timer : Timer Topic) (outstanding : timer ∈ d.connection.rejoins)
      (rejoins : timer.value = topic)
  | joining (c : Channel) (known : d.state.protocol.channels[topic]? = some c)
      (joining : c.state = .joining) (pending : d.state.pendingJoins[c.joinRef]? = some topic)
      (timer : Timer OperationTimeout) (scheduled : timer ∈ d.connection.operationTimeouts)
      (duration : Duration) (deadline : timer.value = .join topic c.joinRef duration)
  | leaving (c : Channel) (known : d.state.protocol.channels[topic]? = some c)
      (leaving : c.state = .leaving) (reference : Reference)
      (sent : d.state.protocol.pending[reference]? = some (.leave topic))
      (pending : reference ∈ d.state.pendingLeaves)
      (timer : Timer OperationTimeout) (scheduled : timer ∈ d.connection.operationTimeouts)
      (duration : Duration) (deadline : timer.value = .leave topic reference duration)

/-- What is tracked for an active channel, or stands for a flag, is what is in progress. -/
theorem Online.inProgress {F : Prop} {d : Driver} (h : Online True F d) {topic : Topic}
    {channel : ChannelRecord} (hr : d.record topic = some channel) (hd : channel.desired = true)
    (hj : d.state.protocol.channelState topic ≠ some .joined) : d.InProgress topic channel := by
  rcases h.wanted trivial topic channel hr hd with ha | ha | ⟨timer, hm, hv⟩
  · cases hc : d.state.protocol.channels[topic]? with
    | none =>
      rw [Active, Protocol.channelState, hc] at ha
      cases ha
    | some c =>
      rw [Active, Protocol.channelState, hc] at ha
      rw [Protocol.channelState, hc] at hj
      cases hs : c.state with
      | joined => exact absurd (congrArg some hs) hj
      | joining =>
        obtain ⟨-, hp, timer, hm, duration, hv⟩ := (h.tracked topic).joining c hc hs
        exact .joining c hc hs hp timer hm duration hv
      | leaving =>
        obtain ⟨r, hl, hp, timer, hm, duration, hv⟩ := (h.tracked topic).leaving c hc hs
        exact .leaving c hc hs r hl hp timer hm duration hv
      | disconnected | errored | closed => simp [hs, ChannelState.active] at ha
  · obtain ⟨id, hid⟩ := Option.isSome_iff_exists.mp ha
    exact .loading id hid ((h.flagged topic channel hr).2 id hid)
  · exact .rejoining timer hm hv

/-- **No wanted channel is forgotten** in a run in which no join deadline passes, with its join
in flight, for a wanted channel with a deferred leave. -/
theorem wanted_in_progress (env : Env) (d : Driver)
    (h : (driver env).Reach (fun d input => d.phase = .connected → d.Patient input) d)
    (hb : d.state.protocol.allocated < 2 ^ 64) (hp : d.phase = .connected) :
    ∀ (topic : Topic) (channel : ChannelRecord), d.record topic = some channel →
      channel.desired = true → d.state.protocol.channelState topic ≠ some .joined →
      d.InProgress topic channel := by
  have hbetween : Between True False d :=
    between_reach (h.mono fun d input hok => ⟨fun _ => hok, False.elim⟩) hb
  rw [Between, hp] at hbetween
  exact fun topic channel => hbetween.inProgress

/-- A join that waits for its payload. -/
theorem wanted_in_progress_loading :
    ∃ d : Driver, ∃ channel : ChannelRecord, d.phase = .connected ∧ d.record "room" = some channel ∧
      channel.desired = true ∧ d.InProgress "room" channel := by
  obtain ⟨d, hr, hd⟩ := Machine.reach_of_run (driver (smallEnv []))
    (fun d input => d.phase = .connected → d.Patient input)
    [.connectionMade [], .lifecycle (.register "room"), .command (.join 1 "room" 10)]
    (fun d => d.phase = .connected ∧ d.state.protocol.allocated < 2 ^ 64 ∧
      (d.record "room").any ChannelRecord.desired = true ∧
      d.state.protocol.channelState "room" ≠ some .joined)
    (by
      intro input hm d _ timer topic reference duration he
      subst he
      simp [Input.connectionMade] at hm)
    (by decide +kernel)
  obtain ⟨hphase, hb, hany, hj⟩ := of_decide_eq_true hd
  obtain ⟨channel, hrecord, hdesired⟩ := (Option.any_eq_true _ _).mp hany
  exact ⟨d, channel, hphase, hrecord, hdesired,
    wanted_in_progress _ d hr hb hphase "room" channel hrecord hdesired hj⟩

/-- A leave and a second join during the first join, whose deadline passes: the channel stays
wanted, and nothing is in progress. -/
theorem wanted_but_left :
    ¬ ∀ (env : Env) (d : Driver), (driver env).Reachable d → d.phase = .connected →
      ∀ (topic : Topic) (channel : ChannelRecord), d.record topic = some channel →
        channel.desired = true → d.state.protocol.channelState topic ≠ some .joined →
        d.InProgress topic channel := by
  intro hall
  obtain ⟨d, hr, hd⟩ := Machine.reachable_of_run (driver (smallEnv []))
    (joining ++ [.command (.leave 2 "room" 10), .command (.join 3 "room" 10), .tick 10,
      .operationTimeout ⟨10, .join "room" "1" 10⟩])
    (fun d => d.phase = .connected ∧
      (d.record "room").any (fun channel => channel.desired && channel.activePayload.isNone) = true ∧
      d.connection.rejoins = [] ∧ d.state.protocol.channelState "room" = none)
    (by decide +kernel)
  obtain ⟨hphase, hany, hrejoins, hstate⟩ := of_decide_eq_true hd
  obtain ⟨channel, hrecord, hchannel⟩ := (Option.any_eq_true _ _).mp hany
  simp only [Bool.and_eq_true, Option.isNone_iff_eq_none] at hchannel
  have hunknown : d.state.protocol.channels["room"]? = none := Option.map_eq_none_iff.mp hstate
  cases hall _ d hr hphase "room" channel hrecord hchannel.1 (by rw [hstate]; nofun) with
  | loading id active load => cases hchannel.2.symm.trans active
  | rejoining timer outstanding _ =>
    rw [hrejoins] at outstanding
    cases outstanding
  | joining c known => cases hunknown.symm.trans known
  | leaving c known => cases hunknown.symm.trans known

end Driver
end PhoenixChannel.Client
