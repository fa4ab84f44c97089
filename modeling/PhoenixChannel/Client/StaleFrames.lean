import PhoenixChannel.Client.Handlers
import PhoenixChannel.Client.ProtocolMoves

/-! Frames of generations that have ended.

The protocol recognizes a stale frame by the join reference of its channel. Once it has no
channel for the topic there is nothing to compare with, and the frame counts. -/
namespace PhoenixChannel.Client
open PhoenixChannel.Runtime Library

/-- The effect sends a join of the topic under the reference. -/
def Effect.startsJoin (topic : Topic) (r : Reference) : Effect → Bool
  | .outgoing _ frame =>
    frame.topic = topic ∧ frame.event = "phx_join" ∧ frame.joinRef = some r
  | _ => false

namespace Driver

/-- From `d` to `d'` nothing happened but reports. -/
structure Untouched (d d' : Driver) : Prop where
  state : d'.state = d.state
  connection : d'.connection = d.connection
  reports : ∀ effect ∈ d.done d', effect.IsReport

/-- The topic has no join in flight, and its record is already as a close leaves it, or as
an error leaves it. -/
structure NothingToLose (d : Driver) (topic : Topic) (channel : ChannelRecord) (event : String) :
    Prop where
  joins : ∀ r : Reference, d.state.pendingJoins[r]? ≠ some topic
  closed : event = "phx_close" → channel.status = .closed ∧ channel.stopped = channel
  errored : event = "phx_error" →
    channel.status = .errored ∧ (channel.desired = true → channel.rejoinScheduled = true)

/-- `r` is not the join reference of a channel the protocol has for the topic. -/
def Ended (d : Driver) (topic : Topic) (r : Reference) : Prop :=
  ∀ channel : Channel, d.state.protocol.channels[topic]? = some channel → channel.joinRef ≠ r

theorem setState_unknown {channels : Table Topic Channel} {topic : Topic}
    (h : channels[topic]? = none) (state : ChannelState) :
    Protocol.setState channels topic state = channels := by
  apply Std.ExtTreeMap.ext_getElem?
  intro t
  rw [Protocol.lookup_setState]
  by_cases ht : t = topic
  · rw [if_pos ht, ht, h]
    rfl
  · rw [if_neg ht]

/-- A frame of an ended generation is stale while the protocol has a channel. -/
theorem stale_of_ended {d : Driver} {frame : Frame} {r : Reference} {channel : Channel}
    (hr : frame.joinRef = some r) (he : d.Ended frame.topic r)
    (hc : d.state.protocol.channels[frame.topic]? = some channel) :
    d.state.protocol.stale frame = true := by
  have hne : channel.joinRef ≠ r := he channel hc
  simp [Protocol.stale, hc, hr, hne.symm]

theorem handleFrame_of_stale {env : Env} {d : Driver} {frame : Frame}
    (h : d.state.protocol.stale frame = true) :
    d.handleFrame env frame =
      (d.emitChannel frame.topic (.protocol (.staleMessage frame)), none) := by
  simp only [handleFrame, Protocol.receive, h, if_true, handleEvent, setProtocol_self]

theorem receive_closed_unknown {p : Protocol} {frame : Frame}
    (hc : p.channels[frame.topic]? = none) (he : frame.event = "phx_close") :
    p.receive frame = (.ok (.channelClosed frame.topic frame.payload), p) := by
  have hs : p.stale frame = false := by simp [Protocol.stale, hc]
  simp [Protocol.receive, hs, he, setState_unknown hc]

theorem receive_errored_unknown {p : Protocol} {frame : Frame}
    (hc : p.channels[frame.topic]? = none) (he : frame.event = "phx_error") :
    p.receive frame = (.ok (.channelError frame.topic frame.payload), p) := by
  have hs : p.stale frame = false := by simp [Protocol.stale, hc]
  simp [Protocol.receive, hs, he, setState_unknown hc]

theorem forgetJoins_self {d : Driver} {topic : Topic}
    (h : ∀ r : Reference, d.state.pendingJoins[r]? ≠ some topic) : d.forgetJoins topic = d := by
  have hf : (d.state.pendingJoins.filter fun _ t => t != topic) = d.state.pendingJoins := by
    apply Std.ExtTreeMap.ext_getElem?
    intro r
    rw [Std.ExtTreeMap.getElem?_filter']
    cases hr : d.state.pendingJoins[r]? with
    | none => rfl
    | some t =>
      have ht : t ≠ topic := fun he => h r (by rw [hr, he])
      simp [Option.filter, ht]
  simp only [forgetJoins, hf]

/-- After `forgetJoins` the topic has no join in flight. -/
theorem forgetJoins_none (d : Driver) (topic : Topic) (r : Reference) :
    (d.forgetJoins topic).state.pendingJoins[r]? ≠ some topic := by
  rw [forgetJoins_lookup]
  intro h
  have := Option.eq_some_of_filter_eq_some h
  simp [this, Option.filter] at h

section
variable {env : Env} {d : Driver} {topic : Topic} {channel : ChannelRecord} (payload : Payload)

theorem onChannelError_nothing (hr : d.record topic = some channel)
    (hn : d.NothingToLose topic channel "phx_error") :
    d.onChannelError env topic payload =
      d.emitChannel topic (.protocol (.channelError topic payload)) := by
  obtain ⟨hs, hd⟩ := hn.errored rfl
  have hset : d.setStatus topic .errored = d := by
    rw [setStatus_of_some hr, ← hs]
    exact setRecord_self hr
  have hrejoin : (!channel.desired || channel.rejoinScheduled) = true := by
    cases hdes : channel.desired with
    | false => rfl
    | true => rw [hd hdes]; rfl
  rw [onChannelError, forgetJoins_self hn.joins, hset, emitChannel_eq, scheduleRejoin,
    emitAll_record, hr]
  simp only [hrejoin, if_true]

theorem nothing_of_onChannelError (hr : d.record topic = some channel)
    (hs : (d.onChannelError env topic payload).state = d.state)
    (hc : (d.onChannelError env topic payload).connection = d.connection) :
    d.NothingToLose topic channel "phx_error" := by
  have hset : (d.forgetJoins topic).setStatus topic .errored =
      (d.forgetJoins topic).setRecord topic { channel with status := .errored } :=
    setStatus_of_some (d := d.forgetJoins topic) hr _
  rw [onChannelError, hset, emitChannel_eq, scheduleRejoin, emitAll_record, record_setRecord]
    at hs hc
  by_cases hrejoin : (!channel.desired || channel.rejoinScheduled) = true
  · simp only [hrejoin, if_true] at hs
    refine ⟨fun r => ?_, fun he => absurd he (by decide), fun _ => ⟨?_, fun hd => ?_⟩⟩
    · rw [← hs]
      exact forgetJoins_none d topic r
    · have hrec : some { channel with status := .errored } = d.record topic := by
        rw [record, ← hs]
        exact (record_setRecord (d.forgetJoins topic) topic _).symm
      rw [hr] at hrec
      exact (congrArg ChannelRecord.status (Option.some.inj hrec)).symm
    · simpa [hd] using hrejoin
  · -- the rejoin timer is new
    simp only [hrejoin] at hc
    have := congrArg (fun c : Connection => c.rejoins.length) hc
    simp [forgetJoins, setRecord] at this

/-- What a close does to a record, and to those who wait for it. -/
theorem onChannelClosed_of_some (hr : d.record topic = some channel) :
    d.onChannelClosed topic payload =
      ((d.forgetJoins topic).setRecord topic { channel.stopped with status := .closed }).emitAll
        (((d.forgetJoins topic).setRecord topic
            { channel with desired := false, status := .closed }).channelEffects topic
              (.protocol (.channelClosed topic payload)) ++
          stopEffects topic d.clock channel) := by
  have hrec : (d.forgetJoins topic).record topic = some channel := hr
  simp only [onChannelClosed, hrec]
  rw [emitChannel_eq, stopChannel_of_some (by rw [emitAll_record, record_setRecord])]
  show ((((d.forgetJoins topic).setRecord topic _).setRecord topic _).emitAll _).emitAll _ = _
  rw [setRecord_setRecord, emitAll_emitAll]
  rfl

theorem onChannelClosed_nothing (hr : d.record topic = some channel)
    (hn : d.NothingToLose topic channel "phx_close") :
    d.onChannelClosed topic payload =
      d.emitAll (d.channelEffects topic (.protocol (.channelClosed topic payload))) := by
  obtain ⟨hs, hi⟩ := hn.closed rfl
  have hsame : { channel with desired := false, status := .closed } = channel := by
    rw [← hs, ← hi]
    rfl
  rw [onChannelClosed_of_some payload hr, forgetJoins_self hn.joins, hi, hsame]
  have hc : { channel with status := .closed } = channel := by rw [← hs]
  rw [hc, setRecord_self hr, ← hi, stopEffects_stopped, List.append_nil]

theorem nothing_of_onChannelClosed (hr : d.record topic = some channel)
    (hs : (d.onChannelClosed topic payload).state = d.state) :
    d.NothingToLose topic channel "phx_close" := by
  rw [onChannelClosed_of_some payload hr] at hs
  have hrec : some { channel.stopped with status := .closed } = d.record topic := by
    rw [record, ← hs]
    exact (record_setRecord (d.forgetJoins topic) topic _).symm
  rw [hr] at hrec
  have hrec := Option.some.inj hrec
  refine ⟨fun r => ?_, fun _ => ⟨?_, ?_⟩, fun he => absurd he (by decide)⟩
  · rw [← hs]
    exact forgetJoins_none d topic r
  · rw [← hrec]
  · rw [← hrec]
    rfl

end

theorem untouched_report {d : Driver} {event : TelemetryEvent} {topic : Topic}
    {report : ChannelEvent} :
    d.Untouched ((d.emitAll [.telemetry event]).emitAll
      ((d.emitAll [.telemetry event]).channelEffects topic report)) where
  state := rfl
  connection := rfl
  reports effect he := by
    rw [emitAll_emitAll, done_of_append (emitAll_trace ..)] at he
    rcases List.mem_append.mp he with he | he
    · cases List.mem_singleton.mp he
      trivial
    · exact channelEffects_report _ topic report effect he

theorem NothingToLose.emitAll_iff {d : Driver} {topic : Topic} {channel : ChannelRecord}
    {event : String} {effects : List Effect} :
    (d.emitAll effects).NothingToLose topic channel event ↔ d.NothingToLose topic channel event :=
  ⟨fun h => ⟨h.joins, h.closed, h.errored⟩, fun h => ⟨h.joins, h.closed, h.errored⟩⟩

/-- **A close or an error of an ended generation touches nothing exactly when the protocol
still has a channel for the topic, or when there is nothing to lose.** -/
theorem ended_frame_harmless_iff (env : Env) (d : Driver) (message : WireMessage) (frame : Frame)
    (channel : ChannelRecord) (r : Reference) (hd : env.codec.decode message = .ok frame)
    (he : frame.event = "phx_close" ∨ frame.event = "phx_error")
    (hc : d.record frame.topic = some channel) (hr : frame.joinRef = some r)
    (hend : d.Ended frame.topic r) :
    d.Untouched (d.handleIncoming env message).1 ↔
      frame.topic ∈ d.state.protocol.channels ∨ d.NothingToLose frame.topic channel frame.event := by
  obtain ⟨event, hi⟩ := handleIncoming_of_decoded (d := d) hd
  rw [hi]
  by_cases hknown : frame.topic ∈ d.state.protocol.channels
  · obtain ⟨c, hlook⟩ := Table.lookup_of_mem hknown
    rw [handleFrame_of_stale (stale_of_ended (d := d.emitAll _) hr hend hlook), emitChannel_eq]
    exact ⟨fun _ => .inl hknown, fun _ => untouched_report⟩
  have hnone : d.state.protocol.channels[frame.topic]? = none := by simpa using hknown
  simp only [hknown, false_or]
  rcases he with he | he
  · have hf : (d.emitAll [.telemetry event]).handleFrame env frame =
        ((d.emitAll [.telemetry event]).onChannelClosed frame.topic frame.payload, none) := by
      simp only [handleFrame, emitAll_state, receive_closed_unknown hnone he, handleEvent]
      rfl
    rw [hf, he]
    constructor
    · intro h
      exact NothingToLose.emitAll_iff.mp (nothing_of_onChannelClosed frame.payload hc h.state)
    · intro h
      rw [onChannelClosed_nothing frame.payload (d := d.emitAll _) hc (NothingToLose.emitAll_iff.mpr h)]
      exact untouched_report
  · have hf : (d.emitAll [.telemetry event]).handleFrame env frame =
        ((d.emitAll [.telemetry event]).onChannelError env frame.topic frame.payload, none) := by
      simp only [handleFrame, emitAll_state, receive_errored_unknown hnone he, handleEvent]
      rfl
    rw [hf, he]
    constructor
    · intro h
      exact NothingToLose.emitAll_iff.mp
        (nothing_of_onChannelError frame.payload hc h.state h.connection)
    · intro h
      rw [onChannelError_nothing frame.payload (d := d.emitAll _) hc
        (NothingToLose.emitAll_iff.mpr h), emitChannel_eq]
      exact untouched_report

/-- A channel is joined and left, and a second join loads its payload. -/
def joinAfterLeave : List Input :=
  [.connectionMade [], .lifecycle (.register "room"), .command (.join 1 "room" 10),
    .payload "room" 1 (.ok (.object [])), .frame (replyFrame "ok" "room" "1" "1"),
    .command (.leave 2 "room" 10), .frame (replyFrame "ok" "room" "1" "2"),
    .command (.join 3 "room" 10)]

/-- The frames of that run, and a late close of the channel's first generation. -/
def joinAfterLeaveEnv : Env :=
  smallEnv [replyFrame "ok" "room" "1" "1", replyFrame "ok" "room" "1" "2",
    serverFrame "phx_close" "room" "1"]

/-- Once the second join is sent, the late close touches nothing. -/
theorem ended_frame_harmless_iff_sent :
    ∃ d : Driver, (driver joinAfterLeaveEnv).Reachable d ∧ d.Ended "room" "1" ∧
      d.Untouched (d.handleIncoming joinAfterLeaveEnv
        (.text (frameText (serverFrame "phx_close" "room" "1")))).1 := by
  obtain ⟨d, hr, hd⟩ := Machine.reachable_of_run (driver joinAfterLeaveEnv)
    (joinAfterLeave ++ [.payload "room" 2 (.ok (.object []))])
    (fun d => (d.record "room").isSome ∧
      d.state.protocol.channels["room"]?.map Channel.joinRef = some "3") (by decide +kernel)
  obtain ⟨hrecord, hchannel⟩ := of_decide_eq_true hd
  obtain ⟨channel, hchannel, href⟩ := Option.map_eq_some_iff.mp hchannel
  obtain ⟨record, hrecord⟩ := Option.isSome_iff_exists.mp hrecord
  have hend : d.Ended "room" "1" := by
    intro c hc
    cases hchannel.symm.trans hc
    rw [href]
    decide
  refine ⟨d, hr, hend, ?_⟩
  exact (ended_frame_harmless_iff joinAfterLeaveEnv d _ (serverFrame "phx_close" "room" "1") record
    "1" rfl (.inl rfl) hrecord rfl hend).mpr (.inl (Table.mem_of_lookup hchannel))

/-- Before it is sent, the late close drops the join. -/
theorem late_close_drops_join :
    ¬ ∀ (env : Env) (d : Driver) (message : WireMessage) (frame : Frame) (channel : ChannelRecord)
      (r : Reference), (driver env).Reachable d → d.phase = .connected →
      env.codec.decode message = .ok frame →
      (frame.event = "phx_close" ∨ frame.event = "phx_error") →
      d.record frame.topic = some channel → frame.joinRef = some r →
      d.trace.any (Effect.startsJoin frame.topic r) = true → d.Ended frame.topic r →
      d.Untouched (d.handleIncoming env message).1 := by
  intro hall
  let message : WireMessage := .text (frameText (serverFrame "phx_close" "room" "1"))
  obtain ⟨d, hr, hd⟩ := Machine.reachable_of_run (driver joinAfterLeaveEnv) joinAfterLeave
    (fun d => d.phase = .connected ∧ (d.record "room").map ChannelRecord.desired = some true ∧
      d.trace.any (Effect.startsJoin "room" "1") = true ∧
      (d.state.protocol.channels["room"]?).isNone ∧
      ((d.handleIncoming joinAfterLeaveEnv message).1.record "room").map ChannelRecord.desired =
        some false) (by decide +kernel)
  obtain ⟨hphase, hdesired, hsent, hchannel, hafter⟩ := of_decide_eq_true hd
  obtain ⟨record, hrecord, -⟩ := Option.map_eq_some_iff.mp hdesired
  have hend : d.Ended "room" "1" := by
    intro c hc
    rw [hc] at hchannel
    cases hchannel
  have h := hall joinAfterLeaveEnv d message (serverFrame "phx_close" "room" "1") record "1" hr hphase
    rfl (.inl rfl) hrecord rfl hsent hend
  rw [Driver.record, h.state, ← Driver.record, hdesired] at hafter
  cases hafter

end Driver
end PhoenixChannel.Client
