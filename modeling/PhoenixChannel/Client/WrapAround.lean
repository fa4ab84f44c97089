import PhoenixChannel.Client.ProtocolMoves
import PhoenixChannel.Client.Steps

/-! Runs long enough for the reference counter to wrap around.

Every heartbeat takes a reference. Enough of them, each acknowledged, bring the counter wherever one likes,
and leave the channels and the calls in flight alone. -/
namespace PhoenixChannel.Client
open PhoenixChannel.Runtime Library

/-- The effect answers nobody. -/
def Effect.Unanswering : Effect → Prop
  | .answered _ _ _ | .cancelled _ _ => False
  | _ => True

/-- The reply to the heartbeat with the reference. -/
def ackFrame (reference : Reference) : Frame :=
  ⟨none, some reference, "phoenix", "phx_reply", .json (.object [("response", .object []), ("status", .string "ok")])⟩

/-- The environment for the given frames, where every other text is a reference and acknowledges its
heartbeat. -/
def ackEnv (frames : List Frame) : Env :=
  let small := smallEnv frames
  { small with
    codec := { small.codec with
      decode := fun message =>
        match small.codec.decode message, message with
        | .ok frame, _ => .ok frame
        | .error _, .text reference => .ok (ackFrame reference)
        | .error e, .binary _ => .error e } }

/-- So many heartbeats, from where the counter is, in time and acknowledged. -/
def beats : UInt64 → Nat → List Input
  | _, 0 => []
  | last, n + 1 =>
    let next := Protocol.advance last
    .tick 30 :: .heartbeat :: .message (.text next.toNat.repr) :: beats next n

namespace Driver

/-- What heartbeats leave of a connected driver whose transport carries everything. -/
structure Beaten (d d' : Driver) : Prop where
  phase : d'.phase = .connected
  sends : d'.transport.sends = []
  reference : d'.connection.heartbeatReference = none
  due : d'.connection.heartbeatDue ≤ d'.clock + 30
  channels : d'.state.protocol.channels = d.state.protocol.channels
  records : d'.state.channels = d.state.channels
  calls : d'.state.pendingCalls = d.state.pendingCalls
  leaves : d'.state.pendingLeaves = d.state.pendingLeaves
  unanswered : ∃ effects, d'.trace = d.trace ++ effects ∧ ∀ effect ∈ effects, effect.Unanswering

section
variable {d d' d'' : Driver}

theorem Beaten.trans (h : d.Beaten d') (h' : d'.Beaten d'') : d.Beaten d'' where
  phase := h'.phase
  sends := h'.sends
  reference := h'.reference
  due := h'.due
  channels := h'.channels.trans h.channels
  records := h'.records.trans h.records
  calls := h'.calls.trans h.calls
  leaves := h'.leaves.trans h.leaves
  unanswered := by
    obtain ⟨effects, ht, he⟩ := h.unanswered
    obtain ⟨effects', ht', he'⟩ := h'.unanswered
    refine ⟨effects ++ effects', by rw [ht', ht, List.append_assoc], fun effect hm => ?_⟩
    rcases List.mem_append.mp hm with hm | hm
    · exact he effect hm
    · exact he' effect hm

variable (frames : List Frame)

theorem sendFrame_acks (h : d.transport.sends = []) (served : List RequestId) (frame : Frame) :
    d.sendFrame (ackEnv frames) served frame = (d.emitAll [.outgoing served frame,
      .telemetry (.frameSent frame.topic frame.event false (frameText frame).utf8ByteSize)], none) := by
  have hsend : d.transport.send = (.ok (), d.transport) := by
    rw [Transport.send, h]
  simp [sendFrame, ackEnv, smallEnv, WireMessage.metadata, telemetry, emit, emitAll, hsend]

/-- The text of a reference is none of a frame. -/
theorem decode_reference (n : Nat) : (ackEnv frames).codec.decode (.text n.repr) = .ok (ackFrame n.repr) := by
  have hnone : (frames.find? fun frame => WireMessage.text n.repr = .text (frameText frame)) = none := by
    refine List.find?_eq_none.mpr fun frame _ he => ?_
    have htext : n.repr = frameText frame := WireMessage.text.inj (of_decide_eq_true he)
    have hm : '[' ∈ n.repr.toList := by
      rw [htext]
      simp [frameText]
    rw [Nat.toList_repr] at hm
    cases Nat.isDigit_of_mem_toDigits (by decide) (by decide) hm
  simp only [ackEnv, smallEnv, hnone]

/-- The driver once it has sent a heartbeat. -/
def beating (d : Driver) : Driver :=
  let reference := d.state.protocol.nextText
  let frame : Frame := ⟨none, some reference, "phoenix", "heartbeat", .emptyObject⟩
  { (d.setProtocol d.state.protocol.heartbeat.2).emitAll [.outgoing [] frame,
      .telemetry (.frameSent "phoenix" "heartbeat" false (frameText frame).utf8ByteSize)] with
    connection := { d.connection with heartbeatReference := some reference, heartbeatDue := d.clock + 30 } }

/-- The driver once its heartbeat is acknowledged. -/
def acknowledged (d : Driver) (reference : Reference) : Driver :=
  { (d.setProtocol { d.state.protocol with pending := d.state.protocol.pending.erase reference }).emitAll
      [.telemetry (.frameReceived "phoenix" "phx_reply" false reference.utf8ByteSize)] with
    connection := { d.connection with heartbeatReference := none, heartbeatDue := d.clock + 30 } }

theorem heartbeat_step (hp : d.phase = .connected) (ht : d.transport.sends = [])
    (hr : d.connection.heartbeatReference = none) (hd : d.connection.heartbeatDue ≤ d.clock) :
    (driver (ackEnv frames)).step d .heartbeat = some d.beating := by
  have hhandle : d.handleHeartbeat (ackEnv frames) = (d.beating, none) := by
    simp only [handleHeartbeat, hr, Option.isSome_none]
    rw [if_neg Bool.false_ne_true, sendFrame_acks]
    · rfl
    · exact ht
  simp only [driver, step, hp, stepConnected, if_pos hd, hhandle]
  rfl

theorem receive_ack {p : Protocol} {reference : Reference} (h : p.pending[reference]? = some .heartbeat) :
    p.receive (ackFrame reference) =
      (.ok (.heartbeatAck reference .ok), { p with pending := p.pending.erase reference }) := by
  have hstale : p.stale (ackFrame reference) = false := by
    simp [Protocol.stale, ackFrame]
  have hreply : (ackFrame reference).event = "phx_reply" := rfl
  rw [Protocol.receive, hstale, if_neg Bool.false_ne_true, if_pos hreply, Protocol.receiveReply]
  simp only [ackFrame, h]
  rfl

/-- The acknowledgement takes the heartbeat out and sets the next one. -/
theorem ack_step (hp : d.phase = .connected) {n : Nat} (hr : d.connection.heartbeatReference = some n.repr)
    (h : d.state.protocol.pending[n.repr]? = some .heartbeat) :
    (driver (ackEnv frames)).step d (.message (.text n.repr)) = some (d.acknowledged n.repr) := by
  let d₁ := (d.telemetry (.frameReceived "phoenix" "phx_reply" false n.repr.utf8ByteSize)).setProtocol
    { d.state.protocol with pending := d.state.protocol.pending.erase n.repr }
  have hincoming : d.handleIncoming (ackEnv frames) (.text n.repr) = (d₁.onHeartbeatAck n.repr, none) := by
    have hreceive : (d.telemetry
        (.frameReceived "phoenix" "phx_reply" false n.repr.utf8ByteSize)).state.protocol.receive
          (ackFrame n.repr) = _ := receive_ack h
    simp only [handleIncoming, decode_reference]
    show (d.telemetry (.frameReceived "phoenix" "phx_reply" false n.repr.utf8ByteSize)).handleFrame _ _ = _
    rw [handleFrame, hreceive]
    rfl
  have hack : d₁.onHeartbeatAck n.repr = { d₁ with connection := { d₁.connection with heartbeatReference := none } } :=
    if_pos hr
  have hmessage : d.onMessage (ackEnv frames) (.text n.repr) = (d.acknowledged n.repr, none) := by
    simp only [onMessage, hincoming, hack, hr]
    rfl
  simp only [driver, step, hp, stepConnected, hmessage]
  rfl

/-- One heartbeat, in time. -/
theorem beat_step (hp : d.phase = .connected) (ht : d.transport.sends = [])
    (hr : d.connection.heartbeatReference = none) (hd : d.connection.heartbeatDue ≤ d.clock + 30) :
    ∃ d', (driver (ackEnv frames)).run d [.tick 30, .heartbeat, .message (.text d.state.protocol.nextText)] =
        some d' ∧ d.Beaten d' ∧
      d'.state.protocol.nextReference = Protocol.advance d.state.protocol.nextReference := by
  let d₁ : Driver := { d with clock := d.clock + 30 }
  have hbeat : (driver (ackEnv frames)).step d₁ .heartbeat = some d₁.beating := heartbeat_step frames hp ht hr hd
  have hpending : d₁.beating.state.protocol.pending[d.state.protocol.nextText]? = some .heartbeat :=
    (Table.lookup_insert ..).trans (if_pos rfl)
  have hack := ack_step frames (d := d₁.beating) hp (n := (Protocol.advance d.state.protocol.nextReference).toNat)
    rfl hpending
  refine ⟨_, Machine.run_cons.mpr ⟨d₁, rfl, Machine.run_cons.mpr ⟨_, hbeat, Machine.run_cons.mpr ⟨_, hack, rfl⟩⟩⟩,
    ⟨hp, ht, rfl, Nat.le_refl _, rfl, rfl, rfl, rfl, _, List.append_assoc .., fun effect hm => ?_⟩, rfl⟩
  rcases List.mem_append.mp hm with hm | hm
  · rcases List.mem_pair.mp hm with rfl | rfl <;> trivial
  · cases List.mem_singleton.mp hm
    trivial

/-- One call of a joined channel: it takes the place of whatever call had its reference. -/
theorem call_step (hp : d.phase = .connected) (ht : d.transport.sends = []) {topic : Topic}
    (hj : d.state.protocol.channelState topic = some .joined) (id : RequestId) (event : String) :
    ∃ d', (driver (ackEnv frames)).step d (.command (.call id topic event .emptyObject 0)) = some d' ∧
      d'.phase = .connected ∧ d'.state.channels = d.state.channels ∧
      d'.state.pendingCalls =
        d.state.pendingCalls.insert d.state.protocol.nextText ⟨id, topic, event, 0⟩ ∧
      ∃ effects, d'.trace = d.trace ++ effects ∧ ∀ effect ∈ effects, effect.Unanswering := by
  obtain ⟨channel, hc, hs⟩ := Option.map_eq_some_iff.mp hj
  have hjoined : d.state.protocol.joinedRef topic = some channel.joinRef :=
    Protocol.joinedRef_eq_some.mpr ⟨channel, hc, hs, rfl⟩
  let frame : Frame :=
    ⟨some channel.joinRef, some d.state.protocol.nextText, topic, event, .emptyObject⟩
  let d₁ := (d.emitAll [.accepted .call id]).trackCall topic id event .emptyObject 0
  have hsends : d₁.transport.sends = [] := ht
  have hpush : (d.emitAll [.accepted .call id]).handlePush (ackEnv frames) topic
      (.call id event .emptyObject 0) = d₁.sendFrame (ackEnv frames) [id] frame := by
    rw [handlePush, emitAll_state, if_pos hj]
    exact sendCall_of_joined (by simp [Payload.isBinary, Payload.emptyObject]) hjoined
  have hstep : (driver (ackEnv frames)).step d (.command (.call id topic event .emptyObject 0)) =
      some (settle (ackEnv frames) (d₁.sendFrame (ackEnv frames) [id] frame)) := by
    rw [← hpush]
    simp only [driver, step, hp]
    rfl
  rw [sendFrame_acks frames hsends] at hstep
  refine ⟨_, hstep, hp, rfl, rfl, _, List.append_assoc .., fun effect hm => ?_⟩
  rcases List.mem_append.mp hm with hm | hm
  · cases List.mem_singleton.mp hm
    trivial
  · rcases List.mem_pair.mp hm with rfl | rfl <;> trivial

/-- One heartbeat after the other, as many as wanted, each acknowledged in time. -/
theorem run_beats (n : Nat) (hp : d.phase = .connected) (ht : d.transport.sends = [])
    (hr : d.connection.heartbeatReference = none) (hd : d.connection.heartbeatDue ≤ d.clock + 30) :
    ∃ d', (driver (ackEnv frames)).run d (beats d.state.protocol.nextReference n) = some d' ∧ d.Beaten d' ∧
      d'.state.protocol.nextReference = Protocol.advance^[n] d.state.protocol.nextReference := by
  induction n generalizing d with
  | zero =>
    exact ⟨d, rfl, ⟨hp, ht, hr, hd, rfl, rfl, rfl, rfl, [], (List.append_nil _).symm, List.forall_mem_nil _⟩, rfl⟩
  | succ n ih =>
    obtain ⟨d₁, hrun₁, hbeaten, hnext⟩ := beat_step frames hp ht hr hd
    obtain ⟨d', hrun, hbeaten', hnext'⟩ := ih hbeaten.phase hbeaten.sends hbeaten.reference hbeaten.due
    rw [hnext] at hrun
    refine ⟨d', ?_, hbeaten.trans hbeaten', ?_⟩
    · exact Machine.run_append.mpr ⟨d₁, hrun₁, hrun⟩
    · rw [hnext', hnext, Function.iterate_succ_apply]

theorem advance_iterate {x : UInt64} {n : Nat} (h : x.toNat + n < 2 ^ 64) :
    (Protocol.advance^[n] x).toNat = x.toNat + n := by
  induction n with
  | zero => rfl
  | succ n ih =>
    have hn := ih (by omega)
    rw [Function.iterate_succ_apply', Protocol.advance_toNat (by omega), hn]
    omega

/-- **The counter comes around**: once it is at three, it is at two after 2^64 - 2 references. -/
theorem advance_around : Protocol.advance^[2 ^ 64 - 2] 3 = 2 := by
  have hsplit : 2 ^ 64 - 2 = 2 + (2 ^ 64 - 4) := rfl
  have hlast : Protocol.advance^[2 ^ 64 - 4] 3 = UInt64.ofNat (2 ^ 64 - 1) := by
    apply UInt64.toNat_inj.mp
    rw [advance_iterate (by decide)]
    decide
  rw [hsplit, Function.iterate_add_apply, hlast]
  decide

end

/-- Two channels are joined, and one of them calls. -/
def twoChannels : List Input :=
  [.connectionMade [], .lifecycle (.register "room"), .command (.join 1 "room" 10),
    .payload "room" 1 (.ok (.object [])), .frame (replyFrame "ok" "room" "1" "1"),
    .lifecycle (.register "hall"), .command (.join 2 "hall" 10),
    .payload "hall" 2 (.ok (.object [])), .frame (replyFrame "ok" "hall" "2" "2"),
    .command (.call 3 "hall" "shout" .emptyObject 0)]

/-- The environment of the two channels. -/
def twoEnv : Env := ackEnv [replyFrame "ok" "room" "1" "1", replyFrame "ok" "hall" "2" "2"]

end Driver
end PhoenixChannel.Client
