import PhoenixChannel.Client.Flushes
import PhoenixChannel.Client.Invariant
import PhoenixChannel.Client.Requests
import PhoenixChannel.Runtime.Unsent

/-! Pushes that the codec refuses.

A binary push that the transport cannot carry is answered with an error, and nothing else happens.
A push that the codec refuses ends the connection, and with it every other request: `sendFrame`
makes no difference between the codec's error and the transport's. -/
namespace PhoenixChannel.Client
open PhoenixChannel.Runtime Library

namespace QueuedPush

def payload : QueuedPush → Payload
  | .call _ _ payload _ | .cast _ _ payload => payload

/-- The command that asks for a push. -/
def command (topic : Topic) : QueuedPush → Command
  | .call id event payload started => .call id topic event payload started
  | .cast id event payload => .cast id topic event payload

/-- The frame that the protocol builds for a push, if it builds one. -/
def frame (p : Protocol) (topic : Topic) : QueuedPush → Option Frame
  | .call _ event payload _ => (p.push topic event payload).1.toOption.map Outbound.frame
  | .cast _ event payload => (p.cast topic event payload).toOption

end QueuedPush

namespace Driver

/-- The driver once it has taken a frame in and the protocol has received it. -/
def received (d : Driver) (message : WireMessage) (frame : Frame) (protocol : Protocol) : Driver :=
  (d.telemetry (.frameReceived frame.topic frame.event message.metadata.1 message.metadata.2)).setProtocol
    protocol

/-- A flush that has come from the first driver to the second without a failure. -/
inductive Flushing (env : Env) (topic : Topic) : Driver → Driver → Prop where
  | start (d : Driver) : Flushing env topic d d
  | sent {d d₁ d₂ d' : Driver} {push : QueuedPush} (hpop : d.popQueued topic = some (push, d₁))
      (hsend : d₁.sendPush env topic push = (d₂, none)) (hrest : Flushing env topic d₂ d') :
    Flushing env topic d d'

/-- What makes the driver send a push, and the driver that is about to: the command that asks for it,
or the reply that ends the channel's join. -/
inductive Sending (env : Env) (d : Driver) (topic : Topic) (push : QueuedPush) : Input → Driver → Prop where
  | direct (hj : d.state.protocol.channelState topic = some .joined) :
    Sending env d topic push (.command (push.command topic)) (d.accept (push.command topic))
  | flushing {message : WireMessage} {frame : Frame} {p : Protocol} {reference : Reference}
      {response : Payload} {channel : ChannelRecord} {d₁ d₂ : Driver}
      (hd : env.codec.decode message = .ok frame)
      (hr : d.state.protocol.receive frame = (.ok (.joined topic reference response), p))
      (hc : d.record topic = some channel) (hl : channel.deferredLeave = none)
      (hf : Flushing env topic ((d.received message frame p).welcome topic reference response channel) d₁)
      (hp : d₁.popQueued topic = some (push, d₂)) :
    Sending env d topic push (.message message) d₂

/-- The push alone was answered, with an error; every other request and every channel is as before. -/
structure Spares (push : QueuedPush) (d d' : Driver) : Prop where
  phase : d'.phase = d.phase
  refused : ∃ error, .answered push.operation push.id (.error error) ∈ d.done d'
  settled : settled (d.done d') = [push.request]
  channels : d'.state.channels = d.state.channels
  states : ∀ t, d'.state.protocol.channelState t = d.state.protocol.channelState t
  joins : d'.state.pendingJoins = d.state.pendingJoins
  calls : ∀ (r : Reference) (call : PendingCall), call.id ≠ push.id →
    (d'.state.pendingCalls[r]? = some call ↔ d.state.pendingCalls[r]? = some call)
  pings : d'.state.pendingPings = d.state.pendingPings
  leaves : d'.state.pendingLeaves = d.state.pendingLeaves

/-- The driver stays connected over a push and spares everything else. -/
def Isolated (env : Env) (topic : Topic) (push : QueuedPush) (d : Driver) : Prop :=
  ∃ d', d.sendPush env topic push = (d', none) ∧ Spares push d d'

section
variable {env : Env} {d d' d₁ d₂ : Driver} {topic : Topic} {push : QueuedPush}

/-! ### A refusal ends the connection

The codec's error is handed up as the reason to disconnect. -/

theorem sendFrame_of_refused {served : List RequestId} {frame : Frame} {e : String}
    (he : env.codec.encode frame = .error e) :
    d.sendFrame env served frame = (d.emitAll [.outgoing served frame], some (.protocol e)) := by
  simp only [sendFrame, he, emit_eq]

variable (env topic) in
/-- A push that the transport cannot carry never gets to the codec. -/
theorem sendPush_of_binary (hb : (push.payload.isBinary && !d.transport.supportsBinary) = true) :
    ∃ reports, (∀ effect ∈ reports, effect.Quiet) ∧ d.sendPush env topic push =
      (d.emitAll (reports ++ [.answered push.operation push.id (.error .binaryNotSupported)]), none) := by
  cases push with
  | call id event payload started =>
    refine ⟨[.telemetry (.callCompleted topic event .rejected (d.clock - started))], ?_, sendCall_of_binary hb⟩
    simp [Effect.Quiet]
  | cast id event payload => exact ⟨[], List.forall_mem_nil _, sendCast_of_binary hb⟩

/-- Any other push that the codec refuses is an error of the protocol. -/
theorem sendPush_of_refused {frame : Frame} {e : String}
    (hb : ¬ (push.payload.isBinary && !d.transport.supportsBinary) = true)
    (hf : push.frame d.state.protocol topic = some frame) (he : env.codec.encode frame = .error e) :
    (d.sendPush env topic push).2 = some (.protocol e) := by
  cases push_handled env d topic push with
  | refusedCall id event payload started hb' hs => exact absurd hb' hb
  | refusedCast id event payload hb' hs => exact absurd hb' hb
  | notJoined push hj hs =>
    cases push with
    | call id event payload started =>
      rw [QueuedPush.frame, Protocol.push_of_not_joined hj] at hf
      cases hf
    | cast id event payload =>
      rw [QueuedPush.frame, Protocol.cast_of_not_joined hj] at hf
      cases hf
  | call id event payload started joinRef hb' hj hs =>
    rw [QueuedPush.frame, Protocol.push_of_joined hj] at hf
    cases hf
    rw [hs, sendFrame_of_refused he]
  | cast id event payload joinRef sent hb' hj hsent hs =>
    rw [QueuedPush.frame, Protocol.cast_of_joined hj] at hf
    cases hf
    rw [hs, hsent, sendFrame_of_refused he]

/-- A refused push spares the rest just when the transport could not have carried it. -/
theorem isolated_iff {frame : Frame} {e : String} (hf : push.frame d.state.protocol topic = some frame)
    (he : env.codec.encode frame = .error e) :
    Isolated env topic push d ↔ push.payload.isBinary = true ∧ d.transport.supportsBinary = false := by
  constructor
  · rintro ⟨d', hs, -⟩
    by_contra hb
    have hcarried : ¬ (push.payload.isBinary && !d.transport.supportsBinary) = true := by simpa using hb
    have hrefused := sendPush_of_refused hcarried hf he
    rw [hs] at hrefused
    cases hrefused
  · rintro ⟨hb, ht⟩
    have hcarried : (push.payload.isBinary && !d.transport.supportsBinary) = true := by
      rw [hb, ht]
      rfl
    obtain ⟨reports, hq, hs⟩ := sendPush_of_binary env topic hcarried
    refine ⟨_, hs, rfl, ⟨.binaryNotSupported, ?_⟩, ?_, rfl, fun _ => rfl, rfl, fun _ _ _ => Iff.rfl, rfl, rfl⟩
    · rw [done_of_append rfl]
      simp
    · rw [done_of_append rfl, settled_append, settled_of_quiet hq]
      rfl

/-! ### What the driver was doing

A push is refused while its own command is handled, or while the queue is flushed after a join.
Either way the step ends the connection. -/

theorem sendFrame_supportsBinary (env : Env) (d : Driver) (served : List RequestId) (frame : Frame) :
    (d.sendFrame env served frame).1.transport.supportsBinary = d.transport.supportsBinary := by
  unfold sendFrame
  cases env.codec.encode frame with
  | error message => rfl
  | ok message =>
    simp only [telemetry_eq, emit_eq, emitAll_transport, Transport.send]
    cases d.transport.sends with
    | nil => rfl
    | cons result rest => cases result <;> rfl

theorem sendPush_supportsBinary (env : Env) (d : Driver) (topic : Topic) (push : QueuedPush) :
    (d.sendPush env topic push).1.transport.supportsBinary = d.transport.supportsBinary := by
  cases push_handled env d topic push with
  | refusedCall id event payload started hb he =>
    rw [he]
    rfl
  | refusedCast id event payload hb he =>
    rw [he]
    rfl
  | notJoined push hj he => rw [he]
  | call id event payload started joinRef hb hj he =>
    rw [he, sendFrame_supportsBinary]
    rfl
  | cast id event payload joinRef sent hb hj hs he => rw [he, emitAll_transport, hs, sendFrame_supportsBinary]

theorem popQueued_transport (h : d.popQueued topic = some (push, d')) : d'.transport = d.transport := by
  obtain ⟨channel, queued, -, -, rfl⟩ := popQueued_eq_some h
  rfl

theorem Flushing.supportsBinary (h : Flushing env topic d d') :
    d'.transport.supportsBinary = d.transport.supportsBinary := by
  induction h with
  | start d => rfl
  | @sent d d₁ d₂ d' push hpop hsend _ ih =>
    have hsame := sendPush_supportsBinary env d₁ topic push
    rw [hsend, popQueued_transport hpop] at hsame
    exact ih.trans hsame

theorem Sending.supportsBinary {input : Input} (h : Sending env d topic push input d₁) :
    d₁.transport.supportsBinary = d.transport.supportsBinary := by
  cases h with
  | direct hj => unfold accept; cases push <;> rfl
  | flushing hd hr hc hl hf hp =>
    rw [popQueued_transport hp, hf.supportsBinary, welcome, emitChannel_eq]
    rfl

/-- A flush ends with the failure of the push it has come to. -/
theorem Flushing.fails {reason : DisconnectReason} (h : Flushing env topic d d₁)
    (hpop : d₁.popQueued topic = some (push, d₂)) (hsend : (d₂.sendPush env topic push).2 = some reason)
    {channel : ChannelRecord} (hr : d.record topic = some channel) {fuel : Nat}
    (hfuel : channel.queued.length ≤ fuel) : (flushLoop env topic fuel d).2 = some reason := by
  induction h generalizing channel fuel with
  | start d =>
    obtain ⟨channel', queued, hr', hq, -⟩ := popQueued_eq_some hpop
    cases hr.symm.trans hr'
    cases fuel with
    | zero =>
      rw [hq] at hfuel
      cases hfuel
    | succ fuel =>
      rw [flushLoop, hpop]
      dsimp only
      rcases hs : d₂.sendPush env topic push with ⟨d', r⟩
      rw [hs] at hsend
      cases hsend
      rfl
  | @sent d d₃ d₄ d₁ push' hpop' hsend' _ ih =>
    obtain ⟨channel', queued, hr', hq, hd₃⟩ := popQueued_eq_some hpop'
    cases hr.symm.trans hr'
    cases fuel with
    | zero =>
      rw [hq] at hfuel
      cases hfuel
    | succ fuel =>
      have hrecord : d₄.record topic = some { channel with queued } := by
        have hch := (sendPush_sends env d₃ topic push').1
        rw [hsend'] at hch
        rw [record, hch, hd₃]
        exact record_setRecord ..
      rw [hq] at hfuel
      rw [flushLoop, hpop']
      dsimp only
      rw [hsend']
      exact ih hpop hrecord (Nat.le_of_succ_le_succ hfuel)

/-- A handler that fails ends the connection. -/
theorem settle_phase {r : Result} {reason : DisconnectReason} (h : r.2 = some reason) :
    (settle env r).phase ≠ .connected := by
  rcases r with ⟨d, _ | reason'⟩
  · cases h
  · rcases afterFailure_phase env (d.onDisconnect reason') reason' with hidle | ⟨due, hwaiting⟩
    · rw [settle, hidle]
      simp
    · rw [settle, hwaiting]
      simp

variable (env topic push) in
/-- The step that takes the command for a push. -/
theorem command_step (hp : d.phase = .connected) : d.step env (.command (push.command topic)) =
    some (settle env ((d.accept (push.command topic)).handlePush env topic push)) := by
  cases push with
  | call id event payload started => simp only [step, hp, stepConnected, QueuedPush.command, handleConnectedCommand]
  | cast id event payload => simp only [step, hp, stepConnected, QueuedPush.command, handleConnectedCommand]

/-- A push that fails ends the connection, whatever made the driver send it. -/
theorem Sending.disconnects {input : Input} {reason : DisconnectReason} (hp : d.phase = .connected)
    (hs : d.step env input = some d') (h : Sending env d topic push input d₁)
    (hr : (d₁.sendPush env topic push).2 = some reason) : d'.phase ≠ .connected := by
  cases h with
  | direct hj =>
    have hjoined : (d.accept (push.command topic)).state.protocol.channelState topic = some .joined := by
      cases push <;> exact hj
    have hstep := command_step env topic push hp
    rw [handlePush, if_pos hjoined] at hstep
    cases hstep.symm.trans hs
    exact settle_phase hr
  | @flushing message frame p reference response channel d₂ _ hd hrec hc hl hf hpop =>
    have hincoming : (d.handleIncoming env message).2 = some reason := by
      have hreceive : (d.telemetry (.frameReceived frame.topic frame.event message.metadata.1
          message.metadata.2)).state.protocol.receive frame = (.ok (.joined topic reference response), p) := hrec
      have hrecord : (d.received message frame p).record topic = some channel := hc
      have hwelcomed : ((d.received message frame p).welcome topic reference response channel).record topic =
          some channel.joined := by
        rw [welcome, emitChannel_eq, emitAll_record, emitAll_record, record_setRecord]
      simp only [handleIncoming, hd, handleFrame, hreceive, handleEvent]
      show ((d.received message frame p).onJoined env topic reference response).2 = _
      rw [onJoined_of_not_deferred hrecord hl, flush, hwelcomed, Option.elim_some]
      exact hf.fails hpop hr hwelcomed (Nat.le_refl _)
    have hstep : d.step env (.message message) = some (settle env (d.onMessage env message)) := by
      simp only [step, hp, stepConnected]
    cases hstep.symm.trans hs
    apply settle_phase
    show (d.onMessage env message).2 = some reason
    rcases hi : d.handleIncoming env message with ⟨d₃, r⟩
    rw [hi] at hincoming
    cases hincoming
    simp only [onMessage, hi, Result.andThen]

/-! ### Which refused pushes spare the others

Only those that the transport could not have carried: they are answered before the codec is asked. -/

/-- **A push that the codec refuses hurts nobody else just when the transport could not have carried
it**: otherwise the connection ends. -/
theorem refused_push_isolated_iff {input : Input} {frame : Frame} {e : String} (hp : d.phase = .connected)
    (hs : d.step env input = some d') (ha : Sending env d topic push input d₁)
    (hf : push.frame d₁.state.protocol topic = some frame) (he : env.codec.encode frame = .error e) :
    (Isolated env topic push d₁ ↔ push.payload.isBinary = true ∧ d.transport.supportsBinary = false) ∧
      (Isolated env topic push d₁ ∨ d'.phase ≠ .connected) := by
  have hiff := isolated_iff (d := d₁) hf he
  rw [ha.supportsBinary] at hiff
  refine ⟨hiff, ?_⟩
  by_cases hb : (push.payload.isBinary && !d₁.transport.supportsBinary) = true
  · rw [ha.supportsBinary] at hb
    exact .inl (hiff.mpr (by simpa using hb))
  · exact .inr (ha.disconnects hp hs (sendPush_of_refused hb hf he))

end

/-! ### A call that ends another

One call waits for its reply; an oversized one on the same channel interrupts it. -/

/-- The environment of one joined channel, with the default codec. -/
def encodingEnv : Env :=
  let small := smallEnv [replyFrame "ok" "room" "1" "1"]
  { small with
    codec := { small.codec with
      encode := fun frame => (PhoenixV2Codec.encode plainJson frame).mapError MessageError.toString } }

/-- A channel is joined over the transport, and a call waits for its reply. -/
def oneCall (transport : Transport) : List Input :=
  [.connection (.ok transport) [], .lifecycle (.register "room"), .command (.join 1 "room" 10),
    .payload "room" 1 (.ok (.string "token")), .frame (replyFrame "ok" "room" "1" "1"),
    .command (.call 2 "room" "shout" (.json (.string "hello")) 0)]

/-- A call with a reply for a payload, which no codec sends. -/
def envelope : QueuedPush := .call 3 "shout" (.reply "ok" .emptyObject) 0

/-- A binary call with an event that is longer than a field of its frame may be. -/
def oversized : QueuedPush := .call 3 (String.ofList (List.replicate 256 'a')) (.binary [1]) 0

/-- The push is about to be sent while the call waits. It is refused, and its step meets the check. -/
def refuses (push : QueuedPush) (check : Driver → Driver → Bool) (d : Driver) : Bool :=
  d.phase = .connected && d.state.protocol.channelState "room" = some .joined &&
    d.state.pendingCalls["2"]?.isSome &&
    (push.frame (d.accept (push.command "room")).state.protocol "room").any (fun frame =>
      (encodingEnv.codec.encode frame).toOption.isNone) &&
    (d.step encodingEnv (.command (push.command "room"))).any (check d)

theorem oneCall_refuses {transport : Transport} {push : QueuedPush} {check : Driver → Driver → Bool}
    (h : ((driver encodingEnv).run (driver encodingEnv).start (oneCall transport)).any (refuses push check) = true) :
    ∃ d d' : Driver, (driver encodingEnv).Reachable d ∧ d.phase = .connected ∧
      d.step encodingEnv (.command (push.command "room")) = some d' ∧
      Sending encodingEnv d "room" push (.command (push.command "room")) (d.accept (push.command "room")) ∧
      (∃ frame e, push.frame (d.accept (push.command "room")).state.protocol "room" = some frame ∧
        encodingEnv.codec.encode frame = .error e) ∧
      d.state.pendingCalls["2"]?.isSome ∧ check d d' = true := by
  obtain ⟨d, hr, hd⟩ := Machine.reachable_of_run (driver encodingEnv) (oneCall transport) (refuses push check) h
  simp only [refuses, Bool.and_eq_true, decide_eq_true_eq, Option.any_eq_true] at hd
  obtain ⟨⟨⟨⟨hp, hj⟩, hcall⟩, frame, hf, he⟩, d', hs, hcheck⟩ := hd
  refine ⟨d, d', hr, hp, hs, .direct hj, ⟨frame, ?_⟩, hcall, hcheck⟩
  cases henc : encodingEnv.codec.encode frame with
  | error e => exact ⟨e, hf, rfl⟩
  | ok message =>
    rw [henc] at he
    cases he

/-- The envelope's step ends the connection, and with it the call. -/
theorem envelope_endsOther :
    ∃ d d' : Driver, (driver encodingEnv).Reachable d ∧ d.phase = .connected ∧
      d.step encodingEnv (.command (envelope.command "room")) = some d' ∧
      Sending encodingEnv d "room" envelope (.command (envelope.command "room"))
        (d.accept (envelope.command "room")) ∧
      (∃ frame e, envelope.frame (d.accept (envelope.command "room")).state.protocol "room" = some frame ∧
        encodingEnv.codec.encode frame = .error e) ∧
      d.state.pendingCalls["2"]?.isSome ∧ d'.phase ≠ .connected ∧ d'.state.pendingCalls["2"]? = none := by
  obtain ⟨d, d', hr, hp, hs, ha, hf, hcall, hcheck⟩ := @oneCall_refuses ⟨true, []⟩ envelope
    (fun _ d' => d'.phase ≠ .connected ∧ d'.state.pendingCalls["2"]?.isNone) (by decide +kernel)
  obtain ⟨hp', hnone⟩ := of_decide_eq_true hcheck
  exact ⟨d, d', hr, hp, hs, ha, hf, hcall, hp', Option.isNone_iff_eq_none.mp hnone⟩

/-- A call whose payload is the envelope of a reply takes the other call with it. A binary call that is too
long spares it over a transport for texts alone, which could not have carried the call. -/
theorem refused_push_isolated_iff_envelope :
    (∃ d d' : Driver, (driver encodingEnv).Reachable d ∧ d.phase = .connected ∧
      d.step encodingEnv (.command (envelope.command "room")) = some d' ∧
      ¬ Isolated encodingEnv "room" envelope (d.accept (envelope.command "room")) ∧ d'.phase ≠ .connected) ∧
    ∃ d d' : Driver, (driver encodingEnv).Reachable d ∧ d.phase = .connected ∧
      d.step encodingEnv (.command (oversized.command "room")) = some d' ∧
      Isolated encodingEnv "room" oversized (d.accept (oversized.command "room")) ∧
        d'.state.pendingCalls["2"]?.isSome := by
  constructor
  · obtain ⟨d, d', hr, hp, hs, ha, ⟨frame, e, hf, he⟩, -, hp', -⟩ := envelope_endsOther
    obtain ⟨hiff, -⟩ := refused_push_isolated_iff hp hs ha hf he
    refine ⟨d, d', hr, hp, hs, fun hisolated => ?_, hp'⟩
    have hbinary := (hiff.mp hisolated).1
    cases hbinary
  · obtain ⟨d, d', hr, hp, hs, ha, ⟨frame, e, hf, he⟩, -, hcheck⟩ := @oneCall_refuses ⟨false, []⟩ oversized
      (fun d d' => d.transport.supportsBinary = false ∧ d'.state.pendingCalls["2"]?.isSome) (by decide +kernel)
    obtain ⟨hbinary, hcall⟩ := of_decide_eq_true hcheck
    obtain ⟨hiff, -⟩ := refused_push_isolated_iff hp hs ha hf he
    exact ⟨d, d', hr, hp, hs, hiff.mpr ⟨rfl, hbinary⟩, hcall⟩

/-- Not every push that the codec refuses leaves the other calls as before. -/
theorem refused_push_ends_other :
    ¬ ∀ (env : Env) (d d' d₁ : Driver) (input : Input) (topic : Topic) (push : QueuedPush) (frame : Frame)
      (e : String), (driver env).Reachable d → d.phase = .connected → d.step env input = some d' →
      Sending env d topic push input d₁ → push.frame d₁.state.protocol topic = some frame →
      env.codec.encode frame = .error e →
      d'.phase = .connected ∧ ∀ r : Reference, d.state.pendingCalls[r]?.isSome → d'.state.pendingCalls[r]?.isSome := by
  intro hall
  obtain ⟨d, d', hr, hp, hs, ha, ⟨frame, e, hf, he⟩, hcall, hp', hnone⟩ := envelope_endsOther
  exact hp' (hall _ d d' _ _ _ _ frame e hr hp hs ha hf he).1

end Driver
end PhoenixChannel.Client
