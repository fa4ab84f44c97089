import PhoenixChannel.Client.InFlight
import PhoenixChannel.Client.Invariant
import PhoenixChannel.Client.OneTopic

/-! Every step of the connected loop is about one topic.

Or it ends the connection, which settles everything, or it cancels a request, of whatever
topic it is. Over whole runs references of two topics therefore stay apart, and without a
connection nothing is in flight. -/
namespace PhoenixChannel.Client
open PhoenixChannel.Runtime Library
open Protocol (Moves)

namespace Driver

/-- The topic an input of the connected loop is about. Pings and heartbeats go out under
`phoenix`, and the controls of the connection, about no topic, are put there too. -/
inductive About (env : Env) (d : Driver) : Input → Topic → Prop where
  | register (topic : Topic) : About env d (.lifecycle (.register topic)) topic
  | unregister (topic : Topic) : About env d (.lifecycle (.unregister topic)) topic
  | ping (id : RequestId) : About env d (.command (.ping id)) "phoenix"
  | join (id : RequestId) (topic : Topic) (timeout : Duration) :
    About env d (.command (.join id topic timeout)) topic
  | call (id : RequestId) (topic : Topic) (event : String) (payload : Payload) (started : Duration) :
    About env d (.command (.call id topic event payload started)) topic
  | cast (id : RequestId) (topic : Topic) (event : String) (payload : Payload) :
    About env d (.command (.cast id topic event payload)) topic
  | leave (id : RequestId) (topic : Topic) (timeout : Duration) :
    About env d (.command (.leave id topic timeout)) topic
  | subscribeChannel (topic : Topic) : About env d (.command (.subscribeChannel topic)) topic
  | control (command : Command) (hc : command.request = none)
      (hs : ∀ topic, command ≠ .subscribeChannel topic) : About env d (.command command) "phoenix"
  | message (message : WireMessage) (frame : Frame) (event : ProtocolEvent) (p : Protocol)
      (hd : env.codec.decode message = .ok frame)
      (hrec : d.state.protocol.receive frame = (.ok event, p)) :
    About env d (.message message) (topicOf event)
  | heartbeat : About env d .heartbeat "phoenix"
  | payload (topic : Topic) (payloadId : UInt64) (result : Except String Value) :
    About env d (.payload topic payloadId result) topic
  | rejoin (timer : Timer Topic) : About env d (.rejoin timer) timer.value
  | operationTimeout (timer : Timer OperationTimeout) :
    About env d (.operationTimeout timer) timer.value.topic

/-- The connection is over, and so is all that was in flight unless the driver is too. -/
structure Over (d : Driver) : Prop where
  phase : d.phase ≠ .connected
  settled : d.phase = .closed ∨ d.Settled

section
variable {env : Env} {d d' : Driver} {topic : Topic} {input : Input} {r : Result}

theorem over_lost (env : Env) (d : Driver) (reason : DisconnectReason) :
    (settle env (d, some reason)).Over := by
  refine ⟨?_, .inr (settled_lost env d reason)⟩
  rcases afterFailure_phase env (d.onDisconnect reason) reason with hp | ⟨due, hp⟩
  · exact fun h => by cases hp.symm.trans h
  · exact fun h => by cases hp.symm.trans h

theorem apart_settle (h : r.2 = none → Apart topic d r.1) :
    (settle env r).Over ∨ Apart topic d (settle env r) := by
  rcases r with ⟨d', _ | reason⟩
  · exact .inr (h rfl)
  · exact .inl (over_lost env d' reason)

theorem about_settle (hi : About env d input topic) (h : r.2 = none → Apart topic d r.1) :
    (settle env r).Over ∨ ∃ topic, About env d input topic ∧ Apart topic d (settle env r) :=
  (apart_settle h).imp_right fun hk => ⟨topic, hi, hk⟩

theorem apart_handleConnectedCommand (env : Env) (d : Driver) (command : Command) :
    ∃ topic, About env d (.command command) topic ∧
      Apart topic d ((d.accept command).handleConnectedCommand env command).1 := by
  have haccept : ∀ topic, Apart topic d (d.accept command) := fun topic => apart_accept d topic command
  generalize d.accept command = d₁ at haccept ⊢
  cases command with
  | connect | disconnect | subscribe | shutdown => exact ⟨_, .control _ rfl nofun, haccept _⟩
  | subscribeChannel topic => exact ⟨_, .subscribeChannel topic, haccept _⟩
  | ping id => exact ⟨_, .ping id, (haccept _).trans (apart_handlePing env d₁ id)⟩
  | join id topic timeout =>
    exact ⟨_, .join .., (haccept _).trans (apart_handleJoin d₁ topic id timeout)⟩
  | call id topic event payload started =>
    exact ⟨_, .call .., (haccept _).trans (apart_handlePush env d₁ topic _)⟩
  | cast id topic event payload =>
    exact ⟨_, .cast .., (haccept _).trans (apart_handlePush env d₁ topic _)⟩
  | leave id topic timeout =>
    exact ⟨_, .leave .., (haccept _).trans (apart_handleLeave env d₁ topic id timeout)⟩

/-- A message that is no good ends the connection. -/
theorem about_message (env : Env) (d : Driver) (message : WireMessage) :
    (settle env (d.onMessage env message)).Over ∨
      ∃ topic, About env d (.message message) topic ∧
        Apart topic d (settle env (d.onMessage env message)) := by
  cases hd : env.codec.decode message with
  | error e =>
    have hl : d.onMessage env message = (d, some (.protocol e)) := by
      simp only [onMessage, handleIncoming, hd, Result.andThen]
    rw [hl]
    exact .inl (over_lost ..)
  | ok frame =>
    rcases hrec : d.state.protocol.receive frame with ⟨e | event, p⟩
    · obtain ⟨report, hi⟩ := handleIncoming_of_decoded (d := d) hd
      have hrec' : (d.emitAll [.telemetry report]).state.protocol.receive frame = (.error e, p) := hrec
      simp only [onMessage, hi, handleFrame, hrec', Result.andThen]
      exact .inl (over_lost ..)
    · exact about_settle (.message message frame event p hd hrec) fun _ => apart_onMessage env d hd hrec

/-- **A step of the connected loop is about one topic**, ends the connection, or cancels. -/
theorem ConnectedStep.about (hs : ConnectedStep env d input d') :
    d'.Over ∨ (∃ id, input = .lifecycle (.cancel id) ∧ d' = d.cancel id) ∨
      ∃ topic, About env d input topic ∧ Apart topic d d' := by
  cases hs with
  | lifecycle command =>
    cases command with
    | register topic => exact .inr (.inr ⟨topic, .register topic, (Apart.refl topic d).register⟩)
    | unregister topic =>
      exact (about_settle (.unregister topic) fun _ => apart_unregisterConnected env d topic).imp_right .inr
    | cancel id => exact .inr (.inl ⟨id, rfl, rfl⟩)
  | command command =>
    obtain ⟨topic, hi, hk⟩ := apart_handleConnectedCommand env d command
    exact (about_settle hi fun _ => hk).imp_right .inr
  | acknowledge =>
    exact .inr (.inr ⟨_, .control .connect rfl (by simp),
      (Apart.refl _ d).emitAll (by simp [Effect.SentFor])⟩)
  | disconnect =>
    refine .inl ⟨fun hp => ?_, .inr ((settled_onDisconnect d .requested).of_eq rfl)⟩
    cases hp
  | close =>
    refine .inl ⟨fun hp => ?_, .inl rfl⟩
    cases hp
  | lost input hi reason => exact .inl (over_lost ..)
  | message message => exact (about_message env d message).imp_right .inr
  | heartbeat => exact (about_settle .heartbeat fun _ => apart_handleHeartbeat env d).imp_right .inr
  | payload topic payloadId result hm =>
    exact (about_settle (.payload topic payloadId result) fun _ =>
      (apart_takePayload d topic payloadId).trans
        (apart_handlePayload env _ topic payloadId result)).imp_right .inr
  | rejoin timer hm =>
    exact .inr (.inr ⟨timer.value, .rejoin timer,
      (apart_takeRejoin d timer.value timer).trans (apart_handleRejoin _ timer.value)⟩)
  | operationTimeout timer hm =>
    exact .inr (.inr ⟨timer.value.topic, .operationTimeout timer, apart_operationTimeout env hm⟩)

/-! ### Over whole runs -/

theorem ConnectedStep.phase (hs : ConnectedStep env d input d') (hp : d.phase = .connected) :
    d'.phase = .connected ∨ d'.phase = .closed ∨ d'.Settled := by
  rcases hs.about with ho | ⟨id, -, rfl⟩ | ⟨topic, -, hk⟩
  · exact .inr ho.settled
  · exact .inl ((dormant_cancel d id).phase.trans hp)
  · exact .inl (hk.phase.trans hp)

theorem settled_start (env : Env) : (start env).Settled := by
  unfold start
  dsimp only
  split
  · exact ⟨rfl, rfl, rfl, rfl, rfl, rfl⟩
  · exact ⟨rfl, rfl, rfl, rfl, rfl, rfl⟩

/-- **Without a connection nothing is in flight.** -/
theorem reachable_settled (h : (driver env).Reachable d) :
    d.phase = .connected ∨ d.phase = .closed ∨ d.Settled := by
  induction h with
  | start => exact .inr (.inr (settled_start env))
  | step _ _ hs ih =>
    cases stepped hs with
    | tick elapsed hi hd =>
      rw [hd]
      exact ih.imp_right (.imp_right fun h => h.of_eq rfl)
    | dropped topic hi hd =>
      rw [hd, ((Apart.refl topic _).setStatus).phase]
      exact ih.imp_right (.imp_right fun h => h.of_eq (setStatus_inFlight ..))
    | offline hc ho hs => exact .inr (.inr (hs.settled ((ih.resolve_left hc).resolve_left ho)))
    | connected hp hs => exact hs.phase hp

theorem Settled.sorted (h : d.Settled) : d.Sorted := by
  have hnone : ∀ (r : Reference) (t : Topic), ¬ (d.entry r).Of t := by
    intro r t ho
    cases ho with
    | request x held own => simp [entry, h.pending] at held
    | join held => simp [entry, h.joins] at held
    | call call held own => simp [entry, h.calls] at held
    | deadline timer held own => simp [entry, h.deadlines] at held
  exact ⟨fun r t ho => absurd ho (hnone r t), fun r t _ ho => absurd ho (hnone r t)⟩

end

end Driver
end PhoenixChannel.Client
