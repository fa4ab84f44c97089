import PhoenixChannel.Client.ProtocolMoves
import PhoenixChannel.Client.Steps

/-! The requests in flight.

The protocol and the driver each keep what they know of a request whose frame was sent. Most
handlers leave all of it alone. A lost connection settles all of it, and without a
connection there is nothing in flight. -/
namespace PhoenixChannel.Client
open PhoenixChannel.Runtime Library

namespace Driver

/-- What the driver and the protocol hold about requests in flight, with the deadlines. -/
def inFlight (d : Driver) :
    Protocol × Table Reference Topic × Table Reference PendingCall × Table Reference PendingPing ×
      Table Reference PendingLeave × List (Timer OperationTimeout) :=
  (d.state.protocol, d.state.pendingJoins, d.state.pendingCalls, d.state.pendingPings,
    d.state.pendingLeaves, d.connection.operationTimeouts)

/-! ### What leaves the requests in flight alone

All that is in flight is gathered in one tuple, `inFlight`, and each small step leaves the tuple as
it is. -/

section
variable (env : Env) (d : Driver) (topic : Topic)

@[simp] theorem emitAll_inFlight (effects : List Effect) :
    (d.emitAll effects).inFlight = d.inFlight := rfl

@[simp] theorem setRecord_inFlight (channel : ChannelRecord) :
    (d.setRecord topic channel).inFlight = d.inFlight := rfl

@[simp] theorem setStatus_inFlight (status : ChannelStatus) :
    (d.setStatus topic status).inFlight = d.inFlight := by
  unfold setStatus
  cases d.record topic <;> rfl

@[simp] theorem emitChannel_inFlight (event : ChannelEvent) :
    (d.emitChannel topic event).inFlight = d.inFlight := by
  rw [emitChannel_eq]
  rfl

@[simp] theorem emitSocket_inFlight (event : SocketEvent) :
    (d.emitSocket event).inFlight = d.inFlight := rfl

@[simp] theorem answerLeave_inFlight (pending : Option PendingLeave)
    (result : Except ClientError Success) : (d.answerLeave pending result).inFlight = d.inFlight := by
  rw [answerLeave_eq]
  rfl

@[simp] theorem sendFrame_inFlight (served : List RequestId) (frame : Frame) :
    (d.sendFrame env served frame).1.inFlight = d.inFlight := by
  simp only [inFlight, sendFrame_state, sendFrame_connection]

@[simp] theorem accept_inFlight (command : Command) : (d.accept command).inFlight = d.inFlight := by
  unfold accept
  split <;> rfl

@[simp] theorem stopChannel_inFlight : (d.stopChannel topic).inFlight = d.inFlight := by
  cases hr : d.record topic with
  | none => rw [stopChannel_of_none hr]
  | some channel => rw [stopChannel_of_some hr, emitAll_inFlight, setRecord_inFlight]

@[simp] theorem register_inFlight : (d.register env topic).inFlight = d.inFlight := by
  unfold register
  split <;> rfl

@[simp] theorem queue_inFlight (push : QueuedPush) :
    (d.queue env topic push).inFlight = d.inFlight := by
  rcases queue_cases env d topic push with ⟨error, -, he⟩ | ⟨channel, -, -, -, he⟩
  · rw [he]
    rfl
  · rw [he]
    rfl

@[simp] theorem loadPayload_inFlight : (d.loadPayload topic).inFlight = d.inFlight := by
  rcases loadPayload_cases d topic with ⟨-, he⟩ | ⟨channel, -, -, -, -, he⟩
  · rw [he]
  · rw [he]
    rfl

@[simp] theorem scheduleRejoin_inFlight : (d.scheduleRejoin env topic).inFlight = d.inFlight := by
  rcases scheduleRejoin_cases env d topic with ⟨-, he⟩ | ⟨channel, -, -, -, he⟩
  · rw [he]
  · rw [he]
    rfl

@[simp] theorem handleRejoin_inFlight : (d.handleRejoin topic).inFlight = d.inFlight := by
  unfold handleRejoin
  cases d.record topic with
  | none => rfl
  | some channel =>
    dsimp only
    split
    · rw [loadPayload_inFlight, setRecord_inFlight]
    · rfl

@[simp] theorem handleJoin_inFlight (id : RequestId) (timeout : Duration) :
    (d.handleJoin id topic timeout).inFlight = d.inFlight := by
  unfold handleJoin
  cases d.record topic with
  | none => rfl
  | some channel =>
    dsimp only
    split
    · rfl
    · rw [loadPayload_inFlight, setRecord_inFlight]

@[simp] theorem cancelUnsent_inFlight (channel : ChannelRecord) (id : RequestId) :
    (d.cancelUnsent topic channel id).inFlight = d.inFlight := by
  cases d.cancelUnsent_cases topic channel id with
  | leave _ _ _ he | push _ _ he | nothing _ _ he => simp [he]

@[simp] theorem afterFailure_inFlight (reason : DisconnectReason) :
    (d.afterFailure env reason).inFlight = d.inFlight := by
  unfold afterFailure
  dsimp only
  split <;> rfl

@[simp] theorem handleOfflineCommand_inFlight (command : Command) :
    (d.handleOfflineCommand env command).inFlight = d.inFlight := by
  cases command with
  | connect | disconnect | subscribe | subscribeChannel _ | shutdown => rfl
  | ping id => rfl
  | join id topic timeout =>
    simp only [handleOfflineCommand]
    cases d.record topic <;> rfl
  | call id topic event payload started => exact queue_inFlight ..
  | cast id topic event payload => exact queue_inFlight ..
  | leave id topic timeout =>
    show ((d.setStatus topic .left).stopChannel topic).inFlight = d.inFlight
    rw [stopChannel_inFlight, setStatus_inFlight]

@[simp] theorem startLoad_inFlight : (d.startLoad topic).inFlight = d.inFlight := by
  rw [startLoad, loadPayload_inFlight, setStatus_inFlight]

theorem connectionMade_inFlight (started : Duration) (transport : Transport) (order : List Topic)
    (ho : d.connection.operationTimeouts = []) :
    (d.connectionMade env started transport order).inFlight = d.inFlight := by
  have hconnected : (d.connected env started transport).inFlight = d.inFlight := by
    simp only [inFlight, ho]
    rfl
  exact connectionMade_induction (fun d' => d'.inFlight = d.inFlight) hconnected
    fun d' topic h => (startLoad_inFlight d' topic).trans h

end

/-! ### Nothing in flight

Requests enter the tables when their frames go out, so without a connection the tables stay empty. -/

/-- Nothing is in flight. -/
structure Settled (d : Driver) : Prop where
  pending : d.state.protocol.pending = ∅
  joins : d.state.pendingJoins = ∅
  calls : d.state.pendingCalls = ∅
  pings : d.state.pendingPings = ∅
  leaves : d.state.pendingLeaves = ∅
  deadlines : d.connection.operationTimeouts = []

section
variable {env : Env} {d d' : Driver} {topic : Topic} {input : Input}

theorem Settled.of_eq (h : d.Settled) (he : d'.inFlight = d.inFlight) : d'.Settled := by
  simp only [inFlight, Prod.mk.injEq] at he
  obtain ⟨hp, hj, hc, hpi, hl, ho⟩ := he
  exact ⟨by rw [hp, h.pending], hj.trans h.joins, hc.trans h.calls, hpi.trans h.pings,
    hl.trans h.leaves, ho.trans h.deadlines⟩

/-- There is nothing to drop where nothing is in flight. -/
theorem Settled.discardChannel (h : d.Settled) : (d.discardChannel topic).Settled where
  pending := by
    show (d.state.protocol.pending.filter _) = ∅
    rw [h.pending]
    rfl
  joins := h.joins
  calls := h.calls
  pings := h.pings
  leaves := h.leaves
  deadlines := h.deadlines

theorem Settled.forgetJoins (h : d.Settled) : (d.forgetJoins topic).Settled :=
  { h with
    joins := by
      show (d.state.pendingJoins.filter _) = ∅
      rw [h.joins]
      rfl }

theorem Settled.unregister (h : d.Settled) : (d.unregister topic).Settled := by
  have hstop := h.of_eq (stopChannel_inFlight d topic)
  have herase : ({ d.stopChannel topic with
      state := { (d.stopChannel topic).state with
        channels := (d.stopChannel topic).state.channels.erase topic } } : Driver).Settled :=
    hstop.of_eq rfl
  exact herase.discardChannel

theorem Settled.cancelPending (h : d.Settled) (id : RequestId) : d.cancelPending id = d := by
  have hcall : d.cancelCall id = d := cancelCall_of_none (by rw [h.calls]; rfl)
  have hping : d.cancelPing id = d := cancelPing_of_none (by rw [h.pings]; rfl)
  have hleave : d.cancelLeave id = d := cancelLeave_of_none (by rw [h.leaves]; rfl)
  rw [Driver.cancelPending, hcall, hping, hleave]

/-- Without anything in flight a request is found in a record or nowhere. -/
theorem Settled.cancel (h : d.Settled) (id : RequestId) : (d.cancel id).Settled := by
  cases d.cancel_found id with
  | join topic channel hr hm he =>
    rw [he]
    by_cases hlast : channel.joinWaiters.erase id = [] ∧ channel.everJoined = false
    · rw [cancelJoin_of_last hlast.1 hlast.2]
      have habandon : ((d.setRecord topic (channel.abandoned id)).emitAll
        [.cancelled .join id]).Settled := h.of_eq rfl
      exact habandon.forgetJoins.discardChannel
    · rw [cancelJoin_of_others hlast]
      exact h.of_eq rfl
  | unsent topic channel hr hm he =>
    rw [he]
    exact h.of_eq (cancelUnsent_inFlight ..)
  | pending hj hq he =>
    rw [he, h.cancelPending]
    exact h

theorem settled_onDisconnect (d : Driver) (reason : DisconnectReason) :
    (d.onDisconnect reason).Settled := by
  obtain ⟨reports, -, he⟩ := onDisconnect_eq d reason
  rw [he]
  exact ⟨rfl, rfl, rfl, rfl, rfl, rfl⟩

theorem settled_lost (env : Env) (d : Driver) (reason : DisconnectReason) :
    (settle env (d, some reason)).Settled :=
  (settled_onDisconnect d reason).of_eq (afterFailure_inFlight ..)

/-- Without a connection nothing comes into flight. -/
theorem OfflineStep.settled (hs : OfflineStep env d input d') (h : d.Settled) : d'.Settled := by
  cases hs with
  | lifecycle command =>
    cases command with
    | register topic => exact h.of_eq (register_inFlight ..)
    | unregister topic => exact h.unregister
    | cancel id => exact h.cancel id
  | command command =>
    refine h.of_eq ?_
    rw [handleOfflineCommand_inFlight, accept_inFlight]
  | acknowledge command hc => exact h.of_eq rfl
  | close input hi d₁ reports he =>
    rw [he]
    exact h.of_eq rfl
  | connect input hi d₁ reports he attempt =>
    rw [he]
    exact h.of_eq rfl
  | disconnect d₁ reports he => exact (settled_onDisconnect d₁ .requested).of_eq rfl
  | failed input hi started error =>
    refine h.of_eq ?_
    rw [connectFailed, afterFailure_inFlight]
    rfl
  | made started due transport order hp ho =>
    exact h.of_eq (connectionMade_inFlight env d started transport order h.deadlines)

end

end Driver
end PhoenixChannel.Client
