import PhoenixChannel.Client.Settling
import PhoenixChannel.Client.Subjects

/-! Requests are conserved. -/
namespace PhoenixChannel.Client
open PhoenixChannel.Runtime Library
open Protocol (Move Moves)

namespace Driver

section
variable {L : Effect → Prop} {given : List Request} {env : Env} {d d' : Driver} {topic : Topic}
  {input : Input}

/-! ### Commands

The request of a command is in the handler's hand when it starts, and is sent, kept at a place of
its own, or answered when it is done. -/

/-- Without a connection a request is answered, waits for the channel to be joined, or is queued. -/
theorem honors_handleOfflineCommand {command : Command}
    (hn : ∀ id, command.request = some (.join, id) → (.join, id) ∉ d.owed) :
    Honors L command.request.toList d (d.handleOfflineCommand env command) := by
  cases command with
  | connect | disconnect | subscribe | subscribeChannel _ | shutdown => exact .refl L d
  | ping id => exact honors_answer d trivial
  | join id topic timeout =>
    simp only [handleOfflineCommand]
    cases hr : d.record topic with
    | none => exact honors_answer d trivial
    | some channel => exact honors_wait (hn id rfl) hr rfl rfl rfl
  | call id topic event payload started => exact honors_queue env d _
  | cast id topic event payload => exact honors_queue env d _
  | leave id topic timeout =>
    have hstop : Honors L [] d ((d.setStatus topic .left).stopChannel topic) :=
      (Honors.refl L d).setStatus.stopChannel
    exact Honors.after (honors_answer _ trivial) hstop

/-- A connected driver sends a request, keeps it in a place of its own, or answers it. -/
theorem honors_handleConnectedCommand {command : Command}
    (hn : ∀ id, command.request = some (.join, id) → (.join, id) ∉ d.owed) :
    Honors L command.request.toList d (d.handleConnectedCommand env command).1 := by
  cases command with
  | connect | disconnect | subscribe | subscribeChannel _ | shutdown => exact .refl L d
  | ping id => exact honors_handlePing env d id
  | join id topic timeout => exact honors_handleJoin d (hn id rfl) timeout
  | call id topic event payload started => exact honors_handlePush env d _
  | cast id topic event payload => exact honors_handlePush env d _
  | leave id topic timeout => exact honors_handleLeave env d id timeout

/-! ### Messages

What a message settles was held by the driver. A call is answered with a reply only by the frame
that brought the reply. -/

/-- The reply to a call is licensed by the frame that brought it. -/
theorem honors_onMessage {message : WireMessage} (hco : d.state.protocol.Coherent)
    (hL : (d.onMessage env message).2 = none → ∀ (frame : Frame) (reference : Reference)
      (status : ReplyStatus) (response : Payload) (call : PendingCall),
      env.codec.decode message = .ok frame → frame.event = "phx_reply" →
      frame.reference = some reference → d.state.pendingCalls[reference]? = some call →
        L (.answered .call call.id (.ok (.reply status response)))) :
    Honors L [] d (d.onMessage env message).1 := by
  cases hd : env.codec.decode message with
  | error e =>
    have hl : d.onMessage env message = (d, some (.protocol e)) := by
      simp only [onMessage, handleIncoming, hd, Result.andThen]
    rw [hl]
    exact .refl L d
  | ok frame =>
    obtain ⟨report, hi⟩ := handleIncoming_of_decoded (d := d) hd
    have hreport : Honors L [] d (d.emitAll [.telemetry report]) :=
      (Honors.refl L d).emitQuiet (by simp [Effect.Quiet])
    rcases hrec : d.state.protocol.receive frame with ⟨e | event, p⟩
    · have hrec' : (d.emitAll [.telemetry report]).state.protocol.receive frame = (.error e, p) := hrec
      have hm := Move.receive (p := d.state.protocol) frame
      rw [hrec] at hm
      simp only [onMessage, hi, handleFrame, hrec', Result.andThen]
      exact hreport.setProtocol (.single hm)
    · have hrec' : (d.emitAll [.telemetry report]).state.protocol.receive frame = (.ok event, p) := hrec
      have hevent : Honors L [] d
          (((d.emitAll [.telemetry report]).setProtocol p).handleEvent env event).1 := by
        refine hreport.andThen (honors_handleEvent env _ hco hrec' ?_)
        rintro topic name reference status response call rfl hname href hc
        refine hL ?_ frame reference status response call hd hname href hc
        simp only [onMessage, hi, handleFrame, hrec', handleEvent, Result.andThen]
        split <;> rfl
      unfold onMessage
      simp only [hi, handleFrame, hrec']
      rcases hh : ((d.emitAll [.telemetry report]).setProtocol p).handleEvent env event with
        ⟨d', _ | reason⟩
      · rw [hh] at hevent
        simp only [Result.andThen]
        split
        · exact hevent.andThen (.of_quiet .refl rfl rfl rfl rfl (.of_trace rfl))
        · exact hevent
      · rw [hh] at hevent
        exact hevent

/-! ### Connections

A lost connection answers every request in flight with an error. A new one answers none. -/

theorem Honors.emitSocket (h : Honors L given d d') {event : SocketEvent}
    (hc : socketStatusOf event ≠ .closed) : Honors L given d (d'.emitSocket event) := by
  refine h.andThen (.of_quiet .refl ?_ rfl rfl rfl ((Emits.refl _ d').emitSocket trivial trivial))
  simp only [Driver.emitSocket, emit_eq, emitAll_state, if_neg hc, telemetry_eq]

/-- What follows a failure is a report and the next phase. -/
theorem Honors.afterFailure (h : Honors L given d d') {env : Env} {reason : DisconnectReason} :
    Honors L given d (d'.afterFailure env reason) := by
  have hattempt : Honors L given d { d' with attempt := nextAttempt d'.attempt } :=
    h.andThen (.of_quiet .refl rfl rfl rfl rfl (.of_trace rfl))
  unfold Driver.afterFailure
  dsimp only
  split
  · exact (hattempt.emitSocket (by simp [socketStatusOf])).andThen (.of_quiet .refl rfl rfl rfl rfl (.of_trace rfl))
  · exact (hattempt.emitSocket (by simp [socketStatusOf])).andThen (.of_quiet .refl rfl rfl rfl rfl (.of_trace rfl))

theorem Honors.settle {r : Result} (h : Honors L given d r.1) :
    Honors L given d (settle env r) := by
  rcases r with ⟨d', _ | reason⟩
  · exact h
  · exact (h.andThen (honors_onDisconnect d' reason)).afterFailure

/-- A new connection unschedules rejoins and keeps every request where it was. -/
theorem honors_connected (started : Duration) (transport : Transport) :
    Honors L [] d (d.connected env started transport) := by
  have htotal : ∀ (f : ChannelRecord → List Request), (∀ channel, f channel.unscheduled = f channel) →
      ∀ x, Table.total (due f x) (d.connected env started transport).state.channels =
        Table.total (due f x) d.state.channels := by
    intro f hf x
    simp only [connected, emitAll_state, Table.total_map]
    exact Table.total_congr fun t channel _ => by rw [due, due, hf]
  refine .of_channels .refl rfl rfl rfl (by rfl) (fun effect hm => .inl ?_)
    (fun x => congrArg (· + 0) (htotal ChannelRecord.owed (fun _ => rfl) x))
    (fun x => Nat.le_of_eq (htotal ChannelRecord.held (fun _ => rfl) x)) fun t x hx => .inl ?_
  · simp only [List.mem_cons, List.not_mem_nil, or_false] at hm
    rcases hm with rfl | rfl | rfl <;> trivial
  · simp only [heldAt, tallyAt, connected_record] at hx ⊢
    cases hr : d.record t with
    | none =>
      rw [hr] at hx
      cases hx
    | some channel =>
      rw [hr] at hx
      exact hx

theorem honors_connectionMade (started : Duration) (transport : Transport) (order : List Topic) :
    Honors L [] d (d.connectionMade env started transport order) :=
  connectionMade_induction (Honors L [] d) (honors_connected started transport) fun _ _ h => h.setStatus.loadPayload

/-! ### Steps

`Licensed` says which steps may cancel a request or reply to a call. Nothing else about a step
matters for the balance. -/

/-- The driver once the request of an input is accepted. -/
def noted (d : Driver) (input : Input) : Driver :=
  d.emitAll (input.request.toList.map fun request => .accepted request.1 request.2)

/-- What an input may do besides settling requests with what the driver knows itself: a
cancellation drops one, and the reply to a call's frame answers the call. -/
inductive Licensed (env : Env) (d : Driver) (input : Input) : Effect → Prop where
  | cancel (operation : ClientOperation) (id : RequestId) (hi : input = .lifecycle (.cancel id)) :
    Licensed env d input (.cancelled operation id)
  | reply (message : WireMessage) (frame : Frame) (reference : Reference) (call : PendingCall)
      (status : ReplyStatus) (response : Payload) (hi : input = .message message)
      (hd : env.codec.decode message = .ok frame) (he : frame.event = "phx_reply")
      (hr : frame.reference = some reference) (hc : d.state.pendingCalls[reference]? = some call) :
    Licensed env d input (.answered .call call.id (.ok (.reply status response)))

theorem accept_eq_noted (d : Driver) (command : Command) :
    d.accept command = d.noted (.command command) := by
  have hr : (Input.command command).request = command.request := rfl
  rw [accept, noted, hr]
  cases command.request with
  | none => exact (emitAll_nil d).symm
  | some request => rfl

theorem noted_of_none (hi : input.request = none) : d.noted input = d := by
  rw [noted, hi]
  exact emitAll_nil d

/-- A dropped handle ends the requests of its topic, and a cancellation takes back the one that it names. -/
theorem honors_handleLifecycle {command : LifecycleCommand}
    (hL : ∀ operation id, command = .cancel id → L (.cancelled operation id)) :
    Honors L [] d (d.handleConnectedLifecycle env command).1 ∧
      Honors L [] d (d.handleOfflineLifecycle env command) := by
  cases command with
  | register topic => exact ⟨(Honors.refl L d).register, (Honors.refl L d).register⟩
  | unregister topic => exact ⟨honors_unregisterConnected env d, (Honors.refl L d).unregister⟩
  | cancel id =>
    have hcancel : Honors L [] d (d.cancel id) := honors_cancel d fun operation => hL operation id rfl
    exact ⟨hcancel, hcancel⟩

theorem idle_of_report {effect : Effect} (h : effect.IsReport) : ¬ effect.Sends := by
  cases effect with
  | outgoing | loading => exact h.elim
  | _ => exact id

theorem idle_of_notice {effect : Effect} (h : effect.IsNotice) : ¬ effect.Sends := by
  rcases h with h | rfl
  · exact idle_of_report h
  · exact not_false

theorem idle_emitSocket (d : Driver) (event : SocketEvent) :
    d.Emits (fun effect => ¬ effect.Sends) (d.emitSocket event) :=
  (Emits.refl _ d).emitSocket not_false not_false

/-- The driver is over, and only reports. -/
def Finishes (d d' : Driver) : Prop :=
  d'.phase = .closed ∧ d.Emits (fun effect => ¬ effect.Sends) d'

theorem Emits.close (h : d.Emits (fun effect => ¬ effect.Sends) d') :
    d.Finishes d'.close :=
  ⟨rfl, (h.trans (idle_emitSocket ..)).silent rfl⟩

theorem quiet_of_notice {effect : Effect} (h : effect.IsNotice) : effect.Quiet := by
  rcases h with h | rfl
  · exact quiet_of_report h
  · trivial

/-- Without a connection. -/
theorem OfflineStep.honors (hs : OfflineStep env d input d')
    (hn : ∀ id, input.request = some (.join, id) → (.join, id) ∉ d.owed)
    (hL : ∀ operation id, input = .lifecycle (.cancel id) → L (.cancelled operation id)) :
    d.Finishes d' ∨ Honors L input.request.toList (d.noted input) d' := by
  have hreports : ∀ reports : List Effect, (∀ effect ∈ reports, effect.IsNotice) →
      Honors L [] d (d.emitAll reports) := fun reports hr =>
    (Honors.refl L d).emitQuiet fun effect hm => quiet_of_notice (hr effect hm)
  cases hs with
  | lifecycle command =>
    rw [noted_of_none rfl]
    exact .inr (honors_handleLifecycle fun operation id h => hL operation id (by rw [h])).2
  | command command =>
    rw [accept_eq_noted]
    exact .inr (honors_handleOfflineCommand hn)
  | acknowledge command hc =>
    have hc : (Input.command command).request = none := hc
    rw [noted_of_none hc, hc]
    exact .inr ((Honors.refl L d).emitQuiet (by simp [Effect.Quiet]))
  | disconnect d₁ reports he hr =>
    rw [noted_of_none rfl, he]
    exact .inr (((hreports reports hr).andThen (honors_onDisconnect _ .requested)).andThen
      (.of_quiet .refl rfl rfl rfl rfl ⟨[.acknowledged], rfl, by simp [Effect.Quiet]⟩))
  | close input hi d₁ reports he hr =>
    have hreports : d.Emits (fun effect => ¬ effect.Sends) d₁ :=
      he ▸ (Emits.refl _ d).emitAll fun effect hm => idle_of_notice (hr effect hm)
    exact .inl hreports.close
  | connect input hi d₁ reports he attempt hr =>
    rw [noted_of_none hi, hi, he]
    have hattempt : Honors L [] d { d.emitAll reports with attempt } :=
      (hreports reports hr).andThen (.of_quiet .refl rfl rfl rfl rfl (.of_trace rfl))
    exact .inr ((hattempt.emitSocket (by simp [socketStatusOf])).andThen
      (.of_quiet .refl rfl rfl rfl rfl (.of_trace rfl)))
  | failed input hi started error =>
    rw [noted_of_none hi, hi]
    have hfinished : Honors L [] d (d.attemptFinished started false) :=
      (Honors.refl L d).emitQuiet (by simp [Effect.Quiet])
    exact .inr (hfinished.emitSocket (by simp [socketStatusOf, DisconnectReason.shouldReconnect])).afterFailure
  | made started due transport order hp ho =>
    rw [noted_of_none rfl]
    exact .inr (honors_connectionMade started transport order)

/-- In the connected loop. -/
theorem ConnectedStep.honors (hs : ConnectedStep env d input d') (hco : d.state.protocol.Coherent)
    (hn : ∀ id, input.request = some (.join, id) → (.join, id) ∉ d.owed)
    (hL : ∀ effect, Licensed env d input effect → d'.phase = .connected → L effect)
    (hp : d.phase = .connected) :
    d.Finishes d' ∨ Honors L input.request.toList (d.noted input) d' := by
  cases hs with
  | lifecycle command =>
    rw [noted_of_none rfl]
    refine .inr (honors_handleLifecycle ?_).1.settle
    rintro operation id rfl
    exact hL _ (.cancel operation id rfl) ((dormant_cancel d id).phase.trans hp)
  | command command =>
    rw [accept_eq_noted]
    have hcommand : Honors L command.request.toList (d.noted (.command command))
        ((d.noted (.command command)).handleConnectedCommand env command).1 :=
      honors_handleConnectedCommand hn
    exact .inr hcommand.settle
  | acknowledge =>
    rw [noted_of_none rfl]
    exact .inr ((Honors.refl L d).emitQuiet (by simp [Effect.Quiet]))
  | disconnect =>
    rw [noted_of_none rfl]
    exact .inr ((honors_onDisconnect d .requested).andThen
      (.of_quiet .refl rfl rfl rfl rfl ⟨[.acknowledged], rfl, by simp [Effect.Quiet]⟩))
  | close =>
    have hclose : d.Finishes d.acknowledge.close :=
      ((Emits.refl _ d).emitAll (by simp [Effect.Sends])).close
    exact .inl ⟨rfl, hclose.2.silent rfl⟩
  | lost input hi reason =>
    rw [noted_of_none hi, hi]
    have hrefl : Honors L [] d (d, some reason).1 := .refl L d
    exact .inr hrefl.settle
  | message message =>
    rw [noted_of_none rfl]
    refine .inr (honors_onMessage hco ?_).settle
    intro hok frame reference status response call hd he hr hc
    refine hL _ (.reply message frame reference call status response rfl hd he hr hc) ?_
    obtain ⟨frame', event, p, -, -, hd', hrec, -⟩ := onMessage_of_ok hok
    have hphase := (apart_onMessage env d hd' hrec).phase
    rcases hm : d.onMessage env message with ⟨d', _ | reason⟩
    · rw [hm] at hphase
      exact hphase.trans hp
    · rw [hm] at hok
      cases hok
  | heartbeat =>
    rw [noted_of_none rfl]
    exact .inr (honors_handleHeartbeat env d).settle
  | payload topic payloadId result hm =>
    rw [noted_of_none rfl]
    have htake : Honors L [] d (d.takePayload topic payloadId) :=
      .of_quiet .refl rfl rfl rfl rfl (.of_trace rfl)
    exact .inr (htake.andThen (honors_handlePayload env _ payloadId result)).settle
  | rejoin timer hm =>
    rw [noted_of_none rfl]
    have htake : Honors L [] d (d.takeRejoin timer) := .of_quiet .refl rfl rfl rfl rfl (.of_trace rfl)
    exact .inr (htake.andThen (honors_handleRejoin _))
  | operationTimeout timer hm =>
    rw [noted_of_none rfl]
    have htake : Honors L [] d (d.takeOperationTimeout timer) :=
      .of_quiet .refl rfl rfl rfl rfl (.of_trace rfl)
    exact .inr (htake.andThen (honors_handleOperationTimeout env _ timer.value))

end

end Driver
end PhoenixChannel.Client
