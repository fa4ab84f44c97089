import PhoenixChannel.Client.Handlers

/-! What one step can be.

The phases of the loop share most of what they do: three of them have no connection and
differ in when they give up, and most ways to lose a connection do the same. An invariant
needs one case for each constructor here, and no case for each phase and input. -/
namespace PhoenixChannel.Client
open PhoenixChannel.Runtime Library

/-- The request of an input, if it is a command with a response to give. -/
def Input.request : Input → Option (ClientOperation × RequestId)
  | .command made => made.request
  | _ => none

/-- The effect reports something or acknowledges a command. -/
def Effect.IsNotice (effect : Effect) : Prop := effect.IsReport ∨ effect = .acknowledged

namespace Driver

/-- A step without a connection; `reports` is what it reports before it goes on from `d₁`. -/
inductive OfflineStep (env : Env) (d : Driver) : Input → Driver → Prop where
  | lifecycle (command : LifecycleCommand) :
    OfflineStep env d (.lifecycle command) (d.handleOfflineLifecycle env command)
  | command (command : Command) :
    OfflineStep env d (.command command) ((d.accept command).handleOfflineCommand env command)
  | acknowledge (command : Command) (hc : command.request = none) :
    OfflineStep env d (.command command) d.acknowledge
  | disconnect (d₁ : Driver) (reports : List Effect) (he : d₁ = d.emitAll reports)
      (hr : ∀ effect ∈ reports, effect.IsNotice) :
    OfflineStep env d (.command .disconnect) d₁.disconnect
  | close (input : Input) (hi : input.request = none) (d₁ : Driver) (reports : List Effect)
      (he : d₁ = d.emitAll reports) (hr : ∀ effect ∈ reports, effect.IsNotice) :
    OfflineStep env d input d₁.close
  | connect (input : Input) (hi : input.request = none) (d₁ : Driver) (reports : List Effect)
      (he : d₁ = d.emitAll reports) (attempt : Nat) (hr : ∀ effect ∈ reports, effect.IsNotice) :
    OfflineStep env d input ({ d₁ with attempt }.beginConnect env)
  | failed (input : Input) (hi : input.request = none) (started : Duration) (error : TransportError) :
    OfflineStep env d input (d.connectFailed env started error)
  | made (started due : Duration) (transport : Transport) (order : List Topic)
      (hp : d.phase = .connecting started due) (ho : Table.IsOrder order d.state.channels) :
    OfflineStep env d (.connection (.ok transport) order)
      (d.connectionMade env started transport order)

/-- A step of the connected loop. -/
inductive ConnectedStep (env : Env) (d : Driver) : Input → Driver → Prop where
  | lifecycle (command : LifecycleCommand) :
    ConnectedStep env d (.lifecycle command) (settle env (d.handleConnectedLifecycle env command))
  | command (command : Command) :
    ConnectedStep env d (.command command)
      (settle env ((d.accept command).handleConnectedCommand env command))
  | acknowledge : ConnectedStep env d (.command .connect) d.acknowledge
  | disconnect : ConnectedStep env d (.command .disconnect) d.disconnect
  | close : ConnectedStep env d (.command .shutdown) { d.acknowledge.close with connection := .none }
  | lost (input : Input) (hi : input.request = none) (reason : DisconnectReason) :
    ConnectedStep env d input (settle env (d, some reason))
  | message (message : WireMessage) :
    ConnectedStep env d (.message message) (settle env (d.onMessage env message))
  | heartbeat : ConnectedStep env d .heartbeat (settle env (d.handleHeartbeat env))
  | payload (topic : Topic) (payloadId : UInt64) (result : Except String Value)
      (hm : (topic, payloadId) ∈ d.connection.payloads) :
    ConnectedStep env d (.payload topic payloadId result)
      (settle env ((d.takePayload topic payloadId).handlePayload env topic payloadId result))
  | rejoin (timer : Timer Topic) (hm : timer ∈ d.connection.rejoins) :
    ConnectedStep env d (.rejoin timer) ((d.takeRejoin timer).handleRejoin timer.value)
  | operationTimeout (timer : Timer OperationTimeout)
      (hm : timer ∈ d.connection.operationTimeouts) :
    ConnectedStep env d (.operationTimeout timer)
      ((d.takeOperationTimeout timer).handleOperationTimeout env timer.value)

/-- A step, in whatever phase. -/
inductive Stepped (env : Env) (d : Driver) (input : Input) (d' : Driver) : Prop where
  | tick (elapsed : Duration) (hi : input = .tick elapsed)
      (hd : d' = { d with clock := d.clock + elapsed })
  | dropped (topic : Topic) (hi : input = .handleDropped topic) (hd : d' = d.setStatus topic .closed)
  | offline (hc : d.phase ≠ .connected) (ho : d.phase ≠ .closed) (hs : OfflineStep env d input d')
  | connected (hp : d.phase = .connected) (hs : ConnectedStep env d input d')

section
variable {env : Env} {d d' : Driver} {input : Input}

theorem OfflineStep.of_idle (h : d.stepIdle env input = some d') : OfflineStep env d input d' := by
  unfold stepIdle at h
  split at h <;> cases h
  · exact .lifecycle _
  · exact .close _ rfl d [] (emitAll_nil d).symm (List.forall_mem_nil _)
  · exact .close _ rfl d [] (emitAll_nil d).symm (List.forall_mem_nil _)
  · exact .connect _ rfl _ [.acknowledged] rfl 0 (by simp [Effect.IsNotice])
  · exact .acknowledge _ rfl
  · exact .close _ rfl _ [.acknowledged] rfl (by simp [Effect.IsNotice])
  · exact .command _

theorem OfflineStep.of_connecting {started due : Duration} (hp : d.phase = .connecting started due)
    (h : d.stepConnecting env started due input = some d') : OfflineStep env d input d' := by
  unfold stepConnecting at h
  split at h
  · cases h
    exact .lifecycle _
  · cases h
    exact .close _ rfl d [] (emitAll_nil d).symm (List.forall_mem_nil _)
  · cases h
    exact .close _ rfl d [] (emitAll_nil d).symm (List.forall_mem_nil _)
  · split at h
    · cases h
      exact .made started due _ _ hp (by assumption)
    · cases h
  · cases h
    exact .failed _ rfl ..
  · split at h
    · cases h
      exact .failed _ rfl ..
    · cases h
  · cases h
    exact .acknowledge _ rfl
  · cases h
    exact .disconnect _ [_] rfl (by simp [Effect.IsNotice, Effect.IsReport])
  · cases h
    exact .close _ rfl _ [_, .acknowledged] (emitAll_emitAll d [_] [.acknowledged])
      (by simp [Effect.IsNotice, Effect.IsReport])
  · cases h
    exact .command _
  · cases h

theorem OfflineStep.of_waiting {due : Duration} (h : d.stepWaiting env due input = some d') :
    OfflineStep env d input d' := by
  unfold stepWaiting at h
  split at h
  · cases h
    exact .lifecycle _
  · cases h
    exact .close _ rfl d [] (emitAll_nil d).symm (List.forall_mem_nil _)
  · cases h
    exact .close _ rfl d [] (emitAll_nil d).symm (List.forall_mem_nil _)
  · split at h
    · cases h
      exact .connect _ rfl d [] (emitAll_nil d).symm d.attempt (List.forall_mem_nil _)
    · cases h
  · cases h
    exact .acknowledge _ rfl
  · cases h
    exact .disconnect d [] (emitAll_nil d).symm (List.forall_mem_nil _)
  · cases h
    exact .close _ rfl _ [.acknowledged] rfl (by simp [Effect.IsNotice])
  · cases h
    exact .command _
  · cases h

theorem ConnectedStep.of_connected (h : d.stepConnected env input = some d') :
    ConnectedStep env d input d' := by
  unfold stepConnected at h
  split at h
  · cases h
    exact .lifecycle _
  · cases h
    exact .lost _ rfl _
  · cases h
    exact .lost _ rfl _
  · cases h
    exact .acknowledge
  · cases h
    exact .disconnect
  · cases h
    exact .close
  · cases h
    exact .command _
  · cases h
    exact .message _
  · cases h
    exact .lost _ rfl _
  · cases h
    exact .lost _ rfl _
  · split at h
    · cases h
      exact .heartbeat
    · cases h
  · split at h
    · cases h
      exact .payload _ _ _ (by assumption)
    · cases h
  · split at h
    · rename_i hready
      cases h
      exact .rejoin _ hready.1
    · cases h
  · split at h
    · rename_i hready
      cases h
      exact .operationTimeout _ hready.1
    · cases h
  · cases h

/-- **The inversion of a step.** -/
theorem stepped (h : d.step env input = some d') : Stepped env d input d' := by
  unfold step at h
  split at h
  · exact .tick _ rfl (Option.some.inj h).symm
  · exact .dropped _ rfl (Option.some.inj h).symm
  · split at h <;> rename_i hp
    · exact .offline (by rw [hp]; nofun) (by rw [hp]; nofun) (.of_idle h)
    · exact .offline (by rw [hp]; nofun) (by rw [hp]; nofun) (.of_connecting hp h)
    · exact .connected hp (.of_connected h)
    · exact .offline (by rw [hp]; nofun) (by rw [hp]; nofun) (.of_waiting h)
    · cases h

/-- A message that ends no connection was decoded and received, and its event handled. -/
theorem onMessage_of_ok {message : WireMessage} (h : (d.onMessage env message).2 = none) :
    ∃ frame event p report due, env.codec.decode message = .ok frame ∧
      d.state.protocol.receive frame = (.ok event, p) ∧
      (((d.emitAll [.telemetry report]).setProtocol p).handleEvent env event).2 = none ∧
      (d.onMessage env message).1 =
        (let d' := (((d.emitAll [.telemetry report]).setProtocol p).handleEvent env event).1
        { d' with connection := { d'.connection with heartbeatDue := due } }) := by
  cases hd : env.codec.decode message with
  | error e =>
    simp only [onMessage, handleIncoming, hd, Result.andThen] at h
    cases h
  | ok frame =>
    obtain ⟨report, hi⟩ := handleIncoming_of_decoded (d := d) hd
    rcases hrec : d.state.protocol.receive frame with ⟨e | event, p⟩
    · have hrec' : (d.emitAll [.telemetry report]).state.protocol.receive frame = (.error e, p) := hrec
      simp only [onMessage, hi, handleFrame, hrec', Result.andThen] at h
      cases h
    have hrec' : (d.emitAll [.telemetry report]).state.protocol.receive frame = (.ok event, p) := hrec
    refine ⟨frame, event, p, report, ?_⟩
    simp only [onMessage, hi, handleFrame, hrec'] at h ⊢
    rcases hh : ((d.emitAll [.telemetry report]).setProtocol p).handleEvent env event with
      ⟨d', _ | reason⟩
    · simp only [Result.andThen]
      split
      · exact ⟨_, trivial, hrec, trivial, rfl⟩
      · exact ⟨d'.connection.heartbeatDue, trivial, hrec, trivial, rfl⟩
    · rw [hh] at h
      cases h

end

end Driver
end PhoenixChannel.Client
