import PhoenixChannel.Client.Work

/-! What a step does to the connection.

Most steps work within the phase the loop is in. The others are the turns the connection takes: an
attempt starts, fails or succeeds, the connection is lost or given up, the heartbeat goes out or
comes back, time passes. `Course` is the inversion of a step for everything that is about the
connection and not about one channel. -/
namespace PhoenixChannel.Client
open PhoenixChannel.Runtime Library

/-- A connection that was up ended by itself. -/
def DisconnectReason.Unasked : DisconnectReason → Prop
  | .requested | .connect _ => False
  | .transport _ | .closed _ | .heartbeatTimeout | .protocol _ | .driverStopped => True

/-- A frame could not be sent, or an operation of the protocol failed. -/
def DisconnectReason.Broken : DisconnectReason → Prop
  | .transport _ | .protocol _ => True
  | .requested | .connect _ | .closed _ | .heartbeatTimeout | .driverStopped => False

/-- All that makes a handler end the connection is that something broke. -/
structure Result.Broken (r : Result) : Prop where
  reason : ∀ reason, r.2 = some reason → reason.Broken

theorem DisconnectReason.Broken.unasked {reason : DisconnectReason} (h : reason.Broken) :
    reason.Unasked ∧ reason ≠ .heartbeatTimeout := by
  cases reason with
  | transport error => exact ⟨trivial, DisconnectReason.noConfusion⟩
  | protocol message => exact ⟨trivial, DisconnectReason.noConfusion⟩
  | requested | connect error | closed close | heartbeatTimeout | driverStopped => exact h.elim

namespace Driver

section
variable {env : Env} {d : Driver} {topic : Topic}

theorem broken_none (d : Driver) : Result.Broken (d, none) :=
  ⟨fun _ h => by cases h⟩

theorem broken_some {reason : DisconnectReason} (h : reason.Broken) :
    Result.Broken (d, some reason) :=
  ⟨fun _ h' => Option.some.inj h' ▸ h⟩

theorem broken_of_eq {r r' : Result} (he : r' = r) (h : Result.Broken r) : Result.Broken r' := by
  rw [he]
  exact h

theorem broken_sendFrame (env : Env) (d : Driver) (served : List RequestId) (frame : Frame) :
    Result.Broken (d.sendFrame env served frame) := by
  unfold sendFrame
  cases env.codec.encode frame with
  | error message => exact broken_some trivial
  | ok message =>
    simp only [telemetry_eq, emit_eq, emitAll_emitAll, emitAll_transport]
    rcases d.transport.send with ⟨_ | _, transport⟩
    · exact broken_some trivial
    · exact broken_none _

theorem broken_sendPush (env : Env) (d : Driver) (topic : Topic) (push : QueuedPush) :
    Result.Broken (d.sendPush env topic push) := by
  cases push_handled env d topic push with
  | refusedCall id event payload started hb he => exact broken_of_eq he (broken_none _)
  | refusedCast id event payload hb he => exact broken_of_eq he (broken_none _)
  | notJoined push hj he => exact broken_of_eq he (broken_some trivial)
  | call id event payload started joinRef hb hj he => exact broken_of_eq he (broken_sendFrame ..)
  | cast id event payload joinRef sent hb hj hs he =>
    rw [he, hs]
    exact ⟨(broken_sendFrame ..).reason⟩

theorem broken_flush (env : Env) (d : Driver) (topic : Topic) : Result.Broken (d.flush env topic) := by
  unfold flush
  generalize (d.record topic).elim 0 (fun channel => channel.queued.length) = fuel
  induction fuel generalizing d with
  | zero => exact broken_none d
  | succ fuel ih =>
    unfold flushLoop
    cases d.popQueued topic with
    | none => exact broken_none d
    | some popped =>
      obtain ⟨push, d'⟩ := popped
      have hsend := broken_sendPush env d' topic push
      dsimp only
      rcases hs : d'.sendPush env topic push with ⟨d'', _ | reason⟩
      · exact ih d''
      · rw [hs] at hsend
        exact hsend

theorem broken_sendLeave (env : Env) (d : Driver) (topic : Topic) (pending : PendingLeave) :
    Result.Broken (d.sendLeave env topic pending) := by
  cases hj : d.state.protocol.joinedRef topic with
  | none =>
    obtain ⟨e, he⟩ := sendLeave_of_not_joined env pending hj
    exact broken_of_eq he (broken_some trivial)
  | some joinRef =>
    obtain ⟨channel, hc, hs⟩ := Protocol.joinedRef_eq_some.mp hj
    exact broken_of_eq (sendLeave_of_joined hc hs.1) (broken_sendFrame ..)

theorem broken_handlePayload (env : Env) (d : Driver) (topic : Topic) (payloadId : UInt64)
    (payload : Except String Value) : Result.Broken (d.handlePayload env topic payloadId payload) := by
  cases payload_handled env d topic payloadId payload with
  | ignored h he => exact broken_of_eq he (broken_none _)
  | late channel hr ha h he => exact broken_of_eq he (broken_none _)
  | failed message channel hp hr ha he => exact broken_of_eq he (broken_none _)
  | joined value channel d₁ hp hr ha hd hs hd₁ hs₁ he => exact broken_of_eq he (broken_sendFrame ..)

theorem broken_onJoined (env : Env) (d : Driver) (topic : Topic) (reference : Reference)
    (response : Payload) : Result.Broken (d.onJoined env topic reference response) := by
  cases hr : d.record topic with
  | none => exact broken_of_eq (onJoined_of_none hr) (broken_flush ..)
  | some channel =>
    cases hp : channel.deferredLeave with
    | some pending => exact broken_of_eq (onJoined_of_deferred hr hp) (broken_sendLeave ..)
    | none => exact broken_of_eq (onJoined_of_not_deferred hr hp) (broken_flush ..)

theorem broken_handleEvent (env : Env) (d : Driver) (event : ProtocolEvent) :
    Result.Broken (d.handleEvent env event) := by
  cases event with
  | joined topic reference response => exact broken_onJoined ..
  | joinError topic reference response | reply topic name reference status response
  | left topic reference response | heartbeatAck reference response | channelError topic payload
  | channelClosed topic payload | message frame | staleMessage frame | unmatchedReply frame
  | requestInterrupted topic event reference => exact broken_none _

theorem broken_onMessage (env : Env) (d : Driver) (message : WireMessage) :
    Result.Broken (d.onMessage env message) := by
  have hi : Result.Broken (d.handleIncoming env message) := by
    cases hd : env.codec.decode message with
    | error e =>
      simp only [handleIncoming, hd]
      exact broken_some trivial
    | ok frame =>
      obtain ⟨event, he⟩ := handleIncoming_of_decoded (d := d) hd
      rw [he, handleFrame]
      rcases (d.emitAll [.telemetry event]).state.protocol.receive frame with ⟨e | event, p⟩
      · exact broken_some trivial
      · exact broken_handleEvent ..
  unfold onMessage
  rcases hr : d.handleIncoming env message with ⟨d', _ | reason⟩
  · dsimp only [Result.andThen]
    split
    · exact broken_none _
    · exact broken_none _
  · rw [hr] at hi
    exact hi

theorem broken_handleConnectedLifecycle (env : Env) (d : Driver) (command : LifecycleCommand) :
    Result.Broken (d.handleConnectedLifecycle env command) := by
  cases command with
  | register topic => exact broken_none _
  | cancel id => exact broken_none _
  | unregister topic =>
    simp only [handleConnectedLifecycle, unregisterConnected]
    split
    · split
      · exact broken_sendFrame ..
      · exact broken_none _
    · exact broken_none _

theorem broken_handleConnectedCommand (env : Env) (d : Driver) (command : Command) :
    Result.Broken (d.handleConnectedCommand env command) := by
  cases command with
  | connect | disconnect | subscribe | subscribeChannel _ | shutdown => exact broken_none _
  | ping id => exact broken_sendFrame ..
  | join id topic timeout => exact broken_none _
  | call id topic event payload started | cast id topic event payload =>
    simp only [handleConnectedCommand, handlePush]
    split
    · exact broken_sendPush ..
    · exact broken_none _
  | leave id topic timeout =>
    simp only [handleConnectedCommand]
    cases leave_handled env d id topic timeout with
    | sent channel hc hs he => exact broken_of_eq he (broken_sendLeave ..)
    | deferred channel hs hr he => exact broken_of_eq he (broken_none _)
    | idle hs hj he => exact broken_of_eq he (broken_none _)

end

/-! ### Turns

One case for each turn. Whatever is left is `within`: work that is done in the phase the loop is in. -/

/-- From `d` to `d₁` the driver got to where it gives the connection up. -/
structure Towards (d d₁ : Driver) : Prop where
  attempt : d₁.attempt = d.attempt
  clock : d₁.clock = d.clock
  emits : d.Emits Effect.Routine d₁

theorem Works.towards {d d₁ : Driver} (h : d.Works d₁) : d.Towards d₁ :=
  ⟨h.attempt, h.clock, h.emits⟩

/-- The driver once it has sent a heartbeat. -/
def awaitHeartbeat (env : Env) (d : Driver) : Driver :=
  { d with
    connection := { d.connection with heartbeatDue := d.clock + env.options.heartbeatTimeout } }

/-- What a step does to the connection. -/
inductive Course (env : Env) (d : Driver) : Input → Driver → Prop where
  | tick (elapsed : Duration) : Course env d (.tick elapsed) { d with clock := d.clock + elapsed }
  | within (input : Input) (d' : Driver) (hw : d.Works d') : Course env d input d'
  | beat (d₁ : Driver) (hp : d.phase = .connected) (hd : d.connection.heartbeatDue ≤ d.clock)
      (hn : d.connection.heartbeatReference = none) (hw : d.trackHeartbeat.Works d₁) :
    Course env d .heartbeat (d₁.awaitHeartbeat env)
  | rested (message : WireMessage) (d₁ : Driver) (hp : d.phase = .connected)
      (ha : d.Acknowledges env message) (hw : d.Works d₁) :
    Course env d (.message message) (d₁.restHeartbeat env)
  | lost (input : Input) (d₁ : Driver) (reason : DisconnectReason) (hp : d.phase = .connected)
      (ht : d.Towards d₁) (hr : reason.Unasked)
      (hb : reason = .heartbeatTimeout →
        d.connection.heartbeatReference.isSome = true ∧ d.connection.heartbeatDue ≤ d.clock) :
    Course env d input ((d₁.onDisconnect reason).afterFailure env reason)
  | disconnect (d₁ : Driver) (hi : d.phase ≠ .idle) (hc : d.phase ≠ .closed) (hw : d.Works d₁) :
    Course env d (.command .disconnect) d₁.disconnect
  | begin (input : Input) (d₁ : Driver) (attempt : Nat)
      (hfrom : d.phase = .idle ∧ input = .command .connect ∧ attempt = 0 ∨
        ∃ due, d.phase = .waiting due ∧ due ≤ d.clock ∧ input = .retry ∧ attempt = d.attempt)
      (hw : d.Works d₁) :
    Course env d input ({ d₁ with attempt }.beginConnect env)
  | failed (input : Input) (started due : Duration) (error : TransportError)
      (hp : d.phase = .connecting started due) : Course env d input (d.connectFailed env started error)
  | made (started due : Duration) (transport : Transport) (order : List Topic)
      (hp : d.phase = .connecting started due) :
    Course env d (.connection (.ok transport) order) (d.connectionMade env started transport order)
  | closed (input : Input) (d₁ d' : Driver) (hc : d.phase ≠ .closed) (hw : d.Works d₁)
      (he : d' = d₁.close ∨ d' = { d₁.close with connection := .none }) : Course env d input d'

section
variable {env : Env} {d d' : Driver} {input : Input}

/-- A handler of the connected loop that works within the connection. -/
theorem Course.settled {r : Result} (hp : d.phase = .connected) (hw : d.Works r.1) (hb : Result.Broken r) :
    Course env d input (settle env r) := by
  rcases r with ⟨d', _ | reason⟩
  · exact .within input d' hw
  · obtain ⟨hr, hne⟩ := (hb.reason reason rfl).unasked
    exact .lost input d' reason hp hw.towards hr fun h => absurd h hne

theorem Course.of_heartbeat (hp : d.phase = .connected) (hd : d.connection.heartbeatDue ≤ d.clock) :
    Course env d .heartbeat (settle env (d.handleHeartbeat env)) := by
  cases hr : d.connection.heartbeatReference with
  | some reference =>
    have hs : d.connection.heartbeatReference.isSome = true := by rw [hr]; rfl
    rw [handleHeartbeat_of_some hs]
    exact .lost .heartbeat d .heartbeatTimeout hp (Works.refl d).towards trivial fun _ => ⟨hs, hd⟩
  | none =>
    rw [handleHeartbeat_of_none (by rw [hr]; exact Bool.false_ne_true)]
    have hw : d.trackHeartbeat.Works (d.trackHeartbeat.sendFrame env []
        ⟨none, some d.state.protocol.nextText, "phoenix", "heartbeat", .emptyObject⟩).1 :=
      (Works.refl _).sendFrame
    have hb := broken_sendFrame env d.trackHeartbeat []
      ⟨none, some d.state.protocol.nextText, "phoenix", "heartbeat", .emptyObject⟩
    rcases hs : d.trackHeartbeat.sendFrame env []
        ⟨none, some d.state.protocol.nextText, "phoenix", "heartbeat", .emptyObject⟩ with ⟨d₁, _ | reason⟩
    · rw [hs] at hw
      exact .beat d₁ hp hd hr hw
    · rw [hs] at hw hb
      obtain ⟨hu, hne⟩ := (hb.reason reason rfl).unasked
      have ht : d.Towards d₁ := ⟨hw.attempt, hw.clock, hw.emits⟩
      exact .lost .heartbeat d₁ reason hp ht hu fun h => absurd h hne

theorem Course.of_message (hp : d.phase = .connected) (message : WireMessage) :
    Course env d (.message message) (settle env (d.onMessage env message)) := by
  rcases onMessage_cases env d message with hw | ⟨ha, d₁, hw, he⟩
  · exact .settled hp hw (broken_onMessage env d message)
  · rw [he]
    exact .rested message d₁ hp ha hw

theorem Course.of_idle (hp : d.phase = .idle) (h : d.stepIdle env input = some d') : Course env d input d' := by
  have hc : d.phase ≠ .closed := by rw [hp]; exact Phase.noConfusion
  unfold stepIdle at h
  split at h <;> cases h
  · exact .within _ _ ((Works.refl d).handleOfflineLifecycle _)
  · exact .closed _ d _ hc (.refl d) (.inl rfl)
  · exact .closed _ d _ hc (.refl d) (.inl rfl)
  · exact .begin _ d.acknowledge 0 (.inl ⟨hp, rfl, rfl⟩) (Works.refl d).acknowledge
  · exact .within _ _ (Works.refl d).acknowledge
  · exact .closed _ _ _ hc (Works.refl d).acknowledge (.inl rfl)
  · exact .within _ _ ((Works.refl d).accept.handleOfflineCommand _)

theorem Works.attemptFinished (h : d.Works d') {started : Duration} {connected : Bool} :
    d.Works (d'.attemptFinished started connected) :=
  h.emitAll (List.forall_mem_singleton.mpr ⟨rfl, rfl⟩)

/-- While an attempt is under way it fails, succeeds or is given up. -/
theorem Course.of_connecting {started due : Duration} (hp : d.phase = .connecting started due)
    (h : d.stepConnecting env started due input = some d') : Course env d input d' := by
  have hc : d.phase ≠ .closed := by rw [hp]; exact Phase.noConfusion
  have hi : d.phase ≠ .idle := by rw [hp]; exact Phase.noConfusion
  unfold stepConnecting at h
  split at h
  · cases h
    exact .within _ _ ((Works.refl d).handleOfflineLifecycle _)
  · cases h
    exact .closed _ d _ hc (.refl d) (.inl rfl)
  · cases h
    exact .closed _ d _ hc (.refl d) (.inl rfl)
  · split at h
    · cases h
      exact .made started due _ _ hp
    · cases h
  · cases h
    exact .failed _ started due _ hp
  · split at h
    · cases h
      exact .failed _ started due _ hp
    · cases h
  · cases h
    exact .within _ _ (Works.refl d).acknowledge
  · cases h
    exact .disconnect _ hi hc (Works.refl d).attemptFinished
  · cases h
    exact .closed _ _ _ hc (Works.refl d).attemptFinished.acknowledge (.inl rfl)
  · cases h
    exact .within _ _ ((Works.refl d).accept.handleOfflineCommand _)
  · cases h

/-- While the loop waits a new attempt starts at its time, or at once on request. -/
theorem Course.of_waiting {due : Duration} (hp : d.phase = .waiting due)
    (h : d.stepWaiting env due input = some d') : Course env d input d' := by
  have hc : d.phase ≠ .closed := by rw [hp]; exact Phase.noConfusion
  have hi : d.phase ≠ .idle := by rw [hp]; exact Phase.noConfusion
  unfold stepWaiting at h
  split at h
  · cases h
    exact .within _ _ ((Works.refl d).handleOfflineLifecycle _)
  · cases h
    exact .closed _ d _ hc (.refl d) (.inl rfl)
  · cases h
    exact .closed _ d _ hc (.refl d) (.inl rfl)
  · split at h
    · cases h
      exact .begin _ d d.attempt (.inr ⟨due, hp, by assumption, rfl, rfl⟩) (.refl d)
    · cases h
  · cases h
    exact .within _ _ (Works.refl d).acknowledge
  · cases h
    exact .disconnect d hi hc (.refl d)
  · cases h
    exact .closed _ _ _ hc (Works.refl d).acknowledge (.inl rfl)
  · cases h
    exact .within _ _ ((Works.refl d).accept.handleOfflineCommand _)
  · cases h

/-- Each input of the connected loop, by what its handler leaves alone. -/
theorem Course.of_connected (hp : d.phase = .connected) (h : d.stepConnected env input = some d') :
    Course env d input d' := by
  have hc : d.phase ≠ .closed := by rw [hp]; exact Phase.noConfusion
  have hi : d.phase ≠ .idle := by rw [hp]; exact Phase.noConfusion
  unfold stepConnected at h
  split at h
  · cases h
    exact .settled hp ((Works.refl d).handleConnectedLifecycle _) (broken_handleConnectedLifecycle ..)
  · cases h
    exact .lost _ d .driverStopped hp (Works.refl d).towards trivial fun h => by cases h
  · cases h
    exact .lost _ d .driverStopped hp (Works.refl d).towards trivial fun h => by cases h
  · cases h
    exact .within _ _ (Works.refl d).acknowledge
  · cases h
    exact .disconnect d hi hc (.refl d)
  · cases h
    exact .closed _ _ _ hc (Works.refl d).acknowledge (.inr rfl)
  · cases h
    exact .settled hp ((Works.refl d).accept.handleConnectedCommand _) (broken_handleConnectedCommand ..)
  · cases h
    exact .of_message hp _
  · cases h
    exact .lost _ d (.closed _) hp (Works.refl d).towards trivial fun h => by cases h
  · cases h
    exact .lost _ d (.transport _) hp (Works.refl d).towards trivial fun h => by cases h
  · split at h
    · cases h
      exact .of_heartbeat hp (by assumption)
    · cases h
  · split at h
    · cases h
      exact .settled hp ((Works.refl d).takePayload.trans (works_handlePayload ..))
        (broken_handlePayload ..)
    · cases h
  · split at h
    · cases h
      exact .within _ _ (Works.refl d).takeRejoin.handleRejoin
    · cases h
  · split at h
    · cases h
      exact .within _ _ ((Works.refl d).takeOperationTimeout.handleOperationTimeout _)
    · cases h
  · cases h

/-- **The inversion of a step**, for what it does to the connection. -/
theorem turned (h : d.step env input = some d') : Course env d input d' := by
  unfold step at h
  split at h
  · cases h
    exact .tick _
  · cases h
    exact .within _ _ (Works.refl d).setStatus
  · split at h <;> rename_i hp
    · exact .of_idle hp h
    · exact .of_connecting hp h
    · exact .of_connected hp h
    · exact .of_waiting hp h
    · cases h

/-! ### What the turns report

The events of the socket are those of the turns. Nothing else reports one. -/

/-- What subscribers were told of the socket so far. -/
def socketEvents (d : Driver) : List SocketEvent := d.trace.filterMap Effect.socketEvent

/-- What the hook was told of the socket so far. -/
def socketReports (d : Driver) : List SocketEvent := d.trace.filterMap Effect.socketReport

theorem Emits.socketEvents (h : d.Emits Effect.Routine d') : d'.socketEvents = d.socketEvents := by
  obtain ⟨effects, ht, hr⟩ := h
  have hnone : effects.filterMap Effect.socketEvent = [] :=
    List.filterMap_eq_nil_iff.mpr fun effect hm => (hr effect hm).1
  rw [Driver.socketEvents, ht, List.filterMap_append, hnone, List.append_nil]
  rfl

theorem Emits.socketReports (h : d.Emits Effect.Routine d') : d'.socketReports = d.socketReports := by
  obtain ⟨effects, ht, hr⟩ := h
  have hnone : effects.filterMap Effect.socketReport = [] :=
    List.filterMap_eq_nil_iff.mpr fun effect hm => (hr effect hm).2
  rw [Driver.socketReports, ht, List.filterMap_append, hnone, List.append_nil]
  rfl

@[simp] theorem emitSocket_socketEvents (d : Driver) (event : SocketEvent) :
    (d.emitSocket event).socketEvents = d.socketEvents ++ [event] := by
  rw [Driver.socketEvents, emitSocket_trace, List.filterMap_append]
  rfl

@[simp] theorem emitSocket_socketReports (d : Driver) (event : SocketEvent) :
    (d.emitSocket event).socketReports = d.socketReports ++ [event] := by
  rw [Driver.socketReports, emitSocket_trace, List.filterMap_append]
  rfl

/-- The loads that a new connection starts with are work within it. -/
theorem connectionMade_works (env : Env) (d : Driver) (started : Duration) (transport : Transport)
    (order : List Topic) :
    (d.connected env started transport).Works (d.connectionMade env started transport order) :=
  connectionMade_induction ((d.connected env started transport).Works ·) (.refl _) fun _ _ h => h.startLoad

theorem Works.foldl {α : Type} {f : Driver → α → Driver}
    (hf : ∀ (d : Driver) (a : α), d.Works (f d a)) (l : List α)
    (h : d.Works d') : d.Works (l.foldl f d') :=
  List.foldlRecOn l f h fun _ h a _ => h.trans (hf _ a)

theorem routine_interruptions (old : DriverState) (clock : Duration) :
    ∀ effect ∈ interruptions old clock, effect.Routine := by
  intro effect hm
  simp only [interruptions, List.mem_append, List.mem_flatMap, List.mem_map] at hm
  rcases hm with ((⟨entry, -, hm⟩ | ⟨entry, -, rfl⟩) | ⟨entry, -, rfl⟩) | ⟨pending, -, rfl⟩
  · rcases List.mem_pair.mp hm with rfl | rfl
    · exact ⟨rfl, rfl⟩
    · exact ⟨rfl, rfl⟩
  · exact ⟨rfl, rfl⟩
  · exact ⟨rfl, rfl⟩
  · exact ⟨rfl, rfl⟩

/-- **A lost connection is reported last**: before that, nothing is told of the socket. -/
theorem onDisconnect_last (d : Driver) (reason : DisconnectReason) :
    ∃ d₁, d.onDisconnect reason = d₁.emitSocket (.disconnected reason) ∧ d.Towards d₁ := by
  let base : Driver :=
    { d with
      state := ⟨d.state.protocol.resetConnection.2,
        d.state.channels.map fun _ channel => offlineRecord channel, ∅, ∅, ∅, ∅,
        d.state.nextPayloadId, d.state.socketStatus⟩
      connection := .none }
  have hdown : ∀ (d : Driver) (topic : Topic), d.Works (d.emitChannel topic .disconnected) :=
    fun d _ => (Works.refl d).emitChannel
  have hcut : ∀ (d : Driver) (event : ProtocolEvent), d.Works (d.reportInterrupted event) := by
    intro d event
    unfold reportInterrupted
    split
    · exact (Works.refl d).emitChannel
    · exact .refl d
  have hw : base.Works (d.state.protocol.resetConnection.1.foldl reportInterrupted
      (d.state.channels.keys.foldl (fun d topic => d.emitChannel topic .disconnected)
        (base.emitAll (interruptions d.state d.clock)))) :=
    Works.foldl hcut _ (Works.foldl hdown _
      ((Works.refl base).emitAll (routine_interruptions d.state d.clock)))
  exact ⟨_, rfl, hw.attempt, hw.clock, (Emits.of_trace rfl).trans hw.emits⟩

end

end Driver
end PhoenixChannel.Client
