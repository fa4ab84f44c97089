import PhoenixChannel.Client.ProtocolMoves
import PhoenixChannel.Client.Traces

/-! What handlers leave alone of the connection.

A handler works on channels and requests. `Works d d'` says that from `d` to `d'` nothing else
changed: the loop is in the same phase, no time passed, no event of the socket was reported, the
heartbeat is as it was, no timer was started that is due already, and a deadline only for a
reference that was handed out meanwhile. Only the loop itself and the heartbeat do more. -/
namespace PhoenixChannel.Client
open PhoenixChannel.Runtime Library

/-- The event of the socket that an effect tells the subscribers of. -/
def Effect.socketEvent : Effect → Option SocketEvent
  | .deliveredSocket event => some event
  | _ => none

/-- The event of the socket that an effect tells the hook of. -/
def Effect.socketReport : Effect → Option SocketEvent
  | .telemetry (.socket event) => some event
  | _ => none

/-- The effect tells nobody of the socket. -/
def Effect.Routine (effect : Effect) : Prop :=
  effect.socketEvent = none ∧ effect.socketReport = none

/-- The heartbeat under way, and when the next thing is due to happen to it. -/
def Connection.heartbeat (connection : Connection) : Option Reference × Duration :=
  (connection.heartbeatReference, connection.heartbeatDue)

namespace Driver

/-- The reference was not in use at `d` yet. That is said of protocols whose counter does not wrap
around from `d` to `d'`. -/
def Unused (d d' : Driver) (r : Reference) : Prop :=
  d.state.protocol.Numbered → d'.state.protocol.allocated < 2 ^ 64 → ¬ d.state.protocol.Issued r

/-- From `d` to `d'` the driver worked on its channels and requests only. -/
structure Works (d d' : Driver) : Prop where
  phase : d'.phase = d.phase
  attempt : d'.attempt = d.attempt
  clock : d'.clock = d.clock
  status : d'.state.socketStatus = d.state.socketStatus
  heartbeat : d'.connection.heartbeat = d.connection.heartbeat
  rejoins : ∀ timer ∈ d'.connection.rejoins, timer ∈ d.connection.rejoins ∨ d.clock ≤ timer.due
  deadlines : ∀ timer ∈ d'.connection.operationTimeouts,
    timer ∈ d.connection.operationTimeouts ∨
      timer.due = d.clock + timer.value.duration ∧ d.Unused d' timer.value.reference
  moved : d.Moved d'
  emits : d.Emits Effect.Routine d'

section
variable {d d' d'' : Driver} {topic : Topic} {env : Env}

theorem Works.refl (d : Driver) : d.Works d where
  phase := rfl
  attempt := rfl
  clock := rfl
  status := rfl
  heartbeat := rfl
  rejoins _ h := .inl h
  deadlines _ h := .inl h
  moved := .refl
  emits := .refl ..

theorem Works.trans (h : d.Works d') (h' : d'.Works d'') : d.Works d'' where
  phase := h'.phase.trans h.phase
  attempt := h'.attempt.trans h.attempt
  clock := h'.clock.trans h.clock
  status := h'.status.trans h.status
  heartbeat := h'.heartbeat.trans h.heartbeat
  rejoins timer hm := by
    rcases h'.rejoins timer hm with hm | hd
    · exact h.rejoins timer hm
    · exact .inr (h.clock ▸ hd)
  deadlines timer hm := by
    rcases h'.deadlines timer hm with hm | ⟨hd, hu⟩
    · rcases h.deadlines timer hm with hm | ⟨hd, hu⟩
      · exact .inl hm
      · exact .inr ⟨hd, fun hn hb => hu hn (Nat.lt_of_le_of_lt h'.moved.grows hb)⟩
    · refine .inr ⟨h.clock ▸ hd, fun hn hb hi => ?_⟩
      have hn' := hn.moves h.moved (Nat.lt_of_le_of_lt h'.moved.grows hb)
      exact hu hn' hb (hi.mono h.moved.grows)
  moved := h.moved.trans h'.moved
  emits := h.emits.trans h'.emits

/-- Work on the tables of the state, that is. -/
theorem Works.tables (h : d.Works d') (hph : d''.phase = d'.phase) (ha : d''.attempt = d'.attempt)
    (hcl : d''.clock = d'.clock) (hs : d''.state.socketStatus = d'.state.socketStatus)
    (hc : d''.connection = d'.connection) (hm : d'.Moved d'') (ht : d''.trace = d'.trace) : d.Works d'' :=
  h.trans
    { phase := hph, attempt := ha, clock := hcl, status := hs
      heartbeat := by rw [hc]
      rejoins := fun timer hm => .inl (by rw [← hc]; exact hm)
      deadlines := fun timer hm => .inl (by rw [← hc]; exact hm)
      moved := hm
      emits := .of_trace ht }

theorem Works.emitAll (h : d.Works d') {effects : List Effect}
    (he : ∀ effect ∈ effects, effect.Routine) : d.Works (d'.emitAll effects) :=
  h.trans { Works.refl d' with emits := (Emits.refl _ d').emitAll he }

theorem Works.setRecord (h : d.Works d') {channel : ChannelRecord} :
    d.Works (d'.setRecord topic channel) :=
  h.tables rfl rfl rfl rfl rfl .refl rfl

theorem Works.setProtocol (h : d.Works d') {p : Protocol} (hm : Protocol.Move d'.state.protocol p) :
    d.Works (d'.setProtocol p) :=
  h.tables rfl rfl rfl rfl rfl (.single hm) rfl

theorem Works.setStatus (h : d.Works d') {status : ChannelStatus} :
    d.Works (d'.setStatus topic status) := by
  cases hr : d'.record topic with
  | none =>
    rw [setStatus_of_none hr]
    exact h
  | some channel =>
    rw [setStatus_of_some hr]
    exact h.setRecord

theorem Works.discardChannel (h : d.Works d') : d.Works (d'.discardChannel topic) :=
  h.setProtocol (.discardChannel topic)

theorem Works.eraseJoin (h : d.Works d') {reference : Reference} :
    d.Works (d'.eraseJoin reference) :=
  h.tables rfl rfl rfl rfl rfl .refl rfl

theorem Works.eraseLeave (h : d.Works d') {reference : Reference} :
    d.Works (d'.eraseLeave reference) :=
  h.tables rfl rfl rfl rfl rfl .refl rfl

theorem Works.forgetJoins (h : d.Works d') : d.Works (d'.forgetJoins topic) :=
  h.tables rfl rfl rfl rfl rfl .refl rfl

/-! ### What is told of channels and requests

None of it is an event of the socket. -/

theorem routine_channelEffects (d : Driver) (topic : Topic) (event : ChannelEvent) :
    ∀ effect ∈ d.channelEffects topic event, effect.Routine := by
  intro effect hm
  unfold channelEffects at hm
  split at hm
  · rcases List.mem_pair.mp hm with rfl | rfl
    · exact ⟨rfl, rfl⟩
    · exact ⟨rfl, rfl⟩
  · cases List.mem_singleton.mp hm
    exact ⟨rfl, rfl⟩

theorem routine_answers {α : Type} (operation : ClientOperation) (requests : List α) (id : α → RequestId)
    (result : α → Except ClientError Success) :
    ∀ effect ∈ requests.map fun request => Effect.answered operation (id request) (result request),
      effect.Routine := by
  intro effect hm
  obtain ⟨request, -, rfl⟩ := List.mem_map.mp hm
  exact ⟨rfl, rfl⟩

theorem routine_leaveAnswers (pending : Option PendingLeave) (result : Except ClientError Success) :
    ∀ effect ∈ leaveAnswers pending result, effect.Routine := by
  intro effect hm
  obtain ⟨leave, -, -, rfl⟩ := mem_leaveAnswers hm
  exact ⟨rfl, rfl⟩

theorem routine_stopEffects (topic : Topic) (clock : Duration) (channel : ChannelRecord) :
    ∀ effect ∈ stopEffects topic clock channel, effect.Routine := by
  intro effect hm
  simp only [stopEffects, List.mem_append, List.mem_map, List.mem_filterMap] at hm
  rcases hm with ((hm | ⟨id, -, rfl⟩) | ⟨push, -, rfl⟩) | ⟨push, -, hm⟩
  · exact routine_leaveAnswers _ _ effect hm
  · exact ⟨rfl, rfl⟩
  · exact ⟨rfl, rfl⟩
  · cases push with
    | call id event payload started =>
      cases hm
      exact ⟨rfl, rfl⟩
    | cast id event payload => cases hm

theorem Works.emitChannel (h : d.Works d') {event : ChannelEvent} :
    d.Works (d'.emitChannel topic event) := by
  rw [emitChannel_eq]
  exact h.emitAll (routine_channelEffects d' topic event)

theorem Works.answerAll (h : d.Works d') {operation : ClientOperation} {ids : List RequestId}
    {result : Except ClientError Success} :
    d.Works (d'.emitAll (ids.map fun id => .answered operation id result)) :=
  h.emitAll (routine_answers operation ids (fun id => id) fun _ => result)

theorem Works.answer (h : d.Works d') {operation : ClientOperation} {id : RequestId}
    {result : Except ClientError Success} : d.Works (d'.answer operation id result) :=
  h.emitAll (routine_answers operation [id] (fun id => id) fun _ => result)

theorem Works.answerLeave (h : d.Works d') {pending : Option PendingLeave}
    {result : Except ClientError Success} : d.Works (d'.answerLeave pending result) := by
  rw [answerLeave_eq]
  exact h.emitAll (routine_leaveAnswers pending result)

theorem Works.stopChannel (h : d.Works d') : d.Works (d'.stopChannel topic) := by
  cases hr : d'.record topic with
  | none =>
    rw [stopChannel_of_none hr]
    exact h
  | some channel =>
    rw [stopChannel_of_some hr]
    exact h.setRecord.emitAll (routine_stopEffects topic d'.clock channel)

theorem Works.unregister (h : d.Works d') : d.Works (d'.unregister topic) := by
  have hstop : d.Works (d'.stopChannel topic) := h.stopChannel
  unfold Driver.unregister
  exact hstop.tables rfl rfl rfl rfl rfl (.single (.discardChannel topic)) rfl

theorem Works.register (h : d.Works d') : d.Works (d'.register env topic) := by
  unfold Driver.register
  split
  · exact h
  · exact h.setRecord

theorem Works.queue (h : d.Works d') {push : QueuedPush} : d.Works (d'.queue env topic push) := by
  rcases queue_cases env d' topic push with ⟨error, -, he⟩ | ⟨channel, -, -, -, he⟩
  · rw [he]
    exact h.answer
  · rw [he]
    exact h.setRecord

/-! ### Loads, timers and frames

A timer that is started is due at the earliest now, and a deadline is for a reference that is new. -/

theorem Works.loadPayload (h : d.Works d') : d.Works (d'.loadPayload topic) := by
  rcases loadPayload_cases d' topic with ⟨-, he⟩ | ⟨channel, -, -, -, -, he⟩
  · rw [he]
    exact h
  · rw [he]
    have hload : d.Works (d'.trackLoad topic channel) :=
      h.trans { Works.refl d' with moved := .refl, emits := .of_trace rfl }
    refine hload.emitAll fun effect hm => ?_
    cases List.mem_singleton.mp hm
    exact ⟨rfl, rfl⟩

theorem Works.startLoad (h : d.Works d') : d.Works (d'.startLoad topic) :=
  h.setStatus.loadPayload

/-- A rejoin timer is started for a delay. -/
theorem Works.scheduleRejoin (h : d.Works d') : d.Works (d'.scheduleRejoin env topic) := by
  rcases scheduleRejoin_cases env d' topic with ⟨-, he⟩ | ⟨channel, -, -, -, he⟩
  · rw [he]
    exact h
  · rw [he]
    refine h.trans { Works.refl d' with rejoins := fun timer hm => ?_, emits := .of_trace rfl }
    rcases List.mem_append.mp hm with hm | hm
    · exact .inl hm
    · cases List.mem_singleton.mp hm
      exact .inr (Nat.le_add_right ..)

/-- A deadline is set for the request that was just made, with whatever is put into the tables for it. -/
theorem Works.timed (h : d.Works d') {state : DriverState} (operation : OperationTimeout)
    (hs : state.socketStatus = d'.state.socketStatus)
    (hm : Protocol.Move d'.state.protocol state.protocol)
    (ha : state.protocol.allocated = d'.state.protocol.allocated + 1)
    (hr : operation.reference = d'.state.protocol.nextText) :
    d.Works { d' with
      state
      connection := { d'.connection with
        operationTimeouts := d'.connection.operationTimeouts ++
          [⟨d'.clock + operation.duration, operation⟩] } } := by
  refine h.trans
    { Works.refl d' with
      status := hs, deadlines := fun timer hm => ?_, moved := .single hm, emits := .of_trace rfl }
  rcases List.mem_append.mp hm with hm | hm
  · exact .inl hm
  · cases List.mem_singleton.mp hm
    refine .inr ⟨rfl, fun hn hb => ?_⟩
    rw [hr]
    exact Protocol.not_issued_nextText hn.unwrapped (ha ▸ hb)

theorem Works.sendFrame (h : d.Works d') {served : List RequestId} {frame : Frame} :
    d.Works (d'.sendFrame env served frame).1 := by
  obtain ⟨events, hevents, ht⟩ := sendFrame_reports env d' served frame
  obtain ⟨effects, transport, he⟩ := sendFrame_driver env d' served frame
  have hroutine : ∀ effect ∈ .outgoing served frame :: events.map Effect.telemetry, effect.Routine := by
    intro effect hm
    rcases List.mem_cons.mp hm with rfl | hm
    · exact ⟨rfl, rfl⟩
    · obtain ⟨event, hevent, rfl⟩ := List.mem_map.mp hm
      obtain ⟨binary, bytes, rfl⟩ := hevents event hevent
      exact ⟨rfl, rfl⟩
  refine h.trans ?_
  exact
    { phase := sendFrame_phase ..
      attempt := by rw [he]; rfl
      clock := sendFrame_clock ..
      status := by rw [sendFrame_state]
      heartbeat := by rw [sendFrame_connection]
      rejoins := fun timer hm => .inl (by rw [sendFrame_connection] at hm; exact hm)
      deadlines := fun timer hm => .inl (by rw [sendFrame_connection] at hm; exact hm)
      moved := moved_of_eq (by rw [sendFrame_state])
      emits := ⟨_, ht, hroutine⟩ }

/-! ### Pushes and leaves

What is started for them is a deadline at most. -/

theorem Works.sendPush (h : d.Works d') {push : QueuedPush} :
    d.Works (d'.sendPush env topic push).1 := by
  cases push_handled env d' topic push with
  | refusedCall id event payload started hb he =>
    rw [he]
    refine h.emitAll fun effect hm => ?_
    rcases List.mem_pair.mp hm with rfl | rfl
    · exact ⟨rfl, rfl⟩
    · exact ⟨rfl, rfl⟩
  | refusedCast id event payload hb he =>
    rw [he]
    exact h.answer
  | notJoined push hj he =>
    rw [he]
    exact h
  | call id event payload started joinRef hb hj he =>
    rw [he]
    have htrack : d.Works (d'.trackCall topic id event payload started) :=
      h.tables rfl rfl rfl rfl rfl (.single (.push topic event payload)) rfl
    exact htrack.sendFrame
  | cast id event payload joinRef sent hb hj hs he =>
    rw [he, hs]
    exact h.sendFrame.answer

theorem works_flush (env : Env) (d : Driver) (topic : Topic) : d.Works (d.flush env topic).1 :=
  flush_induction Works.refl (fun _ _ _ h h' => h.trans h')
    (fun d _ _ _ _ _ => (Works.refl d).setRecord.sendPush) d

theorem Works.flush (h : d.Works d') : d.Works (d'.flush env topic).1 :=
  h.trans (works_flush env d' topic)

theorem Works.sendLeave (h : d.Works d') {pending : PendingLeave} :
    d.Works (d'.sendLeave env topic pending).1 := by
  cases hj : d'.state.protocol.joinedRef topic with
  | none =>
    obtain ⟨e, he⟩ := sendLeave_of_not_joined env pending hj
    rw [he]
    have hm : d'.Moved (d'.sendLeave env topic pending).1 := sendLeave_moved env d' topic pending
    rw [he] at hm
    exact h.tables rfl rfl rfl rfl rfl hm rfl
  | some joinRef =>
    obtain ⟨channel, hc, hs⟩ := Protocol.joinedRef_eq_some.mp hj
    rw [sendLeave_of_joined hc hs.1]
    have hleave := Protocol.leave_of_joined hc hs.1
    have htrack : d.Works (d'.trackLeave topic pending) :=
      h.timed (.leave topic d'.state.protocol.nextText pending.timeout) rfl (.leave topic)
        (by rw [hleave]) rfl
    exact htrack.sendFrame

/-! ### Timers and payload results

Taking a timer off its list starts none, and what its handler starts lies ahead. -/

variable {reference : Reference} {response : Payload}

theorem Works.takePayload (h : d.Works d') {payloadId : UInt64} :
    d.Works (d'.takePayload topic payloadId) :=
  h.trans { Works.refl d' with moved := .refl, emits := .of_trace rfl }

theorem Works.takeRejoin (h : d.Works d') {timer : Timer Topic} : d.Works (d'.takeRejoin timer) :=
  h.trans { Works.refl d' with
    rejoins := fun _ hm => .inl (List.mem_of_mem_erase hm), emits := .of_trace rfl }

theorem Works.takeOperationTimeout (h : d.Works d') {timer : Timer OperationTimeout} :
    d.Works (d'.takeOperationTimeout timer) :=
  h.trans { Works.refl d' with
    deadlines := fun _ hm => .inl (List.mem_of_mem_erase hm), emits := .of_trace rfl }

theorem works_handlePayload (env : Env) (d : Driver) (topic : Topic) (payloadId : UInt64)
    (payload : Except String Value) : d.Works (d.handlePayload env topic payloadId payload).1 := by
  cases payload_handled env d topic payloadId payload with
  | ignored h he =>
    rw [he]
    exact .refl d
  | late channel hr ha h he =>
    rw [he]
    exact (Works.refl d).setRecord
  | failed message channel hp hr ha he =>
    rw [he]
    exact (Works.refl d).setRecord.answerAll.emitChannel
  | joined value channel d₁ hp hr ha hd hs hd₁ hs₁ he =>
    rw [he]
    have hfirst : d.Works d₁ := by
      rcases hd₁ with rfl | ⟨-, rfl⟩
      · exact .refl d₁
      · exact (Works.refl d).discardChannel
    have hjoin : d₁.state.protocol.rejoin topic value = d₁.state.protocol.join topic value :=
      Protocol.rejoin_of_unknown hs₁
    have htrack : d.Works (d₁.trackJoin topic value channel.loaded) :=
      hfirst.timed (.join topic d₁.state.protocol.nextText channel.joinTimeout) rfl
        (by rw [← hjoin]; exact .rejoin topic value) (by rw [Protocol.join_of_unknown hs₁]) rfl
    exact htrack.sendFrame

theorem Works.handleRejoin (h : d.Works d') : d.Works (d'.handleRejoin topic) := by
  unfold Driver.handleRejoin
  cases d'.record topic with
  | none => exact h
  | some channel =>
    dsimp only
    split
    · exact h.setRecord.loadPayload
    · exact h.setRecord

theorem Works.joinTimedOut (h : d.Works d') {duration : Duration} :
    d.Works (d'.joinTimedOut env topic duration) := by
  cases hr : d'.record topic with
  | none =>
    rw [joinTimedOut_of_none hr]
    exact h.discardChannel
  | some channel =>
    cases hp : channel.deferredLeave with
    | some pending =>
      rw [joinTimedOut_of_deferred hr hp]
      exact h.discardChannel.setRecord.answerLeave
    | none =>
      cases hd : channel.desired with
      | true =>
        rw [joinTimedOut_of_wanted hr hp hd]
        exact h.discardChannel.setRecord.answerAll.scheduleRejoin
      | false =>
        rw [joinTimedOut_of_unwanted hr hp hd]
        exact h.discardChannel.setRecord

theorem Works.leaveTimedOut (h : d.Works d') {pending : PendingLeave} {duration : Duration} :
    d.Works (d'.leaveTimedOut topic pending duration) := by
  cases hr : d'.record topic with
  | none =>
    rw [leaveTimedOut_of_none hr]
    exact h.answerLeave.discardChannel
  | some channel =>
    rw [leaveTimedOut_of_some hr]
    dsimp only
    split
    · exact h.answerLeave.discardChannel.setStatus.loadPayload
    · exact h.answerLeave.discardChannel.setStatus

theorem Works.handleOperationTimeout (h : d.Works d') (operation : OperationTimeout) :
    d.Works (d'.handleOperationTimeout env operation) := by
  cases operation with
  | join topic reference duration =>
    simp only [Driver.handleOperationTimeout]
    split
    · exact h.eraseJoin.joinTimedOut
    · exact h.eraseJoin
  | leave topic reference duration =>
    simp only [Driver.handleOperationTimeout]
    split
    · exact h
    · exact h.eraseLeave.leaveTimedOut

/-! ### Events

The reply to the heartbeat is the one event that is about the connection. -/

theorem Works.onJoined (h : d.Works d') : d.Works (d'.onJoined env topic reference response).1 := by
  cases hr : d'.record topic with
  | none =>
    rw [onJoined_of_none hr]
    exact h.eraseJoin.emitChannel.flush
  | some channel =>
    have hwelcome : d.Works (d'.welcome topic reference response channel) :=
      h.eraseJoin.setRecord.answerAll.emitChannel
    cases hp : channel.deferredLeave with
    | some pending =>
      rw [onJoined_of_deferred hr hp]
      exact hwelcome.sendLeave
    | none =>
      rw [onJoined_of_not_deferred hr hp]
      exact hwelcome.flush

theorem Works.onJoinError (h : d.Works d') : d.Works (d'.onJoinError env topic reference response) := by
  cases hr : d'.record topic with
  | none =>
    rw [onJoinError_of_none hr]
    exact h.eraseJoin.emitChannel
  | some channel =>
    rw [onJoinError_of_some hr]
    refine Works.scheduleRejoin (Works.emitChannel (h.eraseJoin.setRecord.emitAll fun effect hm => ?_))
    rcases List.mem_append.mp hm with hm | hm
    · exact routine_leaveAnswers _ _ effect hm
    · exact routine_answers .join channel.joinWaiters (fun id => id) (fun _ => _) effect hm

theorem Works.onReply (h : d.Works d') {event : String} {status : ReplyStatus} :
    d.Works (d'.onReply topic event reference status response) := by
  cases hc : d'.state.pendingCalls[reference]? with
  | none =>
    rw [onReply_of_none hc]
    exact h.emitChannel
  | some call =>
    rw [onReply_of_some hc]
    have hsettled : d.Works (d'.callSettled reference call status response) := by
      have herased : d.Works { d' with
          state := { d'.state with pendingCalls := d'.state.pendingCalls.erase reference } } :=
        h.tables rfl rfl rfl rfl rfl .refl rfl
      refine herased.emitAll fun effect hm => ?_
      rcases List.mem_pair.mp hm with rfl | rfl
      · exact ⟨rfl, rfl⟩
      · exact ⟨rfl, rfl⟩
    exact hsettled.emitChannel

theorem Works.onLeft (h : d.Works d') : d.Works (d'.onLeft topic reference response) := by
  have hsettled : d.Works (d'.leaveSettled reference response) :=
    h.eraseLeave.emitAll (routine_leaveAnswers _ _)
  cases hr : d'.record topic with
  | none =>
    rw [onLeft_of_none hr]
    exact hsettled.emitChannel
  | some channel =>
    rw [onLeft_of_some hr]
    split
    · exact hsettled.setRecord.emitChannel.loadPayload
    · exact hsettled.setRecord.emitChannel

theorem Works.onChannelError (h : d.Works d') : d.Works (d'.onChannelError env topic response) :=
  h.forgetJoins.setStatus.emitChannel.scheduleRejoin

theorem Works.onChannelClosed (h : d.Works d') : d.Works (d'.onChannelClosed topic response) := by
  cases hr : d'.record topic with
  | none =>
    rw [onChannelClosed_of_none hr]
    exact h.forgetJoins.emitChannel
  | some channel =>
    have hrec : (d'.forgetJoins topic).record topic = some channel := hr
    simp only [Driver.onChannelClosed, hrec]
    exact h.forgetJoins.setRecord.emitChannel.stopChannel

/-- The driver once its heartbeat was acknowledged. -/
def restHeartbeat (env : Env) (d : Driver) : Driver :=
  { d with
    connection := { d.connection with
      heartbeatReference := none, heartbeatDue := d.clock + env.options.heartbeatInterval } }

/-- An acknowledgement answers a ping, or it is about the heartbeat. -/
theorem onHeartbeatAck_cases (d : Driver) (reference : Reference) :
    d.Works (d.onHeartbeatAck reference) ∨
      d.connection.heartbeatReference = some reference ∧
        d.onHeartbeatAck reference =
          { d with connection := { d.connection with heartbeatReference := none } } := by
  unfold onHeartbeatAck
  by_cases h : d.connection.heartbeatReference = some reference
  · rw [if_pos h]
    exact .inr ⟨h, rfl⟩
  · rw [if_neg h]
    refine .inl ?_
    cases d.state.pendingPings[reference]? with
    | none => exact .refl d
    | some ping =>
      have herased : d.Works { d with
          state := { d.state with pendingPings := d.state.pendingPings.erase reference } } :=
        (Works.refl d).tables rfl rfl rfl rfl rfl .refl rfl
      exact herased.answer

theorem handleEvent_cases (env : Env) (d : Driver) (event : ProtocolEvent) :
    d.Works (d.handleEvent env event).1 ∨
      ∃ reference response, event = .heartbeatAck reference response ∧
        d.connection.heartbeatReference = some reference ∧
        d.handleEvent env event =
          ({ d with connection := { d.connection with heartbeatReference := none } }, none) := by
  cases event with
  | joined topic reference response => exact .inl (Works.refl d).onJoined
  | joinError topic reference response => exact .inl (Works.refl d).onJoinError
  | reply topic name reference status response => exact .inl (Works.refl d).onReply
  | left topic reference response => exact .inl (Works.refl d).onLeft
  | channelError topic payload => exact .inl (Works.refl d).onChannelError
  | channelClosed topic payload => exact .inl (Works.refl d).onChannelClosed
  | message frame | staleMessage frame | unmatchedReply frame => exact .inl (Works.refl d).emitChannel
  | requestInterrupted topic event reference => exact .inl (Works.refl d).emitChannel
  | heartbeatAck reference response =>
    rcases onHeartbeatAck_cases d reference with h | ⟨hr, he⟩
    · exact .inl h
    · refine .inr ⟨reference, response, rfl, hr, ?_⟩
      simp only [handleEvent, he]

/-- The message acknowledges the heartbeat that is under way. -/
def Acknowledges (env : Env) (d : Driver) (message : WireMessage) : Prop :=
  ∃ frame reference response, env.codec.decode message = .ok frame ∧
    (d.state.protocol.receive frame).1 = .ok (.heartbeatAck reference response) ∧
    d.connection.heartbeatReference = some reference

/-- **A message is handled within the connection**, but for the acknowledgement of the heartbeat. -/
theorem onMessage_cases (env : Env) (d : Driver) (message : WireMessage) :
    d.Works (d.onMessage env message).1 ∨
      d.Acknowledges env message ∧
        ∃ d₁, d.Works d₁ ∧ d.onMessage env message = (d₁.restHeartbeat env, none) := by
  have hkept : ∀ r : Result, d.handleIncoming env message = r → d.Works r.1 →
      d.Works (d.onMessage env message).1 := by
    intro r hr hw
    rcases r with ⟨d', _ | reason⟩
    · have hsame : (d.connection.heartbeatReference.isSome && d'.connection.heartbeatReference.isNone) =
          false := by
        have href : d'.connection.heartbeatReference = d.connection.heartbeatReference :=
          congrArg Prod.fst hw.heartbeat
        rw [href]
        cases d.connection.heartbeatReference <;> rfl
      simp only [onMessage, hr, Result.andThen, hsame, Bool.false_eq_true, if_false]
      exact hw
    · simp only [onMessage, hr, Result.andThen]
      exact hw
  cases hd : env.codec.decode message with
  | error e =>
    refine .inl (hkept (d, some (.protocol e)) ?_ (.refl d))
    simp only [handleIncoming, hd]
  | ok frame =>
    let event : TelemetryEvent :=
      .frameReceived frame.topic frame.event message.metadata.1 message.metadata.2
    have hreport : d.Works (d.emitAll [.telemetry event]) := by
      refine (Works.refl d).emitAll fun effect hm => ?_
      cases List.mem_singleton.mp hm
      exact ⟨rfl, rfl⟩
    have hi : d.handleIncoming env message = (d.emitAll [.telemetry event]).handleFrame env frame := by
      simp only [handleIncoming, hd]
      rfl
    have hmove := Protocol.Move.receive (p := d.state.protocol) frame
    rcases hrec : d.state.protocol.receive frame with ⟨e | protocolEvent, p⟩ <;> rw [hrec] at hmove
    · refine .inl (hkept _ hi ?_)
      have hrec' : (d.emitAll [.telemetry event]).state.protocol.receive frame = (.error e, p) := hrec
      simp only [handleFrame, hrec']
      exact hreport.setProtocol hmove
    have hrec' : (d.emitAll [.telemetry event]).state.protocol.receive frame = (.ok protocolEvent, p) := hrec
    have hreceived : d.Works ((d.emitAll [.telemetry event]).setProtocol p) :=
      hreport.setProtocol hmove
    have hh : d.handleIncoming env message =
        ((d.emitAll [.telemetry event]).setProtocol p).handleEvent env protocolEvent := by
      rw [hi]
      simp only [handleFrame, hrec']
    rcases handleEvent_cases env ((d.emitAll [.telemetry event]).setProtocol p) protocolEvent with
      hw | ⟨reference, response, rfl, hr, he⟩
    · exact .inl (hkept _ hh (hreceived.trans hw))
    · have href : d.connection.heartbeatReference = some reference := hr
      refine .inr ⟨⟨frame, reference, response, hd, by rw [hrec], href⟩, _, hreceived, ?_⟩
      have hsome : d.connection.heartbeatReference.isSome = true := by rw [href]; rfl
      simp only [onMessage, hh, he, Result.andThen, hsome, Option.isNone_none, Bool.and_self, if_true]
      rfl

/-! ### Cancellations and commands

`connect`, `disconnect` and `shutdown` are left to the loop. The others are work. -/

theorem routine_cancellation (push : QueuedPush) (topic : Topic) (clock : Duration) :
    ∀ effect ∈ push.cancellation topic clock, effect.Routine :=
  push.forall_cancellation ⟨rfl, rfl⟩ fun _ _ => ⟨rfl, rfl⟩

theorem Works.cancelJoin (h : d.Works d') {channel : ChannelRecord} {id : RequestId} :
    d.Works (d'.cancelJoin topic channel id) := by
  have hroutine : ∀ effect ∈ [Effect.cancelled .join id], effect.Routine :=
    List.forall_mem_singleton.mpr ⟨rfl, rfl⟩
  by_cases hw : channel.joinWaiters.erase id = [] ∧ channel.everJoined = false
  · rw [cancelJoin_of_last hw.1 hw.2]
    exact (h.setRecord.emitAll hroutine).forgetJoins.discardChannel
  · rw [cancelJoin_of_others hw]
    exact h.setRecord.emitAll hroutine

theorem Works.cancelUnsent (h : d.Works d') {channel : ChannelRecord} {id : RequestId} :
    d.Works (d'.cancelUnsent topic channel id) := by
  cases d'.cancelUnsent_cases topic channel id with
  | leave pending hd hid he =>
    rw [he]
    refine h.setRecord.emitAll fun effect hm => ?_
    split at hm
    · cases List.mem_singleton.mp hm
      exact ⟨rfl, rfl⟩
    · cases hm
  | push push hf he =>
    rw [he]
    exact h.setRecord.emitAll (routine_cancellation push topic d'.clock)
  | nothing hd hq he =>
    rw [he]
    exact h

theorem Works.cancelPending (h : d.Works d') {id : RequestId} : d.Works (d'.cancelPending id) := by
  have hcall : ∀ d' : Driver, d.Works d' → d.Works (d'.cancelCall id) := by
    intro d' h
    rcases cancelCall_cases d' id with he | ⟨reference, call, -, -, he⟩
    · rw [he]
      exact h
    · rw [he]
      have herased : d.Works { d' with
          state := { d'.state with pendingCalls := d'.state.pendingCalls.erase reference } } :=
        h.tables rfl rfl rfl rfl rfl .refl rfl
      refine Works.setProtocol (herased.emitAll fun effect hm => ?_) (.forgetPush reference)
      rcases List.mem_pair.mp hm with rfl | rfl
      · exact ⟨rfl, rfl⟩
      · exact ⟨rfl, rfl⟩
  have hping : ∀ d' : Driver, d.Works d' → d.Works (d'.cancelPing id) := by
    intro d' h
    rcases cancelPing_cases d' id with he | ⟨reference, ping, -, -, he⟩
    · rw [he]
      exact h
    · rw [he]
      have herased : d.Works { d' with
          state := { d'.state with pendingPings := d'.state.pendingPings.erase reference } } :=
        h.tables rfl rfl rfl rfl rfl .refl rfl
      exact (herased.emitAll (List.forall_mem_singleton.mpr ⟨rfl, rfl⟩)).setProtocol (.forgetHeartbeat reference)
  have hleave : ∀ d' : Driver, d.Works d' → d.Works (d'.cancelLeave id) := by
    intro d' h
    rcases cancelLeave_cases d' id with he | ⟨reference, leave, -, -, he⟩
    · rw [he]
      exact h
    · rw [he]
      have hkept : d.Works { d' with
          state := { d'.state with
            pendingLeaves := d'.state.pendingLeaves.insert reference { leave with response := false } } } :=
        h.tables rfl rfl rfl rfl rfl .refl rfl
      refine hkept.emitAll fun effect hm => ?_
      split at hm
      · cases List.mem_singleton.mp hm
        exact ⟨rfl, rfl⟩
      · cases hm
  exact hleave _ (hping _ (hcall d' h))

theorem Works.cancel (h : d.Works d') {id : RequestId} : d.Works (d'.cancel id) := by
  cases d'.cancel_found id with
  | join topic channel hr hm he =>
    rw [he]
    exact h.cancelJoin
  | unsent topic channel hr hm he =>
    rw [he]
    exact h.cancelUnsent
  | pending hj hq he =>
    rw [he]
    exact h.cancelPending

theorem Works.acknowledge (h : d.Works d') : d.Works d'.acknowledge :=
  h.emitAll (List.forall_mem_singleton.mpr ⟨rfl, rfl⟩)

theorem Works.accept (h : d.Works d') {command : Command} : d.Works (d'.accept command) := by
  unfold Driver.accept
  split
  · exact h.emitAll (List.forall_mem_singleton.mpr ⟨rfl, rfl⟩)
  · exact h

theorem Works.handleOfflineLifecycle (h : d.Works d') (command : LifecycleCommand) :
    d.Works (d'.handleOfflineLifecycle env command) := by
  cases command with
  | register topic => exact h.register
  | unregister topic => exact h.unregister
  | cancel id => exact h.cancel

theorem Works.handleOfflineCommand (h : d.Works d') (command : Command) :
    d.Works (d'.handleOfflineCommand env command) := by
  cases command with
  | connect | disconnect | subscribe | subscribeChannel _ | shutdown => exact h
  | ping id => exact h.answer
  | join id topic timeout =>
    simp only [Driver.handleOfflineCommand]
    split
    · exact h.setRecord
    · exact h.answer
  | call id topic event payload started => exact h.queue
  | cast id topic event payload => exact h.queue
  | leave id topic timeout => exact h.setStatus.stopChannel.answer

theorem Works.handleConnectedLifecycle (h : d.Works d') (command : LifecycleCommand) :
    d.Works (d'.handleConnectedLifecycle env command).1 := by
  cases command with
  | register topic => exact h.register
  | cancel id => exact h.cancel
  | unregister topic =>
    simp only [Driver.handleConnectedLifecycle, unregisterConnected]
    have hm := Protocol.Move.leave (p := d'.state.protocol) topic
    split
    · split
      · rename_i hl
        rw [hl] at hm
        exact (h.setProtocol hm).unregister.sendFrame
      · rename_i hl
        rw [hl] at hm
        exact (h.setProtocol hm).unregister
    · exact h.unregister

theorem Works.handleConnectedCommand (h : d.Works d') (command : Command) :
    d.Works (d'.handleConnectedCommand env command).1 := by
  cases command with
  | connect | disconnect | subscribe | subscribeChannel _ | shutdown => exact h
  | ping id =>
    simp only [Driver.handleConnectedCommand, handlePing_eq]
    have htrack : d.Works (d'.trackPing id) := h.tables rfl rfl rfl rfl rfl (.single .heartbeat) rfl
    exact htrack.sendFrame
  | join id topic timeout =>
    simp only [Driver.handleConnectedCommand, handleJoin]
    split
    · exact h.answer
    · split
      · exact h.setRecord.answer
      · exact h.setRecord.loadPayload
  | call id topic event payload started =>
    simp only [Driver.handleConnectedCommand, handlePush]
    split
    · exact h.sendPush
    · exact h.queue
  | cast id topic event payload =>
    simp only [Driver.handleConnectedCommand, handlePush]
    split
    · exact h.sendPush
    · exact h.queue
  | leave id topic timeout =>
    simp only [Driver.handleConnectedCommand]
    cases leave_handled env d' id topic timeout with
    | sent channel hc hs he =>
      rw [he]
      exact h.setStatus.stopChannel.sendLeave
    | deferred channel hs hr he =>
      rw [he]
      exact h.setStatus.stopChannel.setRecord
    | idle hs hj he =>
      rw [he]
      exact h.setStatus.stopChannel.answer

end

end Driver
end PhoenixChannel.Client
