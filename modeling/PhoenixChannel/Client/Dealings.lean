import PhoenixChannel.Client.OneTopic
import PhoenixChannel.Client.Steps
import PhoenixChannel.Client.Unencodable

/-! What handlers send, and whom they tell of the server.

A frame goes out through `sendFrame` alone, which reports it; what the server sent is told to the
subscribers by the handler of its event alone. `Deals env d d'` says that from `d` to `d'` frames may
have gone out and nothing was told. A step that is no more than that deals; `Dealing` names the
others, each with where it told what it was given. -/
namespace PhoenixChannel.Client
open PhoenixChannel.Runtime Library

/-- What an effect tells the subscribers of a topic about the server. -/
def Effect.told : Effect → Option (Topic × ProtocolEvent)
  | .delivered _ (.protocol (.requestInterrupted _ _ _)) => none
  | .delivered topic (.protocol event) => some (topic, event)
  | _ => none

/-- The ping that an effect answers with a success. -/
def Effect.pong : Effect → Option (RequestId × Success)
  | .answered .ping id (.ok success) => some (id, success)
  | _ => none

def Effect.frame : Effect → Option Frame
  | .outgoing _ frame => some frame
  | _ => none

/-- What an effect tells the hook of a frame that went out. -/
def Effect.sentReport : Effect → Option TelemetryEvent
  | .telemetry (.frameSent topic event binary bytes) => some (.frameSent topic event binary bytes)
  | _ => none

/-- What an effect tells the hook of a frame that came in. -/
def Effect.receivedReport : Effect → Option TelemetryEvent
  | .telemetry (.frameReceived topic event binary bytes) => some (.frameReceived topic event binary bytes)
  | _ => none

/-- The effect is about no frame. -/
structure Effect.Inward (effect : Effect) : Prop where
  told : effect.told = none
  pong : effect.pong = none
  frame : effect.frame = none
  sent : effect.sentReport = none
  received : effect.receivedReport = none

/-- What the hook is told of a frame that goes out, if it can be encoded. -/
def Env.sent (env : Env) (frame : Frame) : Option TelemetryEvent :=
  match env.codec.encode frame with
  | .ok message => some (.frameSent frame.topic frame.event message.metadata.1 message.metadata.2)
  | .error _ => none

/-- Effects that send frames a transport carries, each with its report. -/
inductive Wired (env : Env) (binary : Bool) : List Effect → Prop where
  | inward {effects : List Effect} (h : ∀ effect ∈ effects, effect.Inward) : Wired env binary effects
  | frame (served : List RequestId) (frame : Frame) (hb : frame.payload.isBinary = true → binary = true) :
    Wired env binary (.outgoing served frame :: (env.sent frame).toList.map .telemetry)
  | append {effects effects' : List Effect} (h : Wired env binary effects) (h' : Wired env binary effects') :
    Wired env binary (effects ++ effects')

namespace Wired
variable {env : Env} {binary : Bool} {effects : List Effect}

/-- A report of a sent frame is nothing but that. -/
theorem of_sent {frame : Frame} {event : TelemetryEvent} (h : env.sent frame = some event) :
    ∃ binary bytes, event = .frameSent frame.topic frame.event binary bytes := by
  unfold Env.sent at h
  split at h
  · exact ⟨_, _, (Option.some.inj h).symm⟩
  · cases h

/-- Whatever is neither an outgoing frame nor its report does not come from the wire. -/
theorem filterMap_nil {α : Type} {f : Effect → Option α} (h : Wired env binary effects)
    (hinward : ∀ effect : Effect, effect.Inward → f effect = none)
    (hframe : ∀ served frame, f (.outgoing served frame) = none)
    (hreport : ∀ topic event binary bytes, f (.telemetry (.frameSent topic event binary bytes)) = none) :
    effects.filterMap f = [] := by
  induction h with
  | inward hall => exact List.filterMap_eq_nil_iff.mpr fun effect hm => hinward effect (hall effect hm)
  | frame served frame hb =>
    refine List.filterMap_eq_nil_iff.mpr fun effect hm => ?_
    rcases List.mem_cons.mp hm with rfl | hm
    · exact hframe served frame
    · obtain ⟨event, he, rfl⟩ := List.mem_map.mp hm
      obtain ⟨binary, bytes, rfl⟩ := of_sent (Option.mem_toList.mp he)
      exact hreport _ _ _ _
  | append _ _ ih ih' => rw [List.filterMap_append, ih, ih', List.append_nil]

theorem told (h : Wired env binary effects) : effects.filterMap Effect.told = [] :=
  h.filterMap_nil (fun _ hi => hi.told) (fun _ _ => rfl) fun _ _ _ _ => rfl

theorem pong (h : Wired env binary effects) : effects.filterMap Effect.pong = [] :=
  h.filterMap_nil (fun _ hi => hi.pong) (fun _ _ => rfl) fun _ _ _ _ => rfl

theorem received (h : Wired env binary effects) : effects.filterMap Effect.receivedReport = [] :=
  h.filterMap_nil (fun _ hi => hi.received) (fun _ _ => rfl) fun _ _ _ _ => rfl

/-- What was reported is what went out and could be encoded. -/
theorem reported (h : Wired env binary effects) :
    effects.filterMap Effect.sentReport = (effects.filterMap Effect.frame).filterMap env.sent := by
  induction h with
  | inward hall =>
    rw [List.filterMap_eq_nil_iff.mpr fun effect hm => (hall effect hm).sent,
      List.filterMap_eq_nil_iff.mpr fun effect hm => (hall effect hm).frame]
    rfl
  | frame served frame hb =>
    have hnone : ∀ reports : List TelemetryEvent, (reports.map Effect.telemetry).filterMap Effect.frame = [] := by
      intro reports
      refine List.filterMap_eq_nil_iff.mpr fun effect hm => ?_
      obtain ⟨event, -, rfl⟩ := List.mem_map.mp hm
      rfl
    have hsent : Effect.frame (.outgoing served frame) = some frame := rfl
    rw [List.filterMap_cons_none rfl, List.filterMap_cons_some hsent, hnone]
    cases hs : env.sent frame with
    | none => rw [List.filterMap_cons_none hs]; rfl
    | some event =>
      obtain ⟨binary, bytes, rfl⟩ := of_sent hs
      rw [List.filterMap_cons_some hs]
      rfl
  | append _ _ ih ih' => rw [List.filterMap_append, List.filterMap_append, List.filterMap_append, ih, ih']

/-- A frame with a binary payload goes out over a transport that carries it. -/
theorem carried (h : Wired env binary effects) {frame : Frame} (hm : frame ∈ effects.filterMap Effect.frame)
    (hb : frame.payload.isBinary = true) : binary = true := by
  induction h with
  | inward hall =>
    rw [List.filterMap_eq_nil_iff.mpr fun effect hm => (hall effect hm).frame] at hm
    cases hm
  | frame served sent hcarried =>
    obtain ⟨effect, hm, hf⟩ := List.mem_filterMap.mp hm
    rcases List.mem_cons.mp hm with rfl | hm
    · cases hf
      exact hcarried hb
    · obtain ⟨event, -, rfl⟩ := List.mem_map.mp hm
      cases hf
  | append _ _ ih ih' =>
    rw [List.filterMap_append] at hm
    exact (List.mem_append.mp hm).elim ih ih'

end Wired

namespace Driver

/-- From `d` to `d'` frames may have gone out, and nobody was told of the server. -/
structure Deals (env : Env) (d d' : Driver) : Prop where
  clock : d'.clock = d.clock
  binary : d'.transport.supportsBinary = d.transport.supportsBinary
  pings : ∀ (r : Reference) (ping : PendingPing),
    d'.state.pendingPings[r]? = some ping → d.state.pendingPings[r]? = some ping
  wired : ∃ effects, d'.trace = d.trace ++ effects ∧ Wired env d.transport.supportsBinary effects

section
variable {env : Env} {d d' d'' : Driver} {topic : Topic}

theorem Deals.refl (env : Env) (d : Driver) : d.Deals env d where
  clock := rfl
  binary := rfl
  pings _ _ h := h
  wired := ⟨[], (List.append_nil _).symm, .inward (List.forall_mem_nil _)⟩

/-- The first step's pings are the only ones that the second finds. -/
theorem Deals.trans (h : d.Deals env d') (h' : d'.Deals env d'') : d.Deals env d'' where
  clock := h'.clock.trans h.clock
  binary := h'.binary.trans h.binary
  pings r ping hp := h.pings r ping (h'.pings r ping hp)
  wired := by
    obtain ⟨effects, ht, hw⟩ := h.wired
    obtain ⟨effects', ht', hw'⟩ := h'.wired
    rw [h.binary] at hw'
    exact ⟨effects ++ effects', by rw [ht', ht, List.append_assoc], hw.append hw'⟩

/-- Work on the tables. -/
theorem Deals.tables (h : d.Deals env d') (hc : d''.clock = d'.clock) (htr : d''.transport = d'.transport)
    (hp : d''.state.pendingPings = d'.state.pendingPings) (ht : d''.trace = d'.trace) : d.Deals env d'' :=
  h.trans
    { clock := hc
      binary := by rw [htr]
      pings := fun r ping hr => by rwa [hp] at hr
      wired := ⟨[], by rw [ht, List.append_nil], .inward (List.forall_mem_nil _)⟩ }

theorem Deals.emitAll (h : d.Deals env d') {effects : List Effect}
    (he : ∀ effect ∈ effects, effect.Inward) : d.Deals env (d'.emitAll effects) :=
  h.trans { Deals.refl env d' with wired := ⟨effects, rfl, .inward he⟩ }

theorem Deals.setRecord (h : d.Deals env d') {channel : ChannelRecord} :
    d.Deals env (d'.setRecord topic channel) :=
  h.tables rfl rfl rfl rfl

theorem Deals.setProtocol (h : d.Deals env d') {p : Protocol} : d.Deals env (d'.setProtocol p) :=
  h.tables rfl rfl rfl rfl

/-- Subscribers of a status are not told of the server's events. -/
theorem Deals.setStatus (h : d.Deals env d') {status : ChannelStatus} :
    d.Deals env (d'.setStatus topic status) := by
  cases hr : d'.record topic with
  | none =>
    rw [setStatus_of_none hr]
    exact h
  | some channel =>
    rw [setStatus_of_some hr]
    exact h.setRecord

theorem Deals.discardChannel (h : d.Deals env d') : d.Deals env (d'.discardChannel topic) :=
  h.setProtocol

theorem Deals.eraseJoin (h : d.Deals env d') {reference : Reference} :
    d.Deals env (d'.eraseJoin reference) :=
  h.tables rfl rfl rfl rfl

theorem Deals.eraseLeave (h : d.Deals env d') {reference : Reference} :
    d.Deals env (d'.eraseLeave reference) :=
  h.tables rfl rfl rfl rfl

theorem Deals.forgetJoins (h : d.Deals env d') : d.Deals env (d'.forgetJoins topic) :=
  h.tables rfl rfl rfl rfl

/-- A ping that is not waited for any more. -/
theorem Deals.erasePing (h : d.Deals env d') {reference : Reference} :
    d.Deals env { d' with
      state := { d'.state with pendingPings := d'.state.pendingPings.erase reference } } :=
  h.trans { Deals.refl env d' with pings := fun _ _ hr => Table.lookup_of_erase hr }

/-! ### What is told of channels and requests

Answers and status changes are the driver's own. None of them is a frame or an event of the server. -/

/-- A report of a channel event that is not the server's. -/
theorem inward_channelEffects {event : ChannelEvent}
    (he : ∀ event', event = .protocol event' →
      ∃ topic name reference, event' = .requestInterrupted topic name reference) :
    ∀ effect ∈ d.channelEffects topic event, effect.Inward := by
  have hdelivered : (Effect.delivered topic event).Inward := by
    cases event with
    | protocol event' =>
      obtain ⟨t, name, reference, rfl⟩ := he event' rfl
      exact ⟨rfl, rfl, rfl, rfl, rfl⟩
    | _ => exact ⟨rfl, rfl, rfl, rfl, rfl⟩
  intro effect hm
  unfold channelEffects at hm
  split at hm
  · rcases List.mem_pair.mp hm with rfl | rfl
    · exact ⟨rfl, rfl, rfl, rfl, rfl⟩
    · exact hdelivered
  · cases List.mem_singleton.mp hm
    exact ⟨rfl, rfl, rfl, rfl, rfl⟩

/-- An answer that is not the answer to a ping. -/
theorem inward_answered {operation : ClientOperation} {id : RequestId} {result : Except ClientError Success}
    (h : operation ≠ .ping ∨ ∃ error, result = .error error) : (Effect.answered operation id result).Inward := by
  have hpong : (Effect.answered operation id result).pong = none := by
    rcases h with h | ⟨error, rfl⟩
    · cases operation with
      | ping => exact absurd rfl h
      | _ => rfl
    · cases operation <;> rfl
  exact ⟨rfl, hpong, rfl, rfl, rfl⟩

theorem inward_answers {α : Type} {operation : ClientOperation} (h : operation ≠ .ping) (requests : List α)
    (id : α → RequestId) (result : α → Except ClientError Success) :
    ∀ effect ∈ requests.map fun request => Effect.answered operation (id request) (result request),
      effect.Inward := by
  intro effect hm
  obtain ⟨request, -, rfl⟩ := List.mem_map.mp hm
  exact inward_answered (.inl h)

theorem inward_leaveAnswers (pending : Option PendingLeave) (result : Except ClientError Success) :
    ∀ effect ∈ leaveAnswers pending result, effect.Inward := by
  intro effect hm
  obtain ⟨leave, -, -, rfl⟩ := mem_leaveAnswers hm
  exact ⟨rfl, rfl, rfl, rfl, rfl⟩

/-- Interruptions are the client's own: no frame brought them. -/
theorem inward_stopEffects (topic : Topic) (clock : Duration) (channel : ChannelRecord) :
    ∀ effect ∈ stopEffects topic clock channel, effect.Inward := by
  intro effect hm
  simp only [stopEffects, List.mem_append, List.mem_map, List.mem_filterMap] at hm
  rcases hm with ((hm | ⟨id, -, rfl⟩) | ⟨push, -, rfl⟩) | ⟨push, -, hm⟩
  · exact inward_leaveAnswers _ _ effect hm
  · exact inward_answered (.inr ⟨_, rfl⟩)
  · exact inward_answered (.inr ⟨_, rfl⟩)
  · cases push with
    | call id event payload started =>
      cases hm
      exact ⟨rfl, rfl, rfl, rfl, rfl⟩
    | cast id event payload => cases hm

theorem Deals.emitChannel (h : d.Deals env d') {event : ChannelEvent}
    (he : ∀ event', event = .protocol event' →
      ∃ topic name reference, event' = .requestInterrupted topic name reference) :
    d.Deals env (d'.emitChannel topic event) := by
  rw [emitChannel_eq]
  exact h.emitAll (inward_channelEffects he)

theorem Deals.answerAll (h : d.Deals env d') {operation : ClientOperation} (ho : operation ≠ .ping)
    {ids : List RequestId} {result : Except ClientError Success} :
    d.Deals env (d'.emitAll (ids.map fun id => .answered operation id result)) :=
  h.emitAll (inward_answers ho ids (fun id => id) fun _ => result)

theorem Deals.answer (h : d.Deals env d') {operation : ClientOperation} {id : RequestId}
    {result : Except ClientError Success} (ha : operation ≠ .ping ∨ ∃ error, result = .error error) :
    d.Deals env (d'.answer operation id result) :=
  h.emitAll (List.forall_mem_singleton.mpr (inward_answered ha))

theorem Deals.answerLeave (h : d.Deals env d') {pending : Option PendingLeave}
    {result : Except ClientError Success} : d.Deals env (d'.answerLeave pending result) := by
  rw [answerLeave_eq]
  exact h.emitAll (inward_leaveAnswers pending result)

theorem Deals.stopChannel (h : d.Deals env d') : d.Deals env (d'.stopChannel topic) := by
  cases hr : d'.record topic with
  | none =>
    rw [stopChannel_of_none hr]
    exact h
  | some channel =>
    rw [stopChannel_of_some hr]
    exact h.setRecord.emitAll (inward_stopEffects topic d'.clock channel)

theorem Deals.unregister (h : d.Deals env d') : d.Deals env (d'.unregister topic) := by
  have hstop : d.Deals env (d'.stopChannel topic) := h.stopChannel
  unfold Driver.unregister
  exact hstop.tables rfl rfl rfl rfl

theorem Deals.register (h : d.Deals env d') : d.Deals env (d'.register env topic) := by
  unfold Driver.register
  split
  · exact h
  · exact h.setRecord

theorem Deals.queue (h : d.Deals env d') {push : QueuedPush} : d.Deals env (d'.queue env topic push) := by
  rcases queue_cases env d' topic push with ⟨error, -, he⟩ | ⟨channel, -, -, -, he⟩
  · rw [he]
    exact h.answer (.inr ⟨error, rfl⟩)
  · rw [he]
    exact h.setRecord

/-! ### Loads, timers and frames

A frame that the codec takes is reported in the same breath, and the report is all that is told of
it. -/

theorem Deals.loadPayload (h : d.Deals env d') : d.Deals env (d'.loadPayload topic) := by
  rcases loadPayload_cases d' topic with ⟨-, he⟩ | ⟨channel, -, -, -, -, he⟩
  · rw [he]
    exact h
  · rw [he]
    have hload : d.Deals env (d'.trackLoad topic channel) := h.tables rfl rfl rfl rfl
    exact hload.emitAll (List.forall_mem_singleton.mpr ⟨rfl, rfl, rfl, rfl, rfl⟩)

theorem Deals.startLoad (h : d.Deals env d') : d.Deals env (d'.startLoad topic) :=
  h.setStatus.loadPayload

theorem Deals.scheduleRejoin (h : d.Deals env d') : d.Deals env (d'.scheduleRejoin env topic) := by
  rcases scheduleRejoin_cases env d' topic with ⟨-, he⟩ | ⟨channel, -, -, -, he⟩
  · rw [he]
    exact h
  · rw [he]
    exact h.tables rfl rfl rfl rfl

/-- A frame goes out with its report. -/
theorem sendFrame_reported (env : Env) (d : Driver) (served : List RequestId) (frame : Frame) :
    (d.sendFrame env served frame).1.trace =
      d.trace ++ .outgoing served frame :: (env.sent frame).toList.map .telemetry := by
  unfold sendFrame Env.sent
  cases env.codec.encode frame with
  | error message => rfl
  | ok message =>
    simp only [telemetry_eq, emit_eq, emitAll_emitAll, emitAll_transport]
    rcases d.transport.send with ⟨_ | _, transport⟩
    · rfl
    · rfl

theorem Deals.sendFrame (h : d.Deals env d') {served : List RequestId} {frame : Frame}
    (hb : frame.payload.isBinary = true → d'.transport.supportsBinary = true) :
    d.Deals env (d'.sendFrame env served frame).1 :=
  h.trans
    { clock := sendFrame_clock ..
      binary := sendFrame_supportsBinary ..
      pings := fun r ping hr => by rwa [sendFrame_state] at hr
      wired := ⟨_, sendFrame_reported env d' served frame, .frame served frame hb⟩ }

/-- A frame without a binary payload goes out over any transport. -/
theorem Deals.sendPlain (h : d.Deals env d') {served : List RequestId} {frame : Frame}
    (hb : frame.payload.isBinary = false) : d.Deals env (d'.sendFrame env served frame).1 :=
  h.sendFrame fun hbinary => absurd hbinary (by rw [hb]; exact Bool.false_ne_true)

/-! ### Pushes and leaves

What they send besides is told to whoever asked for it, and to nobody as an event. -/

/-- A push goes out in one frame, with its report, or not at all. -/
theorem Deals.sendPush (h : d.Deals env d') {push : QueuedPush} :
    d.Deals env (d'.sendPush env topic push).1 := by
  have hcarried : ∀ payload : Payload, ¬ (payload.isBinary && !d'.transport.supportsBinary) = true →
      payload.isBinary = true → d'.transport.supportsBinary = true := by
    intro payload hb hbinary
    rw [hbinary, Bool.true_and, Bool.not_eq_true', Bool.not_eq_false] at hb
    exact hb
  cases push_handled env d' topic push with
  | refusedCall id event payload started hb he =>
    rw [he]
    refine h.emitAll fun effect hm => ?_
    rcases List.mem_pair.mp hm with rfl | rfl
    · exact ⟨rfl, rfl, rfl, rfl, rfl⟩
    · exact ⟨rfl, rfl, rfl, rfl, rfl⟩
  | refusedCast id event payload hb he =>
    rw [he]
    exact h.answer (.inr ⟨_, rfl⟩)
  | notJoined push hj he =>
    rw [he]
    exact h
  | call id event payload started joinRef hb hj he =>
    rw [he]
    have htrack : d.Deals env (d'.trackCall topic id event payload started) := h.tables rfl rfl rfl rfl
    exact htrack.sendFrame (hcarried payload hb)
  | cast id event payload joinRef sent hb hj hs he =>
    rw [he, hs]
    exact (h.sendFrame (hcarried payload hb)).answer (.inl ClientOperation.noConfusion)

theorem deals_flush (env : Env) (d : Driver) (topic : Topic) : d.Deals env (d.flush env topic).1 :=
  flush_induction (Deals.refl env) (fun _ _ _ h h' => h.trans h')
    (fun d _ _ _ _ _ => (Deals.refl env d).setRecord.sendPush) d

theorem Deals.flush (h : d.Deals env d') : d.Deals env (d'.flush env topic).1 :=
  h.trans (deals_flush env d' topic)

/-- A leave goes out in one frame, with its report, or not at all. -/
theorem Deals.sendLeave (h : d.Deals env d') {pending : PendingLeave} :
    d.Deals env (d'.sendLeave env topic pending).1 := by
  cases hj : d'.state.protocol.joinedRef topic with
  | none =>
    obtain ⟨e, he⟩ := sendLeave_of_not_joined env pending hj
    rw [he]
    exact h.setProtocol
  | some joinRef =>
    obtain ⟨channel, hc, hs⟩ := Protocol.joinedRef_eq_some.mp hj
    rw [sendLeave_of_joined hc hs.1]
    have htrack : d.Deals env (d'.trackLeave topic pending) := h.tables rfl rfl rfl rfl
    exact htrack.sendPlain rfl

/-! ### Timers and payload results

A join or a leave that is given up is told of as such. That is the driver's own doing. -/

variable {reference : Reference} {response : Payload}

theorem Deals.takePayload (h : d.Deals env d') {payloadId : UInt64} :
    d.Deals env (d'.takePayload topic payloadId) :=
  h.tables rfl rfl rfl rfl

theorem Deals.takeRejoin (h : d.Deals env d') {timer : Timer Topic} : d.Deals env (d'.takeRejoin timer) :=
  h.tables rfl rfl rfl rfl

theorem Deals.takeOperationTimeout (h : d.Deals env d') {timer : Timer OperationTimeout} :
    d.Deals env (d'.takeOperationTimeout timer) :=
  h.tables rfl rfl rfl rfl

/-- The join that follows a load goes out in one frame; a load that failed is told as what it is. -/
theorem deals_handlePayload (env : Env) (d : Driver) (topic : Topic) (payloadId : UInt64)
    (payload : Except String Value) : d.Deals env (d.handlePayload env topic payloadId payload).1 := by
  cases payload_handled env d topic payloadId payload with
  | ignored h he =>
    rw [he]
    exact .refl env d
  | late channel hr ha h he =>
    rw [he]
    exact (Deals.refl env d).setRecord
  | failed message channel hp hr ha he =>
    rw [he]
    exact ((Deals.refl env d).setRecord.answerAll ClientOperation.noConfusion).emitChannel
      fun _ h => by cases h
  | joined value channel d₁ hp hr ha hd hs hd₁ hs₁ he =>
    rw [he]
    have hfirst : d.Deals env d₁ := by
      rcases hd₁ with rfl | ⟨-, rfl⟩
      · exact .refl env d₁
      · exact (Deals.refl env d).discardChannel
    have htrack : d.Deals env (d₁.trackJoin topic value channel.loaded) := hfirst.tables rfl rfl rfl rfl
    exact htrack.sendPlain rfl

/-- A rejoin that comes due loads, and sends nothing yet. -/
theorem Deals.handleRejoin (h : d.Deals env d') : d.Deals env (d'.handleRejoin topic) := by
  unfold Driver.handleRejoin
  cases d'.record topic with
  | none => exact h
  | some channel =>
    dsimp only
    split
    · exact h.setRecord.loadPayload
    · exact h.setRecord

/-- A timeout is the client's own: no frame brought it. -/
theorem Deals.joinTimedOut (h : d.Deals env d') {duration : Duration} :
    d.Deals env (d'.joinTimedOut env topic duration) := by
  cases hr : d'.record topic with
  | none =>
    rw [joinTimedOut_of_none hr]
    exact h.discardChannel
  | some channel =>
    cases hp : channel.deferredLeave with
    | some pending =>
      rw [joinTimedOut_of_deferred hr hp]
      exact h.discardChannel.setRecord.answerLeave
    | none =>
      cases hd : channel.desired with
      | true =>
        rw [joinTimedOut_of_wanted hr hp hd]
        exact (h.discardChannel.setRecord.answerAll ClientOperation.noConfusion).scheduleRejoin
      | false =>
        rw [joinTimedOut_of_unwanted hr hp hd]
        exact h.discardChannel.setRecord

/-- A timeout is the client's own: no frame brought it. -/
theorem Deals.leaveTimedOut (h : d.Deals env d') {pending : PendingLeave} {duration : Duration} :
    d.Deals env (d'.leaveTimedOut topic pending duration) := by
  cases hr : d'.record topic with
  | none =>
    rw [leaveTimedOut_of_none hr]
    exact h.answerLeave.discardChannel
  | some channel =>
    rw [leaveTimedOut_of_some hr]
    dsimp only
    split
    · exact h.answerLeave.discardChannel.setStatus.loadPayload
    · exact h.answerLeave.discardChannel.setStatus

/-- A deadline is the client's own: no frame brought it. -/
theorem Deals.handleOperationTimeout (h : d.Deals env d') (operation : OperationTimeout) :
    d.Deals env (d'.handleOperationTimeout env operation) := by
  cases operation with
  | join topic reference duration =>
    simp only [Driver.handleOperationTimeout]
    split
    · exact h.eraseJoin.joinTimedOut
    · exact h.eraseJoin
  | leave topic reference duration =>
    simp only [Driver.handleOperationTimeout]
    split
    · exact h
    · exact h.eraseLeave.leaveTimedOut

/-- A heartbeat goes out in one frame, with its report. -/
theorem deals_handleHeartbeat (env : Env) (d : Driver) : d.Deals env (d.handleHeartbeat env).1 := by
  by_cases h : d.connection.heartbeatReference.isSome = true
  · rw [handleHeartbeat_of_some h]
    exact .refl env d
  · rw [handleHeartbeat_of_none h]
    have htrack : d.Deals env d.trackHeartbeat := (Deals.refl env d).tables rfl rfl rfl rfl
    have hsend : d.Deals env (d.trackHeartbeat.sendFrame env []
        ⟨none, some d.state.protocol.nextText, "phoenix", "heartbeat", .emptyObject⟩).1 := htrack.sendPlain rfl
    rcases hs : d.trackHeartbeat.sendFrame env []
        ⟨none, some d.state.protocol.nextText, "phoenix", "heartbeat", .emptyObject⟩ with ⟨d', _ | reason⟩
    · rw [hs] at hsend
      exact hsend.tables rfl rfl rfl rfl
    · rw [hs] at hsend
      exact hsend

/-! ### Cancellations and commands

Commands lead to frames, answers and loads. -/

theorem inward_cancellation (push : QueuedPush) (topic : Topic) (clock : Duration) :
    ∀ effect ∈ push.cancellation topic clock, effect.Inward :=
  push.forall_cancellation ⟨rfl, rfl, rfl, rfl, rfl⟩ fun _ _ => ⟨rfl, rfl, rfl, rfl, rfl⟩

theorem inward_cancelled (operation : ClientOperation) (id : RequestId) :
    ∀ effect ∈ [Effect.cancelled operation id], effect.Inward :=
  List.forall_mem_singleton.mpr ⟨rfl, rfl, rfl, rfl, rfl⟩

theorem Deals.cancelJoin (h : d.Deals env d') {channel : ChannelRecord} {id : RequestId} :
    d.Deals env (d'.cancelJoin topic channel id) := by
  by_cases hw : channel.joinWaiters.erase id = [] ∧ channel.everJoined = false
  · rw [cancelJoin_of_last hw.1 hw.2]
    exact (h.setRecord.emitAll (inward_cancelled .join id)).forgetJoins.discardChannel
  · rw [cancelJoin_of_others hw]
    exact h.setRecord.emitAll (inward_cancelled .join id)

/-- What was not sent is taken back without a frame. -/
theorem Deals.cancelUnsent (h : d.Deals env d') {channel : ChannelRecord} {id : RequestId} :
    d.Deals env (d'.cancelUnsent topic channel id) := by
  cases d'.cancelUnsent_cases topic channel id with
  | leave pending hd hid he =>
    rw [he]
    split
    · exact h.setRecord.emitAll (inward_cancelled .leave id)
    · exact h.setRecord.emitAll (List.forall_mem_nil _)
  | push push hf he =>
    rw [he]
    exact h.setRecord.emitAll (inward_cancellation push topic d'.clock)
  | nothing hd hq he =>
    rw [he]
    exact h

/-- What was sent is not taken back on the wire. -/
theorem Deals.cancelCall (h : d.Deals env d') {id : RequestId} : d.Deals env (d'.cancelCall id) := by
  rcases cancelCall_cases d' id with he | ⟨reference, call, -, -, he⟩
  · rw [he]
    exact h
  · rw [he]
    have herased : d.Deals env { d' with
        state := { d'.state with pendingCalls := d'.state.pendingCalls.erase reference } } :=
      h.tables rfl rfl rfl rfl
    refine Deals.setProtocol (herased.emitAll fun effect hm => ?_)
    rcases List.mem_pair.mp hm with rfl | rfl
    · exact ⟨rfl, rfl, rfl, rfl, rfl⟩
    · exact ⟨rfl, rfl, rfl, rfl, rfl⟩

theorem Deals.cancelPing (h : d.Deals env d') {id : RequestId} : d.Deals env (d'.cancelPing id) := by
  rcases cancelPing_cases d' id with he | ⟨reference, ping, -, -, he⟩
  · rw [he]
    exact h
  · rw [he]
    exact (h.erasePing.emitAll (inward_cancelled .ping id)).setProtocol

/-- What was sent is not taken back on the wire. -/
theorem Deals.cancelLeave (h : d.Deals env d') {id : RequestId} : d.Deals env (d'.cancelLeave id) := by
  rcases cancelLeave_cases d' id with he | ⟨reference, leave, -, -, he⟩
  · rw [he]
    exact h
  · rw [he]
    have hkept : d.Deals env { d' with
        state := { d'.state with
          pendingLeaves := d'.state.pendingLeaves.insert reference { leave with response := false } } } :=
      h.tables rfl rfl rfl rfl
    split
    · exact hkept.emitAll (inward_cancelled .leave id)
    · exact hkept.emitAll (List.forall_mem_nil _)

/-- A cancellation sends nothing and tells nobody. -/
theorem Deals.cancel (h : d.Deals env d') {id : RequestId} : d.Deals env (d'.cancel id) := by
  cases d'.cancel_found id with
  | join topic channel hr hm he =>
    rw [he]
    exact h.cancelJoin
  | unsent topic channel hr hm he =>
    rw [he]
    exact h.cancelUnsent
  | pending hj hq he =>
    rw [he]
    exact h.cancelCall.cancelPing.cancelLeave

theorem Deals.acknowledge (h : d.Deals env d') : d.Deals env d'.acknowledge :=
  h.emitAll (List.forall_mem_singleton.mpr ⟨rfl, rfl, rfl, rfl, rfl⟩)

theorem Deals.accept (h : d.Deals env d') {command : Command} : d.Deals env (d'.accept command) := by
  unfold Driver.accept
  split
  · exact h.emitAll (List.forall_mem_singleton.mpr ⟨rfl, rfl, rfl, rfl, rfl⟩)
  · exact h

theorem Deals.handleOfflineLifecycle (h : d.Deals env d') (command : LifecycleCommand) :
    d.Deals env (d'.handleOfflineLifecycle env command) := by
  cases command with
  | register topic => exact h.register
  | unregister topic => exact h.unregister
  | cancel id => exact h.cancel

/-- Without a connection nothing is sent. -/
theorem Deals.handleOfflineCommand (h : d.Deals env d') (command : Command) :
    d.Deals env (d'.handleOfflineCommand env command) := by
  cases command with
  | connect | disconnect | subscribe | subscribeChannel _ | shutdown => exact h
  | ping id => exact h.answer (.inr ⟨_, rfl⟩)
  | join id topic timeout =>
    simp only [Driver.handleOfflineCommand]
    split
    · exact h.setRecord
    · exact h.answer (.inr ⟨_, rfl⟩)
  | call id topic event payload started => exact h.queue
  | cast id topic event payload => exact h.queue
  | leave id topic timeout => exact h.setStatus.stopChannel.answer (.inl ClientOperation.noConfusion)

/-- The handle of a joined channel that is dropped makes a leave go out, and no other lifecycle command a
frame. -/
theorem Deals.handleConnectedLifecycle (h : d.Deals env d') (command : LifecycleCommand) :
    d.Deals env (d'.handleConnectedLifecycle env command).1 := by
  cases command with
  | register topic => exact h.register
  | cancel id => exact h.cancel
  | unregister topic =>
    simp only [Driver.handleConnectedLifecycle]
    by_cases hj : d'.state.protocol.channelState topic = some .joined
    · obtain ⟨channel, hc, hs⟩ := Option.map_eq_some_iff.mp hj
      rw [unregisterConnected_of_joined hc hs]
      exact h.setProtocol.unregister.sendPlain rfl
    · rw [unregisterConnected_of_not_joined hj]
      exact h.unregister

/-- A command that is not a ping. -/
theorem Deals.handleConnectedCommand (h : d.Deals env d') {command : Command}
    (hping : ∀ id, command ≠ .ping id) : d.Deals env (d'.handleConnectedCommand env command).1 := by
  cases command with
  | connect | disconnect | subscribe | subscribeChannel _ | shutdown => exact h
  | ping id => exact absurd rfl (hping id)
  | join id topic timeout =>
    simp only [Driver.handleConnectedCommand, handleJoin]
    split
    · exact h.answer (.inr ⟨_, rfl⟩)
    · split
      · exact h.setRecord.answer (.inr ⟨_, rfl⟩)
      · exact h.setRecord.loadPayload
  | call id topic event payload started =>
    simp only [Driver.handleConnectedCommand, handlePush]
    split
    · exact h.sendPush
    · exact h.queue
  | cast id topic event payload =>
    simp only [Driver.handleConnectedCommand, handlePush]
    split
    · exact h.sendPush
    · exact h.queue
  | leave id topic timeout =>
    simp only [Driver.handleConnectedCommand]
    cases leave_handled env d' id topic timeout with
    | sent channel hc hs he =>
      rw [he]
      exact h.setStatus.stopChannel.sendLeave
    | deferred channel hs hr he =>
      rw [he]
      exact h.setStatus.stopChannel.setRecord
    | idle hs hj he =>
      rw [he]
      exact h.setStatus.stopChannel.answer (.inl ClientOperation.noConfusion)

/-! ### The connection

Without a connection there are no frames. What is interrupted is told so. -/

theorem Deals.emitSocket (h : d.Deals env d') {event : SocketEvent} : d.Deals env (d'.emitSocket event) := by
  refine h.trans { Deals.refl env d' with wired := ⟨_, emitSocket_trace d' event, .inward fun effect hm => ?_⟩ }
  rcases List.mem_pair.mp hm with rfl | rfl
  · exact ⟨rfl, rfl, rfl, rfl, rfl⟩
  · exact ⟨rfl, rfl, rfl, rfl, rfl⟩

/-- The calls, pings and leaves that a lost connection interrupts are not told by a frame. -/
theorem inward_interruptions (old : DriverState) (clock : Duration) :
    ∀ effect ∈ interruptions old clock, effect.Inward := by
  intro effect hm
  simp only [interruptions, List.mem_append, List.mem_flatMap, List.mem_map] at hm
  rcases hm with ((⟨entry, -, hm⟩ | ⟨entry, -, rfl⟩) | ⟨entry, -, rfl⟩) | ⟨pending, -, rfl⟩
  · rcases List.mem_pair.mp hm with rfl | rfl
    · exact ⟨rfl, rfl, rfl, rfl, rfl⟩
    · exact ⟨rfl, rfl, rfl, rfl, rfl⟩
  · exact ⟨rfl, rfl, rfl, rfl, rfl⟩
  · exact ⟨rfl, rfl, rfl, rfl, rfl⟩
  · exact ⟨rfl, rfl, rfl, rfl, rfl⟩

theorem Deals.foldl {α : Type} {f : Driver → α → Driver} (hf : ∀ (d : Driver) (a : α), d.Deals env (f d a))
    (l : List α) (h : d.Deals env d') : d.Deals env (l.foldl f d') :=
  List.foldlRecOn l f h fun _ h a _ => h.trans (hf _ a)

/-- A lost connection takes its pings with it. -/
theorem deals_onDisconnect (env : Env) (d : Driver) (reason : DisconnectReason) :
    d.Deals env (d.onDisconnect reason) ∧ ∀ r : Reference, (d.onDisconnect reason).state.pendingPings[r]? = none := by
  let base : Driver :=
    { d with
      state := ⟨d.state.protocol.resetConnection.2,
        d.state.channels.map fun _ channel => offlineRecord channel, ∅, ∅, ∅, ∅,
        d.state.nextPayloadId, d.state.socketStatus⟩
      connection := .none }
  have hbase : d.Deals env base :=
    (Deals.refl env d).trans { Deals.refl env d with pings := fun _ _ hr => absurd hr Table.not_lookup_empty }
  have hdown : ∀ (d : Driver) (topic : Topic), d.Deals env (d.emitChannel topic .disconnected) :=
    fun d _ => (Deals.refl env d).emitChannel fun _ h => by cases h
  have hcut : ∀ (d : Driver) (event : ProtocolEvent), d.Deals env (d.reportInterrupted event) := by
    intro d event
    unfold reportInterrupted
    split
    · refine (Deals.refl env d).emitChannel fun event' h => ?_
      cases h
      exact ⟨_, _, _, rfl⟩
    · exact .refl env d
  have hreports : d.Deals env (d.state.protocol.resetConnection.1.foldl reportInterrupted
      (d.state.channels.keys.foldl (fun d topic => d.emitChannel topic .disconnected)
        (base.emitAll (interruptions d.state d.clock)))) :=
    Deals.foldl hcut _ (Deals.foldl hdown _ (hbase.emitAll (inward_interruptions d.state d.clock)))
  refine ⟨hreports.emitSocket, fun r => ?_⟩
  cases hr : (d.onDisconnect reason).state.pendingPings[r]? with
  | none => rfl
  | some ping =>
    obtain ⟨reports, -, he⟩ := onDisconnect_eq d reason
    rw [he] at hr
    exact absurd hr Table.not_lookup_empty

theorem Deals.onDisconnect (h : d.Deals env d') {reason : DisconnectReason} :
    d.Deals env (d'.onDisconnect reason) :=
  h.trans (deals_onDisconnect env d' reason).1

theorem Deals.afterFailure (h : d.Deals env d') {reason : DisconnectReason} :
    d.Deals env (d'.afterFailure env reason) := by
  have hattempt : d.Deals env { d' with attempt := nextAttempt d'.attempt } := h.tables rfl rfl rfl rfl
  unfold Driver.afterFailure
  dsimp only
  split
  · exact hattempt.emitSocket.tables rfl rfl rfl rfl
  · exact hattempt.emitSocket.tables rfl rfl rfl rfl

theorem deals_settle (env : Env) (r : Result) : r.1.Deals env (settle env r) := by
  rcases r with ⟨d, _ | reason⟩
  · exact .refl env d
  · exact (Deals.refl env d).onDisconnect.afterFailure

theorem Deals.settle {r : Result} (h : d.Deals env r.1) : d.Deals env (settle env r) :=
  h.trans (deals_settle env r)

theorem Deals.disconnect (h : d.Deals env d') : d.Deals env d'.disconnect :=
  h.onDisconnect.acknowledge.tables rfl rfl rfl rfl

theorem Deals.close (h : d.Deals env d') : d.Deals env d'.close :=
  h.emitSocket.tables rfl rfl rfl rfl

theorem Deals.attemptFinished (h : d.Deals env d') {started : Duration} {connected : Bool} :
    d.Deals env (d'.attemptFinished started connected) :=
  h.emitAll (List.forall_mem_singleton.mpr ⟨rfl, rfl, rfl, rfl, rfl⟩)

theorem Deals.connectFailed (h : d.Deals env d') {started : Duration} {error : TransportError} :
    d.Deals env (d'.connectFailed env started error) :=
  h.attemptFinished.emitSocket.afterFailure

theorem Deals.beginConnect (h : d.Deals env d') {attempt : Nat} :
    d.Deals env ({ d' with attempt }.beginConnect env) := by
  have hattempt : d.Deals env { d' with attempt } := h.tables rfl rfl rfl rfl
  exact hattempt.emitSocket.tables rfl rfl rfl rfl

/-! ### Events of the server

The handler of an event tells it to the subscribers of its topic once, whatever else it does, and
the answer to a ping is told to the ping. -/

/-- The subscribers of the event's topic are told of it, if the topic is registered, and nobody is told
of anything else. -/
def Told (env : Env) (event : ProtocolEvent) (d d' : Driver) : Prop :=
  ∃ d₁, d.Deals env d₁ ∧ d₁.state.channels.contains (topicOf event) = d.state.channels.contains (topicOf event) ∧
    (d₁.emitChannel (topicOf event) (.protocol event)).Deals env d'

variable {event : ProtocolEvent} {channel channel' : ChannelRecord}

theorem Told.trans (h : Told env event d d') (h' : d'.Deals env d'') : Told env event d d'' := by
  obtain ⟨d₁, hd, hc, he⟩ := h
  exact ⟨d₁, hd, hc, he.trans h'⟩

theorem contains_setRecord (hr : d.record topic = some channel) :
    (d.setRecord topic channel').state.channels.contains topic = d.state.channels.contains topic := by
  have hset : (d.setRecord topic channel').state.channels[topic]? = some channel' := record_setRecord ..
  rw [Std.ExtTreeMap.contains_eq_isSome_getElem?, Std.ExtTreeMap.contains_eq_isSome_getElem?, hset,
    show d.state.channels[topic]? = some channel from hr]
  rfl

theorem contains_setStatus {status : ChannelStatus} :
    (d.setStatus topic status).state.channels.contains topic = d.state.channels.contains topic := by
  cases hr : d.record topic with
  | none => rw [setStatus_of_none hr]
  | some channel =>
    rw [setStatus_of_some hr]
    exact contains_setRecord hr

/-- The subscribers are told after the waiters, and before anything is sent on the channel. -/
theorem told_onJoined (env : Env) (d : Driver) (topic : Topic) (reference : Reference) (response : Payload) :
    Told env (.joined topic reference response) d (d.onJoined env topic reference response).1 := by
  have hjoin : d.Deals env (d.eraseJoin reference) := (Deals.refl env d).eraseJoin
  cases hr : d.record topic with
  | none =>
    rw [onJoined_of_none hr]
    exact ⟨_, hjoin, rfl, (Deals.refl env _).flush⟩
  | some channel =>
    have hwelcome : Told env (.joined topic reference response) d (d.welcome topic reference response channel) :=
      ⟨_, hjoin.setRecord.answerAll ClientOperation.noConfusion, contains_setRecord hr, .refl env _⟩
    cases hp : channel.deferredLeave with
    | some pending =>
      rw [onJoined_of_deferred hr hp]
      exact hwelcome.trans (Deals.refl env _).sendLeave
    | none =>
      rw [onJoined_of_not_deferred hr hp]
      exact hwelcome.trans (Deals.refl env _).flush

/-- The subscribers are told after the waiters, and before the rejoin is scheduled. -/
theorem told_onJoinError (env : Env) (d : Driver) (topic : Topic) (reference : Reference) (response : Payload) :
    Told env (.joinError topic reference response) d (d.onJoinError env topic reference response) := by
  have hjoin : d.Deals env (d.eraseJoin reference) := (Deals.refl env d).eraseJoin
  cases hr : d.record topic with
  | none =>
    rw [onJoinError_of_none hr]
    exact ⟨_, hjoin, rfl, .refl env _⟩
  | some channel =>
    rw [onJoinError_of_some hr]
    refine ⟨_, hjoin.setRecord.emitAll fun effect hm => ?_, contains_setRecord hr, (Deals.refl env _).scheduleRejoin⟩
    rcases List.mem_append.mp hm with hm | hm
    · exact inward_leaveAnswers _ _ effect hm
    · exact inward_answers ClientOperation.noConfusion _ (fun id => id) (fun _ => _) effect hm

/-- The subscribers are told after the caller. -/
theorem told_onReply (env : Env) (d : Driver) (topic : Topic) (name : String) (reference : Reference)
    (status : ReplyStatus) (response : Payload) :
    Told env (.reply topic name reference status response) d (d.onReply topic name reference status response) := by
  cases hc : d.state.pendingCalls[reference]? with
  | none =>
    rw [onReply_of_none hc]
    exact ⟨d, .refl env d, rfl, .refl env _⟩
  | some call =>
    rw [onReply_of_some hc]
    have herased : d.Deals env { d with
        state := { d.state with pendingCalls := d.state.pendingCalls.erase reference } } :=
      (Deals.refl env d).tables rfl rfl rfl rfl
    refine ⟨_, herased.emitAll fun effect hm => ?_, rfl, .refl env _⟩
    rcases List.mem_pair.mp hm with rfl | rfl
    · exact ⟨rfl, rfl, rfl, rfl, rfl⟩
    · exact ⟨rfl, rfl, rfl, rfl, rfl⟩

/-- The subscribers are told after the caller, and before a next load. -/
theorem told_onLeft (env : Env) (d : Driver) (topic : Topic) (reference : Reference) (response : Payload) :
    Told env (.left topic reference response) d (d.onLeft topic reference response) := by
  have hsettled : d.Deals env (d.leaveSettled reference response) :=
    (Deals.refl env d).eraseLeave.emitAll (inward_leaveAnswers _ _)
  cases hr : d.record topic with
  | none =>
    rw [onLeft_of_none hr]
    exact ⟨_, hsettled, rfl, .refl env _⟩
  | some channel =>
    rw [onLeft_of_some hr]
    split
    · exact ⟨_, hsettled.setRecord, contains_setRecord hr, (Deals.refl env _).loadPayload⟩
    · exact ⟨_, hsettled.setRecord, contains_setRecord hr, .refl env _⟩

theorem told_onChannelError (env : Env) (d : Driver) (topic : Topic) (payload : Payload) :
    Told env (.channelError topic payload) d (d.onChannelError env topic payload) :=
  ⟨_, (Deals.refl env d).forgetJoins.setStatus, contains_setStatus, (Deals.refl env _).scheduleRejoin⟩

/-- The subscribers are told at the end. -/
theorem told_onChannelClosed (env : Env) (d : Driver) (topic : Topic) (payload : Payload) :
    Told env (.channelClosed topic payload) d (d.onChannelClosed topic payload) := by
  cases hr : d.record topic with
  | none =>
    rw [onChannelClosed_of_none hr]
    exact ⟨_, (Deals.refl env d).forgetJoins, rfl, .refl env _⟩
  | some channel =>
    have hrec : (d.forgetJoins topic).record topic = some channel := hr
    simp only [Driver.onChannelClosed, hrec]
    exact ⟨_, (Deals.refl env d).forgetJoins.setRecord, contains_setRecord hrec, (Deals.refl env _).stopChannel⟩

/-- The driver that has answered a ping. -/
def ponged (d : Driver) (reference : Reference) (ping : PendingPing) : Driver :=
  { d with state := { d.state with pendingPings := d.state.pendingPings.erase reference } }.answer .ping
    ping.id (.ok (.elapsed (d.clock - ping.started)))

/-- What is done about an event of the server. -/
inductive Handling (env : Env) (d : Driver) (event : ProtocolEvent) (d' : Driver) : Prop where
  | told (hh : ∀ reference status, event ≠ .heartbeatAck reference status) (h : Told env event d d')
  | acked (reference : Reference) (status : ReplyStatus) (he : event = .heartbeatAck reference status)
      (hn : d.connection.heartbeatReference = some reference ∨ d.state.pendingPings[reference]? = none)
      (h : d.Deals env d')
  | ponged (reference : Reference) (status : ReplyStatus) (ping : PendingPing)
      (he : event = .heartbeatAck reference status) (hb : d.connection.heartbeatReference ≠ some reference)
      (hp : d.state.pendingPings[reference]? = some ping) (h : (d.ponged reference ping).Deals env d')

theorem Handling.trans (h : Handling env d event d') (h' : d'.Deals env d'') : Handling env d event d'' := by
  cases h with
  | told hh h => exact .told hh (h.trans h')
  | acked reference status he hn h => exact .acked reference status he hn (h.trans h')
  | ponged reference status ping he hb hp h => exact .ponged reference status ping he hb hp (h.trans h')

/-- One case for each event. An acknowledgement tells no subscriber: it is the heartbeat's, a ping's or
nobody's. -/
theorem handled (env : Env) (d : Driver) {event : ProtocolEvent}
    (hi : ∀ topic name reference, event ≠ .requestInterrupted topic name reference) :
    Handling env d event (d.handleEvent env event).1 := by
  cases event with
  | joined topic reference response =>
    exact .told (fun _ _ => ProtocolEvent.noConfusion) (told_onJoined ..)
  | joinError topic reference response =>
    exact .told (fun _ _ => ProtocolEvent.noConfusion) (told_onJoinError ..)
  | reply topic name reference status response =>
    exact .told (fun _ _ => ProtocolEvent.noConfusion) (told_onReply ..)
  | left topic reference response =>
    exact .told (fun _ _ => ProtocolEvent.noConfusion) (told_onLeft ..)
  | channelError topic payload =>
    exact .told (fun _ _ => ProtocolEvent.noConfusion) (told_onChannelError ..)
  | channelClosed topic payload =>
    exact .told (fun _ _ => ProtocolEvent.noConfusion) (told_onChannelClosed ..)
  | message frame | staleMessage frame | unmatchedReply frame =>
    exact .told (fun _ _ => ProtocolEvent.noConfusion) ⟨d, .refl env d, rfl, .refl env _⟩
  | requestInterrupted topic name reference => exact absurd rfl (hi topic name reference)
  | heartbeatAck reference status =>
    simp only [handleEvent, onHeartbeatAck]
    by_cases hb : d.connection.heartbeatReference = some reference
    · rw [if_pos hb]
      exact .acked reference status rfl (.inl hb) ((Deals.refl env d).tables rfl rfl rfl rfl)
    · rw [if_neg hb]
      cases hp : d.state.pendingPings[reference]? with
      | none => exact .acked reference status rfl (.inr hp) (.refl env d)
      | some ping => exact .ponged reference status ping rfl hb hp (.refl env _)

/-- What is done about a message. -/
inductive MessageDealt (env : Env) (d : Driver) (message : WireMessage) (d' : Driver) : Prop where
  | undecodable (e : String) (hd : env.codec.decode message = .error e) (h : d.Deals env d')
  | refused (frame : Frame) (e : ProtocolError) (p : Protocol) (hd : env.codec.decode message = .ok frame)
      (hr : d.state.protocol.receive frame = (.error e, p)) (h : (d.received message frame p).Deals env d')
  | handled (frame : Frame) (event : ProtocolEvent) (p : Protocol) (hd : env.codec.decode message = .ok frame)
      (hr : d.state.protocol.receive frame = (.ok event, p)) (h : Handling env (d.received message frame p) event d')

theorem MessageDealt.trans {message : WireMessage} (h : MessageDealt env d message d') (h' : d'.Deals env d'') :
    MessageDealt env d message d'' := by
  cases h with
  | undecodable e hd h => exact .undecodable e hd (h.trans h')
  | refused frame e p hd hr h => exact .refused frame e p hd hr (h.trans h')
  | handled frame event p hd hr h => exact .handled frame event p hd hr (h.trans h')

/-- A message is reported once it is decoded, and handled once it is received. -/
theorem message_dealt (env : Env) (d : Driver) (message : WireMessage) :
    MessageDealt env d message (d.onMessage env message).1 := by
  have hincoming : MessageDealt env d message (d.handleIncoming env message).1 := by
    cases hd : env.codec.decode message with
    | error e =>
      simp only [handleIncoming, hd]
      exact .undecodable e hd (.refl env d)
    | ok frame =>
      have hi : d.handleIncoming env message =
          (d.telemetry (.frameReceived frame.topic frame.event message.metadata.1
            message.metadata.2)).handleFrame env frame := by
        simp only [handleIncoming, hd]
      rw [hi, handleFrame]
      rcases hr : d.state.protocol.receive frame with ⟨e | event, p⟩
      · have hr' : (d.telemetry (.frameReceived frame.topic frame.event message.metadata.1
          message.metadata.2)).state.protocol.receive frame = (.error e, p) := hr
        simp only [hr']
        exact .refused frame e p hd hr (.refl env _)
      · have hr' : (d.telemetry (.frameReceived frame.topic frame.event message.metadata.1
          message.metadata.2)).state.protocol.receive frame = (.ok event, p) := hr
        simp only [hr']
        refine .handled frame event p hd hr (handled env _ fun topic name reference he => ?_)
        rw [he] at hr
        exact Protocol.receive_explains hr
  unfold onMessage
  rcases hr : d.handleIncoming env message with ⟨d', _ | reason⟩
  · rw [hr] at hincoming
    dsimp only [Result.andThen]
    split
    · exact hincoming.trans ((Deals.refl env d').tables rfl rfl rfl rfl)
    · exact hincoming
  · rw [hr] at hincoming
    exact hincoming

/-! ### Steps

Every step deals, or tells what one message brought, or sends a ping, or reports a connection made. -/

/-- The driver that has sent a ping, before it does anything about a failure. -/
def pinged (env : Env) (d : Driver) (id : RequestId) : Result :=
  ((d.accept (.ping id)).trackPing id).sendFrame env [id]
    ⟨none, some d.state.protocol.nextText, "phoenix", "heartbeat", .emptyObject⟩

/-- What a step sends, and whom it tells of the server. -/
inductive Dealing (env : Env) (d : Driver) : Input → Driver → Prop where
  | tick (elapsed : Duration) : Dealing env d (.tick elapsed) { d with clock := d.clock + elapsed }
  | deals (input : Input) (d' : Driver) (hi : ∀ message, input ≠ .message message) (h : d.Deals env d') :
    Dealing env d input d'
  | ping (id : RequestId) (hp : d.phase = .connected) :
    Dealing env d (.command (.ping id)) (settle env (d.pinged env id))
  | message (message : WireMessage) (d' : Driver) (hp : d.phase = .connected)
      (h : MessageDealt env d message d') : Dealing env d (.message message) d'
  | made (started due : Duration) (transport : Transport) (order : List Topic)
      (hp : d.phase = .connecting started due) :
    Dealing env d (.connection (.ok transport) order) (d.connectionMade env started transport order)

variable {input : Input}

/-- An idle driver sends nothing. -/
theorem Dealing.of_idle (h : d.stepIdle env input = some d') : Dealing env d input d' := by
  unfold stepIdle at h
  split at h <;> cases h
  · exact .deals _ _ (fun _ => Input.noConfusion) ((Deals.refl env d).handleOfflineLifecycle _)
  · exact .deals _ _ (fun _ => Input.noConfusion) (Deals.refl env d).close
  · exact .deals _ _ (fun _ => Input.noConfusion) (Deals.refl env d).close
  · exact .deals _ _ (fun _ => Input.noConfusion) (Deals.refl env d).acknowledge.beginConnect
  · exact .deals _ _ (fun _ => Input.noConfusion) (Deals.refl env d).acknowledge
  · exact .deals _ _ (fun _ => Input.noConfusion) (Deals.refl env d).acknowledge.close
  · exact .deals _ _ (fun _ => Input.noConfusion) ((Deals.refl env d).accept.handleOfflineCommand _)

/-- An attempt sends nothing until it is made. -/
theorem Dealing.of_connecting {started due : Duration} (hp : d.phase = .connecting started due)
    (h : d.stepConnecting env started due input = some d') : Dealing env d input d' := by
  unfold stepConnecting at h
  split at h
  · cases h
    exact .deals _ _ (fun _ => Input.noConfusion) ((Deals.refl env d).handleOfflineLifecycle _)
  · cases h
    exact .deals _ _ (fun _ => Input.noConfusion) (Deals.refl env d).close
  · cases h
    exact .deals _ _ (fun _ => Input.noConfusion) (Deals.refl env d).close
  · split at h
    · cases h
      exact .made started due _ _ hp
    · cases h
  · cases h
    exact .deals _ _ (fun _ => Input.noConfusion) (Deals.refl env d).connectFailed
  · split at h
    · cases h
      exact .deals _ _ (fun _ => Input.noConfusion) (Deals.refl env d).connectFailed
    · cases h
  · cases h
    exact .deals _ _ (fun _ => Input.noConfusion) (Deals.refl env d).acknowledge
  · cases h
    exact .deals _ _ (fun _ => Input.noConfusion) (Deals.refl env d).attemptFinished.disconnect
  · cases h
    exact .deals _ _ (fun _ => Input.noConfusion) (Deals.refl env d).attemptFinished.acknowledge.close
  · cases h
    exact .deals _ _ (fun _ => Input.noConfusion) ((Deals.refl env d).accept.handleOfflineCommand _)
  · cases h

/-- A driver that waits for its next attempt sends nothing. -/
theorem Dealing.of_waiting {due : Duration} (h : d.stepWaiting env due input = some d') :
    Dealing env d input d' := by
  unfold stepWaiting at h
  split at h
  · cases h
    exact .deals _ _ (fun _ => Input.noConfusion) ((Deals.refl env d).handleOfflineLifecycle _)
  · cases h
    exact .deals _ _ (fun _ => Input.noConfusion) (Deals.refl env d).close
  · cases h
    exact .deals _ _ (fun _ => Input.noConfusion) (Deals.refl env d).close
  · split at h
    · cases h
      exact .deals _ _ (fun _ => Input.noConfusion) (Deals.refl env d).beginConnect
    · cases h
  · cases h
    exact .deals _ _ (fun _ => Input.noConfusion) (Deals.refl env d).acknowledge
  · cases h
    exact .deals _ _ (fun _ => Input.noConfusion) (Deals.refl env d).disconnect
  · cases h
    exact .deals _ _ (fun _ => Input.noConfusion) (Deals.refl env d).acknowledge.close
  · cases h
    exact .deals _ _ (fun _ => Input.noConfusion) ((Deals.refl env d).accept.handleOfflineCommand _)
  · cases h

theorem Dealing.of_command (hp : d.phase = .connected) (command : Command) :
    Dealing env d (.command command) (settle env ((d.accept command).handleConnectedCommand env command)) := by
  by_cases hping : ∃ id, command = .ping id
  · obtain ⟨id, rfl⟩ := hping
    exact .ping id hp
  · refine .deals _ _ (fun _ => Input.noConfusion) ?_
    exact ((Deals.refl env d).accept.handleConnectedCommand fun id he => hping ⟨id, he⟩).settle

/-- One case for each thing that a connected driver wakes up for. -/
theorem Dealing.of_connected (hp : d.phase = .connected) (h : d.stepConnected env input = some d') :
    Dealing env d input d' := by
  unfold stepConnected at h
  split at h
  · cases h
    exact .deals _ _ (fun _ => Input.noConfusion) ((Deals.refl env d).handleConnectedLifecycle _).settle
  · cases h
    exact .deals _ _ (fun _ => Input.noConfusion) (Deals.refl env d).settle
  · cases h
    exact .deals _ _ (fun _ => Input.noConfusion) (Deals.refl env d).settle
  · cases h
    exact .deals _ _ (fun _ => Input.noConfusion) (Deals.refl env d).acknowledge
  · cases h
    exact .deals _ _ (fun _ => Input.noConfusion) (Deals.refl env d).disconnect
  · cases h
    exact .deals _ _ (fun _ => Input.noConfusion) ((Deals.refl env d).acknowledge.close.tables rfl rfl rfl rfl)
  · cases h
    exact .of_command hp _
  · cases h
    exact .message _ _ hp ((message_dealt env d _).trans (deals_settle env _))
  · cases h
    exact .deals _ _ (fun _ => Input.noConfusion) (Deals.refl env d).settle
  · cases h
    exact .deals _ _ (fun _ => Input.noConfusion) (Deals.refl env d).settle
  · split at h
    · cases h
      exact .deals _ _ (fun _ => Input.noConfusion) (deals_handleHeartbeat env d).settle
    · cases h
  · split at h
    · cases h
      exact .deals _ _ (fun _ => Input.noConfusion)
        ((Deals.refl env d).takePayload.trans (deals_handlePayload ..)).settle
    · cases h
  · split at h
    · cases h
      exact .deals _ _ (fun _ => Input.noConfusion) (Deals.refl env d).takeRejoin.handleRejoin
    · cases h
  · split at h
    · cases h
      exact .deals _ _ (fun _ => Input.noConfusion) ((Deals.refl env d).takeOperationTimeout.handleOperationTimeout _)
    · cases h
  · cases h

/-- **The inversion of a step**, for what goes out and what is told. -/
theorem dealing (h : d.step env input = some d') : Dealing env d input d' := by
  unfold step at h
  split at h
  · cases h
    exact .tick _
  · cases h
    exact .deals _ _ (fun _ => Input.noConfusion) (Deals.refl env d).setStatus
  · split at h <;> rename_i hp
    · exact .of_idle h
    · exact .of_connecting hp h
    · exact .of_connected hp h
    · exact .of_waiting h
    · cases h

/-- The loads that a new connection starts with are dealing. -/
theorem connectionMade_deals (env : Env) (d : Driver) (started : Duration) (transport : Transport)
    (order : List Topic) :
    (d.connected env started transport).Deals env (d.connectionMade env started transport order) :=
  connectionMade_induction ((d.connected env started transport).Deals env ·) (.refl env _) fun _ _ h => h.startLoad

end

end Driver
end PhoenixChannel.Client
