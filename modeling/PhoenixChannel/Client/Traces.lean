import PhoenixChannel.Client.ProtocolMoves

/-! What kinds of effects a handler has.

`Emits P` says that only effects of the kind `P` were added to the trace. The small handlers
report, fail requests, answer leaves and start loads; a kind that allows all of this is
`Lenient`, and needs a look only where frames are sent and requests succeed. -/
namespace PhoenixChannel.Client
open PhoenixChannel.Runtime Library

/-- A kind of effects that allows what the small handlers do. -/
class Lenient (P : Effect → Prop) : Prop where
  report : ∀ effect : Effect, effect.IsReport → P effect
  failure : ∀ operation id error, P (.answered operation id (.error error))
  leave : ∀ id result, P (.answered .leave id result)
  load : ∀ topic payloadId context served, P (.loading topic payloadId context served)

namespace Driver

/-- From `d` to `d'` only effects of the kind `P` were added to the trace. -/
def Emits (P : Effect → Prop) (d d' : Driver) : Prop :=
  ∃ effects, d'.trace = d.trace ++ effects ∧ ∀ effect ∈ effects, P effect

section
variable {P : Effect → Prop} {d d' d'' : Driver} {topic : Topic}

theorem Emits.of_trace (h : d'.trace = d.trace) : d.Emits P d' :=
  ⟨[], by simp [h], List.forall_mem_nil _⟩

theorem Emits.refl (P : Effect → Prop) (d : Driver) : d.Emits P d := .of_trace rfl

theorem Emits.trans (h : d.Emits P d') (h' : d'.Emits P d'') : d.Emits P d'' := by
  obtain ⟨effects, ht, he⟩ := h
  obtain ⟨effects', ht', he'⟩ := h'
  refine ⟨effects ++ effects', by rw [ht', ht, List.append_assoc], fun effect hm => ?_⟩
  rcases List.mem_append.mp hm with hm | hm
  · exact he effect hm
  · exact he' effect hm

theorem Emits.mono {Q : Effect → Prop} (h : d.Emits P d') (himp : ∀ effect, P effect → Q effect) :
    d.Emits Q d' := by
  obtain ⟨effects, ht, he⟩ := h
  exact ⟨effects, ht, fun effect hm => himp effect (he effect hm)⟩

theorem Emits.done (h : d.Emits P d') {effect : Effect} (hm : effect ∈ d.done d') : P effect := by
  obtain ⟨effects, ht, he⟩ := h
  rw [done_of_append ht] at hm
  exact he effect hm

theorem Emits.silent (h : d.Emits P d') (ht : d''.trace = d'.trace) : d.Emits P d'' :=
  h.trans (.of_trace ht)

theorem Emits.emitAll (h : d.Emits P d') {effects : List Effect}
    (he : ∀ effect ∈ effects, P effect) : d.Emits P (d'.emitAll effects) :=
  h.trans ⟨effects, rfl, he⟩

theorem Emits.emitSocket (h : d.Emits P d') {event : SocketEvent} (ht : P (.telemetry (.socket event)))
    (hd : P (.deliveredSocket event)) : d.Emits P (d'.emitSocket event) := by
  refine h.trans ⟨_, emitSocket_trace d' event, fun effect hm => ?_⟩
  rcases List.mem_pair.mp hm with rfl | rfl
  · exact ht
  · exact hd

theorem Emits.setRecord (h : d.Emits P d') {channel : ChannelRecord} :
    d.Emits P (d'.setRecord topic channel) :=
  h.silent rfl

theorem Emits.setStatus (h : d.Emits P d') {status : ChannelStatus} :
    d.Emits P (d'.setStatus topic status) := by
  refine h.silent ?_
  unfold Driver.setStatus
  cases d'.record topic <;> rfl

theorem Emits.scheduleRejoin (h : d.Emits P d') {env : Env} :
    d.Emits P (d'.scheduleRejoin env topic) := by
  refine h.silent ?_
  rcases scheduleRejoin_cases env d' topic with ⟨-, he⟩ | ⟨channel, -, -, -, he⟩
  · rw [he]
  · rw [he]
    rfl

theorem Emits.sendFrame [Lenient P] (h : d.Emits P d') {env : Env} {served : List RequestId}
    {frame : Frame} (hf : P (.outgoing served frame)) :
    d.Emits P (d'.sendFrame env served frame).1 := by
  obtain ⟨events, ht⟩ := sendFrame_trace env d' served frame
  refine h.trans ⟨_, ht, fun effect hm => ?_⟩
  rcases List.mem_cons.mp hm with rfl | hm
  · exact hf
  · obtain ⟨event, -, rfl⟩ := List.mem_map.mp hm
    exact Lenient.report _ trivial

variable [Lenient P]

theorem Emits.emitChannel (h : d.Emits P d') {event : ChannelEvent} :
    d.Emits P (d'.emitChannel topic event) := by
  rw [emitChannel_eq]
  exact h.emitAll fun effect hm => Lenient.report effect (channelEffects_report d' topic event effect hm)

theorem Emits.answerLeave (h : d.Emits P d') {pending : Option PendingLeave}
    {result : Except ClientError Success} : d.Emits P (d'.answerLeave pending result) := by
  rw [answerLeave_eq]
  refine h.emitAll fun effect hm => ?_
  obtain ⟨leave, -, -, rfl⟩ := mem_leaveAnswers hm
  exact Lenient.leave ..

theorem Emits.failAll (h : d.Emits P d') {operation : ClientOperation} {ids : List RequestId}
    {error : ClientError} :
    d.Emits P (d'.emitAll (ids.map fun id => .answered operation id (.error error))) := by
  refine h.emitAll fun effect hm => ?_
  obtain ⟨id, -, rfl⟩ := List.mem_map.mp hm
  exact Lenient.failure ..

theorem Emits.loadPayload (h : d.Emits P d') : d.Emits P (d'.loadPayload topic) := by
  rcases loadPayload_cases d' topic with ⟨-, he⟩ | ⟨channel, -, -, -, -, he⟩
  · rw [he]
    exact h
  · rw [he]
    refine (h.silent (by rfl)).emitAll fun effect hm => ?_
    cases List.mem_singleton.mp hm
    exact Lenient.load ..

theorem Emits.stopChannel (h : d.Emits P d') : d.Emits P (d'.stopChannel topic) := by
  cases hr : d'.record topic with
  | none =>
    rw [stopChannel_of_none hr]
    exact h
  | some channel =>
    rw [stopChannel_of_some hr]
    refine h.setRecord.emitAll fun effect hm => ?_
    rcases mem_stopEffects hm with ⟨operation, id, rfl⟩ | ⟨event, rfl⟩
    · exact Lenient.failure ..
    · exact Lenient.report _ trivial

end

end Driver
end PhoenixChannel.Client
