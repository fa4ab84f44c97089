import PhoenixChannel.Runtime.References

/-! What each protocol operation does, case by case.

Later proofs use these equations and never unfold an operation. `Received` names the ways
`receive` can go. -/
namespace PhoenixChannel.Runtime

/-- The topic whose channel the event's frame changed. -/
def ProtocolEvent.concerns : ProtocolEvent → Option Topic
  | .joined topic _ _ | .joinError topic _ _ | .left topic _ _ => some topic
  | .channelClosed topic _ | .channelError topic _ => some topic
  | _ => none

namespace Protocol

theorem join_of_active {p : Protocol} {topic : Topic} {params : Value}
    (h : (p.channelState topic).any ChannelState.active) :
    p.join topic params = (.error (.alreadyActive topic), p) := by
  simp [join, h]

theorem join_of_inactive {p : Protocol} {topic : Topic} {params : Value}
    (h : ¬ (p.channelState topic).any ChannelState.active) :
    p.join topic params =
      (.ok ⟨p.nextText, ⟨some p.nextText, some p.nextText, topic, "phx_join", .json params⟩⟩,
        { nextReference := advance p.nextReference
          channels := p.channels.insert topic ⟨.joining, p.nextText, params⟩
          pending := p.pending.insert p.nextText (.join topic)
          allocated := p.allocated + 1 }) := by
  simp only [join, if_neg h]
  rfl

theorem join_of_unknown {p : Protocol} {topic : Topic} {params : Value}
    (h : p.channelState topic = none) :
    p.join topic params =
      (.ok ⟨p.nextText, ⟨some p.nextText, some p.nextText, topic, "phx_join", .json params⟩⟩,
        { nextReference := advance p.nextReference
          channels := p.channels.insert topic ⟨.joining, p.nextText, params⟩
          pending := p.pending.insert p.nextText (.join topic)
          allocated := p.allocated + 1 }) :=
  join_of_inactive (by rw [h]; nofun)

theorem rejoin_of_unknown {p : Protocol} {topic : Topic} {params : Value}
    (h : p.channelState topic = none) : p.rejoin topic params = p.join topic params := by
  simp [rejoin, h]

theorem rejoin_of_active {p : Protocol} {topic : Topic} {params : Value} {state : ChannelState}
    (h : p.channelState topic = some state) (ha : state.active) :
    p.rejoin topic params = (.error (.alreadyActive topic), p) := by
  cases state <;> simp_all [rejoin, ChannelState.active]

theorem rejoin_of_inactive {p : Protocol} {topic : Topic} {params : Value} {state : ChannelState}
    (h : p.channelState topic = some state) (ha : ¬ state.active) :
    p.rejoin topic params = (p.discardChannel topic).2.join topic params := by
  cases state <;> simp_all [rejoin, ChannelState.active]

theorem leave_of_unknown {p : Protocol} {topic : Topic} (h : p.channels[topic]? = none) :
    p.leave topic = (.error (.unknownTopic topic), p.allocateReference.2) := by
  simp [leave, h]

theorem leave_of_not_joined {p : Protocol} {topic : Topic} {channel : Channel}
    (h : p.channels[topic]? = some channel) (hs : channel.state ≠ .joined) :
    p.leave topic = (.error (.notJoined topic), p.allocateReference.2) := by
  simp [leave, h, hs]

theorem leave_of_joined {p : Protocol} {topic : Topic} {channel : Channel}
    (h : p.channels[topic]? = some channel) (hs : channel.state = .joined) :
    p.leave topic =
      (.ok ⟨p.nextText,
          ⟨some channel.joinRef, some p.nextText, topic, "phx_leave", .emptyObject⟩⟩,
        { nextReference := advance p.nextReference
          channels := p.channels.insert topic { channel with state := .leaving }
          pending := p.pending.insert p.nextText (.leave topic)
          allocated := p.allocated + 1 }) := by
  simp only [leave, allocateReference_channels, h, hs, ne_eq, not_true_eq_false, if_false]
  rfl

/-- A leave is refused, with a reference used up, or finds its channel joined. -/
theorem leave_cases (p : Protocol) (topic : Topic) :
    (∃ error, p.leave topic = (.error error, p.allocateReference.2)) ∨
      ∃ channel, p.channels[topic]? = some channel ∧ channel.state = .joined := by
  cases hc : p.channels[topic]? with
  | none => exact .inl ⟨_, leave_of_unknown hc⟩
  | some channel =>
    by_cases hs : channel.state = .joined
    · exact .inr ⟨channel, rfl, hs⟩
    · exact .inl ⟨_, leave_of_not_joined hc hs⟩

theorem joinedRef_eq_some {p : Protocol} {topic : Topic} {r : Reference} :
    p.joinedRef topic = some r ↔
      ∃ channel : Channel, p.channels[topic]? = some channel ∧ channel.state = .joined ∧
        channel.joinRef = r := by
  unfold joinedRef
  cases p.channels[topic]? with
  | none => simp
  | some channel =>
    dsimp only
    by_cases hs : channel.state = .joined <;> simp [hs]

theorem push_of_not_joined {p : Protocol} {topic : Topic} {event : String} {payload : Payload}
    (h : p.joinedRef topic = none) : p.push topic event payload = (.error (.notJoined topic), p) := by
  simp [push, h]

theorem push_of_joined {p : Protocol} {topic : Topic} {event : String} {payload : Payload}
    {joinRef : Reference} (h : p.joinedRef topic = some joinRef) :
    p.push topic event payload =
      (.ok ⟨p.nextText, ⟨some joinRef, some p.nextText, topic, event, payload⟩⟩,
        { nextReference := advance p.nextReference
          channels := p.channels
          pending := p.pending.insert p.nextText (.push topic event)
          allocated := p.allocated + 1 }) := by
  simp only [push, h]
  rfl

theorem cast_of_not_joined {p : Protocol} {topic : Topic} {event : String} {payload : Payload}
    (h : p.joinedRef topic = none) : p.cast topic event payload = .error (.notJoined topic) := by
  simp [cast, h]

theorem cast_of_joined {p : Protocol} {topic : Topic} {event : String} {payload : Payload}
    {joinRef : Reference} (h : p.joinedRef topic = some joinRef) :
    p.cast topic event payload = .ok ⟨some joinRef, none, topic, event, payload⟩ := by
  simp [cast, h]

theorem heartbeat_eq (p : Protocol) :
    p.heartbeat =
      (⟨p.nextText, ⟨none, some p.nextText, "phoenix", "heartbeat", .emptyObject⟩⟩,
        { nextReference := advance p.nextReference
          channels := p.channels
          pending := p.pending.insert p.nextText .heartbeat
          allocated := p.allocated + 1 }) := rfl

theorem join_grows (p : Protocol) (topic : Topic) (params : Value) :
    p.allocated ≤ (p.join topic params).2.allocated := by
  by_cases h : (p.channelState topic).any ChannelState.active
  · exact Nat.le_of_eq (by rw [join_of_active h])
  · rw [join_of_inactive h]
    exact Nat.le_succ _

theorem rejoin_grows (p : Protocol) (topic : Topic) (params : Value) :
    p.allocated ≤ (p.rejoin topic params).2.allocated := by
  cases hs : p.channelState topic with
  | none =>
    rw [rejoin_of_unknown hs]
    exact join_grows p topic params
  | some state =>
    by_cases ha : state.active
    · exact Nat.le_of_eq (by rw [rejoin_of_active hs ha])
    · rw [rejoin_of_inactive hs ha]
      exact join_grows (p.discardChannel topic).2 topic params

theorem leave_grows (p : Protocol) (topic : Topic) : p.allocated ≤ (p.leave topic).2.allocated := by
  rcases leave_cases p topic with ⟨error, he⟩ | ⟨channel, hc, hs⟩
  · rw [he]
    exact Nat.le_succ _
  · rw [leave_of_joined hc hs]
    exact Nat.le_succ _

theorem push_grows (p : Protocol) (topic : Topic) (event : String) (payload : Payload) :
    p.allocated ≤ (p.push topic event payload).2.allocated := by
  cases hj : p.joinedRef topic with
  | none =>
    exact Nat.le_of_eq (by rw [push_of_not_joined hj])
  | some joinRef =>
    rw [push_of_joined hj]
    exact Nat.le_succ _

/-- `forget_push` removes a pending push, and nothing else. -/
theorem forgetPush_cases (p : Protocol) (r : Reference) :
    (∃ topic event, p.pending[r]? = some (.push topic event) ∧
      p.forgetPush r = (true, { p with pending := p.pending.erase r })) ∨
    p.forgetPush r = (false, p) := by
  unfold forgetPush
  rcases p.pending[r]? with _ | (_ | _ | ⟨topic, event⟩ | _)
  case some.push => exact .inl ⟨topic, event, rfl, rfl⟩
  all_goals exact .inr rfl

theorem forgetPush_channels (p : Protocol) (r : Reference) : (p.forgetPush r).2.channels = p.channels := by
  rcases forgetPush_cases p r with ⟨_, _, _, he⟩ | he <;> rw [he]

/-- `forget_heartbeat` removes a pending heartbeat, and nothing else. -/
theorem forgetHeartbeat_cases (p : Protocol) (r : Reference) :
    (p.pending[r]? = some .heartbeat ∧
      p.forgetHeartbeat r = (true, { p with pending := p.pending.erase r })) ∨
    p.forgetHeartbeat r = (false, p) := by
  unfold forgetHeartbeat
  rcases p.pending[r]? with _ | (_ | _ | _ | _)
  case some.heartbeat => exact .inl ⟨rfl, rfl⟩
  all_goals exact .inr rfl

theorem forgetHeartbeat_channels (p : Protocol) (r : Reference) : (p.forgetHeartbeat r).2.channels = p.channels := by
  rcases forgetHeartbeat_cases p r with ⟨_, he⟩ | he <;> rw [he]

/-! ### Incoming frames

`Received` has one case for each way `receive` can go, with the event it returns and the protocol it
leaves. -/

/-- The ways a frame is received, each with the result and the state it leaves. -/
inductive Received (p : Protocol) (frame : Frame) : Except ProtocolError ProtocolEvent → Protocol → Prop
  | stale (h : p.stale frame = true) : Received p frame (.ok (.staleMessage frame)) p
  | unmatched (hs : p.stale frame = false) (he : frame.event = "phx_reply")
      (hr : ∀ r, frame.reference = some r → p.pending[r]? = none) :
      Received p frame (.ok (.unmatchedReply frame)) p
  | malformed {r : Reference} {pending : Pending} {e : ProtocolError} (hs : p.stale frame = false)
      (he : frame.event = "phx_reply") (hr : frame.reference = some r)
      (hp : p.pending[r]? = some pending) (hd : decodeReplyPayload frame.payload = .error e) :
      Received p frame (.error e) { p with pending := p.pending.erase r }
  | settled {r : Reference} {pending : Pending} {status : ReplyStatus} {response : Payload}
      (hs : p.stale frame = false) (he : frame.event = "phx_reply") (hr : frame.reference = some r)
      (hp : p.pending[r]? = some pending)
      (hd : decodeReplyPayload frame.payload = .ok (status, response)) :
      Received p frame
        (.ok (settle { p with pending := p.pending.erase r } r status response pending).1)
        (settle { p with pending := p.pending.erase r } r status response pending).2
  | closed (hs : p.stale frame = false) (he : frame.event = "phx_close") :
      Received p frame (.ok (.channelClosed frame.topic frame.payload))
        { p with channels := setState p.channels frame.topic .closed }
  | errored (hs : p.stale frame = false) (he : frame.event = "phx_error") :
      Received p frame (.ok (.channelError frame.topic frame.payload))
        { p with channels := setState p.channels frame.topic .errored }
  | message (hs : p.stale frame = false) (hr : frame.event ≠ "phx_reply")
      (hc : frame.event ≠ "phx_close") (he : frame.event ≠ "phx_error") :
      Received p frame (.ok (.message frame)) p

theorem received (p : Protocol) (frame : Frame) :
    Received p frame (p.receive frame).1 (p.receive frame).2 := by
  unfold receive
  by_cases hs : p.stale frame = true
  · rw [if_pos hs]
    exact .stale hs
  rw [if_neg hs]
  have hs : p.stale frame = false := by simpa using hs
  by_cases hr : frame.event = "phx_reply"
  · rw [if_pos hr]
    unfold receiveReply
    cases hf : frame.reference with
    | none => exact .unmatched hs hr (by simp [hf])
    | some r =>
      dsimp only
      cases hp : p.pending[r]? with
      | none =>
        refine .unmatched hs hr fun r' hr' => ?_
        cases hf.symm.trans hr'
        exact hp
      | some pending =>
        dsimp only
        cases hd : decodeReplyPayload frame.payload with
        | error e => exact .malformed hs hr hf hp hd
        | ok result => exact .settled hs hr hf hp hd
  rw [if_neg hr]
  by_cases hc : frame.event = "phx_close"
  · rw [if_pos hc]
    exact .closed hs hc
  rw [if_neg hc]
  by_cases he : frame.event = "phx_error"
  · rw [if_pos he]
    exact .errored hs he
  · rw [if_neg he]
    exact .message hs hr hc he

@[simp] theorem settle_pending (p : Protocol) (r : Reference) (status : ReplyStatus)
    (response : Payload) (pending : Pending) :
    (p.settle r status response pending).2.pending = p.pending := by
  cases pending <;> cases status <;> rfl

@[simp] theorem settle_nextReference (p : Protocol) (r : Reference) (status : ReplyStatus)
    (response : Payload) (pending : Pending) :
    (p.settle r status response pending).2.nextReference = p.nextReference := by
  cases pending <;> cases status <;> rfl

@[simp] theorem settle_allocated (p : Protocol) (r : Reference) (status : ReplyStatus)
    (response : Payload) (pending : Pending) :
    (p.settle r status response pending).2.allocated = p.allocated := by
  cases pending <;> cases status <;> rfl

/-- How an event comes out of receiving a frame: the request it settles, and the state it
leaves. -/
def Explains (p p' : Protocol) (frame : Frame) : ProtocolEvent → Prop
  | .joined topic r _ => p.pending[r]? = some (.join topic) ∧
      p' = { p with channels := setState p.channels topic .joined, pending := p.pending.erase r }
  | .joinError topic r _ => p.pending[r]? = some (.join topic) ∧
      p' = { p with channels := setState p.channels topic .errored, pending := p.pending.erase r }
  | .left topic r _ => p.pending[r]? = some (.leave topic) ∧
      p' = { p with channels := p.channels.erase topic, pending := p.pending.erase r }
  | .reply topic event r _ _ => frame.event = "phx_reply" ∧ frame.reference = some r ∧
      p.pending[r]? = some (.push topic event) ∧ p' = { p with pending := p.pending.erase r }
  | .heartbeatAck r _ => p.pending[r]? = some .heartbeat ∧
      p' = { p with pending := p.pending.erase r }
  | .channelClosed topic _ => frame.topic = topic ∧ frame.event = "phx_close" ∧
      p.stale frame = false ∧ p' = { p with channels := setState p.channels topic .closed }
  | .channelError topic _ => frame.topic = topic ∧ frame.event = "phx_error" ∧
      p.stale frame = false ∧ p' = { p with channels := setState p.channels topic .errored }
  | .message _ | .staleMessage _ | .unmatchedReply _ => p' = p
  | .requestInterrupted _ _ _ => False

theorem receive_explains {p p' : Protocol} {frame : Frame} {event : ProtocolEvent}
    (h : p.receive frame = (.ok event, p')) : Explains p p' frame event := by
  have hr := received p frame
  rw [h] at hr
  generalize he : (Except.ok event : Except ProtocolError ProtocolEvent) = result at hr
  cases hr with
  | malformed _ _ _ _ _ => cases he
  | stale _ | unmatched _ _ _ | message _ _ _ _ =>
    cases he
    rfl
  | closed hs hc | errored hs hc =>
    cases he
    exact ⟨rfl, hc, hs, rfl⟩
  | @settled r pending status response _ hreply hreference hp _ =>
    cases pending with
    | join topic => cases status <;> cases he <;> exact ⟨hp, rfl⟩
    | leave topic =>
      cases he
      exact ⟨hp, rfl⟩
    | push topic name =>
      cases he
      exact ⟨hreply, hreference, hp, rfl⟩
    | heartbeat =>
      cases he
      exact ⟨hp, rfl⟩

theorem receive_allocated (p : Protocol) (frame : Frame) :
    (p.receive frame).2.allocated = p.allocated := by
  have h := received p frame
  generalize (p.receive frame).1 = result at h
  generalize (p.receive frame).2 = p' at h ⊢
  cases h <;> simp

end Protocol
end PhoenixChannel.Runtime
