import PhoenixChannel.Runtime.CodecLimits
import PhoenixChannel.Runtime.Session

/-! Requests that are never sent.

A session asks its protocol for the frame before it asks its codec for the message. A frame that
the codec refuses is not sent, but the protocol has moved on: a topic joins or leaves with nothing
in flight, a push or a heartbeat waits for a reply that cannot come. -/
namespace PhoenixChannel.Runtime
open Library (Table)

namespace LimitedPhoenixV2Codec

/-- The codec as a session holds it. -/
def codec (json : Json) (limits : CodecLimits) : Codec where
  encode frame := (encode json limits frame).mapError MessageError.toString
  decode message := (decode json limits message).mapError MessageError.toString

end LimitedPhoenixV2Codec

namespace SessionRequest

/-- The next reference already stands for the same request. -/
def Pends (p : Protocol) : SessionRequest → Prop
  | .push topic event _ => p.pending[p.nextText]? = some (.push topic event)
  | .heartbeat => p.pending[p.nextText]? = some .heartbeat
  | .join _ _ | .rejoin _ _ | .leave _ => False

/-- A join that goes through moves its topic's channel. -/
theorem join_moves {p p' : Protocol} {topic : Topic} {params : Value} {o : Outbound}
    (h : p.join topic params = (.ok o, p')) : p'.channelState topic = some .joining ∧
      ¬ (p.channelState topic).any ChannelState.active := by
  by_cases ha : (p.channelState topic).any ChannelState.active
  · rw [Protocol.join_of_active ha] at h
    cases h
  · rw [Protocol.join_of_inactive ha] at h
    cases h
    refine ⟨?_, ha⟩
    simp [Protocol.channelState]

/-- What a request does before its frame is encoded. -/
theorem outbound_unchanged_iff {p p' : Protocol} {r : SessionRequest} {o : Outbound}
    (h : r.outbound p = (.ok o, p')) :
    (p'.channels = p.channels ∧ p'.pending = p.pending) ↔ r.Pends p := by
  have hinactive : ∀ {topic : Topic}, p'.channelState topic = some .joining →
      ¬ (p.channelState topic).any ChannelState.active → ¬ (p'.channels = p.channels ∧ p'.pending = p.pending) := by
    rintro topic hjoining ha ⟨hc, -⟩
    rw [Protocol.channelState, hc] at hjoining
    exact ha (by rw [Protocol.channelState, hjoining]; rfl)
  cases r with
  | join topic params =>
    obtain ⟨hjoining, ha⟩ := join_moves h
    exact iff_of_false (hinactive hjoining ha) not_false
  | rejoin topic params =>
    refine iff_of_false ?_ not_false
    rw [outbound] at h
    cases hs : p.channelState topic with
    | none =>
      rw [Protocol.rejoin_of_unknown hs] at h
      obtain ⟨hjoining, ha⟩ := join_moves h
      exact hinactive hjoining ha
    | some state =>
      by_cases ha : state.active
      · rw [Protocol.rejoin_of_active hs ha] at h
        cases h
      · rw [Protocol.rejoin_of_inactive hs ha] at h
        exact hinactive (join_moves h).1 (by rw [hs]; exact ha)
  | push topic event payload =>
    rw [outbound] at h
    cases hj : p.joinedRef topic with
    | none =>
      rw [Protocol.push_of_not_joined hj] at h
      cases h
    | some joinRef =>
      rw [Protocol.push_of_joined hj] at h
      cases h
      exact (and_iff_right rfl).trans Table.insert_eq_self
  | leave topic =>
    refine iff_of_false ?_ not_false
    rw [outbound] at h
    rcases Protocol.leave_cases p topic with ⟨error, hl⟩ | ⟨channel, hc, hs⟩
    · rw [hl] at h
      cases h
    · rw [Protocol.leave_of_joined hc hs] at h
      cases h
      rintro ⟨hsame, -⟩
      have hleaving := Table.insert_eq_self.mp hsame
      rw [hc] at hleaving
      have hstate : channel.state = .leaving := congrArg Channel.state (Option.some.inj hleaving)
      cases hs.symm.trans hstate
  | heartbeat =>
    rw [outbound, Protocol.heartbeat_eq] at h
    cases h
    exact (and_iff_right rfl).trans Table.insert_eq_self

end SessionRequest

/-- **A request that cannot be encoded leaves a trace**, unless it is a push or a heartbeat that the
pending table has under the next reference already. -/
theorem refused_request_traceless_iff (s : Session) (r : SessionRequest) {o : Outbound} {p' : Protocol} {e : String}
    (ho : r.outbound s.protocol = (.ok o, p')) (he : s.codec.encode o.frame = .error e) :
    (r.perform s).1 = .ready (.error (.codec e)) ∧ (r.perform s).2.transport = s.transport ∧
      (((r.perform s).2.protocol.channels = s.protocol.channels ∧
        (r.perform s).2.protocol.pending = s.protocol.pending) ↔ r.Pends s.protocol) := by
  have hperform : r.perform s = (.ready (.error (.codec e)), { s with protocol := p' }) := by
    simp only [SessionRequest.perform_eq, ho, Session.request, Session.send, he]
  rw [hperform]
  exact ⟨rfl, rfl, SessionRequest.outbound_unchanged_iff ho⟩

/-- serde_json on frames whose payload is a plain text. -/
def plainJson : Json where
  print
    | [.string joinRef, .string reference, .string topic, .string event, .string payload] =>
      .ok ("[\"" ++ joinRef ++ "\",\"" ++ reference ++ "\",\"" ++ topic ++ "\",\"" ++ event ++ "\",\"" ++ payload ++
        "\"]")
    | _ => .error "unexpected values"
  read _ := .error "unexpected text"

/-- A session that sends frames of at most 40 bytes. -/
def smallSession : Session :=
  .withCodec ⟨[], [], []⟩ (LimitedPhoenixV2Codec.codec plainJson ⟨40, 40⟩)

/-- The refused join is not traceless: its channel stays. -/
theorem refused_request_traceless_iff_small :
    let large := SessionRequest.join "room" (.string "a token with no end")
    ∃ e, (large.perform smallSession).1 = .ready (.error (.codec e)) ∧
      ¬ ((large.perform smallSession).2.protocol.channels = smallSession.protocol.channels ∧
        (large.perform smallSession).2.protocol.pending = smallSession.protocol.pending) := by
  intro large
  obtain ⟨hready, -, hiff⟩ := refused_request_traceless_iff smallSession large rfl rfl
  exact ⟨_, hready, hiff.not.mpr not_false⟩

/-- A join is refused for its size; a smaller one for the same topic, which the codec takes, is then
refused because the topic is active, with nothing sent. -/
theorem refused_join_stays_active :
    let large := SessionRequest.join "room" (.string "a token with no end")
    let small := SessionRequest.join "room" (.string "token")
    (Deliveries.machine smallSession.transport smallSession.codec).Reachable ⟨smallSession, [], []⟩ ∧
      (∃ e, (large.perform smallSession).1 = .ready (.error (.codec e))) ∧
      (large.perform smallSession).2.protocol.channelState "room" ≠ smallSession.protocol.channelState "room" ∧
      (small.perform (large.perform smallSession).2).1 = .ready (.error (.protocol (.alreadyActive "room"))) ∧
      (small.perform (large.perform smallSession).2).2.transport.sent = [] ∧
      (small.perform smallSession).2.transport.sent ≠ [] :=
  ⟨.start, ⟨_, rfl⟩, by decide, rfl, rfl, by decide⟩

end PhoenixChannel.Runtime
