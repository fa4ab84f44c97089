import PhoenixChannel.Runtime.Ledger

/-! Operations that fail.

Every operation but one checks before it touches a table. A reply takes its request out of
the pending table first and is decoded second, so a malformed one fails with the request
already gone. -/
namespace PhoenixChannel.Runtime
namespace Protocol

/-- One call of a fallible operation. -/
inductive Attempt where
  | join (topic : Topic) (params : Value)
  | rejoin (topic : Topic) (refreshedParams : Value)
  | leave (topic : Topic)
  | push (topic : Topic) (event : String) (payload : Payload)
  | cast (topic : Topic) (event : String) (payload : Payload)
  | receive (frame : Frame)

def failure {α : Type} : Except ProtocolError α → Option ProtocolError
  | .ok _ => none
  | .error e => some e

/-- The error of a call, if it fails, and the state it leaves. -/
def attempt (p : Protocol) : Attempt → Option ProtocolError × Protocol
  | .join topic params => (failure (p.join topic params).1, (p.join topic params).2)
  | .rejoin topic params => (failure (p.rejoin topic params).1, (p.rejoin topic params).2)
  | .leave topic => (failure (p.leave topic).1, (p.leave topic).2)
  | .push topic event payload =>
    (failure (p.push topic event payload).1, (p.push topic event payload).2)
  | .cast topic event payload => (failure (p.cast topic event payload), p)
  | .receive frame => (failure (p.receive frame).1, (p.receive frame).2)

/-- The two states have the same channels and the same pending requests. -/
structure SameTables (p p' : Protocol) : Prop where
  channels : p'.channels = p.channels
  pending : p'.pending = p.pending

/-- If the call fails, it leaves the tables as they were. -/
def FailsCleanly (p : Protocol) (a : Attempt) : Prop :=
  ∀ e, (p.attempt a).1 = some e → SameTables p (p.attempt a).2

/-- A reply to a pending request whose payload has no reply envelope. -/
structure MalformedReply (p : Protocol) (frame : Frame) : Prop where
  fresh : p.stale frame = false
  event : frame.event = "phx_reply"
  pending : ∃ r, frame.reference = some r ∧ r ∈ p.pending
  payload : ∃ e, decodeReplyPayload frame.payload = .error e

/-- The call receives such a reply. -/
def TakesMalformed (p : Protocol) : Attempt → Prop
  | .receive frame => MalformedReply p frame
  | _ => False

theorem SameTables.refl (p : Protocol) : SameTables p p := ⟨rfl, rfl⟩

/-- A join is refused while its channel is active, and before anything is written. -/
theorem join_failsCleanly (p : Protocol) (topic : Topic) (params : Value) :
    FailsCleanly p (.join topic params) := by
  intro e he
  by_cases h : (p.channelState topic).any ChannelState.active
  · show SameTables p (p.join topic params).2
    rw [join_of_active h]
    exact .refl p
  · simp [attempt, join_of_inactive h, failure] at he

/-- A rejoin that drops the old generation does not fail after it. -/
theorem rejoin_failsCleanly (p : Protocol) (topic : Topic) (params : Value) :
    FailsCleanly p (.rejoin topic params) := by
  intro e he
  show SameTables p (p.rejoin topic params).2
  cases hs : p.channelState topic with
  | none =>
    rw [rejoin_of_unknown hs]
    exact join_failsCleanly p topic params e (by simpa [attempt, rejoin_of_unknown hs] using he)
  | some state =>
    by_cases ha : state.active
    · rw [rejoin_of_active hs ha]
      exact .refl p
    · have hgone : (p.discardChannel topic).2.channelState topic = none := by
        simp [discardChannel, channelState]
      simp [attempt, rejoin_of_inactive hs ha, join_of_unknown hgone, failure] at he

/-- A refused leave has used up a reference, and nothing else. -/
theorem leave_failsCleanly (p : Protocol) (topic : Topic) : FailsCleanly p (.leave topic) := by
  intro e he
  show SameTables p (p.leave topic).2
  rcases leave_cases p topic with ⟨error, hl⟩ | ⟨channel, hc, hs⟩
  · rw [hl]
    exact ⟨rfl, rfl⟩
  · simp [attempt, leave_of_joined hc hs, failure] at he

/-- A push is refused unless its channel is joined, and before a reference is taken. -/
theorem push_failsCleanly (p : Protocol) (topic : Topic) (event : String) (payload : Payload) :
    FailsCleanly p (.push topic event payload) := by
  intro e he
  show SameTables p (p.push topic event payload).2
  cases hj : p.joinedRef topic with
  | none =>
    rw [push_of_not_joined hj]
    exact .refl p
  | some joinRef => simp [attempt, push_of_joined hj, failure] at he

/-- Of the ways a frame is received, only the malformed reply fails. -/
theorem malformed_of_failure {p : Protocol} {frame : Frame} {e : ProtocolError}
    (h : (p.receive frame).1 = .error e) : MalformedReply p frame := by
  have hr := received p frame
  rw [h] at hr
  generalize (p.receive frame).2 = p' at hr
  generalize hres : (Except.error e : Except ProtocolError ProtocolEvent) = result at hr
  cases hr with
  | malformed hs he href hp hd => exact ⟨hs, he, ⟨_, href, Library.Table.mem_of_lookup hp⟩, _, hd⟩
  | _ => cases hres

/-- It fails with its request gone from the pending table. -/
theorem receive_malformed {p : Protocol} {frame : Frame} (h : MalformedReply p frame) :
    ∃ e r, r ∈ p.pending ∧ (p.receive frame).1 = .error e ∧ r ∉ (p.receive frame).2.pending := by
  obtain ⟨r, hr, hp⟩ := h.pending
  obtain ⟨e, he⟩ := h.payload
  obtain ⟨pending, hlookup⟩ := Library.Table.lookup_of_mem hp
  have hrec : p.receive frame = (.error e, { p with pending := p.pending.erase r }) := by
    simp [receive, h.fresh, h.event, receiveReply, hr, hlookup, he]
  exact ⟨e, r, hp, by rw [hrec], by rw [hrec]; simp⟩

/-- **When a failed operation changes no table.** The one failure that does is that of a
malformed reply to a pending request. -/
theorem failsCleanly_iff (p : Protocol) (a : Attempt) : FailsCleanly p a ↔ ¬ TakesMalformed p a := by
  cases a with
  | join topic params => exact iff_of_true (join_failsCleanly p topic params) id
  | rejoin topic params => exact iff_of_true (rejoin_failsCleanly p topic params) id
  | leave topic => exact iff_of_true (leave_failsCleanly p topic) id
  | push topic event payload => exact iff_of_true (push_failsCleanly p topic event payload) id
  | cast topic event payload => exact iff_of_true (fun _ _ => .refl p) id
  | receive frame =>
    constructor
    · intro hclean hbad
      obtain ⟨e, r, hp, herr, hgone⟩ := receive_malformed hbad
      have hsame := hclean e (by simp [attempt, herr, failure])
      exact hgone (by
        show r ∈ (p.attempt (.receive frame)).2.pending
        rw [hsame.pending]
        exact hp)
    · intro hgood e he
      refine absurd ?_ hgood
      cases hres : (p.receive frame).1 with
      | ok event => simp [attempt, hres, failure] at he
      | error e' => exact malformed_of_failure hres

/-- A reply to the join of `room` that carries bytes. -/
def binaryReply : Frame := ⟨some "1", some "1", "room", "phx_reply", .binary []⟩

/-- The protocol that waits for it. -/
def awaiting : Protocol := (new.join "room" .null).2

/-- The join of `room` is lost to it: the channel stays joining, nothing is pending, and
neither a join, a rejoin nor a leave of the topic succeeds any more. -/
theorem malformed_reply_strands_join :
    (∃ l, Ledger.machine.Reachable l ∧ l.protocol = awaiting) ∧
      ¬ FailsCleanly awaiting (.receive binaryReply) ∧
      awaiting.channelState "room" = some .joining ∧ "1" ∈ awaiting.pending ∧
      failure (awaiting.receive binaryReply).1 = some .invalidReplyPayload ∧
      (awaiting.receive binaryReply).2.channelState "room" = some .joining ∧
      (awaiting.receive binaryReply).2.pending.isEmpty ∧
      (failure ((awaiting.receive binaryReply).2.join "room" .null).1).isSome ∧
      (failure ((awaiting.receive binaryReply).2.rejoin "room" .null).1).isSome ∧
      (failure ((awaiting.receive binaryReply).2.leave "room").1).isSome := by
  refine ⟨⟨_, Library.Machine.reachable_iff_run.mpr ⟨[.join "room" .null], rfl⟩, rfl⟩, ?_, by decide,
    by decide, by decide, by decide, by decide, by decide, by decide, by decide⟩
  intro h
  have hsame := h .invalidReplyPayload (by decide)
  have hgone : "1" ∉ (awaiting.attempt (.receive binaryReply)).2.pending := by decide
  rw [hsame.pending] at hgone
  exact hgone (by decide)

end Protocol
end PhoenixChannel.Runtime
