import PhoenixChannel.Client.ProtocolMoves

/-! Deadlines that outlive their operation.

A deadline is never taken back: it is disarmed by removing its reference from the table of
its operation. While the reference is there, the deadline discards the topic's channel,
whatever generation that channel belongs to by then. -/
namespace PhoenixChannel.Client
open PhoenixChannel.Runtime Library

namespace OperationTimeout

/-- The deadline's reference is still in the table of its operation. -/
def Armed (d : Driver) : OperationTimeout → Prop
  | .join topic reference _ => d.state.pendingJoins[reference]? = some topic
  | .leave _ reference _ => reference ∈ d.state.pendingLeaves

/-- The topic's channel was joined by a request later than the deadline's. -/
def Superseded (d : Driver) (operation : OperationTimeout) : Prop :=
  ∃ (channel : Channel) (m n : Nat), d.state.protocol.channels[operation.topic]? = some channel ∧
    operation.reference = m.repr ∧ channel.joinRef = n.repr ∧ m < n

/-- The caller that is still waiting for the operation. -/
def caller (d : Driver) : OperationTimeout → Option RequestId
  | .join _ _ _ => none
  | .leave _ reference _ => d.state.pendingLeaves[reference]?.map PendingLeave.id

end OperationTimeout

namespace Driver

/-- From `d` to `d'` the topic keeps its channel and its pending requests, and its record
the wish to be joined, the status and the waiters. Nobody but the caller is answered. -/
structure GenerationIntact (topic : Topic) (caller : Option RequestId) (d d' : Driver) : Prop where
  channel : d'.state.protocol.channels[topic]? = d.state.protocol.channels[topic]?
  pending : ∀ (r : Reference) (pending : Pending), pending.topic? = some topic →
    (d'.state.protocol.pending[r]? = some pending ↔ d.state.protocol.pending[r]? = some pending)
  desired : (d'.record topic).map ChannelRecord.desired = (d.record topic).map ChannelRecord.desired
  status : (d'.record topic).map ChannelRecord.status = (d.record topic).map ChannelRecord.status
  waiters : (d'.record topic).map ChannelRecord.joinWaiters =
    (d.record topic).map ChannelRecord.joinWaiters
  answers : ∀ operation id result, .answered operation id result ∈ d.done d' → caller = some id

/-- Nothing that a generation is made of changes when neither the protocol, the records nor
the trace do. -/
theorem GenerationIntact.of_eq {d d' : Driver} (topic : Topic) (caller : Option RequestId)
    (hp : d'.state.protocol = d.state.protocol) (hc : d'.state.channels = d.state.channels)
    (ht : d'.trace = d.trace) : GenerationIntact topic caller d d' where
  channel := by rw [hp]
  pending r pending _ := by rw [hp]
  desired := by rw [record, hc, record]
  status := by rw [record, hc, record]
  waiters := by rw [record, hc, record]
  answers operation id result h := by simp [done, ht] at h

theorem discardChannel_unknown (p : Protocol) (topic : Topic) :
    (p.discardChannel topic).2.channels[topic]? = none := by
  show (p.channels.erase topic)[topic]? = none
  rw [Table.lookup_erase, if_pos rfl]

/-- A deadline that means something leaves its topic without a channel. -/
theorem armed_discards (env : Env) {d : Driver} {operation : OperationTimeout}
    (h : operation.Armed d) :
    (d.handleOperationTimeout env operation).state.protocol.channels[operation.topic]? = none := by
  cases operation with
  | join topic reference duration =>
    have ha : d.state.pendingJoins[reference]? = some topic := h
    simp only [handleOperationTimeout, ha, if_true, joinTimedOut_protocol]
    exact discardChannel_unknown _ topic
  | leave topic reference duration =>
    obtain ⟨pending, hp⟩ : ∃ pending, d.state.pendingLeaves[reference]? = some pending :=
      by
      have hm : reference ∈ d.state.pendingLeaves := h
      exact Option.isSome_iff_exists.mp (Std.ExtTreeMap.isSome_getElem?_iff_mem.mpr hm)
    simp only [handleOperationTimeout, hp, leaveTimedOut_protocol]
    exact discardChannel_unknown _ topic

/-- A deadline whose reference is gone does nothing but take it out once more. -/
theorem disarmed_intact {env : Env} {d : Driver} {operation : OperationTimeout}
    (h : ¬ operation.Armed d) :
    GenerationIntact operation.topic (operation.caller d) d
      (d.handleOperationTimeout env operation) := by
  cases operation with
  | join topic reference duration =>
    have ha : ¬ d.state.pendingJoins[reference]? = some topic := h
    simp only [handleOperationTimeout, if_neg ha]
    exact .of_eq topic _ rfl rfl rfl
  | leave topic reference duration =>
    have hm : reference ∉ d.state.pendingLeaves := h
    have hp : d.state.pendingLeaves[reference]? = none := by simpa using hm
    simp only [handleOperationTimeout, hp]
    exact .of_eq topic _ rfl rfl rfl

/-- **A deadline leaves the topic's generation intact exactly when its own reference is no
longer in the table of its operation.** -/
theorem deadline_harmless_iff (env : Env) (d : Driver) (operation : OperationTimeout)
    (hc : operation.topic ∈ d.state.protocol.channels) :
    GenerationIntact operation.topic (operation.caller d) d
      (d.handleOperationTimeout env operation) ↔ ¬ operation.Armed d := by
  constructor
  · intro h harmed
    have hgone := armed_discards env harmed
    rw [h.channel] at hgone
    simp [hc] at hgone
  · exact disarmed_intact

/-- A join is answered, the channel fails and is joined again, and then the deadline of the
first join passes. -/
def failedChannel : List Input :=
  [.connectionMade [], .lifecycle (.register "room"), .command (.join 1 "room" 10),
    .payload "room" 1 (.ok (.object [])), .frame (replyFrame "ok" "room" "1" "1"),
    .frame (serverFrame "phx_error" "room" "1"), .tick 1, .rejoin ⟨1, "room"⟩,
    .payload "room" 2 (.ok (.object [])), .tick 9]

/-- The deadline of the first join is still to come when the second is in flight. As the first was
answered, its entry is gone and the deadline does nothing to the second. -/
theorem deadline_harmless_iff_failed :
    ∃ (env : Env) (d : Driver), (driver env).Reachable d ∧
      OperationTimeout.Superseded d (.join "room" "1" 10) ∧
      GenerationIntact "room" none d (d.handleOperationTimeout env (.join "room" "1" 10)) := by
  let env := smallEnv [replyFrame "ok" "room" "1" "1", serverFrame "phx_error" "room" "1"]
  obtain ⟨d, hr, hd⟩ := Machine.reachable_of_run (driver env) failedChannel
    (fun d => ⟨10, .join "room" "1" 10⟩ ∈ d.connection.operationTimeouts ∧ d.clock = 10 ∧
      d.state.protocol.channels["room"]?.map Channel.joinRef = some "2" ∧
      d.state.pendingJoins["1"]? = none) (by decide +kernel)
  obtain ⟨-, -, hchannel, hjoin⟩ := of_decide_eq_true hd
  obtain ⟨channel, hchannel, href⟩ := Option.map_eq_some_iff.mp hchannel
  refine ⟨env, d, hr, ⟨channel, 1, 2, hchannel, rfl, href, by decide⟩, ?_⟩
  have hmem : "room" ∈ d.state.protocol.channels := Table.mem_of_lookup hchannel
  refine (deadline_harmless_iff env d (.join "room" "1" 10) hmem).mpr fun harmed => ?_
  cases hjoin.symm.trans harmed

/-- A join is sent, its handle dropped, and the topic registered and joined again. The
second join is answered, and then the deadline of the first one passes. -/
def droppedJoin : List Input :=
  [.connectionMade [], .lifecycle (.register "room"), .command (.join 1 "room" 10),
    .payload "room" 1 (.ok (.object [])), .lifecycle (.unregister "room"),
    .lifecycle (.register "room"), .command (.join 2 "room" 10),
    .payload "room" 2 (.ok (.object [])), .frame (replyFrame "ok" "room" "2" "2"), .tick 10]

/-- The deadline of the first join takes effect on the second generation. -/
theorem dropped_join_deadline :
    ¬ ∀ (env : Env) (d : Driver) (timer : Timer OperationTimeout), (driver env).Reachable d →
      d.phase = .connected → timer ∈ d.connection.operationTimeouts → timer.due ≤ d.clock →
      timer.value.Superseded d →
      GenerationIntact timer.value.topic (timer.value.caller d) d
        ((d.takeOperationTimeout timer).handleOperationTimeout env timer.value) := by
  intro hall
  let env := smallEnv [replyFrame "ok" "room" "2" "2"]
  let operation : OperationTimeout := .join "room" "1" 10
  obtain ⟨d, hr, hd⟩ := Machine.reachable_of_run (driver env) droppedJoin
    (fun d => d.phase = .connected ∧ ⟨10, operation⟩ ∈ d.connection.operationTimeouts ∧
      d.clock = 10 ∧ d.state.protocol.channels["room"]?.map Channel.joinRef = some "2" ∧
      d.state.pendingJoins["1"]? = some "room") (by decide +kernel)
  obtain ⟨hphase, htimer, hclock, hchannel, hjoin⟩ := of_decide_eq_true hd
  obtain ⟨channel, hchannel, href⟩ := Option.map_eq_some_iff.mp hchannel
  have h := hall env d ⟨10, operation⟩ hr hphase htimer (Nat.le_of_eq hclock.symm)
    ⟨channel, 1, 2, hchannel, rfl, href, by decide⟩
  have harmed : operation.Armed (d.takeOperationTimeout ⟨10, operation⟩) := hjoin
  have hgone := (armed_discards env harmed).symm.trans h.channel
  cases hgone.trans hchannel

end Driver
end PhoenixChannel.Client
