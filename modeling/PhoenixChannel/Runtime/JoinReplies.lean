import PhoenixChannel.Runtime.Coherence

/-! What makes a channel joined.

A reply is correlated by its reference alone, and settles its join whatever became of the
channel meanwhile. What can become of it is a close, an error, or the reply to a leave of
an earlier generation: they change or drop the channel and leave its join pending. Where
none of them crosses a pending join, each pending join is the one its joining channel waits
for. -/
namespace PhoenixChannel.Runtime
namespace Protocol
open Library

/-- If the frame makes the channel joined, the channel was joining, and the frame is the ok
reply to its join. -/
def JoinsThroughReply (p : Protocol) (frame : Frame) (topic : Topic) : Prop :=
  p.channelState topic ≠ some .joined → (p.receive frame).2.channelState topic = some .joined →
    ∃ channel response, p.channels[topic]? = some channel ∧ channel.state = .joining ∧
      frame.event = "phx_reply" ∧ frame.reference = some channel.joinRef ∧
      decodeReplyPayload frame.payload = .ok (.ok, response)

/-- A join of the topic waits for its reply. -/
def JoinPending (p : Protocol) (topic : Topic) : Prop :=
  ∃ r : Reference, p.pending[r]? = some (.join topic)

/-- A frame takes a topic's channel down while a join of the topic is pending. -/
inductive CrossesJoin (p : Protocol) (frame : Frame) : Prop where
  /-- A close or an error of the topic. -/
  | down (fresh : p.stale frame = false)
      (event : frame.event = "phx_close" ∨ frame.event = "phx_error")
      (pending : p.JoinPending frame.topic)
  /-- The reply to a leave that is pending next to the join. -/
  | left {r : Reference} {topic : Topic} {result : ReplyStatus × Payload}
      (fresh : p.stale frame = false) (event : frame.event = "phx_reply")
      (reference : frame.reference = some r) (leave : p.pending[r]? = some (.leave topic))
      (payload : decodeReplyPayload frame.payload = .ok result) (pending : p.JoinPending topic)

/-- The call receives such a frame. -/
def TakesCrossing (p : Protocol) : Op → Prop
  | .receive frame => CrossesJoin p frame
  | _ => False

/-- Every pending join is the one its channel is joining by. -/
def JoinsAwaited (p : Protocol) : Prop :=
  ∀ (r : Reference) (t : Topic), p.pending[r]? = some (.join t) →
    ∃ c : Channel, p.channels[t]? = some c ∧ c.state = .joining ∧ c.joinRef = r

variable {p p' : Protocol}

/-- Pending joins only go, and the channels of the others stay. -/
theorem JoinsAwaited.fewer (h : p.JoinsAwaited)
    (hf : ∀ (r : Reference) (t : Topic), p'.pending[r]? = some (.join t) →
      p.pending[r]? = some (.join t) ∧ p'.channels[t]? = p.channels[t]?) : p'.JoinsAwaited := by
  intro r t hr
  obtain ⟨hold, hsame⟩ := hf r t hr
  obtain ⟨c, hc, hrest⟩ := h r t hold
  exact ⟨c, by rw [hsame, hc], hrest⟩

/-- A topic without a joining channel has no join pending. -/
theorem JoinsAwaited.none (h : p.JoinsAwaited) (topic : Topic)
    (hs : p.channelState topic ≠ some .joining) (r : Reference) :
    p.pending[r]? ≠ some (.join topic) := by
  intro hr
  obtain ⟨c, hc, hstate, _⟩ := h r topic hr
  exact hs (by simp [channelState, hc, hstate])

/-- A new join is pending, and its channel is joining under the same reference. -/
theorem JoinsAwaited.join (h : p.JoinsAwaited) (topic : Topic) (params : Value) :
    (p.join topic params).2.JoinsAwaited := by
  by_cases ha : (p.channelState topic).any ChannelState.active
  · rw [join_of_active ha]
    exact h
  have hnone := h.none topic fun hs => ha (by rw [hs]; rfl)
  rw [join_of_inactive ha]
  intro r t hr
  rw [Table.lookup_insert] at hr
  by_cases he : r = p.nextText
  · rw [if_pos he] at hr
    cases hr
    exact ⟨⟨.joining, p.nextText, params⟩, by simp, rfl, he.symm⟩
  · rw [if_neg he] at hr
    have ht : t ≠ topic := by
      rintro rfl
      exact hnone r hr
    obtain ⟨c, hc, hrest⟩ := h r t hr
    exact ⟨c, by rw [Table.lookup_insert, if_neg ht, hc], hrest⟩

/-- Discarding drops a topic's pending joins with its channel. -/
theorem JoinsAwaited.discard (h : p.JoinsAwaited) (topic : Topic) :
    (p.discardChannel topic).2.JoinsAwaited := by
  refine h.fewer fun r t hr => ?_
  simp only [discardChannel, Std.ExtTreeMap.getElem?_filter'] at hr
  rw [Option.filter_eq_some_iff] at hr
  have ht : t ≠ topic := by
    rintro rfl
    simp [Pending.topic?] at hr
  exact ⟨hr.1, by simp only [discardChannel, Table.lookup_erase, if_neg ht]⟩

/-- A rejoin discards the channel first, so the only pending join is the new one. -/
theorem JoinsAwaited.rejoin (h : p.JoinsAwaited) (topic : Topic) (params : Value) :
    (p.rejoin topic params).2.JoinsAwaited := by
  cases hs : p.channelState topic with
  | none =>
    rw [rejoin_of_unknown hs]
    exact h.join topic params
  | some state =>
    by_cases ha : state.active
    · rw [rejoin_of_active hs ha]
      exact h
    · rw [rejoin_of_inactive hs ha]
      exact (h.discard topic).join topic params

/-- Each rejoin keeps the invariant, and they come one after the other. -/
theorem JoinsAwaited.rejoinEach (h : p.JoinsAwaited) (targets : List (Topic × Value)) :
    (p.rejoinEach targets).2.JoinsAwaited := by
  induction targets generalizing p with
  | nil => exact h
  | cons target rest ih =>
    rw [rejoinEach_cons]
    exact ih (h.rejoin target.1 target.2)

/-- A channel that is left was joined, so no join of it was pending. -/
theorem JoinsAwaited.leave (h : p.JoinsAwaited) (topic : Topic) :
    (p.leave topic).2.JoinsAwaited := by
  rcases leave_cases p topic with ⟨error, hl⟩ | ⟨channel, hc, hs⟩
  · rw [hl]
    exact h
  · rw [leave_of_joined hc hs]
    refine h.fewer fun r t hr => ?_
    rw [Table.lookup_insert] at hr
    split at hr
    · cases hr
    have ht : t ≠ topic := by
      rintro rfl
      exact h.none t (by simp [channelState, hc, hs]) r hr
    exact ⟨hr, by rw [Table.lookup_insert, if_neg ht]⟩

/-- A request that is not a join becomes pending. -/
theorem JoinsAwaited.insert (h : p.JoinsAwaited) {pending : Pending}
    (hp : ∀ t, pending ≠ .join t) (n : UInt64) (a : Nat) :
    JoinsAwaited ⟨n, p.channels, p.pending.insert p.nextText pending, a⟩ := by
  refine h.fewer fun r t hr => ?_
  rw [Table.lookup_insert] at hr
  split at hr
  · exact absurd (Option.some.inj hr) (hp t)
  · exact ⟨hr, rfl⟩

/-- With fewer requests pending there is less to ask. -/
theorem JoinsAwaited.erase (h : p.JoinsAwaited) (r : Reference) :
    JoinsAwaited { p with pending := p.pending.erase r } := by
  refine h.fewer fun r' t hr => ?_
  rw [Table.lookup_erase] at hr
  split at hr
  · cases hr
  · exact ⟨hr, rfl⟩

/-- The one join of its topic is settled. -/
theorem JoinsAwaited.settled (h : p.JoinsAwaited) {r : Reference} {topic : Topic}
    (hr : p.pending[r]? = some (.join topic)) (state : ChannelState) :
    JoinsAwaited { p with
      channels := setState p.channels topic state
      pending := p.pending.erase r } := by
  obtain ⟨c, hc, _, hcr⟩ := h r topic hr
  refine h.fewer fun r' t hr' => ?_
  rw [Table.lookup_erase] at hr'
  split at hr'
  · cases hr'
  have ht : t ≠ topic := by
    rintro rfl
    obtain ⟨c', hc', _, hcr'⟩ := h r' t hr'
    cases hc.symm.trans hc'
    exact absurd (hcr'.symm.trans hcr) (by assumption)
  exact ⟨hr', by rw [lookup_setState, if_neg ht]⟩

/-- A channel without a pending join changes its state. -/
theorem JoinsAwaited.setState (h : p.JoinsAwaited) {topic : Topic}
    (hn : ∀ r : Reference, p.pending[r]? ≠ some (.join topic)) (state : ChannelState) :
    JoinsAwaited { p with channels := setState p.channels topic state } := by
  refine h.fewer fun r t hr => ⟨hr, ?_⟩
  have ht : t ≠ topic := by
    rintro rfl
    exact hn r hr
  rw [lookup_setState, if_neg ht]

/-- A channel without a pending join is dropped. -/
theorem JoinsAwaited.dropped (h : p.JoinsAwaited) {topic : Topic}
    (hn : ∀ r : Reference, p.pending[r]? ≠ some (.join topic)) :
    JoinsAwaited { p with channels := p.channels.erase topic } := by
  refine h.fewer fun r t hr => ⟨hr, ?_⟩
  have ht : t ≠ topic := by
    rintro rfl
    exact hn r hr
  rw [Table.lookup_erase, if_neg ht]

/-- A frame that crosses no pending join changes the channel of a pending join only by settling that join. -/
theorem JoinsAwaited.receive (h : p.JoinsAwaited) {frame : Frame} (hx : ¬ CrossesJoin p frame) :
    (p.receive frame).2.JoinsAwaited := by
  have hrec := received p frame
  generalize (p.receive frame).1 = result at hrec
  generalize (p.receive frame).2 = p' at hrec ⊢
  cases hrec with
  | stale | unmatched | message => exact h
  | malformed => exact h.erase _
  | closed hs he => exact h.setState (fun r hr => hx (.down hs (.inl he) ⟨r, hr⟩)) _
  | errored hs he => exact h.setState (fun r hr => hx (.down hs (.inr he) ⟨r, hr⟩)) _
  | @settled r pending status response hs he href hp hd =>
    cases pending with
    | join topic => cases status <;> exact h.settled hp _
    | push topic event => exact h.erase r
    | heartbeat => exact h.erase r
    | leave topic =>
      have hn : ∀ r : Reference, p.pending[r]? ≠ some (.join topic) :=
        fun r' hr' => hx (.left hs he href hp hd ⟨r', hr'⟩)
      exact (h.dropped hn).erase r

/-- Every operation but a frame that crosses a join. -/
theorem JoinsAwaited.perform (h : p.JoinsAwaited) {op : Op} (hx : ¬ TakesCrossing p op) :
    (p.perform op).2.JoinsAwaited := by
  cases op with
  | join topic params => exact h.join topic params
  | rejoin topic params => exact h.rejoin topic params
  | rejoinAllWithStoredParams order => exact h.rejoinEach _
  | leave topic => exact h.leave topic
  | push topic event payload =>
    show (p.push topic event payload).2.JoinsAwaited
    cases hj : p.joinedRef topic with
    | none =>
      rw [push_of_not_joined hj]
      exact h
    | some joinRef =>
      rw [push_of_joined hj]
      exact h.insert (by simp) _ _
  | heartbeat => exact h.insert (by simp) _ _
  | forgetPush r =>
    show (p.forgetPush r).2.JoinsAwaited
    rcases forgetPush_cases p r with ⟨_, _, _, he⟩ | he <;> rw [he]
    · exact h.erase r
    · exact h
  | forgetHeartbeat r =>
    show (p.forgetHeartbeat r).2.JoinsAwaited
    rcases forgetHeartbeat_cases p r with ⟨_, he⟩ | he <;> rw [he]
    · exact h.erase r
    · exact h
  | discardChannel topic => exact h.discard topic
  | resetConnection =>
    intro r t hr
    simp [Protocol.perform, resetConnection] at hr
  | receive frame => exact h.receive hx

/-! ### The frame that makes a channel joined

Only the reply to a pending join does, and under the invariant that join is the channel's own. -/

/-- It is an ok reply to a pending join of the topic. -/
theorem joined_by_reply {frame : Frame} {topic : Topic} (hb : p.channelState topic ≠ some .joined)
    (ha : (p.receive frame).2.channelState topic = some .joined) :
    ∃ r response, frame.event = "phx_reply" ∧ frame.reference = some r ∧
      p.pending[r]? = some (.join topic) ∧
      decodeReplyPayload frame.payload = .ok (.ok, response) := by
  -- an operation that does not touch the topic's channel leaves its state as it was
  have hsame : ∀ {channels : Table Topic Channel}, channels[topic]? = p.channels[topic]? →
      (channels[topic]?.map Channel.state) ≠ some .joined := by
    intro channels he
    rw [he]
    exact hb
  -- and one that moves a channel to another state does not make it joined
  have hdown : ∀ {t : Topic} {state : ChannelState}, state ≠ .joined →
      ((Protocol.setState p.channels t state)[topic]?.map Channel.state) ≠ some .joined := by
    intro t state hs
    by_cases ht : topic = t
    · rw [lookup_setState, if_pos ht, Option.map_map]
      cases p.channels[topic]? with
      | none => simp
      | some c => simpa using hs
    · exact hsame (by rw [lookup_setState, if_neg ht])
  have hrec := received p frame
  unfold channelState at ha
  generalize (p.receive frame).1 = result at hrec
  generalize (p.receive frame).2 = p' at hrec ha
  cases hrec with
  | stale | unmatched | message | malformed => exact absurd ha hb
  | closed | errored => exact absurd ha (hdown (by simp))
  | @settled r pending status response _ he href hp hd =>
    cases pending with
    | push | heartbeat => exact absurd ha hb
    | leave t =>
      by_cases ht : topic = t
      · subst ht
        simp [settle] at ha
      · exact absurd ha (hsame (by simp only [settle, Table.lookup_erase, if_neg ht]))
    | join t =>
      cases status with
      | error => exact absurd ha (hdown (by simp))
      | ok =>
        by_cases ht : topic = t
        · subst ht
          exact ⟨r, response, he, href, hp, hd⟩
        · exact absurd ha (hsame (by simp only [settle, lookup_setState, if_neg ht]))

/-- Where each pending join is its channel's own, the reply to it is the only way to become joined. -/
theorem JoinsAwaited.through (h : p.JoinsAwaited) (frame : Frame) (topic : Topic) :
    JoinsThroughReply p frame topic := by
  intro hb ha
  obtain ⟨r, response, he, href, hp, hd⟩ := joined_by_reply hb ha
  obtain ⟨c, hc, hs, hcr⟩ := h r topic hp
  exact ⟨c, response, hc, hs, he, by rw [href, hcr], hd⟩

/-- The invariant holds in every run without such frames. -/
theorem joinsAwaited_of_reach {l : Ledger}
    (h : Ledger.machine.Reach (fun l op => ¬ TakesCrossing l.protocol op) l) :
    l.protocol.JoinsAwaited := by
  refine h.invariant (P := fun l => l.protocol.JoinsAwaited) ?_ ?_
  · intro r t hr
    simp [Ledger.machine, new] at hr
  · intro l op l' _ ih hok hs
    cases Ledger.eq_record hs
    exact ih.perform hok

/-- **A channel becomes joined through its own pending join**, in every run in which no
close, error or reply to an earlier leave takes a channel down while its join is pending. -/
theorem joins_through_own_reply {l : Ledger}
    (h : Ledger.machine.Reach (fun l op => ¬ TakesCrossing l.protocol op) l) (frame : Frame)
    (topic : Topic) : JoinsThroughReply l.protocol frame topic :=
  (joinsAwaited_of_reach h).through frame topic

/-- The ok reply to the first join of `room`, with or without its join reference. -/
def firstReply (joinRef : Option Reference) : Frame :=
  ⟨joinRef, some "1", "room", "phx_reply", .reply "ok" .emptyObject⟩

/-- The first join and its reply. -/
theorem joins_through_own_reply_first :
    ∃ l, Ledger.machine.run Ledger.machine.start [.join "room" .null] = some l ∧
      (l.protocol.receive (firstReply (some "1"))).2.channelState "room" = some .joined ∧
      JoinsThroughReply l.protocol (firstReply (some "1")) "room" := by
  refine ⟨_, rfl, by decide, ?_⟩
  exact joins_through_own_reply (.step (i := .join "room" .null) .start id rfl) _ _

/-- `room` failed while its join was pending. -/
def failed : Protocol :=
  (new.join "room" .null).2.receive ⟨some "1", none, "room", "phx_error", .emptyObject⟩ |>.2

/-- The late reply makes the failed channel joined. Joined again directly, the channel is
joining by reference 2, and the reply to the first join makes it joined if it carries no
join reference. -/
theorem late_reply_joins_failed_channel :
    (∃ l, Ledger.machine.Reachable l ∧ l.protocol = failed) ∧
      failed.channelState "room" = some .errored ∧
      (failed.receive (firstReply (some "1"))).2.channelState "room" = some .joined ∧
      ¬ JoinsThroughReply failed (firstReply (some "1")) "room" ∧
      (failed.join "room" .null).2.channels["room"]?.map Channel.joinRef = some "2" ∧
      ((failed.join "room" .null).2.receive (firstReply none)).2.channelState "room" = some .joined ∧
      ¬ JoinsThroughReply (failed.join "room" .null).2 (firstReply none) "room" := by
  refine ⟨⟨_, Machine.reachable_iff_run.mpr ⟨[.join "room" .null,
    .receive ⟨some "1", none, "room", "phx_error", .emptyObject⟩], rfl⟩, rfl⟩, by decide, by decide, ?_,
    by decide, by decide, ?_⟩
  · intro h
    obtain ⟨channel, _, hc, hs, _⟩ := h (by decide) (by decide)
    have herrored : failed.channels["room"]?.map Channel.state = some .errored := by decide
    rw [hc, Option.map_some, hs] at herrored
    cases herrored
  · intro h
    obtain ⟨channel, _, hc, _, _, hr, _⟩ := h (by decide) (by decide)
    have hsecond : (failed.join "room" .null).2.channels["room"]?.map Channel.joinRef = some "2" := by
      decide
    rw [hc, Option.map_some, ← hr] at hsecond
    exact absurd hsecond (by decide)

end Protocol
end PhoenixChannel.Runtime
