import Mathlib.Logic.Relation
import PhoenixChannel.Runtime.Ledger

/-! Pending requests and the channels they belong to.

A client that joins a topic only when the protocol does not know it, and otherwise
rejoins it, moves the protocol by the steps of `Move`. They keep each pending join the
join of its channel's current generation, and each pending leave the only request that is
ending one. -/
namespace PhoenixChannel.Runtime
namespace Protocol
open Std Library

/-- One protocol operation of such a client. A rejoin of an unknown topic is a join. -/
inductive Move (p : Protocol) : Protocol → Prop where
  | rejoin (topic : Topic) (params : Value) : Move p (p.rejoin topic params).2
  | leave (topic : Topic) : Move p (p.leave topic).2
  | push (topic : Topic) (event : String) (payload : Payload) :
      Move p (p.push topic event payload).2
  | heartbeat : Move p p.heartbeat.2
  | forgetPush (r : Reference) : Move p (p.forgetPush r).2
  | forgetHeartbeat (r : Reference) : Move p (p.forgetHeartbeat r).2
  | discardChannel (topic : Topic) : Move p (p.discardChannel topic).2
  | receive (frame : Frame) : Move p (p.receive frame).2
  | resetConnection : Move p p.resetConnection.2

/-- Any number of such operations. -/
abbrev Moves : Protocol → Protocol → Prop := Relation.ReflTransGen Move

/-- What the pending joins and leaves say about their channels. -/
structure Coherent (p : Protocol) : Prop where
  joins : ∀ (r : Reference) (t : Topic), p.pending[r]? = some (.join t) →
    ∃ c : Channel, p.channels[t]? = some c ∧ c.joinRef = r ∧
      (c.state = .joining ∨ c.state = .errored ∨ c.state = .closed)
  leaves : ∀ (r : Reference) (t : Topic), p.pending[r]? = some (.leave t) →
    ∃ c : Channel, p.channels[t]? = some c ∧
      (c.state = .leaving ∨ c.state = .errored ∨ c.state = .closed)
  apart : ∀ (r r' : Reference) (t : Topic), p.pending[r]? = some (.join t) →
    p.pending[r']? ≠ some (.leave t)
  single : ∀ (r r' : Reference) (t : Topic), p.pending[r]? = some (.leave t) →
    p.pending[r']? = some (.leave t) → r = r'

theorem coherent_new : new.Coherent := by
  constructor <;> intros <;> simp_all [new]

/-- Only pushes and heartbeats come, and any request may go. -/
theorem Coherent.fewer {p p' : Protocol} (h : p.Coherent) (hc : p'.channels = p.channels)
    (hj : ∀ (r : Reference) (t : Topic), p'.pending[r]? = some (.join t) →
      p.pending[r]? = some (.join t))
    (hl : ∀ (r : Reference) (t : Topic), p'.pending[r]? = some (.leave t) →
      p.pending[r]? = some (.leave t)) :
    p'.Coherent where
  joins r t hr := by
    rw [hc]
    exact h.joins r t (hj r t hr)
  leaves r t hr := by
    rw [hc]
    exact h.leaves r t (hl r t hr)
  apart r r' t hr hr' := h.apart r r' t (hj r t hr) (hl r' t hr')
  single r r' t hr hr' := h.single r r' t (hl r t hr) (hl r' t hr')

/-- One topic loses its pending join or leave, and its channel may change with it. -/
theorem Coherent.resolve {p p' : Protocol} (h : p.Coherent) (topic : Topic)
    (hp : ∀ (r : Reference) (x : Pending), p'.pending[r]? = some x → p.pending[r]? = some x)
    (hc : ∀ t : Topic, t ≠ topic → p'.channels[t]? = p.channels[t]?)
    (hn : ∀ (r : Reference) (x : Pending), p'.pending[r]? = some x →
      x = .join topic ∨ x = .leave topic → False) :
    p'.Coherent where
  joins r t hr := by
    rw [hc t fun he => hn r _ hr (.inl (by rw [he]))]
    exact h.joins r t (hp r _ hr)
  leaves r t hr := by
    rw [hc t fun he => hn r _ hr (.inr (by rw [he]))]
    exact h.leaves r t (hp r _ hr)
  apart r r' t hr hr' := h.apart r r' t (hp r _ hr) (hp r' _ hr')
  single r r' t hr hr' := h.single r r' t (hp r _ hr) (hp r' _ hr')

/-- A channel and its join go together, so discarding both keeps the two tables in step. -/
theorem Coherent.discard {p : Protocol} (h : p.Coherent) (topic : Topic) :
    (p.discardChannel topic).2.Coherent := by
  have hp : ∀ (r : Reference) (x : Pending), (p.discardChannel topic).2.pending[r]? = some x →
      p.pending[r]? = some x ∧ x.topic? ≠ some topic := by
    intro r x hx
    simp only [discardChannel] at hx
    grind
  refine h.resolve topic (fun r x hx => (hp r x hx).1) (fun t ht => ?_) fun r x hx hj => ?_
  · show (p.channels.erase topic)[t]? = _
    rw [Table.lookup_erase, if_neg ht]
  · rcases hj with rfl | rfl <;> exact (hp r _ hx).2 rfl

/-- A join of a topic with no join or leave pending. -/
theorem Coherent.join {p : Protocol} (h : p.Coherent) {topic : Topic} (params : Value)
    (hn : ∀ (r : Reference) (x : Pending), p.pending[r]? = some x →
      x = .join topic ∨ x = .leave topic → False) :
    (p.join topic params).2.Coherent := by
  by_cases ha : (p.channelState topic).any ChannelState.active
  · rw [join_of_active ha]
    exact h
  rw [join_of_inactive ha]
  -- a pending join or leave is the new one, or an old one of another topic
  have hold : ∀ (r : Reference) (t : Topic) (x : Pending),
      (p.pending.insert p.nextText (.join topic))[r]? = some x → x = .join t ∨ x = .leave t →
      (r = p.nextText ∧ x = .join topic) ∨ (p.pending[r]? = some x ∧ t ≠ topic) := by
    intro r t x hr hx
    rw [Table.lookup_insert] at hr
    split at hr
    · exact .inl ⟨‹_›, (Option.some.inj hr).symm⟩
    · refine .inr ⟨hr, ?_⟩
      rintro rfl
      exact hn r x hr hx
  constructor
  · intro r t hr
    rcases hold r t _ hr (.inl rfl) with ⟨rfl, ht⟩ | ⟨hr, ht⟩
    · cases ht
      exact ⟨⟨.joining, p.nextText, params⟩, by simp, rfl, .inl rfl⟩
    · obtain ⟨c, hc, hrest⟩ := h.joins r t hr
      exact ⟨c, by rw [Table.lookup_insert, if_neg ht, hc], hrest⟩
  · intro r t hr
    rcases hold r t _ hr (.inr rfl) with ⟨_, ht⟩ | ⟨hr, ht⟩
    · cases ht
    · obtain ⟨c, hc, hrest⟩ := h.leaves r t hr
      exact ⟨c, by rw [Table.lookup_insert, if_neg ht, hc], hrest⟩
  · intro r r' t hr hr'
    rcases hold r t _ hr (.inl rfl) with ⟨_, ht⟩ | ⟨hr, ht⟩
    · cases ht
      rcases hold r' topic _ hr' (.inr rfl) with ⟨_, ht'⟩ | ⟨_, ht'⟩
      · cases ht'
      · exact ht' rfl
    · rcases hold r' t _ hr' (.inr rfl) with ⟨_, ht'⟩ | ⟨hr', _⟩
      · cases ht'
      · exact h.apart r r' t hr hr'
  · intro r r' t hr hr'
    rcases hold r t _ hr (.inr rfl) with ⟨_, ht⟩ | ⟨hr, _⟩
    · cases ht
    rcases hold r' t _ hr' (.inr rfl) with ⟨_, ht'⟩ | ⟨hr', _⟩
    · cases ht'
    exact h.single r r' t hr hr'

/-- A rejoin is a discard and a join. -/
theorem Coherent.rejoin {p : Protocol} (h : p.Coherent) (topic : Topic) (params : Value) :
    (p.rejoin topic params).2.Coherent := by
  cases hs : p.channelState topic with
  | none =>
    rw [rejoin_of_unknown hs]
    refine h.join params fun r x hr hx => ?_
    have hnone : p.channels[topic]? = none := Option.map_eq_none_iff.mp hs
    rcases hx with rfl | rfl
    · obtain ⟨c, hc, _⟩ := h.joins r topic hr
      rw [hnone] at hc
      cases hc
    · obtain ⟨c, hc, _⟩ := h.leaves r topic hr
      rw [hnone] at hc
      cases hc
  | some state =>
    by_cases ha : state.active
    · rw [rejoin_of_active hs ha]
      exact h
    · rw [rejoin_of_inactive hs ha]
      refine (h.discard topic).join params fun r x hr hx => ?_
      simp only [discardChannel] at hr
      rcases hx with rfl | rfl <;> simp [Pending.topic?] at hr

/-- The leave of a joined channel comes under a new reference. Its channel is leaving from then on, so it
waits for no join. -/
theorem Coherent.leaveJoined {p : Protocol} (h : p.Coherent) {topic : Topic} {channel : Channel}
    (hc : p.channels[topic]? = some channel) (hs : channel.state = .joined) :
    Coherent ⟨advance p.nextReference, p.channels.insert topic { channel with state := .leaving },
      p.pending.insert p.nextText (.leave topic), p.allocated + 1⟩ := by
  -- a joined topic has no join and no leave pending
  have hnone : ∀ (r : Reference) (x : Pending), p.pending[r]? = some x →
      x = .join topic ∨ x = .leave topic → False := by
    intro r x hr hx
    rcases hx with rfl | rfl
    · obtain ⟨c, hc', _, hst⟩ := h.joins r topic hr
      cases hc.symm.trans hc'
      simp [hs] at hst
    · obtain ⟨c, hc', hst⟩ := h.leaves r topic hr
      cases hc.symm.trans hc'
      simp [hs] at hst
  have hold : ∀ (r : Reference) (t : Topic) (x : Pending),
      (p.pending.insert p.nextText (.leave topic))[r]? = some x → x = .join t ∨ x = .leave t →
      (r = p.nextText ∧ x = .leave topic) ∨ (p.pending[r]? = some x ∧ t ≠ topic) := by
    intro r t x hr hx
    rw [Table.lookup_insert] at hr
    split at hr
    · exact .inl ⟨‹_›, (Option.some.inj hr).symm⟩
    · refine .inr ⟨hr, ?_⟩
      rintro rfl
      exact hnone r x hr hx
  constructor
  · intro r t hr
    rcases hold r t _ hr (.inl rfl) with ⟨_, ht⟩ | ⟨hr, ht⟩
    · cases ht
    · obtain ⟨c, hc, hrest⟩ := h.joins r t hr
      exact ⟨c, by rw [Table.lookup_insert, if_neg ht, hc], hrest⟩
  · intro r t hr
    rcases hold r t _ hr (.inr rfl) with ⟨_, ht⟩ | ⟨hr, ht⟩
    · cases ht
      exact ⟨{ channel with state := .leaving }, by simp, .inl rfl⟩
    · obtain ⟨c, hc, hrest⟩ := h.leaves r t hr
      exact ⟨c, by rw [Table.lookup_insert, if_neg ht, hc], hrest⟩
  · intro r r' t hr hr'
    rcases hold r t _ hr (.inl rfl) with ⟨_, ht⟩ | ⟨hr, ht⟩
    · cases ht
    · rcases hold r' t _ hr' (.inr rfl) with ⟨_, ht'⟩ | ⟨hr', _⟩
      · cases ht'
        exact ht rfl
      · exact h.apart r r' t hr hr'
  · intro r r' t hr hr'
    rcases hold r t _ hr (.inr rfl) with ⟨rfl, ht⟩ | ⟨hr, ht⟩
    · cases ht
      rcases hold r' topic _ hr' (.inr rfl) with ⟨rfl, _⟩ | ⟨_, ht'⟩
      · rfl
      · exact absurd rfl ht'
    · rcases hold r' t _ hr' (.inr rfl) with ⟨_, ht'⟩ | ⟨hr', _⟩
      · cases ht'
        exact absurd rfl ht
      · exact h.single r r' t hr hr'

/-- Only a joined channel is left; otherwise nothing changes. -/
theorem Coherent.leave {p : Protocol} (h : p.Coherent) (topic : Topic) :
    (p.leave topic).2.Coherent := by
  rcases leave_cases p topic with ⟨error, hl⟩ | ⟨channel, hc, hs⟩
  · rw [hl]
    exact h.fewer rfl (fun _ _ hr => hr) (fun _ _ hr => hr)
  · rw [leave_of_joined hc hs]
    exact h.leaveJoined hc hs

/-- A push adds a request that no channel waits for. -/
theorem Coherent.push {p : Protocol} (h : p.Coherent) (topic : Topic) (event : String)
    (payload : Payload) : (p.push topic event payload).2.Coherent := by
  cases hj : p.joinedRef topic with
  | none =>
    rw [push_of_not_joined hj]
    exact h
  | some joinRef =>
    rw [push_of_joined hj]
    refine h.fewer rfl (fun r t hr => ?_) fun r t hr => ?_ <;>
    · rw [Table.lookup_insert] at hr
      split at hr
      · cases hr
      · exact hr

theorem Coherent.heartbeat {p : Protocol} (h : p.Coherent) : p.heartbeat.2.Coherent := by
  rw [heartbeat_eq]
  refine h.fewer rfl (fun r t hr => ?_) fun r t hr => ?_ <;>
  · rw [Table.lookup_insert] at hr
    split at hr
    · cases hr
    · exact hr

/-- A request that is forgotten is no worry for the channels. -/
theorem Coherent.erase {p : Protocol} (h : p.Coherent) (r : Reference) :
    Coherent { p with pending := p.pending.erase r } := by
  refine h.fewer rfl (fun r' t hr => ?_) fun r' t hr => ?_ <;>
  · rw [Table.lookup_erase] at hr
    split at hr
    · cases hr
    · exact hr

theorem Coherent.forgetPush {p : Protocol} (h : p.Coherent) (r : Reference) :
    (p.forgetPush r).2.Coherent := by
  rcases forgetPush_cases p r with ⟨_, _, _, he⟩ | he
  · rw [he]
    exact h.erase r
  · rw [he]
    exact h

theorem Coherent.forgetHeartbeat {p : Protocol} (h : p.Coherent) (r : Reference) :
    (p.forgetHeartbeat r).2.Coherent := by
  rcases forgetHeartbeat_cases p r with ⟨_, he⟩ | he
  · rw [he]
    exact h.erase r
  · rw [he]
    exact h

theorem lookup_setState (channels : Table Topic Channel) (topic t : Topic) (state : ChannelState) :
    (setState channels topic state)[t]? =
      if t = topic then channels[t]?.map fun channel => { channel with state } else channels[t]? := by
  rw [setState, Table.lookup_modify]

/-- An error or a close keeps what is pending, and pending requests survive it. -/
theorem Coherent.down {p : Protocol} (h : p.Coherent) (topic : Topic) {state : ChannelState}
    (hs : state = .errored ∨ state = .closed) :
    Coherent { p with channels := setState p.channels topic state } := by
  refine ⟨fun r t hr => ?_, fun r t hr => ?_, h.apart, h.single⟩
  · obtain ⟨c, hc, hj, hst⟩ := h.joins r t hr
    show ∃ c : Channel, (setState p.channels topic state)[t]? = some c ∧ _
    rw [lookup_setState, hc]
    by_cases ht : t = topic
    · rw [if_pos ht]
      exact ⟨_, rfl, hj, .inr hs⟩
    · rw [if_neg ht]
      exact ⟨c, rfl, hj, hst⟩
  · obtain ⟨c, hc, hst⟩ := h.leaves r t hr
    show ∃ c : Channel, (setState p.channels topic state)[t]? = some c ∧ _
    rw [lookup_setState, hc]
    by_cases ht : t = topic
    · rw [if_pos ht]
      exact ⟨_, rfl, .inr hs⟩
    · rw [if_neg ht]
      exact ⟨c, rfl, hst⟩

/-- The reply to a join takes the only join of its topic out of the pending table. -/
theorem Coherent.joinSettled {p : Protocol} (h : p.Coherent) {r : Reference} {topic : Topic}
    (hr : p.pending[r]? = some (.join topic)) (state : ChannelState) :
    Coherent { p with
      channels := setState p.channels topic state
      pending := p.pending.erase r } := by
  refine h.resolve topic (fun r' x hx => ?_) (fun t ht => ?_) fun r' x hx hj => ?_
  · rw [Table.lookup_erase] at hx
    split at hx
    · cases hx
    · exact hx
  · show (setState p.channels topic state)[t]? = _
    rw [lookup_setState, if_neg ht]
  · rw [Table.lookup_erase] at hx
    split at hx
    · cases hx
    rcases hj with rfl | rfl
    · obtain ⟨c, hc, hcr, _⟩ := h.joins r topic hr
      obtain ⟨c', hc', hcr', _⟩ := h.joins r' topic hx
      cases hc.symm.trans hc'
      exact absurd (hcr'.symm.trans hcr) (by assumption)
    · exact h.apart r r' topic hr hx

/-- The reply to a leave takes the channel with it. -/
theorem Coherent.leaveSettled {p : Protocol} (h : p.Coherent) {r : Reference} {topic : Topic}
    (hr : p.pending[r]? = some (.leave topic)) :
    Coherent { p with channels := p.channels.erase topic, pending := p.pending.erase r } := by
  refine h.resolve topic (fun r' x hx => ?_) (fun t ht => ?_) fun r' x hx hj => ?_
  · rw [Table.lookup_erase] at hx
    split at hx
    · cases hx
    · exact hx
  · show (p.channels.erase topic)[t]? = _
    rw [Table.lookup_erase, if_neg ht]
  · rw [Table.lookup_erase] at hx
    split at hx
    · cases hx
    rcases hj with rfl | rfl
    · exact h.apart r' r topic hx hr
    · exact absurd (h.single r' r topic hx hr) (by assumption)

/-- One case for each way a frame can be received. -/
theorem Coherent.receive {p : Protocol} (h : p.Coherent) (frame : Frame) :
    (p.receive frame).2.Coherent := by
  have hrec := received p frame
  generalize (p.receive frame).1 = result at hrec
  generalize (p.receive frame).2 = p' at hrec ⊢
  cases hrec with
  | stale _ => exact h
  | unmatched _ _ _ => exact h
  | malformed _ _ _ _ _ => exact h.erase _
  | @settled r pending status response _ _ _ hp _ =>
    cases pending with
    | join topic => cases status <;> exact h.joinSettled hp _
    | leave topic => exact h.leaveSettled hp
    | push topic event => exact h.erase r
    | heartbeat => exact h.erase r
  | closed _ _ => exact h.down _ (.inr rfl)
  | errored _ _ => exact h.down _ (.inl rfl)
  | message _ _ _ _ => exact h

theorem coherent_reset (p : Protocol) : p.resetConnection.2.Coherent := by
  constructor <;> intros <;> simp_all [resetConnection]

/-- **Every operation keeps pending requests and channels together.** -/
theorem Coherent.move {p p' : Protocol} (h : p.Coherent) (hm : Move p p') : p'.Coherent := by
  cases hm with
  | rejoin topic params => exact h.rejoin topic params
  | leave topic => exact h.leave topic
  | push topic event payload => exact h.push topic event payload
  | heartbeat => exact h.heartbeat
  | forgetPush r => exact h.forgetPush r
  | forgetHeartbeat r => exact h.forgetHeartbeat r
  | discardChannel topic => exact h.discard topic
  | receive frame => exact h.receive frame
  | resetConnection => exact coherent_reset p

theorem Coherent.moves {p p' : Protocol} (h : p.Coherent) (hm : Moves p p') : p'.Coherent := by
  induction hm with
  | refl => exact h
  | tail _ hm ih => exact ih.move hm

/-- Each of these steps is one call of an operation. -/
theorem Move.perform {p p' : Protocol} (hm : Move p p') : ∃ op : Op, p' = (p.perform op).2 := by
  cases hm with
  | rejoin topic params => exact ⟨.rejoin topic params, rfl⟩
  | leave topic => exact ⟨.leave topic, rfl⟩
  | push topic event payload => exact ⟨.push topic event payload, rfl⟩
  | heartbeat => exact ⟨.heartbeat, rfl⟩
  | forgetPush r => exact ⟨.forgetPush r, rfl⟩
  | forgetHeartbeat r => exact ⟨.forgetHeartbeat r, rfl⟩
  | discardChannel topic => exact ⟨.discardChannel topic, rfl⟩
  | receive frame => exact ⟨.receive frame, rfl⟩
  | resetConnection => exact ⟨.resetConnection, rfl⟩

theorem Move.grows {p p' : Protocol} (hm : Move p p') : p.allocated ≤ p'.allocated := by
  obtain ⟨op, rfl⟩ := hm.perform
  exact perform_grows p op

theorem Moves.grows {p p' : Protocol} (hm : Moves p p') : p.allocated ≤ p'.allocated := by
  induction hm with
  | refl => exact Nat.le_refl _
  | tail _ hm ih => exact Nat.le_trans ih hm.grows

/-- Over any operations, as long as the counter has not wrapped, what is pending is under references that
were handed out. -/
theorem Numbered.moves {p p' : Protocol} (h : p.Numbered) (hm : Moves p p')
    (hb : p'.allocated < 2 ^ 64) : p'.Numbered := by
  induction hm with
  | refl => exact h
  | tail _ hm ih =>
    have h := ih (Nat.lt_of_le_of_lt hm.grows hb)
    obtain ⟨op, rfl⟩ := hm.perform
    exact (clean_perform h op hb).numbered

end Protocol
end PhoenixChannel.Runtime
