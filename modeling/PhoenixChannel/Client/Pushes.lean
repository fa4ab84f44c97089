import PhoenixChannel.Client.Handlers
import PhoenixChannel.Runtime.Coherence

/-! What sending calls and casts leaves alone.

Joined channels stay as they are, and of the records only the queues get shorter. -/
namespace PhoenixChannel.Client
open PhoenixChannel.Runtime Library
open Protocol (Move Moves)

/-- The record apart from its queue. -/
def ChannelRecord.unqueued (channel : ChannelRecord) : ChannelRecord := { channel with queued := [] }

/-- The effect answers a push, or sends a frame of a joined channel's generation. -/
def Effect.AboutPush (p : Protocol) : Effect → Prop
  | .answered operation _ _ => operation = .call ∨ operation = .cast
  | .outgoing _ frame => frame.joinRef.isSome ∧ p.joinedRef frame.topic = frame.joinRef
  | .telemetry _ => True
  | _ => False

/-- Which generation a frame is of depends on the channels only. -/
theorem Effect.AboutPush.congr {p p' : Protocol} {effect : Effect} (hc : p'.channels = p.channels)
    (h : effect.AboutPush p') : effect.AboutPush p := by
  cases effect with
  | outgoing served frame =>
    refine ⟨h.1, ?_⟩
    rw [← h.2, Protocol.joinedRef, Protocol.joinedRef, hc]
  | answered operation id result => exact h
  | telemetry event => trivial
  | _ => exact h

namespace Driver

/-- From `d` on, the protocol moved by operations of the kind `Move`. -/
abbrev Moved (d d' : Driver) : Prop := Moves d.state.protocol d'.state.protocol

theorem moved_of_eq {d d' : Driver} (h : d'.state.protocol = d.state.protocol) : d.Moved d' := by
  rw [Moved, h]

theorem moved_of_move {d d' : Driver} (h : Move d.state.protocol d'.state.protocol) : d.Moved d' :=
  .single h

theorem Moved.trans {d d' d'' : Driver} (h : d.Moved d') (h' : d'.Moved d'') : d.Moved d'' :=
  Relation.ReflTransGen.trans h h'

/-- From `d` to `d'` nothing happened but pushes. New requests are pushes under new
references, as long as references are new. -/
structure Pushed (d d' : Driver) : Prop where
  moved : d.Moved d'
  channels : d'.state.protocol.channels = d.state.protocol.channels
  pending : d.state.protocol.Numbered → d'.state.protocol.allocated < 2 ^ 64 → ∀ r : Reference,
    d'.state.protocol.pending[r]? = d.state.protocol.pending[r]? ∨
      ¬ d.state.protocol.Issued r ∧ ∃ topic event,
        d'.state.protocol.pending[r]? = some (.push topic event)
  joins : d'.state.pendingJoins = d.state.pendingJoins
  pings : d'.state.pendingPings = d.state.pendingPings
  leaves : d'.state.pendingLeaves = d.state.pendingLeaves
  records : ∀ topic : Topic, (d'.record topic).map ChannelRecord.unqueued =
    (d.record topic).map ChannelRecord.unqueued
  connection : d'.connection = d.connection
  phase : d'.phase = d.phase
  effects : ∃ effects, d'.trace = d.trace ++ effects ∧
    ∀ effect ∈ effects, effect.AboutPush d.state.protocol

/-- Nothing is pushed where nothing happens. -/
theorem Pushed.refl (d : Driver) : d.Pushed d where
  moved := .refl
  channels := rfl
  pending _ _ r := .inl rfl
  joins := rfl
  pings := rfl
  leaves := rfl
  records _ := rfl
  connection := rfl
  phase := rfl
  effects := ⟨[], by simp, List.forall_mem_nil _⟩

/-- References that were new after the first push were new before it. -/
theorem Pushed.trans {d d' d'' : Driver} (h : d.Pushed d') (h' : d'.Pushed d'') : d.Pushed d'' where
  moved := h.moved.trans h'.moved
  channels := h'.channels.trans h.channels
  pending hn hb r := by
    have hb' : d'.state.protocol.allocated < 2 ^ 64 :=
      Nat.lt_of_le_of_lt (Protocol.Moves.grows h'.moved) hb
    rcases h'.pending (hn.moves h.moved hb') hb r with h2 | ⟨hnew, h2⟩
    · rcases h.pending hn hb' r with h1 | ⟨hnew, h1⟩
      · exact .inl (h2.trans h1)
      · exact .inr ⟨hnew, by rw [h2]; exact h1⟩
    · exact .inr ⟨fun hi => hnew (hi.mono (Protocol.Moves.grows h.moved)), h2⟩
  joins := h'.joins.trans h.joins
  pings := h'.pings.trans h.pings
  leaves := h'.leaves.trans h.leaves
  records topic := (h'.records topic).trans (h.records topic)
  connection := h'.connection.trans h.connection
  phase := h'.phase.trans h.phase
  effects := by
    obtain ⟨effects, ht, he⟩ := h.effects
    obtain ⟨effects', ht', he'⟩ := h'.effects
    refine ⟨effects ++ effects', by rw [ht', ht, List.append_assoc], fun effect hm => ?_⟩
    rcases List.mem_append.mp hm with hm | hm
    · exact he effect hm
    · exact (he' effect hm).congr h.channels

/-- Effects that touch nothing else. -/
theorem Pushed.emitAll (d : Driver) {effects : List Effect}
    (h : ∀ effect ∈ effects, effect.AboutPush d.state.protocol) : d.Pushed (d.emitAll effects) :=
  { Pushed.refl d with effects := ⟨effects, rfl, h⟩ }

/-- A frame of a joined channel. -/
theorem Pushed.sendFrame (env : Env) (d : Driver) (served : List RequestId) {frame : Frame}
    {joinRef : Reference} (hj : d.state.protocol.joinedRef frame.topic = some joinRef)
    (hf : frame.joinRef = some joinRef) : d.Pushed (d.sendFrame env served frame).1 := by
  have hs := sendFrame_state env d served frame
  obtain ⟨events, ht⟩ := sendFrame_trace env d served frame
  exact
    { moved := moved_of_eq (by rw [hs])
      channels := by rw [hs]
      pending := fun _ _ r => .inl (by rw [hs])
      joins := by rw [hs]
      pings := by rw [hs]
      leaves := by rw [hs]
      records := fun topic => by rw [record, hs, record]
      connection := sendFrame_connection ..
      phase := sendFrame_phase ..
      effects := by
        refine ⟨_, ht, fun effect hm => ?_⟩
        rcases List.mem_cons.mp hm with rfl | hm
        · exact ⟨by rw [hf]; rfl, by rw [hj, hf]⟩
        · obtain ⟨event, -, rfl⟩ := List.mem_map.mp hm
          trivial }

theorem joinedRef_trackCall (d : Driver) (topic : Topic) (id : RequestId) (event : String)
    (payload : Payload) (started : Duration) {joinRef : Reference}
    (hj : d.state.protocol.joinedRef topic = some joinRef) :
    (d.trackCall topic id event payload started).state.protocol.joinedRef topic = some joinRef := by
  simp only [trackCall, Protocol.push_of_joined hj]
  exact hj

/-- A call that is about to be sent. -/
theorem Pushed.trackCall (d : Driver) (topic : Topic) (id : RequestId) (event : String)
    (payload : Payload) (started : Duration) {joinRef : Reference}
    (hj : d.state.protocol.joinedRef topic = some joinRef) :
    d.Pushed (d.trackCall topic id event payload started) where
  moved := moved_of_move (.push topic event payload)
  channels := by simp only [Driver.trackCall, Protocol.push_of_joined hj]
  pending hn hb r := by
    simp only [Driver.trackCall, Protocol.push_of_joined hj] at hb ⊢
    rw [Table.lookup_insert]
    by_cases hr : r = d.state.protocol.nextText
    · subst hr
      rw [if_pos rfl]
      exact .inr ⟨Protocol.not_issued_nextText hn.unwrapped hb, topic, event, rfl⟩
    · rw [if_neg hr]
      exact .inl rfl
  joins := rfl
  pings := rfl
  leaves := rfl
  records _ := rfl
  connection := rfl
  phase := rfl
  effects := ⟨[], by simp [Driver.trackCall], List.forall_mem_nil _⟩

/-- One push, in each of the cases that it can come to. -/
theorem sendPush_pushed (env : Env) (d : Driver) (topic : Topic) (push : QueuedPush) :
    d.Pushed (d.sendPush env topic push).1 := by
  cases push_handled env d topic push with
  | refusedCall id event payload started hb he =>
    rw [he]
    exact .emitAll d (by simp [Effect.AboutPush])
  | refusedCast id event payload hb he =>
    rw [he]
    exact .emitAll d (by simp [Effect.AboutPush])
  | notJoined push hj he =>
    rw [he]
    exact .refl d
  | call id event payload started joinRef hb hj he =>
    rw [he]
    exact (Pushed.trackCall d topic id event payload started hj).trans
      (.sendFrame env _ [id] (joinedRef_trackCall d topic id event payload started hj) rfl)
  | cast id event payload joinRef sent hb hj hs he =>
    rw [he, hs]
    refine Pushed.trans (.sendFrame env d [id] hj rfl) (.emitAll _ ?_)
    simp [Effect.AboutPush]

/-- A shorter queue is no other change. -/
theorem dequeue_pushed {d : Driver} {topic : Topic} {channel : ChannelRecord}
    (hr : d.record topic = some channel) (queued : List QueuedPush) :
    d.Pushed (d.setRecord topic { channel with queued }) := by
  refine { Pushed.refl d with
    moved := .refl
    effects := ⟨[], by simp [setRecord], List.forall_mem_nil _⟩
    records := fun t => ?_ }
  rw [record_setRecord_eq]
  by_cases ht : t = topic
  · rw [if_pos ht, ht, hr]
    rfl
  · rw [if_neg ht]

/-- Flushing a channel's queue is nothing but pushes. -/
theorem flush_pushed (env : Env) (d : Driver) (topic : Topic) : d.Pushed (d.flush env topic).1 :=
  flush_induction Pushed.refl (fun _ _ _ => Pushed.trans)
    (fun _ _ push queued hr _ => (dequeue_pushed hr queued).trans (sendPush_pushed env _ topic push)) d

end Driver
end PhoenixChannel.Client
