import PhoenixChannel.Client.Answerable
import PhoenixChannel.Client.Interference

/-! A generation stands until it is left.

A topic's channel stands while it is being joined or joined. A step that neither discards
it nor learns of its end keeps it standing, or sends a leave under its join reference. -/
namespace PhoenixChannel.Client
open PhoenixChannel.Runtime Library
open Protocol (Move Moves)

/-- An entry of two lists in a row is an entry of one of them. -/
theorem split_append {α : Type} {a b before after : List α} {x : α}
    (h : a ++ b = before ++ x :: after) :
    (∃ after', a = before ++ x :: after' ∧ after = after' ++ b) ∨
      ∃ before', before = a ++ before' ∧ b = before' ++ x :: after := by
  rcases List.append_eq_append_iff.mp h with ⟨mid, hb, he⟩ | ⟨mid, ha, he⟩
  · exact .inr ⟨mid, hb, he⟩
  · rcases List.cons_eq_append_iff.mp he with ⟨rfl, he⟩ | ⟨mid', rfl, he⟩
    · rw [List.append_nil] at ha
      exact .inr ⟨[], by rw [ha, List.append_nil], he.symm⟩
    · exact .inl ⟨mid', ha, (List.cons.inj he).2⟩

/-- The frame is the topic's join with that reference. A push may have the name of a join,
but not its own reference as its join reference. -/
def JoinOf (t : Topic) (j : Reference) (frame : Frame) : Prop :=
  frame.event = "phx_join" ∧ frame.topic = t ∧ frame.joinRef = some j ∧ frame.reference = some j

/-- The frame leaves the topic's generation with that join reference. -/
def LeaveOf (t : Topic) (j : Reference) (frame : Frame) : Prop :=
  frame.event = "phx_leave" ∧ frame.topic = t ∧ frame.joinRef = some j

/-- The frame refuses the topic's join: a reply with its reference and an error status. A
reply that names the topic and the join reference of another generation does not count. -/
def Refuses (t : Topic) (j : Reference) (frame : Frame) : Prop :=
  frame.event = "phx_reply" ∧ frame.reference = some j ∧
    (∃ response, Protocol.decodeReplyPayload frame.payload = .ok (.error, response)) ∧
    (frame.topic = t → frame.joinRef = none ∨ frame.joinRef = some j)

/-- The frame ends the topic's generation with that join reference. -/
def EndOf (t : Topic) (j : Reference) (frame : Frame) : Prop :=
  (frame.event = "phx_close" ∨ frame.event = "phx_error") ∧ frame.topic = t ∧
    (frame.joinRef = none ∨ frame.joinRef = some j)

/-- A leave of the generation is among the effects. -/
def LeftIn (t : Topic) (j : Reference) (effects : List Effect) : Prop :=
  ∃ served frame, .outgoing served frame ∈ effects ∧ LeaveOf t j frame

/-- The effect is no join of the topic. -/
def Effect.Unjoining (t : Topic) (effect : Effect) : Prop :=
  ∀ served frame j, effect = .outgoing served frame → ¬ JoinOf t j frame

instance (t : Topic) : Lenient (Effect.Unjoining t) where
  report effect h served frame _ he := by
    subst he
    cases h
  failure _ _ _ _ _ _ he := by cases he
  leave _ _ _ _ _ he := by cases he
  load _ _ _ _ _ _ _ he := by cases he

theorem unjoining_of_event {t : Topic} {served : List RequestId} {frame : Frame}
    (hf : frame.event ≠ "phx_join") : Effect.Unjoining t (.outgoing served frame) := by
  intro served' frame' j he hjoin
  cases he
  exact hf hjoin.1

theorem LeftIn.mono {t : Topic} {j : Reference} {effects effects' : List Effect}
    (h : LeftIn t j effects) (hsub : effects ⊆ effects') : LeftIn t j effects' := by
  obtain ⟨served, frame, hm, hl⟩ := h
  exact ⟨served, frame, hsub hm, hl⟩

namespace Driver

/-- The topic's channel is being joined or joined, under the join reference. -/
def Standing (d : Driver) (t : Topic) (j : Reference) : Prop :=
  ∃ c : Channel, d.state.protocol.channels[t]? = some c ∧ c.joinRef = j ∧
    (c.state = .joining ∨ c.state = .joined)

/-- From `d` to `d'` the topic's channel keeps standing unless it is left, or ended in a way
that `E` says, and a join that is sent stands. -/
def Keeps (E : Reference → Prop) (t : Topic) (d d' : Driver) : Prop :=
  ∃ effects, d'.trace = d.trace ++ effects ∧
    (∀ j, d.Standing t j → E j ∨ d'.Standing t j ∨ LeftIn t j effects) ∧
    ∀ before served frame after j, effects = before ++ .outgoing served frame :: after →
      JoinOf t j frame → d'.Standing t j ∨ LeftIn t j after

/-- Nothing ends a generation. -/
abbrev Never : Reference → Prop := fun _ => False

section
variable {E : Reference → Prop} {t topic : Topic} {d d' d'' : Driver} {j : Reference}

theorem Standing.of_lookup (h : d.Standing t j)
    (hc : d'.state.protocol.channels[t]? = d.state.protocol.channels[t]?) : d'.Standing t j := by
  obtain ⟨c, hchannel, hrest⟩ := h
  exact ⟨c, hc.trans hchannel, hrest⟩

theorem Keeps.trans (h : Keeps E t d d') (h' : Keeps Never t d' d'') : Keeps E t d d'' := by
  obtain ⟨effects, ht, hstand, hjoin⟩ := h
  obtain ⟨effects', ht', hstand', hjoin'⟩ := h'
  have hlast : ∀ j, d'.Standing t j → d''.Standing t j ∨ LeftIn t j effects' := fun j hs =>
    (hstand' j hs).resolve_left id
  refine ⟨effects ++ effects', by rw [ht', ht, List.append_assoc], fun j hs => ?_, ?_⟩
  · rcases hstand j hs with he | hs | hl
    · exact .inl he
    · exact .inr ((hlast j hs).imp_right fun hl => hl.mono (List.subset_append_right _ _))
    · exact .inr (.inr (hl.mono (List.subset_append_left _ _)))
  · intro before served frame after j hsplit hj
    rcases split_append hsplit with ⟨after', he, rfl⟩ | ⟨before', -, he⟩
    · rcases hjoin before served frame after' j he hj with hs | hl
      · exact (hlast j hs).imp_right fun hl => hl.mono (List.subset_append_right _ _)
      · exact .inr (hl.mono (List.subset_append_left _ _))
    · exact hjoin' before' served frame after j he hj

/-- What joins nothing and leaves the topic's channel as it is. -/
theorem Keeps.of_emits (hc : d'.state.protocol.channels[t]? = d.state.protocol.channels[t]?)
    (he : d.Emits (Effect.Unjoining t) d') : Keeps E t d d' := by
  obtain ⟨effects, ht, heffects⟩ := he
  refine ⟨effects, ht, fun j hs => .inr (.inl (hs.of_lookup hc)), ?_⟩
  intro before served frame after j hsplit hj
  refine absurd hj (heffects _ ?_ served frame j rfl)
  rw [hsplit]
  exact List.mem_append_right _ List.mem_cons_self

theorem Keeps.refl (t : Topic) (d : Driver) : Keeps E t d d := .of_emits rfl (.refl _ d)

theorem Keeps.silent (h : Keeps E t d d')
    (hc : d''.state.protocol.channels[t]? = d'.state.protocol.channels[t]?)
    (he : d'.Emits (Effect.Unjoining t) d'') : Keeps E t d d'' :=
  h.trans (.of_emits hc he)

/-- The topic's channel does not stand, or its end is known. -/
theorem Keeps.of_fallen (hs : ∀ j, d.Standing t j → E j) (he : d.Emits (Effect.Unjoining t) d') :
    Keeps E t d d' := by
  obtain ⟨effects, ht, heffects⟩ := he
  refine ⟨effects, ht, fun j h => .inl (hs j h), ?_⟩
  intro before served frame after j hsplit hj
  refine absurd hj (heffects _ ?_ served frame j rfl)
  rw [hsplit]
  exact List.mem_append_right _ List.mem_cons_self

theorem Keeps.mono {E' : Reference → Prop} (h : Keeps E t d d') (himp : ∀ j, E j → E' j) :
    Keeps E' t d d' := by
  obtain ⟨effects, ht, hstand, hjoin⟩ := h
  exact ⟨effects, ht, fun j hs => (hstand j hs).imp_left (himp j), hjoin⟩

theorem Keeps.of_report {report : TelemetryEvent} (h : Keeps E t (d.emitAll [.telemetry report]) d') :
    Keeps E t d d' := by
  obtain ⟨effects, ht, hstand, hjoin⟩ := h
  refine ⟨.telemetry report :: effects, by rw [ht, emitAll_trace, List.append_assoc]; rfl,
    fun j hs => ?_, fun before served frame after j hsplit hj => ?_⟩
  · exact (hstand j hs).imp_right (.imp_right fun hl => hl.mono (List.subset_cons_self _ _))
  · cases before with
    | nil => cases hsplit
    | cons first before =>
      exact hjoin before served frame after j (List.cons.inj hsplit).2 hj

/-- Work on another topic. -/
theorem Apart.keeps (h : Apart topic d d') (ht : t ≠ topic) : Keeps E t d d' :=
  .of_emits (h.channel t ht) (h.sent.mono fun effect hs served frame j he hj => by
    subst he
    exact ht (hj.2.1.symm.trans hs))

/-- Pushes go out for a joined channel, whatever their names. -/
theorem Pushed.keeps (h : d.Pushed d') : Keeps E t d d' := by
  obtain ⟨effects, ht, heffects⟩ := h.effects
  have hchannel : d'.state.protocol.channels[t]? = d.state.protocol.channels[t]? := by rw [h.channels]
  refine ⟨effects, ht, fun j hs => .inr (.inl (hs.of_lookup hchannel)), ?_⟩
  intro before served frame after j hsplit hj
  have hm : Effect.outgoing served frame ∈ effects := by
    rw [hsplit]
    exact List.mem_append_right _ List.mem_cons_self
  obtain ⟨-, hjoined⟩ := heffects _ hm
  obtain ⟨-, htopic, hjoinRef, -⟩ := hj
  rw [htopic, hjoinRef] at hjoined
  obtain ⟨c, hc, hs, hr⟩ := Protocol.joinedRef_eq_some.mp hjoined
  exact .inl ⟨c, hchannel.trans hc, hr, .inr hs⟩

end

/-! ### Handlers

Most handlers leave the topic's channel alone. A leave of a joined channel sends its frame, and a
payload result starts a join where no channel is active. -/

section
variable {E : Reference → Prop} (env : Env) (d : Driver) (t : Topic)

theorem keeps_accept (command : Command) : Keeps E t d (d.accept command) := by
  refine .of_emits (by rw [accept_protocol]) ?_
  unfold accept
  split
  · exact (Emits.refl _ d).emitAll (by simp [Effect.Unjoining])
  · exact .refl _ d

/-- A leave goes out under the channel's join reference. -/
theorem keeps_leave {d₁ : Driver} {c : Channel} {served : List RequestId} {frame : Frame}
    (he : d.Emits (Effect.Unjoining t) d₁) (hc : d.state.protocol.channels[t]? = some c)
    (hl : LeaveOf t c.joinRef frame) : Keeps E t d (d₁.sendFrame env served frame).1 := by
  obtain ⟨effects, ht, heffects⟩ := he
  obtain ⟨events, hsent⟩ := sendFrame_trace env d₁ served frame
  have hunjoining : ∀ effect ∈ effects ++ .outgoing served frame :: events.map .telemetry,
      effect.Unjoining t := by
    intro effect hm
    simp only [List.mem_append, List.mem_cons, List.mem_map] at hm
    rcases hm with hm | rfl | ⟨event, -, rfl⟩
    · exact heffects effect hm
    · exact unjoining_of_event (by rw [hl.1]; decide)
    · exact Lenient.report _ trivial
  refine ⟨_, by rw [hsent, ht, List.append_assoc], fun j hs => .inr (.inr ?_), ?_⟩
  · obtain ⟨c', hc', rfl, -⟩ := hs
    cases hc.symm.trans hc'
    exact ⟨served, frame, List.mem_append_right _ List.mem_cons_self, hl⟩
  · intro before served' frame' after j hsplit hj
    refine absurd hj (hunjoining _ ?_ served' frame' j rfl)
    rw [hsplit]
    exact List.mem_append_right _ List.mem_cons_self

theorem keeps_sendLeave (pending : PendingLeave) : Keeps E t d (d.sendLeave env t pending).1 := by
  cases hj : d.state.protocol.joinedRef t with
  | none =>
    obtain ⟨e, he⟩ := sendLeave_of_not_joined env pending hj
    rw [he]
    exact .of_emits rfl (.of_trace rfl)
  | some joinRef =>
    obtain ⟨c, hc, hs, -⟩ := Protocol.joinedRef_eq_some.mp hj
    rw [sendLeave_of_joined hc hs]
    exact keeps_leave env d t (.of_trace rfl) hc ⟨rfl, rfl, rfl⟩

theorem emits_unregister {P : Effect → Prop} [Lenient P] {d d' : Driver} {topic : Topic}
    (h : d.Emits P d') : d.Emits P (d'.unregister topic) :=
  (h.stopChannel).silent rfl

theorem keeps_unregisterConnected
    (h : ∀ j, d.Standing t j → d.state.protocol.channelState t = some .joined) :
    Keeps E t d (d.unregisterConnected env t).1 := by
  by_cases hj : d.state.protocol.channelState t = some .joined
  · obtain ⟨c, hc, hs⟩ := Option.map_eq_some_iff.mp hj
    rw [unregisterConnected_of_joined hc hs]
    have hset : d.Emits (Effect.Unjoining t) (d.setProtocol (d.state.protocol.leave t).2) :=
      .of_trace rfl
    exact keeps_leave env d t (emits_unregister hset) hc ⟨rfl, rfl, rfl⟩
  · rw [unregisterConnected_of_not_joined hj]
    exact .of_fallen (fun j hs => absurd (h j hs) hj) (emits_unregister (.refl _ d))

theorem keeps_heartbeat {d₁ : Driver} {served : List RequestId} {r : Option Reference}
    (hc : d₁.state.protocol.channels = d.state.protocol.channels) (ht : d₁.trace = d.trace) :
    Keeps E t d (d₁.sendFrame env served ⟨none, r, "phoenix", "heartbeat", .emptyObject⟩).1 := by
  refine .of_emits (by rw [sendFrame_state, hc]) ?_
  have hname : ("heartbeat" : String) ≠ "phx_join" := by decide
  exact (Emits.of_trace ht).sendFrame (unjoining_of_event hname)

theorem keeps_handlePing (id : RequestId) : Keeps E t d (d.handlePing env id).1 := by
  rw [handlePing_eq]
  exact keeps_heartbeat env d t rfl rfl

theorem keeps_handleHeartbeat : Keeps E t d (d.handleHeartbeat env).1 := by
  by_cases h : d.connection.heartbeatReference.isSome = true
  · rw [handleHeartbeat_of_some h]
    exact .refl t d
  · rw [handleHeartbeat_of_none h]
    have hs : Keeps E t d (d.trackHeartbeat.sendFrame env []
        ⟨none, some d.state.protocol.nextText, "phoenix", "heartbeat", .emptyObject⟩).1 :=
      keeps_heartbeat env d t rfl rfl
    rcases hsend : d.trackHeartbeat.sendFrame env []
      ⟨none, some d.state.protocol.nextText, "phoenix", "heartbeat", .emptyObject⟩ with ⟨d', _ | reason⟩
    · rw [hsend] at hs
      exact hs.silent rfl (.of_trace rfl)
    · rw [hsend] at hs
      exact hs

theorem keeps_handleJoin (id : RequestId) (timeout : Duration) :
    Keeps E t d (d.handleJoin id t timeout) := by
  refine .of_emits (by simp) ?_
  unfold handleJoin
  cases d.record t with
  | none => exact (Emits.refl _ d).emitAll (by simp [Effect.Unjoining])
  | some channel =>
    dsimp only
    split
    · exact Emits.emitAll (.of_trace rfl) (by simp [Effect.Unjoining])
    · exact Emits.loadPayload (.of_trace rfl)

theorem keeps_handlePush (push : QueuedPush) : Keeps E t d (d.handlePush env t push).1 := by
  unfold handlePush
  split
  · exact (sendPush_pushed env d t push).keeps
  · refine .of_emits (by simp) ?_
    rcases queue_cases env d t push with ⟨error, -, he⟩ | ⟨channel, -, -, -, he⟩
    · rw [he]
      exact (Emits.refl _ d).emitAll (by simp [Effect.Unjoining])
    · rw [he]
      exact .of_trace rfl

theorem keeps_handleLeave (id : RequestId) (timeout : Duration) :
    Keeps E t d (d.handleLeave env id t timeout).1 := by
  have hstop : ∀ status, Keeps E t d ((d.setStatus t status).stopChannel t) := fun _ =>
    .of_emits (by simp) (Emits.refl _ d).setStatus.stopChannel
  cases leave_handled env d id t timeout with
  | sent channel hc hs he =>
    rw [he]
    exact (hstop _).trans (keeps_sendLeave env _ t _)
  | deferred channel hs hr he =>
    rw [he]
    exact (hstop _).silent rfl (.of_trace rfl)
  | idle hs hj he =>
    rw [he]
    exact (hstop _).silent rfl ((Emits.refl _ _).emitAll (by simp [Effect.Unjoining]))

theorem keeps_register : Keeps E t d (d.register env t) := by
  refine .of_emits (by simp) (.of_trace ?_)
  unfold register
  split <;> rfl

theorem keeps_handleRejoin : Keeps E t d (d.handleRejoin t) := by
  refine .of_emits (by simp) ?_
  unfold handleRejoin
  cases d.record t with
  | none => exact .refl _ d
  | some channel =>
    dsimp only
    split
    · exact Emits.loadPayload (.of_trace rfl)
    · exact .of_trace rfl

/-- A join goes out for a channel that is inactive, and stands from then on. -/
theorem keeps_trackJoin {d₁ : Driver} {params : Value} {channel : ChannelRecord}
    {served : List RequestId} (hd : d₁ = d ∨ d₁ = d.discardChannel t)
    (hs₁ : d₁.state.protocol.channelState t = none)
    (hs : ¬ (d.state.protocol.channelState t).any ChannelState.active = true) :
    Keeps E t d ((d₁.trackJoin t params channel).sendFrame env served
      ⟨some d.state.protocol.nextText, some d.state.protocol.nextText, t, "phx_join", .json params⟩).1 := by
  obtain ⟨events, ht⟩ := sendFrame_trace env (d₁.trackJoin t params channel) served
    ⟨some d.state.protocol.nextText, some d.state.protocol.nextText, t, "phx_join", .json params⟩
  have hsame : d₁.trace = d.trace ∧ d₁.state.protocol.nextText = d.state.protocol.nextText := by
    rcases hd with rfl | rfl <;> exact ⟨rfl, rfl⟩
  have htrace : (d₁.trackJoin t params channel).trace = d.trace := hsame.1
  refine ⟨_, by rw [ht, htrace], fun j hstand => ?_, fun before served' frame after j hsplit hj => ?_⟩
  · obtain ⟨c, hc, -, hstate⟩ := hstand
    refine absurd ?_ hs
    rw [Protocol.channelState, hc]
    rcases hstate with hstate | hstate <;> simp [hstate, ChannelState.active]
  · have hm : Effect.outgoing served' frame ∈ before ++ .outgoing served' frame :: after :=
      List.mem_append_right _ List.mem_cons_self
    rw [← hsplit, List.mem_cons, List.mem_map] at hm
    rcases hm with he | ⟨event, -, he⟩
    · cases he
      obtain ⟨-, -, hjoinRef, -⟩ := hj
      refine .inl ⟨⟨.joining, d₁.state.protocol.nextText, params⟩, ?_, ?_, .inl rfl⟩
      · rw [sendFrame_state]
        show (d₁.state.protocol.join t params).2.channels[t]? = _
        rw [Protocol.join_of_unknown hs₁, Table.lookup_insert, if_pos rfl]
      · rw [hsame.2]
        exact Option.some.inj hjoinRef
    · cases he

theorem keeps_handlePayload (payloadId : UInt64) (payload : Except String Value) :
    Keeps E t d (d.handlePayload env t payloadId payload).1 := by
  cases payload_handled env d t payloadId payload with
  | ignored h he =>
    rw [he]
    exact .refl t d
  | late channel hr ha h he =>
    rw [he]
    exact .of_emits rfl (.of_trace rfl)
  | failed message channel hp hr ha he =>
    rw [he]
    exact .of_emits (by simp) (Emits.emitChannel (Emits.failAll (.of_trace rfl)))
  | joined value channel d₁ hp hr ha hd hs hd₁ hs₁ he =>
    rw [he]
    exact keeps_trackJoin env d t (hd₁.imp_right And.right) hs₁ hs

/-- What discards the topic's channel finds it fallen. -/
theorem keeps_joinTimedOut (h : ∀ j, ¬ d.Standing t j) (duration : Duration) :
    Keeps E t d (d.joinTimedOut env t duration) := by
  refine .of_fallen (fun j hs => absurd hs (h j)) ?_
  have hdiscard : d.Emits (Effect.Unjoining t) (d.discardChannel t) := .of_trace rfl
  unfold joinTimedOut
  dsimp only
  split
  · exact hdiscard
  · split
    · exact hdiscard.setRecord.answerLeave
    split
    · exact hdiscard.setRecord.failAll.scheduleRejoin
    · exact hdiscard.setRecord

theorem keeps_leaveTimedOut (h : ∀ j, ¬ d.Standing t j) (pending : PendingLeave)
    (duration : Duration) : Keeps E t d (d.leaveTimedOut t pending duration) := by
  refine .of_fallen (fun j hs => absurd hs (h j)) ?_
  have hdiscard : d.Emits (Effect.Unjoining t)
      ((d.answerLeave (some pending) (.error (.timeout .leave duration))).discardChannel t) :=
    ((Emits.refl _ d).answerLeave).silent rfl
  unfold leaveTimedOut
  dsimp only
  split
  · exact hdiscard
  · split
    · exact hdiscard.setStatus.loadPayload
    · exact hdiscard.setStatus

theorem keeps_cancelJoin {channel : ChannelRecord} {id : RequestId}
    (h : channel.joinWaiters.erase id = [] → channel.everJoined = false → ∀ j, ¬ d.Standing t j) :
    Keeps E t d (d.cancelJoin t channel id) := by
  by_cases hlast : channel.joinWaiters.erase id = [] ∧ channel.everJoined = false
  · rw [cancelJoin_of_last hlast.1 hlast.2]
    refine .of_fallen (fun j hs => absurd hs (h hlast.1 hlast.2 j)) ?_
    have habandon : d.Emits (Effect.Unjoining t)
        ((d.setRecord t (channel.abandoned id)).emitAll [.cancelled .join id]) :=
      Emits.emitAll (.of_trace rfl) (by simp [Effect.Unjoining])
    exact habandon.silent rfl
  · rw [cancelJoin_of_others hlast]
    exact .of_emits rfl (Emits.emitAll (.of_trace rfl) (by simp [Effect.Unjoining]))

end

/-! ### Frames

A frame ends the channel of its topic only if it is not stale there. -/

section
variable {E : Reference → Prop} {env : Env} {d : Driver} {t topic : Topic} {reference : Reference}
  {response : Payload} {frame : Frame} {p : Protocol}

theorem joinRef_of_not_stale {c : Channel} {q : Protocol} (hs : q.stale frame = false)
    (hc : q.channels[frame.topic]? = some c) :
    frame.joinRef = none ∨ frame.joinRef = some c.joinRef := by
  unfold Protocol.stale at hs
  rw [hc] at hs
  cases hj : frame.joinRef with
  | none => exact .inl rfl
  | some r =>
    right
    simpa [hj] using hs

theorem refuses_of_joinError {q p' : Protocol} {j : Reference} {c : Channel}
    (hrec : q.receive frame = (.ok (.joinError t j response), p')) (hc : q.channels[t]? = some c)
    (hj : c.joinRef = j) : Refuses t j frame := by
  have hreceived := Protocol.received q frame
  rw [hrec] at hreceived
  generalize hres : (Except.ok (.joinError t j response) : Except ProtocolError ProtocolEvent) =
    result at hreceived
  cases hreceived with
  | stale _ | unmatched _ _ _ | malformed _ _ _ _ _ | closed _ _ | errored _ _ | message _ _ _ _ =>
    cases hres
  | @settled r x status response' hs hreply hreference hx hdecode =>
    cases x with
    | join topic =>
      cases status with
      | ok => cases hres
      | error =>
        cases hres
        refine ⟨hreply, hreference, ⟨_, hdecode⟩, fun ht => ?_⟩
        rw [← hj]
        exact joinRef_of_not_stale hs (by rw [ht]; exact hc)
    | leave topic | push topic name | heartbeat => cases hres

theorem keeps_joined (hrec : d.state.protocol.receive frame = (.ok (.joined t reference response), p)) :
    Keeps E t d ((d.setProtocol p).onJoined env t reference response).1 := by
  obtain ⟨-, he⟩ := Protocol.receive_explains hrec
  have hsettle : Keeps E t d ((d.setProtocol p).eraseJoin reference) := by
    refine ⟨[], (List.append_nil _).symm, fun j hs => .inr (.inl ?_), fun before _ _ _ _ hsplit => by simp at hsplit⟩
    obtain ⟨c, hc, hj, -⟩ := hs
    refine ⟨{ c with state := .joined }, ?_, hj, .inr rfl⟩
    rw [eraseJoin_protocol, setProtocol_protocol, he, Protocol.lookup_setState, if_pos rfl, hc]
    rfl
  cases hr : (d.setProtocol p).record t with
  | none =>
    rw [onJoined_of_none hr]
    have hreport : Keeps E t d (((d.setProtocol p).eraseJoin reference).emitChannel t
        (.protocol (.joined t reference response))) :=
      hsettle.silent (by simp) (Emits.refl _ _).emitChannel
    exact hreport.trans (flush_pushed ..).keeps
  | some channel =>
    have hwelcome : Keeps E t d ((d.setProtocol p).welcome t reference response channel) := by
      refine hsettle.silent (by simp [welcome]) ?_
      exact Emits.emitChannel (Emits.emitAll (.of_trace rfl) (by simp [Effect.Unjoining]))
    cases hl : channel.deferredLeave with
    | none =>
      rw [onJoined_of_not_deferred hr hl]
      exact hwelcome.trans (flush_pushed ..).keeps
    | some pending =>
      rw [onJoined_of_deferred hr hl]
      exact hwelcome.trans (keeps_sendLeave ..)

theorem keeps_joinError (hco : d.state.protocol.Coherent)
    (hrec : d.state.protocol.receive frame = (.ok (.joinError t reference response), p)) :
    Keeps (fun j => Refuses t j frame ∨ EndOf t j frame) t d
      ((d.setProtocol p).onJoinError env t reference response) := by
  obtain ⟨hp, -⟩ := Protocol.receive_explains hrec
  obtain ⟨c, hc, hj, -⟩ := hco.joins reference t hp
  refine .of_fallen (fun j hs => .inl ?_) ?_
  · obtain ⟨c', hc', hj', -⟩ := hs
    cases hc.symm.trans hc'
    obtain rfl : j = reference := hj'.symm.trans hj
    exact refuses_of_joinError hrec hc hj
  · have herase : d.Emits (Effect.Unjoining t) ((d.setProtocol p).eraseJoin reference) :=
      .of_trace rfl
    cases hr : (d.setProtocol p).record t with
    | none =>
      rw [onJoinError_of_none hr]
      exact herase.emitChannel
    | some channel =>
      rw [onJoinError_of_some hr]
      refine Emits.scheduleRejoin (Emits.emitChannel (herase.setRecord.emitAll fun effect hm => ?_))
      rcases List.mem_append.mp hm with hm | hm
      · obtain ⟨leave, -, -, rfl⟩ := mem_leaveAnswers hm
        exact Lenient.leave ..
      · obtain ⟨id, -, rfl⟩ := List.mem_map.mp hm
        exact Lenient.failure ..

theorem keeps_left (hco : d.state.protocol.Coherent)
    (hrec : d.state.protocol.receive frame = (.ok (.left t reference response), p)) :
    Keeps E t d ((d.setProtocol p).onLeft t reference response) := by
  obtain ⟨hp, -⟩ := Protocol.receive_explains hrec
  obtain ⟨c, hc, hstate⟩ := hco.leaves reference t hp
  refine .of_fallen (fun j hs => ?_) ?_
  · obtain ⟨c', hc', -, hs⟩ := hs
    cases hc.symm.trans hc'
    rcases hs with hs | hs <;> simp [hs] at hstate
  · have hsettle : d.Emits (Effect.Unjoining t) ((d.setProtocol p).leaveSettled reference response) := by
      refine Emits.emitAll (.of_trace rfl) fun effect hm => ?_
      obtain ⟨leave, -, -, rfl⟩ := mem_leaveAnswers hm
      exact Lenient.leave ..
    cases hr : (d.setProtocol p).record t with
    | none =>
      rw [onLeft_of_none hr]
      exact hsettle.emitChannel
    | some channel =>
      rw [onLeft_of_some hr]
      split
      · exact hsettle.setRecord.emitChannel.loadPayload
      · exact hsettle.setRecord.emitChannel

theorem keeps_reply {event : String} {status : ReplyStatus}
    (hrec : d.state.protocol.receive frame = (.ok (.reply t event reference status response), p)) :
    Keeps E t d ((d.setProtocol p).onReply t event reference status response) := by
  obtain ⟨-, -, -, he⟩ := Protocol.receive_explains hrec
  refine .of_emits (by simp [he]) ?_
  cases hc : (d.setProtocol p).state.pendingCalls[reference]? with
  | none =>
    rw [onReply_of_none hc]
    exact Emits.emitChannel (.of_trace rfl)
  | some call =>
    rw [onReply_of_some hc]
    exact Emits.emitChannel (Emits.emitAll (.of_trace rfl) (by simp [Effect.Unjoining]))

theorem keeps_heartbeatAck {status : ReplyStatus}
    (hrec : d.state.protocol.receive frame = (.ok (.heartbeatAck reference status), p)) :
    Keeps E t d ((d.setProtocol p).onHeartbeatAck reference) := by
  obtain ⟨-, he⟩ := Protocol.receive_explains hrec
  refine .of_emits (by simp [he]) ?_
  unfold onHeartbeatAck
  split
  · exact .of_trace rfl
  split
  · exact .of_trace rfl
  · exact Emits.emitAll (.of_trace rfl) (by simp [Effect.Unjoining])

theorem endOf_of_receive {q : Protocol} {c : Channel} {j : Reference} (hstale : q.stale frame = false)
    (he : frame.event = "phx_close" ∨ frame.event = "phx_error") (ht : frame.topic = t)
    (hc : q.channels[t]? = some c) (hj : c.joinRef = j) : EndOf t j frame :=
  ⟨he, ht, hj ▸ joinRef_of_not_stale hstale (by rw [ht]; exact hc)⟩

theorem emits_channelError {P : Effect → Prop} [Lenient P] {d d' : Driver} (h : d.Emits P d')
    (payload : Payload) : d.Emits P (d'.onChannelError env t payload) := by
  have hforget : d.Emits P (d'.forgetJoins t) := h.silent rfl
  exact hforget.setStatus.emitChannel.scheduleRejoin

theorem emits_channelClosed {P : Effect → Prop} [Lenient P] {d d' : Driver} (h : d.Emits P d')
    (payload : Payload) : d.Emits P (d'.onChannelClosed t payload) := by
  have hforget : d.Emits P (d'.forgetJoins t) := h.silent rfl
  unfold onChannelClosed
  dsimp only
  split
  · exact hforget.setRecord.emitChannel.stopChannel
  · exact hforget.emitChannel.stopChannel

theorem keeps_handleEvent {event : ProtocolEvent} (hco : d.state.protocol.Coherent)
    (hrec : d.state.protocol.receive frame = (.ok event, p)) :
    Keeps (fun j => Refuses t j frame ∨ EndOf t j frame) t d
      ((d.setProtocol p).handleEvent env event).1 := by
  by_cases ht : t = topicOf event
  swap
  · exact (apart_handleEvent hrec).keeps ht
  have hreceive : d.Emits (Effect.Unjoining t) (d.setProtocol p) := .of_trace rfl
  cases event with
  | joined topic reference response =>
    cases ht
    exact keeps_joined hrec
  | joinError topic reference response =>
    cases ht
    exact keeps_joinError hco hrec
  | reply topic name reference status response =>
    cases ht
    exact keeps_reply hrec
  | left topic reference response =>
    cases ht
    exact keeps_left hco hrec
  | heartbeatAck reference status => exact keeps_heartbeatAck hrec
  | channelError topic payload =>
    cases ht
    obtain ⟨htopic, hevent, hstale, -⟩ := Protocol.receive_explains hrec
    refine .of_fallen (fun j hs => .inr ?_) (emits_channelError hreceive payload)
    obtain ⟨c, hc, hj, -⟩ := hs
    exact endOf_of_receive hstale (.inr hevent) htopic hc hj
  | channelClosed topic payload =>
    cases ht
    obtain ⟨htopic, hevent, hstale, -⟩ := Protocol.receive_explains hrec
    refine .of_fallen (fun j hs => .inr ?_) (emits_channelClosed hreceive payload)
    obtain ⟨c, hc, hj, -⟩ := hs
    exact endOf_of_receive hstale (.inl hevent) htopic hc hj
  | message frame | staleMessage frame | unmatchedReply frame =>
    have he := Protocol.receive_explains hrec
    cases he
    exact .of_emits (by simp [handleEvent]) (Emits.refl _ _).emitChannel
  | requestInterrupted topic name reference => cases Protocol.receive_explains hrec

end

/-! ### Steps

`Gentle` is the condition that no step discards a channel that stands. Under it a connected step
keeps every channel standing, ended or left. -/

/-- The input is a frame that refuses the join or ends its generation. -/
def EndedBy (env : Env) (t : Topic) (input : Input) (j : Reference) : Prop :=
  ∃ message frame, input = .message message ∧ env.codec.decode message = .ok frame ∧
    (Refuses t j frame ∨ EndOf t j frame)

/-- The input does not discard the topic's channel while it stands, but for the handle of a
joined channel that is dropped: then a leave is sent. -/
def Gentle (t : Topic) (d : Driver) (input : Input) : Prop :=
  ∀ d₁, d.Discards input d₁ t → ∀ j, d.Standing t j →
    input = .lifecycle (.unregister t) ∧ d.state.protocol.channelState t = some .joined

section
variable {E : Reference → Prop} {env : Env} {d d' : Driver} {t topic : Topic} {input : Input}
  {r : Result} {id : RequestId}

theorem keeps_settle (h : r.2 = none → Keeps E t d r.1) :
    (settle env r).Over ∨ Keeps E t d (settle env r) := by
  rcases r with ⟨d', _ | reason⟩
  · exact .inr (h rfl)
  · exact .inl (over_lost env d' reason)

/-- A cancellation of what is not a join sends nothing. -/
theorem emits_cancelUnsent {P : Effect → Prop} [Lenient P]
    (hP : ∀ operation id, P (.cancelled operation id)) (channel : ChannelRecord) :
    d.Emits P (d.cancelUnsent topic channel id) := by
  cases d.cancelUnsent_cases topic channel id with
  | leave pending hd hid he =>
    rw [he]
    refine Emits.emitAll (.of_trace rfl) fun effect hm => ?_
    rw [List.mem_singleton.mp (List.mem_ite_nil_right.mp hm).2]
    exact hP .leave id
  | push push hf he =>
    rw [he]
    refine Emits.emitAll (.of_trace rfl) (push.forall_cancellation (hP _ _) fun event duration => ?_)
    exact Lenient.report _ trivial
  | nothing hd hq he =>
    rw [he]
    exact .refl P d

theorem keeps_cancelCall (d : Driver) (id : RequestId) : Keeps E t d (d.cancelCall id) := by
  rcases cancelCall_cases d id with hcancel | ⟨reference, call, -, -, hcancel⟩
  · rw [hcancel]
    exact .refl t d
  · rw [hcancel]
    refine .of_emits ?_ ⟨_, rfl, by simp [Effect.Unjoining]⟩
    rw [setProtocol_protocol, Protocol.forgetPush_channels]

theorem keeps_cancelPending (d : Driver) (id : RequestId) : Keeps E t d (d.cancelPending id) := by
  have hping : Keeps E t d ((d.cancelCall id).cancelPing id) := by
    refine (keeps_cancelCall d id).trans ?_
    by_cases ht : t = "phoenix"
    · exact (apart_cancelPing "room" _ id).keeps (by rw [ht]; decide)
    · exact (apart_cancelPing "phoenix" _ id).keeps ht
  obtain ⟨hp, -, effects, ht, heffects⟩ := cancelLeave_tables ((d.cancelCall id).cancelPing id) id
  refine hping.silent (by rw [cancelPending, hp]) ⟨effects, ht, fun effect hm served frame j he => ?_⟩
  rw [heffects effect hm] at he
  cases he

theorem keeps_cancel (hg : d.Gentle t (.lifecycle (.cancel id))) : Keeps E t d (d.cancel id) := by
  cases d.cancel_found id with
  | join topic channel hr hm hcancel =>
    rw [hcancel]
    by_cases ht : t = topic
    · cases ht
      refine keeps_cancelJoin d t fun he hj j hs => ?_
      obtain ⟨hi, -⟩ := hg d (.cancel id t ⟨channel, hr, hm, he, hj⟩) j hs
      cases hi
    · exact apart_cancelJoin.keeps ht
  | unsent topic channel hr hm hcancel =>
    rw [hcancel]
    refine .of_emits (by simp) (emits_cancelUnsent (fun operation id served frame j he => ?_) _)
    cases he
  | pending hj hq hcancel =>
    rw [hcancel]
    exact keeps_cancelPending d id

theorem keeps_message {message : WireMessage} (hco : d.state.protocol.Coherent)
    (h : (d.onMessage env message).2 = none) :
    Keeps (EndedBy env t (.message message)) t d (d.onMessage env message).1 := by
  obtain ⟨frame, event, p, report, due, hd, hrec, -, he⟩ := onMessage_of_ok h
  have hrec : (d.emitAll [.telemetry report]).state.protocol.receive frame = (.ok event, p) := hrec
  have hevent : Keeps (fun j => Refuses t j frame ∨ EndOf t j frame) t (d.emitAll [.telemetry report])
      (((d.emitAll [.telemetry report]).setProtocol p).handleEvent env event).1 :=
    keeps_handleEvent hco hrec
  have hended : ∀ j, Refuses t j frame ∨ EndOf t j frame → EndedBy env t (.message message) j :=
    fun j hj => ⟨message, frame, rfl, hd, hj⟩
  rw [he]
  exact ((hevent.of_report).mono hended).silent rfl (.of_trace rfl)

theorem keeps_command (command : Command) :
    Keeps E t d ((d.accept command).handleConnectedCommand env command).1 := by
  obtain ⟨topic, ha, hk⟩ := apart_handleConnectedCommand env d command
  by_cases ht : t = topic
  swap
  · exact hk.keeps ht
  cases ht
  refine (keeps_accept d t command).trans ?_
  cases ha with
  | ping id => exact keeps_handlePing env _ _ id
  | join id topic timeout => exact keeps_handleJoin _ t id timeout
  | call id topic event payload started => exact keeps_handlePush env _ t _
  | cast id topic event payload => exact keeps_handlePush env _ t _
  | leave id topic timeout => exact keeps_handleLeave env _ t id timeout
  | subscribeChannel topic => exact .refl ..
  | control command hc hs =>
    cases command with
    | connect | disconnect | subscribe | shutdown => exact .refl ..
    | subscribeChannel topic => exact absurd rfl (hs topic)
    | ping | join | call | cast | leave => cases hc

/-- A deadline that means something discards the topic's channel, which has fallen. -/
theorem keeps_operationTimeout {timer : Timer OperationTimeout}
    (hg : d.Gentle timer.value.topic (.operationTimeout timer)) :
    Keeps E timer.value.topic d
      ((d.takeOperationTimeout timer).handleOperationTimeout env timer.value) := by
  have hfallen : ∀ d₁, d.Discards (.operationTimeout timer) d₁ timer.value.topic →
      ∀ j, ¬ d.Standing timer.value.topic j := fun d₁ hd j hs => by
    obtain ⟨hi, -⟩ := hg d₁ hd j hs
    cases hi
  cases hv : timer.value with
  | join topic reference duration =>
    rw [hv] at hfallen
    have htake : Keeps E topic d ((d.takeOperationTimeout timer).eraseJoin reference) :=
      .of_emits rfl (.of_trace rfl)
    simp only [handleOperationTimeout]
    split
    · rename_i hpending
      refine htake.trans (keeps_joinTimedOut env _ topic (fun j hs => ?_) duration)
      exact hfallen d (.joinTimeout timer topic reference duration hv hpending) j hs
    · exact htake
  | leave topic reference duration =>
    rw [hv] at hfallen
    simp only [handleOperationTimeout]
    split
    · exact .of_emits rfl (.of_trace rfl)
    · rename_i pending hpending
      have htake : Keeps E topic d ((d.takeOperationTimeout timer).eraseLeave reference) :=
        .of_emits rfl (.of_trace rfl)
      refine htake.trans (keeps_leaveTimedOut _ topic (fun j hs => ?_) pending duration)
      exact hfallen _ (.leaveTimeout timer topic reference duration hv (Table.mem_of_lookup hpending)) j hs

/-- **A connected step keeps the topic's generation standing**, or leaves it, if it does not
discard it and does not learn of its end. -/
theorem ConnectedStep.keeps (hs : ConnectedStep env d input d') (hco : d.state.protocol.Coherent)
    (hg : d.Gentle t input) : d'.Over ∨ Keeps (EndedBy env t input) t d d' := by
  cases hs with
  | lifecycle command =>
    cases command with
    | register topic =>
      by_cases ht : t = topic
      · cases ht
        exact .inr (keeps_register env d t)
      · exact .inr ((Apart.refl topic d).register.keeps ht)
    | unregister topic =>
      refine keeps_settle fun _ => ?_
      by_cases ht : t = topic
      · cases ht
        exact keeps_unregisterConnected env d t fun j hs => (hg d (.unregister t) j hs).2
      · exact (apart_unregisterConnected env d topic).keeps ht
    | cancel id => exact .inr (keeps_cancel hg)
  | command command => exact keeps_settle fun _ => keeps_command command
  | acknowledge => exact .inr (.of_emits rfl ((Emits.refl _ d).emitAll (by simp [Effect.Unjoining])))
  | disconnect => exact .inl ⟨nofun, .inr ((settled_onDisconnect d .requested).of_eq rfl)⟩
  | close => exact .inl ⟨nofun, .inl rfl⟩
  | lost input hi reason => exact .inl (over_lost ..)
  | message message => exact keeps_settle (keeps_message hco)
  | heartbeat => exact keeps_settle fun _ => keeps_handleHeartbeat env d t
  | payload topic payloadId result hm =>
    refine keeps_settle fun _ => ?_
    by_cases ht : t = topic
    · cases ht
      have htake : Keeps Never t d (d.takePayload t payloadId) := .of_emits rfl (.of_trace rfl)
      have hpayload : Keeps Never t d
          ((d.takePayload t payloadId).handlePayload env t payloadId result).1 :=
        htake.trans (keeps_handlePayload ..)
      exact hpayload.mono fun _ hn => hn.elim
    · exact ((apart_takePayload d topic payloadId).trans
        (apart_handlePayload env _ topic payloadId result)).keeps ht
  | rejoin timer hm =>
    refine .inr ?_
    by_cases ht : t = timer.value
    · rw [ht]
      have htake : Keeps Never timer.value d (d.takeRejoin timer) := .of_emits rfl (.of_trace rfl)
      have hrejoin : Keeps Never timer.value d ((d.takeRejoin timer).handleRejoin timer.value) :=
        htake.trans (keeps_handleRejoin ..)
      exact hrejoin.mono fun _ hn => hn.elim
    · exact ((apart_takeRejoin d timer.value timer).trans (apart_handleRejoin _ timer.value)).keeps ht
  | operationTimeout timer hm =>
    refine .inr ?_
    by_cases ht : t = timer.value.topic
    · rw [ht] at hg ⊢
      exact keeps_operationTimeout hg
    · exact (apart_operationTimeout env hm).keeps ht

end

end Driver
end PhoenixChannel.Client
