import PhoenixChannel.Client.Deferred
import PhoenixChannel.Client.Subjects

/-! Calls and leaves that can still be answered.

The driver keeps a table of the calls and one of the leaves that wait for a reply, and the
protocol one of all pending requests. A call or leave can be answered as long as its
reference is pending in the protocol too. Discarding a topic's channel drops the topic's
pending requests and leaves the driver's tables alone; everything else keeps the tables
together. -/
namespace PhoenixChannel.Client
open PhoenixChannel.Runtime Library
open Protocol (Move Moves)

namespace Driver

/-- Every call and leave the driver waits for is pending in the protocol. -/
structure Answerable (d : Driver) : Prop where
  calls : ∀ (r : Reference) (call : PendingCall), d.state.pendingCalls[r]? = some call →
    d.state.protocol.pending[r]? = some (.push call.topic call.event)
  leaves : ∀ r : Reference, r ∈ d.state.pendingLeaves →
    ∃ topic, d.state.protocol.pending[r]? = some (.leave topic)

/-- No call and no leave of the topic waits for a reply. -/
structure Unawaited (d : Driver) (topic : Topic) : Prop where
  calls : ∀ (r : Reference) (call : PendingCall), d.state.pendingCalls[r]? = some call →
    call.topic ≠ topic
  leaves : ∀ r : Reference, r ∈ d.state.pendingLeaves →
    d.state.protocol.pending[r]? ≠ some (.leave topic)

/-- From `d` to `d'` no call or leave loses its answer, as long as references are new. -/
structure Minds (d d' : Driver) : Prop where
  moved : d.Moved d'
  answers : d.state.protocol.Numbered → d'.state.protocol.allocated < 2 ^ 64 → d.Answerable →
    d'.Answerable

section
variable {d d' d'' : Driver} {topic : Topic}

theorem Minds.trans (h : d.Minds d') (h' : d'.Minds d'') : d.Minds d'' where
  moved := h.moved.trans h'.moved
  answers hn hb ha := by
    have hb' := Nat.lt_of_le_of_lt (Moves.grows h'.moved) hb
    exact h'.answers (hn.moves h.moved hb') hb (h.answers hn hb' ha)

/-- The requests stay pending, and nothing more waits for them. -/
theorem Minds.of_tables (hm : d.Moved d')
    (hp : d'.state.protocol.pending = d.state.protocol.pending)
    (hc : ∀ (r : Reference) (call : PendingCall), d'.state.pendingCalls[r]? = some call →
      d.state.pendingCalls[r]? = some call)
    (hl : ∀ r : Reference, r ∈ d'.state.pendingLeaves → r ∈ d.state.pendingLeaves) : d.Minds d' := by
  refine ⟨hm, fun _ _ ha => ⟨fun r call hr => ?_, fun r hr => ?_⟩⟩
  · rw [hp]
    exact ha.calls r call (hc r call hr)
  · rw [hp]
    exact ha.leaves r (hl r hr)

theorem Minds.of_eq (h : d'.inFlight = d.inFlight) : d.Minds d' := by
  simp only [inFlight, Prod.mk.injEq] at h
  obtain ⟨hp, -, hc, -, hl, -⟩ := h
  exact .of_tables (moved_of_eq hp) (by rw [hp]) (fun r call hr => by rwa [← hc])
    fun r hr => by rwa [← hl]

theorem Minds.refl (d : Driver) : d.Minds d := .of_eq rfl

theorem Unawaited.of_eq (h : d.Unawaited topic) (he : d'.inFlight = d.inFlight) :
    d'.Unawaited topic := by
  simp only [inFlight, Prod.mk.injEq] at he
  obtain ⟨hp, -, hc, -, hl, -⟩ := he
  exact ⟨fun r call hr => h.calls r call (by rwa [← hc]),
    fun r hr => by rw [hp]; exact h.leaves r (by rwa [← hl])⟩

/-- The channel of a topic nobody waits for is discarded. -/
theorem Minds.discardChannel (h : d.Minds d')
    (hu : d.state.protocol.Numbered → d'.state.protocol.allocated < 2 ^ 64 → d.Answerable →
      d'.Unawaited topic) : d.Minds (d'.discardChannel topic) := by
  refine ⟨h.moved.trans (moved_of_move (.discardChannel topic)), fun hn hb hans => ?_⟩
  have ha := h.answers hn hb hans
  have hu := hu hn hb hans
  have hlook : ∀ (r : Reference) (x : Pending), d'.state.protocol.pending[r]? = some x →
      x.topic? ≠ some topic → (d'.discardChannel topic).state.protocol.pending[r]? = some x := by
    intro r x hr hx
    show (d'.state.protocol.pending.filter fun _ pending => pending.topic? != some topic)[r]? = some x
    rw [Std.ExtTreeMap.getElem?_filter', hr, Option.filter_some, if_pos (bne_iff_ne.mpr hx)]
  refine ⟨fun r call hr => ?_, fun r hr => ?_⟩
  · refine hlook r _ (ha.calls r call hr) fun he => hu.calls r call hr ?_
    exact Option.some.inj he
  · obtain ⟨t, ht⟩ := ha.leaves r hr
    refine ⟨t, hlook r _ ht fun he => hu.leaves r hr ?_⟩
    rw [ht, Option.some.inj he]

/-- A request is tracked under the reference that is handed out next. -/
theorem Minds.track {x : Pending} (hm : d.Moved d')
    (ha : d'.state.protocol.allocated = d.state.protocol.allocated + 1)
    (hp : d'.state.protocol.pending = d.state.protocol.pending.insert d.state.protocol.nextText x)
    (hc : d'.state.pendingCalls = d.state.pendingCalls ∨ ∃ call : PendingCall,
      d'.state.pendingCalls = d.state.pendingCalls.insert d.state.protocol.nextText call ∧
        x = .push call.topic call.event)
    (hl : d'.state.pendingLeaves = d.state.pendingLeaves ∨ ∃ leave t,
      d'.state.pendingLeaves = d.state.pendingLeaves.insert d.state.protocol.nextText leave ∧
        x = .leave t) : d.Minds d' := by
  refine ⟨hm, fun hn hb hans => ?_⟩
  have hb' : d.state.protocol.allocated + 1 < 2 ^ 64 := by rw [← ha]; exact hb
  -- what was pending is not under the new reference
  have hold : ∀ (r : Reference) (y : Pending), d.state.protocol.pending[r]? = some y →
      d'.state.protocol.pending[r]? = some y := by
    intro r y hr
    rw [hp, Table.lookup_insert, if_neg, hr]
    rintro rfl
    exact hn.fresh hb' (Table.mem_of_lookup hr)
  have hnew : d'.state.protocol.pending[d.state.protocol.nextText]? = some x := by
    rw [hp, Table.lookup_insert, if_pos rfl]
  refine ⟨fun r call hr => ?_, fun r hr => ?_⟩
  · rcases hc with hc | ⟨call', hc, hx⟩
    · exact hold r _ (hans.calls r call (by rw [← hc]; exact hr))
    · rw [hc, Table.lookup_insert] at hr
      split at hr
      · rename_i he
        cases hr
        rw [he, hnew, hx]
      · exact hold r _ (hans.calls r call hr)
  · rcases hl with hl | ⟨leave, t, hl, hx⟩
    · obtain ⟨t, ht⟩ := hans.leaves r (by rw [← hl]; exact hr)
      exact ⟨t, hold r _ ht⟩
    · rw [hl, Std.ExtTreeMap.mem_insert] at hr
      rcases hr with he | hr
      · rw [← Std.LawfulEqOrd.eq_of_compare he]
        exact ⟨t, by rw [hnew, hx]⟩
      · obtain ⟨t', ht'⟩ := hans.leaves r hr
        exact ⟨t', hold r _ ht'⟩

/-- The request under a reference is settled, and with it what the driver held there. -/
theorem Minds.settle {r : Reference} {x : Pending} (hm : d.Moved d')
    (hx : d.state.protocol.pending[r]? = some x)
    (hp : d'.state.protocol.pending = d.state.protocol.pending.erase r)
    (hc : d'.state.pendingCalls = d.state.pendingCalls.erase r ∨
      d'.state.pendingCalls = d.state.pendingCalls ∧ ∀ t event, x ≠ .push t event)
    (hl : d'.state.pendingLeaves = d.state.pendingLeaves.erase r ∨
      d'.state.pendingLeaves = d.state.pendingLeaves ∧ ∀ t, x ≠ .leave t) : d.Minds d' := by
  refine ⟨hm, fun _ _ ha => ⟨fun r' call hr => ?_, fun r' hr => ?_⟩⟩
  · have hne : r' ≠ r ∧ d.state.pendingCalls[r']? = some call := by
      rcases hc with hc | ⟨hc, hne⟩
      · rw [hc, Table.lookup_erase] at hr
        split at hr
        · cases hr
        · exact ⟨by assumption, hr⟩
      · rw [hc] at hr
        refine ⟨?_, hr⟩
        rintro rfl
        exact hne _ _ (Option.some.inj (hx.symm.trans (ha.calls r' call hr)))
    rw [hp, Table.lookup_erase, if_neg hne.1]
    exact ha.calls r' call hne.2
  · have hne : r' ≠ r ∧ r' ∈ d.state.pendingLeaves := by
      rcases hl with hl | ⟨hl, hne⟩
      · rw [hl, Std.ExtTreeMap.mem_erase] at hr
        exact ⟨fun he => hr.1 (by rw [he]; exact Std.ReflCmp.compare_self), hr.2⟩
      · rw [hl] at hr
        refine ⟨?_, hr⟩
        rintro rfl
        obtain ⟨t, ht⟩ := ha.leaves r' hr
        exact hne t (Option.some.inj (hx.symm.trans ht))
    obtain ⟨t, ht⟩ := ha.leaves r' hne.2
    exact ⟨t, by rw [hp, Table.lookup_erase, if_neg hne.1]; exact ht⟩

end

/-! ### Pushes and leaves

A call or a leave that is sent enters both tables under the same new reference. A push that fails
enters neither. -/

section
variable (env : Env) (d : Driver) (topic : Topic)

theorem Minds.same {d d' d'' : Driver} (h : d.Minds d') (he : d''.inFlight = d'.inFlight) :
    d.Minds d'' := h.trans (.of_eq he)

/-- A push that the transport can carry waits under a new reference, in the driver's table and in the
protocol's; any other is answered, or ends the connection. -/
theorem minds_sendPush (push : QueuedPush) : d.Minds (d.sendPush env topic push).1 := by
  cases push_handled env d topic push with
  | refusedCall id event payload started hb he =>
    rw [he]
    exact .of_eq rfl
  | refusedCast id event payload hb he =>
    rw [he]
    exact .of_eq rfl
  | notJoined push hj he =>
    rw [he]
    exact .refl d
  | call id event payload started joinRef hb hj he =>
    rw [he]
    have htrack : d.Minds (d.trackCall topic id event payload started) := by
      refine .track (x := .push topic event)
        (Pushed.trackCall d topic id event payload started hj).moved ?_ ?_ (.inr ⟨_, rfl, rfl⟩) (.inl rfl)
      · simp only [trackCall, Protocol.push_of_joined hj]
      · simp only [trackCall, Protocol.push_of_joined hj]
    exact htrack.same (by simp)
  | cast id event payload joinRef sent hb hj hs he =>
    rw [he, hs]
    exact .of_eq (by simp)

theorem minds_flush : d.Minds (d.flush env topic).1 :=
  flush_induction Minds.refl (fun _ _ _ => Minds.trans)
    (fun d channel push queued _ _ => (Minds.of_eq (setRecord_inFlight d topic { channel with queued })).trans
      (minds_sendPush env _ topic push)) d

/-- A leave waits under a new reference in both tables, or is answered at once. -/
theorem minds_sendLeave (pending : PendingLeave) : d.Minds (d.sendLeave env topic pending).1 := by
  cases hj : d.state.protocol.joinedRef topic with
  | none =>
    have hm := sendLeave_moved env d topic pending
    obtain ⟨e, he⟩ := sendLeave_of_not_joined env pending hj
    rw [he] at hm ⊢
    exact ⟨hm, fun _ _ ha => ⟨ha.calls, ha.leaves⟩⟩
  | some joinRef =>
    obtain ⟨c, hc, hs, -⟩ := Protocol.joinedRef_eq_some.mp hj
    have hp : (d.trackLeave topic pending).state.protocol = (d.state.protocol.leave topic).2 := rfl
    have hm : d.Moved (d.trackLeave topic pending) := moved_of_move (by rw [hp]; exact .leave topic)
    rw [Protocol.leave_of_joined hc hs] at hp
    rw [sendLeave_of_joined hc hs]
    have htrack : d.Minds (d.trackLeave topic pending) :=
      .track (x := .leave topic) hm (by rw [hp]) (by rw [hp]) (.inl rfl) (.inr ⟨pending, topic, rfl, rfl⟩)
    exact htrack.same (by simp)

end

/-! ### Other commands and timers

Where a handler discards a channel, its lemma asks that nobody waits for an answer on that channel. -/

section
variable (env : Env) {d d' : Driver} {topic : Topic}

/-- Discarding the channel drops pending requests of its topic, so no call or leave of the topic may wait. -/
theorem Minds.unregister (h : d.Minds d')
    (hu : d.state.protocol.Numbered → d'.state.protocol.allocated < 2 ^ 64 → d.Answerable →
      d'.Unawaited topic) : d.Minds (d'.unregister topic) := by
  have hstop : ({ d'.stopChannel topic with
      state := { (d'.stopChannel topic).state with
        channels := (d'.stopChannel topic).state.channels.erase topic } } : Driver).inFlight =
      d'.inFlight := stopChannel_inFlight d' topic
  refine (h.same hstop).discardChannel fun hn hb ha => (hu hn ?_ ha).of_eq hstop
  have hp : (d'.stopChannel topic).state.protocol = d'.state.protocol := stopChannel_protocol ..
  rw [← hp]
  exact hb

/-- The leave of a dropped channel is pending for the moment. -/
theorem minds_unregisterConnected (hu : d.Unawaited topic) :
    d.Minds (d.unregisterConnected env topic).1 := by
  by_cases hj : d.state.protocol.channelState topic = some .joined
  · obtain ⟨channel, hc, hs⟩ := Option.map_eq_some_iff.mp hj
    rw [unregisterConnected_of_joined hc hs]
    have hp := congrArg Prod.snd (Protocol.leave_of_joined hc hs)
    have hm : d.Moved (d.setProtocol (d.state.protocol.leave topic).2) := moved_of_move (.leave topic)
    have hleave : d.Minds (d.setProtocol (d.state.protocol.leave topic).2) :=
      .track (x := .leave topic) hm (by rw [setProtocol_protocol, hp]) (by rw [setProtocol_protocol, hp])
        (.inl rfl) (.inl rfl)
    refine (hleave.unregister fun hn hb ha => ⟨hu.calls, fun r hr => ?_⟩).same (sendFrame_inFlight ..)
    obtain ⟨t, ht⟩ := ha.leaves r hr
    have hne : r ≠ d.state.protocol.nextText := by
      rintro rfl
      refine hn.fresh ?_ (Table.mem_of_lookup ht)
      rwa [setProtocol_protocol, hp] at hb
    rw [setProtocol_protocol, hp, Table.lookup_insert, if_neg hne]
    exact hu.leaves r hr
  · rw [unregisterConnected_of_not_joined hj]
    exact (Minds.refl d).unregister fun _ _ _ => hu

theorem minds_handlePing (d : Driver) (id : RequestId) : d.Minds (d.handlePing env id).1 := by
  rw [handlePing_eq]
  have htrack : d.Minds (d.trackPing id) :=
    .track (x := .heartbeat) (moved_of_move .heartbeat) rfl rfl (.inl rfl) (.inl rfl)
  exact htrack.same (sendFrame_inFlight ..)

/-- A heartbeat is nobody's call or leave. -/
theorem minds_handleHeartbeat (d : Driver) : d.Minds (d.handleHeartbeat env).1 := by
  by_cases h : d.connection.heartbeatReference.isSome = true
  · rw [handleHeartbeat_of_some h]
    exact .refl d
  · rw [handleHeartbeat_of_none h]
    have htrack : d.Minds d.trackHeartbeat :=
      .track (x := .heartbeat) (moved_of_move .heartbeat) rfl rfl (.inl rfl) (.inl rfl)
    have hs : d.Minds (d.trackHeartbeat.sendFrame env []
        ⟨none, some d.state.protocol.nextText, "phoenix", "heartbeat", .emptyObject⟩).1 :=
      htrack.same (sendFrame_inFlight ..)
    rcases hsend : d.trackHeartbeat.sendFrame env []
      ⟨none, some d.state.protocol.nextText, "phoenix", "heartbeat", .emptyObject⟩ with ⟨d', _ | reason⟩
    · rw [hsend] at hs
      exact hs.same rfl
    · rw [hsend] at hs
      exact hs

/-- A leave is sent, put off until the join under way has its reply, or answered at once. -/
theorem minds_handleLeave (d : Driver) (id : RequestId) (topic : Topic) (timeout : Duration) :
    d.Minds (d.handleLeave env id topic timeout).1 := by
  have hstop : ∀ status, d.Minds ((d.setStatus topic status).stopChannel topic) := fun _ =>
    .of_eq (by simp)
  cases leave_handled env d id topic timeout with
  | sent channel hc hs he =>
    rw [he]
    exact (hstop _).trans (minds_sendLeave env _ topic _)
  | deferred channel hs hr he =>
    rw [he]
    exact (hstop _).same rfl
  | idle hs hj he =>
    rw [he]
    exact (hstop _).same rfl

/-- No command makes a call or leave wait in vain: what it sends waits in both tables. -/
theorem minds_handleConnectedCommand (d : Driver) (command : Command) :
    d.Minds ((d.accept command).handleConnectedCommand env command).1 := by
  have haccept : d.Minds (d.accept command) := .of_eq (accept_inFlight d command)
  refine haccept.trans ?_
  generalize d.accept command = d
  have hpush : ∀ topic push, d.Minds (d.handlePush env topic push).1 := by
    intro topic push
    unfold handlePush
    split
    · exact minds_sendPush env d topic push
    · exact .of_eq (queue_inFlight ..)
  cases command with
  | connect | disconnect | subscribe | subscribeChannel _ | shutdown => exact .refl d
  | ping id => exact minds_handlePing env d id
  | join id topic timeout => exact .of_eq (handleJoin_inFlight ..)
  | call id topic event payload started => exact hpush topic _
  | cast id topic event payload => exact hpush topic _
  | leave id topic timeout => exact minds_handleLeave env d id topic timeout

theorem minds_trackJoin (d : Driver) {params : Value} {channel : ChannelRecord}
    (hs : d.state.protocol.channelState topic = none) :
    d.Minds (d.trackJoin topic params channel) := by
  have hp : (d.state.protocol.join topic params).2 = _ :=
    congrArg Prod.snd (Protocol.join_of_unknown hs)
  exact .track (x := .join topic) (apart_trackJoin hs).moved
    (by simp only [trackJoin, hp]) (by simp only [trackJoin, hp]) (.inl rfl) (.inl rfl)

/-- A join that is given up takes its topic's channel along. -/
theorem Minds.joinTimedOut (h : d.Minds d') (hu : d'.Unawaited topic) (duration : Duration) :
    d.Minds (d'.joinTimedOut env topic duration) := by
  have hdiscard : d.Minds (d'.discardChannel topic) := h.discardChannel fun _ _ _ => hu
  unfold Driver.joinTimedOut
  dsimp only
  split
  · exact hdiscard
  · split
    · exact hdiscard.same (by simp)
    split
    · exact hdiscard.same (by simp)
    · exact hdiscard.same (by simp)

/-- A leave that is given up takes its topic's channel along, with the reference it waited under. -/
theorem Minds.leaveTimedOut (h : d.Minds d') (hu : d'.Unawaited topic) (pending : PendingLeave)
    (duration : Duration) : d.Minds (d'.leaveTimedOut topic pending duration) := by
  have hanswer := answerLeave_inFlight d' (some pending) (.error (.timeout .leave duration))
  have hdiscard : d.Minds
      ((d'.answerLeave (some pending) (.error (.timeout .leave duration))).discardChannel topic) :=
    (h.same hanswer).discardChannel fun _ _ _ => hu.of_eq hanswer
  unfold Driver.leaveTimedOut
  dsimp only
  split
  · exact hdiscard
  · split
    · exact hdiscard.same (by simp)
    · exact hdiscard.same (by simp)

end

/-! ### Frames

The protocol drops a request that it settles, and the handler of its event drops the same reference
from the driver's table. What an error or a close of the channel drops is up to the condition again. -/

section
variable {env : Env} {d : Driver} {topic : Topic} {reference : Reference} {response : Payload}
  {frame : Frame} {p : Protocol}

/-- A join that a reply settled. -/
theorem minds_joinSettled {state : ChannelState} (hm : Move d.state.protocol p)
    (hp : d.state.protocol.pending[reference]? = some (.join topic))
    (he : p = { d.state.protocol with
      channels := Protocol.setState d.state.protocol.channels topic state
      pending := d.state.protocol.pending.erase reference }) :
    d.Minds ((d.setProtocol p).eraseJoin reference) :=
  .settle (moved_of_move hm) hp (by rw [eraseJoin_protocol, setProtocol_protocol, he])
    (.inr ⟨rfl, nofun⟩) (.inr ⟨rfl, nofun⟩)

/-- The reply settles the join only; a leave that was put off is sent then. -/
theorem minds_joined
    (hrec : d.state.protocol.receive frame = (.ok (.joined topic reference response), p)) :
    d.Minds ((d.setProtocol p).onJoined env topic reference response).1 := by
  obtain ⟨hp, he⟩ := Protocol.receive_explains hrec
  have hsettle := minds_joinSettled (receive_move hrec) hp he
  cases hr : (d.setProtocol p).record topic with
  | none =>
    rw [onJoined_of_none hr]
    exact (hsettle.same (emitChannel_inFlight ..)).trans (minds_flush ..)
  | some channel =>
    have hwelcome : d.Minds ((d.setProtocol p).welcome topic reference response channel) :=
      hsettle.same (by simp [welcome])
    cases hl : channel.deferredLeave with
    | none =>
      rw [onJoined_of_not_deferred hr hl]
      exact hwelcome.trans (minds_flush ..)
    | some pending =>
      rw [onJoined_of_deferred hr hl]
      exact hwelcome.trans (minds_sendLeave ..)

/-- A refused join leaves no channel, and no call is sent on a channel that is not joined. -/
theorem minds_joinError
    (hrec : d.state.protocol.receive frame = (.ok (.joinError topic reference response), p)) :
    d.Minds ((d.setProtocol p).onJoinError env topic reference response) := by
  obtain ⟨hp, he⟩ := Protocol.receive_explains hrec
  have hsettle := minds_joinSettled (receive_move hrec) hp he
  cases hr : (d.setProtocol p).record topic with
  | none =>
    rw [onJoinError_of_none hr]
    exact hsettle.same (emitChannel_inFlight ..)
  | some channel =>
    rw [onJoinError_of_some hr]
    exact hsettle.same (by simp)

/-- The leave that the reply settles is gone from both tables. -/
theorem minds_left
    (hrec : d.state.protocol.receive frame = (.ok (.left topic reference response), p)) :
    d.Minds ((d.setProtocol p).onLeft topic reference response) := by
  obtain ⟨hp, he⟩ := Protocol.receive_explains hrec
  have herase : d.Minds ((d.setProtocol p).eraseLeave reference) :=
    .settle (moved_of_move (receive_move hrec)) hp
      (by rw [eraseLeave_protocol, setProtocol_protocol, he]) (.inr ⟨rfl, nofun⟩) (.inl rfl)
  cases hr : (d.setProtocol p).record topic with
  | none =>
    rw [onLeft_of_none hr]
    exact herase.same (by simp [leaveSettled])
  | some channel =>
    rw [onLeft_of_some hr]
    split
    · exact herase.same (by simp [leaveSettled])
    · exact herase.same (by simp [leaveSettled])

/-- The call that the reply settles is gone from both tables. -/
theorem minds_reply {event : String} {status : ReplyStatus}
    (hrec : d.state.protocol.receive frame = (.ok (.reply topic event reference status response), p)) :
    d.Minds ((d.setProtocol p).onReply topic event reference status response) := by
  obtain ⟨-, -, hp, he⟩ := Protocol.receive_explains hrec
  cases hc : (d.setProtocol p).state.pendingCalls[reference]? with
  | none =>
    rw [onReply_of_none hc]
    have hreceive : d.Minds (d.setProtocol p) :=
      .settle (moved_of_move (receive_move hrec)) hp (by rw [setProtocol_protocol, he])
        (.inl (Table.erase_of_none hc).symm) (.inr ⟨rfl, nofun⟩)
    exact hreceive.same (emitChannel_inFlight ..)
  | some call =>
    rw [onReply_of_some hc]
    have hsettle : d.Minds ((d.setProtocol p).callSettled reference call status response) :=
      .settle (moved_of_move (receive_move hrec)) hp
        (by simp only [callSettled, emitAll_state, setProtocol_protocol, he]) (.inl rfl)
        (.inr ⟨rfl, nofun⟩)
    exact hsettle.same (emitChannel_inFlight ..)

/-- Of an acknowledgement only the heartbeat or ping under its reference is told. -/
theorem minds_heartbeatAck {status : ReplyStatus}
    (hrec : d.state.protocol.receive frame = (.ok (.heartbeatAck reference status), p)) :
    d.Minds ((d.setProtocol p).onHeartbeatAck reference) := by
  obtain ⟨hp, he⟩ := Protocol.receive_explains hrec
  have hreceive : d.Minds (d.setProtocol p) :=
    .settle (moved_of_move (receive_move hrec)) hp (by rw [setProtocol_protocol, he])
      (.inr ⟨rfl, nofun⟩) (.inr ⟨rfl, nofun⟩)
  have hsame : ∀ d' : Driver, d'.state.protocol = p → d'.state.pendingCalls = d.state.pendingCalls →
      d'.state.pendingLeaves = d.state.pendingLeaves → d.Minds d' := fun d' hp hc hl =>
    hreceive.trans (.of_tables (moved_of_eq hp) (by rw [hp, setProtocol_protocol])
      (fun r call hr => by rwa [hc] at hr) fun r hr => by rwa [hl] at hr)
  unfold onHeartbeatAck
  split
  · exact hsame _ rfl rfl rfl
  split
  · exact hreceive
  · exact hsame _ rfl rfl rfl

/-- An error or a close of a channel leaves its requests pending. -/
theorem minds_down {state : ChannelState} (hm : Move d.state.protocol p)
    (he : p = { d.state.protocol with
      channels := Protocol.setState d.state.protocol.channels topic state }) :
    d.Minds ((d.setProtocol p).forgetJoins topic) :=
  .of_tables (moved_of_move hm) (by rw [forgetJoins_protocol, setProtocol_protocol, he])
    (fun _ _ hr => hr) fun _ hr => hr

/-- One case for each event that a frame can mean. -/
theorem minds_handleEvent {event : ProtocolEvent}
    (hrec : d.state.protocol.receive frame = (.ok event, p)) :
    d.Minds ((d.setProtocol p).handleEvent env event).1 := by
  cases event with
  | joined topic reference response => exact minds_joined hrec
  | joinError topic reference response => exact minds_joinError hrec
  | reply topic name reference status response => exact minds_reply hrec
  | left topic reference response => exact minds_left hrec
  | heartbeatAck reference status => exact minds_heartbeatAck hrec
  | channelError topic payload =>
    obtain ⟨-, -, -, he⟩ := Protocol.receive_explains hrec
    exact (minds_down (receive_move hrec) he).same (by simp [handleEvent, onChannelError])
  | channelClosed topic payload =>
    obtain ⟨-, -, -, he⟩ := Protocol.receive_explains hrec
    refine (minds_down (receive_move hrec) he).same ?_
    simp only [handleEvent, onChannelClosed, stopChannel_inFlight, emitChannel_inFlight]
    split <;> rfl
  | message frame | staleMessage frame | unmatchedReply frame =>
    have he := Protocol.receive_explains hrec
    cases he
    exact .of_eq (emitChannel_inFlight ..)
  | requestInterrupted topic name reference => cases Protocol.receive_explains hrec

end

/-! ### Cancellation

A cancelled call leaves both tables. A cancelled leave keeps its place, without its response. -/

section
variable {d : Driver} {topic : Topic} {channel : ChannelRecord} {id : RequestId}

/-- The last waiter of a channel that never joined takes the channel along. -/
theorem minds_cancelJoin (hu : channel.joinWaiters.erase id = [] → channel.everJoined = false →
    d.Unawaited topic) : d.Minds (d.cancelJoin topic channel id) := by
  by_cases h : channel.joinWaiters.erase id = [] ∧ channel.everJoined = false
  · rw [cancelJoin_of_last h.1 h.2]
    have habandon : d.Minds (((d.setRecord topic (channel.abandoned id)).emitAll
        [.cancelled .join id]).forgetJoins topic) :=
      .of_tables (moved_of_eq rfl) rfl (fun _ _ hr => hr) fun _ hr => hr
    exact habandon.discardChannel fun _ _ _ => ⟨(hu h.1 h.2).calls, (hu h.1 h.2).leaves⟩
  · rw [cancelJoin_of_others h]
    exact .of_eq rfl

/-- The request of a cancelled call is forgotten with it. -/
theorem minds_cancelCall (d : Driver) (id : RequestId) : d.Minds (d.cancelCall id) := by
  rcases cancelCall_cases d id with hcancel | ⟨reference, call, -, -, hcancel⟩
  · rw [hcancel]
    exact .refl d
  · rw [hcancel]
    have hm : Move d.state.protocol (d.state.protocol.forgetPush reference).2 := .forgetPush reference
    have hforget := Protocol.forgetPush_cases d.state.protocol reference
    generalize d.state.protocol.forgetPush reference = forgotten at hm hforget ⊢
    rcases hforget with ⟨t, event, hp, rfl⟩ | rfl
    · exact .settle (moved_of_move hm) hp rfl (.inl rfl) (.inr ⟨rfl, nofun⟩)
    · refine .of_tables (moved_of_move hm) rfl (fun r call hr => ?_) fun _ hr => hr
      have hr : (d.state.pendingCalls.erase reference)[r]? = some call := hr
      rw [Table.lookup_erase] at hr
      split at hr
      · cases hr
      · exact hr

/-- A ping is neither a call nor a leave. -/
theorem minds_cancelPing (d : Driver) (id : RequestId) : d.Minds (d.cancelPing id) := by
  rcases cancelPing_cases d id with hcancel | ⟨reference, ping, -, -, hcancel⟩
  · rw [hcancel]
    exact .refl d
  · rw [hcancel]
    have hm : Move d.state.protocol (d.state.protocol.forgetHeartbeat reference).2 :=
      .forgetHeartbeat reference
    have hforget := Protocol.forgetHeartbeat_cases d.state.protocol reference
    generalize d.state.protocol.forgetHeartbeat reference = forgotten at hm hforget ⊢
    rcases hforget with ⟨hp, rfl⟩ | rfl
    · exact .settle (moved_of_move hm) hp rfl (.inr ⟨rfl, nofun⟩) (.inr ⟨rfl, nofun⟩)
    · exact .of_tables (moved_of_move hm) rfl (fun _ _ hr => hr) fun _ hr => hr

/-- A cancelled leave keeps its reference: only nobody waits for the answer any more. -/
theorem minds_cancelLeave (d : Driver) (id : RequestId) : d.Minds (d.cancelLeave id) := by
  rcases cancelLeave_cases d id with hcancel | ⟨reference, leave, hleave, -, hcancel⟩
  · rw [hcancel]
    exact .refl d
  · rw [hcancel]
    refine .of_tables (moved_of_eq rfl) rfl (fun _ _ hr => hr) fun r hr => ?_
    rcases Std.ExtTreeMap.mem_insert.mp hr with he | hr
    · rw [← Std.LawfulEqOrd.eq_of_compare he]
      exact Table.mem_of_lookup hleave
    · exact hr

/-- A cancellation looks for its request in every place, and only a join can end an attempt. -/
theorem minds_cancel (hu : ∀ t, d.EndsAttempt id t → d.Unawaited t) : d.Minds (d.cancel id) := by
  cases d.cancel_found id with
  | join topic channel hr hm hcancel =>
    rw [hcancel]
    exact minds_cancelJoin fun he hj => hu topic ⟨channel, hr, hm, he, hj⟩
  | unsent topic channel hr hm hcancel =>
    rw [hcancel]
    exact .of_eq (cancelUnsent_inFlight ..)
  | pending hj hq hcancel =>
    rw [hcancel]
    exact ((minds_cancelCall d id).trans (minds_cancelPing ..)).trans (minds_cancelLeave ..)

end

/-! ### Steps

`Tidy` asks of a run that no call and no leave waits where a step discards a channel. Under it
`Answerable` is an invariant. -/

/-- The input discards the topic's channel, from `d₁`: the driver that has settled the
request whose deadline passed. -/
inductive Discards (d : Driver) : Input → Driver → Topic → Prop where
  | unregister (topic : Topic) : Discards d (.lifecycle (.unregister topic)) d topic
  | cancel (id : RequestId) (topic : Topic) (he : d.EndsAttempt id topic) :
    Discards d (.lifecycle (.cancel id)) d topic
  | rejoin (topic : Topic) (payloadId : UInt64) (value : Value) (channel : ChannelRecord)
      (hr : d.record topic = some channel) (ha : channel.activePayload = some payloadId)
      (hd : channel.desired = true) (hi : ¬ d.Active topic)
      (hs : d.state.protocol.channelState topic ≠ none) :
    Discards d (.payload topic payloadId (.ok value)) d topic
  | joinTimeout (timer : Timer OperationTimeout) (topic : Topic) (reference : Reference)
      (duration : Duration) (hv : timer.value = .join topic reference duration)
      (hp : d.state.pendingJoins[reference]? = some topic) :
    Discards d (.operationTimeout timer) d topic
  | leaveTimeout (timer : Timer OperationTimeout) (topic : Topic) (reference : Reference)
      (duration : Duration) (hv : timer.value = .leave topic reference duration)
      (hp : reference ∈ d.state.pendingLeaves) :
    Discards d (.operationTimeout timer) (d.eraseLeave reference) topic

/-- No input discards a topic that a call or a leave still waits for. -/
def Tidy (d : Driver) (input : Input) : Prop :=
  ∀ d₁ topic, d.Discards input d₁ topic → d₁.Unawaited topic

section
variable {env : Env} {d d' : Driver} {topic : Topic} {input : Input} {r : Result}

theorem minds_settle (h : r.2 = none → d.Minds r.1) :
    (settle env r).Over ∨ d.Minds (settle env r) := by
  rcases r with ⟨d', _ | reason⟩
  · exact .inr (h rfl)
  · exact .inl (over_lost env d' reason)

/-- A payload that arrives for a topic with a channel left over discards that channel before it joins. -/
theorem minds_handlePayload {payloadId : UInt64} {result : Except String Value}
    (ht : d.Tidy (.payload topic payloadId result)) :
    d.Minds ((d.takePayload topic payloadId).handlePayload env topic payloadId result).1 := by
  have htake : d.Minds (d.takePayload topic payloadId) := .of_eq rfl
  cases payload_handled env (d.takePayload topic payloadId) topic payloadId result with
  | ignored h he =>
    rw [he]
    exact htake
  | late channel hr ha h he =>
    rw [he]
    exact htake.same rfl
  | failed message channel hp hr ha he =>
    rw [he]
    exact htake.same (by simp)
  | joined value channel d₁ hp hr ha hd hs hd₁ hs₁ he =>
    subst hp
    rw [he]
    have hdiscard : d.Minds d₁ := by
      rcases hd₁ with rfl | ⟨hknown, rfl⟩
      · exact htake
      · have hu := ht d topic (.rejoin topic payloadId value channel hr ha hd hs hknown)
        exact htake.discardChannel fun _ _ _ => hu.of_eq rfl
    exact (hdiscard.trans (minds_trackJoin d₁ hs₁)).same (sendFrame_inFlight ..)

/-- A deadline discards its topic's channel only where its join or leave is still under way. -/
theorem minds_operationTimeout {timer : Timer OperationTimeout}
    (ht : d.Tidy (.operationTimeout timer)) :
    d.Minds ((d.takeOperationTimeout timer).handleOperationTimeout env timer.value) := by
  have htables : ∀ d' : Driver, d'.state.protocol = d.state.protocol →
      d'.state.pendingCalls = d.state.pendingCalls →
      (∀ r : Reference, r ∈ d'.state.pendingLeaves → r ∈ d.state.pendingLeaves) → d.Minds d' :=
    fun d' hp hc hl => .of_tables (moved_of_eq hp) (by rw [hp]) (fun r call hr => by rwa [hc] at hr) hl
  cases hv : timer.value with
  | join topic reference duration =>
    have htake : d.Minds ((d.takeOperationTimeout timer).eraseJoin reference) :=
      htables _ rfl rfl fun _ hr => hr
    simp only [handleOperationTimeout]
    split
    · rename_i hpending
      have hu := ht d topic (.joinTimeout timer topic reference duration hv hpending)
      exact htake.joinTimedOut env ⟨hu.calls, hu.leaves⟩ duration
    · exact htake
  | leave topic reference duration =>
    simp only [handleOperationTimeout]
    split
    · exact htables _ rfl rfl fun _ hr => hr
    · rename_i pending hpending
      have hu := ht _ topic (.leaveTimeout timer topic reference duration hv
        (Table.mem_of_lookup hpending))
      have htake : d.Minds ((d.takeOperationTimeout timer).eraseLeave reference) :=
        htables _ rfl rfl fun _ hr => (Std.ExtTreeMap.mem_erase.mp hr).2
      exact htake.leaveTimedOut ⟨hu.calls, hu.leaves⟩ pending duration

/-- A message that leaves the connection up was decoded and received. -/
theorem minds_onMessage {message : WireMessage} (h : (d.onMessage env message).2 = none) :
    d.Minds (d.onMessage env message).1 := by
  obtain ⟨frame, event, p, report, due, -, hrec, -, he⟩ := onMessage_of_ok h
  have hrec : (d.emitAll [.telemetry report]).state.protocol.receive frame = (.ok event, p) := hrec
  have hreport : d.Minds (d.emitAll [.telemetry report]) := .of_eq rfl
  have hevent : d.Minds (((d.emitAll [.telemetry report]).setProtocol p).handleEvent env event).1 :=
    hreport.trans (minds_handleEvent hrec)
  rw [he]
  exact hevent.same rfl

/-- **A connected step keeps every call and leave answerable**, if it discards nothing that
one of them waits for. -/
theorem ConnectedStep.minds (hs : ConnectedStep env d input d') (ht : d.Tidy input) :
    d'.Over ∨ d.Minds d' := by
  cases hs with
  | lifecycle command =>
    cases command with
    | register topic => exact .inr (.of_eq (register_inFlight ..))
    | unregister topic => 
      exact minds_settle fun _ => minds_unregisterConnected env (ht d topic (.unregister topic))
    | cancel id => exact .inr (minds_cancel fun t he => ht d t (.cancel id t he))
  | command command => exact minds_settle fun _ => minds_handleConnectedCommand env d command
  | acknowledge => exact .inr (.of_eq rfl)
  | disconnect => exact .inl ⟨nofun, .inr ((settled_onDisconnect d .requested).of_eq rfl)⟩
  | close => exact .inl ⟨nofun, .inl rfl⟩
  | lost input hi reason => exact .inl (over_lost ..)
  | message message => exact minds_settle minds_onMessage
  | heartbeat => exact minds_settle fun _ => minds_handleHeartbeat env d
  | payload topic payloadId result hm => exact minds_settle fun _ => minds_handlePayload ht
  | rejoin timer hm =>
    have htake : d.Minds (d.takeRejoin timer) := .of_eq rfl
    exact .inr (htake.same (handleRejoin_inFlight ..))
  | operationTimeout timer hm => exact .inr (minds_operationTimeout ht)

theorem Settled.answerable (h : d.Settled) : d.Answerable :=
  ⟨fun r call hr => by simp [h.calls] at hr, fun r hr => by simp [h.leaves] at hr⟩

/-- Every run of tidy steps keeps the two sides together, until the driver is closed. -/
theorem reach_answerable (h : (driver env).Reach (fun d input => d.Tidy input) d)
    (hb : d.state.protocol.allocated < 2 ^ 64) : d.phase = .closed ∨ d.Answerable := by
  induction h with
  | start => exact .inr (settled_start env).answerable
  | @step d d' input hr ht hs ih =>
    have hb' := Nat.lt_of_le_of_lt (Moves.grows (step_moved hs)) hb
    have hn := reachable_numbered hr.reachable hb'
    cases stepped hs with
    | tick elapsed hi hd =>
      subst hd
      exact (ih hb').imp_right fun ha => ⟨ha.calls, ha.leaves⟩
    | dropped topic hi hd =>
      subst hd
      rw [((Apart.refl topic d).setStatus).phase]
      have hset : d.Minds (d.setStatus topic .closed) := .of_eq (setStatus_inFlight ..)
      exact (ih hb').imp_right (hset.answers hn hb)
    | offline hc ho hs =>
      have hsettled := ((reachable_settled hr.reachable).resolve_left hc).resolve_left ho
      exact .inr (hs.settled hsettled).answerable
    | connected hp hs =>
      rcases hs.minds ht with ho | hk
      · exact ho.settled.imp_right Settled.answerable
      · exact .inr (hk.answers hn hb ((ih hb').resolve_left (by rw [hp]; nofun)))

end

/-- **Every call and leave of a connected driver can still be answered**, in a run that
discards no topic that one of them waits for. -/
theorem calls_answerable (env : Env) (d : Driver)
    (h : (driver env).Reach (fun d input => d.Tidy input) d) (hp : d.phase = .connected)
    (hb : d.state.protocol.allocated < 2 ^ 64) :
    (∀ (r : Reference) (call : PendingCall), d.state.pendingCalls[r]? = some call →
      d.state.protocol.pending[r]? = some (.push call.topic call.event)) ∧
    ∀ (r : Reference) (leave : PendingLeave), d.state.pendingLeaves[r]? = some leave →
      ∃ topic, d.state.protocol.pending[r]? = some (.leave topic) := by
  have ha := (reach_answerable h hb).resolve_left (by rw [hp]; nofun)
  exact ⟨ha.calls, fun r leave hl => ha.leaves r (Table.mem_of_lookup hl)⟩

/-- Nothing is discarded by a command or a message, and nothing waits without calls and leaves. -/
def plainlyTidy (d : Driver) : Input → Bool
  | .command _ | .message _ => true
  | _ => d.state.pendingCalls.isEmpty && d.state.pendingLeaves.isEmpty

/-- What `plainlyTidy` computes suffices: commands and messages discard no channel, and else nothing
waits. -/
theorem tidy_of_plainly {d : Driver} {input : Input} (h : d.plainlyTidy input = true) :
    d.Tidy input := by
  intro d₁ topic hd
  have hempty : d.state.pendingCalls = ∅ ∧ d.state.pendingLeaves = ∅ := by
    cases hd <;> simpa [plainlyTidy] using h
  have htables : d₁.state.pendingCalls = ∅ ∧ d₁.state.pendingLeaves = ∅ := by
    cases hd with
    | leaveTimeout => exact ⟨hempty.1, by simp [eraseLeave, hempty.2]⟩
    | _ => exact hempty
  exact ⟨fun r call hr => by simp [htables.1] at hr, fun r hr => by simp [htables.2] at hr⟩

/-- A call of a joined channel. -/
theorem calls_answerable_sent :
    ∃ d : Driver, ∃ call : PendingCall, d.phase = .connected ∧ d.state.pendingCalls["2"]? = some call ∧
      d.state.protocol.pending["2"]? = some (.push call.topic call.event) := by
  obtain ⟨d, hr, hd⟩ := Machine.reach_of_guarded_run (driver (smallEnv [replyFrame "ok" "room" "1" "1"]))
    (fun (d : Driver) input (h : d.plainlyTidy input = true) => tidy_of_plainly h)
    (joining ++ [.frame (replyFrame "ok" "room" "1" "1"),
      .command (.call 2 "room" "shout" .emptyObject 0)])
    (fun d => d.phase = .connected ∧ d.state.protocol.allocated < 2 ^ 64 ∧
      d.state.pendingCalls["2"]?.isSome = true)
    (by decide +kernel)
  obtain ⟨hphase, hb, hsome⟩ := of_decide_eq_true hd
  obtain ⟨call, hcall⟩ := Option.isSome_iff_exists.mp hsome
  exact ⟨d, call, hphase, hcall, (calls_answerable _ d hr hphase hb).1 "2" call hcall⟩

/-- A call is left behind by a channel that fails and rejoins. -/
theorem call_left_behind :
    ¬ ∀ (env : Env) (d : Driver), (driver env).Reachable d → d.phase = .connected →
      ∀ (r : Reference) (call : PendingCall), d.state.pendingCalls[r]? = some call →
        d.state.protocol.pending[r]? = some (.push call.topic call.event) := by
  intro hall
  obtain ⟨d, hr, hd⟩ := Machine.reachable_of_run
    (driver (smallEnv [replyFrame "ok" "room" "1" "1", joinCrash]))
    (joining ++ [.frame (replyFrame "ok" "room" "1" "1"),
      .command (.call 2 "room" "shout" .emptyObject 0), .frame joinCrash, .tick 1,
      .rejoin ⟨1, "room"⟩, .payload "room" 2 (.ok (.object []))])
    (fun d => d.phase = .connected ∧ d.state.pendingCalls["2"]?.isSome = true ∧
      d.state.protocol.pending["2"]?.isNone = true)
    (by decide +kernel)
  obtain ⟨hphase, hsome, hnone⟩ := of_decide_eq_true hd
  obtain ⟨call, hcall⟩ := Option.isSome_iff_exists.mp hsome
  rw [hall _ d hr hphase "2" call hcall] at hnone
  cases hnone

end Driver
end PhoenixChannel.Client
