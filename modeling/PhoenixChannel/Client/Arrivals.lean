import PhoenixChannel.Client.Endings

/-! What frames, lifecycle commands and heartbeats keep of every topic. -/
namespace PhoenixChannel.Client
open PhoenixChannel.Runtime Library

namespace Driver

/-! ### Replies

A reply settles the request under its reference. What it says of the channel comes from the
protocol's event, so each kind of event has its own lemma. -/

section
variable {w f : Topic → Prop} {env : Env} {d : Driver} {topic : Topic} {reference : Reference}
  {response : Payload} {p : Protocol}

/-- The channel of a join that a reply settled. -/
theorem lookup_joinSettled {state : ChannelState} (hc : d.state.protocol.Coherent)
    (hp : d.state.protocol.pending[reference]? = some (.join topic))
    (he : p.channels = Protocol.setState d.state.protocol.channels topic state) :
    ∃ c : Channel, d.state.protocol.channels[topic]? = some c ∧
      p.channels[topic]? = some { c with state } := by
  obtain ⟨c, hc, -⟩ := hc.joins reference topic hp
  refine ⟨c, hc, ?_⟩
  rw [he, Protocol.lookup_setState, if_pos rfl, hc]
  rfl

/-- A settled request is not pending, so no topic's join is lost with it. -/
theorem kept_settleJoin {net : Option Topic} {d : Driver} {reference : Reference}
    (h : d.state.protocol.pending[reference]? = none) : Kept net none d (d.eraseJoin reference) :=
  kept_eraseJoin fun t _ hp => by
    rw [h] at hp
    cases hp

theorem kept_welcome (d : Driver) (topic : Topic) (reference : Reference) (response : Payload)
    (channel : ChannelRecord) (hp : d.state.protocol.pending[reference]? = none) :
    Kept (some topic) (some topic) d (d.welcome topic reference response channel) := by
  refine .trans ?_ ((kept_emitChannel ..).weaken (.inl rfl) (.inl rfl))
  refine .trans ?_ ((kept_emitAll ..).weaken (.inl rfl) (.inl rfl))
  refine .trans ?_ ((kept_setRecord ..).weaken (.inl rfl) (.inr rfl))
  exact (kept_settleJoin hp).weaken (.inr rfl) (.inl rfl)

theorem welcome_protocol (d : Driver) (topic : Topic) (reference : Reference) (response : Payload)
    (channel : ChannelRecord) :
    (d.welcome topic reference response channel).state.protocol = d.state.protocol := by
  rw [welcome, emitChannel_eq]
  rfl

theorem welcome_record (d : Driver) (topic : Topic) (reference : Reference) (response : Payload)
    (channel : ChannelRecord) :
    (d.welcome topic reference response channel).record topic = some channel.joined := by
  rw [welcome, emitChannel_eq, emitAll_record, emitAll_record, record_setRecord]

theorem welcome_connection (d : Driver) (topic : Topic) (reference : Reference) (response : Payload)
    (channel : ChannelRecord) :
    (d.welcome topic reference response channel).connection = d.connection := by
  rw [welcome, emitChannel_eq]
  rfl

/-- The reply ends the attempt and answers those who waited. A leave that was put off is sent now, under a
new deadline. -/
theorem sound_joined {frame : Frame}
    (hrec : d.state.protocol.receive frame = (.ok (.joined topic reference response), p))
    (hco : d.state.protocol.Coherent) :
    Sound w f d ((d.setProtocol p).onJoined env topic reference response).1 := by
  have hconf : Confined (some topic) none d (d.setProtocol p) := confined_receive hrec
  obtain ⟨hp, rfl⟩ := Protocol.receive_explains hrec
  set p' : Protocol := { d.state.protocol with
    channels := Protocol.setState d.state.protocol.channels topic .joined
    pending := d.state.protocol.pending.erase reference } with hp'
  obtain ⟨c, -, hc⟩ := lookup_joinSettled (p := p') hco hp rfl
  have hgone : p'.pending[reference]? = none := by
    show (d.state.protocol.pending.erase reference)[reference]? = none
    rw [Table.lookup_erase, if_pos rfl]
  have hidle : ∀ d' : Driver, d'.state.protocol = p' → d'.Tracked topic ∧ d'.Active topic := by
    intro d' hd'
    have hs : d'.state.protocol.channelState topic = some .joined := by
      rw [hd', Protocol.channelState, hc]
      rfl
    refine ⟨tracked_of_idle fun state h => ?_, by rw [Active, hs]; rfl⟩
    cases hs.symm.trans h
    decide
  cases hr : d.record topic with
  | none =>
    have hr' : (d.setProtocol p').record topic = none := hr
    rw [onJoined_of_none hr']
    refine Sound.confined ?_ (confined_pushed (flush_pushed ..))
    refine Sound.kept ?_ (moved_of_eq (by simp)) (kept_emitChannel ..)
    refine Confined.sound_of_own ((hconf.weaken (.inr rfl) (.inl rfl)).trans
      (((kept_settleJoin hgone).weaken (.inr rfl) (.inl rfl)).confined (moved_of_eq rfl)))
        fun _ _ => ?_
    have hnone : ((d.setProtocol p').eraseJoin reference).record topic = none := hr
    exact (quiescent_of_none hnone).steady fun _ => (hidle _ rfl).1
  | some channel =>
    have hr' : (d.setProtocol p').record topic = some channel := hr
    have hwelcome : Sound w f d ((d.setProtocol p').welcome topic reference response channel) := by
      refine Confined.sound_of_own ((hconf.weaken (.inr rfl) (.inl rfl)).trans
        ((kept_welcome _ topic reference response channel hgone).confined
          (moved_of_eq (welcome_protocol ..)))) fun _ _ => ?_
      obtain ⟨htrack, hactive⟩ := hidle _ (welcome_protocol (d.setProtocol p') topic reference response channel)
      exact
        { tracked := fun _ => htrack
          flagged := fun h channel' hc' => by
            cases (welcome_record ..).symm.trans hc'
            refine ⟨fun hs => absurd hs Bool.false_ne_true, fun id hid => ?_⟩
            rw [welcome_connection]
            exact (h channel hr).2 id hid
          wanted := fun _ _ _ => wanted_of_active hactive
          deferred := fun _ _ => deferred_of_undeferred (welcome_record ..) rfl }
    cases hpend : channel.deferredLeave with
    | none =>
      rw [onJoined_of_not_deferred hr' hpend]
      exact hwelcome.confined (confined_pushed (flush_pushed ..))
    | some pending =>
      rw [onJoined_of_deferred hr' hpend]
      refine hwelcome.trans (sound_sendLeave w f env { c with state := .joined } ?_ rfl)
        (fun _ h => h) fun _ h => h
      rw [welcome_protocol]
      exact hc

/-- A refusal ends the attempt. Where the channel is still wanted a rejoin is scheduled, and so the topic
has a timer again. -/
theorem sound_joinError {frame : Frame}
    (hrec : d.state.protocol.receive frame = (.ok (.joinError topic reference response), p))
    (hco : d.state.protocol.Coherent) :
    Sound w f d ((d.setProtocol p).onJoinError env topic reference response) := by
  have hconf : Confined (some topic) none d (d.setProtocol p) := confined_receive hrec
  obtain ⟨hp, rfl⟩ := Protocol.receive_explains hrec
  set p' : Protocol := { d.state.protocol with
    channels := Protocol.setState d.state.protocol.channels topic .errored
    pending := d.state.protocol.pending.erase reference } with hp'
  obtain ⟨c, -, hc⟩ := lookup_joinSettled (p := p') hco hp rfl
  have hgone : p'.pending[reference]? = none := by
    show (d.state.protocol.pending.erase reference)[reference]? = none
    rw [Table.lookup_erase, if_pos rfl]
  have hidle : ∀ d' : Driver, d'.state.protocol = p' → d'.Tracked topic := by
    intro d' hd'
    refine tracked_of_idle fun state h => ?_
    rw [hd', Protocol.channelState, hc] at h
    cases h
    simp
  have herase : Confined (some topic) (some topic) d ((d.setProtocol p').eraseJoin reference) :=
    (hconf.weaken (.inr rfl) (.inl rfl)).trans
      (((kept_settleJoin hgone).weaken (.inr rfl) (.inl rfl)).confined (moved_of_eq rfl))
  cases hr : d.record topic with
  | none =>
    have hr' : (d.setProtocol p').record topic = none := hr
    rw [onJoinError_of_none hr']
    refine Sound.kept ?_ (moved_of_eq (by simp)) (kept_emitChannel ..)
    refine herase.sound_of_own fun _ _ => ?_
    have hnone : ((d.setProtocol p').eraseJoin reference).record topic = none := hr
    exact (quiescent_of_none hnone).steady fun _ => hidle _ rfl
  | some channel =>
    have hr' : (d.setProtocol p').record topic = some channel := hr
    rw [onJoinError_of_some hr']
    set d' := ((((d.setProtocol p').eraseJoin reference).setRecord topic channel.refused).emitAll
      (refusals topic response channel)).emitChannel topic
        (.protocol (.joinError topic reference response)) with hd'
    have hrecord : d'.record topic = some channel.refused := by
      rw [hd', emitChannel_eq, emitAll_record, emitAll_record, record_setRecord]
    have hstate : d'.state.protocol = p' := by
      rw [hd', emitChannel_eq]
      rfl
    have hconn : d'.connection = d.connection := by
      rw [hd', emitChannel_eq]
      rfl
    have hk : Kept (some topic) (some topic) ((d.setProtocol p').eraseJoin reference)
        (d'.scheduleRejoin env topic) := by
      refine .trans ?_ ((kept_scheduleRejoin ..).weaken (.inl rfl) (.inr rfl))
      refine .trans ?_ ((kept_emitChannel ..).weaken (.inl rfl) (.inl rfl))
      refine .trans ?_ ((kept_emitAll ..).weaken (.inl rfl) (.inl rfl))
      exact (kept_setRecord ..).weaken (.inl rfl) (.inr rfl)
    have hm : ((d.setProtocol p').eraseJoin reference).Moved (d'.scheduleRejoin env topic) :=
      moved_of_eq (by rw [scheduleRejoin_protocol, hstate]; rfl)
    have hflag : d.Flagged topic → d'.Flagged topic := fun h channel' hc' => by
      cases hrecord.symm.trans hc'
      refine ⟨fun hs => ?_, fun id hid => ?_⟩
      · obtain ⟨timer, hm, hv⟩ := (h channel hr).1 hs
        exact ⟨timer, by rw [hconn]; exact hm, hv⟩
      · rw [hconn]
        exact (h channel hr).2 id hid
    refine (herase.trans (hk.confined hm)).sound_of_own fun _ _ => ?_
    exact
      { tracked := fun _ => (kept_scheduleRejoin env d' topic).tracked_of (hidle d' hstate)
        flagged := fun h => flagged_scheduleRejoin env (hflag h)
        wanted := fun _ h _ => wanted_scheduleRejoin env (hflag h)
        deferred := fun _ _ => deferred_scheduleRejoin env (deferred_of_undeferred hrecord rfl) }

/-- A topic whose leave is pending has no deferred leave: its channel is not joining. -/
theorem undeferred_of_leave (hco : d.state.protocol.Coherent)
    (hp : d.state.protocol.pending[reference]? = some (.leave topic))
    (h : d.DeferredWhileJoining topic) : d.Undeferred topic := by
  intro channel hr
  cases hl : channel.deferredLeave with
  | none => rfl
  | some pending =>
    obtain ⟨c, hc, hs⟩ := hco.leaves reference topic hp
    have hj := h channel hr (by rw [hl]; rfl)
    rw [Protocol.channelState, hc, Option.map_some] at hj
    rw [Option.some.inj hj] at hs
    simp at hs

/-- The leave is over, and where the channel is wanted again its payload is loaded. -/
theorem sound_left {frame : Frame}
    (hrec : d.state.protocol.receive frame = (.ok (.left topic reference response), p))
    (hco : d.state.protocol.Coherent) :
    Sound w f d ((d.setProtocol p).onLeft topic reference response) := by
  have hconf : Confined (some topic) none d (d.setProtocol p) := confined_receive hrec
  obtain ⟨hp, rfl⟩ := Protocol.receive_explains hrec
  set p' : Protocol := { d.state.protocol with
    channels := d.state.protocol.channels.erase topic
    pending := d.state.protocol.pending.erase reference } with hp'
  have hgone : p'.pending[reference]? = none := by
    show (d.state.protocol.pending.erase reference)[reference]? = none
    rw [Table.lookup_erase, if_pos rfl]
  have hidle : ∀ d' : Driver, d'.state.protocol = p' → d'.Tracked topic := by
    intro d' hd'
    refine tracked_of_idle fun state h => ?_
    rw [hd', Protocol.channelState] at h
    simp [hp'] at h
  have hsettle : Confined (some topic) (some topic) d
      ((d.setProtocol p').leaveSettled reference response) := by
    refine (hconf.weaken (.inr rfl) (.inl rfl)).trans (Kept.confined (moved_of_eq rfl) ?_)
    refine .trans ((kept_eraseLeave fun t _ hl => ?_).weaken (.inr rfl) (.inl rfl))
      ((kept_emitAll ..).weaken (.inl rfl) (.inl rfl))
    cases hgone.symm.trans hl
  set d₁ := (d.setProtocol p').leaveSettled reference response with hd₁
  cases hr : d.record topic with
  | none =>
    have hr' : (d.setProtocol p').record topic = none := hr
    rw [onLeft_of_none hr']
    refine Sound.kept ?_ (moved_of_eq (by simp)) (kept_emitChannel ..)
    refine hsettle.sound_of_own fun _ _ => ?_
    have hnone : d₁.record topic = none := hr
    exact (quiescent_of_none hnone).steady fun _ => hidle _ rfl
  | some channel =>
    have hr' : (d.setProtocol p').record topic = some channel := hr
    have hr₁ : d₁.record topic = some channel := hr
    have hflag : d.Flagged topic → d₁.Flagged topic :=
      flagged_congr rfl (List.Subset.refl _) (List.Subset.refl _)
    have hundef : d.DeferredWhileJoining topic → channel.deferredLeave = none := fun h =>
      undeferred_of_leave hco hp h channel hr
    rw [onLeft_of_some hr']
    by_cases hd : channel.desired = true
    · rw [if_pos hd]
      set d₂ := (d₁.setRecord topic { channel with status := .waitingToJoin }).emitChannel topic
        (.protocol (.left topic reference response)) with hd₂
      have hk : Kept none (some topic) d₁ d₂ :=
        (kept_setRecord ..).trans ((kept_emitChannel ..).weaken (.inl rfl) (.inl rfl))
      have hstate : d₂.state = (d₁.setRecord topic { channel with status := .waitingToJoin }).state :=
        emitChannel_state ..
      have hrecord : d₂.record topic = some { channel with status := .waitingToJoin } := by
        rw [record, hstate]
        exact record_setRecord ..
      have hconn : d₂.connection = d.connection := by
        rw [hd₂, emitChannel_eq]
        rfl
      have hm : d₁.Moved (d₂.loadPayload topic) :=
        moved_of_eq (by rw [loadPayload_protocol, hstate]; rfl)
      have hflag₂ : d.Flagged topic → d₂.Flagged topic := fun h channel' hc' => by
        cases hrecord.symm.trans hc'
        refine ⟨fun hs => ?_, fun id hid => ?_⟩
        · obtain ⟨timer, hm, hv⟩ := (h channel hr).1 hs
          exact ⟨timer, by rw [hconn]; exact hm, hv⟩
        · rw [hconn]
          exact (h channel hr).2 id hid
      refine (hsettle.trans (((hk.trans (kept_loadPayload d₂ topic)).weaken (.inl rfl)
        (.inr rfl)).confined hm)).sound_of_own fun _ _ => ?_
      exact
        { tracked := fun _ =>
            (kept_loadPayload d₂ topic).tracked_of (hidle d₂ (by rw [hstate]; rfl))
          flagged := fun h => flagged_loadPayload (hflag₂ h)
          wanted := fun _ _ _ => wanted_loadPayload _ topic
          deferred := fun _ h =>
            deferred_loadPayload (deferred_of_undeferred hrecord (hundef h)) }
    · rw [if_neg hd]
      refine Sound.kept ?_ (moved_of_eq (by simp)) (kept_emitChannel ..)
      have hk : Kept (some topic) (some topic) d₁ (d₁.setRecord topic { channel with status := .left }) :=
        (kept_setRecord ..).weaken (.inl rfl) (.inr rfl)
      refine (hsettle.trans (hk.confined (moved_of_eq (by rfl)))).sound_of_own fun _ _ => ?_
      exact
        { tracked := fun _ => hidle _ rfl
          flagged := fun h => flagged_setRecord (hflag h) hr₁ id (.inr rfl)
          wanted := fun _ _ _ => wanted_of_undesired (record_setRecord ..) (by simpa using hd)
          deferred := fun _ h => deferred_of_undeferred (record_setRecord ..) (hundef h) }

/-- The reply to a push changes nothing but the table of calls. -/
theorem sound_reply {event : String} {status : ReplyStatus} {frame : Frame}
    (hrec : d.state.protocol.receive frame =
      (.ok (.reply topic event reference status response), p)) :
    Sound w f d ((d.setProtocol p).onReply topic event reference status response) := by
  have hconf : Confined none none d (d.setProtocol p) := confined_receive hrec
  cases hc : (d.setProtocol p).state.pendingCalls[reference]? with
  | none =>
    rw [onReply_of_none hc]
    exact hconf.sound.kept (moved_of_eq (by simp)) (kept_emitChannel ..)
  | some call =>
    rw [onReply_of_some hc]
    refine Sound.kept ?_ (moved_of_eq (by simp)) (kept_emitChannel ..)
    refine hconf.sound.kept (moved_of_eq rfl) ?_
    exact .of_record rfl rfl rfl rfl rfl (List.Subset.refl _) (List.Subset.refl _) fun _ _ => rfl

/-- An acknowledgement changes nothing but the table of pings. -/
theorem sound_heartbeatAck {status : ReplyStatus} {frame : Frame}
    (hrec : d.state.protocol.receive frame = (.ok (.heartbeatAck reference status), p)) :
    Sound w f d ((d.setProtocol p).onHeartbeatAck reference) := by
  have hconf : Confined none none d (d.setProtocol p) := confined_receive hrec
  refine hconf.sound.kept (moved_of_eq (by simp)) ?_
  unfold onHeartbeatAck
  split
  · exact .of_record rfl rfl rfl rfl rfl (List.Subset.refl _) (List.Subset.refl _) fun _ _ => rfl
  · split
    · exact .refl ..
    · exact .of_record rfl rfl rfl rfl rfl (List.Subset.refl _) (List.Subset.refl _) fun _ _ => rfl

/-! ### Server events

An error and a close take a channel's requests away with its join. -/

variable {payload : Payload}

/-- A known channel that is down has no request in flight that the driver waits for. -/
theorem tracked_of_down {state : ChannelState} (hs : state = .errored ∨ state = .closed)
    (he : d.state.protocol.channels = Protocol.setState p.channels topic state) : d.Tracked topic := by
  refine tracked_of_idle fun state' h => ?_
  rw [Protocol.channelState, he, Protocol.lookup_setState, if_pos rfl] at h
  cases hc : p.channels[topic]? with
  | none =>
    rw [hc] at h
    cases h
  | some c =>
    rw [hc] at h
    cases h
    rcases hs with rfl | rfl <;> simp

/-- A channel that fails while it is wanted is rejoined, so there is a timer for it; a leave that was put
off must not be left behind. -/
theorem sound_channelError {frame : Frame}
    (hrec : d.state.protocol.receive frame = (.ok (.channelError topic payload), p))
    (hf : f topic → d.Undeferred topic) :
    Sound w f d ((d.setProtocol p).onChannelError env topic payload) := by
  have hconf : Confined (some topic) none d (d.setProtocol p) := confined_receive hrec
  obtain ⟨-, -, -, rfl⟩ := Protocol.receive_explains hrec
  set p' : Protocol := { d.state.protocol with
    channels := Protocol.setState d.state.protocol.channels topic .errored } with hp'
  have hforget : Confined (some topic) (some topic) d ((d.setProtocol p').forgetJoins topic) :=
    (hconf.weaken (.inr rfl) (.inl rfl)).trans
      (((kept_forgetJoins ..).weaken (.inr rfl) (.inl rfl)).confined (moved_of_eq rfl))
  set d₁ := (((d.setProtocol p').forgetJoins topic).setStatus topic .errored).emitChannel topic
    (.protocol (.channelError topic payload)) with hd₁
  have hquiet : Kept none none ((d.setProtocol p').forgetJoins topic) d₁ :=
    (kept_setStatus ..).trans (kept_emitChannel ..)
  have hm : ((d.setProtocol p').forgetJoins topic).Moved (d₁.scheduleRejoin env topic) :=
    moved_of_eq (by simp [hd₁])
  have hk : Kept (some topic) (some topic) ((d.setProtocol p').forgetJoins topic)
      (d₁.scheduleRejoin env topic) :=
    (hquiet.weaken (.inl rfl) (.inl rfl)).trans
      ((kept_scheduleRejoin ..).weaken (.inl rfl) (.inr rfl))
  have hflag : d.Flagged topic → d₁.Flagged topic := fun h =>
    hquiet.flagged nofun nofun (flagged_congr rfl (List.Subset.refl _) (List.Subset.refl _) h)
  have hundef : d.Undeferred topic → d₁.Undeferred topic := fun h => hquiet.undeferred nofun h
  refine (hforget.trans (hk.confined hm)).sound_of_own fun _ _ => ?_
  exact
    { tracked := fun _ => tracked_of_down (.inl rfl) (p := d.state.protocol)
        (by rw [scheduleRejoin_protocol, hd₁]; simp [hp'])
      flagged := fun h => flagged_scheduleRejoin env (hflag h)
      wanted := fun _ h _ => wanted_scheduleRejoin env (hflag h)
      deferred := fun h _ => deferred_scheduleRejoin env (hundef (hf h)).deferred }

/-- A channel that the server closes is not wanted any more, and none of its operations goes on. -/
theorem sound_channelClosed {frame : Frame}
    (hrec : d.state.protocol.receive frame = (.ok (.channelClosed topic payload), p)) :
    Sound w f d ((d.setProtocol p).onChannelClosed topic payload) := by
  have hconf : Confined (some topic) none d (d.setProtocol p) := confined_receive hrec
  obtain ⟨-, -, -, rfl⟩ := Protocol.receive_explains hrec
  set p' : Protocol := { d.state.protocol with
    channels := Protocol.setState d.state.protocol.channels topic .closed } with hp'
  have hforget : Confined (some topic) (some topic) d ((d.setProtocol p').forgetJoins topic) :=
    (hconf.weaken (.inr rfl) (.inl rfl)).trans
      (((kept_forgetJoins ..).weaken (.inr rfl) (.inl rfl)).confined (moved_of_eq rfl))
  have htrack : ∀ d' : Driver, d'.state.protocol = p' → d'.Tracked topic := fun d' hd' =>
    tracked_of_down (.inr rfl) (p := d.state.protocol) (by rw [hd'])
  cases hr : d.record topic with
  | none =>
    have hr' : (d.setProtocol p').record topic = none := hr
    rw [onChannelClosed_of_none hr']
    refine Sound.kept ?_ (moved_of_eq (by simp)) (kept_emitChannel ..)
    refine hforget.sound_of_own fun _ _ => ?_
    have hnone : ((d.setProtocol p').forgetJoins topic).record topic = none := hr
    exact (quiescent_of_none hnone).steady fun _ => htrack _ rfl
  | some channel =>
    have hr' : ((d.setProtocol p').forgetJoins topic).record topic = some channel := hr
    have he : (d.setProtocol p').onChannelClosed topic payload =
        ((((d.setProtocol p').forgetJoins topic).setRecord topic
          { channel with desired := false, status := .closed }).emitChannel topic
            (.protocol (.channelClosed topic payload))).stopChannel topic := by
      simp only [onChannelClosed, hr']
    rw [he]
    have hk : Kept (some topic) (some topic) ((d.setProtocol p').forgetJoins topic)
        (((((d.setProtocol p').forgetJoins topic).setRecord topic
          { channel with desired := false, status := .closed }).emitChannel topic
            (.protocol (.channelClosed topic payload))).stopChannel topic) := by
      refine .trans ?_ ((kept_stopChannel ..).weaken (.inl rfl) (.inr rfl))
      refine .trans ?_ ((kept_emitChannel ..).weaken (.inl rfl) (.inl rfl))
      exact (kept_setRecord ..).weaken (.inl rfl) (.inr rfl)
    refine (hforget.trans (hk.confined (moved_of_eq (by simp)))).sound_of_own fun _ _ => ?_
    exact (quiescent_stopChannel ..).steady fun _ => htrack _ (by simp)

end

/-! ### Whole frames

The cases above, put together: a frame is about one topic and leaves that one as it has to be. -/

section
variable {w f : Topic → Prop} {env : Env} {d : Driver}

/-- A protocol event keeps every topic steady; an error needs that no leave was deferred. -/
theorem sound_handleEvent {frame : Frame} {event : ProtocolEvent} {p : Protocol}
    (hrec : d.state.protocol.receive frame = (.ok event, p)) (hco : d.state.protocol.Coherent)
    (hf : ∀ topic payload, event = .channelError topic payload → f topic → d.Undeferred topic) :
    Sound w f d ((d.setProtocol p).handleEvent env event).1 := by
  cases event with
  | joined topic reference response => exact sound_joined hrec hco
  | joinError topic reference response => exact sound_joinError hrec hco
  | reply topic name reference status response => exact sound_reply hrec
  | left topic reference response => exact sound_left hrec hco
  | heartbeatAck reference status => exact sound_heartbeatAck hrec
  | channelError topic payload => exact sound_channelError hrec (hf topic payload rfl)
  | channelClosed topic payload => exact sound_channelClosed hrec
  | message frame | staleMessage frame | unmatchedReply frame =>
    have hconf : Confined none none d (d.setProtocol p) := confined_receive hrec
    exact hconf.sound.kept (moved_of_eq (by simp [handleEvent])) (kept_emitChannel ..)
  | requestInterrupted topic name reference => cases Protocol.receive_explains hrec

end

/-! ### Cancellation

A cancellation can take away the last reason for a join that is in progress. -/

/-- The cancelled request is the last waiter of a channel that never joined. -/
def EndsAttempt (d : Driver) (id : RequestId) (t : Topic) : Prop :=
  ∃ channel : ChannelRecord, d.record t = some channel ∧ id ∈ channel.joinWaiters ∧
    channel.joinWaiters.erase id = [] ∧ channel.everJoined = false

section
variable {w f : Topic → Prop} {env : Env} {d : Driver} {topic : Topic} {channel : ChannelRecord}
  {id : RequestId}

/-- The attempt goes on as long as somebody waits for it or the channel has been joined before. -/
theorem sound_cancelJoin (hr : d.record topic = some channel) (hm : id ∈ channel.joinWaiters)
    (hf : f topic → d.EndsAttempt id topic → d.Undeferred topic) :
    Sound w f d (d.cancelJoin topic channel id) := by
  by_cases h : channel.joinWaiters.erase id = [] ∧ channel.everJoined = false
  · obtain ⟨he, hj⟩ := h
    rw [cancelJoin_of_last he hj]
    have hk : Kept (some topic) (some topic) d
        ((((d.setRecord topic (channel.abandoned id)).emitAll [.cancelled .join id]).forgetJoins
          topic).discardChannel topic) := by
      refine .trans ?_ ((kept_discardChannel ..).weaken (.inr rfl) (.inl rfl))
      refine .trans ?_ ((kept_forgetJoins ..).weaken (.inr rfl) (.inl rfl))
      refine .trans ?_ ((kept_emitAll ..).weaken (.inl rfl) (.inl rfl))
      exact (kept_setRecord ..).weaken (.inl rfl) (.inr rfl)
    refine (hk.confined (moved_of_move (.discardChannel topic))).sound_of_own fun _ _ => ?_
    have hr' := record_setRecord d topic (channel.abandoned id)
    exact
      { tracked := fun _ => tracked_of_discarded (d := d) rfl
        flagged := fun h => flagged_of_loaded h hr hr' (fun h => h) rfl (List.Subset.refl _)
        wanted := fun _ _ _ => wanted_of_undesired hr' rfl
        deferred := fun h _ =>
          deferred_of_undeferred hr' (hf h ⟨channel, hr, hm, he, hj⟩ channel hr) }
  · rw [cancelJoin_of_others h]
    have hset : Sound w f d
        (d.setRecord topic { channel with joinWaiters := channel.joinWaiters.erase id }) :=
      Kept.sound (moved_of_eq rfl) (kept_setRecord_flags _ hr (by rfl))
    exact hset.emitAll

theorem sound_cancelCall (d : Driver) (id : RequestId) : Sound w f d (d.cancelCall id) := by
  rcases cancelCall_cases d id with hcancel | ⟨reference, call, -, -, hcancel⟩
  · rw [hcancel]
    exact .refl ..
  · rw [hcancel]
    refine Sound.confined ?_ (confined_forgetPush (Driver.emitAll _ _) reference)
    refine Sound.emitAll (Kept.sound (moved_of_eq (by rfl)) ?_)
    exact .of_record rfl rfl rfl rfl rfl (List.Subset.refl _) (List.Subset.refl _) fun _ _ => rfl

theorem sound_cancelPing (d : Driver) (id : RequestId) : Sound w f d (d.cancelPing id) := by
  rcases cancelPing_cases d id with hcancel | ⟨reference, ping, -, -, hcancel⟩
  · rw [hcancel]
    exact .refl ..
  · rw [hcancel]
    refine Sound.confined ?_ (confined_forgetHeartbeat (Driver.emitAll _ _) reference)
    refine Sound.emitAll (Kept.sound (moved_of_eq (by rfl)) ?_)
    exact .of_record rfl rfl rfl rfl rfl (List.Subset.refl _) (List.Subset.refl _) fun _ _ => rfl

/-- A cancelled leave stays pending. -/
theorem sound_cancelLeave (d : Driver) (id : RequestId) : Sound w f d (d.cancelLeave id) := by
  rcases cancelLeave_cases d id with hcancel | ⟨reference, leave, -, -, hcancel⟩
  · rw [hcancel]
    exact .refl ..
  · rw [hcancel]
    refine Sound.emitAll (Kept.sound (moved_of_eq (by rfl)) ?_)
    exact
      { Kept.refl none none d with
        leaves := fun t r _ _ hl => Std.ExtTreeMap.mem_insert.mpr (.inr hl)
        owned := fun ho => ho }

/-- Calls, casts and pings are no work on a topic; a leave goes on without its caller. -/
theorem sound_cancel (d : Driver) (id : RequestId)
    (hf : ∀ t, f t → d.EndsAttempt id t → d.Undeferred t) : Sound w f d (d.cancel id) := by
  cases d.cancel_found id with
  | join topic channel hr hm he =>
    rw [he]
    exact sound_cancelJoin hr hm (hf topic)
  | unsent topic channel hr hm he =>
    rw [he]
    exact (kept_cancelUnsent hr id).sound (moved_of_eq (by simp))
  | pending hj hq he =>
    rw [he]
    refine ((sound_cancelCall d id).trans (sound_cancelPing ..) (fun _ h => h) fun _ h => h).trans
      (sound_cancelLeave ..) (fun _ h => h) fun _ h => h

end

/-! ### Lifecycle commands and heartbeats

What is left of a connected step: registering, unregistering and cancelling, by the lemmas above,
and the heartbeat, which is about no channel. -/

section
variable {w f : Topic → Prop} (env : Env) (d : Driver)

theorem sound_handleConnectedLifecycle (command : LifecycleCommand)
    (hf : ∀ id t, command = .cancel id → f t → d.EndsAttempt id t → d.Undeferred t) :
    Sound w f d (d.handleConnectedLifecycle env command).1 := by
  cases command with
  | register topic => exact sound_register ..
  | unregister topic => exact sound_unregisterConnected ..
  | cancel id => exact sound_cancel d id fun t => hf id t rfl

/-- The due time of the next heartbeat concerns no topic. -/
theorem sound_heartbeatDue {d d' : Driver} (h : Sound w f d d') (due : Duration) :
    Sound w f d { d' with connection := { d'.connection with heartbeatDue := due } } :=
  h.kept (moved_of_eq rfl)
    (.of_record rfl rfl rfl rfl rfl (List.Subset.refl _) (List.Subset.refl _) fun _ _ => rfl)

/-- A heartbeat is no work on a topic. -/
theorem sound_handleHeartbeat : Sound w f d (d.handleHeartbeat env).1 := by
  by_cases h : d.connection.heartbeatReference.isSome = true
  · rw [handleHeartbeat_of_some h]
    exact .refl ..
  · rw [handleHeartbeat_of_none h]
    have hs : Sound w f d (d.trackHeartbeat.sendFrame env []
        ⟨none, some d.state.protocol.nextText, "phoenix", "heartbeat", .emptyObject⟩).1 :=
      (confined_trackHeartbeat d).sound.sendFrame ..
    rcases hsend : d.trackHeartbeat.sendFrame env []
      ⟨none, some d.state.protocol.nextText, "phoenix", "heartbeat", .emptyObject⟩ with ⟨d', _ | reason⟩
    · rw [hsend] at hs
      exact sound_heartbeatDue hs _
    · rw [hsend] at hs
      exact hs

/-- A message; its frame needs what its event needs. -/
theorem sound_handleIncoming (message : WireMessage) (hco : d.state.protocol.Coherent)
    (hf : ∀ frame topic payload, env.codec.decode message = .ok frame →
      (d.state.protocol.receive frame).1 = .ok (.channelError topic payload) → f topic →
        d.Undeferred topic)
    (hok : (d.handleIncoming env message).2 = none) :
    Sound w f d (d.handleIncoming env message).1 := by
  cases hd : env.codec.decode message with
  | error e =>
    simp only [handleIncoming, hd] at hok
    cases hok
  | ok frame =>
    obtain ⟨report, hi⟩ := handleIncoming_of_decoded (d := d) hd
    rw [hi] at hok ⊢
    have hk : Sound w f d (d.emitAll [.telemetry report]) :=
      (kept_emitAll ..).sound (moved_of_eq rfl)
    rcases hrec : d.state.protocol.receive frame with ⟨e | event, p⟩
    · simp only [handleFrame, emitAll_state, hrec] at hok
      cases hok
    · simp only [handleFrame, emitAll_state, hrec]
      refine hk.trans (?_ : Sound w f _ _) (fun _ h => h) fun _ h => h
      refine sound_handleEvent (d := d.emitAll [.telemetry report]) hrec hco fun topic payload he => ?_
      have := hf frame topic payload hd (by rw [hrec, he])
      exact this

/-- A message that leaves the connection up was decoded and received; what it means decides. -/
theorem sound_onMessage (message : WireMessage) (hco : d.state.protocol.Coherent)
    (hf : ∀ frame topic payload, env.codec.decode message = .ok frame →
      (d.state.protocol.receive frame).1 = .ok (.channelError topic payload) → f topic →
        d.Undeferred topic)
    (hok : (d.onMessage env message).2 = none) : Sound w f d (d.onMessage env message).1 := by
  unfold onMessage at hok ⊢
  dsimp only at hok ⊢
  have hs := sound_handleIncoming (w := w) env d message hco hf
  rcases hi : d.handleIncoming env message with ⟨d', _ | reason⟩
  · rw [hi] at hs
    have hs := hs rfl
    simp only [Result.andThen]
    split
    · exact sound_heartbeatDue hs _
    · exact hs
  · rw [hi] at hok
    cases hok

end

end Driver
end PhoenixChannel.Client
