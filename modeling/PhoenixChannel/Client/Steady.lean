import PhoenixChannel.Client.Tracking

/-! What each handler keeps of its own topic. -/
namespace PhoenixChannel.Client
open PhoenixChannel.Runtime Library

namespace Driver

/-! ### States of a topic that need nothing

A topic without a record, or without a wish and a channel, has nothing to be in progress. -/

section
variable {d : Driver} {t : Topic} {channel : ChannelRecord}

theorem tracked_of_idle (h : ∀ state, d.state.protocol.channelState t = some state →
    state ≠ .joining ∧ state ≠ .leaving) : d.Tracked t := by
  constructor <;>
  · intro c hc hs
    have hstate : d.state.protocol.channelState t = some c.state := by
      rw [Protocol.channelState, hc]
      rfl
    obtain ⟨hj, hl⟩ := h c.state hstate
    first
      | exact absurd hs hj
      | exact absurd hs hl

theorem flagged_of_none (h : d.record t = none) : d.Flagged t := by
  intro channel hc
  cases h.symm.trans hc

theorem wanted_of_none (h : d.record t = none) : d.Wanted t := by
  intro channel hc
  cases h.symm.trans hc

theorem deferred_of_none (h : d.record t = none) : d.DeferredWhileJoining t := by
  intro channel hc
  cases h.symm.trans hc

theorem wanted_of_undesired (h : d.record t = some channel) (hd : channel.desired = false) :
    d.Wanted t := by
  intro channel' hc hd'
  cases h.symm.trans hc
  cases hd.symm.trans hd'

theorem wanted_of_active (h : d.Active t) : d.Wanted t := fun _ _ _ => .inl h

theorem deferred_of_undeferred (h : d.record t = some channel)
    (hd : channel.deferredLeave = none) : d.DeferredWhileJoining t := by
  intro channel' hc hd'
  cases h.symm.trans hc
  rw [hd] at hd'
  cases hd'

end

/-! ### Loads and rejoin timers

A load or a timer that starts is what a flag stands for. -/

section
variable (env : Env) (d : Driver) (t : Topic)

theorem wanted_loadPayload : (d.loadPayload t).Wanted t := by
  rcases loadPayload_cases d t with ⟨hw, he⟩ | ⟨channel, -, -, -, -, he⟩
  · rw [he]
    exact fun channel hr hd => (hw channel hr hd).elim (fun ha => .inr (.inl ha)) .inl
  · intro channel' hc _
    rw [he, emitAll_record, trackLoad_record, if_pos rfl] at hc
    cases hc
    exact .inr (.inl rfl)

theorem flagged_loadPayload {d : Driver} {t : Topic} (h : d.Flagged t) :
    (d.loadPayload t).Flagged t := by
  rcases loadPayload_cases d t with ⟨-, he⟩ | ⟨channel, hr, -, -, -, he⟩
  · rw [he]
    exact h
  · intro channel' hc
    rw [he, emitAll_record, trackLoad_record, if_pos rfl] at hc
    cases hc
    refine ⟨fun hs => (kept_loadPayload d t).rejoining nofun ((h channel hr).1 hs), fun id ha => ?_⟩
    cases ha
    rw [he]
    exact List.mem_append_right _ (List.mem_singleton.mpr rfl)

theorem deferred_loadPayload {d : Driver} {t : Topic} (h : d.DeferredWhileJoining t) :
    (d.loadPayload t).DeferredWhileJoining t := by
  rcases loadPayload_cases d t with ⟨-, he⟩ | ⟨channel, hr, -, -, -, he⟩
  · rw [he]
    exact h
  · intro channel' hc hd
    rw [he, emitAll_record, trackLoad_record, if_pos rfl] at hc
    cases hc
    rw [(kept_loadPayload d t).channelState_eq]
    exact h channel hr hd

/-- A rejoin that is scheduled has a timer. -/
theorem rejoining_trackRejoin (channel : ChannelRecord) : (d.trackRejoin env t channel).Rejoining t :=
  ⟨_, List.mem_append_right _ (List.mem_singleton.mpr rfl), rfl⟩

theorem wanted_scheduleRejoin {d : Driver} {t : Topic} (h : d.Flagged t) :
    (d.scheduleRejoin env t).Wanted t := by
  rcases scheduleRejoin_cases env d t with ⟨hs, he⟩ | ⟨channel, -, -, -, he⟩
  · rw [he]
    intro channel hc hd
    exact .inr (.inr ((h channel hc).1 (hs channel hc hd)))
  · rw [he]
    exact fun _ _ _ => .inr (.inr (rejoining_trackRejoin ..))

theorem flagged_scheduleRejoin {d : Driver} {t : Topic} (h : d.Flagged t) :
    (d.scheduleRejoin env t).Flagged t := by
  rcases scheduleRejoin_cases env d t with ⟨-, he⟩ | ⟨channel, hr, -, -, he⟩
  · rw [he]
    exact h
  · rw [he]
    intro channel' hc
    rw [trackRejoin_record, if_pos rfl] at hc
    cases hc
    exact ⟨fun _ => rejoining_trackRejoin .., (h channel hr).2⟩

theorem deferred_scheduleRejoin {d : Driver} {t : Topic} (h : d.DeferredWhileJoining t) :
    (d.scheduleRejoin env t).DeferredWhileJoining t := by
  rcases scheduleRejoin_cases env d t with ⟨-, he⟩ | ⟨channel, hr, -, -, he⟩
  · rw [he]
    exact h
  · intro channel' hc hd
    rw [he, trackRejoin_record, if_pos rfl] at hc
    cases hc
    rw [(kept_scheduleRejoin env d t).channelState_eq]
    exact h channel hr hd

end

/-! ### Records

Writing the record of a topic matters through its flags only. -/

section
variable {d d' : Driver} {t : Topic} {channel channel' : ChannelRecord}

/-- A record written with flags that need no more than before. -/
theorem flagged_setRecord (h : d.Flagged t) (hr : d.record t = some channel)
    (hs : channel'.rejoinScheduled = true → channel.rejoinScheduled = true)
    (ha : channel'.activePayload = none ∨ channel'.activePayload = channel.activePayload) :
    (d.setRecord t channel').Flagged t := by
  intro channel'' hc
  cases (record_setRecord d t channel').symm.trans hc
  obtain ⟨hsch, hpl⟩ := h channel hr
  refine ⟨fun hs' => hsch (hs hs'), fun id hid => ?_⟩
  rcases ha with ha | ha
  · rw [ha] at hid
    cases hid
  · exact hpl id (by rw [← ha]; exact hid)

theorem flagged_congr (hrec : d'.record t = d.record t)
    (hr : d.connection.rejoins ⊆ d'.connection.rejoins)
    (hp : d.connection.payloads ⊆ d'.connection.payloads) (h : d.Flagged t) : d'.Flagged t := by
  intro channel hc
  obtain ⟨hs, ha⟩ := h channel (by rw [← hrec, hc])
  refine ⟨fun hsch => ?_, fun id hid => hp (ha id hid)⟩
  obtain ⟨timer, hm, hv⟩ := hs hsch
  exact ⟨timer, hr hm, hv⟩

/-- A record without a load, and with a timer only where it had one. -/
theorem flagged_of_loaded (h : d.Flagged t) (hr : d.record t = some channel)
    (hr' : d'.record t = some channel')
    (hs : channel'.rejoinScheduled = true → channel.rejoinScheduled = true)
    (ha : channel'.activePayload = none) (hrj : d.connection.rejoins ⊆ d'.connection.rejoins) :
    d'.Flagged t := by
  intro channel'' hc
  cases hr'.symm.trans hc
  refine ⟨fun hs' => ?_, fun id hid => ?_⟩
  · obtain ⟨timer, hm, hv⟩ := (h channel hr).1 (hs hs')
    exact ⟨timer, hrj hm, hv⟩
  · rw [ha] at hid
    cases hid

theorem deferred_setRecord (h : d.DeferredWhileJoining t) (hr : d.record t = some channel)
    (hd : channel'.deferredLeave = none ∨ channel'.deferredLeave = channel.deferredLeave) :
    (d.setRecord t channel').DeferredWhileJoining t := by
  intro channel'' hc hs
  cases (record_setRecord d t channel').symm.trans hc
  rcases hd with hd | hd
  · rw [hd] at hs
    cases hs
  · exact h channel hr (by rw [← hd]; exact hs)

end

/-! ### Commands

A join starts a load where none is outstanding. A leave withdraws the wish; what is in progress then
is the leave itself, sent or deferred. -/

/-- A record with nothing in progress. -/
structure Quiescent (d : Driver) (t : Topic) : Prop where
  flagged : d.Flagged t
  wanted : d.Wanted t
  deferred : d.DeferredWhileJoining t

theorem quiescent_of_none {d : Driver} {t : Topic} (h : d.record t = none) : d.Quiescent t :=
  ⟨flagged_of_none h, wanted_of_none h, deferred_of_none h⟩

/-- An unwanted record without flags. -/
theorem quiescent_of_idle {d : Driver} {t : Topic} {channel : ChannelRecord}
    (h : d.record t = some channel) (hf : channel.flags = (false, none, false, false)) :
    d.Quiescent t := by
  simp only [ChannelRecord.flags, Prod.mk.injEq] at hf
  obtain ⟨hd, ha, hs, hl⟩ := hf
  refine ⟨fun channel' hc => ?_, wanted_of_undesired h hd,
    deferred_of_undeferred h (by simpa using hl)⟩
  cases h.symm.trans hc
  refine ⟨fun hs' => ?_, fun id hid => ?_⟩
  · cases hs.symm.trans hs'
  · cases ha.symm.trans hid

theorem Quiescent.steady {w f : Prop} {d d' : Driver} {t : Topic} (h : d'.Quiescent t)
    (ht : d.Tracked t → d'.Tracked t) : Steady w f t d d' :=
  ⟨ht, fun _ => h.flagged, fun _ _ _ => h.wanted, fun _ _ => h.deferred⟩

section
variable (w f : Topic → Prop) (env : Env) (d : Driver) (topic : Topic)

theorem stopChannel_flags {d : Driver} {topic : Topic} {channel : ChannelRecord}
    (h : (d.stopChannel topic).record topic = some channel) :
    channel.flags = (false, none, false, false) := by
  cases hr : d.record topic with
  | none =>
    rw [stopChannel_of_none hr] at h
    cases hr.symm.trans h
  | some channel' =>
    rw [stopChannel_of_some hr, emitAll_record, record_setRecord] at h
    cases h
    rfl

theorem quiescent_stopChannel : (d.stopChannel topic).Quiescent topic := by
  cases hr : (d.stopChannel topic).record topic with
  | none => exact quiescent_of_none hr
  | some channel => exact quiescent_of_idle hr (stopChannel_flags hr)

theorem sound_stopChannel : Sound w f d (d.stopChannel topic) := by
  have hk := kept_stopChannel d topic
  exact hk.sound_of_record (moved_of_eq (by simp))
    ((quiescent_stopChannel d topic).steady (hk.tracked_of))

theorem sound_register : Sound w f d (d.register env topic) := by
  unfold register
  split
  · exact .refl ..
  · have hk := kept_setRecord d topic
      ⟨.closed, false, false, none, 0, env.options.joinTimeout, false, [], [], none⟩
    exact hk.sound_of_record (moved_of_eq rfl)
      ((quiescent_of_idle (record_setRecord ..) rfl).steady (hk.tracked_of))

theorem kept_unregister : Kept (some topic) (some topic) d (d.unregister topic) := by
  have hstop : Kept (some topic) (some topic) d (d.stopChannel topic) :=
    (kept_stopChannel d topic).weaken (.inl rfl) (.inr rfl)
  exact (hstop.trans ((kept_eraseRecord (d.stopChannel topic) topic).weaken (.inl rfl)
    (.inr rfl))).trans ((kept_discardChannel ..).weaken (.inr rfl) (.inl rfl))

/-- Nothing is left of an unregistered topic. -/
theorem steady_unregister {w f : Prop} (d₀ d : Driver) (topic : Topic) :
    Steady w f topic d₀ (d.unregister topic) := by
  have hr : (d.unregister topic).record topic = none := by
    show ((d.stopChannel topic).state.channels.erase topic)[topic]? = none
    rw [Table.lookup_erase, if_pos rfl]
  refine (quiescent_of_none hr).steady fun _ => tracked_of_idle fun state hs => ?_
  rw [unregister_protocol, Protocol.channelState] at hs
  simp [Protocol.discardChannel] at hs

theorem sound_unregister : Sound w f d (d.unregister topic) :=
  ((kept_unregister d topic).confined (unregister_moved d topic)).sound_of_own fun _ _ =>
    steady_unregister d d topic

theorem sound_handleJoin (id : RequestId) (timeout : Duration) :
    Sound w f d (d.handleJoin id topic timeout) := by
  cases hr : d.record topic with
  | none =>
    simp only [handleJoin, hr]
    exact (kept_emitAll ..).sound (moved_of_eq rfl)
  | some channel =>
    by_cases hj : d.state.protocol.channelState topic = some .joined
    · simp only [handleJoin, hr, if_pos hj]
      have hk := kept_setRecord d topic { channel with desired := true, status := .joined }
      have hsound : Sound w f d (d.setRecord topic { channel with desired := true, status := .joined }) :=
        hk.sound_of_record (moved_of_eq rfl)
          { tracked := hk.tracked_of
            flagged := fun h => flagged_setRecord h hr (fun hs => hs) (.inr rfl)
            wanted := fun _ _ _ => wanted_of_active (by rw [Active, hk.channelState_eq, hj]; rfl)
            deferred := fun _ h => deferred_setRecord h hr (.inr rfl) }
      exact hsound.trans ((kept_emitAll ..).sound (moved_of_eq rfl)) (fun _ h => h) fun _ h => h
    · simp only [handleJoin, hr, if_neg hj]
      have hset := kept_setRecord d topic { channel with
        desired := true, status := .waitingToJoin
        joinTimeout := max channel.joinTimeout timeout
        joinWaiters := channel.joinWaiters.insert id }
      have hk := hset.trans (kept_loadPayload _ topic)
      refine hk.sound_of_record (moved_of_eq (by simp)) ?_
      exact
        { tracked := hk.tracked_of
          flagged := fun h => flagged_loadPayload (flagged_setRecord h hr (fun hs => hs) (.inr rfl))
          wanted := fun _ _ _ => wanted_loadPayload _ topic
          deferred := fun _ h => deferred_loadPayload (deferred_setRecord h hr (.inr rfl)) }

theorem channelState_eq_some {p : Protocol} {topic : Topic} {state : ChannelState}
    (h : p.channelState topic = some state) :
    ∃ channel : Channel, p.channels[topic]? = some channel ∧ channel.state = state :=
  Option.map_eq_some_iff.mp h

/-- A leave that was just sent is tracked. -/
theorem tracked_trackLeave {d : Driver} {topic : Topic} {channel : Channel} {pending : PendingLeave}
    (hc : d.state.protocol.channels[topic]? = some channel) (hs : channel.state = .joined) :
    (d.trackLeave topic pending).Tracked topic := by
  have hp : (d.trackLeave topic pending).state.protocol = (d.state.protocol.leave topic).2 := rfl
  rw [Protocol.leave_of_joined hc hs] at hp
  constructor
  · intro c hc' hs'
    rw [hp, Table.lookup_insert, if_pos rfl] at hc'
    cases hc'
    cases hs'
  · intro c _ _
    refine ⟨d.state.protocol.nextText, ?_, ?_, _, List.mem_append_right _ (List.mem_singleton.mpr rfl),
      pending.timeout, rfl⟩
    · rw [hp, Table.lookup_insert, if_pos rfl]
    · show _ ∈ d.state.pendingLeaves.insert d.state.protocol.nextText pending
      exact Std.ExtTreeMap.mem_insert_self

theorem active_trackLeave {d : Driver} {topic : Topic} {channel : Channel} {pending : PendingLeave}
    (hc : d.state.protocol.channels[topic]? = some channel) (hs : channel.state = .joined) :
    (d.trackLeave topic pending).Active topic := by
  have hp : (d.trackLeave topic pending).state.protocol = (d.state.protocol.leave topic).2 := rfl
  rw [Protocol.leave_of_joined hc hs] at hp
  rw [Active, hp, Protocol.channelState, Table.lookup_insert, if_pos rfl]
  rfl

theorem sound_sendLeave {d : Driver} {topic : Topic} (channel : Channel) {pending : PendingLeave}
    (hc : d.state.protocol.channels[topic]? = some channel) (hs : channel.state = .joined) :
    Sound w f d (d.sendLeave env topic pending).1 := by
  rw [sendLeave_of_joined hc hs]
  have htrack : Sound w f d (d.trackLeave topic pending) := by
    refine Confined.sound_of_own
      ((confined_trackLeave hc hs).weaken (.inr rfl) (.inl rfl)) fun _ _ => ?_
    exact
      { tracked := fun _ => tracked_trackLeave hc hs
        flagged := flagged_congr rfl (List.Subset.refl _) (List.Subset.refl _)
        wanted := fun _ _ _ => wanted_of_active (active_trackLeave hc hs)
        deferred := fun _ h record hr hd => by
          have hj := h record hr hd
          rw [Protocol.channelState, hc, Option.map_some, hs] at hj
          cases hj }
  exact htrack.kept (moved_of_eq (by simp)) (kept_sendFrame ..)

theorem sound_setStatus (status : ChannelStatus) : Sound w f d (d.setStatus topic status) :=
  (kept_setStatus ..).sound (moved_of_eq (by simp))

/-- The channel of a record that was just stopped defers a leave while it is joining. -/
theorem sound_defer {d : Driver} {topic : Topic} {channel : ChannelRecord} {pending : PendingLeave}
    (hr : d.record topic = some channel) (hf : channel.flags = (false, none, false, false))
    (hs : d.state.protocol.channelState topic = some .joining) :
    Sound w f d (d.setRecord topic { channel with deferredLeave := some pending }) := by
  simp only [ChannelRecord.flags, Prod.mk.injEq] at hf
  have hk := kept_setRecord d topic { channel with deferredLeave := some pending }
  refine hk.sound_of_record (moved_of_eq rfl) ?_
  exact
    { tracked := hk.tracked_of
      flagged := fun h => flagged_setRecord h hr (fun hs => hs) (.inr rfl)
      wanted := fun _ _ _ => wanted_of_undesired (record_setRecord ..) hf.1
      deferred := fun _ _ _ _ _ => hs }

theorem sound_handleLeave (id : RequestId) (timeout : Duration) :
    Sound w f d (d.handleLeave env id topic timeout).1 := by
  have hstop : ∀ status, Sound w f d ((d.setStatus topic status).stopChannel topic) := fun status =>
    (sound_setStatus w f d topic status).trans (sound_stopChannel w f ..) (fun _ h => h) fun _ h => h
  have hstate : ∀ status, ((d.setStatus topic status).stopChannel topic).state.protocol =
      d.state.protocol := by simp
  cases leave_handled env d id topic timeout with
  | sent channel hc hs he =>
    rw [he]
    refine (hstop _).trans (sound_sendLeave w f env channel ?_ hs) (fun _ h => h) fun _ h => h
    rw [hstate]
    exact hc
  | deferred channel hs hr he =>
    rw [he]
    refine (hstop _).trans (sound_defer w f hr (stopChannel_flags hr) ?_) (fun _ h => h) fun _ h => h
    rw [hstate]
    exact hs
  | idle hs hj he =>
    rw [he]
    exact Sound.trans (hstop _) ((kept_emitAll ..).sound (moved_of_eq rfl)) (fun _ h => h) fun _ h => h

theorem sound_unregisterConnected : Sound w f d (d.unregisterConnected env topic).1 := by
  by_cases hj : d.state.protocol.channelState topic = some .joined
  · obtain ⟨channel, hc, hs⟩ := channelState_eq_some hj
    rw [unregisterConnected_of_joined hc hs]
    refine Sound.sendFrame ?_ ..
    refine Confined.sound_of_own (((confined_leave hc hs).weaken (.inr rfl) (.inl rfl)).trans
      ((kept_unregister ..).confined (unregister_moved ..))) fun _ _ => ?_
    exact steady_unregister d _ topic
  · rw [unregisterConnected_of_not_joined hj]
    exact sound_unregister ..

theorem sound_sendPush (push : QueuedPush) : Sound w f d (d.sendPush env topic push).1 :=
  (confined_pushed (sendPush_pushed ..)).sound

theorem sound_handlePush (push : QueuedPush) : Sound w f d (d.handlePush env topic push).1 := by
  unfold handlePush
  split
  · exact sound_sendPush ..
  · exact (kept_queue ..).sound (moved_of_eq (by simp))

theorem sound_handlePing (id : RequestId) : Sound w f d (d.handlePing env id).1 := by
  rw [handlePing_eq]
  exact (confined_trackPing d id).sound.sendFrame ..

theorem sound_handleConnectedCommand (command : Command) :
    Sound w f d (d.handleConnectedCommand env command).1 := by
  cases command with
  | connect | disconnect | subscribe | subscribeChannel _ | shutdown => exact .refl ..
  | ping id => exact sound_handlePing ..
  | join id topic timeout => exact sound_handleJoin ..
  | call id topic event payload started => exact sound_handlePush ..
  | cast id topic event payload => exact sound_handlePush ..
  | leave id topic timeout => exact sound_handleLeave ..

end

/-! ### Payload results

The load that ends is followed by the join it was for, with its request, table entry and deadline. -/

section
variable (w f : Topic → Prop) (env : Env) (d : Driver) (topic : Topic)

/-- A join that was just sent is tracked. -/
theorem tracked_trackJoin {d : Driver} {topic : Topic} (params : Value) (channel : ChannelRecord)
    (hs : d.state.protocol.channelState topic = none) :
    (d.trackJoin topic params channel).Tracked topic ∧
      (d.trackJoin topic params channel).state.protocol.channelState topic = some .joining := by
  have hp : (d.trackJoin topic params channel).state.protocol =
      (d.state.protocol.join topic params).2 := rfl
  rw [Protocol.join_of_unknown hs] at hp
  refine ⟨⟨fun c hc _ => ?_, fun c hc hs' => ?_⟩, ?_⟩
  · rw [hp, Table.lookup_insert, if_pos rfl] at hc
    cases hc
    refine ⟨?_, ?_, _, List.mem_append_right _ (List.mem_singleton.mpr rfl), channel.joinTimeout, rfl⟩
    · rw [hp, Table.lookup_insert, if_pos rfl]
    · show (d.state.pendingJoins.insert d.state.protocol.nextText topic)[d.state.protocol.nextText]? = _
      rw [Table.lookup_insert, if_pos rfl]
  · rw [hp, Table.lookup_insert, if_pos rfl] at hc
    cases hc
    cases hs'
  · rw [hp, Protocol.channelState, Table.lookup_insert, if_pos rfl]
    rfl

/-- The load that a channel waits for is over, and the record written accordingly. -/
theorem sound_loaded {d : Driver} {topic : Topic} {payloadId : UInt64}
    {channel channel' : ChannelRecord} (hr : d.record topic = some channel)
    (ha : channel'.activePayload = none) (hs : channel'.rejoinScheduled = channel.rejoinScheduled)
    (hl : channel'.deferredLeave = channel.deferredLeave)
    (hw : channel'.desired = false ∨ d.Active topic) :
    Sound w f d ((d.takePayload topic payloadId).setRecord topic channel') := by
  have hk := ((kept_takePayload d topic payloadId).weaken (.inr rfl) (.inl rfl)).trans
    ((kept_setRecord (d.takePayload topic payloadId) topic channel').weaken (.inl rfl) (.inr rfl))
  have hm : d.Moved ((d.takePayload topic payloadId).setRecord topic channel') := moved_of_eq rfl
  refine (hk.confined hm).sound_of_own fun _ _ => ?_
  exact
    { tracked := fun h => ⟨h.joining, h.leaving⟩
      flagged := fun h => flagged_of_loaded h hr (record_setRecord ..)
        (fun h => by rw [← hs]; exact h) ha (List.Subset.refl _)
      wanted := fun _ _ _ => by
        rcases hw with hw | hw
        · exact wanted_of_undesired (record_setRecord ..) hw
        · exact wanted_of_active hw
      deferred := fun _ h => deferred_setRecord (d := d.takePayload topic payloadId) h hr (.inr hl) }

/-- A load that the channel does not wait for is over. -/
theorem sound_takePayload {d : Driver} {topic : Topic} {payloadId : UInt64}
    (h : ∀ channel, d.record topic = some channel → channel.activePayload ≠ some payloadId) :
    Sound w f d (d.takePayload topic payloadId) := by
  have hk : Kept (some topic) (some topic) d (d.takePayload topic payloadId) :=
    (kept_takePayload d topic payloadId).weaken (.inr rfl) (.inl rfl)
  have hm : d.Moved (d.takePayload topic payloadId) := moved_of_eq rfl
  refine (hk.confined hm).sound_of_own fun _ _ => ?_
  exact
    { tracked := fun h => ⟨h.joining, h.leaving⟩
      flagged := fun hf channel hc => by
        obtain ⟨hs, ha⟩ := hf channel hc
        refine ⟨hs, fun id hid => (List.mem_erase_of_ne fun he => ?_).mpr (ha id hid)⟩
        cases he
        exact h channel hc hid
      wanted := fun _ _ h => h
      deferred := fun _ h => h }

/-- The load brought a payload for a channel the protocol does not know, or not any more. -/
theorem sound_trackJoin {d d₁ : Driver} {topic : Topic} {payloadId : UInt64} {params : Value}
    {channel : ChannelRecord} (hr : d.record topic = some channel)
    (hd : d₁ = d.takePayload topic payloadId ∨ d₁ = (d.takePayload topic payloadId).discardChannel topic)
    (hs : d₁.state.protocol.channelState topic = none) :
    Sound w f d (d₁.trackJoin topic params channel.loaded) := by
  have htake : Confined (some topic) (some topic) d (d.takePayload topic payloadId) :=
    Kept.confined (moved_of_eq rfl) ((kept_takePayload ..).weaken (.inr rfl) (.inl rfl))
  have hd₁ : Confined (some topic) (some topic) d d₁ := by
    rcases hd with rfl | rfl
    · exact htake
    · exact htake.trans (Kept.confined (moved_of_move (.discardChannel topic))
        ((kept_discardChannel ..).weaken (.inr rfl) (.inl rfl)))
  have hrejoins : (d₁.trackJoin topic params channel.loaded).connection.rejoins = d.connection.rejoins := by
    rcases hd with rfl | rfl <;> rfl
  have hrecord : (d₁.trackJoin topic params channel.loaded).record topic =
      some { channel.loaded with status := .joining } := by
    show (d₁.state.channels.insert topic _)[topic]? = _
    rw [Table.lookup_insert, if_pos rfl]
  obtain ⟨htracked, hstate⟩ := tracked_trackJoin params channel.loaded hs
  refine (hd₁.trans (confined_trackJoin hs)).sound_of_own fun _ _ => ?_
  exact
    { tracked := fun _ => htracked
      flagged := fun h => flagged_of_loaded h hr hrecord (fun hs => hs) rfl
        (by rw [hrejoins]; exact List.Subset.refl _)
      wanted := fun _ _ _ => wanted_of_active (by rw [Active, hstate]; rfl)
      deferred := fun _ _ _ _ _ => hstate }

theorem sound_payload (payloadId : UInt64) (payload : Except String Value) :
    Sound w f d ((d.takePayload topic payloadId).handlePayload env topic payloadId payload).1 := by
  have hrec : (d.takePayload topic payloadId).record topic = d.record topic := rfl
  cases payload_handled env (d.takePayload topic payloadId) topic payloadId payload with
  | ignored h he =>
    rw [he]
    exact sound_takePayload w f h
  | late channel hr ha h he =>
    rw [he]
    exact sound_loaded w f hr rfl rfl rfl h
  | failed message channel hp hr ha he =>
    rw [he]
    have hset : Sound w f d ((d.takePayload topic payloadId).setRecord topic
        { channel.loaded with desired := false, status := .errored, joinWaiters := [] }) :=
      sound_loaded w f hr rfl rfl rfl (.inl rfl)
    have hall : Sound w f d (((d.takePayload topic payloadId).setRecord topic
        { channel.loaded with desired := false, status := .errored, joinWaiters := [] }).emitAll
          (channel.joinWaiters.map fun id =>
            .answered .join id (.error (.joinPayload topic message)))) :=
      hset.kept (moved_of_eq rfl) (kept_emitAll ..)
    exact hall.kept (moved_of_eq (by simp)) (kept_emitChannel ..)
  | joined value channel d₁ hp hr ha hd hs hd₁ hs₁ he =>
    rw [he]
    exact (sound_trackJoin w f (hrec.symm.trans hr) (hd₁.imp_right And.right) hs₁).sendFrame ..

end

end Driver
end PhoenixChannel.Client
