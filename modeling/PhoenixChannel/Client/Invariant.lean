import PhoenixChannel.Client.Arrivals
import PhoenixChannel.Client.StaleTimers

/-! What holds between two iterations of the loop.

Offline no channel is active and no record waits for anything of a connection. A new
connection starts a load for every wanted channel, and from then on every handler is sound.
`W` and `F` say which of the two conditions on steps a run meets. -/
namespace PhoenixChannel.Client
open PhoenixChannel.Runtime Library

/-- The record waits for nothing of a connection. -/
def ChannelRecord.Resting (channel : ChannelRecord) : Prop :=
  channel.activePayload = none ∧ channel.deferredLeave = none

namespace Driver

/-! ### Offline

Without a connection a handler keeps every channel inactive and every record at rest. -/

/-- No connection, and nothing that would need one. -/
structure Offline (d : Driver) : Prop where
  connection : d.connection = .none
  channels : ∀ (t : Topic) (c : Channel), d.state.protocol.channels[t]? = some c → ¬ c.state.active
  records : ∀ (t : Topic) (channel : ChannelRecord), d.record t = some channel → channel.Resting

/-- From `d` to `d'` the loop stays where it is, no channel comes, and no record starts to
wait for a connection. -/
structure Dormant (d d' : Driver) : Prop where
  phase : d'.phase = d.phase
  connection : d'.connection = d.connection
  channels : ∀ (t : Topic) (c : Channel), d'.state.protocol.channels[t]? = some c →
    d.state.protocol.channels[t]? = some c
  records : ∀ (t : Topic) (channel' : ChannelRecord), d'.record t = some channel' →
    channel'.Resting ∨ ∃ channel, d.record t = some channel ∧ (channel.Resting → channel'.Resting)

section
variable {d d' d'' : Driver} {topic : Topic}

theorem Dormant.refl (d : Driver) : d.Dormant d where
  phase := rfl
  connection := rfl
  channels _ _ h := h
  records _ channel h := .inr ⟨channel, h, id⟩

/-- A record that rests after the first step rests after the second. -/
theorem Dormant.trans (h : d.Dormant d') (h' : d'.Dormant d'') : d.Dormant d'' where
  phase := h'.phase.trans h.phase
  connection := h'.connection.trans h.connection
  channels t c hc := h.channels t c (h'.channels t c hc)
  records t channel'' hc := by
    rcases h'.records t channel'' hc with hr | ⟨channel', hc', himp⟩
    · exact .inl hr
    rcases h.records t channel' hc' with hr | ⟨channel, hc, himp'⟩
    · exact .inl (himp hr)
    · exact .inr ⟨channel, hc, fun hr => himp (himp' hr)⟩

theorem Offline.dormant (h : d.Offline) (hd : d.Dormant d') : d'.Offline where
  connection := hd.connection.trans h.connection
  channels t c hc := h.channels t c (hd.channels t c hc)
  records t channel' hc := by
    rcases hd.records t channel' hc with hr | ⟨channel, hc, himp⟩
    · exact hr
    · exact himp (h.records t channel hc)

/-- Where nothing changes nothing wakes. -/
theorem Dormant.of_eq (hph : d'.phase = d.phase) (hc : d'.connection = d.connection)
    (hp : d'.state.protocol = d.state.protocol) (hr : d'.state.channels = d.state.channels) :
    d.Dormant d' where
  phase := hph
  connection := hc
  channels t c h := by rw [← hp]; exact h
  records t channel h := by
    rw [record, hr] at h
    exact .inr ⟨channel, h, id⟩

theorem Dormant.emitAll (h : d.Dormant d') {effects : List Effect} :
    d.Dormant (d'.emitAll effects) := h.trans (.of_eq rfl rfl rfl rfl)

/-- A record may be written that rests if the old one did. -/
theorem Dormant.setRecord (h : d.Dormant d') {channel' : ChannelRecord}
    (hr : channel'.Resting ∨
      ∃ channel, d'.record topic = some channel ∧ (channel.Resting → channel'.Resting)) :
    d.Dormant (d'.setRecord topic channel') := by
  refine h.trans
    { phase := rfl, connection := rfl, channels := fun _ _ h => h, records := fun t channel'' hc => ?_ }
  rw [record_setRecord_eq] at hc
  split at hc
  · cases hc
    rename_i ht
    rw [ht]
    exact hr
  · exact .inr ⟨channel'', hc, id⟩

/-- A status is nothing to wait for. -/
theorem Dormant.setStatus (h : d.Dormant d') {status : ChannelStatus} :
    d.Dormant (d'.setStatus topic status) := by
  cases hr : d'.record topic with
  | none =>
    rw [setStatus_of_none hr]
    exact h
  | some channel =>
    rw [setStatus_of_some hr]
    exact h.setRecord (.inr ⟨channel, hr, id⟩)

theorem Dormant.stopChannel (h : d.Dormant d') : d.Dormant (d'.stopChannel topic) := by
  cases hr : d'.record topic with
  | none =>
    rw [stopChannel_of_none hr]
    exact h
  | some channel =>
    rw [stopChannel_of_some hr]
    exact (h.setRecord (.inl ⟨rfl, rfl⟩)).emitAll

theorem Dormant.discardChannel (h : d.Dormant d') : d.Dormant (d'.discardChannel topic) := by
  refine h.trans { Dormant.refl d' with channels := fun t c hc => ?_ }
  have hc : (d'.state.protocol.channels.erase topic)[t]? = some c := hc
  rw [Table.lookup_erase] at hc
  split at hc
  · cases hc
  · exact hc

/-- Records may go. -/
theorem Dormant.unregister (h : d.Dormant d') : d.Dormant (d'.unregister topic) := by
  have hstop : d.Dormant (d'.stopChannel topic) := h.stopChannel
  refine (hstop.trans ?_).discardChannel
  refine { Dormant.refl (d'.stopChannel topic) with records := fun t channel hc => ?_ }
  have hc : ((d'.stopChannel topic).state.channels.erase topic)[t]? = some channel := hc
  rw [Table.lookup_erase] at hc
  split at hc
  · cases hc
  · exact .inr ⟨channel, hc, id⟩

theorem Dormant.register (h : d.Dormant d') {env : Env} : d.Dormant (d'.register env topic) := by
  unfold Driver.register
  split
  · exact h
  · exact h.setRecord (.inl ⟨rfl, rfl⟩)

theorem Dormant.queue (h : d.Dormant d') {env : Env} {push : QueuedPush} :
    d.Dormant (d'.queue env topic push) := by
  rcases queue_cases env d' topic push with ⟨error, -, he⟩ | ⟨channel, hr, -, -, he⟩
  · rw [he]
    exact h.emitAll
  · rw [he]
    exact h.setRecord (.inr ⟨channel, hr, id⟩)

/-- What is taken out of a record leaves it resting. -/
theorem Dormant.cancelUnsent (h : d.Dormant d') {channel : ChannelRecord}
    (hr : d'.record topic = some channel) (id : RequestId) :
    d.Dormant (d'.cancelUnsent topic channel id) := by
  cases d'.cancelUnsent_cases topic channel id with
  | leave pending hd hid he =>
    have hset : d.Dormant (d'.setRecord topic { channel with
        deferredLeave := some { pending with response := false } }) :=
      h.setRecord (.inr ⟨channel, hr, fun hrest => by cases hd.symm.trans hrest.2⟩)
    rw [he]
    exact hset.emitAll
  | push push hf he =>
    have hset : d.Dormant (d'.setRecord topic { channel with
        queued := removeQueued id channel.queued }) :=
      h.setRecord (.inr ⟨channel, hr, fun h => h⟩)
    rw [he]
    exact hset.emitAll
  | nothing hd hq he =>
    rw [he]
    exact h

/-- Pending requests may go. -/
theorem Dormant.of_requests (hph : d'.phase = d.phase) (hc : d'.connection = d.connection)
    (hp : d'.state.protocol.channels = d.state.protocol.channels)
    (hr : d'.state.channels = d.state.channels) : d.Dormant d' where
  phase := hph
  connection := hc
  channels t c h := by rw [← hp]; exact h
  records t channel h := by
    rw [record, hr] at h
    exact .inr ⟨channel, h, id⟩

theorem dormant_cancelCall (d : Driver) (id : RequestId) : d.Dormant (d.cancelCall id) := by
  rcases cancelCall_cases d id with hcancel | ⟨reference, call, -, -, hcancel⟩
  · rw [hcancel]
    exact .refl d
  · rw [hcancel]
    exact .of_requests rfl rfl (Protocol.forgetPush_channels ..) rfl

theorem dormant_cancelPing (d : Driver) (id : RequestId) : d.Dormant (d.cancelPing id) := by
  rcases cancelPing_cases d id with hcancel | ⟨reference, ping, -, -, hcancel⟩
  · rw [hcancel]
    exact .refl d
  · rw [hcancel]
    exact .of_requests rfl rfl (Protocol.forgetHeartbeat_channels ..) rfl

theorem dormant_cancelLeave (d : Driver) (id : RequestId) : d.Dormant (d.cancelLeave id) := by
  rcases cancelLeave_cases d id with hcancel | ⟨reference, leave, -, -, hcancel⟩
  · rw [hcancel]
    exact .refl d
  · rw [hcancel]
    exact .of_requests rfl rfl rfl rfl

/-- A cancellation takes away, and starts nothing. -/
theorem dormant_cancel (d : Driver) (id : RequestId) : d.Dormant (d.cancel id) := by
  cases d.cancel_found id with
  | join topic channel hr hm he =>
    rw [he]
    by_cases h : channel.joinWaiters.erase id = [] ∧ channel.everJoined = false
    · rw [cancelJoin_of_last h.1 h.2]
      have hset : d.Dormant (d.setRecord topic (channel.abandoned id)) :=
        (Dormant.refl d).setRecord (.inr ⟨channel, hr, fun hrest => ⟨rfl, hrest.2⟩⟩)
      have hforget : d.Dormant
          (((d.setRecord topic (channel.abandoned id)).emitAll [.cancelled .join id]).forgetJoins topic) :=
        hset.trans (.of_eq rfl rfl rfl rfl)
      exact hforget.discardChannel
    · rw [cancelJoin_of_others h]
      have hset : d.Dormant
          (d.setRecord topic { channel with joinWaiters := channel.joinWaiters.erase id }) :=
        (Dormant.refl d).setRecord (.inr ⟨channel, hr, fun hrest => hrest⟩)
      exact hset.emitAll
  | unsent topic channel hr hm he =>
    rw [he]
    exact (Dormant.refl d).cancelUnsent hr id
  | pending hj hq he =>
    rw [he]
    exact ((dormant_cancelCall d id).trans (dormant_cancelPing ..)).trans (dormant_cancelLeave ..)

theorem dormant_handleOfflineLifecycle (env : Env) (d : Driver) (command : LifecycleCommand) :
    d.Dormant (d.handleOfflineLifecycle env command) := by
  cases command with
  | register topic => exact (Dormant.refl d).register
  | unregister topic => exact (Dormant.refl d).unregister
  | cancel id => exact dormant_cancel d id

/-- Without a connection a command waits in a record that rests. -/
theorem dormant_offlineCommand (env : Env) (d : Driver) (command : Command) :
    d.Dormant ((d.accept command).handleOfflineCommand env command) := by
  have haccept : d.Dormant (d.accept command) := by
    unfold accept
    split
    · exact (Dormant.refl d).emitAll
    · exact .refl d
  refine haccept.trans ?_
  generalize d.accept command = d
  cases command with
  | connect | disconnect | subscribe | subscribeChannel _ | shutdown => exact .refl d
  | ping id => exact (Dormant.refl d).emitAll
  | join id topic timeout =>
    simp only [handleOfflineCommand]
    cases hr : d.record topic with
    | none => exact (Dormant.refl d).emitAll
    | some channel => exact (Dormant.refl d).setRecord (.inr ⟨channel, hr, fun h => h⟩)
  | call id topic event payload started => exact (Dormant.refl d).queue
  | cast id topic event payload => exact (Dormant.refl d).queue
  | leave id topic timeout => exact (Dormant.refl d).setStatus.stopChannel.emitAll

end

/-! ### Losing the connection

Whatever the records said, afterwards they rest. -/

section
variable {env : Env} {d d' : Driver}

theorem Offline.of_eq (h : d.Offline) (hc : d'.connection = d.connection)
    (hp : d'.state.protocol = d.state.protocol) (hr : d'.state.channels = d.state.channels) :
    d'.Offline where
  connection := hc.trans h.connection
  channels t c hc := h.channels t c (by rw [← hp]; exact hc)
  records t channel hc := h.records t channel (by rw [record, ← hr]; exact hc)

/-- The closing of the socket touches the status of a record only. -/
theorem Offline.emitSocket (h : d.Offline) (event : SocketEvent) : (d.emitSocket event).Offline where
  connection := h.connection
  channels := h.channels
  records t channel hc := by
    rw [emitSocket_record, Option.map_eq_some_iff] at hc
    obtain ⟨channel', hold, rfl⟩ := hc
    exact h.records t channel' hold

/-- A lost connection leaves no channel active and every record resting. -/
theorem offline_onDisconnect (d : Driver) (reason : DisconnectReason) :
    (d.onDisconnect reason).Offline := by
  obtain ⟨reports, -, he⟩ := onDisconnect_eq d reason
  rw [he]
  refine ⟨rfl, fun t c hc => ?_, fun t channel hc => ?_⟩
  · obtain ⟨c', -, rfl⟩ := Table.lookup_of_map hc
    exact nofun
  · obtain ⟨channel', -, rfl⟩ := Table.lookup_of_map hc
    exact ⟨rfl, rfl⟩

theorem Offline.afterFailure (h : d.Offline) (reason : DisconnectReason) :
    (d.afterFailure env reason).Offline := by
  unfold Driver.afterFailure
  dsimp only
  have hattempt : { d with attempt := nextAttempt d.attempt }.Offline := h.of_eq rfl rfl rfl
  split
  · exact (hattempt.emitSocket _).of_eq rfl rfl rfl
  · exact (hattempt.emitSocket _).of_eq rfl rfl rfl

theorem afterFailure_phase (env : Env) (d : Driver) (reason : DisconnectReason) :
    (d.afterFailure env reason).phase = .idle ∨
      ∃ due, (d.afterFailure env reason).phase = .waiting due := by
  unfold afterFailure
  dsimp only
  split
  · exact .inr ⟨_, rfl⟩
  · exact .inl rfl

end

/-! ### Connected

Right after a connection is made every wanted channel has its load. -/

/-- What holds of a connected driver. -/
structure Online (W F : Prop) (d : Driver) : Prop where
  owned : d.Owned
  tracked : ∀ t, d.Tracked t
  flagged : ∀ t, d.Flagged t
  wanted : W → ∀ t, d.Wanted t
  deferred : F → ∀ t, d.DeferredWhileJoining t

section
variable {W F : Prop} {env : Env} {d d' : Driver}

theorem Online.sound (h : Online W F d) (hs : Sound (fun _ => W) (fun _ => F) d d')
    (hn : d.state.protocol.Numbered) (hb : d'.state.protocol.allocated < 2 ^ 64) :
    d'.phase = d.phase ∧ Online W F d' := by
  obtain ⟨hp, ho, hst⟩ := hs.steady hn hb h.owned
  refine ⟨hp, ho, fun t => (hst t).tracked (h.tracked t), fun t => (hst t).flagged (h.flagged t), ?_, ?_⟩
  · exact fun hw t => (hst t).wanted hw (h.flagged t) (h.wanted hw t)
  · exact fun hf t => (hst t).deferred hf (h.deferred hf t)

/-- The load is the work that the wanted channel has ahead. -/
theorem sound_startLoad (w f : Topic → Prop) (d : Driver) (topic : Topic) :
    Sound w f d (d.startLoad topic) := by
  have hst := kept_setStatus d topic .waitingToJoin
  have hk := (hst.weaken (.inl rfl) (.inl rfl)).trans
    (kept_loadPayload (d.setStatus topic .waitingToJoin) topic)
  refine hk.sound_of_record (moved_of_eq (by simp [startLoad])) ?_
  exact
    { tracked := hk.tracked_of
      flagged := fun h => flagged_loadPayload (hst.flagged nofun nofun h)
      wanted := fun _ _ _ => wanted_loadPayload _ topic
      deferred := fun _ h => deferred_loadPayload (hst.deferred nofun nofun h) }

/-- Loads for the topics that are not taken care of yet. -/
theorem online_loads (topics : List Topic) {d : Driver} (h : Online False F d)
    (hn : d.state.protocol.Numbered) (hb : d.state.protocol.allocated < 2 ^ 64)
    (hw : ∀ t, d.Wanted t ∨ t ∈ topics) :
    (topics.foldl startLoad d).phase = d.phase ∧ Online W F (topics.foldl startLoad d) := by
  induction topics generalizing d with
  | nil =>
    refine ⟨rfl, { h with wanted := fun _ t => ?_ }⟩
    rcases hw t with hw | hw
    · exact hw
    · cases hw
  | cons topic topics ih =>
    rw [List.foldl_cons]
    have hp : (d.startLoad topic).state.protocol = d.state.protocol := by simp [startLoad]
    have hb' : (d.startLoad topic).state.protocol.allocated < 2 ^ 64 := by rw [hp]; exact hb
    have hs := sound_startLoad (fun _ => True) (fun _ => F) d topic
    obtain ⟨hph, ho, hst⟩ := hs.steady hn hb' h.owned
    have hnext : Online False F (d.startLoad topic) :=
      ⟨ho, fun t => (hst t).tracked (h.tracked t), fun t => (hst t).flagged (h.flagged t),
        False.elim, fun hf t => (hst t).deferred hf (h.deferred hf t)⟩
    obtain ⟨hph', hon⟩ := ih hnext (by rw [hp]; exact hn) hb' fun t => by
      rcases hw t with hw | hw
      · exact .inl ((hst t).wanted trivial (h.flagged t) hw)
      rcases List.mem_cons.mp hw with rfl | hw
      · exact .inl (wanted_loadPayload _ t)
      · exact .inr hw
    exact ⟨hph'.trans hph, hon⟩

/-- A new connection, before it starts any load. -/
theorem online_connected (h : d.Offline) (started : Duration) (transport : Transport) :
    Online False F (d.connected env started transport) := by
  have hrest : ∀ (t : Topic) (channel : ChannelRecord),
      (d.connected env started transport).record t = some channel →
      channel.Resting ∧ channel.rejoinScheduled = false := by
    intro t channel hc
    rw [connected_record, Option.map_eq_some_iff] at hc
    obtain ⟨channel', hc, rfl⟩ := hc
    exact ⟨h.records t channel' hc, rfl⟩
  refine ⟨nofun, fun t => ?_, fun t channel hc => ?_, False.elim, fun _ t channel hc hd => ?_⟩
  · refine tracked_of_idle fun state hs => ?_
    have hs : d.state.protocol.channelState t = some state := hs
    rw [Protocol.channelState, Option.map_eq_some_iff] at hs
    obtain ⟨c, hc, rfl⟩ := hs
    have hinactive := h.channels t c hc
    constructor <;>
    · intro he
      rw [he] at hinactive
      exact hinactive rfl
  · obtain ⟨⟨ha, -⟩, hs⟩ := hrest t channel hc
    refine ⟨fun hs' => ?_, fun id hid => ?_⟩
    · cases hs.symm.trans hs'
    · cases ha.symm.trans hid
  · rw [(hrest t channel hc).1.2] at hd
    cases hd

/-- A new connection starts a load for every wanted channel. -/
theorem online_connectionMade (h : d.Offline) (hn : d.state.protocol.Numbered)
    (hb : d.state.protocol.allocated < 2 ^ 64) (started : Duration) (transport : Transport)
    {order : List Topic} (ho : Table.IsOrder order d.state.channels) :
    (d.connectionMade env started transport order).phase = .connected ∧
      Online W F (d.connectionMade env started transport order) := by
  rw [connectionMade_eq]
  refine online_loads _ (online_connected h started transport) hn hb fun t => ?_
  have hr' := connected_record env d started transport t
  cases hr : d.record t with
  | none =>
    rw [hr] at hr'
    exact .inl (wanted_of_none hr')
  | some channel =>
    rw [hr] at hr'
    cases hd : channel.desired with
    | false => exact .inl (wanted_of_undesired hr' hd)
    | true =>
      refine .inr (List.mem_filter.mpr ⟨(ho.mem t).mpr (Table.mem_of_lookup hr), ?_⟩)
      rw [hr]
      exact hd

end

/-! ### Steps

`Between` is the offline or the online half, by the phase. Every step keeps it, as long as the run
meets the conditions `W` and `F` stand for. -/

/-- No join deadline passes, while its join is in flight, for a wanted channel with a deferred
leave, unless a rejoin timer is outstanding anyway. -/
def Patient (d : Driver) (input : Input) : Prop :=
  ∀ (timer : Timer OperationTimeout) (topic : Topic) (reference : Reference) (duration : Duration),
    input = .operationTimeout timer → timer.value = .join topic reference duration →
    timer.value.Armed d → d.RejoinsAnyway topic

/-- A deferred leave meets no error of its channel, no cancellation that ends its join, and no
deadline of an earlier leave. -/
structure Faithful (env : Env) (d : Driver) (input : Input) : Prop where
  error : ∀ (message : WireMessage) (frame : Frame), input = .message message →
    env.codec.decode message = .ok frame → frame.event = "phx_error" →
    d.state.protocol.stale frame = false → d.Undeferred frame.topic
  cancel : ∀ (id : RequestId) (topic : Topic), input = .lifecycle (.cancel id) →
    d.EndsAttempt id topic → d.Undeferred topic
  leave : ∀ (timer : Timer OperationTimeout) (topic : Topic) (reference : Reference)
    (duration : Duration), input = .operationTimeout timer →
    timer.value = .leave topic reference duration → timer.value.Armed d → d.Undeferred topic

/-- What holds between two iterations, phase by phase. -/
def Between (W F : Prop) (d : Driver) : Prop :=
  match d.phase with
  | .connected => Online W F d
  | .closed => True
  | .idle | .connecting _ _ | .waiting _ => d.Offline

section
variable {W F : Prop} {env : Env} {d d' : Driver}

theorem between_of_online (hp : d.phase = .connected) (h : Online W F d) : Between W F d := by
  rw [Between, hp]
  exact h

theorem between_connected (h : d.phase = .connected ∧ Online W F d) : Between W F d :=
  between_of_online h.1 h.2

theorem between_of_offline (hp : d.phase ≠ .connected) (h : d.Offline) : Between W F d := by
  unfold Between
  split
  · contradiction
  · trivial
  · exact h
  · exact h
  · exact h

/-- The connection ended, whatever the handler did before. -/
theorem between_disconnected (env : Env) (d : Driver) (reason : DisconnectReason) :
    Between W F (settle env (d, some reason)) := by
  refine between_of_offline ?_ ((offline_onDisconnect d reason).afterFailure reason)
  rcases afterFailure_phase env (d.onDisconnect reason) reason with hp | ⟨due, hp⟩
  · rw [settle, hp]
    nofun
  · rw [settle, hp]
    nofun

/-- A sound handler of the connected loop. -/
theorem between_settle {r : Result} (hp : d.phase = .connected) (h : Online W F d)
    (hn : d.state.protocol.Numbered) (hb : (settle env r).state.protocol.allocated < 2 ^ 64)
    (hs : r.2 = none → Sound (fun _ => W) (fun _ => F) d r.1) : Between W F (settle env r) := by
  rcases r with ⟨d', _ | reason⟩
  · obtain ⟨hp', hon⟩ := h.sound (hs rfl) hn hb
    exact between_of_online (hp'.trans hp) hon
  · exact between_disconnected ..

theorem sound_accept (w f : Topic → Prop) (d : Driver) (command : Command) :
    Sound w f d (d.accept command) := by
  unfold accept
  split
  · exact (Sound.refl w f d).emitAll
  · exact .refl ..

/-- **Every step of the connected loop keeps the invariant.** -/
theorem between_connectedStep {input : Input} (hp : d.phase = .connected) (h : Online W F d)
    (hn : d.state.protocol.Numbered) (hco : d.state.protocol.Coherent)
    (hb : d'.state.protocol.allocated < 2 ^ 64) (hw : W → d.Patient input)
    (hf : F → d.Faithful env input) (hs : ConnectedStep env d input d') : Between W F d' := by
  cases hs with
  | lifecycle command =>
    refine between_settle hp h hn hb fun _ => ?_
    exact sound_handleConnectedLifecycle env d _ fun id t hc hF =>
      (hf hF).cancel id t (by rw [hc])
  | command command =>
    refine between_settle hp h hn hb fun _ => ?_
    exact (sound_accept ..).trans (sound_handleConnectedCommand ..) (fun _ h => h) fun _ h => h
  | acknowledge =>
    obtain ⟨hp', hon⟩ := h.sound (Sound.refl _ _ d).emitAll hn hb
    exact between_of_online (hp'.trans hp) hon
  | disconnect =>
    refine between_of_offline nofun ?_
    exact (offline_onDisconnect d .requested).of_eq rfl rfl rfl
  | close => trivial
  | lost input hi reason => exact between_disconnected ..
  | message message =>
    refine between_settle hp h hn hb fun hok => ?_
    refine sound_onMessage env d message hco (fun frame topic payload hd hev hF => ?_) hok
    rcases hrec : d.state.protocol.receive frame with ⟨_ | event, p⟩
    · rw [hrec] at hev
      cases hev
    · rw [hrec] at hev
      cases hev
      obtain ⟨rfl, herror, hstale, -⟩ := Protocol.receive_explains hrec
      exact (hf hF).error message frame rfl hd herror hstale
  | heartbeat => exact between_settle hp h hn hb fun _ => sound_handleHeartbeat env d
  | payload topic payloadId result hm => exact between_settle hp h hn hb fun _ => sound_payload ..
  | rejoin timer hm =>
    obtain ⟨hp', hon⟩ := h.sound (sound_rejoin ..) hn hb
    exact between_of_online (hp'.trans hp) hon
  | operationTimeout timer hm =>
    have hsound : Sound (fun _ => W) (fun _ => F) d
        ((d.takeOperationTimeout timer).handleOperationTimeout env timer.value) := by
      cases hv : timer.value with
      | join topic reference duration =>
        rw [← hv]
        exact sound_joinTimeout hm hv fun hW harmed =>
          hw hW timer topic reference duration rfl hv (by rw [hv]; exact harmed)
      | leave topic reference duration =>
        rw [← hv]
        exact sound_leaveTimeout hm hv fun hF harmed =>
          (hf hF).leave timer topic reference duration rfl hv (by rw [hv]; exact harmed)
    obtain ⟨hp', hon⟩ := h.sound hsound hn hb
    exact between_of_online (hp'.trans hp) hon

theorem between_dormant (hp : d.phase ≠ .connected) (h : d.Offline) (hd : d.Dormant d') :
    Between W F d' :=
  between_of_offline (by rw [hd.phase]; exact hp) (h.dormant hd)

/-- A failed attempt finds and leaves the driver offline. -/
theorem between_connectFailed (h : d.Offline) (started : Duration) (error : TransportError) :
    Between W F (d.connectFailed env started error) := by
  have hfinished : (d.attemptFinished started false).Offline := h.of_eq rfl rfl rfl
  refine between_of_offline ?_ ((hfinished.emitSocket _).afterFailure _)
  unfold connectFailed
  rcases afterFailure_phase env ((d.attemptFinished started false).emitSocket
    (.disconnected (.connect error))) (.connect error) with hp | ⟨due, hp⟩
  · rw [hp]
    nofun
  · rw [hp]
    nofun

theorem between_disconnect (d : Driver) : Between W F d.disconnect :=
  between_of_offline nofun ((offline_onDisconnect d .requested).of_eq rfl rfl rfl)

/-- **Every step without a connection keeps the invariant.** -/
theorem between_offlineStep {input : Input} (hp : d.phase ≠ .connected) (h : d.Offline)
    (hn : d.state.protocol.Numbered) (hb : d'.state.protocol.allocated < 2 ^ 64)
    (hs : OfflineStep env d input d') : Between W F d' := by
  cases hs with
  | lifecycle command => exact between_dormant hp h (dormant_handleOfflineLifecycle ..)
  | command command => exact between_dormant hp h (dormant_offlineCommand ..)
  | acknowledge command hc => exact between_dormant hp h (Dormant.refl d).emitAll
  | disconnect d₁ reports he hr => exact between_disconnect d₁
  | close input hi d₁ reports he hr => trivial
  | connect input hi d₁ reports he attempt hr =>
    have hreports : d₁.Offline := by
      rw [he]
      exact h.of_eq rfl rfl rfl
    exact between_of_offline nofun ((hreports.emitSocket (.connecting attempt)).of_eq rfl rfl rfl)
  | failed input hi started error => exact between_connectFailed h started error
  | made started due transport order hp' ho =>
    rw [connectionMade_protocol] at hb
    exact between_connected (online_connectionMade h hn hb started _ ho)

/-- Every phase but the connected one is offline. -/
theorem Offline.of_phase (h : Between W F d) (hp : d.phase ≠ .connected) (hc : d.phase ≠ .closed) :
    d.Offline := by
  unfold Between at h
  split at h
  · contradiction
  · contradiction
  · exact h
  · exact h
  · exact h

/-- A channel's status, the clock and the trace are outside the invariant. -/
theorem Between.outside (h : Between W F d) (hn : d.state.protocol.Numbered)
    (hb : d'.state.protocol.allocated < 2 ^ 64) (hd : d.Dormant d')
    (hs : Sound (fun _ => W) (fun _ => F) d d') : Between W F d' := by
  by_cases hp : d.phase = .connected
  · rw [Between, hp] at h
    obtain ⟨hp', hon⟩ := h.sound hs hn hb
    exact between_of_online (hp'.trans hp) hon
  by_cases hc : d.phase = .closed
  · rw [Between, hd.phase, hc]
    trivial
  · exact between_dormant hp (.of_phase h hp hc) hd

/-- **Every step keeps the invariant.** -/
theorem between_step {input : Input} (h : Between W F d) (hn : d.state.protocol.Numbered)
    (hco : d.state.protocol.Coherent) (hb : d'.state.protocol.allocated < 2 ^ 64)
    (hw : W → d.phase = .connected → d.Patient input)
    (hf : F → d.phase = .connected → d.Faithful env input)
    (hs : d.step env input = some d') : Between W F d' := by
  cases stepped hs with
  | tick elapsed hi hd =>
    subst hd
    refine h.outside hn hb (.of_eq rfl rfl rfl rfl) (Kept.sound (moved_of_eq rfl) ?_)
    exact .of_record rfl rfl rfl rfl rfl (List.Subset.refl _) (List.Subset.refl _) fun _ _ => rfl
  | dropped topic hi hd =>
    subst hd
    exact h.outside hn hb (Dormant.refl d).setStatus (sound_setStatus ..)
  | offline hc ho hs => exact between_offlineStep hc (.of_phase h hc ho) hn hb hs
  | connected hp hs =>
    rw [Between, hp] at h
    exact between_connectedStep hp h hn hco hb (fun hW => hw hW hp) (fun hF => hf hF hp) hs

/-- At first there is no record and no channel. -/
theorem between_start (env : Env) : Between W F (start env) := by
  unfold start
  have hnew : Offline ⟨.new, .none, .idle, 0, 0, ⟨true, []⟩, []⟩ := by
    refine ⟨rfl, fun t c hc => ?_, fun t channel hc => ?_⟩
    · simp [DriverState.new, Protocol.new] at hc
    · simp [record, DriverState.new] at hc
  dsimp only
  split
  · refine between_of_offline (fun hp => ?_) ((hnew.emitSocket (.connecting 0)).of_eq rfl rfl rfl)
    cases hp
  · refine between_of_offline (fun hp => ?_) hnew
    cases hp

/-- **What holds between iterations of every run** that meets the conditions, as long as
references are new. -/
theorem between_reach
    (h : (driver env).Reach (fun d input => (W → d.phase = .connected → d.Patient input) ∧
      (F → d.phase = .connected → d.Faithful env input)) d)
    (hb : d.state.protocol.allocated < 2 ^ 64) : Between W F d := by
  induction h with
  | start => exact between_start env
  | step hr hok hs ih =>
    have hm := step_moved hs
    have hb' := Nat.lt_of_le_of_lt (Protocol.Moves.grows hm) hb
    exact between_step (ih hb') (reachable_numbered hr.reachable hb') (reachable_coherent hr.reachable)
      hb hok.1 hok.2 hs

end

end Driver
end PhoenixChannel.Client
