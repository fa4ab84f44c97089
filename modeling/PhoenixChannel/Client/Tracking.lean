import PhoenixChannel.Client.Confined

/-! What is in progress for a topic.

A channel that is being joined or left is tracked by a request, an entry in the table of
its operation and a deadline; a record's flags are backed by a load or a timer. On these
rest `Wanted` (a wanted channel has something in progress) and `DeferredWhileJoining` (a
leave is deferred only during a join). `Steady` says what of it a handler keeps. -/
namespace PhoenixChannel.Client
open PhoenixChannel.Runtime Library

namespace Driver

/-- A join or leave of the topic can end: its reply will be recognized, and so will its
deadline. -/
structure Tracked (d : Driver) (t : Topic) : Prop where
  joining : ∀ c : Channel, d.state.protocol.channels[t]? = some c → c.state = .joining →
    d.state.protocol.pending[c.joinRef]? = some (.join t) ∧
    d.state.pendingJoins[c.joinRef]? = some t ∧
    ∃ timer ∈ d.connection.operationTimeouts, ∃ duration, timer.value = .join t c.joinRef duration
  leaving : ∀ c : Channel, d.state.protocol.channels[t]? = some c → c.state = .leaving →
    ∃ r : Reference, d.state.protocol.pending[r]? = some (.leave t) ∧ r ∈ d.state.pendingLeaves ∧
      ∃ timer ∈ d.connection.operationTimeouts, ∃ duration, timer.value = .leave t r duration

/-- A rejoin timer of the topic is outstanding. -/
def Rejoining (d : Driver) (t : Topic) : Prop := ∃ timer ∈ d.connection.rejoins, timer.value = t

/-- The record's flags are backed by a timer and a load. -/
def Flagged (d : Driver) (t : Topic) : Prop :=
  ∀ channel : ChannelRecord, d.record t = some channel →
    (channel.rejoinScheduled = true → d.Rejoining t) ∧
    ∀ id, channel.activePayload = some id → (t, id) ∈ d.connection.payloads

/-- The protocol's channel is joining, joined or leaving. -/
def Active (d : Driver) (t : Topic) : Prop :=
  (d.state.protocol.channelState t).any ChannelState.active = true

/-- A wanted channel is active, or loads its payload, or waits for a rejoin timer. -/
def Wanted (d : Driver) (t : Topic) : Prop :=
  ∀ channel : ChannelRecord, d.record t = some channel → channel.desired = true →
    d.Active t ∨ channel.activePayload.isSome = true ∨ d.Rejoining t

/-- A leave is deferred only while the channel is joining. -/
def DeferredWhileJoining (d : Driver) (t : Topic) : Prop :=
  ∀ channel : ChannelRecord, d.record t = some channel → channel.deferredLeave.isSome = true →
    d.state.protocol.channelState t = some .joining

/-! ### What other topics' handlers keep

A handler confined to another topic takes away nothing that this one's channel rests on. -/

section
variable {net rec : Option Topic} {d d' d'' : Driver} {t : Topic}

theorem Kept.channelState (h : Kept net rec d d') (hn : net ≠ some t) :
    d'.state.protocol.channelState t = d.state.protocol.channelState t := by
  rw [Protocol.channelState, Protocol.channelState, h.channel t hn]

theorem Kept.tracked (h : Kept net rec d d') (hn : net ≠ some t) (ht : d.Tracked t) :
    d'.Tracked t := by
  constructor
  · intro c hc hs
    rw [h.channel t hn] at hc
    obtain ⟨hp, hj, timer, hm, duration, hv⟩ := ht.joining c hc hs
    exact ⟨h.requests t _ _ hn (.inl rfl) hp, h.joins t _ hn hp hj, timer,
      h.timers timer hm (by rw [hv]; exact hn), duration, hv⟩
  · intro c hc hs
    rw [h.channel t hn] at hc
    obtain ⟨r, hp, hl, timer, hm, duration, hv⟩ := ht.leaving c hc hs
    exact ⟨r, h.requests t _ _ hn (.inr rfl) hp, h.leaves t r hn hp hl, timer,
      h.timers timer hm (by rw [hv]; exact hn), duration, hv⟩

/-- What leaves the protocol alone leaves it alone on every topic. -/
theorem Kept.channelState_eq (h : Kept none rec d d') (t : Topic) :
    d'.state.protocol.channelState t = d.state.protocol.channelState t :=
  h.channelState (Option.some_ne_none t).symm

theorem Kept.tracked_of (h : Kept none rec d d') (ht : d.Tracked t) : d'.Tracked t :=
  h.tracked (Option.some_ne_none t).symm ht

theorem Kept.rejoining (h : Kept net rec d d') (hn : net ≠ some t) (ht : d.Rejoining t) :
    d'.Rejoining t := by
  obtain ⟨timer, hm, rfl⟩ := ht
  exact ⟨timer, h.rejoins timer hm hn, rfl⟩

/-- A record that kept its flags. -/
theorem Kept.record (h : Kept net rec d d') (hr : rec ≠ some t) {channel' : ChannelRecord}
    (hc : d'.record t = some channel') :
    ∃ channel, d.record t = some channel ∧ channel'.flags = channel.flags := by
  have := h.records t hr
  rw [hc] at this
  obtain ⟨channel, hrec, hf⟩ := Option.map_eq_some_iff.mp this.symm
  exact ⟨channel, hrec, hf.symm⟩

theorem Kept.flagged (h : Kept net rec d d') (hn : net ≠ some t) (hr : rec ≠ some t)
    (ht : d.Flagged t) : d'.Flagged t := by
  intro channel' hc
  obtain ⟨channel, hrec, hf⟩ := h.record hr hc
  simp only [ChannelRecord.flags, Prod.mk.injEq] at hf
  obtain ⟨hs, hp⟩ := ht channel hrec
  refine ⟨fun hj => h.rejoining hn (hs (by rw [← hf.2.2.1]; exact hj)), fun id ha => ?_⟩
  exact h.payloads t id hn (hp id (by rw [← hf.2.1]; exact ha))

theorem Kept.wanted (h : Kept net rec d d') (hn : net ≠ some t) (hr : rec ≠ some t)
    (ht : d.Wanted t) : d'.Wanted t := by
  intro channel' hc hd
  obtain ⟨channel, hrec, hf⟩ := h.record hr hc
  simp only [ChannelRecord.flags, Prod.mk.injEq] at hf
  rcases ht channel hrec (by rw [← hf.1]; exact hd) with ha | ha | ha
  · refine .inl ?_
    rw [Active, h.channelState hn]
    exact ha
  · exact .inr (.inl (by rw [hf.2.1]; exact ha))
  · exact .inr (.inr (h.rejoining hn ha))

theorem Kept.deferred (h : Kept net rec d d') (hn : net ≠ some t) (hr : rec ≠ some t)
    (ht : d.DeferredWhileJoining t) : d'.DeferredWhileJoining t := by
  intro channel' hc hd
  obtain ⟨channel, hrec, hf⟩ := h.record hr hc
  simp only [ChannelRecord.flags, Prod.mk.injEq] at hf
  rw [h.channelState hn]
  exact ht channel hrec (by rw [← hf.2.2.2]; exact hd)

end

/-! ### Steady steps

A handler is sound if it is confined to its topic and keeps what has to be said of that one. -/

/-- What a step keeps of a topic: a wanted channel stays in progress if `w`, and a deferred
leave stays with its join if `f`. -/
structure Steady (w f : Prop) (t : Topic) (d d' : Driver) : Prop where
  tracked : d.Tracked t → d'.Tracked t
  flagged : d.Flagged t → d'.Flagged t
  wanted : w → d.Flagged t → d.Wanted t → d'.Wanted t
  deferred : f → d.DeferredWhileJoining t → d'.DeferredWhileJoining t

section
variable {w f w' f' : Prop} {net rec : Option Topic} {d d' d'' : Driver} {t : Topic}

theorem Kept.steady (h : Kept net rec d d') (hn : net ≠ some t) (hr : rec ≠ some t) :
    Steady w f t d d' where
  tracked := h.tracked hn
  flagged := h.flagged hn hr
  wanted _ _ := h.wanted hn hr
  deferred _ := h.deferred hn hr

theorem Steady.trans (h : Steady w f t d d') (h' : Steady w' f' t d' d'') (hw : w → w')
    (hf : f → f') : Steady w f t d d'' where
  tracked ht := h'.tracked (h.tracked ht)
  flagged ht := h'.flagged (h.flagged ht)
  wanted hc hfl hw' := h'.wanted (hw hc) (h.flagged hfl) (h.wanted hc hfl hw')
  deferred hc hd := h'.deferred (hf hc) (h.deferred hc hd)

end

/-- What a step keeps of every topic, as long as references are new. -/
structure Sound (w f : Topic → Prop) (d d' : Driver) : Prop where
  moved : d.Moved d'
  steady : d.state.protocol.Numbered → d'.state.protocol.allocated < 2 ^ 64 → d.Owned →
    d'.phase = d.phase ∧ d'.Owned ∧ ∀ t, Steady (w t) (f t) t d d'

section
variable {w f w' f' : Topic → Prop} {d d' d'' : Driver}

theorem Sound.trans (h : Sound w f d d') (h' : Sound w' f' d' d'') (hw : ∀ t, w t → w' t)
    (hf : ∀ t, f t → f' t) : Sound w f d d'' := by
  refine ⟨h.moved.trans h'.moved, fun hn hb ho => ?_⟩
  have hb' : d'.state.protocol.allocated < 2 ^ 64 :=
    Nat.lt_of_le_of_lt (Protocol.Moves.grows h'.moved) hb
  obtain ⟨hp, ho', hs⟩ := h.steady hn hb' ho
  obtain ⟨hp', ho'', hs'⟩ := h'.steady (hn.moves h.moved hb') hb ho'
  exact ⟨hp'.trans hp, ho'', fun t => (hs t).trans (hs' t) (hw t) (hf t)⟩

/-- A step that takes nothing from anybody. -/
theorem Confined.sound (h : Confined none none d d') : Sound w f d d' :=
  ⟨h.moved, fun hn hb ho =>
    ⟨(h.kept hn hb).phase, (h.kept hn hb).owned ho, fun _ => (h.kept hn hb).steady nofun nofun⟩⟩

theorem Kept.sound (hm : d.Moved d') (h : Kept none none d d') : Sound w f d d' :=
  (h.confined hm).sound

theorem Sound.refl (w f : Topic → Prop) (d : Driver) : Sound w f d d :=
  (Confined.refl none none d).sound

/-- A step that takes nothing from anybody may follow. -/
theorem Sound.confined (h : Sound w f d d') (h' : Confined none none d' d'') : Sound w f d d'' :=
  h.trans h'.sound (fun _ h => h) fun _ h => h

theorem Sound.kept (h : Sound w f d d') (hm : d'.Moved d'') (h' : Kept none none d' d'') :
    Sound w f d d'' :=
  h.confined (h'.confined hm)

theorem Sound.emitAll (h : Sound w f d d') {effects : List Effect} :
    Sound w f d (d'.emitAll effects) :=
  h.kept (moved_of_eq rfl) (kept_emitAll ..)

theorem Sound.sendFrame (h : Sound w f d d') (env : Env) (served : List RequestId)
    (frame : Frame) : Sound w f d (d'.sendFrame env served frame).1 :=
  h.kept (moved_of_eq (by simp)) (kept_sendFrame ..)

/-- Work on the record of one topic. -/
theorem Kept.sound_of_record {topic : Topic} (hm : d.Moved d') (h : Kept none (some topic) d d')
    (hown : Steady (w topic) (f topic) topic d d') : Sound w f d d' := by
  refine ⟨hm, fun _ _ ho => ⟨h.phase, h.owned ho, fun t => ?_⟩⟩
  by_cases ht : t = topic
  · rw [ht]
    exact hown
  · exact h.steady nofun fun he => ht (Option.some.inj he).symm

/-- A step confined to one topic is steady when it is for that topic. -/
theorem Confined.sound_of_own {topic : Topic} (h : Confined (some topic) (some topic) d d')
    (hown : Kept (some topic) (some topic) d d' → d.Owned → Steady (w topic) (f topic) topic d d') :
    Sound w f d d' := by
  refine ⟨h.moved, fun hn hb ho => ?_⟩
  have hk := h.kept hn hb
  refine ⟨hk.phase, hk.owned ho, fun t => ?_⟩
  by_cases ht : t = topic
  · rw [ht]
    exact hown hk ho
  · have hne : some topic ≠ some t := fun he => ht (Option.some.inj he).symm
    exact hk.steady hne hne

end

end Driver
end PhoenixChannel.Client
