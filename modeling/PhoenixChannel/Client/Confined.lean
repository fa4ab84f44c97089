import PhoenixChannel.Client.ProtocolMoves

/-! Handlers concern one topic.

`Confined net rec d d'` says that from `d` to `d'` only the topic `net` may lose its
channel, requests and timers, and only the topic `rec` may have its record changed. Every
handler is confined to its topic, so what is proved of one topic needs the handlers of that
topic only.

The facts rest on references being new, so they come under the condition that the counter
has not wrapped. -/
namespace PhoenixChannel.Client
open PhoenixChannel.Runtime Library
open Protocol (Move Moves)

/-- What the record says about what is in progress. -/
def ChannelRecord.flags (channel : ChannelRecord) : Bool × Option UInt64 × Bool × Bool :=
  (channel.desired, channel.activePayload, channel.rejoinScheduled, channel.deferredLeave.isSome)

namespace Driver

/-- The deadline's reference was handed out, and belongs to the deadline's topic. -/
def OwnedBy (d : Driver) : OperationTimeout → Prop
  | .join topic r _ =>
    d.state.protocol.Issued r ∧ ∀ t : Topic, d.state.pendingJoins[r]? = some t → t = topic
  | .leave topic r _ =>
    d.state.protocol.Issued r ∧
      ∀ t : Topic, d.state.protocol.pending[r]? = some (.leave t) → t = topic

/-- Every deadline is its topic's own. -/
def Owned (d : Driver) : Prop :=
  ∀ timer ∈ d.connection.operationTimeouts, d.OwnedBy timer.value

/-- Requests under new references and deadlines of their own keep deadlines apart. -/
theorem Owned.grow {d d' : Driver} (h : d.Owned)
    (ha : d.state.protocol.allocated ≤ d'.state.protocol.allocated)
    (ht : ∀ timer ∈ d'.connection.operationTimeouts,
      timer ∈ d.connection.operationTimeouts ∨ d'.OwnedBy timer.value)
    (hj : ∀ (r : Reference) (t : Topic), d.state.protocol.Issued r →
      d'.state.pendingJoins[r]? = some t → d.state.pendingJoins[r]? = some t)
    (hl : ∀ (r : Reference) (t : Topic), d.state.protocol.Issued r →
      d'.state.protocol.pending[r]? = some (.leave t) →
      d.state.protocol.pending[r]? = some (.leave t)) : d'.Owned := by
  intro timer hm
  rcases ht timer hm with hm | hown
  · have hown := h timer hm
    cases htv : timer.value with
    | join topic r duration =>
      rw [htv] at hown
      exact ⟨hown.1.mono ha, fun t hr => hown.2 t (hj r t hown.1 hr)⟩
    | leave topic r duration =>
      rw [htv] at hown
      exact ⟨hown.1.mono ha, fun t hr => hown.2 t (hl r t hown.1 hr)⟩
  · exact hown

/-- What stays as it is, in the loop and for the topics other than `net` and `rec`. -/
structure Kept (net rec : Option Topic) (d d' : Driver) : Prop where
  phase : d'.phase = d.phase
  channel : ∀ t : Topic, net ≠ some t →
    d'.state.protocol.channels[t]? = d.state.protocol.channels[t]?
  requests : ∀ (t : Topic) (r : Reference) (x : Pending), net ≠ some t → x = .join t ∨ x = .leave t →
    d.state.protocol.pending[r]? = some x → d'.state.protocol.pending[r]? = some x
  joins : ∀ (t : Topic) (r : Reference), net ≠ some t →
    d.state.protocol.pending[r]? = some (.join t) →
    d.state.pendingJoins[r]? = some t → d'.state.pendingJoins[r]? = some t
  leaves : ∀ (t : Topic) (r : Reference), net ≠ some t →
    d.state.protocol.pending[r]? = some (.leave t) →
    r ∈ d.state.pendingLeaves → r ∈ d'.state.pendingLeaves
  timers : ∀ timer ∈ d.connection.operationTimeouts, net ≠ some timer.value.topic →
    timer ∈ d'.connection.operationTimeouts
  rejoins : ∀ timer ∈ d.connection.rejoins, net ≠ some timer.value → timer ∈ d'.connection.rejoins
  payloads : ∀ (t : Topic) (id : UInt64), net ≠ some t →
    (t, id) ∈ d.connection.payloads → (t, id) ∈ d'.connection.payloads
  records : ∀ t : Topic, rec ≠ some t →
    (d'.record t).map ChannelRecord.flags = (d.record t).map ChannelRecord.flags
  owned : d.Owned → d'.Owned

/-- From `d` to `d'` nothing is lost but of the topics `net` and `rec`. -/
structure Confined (net rec : Option Topic) (d d' : Driver) : Prop where
  moved : d.Moved d'
  kept : d.state.protocol.Numbered → d'.state.protocol.allocated < 2 ^ 64 → Kept net rec d d'

section
variable {net rec : Option Topic} {d d' d'' : Driver}

/-- Nothing is lost where nothing happens. -/
theorem Kept.refl (net rec : Option Topic) (d : Driver) : Kept net rec d d where
  phase := rfl
  channel _ _ := rfl
  requests _ _ _ _ _ h := h
  joins _ _ _ _ h := h
  leaves _ _ _ _ h := h
  timers _ h _ := h
  rejoins _ h _ := h
  payloads _ _ _ h := h
  records _ _ := rfl
  owned h := h

/-- Two steps on the same topics keep what both keep. -/
theorem Kept.trans (h : Kept net rec d d') (h' : Kept net rec d' d'') : Kept net rec d d'' where
  phase := h'.phase.trans h.phase
  channel t ht := (h'.channel t ht).trans (h.channel t ht)
  requests t r x ht hx hp := h'.requests t r x ht hx (h.requests t r x ht hx hp)
  joins t r ht hp hj :=
    h'.joins t r ht (h.requests t r _ ht (.inl rfl) hp) (h.joins t r ht hp hj)
  leaves t r ht hp hl :=
    h'.leaves t r ht (h.requests t r _ ht (.inr rfl) hp) (h.leaves t r ht hp hl)
  timers timer hm ht := h'.timers timer (h.timers timer hm ht) ht
  rejoins timer hm ht := h'.rejoins timer (h.rejoins timer hm ht) ht
  payloads t id ht hm := h'.payloads t id ht (h.payloads t id ht hm)
  records t ht := (h'.records t ht).trans (h.records t ht)
  owned ho := h'.owned (h.owned ho)

/-- A handler that concerns no topic is confined to any. -/
theorem Kept.weaken {net' rec' : Option Topic} (h : Kept net rec d d')
    (hn : net = none ∨ net = net') (hr : rec = none ∨ rec = rec') : Kept net' rec' d d' := by
  have hnet : ∀ t, net' ≠ some t → net ≠ some t := by
    intro t ht
    rcases hn with rfl | rfl
    · nofun
    · exact ht
  have hrec : ∀ t, rec' ≠ some t → rec ≠ some t := by
    intro t ht
    rcases hr with rfl | rfl
    · nofun
    · exact ht
  exact
    { phase := h.phase
      channel := fun t ht => h.channel t (hnet t ht)
      requests := fun t r x ht => h.requests t r x (hnet t ht)
      joins := fun t r ht => h.joins t r (hnet t ht)
      leaves := fun t r ht => h.leaves t r (hnet t ht)
      timers := fun timer hm ht => h.timers timer hm (hnet _ ht)
      rejoins := fun timer hm ht => h.rejoins timer hm (hnet _ ht)
      payloads := fun t id ht => h.payloads t id (hnet t ht)
      records := fun t ht => h.records t (hrec t ht)
      owned := h.owned }

theorem Confined.refl (net rec : Option Topic) (d : Driver) : Confined net rec d d :=
  ⟨.refl, fun _ _ => .refl net rec d⟩

theorem Confined.trans (h : Confined net rec d d') (h' : Confined net rec d' d'') :
    Confined net rec d d'' := by
  refine ⟨h.moved.trans h'.moved, fun hn hb => ?_⟩
  have hb' : d'.state.protocol.allocated < 2 ^ 64 :=
    Nat.lt_of_le_of_lt (Protocol.Moves.grows h'.moved) hb
  exact (h.kept hn hb').trans (h'.kept (hn.moves h.moved hb') hb)

theorem Confined.weaken {net' rec' : Option Topic} (h : Confined net rec d d')
    (hn : net = none ∨ net = net') (hr : rec = none ∨ rec = rec') : Confined net' rec' d d' :=
  ⟨h.moved, fun hnum hb => (h.kept hnum hb).weaken hn hr⟩

theorem Kept.confined (hm : d.Moved d') (h : Kept net rec d d') : Confined net rec d d' :=
  ⟨hm, fun _ _ => h⟩

/-- Work on one record that may also start loads and timers. -/
theorem Kept.of_record (hph : d'.phase = d.phase) (hp : d'.state.protocol = d.state.protocol)
    (hj : d'.state.pendingJoins = d.state.pendingJoins)
    (hl : d'.state.pendingLeaves = d.state.pendingLeaves)
    (ho : d'.connection.operationTimeouts = d.connection.operationTimeouts)
    (hr : d.connection.rejoins ⊆ d'.connection.rejoins)
    (hpl : d.connection.payloads ⊆ d'.connection.payloads)
    (hrec : ∀ t : Topic, rec ≠ some t →
      (d'.record t).map ChannelRecord.flags = (d.record t).map ChannelRecord.flags) :
    Kept none rec d d' where
  phase := hph
  channel t _ := by rw [hp]
  requests t r x _ _ h := by rw [hp]; exact h
  joins t r _ _ h := by rw [hj]; exact h
  leaves t r _ _ h := by rw [hl]; exact h
  timers timer hm _ := by rw [ho]; exact hm
  rejoins timer hm _ := hr hm
  payloads t id _ hm := hpl hm
  records := hrec
  owned h := h.grow (Nat.le_of_eq (by rw [hp])) (fun timer hm => .inl (by rw [← ho]; exact hm))
    (fun r t _ hr => by rw [← hj]; exact hr) (fun r t _ hr => by rw [← hp]; exact hr)

end

/-! ### Records

A handler that only writes its topic's record takes nothing from anybody. -/

section
variable (env : Env) (d : Driver) (topic : Topic)

theorem kept_emitAll (effects : List Effect) : Kept none none d (d.emitAll effects) :=
  .of_record rfl rfl rfl rfl rfl (List.Subset.refl _) (List.Subset.refl _) fun _ _ => rfl

theorem kept_setRecord (channel : ChannelRecord) :
    Kept none (some topic) d (d.setRecord topic channel) := by
  refine .of_record rfl rfl rfl rfl rfl (List.Subset.refl _) (List.Subset.refl _) fun t ht => ?_
  rw [record_setRecord_eq, if_neg fun he => ht (congrArg some he.symm)]

/-- A record written with the flags it had. -/
theorem kept_setRecord_flags {d : Driver} {topic : Topic} {channel : ChannelRecord}
    (channel' : ChannelRecord) (hr : d.record topic = some channel) (hf : channel'.flags = channel.flags) :
    Kept none none d (d.setRecord topic channel') := by
  refine .of_record rfl rfl rfl rfl rfl (List.Subset.refl _) (List.Subset.refl _) fun t _ => ?_
  rw [record_setRecord_eq]
  by_cases ht : t = topic
  · rw [if_pos ht, ht, hr, Option.map_some, Option.map_some, hf]
  · rw [if_neg ht]

/-- A status is not among the flags. -/
theorem kept_setStatus (status : ChannelStatus) :
    Kept none none d (d.setStatus topic status) := by
  cases hr : d.record topic with
  | none =>
    rw [setStatus_of_none hr]
    exact .refl ..
  | some channel =>
    rw [setStatus_of_some hr]
    exact kept_setRecord_flags _ hr rfl

theorem kept_emitChannel (event : ChannelEvent) :
    Kept none none d (d.emitChannel topic event) := by
  rw [emitChannel_eq]
  exact kept_emitAll ..

theorem kept_answerLeave (pending : Option PendingLeave) (result : Except ClientError Success) :
    Kept none none d (d.answerLeave pending result) := by
  rw [answerLeave_eq]
  exact kept_emitAll ..

theorem kept_stopChannel : Kept none (some topic) d (d.stopChannel topic) := by
  cases hr : d.record topic with
  | none =>
    rw [stopChannel_of_none hr]
    exact .refl ..
  | some channel =>
    rw [stopChannel_of_some hr]
    refine (kept_setRecord ..).trans ((kept_emitAll ..).weaken (.inl rfl) (.inl rfl))

theorem kept_queue (push : QueuedPush) : Kept none none d (d.queue env topic push) := by
  rcases queue_cases env d topic push with ⟨error, -, he⟩ | ⟨channel, hr, -, -, he⟩
  · rw [he]
    exact kept_emitAll ..
  · rw [he]
    exact kept_setRecord_flags _ hr rfl

/-- A new payload is on its way for the topic, and its record says so. -/
theorem kept_loadPayload : Kept none (some topic) d (d.loadPayload topic) := by
  rcases loadPayload_cases d topic with ⟨-, he⟩ | ⟨channel, -, -, -, -, he⟩
  · rw [he]
    exact .refl ..
  · rw [he]
    refine .of_record rfl rfl rfl rfl rfl (List.Subset.refl _)
      (List.subset_append_left ..) fun t ht => ?_
    have hne : t ≠ topic := fun he => ht (congrArg some he.symm)
    rw [emitAll_record, trackLoad_record, if_neg hne]

/-- A new rejoin is due for the topic, and its record says so. -/
theorem kept_scheduleRejoin : Kept none (some topic) d (d.scheduleRejoin env topic) := by
  rcases scheduleRejoin_cases env d topic with ⟨-, he⟩ | ⟨channel, -, -, -, he⟩
  · rw [he]
    exact .refl ..
  · rw [he]
    refine .of_record rfl rfl rfl rfl rfl (List.subset_append_left ..)
      (List.Subset.refl _) fun t ht => ?_
    have hne : t ≠ topic := fun he => ht (congrArg some he.symm)
    rw [trackRejoin_record, if_neg hne]

/-- A cancelled leave stays deferred. -/
theorem kept_cancelUnsent {d : Driver} {topic : Topic} {channel : ChannelRecord}
    (hr : d.record topic = some channel) (id : RequestId) :
    Kept none none d (d.cancelUnsent topic channel id) := by
  cases d.cancelUnsent_cases topic channel id with
  | leave pending hd hid he =>
    have hset := kept_setRecord_flags
      { channel with deferredLeave := some { pending with response := false } } hr
      (by simp [ChannelRecord.flags, hd])
    rw [he]
    exact hset.trans (kept_emitAll ..)
  | push push hf he =>
    have hset := kept_setRecord_flags
      { channel with queued := removeQueued id channel.queued } hr rfl
    rw [he]
    exact hset.trans (kept_emitAll ..)
  | nothing hd hq he =>
    rw [he]
    exact .refl ..

theorem kept_sendFrame (served : List RequestId) (frame : Frame) :
    Kept none none d (d.sendFrame env served frame).1 := by
  have hs := sendFrame_state env d served frame
  have hc := sendFrame_connection env d served frame
  refine .of_record (sendFrame_phase ..) (by rw [hs]) (by rw [hs]) (by rw [hs]) (by rw [hc])
      (by rw [hc]; exact List.Subset.refl _)
    (by rw [hc]; exact List.Subset.refl _) fun t _ => ?_
  rw [record, hs, record]

/-- A record is removed. -/
theorem kept_eraseRecord : Kept none (some topic) d
    { d with state := { d.state with channels := d.state.channels.erase topic } } := by
  refine .of_record rfl rfl rfl rfl rfl (List.Subset.refl _) (List.Subset.refl _) fun t ht => ?_
  show Option.map _ (d.state.channels.erase topic)[t]? = _
  rw [Table.lookup_erase, if_neg fun he => ht (congrArg some he.symm)]
  rfl

/-! ### Requests

A new request goes under a reference that was never handed out, so it hides no other. One that is
settled takes away what its own reference held. -/

/-- A push that is sent, queued or answered takes nothing from any topic: its request is none of a join or
leave. -/
theorem confined_pushed {d d' : Driver} (h : d.Pushed d') : Confined none none d d' := by
  refine ⟨h.moved, fun hn hb => ?_⟩
  have hpend : ∀ (r : Reference) (x : Pending), d.state.protocol.pending[r]? = some x →
      d'.state.protocol.pending[r]? = some x := by
    intro r x hx
    rcases h.pending hn hb r with he | ⟨hnew, -⟩
    · rw [he, hx]
    · exact absurd (hn.pending r (Table.mem_of_lookup hx)) hnew
  have hback : ∀ (r : Reference) (t : Topic), d'.state.protocol.pending[r]? = some (.leave t) →
      d.state.protocol.pending[r]? = some (.leave t) := by
    intro r t hx
    rcases h.pending hn hb r with he | ⟨-, topic, event, he⟩
    · rw [← he, hx]
    · cases he.symm.trans hx
  exact
    { phase := h.phase
      channel := fun t _ => by rw [h.channels]
      requests := fun t r x _ _ hx => hpend r x hx
      joins := fun t r _ _ hj => by rw [h.joins]; exact hj
      leaves := fun t r _ _ hl => by rw [h.leaves]; exact hl
      timers := fun timer hm _ => by rw [h.connection]; exact hm
      rejoins := fun timer hm _ => by rw [h.connection]; exact hm
      payloads := fun t id _ hm => by rw [h.connection]; exact hm
      records := fun t _ => by
        have := congrArg (Option.map ChannelRecord.flags) (h.records t)
        simp only [Option.map_map] at this
        exact this
      owned := fun ho => ho.grow (Protocol.Moves.grows h.moved)
        (fun timer hm => .inl (by rw [← h.connection]; exact hm))
        (fun r t _ hr => by rw [← h.joins]; exact hr) (fun r t _ hr => hback r t hr) }

/-- Requests and joins in flight of one topic are dropped, and its channel is. -/
theorem kept_discardChannel : Kept (some topic) none d (d.discardChannel topic) := by
  have hpend : ∀ (r : Reference) (x : Pending),
      (d.discardChannel topic).state.protocol.pending[r]? = some x ↔
        d.state.protocol.pending[r]? = some x ∧ x.topic? ≠ some topic := by
    intro r x
    show (d.state.protocol.pending.filter fun _ pending => pending.topic? != some topic)[r]? = _ ↔ _
    rw [Std.ExtTreeMap.getElem?_filter', Option.filter_eq_some_iff]
    simp
  exact
    { Kept.refl (some topic) none d with
      channel := fun t ht => by
        show (d.state.protocol.channels.erase topic)[t]? = _
        rw [Table.lookup_erase, if_neg fun he => ht (congrArg some he.symm)]
      requests := fun t r x ht hx hr => (hpend r x).mpr ⟨hr, fun he => by
        rcases hx with rfl | rfl <;> exact ht he.symm⟩
      owned := fun ho => ho.grow (Nat.le_refl _) (fun timer hm => .inl hm) (fun _ _ _ h => h)
        (fun r t _ hr => ((hpend r _).mp hr).1) }

/-- The joins that are forgotten are the topic's. -/
theorem kept_forgetJoins : Kept (some topic) none d (d.forgetJoins topic) :=
  { Kept.refl (some topic) none d with
    joins := fun t r ht _ hj => by
      rw [forgetJoins_lookup, hj]
      have hne : t ≠ topic := fun he => ht (congrArg some he.symm)
      simp [Option.filter, hne]
    owned := fun ho => ho.grow (Nat.le_refl _) (fun timer hm => .inl hm)
      (fun r t _ hr => by
        rw [forgetJoins_lookup] at hr
        exact Option.eq_some_of_filter_eq_some hr)
      (fun _ _ _ h => h) }

/-- A join in flight is settled: its reference is not pending any more, or it is the topic's own. -/
theorem kept_eraseJoin {net : Option Topic} {d : Driver} {reference : Reference}
    (h : ∀ t : Topic, net ≠ some t → d.state.protocol.pending[reference]? = some (.join t) →
      d.state.pendingJoins[reference]? ≠ some t) :
    Kept net none d (d.eraseJoin reference) := by
  have hlook : ∀ r : Reference, (d.eraseJoin reference).state.pendingJoins[r]? =
      if r = reference then none else d.state.pendingJoins[r]? :=
    Table.lookup_erase d.state.pendingJoins reference
  exact
    { Kept.refl net none d with
      joins := fun t r ht hp hj => by
        rw [hlook, if_neg, hj]
        rintro rfl
        exact h t ht hp hj
      owned := fun ho => ho.grow (Nat.le_refl _) (fun timer hm => .inl hm)
        (fun r t _ hr => by
          rw [hlook] at hr
          split at hr
          · cases hr
          · exact hr)
        (fun _ _ _ h => h) }

/-- A leave in flight is settled: its reference is not pending any more, or it is the topic's own. -/
theorem kept_eraseLeave {net : Option Topic} {d : Driver} {reference : Reference}
    (h : ∀ t : Topic, net ≠ some t → d.state.protocol.pending[reference]? ≠ some (.leave t)) :
    Kept net none d (d.eraseLeave reference) :=
  { Kept.refl net none d with
    leaves := fun t r ht hp hl => by
      show r ∈ d.state.pendingLeaves.erase reference
      rw [Std.ExtTreeMap.mem_erase]
      refine ⟨fun he => ?_, hl⟩
      rw [Std.LawfulEqOrd.eq_of_compare he] at h
      exact h t ht hp
    owned := fun ho => ho }

/-- A protocol operation that drops no join or leave but of the topic `net`. -/
theorem confined_setProtocol {net : Option Topic} {d : Driver} {p : Protocol}
    (hm : Move d.state.protocol p)
    (hc : ∀ t : Topic, net ≠ some t → p.channels[t]? = d.state.protocol.channels[t]?)
    (hr : d.state.protocol.Numbered → p.allocated < 2 ^ 64 →
      ∀ (t : Topic) (r : Reference) (x : Pending), net ≠ some t → x = .join t ∨ x = .leave t →
        d.state.protocol.pending[r]? = some x → p.pending[r]? = some x)
    (hl : d.state.protocol.Numbered → p.allocated < 2 ^ 64 → ∀ (r : Reference) (t : Topic),
      d.state.protocol.Issued r → p.pending[r]? = some (.leave t) →
        d.state.protocol.pending[r]? = some (.leave t)) :
    Confined net none d (d.setProtocol p) := by
  refine ⟨moved_of_move hm, fun hn hb => ?_⟩
  exact
    { phase := rfl
      channel := hc
      requests := hr hn hb
      joins := fun _ _ _ _ h => h
      leaves := fun _ _ _ _ h => h
      timers := fun _ hm _ => hm
      rejoins := fun _ hm _ => hm
      payloads := fun _ _ _ hm => hm
      records := fun _ _ => rfl
      owned := fun ho => ho.grow hm.grows (fun timer hm => .inl hm) (fun _ _ _ h => h)
        (hl hn hb) }

/-- A heartbeat takes the next reference, which no request has. -/
theorem confined_heartbeat (d : Driver) :
    Confined none none d (d.setProtocol d.state.protocol.heartbeat.2) := by
  refine confined_setProtocol .heartbeat (fun _ _ => rfl) (fun hn hb t r x _ _ hr => ?_)
    (fun _ _ r t _ hr => ?_)
  · rw [Protocol.heartbeat_eq] at hb ⊢
    rw [Table.lookup_insert, if_neg, hr]
    rintro rfl
    exact hn.fresh hb (Table.mem_of_lookup hr)
  · rw [Protocol.heartbeat_eq, Table.lookup_insert] at hr
    split at hr
    · cases hr
    · exact hr

theorem confined_trackPing (d : Driver) (id : RequestId) :
    Confined none none d (d.trackPing id) :=
  (confined_heartbeat d).trans (Kept.confined (moved_of_eq rfl)
    (.of_record rfl rfl rfl rfl rfl (List.Subset.refl _) (List.Subset.refl _) fun _ _ => rfl))

theorem confined_trackHeartbeat (d : Driver) : Confined none none d d.trackHeartbeat :=
  (confined_heartbeat d).trans (Kept.confined (moved_of_eq rfl)
    (.of_record rfl rfl rfl rfl rfl (List.Subset.refl _) (List.Subset.refl _) fun _ _ => rfl))

/-- Erasing one request leaves those of another kind. -/
theorem erase_pending {p : Protocol} {r r' : Reference} {x y : Pending}
    (hr : p.pending[r]? = some x) (hne : y ≠ x) :
    (p.pending.erase r)[r']? = some y ↔ p.pending[r']? = some y := by
  rw [Table.lookup_erase]
  by_cases he : r' = r
  · subst he
    simp only [if_true, hr, Option.some.injEq]
    exact ⟨nofun, fun h => absurd h.symm hne⟩
  · rw [if_neg he]

/-- Of a push that could not be sent only its own request is forgotten. -/
theorem confined_forgetPush (d : Driver) (r : Reference) :
    Confined none none d (d.setProtocol (d.state.protocol.forgetPush r).2) := by
  have hm := Move.forgetPush (p := d.state.protocol) r
  rcases Protocol.forgetPush_cases d.state.protocol r with ⟨topic, event, hr, he⟩ | he
  · rw [he] at hm ⊢
    refine confined_setProtocol hm (fun _ _ => rfl) (fun _ _ t r' x _ hx h => ?_) fun _ _ r' t _ h => ?_
    · exact (erase_pending hr (by rcases hx with rfl | rfl <;> nofun)).mpr h
    · exact (erase_pending (y := .leave t) hr nofun).mp h
  · rw [he]
    exact .refl ..

/-- Of a heartbeat that could not be sent only its own request is forgotten. -/
theorem confined_forgetHeartbeat (d : Driver) (r : Reference) :
    Confined none none d (d.setProtocol (d.state.protocol.forgetHeartbeat r).2) := by
  have hm := Move.forgetHeartbeat (p := d.state.protocol) r
  rcases Protocol.forgetHeartbeat_cases d.state.protocol r with ⟨hr, he⟩ | he
  · rw [he] at hm ⊢
    refine confined_setProtocol hm (fun _ _ => rfl) (fun _ _ t r' x _ hx h => ?_) fun _ _ r' t _ h => ?_
    · exact (erase_pending hr (by rcases hx with rfl | rfl <;> nofun)).mpr h
    · exact (erase_pending (y := .leave t) hr nofun).mp h
  · rw [he]
    exact .refl ..

/-- An incoming frame concerns the topic its event names. -/
theorem confined_receive {d : Driver} {frame : Frame} {event : ProtocolEvent} {p : Protocol}
    (h : d.state.protocol.receive frame = (.ok event, p)) :
    Confined event.concerns none d (d.setProtocol p) := by
  have hm := Move.receive (p := d.state.protocol) frame
  rw [h] at hm
  -- a settled request of one topic is not the pending join or leave of another
  have hsettle : ∀ {r : Reference} {x : Pending} {topic : Topic},
      d.state.protocol.pending[r]? = some x → x = .join topic ∨ x = .leave topic →
      ∀ (t : Topic) (r' : Reference) (y : Pending), some topic ≠ some t → y = .join t ∨ y = .leave t →
        d.state.protocol.pending[r']? = some y →
        (d.state.protocol.pending.erase r)[r']? = some y := by
    intro r x topic hr hx t r' y ht hy hr'
    refine (erase_pending hr ?_).mpr hr'
    rintro rfl
    rcases hx with rfl | rfl <;> rcases hy with hy | hy <;> cases hy <;> exact ht rfl
  have hchannel : ∀ (topic : Topic) (state : ChannelState) (t : Topic), some topic ≠ some t →
      (Protocol.setState d.state.protocol.channels topic state)[t]? =
        d.state.protocol.channels[t]? := by
    intro topic state t ht
    rw [Protocol.lookup_setState, if_neg fun he => ht (congrArg some he.symm)]
  have hback : ∀ (r : Reference), d.state.protocol.Numbered → p.allocated < 2 ^ 64 →
      ∀ (r' : Reference) (t : Topic), d.state.protocol.Issued r' →
        (d.state.protocol.pending.erase r)[r']? = some (.leave t) →
        d.state.protocol.pending[r']? = some (.leave t) := by
    intro r _ _ r' t _ hr
    rw [Table.lookup_erase] at hr
    split at hr
    · cases hr
    · exact hr
  have hex := Protocol.receive_explains h
  cases event with
  | joined topic r response =>
    obtain ⟨hr, rfl⟩ := hex
    exact confined_setProtocol hm (hchannel topic _) (fun _ _ => hsettle hr (.inl rfl)) (hback r)
  | joinError topic r response =>
    obtain ⟨hr, rfl⟩ := hex
    exact confined_setProtocol hm (hchannel topic _) (fun _ _ => hsettle hr (.inl rfl)) (hback r)
  | left topic r response =>
    obtain ⟨hr, rfl⟩ := hex
    refine confined_setProtocol hm (fun t ht => ?_) (fun _ _ => hsettle hr (.inr rfl)) (hback r)
    show (d.state.protocol.channels.erase topic)[t]? = _
    rw [Table.lookup_erase, if_neg fun he => ht (congrArg some he.symm)]
  | reply topic name r status response =>
    obtain ⟨-, -, hr, rfl⟩ := hex
    refine confined_setProtocol hm (fun _ _ => rfl) (fun _ _ t r' y _ hy hr' => ?_) (hback r)
    exact (erase_pending hr (by rcases hy with rfl | rfl <;> nofun)).mpr hr'
  | heartbeatAck r status =>
    obtain ⟨hr, rfl⟩ := hex
    refine confined_setProtocol hm (fun _ _ => rfl) (fun _ _ t r' y _ hy hr' => ?_) (hback r)
    exact (erase_pending hr (by rcases hy with rfl | rfl <;> nofun)).mpr hr'
  | channelClosed topic payload =>
    obtain ⟨-, -, -, rfl⟩ := hex
    exact confined_setProtocol hm (hchannel topic _) (fun _ _ _ _ _ _ _ h => h) (fun _ _ _ _ _ h => h)
  | channelError topic payload =>
    obtain ⟨-, -, -, rfl⟩ := hex
    exact confined_setProtocol hm (hchannel topic _) (fun _ _ _ _ _ _ _ h => h) (fun _ _ _ _ _ h => h)
  | message _ | staleMessage _ | unmatchedReply _ =>
    cases hex
    exact .refl ..
  | requestInterrupted topic name r => cases hex

/-- A leave of a joined channel. -/
theorem confined_leave {d : Driver} {topic : Topic} {channel : Channel}
    (hc : d.state.protocol.channels[topic]? = some channel) (hs : channel.state = .joined) :
    Confined (some topic) none d (d.setProtocol (d.state.protocol.leave topic).2) := by
  have hm := Move.leave (p := d.state.protocol) topic
  rw [Protocol.leave_of_joined hc hs] at hm ⊢
  refine confined_setProtocol hm (fun t ht => ?_) (fun hn hb t r x _ _ hr => ?_)
    fun hn hb r t hi hr => ?_
  · show (d.state.protocol.channels.insert topic _)[t]? = _
    rw [Table.lookup_insert, if_neg fun he => ht (congrArg some he.symm)]
  · rw [Table.lookup_insert, if_neg, hr]
    rintro rfl
    exact hn.fresh hb (Table.mem_of_lookup hr)
  · rw [Table.lookup_insert, if_neg] at hr
    · exact hr
    · rintro rfl
      exact Protocol.not_issued_nextText hn.unwrapped hb hi

/-- A leave of a joined channel that the driver waits for. -/
theorem confined_trackLeave {d : Driver} {topic : Topic} {channel : Channel} {pending : PendingLeave}
    (hc : d.state.protocol.channels[topic]? = some channel) (hs : channel.state = .joined) :
    Confined (some topic) none d (d.trackLeave topic pending) := by
  refine (confined_leave hc hs).trans ⟨moved_of_eq rfl, fun hn _ => ?_⟩
  have hp : (d.setProtocol (d.state.protocol.leave topic).2).state.protocol.pending[
      d.state.protocol.nextText]? = some (.leave topic) := by
    rw [setProtocol_protocol, Protocol.leave_of_joined hc hs, Table.lookup_insert, if_pos rfl]
  exact
    { Kept.refl (some topic) none (d.setProtocol (d.state.protocol.leave topic).2) with
      leaves := fun t r _ _ hl => by
        show r ∈ d.state.pendingLeaves.insert d.state.protocol.nextText pending
        rw [Std.ExtTreeMap.mem_insert]
        exact .inr hl
      timers := fun timer hm _ => List.mem_append_left _ hm
      owned := fun ho => ho.grow (Nat.le_refl _)
        (fun timer hm => by
          rcases List.mem_append.mp hm with hm | hm
          · exact .inl hm
          · cases List.mem_singleton.mp hm
            refine .inr ⟨hn.pending _ (Table.mem_of_lookup hp), fun t ht => ?_⟩
            cases hp.symm.trans ht
            rfl)
        (fun _ _ _ h => h) (fun _ _ _ h => h) }

/-- A join of a channel the protocol does not know is sent. -/
theorem confined_trackJoin {d : Driver} {topic : Topic} {params : Value} {channel : ChannelRecord}
    (hs : d.state.protocol.channelState topic = none) :
    Confined (some topic) (some topic) d (d.trackJoin topic params channel) := by
  have hp : (d.trackJoin topic params channel).state.protocol =
      (d.state.protocol.join topic params).2 := rfl
  refine ⟨?_, fun hn hb => ?_⟩
  · refine moved_of_move ?_
    rw [hp, ← Protocol.rejoin_of_unknown hs]
    exact .rejoin topic params
  rw [Protocol.join_of_unknown hs] at hp
  rw [hp] at hb
  have hfresh := Protocol.not_issued_nextText hn.unwrapped hb
  have hlook : ∀ r : Reference, (d.trackJoin topic params channel).state.protocol.pending[r]? =
      if r = d.state.protocol.nextText then some (.join topic) else d.state.protocol.pending[r]? := by
    intro r
    rw [hp, Table.lookup_insert]
  have hjoins : ∀ r : Reference, (d.trackJoin topic params channel).state.pendingJoins[r]? =
      if r = d.state.protocol.nextText then some topic else d.state.pendingJoins[r]? := by
    intro r
    show (d.state.pendingJoins.insert d.state.protocol.nextText topic)[r]? = _
    rw [Table.lookup_insert]
  have hold : ∀ r : Reference, d.state.protocol.Issued r → r ≠ d.state.protocol.nextText := by
    rintro r hi rfl
    exact hfresh hi
  exact
    { phase := rfl
      channel := fun t ht => by
        rw [hp]
        show (d.state.protocol.channels.insert topic _)[t]? = _
        rw [Table.lookup_insert, if_neg fun he => ht (congrArg some he.symm)]
      requests := fun t r x _ _ hr => by
        rw [hlook, if_neg (hold r (hn.pending r (Table.mem_of_lookup hr))), hr]
      joins := fun t r _ hr hj => by
        rw [hjoins, if_neg (hold r (hn.pending r (Table.mem_of_lookup hr))), hj]
      leaves := fun _ _ _ _ h => h
      timers := fun timer hm _ => List.mem_append_left _ hm
      rejoins := fun _ hm _ => hm
      payloads := fun _ _ _ hm => hm
      records := fun t ht => by
        show Option.map _ (d.state.channels.insert topic _)[t]? = _
        rw [Table.lookup_insert, if_neg fun he => ht (congrArg some he.symm)]
        rfl
      owned := fun ho => ho.grow (by rw [hp]; exact Nat.le_succ _)
        (fun timer hm => by
          rcases List.mem_append.mp hm with hm | hm
          · exact .inl hm
          · refine .inr ?_
            cases List.mem_singleton.mp hm
            refine ⟨Protocol.issued_nextText hn.unwrapped (by rw [hp]) (by rw [hp]; exact hb), ?_⟩
            intro t ht
            rw [hjoins, if_pos rfl] at ht
            cases ht
            rfl)
        (fun r t hi hr => by
          rw [hjoins, if_neg (hold r hi)] at hr
          exact hr)
        (fun r t hi hr => by
          rw [hlook, if_neg (hold r hi)] at hr
          exact hr) }

/-! ### What completed

A load, a timer or a deadline that has come is taken off its list before its handler runs. -/

/-- The payload that is taken was on its way for the topic. -/
theorem kept_takePayload (payloadId : UInt64) :
    Kept (some topic) none d (d.takePayload topic payloadId) :=
  { Kept.refl (some topic) none d with
    payloads := fun t id ht hm => by
      refine (List.mem_erase_of_ne ?_).mpr hm
      rintro he
      cases he
      exact ht rfl
    owned := fun ho => ho }

theorem kept_takeRejoin (timer : Timer Topic) :
    Kept (some timer.value) none d (d.takeRejoin timer) :=
  { Kept.refl (some timer.value) none d with
    rejoins := fun timer' hm ht => by
      refine (List.mem_erase_of_ne ?_).mpr hm
      rintro rfl
      exact ht rfl
    owned := fun ho => ho }

theorem kept_takeOperationTimeout (timer : Timer OperationTimeout) :
    Kept (some timer.value.topic) none d (d.takeOperationTimeout timer) :=
  { Kept.refl (some timer.value.topic) none d with
    timers := fun timer' hm ht => by
      refine (List.mem_erase_of_ne ?_).mpr hm
      rintro rfl
      exact ht rfl
    owned := fun ho timer' hm => ho timer' (List.mem_of_mem_erase hm) }

end

end Driver
end PhoenixChannel.Client
