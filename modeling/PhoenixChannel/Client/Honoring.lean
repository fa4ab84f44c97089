import PhoenixChannel.Client.Flushes
import PhoenixChannel.Client.Requests
import PhoenixChannel.Client.Steps

/-! Every handler honors its requests. -/
namespace PhoenixChannel.Client
open PhoenixChannel.Runtime Library
open Protocol (Move Moves)

namespace Driver

section
variable {L : Effect → Prop} {given hand : List Request} {d d' d'' : Driver} {topic : Topic}
  {effects : List Effect}

theorem Honors.andThen (h : Honors L given d d') (h' : Honors L [] d' d'') : Honors L given d d'' := by
  have ht := HonorsWith.trans h h'
  rwa [List.append_nil] at ht

theorem HonorsWith.after (h : HonorsWith L given hand d' d'') (h' : Honors L [] d d') :
    HonorsWith L given hand d d'' :=
  HonorsWith.trans h' h

theorem Honors.after (h : Honors L given d' d'') (h' : Honors L [] d d') : Honors L given d d'' :=
  HonorsWith.trans h' h

/-! ### Small steps

Emitting reports and writing flags move no request. -/

theorem Honors.setProtocol (h : Honors L given d d') {p : Protocol}
    (hm : Moves d'.state.protocol p) : Honors L given d (d'.setProtocol p) :=
  h.andThen (.of_quiet hm rfl rfl rfl rfl (.of_trace rfl))

theorem Honors.discardChannel (h : Honors L given d d') : Honors L given d (d'.discardChannel topic) :=
  h.setProtocol (.single (.discardChannel topic))

theorem Honors.forgetJoins (h : Honors L given d d') : Honors L given d (d'.forgetJoins topic) :=
  h.andThen (.of_quiet .refl rfl rfl rfl rfl (.of_trace rfl))

theorem Honors.eraseJoin (h : Honors L given d d') {reference : Reference} :
    Honors L given d (d'.eraseJoin reference) :=
  h.andThen (.of_quiet .refl rfl rfl rfl rfl (.of_trace rfl))

theorem Honors.emitQuiet (h : Honors L given d d') (hq : ∀ effect ∈ effects, effect.Quiet) :
    Honors L given d (d'.emitAll effects) :=
  h.andThen (.of_quiet .refl rfl rfl rfl rfl ⟨effects, rfl, hq⟩)

theorem Honors.emitChannel (h : Honors L given d d') {event : ChannelEvent} :
    Honors L given d (d'.emitChannel topic event) := by
  rw [emitChannel_eq]
  exact h.emitQuiet fun effect hm => quiet_of_report (channelEffects_report d' topic event effect hm)

theorem mem_held_of_record {channel : ChannelRecord} {x : Request}
    (hr : d.record topic = some channel) (hx : x ∈ channel.held) : x ∈ d.held := by
  have hm : (topic, channel) ∈ d.state.channels.toList :=
    Std.ExtTreeMap.mem_toList_iff_getElem?_eq_some.mpr hr
  simp only [held, tally, List.append_assoc]
  exact List.mem_append_left _ (List.mem_flatMap.mpr ⟨_, hm, hx⟩)

/-- Whoever waits for the join of a channel is held. -/
theorem serves_waiters {channel : ChannelRecord} (hr : d.record topic = some channel) {effect : Effect}
    (hs : effect.Sends) (he : effect.serves = channel.joinWaiters) : d.Serves hand effect := by
  refine ⟨hs, fun id hm => ⟨(.join, id), rfl, .inl (mem_held_of_record hr ?_)⟩⟩
  exact List.mem_append_left _ (List.mem_append_left _ (List.mem_map_of_mem (he ▸ hm)))

theorem kinds_sent {served : List RequestId} {frame : Frame} {events : List TelemetryEvent}
    (hs : d.Serves hand (.outgoing served frame)) {effect : Effect}
    (hm : effect ∈ .outgoing served frame :: events.map .telemetry) :
    effect.Plain ∨ L effect ∨ d.Serves hand effect := by
  rcases List.mem_cons.mp hm with rfl | hm
  · exact .inr (.inr hs)
  · obtain ⟨event, -, rfl⟩ := List.mem_map.mp hm
    exact .inl trivial

/-- A frame that is sent for those who are held. -/
theorem Honors.sendFrame (h : Honors L given d d') {env : Env} {served : List RequestId}
    {frame : Frame} (hs : d'.Serves [] (.outgoing served frame)) :
    Honors L given d (d'.sendFrame env served frame).1 := by
  obtain ⟨events, ht⟩ := sendFrame_trace env d' served frame
  have hstate := sendFrame_state env d' served frame
  exact h.andThen (.of_settle (moved_of_eq (by rw [hstate])) (by rw [hstate]) (by rw [hstate])
    (by rw [hstate]) (by rw [hstate]) ht (fun effect hm => kinds_sent hs hm) (settled_sent ..))

/-- A record is written, and effects settle what it does not owe any more. -/
theorem Honors.write (h : Honors L [] d d') {channel channel' : ChannelRecord}
    (hr : d'.record topic = some channel) (hplain : ∀ effect ∈ effects, effect.Plain ∨ L effect)
    (hcount : ∀ x, channel'.owed.count x + (settled effects).count x =
      channel.owed.count x + given.count x)
    (hdefers : channel'.deferredLeave = none ∨ channel'.deferredLeave = channel.deferredLeave) :
    Honors L given d ((d'.setRecord topic channel').emitAll effects) := by
  refine Honors.after (.of_write hr .refl rfl rfl rfl rfl rfl
    (fun effect hm => (hplain effect hm).imp_right .inl) hcount fun x => ?_) h
  have hx := hcount x
  have hle := leaveOwed_le channel.deferredLeave x
  rcases hdefers with hd | hd
  · simp only [ChannelRecord.owed, ChannelRecord.held, leaveOwed, leaveHeld, hd, Option.elim_none,
      List.count_append, List.count_nil] at hx hle ⊢
    omega
  · simp only [ChannelRecord.owed, ChannelRecord.held, hd, List.count_append] at hx hle ⊢
    omega

/-- The record is written with the same requests, and effects that settle nothing. -/
theorem Honors.rewrite (h : Honors L given d d') {channel channel' : ChannelRecord}
    (hr : d'.record topic = some channel)
    (hch : d''.state.channels = d'.state.channels.insert topic channel')
    (hw : channel'.joinWaiters = channel.joinWaiters) (hq : channel'.queued = channel.queued)
    (hd : channel'.deferredLeave = channel.deferredLeave)
    (hp : d''.state.protocol = d'.state.protocol)
    (hc : d''.state.pendingCalls = d'.state.pendingCalls)
    (hpi : d''.state.pendingPings = d'.state.pendingPings)
    (hl : d''.state.pendingLeaves = d'.state.pendingLeaves) (he : d'.Emits Effect.Quiet d'') :
    Honors L given d d'' := by
  obtain ⟨effects, ht, hquiet⟩ := he
  refine h.andThen (.of_write hr (moved_of_eq hp) hch hc hpi hl ht
    (fun effect hm => .inl (plain_of_quiet (hquiet effect hm))) (fun x => ?_) fun x => ?_)
  · rw [settled_of_quiet hquiet, ChannelRecord.owed, ChannelRecord.owed, hw, hq, hd]
  · rw [ChannelRecord.held, ChannelRecord.held, hw, hq, hd]
    exact Nat.le_add_right ..

/-- A status is no request. -/
theorem Honors.setStatus (h : Honors L given d d') {status : ChannelStatus} :
    Honors L given d (d'.setStatus topic status) := by
  cases hr : d'.record topic with
  | none =>
    rw [setStatus_of_none hr]
    exact h
  | some channel =>
    rw [setStatus_of_some hr]
    exact h.rewrite hr rfl rfl rfl rfl rfl rfl rfl rfl (.of_trace rfl)

/-- The waiters of a channel wait on for the load. -/
theorem Honors.loadPayload (h : Honors L given d d') : Honors L given d (d'.loadPayload topic) := by
  rcases loadPayload_cases d' topic with ⟨-, he⟩ | ⟨channel, hr, -, -, -, he⟩
  · rw [he]
    exact h
  · rw [he]
    refine h.andThen (.of_write hr .refl rfl rfl rfl rfl rfl (fun effect hm => ?_) (fun x => rfl)
      fun x => Nat.le_add_right ..)
    cases List.mem_singleton.mp hm
    exact .inr (.inr (serves_waiters hr trivial rfl))

theorem Honors.scheduleRejoin (h : Honors L given d d') {env : Env} :
    Honors L given d (d'.scheduleRejoin env topic) := by
  rcases scheduleRejoin_cases env d' topic with ⟨-, he⟩ | ⟨channel, hr, -, -, he⟩
  · rw [he]
    exact h
  · rw [he]
    exact h.rewrite hr rfl rfl rfl rfl rfl rfl rfl rfl (.of_trace rfl)

/-! ### Stopping

What a channel holds is answered when it is stopped, each request with an error of its own kind. -/

/-- A stop settles all that a record is owed. -/
theorem settled_stopEffects (topic : Topic) (clock : Duration) (channel : ChannelRecord) (x : Request) :
    (settled (stopEffects topic clock channel)).count x = channel.owed.count x := by
  have hqueued : settled (channel.queued.map fun push =>
      .answered push.operation push.id (.error (.interrupted push.operation))) =
        channel.queued.map QueuedPush.request := by
    simp only [settled, List.flatMap_map, Effect.settles]
    exact List.flatMap_pure_eq_map ..
  have hreports : ∀ {f : QueuedPush → Option Effect}, (∀ push effect, f push = some effect → effect.Quiet) →
      settled (channel.queued.filterMap f) = [] := fun hf => settled_of_quiet fun effect hm => by
    obtain ⟨push, -, he⟩ := List.mem_filterMap.mp hm
    exact hf push effect he
  unfold stopEffects
  rw [settled_append, settled_append, settled_append, settled_leaveAnswers, settled_answers, hqueued,
    hreports fun push effect he => ?_]
  · simp only [ChannelRecord.owed, List.count_append, List.count_nil]
    omega
  · cases push with
    | call id event payload started =>
      cases he
      trivial
    | cast id event payload => cases he

theorem plain_stopEffects {channel : ChannelRecord} {clock : Duration} {effect : Effect}
    (hm : effect ∈ stopEffects topic clock channel) : effect.Plain := by
  rcases mem_stopEffects hm with ⟨operation, id, rfl⟩ | ⟨event, rfl⟩ <;> trivial

/-- What a stopped channel held back is told of the interruption, all of it and once. -/
theorem Honors.stopChannel (h : Honors L given d d') : Honors L given d (d'.stopChannel topic) := by
  cases hr : d'.record topic with
  | none =>
    rw [stopChannel_of_none hr]
    exact h
  | some channel =>
    rw [stopChannel_of_some hr]
    refine h.andThen ((Honors.refl L d').write hr (fun effect hm => .inl (plain_stopEffects hm))
      (fun x => ?_) (.inl rfl))
    rw [settled_stopEffects, Nat.add_comm]
    rfl

/-- A stopped channel holds back no leave. -/
theorem deferredLeave_of_stopped {channel : ChannelRecord}
    (h : (d.stopChannel topic).record topic = some channel) : channel.deferredLeave = none := by
  cases hr : d.record topic with
  | none =>
    rw [stopChannel_of_none hr, hr] at h
    cases h
  | some channel' =>
    rw [stopChannel_of_some hr, emitAll_record, record_setRecord] at h
    cases h
    rfl

/-- Nothing is owed by a stopped channel: its record can be forgotten. -/
theorem Honors.unregister (h : Honors L given d d') : Honors L given d (d'.unregister topic) := by
  have hstop : Honors L given d (d'.stopChannel topic) := h.stopChannel
  refine Honors.discardChannel (hstop.andThen ?_)
  cases hr : d'.record topic with
  | none =>
    rw [stopChannel_of_none hr]
    exact .of_quiet .refl (Table.erase_of_none hr) rfl rfl rfl (.of_trace rfl)
  | some channel =>
    have hs : (d'.stopChannel topic).record topic = some channel.stopped := by
      rw [stopChannel_of_some hr]
      exact record_setRecord ..
    have hs : (d'.stopChannel topic).state.channels[topic]? = some channel.stopped := hs
    refine .of_channels .refl rfl rfl rfl (List.append_nil _).symm (List.forall_mem_nil _) (fun x => ?_) (fun x => ?_)
      fun t x hx => .inl ?_
    · have he := Table.total_erase (due ChannelRecord.owed x) (d'.stopChannel topic).state.channels topic
      have hnone : channel.stopped.owed.count x = 0 := rfl
      simp only [Table.shareAt, hs, Option.elim_some, due, hnone] at he
      simpa using he
    · have he := Table.total_erase (due ChannelRecord.held x) (d'.stopChannel topic).state.channels topic
      simp only [List.count_nil]
      omega
    · simp only [heldAt, tallyAt, record, Table.lookup_erase] at hx ⊢
      split at hx
      · cases hx
      · exact hx

/-- A new record holds no request, and there was none before. -/
theorem Honors.register (h : Honors L given d d') {env : Env} :
    Honors L given d (d'.register env topic) := by
  unfold Driver.register
  split
  · exact h
  rename_i hnot
  have hnone : d'.state.channels[topic]? = none := by simpa using hnot
  have htotal : ∀ f : ChannelRecord → List Request,
      f ⟨.closed, false, false, none, 0, env.options.joinTimeout, false, [], [], none⟩ = [] → ∀ x,
      Table.total (due f x) (d'.state.channels.insert topic
        ⟨.closed, false, false, none, 0, env.options.joinTimeout, false, [], [], none⟩) =
          Table.total (due f x) d'.state.channels := by
    intro f hf x
    have hi := Table.total_insert (due f x) d'.state.channels topic
      ⟨.closed, false, false, none, 0, env.options.joinTimeout, false, [], [], none⟩
    simpa only [Table.shareAt, hnone, Option.elim_none, due, hf, List.count_nil, Nat.add_zero] using hi
  refine h.andThen (.of_channels .refl rfl rfl rfl (List.append_nil _).symm (List.forall_mem_nil _)
    (fun x => htotal _ rfl x) (fun x => Nat.le_of_eq (htotal _ rfl x)) fun t x hx => .inl ?_)
  simp only [heldAt, tallyAt, record_setRecord_eq] at hx ⊢
  split at hx
  · cases hx
  · exact hx

/-! ### Pushes

A push moves from the handler's hand, or from the queue, under a reference, or it is answered. -/

/-- The request in hand is answered at once. -/
theorem honors_answer (d : Driver) {operation : ClientOperation} {id : RequestId}
    {result : Except ClientError Success} (hp : (Effect.answered operation id result).Plain) :
    Honors L [(operation, id)] d (d.answer operation id result) := by
  refine .of_settle .refl rfl rfl rfl rfl rfl (fun effect hm => ?_) rfl
  cases List.mem_singleton.mp hm
  exact .inl hp

/-- What is taken out of a record is in hand. -/
theorem HonorsWith.of_take {channel channel' : ChannelRecord}
    (h : HonorsWith L given hand (d.setRecord topic channel') d') (hr : d.record topic = some channel)
    (hcount : ∀ x, channel'.owed.count x + given.count x = channel.owed.count x)
    (hplaces : ∀ x, channel'.held.count x + hand.count x = channel.held.count x)
    (hkept : ∀ t x, x ∈ d'.heldAt (.record t) → x ∈ (d.setRecord topic channel').heldAt (.record t)) :
    Honors L [] d d' := by
  have hlookup : d.state.channels[topic]? = some channel := hr
  have howed : ∀ x, (d.setRecord topic channel').owed.count x + given.count x = d.owed.count x := by
    intro x
    have hx := hcount x
    have hi := Table.total_insert (due ChannelRecord.owed x) d.state.channels topic channel'
    simp only [Table.shareAt, hlookup, Option.elim_some, due] at hi
    simp only [count_owed, setRecord]
    omega
  have hheld : ∀ x, (d.setRecord topic channel').held.count x + hand.count x = d.held.count x := by
    intro x
    have hx := hplaces x
    have hi := Table.total_insert (due ChannelRecord.held x) d.state.channels topic channel'
    simp only [Table.shareAt, hlookup, Option.elim_some, due] at hi
    simp only [count_held, setRecord]
    omega
  have hsub : ∀ x, x ∈ channel'.held ∨ x ∈ hand → x ∈ d.heldAt (.record topic) := by
    intro x hx
    have hpos : 0 < channel.held.count x := by
      rw [← hplaces x]
      exact hx.elim (fun hm => Nat.add_pos_left (List.count_pos_iff.mpr hm) _)
        fun hm => Nat.add_pos_right _ (List.count_pos_iff.mpr hm)
    simp only [heldAt, tallyAt, hr, Option.elim_some]
    exact List.count_pos_iff.mp hpos
  have hrecord : ∀ t x, x ∈ (d.setRecord topic channel').heldAt (.record t) → x ∈ d.heldAt (.record t) := by
    intro t x hx
    by_cases ht : t = topic
    · rw [ht] at hx ⊢
      simp only [heldAt, tallyAt, record_setRecord, Option.elim_some] at hx
      exact hsub x (.inl hx)
    · have hother : (d.setRecord topic channel').record t = d.record t := by
        rw [record_setRecord_eq, if_neg ht]
      rwa [heldAt_of_record hother] at hx
  obtain ⟨effects, ht, h⟩ := h
  have hnew : d.New d' → (d.setRecord topic channel').New d' := fun hn =>
    ⟨hn.1, hn.2.1, hn.2.2.of_tables (Nat.le_refl _) rfl rfl rfl⟩
  refine ⟨effects, ht, h.moved, fun x => ?_, fun hn x => ?_, fun x => ?_, fun t x hx => ?_, fun r x hx => ?_,
    fun hn => h.listed (hnew hn), fun effect hm => ?_, fun hn => h.calls (hnew hn)⟩
  · have hx := h.atMost x
    have hc := howed x
    rw [List.count_nil]
    omega
  · have hx := h.atLeast (hnew hn) x
    have hc := howed x
    rw [List.count_nil]
    omega
  · have hx := h.places x
    have hc := hheld x
    rw [List.count_nil]
    omega
  · exact .inl (hrecord t x (hkept t x hx))
  · rcases h.references r x hx with hx | ⟨hsource, hsent⟩
    · exact .inl hx
    · refine .inr ⟨.inr ?_, hsent⟩
      rcases hsource with hx | ⟨t, hx⟩
      · exact ⟨topic, hsub x (.inr hx)⟩
      · exact ⟨t, hrecord t x hx⟩
  · refine (h.kinds effect hm).imp_right (.imp_right fun hs => hs.mono fun x hx => .inl ?_)
    have hx' := hheld x
    have hpos : 0 < (d.setRecord topic channel').held.count x + hand.count x :=
      hx.elim (fun hm => Nat.add_pos_left (List.count_pos_iff.mpr hm) _)
        fun hm => Nat.add_pos_right _ (List.count_pos_iff.mpr hm)
    exact List.count_pos_iff.mp (by omega)

end

section
variable {L : Effect → Prop} {topic : Topic} (env : Env) (d : Driver)

/-- A push is refused at once, or it is held at the end of the queue. -/
theorem honors_queue (push : QueuedPush) : Honors L [push.request] d (d.queue env topic push) := by
  rcases queue_cases env d topic push with ⟨error, -, he⟩ | ⟨channel, hr, -, -, he⟩
  · rw [he]
    exact honors_answer d trivial
  · rw [he]
    refine .of_write hr .refl rfl rfl rfl rfl (List.append_nil _).symm (List.forall_mem_nil _) (fun x => ?_)
      fun x => ?_
    · simp only [ChannelRecord.owed, List.map_append, List.count_append, List.map_cons, List.map_nil,
        settled_nil, List.count_nil]
      omega
    · simp only [ChannelRecord.held, List.map_append, List.count_append, List.map_cons, List.map_nil]
      omega

/-- A cast is answered once its frame is sent. -/
theorem honors_castSent (id : RequestId) (frame : Frame) :
    Honors L [(.cast, id)] d ((d.sendFrame env [id] frame).1.emitAll
      [.answered .cast id (castResult (d.sendFrame env [id] frame).2)]) := by
  obtain ⟨events, ht⟩ := sendFrame_trace env d [id] frame
  have htrace := (emitAll_trace (d.sendFrame env [id] frame).1
    [.answered .cast id (castResult (d.sendFrame env [id] frame).2)]).trans
      ((congrArg (· ++ _) ht).trans (List.append_assoc ..))
  have hserves : d.Serves [(.cast, id)] (.outgoing [id] frame) :=
    ⟨trivial, fun id' hm => ⟨(.cast, id), (List.mem_singleton.mp hm).symm, .inr (List.mem_singleton_self _)⟩⟩
  refine .of_settle (moved_of_eq (by simp)) (by simp) (by simp) (by simp) (by simp) htrace (fun effect hm => ?_)
    (by rw [settled_append, settled_sent]; rfl)
  rcases List.mem_append.mp hm with hm | hm
  · exact kinds_sent hserves hm
  · cases List.mem_singleton.mp hm
    refine .inl ?_
    unfold castResult
    split <;> trivial

/-- A push of a joined channel is sent or refused. -/
theorem honors_sendPush {joinRef : Reference} (hj : d.state.protocol.joinedRef topic = some joinRef)
    (push : QueuedPush) : Honors L [push.request] d (d.sendPush env topic push).1 := by
  cases push_handled env d topic push with
  | refusedCall id event payload started hb he =>
    rw [he]
    have hreport : Honors L [] d
        (d.emitAll [.telemetry (.callCompleted topic event .rejected (d.clock - started))]) :=
      (Honors.refl L d).emitQuiet (by simp [Effect.Quiet])
    have hanswer : Honors L [(.call, id)] _ _ :=
      honors_answer (d.emitAll [.telemetry (.callCompleted topic event .rejected (d.clock - started))])
        (show (Effect.answered .call id (.error .binaryNotSupported)).Plain from trivial)
    rw [answer_eq, emitAll_emitAll] at hanswer
    exact hanswer.after hreport
  | refusedCast id event payload hb he =>
    rw [he]
    exact honors_answer d trivial
  | notJoined push hj' he => cases hj'.symm.trans hj
  | call id event payload started joinRef' hb hj' he =>
    rw [he]
    have hp : (d.trackCall topic id event payload started).state.protocol =
        (d.state.protocol.push topic event payload).2 := rfl
    have ht : d.Tracks (d.trackCall topic id event payload started) (.call, id) [(.call, id)] :=
      .call ⟨id, topic, event, started⟩ rfl rfl rfl
    exact HonorsWith.of_send ht (Pushed.trackCall d topic id event payload started hj').moved
      (by rw [hp, Protocol.push_of_joined hj']) rfl rfl env rfl
  | cast id event payload joinRef' sent hb hj' hs he =>
    rw [he, hs]
    exact honors_castSent env d id _

/-- **A flush sends the queue of a joined channel**, as far as it gets. -/
theorem honors_flush {joinRef : Reference} (hj : d.state.protocol.joinedRef topic = some joinRef) :
    Honors L [] d (d.flush env topic).1 := by
  suffices h : d.state.protocol.joinedRef topic = some joinRef → Honors L [] d (d.flush env topic).1 ∧
      (d.flush env topic).1.state.protocol.joinedRef topic = some joinRef from (h hj).1
  refine flush_induction (R := fun d d' => d.state.protocol.joinedRef topic = some joinRef →
    Honors L [] d d' ∧ d'.state.protocol.joinedRef topic = some joinRef) (fun d hj => ⟨.refl L d, hj⟩)
    (fun d d' d'' h h' hj => ⟨(h hj).1.andThen (h' (h hj).2).1, (h' (h hj).2).2⟩)
    (fun d channel push queued hr hqueue hj => ⟨?_, ?_⟩) d
  · refine (honors_sendPush env (d.setRecord topic { channel with queued }) hj push).of_take hr
      (fun x => ?_) (fun x => ?_) fun t x hx => ?_
    · simp only [ChannelRecord.owed, hqueue, List.map_cons, List.count_append, List.count_cons,
        List.count_nil]
      omega
    · simp only [ChannelRecord.held, hqueue, List.map_cons, List.count_append, List.count_cons,
        List.count_nil]
      omega
    · rwa [heldAt_of_channels (sendPush_sends env _ topic push).1] at hx
  · rw [Protocol.joinedRef, (sendPush_pushed env _ topic push).channels]
    exact hj

theorem honors_handlePush (push : QueuedPush) :
    Honors L [push.request] d (d.handlePush env topic push).1 := by
  unfold handlePush
  split
  · rename_i hs
    obtain ⟨channel, hc, hs⟩ := Option.map_eq_some_iff.mp hs
    exact honors_sendPush env d (Protocol.joinedRef_eq_some.mpr ⟨channel, hc, hs, rfl⟩) push
  · exact honors_queue env d push

/-! ### Leaves and joins

A leave goes under a reference or into the record. A join waits in the record. -/

/-- The leave is held under its new reference from then on. -/
theorem honors_sendLeave {channel : Channel} (hc : d.state.protocol.channels[topic]? = some channel)
    (hs : channel.state = .joined) (pending : PendingLeave) :
    HonorsWith L pending.owed pending.held d (d.sendLeave env topic pending).1 := by
  have hp : (d.trackLeave topic pending).state.protocol = (d.state.protocol.leave topic).2 := rfl
  have hm : d.Moved (d.trackLeave topic pending) := moved_of_move (by rw [hp]; exact .leave topic)
  have ht : d.Tracks (d.trackLeave topic pending) (.leave, pending.id) pending.owed :=
    .leave pending rfl rfl rfl
  rw [sendLeave_of_joined hc hs]
  exact HonorsWith.of_send ht hm (by rw [hp, Protocol.leave_of_joined hc hs]) rfl rfl env rfl

/-- A leave is held under its reference or in the record, or it is answered at once. -/
theorem honors_handleLeave (id : RequestId) (timeout : Duration) :
    Honors L [(.leave, id)] d (d.handleLeave env id topic timeout).1 := by
  have hstop : ∀ status, Honors L [] d ((d.setStatus topic status).stopChannel topic) := fun _ =>
    (Honors.refl L d).setStatus.stopChannel
  cases leave_handled env d id topic timeout with
  | sent channel hc hs he =>
    have hsend : ∀ d' : Driver, d'.state.protocol.channels[topic]? = some channel →
        Honors L [(.leave, id)] d' (d'.sendLeave env topic ⟨id, timeout, true⟩).1 :=
      fun d' hc' => honors_sendLeave env d' hc' hs ⟨id, timeout, true⟩
    rw [he]
    exact (hsend _ (by simpa using hc)).after (hstop _)
  | deferred channel hs hr he =>
    have hnone : channel.deferredLeave = none := deferredLeave_of_stopped hr
    rw [he]
    refine Honors.after (.of_write hr .refl rfl rfl rfl rfl (List.append_nil _).symm (List.forall_mem_nil _)
      (fun x => ?_) fun x => ?_) (hstop _)
    · simp only [ChannelRecord.owed, hnone, leaveOwed, Option.elim_some, Option.elim_none,
        PendingLeave.owed, if_true, List.append_nil, List.count_append, settled_nil, List.count_nil]
      omega
    · simp only [ChannelRecord.held, hnone, leaveHeld, Option.elim_some, Option.elim_none,
        PendingLeave.held, List.append_nil, List.count_append]
      omega
  | idle hs hj he =>
    have hanswer : ∀ d' : Driver, Honors L [(.leave, id)] d'
        (d'.answer .leave id (.ok (.payload .emptyObject))) := fun d' => honors_answer d' trivial
    rw [he]
    exact (hanswer _).after (hstop _)

theorem mem_owed_of_record {d : Driver} {channel : ChannelRecord} {x : Request}
    (hr : d.record topic = some channel) (hx : x ∈ channel.owed) : x ∈ d.owed := by
  have hm : (topic, channel) ∈ d.state.channels.toList :=
    Std.ExtTreeMap.mem_toList_iff_getElem?_eq_some.mpr hr
  simp only [owed, tally, List.append_assoc]
  exact List.mem_append_left _ (List.mem_flatMap.mpr ⟨_, hm, hx⟩)

/-- A request that is new joins the waiters of its channel. -/
theorem honors_wait {d : Driver} {id : RequestId} (hn : (.join, id) ∉ d.owed)
    {channel channel' : ChannelRecord} (hr : d.record topic = some channel)
    (hw : channel'.joinWaiters = channel.joinWaiters.insert id)
    (hq : channel'.queued = channel.queued) (hd : channel'.deferredLeave = channel.deferredLeave) :
    Honors L [(.join, id)] d (d.setRecord topic channel') := by
  have hnot : id ∉ channel.joinWaiters := fun hm => hn (mem_owed_of_record hr
    (List.mem_append_left _ (List.mem_append_left _ (List.mem_map_of_mem hm))))
  refine .of_write hr .refl rfl rfl rfl rfl (List.append_nil _).symm (List.forall_mem_nil _) (fun x => ?_) fun x => ?_
  · simp only [ChannelRecord.owed, hw, hq, hd, List.insert_of_not_mem hnot, List.map_cons, List.cons_append,
      List.count_append, List.count_cons, settled_nil, List.count_nil]
    omega
  · simp only [ChannelRecord.held, hw, hq, hd, List.insert_of_not_mem hnot, List.map_cons, List.cons_append,
      List.count_append, List.count_cons, List.count_nil]
    omega

/-- A join is held in the record, or it is answered at once. -/
theorem honors_handleJoin {id : RequestId} (hn : (.join, id) ∉ d.owed) (timeout : Duration) :
    Honors L [(.join, id)] d (d.handleJoin id topic timeout) := by
  unfold handleJoin
  cases hr : d.record topic with
  | none => exact honors_answer d trivial
  | some channel =>
    dsimp only
    split
    · have hset : Honors L [] d (d.setRecord topic { channel with desired := true, status := .joined }) :=
        (Honors.refl L d).rewrite hr rfl rfl rfl rfl rfl rfl rfl rfl (.of_trace rfl)
      exact Honors.after (honors_answer _ trivial) hset
    · exact Honors.loadPayload (honors_wait hn hr rfl rfl rfl)

/-! ### Pings and heartbeats

A ping waits under its reference. The driver's own heartbeat serves no request. -/

theorem honors_handlePing (id : RequestId) : Honors L [(.ping, id)] d (d.handlePing env id).1 := by
  have ht : d.Tracks (d.trackPing id) (.ping, id) [(.ping, id)] := .ping ⟨id, d.clock⟩ rfl rfl rfl
  rw [handlePing_eq]
  exact HonorsWith.of_send ht (moved_of_move .heartbeat) rfl rfl rfl env rfl

/-- A heartbeat is no request. -/
theorem honors_handleHeartbeat : Honors L [] d (d.handleHeartbeat env).1 := by
  by_cases h : d.connection.heartbeatReference.isSome = true
  · rw [handleHeartbeat_of_some h]
    exact .refl L d
  · rw [handleHeartbeat_of_none h]
    have htrack : Honors L [] d d.trackHeartbeat :=
      .of_quiet (moved_of_move .heartbeat) rfl rfl rfl rfl (.of_trace rfl)
    have hs : Honors L [] d (d.trackHeartbeat.sendFrame env []
        ⟨none, some d.state.protocol.nextText, "phoenix", "heartbeat", .emptyObject⟩).1 :=
        htrack.sendFrame ⟨trivial, nofun⟩
    rcases hsend : d.trackHeartbeat.sendFrame env []
      ⟨none, some d.state.protocol.nextText, "phoenix", "heartbeat", .emptyObject⟩ with ⟨d', _ | reason⟩
    · rw [hsend] at hs
      exact hs.andThen (.of_quiet .refl rfl rfl rfl rfl (.of_trace rfl))
    · rw [hsend] at hs
      exact hs

/-! ### Lifecycle

Unregistering a joined channel sends a leave that nobody waits for. -/

theorem honors_unregisterConnected : Honors L [] d (d.unregisterConnected env topic).1 := by
  by_cases hj : d.state.protocol.channelState topic = some .joined
  · obtain ⟨channel, hc, hs⟩ := Option.map_eq_some_iff.mp hj
    rw [unregisterConnected_of_joined hc hs]
    exact ((Honors.refl L d).setProtocol (.single (.leave topic))).unregister.sendFrame ⟨trivial, nofun⟩
  · rw [unregisterConnected_of_not_joined hj]
    exact (Honors.refl L d).unregister

/-! ### Payloads and timers

A load that failed answers the waiters with its error. -/

/-- The waiters are told of a load that failed, and wait on for a join that was sent. -/
theorem honors_handlePayload (payloadId : UInt64) (result : Except String Value) :
    Honors L [] d (d.handlePayload env topic payloadId result).1 := by
  cases payload_handled env d topic payloadId result with
  | ignored h he =>
    rw [he]
    exact .refl L d
  | late channel hr ha h he =>
    rw [he]
    exact (Honors.refl L d).rewrite hr rfl rfl rfl rfl rfl rfl rfl rfl (.of_trace rfl)
  | failed message channel hp hr ha he =>
    rw [he]
    have hset : Honors L [] d ((d.setRecord topic { channel.loaded with
        desired := false, status := .errored, joinWaiters := [] }).emitAll
          (channel.joinWaiters.map fun id =>
            .answered .join id (.error (.joinPayload topic message)))) := by
      refine (Honors.refl L d).write hr (fun effect hm => ?_) (fun x => ?_) (.inr rfl)
      · obtain ⟨id, -, rfl⟩ := List.mem_map.mp hm
        exact .inl trivial
      · simp only [ChannelRecord.owed, ChannelRecord.loaded, settled_answers, List.map_nil,
           List.nil_append, List.count_append, List.count_nil]
        omega
    exact hset.emitChannel
  | joined value channel d₁ hp hr ha hd hs hd₁ hs₁ he =>
    rw [he]
    have hdiscard : Honors L [] d d₁ := by
      rcases hd₁ with rfl | ⟨-, rfl⟩
      · exact .refl L d₁
      · exact (Honors.refl L d).discardChannel
    have hr₁ : d₁.record topic = some channel := by
      rcases hd₁ with rfl | ⟨-, rfl⟩ <;> exact hr
    have hp : (d₁.trackJoin topic value channel.loaded).state.protocol =
        (d₁.state.protocol.rejoin topic value).2 := by
      rw [Protocol.rejoin_of_unknown hs₁]
      rfl
    have hm : d₁.Moved (d₁.trackJoin topic value channel.loaded) :=
      moved_of_move (by rw [hp]; exact .rejoin topic value)
    have htrack : Honors L [] d (d₁.trackJoin topic value channel.loaded) :=
      hdiscard.andThen (.of_write hr₁ hm rfl rfl rfl rfl
        (List.append_nil _).symm (List.forall_mem_nil _) (fun x => rfl) fun x => Nat.le_add_right ..)
    have hjoining : (d₁.trackJoin topic value channel.loaded).record topic =
        some { channel.loaded with status := .joining } := Std.ExtTreeMap.getElem?_insert_self
    exact htrack.sendFrame (serves_waiters hjoining trivial rfl)

end

end Driver
end PhoenixChannel.Client
