import PhoenixChannel.Client.Flushes
import PhoenixChannel.Client.OneTopic

/-! The pushes of a channel go out in order.

`P` marks the requests of a topic's calls and casts. `Carries P t d d'` says that the marked
requests served on the topic from `d` to `d'`, followed by the queue in `d'`, are what the
queue in `d` held, in its order and with some left out. Joins and leaves are served by frames
of the topic too, so it comes with `Clear`: no join waiter and no deferred leave is marked. -/
namespace PhoenixChannel.Client
open PhoenixChannel.Runtime Library

/-- No frame of the topic is sent. -/
def Effect.Silent (t : Topic) (effect : Effect) : Prop := effect.servedOn t = []

instance (t : Topic) : Lenient (Effect.Silent t) where
  report effect h := by
    cases effect with
    | outgoing served frame => exact h.elim
    | _ => rfl
  failure _ _ _ := rfl
  leave _ _ := rfl
  load _ _ _ _ := rfl

theorem Effect.SentFor.silent {topic t : Topic} {effect : Effect} (h : effect.SentFor topic)
    (ht : t ≠ topic) : effect.Silent t := by
  cases effect with
  | outgoing served frame =>
    have hf : frame.topic = topic := h
    exact if_neg (by rw [hf]; exact ht.symm)
  | _ => rfl

namespace Driver

/-- The requests of the pushes that the topic's record holds back, in order. -/
def queuedIds (d : Driver) (t : Topic) : List RequestId :=
  (d.record t).elim [] fun channel => channel.queued.map QueuedPush.id

/-- No join waiter and no deferred leave of the topic is marked. -/
def Clear (P : RequestId → Bool) (t : Topic) (d : Driver) : Prop :=
  ∀ channel : ChannelRecord, d.record t = some channel →
    (∀ id ∈ channel.joinWaiters, P id = false) ∧
    ∀ pending ∈ channel.deferredLeave, P pending.id = false

/-- The marked requests served on the topic leave the front of its queue. -/
structure Carries (P : RequestId → Bool) (t : Topic) (d d' : Driver) : Prop where
  clear : d.Clear P t → d'.Clear P t
  sends : d.Clear P t → ∃ effects, d'.trace = d.trace ++ effects ∧
    ((servedOn t effects).filter P ++ d'.queuedIds t).Sublist (d.queuedIds t)

section
variable {P : RequestId → Bool} {t topic : Topic} {d d' d'' : Driver} {channel channel' : ChannelRecord}

theorem queuedIds_of_some (h : d.record t = some channel) :
    d.queuedIds t = channel.queued.map QueuedPush.id := by
  rw [queuedIds, h]
  rfl

theorem queuedIds_of_none (h : d.record t = none) : d.queuedIds t = [] := by
  rw [queuedIds, h]
  rfl

theorem clear_of_none (h : d.record t = none) : d.Clear P t := by
  intro channel hc
  cases h.symm.trans hc

theorem Carries.trans (h : Carries P t d d') (h' : Carries P t d' d'') : Carries P t d d'' where
  clear hc := h'.clear (h.clear hc)
  sends hc := by
    obtain ⟨first, ht, hs⟩ := h.sends hc
    obtain ⟨second, ht', hs'⟩ := h'.sends (h.clear hc)
    refine ⟨first ++ second, by rw [ht', ht, List.append_assoc], ?_⟩
    rw [servedOn_append, List.filter_append, List.append_assoc]
    exact (hs'.append_left _).trans hs

/-- The record is as it was, and nothing was sent on the topic. -/
theorem Carries.of_record (hr : d'.record t = d.record t) (he : d.Emits (Effect.Silent t) d') :
    Carries P t d d' where
  clear hc channel h := hc channel (by rw [← hr]; exact h)
  sends _ := by
    obtain ⟨effects, ht, hs⟩ := he
    refine ⟨effects, ht, ?_⟩
    rw [servedOn_eq_nil hs, queuedIds, queuedIds, hr]
    exact List.Sublist.refl _

theorem Carries.refl (P : RequestId → Bool) (t : Topic) (d : Driver) : Carries P t d d :=
  .of_record rfl (.refl ..)

theorem Carries.emitAll (h : Carries P t d d') {effects : List Effect}
    (he : ∀ effect ∈ effects, effect.Silent t) : Carries P t d (d'.emitAll effects) :=
  h.trans (.of_record rfl ((Emits.refl _ d').emitAll he))

/-- Work on another topic. -/
theorem Apart.carries (h : Apart topic d d') (ht : t ≠ topic) : Carries P t d d' :=
  .of_record (h.record t ht) (h.sent.mono fun _ hs => hs.silent ht)

/-- What may be kept of a record: its waiters, its deferred leave, and its queue in order. -/
structure Within (P : RequestId → Bool) (channel channel' : ChannelRecord) : Prop where
  queued : (channel'.queued.map QueuedPush.id).Sublist (channel.queued.map QueuedPush.id)
  waiters : ∀ id ∈ channel'.joinWaiters, id ∈ channel.joinWaiters ∨ P id = false
  leave : ∀ pending ∈ channel'.deferredLeave,
    P pending.id = false ∨ ∃ pending' ∈ channel.deferredLeave, pending'.id = pending.id

theorem Within.of_eq (hq : channel'.queued = channel.queued)
    (hw : channel'.joinWaiters = channel.joinWaiters)
    (hl : channel'.deferredLeave = channel.deferredLeave) : Within P channel channel' where
  queued := by rw [hq]
  waiters id hm := .inl (by rw [← hw]; exact hm)
  leave pending hm := .inr ⟨pending, by rw [← hl]; exact hm, rfl⟩

/-- A record without waiters and without a deferred leave. -/
theorem Within.of_bare (hq : channel'.queued = channel.queued) (hw : channel'.joinWaiters = [])
    (hl : channel'.deferredLeave = channel.deferredLeave ∨ channel'.deferredLeave = none) :
    Within P channel channel' where
  queued := by rw [hq]
  waiters id hm := by
    rw [hw] at hm
    cases hm
  leave pending hm := by
    rcases hl with hl | hl
    · exact .inr ⟨pending, by rw [← hl]; exact hm, rfl⟩
    · rw [hl] at hm
      cases hm

theorem Within.stopped (P : RequestId → Bool) (channel : ChannelRecord) :
    Within P channel channel.stopped where
  queued := List.nil_sublist _
  waiters _ hm := by cases hm
  leave _ hm := by cases hm

/-- The record is kept within what it was, and nothing was sent on the topic. -/
theorem Carries.of_within (hr : d.record t = some channel) (hr' : d'.record t = some channel')
    (hw : Within P channel channel') (he : d.Emits (Effect.Silent t) d') : Carries P t d d' where
  clear hc channel'' h := by
    cases hr'.symm.trans h
    obtain ⟨hwaiters, hleave⟩ := hc channel hr
    refine ⟨fun id hm => ?_, fun pending hm => ?_⟩
    · exact (hw.waiters id hm).elim (hwaiters id) fun h => h
    · rcases hw.leave pending hm with hl | ⟨pending', hm', hid⟩
      · exact hl
      · rw [← hid]
        exact hleave pending' hm'
  sends _ := by
    obtain ⟨effects, ht, hs⟩ := he
    refine ⟨effects, ht, ?_⟩
    rw [servedOn_eq_nil hs, queuedIds_of_some hr, queuedIds_of_some hr']
    exact hw.queued

theorem Carries.setRecord (h : Carries P t d d') (hr : d'.record t = some channel)
    (hw : Within P channel channel') : Carries P t d (d'.setRecord t channel') :=
  h.trans (.of_within hr (record_setRecord ..) hw (.of_trace rfl))

/-- Nothing is left of the topic's record. -/
theorem Carries.of_none (hr : d'.record t = none) (he : d.Emits (Effect.Silent t) d') :
    Carries P t d d' where
  clear _ := clear_of_none hr
  sends _ := by
    obtain ⟨effects, ht, hs⟩ := he
    refine ⟨effects, ht, ?_⟩
    rw [servedOn_eq_nil hs, queuedIds_of_none hr]
    exact List.nil_sublist _

/-- A frame of the topic for requests that are not marked. -/
theorem Carries.sendFrame (h : Carries P t d d') (env : Env) {served : List RequestId} {frame : Frame}
    (hs : d.Clear P t → ∀ id ∈ served, P id = false) :
    Carries P t d (d'.sendFrame env served frame).1 where
  clear hc := by
    intro channel hr
    rw [record, sendFrame_state] at hr
    exact h.clear hc channel hr
  sends hc := by
    obtain ⟨first, ht, hsub⟩ := h.sends hc
    obtain ⟨events, htr⟩ := sendFrame_trace env d' served frame
    refine ⟨first ++ .outgoing served frame :: events.map .telemetry,
      by rw [htr, ht, List.append_assoc], ?_⟩
    have hq : (d'.sendFrame env served frame).1.queuedIds t = d'.queuedIds t := by
      rw [queuedIds, record, sendFrame_state]
      rfl
    have hserved : (servedOn t (.outgoing served frame :: events.map .telemetry)).filter P = [] := by
      refine List.filter_eq_nil_iff.mpr fun id hm => ?_
      obtain ⟨effect, hm, hid⟩ := List.mem_flatMap.mp hm
      rcases List.mem_cons.mp hm with rfl | hm
      · simp only [Effect.servedOn] at hid
        split at hid
        · simp [hs hc id hid]
        · cases hid
      · obtain ⟨event, -, rfl⟩ := List.mem_map.mp hm
        cases hid
    rw [servedOn_append, List.filter_append, hserved, List.append_nil, hq]
    exact hsub

theorem Carries.emitChannel (h : Carries P t d d') {event : ChannelEvent} :
    Carries P t d (d'.emitChannel topic event) := by
  rw [emitChannel_eq]
  exact h.emitAll fun effect hm => Lenient.report effect (channelEffects_report d' topic event effect hm)

theorem Carries.answers (h : Carries P t d d') {operation : ClientOperation} {ids : List RequestId}
    {result : Except ClientError Success} :
    Carries P t d (d'.emitAll (ids.map fun id => .answered operation id result)) := by
  refine h.emitAll fun effect hm => ?_
  obtain ⟨id, -, rfl⟩ := List.mem_map.mp hm
  rfl

theorem Carries.answer (h : Carries P t d d') {operation : ClientOperation} {id : RequestId}
    {result : Except ClientError Success} : Carries P t d (d'.answer operation id result) :=
  h.emitAll (by simp [Effect.Silent, Effect.servedOn])

theorem Carries.answerLeave (h : Carries P t d d') {pending : Option PendingLeave}
    {result : Except ClientError Success} : Carries P t d (d'.answerLeave pending result) := by
  rw [answerLeave_eq]
  refine h.emitAll fun effect hm => ?_
  obtain ⟨leave, -, -, rfl⟩ := mem_leaveAnswers hm
  rfl

/-- A status is no push. -/
theorem Carries.setStatus (h : Carries P t d d') {status : ChannelStatus} :
    Carries P t d (d'.setStatus t status) := by
  cases hr : d'.record t with
  | none =>
    rw [setStatus_of_none hr]
    exact h
  | some channel =>
    rw [setStatus_of_some hr]
    exact h.setRecord hr (.of_eq rfl rfl rfl)

/-- The queue that is interrupted is left out. -/
theorem Carries.stopChannel (h : Carries P t d d') : Carries P t d (d'.stopChannel t) := by
  cases hr : d'.record t with
  | none =>
    rw [stopChannel_of_none hr]
    exact h
  | some channel =>
    rw [stopChannel_of_some hr]
    refine (h.setRecord hr (.stopped P channel)).emitAll fun effect hm => ?_
    rcases mem_stopEffects hm with ⟨operation, id, rfl⟩ | ⟨event, rfl⟩ <;> rfl

theorem Carries.loadPayload (h : Carries P t d d') : Carries P t d (d'.loadPayload t) := by
  have he : d'.Emits (Effect.Silent t) (d'.loadPayload t) := (Emits.refl _ d').loadPayload
  rcases loadPayload_cases d' t with ⟨-, heq⟩ | ⟨channel, hr, -, -, -, heq⟩
  · rw [heq]
    exact h
  · rw [heq] at he ⊢
    exact h.trans (.of_within hr (record_setRecord ..) (.of_eq rfl rfl rfl) he)

theorem Carries.scheduleRejoin (h : Carries P t d d') {env : Env} :
    Carries P t d (d'.scheduleRejoin env t) := by
  have he : d'.Emits (Effect.Silent t) (d'.scheduleRejoin env t) := (Emits.refl _ d').scheduleRejoin
  rcases scheduleRejoin_cases env d' t with ⟨-, heq⟩ | ⟨channel, hr, -, -, heq⟩
  · rw [heq]
    exact h
  · rw [heq] at he ⊢
    exact h.trans (.of_within hr (record_setRecord ..) (.of_eq rfl rfl rfl) he)

theorem Carries.discardChannel (h : Carries P t d d') : Carries P t d (d'.discardChannel topic) :=
  h.trans (.of_record rfl (.of_trace rfl))

theorem Carries.forgetJoins (h : Carries P t d d') : Carries P t d (d'.forgetJoins topic) :=
  h.trans (.of_record rfl (.of_trace rfl))

/-- A flush sends the front of the queue. -/
theorem Carries.flush (h : Carries P t d d') (env : Env) : Carries P t d (d'.flush env t).1 := by
  cases hr : d'.record t with
  | none =>
    rw [flush_of_none hr]
    exact h
  | some channel =>
    obtain ⟨sent, rest, effects, hsplit, hr', ht, hs, -⟩ := flush_sends env hr
    refine h.trans
      { clear := fun hc channel' hc' => ?_
        sends := fun _ => ⟨effects, ht, ?_⟩ }
    · cases hr'.symm.trans hc'
      exact hc channel hr
    · rw [queuedIds_of_some hr, queuedIds_of_some hr', hsplit, List.map_append]
      exact (List.filter_sublist.trans hs).append_right _

/-- A leave is sent for a request that is not marked. -/
theorem Carries.sendLeave (h : Carries P t d d') (env : Env) {pending : PendingLeave}
    (hs : d.Clear P t → P pending.id = false) : Carries P t d (d'.sendLeave env t pending).1 := by
  cases hj : d'.state.protocol.joinedRef t with
  | none =>
    obtain ⟨e, he⟩ := sendLeave_of_not_joined env pending hj
    rw [he]
    exact h.trans (.of_record rfl (.of_trace rfl))
  | some joinRef =>
    obtain ⟨c, hc, hst, -⟩ := Protocol.joinedRef_eq_some.mp hj
    rw [sendLeave_of_joined hc hst]
    have htrack : Carries P t d (d'.trackLeave t pending) := h.trans (.of_record rfl (.of_trace rfl))
    refine htrack.sendFrame env fun hc id hm => ?_
    cases List.mem_singleton.mp hm
    exact hs hc

end

/-! ### Handlers

Most handlers leave the queue alone. A flush takes from its front and a stop drops all of it. -/

section
variable {P : RequestId → Bool} {env : Env} {d : Driver} {t topic : Topic}

/-- A new record has an empty queue, and there was none before. -/
theorem carries_register : Carries P t d (d.register env t) := by
  unfold register
  split
  · exact .refl ..
  · rename_i hc
    have hr : d.record t = none := by
      rw [record, getElem?_eq_none_iff, Std.ExtTreeMap.mem_iff_contains]
      exact hc
    refine
      { clear := fun _ channel hc' => ?_
        sends := fun _ => ⟨[], by simp [setRecord], ?_⟩ }
    · cases (record_setRecord ..).symm.trans hc'
      simp
    · rw [queuedIds_of_some (record_setRecord ..), queuedIds_of_none hr]
      exact List.nil_sublist _

theorem Carries.unregister {d' : Driver} (h : Carries P t d d') : Carries P t d (d'.unregister t) := by
  have hstop : Carries P t d (d'.stopChannel t) := h.stopChannel
  refine hstop.trans (.of_none ?_ (.of_trace rfl))
  show ((d'.stopChannel t).state.channels.erase t)[t]? = none
  rw [Table.lookup_erase, if_pos rfl]

/-- The frame of a dropped handle is a leave that serves no push. -/
theorem carries_unregisterConnected : Carries P t d (d.unregisterConnected env t).1 := by
  by_cases hj : d.state.protocol.channelState t = some .joined
  · obtain ⟨c, hc, hs⟩ := Option.map_eq_some_iff.mp hj
    rw [unregisterConnected_of_joined hc hs]
    have hleave : Carries P t d (d.setProtocol (d.state.protocol.leave t).2) :=
      .of_record rfl (.of_trace rfl)
    exact hleave.unregister.sendFrame env fun _ => nofun
  · rw [unregisterConnected_of_not_joined hj]
    exact (Carries.refl P t d).unregister

/-- A join waits beside the queue. -/
theorem carries_handleJoin {id : RequestId} (hid : P id = false) (timeout : Duration) :
    Carries P t d (d.handleJoin id t timeout) := by
  cases hr : d.record t with
  | none =>
    simp only [handleJoin, hr]
    exact (Carries.refl P t d).answer
  | some channel =>
    by_cases hj : d.state.protocol.channelState t = some .joined
    · simp only [handleJoin, hr, if_pos hj]
      refine Carries.answer ?_
      exact (Carries.refl P t d).setRecord hr (.of_eq rfl rfl rfl)
    · simp only [handleJoin, hr, if_neg hj]
      refine Carries.loadPayload ((Carries.refl P t d).setRecord hr ?_)
      refine ⟨List.Sublist.refl _, fun id' hm => ?_, fun pending hm => .inr ⟨pending, hm, rfl⟩⟩
      rcases List.mem_insert_iff.mp hm with rfl | hm
      · exact .inr hid
      · exact .inl hm

/-- The queue is interrupted before the leave is sent. -/
theorem carries_handleLeave {id : RequestId} (hid : P id = false) (timeout : Duration) :
    Carries P t d (d.handleLeave env id t timeout).1 := by
  have hstop : ∀ status, Carries P t d ((d.setStatus t status).stopChannel t) := fun _ =>
    (Carries.refl P t d).setStatus.stopChannel
  cases leave_handled env d id t timeout with
  | sent channel hc hs he =>
    rw [he]
    exact (hstop _).sendLeave env fun _ => hid
  | deferred channel hs hr he =>
    rw [he]
    refine (hstop _).setRecord hr ⟨List.Sublist.refl _, fun _ hm => .inl hm, fun pending hm => .inl ?_⟩
    cases hm
    exact hid
  | idle hs hj he =>
    rw [he]
    exact (hstop _).answer

/-- The frame that follows a load serves joins. -/
theorem carries_handlePayload (payloadId : UInt64) (payload : Except String Value) :
    Carries P t d (d.handlePayload env t payloadId payload).1 := by
  cases payload_handled env d t payloadId payload with
  | ignored h he =>
    rw [he]
    exact .refl ..
  | late channel hr ha h he =>
    rw [he]
    exact (Carries.refl P t d).setRecord hr (.of_eq rfl rfl rfl)
  | failed message channel hp hr ha he =>
    rw [he]
    refine Carries.emitChannel (Carries.answers ?_)
    exact (Carries.refl P t d).setRecord hr (.of_bare rfl rfl (.inl rfl))
  | joined value channel d₁ hp hr ha hd hs hd₁ hs₁ he =>
    rw [he]
    have hr₁ : d₁.record t = some channel := by
      rcases hd₁ with rfl | ⟨-, rfl⟩
      · exact hr
      · exact hr
    have hdiscard : Carries P t d d₁ := by
      rcases hd₁ with rfl | ⟨-, rfl⟩
      · exact .refl ..
      · exact (Carries.refl P t d).discardChannel
    have htrack : (d₁.trackJoin t value channel.loaded).record t =
        some { channel.loaded with status := .joining } := by
      show (d₁.state.channels.insert t _)[t]? = _
      rw [Table.lookup_insert, if_pos rfl]
    refine Carries.sendFrame (hdiscard.trans
      (.of_within hr₁ htrack (.of_eq rfl rfl rfl) (.of_trace rfl))) env fun hc id hm => ?_
    exact (hc channel hr).1 id hm

/-- A rejoin keeps the queue for the channel that it joins. -/
theorem carries_handleRejoin : Carries P t d (d.handleRejoin t) := by
  unfold handleRejoin
  cases hr : d.record t with
  | none => exact .refl ..
  | some channel =>
    have hset : Carries P t d (d.setRecord t { channel with rejoinScheduled := false }) :=
      (Carries.refl P t d).setRecord hr (.of_eq rfl rfl rfl)
    dsimp only
    split
    · exact hset.loadPayload
    · exact hset

/-- The queue waits on for the next join. -/
theorem carries_joinTimedOut (d : Driver) (t : Topic) (duration : Duration) :
    Carries P t d (d.joinTimedOut env t duration) := by
  have hdiscard : Carries P t d (d.discardChannel t) := (Carries.refl P t d).discardChannel
  cases hr : d.record t with
  | none =>
    rw [joinTimedOut_of_none hr]
    exact hdiscard
  | some channel =>
    have hr' : (d.discardChannel t).record t = some channel := hr
    cases hl : channel.deferredLeave with
    | some pending =>
      rw [joinTimedOut_of_deferred hr hl]
      refine Carries.answerLeave (hdiscard.setRecord hr' ?_)
      exact ⟨List.Sublist.refl _, fun _ hm => .inl hm, nofun⟩
    | none =>
      cases hd : channel.desired with
      | true =>
        rw [joinTimedOut_of_wanted hr hl hd]
        refine Carries.scheduleRejoin (Carries.answers (hdiscard.setRecord hr' ?_))
        exact .of_bare rfl rfl (.inl rfl)
      | false =>
        rw [joinTimedOut_of_unwanted hr hl hd]
        exact hdiscard.setRecord hr' (.of_eq rfl rfl rfl)

/-- The leave's channel was stopped, so what is queued came since. -/
theorem carries_leaveTimedOut (d : Driver) (t : Topic) (pending : PendingLeave)
    (duration : Duration) : Carries P t d (d.leaveTimedOut t pending duration) := by
  have hdiscard : Carries P t d
      ((d.answerLeave (some pending) (.error (.timeout .leave duration))).discardChannel t) :=
    (Carries.refl P t d).answerLeave.discardChannel
  unfold leaveTimedOut
  dsimp only
  split
  · exact hdiscard
  · split
    · exact hdiscard.setStatus.loadPayload
    · exact hdiscard.setStatus

/-- A deadline serves no push. -/
theorem carries_operationTimeout (d : Driver) (timer : Timer OperationTimeout) :
    Carries P timer.value.topic d
      ((d.takeOperationTimeout timer).handleOperationTimeout env timer.value) := by
  cases hv : timer.value with
  | join topic reference duration =>
    have herase : Carries P topic d ((d.takeOperationTimeout timer).eraseJoin reference) :=
      .of_record rfl (.of_trace rfl)
    simp only [handleOperationTimeout]
    split
    · exact herase.trans (carries_joinTimedOut _ topic duration)
    · exact herase
  | leave topic reference duration =>
    have herase : Carries P topic d ((d.takeOperationTimeout timer).eraseLeave reference) :=
      .of_record rfl (.of_trace rfl)
    simp only [handleOperationTimeout]
    split
    · exact .of_record rfl (.of_trace rfl)
    · exact herase.trans (carries_leaveTimedOut _ topic _ duration)

/-! ### Frames

The reply to a join flushes the queue, and what ends a channel drops it. -/

variable {reference : Reference} {response : Payload}

/-- The queue is sent from its front, up to the first push that fails. -/
theorem carries_onJoined : Carries P t d (d.onJoined env t reference response).1 := by
  have herase : Carries P t d (d.eraseJoin reference) := .of_record rfl (.of_trace rfl)
  cases hr : d.record t with
  | none =>
    rw [onJoined_of_none hr]
    exact herase.emitChannel.flush env
  | some channel =>
    have hr' : (d.eraseJoin reference).record t = some channel := hr
    have hset : Carries P t d ((d.eraseJoin reference).setRecord t channel.joined) :=
      herase.setRecord hr' (.of_bare rfl rfl (.inr rfl))
    have hwelcome : Carries P t d (d.welcome t reference response channel) :=
      hset.answers.emitChannel
    cases hl : channel.deferredLeave with
    | none =>
      rw [onJoined_of_not_deferred hr hl]
      exact hwelcome.flush env
    | some pending =>
      rw [onJoined_of_deferred hr hl]
      exact hwelcome.sendLeave env fun hc => (hc channel hr).2 pending hl

theorem Carries.leaveAnswers {d' : Driver} (h : Carries P t d d') {pending : Option PendingLeave}
    {result : Except ClientError Success} :
    Carries P t d (d'.emitAll (leaveAnswers pending result)) := by
  rw [← answerLeave_eq]
  exact h.answerLeave

/-- The queue waits on for the next join. -/
theorem carries_onJoinError : Carries P t d (d.onJoinError env t reference response) := by
  have herase : Carries P t d (d.eraseJoin reference) := .of_record rfl (.of_trace rfl)
  cases hr : d.record t with
  | none =>
    rw [onJoinError_of_none hr]
    exact herase.emitChannel
  | some channel =>
    have hr' : (d.eraseJoin reference).record t = some channel := hr
    rw [onJoinError_of_some hr, refusals, ← emitAll_emitAll]
    refine Carries.scheduleRejoin (Carries.emitChannel (Carries.answers (Carries.leaveAnswers ?_)))
    exact herase.setRecord hr' (.of_bare rfl rfl (.inr rfl))

/-- A channel that is wanted again keeps its queue. -/
theorem carries_onLeft : Carries P t d (d.onLeft t reference response) := by
  have herase : Carries P t d (d.eraseLeave reference) := .of_record rfl (.of_trace rfl)
  have hsettle : Carries P t d (d.leaveSettled reference response) := herase.leaveAnswers
  cases hr : d.record t with
  | none =>
    rw [onLeft_of_none hr]
    exact hsettle.emitChannel
  | some channel =>
    have hr' : (d.leaveSettled reference response).record t = some channel := hr
    have hset : ∀ status, Carries P t d
        ((d.leaveSettled reference response).setRecord t { channel with status }) := fun _ =>
      hsettle.setRecord hr' (.of_eq rfl rfl rfl)
    rw [onLeft_of_some hr]
    split
    · exact (hset _).emitChannel.loadPayload
    · exact (hset _).emitChannel

/-- A reply takes nothing from a queue. -/
theorem carries_onReply {event : String} {status : ReplyStatus} :
    Carries P t d (d.onReply topic event reference status response) := by
  cases hc : d.state.pendingCalls[reference]? with
  | none =>
    rw [onReply_of_none hc]
    exact (Carries.refl P t d).emitChannel
  | some call =>
    rw [onReply_of_some hc]
    have hsettled : Carries P t d (d.callSettled reference call status response) := by
      refine .of_record rfl ⟨_, rfl, fun effect hm => ?_⟩
      simp only [List.mem_cons, List.not_mem_nil, or_false] at hm
      rcases hm with rfl | rfl <;> rfl
    exact hsettled.emitChannel

/-- An acknowledgement takes nothing from a queue. -/
theorem carries_onHeartbeatAck : Carries P t d (d.onHeartbeatAck reference) := by
  unfold onHeartbeatAck
  split
  · exact .of_record rfl (.of_trace rfl)
  split
  · exact .refl ..
  · refine .of_record rfl ⟨_, rfl, fun effect hm => ?_⟩
    cases List.mem_singleton.mp hm
    rfl

theorem carries_onChannelError {payload : Payload} :
    Carries P t d (d.onChannelError env t payload) :=
  (Carries.refl P t d).forgetJoins.setStatus.emitChannel.scheduleRejoin

/-- The queue that is interrupted is left out. -/
theorem carries_onChannelClosed {payload : Payload} :
    Carries P t d (d.onChannelClosed t payload) := by
  have hforget : Carries P t d (d.forgetJoins t) := (Carries.refl P t d).forgetJoins
  cases hr : d.record t with
  | none =>
    rw [onChannelClosed_of_none hr]
    exact hforget.emitChannel
  | some channel =>
    have hr : (d.forgetJoins t).record t = some channel := hr
    simp only [onChannelClosed, hr]
    refine Carries.stopChannel (Carries.emitChannel (hforget.setRecord hr ?_))
    exact .of_eq rfl rfl rfl

/-- A frame's event, whatever topic it is about. -/
theorem carries_handleEvent {frame : Frame} {event : ProtocolEvent} {p : Protocol}
    (hrec : d.state.protocol.receive frame = (.ok event, p)) :
    Carries P t d ((d.setProtocol p).handleEvent env event).1 := by
  by_cases ht : t = topicOf event
  swap
  · exact (apart_handleEvent hrec).carries ht
  have hset : Carries P t d (d.setProtocol p) := .of_record rfl (.of_trace rfl)
  refine hset.trans ?_
  cases event with
  | joined topic reference response =>
    cases ht
    exact carries_onJoined
  | joinError topic reference response =>
    cases ht
    exact carries_onJoinError
  | reply topic name reference status response => exact carries_onReply
  | left topic reference response =>
    cases ht
    exact carries_onLeft
  | heartbeatAck reference status => exact carries_onHeartbeatAck
  | channelError topic payload =>
    cases ht
    exact carries_onChannelError
  | channelClosed topic payload =>
    cases ht
    exact carries_onChannelClosed
  | message frame | staleMessage frame | unmatchedReply frame =>
    exact (Carries.refl P t _).emitChannel
  | requestInterrupted topic name reference => cases Protocol.receive_explains hrec

/-- Of the messages a reply to a join alone sends the queue. -/
theorem carries_onMessage (message : WireMessage) : Carries P t d (d.onMessage env message).1 := by
  have hincoming : Carries P t d (d.handleIncoming env message).1 := by
    cases hd : env.codec.decode message with
    | error e =>
      simp only [handleIncoming, hd]
      exact .refl ..
    | ok frame =>
      obtain ⟨report, hi⟩ := handleIncoming_of_decoded (d := d) hd
      rw [hi]
      have hreport : Carries P t d (d.emitAll [.telemetry report]) := by
        refine (Carries.refl P t d).emitAll fun effect hm => ?_
        cases List.mem_singleton.mp hm
        rfl
      refine hreport.trans ?_
      rcases hrec : (d.emitAll [.telemetry report]).state.protocol.receive frame with ⟨e | event, p⟩
      · simp only [handleFrame, hrec]
        exact .of_record rfl (.of_trace rfl)
      · simp only [handleFrame, hrec]
        exact carries_handleEvent hrec
  unfold onMessage
  dsimp only
  rcases hh : d.handleIncoming env message with ⟨d', _ | reason⟩
  · rw [hh] at hincoming
    simp only [Result.andThen]
    split
    · exact hincoming.trans (.of_record rfl (.of_trace rfl))
    · exact hincoming
  · rw [hh] at hincoming
    exact hincoming

end

/-! ### Cancellation

A cancelled push is taken out wherever it is, which leaves the others in their order. -/

section
variable {P : RequestId → Bool} {d : Driver} {t topic : Topic} {channel : ChannelRecord}
  {id : RequestId}

/-- Taking one push out leaves the others in order. -/
theorem removeQueued_sublist (id : RequestId) (queued : List QueuedPush) :
    (removeQueued id queued).Sublist queued := by
  induction queued with
  | nil => exact List.Sublist.refl _
  | cons push rest ih =>
    simp only [removeQueued]
    split
    · exact List.sublist_cons_self ..
    · exact ih.cons_cons push

/-- A waiter is no push. -/
theorem carries_cancelJoin (hr : d.record t = some channel) :
    Carries P t d (d.cancelJoin t channel id) := by
  have hwithin : Within P channel { channel with joinWaiters := channel.joinWaiters.erase id } :=
    ⟨List.Sublist.refl _, fun _ hm => .inl (List.mem_of_mem_erase hm), fun pending hm => .inr ⟨pending, hm, rfl⟩⟩
  by_cases hc : channel.joinWaiters.erase id = [] ∧ channel.everJoined = false
  · rw [cancelJoin_of_last hc.1 hc.2]
    refine Carries.discardChannel (Carries.forgetJoins (Carries.emitAll ?_ (by simp [Effect.Silent, Effect.servedOn])))
    exact (Carries.refl P t d).setRecord hr ⟨hwithin.queued, hwithin.waiters, hwithin.leave⟩
  · rw [cancelJoin_of_others hc]
    exact ((Carries.refl P t d).setRecord hr hwithin).emitAll (by simp [Effect.Silent, Effect.servedOn])

/-- The cancelled push is left out. -/
theorem carries_cancelUnsent (hr : d.record t = some channel) :
    Carries P t d (d.cancelUnsent t channel id) := by
  cases d.cancelUnsent_cases t channel id with
  | leave pending hd hid he =>
    have hset : Carries P t d (d.setRecord t { channel with
        deferredLeave := some { pending with response := false } }) := by
      refine (Carries.refl P t d).setRecord hr
        ⟨List.Sublist.refl _, fun _ hm => .inl hm, fun pending' hm => .inr ⟨pending, hd, ?_⟩⟩
      cases hm
      rfl
    rw [he]
    exact hset.emitAll (by simp [Effect.Silent, Effect.servedOn])
  | push push hf he =>
    have hset : Carries P t d (d.setRecord t { channel with
        queued := removeQueued id channel.queued }) :=
      (Carries.refl P t d).setRecord hr ⟨(removeQueued_sublist id _).map _, fun _ hm => .inl hm,
        fun pending hm => .inr ⟨pending, hm, rfl⟩⟩
    rw [he]
    refine hset.emitAll (push.forall_cancellation ?_ ?_)
    · simp [Effect.Silent, Effect.servedOn]
    · simp [Effect.Silent, Effect.servedOn]
  | nothing hd hq he =>
    rw [he]
    exact .refl ..

/-- What was sent is in no queue. -/
theorem carries_cancelPending : Carries P t d (d.cancelPending id) := by
  have hcall : Carries P t d (d.cancelCall id) := by
    rcases cancelCall_cases d id with hcancel | ⟨reference, call, -, -, hcancel⟩
    · rw [hcancel]
      exact .refl ..
    · rw [hcancel]
      exact .of_record rfl ⟨_, rfl, by simp [Effect.Silent, Effect.servedOn]⟩
  have hleave : ∀ d : Driver, Carries P t d (d.cancelLeave id) := by
    intro d
    rcases cancelLeave_cases d id with hcancel | ⟨reference, leave, -, -, hcancel⟩
    · rw [hcancel]
      exact .refl ..
    · rw [hcancel]
      refine .of_record rfl ⟨_, rfl, fun effect hm => ?_⟩
      split at hm
      · cases List.mem_singleton.mp hm
        rfl
      · cases hm
  have hping : ∀ d : Driver, Carries P t d (d.cancelPing id) := by
    intro d
    rcases cancelPing_cases d id with hcancel | ⟨reference, ping, -, -, hcancel⟩
    · rw [hcancel]
      exact .refl ..
    · rw [hcancel]
      exact .of_record rfl ⟨_, rfl, by simp [Effect.Silent, Effect.servedOn]⟩
  exact (hcall.trans (hping _)).trans (hleave _)

/-- At most the cancelled push is left out. -/
theorem carries_cancel (d : Driver) (id : RequestId) : Carries P t d (d.cancel id) := by
  cases d.cancel_found id with
  | join topic channel hr hm he =>
    rw [he]
    by_cases ht : t = topic
    · rw [ht]
      exact carries_cancelJoin hr
    · exact apart_cancelJoin.carries ht
  | unsent topic channel hr hm he =>
    rw [he]
    by_cases ht : t = topic
    · rw [ht]
      exact carries_cancelUnsent hr
    · exact apart_cancelUnsent.carries ht
  | pending hj hq he =>
    rw [he]
    exact carries_cancelPending

end

/-! ### The connection

The queue outlives a lost connection. -/

section
variable {P : RequestId → Bool} {env : Env} {d d' : Driver} {t topic : Topic}

/-- Every record is rewritten within what it was, and nothing is sent. -/
theorem Carries.of_map {f : ChannelRecord → ChannelRecord} (hf : ∀ channel, Within P channel (f channel))
    (hr : d'.record t = (d.record t).map f) (he : d.Emits (Effect.Silent t) d') : Carries P t d d' := by
  cases h : d.record t with
  | none =>
    rw [h] at hr
    exact .of_none hr he
  | some channel =>
    rw [h] at hr
    exact .of_within h hr (hf channel) he

theorem silent_report {effect : Effect} (h : effect.IsReport) : effect.Silent t :=
  Lenient.report effect h

theorem carries_emitSocket (event : SocketEvent) : Carries P t d (d.emitSocket event) := by
  exact .of_map (f := ChannelRecord.heard event) (fun channel => .of_eq rfl rfl rfl) (emitSocket_record d event t)
    ((Emits.refl _ d).emitSocket rfl rfl)

/-- An interruption is not sent. -/
theorem silent_interruptions (old : DriverState) (clock : Duration) :
    ∀ effect ∈ interruptions old clock, effect.Silent t := by
  intro effect hm
  simp only [interruptions, List.mem_append, List.mem_flatMap, List.mem_map] at hm
  rcases hm with ((⟨entry, -, hm⟩ | ⟨entry, -, rfl⟩) | ⟨entry, -, rfl⟩) | ⟨pending, -, rfl⟩
  · simp only [List.mem_cons, List.not_mem_nil, or_false] at hm
    rcases hm with rfl | rfl <;> rfl
  · rfl
  · rfl
  · rfl

/-- Queues outlive the connection. -/
theorem carries_onDisconnect (d : Driver) (reason : DisconnectReason) :
    Carries P t d (d.onDisconnect reason) := by
  obtain ⟨reports, hreports, he⟩ := onDisconnect_eq d reason
  rw [he]
  refine .of_map (f := offlineRecord) (fun channel => ?_) Std.ExtTreeMap.getElem?_map
    ⟨_, rfl, fun effect hm => ?_⟩
  · exact ⟨List.Sublist.refl _, fun _ hm => .inl hm, nofun⟩
  · rcases List.mem_append.mp hm with hm | hm
    · exact silent_interruptions d.state d.clock effect hm
    · exact silent_report (hreports effect hm)

/-- What follows a failure is a report. -/
theorem carries_afterFailure (d : Driver) (reason : DisconnectReason) :
    Carries P t d (d.afterFailure env reason) := by
  have hattempt : Carries P t d { d with attempt := nextAttempt d.attempt } :=
    .of_record rfl (.of_trace rfl)
  have hphase : ∀ (d' : Driver) (phase : Phase), Carries P t d' { d' with phase } := fun _ _ =>
    .of_record rfl (.of_trace rfl)
  unfold afterFailure
  dsimp only
  split
  · exact (hattempt.trans (carries_emitSocket _)).trans (hphase _ _)
  · exact (hattempt.trans (carries_emitSocket _)).trans (hphase _ _)

/-- A connection that ended, whatever the handler did before, sends nothing more. -/
theorem carries_settle (r : Result) : Carries P t r.1 (settle env r) := by
  rcases r with ⟨d', _ | reason⟩
  · exact .refl ..
  · exact (carries_onDisconnect d' reason).trans (carries_afterFailure _ reason)

/-- Queues wait for their channels to be joined. -/
theorem carries_connectionMade (started : Duration) (transport : Transport) (order : List Topic) :
    Carries P t d (d.connectionMade env started transport order) := by
  have hload : ∀ (d : Driver) (topic : Topic), Carries P t d (d.startLoad topic) := by
    intro d topic
    by_cases ht : t = topic
    · rw [ht]
      exact (Carries.refl P topic d).setStatus.loadPayload
    · have hk : Apart topic d (d.startLoad topic) := (Apart.refl topic d).setStatus.loadPayload
      exact hk.carries ht
  have hconnected : Carries P t d (d.connected env started transport) :=
    .of_map (f := ChannelRecord.unscheduled) (fun channel => .of_eq rfl rfl rfl)
      (connected_record ..) ⟨_, rfl, by simp [Effect.Silent, Effect.servedOn]⟩
  exact connectionMade_induction (Carries P t d) hconnected fun d' topic h => h.trans (hload d' topic)

theorem carries_close (d : Driver) : Carries P t d d.close :=
  (carries_emitSocket .closed).trans (.of_record rfl (.of_trace rfl))

theorem carries_disconnect (d : Driver) : Carries P t d d.disconnect :=
  (carries_onDisconnect d .requested).trans
    (.of_record rfl ⟨[.acknowledged], rfl, by simp [Effect.Silent, Effect.servedOn]⟩)

theorem carries_acknowledge (d : Driver) : Carries P t d d.acknowledge :=
  .of_record rfl ⟨[.acknowledged], rfl, by simp [Effect.Silent, Effect.servedOn]⟩

theorem carries_attemptFinished (d : Driver) (started : Duration) (connected : Bool) :
    Carries P t d (d.attemptFinished started connected) :=
  .of_record rfl ⟨_, rfl, by simp [Effect.Silent, Effect.servedOn]⟩

theorem carries_accept (d : Driver) (command : Command) : Carries P t d (d.accept command) := by
  unfold accept
  split
  · exact .of_record rfl ⟨_, rfl, by simp [Effect.Silent, Effect.servedOn]⟩
  · exact .refl ..

theorem carries_beginConnect (d : Driver) : Carries P t d (d.beginConnect env) :=
  (carries_emitSocket (.connecting d.attempt)).trans (.of_record rfl (.of_trace rfl))

theorem carries_connectFailed (d : Driver) (started : Duration) (error : TransportError) :
    Carries P t d (d.connectFailed env started error) :=
  ((carries_attemptFinished d started false).trans (carries_emitSocket _)).trans
    (carries_afterFailure ..)

end

end Driver
end PhoenixChannel.Client
