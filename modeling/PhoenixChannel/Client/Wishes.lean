import PhoenixChannel.Client.Continuity

/-! Who asks for a channel.

Only a join request makes a channel wanted and only a wanted channel is joined, so whatever is
started for a channel was asked for by a join of it. -/
namespace PhoenixChannel.Client
open PhoenixChannel.Runtime Library

namespace Driver

/-- The topic's channel is wanted. -/
def wants (d : Driver) (t : Topic) : Bool := (d.record t).any ChannelRecord.desired

/-- The joins that wait for the topic's channel. -/
def waiters (d : Driver) (t : Topic) : List RequestId := (d.record t).elim [] ChannelRecord.joinWaiters

/-- A channel that somebody waits for is wanted. -/
def Waited (d : Driver) : Prop := ∀ t : Topic, d.waiters t ≠ [] → d.wants t = true

/-- What becomes of wishes while `effects` are done: a channel comes to be wanted, gets a waiter
and is loaded only where it was wanted or a join in `asks` is for it. -/
structure WishedWith (asks : List (Topic × RequestId)) (effects : List Effect) (d d' : Driver) : Prop where
  wants : ∀ t : Topic, d'.wants t = true → d.wants t = true ∨ ∃ id, (t, id) ∈ asks
  waiters : ∀ (t : Topic), ∀ id ∈ d'.waiters t, id ∈ d.waiters t ∨ (t, id) ∈ asks
  loads : ∀ load ∈ loadsOf effects, d.wants load.1 = true ∨ ∃ id, (load.1, id) ∈ asks
  waited : d.Waited → d'.Waited

def Wished (asks : List (Topic × RequestId)) (d d' : Driver) : Prop :=
  ∃ effects, d'.trace = d.trace ++ effects ∧ WishedWith asks effects d d'

section
variable {asks : List (Topic × RequestId)} {d d' d'' : Driver} {topic : Topic} {effects : List Effect}
  {channel channel' : ChannelRecord}

theorem wants_of_some (hr : d.record topic = some channel) : d.wants topic = channel.desired := by
  rw [wants, hr, Option.any_some]

theorem waiters_of_some (hr : d.record topic = some channel) : d.waiters topic = channel.joinWaiters := by
  rw [waiters, hr, Option.elim_some]

theorem Wished.trans (h : Wished asks d d') (h' : Wished asks d' d'') : Wished asks d d'' := by
  obtain ⟨effects, ht, h⟩ := h
  obtain ⟨effects', ht', h'⟩ := h'
  have hwants : ∀ t : Topic, (d'.wants t = true ∨ ∃ id, (t, id) ∈ asks) →
      d.wants t = true ∨ ∃ id, (t, id) ∈ asks := fun t hw => hw.elim (h.wants t) .inr
  refine ⟨effects ++ effects', by rw [ht', ht, List.append_assoc], fun t hw => hwants t (h'.wants t hw),
    fun t id hm => ?_, fun load hm => ?_, fun hw => h'.waited (h.waited hw)⟩
  · exact (h'.waiters t id hm).elim (h.waiters t id) .inr
  · rw [loadsOf_append] at hm
    rcases List.mem_append.mp hm with hm | hm
    · exact h.loads load hm
    · exact hwants load.1 (h'.loads load hm)

/-- Nothing is loaded, and each record is wanted and waited for at most as before. -/
theorem Wished.of_idle (hw : ∀ t : Topic, d'.wants t = true → d.wants t = true)
    (hi : ∀ t : Topic, d'.waiters t ⊆ d.waiters t)
    (hk : ∀ t : Topic, d'.waiters t ≠ [] → d'.wants t = d.wants t)
    (he : d.Emits (fun effect => ¬ effect.Sends) d') : Wished asks d d' := by
  obtain ⟨effects, ht, hidle⟩ := he
  refine ⟨effects, ht, fun t h => .inl (hw t h), fun t id hm => .inl (hi t hm), fun load hm => ?_,
    fun h t hne => ?_⟩
  · rw [loadsOf_of_idle hidle] at hm
    cases hm
  · rw [hk t hne]
    obtain ⟨id, hm⟩ := List.exists_mem_of_ne_nil _ hne
    exact h t (List.ne_nil_of_mem (hi t hm))

theorem Wished.of_same (hr : d'.state.channels = d.state.channels)
    (he : d.Emits (fun effect => ¬ effect.Sends) d') : Wished asks d d' := by
  have hrec : ∀ t : Topic, d'.record t = d.record t := fun t => by rw [record, hr, record]
  refine .of_idle (fun t h => ?_) (fun t => ?_) (fun t _ => ?_) he
  · rwa [wants, hrec] at h
  · rw [Driver.waiters, hrec]
    exact List.Subset.refl _
  · rw [Driver.wants, hrec, Driver.wants]

theorem Wished.refl (asks : List (Topic × RequestId)) (d : Driver) : Wished asks d d :=
  .of_same rfl (.refl _ d)

theorem Wished.same (h : Wished asks d d') (hr : d''.state.channels = d'.state.channels)
    (he : d'.Emits (fun effect => ¬ effect.Sends) d'') : Wished asks d d'' :=
  h.trans (.of_same hr he)

theorem Wished.emitAll (h : Wished asks d d') (he : ∀ effect ∈ effects, ¬ effect.Sends) :
    Wished asks d (d'.emitAll effects) :=
  h.same rfl ⟨effects, rfl, he⟩

theorem Wished.emitChannel (h : Wished asks d d') {event : ChannelEvent} :
    Wished asks d (d'.emitChannel topic event) := by
  rw [emitChannel_eq]
  exact h.emitAll fun effect hm => idle_of_report (channelEffects_report d' topic event effect hm)

theorem Wished.answers (h : Wished asks d d') {operation : ClientOperation} {ids : List RequestId}
    {result : Except ClientError Success} :
    Wished asks d (d'.emitAll (ids.map fun id => .answered operation id result)) := by
  refine h.emitAll fun effect hm => ?_
  obtain ⟨id, -, rfl⟩ := List.mem_map.mp hm
  exact not_false

theorem Wished.answerLeave (h : Wished asks d d') {pending : Option PendingLeave}
    {result : Except ClientError Success} : Wished asks d (d'.answerLeave pending result) := by
  rw [answerLeave_eq]
  refine h.emitAll fun effect hm => ?_
  obtain ⟨leave, -, -, rfl⟩ := mem_leaveAnswers hm
  exact not_false

/-- One record is written, which nobody waits for or which is wanted as before. -/
theorem Wished.written (h : Wished asks d d') (hr : d'.record topic = some channel)
    (hrec : ∀ t : Topic, d''.record t = if t = topic then some channel' else d'.record t)
    (hd : channel'.desired = true → channel.desired = true)
    (hw : channel'.joinWaiters ⊆ channel.joinWaiters)
    (hk : channel'.joinWaiters = [] ∨ channel'.desired = channel.desired)
    (he : d'.Emits (fun effect => ¬ effect.Sends) d'') : Wished asks d d'' := by
  have hself : d''.record topic = some channel' := by rw [hrec, if_pos rfl]
  have hother : ∀ t : Topic, t ≠ topic → d''.record t = d'.record t := fun t ht => by
    rw [hrec, if_neg ht]
  refine h.trans (.of_idle (fun t hs => ?_) (fun t => ?_) (fun t hne => ?_) he)
  · by_cases ht : t = topic
    · rw [ht, wants_of_some hself] at hs
      rw [ht, wants_of_some hr, hd hs]
    · rwa [wants, hother t ht] at hs
  · by_cases ht : t = topic
    · rw [ht, waiters_of_some hself, waiters_of_some hr]
      exact hw
    · rw [Driver.waiters, hother t ht]
      exact List.Subset.refl _
  · by_cases ht : t = topic
    · rw [ht, waiters_of_some hself] at hne
      rw [ht, wants_of_some hself, wants_of_some hr, hk.resolve_left hne]
    · rw [Driver.wants, hother t ht, Driver.wants]

theorem Wished.setRecord (h : Wished asks d d') (hr : d'.record topic = some channel)
    (hd : channel'.desired = true → channel.desired = true)
    (hw : channel'.joinWaiters ⊆ channel.joinWaiters)
    (hk : channel'.joinWaiters = [] ∨ channel'.desired = channel.desired) :
    Wished asks d (d'.setRecord topic channel') :=
  h.written hr (fun t => record_setRecord_eq d' topic t channel') hd hw hk (.of_trace rfl)

/-- A record is written that is wanted and waited for as before. -/
theorem Wished.rewrite (h : Wished asks d d') (hr : d'.record topic = some channel)
    (hd : channel'.desired = channel.desired) (hw : channel'.joinWaiters = channel.joinWaiters) :
    Wished asks d (d'.setRecord topic channel') :=
  h.setRecord hr (fun h => hd ▸ h) (hw ▸ List.Subset.refl _) (.inr hd)

/-- A record is written that nobody waits for. -/
theorem Wished.settleRecord (h : Wished asks d d') (hr : d'.record topic = some channel)
    (hd : channel'.desired = true → channel.desired = true) (hw : channel'.joinWaiters = []) :
    Wished asks d (d'.setRecord topic channel') :=
  h.setRecord hr hd (hw ▸ List.nil_subset _) (.inl hw)

theorem Wished.setStatus (h : Wished asks d d') {status : ChannelStatus} :
    Wished asks d (d'.setStatus topic status) := by
  cases hr : d'.record topic with
  | none =>
    rw [setStatus_of_none hr]
    exact h
  | some channel =>
    rw [setStatus_of_some hr]
    exact h.rewrite hr rfl rfl

theorem Wished.stopChannel (h : Wished asks d d') : Wished asks d (d'.stopChannel topic) := by
  cases hr : d'.record topic with
  | none =>
    rw [stopChannel_of_none hr]
    exact h
  | some channel =>
    rw [stopChannel_of_some hr]
    refine (h.settleRecord hr (fun hd => absurd hd Bool.false_ne_true) rfl).emitAll fun effect hm => ?_
    rcases mem_stopEffects hm with ⟨operation, id, rfl⟩ | ⟨event, rfl⟩ <;> exact not_false

theorem Wished.scheduleRejoin (h : Wished asks d d') {env : Env} :
    Wished asks d (d'.scheduleRejoin env topic) := by
  rcases scheduleRejoin_cases env d' topic with ⟨-, he⟩ | ⟨channel, hr, -, -, he⟩
  · rw [he]
    exact h
  · rw [he]
    have hset : Wished asks d (d'.setRecord topic { channel with
        rejoinScheduled := true, joinAttempt := nextAttempt channel.joinAttempt }) :=
      h.rewrite hr rfl rfl
    exact hset.same rfl (.of_trace rfl)

theorem Wished.forgetJoins (h : Wished asks d d') : Wished asks d (d'.forgetJoins topic) :=
  h.same rfl (.of_trace rfl)

theorem Wished.eraseJoin (h : Wished asks d d') {reference : Reference} :
    Wished asks d (d'.eraseJoin reference) :=
  h.same rfl (.of_trace rfl)

theorem Wished.eraseLeave (h : Wished asks d d') {reference : Reference} :
    Wished asks d (d'.eraseLeave reference) :=
  h.same rfl (.of_trace rfl)

theorem Wished.setProtocol (h : Wished asks d d') {p : Protocol} : Wished asks d (d'.setProtocol p) :=
  h.same rfl (.of_trace rfl)

theorem Wished.discardChannel (h : Wished asks d d') : Wished asks d (d'.discardChannel topic) :=
  h.setProtocol

/-- **Only a wanted channel is loaded.** -/
theorem Wished.loadPayload (h : Wished asks d d') : Wished asks d (d'.loadPayload topic) := by
  rcases loadPayload_cases d' topic with ⟨-, he⟩ | ⟨channel, hr, hd, -, -, he⟩
  · rw [he]
    exact h
  rw [he]
  have hset : Wished asks d' (d'.setRecord topic { channel with
      status := .waitingToJoin, activePayload := some (Protocol.advance d'.state.nextPayloadId) }) :=
    (Wished.refl _ d').rewrite hr rfl rfl
  obtain ⟨effects', ht, hset⟩ := hset
  refine h.trans ⟨_, rfl, hset.wants, hset.waiters, fun load hm => .inl ?_, hset.waited⟩
  cases List.mem_singleton.mp hm
  rw [wants_of_some hr, hd]

/-- A frame is sent. -/
theorem Wished.sendFrame (h : Wished asks d d') (env : Env) {served : List RequestId} {frame : Frame} :
    Wished asks d (d'.sendFrame env served frame).1 := by
  obtain ⟨events, hsent⟩ := sendFrame_trace env d' served frame
  have hrec : ∀ t : Topic, (d'.sendFrame env served frame).1.record t = d'.record t := fun t => by
    rw [record, sendFrame_state, ← record]
  refine h.trans ⟨_, hsent, fun t hw => .inl ?_, fun t id hm => .inl ?_, fun load hm => ?_, fun hw t hne => ?_⟩
  · rwa [Driver.wants, hrec] at hw
  · rwa [Driver.waiters, hrec] at hm
  · rw [loadsOf_sent] at hm
    cases hm
  · rw [Driver.waiters, hrec] at hne
    rw [Driver.wants, hrec]
    exact hw t hne

/-- Pushes change no more of a record than its queue. -/
theorem Wished.pushed (h : Wished asks d d') (hp : d'.Pushed d'') : Wished asks d d'' := by
  obtain ⟨effects, ht, heffects⟩ := hp.effects
  have hsame : ∀ t : Topic, (d''.record t).map ChannelRecord.unqueued =
      (d'.record t).map ChannelRecord.unqueued := hp.records
  have hwants : ∀ t : Topic, d''.wants t = d'.wants t := fun t => by
    have := congrArg (fun r => r.any fun channel => channel.desired) (hsame t)
    rw [Option.any_map, Option.any_map] at this
    exact this
  have hwaiters : ∀ t : Topic, d''.waiters t = d'.waiters t := fun t => by
    have := congrArg (fun r => r.elim [] fun channel => channel.joinWaiters) (hsame t)
    rw [Option.elim_map, Option.elim_map] at this
    exact this
  refine h.trans ⟨effects, ht, fun t hw => .inl (hwants t ▸ hw), fun t id hm => .inl (hwaiters t ▸ hm),
    fun load hm => ?_, fun hw t hne => ?_⟩
  · obtain ⟨effect, hm, hl⟩ := List.mem_filterMap.mp hm
    cases effect with
    | loading topic payloadId context served => exact (heffects _ hm).elim
    | _ => cases hl
  · rw [hwants]
    exact hw t (hwaiters t ▸ hne)

theorem Wished.sendPush (h : Wished asks d d') (env : Env) {push : QueuedPush} :
    Wished asks d (d'.sendPush env topic push).1 :=
  h.pushed (sendPush_pushed env d' topic push)

theorem Wished.flush (h : Wished asks d d') (env : Env) : Wished asks d (d'.flush env topic).1 :=
  h.pushed (flush_pushed env d' topic)

theorem Wished.sendLeave (h : Wished asks d d') (env : Env) {pending : PendingLeave} :
    Wished asks d (d'.sendLeave env topic pending).1 := by
  cases hj : d'.state.protocol.joinedRef topic with
  | none =>
    obtain ⟨e, he⟩ := sendLeave_of_not_joined env pending hj
    rw [he]
    exact h.same rfl (.of_trace rfl)
  | some joinRef =>
    obtain ⟨c, hc, hs, -⟩ := Protocol.joinedRef_eq_some.mp hj
    rw [sendLeave_of_joined hc hs]
    have htrack : Wished asks d (d'.trackLeave topic pending) := h.same rfl (.of_trace rfl)
    exact htrack.sendFrame env

end

/-! ### Lifecycle and cancellation

They withdraw wishes or leave them alone. -/

section
variable {asks : List (Topic × RequestId)} {env : Env} {d d' : Driver} {topic : Topic} {id : RequestId}
  {channel : ChannelRecord}

/-- A new record is neither wanted nor waited for. -/
theorem wished_register (env : Env) (d : Driver) (topic : Topic) : Wished asks d (d.register env topic) := by
  unfold register
  split
  · exact .refl ..
  have hother : ∀ (channel : ChannelRecord) (t : Topic), t ≠ topic →
      (d.setRecord topic channel).record t = d.record t := fun channel t ht => by
    rw [record_setRecord_eq, if_neg ht]
  refine .of_idle (fun t hw => ?_) (fun t => ?_) (fun t hne => ?_) (.of_trace rfl)
  · by_cases ht : t = topic
    · rw [ht, wants_of_some (record_setRecord ..)] at hw
      exact absurd hw Bool.false_ne_true
    · rwa [wants, hother _ t ht] at hw
  · by_cases ht : t = topic
    · rw [ht, waiters_of_some (record_setRecord ..)]
      exact List.nil_subset _
    · rw [Driver.waiters, hother _ t ht]
      exact List.Subset.refl _
  · by_cases ht : t = topic
    · rw [ht, waiters_of_some (record_setRecord ..)] at hne
      exact absurd rfl hne
    · rw [Driver.wants, hother _ t ht, Driver.wants]

theorem Wished.unregister (h : Wished asks d d') : Wished asks d (d'.unregister topic) := by
  have hstop : Wished asks d (d'.stopChannel topic) := h.stopChannel
  have hrec : ∀ t : Topic, (d'.unregister topic).record t =
      if t = topic then none else (d'.stopChannel topic).record t := fun t => by
    show ((d'.stopChannel topic).state.channels.erase topic)[t]? = _
    rw [Table.lookup_erase]
    rfl
  refine hstop.trans (.of_idle (fun t hw => ?_) (fun t => ?_) (fun t hne => ?_) (.of_trace rfl))
  · by_cases ht : t = topic
    · rw [wants, hrec, if_pos ht] at hw
      exact absurd hw Bool.false_ne_true
    · rwa [wants, hrec, if_neg ht] at hw
  · by_cases ht : t = topic
    · rw [Driver.waiters, hrec, if_pos ht]
      exact List.nil_subset _
    · rw [Driver.waiters, hrec, if_neg ht]
      exact List.Subset.refl _
  · by_cases ht : t = topic
    · rw [Driver.waiters, hrec, if_pos ht] at hne
      exact absurd rfl hne
    · rw [Driver.wants, hrec, if_neg ht, Driver.wants]

theorem wished_unregisterConnected (env : Env) (d : Driver) (topic : Topic) :
    Wished asks d (d.unregisterConnected env topic).1 := by
  by_cases hj : d.state.protocol.channelState topic = some .joined
  · obtain ⟨c, hc, hs⟩ := Option.map_eq_some_iff.mp hj
    rw [unregisterConnected_of_joined hc hs]
    exact (Wished.refl _ d).setProtocol.unregister.sendFrame env
  · rw [unregisterConnected_of_not_joined hj]
    exact (Wished.refl _ d).unregister

/-- The last waiter of a channel that was never joined takes the wish with it. -/
theorem wished_cancelJoin (hr : d.record topic = some channel) :
    Wished asks d (d.cancelJoin topic channel id) := by
  by_cases h : channel.joinWaiters.erase id = [] ∧ channel.everJoined = false
  · rw [cancelJoin_of_last h.1 h.2]
    have hset : Wished asks d (d.setRecord topic (channel.abandoned id)) :=
      (Wished.refl _ d).settleRecord hr (fun hd => absurd hd Bool.false_ne_true) h.1
    exact (hset.emitAll (by simp [Effect.Sends])).forgetJoins.discardChannel
  · rw [cancelJoin_of_others h]
    have hset : Wished asks d
        (d.setRecord topic { channel with joinWaiters := channel.joinWaiters.erase id }) :=
      (Wished.refl _ d).setRecord hr (fun hd => hd) List.erase_subset (.inr rfl)
    exact hset.emitAll (by simp [Effect.Sends])

theorem wished_cancelUnsent (hr : d.record topic = some channel) :
    Wished asks d (d.cancelUnsent topic channel id) := by
  cases d.cancelUnsent_cases topic channel id with
  | leave pending hd hid he =>
    rw [he]
    refine Wished.emitAll ((Wished.refl _ d).rewrite hr rfl rfl) ?_
    simp [Effect.Sends]
  | push push hf he =>
    rw [he]
    refine Wished.emitAll ((Wished.refl _ d).rewrite hr rfl rfl) ?_
    exact push.forall_cancellation (by simp [Effect.Sends]) (by simp [Effect.Sends])
  | nothing hd hq he =>
    rw [he]
    exact .refl ..

theorem wished_cancelPending (d : Driver) (id : RequestId) : Wished asks d (d.cancelPending id) := by
  have hcall : Wished asks d (d.cancelCall id) := by
    rcases cancelCall_cases d id with hcancel | ⟨reference, call, -, -, hcancel⟩
    · rw [hcancel]
      exact .refl ..
    · rw [hcancel]
      exact .of_same rfl ⟨_, rfl, by simp [Effect.Sends]⟩
  have hping : ∀ d : Driver, Wished asks d (d.cancelPing id) := fun d => by
    rcases cancelPing_cases d id with hcancel | ⟨reference, ping, -, -, hcancel⟩
    · rw [hcancel]
      exact .refl ..
    · rw [hcancel]
      exact .of_same rfl ⟨_, rfl, by simp [Effect.Sends]⟩
  have hleave : ∀ d : Driver, Wished asks d (d.cancelLeave id) := fun d => by
    rcases cancelLeave_cases d id with hcancel | ⟨reference, leave, -, -, hcancel⟩
    · rw [hcancel]
      exact .refl ..
    · rw [hcancel]
      refine .of_same rfl ⟨_, rfl, fun effect hm => ?_⟩
      split at hm
      · cases List.mem_singleton.mp hm
        exact not_false
      · cases hm
  exact (hcall.trans (hping _)).trans (hleave _)

theorem wished_cancel (d : Driver) (id : RequestId) : Wished asks d (d.cancel id) := by
  cases d.cancel_found id with
  | join topic channel hr hm he =>
    rw [he]
    exact wished_cancelJoin hr
  | unsent topic channel hr hm he =>
    rw [he]
    exact wished_cancelUnsent hr
  | pending hj hq he =>
    rw [he]
    exact wished_cancelPending d id

/-! ### Commands

A join is the one that asks. -/

theorem wished_accept (d : Driver) (command : Command) : Wished asks d (d.accept command) := by
  unfold accept
  split
  · exact (Wished.refl _ d).emitAll (by simp [Effect.Sends])
  · exact .refl ..

theorem Wished.queue (h : Wished asks d d') {push : QueuedPush} :
    Wished asks d (d'.queue env topic push) := by
  rcases queue_cases env d' topic push with ⟨error, -, he⟩ | ⟨channel, hr, -, -, he⟩
  · rw [he]
    exact h.emitAll (by simp [Effect.Sends])
  · rw [he]
    exact h.rewrite hr rfl rfl

/-- **A join asks for its channel.** -/
theorem wished_join {channel' : ChannelRecord} (hr : d.record topic = some channel)
    (ha : (topic, id) ∈ asks) (hd : channel'.desired = true)
    (hw : channel'.joinWaiters ⊆ id :: channel.joinWaiters) :
    Wished asks d (d.setRecord topic channel') := by
  have hother : ∀ t : Topic, t ≠ topic → (d.setRecord topic channel').record t = d.record t :=
    fun t ht => by rw [record_setRecord_eq, if_neg ht]
  refine ⟨[], (List.append_nil _).symm, fun t hs => ?_, fun t waiter hm => ?_, nofun, fun h t hne => ?_⟩
  · by_cases ht : t = topic
    · exact .inr ⟨id, ht ▸ ha⟩
    · rw [Driver.wants, hother t ht] at hs
      exact .inl hs
  · by_cases ht : t = topic
    · rw [ht, waiters_of_some (record_setRecord ..)] at hm
      rw [ht, waiters_of_some hr]
      rcases List.mem_cons.mp (hw hm) with rfl | hm
      · exact .inr ha
      · exact .inl hm
    · rw [Driver.waiters, hother t ht] at hm
      exact .inl hm
  · by_cases ht : t = topic
    · rw [ht, wants_of_some (record_setRecord ..), hd]
    · rw [Driver.waiters, hother t ht] at hne
      rw [Driver.wants, hother t ht]
      exact h t hne

theorem wished_handleJoin (timeout : Duration) (ha : (topic, id) ∈ asks) :
    Wished asks d (d.handleJoin id topic timeout) := by
  unfold handleJoin
  cases hr : d.record topic with
  | none => exact (Wished.refl _ d).emitAll (by simp [Effect.Sends])
  | some channel =>
    dsimp only
    split
    · have hset : Wished asks d (d.setRecord topic { channel with desired := true, status := .joined }) :=
        wished_join hr ha rfl (List.subset_cons_self ..)
      exact hset.emitAll (by simp [Effect.Sends])
    · have hset : Wished asks d (d.setRecord topic { channel with
          desired := true, status := .waitingToJoin
          joinTimeout := max channel.joinTimeout timeout
          joinWaiters := channel.joinWaiters.insert id }) :=
        wished_join hr ha rfl fun waiter hm => List.mem_cons.mpr (List.mem_insert_iff.mp hm)
      exact hset.loadPayload

theorem wished_handleLeave (env : Env) (d : Driver) (id : RequestId) (topic : Topic) (timeout : Duration) :
    Wished asks d (d.handleLeave env id topic timeout).1 := by
  have hstop : ∀ status, Wished asks d ((d.setStatus topic status).stopChannel topic) := fun _ =>
    (Wished.refl _ d).setStatus.stopChannel
  cases leave_handled env d id topic timeout with
  | sent channel hc hs he =>
    rw [he]
    exact (hstop _).sendLeave env
  | deferred channel hs hr he =>
    rw [he]
    exact (hstop _).rewrite hr rfl rfl
  | idle hs hj he =>
    rw [he]
    exact (hstop _).emitAll (by simp [Effect.Sends])

end

end Driver

/-- The channel a command asks for, and the join that asks. -/
def Command.asks : Command → List (Topic × RequestId)
  | .join id topic _ => [(topic, id)]
  | _ => []

def Input.asks : Input → List (Topic × RequestId)
  | .command taken => taken.asks
  | _ => []

namespace Driver

section
variable {asks : List (Topic × RequestId)} {env : Env} {d d' : Driver} {topic : Topic}
  {channel : ChannelRecord} {reference : Reference} {response : Payload}

theorem wished_handleConnectedCommand (env : Env) (d : Driver) (command : Command) :
    Wished command.asks d (d.handleConnectedCommand env command).1 := by
  cases command with
  | ping id =>
    have htrack : Wished [] d (d.trackPing id) := (Wished.refl _ d).same rfl (.of_trace rfl)
    exact htrack.sendFrame env
  | join id topic timeout => exact wished_handleJoin timeout (List.mem_singleton_self _)
  | call id topic event payload started =>
    simp only [Driver.handleConnectedCommand, handlePush]
    split
    · exact (Wished.refl _ d).sendPush env
    · exact (Wished.refl _ d).queue
  | cast id topic event payload =>
    simp only [Driver.handleConnectedCommand, handlePush]
    split
    · exact (Wished.refl _ d).sendPush env
    · exact (Wished.refl _ d).queue
  | leave id topic timeout => exact wished_handleLeave env d id topic timeout
  | connect | disconnect | subscribe | subscribeChannel _ | shutdown => exact .refl ..

theorem wished_handleOfflineCommand (env : Env) (d : Driver) (command : Command) :
    Wished command.asks d (d.handleOfflineCommand env command) := by
  cases command with
  | ping id => exact (Wished.refl _ d).emitAll (by simp [Effect.Sends])
  | join id topic timeout =>
    simp only [Driver.handleOfflineCommand]
    cases hr : d.record topic with
    | none => exact (Wished.refl _ d).emitAll (by simp [Effect.Sends])
    | some channel =>
      exact wished_join hr (List.mem_singleton_self _) rfl fun waiter hm =>
        List.mem_cons.mpr (List.mem_insert_iff.mp hm)
  | call id topic event payload started => exact (Wished.refl _ d).queue
  | cast id topic event payload => exact (Wished.refl _ d).queue
  | leave id topic timeout => exact (Wished.refl _ d).setStatus.stopChannel.emitAll (by simp [Effect.Sends])
  | connect | disconnect | subscribe | subscribeChannel _ | shutdown => exact .refl ..

/-! ### Payload results and timers

They go on with a wish there is, or end it. -/

theorem wished_handlePayload (env : Env) (d : Driver) (topic : Topic) (payloadId : UInt64)
    (payload : Except String Value) : Wished asks d (d.handlePayload env topic payloadId payload).1 := by
  cases payload_handled env d topic payloadId payload with
  | ignored h he =>
    rw [he]
    exact .refl ..
  | late channel hr ha h he =>
    rw [he]
    exact (Wished.refl _ d).rewrite hr rfl rfl
  | failed message channel hp hr ha he =>
    rw [he]
    refine Wished.emitChannel (Wished.answers ?_)
    exact (Wished.refl _ d).settleRecord hr (fun hd => absurd hd Bool.false_ne_true) rfl
  | joined value channel d₁ hp hr ha hd hs hd₁ hs₁ he =>
    rw [he]
    have hdiscard : Wished asks d d₁ ∧ d₁.record topic = some channel := by
      rcases hd₁ with rfl | ⟨-, rfl⟩
      · exact ⟨.refl .., hr⟩
      · exact ⟨(Wished.refl _ d).discardChannel, hr⟩
    have hjoining : Wished asks d (d₁.setRecord topic { channel.loaded with status := .joining }) :=
      hdiscard.1.rewrite hdiscard.2 rfl rfl
    have htrack : Wished asks d (d₁.trackJoin topic value channel.loaded) := hjoining.same rfl (.of_trace rfl)
    exact htrack.sendFrame env

theorem Wished.handleRejoin (h : Wished asks d d') : Wished asks d (d'.handleRejoin topic) := by
  unfold Driver.handleRejoin
  cases hr : d'.record topic with
  | none => exact h
  | some channel =>
    have hset : Wished asks d (d'.setRecord topic { channel with rejoinScheduled := false }) :=
      h.rewrite hr rfl rfl
    dsimp only
    split
    · exact hset.loadPayload
    · exact hset

theorem Wished.joinTimedOut (h : Wished asks d d') {duration : Duration} :
    Wished asks d (d'.joinTimedOut env topic duration) := by
  have hdiscard : Wished asks d (d'.discardChannel topic) := h.discardChannel
  cases hr : d'.record topic with
  | none =>
    rw [joinTimedOut_of_none hr]
    exact hdiscard
  | some channel =>
    have hr' : (d'.discardChannel topic).record topic = some channel := hr
    cases hl : channel.deferredLeave with
    | some pending =>
      rw [joinTimedOut_of_deferred hr hl]
      refine Wished.answerLeave ?_
      exact hdiscard.rewrite hr' rfl rfl
    | none =>
      cases hd : channel.desired with
      | true =>
        rw [joinTimedOut_of_wanted hr hl hd]
        refine Wished.scheduleRejoin (Wished.answers ?_)
        exact hdiscard.settleRecord hr' (fun _ => hd) rfl
      | false =>
        rw [joinTimedOut_of_unwanted hr hl hd]
        exact hdiscard.rewrite hr' rfl rfl

theorem Wished.leaveTimedOut (h : Wished asks d d') {pending : PendingLeave} {duration : Duration} :
    Wished asks d (d'.leaveTimedOut topic pending duration) := by
  have hdiscard : Wished asks d
      ((d'.answerLeave (some pending) (.error (.timeout .leave duration))).discardChannel topic) :=
    h.answerLeave.discardChannel
  unfold Driver.leaveTimedOut
  dsimp only
  split
  · exact hdiscard
  · split
    · exact hdiscard.setStatus.loadPayload
    · exact hdiscard.setStatus

theorem Wished.handleOperationTimeout (h : Wished asks d d') (operation : OperationTimeout) :
    Wished asks d (d'.handleOperationTimeout env operation) := by
  unfold Driver.handleOperationTimeout
  split
  · dsimp only
    split
    · exact h.eraseJoin.joinTimedOut
    · exact h.eraseJoin
  · split
    · exact h
    · exact h.eraseLeave.leaveTimedOut

/-! ### Frames

A frame may end a wish, or go on with one. -/

theorem Wished.onJoined (h : Wished asks d d') :
    Wished asks d (d'.onJoined env topic reference response).1 := by
  cases hr : d'.record topic with
  | none =>
    rw [onJoined_of_none hr]
    exact h.eraseJoin.emitChannel.flush env
  | some channel =>
    have hr' : (d'.eraseJoin reference).record topic = some channel := hr
    have hset : Wished asks d ((d'.eraseJoin reference).setRecord topic channel.joined) :=
      h.eraseJoin.settleRecord hr' (fun hd => hd) rfl
    have hwelcome : Wished asks d (d'.welcome topic reference response channel) :=
      hset.answers.emitChannel
    cases hl : channel.deferredLeave with
    | none =>
      rw [onJoined_of_not_deferred hr hl]
      exact hwelcome.flush env
    | some pending =>
      rw [onJoined_of_deferred hr hl]
      exact hwelcome.sendLeave env

theorem Wished.onJoinError (h : Wished asks d d') :
    Wished asks d (d'.onJoinError env topic reference response) := by
  cases hr : d'.record topic with
  | none =>
    rw [onJoinError_of_none hr]
    exact h.eraseJoin.emitChannel
  | some channel =>
    have hr' : (d'.eraseJoin reference).record topic = some channel := hr
    have hset : Wished asks d ((d'.eraseJoin reference).setRecord topic channel.refused) :=
      h.eraseJoin.settleRecord hr' (fun hd => hd) rfl
    rw [onJoinError_of_some hr, refusals, ← emitAll_emitAll, ← answerLeave_eq]
    exact hset.answerLeave.answers.emitChannel.scheduleRejoin

theorem Wished.onLeft (h : Wished asks d d') : Wished asks d (d'.onLeft topic reference response) := by
  have hsettle : Wished asks d (d'.leaveSettled reference response) := by
    rw [leaveSettled, ← answerLeave_eq]
    exact h.eraseLeave.answerLeave
  cases hr : d'.record topic with
  | none =>
    rw [onLeft_of_none hr]
    exact hsettle.emitChannel
  | some channel =>
    have hr' : (d'.leaveSettled reference response).record topic = some channel := hr
    have hset : ∀ status, Wished asks d
        ((d'.leaveSettled reference response).setRecord topic { channel with status }) := fun _ =>
      hsettle.rewrite hr' rfl rfl
    rw [onLeft_of_some hr]
    split
    · exact (hset _).emitChannel.loadPayload
    · exact (hset _).emitChannel

theorem Wished.onReply (h : Wished asks d d') {event : String} {status : ReplyStatus} :
    Wished asks d (d'.onReply topic event reference status response) := by
  cases hc : d'.state.pendingCalls[reference]? with
  | none =>
    rw [onReply_of_none hc]
    exact h.emitChannel
  | some call =>
    rw [onReply_of_some hc]
    have hsettled : Wished asks d (d'.callSettled reference call status response) :=
      h.same rfl ⟨_, rfl, by simp [Effect.Sends]⟩
    exact hsettled.emitChannel

theorem Wished.onHeartbeatAck (h : Wished asks d d') : Wished asks d (d'.onHeartbeatAck reference) := by
  unfold Driver.onHeartbeatAck
  split
  · exact h.same rfl (.of_trace rfl)
  split
  · exact h
  · exact h.same rfl ⟨_, rfl, by simp [Effect.Sends]⟩

/-- A closed channel is neither wanted nor waited for. -/
theorem Wished.onChannelClosed (h : Wished asks d d') {payload : Payload} :
    Wished asks d (d'.onChannelClosed topic payload) := by
  cases hr : d'.record topic with
  | none =>
    rw [onChannelClosed_of_none hr]
    exact h.forgetJoins.emitChannel
  | some channel =>
    have hr' : (d'.forgetJoins topic).record topic = some channel := hr
    have hrec : ∀ t : Topic, (d'.onChannelClosed topic payload).record t =
        if t = topic then some { channel.stopped with status := .closed } else d'.record t := fun t => by
      simp only [Driver.onChannelClosed, hr', emitChannel_eq]
      rw [stopChannel_of_some (by rw [emitAll_record, record_setRecord]), emitAll_record,
        record_setRecord_eq, emitAll_record, record_setRecord_eq]
      by_cases ht : t = topic
      · rw [if_pos ht, if_pos ht]
        rfl
      · rw [if_neg ht, if_neg ht, if_neg ht]
        rfl
    refine h.written hr hrec (fun hd => absurd hd Bool.false_ne_true) (List.nil_subset _) (.inl rfl) ?_
    simp only [Driver.onChannelClosed, hr', emitChannel_eq]
    rw [stopChannel_of_some (by rw [emitAll_record, record_setRecord])]
    refine Emits.emitAll (Emits.emitAll (.of_trace rfl) fun effect hm => ?_) fun effect hm => ?_
    · exact idle_of_report (channelEffects_report _ topic _ effect hm)
    · rcases mem_stopEffects hm with ⟨operation, id, rfl⟩ | ⟨event, rfl⟩ <;> exact not_false

theorem Wished.handleEvent (h : Wished asks d d') (event : ProtocolEvent) :
    Wished asks d (d'.handleEvent env event).1 := by
  cases event with
  | joined topic reference response => exact h.onJoined
  | joinError topic reference response => exact h.onJoinError
  | reply topic name reference status response => exact h.onReply
  | left topic reference response => exact h.onLeft
  | heartbeatAck reference status => exact h.onHeartbeatAck
  | channelError topic payload => exact h.forgetJoins.setStatus.emitChannel.scheduleRejoin
  | channelClosed topic payload => exact h.onChannelClosed
  | message frame | staleMessage frame | unmatchedReply frame => exact h.emitChannel
  | requestInterrupted topic name reference => exact h.emitChannel

theorem wished_handleIncoming (env : Env) (d : Driver) (message : WireMessage) :
    Wished asks d (d.handleIncoming env message).1 := by
  cases hd : env.codec.decode message with
  | error e =>
    simp only [handleIncoming, hd]
    exact .refl ..
  | ok frame =>
    obtain ⟨report, hi⟩ := handleIncoming_of_decoded (d := d) hd
    have hreport : Wished asks d (d.emitAll [.telemetry report]) :=
      (Wished.refl _ d).emitAll (by simp [Effect.Sends])
    rw [hi]
    rcases hrec : d.state.protocol.receive frame with ⟨e | event, p⟩
    · simp only [handleFrame, emitAll_state, hrec]
      exact hreport.setProtocol
    · simp only [handleFrame, emitAll_state, hrec]
      exact hreport.setProtocol.handleEvent event

theorem wished_onMessage (env : Env) (d : Driver) (message : WireMessage) :
    Wished asks d (d.onMessage env message).1 := by
  have hincoming : Wished asks d (d.handleIncoming env message).1 := wished_handleIncoming ..
  unfold onMessage
  dsimp only
  rcases hh : d.handleIncoming env message with ⟨d', _ | reason⟩
  · rw [hh] at hincoming
    simp only [Result.andThen]
    split
    · exact hincoming.same rfl (.of_trace rfl)
    · exact hincoming
  · rw [hh] at hincoming
    exact hincoming

theorem wished_handleHeartbeat (env : Env) (d : Driver) : Wished asks d (d.handleHeartbeat env).1 := by
  by_cases hh : d.connection.heartbeatReference.isSome = true
  · rw [handleHeartbeat_of_some hh]
    exact .refl ..
  rw [handleHeartbeat_of_none hh]
  have htrack : Wished asks d d.trackHeartbeat := .of_same rfl (.of_trace rfl)
  have hs : Wished asks d (d.trackHeartbeat.sendFrame env []
      ⟨none, some d.state.protocol.nextText, "phoenix", "heartbeat", .emptyObject⟩).1 :=
    htrack.sendFrame env
  rcases hsend : d.trackHeartbeat.sendFrame env []
    ⟨none, some d.state.protocol.nextText, "phoenix", "heartbeat", .emptyObject⟩ with ⟨d', _ | reason⟩
  · rw [hsend] at hs
    exact hs.same rfl (.of_trace rfl)
  · rw [hsend] at hs
    exact hs

/-! ### The connection

Wishes outlive a connection, and a new one loads for those there are. -/

/-- Every record is rewritten, and stays as wanted and as waited for as it was. -/
theorem Wished.of_map {f : ChannelRecord → ChannelRecord}
    (hd : ∀ channel, (f channel).desired = channel.desired)
    (hw : ∀ channel, (f channel).joinWaiters = channel.joinWaiters)
    (hr : ∀ t, d'.record t = (d.record t).map f)
    (he : d.Emits (fun effect => ¬ effect.Sends) d') : Wished asks d d' := by
  have hwants : ∀ t : Topic, d'.wants t = d.wants t := fun t => by
    rw [wants, hr, wants]
    cases d.record t with
    | none => rfl
    | some channel => exact hd channel
  have hwaiters : ∀ t : Topic, d'.waiters t = d.waiters t := fun t => by
    rw [Driver.waiters, hr, Driver.waiters]
    cases d.record t with
    | none => rfl
    | some channel => exact hw channel
  exact .of_idle (fun t h => hwants t ▸ h) (fun t => hwaiters t ▸ List.Subset.refl _) (fun t _ => hwants t) he

theorem Wished.emitSocket (h : Wished asks d d') {event : SocketEvent} : Wished asks d (d'.emitSocket event) :=
  h.trans (.of_map (f := ChannelRecord.heard event) (fun _ => rfl) (fun _ => rfl) (emitSocket_record d' event)
    (idle_emitSocket d' event))

/-- A channel stays wanted, and waited for, when the connection ends. -/
theorem Wished.onDisconnect (h : Wished asks d d') {reason : DisconnectReason} :
    Wished asks d (d'.onDisconnect reason) := by
  have hidle := idle_onDisconnect d' reason
  obtain ⟨reports, -, he⟩ := onDisconnect_eq d' reason
  rw [he] at hidle ⊢
  exact h.trans (.of_map (f := offlineRecord) (fun _ => rfl) (fun _ => rfl)
    (fun t => Std.ExtTreeMap.getElem?_map) hidle)

theorem Wished.afterFailure (h : Wished asks d d') {reason : DisconnectReason} :
    Wished asks d (d'.afterFailure env reason) := by
  have hattempt : Wished asks d { d' with attempt := nextAttempt d'.attempt } := h.same rfl (.of_trace rfl)
  unfold Driver.afterFailure
  dsimp only
  split
  · exact hattempt.emitSocket.same rfl (.of_trace rfl)
  · exact hattempt.emitSocket.same rfl (.of_trace rfl)

theorem Wished.settle {r : Result} (h : Wished asks d r.1) : Wished asks d (settle env r) := by
  rcases r with ⟨d', _ | reason⟩
  · exact h
  · exact h.onDisconnect.afterFailure

theorem Wished.disconnect (h : Wished asks d d') : Wished asks d d'.disconnect :=
  h.onDisconnect.same rfl ⟨[.acknowledged], rfl, by simp [Effect.Sends]⟩

theorem Wished.close (h : Wished asks d d') : Wished asks d d'.close :=
  h.emitSocket.same rfl (.of_trace rfl)

theorem Wished.notices (h : Wished asks d d') {reports : List Effect}
    (hr : ∀ effect ∈ reports, effect.IsNotice) : Wished asks d (d'.emitAll reports) := by
  refine h.emitAll fun effect hm => ?_
  rcases hr effect hm with hr | rfl
  · exact idle_of_report hr
  · exact not_false

theorem wished_connectionMade (env : Env) (d : Driver) (started : Duration) (transport : Transport)
    (order : List Topic) : Wished asks d (d.connectionMade env started transport order) := by
  have hconnected : Wished asks d (d.connected env started transport) :=
    .of_map (f := ChannelRecord.unscheduled) (fun _ => rfl) (fun _ => rfl) (fun t => connected_record ..)
      ⟨_, rfl, by simp [Effect.Sends]⟩
  exact connectionMade_induction (Wished asks d) hconnected fun d' topic h => h.setStatus.loadPayload

/-! ### Steps

A step asks for the joins of its input and for no others; and whoever waits is found in a channel
that is wanted. -/

theorem wished_lifecycle (env : Env) (d : Driver) (command : LifecycleCommand) :
    Wished asks d (d.handleConnectedLifecycle env command).1 ∧
      Wished asks d (d.handleOfflineLifecycle env command) := by
  cases command with
  | register topic => exact ⟨wished_register env d topic, wished_register env d topic⟩
  | unregister topic => exact ⟨wished_unregisterConnected env d topic, (Wished.refl _ d).unregister⟩
  | cancel id => exact ⟨wished_cancel d id, wished_cancel d id⟩

theorem OfflineStep.wished {input : Input} (hs : OfflineStep env d input d') : Wished input.asks d d' := by
  cases hs with
  | lifecycle command => exact (wished_lifecycle env d command).2
  | command taken => exact (wished_accept d taken).trans (wished_handleOfflineCommand env _ taken)
  | acknowledge command hc => exact (Wished.refl _ d).emitAll (by simp [Effect.Sends])
  | disconnect d₁ reports he hr =>
    rw [he]
    exact ((Wished.refl _ d).notices hr).disconnect
  | close input hi d₁ reports he hr =>
    rw [he]
    exact ((Wished.refl _ d).notices hr).close
  | connect input hi d₁ reports he attempt hr =>
    rw [he]
    have hattempt : Wished input.asks d { d.emitAll reports with attempt } :=
      ((Wished.refl _ d).notices hr).same rfl (.of_trace rfl)
    exact hattempt.emitSocket.same rfl (.of_trace rfl)
  | failed input hi started error =>
    have hfinished : Wished input.asks d (d.attemptFinished started false) :=
      (Wished.refl _ d).emitAll (by simp [Effect.Sends])
    exact hfinished.emitSocket.afterFailure
  | made started due transport order hp ho => exact wished_connectionMade env d started transport order

theorem ConnectedStep.wished {input : Input} (hs : ConnectedStep env d input d') : Wished input.asks d d' := by
  cases hs with
  | lifecycle command => exact (wished_lifecycle env d command).1.settle
  | command taken => exact ((wished_accept d taken).trans (wished_handleConnectedCommand env _ taken)).settle
  | acknowledge => exact (Wished.refl _ d).emitAll (by simp [Effect.Sends])
  | disconnect => exact (Wished.refl _ d).disconnect
  | close =>
    have hclose : Wished [] d d.acknowledge.close :=
      ((Wished.refl _ d).emitAll (by simp [Effect.Sends])).close
    exact hclose.same rfl (.of_trace rfl)
  | lost input hi reason =>
    have hrefl : Wished input.asks d (d, some reason).1 := .refl ..
    exact hrefl.settle
  | message message => exact (wished_onMessage env d message).settle
  | heartbeat => exact (wished_handleHeartbeat env d).settle
  | payload topic payloadId result hm =>
    have htake : Wished [] d (d.takePayload topic payloadId) := .of_same rfl (.of_trace rfl)
    exact (htake.trans (wished_handlePayload env _ topic payloadId result)).settle
  | rejoin timer hm =>
    have htake : Wished [] d (d.takeRejoin timer) := .of_same rfl (.of_trace rfl)
    exact htake.handleRejoin
  | operationTimeout timer hm =>
    have htake : Wished [] d (d.takeOperationTimeout timer) := .of_same rfl (.of_trace rfl)
    exact htake.handleOperationTimeout timer.value

/-- **Whatever a step starts was asked for**: a channel comes to be wanted and gets waiters only
by a join command of it, and only a wanted channel is loaded. -/
theorem wished_step {input : Input} (hs : d.step env input = some d') : Wished input.asks d d' := by
  rcases stepped hs with ⟨elapsed, rfl, rfl⟩ | ⟨topic, rfl, rfl⟩ | ⟨-, -, hs⟩ | ⟨-, hs⟩
  · exact .of_same rfl (.of_trace rfl)
  · exact (Wished.refl _ d).setStatus
  · exact hs.wished
  · exact hs.wished

theorem start_record (env : Env) (t : Topic) : (start env).record t = none := by
  unfold start
  dsimp only
  split <;> exact Std.ExtTreeMap.getElem?_empty

/-- **A channel that somebody waits for is wanted**, in every reachable state. -/
theorem reachable_waited (h : (driver env).Reachable d) : d.Waited := by
  refine h.invariant (fun t hne => ?_) fun s input s' _ hw _ hs => ?_
  · have hnone : (driver env).start.waiters t = [] := by
      rw [waiters, show (driver env).start = start env from rfl, start_record, Option.elim_none]
    exact absurd hnone hne
  · obtain ⟨effects, -, ha⟩ := wished_step hs
    exact ha.waited hw

/-- **A join frame goes out for a wanted channel.** -/
theorem payload_wanted {id : UInt64} {result : Except String Value} {served : List RequestId} {frame : Frame}
    (hs : d.step env (.payload topic id result) = some d') (hm : .outgoing served frame ∈ d.done d') :
    d.wants topic = true := by
  obtain ⟨-, rfl⟩ := payload_cases hs
  have hsettle := idle_settle env ((d.takePayload topic id).handlePayload env topic id result)
  have htake : ∀ P : Effect → Prop, d.Emits P (d.takePayload topic id) := fun _ => .of_trace rfl
  have hquiet : ∀ {d₁ : Driver}, (d.takePayload topic id).Emits (fun effect => ¬ effect.Sends) d₁ →
      ((d.takePayload topic id).handlePayload env topic id result).1 = d₁ → d.wants topic = true := by
    rintro d₁ hidle rfl
    exact absurd trivial ((((htake _).trans hidle).trans hsettle).done hm)
  cases payload_handled env (d.takePayload topic id) topic id result with
  | ignored h he => exact hquiet (.refl ..) (congrArg Prod.fst he)
  | late channel hr ha h he =>
    refine hquiet ?_ (congrArg Prod.fst he)
    exact .of_trace rfl
  | failed message channel hp hr ha he =>
    refine hquiet ?_ (congrArg Prod.fst he)
    rw [emitChannel_eq]
    refine Emits.emitAll (Emits.emitAll (.of_trace rfl) fun effect hm => ?_) fun effect hm => ?_
    · obtain ⟨waiter, -, rfl⟩ := List.mem_map.mp hm
      exact not_false
    · exact idle_of_report (channelEffects_report _ topic _ effect hm)
  | joined value channel d₁ hp hr ha hd hs hd₁ hs₁ he => exact (wants_of_some hr).trans hd

end

end Driver
end PhoenixChannel.Client
