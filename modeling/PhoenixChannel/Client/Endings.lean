import PhoenixChannel.Client.Steady

/-! How joins and leaves end, and what each ending keeps of the topic.

A join ends with its reply, an error or close of its channel, its deadline, or the
cancellation of its last waiter; a leave with its reply or its deadline. -/
namespace PhoenixChannel.Client
open PhoenixChannel.Runtime Library

namespace Driver

/-- The topic's record holds no deferred leave. -/
def Undeferred (d : Driver) (t : Topic) : Prop :=
  ∀ channel : ChannelRecord, d.record t = some channel → channel.deferredLeave = none

/-- A wanted channel with a deferred leave waits for a rejoin timer anyway. -/
def RejoinsAnyway (d : Driver) (t : Topic) : Prop :=
  ∀ channel : ChannelRecord, d.record t = some channel → channel.desired = true →
    channel.deferredLeave.isSome = true → d.Rejoining t

section
variable {w f : Topic → Prop} {d d' : Driver} {topic : Topic}

/-- A step about one topic that relies on the deadlines being their topics' own. -/
theorem Kept.sound_of_owned (topic : Topic) (hm : d.Moved d')
    (h : d.Owned → Kept (some topic) (some topic) d d' ∧ Steady (w topic) (f topic) topic d d') :
    Sound w f d d' := by
  refine ⟨hm, fun _ _ ho => ?_⟩
  obtain ⟨hk, hown⟩ := h ho
  refine ⟨hk.phase, hk.owned ho, fun t => ?_⟩
  by_cases ht : t = topic
  · rw [ht]
    exact hown
  · have hne : some topic ≠ some t := fun he => ht (Option.some.inj he).symm
    exact hk.steady hne hne

theorem Undeferred.deferred {t : Topic} (h : d.Undeferred t) : d.DeferredWhileJoining t := by
  intro channel hr hd
  rw [h channel hr] at hd
  cases hd

theorem Kept.undeferred {net rec : Option Topic} {t : Topic} (h : Kept net rec d d')
    (hr : rec ≠ some t) (hu : d.Undeferred t) : d'.Undeferred t := by
  intro channel' hc
  obtain ⟨channel, hrec, hf⟩ := h.record hr hc
  simp only [ChannelRecord.flags, Prod.mk.injEq] at hf
  rw [hu channel hrec] at hf
  simpa using hf.2.2.2

/-- A topic whose channel was discarded. -/
theorem tracked_of_discarded (h : d'.state.protocol = (d.state.protocol.discardChannel topic).2) :
    d'.Tracked topic := by
  refine tracked_of_idle fun state hs => ?_
  rw [h, Protocol.channelState] at hs
  simp [Protocol.discardChannel] at hs

end

/-! ### Rejoin timers

A rejoin timer that fires takes the flag with it and starts a load, where the channel is still
wanted. -/

section
variable (w f : Topic → Prop) (env : Env) (d : Driver) (topic : Topic)

/-- A rejoin that comes due turns into a load. -/
theorem kept_handleRejoin : Kept none (some topic) d (d.handleRejoin topic) := by
  unfold handleRejoin
  cases hr : d.record topic with
  | none => exact .refl ..
  | some channel =>
    have hset := kept_setRecord d topic { channel with rejoinScheduled := false }
    dsimp only
    split
    · exact hset.trans (kept_loadPayload _ topic)
    · exact hset

/-- A fired rejoin timer starts a load, or is not needed. -/
theorem steady_handleRejoin {w f : Prop} {d₀ d : Driver} (hrec : d.record topic = d₀.record topic)
    (hp : d.connection.payloads = d₀.connection.payloads)
    (hs : d.state.protocol = d₀.state.protocol) (ht : d₀.Tracked topic → d.Tracked topic) :
    Steady w f topic d₀ (d.handleRejoin topic) := by
  have hdefer : d₀.DeferredWhileJoining topic → d.DeferredWhileJoining topic := by
    intro h channel hc hd
    rw [hs]
    exact h channel (by rw [← hrec, hc]) hd
  have htrack : d₀.Tracked topic → (d.handleRejoin topic).Tracked topic := fun h =>
    (kept_handleRejoin d topic).tracked_of (ht h)
  cases hr : d.record topic with
  | none =>
    have he : d.handleRejoin topic = d := by simp only [handleRejoin, hr]
    rw [he] at htrack ⊢
    exact (quiescent_of_none hr).steady htrack
  | some channel =>
    have hflag : d₀.Flagged topic →
        (d.setRecord topic { channel with rejoinScheduled := false }).Flagged topic := by
      intro h channel' hc
      cases (record_setRecord ..).symm.trans hc
      refine ⟨nofun, fun id hid => ?_⟩
      show _ ∈ d.connection.payloads
      rw [hp]
      exact (h channel (by rw [← hrec, hr])).2 id hid
    cases hd : channel.desired with
    | true =>
      have he : d.handleRejoin topic =
          (d.setRecord topic { channel with rejoinScheduled := false }).loadPayload topic := by
        simp only [handleRejoin, hr, hd, if_true]
      rw [he] at htrack ⊢
      exact
        { tracked := htrack
          flagged := fun h => flagged_loadPayload (hflag h)
          wanted := fun _ _ _ => wanted_loadPayload _ topic
          deferred := fun _ h =>
            deferred_loadPayload (deferred_setRecord (hdefer h) hr (.inr rfl)) }
    | false =>
      have he : d.handleRejoin topic =
          d.setRecord topic { channel with rejoinScheduled := false } := by
        simp only [handleRejoin, hr, hd, Bool.false_eq_true, if_false]
      rw [he] at htrack ⊢
      exact
        { tracked := htrack
          flagged := hflag
          wanted := fun _ _ _ => wanted_of_undesired (record_setRecord ..) hd
          deferred := fun _ h => deferred_setRecord (hdefer h) hr (.inr rfl) }

theorem sound_rejoin (timer : Timer Topic) :
    Sound w f d ((d.takeRejoin timer).handleRejoin timer.value) := by
  have hk := ((kept_takeRejoin d timer).weaken (.inr rfl) (.inl rfl)).trans
    ((kept_handleRejoin (d.takeRejoin timer) timer.value).weaken (.inl rfl) (.inr rfl))
  have hm : d.Moved ((d.takeRejoin timer).handleRejoin timer.value) :=
    moved_of_eq (by rw [handleRejoin_protocol]; rfl)
  refine (hk.confined hm).sound_of_own fun _ _ => ?_
  exact steady_handleRejoin timer.value rfl rfl rfl fun h => ⟨h.joining, h.leaving⟩

end

/-! ### Deadlines

A deadline that comes too late finds its request gone and does nothing. One that comes in time gives
the join or the leave up. -/

section
variable {env : Env} {d : Driver} {topic : Topic} {channel : ChannelRecord}

theorem kept_discarded_setRecord (channel : ChannelRecord) :
    Kept (some topic) (some topic) d ((d.discardChannel topic).setRecord topic channel) :=
  ((kept_discardChannel d topic).weaken (.inr rfl) (.inl rfl)).trans
    ((kept_setRecord ..).weaken (.inl rfl) (.inr rfl))

/-- A join that is given up takes its own channel, and with it only what is its topic's. -/
theorem kept_joinTimedOut (env : Env) (d : Driver) (topic : Topic) (duration : Duration) :
    Kept (some topic) (some topic) d (d.joinTimedOut env topic duration) := by
  cases hr : d.record topic with
  | none =>
    rw [joinTimedOut_of_none hr]
    exact (kept_discardChannel ..).weaken (.inr rfl) (.inl rfl)
  | some channel =>
    cases hp : channel.deferredLeave with
    | some pending =>
      rw [joinTimedOut_of_deferred hr hp]
      refine .trans ?_ ((kept_answerLeave ..).weaken (.inl rfl) (.inl rfl))
      exact kept_discarded_setRecord _
    | none =>
      cases hd : channel.desired with
      | true =>
        rw [joinTimedOut_of_wanted hr hp hd]
        refine .trans ?_ ((kept_scheduleRejoin ..).weaken (.inl rfl) (.inr rfl))
        refine .trans ?_ ((kept_emitAll ..).weaken (.inl rfl) (.inl rfl))
        exact kept_discarded_setRecord _
      | false =>
        rw [joinTimedOut_of_unwanted hr hp hd]
        exact kept_discarded_setRecord _

/-- A record written without a load, and with the timer it had. -/
theorem flagged_discarded {d₀ : Driver} {channel' : ChannelRecord} (h : d₀.Flagged topic)
    (hr : d₀.record topic = some channel) (hc : d.connection.rejoins = d₀.connection.rejoins)
    (hr' : d.record topic = some channel') (hs : channel'.rejoinScheduled = channel.rejoinScheduled)
    (ha : channel'.activePayload = none) : d.Flagged topic :=
  flagged_of_loaded h hr hr' (by rw [hs]; exact id) ha (by rw [hc]; exact List.Subset.refl _)

theorem answerLeave_connection (d : Driver) (pending : Option PendingLeave)
    (result : Except ClientError Success) :
    (d.answerLeave pending result).connection = d.connection := by
  rw [answerLeave_eq]
  rfl

theorem answerLeave_record (d : Driver) (pending : Option PendingLeave)
    (result : Except ClientError Success) (t : Topic) :
    (d.answerLeave pending result).record t = d.record t := by
  rw [answerLeave_eq]
  rfl

/-- The deadline of a join in flight. A wanted channel is rejoined, unless a leave was deferred. -/
theorem steady_joinTimedOut {w f : Prop} (env : Env) {d₀ d : Driver} {topic : Topic}
    (hrec : d.record topic = d₀.record topic) (hc : d.connection.rejoins = d₀.connection.rejoins)
    (hw : w → d₀.RejoinsAnyway topic) (duration : Duration) :
    Steady w f topic d₀ (d.joinTimedOut env topic duration) := by
  have htrack : (d.joinTimedOut env topic duration).Tracked topic :=
    tracked_of_discarded (joinTimedOut_protocol ..)
  cases hr : d.record topic with
  | none =>
    rw [joinTimedOut_of_none hr] at htrack ⊢
    have hr' : (d.discardChannel topic).record topic = none := hr
    exact (quiescent_of_none hr').steady fun _ => htrack
  | some channel =>
    have hr₀ : d₀.record topic = some channel := by rw [← hrec, hr]
    cases hp : channel.deferredLeave with
    | some pending =>
      rw [joinTimedOut_of_deferred hr hp] at htrack ⊢
      have hr' := (answerLeave_record ((d.discardChannel topic).setRecord topic
        { channel.loaded with deferredLeave := none, status := .left }) (some pending)
        (.error (.timeout .leave pending.timeout)) topic).trans (record_setRecord ..)
      have hc' := (answerLeave_connection ((d.discardChannel topic).setRecord topic
        { channel.loaded with deferredLeave := none, status := .left }) (some pending)
        (.error (.timeout .leave pending.timeout)))
      refine
        { tracked := fun _ => htrack
          flagged := fun h => flagged_discarded h hr₀ ?_ hr' rfl rfl
          wanted := fun hw' _ _ channel' hc'' hd => ?_
          deferred := fun _ _ => deferred_of_undeferred hr' rfl }
      · rw [hc']
        exact hc
      · cases hr'.symm.trans hc''
        obtain ⟨timer, hm, hv⟩ := hw hw' channel hr₀ hd (by rw [hp]; rfl)
        refine .inr (.inr ⟨timer, ?_, hv⟩)
        rw [hc']
        show timer ∈ d.connection.rejoins
        rw [hc]
        exact hm
    | none =>
      cases hd : channel.desired with
      | true =>
        rw [joinTimedOut_of_wanted hr hp hd] at htrack ⊢
        have hr' : (((d.discardChannel topic).setRecord topic channel.unanswered).emitAll
            (channel.joinWaiters.map fun id =>
              .answered .join id (.error (.timeout .join duration)))).record topic =
            some channel.unanswered := by
          rw [emitAll_record, record_setRecord]
        have hflag : d₀.Flagged topic →
            (((d.discardChannel topic).setRecord topic channel.unanswered).emitAll
              (channel.joinWaiters.map fun id =>
                .answered .join id (.error (.timeout .join duration)))).Flagged topic := fun h =>
          flagged_discarded h hr₀ hc hr' rfl rfl
        exact
          { tracked := fun _ => htrack
            flagged := fun h => flagged_scheduleRejoin env (hflag h)
            wanted := fun _ h _ => wanted_scheduleRejoin env (hflag h)
            deferred := fun _ _ => deferred_scheduleRejoin env (deferred_of_undeferred hr' hp) }
      | false =>
        rw [joinTimedOut_of_unwanted hr hp hd] at htrack ⊢
        exact
          { tracked := fun _ => htrack
            flagged := fun h => flagged_discarded h hr₀ hc (record_setRecord ..) rfl rfl
            wanted := fun _ _ _ => wanted_of_undesired (record_setRecord ..) hd
            deferred := fun _ _ => deferred_of_undeferred (record_setRecord ..) hp }

end

section
variable {w f : Topic → Prop} {env : Env} {d : Driver} {timer : Timer OperationTimeout} {topic : Topic}
  {reference : Reference} {duration : Duration}

/-- Deadlines of other requests stay. -/
theorem mem_takeOperationTimeout {timer' : Timer OperationTimeout}
    (hm : timer' ∈ d.connection.operationTimeouts) (hne : timer'.value ≠ timer.value) :
    timer' ∈ (d.takeOperationTimeout timer).connection.operationTimeouts := by
  refine (List.mem_erase_of_ne ?_).mpr hm
  rintro rfl
  exact hne rfl

/-- The deadline of a join that is not in flight any more changes nothing. -/
theorem steady_lateJoinTimeout {w f : Prop} (hv : timer.value = .join topic reference duration)
    (hj : d.state.pendingJoins[reference]? ≠ some topic) :
    Steady w f topic d ((d.takeOperationTimeout timer).eraseJoin reference) where
  tracked h := by
    constructor
    · intro c hc hs
      obtain ⟨hp, hjoin, timer', hm, duration', hv'⟩ := h.joining c hc hs
      have hne : c.joinRef ≠ reference := by
        rintro rfl
        exact hj hjoin
      refine ⟨hp, ?_, timer', mem_takeOperationTimeout hm ?_, duration', hv'⟩
      · show (d.state.pendingJoins.erase reference)[c.joinRef]? = _
        rw [Table.lookup_erase, if_neg hne, hjoin]
      · rw [hv, hv']
        intro he
        cases he
        exact hne rfl
    · intro c hc hs
      obtain ⟨r, hp, hl, timer', hm, duration', hv'⟩ := h.leaving c hc hs
      refine ⟨r, hp, hl, timer', mem_takeOperationTimeout hm ?_, duration', hv'⟩
      rw [hv, hv']
      nofun
  flagged h := h
  wanted _ _ h := h
  deferred _ h := h

/-- The deadline of a leave that is not pending any more changes nothing. -/
theorem steady_lateLeaveTimeout {w f : Prop} (hv : timer.value = .leave topic reference duration)
    (hl : reference ∉ d.state.pendingLeaves) :
    Steady w f topic d (d.takeOperationTimeout timer) where
  tracked h := by
    constructor
    · intro c hc hs
      obtain ⟨hp, hjoin, timer', hm, duration', hv'⟩ := h.joining c hc hs
      refine ⟨hp, hjoin, timer', mem_takeOperationTimeout hm ?_, duration', hv'⟩
      rw [hv, hv']
      nofun
    · intro c hc hs
      obtain ⟨r, hp, hleave, timer', hm, duration', hv'⟩ := h.leaving c hc hs
      refine ⟨r, hp, hleave, timer', mem_takeOperationTimeout hm ?_, duration', hv'⟩
      rw [hv, hv']
      intro he
      cases he
      exact hl hleave
  flagged h := h
  wanted _ _ h := h
  deferred _ h := h

theorem kept_takeTimeout (hv : timer.value.topic = topic) :
    Kept (some topic) (some topic) d (d.takeOperationTimeout timer) := by
  rw [← hv]
  exact (kept_takeOperationTimeout d timer).weaken (.inr rfl) (.inl rfl)

/-- A join that still waits for its reply is over: its waiters are answered, and a wanted channel has a
rejoin ahead. A later deadline finds its reference gone and does nothing. -/
theorem sound_joinTimeout (hm : timer ∈ d.connection.operationTimeouts)
    (hv : timer.value = .join topic reference duration)
    (hw : w topic → d.state.pendingJoins[reference]? = some topic → d.RejoinsAnyway topic) :
    Sound w f d ((d.takeOperationTimeout timer).handleOperationTimeout env timer.value) := by
  have hmoved := handleOperationTimeout_moved env (d.takeOperationTimeout timer) timer.value
  rw [hv] at hmoved ⊢
  have htake : Kept (some topic) (some topic) d (d.takeOperationTimeout timer) :=
    kept_takeTimeout (by rw [hv]; rfl)
  refine Kept.sound_of_owned topic hmoved fun ho => ?_
  have hown := ho timer hm
  rw [hv] at hown
  have herase : Kept (some topic) (some topic) d ((d.takeOperationTimeout timer).eraseJoin reference) := by
    refine htake.trans ((kept_eraseJoin ?_).weaken (.inr rfl) (.inl rfl))
    intro t ht _ hj
    exact ht (congrArg some (hown.2 t hj).symm)
  by_cases hj : d.state.pendingJoins[reference]? = some topic
  · have he : (d.takeOperationTimeout timer).handleOperationTimeout env (.join topic reference duration) =
        ((d.takeOperationTimeout timer).eraseJoin reference).joinTimedOut env topic duration :=
      if_pos hj
    rw [he]
    exact ⟨herase.trans (kept_joinTimedOut ..),
      steady_joinTimedOut env (by rfl) (by rfl) (fun h => hw h hj) duration⟩
  · have he : (d.takeOperationTimeout timer).handleOperationTimeout env (.join topic reference duration) =
        (d.takeOperationTimeout timer).eraseJoin reference := if_neg hj
    rw [he]
    exact ⟨herase, steady_lateJoinTimeout hv hj⟩

/-- A leave that is given up takes its own channel, and with it only what is its topic's. -/
theorem kept_leaveTimedOut (d : Driver) (topic : Topic) (pending : PendingLeave) (duration : Duration) :
    Kept (some topic) (some topic) d (d.leaveTimedOut topic pending duration) := by
  have hdiscard : Kept (some topic) (some topic) d
      ((d.answerLeave (some pending) (.error (.timeout .leave duration))).discardChannel topic) :=
    ((kept_answerLeave ..).weaken (.inl rfl) (.inl rfl)).trans
      ((kept_discardChannel ..).weaken (.inr rfl) (.inl rfl))
  have hstatus := fun status => hdiscard.trans
    ((kept_setStatus _ topic status).weaken (.inl rfl) (.inl rfl))
  cases hr : d.record topic with
  | none =>
    rw [leaveTimedOut_of_none hr]
    exact hdiscard
  | some channel =>
    rw [leaveTimedOut_of_some hr]
    dsimp only
    split
    · exact (hstatus _).trans ((kept_loadPayload ..).weaken (.inl rfl) (.inr rfl))
    · exact hstatus _

/-- The deadline of a leave in flight. A channel that is wanted again loads its payload. -/
theorem steady_leaveTimedOut {w f : Prop} {d₀ d : Driver} {topic : Topic}
    (hrec : d.record topic = d₀.record topic) (hrj : d.connection.rejoins = d₀.connection.rejoins)
    (hpl : d.connection.payloads = d₀.connection.payloads)
    (hf : f → d₀.Undeferred topic) (pending : PendingLeave) (duration : Duration) :
    Steady w f topic d₀ (d.leaveTimedOut topic pending duration) := by
  let dropped := (d.answerLeave (some pending) (.error (.timeout .leave duration))).discardChannel topic
  have hrec' : dropped.record topic = d₀.record topic :=
    (answerLeave_record ..).trans hrec
  have hconn : dropped.connection = d.connection := answerLeave_connection ..
  have htrack : (d.leaveTimedOut topic pending duration).Tracked topic :=
    tracked_of_discarded (leaveTimedOut_protocol ..)
  have hflag : d₀.Flagged topic → dropped.Flagged topic :=
    flagged_congr hrec' (by rw [hconn, hrj]; exact List.Subset.refl _)
      (by rw [hconn, hpl]; exact List.Subset.refl _)
  cases hr : d.record topic with
  | none =>
    rw [leaveTimedOut_of_none hr] at htrack ⊢
    have hr' : dropped.record topic = none := by rw [hrec', ← hrec, hr]
    exact (quiescent_of_none hr').steady fun _ => htrack
  | some channel =>
    have hr₀ : d₀.record topic = some channel := by rw [← hrec, hr]
    have hr' : dropped.record topic = some channel := hrec'.trans hr₀
    have hset : ∀ status, dropped.setStatus topic status =
        dropped.setRecord topic { channel with status } := setStatus_of_some hr'
    cases hd : channel.desired with
    | true =>
      have he : d.leaveTimedOut topic pending duration =
          (dropped.setRecord topic { channel with status := .waitingToJoin }).loadPayload topic := by
        rw [leaveTimedOut_of_some hr, ← hset]
        simp only [hd, if_true]
        rfl
      rw [he] at htrack ⊢
      exact
        { tracked := fun _ => htrack
          flagged := fun h => flagged_loadPayload (flagged_setRecord (hflag h) hr' id (.inr rfl))
          wanted := fun _ _ _ => wanted_loadPayload _ topic
          deferred := fun h _ =>
            deferred_loadPayload (deferred_of_undeferred (record_setRecord ..) (hf h channel hr₀)) }
    | false =>
      have he : d.leaveTimedOut topic pending duration =
          dropped.setRecord topic { channel with status := .left } := by
        rw [leaveTimedOut_of_some hr, ← hset]
        simp only [hd, Bool.false_eq_true, if_false]
        rfl
      rw [he] at htrack ⊢
      exact
        { tracked := fun _ => htrack
          flagged := fun h => flagged_setRecord (hflag h) hr' id (.inr rfl)
          wanted := fun _ _ _ => wanted_of_undesired (record_setRecord ..) hd
          deferred := fun h _ => deferred_of_undeferred (record_setRecord ..) (hf h channel hr₀) }

/-- A leave that still waits for its reply is over, and a wanted channel is loaded. A later deadline finds
its reference gone and does nothing. -/
theorem sound_leaveTimeout (hm : timer ∈ d.connection.operationTimeouts)
    (hv : timer.value = .leave topic reference duration)
    (hf : f topic → reference ∈ d.state.pendingLeaves → d.Undeferred topic) :
    Sound w f d ((d.takeOperationTimeout timer).handleOperationTimeout env timer.value) := by
  have hmoved := handleOperationTimeout_moved env (d.takeOperationTimeout timer) timer.value
  rw [hv] at hmoved ⊢
  have htake : Kept (some topic) (some topic) d (d.takeOperationTimeout timer) :=
    kept_takeTimeout (by rw [hv]; rfl)
  refine Kept.sound_of_owned topic hmoved fun ho => ?_
  have hown := ho timer hm
  rw [hv] at hown
  cases hl : d.state.pendingLeaves[reference]? with
  | none =>
    have hl' : (d.takeOperationTimeout timer).state.pendingLeaves[reference]? = none := hl
    simp only [handleOperationTimeout, hl']
    refine ⟨htake, steady_lateLeaveTimeout hv fun hmem => ?_⟩
    obtain ⟨pending, hp⟩ := Table.lookup_of_mem hmem
    cases hl.symm.trans hp
  | some pending =>
    have hl' : (d.takeOperationTimeout timer).state.pendingLeaves[reference]? = some pending := hl
    simp only [handleOperationTimeout, hl']
    refine ⟨(htake.trans ((kept_eraseLeave ?_).weaken (.inr rfl) (.inl rfl))).trans
      (kept_leaveTimedOut ..), ?_⟩
    · exact fun t ht hp => ht (congrArg some (hown.2 t hp).symm)
    · exact steady_leaveTimedOut (by rfl) (by rfl) (by rfl) (fun h => hf h (Table.mem_of_lookup hl)) pending duration

end

end Driver
end PhoenixChannel.Client
