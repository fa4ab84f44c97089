import PhoenixChannel.Client.Deferred
import PhoenixChannel.Client.Plans
import PhoenixChannel.Client.Superseded

/-! The rejoin timers of a channel.

A record's flag says that a rejoin timer of its topic is outstanding. A channel that fails sets the flag
and starts a timer, and the timer that fires takes the flag with it. A leave, a close or a join that
succeeds clears the flag and leaves the timer, so that the next failure starts a second one. -/
namespace PhoenixChannel.Client
open PhoenixChannel.Runtime Library

namespace Driver

/-- The outstanding rejoin timers of a topic. -/
def timers (d : Driver) (t : Topic) : List (Timer Topic) := d.connection.rejoins.filter fun timer => timer.value = t

/-- Whether a rejoin of the topic is scheduled, and after how many attempts. -/
def pace (d : Driver) (t : Topic) : Option (Bool × Nat) :=
  (d.record t).map fun channel => (channel.rejoinScheduled, channel.joinAttempt)

/-- One timer is outstanding if the flag is set, and none otherwise. -/
def Timed (d : Driver) (t : Topic) : Prop :=
  ∀ channel : ChannelRecord, d.record t = some channel →
    (d.timers t).length = if channel.rejoinScheduled then 1 else 0

/-! ### What is left alone

`KeepsPace` says that a topic's flag, attempt and timers are as before. Most handlers keep every
topic's pace. -/

/-- No rejoin is scheduled or called off. -/
structure KeepsPace (d d' : Driver) : Prop where
  phase : d'.phase = d.phase
  clock : d'.clock = d.clock
  rejoins : d'.connection.rejoins = d.connection.rejoins
  pace : ∀ t : Topic, d'.pace t = d.pace t

section
variable {G : RequestId → Prop} {env : Env} {d d' d'' : Driver} {topic t : Topic} {channel channel' : ChannelRecord}

theorem pace_of_some (hr : d.record t = some channel) :
    d.pace t = some (channel.rejoinScheduled, channel.joinAttempt) := by rw [pace, hr, Option.map_some]

theorem pace_of_none (hr : d.record t = none) : d.pace t = none := by rw [pace, hr, Option.map_none]

theorem KeepsPace.refl (d : Driver) : KeepsPace d d := ⟨rfl, rfl, rfl, fun _ => rfl⟩

theorem KeepsPace.trans (h : KeepsPace d d') (h' : KeepsPace d' d'') : KeepsPace d d'' where
  phase := h'.phase.trans h.phase
  clock := h'.clock.trans h.clock
  rejoins := h'.rejoins.trans h.rejoins
  pace t := (h'.pace t).trans (h.pace t)

theorem KeepsPace.timers (h : KeepsPace d d') (t : Topic) : d'.timers t = d.timers t := by
  rw [Driver.timers, h.rejoins, Driver.timers]

theorem KeepsPlans.keepsPace (h : KeepsPlans G d d') : KeepsPace d d' where
  phase := h.phase
  clock := h.clock
  rejoins := h.rejoins
  pace t := by
    have hpace : ∀ d : Driver, d.pace t = ((d.record t).map ChannelRecord.plans).map fun p => (p.1, p.2.1) := by
      intro d
      rw [Option.map_map]
      rfl
    rw [hpace d', h.records t, ← hpace d]

/-- The handler does not touch rejoins. -/
theorem KeepsPace.plans (h : KeepsPace d d') (h' : KeepsPlans (fun _ => True) d' d'') : KeepsPace d d'' :=
  h.trans h'.keepsPace

theorem KeepsPace.emitAll (h : KeepsPace d d') (effects : List Effect) : KeepsPace d (d'.emitAll effects) :=
  h.trans ⟨rfl, rfl, rfl, fun _ => rfl⟩

theorem KeepsPace.setRecord (h : KeepsPace d d') (hr : d'.record topic = some channel)
    (hs : channel'.rejoinScheduled = channel.rejoinScheduled) (ha : channel'.joinAttempt = channel.joinAttempt) :
    KeepsPace d (d'.setRecord topic channel') := by
  refine h.trans ⟨rfl, rfl, rfl, fun t => ?_⟩
  rw [Driver.pace, record_setRecord_eq, Driver.pace]
  by_cases ht : t = topic
  · rw [if_pos ht, ht, hr, Option.map_some, Option.map_some, hs, ha]
  · rw [if_neg ht]

theorem KeepsPace.sendLeave (h : KeepsPace d d') {pending : PendingLeave} :
    KeepsPace d (d'.sendLeave env topic pending).1 := by
  cases hc : d'.state.protocol.joinedRef topic with
  | none =>
    obtain ⟨e, he⟩ := sendLeave_of_not_joined env pending hc
    rw [he]
    exact h.trans ⟨rfl, rfl, rfl, fun _ => rfl⟩
  | some joinRef =>
    obtain ⟨channel, hc, hs, -⟩ := Protocol.joinedRef_eq_some.mp hc
    rw [sendLeave_of_joined hc hs]
    have htrack : KeepsPace d (d'.trackLeave topic pending) := h.trans ⟨rfl, rfl, rfl, fun _ => rfl⟩
    exact htrack.plans (KeepsPlans.refl _ _).sendFrame

end

/-! ### What a handler does to a topic's rejoin

A handler may clear the flag, or schedule a rejoin, which sets the flag and starts a timer where it
was not set. -/

/-- From `d` to `d'`, the rejoin of `t`: `C` if its flag may be cleared. -/
inductive Repaced (env : Env) (C : Prop) (t : Topic) (d d' : Driver) : Prop where
  | kept (hp : d'.pace t = d.pace t) (ht : d'.timers t = d.timers t)
  | scheduled (attempt : Nat) (hp : d.pace t = some (false, attempt))
      (hp' : d'.pace t = some (true, nextAttempt attempt))
      (ht : d'.timers t = d.timers t ++ [⟨d.clock + env.options.rejoinDelay (nextAttempt attempt), t⟩])
  | cleared (hc : C) (channel : ChannelRecord) (hr : d.record t = some channel)
      (hp : ∃ attempt, d'.pace t = some (false, attempt)) (ht : d'.timers t = d.timers t)
  | dropped (hp : d'.pace t = none)

section
variable {env : Env} {C : Prop} {d d' d'' : Driver} {topic t : Topic} {channel : ChannelRecord}

theorem KeepsPace.repaced (h : KeepsPace d d') : Repaced env C t d d' := .kept (h.pace t) (h.timers t)

theorem Repaced.keeps (h : Repaced env C t d d') (h' : KeepsPace d' d'') : Repaced env C t d d'' := by
  cases h with
  | kept hp ht => exact .kept ((h'.pace t).trans hp) ((h'.timers t).trans ht)
  | scheduled attempt hp hp' ht => exact .scheduled attempt hp ((h'.pace t).trans hp') ((h'.timers t).trans ht)
  | cleared hc channel hr hp ht =>
    obtain ⟨attempt, hp⟩ := hp
    exact .cleared hc channel hr ⟨attempt, (h'.pace t).trans hp⟩ ((h'.timers t).trans ht)
  | dropped hp => exact .dropped ((h'.pace t).trans hp)

theorem KeepsPace.then (h : KeepsPace d d') (h' : Repaced env C t d' d'') : Repaced env C t d d'' := by
  cases h' with
  | kept hp ht => exact .kept (hp.trans (h.pace t)) (ht.trans (h.timers t))
  | scheduled attempt hp hp' ht =>
    refine .scheduled attempt ((h.pace t).symm.trans hp) hp' ?_
    rw [ht, h.timers t, h.clock]
  | cleared hc channel hr hp ht =>
    obtain ⟨channel₀, hr₀, -⟩ := Option.map_eq_some_iff.mp ((h.pace t).symm.trans (pace_of_some hr))
    exact .cleared hc channel₀ hr₀ hp (ht.trans (h.timers t))
  | dropped hp => exact .dropped hp

/-- A record whose flag is cleared. -/
theorem repaced_setRecord (hr : d.record topic = some channel) {channel' : ChannelRecord}
    (hs : channel'.rejoinScheduled = false) (hc : t = topic → C) :
    Repaced env C t d (d.setRecord topic channel') := by
  by_cases ht : t = topic
  · rw [ht]
    exact .cleared (hc ht) channel hr ⟨_, by rw [pace_of_some (record_setRecord ..), hs]⟩ rfl
  · exact .kept (by rw [pace, record_setRecord_eq, if_neg ht, pace]) rfl

theorem repaced_stopChannel (hc : t = topic → C) : Repaced env C t d (d.stopChannel topic) := by
  cases hr : d.record topic with
  | none =>
    rw [stopChannel_of_none hr]
    exact (KeepsPace.refl d).repaced
  | some channel =>
    rw [stopChannel_of_some hr]
    exact (repaced_setRecord hr rfl hc).keeps ((KeepsPace.refl _).emitAll _)

theorem repaced_scheduleRejoin : Repaced env C t d (d.scheduleRejoin env topic) := by
  rcases scheduleRejoin_cases env d topic with ⟨-, he⟩ | ⟨channel, hr, -, hscheduled, he⟩
  · rw [he]
    exact (KeepsPace.refl d).repaced
  · rw [he]
    by_cases ht : t = topic
    · rw [ht]
      refine .scheduled channel.joinAttempt ?_ ?_ ?_
      · rw [pace_of_some hr, hscheduled]
      · exact pace_of_some (record_setRecord ..)
      · have hown : ∀ due, [(⟨due, topic⟩ : Timer Topic)].filter (fun timer => timer.value = topic) =
            [⟨due, topic⟩] := by
          simp
        show (d.connection.rejoins ++ [_]).filter _ = _
        rw [List.filter_append, hown]
        rfl
    · have hother : ∀ due, [(⟨due, topic⟩ : Timer Topic)].filter (fun timer => timer.value = t) = [] := by
        intro due
        rw [List.filter_cons_of_neg (by simpa using fun h => ht h.symm), List.filter_nil]
      refine .kept ?_ ?_
      · show (Driver.record (d.setRecord topic _) t).map _ = _
        rw [record_setRecord_eq, if_neg ht, pace]
      · show (d.connection.rejoins ++ [_]).filter _ = _
        rw [List.filter_append, hother, List.append_nil]
        rfl

theorem repaced_unregister : Repaced env C t d (d.unregister topic) := by
  by_cases ht : t = topic
  · refine .dropped (pace_of_none ?_)
    rw [ht, record_unregister]
  · have hunregister : Apart topic d (d.unregister topic) := (Apart.refl topic d).unregister
    have hdormant : Dormant d (d.unregister topic) := (Dormant.refl d).unregister
    refine .kept (by rw [pace, hunregister.record t ht, pace]) ?_
    rw [timers, hdormant.connection, timers]

/-! ### Handlers

For each handler that does more than keep the pace, whether it may clear the flag. -/

variable {id : RequestId} {reference : Reference} {response : Payload}

theorem repaced_unregisterConnected : Repaced env C t d (d.unregisterConnected env topic).1 := by
  by_cases hj : d.state.protocol.channelState topic = some .joined
  · obtain ⟨c, hc, hs⟩ := Option.map_eq_some_iff.mp hj
    rw [unregisterConnected_of_joined hc hs]
    have hprotocol : KeepsPace d (d.setProtocol (d.state.protocol.leave topic).2) := ⟨rfl, rfl, rfl, fun _ => rfl⟩
    exact (hprotocol.then repaced_unregister).keeps ((KeepsPace.refl _).plans (KeepsPlans.refl _ _).sendFrame)
  · rw [unregisterConnected_of_not_joined hj]
    exact repaced_unregister

theorem repaced_handleLeave {timeout : Duration} (hc : t = topic → C) :
    Repaced env C t d (d.handleLeave env id topic timeout).1 := by
  have hstop : ∀ status, Repaced env C t d ((d.setStatus topic status).stopChannel topic) := fun status =>
    ((KeepsPace.refl d).plans (KeepsPlans.refl _ d).setStatus).then (repaced_stopChannel hc)
  cases leave_handled env d id topic timeout with
  | sent channel hc hs he =>
    rw [he]
    exact (hstop _).keeps (KeepsPace.refl _).sendLeave
  | deferred channel hs hr he =>
    rw [he]
    refine (hstop _).keeps ((KeepsPace.refl _).setRecord hr ?_ ?_)
    · rfl
    · rfl
  | idle hs hj he =>
    rw [he]
    exact (hstop _).keeps ((KeepsPace.refl _).emitAll _)

theorem repaced_joinTimedOut {duration : Duration} : Repaced env C t d (d.joinTimedOut env topic duration) := by
  have hdiscard : KeepsPace d (d.discardChannel topic) := (KeepsPace.refl d).plans (KeepsPlans.refl _ d).discardChannel
  cases hr : d.record topic with
  | none =>
    rw [joinTimedOut_of_none hr]
    exact hdiscard.repaced
  | some channel =>
    have hr' : (d.discardChannel topic).record topic = some channel := hr
    cases hp : channel.deferredLeave with
    | some pending =>
      rw [joinTimedOut_of_deferred hr hp, answerLeave_eq]
      refine ((hdiscard.setRecord hr' ?_ ?_).emitAll _).repaced
      · rfl
      · rfl
    | none =>
      cases hd : channel.desired with
      | true =>
        rw [joinTimedOut_of_wanted hr hp hd]
        refine ((hdiscard.setRecord hr' ?_ ?_).emitAll _).then repaced_scheduleRejoin
        · rfl
        · rfl
      | false =>
        rw [joinTimedOut_of_unwanted hr hp hd]
        refine (hdiscard.setRecord hr' ?_ ?_).repaced
        · rfl
        · rfl

theorem repaced_handleOperationTimeout (operation : OperationTimeout) :
    Repaced env C t d (d.handleOperationTimeout env operation) := by
  cases operation with
  | join topic reference duration =>
    have herase : KeepsPace d (d.eraseJoin reference) := (KeepsPace.refl d).plans (KeepsPlans.refl _ d).eraseJoin
    simp only [handleOperationTimeout]
    split
    · exact herase.then repaced_joinTimedOut
    · exact herase.repaced
  | leave topic reference duration =>
    simp only [handleOperationTimeout]
    split
    · exact (KeepsPace.refl d).repaced
    · exact ((KeepsPace.refl d).plans (KeepsPlans.refl _ d).eraseLeave.leaveTimedOut).repaced

/-- A join that succeeded clears the flag. -/
theorem repaced_onJoined (hc : t = topic → C) : Repaced env C t d (d.onJoined env topic reference response).1 := by
  have herase : KeepsPlans (fun _ => True) d (d.eraseJoin reference) := (KeepsPlans.refl _ d).eraseJoin
  cases hr : d.record topic with
  | none =>
    rw [onJoined_of_none hr]
    exact herase.emitChannel.flush.keepsPace.repaced
  | some channel =>
    have hr' : (d.eraseJoin reference).record topic = some channel := hr
    have hwrite : Repaced env C t d ((d.eraseJoin reference).setRecord topic channel.joined) :=
      herase.keepsPace.then (repaced_setRecord hr' rfl hc)
    have hwelcome : Repaced env C t d (d.welcome topic reference response channel) :=
      hwrite.keeps (((KeepsPace.refl _).emitAll _).plans (KeepsPlans.refl _ _).emitChannel)
    cases hp : channel.deferredLeave with
    | none =>
      rw [onJoined_of_not_deferred hr hp]
      exact hwelcome.keeps ((KeepsPace.refl _).plans (KeepsPlans.refl _ _).flush)
    | some pending =>
      rw [onJoined_of_deferred hr hp]
      exact hwelcome.keeps (KeepsPace.refl _).sendLeave

theorem repaced_onJoinError : Repaced env C t d (d.onJoinError env topic reference response) := by
  have herase : KeepsPlans (fun _ => True) d (d.eraseJoin reference) := (KeepsPlans.refl _ d).eraseJoin
  cases hr : d.record topic with
  | none =>
    rw [onJoinError_of_none hr]
    exact herase.emitChannel.keepsPace.repaced
  | some channel =>
    rw [onJoinError_of_some hr]
    have hr' : (d.eraseJoin reference).record topic = some channel := hr
    have hwrite : KeepsPace d ((d.eraseJoin reference).setRecord topic channel.refused) :=
      herase.keepsPace.setRecord hr' rfl rfl
    exact ((hwrite.emitAll _).plans (KeepsPlans.refl _ _).emitChannel).then repaced_scheduleRejoin

theorem repaced_onChannelClosed (payload : Payload) (hc : t = topic → C) :
    Repaced env C t d (d.onChannelClosed topic payload) := by
  have hforget : KeepsPlans (fun _ => True) d (d.forgetJoins topic) := (KeepsPlans.refl _ d).forgetJoins
  unfold onChannelClosed
  dsimp only
  split
  · rename_i channel hr
    have hwrite : KeepsPace d ((d.forgetJoins topic).setRecord topic
        { channel with desired := false, status := .closed }) := hforget.keepsPace.setRecord hr rfl rfl
    exact (hwrite.plans (KeepsPlans.refl _ _).emitChannel).then (repaced_stopChannel hc)
  · exact hforget.emitChannel.keepsPace.then (repaced_stopChannel hc)

/-- The events that clear the flag of a topic. -/
def EventClears (t : Topic) : ProtocolEvent → Prop
  | .joined topic _ _ | .channelClosed topic _ => t = topic
  | _ => False

theorem repaced_handleEvent (event : ProtocolEvent) :
    Repaced env (EventClears t event) t d (d.handleEvent env event).1 := by
  have hrefl := KeepsPlans.refl (fun _ => True) d
  cases event with
  | joined topic reference response => exact repaced_onJoined id
  | joinError topic reference response => exact repaced_onJoinError
  | reply topic name reference status response => exact hrefl.onReply.keepsPace.repaced
  | left topic reference response => exact (hrefl.onLeft fun _ _ => trivial).keepsPace.repaced
  | heartbeatAck reference status => exact hrefl.onHeartbeatAck.keepsPace.repaced
  | channelError topic payload =>
    exact hrefl.forgetJoins.setStatus.emitChannel.keepsPace.then repaced_scheduleRejoin
  | channelClosed topic payload => exact repaced_onChannelClosed payload id
  | message frame | staleMessage frame | unmatchedReply frame => exact hrefl.emitChannel.keepsPace.repaced
  | requestInterrupted topic name reference => exact hrefl.emitChannel.keepsPace.repaced

end

/-! ### Steps

A step may clear the flag and leave the timer: `Clears` names the steps that do. -/

section
variable {env : Env} {C C' : Prop} {d d' : Driver} {input : Input} {t : Topic}

theorem Repaced.mono (h : Repaced env C t d d') (himp : C → C') : Repaced env C' t d d' := by
  cases h with
  | kept hp ht => exact .kept hp ht
  | scheduled attempt hp hp' ht => exact .scheduled attempt hp hp' ht
  | cleared hc channel hr hp ht => exact .cleared (himp hc) channel hr hp ht
  | dropped hp => exact .dropped hp

/-- The inputs that clear the flag of a topic: a leave, the success of its join, its close. -/
inductive Clears (env : Env) (d : Driver) (t : Topic) : Input → Prop where
  | leave (id : RequestId) (timeout : Duration) : Clears env d t (.command (.leave id t timeout))
  | joined {message : WireMessage} {frame : Frame} {p : Protocol} {reference : Reference} {response : Payload}
      (hd : env.codec.decode message = .ok frame)
      (hr : d.state.protocol.receive frame = (.ok (.joined t reference response), p)) :
    Clears env d t (.message message)
  | closed {message : WireMessage} {frame : Frame} {p : Protocol} {payload : Payload}
      (hd : env.codec.decode message = .ok frame)
      (hr : d.state.protocol.receive frame = (.ok (.channelClosed t payload), p)) :
    Clears env d t (.message message)

/-- What a step of the connected loop does to the rejoin of a topic. -/
inductive PacedStep (env : Env) (t : Topic) (d : Driver) : Input → Driver → Prop where
  | handled {input : Input} {d' : Driver} (h : Repaced env (Clears env d t input) t d d') :
    PacedStep env t d input d'
  | registered {d' : Driver} (hr : d.record t = none) (hp : d'.pace t = some (false, 0))
      (ht : d'.timers t = d.timers t) : PacedStep env t d (.lifecycle (.register t)) d'
  | fired {d' : Driver} (timer : Timer Topic) (hm : timer ∈ d.timers t)
      (hp : d'.pace t = (d.pace t).map fun p => (false, p.2)) (ht : d'.timers t = (d.timers t).erase timer) :
    PacedStep env t d (.rejoin timer) d'

/-- A handler that leaves the driver connected did not fail. -/
theorem settle_connected {r : Result} (h : (settle env r).phase = .connected) :
    r.2 = none ∧ settle env r = r.1 := by
  rcases r with ⟨d', _ | reason⟩
  · exact ⟨rfl, rfl⟩
  · rcases afterFailure_phase env (d'.onDisconnect reason) reason with hq | ⟨due, hq⟩
    · cases h.symm.trans hq
    · cases h.symm.trans hq

theorem paced_lifecycle (command : LifecycleCommand) :
    PacedStep env t d (.lifecycle command) (d.handleConnectedLifecycle env command).1 := by
  cases command with
  | unregister topic => exact .handled repaced_unregisterConnected
  | cancel id => exact .handled (KeepsPlans.refl (fun _ => True) d).cancel.keepsPace.repaced
  | register topic =>
    by_cases hc : d.state.channels.contains topic = true
    · refine .handled ?_
      rw [handleConnectedLifecycle, register, if_pos hc]
      exact (KeepsPace.refl d).repaced
    · simp only [handleConnectedLifecycle, register, if_neg hc]
      by_cases ht : t = topic
      · rw [ht]
        refine .registered ?_ (pace_of_some (record_setRecord ..)) rfl
        exact Std.ExtTreeMap.getElem?_eq_none_of_contains_eq_false (Bool.eq_false_iff.mpr hc)
      · refine .handled (.kept ?_ rfl)
        rw [pace, record_setRecord_eq, if_neg ht, pace]

theorem repaced_command (command : Command) :
    Repaced env (Clears env d t (.command command)) t d ((d.accept command).handleConnectedCommand env command).1 := by
  have haccept := plans_accept (fun _ => True) d command
  cases command with
  | connect | disconnect | subscribe | shutdown => exact haccept.keepsPace.repaced
  | subscribeChannel topic => exact haccept.keepsPace.repaced
  | ping id => exact haccept.handlePing.keepsPace.repaced
  | join id topic timeout => exact haccept.handleJoin.keepsPace.repaced
  | call id topic event payload started => exact haccept.handlePush.keepsPace.repaced
  | cast id topic event payload => exact haccept.handlePush.keepsPace.repaced
  | leave id topic timeout =>
    refine haccept.keepsPace.then (repaced_handleLeave ?_)
    rintro rfl
    exact .leave id timeout

theorem repaced_onMessage {message : WireMessage} (h : (d.onMessage env message).2 = none) :
    Repaced env (Clears env d t (.message message)) t d (d.onMessage env message).1 := by
  obtain ⟨frame, event, p, report, due, hd, hrec, -, he⟩ := onMessage_of_ok h
  rw [he]
  have hreport : KeepsPace d ((d.emitAll [.telemetry report]).setProtocol p) := ⟨rfl, rfl, rfl, fun _ => rfl⟩
  have hhandle : Repaced env (EventClears t event) t ((d.emitAll [.telemetry report]).setProtocol p)
      (((d.emitAll [.telemetry report]).setProtocol p).handleEvent env event).1 := repaced_handleEvent event
  have hevent := hreport.then hhandle
  refine (hevent.mono fun hc => ?_).keeps ⟨rfl, rfl, rfl, fun _ => rfl⟩
  cases event with
  | joined topic reference response =>
    cases hc
    exact .joined hd hrec
  | channelClosed topic payload =>
    cases hc
    exact .closed hd hrec
  | _ => exact hc.elim

/-- A timer fires for its own topic, and takes the flag with it. -/
theorem paced_handleRejoin {timer : Timer Topic} (hm : timer ∈ d.connection.rejoins) :
    PacedStep env t d (.rejoin timer) ((d.takeRejoin timer).handleRejoin timer.value) := by
  have htimers : (d.takeRejoin timer).timers t = (d.timers t).erase timer := by
    rw [timers, timers, List.erase_filter]
    rfl
  have hload : ∀ d : Driver, KeepsPace d (d.loadPayload timer.value) := fun d =>
    (KeepsPlans.refl (fun _ => True) d).loadPayload.keepsPace
  have hrecord : (d.takeRejoin timer).record = d.record := rfl
  -- the record of the timer's topic loses its flag, and nothing else of the rejoin changes
  have hafter : ((d.takeRejoin timer).handleRejoin timer.value).timers t = (d.timers t).erase timer ∧
      ((d.takeRejoin timer).handleRejoin timer.value).pace t =
        if t = timer.value then (d.pace t).map fun p => (false, p.2) else d.pace t := by
    unfold handleRejoin
    rw [hrecord]
    cases hr : d.record timer.value with
    | none =>
      dsimp only
      refine ⟨htimers, ?_⟩
      split
      · rename_i ht
        rw [ht, pace_of_none hr]
        exact pace_of_none hr
      · rfl
    | some channel =>
      have hwritten : ((d.takeRejoin timer).setRecord timer.value { channel with rejoinScheduled := false }).pace t =
          if t = timer.value then (d.pace t).map fun p => (false, p.2) else d.pace t := by
        rw [pace, record_setRecord_eq]
        split
        · rename_i ht
          rw [ht, pace_of_some hr]
          rfl
        · rfl
      dsimp only
      split
      · exact ⟨((hload _).timers t).trans htimers, ((hload _).pace t).trans hwritten⟩
      · exact ⟨htimers, hwritten⟩
  by_cases ht : t = timer.value
  · rw [if_pos ht] at hafter
    exact .fired timer (List.mem_filter.mpr ⟨hm, decide_eq_true ht.symm⟩) hafter.2 hafter.1
  · rw [if_neg ht] at hafter
    refine .handled (.kept hafter.2 (hafter.1.trans (List.erase_of_not_mem fun hm => ?_)))
    exact ht (of_decide_eq_true (List.mem_filter.mp hm).2).symm

/-- **A connected step schedules a rejoin with its timer, and calls one off only for a reason.** -/
theorem ConnectedStep.paced (hs : ConnectedStep env d input d') (hp : d'.phase = .connected) (t : Topic) :
    PacedStep env t d input d' := by
  cases hs with
  | lifecycle command =>
    rw [(settle_connected hp).2]
    exact paced_lifecycle command
  | command command =>
    rw [(settle_connected hp).2]
    exact .handled (repaced_command command)
  | acknowledge => exact .handled ((KeepsPace.refl d).emitAll _).repaced
  | disconnect => cases hp
  | close => cases hp
  | lost input hi reason => cases (settle_connected hp).1
  | message message =>
    obtain ⟨hn, he⟩ := settle_connected hp
    rw [he]
    exact .handled (repaced_onMessage hn)
  | heartbeat =>
    rw [(settle_connected hp).2]
    exact .handled (KeepsPlans.refl (fun _ => True) d).handleHeartbeat.keepsPace.repaced
  | payload topic payloadId result hm =>
    rw [(settle_connected hp).2]
    have htake : KeepsPace d (d.takePayload topic payloadId) := ⟨rfl, rfl, rfl, fun _ => rfl⟩
    exact .handled (htake.plans (KeepsPlans.refl _ _).handlePayload).repaced
  | rejoin timer hm => exact paced_handleRejoin hm
  | operationTimeout timer hm =>
    have htake : KeepsPace d (d.takeOperationTimeout timer) := ⟨rfl, rfl, rfl, fun _ => rfl⟩
    exact .handled (htake.then (repaced_handleOperationTimeout timer.value))

/-! ### Runs

As long as no step clears a flag whose timer is outstanding, flag and timer come and go together,
and the timer is the one of the step that set the flag. -/

/-- No flag is cleared that is set, and no topic is registered that still has a timer. -/
structure KeepsTimers (env : Env) (d : Driver) (input : Input) : Prop where
  clears : ∀ (t : Topic) (channel : ChannelRecord), Clears env d t input → d.record t = some channel →
    channel.rejoinScheduled = false
  registers : ∀ t : Topic, input = .lifecycle (.register t) → d.record t = none → d.timers t = []

/-- A step from `d₀` scheduled the rejoin of `t`, and up to `d` it has been scheduled ever since. -/
structure Scheduled (env : Env) (t : Topic) (d₀ d : Driver) (attempt : Nat) : Prop where
  reach : (driver env).Reach (KeepsTimers env) d₀
  before : ∃ n, d₀.pace t = some (false, n)
  since : ∃ input d₁, KeepsTimers env d₀ input ∧ d₀.step env input = some d₁ ∧
    (driver env).Path (fun d input => KeepsTimers env d input ∧ d.pace t = some (true, attempt)) d₁ d
  now : d.pace t = some (true, attempt)

/-- A timer stands for a flag that is set, and falls due after the delay of the attempt it was started for. -/
structure Backed (env : Env) (d : Driver) (t : Topic) : Prop where
  idle : ∀ attempt, d.pace t = some (false, attempt) → d.timers t = []
  scheduled : ∀ attempt, d.pace t = some (true, attempt) → ∃ d₀, Scheduled env t d₀ d attempt ∧
    d.timers t = [⟨d₀.clock + env.options.rejoinDelay attempt, t⟩]

/-- A flag that is backed says whether there is a timer. -/
theorem Backed.timed (h : Backed env d t) : d.Timed t := by
  intro channel hr
  have hp := pace_of_some hr
  cases hs : channel.rejoinScheduled with
  | false =>
    rw [hs] at hp
    rw [h.idle _ hp]
    rfl
  | true =>
    rw [hs] at hp
    obtain ⟨d₀, -, ht⟩ := h.scheduled _ hp
    rw [ht]
    rfl

/-- One more step, through which the rejoin stays scheduled. -/
theorem Scheduled.step {d₀ : Driver} {attempt : Nat} (h : Scheduled env t d₀ d attempt)
    (hok : KeepsTimers env d input) (hs : d.step env input = some d') (hp : d'.pace t = some (true, attempt)) :
    Scheduled env t d₀ d' attempt := by
  obtain ⟨first, d₁, hfirst, hs₁, hpath⟩ := h.since
  exact ⟨h.reach, h.before, ⟨first, d₁, hfirst, hs₁, hpath.step ⟨hok, h.now⟩ hs⟩, hp⟩

/-- A step sets the flag and starts the timer, or takes both away, or leaves both as they are. The timer
that fires is the one of the flag. -/
theorem Backed.step (h : Backed env d t) (hreach : (driver env).Reach (KeepsTimers env) d)
    (hok : KeepsTimers env d input) (hs : d.step env input = some d') (hpaced : PacedStep env t d input d') :
    Backed env d' t := by
  have hidle : ∀ d' : Driver, (∀ p, d'.pace t = some p → p.1 = false) →
      (∀ p, d'.pace t = some p → d'.timers t = []) → Backed env d' t := fun d' hf ht =>
    ⟨fun attempt hp => ht _ hp, fun attempt hp => nomatch hf _ hp⟩
  cases hpaced with
  | handled hr =>
    cases hr with
    | kept hp ht =>
      refine ⟨fun attempt hp' => ?_, fun attempt hp' => ?_⟩
      · rw [ht]
        exact h.idle attempt (hp.symm.trans hp')
      · obtain ⟨d₀, hd₀, htimers⟩ := h.scheduled attempt (hp.symm.trans hp')
        exact ⟨d₀, hd₀.step hok hs hp', ht.trans htimers⟩
    | scheduled attempt hp hp' ht =>
      refine ⟨fun n hn => (nomatch hp'.symm.trans hn), fun n hn => ?_⟩
      cases hp'.symm.trans hn
      rw [h.idle attempt hp] at ht
      exact ⟨d, ⟨hreach, ⟨attempt, hp⟩, ⟨input, d', hok, hs, .refl⟩, hp'⟩, ht⟩
    | cleared hc channel hr hp ht =>
      obtain ⟨attempt, hp⟩ := hp
      have hflag : d.pace t = some (false, channel.joinAttempt) := by
        rw [pace_of_some hr, hok.clears t channel hc hr]
      refine hidle d' (fun p hp' => ?_) fun p _ => ht.trans (h.idle _ hflag)
      cases hp.symm.trans hp'
      rfl
    | dropped hp =>
      have hnone : ∀ p, d'.pace t ≠ some p := fun p hp' => nomatch hp.symm.trans hp'
      exact hidle d' (fun p hp' => absurd hp' (hnone p)) fun p hp' => absurd hp' (hnone p)
  | registered hr hp ht =>
    refine hidle d' (fun p hp' => ?_) fun p _ => ht.trans (hok.registers t rfl hr)
    cases hp.symm.trans hp'
    rfl
  | fired timer hm hp ht =>
    refine hidle d' (fun p hp' => ?_) fun p hp' => ?_
    · obtain ⟨q, -, rfl⟩ := Option.map_eq_some_iff.mp (hp.symm.trans hp')
      rfl
    · obtain ⟨⟨flag, attempt⟩, hq, -⟩ := Option.map_eq_some_iff.mp (hp.symm.trans hp')
      rw [ht]
      cases flag with
      | false =>
        rw [h.idle attempt hq]
        rfl
      | true =>
        obtain ⟨d₀, -, htimers⟩ := h.scheduled attempt hq
        rw [htimers] at hm ⊢
        rw [List.mem_singleton.mp hm, List.erase_cons_head]

/-- A new connection has no timers, and no flag is set. -/
theorem backed_connectionMade (d : Driver) (started : Duration) (transport : Transport) (order : List Topic) :
    Backed env (d.connectionMade env started transport order) t := by
  have hconnected : (d.connected env started transport).timers t = [] ∧
      ∀ p, (d.connected env started transport).pace t = some p → p.1 = false := by
    refine ⟨rfl, fun p hp => ?_⟩
    rw [pace, connected_record, Option.map_map] at hp
    obtain ⟨channel, -, rfl⟩ := Option.map_eq_some_iff.mp hp
    rfl
  have hloads : KeepsPace (d.connected env started transport) (d.connectionMade env started transport order) := by
    refine connectionMade_induction (KeepsPace _) (.refl _) fun d' topic h => ?_
    have hload : KeepsPlans (fun _ => True) d' (d'.startLoad topic) := (KeepsPlans.refl _ d').setStatus.loadPayload
    exact h.trans hload.keepsPace
  refine ⟨fun attempt _ => (hloads.timers t).trans hconnected.1, fun attempt hp => ?_⟩
  rw [hloads.pace t] at hp
  nomatch hconnected.2 _ hp

/-- Only an attempt that succeeds connects. -/
theorem OfflineStep.made_of_connected (hs : OfflineStep env d input d') (hc : d.phase ≠ .connected)
    (hp : d'.phase = .connected) : ∃ started transport order, d' = d.connectionMade env started transport order := by
  have hdormant : ∀ {P : Prop}, d.Dormant d' → P := fun h => absurd (h.phase.symm.trans hp) hc
  cases hs with
  | lifecycle command => exact hdormant (dormant_handleOfflineLifecycle ..)
  | command command => exact hdormant (dormant_offlineCommand ..)
  | acknowledge command hr => exact absurd hp hc
  | disconnect d₁ reports he => cases hp
  | close input hi d₁ reports he => cases hp
  | connect input hi d₁ reports he attempt => cases hp
  | failed input hi started error =>
    rw [connectFailed] at hp
    rcases afterFailure_phase env ((d.attemptFinished started false).emitSocket
      (.disconnected (.connect error))) (.connect error) with hq | ⟨due, hq⟩
    · cases hp.symm.trans hq
    · cases hp.symm.trans hq
  | made started due transport order hp ho => exact ⟨started, transport, order, rfl⟩

/-- **While connected, every timer is backed by its flag**, in the runs that keep timers. -/
theorem backed (h : (driver env).Reach (KeepsTimers env) d) (hp : d.phase = .connected) (t : Topic) :
    Backed env d t := by
  induction h generalizing t with
  | start =>
    unfold driver start at hp
    dsimp only at hp
    split at hp
    · cases hp
    · cases hp
  | @step d d' input hreach hok hs ih =>
    have hs : d.step env input = some d' := hs
    cases stepped hs with
    | tick elapsed hi hd =>
      have hp₀ : d.phase = .connected := by
        rw [hd] at hp
        exact hp
      have hpaced : PacedStep env t d input d' := .handled (.kept (by rw [hd]; rfl) (by rw [hd]; rfl))
      exact (ih hp₀ t).step hreach hok hs hpaced
    | dropped topic hi hd =>
      have hstatus : KeepsPlans (fun _ => True) d (d.setStatus topic .closed) := (KeepsPlans.refl _ d).setStatus
      rw [← hd] at hstatus
      exact (ih (hstatus.phase.symm.trans hp) t).step hreach hok hs (.handled hstatus.keepsPace.repaced)
    | offline hc ho hstep =>
      obtain ⟨started, transport, order, rfl⟩ := hstep.made_of_connected hc hp
      exact backed_connectionMade ..
    | connected hp₀ hstep => exact (ih hp₀ t).step hreach hok hs (hstep.paced hp t)

/-- **In a run that keeps timers, a topic has one rejoin timer if its flag is set, and none otherwise**;
and a rejoin starts after the delay of the attempt it was last scheduled for. -/
theorem one_rejoin_timer (h : (driver env).Reach (KeepsTimers env) d) (hp : d.phase = .connected) :
    (∀ t, d.Timed t) ∧
      ∀ (timer : Timer Topic) (d' : Driver) (channel : ChannelRecord), d.step env (.rejoin timer) = some d' →
        d.record timer.value = some channel →
        ∃ d₀, Scheduled env timer.value d₀ d channel.joinAttempt ∧
          d₀.clock + env.options.rejoinDelay channel.joinAttempt ≤ d.clock := by
  refine ⟨fun t => (backed h hp t).timed, fun timer d' channel hs hr => ?_⟩
  have hdue : timer ∈ d.connection.rejoins ∧ timer.due ≤ d.clock := by
    unfold step at hs
    rw [hp] at hs
    simp only [stepConnected] at hs
    split at hs
    · assumption
    · cases hs
  have hm : timer ∈ d.timers timer.value := List.mem_filter.mpr ⟨hdue.1, decide_eq_true rfl⟩
  have hbacked := backed h hp timer.value
  have hpace := pace_of_some hr
  cases hf : channel.rejoinScheduled with
  | false =>
    rw [hf] at hpace
    rw [hbacked.idle _ hpace] at hm
    cases hm
  | true =>
    rw [hf] at hpace
    obtain ⟨d₀, hscheduled, htimers⟩ := hbacked.scheduled _ hpace
    rw [htimers] at hm
    refine ⟨d₀, hscheduled, ?_⟩
    have hdue := hdue.2
    rw [List.mem_singleton.mp hm] at hdue
    exact hdue

end

/-! ### A second timer

A channel that fails, is joined again and fails once more has two timers. -/

/-- No timer is outstanding and no flag is set, or time passes. -/
def restful (d : Driver) (input : Input) : Bool :=
  match input with
  | .tick _ => true
  | _ => d.connection.rejoins.isEmpty && d.state.channels.toList.all fun entry => !entry.2.rejoinScheduled

/-- The test that a run can be checked with is sound. -/
theorem keepsTimers_of_restful {env : Env} {d : Driver} {input : Input} (h : restful d input = true) :
    KeepsTimers env d input := by
  unfold restful at h
  split at h
  · refine ⟨fun t channel hc => ?_, fun t hi => ?_⟩
    · cases hc
    · cases hi
  · rw [Bool.and_eq_true, List.all_eq_true, List.isEmpty_iff] at h
    refine ⟨fun t channel _ hr => ?_, fun t _ _ => by rw [timers, h.1, List.filter_nil]⟩
    have hm : (t, channel) ∈ d.state.channels.toList := Std.ExtTreeMap.mem_toList_iff_getElem?_eq_some.mpr hr
    simpa using h.2 _ hm

/-- A join fails, and its rejoin starts after the delay. -/
theorem one_rejoin_timer_due :
    ∃ d d₀ : Driver, (driver (smallEnv [joinCrash])).Reach (KeepsTimers (smallEnv [joinCrash])) d ∧
      Scheduled (smallEnv [joinCrash]) "room" d₀ d 1 ∧ d₀.clock + 1 ≤ d.clock := by
  have hok : ∀ d input, restful d input = true → KeepsTimers (smallEnv [joinCrash]) d input := fun _ _ =>
    keepsTimers_of_restful
  obtain ⟨d, hr, hd⟩ := Machine.reach_of_guarded_run (driver (smallEnv [joinCrash])) hok
    (joining ++ [.frame joinCrash, .tick 1])
    (fun d => d.phase = .connected && (d.step (smallEnv [joinCrash]) (.rejoin ⟨1, "room"⟩)).isSome &&
      (d.record "room").any fun channel => channel.joinAttempt = 1)
    (by decide +kernel)
  simp only [Bool.and_eq_true, decide_eq_true_eq, Option.any_eq_true] at hd
  obtain ⟨⟨hp, hs⟩, channel, hrec, ha⟩ := hd
  obtain ⟨d', hs⟩ := Option.isSome_iff_exists.mp hs
  obtain ⟨-, hwaits⟩ := one_rejoin_timer hr hp
  obtain ⟨d₀, hscheduled, hdue⟩ := hwaits ⟨1, "room"⟩ d' channel hs hrec
  rw [ha] at hscheduled
  exact ⟨d, d₀, hr, hscheduled, hdue⟩

/-- The replies of two joins and the failures of their channels. -/
def crashes : List Frame :=
  [replyFrame "ok" "room" "1" "1", serverFrame "phx_error" "room" "1", replyFrame "ok" "room" "2" "2",
    serverFrame "phx_error" "room" "2"]

/-- A channel fails, is joined again on request, and fails again: two timers are outstanding. -/
theorem two_rejoin_timers :
    ¬ ∀ (env : Env) (d : Driver), (driver env).Reachable d → d.phase = .connected → ∀ t, d.Timed t := by
  intro hall
  obtain ⟨d, hr, hd⟩ := Machine.reachable_of_run (driver (smallEnv crashes))
    (joining ++ [.frame (replyFrame "ok" "room" "1" "1"), .frame (serverFrame "phx_error" "room" "1"),
      .command (.join 2 "room" 10), .payload "room" 2 (.ok (.object [])), .frame (replyFrame "ok" "room" "2" "2"),
      .frame (serverFrame "phx_error" "room" "2")])
    (fun d => d.phase = .connected && decide ((d.timers "room").length = 2) && (d.record "room").isSome)
    (by decide +kernel)
  simp only [Bool.and_eq_true, decide_eq_true_eq] at hd
  obtain ⟨⟨hp, htwo⟩, hrec⟩ := hd
  obtain ⟨channel, hrec⟩ := Option.isSome_iff_exists.mp hrec
  have htimed := hall _ d hr hp "room" channel hrec
  rw [htwo] at htimed
  split at htimed
  · cases htimed
  · cases htimed

end Driver
end PhoenixChannel.Client
