import PhoenixChannel.Client.Custody
import PhoenixChannel.Client.Handles
import PhoenixChannel.Client.Subjects

/-! What a join carries.

A run is written down step by step. What a channel waits for is its load that was started
last, and only as long as nothing superseded it; so that is what a join carries, and the
result of a superseded load is dropped when it comes. -/
namespace PhoenixChannel.Client
open PhoenixChannel.Runtime Library

namespace Driver

/-! ### Without a connection

Loads belong to a connection. Offline no record waits for one. -/

section
variable {env : Env} {d d' : Driver} {input : Input} {topic : Topic}

/-- A handler ends the connection, or leaves the loop where it is. -/
theorem offline_settle {r : Result} (hp : d.phase = .connected)
    (h : r.2 = none → r.1.phase = d.phase) :
    (settle env r).phase = .connected ∨ (settle env r).Offline := by
  rcases r with ⟨d', _ | reason⟩
  · exact .inl ((h rfl).trans hp)
  · exact .inr ((offline_onDisconnect d' reason).afterFailure reason)

theorem ConnectedStep.offline (hs : ConnectedStep env d input d') (hp : d.phase = .connected) :
    d'.phase = .connected ∨ d'.phase = .closed ∨ d'.Offline := by
  cases hs with
  | lifecycle command =>
    refine (offline_settle hp fun _ => ?_).imp_right .inr
    cases command with
    | register topic => exact ((Apart.refl topic d).register).phase
    | unregister topic => exact (apart_unregisterConnected env d topic).phase
    | cancel id => exact (dormant_cancel d id).phase
  | command command =>
    obtain ⟨topic, -, hk⟩ := apart_handleConnectedCommand env d command
    exact (offline_settle hp fun _ => hk.phase).imp_right .inr
  | acknowledge => exact .inl hp
  | disconnect => exact .inr (.inr ((offline_onDisconnect d .requested).of_eq rfl rfl rfl))
  | close => exact .inr (.inl rfl)
  | lost input hi reason => exact .inr (.inr ((offline_onDisconnect d reason).afterFailure reason))
  | message message =>
    refine (offline_settle hp fun hok => ?_).imp_right .inr
    obtain ⟨frame, event, p, -, -, hd, hrec, -⟩ := onMessage_of_ok hok
    exact (apart_onMessage env d hd hrec).phase
  | heartbeat => exact (offline_settle hp fun _ => (apart_handleHeartbeat env d).phase).imp_right .inr
  | payload topic payloadId result hm =>
    exact (offline_settle hp fun _ => ((apart_takePayload d topic payloadId).trans
      (apart_handlePayload env _ topic payloadId result)).phase).imp_right .inr
  | rejoin timer hm =>
    exact .inl (((apart_takeRejoin d timer.value timer).trans (apart_handleRejoin _ _)).phase.trans hp)
  | operationTimeout timer hm => exact .inl ((apart_operationTimeout env hm).phase.trans hp)

theorem connectionMade_phase (env : Env) (d : Driver) (started : Duration) (transport : Transport)
    (order : List Topic) : (d.connectionMade env started transport order).phase = .connected := by
  refine connectionMade_induction (fun d' => d'.phase = .connected) rfl fun d' topic h => ?_
  have hload : Apart topic d' (d'.startLoad topic) := (Apart.refl topic d').setStatus.loadPayload
  exact hload.phase.trans h

theorem OfflineStep.offline (hs : OfflineStep env d input d') (h : d.Offline) :
    d'.phase = .connected ∨ d'.phase = .closed ∨ d'.Offline := by
  have hreports : ∀ {reports : List Effect}, (d.emitAll reports).Offline := h.of_eq rfl rfl rfl
  cases hs with
  | lifecycle command => exact .inr (.inr (h.dormant (dormant_handleOfflineLifecycle env d command)))
  | command command => exact .inr (.inr (h.dormant (dormant_offlineCommand env d command)))
  | acknowledge command hc => exact .inr (.inr hreports)
  | disconnect d₁ reports he hr =>
    exact .inr (.inr ((offline_onDisconnect d₁ .requested).of_eq rfl rfl rfl))
  | close input hi d₁ reports he hr => exact .inr (.inl rfl)
  | connect input hi d₁ reports he attempt hr =>
    rw [he]
    have hattempt : { d.emitAll reports with attempt }.Offline := h.of_eq rfl rfl rfl
    exact .inr (.inr ((hattempt.emitSocket (.connecting attempt)).of_eq rfl rfl rfl))
  | failed input hi started error =>
    have hfinished : (d.attemptFinished started false).Offline := hreports
    exact .inr (.inr ((hfinished.emitSocket _).afterFailure _))
  | made started due transport order hp ho => exact .inl (connectionMade_phase ..)

theorem offline_start (env : Env) : (start env).Offline := by
  have hbetween : Between False False (start env) := between_start env
  have hphase : (start env).phase ≠ .connected ∧ (start env).phase ≠ .closed := by
    unfold start
    dsimp only
    split
    · exact ⟨nofun, nofun⟩
    · exact ⟨nofun, nofun⟩
  exact .of_phase hbetween hphase.1 hphase.2

theorem Offline.awaited (h : d.Offline) (t : Topic) : d.awaited t = none := by
  cases hr : d.record t with
  | none => exact awaited_of_none hr
  | some channel => exact (awaited_of_some hr).trans (h.records t channel hr).1

/-- **Without a connection no channel is active and no record waits for a load.** -/
theorem reachable_offline (h : (driver env).Reachable d) :
    d.phase = .connected ∨ d.phase = .closed ∨ d.Offline := by
  induction h with
  | start => exact .inr (.inr (offline_start env))
  | @step s s' i _ _ hs ih =>
    rcases stepped hs with ⟨elapsed, -, rfl⟩ | ⟨topic, -, rfl⟩ | ⟨hc, ho, hs⟩ | ⟨hp, hs⟩
    · exact ih.imp_right (.imp_right fun h => h.of_eq rfl rfl rfl)
    · have hd : s.Dormant (s.setStatus topic .closed) := (Dormant.refl s).setStatus
      rw [hd.phase]
      exact ih.imp_right (.imp_right fun h => h.dormant hd)
    · exact hs.offline ((ih.resolve_left hc).resolve_left ho)
    · exact hs.offline hp

end

end Driver

/-! ### Runs written down

Each step is kept with the driver before and after it, so one can say which load was started last
and what came since. -/

/-- A step of a run. -/
structure StepTaken where
  before : Driver
  input : Input
  after : Driver

/-- The loads started in the step. -/
def StepTaken.loads (step : StepTaken) : List Load := loadsOf (step.before.done step.after)

/-- A driver, with the steps it took. -/
def history (env : Env) : Machine (List StepTaken × Driver) Input :=
  (driver env).recording fun d input d' => [⟨d, input, d'⟩]

/-- The step supersedes the load that the topic's channel waits for. A cancelled join does when
nobody else waits and the channel has never been joined, a deadline when its join is still in
flight, and a closing when it is the current generation's. -/
inductive Supersedes (env : Env) (t : Topic) : StepTaken → Prop where
  | left (d d' : Driver) (id : RequestId) (timeout : Duration) :
    Supersedes env t ⟨d, .command (.leave id t timeout), d'⟩
  | registered (d d' : Driver) (hr : d.record t = none) :
    Supersedes env t ⟨d, .lifecycle (.register t), d'⟩
  | unregistered (d d' : Driver) : Supersedes env t ⟨d, .lifecycle (.unregister t), d'⟩
  | cancelled (d d' : Driver) (id : RequestId) (channel : ChannelRecord)
      (hf : d.state.channels.toList.find? (fun entry => entry.2.joinWaiters.contains id) =
        some (t, channel))
      (hw : channel.joinWaiters.erase id = []) (hj : channel.everJoined = false) :
    Supersedes env t ⟨d, .lifecycle (.cancel id), d'⟩
  | timedOut (d d' : Driver) (timer : Timer OperationTimeout) (reference : Reference)
      (duration : Duration) (hv : timer.value = .join t reference duration)
      (hp : d.state.pendingJoins[reference]? = some t) :
    Supersedes env t ⟨d, .operationTimeout timer, d'⟩
  | closed (d d' : Driver) (message : WireMessage) (frame : Frame) (payload : Payload) (p : Protocol)
      (hd : env.codec.decode message = .ok frame)
      (hrec : d.state.protocol.receive frame = (.ok (.channelClosed t payload), p)) :
    Supersedes env t ⟨d, .message message, d'⟩
  | disconnected (d d' : Driver) (input : Input) (hp : d.phase = .connected)
      (hp' : d'.phase ≠ .connected) : Supersedes env t ⟨d, input, d'⟩

/-- The load was the topic's last one to be started, and nothing superseded it since. -/
def Latest (env : Env) (steps : List StepTaken) (t : Topic) (id : UInt64) : Prop :=
  ∃ before step after, steps = before ++ step :: after ∧ lastLoad t none step.loads = some id ∧
    ∀ later ∈ after, lastLoad t none later.loads = none ∧ ¬ Supersedes env t later

namespace Driver

/-! ### What supersedes a load

Whatever withdraws the wish, ends the join or loses the connection leaves the record waiting for
nothing. -/

/-- On the way from `d` to `d'` the topic's channel waits for nothing. -/
def Cleared (t : Topic) (d d' : Driver) : Prop :=
  ∃ mid, Continues none none d mid ∧ mid.awaited t = none ∧ Continues none none mid d'

section
variable {env : Env} {d d' d'' : Driver} {t : Topic} {channel : ChannelRecord}

theorem Cleared.continues (h : Cleared t d d') (h' : Continues none none d' d'') : Cleared t d d'' := by
  obtain ⟨mid, hm, hn, hm'⟩ := h
  exact ⟨mid, hm, hn, hm'.trans h'⟩

theorem Cleared.after (h : Continues none none d d') (h' : Cleared t d' d'') : Cleared t d d'' := by
  obtain ⟨mid, hm, hn, hm'⟩ := h'
  exact ⟨mid, h.trans hm, hn, hm'⟩

/-- Then it waits at most for what was started meanwhile. -/
theorem Cleared.awaited (h : Cleared t d d') :
    d'.awaited t = none ∨ d'.awaited t = lastLoad t none (loadsOf (d.done d')) := by
  obtain ⟨mid, ⟨effects, ht, -⟩, hn, effects', ht', h'⟩ := h
  have hdone : d.done d' = effects ++ effects' := done_of_append (by rw [ht', ht, List.append_assoc])
  rw [hdone, loadsOf_append, lastLoad_append]
  rcases h'.awaited t with hnone | hlast
  · exact .inl hnone
  rcases lastLoad_cases t (loadsOf effects') with hkeep | ⟨id, -, hsome⟩
  · rw [hkeep, hn] at hlast
    exact .inl hlast
  · rw [hlast, hsome, hsome]
    exact .inr rfl

theorem cleared_stopChannel (d : Driver) (t : Topic) : Cleared t d (d.stopChannel t) := by
  refine ⟨_, (Continues.refl _ _ d).stopChannel, ?_, .refl ..⟩
  cases hr : d.record t with
  | none =>
    rw [stopChannel_of_none hr]
    exact awaited_of_none hr
  | some channel =>
    rw [stopChannel_of_some hr, Driver.awaited, emitAll_record, record_setRecord]
    rfl

/-- A record is written that waits for nothing. -/
theorem cleared_setRecord {channel' : ChannelRecord} (hr : d.record t = some channel)
    (hn : channel'.activePayload = none) : Cleared t d (d.setRecord t channel') := by
  refine ⟨_, (Continues.refl _ _ d).setRecord hr (.inl hn), ?_, .refl ..⟩
  rw [awaited_of_some (record_setRecord ..), hn]

theorem cleared_handleLeave (env : Env) (d : Driver) (id : RequestId) (t : Topic) (timeout : Duration) :
    Cleared t d (d.handleLeave env id t timeout).1 := by
  obtain ⟨status, hrest⟩ : ∃ status, Continues none none ((d.setStatus t status).stopChannel t) _ :=
    continues_stopped env d id t timeout
  exact (Cleared.after (Continues.refl _ _ d).setStatus (cleared_stopChannel _ t)).continues hrest

theorem cleared_cancelJoin {id : RequestId} (hr : d.record t = some channel)
    (hw : channel.joinWaiters.erase id = []) (hj : channel.everJoined = false) :
    Cleared t d (d.cancelJoin t channel id) := by
  rw [cancelJoin_of_last hw hj]
  have habandon : Cleared t d (d.setRecord t (channel.abandoned id)) := cleared_setRecord hr rfl
  refine habandon.continues (Continues.discardChannel (Continues.forgetJoins ?_))
  exact (Continues.refl _ _ _).emitAll (by simp [Effect.Sends])

theorem cleared_joinTimedOut (env : Env) (d : Driver) (t : Topic) (duration : Duration) :
    Cleared t d (d.joinTimedOut env t duration) := by
  have hdiscard : Continues none none d (d.discardChannel t) := (Continues.refl _ _ d).discardChannel
  cases hr : d.record t with
  | none =>
    rw [joinTimedOut_of_none hr]
    exact ⟨_, hdiscard, awaited_of_none hr, .refl ..⟩
  | some channel =>
    have hset : ∀ channel' : ChannelRecord, channel'.activePayload = none →
        Cleared t d ((d.discardChannel t).setRecord t channel') := fun _ hn =>
      .after hdiscard (cleared_setRecord hr hn)
    cases hl : channel.deferredLeave with
    | some pending =>
      rw [joinTimedOut_of_deferred hr hl]
      exact (hset _ rfl).continues (Continues.refl _ _ _).answerLeave
    | none =>
      cases hd : channel.desired with
      | true =>
        rw [joinTimedOut_of_wanted hr hl hd]
        exact (hset _ rfl).continues (Continues.refl _ _ _).answers.scheduleRejoin
      | false =>
        rw [joinTimedOut_of_unwanted hr hl hd]
        exact hset _ rfl

theorem cleared_onChannelClosed (d : Driver) (t : Topic) (payload : Payload) :
    Cleared t d (d.onChannelClosed t payload) := by
  have hforget : Continues none none d (d.forgetJoins t) := (Continues.refl _ _ d).forgetJoins
  cases hr : d.record t with
  | none =>
    rw [onChannelClosed_of_none hr]
    exact ⟨_, hforget, awaited_of_none hr, (Continues.refl _ _ _).emitChannel⟩
  | some channel =>
    have hr' : (d.forgetJoins t).record t = some channel := hr
    simp only [onChannelClosed, hr']
    have hset : Continues none none d ((d.forgetJoins t).setRecord t
        { channel with desired := false, status := .closed }) := hforget.setRecord hr' (.inr rfl)
    exact .after hset.emitChannel (cleared_stopChannel _ t)

/-- A closing of the current generation. -/
theorem cleared_onMessage {message : WireMessage} {frame : Frame} {payload : Payload} {p : Protocol}
    (hd : env.codec.decode message = .ok frame)
    (hrec : d.state.protocol.receive frame = (.ok (.channelClosed t payload), p)) :
    Cleared t d (d.onMessage env message).1 := by
  obtain ⟨report, hi⟩ := handleIncoming_of_decoded (d := d) hd
  have hreport : Continues none none d (d.emitAll [.telemetry report]) :=
    (Continues.refl _ _ d).emitAll (by simp [Effect.Sends])
  have hreceive : Continues none none d ((d.emitAll [.telemetry report]).setProtocol p) := by
    have haged := aged_receive (d.emitAll [.telemetry report]) frame
    rw [emitAll_state, hrec] at haged
    exact hreport.setProtocol haged
  have hincoming : d.handleIncoming env message =
      (((d.emitAll [.telemetry report]).setProtocol p).onChannelClosed t payload, none) := by
    simp only [hi, handleFrame, emitAll_state, hrec, handleEvent]
  have hclosed := Cleared.after hreceive (cleared_onChannelClosed _ t payload)
  simp only [onMessage, hincoming, Result.andThen]
  split
  · exact hclosed.continues ((Continues.refl _ _ _).heartbeatDue _)
  · exact hclosed

/-- **A channel waits at most for what a superseding step starts itself.** -/
theorem superseded_awaited {input : Input} (hr : (driver env).Reachable d)
    (hs : d.step env input = some d') (ho : d'.phase ≠ .closed) (h : Supersedes env t ⟨d, input, d'⟩) :
    d'.awaited t = none ∨ d'.awaited t = lastLoad t none (loadsOf (d.done d')) := by
  cases h with
  | left _ _ id timeout =>
    have haccept : Continues none none d (d.accept (.leave id t timeout)) := continues_accept d _
    rcases leave_cases hs with rfl | rfl
    · have hleft : Continues none none d ((d.accept (.leave id t timeout)).setStatus t .left) :=
        haccept.setStatus
      have hstop := Cleared.after hleft (cleared_stopChannel _ t)
      exact (hstop.continues ((Continues.refl _ _ _).emitAll (by simp [Effect.Sends]))).awaited
    · have hleave := Cleared.after haccept (cleared_handleLeave env _ id t timeout)
      exact (hleave.continues (Continues.refl _ _ _).settle).awaited
  | registered _ _ hnone =>
    have hd : d' = d.register env t := by
      rcases lifecycle_cases hs with rfl | rfl <;> rfl
    have hc : ¬ d.state.channels.contains t = true := by
      rw [Std.ExtTreeMap.contains_eq_isSome_getElem?]
      simpa [record] using hnone
    rw [hd, register, if_neg hc]
    exact .inl (awaited_of_some (record_setRecord ..))
  | unregistered => exact .inl (awaited_of_none (record_unregistered hs))
  | cancelled _ _ id channel hf hw hj =>
    have hrec : d.record t = some channel :=
      (Table.lookup_of_find hf).1
    have hd : d' = d.cancel id := by
      rcases lifecycle_cases hs with rfl | rfl <;> rfl
    have hcancel : d.cancel id = d.cancelJoin t channel id := by simp only [cancel, hf]
    rw [hd, hcancel]
    exact (cleared_cancelJoin hrec hw hj).awaited
  | timedOut _ _ timer reference duration hv hp =>
    have htake : Continues none none d (d.takeOperationTimeout timer) :=
      .of_same rfl rfl rfl rfl (.of_trace rfl)
    rw [timeout_cases hs, hv]
    have hp : (d.takeOperationTimeout timer).state.pendingJoins[reference]? = some t := hp
    simp only [handleOperationTimeout, if_pos hp]
    exact (Cleared.after htake.eraseJoin (cleared_joinTimedOut env _ t duration)).awaited
  | closed _ _ message frame payload p hd hrec =>
    rw [message_cases hs]
    exact ((cleared_onMessage hd hrec).continues (Continues.refl _ _ _).settle).awaited
  | disconnected _ _ _ hp hp' =>
    have hoffline : d'.Offline := ((reachable_offline (hr.step hs)).resolve_left hp').resolve_left ho
    exact .inl (hoffline.awaited t)

end

end Driver

/-! ### What a join carries

A join goes out with the result of the load its record waits for, so it is the latest. Load ids are
never used again, so no other result is taken for it. -/

/-- The effect sends nothing but a frame of the topic with that payload. -/
def Effect.JoinsWith (t : Topic) (value : Value) : Effect → Prop
  | .outgoing _ frame => frame.topic = t ∧ frame.payload = .json value
  | _ => True

instance (t : Topic) (value : Value) : Lenient (Effect.JoinsWith t value) where
  report effect h := by
    cases effect with
    | outgoing => exact h.elim
    | _ => trivial
  failure _ _ _ := trivial
  leave _ _ := trivial
  load _ _ _ _ := trivial

namespace Driver

section
variable {env : Env} {d d' : Driver} {t : Topic} {id : UInt64}

/-- Nothing is sent, or the value that the channel waited for. -/
theorem handlePayload_sends (env : Env) (d : Driver) (t : Topic) (id : UInt64)
    (result : Except String Value) :
    d.Emits (fun effect => ¬ effect.Sends) (d.handlePayload env t id result).1 ∨
      ∃ value, result = .ok value ∧ d.awaited t = some id ∧
        d.Emits (Effect.JoinsWith t value) (d.handlePayload env t id result).1 := by
  cases payload_handled env d t id result with
  | ignored h he =>
    rw [he]
    exact .inl (.refl ..)
  | late channel hr ha h he =>
    rw [he]
    exact .inl (.of_trace rfl)
  | failed message channel hp hr ha he =>
    rw [he, emitChannel_eq]
    refine .inl (Emits.emitAll (Emits.emitAll (.of_trace rfl) fun effect hm => ?_) fun effect hm => ?_)
    · obtain ⟨waiter, -, rfl⟩ := List.mem_map.mp hm
      exact not_false
    · exact idle_of_report (channelEffects_report _ t _ effect hm)
  | joined value channel d₁ hp hr ha hd hs hd₁ hs₁ he =>
    have htrack : d.Emits (Effect.JoinsWith t value) (d₁.trackJoin t value channel.loaded) := by
      rcases hd₁ with rfl | ⟨-, rfl⟩ <;> exact .of_trace rfl
    rw [he]
    exact .inr ⟨value, hp, (awaited_of_some hr).trans ha, htrack.sendFrame ⟨rfl, rfl⟩⟩

/-- A frame that the result of a load sends carries the result. -/
theorem payload_frames {result : Except String Value} {served : List RequestId} {frame : Frame}
    (hs : d.step env (.payload t id result) = some d') (hm : .outgoing served frame ∈ d.done d') :
    ∃ value, result = .ok value ∧ d.awaited t = some id ∧ frame.topic = t ∧
      frame.payload = .json value := by
  obtain ⟨-, rfl⟩ := payload_cases hs
  have htake : ∀ P : Effect → Prop, d.Emits P (d.takePayload t id) := fun _ => .of_trace rfl
  have hsettle := idle_settle env ((d.takePayload t id).handlePayload env t id result)
  rcases handlePayload_sends env (d.takePayload t id) t id result with hidle | ⟨value, rfl, ha, hjoins⟩
  · exact absurd trivial ((((htake _).trans hidle).trans hsettle).done hm)
  · have hnone : ∀ effect : Effect, ¬ effect.Sends → effect.JoinsWith t value := fun effect h => by
      cases effect with
      | outgoing => exact absurd trivial h
      | _ => trivial
    obtain ⟨ht, hp⟩ := (((htake _).trans hjoins).trans (hsettle.mono hnone)).done hm
    exact ⟨value, rfl, ha, ht, hp⟩

/-- The result of a load that no channel waits for is dropped. -/
theorem payload_dropped {result : Except String Value}
    (hs : d.step env (.payload t id result) = some d') (ha : d.awaited t ≠ some id) :
    d' = d.takePayload t id := by
  obtain ⟨-, rfl⟩ := payload_cases hs
  cases payload_handled env (d.takePayload t id) t id result with
  | ignored h he =>
    rw [he]
    rfl
  | late channel hr hactive h he => exact absurd ((awaited_of_some hr).trans hactive) ha
  | failed message channel hp hr hactive he => exact absurd ((awaited_of_some hr).trans hactive) ha
  | joined value channel d₁ hp hr hactive hd hs hd₁ hs₁ he =>
    exact absurd ((awaited_of_some hr).trans hactive) ha

end

end Driver

section
variable {env : Env} {steps : List StepTaken} {step : StepTaken} {t : Topic} {id : UInt64}
  {s : List StepTaken × Driver}

theorem Latest.started (h : lastLoad t none step.loads = some id) : Latest env (steps ++ [step]) t id :=
  ⟨steps, step, [], rfl, h, by simp⟩

theorem Latest.kept (h : Latest env steps t id) (hl : lastLoad t none step.loads = none)
    (hn : ¬ Supersedes env t step) : Latest env (steps ++ [step]) t id := by
  obtain ⟨before, first, after, rfl, hf, hlater⟩ := h
  refine ⟨before, first, after ++ [step], by simp, hf, fun later hm => ?_⟩
  rcases List.mem_append.mp hm with hm | hm
  · exact hlater later hm
  · cases List.mem_singleton.mp hm
    exact ⟨hl, hn⟩

theorem driver_reachable (h : (history env).Reachable s) : (driver env).Reachable s.2 :=
  Machine.Reach.of_recording h

/-- **A channel waits for the load that was started last and not superseded.** -/
theorem reachable_latest (h : (history env).Reachable s) (ho : s.2.phase ≠ .closed)
    (ha : s.2.awaited t = some id) : Latest env s.1 t id := by
  induction h generalizing t id with
  | start =>
    have hnone : (Driver.start env).awaited t = none := (Driver.offline_start env).awaited t
    rw [show (history env).start.2 = Driver.start env from rfl, hnone] at ha
    cases ha
  | @step s s' input hr _ hs ih =>
    obtain ⟨hstep, hh⟩ := Machine.recording_step.mp hs
    rw [hh]
    have hopen : s.2.phase ≠ .closed := fun hc => ho (Driver.closed_step hstep hc)
    by_cases hn : Supersedes env t ⟨s.2, input, s'.2⟩
    · rcases Driver.superseded_awaited (driver_reachable hr) hstep ho hn with hnone | hlast
      · rw [hnone] at ha
        cases ha
      · exact .started (hlast.symm.trans ha)
    · obtain ⟨effects, ht, hc⟩ := Driver.continues_step hstep
      have hloads : StepTaken.loads ⟨s.2, input, s'.2⟩ = loadsOf effects :=
        congrArg loadsOf (Driver.done_of_append ht)
      rcases hc.awaited t with hnone | hlast
      · rw [hnone] at ha
        cases ha
      rw [ha] at hlast
      rcases lastLoad_cases t (loadsOf effects) with hkeep | ⟨id', -, hsome⟩
      · rw [hkeep] at hlast
        exact (ih hopen hlast.symm).kept (by rw [hloads, hkeep]) hn
      · rw [hsome] at hlast
        exact .started (by rw [hloads, hsome, hlast])

theorem reachable_successive (h : (history env).Reachable s) :
    Successive 0 (s.1.flatMap StepTaken.loads) s.2.state.nextPayloadId := by
  induction h with
  | start =>
    show (Driver.start env).state.nextPayloadId = 0
    unfold Driver.start
    dsimp only
    split <;> rfl
  | @step s s' input hr _ hs ih =>
    obtain ⟨hstep, hh⟩ := Machine.recording_step.mp hs
    obtain ⟨effects, ht, hc⟩ := Driver.continues_step hstep
    have hloads : StepTaken.loads ⟨s.2, input, s'.2⟩ = loadsOf effects :=
      congrArg loadsOf (Driver.done_of_append ht)
    rw [hh, List.flatMap_append, List.flatMap_singleton, hloads]
    exact ih.append hc.ids

end

/-- The load of the topic was started in a step, and superseded or followed by another since. -/
def Superseded (env : Env) (steps : List StepTaken) (t : Topic) (id : UInt64) : Prop :=
  ∃ before step after, steps = before ++ step :: after ∧ (t, id) ∈ step.loads ∧
    ∃ later ∈ after, Supersedes env t later ∨ ∃ id', (t, id') ∈ later.loads

section
variable {env : Env} {s : List StepTaken × Driver} {t : Topic} {id : UInt64}

/-- What happens in one step only happens in one place of the list. -/
theorem same_place {σ ε : Type} {f : σ → List ε} {e : ε} {before before' after after' : List σ} {a a' : σ}
    (hl : before ++ a :: after = before' ++ a' :: after')
    (hn : ((before ++ a :: after).flatMap f).Nodup) (ha : e ∈ f a) (ha' : e ∈ f a') : after = after' := by
  have hapart : ∀ {a : σ} {rest : List σ} {later : σ}, ((a :: rest).flatMap f).Nodup → e ∈ f a →
      later ∈ rest → e ∉ f later := by
    intro a rest later hn ha hm hl
    rw [List.flatMap_cons, List.nodup_append] at hn
    exact hn.2.2 e ha e (List.mem_flatMap.mpr ⟨later, hm, hl⟩) rfl
  induction before generalizing before' with
  | nil =>
    cases before' with
    | nil => exact (List.cons.inj hl).2
    | cons b rest =>
      obtain ⟨rfl, rfl⟩ := List.cons.inj hl
      exact absurd ha' (hapart hn ha (by simp))
  | cons b rest ih =>
    cases before' with
    | nil =>
      obtain ⟨rfl, hrest⟩ := List.cons.inj hl
      exact absurd ha (hapart hn ha' (by simp))
    | cons b' rest' =>
      obtain ⟨rfl, hrest⟩ := List.cons.inj hl
      refine ih hrest ?_
      rw [List.cons_append, List.flatMap_cons, List.nodup_append] at hn
      exact hn.2.1

/-- No two loads have one id. -/
theorem nodup_loads (hr : (history env).Reachable s)
    (hb : (s.1.flatMap StepTaken.loads).length < 2 ^ 64) : (s.1.flatMap StepTaken.loads).Nodup :=
  (reachable_successive hr).nodup (by simpa using hb)

theorem superseded_not_latest (hn : (s.1.flatMap StepTaken.loads).Nodup)
    (h : Superseded env s.1 t id) : ¬ Latest env s.1 t id := by
  rintro ⟨before', first, after', hs', hlast, hkept⟩
  obtain ⟨before, step, after, hs, hm, later, hlater, hsup⟩ := h
  have hfirst : (t, id) ∈ first.loads := by
    rcases lastLoad_cases t first.loads with hnone | ⟨id', hm', hsome⟩
    · rw [hnone] at hlast
      cases hlast
    · rw [hsome] at hlast
      cases hlast
      exact hm'
  have hafter : after = after' := same_place (hs.symm.trans hs') (hs ▸ hn) hm hfirst
  obtain ⟨hl, hns⟩ := hkept later (hafter ▸ hlater)
  rcases hsup with hsup | ⟨id', hm'⟩
  · exact hns hsup
  · exact lastLoad_ne_none hm' none hl

/-- **A superseded join payload never reaches the wire.** In a run with fewer than 2^64 loads
no two loads have one id. A join carries the result of its topic's last load, which nothing
superseded since; no other frame named so joins anything, for it goes out under the join
reference its channel has. The result of a superseded load is dropped when it comes. -/
theorem superseded_never_sent (env : Env) (s : List StepTaken × Driver) (hr : (history env).Reachable s)
    (hb : (s.1.flatMap StepTaken.loads).length < 2 ^ 64) (input : Input) (d' : Driver)
    (hs : s.2.step env input = some d') :
    (s.1.flatMap StepTaken.loads).Nodup ∧
      (∀ (served : List RequestId) (frame : Frame), .outgoing served frame ∈ s.2.done d' →
        frame.event = "phx_join" →
          (∃ id value, input = .payload frame.topic id (.ok value) ∧ frame.payload = .json value ∧
            Latest env s.1 frame.topic id) ∨
          (input.loaded = none ∧ ∃ j, frame.joinRef = some j ∧ s.2.Known frame.topic j)) ∧
      ∀ (t : Topic) (id : UInt64) (result : Except String Value), input = .payload t id result →
        Superseded env s.1 t id → d' = s.2.takePayload t id := by
  have hn := nodup_loads hr hb
  refine ⟨hn, fun served frame hm hj => ?_, fun t id result hi hsup => ?_⟩
  · cases hl : input.loaded with
    | none =>
      obtain ⟨effects, ht, hc⟩ := Driver.continues_step hs
      rw [Driver.done_of_append ht] at hm
      rcases hc.frames served frame hm (by rw [hl]; nofun) with ⟨-, he⟩ | hk
      · rw [he] at hj
        simp at hj
      · exact .inr ⟨rfl, hk⟩
    | some t =>
      obtain ⟨id, result, rfl⟩ : ∃ id result, input = .payload t id result := by
        cases input with
        | payload topic id result =>
          cases hl
          exact ⟨id, result, rfl⟩
        | _ => cases hl
      have ho : s.2.phase ≠ .closed := by
        rw [(Driver.payload_cases hs).1]
        nofun
      obtain ⟨value, rfl, ha, rfl, hp⟩ := Driver.payload_frames hs hm
      exact .inl ⟨id, value, rfl, hp, reachable_latest hr ho ha⟩
  · subst hi
    have ho : s.2.phase ≠ .closed := by
      rw [(Driver.payload_cases hs).1]
      nofun
    exact Driver.payload_dropped hs fun ha => superseded_not_latest hn hsup (reachable_latest hr ho ha)

end

/-- The room is left, and joined again, after the step that loads its payload. -/
def leftAfterLoad : List StepTaken → Bool
  | [_, _, joined, ⟨_, .command (.leave _ topic _), _⟩, _] => decide (topic = "room" ∧ ("room", 1) ∈ joined.loads)
  | _ => false

/-- The first load of a channel that was left and joined again. -/
theorem superseded_left : ∃ (s : List StepTaken × Driver) (d' : Driver),
    (history (smallEnv [])).Reachable s ∧
      s.2.step (smallEnv []) (.payload "room" 1 (.ok (.object []))) = some d' ∧
      d' = s.2.takePayload "room" 1 := by
  obtain ⟨s, hr, hd⟩ := Machine.reachable_of_run (history (smallEnv []))
    [.connectionMade [], .lifecycle (.register "room"), .command (.join 1 "room" 10),
      .command (.leave 2 "room" 10), .command (.join 3 "room" 10)]
    (fun s =>
      decide ((s.1.flatMap StepTaken.loads).length < 2 ^ 64) &&
        (s.2.step (smallEnv []) (.payload "room" 1 (.ok (.object [])))).isSome &&
        leftAfterLoad s.1)
    (by decide +kernel)
  simp only [Bool.and_eq_true, decide_eq_true_eq] at hd
  obtain ⟨⟨hb, hs⟩, hd⟩ := hd
  obtain ⟨d', hs⟩ := Option.isSome_iff_exists.mp hs
  unfold leftAfterLoad at hd
  split at hd
  · rename_i made registered joined d leave topic timeout d₁ rejoined hh
    obtain ⟨rfl, hm⟩ := of_decide_eq_true hd
    refine ⟨s, d', hr, hs, (superseded_never_sent _ s hr hb _ d' hs).2.2 _ _ _ rfl ?_⟩
    exact ⟨[made, registered], joined, _, hh, hm, _, List.mem_cons_self, .inl (.left ..)⟩
  · cases hd

/-- The last step cancels a waiter of the join whose payload the step before it loads. -/
def cancelledAfterLoad : List StepTaken → Bool
  | [_, _, _, _, _, _, joined, ⟨d, .lifecycle (.cancel waiter), _⟩] =>
    decide (("room", 2) ∈ joined.loads) &&
      (d.record "room").any fun channel => decide (waiter ∈ channel.joinWaiters)
  | _ => false

/-- A cancelled join of a channel that was joined before lets the load go on. -/
theorem cancelled_rejoin :
    ¬ ∀ (env : Env) (s : List StepTaken × Driver), (history env).Reachable s →
      (s.1.flatMap StepTaken.loads).length < 2 ^ 64 →
      ∀ (t : Topic) (id : UInt64) (before after : List StepTaken) (step : StepTaken),
        s.1 = before ++ step :: after → (t, id) ∈ step.loads →
        (∃ (d d' : Driver) (waiter : RequestId) (channel : ChannelRecord),
          ⟨d, .lifecycle (.cancel waiter), d'⟩ ∈ after ∧ d.record t = some channel ∧
            waiter ∈ channel.joinWaiters) →
        ∀ (result : Except String Value) (d' : Driver),
          s.2.step env (.payload t id result) = some d' → d' = s.2.takePayload t id := by
  intro hall
  obtain ⟨s, hr, hd⟩ := Machine.reachable_of_run
    (history (smallEnv [replyFrame "ok" "room" "1" "1", serverFrame "phx_error" "room" "1"]))
    (joining ++ [.frame (replyFrame "ok" "room" "1" "1"), .frame (serverFrame "phx_error" "room" "1"),
      .command (.join 2 "room" 10), .lifecycle (.cancel 2)])
    (fun s =>
      decide ((s.1.flatMap StepTaken.loads).length < 2 ^ 64) &&
        ((s.2.step (smallEnv [replyFrame "ok" "room" "1" "1", serverFrame "phx_error" "room" "1"])
            (.payload "room" 2 (.ok (.object [])))).any fun d' => decide (d'.trace.length ≠ s.2.trace.length)) &&
        cancelledAfterLoad s.1)
    (by decide +kernel)
  simp only [Bool.and_eq_true, decide_eq_true_eq] at hd
  obtain ⟨⟨hb, hs⟩, hd⟩ := hd
  obtain ⟨d', hs', hs⟩ := (Option.any_eq_true ..).mp hs
  unfold cancelledAfterLoad at hd
  split at hd
  · rename_i made registered joined₁ loaded accepted crashed joined d waiter d₁ hh
    rw [Bool.and_eq_true, Option.any_eq_true] at hd
    obtain ⟨hm, channel, hrec, hw⟩ := hd
    have hdrop := hall _ s hr hb "room" 2 [made, registered, joined₁, loaded, accepted, crashed] _ joined
      hh (of_decide_eq_true hm) ⟨d, d₁, waiter, channel, List.mem_singleton_self _, hrec, of_decide_eq_true hw⟩
      _ d' hs'
    rw [hdrop] at hs
    exact of_decide_eq_true hs rfl
  · cases hd

end PhoenixChannel.Client
