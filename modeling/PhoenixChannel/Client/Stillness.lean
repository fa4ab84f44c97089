import PhoenixChannel.Client.Lifecycle
import PhoenixChannel.Client.Requests

/-! Once disconnected, the driver rests.

The loop without a connection still takes commands and cancellations. It answers them and sends
nothing, and only a connect command makes it try again. -/
namespace PhoenixChannel.Client
open PhoenixChannel.Runtime Library

/-- The effect puts nothing on the wire, starts no load and tells nothing of the socket. -/
def Effect.Mute (effect : Effect) : Prop := ¬ effect.Sends ∧ effect.Routine

namespace Driver

section
variable {d d' : Driver} {topic : Topic} {env : Env}

theorem mute_stopEffects (topic : Topic) (clock : Duration) (channel : ChannelRecord) :
    ∀ effect ∈ stopEffects topic clock channel, effect.Mute := by
  intro effect hm
  refine ⟨?_, routine_stopEffects topic clock channel effect hm⟩
  rcases mem_stopEffects hm with ⟨operation, id, rfl⟩ | ⟨event, rfl⟩
  · exact fun h => h
  · exact fun h => h

theorem Emits.mute_stopChannel (h : d.Emits Effect.Mute d') :
    d.Emits Effect.Mute (d'.stopChannel topic) := by
  cases hr : d'.record topic with
  | none =>
    rw [stopChannel_of_none hr]
    exact h
  | some channel =>
    rw [stopChannel_of_some hr]
    exact h.setRecord.emitAll (mute_stopEffects topic d'.clock channel)

theorem Emits.mute_answer (h : d.Emits Effect.Mute d') {operation : ClientOperation} {id : RequestId}
    {result : Except ClientError Success} : d.Emits Effect.Mute (d'.answer operation id result) :=
  h.emitAll (List.forall_mem_singleton.mpr ⟨fun h => h, rfl, rfl⟩)

theorem Emits.mute_queue (h : d.Emits Effect.Mute d') {push : QueuedPush} :
    d.Emits Effect.Mute (d'.queue env topic push) := by
  rcases queue_cases env d' topic push with ⟨error, -, he⟩ | ⟨channel, -, -, -, he⟩
  · rw [he]
    exact h.mute_answer
  · rw [he]
    exact h.setRecord

theorem Emits.mute_cancel (h : d.Emits Effect.Mute d') (id : RequestId) :
    d.Emits Effect.Mute (d'.cancel id) := by
  have hdropped : ∀ operation, ∀ effect ∈ [Effect.cancelled operation id], effect.Mute :=
    fun operation => List.forall_mem_singleton.mpr ⟨fun h => h, rfl, rfl⟩
  have hif : ∀ response : Bool, ∀ effect ∈ (if response then [Effect.cancelled .leave id] else []),
      effect.Mute := by
    intro response effect hm
    split at hm
    · exact hdropped .leave effect hm
    · cases hm
  cases d'.cancel_found id with
  | join topic channel hr hm he =>
    rw [he]
    by_cases hw : channel.joinWaiters.erase id = [] ∧ channel.everJoined = false
    · rw [cancelJoin_of_last hw.1 hw.2]
      exact (h.setRecord.emitAll (hdropped .join)).silent rfl
    · rw [cancelJoin_of_others hw]
      exact h.setRecord.emitAll (hdropped .join)
  | unsent topic channel hr hm he =>
    rw [he]
    cases d'.cancelUnsent_cases topic channel id with
    | leave pending hd hid he =>
      rw [he]
      exact h.setRecord.emitAll (hif pending.response)
    | push push hf he =>
      rw [he]
      exact h.setRecord.emitAll
        (push.forall_cancellation ⟨fun h => h, rfl, rfl⟩ fun _ _ => ⟨fun h => h, rfl, rfl⟩)
    | nothing hd hq he =>
      rw [he]
      exact h
  | pending hj hq he =>
    rw [he]
    have hcall : d.Emits Effect.Mute (d'.cancelCall id) := by
      rcases cancelCall_cases d' id with he | ⟨reference, call, -, -, he⟩
      · rw [he]
        exact h
      · rw [he]
        refine ((h.silent (by rfl)).emitAll fun effect hm => ?_).silent rfl
        rcases List.mem_pair.mp hm with rfl | rfl
        · exact ⟨fun h => h, rfl, rfl⟩
        · exact ⟨fun h => h, rfl, rfl⟩
    have hping : d.Emits Effect.Mute ((d'.cancelCall id).cancelPing id) := by
      rcases cancelPing_cases (d'.cancelCall id) id with he | ⟨reference, ping, -, -, he⟩
      · rw [he]
        exact hcall
      · rw [he]
        exact ((hcall.silent (by rfl)).emitAll (hdropped .ping)).silent rfl
    rcases cancelLeave_cases ((d'.cancelCall id).cancelPing id) id with he | ⟨reference, leave, -, -, he⟩
    · rw [cancelPending, he]
      exact hping
    · rw [cancelPending, he]
      exact (hping.silent (by rfl)).emitAll (hif leave.response)

theorem mute_handleOfflineLifecycle (env : Env) (d : Driver) (command : LifecycleCommand) :
    d.Emits Effect.Mute (d.handleOfflineLifecycle env command) := by
  cases command with
  | register topic =>
    refine .of_trace ?_
    simp only [handleOfflineLifecycle, register]
    split
    · rfl
    · rfl
  | unregister topic =>
    have hstop : d.Emits Effect.Mute (d.stopChannel topic) := (Emits.refl _ d).mute_stopChannel
    exact hstop.silent rfl
  | cancel id => exact (Emits.refl _ d).mute_cancel id

theorem mute_offlineCommand (env : Env) (d : Driver) (command : Command) :
    d.Emits Effect.Mute ((d.accept command).handleOfflineCommand env command) := by
  have haccept : d.Emits Effect.Mute (d.accept command) := by
    unfold accept
    split
    · exact (Emits.refl _ d).emitAll (List.forall_mem_singleton.mpr ⟨fun h => h, rfl, rfl⟩)
    · exact .refl _ d
  cases command with
  | connect | disconnect | subscribe | subscribeChannel _ | shutdown => exact haccept
  | ping id => exact haccept.mute_answer
  | join id topic timeout =>
    simp only [handleOfflineCommand]
    split
    · exact haccept.setRecord
    · exact haccept.mute_answer
  | call id topic event payload started => exact haccept.mute_queue
  | cast id topic event payload => exact haccept.mute_queue
  | leave id topic timeout => exact haccept.setStatus.mute_stopChannel.mute_answer

/-- From `d` to `d'` nothing was sent and nothing told of the socket, but perhaps, at the very end,
that it is closed. -/
inductive Rests (d d' : Driver) : Prop where
  | idle (hp : d'.phase = .idle) (he : d.Emits Effect.Mute d')
  | closed (hp : d'.phase = .closed) (d₁ : Driver) (he : d.Emits Effect.Mute d₁)
      (ht : d'.trace = d₁.trace ++ [.telemetry (.socket .closed), .deliveredSocket .closed])

variable {d₀ : Driver} {input : Input}

theorem Rests.of_close {d₁ : Driver} (h : d₀.Emits Effect.Mute d₁) : d₀.Rests d₁.close :=
  .closed rfl d₁ h (emitSocket_trace d₁ .closed)

theorem Rests.of_idle (h : d₀.Emits Effect.Mute d) (hs : d.stepIdle env input = some d')
    (hp : d.phase = .idle) (hi : input ≠ .command .connect) : d₀.Rests d' := by
  have hacknowledged : d₀.Emits Effect.Mute d.acknowledge :=
    h.emitAll (List.forall_mem_singleton.mpr ⟨fun h => h, rfl, rfl⟩)
  unfold stepIdle at hs
  split at hs <;> cases hs
  · rename_i command
    have hw : d.Works (d.handleOfflineLifecycle env command) := (Works.refl d).handleOfflineLifecycle command
    exact .idle (hw.phase.trans hp) (h.trans (mute_handleOfflineLifecycle env d command))
  · exact .of_close h
  · exact .of_close h
  · exact absurd rfl hi
  · exact .idle hp hacknowledged
  · exact .of_close hacknowledged
  · rename_i command _ _ _
    have hw : d.Works ((d.accept command).handleOfflineCommand env command) :=
      (Works.refl d).accept.handleOfflineCommand command
    exact .idle (hw.phase.trans hp) (h.trans (mute_offlineCommand env d command))

/-- **A step without a connect command lets the driver rest.** -/
theorem Rests.step (h : d₀.Rests d) (hs : d.step env input = some d') (hi : input ≠ .command .connect) :
    d₀.Rests d' := by
  have hstatus : ∀ topic : Topic, (d.setStatus topic .closed).trace = d.trace := by
    intro topic
    unfold setStatus
    cases d.record topic <;> rfl
  have hphase : ∀ topic : Topic, (d.setStatus topic .closed).phase = d.phase :=
    fun topic => (Works.refl d).setStatus.phase
  cases h with
  | idle hp he =>
    unfold Driver.step at hs
    split at hs
    · cases hs
      exact .idle hp (he.silent rfl)
    · cases hs
      exact .idle ((hphase _).trans hp) (he.silent (hstatus _))
    · rw [hp] at hs
      exact .of_idle he hs hp hi
  | closed hp d₁ he ht =>
    unfold Driver.step at hs
    split at hs
    · cases hs
      exact .closed hp d₁ he ht
    · cases hs
      exact .closed ((hphase _).trans hp) d₁ he ((hstatus _).trans ht)
    · rw [hp] at hs
      cases hs

/-- **A disconnect is final until the next connect.** Whatever the loop waits for, a disconnect
command is taken at once and acknowledged, and leaves the driver idle. Whatever happens then, short of
a connect command, nothing is sent, no load starts and no connection is tried, and the socket says
nothing more, except that it is closed. -/
theorem disconnect_final (env : Env) (d : Driver) (hc : d.phase ≠ .closed) :
    ∃ d₁, d.step env (.command .disconnect) = some d₁ ∧ d₁.phase = .idle ∧
      .acknowledged ∈ d.done d₁ ∧
      ∀ d₂, (driver env).Path (fun _ input => input ≠ .command .connect) d₁ d₂ → d₁.Rests d₂ := by
  have hrests : ∀ d₁ d₂ : Driver, d₁.phase = .idle →
      (driver env).Path (fun _ input => input ≠ .command .connect) d₁ d₂ → d₁.Rests d₂ := by
    intro d₁ d₂ hp hpath
    refine Machine.Path.invariant (P := d₁.Rests) ?_ (.idle hp (.refl ..)) hpath
    intro d input d' h hi hs
    exact h.step hs hi
  have hdown : ∀ d₀ : Driver, d.Emits Effect.Routine d₀ → .acknowledged ∈ d.done d₀.disconnect := by
    intro d₀ he
    obtain ⟨effects, ht, -⟩ := he
    obtain ⟨reports, -, hdisconnect⟩ := onDisconnect_eq d₀ .requested
    have htrace : d₀.disconnect.trace = d.trace ++
        (effects ++ (interruptions d₀.state d₀.clock ++ reports) ++ [.acknowledged]) := by
      show (d₀.onDisconnect .requested).trace ++ [.acknowledged] = _
      rw [hdisconnect, emitAll_trace]
      show d₀.trace ++ (interruptions d₀.state d₀.clock ++ reports) ++ [.acknowledged] = _
      rw [ht]
      simp only [List.append_assoc]
    rw [done_of_append htrace]
    exact List.mem_append_right _ List.mem_cons_self
  cases hp : d.phase with
  | closed => exact absurd hp hc
  | idle =>
    refine ⟨d.acknowledge, ?_, hp, ?_, fun d₂ => hrests _ d₂ hp⟩
    · simp only [Driver.step, hp, stepIdle]
    · have htrace : d.acknowledge.trace = d.trace ++ [.acknowledged] := rfl
      rw [done_of_append htrace]
      exact List.mem_cons_self
  | connecting started due =>
    refine ⟨(d.attemptFinished started false).disconnect, ?_, rfl, ?_, fun d₂ => hrests _ d₂ rfl⟩
    · simp only [Driver.step, hp, stepConnecting]
    · exact hdown _ (Works.refl d).attemptFinished.emits
  | connected =>
    refine ⟨d.disconnect, ?_, rfl, hdown d (.refl ..), fun d₂ => hrests _ d₂ rfl⟩
    simp only [Driver.step, hp, stepConnected]
  | waiting due =>
    refine ⟨d.disconnect, ?_, rfl, hdown d (.refl ..), fun d₂ => hrests _ d₂ rfl⟩
    simp only [Driver.step, hp, stepWaiting]

/-- A check that the input is no connect command. -/
def unconnected (_ : Driver) : Input → Bool
  | .command .connect => false
  | _ => true

theorem unconnected_sound (d : Driver) (input : Input) (h : unconnected d input = true) :
    input ≠ .command .connect := by
  rintro rfl
  cases h

/-- While an attempt is under way, and after it a join and a ping. -/
theorem disconnect_final_connecting :
    ∃ d₁ d₂, (start (smallEnv [])).step (smallEnv []) (.command .disconnect) = some d₁ ∧ d₁.phase = .idle ∧
      .acknowledged ∈ (start (smallEnv [])).done d₁ ∧ d₂.clock = 5 ∧ (d₂.record "room").isSome ∧ d₁.Rests d₂ := by
  obtain ⟨d₁, hs, hp, hdone, hrests⟩ := disconnect_final (smallEnv []) (start (smallEnv [])) (by decide)
  have hrun : ((start (smallEnv [])).step (smallEnv []) (.command .disconnect)).any (fun d₁ =>
      (((driver (smallEnv [])).guarded unconnected).run d₁ [.lifecycle (.register "room"),
        .command (.join 1 "room" 10), .tick 5, .command (.ping 2)]).any fun d₂ =>
          d₂.clock = 5 ∧ (d₂.record "room").isSome) = true := by
    decide +kernel
  rw [hs, Option.any_some] at hrun
  obtain ⟨d₂, hpath, hd₂⟩ := (Option.any_eq_true _ _).mp hrun
  obtain ⟨hclock, hrecord⟩ := of_decide_eq_true hd₂
  exact ⟨d₁, d₂, hs, hp, hdone, hclock, hrecord, hrests d₂ (Machine.path_of_guarded unconnected_sound hpath)⟩

end

end Driver
end PhoenixChannel.Client
