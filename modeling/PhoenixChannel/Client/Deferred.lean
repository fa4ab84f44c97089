import PhoenixChannel.Client.Invariant
import PhoenixChannel.Client.Generations

/-! A deferred leave belongs to the join it was requested during.

Most ways a join can end take the deferred leave with them. The others are an error of the
channel, the cancellation of the join's last waiter and the deadline of an earlier leave;
a run without these on a deferring topic sends the leave for the join it waited for. -/
namespace PhoenixChannel.Client
open PhoenixChannel.Runtime Library

namespace Driver

/-- A leave of the topic is deferred. -/
def Deferring (d : Driver) (t : Topic) : Prop :=
  ∃ channel : ChannelRecord, d.record t = some channel ∧ channel.deferredLeave.isSome = true

/-- The topic's channel is joining under the reference, and the driver waits for the reply. -/
def JoiningUnder (d : Driver) (t : Topic) (r : Reference) : Prop :=
  ∃ c : Channel, d.state.protocol.channels[t]? = some c ∧ c.state = .joining ∧ c.joinRef = r ∧
    d.state.pendingJoins[r]? = some t

section
variable {env : Env} {d d' : Driver} {t : Topic} {r : Reference}

/-- The steps of a run that keeps deferred leaves with their joins. -/
abbrev KeepsDeferred (env : Env) (d : Driver) (input : Input) : Prop :=
  d.phase = .connected → d.Faithful env input

theorem between_keepsDeferred (h : (driver env).Reach (KeepsDeferred env) d)
    (hb : d.state.protocol.allocated < 2 ^ 64) : Between False True d :=
  between_reach (h.mono fun _ _ hok => ⟨False.elim, fun _ => hok⟩) hb

/-- A deferred leave waits for the reply to a join in flight. -/
theorem Online.joiningUnder {W : Prop} (h : Online W True d) (hd : d.Deferring t) :
    ∃ r, d.JoiningUnder t r := by
  obtain ⟨channel, hr, hl⟩ := hd
  obtain ⟨c, hc, hs⟩ := channelState_eq_some (h.deferred trivial t channel hr hl)
  obtain ⟨-, hj, -⟩ := (h.tracked t).joining c hc hs
  exact ⟨c.joinRef, c, hc, hs, rfl, hj⟩

/-- A leave is put off behind a join under way, which takes a connection. -/
theorem deferring_phase (h : Between False True d) (hd : d.Deferring t) :
    d.phase = .connected ∨ d.phase = .closed := by
  by_cases hp : d.phase = .connected
  · exact .inl hp
  by_cases hc : d.phase = .closed
  · exact .inr hc
  · obtain ⟨channel, hr, hl⟩ := hd
    have hrest := (Offline.of_phase h hp hc).records t channel hr
    rw [hrest.2] at hl
    cases hl

/-- A step from a state with a deferred leave keeps the generation it is deferred in. -/
theorem sameGeneration_step {input : Input} (h : Between False True d) (hd : d.Deferring t)
    (hc : ∀ c : Channel, d.state.protocol.channels[t]? = some c → c.joinRef = r)
    (hs : d.step env input = some d') : SameGeneration t r d d' := by
  have haged : ∀ {d' : Driver}, d.Aged d' → SameGeneration t r d d' := fun h => h.sameGeneration hc
  cases stepped hs with
  | tick elapsed hi hd =>
    subst hd
    exact haged (aged_of_eq rfl (.of_trace rfl))
  | dropped topic hi hd =>
    subst hd
    exact haged (aged_of_eq (by simp) (Emits.refl _ d).setStatus)
  | offline hp ho hs => exact absurd (deferring_phase h hd) (not_or.mpr ⟨hp, ho⟩)
  | connected hp hs =>
    rw [Between, hp] at h
    obtain ⟨channel, hr, hl⟩ := hd
    have hactive : d.Active t := by
      rw [Active, h.deferred trivial t channel hr hl]
      rfl
    exact sameGeneration_connectedStep hactive hc hs

/-- As long as the leave stays deferred, the topic has the generation it was deferred in. -/
theorem sameGeneration_path (h : (driver env).Reach (KeepsDeferred env) d)
    (hj : d.JoiningUnder t r)
    (hpath : (driver env).Path (fun d input => KeepsDeferred env d input ∧ d.Deferring t) d d')
    (hb : d'.state.protocol.allocated < 2 ^ 64) :
    (driver env).Reach (KeepsDeferred env) d' ∧
      ∀ c : Channel, d'.state.protocol.channels[t]? = some c → c.joinRef = r := by
  induction hpath with
  | refl =>
    obtain ⟨c, hc, -, hr, -⟩ := hj
    refine ⟨h, fun c' hc' => ?_⟩
    cases hc.symm.trans hc'
    exact hr
  | step _ hok hs ih =>
    have hb' := Nat.lt_of_le_of_lt (Protocol.Moves.grows (step_moved hs)) hb
    obtain ⟨hr, hc⟩ := ih hb'
    exact ⟨.step hr hok.1 hs,
      (sameGeneration_step (between_keepsDeferred hr hb') hok.2 hc hs).channel⟩

end

/-- **A deferred leave belongs to the join it was requested during**, in a run that keeps
deferred leaves with their joins: the join is in flight, it stays the topic's generation for as
long as the leave is deferred, and a leave of the topic is sent under its reference only. -/
theorem deferred_leave_belongs (env : Env) (d : Driver) (t : Topic)
    (h : (driver env).Reach (KeepsDeferred env) d) (hb : d.state.protocol.allocated < 2 ^ 64)
    (hp : d.phase = .connected) (hd : d.Deferring t) :
    ∃ r, d.JoiningUnder t r ∧
      ∀ d' : Driver,
        (driver env).Path (fun d input => KeepsDeferred env d input ∧ d.Deferring t) d d' →
        d'.Deferring t → d'.state.protocol.allocated < 2 ^ 64 →
        (d'.phase = .connected → d'.JoiningUnder t r) ∧
        ∀ input d'', d'.step env input = some d'' →
          ∀ served frame, .outgoing served frame ∈ d'.done d'' → frame.topic = t →
            frame.event = "phx_leave" → frame.joinRef = some r := by
  have hbetween := between_keepsDeferred h hb
  rw [Between, hp] at hbetween
  obtain ⟨r, hj⟩ := hbetween.joiningUnder hd
  refine ⟨r, hj, fun d' hpath hd' hb' => ?_⟩
  obtain ⟨hreach, hc⟩ := sameGeneration_path h hj hpath hb'
  have hbetween' := between_keepsDeferred hreach hb'
  refine ⟨fun hp' => ?_, fun input d'' hs served frame hm ht hv => ?_⟩
  · rw [Between, hp'] at hbetween'
    obtain ⟨r', c, hchannel, hstate, hr, hpending⟩ := hbetween'.joiningUnder hd'
    have hrr : r' = r := hr.symm.trans (hc c hchannel)
    rw [hrr] at hr hpending
    exact ⟨c, hchannel, hstate, hr, hpending⟩
  · exact (sameGeneration_step hbetween' hd' hc hs).leaves.done hm served frame rfl ht hv

/-- A leave during a join. -/
theorem deferred_leave_belongs_joining :
    ∃ d : Driver, d.phase = .connected ∧ d.Deferring "room" ∧ ∃ r, d.JoiningUnder "room" r := by
  obtain ⟨d, hr, hd⟩ := Machine.reach_of_run (driver (smallEnv [])) (KeepsDeferred (smallEnv []))
    (joining ++ [.command (.leave 2 "room" 10)])
    (fun d => d.phase = .connected ∧ d.state.protocol.allocated < 2 ^ 64 ∧
      (d.record "room").any (fun channel => channel.deferredLeave.isSome) = true)
    (by
      intro input hm d _
      refine ⟨fun message frame he => ?_, fun id topic he => ?_, fun timer topic reference duration he => ?_⟩
      all_goals
        subst he
        simp [joining, Input.connectionMade] at hm)
    (by decide +kernel)
  obtain ⟨hphase, hb, hany⟩ := of_decide_eq_true hd
  have hdef : d.Deferring "room" := (Option.any_eq_true _ _).mp hany
  obtain ⟨r, hj, -⟩ := deferred_leave_belongs _ d "room" hr hb hphase hdef
  exact ⟨d, hphase, hdef, r, hj⟩

/-- The error of a channel that is being joined. -/
def joinCrash : Frame := serverFrame "phx_error" "room" "1"

/-- The channel fails while a leave is deferred: the leave stays deferred, with no join. -/
theorem deferred_without_join :
    ¬ ∀ (env : Env) (d : Driver), (driver env).Reachable d → d.phase = .connected →
      ∀ t : Topic, d.Deferring t → ∃ r, d.JoiningUnder t r := by
  intro hall
  obtain ⟨d, hr, hd⟩ := Machine.reachable_of_run (driver (smallEnv [joinCrash]))
    (joining ++ [.command (.leave 2 "room" 10), .frame joinCrash])
    (fun d => d.phase = .connected ∧
      (d.record "room").any (fun channel => channel.deferredLeave.isSome) = true ∧
      d.state.protocol.channelState "room" = some .errored)
    (by decide +kernel)
  obtain ⟨hphase, hany, hstate⟩ := of_decide_eq_true hd
  obtain ⟨r, c, hc, hs, -⟩ := hall _ d hr hphase "room" ((Option.any_eq_true _ _).mp hany)
  rw [Protocol.channelState, hc, Option.map_some, hs] at hstate
  cases hstate

end Driver
end PhoenixChannel.Client
