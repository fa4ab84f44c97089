import PhoenixChannel.Client.Heartbeats
import PhoenixChannel.Client.Invariant

/-! How long an attempt, a join or a leave may take.

Each of them has a deadline of its own. A loop that serves its timers on time passes none of them
over, so what waits for an answer waits no longer than its timeout, whatever the server sends or
leaves out. -/
namespace PhoenixChannel.Client
open PhoenixChannel.Runtime Library

namespace Driver

/-- When the things the loop waits for are due. -/
def dues (d : Driver) : List Duration :=
  match d.phase with
  | .idle | .closed => []
  | .connecting _ due | .waiting due => [due]
  | .connected =>
    d.connection.heartbeatDue ::
      (d.connection.rejoins.map Timer.due ++ d.connection.operationTimeouts.map Timer.due)

/-- Time goes on only as far as the next thing that is due. -/
def Punctual (d : Driver) (input : Input) : Prop :=
  ∀ elapsed, input = .tick elapsed → ∀ due ∈ d.dues, d.clock + elapsed ≤ due

/-- Nothing that is due was passed over, and nothing is due later than it may be. -/
structure OnTime (env : Env) (d : Driver) : Prop where
  ahead : ∀ due ∈ d.dues, d.clock ≤ due
  attempt : ∀ started due, d.phase = .connecting started due →
    due = started + env.options.connectTimeout
  deadlines : ∀ timer ∈ d.connection.operationTimeouts, timer.due ≤ d.clock + timer.value.duration

/-- A join or a leave of the topic that was sent under the reference waits for its reply. -/
def Underway (d : Driver) (t : Topic) (r : Reference) : Prop :=
  d.phase = .connected ∧
    ((∃ c : Channel, d.state.protocol.channels[t]? = some c ∧ c.state = .joining ∧ c.joinRef = r) ∨
      d.state.protocol.channelState t = some .leaving ∧ d.state.protocol.pending[r]? = some (.leave t))

section
variable {env : Env} {d d' d₀ d₁ : Driver} {input : Input} {t : Topic} {r : Reference}

/-- After a failure the loop waits for a retry, if for anything. -/
theorem afterFailure_waits (env : Env) (d : Driver) (reason : DisconnectReason) :
    (d.afterFailure env reason).connection = d.connection ∧
      (d.afterFailure env reason).clock = d.clock ∧
      (∀ due ∈ (d.afterFailure env reason).dues, (d.afterFailure env reason).clock ≤ due) ∧
      ∀ started due, (d.afterFailure env reason).phase ≠ .connecting started due := by
  unfold afterFailure
  cases hr : reconnectAction env (nextAttempt d.attempt) reason with
  | retryAfter delay =>
    simp only [hr]
    refine ⟨rfl, rfl, fun due hm => ?_, fun _ _ => Phase.noConfusion⟩
    cases List.mem_singleton.mp hm
    exact Nat.le_add_right ..
  | stop =>
    simp only [hr]
    exact ⟨rfl, rfl, (fun due hm => by cases hm), fun _ _ => Phase.noConfusion⟩

/-! ### Deadlines are for new references

A deadline is started with the request it is for, so none waits for a reference that is still to
come. -/

theorem Unused.before (hm : d.Moved d₁) (h : d₁.Unused d' r) (hm' : d₁.Moved d') : d.Unused d' r := by
  intro hn hb hi
  exact h (hn.moves hm (Nat.lt_of_le_of_lt hm'.grows hb)) hb (hi.mono hm.grows)

/-- A step sets deadlines for requests that it makes, and for their timeout. -/
theorem Course.deadlines (ht : Course env d input d') : ∀ timer ∈ d'.connection.operationTimeouts,
    timer ∈ d.connection.operationTimeouts ∨
      timer.due = d.clock + timer.value.duration ∧ d.Unused d' timer.value.reference := by
  intro timer hm
  cases ht with
  | tick elapsed => exact .inl hm
  | within input d' hw => exact hw.deadlines timer hm
  | beat d₁ hp hd hn hw =>
    rcases hw.deadlines timer hm with hm | ⟨hdue, hu⟩
    · exact .inl hm
    · exact .inr ⟨hdue, hu.before (.single .heartbeat) hw.moved⟩
  | rested message d₁ hp ha hw => exact hw.deadlines timer hm
  | lost input d₁ reason hp ht hu hb =>
    obtain ⟨reports, -, he⟩ := onDisconnect_eq d₁ reason
    have hnone : ((d₁.onDisconnect reason).afterFailure env reason).connection = .none := by
      rw [(afterFailure_waits ..).1, he]
      rfl
    rw [hnone] at hm
    cases hm
  | disconnect d₁ hi hc hw =>
    obtain ⟨reports, -, he⟩ := onDisconnect_eq d₁ .requested
    have hnone : d₁.disconnect.connection = .none := by
      show (d₁.onDisconnect .requested).connection = .none
      rw [he]
      rfl
    rw [hnone] at hm
    cases hm
  | begin input d₁ attempt hfrom hw => exact hw.deadlines timer hm
  | failed input started due error hp =>
    have hsame : (d.connectFailed env started error).connection = d.connection := by
      rw [connectFailed, (afterFailure_waits ..).1]
      rfl
    rw [hsame] at hm
    exact .inl hm
  | made started due transport order hp =>
    rcases (connectionMade_works env d started transport order).deadlines timer hm with hm | hd
    · cases hm
    · exact .inr hd
  | closed input d₁ d' hc hw he =>
    rcases he with rfl | rfl
    · exact hw.deadlines timer hm
    · cases hm

/-! ### Nothing is passed over

Every timer of an iteration lies ahead of its clock: a handler starts none in the past, and a
punctual tick stops at the next one that is due. -/

theorem mem_dues (hp : d.phase = .connected) {due : Duration} :
    due ∈ d.dues ↔ due = d.connection.heartbeatDue ∨ (∃ timer ∈ d.connection.rejoins, timer.due = due) ∨
      ∃ timer ∈ d.connection.operationTimeouts, timer.due = due := by
  simp only [dues, hp, List.mem_cons, List.mem_append, List.mem_map]

/-- The timers that work starts are not due yet. -/
theorem Works.ahead (hw : d.Works d') (h : ∀ due ∈ d.dues, d.clock ≤ due) :
    ∀ due ∈ d'.dues, d'.clock ≤ due := by
  obtain ⟨-, hheartbeat⟩ := heartbeat_eq hw.heartbeat
  intro due hm
  rw [hw.clock]
  cases hp : d.phase with
  | connected =>
    rcases (mem_dues (hw.phase.trans hp)).mp hm with rfl | ⟨timer, ht, rfl⟩ | ⟨timer, ht, rfl⟩
    · exact h _ ((mem_dues hp).mpr (.inl hheartbeat))
    · rcases hw.rejoins timer ht with ht | hdue
      · exact h _ ((mem_dues hp).mpr (.inr (.inl ⟨timer, ht, rfl⟩)))
      · exact hdue
    · rcases hw.deadlines timer ht with ht | ⟨hdue, -⟩
      · exact h _ ((mem_dues hp).mpr (.inr (.inr ⟨timer, ht, rfl⟩)))
      · rw [hdue]
        exact Nat.le_add_right ..
  | idle | closed | connecting started due' | waiting due' =>
    refine h due ?_
    have hp' := hw.phase.trans hp
    simp only [dues, hp', hp] at hm ⊢
    exact hm

/-- The heartbeat is put off, if that. -/
theorem ahead_beat (h : ∀ due ∈ d.dues, d.clock ≤ due) (reference : Option Reference) {due : Duration}
    (hdue : d.clock ≤ due) :
    ∀ due' ∈ Driver.dues { d with
        connection := { d.connection with heartbeatReference := reference, heartbeatDue := due } },
      d.clock ≤ due' := by
  intro due' hm
  let put : Driver := { d with
    connection := { d.connection with heartbeatReference := reference, heartbeatDue := due } }
  cases hp : d.phase with
  | connected =>
    rcases (mem_dues (d := put) hp).mp hm with rfl | hm
    · exact hdue
    · exact h _ ((mem_dues hp).mpr (.inr hm))
  | idle | closed | connecting started due'' | waiting due'' =>
    refine h due' ?_
    simp only [dues, hp] at hm ⊢
    exact hm

/-- What is due after a turn is not due before. -/
theorem Course.ahead (ht : Course env d input d') (h : ∀ due ∈ d.dues, d.clock ≤ due)
    (hok : d.Punctual input) : ∀ due ∈ d'.dues, d'.clock ≤ due := by
  cases ht with
  | tick elapsed => exact fun due hm => hok elapsed rfl due hm
  | within input d' hw => exact hw.ahead h
  | beat d₁ hp hd hn hw => exact ahead_beat (hw.ahead h) _ (Nat.le_add_right ..)
  | rested message d₁ hp ha hw => exact ahead_beat (hw.ahead h) _ (Nat.le_add_right ..)
  | lost input d₁ reason hp ht hu hb => exact (afterFailure_waits ..).2.2.1
  | disconnect d₁ hi hc hw => exact fun due hm => by cases hm
  | begin input d₁ attempt hfrom hw =>
    intro due hm
    cases List.mem_singleton.mp hm
    exact Nat.le_add_right ..
  | failed input started due error hp => exact (afterFailure_waits ..).2.2.1
  | made started due transport order hp =>
    refine (connectionMade_works env d started transport order).ahead fun due hm => ?_
    cases List.mem_singleton.mp hm
    exact Nat.le_add_right ..
  | closed input d₁ d' hc hw he =>
    rcases he with rfl | rfl
    · exact fun due hm => by cases hm
    · exact fun due hm => by cases hm

/-- An attempt is due when its timeout has passed since it started. -/
theorem Course.attempt (ht : Course env d input d')
    (h : ∀ started due, d.phase = .connecting started due → due = started + env.options.connectTimeout) :
    ∀ started due, d'.phase = .connecting started due → due = started + env.options.connectTimeout := by
  intro started due hp'
  cases ht with
  | tick elapsed => exact h started due hp'
  | within input d' hw => exact h started due (hw.phase.symm.trans hp')
  | beat d₁ hp hd hn hw => exact h started due (hw.phase.symm.trans hp')
  | rested message d₁ hp ha hw => exact h started due (hw.phase.symm.trans hp')
  | lost input d₁ reason hp ht hu hb => exact absurd hp' ((afterFailure_waits ..).2.2.2 started due)
  | disconnect d₁ hi hc hw => cases hp'
  | begin input d₁ attempt hfrom hw =>
    cases hp'
    rfl
  | failed input started' due' error hp => exact absurd hp' ((afterFailure_waits ..).2.2.2 started due)
  | made started' due' transport order hp =>
    have hmade := (connectionMade_works env d started' transport order).phase
    cases hp'.symm.trans hmade
  | closed input d₁ d' hc hw he =>
    rcases he with rfl | rfl
    · cases hp'
    · cases hp'

/-- Only the passing of time moves the clock. -/
theorem Course.clock_le (ht : Course env d input d') : d.clock ≤ d'.clock := by
  cases ht with
  | tick elapsed => exact Nat.le_add_right ..
  | within input d' hw => exact Nat.le_of_eq hw.clock.symm
  | beat d₁ hp hd hn hw => exact Nat.le_of_eq hw.clock.symm
  | rested message d₁ hp ha hw => exact Nat.le_of_eq hw.clock.symm
  | lost input d₁ reason hp ht hu hb =>
    obtain ⟨d₂, he, ht'⟩ := onDisconnect_last d₁ reason
    rw [(afterFailure_waits ..).2.1, he]
    exact Nat.le_of_eq (ht'.clock.trans ht.clock).symm
  | disconnect d₁ hi hc hw =>
    obtain ⟨d₂, he, ht'⟩ := onDisconnect_last d₁ .requested
    show d.clock ≤ (d₁.onDisconnect .requested).clock
    rw [he]
    exact Nat.le_of_eq (ht'.clock.trans hw.clock).symm
  | begin input d₁ attempt hfrom hw => exact Nat.le_of_eq hw.clock.symm
  | failed input started due error hp =>
    rw [connectFailed, (afterFailure_waits ..).2.1]
    exact Nat.le_refl _
  | made started due transport order hp =>
    exact Nat.le_of_eq (connectionMade_works env d started transport order).clock.symm
  | closed input d₁ d' hc hw he =>
    rcases he with rfl | rfl
    · exact Nat.le_of_eq hw.clock.symm
    · exact Nat.le_of_eq hw.clock.symm

/-- A deadline that the step sets is its own duration ahead, and the others do not move. -/
theorem Course.onTime (ht : Course env d input d') (h : d.OnTime env) (hok : d.Punctual input) :
    d'.OnTime env where
  ahead := ht.ahead h.ahead hok
  attempt := ht.attempt h.attempt
  deadlines timer hm := by
    rcases ht.deadlines timer hm with hm | ⟨hdue, -⟩
    · exact Nat.le_trans (h.deadlines timer hm) (Nat.add_le_add_right ht.clock_le _)
    · rw [hdue]
      exact Nat.add_le_add_right ht.clock_le _

/-- A check that the loop is punctual. -/
def punctual (d : Driver) : Input → Bool
  | .tick elapsed => d.dues.all fun due => d.clock + elapsed ≤ due
  | _ => true

theorem punctual_sound (d : Driver) (input : Input) (h : d.punctual input = true) : d.Punctual input := by
  intro elapsed he due hm
  cases he
  exact of_decide_eq_true (List.all_eq_true.mp h due hm)

/-- At first nothing is due but a first attempt, if there is one. -/
theorem onTime_start (env : Env) : (start env).OnTime env := by
  unfold start
  dsimp only
  split
  · refine ⟨fun due hm => ?_, fun started due hp => ?_, fun timer hm => by cases hm⟩
    · cases List.mem_singleton.mp hm
      exact Nat.le_add_right ..
    · cases hp
      rfl
  · exact ⟨(fun due hm => by cases hm), (fun started due hp => by cases hp), fun timer hm => by cases hm⟩

theorem onTime_of_reach (h : (driver env).Reach Punctual d) : d.OnTime env :=
  h.invariant (P := OnTime env) (onTime_start env) fun _ _ _ _ ho hok hs => (turned hs).onTime ho hok

/-- What is under way has a deadline of its own. -/
theorem Underway.timer (hu : d.Underway t r) (h : (driver env).Reachable d)
    (hb : d.state.protocol.allocated < 2 ^ 64) :
    d.state.protocol.Issued r ∧
      ∃ timer ∈ d.connection.operationTimeouts, timer.value.topic = t ∧ timer.value.reference = r := by
  obtain ⟨hp, hu⟩ := hu
  have hbetween : Between False False d :=
    between_reach (h.mono fun _ _ _ => ⟨False.elim, False.elim⟩) hb
  rw [Between, hp] at hbetween
  have hn := reachable_numbered h hb
  rcases hu with ⟨c, hc, hj, rfl⟩ | ⟨hl, hr⟩
  · obtain ⟨hpending, -, timer, hm, duration, hv⟩ := (hbetween.tracked t).joining c hc hj
    exact ⟨hn.pending _ (Table.mem_of_lookup hpending), timer, hm, by rw [hv]; rfl, by rw [hv]; rfl⟩
  · obtain ⟨c, hc, hs⟩ := Option.map_eq_some_iff.mp hl
    obtain ⟨r', hr', -, timer, hm, duration, hv⟩ := (hbetween.tracked t).leaving c hc hs
    have hsame := (reachable_coherent h).single r r' t hr hr'
    exact ⟨hn.pending _ (Table.mem_of_lookup hr), timer, hm, by rw [hv]; rfl, by rw [hv, hsame]; rfl⟩

/-- Of a reference that is in use, a path keeps deadlines or drops them. -/
theorem deadlines_kept (h : (driver env).Reachable d₀) (hi : d₀.state.protocol.Issued r)
    {Ok : Driver → Input → Prop} (hpath : (driver env).Path Ok d₀ d)
    (hb : d.state.protocol.allocated < 2 ^ 64) :
    ∀ timer ∈ d.connection.operationTimeouts, timer.value.reference = r →
      timer ∈ d₀.connection.operationTimeouts := by
  induction hpath with
  | refl => exact fun timer hm _ => hm
  | @step d d' input hpath _ hs ih =>
    intro timer hm hr
    have hb' := Nat.lt_of_le_of_lt (step_moved hs).grows hb
    rcases (turned hs).deadlines timer hm with hm | ⟨-, hu⟩
    · exact ih hb' timer hm hr
    · have hissued : d.state.protocol.Issued r := Machine.Path.invariant
        (P := fun d => d.state.protocol.Issued r) (fun _ _ _ hi _ hs => hi.mono (step_moved hs).grows) hi hpath
      rw [hr] at hu
      exact absurd hissued (hu (reachable_numbered (h.path hpath) hb') hb)

/-- **A join or a leave is under way no longer than its timeout.** If it is sent at `d₀` and still waits
for its reply at `d`, the clock has not passed the deadline that was set for it. -/
theorem ends_in_time (h : (driver env).Reach Punctual d₀) (hpath : (driver env).Path Punctual d₀ d)
    (hb : d.state.protocol.allocated < 2 ^ 64) (hu₀ : d₀.Underway t r) (hu : d.Underway t r) :
    ∃ timer ∈ d₀.connection.operationTimeouts, timer.value.topic = t ∧ timer.value.reference = r ∧
      d.clock ≤ timer.due ∧ timer.due ≤ d₀.clock + timer.value.duration := by
  have hgrows : d₀.state.protocol.allocated ≤ d.state.protocol.allocated := Machine.Path.invariant
    (P := fun d => d₀.state.protocol.allocated ≤ d.state.protocol.allocated)
    (fun _ _ _ ha _ hs => Nat.le_trans ha (step_moved hs).grows) (Nat.le_refl _) hpath
  obtain ⟨hi, -⟩ := hu₀.timer h.reachable (Nat.lt_of_le_of_lt hgrows hb)
  have hreach := h.path hpath
  obtain ⟨-, timer, hm, ht, hr⟩ := hu.timer hreach.reachable hb
  have hm₀ := deadlines_kept h.reachable hi hpath hb timer hm hr
  refine ⟨timer, hm₀, ht, hr, ?_, (onTime_of_reach h).deadlines timer hm₀⟩
  exact (onTime_of_reach hreach).ahead _ ((mem_dues hu.1).mpr (.inr (.inr ⟨timer, hm, rfl⟩)))

/-- A join that is under way for the ten seconds it is given. -/
theorem ends_in_time_join :
    ∃ d₀ d : Driver, d₀.Underway "room" "1" ∧ d.Underway "room" "1" ∧ d.clock = d₀.clock + 10 ∧
      ∃ timer ∈ d₀.connection.operationTimeouts, timer.value.topic = "room" ∧ d.clock ≤ timer.due := by
  obtain ⟨d₀, d, hr, hpath, hc⟩ := (driver (smallEnv [])).path_of_run punctual punctual punctual_sound punctual_sound
    joining [.tick 4, .tick 6]
    (fun d₀ d => d₀.phase = .connected ∧
      (d₀.state.protocol.channels["room"]?.any fun c => c.state = .joining ∧ c.joinRef = "1") ∧
      d.phase = .connected ∧
      (d.state.protocol.channels["room"]?.any fun c => c.state = .joining ∧ c.joinRef = "1") ∧
      d.state.protocol.allocated < 2 ^ 64 ∧ d.clock = d₀.clock + 10) (by decide +kernel)
  obtain ⟨hp₀, hc₀, hp, hc, hb, hclock⟩ := of_decide_eq_true hc
  have hjoining : ∀ d : Driver, d.phase = .connected →
      (d.state.protocol.channels["room"]?.any fun c => c.state = .joining ∧ c.joinRef = "1") = true →
      d.Underway "room" "1" := by
    intro d hp hc
    obtain ⟨c, hc, hj⟩ := (Option.any_eq_true _ _).mp hc
    exact ⟨hp, .inl ⟨c, hc, of_decide_eq_true hj⟩⟩
  obtain ⟨timer, hm, ht, -, hle, -⟩ := ends_in_time hr hpath hb (hjoining d₀ hp₀ hc₀) (hjoining d hp hc)
  exact ⟨d₀, d, hjoining d₀ hp₀ hc₀, hjoining d hp hc, hclock, timer, hm, ht, hle⟩

end

end Driver
end PhoenixChannel.Client
