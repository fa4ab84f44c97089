import PhoenixChannel.Client.Lifecycle

/-! How soon a dead connection is noticed, and that a live one is not given up.

A heartbeat goes out an interval after the connection was made or the last one came back, whatever
else is received meanwhile, and has a time of its own to come back. A timer may fire late; what is
said of the time a connection takes to be given up is about loops that are punctual. -/
namespace PhoenixChannel.Client
open PhoenixChannel.Runtime Library

namespace Driver

/-- The heartbeat's timer is served before time goes on. -/
def ServesHeartbeat (d : Driver) (input : Input) : Prop :=
  ∀ elapsed, input = .tick elapsed → d.clock + elapsed ≤ d.connection.heartbeatDue

/-- The connection is up and the server does not acknowledge the heartbeat. -/
def Unacknowledged (env : Env) (d : Driver) (input : Input) : Prop :=
  d.phase = .connected ∧ ∀ message, input = .message message → ¬ d.Acknowledges env message

section
variable {env : Env} {d d' d₀ d₁ : Driver} {input : Input}

theorem heartbeat_eq (h : d'.connection.heartbeat = d.connection.heartbeat) :
    d'.connection.heartbeatReference = d.connection.heartbeatReference ∧
      d'.connection.heartbeatDue = d.connection.heartbeatDue :=
  ⟨congrArg Prod.fst h, congrArg Prod.snd h⟩

/-! ### When the heartbeat is due

The due time is set from the clock of the turn that starts the connection or handles the
acknowledgement, so it is never more than an interval ahead. -/

theorem afterFailure_not_connected (env : Env) (d : Driver) (reason : DisconnectReason) :
    (d.afterFailure env reason).phase ≠ .connected := by
  obtain ⟨event, -, -, -, hp⟩ := afterFailure_decides env d reason
  exact hp

/-- A check that there is no message and the heartbeat's timer is served. -/
def quietly (d : Driver) : Input → Bool
  | .tick elapsed => d.phase = .connected ∧ d.clock + elapsed ≤ d.connection.heartbeatDue
  | .message _ => false
  | _ => d.phase = .connected

/-- What `quietly` computes suffices. -/
theorem quietly_sound (env : Env) (d : Driver) (input : Input) (h : d.quietly input = true) :
    d.ServesHeartbeat input ∧ d.Unacknowledged env input := by
  cases input with
  | tick elapsed =>
    obtain ⟨hp, htime⟩ := of_decide_eq_true h
    refine ⟨fun elapsed' he => ?_, hp, fun message he => by cases he⟩
    cases he
    exact htime
  | message message => cases h
  | lifecycle command | lifecycleClosed | command made | commandsClosed | connection result order
  | connectTimeout | transportClosed close | transportFailed error | heartbeat
  | payload topic payloadId result | rejoin timer | operationTimeout timer | retry | handleDropped topic =>
    exact ⟨(fun elapsed he => by cases he), of_decide_eq_true h, fun message he => by cases he⟩

/-- The heartbeat under way has been since `since`. -/
def AwaitsSince (env : Env) (since : Duration) (d : Driver) : Prop :=
  d.phase = .connected → d.connection.heartbeatReference.isSome = true ∧
    d.connection.heartbeatDue = since + env.options.heartbeatTimeout

/-- A heartbeat under way is not sent again, and its time is not extended. -/
theorem Course.awaitsSince {since : Duration} (ht : Course env d input d') (h : d.AwaitsSince env since)
    (hun : d.Unacknowledged env input) : d'.AwaitsSince env since := by
  obtain ⟨hup, hack⟩ := hun
  obtain ⟨hsome, hdue⟩ := h hup
  cases ht with
  | tick elapsed => exact fun _ => ⟨hsome, hdue⟩
  | within input d' hw =>
    intro _
    obtain ⟨href, hsame⟩ := heartbeat_eq hw.heartbeat
    rw [href, hsame]
    exact ⟨hsome, hdue⟩
  | beat d₁ hp hd hn hw =>
    rw [hn] at hsome
    cases hsome
  | rested message d₁ hp ha hw => exact absurd ha (hack message rfl)
  | lost input d₁ reason hp ht hu hb => exact fun hc => (afterFailure_not_connected _ _ _ hc).elim
  | disconnect d₁ hi hc hw => exact fun hc => by cases hc
  | begin input d₁ attempt hfrom hw => exact fun hc => by cases hc
  | failed input started due error hp => exact fun hc => (afterFailure_not_connected _ _ _ hc).elim
  | made started due transport order hp => cases hup.symm.trans hp
  | closed input d₁ d' hc hw he =>
    rcases he with rfl | rfl
    · exact fun hc => by cases hc
    · exact fun hc => by cases hc

/-- From `d` to `d'` the first that is told of the socket is that its heartbeat was given up. -/
def GivesUp (d d' : Driver) : Prop :=
  (d'.socketEvents.drop d.socketEvents.length).head? = some (.disconnected .heartbeatTimeout)

/-- Only a heartbeat that is overdue makes the driver give a connection up for it. -/
theorem GivesUp.overdue (hg : d.GivesUp d') (h : (driver env).Reachable d)
    (hs : d.step env input = some d') :
    d.phase = .connected ∧ d.connection.heartbeatReference.isSome = true ∧
      d.connection.heartbeatDue ≤ d.clock := by
  obtain ⟨events, hlives, hfirst⟩ := (turned hs).lives (reachable_regular h)
  rw [GivesUp, hlives.told, List.drop_left] at hg
  cases events with
  | nil => cases hg
  | cons event rest =>
    cases hg
    exact hfirst rest rfl

/-- A heartbeat that was sent is awaited from then on. -/
theorem awaitsSince_heartbeat (hs : d.step env .heartbeat = some d₁)
    (hn : d.connection.heartbeatReference = none) : d₁.AwaitsSince env d.clock := by
  have hnone : ¬ d.connection.heartbeatReference.isSome = true := by
    rw [hn]
    exact Bool.false_ne_true
  unfold step at hs
  dsimp only at hs
  split at hs
  · cases hs
  · cases hs
  · obtain ⟨-, hs⟩ := Option.ite_none_right_eq_some.mp hs
    cases hs
    rw [handleHeartbeat_of_none hnone]
    have hw : d.trackHeartbeat.Works (d.trackHeartbeat.sendFrame env []
        ⟨none, some d.state.protocol.nextText, "phoenix", "heartbeat", .emptyObject⟩).1 :=
      (Works.refl _).sendFrame
    rcases hsent : d.trackHeartbeat.sendFrame env []
        ⟨none, some d.state.protocol.nextText, "phoenix", "heartbeat", .emptyObject⟩ with ⟨d₁, _ | reason⟩
    · rw [hsent] at hw
      obtain ⟨href, -⟩ := heartbeat_eq hw.heartbeat
      have hclock : d₁.clock = d.clock := hw.clock
      refine fun _ => ⟨?_, congrArg (· + env.options.heartbeatTimeout) hclock⟩
      show d₁.connection.heartbeatReference.isSome = true
      rw [href]
      rfl
    · exact fun hc => (afterFailure_not_connected _ _ _ hc).elim
  · cases hs
  · cases hs

/-- **A connection is not given up before its time.** Once a heartbeat was sent, the driver gives the
connection up for it only when the timeout has passed without an acknowledgement. -/
theorem given_up_in_time (h : (driver env).Reachable d₀) (hn : d₀.connection.heartbeatReference = none)
    (hbeat : d₀.step env .heartbeat = some d₁) (hpath : (driver env).Path (Unacknowledged env) d₁ d)
    (hs : d.step env input = some d') (hg : d.GivesUp d') :
    d₀.clock + env.options.heartbeatTimeout ≤ d.clock := by
  have hbeaten : (driver env).Reachable d₁ := Machine.Reachable.step (i := .heartbeat) h hbeat
  have hreached := hbeaten.path hpath
  have hawaits : d.AwaitsSince env d₀.clock := by
    refine Machine.Path.invariant (P := AwaitsSince env d₀.clock) ?_ (awaitsSince_heartbeat hbeat hn) hpath
    exact fun d input d' ha hun hs => (turned hs).awaitsSince ha hun
  obtain ⟨hp, -, hdue⟩ := hg.overdue hreached hs
  rw [(hawaits hp).2] at hdue
  exact hdue

instance (d d' : Driver) : Decidable (d.GivesUp d') :=
  inferInstanceAs (Decidable (_ = some (SocketEvent.disconnected .heartbeatTimeout)))

/-- A heartbeat that is sent at 30 and never comes back ends the connection at 60. -/
theorem given_up_in_time_at_60 :
    ∃ d₀ d : Driver, d₀.clock = 30 ∧ d.clock = 60 ∧ d₀.clock + 30 ≤ d.clock := by
  let env := smallEnv []
  obtain ⟨d₀, hr, hc⟩ := (driver env).reachable_of_run [.connectionMade [], .tick 30]
    (fun d₀ => d₀.clock = 30 ∧ d₀.connection.heartbeatReference = none ∧
      (d₀.step env .heartbeat).any fun d₁ =>
        (((driver env).guarded quietly).run d₁ [.tick 30]).any fun d =>
          d.clock = 60 ∧ (d.step env .heartbeat).any fun d' => d.GivesUp d') (by decide +kernel)
  obtain ⟨hclock₀, hn, hc⟩ := of_decide_eq_true hc
  cases hbeat : d₀.step env .heartbeat with
  | none =>
    rw [hbeat] at hc
    cases hc
  | some d₁ =>
    rw [hbeat, Option.any_some] at hc
    cases hrun : ((driver env).guarded quietly).run d₁ [.tick 30] with
    | none =>
      rw [hrun] at hc
      cases hc
    | some d =>
      rw [hrun, Option.any_some] at hc
      obtain ⟨hclock, hc⟩ := of_decide_eq_true hc
      cases hs : d.step env .heartbeat with
      | none =>
        rw [hs] at hc
        cases hc
      | some d' =>
        rw [hs, Option.any_some] at hc
        have hpath := Machine.path_of_guarded
          (fun d input h => (quietly_sound env d input h).2) hrun
        exact ⟨d₀, d, hclock₀, hclock, given_up_in_time hr hn hbeat hpath hs (of_decide_eq_true hc)⟩

end

end Driver
end PhoenixChannel.Client
