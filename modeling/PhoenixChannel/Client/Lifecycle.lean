import PhoenixChannel.Client.Turns
import PhoenixChannel.Library.Observation
import Mathlib.Data.List.Induction

/-! The life of the socket, as its events tell it.

`socketLife` is the connection as an application sees it: attempts that fail or succeed, a
connection that is lost or given up, a wait before the next attempt. It knows nothing of
channels, queues or timers. The events the driver reports are always a run of it, and where it is
then says what the loop waits for. -/
namespace PhoenixChannel.Client
open PhoenixChannel.Runtime Library

deriving instance DecidableEq for SocketEvent

/-- Where the socket is in its life. A connection or an attempt that failed is `lost` until it is
decided what follows. -/
inductive SocketLife where
  | idle
  | connecting (attempt : Nat)
  | connected
  | lost (attempt : Nat) (reason : DisconnectReason)
  | waiting (attempt : Nat)
  | closed
  deriving DecidableEq

namespace SocketLife

/-- What may be reported next, and where it leads. `action` decides what follows a failure. -/
def step (action : Nat → DisconnectReason → ReconnectAction) : SocketLife → SocketEvent → Option SocketLife
  | .idle, .connecting attempt => if attempt = 0 then some (.connecting 0) else none
  | .connecting _, .connected => some .connected
  | .connecting attempt, .disconnected (.connect error) => some (.lost attempt (.connect error))
  | .connected, .disconnected (.connect _) => none
  | .idle, .disconnected _ | .lost _ _, .disconnected _ | .closed, .disconnected _ => none
  | .connecting _, .disconnected .requested | .connected, .disconnected .requested
  | .waiting _, .disconnected .requested => some .idle
  | .connected, .disconnected reason => some (.lost 0 reason)
  | .lost attempt reason, .reconnectScheduled attempt' delay =>
    if attempt' = Driver.nextAttempt attempt ∧ action attempt' reason = .retryAfter delay then
      some (.waiting attempt')
    else none
  | .lost attempt reason, .reconnectStopped attempt' reason' =>
    if attempt' = Driver.nextAttempt attempt ∧ reason' = reason ∧ action attempt' reason = .stop then
      some .idle
    else none
  | .waiting attempt, .connecting attempt' => if attempt' = attempt then some (.connecting attempt) else none
  | .idle, .closed | .connecting _, .closed | .connected, .closed | .waiting _, .closed => some .closed
  | _, _ => none

/-- The status an application reads meanwhile. -/
def status : SocketLife → SocketStatus
  | .idle => .disconnected
  | .connecting _ => .connecting
  | .connected => .connected
  | .lost _ reason => if reason.shouldReconnect then .waitingToReconnect else .disconnected
  | .waiting _ => .waitingToReconnect
  | .closed => .closed

end SocketLife

/-- The life of a socket, from before it connects for the first time. -/
def socketLife (action : Nat → DisconnectReason → ReconnectAction) : Machine SocketLife SocketEvent :=
  ⟨.idle, SocketLife.step action⟩

namespace Driver

/-- Where the loop is in the life of its socket. -/
def life (d : Driver) : SocketLife :=
  match d.phase with
  | .idle => .idle
  | .connecting _ _ => .connecting d.attempt
  | .connected => .connected
  | .waiting _ => .waiting d.attempt
  | .closed => .closed

/-- The driver's fields agree on where it is. -/
structure Regular (d : Driver) : Prop where
  status : d.state.socketStatus = d.life.status
  attempt : d.phase = .connected → d.attempt = 0
  reports : d.socketReports = d.socketEvents

/-- From `d` to `d'` the socket lived through `events`. -/
structure Lives (env : Env) (d d' : Driver) (events : List SocketEvent) : Prop where
  told : d'.socketEvents = d.socketEvents ++ events
  run : (socketLife (reconnectAction env)).run d.life events = some d'.life
  regular : d.Regular → d'.Regular

section
variable {env : Env} {d d' d₁ : Driver} {input : Input}

theorem life_of_eq (hp : d'.phase = d.phase) (ha : d'.attempt = d.attempt) : d'.life = d.life := by
  unfold life
  rw [hp, ha]

/-- Nothing about the socket happened. -/
theorem Lives.of_emits (hp : d'.phase = d.phase) (ha : d'.attempt = d.attempt)
    (hs : d'.state.socketStatus = d.state.socketStatus) (he : d.Emits Effect.Routine d') :
    Lives env d d' [] where
  told := by rw [he.socketEvents, List.append_nil]
  run := by rw [life_of_eq hp ha, Machine.run_nil]
  regular h :=
    { status := by rw [hs, h.status, life_of_eq hp ha]
      attempt := fun hc => ha.trans (h.attempt (hp.symm.trans hc))
      reports := by rw [he.socketReports, he.socketEvents, h.reports] }

theorem Works.lives (h : d.Works d') : Lives env d d' [] :=
  .of_emits h.phase h.attempt h.status h.emits

theorem told_of_trace {event : SocketEvent} (h : d'.trace = (d₁.emitSocket event).trace) :
    d'.socketEvents = d₁.socketEvents ++ [event] ∧ d'.socketReports = d₁.socketReports ++ [event] := by
  have hevents := emitSocket_socketEvents d₁ event
  have hreports := emitSocket_socketReports d₁ event
  rw [socketEvents] at hevents ⊢
  rw [socketReports] at hreports ⊢
  rw [h]
  exact ⟨hevents, hreports⟩

/-- An event is reported and the loop goes where the event leads. -/
theorem Lives.of_event {event : SocketEvent} (hw : d.Emits Effect.Routine d₁)
    (ht : d'.trace = (d₁.emitSocket event).trace)
    (hr : SocketLife.step (reconnectAction env) d.life event = some d'.life)
    (hs : d'.state.socketStatus = d'.life.status) (ha : d'.phase = .connected → d'.attempt = 0) :
    Lives env d d' [event] := by
  obtain ⟨hevents, hreports⟩ := told_of_trace ht
  exact
    { told := by rw [hevents, hw.socketEvents]
      run := Machine.run_cons.mpr ⟨d'.life, hr, rfl⟩
      regular := fun h =>
        { status := hs
          attempt := ha
          reports := by rw [hreports, hevents, hw.socketReports, hw.socketEvents, h.reports] } }

/-- What changes neither the phase nor the attempt, and reports nothing of the socket, belongs to no life. -/
theorem Lives.works {events : List SocketEvent} (h : Lives env d d₁ events) (hw : d₁.Works d') :
    Lives env d d' events := by
  have hquiet : Lives env d₁ d' [] := hw.lives
  exact
    { told := by rw [hquiet.told, h.told, List.append_nil]
      run := by
        rw [life_of_eq hw.phase hw.attempt]
        exact h.run
      regular := fun hr => hquiet.regular (h.regular hr) }

/-- What follows a failure is decided at once, and reported. -/
theorem afterFailure_decides (env : Env) (d : Driver) (reason : DisconnectReason) :
    ∃ event,
      SocketLife.step (reconnectAction env) (.lost d.attempt reason) event =
          some (d.afterFailure env reason).life ∧
        (d.afterFailure env reason).trace = (d.emitSocket event).trace ∧
        (d.afterFailure env reason).state.socketStatus = (d.afterFailure env reason).life.status ∧
        (d.afterFailure env reason).phase ≠ .connected := by
  unfold afterFailure
  cases hr : reconnectAction env (nextAttempt d.attempt) reason with
  | retryAfter delay =>
    refine ⟨.reconnectScheduled (nextAttempt d.attempt) delay, ?_⟩
    simp only [hr]
    exact ⟨if_pos ⟨rfl, hr⟩, rfl, rfl, Phase.noConfusion⟩
  | stop =>
    refine ⟨.reconnectStopped (nextAttempt d.attempt) reason, ?_⟩
    simp only [hr]
    exact ⟨if_pos ⟨rfl, rfl, hr⟩, rfl, rfl, Phase.noConfusion⟩

/-- A connection or an attempt fails, and it is decided what follows. -/
theorem Lives.of_failure {reason : DisconnectReason} (ht : d.Towards d₁)
    (hl : SocketLife.step (reconnectAction env) d.life (.disconnected reason) = some (.lost d.attempt reason)) :
    ∃ event, Lives env d ((d₁.emitSocket (.disconnected reason)).afterFailure env reason)
      [.disconnected reason, event] := by
  obtain ⟨event, hstep, htrace, hstatus, hphase⟩ :=
    afterFailure_decides env (d₁.emitSocket (.disconnected reason)) reason
  have ha : (d₁.emitSocket (.disconnected reason)).attempt = d.attempt := ht.attempt
  rw [ha] at hstep
  obtain ⟨hevents, hreports⟩ := told_of_trace htrace
  refine ⟨event, ?_⟩
  exact
    { told := by
        rw [hevents, emitSocket_socketEvents, ht.emits.socketEvents, List.append_assoc]
        rfl
      run := Machine.run_cons.mpr ⟨_, hl, Machine.run_cons.mpr ⟨_, hstep, rfl⟩⟩
      regular := fun h =>
        { status := hstatus
          attempt := fun hc => absurd hc hphase
          reports := by
            rw [hreports, hevents, emitSocket_socketReports, emitSocket_socketEvents,
              ht.emits.socketReports, ht.emits.socketEvents, h.reports] } }

/-- An attempt succeeds. -/
theorem lives_connectionMade {started due : Duration} (hp : d.phase = .connecting started due)
    (transport : Transport) (order : List Topic) :
    Lives env d (d.connectionMade env started transport order) [.connected] := by
  have hmade : Lives env d (d.connected env started transport) [.connected] := by
    have hfinished : d.Emits Effect.Routine (d.attemptFinished started true) :=
      (Works.refl d).attemptFinished.emits
    refine .of_event hfinished ?_ ?_ rfl fun _ => rfl
    · rw [emitSocket_trace, attemptFinished, telemetry_eq, emitAll_trace, List.append_assoc]
      rfl
    · rw [life, hp]
      rfl
  exact hmade.works (connectionMade_works ..)

theorem life_lost {reason : DisconnectReason} (h : reason.Unasked) :
    SocketLife.step (reconnectAction env) .connected (.disconnected reason) = some (.lost 0 reason) := by
  cases reason with
  | transport error | closed close | heartbeatTimeout | protocol message | driverStopped => rfl
  | requested | connect error => exact h.elim

/-- **Every turn is lived through.** What is told first says that a heartbeat is given up only if one
was overdue. -/
theorem Course.lives (ht : Course env d input d') (hr : d.Regular) :
    ∃ events, Lives env d d' events ∧ ∀ rest, events = .disconnected .heartbeatTimeout :: rest →
      d.phase = .connected ∧ d.connection.heartbeatReference.isSome = true ∧
        d.connection.heartbeatDue ≤ d.clock := by
  cases ht with
  | tick elapsed => exact ⟨[], .of_emits rfl rfl rfl (.of_trace rfl), fun rest h => by cases h⟩
  | within input d' hw => exact ⟨[], hw.lives, fun rest h => by cases h⟩
  | beat d₁ hp hd hn hw =>
    have hsent : d.Emits Effect.Routine d₁ := (Emits.of_trace rfl).trans hw.emits
    exact ⟨[], .of_emits hw.phase hw.attempt hw.status (hsent.silent rfl), fun rest h => by cases h⟩
  | rested message d₁ hp ha hw =>
    exact ⟨[], .of_emits hw.phase hw.attempt hw.status (hw.emits.silent rfl), fun rest h => by cases h⟩
  | lost input d₁ reason hp ht hu hb =>
    obtain ⟨d₂, he, ht'⟩ := onDisconnect_last d₁ reason
    rw [he]
    have htowards : d.Towards d₂ :=
      ⟨ht'.attempt.trans ht.attempt, ht'.clock.trans ht.clock, ht.emits.trans ht'.emits⟩
    have hlost : SocketLife.step (reconnectAction env) d.life (.disconnected reason) =
        some (.lost d.attempt reason) := by
      rw [hr.attempt hp, life, hp]
      exact life_lost hu
    obtain ⟨event, hlives⟩ := Lives.of_failure htowards hlost
    refine ⟨_, hlives, fun rest h => ⟨hp, hb ?_⟩⟩
    cases h
    rfl
  | disconnect d₁ hi hc hw =>
    obtain ⟨d₂, he, ht'⟩ := onDisconnect_last d₁ .requested
    let down : Driver := { d₁.onDisconnect .requested with phase := .idle }
    have htrace : (d₁.onDisconnect .requested).trace = (d₂.emitSocket (.disconnected .requested)).trace :=
      congrArg trace he
    have hdown : Lives env d down [.disconnected .requested] := by
      refine .of_event (hw.emits.trans ht'.emits) htrace ?_ ?_ fun hc => by cases hc
      · have hlife : down.life = .idle := rfl
        rw [hlife]
        unfold life
        cases hp : d.phase with
        | idle => exact absurd hp hi
        | closed => exact absurd hp hc
        | connecting started due | connected | waiting due => rfl
      · show (d₁.onDisconnect .requested).state.socketStatus = .disconnected
        rw [he]
        rfl
    exact ⟨_, hdown.works (Works.refl down).acknowledge, fun rest h => by cases h⟩
  | begin input d₁ attempt hfrom hw =>
    refine ⟨[.connecting attempt], .of_event hw.emits rfl ?_ rfl (fun hc => by cases hc),
      fun rest h => by cases h⟩
    have hlife : ({ d₁ with attempt }.beginConnect env).life = .connecting attempt := rfl
    rw [hlife, life]
    rcases hfrom with ⟨hp, -, rfl⟩ | ⟨due, hp, -, -, rfl⟩
    · rw [hp]
      rfl
    · rw [hp]
      exact if_pos rfl
  | failed input started due error hp =>
    have htowards : d.Towards (d.attemptFinished started false) := (Works.refl d).attemptFinished.towards
    have hfailed : SocketLife.step (reconnectAction env) d.life (.disconnected (.connect error)) =
        some (.lost d.attempt (.connect error)) := by
      rw [life, hp]
      rfl
    obtain ⟨event, hlives⟩ := Lives.of_failure htowards hfailed
    exact ⟨_, hlives, fun rest h => by cases h⟩
  | made started due transport order hp =>
    exact ⟨_, lives_connectionMade hp transport order, fun rest h => by cases h⟩
  | closed input d₁ d' hc hw he =>
    have hstep : SocketLife.step (reconnectAction env) d.life .closed = some .closed := by
      unfold life
      cases hp : d.phase with
      | closed => exact absurd hp hc
      | idle | connecting started due | connected | waiting due => rfl
    refine ⟨[.closed], ?_, fun rest h => by cases h⟩
    rcases he with rfl | rfl
    · exact .of_event hw.emits rfl hstep rfl fun hc => by cases hc
    · exact .of_event hw.emits rfl hstep rfl fun hc => by cases hc

theorem regular_start (env : Env) : (start env).Regular := by
  unfold start
  dsimp only
  split
  · exact ⟨rfl, (fun hc => by cases hc), rfl⟩
  · exact ⟨rfl, (fun hc => by cases hc), rfl⟩

theorem reachable_regular (h : (driver env).Reachable d) : d.Regular := by
  refine h.invariant (P := Regular) (regular_start env) fun d input d' _ hr _ hs => ?_
  obtain ⟨events, hlives, -⟩ := (turned hs).lives hr
  exact hlives.regular hr

/-- What was reported leads to where the loop is. -/
theorem life_told (h : (driver env).Reachable d) :
    (socketLife (reconnectAction env)).run .idle d.socketEvents = some d.life := by
  refine Machine.follows socketEvents life ?_ (fun d input d' hd hs => ?_) h
  · show (socketLife (reconnectAction env)).run .idle (start env).socketEvents = some (start env).life
    unfold start
    dsimp only
    split
    · rfl
    · rfl
  · obtain ⟨events, hlives, -⟩ := (turned hs).lives (reachable_regular hd)
    exact ⟨events, hlives.told, hlives.run⟩

/-- **The socket's events tell its life.** In every run what the driver reported of its socket, to the
hook and to subscribers alike, is a run of `socketLife` under the reconnect policy, which ends where
the loop is; the status is the one of that moment. -/
theorem socket_lifecycle (h : (driver env).Reachable d) :
    (socketLife (reconnectAction env)).run .idle d.socketEvents = some d.life ∧
      d.socketReports = d.socketEvents ∧ d.state.socketStatus = d.life.status := by
  have hr := reachable_regular h
  exact ⟨life_told h, hr.reports, hr.status⟩

/-- A connection that fails once is tried again and made. -/
theorem socket_lifecycle_retried :
    ∃ d : Driver, d.socketEvents.length = 5 ∧
      (socketLife (reconnectAction (smallEnv []))).run .idle d.socketEvents = some .connected := by
  obtain ⟨d, hr, hd⟩ := (driver (smallEnv [])).reachable_of_run
    [.connection (.error ⟨.connect, "refused"⟩) [], .tick 1, .retry, .connectionMade []]
    (fun d => d.socketEvents.length = 5 ∧ d.life = .connected) (by decide +kernel)
  obtain ⟨hlength, hlife⟩ := of_decide_eq_true hd
  exact ⟨d, hlength, hlife ▸ (socket_lifecycle hr).1⟩

/-! ### Attempts

`failures` counts the connections and attempts that were lost since the last success. With it, the
last event tells what the policy was asked. -/

/-- How many connections and attempts failed in a row, one event later. A disconnect that was asked
for is no failure. -/
def failures (n : Nat) : SocketEvent → Nat
  | .connected | .reconnectStopped _ _ | .disconnected .requested | .closed => 0
  | .disconnected _ => n + 1
  | .connecting _ | .reconnectScheduled _ _ => n

/-- What is reported after a failure: a retry or the end of all retries, as the policy decides. -/
def decision (env : Env) (attempt : Nat) (reason : DisconnectReason) : SocketEvent :=
  match reconnectAction env attempt reason with
  | .retryAfter delay => .reconnectScheduled attempt delay
  | .stop => .reconnectStopped attempt reason

/-- The attempt that a life is at is the number of failures in a row, as far as a `u32` goes. A lost
connection is not counted in it yet, and the reason it was lost for was just reported. -/
def Counts (life : SocketLife) (n : Nat) (last : Option SocketEvent) : Prop :=
  match life with
  | .idle | .connected => n = 0
  | .connecting attempt | .waiting attempt => attempt = min n (2 ^ 32 - 1)
  | .lost attempt reason => nextAttempt attempt = min n (2 ^ 32 - 1) ∧ reason ≠ .requested ∧
    last = some (.disconnected reason)
  | .closed => True

theorem nextAttempt_min (n : Nat) : nextAttempt (min n (2 ^ 32 - 1)) = min (n + 1) (2 ^ 32 - 1) := by
  rw [nextAttempt]
  omega

/-- One case for each event in each place. Only a failure adds to the count, and only a connection or the
end of retries sets it back. -/
theorem counts_step {action : Nat → DisconnectReason → ReconnectAction} {life life' : SocketLife} {n : Nat}
    {last : Option SocketEvent} {event : SocketEvent} (h : Counts life n last)
    (hs : SocketLife.step action life event = some life') : Counts life' (failures n event) (some event) := by
  cases life with
  | idle =>
    have hzero : n = 0 := h
    cases event with
    | connecting attempt =>
      obtain ⟨-, hl⟩ := Option.ite_none_right_eq_some.mp hs
      cases hl
      show 0 = min n (2 ^ 32 - 1)
      rw [hzero, Nat.zero_min]
    | closed =>
      cases hs
      trivial
    | connected | disconnected reason | reconnectScheduled attempt delay
    | reconnectStopped attempt reason => cases hs
  | connecting attempt =>
    have hcount : attempt = min n (2 ^ 32 - 1) := h
    cases event with
    | connected =>
      cases hs
      rfl
    | disconnected reason =>
      cases reason with
      | connect error =>
        cases hs
        exact ⟨by rw [hcount, nextAttempt_min]; rfl, DisconnectReason.noConfusion, rfl⟩
      | requested =>
        cases hs
        rfl
      | transport error | closed close | heartbeatTimeout | protocol message | driverStopped => cases hs
    | closed =>
      cases hs
      trivial
    | connecting attempt | reconnectScheduled attempt delay | reconnectStopped attempt reason => cases hs
  | connected =>
    have hzero : n = 0 := h
    have hlost : nextAttempt 0 = min (n + 1) (2 ^ 32 - 1) := by
      rw [hzero]
      rfl
    cases event with
    | disconnected reason =>
      cases reason with
      | requested =>
        cases hs
        rfl
      | connect error => cases hs
      | transport error | closed close | heartbeatTimeout | protocol message | driverStopped =>
        cases hs
        exact ⟨hlost, DisconnectReason.noConfusion, rfl⟩
    | closed =>
      cases hs
      trivial
    | connecting attempt | connected | reconnectScheduled attempt delay
    | reconnectStopped attempt reason => cases hs
  | lost attempt reason =>
    cases event with
    | reconnectScheduled attempt' delay =>
      obtain ⟨⟨hnext, -⟩, hl⟩ := Option.ite_none_right_eq_some.mp hs
      cases hl
      exact hnext.trans h.1
    | reconnectStopped attempt' reason' =>
      obtain ⟨-, hl⟩ := Option.ite_none_right_eq_some.mp hs
      cases hl
      rfl
    | connecting attempt | connected | disconnected reason | closed => cases hs
  | waiting attempt =>
    have hcount : attempt = min n (2 ^ 32 - 1) := h
    cases event with
    | connecting attempt' =>
      obtain ⟨-, hl⟩ := Option.ite_none_right_eq_some.mp hs
      cases hl
      exact hcount
    | disconnected reason =>
      cases reason with
      | requested =>
        cases hs
        rfl
      | connect error | transport error | closed close | heartbeatTimeout | protocol message
      | driverStopped => cases hs
    | closed =>
      cases hs
      trivial
    | connected | reconnectScheduled attempt delay | reconnectStopped attempt reason => cases hs
  | closed => cases event <;> cases hs

/-- The failures in a row and the last event, counted together. -/
theorem foldl_counts (events : List SocketEvent) :
    events.foldl (fun counts event => (failures counts.1 event, some event)) (0, none) =
      (events.foldl failures 0, events.getLast?) := by
  induction events using List.reverseRecOn with
  | nil => rfl
  | append_singleton events event ih =>
    rw [List.foldl_append, ih, List.foldl_append, List.getLast?_concat]
    rfl

/-- Where the socket's life was when an event was reported, and how it went on. -/
theorem life_before (h : (driver env).Reachable d) {before after : List SocketEvent} {event : SocketEvent}
    (he : d.socketEvents = before ++ event :: after) :
    ∃ life life', Counts life (before.foldl failures 0) before.getLast? ∧
      SocketLife.step (reconnectAction env) life event = some life' ∧
      (socketLife (reconnectAction env)).run life' after = some d.life := by
  have hrun := life_told h
  rw [he] at hrun
  obtain ⟨life, hbefore, hafter⟩ := Machine.run_append.mp hrun
  obtain ⟨life', hstep, hrest⟩ := Machine.run_cons.mp hafter
  have hidle : Counts .idle 0 none := rfl
  have hcounts := Machine.run_counts (R := fun life (counts : Nat × Option SocketEvent) =>
      Counts life counts.1 counts.2) (fun counts event => (failures counts.1 event, some event))
    (fun _ _ _ _ hc hs => counts_step hc hs) (a := (0, none)) hidle hbefore
  rw [foldl_counts] at hcounts
  exact ⟨life, life', hcounts, hstep, hrest⟩

/-- Only a connection or an attempt that failed is lost. -/
theorem lost_of_disconnected {action : Nat → DisconnectReason → ReconnectAction} {life life' : SocketLife}
    {reason : DisconnectReason} (hs : SocketLife.step action life (.disconnected reason) = some life')
    (hu : reason ≠ .requested) : ∃ attempt, life' = .lost attempt reason := by
  cases life with
  | connecting attempt =>
    cases reason with
    | connect error => exact ⟨attempt, (Option.some.inj hs).symm⟩
    | requested => exact absurd rfl hu
    | transport error | closed close | heartbeatTimeout | protocol message | driverStopped => cases hs
  | connected =>
    cases reason with
    | connect error => cases hs
    | requested => exact absurd rfl hu
    | transport error | closed close | heartbeatTimeout | protocol message | driverStopped =>
      exact ⟨0, (Option.some.inj hs).symm⟩
  | waiting attempt =>
    cases reason with
    | requested => exact absurd rfl hu
    | connect error | transport error | closed close | heartbeatTimeout | protocol message
    | driverStopped => cases hs
  | idle | lost attempt reason' | closed => cases hs

/-- After a failure nothing is reported but what is decided about it. -/
theorem decision_of_lost {attempt : Nat} {reason : DisconnectReason} {event : SocketEvent} {life' : SocketLife}
    (hs : SocketLife.step (reconnectAction env) (.lost attempt reason) event = some life') :
    event = decision env (nextAttempt attempt) reason := by
  cases event with
  | reconnectScheduled attempt' delay =>
    obtain ⟨⟨rfl, haction⟩, -⟩ := Option.ite_none_right_eq_some.mp hs
    rw [decision, haction]
  | reconnectStopped attempt' reason' =>
    obtain ⟨⟨rfl, rfl, haction⟩, -⟩ := Option.ite_none_right_eq_some.mp hs
    rw [decision, haction]
  | connecting attempt' | connected | disconnected reason' | closed => cases hs

/-- The loop never waits between a failure and the decision about it. -/
theorem life_ne_lost (d : Driver) (attempt : Nat) (reason : DisconnectReason) : d.life ≠ .lost attempt reason := by
  unfold life
  cases d.phase <;> exact SocketLife.noConfusion

/-- **Attempts are counted and the policy is obeyed.** An attempt is numbered by the failures in a row
before it, as far as a `u32` goes. Every failure, of a connection or of an attempt, is followed at once
by a retry or by the end of all retries, as the policy says for its reason and the number of failures
with it; and neither is reported but right after a failure. -/
theorem attempts_counted (h : (driver env).Reachable d) :
    (∀ before attempt after, d.socketEvents = before ++ .connecting attempt :: after →
      attempt = min (before.foldl failures 0) (2 ^ 32 - 1)) ∧
    (∀ before reason after, d.socketEvents = before ++ .disconnected reason :: after → reason ≠ .requested →
      ∃ rest, after = decision env (min (before.foldl failures 0 + 1) (2 ^ 32 - 1)) reason :: rest) ∧
    ∀ before event after, d.socketEvents = before ++ event :: after →
      ((∃ attempt delay, event = .reconnectScheduled attempt delay) ∨
        ∃ attempt reason, event = .reconnectStopped attempt reason) →
      ∃ reason, reason ≠ .requested ∧ before.getLast? = some (.disconnected reason) := by
  refine ⟨fun before attempt after he => ?_, fun before reason after he hu => ?_,
    fun before event after he hevent => ?_⟩
  · obtain ⟨life, life', hc, hs, -⟩ := life_before h he
    cases life with
    | idle =>
      obtain ⟨hzero, -⟩ := Option.ite_none_right_eq_some.mp hs
      have hcount : before.foldl failures 0 = 0 := hc
      rw [hzero, hcount, Nat.zero_min]
    | waiting attempt' =>
      obtain ⟨hsame, -⟩ := Option.ite_none_right_eq_some.mp hs
      exact hsame.trans hc
    | connecting attempt' | connected | lost attempt' reason | closed => cases hs
  · obtain ⟨life, life', hc, hs, hrun⟩ := life_before h he
    have hcounted := counts_step hc hs
    obtain ⟨attempt, rfl⟩ := lost_of_disconnected hs hu
    have hnumber : nextAttempt attempt = min (before.foldl failures 0 + 1) (2 ^ 32 - 1) := by
      rw [hcounted.1]
      cases reason with
      | requested => exact absurd rfl hu
      | connect error | transport error | closed close | heartbeatTimeout | protocol message
      | driverStopped => rfl
    cases after with
    | nil => exact absurd (Option.some.inj hrun).symm (life_ne_lost d attempt reason)
    | cons event rest =>
      obtain ⟨next, hnext, -⟩ := Machine.run_cons.mp hrun
      exact ⟨rest, by rw [decision_of_lost hnext, hnumber]⟩
  · obtain ⟨life, life', hc, hs, -⟩ := life_before h he
    cases life with
    | lost attempt reason => exact ⟨reason, hc.2⟩
    | idle | connecting attempt' | connected | waiting attempt' | closed =>
      rcases hevent with ⟨attempt, delay, rfl⟩ | ⟨attempt, reason, rfl⟩ <;> cases hs

/-- Two attempts fail, each failure is followed by a retry, and the third attempt is numbered two. -/
theorem attempts_counted_twice :
    ∃ d : Driver, d.socketEvents.length = 7 ∧ d.life = .connecting 2 ∧
      (∀ before attempt after, d.socketEvents = before ++ .connecting attempt :: after →
        attempt = min (before.foldl failures 0) (2 ^ 32 - 1)) ∧
      ∀ before after, d.socketEvents = before ++ .disconnected (.connect ⟨.connect, "refused"⟩) :: after →
        ∃ rest, after = .reconnectScheduled (min (before.foldl failures 0 + 1) (2 ^ 32 - 1)) 1 :: rest := by
  obtain ⟨d, hr, hd⟩ := (driver (smallEnv [])).reachable_of_run
    [.connection (.error ⟨.connect, "refused"⟩) [], .tick 1, .retry,
      .connection (.error ⟨.connect, "refused"⟩) [], .tick 1, .retry]
    (fun d => d.socketEvents.length = 7 ∧ d.life = .connecting 2) (by decide +kernel)
  obtain ⟨hlength, hlife⟩ := of_decide_eq_true hd
  obtain ⟨hattempts, hfailures, -⟩ := attempts_counted hr
  exact ⟨d, hlength, hlife, hattempts, fun before after he => hfailures before _ after he DisconnectReason.noConfusion⟩

end

end Driver
end PhoenixChannel.Client
