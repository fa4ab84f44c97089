import PhoenixChannel.Client.Types
import PhoenixChannel.Library.Machine

/-! Bounded event streams.

A subscriber reads events from a bounded channel. An event that does not fit is dropped and
counted, and the count is sent as a marker before the next event that fits. `Tells stream
emitted` says that a stream tells of all that was emitted: an event stands for itself, and a
marker for as many events as it counts, at least one. -/
namespace PhoenixChannel.Client
open PhoenixChannel.Library

/-- Events with a marker for those that were dropped. -/
class LaggedEvent (T : Type) where
  lagged (dropped : Nat) : T

instance : LaggedEvent ChannelEvent := ⟨.lagged⟩

/-- What a `try_send` reports. -/
inductive SendOutcome where
  | sent
  | full
  | disconnected
  deriving DecidableEq, Repr

/-- A subscriber: what its channel buffers, and how many events were dropped since the last that
fit. -/
structure EventSubscriber (T : Type) where
  buffer : List T
  dropped : Nat

namespace EventSubscriber
variable {T : Type}

/-- A send that succeeds appends at the tail. -/
def push (subscriber : EventSubscriber T) (item : T) : EventSubscriber T :=
  { subscriber with buffer := subscriber.buffer ++ [item] }

/-- Sends the event itself. -/
def sendEvent (subscriber : EventSubscriber T) (event : T) : SendOutcome → Bool × EventSubscriber T
  | .sent => (true, subscriber.push event)
  | .full => (true, { subscriber with dropped := 1 })
  | .disconnected => (false, subscriber)

variable [LaggedEvent T]

/-- Sends an event, and before it a marker if events were dropped; `marker` and `own` are what the
two sends report. Returns whether the subscriber is kept. -/
def sendBounded (subscriber : EventSubscriber T) (event : T) (marker own : SendOutcome) :
    Bool × EventSubscriber T :=
  if subscriber.dropped > 0 then
    match marker with
    | .sent =>
      ({ subscriber.push (LaggedEvent.lagged subscriber.dropped) with dropped := 0 }).sendEvent event own
    | .full => (true, { subscriber with dropped := min (subscriber.dropped + 1) (2 ^ 64 - 1) })
    | .disconnected => (false, subscriber)
  else subscriber.sendEvent event own

/-- A stream and what it tells of. -/
inductive Tells : List T → List T → Prop where
  | nil : Tells [] []
  | event {stream emitted : List T} (h : Tells stream emitted) (event : T) :
    Tells (stream ++ [event]) (emitted ++ [event])
  | marker {stream emitted : List T} (h : Tells stream emitted) (missing : List T) (hm : missing ≠ []) :
    Tells (stream ++ [LaggedEvent.lagged missing.length]) (emitted ++ missing)

/-- The stream tells of all that was emitted but the last `dropped` events. -/
def Accounts (stream : List T) (dropped : Nat) (emitted : List T) : Prop :=
  ∃ told missing, Tells stream told ∧ missing.length = dropped ∧ emitted = told ++ missing

variable {subscriber : EventSubscriber T} {read emitted : List T}

theorem tells_nil (h : Tells ([] : List T) emitted) : emitted = [] := by
  generalize hs : ([] : List T) = stream at h
  cases h with
  | nil => rfl
  | event h event => exact absurd hs.symm (by simp)
  | marker h missing hm => exact absurd hs.symm (by simp)

/-- A marker is one item for at least one event. -/
theorem Tells.length_le (h : Tells read emitted) : read.length ≤ emitted.length := by
  induction h with
  | nil => exact Nat.le_refl _
  | event h event ih =>
    rw [List.length_append, List.length_append]
    exact Nat.add_le_add_right ih 1
  | marker h missing hm ih =>
    rw [List.length_append, List.length_append]
    exact Nat.add_le_add ih (List.length_pos_iff.mpr hm)

/-- With nothing dropped, the event itself is told of, or it is the one that is missing. -/
theorem accounts_sendEvent (h : Tells (read ++ subscriber.buffer) emitted) (hd : subscriber.dropped = 0)
    (event : T) (own : SendOutcome) :
    Accounts (read ++ (subscriber.sendEvent event own).2.buffer) (subscriber.sendEvent event own).2.dropped
      (if (subscriber.sendEvent event own).1 then emitted ++ [event] else emitted) := by
  cases own with
  | sent =>
    refine ⟨emitted ++ [event], [], ?_, hd.symm, (List.append_nil _).symm⟩
    have ht := h.event event
    rwa [List.append_assoc] at ht
  | full => exact ⟨emitted, [event], h, rfl, rfl⟩
  | disconnected => exact ⟨emitted, [], h, hd.symm, (List.append_nil _).symm⟩

/-- **A send keeps the account.** The event of a send that finds the subscriber gone is not in it. -/
theorem accounts_sendBounded (h : Accounts (read ++ subscriber.buffer) subscriber.dropped emitted)
    (hb : subscriber.dropped + 1 ≤ 2 ^ 64 - 1) (event : T) (marker own : SendOutcome) :
    Accounts (read ++ (subscriber.sendBounded event marker own).2.buffer)
      (subscriber.sendBounded event marker own).2.dropped
      (if (subscriber.sendBounded event marker own).1 then emitted ++ [event] else emitted) := by
  obtain ⟨told, missing, htells, hmissing, rfl⟩ := h
  unfold sendBounded
  by_cases hd : subscriber.dropped > 0
  · rw [if_pos hd]
    cases marker with
    | sent =>
      have ht := htells.marker missing (List.length_pos_iff.mp (hmissing ▸ hd))
      rw [hmissing, List.append_assoc] at ht
      exact @accounts_sendEvent _ _ { subscriber.push (LaggedEvent.lagged subscriber.dropped) with dropped := 0 }
        read _ ht rfl event own
    | full =>
      refine ⟨told, missing ++ [event], htells, ?_, List.append_assoc ..⟩
      rw [List.length_append, hmissing]
      exact (Nat.min_eq_left hb).symm
    | disconnected => exact ⟨told, missing, htells, hmissing, rfl⟩
  · rw [if_neg hd]
    have hzero : subscriber.dropped = 0 := by omega
    rw [List.length_eq_zero_iff.mp (hmissing.trans hzero), List.append_nil]
    exact accounts_sendEvent htells hzero event own

/-- The count grows by one at most, and then the event of a kept subscriber was dropped. -/
theorem dropped_sendBounded (subscriber : EventSubscriber T) (event : T) (marker own : SendOutcome) :
    (subscriber.sendBounded event marker own).2.dropped ≤ subscriber.dropped +
      if (subscriber.sendBounded event marker own).1 &&
        (subscriber.sendBounded event marker own).2.dropped > 0 then 1 else 0 := by
  unfold sendBounded
  by_cases hd : subscriber.dropped > 0
  · cases marker with
    | sent => cases own <;> simp [hd, sendEvent, push]
    | full =>
      have hpos : 0 < min (subscriber.dropped + 1) (2 ^ 64 - 1) := by omega
      simp only [if_pos hd, Bool.true_and, decide_eq_true hpos, if_true]
      exact Nat.min_le_left ..
    | disconnected => simp [hd]
  · cases own <;> simp [hd, sendEvent, push]

end EventSubscriber

/-- A subscriber with its reader: what was read, what was emitted, and how many events were
dropped. A subscriber that is gone is sent nothing more. -/
structure EventStream (T : Type) where
  subscriber : EventSubscriber T
  connected : Bool
  read : List T
  emitted : List T
  drops : Nat

namespace EventStream
open EventSubscriber

inductive Input (T : Type) where
  | emit (event : T) (marker own : SendOutcome)
  | read

variable {T : Type} [LaggedEvent T]

/-- The event of a send that keeps the subscriber was dropped if the count is not zero after it. -/
def emit (s : EventStream T) (event : T) (marker own : SendOutcome) : EventStream T :=
  let (kept, subscriber) := s.subscriber.sendBounded event marker own
  ⟨subscriber, kept, s.read, s.emitted ++ [event], s.drops + if kept && subscriber.dropped > 0 then 1 else 0⟩

def step (s : EventStream T) : Input T → Option (EventStream T)
  | .emit event marker own => if s.connected then some (s.emit event marker own) else none
  | .read =>
    match s.subscriber.buffer with
    | [] => none
    | item :: rest => some { s with subscriber := { s.subscriber with buffer := rest }, read := s.read ++ [item] }

def machine (T : Type) [LaggedEvent T] : Machine (EventStream T) (Input T) where
  start := ⟨⟨[], 0⟩, true, [], [], 0⟩
  step := step

/-- What is read and buffered tells of what was emitted, up to the event that found the subscriber
gone. -/
def Told (s : EventStream T) : Prop :=
  if s.connected then Accounts (s.read ++ s.subscriber.buffer) s.subscriber.dropped s.emitted
  else ∃ told event, s.emitted = told ++ [event] ∧
    Accounts (s.read ++ s.subscriber.buffer) s.subscriber.dropped told

/-- An event is buffered behind a marker of those missing, or is missing itself; a subscriber that is gone
misses this one event. -/
theorem told_emit {s : EventStream T} (h : s.Told) (hc : s.connected = true)
    (hb : s.subscriber.dropped + 1 ≤ 2 ^ 64 - 1) (event : T) (marker own : SendOutcome) :
    (s.emit event marker own).Told := by
  rw [Told, if_pos hc] at h
  have hsent := accounts_sendBounded h hb event marker own
  unfold Told emit
  rcases hs : s.subscriber.sendBounded event marker own with ⟨_ | _, subscriber⟩
  · rw [hs] at hsent
    exact ⟨s.emitted, event, rfl, hsent⟩
  · rw [hs] at hsent
    exact hsent

theorem told_read {s : EventStream T} (h : s.Told) {item : T} {rest : List T}
    (hr : s.subscriber.buffer = item :: rest) :
    Told { s with subscriber := { s.subscriber with buffer := rest }, read := s.read ++ [item] } := by
  have he : s.read ++ [item] ++ rest = s.read ++ s.subscriber.buffer := by
    rw [hr, List.append_assoc]
    rfl
  simpa only [Told, he] using h

/-- **Dropped events are reported where they are missing.** As long as the subscriber is there, its
stream tells of all that was emitted but the last `dropped` events; one that is found gone leaves
out the event it was found gone with. -/
theorem losses_reported {s : EventStream T} (h : (machine T).Reachable s) (hb : s.drops < 2 ^ 64 - 1) :
    s.Told := by
  have hinv : s.subscriber.dropped ≤ s.drops ∧ (s.drops < 2 ^ 64 - 1 → s.Told) := by
    refine h.invariant (P := fun s => s.subscriber.dropped ≤ s.drops ∧ (s.drops < 2 ^ 64 - 1 → s.Told))
      ⟨Nat.le_refl _, fun _ => ⟨[], [], .nil, rfl, rfl⟩⟩ ?_
    intro s input s' _ ⟨hd, ht⟩ _ hs
    cases input with
    | emit event marker own =>
      by_cases hc : s.connected = true
      · rw [show (machine T).step s (.emit event marker own) = some (s.emit event marker own) from if_pos hc] at hs
        cases hs
        have hcount := dropped_sendBounded s.subscriber event marker own
        refine ⟨?_, fun hb => ?_⟩
        · exact Nat.le_trans hcount (Nat.add_le_add_right hd _)
        · have hgrows : s.drops ≤ (s.emit event marker own).drops := Nat.le_add_right ..
          exact told_emit (ht (Nat.lt_of_le_of_lt hgrows hb)) hc (by omega) event marker own
      · rw [show (machine T).step s (.emit event marker own) = none from if_neg hc] at hs
        cases hs
    | read =>
      cases hr : s.subscriber.buffer with
      | nil =>
        rw [show (machine T).step s .read = none by simp only [machine, step, hr]] at hs
        cases hs
      | cons item rest =>
        rw [show (machine T).step s .read = some _ by simp only [machine, step, hr]; rfl] at hs
        cases hs
        exact ⟨hd, fun hb => told_read (ht hb) hr⟩
  exact hinv.2 hb

/-- Two events that do not fit, and their marker before the next that does. -/
theorem losses_reported_marked : ∃ s : EventStream ChannelEvent,
    s.read.length = 1 ∧ s.subscriber.buffer.length = 2 ∧ s.emitted.length = 4 ∧
      Accounts (s.read ++ s.subscriber.buffer) s.subscriber.dropped s.emitted := by
  obtain ⟨s, hr, hs⟩ := Machine.reachable_of_run (machine ChannelEvent)
    [.emit .disconnected .sent .sent, .emit .disconnected .sent .full, .emit .disconnected .full .sent, .read,
      .emit .disconnected .sent .sent]
    (fun s => s.connected = true ∧ s.drops < 2 ^ 64 - 1 ∧ s.read.length = 1 ∧ s.subscriber.buffer.length = 2 ∧
      s.emitted.length = 4) (by decide +kernel)
  obtain ⟨hc, hb, hread, hbuffer, hemitted⟩ := of_decide_eq_true hs
  have htold := losses_reported hr hb
  rw [Told, if_pos hc] at htold
  exact ⟨s, hread, hbuffer, hemitted, htold⟩

/-- The event that finds the subscriber gone is not counted. -/
theorem last_event_uncounted :
    ¬ ∀ s : EventStream ChannelEvent, (machine ChannelEvent).Reachable s → s.drops < 2 ^ 64 - 1 →
      Accounts (s.read ++ s.subscriber.buffer) s.subscriber.dropped s.emitted := by
  intro hall
  obtain ⟨told, missing, htells, hmissing, hemitted⟩ := hall
    ⟨⟨[], 0⟩, false, [], [.disconnected], 0⟩
    (Machine.Reachable.step (i := .emit .disconnected .sent .disconnected) .start rfl) (by decide)
  rw [tells_nil htells, List.length_eq_zero_iff.mp hmissing] at hemitted
  cases hemitted

end EventStream
end PhoenixChannel.Client
