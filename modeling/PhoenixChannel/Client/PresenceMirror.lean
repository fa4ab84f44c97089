import PhoenixChannel.Client.PresenceGeneration
import PhoenixChannel.Runtime.PresenceChanges

/-! An observer that rebuilds the presence state from events.

The events of a frame are those of one merged diff: all its joins, then its leaves, and of
the leaves only those of keys that had an entry before the frame. An observer that adds what
joined and removes what left ends with the state when merging does no harm to the frame's
changes, and the library says when that is. -/
namespace PhoenixChannel.Client
open PhoenixChannel.Runtime Library

/-- The connections of one entry under its key. -/
def entryConnections (key : String) (p : Presence) : Set Runtime.Connection :=
  { x | x.1 = key ∧ x.2 ∈ p.refs }

/-- What an observer makes of an event. -/
def observe (seen : Set Runtime.Connection) : PresenceEvent → Set Runtime.Connection
  | .joined key _ joined => seen ∪ entryConnections key joined
  | .left key _ left => seen \ entryConnections key left
  | .synced => seen
  | .disconnected | .channelLeft | .channelClosed | .channelError => ∅

/-- What it makes of a result of `next`. -/
def observeResult (seen : Set Runtime.Connection) : Except PresenceStreamError PresenceEvent → Set Runtime.Connection
  | .ok event => observe seen event
  | .error (.desynchronized _) => ∅
  | .error _ => seen

/-- A presence consumer with the channel events it has not read, and an observer of its
results. -/
structure Observer where
  presence : ChannelPresence
  unread : List ChannelEvent
  seen : Set Runtime.Connection
  last : Option (Except PresenceStreamError PresenceEvent)

namespace Observer

inductive Input where
  | arrives (event : ChannelEvent)
  | next

/-- The observer takes the next result, if there is one. -/
def take (o : Observer) : Observer :=
  let (result, presence, unread) := o.presence.next o.unread
  ⟨presence, unread, result.elim o.seen (observeResult o.seen), result⟩

def machine : Machine Observer Input where
  start := ⟨.new, [], ∅, none⟩
  step o
    | .arrives event => some { o with unread := o.unread ++ [event] }
    | .next => some o.take

/-- Merging the changes the event makes does them no harm, given the keys with an entry. -/
def MergesWell (p : ChannelPresence) (event : ChannelEvent) : Prop :=
  ∀ frame, event = .protocol (.message frame) → ∀ ds, p.tracker.Batch frame ds →
    Delta.Mergeable { x | x.1 ∈ p.tracker.state } ds

/-- So for every event a call of `next` reads, until it has a result. -/
def AllMergeWell (p : ChannelPresence) : List ChannelEvent → Prop
  | [] => True
  | event :: events =>
    MergesWell p event ∧
      ((p.consume event).1 = none → (p.consume event).2.pending = [] →
        AllMergeWell (p.consume event).2 events)

/-- A call of `next` that reads events reads only such. -/
def ReadsWell (o : Observer) : Input → Prop
  | .arrives _ => True
  | .next => o.presence.desynchronized = false → o.presence.pending = [] →
      AllMergeWell o.presence o.unread

/-! ### The events of one frame

Observing the events of a frame is merging its changes into one delta. -/

/-- Observing the joins of a frame adds their connections. -/
theorem observe_joins (previous : PresenceState) (entries : List (String × Presence))
    (seen : Set Runtime.Connection) :
    (entries.map fun e => PresenceEvent.joined e.1 previous[e.1]? e.2).foldl observe seen =
      seen ∪ { x | ∃ p, (x.1, p) ∈ entries ∧ x.2 ∈ p.refs } := by
  induction entries generalizing seen with
  | nil => simp
  | cons e rest ih =>
    rw [List.map_cons, List.foldl_cons, ih]
    ext x
    simp only [observe, entryConnections, Set.mem_union, Set.mem_ofPred_eq, List.mem_cons, Prod.ext_iff]
    grind

/-- Observing the leaves of a frame removes the connections of those that had an entry. -/
theorem observe_leaves (previous : PresenceState) (entries : List (String × Presence))
    (seen : Set Runtime.Connection) :
    (entries.filterMap fun e => previous[e.1]?.map fun current =>
        PresenceEvent.left e.1 current e.2).foldl observe seen =
      seen \ { x | (∃ p, (x.1, p) ∈ entries ∧ x.2 ∈ p.refs) ∧ x.1 ∈ previous } := by
  induction entries generalizing seen with
  | nil =>
    ext x
    simp
  | cons e rest ih =>
    cases hp : previous[e.1]? with
    | none =>
      have hn : e.1 ∉ previous := by grind
      rw [List.filterMap_cons_none (by simp [hp]), ih]
      ext x
      simp only [Set.mem_sdiff, Set.mem_ofPred_eq, List.mem_cons, Prod.ext_iff]
      grind
    | some current =>
      have hin : e.1 ∈ previous := by grind
      rw [List.filterMap_cons_some (by simp [hp]; rfl), List.foldl_cons, ih]
      ext x
      simp only [observe, entryConnections, Set.mem_sdiff, Set.mem_ofPred_eq, List.mem_cons,
        Prod.ext_iff]
      grind

/-- The events of a merged diff act as a delta: of its leaves, those of known keys. -/
theorem observe_changes (previous : PresenceState) (diff : PresenceDiff) (seen : Set Runtime.Connection) :
    (ChannelPresence.changeEvents previous diff).foldl observe seen =
      Delta.apply ⟨diff.joins.connections, diff.leaves.connections ∩ { x | x.1 ∈ previous }⟩ seen := by
  unfold ChannelPresence.changeEvents
  rw [List.foldl_append, List.foldl_append, observe_joins, observe_leaves]
  ext x
  simp only [List.foldl_cons, List.foldl_nil, observe, Delta.mem_apply, Set.mem_sdiff, Set.mem_union,
    Set.mem_inter_iff, PresenceState.mem_connections_toList, Set.mem_ofPred_eq]

/-! ### One event

The observer is in step if it will hold the state's connections once it has taken what is pending. -/

/-- What the observer has seen and the results still pending make up the state; a `Synced`
is pending only as the last of its frame's events. -/
structure InStep (p : ChannelPresence) (seen : Set Runtime.Connection) : Prop where
  listening : Subscription.Listening p
  caught : p.pending.foldl observe seen = p.tracker.state.connections
  pending : p.pending = [] ∨
    ∃ events, p.pending = events ++ [.synced] ∧ ∀ e ∈ events, e ≠ .synced

/-- A frame's events end with their one `Synced`. -/
theorem changeEvents_pending (previous : PresenceState) (diff : PresenceDiff) :
    ∃ events, ChannelPresence.changeEvents previous diff = events ++ [.synced] ∧
      ∀ e ∈ events, e ≠ .synced := by
  refine ⟨_, rfl, fun e he => ?_⟩
  rcases List.mem_append.mp he with he | he
  · obtain ⟨_, _, rfl⟩ := List.mem_map.mp he
    nofun
  · obtain ⟨_, _, h⟩ := List.mem_filterMap.mp he
    obtain ⟨_, _, rfl⟩ := Option.map_eq_some_iff.mp h
    nofun

theorem inStep_reset {p : ChannelPresence} (hl : Subscription.Listening p) (hp : p.pending = []) :
    InStep p.reset ∅ := by
  refine ⟨Subscription.listening_reset hl, ?_, .inl hp⟩
  show p.pending.foldl observe ∅ = PresenceState.connections ∅
  rw [hp, PresenceState.connections_empty]
  rfl

variable {p : ChannelPresence} {seen : Set Runtime.Connection}

/-- A frame fails and changes nothing, or its events bring the observer to the new state; of a merged diff
these are the changes one by one, which is where merging has to do no harm. -/
theorem inStep_message (h : InStep p seen) (hp : p.pending = []) {frame : Frame}
    (hm : MergesWell p (.protocol (.message frame))) :
    (∃ e, p.message frame = (some (.error (.decode e)), (p.message frame).2) ∧
      InStep (p.message frame).2 seen) ∨
    ((p.message frame).1 = none ∧ InStep (p.message frame).2 seen) := by
  have hl : Subscription.Listening (p.message frame).2 :=
    Subscription.listening_consume h.listening (.protocol (.message frame))
  have hcaught : seen = p.tracker.state.connections := by
    have := h.caught
    rwa [hp] at this
  have happ := PresenceTracker.applied h.listening.tagged frame
  have hbatch := @PresenceTracker.synced_batch p.tracker h.listening.tagged frame
  unfold ChannelPresence.message at hl ⊢
  generalize p.tracker.apply frame = applied at hl happ hbatch ⊢
  obtain ⟨result, tracker⟩ := applied
  -- an event that is ignored, queued or refused leaves the state as it was
  have hsame : ∀ {p' : ChannelPresence}, Subscription.Listening p' → p'.pending = p.pending →
      p'.tracker.state = p.tracker.state → InStep p' seen := by
    intro p' hl' hpend hstate
    refine ⟨hl', ?_, .inl (by rw [hpend, hp])⟩
    rw [hpend, hp, hstate]
    exact hcaught
  have hsynced : ∀ changes, result = .ok (.synced changes) →
      Subscription.Listening { p with
        tracker, pending := p.pending ++ ChannelPresence.changeEvents p.tracker.state changes } →
      InStep { p with
        tracker, pending := p.pending ++ ChannelPresence.changeEvents p.tracker.state changes } seen := by
    rintro changes rfl hl'
    obtain ⟨ds, hds, hrep, hstate⟩ := hbatch rfl
    refine ⟨hl', ?_, .inr ?_⟩
    · show (p.pending ++ ChannelPresence.changeEvents p.tracker.state changes).foldl observe seen =
        tracker.state.connections
      have hknown : p.tracker.state.connections ⊆ { x | x.1 ∈ p.tracker.state } := by
        rintro x ⟨_, hx, _⟩
        exact Table.mem_of_lookup hx
      rw [hp, List.nil_append, observe_changes, hrep.joins, hrep.leaves, hcaught, hstate]
      exact (Delta.merged_apply_iff hknown ds).mpr (hm frame rfl ds hds)
    · rw [hp, List.nil_append]
      exact changeEvents_pending _ _
  cases happ with
  | refused e => exact .inl ⟨e, rfl, hsame hl rfl rfl⟩
  | ignored | queued => exact .inr ⟨rfl, hsame hl rfl rfl⟩
  | state | diff => exact .inr ⟨rfl, hsynced _ rfl hl⟩

/-- Reading one event keeps step, and gives no `Synced` at once. -/
theorem inStep_consume (h : InStep p seen) (hp : p.pending = []) {event : ChannelEvent}
    (hm : MergesWell p event) :
    match p.consume event with
    | (some result, p') =>
      result ≠ .ok .synced ∧
        (p'.desynchronized = false → InStep p' (observeResult seen result))
    | (none, p') => InStep p' seen := by
  cases event with
  | disconnected => exact ⟨nofun, fun _ => inStep_reset h.listening hp⟩
  | lagged dropped => exact ⟨nofun, nofun⟩
  | joinPayloadError message => exact h
  | protocol event =>
    cases event with
    | left | channelClosed | channelError => exact ⟨nofun, fun _ => inStep_reset h.listening hp⟩
    | message frame =>
      show match p.message frame with
        | (some result, p') =>
          result ≠ .ok .synced ∧
            (p'.desynchronized = false → InStep p' (observeResult seen result))
        | (none, p') => InStep p' seen
      rcases inStep_message h hp hm with ⟨e, heq, hstep⟩ | ⟨hnone, hstep⟩
      · rw [heq]
        exact ⟨nofun, fun _ => hstep⟩
      · rw [show p.message frame = (none, (p.message frame).2) from Prod.ext hnone rfl]
        exact hstep
    | _ => exact h

/-! ### Runs

An observer that took all that is pending holds the state. -/

/-- What holds after a call of `next` with this result. -/
structure Taken (p : ChannelPresence) (seen : Set Runtime.Connection)
    (result : Option (Except PresenceStreamError PresenceEvent)) : Prop where
  inStep : p.desynchronized = false → InStep p seen
  synced : result = some (.ok .synced) → p.pending = [] ∧ p.desynchronized = false

/-- A result that is pending is handed out. -/
theorem taken_pending (h : InStep p seen) {event : PresenceEvent} {rest : List PresenceEvent}
    (hp : p.pending = event :: rest) (hd : p.desynchronized = false) :
    Taken { p with pending := rest } (observe seen event) (some (.ok event)) := by
  have hcaught := h.caught
  rw [hp, List.foldl_cons] at hcaught
  have hshape : ∃ events, event :: rest = events ++ [.synced] ∧ ∀ e ∈ events, e ≠ .synced := by
    rcases h.pending with hnil | hsome
    · rw [hp] at hnil
      cases hnil
    · rwa [hp] at hsome
  obtain ⟨events, heq, hne⟩ := hshape
  cases events with
  | nil =>
    cases heq
    exact ⟨fun _ => ⟨⟨h.listening.stateEvent, h.listening.diffEvent, h.listening.tagged⟩, hcaught,
      .inl rfl⟩, fun _ => ⟨rfl, hd⟩⟩
  | cons e events =>
    cases heq
    refine ⟨fun _ => ⟨⟨h.listening.stateEvent, h.listening.diffEvent, h.listening.tagged⟩, hcaught,
      .inr ⟨events, rfl, fun e' he' => hne e' (List.mem_cons_of_mem _ he')⟩⟩, fun hs => ?_⟩
    cases hs
    exact absurd rfl (hne .synced List.mem_cons_self)

/-- By induction over the unread events, until one has a result. -/
theorem taken_next {events : List ChannelEvent} (h : p.desynchronized = false → InStep p seen)
    (hw : p.desynchronized = false → p.pending = [] → AllMergeWell p events) :
    Taken (p.next events).2.1 ((p.next events).1.elim seen (observeResult seen)) (p.next events).1 := by
  induction events generalizing p with
  | nil =>
    unfold ChannelPresence.next
    by_cases hd : p.desynchronized = true
    · rw [if_pos hd]
      exact ⟨fun hf => absurd (hd.symm.trans hf) (by simp), nofun⟩
    · rw [if_neg hd]
      have hd : p.desynchronized = false := by simpa using hd
      cases hp : p.pending with
      | nil => exact ⟨h, nofun⟩
      | cons event rest => exact taken_pending (h hd) hp hd
  | cons event events ih =>
    unfold ChannelPresence.next
    by_cases hd : p.desynchronized = true
    · rw [if_pos hd]
      exact ⟨fun hf => absurd (hd.symm.trans hf) (by simp), nofun⟩
    rw [if_neg hd]
    have hd : p.desynchronized = false := by simpa using hd
    cases hp : p.pending with
    | cons e rest => exact taken_pending (h hd) hp hd
    | nil =>
      obtain ⟨hmerge, hrest⟩ := hw hd hp
      have hone := inStep_consume (h hd) hp hmerge
      dsimp only
      generalize p.consume event = consumed at hone hrest ⊢
      obtain ⟨_ | result, p'⟩ := consumed
      · exact ih (fun _ => hone) fun _ => hrest rfl
      · refine ⟨hone.2, fun hs => ?_⟩
        cases hs
        exact absurd rfl hone.1

/-- By induction over the run: events arrive, and calls read them. -/
theorem taken_of_reach {o : Observer} (h : machine.Reach ReadsWell o) :
    Taken o.presence o.seen o.last := by
  refine h.invariant (P := fun o => Taken o.presence o.seen o.last) ?_ ?_
  · refine ⟨fun _ => ⟨⟨rfl, rfl, PresenceState.tagged_empty, by simp [machine, ChannelPresence.new,
      PresenceTracker.new, PresenceTracker.withEvents]⟩, ?_, .inl rfl⟩, nofun⟩
    exact PresenceState.connections_empty.symm
  · intro o i o' _ ih hok hs
    cases i with
    | arrives event =>
      cases hs
      exact ih
    | next =>
      cases hs
      exact taken_next ih.inStep hok

/-- **The events rebuild the state.** In every run of arrivals and calls of `next` whose
read frames merge well, whenever `next` returns `Synced` the observer has seen exactly the
connections of the state. -/
theorem seen_eq_state {o : Observer} (h : machine.Reach ReadsWell o)
    (hs : o.last = some (.ok .synced)) : o.seen = o.presence.tracker.state.connections := by
  have ht := taken_of_reach h
  obtain ⟨hp, hd⟩ := ht.synced hs
  have hcaught := (ht.inStep hd).caught
  rwa [hp] at hcaught

/-! ### Two streams

A stream whose changes merge well, and one in which a connection joins and leaves in the same frame. -/

/-- A presence message of `room` under join reference 1. -/
def presenceMessage (event : String) (payload : Members) : ChannelEvent :=
  .protocol (.message ⟨some "1", none, "room", event, .json (.object payload)⟩)

/-- `ada` with one connection. -/
def adaPresent : Members := [("ada", .object [("metas", .array [.object [("phx_ref", .string "a")]])])]

/-- A full state with `ada` arrives. -/
def greeted : Observer :=
  { machine.start with unread := [presenceMessage "presence_state" adaPresent] }

/-- Two calls read the full state: the join, and then that the observer is synced. -/
theorem reach_greeted : machine.Reach ReadsWell greeted.take.take := by
  have harrives : machine.Reach ReadsWell greeted :=
    .step (i := .arrives (presenceMessage "presence_state" adaPresent)) .start trivial rfl
  have hread : ReadsWell greeted .next := by
    refine fun _ _ => ⟨?_, fun _ _ => trivial⟩
    intro frame hframe ds hds
    cases hds with
    | state _ =>
      intro x hx
      have hnone : x ∉ PresenceState.connections ∅ := by simp
      simp only [Delta.left_cons, Set.mem_union, Set.mem_sdiff] at hx
      rcases hx with ⟨hx, _⟩ | hx
      · exact absurd hx hnone
      · simp [greeted, machine, ChannelPresence.new, PresenceTracker.new,
          PresenceTracker.withEvents] at hx
    | diff _ hr _ => cases hr
  have hfirst : machine.Reach ReadsWell greeted.take := .step (i := .next) harrives hread rfl
  exact .step (i := .next) hfirst (fun _ hp => absurd hp (by decide)) rfl

/-- After both calls the observer sees `ada`, as the state has her. -/
theorem seen_eq_state_greeted :
    greeted.take.take.seen = greeted.take.take.presence.tracker.state.connections :=
  seen_eq_state reach_greeted rfl

/-- `ada` comes and goes before the full state, which has nobody: both diffs are queued. -/
def departed : Observer :=
  { machine.start with unread :=
      [presenceMessage "presence_diff" [("joins", .object adaPresent), ("leaves", .object [])],
        presenceMessage "presence_diff" [("joins", .object []), ("leaves", .object adaPresent)],
        presenceMessage "presence_state" []] }

theorem reachable_departed : machine.Reachable departed.take.take :=
  Machine.reachable_iff_run.mpr ⟨[
    .arrives (presenceMessage "presence_diff" [("joins", .object adaPresent), ("leaves", .object [])]),
    .arrives (presenceMessage "presence_diff" [("joins", .object []), ("leaves", .object adaPresent)]),
    .arrives (presenceMessage "presence_state" []), .next, .next], rfl⟩

/-- The observer gets her join and not her leave: at `Synced` it sees her in an empty room. -/
theorem departed_seen :
    machine.Reachable departed.take.take ∧ departed.take.take.last = some (.ok .synced) ∧
      departed.take.take.presence.tracker.state.isEmpty ∧ ("ada", "a") ∈ departed.take.take.seen ∧
      departed.take.take.seen ≠ departed.take.take.presence.tracker.state.connections := by
  have hseen : ("ada", "a") ∈ departed.take.take.seen := .inr ⟨rfl, by decide⟩
  refine ⟨reachable_departed, rfl, by decide, hseen, fun h => ?_⟩
  rw [h] at hseen
  obtain ⟨p, hp, _⟩ := hseen
  have hnone : departed.take.take.presence.tracker.state["ada"]? = none := rfl
  rw [hnone] at hp
  cases hp

end Observer
end PhoenixChannel.Client
