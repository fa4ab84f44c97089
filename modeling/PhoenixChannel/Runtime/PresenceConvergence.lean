import PhoenixChannel.Library.Machine
import PhoenixChannel.Runtime.PresenceSync

/-! Convergence of the presence tracker.

A server's presence evolves by diffs; a client gets the diffs and, somewhere among them, a
full state taken at some point of the same history. The tracker queues the diffs before
the full state and replays them on top of it, so every diff is applied after a state that
some of them already made. The library's replay lemma says that this does no harm. -/
namespace PhoenixChannel.Runtime
open Library

/-- Every meta the tracker holds carries a reference. -/
structure PresenceTracker.Tagged (t : PresenceTracker) : Prop where
  state : t.state.Tagged
  pending : ∀ d ∈ t.pendingDiffs, d.Tagged

namespace PresenceTracker

/-- A frame that the tracker takes as the full state `newState`. -/
structure IsState (t : PresenceTracker) (frame : Frame) (newState : PresenceState) : Prop where
  event : frame.event = t.stateEvent
  payload : frame.payload.asJson.map PresenceState.fromValue = some (.ok newState)

/-- A frame that the tracker takes as the diff `diff`. -/
structure IsDiff (t : PresenceTracker) (frame : Frame) (diff : PresenceDiff) : Prop where
  event : frame.event = t.diffEvent
  notState : frame.event ≠ t.stateEvent
  payload : frame.payload.asJson.map PresenceDiff.fromValue = some (.ok diff)

/-- Two trackers that listen to the same events. -/
structure SameEvents (t t' : PresenceTracker) : Prop where
  stateEvent : t'.stateEvent = t.stateEvent
  diffEvent : t'.diffEvent = t.diffEvent

theorem IsDiff.same {t t' : PresenceTracker} {frame : Frame} {diff : PresenceDiff}
    (h : t.IsDiff frame diff) (hs : SameEvents t t') : t'.IsDiff frame diff :=
  ⟨by rw [hs.diffEvent, h.event], by rw [hs.stateEvent]; exact h.notState, h.payload⟩

theorem IsState.same {t t' : PresenceTracker} {frame : Frame} {newState : PresenceState}
    (h : t.IsState frame newState) (hs : SameEvents t t') : t'.IsState frame newState :=
  ⟨by rw [hs.stateEvent, h.event], h.payload⟩

theorem IsDiff.tagged {t : PresenceTracker} {frame : Frame} {diff : PresenceDiff}
    (h : t.IsDiff frame diff) : diff.Tagged := by
  obtain ⟨payload, _, hp⟩ := Option.map_eq_some_iff.mp h.payload
  exact PresenceDiff.fromValue_tagged hp

theorem IsState.tagged {t : PresenceTracker} {frame : Frame} {newState : PresenceState}
    (h : t.IsState frame newState) : newState.Tagged := by
  obtain ⟨payload, _, hp⟩ := Option.map_eq_some_iff.mp h.payload
  exact PresenceState.fromValue_tagged hp

/-! ### One frame

On tagged states the tracker cannot fail: a full state replaces the connections and replays the
queue, and a diff is applied or queued. -/

theorem apply_state_eq {t : PresenceTracker} {frame : Frame} {payload : Value}
    (he : frame.event = t.stateEvent) (hp : frame.payload.asJson = some payload) :
    t.apply frame = t.applyState frame payload := by
  simp [apply, he, hp]

/-- A frame of the diff event is applied as a diff. -/
theorem apply_diff_eq {t : PresenceTracker} {frame : Frame} {payload : Value}
    (he : frame.event = t.diffEvent) (hn : frame.event ≠ t.stateEvent)
    (hp : frame.payload.asJson = some payload) :
    t.apply frame = t.applyDiff frame payload := by
  rw [he] at hn
  simp [apply, he, hp, hn]

/-- On tagged states a replay goes through and acts as all its deltas, one after the other. -/
theorem replay_ok {diffs : List PresenceDiff} {state : PresenceState} (hs : state.Tagged)
    (hd : ∀ d ∈ diffs, d.Tagged) (changes : PresenceDiff) :
    ∃ changes' s', replay state changes diffs = (.ok changes', s') ∧ s'.Tagged ∧
      s'.connections = Delta.applyAll (diffs.map PresenceDiff.delta) state.connections := by
  induction diffs generalizing state changes with
  | nil => exact ⟨changes, state, rfl, hs, rfl⟩
  | cons diff rest ih =>
    obtain ⟨s₁, h₁, ht₁, hc₁⟩ := syncDiff_ok hs (hd diff List.mem_cons_self)
    obtain ⟨c₂, s₂, h₂, ht₂, hc₂⟩ := ih ht₁ (fun d hmem => hd d (List.mem_cons_of_mem _ hmem))
      (changes.extend diff)
    refine ⟨c₂, s₂, by simp only [replay, h₁, h₂], ht₂, ?_⟩
    rw [hc₂, hc₁, List.map_cons, Delta.applyAll_cons]

/-- A full state is applied, the queued diffs on top of it. -/
theorem apply_state {t : PresenceTracker} {frame : Frame} {newState : PresenceState}
    (ht : t.Tagged) (h : t.IsState frame newState) :
    ∃ changes state, t.apply frame =
        (.ok (.synced changes), { t with state, pendingDiffs := [], joinRef := frame.joinRef }) ∧
      state.Tagged ∧
      state.connections =
        Delta.applyAll (t.pendingDiffs.map PresenceDiff.delta) newState.connections := by
  obtain ⟨payload, hp, hv⟩ := Option.map_eq_some_iff.mp h.payload
  obtain ⟨c₁, s₁, h₁, _, ht₁, hc₁, _⟩ := syncState_ok ht.state h.tagged
  obtain ⟨c₂, s₂, h₂, ht₂, hc₂⟩ := replay_ok ht₁ ht.pending c₁
  refine ⟨c₂, s₂, ?_, ht₂, by rw [hc₂, hc₁]⟩
  rw [apply_state_eq h.event hp]
  simp only [applyState, hv, h₁, h₂]

/-- A diff of another generation than the last full state's waits. -/
theorem apply_diff_queued {t : PresenceTracker} {frame : Frame} {diff : PresenceDiff}
    (h : t.IsDiff frame diff) (hr : t.joinRef = none ∨ t.joinRef ≠ frame.joinRef) :
    t.apply frame = (.ok .pending, { t with pendingDiffs := t.pendingDiffs ++ [diff] }) := by
  obtain ⟨payload, hp, hv⟩ := Option.map_eq_some_iff.mp h.payload
  rw [apply_diff_eq h.event h.notState hp]
  simp only [applyDiff, hv, if_pos hr]

/-- A diff of the last full state's generation is applied. -/
theorem apply_diff_now {t : PresenceTracker} {frame : Frame} {diff : PresenceDiff} {r : Reference}
    (ht : t.Tagged) (h : t.IsDiff frame diff) (hr : t.joinRef = some r)
    (hf : frame.joinRef = some r) :
    ∃ state, t.apply frame = (.ok (.synced diff), { t with state }) ∧ state.Tagged ∧
      state.connections = diff.delta.apply t.state.connections := by
  obtain ⟨payload, hp, hv⟩ := Option.map_eq_some_iff.mp h.payload
  obtain ⟨s₁, h₁, ht₁, hc₁⟩ := syncDiff_ok ht.state h.tagged
  refine ⟨s₁, ?_, ht₁, hc₁⟩
  have hnow : ¬ (t.joinRef = none ∨ t.joinRef ≠ frame.joinRef) := by simp [hr, hf]
  rw [apply_diff_eq h.event h.notState hp]
  simp only [applyDiff, hv, if_neg hnow, h₁]

/-! ### Runs of the tracker

The tracker stays tagged, whatever tagged frames come in whatever order. -/

/-- The ways a frame is applied. -/
inductive Applied (t : PresenceTracker) (frame : Frame) :
    Except PresenceError PresenceUpdate → PresenceTracker → Prop
  | ignored : Applied t frame (.ok .ignored) t
  | refused (e : PresenceError) : Applied t frame (.error e) t
  | state {newState : PresenceState} {changes : PresenceDiff} {state : PresenceState}
      (h : t.IsState frame newState) (hs : state.Tagged)
      (hc : state.connections =
        Delta.applyAll (t.pendingDiffs.map PresenceDiff.delta) newState.connections) :
      Applied t frame (.ok (.synced changes))
        { t with state, pendingDiffs := [], joinRef := frame.joinRef }
  | queued {diff : PresenceDiff} (h : t.IsDiff frame diff)
      (hr : t.joinRef = none ∨ t.joinRef ≠ frame.joinRef) :
      Applied t frame (.ok .pending) { t with pendingDiffs := t.pendingDiffs ++ [diff] }
  | diff {diff : PresenceDiff} {state : PresenceState} {r : Reference} (h : t.IsDiff frame diff)
      (hr : t.joinRef = some r) (hf : frame.joinRef = some r) (hs : state.Tagged)
      (hc : state.connections = diff.delta.apply t.state.connections) :
      Applied t frame (.ok (.synced diff)) { t with state }

/-- A frame is refused for its own payload only, and then changes nothing. -/
theorem applied {t : PresenceTracker} (ht : t.Tagged) (frame : Frame) :
    Applied t frame (t.apply frame).1 (t.apply frame).2 := by
  by_cases hi : frame.event ≠ t.stateEvent ∧ frame.event ≠ t.diffEvent
  · rw [show t.apply frame = (.ok .ignored, t) from if_pos hi]
    exact .ignored
  cases hp : frame.payload.asJson with
  | none =>
    rw [show t.apply frame = (.error .binaryPayload, t) by simp only [apply, if_neg hi, hp]]
    exact .refused _
  | some payload =>
    by_cases he : frame.event = t.stateEvent
    · cases hv : PresenceState.fromValue payload with
      | error e =>
        rw [apply_state_eq he hp, show t.applyState frame payload = (.error e, t) by
          simp only [applyState, hv]]
        exact .refused e
      | ok newState =>
        have h : t.IsState frame newState := ⟨he, by rw [hp, Option.map_some, hv]⟩
        obtain ⟨changes, state, ha, hs, hc⟩ := apply_state ht h
        rw [ha]
        exact .state h hs hc
    · have hd : frame.event = t.diffEvent := by
        by_contra hne
        exact hi ⟨he, hne⟩
      cases hv : PresenceDiff.fromValue payload with
      | error e =>
        rw [apply_diff_eq hd he hp, show t.applyDiff frame payload = (.error e, t) by
          simp only [applyDiff, hv]]
        exact .refused e
      | ok diff =>
        have h : t.IsDiff frame diff := ⟨hd, he, by rw [hp, Option.map_some, hv]⟩
        by_cases hr : t.joinRef = none ∨ t.joinRef ≠ frame.joinRef
        · rw [apply_diff_queued h hr]
          exact .queued h hr
        · obtain ⟨hsome, heq⟩ := not_or.mp hr
          obtain ⟨r, hjoin⟩ := Option.ne_none_iff_exists'.mp hsome
          have hf : frame.joinRef = some r := by rw [← not_not.mp heq, hjoin]
          obtain ⟨state, ha, hs, hc⟩ := apply_diff_now ht h hjoin hf
          rw [ha]
          exact .diff h hjoin hf hs hc

/-- No frame, whatever it carries, makes the tracker hold a meta without a reference. -/
theorem Tagged.apply {t : PresenceTracker} (ht : t.Tagged) (frame : Frame) :
    (t.apply frame).2.Tagged := by
  have h := applied ht frame
  generalize (t.apply frame).1 = result at h
  generalize (t.apply frame).2 = t' at h ⊢
  cases h with
  | ignored | refused => exact ht
  | state _ hs _ => exact ⟨hs, by simp⟩
  | queued h _ =>
    refine ⟨ht.state, fun d hd => ?_⟩
    rcases List.mem_append.mp hd with hd | hd
    · exact ht.pending d hd
    · rw [List.mem_singleton.mp hd]
      exact h.tagged
  | diff _ _ _ hs _ => exact ⟨hs, ht.pending⟩

/-- A frame leaves the tracker the two events it listens to. -/
theorem same_apply {t : PresenceTracker} (ht : t.Tagged) (frame : Frame) :
    SameEvents t (t.apply frame).2 := by
  have h := applied ht frame
  generalize (t.apply frame).1 = result at h
  generalize (t.apply frame).2 = t' at h ⊢
  cases h <;> exact ⟨rfl, rfl⟩

/-- What can be done to a tracker. -/
inductive Input where
  | apply (frame : Frame)
  | reset

def machine (stateEvent diffEvent : String) : Machine PresenceTracker Input where
  start := withEvents stateEvent diffEvent
  step t
    | .apply frame => some (t.apply frame).2
    | .reset => some t.reset

/-- So a tracker that started empty cannot fail to synchronize. -/
theorem tagged_of_reachable {stateEvent diffEvent : String} {t : PresenceTracker}
    (h : (machine stateEvent diffEvent).Reachable t) : t.Tagged := by
  refine h.invariant ⟨PresenceState.tagged_empty, by simp [machine, withEvents]⟩ ?_
  intro t i t' _ ht _ hs
  cases i with
  | apply frame =>
    cases hs
    exact ht.apply frame
  | reset =>
    cases hs
    exact ⟨PresenceState.tagged_empty, by simp [reset]⟩

/-! ### A history of diffs with a full state among them

The diffs before the full state are queued, those after it are applied, and the replay lemma says
that doing the common ones twice makes no difference. -/

def feed (t : PresenceTracker) (frames : List Frame) : PresenceTracker :=
  frames.foldl (fun t frame => (t.apply frame).2) t

theorem tagged_feed {t : PresenceTracker} (ht : t.Tagged) (frames : List Frame) :
    (t.feed frames).Tagged := by
  induction frames generalizing t with
  | nil => exact ht
  | cons frame rest ih => exact ih (ht.apply frame)

/-- Frames of generation `r` that carry the diffs, one each. -/
def Carry (t : PresenceTracker) (r : Reference) (frames : List Frame) (diffs : List PresenceDiff) :
    Prop :=
  List.Forall₂ (fun frame diff => t.IsDiff frame diff ∧ frame.joinRef = some r) frames diffs

theorem Carry.same {t t' : PresenceTracker} {r : Reference} {frames : List Frame}
    {diffs : List PresenceDiff} (h : t.Carry r frames diffs) (hs : SameEvents t t') :
    t'.Carry r frames diffs :=
  List.Forall₂.imp (fun _ _ hd => ⟨hd.1.same hs, hd.2⟩) h

@[simp] theorem feed_cons (t : PresenceTracker) (frame : Frame) (frames : List Frame) :
    t.feed (frame :: frames) = (t.apply frame).2.feed frames := rfl

theorem feed_append (t : PresenceTracker) (frames frames' : List Frame) :
    t.feed (frames ++ frames') = (t.feed frames).feed frames' :=
  List.foldl_append

/-- Diffs of another join reference than the tracker's are queued in their order. -/
theorem feed_queued {t : PresenceTracker} {r : Reference} {frames : List Frame}
    {diffs : List PresenceDiff} (hr : t.joinRef ≠ some r) (h : t.Carry r frames diffs) :
    t.feed frames = { t with pendingDiffs := t.pendingDiffs ++ diffs } := by
  induction frames generalizing t diffs with
  | nil =>
    cases h
    simp [feed]
  | cons frame rest ih =>
    obtain - | @⟨_, diff, _, diffs, ⟨hd, hf⟩, hrest⟩ := h
    have hq : t.joinRef = none ∨ t.joinRef ≠ frame.joinRef := by
      rw [hf]
      exact .inr hr
    have hmore := ih (t := { t with pendingDiffs := t.pendingDiffs ++ [diff] }) hr
      (Carry.same hrest ⟨rfl, rfl⟩)
    rw [feed_cons, apply_diff_queued hd hq, hmore]
    simp

/-- Diffs of the tracker's join reference are applied in their order. -/
theorem feed_applied {t : PresenceTracker} {r : Reference} {frames : List Frame}
    {diffs : List PresenceDiff} (ht : t.Tagged) (hr : t.joinRef = some r)
    (h : t.Carry r frames diffs) :
    (t.feed frames).state.connections =
      Delta.applyAll (diffs.map PresenceDiff.delta) t.state.connections := by
  induction frames generalizing t diffs with
  | nil =>
    cases h
    rfl
  | cons frame rest ih =>
    obtain - | @⟨_, diff, _, diffs, ⟨hd, hf⟩, hrest⟩ := h
    obtain ⟨state, ha, hs, hc⟩ := apply_diff_now ht hd hr hf
    have ht' : Tagged { t with state } := ⟨hs, ht.pending⟩
    have hmore := ih ht' hr (Carry.same hrest ⟨rfl, rfl⟩)
    rw [feed_cons, ha, hmore, hc, List.map_cons, Delta.applyAll_cons]

/-- A set that evolves by the deltas of a list is what the list makes of its start. -/
theorem evolve {S : Nat → Set Connection} {diffs : List PresenceDiff}
    (hS : ∀ i diff, diffs[i]? = some diff → S (i + 1) = diff.delta.apply (S i)) {j : Nat}
    (hj : j ≤ diffs.length) :
    S j = Delta.applyAll ((diffs.take j).map PresenceDiff.delta) (S 0) := by
  induction j with
  | zero => rfl
  | succ j ih =>
    have hlt : j < diffs.length := hj
    rw [hS j _ (List.getElem?_eq_getElem hlt), ih (Nat.le_of_lt hlt), List.take_add_one,
      List.getElem?_eq_getElem hlt, List.map_append, Delta.applyAll_append]
    rfl

/-- **Presence converges wherever the full state lands.** The server's connections go from
`S 0` to `S n` by the diffs; the tracker, waiting for generation `r`, gets the first `m` of
them, then a full state that carries `S j`, then the others. It ends with `S n`. -/
theorem converges {stateEvent diffEvent : String} {t : PresenceTracker}
    (h : (machine stateEvent diffEvent).Reachable t) (hp : t.pendingDiffs = []) {r : Reference}
    (hr : t.joinRef ≠ some r) {frames : List Frame} {diffs : List PresenceDiff}
    (hf : t.Carry r frames diffs) {S : Nat → Set Connection}
    (hS : ∀ i diff, diffs[i]? = some diff → S (i + 1) = diff.delta.apply (S i)) {j m : Nat}
    (hj : j ≤ diffs.length) {snapshot : Frame} {newState : PresenceState}
    (hs : t.IsState snapshot newState) (hsr : snapshot.joinRef = some r)
    (hn : newState.connections = S j) :
    (t.feed (frames.take m ++ snapshot :: frames.drop m)).state.connections = S diffs.length := by
  have ht := tagged_of_reachable h
  have hbefore : t.Carry r (frames.take m) (diffs.take m) := List.forall₂_take m hf
  have hafter : t.Carry r (frames.drop m) (diffs.drop m) := List.forall₂_drop m hf
  -- the first `m` diffs wait, then the full state takes them with it
  have hqueued := feed_queued hr hbefore
  rw [hp, List.nil_append] at hqueued
  have htq : Tagged { t with pendingDiffs := diffs.take m } := by
    rw [← hqueued]
    exact tagged_feed ht _
  obtain ⟨changes, state, ha, hst, hc⟩ := apply_state htq (hs.same ⟨rfl, rfl⟩)
  have ht' : Tagged { t with state, pendingDiffs := [], joinRef := snapshot.joinRef } :=
    ⟨hst, by simp⟩
  rw [feed_append, feed_cons, hqueued, ha, feed_applied ht' hsr (hafter.same ⟨rfl, rfl⟩), hc, hn,
    ← Delta.applyAll_append, ← List.map_append, List.take_append_drop, evolve hS hj]
  -- every diff is now applied to a state that the first `j` of them made
  have hpart : ∀ d ∈ (diffs.take j).map PresenceDiff.delta, d ∈ diffs.map PresenceDiff.delta :=
    fun d hd => List.map_subset _ (List.take_subset j diffs) hd
  rw [Delta.applyAll_replay hpart, evolve hS (Nat.le_refl _), List.take_length]

/-- One diff, and an empty full state taken before it that arrives after it. -/
theorem converges_late_snapshot :
    let diff : PresenceDiff := ⟨(∅ : PresenceState).insert "ada" ⟨[[("phx_ref", .string "a")]], []⟩, ∅⟩
    let metas : Value := .object [("metas", .array [.object [("phx_ref", .string "a")]])]
    let joins : Frame := ⟨some "1", none, "room", "presence_diff",
      .json (.object [("joins", .object [("ada", metas)]), ("leaves", .object [])])⟩
    let snapshot : Frame := ⟨some "1", none, "room", "presence_state", .emptyObject⟩
    (new.feed [joins, snapshot]).state.connections = diff.delta.apply ∅ := by
  intro diff metas joins snapshot
  have hd : new.IsDiff joins diff := ⟨rfl, by decide, rfl⟩
  have hs : new.IsState snapshot ∅ := ⟨rfl, rfl⟩
  let S : Nat → Set Connection := fun i => if i = 0 then ∅ else diff.delta.apply ∅
  refine @converges "presence_state" "presence_diff" new .start rfl "1" (by decide) [joins] [diff]
    (.cons ⟨hd, rfl⟩ .nil) S ?_ 0 1 (Nat.zero_le _) snapshot ∅ hs rfl PresenceState.connections_empty
  intro i d hi
  cases i with
  | zero =>
    cases hi
    rfl
  | succ i => cases hi

end PresenceTracker
end PhoenixChannel.Runtime
