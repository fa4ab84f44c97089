import Mathlib.Data.List.Induction
import PhoenixChannel.Runtime.PresenceConvergence

/-! The queue of presence diffs, and the generations its diffs came from.

A queued diff is kept without the join reference it arrived under, and the next full state
replays the whole queue, whatever its own reference is. `Queue` keeps the frames of the
queued diffs next to the tracker; `Arrivals` says of a history of frames which of them wait
at its end. -/
namespace PhoenixChannel.Runtime
open Library
namespace PresenceTracker

/-- The tracker, and the frames its queued diffs arrived in. -/
structure Queue where
  tracker : PresenceTracker
  waiting : List Frame

namespace Queue

def start (stateEvent diffEvent : String) : Queue := ⟨withEvents stateEvent diffEvent, []⟩

/-- A frame whose diff was queued is kept until the queue is empty again. -/
def next (q : Queue) : Input → Queue
  | .reset => ⟨q.tracker.reset, []⟩
  | .apply frame =>
    match q.tracker.apply frame with
    | (.ok .pending, tracker) => ⟨tracker, q.waiting ++ [frame]⟩
    | (_, tracker) => ⟨tracker, if tracker.pendingDiffs.isEmpty then [] else q.waiting⟩

/-- The queue after a history. -/
def after (stateEvent diffEvent : String) (inputs : List Input) : Queue :=
  inputs.foldl next (start stateEvent diffEvent)

end Queue

/-- What a history of frames says about the next full state: the join reference of the last
one, and the frames of the diffs that came after it. -/
structure Arrivals where
  full : Option Reference
  diffs : List Frame

namespace Arrivals

/-- A frame of the given events carries a full state, or a diff. -/
def carriesState (stateEvent : String) (frame : Frame) : Bool :=
  frame.event = stateEvent &&
    (frame.payload.asJson.any fun payload => (PresenceState.fromValue payload).isOk)

def carriesDiff (stateEvent diffEvent : String) (frame : Frame) : Bool :=
  frame.event = diffEvent && frame.event != stateEvent &&
    (frame.payload.asJson.any fun payload => (PresenceDiff.fromValue payload).isOk)

def next (stateEvent diffEvent : String) (a : Arrivals) : Input → Arrivals
  | .reset => ⟨none, []⟩
  | .apply frame =>
    if carriesState stateEvent frame then ⟨frame.joinRef, []⟩
    else if carriesDiff stateEvent diffEvent frame then { a with diffs := a.diffs ++ [frame] }
    else a

/-- What arrived in a history since its last full state or reset. -/
def since (stateEvent diffEvent : String) (inputs : List Input) : Arrivals :=
  inputs.foldl (next stateEvent diffEvent) ⟨none, []⟩

/-- A diff that is not of the last full state's generation waits. -/
def waits (a : Arrivals) (frame : Frame) : Bool := a.full.isNone || a.full != frame.joinRef

end Arrivals

variable {stateEvent diffEvent : String}

/-- The queue is what its history makes it. -/
structure Queued (stateEvent diffEvent : String) (q : Queue) (a : Arrivals) : Prop where
  tagged : q.tracker.Tagged
  events : SameEvents (withEvents stateEvent diffEvent) q.tracker
  joinRef : q.tracker.joinRef = a.full
  waiting : q.waiting = a.diffs.filter a.waits
  diffs : List.Forall₂ q.tracker.IsDiff q.waiting q.tracker.pendingDiffs

/-- The reader of a history knows a full state when it sees one. -/
theorem carriesState_iff {t : PresenceTracker} (hs : SameEvents (withEvents stateEvent diffEvent) t)
    {frame : Frame} :
    Arrivals.carriesState stateEvent frame = true ↔ ∃ newState, t.IsState frame newState := by
  have he : t.stateEvent = stateEvent := hs.stateEvent
  unfold Arrivals.carriesState
  constructor
  · intro h
    obtain ⟨hevent, hany⟩ := Bool.and_eq_true_iff.mp h
    obtain ⟨payload, hp, hok⟩ := (Option.any_eq_true _ _).mp hany
    cases hv : PresenceState.fromValue payload with
    | error e => simp [hv, Except.isOk, Except.toBool] at hok
    | ok newState =>
      exact ⟨newState, by rw [he]; exact of_decide_eq_true hevent, by rw [hp, Option.map_some, hv]⟩
  · rintro ⟨newState, h⟩
    obtain ⟨payload, hp, hv⟩ := Option.map_eq_some_iff.mp h.payload
    simp [h.event, he, hp, hv, Except.isOk, Except.toBool]

/-- The reader of a history knows a diff when it sees one. -/
theorem carriesDiff_iff {t : PresenceTracker} (hs : SameEvents (withEvents stateEvent diffEvent) t)
    {frame : Frame} :
    Arrivals.carriesDiff stateEvent diffEvent frame = true ↔ ∃ diff, t.IsDiff frame diff := by
  have he : t.stateEvent = stateEvent := hs.stateEvent
  have hd : t.diffEvent = diffEvent := hs.diffEvent
  unfold Arrivals.carriesDiff
  constructor
  · intro h
    obtain ⟨hevents, hany⟩ := Bool.and_eq_true_iff.mp h
    obtain ⟨hevent, hnot⟩ := Bool.and_eq_true_iff.mp hevents
    obtain ⟨payload, hp, hok⟩ := (Option.any_eq_true _ _).mp hany
    cases hv : PresenceDiff.fromValue payload with
    | error e => simp [hv, Except.isOk, Except.toBool] at hok
    | ok diff =>
      exact ⟨diff, by rw [hd]; exact of_decide_eq_true hevent, by rw [he]; simpa using hnot,
        by rw [hp, Option.map_some, hv]⟩
  · rintro ⟨diff, h⟩
    obtain ⟨payload, hp, hv⟩ := Option.map_eq_some_iff.mp h.payload
    have hn : frame.event ≠ stateEvent := he ▸ h.notState
    rw [h.event, hd] at hn
    simp [h.event, hd, hn, hp, hv, Except.isOk, Except.toBool]

/-- A frame without a full state and without a diff arrives in vain. -/
theorem next_of_neither {t : PresenceTracker}
    (hs : SameEvents (withEvents stateEvent diffEvent) t) {frame : Frame}
    (hn : ¬ ∃ newState, t.IsState frame newState) (hd : ¬ ∃ diff, t.IsDiff frame diff)
    (a : Arrivals) : a.next stateEvent diffEvent (.apply frame) = a := by
  rw [← carriesState_iff hs] at hn
  rw [← carriesDiff_iff hs] at hd
  rw [Arrivals.next, if_neg hn, if_neg hd]

/-- A full state starts the list of waiting diffs anew. -/
theorem next_of_state {t : PresenceTracker}
    (hs : SameEvents (withEvents stateEvent diffEvent) t) {frame : Frame} {newState : PresenceState}
    (h : t.IsState frame newState) (a : Arrivals) :
    a.next stateEvent diffEvent (.apply frame) = ⟨frame.joinRef, []⟩ := by
  rw [Arrivals.next, if_pos ((carriesState_iff hs).mpr ⟨newState, h⟩)]

/-- A diff joins the waiting ones. -/
theorem next_of_diff {t : PresenceTracker}
    (hs : SameEvents (withEvents stateEvent diffEvent) t) {frame : Frame} {diff : PresenceDiff}
    (h : t.IsDiff frame diff) (a : Arrivals) :
    a.next stateEvent diffEvent (.apply frame) = { a with diffs := a.diffs ++ [frame] } := by
  have hn : ¬ Arrivals.carriesState stateEvent frame = true := by
    rw [carriesState_iff hs]
    rintro ⟨newState, hstate⟩
    exact h.notState hstate.event
  rw [Arrivals.next, if_neg hn, if_pos ((carriesDiff_iff hs).mpr ⟨diff, h⟩)]

/-- A frame that is ignored or refused carries neither a full state nor a diff. -/
theorem neither_of_unchanged {t : PresenceTracker} (ht : t.Tagged) (frame : Frame)
    (h : ∀ changes, (t.apply frame).1 ≠ .ok (.synced changes)) (hp : (t.apply frame).1 ≠ .ok .pending) :
    (¬ ∃ newState, t.IsState frame newState) ∧ ¬ ∃ diff, t.IsDiff frame diff := by
  constructor
  · rintro ⟨newState, hstate⟩
    obtain ⟨changes, state, ha, _, _⟩ := apply_state ht hstate
    exact h changes (by rw [ha])
  · rintro ⟨diff, hdiff⟩
    by_cases hr : t.joinRef = none ∨ t.joinRef ≠ frame.joinRef
    · exact hp (by rw [apply_diff_queued hdiff hr])
    · obtain ⟨hsome, heq⟩ := not_or.mp hr
      obtain ⟨r, hjoin⟩ := Option.ne_none_iff_exists'.mp hsome
      obtain ⟨state, ha, _, _⟩ := apply_diff_now ht hdiff hjoin (by rw [← not_not.mp heq, hjoin])
      exact h diff (by rw [ha])

/-- With as many frames as diffs, the frames go when the diffs are gone. -/
theorem waiting_kept {t t' : PresenceTracker} {waiting : List Frame}
    (h : List.Forall₂ t.IsDiff waiting t'.pendingDiffs) :
    (if t'.pendingDiffs.isEmpty then [] else waiting) = waiting := by
  generalize t'.pendingDiffs = diffs at h ⊢
  cases h <;> rfl

theorem forall₂_same {t t' : PresenceTracker} (hs : SameEvents t t') {waiting : List Frame}
    {diffs : List PresenceDiff} (h : List.Forall₂ t.IsDiff waiting diffs) :
    List.Forall₂ t'.IsDiff waiting diffs :=
  h.imp fun _ _ hd => hd.same hs

/-- One input: the queue is what the history says, both where the tracker queues and where it applies. -/
theorem Queued.next {q : Queue} {a : Arrivals} (h : Queued stateEvent diffEvent q a) (input : Input) :
    Queued stateEvent diffEvent (q.next input) (a.next stateEvent diffEvent input) := by
  cases input with
  | reset =>
    exact ⟨⟨PresenceState.tagged_empty, by simp [Queue.next, PresenceTracker.reset]⟩,
      ⟨h.events.stateEvent, h.events.diffEvent⟩, rfl, rfl, .nil⟩
  | apply frame =>
    have happ := applied h.tagged frame
    have hsame := same_apply h.tagged frame
    have htagged := h.tagged.apply frame
    have hnone := neither_of_unchanged h.tagged frame
    simp only [Queue.next]
    generalize q.tracker.apply frame = applied at happ hsame htagged hnone ⊢
    obtain ⟨result, t'⟩ := applied
    have hevents : SameEvents (withEvents stateEvent diffEvent) t' :=
      ⟨hsame.stateEvent.trans h.events.stateEvent, hsame.diffEvent.trans h.events.diffEvent⟩
    cases happ with
    | ignored | refused =>
      obtain ⟨hn, hd⟩ := hnone (by simp) (by simp)
      rw [next_of_neither h.events hn hd]
      refine ⟨htagged, hevents, h.joinRef, ?_, ?_⟩
      · dsimp only
        rw [waiting_kept h.diffs, h.waiting]
      · dsimp only
        rw [waiting_kept h.diffs]
        exact h.diffs
    | state hstate _ _ =>
      rw [next_of_state h.events hstate]
      exact ⟨htagged, hevents, rfl, rfl, .nil⟩
    | @queued diff hdiff hr =>
      rw [next_of_diff h.events hdiff]
      have hw : Arrivals.waits { a with diffs := a.diffs ++ [frame] } frame = true := by
        rw [h.joinRef] at hr
        rcases hr with hr | hr <;> simp [Arrivals.waits, hr]
      refine ⟨htagged, hevents, h.joinRef, ?_, ?_⟩
      · show q.waiting ++ [frame] = (a.diffs ++ [frame]).filter _
        rw [List.filter_append, List.filter_cons_of_pos hw, List.filter_nil, h.waiting]
        rfl
      · exact List.rel_append (forall₂_same hsame h.diffs) (.cons (hdiff.same hsame) .nil)
    | @diff diff state r hdiff hr hf _ _ =>
      rw [next_of_diff h.events hdiff]
      have hw : ¬ Arrivals.waits { a with diffs := a.diffs ++ [frame] } frame = true := by
        rw [h.joinRef] at hr
        simp [Arrivals.waits, hr, hf]
      have hkept := waiting_kept (forall₂_same hsame h.diffs)
      refine ⟨htagged, hevents, h.joinRef, ?_, ?_⟩
      · show (if q.tracker.pendingDiffs.isEmpty then [] else q.waiting) =
          (a.diffs ++ [frame]).filter _
        rw [hkept, List.filter_append, List.filter_cons_of_neg hw, List.filter_nil, List.append_nil,
          h.waiting]
        rfl
      · dsimp only
        rw [hkept]
        exact forall₂_same hsame h.diffs

/-- **The queue of a history.** What waits are the diffs that came since the last full
state or reset under another join reference than its, or under none. -/
theorem queued_after (inputs : List Input) :
    Queued stateEvent diffEvent (Queue.after stateEvent diffEvent inputs)
      (Arrivals.since stateEvent diffEvent inputs) := by
  induction inputs using List.reverseRecOn with
  | nil =>
    exact ⟨⟨PresenceState.tagged_empty, by simp [Queue.after, Queue.start, withEvents]⟩, ⟨rfl, rfl⟩, rfl,
      rfl, .nil⟩
  | append_singleton inputs input ih =>
    unfold Queue.after Arrivals.since at ih ⊢
    rw [List.foldl_append, List.foldl_append]
    exact ih.next input

/-- **When a queue is replayed onto its own full state.** A full state arrives after any
history of frames and resets. It replays, in order, the diffs of the waiting frames. They
all arrived under its join reference exactly when every diff since the last full state or
reset did, the diffs of that state's own generation apart. -/
theorem replays_own_iff {inputs : List Input} {frame : Frame} {newState : PresenceState}
    (h : (Queue.after stateEvent diffEvent inputs).tracker.IsState frame newState) :
    let q := Queue.after stateEvent diffEvent inputs
    let a := Arrivals.since stateEvent diffEvent inputs
    (∃ diffs, List.Forall₂ q.tracker.IsDiff q.waiting diffs ∧
      (q.tracker.apply frame).2.state.connections =
        Delta.applyAll (diffs.map PresenceDiff.delta) newState.connections) ∧
    ((∀ g ∈ q.waiting, g.joinRef = frame.joinRef) ↔
      ∀ g ∈ a.diffs, g.joinRef = frame.joinRef ∨ (g.joinRef ≠ none ∧ g.joinRef = a.full)) := by
  intro q a
  have hq : Queued stateEvent diffEvent q a := queued_after inputs
  constructor
  · obtain ⟨changes, state, ha, _, hc⟩ := apply_state hq.tagged h
    exact ⟨q.tracker.pendingDiffs, hq.diffs, by rw [ha]; exact hc⟩
  · have hwaits : ∀ g : Frame, a.waits g = false ↔ g.joinRef ≠ none ∧ g.joinRef = a.full := by
      intro g
      rcases hf : a.full with _ | r <;> rcases hg : g.joinRef with _ | r' <;>
        simp [Arrivals.waits, hf, hg]
      exact eq_comm
    rw [hq.waiting]
    simp only [List.mem_filter, and_imp]
    constructor
    · intro hall g hg
      by_cases hw : a.waits g = true
      · exact .inl (hall g hg hw)
      · exact .inr ((hwaits g).mp (by simpa using hw))
    · intro hall g hg hw
      refine (hall g hg).resolve_right fun hown => ?_
      rw [(hwaits g).mpr hown] at hw
      cases hw

/-- A diff of the given generation in which `ada` arrives. -/
def adaArrives (joinRef : Reference) : Frame :=
  ⟨some joinRef, none, "room", "presence_diff", .json (.object
    [("joins", .object [("ada", .object [("metas", .array [.object [("phx_ref", .string "a")]])])]),
      ("leaves", .object [])])⟩

/-- The full state of a generation with nobody there. -/
def emptyRoom (joinRef : Reference) : Frame :=
  ⟨some joinRef, none, "room", "presence_state", .emptyObject⟩

/-- Only the diff waits. -/
def adaWaits : Queue := Queue.after "presence_state" "presence_diff" [.apply (adaArrives "1")]

/-- The full state of the same generation replays the diff that waits. -/
theorem replays_own_iff_ada :
    adaWaits.tracker.IsState (emptyRoom "1") ∅ ∧
      ∀ g ∈ adaWaits.waiting, g.joinRef = (emptyRoom "1").joinRef := by
  have h : adaWaits.tracker.IsState (emptyRoom "1") ∅ := ⟨rfl, rfl⟩
  refine ⟨h, (replays_own_iff h).2.mpr fun g hg => .inl ?_⟩
  rw [List.mem_singleton.mp (show g ∈ [adaArrives "1"] from hg)]
  rfl

/-- The diff of generation 1 puts `ada` into the empty full state of generation 2. -/
theorem earlier_diff_replayed :
    adaWaits.waiting = [adaArrives "1"] ∧ adaWaits.tracker.IsState (emptyRoom "2") ∅ ∧
      (adaWaits.tracker.apply (emptyRoom "2")).2.joinRef = some "2" ∧
      ((adaWaits.tracker.apply (emptyRoom "2")).2.state["ada"]?).isSome ∧
      ¬ ∀ g ∈ adaWaits.waiting, g.joinRef = (emptyRoom "2").joinRef := by
  refine ⟨rfl, ⟨rfl, rfl⟩, by decide, by decide, fun h => ?_⟩
  have hjoin := h (adaArrives "1") (List.mem_singleton.mpr rfl)
  exact absurd hjoin (by decide)

end PresenceTracker
end PhoenixChannel.Runtime
