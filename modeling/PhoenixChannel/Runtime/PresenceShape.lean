import PhoenixChannel.Runtime.PresenceContents
import PhoenixChannel.Runtime.PresenceConvergence

/-! The shape of a presence state.

Every entry has a meta, and tells its metas apart. Joining drops the metas that come again
before it appends the new ones, and leaving drops the entry with its last meta, so both keep
the shape whatever a diff joins and leaves, and in whatever order diffs and full states come. -/
namespace PhoenixChannel.Runtime
open Library (Table)

namespace Presence

/-- Some of the metas tell themselves apart as all of them do. -/
theorem Distinct.of_sublist {p : Presence} (h : p.Distinct) {metas : List Meta} (hs : metas.Sublist p.metas)
    (hne : metas ≠ []) (fields : Members) : Distinct ⟨metas, fields⟩ where
  nonempty := hne
  tagged := fun m hm => h.tagged m (hs.subset hm)
  nodup := h.nodup.sublist (hs.filterMap _)

/-- Some of the metas of an entry are still told apart. -/
theorem Distinct.withMetas {p p' : Presence} (h : p.Distinct) {metas : List Meta} (hs : metas.Sublist p.metas)
    (hp : p.withMetas metas = some p') : p'.Distinct := by
  unfold Presence.withMetas at hp
  split at hp
  · cases hp
  · rename_i hne
    cases hp
    exact h.of_sublist hs (fun he => hne (by rw [he]; rfl)) p.fields

theorem metasBeyond_sublist (p other : Presence) : (p.metasBeyond other).Sublist p.metas :=
  List.filter_sublist

/-- The metas that stay share no reference with those that join. -/
theorem Distinct.joinedBy {joined : Presence} (h : joined.Distinct) {current : Option Presence}
    (hc : ∀ c, current = some c → c.Distinct) : (joined.joinedBy current).Distinct := by
  cases current with
  | none => exact h
  | some current =>
    have hcurrent := hc current rfl
    refine ⟨List.append_ne_nil_of_right_ne_nil _ h.nonempty, fun m hm => ?_, ?_⟩
    · rcases List.mem_append.mp hm with hm | hm
      · exact hcurrent.tagged m (mem_metasBeyond.mp hm).1
      · exact h.tagged m hm
    · have hsplit : (joined.joinedBy (some current)).refs =
          refsOf (current.metasBeyond joined) ++ joined.refs := List.filterMap_append ..
      have hkept : (refsOf (current.metasBeyond joined)).Nodup :=
        hcurrent.nodup.sublist ((metasBeyond_sublist current joined).filterMap _)
      rw [hsplit]
      exact hkept.append h.nodup fun r hr hj => (mem_refsOf_metasBeyond.mp hr).2 hj

theorem Distinct.leftBy {left current p : Presence} (h : current.Distinct)
    (hp : left.leftBy current = some p) : p.Distinct :=
  h.withMetas (metasBeyond_sublist current left) hp

/-- What joined of an entry is told apart as the entry is. -/
theorem Distinct.joinedSince {p joined : Presence} (h : p.Distinct) {current : Option Presence}
    (hp : p.joinedSince current = some joined) : joined.Distinct := by
  cases current with
  | none =>
    cases hp
    exact h
  | some current => exact h.withMetas (metasBeyond_sublist p current) hp

end Presence

/-! ### Synchronization keeps the shape

Each entry is made by the two functions above, so the loops over entries keep the shape, with or
without an error. -/

theorem PresenceState.distinct_empty : PresenceState.Distinct ∅ := by
  intro key p h
  simp at h

/-- A state stays distinct with a distinct entry. -/
theorem PresenceState.Distinct.insert {state : PresenceState} (h : state.Distinct) {key : String} {p : Presence}
    (hp : p.Distinct) : PresenceState.Distinct (state.insert key p) := by
  intro key' p' h'
  rw [Table.lookup_insert] at h'
  split at h'
  · cases h'
    exact hp
  · exact h key' p' h'

/-- What a diff makes of an entry: what joins is appended, then what leaves goes. -/
theorem distinct_of_joined_left {current joins leaves : Option Presence} {p : Presence}
    (hc : ∀ c, current = some c → c.Distinct) (hj : ∀ j, joins = some j → j.Distinct)
    (hp : (leaves.elim (joins.elim current fun j => some (j.joinedBy current)) fun left =>
      (joins.elim current fun j => some (j.joinedBy current)).bind left.leftBy) = some p) :
    p.Distinct := by
  have hmerged : ∀ q, (joins.elim current fun j => some (j.joinedBy current)) = some q → q.Distinct := by
    intro q hq
    cases hjoins : joins with
    | none =>
      rw [hjoins] at hq
      exact hc q hq
    | some j =>
      rw [hjoins] at hq
      cases hq
      exact (hj j hjoins).joinedBy hc
  cases leaves with
  | none => exact hmerged p hp
  | some left =>
    obtain ⟨q, hq, hleft⟩ := Option.bind_eq_some_iff.mp hp
    exact (hmerged q hq).leftBy hleft

/-- A diff keeps the shape, also where it joins and leaves metas of one key. -/
theorem syncDiff_distinct {state : PresenceState} {diff : PresenceDiff} (hs : state.Distinct)
    (hj : diff.joins.Distinct) (hl : diff.leaves.Tagged) :
    ∃ s', syncDiff state diff = (.ok diff, s') ∧ s'.Distinct := by
  obtain ⟨s', hok, hlookup⟩ := syncDiff_lookup state ⟨hj.tagged, hl⟩
  refine ⟨s', hok, fun key p hp => ?_⟩
  rw [hlookup] at hp
  exact distinct_of_joined_left (hs key) (hj key) hp

/-- Synchronizing distinct states goes through and gives a distinct one. -/
theorem syncState_distinct {state newState : PresenceState} (hs : state.Distinct) (hn : newState.Distinct) :
    ∃ changes s', syncState state newState = (.ok changes, s') ∧ s'.Distinct := by
  obtain ⟨changes, s', hok, hlookup⟩ := syncState_lookup hs.tagged hn.tagged
  refine ⟨changes, s', hok, fun key p hp => ?_⟩
  rw [hlookup] at hp
  refine distinct_of_joined_left (hs key) (fun j hj => ?_) hp
  obtain ⟨new, hnew, hjoined⟩ := Option.bind_eq_some_iff.mp hj
  exact (hn key new hnew).joinedSince hjoined

/-! ### Runs of the tracker

The queue is part of the invariant, as its diffs come to be applied later. -/

namespace PresenceTracker

/-- What the tracker holds, and what waits to join it, tells its metas apart. -/
structure Distinct (t : PresenceTracker) : Prop where
  state : t.state.Distinct
  joins : ∀ d ∈ t.pendingDiffs, d.joins.Distinct
  leaves : ∀ d ∈ t.pendingDiffs, d.leaves.Tagged

/-- A frame every entry of which has a meta and tells its metas apart. -/
structure Distinguishes (t : PresenceTracker) (frame : Frame) : Prop where
  state : ∀ newState, t.IsState frame newState → newState.Distinct
  joins : ∀ diff, t.IsDiff frame diff → diff.joins.Distinct
  leaves : ∀ diff, t.IsDiff frame diff → diff.leaves.Distinct

/-- Each queued diff keeps the state distinct, and so does their replay. -/
theorem replay_distinct {diffs : List PresenceDiff} {state : PresenceState} (hs : state.Distinct)
    (hj : ∀ d ∈ diffs, d.joins.Distinct) (hl : ∀ d ∈ diffs, d.leaves.Tagged) (changes : PresenceDiff) :
    ∃ changes' s', replay state changes diffs = (.ok changes', s') ∧ s'.Distinct := by
  induction diffs generalizing state changes with
  | nil => exact ⟨changes, state, rfl, hs⟩
  | cons diff rest ih =>
    obtain ⟨s₁, h₁, hd₁⟩ := syncDiff_distinct hs (hj diff List.mem_cons_self) (hl diff List.mem_cons_self)
    obtain ⟨c₂, s₂, h₂, hd₂⟩ := ih hd₁ (fun d hd => hj d (List.mem_cons_of_mem _ hd))
      (fun d hd => hl d (List.mem_cons_of_mem _ hd)) (changes.extend diff)
    exact ⟨c₂, s₂, by simp only [replay, h₁, h₂], hd₂⟩

/-- A full state keeps the shape, the waiting diffs on top of it. -/
theorem Distinct.apply_state {t : PresenceTracker} (ht : t.Distinct) {frame : Frame} {newState : PresenceState}
    (h : t.IsState frame newState) (hn : newState.Distinct) : (t.apply frame).2.Distinct := by
  obtain ⟨payload, hp, hv⟩ := Option.map_eq_some_iff.mp h.payload
  obtain ⟨c₁, s₁, h₁, hd₁⟩ := syncState_distinct ht.state hn
  obtain ⟨c₂, s₂, h₂, hd₂⟩ := replay_distinct hd₁ ht.joins ht.leaves c₁
  rw [apply_state_eq h.event hp]
  simp only [applyState, hv, h₁, h₂]
  exact ⟨hd₂, by simp, by simp⟩

/-- A diff is applied or queued; in either case what it joins is distinct. -/
theorem Distinct.apply_diff {t : PresenceTracker} (ht : t.Distinct) {frame : Frame} {diff : PresenceDiff}
    (h : t.IsDiff frame diff) (hj : diff.joins.Distinct) : (t.apply frame).2.Distinct := by
  obtain ⟨payload, hp, hv⟩ := Option.map_eq_some_iff.mp h.payload
  by_cases hr : t.joinRef = none ∨ t.joinRef ≠ frame.joinRef
  · rw [apply_diff_queued h hr]
    refine ⟨ht.state, fun d hd => ?_, fun d hd => ?_⟩ <;> rcases List.mem_append.mp hd with hd | hd
    · exact ht.joins d hd
    · rw [List.mem_singleton.mp hd]
      exact hj
    · exact ht.leaves d hd
    · rw [List.mem_singleton.mp hd]
      exact h.tagged.leaves
  · obtain ⟨s₁, h₁, hd₁⟩ := syncDiff_distinct ht.state hj h.tagged.leaves
    rw [apply_diff_eq h.event h.notState hp]
    simp only [applyDiff, hv, if_neg hr, h₁]
    exact ⟨hd₁, ht.joins, ht.leaves⟩

/-- One frame keeps the shape. -/
theorem Distinct.apply {t : PresenceTracker} (ht : t.Distinct) (hr : t.Tagged) {frame : Frame}
    (hf : t.Distinguishes frame) : (t.apply frame).2.Distinct := by
  have ha := applied hr frame
  generalize (t.apply frame).1 = result at ha
  generalize hnew : (t.apply frame).2 = t' at ha ⊢
  cases ha with
  | ignored | refused => exact ht
  | state h _ _ => exact hnew ▸ ht.apply_state h (hf.state _ h)
  | queued h _ => exact hnew ▸ ht.apply_diff h (hf.joins _ h)
  | diff h _ _ _ _ => exact hnew ▸ ht.apply_diff h (hf.joins _ h)

/-- A step that applies no frame but one that tells its metas apart. -/
def Distinguishing (t : PresenceTracker) : Input → Prop
  | .apply frame => t.Distinguishes frame
  | .reset => True

/-- By induction over the frames, none of which joins an entry that names a connection twice. -/
theorem distinct_of_reach {stateEvent diffEvent : String} {t : PresenceTracker}
    (h : (machine stateEvent diffEvent).Reach Distinguishing t) : t.Distinct := by
  refine h.invariant ⟨PresenceState.distinct_empty, by simp [machine, withEvents], by simp [machine, withEvents]⟩ ?_
  intro t i t' hr ht hok hs
  cases i with
  | apply frame =>
    cases hs
    exact ht.apply (tagged_of_reachable hr.reachable) hok
  | reset =>
    cases hs
    exact ⟨PresenceState.distinct_empty, by simp [reset], by simp [reset]⟩

/-- **The presence state keeps its shape.** Whatever frames are applied, and whenever the tracker is
reset, no key lingers without metas and no connection is counted twice. -/
theorem reachable_state_distinct {stateEvent diffEvent : String} {t : PresenceTracker}
    (h : (machine stateEvent diffEvent).Reach Distinguishing t) {key : String} {p : Presence}
    (hp : t.state[key]? = some p) :
    p.metas ≠ [] ∧ (∀ m ∈ p.metas, m.phxRef.isSome) ∧ (p.metas.map Meta.phxRef).Nodup := by
  have hd := (distinct_of_reach h).state key p hp
  refine ⟨hd.nonempty, hd.tagged, ?_⟩
  have hnodup := hd.nodup
  rw [hd.tagged.refs_eq] at hnodup
  have hrefs : p.metas.map Meta.phxRef = (p.metas.map Meta.refOrDefault).map some := by
    rw [List.map_map]
    refine List.map_congr_left fun m hm => ?_
    obtain ⟨r, hr⟩ := Option.isSome_iff_exists.mp (hd.tagged m hm)
    rw [hr, Function.comp_apply, Meta.refOrDefault_of hr]
  rw [hrefs]
  exact hnodup.map fun _ _ he => Option.some.inj he

/-- Ada's phone comes as her laptop goes, before a full state that has the phone already. -/
theorem reachable_state_distinct_ada :
    let ref : String → Value := fun r => .object [("phx_ref", .string r)]
    let metas : List Value → Value := fun items => .object [("ada", .object [("metas", .array items)])]
    let diff : Frame := ⟨some "1", none, "room", "presence_diff",
      .json (.object [("joins", metas [ref "phone"]), ("leaves", metas [ref "laptop"])])⟩
    let snapshot : Frame := ⟨some "1", none, "room", "presence_state", .json (metas [ref "phone", ref "laptop"])⟩
    ∃ p, (new.feed [diff, snapshot]).state["ada"]? = some p ∧
      p.metas ≠ [] ∧ (∀ m ∈ p.metas, m.phxRef.isSome) ∧ (p.metas.map Meta.phxRef).Nodup := by
  intro ref metas diff snapshot
  have hone : ∀ r : String, Presence.Distinct ⟨[[("phx_ref", .string r)]], []⟩ := fun r =>
    ⟨nofun, fun m hm => by cases List.mem_singleton.mp hm; rfl, List.nodup_singleton r⟩
  have htwo : Presence.Distinct ⟨[[("phx_ref", .string "phone")], [("phx_ref", .string "laptop")]], []⟩ := by
    refine ⟨nofun, fun m hm => ?_, by decide⟩
    rcases List.mem_pair.mp hm with rfl | rfl <;> rfl
  have hdiff : Distinguishing new (.apply diff) := by
    refine ⟨fun _ h => absurd h.event (by decide), fun d h => ?_, fun d h => ?_⟩ <;> cases h.payload
    · exact PresenceState.distinct_empty.insert (hone "phone")
    · exact PresenceState.distinct_empty.insert (hone "laptop")
  have hsnapshot : Distinguishing (new.apply diff).2 (.apply snapshot) := by
    refine ⟨fun s h => ?_, fun d h => absurd h.event (by decide), fun d h => absurd h.event (by decide)⟩
    cases h.payload
    exact PresenceState.distinct_empty.insert htwo
  have hreach : (machine "presence_state" "presence_diff").Reach Distinguishing (new.feed [diff, snapshot]) :=
    .step (.step .start hdiff rfl) hsnapshot rfl
  have hstate : (new.feed [diff, snapshot]).state["ada"]? = some ⟨[[("phx_ref", .string "phone")]], []⟩ := rfl
  exact ⟨_, hstate, reachable_state_distinct hreach hstate⟩

end PresenceTracker
end PhoenixChannel.Runtime
