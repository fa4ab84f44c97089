import PhoenixChannel.Runtime.PresenceConvergence

/-! The changes a frame is reported to make.

A frame makes a batch of changes, one after another: a full state first replaces the state
and then takes the queued diffs with it. What is reported for them is one diff, in which
all their joins and all their leaves are merged. -/
namespace PhoenixChannel.Runtime
open Library PresenceState

/-- One entry of `extendState`. -/
def extendEntry (target : PresenceState) (key : String) (p : Presence) : PresenceState :=
  match target[key]? with
  | some existing => target.insert key { existing with metas := existing.metas ++ p.metas }
  | none => target.insert key p

theorem extendEntry_ok {target : PresenceState} (key : String) {p : Presence} (ht : target.Tagged)
    (hp : p.Tagged) :
    (extendEntry target key p).Tagged ∧
      ∀ x, x ∈ (extendEntry target key p).connections ↔
        x ∈ target.connections ∨ (x.1 = key ∧ x.2 ∈ p.refs) := by
  unfold extendEntry
  cases hc : target[key]? with
  | none =>
    refine ⟨ht.insert hp, fun x => ?_⟩
    rw [mem_connections_insert]
    by_cases hx : x.1 = key
    · simp [hx, not_mem_connections_of hc hx]
    · simp [hx]
  | some existing =>
    have hmetas : Presence.Tagged { existing with metas := existing.metas ++ p.metas } := by
      intro m hm
      rcases List.mem_append.mp hm with hm | hm
      · exact ht key existing hc m hm
      · exact hp m hm
    refine ⟨ht.insert hmetas, fun x => ?_⟩
    rw [mem_connections_insert]
    by_cases hx : x.1 = key
    · rw [if_pos hx, mem_connections_of hc hx]
      simp [hx, Presence.refs, refsOf, List.filterMap_append]
    · simp [hx]

theorem extendEach_ok {entries : List (String × Presence)} {target : PresenceState}
    (ht : target.Tagged) (he : ∀ e ∈ entries, e.2.Tagged) :
    Tagged (entries.foldl (fun target e => extendEntry target e.1 e.2) target) ∧
      ∀ x, x ∈ connections (entries.foldl (fun target e => extendEntry target e.1 e.2) target) ↔
        x ∈ target.connections ∨ ∃ p, (x.1, p) ∈ entries ∧ x.2 ∈ p.refs := by
  induction entries generalizing target with
  | nil => exact ⟨ht, by simp⟩
  | cons e rest ih =>
    obtain ⟨h₁, hm₁⟩ := extendEntry_ok e.1 ht (he e List.mem_cons_self)
    obtain ⟨h₂, hm₂⟩ := ih h₁ fun e' hmem => he e' (List.mem_cons_of_mem e hmem)
    refine ⟨h₂, fun x => ?_⟩
    rw [List.foldl_cons, hm₂, hm₁]
    simp only [List.mem_cons, Prod.ext_iff]
    grind

/-- Merging adds connections, and no other. -/
theorem extendState_ok {target source : PresenceState} (ht : target.Tagged) (hs : source.Tagged) :
    (extendState target source).Tagged ∧
      (extendState target source).connections = target.connections ∪ source.connections := by
  have hfold : extendState target source =
      source.toList.foldl (fun target e => extendEntry target e.1 e.2) target :=
    Std.ExtTreeMap.foldl_eq_foldl_toList
  rw [hfold]
  obtain ⟨htag, hmem⟩ := extendEach_ok ht hs.entries
  refine ⟨htag, ?_⟩
  ext x
  rw [hmem, Set.mem_union, @mem_connections_toList source]

/-- A diff that reports a sequence of deltas, merged. -/
structure PresenceDiff.Reports (changes : PresenceDiff) (ds : List (Delta Connection)) : Prop where
  tagged : changes.Tagged
  joins : changes.joins.connections = Delta.joined ds
  leaves : changes.leaves.connections = Delta.left ds

theorem PresenceDiff.Tagged.reports {diff : PresenceDiff} (h : diff.Tagged) :
    diff.Reports [diff.delta] :=
  ⟨h, by simp [PresenceDiff.delta], by simp [PresenceDiff.delta]⟩

theorem PresenceDiff.Reports.extend {changes diff : PresenceDiff} {ds : List (Delta Connection)}
    (h : changes.Reports ds) (hd : diff.Tagged) :
    (changes.extend diff).Reports (ds ++ [diff.delta]) := by
  obtain ⟨htj, hj⟩ := extendState_ok h.tagged.joins hd.joins
  obtain ⟨htl, hl⟩ := extendState_ok h.tagged.leaves hd.leaves
  refine ⟨⟨htj, htl⟩, ?_, ?_⟩
  · show (extendState changes.joins diff.joins).connections = _
    rw [hj, h.joins]
    ext x
    simp [Delta.joined, PresenceDiff.delta, or_and_right, exists_or]
  · show (extendState changes.leaves diff.leaves).connections = _
    rw [hl, h.leaves]
    ext x
    simp [Delta.left, PresenceDiff.delta, or_and_right, exists_or]

namespace PresenceTracker

theorem replay_reports {diffs : List PresenceDiff} {state : PresenceState} {changes : PresenceDiff}
    {ds : List (Delta Connection)} (hs : state.Tagged) (hd : ∀ d ∈ diffs, d.Tagged)
    (hc : changes.Reports ds) :
    ∃ changes' s', replay state changes diffs = (.ok changes', s') ∧
      changes'.Reports (ds ++ diffs.map PresenceDiff.delta) := by
  induction diffs generalizing state changes ds with
  | nil => exact ⟨changes, state, rfl, by simpa using hc⟩
  | cons diff rest ih =>
    obtain ⟨s₁, h₁, ht₁, _⟩ := syncDiff_ok hs (hd diff List.mem_cons_self)
    obtain ⟨c₂, s₂, h₂, hc₂⟩ := ih ht₁ (fun d hmem => hd d (List.mem_cons_of_mem _ hmem))
      (hc.extend (hd diff List.mem_cons_self))
    exact ⟨c₂, s₂, by simp only [replay, h₁, h₂], by simpa using hc₂⟩

/-- The changes a frame makes, one after another. -/
inductive Batch (t : PresenceTracker) (frame : Frame) : List (Delta Connection) → Prop
  | state {newState : PresenceState} (h : t.IsState frame newState) :
      Batch t frame
        (⟨newState.connections \ t.state.connections, t.state.connections \ newState.connections⟩ ::
          t.pendingDiffs.map PresenceDiff.delta)
  | diff {diff : PresenceDiff} {r : Reference} (h : t.IsDiff frame diff) (hr : t.joinRef = some r)
      (hf : frame.joinRef = some r) : Batch t frame [diff.delta]

/-- **What a synchronization does and reports.** The state takes the frame's changes one
after another, and the reported diff has them merged. -/
theorem synced_batch {t : PresenceTracker} (ht : t.Tagged) {frame : Frame} {changes : PresenceDiff}
    (h : (t.apply frame).1 = .ok (.synced changes)) :
    ∃ ds, Batch t frame ds ∧ changes.Reports ds ∧
      (t.apply frame).2.state.connections = Delta.applyAll ds t.state.connections := by
  have happ := applied ht frame
  generalize hres : (t.apply frame).1 = result at happ
  generalize hst : (t.apply frame).2 = t' at happ
  cases happ with
  | ignored | refused | queued =>
    rw [h] at hres
    cases hres
  | @diff diff state r hdiff hr hf _ hc =>
    rw [h] at hres
    cases hres
    exact ⟨_, .diff hdiff hr hf, hdiff.tagged.reports, by simpa using hc⟩
  | @state newState changes' state hstate _ hc =>
    rw [h] at hres
    cases hres
    refine ⟨_, .state hstate, ?_, ?_⟩
    · obtain ⟨payload, hp, hv⟩ := Option.map_eq_some_iff.mp hstate.payload
      obtain ⟨c₁, s₁, h₁, htc, ht₁, _, hj, hl⟩ := syncState_ok ht.state hstate.tagged
      have hc₁ : c₁.Reports
          [⟨newState.connections \ t.state.connections, t.state.connections \ newState.connections⟩] :=
        ⟨htc, by simp [hj], by simp [hl]⟩
      obtain ⟨c₂, s₂, h₂, hc₂⟩ := replay_reports ht₁ ht.pending hc₁
      rw [apply_state_eq hstate.event hp] at h
      simp only [applyState, hv, h₁, h₂] at h
      cases h
      exact hc₂
    · have hfirst : Delta.apply
          ⟨newState.connections \ t.state.connections, t.state.connections \ newState.connections⟩
          t.state.connections = newState.connections := by
        ext x
        simp only [Delta.mem_apply, Set.mem_sdiff]
        tauto
      rw [Delta.applyAll_cons, hfirst, ← hc]

end PresenceTracker
end PhoenixChannel.Runtime
