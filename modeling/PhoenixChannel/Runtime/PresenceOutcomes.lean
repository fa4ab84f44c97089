import PhoenixChannel.Runtime.PresenceConvergence

/-! What synchronization results in.

A frame is refused for its own payload only, and a refused frame changes nothing. A full state
is reached key by key, and the changes it reports are those between the two. -/
namespace PhoenixChannel.Runtime
open Library

namespace PresenceTracker

/-- Why a frame cannot be decoded. -/
inductive Undecodable (t : PresenceTracker) (frame : Frame) : PresenceError → Prop where
  | binary (he : frame.event = t.stateEvent ∨ frame.event = t.diffEvent)
      (hp : frame.payload.asJson = none) : Undecodable t frame .binaryPayload
  | state {payload : Value} {e : PresenceError} (he : frame.event = t.stateEvent)
      (hp : frame.payload.asJson = some payload) (hv : PresenceState.fromValue payload = .error e) :
    Undecodable t frame e
  | diff {payload : Value} {e : PresenceError} (he : frame.event = t.diffEvent)
      (hn : frame.event ≠ t.stateEvent) (hp : frame.payload.asJson = some payload)
      (hv : PresenceDiff.fromValue payload = .error e) : Undecodable t frame e

/-- Nothing but decoding fails, as long as every meta that is held carries a reference. -/
theorem undecodable_of_error {t t' : PresenceTracker} (ht : t.Tagged) {frame : Frame} {e : PresenceError}
    (h : t.apply frame = (.error e, t')) : t.Undecodable frame e := by
  by_cases hi : frame.event ≠ t.stateEvent ∧ frame.event ≠ t.diffEvent
  · rw [show t.apply frame = (.ok .ignored, t) from if_pos hi] at h
    cases h
  have hlistens : frame.event = t.stateEvent ∨ frame.event = t.diffEvent := by
    by_contra hne
    exact hi (not_or.mp hne)
  cases hp : frame.payload.asJson with
  | none =>
    rw [show t.apply frame = (.error .binaryPayload, t) by simp only [apply, if_neg hi, hp]] at h
    cases h
    exact .binary hlistens hp
  | some payload =>
    by_cases he : frame.event = t.stateEvent
    · cases hv : PresenceState.fromValue payload with
      | error e' =>
        rw [apply_state_eq he hp, show t.applyState frame payload = (.error e', t) by
          simp only [applyState, hv]] at h
        cases h
        exact .state he hp hv
      | ok newState =>
        obtain ⟨changes, state, ha, -⟩ := apply_state ht ⟨he, by rw [hp, Option.map_some, hv]⟩
        rw [ha] at h
        cases h
    · have hd := hlistens.resolve_left he
      cases hv : PresenceDiff.fromValue payload with
      | error e' =>
        rw [apply_diff_eq hd he hp, show t.applyDiff frame payload = (.error e', t) by
          simp only [applyDiff, hv]] at h
        cases h
        exact .diff hd he hp hv
      | ok diff =>
        have hdiff : t.IsDiff frame diff := ⟨hd, he, by rw [hp, Option.map_some, hv]⟩
        by_cases hr : t.joinRef = none ∨ t.joinRef ≠ frame.joinRef
        · rw [apply_diff_queued hdiff hr] at h
          cases h
        · obtain ⟨hsome, heq⟩ := not_or.mp hr
          obtain ⟨r, hjoin⟩ := Option.ne_none_iff_exists'.mp hsome
          have hf : frame.joinRef = some r := by rw [← not_not.mp heq, hjoin]
          obtain ⟨state, ha, -⟩ := apply_diff_now ht hdiff hjoin hf
          rw [ha] at h
          cases h

/-- **A frame that fails to apply leaves the tracker as it was**, and fails for its own payload. -/
theorem failed_frame_changes_nothing {stateEvent diffEvent : String} {t : PresenceTracker}
    (h : (machine stateEvent diffEvent).Reachable t) :
    t.Tagged ∧ ∀ (frame : Frame) (e : PresenceError) (t' : PresenceTracker),
      t.apply frame = (.error e, t') → t' = t ∧ t.Undecodable frame e := by
  have ht := tagged_of_reachable h
  refine ⟨ht, fun frame e t' hf => ⟨?_, undecodable_of_error ht hf⟩⟩
  have ha := applied ht frame
  rw [hf] at ha
  cases ha with
  | refused => rfl

/-- Ada is there, by the full state of a join. -/
def adaState : Frame :=
  ⟨some "1", none, "room", "presence_state", .json (.object
    [("ada", .object [("metas", .array [.object [("phx_ref", .string "a")]])])])⟩

/-- Nothing has changed, by a diff of another join. -/
def otherDiff : Frame :=
  ⟨some "2", none, "room", "presence_diff", .json (.object [("joins", .object []), ("leaves", .object [])])⟩

/-- A diff without its leaves. -/
def halfDiff : Frame := ⟨some "1", none, "room", "presence_diff", .json (.object [("joins", .object [])])⟩

/-- A tracker that has a state and a queued diff is sent half a diff. -/
theorem failed_frame_changes_nothing_halfDiff :
    ∃ (t : PresenceTracker) (e : PresenceError) (t' : PresenceTracker),
      (t.state["ada"]?).isSome ∧ t.joinRef = some "1" ∧ t.pendingDiffs.length = 1 ∧
      t.apply halfDiff = (.error e, t') ∧ t' = t ∧ t.Undecodable halfDiff e := by
  obtain ⟨t, hr, ht⟩ := Machine.reachable_of_run (machine "presence_state" "presence_diff")
    [.apply adaState, .apply otherDiff]
    (fun t => (t.state["ada"]?).isSome ∧ t.joinRef = some "1" ∧ t.pendingDiffs.length = 1 ∧
      (t.apply halfDiff).1.toOption.isNone) (by decide +kernel)
  obtain ⟨hada, hjoin, hqueued, hfails⟩ := of_decide_eq_true ht
  rcases hf : t.apply halfDiff with ⟨e | update, t'⟩ <;> rw [hf] at hfails
  · obtain ⟨hsame, hundecodable⟩ := (failed_frame_changes_nothing hr).2 halfDiff e t' hf
    exact ⟨t, e, t', hada, hjoin, hqueued, hf, hsame, hundecodable⟩
  · cases hfails

end PresenceTracker

namespace PresenceState

/-- The references under a key. A missing key has none. -/
def refsAt (state : PresenceState) (key : String) : List String := (state[key]?).elim [] Presence.refs

theorem mem_refsAt {state : PresenceState} {key r : String} :
    r ∈ state.refsAt key ↔ (key, r) ∈ state.connections := by
  simp only [refsAt, mem_connections]
  cases hp : state[key]? with
  | none => simp
  | some p => simp

end PresenceState

/-- **A full state is reached, and its changes are reported exactly.** -/
theorem full_state_reached {state newState : PresenceState} (hs : state.Tagged) (hn : newState.Tagged) :
    ∃ changes state', syncState state newState = (.ok changes, state') ∧ ∀ key r,
      (r ∈ state'.refsAt key ↔ r ∈ newState.refsAt key) ∧
      (r ∈ changes.joins.refsAt key ↔ r ∈ newState.refsAt key ∧ r ∉ state.refsAt key) ∧
      (r ∈ changes.leaves.refsAt key ↔ r ∈ state.refsAt key ∧ r ∉ newState.refsAt key) := by
  obtain ⟨changes, state', hok, -, -, hconnections, hjoins, hleaves⟩ := syncState_ok hs hn
  refine ⟨changes, state', hok, fun key r => ?_⟩
  simp only [PresenceState.mem_refsAt]
  exact ⟨by rw [hconnections], by rw [hjoins]; rfl, by rw [hleaves]; rfl⟩

/-- Ada comes and Bob goes. -/
theorem full_state_reached_ada :
    ∃ changes state', syncState ((∅ : PresenceState).insert "bob" ⟨[[("phx_ref", .string "b")]], []⟩)
        ((∅ : PresenceState).insert "ada" ⟨[[("phx_ref", .string "a")]], []⟩) = (.ok changes, state') ∧
      "a" ∈ state'.refsAt "ada" := by
  have htagged : ∀ r : String, Presence.Tagged ⟨[[("phx_ref", .string r)]], []⟩ := by
    intro r m hm
    cases List.mem_singleton.mp hm
    rfl
  obtain ⟨changes, state', hok, hrefs⟩ := full_state_reached
    (PresenceState.tagged_empty.insert (htagged "b")) (PresenceState.tagged_empty.insert (htagged "a"))
  refine ⟨changes, state', hok, (hrefs "ada" "a").1.mpr ?_⟩
  simp [PresenceState.refsAt, Presence.refs, refsOf, Meta.phxRef, Members.get, Value.asStr]

end PhoenixChannel.Runtime
