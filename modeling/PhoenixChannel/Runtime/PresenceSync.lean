import PhoenixChannel.Library.Deltas
import PhoenixChannel.Runtime.Presence

/-! What synchronization does to the connections of a presence state.

A state stands for the set of its connections: a key with one of its references. On
states whose metas all carry a reference no synchronization fails; a diff then acts as a
delta on the connections, and a full state replaces them. -/
namespace PhoenixChannel.Runtime
open Library (Table Delta)

/-- A connection: a presence key and a `phx_ref`. -/
abbrev Connection := String × String

/-- Every meta carries a reference. -/
def Presence.Tagged (p : Presence) : Prop := ∀ m ∈ p.metas, m.phxRef.isSome

/-- The references of some metas. -/
def refsOf (metas : List Meta) : List String := metas.filterMap Meta.phxRef

/-- The references of an entry. -/
def Presence.refs (p : Presence) : List String := refsOf p.metas

namespace PresenceState

def Tagged (state : PresenceState) : Prop := 
  ∀ (key : String) (p : Presence), state[key]? = some p → p.Tagged

def connections (state : PresenceState) : Set Connection :=
  { x | ∃ p, state[x.1]? = some p ∧ x.2 ∈ p.refs }

theorem mem_connections {state : PresenceState} {x : Connection} :
    x ∈ state.connections ↔ ∃ p, state[x.1]? = some p ∧ x.2 ∈ p.refs := Iff.rfl

theorem tagged_empty : Tagged ∅ := by
  intro key p h
  simp at h

@[simp] theorem connections_empty : connections ∅ = ∅ := by
  ext x
  simp [mem_connections]

/-- A tagged entry keeps the state tagged. -/
theorem Tagged.insert {state : PresenceState} (h : state.Tagged) {key : String} {p : Presence}
    (hp : p.Tagged) : Tagged (state.insert key p) := by
  intro key' p' h'
  have := h key' p'
  grind

theorem Tagged.erase {state : PresenceState} (h : state.Tagged) (key : String) :
    Tagged (state.erase key) := by
  intro key' p' h'
  have := h key' p'
  grind

/-- The connections after the entry of one key changed. -/
theorem mem_connections_insert {state : PresenceState} {key : String} {p : Presence}
    {x : Connection} :
    x ∈ connections (state.insert key p) ↔
      if x.1 = key then x.2 ∈ p.refs else x ∈ state.connections := by
  simp only [mem_connections]
  split <;> grind

theorem mem_connections_erase {state : PresenceState} {key : String} {x : Connection} :
    x ∈ connections (state.erase key) ↔ x.1 ≠ key ∧ x ∈ state.connections := by
  simp only [mem_connections]
  grind

theorem mem_connections_of {state : PresenceState} {key : String} {p : Presence}
    (h : state[key]? = some p) {x : Connection} (hx : x.1 = key) :
    x ∈ state.connections ↔ x.2 ∈ p.refs := by
  simp only [mem_connections, hx, h, Option.some.injEq, exists_eq_left']

theorem not_mem_connections_of {state : PresenceState} {key : String} (h : state[key]? = none)
    {x : Connection} (hx : x.1 = key) : x ∉ state.connections := by
  simp [mem_connections, hx, h]

theorem mem_connections_toList {state : PresenceState} {x : Connection} :
    x ∈ state.connections ↔ ∃ p, (x.1, p) ∈ state.toList ∧ x.2 ∈ p.refs := by
  simp only [mem_connections, Std.ExtTreeMap.mem_toList_iff_getElem?_eq_some]

end PresenceState
open PresenceState

/-! ### Metas and their references

Where every meta carries a reference, `refs` gives one for each meta, and filtering metas is
filtering references. -/

theorem Meta.refOrDefault_of {m : Meta} {r : String} (h : m.phxRef = some r) :
    m.refOrDefault = r := by
  simp [Meta.refOrDefault, h]

/-- Of an entry whose metas all carry a reference the references can be had. -/
theorem refs_of_tagged {p : Presence} (key : String) (h : p.Tagged) :
    refs key p.metas = .ok p.refs := by
  obtain ⟨metas, fields⟩ := p
  unfold Presence.refs
  induction metas with
  | nil => rfl
  | cons m rest ih =>
    have hm : m.phxRef.isSome := h m List.mem_cons_self
    have hrest := ih fun m' hm' => h m' (List.mem_cons_of_mem m hm')
    obtain ⟨r, hr⟩ := Option.isSome_iff_exists.mp hm
    have hr' : metaRef key m = .ok r := by simp [metaRef, hr]
    have htail : rest.mapM (metaRef key) = .ok (refsOf rest) := hrest
    simp only [refs, List.mapM_cons, refsOf, List.filterMap_cons, hr, hr', htail]
    rfl

/-- The references left when the metas with one in `rs` go. -/
theorem mem_refsOf_filter {metas : List Meta} {rs : List String} {r : String} :
    r ∈ refsOf (metas.filter fun m => !rs.contains m.refOrDefault) ↔ r ∈ refsOf metas ∧ r ∉ rs := by
  simp only [refsOf, List.mem_filterMap, List.mem_filter]
  constructor
  · rintro ⟨m, ⟨hm, hkeep⟩, hr⟩
    rw [Meta.refOrDefault_of hr] at hkeep
    exact ⟨⟨m, hm, hr⟩, by simpa using hkeep⟩
  · rintro ⟨⟨m, hm, hr⟩, hkeep⟩
    exact ⟨m, ⟨hm, by simpa [Meta.refOrDefault_of hr] using hkeep⟩, hr⟩

theorem Presence.Tagged.filter {p : Presence} (h : p.Tagged) (f : Meta → Bool) (fields : Members) :
    Presence.Tagged ⟨p.metas.filter f, fields⟩ :=
  fun m hm => h m (List.mem_of_mem_filter hm)

/-! ### Diffs

Each entry adds or removes connections of its own key, so the whole diff is one delta. -/

/-- A joined entry adds its connections to those of the state. -/
theorem joinEntry_ok {state : PresenceState} {key : String} {joined : Presence} (hs : state.Tagged)
    (hj : joined.Tagged) :
    ∃ s', joinEntry state key joined = .ok s' ∧ s'.Tagged ∧
      ∀ x, x ∈ s'.connections ↔ x ∈ state.connections ∨ (x.1 = key ∧ x.2 ∈ joined.refs) := by
  unfold joinEntry
  rw [refs_of_tagged key hj]
  cases hc : state[key]? with
  | none =>
    refine ⟨_, rfl, hs.insert hj, fun x => ?_⟩
    rw [mem_connections_insert]
    by_cases hx : x.1 = key
    · simp [hx, not_mem_connections_of hc hx]
    · simp [hx]
  | some current =>
    refine ⟨_, rfl, hs.insert ?_, fun x => ?_⟩
    · intro m hm
      rcases List.mem_append.mp hm with hm | hm
      · exact hs key current hc m (List.mem_of_mem_filter hm)
      · exact hj m hm
    · rw [mem_connections_insert]
      by_cases hx : x.1 = key
      -- a reference that joins again is dropped from the old metas and comes back with the new
      · rw [if_pos hx, mem_connections_of hc hx]
        show x.2 ∈ refsOf (_ ++ joined.metas) ↔ _
        rw [refsOf, List.filterMap_append, List.mem_append]
        show x.2 ∈ refsOf _ ∨ x.2 ∈ joined.refs ↔ x.2 ∈ refsOf current.metas ∨ _
        rw [mem_refsOf_filter]
        by_cases hr : x.2 ∈ joined.refs <;> simp [hx, hr]
      · simp [hx]

/-- A left entry takes its connections from those of the state. -/
theorem leaveEntry_ok {state : PresenceState} {key : String} {left : Presence} (hs : state.Tagged)
    (hl : left.Tagged) :
    ∃ s', leaveEntry state key left = .ok s' ∧ s'.Tagged ∧
      ∀ x, x ∈ s'.connections ↔ x ∈ state.connections ∧ ¬ (x.1 = key ∧ x.2 ∈ left.refs) := by
  unfold leaveEntry
  rw [refs_of_tagged key hl]
  cases hc : state[key]? with
  | none =>
    refine ⟨_, rfl, hs, fun x => ?_⟩
    by_cases hx : x.1 = key
    · simp [not_mem_connections_of hc hx]
    · simp [hx]
  | some current =>
    have hkept := fun r => @mem_refsOf_filter current.metas left.refs r
    dsimp only
    split
    · rename_i hempty
      refine ⟨_, rfl, hs.erase key, fun x => ?_⟩
      rw [mem_connections_erase]
      by_cases hx : x.1 = key
      · rw [mem_connections_of hc hx]
        have hnone := hkept x.2
        rw [List.isEmpty_iff.mp hempty] at hnone
        have hall : x.2 ∈ current.refs → x.2 ∈ left.refs := fun hr => by
          by_contra hl
          exact absurd (hnone.mpr ⟨hr, hl⟩) (by simp [refsOf])
        simp [hx]
        exact hall
      · simp [hx]
    · refine ⟨_, rfl, hs.insert ((hs key current hc).filter _ _), fun x => ?_⟩
      rw [mem_connections_insert]
      by_cases hx : x.1 = key
      · rw [if_pos hx, mem_connections_of hc hx]
        show x.2 ∈ refsOf _ ↔ x.2 ∈ refsOf current.metas ∧ _
        rw [hkept]
        simp [hx]
      · simp [hx]

/-- The joins of a diff add all their connections, in whatever order. -/
theorem joinEach_ok {entries : List (String × Presence)} {state : PresenceState} (hs : state.Tagged)
    (he : ∀ e ∈ entries, e.2.Tagged) :
    ∃ s', eachEntry joinEntry state entries = (.ok (), s') ∧ s'.Tagged ∧
      ∀ x, x ∈ s'.connections ↔
        x ∈ state.connections ∨ ∃ p, (x.1, p) ∈ entries ∧ x.2 ∈ p.refs := by
  induction entries generalizing state with
  | nil => exact ⟨state, rfl, hs, by simp⟩
  | cons entry rest ih =>
    obtain ⟨key, joined⟩ := entry
    obtain ⟨s₁, h₁, ht₁, hm₁⟩ := @joinEntry_ok _ key _ hs (he _ List.mem_cons_self)
    obtain ⟨s₂, h₂, ht₂, hm₂⟩ := ih ht₁ fun e hmem => he e (List.mem_cons_of_mem _ hmem)
    refine ⟨s₂, by simp only [eachEntry, h₁, h₂], ht₂, fun x => ?_⟩
    rw [hm₂, hm₁]
    simp only [List.mem_cons, Prod.mk.injEq]
    grind

/-- The leaves of a diff take all their connections, in whatever order. -/
theorem leaveEach_ok {entries : List (String × Presence)} {state : PresenceState} (hs : state.Tagged)
    (he : ∀ e ∈ entries, e.2.Tagged) :
    ∃ s', eachEntry leaveEntry state entries = (.ok (), s') ∧ s'.Tagged ∧
      ∀ x, x ∈ s'.connections ↔
        x ∈ state.connections ∧ ¬ ∃ p, (x.1, p) ∈ entries ∧ x.2 ∈ p.refs := by
  induction entries generalizing state with
  | nil => exact ⟨state, rfl, hs, by simp⟩
  | cons entry rest ih =>
    obtain ⟨key, left⟩ := entry
    obtain ⟨s₁, h₁, ht₁, hm₁⟩ := @leaveEntry_ok _ key _ hs (he _ List.mem_cons_self)
    obtain ⟨s₂, h₂, ht₂, hm₂⟩ := ih ht₁ fun e hmem => he e (List.mem_cons_of_mem _ hmem)
    refine ⟨s₂, by simp only [eachEntry, h₁, h₂], ht₂, fun x => ?_⟩
    rw [hm₂, hm₁]
    simp only [List.mem_cons, Prod.mk.injEq]
    grind

/-- Both sides of a diff carry references. -/
structure PresenceDiff.Tagged (diff : PresenceDiff) : Prop where
  joins : diff.joins.Tagged
  leaves : diff.leaves.Tagged

/-- What a diff does to the connections. -/
def PresenceDiff.delta (diff : PresenceDiff) : Delta Connection :=
  ⟨diff.joins.connections, diff.leaves.connections⟩

theorem PresenceState.Tagged.entries {state : PresenceState} (h : state.Tagged) :
    ∀ e ∈ state.toList, e.2.Tagged := fun e he =>
  h e.1 e.2 (Std.ExtTreeMap.mem_toList_iff_getElem?_eq_some.mp he)

/-- A diff never fails, and acts as its delta. -/
theorem syncDiff_ok {state : PresenceState} {diff : PresenceDiff} (hs : state.Tagged)
    (hd : diff.Tagged) :
    ∃ s', syncDiff state diff = (.ok diff, s') ∧ s'.Tagged ∧
      s'.connections = diff.delta.apply state.connections := by
  obtain ⟨s₁, h₁, ht₁, hm₁⟩ := joinEach_ok hs hd.joins.entries
  obtain ⟨s₂, h₂, ht₂, hm₂⟩ := leaveEach_ok ht₁ hd.leaves.entries
  refine ⟨s₂, by simp only [syncDiff, h₁, h₂], ht₂, ?_⟩
  ext x
  rw [hm₂, hm₁, Delta.mem_apply, ← mem_connections_toList, ← mem_connections_toList]
  rfl

/-! ### Full states

What the comparison of two states calls joins and leaves is their difference, as connections. -/

/-- Metas are recorded under a key that had none, so nothing is overwritten. -/
theorem insertMetas_ok {state : PresenceState} {key : String} {p : Presence} {metas : List Meta}
    (hs : state.Tagged) (hp : ∀ m ∈ metas, m.phxRef.isSome) (hk : state[key]? = none) :
    (insertMetas state key p metas).Tagged ∧
      (∀ k, k ≠ key → (insertMetas state key p metas)[k]? = state[k]?) ∧
      ∀ x, x ∈ (insertMetas state key p metas).connections ↔
        x ∈ state.connections ∨ (x.1 = key ∧ x.2 ∈ refsOf metas) := by
  unfold insertMetas
  cases metas with
  | nil => exact ⟨hs, fun _ _ => rfl, fun x => by simp [refsOf]⟩
  | cons m rest =>
    refine ⟨hs.insert hp, fun k hne => ?_, fun x => ?_⟩
    · simp only [List.isEmpty_cons, Bool.false_eq_true, if_false]
      grind
    · rw [if_neg (by simp), mem_connections_insert]
      by_cases hx : x.1 = key
      · simp [hx, not_mem_connections_of hk hx, Presence.refs]
      · simp [hx]

/-- An entry in both states is compared meta by meta, in both directions. -/
theorem compareEntry_of_some {state : PresenceState} {changes : PresenceDiff} {key : String}
    {newPresence current : Presence} (hcur : state[key]? = some current) (hc : current.Tagged)
    (hn : newPresence.Tagged) :
    compareEntry state changes key newPresence =
      .ok ⟨insertMetas changes.joins key newPresence
          (newPresence.metas.filter fun m => !current.refs.contains m.refOrDefault),
        insertMetas changes.leaves key current
          (current.metas.filter fun m => !newPresence.refs.contains m.refOrDefault)⟩ := by
  simp only [compareEntry, hcur, refs_of_tagged key hc, refs_of_tagged key hn]

/-- Comparing one key adds that key's changes, and touches no other key. -/
theorem compareEntry_ok {state : PresenceState} {changes : PresenceDiff} {key : String}
    {newPresence : Presence} (hs : state.Tagged) (hc : changes.Tagged) (hn : newPresence.Tagged)
    (hj : changes.joins[key]? = none) (hl : changes.leaves[key]? = none) :
    ∃ c', compareEntry state changes key newPresence = .ok c' ∧ c'.Tagged ∧
      (∀ k, k ≠ key → c'.joins[k]? = changes.joins[k]? ∧ c'.leaves[k]? = changes.leaves[k]?) ∧
      (∀ x, x ∈ c'.joins.connections ↔ x ∈ changes.joins.connections ∨
        (x.1 = key ∧ x.2 ∈ newPresence.refs ∧ x ∉ state.connections)) ∧
      (∀ x, x ∈ c'.leaves.connections ↔ x ∈ changes.leaves.connections ∨
        (x.1 = key ∧ x.2 ∉ newPresence.refs ∧ x ∈ state.connections)) := by
  cases hcur : state[key]? with
  | none =>
    refine ⟨⟨changes.joins.insert key newPresence, changes.leaves⟩, by simp only [compareEntry, hcur],
      ⟨hc.joins.insert hn, hc.leaves⟩, fun k hk => ⟨by grind, rfl⟩, fun x => ?_, fun x => ?_⟩
    · rw [mem_connections_insert]
      by_cases hx : x.1 = key
      · simp [hx, not_mem_connections_of hcur hx, not_mem_connections_of hj hx]
      · simp [hx]
    · by_cases hx : x.1 = key
      · simp [not_mem_connections_of hcur hx]
      · simp [hx]
  | some current =>
    have hcurrent := hs key current hcur
    obtain ⟨htj, hkj, hmj⟩ := insertMetas_ok (p := newPresence) hc.joins
      (hn.filter (fun m => !current.refs.contains m.refOrDefault) newPresence.fields) hj
    obtain ⟨htl, hkl, hml⟩ := insertMetas_ok (p := current) hc.leaves
      (hcurrent.filter (fun m => !newPresence.refs.contains m.refOrDefault) current.fields) hl
    refine ⟨_, compareEntry_of_some hcur hcurrent hn, ⟨htj, htl⟩, fun k hk => ⟨hkj k hk, hkl k hk⟩,
      fun x => ?_, fun x => ?_⟩
    · rw [hmj, mem_refsOf_filter]
      by_cases hx : x.1 = key
      · rw [mem_connections_of hcur hx]
        rfl
      · simp [hx]
    · rw [hml, mem_refsOf_filter]
      by_cases hx : x.1 = key
      · rw [mem_connections_of hcur hx]
        show _ ∨ x.1 = key ∧ x.2 ∈ current.refs ∧ _ ↔ _
        rw [and_comm (a := x.2 ∈ current.refs)]
      · simp [hx]

/-- The comparison gathers, for each key, what is in the one state and not in the other. -/
theorem compareEntries_ok {entries : List (String × Presence)} {state : PresenceState}
    {changes : PresenceDiff} (hs : state.Tagged) (hc : changes.Tagged)
    (he : ∀ e ∈ entries, e.2.Tagged) (hnd : (entries.map Prod.fst).Nodup)
    (hj : ∀ e ∈ entries, changes.joins[e.1]? = none)
    (hl : ∀ e ∈ entries, changes.leaves[e.1]? = none) :
    ∃ c', compareEntries state changes entries = .ok c' ∧ c'.Tagged ∧
      (∀ x, x ∈ c'.joins.connections ↔ x ∈ changes.joins.connections ∨
        ((∃ p, (x.1, p) ∈ entries ∧ x.2 ∈ p.refs) ∧ x ∉ state.connections)) ∧
      (∀ x, x ∈ c'.leaves.connections ↔ x ∈ changes.leaves.connections ∨
        ((∃ p, (x.1, p) ∈ entries ∧ x.2 ∉ p.refs) ∧ x ∈ state.connections)) := by
  induction entries generalizing changes with
  | nil => exact ⟨changes, rfl, hc, by simp, by simp⟩
  | cons entry rest ih =>
    obtain ⟨key, p⟩ := entry
    obtain ⟨hkey, hrest⟩ := List.nodup_cons.mp hnd
    obtain ⟨c₁, h₁, ht₁, hother, hmj₁, hml₁⟩ := compareEntry_ok hs hc (he _ List.mem_cons_self)
      (hj _ List.mem_cons_self) (hl _ List.mem_cons_self)
    have hne : ∀ e ∈ rest, e.1 ≠ key := fun e hmem heq =>
      hkey (List.mem_map.mpr ⟨e, hmem, heq⟩)
    obtain ⟨c₂, h₂, ht₂, hmj₂, hml₂⟩ := ih ht₁ (fun e hmem => he e (List.mem_cons_of_mem _ hmem))
      hrest
      (fun e hmem => by
        rw [(hother e.1 (hne e hmem)).1]
        exact hj e (List.mem_cons_of_mem _ hmem))
      (fun e hmem => by
        rw [(hother e.1 (hne e hmem)).2]
        exact hl e (List.mem_cons_of_mem _ hmem))
    refine ⟨c₂, by simp only [compareEntries, h₁, h₂], ht₂, fun x => ?_, fun x => ?_⟩
    · rw [hmj₂, hmj₁]
      simp only [List.mem_cons, Prod.mk.injEq]
      grind
    · rw [hml₂, hml₁]
      simp only [List.mem_cons, Prod.mk.injEq]
      grind

/-- **A full state never fails and replaces the connections**; the changes it reports are
exactly the differences. -/
theorem syncState_ok {state newState : PresenceState} (hs : state.Tagged) (hn : newState.Tagged) :
    ∃ changes s', syncState state newState = (.ok changes, s') ∧ changes.Tagged ∧ s'.Tagged ∧
      s'.connections = newState.connections ∧
      changes.joins.connections = newState.connections \ state.connections ∧
      changes.leaves.connections = state.connections \ newState.connections := by
  have hgone : Tagged (state.filter fun key _ => !newState.contains key) := by
    intro key p hp
    refine hs key p ?_
    grind
  have hgone_mem : ∀ x, x ∈ connections (state.filter fun key _ => !newState.contains key) ↔
      x ∈ state.connections ∧ newState[x.1]? = none := by
    intro x
    simp only [mem_connections]
    grind
  obtain ⟨changes, hc, htc, hmj, hml⟩ := @compareEntries_ok newState.toList state
    ⟨∅, state.filter fun key _ => !newState.contains key⟩ hs ⟨tagged_empty, hgone⟩ hn.entries
    (Table.nodup_map_fst_toList newState) (by simp) (fun e he => by
      have := Std.ExtTreeMap.mem_toList_iff_getElem?_eq_some.mp he
      grind)
  obtain ⟨s', hd, hts, hms⟩ := syncDiff_ok hs htc
  have hjoins : changes.joins.connections = newState.connections \ state.connections := by
    ext x
    rw [hmj, ← mem_connections_toList]
    simp
  have hleaves : changes.leaves.connections = state.connections \ newState.connections := by
    ext x
    rw [hml, Set.mem_sdiff]
    show x ∈ connections (state.filter fun key _ => !newState.contains key) ∨ _ ↔ _
    simp only [hgone_mem, Std.ExtTreeMap.mem_toList_iff_getElem?_eq_some]
    -- a key is either gone from the full state or compared with its entry there
    cases hx : newState[x.1]? with
    | none => simp [not_mem_connections_of hx rfl]
    | some p => simp [mem_connections_of hx rfl, and_comm]
  refine ⟨changes, s', ?_, htc, hts, ?_, hjoins, hleaves⟩
  · unfold syncState
    dsimp only
    rw [hc]
    dsimp only
    rw [hd]
  · rw [hms]
    ext x
    simp only [PresenceDiff.delta, Delta.mem_apply, hjoins, hleaves, Set.mem_sdiff]
    tauto

/-! ### Decoded values

A decoded meta carries a reference, so what comes off the wire is tagged. -/

/-- Decoding asks every meta for its reference. -/
theorem metaFromValue_tagged {key : String} {value : Value} {m : Meta}
    (h : Presence.metaFromValue key value = .ok m) : m.phxRef.isSome := by
  unfold Presence.metaFromValue at h
  split at h
  · cases h
  split at h
  · cases h
  · rename_i hr
    cases h
    unfold metaRef at hr
    split at hr
    · rename_i hs
      rw [hs]
      rfl
    · cases hr

/-- All metas of a list that was decoded carry one. -/
theorem metas_tagged {key : String} {items : List Value} {metas : List Meta}
    (h : items.mapM (Presence.metaFromValue key) = .ok metas) : ∀ m ∈ metas, m.phxRef.isSome := by
  induction items generalizing metas with
  | nil =>
    cases h
    simp
  | cons item rest ih =>
    rw [List.mapM_cons] at h
    cases hm : Presence.metaFromValue key item with
    | error e =>
      rw [hm] at h
      cases h
    | ok m =>
      cases hrest : rest.mapM (Presence.metaFromValue key) with
      | error e =>
        rw [hm, hrest] at h
        cases h
      | ok ms =>
        rw [hm, hrest] at h
        cases h
        intro m' hm'
        rcases List.mem_cons.mp hm' with rfl | hm'
        · exact metaFromValue_tagged hm
        · exact ih hrest m' hm'

/-- A decoded entry is tagged. -/
theorem Presence.fromValue_tagged {key : String} {value : Value} {p : Presence}
    (h : Presence.fromValue key value = .ok p) : p.Tagged := by
  unfold Presence.fromValue at h
  split at h
  · cases h
  split at h
  · cases h
  split at h
  · cases h
  · rename_i hm
    cases h
    exact metas_tagged hm

/-- A state stays tagged while the members of a value are decoded into it. -/
theorem PresenceState.fromMembers_tagged {members : Members} {state s' : PresenceState}
    (hs : state.Tagged) (h : state.fromMembers members = .ok s') : s'.Tagged := by
  induction members generalizing state with
  | nil =>
    cases h
    exact hs
  | cons member rest ih =>
    obtain ⟨key, value⟩ := member
    unfold PresenceState.fromMembers at h
    split at h
    · cases h
    · rename_i hp
      exact ih (hs.insert (Presence.fromValue_tagged hp)) h

/-- A decoded state is tagged. -/
theorem PresenceState.fromValue_tagged {value : Value} {state : PresenceState}
    (h : PresenceState.fromValue value = .ok state) : state.Tagged := by
  unfold PresenceState.fromValue at h
  split at h
  · cases h
  · exact PresenceState.fromMembers_tagged tagged_empty h

/-- A decoded diff is tagged on both sides. -/
theorem PresenceDiff.fromValue_tagged {value : Value} {diff : PresenceDiff}
    (h : PresenceDiff.fromValue value = .ok diff) : diff.Tagged := by
  unfold PresenceDiff.fromValue at h
  split at h
  · cases h
  split at h
  · split at h
    · cases h
    split at h
    · cases h
    · rename_i hj _ _ hl
      cases h
      exact ⟨PresenceState.fromValue_tagged hj, PresenceState.fromValue_tagged hl⟩
  · cases h

end PhoenixChannel.Runtime
