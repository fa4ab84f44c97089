import PhoenixChannel.Runtime.PresenceSync
import Mathlib.Data.List.Nodup
import Mathlib.Data.List.Perm.Basic

/-! What a full state leaves of the entries that were there.

`syncState` works on each key by itself: `replaced` is what it makes of the entry of a key and the
one of the full state. Metas are told apart by their references only, so one that is in both keeps
its old contents, and an entry that gains no meta keeps its old fields. -/
namespace PhoenixChannel.Runtime
open Library (Table)

namespace Presence

/-- The entry with other metas, or none without metas. -/
def withMetas (p : Presence) (metas : List Meta) : Option Presence :=
  if metas.isEmpty then none else some { p with metas }

/-- The metas that are not among those of `other`. -/
def metasBeyond (p other : Presence) : List Meta :=
  p.metas.filter fun m => !other.refs.contains m.refOrDefault

/-- An entry that joins one that may be there. -/
def joinedBy (joined : Presence) : Option Presence → Presence
  | none => joined
  | some current => { joined with metas := current.metasBeyond joined ++ joined.metas }

/-- What an entry leaves of the one that is there. -/
def leftBy (left current : Presence) : Option Presence := current.withMetas (current.metasBeyond left)

/-- What joins with a new entry. -/
def joinedSince (p : Presence) : Option Presence → Option Presence
  | none => some p
  | some current => p.withMetas (p.metasBeyond current)

/-- What leaves with a new entry. -/
def leftSince (p : Presence) (current : Option Presence) : Option Presence :=
  current.bind fun current => current.withMetas (current.metasBeyond p)

end Presence

/-- What a full state makes of one key. -/
def replaced (current new : Option Presence) : Option Presence :=
  let joined := new.bind fun new => new.joinedSince current
  let left := new.elim current fun new => new.leftSince current
  let merged := joined.elim current fun joined => some (joined.joinedBy current)
  left.elim merged fun left => merged.bind left.leftBy

/-! ### Key by key

Each loop over entries does to a key what its own step does, once, whatever the order of the keys. -/

theorem joinEntry_lookup (state : PresenceState) (key : String) {joined : Presence} (hj : joined.Tagged) :
    ∃ s', joinEntry state key joined = .ok s' ∧
      ∀ k : String, s'[k]? = if k = key then some (joined.joinedBy state[key]?) else state[k]? := by
  unfold joinEntry
  rw [refs_of_tagged key hj]
  cases hc : state[key]? with
  | none => exact ⟨_, rfl, fun k => by rw [Table.lookup_insert]; rfl⟩
  | some current => exact ⟨_, rfl, fun k => by rw [Table.lookup_insert]; rfl⟩

theorem leaveEntry_lookup (state : PresenceState) (key : String) {left : Presence} (hl : left.Tagged) :
    ∃ s', leaveEntry state key left = .ok s' ∧
      ∀ k : String, s'[k]? = if k = key then state[key]?.bind left.leftBy else state[k]? := by
  unfold leaveEntry
  rw [refs_of_tagged key hl]
  cases hc : state[key]? with
  | none =>
    refine ⟨_, rfl, fun k => ?_⟩
    split
    · rename_i hk
      rw [hk, hc]
      rfl
    · rfl
  | some current =>
    simp only [Option.bind_some, Presence.leftBy, Presence.withMetas]
    by_cases hempty : (current.metasBeyond left).isEmpty = true
    · exact ⟨_, if_pos hempty, fun k => by rw [Table.lookup_erase, if_pos hempty]⟩
    · exact ⟨_, if_neg hempty, fun k => by rw [Table.lookup_insert, if_neg hempty]; rfl⟩

/-- A loop over entries does each key by itself. -/
theorem eachEntry_ok (f : PresenceState → String → Presence → Except PresenceError PresenceState)
    (g : Presence → Option Presence → Option Presence)
    (hf : ∀ (state : PresenceState) (key : String) (p : Presence), p.Tagged →
      ∃ s', f state key p = .ok s' ∧
        ∀ k : String, s'[k]? = if k = key then g p state[key]? else state[k]?)
    {entries : List (String × Presence)} (ht : ∀ e ∈ entries, e.2.Tagged)
    (hnd : (entries.map Prod.fst).Nodup) (state : PresenceState) :
    ∃ s', eachEntry f state entries = (.ok (), s') ∧
      ∀ k : String, s'[k]? = (entries.lookup k).elim state[k]? fun p => g p state[k]? := by
  induction entries generalizing state with
  | nil => exact ⟨state, rfl, fun _ => rfl⟩
  | cons entry rest ih =>
    obtain ⟨key, p⟩ := entry
    obtain ⟨hkey, hrest⟩ := List.nodup_cons.mp hnd
    obtain ⟨s₁, h₁, hl₁⟩ := hf state key p (ht _ List.mem_cons_self)
    obtain ⟨s₂, h₂, hl₂⟩ := ih (fun e hm => ht e (List.mem_cons_of_mem _ hm)) hrest s₁
    refine ⟨s₂, by simp only [eachEntry, h₁, h₂], fun k => ?_⟩
    rw [hl₂, hl₁, Table.lookup_cons_eq]
    by_cases hk : k = key
    · subst hk
      simp [Table.lookup_of_not_mem hkey]
    · simp [hk]

/-- A loop over the entries of a table does each key by itself. -/
theorem eachEntry_lookup (f : PresenceState → String → Presence → Except PresenceError PresenceState)
    (g : Presence → Option Presence → Option Presence)
    (hf : ∀ (state : PresenceState) (key : String) (p : Presence), p.Tagged →
      ∃ s', f state key p = .ok s' ∧
        ∀ k : String, s'[k]? = if k = key then g p state[key]? else state[k]?)
    {source : PresenceState} (hs : source.Tagged) (state : PresenceState) :
    ∃ s', eachEntry f state source.toList = (.ok (), s') ∧
      ∀ k : String, s'[k]? = source[k]?.elim state[k]? fun p => g p state[k]? := by
  obtain ⟨s', hok, hl⟩ := eachEntry_ok f g hf hs.entries (Table.nodup_map_fst_toList source) state
  exact ⟨s', hok, fun k => by rw [hl, Table.lookup_toList]⟩

theorem syncDiff_lookup (state : PresenceState) {diff : PresenceDiff} (hd : diff.Tagged) :
    ∃ s', syncDiff state diff = (.ok diff, s') ∧ ∀ k : String, s'[k]? =
      (diff.leaves[k]?).elim (diff.joins[k]?.elim state[k]? fun p => some (p.joinedBy state[k]?)) fun left =>
        (diff.joins[k]?.elim state[k]? fun p => some (p.joinedBy state[k]?)).bind left.leftBy := by
  obtain ⟨s₁, h₁, hl₁⟩ := eachEntry_lookup joinEntry (fun p current => some (p.joinedBy current))
    (fun s key _ hp => joinEntry_lookup s key hp) hd.joins state
  obtain ⟨s₂, h₂, hl₂⟩ := eachEntry_lookup leaveEntry (fun p current => current.bind p.leftBy)
    (fun s key _ hp => leaveEntry_lookup s key hp) hd.leaves s₁
  refine ⟨s₂, by simp only [syncDiff, h₁, h₂], fun k => ?_⟩
  rw [hl₂, hl₁]

theorem insertMetas_lookup {state : PresenceState} {key : String} (hk : state[key]? = none) (p : Presence)
    (metas : List Meta) (k : String) :
    (insertMetas state key p metas)[k]? = if k = key then p.withMetas metas else state[k]? := by
  unfold insertMetas Presence.withMetas
  split
  · split
    · rename_i he
      rw [he, hk]
    · rfl
  · exact Table.lookup_insert ..

/-- Entries that two states have under one key carry references. -/
def Comparable (state newState : PresenceState) : Prop :=
  ∀ (key : String) (current new : Presence), state[key]? = some current → newState[key]? = some new →
    current.Tagged ∧ new.Tagged

/-- Comparing one key finds what joins and what leaves under it. -/
theorem compareEntry_lookup {state : PresenceState} {changes : PresenceDiff} {key : String} {new : Presence}
    (hs : ∀ current, state[key]? = some current → current.Tagged ∧ new.Tagged)
    (hj : changes.joins[key]? = none) (hl : changes.leaves[key]? = none) :
    ∃ c', compareEntry state changes key new = .ok c' ∧ ∀ k : String,
      c'.joins[k]? = (if k = key then new.joinedSince state[key]? else changes.joins[k]?) ∧
      c'.leaves[k]? = if k = key then new.leftSince state[key]? else changes.leaves[k]? := by
  cases hc : state[key]? with
  | none =>
    refine ⟨{ changes with joins := changes.joins.insert key new }, by simp only [compareEntry, hc],
      fun k => ⟨Table.lookup_insert .., ?_⟩⟩
    split
    · rename_i hk
      rw [hk, hl]
      rfl
    · rfl
  | some current =>
    obtain ⟨hcurrent, hnew⟩ := hs current hc
    exact ⟨_, compareEntry_of_some hc hcurrent hnew, fun k =>
      ⟨insertMetas_lookup hj .., insertMetas_lookup hl ..⟩⟩

theorem compareEntries_lookup {state newState : PresenceState} {changes : PresenceDiff}
    (hs : Comparable state newState) (hj : ∀ k ∈ newState, changes.joins[k]? = none)
    (hl : ∀ k ∈ newState, changes.leaves[k]? = none) :
    ∃ c', compareEntries state changes newState.toList = .ok c' ∧ ∀ k : String,
      c'.joins[k]? = (newState[k]?.elim changes.joins[k]? fun new => new.joinedSince state[k]?) ∧
      c'.leaves[k]? = newState[k]?.elim changes.leaves[k]? fun new => new.leftSince state[k]? := by
  have hloop : ∀ (entries : List (String × Presence)) (changes : PresenceDiff),
      (∀ e ∈ entries, ∀ current, state[e.1]? = some current → current.Tagged ∧ e.2.Tagged) →
      (entries.map Prod.fst).Nodup → (∀ e ∈ entries, changes.joins[e.1]? = none) →
      (∀ e ∈ entries, changes.leaves[e.1]? = none) →
      ∃ c', compareEntries state changes entries = .ok c' ∧ ∀ k : String,
        c'.joins[k]? = ((entries.lookup k).elim changes.joins[k]? fun new => new.joinedSince state[k]?) ∧
        c'.leaves[k]? = (entries.lookup k).elim changes.leaves[k]? fun new => new.leftSince state[k]? := by
    intro entries
    induction entries with
    | nil => exact fun changes _ _ _ _ => ⟨changes, rfl, fun _ => ⟨rfl, rfl⟩⟩
    | cons entry rest ih =>
      intro changes ht hnd hj hl
      obtain ⟨key, new⟩ := entry
      obtain ⟨hkey, hrest⟩ := List.nodup_cons.mp hnd
      obtain ⟨c₁, h₁, hc₁⟩ := compareEntry_lookup (ht _ List.mem_cons_self) (hj _ List.mem_cons_self)
        (hl _ List.mem_cons_self)
      have hne : ∀ e ∈ rest, e.1 ≠ key := fun e hm he => hkey (List.mem_map.mpr ⟨e, hm, he⟩)
      obtain ⟨c₂, h₂, hc₂⟩ := ih c₁ (fun e hm => ht e (List.mem_cons_of_mem _ hm)) hrest
        (fun e hm => by rw [(hc₁ e.1).1, if_neg (hne e hm), hj e (List.mem_cons_of_mem _ hm)])
        (fun e hm => by rw [(hc₁ e.1).2, if_neg (hne e hm), hl e (List.mem_cons_of_mem _ hm)])
      refine ⟨c₂, by simp only [compareEntries, h₁, h₂], fun k => ?_⟩
      rw [(hc₂ k).1, (hc₂ k).2, (hc₁ k).1, (hc₁ k).2, Table.lookup_cons_eq]
      by_cases hk : k = key
      · subst hk
        simp [Table.lookup_of_not_mem hkey]
      · simp [hk]
  have hlookup : ∀ e ∈ newState.toList, newState[e.1]? = some e.2 := fun e he =>
    Std.ExtTreeMap.mem_toList_iff_getElem?_eq_some.mp he
  obtain ⟨c', hok, hc⟩ := hloop newState.toList changes (fun e he current hc => hs e.1 current e.2 hc (hlookup e he))
    (Table.nodup_map_fst_toList newState) (fun e he => hj e.1 (Table.mem_of_lookup (hlookup e he)))
    (fun e he => hl e.1 (Table.mem_of_lookup (hlookup e he)))
  refine ⟨c', hok, fun k => ?_⟩
  rw [(hc k).1, (hc k).2, Table.lookup_toList]
  exact ⟨rfl, rfl⟩

theorem PresenceState.Tagged.comparable {state newState : PresenceState} (hs : state.Tagged)
    (hn : newState.Tagged) : Comparable state newState :=
  fun key current new hc hnew => ⟨hs key current hc, hn key new hnew⟩

/-- **A full state replaces each entry by itself.** -/
theorem syncState_lookup {state newState : PresenceState} (hs : state.Tagged) (hn : newState.Tagged) :
    ∃ changes s', syncState state newState = (.ok changes, s') ∧
      ∀ k : String, s'[k]? = replaced state[k]? newState[k]? := by
  have hgone : ∀ k : String, (state.filter fun key _ => !newState.contains key)[k]? =
      if k ∈ newState then none else state[k]? := by
    intro k
    grind
  obtain ⟨changes, hok, hc⟩ := @compareEntries_lookup state newState
    ⟨∅, state.filter fun key _ => !newState.contains key⟩ (hs.comparable hn) (fun k _ => rfl)
    (fun k hk => by rw [hgone, if_pos hk])
  obtain ⟨changes', s₁, hok', htagged, -⟩ := syncState_ok hs hn
  have hsame : changes' = changes := by
    unfold syncState at hok'
    dsimp only at hok'
    rw [hok] at hok'
    dsimp only at hok'
    split at hok' <;> cases hok'
    rfl
  subst hsame
  obtain ⟨s', hd, hl⟩ := syncDiff_lookup state htagged
  refine ⟨changes', s', by unfold syncState; dsimp only; rw [hok]; dsimp only; rw [hd], fun k => ?_⟩
  rw [hl, (hc k).1, (hc k).2, hgone]
  cases hk : newState[k]? with
  | none =>
    have hnot : k ∉ newState := fun hm => by
      obtain ⟨p, hp⟩ := Table.lookup_of_mem hm
      rw [hp] at hk
      cases hk
    rw [if_neg hnot]
    rfl
  | some new => rfl

/-! ### Entries that tell their metas apart

Where references are distinct an entry's metas are found by their references, and merging is a
matter of which references both have. -/

/-- The entry has metas, and a reference of its own for each. -/
structure Presence.Distinct (p : Presence) : Prop where
  nonempty : p.metas ≠ []
  tagged : p.Tagged
  nodup : p.refs.Nodup

/-- Every entry tells its metas apart. -/
def PresenceState.Distinct (state : PresenceState) : Prop :=
  ∀ (key : String) (p : Presence), state[key]? = some p → p.Distinct

theorem PresenceState.Distinct.tagged {state : PresenceState} (h : state.Distinct) : state.Tagged :=
  fun key p hp => (h key p hp).tagged

section
variable {p current new : Presence} {m m' : Meta}

theorem Presence.Tagged.refs_eq (h : p.Tagged) : p.refs = p.metas.map Meta.refOrDefault := by
  rw [Presence.refs, refsOf, ← List.filterMap_eq_map]
  refine List.filterMap_congr fun m hm => ?_
  obtain ⟨r, hr⟩ := Option.isSome_iff_exists.mp (h m hm)
  simp [hr, Meta.refOrDefault]

theorem Presence.Tagged.mem_refs (h : p.Tagged) (hm : m ∈ p.metas) : m.refOrDefault ∈ p.refs := by
  rw [h.refs_eq]
  exact List.mem_map_of_mem hm

theorem Presence.Distinct.nodup_metas (h : p.Distinct) : p.metas.Nodup := by
  have hn := h.nodup
  rw [h.tagged.refs_eq] at hn
  exact hn.of_map

/-- Metas of one entry with the same reference are the same. -/
theorem Presence.Distinct.meta_unique (h : p.Distinct) (hm : m ∈ p.metas) (hm' : m' ∈ p.metas)
    (he : m.refOrDefault = m'.refOrDefault) : m = m' := by
  have hn := h.nodup
  rw [h.tagged.refs_eq] at hn
  exact List.inj_on_of_nodup_map hn hm hm' he

theorem mem_metasBeyond {other : Presence} :
    m ∈ p.metasBeyond other ↔ m ∈ p.metas ∧ m.refOrDefault ∉ other.refs := by
  simp [Presence.metasBeyond]

/-- The metas that are among those of `other`. -/
def Presence.metasWithin (p other : Presence) : List Meta :=
  p.metas.filter fun m => other.refs.contains m.refOrDefault

theorem mem_metasWithin {other : Presence} :
    m ∈ p.metasWithin other ↔ m ∈ p.metas ∧ m.refOrDefault ∈ other.refs := by
  simp [Presence.metasWithin]

end

/-- What a full state makes of an entry that it has too. -/
def Presence.updated (current new : Presence) : Presence :=
  ⟨current.metasWithin new ++ new.metasBeyond current,
    if (new.metasBeyond current).isEmpty then current.fields else new.fields⟩

section
variable {current new : Presence}

theorem Presence.Tagged.exists_meta {p : Presence} (h : p.Tagged) {r : String} (hr : r ∈ p.refs) :
    ∃ m ∈ p.metas, m.refOrDefault = r := by
  rw [h.refs_eq] at hr
  exact List.mem_map.mp hr

theorem mem_refsOf_metasBeyond {p other : Presence} {r : String} :
    r ∈ refsOf (p.metasBeyond other) ↔ r ∈ p.refs ∧ r ∉ other.refs :=
  mem_refsOf_filter

theorem updated_nonempty (hc : current.Distinct) (hn : new.Distinct) : (current.updated new).metas ≠ [] := by
  obtain ⟨m, hm⟩ := List.exists_mem_of_ne_nil _ hn.nonempty
  by_cases hr : m.refOrDefault ∈ current.refs
  · obtain ⟨m', hm', he⟩ := hc.tagged.exists_meta hr
    have hin : m' ∈ current.metasWithin new := mem_metasWithin.mpr ⟨hm', he ▸ hn.tagged.mem_refs hm⟩
    exact List.ne_nil_of_mem (List.mem_append_left _ hin)
  · exact List.ne_nil_of_mem (List.mem_append_right _ (mem_metasBeyond.mpr ⟨hm, hr⟩))

theorem replaced_gone (hc : current.Distinct) : replaced (some current) none = none := by
  have hnone : current.metasBeyond current = [] :=
    List.filter_eq_nil_iff.mpr fun m hm => by simpa using hc.tagged.mem_refs hm
  simp [replaced, Presence.leftBy, Presence.withMetas, hnone]

theorem replaced_new (new : Presence) : replaced none (some new) = some new := rfl

/-- What the joins make of an entry. -/
theorem merged_eq (hc : current.Distinct) :
    ((new.joinedSince (some current)).elim (some current) fun joined => some (joined.joinedBy (some current))) =
      some ⟨current.metas ++ new.metasBeyond current,
        if (new.metasBeyond current).isEmpty then current.fields else new.fields⟩ := by
  have hkeep : current.metasBeyond ⟨new.metasBeyond current, new.fields⟩ = current.metas :=
    List.filter_eq_self.mpr fun m hm => by
      have hr := hc.tagged.mem_refs hm
      have hnot : m.refOrDefault ∉ refsOf (new.metasBeyond current) := fun hin =>
        (mem_refsOf_metasBeyond.mp hin).2 hr
      simpa [Presence.refs] using hnot
  by_cases hempty : (new.metasBeyond current).isEmpty = true
  · simp [Presence.joinedSince, Presence.withMetas, List.isEmpty_iff.mp hempty]
  · simp [Presence.joinedSince, Presence.withMetas, hempty, Presence.joinedBy, hkeep]

/-- **An entry of both states keeps its metas**, less those that are gone, and gains the new ones. -/
theorem replaced_both (hc : current.Distinct) (hn : new.Distinct) :
    replaced (some current) (some new) = some (current.updated new) := by
  have hm := @merged_eq _ new hc
  simp only [replaced, Option.bind_some, Option.elim_some, hm, Presence.leftSince]
  by_cases hempty : (current.metasBeyond new).isEmpty = true
  · have hwithin : current.metasWithin new = current.metas :=
      List.filter_eq_self.mpr fun m hm => by
        by_contra hnot
        have hin : m ∈ current.metasBeyond new := mem_metasBeyond.mpr ⟨hm, by simpa using hnot⟩
        rw [List.isEmpty_iff.mp hempty] at hin
        cases hin
    simp [Presence.withMetas, hempty, Presence.updated, hwithin]
  · have hgone : Presence.metasBeyond ⟨current.metas ++ new.metasBeyond current,
          if (new.metasBeyond current).isEmpty then current.fields else new.fields⟩
        ⟨current.metasBeyond new, current.fields⟩ = (current.updated new).metas := by
      have hleft : ∀ {r : String}, r ∈ (⟨current.metasBeyond new, current.fields⟩ : Presence).refs ↔
          r ∈ current.refs ∧ r ∉ new.refs := mem_refsOf_metasBeyond
      generalize (⟨current.metasBeyond new, current.fields⟩ : Presence) = left at hleft
      have hsplit : (current.metas ++ new.metasBeyond current).filter (fun m => !left.refs.contains m.refOrDefault) =
          current.metasWithin new ++ new.metasBeyond current := by
        rw [List.filter_append]
        congr 1
        · refine List.filter_congr fun m hm => ?_
          have hr := hc.tagged.mem_refs hm
          by_cases hin : m.refOrDefault ∈ new.refs
          · have hkept := fun h => (hleft.mp h).2 hin
            simpa [hin] using hkept
          · have hdropped := hleft.mpr ⟨hr, hin⟩
            simpa [hin] using hdropped
        · refine List.filter_eq_self.mpr fun m hm => ?_
          have hkept := fun h => (mem_metasBeyond.mp hm).2 (hleft.mp h).1
          simpa using hkept
      exact hsplit
    have hne : ¬ (current.updated new).metas.isEmpty = true := by
      simpa using updated_nonempty hc hn
    simp only [Presence.withMetas, if_neg hempty, Option.elim_some, Presence.leftBy, hgone,
      if_neg hne]
    rfl

/-! ### Contents

Two entries have the same contents if they have the same fields and the same metas in some order. -/

/-- The contents of an entry, its metas in any order. -/
structure SameContents (p p' : Presence) : Prop where
  fields : p.fields = p'.fields
  metas : p.metas.Perm p'.metas

/-- Metas with one reference have one content, and the fields change with a new meta only. -/
structure Unedited (current new : Presence) : Prop where
  metas : ∀ m ∈ current.metas, ∀ m' ∈ new.metas, m.phxRef = m'.phxRef → m = m'
  fields : new.refs ⊆ current.refs → current.fields = new.fields

theorem Presence.Tagged.phxRef_eq {p p' : Presence} (h : p.Tagged) (h' : p'.Tagged) {m m' : Meta}
    (hm : m ∈ p.metas) (hm' : m' ∈ p'.metas) : m.phxRef = m'.phxRef ↔ m.refOrDefault = m'.refOrDefault := by
  obtain ⟨r, hr⟩ := Option.isSome_iff_exists.mp (h m hm)
  obtain ⟨r', hr'⟩ := Option.isSome_iff_exists.mp (h' m' hm')
  rw [Meta.refOrDefault_of hr, Meta.refOrDefault_of hr', hr, hr', Option.some.injEq]

/-- An entry has no meta beyond another one if its references are among the other's. -/
theorem metasBeyond_eq_nil (hn : new.Tagged) :
    (new.metasBeyond current).isEmpty = true ↔ new.refs ⊆ current.refs := by
  simp only [List.isEmpty_iff, Presence.metasBeyond, List.filter_eq_nil_iff]
  constructor
  · intro h r hr
    obtain ⟨m, hm, rfl⟩ := hn.exists_meta hr
    simpa using h m hm
  · intro h m hm
    simpa using h (hn.mem_refs hm)

/-- The metas come out right when no kept meta was edited. -/
theorem updated_metas_perm (hc : current.Distinct) (hn : new.Distinct) :
    (current.updated new).metas.Perm new.metas ↔
      ∀ m ∈ current.metas, ∀ m' ∈ new.metas, m.phxRef = m'.phxRef → m = m' := by
  have hsplit : (new.metasWithin current ++ new.metasBeyond current).Perm new.metas :=
    List.filter_append_perm (fun m : Meta => current.refs.contains m.refOrDefault) new.metas
  constructor
  · intro hperm m hm m' hm' he
    have hr := (hc.tagged.phxRef_eq hn.tagged hm hm').mp he
    have hin : m ∈ current.metasWithin new := mem_metasWithin.mpr ⟨hm, hr ▸ hn.tagged.mem_refs hm'⟩
    exact hn.meta_unique (hperm.mem_iff.mp (List.mem_append_left _ hin)) hm' hr
  · intro hsame
    refine List.Perm.trans (List.Perm.append_right _ ?_) hsplit
    refine (List.perm_ext_iff_of_nodup (hc.nodup_metas.filter _) (hn.nodup_metas.filter _)).mpr fun m => ?_
    show m ∈ current.metasWithin new ↔ m ∈ new.metasWithin current
    rw [mem_metasWithin, mem_metasWithin]
    constructor
    · rintro ⟨hm, hr⟩
      obtain ⟨m', hm', he⟩ := hn.tagged.exists_meta hr
      cases hsame m hm m' hm' ((hc.tagged.phxRef_eq hn.tagged hm hm').mpr he.symm)
      exact ⟨hm', hc.tagged.mem_refs hm⟩
    · rintro ⟨hm', hr⟩
      obtain ⟨m₀, hm, he⟩ := hc.tagged.exists_meta hr
      cases hsame m₀ hm m hm' ((hc.tagged.phxRef_eq hn.tagged hm hm').mpr he)
      exact ⟨hm, hn.tagged.mem_refs hm'⟩

/-- A merged entry has the new contents exactly if nothing of it was edited under the references that
stay. -/
theorem updated_contents (hc : current.Distinct) (hn : new.Distinct) :
    SameContents (current.updated new) new ↔ Unedited current new := by
  have hfields : (current.updated new).fields = new.fields ↔
      (new.refs ⊆ current.refs → current.fields = new.fields) := by
    simp only [Presence.updated, metasBeyond_eq_nil hn.tagged]
    split
    · rename_i hsub
      exact ⟨fun he _ => he, fun he => he hsub⟩
    · rename_i hsub
      exact ⟨fun _ hs => absurd hs hsub, fun _ => rfl⟩
  exact ⟨fun h => ⟨(updated_metas_perm hc hn).mp h.metas, hfields.mp h.fields⟩,
    fun h => ⟨hfields.mpr h.fields, (updated_metas_perm hc hn).mpr h.metas⟩⟩

end

/-- The keys are those of the full state, and so is what is under them. -/
structure PresenceState.Replicates (state full : PresenceState) : Prop where
  keys : ∀ key : String, key ∈ state ↔ key ∈ full
  entries : ∀ (key : String) (p p' : Presence), state[key]? = some p → full[key]? = some p' → SameContents p p'

/-- A key has an entry afterwards exactly if the full state has one for it. -/
theorem replaced_isSome {current new : Option Presence} (hc : ∀ p, current = some p → p.Distinct)
    (hn : ∀ p, new = some p → p.Distinct) : (replaced current new).isSome = new.isSome := by
  cases new with
  | none =>
    cases current with
    | none => rfl
    | some current => rw [replaced_gone (hc _ rfl)]
  | some new =>
    cases current with
    | none => rfl
    | some current =>
      rw [replaced_both (hc _ rfl) (hn _ rfl)]
      rfl

/-- **A full state replaces the contents exactly when nothing that is kept was edited.** -/
theorem contents_replaced_iff {state newState : PresenceState} (hs : state.Distinct) (hn : newState.Distinct) :
    ∃ changes state', syncState state newState = (.ok changes, state') ∧
      (state'.Replicates newState ↔ ∀ (key : String) (current new : Presence),
        state[key]? = some current → newState[key]? = some new → Unedited current new) := by
  obtain ⟨changes, state', hok, hlookup⟩ := syncState_lookup hs.tagged hn.tagged
  refine ⟨changes, state', hok, fun hr key current new hcurrent hnew => ?_, fun hsame => ⟨fun key => ?_, ?_⟩⟩
  · have hboth := hlookup key
    rw [hcurrent, hnew, replaced_both (hs _ _ hcurrent) (hn _ _ hnew)] at hboth
    exact (updated_contents (hs _ _ hcurrent) (hn _ _ hnew)).mp (hr.entries key _ _ hboth hnew)
  · rw [Std.ExtTreeMap.mem_iff_isSome_getElem?, Std.ExtTreeMap.mem_iff_isSome_getElem?, hlookup,
      replaced_isSome (hs key) (hn key)]
  · intro key p p' hp hp'
    rw [hlookup, hp'] at hp
    cases hc : state[key]? with
    | none =>
      rw [hc, replaced_new] at hp
      cases hp
      exact ⟨rfl, .refl _⟩
    | some current =>
      rw [hc, replaced_both (hs _ _ hc) (hn _ _ hp')] at hp
      cases hp
      exact (updated_contents (hs _ _ hc) (hn _ _ hp')).mpr (hsame key _ _ hc hp')

/-- One connection of a user, with a name. -/
def named (name r : String) : PresenceState :=
  (∅ : PresenceState).insert "user" ⟨[[("name", .string name), ("phx_ref", .string r)]], []⟩

theorem named_lookup (name r key : String) : (named name r)[key]? =
    if key = "user" then some ⟨[[("name", .string name), ("phx_ref", .string r)]], []⟩ else none :=
  Table.lookup_insert ..

theorem named_distinct (name r : String) : (named name r).Distinct := by
  intro key p hp
  rw [named_lookup] at hp
  split at hp
  · cases hp
    refine ⟨List.cons_ne_nil _ _, fun m hm => ?_, List.nodup_singleton r⟩
    cases List.mem_singleton.mp hm
    rfl
  · cases hp

/-- A user who comes back under another name, with a connection of its own. -/
theorem contents_replaced_iff_named : ∃ changes state',
    syncState (named "Ada" "1") (named "Augusta" "2") = (.ok changes, state') ∧
      state'.Replicates (named "Augusta" "2") := by
  obtain ⟨changes, state', hok, hiff⟩ :=
    contents_replaced_iff (named_distinct "Ada" "1") (named_distinct "Augusta" "2")
  refine ⟨changes, state', hok, hiff.mpr fun key current new hc hn => ?_⟩
  rw [named_lookup] at hc hn
  split at hc
  · rename_i hkey
    rw [if_pos hkey] at hn
    cases hc
    cases hn
    refine ⟨fun m hm m' hm' he => ?_, fun _ => rfl⟩
    cases List.mem_singleton.mp hm
    cases List.mem_singleton.mp hm'
    have hother : some "1" = some "2" := he
    exact absurd hother (by decide)
  · cases hc

/-- A user who was renamed keeps the old name. -/
theorem renamed_user_kept :
    ¬ ∀ state newState : PresenceState, state.Distinct → newState.Distinct →
      ∀ changes state', syncState state newState = (.ok changes, state') → state'.Replicates newState := by
  intro hall
  obtain ⟨changes, state', hok, hlookup⟩ := syncState_lookup (named_distinct "Ada" "1").tagged
    (named_distinct "Augusta" "1").tagged
  have hr := hall _ _ (named_distinct "Ada" "1") (named_distinct "Augusta" "1") changes state' hok
  have hnew : (named "Augusta" "1")["user"]? = some _ := (named_lookup ..).trans (if_pos rfl)
  have hkept := hlookup "user"
  rw [named_lookup, named_lookup, if_pos rfl, if_pos rfl] at hkept
  have hsame := (hr.entries "user" _ _ hkept hnew).metas
  have hm : [("name", Value.string "Ada"), ("phx_ref", .string "1")] ∈
      [[("name", Value.string "Augusta"), ("phx_ref", .string "1")]] := hsame.mem_iff.mp List.mem_cons_self
  simp at hm

end PhoenixChannel.Runtime
