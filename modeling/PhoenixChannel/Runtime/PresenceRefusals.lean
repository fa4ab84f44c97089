import PhoenixChannel.Runtime.PresenceContents
import Mathlib.Data.List.TakeWhile

/-! Refused synchronizations.

A diff or a full state that an application builds itself may have metas without a reference.
Entries are checked as they are reached, after those before them were applied, so a refusal
leaves the state alone only where the entries before the bad one change nothing. -/
namespace PhoenixChannel.Runtime
open Library (Table)

instance (p : Presence) : Decidable p.Tagged := inferInstanceAs (Decidable (∀ m ∈ p.metas, m.phxRef.isSome = true))

/-- An entry with a meta that has no reference is refused when its references are asked for. -/
theorem refs_of_not_tagged {p : Presence} (key : String) (h : ¬ p.Tagged) : ∃ e, refs key p.metas = .error e := by
  obtain ⟨metas, fields⟩ := p
  induction metas with
  | nil => exact absurd (fun m hm => by cases hm) h
  | cons m rest ih =>
    cases hm : m.phxRef with
    | none =>
      refine ⟨.missingReference key, ?_⟩
      have hr : metaRef key m = .error (.missingReference key) := by simp [metaRef, hm]
      simp only [refs, List.mapM_cons, hr]
      rfl
    | some r =>
      have hr : metaRef key m = .ok r := by simp [metaRef, hm]
      obtain ⟨e, he⟩ := ih fun hrest => h fun m' hm' => by
        rcases List.mem_cons.mp hm' with rfl | hm'
        · rw [hm]
          rfl
        · exact hrest m' hm'
      refine ⟨e, ?_⟩
      unfold refs at he
      simp only [refs, List.mapM_cons, hr, he]
      rfl

/-! ### Up to the first bad entry

A refused frame has a first entry without a reference, and what comes before it has been applied. -/

namespace PresenceState

/-- The entry of a key has a meta that carries no reference. -/
def BadAt (source : PresenceState) (key : String) : Prop := ∃ p, source[key]? = some p ∧ ¬ p.Tagged

theorem tagged_iff {source : PresenceState} : source.Tagged ↔ ∀ key, ¬ source.BadAt key := by
  simp only [Tagged, BadAt, not_exists, not_and, not_not]

/-- The entries before the first one with a meta that carries no reference. -/
def sound (source : PresenceState) : List (String × Presence) := source.toList.takeWhile fun e => e.2.Tagged

theorem mem_sound {source : PresenceState} {key : String} {p : Presence} :
    (key, p) ∈ source.sound ↔
      source[key]? = some p ∧ ∀ bad, source.BadAt bad → compare key bad = .lt := by
  simp only [sound, Table.mem_takeWhile_toList, decide_eq_false_iff_not, BadAt, forall_exists_index, and_imp]

/-- What comes before the bad entries depends on their keys only. -/
theorem mem_sound_of {source other : PresenceState} (hbad : ∀ key, other.BadAt key → source.BadAt key)
    {key : String} {p p' : Presence} (h : (key, p) ∈ source.sound) (hp : other[key]? = some p') :
    (key, p') ∈ other.sound :=
  mem_sound.mpr ⟨hp, fun bad hb => (mem_sound.mp h).2 bad (hbad bad hb)⟩

theorem lookup_sound {source : PresenceState} {key : String} {p : Presence} :
    source.sound.lookup key = some p ↔ (key, p) ∈ source.sound :=
  Table.lookup_eq_some_iff
    ((Table.nodup_map_fst_toList source).sublist ((List.takeWhile_sublist _).map Prod.fst))

theorem tagged_of_mem_sound {source : PresenceState} {e : String × Presence} (h : e ∈ source.sound) :
    e.2.Tagged := by
  simpa using List.mem_takeWhile_imp h

/-- A bad entry ends what is before it. -/
theorem exists_bad {source : PresenceState} (h : ¬ source.Tagged) :
    ∃ bad rest, source.toList = source.sound ++ bad :: rest ∧ ¬ bad.2.Tagged := by
  have hsplit : source.sound ++ _ = source.toList := List.takeWhile_append_dropWhile
  cases hdrop : source.toList.dropWhile fun e => e.2.Tagged with
  | nil =>
    have hall := List.dropWhile_eq_nil_iff.mp hdrop
    refine absurd (fun key p hp => ?_) h
    simpa using hall (key, p) (Std.ExtTreeMap.mem_toList_iff_getElem?_eq_some.mpr hp)
  | cons bad rest =>
    have hbad := List.head_dropWhile_not (fun e : String × Presence => decide e.2.Tagged)
      (l := source.toList) (by rw [hdrop]; exact List.cons_ne_nil bad rest)
    rw [hdrop] at hsplit
    simp only [hdrop, List.head_cons, decide_eq_false_iff_not] at hbad
    exact ⟨bad, rest, hsplit.symm, hbad⟩

end PresenceState

/-- Entries that go through leave the rest to work on what they made. -/
theorem eachEntry_append {f : PresenceState → String → Presence → Except PresenceError PresenceState}
    {state s' : PresenceState} {before rest : List (String × Presence)}
    (h : eachEntry f state before = (.ok (), s')) : eachEntry f state (before ++ rest) = eachEntry f s' rest := by
  induction before generalizing state with
  | nil =>
    cases h
    rfl
  | cons entry before ih =>
    obtain ⟨key, p⟩ := entry
    cases hf : f state key p with
    | error e =>
      simp only [eachEntry, hf] at h
      cases h
    | ok s₁ =>
      simp only [eachEntry, hf, List.cons_append] at h ⊢
      exact ih h

/-- A refused loop has done each key before the bad one. -/
theorem eachEntry_refused (f : PresenceState → String → Presence → Except PresenceError PresenceState)
    (g : Presence → Option Presence → Option Presence)
    (hf : ∀ (state : PresenceState) (key : String) (p : Presence), p.Tagged →
      ∃ s', f state key p = .ok s' ∧
        ∀ k : String, s'[k]? = if k = key then g p state[key]? else state[k]?)
    (hbad : ∀ (state : PresenceState) (key : String) (p : Presence), ¬ p.Tagged → ∃ e, f state key p = .error e)
    {source : PresenceState} (hs : ¬ source.Tagged) (state : PresenceState) :
    ∃ e s', eachEntry f state source.toList = (.error e, s') ∧
      ∀ k : String, s'[k]? = (source.sound.lookup k).elim state[k]? fun p => g p state[k]? := by
  obtain ⟨bad, rest, hsplit, hnot⟩ := PresenceState.exists_bad hs
  obtain ⟨s', hok, hl⟩ := eachEntry_ok f g hf (fun e => PresenceState.tagged_of_mem_sound)
    ((Table.nodup_map_fst_toList source).sublist ((List.takeWhile_sublist _).map Prod.fst)) state
  obtain ⟨e, he⟩ := hbad s' bad.1 bad.2 hnot
  refine ⟨e, s', ?_, hl⟩
  rw [hsplit, eachEntry_append hok]
  simp only [eachEntry, he]

/-! ### Entries that change nothing

Joining metas that are there, or leaving what is not, leaves a state as it is. -/

/-- What joins and then leaves an entry leaves it as it was. -/
inductive Stays : Option Presence → Option Presence → Option Presence → Prop where
  | untouched (current : Option Presence) : Stays none none current
  | repeated {joined current : Presence} (kept : List Meta) (hf : joined.fields = current.fields)
      (hm : current.metas = kept ++ joined.metas) (hk : ∀ m ∈ kept, m.refOrDefault ∉ joined.refs) :
    Stays (some joined) none (some current)
  | absent (left : Presence) : Stays none (some left) none
  | others {left current : Presence} (hne : current.metas ≠ [])
      (hm : ∀ m ∈ current.metas, m.refOrDefault ∉ left.refs) : Stays none (some left) (some current)
  | passing {joined left : Presence} (hm : ∀ m ∈ joined.metas, m.refOrDefault ∈ left.refs) :
    Stays (some joined) (some left) none
  | partly {joined left current : Presence} (kept : List Meta) (hf : joined.fields = current.fields)
      (hne : current.metas ≠ []) (hm : current.metas = kept ++ joined.metasBeyond left)
      (hk : ∀ m ∈ kept, m.refOrDefault ∉ joined.refs ∧ m.refOrDefault ∉ left.refs) :
    Stays (some joined) (some left) (some current)

section
variable {joined left current : Presence}

/-- Keeping metas of an entry gives that entry exactly if these are its own, and some are left. -/
theorem withMetas_eq_some {p p' : Presence} {metas : List Meta} :
    p.withMetas metas = some p' ↔ metas ≠ [] ∧ p.fields = p'.fields ∧ metas = p'.metas := by
  obtain ⟨metas', fields'⟩ := p'
  unfold Presence.withMetas
  cases metas with
  | nil => simp
  | cons m rest => simp [and_comm]

theorem withMetas_eq_none {p : Presence} {metas : List Meta} : p.withMetas metas = none ↔ metas = [] := by
  unfold Presence.withMetas
  cases metas <;> simp

/-- The metas of an entry that starts with those of others, and ends with the rest. -/
theorem metasBeyond_of_append {p other : Presence} {kept rest : List Meta} (hm : p.metas = kept ++ rest)
    (hk : ∀ m ∈ kept, m.refOrDefault ∉ other.refs) (hr : ∀ m ∈ rest, m.refOrDefault ∈ other.refs) :
    p.metasBeyond other = kept := by
  rw [Presence.metasBeyond, hm, List.filter_append,
    List.filter_eq_self.mpr fun m hin => by simpa using hk m hin]
  rw [List.filter_eq_nil_iff.mpr fun m hin => by simpa using hr m hin, List.append_nil]

/-- A join changes nothing of an entry exactly if it brings what is there. -/
theorem joinedBy_eq_iff (hj : joined.Tagged) :
    joined.joinedBy (some current) = current ↔ Stays (some joined) none (some current) := by
  constructor
  · intro h
    have hf : (joined.joinedBy (some current)).fields = current.fields := by rw [h]
    have hm : current.metas = current.metasBeyond joined ++ joined.metas := (congrArg Presence.metas h).symm
    exact .repeated _ hf hm fun m hin => (mem_metasBeyond.mp hin).2
  · rintro (_ | ⟨kept, hf, hm, hk⟩)
    have hbeyond := metasBeyond_of_append hm hk fun m hin => hj.mem_refs hin
    obtain ⟨metas, fields⟩ := current
    simp only [Presence.joinedBy, Presence.mk.injEq]
    exact ⟨by rw [hbeyond, ← hm], hf⟩

/-- A leave changes nothing of an entry exactly if none of its metas is there. -/
theorem leftBy_eq_iff : left.leftBy current = some current ↔ Stays none (some left) (some current) := by
  rw [Presence.leftBy, withMetas_eq_some]
  constructor
  · rintro ⟨hne, -, hm⟩
    exact .others (hm ▸ hne) fun m hin => (mem_metasBeyond.mp (hm ▸ hin)).2
  · rintro (_ | _ | _ | ⟨hne, hm⟩)
    have hall : current.metasBeyond left = current.metas :=
      List.filter_eq_self.mpr fun m hin => by simpa using hm m hin
    exact ⟨hall ▸ hne, rfl, hall⟩

/-- An entry that comes with a join is gone after the leave exactly if all its metas leave. -/
theorem leftBy_joined_eq_none : left.leftBy joined = none ↔ Stays (some joined) (some left) none := by
  rw [Presence.leftBy, withMetas_eq_none, Presence.metasBeyond, List.filter_eq_nil_iff]
  constructor
  · intro h
    exact .passing fun m hm => by simpa using h m hm
  · rintro (_ | _ | _ | _ | hm)
    exact fun m hin => by simpa using hm m hin

/-- A join and a leave of the same key, one after the other. -/
theorem leftBy_joinedBy_eq_iff (hj : joined.Tagged) :
    left.leftBy (joined.joinedBy (some current)) = some current ↔
      Stays (some joined) (some left) (some current) := by
  have hbeyond : (joined.joinedBy (some current)).metasBeyond left =
      (current.metasBeyond joined).filter (fun m => !left.refs.contains m.refOrDefault) ++
        joined.metasBeyond left := List.filter_append ..
  rw [Presence.leftBy, withMetas_eq_some, hbeyond]
  constructor
  · rintro ⟨hne, hf, hm⟩
    refine .partly _ hf (hm ▸ hne) hm.symm fun m hin => ?_
    obtain ⟨hin, hl⟩ := List.mem_filter.mp hin
    exact ⟨(mem_metasBeyond.mp hin).2, by simpa using hl⟩
  · rintro (_ | _ | _ | _ | _ | ⟨kept, hf, hne, hm, hk⟩)
    have hkept : (current.metasBeyond joined).filter (fun m => !left.refs.contains m.refOrDefault) = kept := by
      rw [metasBeyond_of_append hm (fun m hin => (hk m hin).1) fun m hin => hj.mem_refs (mem_metasBeyond.mp hin).1]
      exact List.filter_eq_self.mpr fun m hin => by simpa using (hk m hin).2
    rw [hkept, ← hm]
    exact ⟨hne, hf, rfl⟩

end

/-- What a diff makes of an entry is the entry itself. -/
theorem synced_eq_iff {joined left current : Option Presence} (hj : ∀ j, joined = some j → j.Tagged) :
    (left.elim (joined.elim current fun j => some (j.joinedBy current)) fun l =>
      (joined.elim current fun j => some (j.joinedBy current)).bind l.leftBy) = current ↔
      Stays joined left current := by
  cases joined with
  | none =>
    cases left with
    | none => exact ⟨fun _ => .untouched current, fun _ => rfl⟩
    | some left =>
      cases current with
      | none => exact ⟨fun _ => .absent left, fun _ => rfl⟩
      | some current => exact leftBy_eq_iff
  | some joined =>
    have hjoined := hj joined rfl
    cases left with
    | none =>
      cases current with
      | none => exact ⟨nofun, nofun⟩
      | some current => exact Option.some_inj.trans (joinedBy_eq_iff hjoined)
    | some left =>
      cases current with
      | none => exact leftBy_joined_eq_none
      | some current => exact leftBy_joinedBy_eq_iff hjoined

/-! ### Diffs

A refused diff leaves the state alone exactly if the entries before the bad one, joins first, change
nothing. -/

theorem joinEntry_of_not_tagged (state : PresenceState) (key : String) (p : Presence) (h : ¬ p.Tagged) :
    ∃ e, joinEntry state key p = .error e := by
  obtain ⟨e, he⟩ := refs_of_not_tagged key h
  exact ⟨e, by simp only [joinEntry, he]⟩

theorem leaveEntry_of_not_tagged (state : PresenceState) (key : String) (p : Presence) (h : ¬ p.Tagged) :
    ∃ e, leaveEntry state key p = .error e := by
  obtain ⟨e, he⟩ := refs_of_not_tagged key h
  exact ⟨e, by simp only [leaveEntry, he]⟩

/-- The entries that a refused diff applies before its bad one change nothing. -/
inductive HarmlessDiff (state : PresenceState) (diff : PresenceDiff) : Prop where
  | joins (hj : ¬ diff.joins.Tagged)
      (h : ∀ key, Stays (diff.joins.sound.lookup key) none state[key]?) : HarmlessDiff state diff
  | leaves (hj : diff.joins.Tagged) (hl : ¬ diff.leaves.Tagged)
      (h : ∀ key, Stays diff.joins[key]? (diff.leaves.sound.lookup key) state[key]?) : HarmlessDiff state diff

/-- What a refused update does to the state is all there is to it. -/
theorem unchanged_iff {result : Except PresenceError PresenceDiff × PresenceState} {e : PresenceError}
    {state s' : PresenceState} (h : result = (.error e, s')) :
    (∀ e s', result = (.error e, s') → s' = state) ↔ s' = state := by
  refine ⟨fun hall => hall e s' h, fun he e' s'' h' => ?_⟩
  rw [h] at h'
  cases h'
  exact he

/-- A refused diff leaves the state alone exactly where the entries it reached change nothing. -/
theorem syncDiff_refused_iff (state : PresenceState) (diff : PresenceDiff) :
    (∀ e s', syncDiff state diff = (.error e, s') → s' = state) ↔ diff.Tagged ∨ HarmlessDiff state diff := by
  by_cases hj : diff.joins.Tagged
  · obtain ⟨s₁, h₁, hl₁⟩ := eachEntry_lookup joinEntry (fun p current => some (p.joinedBy current))
      (fun s key _ hp => joinEntry_lookup s key hp) hj state
    by_cases hl : diff.leaves.Tagged
    · obtain ⟨s', hok, -⟩ := syncDiff_lookup state ⟨hj, hl⟩
      refine ⟨fun _ => .inl ⟨hj, hl⟩, fun _ e s'' he => ?_⟩
      rw [hok] at he
      cases he
    · obtain ⟨e, s₂, h₂, hl₂⟩ := eachEntry_refused leaveEntry (fun p current => current.bind p.leftBy)
        (fun s key _ hp => leaveEntry_lookup s key hp) leaveEntry_of_not_tagged hl s₁
      rw [unchanged_iff (show syncDiff state diff = (.error e, s₂) by simp only [syncDiff, h₁, h₂])]
      constructor
      · rintro rfl
        refine .inr (.leaves hj hl fun key => (synced_eq_iff (hj key)).mp ?_)
        rw [← hl₁, ← hl₂]
      · rintro (htagged | ⟨hnot, -⟩ | ⟨-, -, h⟩)
        · exact absurd htagged.leaves hl
        · exact absurd hj hnot
        · refine Std.ExtTreeMap.ext_getElem? fun key => ?_
          rw [hl₂, hl₁]
          exact (synced_eq_iff (hj key)).mpr (h key)
  · obtain ⟨e, s₁, h₁, hl₁⟩ := eachEntry_refused joinEntry (fun p current => some (p.joinedBy current))
      (fun s key _ hp => joinEntry_lookup s key hp) joinEntry_of_not_tagged hj state
    have hsound : ∀ key j, diff.joins.sound.lookup key = some j → j.Tagged := fun key j h =>
      PresenceState.tagged_of_mem_sound (PresenceState.lookup_sound.mp h)
    rw [unchanged_iff (show syncDiff state diff = (.error e, s₁) by simp only [syncDiff, h₁])]
    constructor
    · rintro rfl
      exact .inr (.joins hj fun key => (synced_eq_iff (hsound key)).mp (hl₁ key).symm)
    · rintro (htagged | ⟨-, h⟩ | ⟨hnot, -, -⟩)
      · exact absurd htagged.joins hj
      · refine Std.ExtTreeMap.ext_getElem? fun key => ?_
        rw [hl₁]
        exact (synced_eq_iff (hsound key)).mpr (h key)
      · exact absurd hnot hj

/-! ### Full states

A full state is compared with the old one first, which fails for a bad entry of either; then it is
applied as a diff. -/

section
variable {state newState : PresenceState}

/-- Entries that cannot be compared end the comparison, before anything is applied. -/
theorem compareEntries_refused (h : ¬ Comparable state newState) (changes : PresenceDiff) :
    ∃ e, compareEntries state changes newState.toList = .error e := by
  have hloop : ∀ (entries : List (String × Presence)) (changes : PresenceDiff),
      (∃ e ∈ entries, ∃ current, state[e.1]? = some current ∧ ¬ (current.Tagged ∧ e.2.Tagged)) →
      ∃ e, compareEntries state changes entries = .error e := by
    intro entries
    induction entries with
    | nil => rintro changes ⟨e, he, -⟩; cases he
    | cons entry rest ih =>
      rintro changes ⟨e, he, current, hc, hbad⟩
      obtain ⟨key, new⟩ := entry
      cases hone : compareEntry state changes key new with
      | error err => exact ⟨err, by simp only [compareEntries, hone]⟩
      | ok changes' =>
        rcases List.mem_cons.mp he with rfl | hrest
        · -- a bad entry that is compared fails
          exfalso
          by_cases hcurrent : current.Tagged
          · have hnew : ¬ new.Tagged := fun hn => hbad ⟨hcurrent, hn⟩
            obtain ⟨err, herr⟩ := refs_of_not_tagged key hnew
            simp only [compareEntry, hc, refs_of_tagged key hcurrent, herr] at hone
            cases hone
          · obtain ⟨err, herr⟩ := refs_of_not_tagged key hcurrent
            simp only [compareEntry, hc, herr] at hone
            cases hone
        · obtain ⟨err, herr⟩ := ih changes' ⟨e, hrest, current, hc, hbad⟩
          exact ⟨err, by simp only [compareEntries, hone, herr]⟩
  refine hloop newState.toList changes ?_
  simp only [Comparable, not_forall] at h
  obtain ⟨key, current, new, hc, hn, hbad⟩ := h
  exact ⟨(key, new), Std.ExtTreeMap.mem_toList_iff_getElem?_eq_some.mpr hn, current, hc, hbad⟩

/-- The entries that a refused full state applies before its bad one change nothing. -/
inductive HarmlessState (state newState : PresenceState) : Prop where
  | compared (hc : ¬ Comparable state newState) : HarmlessState state newState
  | joins (hc : Comparable state newState) (hn : ¬ newState.Tagged)
      (h : ∀ e ∈ newState.sound, ∃ current, state[e.1]? = some current ∧ e.2.refs ⊆ current.refs) :
    HarmlessState state newState
  | leaves (hc : Comparable state newState) (hn : newState.Tagged) (hs : ¬ state.Tagged)
      (hj : ∀ (key : String) (new : Presence), newState[key]? = some new →
        ∃ current, state[key]? = some current ∧ new.refs ⊆ current.refs)
      (h : ∀ e ∈ state.sound, ∃ new, newState[e.1]? = some new ∧ e.2.refs ⊆ new.refs) :
    HarmlessState state newState

/-- The changes from one state to another. -/
structure IsChange (state newState : PresenceState) (changes : PresenceDiff) : Prop where
  joins : ∀ key : String, changes.joins[key]? = newState[key]?.bind fun new => new.joinedSince state[key]?
  leaves : ∀ key : String, changes.leaves[key]? = newState[key]?.elim state[key]? fun new => new.leftSince state[key]?

/-- A full state whose entries can be compared fails as its changes do. -/
theorem syncState_error_iff (hc : Comparable state newState) : ∃ changes, IsChange state newState changes ∧
    ∀ e s', syncState state newState = (.error e, s') ↔ syncDiff state changes = (.error e, s') := by
  have hgone : ∀ k : String, (state.filter fun key _ => !newState.contains key)[k]? =
      if k ∈ newState then none else state[k]? := by
    intro k
    grind
  obtain ⟨changes, hok, hl⟩ := @compareEntries_lookup state newState
    ⟨∅, state.filter fun key _ => !newState.contains key⟩ hc (fun k _ => rfl)
    (fun k hk => by rw [hgone, if_pos hk])
  refine ⟨changes, ⟨fun key => ?_, fun key => ?_⟩, fun e s' => ?_⟩
  · rw [(hl key).1]
    cases newState[key]? <;> rfl
  · rw [(hl key).2, hgone]
    cases hn : newState[key]? with
    | none =>
      rw [if_neg fun hm => by simpa [hn] using Table.lookup_of_mem hm]
    | some new => rfl
  · simp only [syncState, hok]
    rcases syncDiff state changes with ⟨_ | _, s₁⟩ <;> simp

variable {changes : PresenceDiff} {key : String} {current new : Presence}

/-- The comparison calls nothing of a key a join exactly if the new references are among the current ones. -/
theorem IsChange.joins_eq_none (h : IsChange state newState changes) (hc : Comparable state newState)
    (hn : newState[key]? = some new) :
    changes.joins[key]? = none ↔ ∃ current, state[key]? = some current ∧ new.refs ⊆ current.refs := by
  rw [h.joins, hn, Option.bind_some]
  cases hs : state[key]? with
  | none => simp [Presence.joinedSince]
  | some current =>
    have hnew := (hc key current new hs hn).2
    simp [Presence.joinedSince, withMetas_eq_none, ← metasBeyond_eq_nil hnew]

/-- The comparison calls nothing of a key a leave exactly if the current references are among the new
ones. -/
theorem IsChange.leaves_eq_none (h : IsChange state newState changes) (hc : Comparable state newState)
    (hs : state[key]? = some current) :
    changes.leaves[key]? = none ↔ ∃ new, newState[key]? = some new ∧ current.refs ⊆ new.refs := by
  rw [h.leaves]
  cases hn : newState[key]? with
  | none => simp [hs]
  | some new =>
    have hcurrent := (hc key current new hs hn).1
    simp [hs, Presence.leftSince, withMetas_eq_none, ← metasBeyond_eq_nil hcurrent]

/-- The entries of the changes that are bad are those of the states. -/
theorem IsChange.joins_bad (h : IsChange state newState changes) (hc : Comparable state newState) :
    changes.joins.BadAt key ↔ newState.BadAt key := by
  unfold PresenceState.BadAt
  rw [h.joins]
  cases hn : newState[key]? with
  | none => simp
  | some new =>
    cases hs : state[key]? with
    | none => simp [Presence.joinedSince]
    | some current =>
      have hnew := (hc key current new hs hn).2
      simp only [Option.bind_some, Presence.joinedSince, withMetas_eq_some, Option.some.injEq, exists_eq_left', hnew,
        not_true_eq_false, iff_false, not_exists, not_and, not_not]
      rintro p ⟨-, -, hm⟩ m hin
      exact hnew m (mem_metasBeyond.mp (hm ▸ hin)).1

/-- A bad entry is among the leaves exactly if it was in the state. -/
theorem IsChange.leaves_bad (h : IsChange state newState changes) (hc : Comparable state newState) :
    changes.leaves.BadAt key ↔ state.BadAt key := by
  unfold PresenceState.BadAt
  rw [h.leaves]
  cases hn : newState[key]? with
  | none => simp
  | some new =>
    cases hs : state[key]? with
    | none => simp [Presence.leftSince]
    | some current =>
      have hcurrent := (hc key current new hs hn).1
      simp only [Option.elim_some, Presence.leftSince, Option.bind_some, withMetas_eq_some, Option.some.injEq,
        exists_eq_left', hcurrent, not_true_eq_false, iff_false, not_exists, not_and, not_not]
      rintro p ⟨-, -, hm⟩ m hin
      exact hcurrent m (mem_metasBeyond.mp (hm ▸ hin)).1

/-- What joins is new to the entry, so the entry does not stay as it was. -/
theorem IsChange.not_stays_joined (h : IsChange state newState changes) (hc : Comparable state newState)
    {joined : Presence} (hj : changes.joins[key]? = some joined) {left : Option Presence}
    (hl : ∀ l, left = some l → changes.leaves[key]? = some l) : ¬ Stays (some joined) left state[key]? := by
  rw [h.joins] at hj
  obtain ⟨new, hn, hj⟩ := Option.bind_eq_some_iff.mp hj
  rw [h.leaves, hn] at hl
  cases hs : state[key]? with
  | none =>
    rintro (_ | _ | _ | _ | _)
    cases (hl _ rfl).symm.trans (by rw [hs])
  | some current =>
    obtain ⟨hcurrent, -⟩ := hc key current new hs hn
    rw [hs] at hj
    obtain ⟨hne, -, hm⟩ := withMetas_eq_some.mp hj
    obtain ⟨m, hin⟩ := List.exists_mem_of_ne_nil _ hne
    intro hstays
    cases hstays with
    | repeated kept hf hmetas hk =>
      have hmem : m ∈ current.metas := hmetas ▸ List.mem_append_right kept (hm ▸ hin)
      exact (mem_metasBeyond.mp hin).2 (hcurrent.mem_refs hmem)
    | @partly _ left _ kept hf _ hmetas hk =>
      have hleft := hl left rfl
      rw [hs] at hleft
      obtain ⟨hne', -, hm'⟩ := withMetas_eq_some.mp hleft
      obtain ⟨m', hin'⟩ := List.exists_mem_of_ne_nil _ hne'
      have htagged : left.Tagged := fun m hmem => hcurrent m (mem_metasBeyond.mp (hm' ▸ hmem)).1
      have hr := htagged.mem_refs (hm' ▸ hin')
      have hmem : m' ∈ kept ++ joined.metasBeyond left := hmetas ▸ (mem_metasBeyond.mp hin').1
      rcases List.mem_append.mp hmem with hmem | hmem
      · exact (hk m' hmem).2 hr
      · exact (mem_metasBeyond.mp hmem).2 hr

/-- What leaves was part of the entry. -/
theorem IsChange.not_stays_left (h : IsChange state newState changes) {left : Presence}
    (hl : changes.leaves[key]? = some left) (ht : left.Tagged) : ¬ Stays none (some left) state[key]? := by
  rw [h.leaves] at hl
  intro hstays
  cases hs : state[key]? with
  | none =>
    rw [hs] at hl
    cases hn : newState[key]? with
    | none =>
      rw [hn] at hl
      cases hl
    | some new =>
      rw [hn] at hl
      cases hl
  | some current =>
    rw [hs] at hstays hl
    obtain - | - | - | ⟨hne, hm⟩ := hstays
    have hpart : ∃ m ∈ left.metas, m ∈ current.metas := by
      cases hn : newState[key]? with
      | none =>
        rw [hn] at hl
        cases hl
        obtain ⟨m, hin⟩ := List.exists_mem_of_ne_nil _ hne
        exact ⟨m, hin, hin⟩
      | some new =>
        rw [hn] at hl
        obtain ⟨hne', -, hm'⟩ := withMetas_eq_some.mp hl
        obtain ⟨m, hin⟩ := List.exists_mem_of_ne_nil _ hne'
        exact ⟨m, hm' ▸ hin, (mem_metasBeyond.mp hin).1⟩
    obtain ⟨m, hin, hcur⟩ := hpart
    exact hm m hcur (ht.mem_refs hin)

/-- The changes are harmless where the full state is. -/
theorem IsChange.harmless_iff (h : IsChange state newState changes) (hc : Comparable state newState) :
    HarmlessDiff state changes ↔ HarmlessState state newState := by
  have hjoins : ¬ newState.Tagged ↔ ¬ changes.joins.Tagged := by
    simp only [PresenceState.tagged_iff, h.joins_bad hc]
  have hleaves : ¬ state.Tagged ↔ ¬ changes.leaves.Tagged := by
    simp only [PresenceState.tagged_iff, h.leaves_bad hc]
  constructor
  · rintro (⟨hbad, hstays⟩ | ⟨hgood, hbad, hstays⟩)
    · refine .joins hc (hjoins.mpr hbad) fun ⟨key, new⟩ he => ?_
      have hn := (PresenceState.mem_sound.mp he).1
      by_contra hnot
      obtain ⟨joined, hj⟩ := Option.ne_none_iff_exists'.mp (mt (h.joins_eq_none hc hn).mp hnot)
      have hin := PresenceState.mem_sound_of (fun k => (h.joins_bad hc).mp) he hj
      have hstay := hstays key
      rw [PresenceState.lookup_sound.mpr hin] at hstay
      exact h.not_stays_joined hc hj (by simp) hstay
    · have hsound : ∀ {key l}, changes.leaves.sound.lookup key = some l → changes.leaves[key]? = some l :=
        fun hl => (PresenceState.mem_sound.mp (PresenceState.lookup_sound.mp hl)).1
      have hnojoin : ∀ key : String, changes.joins[key]? = none := by
        intro key
        by_contra hj
        obtain ⟨joined, hj⟩ := Option.ne_none_iff_exists'.mp hj
        have hstay := hstays key
        rw [hj] at hstay
        exact h.not_stays_joined hc hj (fun l => hsound) hstay
      refine .leaves hc (not_not.mp (mt hjoins.mp (not_not.mpr hgood))) (hleaves.mpr hbad)
        (fun key new hn => (h.joins_eq_none hc hn).mp (hnojoin key)) fun ⟨key, current⟩ he => ?_
      have hs := (PresenceState.mem_sound.mp he).1
      by_contra hnot
      obtain ⟨left, hl⟩ := Option.ne_none_iff_exists'.mp (mt (h.leaves_eq_none hc hs).mp hnot)
      have hin := PresenceState.mem_sound_of (fun k => (h.leaves_bad hc).mp) he hl
      have hstay := hstays key
      rw [hnojoin, PresenceState.lookup_sound.mpr hin] at hstay
      exact h.not_stays_left hl (PresenceState.tagged_of_mem_sound hin) hstay
  · rintro (hnot | ⟨-, hbad, hquiet⟩ | ⟨-, hgood, hbad, hnojoin, hquiet⟩)
    · exact absurd hc hnot
    · refine .joins (hjoins.mp hbad) fun key => ?_
      have hnone : changes.joins.sound.lookup key = none := by
        by_contra hj
        obtain ⟨joined, hj⟩ := Option.ne_none_iff_exists'.mp hj
        have hin := PresenceState.lookup_sound.mp hj
        have hj := (PresenceState.mem_sound.mp hin).1
        obtain ⟨new, hn, -⟩ := Option.bind_eq_some_iff.mp ((h.joins key).symm.trans hj)
        have he := PresenceState.mem_sound_of (fun k => (h.joins_bad hc).mpr) hin hn
        rw [(h.joins_eq_none hc hn).mpr (hquiet (key, new) he)] at hj
        cases hj
      rw [hnone]
      exact .untouched _
    · refine .leaves (not_not.mp (mt hjoins.mpr (not_not.mpr hgood))) (hleaves.mp hbad) fun key => ?_
      have hj : changes.joins[key]? = none := by
        cases hn : newState[key]? with
        | none => rw [h.joins, hn]; rfl
        | some new => exact (h.joins_eq_none hc hn).mpr (hnojoin key new hn)
      have hnone : changes.leaves.sound.lookup key = none := by
        by_contra hl
        obtain ⟨left, hl⟩ := Option.ne_none_iff_exists'.mp hl
        have hin := PresenceState.lookup_sound.mp hl
        have hl := (PresenceState.mem_sound.mp hin).1
        cases hs : state[key]? with
        | none =>
          rw [h.leaves, hs] at hl
          cases hn : newState[key]? <;> rw [hn] at hl <;> cases hl
        | some current =>
          have he := PresenceState.mem_sound_of (fun k => (h.leaves_bad hc).mpr) hin hs
          rw [(h.leaves_eq_none hc hs).mpr (hquiet (key, current) he)] at hl
          cases hl
      rw [hj, hnone]
      exact .untouched _

/-- A refused full state leaves the state alone exactly if it is refused by the comparison or what was
applied of it changed nothing. -/
theorem syncState_refused_iff (state newState : PresenceState) :
    (∀ e s', syncState state newState = (.error e, s') → s' = state) ↔
      state.Tagged ∧ newState.Tagged ∨ HarmlessState state newState := by
  by_cases hc : Comparable state newState
  · obtain ⟨changes, h, herror⟩ := syncState_error_iff hc
    have htagged : changes.Tagged ↔ state.Tagged ∧ newState.Tagged := by
      have hj : changes.joins.Tagged ↔ newState.Tagged := by
        simp only [PresenceState.tagged_iff, h.joins_bad hc]
      have hl : changes.leaves.Tagged ↔ state.Tagged := by
        simp only [PresenceState.tagged_iff, h.leaves_bad hc]
      rw [← hj, ← hl]
      exact ⟨fun ht => ⟨ht.leaves, ht.joins⟩, fun ht => ⟨ht.2, ht.1⟩⟩
    simp only [herror]
    rw [syncDiff_refused_iff, htagged, h.harmless_iff hc]
  · obtain ⟨e, he⟩ := @compareEntries_refused state newState hc
      ⟨∅, state.filter fun key _ => !newState.contains key⟩
    have heq : syncState state newState = (.error e, state) := by
      unfold syncState
      dsimp only
      rw [he]
    exact ⟨fun _ => .inr (.compared hc), fun _ => (unchanged_iff heq).mpr rfl⟩

end

/-- **When a refused synchronization leaves the state alone**: where nothing is refused, or the
entries before the bad one change nothing. -/
theorem refused_sync_unchanged_iff (state : PresenceState) :
    (∀ diff, (∀ e s', syncDiff state diff = (.error e, s') → s' = state) ↔
      diff.Tagged ∨ HarmlessDiff state diff) ∧
    ∀ newState, (∀ e s', syncState state newState = (.error e, s') → s' = state) ↔
      state.Tagged ∧ newState.Tagged ∨ HarmlessState state newState :=
  ⟨syncDiff_refused_iff state, syncState_refused_iff state⟩

/-- Ada joins before Bob, whose meta has no reference: both synchronizations fail and keep her. -/
theorem refused_sync_keeps_ada :
    let ada : Presence := ⟨[[("phx_ref", .string "a")]], []⟩
    let both : PresenceState := (∅ : PresenceState).insert "ada" ada |>.insert "bob" ⟨[[]], []⟩
    (∃ s', syncDiff ∅ ⟨both, ∅⟩ = (.error (.missingReference "bob"), s') ∧ s' ≠ ∅) ∧
      ∃ s', syncState ∅ both = (.error (.missingReference "bob"), s') ∧ s' ≠ ∅ := by
  intro ada both
  have hne : ∀ s' : PresenceState, s'["ada"]? = some ada → s' ≠ ∅ := by
    rintro s' hs rfl
    cases hs
  exact ⟨⟨_, rfl, hne _ rfl⟩, ⟨_, rfl, hne _ rfl⟩⟩

end PhoenixChannel.Runtime
