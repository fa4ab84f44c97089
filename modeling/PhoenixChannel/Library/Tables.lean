import Std.Data.ExtTreeMap
import Mathlib.Data.List.Perm.Basic
import Mathlib.Data.List.Nodup
import Mathlib.Algebra.BigOperators.Group.List.Basic
import Mathlib.Algebra.Ring.Nat

/-! Finite tables, and sums over their entries.

A table is the contents of a map, with nothing of its layout. Two tables with the same
lookups are equal, so a hash map's iteration order is not part of it: what visits the
entries in an order of its own takes that order as an argument.

`total f m` adds `f` over the entries. An insertion adds one entry's share and takes away
the share of the entry it displaces; an erasure takes one share away. -/
namespace PhoenixChannel.Library

/-- The contents of a map from `κ` to `α`. -/
abbrev Table (κ α : Type) [Ord κ] := Std.ExtTreeMap κ α compare

namespace Table
open Std
variable {κ α : Type} [Ord κ] [TransOrd κ] [LawfulEqOrd κ]

/-- The keys an iteration visits: each key once, in any order. -/
def IsOrder (order : List κ) (m : Table κ α) : Prop := order.Perm m.keys

instance [DecidableEq κ] (order : List κ) (m : Table κ α) : Decidable (IsOrder order m) :=
  inferInstanceAs (Decidable (order.Perm m.keys))

theorem IsOrder.mem {order : List κ} {m : Table κ α} (h : IsOrder order m) (k : κ) :
    k ∈ order ↔ k ∈ m := by
  rw [List.Perm.mem_iff h, ExtTreeMap.mem_keys]

theorem nodup_toList (m : Table κ α) : m.toList.Nodup := by
  have := ExtTreeMap.distinct_keys_toList (t := m)
  exact this.imp fun hab he => hab (by rw [he]; exact ReflCmp.compare_self)

omit [LawfulEqOrd κ] in
theorem mem_of_lookup {m : Table κ α} {k : κ} {a : α} (h : m[k]? = some a) : k ∈ m := by
  rw [ExtTreeMap.mem_iff_isSome_getElem?, h]
  rfl

omit [LawfulEqOrd κ] in
theorem not_lookup_empty {k : κ} {a : α} : (∅ : Table κ α)[k]? ≠ some a := by
  rw [ExtTreeMap.getElem?_empty]
  nofun

theorem lookup_of_map {β : Type} {f : α → β} {m : Table κ α} {k : κ} {b : β}
    (h : (m.map fun _ a => f a)[k]? = some b) : ∃ a, m[k]? = some a ∧ f a = b := by
  rwa [ExtTreeMap.getElem?_map, Option.map_eq_some_iff] at h

/-- The entry that a search finds. -/
theorem lookup_of_find {m : Table κ α} {f : κ × α → Bool} {k : κ} {a : α} (h : m.toList.find? f = some (k, a)) :
    m[k]? = some a ∧ f (k, a) = true :=
  ⟨ExtTreeMap.mem_toList_iff_getElem?_eq_some.mp (List.mem_of_find?_eq_some h), List.find?_some h⟩

/-- No entry that a search passes over is what it looks for. -/
theorem not_of_find {m : Table κ α} {f : κ × α → Bool} (h : m.toList.find? f = none) {k : κ} {a : α}
    (hm : m[k]? = some a) : ¬ f (k, a) :=
  List.find?_eq_none.mp h _ (ExtTreeMap.mem_toList_iff_getElem?_eq_some.mpr hm)

omit [LawfulEqOrd κ] in
theorem lookup_of_mem {m : Table κ α} {k : κ} (h : k ∈ m) : ∃ a, m[k]? = some a :=
  Option.isSome_iff_exists.mp (ExtTreeMap.mem_iff_isSome_getElem?.mp h)

section
variable [DecidableEq κ]

/-- An inserted entry is the only one that changes. -/
theorem lookup_insert (m : Table κ α) (k k' : κ) (a : α) :
    (m.insert k a)[k']? = if k' = k then some a else m[k']? := by
  by_cases h : k' = k
  · subst h
    simp
  · have hne : compare k k' ≠ .eq := fun he => h (LawfulEqOrd.eq_of_compare he).symm
    rw [ExtTreeMap.getElem?_insert, if_neg hne, if_neg h]

/-- Inserting changes nothing exactly if the entry is there. -/
theorem insert_eq_self {m : Table κ α} {k : κ} {a : α} : m.insert k a = m ↔ m[k]? = some a := by
  constructor
  · intro h
    rw [← h, lookup_insert, if_pos rfl]
  · intro h
    refine ExtTreeMap.ext_getElem? fun k' => ?_
    rw [lookup_insert]
    split
    · rename_i hk
      rw [hk, h]
    · rfl

/-- An erased entry is the only one that goes. -/
theorem lookup_erase (m : Table κ α) (k k' : κ) :
    (m.erase k)[k']? = if k' = k then none else m[k']? := by
  by_cases h : k' = k
  · subst h
    simp
  · have hne : compare k k' ≠ .eq := fun he => h (LawfulEqOrd.eq_of_compare he).symm
    rw [ExtTreeMap.getElem?_erase, if_neg hne, if_neg h]

/-- What is left after an erasure was there before. -/
theorem lookup_of_erase {m : Table κ α} {k k' : κ} {a : α} (h : (m.erase k)[k']? = some a) : m[k']? = some a := by
  rw [lookup_erase] at h
  split at h
  · cases h
  · exact h

/-- A modified entry is the only one that changes, and stays where it is. -/
theorem lookup_modify (m : Table κ α) (k k' : κ) (f : α → α) :
    (m.modify k f)[k']? = if k' = k then m[k']?.map f else m[k']? := by
  by_cases h : k' = k
  · subst h
    simp
  · have hne : compare k k' ≠ .eq := fun he => h (LawfulEqOrd.eq_of_compare he).symm
    rw [ExtTreeMap.getElem?_modify, if_neg hne, if_neg h]

end

/-! ### Lookups of the entries that meet a condition -/

section
variable [DecidableEq κ] {m : Table κ α} {k : κ} {a : α} {p : α → Bool}

/-- An insertion shows only where the new or the displaced entry does. -/
theorem filter_insert (hnew : p a = false) (hold : ∀ b, m[k]? = some b → p b = false) (k' : κ) :
    (m.insert k a)[k']?.filter p = m[k']?.filter p := by
  rw [lookup_insert]
  split
  · rename_i h
    subst h
    cases hm : m[k']? with
    | none => simp [Option.filter, hnew]
    | some b => simp [Option.filter, hnew, hold b hm]
  · rfl

/-- Taking out an entry that does not count makes no difference to those that do. -/
theorem filter_erase (hold : ∀ b, m[k]? = some b → p b = false) (k' : κ) :
    (m.erase k)[k']?.filter p = m[k']?.filter p := by
  rw [lookup_erase]
  split
  · rename_i h
    subst h
    cases hm : m[k']? with
    | none => rfl
    | some b => simp [Option.filter, hold b hm]
  · rfl

/-- Nor does changing one that counts neither before nor after. -/
theorem filter_modify {f : α → α} (hold : ∀ b, m[k]? = some b → p b = false ∧ p (f b) = false) (k' : κ) :
    (m.modify k f)[k']?.filter p = m[k']?.filter p := by
  rw [lookup_modify]
  split
  · rename_i h
    subst h
    cases hm : m[k']? with
    | none => rfl
    | some b => simp [Option.filter, hold b hm]
  · rfl

end

/-- The keys whose entry meets a condition. -/
def keysWhere (f : κ → α → Bool) (m : Table κ α) : List κ :=
  (m.toList.filter fun p => f p.1 p.2).map Prod.fst

/-- The keys of the entries that pass the test. -/
theorem mem_keysWhere {f : κ → α → Bool} {m : Table κ α} {k : κ} :
    k ∈ keysWhere f m ↔ ∃ a, m[k]? = some a ∧ f k a = true := by
  simp only [keysWhere, List.mem_map, List.mem_filter, Prod.exists,
    ExtTreeMap.mem_toList_iff_getElem?_eq_some]
  constructor
  · rintro ⟨_, a, h, rfl⟩
    exact ⟨a, h⟩
  · rintro ⟨a, h⟩
    exact ⟨k, a, h, rfl⟩

theorem nodup_map_fst_toList (m : Table κ α) : (m.toList.map Prod.fst).Nodup := by
  rw [List.nodup_iff_pairwise_ne, List.pairwise_map]
  have := ExtTreeMap.distinct_keys_toList (t := m)
  exact this.imp fun hab he => hab (by rw [he]; exact ReflCmp.compare_self)

theorem nodup_keysWhere (f : κ → α → Bool) (m : Table κ α) : (keysWhere f m).Nodup :=
  (nodup_map_fst_toList m).sublist (List.filter_sublist.map _)

omit [Ord κ] [TransOrd κ] [LawfulEqOrd κ] in
/-- Looking up in a list goes from its front. -/
theorem lookup_cons_eq [DecidableEq κ] (k key : κ) (a : α) (rest : List (κ × α)) :
    ((key, a) :: rest).lookup k = if k = key then some a else rest.lookup k := by
  rw [List.lookup_cons]
  by_cases h : k = key
  · simp [h]
  · rw [beq_eq_false_iff_ne.mpr h, if_neg h]

omit [Ord κ] [TransOrd κ] [LawfulEqOrd κ] in
/-- A key that is not in the list is not found. -/
theorem lookup_of_not_mem [DecidableEq κ] {l : List (κ × α)} {k : κ} (h : k ∉ l.map Prod.fst) :
    l.lookup k = none := by
  rw [List.lookup_eq_none_iff]
  intro e he
  rw [bne_iff_ne]
  exact fun hk => h (List.mem_map.mpr ⟨e, he, hk.symm⟩)

omit [Ord κ] [TransOrd κ] [LawfulEqOrd κ] in
/-- Entries under keys of their own are found by their keys. -/
theorem lookup_eq_some_iff [DecidableEq κ] {l : List (κ × α)} (hl : (l.map Prod.fst).Nodup) {k : κ} {a : α} :
    l.lookup k = some a ↔ (k, a) ∈ l := by
  induction l with
  | nil => simp
  | cons entry rest ih =>
    obtain ⟨hkey, hrest⟩ := List.nodup_cons.mp hl
    rw [lookup_cons_eq, List.mem_cons]
    by_cases h : k = entry.1
    · have hnot : (k, a) ∉ rest := fun hm => hkey (List.mem_map.mpr ⟨_, hm, h⟩)
      simp [h, Prod.ext_iff, eq_comm, h ▸ hnot]
    · simp [h, Prod.ext_iff, ih hrest]

theorem lookup_toList [DecidableEq κ] (m : Table κ α) (k : κ) : m.toList.lookup k = m[k]? := by
  refine Option.ext fun a => ?_
  rw [lookup_eq_some_iff (nodup_map_fst_toList m), ExtTreeMap.mem_toList_iff_getElem?_eq_some]

/-- What a table starts with: the entries before every one that fails a condition. -/
theorem mem_takeWhile_toList {m : Table κ α} {f : κ × α → Bool} {k : κ} {a : α} :
    (k, a) ∈ m.toList.takeWhile f ↔
      m[k]? = some a ∧ ∀ k' a', m[k']? = some a' → f (k', a') = false → compare k k' = .lt := by
  have hsorted : ∀ {l : List (κ × α)}, l.Pairwise (fun x y => compare x.1 y.1 = .lt) → ∀ e : κ × α,
      e ∈ l.takeWhile f ↔ e ∈ l ∧ ∀ b ∈ l, f b = false → compare e.1 b.1 = .lt := by
    intro l hl e
    induction l with
    | nil => simp
    | cons x rest ih =>
      obtain ⟨hx, hrest⟩ := List.pairwise_cons.mp hl
      cases hf : f x with
      | true =>
        rw [List.takeWhile_cons_of_pos hf, List.mem_cons, List.mem_cons, List.forall_mem_cons, ih hrest]
        grind
      | false =>
        -- nothing comes before the head
        rw [List.takeWhile_cons_of_neg (by simp [hf])]
        refine ⟨nofun, fun ⟨hm, hlt⟩ => ?_⟩
        have hhead := hlt x List.mem_cons_self hf
        rcases List.mem_cons.mp hm with rfl | hm
        · have hself : compare e.1 e.1 = .eq := ReflCmp.compare_self
          cases hhead.symm.trans hself
        · have hback := OrientedCmp.gt_of_lt hhead
          rw [hx e hm] at hback
          cases hback
  rw [hsorted ExtTreeMap.ordered_keys_toList]
  simp only [Prod.forall, ExtTreeMap.mem_toList_iff_getElem?_eq_some]

/-- `f` added up over the entries of a table. -/
def total (f : κ → α → Nat) (m : Table κ α) : Nat :=
  (m.toList.map fun p => f p.1 p.2).sum

omit [LawfulEqOrd κ] in
@[simp] theorem total_empty (f : κ → α → Nat) : total f (∅ : Table κ α) = 0 := rfl

/-- A present entry and the rest of the table. -/
theorem toList_perm_cons {m : Table κ α} {k : κ} {a : α} (h : m[k]? = some a) :
    m.toList.Perm ((k, a) :: (m.erase k).toList) := by
  have hnot : (k, a) ∉ (m.erase k).toList := by
    rw [ExtTreeMap.mem_toList_iff_getElem?_eq_some]
    simp
  refine (List.perm_ext_iff_of_nodup (nodup_toList m)
    (List.nodup_cons.mpr ⟨hnot, nodup_toList _⟩)).mpr fun ⟨k', a'⟩ => ?_
  simp only [List.mem_cons, ExtTreeMap.mem_toList_iff_getElem?_eq_some, Prod.mk.injEq]
  grind

theorem total_of_getElem? (f : κ → α → Nat) {m : Table κ α} {k : κ} {a : α} (h : m[k]? = some a) :
    total f m = f k a + total f (m.erase k) := by
  have := ((toList_perm_cons h).map fun p => f p.1 p.2).sum_eq
  simpa [total] using this

theorem erase_of_none {m : Table κ α} {k : κ} (h : m[k]? = none) : m.erase k = m := by
  apply ExtTreeMap.ext_getElem?
  intro k'
  grind

theorem erase_insert (m : Table κ α) (k : κ) (a : α) : (m.insert k a).erase k = m.erase k := by
  apply ExtTreeMap.ext_getElem?
  intro k'
  grind

/-- What a key's entry adds to a total: nothing when there is none. -/
def shareAt (f : κ → α → Nat) (m : Table κ α) (k : κ) : Nat :=
  (m[k]?).elim 0 (f k)

/-- A total is the share of one key and the total of the rest. -/
theorem total_erase (f : κ → α → Nat) (m : Table κ α) (k : κ) :
    total f (m.erase k) + shareAt f m k = total f m := by
  cases h : m[k]? with
  | none => simp [shareAt, h, erase_of_none h]
  | some a =>
    rw [total_of_getElem? f h]
    simp [shareAt, h, Nat.add_comm]

/-- Inserting replaces the share of the key. -/
theorem total_insert (f : κ → α → Nat) (m : Table κ α) (k : κ) (a : α) :
    total f (m.insert k a) + shareAt f m k = total f m + f k a := by
  have hself : (m.insert k a)[k]? = some a := by grind
  have herase := total_erase f m k
  rw [total_of_getElem? f hself, erase_insert]
  omega

omit [LawfulEqOrd κ] in
theorem shareAt_of_not_mem (f : κ → α → Nat) {m : Table κ α} {k : κ} (h : k ∉ m) :
    shareAt f m k = 0 := by
  rw [shareAt, ExtTreeMap.getElem?_eq_none h]
  rfl

/-- A total depends on the entries there are. -/
theorem total_congr {f g : κ → α → Nat} {m : Table κ α}
    (h : ∀ k a, m[k]? = some a → f k a = g k a) : total f m = total g m := by
  unfold total
  congr 1
  apply List.map_congr_left
  rintro ⟨k, a⟩ hm
  exact h k a (ExtTreeMap.mem_toList_iff_getElem?_eq_some.mp hm)

/-- The entries of a mapped table are the mapped entries. -/
theorem toList_map_perm {β : Type} (g : κ → α → β) (m : Table κ α) :
    (m.map g).toList.Perm (m.toList.map fun p => (p.1, g p.1 p.2)) := by
  have hnodup : (m.toList.map fun p => (p.1, g p.1 p.2)).Nodup := by
    refine List.Nodup.of_map Prod.fst ?_
    rw [List.map_map]
    exact nodup_map_fst_toList m
  refine (List.perm_ext_iff_of_nodup (nodup_toList _) hnodup).mpr fun ⟨k, b⟩ => ?_
  simp only [List.mem_map, ExtTreeMap.mem_toList_iff_getElem?_eq_some, ExtTreeMap.getElem?_map,
    Option.map_eq_some_iff, Prod.mk.injEq, Prod.exists]
  constructor
  · rintro ⟨a, ha, rfl⟩
    exact ⟨k, a, ha, rfl, rfl⟩
  · rintro ⟨_, a, ha, rfl, rfl⟩
    exact ⟨a, ha, rfl⟩

theorem total_map {β : Type} (f : κ → β → Nat) (g : κ → α → β) (m : Table κ α) :
    total f (m.map g) = total (fun k a => f k (g k a)) m := by
  have hsum := ((toList_map_perm g m).map fun p => f p.1 p.2).sum_eq
  rw [List.map_map] at hsum
  exact hsum

omit [LawfulEqOrd κ] in
theorem total_add (f g : κ → α → Nat) (m : Table κ α) :
    total (fun k a => f k a + g k a) m = total f m + total g m :=
  List.sum_map_add

/-- Shares that are no larger make no larger total. -/
theorem total_le {f g : κ → α → Nat} {m : Table κ α}
    (h : ∀ k a, m[k]? = some a → f k a ≤ g k a) : total f m ≤ total g m := by
  have hsplit : total g m = total (fun k a => f k a + (g k a - f k a)) m :=
    total_congr fun k a hk => (Nat.add_sub_cancel' (h k a hk)).symm
  rw [hsplit, total_add]
  exact Nat.le_add_right ..

/-- A total vanishes exactly if every share does. -/
theorem total_eq_zero {f : κ → α → Nat} {m : Table κ α} :
    total f m = 0 ↔ ∀ k a, m[k]? = some a → f k a = 0 := by
  simp only [total, List.sum_eq_zero_iff_forall_eq_nat, List.mem_map, Prod.exists]
  constructor
  · intro h k a hk
    exact h _ ⟨k, a, ExtTreeMap.mem_toList_iff_getElem?_eq_some.mpr hk, rfl⟩
  · rintro h _ ⟨k, a, hm, rfl⟩
    exact h k a (ExtTreeMap.mem_toList_iff_getElem?_eq_some.mp hm)

theorem shareAt_le_total (f : κ → α → Nat) (m : Table κ α) (k : κ) : shareAt f m k ≤ total f m := by
  rw [← total_erase f m k]
  exact Nat.le_add_left ..

/-- Two keys have shares of their own. -/
theorem shareAt_add_le_total (f : κ → α → Nat) (m : Table κ α) {k k' : κ} (h : k ≠ k') :
    shareAt f m k + shareAt f m k' ≤ total f m := by
  have hother : shareAt f (m.erase k) k' = shareAt f m k' := by
    unfold shareAt
    congr 1
    grind
  have hle := shareAt_le_total f (m.erase k) k'
  have herase := total_erase f m k
  omega

/-- Replacing the entry at a key by one with the same share. -/
theorem total_insert_same (f : κ → α → Nat) {m : Table κ α} {k : κ} {a b : α} (h : m[k]? = some a)
    (hf : f k b = f k a) : total f (m.insert k b) = total f m := by
  have := total_insert f m k b
  simp only [shareAt, h, Option.elim_some, hf] at this
  omega

end Table
end PhoenixChannel.Library
