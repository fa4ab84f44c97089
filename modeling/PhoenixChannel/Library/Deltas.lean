import Mathlib.Data.Set.Basic

/-! Sets that evolve by deltas.

A delta adds its joins and then removes its leaves. Where a sequence of deltas mentions
an element, the last delta to do so decides whether the element is in, whatever set the
sequence starts from; elsewhere the start set decides. So a sequence may be applied on top
of any part of itself: what comes out is what it makes of the start set alone. -/
namespace PhoenixChannel.Library

/-- Elements to add, then elements to remove. -/
structure Delta (α : Type) where
  joins : Set α
  leaves : Set α

namespace Delta
variable {α : Type}

def apply (d : Delta α) (S : Set α) : Set α := (S ∪ d.joins) \ d.leaves

def applyAll (ds : List (Delta α)) (S : Set α) : Set α := ds.foldl (fun S d => d.apply S) S

/-- Some delta of the sequence adds or removes `x`. -/
def Mentions (ds : List (Delta α)) (x : α) : Prop := ∃ d ∈ ds, x ∈ d.joins ∨ x ∈ d.leaves

@[simp] theorem applyAll_nil (S : Set α) : applyAll [] S = S := rfl

@[simp] theorem applyAll_cons (d : Delta α) (ds : List (Delta α)) (S : Set α) :
    applyAll (d :: ds) S = applyAll ds (d.apply S) := rfl

theorem applyAll_append (ds ds' : List (Delta α)) (S : Set α) :
    applyAll (ds ++ ds') S = applyAll ds' (applyAll ds S) :=
  List.foldl_append

theorem mem_apply {d : Delta α} {S : Set α} {x : α} :
    x ∈ d.apply S ↔ (x ∈ S ∨ x ∈ d.joins) ∧ x ∉ d.leaves := Iff.rfl

/-- A sequence that does not mention an element leaves it where it was. -/
theorem mem_applyAll_of_not_mentions {ds : List (Delta α)} {x : α} (h : ¬ Mentions ds x)
    (S : Set α) : x ∈ applyAll ds S ↔ x ∈ S := by
  induction ds generalizing S with
  | nil => rfl
  | cons d rest ih =>
    have hd : x ∉ d.joins ∧ x ∉ d.leaves := by
      constructor <;> exact fun hx => h ⟨d, List.mem_cons_self, by simp [hx]⟩
    have hrest : ¬ Mentions rest x := fun ⟨e, he, hx⟩ => h ⟨e, List.mem_cons_of_mem d he, hx⟩
    rw [applyAll_cons, ih hrest, mem_apply]
    simp [hd]

/-- The last delta to mention an element decides about it alone. -/
theorem mem_applyAll_of_mentions {ds : List (Delta α)} {x : α} (h : Mentions ds x)
    (S T : Set α) : x ∈ applyAll ds S ↔ x ∈ applyAll ds T := by
  induction ds generalizing S T with
  | nil =>
    obtain ⟨_, hd, _⟩ := h
    cases hd
  | cons d rest ih =>
    rw [applyAll_cons, applyAll_cons]
    by_cases hrest : Mentions rest x
    · exact ih hrest _ _
    -- nothing after `d` mentions `x`, so `d` does, and what it says does not depend on the set
    · have hd : x ∈ d.joins ∨ x ∈ d.leaves := by
        obtain ⟨e, he, hx⟩ := h
        rcases List.mem_cons.mp he with rfl | he
        · exact hx
        · exact absurd ⟨e, he, hx⟩ hrest
      rw [mem_applyAll_of_not_mentions hrest, mem_applyAll_of_not_mentions hrest, mem_apply,
        mem_apply]
      rcases hd with hx | hx <;> simp [hx]

/-- **Replaying a sequence on top of a part of itself changes nothing.** -/
theorem applyAll_replay {part ds : List (Delta α)} (h : ∀ d ∈ part, d ∈ ds) (S : Set α) :
    applyAll ds (applyAll part S) = applyAll ds S := by
  ext x
  by_cases hx : Mentions ds x
  · exact mem_applyAll_of_mentions hx _ _
  · have hpart : ¬ Mentions part x := fun ⟨d, hd, hx'⟩ => hx ⟨d, h d hd, hx'⟩
    rw [mem_applyAll_of_not_mentions hx, mem_applyAll_of_not_mentions hx,
      mem_applyAll_of_not_mentions hpart]

/-! ### A sequence merged into one delta

Merging forgets the order of the sequence: what joins somewhere joins first, and what leaves
somewhere leaves then. -/

/-- What some delta of the sequence adds, or removes. -/
def joined (ds : List (Delta α)) : Set α := { x | ∃ d ∈ ds, x ∈ d.joins }
def left (ds : List (Delta α)) : Set α := { x | ∃ d ∈ ds, x ∈ d.leaves }

/-- The last delta to mention `x` adds it and does not remove it. -/
def EndsIn (ds : List (Delta α)) (x : α) : Prop :=
  ∃ before d after, ds = before ++ d :: after ∧ x ∈ d.joins ∧ x ∉ d.leaves ∧ ¬ Mentions after x

@[simp] theorem joined_nil : joined ([] : List (Delta α)) = ∅ := by
  ext x
  simp [joined]

@[simp] theorem left_nil : left ([] : List (Delta α)) = ∅ := by
  ext x
  simp [left]

@[simp] theorem joined_cons (d : Delta α) (ds : List (Delta α)) :
    joined (d :: ds) = d.joins ∪ joined ds := by
  ext x
  simp [joined]

@[simp] theorem left_cons (d : Delta α) (ds : List (Delta α)) :
    left (d :: ds) = d.leaves ∪ left ds := by
  ext x
  simp [left]

/-- A sequence mentions what joins or leaves somewhere in it. -/
theorem mentions_iff {ds : List (Delta α)} {x : α} : Mentions ds x ↔ x ∈ joined ds ∨ x ∈ left ds := by
  simp only [Mentions, joined, left, Set.mem_ofPred_eq]
  constructor
  · rintro ⟨d, hd, hx | hx⟩
    · exact .inl ⟨d, hd, hx⟩
    · exact .inr ⟨d, hd, hx⟩
  · rintro (⟨d, hd, hx⟩ | ⟨d, hd, hx⟩)
    · exact ⟨d, hd, .inl hx⟩
    · exact ⟨d, hd, .inr hx⟩

theorem EndsIn.mem_joined {ds : List (Delta α)} {x : α} (h : EndsIn ds x) : x ∈ joined ds := by
  obtain ⟨before, d, after, rfl, hx, _⟩ := h
  exact ⟨d, by simp, hx⟩

/-- What no delta removes stays in. -/
theorem mem_applyAll_of_not_left {ds : List (Delta α)} {S : Set α} {x : α} (h : x ∉ left ds)
    (hx : x ∈ S) : x ∈ applyAll ds S := by
  induction ds generalizing S with
  | nil => exact hx
  | cons d rest ih =>
    rw [left_cons, Set.mem_union, not_or] at h
    exact ih h.2 ⟨.inl hx, h.1⟩

/-- An element is in after a sequence that ends with it in, or that leaves it alone in a
set it is in. -/
theorem mem_applyAll {ds : List (Delta α)} {S : Set α} {x : α} :
    x ∈ applyAll ds S ↔ EndsIn ds x ∨ (x ∈ S ∧ ¬ Mentions ds x) := by
  by_cases hm : Mentions ds x
  · simp only [hm, not_true_eq_false, and_false, or_false]
    induction ds generalizing S with
    | nil =>
      obtain ⟨_, hd, _⟩ := hm
      cases hd
    | cons d rest ih =>
      rw [applyAll_cons]
      by_cases hrest : Mentions rest x
      · rw [ih hrest]
        constructor
        · rintro ⟨before, e, after, rfl, he⟩
          exact ⟨d :: before, e, after, rfl, he⟩
        · rintro ⟨before, e, after, heq, hj, hl, hafter⟩
          cases before with
          | nil =>
            cases heq
            exact absurd hrest hafter
          | cons _ before =>
            cases heq
            exact ⟨before, e, after, rfl, hj, hl, hafter⟩
      -- `d` is the last to mention `x`
      · rw [mem_applyAll_of_not_mentions hrest, mem_apply]
        have hd : x ∈ d.joins ∨ x ∈ d.leaves := by
          obtain ⟨e, he, hx⟩ := hm
          rcases List.mem_cons.mp he with rfl | he
          · exact hx
          · exact absurd ⟨e, he, hx⟩ hrest
        constructor
        · rintro ⟨_, hl⟩
          exact ⟨[], d, rest, rfl, hd.resolve_right hl, hl, hrest⟩
        · rintro ⟨before, e, after, heq, hj, hl, hafter⟩
          cases before with
          | nil =>
            cases heq
            exact ⟨.inr hj, hl⟩
          | cons _ before =>
            cases heq
            exact absurd ⟨e, by simp, .inl hj⟩ hrest
  · rw [mem_applyAll_of_not_mentions hm]
    constructor
    · exact fun hx => .inr ⟨hx, hm⟩
    · rintro (hends | ⟨hx, _⟩)
      · exact absurd (mentions_iff.mpr (.inl hends.mem_joined)) hm
      · exact hx

/-- An element that leaves somewhere ends out if it was known before the sequence, and ends
in if it was not but joins somewhere. -/
def Mergeable (known : Set α) (ds : List (Delta α)) : Prop :=
  ∀ x ∈ left ds, (x ∈ known → ¬ EndsIn ds x) ∧ (x ∉ known → x ∈ joined ds → EndsIn ds x)

/-- **When a merged sequence does what the sequence does.** The merged delta takes away only
what was known before. -/
theorem merged_apply_iff {known S : Set α} (hS : S ⊆ known) (ds : List (Delta α)) :
    Delta.apply ⟨joined ds, left ds ∩ known⟩ S = applyAll ds S ↔ Mergeable known ds := by
  have hmem : ∀ x, x ∈ Delta.apply ⟨joined ds, left ds ∩ known⟩ S ↔
      (x ∈ S ∨ x ∈ joined ds) ∧ ¬ (x ∈ left ds ∧ x ∈ known) := fun x => mem_apply
  constructor
  · intro heq x hx
    have hboth := hmem x
    rw [heq, mem_applyAll] at hboth
    have hm : Mentions ds x := mentions_iff.mpr (.inr hx)
    constructor
    · intro hk hends
      exact (hboth.mp (.inl hends)).2 ⟨hx, hk⟩
    · intro hk hj
      exact (hboth.mpr ⟨.inr hj, fun h => hk h.2⟩).resolve_right fun h => h.2 hm
  · intro h
    ext x
    rw [hmem, mem_applyAll]
    by_cases hl : x ∈ left ds
    · have hm : Mentions ds x := mentions_iff.mpr (.inr hl)
      by_cases hk : x ∈ known
      · simp [hl, hk, hm, (h x hl).1 hk]
      · have hS' : x ∉ S := fun hx => hk (hS hx)
        simp only [hS', false_or, hl, hk, and_false, not_false_eq_true, and_true, false_and, or_false]
        exact ⟨(h x hl).2 hk, EndsIn.mem_joined⟩
    · by_cases hj : x ∈ joined ds
      · -- only joins mention `x`, the last of them too
        have hin : x ∈ applyAll ds Set.univ := mem_applyAll_of_not_left hl trivial
        have hm : Mentions ds x := mentions_iff.mpr (.inl hj)
        have hends := (mem_applyAll.mp hin).resolve_right fun h => h.2 hm
        simp [hj, hl, hends]
      · have hm : ¬ Mentions ds x := fun hm => (mentions_iff.mp hm).elim hj hl
        have hends : ¬ EndsIn ds x := fun hends => hj hends.mem_joined
        simp [hj, hl, hm, hends]

end Delta
end PhoenixChannel.Library
