import PhoenixChannel.Runtime.Protocol

/-! Reference numbers.

`allocate_reference` prints a 64-bit counter that wraps and skips zero. As long as fewer
than 2^64 references were allocated it has not wrapped: the n-th reference is the decimal
text of n, so a new one differs from every earlier one. -/
namespace PhoenixChannel.Runtime
namespace Protocol

/-- `r` is one of the references handed out so far. -/
def Issued (p : Protocol) (r : Reference) : Prop :=
  ∃ n, 0 < n ∧ n ≤ p.allocated ∧ r = n.repr

/-- The counter has not wrapped. -/
def Unwrapped (p : Protocol) : Prop := p.nextReference.toNat = p.allocated

/-- The reference the next allocation hands out. -/
def nextText (p : Protocol) : Reference := (advance p.nextReference).toNat.repr

@[simp] theorem allocateReference_fst (p : Protocol) : p.allocateReference.1 = p.nextText := rfl

@[simp] theorem allocateReference_channels (p : Protocol) :
    p.allocateReference.2.channels = p.channels := rfl

@[simp] theorem allocateReference_pending (p : Protocol) :
    p.allocateReference.2.pending = p.pending := rfl

@[simp] theorem allocateReference_allocated (p : Protocol) :
    p.allocateReference.2.allocated = p.allocated + 1 := rfl

@[simp] theorem allocateReference_nextReference (p : Protocol) :
    p.allocateReference.2.nextReference = advance p.nextReference := rfl

/-- Short of the end of its range the counter goes up by one. -/
theorem advance_toNat {n : UInt64} (h : n.toNat + 1 < 2 ^ 64) :
    (advance n).toNat = n.toNat + 1 := by
  have hadd : (n + 1).toNat = n.toNat + 1 := by
    rw [UInt64.toNat_add]
    exact Nat.mod_eq_of_lt h
  have hne : n + 1 ≠ 0 := by
    intro h0
    rw [h0] at hadd
    simp at hadd
  simp only [advance, if_neg hne, hadd]

theorem nextText_eq {p : Protocol} (h : p.Unwrapped) (hb : p.allocated + 1 < 2 ^ 64) :
    p.nextText = (p.allocated + 1).repr := by
  unfold nextText
  rw [advance_toNat (by rw [h]; exact hb), h]

/-- One more reference, and still the counter counts them. -/
theorem unwrapped_advance {p p' : Protocol} (h : p.Unwrapped)
    (hn : p'.nextReference = advance p.nextReference) (ha : p'.allocated = p.allocated + 1)
    (hb : p'.allocated < 2 ^ 64) : p'.Unwrapped := by
  unfold Unwrapped
  rw [hn, ha, advance_toNat (by rw [h]; omega), h]

theorem Issued.mono {p p' : Protocol} {r : Reference} (h : p.Issued r)
    (ha : p.allocated ≤ p'.allocated) : p'.Issued r := by
  obtain ⟨n, h0, hn, rfl⟩ := h
  exact ⟨n, h0, by omega, rfl⟩

/-- A new reference is issued by the allocation that returns it. -/
theorem issued_nextText {p p' : Protocol} (h : p.Unwrapped) (ha : p'.allocated = p.allocated + 1)
    (hb : p'.allocated < 2 ^ 64) : p'.Issued p.nextText :=
  ⟨p.allocated + 1, by omega, by omega, nextText_eq h (by omega)⟩

/-- **A new reference is new.** -/
theorem not_issued_nextText {p : Protocol} (h : p.Unwrapped) (hb : p.allocated + 1 < 2 ^ 64) :
    ¬ p.Issued p.nextText := by
  rintro ⟨n, _, hn, he⟩
  rw [nextText_eq h hb] at he
  have := Nat.repr_injective he
  omega

/-- The counter has not wrapped and the pending table is keyed by issued references. -/
structure Numbered (p : Protocol) : Prop where
  unwrapped : p.Unwrapped
  pending : ∀ r, r ∈ p.pending → p.Issued r

theorem numbered_new : new.Numbered :=
  ⟨rfl, fun r hr => absurd hr (by simp [new])⟩

theorem Numbered.fresh {p : Protocol} (h : p.Numbered) (hb : p.allocated + 1 < 2 ^ 64) :
    p.nextText ∉ p.pending :=
  fun hm => not_issued_nextText h.unwrapped hb (h.pending _ hm)

/-- One allocation whose reference may enter the pending table. -/
theorem Numbered.allocate {p p' : Protocol} (h : p.Numbered)
    (hn : p'.nextReference = advance p.nextReference) (ha : p'.allocated = p.allocated + 1)
    (hp : ∀ r, r ∈ p'.pending → r ∈ p.pending ∨ r = p.nextText) (hb : p'.allocated < 2 ^ 64) :
    p'.Numbered := by
  refine ⟨unwrapped_advance h.unwrapped hn ha hb, fun r hr => ?_⟩
  rcases hp r hr with hr | rfl
  · exact (h.pending r hr).mono (by omega)
  · exact issued_nextText h.unwrapped ha hb

/-- No allocation, and nothing new pending. -/
theorem Numbered.keep {p p' : Protocol} (h : p.Numbered) (hn : p'.nextReference = p.nextReference)
    (ha : p'.allocated = p.allocated) (hp : ∀ r, r ∈ p'.pending → r ∈ p.pending) : p'.Numbered := by
  refine ⟨?_, fun r hr => (h.pending r (hp r hr)).mono (by omega)⟩
  unfold Unwrapped
  rw [hn, ha]
  exact h.unwrapped

end Protocol
end PhoenixChannel.Runtime
