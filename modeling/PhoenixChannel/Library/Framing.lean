import Mathlib.Data.List.Infix

/-! Items read one at a time, and lists cut at marks.

A reader that takes items until what it has meets a condition takes nothing it does not need. Where
the condition is that a mark was seen, what it takes is a `Head`: it ends with the mark and has it
nowhere earlier. -/
namespace PhoenixChannel.Library
variable {α ε : Type}

/-- Why a reader stops short. -/
inductive ReadFailure (ε : Type) where
  | closed
  | failed (error : ε)

/-- Reads until `stop` holds of what was read. -/
def readUntil (stop : List α → Bool) :
    List (Except ε α) → List α → Except (ReadFailure ε) (List α × List (Except ε α))
  | [], acc => if stop acc then .ok (acc, []) else .error .closed
  | read :: rest, acc =>
    if stop acc then .ok (acc, read :: rest)
    else
      match read with
      | .ok item => readUntil stop rest (acc ++ [item])
      | .error error => .error (.failed error)

section
variable {stop : List α → Bool} {reads rest : List (Except ε α)} {acc out items : List α}

/-- Nothing that was read made the reader stop. -/
def Unstopped (stop : List α → Bool) (acc items : List α) : Prop :=
  ∀ before, before <+: items → before ≠ items → stop (acc ++ before) = false

theorem unstopped_nil : Unstopped stop acc [] := fun _ hp hne => absurd (List.prefix_nil.mp hp) hne

/-- A reader goes on over one more item if it was not to stop before it. -/
theorem unstopped_cons {item : α} :
    Unstopped stop acc (item :: items) ↔ stop acc = false ∧ Unstopped stop (acc ++ [item]) items := by
  constructor
  · intro h
    refine ⟨by simpa using h [] List.nil_prefix (by simp), fun before hp hne => ?_⟩
    have hcons := h (item :: before) (List.cons_prefix_cons.mpr ⟨rfl, hp⟩) (by simpa using hne)
    rwa [List.append_assoc]
  · rintro ⟨h0, h⟩ before hp hne
    cases before with
    | nil => simpa using h0
    | cons first before =>
      obtain ⟨rfl, hbefore⟩ := List.cons_prefix_cons.mp hp
      have hcons := h before hbefore fun he => hne (by rw [he])
      rwa [List.append_assoc] at hcons

/-- **What a reader takes**: the items up to where it stops, and no more. -/
theorem readUntil_eq_ok :
    readUntil stop reads acc = .ok (out, rest) ↔
      ∃ items, reads = items.map .ok ++ rest ∧ out = acc ++ items ∧ stop out = true ∧ Unstopped stop acc items := by
  induction reads generalizing acc with
  | nil =>
    rw [readUntil]
    constructor
    · intro h
      split at h
      · rename_i hs
        cases h
        exact ⟨[], rfl, (List.append_nil _).symm, hs, unstopped_nil⟩
      · cases h
    · rintro ⟨items, hr, rfl, hs, -⟩
      obtain ⟨hi, rfl⟩ := List.append_eq_nil_iff.mp hr.symm
      rw [List.map_eq_nil_iff.mp hi, List.append_nil] at hs ⊢
      rw [if_pos hs]
  | cons read reads ih =>
    unfold readUntil
    constructor
    · intro h
      split at h
      · rename_i hs
        cases h
        exact ⟨[], rfl, (List.append_nil _).symm, hs, unstopped_nil⟩
      · rename_i hs
        cases read with
        | error error => cases h
        | ok item =>
          obtain ⟨items, hr, ho, hstop, hun⟩ := ih.mp h
          refine ⟨item :: items, by rw [hr]; rfl, by rw [ho, List.append_assoc]; rfl, hstop, ?_⟩
          exact unstopped_cons.mpr ⟨Bool.eq_false_iff.mpr hs, hun⟩
    · rintro ⟨items, hr, rfl, hs, hun⟩
      cases items with
      | nil =>
        rw [List.append_nil] at hs ⊢
        rw [if_pos hs, hr]
        rfl
      | cons item items =>
        obtain ⟨h0, hun⟩ := unstopped_cons.mp hun
        obtain ⟨rfl, rfl⟩ := List.cons.inj hr
        rw [if_neg (by rw [h0]; exact Bool.false_ne_true)]
        exact ih.mpr ⟨items, rfl, by rw [List.append_assoc]; rfl, hs, hun⟩

end

/-! ### Heads

A head is cut off where its mark ends for the first time, so no list has two of them. Lines that are
ended by the mark's halves, and an empty one after them, make a head. -/

/-- Ends with the mark and has it nowhere earlier. -/
structure Head (mark head : List α) : Prop where
  marked : mark <:+ head
  first : ∀ before, before <+: head → before ≠ head → ¬ mark <:+ before

/-- Lines with their ends, and an empty line. -/
def headOf (cr lf : α) (lines : List (List α)) : List α := lines.flatMap (· ++ [cr, lf]) ++ [cr, lf]

section
variable {cr lf : α} {line : List α} {lines : List (List α)}

theorem headOf_cons : headOf cr lf (line :: lines) = line ++ [cr, lf] ++ headOf cr lf lines := by
  rw [headOf, List.flatMap_cons, List.append_assoc]
  rfl

/-- Of what follows a carriage return at the front there is the line feed alone: no line is empty. -/
theorem headOf_head (h : ∀ line ∈ lines, line ≠ [] ∧ cr ∉ line) {first : α} {rest : List α}
    (he : headOf cr lf lines = first :: rest) (hf : first = cr) : rest = [lf] := by
  cases lines with
  | nil =>
    cases he
    rfl
  | cons line lines =>
    obtain ⟨hne, hcr⟩ := h line List.mem_cons_self
    obtain ⟨item, line, rfl⟩ := List.exists_cons_of_ne_nil hne
    rw [headOf_cons] at he
    cases he
    exact absurd List.mem_cons_self (hf ▸ hcr)

/-- Two ends of a line in a row come with the empty line only. -/
theorem headOf_first (hne : cr ≠ lf) (h : ∀ line ∈ lines, line ≠ [] ∧ cr ∉ line) {start rest : List α}
    (he : headOf cr lf lines = start ++ [cr, lf, cr, lf] ++ rest) : rest = [] := by
  induction lines generalizing start with
  | nil =>
    have hlength := congrArg List.length he
    simp only [headOf, List.flatMap_nil, List.nil_append, List.length_append, List.length_cons,
      List.length_nil] at hlength
    omega
  | cons line lines ih =>
    obtain ⟨-, hcr⟩ := h line List.mem_cons_self
    have hlines : ∀ line ∈ lines, line ≠ [] ∧ cr ∉ line := fun other hm => h other (List.mem_cons_of_mem _ hm)
    rw [headOf_cons] at he
    rcases List.append_eq_append_iff.mp he with ⟨after, hstart, ht⟩ | ⟨after, hline, -⟩
    · -- The two ends lie in the later lines, or they begin in this one.
      rcases after with _ | ⟨a, _ | ⟨b, _ | ⟨c, _ | ⟨d, after⟩⟩⟩⟩
      · rw [List.append_nil] at hstart
        have hstart : (start ++ [cr, lf]) ++ [cr, lf] = line ++ [cr, lf] := by
          rw [← hstart, List.append_assoc]
          rfl
        exact absurd (List.append_cancel_right hstart ▸ List.mem_append_right start List.mem_cons_self) hcr
      · have hstart : (start ++ [cr]) ++ [lf, cr, lf] = line ++ [cr, lf, a] := by
          simpa using hstart
        cases (List.append_inj' hstart rfl).2
        exact absurd rfl hne
      · have hstart : start ++ [cr, lf, cr, lf] = line ++ [cr, lf, a, b] := by simpa using hstart
        have htail := (List.append_inj' hstart rfl).2
        simp only [List.cons.injEq, true_and, and_true] at htail
        have hrest := headOf_head hlines ht htail.1.symm
        exact (List.cons.inj hrest).2
      · have hstart : start ++ [cr, lf, cr, lf] = (line ++ [cr]) ++ [lf, a, b, c] := by simpa using hstart
        exact absurd (List.cons.inj (List.append_inj' hstart rfl).2).1 hne
      · rcases List.append_eq_append_iff.mp hstart with ⟨before, -, hmark⟩ | ⟨before, -, hmark⟩
        · have hlength := congrArg List.length hmark
          simp only [List.length_append, List.length_cons, List.length_nil] at hlength
          have hbefore : before = [] := List.eq_nil_of_length_eq_zero (by omega)
          rw [hbefore, List.nil_append] at hmark
          have hagain : headOf cr lf lines = [] ++ [cr, lf, cr, lf] ++ rest := by
            rw [ht, hmark]
            rfl
          exact ih hlines hagain
        · exact ih hlines (by rw [ht, hmark])
    · refine absurd ?_ hcr
      have hlength := congrArg List.length hline
      simp only [List.length_append, List.length_cons, List.length_nil] at hlength
      have hget := congrArg (fun items => items[start.length]?) hline
      simp only [List.append_assoc, List.getElem?_append_right (Nat.le_refl _), Nat.sub_self] at hget
      rw [List.getElem?_append_left (by omega)] at hget
      exact List.mem_of_getElem? hget

/-- **Lines that are closed by an empty line are a head.** -/
theorem head_headOf (hne : cr ≠ lf) (hl : lines ≠ []) (h : ∀ line ∈ lines, line ≠ [] ∧ cr ∉ line) :
    Head [cr, lf, cr, lf] (headOf cr lf lines) where
  marked := by
    obtain ⟨init, last, rfl⟩ := (List.eq_nil_or_concat' lines).resolve_left hl
    refine ⟨init.flatMap (· ++ [cr, lf]) ++ last, ?_⟩
    rw [headOf, List.flatMap_append, List.flatMap_singleton]
    simp only [List.append_assoc, List.cons_append, List.nil_append]
  first before hp hb hm := by
    obtain ⟨rest, hrest⟩ := hp
    obtain ⟨start, rfl⟩ := hm
    have hnil := headOf_first hne h hrest.symm
    rw [hnil, List.append_nil] at hrest
    exact hb hrest

end

/-! ### Separators

What is cut at the first or at the last separator can be put together again. -/

section
variable {separator : α} {before before' after after' : List α}

/-- Two lists that are cut at their first separator. -/
theorem cut_first (h : separator ∉ before) (h' : separator ∉ before')
    (he : before ++ separator :: after = before' ++ separator :: after') : before = before' ∧ after = after' := by
  rcases List.append_eq_append_iff.mp he with ⟨middle, rfl, hm⟩ | ⟨middle, rfl, hm⟩
  · cases middle with
    | nil => exact ⟨(List.append_nil _).symm, (List.cons.inj hm).2⟩
    | cons item middle =>
      cases hm
      exact absurd (List.mem_append_right _ List.mem_cons_self) h'
  · cases middle with
    | nil => exact ⟨List.append_nil _, (List.cons.inj hm).2.symm⟩
    | cons item middle =>
      cases hm
      exact absurd (List.mem_append_right _ List.mem_cons_self) h

/-- Two lists that are cut at their last separator. -/
theorem cut_last (h : separator ∉ after) (h' : separator ∉ after')
    (he : before ++ separator :: after = before' ++ separator :: after') : before = before' ∧ after = after' := by
  have hreverse := congrArg List.reverse he
  simp only [List.reverse_append, List.reverse_cons, List.append_assoc, List.singleton_append] at hreverse
  obtain ⟨ha, hb⟩ := cut_first (fun hm => h (List.mem_reverse.mp hm)) (fun hm => h' (List.mem_reverse.mp hm)) hreverse
  exact ⟨List.reverse_injective hb, List.reverse_injective ha⟩

end

/-! ### Labels

A suffix of a text at a separator is a suffix of its labels, and the other way round. -/

section
variable {separator : α} {xs ys : List α}

/-- Whole parts at the end, with the separator before them, are a suffix of the text. -/
theorem suffix_intercalate {before after : List (List α)} (hb : before ≠ []) (ha : after ≠ []) :
    separator :: [separator].intercalate after <:+ [separator].intercalate (before ++ after) := by
  induction before with
  | nil => exact absurd rfl hb
  | cons label before ih =>
    have hne : before ++ after ≠ [] := fun he => ha (List.append_eq_nil_iff.mp he).2
    rw [List.cons_append, List.intercalate_cons_of_ne_nil hne, List.append_assoc]
    refine List.IsSuffix.trans ?_ (List.suffix_append ..)
    rw [List.singleton_append]
    cases before with
    | nil => exact List.suffix_rfl
    | cons next before => exact (ih (List.cons_ne_nil next before)).trans (List.suffix_cons ..)

/-- The last labels of a list are another's where it is the other, or ends so at a separator. -/
theorem splitOn_suffix_splitOn [BEq α] [LawfulBEq α] :
    xs.splitOn separator <:+ ys.splitOn separator ↔ ys = xs ∨ separator :: xs <:+ ys := by
  constructor
  · rintro ⟨before, he⟩
    by_cases hb : before = []
    · rw [hb, List.nil_append] at he
      refine .inl ?_
      rw [← @List.intercalate_splitOn _ ys _ _ separator, ← he, List.intercalate_splitOn]
    · refine .inr ?_
      have hsuffix : separator :: [separator].intercalate (xs.splitOn separator) <:+ _ :=
        suffix_intercalate hb (List.splitOn_ne_nil separator xs)
      rwa [he, List.intercalate_splitOn, List.intercalate_splitOn] at hsuffix
  · rintro (rfl | ⟨before, rfl⟩)
    · exact List.suffix_rfl
    · rw [List.splitOn_append_cons_self]
      exact List.suffix_append ..

end

end PhoenixChannel.Library
