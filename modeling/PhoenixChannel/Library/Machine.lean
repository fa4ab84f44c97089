/-! Machines that step on inputs, and what their runs preserve.

A machine has one start state and a partial step: an input that is not possible in a
state leads nowhere. Everything an environment may decide is part of the input, so a
run is determined by its inputs. `Reach Ok` collects the states of those runs whose
every step meets `Ok`, `Path Ok` joins two states by such steps; `Reachable` puts no
condition on the steps. -/
namespace PhoenixChannel.Library

/-- Where a machine starts, and the state an input leads to where it is possible. -/
structure Machine (σ ι : Type) where
  start : σ
  step : σ → ι → Option σ

namespace Machine
variable {σ ι : Type}

/-- The state a list of inputs leads to, if each of them is possible in turn. -/
def run (M : Machine σ ι) : σ → List ι → Option σ
  | s, [] => some s
  | s, i :: rest => (M.step s i).bind fun s' => M.run s' rest

variable (M : Machine σ ι)

/-- The states of the runs from `start` whose every step meets `Ok`, a condition on the
state before the step and on its input. -/
inductive Reach (Ok : σ → ι → Prop) : σ → Prop where
  | start : Reach Ok M.start
  | step {s s' : σ} {i : ι} : Reach Ok s → Ok s i → M.step s i = some s' → Reach Ok s'

/-- From one state to another by steps that meet `Ok`. -/
inductive Path (Ok : σ → ι → Prop) (s : σ) : σ → Prop where
  | refl : Path Ok s s
  | step {t t' : σ} {i : ι} : Path Ok s t → Ok t i → M.step t i = some t' → Path Ok s t'

/-- The states of all runs. -/
abbrev Reachable : σ → Prop := M.Reach fun _ _ => True

variable {M}

theorem Reachable.step {s s' : σ} {i : ι} (h : M.Reachable s) (hs : M.step s i = some s') :
    M.Reachable s' :=
  Reach.step h trivial hs

/-- A weaker condition on the steps reaches more. -/
theorem Reach.mono {Ok Ok' : σ → ι → Prop} (himp : ∀ s i, Ok s i → Ok' s i) {s : σ}
    (h : M.Reach Ok s) : M.Reach Ok' s := by
  induction h with
  | start => exact .start
  | step _ hok hs ih => exact .step ih (himp _ _ hok) hs

theorem Reach.reachable {Ok : σ → ι → Prop} {s : σ} (h : M.Reach Ok s) : M.Reachable s :=
  h.mono fun _ _ _ => trivial

/-- **The invariant rule.** What holds at the start and is kept by every step from a
reached state that meets the condition holds in every reached state. -/
theorem Reach.invariant {Ok : σ → ι → Prop} {P : σ → Prop} (h0 : P M.start)
    (hstep : ∀ s i s', M.Reach Ok s → P s → Ok s i → M.step s i = some s' → P s')
    {s : σ} (h : M.Reach Ok s) : P s := by
  induction h with
  | start => exact h0
  | step hr hok hs ih => exact hstep _ _ _ hr ih hok hs

/-- What every step that meets the condition keeps, a path of such steps keeps. -/
theorem Path.invariant {Ok : σ → ι → Prop} {P : σ → Prop}
    (hstep : ∀ t i t', P t → Ok t i → M.step t i = some t' → P t') {s s' : σ} (hs : P s)
    (h : M.Path Ok s s') : P s' := by
  induction h with
  | refl => exact hs
  | step _ hok hst ih => exact hstep _ _ _ ih hok hst

@[simp] theorem run_nil (s : σ) : M.run s [] = some s := rfl

theorem run_cons {s s' : σ} {i : ι} {rest : List ι} :
    M.run s (i :: rest) = some s' ↔ ∃ m, M.step s i = some m ∧ M.run m rest = some s' := by
  simp only [run, Option.bind_eq_some_iff]

/-- A run over two lists of inputs is one run after the other. -/
theorem run_append {s s' : σ} {a b : List ι} :
    M.run s (a ++ b) = some s' ↔ ∃ m, M.run s a = some m ∧ M.run m b = some s' := by
  induction a generalizing s with
  | nil => simp
  | cons i rest ih =>
    simp only [List.cons_append, run_cons, ih]
    constructor
    · rintro ⟨m, hm, n, hn, hb⟩
      exact ⟨n, ⟨m, hm, hn⟩, hb⟩
    · rintro ⟨n, ⟨m, hm, hn⟩, hb⟩
      exact ⟨m, hm, n, hn, hb⟩

/-- The last step of a run. -/
theorem run_concat {s s' : σ} {is : List ι} {i : ι} :
    M.run s (is ++ [i]) = some s' ↔ ∃ m, M.run s is = some m ∧ M.step m i = some s' := by
  simp only [run_append, run_cons, run_nil, Option.some.injEq, exists_eq_right]

/-- A run from a reachable state ends in a reachable state. -/
theorem Reachable.run {s s' : σ} {is : List ι} (h : M.Reachable s) (hr : M.run s is = some s') :
    M.Reachable s' := by
  induction is generalizing s with
  | nil =>
    cases hr
    exact h
  | cons i rest ih =>
    obtain ⟨m, hm, hrest⟩ := run_cons.mp hr
    exact ih (h.step hm) hrest

/-- Reachable states are the ends of runs. -/
theorem reachable_iff_run {s : σ} : M.Reachable s ↔ ∃ is, M.run M.start is = some s := by
  constructor
  · intro h
    induction h with
    | start => exact ⟨[], rfl⟩
    | @step s s' i _ _ hs ih =>
      obtain ⟨is, hr⟩ := ih
      exact ⟨is ++ [i], run_concat.mpr ⟨s, hr, hs⟩⟩
  · rintro ⟨is, hr⟩
    exact Reachable.run .start hr

/-- A replayed run of inputs that meet the condition, whose end meets a check. -/
theorem reach_of_run (M : Machine σ ι) (Ok : σ → ι → Prop) (is : List ι) (check : σ → Bool)
    (hok : ∀ i ∈ is, ∀ s, Ok s i) (h : (M.run M.start is).any check = true) :
    ∃ s, M.Reach Ok s ∧ check s = true := by
  have hrun : ∀ (is : List ι) (s s' : σ), (∀ i ∈ is, ∀ s, Ok s i) → M.Reach Ok s →
      M.run s is = some s' → M.Reach Ok s' := by
    intro is
    induction is with
    | nil =>
      intro s s' _ hs hr
      cases hr
      exact hs
    | cons i rest ih =>
      intro s s' hok hs hr
      obtain ⟨m, hm, hrest⟩ := run_cons.mp hr
      exact ih m s' (fun j hj => hok j (List.mem_cons_of_mem i hj))
        (.step hs (hok i List.mem_cons_self s) hm) hrest
  cases hr : M.run M.start is with
  | none =>
    rw [hr] at h
    cases h
  | some s =>
    rw [hr] at h
    exact ⟨s, hrun is M.start s hok .start hr, h⟩

/-- A replayed run whose end meets a check. -/
theorem reachable_of_run (M : Machine σ ι) (is : List ι) (check : σ → Bool)
    (h : (M.run M.start is).any check = true) : ∃ s, M.Reachable s ∧ check s = true :=
  M.reach_of_run _ is check (fun _ _ _ => trivial) h

/-- The machine that takes only the steps that pass a check. -/
def guarded (M : Machine σ ι) (ok : σ → ι → Bool) : Machine σ ι :=
  ⟨M.start, fun s i => if ok s i then M.step s i else none⟩

theorem guarded_step {M : Machine σ ι} {ok : σ → ι → Bool} {s s' : σ} {i : ι} :
    (M.guarded ok).step s i = some s' ↔ ok s i = true ∧ M.step s i = some s' := by
  simp only [guarded, Option.ite_none_right_eq_some]

/-- Runs that pass a check are runs. -/
theorem run_of_guarded {M : Machine σ ι} {ok : σ → ι → Bool} {s s' : σ} {is : List ι}
    (h : (M.guarded ok).run s is = some s') : M.run s is = some s' := by
  induction is generalizing s with
  | nil => exact h
  | cons i rest ih =>
    obtain ⟨m, hm, hrest⟩ := run_cons.mp h
    exact run_cons.mpr ⟨m, (guarded_step.mp hm).2, ih hrest⟩

/-- What is reached under a test is reached under the condition that the test implies. -/
theorem reach_of_guarded {M : Machine σ ι} {Ok : σ → ι → Prop} {ok : σ → ι → Bool}
    (himp : ∀ s i, ok s i = true → Ok s i) {s : σ} (h : (M.guarded ok).Reachable s) :
    M.Reach Ok s := by
  induction h with
  | start => exact .start
  | @step s s' i _ _ hstep ih =>
    obtain ⟨hok, hstep⟩ := guarded_step.mp hstep
    exact .step ih (himp s i hok) hstep

/-- A replayed run whose steps pass a check that the condition follows from. -/
theorem reach_of_guarded_run (M : Machine σ ι) {Ok : σ → ι → Prop} {ok : σ → ι → Bool}
    (himp : ∀ s i, ok s i = true → Ok s i) (is : List ι) (check : σ → Bool)
    (h : ((M.guarded ok).run M.start is).any check = true) : ∃ s, M.Reach Ok s ∧ check s = true := by
  obtain ⟨s, hr, hs⟩ := (M.guarded ok).reachable_of_run is check h
  exact ⟨s, reach_of_guarded himp hr, hs⟩

/-- The machine that writes down what is to be noted of each step. -/
def recording {ε : Type} (M : Machine σ ι) (note : σ → ι → σ → List ε) : Machine (List ε × σ) ι :=
  ⟨([], M.start), fun s i => (M.step s.2 i).map fun s' => (s.1 ++ note s.2 i s', s')⟩

/-- A recorded step is a step with its notes appended. -/
theorem recording_step {ε : Type} {M : Machine σ ι} {note : σ → ι → σ → List ε}
    {s s' : List ε × σ} {i : ι} :
    (M.recording note).step s i = some s' ↔
      M.step s.2 i = some s'.2 ∧ s'.1 = s.1 ++ note s.2 i s'.2 := by
  obtain ⟨h, m⟩ := s
  obtain ⟨h', m'⟩ := s'
  simp only [recording, Option.map_eq_some_iff, Prod.mk.injEq]
  constructor
  · rintro ⟨m, hm, rfl, rfl⟩
    exact ⟨hm, rfl⟩
  · rintro ⟨hm, hh⟩
    exact ⟨m', hm, hh.symm, rfl⟩

/-- Writing down changes no run. -/
theorem Reach.of_recording {ε : Type} {M : Machine σ ι} {note : σ → ι → σ → List ε}
    {Ok : σ → ι → Prop} {s : List ε × σ}
    (h : (M.recording note).Reach (fun s i => Ok s.2 i) s) : M.Reach Ok s.2 := by
  induction h with
  | start => exact .start
  | step _ hok hs ih => exact .step ih hok (recording_step.mp hs).1

end Machine
end PhoenixChannel.Library
