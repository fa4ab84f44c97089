import PhoenixChannel.Library.Machine

/-! Machines seen from outside.

Of a machine that runs, an observer may only have a list that grows: what it put out so far.
`Machine.follows` is the rule by which such a list is shown to be a run of another machine,
the one that says in which order things may be put out; where that machine then is says
where the first one is. -/
namespace PhoenixChannel.Library
namespace Machine
variable {σ ι τ ε : Type} {M : Machine σ ι} {N : Machine τ ε}

/-- **The rule for outputs**: if every step puts out what takes `N` from where it may be before the step
to where it may be after, all that was put out is a run of `N`. -/
theorem simulates (out : σ → List ε) (R : σ → τ → Prop)
    (h0 : ∃ t, N.run N.start (out M.start) = some t ∧ R M.start t)
    (hstep : ∀ s i s' t, M.Reachable s → R s t → M.step s i = some s' →
      ∃ events t', out s' = out s ++ events ∧ N.run t events = some t' ∧ R s' t')
    {s : σ} (h : M.Reachable s) : ∃ t, N.run N.start (out s) = some t ∧ R s t := by
  refine h.invariant (P := fun s => ∃ t, N.run N.start (out s) = some t ∧ R s t) h0 ?_
  rintro s i s' hr ⟨t, ht, hrel⟩ - hs
  obtain ⟨events, t', hout, hrun, hrel'⟩ := hstep s i s' t hr hrel hs
  rw [hout]
  exact ⟨t', run_append.mpr ⟨t, ht, hrun⟩, hrel'⟩

/-- The same, where the state of `N` can be read off. -/
theorem follows (out : σ → List ε) (view : σ → τ)
    (h0 : N.run N.start (out M.start) = some (view M.start))
    (hstep : ∀ s i s', M.Reachable s → M.step s i = some s' →
      ∃ events, out s' = out s ++ events ∧ N.run (view s) events = some (view s'))
    {s : σ} (h : M.Reachable s) : N.run N.start (out s) = some (view s) := by
  obtain ⟨t, ht, rfl⟩ := simulates (N := N) out (fun s t => t = view s) ⟨_, h0, rfl⟩ (by
    rintro s i s' t hr rfl hs
    obtain ⟨events, hout, hrun⟩ := hstep s i s' hr hs
    exact ⟨events, _, hout, hrun, rfl⟩) h
  exact ht

/-- What a run of `N` keeps, whatever it counts along the way. -/
theorem run_counts {α : Type} {R : τ → α → Prop} (f : α → ε → α)
    (hstep : ∀ t a e t', R t a → N.step t e = some t' → R t' (f a e)) {t t' : τ} {a : α}
    {events : List ε} (h : R t a) (hr : N.run t events = some t') : R t' (events.foldl f a) := by
  induction events generalizing t a with
  | nil =>
    cases hr
    exact h
  | cons e rest ih =>
    obtain ⟨m, hm, hrest⟩ := run_cons.mp hr
    exact ih (hstep t a e m h hm) hrest

/-- A path goes on from where a run got to. -/
theorem Reach.path {Ok : σ → ι → Prop} {s s' : σ} (h : M.Reach Ok s) (hp : M.Path Ok s s') :
    M.Reach Ok s' := by
  induction hp with
  | refl => exact h
  | step _ hok hs ih => exact .step ih hok hs

theorem Reachable.path {Ok : σ → ι → Prop} {s s' : σ} (h : M.Reachable s) (hp : M.Path Ok s s') :
    M.Reachable s' := by
  induction hp with
  | refl => exact h
  | step _ _ hs ih => exact Reachable.step ih hs

/-- A run whose steps pass a check that the condition follows from is a path. -/
theorem path_of_guarded {Ok : σ → ι → Prop} {ok : σ → ι → Bool} (himp : ∀ s i, ok s i = true → Ok s i)
    {s s' : σ} {is : List ι} (h : (M.guarded ok).run s is = some s') : M.Path Ok s s' := by
  have hfrom : ∀ (is : List ι) (t t' : σ), M.Path Ok s t → (M.guarded ok).run t is = some t' →
      M.Path Ok s t' := by
    intro is
    induction is with
    | nil =>
      intro t t' hp hr
      cases hr
      exact hp
    | cons i rest ih =>
      intro t t' hp hr
      obtain ⟨m, hm, hrest⟩ := run_cons.mp hr
      obtain ⟨hok, hs⟩ := guarded_step.mp hm
      exact ih m t' (.step hp (himp t i hok) hs) hrest
  exact hfrom is s s' .refl h

/-- A replayed run and a replayed path from where it ends, whose two ends meet a check. -/
theorem path_of_run (M : Machine σ ι) {Ok₀ Ok : σ → ι → Prop} (ok₀ ok : σ → ι → Bool)
    (himp₀ : ∀ s i, ok₀ s i = true → Ok₀ s i) (himp : ∀ s i, ok s i = true → Ok s i)
    (is js : List ι) (check : σ → σ → Bool)
    (h : ((M.guarded ok₀).run M.start is).any
      (fun s => ((M.guarded ok).run s js).any (check s)) = true) :
    ∃ s s', M.Reach Ok₀ s ∧ M.Path Ok s s' ∧ check s s' = true := by
  obtain ⟨s, hr, h⟩ := M.reach_of_guarded_run himp₀ is _ h
  cases hs : (M.guarded ok).run s js with
  | none =>
    rw [hs] at h
    cases h
  | some s' =>
    rw [hs] at h
    exact ⟨s, s', hr, path_of_guarded himp hs, h⟩

/-- What is written down of every step is what the state has put out, if each step puts out just that. -/
theorem recording_reads {note : σ → ι → σ → List ε} (out : σ → List ε) (h0 : out M.start = [])
    (hstep : ∀ s i s', M.step s i = some s' → out s' = out s ++ note s i s') {s : List ε × σ}
    (h : (M.recording note).Reachable s) : out s.2 = s.1 := by
  refine h.invariant (P := fun s => out s.2 = s.1) h0 ?_
  intro s i s' _ ih _ hs
  obtain ⟨hs, hnote⟩ := recording_step.mp hs
  rw [hstep _ _ _ hs, ih, hnote]

end Machine
end PhoenixChannel.Library
