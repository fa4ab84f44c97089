import PhoenixChannel.Native.Lives
import Mathlib.Tactic.NormNum

/-! Cancelled requests do not run.

`Told` is what the log says of a request: nothing is executed after its `Cancel` was
handled, and by then its task, if it has one, is aborted. It is kept by every step of a
life, and lives do not touch each other. -/
namespace PhoenixChannel.Native
open Library

/-- Nothing of the request is executed once its `Cancel` was handled. -/
def NotRunAfterCancel (id : RequestId) (log : List Event) : Prop :=
  log.Pairwise fun e e' => e = .handled (.cancel id) → e' ≠ .executed id

def IssuedOnce (id : RequestId) (log : List Event) : Prop :=
  log.Pairwise fun e e' => e = .issued id → e' ≠ .issued id

section
variable {id : RequestId} {log : List Event} {e : Event}

theorem NotRunAfterCancel.note (h : NotRunAfterCancel id log) (he : e ≠ .executed id) :
    NotRunAfterCancel id (log ++ [e]) := by
  refine List.pairwise_append.mpr ⟨h, List.pairwise_singleton .., fun a _ b hb _ => ?_⟩
  rw [List.mem_singleton.mp hb]
  exact he

theorem NotRunAfterCancel.execute (h : NotRunAfterCancel id log) (hnot : .handled (.cancel id) ∉ log) :
    NotRunAfterCancel id (log ++ [e]) :=
  List.pairwise_append.mpr ⟨h, List.pairwise_singleton .., fun _ ha _ _ he => absurd (he ▸ ha) hnot⟩

theorem IssuedOnce.note (h : IssuedOnce id log) (he : e ≠ .issued id) : IssuedOnce id (log ++ [e]) := by
  refine List.pairwise_append.mpr ⟨h, List.pairwise_singleton .., fun a _ b hb _ => ?_⟩
  rw [List.mem_singleton.mp hb]
  exact he

end

namespace View

/-- What the log of a request promises. -/
structure Told (v : View) (id : RequestId) : Prop where
  never : NotRunAfterCancel id v.log
  once : IssuedOnce id v.log
  cancelled : .handled (.cancel id) ∈ v.log → ¬ v.Unsent id ∧
    (∀ (c : HostCommand) (rest : List HostCommand), v.orders = c :: rest → v.cancelled = true) ∧
    ∀ (t : TaskId) (task : Task), v.tasks t = some task → task.aborted = true

variable {v v' : View} {id : RequestId}

/-- A command that is taken up was not cancelled. -/
theorem Told.not_cancelled (h : v.Told id) {c : HostCommand} {rest : List HostCommand} (hq : v.orders = c :: rest)
    (hc : v.cancelled = false) : .handled (.cancel id) ∉ v.log := by
  intro hm
  simp [(h.cancelled hm).2.1 c rest hq] at hc

/-- Nothing runs for a request whose `Cancel` comes up now, once it is dealt with. -/
theorem Booked.tasks_of_operation_none (h : v.Booked id) (ho : v.operation = none) :
    ∀ (t : TaskId) (task : Task), v.tasks t = some task → task.aborted = true := by
  intro t task ht
  by_contra ha
  have := h.tracked t task ht (by simpa using ha)
  simp [ho] at this

/-- **Every step of a life keeps the log's promise.** -/
theorem Told.life (h : v.Told id) (hb : v.Booked id) (hl : Life id v v') (hnew : v.Blank → v.log = []) :
    v'.Told id := by
  have hcancelled := h.cancelled
  cases hl with
  | issue hblank =>
    have hlog := hnew hblank
    exact ⟨by simp [hlog, NotRunAfterCancel], by simp [hlog, IssuedOnce], fun hm => by simp [hlog] at hm⟩
  | register hc => exact ⟨h.never, h.once, fun hm => absurd ⟨_, _, .inl hc⟩ (hcancelled hm).1⟩
  | submit hc => exact ⟨h.never, h.once, fun hm => absurd ⟨_, _, .inr hc⟩ (hcancelled hm).1⟩
  | answered hc | abandoned hc =>
    refine ⟨h.never, h.once, fun hm => ⟨fun ⟨n, request, hn⟩ => (hcancelled hm).1 ⟨n, request, ?_⟩, (hcancelled hm).2⟩⟩
    grind
  | registered hq =>
    exact ⟨h.never.note (by simp), h.once.note (by simp), fun hm => hcancelled (by simpa using hm)⟩
  | aborted hq ho =>
    refine ⟨h.never.note (by simp), h.once.note (by simp), fun _ =>
      ⟨hb.sent_of_mail (by rw [hq]; exact List.mem_cons_self) (by simp), fun c rest horder => ?_, fun t task ht => ?_⟩⟩
    · simp [(hb.ordered c rest horder).2.2.2.1] at ho
    · obtain ⟨hne, htask⟩ | hab := task_of_abort ht
      · by_contra ha
        exact hne (Option.some.inj ((hb.tracked t task htask (by simpa using ha)).symm.trans ho))
      · exact hab
  | cancelled hq ho hk =>
    exact ⟨h.never.note (by simp), h.once.note (by simp), fun _ =>
      ⟨hb.sent_of_mail (by rw [hq]; exact List.mem_cons_self) (by simp), fun c rest _ => rfl,
        hb.tasks_of_operation_none ho⟩⟩
  | unheard hq ho hk =>
    refine ⟨h.never.note (by simp), h.once.note (by simp), fun _ =>
      ⟨hb.sent_of_mail (by rw [hq]; exact List.mem_cons_self) (by simp), fun c rest horder => ?_,
        hb.tasks_of_operation_none ho⟩⟩
    -- its `Register` came first, and only the command itself takes it off the books again
    have hfirst := hb.first
    obtain hm | hknown := (hb.ordered c rest horder).2.1
    · simp only [hq, List.tail_cons, List.mem_cons, reduceCtorEq, false_or] at hm hfirst
      exact absurd hm hfirst
    · simp [hk] at hknown
  | finished hq =>
    refine ⟨h.never.note (by simp), h.once.note (by simp), fun hm => ?_⟩
    obtain ⟨hsent, _, htasks⟩ := hcancelled (by simpa using hm)
    exact ⟨hsent, fun c rest horder => absurd (by simp [hq]) (hb.ordered c rest horder).2.2.1, htasks⟩
  | skipped hq hc =>
    refine ⟨h.never.note (by simp), h.once.note (by simp), fun hm => ?_⟩
    obtain ⟨hsent, _, htasks⟩ := hcancelled (by simpa using hm)
    exact ⟨hsent, fun c rest horder => by simp [(hb.ordered _ _ hq).1] at horder, htasks⟩
  | tracked hq hc | opened hq hc =>
    have hnot := h.not_cancelled hq hc
    exact ⟨h.never.execute hnot, h.once.note (by simp), fun hm => absurd (by simpa using hm) hnot⟩
  | responded => exact h
  | completed ht ha | reaped ht ha =>
    refine ⟨h.never, h.once, fun hm => ?_⟩
    obtain ⟨hsent, horders, htasks⟩ := hcancelled hm
    exact ⟨hsent, horders, fun t task ht => by grind⟩

end View
namespace State
variable {s s' : State} {input : Input} {id : RequestId}

/-- A step is about a request that somebody holds something of, unless it issues the id. -/
theorem not_blank_of_subject (hid : s.subject input = some id) (hissue : ∀ caller, input ≠ .issue caller) :
    ¬ (s.view id).Blank := by
  intro hb
  have htask : ∀ {t : TaskId}, (s.tasks[t]?.map Task.requestId) ≠ some id := by
    intro t ht
    obtain ⟨task, ht, hr⟩ := Option.map_eq_some_iff.mp ht
    cases (hb.tasks t).symm.trans (view_task ht hr)
  have hcaller : ∀ {n : CallerId}, (s.callers[n]?.bind fun c => c.phase.id?) ≠ some id := by
    intro n hn
    obtain ⟨c, hc, hp⟩ := Option.bind_eq_some_iff.mp hn
    cases (hb.callers n).symm.trans (view_caller hc hp)
  cases input with
  | reserve | dropHandle | submitShutdown | dropOwner | stop => cases hid
  | issue caller => exact hissue caller rfl
  | register caller | submit caller | receive caller | drop caller => exact hcaller hid
  | control =>
    obtain ⟨m, hm, hr⟩ := Option.bind_eq_some_iff.mp hid
    obtain ⟨rest, hq⟩ := List.head?_eq_some_iff.mp hm
    cases hb.mail.symm.trans (view_mail hq hr)
  | command opening =>
    obtain ⟨c, hc, hr⟩ := Option.bind_eq_some_iff.mp hid
    obtain ⟨rest, hq⟩ := List.head?_eq_some_iff.mp hc
    cases hb.orders.symm.trans (view_orders hq hr)
  | respond task success | reap task => exact htask hid
  | finish =>
    obtain ⟨task, _, ht⟩ := Option.bind_eq_some_iff.mp hid
    exact htask ht

/-- Ids are issued in order, and the next ones are unknown to everybody. -/
structure Numbered (s : State) : Prop where
  next : s.nextRequest.toNat = s.issued + 1
  unissued : ∀ id : RequestId, id.toNat = 0 ∨ s.issued < id.toNat → (s.view id).Blank ∧ (s.view id).log = []

theorem numbered_start (capacity : Nat) : (start capacity).Numbered :=
  ⟨rfl, fun id _ => ⟨start_blank capacity id, rfl⟩⟩

/-- The counter hands out the next id. -/
theorem Numbered.nextRequestId_eq (h : s.Numbered) :
    nextRequestId s.nextRequest = (s.nextRequest, s.nextRequest + 1) := by
  have hne : s.nextRequest ≠ 0 := by
    intro h0
    have := h.next
    simp [h0] at this
  simp [nextRequestId, hne]

theorem Numbered.fresh (h : s.Numbered) : s.FreshIds input := by
  intro caller _
  rw [h.nextRequestId_eq]
  exact (h.unissued _ (.inr (by rw [h.next]; exact Nat.lt_succ_self _))).1

/-- A request id is handed out where a request is issued, and nowhere else. -/
theorem issued_of_move (hm : s.Move input s') :
    (s'.issued = s.issued ∧ s'.nextRequest = s.nextRequest ∧ ∀ caller, input ≠ .issue caller) ∨
      (s'.issued = s.issued + 1 ∧ s'.nextRequest = (nextRequestId s.nextRequest).2 ∧
        s.subject input = some (nextRequestId s.nextRequest).1) := by
  cases hm with
  | issue hc => exact .inr ⟨rfl, rfl, rfl⟩
  | stop hi hl => exact .inl ⟨rfl, rfl, hi⟩
  | _ => exact .inl ⟨rfl, rfl, nofun⟩

/-- As long as ids do not come round, an id that is handed out is new to everybody. -/
theorem Numbered.move (h : s.Numbered) (hs : s.Sound) (hrun : s.running = true) (hm : s.Move input s')
    (hbound : s'.issued < 2 ^ 64 - 1) : s'.Numbered := by
  have hbefore : s.issued ≤ s'.issued := by
    obtain ⟨hi, _, _⟩ | ⟨hi, _, _⟩ := issued_of_move hm <;> omega
  constructor
  · obtain ⟨hi, hn, _⟩ | ⟨hi, hn, _⟩ := issued_of_move hm
    · rw [hi, hn]
      exact h.next
    · rw [h.nextRequestId_eq] at hn
      have hnext := h.next
      rw [hn, UInt64.toNat_add, show (1 : UInt64).toNat = 1 from rfl]
      omega
  · intro id hid
    obtain ⟨hblank, hlog⟩ := h.unissued id (by omega)
    by_cases hrun' : s'.running = true
    · have hother : s.subject input ≠ some id := by
        intro hsubject
        obtain ⟨_, _, hissue⟩ | ⟨hi, _, hissue⟩ := issued_of_move hm
        · exact not_blank_of_subject hsubject hissue hblank
        · rw [hsubject, h.nextRequestId_eq, Option.some.injEq] at hissue
          rw [show id = s.nextRequest from hissue, h.next] at hid
          omega
      rw [view_of_other hs hm hrun' hother]
      exact ⟨hblank, hlog⟩
    · rw [view_of_stop hm hrun (by simpa using hrun')]
      exact ⟨⟨hblank.callers, rfl, rfl, rfl, rfl, rfl, fun _ => rfl⟩, hlog⟩

/-- While ids last, the books and the logs of all requests are in order. -/
structure Ruled (s : State) : Prop where
  numbered : s.Numbered
  kept : s.Kept
  told : ∀ id, (s.view id).Told id

theorem ruled_start (capacity : Nat) : (start capacity).Ruled where
  numbered := numbered_start capacity
  kept := kept_start capacity
  told id := ⟨.nil, .nil, fun hm => by cases hm⟩

/-- Both halves of the invariant, for one move. -/
theorem Ruled.move (h : s.Ruled) (hrun : s.running = true) (hm : s.Move input s')
    (hbound : s'.issued < 2 ^ 64 - 1) : s'.Ruled where
  numbered := h.numbered.move h.kept.sound hrun hm hbound
  kept := h.kept.move hrun hm h.numbered.fresh
  told id := by
    by_cases hrun' : s'.running = true
    · by_cases hid : s.subject input = some id
      · have hl := life_of_move h.kept.sound hm h.numbered.fresh hrun' hid
        refine (h.told id).life (h.kept.booked hrun id) hl fun hblank => ?_
        by_cases hissue : ∃ caller, input = .issue caller
        · obtain ⟨caller, rfl⟩ := hissue
          rw [subject, h.numbered.nextRequestId_eq, Option.some.injEq] at hid
          subst hid
          exact (h.numbered.unissued _ (.inr (by rw [h.numbered.next]; exact Nat.lt_succ_self _))).2
        · exact absurd hblank (not_blank_of_subject hid fun caller he => hissue ⟨caller, he⟩)
      · rw [view_of_other h.kept.sound hm hrun' hid]
        exact h.told id
    · rw [view_of_stop hm hrun (by simpa using hrun')]
      refine ⟨(h.told id).never, (h.told id).once, fun hm =>
        ⟨((h.told id).cancelled hm).1, fun c rest hc => ?_, fun t task ht => ?_⟩⟩
      · cases hc
      · cases ht

/-- In every run in which ids have not come round. -/
theorem ruled_of_reachable {capacity : Nat} (h : (machine capacity).Reachable s) :
    s.issued < 2 ^ 64 - 1 → s.Ruled := by
  refine h.invariant (P := fun s => s.issued < 2 ^ 64 - 1 → s.Ruled) (fun _ => ruled_start capacity) ?_
  intro s input s' _ hP _ hs hbound
  have hm := move_of_step hs
  refine (hP ?_).move (running_of_step hs) hm hbound
  obtain ⟨hi, _, _⟩ | ⟨hi, _, _⟩ := issued_of_move hm <;> omega

/-- The worker goes on after a control command about a request. -/
theorem running_of_control {m : ControlCommand} {rest : List ControlCommand} (hq : s.control = m :: rest)
    (hm : m.request? ≠ none) (hs : s.step .control = some s') : s'.running = true := by
  have hrun := running_of_step hs
  simp only [step, hrun, if_true, turn, hq] at hs
  split at hs
  · rename_i command rest' hf he
    cases he
    cases hs
    cases m with
    | register id | finished id => rfl
    | cancel id =>
      simp only [handleControl]
      split
      · rfl
      · split <;> rfl
    | removeChannel id | shutdown => exact absurd rfl hm
  · cases hs

/-- **A cancelled request does not run on the worker.** A command is not executed after the
`Cancel` of its request was handled, and from then on a task of the request is aborted or
over; what is handled for one request leaves all that is held of another alone, and no two
requests have one id. -/
theorem cancelled_not_run {capacity : Nat} {s : State} (h : (machine capacity).Reachable s)
    (hbound : s.issued < 2 ^ 64 - 1) :
    (∀ id, NotRunAfterCancel id s.log) ∧
    (∀ id, .handled (.cancel id) ∈ s.log → ∀ (t : TaskId) (task : Task), s.tasks[t]? = some task →
      task.requestId = id → task.aborted = true) ∧
    (∀ m rest s', s.control = m :: rest → s.step .control = some s' → ∀ id id', m.request? = some id' →
      id ≠ id' → s'.view id = s.view id) ∧
    ∀ id, IssuedOnce id s.log := by
  have hruled := ruled_of_reachable h hbound
  refine ⟨fun id => ?_, fun id hm t task ht hid => ?_, fun m rest s' hq hs id id' hm hne => ?_, fun id => ?_⟩
  · refine (List.pairwise_filter.mp (hruled.told id).never).imp fun hab he => ?_
    subst he
    intro he
    subst he
    exact hab (by simp [Event.request?, ControlCommand.request?]) (by simp [Event.request?]) rfl rfl
  · refine ((hruled.told id).cancelled ?_).2.2 t task (view_task ht hid)
    simpa [view, Event.request?, ControlCommand.request?] using hm
  · refine view_of_other hruled.kept.sound (move_of_step hs) (running_of_control hq (by simp [hm]) hs) ?_
    rw [subject_control hq, hm]
    exact fun he => hne (Option.some.inj he).symm
  · refine (List.pairwise_filter.mp (hruled.told id).once).imp fun hab he => ?_
    subst he
    intro he
    subst he
    exact hab (by simp [Event.request?]) (by simp [Event.request?]) rfl rfl

/-- One call is cancelled before its command is taken, the other while its task runs. -/
theorem cancelled_not_run_both : ∃ s : State, NotRunAfterCancel 1 s.log ∧ .skipped 1 ∈ s.log ∧
    .handled (.cancel 2) ∈ s.log ∧ ∀ (t : TaskId) (task : Task), s.tasks[t]? = some task → task.requestId = 2 →
      task.aborted = true := by
  obtain ⟨s, hr, hs⟩ := Machine.reachable_of_run (machine 64)
    [.reserve (.operation (.ping none)), .issue 0, .register 0, .submit 0, .drop 0, .control, .control,
      .command .opened, .reserve (.operation .connect), .issue 1, .register 1, .submit 1, .command .opened, .drop 1,
      .control, .control]
    (fun s => s.issued < 2 ^ 64 - 1 ∧ .skipped 1 ∈ s.log ∧ .handled (.cancel 2) ∈ s.log) (by decide +kernel)
  obtain ⟨hbound, hskipped, hcancel⟩ := of_decide_eq_true hs
  have hrun := cancelled_not_run hr hbound
  exact ⟨s, hrun.1 1, hskipped, hcancel, hrun.2.1 2 hcancel⟩

end State
end PhoenixChannel.Native
