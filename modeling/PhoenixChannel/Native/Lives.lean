import PhoenixChannel.Native.Requests
import Mathlib.Logic.Function.Basic

/-! The life of one request.

`Life id` says what a request can go through, in terms of its own view and nothing else.
Every step of the system is a step in the life of the request it is about, so what a life
keeps, every run keeps for every request. -/
namespace PhoenixChannel.Native
open PhoenixChannel.Runtime (Topic)
open Library

/-- One step in the life of request `id`. -/
inductive Life (id : RequestId) (v : View) : View → Prop where
  | issue {n : CallerId} {request : HostRequest} (hb : v.Blank) :
      Life id v { v with
        callers := Function.update v.callers n (some ⟨request, .issued id⟩), log := v.log ++ [.issued id] }
  | register {n : CallerId} {request : HostRequest} (hc : v.callers n = some ⟨request, .issued id⟩) :
      Life id v { v with
        callers := Function.update v.callers n (some ⟨request, .registered id⟩), mail := v.mail ++ [.register id] }
  | submit {n : CallerId} {request : HostRequest} (hc : v.callers n = some ⟨request, .registered id⟩) :
      Life id v { v with
        callers := Function.update v.callers n (some ⟨request, .waiting id⟩)
        orders := v.orders ++ [request.build id n] }
  | answered {n : CallerId} {request : HostRequest} (hc : v.callers n = some ⟨request, .waiting id⟩) :
      Life id v { v with callers := Function.update v.callers n none }
  | abandoned {n : CallerId} {request : HostRequest} (hc : v.callers n = some ⟨request, .waiting id⟩) :
      Life id v { v with callers := Function.update v.callers n none, mail := v.mail ++ [.cancel id] }
  | registered {rest : List ControlCommand} (hq : v.mail = .register id :: rest) :
      Life id v { v with mail := rest, known := true, log := v.log ++ [.handled (.register id)] }
  | aborted {rest : List ControlCommand} {t : TaskId} (hq : v.mail = .cancel id :: rest)
      (ho : v.operation = some t) :
      Life id v { v with
        mail := rest, operation := none
        tasks := Function.update v.tasks t ((v.tasks t).map fun task => { task with aborted := true })
        log := v.log ++ [.handled (.cancel id)] }
  | cancelled {rest : List ControlCommand} (hq : v.mail = .cancel id :: rest) (ho : v.operation = none)
      (hk : v.known = true) :
      Life id v { v with mail := rest, cancelled := true, log := v.log ++ [.handled (.cancel id)] }
  | unheard {rest : List ControlCommand} (hq : v.mail = .cancel id :: rest) (ho : v.operation = none)
      (hk : v.known = false) :
      Life id v { v with mail := rest, log := v.log ++ [.handled (.cancel id)] }
  | finished {rest : List ControlCommand} (hq : v.mail = .finished id :: rest) :
      Life id v { v with
        mail := rest, operation := none, known := false, cancelled := false
        log := v.log ++ [.handled (.finished id)] }
  | skipped {command : HostCommand} {rest : List HostCommand} (hq : v.orders = command :: rest)
      (hc : v.cancelled = true) :
      Life id v { v with orders := rest, known := false, cancelled := false, log := v.log ++ [.skipped id] }
  | tracked {operation : HostOperation} {response : CallerId} {rest : List HostCommand} {t : TaskId}
      {channel : Option Topic} (hq : v.orders = .operation id operation response :: rest)
      (hc : v.cancelled = false) :
      Life id v { v with
        orders := rest, known := false, cancelled := false, operation := some t
        tasks := Function.update v.tasks t (some ⟨id, response, operation, channel, false⟩)
        log := v.log ++ [.executed id] }
  | opened {topic : Topic} {response : CallerId} {rest : List HostCommand}
      (hq : v.orders = .channel id topic response :: rest) (hc : v.cancelled = false) :
      Life id v { v with orders := rest, known := false, cancelled := false, log := v.log ++ [.executed id] }
  | responded : Life id v v
  | completed {t : TaskId} {task : Task} (ht : v.tasks t = some task) (ha : task.aborted = false) :
      Life id v { v with tasks := Function.update v.tasks t none, mail := v.mail ++ [.finished id] }
  | reaped {t : TaskId} {task : Task} (ht : v.tasks t = some task) (ha : task.aborted = true) :
      Life id v { v with tasks := Function.update v.tasks t none }

theorem Life.congr {id : RequestId} {v w w' : View} (h : Life id v w) (he : w' = w) : Life id v w' := he ▸ h

namespace State

section
variable {s : State} {id : RequestId}

/-- What the id itself is seen with. -/
theorem view_caller {n : CallerId} {c : Caller} (hc : s.callers[n]? = some c) (hid : c.phase.id? = some id) :
    (s.view id).callers n = some c := by
  simp [view, hc, Option.filter, hid]

theorem view_task {t : TaskId} {task : Task} (ht : s.tasks[t]? = some task) (hid : task.requestId = id) :
    (s.view id).tasks t = some task := by
  simp [view, ht, Option.filter, hid]

theorem view_mail {m : ControlCommand} {rest : List ControlCommand} (hq : s.control = m :: rest)
    (hid : m.request? = some id) : (s.view id).mail = m :: rest.filter fun m => m.request? = some id := by
  simp [view, hq, hid]

theorem view_orders {c : HostCommand} {rest : List HostCommand} (hq : s.commands = c :: rest)
    (hid : c.request? = some id) : (s.view id).orders = c :: rest.filter fun c => c.request? = some id := by
  simp [view, hq, hid]

variable {κ α : Type} [Ord κ] [Std.TransOrd κ] [Std.LawfulEqOrd κ] [DecidableEq κ]

/-- An entry that counts is entered in the table and in the view of it. -/
theorem filter_update (m : Table κ α) (p : α → Bool) (k : κ) (a : α) (h : p a = true) :
    (fun k' => (m.insert k a)[k']?.filter p) = Function.update (fun k' => m[k']?.filter p) k (some a) := by
  funext k'
  rw [Table.lookup_insert]
  by_cases hk : k' = k
  · subst hk
    simp [Option.filter, h]
  · simp [hk]

/-- An entry that is taken out of the table is out of the view. -/
theorem filter_update_none (m : Table κ α) (p : α → Bool) (k : κ) :
    (fun k' => (m.erase k)[k']?.filter p) = Function.update (fun k' => m[k']?.filter p) k none := by
  funext k'
  rw [Table.lookup_erase]
  by_cases hk : k' = k
  · subst hk
    simp
  · simp [hk]

/-- An entry that is changed, and counts as before, is changed in the view. -/
theorem filter_update_map (m : Table κ α) (p : α → Bool) (k : κ) (f : α → α)
    (h : ∀ a, m[k]? = some a → p (f a) = p a) :
    (fun k' => (m.modify k f)[k']?.filter p) =
      Function.update (fun k' => m[k']?.filter p) k ((m[k]?.filter p).map f) := by
  funext k'
  rw [Table.lookup_modify]
  by_cases hk : k' = k
  · subst hk
    cases hm : m[k']? with
    | none => simp
    | some a =>
      have hp := h a hm
      by_cases ha : p a = true
      · simp [Option.filter, hp, ha]
      · simp [Option.filter, hp, ha]
  · simp [hk]

end

/-- **What a step does to the request it is about is a step in that request's life.** -/
theorem life_of_move {s s' : State} {input : Input} {id : RequestId} (hs : s.Sound) (hm : s.Move input s')
    (hfresh : s.FreshIds input) (hrun : s'.running = true) (hid : s.subject input = some id) :
    Life id (s.view id) (s'.view id) := by
  cases hm with
  | reserve | dropHandle | submitShutdown | dropOwner => cases hid
  | stop hi hl => cases hrun
  | issue hc =>
    cases hid
    exact (Life.issue (hfresh _ rfl)).congr
      (View.ext (filter_update _ _ _ _ (by simp [Phase.id?])) rfl rfl rfl rfl rfl rfl (by simp [view, Event.request?]))
  | register hc =>
    obtain rfl := Option.some.inj ((subject_caller hc).symm.trans hid)
    exact (Life.register (view_caller hc rfl)).congr (View.ext (filter_update _ _ _ _ (by simp [Phase.id?]))
      (by simp [view, ControlCommand.request?]) rfl rfl rfl rfl rfl rfl)
  | submit hc =>
    obtain rfl := Option.some.inj ((subject_caller hc).symm.trans hid)
    exact (Life.submit (view_caller hc rfl)).congr (View.ext (filter_update _ _ _ _ (by simp [Phase.id?])) rfl
      (by simp [view, request?_build]) rfl rfl rfl rfl rfl)
  | receiveOk hc hr =>
    obtain rfl := Option.some.inj ((subject_caller hc).symm.trans hid)
    exact (Life.answered (view_caller hc rfl)).congr
      (View.ext (filter_update_none _ _ _) rfl rfl rfl rfl rfl rfl rfl)
  | receiveRegistration hc hr =>
    obtain rfl := Option.some.inj ((subject_caller hc).symm.trans hid)
    exact (Life.answered (view_caller hc rfl)).congr
      (View.ext (filter_update_none _ _ _) rfl rfl rfl rfl rfl rfl rfl)
  | receiveError hc hr =>
    obtain rfl := Option.some.inj ((subject_caller hc).symm.trans hid)
    exact (Life.abandoned (view_caller hc rfl)).congr
      (View.ext (filter_update_none _ _ _) (by simp [view, ControlCommand.request?]) rfl rfl rfl rfl rfl rfl)
  | drop hc =>
    obtain rfl := Option.some.inj ((subject_caller hc).symm.trans hid)
    exact (Life.abandoned (view_caller hc rfl)).congr
      (View.ext (filter_update_none _ _ _) (by simp [view, ControlCommand.request?]) rfl rfl rfl rfl rfl rfl)
  | registered hq hf =>
    obtain rfl := Option.some.inj ((subject_control hq).symm.trans hid)
    exact (Life.registered (view_mail hq rfl)).congr
      (View.ext rfl rfl rfl (by simp [view]) rfl rfl rfl (by simp [view, Event.request?, ControlCommand.request?]))
  | cancelTracked hq hf ho =>
    rename_i id' rest task
    obtain rfl := Option.some.inj ((subject_control hq).symm.trans hid)
    exact (Life.aborted (view_mail hq rfl) (show (s.view id').operation = some task from ho)).congr
      (View.ext rfl rfl rfl rfl rfl (by simp [view]) (filter_update_map _ _ _ _ fun a _ => rfl)
        (by simp [view, Event.request?, ControlCommand.request?]))
  | cancelKnown hq hf ho hk =>
    obtain rfl := Option.some.inj ((subject_control hq).symm.trans hid)
    exact (Life.cancelled (view_mail hq rfl) ho (Std.ExtTreeSet.contains_iff_mem.mpr hk)).congr
      (View.ext rfl rfl rfl rfl (by simp [view]) rfl rfl (by simp [view, Event.request?, ControlCommand.request?]))
  | cancelUnknown hq hf ho hk =>
    obtain rfl := Option.some.inj ((subject_control hq).symm.trans hid)
    exact (Life.unheard (view_mail hq rfl) ho
      (Bool.eq_false_iff.mpr fun h => hk (Std.ExtTreeSet.contains_iff_mem.mp h))).congr
      (View.ext rfl rfl rfl rfl rfl rfl rfl (by simp [view, Event.request?, ControlCommand.request?]))
  | finished hq hf =>
    obtain rfl := Option.some.inj ((subject_control hq).symm.trans hid)
    exact (Life.finished (view_mail hq rfl)).congr
      (View.ext rfl rfl rfl (by simp [view]) (by simp [view]) (by simp [view]) rfl
        (by simp [view, Event.request?, ControlCommand.request?]))
  | removeChannel hq hf =>
    cases (subject_control hq).symm.trans hid
  | skip hq hf hc hk =>
    obtain rfl := Option.some.inj (hc.symm.trans ((subject_command hq _).symm.trans hid))
    exact (Life.skipped (view_orders hq hc) (Std.ExtTreeSet.contains_iff_mem.mpr hk)).congr
      (View.ext rfl rfl rfl (by simp [view]) (by simp [view]) rfl rfl (by simp [view, Event.request?]))
  | track hq hf hc =>
    obtain rfl := Option.some.inj ((subject_command hq _).symm.trans hid)
    exact (Life.tracked (view_orders hq rfl)
      (Bool.eq_false_iff.mpr fun h => hc (Std.ExtTreeSet.contains_iff_mem.mp h))).congr
      (View.ext rfl rfl rfl (by simp [view]) (by simp [view]) (by simp [view]) (filter_update _ _ _ _ (by simp))
        (by simp [view, Event.request?]))
  | refuse hq hf hc hr =>
    obtain rfl := Option.some.inj ((subject_command hq _).symm.trans hid)
    exact (Life.opened (view_orders hq rfl)
      (Bool.eq_false_iff.mpr fun h => hc (Std.ExtTreeSet.contains_iff_mem.mp h))).congr
      (View.ext rfl rfl rfl (by simp [view]) (by simp [view]) rfl rfl (by simp [view, Event.request?]))
  | openChannel hq hf hc ht hr =>
    obtain rfl := Option.some.inj ((subject_command hq _).symm.trans hid)
    exact (Life.opened (view_orders hq rfl)
      (Bool.eq_false_iff.mpr fun h => hc (Std.ExtTreeSet.contains_iff_mem.mp h))).congr
      (View.ext rfl rfl rfl (by simp [view]) (by simp [view]) rfl rfl (by simp [view, Event.request?]))
  | respond hf ht ha hr => exact .responded
  | finish hf ht =>
    simp only [subject, hf, ht, Option.bind_some, Option.map_some, Option.some.injEq] at hid
    subst hid
    exact (Life.completed (view_task ht rfl) (hs.finishing _ _ hf ht)).congr
      (View.ext rfl (by simp [view, ControlCommand.request?]) rfl rfl rfl rfl (filter_update_none _ _ _) rfl)
  | reap hf ht ha =>
    simp only [subject, ht, Option.map_some, Option.some.injEq] at hid
    subst hid
    exact (Life.reaped (view_task ht rfl) ha).congr
      (View.ext rfl rfl rfl rfl rfl rfl (filter_update_none _ _ _) rfl)

end State

/-! ### What a life keeps

A request is booked where its phase says. No step of its life leaves it elsewhere, and so none of
the system's. -/

/-- The books agree with where the request is. -/
structure View.Booked (v : View) (id : RequestId) : Prop where
  one : ∀ (n n' : CallerId) (c c' : Caller), v.callers n = some c → v.callers n' = some c' → n = n'
  issued : ∀ (n : CallerId) (request : HostRequest), v.callers n = some ⟨request, .issued id⟩ →
    v.mail = [] ∧ v.orders = [] ∧ v.known = false ∧ v.cancelled = false ∧ v.operation = none ∧ ∀ t, v.tasks t = none
  registered : ∀ (n : CallerId) (request : HostRequest), v.callers n = some ⟨request, .registered id⟩ →
    (.register id ∈ v.mail ∨ v.known = true) ∧ (∀ m ∈ v.mail, m = .register id) ∧ v.orders = [] ∧
      v.cancelled = false ∧ v.operation = none ∧ ∀ t, v.tasks t = none
  ordered : ∀ (c : HostCommand) (rest : List HostCommand), v.orders = c :: rest →
    rest = [] ∧ (.register id ∈ v.mail ∨ v.known = true) ∧ .finished id ∉ v.mail ∧ v.operation = none ∧
      ∀ t, v.tasks t = none
  /-- Nothing about the request comes before its `Register`. -/
  first : .register id ∉ v.mail.tail
  heard : v.known = true ∨ v.cancelled = true → .register id ∉ v.mail
  tracked : ∀ (t : TaskId) (task : Task), v.tasks t = some task → task.aborted = false → v.operation = some t
  ended : .finished id ∈ v.mail → ∀ (t : TaskId) (task : Task), v.tasks t = some task → task.aborted = true

theorem View.Blank.booked {v : View} {id : RequestId} (h : v.Blank) : v.Booked id := by
  obtain ⟨h1, h2, h3, h4, h5, h6, h7⟩ := h
  constructor <;> grind

namespace View
variable {v v' : View} {id : RequestId}

/-- A future that has not sent its command yet. -/
def Unsent (v : View) (id : RequestId) : Prop :=
  ∃ (n : CallerId) (request : HostRequest),
    v.callers n = some ⟨request, .issued id⟩ ∨ v.callers n = some ⟨request, .registered id⟩

/-- A message about a request, other than the one that registers it, was sent after it. -/
theorem Booked.sent_of_mail (h : v.Booked id) {m : ControlCommand} (hm : m ∈ v.mail) (hne : m ≠ .register id) :
    ¬ v.Unsent id := by
  rintro ⟨n, request, hc | hc⟩
  · rw [(h.issued n request hc).1] at hm
    cases hm
  · exact hne ((h.registered n request hc).2.1 m hm)

theorem Booked.sent_of_orders (h : v.Booked id) {c : HostCommand} {rest : List HostCommand}
    (hq : v.orders = c :: rest) : ¬ v.Unsent id := by
  rintro ⟨n, request, hc | hc⟩
  · simp [(h.issued n request hc).2.1] at hq
  · simp [(h.registered n request hc).2.2.1] at hq

theorem Booked.sent_of_tasks (h : v.Booked id) {t : TaskId} {task : Task} (ht : v.tasks t = some task) :
    ¬ v.Unsent id := by
  rintro ⟨n, request, hc | hc⟩
  · simp [(h.issued n request hc).2.2.2.2.2 t] at ht
  · simp [(h.registered n request hc).2.2.2.2.2 t] at ht

/-- With its command sent, a request is booked by its mail, its order and its tasks. -/
theorem Booked.of_sent (h : v.Booked id) (hsent : ¬ v.Unsent id) (hcallers : v'.callers = v.callers)
    (hordered : ∀ (c : HostCommand) (rest : List HostCommand), v'.orders = c :: rest →
      rest = [] ∧ (.register id ∈ v'.mail ∨ v'.known = true) ∧ .finished id ∉ v'.mail ∧ v'.operation = none ∧
        ∀ t, v'.tasks t = none)
    (hfirst : .register id ∉ v'.mail.tail) (hheard : v'.known = true ∨ v'.cancelled = true → .register id ∉ v'.mail)
    (htracked : ∀ (t : TaskId) (task : Task), v'.tasks t = some task → task.aborted = false → v'.operation = some t)
    (hended : .finished id ∈ v'.mail → ∀ (t : TaskId) (task : Task), v'.tasks t = some task → task.aborted = true) :
    v'.Booked id where
  one := by
    rw [hcallers]
    exact h.one
  issued n request hc := absurd ⟨n, request, .inl (hcallers ▸ hc)⟩ hsent
  registered n request hc := absurd ⟨n, request, .inr (hcallers ▸ hc)⟩ hsent
  ordered := hordered
  first := hfirst
  heard := hheard
  tracked := htracked
  ended := hended

/-- Mail that loses its head. -/
theorem not_mem_tail_of_cons {m : ControlCommand} {mail rest : List ControlCommand} (h : m ∉ mail.tail)
    (hq : mail = m' :: rest) : m ∉ rest.tail := by
  subst hq
  exact fun hm => h (List.mem_of_mem_tail hm)

theorem not_mem_of_tail {m : ControlCommand} {mail rest : List ControlCommand} (h : m ∉ mail.tail)
    (hq : mail = m' :: rest) : m ∉ rest := by
  subst hq
  exact h

/-- Mail that gains an entry which is no `Register`. -/
theorem not_mem_tail_push {m m' : ControlCommand} {mail : List ControlCommand} (h : m ∉ mail.tail) (hne : m ≠ m') :
    m ∉ (mail ++ [m']).tail := by
  cases mail with
  | nil => simp
  | cons a rest => simpa [hne] using h

/-- After an abort a task is another one, or aborted. -/
theorem task_of_abort {tasks : TaskId → Option Task} {t t' : TaskId} {task : Task}
    (h : Function.update tasks t ((tasks t).map fun task => { task with aborted := true }) t' = some task) :
    (t' ≠ t ∧ tasks t' = some task) ∨ task.aborted = true := by
  by_cases ht : t' = t
  · subst ht
    rw [Function.update_self, Option.map_eq_some_iff] at h
    obtain ⟨old, _, rfl⟩ := h
    exact .inr rfl
  · rw [Function.update_of_ne ht] at h
    exact .inl ⟨ht, h⟩

/-- **Every step of a life keeps the books.** -/
theorem Booked.life (h : v.Booked id) (hl : Life id v v') : v'.Booked id := by
  cases hl with
  | issue hb =>
    obtain ⟨b1, b2, b3, b4, b5, b6, b7⟩ := hb
    constructor <;> grind
  | register hc =>
    obtain ⟨hmail, horders, hknown, hcancelled, hop, htasks⟩ := h.issued _ _ hc
    have hone := h.one
    constructor <;> grind
  | submit hc =>
    obtain ⟨hreg, hmail, horders, hcancelled, hop, htasks⟩ := h.registered _ _ hc
    have hone := h.one
    have hfirst := h.first
    have hheard := h.heard
    constructor <;> grind
  | answered hc =>
    have hone := h.one
    exact ⟨by grind, by grind, by grind, h.ordered, h.first, h.heard, h.tracked, h.ended⟩
  | abandoned hc =>
    have hone := h.one
    refine ⟨by grind, by grind, by grind, fun c rest hq => ?_, not_mem_tail_push h.first (by simp),
      fun hk => by simpa using h.heard hk, h.tracked, fun hm => h.ended (by simpa using hm)⟩
    obtain ⟨hrest, hreg, hfin, hop, htasks⟩ := h.ordered c rest hq
    exact ⟨hrest, hreg.imp_left fun hm => List.mem_append_left _ hm, by simpa using hfin, hop, htasks⟩
  | registered hq =>
    refine ⟨h.one, fun n r hc => ?_, fun n r hc => ?_, fun c rest ho => ?_, not_mem_tail_of_cons h.first hq,
      fun _ => not_mem_of_tail h.first hq, h.tracked, fun hm => h.ended (by simp [hq, hm])⟩
    · simp [(h.issued n r hc).1] at hq
    · obtain ⟨_, hmail, horders⟩ := h.registered n r hc
      exact ⟨.inr rfl, fun m hm => hmail m (by simp [hq, hm]), horders⟩
    · obtain ⟨hrest, _, hfin, hop⟩ := h.ordered c rest ho
      exact ⟨hrest, .inr rfl, fun hm => hfin (by simp [hq, hm]), hop⟩
  | aborted hq ho =>
    refine h.of_sent (h.sent_of_mail (by rw [hq]; exact List.mem_cons_self) (by simp)) rfl (fun c rest horder => ?_)
      (not_mem_tail_of_cons h.first hq) (fun _ => not_mem_of_tail h.first hq) (fun t task ht ha => ?_)
      fun hm t task ht => ?_
    · simp [(h.ordered c rest horder).2.2.2.1] at ho
    · obtain ⟨hne, htask⟩ | hab := task_of_abort ht
      · exact absurd (Option.some.inj ((h.tracked t task htask ha).symm.trans ho)) hne
      · simp [hab] at ha
    · obtain ⟨_, htask⟩ | hab := task_of_abort ht
      · exact h.ended (by simp [hq, hm]) t task htask
      · exact hab
  | cancelled hq ho hk | unheard hq ho hk =>
    refine h.of_sent (h.sent_of_mail (by rw [hq]; exact List.mem_cons_self) (by simp)) rfl (fun c rest horder => ?_)
      (not_mem_tail_of_cons h.first hq) (fun _ => not_mem_of_tail h.first hq) h.tracked
      fun hm => h.ended (by simp [hq, hm])
    obtain ⟨hrest, hreg, hfin, hop, htasks⟩ := h.ordered c rest horder
    refine ⟨hrest, hreg.imp_left fun hm => ?_, fun hm => hfin (by simp [hq, hm]), hop, htasks⟩
    simpa [hq] using hm
  | finished hq =>
    have hfin : .finished id ∈ v.mail := by simp [hq]
    refine h.of_sent (h.sent_of_mail hfin (by simp)) rfl (fun c rest horder => ?_) (not_mem_tail_of_cons h.first hq)
      (fun _ => not_mem_of_tail h.first hq) (fun t task ht ha => ?_) fun _ => h.ended hfin
    · exact absurd hfin (h.ordered c rest horder).2.2.1
    · simp [h.ended hfin t task ht] at ha
  | skipped hq hc =>
    refine h.of_sent (h.sent_of_orders hq) rfl (fun c rest horder => ?_) h.first
      (fun _ => h.heard (.inr hc)) h.tracked h.ended
    simp [(h.ordered _ _ hq).1] at horder
  | tracked hq hc =>
    obtain ⟨hrest, _, hfin, _, htasks⟩ := h.ordered _ _ hq
    refine h.of_sent (h.sent_of_orders hq) rfl (fun c rest horder => ?_) h.first (by simp) (fun t task ht ha => ?_)
      fun hm => absurd hm hfin
    · simp [hrest] at horder
    · grind
  | opened hq hc =>
    refine h.of_sent (h.sent_of_orders hq) rfl (fun c rest horder => ?_) h.first (by simp) h.tracked h.ended
    simp [(h.ordered _ _ hq).1] at horder
  | responded => exact h
  | completed ht ha =>
    have htracked := h.tracked
    refine h.of_sent (h.sent_of_tasks ht) rfl (fun c rest horder => ?_) (not_mem_tail_push h.first (by simp))
      (fun hk => by simpa using h.heard hk) (by grind) (by grind)
    simp [(h.ordered c rest horder).2.2.2.2] at ht
  | reaped ht ha =>
    have htracked := h.tracked
    have hended := h.ended
    refine h.of_sent (h.sent_of_tasks ht) rfl (fun c rest horder => ?_) h.first h.heard (by grind) (by grind)
    simp [(h.ordered c rest horder).2.2.2.2] at ht

end View
namespace State
variable {s s' : State} {input : Input}

/-- Only the end of the worker ends the run, and nothing is left of any request but its
future. -/
theorem view_of_stop (hm : s.Move input s') (hrun : s.running = true) (hstop : s'.running = false)
    (id : RequestId) :
    s'.view id = { s.view id with
      mail := [], orders := [], known := false, cancelled := false, operation := none, tasks := fun _ => none } := by
  cases hm with
  | stop hi hl =>
    refine View.ext rfl rfl rfl rfl rfl (by simp [view]) (by simp [view]) ?_
    obtain rfl | rfl := hl
    · rfl
    · exact filter_push rfl
  | _ => cases hrun.symm.trans hstop

theorem start_blank (capacity : Nat) (id : RequestId) : ((start capacity).view id).Blank := by
  constructor <;> simp [view, start]

/-- The books of every request are in order while the worker runs. -/
structure Kept (s : State) : Prop where
  sound : s.Sound
  booked : s.running = true → ∀ id, (s.view id).Booked id

theorem kept_start (capacity : Nat) : (start capacity).Kept :=
  ⟨sound_start capacity, fun _ id => (start_blank capacity id).booked⟩

/-- A move is a step in the life of its own request and no step in the life of any other. -/
theorem Kept.move (h : s.Kept) (hrun : s.running = true) (hm : s.Move input s') (hfresh : s.FreshIds input) :
    s'.Kept := by
  refine ⟨h.sound.move hm, fun hrun' id => ?_⟩
  by_cases hid : s.subject input = some id
  · exact (h.booked hrun id).life (life_of_move h.sound hm hfresh hrun' hid)
  · rw [view_of_other h.sound hm hrun' hid]
    exact h.booked hrun id

theorem running_of_step (hs : s.step input = some s') : s.running = true := by
  unfold step at hs
  split at hs
  · assumption
  · cases hs

end State
end PhoenixChannel.Native
