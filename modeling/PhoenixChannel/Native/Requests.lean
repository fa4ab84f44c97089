import PhoenixChannel.Native.Moves

/-! One request among many.

`view s id` is everything the host, the queues and the worker hold of one request. A step
is about one request at most and leaves the view of every other alone, so that a request
can be followed on its own. -/
namespace PhoenixChannel.Native
open Library

/-- The request an event is about. -/
def Event.request? : Event → Option RequestId
  | .issued id | .executed id | .skipped id => some id
  | .handled command => command.request?

/-- What is held of one request id. -/
@[ext] structure View where
  callers : CallerId → Option Caller
  mail : List ControlCommand
  orders : List HostCommand
  known : Bool
  cancelled : Bool
  operation : Option TaskId
  tasks : TaskId → Option Task
  log : List Event

/-- Nothing is held of the request. -/
structure View.Blank (v : View) : Prop where
  callers : ∀ n, v.callers n = none
  mail : v.mail = []
  orders : v.orders = []
  known : v.known = false
  cancelled : v.cancelled = false
  operation : v.operation = none
  tasks : ∀ t, v.tasks t = none

namespace State

def view (s : State) (id : RequestId) : View where
  callers n := s.callers[n]?.filter fun c => c.phase.id? = some id
  mail := s.control.filter fun m => m.request? = some id
  orders := s.commands.filter fun c => c.request? = some id
  known := s.knownRequests.contains id
  cancelled := s.cancelled.contains id
  operation := s.operations[id]?
  tasks t := s.tasks[t]?.filter fun task => task.requestId = id
  log := s.log.filter fun e => e.request? = some id

/-- The request a step is about. -/
def subject (s : State) : Input → Option RequestId
  | .reserve _ | .dropHandle _ | .submitShutdown | .dropOwner | .stop => none
  | .issue _ => some (nextRequestId s.nextRequest).1
  | .register caller | .submit caller | .receive caller | .drop caller =>
    s.callers[caller]?.bind fun c => c.phase.id?
  | .control => s.control.head?.bind ControlCommand.request?
  | .command _ => s.commands.head?.bind HostCommand.request?
  | .respond task _ | .reap task => s.tasks[task]?.map Task.requestId
  | .finish => s.finishing.bind fun task => s.tasks[task]?.map Task.requestId

/-- An id is not in use when it is issued. -/
def FreshIds (s : State) (input : Input) : Prop :=
  ∀ caller, input = .issue caller → (s.view (nextRequestId s.nextRequest).1).Blank

/-- What the names of tasks and callers are good for. -/
structure Sound (s : State) : Prop where
  operations_own : ∀ (id : RequestId) (t : TaskId) (task : Task), s.operations[id]? = some t →
    s.tasks[t]? = some task → task.requestId = id
  called : ∀ (n : CallerId), s.called ≤ n → s.callers[n]? = none
  spawned : ∀ (t : TaskId), s.spawned ≤ t → s.tasks[t]? = none
  operations_spawned : ∀ (id : RequestId) (t : TaskId), s.operations[id]? = some t → t < s.spawned
  finishing : ∀ (t : TaskId) (task : Task), s.finishing = some t → s.tasks[t]? = some task → task.aborted = false

theorem sound_start (capacity : Nat) : (start capacity).Sound := by
  constructor <;> simp [start]

/-- One case for each move: whoever is waited for can still answer. -/
theorem Sound.move {s s' : State} {input : Input} (h : s.Sound) (hm : s.Move input s') : s'.Sound := by
  obtain ⟨howner, hcalled, hspawned, hops, hfin⟩ := h
  cases hm with
  | reserve => exact ⟨howner, fun n hn => by grind, hspawned, hops, hfin⟩
  | issue hc | register hc | submit hc => exact ⟨howner, fun n hn => by grind, hspawned, hops, hfin⟩
  | receiveOk hc hr | receiveError hc hr | receiveRegistration hc hr =>
    exact ⟨howner, fun n hn => by grind, hspawned, hops, hfin⟩
  | drop hc => exact ⟨howner, fun n hn => by grind, hspawned, hops, hfin⟩
  | cancelTracked hq hf ho =>
    refine ⟨fun id t task hop ht => ?_, hcalled, fun t ht => ?_, fun id t hop => ?_, fun t task ht => ?_⟩
    · grind
    · grind
    · grind
    · simp [hf] at ht
  | finished hq hf =>
    exact ⟨fun id t task hop => by grind, hcalled, hspawned, fun id t hop => by grind, hfin⟩
  | track hq hf hc =>
    refine ⟨fun id t task hop ht => ?_, hcalled, fun t ht => ?_, fun id t hop => ?_, fun t task ht => ?_⟩
    · grind
    · grind
    · grind
    · simp [hf] at ht
  | stop hi hl =>
    exact ⟨fun id t task hop => by simp at hop, hcalled, fun t _ => by simp, fun id t hop => by simp at hop,
      fun t task ht => by simp at ht⟩
  | respond hf ht ha hr =>
    refine ⟨howner, hcalled, hspawned, hops, fun t task hfinishing htask => ?_⟩
    cases hfinishing
    cases ht.symm.trans htask
    exact ha
  | finish hf ht =>
    exact ⟨fun id t task hop => by grind, hcalled, fun t ht => by grind, hops, fun t task ht => by simp at ht⟩
  | reap hf ht ha =>
    exact ⟨fun id t task hop => by grind, hcalled, fun t ht => by grind, hops, fun t task ht => by simp [hf] at ht⟩
  | _ => exact ⟨howner, hcalled, hspawned, hops, hfin⟩

theorem request?_build (request : HostRequest) (id : RequestId) (response : CallerId) :
    (request.build id response).request? = some id := by
  cases request <;> rfl

section
variable {α : Type} {l rest : List α} {a : α} {p : α → Bool}

theorem filter_push (ha : p a = false) : (l ++ [a]).filter p = l.filter p := by
  simp [ha]

theorem filter_pop (hl : l = a :: rest) (ha : p a = false) : rest.filter p = l.filter p := by
  simp [hl, ha]

end

section
variable {s : State} {id id' : RequestId}

/-- A caller is seen under its own id only. -/
theorem caller_unseen {n : CallerId} {c : Caller} (hc : s.callers[n]? = some c) (hid : c.phase.id? ≠ some id) :
    ∀ b, s.callers[n]? = some b → decide (b.phase.id? = some id) = false := by
  intro b hb
  cases hc.symm.trans hb
  exact decide_eq_false hid

theorem task_unseen {t : TaskId} {task : Task} (ht : s.tasks[t]? = some task) (hid : task.requestId ≠ id) :
    ∀ b, s.tasks[t]? = some b → decide (b.requestId = id) = false := by
  intro b hb
  cases ht.symm.trans hb
  exact decide_eq_false hid

theorem contains_insert_other (m : RequestIds) (hid : id' ≠ id) : (m.insert id').contains id = m.contains id := by
  grind

theorem contains_erase_other (m : RequestIds) (hid : id' ≠ id) : (m.erase id').contains id = m.contains id := by
  grind

end

section
variable {s : State} {n : CallerId} {c : Caller} {m : ControlCommand} {mail : List ControlCommand}
  {order : HostCommand} {orders : List HostCommand}

/-- The subject of a caller's step is the id it has. -/
theorem subject_caller (hc : s.callers[n]? = some c) :
    (s.callers[n]?.bind fun c => c.phase.id?) = c.phase.id? := by
  rw [hc]
  rfl

theorem subject_control (hq : s.control = m :: mail) : s.subject .control = m.request? := by
  rw [subject, hq]
  rfl

theorem subject_command (hq : s.commands = order :: orders) (opening : Opening) :
    s.subject (.command opening) = order.request? := by
  rw [subject, hq]
  rfl

end

/-- **A step leaves the view of every other request alone.** -/
theorem view_of_other {s s' : State} {input : Input} {id : RequestId} (hs : s.Sound)
    (hm : s.Move input s') (hrun : s'.running = true) (hid : s.subject input ≠ some id) :
    s'.view id = s.view id := by
  cases hm with
  | reserve =>
    have hnone := hs.called s.called (Nat.le_refl _)
    exact View.ext (funext (Table.filter_insert rfl fun b hb => by simp [hnone] at hb)) rfl rfl rfl rfl rfl rfl rfl
  | issue hc =>
    have hnew : (nextRequestId s.nextRequest).1 ≠ id := fun h => hid (congrArg some h)
    refine View.ext (funext (Table.filter_insert ?_ (caller_unseen hc (by simp [Phase.id?])))) rfl rfl rfl rfl rfl rfl
      (filter_push ?_)
    · simp [Phase.id?, hnew]
    · simp [Event.request?, hnew]
  | register hc =>
    rename_i caller request id'
    have hne : id' ≠ id := fun h => hid ((subject_caller hc).trans (congrArg some h))
    refine View.ext (funext (Table.filter_insert ?_ (caller_unseen hc ?_))) (filter_push ?_) rfl rfl rfl rfl rfl rfl
    · simp [Phase.id?, hne]
    · simp [Phase.id?, hne]
    · simp [ControlCommand.request?, hne]
  | submit hc =>
    rename_i caller request id'
    have hne : id' ≠ id := fun h => hid ((subject_caller hc).trans (congrArg some h))
    refine View.ext (funext (Table.filter_insert ?_ (caller_unseen hc ?_))) rfl (filter_push ?_) rfl rfl rfl rfl rfl
    · simp [Phase.id?, hne]
    · simp [Phase.id?, hne]
    · simp [request?_build, hne]
  | receiveOk hc hr =>
    exact View.ext (funext (Table.filter_erase (caller_unseen hc fun h => hid ((subject_caller hc).trans h))))
      rfl rfl rfl rfl rfl rfl rfl
  | receiveRegistration hc hr =>
    exact View.ext (funext (Table.filter_erase (caller_unseen hc fun h => hid ((subject_caller hc).trans h))))
      rfl rfl rfl rfl rfl rfl rfl
  | receiveError hc hr =>
    rename_i caller request id'
    have hne : id' ≠ id := fun h => hid ((subject_caller hc).trans (congrArg some h))
    exact View.ext (funext (Table.filter_erase (caller_unseen hc fun h => hid ((subject_caller hc).trans h))))
      (filter_push (by simp [ControlCommand.request?, hne])) rfl rfl rfl rfl rfl rfl
  | drop hc =>
    rename_i caller request id'
    have hne : id' ≠ id := fun h => hid ((subject_caller hc).trans (congrArg some h))
    exact View.ext (funext (Table.filter_erase (caller_unseen hc fun h => hid ((subject_caller hc).trans h))))
      (filter_push (by simp [ControlCommand.request?, hne])) rfl rfl rfl rfl rfl rfl
  | dropHandle hh => exact View.ext rfl (filter_push rfl) rfl rfl rfl rfl rfl rfl
  | submitShutdown => exact View.ext rfl rfl (filter_push rfl) rfl rfl rfl rfl rfl
  | dropOwner hc hh => exact View.ext rfl (filter_push rfl) rfl rfl rfl rfl rfl rfl
  | registered hq hf =>
    rename_i id' rest
    have hne : id' ≠ id := fun h => hid ((subject_control hq).trans (congrArg some h))
    exact View.ext rfl (filter_pop hq (by simp [ControlCommand.request?, hne])) rfl (contains_insert_other _ hne) rfl
      rfl rfl (filter_push (by simp [Event.request?, ControlCommand.request?, hne]))
  | cancelTracked hq hf ho =>
    rename_i id' rest task
    have hne : id' ≠ id := fun h => hid ((subject_control hq).trans (congrArg some h))
    refine View.ext rfl (filter_pop hq (by simp [ControlCommand.request?, hne])) rfl rfl rfl
      (by rw [view, view, Table.lookup_erase, if_neg hne.symm]) (funext (Table.filter_modify fun b hb => ?_))
      (filter_push (by simp [Event.request?, ControlCommand.request?, hne]))
    have howner := hs.operations_own id' task b ho hb
    simp [howner, hne]
  | cancelKnown hq hf ho hk =>
    rename_i id' rest
    have hne : id' ≠ id := fun h => hid ((subject_control hq).trans (congrArg some h))
    exact View.ext rfl (filter_pop hq (by simp [ControlCommand.request?, hne])) rfl rfl (contains_insert_other _ hne)
      rfl rfl (filter_push (by simp [Event.request?, ControlCommand.request?, hne]))
  | cancelUnknown hq hf ho hk =>
    rename_i id' rest
    have hne : id' ≠ id := fun h => hid ((subject_control hq).trans (congrArg some h))
    exact View.ext rfl (filter_pop hq (by simp [ControlCommand.request?, hne])) rfl rfl rfl rfl rfl
      (filter_push (by simp [Event.request?, ControlCommand.request?, hne]))
  | finished hq hf =>
    rename_i id' rest
    have hne : id' ≠ id := fun h => hid ((subject_control hq).trans (congrArg some h))
    exact View.ext rfl (filter_pop hq (by simp [ControlCommand.request?, hne])) rfl (contains_erase_other _ hne)
      (contains_erase_other _ hne) (by rw [view, view, Table.lookup_erase, if_neg hne.symm]) rfl
      (filter_push (by simp [Event.request?, ControlCommand.request?, hne]))
  | removeChannel hq hf =>
    exact View.ext rfl (filter_pop hq rfl) rfl rfl rfl rfl rfl (filter_push rfl)
  | skip hq hf hc hk =>
    rename_i command rest id' opening
    have hne : id' ≠ id := fun h => hid ((subject_command hq _).trans (hc.trans (congrArg some h)))
    exact View.ext rfl rfl (filter_pop hq (by simp [hc, hne])) (contains_erase_other _ hne)
      (contains_erase_other _ hne) rfl rfl (filter_push (by simp [Event.request?, hne]))
  | track hq hf hc =>
    rename_i id' operation response rest opening
    have hne : id' ≠ id := fun h => hid ((subject_command hq _).trans (congrArg some h))
    have hnone := hs.spawned s.spawned (Nat.le_refl _)
    refine View.ext rfl rfl (filter_pop hq (by simp [HostCommand.request?, hne])) (contains_erase_other _ hne)
      (contains_erase_other _ hne) (by rw [view, view, Table.lookup_insert, if_neg hne.symm])
      (funext (Table.filter_insert (by simp [hne]) fun b hb => by simp [hnone] at hb))
      (filter_push (by simp [Event.request?, hne]))
  | refuse hq hf hc hr =>
    rename_i id' topic response rest opening nextId responses
    have hne : id' ≠ id := fun h => hid ((subject_command hq _).trans (congrArg some h))
    exact View.ext rfl rfl (filter_pop hq (by simp [HostCommand.request?, hne])) (contains_erase_other _ hne)
      (contains_erase_other _ hne) rfl rfl (filter_push (by simp [Event.request?, hne]))
  | openChannel hq hf hc ht hr =>
    rename_i id' topic response rest responses
    have hne : id' ≠ id := fun h => hid ((subject_command hq _).trans (congrArg some h))
    exact View.ext rfl rfl (filter_pop hq (by simp [HostCommand.request?, hne])) (contains_erase_other _ hne)
      (contains_erase_other _ hne) rfl rfl (filter_push (by simp [Event.request?, hne]))
  | stop hi hl => cases hrun
  | respond hf ht ha hr => rfl
  | finish hf ht =>
    rename_i task t
    have hne : t.requestId ≠ id := fun h => hid (by simp [subject, hf, ht, h])
    exact View.ext rfl (filter_push (by simp [ControlCommand.request?, hne])) rfl rfl rfl rfl
      (funext (Table.filter_erase (task_unseen ht hne))) rfl
  | reap hf ht ha =>
    rename_i task t
    have hne : t.requestId ≠ id := fun h => hid (by simp [subject, ht, h])
    exact View.ext rfl rfl rfl rfl rfl rfl (funext (Table.filter_erase (task_unseen ht hne))) rfl

end State
end PhoenixChannel.Native
