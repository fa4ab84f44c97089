import PhoenixChannel.Native.Worker

/-! What each step does to the state, case by case.

`Move` is the inversion of `step`: the invariants go by cases on it and never unfold a
handler. -/
namespace PhoenixChannel.Native
open PhoenixChannel.Runtime (Topic)
open Library

namespace State

/-- The step an input leads to, one case for every branch of the code. -/
inductive Move (s : State) : Input → State → Prop where
  | reserve {request : HostRequest} :
      Move s (.reserve request) { s with
        permits := s.permits - 1
        callers := s.callers.insert s.called ⟨request, .reserved⟩
        called := s.called + 1 }
  | issue {caller : CallerId} {request : HostRequest} (hc : s.callers[caller]? = some ⟨request, .reserved⟩) :
      Move s (.issue caller) { s with
        nextRequest := (nextRequestId s.nextRequest).2
        callers := s.callers.insert caller ⟨request, .issued (nextRequestId s.nextRequest).1⟩
        issued := s.issued + 1
        log := s.log ++ [.issued (nextRequestId s.nextRequest).1] }
  | register {caller : CallerId} {request : HostRequest} {id : RequestId}
      (hc : s.callers[caller]? = some ⟨request, .issued id⟩) :
      Move s (.register caller) { s with
        callers := s.callers.insert caller ⟨request, .registered id⟩
        control := s.control ++ [.register id] }
  | submit {caller : CallerId} {request : HostRequest} {id : RequestId}
      (hc : s.callers[caller]? = some ⟨request, .registered id⟩) :
      Move s (.submit caller) { s with
        callers := s.callers.insert caller ⟨request, .waiting id⟩
        commands := s.commands ++ [request.build id caller] }
  | receiveOk {caller : CallerId} {request : HostRequest} {id : RequestId}
      (hc : s.callers[caller]? = some ⟨request, .waiting id⟩) (hr : s.responses[caller]? = some .ok) :
      Move s (.receive caller) { s with
        callers := s.callers.erase caller, responses := s.responses.erase caller }
  | receiveError {caller : CallerId} {request : HostRequest} {id : RequestId}
      (hc : s.callers[caller]? = some ⟨request, .waiting id⟩) (hr : s.responses[caller]? = some .error) :
      Move s (.receive caller) { s with
        callers := s.callers.erase caller, responses := s.responses.erase caller
        control := s.control ++ [.cancel id] }
  | receiveRegistration {caller : CallerId} {request : HostRequest} {id : RequestId} {channel : ChannelId}
      (hc : s.callers[caller]? = some ⟨request, .waiting id⟩)
      (hr : s.responses[caller]? = some (.registration channel)) :
      Move s (.receive caller) { s with
        callers := s.callers.erase caller, responses := s.responses.erase caller
        handles := channel :: s.handles }
  | drop {caller : CallerId} {request : HostRequest} {id : RequestId}
      (hc : s.callers[caller]? = some ⟨request, .waiting id⟩) :
      Move s (.drop caller) { s with
        callers := s.callers.erase caller, responses := s.responses.erase caller
        control := s.control ++ [.cancel id] }
  | dropHandle {id : ChannelId} (hh : id ∈ s.handles) :
      Move s (.dropHandle id) { s with
        handles := s.handles.erase id, control := s.control ++ [.removeChannel id] }
  | submitShutdown :
      Move s .submitShutdown { s with permits := s.permits - 1, commands := s.commands ++ [.shutdown] }
  | dropOwner (hc : s.callers.isEmpty) (hh : s.handles.isEmpty) :
      Move s .dropOwner { s with control := s.control ++ [.shutdown] }
  | registered {id : RequestId} {rest : List ControlCommand} (hq : s.control = .register id :: rest)
      (hf : s.finishing = none) :
      Move s .control { s with
        control := rest, knownRequests := s.knownRequests.insert id
        log := s.log ++ [.handled (.register id)] }
  | cancelTracked {id : RequestId} {rest : List ControlCommand} {task : TaskId}
      (hq : s.control = .cancel id :: rest) (hf : s.finishing = none) (ho : s.operations[id]? = some task) :
      Move s .control { s with
        control := rest, operations := s.operations.erase id
        tasks := s.tasks.modify task fun t => { t with aborted := true }
        log := s.log ++ [.handled (.cancel id)] }
  | cancelKnown {id : RequestId} {rest : List ControlCommand} (hq : s.control = .cancel id :: rest)
      (hf : s.finishing = none) (ho : s.operations[id]? = none) (hk : id ∈ s.knownRequests) :
      Move s .control { s with
        control := rest, cancelled := s.cancelled.insert id, log := s.log ++ [.handled (.cancel id)] }
  | cancelUnknown {id : RequestId} {rest : List ControlCommand} (hq : s.control = .cancel id :: rest)
      (hf : s.finishing = none) (ho : s.operations[id]? = none) (hk : id ∉ s.knownRequests) :
      Move s .control { s with control := rest, log := s.log ++ [.handled (.cancel id)] }
  | finished {id : RequestId} {rest : List ControlCommand} (hq : s.control = .finished id :: rest)
      (hf : s.finishing = none) :
      Move s .control { s with
        control := rest, operations := s.operations.erase id
        knownRequests := s.knownRequests.erase id, cancelled := s.cancelled.erase id
        log := s.log ++ [.handled (.finished id)] }
  | removeChannel {id : ChannelId} {rest : List ControlCommand} (hq : s.control = .removeChannel id :: rest)
      (hf : s.finishing = none) :
      Move s .control { s with
        control := rest, channels := s.channels.erase id, log := s.log ++ [.handled (.removeChannel id)] }
  | skip {command : HostCommand} {rest : List HostCommand} {id : RequestId} {opening : Opening}
      (hq : s.commands = command :: rest) (hf : s.finishing = none) (hid : command.request? = some id)
      (hc : id ∈ s.cancelled) :
      Move s (.command opening) { s with
        commands := rest, permits := s.permits + 1
        knownRequests := s.knownRequests.erase id, cancelled := s.cancelled.erase id
        log := s.log ++ [.skipped id] }
  | track {id : RequestId} {operation : HostOperation} {response : CallerId} {rest : List HostCommand}
      {opening : Opening} (hq : s.commands = .operation id operation response :: rest)
      (hf : s.finishing = none) (hc : id ∉ s.cancelled) :
      Move s (.command opening) { s with
        commands := rest, permits := s.permits + 1
        knownRequests := s.knownRequests.erase id, cancelled := s.cancelled.erase id
        tasks := s.tasks.insert s.spawned ⟨id, response, operation,
          operation.channel?.bind fun channel => s.channels[channel]?, false⟩
        operations := s.operations.insert id s.spawned
        spawned := s.spawned + 1
        log := s.log ++ [.executed id] }
  | refuse {id : RequestId} {topic : Topic} {response : CallerId} {rest : List HostCommand}
      {opening : Opening} {nextId : UInt64} {responses : Table CallerId Response}
      (hq : s.commands = .channel id topic response :: rest) (hf : s.finishing = none) (hc : id ∉ s.cancelled)
      (hr : responses = if s.listens response then s.responses.insert response .error else s.responses) :
      Move s (.command opening) { s with
        commands := rest, permits := s.permits + 1
        knownRequests := s.knownRequests.erase id, cancelled := s.cancelled.erase id
        nextId, responses
        log := s.log ++ [.executed id] }
  | openChannel {id : RequestId} {topic : Topic} {response : CallerId} {rest : List HostCommand}
      {responses : Table CallerId Response}
      (hq : s.commands = .channel id topic response :: rest) (hf : s.finishing = none) (hc : id ∉ s.cancelled)
      (ht : s.topicTaken topic = false)
      (hr : responses =
        if s.listens response then s.responses.insert response (.registration s.nextId) else s.responses) :
      Move s (.command .opened) { s with
        commands := rest, permits := s.permits + 1
        knownRequests := s.knownRequests.erase id, cancelled := s.cancelled.erase id
        nextId := s.nextId + 1
        channels := s.channels.insert s.nextId topic, responses
        log := s.log ++ [.executed id] }
  | stop {input : Input} {log : List Event} {permits : Nat} (hi : ∀ caller, input ≠ .issue caller)
      (hl : log = s.log ∨ log = s.log ++ [.handled .shutdown]) :
      Move s input { s with
        running := false, control := [], commands := []
        knownRequests := ∅, cancelled := ∅, operations := ∅, channels := ∅
        tasks := ∅, finishing := none, log, permits }
  | respond {task : TaskId} {t : Task} {success : Bool} {responses : Table CallerId Response}
      (hf : s.finishing = none) (ht : s.tasks[task]? = some t) (ha : t.aborted = false)
      (hr : responses =
        if s.listens t.response then s.responses.insert t.response (t.result success) else s.responses) :
      Move s (.respond task success) { s with finishing := some task, responses }
  | finish {task : TaskId} {t : Task} (hf : s.finishing = some task) (ht : s.tasks[task]? = some t) :
      Move s .finish { s with
        tasks := s.tasks.erase task, finishing := none, control := s.control ++ [.finished t.requestId] }
  | reap {task : TaskId} {t : Task} (hf : s.finishing = none) (ht : s.tasks[task]? = some t)
      (ha : t.aborted = true) :
      Move s (.reap task) { s with tasks := s.tasks.erase task }

theorem respond_eq (s : State) (caller : CallerId) (response : Response) :
    s.respond caller response = { s with
      responses := if s.listens caller then s.responses.insert caller response else s.responses } := by
  unfold State.respond
  split <;> rfl

/-- A control command is handled by one of the moves. -/
theorem Move.of_control {s : State} {command : ControlCommand} {rest : List ControlCommand}
    (hq : s.control = command :: rest) (hf : s.finishing = none) :
    s.Move .control (({ s with control := rest }.handleControl command).note (.handled command)) := by
  cases command with
  | register id => exact .registered hq hf
  | cancel id =>
    simp only [handleControl]
    cases ho : s.operations[id]? with
    | some task => exact .cancelTracked hq hf ho
    | none =>
      by_cases hk : s.knownRequests.contains id = true
      · simp only [hk, if_true]
        exact .cancelKnown hq hf ho (Std.ExtTreeSet.contains_iff_mem.mp hk)
      · simp only [hk]
        exact .cancelUnknown hq hf ho fun h => hk (Std.ExtTreeSet.contains_iff_mem.mpr h)
  | finished id => exact .finished hq hf
  | removeChannel id => exact .removeChannel hq hf
  | shutdown => exact .stop nofun (.inr rfl)

/-- A command is handled by one of the moves. -/
theorem Move.of_command {s : State} {opening : Opening} {command : HostCommand} {rest : List HostCommand}
    (hq : s.commands = command :: rest) (hf : s.finishing = none) :
    s.Move (.command opening)
      ({ s with commands := rest, permits := s.permits + 1 }.handleHostCommand opening command) := by
  cases command with
  | operation id operation response =>
    by_cases hc : s.cancelled.contains id = true
    · simp only [handleHostCommand, hc, if_true]
      exact .skip hq hf rfl (Std.ExtTreeSet.contains_iff_mem.mp hc)
    · simp only [handleHostCommand, hc]
      exact .track hq hf fun h => hc (Std.ExtTreeSet.contains_iff_mem.mpr h)
  | channel id topic response =>
    by_cases hc : s.cancelled.contains id = true
    · simp only [handleHostCommand, hc, if_true]
      exact .skip hq hf rfl (Std.ExtTreeSet.contains_iff_mem.mp hc)
    · have hnot : id ∉ s.cancelled := fun h => hc (Std.ExtTreeSet.contains_iff_mem.mpr h)
      simp only [handleHostCommand, hc]
      by_cases ht : s.topicTaken topic = true
      · have htaken : ({ s with commands := rest, permits := s.permits + 1 }.takeUp id).topicTaken topic = true := ht
        simp only [State.openChannel, htaken, if_true, respond_eq]
        exact .refuse hq hf hnot rfl
      · have hfree : ({ s with commands := rest, permits := s.permits + 1 }.takeUp id).topicTaken topic = false :=
          (Bool.not_eq_true _).mp ht
        simp only [State.openChannel, hfree, respond_eq]
        cases opening with
        | opened => exact .openChannel hq hf hnot hfree rfl
        | driverStopped => exact .refuse hq hf hnot rfl
        | eventsFailed => exact .refuse hq hf hnot rfl
  | shutdown => exact .stop nofun (.inl rfl)

/-- **Every step is one of the moves.** -/
theorem move_of_step {s s' : State} {input : Input} (h : s.step input = some s') : s.Move input s' := by
  unfold step at h
  split at h
  · cases input with
    | reserve request =>
      simp only [turn] at h
      split at h
      · cases h
      · cases h
        exact .reserve
    | issue caller =>
      simp only [turn] at h
      split at h
      · cases h
        exact .issue (by assumption)
      · cases h
    | register caller =>
      simp only [turn] at h
      split at h
      · cases h
        exact .register (by assumption)
      · cases h
    | submit caller =>
      simp only [turn] at h
      split at h
      · cases h
        exact .submit (by assumption)
      · cases h
    | receive caller =>
      simp only [turn] at h
      split at h
      · rename_i request id response hc hr
        cases h
        cases response with
        | ok => exact .receiveOk hc hr
        | error => exact .receiveError hc hr
        | registration channel => exact .receiveRegistration hc hr
      · cases h
    | drop caller =>
      simp only [turn] at h
      split at h
      · cases h
        exact .drop (by assumption)
      · cases h
    | dropHandle id =>
      simp only [turn] at h
      split at h
      · cases h
        exact .dropHandle (by assumption)
      · cases h
    | submitShutdown =>
      simp only [turn] at h
      split at h
      · cases h
      · cases h
        exact .submitShutdown
    | dropOwner =>
      simp only [turn, Bool.and_eq_true] at h
      split at h
      · rename_i hboth
        cases h
        exact .dropOwner hboth.1 hboth.2
      · cases h
    | control =>
      simp only [turn] at h
      split at h
      · cases h
        exact .of_control (by assumption) (by assumption)
      · cases h
    | command opening =>
      simp only [turn] at h
      split at h
      · cases h
        exact .of_command (by assumption) (by assumption)
      · cases h
    | stop =>
      simp only [turn] at h
      split at h
      · cases h
        exact .stop nofun (.inl rfl)
      · cases h
    | respond task success =>
      simp only [turn] at h
      split at h
      · rename_i t hf ht
        split at h
        · cases h
        · cases h
          rw [respond_eq]
          exact .respond hf ht (by simpa using ‹¬ t.aborted = true›) rfl
      · cases h
    | finish =>
      simp only [turn] at h
      split at h
      · cases h
      · split at h
        · cases h
        · cases h
          exact .finish (by assumption) (by assumption)
    | reap task =>
      simp only [turn] at h
      split at h
      · rename_i t hf ht
        split at h
        · cases h
          exact .reap hf ht (by assumption)
        · cases h
      · cases h
  · cases h

end State
end PhoenixChannel.Native
