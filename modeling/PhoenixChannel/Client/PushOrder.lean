import PhoenixChannel.Client.Consistency
import PhoenixChannel.Client.QueueOrder
import PhoenixChannel.Client.Steps
import Mathlib.Data.List.Induction
import Mathlib.Data.List.Pairwise

/-! The pushes of a channel go out in the order in which they were taken.

A push is sent at once only for a joined channel, whose queue is empty, and queued behind
the others otherwise. So the pushes sent so far, followed by the queue, always follow the
order of the commands. -/
namespace PhoenixChannel.Client
open PhoenixChannel.Runtime Library

namespace Input

/-- The request of a call or cast of the topic. -/
def pushOn (topic : Topic) : Input → Option RequestId
  | .command (.call id t _ _ _) | .command (.cast id t _ _) => if t = topic then some id else none
  | _ => none

end Input

/-- The requests that the inputs make, in order. -/
def requests (inputs : List Input) : List RequestId :=
  inputs.filterMap fun input => input.request.map Prod.snd

/-- The requests of the topic's calls and casts, in the order they were taken. -/
def pushesOn (topic : Topic) (inputs : List Input) : List RequestId :=
  inputs.filterMap (Input.pushOn topic)

/-- The requests of `pushes` that frames of the topic were sent for, in order. -/
def sentOn (topic : Topic) (pushes : List RequestId) (effects : List Effect) : List RequestId :=
  (servedOn topic effects).filter fun id => id ∈ pushes

namespace Driver

/-- What was sent and what is queued follows the order of what was taken. -/
structure InOrder (P : RequestId → Bool) (t : Topic) (capacity : Nat) (taken : List RequestId)
    (d : Driver) : Prop where
  clear : d.Clear P t
  order : ((servedOn t d.trace).filter P ++ d.queuedIds t).Sublist taken
  bounded : (d.queuedIds t).length ≤ capacity

/-- One push of the topic is taken: it is sent after the queue, or joins its end, or neither. -/
structure Takes (P : RequestId → Bool) (t : Topic) (capacity : Nat) (id : RequestId) (d d' : Driver) :
    Prop where
  clear : d.Clear P t → d'.Clear P t
  sends : ∃ effects, d'.trace = d.trace ++ effects ∧
    ((servedOn t effects).filter P ++ d'.queuedIds t).Sublist (d.queuedIds t ++ [id])
  bounded : (d.queuedIds t).length ≤ capacity → (d'.queuedIds t).length ≤ capacity

section
variable {P : RequestId → Bool} {env : Env} {d d' : Driver} {t : Topic} {capacity : Nat}
  {taken : List RequestId} {id : RequestId}

theorem Carries.inOrder (h : Carries P t d d') (hi : InOrder P t capacity taken d) :
    InOrder P t capacity taken d' := by
  obtain ⟨effects, ht, hs⟩ := h.sends hi.clear
  refine ⟨h.clear hi.clear, ?_, ?_⟩
  · rw [ht, servedOn_append, List.filter_append, List.append_assoc]
    exact (hs.append_left _).trans hi.order
  · exact Nat.le_trans ((List.sublist_append_right _ _).trans hs).length_le hi.bounded

/-- A push that goes to the end of what is sent or queued follows the order. -/
theorem Takes.inOrder (h : Takes P t capacity id d d') (hi : InOrder P t capacity taken d) :
    InOrder P t capacity (taken ++ [id]) d' := by
  obtain ⟨effects, ht, hs⟩ := h.sends
  refine ⟨h.clear hi.clear, ?_, h.bounded hi.bounded⟩
  rw [ht, servedOn_append, List.filter_append, List.append_assoc]
  have hleft : ((servedOn t d.trace).filter P ++
      ((servedOn t effects).filter P ++ d'.queuedIds t)).Sublist
        ((servedOn t d.trace).filter P ++ (d.queuedIds t ++ [id])) := hs.append_left _
  rw [← List.append_assoc _ (d.queuedIds t)] at hleft
  exact hleft.trans (hi.order.append_right _)

/-- A push that is neither sent nor queued. -/
theorem Takes.of_answer (d : Driver) (t : Topic) (operation : ClientOperation) (id : RequestId)
    (result : Except ClientError Success) :
    Takes P t capacity id d (d.answer operation id result) where
  clear h := h
  sends := ⟨[.answered operation id result], by simp, List.sublist_append_left _ _⟩
  bounded h := h

/-- A push that finds room joins the queue's end. -/
theorem takes_queue (push : QueuedPush) :
    Takes P t env.options.pushBufferCapacity push.id d (d.queue env t push) := by
  rcases queue_cases env d t push with ⟨error, -, he⟩ | ⟨channel, hr, -, hlt, he⟩
  · rw [he]
    exact .of_answer ..
  · have hq : (d.setRecord t { channel with queued := channel.queued ++ [push] }).queuedIds t =
        d.queuedIds t ++ [push.id] := by
      rw [queuedIds_of_some (record_setRecord ..), queuedIds_of_some hr, List.map_append]
      rfl
    rw [he]
    refine ⟨fun hc channel' hc' => ?_, ⟨[], by simp [setRecord], ?_⟩, fun _ => ?_⟩
    · cases (record_setRecord ..).symm.trans hc'
      exact hc channel hr
    · rw [hq]
      exact List.Sublist.refl _
    · rw [hq, queuedIds_of_some hr, List.length_append, List.length_map]
      exact hlt

/-- A push of a joined channel: nothing is queued before it. -/
theorem takes_sendPush (push : QueuedPush) (hf : d.Flushed t)
    (hj : d.state.protocol.channelState t = some .joined) :
    Takes P t capacity push.id d (d.sendPush env t push).1 := by
  obtain ⟨hch, effects, ht, hs⟩ := sendPush_sends env d t push
  have hr : (d.sendPush env t push).1.record t = d.record t := by rw [record, hch, record]
  have hq : (d.sendPush env t push).1.queuedIds t = d.queuedIds t := by rw [queuedIds, hr, queuedIds]
  have hnil : d.queuedIds t = [] := by
    cases hc : d.record t with
    | none => exact queuedIds_of_none hc
    | some channel => rw [queuedIds_of_some hc, hf channel hc hj, List.map_nil]
  refine ⟨fun hc channel h => hc channel (by rw [← hr]; exact h), ⟨effects, ht, ?_⟩, fun h => ?_⟩
  · rw [hq, hnil, List.append_nil, List.nil_append]
    exact List.filter_sublist.trans hs
  · rw [hq]
    exact h

theorem takes_handlePush (push : QueuedPush) (hf : d.Flushed t) :
    Takes P t env.options.pushBufferCapacity push.id d (d.handlePush env t push).1 := by
  unfold handlePush
  split
  · rename_i hj
    exact takes_sendPush push hf hj
  · exact takes_queue push

/-! ### Steps

A command that pushes takes its push; every other input carries the queue as it is. -/

/-- A request other than a call or cast is not marked. -/
def Unmarked (P : RequestId → Bool) (input : Input) : Prop :=
  ∀ operation id, input.request = some (operation, id) → operation ≠ .call → operation ≠ .cast →
    P id = false

/-- A push to a joined channel finds its queue empty, which is what keeps it from overtaking others. -/
theorem inOrder_connectedCommand {command : Command} (hd : d.Flushed t)
    (hu : Unmarked P (.command command)) (hi : InOrder P t env.options.pushBufferCapacity taken d) :
    InOrder P t env.options.pushBufferCapacity (taken ++ ((Input.command command).pushOn t).toList)
      (d.handleConnectedCommand env command).1 := by
  have hnone : (Input.command command).pushOn t = none →
      Carries P t d (d.handleConnectedCommand env command).1 →
      InOrder P t env.options.pushBufferCapacity (taken ++ ((Input.command command).pushOn t).toList)
        (d.handleConnectedCommand env command).1 := by
    intro hn hc
    rw [hn, Option.toList_none, List.append_nil]
    exact hc.inOrder hi
  have hpush : ∀ (topic : Topic) (push : QueuedPush),
      d.handleConnectedCommand env command = d.handlePush env topic push →
      (Input.command command).pushOn t = (if topic = t then some push.id else none) →
      InOrder P t env.options.pushBufferCapacity (taken ++ ((Input.command command).pushOn t).toList)
        (d.handleConnectedCommand env command).1 := by
    intro topic push he hp
    by_cases ht : topic = t
    · rw [hp, if_pos ht, he, ht]
      exact (takes_handlePush push hd).inOrder hi
    · refine hnone (by rw [hp, if_neg ht]) ?_
      rw [he]
      exact (apart_handlePush env d topic push).carries fun he => ht he.symm
  cases command with
  | connect | disconnect | subscribe | subscribeChannel _ | shutdown => exact hnone rfl (.refl ..)
  | ping id =>
    have htrack : Carries P t d (d.trackPing id) := .of_record rfl (.of_trace rfl)
    refine hnone rfl (htrack.sendFrame env fun _ id' hm => ?_)
    cases List.mem_singleton.mp hm
    exact hu .ping id rfl nofun nofun
  | join id topic timeout =>
    refine hnone rfl ?_
    by_cases ht : t = topic
    · rw [ht]
      exact carries_handleJoin (hu .join id rfl nofun nofun) timeout
    · exact (apart_handleJoin d topic id timeout).carries ht
  | call id topic event payload started => exact hpush topic (.call id event payload started) rfl rfl
  | cast id topic event payload => exact hpush topic (.cast id event payload) rfl rfl
  | leave id topic timeout =>
    refine hnone rfl ?_
    by_cases ht : t = topic
    · rw [ht]
      exact carries_handleLeave (hu .leave id rfl nofun nofun) timeout
    · exact (apart_handleLeave env d topic id timeout).carries ht

/-- Any command of the connected loop. -/
theorem inOrder_takeConnected {command : Command} (hd : d.Flushed t)
    (hu : Unmarked P (.command command)) (hi : InOrder P t env.options.pushBufferCapacity taken d) :
    InOrder P t env.options.pushBufferCapacity (taken ++ ((Input.command command).pushOn t).toList)
      (settle env ((d.accept command).handleConnectedCommand env command)) := by
  have hflushed : (d.accept command).Flushed t := by
    intro channel hr
    rw [accept_protocol]
    refine hd channel ?_
    unfold accept at hr
    split at hr
    · exact hr
    · exact hr
  exact (carries_settle _).inOrder
    (inOrder_connectedCommand hflushed hu ((carries_accept d command).inOrder hi))

/-- A command of a loop that is not connected. -/
theorem inOrder_takeOffline {command : Command} (hu : Unmarked P (.command command))
    (hi : InOrder P t env.options.pushBufferCapacity taken d) :
    InOrder P t env.options.pushBufferCapacity (taken ++ ((Input.command command).pushOn t).toList)
      ((d.accept command).handleOfflineCommand env command) := by
  have hi := (carries_accept d command).inOrder hi
  generalize d.accept command = d at hi ⊢
  have hnone : (Input.command command).pushOn t = none →
      Carries P t d (d.handleOfflineCommand env command) →
      InOrder P t env.options.pushBufferCapacity (taken ++ ((Input.command command).pushOn t).toList)
        (d.handleOfflineCommand env command) := by
    intro hn hc
    rw [hn, Option.toList_none, List.append_nil]
    exact hc.inOrder hi
  have hpush : ∀ (topic : Topic) (push : QueuedPush),
      d.handleOfflineCommand env command = d.queue env topic push →
      (Input.command command).pushOn t = (if topic = t then some push.id else none) →
      InOrder P t env.options.pushBufferCapacity (taken ++ ((Input.command command).pushOn t).toList)
        (d.handleOfflineCommand env command) := by
    intro topic push he hp
    by_cases ht : topic = t
    · rw [hp, if_pos ht, he, ht]
      exact (takes_queue push).inOrder hi
    · refine hnone (by rw [hp, if_neg ht]) ?_
      rw [he]
      exact (Apart.refl topic d).queue.carries fun he => ht he.symm
  cases command with
  | connect | disconnect | subscribe | subscribeChannel _ | shutdown => exact hnone rfl (.refl ..)
  | ping id => exact hnone rfl ((Carries.refl P t d).answer)
  | join id topic timeout =>
    refine hnone rfl ?_
    simp only [handleOfflineCommand]
    cases hr : d.record topic with
    | none => exact (Carries.refl P t d).answer
    | some channel =>
      by_cases ht : t = topic
      · rw [ht]
        refine (Carries.refl P topic d).setRecord hr ⟨List.Sublist.refl _, fun id' hm => ?_,
          fun pending hm => .inr ⟨pending, hm, rfl⟩⟩
        rcases List.mem_insert_iff.mp hm with rfl | hm
        · exact .inr (hu .join id' rfl (by decide) (by decide))
        · exact .inl hm
      · exact (Apart.refl topic d).setRecord.carries ht
  | call id topic event payload started => exact hpush topic (.call id event payload started) rfl rfl
  | cast id topic event payload => exact hpush topic (.cast id event payload) rfl rfl
  | leave id topic timeout =>
    refine hnone rfl ?_
    have hstop : Carries P t d ((d.setStatus topic .left).stopChannel topic) := by
      by_cases ht : t = topic
      · rw [ht]
        exact (Carries.refl P topic d).setStatus.stopChannel
      · have hk : Apart topic d ((d.setStatus topic .left).stopChannel topic) :=
          (Apart.refl topic d).setStatus.stopChannel
        exact hk.carries ht
    exact hstop.answer

variable (env) in
/-- Without a connection nothing is sent, and queues get shorter at most. -/
theorem carries_offlineLifecycle (command : LifecycleCommand) :
    Carries P t d (d.handleOfflineLifecycle env command) := by
  cases command with
  | register topic =>
    by_cases ht : t = topic
    · rw [ht]
      exact carries_register
    · have hk : Apart topic d (d.register env topic) := (Apart.refl topic d).register
      exact hk.carries ht
  | unregister topic =>
    by_cases ht : t = topic
    · rw [ht]
      exact (Carries.refl P topic d).unregister
    · have hk : Apart topic d (d.unregister topic) := (Apart.refl topic d).unregister
      exact hk.carries ht
  | cancel id => exact carries_cancel d id

/-- The frame of a dropped handle is a leave that serves no push. -/
theorem carries_connectedLifecycle (command : LifecycleCommand) :
    Carries P t d (d.handleConnectedLifecycle env command).1 := by
  cases command with
  | register topic => exact carries_offlineLifecycle env (.register topic)
  | unregister topic =>
    by_cases ht : t = topic
    · rw [ht]
      exact carries_unregisterConnected
    · exact (apart_unregisterConnected env d topic).carries ht
  | cancel id => exact carries_cancel d id

/-- A heartbeat serves no push. -/
theorem carries_handleHeartbeat : Carries P t d (d.handleHeartbeat env).1 := by
  by_cases h : d.connection.heartbeatReference.isSome = true
  · rw [handleHeartbeat_of_some h]
    exact .refl ..
  · rw [handleHeartbeat_of_none h]
    have htrack : Carries P t d d.trackHeartbeat := .of_record rfl (.of_trace rfl)
    have hs : Carries P t d (d.trackHeartbeat.sendFrame env []
        ⟨none, some d.state.protocol.nextText, "phoenix", "heartbeat", .emptyObject⟩).1 :=
      htrack.sendFrame env fun _ => nofun
    rcases hsend : d.trackHeartbeat.sendFrame env []
      ⟨none, some d.state.protocol.nextText, "phoenix", "heartbeat", .emptyObject⟩ with ⟨d', _ | reason⟩
    · rw [hsend] at hs
      exact hs.trans (.of_record rfl (.of_trace rfl))
    · rw [hsend] at hs
      exact hs

/-- A push is a request, and on one topic. -/
theorem pushOn_eq_some {input : Input} {id : RequestId} (h : input.pushOn t = some id) :
    input.request.map Prod.snd = some id ∧ ∀ t', t' ≠ t → input.pushOn t' = none := by
  unfold Input.pushOn at h
  split at h
  · split at h
    · rename_i ht
      cases h
      exact ⟨rfl, fun t' hne => if_neg fun he => hne (he.symm.trans ht)⟩
    · cases h
  · split at h
    · rename_i ht
      cases h
      exact ⟨rfl, fun t' hne => if_neg fun he => hne (he.symm.trans ht)⟩
    · cases h
  · cases h

theorem pushOn_of_no_request {input : Input} (h : input.request = none) : input.pushOn t = none := by
  cases hp : input.pushOn t with
  | none => rfl
  | some id =>
    have hr := (pushOn_eq_some hp).1
    rw [h] at hr
    cases hr

theorem carries_reports {reports : List Effect} (he : d' = d.emitAll reports)
    (hr : ∀ effect ∈ reports, effect.IsNotice) : Carries P t d d' := by
  rw [he]
  refine (Carries.refl P t d).emitAll fun effect hm => ?_
  rcases hr effect hm with hreport | rfl
  · exact Lenient.report effect hreport
  · rfl

/-- Inputs that are no call or cast of the topic. -/
theorem inOrder_of_carries {input : Input} (hn : input.pushOn t = none) (h : Carries P t d d')
    (hi : InOrder P t capacity taken d) :
    InOrder P t capacity (taken ++ (input.pushOn t).toList) d' := by
  rw [hn, Option.toList_none, List.append_nil]
  exact h.inOrder hi

/-- Commands take pushes, and every other step carries the queue. -/
theorem inOrder_connectedStep {input : Input} (hd : d.Flushed t) (hu : Unmarked P input)
    (hi : InOrder P t env.options.pushBufferCapacity taken d) (hs : ConnectedStep env d input d') :
    InOrder P t env.options.pushBufferCapacity (taken ++ (input.pushOn t).toList) d' := by
  cases hs with
  | lifecycle command =>
    exact inOrder_of_carries rfl ((carries_connectedLifecycle _).trans (carries_settle _)) hi
  | command command => exact inOrder_takeConnected hd hu hi
  | acknowledge => exact inOrder_of_carries rfl (carries_acknowledge d) hi
  | disconnect => exact inOrder_of_carries rfl (carries_disconnect d) hi
  | close =>
    have hclose := (carries_acknowledge (P := P) (t := t) d).trans (carries_close d.acknowledge)
    exact inOrder_of_carries rfl (hclose.trans (.of_record rfl (.of_trace rfl))) hi
  | lost input hr reason =>
    exact inOrder_of_carries (pushOn_of_no_request hr) (carries_settle (d, _)) hi
  | message message =>
    exact inOrder_of_carries rfl ((carries_onMessage _).trans (carries_settle _)) hi
  | heartbeat => exact inOrder_of_carries rfl (carries_handleHeartbeat.trans (carries_settle _)) hi
  | payload topic payloadId result hm =>
    have htake : Carries P t d (d.takePayload topic payloadId) := .of_record rfl (.of_trace rfl)
    refine inOrder_of_carries rfl ((htake.trans ?_).trans (carries_settle _)) hi
    by_cases ht : t = topic
    · rw [ht]
      exact carries_handlePayload ..
    · exact (apart_handlePayload ..).carries ht
  | rejoin timer hm =>
    have htake : Carries P t d (d.takeRejoin timer) := .of_record rfl (.of_trace rfl)
    refine inOrder_of_carries rfl (htake.trans ?_) hi
    by_cases ht : t = timer.value
    · rw [ht]
      exact carries_handleRejoin
    · exact (apart_handleRejoin ..).carries ht
  | operationTimeout timer hm =>
    refine inOrder_of_carries rfl ?_ hi
    by_cases ht : t = timer.value.topic
    · rw [ht]
      exact carries_operationTimeout d timer
    · exact (apart_operationTimeout env hm).carries ht

/-- Commands take pushes, and every other step carries the queue. -/
theorem inOrder_offlineStep {input : Input} (hu : Unmarked P input)
    (hi : InOrder P t env.options.pushBufferCapacity taken d) (hs : OfflineStep env d input d') :
    InOrder P t env.options.pushBufferCapacity (taken ++ (input.pushOn t).toList) d' := by
  cases hs with
  | lifecycle command => exact inOrder_of_carries rfl (carries_offlineLifecycle env _) hi
  | command command => exact inOrder_takeOffline hu hi
  | acknowledge command hc =>
    have hq : (Input.command command).request = none := hc
    exact inOrder_of_carries (pushOn_of_no_request hq) (carries_acknowledge d) hi
  | disconnect d₁ reports he hr =>
    exact inOrder_of_carries rfl ((carries_reports he hr).trans (carries_disconnect d₁)) hi
  | close input hq d₁ reports he hr =>
    exact inOrder_of_carries (pushOn_of_no_request hq)
      ((carries_reports he hr).trans (carries_close d₁)) hi
  | connect input hq d₁ reports he attempt hr =>
    have hattempt : Carries P t d₁ { d₁ with attempt } := .of_record rfl (.of_trace rfl)
    exact inOrder_of_carries (pushOn_of_no_request hq)
      (((carries_reports he hr).trans hattempt).trans (carries_beginConnect _)) hi
  | failed input hq started error =>
    exact inOrder_of_carries (pushOn_of_no_request hq) (carries_connectFailed ..) hi
  | made started due transport order hp ho =>
    exact inOrder_of_carries rfl (carries_connectionMade ..) hi

/-- **Every step keeps the pushes of every topic in order.** -/
theorem inOrder_step {input : Input} (hd : d.Flushed t) (hu : Unmarked P input)
    (hi : InOrder P t env.options.pushBufferCapacity taken d) (hs : d.step env input = some d') :
    InOrder P t env.options.pushBufferCapacity (taken ++ (input.pushOn t).toList) d' := by
  cases stepped hs with
  | tick elapsed hin hd' =>
    subst hin hd'
    have htick : Carries P t d { d with clock := d.clock + elapsed } :=
      .of_record rfl (.of_trace rfl)
    exact inOrder_of_carries rfl htick hi
  | dropped topic hin hd' =>
    subst hin hd'
    refine inOrder_of_carries rfl ?_ hi
    by_cases ht : t = topic
    · rw [ht]
      exact (Carries.refl P topic d).setStatus
    · have hk : Apart topic d (d.setStatus topic .closed) := (Apart.refl topic d).setStatus
      exact hk.carries ht
  | offline hc ho hs => exact inOrder_offlineStep hu hi hs
  | connected hp hs => exact inOrder_connectedStep hd hu hi hs

/-! ### Runs

By induction: the pushes sent so far and then the queue are taken from the commands in their order,
and the queue never outgrows its capacity. -/

/-- At first nothing was taken. -/
theorem inOrder_start (P : RequestId → Bool) (t : Topic) (capacity : Nat) :
    InOrder P t capacity [] (start env) := by
  have hnew : InOrder P t capacity [] ⟨.new, .none, .idle, 0, 0, ⟨true, []⟩, []⟩ := by
    have hr : (⟨.new, .none, .idle, 0, 0, ⟨true, []⟩, []⟩ : Driver).record t = none := by
      simp [record, DriverState.new]
    refine ⟨clear_of_none hr, ?_, ?_⟩
    · rw [queuedIds_of_none hr]
      exact List.Sublist.refl _
    · rw [queuedIds_of_none hr]
      exact Nat.zero_le _
  unfold start
  dsimp only
  split
  · exact (carries_beginConnect _).inOrder hnew
  · exact hnew

/-- The inputs of a run, one after the other, with the requests of the topic's pushes marked. -/
theorem inOrder_run (P : RequestId → Bool) (t : Topic) (inputs : List Input) (d : Driver)
    (hr : (driver env).run (driver env).start inputs = some d)
    (hu : ∀ input ∈ inputs, Unmarked P input) :
    InOrder P t env.options.pushBufferCapacity (pushesOn t inputs) d := by
  induction inputs using List.reverseRecOn generalizing d with
  | nil =>
    cases hr
    exact inOrder_start P t _
  | append_singleton inputs input ih =>
    obtain ⟨d₁, hrun, hstep⟩ := Machine.run_concat.mp hr
    have hi := ih d₁ hrun fun input hm => hu input (List.mem_append_left _ hm)
    have hd := (reachable_consistent (Machine.reachable_iff_run.mpr ⟨inputs, hrun⟩)).agrees t
    have hnext := inOrder_step hd.flushed
      (hu input (List.mem_append_right _ (List.mem_singleton.mpr rfl))) hi hstep
    have htaken : pushesOn t (inputs ++ [input]) = pushesOn t inputs ++ (input.pushOn t).toList := by
      rw [pushesOn, List.filterMap_append]
      cases hp : input.pushOn t <;> simp [pushesOn, hp]
    rw [htaken]
    exact hnext

/-- Requests with ids of their own: the id of a push is not that of anything else. -/
theorem unmarked_of_nodup {inputs : List Input} (h : (requests inputs).Nodup) (t : Topic) :
    ∀ input ∈ inputs, Unmarked (fun id => id ∈ pushesOn t inputs) input := by
  intro input hm operation id hreq hcall hcast
  refine decide_eq_false fun hpush => ?_
  obtain ⟨input', hm', hp⟩ := List.mem_filterMap.mp hpush
  have hreq' : input'.request = some (.call, id) ∨ input'.request = some (.cast, id) := by
    unfold Input.pushOn at hp
    split at hp
    · split at hp <;> cases hp
      exact .inl rfl
    · split at hp <;> cases hp
      exact .inr rfl
    · cases hp
  have hne : input ≠ input' := by
    rintro rfl
    rcases hreq' with hr | hr
    · exact hcall (congrArg Prod.fst (Option.some.inj (hreq.symm.trans hr)))
    · exact hcast (congrArg Prod.fst (Option.some.inj (hreq.symm.trans hr)))
  have hpair := List.pairwise_filterMap.mp h
  have hsymm : Std.Symm fun a b : Input => ∀ x, a.request.map Prod.snd = some x →
      ∀ y, b.request.map Prod.snd = some y → x ≠ y :=
    ⟨fun a b hab x hx y hy he => hab y hy x hx he.symm⟩
  have hid : input'.request.map Prod.snd = some id := by
    rcases hreq' with hr | hr <;> rw [hr] <;> rfl
  exact hpair.forall hm hm' hne id (by rw [hreq]; rfl) id hid rfl

end

/-- **The pushes of a channel go out in the order they were taken**, and none is left behind:
a joined channel has nothing queued. The queue never outgrows its capacity. -/
theorem pushes_in_order (env : Env) (inputs : List Input) (d : Driver)
    (hr : (driver env).run (driver env).start inputs = some d) (hids : (requests inputs).Nodup) :
    ∀ topic : Topic,
      (sentOn topic (pushesOn topic inputs) d.trace).Sublist (pushesOn topic inputs) ∧
      ∀ channel : ChannelRecord, d.record topic = some channel →
        channel.queued.length ≤ env.options.pushBufferCapacity ∧
        (d.state.protocol.channelState topic = some .joined → channel.queued = []) := by
  intro topic
  have hi := inOrder_run _ topic inputs d hr (unmarked_of_nodup hids topic)
  have hd := (reachable_consistent (Machine.reachable_iff_run.mpr ⟨inputs, hr⟩)).agrees topic
  refine ⟨(List.sublist_append_left _ _).trans hi.order, fun channel hc => ⟨?_, hd.flushed channel hc⟩⟩
  have hb := hi.bounded
  rwa [queuedIds_of_some hc, List.length_map] at hb

/-- Two calls during a join and one after it. -/
theorem pushes_in_order_calls :
    ∃ d : Driver, (requests (joining ++ [.command (.call 2 "room" "a" .emptyObject 0),
        .command (.cast 3 "room" "b" .emptyObject), .frame (replyFrame "ok" "room" "1" "1"),
        .command (.call 4 "room" "c" .emptyObject 0)])).Nodup ∧
      sentOn "room" [2, 3, 4] d.trace = [2, 3, 4] ∧
      (sentOn "room" [2, 3, 4] d.trace).Sublist [2, 3, 4] := by
  have hrun : ((driver (smallEnv [replyFrame "ok" "room" "1" "1"])).run
      (driver (smallEnv [replyFrame "ok" "room" "1" "1"])).start
      (joining ++ [.command (.call 2 "room" "a" .emptyObject 0),
        .command (.cast 3 "room" "b" .emptyObject), .frame (replyFrame "ok" "room" "1" "1"),
        .command (.call 4 "room" "c" .emptyObject 0)])).any
      (fun d => sentOn "room" [2, 3, 4] d.trace = [2, 3, 4]) = true := by decide +kernel
  obtain ⟨d, hr, hd⟩ := (Option.any_eq_true _ _).mp hrun
  exact ⟨d, by decide, of_decide_eq_true hd, (pushes_in_order _ _ d hr (by decide) "room").1⟩

end Driver
end PhoenixChannel.Client
