import PhoenixChannel.Client.Custody
import PhoenixChannel.Client.Handles

/-! What becomes of a request that its caller gave up.

A cancellation finds the request wherever the driver holds it. A request that is neither held nor
on its way to the driver is gone: nothing is sent or started for it any more. -/
namespace PhoenixChannel.Client
open PhoenixChannel.Runtime Library

namespace Driver

/-! ### What a cancellation finds

One lemma for each place a request can be at. -/

section
variable {d d' : Driver} {id : RequestId} {topic : Topic} {channel : ChannelRecord}
  {operation : ClientOperation}

/-- From `d` to `d'` the response of a request is dropped. -/
def Drops (operation : ClientOperation) (id : RequestId) (d d' : Driver) : Prop :=
  ∃ effects, d'.trace = d.trace ++ effects ∧ .cancelled operation id ∈ effects

theorem drops_cancelJoin : Drops .join id d (d.cancelJoin topic channel id) := by
  by_cases hlast : channel.joinWaiters.erase id = [] ∧ channel.everJoined = false
  · rw [cancelJoin_of_last hlast.1 hlast.2]
    exact ⟨[.cancelled .join id], rfl, List.mem_cons_self⟩
  · rw [cancelJoin_of_others hlast]
    exact ⟨[.cancelled .join id], rfl, List.mem_cons_self⟩

theorem drops_cancelPending {call : PendingCall} {r : Reference}
    (hf : (d.state.pendingCalls.toList.find? fun entry => entry.2.id == id) = some (r, call)) :
    Drops .call id d (d.cancelPending id) := by
  have hrest : Honors (fun _ => True) [] (d.cancelCall id) (d.cancelPending id) :=
    (honors_cancelPing (d.cancelCall id) fun _ => trivial).andThen (honors_cancelLeave _ fun _ => trivial)
  obtain ⟨effects, ht, -⟩ := hrest
  have hcall : (d.cancelCall id).trace = d.trace ++ [.cancelled .call id,
      .telemetry (.callCompleted call.topic call.event .cancelled (d.clock - call.started))] := by
    rw [cancelCall_of_some hf]
    rfl
  exact ⟨_ ++ effects, by rw [ht, hcall, List.append_assoc], List.mem_append_left _ List.mem_cons_self⟩

theorem mem_channel_held :
    (operation, id) ∈ channel.held ↔ (operation = .join ∧ id ∈ channel.joinWaiters) ∨
      (∃ push ∈ channel.queued, push.operation = operation ∧ push.id = id) ∨
      operation = .leave ∧ ∃ pending, channel.deferredLeave = some pending ∧ pending.id = id := by
  have hleave : (operation, id) ∈ leaveHeld channel.deferredLeave ↔
      operation = .leave ∧ ∃ pending, channel.deferredLeave = some pending ∧ pending.id = id := by
    cases channel.deferredLeave with
    | none => simp [leaveHeld]
    | some pending => simp [leaveHeld, PendingLeave.held, eq_comm]
  simp only [ChannelRecord.held, List.mem_append, hleave, List.mem_map, Prod.mk.injEq, QueuedPush.request,
    or_assoc]
  simp [eq_comm, and_comm]

/-- The request waits in a record, and it is a call or a cast. -/
theorem drops_cancelUnsent (hids : ∀ x ∈ d.held, x.2 = id → x.1 = operation) (hl : operation ≠ .leave)
    (hr : d.record topic = some channel)
    (hm : (∃ pending, channel.deferredLeave = some pending ∧ pending.id = id) ∨
      ∃ push ∈ channel.queued, push.id = id) :
    Drops operation id d (d.cancelUnsent topic channel id) := by
  have hsame : ∀ {other : ClientOperation}, (other, id) ∈ channel.held → other = operation :=
    fun hm => hids _ (mem_held_of_record hr hm) rfl
  cases d.cancelUnsent_cases topic channel id with
  | leave pending hd hid he =>
    exact absurd (hsame (mem_channel_held.mpr (.inr (.inr ⟨rfl, pending, hd, hid⟩)))).symm hl
  | push push hf he =>
    have hid : push.id = id := by simpa using List.find?_some hf
    have hpush : push.operation = operation :=
      hsame (mem_channel_held.mpr (.inr (.inl ⟨push, List.mem_of_find?_eq_some hf, rfl, hid⟩)))
    refine ⟨push.cancellation topic d.clock, by rw [he]; rfl, ?_⟩
    rw [← hpush, ← hid]
    exact push.mem_cancellation ..
  | nothing hd hq he =>
    rcases hm with ⟨pending, hsome, hid⟩ | ⟨push, hpush, hid⟩
    · exact absurd hid (hd pending hsome)
    · exact absurd hid (hq push hpush)

/-- What no record holds is a call in flight. -/
theorem call_of_held (hl : operation ≠ .leave) (hp : operation ≠ .ping) (hx : (operation, id) ∈ d.held)
    (hn : ∀ (t : Topic) (channel : ChannelRecord), d.record t = some channel → (operation, id) ∉ channel.held) :
    ∃ (r : Reference) (call : PendingCall),
      d.state.pendingCalls[r]? = some call ∧ operation = .call ∧ call.id = id := by
  obtain ⟨place, hm⟩ := mem_tally.mp hx
  cases place with
  | record t =>
    simp only [tallyAt] at hm
    cases hr : d.record t with
    | none =>
      rw [hr] at hm
      cases hm
    | some channel =>
      rw [hr] at hm
      exact absurd hm (hn t channel hr)
  | reference r =>
    simp only [tallyAt, List.mem_append] at hm
    rcases hm with (hm | hm) | hm
    · cases hc : d.state.pendingCalls[r]? with
      | none =>
        rw [hc] at hm
        cases hm
      | some call =>
        rw [hc] at hm
        cases List.mem_singleton.mp hm
        exact ⟨r, call, hc, rfl, rfl⟩
    · cases hc : d.state.pendingPings[r]? with
      | none =>
        rw [hc] at hm
        cases hm
      | some ping =>
        rw [hc] at hm
        cases List.mem_singleton.mp hm
        exact absurd rfl hp
    · cases hc : d.state.pendingLeaves[r]? with
      | none =>
        rw [hc] at hm
        cases hm
      | some leave =>
        rw [hc] at hm
        cases List.mem_singleton.mp hm
        exact absurd rfl hl

/-- **A cancellation drops the request it is for**, wherever the driver holds it, if no other
one has its id. Leaves keep their place, and pings are not looked for here. -/
theorem drops_cancel (hids : ∀ x ∈ d.held, x.2 = id → x.1 = operation) (hl : operation ≠ .leave)
    (hp : operation ≠ .ping) (hx : (operation, id) ∈ d.held) : Drops operation id d (d.cancel id) := by
  cases d.cancel_found id with
  | join topic channel hr hm he =>
    have hheld : (.join, id) ∈ channel.held := mem_channel_held.mpr (.inl ⟨rfl, hm⟩)
    have hjoin : .join = operation := hids _ (mem_held_of_record hr hheld) rfl
    rw [he, ← hjoin]
    exact drops_cancelJoin
  | unsent topic channel hr hm he =>
    rw [he]
    exact drops_cancelUnsent hids hl hr hm
  | pending hj hq he =>
    obtain ⟨r, call, hc, rfl, hid⟩ := call_of_held hl hp hx fun t channel hr hm => by
      rcases mem_channel_held.mp hm with ⟨-, hw⟩ | ⟨push, hpush, -, hid⟩ | ⟨hleave, -⟩
      · exact hj t channel hr hw
      · exact hq t channel hr push hpush hid
      · exact hl hleave
    rw [he]
    cases hf : d.state.pendingCalls.toList.find? fun entry => entry.2.id == id with
    | none => exact absurd (by simpa using hid) (Table.not_of_find hf hc)
    | some found => exact drops_cancelPending hf

/-- Only of a leave the driver holds more than its response. -/
theorem count_owed_eq_held {x : Request} (hl : x.1 ≠ .leave) : d.owed.count x = d.held.count x := by
  have hleave : ∀ leave : PendingLeave, leave.owed.count x = leave.held.count x := by
    intro leave
    have hne : x ≠ (.leave, leave.id) := fun he => hl (congrArg Prod.fst he)
    have hheld : leave.held.count x = 0 := List.count_eq_zero.mpr (by simpa [PendingLeave.held] using hne)
    rw [hheld, PendingLeave.owed]
    split
    · exact hheld
    · rfl
  have hchannel : ∀ channel : ChannelRecord, channel.owed.count x = channel.held.count x := by
    intro channel
    simp only [ChannelRecord.owed, ChannelRecord.held, List.count_append, Nat.add_left_cancel_iff]
    cases channel.deferredLeave with
    | none => rfl
    | some leave => exact hleave leave
  have hrecords : Table.total (due ChannelRecord.owed x) d.state.channels =
      Table.total (due ChannelRecord.held x) d.state.channels :=
    Table.total_congr fun _ channel _ => hchannel channel
  have hleaves : Table.total (due PendingLeave.owed x) d.state.pendingLeaves =
      Table.total (due PendingLeave.held x) d.state.pendingLeaves :=
    Table.total_congr fun _ leave _ => hleave leave
  rw [count_owed, count_held, hrecords, hleaves]

/-- **What was cancelled is held no more.** -/
theorem not_held_cancel (hids : ∀ x ∈ d.held, x.2 = id → x.1 = operation) (hl : operation ≠ .leave)
    (hp : operation ≠ .ping) (hone : d.held.count (operation, id) ≤ 1) :
    ∀ x ∈ (d.cancel id).held, x.2 ≠ id := by
  obtain ⟨effects, ht, hh⟩ : Honors (fun _ => True) [] d (d.cancel id) :=
    honors_cancel d fun _ => trivial
  rintro ⟨other, id⟩ hx rfl
  have hpos := List.count_pos_iff.mpr hx
  have hle := hh.places (other, id)
  rw [List.count_nil, Nat.add_zero] at hle
  have hheld : (other, id) ∈ d.held := List.count_pos_iff.mp (by omega)
  obtain rfl : other = operation := hids _ hheld rfl
  have hone : d.held.count (other, id) ≤ 1 := hone
  obtain ⟨effects', ht', hm⟩ := drops_cancel hids hl hp hheld
  have hsettled : 0 < (settled effects).count (other, id) := by
    rw [List.append_cancel_left (ht.symm.trans ht')]
    exact List.count_pos_iff.mpr (List.mem_flatMap.mpr ⟨_, hm, List.mem_singleton_self _⟩)
  have hmost := hh.atMost (other, id)
  rw [count_owed_eq_held hl, count_owed_eq_held hl, List.count_nil] at hmost
  omega

end

end Driver

/-! ### Requests on their way

The driver's queues are part of the system here. A request made once is on its way, or held, or
gone. -/

namespace Driver

section
variable {env : Env} {d d' : Driver} {input : Input}

theorem serves_of_idle {effect : Effect} (h : ¬ effect.Sends) : effect.serves = [] := by
  cases effect with
  | outgoing | loading => exact absurd trivial h
  | _ => rfl

/-- A driver that is over does nothing. -/
theorem done_of_closed (hs : d.step env input = some d') (hc : d.phase = .closed) : d.done d' = [] := by
  rcases stepped hs with ⟨elapsed, -, rfl⟩ | ⟨topic, -, rfl⟩ | ⟨-, ho, -⟩ | ⟨hp, -⟩
  · exact done_of_append (List.append_nil _).symm
  · have ht : (d.setStatus topic .closed).trace = d.trace := by
      unfold setStatus
      cases d.record topic <;> rfl
    exact done_of_append (ht.trans (List.append_nil _).symm)
  · exact absurd hc ho
  · rw [hp] at hc
    cases hc

/-- A step serves requests that are held or that its input makes, and holds no others after it. -/
theorem held_step (hr : (driver env).Reachable d) (hs : d.step env input = some d')
    (hn : ∀ id, input.request = some (.join, id) → (.join, id) ∉ d.held) :
    (∀ effect ∈ d.done d', ∀ id ∈ effect.serves,
        ∃ x : Request, x.2 = id ∧ (x ∈ d.held ∨ x ∈ input.request.toList)) ∧
      (d'.phase = .closed ∨ ∀ x, d'.held.count x ≤ d.held.count x + input.request.toList.count x) := by
  have howed : ∀ id, input.request = some (.join, id) → (.join, id) ∉ d.owed := by
    intro id hi hm
    refine hn id hi (List.count_pos_iff.mp ?_)
    rw [← count_owed_eq_held (x := (.join, id)) nofun]
    exact List.count_pos_iff.mpr hm
  rcases honored_step hr hs howed with ⟨hclosed, hidle⟩ | ⟨effects, -, ht, hh⟩
  · refine ⟨fun effect hm id hid => ?_, .inl hclosed⟩
    rw [serves_of_idle (hidle.done hm)] at hid
    cases hid
  refine ⟨fun effect hm id hid => ?_, .inr hh.places⟩
  rw [done_of_append ht] at hm
  rcases List.mem_append.mp hm with hm | hm
  · obtain ⟨request, -, rfl⟩ := List.mem_map.mp hm
    cases hid
  rcases hh.kinds effect hm with hplain | ⟨hl, -⟩ | ⟨-, hserves⟩
  · cases effect with
    | outgoing | loading => exact hplain.elim
    | _ => cases hid
  · cases hl <;> cases hid
  · exact hserves id hid

end

end Driver

namespace Host

/-- The requests on the way to the driver. -/
def underway (s : Host) : List Request := s.commands.filterMap Command.request

/-- What a step does to the driver, to the requests underway and to those made. -/
inductive HostStep (env : Env) (s s' : Host) : Prop where
  | idle (hd : s'.driver = s.driver) (hu : s'.underway.Sublist s.underway) (hm : s'.made = s.made)
  | requested (command : Command) (hr : ¬ s.Repeats command) (hd : s'.driver = s.driver)
      (hu : s'.underway = s.underway ++ command.request.toList)
      (hm : s'.made = s.made ++ command.request.toList)
  | driven (input : Input) (hd : s.driver.step env input = some s'.driver)
      (hu : s.underway = input.request.toList ++ s'.underway) (hm : s'.made = s.made)

section
variable {env : Env} {s s' : Host} {id : RequestId}

theorem HostStep.send (hs : HostStep env s s') (message : LifecycleMessage) :
    HostStep env s (s'.send message) := by
  unfold Host.send
  split
  · exact hs
  · cases hs with
    | idle hd hu hm => exact .idle hd hu hm
    | requested command hr hd hu hm => exact .requested command hr hd hu hm
    | driven input hd hu hm => exact .driven input hd hu hm

/-- One case for each action of the system. -/
theorem host_step {action : Action} (hs : s.step env action = some s') : HostStep env s s' := by
  have hrefl : HostStep env s s := .idle rfl (.refl _) rfl
  cases acted hs with
  | channel topic =>
    unfold Host.channel
    split
    · exact hrefl
    dsimp only
    split
    · exact .idle rfl (.refl _) rfl
    · unfold Host.send
      split <;> exact .idle rfl (.refl _) rfl
  | dropChannel handle hm =>
    refine HostStep.send ?_ _
    unfold Host.setStatus
    split
    · exact .driven (.handleDropped handle.topic) rfl rfl rfl
    · exact .idle rfl (.refl _) rfl
  | request command hr =>
    unfold Host.request
    split
    · exact hrefl
    · refine .requested command hr rfl ?_ rfl
      simp only [underway, List.filterMap_append]
      cases hq : command.request <;> simp [hq]
  | giveUp id hm => exact hrefl.send _
  | nextLifecycle message rest d hq hd => exact .driven _ hd rfl rfl
  | nextCommand command rest d hq hc hd =>
    refine .driven _ hd ?_ rfl
    have hr : (Input.command command).request = command.request := rfl
    rw [underway, hc, List.filterMap_cons, hr]
    cases command.request <;> rfl
  | wake input d hw hd =>
    have hnone : input.request = none := by
      cases input with
      | command command => cases hw
      | _ => rfl
    exact .driven input hd (by rw [hnone]; rfl) rfl
  | tick elapsed d hd => exact .driven _ hd rfl rfl
  | stop => exact .idle rfl (List.nil_sublist _) rfl

theorem reachable_driver (h : (host env).Reachable s) : (Client.driver env).Reachable s.driver := by
  induction h with
  | start => exact .start
  | step _ _ hs ih =>
    cases host_step hs with
    | idle hd hu hm => rwa [hd]
    | requested command hr hd hu hm => rwa [hd]
    | driven input hd hu hm => exact ih.step hd

/-- Each request was made once, and is held or underway at most once. -/
structure Booked (s : Host) : Prop where
  ids : (s.made.map Prod.snd).Nodup
  places : s.driver.phase = .closed ∨
    ∀ x, s.driver.held.count x + s.underway.count x ≤ s.made.count x

theorem Booked.count_le_one (h : s.Booked) (x : Request) : s.made.count x ≤ 1 :=
  List.nodup_iff_count_le_one.mp (h.ids.of_map _) x

/-- What the driver takes next it does not hold. -/
theorem Booked.fresh (h : s.Booked) (hc : s.driver.phase ≠ .closed) {input : Input}
    (hu : s.underway = input.request.toList ++ s'.underway) :
    ∀ id, input.request = some (.join, id) → (.join, id) ∉ s.driver.held := by
  intro id hi hm
  have hx := (h.places.resolve_left hc) (.join, id)
  have hone := h.count_le_one (.join, id)
  have hpos := List.count_pos_iff.mpr hm
  rw [hu, hi, Option.toList_some, List.count_append, List.count_singleton_self] at hx
  omega

/-- A request goes from its way to the driver into the driver's hands, and so is never in both. -/
theorem booked_step (h : s.Booked) (hr : (Client.driver env).Reachable s.driver)
    (hs : HostStep env s s') : s'.Booked := by
  cases hs with
  | idle hd hu hm =>
    refine ⟨hm ▸ h.ids, ?_⟩
    rw [hd, hm]
    refine h.places.imp_right fun hp x => ?_
    have hx := hp x
    have hx' := hu.count_le x
    omega
  | requested command hn hd hu hm =>
    refine ⟨?_, ?_⟩
    · rw [hm, List.map_append, List.nodup_append]
      refine ⟨h.ids, ?_, fun a ha b hb hab => hn ?_⟩
      · cases command.request <;> simp
      · obtain ⟨request, hq, rfl⟩ := List.mem_map.mp hb
        exact ⟨request, by simpa using hq, hab ▸ ha⟩
    · rw [hd, hu, hm]
      refine h.places.imp_right fun hp x => ?_
      have hx := hp x
      rw [List.count_append, List.count_append]
      omega
  | driven input hd hu hm =>
    refine ⟨hm ▸ h.ids, ?_⟩
    by_cases hc : s.driver.phase = .closed
    · exact .inl (Driver.closed_step hd hc)
    refine (Driver.held_step hr hd (h.fresh hc hu)).2.imp_right fun hheld x => ?_
    have hx := (h.places.resolve_left hc) x
    have hx' := hheld x
    rw [hu, List.count_append] at hx
    rw [hm]
    omega

theorem booked_start (env : Env) : (Host.start env).Booked := by
  refine ⟨List.nodup_nil, .inr fun x => ?_⟩
  have hbalanced : Driver.Balanced [] (Driver.start env) := Driver.balanced_start
  have hx := hbalanced.places x
  rw [hbalanced.taken] at hx
  simpa [Host.underway, Host.start] using hx

theorem reachable_booked (h : (host env).Reachable s) : s.Booked := by
  refine h.invariant (booked_start env) ?_
  intro s action s' hr hb _ hs
  exact booked_step hb (reachable_driver hr) (host_step hs)

/-- The request was made, and is neither held nor underway. -/
structure Gone (id : RequestId) (s : Host) : Prop where
  made : id ∈ s.made.map Prod.snd
  underway : ∀ x ∈ s.underway, x.2 ≠ id
  held : s.driver.phase = .closed ∨ ∀ x ∈ s.driver.held, x.2 ≠ id

/-- **A request that is gone stays gone, and nothing is sent or started for it.** -/
theorem gone_step (h : s.Gone id) (hb : s.Booked) (hr : (Client.driver env).Reachable s.driver)
    (hs : HostStep env s s') :
    s'.Gone id ∧ ∀ effect ∈ s.driver.done s'.driver, id ∉ effect.serves := by
  have hquiet : s'.driver = s.driver → ∀ effect ∈ s.driver.done s'.driver, id ∉ effect.serves := by
    intro hd effect hm
    rw [hd, Driver.done, List.drop_length] at hm
    cases hm
  cases hs with
  | idle hd hu hm =>
    exact ⟨⟨hm ▸ h.made, fun x hx => h.underway x (hu.subset hx), hd ▸ h.held⟩, hquiet hd⟩
  | requested command hn hd hu hm =>
    refine ⟨⟨?_, fun x hx => ?_, hd ▸ h.held⟩, hquiet hd⟩
    · rw [hm, List.map_append]
      exact List.mem_append_left _ h.made
    · rw [hu] at hx
      rcases List.mem_append.mp hx with hx | hx
      · exact h.underway x hx
      · rintro rfl
        exact hn ⟨x, by simpa using hx, h.made⟩
  | driven input hd hu hm =>
    have hu' : ∀ x ∈ s'.underway, x.2 ≠ id := fun x hx =>
      h.underway x (hu ▸ List.mem_append_right _ hx)
    have hhand : ∀ x ∈ input.request.toList, x.2 ≠ id := fun x hx =>
      h.underway x (hu ▸ List.mem_append_left _ hx)
    by_cases hc : s.driver.phase = .closed
    · refine ⟨⟨hm ▸ h.made, hu', .inl (Driver.closed_step hd hc)⟩, fun effect hm => ?_⟩
      rw [Driver.done_of_closed hd hc] at hm
      cases hm
    have hheld := h.held.resolve_left hc
    obtain ⟨hserves, hkept⟩ := Driver.held_step hr hd (hb.fresh hc hu)
    refine ⟨⟨hm ▸ h.made, hu', hkept.imp_right fun hle x hx => ?_⟩, fun effect hm hid => ?_⟩
    · have hpos := List.count_pos_iff.mpr hx
      have hx' := hle x
      by_cases hx : x ∈ s.driver.held
      · exact hheld x hx
      · rw [List.count_eq_zero.mpr hx] at hx'
        exact hhand x (List.count_pos_iff.mp (by omega))
    · obtain ⟨x, hx, hm | hm⟩ := hserves effect hm id hid
      · exact hheld x hm hx
      · exact hhand x hm hx

/-- What the driver holds and what is underway was made. -/
theorem Booked.mem_made (h : s.Booked) (hc : s.driver.phase ≠ .closed) {x : Request}
    (hx : x ∈ s.driver.held ∨ x ∈ s.underway) : x ∈ s.made := by
  have hle := (h.places.resolve_left hc) x
  rcases hx with hx | hx
  · have hpos := List.count_pos_iff.mpr hx
    exact List.count_pos_iff.mp (by omega)
  · have hpos := List.count_pos_iff.mpr hx
    exact List.count_pos_iff.mp (by omega)

/-- The driver handles a cancellation that is next. -/
theorem cancelled_driver {rest : List LifecycleMessage} (hq : s.lifecycle = .cancel id :: rest)
    (hs : s.step env .nextLifecycle = some s') :
    s.driver.phase ≠ .closed ∧ s'.driver = s.driver.cancel id := by
  simp only [Host.step, hq] at hs
  obtain ⟨d, hd, rfl⟩ := Option.map_eq_some_iff.mp hs
  refine ⟨fun hc => ?_, ?_⟩
  · simp only [Driver.step, hc] at hd
    cases hd
  · rcases Driver.lifecycle_cases hd with rfl | rfl <;> rfl

/-- What was cancelled is held no more. -/
theorem not_held_of_cancelled {operation : ClientOperation} {rest : List LifecycleMessage} (hb : s.Booked)
    (hm : (operation, id) ∈ s.made) (hl : operation ≠ .leave) (hp : operation ≠ .ping)
    (hq : s.lifecycle = .cancel id :: rest) (hs : s.step env .nextLifecycle = some s') :
    ∀ x ∈ s'.driver.held, x.2 ≠ id := by
  obtain ⟨hc, hcancel⟩ := cancelled_driver hq hs
  have hsame : ∀ x ∈ s.driver.held, x.2 = id → x.1 = operation := fun x hx he =>
    congrArg Prod.fst (List.inj_on_of_nodup_map hb.ids (hb.mem_made hc (.inl hx)) hm he)
  have hone : s.driver.held.count (operation, id) ≤ 1 := by
    have hle := (hb.places.resolve_left hc) (operation, id)
    have hone := hb.count_le_one (operation, id)
    omega
  rw [hcancel]
  exact Driver.not_held_cancel hsame hl hp hone

/-- A request is gone once it is cancelled, unless its command is still in the queue. -/
theorem gone_of_cancelled {operation : ClientOperation} {rest : List LifecycleMessage} (hb : s.Booked)
    (hm : (operation, id) ∈ s.made) (hl : operation ≠ .leave) (hp : operation ≠ .ping)
    (hq : s.lifecycle = .cancel id :: rest) (hn : (operation, id) ∉ s.underway)
    (hs : s.step env .nextLifecycle = some s') : s'.Gone id := by
  have hc := (cancelled_driver hq hs).1
  have hheld := not_held_of_cancelled hb hm hl hp hq hs
  cases acted hs with
  | nextLifecycle message rest d hq hd =>
    refine ⟨List.mem_map_of_mem (f := Prod.snd) hm, fun x hx he => hn ?_, .inr hheld⟩
    rwa [← List.inj_on_of_nodup_map hb.ids (hb.mem_made hc (.inr hx)) hm he]

end

end Host
end PhoenixChannel.Client
