import Mathlib.Data.Finset.Basic
import PhoenixChannel.Client.Continuity
import PhoenixChannel.Library.Backlog

/-! Handles, the queues they send on, and the driver.

A `Host` is all that the clones of a socket share: the handles, the set of their topics, the
two queues and the driver at their other end. The driver takes from the lifecycle queue
before it does anything else. How soon a sender finds room in the bounded command queue, and
what the loop prefers among commands, frames and timers, is left to the environment. -/
namespace PhoenixChannel.Client
open PhoenixChannel.Runtime Library

/-- A channel handle. Its serial stands for what it shares with its record: the status, the
receiver of its events and the loader of its payloads. -/
structure Handle where
  topic : Topic
  serial : Nat
  deriving DecidableEq

/-- What is sent on the lifecycle queue. -/
inductive LifecycleMessage where
  | register (handle : Handle)
  | unregister (topic : Topic)
  | cancel (id : RequestId)

def LifecycleMessage.command : LifecycleMessage → LifecycleCommand
  | .register handle => .register handle.topic
  | .unregister topic => .unregister topic
  | .cancel id => .cancel id

/-- Why there is no handle. -/
inductive ChannelError where
  | duplicateChannel (topic : Topic)
  | driverStopped
  deriving DecidableEq

/-- `owners` tells whose sender, loader and status each record of the driver has, `created`
counts the handles made, and `made` lists the requests whose commands were sent. -/
structure Host where
  driver : Driver
  owners : Table Topic Nat
  lifecycle : List LifecycleMessage
  commands : List Command
  stopped : Bool
  topics : Finset Topic
  handles : List Handle
  created : Nat
  made : List (ClientOperation × RequestId)

/-- What can happen next. -/
inductive Action where
  | channel (topic : Topic)
  | dropChannel (handle : Handle)
  | request (command : Command)
  /-- The guard of a request is dropped while it is armed. -/
  | giveUp (id : RequestId)
  | nextLifecycle
  | nextCommand
  /-- The loop wakes up for something else while the lifecycle queue is empty. -/
  | wake (input : Input)
  | tick (elapsed : Duration)
  /-- The driver has returned or is dropped, and its ends of the queues with it. -/
  | stop

/-- The loop can wake up for the input by itself. -/
def Input.isWake : Input → Bool
  | .lifecycle _ | .command _ | .handleDropped _ | .tick _ => false
  | _ => true

namespace Host

/-- Sends on the lifecycle queue, as long as somebody receives. -/
def send (s : Host) (message : LifecycleMessage) : Host :=
  if s.stopped then s else { s with lifecycle := s.lifecycle ++ [message] }

/-- A new handle for a topic that has none. -/
def channel (s : Host) (topic : Topic) : Except ChannelError Handle × Host :=
  if topic ∈ s.topics then (.error (.duplicateChannel topic), s)
  else
    let s := { s with topics := insert topic s.topics }
    if s.stopped then (.error .driverStopped, { s with topics := s.topics.erase topic })
    else
      let handle : Handle := ⟨topic, s.created⟩
      (.ok handle,
        { s.send (.register handle) with
          handles := s.handles ++ [handle]
          created := s.created + 1 })

/-- Sets the status of a handle, which is its record's once it is registered. -/
def setStatus (s : Host) (handle : Handle) (status : ChannelStatus) : Host :=
  if s.owners[handle.topic]? = some handle.serial then
    { s with driver := s.driver.setStatus handle.topic status }
  else s

def dropChannel (s : Host) (handle : Handle) : Host :=
  let s := s.setStatus handle .closed
  let s := { s with topics := s.topics.erase handle.topic, handles := s.handles.erase handle }
  s.send (.unregister handle.topic)

/-- Whose records there are once a message is handled: a registration leaves a record that
is already there as it is. -/
def ownersAfter (s : Host) : LifecycleMessage → Table Topic Nat
  | .register handle =>
    if s.driver.state.channels.contains handle.topic then s.owners
    else s.owners.insert handle.topic handle.serial
  | .unregister topic => s.owners.erase topic
  | .cancel _ => s.owners

/-- A command with the id of an earlier request. Ids are handed out by a counter. -/
def Repeats (s : Host) (command : Command) : Prop :=
  ∃ request ∈ command.request, request.2 ∈ s.made.map Prod.snd

instance (s : Host) (command : Command) : Decidable (s.Repeats command) :=
  inferInstanceAs (Decidable (∃ request ∈ command.request, request.2 ∈ s.made.map Prod.snd))

def request (s : Host) (command : Command) : Host :=
  if s.stopped then s
  else { s with commands := s.commands ++ [command], made := s.made ++ command.request.toList }

def step (env : Env) (s : Host) : Action → Option Host
  | .channel topic => some (s.channel topic).2
  | .dropChannel handle => if handle ∈ s.handles then some (s.dropChannel handle) else none
  | .request command => if s.Repeats command then none else some (s.request command)
  | .giveUp id => if id ∈ s.made.map Prod.snd then some (s.send (.cancel id)) else none
  | .nextLifecycle =>
    match s.lifecycle with
    | [] => none
    | message :: lifecycle =>
      (s.driver.step env (.lifecycle message.command)).map fun driver =>
        { s with driver, lifecycle, owners := s.ownersAfter message }
  | .nextCommand =>
    match s.lifecycle, s.commands with
    | [], command :: commands =>
      (s.driver.step env (.command command)).map fun driver => { s with driver, commands }
    | _, _ => none
  | .wake input =>
    if !s.stopped && s.lifecycle.isEmpty && input.isWake then
      (s.driver.step env input).map fun driver => { s with driver }
    else none
  | .tick elapsed => (s.driver.step env (.tick elapsed)).map fun driver => { s with driver }
  | .stop => some { s with stopped := true, lifecycle := [], commands := [] }

def start (env : Env) : Host := ⟨Driver.start env, ∅, [], [], false, ∅, [], 0, []⟩

end Host

/-- The handles and the driver as a machine. -/
def host (env : Env) : Machine Host Action := ⟨Host.start env, Host.step env⟩

/-! ### What actions do

An action is a step of the driver, or it makes or drops a handle, or it puts something on a queue. -/

namespace Host

/-- What an action leads to, where it is possible. -/
inductive Acted (env : Env) (s : Host) : Action → Host → Prop where
  | channel (topic : Topic) : Acted env s (.channel topic) (s.channel topic).2
  | dropChannel (handle : Handle) (hm : handle ∈ s.handles) :
    Acted env s (.dropChannel handle) (s.dropChannel handle)
  | request (command : Command) (hr : ¬ s.Repeats command) :
    Acted env s (.request command) (s.request command)
  | giveUp (id : RequestId) (hm : id ∈ s.made.map Prod.snd) :
    Acted env s (.giveUp id) (s.send (.cancel id))
  | nextLifecycle (message : LifecycleMessage) (rest : List LifecycleMessage) (d : Driver)
      (hq : s.lifecycle = message :: rest)
      (hd : s.driver.step env (.lifecycle message.command) = some d) :
    Acted env s .nextLifecycle
      { s with driver := d, lifecycle := rest, owners := s.ownersAfter message }
  | nextCommand (command : Command) (rest : List Command) (d : Driver) (hq : s.lifecycle = [])
      (hc : s.commands = command :: rest) (hd : s.driver.step env (.command command) = some d) :
    Acted env s .nextCommand { s with driver := d, commands := rest }
  | wake (input : Input) (d : Driver) (hw : input.isWake = true)
      (hd : s.driver.step env input = some d) : Acted env s (.wake input) { s with driver := d }
  | tick (elapsed : Duration) (d : Driver) (hd : s.driver.step env (.tick elapsed) = some d) :
    Acted env s (.tick elapsed) { s with driver := d }
  | stop : Acted env s .stop { s with stopped := true, lifecycle := [], commands := [] }

/-- What `step` computes, case by case. -/
theorem acted {env : Env} {s s' : Host} {action : Action} (hs : s.step env action = some s') :
    Acted env s action s' := by
  cases action with
  | channel topic =>
    cases hs
    exact .channel topic
  | dropChannel handle =>
    simp only [Host.step] at hs
    split at hs
    · cases hs
      exact .dropChannel handle (by assumption)
    · cases hs
  | request command =>
    simp only [Host.step] at hs
    split at hs
    · cases hs
    · cases hs
      exact .request command (by assumption)
  | giveUp id =>
    simp only [Host.step] at hs
    split at hs
    · cases hs
      exact .giveUp id (by assumption)
    · cases hs
  | nextLifecycle =>
    simp only [Host.step] at hs
    split at hs
    · cases hs
    · rename_i message rest hq
      obtain ⟨d, hd, rfl⟩ := Option.map_eq_some_iff.mp hs
      exact .nextLifecycle message rest d hq hd
  | nextCommand =>
    simp only [Host.step] at hs
    split at hs
    · rename_i command rest hq hc
      obtain ⟨d, hd, rfl⟩ := Option.map_eq_some_iff.mp hs
      exact .nextCommand command rest d hq hc hd
    · cases hs
  | wake input =>
    simp only [Host.step] at hs
    split at hs
    · rename_i hw
      simp only [Bool.and_eq_true] at hw
      obtain ⟨d, hd, rfl⟩ := Option.map_eq_some_iff.mp hs
      exact .wake input d hw.2 hd
    · cases hs
  | tick elapsed =>
    simp only [Host.step] at hs
    obtain ⟨d, hd, rfl⟩ := Option.map_eq_some_iff.mp hs
    exact .tick elapsed d hd
  | stop =>
    cases hs
    exact .stop

end Host

/-! ### Records that come and go

Only the two lifecycle commands of a topic make its record come and go. -/

namespace Driver

section
variable {joins : Option Topic} {env : Env} {d d' : Driver} {t : Topic} {input : Input}

theorem Continues.isSome_record (h : Continues none joins d d') (t : Topic) :
    (d'.record t).isSome = (d.record t).isSome := by
  obtain ⟨effects, -, h⟩ := h
  exact h.records t nofun

theorem record_unregister (d : Driver) (t : Topic) : (d.unregister t).record t = none := by
  show ((d.stopChannel t).state.channels.erase t)[t]? = none
  rw [Table.lookup_erase, if_pos rfl]

/-- A registered topic has a record. -/
theorem record_registered (hs : d.step env (.lifecycle (.register t)) = some d') :
    (d'.record t).isSome = true := by
  have hd : d' = d.register env t := by
    rcases lifecycle_cases hs with rfl | rfl <;> rfl
  rw [hd]
  unfold register
  split
  · rw [record, ← Std.ExtTreeMap.mem_iff_isSome_getElem?, Std.ExtTreeMap.mem_iff_contains]
    assumption
  · rw [record_setRecord]
    rfl

/-- An unregistered topic has none, even if its leave ended the connection. -/
theorem record_unregistered (hs : d.step env (.lifecycle (.unregister t)) = some d') :
    d'.record t = none := by
  rcases lifecycle_cases hs with rfl | rfl
  · exact record_unregister d t
  have hsettle : ∀ r : Result, r.1.record t = none → (settle env r).record t = none := fun r hr => by
    have hrefl : Continues none none r.1 r.1 := .refl ..
    have hrest : Continues none none r.1 (settle env r) := hrefl.settle
    have hs := hrest.isSome_record t
    rwa [hr, Option.isSome_none, Option.isSome_eq_false_iff, Option.isNone_iff_eq_none] at hs
  refine hsettle _ ?_
  by_cases hj : d.state.protocol.channelState t = some .joined
  · obtain ⟨c, hc, hst⟩ := Option.map_eq_some_iff.mp hj
    simp only [handleConnectedLifecycle, unregisterConnected_of_joined hc hst]
    rw [record, sendFrame_state]
    exact record_unregister _ t
  · simp only [handleConnectedLifecycle, unregisterConnected_of_not_joined hj]
    exact record_unregister d t

end

end Driver

/-! ### Handles and records in step

What is still in the lifecycle queue is what the driver's records lag behind. Once it is drained, a
topic has a record exactly if it has a handle. -/

/-- Whose record of the topic there is once a message is handled. -/
def followed (t : Topic) (owner : Option Nat) : LifecycleMessage → Option Nat
  | .register handle => if handle.topic = t then owner.or (some handle.serial) else owner
  | .unregister topic => if topic = t then none else owner
  | .cancel _ => owner

/-- A registration of the topic finds no record of it. -/
def FindsNone (t : Topic) (owner : Option Nat) (message : LifecycleMessage) : Prop :=
  ∀ handle, message = .register handle → handle.topic = t → owner = none

namespace Host

/-- The live handle of a topic. -/
def live (s : Host) (t : Topic) : Option Nat :=
  (s.handles.find? fun handle => handle.topic == t).map Handle.serial

/-- Each topic in use has one live handle. The lifecycle queue turns the records there are
into those of the live handles, and no registration in it comes to a record. -/
structure InStep (s : Host) : Prop where
  records : ∀ t : Topic, (s.driver.record t).isSome = (s.owners[t]?).isSome
  topics : ∀ t : Topic, t ∈ s.topics ↔ ∃ handle ∈ s.handles, handle.topic = t
  distinct : (s.handles.map Handle.topic).Nodup
  ready : ∀ t : Topic, Backlog.Ready (followed t) (FindsNone t) s.owners[t]? s.lifecycle
  drained : s.stopped = false → ∀ t : Topic, s.lifecycle.foldl (followed t) s.owners[t]? = s.live t

section
variable {env : Env} {s s' : Host} {t : Topic} {handle : Handle}

theorem live_eq_none : s.live t = none ↔ ∀ handle ∈ s.handles, handle.topic ≠ t := by
  simp [live, List.find?_eq_none]

/-- The live handle of its topic is the handle itself. -/
theorem InStep.live_of_mem (h : s.InStep) (hm : handle ∈ s.handles) :
    s.live handle.topic = some handle.serial := by
  cases hf : s.handles.find? fun other => other.topic == handle.topic with
  | none =>
    have := List.find?_eq_none.mp hf handle hm
    simp at this
  | some other =>
    have hother : other.topic = handle.topic := by simpa using List.find?_some hf
    have hsame : other = handle :=
      List.inj_on_of_nodup_map h.distinct (List.mem_of_find?_eq_some hf) hm hother
    rw [live, hf, hsame]
    rfl

/-- A driver that keeps the records there are. -/
theorem InStep.driven (h : s.InStep) {d : Driver}
    (hr : ∀ t, (d.record t).isSome = (s.driver.record t).isSome) : InStep { s with driver := d } :=
  { h with records := fun t => (hr t).trans (h.records t) }

theorem InStep.send (h : s.InStep) {message : LifecycleMessage} (hm : ∀ t owner, followed t owner message = owner)
    (hf : ∀ t owner, FindsNone t owner message) : (s.send message).InStep := by
  unfold Host.send
  split
  · exact h
  · refine { h with ready := fun t => (h.ready t).append (hf t _), drained := fun hs t => ?_ }
    rw [Backlog.drained_append, hm]
    exact h.drained hs t

/-- A new handle has a topic without one, and its registration is the last in the queue. -/
theorem InStep.channel (h : s.InStep) (topic : Topic) : (s.channel topic).2.InStep := by
  unfold Host.channel
  split
  · exact h
  rename_i hfree
  have hnone : ∀ handle ∈ s.handles, handle.topic ≠ topic := fun handle hm ht =>
    hfree ((h.topics topic).mpr ⟨handle, hm, ht⟩)
  dsimp only
  split
  · rename_i hs
    exact { h with topics := fun t => by rw [Finset.erase_insert hfree]; exact h.topics t }
  rename_i hs
  have hs : s.stopped = false := by simpa using hs
  simp only [Host.send, hs, Bool.false_eq_true, if_false]
  refine
    { records := h.records
      topics := fun t => ?_
      distinct := ?_
      ready := fun t => (h.ready t).append fun handle he ht => ?_
      drained := fun _ t => ?_ }
  · simp only [Finset.mem_insert, h.topics, List.mem_append, List.mem_singleton]
    constructor
    · rintro (rfl | ⟨handle, hm, ht⟩)
      · exact ⟨_, .inr rfl, rfl⟩
      · exact ⟨handle, .inl hm, ht⟩
    · rintro ⟨handle, hm | rfl, ht⟩
      · exact .inr ⟨handle, hm, ht⟩
      · exact .inl ht.symm
  · rw [List.map_append, List.nodup_append]
    refine ⟨h.distinct, by simp, fun a ha b hb hab => ?_⟩
    obtain ⟨handle, hm, rfl⟩ := List.mem_map.mp ha
    simp only [List.map_cons, List.map_nil, List.mem_singleton] at hb
    exact hnone handle hm (hab.trans hb)
  · cases he
    rw [h.drained hs, live_eq_none]
    exact fun other hm => ht ▸ hnone other hm
  · rw [Backlog.drained_append, h.drained hs]
    simp only [live, List.find?_append, Option.map_or, followed]
    by_cases ht : topic = t
    · simp [ht]
    · simp [ht]

/-- Setting a status leaves the records there are. -/
theorem InStep.setStatus (h : s.InStep) (handle : Handle) (status : ChannelStatus) :
    (s.setStatus handle status).InStep := by
  unfold Host.setStatus
  split
  · refine h.driven fun t => ?_
    have hset : Driver.Continues none none s.driver (s.driver.setStatus handle.topic status) :=
      (Driver.Continues.refl _ _ _).setStatus
    exact hset.isSome_record t
  · exact h

/-- A handle that is dropped leaves its topic free, and its withdrawal is the last in the queue. -/
theorem InStep.dropped (h : s.InStep) (hm : handle ∈ s.handles) :
    InStep ({ s with
      topics := s.topics.erase handle.topic
      handles := s.handles.erase handle }.send (.unregister handle.topic)) := by
  have hnodup : s.handles.Nodup := h.distinct.of_map _
  have hother : ∀ other ∈ s.handles, other ≠ handle → other.topic ≠ handle.topic := fun other ho hne ht =>
    hne (List.inj_on_of_nodup_map h.distinct ho hm ht)
  have htopics : ∀ t, t ∈ s.topics.erase handle.topic ↔ ∃ h' ∈ s.handles.erase handle, h'.topic = t := by
    intro t
    simp only [Finset.mem_erase, h.topics, hnodup.mem_erase_iff]
    constructor
    · rintro ⟨hne, other, ho, rfl⟩
      exact ⟨other, ⟨fun he => hne (by rw [he]), ho⟩, rfl⟩
    · rintro ⟨other, ⟨hne, ho⟩, rfl⟩
      exact ⟨hother other ho hne, other, ho, rfl⟩
  have hdistinct : ((s.handles.erase handle).map Handle.topic).Nodup :=
    h.distinct.sublist (List.erase_sublist.map _)
  unfold Host.send
  dsimp only
  split
  · rename_i hs
    exact ⟨h.records, htopics, hdistinct, h.ready, fun hs' => absurd (hs.symm.trans hs') nofun⟩
  · rename_i hs
    have hs : s.stopped = false := by simpa using hs
    refine ⟨h.records, htopics, hdistinct, fun t => (h.ready t).append fun _ he => (by cases he),
      fun _ t => ?_⟩
    rw [Backlog.drained_append, h.drained hs]
    by_cases ht : handle.topic = t
    · subst ht
      simp only [followed, if_pos]
      refine (live_eq_none.mpr fun other ho => ?_).symm
      obtain ⟨hne, ho⟩ := hnodup.mem_erase_iff.mp ho
      exact hother other ho hne
    · simp only [followed, if_neg ht, live]
      congr 1
      rw [hnodup.erase_eq_filter, List.find?_filter]
      congr 1
      funext other
      by_cases ho : other = handle
      · simp [ho, ht]
      · simp [ho, Bool.beq_eq_decide_eq]

/-- The owners are followed as the driver follows the message. -/
theorem InStep.ownersAfter (h : s.InStep) (message : LifecycleMessage) (t : Topic) :
    (s.ownersAfter message)[t]? = followed t s.owners[t]? message := by
  cases message with
  | register handle =>
    have hcontains : s.driver.state.channels.contains handle.topic = (s.owners[handle.topic]?).isSome := by
      rw [← h.records, Driver.record, Std.ExtTreeMap.isSome_getElem?_eq_contains]
    simp only [Host.ownersAfter, followed]
    cases ho : s.owners[handle.topic]? with
    | some owner =>
      rw [if_pos (by rw [hcontains, ho]; rfl)]
      by_cases ht : handle.topic = t
      · rw [if_pos ht, ← ht, ho]
        rfl
      · rw [if_neg ht]
    | none =>
      rw [if_neg (by rw [hcontains, ho]; simp), Table.lookup_insert]
      by_cases ht : handle.topic = t
      · rw [if_pos ht, if_pos ht.symm, ← ht, ho]
        rfl
      · rw [if_neg ht, if_neg fun he => ht he.symm]
  | unregister topic =>
    simp only [Host.ownersAfter, followed, Table.lookup_erase]
    by_cases ht : topic = t
    · rw [if_pos ht, if_pos ht.symm]
    · rw [if_neg ht, if_neg fun he => ht he.symm]
  | cancel id => rfl

/-- The driver's records after a message are those it leaves. -/
theorem InStep.records_after (h : s.InStep) {message : LifecycleMessage} {d : Driver}
    (hd : s.driver.step env (.lifecycle message.command) = some d) (t : Topic) :
    (d.record t).isSome = ((s.ownersAfter message)[t]?).isSome := by
  rw [h.ownersAfter]
  obtain ⟨effects, -, hk⟩ := Driver.continues_step hd
  have hkept : (Input.lifecycle message.command).registers ≠ some t →
      (d.record t).isSome = (s.owners[t]?).isSome := fun hne => (hk.records t hne).trans (h.records t)
  cases message with
  | register handle =>
    by_cases ht : handle.topic = t
    · subst ht
      rw [Driver.record_registered hd]
      cases ho : s.owners[handle.topic]? <;> simp [followed]
    · rw [followed, if_neg ht]
      exact hkept fun he => ht (Option.some.inj he)
  | unregister topic =>
    by_cases ht : topic = t
    · subst ht
      rw [Driver.record_unregistered hd]
      simp [followed]
    · rw [followed, if_neg ht]
      exact hkept fun he => ht (Option.some.inj he)
  | cancel id => exact hkept nofun

/-- The driver takes the first message, which was ready to be taken. -/
theorem InStep.nextLifecycle (h : s.InStep) {message : LifecycleMessage} {rest : List LifecycleMessage}
    (hq : s.lifecycle = message :: rest) {d : Driver}
    (hd : s.driver.step env (.lifecycle message.command) = some d) :
    InStep { s with driver := d, lifecycle := rest, owners := s.ownersAfter message } where
  records := h.records_after hd
  topics := h.topics
  distinct := h.distinct
  ready t := by
    have hready := h.ready t
    rw [hq] at hready
    rw [h.ownersAfter]
    exact hready.tail
  drained hs t := by
    have hdrained := h.drained hs t
    rw [hq, List.foldl_cons] at hdrained
    rw [h.ownersAfter]
    exact hdrained

/-- Whatever else the driver does leaves the records there are. -/
theorem InStep.stepped (h : s.InStep) {input : Input} (hi : input.registers = none) {d : Driver}
    (hd : s.driver.step env input = some d) : InStep { s with driver := d } := by
  refine h.driven fun t => ?_
  have hk := Driver.continues_step hd
  rw [hi] at hk
  exact hk.isSome_record t

theorem registers_of_wake {input : Input} (h : input.isWake = true) : input.registers = none := by
  cases input with
  | lifecycle command => cases h
  | _ => rfl

/-- **Every step keeps handles, queue and records in step.** -/
theorem inStep_step {action : Action} (h : s.InStep) (hs : s.step env action = some s') : s'.InStep := by
  cases acted hs with
  | channel topic => exact h.channel topic
  | dropChannel handle hm =>
    have hm' : handle ∈ (s.setStatus handle .closed).handles := by
      unfold Host.setStatus
      split <;> exact hm
    exact (h.setStatus handle .closed).dropped hm'
  | request command hr =>
    unfold Host.request
    split
    · exact h
    · exact { h with }
  | giveUp id hm => exact h.send (fun _ _ => rfl) fun _ _ _ he => by cases he
  | nextLifecycle message rest d hq hd => exact h.nextLifecycle hq hd
  | nextCommand command rest d hq hc hd => exact { h.stepped rfl hd with }
  | wake input d hw hd => exact h.stepped (registers_of_wake hw) hd
  | tick elapsed d hd => exact h.stepped rfl hd
  | stop => exact { h with ready := fun _ => trivial, drained := nofun }

/-- At first there is no handle, no message and no record. -/
theorem inStep_start (env : Env) : (Host.start env).InStep where
  records t := by
    have hstart : (Driver.start env).record t = none := by
      unfold Driver.start
      dsimp only
      split
      · rfl
      · rfl
    have hnone : ((Host.start env).owners)[t]? = none := rfl
    rw [hnone]
    exact congrArg Option.isSome hstart
  topics t := by simp [Host.start]
  distinct := List.nodup_nil
  ready _ := trivial
  drained _ _ := rfl

theorem reachable_inStep (h : (host env).Reachable s) : s.InStep := by
  refine h.invariant (inStep_start env) ?_
  intro s action s' _ hi _ hs
  exact inStep_step hi hs

/-- **Handles and records stay in step.** However handles come and go and whatever the driver
does: a registration finds no record of its topic and leaves one that is the new handle's,
no topic has two handles, and once the queue is drained there is a record of a topic exactly
when it has a handle, and it is that handle's. -/
theorem handles_in_step (env : Env) (s : Host) (h : (host env).Reachable s) :
    (∀ handle rest s', s.lifecycle = .register handle :: rest →
        s.step env .nextLifecycle = some s' →
          s.driver.record handle.topic = none ∧ (s'.driver.record handle.topic).isSome ∧
            s'.owners[handle.topic]? = some handle.serial) ∧
      (s.handles.map Handle.topic).Nodup ∧
      (s.stopped = false → s.lifecycle = [] → ∀ t : Topic,
        ((s.driver.record t).isSome ↔ ∃ handle ∈ s.handles, handle.topic = t) ∧
          ∀ handle ∈ s.handles, handle.topic = t → s.owners[t]? = some handle.serial) := by
  have hi := reachable_inStep h
  refine ⟨fun handle rest s' hq hs => ?_, hi.distinct, fun hs hq t => ?_⟩
  · have hnone : s.owners[handle.topic]? = none := by
      have hready := hi.ready handle.topic
      rw [hq] at hready
      exact hready.head handle rfl rfl
    simp only [Host.step, hq] at hs
    obtain ⟨d, hd, rfl⟩ := Option.map_eq_some_iff.mp hs
    refine ⟨?_, Driver.record_registered hd, ?_⟩
    · rw [← Option.isNone_iff_eq_none, ← Option.isSome_eq_false_iff, hi.records, hnone]
      rfl
    · rw [hi.ownersAfter, hnone]
      simp [followed]
  · have hdrained := hi.drained hs t
    rw [hq, List.foldl_nil] at hdrained
    refine ⟨?_, fun handle hm ht => ?_⟩
    · rw [hi.records, hdrained, Option.isSome_iff_ne_none, ne_eq, live_eq_none]
      simp
    · rw [hdrained, ← ht]
      exact hi.live_of_mem hm

/-- A handle is made, dropped and made anew; the second try in between fails. -/
def renewed : List Action :=
  [.channel "room", .channel "room", .nextLifecycle, .dropChannel ⟨"room", 0⟩, .channel "room",
    .nextLifecycle]

/-- The driver is about to register the second handle. -/
def renewing (s : Host) : Bool :=
  match s.lifecycle with
  | [.register handle] => handle = ⟨"room", 1⟩ && (s.step (smallEnv []) .nextLifecycle).isSome
  | _ => false

/-- A topic whose first handle was dropped is registered for the second. -/
theorem handles_in_step_renewed :
    ∃ s s' : Host, (host (smallEnv [])).Reachable s ∧ s.lifecycle = [.register ⟨"room", 1⟩] ∧
      s.step (smallEnv []) .nextLifecycle = some s' ∧ s.driver.record "room" = none ∧
      (s'.driver.record "room").isSome ∧ s'.owners["room"]? = some 1 := by
  obtain ⟨s, hr, hs⟩ := Machine.reachable_of_run (host (smallEnv [])) renewed renewing (by decide)
  unfold renewing at hs
  split at hs
  · rename_i handle hq
    simp only [Bool.and_eq_true, decide_eq_true_eq] at hs
    obtain ⟨rfl, hstep⟩ := hs
    obtain ⟨s', hstep⟩ := Option.isSome_iff_exists.mp hstep
    obtain ⟨hnone, hsome, howner⟩ := (handles_in_step (smallEnv []) s hr).1 _ _ s' hq hstep
    exact ⟨s, s', hr, hq, hstep, hnone, hsome, howner⟩
  · cases hs

end

end Host

end PhoenixChannel.Client
