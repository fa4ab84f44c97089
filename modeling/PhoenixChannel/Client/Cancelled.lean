import PhoenixChannel.Client.Superseded
import PhoenixChannel.Client.Wishes
import PhoenixChannel.Client.Withdrawals

/-! A cancelled request is never carried out.

A run of the handles and the driver is written down step by step. Nothing is sent or started for
a request once its cancellation was handled, unless the cancellation overtook the request's
command: one whose command is still in the queue is taken after it, and carried out. A join may
also leave a wish behind. A channel that was joined before stays wanted when the join that made
it wanted is cancelled, and is then joined for nobody. -/
namespace PhoenixChannel.Client
open PhoenixChannel.Runtime Library

namespace Driver

section
variable {d : Driver} {id : RequestId} {t : Topic} {channel : ChannelRecord}

/-- A cancelled join is taken from where it waits, and leaves the channel wanted only if somebody
else waits for it or it was joined before. -/
theorem cancel_waiter (hu : ∀ t' : Topic, id ∈ d.waiters t' → t' = t) (hr : d.record t = some channel)
    (hm : id ∈ channel.joinWaiters) (hw : (d.cancel id).wants t = true) :
    channel.everJoined = true ∨ (d.cancel id).waiters t ≠ [] := by
  have hcancel : d.cancel id = d.cancelJoin t channel id := by
    have hfound : ∀ t' channel', d.record t' = some channel' → id ∈ channel'.joinWaiters →
        t' = t ∧ channel' = channel := fun t' channel' hr' hm' => by
      obtain rfl := hu t' (waiters_of_some hr' ▸ hm')
      exact ⟨rfl, Option.some.inj (hr'.symm.trans hr)⟩
    cases hf : d.state.channels.toList.find? fun entry => entry.2.joinWaiters.contains id with
    | none => exact absurd (by simpa using hm) (Table.not_of_find hf hr)
    | some entry =>
      obtain ⟨hr', hm'⟩ := Table.lookup_of_find hf
      obtain ⟨ht, hc⟩ := hfound entry.1 entry.2 hr' (by simpa using hm')
      simp only [cancel, hf, ht, hc]
  rw [hcancel] at hw ⊢
  by_cases hlast : channel.joinWaiters.erase id = [] ∧ channel.everJoined = false
  · rw [cancelJoin_of_last hlast.1 hlast.2] at hw
    have hrec : ((((d.setRecord t (channel.abandoned id)).emitAll [.cancelled .join id]).forgetJoins
        t).discardChannel t).record t = some (channel.abandoned id) := record_setRecord ..
    rw [wants_of_some hrec] at hw
    exact absurd hw Bool.false_ne_true
  · rw [cancelJoin_of_others hlast]
    have hrec : ((d.setRecord t { channel with joinWaiters := channel.joinWaiters.erase id }).emitAll
        [.cancelled .join id]).record t = some { channel with joinWaiters := channel.joinWaiters.erase id } := by
      rw [emitAll_record, record_setRecord]
    rw [waiters_of_some hrec]
    by_cases hj : channel.everJoined = true
    · exact .inl hj
    · exact .inr fun he => hlast ⟨he, by simpa using hj⟩

end

end Driver

namespace Host

/-! ### Whose wish it is

The history of a run is the list of its steps. It tells which joins asked for a topic's channel
since it was last withdrawn, and a load or a join frame is for one of them. -/

/-- The request whose cancellation the driver handles when the action is taken. -/
def nextCancelled (s : Host) : Action → Option RequestId
  | .nextLifecycle =>
    match s.lifecycle with
    | .cancel id :: _ => some id
    | _ => none
  | _ => none

/-- A cancellation is handled when the driver takes it from the lifecycle queue, and in no other step. -/
theorem nextCancelled_iff {s : Host} {action : Action} {id : RequestId} :
    s.nextCancelled action = some id ↔
      action = .nextLifecycle ∧ ∃ rest, s.lifecycle = .cancel id :: rest := by
  unfold nextCancelled
  split
  · split
    · rename_i id' rest hq
      simp [hq]
    · rename_i hne
      refine ⟨fun h => (Option.some_ne_none id h.symm).elim, ?_⟩
      rintro ⟨-, rest, hq⟩
      exact (hne id rest hq).elim
  · rename_i hne
    exact ⟨fun h => (Option.some_ne_none id h.symm).elim, fun h => (hne h.1).elim⟩

/-- A step of the handles and the driver. -/
structure ActionTaken where
  before : Host
  action : Action
  after : Host

/-- What the driver does in the step. -/
def ActionTaken.effects (step : ActionTaken) : List Effect := step.before.driver.done step.after.driver

/-- The join of the topic whose command the driver takes in the step. -/
def ActionTaken.asks (step : ActionTaken) (t : Topic) : List RequestId :=
  match step.action, step.before.commands with
  | .nextCommand, command :: _ => (command.asks.filter fun ask => ask.1 = t).map Prod.snd
  | _, _ => []

/-- The request whose cancellation the driver handles in the step. -/
def ActionTaken.cancelled (step : ActionTaken) : Option RequestId := step.before.nextCancelled step.action

/-- The handles and the driver, with the steps they took. -/
def history (env : Env) : Machine (List ActionTaken × Host) Action :=
  (host env).recording fun s action s' => [⟨s, action, s'⟩]

/-- The joins that asked for the topic's channel since it was last not wanted. -/
def wishers (t : Topic) (steps : List ActionTaken) : List RequestId :=
  steps.foldl (fun ids step => if step.after.driver.wants t then ids ++ step.asks t else []) []

/-- The join was cancelled before it was answered. -/
def Withdrawn (steps : List ActionTaken) (id : RequestId) : Prop :=
  ∃ step ∈ steps, step.cancelled = some id ∧
    ((.join, id) ∈ step.before.driver.held ∨ (.join, id) ∈ step.before.underway)

instance (steps : List ActionTaken) (id : RequestId) : Decidable (Withdrawn steps id) :=
  inferInstanceAs (Decidable (∃ step ∈ steps, step.cancelled = some id ∧
    ((.join, id) ∈ step.before.driver.held ∨ (.join, id) ∈ step.before.underway)))

/-- A join that is not withdrawn asks for the topic's channel, at the latest in the step. -/
def Stands (t : Topic) (steps : List ActionTaken) (step : ActionTaken) : Prop :=
  ∃ id, (id ∈ wishers t steps ∨ id ∈ step.asks t) ∧ ¬ Withdrawn steps id

/-- A cancelled join of the topic is no longer in the queue when its cancellation is handled, and
if it waits for a channel that was joined before, then another join asks for the channel too. -/
def Heeded (t : Topic) (h : List ActionTaken × Host) (action : Action) : Prop :=
  ∀ id ∈ h.2.nextCancelled action,
    (∀ command ∈ h.2.commands, (t, id) ∉ command.asks) ∧
      ∀ channel ∈ h.2.driver.record t, id ∈ channel.joinWaiters → channel.everJoined = true →
        ∃ other ∈ wishers t h.1, other ≠ id ∧ ¬ Withdrawn h.1 other

instance (t : Topic) (h : List ActionTaken × Host) (action : Action) : Decidable (Heeded t h action) :=
  inferInstanceAs (Decidable (∀ id ∈ h.2.nextCancelled action,
    (∀ command ∈ h.2.commands, (t, id) ∉ command.asks) ∧
      ∀ channel ∈ h.2.driver.record t, id ∈ channel.joinWaiters → channel.everJoined = true →
        ∃ other ∈ wishers t h.1, other ≠ id ∧ ¬ Withdrawn h.1 other))

section
variable {env : Env} {s s' : Host} {action : Action} {steps : List ActionTaken} {step : ActionTaken}
  {t : Topic} {id : RequestId}

theorem wishers_concat : wishers t (steps ++ [step]) =
    if step.after.driver.wants t then wishers t steps ++ step.asks t else [] := by
  rw [wishers, List.foldl_append]
  rfl

theorem withdrawn_concat : Withdrawn (steps ++ [step]) id ↔ Withdrawn steps id ∨
    step.cancelled = some id ∧
      ((.join, id) ∈ step.before.driver.held ∨ (.join, id) ∈ step.before.underway) := by
  simp only [Withdrawn, List.mem_append, List.mem_singleton, or_and_right, exists_or, exists_eq_left]

/-- A join is asked for when its command is taken from the command queue. -/
theorem mem_asks : id ∈ step.asks t ↔ step.action = .nextCommand ∧
    ∃ command rest, step.before.commands = command :: rest ∧ (t, id) ∈ command.asks := by
  unfold ActionTaken.asks
  split
  · rename_i command rest ha hc
    simp [ha, hc]
  · rename_i hne
    refine ⟨fun h => (List.not_mem_nil h).elim, ?_⟩
    rintro ⟨ha, command, rest, hc, -⟩
    exact (hne command rest ha hc).elim

/-- The topic and the request of a join are its command's. -/
theorem request_of_asks {command : Command} (h : (t, id) ∈ command.asks) :
    command.request = some (.join, id) := by
  cases command with
  | join id' topic timeout =>
    cases List.mem_singleton.mp h
    rfl
  | _ => cases h

/-- What a step makes wanted, waited for or loaded was so before, or its join asks for it. -/
structure WishedIn (t : Topic) (step : ActionTaken) : Prop where
  wants : step.after.driver.wants t = true → step.before.driver.wants t = true ∨ ∃ id, id ∈ step.asks t
  waiters : ∀ id ∈ step.after.driver.waiters t, id ∈ step.before.driver.waiters t ∨ id ∈ step.asks t
  loads : ∀ load ∈ loadsOf step.effects, load.1 = t →
    step.before.driver.wants t = true ∨ ∃ id, id ∈ step.asks t

/-- A step leaves the driver alone or is a step of it, on an input that asks for what the step
does. What the loop wakes up for is that input. -/
theorem driver_step (hs : s.step env action = some s') :
    s'.driver = s.driver ∨ ∃ input, s.driver.step env input = some s'.driver ∧
      (∀ (t : Topic) (id : RequestId), (t, id) ∈ input.asks → id ∈ ActionTaken.asks ⟨s, action, s'⟩ t) ∧
      ∀ wake, action = .wake wake → input = wake := by
  have hsend : ∀ message, (s.send message).driver = s.driver := fun message => by
    unfold Host.send
    split <;> rfl
  cases acted hs with
  | channel topic =>
    refine .inl ?_
    unfold Host.channel
    split
    · rfl
    dsimp only
    split
    · rfl
    · unfold Host.send
      split <;> rfl
  | dropChannel handle hm =>
    have hdrop : (s.dropChannel handle).driver = (s.setStatus handle .closed).driver := by
      unfold Host.dropChannel Host.send
      dsimp only
      split <;> rfl
    rw [hdrop, Host.setStatus]
    split
    · refine .inr ⟨.handleDropped handle.topic, rfl, fun t id hm => ?_, fun wake hw => ?_⟩
      · cases hm
      · cases hw
    · exact .inl rfl
  | request command hr =>
    refine .inl ?_
    unfold Host.request
    split <;> rfl
  | giveUp id hm => exact .inl (hsend _)
  | nextLifecycle message rest d hq hd =>
    refine .inr ⟨_, hd, fun t id hm => ?_, fun wake hw => ?_⟩
    · cases hm
    · cases hw
  | nextCommand command rest d hq hc hd =>
    refine .inr ⟨_, hd, fun t id hm => mem_asks.mpr ⟨rfl, command, rest, hc, hm⟩, fun wake hw => ?_⟩
    cases hw
  | wake input d hw hd =>
    refine .inr ⟨_, hd, fun t id hm => ?_, fun wake hwake => ?_⟩
    · cases input with
      | command command => cases hw
      | _ => cases hm
    · cases hwake
      rfl
  | tick elapsed d hd =>
    refine .inr ⟨_, hd, fun t id hm => ?_, fun wake hw => ?_⟩
    · cases hm
    · cases hw
  | stop => exact .inl rfl

/-- Every step of the system is one of the driver or leaves the driver as it is, and the driver's steps
were treated one by one. -/
theorem wishedIn (hs : s.step env action = some s') : WishedIn t ⟨s, action, s'⟩ := by
  rcases driver_step hs with hsame | ⟨input, hstep, hi, -⟩
  · refine ⟨fun hw => .inl (hsame ▸ hw), fun id hm => .inl (hsame ▸ hm), fun load hm => ?_⟩
    rw [ActionTaken.effects, hsame, Driver.done, List.drop_length] at hm
    cases hm
  obtain ⟨effects, ht, ha⟩ := Driver.wished_step hstep
  have hask : ∀ t', t' = t → (∃ id, (t', id) ∈ input.asks) → ∃ id, id ∈ ActionTaken.asks ⟨s, action, s'⟩ t := by
    rintro _ rfl ⟨id, hm⟩
    exact ⟨id, hi _ id hm⟩
  refine ⟨fun hw => (ha.wants t hw).imp_right (hask t rfl),
    fun id hm => (ha.waiters t id hm).imp_right (hi t id), fun load hm hl => ?_⟩
  rw [ActionTaken.effects, Driver.done_of_append ht] at hm
  exact (ha.loads load hm).imp (fun hw => hl ▸ hw) (hask _ hl)

/-- A frame named as a join is the one that a loaded payload sends, and then its channel is
wanted; or it is a push that is named so, and goes out under the join reference of its channel. -/
theorem join_sent (hs : s.step env action = some s') {served : List RequestId} {frame : Frame}
    (hm : .outgoing served frame ∈ s.driver.done s'.driver) (he : frame.event = "phx_join") :
    s.driver.wants frame.topic = true ∨
      (∀ id result, action ≠ .wake (.payload frame.topic id result)) ∧
        ∃ j, frame.joinRef = some j ∧ s.driver.Known frame.topic j := by
  rcases driver_step hs with hsame | ⟨input, hstep, -, hi⟩
  · rw [hsame, Driver.done, List.drop_length] at hm
    cases hm
  cases hl : input.loaded with
  | some topic =>
    obtain ⟨id, result, rfl⟩ : ∃ id result, input = .payload topic id result := by
      cases input with
      | payload topic' id result =>
        cases hl
        exact ⟨id, result, rfl⟩
      | _ => cases hl
    obtain ⟨-, -, -, ht, -⟩ := Driver.payload_frames hstep hm
    exact .inl (ht ▸ Driver.payload_wanted hstep hm)
  | none =>
    obtain ⟨effects, ht, hc⟩ := Driver.continues_step hstep
    rw [Driver.done_of_append ht] at hm
    refine .inr ⟨fun id result ha => ?_, ?_⟩
    · rw [hi _ ha] at hl
      cases hl
    · rcases hc.frames served frame hm (by rw [hl]; exact (Option.some_ne_none _).symm) with ⟨-, hb⟩ | hk
      · rw [he] at hb
        exact absurd hb (by decide)
      · exact hk

/-! ### Which joins have asked

A join that the driver was told of is in the history, under its own id and with its topic. -/

/-- What the joins that asked for a channel have in common, and who waits for a channel. -/
structure Traced (steps : List ActionTaken) (s : Host) : Prop where
  taken : ∀ (t : Topic), ∀ step ∈ steps, ∀ id ∈ step.asks t,
    (.join, id) ∈ s.made ∧ (.join, id) ∉ s.underway
  one : ∀ (t t' : Topic), ∀ step ∈ steps, ∀ step' ∈ steps, ∀ id ∈ step.asks t, id ∈ step'.asks t' → t = t'
  waits : ∀ (t : Topic), ∀ id ∈ s.driver.waiters t, id ∈ wishers t steps
  withdrawn : ∀ id, Withdrawn steps id → (.join, id) ∈ s.made

/-- Whoever wishes for the channel has asked for it in one of the steps. -/
theorem asked_of_wishes (h : id ∈ wishers t steps) : ∃ step ∈ steps, id ∈ step.asks t := by
  induction steps using List.reverseRecOn with
  | nil => cases h
  | append_singleton steps step ih =>
    rw [wishers_concat] at h
    split at h
    · rcases List.mem_append.mp h with h | h
      · obtain ⟨step', hm, ha⟩ := ih h
        exact ⟨step', List.mem_append_left _ hm, ha⟩
      · exact ⟨step, List.mem_append_right _ (List.mem_singleton_self _), h⟩
    · cases h

/-- A wish lasts as long as the channel is wanted. -/
theorem wishes_concat (hw : step.after.driver.wants t = true) (h : id ∈ wishers t steps ∨ id ∈ step.asks t) :
    id ∈ wishers t (steps ++ [step]) := by
  rw [wishers_concat, if_pos hw]
  exact List.mem_append.mpr h

/-- What a step does to the commands in the queue, and to the requests made. -/
theorem commands_step (hs : s.step env action = some s') :
    (∀ command ∈ s'.commands, command ∈ s.commands ∨ ¬ s.Repeats command) ∧ s.made ⊆ s'.made := by
  have hkeep : ∀ message, (s.send message).commands = s.commands ∧ (s.send message).made = s.made :=
    fun message => by
      unfold Host.send
      split <;> exact ⟨rfl, rfl⟩
  have hsame : s'.commands = s.commands → s'.made = s.made →
      (∀ command ∈ s'.commands, command ∈ s.commands ∨ ¬ s.Repeats command) ∧ s.made ⊆ s'.made :=
    fun hc hm => ⟨fun command h => .inl (hc ▸ h), hm ▸ List.Subset.refl _⟩
  cases acted hs with
  | channel topic =>
    refine hsame ?_ ?_
    all_goals
      unfold Host.channel
      split
      · rfl
      dsimp only
      split
      · rfl
      · unfold Host.send
        split <;> rfl
  | dropChannel handle hm =>
    refine hsame ?_ ?_
    all_goals
      unfold Host.dropChannel Host.setStatus Host.send
      dsimp only
      split <;> split <;> rfl
  | request command hr =>
    unfold Host.request
    split
    · exact ⟨fun command h => .inl h, List.Subset.refl _⟩
    · refine ⟨fun command' h => ?_, List.subset_append_left ..⟩
      rcases List.mem_append.mp h with h | h
      · exact .inl h
      · exact .inr (List.mem_singleton.mp h ▸ hr)
  | giveUp id hm => exact hsame (hkeep _).1 (hkeep _).2
  | nextLifecycle message rest d hq hd => exact hsame rfl rfl
  | nextCommand command rest d hq hc hd =>
    exact ⟨fun command h => .inl (hc ▸ List.mem_cons_of_mem _ h), List.Subset.refl _⟩
  | wake input d hw hd => exact hsame rfl rfl
  | tick elapsed d hd => exact hsame rfl rfl
  | stop => exact ⟨fun command h => (List.not_mem_nil h).elim, List.Subset.refl _⟩

/-- A driver that handles a cancellation is not over. -/
theorem open_of_cancelled (hs : s.step env action = some s') (hc : s.nextCancelled action = some id) :
    s.driver.phase ≠ .closed := by
  obtain ⟨rfl, rest, hq⟩ := nextCancelled_iff.mp hc
  exact (cancelled_driver hq hs).1

/-- The driver takes a join that was made once, and that is no longer in the queue then. -/
theorem taken_step (hb : s.Booked) (hs : s.step env action = some s')
    (hm : id ∈ ActionTaken.asks ⟨s, action, s'⟩ t) :
    (.join, id) ∈ s.underway ∧ (.join, id) ∈ s'.made ∧ (.join, id) ∉ s'.underway := by
  obtain ⟨ha, command, rest, hc, hask⟩ := mem_asks.mp hm
  have hrequest := request_of_asks hask
  cases (show action = .nextCommand from ha)
  cases acted hs with
  | nextCommand command' rest' d hq hc' hd =>
    obtain ⟨rfl, rfl⟩ := List.cons.inj (hc'.symm.trans hc)
    have hopen : s.driver.phase ≠ .closed := by
      intro hclosed
      simp only [Driver.step, hclosed] at hd
      cases hd
    have hu : s.underway = (.join, id) :: rest'.filterMap Command.request := by
      rw [underway, hc', List.filterMap_cons, hrequest]
    have hmade : (.join, id) ∈ s.made := hb.mem_made hopen (.inr (hu ▸ List.mem_cons_self))
    refine ⟨hu ▸ List.mem_cons_self, hmade, fun hagain => ?_⟩
    have hx := (hb.places.resolve_left hopen) (.join, id)
    have hone := hb.count_le_one (.join, id)
    have hpos : 0 < (rest'.filterMap Command.request).count (.join, id) := List.count_pos_iff.mpr hagain
    rw [hu, List.count_cons_self] at hx
    omega

/-- What is in the queue was there before, or is new. -/
theorem underway_step (hs : s.step env action = some s') {x : Request} (hx : x ∈ s'.underway) :
    x ∈ s.underway ∨ x.2 ∉ s.made.map Prod.snd := by
  obtain ⟨command, hm, hr⟩ := List.mem_filterMap.mp hx
  rcases (commands_step hs).1 command hm with hm | hn
  · exact .inl (List.mem_filterMap.mpr ⟨command, hm, hr⟩)
  · exact .inr fun hmade => hn ⟨x, hr, hmade⟩

theorem reachable_host {h : List ActionTaken × Host} (hr : (history env).Reachable h) :
    (host env).Reachable h.2 :=
  Machine.Reach.of_recording hr

/-- **Who waits for a channel has asked for it**, in every run. -/
theorem reachable_traced {h : List ActionTaken × Host} (hr : (history env).Reachable h) :
    Traced h.1 h.2 := by
  induction hr with
  | start =>
    refine ⟨fun _ _ hm => (List.not_mem_nil hm).elim, fun _ _ _ hm => (List.not_mem_nil hm).elim, fun t id hm => ?_,
      fun id hw => ?_⟩
    · have hnone : (Driver.start env).waiters t = [] := by
        rw [Driver.waiters, Driver.start_record, Option.elim_none]
      have hm : id ∈ (Driver.start env).waiters t := hm
      rw [hnone] at hm
      cases hm
    · obtain ⟨step, hm, -⟩ := hw
      cases hm
  | @step h h' action hr _ hs ih =>
    obtain ⟨hstep, hh⟩ := Machine.recording_step.mp hs
    have hb := reachable_booked (reachable_host hr)
    have hmade := (commands_step hstep).2
    rw [hh]
    have hold : ∀ (t : Topic), ∀ step ∈ h.1, ∀ id ∈ step.asks t,
        (.join, id) ∈ h'.2.made ∧ (.join, id) ∉ h'.2.underway := fun t step hm id ha => by
      obtain ⟨hin, hout⟩ := ih.taken t step hm id ha
      refine ⟨hmade hin, fun hu => ?_⟩
      rcases underway_step hstep hu with hu | hn
      · exact hout hu
      · exact hn (List.mem_map_of_mem (f := Prod.snd) hin)
    have hnew : ∀ (t : Topic), ∀ id ∈ ActionTaken.asks ⟨h.2, action, h'.2⟩ t,
        (.join, id) ∈ h.2.underway ∧ (.join, id) ∈ h'.2.made ∧ (.join, id) ∉ h'.2.underway :=
      fun t id ha => taken_step hb hstep ha
    refine ⟨fun t step hm id ha => ?_, fun t t' step hm step' hm' id ha ha' => ?_, fun t id hm => ?_, fun id hw => ?_⟩
    · rcases List.mem_append.mp hm with hm | hm
      · exact hold t step hm id ha
      · cases List.mem_singleton.mp hm
        exact (hnew t id ha).2
    · rcases List.mem_append.mp hm with hm | hm
      · rcases List.mem_append.mp hm' with hm' | hm'
        · exact ih.one t t' step hm step' hm' id ha ha'
        · cases List.mem_singleton.mp hm'
          exact absurd (hnew t' id ha').1 (ih.taken t step hm id ha).2
      · cases List.mem_singleton.mp hm
        rcases List.mem_append.mp hm' with hm' | hm'
        · exact absurd (hnew t id ha).1 (ih.taken t' step' hm' id ha').2
        · cases List.mem_singleton.mp hm'
          obtain ⟨-, command, rest, hc, hask⟩ := mem_asks.mp ha
          obtain ⟨-, command', rest', hc', hask'⟩ := mem_asks.mp ha'
          obtain ⟨rfl, -⟩ := List.cons.inj (hc.symm.trans hc')
          cases command with
          | join other topic timeout =>
            cases List.mem_singleton.mp hask
            cases List.mem_singleton.mp hask'
            rfl
          | _ => cases hask
    · have hwaited := Driver.reachable_waited (reachable_driver (reachable_host hr |>.step hstep))
      refine wishes_concat (hwaited t (List.ne_nil_of_mem hm)) ?_
      exact ((wishedIn hstep).waiters id hm).imp_left (ih.waits t id)
    · rcases withdrawn_concat.mp hw with hw | ⟨hc, hx⟩
      · exact hmade (ih.withdrawn id hw)
      · exact hmade (hb.mem_made (open_of_cancelled hstep hc) hx)

/-! ### The wish of a cancelled join

While nobody has asked for the channel since, a cancelled join leaves behind at most the wish of a
channel that was joined before. -/

/-- As long as every cancellation of a join of the topic is heeded, a wanted channel has a join
that stands for it, and nobody who withdrew waits for it or is about to ask. -/
structure Kept (t : Topic) (steps : List ActionTaken) (s : Host) : Prop where
  wants : s.driver.wants t = true → ∃ id ∈ wishers t steps, ¬ Withdrawn steps id
  waits : ∀ id ∈ s.driver.waiters t, ¬ Withdrawn steps id
  fresh : ∀ id, Withdrawn steps id → ∀ command ∈ s.commands, (t, id) ∉ command.asks

/-- A join is held while it waits for a channel. -/
theorem join_held {d : Driver} : (.join, id) ∈ d.held ↔ ∃ t, id ∈ d.waiters t := by
  constructor
  · intro hx
    obtain ⟨place, hm⟩ := Driver.mem_tally.mp hx
    cases place with
    | record t =>
      simp only [Driver.tallyAt] at hm
      cases hr : d.record t with
      | none =>
        rw [hr] at hm
        cases hm
      | some channel =>
        rw [hr] at hm
        refine ⟨t, ?_⟩
        rw [Driver.waiters_of_some hr]
        rcases Driver.mem_channel_held.mp hm with ⟨-, hw⟩ | ⟨push, -, hp, -⟩ | ⟨hl, -⟩
        · exact hw
        · cases push <;> cases hp
        · cases hl
    | reference r =>
      simp only [Driver.tallyAt, List.mem_append] at hm
      rcases hm with (hm | hm) | hm
      · cases hc : d.state.pendingCalls[r]? with
        | none =>
          rw [hc] at hm
          cases hm
        | some call =>
          rw [hc] at hm
          cases List.mem_singleton.mp hm
      · cases hc : d.state.pendingPings[r]? with
        | none =>
          rw [hc] at hm
          cases hm
        | some ping =>
          rw [hc] at hm
          cases List.mem_singleton.mp hm
      · cases hc : d.state.pendingLeaves[r]? with
        | none =>
          rw [hc] at hm
          cases hm
        | some leave =>
          rw [hc] at hm
          cases List.mem_singleton.mp hm
  · rintro ⟨t, hw⟩
    cases hr : d.record t with
    | none =>
      rw [Driver.waiters, hr] at hw
      cases hw
    | some channel =>
      rw [Driver.waiters_of_some hr] at hw
      exact Driver.mem_held_of_record hr (Driver.mem_channel_held.mpr (.inl ⟨rfl, hw⟩))

section
variable {h : List ActionTaken × Host}

/-- A join whose cancellation was handled is not asked for later: its command had left the queue, and no
two commands have the same id. -/
theorem Kept.fresh_step (ht : Traced h.1 h.2) (hk : Kept t h.1 h.2) (hb : h.2.Booked)
    (hheed : Heeded t h action) (hs : h.2.step env action = some s')
    (hw : Withdrawn (h.1 ++ [⟨h.2, action, s'⟩]) id) : ∀ command ∈ s'.commands, (t, id) ∉ command.asks := by
  intro command hm ha
  have hnew : (.join, id) ∈ h.2.made → h.2.Repeats command := fun hmade =>
    ⟨(.join, id), request_of_asks ha, List.mem_map_of_mem (f := Prod.snd) hmade⟩
  rcases (commands_step hs).1 command hm with hold | hn
  · rcases withdrawn_concat.mp hw with hw | ⟨hc, -⟩
    · exact hk.fresh id hw command hold ha
    · exact (hheed id hc).1 command hold ha
  · rcases withdrawn_concat.mp hw with hw | ⟨hc, hx⟩
    · exact hn (hnew (ht.withdrawn id hw))
    · exact hn (hnew (hb.mem_made (open_of_cancelled hs hc) hx))

/-- Who waits for the channel after a step has not withdrawn. -/
theorem Kept.waits_step (hk : Kept t h.1 h.2) (hb : h.2.Booked)
    (hs : h.2.step env action = some s') (hm : id ∈ s'.driver.waiters t) :
    ¬ Withdrawn (h.1 ++ [⟨h.2, action, s'⟩]) id := by
  intro hw
  rcases withdrawn_concat.mp hw with hw | ⟨hc, hx⟩
  · rcases (wishedIn hs).waiters id hm with hm | hm
    · exact hk.waits id hm hw
    · obtain ⟨-, command, rest, hq, ha⟩ := mem_asks.mp hm
      exact hk.fresh id hw command (hq ▸ List.mem_cons_self) ha
  · have hmade := hb.mem_made (open_of_cancelled hs hc) hx
    obtain ⟨rfl, rest, hq⟩ := nextCancelled_iff.mp hc
    have hheld := not_held_of_cancelled hb hmade (by decide) (by decide) hq hs
    exact hheld _ (join_held.mpr ⟨t, hm⟩) rfl

/-- **A channel that is wanted after a step has a join that stands for it.** -/
theorem Kept.wants_step (hr : (host env).Reachable h.2) (ht : Traced h.1 h.2) (hk : Kept t h.1 h.2)
    (hheed : Heeded t h action) (hs : h.2.step env action = some s')
    (hw : s'.driver.wants t = true) :
    ∃ id ∈ wishers t (h.1 ++ [⟨h.2, action, s'⟩]), ¬ Withdrawn (h.1 ++ [⟨h.2, action, s'⟩]) id := by
  have hb := reachable_booked hr
  have hstands : ∀ other, other ∈ wishers t h.1 → ¬ Withdrawn h.1 other →
      ¬ h.2.nextCancelled action = some other →
      ∃ id ∈ wishers t (h.1 ++ [⟨h.2, action, s'⟩]), ¬ Withdrawn (h.1 ++ [⟨h.2, action, s'⟩]) id :=
    fun other hm hn hc => ⟨other, wishes_concat hw (.inl hm), fun hw =>
      (withdrawn_concat.mp hw).elim hn fun hw => hc hw.1⟩
  rcases (wishedIn hs).wants hw with hbefore | ⟨id, hask⟩
  · obtain ⟨id, hm, hn⟩ := hk.wants hbefore
    by_cases hc : h.2.nextCancelled action = some id
    swap
    · exact hstands id hm hn hc
    by_cases hx : (.join, id) ∈ h.2.driver.held
    swap
    · -- a cancellation that finds no join to take back
      obtain ⟨step, hstep, ha⟩ := asked_of_wishes hm
      refine ⟨id, wishes_concat hw (.inl hm), fun hw => ?_⟩
      rcases withdrawn_concat.mp hw with hw | ⟨-, hheld | hunder⟩
      · exact hn hw
      · exact hx hheld
      · exact (ht.taken t step hstep id ha).2 hunder
    -- the join waits for this channel and no other
    obtain ⟨step, hstep, ha⟩ := asked_of_wishes hm
    have hone : ∀ t' : Topic, id ∈ h.2.driver.waiters t' → t' = t := fun t' hw => by
      obtain ⟨step', hstep', ha'⟩ := asked_of_wishes (ht.waits t' id hw)
      exact ht.one t' t step' hstep' step hstep id ha' ha
    obtain ⟨t', hwait⟩ := join_held.mp hx
    obtain rfl := hone t' hwait
    cases hrec : h.2.driver.record t' with
    | none =>
      rw [Driver.waiters, hrec] at hwait
      cases hwait
    | some channel =>
      rw [Driver.waiters_of_some hrec] at hwait
      obtain ⟨rfl, rest, hq⟩ := nextCancelled_iff.mp hc
      have hcancel := (cancelled_driver hq hs).2
      rcases Driver.cancel_waiter hone hrec hwait (hcancel ▸ hw) with hjoined | hothers
      · obtain ⟨other, hother, hne, hkept⟩ := (hheed id hc).2 channel hrec hwait hjoined
        exact hstands other hother hkept fun hc' => hne (Option.some.inj (hc'.symm.trans hc))
      · rw [← hcancel] at hothers
        obtain ⟨other, hother⟩ := List.exists_mem_of_ne_nil _ hothers
        refine ⟨other, wishes_concat hw ?_, hk.waits_step hb hs hother⟩
        exact ((wishedIn hs).waiters other hother).imp_left (ht.waits t' other)
  · refine ⟨id, wishes_concat hw (.inr hask), fun hw => ?_⟩
    obtain ⟨ha, command, rest, hq, hcommand⟩ := mem_asks.mp hask
    rcases withdrawn_concat.mp hw with hw | ⟨hc, -⟩
    · exact hk.fresh id hw command (hq ▸ List.mem_cons_self) hcommand
    · have hact : action = .nextLifecycle := (nextCancelled_iff.mp hc).1
      rw [show action = .nextCommand from ha] at hact
      cases hact

/-- By induction over the run: who waits and was cancelled is not the only one who wants the channel. -/
theorem reachable_kept (hr : (history env).Reach (Heeded t) h) : Kept t h.1 h.2 := by
  induction hr with
  | start =>
    have hnone : ((history env).start.2).driver.record t = none := Driver.start_record env t
    refine ⟨fun hw => ?_, fun id hm => ?_, fun id hw => ?_⟩
    · rw [Driver.wants, hnone] at hw
      exact absurd hw Bool.false_ne_true
    · rw [Driver.waiters, hnone] at hm
      cases hm
    · obtain ⟨step, hm, -⟩ := hw
      cases hm
  | @step h h' action hr hheed hs ih =>
    obtain ⟨hstep, hh⟩ := Machine.recording_step.mp hs
    have ht := reachable_traced hr.reachable
    have hhost := reachable_host hr.reachable
    have hb := reachable_booked hhost
    rw [hh]
    exact ⟨ih.wants_step hhost ht hheed hstep, fun id hm => ih.waits_step hb hstep hm,
      fun id hw => ih.fresh_step ht hb hheed hstep hw⟩

/-- A request whose cancellation was handled is gone, unless its command was still in the queue. -/
theorem gone_of_history (hr : (history env).Reachable h) {operation : ClientOperation}
    (ho : operation = .join ∨ operation = .call ∨ operation = .cast)
    (hc : ∃ step ∈ h.1, step.cancelled = some id ∧ (operation, id) ∈ step.before.made ∧
      (operation, id) ∉ step.before.underway) : h.2.Gone id := by
  induction hr with
  | start =>
    obtain ⟨step, hm, -⟩ := hc
    cases hm
  | @step h h' action hr _ hs ih =>
    obtain ⟨hstep, hh⟩ := Machine.recording_step.mp hs
    have hr' := reachable_host hr
    obtain ⟨step, hm, hcancel, hmade, hn⟩ := hc
    rw [hh] at hm
    rcases List.mem_append.mp hm with hm | hm
    · have hgone := ih ⟨step, hm, hcancel, hmade, hn⟩
      exact (gone_step hgone (reachable_booked hr') (reachable_driver hr') (host_step hstep)).1
    · cases List.mem_singleton.mp hm
      obtain ⟨rfl, rest, hq⟩ := nextCancelled_iff.mp hcancel
      refine gone_of_cancelled (reachable_booked hr') hmade ?_ ?_ hq hn hstep
      · rcases ho with rfl | rfl | rfl <;> decide
      · rcases ho with rfl | rfl | rfl <;> decide

/-- **A cancelled request is never carried out.** In every run, in whatever order the two queues
are taken from:

No step sends a frame or starts a join for a join, call or cast with the id, once its
cancellation was handled and its command was no longer in the queue then.

If every cancellation of a join of the topic is heeded, then no step loads a payload or sends a
join of the topic unless a join stands for it, which asked for the channel since it was last not
wanted and was not cancelled before it was answered. A push may be named like a join; it goes out
under the join reference its channel has. -/
theorem cancelled_never_carried_out (env : Env) (h : List ActionTaken × Host)
    (hr : (history env).Reachable h) (action : Action) (s' : Host) (hs : h.2.step env action = some s') :
    (∀ (operation : ClientOperation) (id : RequestId),
      operation = .join ∨ operation = .call ∨ operation = .cast →
      (∃ step ∈ h.1, step.cancelled = some id ∧ (operation, id) ∈ step.before.made ∧
        (operation, id) ∉ step.before.underway) →
      ∀ effect ∈ h.2.driver.done s'.driver, id ∉ effect.serves) ∧
    ∀ t : Topic, (history env).Reach (Heeded t) h →
      (∀ load ∈ loadsOf (h.2.driver.done s'.driver), load.1 = t → Stands t h.1 ⟨h.2, action, s'⟩) ∧
      ∀ (served : List RequestId) (frame : Frame), .outgoing served frame ∈ h.2.driver.done s'.driver →
        frame.topic = t → frame.event = "phx_join" →
        Stands t h.1 ⟨h.2, action, s'⟩ ∨
          (∀ id result, action ≠ .wake (.payload t id result)) ∧
            ∃ j, frame.joinRef = some j ∧ h.2.driver.Known t j := by
  have hhost := reachable_host hr
  refine ⟨fun operation id ho hc => ?_, fun t hheed => ?_⟩
  · have hgone := gone_of_history hr ho hc
    exact (gone_step hgone (reachable_booked hhost) (reachable_driver hhost) (host_step hs)).2
  have hk := reachable_kept hheed
  have hstands : h.2.driver.wants t = true → Stands t h.1 ⟨h.2, action, s'⟩ := fun hw => by
    obtain ⟨id, hm, hn⟩ := hk.wants hw
    exact ⟨id, .inl hm, hn⟩
  refine ⟨fun load hm hl => ?_, fun served frame hm ht he => ?_⟩
  · rcases (wishedIn hs).loads load hm hl with hw | ⟨id, ha⟩
    · exact hstands hw
    · obtain ⟨-, command, rest, hq, hask⟩ := mem_asks.mp ha
      exact ⟨id, .inr ha, fun hw => hk.fresh id hw command (hq ▸ List.mem_cons_self) hask⟩
  · subst ht
    exact (join_sent hs hm he).imp_left hstands

end

end

/-- The server takes the first join. -/
def joinedReply : Frame := replyFrame "ok" "room" "1" "1"

/-- The connection is made, and a channel joined. -/
def opened : List Action :=
  [.wake (.connectionMade []), .channel "room", .nextLifecycle, .request (.join 1 "room" 10), .nextCommand,
    .wake (.payload "room" 1 (.ok (.object []))), .wake (.frame joinedReply)]

/-- The server the channel fails at, and the one that lets it go. -/
def failingServer : Env := smallEnv [joinedReply, serverFrame "phx_error" "room" "1"]

def leavingServer : Env := smallEnv [joinedReply, replyFrame "ok" "room" "1" "2"]

/-- The channel fails, and a second join of it is cancelled while its payload is loaded. -/
def rejoined : List Action :=
  opened ++ [.wake (.frame (serverFrame "phx_error" "room" "1")), .request (.join 2 "room" 10), .nextCommand,
    .giveUp 2, .nextLifecycle]

def sendsJoin (t : Topic) : Effect → Bool
  | .outgoing _ frame => frame.topic = t ∧ frame.event = "phx_join"
  | _ => false

/-- A channel that was joined before its second join was cancelled is joined again, for the first. -/
theorem cancelled_while_loading :
    ∃ (h : List ActionTaken × Host) (s' : Host),
      h.2.step failingServer (.wake (.payload "room" 2 (.ok (.object [])))) = some s' ∧
      (∀ effect ∈ h.2.driver.done s'.driver, (2 : RequestId) ∉ effect.serves) ∧
      Stands "room" h.1 ⟨h.2, .wake (.payload "room" 2 (.ok (.object []))), s'⟩ := by
  obtain ⟨h, hr, hd⟩ := Machine.reach_of_guarded_run (history failingServer)
    (fun h action hok => of_decide_eq_true (p := Heeded "room" h action) hok) rejoined
    (fun h =>
      (h.1.any fun step => decide (step.cancelled = some 2 ∧ (.join, 2) ∈ step.before.made ∧
        (.join, 2) ∉ step.before.underway)) &&
        (h.2.step failingServer (.wake (.payload "room" 2 (.ok (.object []))))).any fun s' =>
          (h.2.driver.done s'.driver).any (sendsJoin "room"))
    (by decide +kernel)
  rw [Bool.and_eq_true, List.any_eq_true] at hd
  obtain ⟨⟨step, hstep, hc⟩, hd⟩ := hd
  obtain ⟨s', hs, hd⟩ := (Option.any_eq_true ..).mp hd
  obtain ⟨hserves, hwish⟩ := cancelled_never_carried_out failingServer h hr.reachable _ s' hs
  refine ⟨h, s', hs, hserves .join 2 (.inl rfl) ⟨step, hstep, of_decide_eq_true hc⟩, ?_⟩
  obtain ⟨effect, hm, he⟩ := List.any_eq_true.mp hd
  cases effect with
  | outgoing served frame =>
    obtain ⟨ht, hj⟩ := of_decide_eq_true he
    rcases (hwish "room" hr).2 served frame hm ht hj with hstands | ⟨hpush, -⟩
    · exact hstands
    · exact absurd rfl (hpush 2 _)
  | _ => cases he

/-- A call of a joined channel is given up while its command is in the queue. -/
def overtaken : List Action :=
  opened ++ [.request (.call 2 "room" "late" (.json .null) 0), .giveUp 2, .nextLifecycle]

/-- A join is cancelled that waits until a leave of its channel is acknowledged. -/
def unwished : List Action :=
  opened ++ [.request (.leave 2 "room" 10), .nextCommand, .request (.join 3 "room" 10), .nextCommand,
    .giveUp 3, .nextLifecycle]

/-- A call whose cancellation overtook it is sent, and a channel that only a cancelled join asks
for is loaded. -/
theorem cancelled_carried_out :
    (¬ ∀ (env : Env) (h : List ActionTaken × Host), (history env).Reachable h →
      ∀ (action : Action) (s' : Host), h.2.step env action = some s' →
      ∀ (operation : ClientOperation) (id : RequestId),
        operation = .join ∨ operation = .call ∨ operation = .cast →
        (∃ step ∈ h.1, step.cancelled = some id ∧ (operation, id) ∈ step.before.made) →
        ∀ effect ∈ h.2.driver.done s'.driver, id ∉ effect.serves) ∧
    ¬ ∀ (env : Env) (h : List ActionTaken × Host), (history env).Reachable h →
      ∀ (action : Action) (s' : Host), h.2.step env action = some s' →
      ∀ load ∈ loadsOf (h.2.driver.done s'.driver), Stands load.1 h.1 ⟨h.2, action, s'⟩ := by
  constructor
  · intro hall
    obtain ⟨h, hr, hd⟩ := Machine.reachable_of_run (history leavingServer) overtaken
      (fun h =>
        (h.1.any fun step => decide (step.cancelled = some 2 ∧ (.call, 2) ∈ step.before.made)) &&
          (h.2.step leavingServer .nextCommand).any fun s' =>
            (h.2.driver.done s'.driver).any fun effect => decide ((2 : RequestId) ∈ effect.serves))
      (by decide +kernel)
    rw [Bool.and_eq_true, List.any_eq_true] at hd
    obtain ⟨⟨step, hstep, hc⟩, hd⟩ := hd
    obtain ⟨s', hs, hd⟩ := (Option.any_eq_true ..).mp hd
    obtain ⟨effect, hm, hserves⟩ := List.any_eq_true.mp hd
    exact hall _ h hr _ s' hs .call 2 (.inr (.inl rfl)) ⟨step, hstep, of_decide_eq_true hc⟩ effect hm
      (of_decide_eq_true hserves)
  · intro hall
    obtain ⟨h, hr, hd⟩ := Machine.reachable_of_run (history leavingServer) unwished
      (fun h =>
        (h.2.step leavingServer (.wake (.frame (replyFrame "ok" "room" "1" "2")))).any fun s' =>
          decide (("room", 2) ∈ loadsOf (h.2.driver.done s'.driver)) &&
            decide (∀ id ∈ wishers "room" h.1, Withdrawn h.1 id))
      (by decide +kernel)
    obtain ⟨s', hs, hd⟩ := (Option.any_eq_true ..).mp hd
    rw [Bool.and_eq_true] at hd
    obtain ⟨id, hw, hn⟩ := hall _ h hr _ s' hs _ (of_decide_eq_true hd.1)
    rcases hw with hw | ha
    · exact hn (of_decide_eq_true hd.2 id hw)
    · cases (mem_asks.mp ha).1

end Host
end PhoenixChannel.Client
