import PhoenixChannel.Client.Custody

/-! The calls that end, and what the hook hears of them.

A call ends when it is answered or cancelled. `Matched` says of the effects of a handler that the calls
they end are, in order, the calls they report as completed, each with the outcome of its answer. The
driver keeps a call in a record's queue or under its reference, with the topic, the event and the start
that its command had, so that the report is about the call that ended. -/
namespace PhoenixChannel.Client
open PhoenixChannel.Runtime Library

/-- The outcome that the answer to a call stands for. -/
def answerOutcome : Except ClientError Success → Option CallOutcome
  | .ok (.reply status _) => some (.reply status)
  | .ok _ => none
  | .error (.interrupted _) => some .interrupted
  | .error _ => some .rejected

namespace Effect

/-- The call that the effect ends, with its outcome. -/
def ending : Effect → Option (RequestId × Option CallOutcome)
  | .answered .call id result => some (id, answerOutcome result)
  | .cancelled .call id => some (id, some .cancelled)
  | _ => none

/-- The completed call that the effect reports. -/
def completion : Effect → Option TelemetryEvent
  | .telemetry (.callCompleted topic event outcome duration) => some (.callCompleted topic event outcome duration)
  | _ => none

/-- The effect ends no call and reports none. -/
def Still (effect : Effect) : Prop := effect.ending = none ∧ effect.completion = none

end Effect

/-- The calls ended, in order. -/
def endings (effects : List Effect) : List (RequestId × Option CallOutcome) := effects.filterMap Effect.ending

/-- The calls reported as completed, in order. -/
def completions (effects : List Effect) : List TelemetryEvent := effects.filterMap Effect.completion

/-- The report of a call that ended. -/
def PendingCall.completed (call : PendingCall) (clock : Duration) (outcome : CallOutcome) : TelemetryEvent :=
  .callCompleted call.topic call.event outcome (clock - call.started)

/-- The calls ended are the calls reported, with their outcomes, and each is one of those that `A` knows. -/
def Matched (A : PendingCall → Prop) (clock : Duration) (effects : List Effect) : Prop :=
  ∃ ended : List (PendingCall × CallOutcome),
    endings effects = ended.map (fun entry => (entry.1.id, some entry.2)) ∧
      completions effects = ended.map (fun entry => entry.1.completed clock entry.2) ∧ ∀ entry ∈ ended, A entry.1

section
variable {A A' : PendingCall → Prop} {clock : Duration} {effects effects' : List Effect} {call : PendingCall}

theorem endings_append : endings (effects ++ effects') = endings effects ++ endings effects' :=
  List.filterMap_append

theorem completions_append : completions (effects ++ effects') = completions effects ++ completions effects' :=
  List.filterMap_append

theorem endings_of_still (h : ∀ effect ∈ effects, effect.Still) : endings effects = [] :=
  List.filterMap_eq_nil_iff.mpr fun effect hm => (h effect hm).1

theorem completions_of_still (h : ∀ effect ∈ effects, effect.Still) : completions effects = [] :=
  List.filterMap_eq_nil_iff.mpr fun effect hm => (h effect hm).2

theorem Matched.of_still (h : ∀ effect ∈ effects, effect.Still) : Matched A clock effects :=
  ⟨[], endings_of_still h, completions_of_still h, List.forall_mem_nil _⟩

theorem Matched.append (h : Matched A clock effects) (h' : Matched A clock effects') :
    Matched A clock (effects ++ effects') := by
  obtain ⟨ended, he, hc, hA⟩ := h
  obtain ⟨ended', he', hc', hA'⟩ := h'
  refine ⟨ended ++ ended', ?_, ?_, fun entry hm => ?_⟩
  · rw [endings_append, he, he', List.map_append]
  · rw [completions_append, hc, hc', List.map_append]
  · exact (List.mem_append.mp hm).elim (hA entry) (hA' entry)

/-- A call is reported and answered. -/
theorem matched_answered (hA : A call) {result : Except ClientError Success} {outcome : CallOutcome}
    (hr : answerOutcome result = some outcome) :
    Matched A clock [.telemetry (call.completed clock outcome), .answered .call call.id result] := by
  refine ⟨[(call, outcome)], ?_, rfl, fun entry hm => ?_⟩
  · show [(call.id, answerOutcome result)] = _
    rw [hr]
    rfl
  · rw [List.mem_singleton.mp hm]
    exact hA

/-- A call is cancelled and reported. -/
theorem matched_cancelled (hA : A call) :
    Matched A clock [.cancelled .call call.id, .telemetry (call.completed clock .cancelled)] := by
  refine ⟨[(call, .cancelled)], rfl, rfl, fun entry hm => ?_⟩
  rw [List.mem_singleton.mp hm]
  exact hA

theorem still_answered {operation : ClientOperation} (ho : operation ≠ .call) {id : RequestId}
    {result : Except ClientError Success} : (Effect.answered operation id result).Still := by
  cases operation with
  | call => exact absurd rfl ho
  | _ => exact ⟨rfl, rfl⟩

theorem still_answers {operation : ClientOperation} (ho : operation ≠ .call) {ids : List RequestId}
    {result : Except ClientError Success} {effect : Effect}
    (hm : effect ∈ ids.map fun id => Effect.answered operation id result) : effect.Still := by
  obtain ⟨id, -, rfl⟩ := List.mem_map.mp hm
  exact still_answered ho

theorem still_leaveAnswers {pending : Option PendingLeave} {result : Except ClientError Success} {effect : Effect}
    (hm : effect ∈ leaveAnswers pending result) : effect.Still := by
  obtain ⟨leave, -, -, rfl⟩ := mem_leaveAnswers hm
  exact still_answered ClientOperation.noConfusion

/-- What is reported to a topic's subscribers is no report of a call. -/
theorem still_channelEffects (d : Driver) (topic : Topic) (event : ChannelEvent) :
    ∀ effect ∈ d.channelEffects topic event, effect.Still := by
  intro effect hm
  unfold Driver.channelEffects at hm
  rcases List.mem_cons.mp hm with rfl | hm
  · exact ⟨rfl, rfl⟩
  · split at hm
    · cases List.mem_singleton.mp hm
      exact ⟨rfl, rfl⟩
    · cases hm

/-- The call of a push, as it is kept once it was sent. -/
def QueuedPush.pending (topic : Topic) : QueuedPush → Option PendingCall
  | .call id event _ started => some ⟨id, topic, event, started⟩
  | .cast _ _ _ => none

/-- A stopped channel interrupts the calls of its queue: the answers come before the reports, both in
the order of the queue. -/
theorem matched_stopEffects {topic : Topic} {channel : ChannelRecord}
    (hA : ∀ push ∈ channel.queued, ∀ call, push.pending topic = some call → A call) :
    Matched A clock (stopEffects topic clock channel) := by
  have hfirst : Matched A clock (leaveAnswers channel.deferredLeave (.error (.interrupted .leave)) ++
      channel.joinWaiters.map fun id => .answered .join id (.error (.interrupted .join))) :=
    (Matched.of_still fun _ hm => still_leaveAnswers hm).append
      (.of_still fun _ hm => still_answers ClientOperation.noConfusion hm)
  rw [stopEffects, List.append_assoc]
  refine hfirst.append ⟨channel.queued.filterMap fun push => (push.pending topic).map (·, .interrupted), ?_, ?_, ?_⟩
  · rw [endings_append]
    refine (congrArg₂ (· ++ ·) ?_ (List.filterMap_eq_nil_iff.mpr fun effect hm => ?_)).trans (List.append_nil _)
    · rw [endings, List.filterMap_map, List.map_filterMap]
      refine List.filterMap_congr fun push _ => ?_
      cases push with
      | call => rfl
      | cast => rfl
    · obtain ⟨push, -, hp⟩ := List.mem_filterMap.mp hm
      cases push with
      | call =>
        cases hp
        rfl
      | cast => cases hp
  · rw [completions_append]
    refine (congrArg₂ (· ++ ·) (List.filterMap_eq_nil_iff.mpr fun effect hm => ?_) ?_).trans (List.nil_append _)
    · obtain ⟨push, -, rfl⟩ := List.mem_map.mp hm
      rfl
    · rw [completions, List.filterMap_filterMap, List.map_filterMap]
      refine List.filterMap_congr fun push _ => ?_
      cases push with
      | call => rfl
      | cast => rfl
  · intro entry hm
    obtain ⟨push, hpush, hp⟩ := List.mem_filterMap.mp hm
    obtain ⟨call, hc, rfl⟩ := Option.map_eq_some_iff.mp hp
    exact hA push hpush call hc

/-- A lost connection interrupts the calls in flight. -/
theorem matched_interruptions {old : DriverState}
    (hA : ∀ (r : Reference) (call : PendingCall), old.pendingCalls[r]? = some call → A call) :
    Matched A clock (Driver.interruptions old clock) := by
  have hcalls : ∀ entries : List (Reference × PendingCall), (∀ entry ∈ entries, A entry.2) →
      Matched A clock (entries.flatMap fun entry =>
        [.telemetry (.callCompleted entry.2.topic entry.2.event .interrupted (clock - entry.2.started)),
          .answered .call entry.2.id (.error (.interrupted .call))]) := by
    intro entries
    induction entries with
    | nil => exact fun _ => .of_still (List.forall_mem_nil _)
    | cons entry entries ih =>
      intro hall
      rw [List.flatMap_cons]
      exact (matched_answered (hall entry List.mem_cons_self) rfl).append
        (ih fun entry hm => hall entry (List.mem_cons_of_mem _ hm))
  have hstill : ∀ {α : Type} (operation : ClientOperation) (entries : List α) (id : α → RequestId),
      operation ≠ .call →
      ∀ effect ∈ entries.map fun entry => Effect.answered operation (id entry) (.error (.interrupted operation)),
        effect.Still := by
    intro α operation entries id ho effect hm
    obtain ⟨entry, -, rfl⟩ := List.mem_map.mp hm
    exact still_answered ho
  refine (((hcalls _ fun entry hm => ?_).append ?_).append ?_).append ?_
  · exact hA entry.1 entry.2 (Std.ExtTreeMap.mem_toList_iff_getElem?_eq_some.mp hm)
  · exact .of_still (hstill .ping _ (fun entry : Reference × PendingPing => entry.2.id) ClientOperation.noConfusion)
  · exact .of_still (hstill .leave _ (fun entry : Reference × PendingLeave => entry.2.id) ClientOperation.noConfusion)
  · exact .of_still (hstill .leave _ PendingLeave.id ClientOperation.noConfusion)

end

namespace Driver

/-- The driver keeps the response of a call, in a queue or under a reference. -/
inductive KeepsCall (d : Driver) (call : PendingCall) : Prop where
  | queued (topic : Topic) (channel : ChannelRecord) (push : QueuedPush) (hr : d.record topic = some channel)
      (hm : push ∈ channel.queued) (hc : push.pending topic = some call)
  | sent (r : Reference) (hc : d.state.pendingCalls[r]? = some call)

/-- Every call that the driver keeps is one of those that `A` knows. -/
def Called (A : PendingCall → Prop) (d : Driver) : Prop := ∀ call, d.KeepsCall call → A call

/-- From `d` to `d'` calls are kept as they came, and those that end are reported. -/
structure Completes (A : PendingCall → Prop) (d d' : Driver) : Prop where
  clock : d'.clock = d.clock
  called : d.Called A → d'.Called A
  matched : d.Called A → ∃ effects, d'.trace = d.trace ++ effects ∧ Matched A d.clock effects

section
variable {A : PendingCall → Prop} {env : Env} {d d' d'' : Driver} {topic : Topic} {effects : List Effect}
  {channel channel' : ChannelRecord}

theorem Completes.trans (h : Completes A d d') (h' : Completes A d' d'') : Completes A d d'' where
  clock := h'.clock.trans h.clock
  called hA := h'.called (h.called hA)
  matched hA := by
    obtain ⟨first, ht, hm⟩ := h.matched hA
    obtain ⟨second, ht', hm'⟩ := h'.matched (h.called hA)
    rw [h.clock] at hm'
    exact ⟨first ++ second, by rw [ht', ht, List.append_assoc], hm.append hm'⟩

/-- No call comes, and none ends. -/
theorem Completes.of_still (hc : d'.clock = d.clock) (hh : ∀ call, d'.KeepsCall call → d.KeepsCall call)
    (he : d.Emits Effect.Still d') : Completes A d d' where
  clock := hc
  called hA call hold := hA call (hh call hold)
  matched _ := by
    obtain ⟨effects, ht, hs⟩ := he
    exact ⟨effects, ht, .of_still hs⟩

theorem Completes.refl (A : PendingCall → Prop) (d : Driver) : Completes A d d :=
  .of_still rfl (fun _ h => h) (.refl _ d)

/-- Records keep their queues, or lose pushes, and the table loses calls. -/
theorem Completes.of_tables (hc : d'.clock = d.clock)
    (hr : ∀ (t : Topic) (channel' : ChannelRecord), d'.record t = some channel' →
      ∃ channel, d.record t = some channel ∧ channel'.queued ⊆ channel.queued)
    (hp : ∀ (r : Reference) (call : PendingCall), d'.state.pendingCalls[r]? = some call →
      d.state.pendingCalls[r]? = some call)
    (he : d.Emits Effect.Still d') : Completes A d d' := by
  refine .of_still hc (fun call hold => ?_) he
  cases hold with
  | queued t channel' push hr' hm hcall =>
    obtain ⟨channel, hrec, hsub⟩ := hr t channel' hr'
    exact .queued t channel push hrec (hsub hm) hcall
  | sent r hcall => exact .sent r (hp r call hcall)

/-- Where clock, records, calls and history stay, so does everything that is said of calls. -/
theorem Completes.same (h : Completes A d d') (hc : d''.clock = d'.clock)
    (hr : d''.state.channels = d'.state.channels) (hp : d''.state.pendingCalls = d'.state.pendingCalls)
    (ht : d''.trace = d'.trace) : Completes A d d'' := by
  refine h.trans (.of_tables hc (fun t channel hrec => ⟨channel, ?_, List.Subset.refl _⟩) (fun r call hcall => ?_)
    (.of_trace ht))
  · rw [record, hr] at hrec
    exact hrec
  · rw [hp] at hcall
    exact hcall

theorem KeepsCall.of_state {call : PendingCall} (h : d'.KeepsCall call) (hs : d'.state = d.state) :
    d.KeepsCall call := by
  cases h with
  | queued t channel push hr hm hc => exact .queued t channel push (by rw [record, ← hs]; exact hr) hm hc
  | sent r hc => exact .sent r (by rw [← hs]; exact hc)

/-- Calls that were kept, or came with a command, are reported and answered. -/
theorem Completes.report (h : Completes A d d') (hm : d.Called A → Matched A d'.clock effects) :
    Completes A d (d'.emitAll effects) where
  clock := h.clock
  called hA call hold := h.called hA call (hold.of_state rfl)
  matched hA := by
    obtain ⟨first, ht, hfirst⟩ := h.matched hA
    have hlast := hm hA
    rw [h.clock] at hlast
    exact ⟨first ++ effects, by rw [emitAll_trace, ht, List.append_assoc], hfirst.append hlast⟩

theorem Completes.emitAll (h : Completes A d d') (he : ∀ effect ∈ effects, effect.Still) :
    Completes A d (d'.emitAll effects) :=
  h.report fun _ => .of_still he

theorem Completes.answers (h : Completes A d d') {operation : ClientOperation} (ho : operation ≠ .call)
    {ids : List RequestId} {result : Except ClientError Success} :
    Completes A d (d'.emitAll (ids.map fun id => .answered operation id result)) :=
  h.emitAll fun _ hm => still_answers ho hm

theorem Completes.emit (h : Completes A d d') {effect : Effect} (he : effect.Still) :
    Completes A d (d'.emitAll [effect]) :=
  h.emitAll (List.forall_mem_singleton.mpr he)

theorem Completes.answer (h : Completes A d d') {operation : ClientOperation} (ho : operation ≠ .call)
    {id : RequestId} {result : Except ClientError Success} :
    Completes A d (d'.emitAll [.answered operation id result]) :=
  h.emit (still_answered ho)

theorem Completes.answerLeave (h : Completes A d d') {pending : Option PendingLeave}
    {result : Except ClientError Success} : Completes A d (d'.answerLeave pending result) := by
  rw [answerLeave_eq]
  exact h.emitAll fun _ hm => still_leaveAnswers hm

theorem Completes.emitChannel (h : Completes A d d') {event : ChannelEvent} :
    Completes A d (d'.emitChannel topic event) := by
  rw [emitChannel_eq]
  exact h.emitAll (still_channelEffects d' topic event)

/-- A record keeps its queue, or loses pushes of it. -/
theorem Completes.setRecord (h : Completes A d d') (hr : d'.record topic = some channel)
    (hq : channel'.queued ⊆ channel.queued) : Completes A d (d'.setRecord topic channel') := by
  refine h.trans (.of_tables rfl (fun t channel'' hr' => ?_) (fun _ _ hc => hc) (.of_trace rfl))
  rw [record_setRecord_eq] at hr'
  split at hr'
  · rename_i ht
    cases hr'
    exact ⟨channel, by rw [ht]; exact hr, hq⟩
  · exact ⟨channel'', hr', List.Subset.refl _⟩

theorem Completes.rewrite (h : Completes A d d') (hr : d'.record topic = some channel)
    (hq : channel'.queued = channel.queued) : Completes A d (d'.setRecord topic channel') :=
  h.setRecord hr (by rw [hq]; exact List.Subset.refl _)

/-- A status is no call. -/
theorem Completes.setStatus (h : Completes A d d') {status : ChannelStatus} :
    Completes A d (d'.setStatus topic status) := by
  cases hr : d'.record topic with
  | none =>
    rw [setStatus_of_none hr]
    exact h
  | some channel =>
    rw [setStatus_of_some hr]
    exact h.rewrite hr rfl

theorem Completes.setProtocol (h : Completes A d d') {p : Protocol} : Completes A d (d'.setProtocol p) :=
  h.same rfl rfl rfl rfl

theorem Completes.forgetJoins (h : Completes A d d') : Completes A d (d'.forgetJoins topic) := h.same rfl rfl rfl rfl

theorem Completes.eraseJoin (h : Completes A d d') {reference : Reference} :
    Completes A d (d'.eraseJoin reference) := h.same rfl rfl rfl rfl

theorem Completes.eraseLeave (h : Completes A d d') {reference : Reference} :
    Completes A d (d'.eraseLeave reference) := h.same rfl rfl rfl rfl

theorem Completes.eraseCall (h : Completes A d d') {reference : Reference} :
    Completes A d { d' with state := { d'.state with pendingCalls := d'.state.pendingCalls.erase reference } } :=
  h.trans (.of_tables rfl (fun _ channel hr => ⟨channel, hr, List.Subset.refl _⟩)
    (fun _ _ hc => Table.lookup_of_erase hc) (.of_trace rfl))

theorem Completes.discardChannel (h : Completes A d d') : Completes A d (d'.discardChannel topic) := h.setProtocol

/-- The report of a sent frame is not that of a completed call, and the call itself waits for its reply. -/
theorem Completes.sendFrame (h : Completes A d d') {served : List RequestId} {frame : Frame} :
    Completes A d (d'.sendFrame env served frame).1 := by
  obtain ⟨events, hevents, ht⟩ := sendFrame_reports env d' served frame
  have hs := sendFrame_state env d' served frame
  refine h.trans (.of_still (sendFrame_clock ..) (fun call hold => hold.of_state hs) ⟨_, ht, fun effect hm => ?_⟩)
  rcases List.mem_cons.mp hm with rfl | hm
  · exact ⟨rfl, rfl⟩
  · obtain ⟨event, he, rfl⟩ := List.mem_map.mp hm
    obtain ⟨binary, bytes, rfl⟩ := hevents event he
    exact ⟨rfl, rfl⟩

/-- Loading a payload concerns joins. -/
theorem Completes.loadPayload (h : Completes A d d') : Completes A d (d'.loadPayload topic) := by
  rcases loadPayload_cases d' topic with ⟨-, he⟩ | ⟨channel, hr, -, -, -, he⟩
  · rw [he]
    exact h
  · rw [he]
    refine Completes.emit ?_ ⟨rfl, rfl⟩
    let channel' : ChannelRecord :=
      { channel with
        status := .waitingToJoin, activePayload := some (Protocol.advance d'.state.nextPayloadId) }
    have hw : Completes A d (d'.setRecord topic channel') := h.rewrite hr rfl
    exact hw.same rfl rfl rfl rfl

/-- A rejoin keeps the queue, whose calls are sent once the channel is joined again. -/
theorem Completes.scheduleRejoin (h : Completes A d d') : Completes A d (d'.scheduleRejoin env topic) := by
  rcases scheduleRejoin_cases env d' topic with ⟨-, he⟩ | ⟨channel, hr, -, -, he⟩
  · rw [he]
    exact h
  · rw [he]
    have hw : Completes A d (d'.setRecord topic { channel with
        rejoinScheduled := true, joinAttempt := nextAttempt channel.joinAttempt }) :=
      h.rewrite hr rfl
    exact hw.same rfl rfl rfl rfl

/-- The calls of a stopped channel are interrupted. -/
theorem Completes.stopChannel (h : Completes A d d') : Completes A d (d'.stopChannel topic) := by
  cases hr : d'.record topic with
  | none =>
    rw [stopChannel_of_none hr]
    exact h
  | some channel =>
    rw [stopChannel_of_some hr]
    refine h.trans ⟨rfl, fun hA => ?_, fun hA => ⟨_, rfl, ?_⟩⟩
    · have hwrite : Completes A d' (d'.setRecord topic channel.stopped) :=
        (Completes.refl A d').setRecord hr (List.nil_subset _)
      exact fun call hold => hwrite.called hA call (hold.of_state rfl)
    · exact matched_stopEffects fun push hm call hc => hA call (.queued topic channel push hr hm hc)

/-- A new record has an empty queue. -/
theorem Completes.register (h : Completes A d d') : Completes A d (d'.register env topic) := by
  unfold Driver.register
  split
  · exact h
  · refine h.trans (.of_still rfl (fun call hold => ?_) (.of_trace rfl))
    cases hold with
    | queued t channel push hr hm hc =>
      rw [record_setRecord_eq] at hr
      split at hr
      · cases hr
        cases hm
      · exact .queued t channel push hr hm hc
    | sent r hc => exact .sent r hc

theorem Completes.unregister (h : Completes A d d') : Completes A d (d'.unregister topic) := by
  let d₁ : Driver := { d'.stopChannel topic with
    state := { (d'.stopChannel topic).state with
      channels := (d'.stopChannel topic).state.channels.erase topic } }
  have herase : Completes A d d₁ := h.stopChannel.trans
    (.of_tables rfl (fun t channel hr => ⟨channel, Table.lookup_of_erase hr, List.Subset.refl _⟩) (fun _ _ hc => hc)
      (.of_trace rfl))
  exact herase.discardChannel

/-! ### Pushes

A push that is sent or queued is kept with what its command said. One that cannot be sent is
answered and reported. The queue alone refuses a call without a report. -/

/-- A call waits for its reply under the next reference. -/
theorem Completes.trackCall (h : Completes A d d') {id : RequestId} {event : String} {payload : Payload}
    {started : Duration} (hA : d.Called A → A ⟨id, topic, event, started⟩) :
    Completes A d (d'.trackCall topic id event payload started) where
  clock := h.clock
  called hall call hold := by
    cases hold with
    | queued t channel push hr hm hc => exact h.called hall call (.queued t channel push hr hm hc)
    | sent r hc =>
      have hc : (d'.state.pendingCalls.insert d'.state.protocol.nextText ⟨id, topic, event, started⟩)[r]? =
        some call := hc
      rw [Table.lookup_insert] at hc
      split at hc
      · cases hc
        exact hA hall
      · exact h.called hall call (.sent r hc)
  matched := h.matched

/-- A push is sent whose call, if it is one, is known. -/
theorem Completes.sendPush (h : Completes A d d') {push : QueuedPush}
    (hA : d.Called A → ∀ call, push.pending topic = some call → A call) :
    Completes A d (d'.sendPush env topic push).1 := by
  cases push_handled env d' topic push with
  | refusedCall id event payload started hb he =>
    rw [he]
    exact h.report fun hall => matched_answered (hA hall _ rfl) rfl
  | refusedCast id event payload hb he =>
    rw [he]
    exact h.answer (by decide)
  | notJoined push hj he =>
    rw [he]
    exact h
  | call id event payload started joinRef hb hj he =>
    rw [he]
    exact (h.trackCall fun hall => hA hall _ rfl).sendFrame
  | cast id event payload joinRef sent hb hj hs he =>
    rw [he, hs]
    exact h.sendFrame.answer (by decide)

/-- One push after the other goes from the queue to the transport, and each is reported if it ends there. -/
theorem Completes.flush (h : Completes A d d') : Completes A d (d'.flush env topic).1 := by
  refine h.trans (flush_induction (Completes.refl A) (fun _ _ _ => Completes.trans)
    (fun d channel push queued hr hq => ?_) d')
  have hm : push ∈ channel.queued := by
    rw [hq]
    exact List.mem_cons_self
  have hpop : Completes A d (d.setRecord topic { channel with queued }) :=
    (Completes.refl A d).setRecord hr (by rw [hq]; exact List.subset_cons_self ..)
  exact hpop.sendPush fun hall call hc => hall call (.queued topic channel push hr hm hc)

/-- The queue of a topic takes a push. -/
def queues (env : Env) (d : Driver) (topic : Topic) : Bool :=
  (d.record topic).any fun channel =>
    (!channel.everJoined || channel.desired) && decide (channel.queued.length < env.options.pushBufferCapacity)

/-- A call is queued, if the queue takes it; a cast may be refused. -/
theorem Completes.queue (h : Completes A d d') {push : QueuedPush}
    (hq : ∀ call, push.pending topic = some call → d'.queues env topic = true)
    (hA : d.Called A → ∀ call, push.pending topic = some call → A call) :
    Completes A d (d'.queue env topic push) := by
  rcases queue_cases env d' topic push with ⟨error, hno, he⟩ | ⟨channel, hr, -, -, he⟩
  · have hnot : ¬ d'.queues env topic = true := by
      intro hqueues
      obtain ⟨channel, hr, hc⟩ := (Option.any_eq_true ..).mp hqueues
      simp only [Bool.and_eq_true, Bool.or_eq_true, Bool.not_eq_true', decide_eq_true_eq] at hc
      rcases hno channel hr with ⟨hj, hd⟩ | hfull
      · simp [hj, hd] at hc
      · omega
    rw [he]
    cases push with
    | call => exact absurd (hq _ rfl) hnot
    | cast id event payload => exact h.answer ClientOperation.noConfusion
  · rw [he]
    refine ⟨h.clock, fun hall call hold => ?_, h.matched⟩
    cases hold with
    | sent r hc => exact h.called hall call (.sent r hc)
    | queued t channel' push' hr' hm hc =>
      rw [record_setRecord_eq] at hr'
      split at hr'
      · rename_i ht
        cases hr'
        rw [ht] at hc
        rcases List.mem_append.mp hm with hm | hm
        · exact h.called hall call (.queued topic channel push' hr hm hc)
        · rw [List.mem_singleton.mp hm] at hc
          exact hA hall call hc
      · exact h.called hall call (.queued t channel' push' hr' hm hc)

/-! ### Handlers

Every command, payload result and timer keeps the calls or completes them. What is asked of a
handler is that the call it was given is one that `A` knows. -/

variable {id : RequestId} {reference : Reference} {response : Payload}

/-- A push is sent, or waits in the queue of its topic. -/
theorem Completes.handlePush (h : Completes A d d') {push : QueuedPush}
    (hq : ∀ call, push.pending topic = some call →
      d'.state.protocol.channelState topic = some .joined ∨ d'.queues env topic = true)
    (hA : d.Called A → ∀ call, push.pending topic = some call → A call) :
    Completes A d (d'.handlePush env topic push).1 := by
  unfold Driver.handlePush
  split
  · exact h.sendPush hA
  · rename_i hn
    exact h.queue (fun call hc => (hq call hc).resolve_left hn) hA

theorem completes_accept (A : PendingCall → Prop) (d : Driver) (command : Command) :
    Completes A d (d.accept command) := by
  unfold accept
  split
  · exact (Completes.refl A d).emit ⟨rfl, rfl⟩
  · exact .refl A d

/-- A join is answered, or waits beside the queue. -/
theorem Completes.handleJoin (h : Completes A d d') {timeout : Duration} :
    Completes A d (d'.handleJoin id topic timeout) := by
  unfold Driver.handleJoin
  cases hr : d'.record topic with
  | none => exact h.answer (by decide)
  | some channel =>
    dsimp only
    split
    · exact (h.rewrite hr (by rfl)).answer (by decide)
    · exact (h.rewrite hr (by rfl)).loadPayload

theorem Completes.handlePing (h : Completes A d d') : Completes A d (d'.handlePing env id).1 := by
  have htrack : Completes A d (d'.trackPing id) := h.same rfl rfl rfl rfl
  exact htrack.sendFrame

/-- A heartbeat is no call. -/
theorem Completes.handleHeartbeat (h : Completes A d d') : Completes A d (d'.handleHeartbeat env).1 := by
  by_cases hh : d'.connection.heartbeatReference.isSome = true
  · rw [handleHeartbeat_of_some hh]
    exact h
  · rw [handleHeartbeat_of_none hh]
    have htrack : Completes A d d'.trackHeartbeat := h.same rfl rfl rfl rfl
    let frame : Frame := ⟨none, some d'.state.protocol.nextText, "phoenix", "heartbeat", .emptyObject⟩
    have hsend : Completes A d (d'.trackHeartbeat.sendFrame env [] frame).1 := htrack.sendFrame
    rcases hs : d'.trackHeartbeat.sendFrame env [] frame with ⟨d₁, _ | reason⟩
    · rw [hs] at hsend
      exact hsend.same rfl rfl rfl rfl
    · rw [hs] at hsend
      exact hsend

/-- A leave is no call. -/
theorem Completes.sendLeave (h : Completes A d d') {pending : PendingLeave} :
    Completes A d (d'.sendLeave env topic pending).1 := by
  cases hc : d'.state.protocol.joinedRef topic with
  | none =>
    obtain ⟨e, he⟩ := sendLeave_of_not_joined env pending hc
    rw [he]
    exact h.setProtocol
  | some joinRef =>
    obtain ⟨channel, hc, hs, -⟩ := Protocol.joinedRef_eq_some.mp hc
    rw [sendLeave_of_joined hc hs]
    have htrack : Completes A d (d'.trackLeave topic pending) := h.same rfl rfl rfl rfl
    exact htrack.sendFrame

/-- The calls in the queue end first, with a report each; what was sent goes on waiting for its reply. -/
theorem Completes.handleLeave (h : Completes A d d') {timeout : Duration} :
    Completes A d (d'.handleLeave env id topic timeout).1 := by
  have hstop : ∀ status, Completes A d ((d'.setStatus topic status).stopChannel topic) := fun status =>
    h.setStatus.stopChannel
  cases leave_handled env d' id topic timeout with
  | sent channel hc hs he =>
    rw [he]
    exact (hstop _).sendLeave
  | deferred channel hs hr he =>
    rw [he]
    exact (hstop _).rewrite hr (by rfl)
  | idle hs hj he =>
    rw [he]
    exact (hstop _).answer (by decide)

theorem Completes.unregisterConnected (h : Completes A d d') :
    Completes A d (d'.unregisterConnected env topic).1 := by
  by_cases hj : d'.state.protocol.channelState topic = some .joined
  · obtain ⟨c, hc, hs⟩ := Option.map_eq_some_iff.mp hj
    rw [unregisterConnected_of_joined hc hs]
    exact h.setProtocol.unregister.sendFrame
  · rw [unregisterConnected_of_not_joined hj]
    exact h.unregister

/-- A payload that cannot be loaded answers joins; one that can is sent with the next join. -/
theorem Completes.handlePayload (h : Completes A d d') {payloadId : UInt64} {payload : Except String Value} :
    Completes A d (d'.handlePayload env topic payloadId payload).1 := by
  cases payload_handled env d' topic payloadId payload with
  | ignored hi he =>
    rw [he]
    exact h
  | late channel hr ha hl he =>
    rw [he]
    exact h.rewrite hr (by rfl)
  | failed message channel hp hr ha he =>
    rw [he]
    exact ((h.rewrite hr (by rfl)).answers (by decide)).emitChannel
  | joined value channel d₁ hp hr ha hd hs hd₁ hs₁ he =>
    rw [he]
    have hfirst : Completes A d d₁ ∧ d₁.record topic = some channel := by
      rcases hd₁ with rfl | ⟨-, rfl⟩
      · exact ⟨h, hr⟩
      · exact ⟨h.discardChannel, hr⟩
    have hwrite : Completes A d (d₁.setRecord topic { channel.loaded with status := .joining }) :=
      hfirst.1.rewrite hfirst.2 (by rfl)
    have htrack : Completes A d (d₁.trackJoin topic value channel.loaded) := hwrite.same rfl rfl rfl rfl
    exact htrack.sendFrame

/-- A rejoin loads a payload, and ends no call. -/
theorem Completes.handleRejoin (h : Completes A d d') : Completes A d (d'.handleRejoin topic) := by
  unfold Driver.handleRejoin
  cases hr : d'.record topic with
  | none => exact h
  | some channel =>
    have hwrite : Completes A d (d'.setRecord topic { channel with rejoinScheduled := false }) :=
      h.rewrite hr (by rfl)
    dsimp only
    split
    · exact hwrite.loadPayload
    · exact hwrite

/-- The joins that waited are answered, which are no calls. -/
theorem Completes.joinTimedOut (h : Completes A d d') {duration : Duration} :
    Completes A d (d'.joinTimedOut env topic duration) := by
  cases hr : d'.record topic with
  | none =>
    rw [joinTimedOut_of_none hr]
    exact h.discardChannel
  | some channel =>
    have hr' : (d'.discardChannel topic).record topic = some channel := hr
    cases hp : channel.deferredLeave with
    | some pending =>
      rw [joinTimedOut_of_deferred hr hp]
      exact (h.discardChannel.rewrite hr' (by rfl)).answerLeave
    | none =>
      cases hd : channel.desired with
      | true =>
        rw [joinTimedOut_of_wanted hr hp hd]
        exact ((h.discardChannel.rewrite hr' (by rfl)).answers
          (by decide)).scheduleRejoin
      | false =>
        rw [joinTimedOut_of_unwanted hr hp hd]
        exact h.discardChannel.rewrite hr' (by rfl)

/-- The leave is answered, which is no call. -/
theorem Completes.leaveTimedOut (h : Completes A d d') {pending : PendingLeave} {duration : Duration} :
    Completes A d (d'.leaveTimedOut topic pending duration) := by
  cases hr : d'.record topic with
  | none =>
    rw [leaveTimedOut_of_none hr]
    exact h.answerLeave.discardChannel
  | some channel =>
    rw [leaveTimedOut_of_some hr]
    dsimp only
    split
    · exact h.answerLeave.discardChannel.setStatus.loadPayload
    · exact h.answerLeave.discardChannel.setStatus

/-- Deadlines are set for joins and leaves only. -/
theorem Completes.handleOperationTimeout (h : Completes A d d') (operation : OperationTimeout) :
    Completes A d (d'.handleOperationTimeout env operation) := by
  cases operation with
  | join topic reference duration =>
    simp only [Driver.handleOperationTimeout]
    split
    · exact h.eraseJoin.joinTimedOut
    · exact h.eraseJoin
  | leave topic reference duration =>
    simp only [Driver.handleOperationTimeout]
    split
    · exact h
    · exact h.eraseLeave.leaveTimedOut

/-! ### Events

A reply completes the call under its reference. A channel that ends completes all of its own. -/

/-- The queue of a channel that is joined is flushed, unless a leave was put off. -/
theorem Completes.onJoined (h : Completes A d d') : Completes A d (d'.onJoined env topic reference response).1 := by
  cases hr : d'.record topic with
  | none =>
    rw [onJoined_of_none hr]
    exact h.eraseJoin.emitChannel.flush
  | some channel =>
    have hr' : (d'.eraseJoin reference).record topic = some channel := hr
    have hwelcome : Completes A d (d'.welcome topic reference response channel) :=
      ((h.eraseJoin.rewrite hr' (by rfl)).answers (by decide)).emitChannel
    cases hp : channel.deferredLeave with
    | none =>
      rw [onJoined_of_not_deferred hr hp]
      exact hwelcome.flush
    | some pending =>
      rw [onJoined_of_deferred hr hp]
      exact hwelcome.sendLeave

/-- A refused join does not end the calls that wait in the queue. -/
theorem Completes.onJoinError (h : Completes A d d') :
    Completes A d (d'.onJoinError env topic reference response) := by
  cases hr : d'.record topic with
  | none =>
    rw [onJoinError_of_none hr]
    exact h.eraseJoin.emitChannel
  | some channel =>
    rw [onJoinError_of_some hr]
    have hr' : (d'.eraseJoin reference).record topic = some channel := hr
    have hwrite : Completes A d ((d'.eraseJoin reference).setRecord topic channel.refused) :=
      h.eraseJoin.rewrite hr' (by rfl)
    refine (hwrite.emitAll fun effect hm => ?_).emitChannel.scheduleRejoin
    rcases List.mem_append.mp hm with hm | hm
    · exact still_leaveAnswers hm
    · exact still_answers (by decide) hm

/-- The reply to a call completes it. -/
theorem Completes.onReply (h : Completes A d d') {event : String} {status : ReplyStatus} :
    Completes A d (d'.onReply topic event reference status response) := by
  cases hc : d'.state.pendingCalls[reference]? with
  | none =>
    rw [onReply_of_none hc]
    exact h.emitChannel
  | some call =>
    rw [onReply_of_some hc]
    have hsettled : Completes A d (d'.callSettled reference call status response) :=
      h.eraseCall.report fun hall => matched_answered (h.called hall call (.sent reference hc)) rfl
    exact hsettled.emitChannel

/-- After the acknowledgement of a leave at most a payload is loaded. -/
theorem Completes.onLeft (h : Completes A d d') : Completes A d (d'.onLeft topic reference response) := by
  have hsettled : Completes A d (d'.leaveSettled reference response) :=
    h.eraseLeave.emitAll fun _ hm => still_leaveAnswers hm
  cases hr : d'.record topic with
  | none =>
    rw [onLeft_of_none hr]
    exact hsettled.emitChannel
  | some channel =>
    have hr' : (d'.leaveSettled reference response).record topic = some channel := hr
    rw [onLeft_of_some hr]
    split
    · exact (hsettled.rewrite hr' (by rfl)).emitChannel.loadPayload
    · exact (hsettled.rewrite hr' (by rfl)).emitChannel

/-- The reply to a heartbeat answers pings only. -/
theorem Completes.onHeartbeatAck (h : Completes A d d') : Completes A d (d'.onHeartbeatAck reference) := by
  unfold Driver.onHeartbeatAck
  split
  · exact h.same rfl rfl rfl rfl
  · cases d'.state.pendingPings[reference]? with
    | none => exact h
    | some ping =>
      have herase : Completes A d
          { d' with state := { d'.state with pendingPings := d'.state.pendingPings.erase reference } } :=
        h.same rfl rfl rfl rfl
      exact herase.answer (by decide)

theorem Completes.onChannelClosed (h : Completes A d d') {payload : Payload} :
    Completes A d (d'.onChannelClosed topic payload) := by
  unfold Driver.onChannelClosed
  dsimp only
  split
  · rename_i channel hr
    exact (h.forgetJoins.rewrite hr (by rfl)).emitChannel.stopChannel
  · exact h.forgetJoins.emitChannel.stopChannel

/-- Of the events that a frame can mean, replies and the end of a channel are those that end calls. -/
theorem Completes.handleEvent (h : Completes A d d') (event : ProtocolEvent) :
    Completes A d (d'.handleEvent env event).1 := by
  cases event with
  | joined topic reference response => exact h.onJoined
  | joinError topic reference response => exact h.onJoinError
  | reply topic name reference status response => exact h.onReply
  | left topic reference response => exact h.onLeft
  | heartbeatAck reference status => exact h.onHeartbeatAck
  | channelError topic payload => exact h.forgetJoins.setStatus.emitChannel.scheduleRejoin
  | channelClosed topic payload => exact h.onChannelClosed
  | message frame | staleMessage frame | unmatchedReply frame => exact h.emitChannel
  | requestInterrupted topic name reference => exact h.emitChannel

/-- A message that cannot be decoded ends the connection and no call yet. -/
theorem Completes.handleIncoming (h : Completes A d d') (message : WireMessage) :
    Completes A d (d'.handleIncoming env message).1 := by
  cases hd : env.codec.decode message with
  | error e =>
    simp only [Driver.handleIncoming, hd]
    exact h
  | ok frame =>
    have hreport : Completes A d (d'.telemetry (.frameReceived frame.topic frame.event message.metadata.1
        message.metadata.2)) := h.emit ⟨rfl, rfl⟩
    simp only [Driver.handleIncoming, hd, handleFrame]
    split
    · exact hreport.setProtocol
    · exact hreport.setProtocol.handleEvent _

/-- A join acknowledgement is reported after its event was handled. -/
theorem Completes.onMessage (h : Completes A d d') (message : WireMessage) :
    Completes A d (d'.onMessage env message).1 := by
  have hincoming : Completes A d (d'.handleIncoming env message).1 := h.handleIncoming message
  unfold Driver.onMessage
  dsimp only
  rcases hi : d'.handleIncoming env message with ⟨d₁, _ | reason⟩
  · rw [hi] at hincoming
    simp only [Result.andThen]
    split
    · exact hincoming.same rfl rfl rfl rfl
    · exact hincoming
  · rw [hi] at hincoming
    exact hincoming

/-! ### Cancellation

A cancelled call is completed without an answer, be it queued or sent. -/

theorem Completes.cancelJoin (h : Completes A d d') (hr : d'.record topic = some channel) :
    Completes A d (d'.cancelJoin topic channel id) := by
  by_cases hl : channel.joinWaiters.erase id = [] ∧ channel.everJoined = false
  · rw [cancelJoin_of_last hl.1 hl.2]
    exact ((h.rewrite hr (by rfl)).emit ⟨rfl, rfl⟩).forgetJoins.discardChannel
  · rw [cancelJoin_of_others hl]
    exact (h.rewrite hr (by rfl)).emit ⟨rfl, rfl⟩

/-- A call that waits in a queue is cancelled and reported. -/
theorem Completes.cancelUnsent (h : Completes A d d') (hr : d'.record topic = some channel) :
    Completes A d (d'.cancelUnsent topic channel id) := by
  cases d'.cancelUnsent_cases topic channel id with
  | leave pending hd hid he =>
    rw [he]
    refine Completes.emitAll (h.rewrite hr (by rfl)) fun effect hm => ?_
    rw [List.mem_singleton.mp (List.mem_ite_nil_right.mp hm).2]
    exact ⟨rfl, rfl⟩
  | push push hf he =>
    have hwrite : Completes A d (d'.setRecord topic { channel with
        queued := removeQueued id channel.queued }) := h.setRecord hr (removeQueued_sublist id _).subset
    have hm : push ∈ channel.queued := List.mem_of_find?_eq_some hf
    rw [he]
    cases push with
    | call id event payload started =>
      refine hwrite.report fun hall => ?_
      have hA : A ⟨id, topic, event, started⟩ := h.called hall _ (.queued topic channel _ hr hm rfl)
      exact matched_cancelled hA
    | cast id event payload => exact hwrite.emit ⟨rfl, rfl⟩
  | nothing hd hq he =>
    rw [he]
    exact h

/-- A call whose frame was sent is cancelled and reported. -/
theorem Completes.cancelCall (h : Completes A d d') : Completes A d (d'.cancelCall id) := by
  rcases cancelCall_cases d' id with hcancel | ⟨reference, call, hc, hid, hcancel⟩
  · rw [hcancel]
    exact h
  · rw [hcancel, ← hid]
    exact (h.eraseCall.report fun hall => matched_cancelled (h.called hall call (.sent reference hc))).setProtocol

/-- A ping is no call. -/
theorem Completes.cancelPing (h : Completes A d d') : Completes A d (d'.cancelPing id) := by
  rcases cancelPing_cases d' id with hcancel | ⟨reference, ping, -, -, hcancel⟩
  · rw [hcancel]
    exact h
  · rw [hcancel]
    have herase : Completes A d
        { d' with state := { d'.state with pendingPings := d'.state.pendingPings.erase reference } } :=
      h.same rfl rfl rfl rfl
    exact (herase.emit ⟨rfl, rfl⟩).setProtocol

/-- A leave is no call. -/
theorem Completes.cancelLeave (h : Completes A d d') : Completes A d (d'.cancelLeave id) := by
  rcases cancelLeave_cases d' id with hcancel | ⟨reference, leave, -, -, hcancel⟩
  · rw [hcancel]
    exact h
  · rw [hcancel]
    have hmark : Completes A d { d' with state := { d'.state with
        pendingLeaves := d'.state.pendingLeaves.insert reference { leave with response := false } } } :=
      h.same rfl rfl rfl rfl
    refine hmark.emitAll fun effect hm => ?_
    split at hm
    · rw [List.mem_singleton.mp hm]
      exact ⟨rfl, rfl⟩
    · cases hm

/-- A cancelled call is looked for in the queues and in the table; it is reported where it is found. -/
theorem Completes.cancel (h : Completes A d d') : Completes A d (d'.cancel id) := by
  cases d'.cancel_found id with
  | join topic channel hr hm he =>
    rw [he]
    exact h.cancelJoin hr
  | unsent topic channel hr hm he =>
    rw [he]
    exact h.cancelUnsent hr
  | pending hj hq he =>
    rw [he]
    exact h.cancelCall.cancelPing.cancelLeave

/-! ### Connections

A lost connection interrupts the calls that were sent and leaves the queued ones. -/

/-- A lost connection interrupts the calls in flight; those that are queued wait for the next one. -/
theorem Completes.onDisconnect (h : Completes A d d') {reason : DisconnectReason} :
    Completes A d (d'.onDisconnect reason) := by
  obtain ⟨reports, hreports, he⟩ := onDisconnect_reports still_channelEffects d' reason ⟨rfl, rfl⟩ ⟨rfl, rfl⟩
  rw [he]
  refine h.trans ⟨rfl, fun hall call hold => ?_, fun hall => ⟨_, rfl, ?_⟩⟩
  · cases hold with
    | queued t channel push hr hm hc =>
      obtain ⟨channel', hr', rfl⟩ := Table.lookup_of_map hr
      exact hall call (.queued t channel' push hr' hm hc)
    | sent r hc => exact absurd hc Table.not_lookup_empty
  · exact (matched_interruptions fun r call hc => hall call (.sent r hc)).append (.of_still hreports)

theorem Completes.emitSocket (h : Completes A d d') {event : SocketEvent} :
    Completes A d (d'.emitSocket event) := by
  refine h.trans (.of_tables rfl (fun t channel hr => ?_) (fun _ _ hc => hc)
    ((Emits.refl _ d').emitSocket ⟨rfl, rfl⟩ ⟨rfl, rfl⟩))
  rw [emitSocket_record, Option.map_eq_some_iff] at hr
  obtain ⟨channel', hr, rfl⟩ := hr
  exact ⟨channel', hr, List.Subset.refl _⟩

theorem Completes.afterFailure (h : Completes A d d') {reason : DisconnectReason} :
    Completes A d (d'.afterFailure env reason) := by
  have hattempt : Completes A d { d' with attempt := nextAttempt d'.attempt } := h.same rfl rfl rfl rfl
  unfold Driver.afterFailure
  dsimp only
  split
  · exact hattempt.emitSocket.same rfl rfl rfl rfl
  · exact hattempt.emitSocket.same rfl rfl rfl rfl

theorem Completes.settle {r : Result} (h : Completes A d r.1) : Completes A d (settle env r) := by
  rcases r with ⟨d', _ | reason⟩
  · exact h
  · exact h.onDisconnect.afterFailure

theorem Completes.acknowledge (h : Completes A d d') : Completes A d d'.acknowledge := h.emit ⟨rfl, rfl⟩

theorem Completes.disconnect (h : Completes A d d') : Completes A d d'.disconnect :=
  h.onDisconnect.acknowledge.same rfl rfl rfl rfl

theorem Completes.close (h : Completes A d d') : Completes A d d'.close := h.emitSocket.same rfl rfl rfl rfl

theorem Completes.attemptFinished (h : Completes A d d') {started : Duration} {connected : Bool} :
    Completes A d (d'.attemptFinished started connected) :=
  h.emit ⟨rfl, rfl⟩

theorem Completes.connectFailed (h : Completes A d d') {started : Duration} {error : TransportError} :
    Completes A d (d'.connectFailed env started error) :=
  h.attemptFinished.emitSocket.afterFailure

theorem Completes.beginConnect (h : Completes A d d') : Completes A d (d'.beginConnect env) :=
  h.emitSocket.same rfl rfl rfl rfl

/-- A new connection finds the queues as they were. -/
theorem Completes.connectionMade (h : Completes A d d') {started : Duration} {transport : Transport}
    {order : List Topic} : Completes A d (d'.connectionMade env started transport order) := by
  have hconnected : Completes A d (d'.connected env started transport) := by
    refine h.trans (.of_tables rfl (fun t channel hr => ?_) (fun _ _ hc => hc) ⟨_, rfl, ?_⟩)
    · rw [connected_record, Option.map_eq_some_iff] at hr
      obtain ⟨channel', hr, rfl⟩ := hr
      exact ⟨channel', hr, List.Subset.refl _⟩
    · simp [Effect.Still, Effect.ending, Effect.completion]
  exact connectionMade_induction (Completes A d) hconnected fun d₁ topic h => h.setStatus.loadPayload

end

/-! ### Steps

A call command is answered at once when the queue does not take it, and then nothing is reported:
these are the steps in which an end and a report part. -/

section
variable {A : PendingCall → Prop} {env : Env} {d d' : Driver} {input : Input}

/-- The calls that an input may make. -/
def Calls (A : PendingCall → Prop) (input : Input) : Prop :=
  ∀ id topic event payload started, input = .command (.call id topic event payload started) →
    A ⟨id, topic, event, started⟩

/-- A call that arrives is sent or queued. -/
def takesCalls (env : Env) (d : Driver) : Input → Bool
  | .command (.call _ topic _ _ _) =>
    (d.phase = .connected && d.state.protocol.channelState topic = some .joined) || d.queues env topic
  | _ => true

theorem accept_queues (command : Command) (topic : Topic) :
    (d.accept command).queues env topic = d.queues env topic := by
  unfold accept
  split
  · rfl
  · rfl

/-- A connected driver sends a call, or puts it in the queue as long as that has room. -/
theorem completes_command {command : Command} (hA : Calls A (.command command))
    (hq : d.takesCalls env (.command command) = true) :
    Completes A d ((d.accept command).handleConnectedCommand env command).1 := by
  have haccept := completes_accept A d command
  cases command with
  | connect | disconnect | subscribe | shutdown => exact haccept
  | subscribeChannel topic => exact haccept
  | ping id => exact haccept.handlePing
  | join id topic timeout => exact haccept.handleJoin
  | leave id topic timeout => exact haccept.handleLeave
  | cast id topic event payload => exact haccept.handlePush nofun nofun
  | call id topic event payload started =>
    refine haccept.handlePush (fun call _ => ?_) fun _ call hc => ?_
    · rw [accept_protocol, accept_queues]
      simp only [takesCalls, Bool.or_eq_true, Bool.and_eq_true, decide_eq_true_eq] at hq
      exact hq.imp_left And.right
    · cases hc
      exact hA id topic event payload started rfl

/-- Without a connection a call is queued, and every other request is refused or waits. -/
theorem completes_offlineCommand {command : Command} (hp : d.phase ≠ .connected) (hA : Calls A (.command command))
    (hq : d.takesCalls env (.command command) = true) :
    Completes A d ((d.accept command).handleOfflineCommand env command) := by
  have haccept := completes_accept A d command
  cases command with
  | connect | disconnect | subscribe | shutdown => exact haccept
  | subscribeChannel topic => exact haccept
  | ping id => exact haccept.answer (by decide)
  | join id topic timeout =>
    simp only [handleOfflineCommand]
    split
    · rename_i channel hr
      exact haccept.rewrite hr (by rfl)
    · exact haccept.answer (by decide)
  | leave id topic timeout => exact haccept.setStatus.stopChannel.answer (by decide)
  | cast id topic event payload => exact haccept.queue (by simp [QueuedPush.pending]) (by simp [QueuedPush.pending])
  | call id topic event payload started =>
    refine haccept.queue (fun call _ => ?_) fun _ call hc => ?_
    · rw [accept_queues]
      simpa only [takesCalls, hp, decide_false, Bool.false_and, Bool.false_or] using hq
    · cases hc
      exact hA id topic event payload started rfl

theorem completes_lifecycle (command : LifecycleCommand) :
    Completes A d (d.handleConnectedLifecycle env command).1 ∧
      Completes A d (d.handleOfflineLifecycle env command) := by
  have hrefl := Completes.refl A d
  cases command with
  | register topic => exact ⟨hrefl.register, hrefl.register⟩
  | unregister topic => exact ⟨hrefl.unregisterConnected, hrefl.unregister⟩
  | cancel id => exact ⟨hrefl.cancel, hrefl.cancel⟩

/-- One case for each thing that a connected driver wakes up for. -/
theorem ConnectedStep.completes (hs : ConnectedStep env d input d') (hA : Calls A input)
    (hq : d.takesCalls env input = true) : Completes A d d' := by
  have hrefl := Completes.refl A d
  cases hs with
  | lifecycle command => exact (completes_lifecycle command).1.settle
  | command command => exact (completes_command hA hq).settle
  | acknowledge => exact hrefl.acknowledge
  | disconnect => exact hrefl.disconnect
  | close => exact hrefl.acknowledge.close.same rfl rfl rfl rfl
  | lost input hi reason =>
    have hlost : Completes A d (d, some reason).1 := hrefl
    exact hlost.settle
  | message message => exact (hrefl.onMessage message).settle
  | heartbeat => exact hrefl.handleHeartbeat.settle
  | payload topic payloadId result hm =>
    have htake : Completes A d (d.takePayload topic payloadId) := hrefl.same rfl rfl rfl rfl
    exact htake.handlePayload.settle
  | rejoin timer hm =>
    have htake : Completes A d (d.takeRejoin timer) := hrefl.same rfl rfl rfl rfl
    exact htake.handleRejoin
  | operationTimeout timer hm =>
    have htake : Completes A d (d.takeOperationTimeout timer) := hrefl.same rfl rfl rfl rfl
    exact htake.handleOperationTimeout timer.value

/-- An idle driver takes commands only. -/
theorem completes_idle (h : d.stepIdle env input = some d') (hp : d.phase ≠ .connected) (hA : Calls A input)
    (hq : d.takesCalls env input = true) : Completes A d d' := by
  have hrefl := Completes.refl A d
  unfold stepIdle at h
  split at h <;> cases h
  · exact (completes_lifecycle _).2
  · exact hrefl.close
  · exact hrefl.close
  · have hattempt : Completes A d { d.acknowledge with attempt := 0 } := hrefl.acknowledge.same rfl rfl rfl rfl
    exact hattempt.beginConnect
  · exact hrefl.acknowledge
  · exact hrefl.acknowledge.close
  · exact completes_offlineCommand hp hA hq

/-- An attempt that is made keeps the queues, and one that fails does too. -/
theorem completes_connecting {started due : Duration} (h : d.stepConnecting env started due input = some d')
    (hp : d.phase ≠ .connected) (hA : Calls A input) (hq : d.takesCalls env input = true) : Completes A d d' := by
  have hrefl := Completes.refl A d
  unfold stepConnecting at h
  split at h
  · cases h
    exact (completes_lifecycle _).2
  · cases h
    exact hrefl.close
  · cases h
    exact hrefl.close
  · split at h
    · cases h
      exact hrefl.connectionMade
    · cases h
  · cases h
    exact hrefl.connectFailed
  · split at h
    · cases h
      exact hrefl.connectFailed
    · cases h
  · cases h
    exact hrefl.acknowledge
  · cases h
    exact hrefl.attemptFinished.disconnect
  · cases h
    exact hrefl.attemptFinished.acknowledge.close
  · cases h
    exact completes_offlineCommand hp hA hq
  · cases h

/-- The delay before the next attempt changes no queue. -/
theorem completes_waiting {due : Duration} (h : d.stepWaiting env due input = some d') (hp : d.phase ≠ .connected)
    (hA : Calls A input) (hq : d.takesCalls env input = true) : Completes A d d' := by
  have hrefl := Completes.refl A d
  unfold stepWaiting at h
  split at h
  · cases h
    exact (completes_lifecycle _).2
  · cases h
    exact hrefl.close
  · cases h
    exact hrefl.close
  · split at h
    · cases h
      exact hrefl.beginConnect
    · cases h
  · cases h
    exact hrefl.acknowledge
  · cases h
    exact hrefl.disconnect
  · cases h
    exact hrefl.acknowledge.close
  · cases h
    exact completes_offlineCommand hp hA hq
  · cases h

/-- **What is not queued is refused**, and the refusal is not reported. -/
theorem queue_refused {push : QueuedPush} (hq : ¬ d.queues env topic = true) :
    ∃ error, d.queue env topic push = d.answer push.operation push.id (.error error) := by
  rcases queue_cases env d topic push with ⟨error, -, he⟩ | ⟨channel, hr, hwanted, hroom, -⟩
  · exact ⟨error, he⟩
  · refine absurd ?_ hq
    simp only [queues, hr, Option.any_some, hroom, decide_true, Bool.and_true]
    cases hj : channel.everJoined with
    | false => rfl
    | true => simpa [hj] using hwanted

/-- A call that is neither sent nor queued ends in its step, without a report. -/
theorem refused_call {id : RequestId} {event : String} {payload : Payload} {started : Duration}
    (hs : d.step env (.command (.call id topic event payload started)) = some d')
    (hq : ¬ d.takesCalls env (.command (.call id topic event payload started)) = true) :
    ∃ error, d.done d' = [.accepted .call id, .answered .call id (.error error)] := by
  simp only [takesCalls, Bool.or_eq_true, Bool.and_eq_true, decide_eq_true_eq, not_or, not_and] at hq
  obtain ⟨hjoined, hqueue⟩ := hq
  let command : Command := .call id topic event payload started
  have hqueue : ¬ (d.accept command).queues env topic = true := by
    rw [accept_queues]
    exact hqueue
  obtain ⟨error, he⟩ : ∃ error, (d.accept command).queue env topic (.call id event payload started) =
      (d.accept command).answer .call id (.error error) := queue_refused hqueue
  have hdone : d' = (d.accept command).queue env topic (.call id event payload started) →
      ∃ error, d.done d' = [.accepted .call id, .answered .call id (.error error)] := by
    intro hd
    rw [hd, he]
    exact ⟨error, done_of_append (List.append_assoc ..)⟩
  cases stepped hs with
  | tick elapsed hi _ => cases hi
  | dropped topic hi _ => cases hi
  | offline hc ho hs =>
    cases hs with
    | command => exact hdone rfl
    | acknowledge _ hc => cases hc
    | close _ hi | connect _ hi | failed _ hi => cases hi
  | connected hp hs =>
    cases hs with
    | command =>
      have hjoined : ¬ (d.accept command).state.protocol.channelState topic = some .joined := by
        rw [accept_protocol]
        exact hjoined hp
      have hpush : (d.accept command).handleConnectedCommand env command =
          ((d.accept command).queue env topic (.call id event payload started), none) := if_neg hjoined
      exact hdone (congrArg (settle env) hpush)
    | lost _ hi => cases hi

/-- **What a step does to calls**: those that end are reported, and none is kept that did not come. -/
theorem matched_step (hs : d.step env input = some d') (hA : Calls A input) (hq : d.takesCalls env input = true)
    (hall : d.Called A) : d'.Called A ∧ ∃ effects, d'.trace = d.trace ++ effects ∧ Matched A d.clock effects := by
  have hkept : Completes A d d' → d'.Called A ∧ ∃ effects, d'.trace = d.trace ++ effects ∧
      Matched A d.clock effects := fun h => ⟨h.called hall, h.matched hall⟩
  unfold step at hs
  split at hs
  · cases hs
    refine ⟨fun call hold => hall call (hold.of_state rfl), [], (List.append_nil _).symm, ?_⟩
    exact .of_still (List.forall_mem_nil _)
  · cases hs
    exact hkept (Completes.refl A d).setStatus
  · split at hs <;> rename_i hp
    · exact hkept (completes_idle hs (by rw [hp]; nofun) hA hq)
    · exact hkept (completes_connecting hs (by rw [hp]; nofun) hA hq)
    · exact hkept ((ConnectedStep.of_connected hs).completes hA hq)
    · exact hkept (completes_waiting hs (by rw [hp]; nofun) hA hq)
    · cases hs

end

/-! ### Runs

By induction over the inputs: the reports of a run are about calls that its commands made, each with
the topic, the event and the start it was made with. -/

/-- A call that the inputs make, with its start. -/
def CalledIn (inputs : List Input) (call : PendingCall) : Prop :=
  ∃ payload, .command (.call call.id call.topic call.event payload call.started) ∈ inputs

/-- The ids of the calls among requests. -/
def callIds (requests : List Request) : List RequestId :=
  requests.filterMap fun request => if request.1 = .call then some request.2 else none

/-- The reports of completed calls are those of the calls that ended: in the same order, each with the
outcome of its answer and the time since its start. -/
def CallsReported (inputs : List Input) (effects : List Effect) : Prop :=
  ∃ ended : List (PendingCall × CallOutcome × Duration),
    endings effects = ended.map (fun entry => (entry.1.id, some entry.2.1)) ∧
      completions effects = ended.map (fun entry => entry.1.completed entry.2.2 entry.2.1) ∧
        ∀ entry ∈ ended, CalledIn inputs entry.1

/-- The calls of a run, each of which is kept or has ended and was reported. -/
structure CallsAccounted (inputs : List Input) (d : Driver) : Prop where
  /-- The calls taken are those whose response is still held and those that ended. -/
  taken : (callIds d.owed ++ (endings d.trace).map Prod.fst).Perm (callIds (inputs.filterMap Input.request))
  /-- No call ends twice, and none that ended is still held. -/
  once : (callIds d.owed ++ (endings d.trace).map Prod.fst).Nodup
  reported : CallsReported inputs d.trace

section
variable {env : Env} {d d' : Driver} {inputs inputs' : List Input} {input : Input} {effects : List Effect}
  {call : PendingCall}

theorem CalledIn.mono (h : CalledIn inputs call) (hsub : inputs ⊆ inputs') : CalledIn inputs' call := by
  obtain ⟨payload, hm⟩ := h
  exact ⟨payload, hsub hm⟩

theorem calls_of_mem (hm : input ∈ inputs) : Calls (CalledIn inputs) input := by
  rintro id topic event payload started rfl
  exact ⟨payload, hm⟩

/-- The calls that end are those that are settled. -/
theorem endings_settled (effects : List Effect) : (endings effects).map Prod.fst = callIds (settled effects) := by
  induction effects with
  | nil => rfl
  | cons effect rest ih =>
    have hone : (effect.ending.toList.map Prod.fst) = callIds effect.settles := by
      cases effect with
      | answered operation id result => cases operation <;> rfl
      | cancelled operation id => cases operation <;> rfl
      | _ => rfl
    have hcons : endings (effect :: rest) = effect.ending.toList ++ endings rest := by
      rw [endings, endings, List.filterMap_cons]
      cases effect.ending <;> rfl
    rw [hcons, List.map_append, hone, ih, settled_cons, callIds, callIds, callIds, List.filterMap_append]

/-- Reports of two stretches of a run come one after the other. -/
theorem CallsReported.append (h : CallsReported inputs effects) (hsub : inputs ⊆ inputs') {clock : Duration}
    {effects' : List Effect} (hm : Matched (CalledIn inputs') clock effects') :
    CallsReported inputs' (effects ++ effects') := by
  obtain ⟨ended, he, hc, hA⟩ := h
  obtain ⟨ended', he', hc', hA'⟩ := hm
  refine ⟨ended ++ ended'.map fun entry => (entry.1, entry.2, clock), ?_, ?_, fun entry hm => ?_⟩
  · rw [endings_append, he, he', List.map_append, List.map_map]
    rfl
  · rw [completions_append, hc, hc', List.map_append, List.map_map]
    rfl
  · rcases List.mem_append.mp hm with hm | hm
    · exact (hA entry hm).mono hsub
    · obtain ⟨entry', hm', rfl⟩ := List.mem_map.mp hm
      exact hA' entry' hm'

/-- At the start no call is kept, and none has ended. -/
theorem called_start (env : Env) (A : PendingCall → Prop) :
    (start env).Called A ∧ ∃ effects, (start env).trace = [] ++ effects ∧ Matched A 0 effects := by
  let d : Driver := ⟨.new, .none, .idle, 0, 0, ⟨true, []⟩, []⟩
  have hnone : d.Called A := by
    intro call hold
    cases hold with
    | queued t channel push hr => exact absurd hr Table.not_lookup_empty
    | sent r hc => exact absurd hc Table.not_lookup_empty
  have hstart : Completes A d (start env) := by
    unfold start
    dsimp only
    split
    · exact (Completes.refl A d).beginConnect
    · exact .refl A d
  exact ⟨hstart.called hnone, hstart.matched hnone⟩

/-- **What a run does to calls.** -/
theorem reported_run (inputs : List Input) (d : Driver)
    (hr : ((driver env).guarded (takesCalls env)).run (driver env).start inputs = some d) :
    d.Called (CalledIn inputs) ∧ CallsReported inputs d.trace := by
  induction inputs using List.reverseRecOn generalizing d with
  | nil =>
    cases hr
    obtain ⟨hcalled, effects, ht, hm⟩ := called_start env (CalledIn [])
    have hreported : CallsReported [] ([] ++ effects) :=
      CallsReported.append ⟨[], rfl, rfl, List.forall_mem_nil _⟩ (List.Subset.refl _) hm
    exact ⟨hcalled, by rw [← ht] at hreported; exact hreported⟩
  | append_singleton inputs input ih =>
    obtain ⟨d₁, hrun, hs⟩ := Machine.run_concat.mp hr
    obtain ⟨hq, hs⟩ := Machine.guarded_step.mp hs
    obtain ⟨hcalled, hreported⟩ := ih d₁ hrun
    have hsub : inputs ⊆ inputs ++ [input] := List.subset_append_left ..
    obtain ⟨hcalled, effects, ht, hm⟩ := matched_step hs (calls_of_mem (List.mem_append_right _ List.mem_cons_self))
      hq fun call hold => (hcalled call hold).mono hsub
    rw [ht]
    exact ⟨hcalled, hreported.append hsub hm⟩

/-- The ids of the calls are some of those of all requests. -/
theorem callIds_sublist (requests : List Request) : (callIds requests).Sublist (requests.map Prod.snd) := by
  induction requests with
  | nil => exact .slnil
  | cons request rest ih =>
    rw [callIds, List.filterMap_cons, List.map_cons]
    split
    · exact ih.cons _
    · rename_i id hid
      simp only [Option.ite_none_right_eq_some] at hid
      cases hid.2
      exact ih.cons_cons _

/-- A call that was accepted is owed or settled, and where it is settled that was reported. -/
theorem Conserved.callsAccounted (h : Conserved inputs d) (hids : (requests inputs).Nodup)
    (hreported : CallsReported inputs d.trace) : CallsAccounted inputs d := by
  have htaken : (callIds d.owed ++ (endings d.trace).map Prod.fst).Perm
      (callIds (inputs.filterMap Input.request)) := by
    have hperm := h.settled.filterMap fun request => if request.1 = .call then some request.2 else none
    rw [h.taken, List.filterMap_append] at hperm
    rw [endings_settled]
    exact hperm
  refine ⟨htaken, htaken.nodup_iff.mpr ?_, hreported⟩
  rw [requests_eq] at hids
  exact hids.sublist (callIds_sublist _)

end

/-- **Every call is accounted for once**: as long as the calls that arrive are sent or queued, and
references are new, each is kept with its response or has ended once, and the step that ends it reports it
with the outcome of its answer. -/
theorem calls_completed_once (env : Env) (inputs : List Input) (d : Driver)
    (hr : ((driver env).guarded (takesCalls env)).run (driver env).start inputs = some d)
    (hids : (requests inputs).Nodup) (hp : d.phase ≠ .closed) (hb : d.state.protocol.allocated < 2 ^ 64) :
    CallsAccounted inputs d ∧ ∀ (before : List Input) (input : Input) (d₀ : Driver),
      inputs = before ++ [input] → (driver env).run (driver env).start before = some d₀ →
        Matched (CalledIn inputs) d₀.clock (d₀.done d) := by
  have hrun := Machine.run_of_guarded hr
  have hconserved := (balanced_run inputs d hrun hids hp hb).conserved hids hrun
  refine ⟨hconserved.callsAccounted hids (reported_run inputs d hr).2, ?_⟩
  rintro before input d₀ rfl hr₀
  obtain ⟨d₁, hr₁, hs⟩ := Machine.run_concat.mp hr
  cases hr₀.symm.trans (Machine.run_of_guarded hr₁)
  obtain ⟨hq, hs⟩ := Machine.guarded_step.mp hs
  have hcalled := (reported_run before d₀ hr₁).1
  obtain ⟨-, effects, ht, hm⟩ := matched_step hs (calls_of_mem (List.mem_append_right _ List.mem_cons_self))
    hq fun call hold => (hcalled call hold).mono (List.subset_append_left ..)
  rw [done_of_append ht]
  exact hm

/-- A call of a joined channel is answered, and its completion reported. -/
theorem calls_completed_once_reply :
    ∃ d₀ d : Driver, (d.owed = [] ∧ endings d.trace = [(2, some (.reply .ok))]) ∧
      CallsAccounted (joining ++ [.frame (replyFrame "ok" "room" "1" "1"),
        .command (.call 2 "room" "shout" .emptyObject 0), .frame (replyFrame "ok" "room" "1" "2")]) d ∧
      Matched (CalledIn (joining ++ [.frame (replyFrame "ok" "room" "1" "1"),
        .command (.call 2 "room" "shout" .emptyObject 0), .frame (replyFrame "ok" "room" "1" "2")]))
        d₀.clock (d₀.done d) := by
  let env := smallEnv [replyFrame "ok" "room" "1" "1", replyFrame "ok" "room" "1" "2"]
  let before := joining ++ [.frame (replyFrame "ok" "room" "1" "1"),
    .command (.call 2 "room" "shout" .emptyObject 0)]
  obtain ⟨d, hr, hd⟩ := (Option.any_eq_true _ _).mp
    (show (((driver env).guarded (takesCalls env)).run (driver env).start
        (before ++ [.frame (replyFrame "ok" "room" "1" "2")])).any (fun d =>
      (d.owed = [] ∧ endings d.trace = [(2, some (.reply .ok))]) ∧ d.phase = .connected ∧
        d.state.protocol.allocated < 2 ^ 64) = true by decide +kernel)
  obtain ⟨hended, hphase, hb⟩ := of_decide_eq_true hd
  obtain ⟨d₀, hr₀, -⟩ := Machine.run_append.mp (Machine.run_of_guarded hr)
  obtain ⟨haccounted, hmatched⟩ := calls_completed_once env _ d hr (by decide) (by rw [hphase]; nofun) hb
  exact ⟨d₀, d, hended, haccounted, hmatched before _ d₀ rfl hr₀⟩

/-- A call of a channel that was left is refused, and nothing is reported. -/
theorem refused_call_unreported :
    ¬ ∀ (env : Env) (inputs : List Input) (d : Driver),
      (driver env).run (driver env).start inputs = some d → (requests inputs).Nodup → d.phase ≠ .closed →
      d.state.protocol.allocated < 2 ^ 64 → CallsAccounted inputs d := by
  intro hall
  let env := smallEnv [replyFrame "ok" "room" "1" "1", replyFrame "ok" "room" "1" "2"]
  let inputs := joining ++ [.frame (replyFrame "ok" "room" "1" "1"), .command (.leave 2 "room" 10),
    .frame (replyFrame "ok" "room" "1" "2"), .command (.call 3 "room" "shout" .emptyObject 0)]
  obtain ⟨d, hr, hd⟩ := (Option.any_eq_true _ _).mp
    (show ((driver env).run (driver env).start inputs).any (fun d =>
      d.phase = .connected ∧ d.state.protocol.allocated < 2 ^ 64 ∧
        endings d.trace = [(3, some .rejected)] ∧ completions d.trace = []) = true by decide +kernel)
  obtain ⟨hphase, hb, hended, hnone⟩ := of_decide_eq_true hd
  obtain ⟨-, -, ended, he, hc, -⟩ := hall env inputs d hr (by decide) (by rw [hphase]; nofun) hb
  rw [hended] at he
  rw [hnone] at hc
  cases List.map_eq_nil_iff.mp hc.symm
  cases he

end Driver
end PhoenixChannel.Client
