import PhoenixChannel.Client.Honoring

/-! How requests are settled: by deadlines, by frames, by cancellations and by the end of the
connection. -/
namespace PhoenixChannel.Client
open PhoenixChannel.Runtime Library
open Protocol (Move Moves)

namespace Driver

section
variable {L : Effect → Prop} {given : List Request} {topic : Topic} (env : Env) (d : Driver)

/-! ### Deadlines

The deadline of a join answers all its waiters, and the deadline of a leave answers the leave. -/

theorem honors_handleRejoin : Honors L [] d (d.handleRejoin topic) := by
  unfold handleRejoin
  cases hr : d.record topic with
  | none => exact .refl L d
  | some channel =>
    have hset : Honors L [] d (d.setRecord topic { channel with rejoinScheduled := false }) :=
      (Honors.refl L d).rewrite hr rfl rfl rfl rfl rfl rfl rfl rfl (.of_trace rfl)
    dsimp only
    split
    · exact hset.loadPayload
    · exact hset

theorem plain_answers {operation : ClientOperation} {ids : List RequestId} {error : ClientError}
    {effect : Effect} (hm : effect ∈ ids.map fun id => .answered operation id (.error error)) :
    effect.Plain ∨ L effect := by
  obtain ⟨id, -, rfl⟩ := List.mem_map.mp hm
  exact .inl trivial

theorem plain_leaveAnswers {pending : Option PendingLeave} {result : Except ClientError Success}
    (hp : ∀ status response, result ≠ .ok (.reply status response)) {effect : Effect}
    (hm : effect ∈ leaveAnswers pending result) : effect.Plain ∨ L effect := by
  obtain ⟨leave, -, -, rfl⟩ := mem_leaveAnswers hm
  refine .inl ?_
  match result, hp with
  | .error _, _ | .ok (.payload _), _ | .ok (.elapsed _), _ | .ok .done, _ => trivial
  | .ok (.reply _ _), hp => exact hp _ _ rfl

theorem honors_joinTimedOut (duration : Duration) :
    Honors L [] d (d.joinTimedOut env topic duration) := by
  have hdiscard : Honors L [] d (d.discardChannel topic) := (Honors.refl L d).discardChannel
  cases hr : d.record topic with
  | none =>
    rw [joinTimedOut_of_none hr]
    exact hdiscard
  | some channel =>
    have hr' : (d.discardChannel topic).record topic = some channel := hr
    cases hp : channel.deferredLeave with
    | some pending =>
      rw [joinTimedOut_of_deferred hr hp, answerLeave_eq]
      refine hdiscard.write hr' (fun effect hm => plain_leaveAnswers (fun _ _ h => by cases h) hm)
        (fun x => ?_) (.inl rfl)
      rw [settled_leaveAnswers]
      simp only [ChannelRecord.owed, ChannelRecord.loaded, hp, leaveOwed, Option.elim_none, List.append_nil,
        List.count_append, List.count_nil]
      omega
    | none =>
      cases hd : channel.desired with
      | true =>
        rw [joinTimedOut_of_wanted hr hp hd]
        refine Honors.scheduleRejoin (hdiscard.write hr' (fun effect hm => plain_answers hm)
          (fun x => ?_) ?_)
        · simp only [ChannelRecord.owed, ChannelRecord.unanswered, settled_answers,
            List.map_nil, List.nil_append, List.count_append, List.count_nil]
          omega
        · exact .inr rfl
      | false =>
        rw [joinTimedOut_of_unwanted hr hp hd]
        exact hdiscard.rewrite hr' rfl rfl rfl rfl rfl rfl rfl rfl (.of_trace rfl)

/-- A leave that waits is answered when its entry is taken out. -/
theorem honors_answerLeave {reference : Reference} {pending : PendingLeave}
    (hp : d.state.pendingLeaves[reference]? = some pending) {result : Except ClientError Success}
    (hr : ∀ status response, result ≠ .ok (.reply status response)) :
    Honors L [] d ((d.eraseLeave reference).answerLeave (some pending) result) := by
  rw [answerLeave_eq]
  exact .of_release (.leave pending hp rfl rfl rfl) .refl rfl rfl (settled_leaveAnswers ..)
    (fun effect hm => plain_leaveAnswers hr hm) (.inl rfl)

theorem honors_handleOperationTimeout (operation : OperationTimeout) :
    Honors L [] d (d.handleOperationTimeout env operation) := by
  cases operation with
  | join topic reference duration =>
    have herase : Honors L [] d (d.eraseJoin reference) := (Honors.refl L d).eraseJoin
    simp only [handleOperationTimeout]
    split
    · exact herase.andThen (honors_joinTimedOut env _ duration)
    · exact herase
  | leave topic reference duration =>
    simp only [handleOperationTimeout]
    cases hp : d.state.pendingLeaves[reference]? with
    | none => exact .refl L d
    | some pending =>
      have hdiscard : Honors L [] d (((d.eraseLeave reference).answerLeave (some pending)
          (.error (.timeout .leave duration))).discardChannel topic) :=
        (honors_answerLeave d hp fun _ _ h => by cases h).discardChannel
      dsimp only
      cases hr : (d.eraseLeave reference).record topic with
      | none =>
        rw [leaveTimedOut_of_none hr]
        exact hdiscard
      | some channel =>
        rw [leaveTimedOut_of_some hr]
        dsimp only
        split
        · exact hdiscard.setStatus.loadPayload
        · exact hdiscard.setStatus

/-! ### Incoming frames

A reply answers what waits for it. What the protocol reports besides is told to subscribers only. -/

/-- The waiters of a join are answered; a leave that was held back is in hand. -/
theorem honors_welcome {taken channel : ChannelRecord} (hw : taken.joinWaiters = channel.joinWaiters)
    (hq : taken.queued = channel.queued) (hd : taken.deferredLeave = none) (reference : Reference)
    (response : Payload) :
    Honors L [] ((d.eraseJoin reference).setRecord topic taken)
      (d.welcome topic reference response channel) := by
  have hset : ∀ d₀ : Driver, d₀.record topic = some taken → Honors L [] d₀
      ((d₀.setRecord topic channel.joined).emitAll
        (channel.joinWaiters.map fun id => .answered .join id (.ok (.payload response)))) := by
    intro d₀ hr
    refine (Honors.refl L d₀).write hr (fun effect hm => ?_) (fun x => ?_) (.inl rfl)
    · obtain ⟨id, -, rfl⟩ := List.mem_map.mp hm
      exact .inl trivial
    · simp only [ChannelRecord.owed, ChannelRecord.joined, hw, hq, hd, settled_answers,
        List.map_nil, List.nil_append, List.count_append, List.count_nil]
      omega
  have hset := hset ((d.eraseJoin reference).setRecord topic taken) (record_setRecord ..)
  rw [setRecord_setRecord] at hset
  exact hset.emitChannel

theorem honors_onJoined {channel : Channel} (hc : d.state.protocol.channels[topic]? = some channel)
    (hs : channel.state = .joined) (reference : Reference) (response : Payload) :
    Honors L [] d (d.onJoined env topic reference response).1 := by
  have hj : d.state.protocol.joinedRef topic = some channel.joinRef :=
    Protocol.joinedRef_eq_some.mpr ⟨channel, hc, hs, rfl⟩
  have hflush : ∀ d' : Driver, d'.state.protocol = d.state.protocol →
      Honors L [] d' (d'.flush env topic).1 := fun d' he =>
    honors_flush env d' (by rw [he]; exact hj)
  cases hr : d.record topic with
  | none =>
    rw [onJoined_of_none hr]
    exact ((Honors.refl L d).eraseJoin.emitChannel).andThen (hflush _ (by simp))
  | some channel' =>
    have hp : (d.welcome topic reference response channel').state.protocol = d.state.protocol := by
      simp [welcome]
    cases hd : channel'.deferredLeave with
    | none =>
      rw [onJoined_of_not_deferred hr hd]
      have hsame : (d.eraseJoin reference).setRecord topic channel' = d.eraseJoin reference :=
        setRecord_self hr
      have hwelcome : Honors L [] ((d.eraseJoin reference).setRecord topic channel')
          (d.welcome topic reference response channel') := honors_welcome d rfl rfl hd reference response
      rw [hsame] at hwelcome
      exact ((Honors.refl L d).eraseJoin.andThen hwelcome).andThen (hflush _ hp)
    | some pending =>
      rw [onJoined_of_deferred hr hd]
      have hr' : (d.eraseJoin reference).record topic = some channel' := hr
      have hwelcome : Honors L [] ((d.eraseJoin reference).setRecord topic
          { channel' with deferredLeave := none }) (d.welcome topic reference response channel') :=
        honors_welcome d (by rfl) (by rfl) rfl reference response
      have htaken : HonorsWith L pending.owed pending.held ((d.eraseJoin reference).setRecord topic
          { channel' with deferredLeave := none })
          ((d.welcome topic reference response channel').sendLeave env topic pending).1 :=
        HonorsWith.after (honors_sendLeave env _ (by rw [hp]; exact hc) hs pending) hwelcome
      have hsent : ((d.welcome topic reference response channel').sendLeave env topic
          pending).1.state.channels = (d.welcome topic reference response channel').state.channels := by
        rw [sendLeave_of_joined (by rw [hp]; exact hc) hs, sendFrame_state]
        rfl
      refine Honors.after (htaken.of_take hr' (fun x => ?_) (fun x => ?_) fun t x hx => ?_)
        (Honors.refl L d).eraseJoin
      · simp only [ChannelRecord.owed, hd, leaveOwed, Option.elim_some, Option.elim_none, List.append_nil,
          List.count_append]
      · simp only [ChannelRecord.held, hd, leaveHeld, Option.elim_some, Option.elim_none, List.append_nil,
          List.count_append]
      · rw [heldAt_of_channels hsent] at hx
        obtain ⟨effects, -, hw⟩ := hwelcome
        exact (hw.records t x hx).resolve_right List.not_mem_nil

theorem honors_onJoinError (reference : Reference) (response : Payload) :
    Honors L [] d (d.onJoinError env topic reference response) := by
  have herase : Honors L [] d (d.eraseJoin reference) := (Honors.refl L d).eraseJoin
  cases hr : d.record topic with
  | none =>
    rw [onJoinError_of_none hr]
    exact herase.emitChannel
  | some channel =>
    have hr' : (d.eraseJoin reference).record topic = some channel := hr
    have hset : Honors L [] d (((d.eraseJoin reference).setRecord topic channel.refused).emitAll
        (refusals topic response channel)) := by
      refine herase.write hr' (fun effect hm => ?_) (fun x => ?_) (.inl rfl)
      · rcases List.mem_append.mp hm with hm | hm
        · exact plain_leaveAnswers (fun _ _ h => by cases h) hm
        · exact plain_answers hm
      · simp only [refusals, settled_append, settled_leaveAnswers, settled_answers, ChannelRecord.owed,
          ChannelRecord.refused, leaveOwed, Option.elim_none, List.map_nil, List.nil_append, List.append_nil,
          List.count_append, List.count_nil]
        omega
    rw [onJoinError_of_some hr]
    exact hset.emitChannel.scheduleRejoin

theorem honors_onLeft (reference : Reference) (response : Payload) :
    Honors L [] d (d.onLeft topic reference response) := by
  have hsettled : Honors L [] d (d.leaveSettled reference response) := by
    unfold leaveSettled
    cases hp : d.state.pendingLeaves[reference]? with
    | none =>
      refine .of_quiet .refl rfl rfl rfl (Table.erase_of_none hp) (.of_trace ?_)
      exact List.append_nil _
    | some pending =>
      have hanswer : Honors L [] d ((d.eraseLeave reference).answerLeave (some pending)
          (.ok (.payload response))) := honors_answerLeave d hp fun _ _ h => by cases h
      rwa [answerLeave_eq] at hanswer
  cases hr : d.record topic with
  | none =>
    rw [onLeft_of_none hr]
    exact hsettled.emitChannel
  | some channel =>
    have hset : ∀ status, Honors L [] d
        ((d.leaveSettled reference response).setRecord topic { channel with status }) := fun status =>
      hsettled.rewrite hr rfl rfl rfl rfl rfl rfl rfl rfl (.of_trace rfl)
    rw [onLeft_of_some hr]
    split
    · exact (hset _).emitChannel.loadPayload
    · exact (hset _).emitChannel

theorem honors_onHeartbeatAck (reference : Reference) :
    Honors L [] d (d.onHeartbeatAck reference) := by
  unfold onHeartbeatAck
  split
  · exact .of_quiet .refl rfl rfl rfl rfl (.of_trace rfl)
  cases hp : d.state.pendingPings[reference]? with
  | none => exact .refl L d
  | some ping =>
    refine .of_release (.ping ping hp rfl rfl rfl) .refl rfl rfl rfl (fun effect hm => ?_) (.inl rfl)
    cases List.mem_singleton.mp hm
    exact .inl trivial

/-- A reply answers the call that was sent with its reference. -/
theorem honors_onReply {reference : Reference} (status : ReplyStatus) (response : Payload)
    (hL : ∀ call : PendingCall, d.state.pendingCalls[reference]? = some call →
      L (.answered .call call.id (.ok (.reply status response)))) (event : String) :
    Honors L [] d (d.onReply topic event reference status response) := by
  cases hc : d.state.pendingCalls[reference]? with
  | none =>
    rw [onReply_of_none hc]
    exact (Honors.refl L d).emitChannel
  | some call =>
    rw [onReply_of_some hc]
    have hsettled : Honors L [] d (d.callSettled reference call status response) := by
      refine .of_release (.call call hc rfl rfl rfl) .refl rfl rfl rfl (fun effect hm => ?_)
        (.inr ⟨_, List.mem_cons_of_mem _ (List.mem_singleton_self _), hL call hc⟩)
      rcases List.mem_cons.mp hm with rfl | hm
      · exact .inl trivial
      · cases List.mem_singleton.mp hm
        exact .inr (hL call hc)
    exact hsettled.emitChannel

theorem honors_onChannelClosed (payload : Payload) :
    Honors L [] d (d.onChannelClosed topic payload) := by
  have hforget : Honors L [] d (d.forgetJoins topic) := (Honors.refl L d).forgetJoins
  unfold onChannelClosed
  dsimp only
  cases hr : (d.forgetJoins topic).record topic with
  | none => exact hforget.emitChannel.stopChannel
  | some channel =>
    have hset : Honors L [] d
        ((d.forgetJoins topic).setRecord topic { channel with desired := false, status := .closed }) :=
      hforget.rewrite hr rfl rfl rfl rfl rfl rfl rfl rfl (.of_trace rfl)
    exact hset.emitChannel.stopChannel

theorem honors_handleEvent {frame : Frame} {event : ProtocolEvent} {p : Protocol}
    (hco : d.state.protocol.Coherent) (hrec : d.state.protocol.receive frame = (.ok event, p))
    (hL : ∀ (topic : Topic) (name : String) (reference : Reference) (status : ReplyStatus)
      (response : Payload) (call : PendingCall), event = .reply topic name reference status response →
      frame.event = "phx_reply" → frame.reference = some reference →
      d.state.pendingCalls[reference]? = some call →
        L (.answered .call call.id (.ok (.reply status response)))) :
    Honors L [] d ((d.setProtocol p).handleEvent env event).1 := by
  have hreceive : Honors L [] d (d.setProtocol p) := by
    refine (Honors.refl L d).setProtocol (.single ?_)
    have hm := Move.receive (p := d.state.protocol) frame
    rwa [hrec] at hm
  cases event with
  | joined topic reference response =>
    obtain ⟨hpending, he⟩ := Protocol.receive_explains hrec
    obtain ⟨c, hc, -⟩ := hco.joins reference topic hpending
    have hjoined : (d.setProtocol p).state.protocol.channels[topic]? =
        some { c with state := .joined } := by
      rw [setProtocol_protocol, he, Protocol.lookup_setState, if_pos rfl, hc]
      rfl
    exact hreceive.andThen (honors_onJoined env _ hjoined rfl reference response)
  | joinError topic reference response => exact hreceive.andThen (honors_onJoinError env _ reference response)
  | reply topic name reference status response =>
    obtain ⟨hevent, href, -⟩ := Protocol.receive_explains hrec
    exact hreceive.andThen (honors_onReply (d.setProtocol p) status response
      (fun call hc => hL topic name reference status response call rfl hevent href hc) name)
  | left topic reference response => exact hreceive.andThen (honors_onLeft _ reference response)
  | heartbeatAck reference status => exact hreceive.andThen (honors_onHeartbeatAck _ reference)
  | channelError topic payload =>
    exact hreceive.forgetJoins.setStatus.emitChannel.scheduleRejoin
  | channelClosed topic payload => exact hreceive.andThen (honors_onChannelClosed _ payload)
  | message frame | staleMessage frame | unmatchedReply frame => exact hreceive.emitChannel
  | requestInterrupted topic name reference => exact hreceive.emitChannel

/-! ### Cancellation

A cancelled request is settled without an answer. A cancelled leave keeps its place, so that the
reply to it is recognized. -/

variable {d} {id : RequestId} {channel : ChannelRecord}

theorem honors_cancelJoin (hr : d.record topic = some channel) (hm : id ∈ channel.joinWaiters)
    (hL : L (.cancelled .join id)) : Honors L [] d (d.cancelJoin topic channel id) := by
  have hset : ∀ channel' : ChannelRecord, channel'.joinWaiters = channel.joinWaiters.erase id →
      channel'.queued = channel.queued → channel'.deferredLeave = channel.deferredLeave →
      Honors L [] d ((d.setRecord topic channel').emitAll [.cancelled .join id]) := by
    intro channel' hw hq hd
    refine (Honors.refl L d).write hr (fun effect he => ?_) (fun x => ?_) (.inr hd)
    · cases List.mem_singleton.mp he
      exact .inr hL
    · have hp := ((List.perm_cons_erase hm).map (Prod.mk ClientOperation.join)).count_eq x
      simp only [List.map_cons, List.count_cons] at hp
      simp only [ChannelRecord.owed, hw, hq, hd, settled_cons, settled_nil, Effect.settles, List.append_nil,
        List.count_append, List.count_cons, List.count_nil]
      omega
  by_cases hlast : channel.joinWaiters.erase id = [] ∧ channel.everJoined = false
  · rw [cancelJoin_of_last hlast.1 hlast.2]
    exact (hset (channel.abandoned id) rfl rfl rfl).forgetJoins.discardChannel
  · rw [cancelJoin_of_others hlast]
    exact hset _ rfl rfl rfl

theorem removeQueued_perm {queued : List QueuedPush} {push : QueuedPush}
    (h : queued.find? (fun push => push.id == id) = some push) :
    queued.Perm (push :: removeQueued id queued) := by
  induction queued with
  | nil => cases h
  | cons first rest ih =>
    unfold removeQueued
    by_cases he : first.id = id
    · simp only [List.find?_cons, he, beq_self_eq_true, Option.some.injEq] at h
      rw [if_pos he, h]
    · have hne : (first.id == id) = false := by simpa using he
      simp only [List.find?_cons, hne] at h
      rw [if_neg he]
      exact ((ih h).cons first).trans (.swap ..)

theorem settled_cancellation (push : QueuedPush) (topic : Topic) (clock : Duration) :
    settled (push.cancellation topic clock) = [push.request] := by
  cases push <;> rfl

theorem honors_cancelUnsent (hr : d.record topic = some channel)
    (hL : ∀ operation, L (.cancelled operation id)) :
    Honors L [] d (d.cancelUnsent topic channel id) := by
  cases d.cancelUnsent_cases topic channel id with
  | leave pending hd hid he =>
    have hs : settled (if pending.response then [Effect.cancelled .leave id] else []) = pending.owed := by
      rw [PendingLeave.owed]
      split
      · rw [← hid]
        rfl
      · rfl
    rw [he]
    refine .of_write hr .refl rfl rfl rfl rfl rfl (fun effect hm => ?_) (fun x => ?_) fun x => ?_
    · rw [List.mem_singleton.mp (List.mem_ite_nil_right.mp hm).2]
      exact .inr (.inl (hL .leave))
    · rw [hs]
      simp only [ChannelRecord.owed, hd, leaveOwed, Option.elim_some, PendingLeave.owed, Bool.false_eq_true,
        if_false, List.append_nil, List.count_append, List.count_nil]
      omega
    · simp only [ChannelRecord.held, hd]
      exact Nat.le_add_right ..
  | push push hf he =>
    have hid : push.id = id := by simpa using List.find?_some hf
    rw [he]
    refine (Honors.refl L d).write hr (push.forall_cancellation ?_ fun _ _ => ?_) (fun x => ?_) (.inr rfl)
    · rw [hid]
      exact .inr (hL _)
    · exact .inl trivial
    · have hp := ((removeQueued_perm hf).map QueuedPush.request).count_eq x
      simp only [List.map_cons, List.count_cons] at hp
      simp only [ChannelRecord.owed, settled_cancellation, List.count_append, List.count_cons, List.count_nil]
      omega
  | nothing hd hq he =>
    rw [he]
    exact .refl L d

variable (d)

theorem honors_cancelCall (hL : ∀ operation, L (.cancelled operation id)) :
    Honors L [] d (d.cancelCall id) := by
  rcases cancelCall_cases d id with hcancel | ⟨reference, call, hc, hid, hcancel⟩
  · rw [hcancel]
    exact .refl L d
  · rw [hcancel]
    have hrelease : Honors L [] d
        ({ d with state := { d.state with pendingCalls := d.state.pendingCalls.erase reference } }.emitAll
          [.cancelled .call id,
            .telemetry (.callCompleted call.topic call.event .cancelled (d.clock - call.started))]) := by
      refine .of_release (.call call hc rfl rfl rfl) .refl rfl rfl ?_ (fun effect he => ?_)
        (.inr ⟨_, List.mem_cons_self, hL .call⟩)
      · rw [PendingCall.owed, hid]
        rfl
      · rcases List.mem_cons.mp he with rfl | he
        · exact .inr (hL .call)
        · cases List.mem_singleton.mp he
          exact .inl trivial
    exact hrelease.setProtocol (.single (.forgetPush reference))

theorem honors_cancelPing (hL : ∀ operation, L (.cancelled operation id)) :
    Honors L [] d (d.cancelPing id) := by
  rcases cancelPing_cases d id with hcancel | ⟨reference, ping, hp, hid, hcancel⟩
  · rw [hcancel]
    exact .refl L d
  · rw [hcancel]
    have hrelease : Honors L [] d
        ({ d with state := { d.state with pendingPings := d.state.pendingPings.erase reference } }.emitAll
          [.cancelled .ping id]) := by
      refine .of_release (.ping ping hp rfl rfl rfl) .refl rfl rfl ?_ (fun effect he => ?_) (.inl rfl)
      · rw [PendingPing.owed, hid]
        rfl
      · cases List.mem_singleton.mp he
        exact .inr (hL .ping)
    exact hrelease.setProtocol (.single (.forgetHeartbeat reference))

theorem honors_cancelLeave (hL : ∀ operation, L (.cancelled operation id)) :
    Honors L [] d (d.cancelLeave id) := by
  rcases cancelLeave_cases d id with hcancel | ⟨reference, leave, hl, hid, hcancel⟩
  · rw [hcancel]
    exact .refl L d
  · rw [hcancel]
    refine .of_release (.mute leave hl rfl rfl rfl) .refl rfl rfl ?_ (fun effect he => ?_) (.inl rfl)
    · rw [PendingLeave.owed, hid]
      split <;> rfl
    · split at he
      · cases List.mem_singleton.mp he
        exact .inr (hL .leave)
      · cases he

/-- **A cancellation settles the request it finds**, as cancelled. -/
theorem honors_cancel (hL : ∀ operation, L (.cancelled operation id)) :
    Honors L [] d (d.cancel id) := by
  cases d.cancel_found id with
  | join topic channel hr hm he =>
    rw [he]
    exact honors_cancelJoin hr hm (hL .join)
  | unsent topic channel hr hm he =>
    rw [he]
    exact honors_cancelUnsent hr hL
  | pending hj hq he =>
    rw [he]
    exact ((honors_cancelCall d hL).andThen (honors_cancelPing _ hL)).andThen (honors_cancelLeave _ hL)

end

/-! ### The end of a connection

Everything that was sent is interrupted. Queued pushes and the waiters of wanted channels stay. -/

section
variable {L : Effect → Prop} (env : Env) (d : Driver)

/-- The answers to the leaves of a list of entries. -/
theorem settled_leaves {κ : Type} (entries : List (κ × PendingLeave)) :
    settled ((entries.filter fun entry => entry.2.response).map fun entry =>
      .answered .leave entry.2.id (.error (.interrupted .leave))) =
        entries.flatMap fun entry => entry.2.owed := by
  induction entries with
  | nil => rfl
  | cons entry rest ih =>
    cases hr : entry.2.response <;> simp [hr, ih, PendingLeave.owed, Effect.settles]

/-- The answers to the leaves that records hold back. -/
theorem settled_deferred {κ : Type} (entries : List (κ × ChannelRecord)) :
    settled (((entries.filterMap fun entry => entry.2.deferredLeave).filter fun pending =>
      pending.response).map fun pending =>
        .answered .leave pending.id (.error (.interrupted .leave))) =
          entries.flatMap fun entry => leaveOwed entry.2.deferredLeave := by
  induction entries with
  | nil => rfl
  | cons entry rest ih =>
    cases hd : entry.2.deferredLeave with
    | none => simp [hd, ih, leaveOwed]
    | some pending =>
      cases hr : pending.response <;>
        simp [hd, hr, ih, leaveOwed, PendingLeave.owed, Effect.settles]

/-- A lost connection settles what is in flight and the leaves held back. -/
theorem settled_interruptions (old : DriverState) (clock : Duration) :
    settled (interruptions old clock) =
      (old.pendingCalls.toList.flatMap fun entry => entry.2.owed) ++
        (old.pendingPings.toList.flatMap fun entry => entry.2.owed) ++
        (old.pendingLeaves.toList.flatMap fun entry => entry.2.owed) ++
        old.channels.toList.flatMap fun entry => leaveOwed entry.2.deferredLeave := by
  have hcalls : settled (old.pendingCalls.toList.flatMap fun entry =>
      [.telemetry (.callCompleted entry.2.topic entry.2.event .interrupted (clock - entry.2.started)),
        .answered .call entry.2.id (.error (.interrupted .call))]) =
      old.pendingCalls.toList.flatMap fun entry => entry.2.owed := by
    rw [settled, List.flatMap_assoc]
    rfl
  have hpings : settled (old.pendingPings.toList.map fun entry =>
      .answered .ping entry.2.id (.error (.interrupted .ping))) =
      old.pendingPings.toList.flatMap fun entry => entry.2.owed := by
    rw [settled, List.flatMap_map]
    rfl
  simp only [interruptions, settled_append, hcalls, hpings, settled_leaves, settled_deferred]

theorem mem_interruptions {old : DriverState} {clock : Duration} {effect : Effect}
    (h : effect ∈ interruptions old clock) :
    (∃ operation id, effect = .answered operation id (.error (.interrupted operation))) ∨
      ∃ event, effect = .telemetry event := by
  simp only [interruptions, List.mem_append, List.mem_flatMap, List.mem_map] at h
  rcases h with ((⟨entry, -, h⟩ | ⟨entry, -, rfl⟩) | ⟨entry, -, rfl⟩) | ⟨pending, -, rfl⟩
  · simp only [List.mem_cons, List.not_mem_nil, or_false] at h
    rcases h with rfl | rfl
    · exact .inr ⟨_, rfl⟩
    · exact .inl ⟨.call, _, rfl⟩
  · exact .inl ⟨.ping, _, rfl⟩
  · exact .inl ⟨.leave, _, rfl⟩
  · exact .inl ⟨.leave, _, rfl⟩

/-- **A lost connection settles all that is in flight**, and keeps the joins and pushes that
wait for another. -/
theorem honors_onDisconnect (reason : DisconnectReason) : Honors L [] d (d.onDisconnect reason) := by
  have hmoved := onDisconnect_moved d reason
  obtain ⟨reports, hreports, he⟩ := onDisconnect_eq d reason
  rw [he] at hmoved ⊢
  have hquiet : ∀ effect ∈ reports, effect.Quiet := fun effect hm => quiet_of_report (hreports effect hm)
  have hsplit : ∀ x, Table.total (due ChannelRecord.owed x) d.state.channels =
      Table.total (due ChannelRecord.owed x) (d.state.channels.map fun _ channel => offlineRecord channel) +
        Table.total (due (fun channel : ChannelRecord => leaveOwed channel.deferredLeave) x)
          d.state.channels := by
    intro x
    rw [Table.total_map, ← Table.total_add]
    refine Table.total_congr fun t channel _ => ?_
    simp only [due, ChannelRecord.owed, offlineRecord, leaveOwed, Option.elim_none, List.append_nil,
      List.count_append]
  have hcount : ∀ x, Table.total (due ChannelRecord.owed x)
      (d.state.channels.map fun _ channel => offlineRecord channel) +
        (settled (interruptions d.state d.clock ++ reports)).count x = d.owed.count x := by
    intro x
    have hx := hsplit x
    rw [settled_append, settled_interruptions, settled_of_quiet hquiet, List.append_nil, count_owed]
    have hdeferred := count_entries (fun channel : ChannelRecord => leaveOwed channel.deferredLeave)
      d.state.channels x
    simp only [List.count_append, count_entries, hdeferred]
    omega
  have hempty : ∀ x, ({ d with state := lost d.state reason, connection := .none }.emitAll
      (interruptions d.state d.clock ++ reports)).owed.count x = Table.total (due ChannelRecord.owed x)
        (d.state.channels.map fun _ channel => offlineRecord channel) := fun x => by
    rw [count_owed]
    rfl
  have hsub : ∀ (channel : ChannelRecord) x,
      (offlineRecord channel).held.count x ≤ channel.held.count x := by
    intro channel x
    simp only [ChannelRecord.held, offlineRecord, leaveHeld, Option.elim_none, List.count_append,
      List.count_nil]
    exact Nat.le_add_right ..
  refine ⟨_, rfl, hmoved, fun x => ?_, fun _ x => ?_, fun x => ?_, fun t x hx => .inl ?_,
    fun r x hx => absurd hx List.not_mem_nil, fun _ => ⟨fun r => ?_, fun r => ?_, fun r => ?_⟩,
    fun effect hm => .inl ?_, fun _ r call hc => .inr (.inl ?_)⟩
  · rw [hempty, hcount]
    exact Nat.le_refl _
  · rw [hempty, hcount]
    exact Nat.le_refl _
  · have hle : Table.total (due ChannelRecord.held x)
        (d.state.channels.map fun _ channel => offlineRecord channel) ≤
          Table.total (due ChannelRecord.held x) d.state.channels := by
      rw [Table.total_map]
      exact Table.total_le fun t channel _ => hsub channel x
    have hnew : ({ d with state := lost d.state reason, connection := .none }.emitAll
        (interruptions d.state d.clock ++ reports)).held.count x = Table.total (due ChannelRecord.held x)
          (d.state.channels.map fun _ channel => offlineRecord channel) := by
      rw [count_held]
      rfl
    rw [hnew, count_held]
    omega
  · have hrecord : ({ d with state := lost d.state reason, connection := .none }.emitAll
        (interruptions d.state d.clock ++ reports)).record t = (d.record t).map offlineRecord :=
      Std.ExtTreeMap.getElem?_map
    simp only [heldAt, tallyAt, hrecord] at hx ⊢
    cases hr : d.record t with
    | none =>
      rw [hr] at hx
      cases hx
    | some channel =>
      rw [hr] at hx
      exact List.count_pos_iff.mp (Nat.lt_of_lt_of_le (List.count_pos_iff.mpr hx) (hsub channel x))
  · exact fun hr => absurd hr Std.ExtTreeMap.not_mem_empty
  · exact fun hr => absurd hr Std.ExtTreeMap.not_mem_empty
  · exact fun hr => absurd hr Std.ExtTreeMap.not_mem_empty
  · rcases List.mem_append.mp hm with hm | hm
    · rcases mem_interruptions hm with ⟨operation, id, rfl⟩ | ⟨event, rfl⟩ <;> trivial
    · exact plain_of_quiet (hquiet effect hm)
  · refine List.mem_append_left _ (List.mem_append_left _ (List.mem_append_left _ (List.mem_append_left _ ?_)))
    exact List.mem_flatMap.mpr ⟨(r, call), Std.ExtTreeMap.mem_toList_iff_getElem?_eq_some.mpr hc,
      List.mem_cons_of_mem _ (List.mem_singleton_self _)⟩

end

end Driver
end PhoenixChannel.Client
