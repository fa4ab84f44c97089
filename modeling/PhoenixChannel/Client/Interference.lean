import PhoenixChannel.Client.Subjects
import PhoenixChannel.Client.WrapAround

/-! Channels do not interfere.

All channels share the reference counter, the tables of requests and the connection. A step
that concerns one topic nevertheless leaves everything of another as it is, as long as no
reference is handed out twice. -/
namespace PhoenixChannel.Client
open PhoenixChannel.Runtime Library
open Protocol (Moves)

namespace Driver

/-- The request is one of the topic's: it waits in the topic's record or is in flight. -/
inductive Holds (d : Driver) (id : RequestId) (t : Topic) : Prop where
  | waiter (channel : ChannelRecord) (hr : d.record t = some channel) (hm : id ∈ channel.joinWaiters)
  | deferred (channel : ChannelRecord) (hr : d.record t = some channel) (leave : PendingLeave)
      (hl : channel.deferredLeave = some leave) (he : leave.id = id)
  | queued (channel : ChannelRecord) (hr : d.record t = some channel) (push : QueuedPush)
      (hm : push ∈ channel.queued) (he : push.id = id)
  | call (r : Reference) (call : PendingCall) (hc : d.state.pendingCalls[r]? = some call)
      (he : call.id = id) (ht : call.topic = t)
  | leave (r : Reference) (leave : PendingLeave) (hl : d.state.pendingLeaves[r]? = some leave)
      (he : leave.id = id) (ht : (d.entry r).Of t)

/-- The input concerns only the topic. A cancelled request is nobody else's, and a reply
names the topic that its request went out under. -/
inductive Concerns (env : Env) (d : Driver) : Input → Topic → Prop where
  | register (topic : Topic) : Concerns env d (.lifecycle (.register topic)) topic
  | unregister (topic : Topic) : Concerns env d (.lifecycle (.unregister topic)) topic
  | cancel (id : RequestId) (topic : Topic) (h : ∀ t, d.Holds id t → t = topic) :
    Concerns env d (.lifecycle (.cancel id)) topic
  | subscribeChannel (topic : Topic) : Concerns env d (.command (.subscribeChannel topic)) topic
  | join (id : RequestId) (topic : Topic) (timeout : Duration) :
    Concerns env d (.command (.join id topic timeout)) topic
  | call (id : RequestId) (topic : Topic) (event : String) (payload : Payload) (started : Duration) :
    Concerns env d (.command (.call id topic event payload started)) topic
  | cast (id : RequestId) (topic : Topic) (event : String) (payload : Payload) :
    Concerns env d (.command (.cast id topic event payload)) topic
  | leave (id : RequestId) (topic : Topic) (timeout : Duration) :
    Concerns env d (.command (.leave id topic timeout)) topic
  | message (message : WireMessage) (frame : Frame) (hd : env.codec.decode message = .ok frame)
      (hr : frame.event = "phx_reply" → ∀ (r : Reference) (x : Pending), frame.reference = some r →
        d.state.protocol.pending[r]? = some x → x.topic?.getD "phoenix" = frame.topic) :
    Concerns env d (.message message) frame.topic
  | payload (topic : Topic) (payloadId : UInt64) (result : Except String Value) :
    Concerns env d (.payload topic payloadId result) topic
  | rejoin (timer : Timer Topic) : Concerns env d (.rejoin timer) timer.value
  | operationTimeout (timer : Timer OperationTimeout) :
    Concerns env d (.operationTimeout timer) timer.value.topic


/-- Nothing of the topic changes, and no frame is sent for it. -/
structure Undisturbed (t : Topic) (d d' : Driver) : Prop where
  record : d'.record t = d.record t
  channel : d'.state.protocol.channels[t]? = d.state.protocol.channels[t]?
  entries : ∀ r : Reference, (d.entry r).Of t ∨ (d'.entry r).Of t → d'.entry r = d.entry r
  unsent : d.Emits (fun effect => ∀ served frame, effect = .outgoing served frame → frame.topic ≠ t) d'

section
variable {env : Env} {d d' d'' : Driver} {t topic : Topic} {input : Input} {id : RequestId}

/-- What neither step disturbs, both together do not. -/
theorem Undisturbed.trans (h : Undisturbed t d d') (h' : Undisturbed t d' d'') : Undisturbed t d d'' where
  record := h'.record.trans h.record
  channel := h'.channel.trans h.channel
  entries r ho := by
    rcases ho with ho | ho
    · have he := h.entries r (.inl ho)
      exact (h'.entries r (.inl (by rw [he]; exact ho))).trans he
    · have he := h'.entries r (.inr ho)
      exact he.trans (h.entries r (.inr (by rw [← he]; exact ho)))
  unsent := h.unsent.trans h'.unsent

/-- What concerns one topic leaves another alone. -/
theorem Apart.undisturbed (h : Apart topic d d') (ht : topic ≠ t) (hn : d.state.protocol.Numbered)
    (hb : d'.state.protocol.allocated < 2 ^ 64) (hs : d.Sorted) : Undisturbed t d d' where
  record := h.record t ht.symm
  channel := h.channel t ht.symm
  entries r ho := by
    have hst := h.stays hn hb hs
    have hold : (d.entry r).Of t := by
      rcases ho with ho | ho
      · exact ho
      · exact (hst.own r t ho).resolve_right fun he => ht he.1.symm
    exact hst.rest r (hs.issued r t hold) fun hown => ht (hs.one r _ _ hown hold)
  unsent := h.sent.mono fun effect he served frame hf hto => by
    subst hf
    exact ht (he.symm.trans hto)

theorem Apart.sorted (h : Apart topic d d') (hn : d.state.protocol.Numbered)
    (hb : d'.state.protocol.allocated < 2 ^ 64) (hs : d.Sorted) : d'.Sorted :=
  (h.stays hn hb hs).sorted hs

/-! ### Cancellations

A cancellation names a request and not its topic. The request belongs to one topic, and the others
keep what they have. -/

/-- What a cancelled call leaves: its topic's requests but for the call. -/
theorem cancelCall_apart (d : Driver) (id : RequestId) :
    (∀ topic, Apart topic d (d.cancelCall id)) ∨
      ∃ (r : Reference) (call : PendingCall), d.state.pendingCalls[r]? = some call ∧ call.id = id ∧
        Apart call.topic d (d.cancelCall id) := by
  cases hfind : d.state.pendingCalls.toList.find? fun entry => entry.2.id == id with
  | none =>
    rw [cancelCall_of_none hfind]
    exact .inl fun topic => .refl topic d
  | some entry =>
    obtain ⟨r, call⟩ := entry
    have hcall := (Table.lookup_of_find hfind).1
    have hid : call.id = id := by simpa using List.find?_some hfind
    exact .inr ⟨r, call, hcall, hid, apart_cancelCall hfind⟩

/-- A cancelled leave keeps its reference. -/
theorem cancelLeave_entry (d : Driver) (id : RequestId) (r : Reference) :
    (d.cancelLeave id).entry r = d.entry r ∨
      ∃ leave, d.state.pendingLeaves[r]? = some leave ∧ leave.id = id ∧
        ∀ t, ((d.cancelLeave id).entry r).Of t ↔ (d.entry r).Of t := by
  rcases cancelLeave_cases d id with hcancel | ⟨reference, leave, hleave, hid, hcancel⟩
  · rw [hcancel]
    exact .inl rfl
  · rw [hcancel]
    by_cases hr : r = reference
    · refine .inr ⟨leave, by rw [hr]; exact hleave, hid, fun t => ⟨fun ho => ?_, fun ho => ?_⟩⟩
      · refine Entry.Less.of ?_ ho
        exact ⟨.inr rfl, .inr rfl, .inr rfl, List.Subset.refl _⟩
      · refine Entry.Less.of ?_ ho
        exact ⟨.inr rfl, .inr rfl, .inr rfl, List.Subset.refl _⟩
    · refine .inl ?_
      simp only [entry, emitAll_state, emitAll_connection, Table.lookup_insert, if_neg hr]

theorem cancelLeave_of (d : Driver) (id : RequestId) (r : Reference) (t : Topic) :
    ((d.cancelLeave id).entry r).Of t ↔ (d.entry r).Of t := by
  rcases cancelLeave_entry d id r with he | ⟨leave, -, -, ho⟩
  · rw [he]
  · exact ho t

/-- A cancelled leave keeps its reference and its deadline. -/
theorem cancelLeave_tables (d : Driver) (id : RequestId) :
    (d.cancelLeave id).state.protocol = d.state.protocol ∧
      (d.cancelLeave id).state.channels = d.state.channels ∧
      ∃ effects, (d.cancelLeave id).trace = d.trace ++ effects ∧
        ∀ effect ∈ effects, effect = .cancelled .leave id := by
  rcases cancelLeave_cases d id with hcancel | ⟨reference, leave, -, -, hcancel⟩
  · rw [hcancel]
    exact ⟨rfl, rfl, [], (List.append_nil _).symm, List.forall_mem_nil _⟩
  · rw [hcancel]
    refine ⟨rfl, rfl, _, rfl, fun effect hm => ?_⟩
    split at hm
    · exact List.mem_singleton.mp hm
    · cases hm

theorem cancelPing_leaves (d : Driver) (id : RequestId) :
    (d.cancelPing id).state.pendingLeaves = d.state.pendingLeaves := by
  unfold cancelPing
  split <;> rfl

theorem cancelCall_leaves (d : Driver) (id : RequestId) :
    (d.cancelCall id).state.pendingLeaves = d.state.pendingLeaves := by
  unfold cancelCall
  split <;> rfl

/-- A cancellation is about one topic up to the leave it may find in flight. -/
theorem cancel_cases (d : Driver) (id : RequestId) :
    (∃ topic, d.Holds id topic ∧ Apart topic d (d.cancel id)) ∨
      ∃ d₁, d.cancel id = d₁.cancelLeave id ∧ d₁.state.pendingLeaves = d.state.pendingLeaves ∧
        ((∀ topic, Apart topic d d₁) ∨ ∃ topic, d.Holds id topic ∧ Apart topic d d₁) := by
  cases d.cancel_found id with
  | join topic channel hr hm hcancel =>
    rw [hcancel]
    exact .inl ⟨topic, .waiter channel hr hm, apart_cancelJoin⟩
  | unsent topic channel hr hm hcancel =>
    rw [hcancel]
    refine .inl ⟨topic, ?_, apart_cancelUnsent⟩
    rcases hm with ⟨leave, hl, he⟩ | ⟨push, hm, he⟩
    · exact .deferred channel hr leave hl he
    · exact .queued channel hr push hm he
  | pending hj hq hcancel =>
    rw [hcancel]
    refine .inr ⟨(d.cancelCall id).cancelPing id, rfl, ?_, ?_⟩
    · rw [cancelPing_leaves, cancelCall_leaves]
    · rcases cancelCall_apart d id with hall | ⟨r, call, hc, he, hk⟩
      · exact .inl fun topic => (hall topic).trans (apart_cancelPing topic ..)
      · exact .inr ⟨call.topic, .call r call hc he rfl, hk.trans (apart_cancelPing ..)⟩

/-- A cancellation erases entries, and an entry that is gone belongs to nobody. -/
theorem sorted_cancel (hn : d.state.protocol.Numbered)
    (hb : (d.cancel id).state.protocol.allocated < 2 ^ 64) (hs : d.Sorted) : (d.cancel id).Sorted := by
  rcases cancel_cases d id with ⟨topic, -, hk⟩ | ⟨d₁, he, -, hk⟩
  · exact hk.sorted hn hb hs
  · obtain ⟨hp, -, -⟩ := cancelLeave_tables d₁ id
    rw [he, hp] at hb
    have hk : ∃ topic, Apart topic d d₁ := by
      rcases hk with hall | ⟨topic, -, hk⟩
      · exact ⟨"phoenix", hall _⟩
      · exact ⟨topic, hk⟩
    obtain ⟨topic, hk⟩ := hk
    have hs₁ := hk.sorted hn hb hs
    rw [he]
    refine ⟨fun r t ho => ?_, fun r t t' ho ho' => ?_⟩
    · rw [hp]
      exact hs₁.issued r t ((cancelLeave_of ..).mp ho)
    · exact hs₁.one r t t' ((cancelLeave_of ..).mp ho) ((cancelLeave_of ..).mp ho')

/-- A leave that is not the topic's is cancelled without the topic. -/
theorem undisturbed_cancelLeave
    (h : ∀ (r : Reference) (leave : PendingLeave), d.state.pendingLeaves[r]? = some leave →
      leave.id = id → ¬ (d.entry r).Of t) : Undisturbed t d (d.cancelLeave id) := by
  obtain ⟨hp, hc, effects, ht, heffects⟩ := cancelLeave_tables d id
  refine ⟨by rw [Driver.record, hc]; rfl, by rw [hp], fun r ho => ?_, effects, ht, ?_⟩
  · rw [cancelLeave_of, or_self] at ho
    rcases cancelLeave_entry d id r with he | ⟨leave, hl, hid, -⟩
    · exact he
    · exact absurd ho (h r leave hl hid)
  · intro effect hm served frame he
    rw [heffects effect hm] at he
    cases he

/-- **A cancelled request that is not the topic's leaves the topic alone.** -/
theorem undisturbed_cancel (hh : ¬ d.Holds id t) (hn : d.state.protocol.Numbered)
    (hb : (d.cancel id).state.protocol.allocated < 2 ^ 64) (hs : d.Sorted) :
    Undisturbed t d (d.cancel id) := by
  have hne : ∀ {topic}, d.Holds id topic → topic ≠ t := fun hold ht => hh (ht ▸ hold)
  rcases cancel_cases d id with ⟨topic, hold, hk⟩ | ⟨d₁, he, hl, hk⟩
  · exact hk.undisturbed (hne hold) hn hb hs
  · obtain ⟨hp, -, -⟩ := cancelLeave_tables d₁ id
    rw [he, hp] at hb
    have hfirst : Undisturbed t d d₁ := by
      rcases hk with hall | ⟨topic, hold, hk⟩
      · obtain ⟨topic, ht⟩ : ∃ topic : Topic, topic ≠ t := by
          by_cases h : t = "phoenix"
          · exact ⟨"room", by rw [h]; decide⟩
          · exact ⟨"phoenix", fun he => h he.symm⟩
        exact (hall topic).undisturbed ht hn hb hs
      · exact hk.undisturbed (hne hold) hn hb hs
    rw [he]
    refine hfirst.trans (undisturbed_cancelLeave fun r leave hleave hid ho => hh ?_)
    rw [hl] at hleave
    exact .leave r leave hleave hid (by rw [← hfirst.entries r (.inr ho)]; exact ho)

/-! ### Over whole runs

Entries are sorted by topic in every reachable state; a step then disturbs no topic but the one it
concerns. -/

/-- **References of two topics stay apart** in every run. -/
theorem reachable_sorted (h : (driver env).Reachable d) (hb : d.state.protocol.allocated < 2 ^ 64) :
    d.phase = .closed ∨ d.Sorted := by
  induction h with
  | start => exact .inr (settled_start env).sorted
  | @step d d' input hr _ hs ih =>
    have hb' := Nat.lt_of_le_of_lt (Moves.grows (step_moved hs)) hb
    have hn := reachable_numbered hr hb'
    cases stepped hs with
    | tick elapsed hi hd =>
      subst hd
      exact (ih hb').imp_right fun h => ⟨h.issued, h.one⟩
    | dropped topic hi hd =>
      subst hd
      have hk : Apart topic d (d.setStatus topic .closed) := (Apart.refl topic d).setStatus
      rw [hk.phase]
      exact (ih hb').imp_right (hk.sorted hn hb)
    | offline hc ho hs =>
      have hsettled := ((reachable_settled hr).resolve_left hc).resolve_left ho
      exact .inr (hs.settled hsettled).sorted
    | connected hp hs =>
      have hsorted := (ih hb').resolve_left (by rw [hp]; nofun)
      rcases hs.about with ho | ⟨id, -, rfl⟩ | ⟨topic, -, hk⟩
      · exact ho.settled.imp_right Settled.sorted
      · exact .inr (sorted_cancel hn hb hsorted)
      · exact .inr (hk.sorted hn hb hsorted)

/-- A frame that names the topic of the request it answers settles nothing of another. -/
theorem topicOf_receive {p p' : Protocol} {frame : Frame} {event : ProtocolEvent}
    (hr : frame.event = "phx_reply" → ∀ (r : Reference) (x : Pending), frame.reference = some r →
      p.pending[r]? = some x → x.topic?.getD "phoenix" = frame.topic)
    (hrec : p.receive frame = (.ok event, p')) : topicOf event = frame.topic := by
  have hreceived := Protocol.received p frame
  rw [hrec] at hreceived
  generalize hres : (Except.ok event : Except ProtocolError ProtocolEvent) = result at hreceived
  cases hreceived with
  | malformed _ _ _ _ _ => cases hres
  | stale _ | unmatched _ _ _ | closed _ _ | errored _ _ | message _ _ _ _ =>
    cases hres
    rfl
  | @settled r x status response _ hreply hreference hx _ =>
    rw [← hr hreply r x hreference hx]
    cases x with
    | join topic => cases status <;> cases hres <;> rfl
    | leave topic | push topic name | heartbeat =>
      cases hres
      rfl

/-- A step that concerns a topic is about no other. -/
theorem Concerns.topic_eq {A : Topic} (hc : Concerns env d input A) (ha : About env d input topic) :
    topic = A := by
  cases hc with
  | message message frame hd hr =>
    cases ha with
    | message _ frame' event p hd' hrec =>
      cases hd.symm.trans hd'
      exact topicOf_receive hr hrec
  | subscribeChannel =>
    cases ha with
    | subscribeChannel => rfl
    | control _ _ hs => exact absurd rfl (hs A)
  | cancel => cases ha
  | register | unregister | payload | rejoin | operationTimeout =>
    cases ha
    rfl
  | join | call | cast | leave =>
    cases ha with
    | control _ hn _ => cases hn
    | _ => rfl

end

/-- **What concerns one channel leaves every other alone**, unless it ends the connection. -/
theorem channels_apart (env : Env) (d d' : Driver) (input : Input) (A B : Topic)
    (h : (driver env).Reachable d) (hp : d.phase = .connected) (hne : A ≠ B)
    (hc : Concerns env d input A) (hs : d.step env input = some d')
    (hb : d'.state.protocol.allocated < 2 ^ 64) : d'.phase ≠ .connected ∨ Undisturbed B d d' := by
  have hb' := Nat.lt_of_le_of_lt (Moves.grows (step_moved hs)) hb
  have hn := reachable_numbered h hb'
  have hsorted := (reachable_sorted h hb').resolve_left (by rw [hp]; nofun)
  cases stepped hs with
  | tick elapsed hi hd => cases hi ▸ hc
  | dropped topic hi hd => cases hi ▸ hc
  | offline hnc _ _ => exact absurd hp hnc
  | connected _ hs =>
    rcases hs.about with ho | ⟨id, rfl, rfl⟩ | ⟨topic, ha, hk⟩
    · exact .inl ho.phase
    · cases hc with
      | cancel _ _ hheld =>
        exact .inr (undisturbed_cancel (fun hold => hne (hheld B hold).symm) hn hb hsorted)
    · have ht := hc.topic_eq ha
      exact .inr (hk.undisturbed (by rw [ht]; exact hne) hn hb hsorted)

/-- A call of one joined channel beside another. -/
theorem channels_apart_call :
    ∃ d d' : Driver, d.phase = .connected ∧
      (driver twoEnv).step d (.command (.call 4 "room" "shout" .emptyObject 0)) = some d' ∧
      Undisturbed "hall" d d' := by
  obtain ⟨d', hr, hd⟩ := (Option.any_eq_true _ _).mp
    (show ((driver twoEnv).run (driver twoEnv).start
        (twoChannels ++ [.command (.call 4 "room" "shout" .emptyObject 0)])).any
      (fun d => d.phase = .connected ∧ d.state.protocol.allocated < 2 ^ 64) = true by decide +kernel)
  obtain ⟨hphase', hb⟩ := of_decide_eq_true hd
  obtain ⟨d, hr, hs⟩ := Machine.run_concat.mp hr
  obtain ⟨d₁, hr₁, hphase⟩ := (Option.any_eq_true _ _).mp
    (show ((driver twoEnv).run (driver twoEnv).start twoChannels).any
      (fun d => d.phase = .connected) = true by decide +kernel)
  cases hr.symm.trans hr₁
  have hreach := Machine.reachable_iff_run.mpr ⟨_, hr⟩
  have hphase := of_decide_eq_true hphase
  have hapart := channels_apart twoEnv d d' _ "room" "hall" hreach hphase (by decide)
    (.call 4 "room" "shout" .emptyObject 0) hs hb
  exact ⟨d, d', hphase, hs, hapart.resolve_left fun hne => hne hphase'⟩

/-- Once the counter has come around, a call of one channel takes the place of another's. -/
theorem wrapped_call_interferes :
    ¬ ∀ (env : Env) (d d' : Driver) (input : Input) (A B : Topic), (driver env).Reachable d →
      d.phase = .connected → A ≠ B → Concerns env d input A → d.step env input = some d' →
        d'.phase ≠ .connected ∨ Undisturbed B d d' := by
  intro hall
  obtain ⟨d, hr, hd⟩ := Machine.reachable_of_run (driver twoEnv) twoChannels
    (fun d => d.phase = .connected ∧ d.transport.sends.isEmpty = true ∧ d.connection.heartbeatReference = none ∧
      d.connection.heartbeatDue ≤ d.clock + 30 ∧ d.state.protocol.nextReference = 3 ∧
      d.state.protocol.channelState "room" = some .joined ∧
      (d.state.pendingCalls["3"]?.map PendingCall.topic) = some "hall")
    (by decide +kernel)
  obtain ⟨hphase, hsends, hreference, hdue, hnext, hjoined, hcall⟩ := of_decide_eq_true hd
  obtain ⟨d₁, hrun, hbeaten, hnext₁⟩ :=
    run_beats _ (2 ^ 64 - 2) hphase (List.isEmpty_iff.mp hsends) hreference hdue
  rw [hnext, advance_around] at hnext₁
  have hjoined₁ : d₁.state.protocol.channelState "room" = some .joined := by
    rw [Protocol.channelState, hbeaten.channels]
    exact hjoined
  have htext : d₁.state.protocol.nextText = "3" := by
    rw [Protocol.nextText, hnext₁]
    decide
  obtain ⟨d₂, hstep, hphase₂, -, hcalls, -⟩ :=
    call_step _ hbeaten.phase hbeaten.sends hjoined₁ 4 "shout"
  obtain ⟨call, hcall, htopic⟩ := Option.map_eq_some_iff.mp hcall
  have hcall₁ : d₁.state.pendingCalls["3"]? = some call := by
    rw [hbeaten.calls]
    exact hcall
  have huntouched := (hall twoEnv d₁ d₂ _ "room" "hall" (hr.run hrun) hbeaten.phase (by decide)
    (.call 4 "room" "shout" .emptyObject 0) hstep).resolve_left fun hne => hne hphase₂
  have hentry := huntouched.entries "3" (.inl (.call call hcall₁ htopic))
  have hsame : d₂.state.pendingCalls["3"]? = d₁.state.pendingCalls["3"]? := congrArg Entry.call hentry
  rw [hcalls, htext, Table.lookup_insert, if_pos rfl, hcall₁] at hsame
  cases hsame
  exact absurd htopic (by decide)

end Driver
end PhoenixChannel.Client
