import PhoenixChannel.Client.Arrivals
import PhoenixChannel.Client.Traces

/-! What work on one topic leaves of the others.

`Apart topic d d'` says that from `d` to `d'` the records and channels of other topics did
not change and no frame of theirs was sent. It also says, as long as references are new,
that what the tables hold under a reference changed for references of the topic and for new
ones only. References of two topics stay apart over whole runs (`Sorted`). -/
namespace PhoenixChannel.Client
open PhoenixChannel.Runtime Library
open Protocol (Move Moves)

/-- A frame is sent for the topic only. -/
def Effect.SentFor (topic : Topic) : Effect → Prop
  | .outgoing _ frame => frame.topic = topic
  | _ => True

instance (topic : Topic) : Lenient (Effect.SentFor topic) where
  report effect h := by
    cases effect with
    | outgoing served frame => exact h.elim
    | _ => trivial
  failure _ _ _ := trivial
  leave _ _ := trivial
  load _ _ _ _ := trivial

/-- What the tables hold under one reference. A heartbeat is nobody's and left out. -/
structure Entry where
  request : Option Pending
  join : Option Topic
  call : Option PendingCall
  leave : Option PendingLeave
  deadlines : List (Timer OperationTimeout)

namespace Entry

/-- A part of the entry is the topic's. -/
inductive Of (e : Entry) (t : Topic) : Prop where
  | request (x : Pending) (held : e.request = some x) (own : x.topic? = some t)
  | join (held : e.join = some t)
  | call (call : PendingCall) (held : e.call = some call) (own : call.topic = t)
  | deadline (timer : Timer OperationTimeout) (held : timer ∈ e.deadlines)
      (own : timer.value.topic = t)

/-- Nothing but parts of `e` is left. -/
structure Less (e' e : Entry) : Prop where
  request : e'.request = none ∨ e'.request = e.request
  join : e'.join = none ∨ e'.join = e.join
  call : e'.call = none ∨ e'.call = e.call
  deadlines : e'.deadlines ⊆ e.deadlines

theorem Less.refl (e : Entry) : e.Less e := ⟨.inr rfl, .inr rfl, .inr rfl, List.Subset.refl _⟩

/-- What a part of an entry belongs to, the entry belongs to. -/
theorem Less.of {e e' : Entry} {t : Topic} (h : e'.Less e) (ho : e'.Of t) : e.Of t := by
  cases ho with
  | request x held own =>
    rcases h.request with hr | hr
    · cases hr.symm.trans held
    · exact .request x (hr.symm.trans held) own
  | join held =>
    rcases h.join with hj | hj
    · cases hj.symm.trans held
    · exact .join (hj.symm.trans held)
  | call call held own =>
    rcases h.call with hc | hc
    · cases hc.symm.trans held
    · exact .call call (hc.symm.trans held) own
  | deadline timer held own => exact .deadline timer (h.deadlines held) own

end Entry

namespace Driver

/-- What the driver and its protocol hold under a reference. -/
def entry (d : Driver) (r : Reference) : Entry where
  request := d.state.protocol.pending[r]?.filter (· ≠ .heartbeat)
  join := d.state.pendingJoins[r]?
  call := d.state.pendingCalls[r]?
  leave := d.state.pendingLeaves[r]?
  deadlines := d.connection.operationTimeouts.filter (·.value.reference = r)

/-- Every reference in use was handed out, and is one topic's. -/
structure Sorted (d : Driver) : Prop where
  issued : ∀ (r : Reference) (t : Topic), (d.entry r).Of t → d.state.protocol.Issued r
  one : ∀ (r : Reference) (t t' : Topic), (d.entry r).Of t → (d.entry r).Of t' → t = t'

/-- From `d` to `d'` only references of the topic, or new ones, changed hands. -/
structure Stays (topic : Topic) (d d' : Driver) : Prop where
  grows : d.state.protocol.allocated ≤ d'.state.protocol.allocated
  rest : ∀ r : Reference, d.state.protocol.Issued r → ¬ (d.entry r).Of topic → d'.entry r = d.entry r
  own : ∀ (r : Reference) (t : Topic), (d'.entry r).Of t →
    (d.entry r).Of t ∨ t = topic ∧ d'.state.protocol.Issued r

/-- From `d` to `d'` the loop stays where it is, and so does what is not the topic's. -/
structure Apart (topic : Topic) (d d' : Driver) : Prop where
  phase : d'.phase = d.phase
  record : ∀ t : Topic, t ≠ topic → d'.record t = d.record t
  channel : ∀ t : Topic, t ≠ topic →
    d'.state.protocol.channels[t]? = d.state.protocol.channels[t]?
  sent : d.Emits (Effect.SentFor topic) d'
  moved : d.Moved d'
  stays : d.state.protocol.Numbered → d'.state.protocol.allocated < 2 ^ 64 → d.Sorted →
    Stays topic d d'

/-! ### References

What is kept under a reference is gathered in its `entry`, which belongs to one topic at most. A
handler may drop from the entries of its topic and make new ones, and so keeps the driver sorted. -/

section
variable {topic : Topic} {d d' d'' : Driver}

theorem entry_congr (hp : d'.state.protocol.pending = d.state.protocol.pending)
    (hj : d'.state.pendingJoins = d.state.pendingJoins)
    (hc : d'.state.pendingCalls = d.state.pendingCalls)
    (hl : d'.state.pendingLeaves = d.state.pendingLeaves)
    (ho : d'.connection.operationTimeouts = d.connection.operationTimeouts) (r : Reference) :
    d'.entry r = d.entry r := by
  simp only [entry, hp, hj, hc, hl, ho]

theorem Stays.of_entry (hg : d.state.protocol.allocated ≤ d'.state.protocol.allocated)
    (h : ∀ r, d'.entry r = d.entry r) : Stays topic d d' where
  grows := hg
  rest r _ _ := h r
  own r t ho := .inl (by rw [← h r]; exact ho)

/-- A reference that the first step leaves alone is issued still, so the second leaves it alone too. -/
theorem Stays.trans (h : Stays topic d d') (h' : Stays topic d' d'') : Stays topic d d'' where
  grows := Nat.le_trans h.grows h'.grows
  rest r hi ho := by
    have he := h.rest r hi ho
    rw [← he] at ho
    exact (h'.rest r (hi.mono h.grows) ho).trans he
  own r t ho := by
    rcases h'.own r t ho with ho | ho
    · rcases h.own r t ho with ho | ⟨ht, hi⟩
      · exact .inl ho
      · exact .inr ⟨ht, hi.mono h'.grows⟩
    · exact .inr ho

/-- Something of the topic is given up. -/
theorem Stays.of_less (hg : d.state.protocol.allocated ≤ d'.state.protocol.allocated)
    (h : ∀ r, d'.entry r = d.entry r ∨ (d.entry r).Of topic ∧ (d'.entry r).Less (d.entry r)) :
    Stays topic d d' where
  grows := hg
  rest r _ ho := by
    rcases h r with he | ⟨ho', -⟩
    · exact he
    · exact absurd ho' ho
  own r t ho := by
    rcases h r with he | ⟨-, hl⟩
    · exact .inl (he ▸ ho)
    · exact .inl (hl.of ho)

/-- Something of the topic is kept under a new reference. -/
theorem Stays.of_new {r : Reference} (hg : d.state.protocol.allocated ≤ d'.state.protocol.allocated)
    (hnew : ¬ d.state.protocol.Issued r) (hi : d'.state.protocol.Issued r)
    (h : ∀ r', r' ≠ r → d'.entry r' = d.entry r')
    (hown : ∀ t, (d'.entry r).Of t → (d.entry r).Of t ∨ t = topic) : Stays topic d d' where
  grows := hg
  rest r' hi' _ := h r' (by rintro rfl; exact hnew hi')
  own r' t ho := by
    by_cases hr : r' = r
    · rw [hr] at ho ⊢
      exact (hown t ho).imp_right fun ht => ⟨ht, hi⟩
    · rw [h r' hr] at ho
      exact .inl ho

/-- **References of two topics stay apart.** -/
theorem Stays.sorted (h : Stays topic d d') (hs : d.Sorted) : d'.Sorted where
  issued r t ho := by
    rcases h.own r t ho with ho | ⟨-, hi⟩
    · exact (hs.issued r t ho).mono h.grows
    · exact hi
  one r t t' ho ho' := by
    -- a topic that is not the step's had the reference before
    have hother : ∀ t₁ t₂ : Topic, t₁ ≠ topic → (d'.entry r).Of t₁ → (d'.entry r).Of t₂ → t₁ = t₂ := by
      intro t₁ t₂ ht h₁ h₂
      have hold : (d.entry r).Of t₁ := (h.own r t₁ h₁).resolve_right fun he => ht he.1
      have he := h.rest r (hs.issued r t₁ hold) fun hown => ht (hs.one r _ _ hold hown)
      rw [he] at h₂
      exact hs.one r _ _ hold h₂
    by_cases ht : t = topic
    · by_cases ht' : t' = topic
      · rw [ht, ht']
      · exact (hother t' t ht' ho' ho).symm
    · exact hother t t' ht ho ho'

end

/-! ### Composition

A handler is a chain of small steps, and every one of them is apart from the other topics. -/

section
variable {topic : Topic} {d d' d'' : Driver}

/-- The condition on references is that of the later state, which implies that of the one between. -/
theorem Apart.trans (h : Apart topic d d') (h' : Apart topic d' d'') : Apart topic d d'' where
  phase := h'.phase.trans h.phase
  record t ht := (h'.record t ht).trans (h.record t ht)
  channel t ht := (h'.channel t ht).trans (h.channel t ht)
  sent := h.sent.trans h'.sent
  moved := h.moved.trans h'.moved
  stays hn hb hs := by
    have hb' := Nat.lt_of_le_of_lt (Moves.grows h'.moved) hb
    have hst := h.stays hn hb' hs
    exact hst.trans (h'.stays (hn.moves h.moved hb') hb (hst.sorted hs))

/-- Work on the record of the topic, and on what no reference is kept for. -/
theorem Apart.of_record (hph : d'.phase = d.phase)
    (hr : ∀ t : Topic, t ≠ topic → d'.record t = d.record t)
    (hp : d'.state.protocol = d.state.protocol)
    (hj : d'.state.pendingJoins = d.state.pendingJoins)
    (hc : d'.state.pendingCalls = d.state.pendingCalls)
    (hl : d'.state.pendingLeaves = d.state.pendingLeaves)
    (ho : d'.connection.operationTimeouts = d.connection.operationTimeouts)
    (hs : d.Emits (Effect.SentFor topic) d') : Apart topic d d' where
  phase := hph
  record := hr
  channel t _ := by rw [hp]
  sent := hs
  moved := moved_of_eq hp
  stays _ _ _ := .of_entry (Nat.le_of_eq (by rw [hp])) (entry_congr (by rw [hp]) hj hc hl ho)

/-- Only the requests in flight, their deadlines and the channel of the topic change. -/
theorem Apart.of_requests (hph : d'.phase = d.phase) (hr : d'.state.channels = d.state.channels)
    (hc : ∀ t : Topic, t ≠ topic →
      d'.state.protocol.channels[t]? = d.state.protocol.channels[t]?)
    (hs : d.Emits (Effect.SentFor topic) d') (hm : d.Moved d')
    (hst : d.state.protocol.Numbered → d'.state.protocol.allocated < 2 ^ 64 → d.Sorted →
      Stays topic d d') : Apart topic d d' where
  phase := hph
  record t _ := by rw [Driver.record, Driver.record, hr]
  channel := hc
  sent := hs
  moved := hm
  stays := hst

theorem Apart.refl (topic : Topic) (d : Driver) : Apart topic d d :=
  .of_record rfl (fun _ _ => rfl) rfl rfl rfl rfl rfl (.refl ..)

/-- Effects that send nothing. -/
theorem Apart.emitAll (h : Apart topic d d') {effects : List Effect}
    (he : ∀ effect ∈ effects, effect.SentFor topic) : Apart topic d (d'.emitAll effects) :=
  h.trans (.of_record rfl (fun _ _ => rfl) rfl rfl rfl rfl rfl ((Emits.refl _ d').emitAll he))

theorem Apart.answers (h : Apart topic d d') {operation : ClientOperation} {ids : List RequestId}
    {result : Except ClientError Success} :
    Apart topic d (d'.emitAll (ids.map fun id => .answered operation id result)) := by
  refine h.emitAll fun effect hm => ?_
  obtain ⟨id, -, rfl⟩ := List.mem_map.mp hm
  trivial

theorem Apart.answer (h : Apart topic d d') {operation : ClientOperation} {id : RequestId}
    {result : Except ClientError Success} : Apart topic d (d'.answer operation id result) :=
  h.emitAll (by simp [Effect.SentFor])

theorem Apart.setRecord (h : Apart topic d d') {channel : ChannelRecord} :
    Apart topic d (d'.setRecord topic channel) := by
  refine h.trans (.of_record rfl (fun t ht => ?_) rfl rfl rfl rfl rfl (.of_trace rfl))
  rw [record_setRecord_eq, if_neg ht]

/-- A status is reported to the topic's own subscribers. -/
theorem Apart.setStatus (h : Apart topic d d') {status : ChannelStatus} :
    Apart topic d (d'.setStatus topic status) := by
  cases hr : d'.record topic with
  | none =>
    rw [setStatus_of_none hr]
    exact h
  | some channel =>
    rw [setStatus_of_some hr]
    exact h.setRecord

theorem Apart.emitChannel (h : Apart topic d d') {t : Topic} {event : ChannelEvent} :
    Apart topic d (d'.emitChannel t event) := by
  rw [emitChannel_eq]
  exact h.emitAll fun effect hm => Lenient.report effect (channelEffects_report d' t event effect hm)

theorem Apart.answerLeave (h : Apart topic d d') {pending : Option PendingLeave}
    {result : Except ClientError Success} : Apart topic d (d'.answerLeave pending result) := by
  rw [answerLeave_eq]
  refine h.emitAll fun effect hm => ?_
  obtain ⟨leave, -, -, rfl⟩ := mem_leaveAnswers hm
  trivial

/-- What is interrupted with a channel is its own: its queue, those who wait to join, and a leave that was
put off. -/
theorem Apart.stopChannel (h : Apart topic d d') : Apart topic d (d'.stopChannel topic) := by
  cases hr : d'.record topic with
  | none =>
    rw [stopChannel_of_none hr]
    exact h
  | some channel =>
    rw [stopChannel_of_some hr]
    refine h.setRecord.emitAll fun effect hm => ?_
    rcases mem_stopEffects hm with ⟨operation, id, rfl⟩ | ⟨event, rfl⟩
    · trivial
    · trivial

theorem Apart.register (h : Apart topic d d') {env : Env} :
    Apart topic d (d'.register env topic) := by
  unfold Driver.register
  split
  · exact h
  · exact h.setRecord

theorem Apart.queue (h : Apart topic d d') {env : Env} {push : QueuedPush} :
    Apart topic d (d'.queue env topic push) := by
  rcases queue_cases env d' topic push with ⟨error, -, he⟩ | ⟨channel, -, -, -, he⟩
  · rw [he]
    exact h.answer
  · rw [he]
    exact h.setRecord

theorem Apart.loadPayload (h : Apart topic d d') : Apart topic d (d'.loadPayload topic) := by
  have hs : d'.Emits (Effect.SentFor topic) (d'.loadPayload topic) := (Emits.refl _ d').loadPayload
  rcases loadPayload_cases d' topic with ⟨-, he⟩ | ⟨channel, -, -, -, -, he⟩
  · rw [he]
    exact h
  · rw [he] at hs ⊢
    refine h.trans (.of_record rfl (fun t ht => ?_) rfl rfl rfl rfl rfl hs)
    rw [emitAll_record, trackLoad_record, if_neg ht]

/-- The timer is the topic's, and so is the flag in the record. -/
theorem Apart.scheduleRejoin (h : Apart topic d d') {env : Env} :
    Apart topic d (d'.scheduleRejoin env topic) := by
  have hs : d'.Emits (Effect.SentFor topic) (d'.scheduleRejoin env topic) :=
    (Emits.refl _ d').scheduleRejoin
  rcases scheduleRejoin_cases env d' topic with ⟨-, he⟩ | ⟨channel, -, -, -, he⟩
  · rw [he]
    exact h
  · rw [he] at hs ⊢
    refine h.trans (.of_record rfl (fun t ht => ?_) rfl rfl rfl rfl rfl hs)
    rw [trackRejoin_record, if_neg ht]

theorem Apart.sendFrame (h : Apart topic d d') {env : Env} {served : List RequestId} {frame : Frame}
    (hf : frame.topic = topic) : Apart topic d (d'.sendFrame env served frame).1 := by
  have hs := sendFrame_state env d' served frame
  have hc := sendFrame_connection env d' served frame
  refine h.trans (.of_record (sendFrame_phase ..) (fun t _ => ?_) (by rw [hs]) (by rw [hs])
    (by rw [hs]) (by rw [hs]) (by rw [hc]) ((Emits.refl _ d').sendFrame hf))
  rw [Driver.record, hs, Driver.record]

/-- A record is removed. -/
theorem Apart.eraseRecord (h : Apart topic d d') : Apart topic d
    { d' with state := { d'.state with channels := d'.state.channels.erase topic } } := by
  refine h.trans (.of_record rfl (fun t ht => ?_) rfl rfl rfl rfl rfl (.of_trace rfl))
  show (d'.state.channels.erase topic)[t]? = _
  rw [Table.lookup_erase, if_neg ht]
  rfl

end

/-! ### Requests given up

Discarding a channel and settling a request only take away from the entries of the topic. -/

section
variable {topic : Topic} {d d' : Driver}

theorem entry_request {d : Driver} {r : Reference} {x : Pending}
    (h : d.state.protocol.pending[r]? = some x) (hx : x ≠ .heartbeat) :
    (d.entry r).request = some x := by
  simp only [entry, h, Option.filter_some, hx, ne_eq, not_false_eq_true, decide_true, if_true]

/-- A pending request of a topic makes its reference the topic's. -/
theorem of_pending {d : Driver} {r : Reference} {x : Pending} {t : Topic}
    (h : d.state.protocol.pending[r]? = some x) (hx : x.topic? = some t) : (d.entry r).Of t := by
  refine .request x (entry_request h ?_) hx
  rintro rfl
  cases hx

/-- The protocol drops the requests of the topic, and of another topic no request has the topic's
references. -/
theorem Apart.discardChannel (h : Apart topic d d') : Apart topic d (d'.discardChannel topic) := by
  refine h.trans (.of_requests rfl rfl (fun t ht => ?_) (.of_trace rfl)
    (moved_of_move (.discardChannel topic)) fun _ _ _ => .of_less (Nat.le_refl _) fun r => ?_)
  · show (d'.state.protocol.channels.erase topic)[t]? = _
    rw [Table.lookup_erase, if_neg ht]
  have hlook : (d'.discardChannel topic).state.protocol.pending[r]? =
      (d'.state.protocol.pending[r]?).filter fun pending => pending.topic? != some topic :=
    Std.ExtTreeMap.getElem?_filter'
  cases hr : d'.state.protocol.pending[r]? with
  | none =>
    refine .inl ?_
    simp only [entry, hlook, hr]
    rfl
  | some x =>
    by_cases hx : x.topic? = some topic
    · have hgone : (d'.discardChannel topic).state.protocol.pending[r]? = none := by
        rw [hlook, hr, Option.filter_some, hx, bne_self_eq_false]
        rfl
      refine .inr ⟨of_pending hr hx, { Entry.Less.refl (d'.entry r) with request := .inl ?_ }⟩
      simp only [entry, hgone, Option.filter_none]
    · have hkeep : (d'.discardChannel topic).state.protocol.pending[r]? = some x := by
        rw [hlook, hr, Option.filter_some, if_pos (bne_iff_ne.mpr hx)]
      refine .inl ?_
      simp only [entry, hkeep, hr]
      rfl

/-- Of the joins under way those of the topic are dropped, with their deadlines. -/
theorem Apart.forgetJoins (h : Apart topic d d') : Apart topic d (d'.forgetJoins topic) := by
  refine h.trans (.of_requests rfl rfl (fun _ _ => rfl) (.of_trace rfl)
    (moved_of_eq rfl) fun _ _ _ => .of_less (Nat.le_refl _) fun r => ?_)
  have hlook := forgetJoins_lookup d' topic r
  cases hr : d'.state.pendingJoins[r]? with
  | none =>
    refine .inl ?_
    simp only [entry, hlook, hr]
    rfl
  | some t =>
    by_cases ht : t = topic
    · refine .inr ⟨.join (by rw [← ht]; exact hr), { Entry.Less.refl (d'.entry r) with join := .inl ?_ }⟩
      show (d'.forgetJoins topic).state.pendingJoins[r]? = none
      rw [hlook, hr, Option.filter_some, ht, bne_self_eq_false]
      rfl
    · have hkeep : (d'.forgetJoins topic).state.pendingJoins[r]? = some t := by
        rw [hlook, hr, Option.filter_some, if_pos (bne_iff_ne.mpr ht)]
      refine .inl ?_
      simp only [entry, hkeep, hr]
      rfl

/-- What is held under one reference of the topic is given up. -/
theorem Apart.settled {r : Reference} (hph : d'.phase = d.phase)
    (hr : d'.state.channels = d.state.channels)
    (hc : ∀ t : Topic, t ≠ topic →
      d'.state.protocol.channels[t]? = d.state.protocol.channels[t]?)
    (hs : d.Emits (Effect.SentFor topic) d') (hm : d.Moved d') (hown : (d.entry r).Of topic)
    (hrest : ∀ r', r' ≠ r → d'.entry r' = d.entry r') (hless : (d'.entry r).Less (d.entry r)) :
    Apart topic d d' := by
  refine .of_requests hph hr hc hs hm fun _ _ _ => .of_less (Moves.grows hm) fun r' => ?_
  by_cases he : r' = r
  · rw [he]
    exact .inr ⟨hown, hless⟩
  · exact .inl (hrest r' he)

end

section
variable {d : Driver} {topic : Topic} {r : Reference} {x : Pending} {p : Protocol}

/-- The settled request of a topic, and what the driver held under its reference. -/
theorem Apart.resolved {d' : Driver} (hm : Move d.state.protocol p)
    (hp : d.state.protocol.pending[r]? = some x) (hx : x.topic? = some topic)
    (hpend : p.pending = d.state.protocol.pending.erase r)
    (hc : ∀ t : Topic, t ≠ topic → p.channels[t]? = d.state.protocol.channels[t]?)
    (hd : d'.state.protocol = p) (hph : d'.phase = d.phase)
    (hr : d'.state.channels = d.state.channels) (hcon : d'.connection = d.connection)
    (hs : d.Emits (Effect.SentFor topic) d')
    (hj : d'.state.pendingJoins = d.state.pendingJoins ∨
      d'.state.pendingJoins = d.state.pendingJoins.erase r)
    (hcall : d'.state.pendingCalls = d.state.pendingCalls ∨
      d'.state.pendingCalls = d.state.pendingCalls.erase r)
    (hl : d'.state.pendingLeaves = d.state.pendingLeaves ∨
      d'.state.pendingLeaves = d.state.pendingLeaves.erase r) : Apart topic d d' := by
  have hother : ∀ {α : Type} (m m' : Table Reference α) (r' : Reference),
      m' = m ∨ m' = m.erase r → r' ≠ r → m'[r']? = m[r']? := by
    intro α m m' r' h hne
    rcases h with rfl | rfl
    · rfl
    · rw [Table.lookup_erase, if_neg hne]
  have hsame : ∀ {α : Type} (m m' : Table Reference α), m' = m ∨ m' = m.erase r →
      m'[r]? = none ∨ m'[r]? = m[r]? := by
    intro α m m' h
    rcases h with rfl | rfl
    · exact .inr rfl
    · rw [Table.lookup_erase, if_pos rfl]
      exact .inl rfl
  refine .settled hph hr (by rw [hd]; exact hc) hs (moved_of_move (by rw [hd]; exact hm))
    (of_pending hp hx) (fun r' hne => ?_) ?_
  · simp only [entry, hd, hcon, hother _ _ r' (.inr hpend) hne, hother _ _ r' hj hne,
      hother _ _ r' hcall hne, hother _ _ r' hl hne]
  · refine ⟨.inl ?_, hsame _ _ hj, hsame _ _ hcall, fun timer hm => ?_⟩
    · simp only [entry, hd, hpend, Table.lookup_erase, if_true, Option.filter_none]
    · simpa only [entry, hcon] using hm

end

/-! ### New requests

A new request gets a reference that was never handed out, under which no other topic can have
anything. -/

section
variable {topic : Topic} {d d' : Driver}

/-- A request of the topic is tracked under the reference that is handed out next. -/
theorem Apart.tracked {x : Pending} (hph : d'.phase = d.phase)
    (hrec : ∀ t : Topic, t ≠ topic → d'.record t = d.record t)
    (hc : ∀ t : Topic, t ≠ topic →
      d'.state.protocol.channels[t]? = d.state.protocol.channels[t]?)
    (hs : d.Emits (Effect.SentFor topic) d') (hm : d.Moved d')
    (ha : d'.state.protocol.allocated = d.state.protocol.allocated + 1)
    (hp : d'.state.protocol.pending = d.state.protocol.pending.insert d.state.protocol.nextText x)
    (hx : x.topic?.all fun t => t = topic)
    (hrest : ∀ r', r' ≠ d.state.protocol.nextText →
      d'.state.pendingJoins[r']? = d.state.pendingJoins[r']? ∧
      d'.state.pendingCalls[r']? = d.state.pendingCalls[r']? ∧
      d'.state.pendingLeaves[r']? = d.state.pendingLeaves[r']? ∧
      d'.connection.operationTimeouts.filter (·.value.reference = r') =
        d.connection.operationTimeouts.filter (·.value.reference = r'))
    (hown : ∀ t, (d'.state.pendingJoins[d.state.protocol.nextText]? = some t →
        d.state.pendingJoins[d.state.protocol.nextText]? = some t ∨ t = topic) ∧
      (∀ call, d'.state.pendingCalls[d.state.protocol.nextText]? = some call → call.topic = t →
        d.state.pendingCalls[d.state.protocol.nextText]? = some call ∨ t = topic) ∧
      ∀ timer ∈ d'.connection.operationTimeouts, timer.value.topic = t →
        timer ∈ d.connection.operationTimeouts ∨ t = topic) : Apart topic d d' where
  phase := hph
  record := hrec
  channel := hc
  sent := hs
  moved := hm
  stays hn hb _ := by
    have hb' : d.state.protocol.allocated + 1 < 2 ^ 64 := by rw [← ha]; exact hb
    refine .of_new (Moves.grows hm) (Protocol.not_issued_nextText hn.unwrapped hb')
      (Protocol.issued_nextText hn.unwrapped ha hb) (fun r' hne => ?_) fun t ho => ?_
    · obtain ⟨h₁, h₂, h₃, h₄⟩ := hrest r' hne
      simp only [entry, hp, Table.lookup_insert, if_neg hne, h₁, h₂, h₃, h₄]
    · obtain ⟨hj, hcall, ht⟩ := hown t
      cases ho with
      | request y held own =>
        simp only [entry, hp, Table.lookup_insert, if_true, Option.filter_eq_some_iff] at held
        cases held.1
        rw [own] at hx
        exact .inr (by simpa using hx)
      | join held => exact (hj held).imp_left .join
      | call call held own => exact (hcall call held own).imp_left fun h => .call call h own
      | deadline timer held own =>
        obtain ⟨hm, hr⟩ := List.mem_filter.mp held
        exact (ht timer hm own).imp_left fun h => .deadline timer (List.mem_filter.mpr ⟨h, hr⟩) own

end

section
variable {env : Env} {d : Driver} {topic : Topic}

/-- The reference of a call is new. -/
theorem apart_trackCall {id : RequestId} {event : String} {payload : Payload} {started : Duration}
    {joinRef : Reference} (hj : d.state.protocol.joinedRef topic = some joinRef) :
    Apart topic d (d.trackCall topic id event payload started) := by
  have hm := (Pushed.trackCall d topic id event payload started hj).moved
  have hlook : ∀ r', (d.trackCall topic id event payload started).state.pendingCalls[r']? =
      if r' = d.state.protocol.nextText then some ⟨id, topic, event, started⟩
      else d.state.pendingCalls[r']? := fun r' => Table.lookup_insert ..
  refine .tracked (x := .push topic event) rfl (fun _ _ => rfl) (fun t _ => ?_) (.of_trace rfl) hm
    ?_ ?_ (by simp [Pending.topic?]) (fun r' hne => ⟨rfl, ?_, rfl, rfl⟩) fun t => ⟨.inl, ?_, fun _ h _ => .inl h⟩
  · rw [(Pushed.trackCall d topic id event payload started hj).channels]
  · simp only [trackCall, Protocol.push_of_joined hj]
  · simp only [trackCall, Protocol.push_of_joined hj]
  · rw [hlook, if_neg hne]
  · intro call held own
    rw [hlook, if_pos rfl] at held
    cases held
    exact .inr own.symm

/-- The reference of a leave is new, and its deadline with it. -/
theorem apart_trackLeave {channel : Channel} {pending : PendingLeave}
    (hc : d.state.protocol.channels[topic]? = some channel) (hs : channel.state = .joined) :
    Apart topic d (d.trackLeave topic pending) := by
  have hp : (d.trackLeave topic pending).state.protocol = (d.state.protocol.leave topic).2 := rfl
  have hm : d.Moved (d.trackLeave topic pending) := moved_of_move (by rw [hp]; exact .leave topic)
  rw [Protocol.leave_of_joined hc hs] at hp
  have hlook : ∀ r', (d.trackLeave topic pending).state.pendingLeaves[r']? =
      if r' = d.state.protocol.nextText then some pending else d.state.pendingLeaves[r']? :=
    fun r' => Table.lookup_insert ..
  refine .tracked (x := .leave topic) rfl (fun _ _ => rfl) (fun t ht => ?_) (.of_trace rfl) hm
    (by rw [hp]) (by rw [hp]) (by simp [Pending.topic?]) (fun r' hne => ⟨rfl, rfl, ?_, ?_⟩)
    fun t => ⟨.inl, fun _ h _ => .inl h, fun timer hm own => ?_⟩
  · rw [hp, Table.lookup_insert, if_neg ht]
  · rw [hlook, if_neg hne]
  · simp [trackLeave, List.filter_append, OperationTimeout.reference, Ne.symm hne]
  · rcases List.mem_append.mp hm with hm | hm
    · exact .inl hm
    · cases List.mem_singleton.mp hm
      exact .inr own.symm

/-- The reference of a join is new, and its deadline with it. -/
theorem apart_trackJoin {params : Value} {channel : ChannelRecord}
    (hs : d.state.protocol.channelState topic = none) :
    Apart topic d (d.trackJoin topic params channel) := by
  have hp : (d.trackJoin topic params channel).state.protocol =
      (d.state.protocol.join topic params).2 := rfl
  have hm : d.Moved (d.trackJoin topic params channel) :=
    moved_of_move (by rw [hp, ← Protocol.rejoin_of_unknown hs]; exact .rejoin topic params)
  rw [Protocol.join_of_unknown hs] at hp
  have hlook : ∀ r', (d.trackJoin topic params channel).state.pendingJoins[r']? =
      if r' = d.state.protocol.nextText then some topic else d.state.pendingJoins[r']? :=
    fun r' => Table.lookup_insert ..
  refine .tracked (x := .join topic) rfl (fun t ht => ?_) (fun t ht => ?_) (.of_trace rfl) hm
    (by rw [hp]) (by rw [hp]) (by simp [Pending.topic?]) (fun r' hne => ⟨?_, rfl, rfl, ?_⟩)
    fun t => ⟨fun h => ?_, fun _ h _ => .inl h, fun timer hm own => ?_⟩
  · show (d.state.channels.insert topic _)[t]? = _
    rw [Table.lookup_insert, if_neg ht]
    rfl
  · rw [hp, Table.lookup_insert, if_neg ht]
  · rw [hlook, if_neg hne]
  · simp [trackJoin, List.filter_append, OperationTimeout.reference, Ne.symm hne]
  · rw [hlook, if_pos rfl] at h
    cases h
    exact .inr rfl
  · rcases List.mem_append.mp hm with hm | hm
    · exact .inl hm
    · cases List.mem_singleton.mp hm
      exact .inr own.symm

/-- A heartbeat is nobody's. -/
theorem apart_heartbeat {d' : Driver} (topic : Topic) (hph : d'.phase = d.phase)
    (hr : d'.state.channels = d.state.channels)
    (hp : d'.state.protocol = d.state.protocol.heartbeat.2) (ht : d'.trace = d.trace)
    (hj : d'.state.pendingJoins = d.state.pendingJoins)
    (hc : d'.state.pendingCalls = d.state.pendingCalls)
    (hl : d'.state.pendingLeaves = d.state.pendingLeaves)
    (ho : d'.connection.operationTimeouts = d.connection.operationTimeouts) : Apart topic d d' := by
  have hm : d.Moved d' := moved_of_move (by rw [hp]; exact .heartbeat)
  rw [Protocol.heartbeat_eq] at hp
  refine .tracked (x := .heartbeat) hph (fun t _ => by rw [record, record, hr]) (fun t _ => by rw [hp])
    (.of_trace ht) hm (by rw [hp]) (by rw [hp]) rfl (fun r' _ => by rw [hj, hc, hl, ho]; simp) fun t => ?_
  rw [hj, hc, ho]
  exact ⟨.inl, fun _ h _ => .inl h, fun _ h _ => .inl h⟩

/-- A push concerns the topic that it goes to, also where it is taken back. -/
theorem apart_sendPush (env : Env) (d : Driver) (topic : Topic) (push : QueuedPush) :
    Apart topic d (d.sendPush env topic push).1 := by
  cases push_handled env d topic push with
  | refusedCall id event payload started hb he =>
    rw [he]
    exact (Apart.refl topic d).emitAll (by simp [Effect.SentFor])
  | refusedCast id event payload hb he =>
    rw [he]
    exact (Apart.refl topic d).emitAll (by simp [Effect.SentFor])
  | notJoined push hj he =>
    rw [he]
    exact .refl topic d
  | call id event payload started joinRef hb hj he =>
    rw [he]
    exact (apart_trackCall hj).sendFrame rfl
  | cast id event payload joinRef sent hb hj hs he =>
    rw [he, hs]
    exact ((Apart.refl topic d).sendFrame rfl).emitAll (by simp [Effect.SentFor])

theorem apart_flush (env : Env) (d : Driver) (topic : Topic) :
    Apart topic d (d.flush env topic).1 :=
  flush_induction (Apart.refl topic) (fun _ _ _ => Apart.trans)
    (fun d _ push _ _ _ => (Apart.refl topic d).setRecord.trans (apart_sendPush env _ topic push)) d

/-- A leave concerns the topic that it leaves, also where it is taken back. -/
theorem apart_sendLeave (env : Env) (d : Driver) (topic : Topic) (pending : PendingLeave) :
    Apart topic d (d.sendLeave env topic pending).1 := by
  cases hj : d.state.protocol.joinedRef topic with
  | none =>
    have hm := sendLeave_moved env d topic pending
    obtain ⟨e, he⟩ := sendLeave_of_not_joined env pending hj
    rw [he] at hm ⊢
    exact .of_requests rfl rfl (fun _ _ => rfl) (.of_trace rfl) hm fun _ _ _ =>
      .of_entry (Nat.le_succ _) fun _ => rfl
  | some joinRef =>
    obtain ⟨channel, hc, hs, -⟩ := Protocol.joinedRef_eq_some.mp hj
    rw [sendLeave_of_joined hc hs]
    exact (apart_trackLeave hc hs).sendFrame rfl

end

end Driver
end PhoenixChannel.Client
