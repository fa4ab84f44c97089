import PhoenixChannel.Runtime.JoinReplies

/-! What an outbound frame says about the past.

The history keeps every call with its outcome. When every reply carries the topic and the
join reference of its request, a joined channel tells what happened since its generation
was started: its join was answered with ok, and nothing ended the generation after that. -/
namespace PhoenixChannel.Runtime
open Library

/-- One call and what it returned. -/
structure Entry where
  op : Op
  outcome : Outcome

/-- The frame last built for a topic. -/
def lastFor (topic : Topic) (sent : List Outbound) : Option Outbound :=
  (sent.filter fun outbound => outbound.frame.topic = topic).getLast?

namespace Entry

/-- The join of the topic that the call started, if it started one. -/
def started (e : Entry) (topic : Topic) : Option Outbound :=
  match e.op with
  | .join _ _ | .rejoin _ _ | .rejoinAllWithStoredParams _ => lastFor topic e.outcome.sent
  | _ => none

/-- The call receives the ok reply to a reference. -/
def Confirms (e : Entry) (r : Reference) : Prop :=
  ∃ frame response, e.op = .receive frame ∧ frame.event = "phx_reply" ∧ frame.reference = some r ∧
    Protocol.decodeReplyPayload frame.payload = .ok (.ok, response)

/-- The call ends the generation of a topic with the given join reference. -/
def Ends (e : Entry) (topic : Topic) (r : Reference) : Prop :=
  match e.op with
  | .receive frame =>
    frame.topic = topic ∧ (frame.event = "phx_close" ∨ frame.event = "phx_error") ∧
      (frame.joinRef = none ∨ frame.joinRef = some r)
  | .leave topic' => topic' = topic ∧ e.outcome.sent ≠ []
  | .discardChannel topic' => topic' = topic
  | .resetConnection => True
  | _ => False

end Entry

/-- The reference that the most recent join or rejoin of a topic returned. -/
def latest (log : List Entry) (topic : Topic) : Option Reference :=
  log.foldl (fun latest e => ((e.started topic).map Outbound.reference).or latest) none

/-- The most recent join of the topic is `r`, and after its ok reply nothing ended it. -/
structure Confirmed (log : List Entry) (topic : Topic) (r : Reference) : Prop where
  latest : latest log topic = some r
  since : ∃ before reply after, log = before ++ reply :: after ∧ reply.Confirms r ∧
    ∀ e ∈ after, ¬ e.Ends topic r

@[simp] theorem latest_append (log : List Entry) (e : Entry) (topic : Topic) :
    latest (log ++ [e]) topic = ((e.started topic).map Outbound.reference).or (latest log topic) := by
  simp [latest]

/-- A call that starts no join of the topic and does not end its generation. -/
theorem Confirmed.snoc {log : List Entry} {topic : Topic} {r : Reference} {e : Entry}
    (h : Confirmed log topic r) (hj : e.started topic = none) (he : ¬ e.Ends topic r) :
    Confirmed (log ++ [e]) topic r := by
  obtain ⟨hl, before, reply, after, rfl, hr, hafter⟩ := h
  refine ⟨by rw [latest_append, hj]; exact hl, before, reply, after ++ [e], by simp, hr, ?_⟩
  intro e' hmem
  rcases List.mem_append.mp hmem with hmem | hmem
  · exact hafter e' hmem
  · rw [List.mem_singleton.mp hmem]
    exact he

/-- The protocol with all its calls, the first one first. -/
structure History where
  protocol : Protocol
  log : List Entry

namespace History

def record (h : History) (op : Op) : History :=
  ⟨(h.protocol.perform op).2, h.log ++ [⟨op, (h.protocol.perform op).1⟩]⟩

def machine : Machine History Op where
  start := ⟨.new, []⟩
  step h op := if Ledger.possible h.protocol op then some (h.record op) else none

/-- The frames built so far. -/
def sent (h : History) : List Outbound := h.log.flatMap fun e => e.outcome.sent

/-- A received reply carries the topic and the join reference of the request it answers. -/
def Echoes (h : History) : Op → Prop
  | .receive frame => frame.event = "phx_reply" →
      ∀ request ∈ h.sent, frame.reference = some request.reference →
        frame.topic = request.frame.topic ∧ frame.joinRef = request.frame.joinRef
  | _ => True

theorem eq_record {h h' : History} {op : Op} (hs : machine.step h op = some h') :
    h' = h.record op := by
  simp only [machine] at hs
  split at hs
  · exact (Option.some.inj hs).symm
  · cases hs

end History

/-! ### What one call does to a channel

`Became` says how a call leaves the channel of a topic: started anew by a join of that call, or
kept, and then joined only if it was or its reply has come. -/

namespace Protocol
variable {p : Protocol}

/-- How a call left the channel of a topic: joining by a join the call started; or of the
generation it had, and joined only if it was and still is, or by the ok reply to a pending
join. -/
inductive Became (p : Protocol) (op : Op) (topic : Topic) (c' : Channel) : Prop where
  | started {outbound : Outbound}
      (join : Entry.started ⟨op, (p.perform op).1⟩ topic = some outbound)
      (ref : outbound.reference = c'.joinRef) (state : c'.state = .joining)
  | kept {c : Channel} (join : Entry.started ⟨op, (p.perform op).1⟩ topic = none)
      (before : p.channels[topic]? = some c) (ref : c'.joinRef = c.joinRef)
      (state : c'.state = .joined →
        (c.state = .joined ∧ ¬ Entry.Ends ⟨op, (p.perform op).1⟩ topic c.joinRef) ∨
        ∃ frame r response, op = .receive frame ∧ p.stale frame = false ∧
          frame.event = "phx_reply" ∧ frame.reference = some r ∧
          p.pending[r]? = some (.join topic) ∧
          decodeReplyPayload frame.payload = .ok (.ok, response))

@[simp] theorem lastFor_nil (topic : Topic) : lastFor topic [] = none := rfl

theorem lastFor_single (topic : Topic) (outbound : Outbound) :
    lastFor topic [outbound] = if outbound.frame.topic = topic then some outbound else none := by
  by_cases h : outbound.frame.topic = topic <;> simp [lastFor, h]

theorem lastFor_append (topic : Topic) (a b : List Outbound) :
    lastFor topic (a ++ b) = (lastFor topic b).or (lastFor topic a) := by
  simp [lastFor, List.filter_append, List.getLast?_append]

/-- A join leaves the channel of a topic joining by the join it built, or as it was. -/
theorem join_channel {topic t : Topic} {params : Value} {c' : Channel}
    (h : (p.join topic params).2.channels[t]? = some c') :
    (∃ outbound, lastFor t (returning (p.join topic params).1).sent = some outbound ∧
        outbound.reference = c'.joinRef ∧ c'.state = .joining) ∨
      (lastFor t (returning (p.join topic params).1).sent = none ∧ p.channels[t]? = some c') := by
  by_cases ha : (p.channelState topic).any ChannelState.active
  · rw [join_of_active ha] at h ⊢
    exact .inr ⟨rfl, h⟩
  · rw [join_of_inactive ha] at h ⊢
    rw [Table.lookup_insert] at h
    simp only [returning, lastFor_single]
    by_cases ht : t = topic
    · rw [if_pos ht] at h
      cases h
      exact .inl ⟨_, if_pos ht.symm, rfl, rfl⟩
    · rw [if_neg ht] at h
      exact .inr ⟨if_neg (Ne.symm ht), h⟩

/-- After a rejoin a channel is one it started, or one that was there. -/
theorem rejoin_channel {topic t : Topic} {params : Value} {c' : Channel}
    (h : (p.rejoin topic params).2.channels[t]? = some c') :
    (∃ outbound, lastFor t (returning (p.rejoin topic params).1).sent = some outbound ∧
        outbound.reference = c'.joinRef ∧ c'.state = .joining) ∨
      (lastFor t (returning (p.rejoin topic params).1).sent = none ∧ p.channels[t]? = some c') := by
  cases hs : p.channelState topic with
  | none =>
    rw [rejoin_of_unknown hs] at h ⊢
    exact join_channel h
  | some state =>
    by_cases ha : state.active
    · rw [rejoin_of_active hs ha] at h ⊢
      exact .inr ⟨rfl, h⟩
    · rw [rejoin_of_inactive hs ha] at h ⊢
      rcases join_channel h with hj | ⟨hn, hc⟩
      · exact .inl hj
      · refine .inr ⟨hn, ?_⟩
        simp only [discardChannel, Table.lookup_erase] at hc
        split at hc
        · cases hc
        · exact hc

/-- Of several rejoins the last one of a topic started its channel. -/
theorem rejoinEach_channel {targets : List (Topic × Value)} {t : Topic} {c' : Channel}
    (h : (p.rejoinEach targets).2.channels[t]? = some c') :
    (∃ outbound, lastFor t (p.rejoinEach targets).1 = some outbound ∧
        outbound.reference = c'.joinRef ∧ c'.state = .joining) ∨
      (lastFor t (p.rejoinEach targets).1 = none ∧ p.channels[t]? = some c') := by
  induction targets generalizing p with
  | nil => exact .inr ⟨rfl, h⟩
  | cons target rest ih =>
    rw [rejoinEach_cons] at h ⊢
    simp only [lastFor_append]
    rcases ih h with ⟨outbound, hl, hrest⟩ | ⟨hn, hc⟩
    · exact .inl ⟨outbound, by rw [hl, Option.some_or], hrest⟩
    · rw [hn, Option.none_or]
      exact rejoin_channel hc

/-- The channel is the one there was, and the call does not end its generation. -/
theorem Became.same {op : Op} {topic : Topic} {c' : Channel}
    (hj : Entry.started ⟨op, (p.perform op).1⟩ topic = none) (hc : p.channels[topic]? = some c')
    (he : ¬ Entry.Ends ⟨op, (p.perform op).1⟩ topic c'.joinRef) : Became p op topic c' :=
  .kept hj hc rfl fun hs => .inl ⟨hs, he⟩

/-- The channel is moved to a state other than joined. -/
theorem Became.moved {op : Op} {topic : Topic} {c c' : Channel}
    (hj : Entry.started ⟨op, (p.perform op).1⟩ topic = none) (hc : p.channels[topic]? = some c)
    (hr : c'.joinRef = c.joinRef) (hs : c'.state ≠ .joined) : Became p op topic c' :=
  .kept hj hc hr fun h => absurd h hs

/-- A frame of another event than a close or an error ends nothing. -/
theorem not_ends_of_event {frame : Frame} {topic : Topic} {r : Reference} (outcome : Outcome)
    (hc : frame.event ≠ "phx_close") (he : frame.event ≠ "phx_error") :
    ¬ Entry.Ends ⟨.receive frame, outcome⟩ topic r :=
  fun h => h.2.1.elim hc he

/-- A close or an error moves the channel of its topic to another state. -/
theorem became_down {frame : Frame} {topic : Topic} {state : ChannelState} {c' : Channel}
    (hs : state ≠ .joined) (h : (setState p.channels frame.topic state)[topic]? = some c') :
    Became p (.receive frame) topic c' := by
  rw [lookup_setState] at h
  split at h
  · obtain ⟨c, hc, rfl⟩ := Option.map_eq_some_iff.mp h
    exact .moved rfl hc rfl hs
  · exact .same rfl h fun he => absurd he.1.symm (by assumption)

/-- A reply that settles a request leaves the channel its generation, and makes it joined only if the
request was its join and the reply is ok. -/
theorem became_settled {frame : Frame} {topic : Topic} {r : Reference} {pending : Pending}
    {status : ReplyStatus} {response : Payload} {c' : Channel} (hs : p.stale frame = false)
    (he : frame.event = "phx_reply") (hr : frame.reference = some r)
    (hp : p.pending[r]? = some pending)
    (hd : decodeReplyPayload frame.payload = .ok (status, response))
    (h : (settle { p with pending := p.pending.erase r } r status response pending).2.channels[topic]?
      = some c') : Became p (.receive frame) topic c' := by
  have hends : ¬ Entry.Ends ⟨.receive frame, (p.perform (.receive frame)).1⟩ topic c'.joinRef :=
    not_ends_of_event _ (by simp [he]) (by simp [he])
  cases pending with
  | push | heartbeat => exact .same rfl h hends
  | leave t =>
    simp only [settle, Table.lookup_erase] at h
    split at h
    · cases h
    · exact .same rfl h hends
  | join t =>
    cases status with
    | error =>
      simp only [settle, lookup_setState] at h
      split at h
      · obtain ⟨c, hc, rfl⟩ := Option.map_eq_some_iff.mp h
        exact .moved rfl hc rfl (by simp)
      · exact .same rfl h hends
    | ok =>
      simp only [settle, lookup_setState] at h
      split at h
      · subst_vars
        obtain ⟨c, hc, rfl⟩ := Option.map_eq_some_iff.mp h
        exact .kept rfl hc rfl fun _ => .inr ⟨frame, r, response, rfl, hs, he, hr, hp, hd⟩
      · exact .same rfl h hends

/-- A frame starts no generation. -/
theorem became_received {frame : Frame} {topic : Topic} {c' : Channel}
    (h : (p.receive frame).2.channels[topic]? = some c') : Became p (.receive frame) topic c' := by
  have hrec := received p frame
  generalize (p.receive frame).1 = result at hrec
  generalize (p.receive frame).2 = p' at hrec h
  cases hrec with
  | stale hs =>
    refine .same rfl h fun he => ?_
    obtain ⟨rfl, _, hj⟩ := he
    rw [stale, h, Option.any_some] at hs
    rcases hj with hj | hj <;> simp [hj] at hs
  | unmatched _ he => exact .same rfl h (not_ends_of_event _ (by simp [he]) (by simp [he]))
  | malformed _ he => exact .same rfl h (not_ends_of_event _ (by simp [he]) (by simp [he]))
  | message _ _ hc he => exact .same rfl h (not_ends_of_event _ hc he)
  | closed | errored => exact became_down (by simp) h
  | settled hs he hr hp hd => exact became_settled hs he hr hp hd h

/-- **What a call does to a channel it leaves behind.** -/
theorem became {op : Op} {topic : Topic} {c' : Channel}
    (h : (p.perform op).2.channels[topic]? = some c') : Became p op topic c' := by
  cases op with
  | join t params =>
    rcases join_channel h with ⟨outbound, hl, hr, hs⟩ | ⟨hn, hc⟩
    · exact .started hl hr hs
    · exact .same hn hc id
  | rejoin t params =>
    rcases rejoin_channel h with ⟨outbound, hl, hr, hs⟩ | ⟨hn, hc⟩
    · exact .started hl hr hs
    · exact .same hn hc id
  | rejoinAllWithStoredParams order =>
    rcases rejoinEach_channel h with ⟨outbound, hl, hr, hs⟩ | ⟨hn, hc⟩
    · exact .started hl hr hs
    · exact .same hn hc id
  | leave t =>
    simp only [perform] at h
    rcases leave_cases p t with ⟨error, hl⟩ | ⟨channel, hc, hs⟩
    · rw [hl] at h
      exact .same rfl h fun he => he.2 (by simp [perform, hl, returning])
    · rw [leave_of_joined hc hs, Table.lookup_insert] at h
      split at h
      · subst_vars
        cases h
        exact .moved rfl hc rfl (by simp)
      · exact .same rfl h fun he => absurd he.1.symm (by assumption)
  | push t event payload =>
    simp only [perform] at h
    cases hj : p.joinedRef t with
    | none =>
      rw [push_of_not_joined hj] at h
      exact .same rfl h id
    | some joinRef =>
      rw [push_of_joined hj] at h
      exact .same rfl h id
  | heartbeat => exact .same rfl h id
  | forgetPush r =>
    simp only [perform] at h
    rcases forgetPush_cases p r with ⟨_, _, _, he⟩ | he <;> rw [he] at h <;> exact .same rfl h id
  | forgetHeartbeat r =>
    simp only [perform] at h
    rcases forgetHeartbeat_cases p r with ⟨_, he⟩ | he <;> rw [he] at h <;> exact .same rfl h id
  | discardChannel t =>
    simp only [perform, discardChannel, Table.lookup_erase] at h
    split at h
    · cases h
    · exact .same rfl h fun he => absurd he.symm (by assumption)
  | resetConnection =>
    simp only [perform, resetConnection] at h
    rw [Std.ExtTreeMap.getElem?_map] at h
    obtain ⟨c, hc, rfl⟩ := Option.map_eq_some_iff.mp h
    exact .moved rfl hc rfl (by simp)
  | receive frame => exact became_received h

/-- A join of the topic with this reference is among the frames. -/
def Requested (sent : List Outbound) (r : Reference) (topic : Topic) : Prop :=
  ∃ outbound ∈ sent, outbound.reference = r ∧ outbound.frame.topic = topic ∧
    outbound.frame.joinRef = some r

/-- What was sent stays sent. -/
theorem Requested.mono {sent sent' : List Outbound} {r : Reference} {topic : Topic}
    (h : Requested sent r topic) (hs : ∀ outbound ∈ sent, outbound ∈ sent') :
    Requested sent' r topic := by
  obtain ⟨outbound, hmem, hrest⟩ := h
  exact ⟨outbound, hs outbound hmem, hrest⟩

/-- A pending join was pending before, or this join sent it. -/
theorem join_requested {topic t : Topic} {params : Value} {r : Reference}
    (h : (p.join topic params).2.pending[r]? = some (.join t)) :
    p.pending[r]? = some (.join t) ∨ Requested (returning (p.join topic params).1).sent r t := by
  by_cases ha : (p.channelState topic).any ChannelState.active
  · rw [join_of_active ha] at h
    exact .inl h
  · rw [join_of_inactive ha] at h ⊢
    rw [Table.lookup_insert] at h
    split at h
    · subst_vars
      cases h
      exact .inr ⟨_, List.mem_singleton.mpr rfl, rfl, rfl, rfl⟩
    · exact .inl h

/-- A pending join was pending before, or this rejoin sent it. -/
theorem rejoin_requested {topic t : Topic} {params : Value} {r : Reference}
    (h : (p.rejoin topic params).2.pending[r]? = some (.join t)) :
    p.pending[r]? = some (.join t) ∨ Requested (returning (p.rejoin topic params).1).sent r t := by
  cases hs : p.channelState topic with
  | none =>
    rw [rejoin_of_unknown hs] at h ⊢
    exact join_requested h
  | some state =>
    by_cases ha : state.active
    · rw [rejoin_of_active hs ha] at h
      exact .inl h
    · rw [rejoin_of_inactive hs ha] at h ⊢
      refine (join_requested h).imp_left fun hp => ?_
      simp only [discardChannel, Std.ExtTreeMap.getElem?_filter'] at hp
      exact (Option.filter_eq_some_iff.mp hp).1

/-- A pending join was pending before, or one of the rejoins sent it. -/
theorem rejoinEach_requested {targets : List (Topic × Value)} {t : Topic} {r : Reference}
    (h : (p.rejoinEach targets).2.pending[r]? = some (.join t)) :
    p.pending[r]? = some (.join t) ∨ Requested (p.rejoinEach targets).1 r t := by
  induction targets generalizing p with
  | nil => exact .inl h
  | cons target rest ih =>
    rw [rejoinEach_cons] at h ⊢
    rcases ih h with hp | hr
    · exact (rejoin_requested hp).imp_right fun hr => hr.mono fun _ => List.mem_append_left _
    · exact .inr (hr.mono fun _ => List.mem_append_right _)

/-- A pending join was pending before, or the call built its frame. -/
theorem pending_requested {op : Op} {t : Topic} {r : Reference}
    (h : (p.perform op).2.pending[r]? = some (.join t)) :
    p.pending[r]? = some (.join t) ∨ Requested (p.perform op).1.sent r t := by
  -- what another operation adds is no join
  have hinsert : ∀ {pending : Pending}, pending ≠ .join t →
      (p.pending.insert p.nextText pending)[r]? = some (.join t) →
      p.pending[r]? = some (.join t) := by
    intro pending hne hi
    rw [Table.lookup_insert] at hi
    split at hi
    · exact absurd (Option.some.inj hi) hne
    · exact hi
  have herase : ∀ {r' : Reference}, (p.pending.erase r')[r]? = some (.join t) →
      p.pending[r]? = some (.join t) := by
    intro r' he
    rw [Table.lookup_erase] at he
    split at he
    · cases he
    · exact he
  cases op with
  | join topic params => exact join_requested h
  | rejoin topic params => exact rejoin_requested h
  | rejoinAllWithStoredParams order => exact rejoinEach_requested h
  | leave topic =>
    refine .inl ?_
    simp only [perform] at h
    rcases leave_cases p topic with ⟨error, hl⟩ | ⟨channel, hc, hs⟩
    · rw [hl] at h
      exact h
    · rw [leave_of_joined hc hs] at h
      exact hinsert (by simp) h
  | push topic event payload =>
    refine .inl ?_
    simp only [perform] at h
    cases hj : p.joinedRef topic with
    | none =>
      rw [push_of_not_joined hj] at h
      exact h
    | some joinRef =>
      rw [push_of_joined hj] at h
      exact hinsert (by simp) h
  | heartbeat => exact .inl (hinsert (by simp) h)
  | forgetPush r' =>
    simp only [perform] at h
    rcases forgetPush_cases p r' with ⟨_, _, _, he⟩ | he <;> rw [he] at h
    · exact .inl (herase h)
    · exact .inl h
  | forgetHeartbeat r' =>
    simp only [perform] at h
    rcases forgetHeartbeat_cases p r' with ⟨_, he⟩ | he <;> rw [he] at h
    · exact .inl (herase h)
    · exact .inl h
  | discardChannel topic =>
    simp only [perform, discardChannel, Std.ExtTreeMap.getElem?_filter'] at h
    exact .inl (Option.filter_eq_some_iff.mp h).1
  | resetConnection => simp [perform, resetConnection] at h
  | receive frame =>
    have hrec := received p frame
    simp only [perform] at h
    generalize (p.receive frame).1 = result at hrec
    generalize (p.receive frame).2 = p' at hrec h
    cases hrec with
    | malformed => exact .inl (herase h)
    | settled =>
      rw [settle_pending] at h
      exact .inl (herase h)
    | _ => exact .inl h

end Protocol

/-! ### Runs

So the last that happened to a joined channel in its generation is the reply that joined it. -/

namespace History

/-- What the channels and the pending joins say about the log. -/
structure Remembers (h : History) : Prop where
  latest : ∀ (t : Topic) (c : Channel), h.protocol.channels[t]? = some c →
    latest h.log t = some c.joinRef
  confirmed : ∀ (t : Topic) (c : Channel), h.protocol.channels[t]? = some c → c.state = .joined →
    Confirmed h.log t c.joinRef
  requests : ∀ (r : Reference) (t : Topic), h.protocol.pending[r]? = some (.join t) →
    Protocol.Requested h.sent r t

/-- One call: what it changed of a channel or of the pending joins is in the entry that is written down. -/
theorem remembers_record {h : History} (hr : h.Remembers) {op : Op} (ho : h.Echoes op) :
    (h.record op).Remembers := by
  refine ⟨fun t c' hc' => ?_, fun t c' hc' hs => ?_, fun r t hp => ?_⟩
  · cases Protocol.became hc' with
    | started hj href _ =>
      simp only [record, latest_append, hj]
      simp [href]
    | kept hj hc href _ =>
      simp only [record, latest_append, hj]
      rw [href]
      exact hr.latest t _ hc
  · cases Protocol.became hc' with
    | started _ _ hjoining =>
      rw [hs] at hjoining
      cases hjoining
    | @kept c hj hc href hstate =>
      rw [href]
      rcases hstate hs with ⟨hcs, hends⟩ | ⟨frame, r, response, rfl, hst, he, hfr, hp, hd⟩
      · exact (hr.confirmed t c hc hcs).snoc hj hends
      · -- the reply echoes its request, and it is not stale: it answers the current join
        obtain ⟨request, hmem, rfl, htopic, hjoin⟩ := hr.requests r t hp
        obtain ⟨hft, hfj⟩ := ho he request hmem hfr
        have hcr : request.reference = c.joinRef := by
          rw [Protocol.stale, hft, htopic, hc, Option.any_some, hfj, hjoin] at hst
          simpa using hst
        refine ⟨?_, h.log, _, [], rfl, ⟨frame, response, rfl, he, by rw [hfr, hcr], hd⟩, by simp⟩
        simp only [record, latest_append, hj]
        exact hr.latest t c hc
  · have hsub : ∀ outbound ∈ h.sent, outbound ∈ (h.record op).sent := by
      intro outbound hmem
      simp only [sent, record, List.flatMap_append]
      exact List.mem_append_left _ hmem
    rcases Protocol.pending_requested hp with hold | hnew
    · exact (hr.requests r t hold).mono hsub
    · refine hnew.mono fun outbound hmem => ?_
      simp only [sent, record, List.flatMap_append]
      exact List.mem_append_right _ (by simpa using hmem)

/-- By induction over the calls, as long as replies carry what their requests had. -/
theorem remembers {h : History} (hr : machine.Reach Echoes h) : h.Remembers := by
  refine hr.invariant (P := Remembers) ?_ ?_
  · constructor <;> intros <;> simp_all [machine, Protocol.new]
  · intro h op h' _ ih ho hs
    cases eq_record hs
    exact remembers_record ih ho

/-- The frame carries the join reference of a confirmed generation of the topic. -/
def Vouched (h : History) (topic : Topic) (frame : Frame) : Prop :=
  ∃ r, frame.joinRef = some r ∧ Confirmed h.log topic r

/-- **Outbound frames are built for a confirmed, live generation.** In every run whose
received replies echo the topic and the join reference of their requests, a push, cast or
leave that succeeds is built for the most recent join of its topic, an ok reply to which
was received, with nothing after it that ended the generation. -/
theorem outbound_vouched {h : History} (hr : machine.Reach Echoes h) (topic : Topic) :
    (∀ event payload outbound, (h.protocol.push topic event payload).1 = .ok outbound →
      h.Vouched topic outbound.frame) ∧
    (∀ event payload frame, h.protocol.cast topic event payload = .ok frame →
      h.Vouched topic frame) ∧
    (∀ outbound, (h.protocol.leave topic).1 = .ok outbound → h.Vouched topic outbound.frame) := by
  have hrem := remembers hr
  have hjoined : ∀ {r : Reference}, h.protocol.joinedRef topic = some r →
      Confirmed h.log topic r := by
    intro r hj
    obtain ⟨c, hc, hs, rfl⟩ := Protocol.joinedRef_eq_some.mp hj
    exact hrem.confirmed topic c hc hs
  refine ⟨fun event payload outbound hp => ?_, fun event payload frame hp => ?_, fun outbound hp => ?_⟩
  · cases hj : h.protocol.joinedRef topic with
    | none =>
      rw [Protocol.push_of_not_joined hj] at hp
      cases hp
    | some r =>
      rw [Protocol.push_of_joined hj] at hp
      cases hp
      exact ⟨r, rfl, hjoined hj⟩
  · cases hj : h.protocol.joinedRef topic with
    | none =>
      rw [Protocol.cast_of_not_joined hj] at hp
      cases hp
    | some r =>
      rw [Protocol.cast_of_joined hj] at hp
      cases hp
      exact ⟨r, rfl, hjoined hj⟩
  · rcases Protocol.leave_cases h.protocol topic with ⟨error, hl⟩ | ⟨channel, hc, hs⟩
    · rw [hl] at hp
      cases hp
    · rw [Protocol.leave_of_joined hc hs] at hp
      cases hp
      exact ⟨_, rfl, hrem.confirmed topic channel hc hs⟩

/-- `room` is joined, and its reply is received. -/
def greeted : History :=
  (machine.start.record (.join "room" .null)).record (.receive (Protocol.firstReply (some "1")))

/-- The replies of this history echo their requests. -/
theorem reach_greeted : machine.Reach Echoes greeted := by
  have hjoin : machine.Reach Echoes (machine.start.record (.join "room" .null)) :=
    .step (i := .join "room" .null) .start trivial rfl
  refine .step (i := .receive (Protocol.firstReply (some "1"))) hjoin (fun _ request hmem _ => ?_) rfl
  rw [List.mem_singleton.mp hmem]
  exact ⟨rfl, rfl⟩

/-- A push on the channel that was greeted goes out under the join reference that the reply confirmed. -/
theorem outbound_vouched_greeted :
    ∃ outbound, (greeted.protocol.push "room" "say" .emptyObject).1 = .ok outbound ∧
      greeted.Vouched "room" outbound.frame :=
  ⟨_, rfl, (outbound_vouched reach_greeted "room").1 _ _ _ rfl⟩

end History
end PhoenixChannel.Runtime
