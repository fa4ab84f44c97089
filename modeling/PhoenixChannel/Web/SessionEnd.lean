import PhoenixChannel.Web.Polling
import PhoenixChannel.Library.Observation

/-! What is told of the end of a LongPoll session.

Once the flag is set the session is over: no request is made any more. A receive looks at the flag
before it looks at the channel, so what the channel still holds then, the report of why the session
ended included, is told only to a receive that waits already. -/
namespace PhoenixChannel.Web
open PhoenixChannel.Runtime Library

/-- What may still happen in a session that is over. -/
def LongPollEffect.Late : LongPollEffect → Prop
  | .requested _ | .unissued _ => False
  | .ended close => close = LongPoll.transportClosed
  | .answered _ _ | .aborted _ | .received _ | .sent _ => True

/-- What a session whose end nobody waits for may still tell: the close that every receive of a session
that is over reports, which is clean, and a text that the channel still held. -/
def LongPollEffect.Peaceful : LongPollEffect → Prop
  | .ended close => close = LongPoll.transportClosed
  | .received event => LongPoll.IsText event
  | .requested _ | .unissued _ | .answered _ _ | .aborted _ | .sent _ => True

/-- The effect is a receive that returns a close that the client reconnects after. -/
def LongPollEffect.reconnects : LongPollEffect → Bool
  | .received (.ok (.closed close)) | .ended close => close.shouldReconnect
  | .received _ | .requested _ | .unissued _ | .answered _ _ | .aborted _ | .sent _ => false

namespace LongPoll

/-- The channel is open until the transport is closed or dropped, which no receive waits through. A
receive that waits in a session that is over finds something, and no poll is under way then. -/
structure Attentive (s : LongPoll) : Prop where
  opened : s.closed = false → s.owned = true → s.listening = true
  listening : s.receiving = true → s.listening = true
  events : s.closed = true → s.receiving = true → s.events ≠ []
  ended : s.closed = true → s.listening = true → s.poll = .ended

section
variable {env : Env} {s s' s₀ : LongPoll} {input : LongPollInput}

/-- Polling on leaves the receives as they are, and a task that ended has no poll under way. -/
theorem PollsOn.attentive (h : PollsOn s s') (ho : s.closed = false → s.owned = true → s.listening = true)
    (hr : s.receiving = true → s.listening = true)
    (he : s.closed = true → s.receiving = true → s.events ≠ []) : s'.Attentive := by
  cases h with
  | closed hc => exact ⟨ho, hr, he, fun _ _ => rfl⟩
  | asks hc request heq => exact ⟨ho, hr, he, fun h => absurd (hc.symm.trans h) Bool.false_ne_true⟩
  | fails hc error last =>
    exact ⟨ho, hr, fun h => absurd (hc.symm.trans h) Bool.false_ne_true, fun _ _ => rfl⟩

theorem not_receiving_of_idle (hi : s.idle = true) : s.receiving = false := by
  obtain ⟨-, hr⟩ := (Bool.and_eq_true _ _).mp hi
  simpa using hr

theorem owned_of_idle (hi : s.idle = true) : s.owned = true := by
  obtain ⟨ho, -⟩ := (Bool.and_eq_true _ _).mp hi
  exact ((Bool.and_eq_true _ _).mp ho).1

/-- An answer that ends the session, or that is a failure, has something for the channel. -/
theorem itemsOf_ne_nil {result : Except TransportError PollResponse} (h : endsSession result = true) :
    itemsOf result ≠ [] := by
  cases result with
  | error error => cases h
  | ok response =>
    have hstatus : response.status = 410 ∨ response.status = 403 := by simpa [endsSession] using h
    rcases hstatus with hs | hs
    · simp [itemsOf, PollResponse.items, hs]
    · simp [itemsOf, PollResponse.items, hs]

/-- An answer that is not plain has an error to report. -/
theorem itemsOf_ne_nil_of_not_plain {result : Except TransportError PollResponse} (h : plain result = false) :
    itemsOf result ≠ [] := by
  cases result with
  | error error => exact List.cons_ne_nil _ _
  | ok response =>
    have hstatus : (((response.status ≠ 200) ∧ response.status ≠ 204) ∧ response.status ≠ 410) ∧
        response.status ≠ 403 := by simpa [plain] using h
    obtain ⟨⟨⟨h200, h204⟩, h410⟩, h403⟩ := hstatus
    rw [itemsOf, PollResponse.items, if_neg h200, if_neg h204, if_neg h410, if_neg h403]
    exact List.cons_ne_nil _ _

/-- An answer is taken in. -/
theorem Attentive.absorb (hi : s.Attentive) (request : PollRequest)
    (result : Except TransportError PollResponse) {m : LongPoll}
    (hm : m = ((s.forget request).emit (.answered request result)).absorb result) :
    (m.closed = false → m.owned = true → m.listening = true) ∧
      (m.receiving = true → m.listening = true) ∧ (m.closed = true → m.receiving = true → m.events ≠ []) := by
  subst hm
  refine ⟨fun hc ho => ?_, hi.listening, fun hc hr => ?_⟩
  · have hopen : s.closed = false := ((Bool.or_eq_false_iff).mp hc).1
    exact hi.opened hopen ho
  · have hl : s.listening = true := hi.listening hr
    have hevents : (((s.forget request).emit (.answered request result)).absorb result).events =
        s.events ++ itemsOf result := if_pos hl
    rw [hevents]
    rcases (Bool.or_eq_true _ _).mp hc with hc | hends
    · exact List.append_ne_nil_of_left_ne_nil (hi.events hc hr) _
    · exact List.append_ne_nil_of_right_ne_nil _ (itemsOf_ne_nil hends)

/-- One case for each step. The session is over only together with a report, or by the owner's own doing. -/
theorem Stepped.attentive (h : Stepped env s input s') (hi : s.Attentive) : s'.Attentive := by
  cases h with
  | starts start s' hp h => exact h.attentive hi.opened hi.listening hi.events
  | polled outcome start request s' hp h =>
    obtain ⟨ho, hr, he⟩ := hi.absorb request (request.finish env .receive outcome) rfl
    cases h with
    | goesOn hplain hon => exact (pollsOn ..).attentive ho hr he
    | stops hs => exact ⟨ho, hr, he, fun _ _ => rfl⟩
  | unsent message start error last hi' hc => exact ⟨hi.opened, hi.listening, hi.events, hi.ended⟩
  | sends message start body request hi' hc he => exact ⟨hi.opened, hi.listening, hi.events, hi.ended⟩
  | posted outcome request result hs => exact ⟨hi.opened, hi.listening, hi.events, hi.ended⟩
  | dropSend => exact ⟨hi.opened, hi.listening, hi.events, hi.ended⟩
  | refused hi' hc => exact ⟨hi.opened, hi.listening, hi.events, hi.ended⟩
  | takes input event events he hi' | finds input he hp hi' | dropReceive hr =>
    exact ⟨hi.opened, (fun h => absurd h Bool.false_ne_true), (fun _ h => absurd h Bool.false_ne_true), hi.ended⟩
  | waits hi' hc he hp =>
    exact ⟨hi.opened, fun _ => hi.opened hc (owned_of_idle hi'),
      fun h => absurd (hc.symm.trans h) Bool.false_ne_true, hi.ended⟩
  | close hi' =>
    have hr := not_receiving_of_idle hi'
    exact ⟨(fun h => by cases h), fun h => absurd (hr.symm.trans h) Bool.false_ne_true,
      (fun _ h => absurd (hr.symm.trans h) Bool.false_ne_true), fun _ h => absurd h Bool.false_ne_true⟩
  | drop hi' =>
    have hr := not_receiving_of_idle hi'
    exact ⟨(fun _ h => by cases h), fun h => absurd (hr.symm.trans h) Bool.false_ne_true,
      (fun _ h => absurd (hr.symm.trans h) Bool.false_ne_true), fun _ h => absurd h Bool.false_ne_true⟩

/-! ### A session that is over

From then on no step makes a request or puts something into the channel, and a receive that begins
is refused. -/

/-- From `s` to `s'` a session that is over went on: of what the channel held a receive that waited at
`s` took the first, if any did. -/
structure Lingers (s s' : LongPoll) (effects : List LongPollEffect) : Prop where
  trace : s'.trace = s.trace ++ effects
  late : ∀ effect ∈ effects, effect.Late
  closed : s'.closed = true
  taken : effects.filterMap LongPollEffect.taken = [] ∧ s'.events = s.events ∧
      (s'.receiving = true → s.receiving = true) ∨
    s.receiving = true ∧ s'.receiving = false ∧
      ∃ event, s.events.head? = some event ∧ effects.filterMap LongPollEffect.taken = [event]

/-- A step that takes nothing from the channel of a session that is over. -/
theorem Lingers.same {effects effects' : List LongPollEffect} (h : Lingers s₀ s effects)
    (ht : s'.trace = s.trace ++ effects') (hl : ∀ effect ∈ effects', effect.Late) (hc : s'.closed = true)
    (hn : effects'.filterMap LongPollEffect.taken = []) (he : s'.events = s.events)
    (hr : s'.receiving = true → s.receiving = true) : Lingers s₀ s' (effects ++ effects') where
  trace := by rw [ht, h.trace, List.append_assoc]
  late := List.forall_mem_append.mpr ⟨h.late, hl⟩
  closed := hc
  taken := by
    rw [List.filterMap_append, hn, List.append_nil, he]
    rcases h.taken with ⟨hnone, hevents, hwas⟩ | ⟨hwas, hnot, hone⟩
    · exact .inl ⟨hnone, hevents, fun h => hwas (hr h)⟩
    · refine .inr ⟨hwas, ?_, hone⟩
      cases hr' : s'.receiving with
      | false => rfl
      | true => exact absurd (hnot.symm.trans (hr hr')) Bool.false_ne_true

theorem PollsOn.lingers (h : PollsOn s s') (hc : s.closed = true) : s' = { s with poll := .ended } := by
  cases h with
  | closed hc => rfl
  | asks hc' request he => exact absurd (hc'.symm.trans hc) Bool.false_ne_true
  | fails hc' error last => exact absurd (hc'.symm.trans hc) Bool.false_ne_true

/-- In a session that is over only a receive that waits already takes something. -/
theorem Stepped.lingers (h : Stepped env s input s') (hi : s.Attentive) {effects : List LongPollEffect}
    (hl : Lingers s₀ s effects) : ∃ effects', Lingers s₀ s' (effects ++ effects') := by
  have hc := hl.closed
  cases h with
  | starts start s' hp h =>
    rw [h.lingers hc]
    exact ⟨[], hl.same (List.append_nil _).symm (fun _ hm => by cases hm) hc rfl rfl id⟩
  | polled outcome start request s' hp h =>
    have hshut : s.listening = false := by
      cases hlisten : s.listening with
      | false => rfl
      | true => exact absurd (hp.symm.trans (hi.ended hc hlisten)) PollTask.noConfusion
    let result := request.finish env .receive outcome
    let m : LongPoll := ((s.forget request).emit (.answered request result)).absorb result
    have hevents : m.events = s.events := if_neg (ne_true_of_eq_false hshut)
    have hclosed : m.closed = true := by
      show (s.closed || endsSession result) = true
      rw [hc, Bool.true_or]
    have hs' : s' = { m with poll := .ended } := by
      cases h with
      | goesOn hplain hon => exact (pollsOn m start).lingers hclosed
      | stops hs => rfl
    rw [hs']
    exact ⟨[.answered request result], hl.same rfl (List.forall_mem_singleton.mpr trivial) hclosed rfl hevents id⟩
  | unsent message start error last hi' hc' =>
    exact ⟨_, hl.same rfl (List.forall_mem_singleton.mpr trivial) hc rfl rfl id⟩
  | sends message start body request hi' hc' he => exact absurd (hc'.symm.trans hc) Bool.false_ne_true
  | posted outcome request result hs =>
    exact ⟨_, hl.same rfl (List.forall_mem_singleton.mpr trivial) hc rfl rfl id⟩
  | dropSend => exact ⟨[], hl.same (List.append_nil _).symm (fun _ hm => by cases hm) hc rfl rfl id⟩
  | refused hi' hc' => exact ⟨_, hl.same rfl (List.forall_mem_singleton.mpr rfl) hc rfl rfl id⟩
  | takes input event events he hi' =>
    rcases hi' with ⟨-, hopen, -⟩ | ⟨hr, -⟩
    · exact absurd (hopen.symm.trans hc) Bool.false_ne_true
    · refine ⟨[.received event], ?_⟩
      rcases hl.taken with ⟨hnone, hevents, hwas⟩ | ⟨-, hnot, -⟩
      · exact
          { trace := by rw [hl.trace, List.append_assoc]
            late := List.forall_mem_append.mpr ⟨hl.late, List.forall_mem_singleton.mpr trivial⟩
            closed := hc
            taken := .inr ⟨hwas hr, rfl, event, by rw [← hevents, he]; rfl,
              by rw [List.filterMap_append, hnone]; rfl⟩ }
      · exact absurd (hnot.symm.trans hr) Bool.false_ne_true
  | finds input he hp hi' =>
    rcases hi' with ⟨-, hopen, -⟩ | ⟨hr, -⟩
    · exact absurd (hopen.symm.trans hc) Bool.false_ne_true
    · exact absurd he (hi.events hc hr)
  | waits hi' hc' he hp => exact absurd (hc'.symm.trans hc) Bool.false_ne_true
  | dropReceive hr =>
    exact ⟨[], hl.same (List.append_nil _).symm (fun _ hm => by cases hm) hc rfl rfl (fun h => by cases h)⟩
  | close hi' =>
    have hr := not_receiving_of_idle hi'
    exact ⟨_, hl.same rfl (List.forall_mem_singleton.mpr trivial) rfl rfl rfl id⟩
  | drop hi' => exact ⟨[], hl.same (List.append_nil _).symm (fun _ hm => by cases hm) hc rfl rfl id⟩

theorem attentive_start {outcome : HttpOutcome} (h : connect env outcome = .ok s₀) : s₀.Attentive := by
  obtain ⟨token, messages, rfl⟩ := connected h
  exact ⟨fun _ _ => rfl, fun _ => rfl, (fun h => by cases h), fun h => by cases h⟩

theorem reachable_attentive {outcome : HttpOutcome} (hc : connect env outcome = .ok s₀)
    (h : (longPoll env s₀).Reachable s) : s.Attentive :=
  h.invariant (P := Attentive) (attentive_start hc) fun _ _ _ _ hi _ hs => (stepped hs).attentive hi

/-- By induction over what comes after the end. -/
theorem Attentive.lingers (hi : s.Attentive) (hc : s.closed = true) {Ok : LongPoll → LongPollInput → Prop}
    (hpath : (longPoll env s₀).Path Ok s s') : ∃ effects, Lingers s s' effects := by
  have hboth : s'.Attentive ∧ ∃ effects, Lingers s s' effects := by
    refine Machine.Path.invariant (P := fun s' => s'.Attentive ∧ ∃ effects, Lingers s s' effects) ?_ ?_ hpath
    · rintro t input t' ⟨hi, effects, hl⟩ - hs
      obtain ⟨effects', hl'⟩ := (stepped hs).lingers hi hl
      exact ⟨(stepped hs).attentive hi, _, hl'⟩
    · refine ⟨hi, [], ?_⟩
      exact
        { trace := (List.append_nil _).symm
          late := fun _ hm => by cases hm
          closed := hc
          taken := .inl ⟨rfl, rfl, id⟩ }
  exact hboth.2

/-- A poll that is answered with 410 ends the session. -/
theorem polled_gone {answer : HttpOutcome} {start : Start} {request : PollRequest} {response : PollResponse}
    (hw : s.poll = .waiting request) (ha : request.finish env .receive answer = .ok response)
    (hgone : response.status = 410) (hs : s.step env (.polled answer start) = some s') :
    s'.closed = true ∧ s'.receiving = s.receiving ∧
      s'.events = if s.listening then s.events ++ [.ok (.closed sessionGone)] else s.events := by
  let m : LongPoll := ((s.forget request).emit (.answered request (.ok response))).absorb (.ok response)
  have hclosed : m.closed = true := by
    show (s.closed || endsSession (.ok response)) = true
    simp [endsSession, hgone]
  have hs' : s' = { m with poll := .ended } := by
    cases stepped hs with
    | polled _ _ request' s' hp h =>
      cases hw.symm.trans hp
      rw [ha] at h
      cases h with
      | goesOn hplain hon => exact (pollsOn m start).lingers hclosed
      | stops hs => rfl
    | takes _ event events he hi | finds _ he hp hi =>
      rcases hi with ⟨-, -, hi⟩ | ⟨-, hi⟩
      · cases hi
      · cases hi
  have hitems : itemsOf (.ok response) = [.ok (.closed sessionGone)] := by
    simp [itemsOf, PollResponse.items, hgone]
  rw [hs', ← hitems]
  exact ⟨hclosed, rfl, rfl⟩

/-- While a poll is under way the channel holds texts. -/
theorem reachable_texts {outcome : HttpOutcome} (hc : connect env outcome = .ok s₀)
    (h : (longPoll env s₀).Reachable s) (hp : s.poll ≠ .ended) : ∀ event ∈ s.events, IsText event := by
  obtain ⟨put, hqueue, hpart, -⟩ := taken_held h (connected_trace hc)
  intro event hm
  have hput : event ∈ s₀.events ++ put := hqueue ▸ List.mem_append_right _ hm
  rcases List.mem_append.mp hput with hm | hm
  · exact connected_texts hc event hm
  · exact (reachable_endsLast hc h).texts hp event (hpart.mem hm)

/-- Nothing that a session tells peacefully makes the client reconnect. -/
theorem not_reconnects_of_peaceful {effect : LongPollEffect} (h : effect.Peaceful) :
    effect.reconnects = false := by
  cases effect with
  | ended close =>
    have hclose : close = transportClosed := h
    rw [hclose]
    rfl
  | received event =>
    obtain ⟨message, rfl⟩ := h
    rfl
  | requested request | unissued error | answered request result | aborted ids | sent result => rfl

/-- Where no receive waits on an empty channel, the report is not told: a receive that waits takes the
text that is first, and a later one does not look at the channel. -/
theorem gone_unheard {outcome answer : HttpOutcome} {start : Start} {request : PollRequest}
    {response : PollResponse} {s'' : LongPoll} {effects : List LongPollEffect}
    (hconnect : connect env outcome = .ok s₀)
    (h : (longPoll env s₀).Reachable s) (hw : s.poll = .waiting request)
    (ha : request.finish env .receive answer = .ok response) (hgone : response.status = 410)
    (hs : s.step env (.polled answer start) = some s') (hnot : ¬ (s.receiving = true ∧ s.events = []))
    (hpath : (longPoll env s₀).Path (fun _ _ => True) s' s'') (ht : s''.trace = s'.trace ++ effects) :
    ∀ effect ∈ effects, effect.Peaceful := by
  obtain ⟨hclosed, hreceiving, hevents⟩ := polled_gone hw ha hgone hs
  have hattentive := reachable_attentive hconnect h
  obtain ⟨effects', hl⟩ := ((stepped hs).attentive hattentive).lingers hclosed hpath
  cases List.append_cancel_left (ht.symm.trans hl.trace)
  intro effect hm
  cases effect with
  | ended close => exact hl.late _ hm
  | received event =>
    have htaken : event ∈ effects.filterMap LongPollEffect.taken := List.mem_filterMap.mpr ⟨_, hm, rfl⟩
    rcases hl.taken with ⟨hnone, -, -⟩ | ⟨hwaits, -, first, hfirst, hone⟩
    · rw [hnone] at htaken
      cases htaken
    · rw [hone] at htaken
      cases List.mem_singleton.mp htaken
      have hwaits : s.receiving = true := hreceiving.symm.trans hwaits
      cases hheld : s.events with
      | nil => exact absurd ⟨hwaits, hheld⟩ hnot
      | cons text rest =>
        rw [hevents, if_pos (hattentive.listening hwaits), hheld] at hfirst
        cases hfirst
        exact reachable_texts hconnect h (by rw [hw]; exact PollTask.noConfusion) event
          (by rw [hheld]; exact List.mem_cons_self)
  | requested request | unissued error | answered request result | aborted ids | sent result => trivial

/-- **The report that a session is gone reaches only a receive that waits.** When the server answers a
poll with 410, the close that the client would reconnect after is reported in some continuation if and
only if a receive waits at that moment, with nothing else on the channel. Otherwise all that any
continuation tells of the end is a clean close, after which the client does not reconnect. -/
theorem gone_reported_iff {outcome answer : HttpOutcome} {start : Start} {request : PollRequest}
    {response : PollResponse} (hconnect : connect env outcome = .ok s₀)
    (h : (longPoll env s₀).Reachable s) (hw : s.poll = .waiting request)
    (ha : request.finish env .receive answer = .ok response) (hgone : response.status = 410)
    (hs : s.step env (.polled answer start) = some s') :
    ((∃ s'' effects, (longPoll env s₀).Path (fun _ _ => True) s' s'' ∧ s''.trace = s'.trace ++ effects ∧
        ∃ effect ∈ effects, effect.reconnects = true) ↔
      s.receiving = true ∧ s.events = []) ∧
    (¬ (s.receiving = true ∧ s.events = []) →
      ∀ s'' effects, (longPoll env s₀).Path (fun _ _ => True) s' s'' → s''.trace = s'.trace ++ effects →
        ∀ effect ∈ effects, effect.Peaceful) := by
  refine ⟨⟨?_, ?_⟩, fun hnot s'' effects hpath ht => gone_unheard hconnect h hw ha hgone hs hnot hpath ht⟩
  · rintro ⟨s'', effects, hpath, ht, effect, hm, hr⟩
    by_contra hnot
    have hpeaceful := gone_unheard hconnect h hw ha hgone hs hnot hpath ht effect hm
    exact absurd (hr.symm.trans (not_reconnects_of_peaceful hpeaceful)) (by decide)
  · rintro ⟨hwaits, hempty⟩
    obtain ⟨-, hreceiving, hevents⟩ := polled_gone hw ha hgone hs
    have hone : s'.events = [.ok (.closed sessionGone)] := by
      rw [hevents, if_pos ((reachable_attentive hconnect h).listening hwaits), hempty]
      rfl
    -- the receive that waits is woken by the report
    have hwake : (longPoll env s₀).step s' .wake = some
        { s' with
          events := [], receiving := false
          trace := s'.trace ++ [.received (.ok (.closed sessionGone))] } := by
      show (if s'.receiving then s'.next else none) = _
      rw [if_pos (hreceiving.trans hwaits), next, hone]
      rfl
    exact ⟨_, [.received (.ok (.closed sessionGone))], .step .refl trivial hwake, rfl, _,
      List.mem_singleton.mpr rfl, rfl⟩

/-- A receive that waits is told that the session is gone. -/
theorem gone_reported_iff_waiting :
    ∃ s s' : LongPoll, s.receiving = true ∧ ∃ (s'' : LongPoll) (effects : List LongPollEffect),
      s''.trace = s'.trace ++ effects ∧ ∃ effect ∈ effects, effect.reconnects = true := by
  obtain ⟨s, hr, hs⟩ := (longPoll smallWeb hello).reachable_of_run [.poll .issued, .receive, .receive]
    (fun s => s.receiving = true ∧ s.events = [] ∧ s.poll = .waiting ⟨2, some "a", none⟩) (by decide +kernel)
  obtain ⟨hreceiving, hempty, hw⟩ := of_decide_eq_true hs
  obtain ⟨s', hstep⟩ : ∃ s', s.step smallWeb (.polled (.replied 200 "gone") .issued) = some s' := by
    simp only [step, hw]
    exact ⟨_, rfl⟩
  obtain ⟨s'', effects, -, ht, hreconnects⟩ :=
    (gone_reported_iff hello_connected hr hw rfl rfl hstep).1.mpr ⟨hreceiving, hempty⟩
  exact ⟨s, s', hreceiving, s'', effects, ht, hreconnects⟩

end

end LongPoll
end PhoenixChannel.Web
