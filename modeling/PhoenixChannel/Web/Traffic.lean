import PhoenixChannel.Web.SessionEnd

/-! The requests of a LongPoll session, as the server sees them.

`exchange` is the session seen from the other side: polls one at a time, each answered before the
next, posts in between, and every request with the token that the last answer brought. It knows
nothing of the channel, of receives or of who runs when. -/
namespace PhoenixChannel.Web
open PhoenixChannel.Runtime Library

/-- A request, the answer of a poll, or that the client closed the session. The answer of a post says
nothing that later requests depend on. -/
inductive Traffic where
  | poll (token : Option String)
  | answer (result : Except TransportError PollResponse)
  | post (token : Option String)
  | close

/-- What has been exchanged so far comes to: the token in use, whether a poll waits for its answer,
whether an answer stopped the polling, and whether the session is over. -/
structure Exchange where
  token : Option String
  asking : Bool
  stopped : Bool
  closed : Bool

namespace Exchange

def step (x : Exchange) : Traffic → Option Exchange
  | .poll token =>
    if x.asking = false ∧ x.stopped = false ∧ x.closed = false ∧ token = x.token then
      some { x with asking := true }
    else none
  | .answer result =>
    if x.asking then
      some
        { token := LongPoll.tokenAfter x.token result, asking := false, stopped := !LongPoll.plain result
          closed := x.closed || LongPoll.endsSession result }
    else none
  | .post token => if x.closed = false ∧ token = x.token then some x else none
  | .close => some { x with closed := true }

end Exchange

/-- A session whose handshake brought the token. -/
def exchange (token : Option String) : Machine Exchange Traffic := ⟨⟨token, false, false, false⟩, Exchange.step⟩

/-- What the server sees of an effect. -/
def LongPollEffect.traffic : LongPollEffect → Option Traffic
  | .requested request => some (if request.body.isSome then .post request.token else .poll request.token)
  | .answered _ result => some (.answer result)
  | .aborted _ => some .close
  | .unissued _ | .received _ | .ended _ | .sent _ => none

/-- The effect is a request. -/
def LongPollEffect.isRequest : LongPollEffect → Bool
  | .requested _ => true
  | .unissued _ | .answered _ _ | .aborted _ | .received _ | .ended _ | .sent _ => false

namespace LongPoll

def traffic (s : LongPoll) : List Traffic := s.trace.filterMap LongPollEffect.traffic

/-- The exchange is where the transport is. -/
structure InStep (s : LongPoll) (x : Exchange) : Prop where
  token : x.token = s.token
  closed : x.closed = s.closed
  asking : x.asking = true ↔ ∃ request, s.poll = .waiting request
  stopped : x.stopped = true → s.poll = .ended

section
variable {env : Env} {s s' s₀ : LongPoll} {x : Exchange} {input : LongPollInput} {outcome : HttpOutcome}

theorem traffic_append (effects : List LongPollEffect) (ht : s'.trace = s.trace ++ effects) :
    s'.traffic = s.traffic ++ effects.filterMap LongPollEffect.traffic := by
  rw [traffic, ht, List.filterMap_append]
  rfl

/-- Where no poll is under way none is asked for. -/
theorem not_asking (h : InStep s x) (hp : ∀ request, s.poll ≠ .waiting request) : x.asking = false := by
  cases ha : x.asking with
  | false => rfl
  | true =>
    obtain ⟨request, hw⟩ := h.asking.mp ha
    exact absurd hw (hp request)

/-- No poll waits for its answer. -/
theorem asking_false {poll : PollTask} (hp : ∀ request, poll ≠ .waiting request) :
    false = true ↔ ∃ request, poll = .waiting request := by
  constructor
  · intro h
    cases h
  · intro h
    obtain ⟨request, hw⟩ := h
    exact absurd hw (hp request)

/-- Going on, the task makes a poll or none. -/
theorem PollsOn.inStep (s₀ : LongPoll) (h : PollsOn s s') (ht : x.token = s.token) (hc : x.closed = s.closed)
    (ha : x.asking = false) (hstop : x.stopped = false) :
    ∃ events x', s'.traffic = s.traffic ++ events ∧ (exchange s₀.token).run x events = some x' ∧
      InStep s' x' := by
  cases h with
  | closed hc' =>
    refine ⟨[], x, (List.append_nil _).symm, rfl, ht, hc, ?_, fun _ => rfl⟩
    rw [ha]
    exact asking_false fun _ => PollTask.noConfusion
  | asks hc' request he =>
    have htraffic : [LongPollEffect.requested request].filterMap LongPollEffect.traffic =
        [.poll request.token] := by
      rw [he]
      rfl
    refine ⟨[.poll request.token], { x with asking := true }, ?_, ?_, ht, hc,
      ⟨fun _ => ⟨request, rfl⟩, fun _ => rfl⟩, fun h => absurd (hstop.symm.trans h) Bool.false_ne_true⟩
    · rw [← htraffic]
      exact traffic_append _ rfl
    · rw [he]
      exact Machine.run_cons.mpr ⟨_, if_pos ⟨ha, hstop, hc.trans hc', ht.symm⟩, rfl⟩
  | fails hc' error last =>
    refine ⟨[], x, traffic_append [.unissued error] rfl, rfl, ht, hc, ?_, fun _ => rfl⟩
    rw [ha]
    exact asking_false fun _ => PollTask.noConfusion

/-- A step that leaves the session's token, flag and task alone. -/
theorem InStep.same (h : InStep s x) (events : List Traffic) (hf : s'.traffic = s.traffic ++ events)
    (hr : (exchange s₀.token).run x events = some x) (ht : s'.token = s.token)
    (hc : s'.closed = s.closed) (hp : s'.poll = s.poll) :
    ∃ events x', s'.traffic = s.traffic ++ events ∧ (exchange s₀.token).run x events = some x' ∧
      InStep s' x' :=
  ⟨events, x, hf, hr, h.token.trans ht.symm, h.closed.trans hc.symm, by rw [hp]; exact h.asking,
    by rw [hp]; exact h.stopped⟩

/-- Each step is a stretch of the exchange, with the token that the session holds. -/
theorem Stepped.inStep (h : Stepped env s input s') (hx : InStep s x) :
    ∃ events x', s'.traffic = s.traffic ++ events ∧ (exchange s₀.token).run x events = some x' ∧
      InStep s' x' := by
  cases h with
  | starts start s' hp h =>
    have hasking := not_asking hx fun request hw => PollTask.noConfusion (hp.symm.trans hw)
    refine h.inStep s₀ hx.token hx.closed hasking ?_
    cases hstop : x.stopped with
    | false => rfl
    | true => exact PollTask.noConfusion (hp.symm.trans (hx.stopped hstop))
  | polled outcome start request s' hp h =>
    let result := request.finish env .receive outcome
    let m : LongPoll := ((s.forget request).emit (.answered request result)).absorb result
    let answered : Exchange :=
      { token := tokenAfter x.token result, asking := false, stopped := !plain result
        closed := x.closed || endsSession result }
    have htraffic : m.traffic = s.traffic ++ [.answer result] :=
      traffic_append [.answered request result] rfl
    have htoken : answered.token = m.token := by
      show tokenAfter x.token result = tokenAfter s.token result
      rw [hx.token]
    have hclosed : answered.closed = m.closed := by
      show (x.closed || endsSession result) = (s.closed || endsSession result)
      rw [hx.closed]
    have hanswer : (exchange s₀.token).step x (.answer result) = some answered :=
      if_pos (hx.asking.mpr ⟨request, hp⟩)
    cases h with
    | goesOn hplain hon =>
      obtain ⟨events, x', ht, hrun, hx'⟩ := (pollsOn m start).inStep s₀ htoken hclosed rfl
        (by show (!plain result) = false; rw [hplain]; rfl)
      refine ⟨.answer result :: events, x', ?_, Machine.run_cons.mpr ⟨answered, hanswer, hrun⟩, hx'⟩
      rw [ht, htraffic, List.append_assoc]
      rfl
    | stops hs =>
      refine ⟨[.answer result], answered, htraffic, Machine.run_cons.mpr ⟨answered, hanswer, rfl⟩, htoken,
        hclosed, asking_false fun _ => PollTask.noConfusion, fun _ => rfl⟩
  | unsent message start error last hi hc => exact hx.same _ (traffic_append _ rfl) rfl rfl rfl rfl
  | sends message start body request hi hc he =>
    have htraffic : [LongPollEffect.requested request].filterMap LongPollEffect.traffic =
        [.post request.token] := by
      rw [he]
      rfl
    refine hx.same [.post request.token] ?_ ?_ rfl rfl rfl
    · rw [← htraffic]
      exact traffic_append _ rfl
    · rw [he]
      exact Machine.run_cons.mpr ⟨_, if_pos ⟨hx.closed.trans hc, hx.token.symm⟩, rfl⟩
  | posted outcome request result hs => exact hx.same _ (traffic_append _ rfl) rfl rfl rfl rfl
  | dropSend => exact hx.same [] (List.append_nil _).symm rfl rfl rfl rfl
  | refused hi hc => exact hx.same _ (traffic_append _ rfl) rfl rfl rfl rfl
  | takes input event events he hi => exact hx.same _ (traffic_append _ rfl) rfl rfl rfl rfl
  | finds input he hp hi => exact hx.same _ (traffic_append _ rfl) rfl rfl rfl rfl
  | waits hi hc he hp => exact hx.same [] (List.append_nil _).symm rfl rfl rfl rfl
  | dropReceive hr => exact hx.same [] (List.append_nil _).symm rfl rfl rfl rfl
  | close hi =>
    exact ⟨[.close], { x with closed := true }, traffic_append [.aborted _] rfl, rfl, hx.token, rfl, hx.asking,
      hx.stopped⟩
  | drop hi => exact hx.same [] (List.append_nil _).symm rfl rfl rfl rfl

/-- By induction over the run: the two sides stay in step. -/
theorem reachable_inStep (hc : connect env outcome = .ok s₀) (h : (longPoll env s₀).Reachable s) :
    ∃ x, (exchange s₀.token).run (exchange s₀.token).start s.traffic = some x ∧ InStep s x := by
  refine Machine.simulates (M := longPoll env s₀) (N := exchange s₀.token) traffic InStep ?_
    (fun s input s' x _ hx hs => (stepped hs).inStep hx) h
  obtain ⟨token, messages, rfl⟩ := connected hc
  exact ⟨_, rfl, rfl, rfl, asking_false fun _ => PollTask.noConfusion, fun h => by cases h⟩

/-- **What the server sees is an exchange.** In every run of a session polls go out one at a time and are
answered before the next; polls and posts carry the token that the last answer brought; and no request
follows once the session is over, no poll once an answer stopped the polling. -/
theorem traffic_exchanged (hc : connect env outcome = .ok s₀) (h : (longPoll env s₀).Reachable s) :
    ∃ x, (exchange s₀.token).run (exchange s₀.token).start s.traffic = some x ∧ x.token = s.token ∧
      x.closed = s.closed ∧ (x.asking = true ↔ ∃ request, s.poll = .waiting request) := by
  obtain ⟨x, hrun, hx⟩ := reachable_inStep hc h
  exact ⟨x, hrun, hx.token, hx.closed, hx.asking⟩

/-- A poll that brings a new token and one that carries it. -/
theorem traffic_exchanged_twice :
    ∃ s : LongPoll, s.traffic.length = 3 ∧ s.token = some "b" ∧
      ∃ x, (exchange hello.token).run (exchange hello.token).start s.traffic = some x ∧ x.token = s.token := by
  obtain ⟨s, hr, hs⟩ := (longPoll smallWeb hello).reachable_of_run
    [.poll .issued, .polled (.replied 200 "m1") .issued]
    (fun s => s.traffic.length = 3 ∧ s.token = some "b") (by decide +kernel)
  obtain ⟨hlength, htoken⟩ := of_decide_eq_true hs
  obtain ⟨x, hrun, hx, -⟩ := traffic_exchanged hello_connected hr
  exact ⟨s, hlength, htoken, x, hrun, hx⟩

/-! ### A transport that is dropped

Dropping the transport closes nothing: the task does not find out until it has something to put into
the channel. -/

/-- A transport that was dropped does not listen. -/
def Deaf (s : LongPoll) : Prop := s.owned = false → s.listening = false

theorem PollsOn.deaf (h : PollsOn s s') (hd : s.Deaf) : s'.Deaf := by
  cases h with
  | closed hc | asks hc request he | fails hc error last => exact hd

/-- A transport that was dropped does not come back. -/
theorem Stepped.deaf (h : Stepped env s input s') (hd : s.Deaf) : s'.Deaf := by
  cases h with
  | starts start s' hp h => exact h.deaf hd
  | polled outcome start request s' hp h =>
    cases h with
    | goesOn hplain hon => exact (pollsOn ..).deaf hd
    | stops hs => exact hd
  | unsent _ _ _ _ _ _ | sends _ _ _ _ _ _ _ | posted _ _ _ _ | dropSend | refused _ _ | takes _ _ _ _ _
  | finds _ _ _ _ | waits _ _ _ _ | dropReceive _ => exact hd
  | close hi => exact fun _ => rfl
  | drop hi => exact fun _ => rfl

/-- How many requests were made. -/
def requestsMade (s : LongPoll) : Nat := s.trace.countP LongPollEffect.isRequest

/-- The answer of a server that has nothing to send. -/
def nothing : HttpOutcome := .replied 204 ""

/-- An answer with nothing to send makes the task poll again. -/
theorem poll_again (env : Env) (hopen : s.closed = false) {request : PollRequest} (hw : s.poll = .waiting request) :
    ∃ s' request', s.step env (.polled nothing .issued) = some s' ∧ s'.closed = false ∧
      s'.poll = .waiting request' ∧ s'.requestsMade = s.requestsMade + 1 := by
  let response : PollResponse := ⟨204, request.token, []⟩
  let m : LongPoll := (s.forget request).emit (.answered request (.ok response))
  let next : PollRequest := ⟨nextRequestId m.lastRequestId, m.token, none⟩
  let s' : LongPoll :=
    { m with
      requests := m.requests.insert next.id
      lastRequestId := next.id
      poll := .waiting next
      trace := m.trace ++ [.requested next] }
  have hagain : m.pollAgain .issued = s' := if_neg (ne_true_of_eq_false hopen)
  have hstep : s.step env (.polled nothing .issued) = some (m.onPoll .issued (.ok response)) := by
    simp only [step, hw]
    rfl
  refine ⟨s', next, ?_, hopen, rfl, ?_⟩
  · rw [hstep, ← hagain]
    rfl
  · show (s.trace ++ [LongPollEffect.answered request (.ok response)] ++
      [LongPollEffect.requested next]).countP LongPollEffect.isRequest = s.requestsMade + 1
    rw [List.countP_append, List.countP_append]
    rfl

/-- **Only an answer with something to tell stops the polling of a dropped transport.** A transport that
is dropped and not closed goes on with its polls for as long as the server has nothing to send, however
long that is: the path consists of empty answers alone, each followed by the next poll. The first answer
that has anything for the channel is lost and ends the polling. -/
theorem dropped_polls_on (hc : connect env outcome = .ok s₀) (h : (longPoll env s₀).Reachable s)
    (ho : s.owned = false) (hopen : s.closed = false) {request : PollRequest} (hw : s.poll = .waiting request) :
    (∀ n, ∃ s', (longPoll env s₀).Path (fun _ input => input = .polled nothing .issued) s s' ∧
        s'.requestsMade = s.requestsMade + n) ∧
      ∀ answer s', s.step env (.polled answer .issued) = some s' →
        (s'.poll = .ended ↔ itemsOf (request.finish env .receive answer) ≠ []) := by
  have hdeaf : s.listening = false := by
    refine h.invariant (P := Deaf) ?_ (fun _ _ _ _ hd _ hs => (stepped hs).deaf hd) ho
    obtain ⟨token, messages, rfl⟩ := connected hc
    exact fun h => by cases h
  constructor
  · intro n
    have hmore : ∃ s' request', (longPoll env s₀).Path (fun _ input => input = .polled nothing .issued) s s' ∧
        s'.closed = false ∧ s'.poll = .waiting request' ∧ s'.requestsMade = s.requestsMade + n := by
      induction n with
      | zero => exact ⟨s, request, .refl, hopen, hw, rfl⟩
      | succ n ih =>
        obtain ⟨m, request', hpath, hopen', hw', hmade⟩ := ih
        obtain ⟨s', request'', hs, hopen'', hw'', hmade'⟩ := poll_again env hopen' hw'
        exact ⟨s', request'', .step hpath rfl hs, hopen'', hw'',
          hmade'.trans (congrArg (· + 1) hmade)⟩
    obtain ⟨s', -, hpath, -, -, hmade⟩ := hmore
    exact ⟨s', hpath, hmade⟩
  · intro answer s' hs
    let result := request.finish env .receive answer
    let m : LongPoll := ((s.forget request).emit (.answered request result)).absorb result
    cases stepped hs with
    | takes _ event events he hi | finds _ he hp hi =>
      rcases hi with ⟨-, -, hi⟩ | ⟨-, hi⟩
      · cases hi
      · cases hi
    | polled _ _ request' s' hp h =>
      cases hw.symm.trans hp
      cases h with
      | stops hs' =>
        refine ⟨fun _ => ?_, fun _ => rfl⟩
        rcases hs' with hfailed | ⟨-, hitems⟩
        · exact itemsOf_ne_nil_of_not_plain hfailed
        · exact hitems
      | goesOn hplain hon =>
        cases hends : endsSession result with
        | true =>
          have hclosed : m.closed = true := by
            show (s.closed || endsSession result) = true
            rw [hends, Bool.or_true]
          have hover : m.pollAgain .issued = { m with poll := .ended } := (pollsOn m .issued).lingers hclosed
          refine ⟨fun _ => itemsOf_ne_nil hends, fun _ => ?_⟩
          exact congrArg LongPoll.poll hover
        | false =>
          have hclosed : m.closed = false := by
            show (s.closed || endsSession result) = false
            rw [hopen, hends]
            rfl
          have hasks : (m.pollAgain .issued).poll =
              .waiting ⟨nextRequestId m.lastRequestId, m.token, none⟩ := by
            rw [pollAgain, if_neg (ne_true_of_eq_false hclosed)]
            rfl
          refine ⟨fun h => PollTask.noConfusion (hasks.symm.trans h), fun hitems => ?_⟩
          rcases hon with hlisten | hnone | hends'
          · exact absurd (hdeaf.symm.trans hlisten) Bool.false_ne_true
          · exact absurd hnone hitems
          · exact absurd (hends.symm.trans hends') Bool.false_ne_true

/-- A transport that is dropped while its first poll is under way makes a thousand more. -/
theorem dropped_polls_on_thousand :
    ∃ s s' : LongPoll, s.owned = false ∧
      (longPoll smallWeb hello).Path (fun _ input => input = .polled nothing .issued) s s' ∧
      s'.requestsMade = s.requestsMade + 1000 := by
  obtain ⟨s, hr, hs⟩ := (longPoll smallWeb hello).reachable_of_run [.poll .issued, .drop]
    (fun s => s.owned = false ∧ s.closed = false ∧ s.poll = .waiting ⟨2, some "a", none⟩) (by decide +kernel)
  obtain ⟨ho, hopen, hw⟩ := of_decide_eq_true hs
  obtain ⟨s', hpath, hmade⟩ := (dropped_polls_on hello_connected hr ho hopen hw).1 1000
  exact ⟨s, s', ho, hpath, hmade⟩

end

end LongPoll
end PhoenixChannel.Web
