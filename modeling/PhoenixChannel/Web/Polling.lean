import PhoenixChannel.Web.LongPoll

/-! What a LongPoll session delivers.

The channel between the polling task and the receives is a queue. Whatever runs in between, what
the answers to the polls put into it is received in that order and once, and the end of the
session comes last. -/
namespace PhoenixChannel.Web
open PhoenixChannel.Runtime Library

/-- What an answer puts into the channel. -/
def PollResponse.items (response : PollResponse) : List (Except TransportError TransportEvent) :=
  if response.status = 200 then response.messages.map textEvent
  else if response.status = 204 then []
  else if response.status = 410 then [.ok (.closed LongPoll.sessionGone)]
  else if response.status = 403 then [.ok (.closed LongPoll.forbidden)]
  else [.error ⟨.receive, "LongPoll GET returned status " ++ toString response.status⟩]

namespace LongPollEffect

/-- What the polling task has for the channel. -/
def items : LongPollEffect → List (Except TransportError TransportEvent)
  | .answered _ (.ok response) => response.items
  | .answered _ (.error error) | .unissued error => [.error error]
  | .requested _ | .aborted _ | .received _ | .ended _ | .sent _ => []

/-- What a receive took off the channel. -/
def taken : LongPollEffect → Option (Except TransportError TransportEvent)
  | .received event => some event
  | .requested _ | .unissued _ | .answered _ _ | .aborted _ | .ended _ | .sent _ => none

end LongPollEffect

namespace LongPoll

/-- What receives took off the channel so far. -/
def taken (s : LongPoll) : List (Except TransportError TransportEvent) :=
  s.trace.filterMap LongPollEffect.taken

/-- What the answers so far had for the channel. -/
def offered (s : LongPoll) : List (Except TransportError TransportEvent) :=
  s.trace.flatMap LongPollEffect.items

/-- From `s` to `s'` the channel is a queue: `put` went in, and what was received came out. A channel
whose receiver is closed takes nothing any more. -/
structure Passes (s s' : LongPoll) (effects : List LongPollEffect)
    (put : List (Except TransportError TransportEvent)) : Prop where
  trace : s'.trace = s.trace ++ effects
  queue : s.events ++ put = effects.filterMap LongPollEffect.taken ++ s'.events
  listens : s'.listening = true → s.listening = true
  whole : s'.listening = true → put = effects.flatMap LongPollEffect.items
  part : put <+: effects.flatMap LongPollEffect.items
  shut : s.listening = false → put = []

section
variable {env : Env} {s s' s'' : LongPoll} {input : LongPollInput}
  {effects effects' : List LongPollEffect} {put put' : List (Except TransportError TransportEvent)}

/-- Nothing happens, and the channel keeps what it holds. -/
theorem Passes.refl (s : LongPoll) : Passes s s [] [] where
  trace := by rw [List.append_nil]
  queue := by rw [List.append_nil]; rfl
  listens h := h
  whole _ := rfl
  part := List.nil_prefix
  shut _ := rfl

/-- What two stretches put in and take out, one after the other. -/
theorem Passes.trans (h : Passes s s' effects put) (h' : Passes s' s'' effects' put') :
    Passes s s'' (effects ++ effects') (put ++ put') where
  trace := by rw [h'.trace, h.trace, List.append_assoc]
  queue := by
    rw [← List.append_assoc, h.queue, List.append_assoc, h'.queue, List.filterMap_append, List.append_assoc]
  listens hl := h.listens (h'.listens hl)
  whole hl := by rw [h.whole (h'.listens hl), h'.whole hl, List.flatMap_append]
  part := by
    rw [List.flatMap_append]
    cases hl : s'.listening with
    | true =>
      rw [h.whole hl]
      exact (List.prefix_append_right_inj _).mpr h'.part
    | false =>
      rw [h'.shut hl, List.append_nil]
      exact h.part.trans (List.prefix_append ..)
  shut hl := by
    have hl' : s'.listening = false := by
      cases hl' : s'.listening with
      | false => rfl
      | true => exact absurd (h.listens hl') (by rw [hl]; exact Bool.false_ne_true)
    rw [h.shut hl, h'.shut hl']
    rfl

/-- Nothing happens to the channel. -/
theorem Passes.still (ht : s'.trace = s.trace ++ effects) (he : s'.events = s.events)
    (hl : s'.listening = true → s.listening = true)
    (hi : effects.flatMap LongPollEffect.items = []) (hn : effects.filterMap LongPollEffect.taken = []) :
    Passes s s' effects [] where
  trace := ht
  queue := by rw [hn, he, List.append_nil]; rfl
  listens := hl
  whole _ := hi.symm
  part := List.nil_prefix
  shut _ := rfl

/-- The items of the effects are put in, if the channel takes them. -/
theorem Passes.pushed (ht : s'.trace = s.trace ++ effects) (hl : s'.listening = s.listening)
    (hn : effects.filterMap LongPollEffect.taken = [])
    (he : s'.events =
      if s.listening then s.events ++ effects.flatMap LongPollEffect.items else s.events) :
    Passes s s' effects (if s.listening then effects.flatMap LongPollEffect.items else []) where
  trace := ht
  queue := by
    rw [hn, he]
    cases s.listening with
    | true => rfl
    | false => exact List.append_nil _
  listens h := hl ▸ h
  whole h := if_pos (hl ▸ h)
  part := by
    cases s.listening with
    | true => exact List.prefix_refl _
    | false => exact List.nil_prefix
  shut h := by rw [h]; rfl

/-- From `s` to `s'` the channel is a queue. -/
def Flows (s s' : LongPoll) : Prop := ∃ effects put, Passes s s' effects put

theorem Flows.trans (h : Flows s s') (h' : Flows s' s'') : Flows s s'' := by
  obtain ⟨effects, put, hp⟩ := h
  obtain ⟨effects', put', hp'⟩ := h'
  exact ⟨_, _, hp.trans hp'⟩

/-! ### What the polling task does

An answer ends the session, or goes on with the next poll. `Polled` has one case for each. -/

/-- An event is put into the channel as long as somebody holds its other end. -/
theorem push_eq (s : LongPoll) (event : Except TransportError TransportEvent) :
    s.push event = { s with events := if s.listening then s.events ++ [event] else s.events } := by
  unfold push
  split
  · rfl
  · rfl

/-- The messages of an answer are put in one by one, in their order. -/
theorem foldl_push (s : LongPoll) (messages : List String) :
    messages.foldl (fun s message => s.push (textEvent message)) s =
      { s with
        events := if s.listening then s.events ++ messages.map textEvent else s.events } := by
  induction messages generalizing s with
  | nil =>
    rw [List.foldl_nil, List.map_nil, List.append_nil, ite_self]
  | cons message rest ih =>
    rw [List.foldl_cons, ih, push_eq]
    cases s.listening with
    | true => simp only [if_true, List.append_assoc, List.map_cons, List.singleton_append]
    | false => rfl

/-- A request is made, or an id is used up for nothing. -/
inductive Issued (s : LongPoll) (kind : TransportErrorKind) (body : Option String) :
    Except TransportError PollRequest × LongPoll → Prop where
  | made (request : PollRequest) (he : request = ⟨nextRequestId s.lastRequestId, s.token, body⟩) :
    Issued s kind body
      (.ok request,
        { s with
          requests := s.requests.insert request.id
          lastRequestId := request.id
          trace := s.trace ++ [.requested request] })
  | refused (error : String) (last : UInt64) :
    Issued s kind body (.error ⟨kind, error⟩, { s with lastRequestId := last })

theorem issued (s : LongPoll) (kind : TransportErrorKind) (body : Option String) (start : Start) :
    Issued s kind body (s.issue kind body start) := by
  cases start with
  | issued => exact .made _ rfl
  | noController error => exact .refused error s.lastRequestId
  | notBuilt error => exact .refused error _

/-- What the task does at the head of its loop. -/
inductive PollsOn (s : LongPoll) : LongPoll → Prop where
  | closed (hc : s.closed = true) : PollsOn s { s with poll := .ended }
  | asks (hc : s.closed = false) (request : PollRequest)
      (he : request = ⟨nextRequestId s.lastRequestId, s.token, none⟩) :
    PollsOn s
      { s with
        requests := s.requests.insert request.id
        lastRequestId := request.id
        poll := .waiting request
        trace := s.trace ++ [.requested request] }
  | fails (hc : s.closed = false) (error : TransportError) (last : UInt64) :
    PollsOn s
      { s with
        lastRequestId := last
        events := if s.listening then s.events ++ [.error error] else s.events
        poll := .ended
        trace := s.trace ++ [.unissued error] }

/-- The task ends, waits for the next poll, or fails to make it. -/
theorem pollsOn (s : LongPoll) (start : Start) : PollsOn s (s.pollAgain start) := by
  unfold pollAgain
  split
  · rename_i hc
    exact .closed hc
  · rename_i hc
    have hopen : s.closed = false := eq_false_of_ne_true hc
    have hi := s.issued .receive none start
    split
    · rename_i request s' heq
      rw [heq] at hi
      cases hi with
      | made request he => exact .asks hopen request he
    · rename_i error s' heq
      rw [heq] at hi
      cases hi with
      | refused error last =>
        rw [push_eq]
        exact .fails hopen _ last

/-- What a poll returned has for the channel. -/
def itemsOf : Except TransportError PollResponse → List (Except TransportError TransportEvent)
  | .ok response => response.items
  | .error error => [.error error]

/-- The session is over: the server does not know it any more, or does not allow it. -/
def endsSession : Except TransportError PollResponse → Bool
  | .ok response => response.status = 410 || response.status = 403
  | .error _ => false

/-- The token after an answer. -/
def tokenAfter (token : Option String) : Except TransportError PollResponse → Option String
  | .ok response => if response.status = 200 then response.token <|> token else token
  | .error _ => token

/-- The session once an answer was taken in. -/
def absorb (s : LongPoll) (result : Except TransportError PollResponse) : LongPoll :=
  { s with
    token := tokenAfter s.token result
    events := if s.listening then s.events ++ itemsOf result else s.events
    closed := s.closed || endsSession result }

/-- The polling goes on after an answer that is a success or ends the session. -/
def plain : Except TransportError PollResponse → Bool
  | .ok response =>
    response.status = 200 || response.status = 204 || response.status = 410 || response.status = 403
  | .error _ => false

/-- The answer is taken in, and the task goes on or not. -/
inductive Polled (s : LongPoll) (start : Start) (result : Except TransportError PollResponse) :
    LongPoll → Prop where
  | goesOn (hp : plain result = true)
      (hon : s.listening = true ∨ itemsOf result = [] ∨ endsSession result = true) :
    Polled s start result ((s.absorb result).pollAgain start)
  | stops (hs : plain result = false ∨ s.listening = false ∧ itemsOf result ≠ []) :
    Polled s start result { s.absorb result with poll := .ended }

/-- An answer is reported, its events are put into the channel, and the task goes on or stops. -/
theorem polled (s : LongPoll) (start : Start) (result : Except TransportError PollResponse) :
    Polled s start result (s.onPoll start result) := by
  cases result with
  | error error =>
    have he : s.onPoll start (.error error) = { s.absorb (.error error) with poll := .ended } := by
      simp only [onPoll, push_eq, absorb, tokenAfter, itemsOf, endsSession, Bool.or_false]
    rw [he]
    exact .stops (.inl rfl)
  | ok response =>
    simp only [onPoll]
    by_cases h200 : response.status = 200
    · have habsorb : s.absorb (.ok response) =
          { s with
            token := response.token <|> s.token
            events := if s.listening then s.events ++ response.messages.map textEvent else s.events } := by
        simp [absorb, tokenAfter, itemsOf, PollResponse.items, endsSession, h200]
      rw [if_pos h200, foldl_push]
      by_cases hdeaf : (!s.listening && !response.messages.isEmpty) = true
      · obtain ⟨hl, hm⟩ := (Bool.and_eq_true _ _).mp hdeaf
        have hshut : s.listening = false := by simpa using hl
        have hitems : itemsOf (.ok response) ≠ [] := by
          simpa [itemsOf, PollResponse.items, h200, List.isEmpty_iff] using hm
        have he : { s with token := response.token <|> s.token, poll := .ended } =
            { s.absorb (.ok response) with poll := .ended } := by
          rw [habsorb, hshut]
          rfl
        rw [if_pos hdeaf, he]
        exact .stops (.inr ⟨hshut, hitems⟩)
      · rw [if_neg hdeaf, ← habsorb]
        refine .goesOn (by simp [plain, h200]) ?_
        cases hl : s.listening with
        | true => exact .inl rfl
        | false =>
          rw [hl] at hdeaf
          exact .inr (.inl (by simpa [itemsOf, PollResponse.items, h200, List.isEmpty_iff] using hdeaf))
    · rw [if_neg h200]
      by_cases h204 : response.status = 204
      · have habsorb : s.absorb (.ok response) = s := by
          simp [absorb, tokenAfter, itemsOf, PollResponse.items, endsSession, h204]
        rw [if_pos h204]
        nth_rewrite 2 [← habsorb]
        exact .goesOn (by simp [plain, h204]) (.inr (.inl (by simp [itemsOf, PollResponse.items, h204])))
      · rw [if_neg h204]
        by_cases h410 : response.status = 410
        · have habsorb : s.absorb (.ok response) = s.closeWith sessionGone := by
            rw [closeWith, push_eq]
            simp [absorb, tokenAfter, itemsOf, PollResponse.items, endsSession, h410]
          rw [if_pos h410, ← habsorb]
          exact .goesOn (by simp [plain, h410]) (.inr (.inr (by simp [endsSession, h410])))
        · rw [if_neg h410]
          by_cases h403 : response.status = 403
          · have habsorb : s.absorb (.ok response) = s.closeWith forbidden := by
              rw [closeWith, push_eq]
              simp [absorb, tokenAfter, itemsOf, PollResponse.items, endsSession, h403]
            rw [if_pos h403, ← habsorb]
            exact .goesOn (by simp [plain, h403]) (.inr (.inr (by simp [endsSession, h403])))
          · have he : { s.push (.error ⟨.receive,
                "LongPoll GET returned status " ++ toString response.status⟩) with poll := .ended } =
                { s.absorb (.ok response) with poll := .ended } := by
              rw [push_eq]
              simp [absorb, tokenAfter, itemsOf, PollResponse.items, endsSession, h200, h204, h410, h403]
            rw [if_neg h403, he]
            exact .stops (.inl (by simp [plain, h200, h204, h410, h403]))

/-! ### What a step does

The inversion of a step: what it takes from the channel and what it puts in. -/

/-- What a step does. The steps of the task come first, then the sends, then the receives. -/
inductive Stepped (env : Env) (s : LongPoll) : LongPollInput → LongPoll → Prop where
  | starts (start : Start) (s' : LongPoll) (hp : s.poll = .spawned) (h : PollsOn s s') :
    Stepped env s (.poll start) s'
  | polled (outcome : HttpOutcome) (start : Start) (request : PollRequest) (s' : LongPoll)
      (hp : s.poll = .waiting request)
      (h : Polled
        ((s.forget request).emit (.answered request (request.finish env .receive outcome))) start
        (request.finish env .receive outcome) s') :
    Stepped env s (.polled outcome start) s'
  | unsent (message : WireMessage) (start : Start) (error : TransportError) (last : UInt64)
      (hi : s.idle = true) (hc : s.closed = true → error = closedError) :
    Stepped env s (.send message start)
      { s with lastRequestId := last, trace := s.trace ++ [.sent (.error error)] }
  | sends (message : WireMessage) (start : Start) (body : String) (request : PollRequest)
      (hi : s.idle = true) (hc : s.closed = false)
      (he : request = ⟨nextRequestId s.lastRequestId, s.token, some body⟩) :
    Stepped env s (.send message start)
      { s with
        requests := s.requests.insert request.id
        lastRequestId := request.id
        sending := some request
        trace := s.trace ++ [.requested request] }
  | posted (outcome : HttpOutcome) (request : PollRequest) (result : Except TransportError Unit)
      (hs : s.sending = some request) :
    Stepped env s (.posted outcome)
      { s with
        requests := s.requests.erase request.id
        sending := none
        trace := s.trace ++ [.sent result] }
  | dropSend : Stepped env s .dropSend { s with sending := none }
  | refused (hi : s.idle = true) (hc : s.closed = true) :
    Stepped env s .receive { s with trace := s.trace ++ [.ended transportClosed] }
  | takes (input : LongPollInput) (event : Except TransportError TransportEvent)
      (events : List (Except TransportError TransportEvent)) (he : s.events = event :: events)
      (hi : s.idle = true ∧ s.closed = false ∧ input = .receive ∨ s.receiving = true ∧ input = .wake) :
    Stepped env s input
      { s with events, receiving := false, trace := s.trace ++ [.received event] }
  | finds (input : LongPollInput) (he : s.events = []) (hp : s.poll = .ended)
      (hi : s.idle = true ∧ s.closed = false ∧ input = .receive ∨ s.receiving = true ∧ input = .wake) :
    Stepped env s input { s with receiving := false, trace := s.trace ++ [.ended .connectionEnded] }
  | waits (hi : s.idle = true) (hc : s.closed = false) (he : s.events = []) (hp : s.poll ≠ .ended) :
    Stepped env s .receive { s with receiving := true }
  | dropReceive (hr : s.receiving = true) : Stepped env s .dropReceive { s with receiving := false }
  | close (hi : s.idle = true) :
    Stepped env s .close
      { s with
        closed := true
        listening := false
        requests := ∅
        trace := s.trace ++ [.aborted s.requests.toList] }
  | drop (hi : s.idle = true) : Stepped env s .drop { s with owned := false, listening := false }

/-- What is next on the channel. -/
theorem next_cases (s : LongPoll) :
    (∃ event events, s.events = event :: events ∧
      s.next = some { s with events, receiving := false, trace := s.trace ++ [.received event] }) ∨
    s.events = [] ∧ s.poll = .ended ∧
      s.next = some { s with receiving := false, trace := s.trace ++ [.ended .connectionEnded] } ∨
    s.events = [] ∧ s.poll ≠ .ended ∧ s.next = none := by
  unfold next
  cases he : s.events with
  | cons event events => exact .inl ⟨event, events, rfl, rfl⟩
  | nil =>
    by_cases hp : s.poll = .ended
    · exact .inr (.inl ⟨rfl, hp, if_pos hp⟩)
    · exact .inr (.inr ⟨rfl, hp, if_neg hp⟩)

/-- **What one step of the transport can do.** -/
theorem stepped (h : s.step env input = some s') : Stepped env s input s' := by
  cases input with
  | poll start =>
    obtain ⟨hp, h⟩ := Option.ite_none_right_eq_some.mp h
    cases h
    exact .starts start _ hp (s.pollsOn start)
  | polled outcome start =>
    cases hp : s.poll with
    | waiting request =>
      simp only [step, hp] at h
      cases h
      exact .polled outcome start request _ hp (polled ..)
    | spawned =>
      simp only [step, hp] at h
      cases h
    | ended =>
      simp only [step, hp] at h
      cases h
  | send message start =>
    obtain ⟨hi, h⟩ := Option.ite_none_right_eq_some.mp h
    cases h
    unfold send
    split
    · exact .unsent message start closedError s.lastRequestId hi fun _ => rfl
    · rename_i hc
      have hopen : s.closed = false := eq_false_of_ne_true hc
      extract_lets body
      have hissued := s.issued .send (some body) start
      split
      · rename_i request s' heq
        rw [heq] at hissued
        cases hissued with
        | made request he => exact .sends message start body request hi hopen he
      · rename_i error s' heq
        rw [heq] at hissued
        cases hissued with
        | refused error last => exact .unsent message start _ last hi fun hc' => absurd hc' hc
  | posted outcome =>
    obtain ⟨request, hs, rfl⟩ := Option.map_eq_some_iff.mp h
    exact .posted outcome request _ hs
  | dropSend =>
    obtain ⟨-, h⟩ := Option.ite_none_right_eq_some.mp h
    cases h
    exact .dropSend
  | receive =>
    obtain ⟨hi, h⟩ := Option.ite_none_right_eq_some.mp h
    cases h
    unfold receive
    split
    · rename_i hc
      exact .refused hi hc
    · rename_i hc
      have hopen : s.closed = false := eq_false_of_ne_true hc
      rcases s.next_cases with ⟨event, events, he, hn⟩ | ⟨he, hp, hn⟩ | ⟨he, hp, hn⟩
      · rw [hn]
        exact .takes _ event events he (.inl ⟨hi, hopen, rfl⟩)
      · rw [hn]
        exact .finds _ he hp (.inl ⟨hi, hopen, rfl⟩)
      · rw [hn]
        exact .waits hi hopen he hp
  | wake =>
    obtain ⟨hr, h⟩ := Option.ite_none_right_eq_some.mp h
    rcases s.next_cases with ⟨event, events, he, hn⟩ | ⟨he, hp, hn⟩ | ⟨he, hp, hn⟩
    · rw [hn] at h
      cases h
      exact .takes _ event events he (.inr ⟨hr, rfl⟩)
    · rw [hn] at h
      cases h
      exact .finds _ he hp (.inr ⟨hr, rfl⟩)
    · rw [hn] at h
      cases h
  | dropReceive =>
    obtain ⟨hr, h⟩ := Option.ite_none_right_eq_some.mp h
    cases h
    exact .dropReceive hr
  | close =>
    obtain ⟨hi, h⟩ := Option.ite_none_right_eq_some.mp h
    cases h
    exact .close hi
  | drop =>
    obtain ⟨hi, h⟩ := Option.ite_none_right_eq_some.mp h
    cases h
    exact .drop hi

/-! ### The channel is a queue

What was put in is what was taken out and what is left, in the same order. -/

theorem PollsOn.flows (h : PollsOn s s') : Flows s s' := by
  cases h with
  | closed hc => exact ⟨_, _, .still (List.append_nil _).symm rfl id rfl rfl⟩
  | asks hc request he => exact ⟨_, _, .still rfl rfl id rfl rfl⟩
  | fails hc error last => exact ⟨[.unissued error], _, .pushed rfl rfl rfl rfl⟩

/-- An answer is put in as it is taken in. -/
theorem flows_absorb (s : LongPoll) (request : PollRequest) (result : Except TransportError PollResponse) :
    Flows s (((s.forget request).emit (.answered request result)).absorb result) := by
  have hitems : [LongPollEffect.answered request result].flatMap LongPollEffect.items = itemsOf result := by
    cases result with
    | ok response => exact List.append_nil _
    | error error => rfl
  refine ⟨[.answered request result], _, .pushed rfl rfl rfl ?_⟩
  rw [hitems]
  rfl

/-- One case for each step; only the polls put in and only the receives take out. -/
theorem Stepped.flows (h : Stepped env s input s') : Flows s s' := by
  cases h with
  | starts start s' hp h => exact h.flows
  | polled outcome start request s' hp h =>
    cases h with
    | goesOn hplain hon => exact (s.flows_absorb request _).trans (pollsOn ..).flows
    | stops hs =>
      exact (s.flows_absorb request _).trans ⟨_, _, .still (List.append_nil _).symm rfl id rfl rfl⟩
  | unsent message start error last hi hc => exact ⟨_, _, .still rfl rfl id rfl rfl⟩
  | sends message start body request hi hc he => exact ⟨_, _, .still rfl rfl id rfl rfl⟩
  | posted outcome request result hs => exact ⟨_, _, .still rfl rfl id rfl rfl⟩
  | dropSend => exact ⟨_, _, .still (List.append_nil _).symm rfl id rfl rfl⟩
  | refused hi hc => exact ⟨_, _, .still rfl rfl id rfl rfl⟩
  | takes input event events he hi =>
    refine ⟨[.received event], [], ?_⟩
    exact
      { trace := rfl
        queue := by rw [he, List.append_nil]; rfl
        listens := id
        whole := fun _ => rfl
        part := List.nil_prefix
        shut := fun _ => rfl }
  | finds input he hp hi => exact ⟨_, _, .still rfl rfl id rfl rfl⟩
  | waits hi hc he hp => exact ⟨_, _, .still (List.append_nil _).symm rfl id rfl rfl⟩
  | dropReceive hr => exact ⟨_, _, .still (List.append_nil _).symm rfl id rfl rfl⟩
  | close hi => exact ⟨_, _, .still rfl rfl (fun h => by cases h) rfl rfl⟩
  | drop hi => exact ⟨_, _, .still (List.append_nil _).symm rfl (fun h => by cases h) rfl rfl⟩

/-- A text for the channel. -/
def IsText (event : Except TransportError TransportEvent) : Prop := ∃ message, event = textEvent message

/-- What the answers had for the channel is texts, and the end of the session after them, if any. -/
structure EndsLast (s : LongPoll) : Prop where
  texts : s.poll ≠ .ended → ∀ event ∈ s.offered, IsText event
  last : ∃ texts ending, s.offered = texts ++ ending ∧ (∀ event ∈ texts, IsText event) ∧ ending.length ≤ 1

/-- An answer has texts for the channel, or else it ends the polling. -/
theorem itemsOf_cases (result : Except TransportError PollResponse) :
    (∀ event ∈ itemsOf result, IsText event) ∨
      (∃ event, itemsOf result = [event]) ∧ (plain result = false ∨ endsSession result = true) := by
  cases result with
  | error error => exact .inr ⟨⟨_, rfl⟩, .inl rfl⟩
  | ok response =>
    by_cases h200 : response.status = 200
    · refine .inl fun event hm => ?_
      rw [itemsOf, PollResponse.items, if_pos h200] at hm
      obtain ⟨message, -, rfl⟩ := List.mem_map.mp hm
      exact ⟨message, rfl⟩
    · by_cases h204 : response.status = 204
      · refine .inl fun event hm => ?_
        rw [itemsOf, PollResponse.items, if_neg h200, if_pos h204] at hm
        cases hm
      · by_cases h410 : response.status = 410
        · exact .inr ⟨⟨.ok (.closed sessionGone), by simp [itemsOf, PollResponse.items, h410]⟩,
            .inr (by simp [endsSession, h410])⟩
        · by_cases h403 : response.status = 403
          · exact .inr ⟨⟨.ok (.closed forbidden), by simp [itemsOf, PollResponse.items, h403]⟩,
              .inr (by simp [endsSession, h403])⟩
          · have hitems : ∃ event, itemsOf (.ok response) = [event] := by
              rw [itemsOf, PollResponse.items, if_neg h200, if_neg h204, if_neg h410, if_neg h403]
              exact ⟨_, rfl⟩
            exact .inr ⟨hitems, .inl (by simp [plain, h200, h204, h410, h403])⟩

theorem EndsLast.of_texts (h : ∀ event ∈ s.offered, IsText event) : s.EndsLast :=
  ⟨fun _ => h, s.offered, [], (List.append_nil _).symm, h, Nat.zero_le _⟩

/-- One more item that is no text, with which the polling ends. -/
theorem EndsLast.of_ended {event : Except TransportError TransportEvent}
    {texts : List (Except TransportError TransportEvent)} (h : ∀ event ∈ texts, IsText event)
    (ho : s.offered = texts ++ [event]) (hp : s.poll = .ended) : s.EndsLast :=
  ⟨fun hne => absurd hp hne, texts, [event], ho, h, Nat.le_refl _⟩

theorem EndsLast.same (h : s.EndsLast) (ho : s'.offered = s.offered)
    (hp : s'.poll = s.poll) : s'.EndsLast :=
  ⟨by rw [ho, hp]; exact h.texts, by rw [ho]; exact h.last⟩

theorem offered_append (effects : List LongPollEffect) (ht : s'.trace = s.trace ++ effects) :
    s'.offered = s.offered ++ effects.flatMap LongPollEffect.items := by
  rw [offered, ht, List.flatMap_append]
  rfl

/-- A poll that could not be made ends the session, behind everything else. -/
theorem PollsOn.endsLast (h : PollsOn s s') (ht : ∀ event ∈ s.offered, IsText event) : s'.EndsLast := by
  cases h with
  | closed hc => exact .of_texts ht
  | asks hc request he =>
    refine .of_texts ?_
    rw [offered_append [.requested request] rfl]
    show ∀ event ∈ s.offered ++ [], IsText event
    rw [List.append_nil]
    exact ht
  | fails hc error last =>
    exact .of_ended ht (offered_append [.unissued error] rfl) rfl

/-- What is offered grows by what the answer has for the channel. -/
theorem offered_absorb (s : LongPoll) (request : PollRequest) (result : Except TransportError PollResponse) :
    (((s.forget request).emit (.answered request result)).absorb result).offered =
      s.offered ++ itemsOf result := by
  rw [offered_append (s := s) [.answered request result] rfl]
  cases result with
  | ok response => exact congrArg _ (List.append_nil _)
  | error error => rfl

/-- Once the session has ended nothing is offered any more, so the end stays last. -/
theorem Stepped.endsLast (h : Stepped env s input s') (hi : s.EndsLast) : s'.EndsLast := by
  cases h with
  | starts start s' hp h => exact h.endsLast (hi.texts (by rw [hp]; exact PollTask.noConfusion))
  | polled outcome start request s' hp h =>
    have htexts := hi.texts (by rw [hp]; exact PollTask.noConfusion)
    have hoffered := s.offered_absorb request (request.finish env .receive outcome)
    rcases itemsOf_cases (request.finish env .receive outcome) with hall | ⟨⟨event, hone⟩, hends⟩
    · have hmore : ∀ event ∈ s.offered ++ itemsOf (request.finish env .receive outcome), IsText event :=
        List.forall_mem_append.mpr ⟨htexts, hall⟩
      rw [← hoffered] at hmore
      cases h with
      | goesOn hplain hon => exact (pollsOn ..).endsLast hmore
      | stops hs => exact .of_texts hmore
    · rw [hone] at hoffered
      cases h with
      | stops hs => exact .of_ended htexts hoffered rfl
      | goesOn hplain hon =>
        have hgone : endsSession (request.finish env .receive outcome) = true :=
          hends.resolve_left (by rw [hplain]; exact Bool.noConfusion)
        have hclosed : (((s.forget request).emit (.answered request
            (request.finish env .receive outcome))).absorb
              (request.finish env .receive outcome)).closed = true := by
          show (s.closed || endsSession (request.finish env .receive outcome)) = true
          rw [hgone, Bool.or_true]
        rw [pollAgain, if_pos hclosed]
        exact .of_ended htexts hoffered rfl
  | unsent message start error last hi' hc | sends message start body request hi' hc he
  | posted outcome request result hs | refused hi' hc | takes input event events he hi'
  | finds input he hp hi' | close hi' =>
    exact hi.same ((offered_append _ rfl).trans (List.append_nil _)) rfl
  | dropSend | waits hi' hc he hp | dropReceive hr | drop hi' => exact hi.same rfl rfl

end

section
variable {env : Env} {s s₀ : LongPoll} {outcome : HttpOutcome}

/-- A session begins with what came with the handshake. -/
theorem connected (h : connect env outcome = .ok s₀) : ∃ (token : String) (messages : List String),
    s₀ =
      { token := some token, events := messages.map textEvent, listening := true, closed := false
        owned := true, requests := ∅, lastRequestId := nextRequestId 0, poll := .spawned, sending := none
        receiving := false, trace := [] } := by
  unfold connect at h
  dsimp only at h
  split at h
  · cases h
  · rename_i response _
    split at h
    · split at h
      · cases h
      · rename_i token _
        cases h
        exact ⟨token, response.messages, rfl⟩
    · split at h
      · cases h
      · cases h

theorem connected_texts (h : connect env outcome = .ok s₀) : ∀ event ∈ s₀.events, IsText event := by
  obtain ⟨token, messages, rfl⟩ := connected h
  intro event hm
  obtain ⟨message, -, rfl⟩ := List.mem_map.mp hm
  exact ⟨message, rfl⟩

theorem connected_trace (h : connect env outcome = .ok s₀) : s₀.trace = [] := by
  obtain ⟨token, messages, rfl⟩ := connected h
  rfl

theorem reachable_flows (h : (longPoll env s₀).Reachable s) : Flows s₀ s :=
  h.invariant (P := Flows s₀) ⟨[], [], .refl s₀⟩ fun _ _ _ _ hf _ hs => hf.trans (stepped hs).flows

/-- In every run the report of the end comes last, if at all. -/
theorem reachable_endsLast (hc : connect env outcome = .ok s₀) (h : (longPoll env s₀).Reachable s) :
    s.EndsLast := by
  refine h.invariant (P := EndsLast) (.of_texts ?_) fun s input s' _ he _ hs => (stepped hs).endsLast he
  show ∀ event ∈ s₀.trace.flatMap LongPollEffect.items, IsText event
  rw [connected_trace hc]
  exact fun event hm => by cases hm

/-- What receives took and what the channel holds, in terms of what was put on it and offered. -/
theorem taken_held (h : (longPoll env s₀).Reachable s) (htrace : s₀.trace = []) :
    ∃ put, s.taken ++ s.events = s₀.events ++ put ∧ put <+: s.offered ∧
      (s.listening = true → put = s.offered) := by
  obtain ⟨effects, put, hpass⟩ := reachable_flows h
  have htake : s.taken = effects.filterMap LongPollEffect.taken := by
    rw [LongPoll.taken, hpass.trace, htrace]
    rfl
  have hoffer : s.offered = effects.flatMap LongPollEffect.items := by
    rw [offered, hpass.trace, htrace]
    rfl
  rw [htake, hoffer]
  exact ⟨put, hpass.queue.symm, hpass.part, hpass.whole⟩

/-- **What the server sends is received once and in order, and the end of the session last.** In every
run of a session, what receives took off the channel and what it still holds are what came with the
handshake and with the answers to the polls, in the order of the answers: all of it while the channel
is open, and from the front of it once the transport was closed or dropped. -/
theorem delivered_in_order (hc : connect env outcome = .ok s₀) (h : (longPoll env s₀).Reachable s) :
    s.taken ++ s.events <+: s₀.events ++ s.offered ∧
      (s.listening = true → s.taken ++ s.events = s₀.events ++ s.offered) ∧
      ∃ texts ending, s₀.events ++ s.offered = texts ++ ending ∧ (∀ event ∈ texts, IsText event) ∧
        ending.length ≤ 1 := by
  obtain ⟨put, hqueue, hpart, hwhole⟩ := taken_held h (connected_trace hc)
  rw [hqueue]
  refine ⟨(List.prefix_append_right_inj _).mpr hpart, fun hl => by rw [hwhole hl], ?_⟩
  obtain ⟨texts, ending, he, hall, hlength⟩ := (reachable_endsLast hc h).last
  rw [he, ← List.append_assoc]
  exact ⟨_, ending, rfl, List.forall_mem_append.mpr ⟨connected_texts hc, hall⟩, hlength⟩

/-- One message is received and one is still held. -/
theorem delivered_in_order_two :
    ∃ s : LongPoll, s.taken = [textEvent "m0"] ∧ s.events = [textEvent "m1"] ∧
      s.taken ++ s.events = hello.events ++ s.offered := by
  obtain ⟨s, hr, hs⟩ := (longPoll smallWeb hello).reachable_of_run
    [.poll .issued, .polled (.replied 200 "m1") .issued, .receive]
    (fun s => s.taken = [textEvent "m0"] ∧ s.events = [textEvent "m1"] ∧ s.listening = true)
    (by decide +kernel)
  obtain ⟨htaken, hevents, hl⟩ := of_decide_eq_true hs
  exact ⟨s, htaken, hevents, (delivered_in_order hello_connected hr).2.1 hl⟩

end

end LongPoll
end PhoenixChannel.Web
