import PhoenixChannel.Library.Machine
import PhoenixChannel.Runtime.Ledger
import PhoenixChannel.Runtime.Transport

/-! The sequential session: one owner, one operation at a time.

An operation that waits for its reply pulls events off the transport until the reply
comes, and keeps the others for `nextEvent`. A transport is the script of what its coming
sends and receives result in; past the end of the script an operation stays pending. A
pending operation may be dropped, and the next one goes on from the state it left. -/
namespace PhoenixChannel.Runtime
open Library

/-- Message or close notification received from a transport. -/
inductive TransportEvent where
  | message (message : WireMessage)
  | closed (close : TransportClose)

/-- A transport, as what it still does and the messages it was given. -/
structure Script where
  sends : List (Except TransportError Unit)
  receives : List (Except TransportError TransportEvent)
  sent : List WireMessage := []

/-- Protocol, codec, or transport failure produced by a session. -/
inductive SessionError where
  | protocol (error : ProtocolError)
  | codec (error : String)
  | transport (error : TransportError)
  | connectionClosed (close : TransportClose)

/-- What polling an operation gives. -/
inductive Poll (α : Type) where
  | ready (result : Except SessionError α)
  | pending

/-- What the operation returned, if it returned `Ok`. -/
def Poll.value {α : Type} : Poll α → Option α
  | .ready (.ok a) => some a
  | .ready (.error _) | .pending => none

/-- A session. `arrived` is every event the protocol's `receive` produced, in order; it is
kept for the statements only, and no operation reads it. -/
structure Session where
  protocol : Protocol
  transport : Script
  codec : Codec
  bufferedEvents : List ProtocolEvent
  arrived : List ProtocolEvent

namespace Session

/-- A session over a transport with an application-provided codec. -/
def withCodec (transport : Script) (codec : Codec) : Session :=
  ⟨.new, transport, codec, [], []⟩

/-- `event_reference`: the reference an event answers. -/
def eventReference (event : ProtocolEvent) : Option Reference := event.subject

def send (s : Session) (frame : Frame) : Poll Unit × Session :=
  match s.codec.encode frame with
  | .error e => (.ready (.error (.codec e)), s)
  | .ok message =>
    let sent := s.transport.sent ++ [message]
    match s.transport.sends with
    | [] => (.pending, { s with transport := { s.transport with sent } })
    | .error e :: sends =>
      (.ready (.error (.transport e)), { s with transport := { s.transport with sends, sent } })
    | .ok _ :: sends => (.ready (.ok ()), { s with transport := { s.transport with sends, sent } })

/-- What the protocol makes of a message. -/
def receiveMessage (s : Session) (message : WireMessage) : Poll ProtocolEvent × Session :=
  match s.codec.decode message with
  | .error e => (.ready (.error (.codec e)), s)
  | .ok frame =>
    match s.protocol.receive frame with
    | (.error e, protocol) => (.ready (.error (.protocol e)), { s with protocol })
    | (.ok event, protocol) =>
      (.ready (.ok event), { s with protocol, arrived := s.arrived ++ [event] })

def receiveEvent (s : Session) : Poll ProtocolEvent × Session :=
  match s.transport.receives with
  | [] => (.pending, s)
  | received :: receives =>
    let s := { s with transport := { s.transport with receives } }
    match received with
    | .error e => (.ready (.error (.transport e)), s)
    | .ok (.closed close) => (.ready (.error (.connectionClosed close)), s)
    | .ok (.message message) => s.receiveMessage message

@[simp] theorem receiveMessage_transport (s : Session) (message : WireMessage) :
    (s.receiveMessage message).2.transport = s.transport := by
  unfold receiveMessage
  split
  · rfl
  · split <;> rfl

/-- An event uses up one entry of the script, so that a wait ends with it. -/
theorem receiveEvent_shortens {s s' : Session} {event : ProtocolEvent}
    (h : s.receiveEvent = (.ready (.ok event), s')) :
    s'.transport.receives.length < s.transport.receives.length := by
  simp only [receiveEvent] at h
  split at h
  · cases h
  · rename_i received receives hreceives
    have htransport : s'.transport.receives = receives := by
      split at h
      · cases h
      · cases h
      · rw [← show _ = s' from congrArg Prod.snd h, receiveMessage_transport]
    rw [htransport, hreceives]
    exact Nat.lt_succ_self _

def waitForReference (s : Session) (expectedReference : Reference) : Poll ProtocolEvent × Session :=
  match _h : s.receiveEvent with
  | (.ready (.ok event), s') =>
    if eventReference event = some expectedReference then (.ready (.ok event), s')
    else
      { s' with bufferedEvents := s'.bufferedEvents ++ [event] }.waitForReference expectedReference
  | (.ready (.error e), s') => (.ready (.error e), s')
  | (.pending, s') => (.pending, s')
termination_by s.transport.receives.length
decreasing_by exact receiveEvent_shortens (by assumption)

/-- Sends the frame a protocol operation returned, if it did, and waits for its reply. -/
def request (s : Session) : Except ProtocolError Outbound × Protocol → Poll ProtocolEvent × Session
  | (.error e, protocol) => (.ready (.error (.protocol e)), { s with protocol })
  | (.ok outbound, protocol) =>
    match { s with protocol }.send outbound.frame with
    | (.ready (.ok ()), s) => s.waitForReference outbound.reference
    | (.ready (.error e), s) => (.ready (.error e), s)
    | (.pending, s) => (.pending, s)

def join (s : Session) (topic : Topic) (params : Value) : Poll ProtocolEvent × Session :=
  s.request (s.protocol.join topic params)

def rejoin (s : Session) (topic : Topic) (refreshedParams : Value) : Poll ProtocolEvent × Session :=
  s.request (s.protocol.rejoin topic refreshedParams)

def push (s : Session) (topic : Topic) (event : String) (payload : Payload) :
    Poll ProtocolEvent × Session :=
  s.request (s.protocol.push topic event payload)

def leave (s : Session) (topic : Topic) : Poll ProtocolEvent × Session :=
  s.request (s.protocol.leave topic)

def heartbeat (s : Session) : Poll ProtocolEvent × Session :=
  s.request (.ok s.protocol.heartbeat.1, s.protocol.heartbeat.2)

/-- The next buffered or transport event. -/
def nextEvent (s : Session) : Poll ProtocolEvent × Session :=
  match s.bufferedEvents with
  | event :: bufferedEvents => (.ready (.ok event), { s with bufferedEvents })
  | [] => s.receiveEvent

/-- Marks all channels disconnected and returns the interrupted requests. -/
def resetConnection (s : Session) : List ProtocolEvent × Session :=
  (s.protocol.resetConnection.1, { s with protocol := s.protocol.resetConnection.2 })

end Session

/-- The operations that send a request and return its reply. -/
inductive SessionRequest where
  | join (topic : Topic) (params : Value)
  | rejoin (topic : Topic) (refreshedParams : Value)
  | push (topic : Topic) (event : String) (payload : Payload)
  | leave (topic : Topic)
  | heartbeat

namespace SessionRequest

/-- The operation of the protocol behind a request. -/
def outbound (p : Protocol) : SessionRequest → Except ProtocolError Outbound × Protocol
  | .join topic params => p.join topic params
  | .rejoin topic refreshedParams => p.rejoin topic refreshedParams
  | .push topic event payload => p.push topic event payload
  | .leave topic => p.leave topic
  | .heartbeat => (.ok p.heartbeat.1, p.heartbeat.2)

def perform (s : Session) : SessionRequest → Poll ProtocolEvent × Session
  | .join topic params => s.join topic params
  | .rejoin topic refreshedParams => s.rejoin topic refreshedParams
  | .push topic event payload => s.push topic event payload
  | .leave topic => s.leave topic
  | .heartbeat => s.heartbeat

theorem perform_eq (s : Session) (r : SessionRequest) :
    r.perform s = s.request (r.outbound s.protocol) := by
  cases r <;> rfl

end SessionRequest

/-! ### What one operation does with the events

An operation consumes what the transport yields up to its reply, and sets aside the rest in order. -/

namespace Session

/-- From `s` to `s'` the events `passed` were set aside and `answer` was returned, in the
order in which they arrived. -/
structure Waits (s s' : Session) (passed : List ProtocolEvent) (answer : Option ProtocolEvent) : Prop where
  arrived : s'.arrived = s.arrived ++ passed ++ answer.toList
  buffered : s'.bufferedEvents = s.bufferedEvents ++ passed
  sent : s'.transport.sent = s.transport.sent

/-- A message is decoded and received by the protocol; what comes of it is returned. -/
theorem receiveMessage_waits (s : Session) (message : WireMessage) :
    s.Waits (s.receiveMessage message).2 [] (s.receiveMessage message).1.value := by
  unfold receiveMessage
  split
  · exact ⟨by simp [Poll.value], by simp, rfl⟩
  · split
    · exact ⟨by simp [Poll.value], by simp, rfl⟩
    · exact ⟨by simp [Poll.value], by simp, rfl⟩

/-- The transport is asked until it yields a message, fails or has nothing. -/
theorem receiveEvent_waits (s : Session) : s.Waits s.receiveEvent.2 [] s.receiveEvent.1.value := by
  unfold receiveEvent
  split
  · exact ⟨by simp [Poll.value], by simp, rfl⟩
  · rename_i received receives _
    cases received with
    | error e => exact ⟨by simp [Poll.value], by simp, rfl⟩
    | ok event =>
      cases event with
      | closed close => exact ⟨by simp [Poll.value], by simp, rfl⟩
      | message message =>
        obtain ⟨harrived, hbuffered, hsent⟩ :=
          receiveMessage_waits { s with transport := { s.transport with receives } } message
        exact ⟨harrived, hbuffered, hsent⟩

/-- Two waits in a row, the event between them set aside. -/
theorem Waits.set_aside {s m s' : Session} {event : ProtocolEvent} {passed : List ProtocolEvent}
    {answer : Option ProtocolEvent} (h : s.Waits m [] (some event))
    (h' : { m with bufferedEvents := m.bufferedEvents ++ [event] }.Waits s' passed answer) :
    s.Waits s' (event :: passed) answer where
  arrived := by simp [h'.arrived, h.arrived]
  buffered := by simp [h'.buffered, h.buffered]
  sent := h'.sent.trans h.sent

/-- **A wait returns the event with its reference**, and sets aside the events before it. -/
theorem waitForReference_waits (s : Session) (r : Reference) :
    ∃ passed, s.Waits (s.waitForReference r).2 passed (s.waitForReference r).1.value ∧
      ∀ event ∈ (s.waitForReference r).1.value, eventReference event = some r := by
  induction s using waitForReference.induct r with
  | case1 s event s' h hmatch =>
    have hw := receiveEvent_waits s
    rw [waitForReference, h]
    rw [h] at hw
    simp only [if_pos hmatch]
    refine ⟨[], hw, fun e he => ?_⟩
    cases he
    exact hmatch
  | case2 s event s' h hmatch ih =>
    have hw := receiveEvent_waits s
    obtain ⟨passed, hrest, href⟩ := ih
    rw [waitForReference, h]
    rw [h] at hw
    simp only [if_neg hmatch]
    exact ⟨event :: passed, hw.set_aside hrest, href⟩
  | case3 s e s' h =>
    have hw := receiveEvent_waits s
    rw [waitForReference, h]
    rw [h] at hw
    exact ⟨[], hw, fun e he => by cases he⟩
  | case4 s s' h =>
    have hw := receiveEvent_waits s
    rw [waitForReference, h]
    rw [h] at hw
    exact ⟨[], hw, fun e he => by cases he⟩

/-- Sending leaves the events alone, and gives the transport at most the frame's message. -/
theorem send_keeps (s : Session) (frame : Frame) :
    (s.send frame).2.arrived = s.arrived ∧ (s.send frame).2.bufferedEvents = s.bufferedEvents ∧
      ((s.send frame).1.value = some () → ∃ message, s.codec.encode frame = .ok message ∧
        (s.send frame).2.transport.sent = s.transport.sent ++ [message]) := by
  unfold send
  split
  · exact ⟨rfl, rfl, fun h => by cases h⟩
  · rename_i message hencode
    dsimp only
    split
    · exact ⟨rfl, rfl, fun h => by cases h⟩
    · exact ⟨rfl, rfl, fun h => by cases h⟩
    · exact ⟨rfl, rfl, fun _ => ⟨message, hencode, rfl⟩⟩

/-- From `s` to `s'` a request with the frame of `outbound` was sent, and `answer` returned
if a reply came. -/
structure Answers (s s' : Session) (outbound : Except ProtocolError Outbound)
    (answer : Option ProtocolEvent) : Prop where
  arrived : ∃ passed, s'.arrived = s.arrived ++ passed ++ answer.toList ∧
    s'.bufferedEvents = s.bufferedEvents ++ passed
  answered : ∀ event ∈ answer, ∃ o message, outbound = .ok o ∧ s.codec.encode o.frame = .ok message ∧
    s'.transport.sent = s.transport.sent ++ [message] ∧ eventReference event = some o.reference

/-- A request is sent, and then waited for. If it is refused or cannot be sent, nothing is waited for. -/
theorem request_answers (s : Session) (result : Except ProtocolError Outbound × Protocol) :
    s.Answers (s.request result).2 result.1 (s.request result).1.value := by
  obtain ⟨outbound, protocol⟩ := result
  cases outbound with
  | error e => exact ⟨⟨[], by simp [request, Poll.value]⟩, fun event h => by cases h⟩
  | ok outbound =>
    have hkeeps := send_keeps { s with protocol } outbound.frame
    cases hresult : { s with protocol }.send outbound.frame with
    | mk polled m =>
      simp only [request]
      rw [hresult] at hkeeps ⊢
      obtain ⟨(harrived : m.arrived = s.arrived), (hbuffered : m.bufferedEvents = s.bufferedEvents), hsent⟩ :=
        hkeeps
      cases polled with
      | pending => exact ⟨⟨[], by simp [Poll.value, harrived, hbuffered]⟩, fun event h => by cases h⟩
      | ready result =>
        cases result with
        | error e => exact ⟨⟨[], by simp [Poll.value, harrived, hbuffered]⟩, fun event h => by cases h⟩
        | ok u =>
          obtain ⟨passed, hw, href⟩ := m.waitForReference_waits outbound.reference
          obtain ⟨message, hencode, hgiven⟩ := hsent rfl
          refine ⟨⟨passed, ?_, ?_⟩, fun event h => ⟨outbound, message, rfl, hencode, ?_, href event h⟩⟩
          · rw [hw.arrived, harrived]
          · rw [hw.buffered, hbuffered]
          · rw [hw.sent, hgiven]

/-- The next event is the oldest buffered one, or the next to arrive. -/
theorem nextEvent_takes (s : Session) :
    (s.bufferedEvents = s.nextEvent.1.value.toList ++ s.nextEvent.2.bufferedEvents ∧
      s.nextEvent.2.arrived = s.arrived) ∨
    (s.bufferedEvents = [] ∧ s.nextEvent.2.bufferedEvents = [] ∧
      s.nextEvent.2.arrived = s.arrived ++ s.nextEvent.1.value.toList) := by
  cases hb : s.bufferedEvents with
  | cons event rest =>
    left
    rw [nextEvent, hb]
    exact ⟨rfl, rfl⟩
  | nil =>
    right
    obtain ⟨harrived, hbuffered, _⟩ := receiveEvent_waits s
    rw [nextEvent, hb]
    exact ⟨rfl, by simpa [hb] using hbuffered, by simpa using harrived⟩

end Session

/-- A request is sent under the next reference of the counter. -/
theorem SessionRequest.outbound_fresh {p p' : Protocol} {r : SessionRequest} {o : Outbound}
    (h : r.outbound p = (.ok o, p')) :
    o.reference = p.nextText ∧ o.frame.reference = some p.nextText := by
  have hjoin : ∀ (p : Protocol) (topic : Topic) (params : Value), p.join topic params = (.ok o, p') →
      o.reference = p.nextText ∧ o.frame.reference = some p.nextText := by
    intro p topic params h
    by_cases ha : (p.channelState topic).any ChannelState.active
    · rw [Protocol.join_of_active ha] at h
      cases h
    · rw [Protocol.join_of_inactive ha] at h
      cases h
      exact ⟨rfl, rfl⟩
  cases r with
  | join topic params => exact hjoin p topic params h
  | rejoin topic params =>
    rw [outbound] at h
    cases hs : p.channelState topic with
    | none =>
      rw [Protocol.rejoin_of_unknown hs] at h
      exact hjoin p topic params h
    | some state =>
      by_cases ha : state.active
      · rw [Protocol.rejoin_of_active hs ha] at h
        cases h
      · rw [Protocol.rejoin_of_inactive hs ha] at h
        have hdiscarded := hjoin (p.discardChannel topic).2 topic params h
        exact hdiscarded
  | push topic event payload =>
    rw [outbound] at h
    cases hj : p.joinedRef topic with
    | none =>
      rw [Protocol.push_of_not_joined hj] at h
      cases h
    | some joinRef =>
      rw [Protocol.push_of_joined hj] at h
      cases h
      exact ⟨rfl, rfl⟩
  | leave topic =>
    rw [outbound] at h
    rcases Protocol.leave_cases p topic with ⟨error, hl⟩ | ⟨channel, hc, hs⟩
    · rw [hl] at h
      cases h
    · rw [Protocol.leave_of_joined hc hs] at h
      cases h
      exact ⟨rfl, rfl⟩
  | heartbeat =>
    rw [outbound, Protocol.heartbeat_eq] at h
    cases h
    exact ⟨rfl, rfl⟩

/-! ### Runs of a session

What has been delivered or set aside, so far, is what the transport yielded: each event once, and in
order but for the replies. -/

/-- One call on a session. -/
inductive SessionInput where
  | request (request : SessionRequest)
  | nextEvent
  | resetConnection

/-- A session and the events it gave away: those returned by requests, and those returned
by `nextEvent`. -/
structure Deliveries where
  session : Session
  answered : List ProtocolEvent
  passed : List ProtocolEvent

namespace Deliveries

def step (d : Deliveries) : SessionInput → Deliveries
  | .request request =>
    let (outcome, session) := request.perform d.session
    { d with session, answered := d.answered ++ outcome.value.toList }
  | .nextEvent =>
    let (outcome, session) := d.session.nextEvent
    { d with session, passed := d.passed ++ outcome.value.toList }
  | .resetConnection => { d with session := d.session.resetConnection.2 }

/-- Sessions over a transport with a codec, under any calls. -/
def machine (transport : Script) (codec : Codec) : Machine Deliveries SessionInput :=
  ⟨⟨.withCodec transport codec, [], []⟩, fun d input => some (d.step input)⟩

end Deliveries

/-- `Interleaves left right whole`: `whole` is made of the entries of `left` and of
`right`, each in its order. -/
inductive Interleaves {α : Type} : List α → List α → List α → Prop where
  | nil : Interleaves [] [] []
  | left {left right whole : List α} {a : α} :
      Interleaves left right whole → Interleaves (left ++ [a]) right (whole ++ [a])
  | right {left right whole : List α} {a : α} :
      Interleaves left right whole → Interleaves left (right ++ [a]) (whole ++ [a])

namespace Interleaves
variable {α : Type} {left right whole : List α}

/-- What is added at the end of one side may be added at the end of the whole. -/
theorem append_right (h : Interleaves left right whole) (more : List α) :
    Interleaves left (right ++ more) (whole ++ more) := by
  induction more generalizing right whole with
  | nil => simpa using h
  | cons a more ih => simpa using ih h.right

/-- What is added at the end of the other side may be added at the end of the whole. -/
theorem append_left (h : Interleaves left right whole) (more : Option α) :
    Interleaves (left ++ more.toList) right (whole ++ more.toList) := by
  cases more with
  | none => simpa using h
  | some a => exact h.left

end Interleaves

namespace Deliveries

/-- Every event that arrived was returned by one request, or by one `nextEvent`, or is
buffered; and the ones that no request returned keep their order. -/
def Accounted (d : Deliveries) : Prop :=
  Interleaves d.answered (d.passed ++ d.session.bufferedEvents) d.session.arrived

/-- Whatever operation comes next, or is dropped, the accounts stay right. -/
theorem Accounted.step {d : Deliveries} (h : d.Accounted) (input : SessionInput) :
    (d.step input).Accounted := by
  cases input with
  | request request =>
    obtain ⟨⟨passed, harrived, hbuffered⟩, _⟩ :=
      d.session.request_answers (request.outbound d.session.protocol)
    rw [← SessionRequest.perform_eq] at harrived hbuffered
    have hmerged := (h.append_right passed).append_left (request.perform d.session).1.value
    rw [List.append_assoc, ← hbuffered, ← harrived] at hmerged
    exact hmerged
  | nextEvent =>
    show Interleaves d.answered (d.passed ++ d.session.nextEvent.1.value.toList ++
      d.session.nextEvent.2.bufferedEvents) d.session.nextEvent.2.arrived
    obtain ⟨hbuffered, harrived⟩ | ⟨hempty, hstill, harrived⟩ := d.session.nextEvent_takes
    · rw [List.append_assoc, ← hbuffered, harrived]
      exact h
    · have hmerged := Interleaves.append_right h d.session.nextEvent.1.value.toList
      rw [hempty, List.append_nil] at hmerged
      rw [hstill, List.append_nil, harrived]
      exact hmerged
  | resetConnection => exact h

/-- **A session delivers every event exactly once.** An event that arrived was returned by
one operation or is buffered, the events that no request took are returned in the order
of their messages, and a request returns the event with the fresh reference it sent. -/
theorem delivered_once {transport : Script} {codec : Codec} {d : Deliveries}
    (h : (machine transport codec).Reachable d) :
    d.Accounted ∧
      ∀ (request : SessionRequest) (event : ProtocolEvent), (request.perform d.session).1 = .ready (.ok event) →
        ∃ frame message, frame.reference = some d.session.protocol.nextText ∧
          d.session.codec.encode frame = .ok message ∧
          (request.perform d.session).2.transport.sent = d.session.transport.sent ++ [message] ∧
          Session.eventReference event = some d.session.protocol.nextText := by
  constructor
  · refine h.invariant Interleaves.nil fun d input d' _ hd _ hs => ?_
    cases hs
    exact hd.step input
  · intro request event hready
    have hvalue : (request.perform d.session).1.value = some event := by rw [hready]; rfl
    rw [SessionRequest.perform_eq] at hvalue ⊢
    obtain ⟨o, message, hresult, hencode, hsent, href⟩ :=
      (d.session.request_answers (request.outbound d.session.protocol)).answered event hvalue
    obtain ⟨hreference, hframe⟩ :=
      SessionRequest.outbound_fresh (show request.outbound d.session.protocol = (.ok o, _) from
        Prod.ext hresult rfl)
    exact ⟨o.frame, message, hframe, hencode, hsent, by rw [href, hreference]⟩

/-- A codec for one room: the join, its reply and a broadcast. -/
def lobbyCodec : Codec where
  encode _ := .ok (.text "[\"1\",\"1\",\"room:lobby\",\"phx_join\",\x7b\x7d]")
  decode
    | .text "[\"1\",null,\"room:lobby\",\"new_message\",\x7b\"body\":\"early\"\x7d]" =>
      .ok ⟨some "1", none, "room:lobby", "new_message", .json (.object [("body", .string "early")])⟩
    | .text "[\"1\",\"1\",\"room:lobby\",\"phx_reply\",\x7b\"status\":\"ok\",\"response\":\x7b\x7d\x7d]" =>
      .ok ⟨some "1", some "1", "room:lobby", "phx_reply",
        .json (.object [("response", .object []), ("status", .string "ok")])⟩
    | _ => .error "unexpected message"

/-- A broadcast arrives before the reply to the join; the join returns its reply, and the
next event is the broadcast. -/
def lobbyScript : Script where
  sends := [.ok ()]
  receives := [
    .ok (.message (.text "[\"1\",null,\"room:lobby\",\"new_message\",\x7b\"body\":\"early\"\x7d]")),
    .ok (.message (.text
      "[\"1\",\"1\",\"room:lobby\",\"phx_reply\",\x7b\"status\":\"ok\",\"response\":\x7b\x7d\x7d]"))]

/-- Both messages are delivered: the reply by the join, and then the broadcast. -/
theorem delivered_once_lobby : ∃ d : Deliveries,
    d.answered.length = 1 ∧ d.passed.length = 1 ∧ d.session.arrived.length = 2 ∧ d.Accounted := by
  obtain ⟨d, hr, hd⟩ := Machine.reachable_of_run (machine lobbyScript lobbyCodec)
    [.request (.join "room:lobby" (.object [])), .nextEvent]
    (fun d => d.answered.length = 1 ∧ d.passed.length = 1 ∧ d.session.arrived.length = 2) (by decide +kernel)
  obtain ⟨hanswered, hpassed, harrived⟩ := of_decide_eq_true hd
  exact ⟨d, hanswered, hpassed, harrived, (delivered_once hr).1⟩

end Deliveries
end PhoenixChannel.Runtime
