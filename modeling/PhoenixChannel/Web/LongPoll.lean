import PhoenixChannel.Runtime.Session
import Std.Data.ExtTreeSet

/-! The LongPoll transport.

A task of its own polls the endpoint, one GET after the other, and puts what comes back into a
channel; `send` makes POSTs, and `receive` takes from the channel. The task and the owner of the
transport run in turns and share the session's token and a flag that says that the session is
over. What the browser and the server do is part of the input. -/
namespace PhoenixChannel.Web
open PhoenixChannel.Runtime Library

deriving instance DecidableEq for TransportEvent

/-- The body of a response. -/
structure PollResponse where
  status : UInt16
  token : Option String
  messages : List String
  deriving DecidableEq

/-- One request, as far as the session decides it. A POST has a body. -/
structure PollRequest where
  id : UInt64
  token : Option String
  body : Option String
  deriving DecidableEq

/-- What the browser makes of a request. -/
inductive HttpOutcome where
  | failed (error : String)
  | replied (status : UInt16) (text : String)
  | timedOut

/-- Whether the browser takes a request: there is no abort controller for it, or it cannot be built. -/
inductive Start where
  | issued
  | noController (error : String)
  | notBuilt (error : String)

/-- How bodies are read and bytes are written, and the text of the timeout. -/
structure Env where
  readResponse : String → Except String PollResponse
  encodeBytes : List UInt8 → String
  showTimeout : String

/-- What `long_poll_request` returns once its request came to an outcome. -/
def PollRequest.finish (env : Env) (kind : TransportErrorKind) (request : PollRequest) :
    HttpOutcome → Except TransportError PollResponse
  | .failed error => .error ⟨kind, error⟩
  | .replied status text =>
    if text.isEmpty then .ok ⟨status, request.token, []⟩
    else
      match env.readResponse text with
      | .ok response => .ok response
      | .error error => .error ⟨kind, "invalid LongPoll response: " ++ error⟩
  | .timedOut => .error ⟨kind, "LongPoll request timed out after " ++ env.showTimeout⟩

/-- The next request's id. Zero is left out. -/
def nextRequestId (last : UInt64) : UInt64 := if last + 1 = 0 then 1 else last + 1

/-- What the polling task is at. -/
inductive PollTask where
  | spawned
  | waiting (request : PollRequest)
  | ended
  deriving DecidableEq

/-- What a receive or a send returns, or a request that was made, answered or aborted. A receive
either takes an event off the channel or finds that there is none to come. -/
inductive LongPollEffect where
  | requested (request : PollRequest)
  | unissued (error : TransportError)
  | answered (request : PollRequest) (result : Except TransportError PollResponse)
  | aborted (ids : List UInt64)
  | received (event : Except TransportError TransportEvent)
  | ended (close : TransportClose)
  | sent (result : Except TransportError Unit)

/-- The transport. `events` is what the channel holds, `listening` whether its receiver is open, and
`owned` whether the transport was not dropped yet; the polling task does not depend on that. -/
structure LongPoll where
  token : Option String
  events : List (Except TransportError TransportEvent)
  listening : Bool
  closed : Bool
  owned : Bool
  requests : Std.ExtTreeSet UInt64 compare
  lastRequestId : UInt64
  poll : PollTask
  sending : Option PollRequest
  receiving : Bool
  trace : List LongPollEffect

/-- What the owner of the transport, the browser and the server do. -/
inductive LongPollInput where
  /-- The polling task runs for the first time. -/
  | poll (start : Start)
  /-- The GET comes to an outcome; the task goes on to its next one, if it does. -/
  | polled (outcome : HttpOutcome) (start : Start)
  | send (message : WireMessage) (start : Start)
  | posted (outcome : HttpOutcome)
  | dropSend
  | receive
  /-- A receive that waited goes on. -/
  | wake
  | dropReceive
  | close
  /-- The transport is dropped, with the channel's receiver. -/
  | drop

def closedError : TransportError := ⟨.other, "WebSocket is closed"⟩

def connectError (message : String) : TransportError := ⟨.connect, message⟩

/-- `validate_post_status`. -/
def validatePostStatus (status : UInt16) : Except TransportError Unit :=
  if status = 200 then .ok ()
  else if status = 403 then .error ⟨.send, "LongPoll POST was forbidden"⟩
  else if status = 408 then .error ⟨.send, "LongPoll POST dispatch timed out"⟩
  else if status = 410 then .error ⟨.send, "LongPoll POST session is gone"⟩
  else .error ⟨.send, "LongPoll POST returned status " ++ toString status⟩

/-- A message as an event of the channel. -/
def textEvent (message : String) : Except TransportError TransportEvent := .ok (.message (.text message))

namespace LongPoll

/-- The close that a transport whose session is over reports. -/
def transportClosed : TransportClose := ⟨some 1000, "LongPoll transport closed", true⟩

def sessionGone : TransportClose := ⟨some 3410, "LongPoll session is gone", false⟩

def forbidden : TransportClose := ⟨some 1008, "LongPoll request was forbidden", false⟩

def emit (s : LongPoll) (effect : LongPollEffect) : LongPoll := { s with trace := s.trace ++ [effect] }

/-- `unbounded_send`. -/
def push (s : LongPoll) (event : Except TransportError TransportEvent) : LongPoll :=
  if s.listening then { s with events := s.events ++ [event] } else s

/-- A request is made with the current token. -/
def issue (s : LongPoll) (kind : TransportErrorKind) (body : Option String) :
    Start → Except TransportError PollRequest × LongPoll
  | .issued =>
    let request : PollRequest := ⟨nextRequestId s.lastRequestId, s.token, body⟩
    (.ok request,
      { s with
        requests := s.requests.insert request.id
        lastRequestId := request.id }.emit (.requested request))
  | .noController error => (.error ⟨kind, error⟩, s)
  | .notBuilt error => (.error ⟨kind, error⟩, { s with lastRequestId := nextRequestId s.lastRequestId })

/-- The request is over: it need not be aborted any more. -/
def forget (s : LongPoll) (request : PollRequest) : LongPoll :=
  { s with requests := s.requests.erase request.id }

/-- The polling task at the head of its loop. -/
def pollAgain (s : LongPoll) (start : Start) : LongPoll :=
  if s.closed then { s with poll := .ended }
  else
    match s.issue .receive none start with
    | (.ok request, s) => { s with poll := .waiting request }
    | (.error error, s) => { (s.emit (.unissued error)).push (.error error) with poll := .ended }

/-- The session is over. -/
def closeWith (s : LongPoll) (close : TransportClose) : LongPoll :=
  { s with closed := true }.push (.ok (.closed close))

/-- The polling task with the result of its GET. -/
def onPoll (s : LongPoll) (start : Start) : Except TransportError PollResponse → LongPoll
  | .error error => { s.push (.error error) with poll := .ended }
  | .ok response =>
    if response.status = 200 then
      let s := { s with token := response.token <|> s.token }
      if !s.listening && !response.messages.isEmpty then { s with poll := .ended }
      else (response.messages.foldl (fun s message => s.push (textEvent message)) s).pollAgain start
    else if response.status = 204 then s.pollAgain start
    else if response.status = 410 then (s.closeWith sessionGone).pollAgain start
    else if response.status = 403 then (s.closeWith forbidden).pollAgain start
    else
      { s.push (.error ⟨.receive, "LongPoll GET returned status " ++ toString response.status⟩) with
        poll := .ended }

/-- The oldest event of the channel is received, or the end of the channel, or nothing yet. -/
def next (s : LongPoll) : Option LongPoll :=
  match s.events with
  | event :: events => some ({ s with events, receiving := false }.emit (.received event))
  | [] =>
    if s.poll = .ended then some ({ s with receiving := false }.emit (.ended .connectionEnded))
    else none

/-- The transport is borrowed by at most one operation at a time. -/
def idle (s : LongPoll) : Bool := s.owned && s.sending.isNone && !s.receiving

def send (env : Env) (s : LongPoll) (message : WireMessage) (start : Start) : LongPoll :=
  if s.closed then s.emit (.sent (.error closedError))
  else
    let body :=
      match message with
      | .text text => text
      | .binary bytes => env.encodeBytes bytes
    match s.issue .send (some body) start with
    | (.ok request, s) => { s with sending := some request }
    | (.error error, s) => s.emit (.sent (.error error))

/-- A POST comes to an outcome. -/
def onPosted (env : Env) (s : LongPoll) (request : PollRequest) (outcome : HttpOutcome) : LongPoll :=
  { s.forget request with sending := none }.emit (.sent
    (match request.finish env .send outcome with
    | .ok response => validatePostStatus response.status
    | .error error => .error error))

def receive (s : LongPoll) : LongPoll :=
  if s.closed then s.emit (.ended transportClosed)
  else s.next.getD { s with receiving := true }

def close (s : LongPoll) : LongPoll :=
  { s with closed := true, listening := false, requests := ∅ }.emit (.aborted s.requests.toList)

def step (env : Env) (s : LongPoll) : LongPollInput → Option LongPoll
  | .poll start => if s.poll = .spawned then some (s.pollAgain start) else none
  | .polled outcome start =>
    match s.poll with
    | .waiting request =>
      let result := request.finish env .receive outcome
      some (((s.forget request).emit (.answered request result)).onPoll start result)
    | .spawned | .ended => none
  | .send message start => if s.idle then some (s.send env message start) else none
  | .posted outcome => s.sending.map fun request => s.onPosted env request outcome
  | .dropSend => if s.sending.isSome then some { s with sending := none } else none
  | .receive => if s.idle then some s.receive else none
  | .wake => if s.receiving then s.next else none
  | .dropReceive => if s.receiving then some { s with receiving := false } else none
  | .close => if s.idle then some s.close else none
  | .drop => if s.idle then some { s with owned := false, listening := false } else none

/-- The handshake is a GET without a token. It makes the transport or fails. -/
def connect (env : Env) (outcome : HttpOutcome) : Except TransportError LongPoll :=
  let request : PollRequest := ⟨nextRequestId 0, none, none⟩
  match request.finish env .connect outcome with
  | .error error => .error error
  | .ok response =>
    if response.status = 200 ∨ response.status = 204 ∨ response.status = 410 then
      match response.token with
      | none => .error (connectError "LongPoll handshake did not return a token")
      | some token =>
        .ok
          { token := some token, events := response.messages.map textEvent, listening := true
            closed := false, owned := true, requests := ∅, lastRequestId := request.id, poll := .spawned
            sending := none, receiving := false, trace := [] }
    else if response.status = 403 then .error (connectError "LongPoll handshake was forbidden")
    else .error (connectError ("LongPoll handshake returned status " ++ toString response.status))

end LongPoll

/-- A session after its handshake. -/
def longPoll (env : Env) (s : LongPoll) : Machine LongPoll LongPollInput := ⟨s, LongPoll.step env⟩

/-! ### A small session, for examples

The handshake of its server brings one message. -/

/-- Bodies are handshakes, reports that the session is gone, or messages. -/
def smallWeb : Env where
  readResponse text :=
    .ok
      (if text = "hello" then ⟨200, some "a", ["m0"]⟩
      else if text = "gone" then ⟨410, none, []⟩
      else ⟨200, some "b", [text]⟩)
  encodeBytes _ := ""
  showTimeout := "20s"

/-- A session whose handshake brought one message. -/
def hello : LongPoll where
  token := some "a"
  events := [textEvent "m0"]
  listening := true
  closed := false
  owned := true
  requests := ∅
  lastRequestId := 1
  poll := .spawned
  sending := none
  receiving := false
  trace := []

theorem hello_connected : LongPoll.connect smallWeb (.replied 200 "hello") = .ok hello := rfl

end PhoenixChannel.Web
