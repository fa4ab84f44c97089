import PhoenixChannel.Runtime.Session
import Mathlib.Data.List.Basic

/-! The browser WebSocket transport and its health check.

Before a WebSocket is used it may have to open, and to answer a heartbeat, in time. What else arrives
until then is set aside for later receives, so the check costs the application nothing but its own
answer. A socket is the script of what it will yield; past the end of the script it ends or yields
nothing for now. When a deadline is noticed is left to the environment. -/
namespace PhoenixChannel.Web
open PhoenixChannel.Runtime

/-- What the browser's WebSocket yields. -/
inductive SocketItem where
  | text (value : String)
  | bytes (value : List UInt8)
  | connectionClose (code : UInt16) (reason : String) (wasClean : Bool)
  | failure (error : String)

/-- `websocket_event`. -/
def websocketEvent : SocketItem → Except TransportError TransportEvent
  | .text value => .ok (.message (.text value))
  | .bytes value => .ok (.message (.binary value))
  | .connectionClose code reason wasClean => .ok (.closed ⟨some code, reason, wasClean⟩)
  | .failure error => .error ⟨.receive, error⟩

/-- A transport over an open WebSocket: what it will yield, and whether it ends after that. -/
structure WebTransport where
  incoming : List SocketItem
  ends : Bool
  queued : List TransportEvent

def healthCheckReference : String := "phoenix-channel-runtime-health"

/-- `is_health_check_ack`, of the JSON that a text is read as. -/
def isAck (frame : Value) : Bool :=
  match frame.asArray with
  | none => false
  | some fields =>
    (fields[1]?.bind Value.asStr) == some healthCheckReference &&
      (fields[2]?.bind Value.asStr) == some "phoenix" &&
      (fields[3]?.bind Value.asStr) == some "phx_reply" &&
      ((fields[4]?.bind Value.asObject).bind fun members => (Members.get members "status").bind Value.asStr) ==
        some "ok"

/-- What polling a step of the transport gives. -/
inductive Awaited (α : Type) where
  | ready (result : Except TransportError α)
  | pending

namespace WebTransport

/-- The event is the answer to the health check. `read` is the JSON parser. -/
def isHealthCheckAck (read : String → Option Value) : TransportEvent → Bool
  | .message (.text text) => (read text).any isAck
  | .message (.binary _) | .closed _ => false

def isClosed : TransportEvent → Bool
  | .closed _ => true
  | .message _ => false

/-- The loop of `health_check`, once its heartbeat is sent. The deadline is noticed at the latest when
`patience` items were read; a WebSocket that yields nothing is waited for until then. -/
def healthCheck (read : String → Option Value) (ends : Bool) :
    Nat → List SocketItem → List TransportEvent → Except TransportError (List SocketItem × List TransportEvent)
  | 0, _, _ => .error ⟨.connect, "WebSocket health check timed out"⟩
  | _ + 1, [], _ =>
    if ends then .error ⟨.connect, "WebSocket ended during health check"⟩
    else .error ⟨.connect, "WebSocket health check timed out"⟩
  | patience + 1, item :: incoming, queued =>
    match websocketEvent item with
    | .error error => .error error
    | .ok event =>
      if isHealthCheckAck read event then .ok (incoming, queued)
      else if isClosed event then .error ⟨.connect, "WebSocket closed during health check"⟩
      else healthCheck read ends patience incoming (queued ++ [event])

def receive (t : WebTransport) : Awaited TransportEvent × WebTransport :=
  match t.queued with
  | event :: queued => (.ready (.ok event), { t with queued })
  | [] =>
    match t.incoming with
    | item :: incoming => (.ready (websocketEvent item), { t with incoming })
    | [] => if t.ends then (.ready (.ok (.closed .connectionEnded)), t) else (.pending, t)

end WebTransport

/-- What the browser does with a WebSocket: whether it is created, gets ready and is open then, whether
the heartbeat is sent, and what it yields. Failures are held as the texts they print. -/
structure WebSocket where
  created : Except String Unit
  ready : Except String Unit
  isOpen : Bool
  heartbeat : Except String Unit
  incoming : List SocketItem
  ends : Bool

namespace WebTransport

/-- `connect_resolved`, of a WebSocket. -/
def connectResolved (socket : WebSocket) : Except TransportError WebTransport :=
  match socket.created, socket.ready with
  | .error e, _ => .error ⟨.connect, e⟩
  | .ok _, .error e => .error ⟨.connect, e⟩
  | .ok _, .ok _ =>
    if socket.isOpen then .ok ⟨socket.incoming, socket.ends, []⟩
    else .error ⟨.connect, "WebSocket closed before the open event"⟩

/-- `connect_with_health_check`. The WebSocket opens before the first deadline is noticed, or not; the
second is noticed when `patience` items were read. -/
def connectWithHealthCheck (read : String → Option Value) (socket : WebSocket) (opensInTime : Bool)
    (patience : Nat) : Except TransportError WebTransport :=
  if !opensInTime then .error ⟨.connect, "WebSocket open timed out"⟩
  else
    match connectResolved socket with
    | .error error => .error error
    | .ok t =>
      match socket.heartbeat with
      | .error e => .error ⟨.send, e⟩
      | .ok _ =>
        match healthCheck read t.ends patience t.incoming t.queued with
        | .error error => .error error
        | .ok (incoming, queued) => .ok { t with incoming, queued }

/-- What the next `n` receives return. -/
def received : Nat → WebTransport → List (Awaited TransportEvent)
  | 0, _ => []
  | n + 1, t => t.receive.1 :: received n t.receive.2

/-! ### What is received

What is set aside comes first, then what the socket yields. -/

/-- What is there for receives, oldest first. -/
def arrives (t : WebTransport) : List (Except TransportError TransportEvent) :=
  t.queued.map .ok ++ t.incoming.map websocketEvent

section
variable {t t' : WebTransport} {read : String → Option Value}

/-- A receive returns the first that is there, or the end. -/
theorem receive_cases (t : WebTransport) :
    (∃ result t', t.arrives = result :: t'.arrives ∧ t'.ends = t.ends ∧ t.receive = (.ready result, t')) ∨
      t.arrives = [] ∧
        t.receive = (if t.ends then .ready (.ok (.closed .connectionEnded)) else .pending, t) := by
  obtain ⟨incoming, ends, queued⟩ := t
  cases queued with
  | cons event queued => exact .inl ⟨.ok event, ⟨incoming, ends, queued⟩, rfl, rfl, rfl⟩
  | nil =>
    cases incoming with
    | cons item incoming => exact .inl ⟨websocketEvent item, ⟨incoming, ends, []⟩, rfl, rfl, rfl⟩
    | nil =>
      refine .inr ⟨rfl, ?_⟩
      cases ends with
      | true => rfl
      | false => rfl

/-- Receives tell transports apart only by what is there and by whether they end. -/
theorem received_congr (ha : t'.arrives = t.arrives) (he : t'.ends = t.ends) (n : Nat) :
    t'.received n = t.received n := by
  induction n generalizing t t' with
  | zero => rfl
  | succ n ih =>
    rcases t.receive_cases with ⟨result, m, hm, hends, hr⟩ | ⟨hnone, hr⟩
    · rcases t'.receive_cases with ⟨result', m', hm', hends', hr'⟩ | ⟨hnone', hr'⟩
      · obtain ⟨rfl, hrest⟩ := List.cons_eq_cons.mp (hm'.symm.trans (ha.trans hm))
        have hsame : m'.ends = m.ends := by rw [hends', hends, he]
        simp only [received, hr, hr', ih hrest hsame]
      · cases hnone'.symm.trans (ha.trans hm)
    · rcases t'.receive_cases with ⟨result', m', hm', hends', hr'⟩ | ⟨hnone', hr'⟩
      · cases hnone.symm.trans (ha.symm.trans hm')
      · simp only [received, hr, hr', ih ha he, he]

/-! ### The health check

It takes what arrives up to the acknowledgement, and puts everything else aside for the receives to
come. -/

/-- The item answers the health check. -/
def Answers (read : String → Option Value) (item : SocketItem) : Prop :=
  ∃ event, websocketEvent item = .ok event ∧ isHealthCheckAck read event = true

/-- The item is set aside by the health check. -/
def SetAside (read : String → Option Value) (item : SocketItem) (event : TransportEvent) : Prop :=
  websocketEvent item = .ok event ∧ isHealthCheckAck read event = false ∧ isClosed event = false

/-- The check reads up to the first answer, over nothing but what it sets aside, before the deadline. -/
theorem healthCheck_ok_iff (ends : Bool) (patience : Nat) (incoming rest : List SocketItem)
    (queued queued' : List TransportEvent) :
    healthCheck read ends patience incoming queued = .ok (rest, queued') ↔
      ∃ (before : List SocketItem) (ack : SocketItem) (events : List TransportEvent),
        incoming = before ++ ack :: rest ∧ Answers read ack ∧ List.Forall₂ (SetAside read) before events ∧
          before.length < patience ∧ queued' = queued ++ events := by
  induction incoming generalizing queued patience with
  | nil =>
    constructor
    · intro h
      cases patience with
      | zero => cases h
      | succ patience =>
        cases ends with
        | true => cases h
        | false => cases h
    · rintro ⟨before, ack, events, he, -⟩
      cases before with
      | nil => cases he
      | cons item before => cases he
  | cons item incoming ih =>
    cases patience with
    | zero =>
      constructor
      · intro h
        cases h
      · rintro ⟨before, ack, events, -, -, -, hlt, -⟩
        exact absurd hlt (Nat.not_lt_zero _)
    | succ patience =>
      constructor
      · intro h
        cases hw : websocketEvent item with
        | error error =>
          simp only [healthCheck, hw] at h
          cases h
        | ok event =>
          simp only [healthCheck, hw] at h
          cases hack : isHealthCheckAck read event with
          | true =>
            rw [if_pos hack] at h
            cases h
            exact ⟨[], item, [], rfl, ⟨event, hw, hack⟩, .nil, Nat.succ_pos _, (List.append_nil _).symm⟩
          | false =>
            rw [if_neg (ne_true_of_eq_false hack)] at h
            cases hclosed : isClosed event with
            | true =>
              rw [if_pos hclosed] at h
              cases h
            | false =>
              rw [if_neg (ne_true_of_eq_false hclosed)] at h
              obtain ⟨before, ack, events, rfl, ha, haside, hlt, rfl⟩ := (ih _ _).mp h
              refine ⟨item :: before, ack, event :: events, rfl, ha, .cons ⟨hw, hack, hclosed⟩ haside,
                Nat.succ_lt_succ hlt, ?_⟩
              rw [List.append_assoc]
              rfl
      · rintro ⟨before, ack, events, he, ⟨event, hw, hack⟩, haside, hlt, rfl⟩
        cases haside with
        | nil =>
          obtain ⟨rfl, rfl⟩ := List.cons_eq_cons.mp he
          simp only [healthCheck, hw]
          rw [if_pos hack, List.append_nil]
        | @cons first event' before events hfirst haside =>
          obtain ⟨rfl, rfl⟩ := List.cons_eq_cons.mp he
          obtain ⟨hw', hack', hclosed'⟩ := hfirst
          simp only [healthCheck, hw']
          rw [if_neg (ne_true_of_eq_false hack'), if_neg (ne_true_of_eq_false hclosed')]
          refine (ih _ _).mpr ⟨before, ack, events, rfl, ⟨event, hw, hack⟩, haside, Nat.lt_of_succ_lt_succ hlt, ?_⟩
          rw [List.append_assoc]
          rfl

theorem SetAside.map_eq {before : List SocketItem} {events : List TransportEvent}
    (h : List.Forall₂ (SetAside read) before events) : before.map websocketEvent = events.map .ok := by
  induction h with
  | nil => rfl
  | cons hfirst _ ih => rw [List.map_cons, List.map_cons, hfirst.1, ih]

/-- The first answer among what the WebSocket yields comes after `before`, all of which is set aside. -/
def Acknowledged (read : String → Option Value) (incoming before after : List SocketItem) : Prop :=
  ∃ ack events, incoming = before ++ ack :: after ∧ Answers read ack ∧ List.Forall₂ (SetAside read) before events

/-- Nothing but one answer comes after what is set aside before it. -/
theorem Acknowledged.unique {incoming before after before' after' : List SocketItem}
    (h : Acknowledged read incoming before after) (h' : Acknowledged read incoming before' after') :
    before = before' ∧ after = after' := by
  obtain ⟨ack, events, rfl, ⟨event, hw, hack⟩, haside⟩ := h
  obtain ⟨ack', events', he, ⟨event', hw', hack'⟩, haside'⟩ := h'
  have hclash : ∀ {item : SocketItem} {event event' : TransportEvent}, SetAside read item event →
      websocketEvent item = .ok event' → isHealthCheckAck read event' = true → False := by
    rintro item event event' ⟨hw, hno, -⟩ hw' hyes
    cases hw.symm.trans hw'
    exact Bool.false_ne_true (hno.symm.trans hyes)
  induction haside generalizing before' events' with
  | nil =>
    cases haside' with
    | nil => exact ⟨rfl, (List.cons_eq_cons.mp he).2⟩
    | cons hfirst _ =>
      obtain ⟨rfl, -⟩ := List.cons_eq_cons.mp he
      exact (hclash hfirst hw hack).elim
  | cons hfirst _ ih =>
    cases haside' with
    | nil =>
      obtain ⟨rfl, -⟩ := List.cons_eq_cons.mp he
      exact (hclash hfirst hw' hack').elim
    | cons _ hrest =>
      obtain ⟨rfl, hrest'⟩ := List.cons_eq_cons.mp he
      obtain ⟨rfl, rfl⟩ := ih _ hrest' hrest
      exact ⟨rfl, rfl⟩

/-- What a WebSocket that opens becomes. -/
theorem connectResolved_eq {socket : WebSocket} {t : WebTransport} (h : connectResolved socket = .ok t) :
    t = ⟨socket.incoming, socket.ends, []⟩ := by
  unfold connectResolved at h
  split at h
  · cases h
  · cases h
  · split at h
    · cases h
      rfl
    · cases h

/-- A WebSocket is used if it opens in time, takes the heartbeat and answers it in time. Then it has
everything that it yielded but the answer. -/
theorem connectWithHealthCheck_ok_iff {socket : WebSocket} {opensInTime : Bool} {patience : Nat} :
    connectWithHealthCheck read socket opensInTime patience = .ok t ↔
      opensInTime = true ∧ (∃ opened, connectResolved socket = .ok opened) ∧ socket.heartbeat = .ok () ∧
        ∃ before ack after events, socket.incoming = before ++ ack :: after ∧ Answers read ack ∧
          List.Forall₂ (SetAside read) before events ∧ before.length < patience ∧
            t = ⟨after, socket.ends, events⟩ := by
  unfold connectWithHealthCheck
  cases opensInTime with
  | false =>
    constructor
    · intro h
      cases h
    · rintro ⟨h, -⟩
      cases h
  | true =>
    cases hopen : connectResolved socket with
    | error error =>
      constructor
      · intro h
        cases h
      · rintro ⟨-, ⟨opened, h⟩, -⟩
        cases h
    | ok opened =>
      cases connectResolved_eq hopen
      cases hsent : socket.heartbeat with
      | error e =>
        constructor
        · intro h
          cases h
        · rintro ⟨-, -, h, -⟩
          cases h
      | ok sent =>
        constructor
        · intro h
          cases hcheck : healthCheck read socket.ends patience socket.incoming [] with
          | error error =>
            simp only [hcheck] at h
            cases h
          | ok rest =>
            obtain ⟨before, ack, events, hin, hack, haside, hlt, hq⟩ :=
              (healthCheck_ok_iff socket.ends patience socket.incoming rest.1 [] rest.2).mp hcheck
            simp only [hcheck] at h
            cases h
            refine ⟨rfl, ⟨_, rfl⟩, rfl, before, ack, rest.1, events, hin, hack, haside, hlt, ?_⟩
            rw [hq, List.nil_append]
        · rintro ⟨-, -, -, before, ack, after, events, hin, hack, haside, hlt, rfl⟩
          have hcheck := (healthCheck_ok_iff socket.ends patience socket.incoming after [] events).mpr
            ⟨before, ack, events, hin, hack, haside, hlt, (List.nil_append _).symm⟩
          simp only [hcheck]
          rfl

/-- **The health check costs the application its answer and nothing else.** It succeeds exactly when the
WebSocket opens before the first deadline and takes the heartbeat, and an answer is read before the
second deadline and before the WebSocket closes, fails or ends. Then every receive returns what it
would return of a WebSocket that was not checked and that did not send the answer. -/
theorem health_check_lossless (read : String → Option Value) (socket : WebSocket) (opensInTime : Bool)
    (patience : Nat) :
    ((∃ t, connectWithHealthCheck read socket opensInTime patience = .ok t) ↔
      opensInTime = true ∧ (∃ opened, connectResolved socket = .ok opened) ∧ socket.heartbeat = .ok () ∧
        ∃ before after, Acknowledged read socket.incoming before after ∧ before.length < patience) ∧
      ∀ t before after, connectWithHealthCheck read socket opensInTime patience = .ok t →
        Acknowledged read socket.incoming before after →
        ∀ n, t.received n = received n ⟨before ++ after, socket.ends, []⟩ := by
  refine ⟨⟨?_, ?_⟩, fun t before after ht hack n => ?_⟩
  · rintro ⟨t, ht⟩
    obtain ⟨hopens, hopen, hsent, before, ack, after, events, hin, hack, haside, hlt, -⟩ :=
      connectWithHealthCheck_ok_iff.mp ht
    exact ⟨hopens, hopen, hsent, before, after, ⟨ack, events, hin, hack, haside⟩, hlt⟩
  · rintro ⟨hopens, hopen, hsent, before, after, ⟨ack, events, hin, hack, haside⟩, hlt⟩
    exact ⟨_, connectWithHealthCheck_ok_iff.mpr
      ⟨hopens, hopen, hsent, before, ack, after, events, hin, hack, haside, hlt, rfl⟩⟩
  · obtain ⟨-, -, -, before', ack, after', events, hin, hanswers, haside, -, rfl⟩ :=
      connectWithHealthCheck_ok_iff.mp ht
    obtain ⟨rfl, rfl⟩ := hack.unique ⟨ack, events, hin, hanswers, haside⟩
    have harrives : (WebTransport.mk after socket.ends events).arrives =
        (WebTransport.mk (before ++ after) socket.ends []).arrives := by
      show events.map .ok ++ after.map websocketEvent = (before ++ after).map websocketEvent
      rw [← SetAside.map_eq haside, List.map_append]
    exact received_congr harrives rfl n

/-- A parser that knows one text. -/
def ackReader (text : String) : Option Value :=
  if text == "ack" then
    some (.array [.null, .string healthCheckReference, .string "phoenix", .string "phx_reply",
      .object [("response", .object []), ("status", .string "ok")]])
  else none

/-- A WebSocket that answers between two messages. -/
def answering : WebSocket := ⟨.ok (), .ok (), true, .ok (), [.text "a", .text "ack", .text "b"], true⟩

/-- What comes before the answer and what comes after it is received, if two items are read in time. -/
theorem health_check_lossless_between :
    ∃ t, connectWithHealthCheck ackReader answering true 2 = .ok t ∧
      t.received 2 = [.ready (.ok (.message (.text "a"))), .ready (.ok (.message (.text "b")))] := by
  have hack : Acknowledged ackReader answering.incoming [.text "a"] [.text "b"] :=
    ⟨.text "ack", [.message (.text "a")], rfl, ⟨_, rfl, by decide⟩, .cons ⟨rfl, by decide, rfl⟩ .nil⟩
  obtain ⟨hok, hsame⟩ := health_check_lossless ackReader answering true 2
  obtain ⟨t, ht⟩ := hok.mpr ⟨rfl, ⟨_, rfl⟩, rfl, _, _, hack, by decide⟩
  exact ⟨t, ht, hsame t _ _ ht hack 2⟩

end

end WebTransport
end PhoenixChannel.Web
