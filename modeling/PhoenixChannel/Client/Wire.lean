import PhoenixChannel.Client.Dealings
import PhoenixChannel.Library.Observation
import PhoenixChannel.Runtime.Unsent

/-! What the driver says of its frames.

An account puts effects beside what came in: the hook hears of every frame that goes out or comes in,
the subscribers of every event that the protocol makes of one, and nobody of anything else. Every step
has one, so over a run the reports are the traffic, in its order. -/
namespace PhoenixChannel.Client
open PhoenixChannel.Runtime Library

/-- What the effects say of frames: each that goes out is reported and can be carried, and the rest is
what came in, what the subscribers were told and what pings were answered with. -/
structure Account (env : Env) (binary : Bool) (effects : List Effect) (received : List TelemetryEvent)
    (told : List (Topic × ProtocolEvent)) (pongs : List (RequestId × Success)) : Prop where
  sent : effects.filterMap Effect.sentReport = (effects.filterMap Effect.frame).filterMap env.sent
  received : effects.filterMap Effect.receivedReport = received
  told : effects.filterMap Effect.told = told
  pongs : effects.filterMap Effect.pong = pongs
  carried : ∀ frame ∈ effects.filterMap Effect.frame, frame.payload.isBinary = true → binary = true

section
variable {env : Env} {binary : Bool} {effects effects' : List Effect} {received received' : List TelemetryEvent}
  {told told' : List (Topic × ProtocolEvent)} {pongs pongs' : List (RequestId × Success)}

theorem Account.append (h : Account env binary effects received told pongs)
    (h' : Account env binary effects' received' told' pongs') :
    Account env binary (effects ++ effects') (received ++ received') (told ++ told') (pongs ++ pongs') where
  sent := by rw [List.filterMap_append, List.filterMap_append, List.filterMap_append, h.sent, h'.sent]
  received := by rw [List.filterMap_append, h.received, h'.received]
  told := by rw [List.filterMap_append, h.told, h'.told]
  pongs := by rw [List.filterMap_append, h.pongs, h'.pongs]
  carried frame hm := by
    rw [List.filterMap_append] at hm
    exact (List.mem_append.mp hm).elim (h.carried frame) (h'.carried frame)

theorem Wired.account (h : Wired env binary effects) : Account env binary effects [] [] [] :=
  ⟨h.reported, h.received, h.told, h.pong, fun _ => h.carried⟩

end

/-- What the hook is told of a message that comes in. -/
def Input.received (env : Env) : Input → List TelemetryEvent
  | .message text =>
    match env.codec.decode text with
    | .ok frame => [.frameReceived frame.topic frame.event text.metadata.1 text.metadata.2]
    | .error _ => []
  | _ => []

namespace Driver

/-- What the subscribers of a topic are told when the protocol makes an event of a frame. -/
def tells (d : Driver) : ProtocolEvent → List (Topic × ProtocolEvent)
  | .heartbeatAck _ _ => []
  | event => if d.state.channels.contains (topicOf event) then [(topicOf event, event)] else []

/-- The ping that an acknowledgement answers, unless it is the heartbeat's. -/
def pongs (d : Driver) : ProtocolEvent → List (RequestId × Success)
  | .heartbeatAck reference _ =>
    if d.connection.heartbeatReference = some reference then []
    else
      match d.state.pendingPings[reference]? with
      | some ping => [(ping.id, .elapsed (d.clock - ping.started))]
      | none => []
  | _ => []

/-- What follows from the event of a message, if the protocol makes one of it. -/
def onEvent {α : Type} (env : Env) (d : Driver) (f : ProtocolEvent → List α) : Input → List α
  | .message message =>
    match env.codec.decode message with
    | .ok frame =>
      match (d.state.protocol.receive frame).1 with
      | .ok event => f event
      | .error _ => []
    | .error _ => []
  | _ => []

/-- From `d` to `d'` this account was given, over one transport. -/
structure Gives (env : Env) (d d' : Driver) (received : List TelemetryEvent)
    (told : List (Topic × ProtocolEvent)) (pongs : List (RequestId × Success)) : Prop where
  binary : d'.transport.supportsBinary = d.transport.supportsBinary
  account : ∃ effects, d'.trace = d.trace ++ effects ∧
    Account env d.transport.supportsBinary effects received told pongs

section
variable {env : Env} {d d' d'' : Driver} {received received' : List TelemetryEvent}
  {told told' : List (Topic × ProtocolEvent)} {pongs pongs' : List (RequestId × Success)}

theorem Gives.trans (h : Gives env d d' received told pongs) (h' : Gives env d' d'' received' told' pongs') :
    Gives env d d'' (received ++ received') (told ++ told') (pongs ++ pongs') where
  binary := h'.binary.trans h.binary
  account := by
    obtain ⟨effects, ht, ha⟩ := h.account
    obtain ⟨effects', ht', ha'⟩ := h'.account
    rw [h.binary] at ha'
    exact ⟨effects ++ effects', by rw [ht', ht, List.append_assoc], ha.append ha'⟩

theorem Deals.gives (h : d.Deals env d') : Gives env d d' [] [] [] := by
  obtain ⟨effects, ht, hw⟩ := h.wired
  exact ⟨h.binary, effects, ht, hw.account⟩

/-- Dealing adds nothing to an account. -/
theorem Gives.deals (h : Gives env d d' received told pongs) (h' : d'.Deals env d'') :
    Gives env d d'' received told pongs := by
  have hall := h.trans h'.gives
  rwa [List.append_nil, List.append_nil, List.append_nil] at hall

theorem Gives.after (h : d.Deals env d') (h' : Gives env d' d'' received told pongs) :
    Gives env d d'' received told pongs :=
  h.gives.trans h'

/-- A frame that comes in is reported. -/
theorem gives_received (env : Env) (d : Driver) (message : WireMessage) (frame : Frame) (p : Protocol) :
    Gives env d (d.received message frame p)
      [.frameReceived frame.topic frame.event message.metadata.1 message.metadata.2] [] [] where
  binary := rfl
  account := ⟨_, rfl, rfl, rfl, rfl, rfl, fun _ hm => by cases hm⟩

/-- An event is told to those who listen. -/
theorem gives_emitChannel (env : Env) (d : Driver) {event : ProtocolEvent}
    (hh : ∀ reference status, event ≠ .heartbeatAck reference status)
    (hi : ∀ topic name reference, event ≠ .requestInterrupted topic name reference) :
    Gives env d (d.emitChannel (topicOf event) (.protocol event)) [] (d.tells event) [] := by
  have htold : Effect.told (.delivered (topicOf event) (.protocol event)) = some (topicOf event, event) := by
    cases event with
    | requestInterrupted topic name reference => exact absurd rfl (hi topic name reference)
    | _ => rfl
  have htells : d.tells event =
      if d.state.channels.contains (topicOf event) then [(topicOf event, event)] else [] := by
    cases event with
    | heartbeatAck reference status => exact absurd rfl (hh reference status)
    | _ => rfl
  rw [emitChannel_eq, htells, channelEffects]
  refine ⟨rfl, _, rfl, ?_⟩
  by_cases hc : d.state.channels.contains (topicOf event)
  · rw [if_pos hc, if_pos hc]
    refine ⟨rfl, rfl, ?_, rfl, fun _ hm => by cases hm⟩
    rw [List.filterMap_cons_none rfl, List.filterMap_cons_some htold]
    rfl
  · rw [if_neg hc, if_neg hc]
    exact ⟨rfl, rfl, rfl, rfl, fun _ hm => by cases hm⟩

/-- A ping is answered. -/
theorem gives_ponged (env : Env) (d : Driver) (reference : Reference) (ping : PendingPing) :
    Gives env d (d.ponged reference ping) [] [] [(ping.id, .elapsed (d.clock - ping.started))] where
  binary := rfl
  account := ⟨_, rfl, rfl, rfl, rfl, rfl, fun _ hm => by cases hm⟩

theorem Told.gives {event : ProtocolEvent} (hh : ∀ reference status, event ≠ .heartbeatAck reference status)
    (hi : ∀ topic name reference, event ≠ .requestInterrupted topic name reference) (h : Told env event d d') :
    Gives env d d' [] (d.tells event) [] := by
  obtain ⟨d₁, hd, hc, he⟩ := h
  have htells : d₁.tells event = d.tells event := by
    cases event with
    | heartbeatAck reference status => rfl
    | _ => exact congrArg (fun known : Bool => if known then [(topicOf _, _)] else []) hc
  have htell := (gives_emitChannel env d₁ hh hi).deals he
  rw [htells] at htell
  exact .after hd htell

theorem Handling.gives {event : ProtocolEvent}
    (hi : ∀ topic name reference, event ≠ .requestInterrupted topic name reference)
    (h : Handling env d event d') : Gives env d d' [] (d.tells event) (d.pongs event) := by
  cases h with
  | told hh h =>
    have hpongs : d.pongs event = [] := by
      cases event with
      | heartbeatAck reference status => exact absurd rfl (hh reference status)
      | _ => rfl
    rw [hpongs]
    exact h.gives hh hi
  | acked reference status he hn h =>
    have hpongs : d.pongs event = [] := by
      rw [he, Driver.pongs]
      by_cases hb : d.connection.heartbeatReference = some reference
      · rw [if_pos hb]
      · rw [if_neg hb, hn.resolve_left hb]
    rw [hpongs, he]
    exact h.gives
  | ponged reference status ping he hb hp h =>
    have hpongs : d.pongs event = [(ping.id, .elapsed (d.clock - ping.started))] := by
      rw [he, Driver.pongs, if_neg hb, hp]
    rw [hpongs, he]
    exact (gives_ponged env d reference ping).deals h

/-- A message is reported once it is decoded, and its event is told or answers a ping. -/
theorem MessageDealt.gives {message : WireMessage} (h : MessageDealt env d message d') :
    Gives env d d' ((Input.message message).received env) (d.onEvent env d.tells (.message message))
      (d.onEvent env d.pongs (.message message)) := by
  cases h with
  | undecodable e hd h =>
    have hreceived : (Input.message message).received env = [] := by simp only [Input.received, hd]
    have hevent : ∀ {α : Type} (f : ProtocolEvent → List α), d.onEvent env f (.message message) = [] := by
      intro α f
      simp only [onEvent, hd]
    rw [hreceived, hevent, hevent]
    exact h.gives
  | refused frame e p hd hr h =>
    have hreceived : (Input.message message).received env =
        [.frameReceived frame.topic frame.event message.metadata.1 message.metadata.2] := by
      simp only [Input.received, hd]
    have hevent : ∀ {α : Type} (f : ProtocolEvent → List α), d.onEvent env f (.message message) = [] := by
      intro α f
      simp only [onEvent, hd, hr]
    rw [hreceived, hevent, hevent]
    exact (gives_received env d message frame p).deals h
  | handled frame event p hd hr h =>
    have hreceived : (Input.message message).received env =
        [.frameReceived frame.topic frame.event message.metadata.1 message.metadata.2] := by
      simp only [Input.received, hd]
    have hevent : ∀ {α : Type} (f : ProtocolEvent → List α), d.onEvent env f (.message message) = f event := by
      intro α f
      simp only [onEvent, hd, hr]
    rw [hreceived, hevent, hevent]
    refine (gives_received env d message frame p).trans (h.gives fun topic name reference he => ?_)
    rw [he] at hr
    exact Protocol.receive_explains hr

/-- A ping goes out like any other frame. -/
theorem gives_ping (env : Env) (d : Driver) (id : RequestId) :
    Gives env d (settle env (d.pinged env id)) [] [] [] := by
  have haccept : d.Deals env (d.accept (.ping id)) := (Deals.refl env d).accept
  have htrack : Gives env (d.accept (.ping id)) ((d.accept (.ping id)).trackPing id) [] [] [] :=
    ⟨rfl, [], (List.append_nil _).symm, (Wired.inward (List.forall_mem_nil _)).account⟩
  have hsend : ((d.accept (.ping id)).trackPing id).Deals env (settle env (d.pinged env id)) :=
    ((Deals.refl env _).sendPlain rfl).settle
  exact (haccept.gives.trans htrack).deals hsend

/-- Making a connection is not about frames. -/
theorem connected_wired (env : Env) (d : Driver) (started : Duration) (transport : Transport) :
    ∃ effects, (d.connected env started transport).trace = d.trace ++ effects ∧
      Wired env transport.supportsBinary effects := by
  refine ⟨_, rfl, .inward fun effect hm => ?_⟩
  simp only [List.mem_cons, List.not_mem_nil, or_false] at hm
  rcases hm with rfl | rfl | rfl <;> exact ⟨rfl, rfl, rfl, rfl, rfl⟩

variable {input : Input}

theorem received_of_ne (hi : ∀ message, input ≠ .message message) : input.received env = [] := by
  cases input with
  | message message => exact absurd rfl (hi message)
  | _ => rfl

theorem onEvent_of_ne {α : Type} {f : ProtocolEvent → List α} (hi : ∀ message, input ≠ .message message) :
    d.onEvent env f input = [] := by
  cases input with
  | message message => exact absurd rfl (hi message)
  | _ => rfl

/-- Every step gives its account, with the transport it ends with. -/
theorem step_account (hs : d.step env input = some d') :
    ∃ effects, d'.trace = d.trace ++ effects ∧
      Account env d'.transport.supportsBinary effects (input.received env) (d.onEvent env d.tells input)
        (d.onEvent env d.pongs input) := by
  have hgives : ∀ {d' : Driver}, (∀ message, input ≠ .message message) → Gives env d d' [] [] [] →
      ∃ effects, d'.trace = d.trace ++ effects ∧
        Account env d'.transport.supportsBinary effects (input.received env) (d.onEvent env d.tells input)
          (d.onEvent env d.pongs input) := by
    intro d' hi hg
    rw [received_of_ne hi, onEvent_of_ne hi, onEvent_of_ne hi, hg.binary]
    exact hg.account
  cases dealing hs with
  | tick elapsed =>
    have hw : Wired env d.transport.supportsBinary [] := .inward (List.forall_mem_nil _)
    exact hgives (fun _ => Input.noConfusion) ⟨rfl, [], (List.append_nil _).symm, hw.account⟩
  | deals input d' hi h => exact hgives hi h.gives
  | ping id hp => exact hgives (fun _ => Input.noConfusion) (gives_ping env d id)
  | message message d' hp h =>
    have hmessage := h.gives
    rw [hmessage.binary]
    exact hmessage.account
  | made started due transport order hp =>
    obtain ⟨effects, ht, hw⟩ := connected_wired env d started transport
    have hloads := connectionMade_deals env d started transport order
    obtain ⟨effects', ht', hw'⟩ := hloads.wired
    refine ⟨effects ++ effects', by rw [ht', ht, List.append_assoc], ?_⟩
    rw [hloads.binary]
    exact (hw.append hw').account

end

/-! ### Runs

The accounts of the steps, one after the other, make the account of the run. -/

variable {env : Env} {d d' : Driver} {input : Input}

theorem start_wired (env : Env) : Wired env true (start env).trace := by
  have hstart : ∀ d : Driver, d.trace = [] → d.transport.supportsBinary = true →
      Wired env true (d.beginConnect env).trace := by
    intro d ht hb
    obtain ⟨effects, he, hw⟩ := (Deals.refl env d).beginConnect.wired
    rw [he, ht, List.nil_append, ← hb]
    exact hw
  unfold start
  split
  · exact hstart _ rfl rfl
  · exact .inward (List.forall_mem_nil _)

/-- **The hook hears of every frame.** Over any run the frames reported as sent are those that went out
and could be encoded, in their order, and those reported as received are those of the messages that
came in and could be decoded. -/
theorem frames_reported {s : List TelemetryEvent × Driver}
    (h : ((driver env).recording fun _ input _ => input.received env).Reachable s) :
    s.2.trace.filterMap Effect.sentReport = (s.2.trace.filterMap Effect.frame).filterMap env.sent ∧
      s.2.trace.filterMap Effect.receivedReport = s.1 := by
  constructor
  · have hd : (driver env).Reachable s.2 := Machine.Reach.of_recording h
    refine hd.invariant (P := fun d : Driver =>
      d.trace.filterMap Effect.sentReport = (d.trace.filterMap Effect.frame).filterMap env.sent)
      (start_wired env).reported ?_
    intro d input d' _ ih _ hs
    obtain ⟨effects, ht, ha⟩ := step_account hs
    rw [ht, List.filterMap_append, List.filterMap_append, List.filterMap_append, ih, ha.sent]
  · refine Machine.recording_reads (fun d : Driver => d.trace.filterMap Effect.receivedReport)
      (start_wired env).received ?_ h
    intro d input d' hs
    obtain ⟨effects, ht, ha⟩ := step_account hs
    rw [ht, List.filterMap_append, ha.received]

/-- Joining a room sends one frame and receives one, and both are reported. -/
theorem frames_reported_joining :
    ∃ s : List TelemetryEvent × Driver, s.1.length = 1 ∧ (s.2.trace.filterMap Effect.frame).length = 1 ∧
      s.2.trace.filterMap Effect.sentReport =
        (s.2.trace.filterMap Effect.frame).filterMap (smallEnv [replyFrame "ok" "room" "1" "1"]).sent ∧
      s.2.trace.filterMap Effect.receivedReport = s.1 := by
  obtain ⟨s, hr, hc⟩ := Machine.reachable_of_run
    ((driver (smallEnv [replyFrame "ok" "room" "1" "1"])).recording fun _ input _ =>
      input.received (smallEnv [replyFrame "ok" "room" "1" "1"]))
    (joining ++ [.frame (replyFrame "ok" "room" "1" "1")])
    (fun s => s.1.length = 1 ∧ (s.2.trace.filterMap Effect.frame).length = 1) (by decide +kernel)
  obtain ⟨hreceived, hsent⟩ := of_decide_eq_true hc
  exact ⟨s, hreceived, hsent, frames_reported hr⟩

/-- **The subscribers hear of the server once.** Over any run the protocol's events that they were told
are those it made of the messages that came in, in their order, each told to the topic that it is about
if that topic is registered. -/
theorem events_told_once {s : List (Topic × ProtocolEvent) × Driver}
    (h : ((driver env).recording fun d input _ => d.onEvent env d.tells input).Reachable s) :
    s.2.trace.filterMap Effect.told = s.1 := by
  refine Machine.recording_reads (fun d : Driver => d.trace.filterMap Effect.told)
    (start_wired env).told ?_ h
  intro d input d' hs
  obtain ⟨effects, ht, ha⟩ := step_account hs
  rw [ht, List.filterMap_append, ha.told]

/-- The reply to the join is the one event, told once. -/
theorem events_told_once_joining :
    ∃ s : List (Topic × ProtocolEvent) × Driver, s.1.length = 1 ∧ s.2.trace.filterMap Effect.told = s.1 := by
  obtain ⟨s, hr, hc⟩ := Machine.reachable_of_run
    ((driver (smallEnv [replyFrame "ok" "room" "1" "1"])).recording fun d input _ =>
      d.onEvent (smallEnv [replyFrame "ok" "room" "1" "1"]) d.tells input)
    (joining ++ [.frame (replyFrame "ok" "room" "1" "1")])
    (fun s => s.1.length = 1) (by decide +kernel)
  exact ⟨s, of_decide_eq_true hc, events_told_once hr⟩

/-- **A transport that takes text alone is sent text alone.** A frame that is encoded as a binary
message goes out only over a transport that carries such messages. -/
theorem binary_carried {json : Json} {limits : CodecLimits} (hc : env.codec = LimitedPhoenixV2Codec.codec json limits)
    (hs : d.step env input = some d') {frame : Frame} {message : WireMessage}
    (hm : frame ∈ (d.done d').filterMap Effect.frame) (he : env.codec.encode frame = .ok message)
    (hb : message.metadata.1 = true) : d'.transport.supportsBinary = true := by
  obtain ⟨effects, ht, ha⟩ := step_account hs
  rw [done_of_append ht] at hm
  refine ha.carried frame hm ?_
  cases message with
  | text text => exact absurd hb Bool.false_ne_true
  | binary bytes =>
    rw [hc] at he
    obtain ⟨hplain, -⟩ := limited_encode_iff.mp (mapError_eq_ok.mp he)
    obtain ⟨payload, hp, -⟩ := PhoenixV2Codec.encode_eq_binary hplain
    rw [hp]
    rfl

/-- serde_json where the one text that comes in is the reply to the first join. -/
def replyJson : Json where
  print _ := .ok "[]"
  read _ := .ok [.string "1", .string "1", .string "room", .string "phx_reply",
    .object [("response", .object []), ("status", .string "ok")]]

/-- An environment with the limited codec. -/
def limitedEnv : Env := { smallEnv [] with codec := LimitedPhoenixV2Codec.codec replyJson .default }

/-- A byte is cast to a joined topic. -/
theorem binary_carried_cast :
    ∃ (d d' : Driver) (frame : Frame), frame ∈ (d.done d').filterMap Effect.frame ∧
      d'.transport.supportsBinary = true := by
  let cast : Input := .command (.cast 2 "room" "shout" (.binary [7]))
  obtain ⟨d, -, hc⟩ := (driver limitedEnv).reachable_of_run (joining ++ [.message (.text "[]")])
    (fun d => (d.step limitedEnv cast).any fun d' =>
      ((d.done d').filterMap Effect.frame).any fun frame =>
        (limitedEnv.codec.encode frame).toOption.any fun message => message.metadata.1) (by decide +kernel)
  obtain ⟨d', hs, hc⟩ := Option.any_eq_true .. |>.mp hc
  obtain ⟨frame, hm, hc⟩ := List.any_eq_true.mp hc
  cases he : limitedEnv.codec.encode frame with
  | error e =>
    rw [he] at hc
    cases hc
  | ok message =>
    rw [he] at hc
    exact ⟨d, d', frame, hm, binary_carried rfl hs hm he hc⟩

end Driver
end PhoenixChannel.Client
