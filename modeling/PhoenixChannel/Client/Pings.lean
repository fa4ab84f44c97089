import PhoenixChannel.Client.Wire
import PhoenixChannel.Client.Heartbeats
import PhoenixChannel.Client.Custody

/-! What a ping's answer says.

A ping is a heartbeat frame with a reference of its own, sent while the connection is up. It waits with
that connection: a lost connection fails it, so a reply that comes in over a later one, where the
reference may be the same again, answers no older ping. -/
namespace PhoenixChannel.Client
open PhoenixChannel.Runtime Library

/-- The frame of a ping. -/
def pingFrame (reference : Reference) : Frame := ⟨none, some reference, "phoenix", "heartbeat", .emptyObject⟩

/-- An acknowledgement comes as a reply to the reference it settles. -/
theorem heartbeatAck_replies {p p' : Protocol} {frame : Frame} {reference : Reference} {status : ReplyStatus}
    (h : p.receive frame = (.ok (.heartbeatAck reference status), p')) :
    frame.event = "phx_reply" ∧ frame.reference = some reference := by
  have hr := p.received frame
  rw [h] at hr
  generalize he : (Except.ok (.heartbeatAck reference status) : Except ProtocolError ProtocolEvent) = result at hr
  cases hr with
  | malformed _ _ _ _ _ | stale _ | unmatched _ _ _ | closed _ _ | errored _ _ | message _ _ _ _ => cases he
  | @settled r pending status' response hs hevent hreference hp hd =>
    cases pending with
    | join topic => cases status' <;> cases he
    | leave topic | push topic event => cases he
    | heartbeat =>
      cases he
      exact ⟨hevent, hreference⟩

namespace Driver

/-- A ping that is waited for was sent when it says, over the connection that has been up since. -/
def PingSent (env : Env) (d : Driver) (reference : Reference) (ping : PendingPing) : Prop :=
  ∃ d₀ d₁ : Driver, (driver env).Reachable d₀ ∧ d₀.clock = ping.started ∧
    d₀.step env (.command (.ping ping.id)) = some d₁ ∧
    .outgoing [ping.id] (pingFrame reference) ∈ d₀.done d₁ ∧
    (driver env).Path (fun d _ => d.phase = .connected) d₁ d

/-- Pings wait with the connection they were sent over, and with no other. -/
structure PingsSent (env : Env) (d : Driver) : Prop where
  apart : d.phase ≠ .connected → d.phase ≠ .closed → ∀ r : Reference, d.state.pendingPings[r]? = none
  sent : d.phase = .connected → ∀ (r : Reference) (ping : PendingPing),
    d.state.pendingPings[r]? = some ping → d.PingSent env r ping

section
variable {env : Env} {d d' : Driver} {input : Input}

/-! ### What a step does to the pings

A step adds the pings it sends, takes out the one it answers, and drops them all with the
connection. -/

/-- No event makes a ping wait. -/
theorem Handling.pings {event : ProtocolEvent} (h : Handling env d event d') (r : Reference) (ping : PendingPing)
    (hr : d'.state.pendingPings[r]? = some ping) : d.state.pendingPings[r]? = some ping := by
  cases h with
  | told hh h =>
    obtain ⟨d₁, hd, -, he⟩ := h
    refine hd.pings r ping ?_
    have hpings := he.pings r ping hr
    rwa [emitChannel_eq] at hpings
  | acked reference status he hn h => exact h.pings r ping hr
  | ponged reference status answered he hb hp h => exact Table.lookup_of_erase (h.pings r ping hr)

theorem MessageDealt.pings {message : WireMessage} (h : MessageDealt env d message d') (r : Reference)
    (ping : PendingPing) (hr : d'.state.pendingPings[r]? = some ping) : d.state.pendingPings[r]? = some ping := by
  cases h with
  | undecodable e hd h => exact h.pings r ping hr
  | refused frame e p hd hrec h => exact h.pings r ping hr
  | handled frame event p hd hrec h => exact h.pings r ping hr

/-- The frame of a ping goes out in the step that takes the command. -/
theorem ping_outgoing (env : Env) (d : Driver) (id : RequestId) :
    .outgoing [id] (pingFrame d.state.protocol.nextText) ∈ d.done (settle env (d.pinged env id)) := by
  obtain ⟨after, ht, -⟩ := (deals_settle env (d.pinged env id)).wired
  have hsent := sendFrame_reported env ((d.accept (.ping id)).trackPing id) [id]
    (pingFrame d.state.protocol.nextText)
  have htrace : (settle env (d.pinged env id)).trace = d.trace ++ (.accepted .ping id ::
      .outgoing [id] (pingFrame d.state.protocol.nextText) ::
        (env.sent (pingFrame d.state.protocol.nextText)).toList.map .telemetry ++ after) := by
    rw [ht]
    show (d.pinged env id).1.trace ++ after = _
    rw [show (d.pinged env id).1.trace = _ from hsent]
    show (d.trace ++ [.accepted .ping id]) ++ _ ++ after = _
    simp only [List.append_assoc, List.cons_append, List.nil_append]
  rw [done_of_append htrace]
  exact List.mem_cons_of_mem _ List.mem_cons_self

/-- A ping that is waited for after a step was waited for before it, or is sent in it. -/
theorem Dealing.pings (h : Dealing env d input d') (r : Reference) (ping : PendingPing)
    (hr : d'.state.pendingPings[r]? = some ping) :
    d.state.pendingPings[r]? = some ping ∨
      d.phase = .connected ∧ input = .command (.ping ping.id) ∧ d.clock = ping.started ∧
        .outgoing [ping.id] (pingFrame r) ∈ d.done d' := by
  cases h with
  | tick elapsed => exact .inl hr
  | deals input d' hi h => exact .inl (h.pings r ping hr)
  | message message d' hp h => exact .inl (h.pings r ping hr)
  | made started due transport order hp => exact .inl ((connectionMade_deals ..).pings r ping hr)
  | ping id hp =>
    have hpinged := (deals_settle env (d.pinged env id)).pings r ping hr
    rw [pinged, sendFrame_state] at hpinged
    have hinsert : (d.state.pendingPings.insert d.state.protocol.nextText ⟨id, d.clock⟩)[r]? = some ping := hpinged
    rw [Table.lookup_insert] at hinsert
    split at hinsert <;> rename_i hr'
    · cases hinsert
      rw [hr']
      exact .inr ⟨hp, rfl, rfl, ping_outgoing env d id⟩
    · exact .inl hinsert

/-- A connection that ends takes its pings with it, unless the driver closes. -/
theorem Course.pings (h : Course env d input d') (hp : d.phase = .connected) (hp' : d'.phase ≠ .connected)
    (hc : d'.phase ≠ .closed) (r : Reference) : d'.state.pendingPings[r]? = none := by
  cases h with
  | tick elapsed => exact absurd hp hp'
  | within input d' hw => exact absurd (hw.phase.trans hp) hp'
  | beat d₁ _ hd hn hw => exact absurd (hw.phase.trans hp) hp'
  | rested message d₁ _ ha hw => exact absurd (hw.phase.trans hp) hp'
  | lost input d₁ reason _ ht hu hb =>
    have hpings : ((d₁.onDisconnect reason).afterFailure env reason).state.pendingPings[r]? =
        (d₁.onDisconnect reason).state.pendingPings[r]? := by
      unfold afterFailure
      dsimp only
      split <;> rfl
    rw [hpings]
    exact (deals_onDisconnect env d₁ reason).2 r
  | disconnect d₁ hi hcl hw => exact (deals_onDisconnect env d₁ .requested).2 r
  | begin input d₁ attempt hfrom hw =>
    rcases hfrom with ⟨hidle, -⟩ | ⟨due, hwaiting, -⟩
    · cases hp.symm.trans hidle
    · cases hp.symm.trans hwaiting
  | failed input started due error hcon => cases hp.symm.trans hcon
  | made started due transport order hcon => cases hp.symm.trans hcon
  | closed input d₁ d' hcl hw he =>
    refine absurd ?_ hc
    rcases he with rfl | rfl <;> rfl

/-! ### Runs

So a ping that waits was sent on this connection, at the time it says, under the reference it waits
under. -/

/-- What is told of an event comes from a message that was decoded and received. -/
theorem mem_onEvent {α : Type} {f : ProtocolEvent → List α} {a : α} (h : a ∈ d.onEvent env f input) :
    ∃ message frame event p, input = .message message ∧ env.codec.decode message = .ok frame ∧
      d.state.protocol.receive frame = (.ok event, p) ∧ a ∈ f event := by
  cases input with
  | message message =>
    cases hdec : env.codec.decode message with
    | error e =>
      simp only [onEvent, hdec] at h
      cases h
    | ok frame =>
      rcases hrec : d.state.protocol.receive frame with ⟨e | event, p⟩
      · simp only [onEvent, hdec, hrec] at h
        cases h
      · simp only [onEvent, hdec, hrec] at h
        exact ⟨message, frame, event, p, rfl, hdec, hrec, h⟩
  | _ => cases h

/-- A ping is answered with the time since it was taken. -/
theorem mem_pongs {event : ProtocolEvent} {answer : RequestId × Success} (h : answer ∈ d.pongs event) :
    ∃ reference status ping, event = .heartbeatAck reference status ∧
      d.state.pendingPings[reference]? = some ping ∧ answer = (ping.id, .elapsed (d.clock - ping.started)) := by
  cases event with
  | heartbeatAck reference status =>
    rw [Driver.pongs] at h
    split at h
    · cases h
    · cases hp : d.state.pendingPings[reference]? with
      | none =>
        rw [hp] at h
        cases h
      | some ping =>
        rw [hp] at h
        exact ⟨reference, status, ping, rfl, hp, List.mem_singleton.mp h⟩
  | _ => cases h

/-- Pings are sent over the connection they wait with. -/
theorem pingsSent_step (h : (driver env).Reachable d) (hd : d.PingsSent env) (hs : d.step env input = some d') :
    d'.PingsSent env := by
  have hnone : d.phase ≠ .connected → d.phase ≠ .closed → ∀ r : Reference, d'.state.pendingPings[r]? = none := by
    intro hp hc r
    cases hr : d'.state.pendingPings[r]? with
    | none => rfl
    | some ping =>
      rcases (dealing hs).pings r ping hr with hold | ⟨hup, -⟩
      · cases (hd.apart hp hc r).symm.trans hold
      · exact absurd hup hp
  constructor
  · intro hp' hc' r
    by_cases hup : d.phase = .connected
    · exact (turned hs).pings hup hp' hc' r
    · exact hnone hup (fun hc => hc' (closed_step hs hc)) r
  · intro hp' r ping hr
    by_cases hup : d.phase = .connected
    · rcases (dealing hs).pings r ping hr with hold | ⟨-, rfl, hclock, hout⟩
      · obtain ⟨d₀, d₁, hreach, hclock, hping, hout, hpath⟩ := hd.sent hup r ping hold
        exact ⟨d₀, d₁, hreach, hclock, hping, hout, .step hpath hup hs⟩
      · exact ⟨d, d', h, hclock, hs, hout, .refl⟩
    · have hc : d.phase ≠ .closed := fun hc => by cases (closed_step hs hc).symm.trans hp'
      cases (hnone hup hc r).symm.trans hr

/-- By induction over the run: a ping that waits was sent in its step, and the connection has not been
lost since. -/
theorem reachable_pingsSent (h : (driver env).Reachable d) : d.PingsSent env := by
  refine h.invariant (P := PingsSent env) ?_ fun d input d' hr hd _ hs => pingsSent_step hr hd hs
  have hstart : (start env).state.pendingPings = ∅ ∧ (start env).phase ≠ .connected := by
    unfold start
    dsimp only
    split
    · exact ⟨rfl, fun hc => by cases hc⟩
    · exact ⟨rfl, fun hc => by cases hc⟩
  refine ⟨fun _ _ r => ?_, fun hp => absurd hp hstart.2⟩
  show (start env).state.pendingPings[r]? = none
  rw [hstart.1]
  exact Std.ExtTreeMap.getElem?_empty

/-- **The answer to a ping is the time of its own round trip.** A ping succeeds on a reply alone, the
one to the frame it sent itself, over a connection that has been up ever since, and what it returns is
the time from when it was sent to when the reply came in. -/
theorem ping_answered {id : RequestId} {success : Success} (h : (driver env).Reachable d)
    (hs : d.step env input = some d') (hm : .answered .ping id (.ok success) ∈ d.done d') :
    ∃ (message : WireMessage) (frame : Frame) (reference : Reference) (d₀ d₁ : Driver),
      input = .message message ∧ env.codec.decode message = .ok frame ∧
        frame.event = "phx_reply" ∧ frame.reference = some reference ∧
        (driver env).Reachable d₀ ∧ d₀.step env (.command (.ping id)) = some d₁ ∧
        .outgoing [id] (pingFrame reference) ∈ d₀.done d₁ ∧
        (driver env).Path (fun d _ => d.phase = .connected) d₁ d ∧
        success = .elapsed (d.clock - d₀.clock) := by
  obtain ⟨effects, ht, ha⟩ := step_account hs
  rw [done_of_append ht] at hm
  have hpong : (id, success) ∈ d.onEvent env d.pongs input := by
    rw [← ha.pongs]
    exact List.mem_filterMap.mpr ⟨_, hm, rfl⟩
  obtain ⟨message, frame, event, p, rfl, hdec, hrec, hpong⟩ := mem_onEvent hpong
  obtain ⟨reference, status, ping, rfl, hp, he⟩ := mem_pongs hpong
  obtain ⟨hevent, hreference⟩ := heartbeatAck_replies hrec
  have hup : d.phase = .connected := by
    cases dealing hs with
    | deals _ _ hi _ => exact absurd rfl (hi message)
    | message _ _ hup _ => exact hup
  obtain ⟨d₀, d₁, hreach, hclock, hping, hout, hpath⟩ := (reachable_pingsSent h).sent hup reference ping hp
  cases he
  rw [← hclock]
  exact ⟨message, frame, reference, d₀, d₁, rfl, hdec, hevent, hreference, hreach, hping, hout, hpath, rfl⟩

theorem answered_of_pong {effect : Effect} {id : RequestId} {success : Success}
    (h : effect.pong = some (id, success)) : effect = .answered .ping id (.ok success) := by
  unfold Effect.pong at h
  split at h
  · cases h
    rfl
  · cases h

/-- A ping whose reply comes at 2. -/
theorem ping_answered_at_2 :
    let env := smallEnv [⟨none, some "1", "phoenix", "phx_reply", .reply "ok" .emptyObject⟩]
    ∃ (d d' d₀ d₁ : Driver) (success : Success), .answered .ping 7 (.ok success) ∈ d.done d' ∧ d.clock = 2 ∧
      d₀.step env (.command (.ping 7)) = some d₁ ∧ success = .elapsed (d.clock - d₀.clock) := by
  intro env
  let reply : Input := .frame ⟨none, some "1", "phoenix", "phx_reply", .reply "ok" .emptyObject⟩
  obtain ⟨d, hr, hc⟩ := (driver env).reachable_of_run [.connectionMade [], .command (.ping 7), .tick 2]
    (fun d => d.clock = 2 ∧ (d.step env reply).any fun d' =>
      ((d.done d').filterMap Effect.pong).any fun answer => answer.1 = 7) (by decide +kernel)
  obtain ⟨hclock, hc⟩ := of_decide_eq_true hc
  obtain ⟨d', hs, hc⟩ := (Option.any_eq_true ..).mp hc
  obtain ⟨⟨id, success⟩, hm, hid⟩ := List.any_eq_true.mp hc
  obtain ⟨effect, hm, he⟩ := List.mem_filterMap.mp hm
  have hid : id = 7 := of_decide_eq_true hid
  rw [answered_of_pong he, hid] at hm
  obtain ⟨-, -, -, d₀, d₁, -, -, -, -, -, hping, -, -, helapsed⟩ := ping_answered hr hs hm
  exact ⟨d, d', d₀, d₁, success, hm, hclock, hping, helapsed⟩

end

end Driver
end PhoenixChannel.Client
