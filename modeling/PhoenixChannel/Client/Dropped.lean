import PhoenixChannel.Client.Standing
import PhoenixChannel.Library.Observation

/-! What becomes of a channel whose handle is dropped.

The server keeps a subscription until it is told to end it. A run is written down: the
connections made, the frames sent and received, the handles dropped. A join of a
connection is then refused, ended or left by the time its handle is gone, unless the
topic's channel was discarded while it stood. What was discarded before the join was sent
makes no difference. -/
namespace PhoenixChannel.Client
open PhoenixChannel.Runtime Library

/-- What a run is written down as. -/
inductive Event where
  | connected
  | sent (frame : Frame)
  | received (frame : Frame)
  | unregistered (topic : Topic)

/-- What an input is written down as. -/
def Input.events (env : Env) : Input → List Event
  | .connection (.ok _) _ => [.connected]
  | .message text =>
    match env.codec.decode text with
    | .ok frame => [.received frame]
    | .error _ => []
  | .lifecycle (.unregister topic) => [.unregistered topic]
  | _ => []

/-- What an effect is written down as. -/
def Effect.event : Effect → Option Event
  | .outgoing _ frame => some (.sent frame)
  | _ => none

/-- The frame accepts the topic's join with that reference. -/
def Accepts (t : Topic) (j : Reference) (frame : Frame) : Prop :=
  frame.event = "phx_reply" ∧ frame.topic = t ∧ frame.joinRef = some j ∧ frame.reference = some j ∧
    ∃ response, Protocol.decodeReplyPayload frame.payload = .ok (.ok, response)

instance (t : Topic) (j : Reference) (frame : Frame) : Decidable (JoinOf t j frame) :=
  inferInstanceAs (Decidable (_ ∧ _ ∧ _ ∧ _))

namespace Driver

/-- What a step is written down as: its input, and then the frames it sent. -/
def events (env : Env) (d : Driver) (input : Input) (d' : Driver) : List Event :=
  input.events env ++ (d.done d').filterMap Effect.event

/-- The driver, with what happened so far. -/
def recorded (env : Env) : Machine (List Event × Driver) Input :=
  (driver env).recording (events env)

/-- The join was refused, or its generation ended. -/
def EndedIn (t : Topic) (j : Reference) (history : List Event) : Prop :=
  ∃ frame, .received frame ∈ history ∧ (Refuses t j frame ∨ EndOf t j frame)

/-- A leave of the generation was sent. -/
def SentLeave (t : Topic) (j : Reference) (history : List Event) : Prop :=
  ∃ frame, .sent frame ∈ history ∧ LeaveOf t j frame

/-- Every join of the connection is over, or its channel stands and has its handle. -/
def Accounted (t : Topic) (history : List Event) (d : Driver) : Prop :=
  ∀ before join after j, history = before ++ .sent join :: after → JoinOf t j join →
    .connected ∉ after →
      EndedIn t j after ∨ SentLeave t j after ∨ d.Standing t j ∧ .unregistered t ∉ after

section
variable {env : Env} {d d' : Driver} {t : Topic} {input : Input} {history history' : List Event}
  {effects : List Effect} {j : Reference}

/-! ### Writing down

The recorded run is the driver with a list of events beside it, so what is said of the driver alone
carries over. -/

theorem EndedIn.mono (h : EndedIn t j history) (hsub : history ⊆ history') : EndedIn t j history' := by
  obtain ⟨frame, hm, he⟩ := h
  exact ⟨frame, hsub hm, he⟩

theorem SentLeave.mono (h : SentLeave t j history) (hsub : history ⊆ history') : SentLeave t j history' := by
  obtain ⟨frame, hm, hl⟩ := h
  exact ⟨frame, hsub hm, hl⟩

theorem endedIn_of_endedBy (h : EndedBy env t input j) : EndedIn t j (input.events env) := by
  obtain ⟨message, frame, rfl, hd, he⟩ := h
  exact ⟨frame, by simp [Input.events, hd], he⟩

theorem sentLeave_of_leftIn (h : LeftIn t j effects) : SentLeave t j (effects.filterMap Effect.event) := by
  obtain ⟨served, frame, hm, hl⟩ := h
  exact ⟨frame, List.mem_filterMap.mpr ⟨_, hm, rfl⟩, hl⟩

/-- What is written down of effects are the frames sent. -/
theorem sent_of_mem {event : Event} (h : event ∈ effects.filterMap Effect.event) :
    ∃ served frame, .outgoing served frame ∈ effects ∧ event = .sent frame := by
  obtain ⟨effect, hm, he⟩ := List.mem_filterMap.mp h
  cases effect with
  | outgoing served frame =>
    cases he
    exact ⟨served, frame, hm, rfl⟩
  | _ => cases he

/-- A frame that was written down was sent in between. -/
theorem split_of_sent {before after : List Event} {frame : Frame}
    (h : effects.filterMap Effect.event = before ++ .sent frame :: after) :
    ∃ first served rest, effects = first ++ .outgoing served frame :: rest ∧
      rest.filterMap Effect.event = after := by
  obtain ⟨first, second, rfl, -, h⟩ := List.filterMap_eq_append_iff.mp h
  obtain ⟨skipped, effect, rest, rfl, -, he, hrest⟩ := List.filterMap_eq_cons_iff.mp h
  cases effect with
  | outgoing served sent =>
    cases he
    exact ⟨first ++ skipped, served, rest, by rw [List.append_assoc], hrest⟩
  | _ => cases he

theorem sent_not_mem (frame : Frame) : .sent frame ∉ input.events env := by
  unfold Input.events
  split
  · simp
  · split <;> simp
  · simp
  · simp

theorem unregistered_of_mem (h : .unregistered t ∈ input.events env) :
    input = .lifecycle (.unregister t) := by
  unfold Input.events at h
  split at h
  · simp at h
  · split at h <;> simp at h
  · rw [Event.unregistered.inj (List.mem_singleton.mp h)]
  · simp at h

/-! ### One step

A topic whose handle was just dropped has no channel. For every other join the step keeps it
standing, or writes down what became of it. -/

/-- The topic of a dropped handle has no channel. -/
theorem fallen_of_unregister (hs : ConnectedStep env d (.lifecycle (.unregister t)) d') :
    d'.Over ∨ ∀ j, ¬ d'.Standing t j := by
  have hfallen : ∀ d₁ : Driver, ∀ j, ¬ (d₁.unregister t).Standing t j := by
    rintro d₁ j ⟨c, hc, -⟩
    rw [unregister_protocol] at hc
    simp [Protocol.discardChannel] at hc
  have hconnected : ∀ j, ¬ (d.unregisterConnected env t).1.Standing t j := by
    by_cases hj : d.state.protocol.channelState t = some .joined
    · obtain ⟨c, hc, hs⟩ := Option.map_eq_some_iff.mp hj
      rw [unregisterConnected_of_joined hc hs]
      rintro j ⟨c', hc', hrest⟩
      rw [sendFrame_state] at hc'
      exact hfallen _ j ⟨c', hc', hrest⟩
    · rw [unregisterConnected_of_not_joined hj]
      exact hfallen d
  cases hs with
  | lifecycle command =>
    rcases hr : d.unregisterConnected env t with ⟨d', _ | reason⟩
    · rw [hr] at hconnected
      simp only [handleConnectedLifecycle, hr]
      exact .inr hconnected
    · simp only [handleConnectedLifecycle, hr]
      exact .inl (over_lost env d' reason)
  | lost input hi reason => exact .inl (over_lost env d reason)

/-- **One step accounts for every join**, old and new. -/
theorem Keeps.accounted (h : Keeps (EndedBy env t input) t d d')
    (hu : input = .lifecycle (.unregister t) → ∀ j, ¬ d'.Standing t j)
    (ha : Accounted t history d) : Accounted t (history ++ d.events env input d') d' := by
  obtain ⟨effects, ht, hstand, hjoin⟩ := h
  rw [events, done_of_append ht]
  intro before join after j hsplit hj hc
  rcases split_append hsplit with ⟨after', hh, rfl⟩ | ⟨before', -, hn⟩
  · -- the join was sent before
    have hold := List.subset_append_left after' (input.events env ++ effects.filterMap Effect.event)
    have hheard : input.events env ⊆ after' ++ (input.events env ++ effects.filterMap Effect.event) :=
      fun event hm => List.mem_append_right _ (List.mem_append_left _ hm)
    have hdone : effects.filterMap Effect.event ⊆
        after' ++ (input.events env ++ effects.filterMap Effect.event) :=
      fun event hm => List.mem_append_right _ (List.mem_append_right _ hm)
    rcases ha before join after' j hh hj (fun hm => hc (hold hm)) with he | hl | ⟨hs, hn⟩
    · exact .inl (he.mono hold)
    · exact .inr (.inl (hl.mono hold))
    · rcases hstand j hs with he | hs' | hl
      · exact .inl ((endedIn_of_endedBy he).mono hheard)
      · refine .inr (.inr ⟨hs', fun hm => ?_⟩)
        rcases List.mem_append.mp hm with hm | hm
        · exact hn hm
        rcases List.mem_append.mp hm with hm | hm
        · exact hu (unregistered_of_mem hm) j hs'
        · obtain ⟨_, _, -, he⟩ := sent_of_mem hm
          cases he
      · exact .inr (.inl ((sentLeave_of_leftIn hl).mono hdone))
  · -- the join is sent now
    rcases split_append hn with ⟨after', hi, -⟩ | ⟨before'', -, hd⟩
    · exact absurd (hi ▸ List.mem_append_right _ List.mem_cons_self) (sent_not_mem join)
    · obtain ⟨first, served, rest, he, rfl⟩ := split_of_sent hd
      rcases hjoin first served join rest j he hj with hs | hl
      · refine .inr (.inr ⟨hs, fun hm => ?_⟩)
        obtain ⟨_, _, -, he⟩ := sent_of_mem hm
        cases he
      · exact .inr (.inl (sentLeave_of_leftIn hl))

/-! ### Without a connection

The books are of one connection: a new one starts with no join of its own. -/

variable (t) in
theorem emits_connectionMade (started : Duration) (transport : Transport) (order : List Topic) :
    d.Emits (Effect.Unjoining t) (d.connectionMade env started transport order) := by
  have hconnected : d.Emits (Effect.Unjoining t) (d.connected env started transport) :=
    ⟨_, rfl, by simp [Effect.Unjoining]⟩
  exact connectionMade_induction (d.Emits (Effect.Unjoining t)) hconnected fun d' topic h => h.setStatus.loadPayload

/-- Without a connection no step connects, but for the attempt that succeeds; that one joins
nothing yet. -/
theorem OfflineStep.parted (hs : OfflineStep env d input d') (hc : d.phase ≠ .connected) :
    d'.phase ≠ .connected ∨
      .connected ∈ input.events env ∧ d.Emits (Effect.Unjoining t) d' := by
  have hdormant : d.Dormant d' → d'.phase ≠ .connected := fun h => by
    rw [h.phase]
    exact hc
  cases hs with
  | lifecycle command => exact .inl (hdormant (dormant_handleOfflineLifecycle ..))
  | command command => exact .inl (hdormant (dormant_offlineCommand ..))
  | acknowledge command hr => exact .inl hc
  | disconnect d₁ reports he => exact .inl nofun
  | close input hi d₁ reports he => exact .inl nofun
  | connect input hi d₁ reports he attempt => exact .inl nofun
  | failed input hi started error =>
    refine .inl fun hp => ?_
    rw [connectFailed] at hp
    rcases afterFailure_phase env ((d.attemptFinished started false).emitSocket
      (.disconnected (.connect error))) (.connect error) with hq | ⟨due, hq⟩ <;>
      cases hp.symm.trans hq
  | made started due transport order hp ho =>
    exact .inr ⟨List.mem_singleton_self _, emits_connectionMade t started transport order⟩

/-- A connection starts with no join of its own. -/
theorem accounted_of_connected (hc : .connected ∈ input.events env)
    (he : d.Emits (Effect.Unjoining t) d') : Accounted t (history ++ d.events env input d') d' := by
  obtain ⟨effects, ht, heffects⟩ := he
  rw [events, done_of_append ht]
  intro before join after j hsplit hj hn
  rcases split_append hsplit with ⟨after', -, rfl⟩ | ⟨before', -, hd⟩
  · exact absurd (List.mem_append_right _ (List.mem_append_left _ hc)) hn
  rcases split_append hd with ⟨after', hi, -⟩ | ⟨before'', -, hd⟩
  · exact absurd (hi ▸ List.mem_append_right _ List.mem_cons_self) (sent_not_mem join)
  · obtain ⟨first, served, rest, he, -⟩ := split_of_sent hd
    have hm : .outgoing served join ∈ effects := by
      rw [he]
      exact List.mem_append_right _ List.mem_cons_self
    exact absurd hj (heffects _ hm served join j rfl)

/-! ### Runs

By induction over the run, as long as no channel is discarded while the join stands. -/

/-- What happened since some state of a run accounts for the joins sent since. -/
theorem path_accounted {s₀ s : List Event × Driver} (h₀ : (recorded env).Reachable s₀)
    (h : (recorded env).Path (fun s input => s.2.Gentle t input) s₀ s) :
    ∃ since, s.1 = s₀.1 ++ since ∧ (s.2.phase = .connected → Accounted t since s.2) := by
  induction h with
  | refl =>
    refine ⟨[], (List.append_nil _).symm, fun _ before join after j hsplit => ?_⟩
    cases before <;> cases hsplit
  | @step s s' input hpath hg hs ih =>
    obtain ⟨since, hsince, ih⟩ := ih
    obtain ⟨hs, hh⟩ := Machine.recording_step.mp hs
    refine ⟨since ++ s.2.events env input s'.2, by rw [hh, hsince, List.append_assoc], fun hp => ?_⟩
    cases stepped hs with
    | tick elapsed hi hd =>
      rw [hd] at hp ⊢
      exact (Keeps.of_emits rfl (.of_trace rfl)).accounted (by rw [hi]; nofun) (ih hp)
    | dropped topic hi hd =>
      rw [hd, ((Apart.refl topic s.2).setStatus).phase] at hp
      rw [hd]
      have hkeeps : Keeps (EndedBy env t input) t s.2 (s.2.setStatus topic .closed) :=
        .of_emits (by simp) (Emits.refl _ _).setStatus
      exact hkeeps.accounted (by rw [hi]; nofun) (ih hp)
    | offline hc ho hs =>
      obtain ⟨hm, he⟩ := (hs.parted hc).resolve_left (not_not_intro hp)
      exact accounted_of_connected hm he
    | connected hc hs =>
      have hreach : (driver env).Reachable s.2 := Machine.Reach.of_recording (h₀.path hpath)
      have hkeeps := (hs.keeps (reachable_coherent hreach) hg).resolve_left fun ho => ho.phase hp
      refine hkeeps.accounted (fun hi => ?_) (ih hc)
      rw [hi] at hs
      exact (fallen_of_unregister hs).resolve_left fun ho => ho.phase hp

end

/-- **A dropped channel is left on the server**, where from the step on that joins it the topic's
channel is discarded only with a leave. -/
theorem dropped_left (env : Env) (t : Topic) (s₀ s : List Event × Driver) (h₀ : (recorded env).Reachable s₀)
    (h : (recorded env).Path (fun s input => s.2.Gentle t input) s₀ s) (hp : s.2.phase = .connected)
    (before after : List Event) (join : Frame) (j : Reference)
    (hs : s.1 = s₀.1 ++ (before ++ .sent join :: after)) (hj : JoinOf t j join) (hc : .connected ∉ after)
    (hu : .unregistered t ∈ after)
    (he : ∀ frame, .received frame ∈ after → ¬ Refuses t j frame ∧ ¬ EndOf t j frame) :
    ∃ leave, .sent leave ∈ after ∧ LeaveOf t j leave := by
  obtain ⟨since, hsince, haccounted⟩ := path_accounted h₀ h
  have hsame : since = before ++ .sent join :: after := List.append_cancel_left (hsince.symm.trans hs)
  rcases haccounted hp before join after j hsame hj hc with hended | hleft | ⟨-, hn⟩
  · obtain ⟨frame, hm, hend⟩ := hended
    exact absurd hend (not_or.mpr (he frame hm))
  · exact hleft
  · exact absurd hu hn

/-- Nothing is discarded by a command or a message, nor by a payload while the channel
stands. -/
def plainlyGentle (t : Topic) (d : Driver) : Input → Bool
  | .lifecycle (.unregister _) => d.state.protocol.channelState t = some .joined
  | .lifecycle (.cancel _) | .operationTimeout _ => false
  | _ => true

/-- What `plainlyGentle` computes suffices. -/
theorem gentle_of_plainly {t : Topic} {d : Driver} {input : Input}
    (h : d.plainlyGentle t input = true) : d.Gentle t input := by
  intro d₁ hd j hs
  cases hd with
  | unregister => exact ⟨rfl, of_decide_eq_true h⟩
  | cancel | joinTimeout | leaveTimeout => cases h
  | rejoin _ payloadId value channel hr ha hd hi =>
    obtain ⟨c, hc, -, hs⟩ := hs
    refine absurd ?_ hi
    rw [Active, Protocol.channelState, hc]
    rcases hs with hs | hs <;> simp [hs, ChannelState.active]

/-- A reply with status `ok` neither refuses nor ends anything. -/
theorem ends_nothing {frame : Frame} {t : Topic} {j : Reference} {response : Payload}
    (he : frame.event = "phx_reply")
    (hd : Protocol.decodeReplyPayload frame.payload = .ok (.ok, response)) :
    ¬ Refuses t j frame ∧ ¬ EndOf t j frame := by
  constructor
  · rintro ⟨-, -, ⟨refused, hr⟩, -⟩
    cases hd.symm.trans hr
  · rintro ⟨hend | hend, -⟩ <;> simp [he] at hend

/-- The reply is an `ok`. -/
def isOk (reply : Frame) : Bool :=
  match Protocol.decodeReplyPayload reply.payload with
  | .ok (.ok, _) => true
  | _ => false

theorem response_of_isOk {reply : Frame} (h : isOk reply = true) :
    ∃ response, Protocol.decodeReplyPayload reply.payload = .ok (.ok, response) := by
  unfold isOk at h
  split at h
  · rename_i response hd
    exact ⟨response, hd⟩
  · cases h

def Event.drops (t : Topic) : Event → Bool
  | .unregistered topic => topic = t
  | _ => false

theorem mem_of_drops {t : Topic} {history : List Event} (h : history.any (Event.drops t) = true) :
    .unregistered t ∈ history := by
  obtain ⟨event, hm, he⟩ := List.any_eq_true.mp h
  cases event with
  | unregistered topic => exact of_decide_eq_true he ▸ hm
  | _ => cases he

/-- The handle of a second join is dropped after its reply, and one more frame is sent. -/
def droppedAfterReply : List Event → Bool
  | [.sent join, .received reply, .unregistered topic, .sent _] =>
    JoinOf "room" "2" join ∧ reply.event = "phx_reply" ∧ topic = "room" ∧ isOk reply
  | _ => false

/-- A channel that is joined a second time, after its handle was dropped in a first join, and whose
handle is dropped. -/
theorem dropped_left_joined :
    ∃ (s : List Event × Driver) (join leave : Frame) (before after : List Event),
      s.1 = before ++ .sent join :: after ∧ .unregistered "room" ∈ before ∧ JoinOf "room" "2" join ∧
        .unregistered "room" ∈ after ∧ .sent leave ∈ after ∧ LeaveOf "room" "2" leave := by
  obtain ⟨s₀, s, hr, hpath, hd⟩ := Machine.path_of_run
    (recorded (smallEnv [replyFrame "ok" "room" "2" "2"])) (fun _ _ => true)
    (fun s input => s.2.plainlyGentle "room" input) (fun _ _ _ => trivial)
    (fun (s : List Event × Driver) input (h : s.2.plainlyGentle "room" input = true) => gentle_of_plainly h)
    (joining ++ [.lifecycle (.unregister "room"), .lifecycle (.register "room"), .command (.join 2 "room" 10)])
    [.payload "room" 2 (.ok (.object [])), .frame (replyFrame "ok" "room" "2" "2"), .lifecycle (.unregister "room")]
    (fun s₀ s => decide (s.2.phase = .connected) && s₀.1.any (Event.drops "room") &&
      droppedAfterReply (s.1.drop s₀.1.length)) (by decide +kernel)
  rw [Bool.and_eq_true, Bool.and_eq_true] at hd
  obtain ⟨⟨hp, hbefore⟩, hd⟩ := hd
  obtain ⟨since, hsince, -⟩ := path_accounted hr hpath
  rw [hsince, List.drop_left] at hd
  unfold droppedAfterReply at hd
  split at hd
  · rename_i join reply topic leave
    obtain ⟨hj, hevent, rfl, hstatus⟩ := of_decide_eq_true hd
    obtain ⟨response, hok⟩ := response_of_isOk hstatus
    obtain ⟨left, hm, hl⟩ := dropped_left _ "room" s₀ s hr hpath (of_decide_eq_true hp) []
      [.received reply, .unregistered "room", .sent leave] join "2" hsince hj (by simp) (by simp) fun frame hm => by
        obtain rfl : frame = reply := by simpa using hm
        exact ends_nothing hevent hok
    exact ⟨s, join, left, s₀.1, _, hsince, mem_of_drops hbefore, hj, by simp, hm, hl⟩
  · cases hd

/-- The handle is dropped before the reply to the join. -/
def droppedBeforeReply : List Event → Bool
  | [.connected, .sent join, .unregistered topic, .received reply] =>
    JoinOf "room" "1" join ∧ topic = "room" ∧ reply.event = "phx_reply" ∧ reply.topic = "room" ∧
      reply.joinRef = some "1" ∧ reply.reference = some "1" ∧ isOk reply
  | _ => false

/-- A channel whose handle is dropped while it is being joined stays on the server. -/
theorem dropped_while_joining :
    ¬ ∀ (env : Env) (t : Topic) (s : List Event × Driver), (recorded env).Reachable s →
      s.2.phase = .connected → ∀ (before after : List Event) (join : Frame) (j : Reference),
        s.1 = before ++ .sent join :: after → JoinOf t j join →
        (∀ later j', .sent later ∈ after → ¬ JoinOf t j' later) → .connected ∉ after →
        .unregistered t ∈ after → (∃ reply, .received reply ∈ after ∧ Accepts t j reply) →
        (∀ frame, .received frame ∈ after → ¬ Refuses t j frame ∧ ¬ EndOf t j frame) →
        ∃ leave, .sent leave ∈ after ∧ LeaveOf t j leave := by
  intro hall
  obtain ⟨s, hr, hd⟩ := Machine.reachable_of_run
    (recorded (smallEnv [replyFrame "ok" "room" "1" "1"]))
    (joining ++ [.lifecycle (.unregister "room"), .frame (replyFrame "ok" "room" "1" "1")])
    (fun s => decide (s.2.phase = .connected) &&
      droppedBeforeReply s.1)
    (by decide +kernel)
  rw [Bool.and_eq_true] at hd
  obtain ⟨hp, hd⟩ := hd
  unfold droppedBeforeReply at hd
  split at hd
  · rename_i join topic reply hh
    obtain ⟨hj, rfl, hevent, htopic, hjoinRef, href, hstatus⟩ := of_decide_eq_true hd
    obtain ⟨response, hok⟩ := response_of_isOk hstatus
    obtain ⟨leave, hm, -⟩ := hall _ "room" s hr (of_decide_eq_true hp) [.connected]
      [.unregistered "room", .received reply] join "1" hh hj (by simp) (by simp) (by simp)
      ⟨reply, by simp, hevent, htopic, hjoinRef, href, response, hok⟩ fun frame hm => by
        obtain rfl : frame = reply := by simpa using hm
        exact ends_nothing hevent hok
    simp at hm
  · cases hd

end Driver
end PhoenixChannel.Client
