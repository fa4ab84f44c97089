import PhoenixChannel.Client.Pushes

/-! What a flush sends, and what it leaves in the queue.

A flush sends a prefix of the queue in order and leaves the rest; it leaves something only
when the connection ended. -/
namespace PhoenixChannel.Client
open PhoenixChannel.Runtime Library

/-- The requests a frame of the topic was sent for. -/
def Effect.servedOn (topic : Topic) : Effect → List RequestId
  | .outgoing served frame => if frame.topic = topic then served else []
  | _ => []

/-- The requests that frames of the topic were sent for, in order. -/
def servedOn (topic : Topic) (effects : List Effect) : List RequestId :=
  effects.flatMap (Effect.servedOn topic)

theorem servedOn_append (topic : Topic) (a b : List Effect) :
    servedOn topic (a ++ b) = servedOn topic a ++ servedOn topic b :=
  List.flatMap_append

/-- Effects that send nothing serve nobody. -/
theorem servedOn_eq_nil {topic : Topic} {effects : List Effect}
    (h : ∀ effect ∈ effects, effect.servedOn topic = []) : servedOn topic effects = [] :=
  List.flatMap_eq_nil_iff.mpr h

namespace Driver

section
variable {env : Env} {d : Driver} {topic : Topic}

/-- One frame of the topic was sent. -/
theorem servedOn_sendFrame (topic : Topic) (env : Env) (d : Driver) (served : List RequestId)
    (frame : Frame) (hf : frame.topic = topic) :
    ∃ effects, (d.sendFrame env served frame).1.trace = d.trace ++ effects ∧
      servedOn topic effects = served := by
  obtain ⟨events, ht⟩ := sendFrame_trace env d served frame
  refine ⟨_, ht, ?_⟩
  have hevents : servedOn topic (events.map .telemetry) = [] := by
    refine servedOn_eq_nil fun effect hm => ?_
    obtain ⟨event, -, rfl⟩ := List.mem_map.mp hm
    rfl
  have hcons : servedOn topic (.outgoing served frame :: events.map .telemetry) =
      (if frame.topic = topic then served else []) ++ servedOn topic (events.map .telemetry) := rfl
  rw [hcons, hevents, if_pos hf, List.append_nil]

/-- A push leaves every record alone and is sent once, if at all. -/
theorem sendPush_sends (env : Env) (d : Driver) (topic : Topic) (push : QueuedPush) :
    (d.sendPush env topic push).1.state.channels = d.state.channels ∧
      ∃ effects, (d.sendPush env topic push).1.trace = d.trace ++ effects ∧
        (servedOn topic effects).Sublist [push.id] := by
  cases push_handled env d topic push with
  | refusedCall id event payload started hb he =>
    rw [he]
    exact ⟨rfl, _, rfl, List.nil_sublist _⟩
  | refusedCast id event payload hb he =>
    rw [he]
    exact ⟨rfl, _, rfl, List.nil_sublist _⟩
  | notJoined push hj he =>
    rw [he]
    exact ⟨rfl, [], by simp, List.nil_sublist _⟩
  | call id event payload started joinRef hb hj he =>
    rw [he, sendFrame_state]
    obtain ⟨effects, ht, hs⟩ := servedOn_sendFrame topic env
      (d.trackCall topic id event payload started) [id]
      ⟨some joinRef, some d.state.protocol.nextText, topic, event, payload⟩ rfl
    exact ⟨rfl, effects, ht, by rw [hs]; exact List.Sublist.refl _⟩
  | cast id event payload joinRef sent hb hj hsent he =>
    rw [he, hsent]
    obtain ⟨effects, ht, hs⟩ := servedOn_sendFrame topic env d [id]
      ⟨some joinRef, none, topic, event, payload⟩ rfl
    refine ⟨by rw [emitAll_state, sendFrame_state], effects ++ _,
      by rw [emitAll_trace, ht, List.append_assoc], ?_⟩
    rw [servedOn_append, hs]
    exact List.Sublist.refl _

/-- **A flush sends a prefix of the queue in order.** -/
theorem flushLoop_sends (fuel : Nat) {d : Driver} {channel : ChannelRecord}
    (hr : d.record topic = some channel) (hf : channel.queued.length ≤ fuel) :
    ∃ sent rest effects, channel.queued = sent ++ rest ∧
      (flushLoop env topic fuel d).1.record topic = some { channel with queued := rest } ∧
      (flushLoop env topic fuel d).1.trace = d.trace ++ effects ∧
      (servedOn topic effects).Sublist (sent.map QueuedPush.id) ∧
      ((flushLoop env topic fuel d).2 = none → rest = []) := by
  induction fuel generalizing d channel with
  | zero =>
    have hnil : channel.queued = [] := List.length_eq_zero_iff.mp (Nat.le_zero.mp hf)
    refine ⟨[], [], [], hnil, ?_, by simp [flushLoop], List.Sublist.refl _, fun _ => rfl⟩
    rw [← hnil]
    exact hr
  | succ fuel ih =>
    unfold flushLoop
    cases hq : channel.queued with
    | nil =>
      have hpop : d.popQueued topic = none := by simp only [popQueued, hr, hq]
      rw [hpop]
      refine ⟨[], [], [], rfl, ?_, by simp, List.Sublist.refl _, fun _ => rfl⟩
      rw [← hq]
      exact hr
    | cons push queued =>
      have hpop : d.popQueued topic = some (push, d.setRecord topic { channel with queued }) := by
        simp only [popQueued, hr, hq]
      rw [hpop]
      dsimp only
      obtain ⟨hch, first, ht, hs⟩ :=
        sendPush_sends env (d.setRecord topic { channel with queued }) topic push
      rcases hsend : (d.setRecord topic { channel with queued }).sendPush env topic push with
        ⟨d', _ | reason⟩
      · rw [hsend] at hch ht
        have hr' : d'.record topic = some { channel with queued } := by
          rw [record, hch]
          exact record_setRecord ..
        have hle : queued.length ≤ fuel := by
          rw [hq] at hf
          exact Nat.le_of_succ_le_succ hf
        obtain ⟨sent, rest, effects, hsplit, hrec, htr, hsub, hdone⟩ := ih hr' hle
        refine ⟨push :: sent, rest, first ++ effects, by rw [List.cons_append, ← hsplit], hrec, ?_, ?_,
          hdone⟩
        · show (flushLoop env topic fuel d').1.trace = _
          rw [htr, ht, List.append_assoc]
          rfl
        · rw [servedOn_append, List.map_cons]
          exact hs.append hsub
      · rw [hsend] at hch ht
        refine ⟨[push], queued, first, rfl, ?_, ht, hs, fun hdone => ?_⟩
        · show d'.record topic = _
          rw [record, hch]
          exact record_setRecord ..
        · cases hdone

variable (env) in
/-- A flush takes a front part of the queue and leaves the rest, in order. -/
theorem flush_sends {channel : ChannelRecord} (hr : d.record topic = some channel) :
    ∃ sent rest effects, channel.queued = sent ++ rest ∧
      (d.flush env topic).1.record topic = some { channel with queued := rest } ∧
      (d.flush env topic).1.trace = d.trace ++ effects ∧
      (servedOn topic effects).Sublist (sent.map QueuedPush.id) ∧
      ((d.flush env topic).2 = none → rest = []) := by
  unfold flush
  rw [hr]
  exact flushLoop_sends _ hr (Nat.le_refl _)

/-- There is nothing to flush for a topic without a record. -/
theorem flush_of_none (hr : d.record topic = none) : d.flush env topic = (d, none) := by
  simp only [flush, hr, Option.elim_none, flushLoop]

end

end Driver
end PhoenixChannel.Client
