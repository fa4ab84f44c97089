import PhoenixChannel.Client.StatusStreams
import PhoenixChannel.Library.Watch

/-! From the client's statuses to the host's.

On the worker's thread a relay takes the changes of a status one by one and writes each into a watch
channel; receivers on host threads read that at their own pace. Both halves may skip statuses, and a
wake-up that is left over makes the relay write the same status again. Of what a receiver returns the
order is the client's, and what it returned last is the client's status once neither half has anything
left to do. When the worker ends, the socket's last status is written; a channel's is what the relay took
last. Both channels are parameters. -/
namespace PhoenixChannel.Native
open PhoenixChannel.Library PhoenixChannel.Client

/-- A receiver on a host thread: its end of the channel, and what it returned. -/
structure StatusReceiver (T R : Type) where
  receiver : R
  results : List T

/-- A status on its way to the host. `stream` is the relay's number among the status's subscribers, and
`last` what is written as the worker ends: `closed` for the socket and nothing for a channel. -/
structure StatusRelay (T C D R : Type) where
  source : ObservableStatus T C
  stream : Nat
  last : Option T
  relaying : Bool
  watch : D
  receivers : List (StatusReceiver T R)

namespace StatusRelay
variable {T C D R : Type}

inductive Input (T : Type) where
  /-- The status is written or another of its subscribers acts. -/
  | source (input : ObservableStatus.Input T)
  /-- The relay takes a change. -/
  | relay
  /-- The worker ends. -/
  | stop
  | subscribe
  | changed (receiver : Nat)

/-- The input is about the stream with this number. -/
def About (stream : Nat) : ObservableStatus.Input T → Bool
  | .current i | .changed i | .drop i => i = stream
  | .set _ | .subscribe => false

variable (W : WakeUps C) (H : Watch T D R)

/-- Registers a relay for a status. -/
def new (source : ObservableStatus T C) (last : Option T) : StatusRelay T C D R :=
  ⟨source.subscribe W, source.changes.length, last, true, H.channel source.value, []⟩

/-- The sender is dropped, after the last write. -/
def finish (s : StatusRelay T C D R) : StatusRelay T C D R :=
  { s with relaying := false, watch := H.close (s.last.elim s.watch (H.send s.watch)) }

/-- One turn of `while let Some(changed) = status_changes.changed().await`. -/
def relay (s : StatusRelay T C D R) : Option (StatusRelay T C D R) :=
  if s.relaying then
    (s.source.changed W s.stream).map fun
      | (some value, source) => { s with source, watch := H.send s.watch value }
      | (none, source) => { s with source }.finish H
  else none

/-- A receiver is cloned from one that was made with the channel and has seen nothing. -/
def subscribe (s : StatusRelay T C D R) : StatusRelay T C D R :=
  { s with receivers := s.receivers ++ [⟨H.reader, []⟩] }

/-- `changed`, when it does not wait: the value that it returns, or nothing at the end. -/
def changed (s : StatusRelay T C D R) (receiver : Nat) : Option (StatusRelay T C D R) :=
  s.receivers[receiver]?.bind fun r =>
    (H.changed s.watch r.receiver).map fun outcome =>
      { s with receivers := s.receivers.set receiver ⟨outcome.2, r.results ++ outcome.1.toList⟩ }

variable [DecidableEq T]

def step (s : StatusRelay T C D R) : Input T → Option (StatusRelay T C D R)
  | .source input =>
    if About s.stream input then none else (s.source.step W input).map fun source => { s with source }
  | .relay => s.relay W H
  | .stop => if s.relaying then some (s.finish H) else none
  | .subscribe => some (s.subscribe H)
  | .changed receiver => s.changed H receiver

def machine (source : ObservableStatus T C) (last : Option T) : Machine (StatusRelay T C D R) (Input T) :=
  ⟨new W H source last, step W H⟩

/-- The status that an input writes. -/
def wrote : ObservableStatus.Input T → List T
  | .set value => [value]
  | _ => []

/-- What there is to be relayed: the statuses written while the relay runs, and the last write. -/
def written (s : StatusRelay T C D R) (input : Input T) (s' : StatusRelay T C D R) : List T :=
  match input with
  | .source input => if s.relaying then wrote input else []
  | _ => if s.relaying && !s'.relaying then s.last.toList else []

/-- A relay, with the statuses that were written while it ran. -/
def history (source : ObservableStatus T C) (last : Option T) : Machine (List T × StatusRelay T C D R) (Input T) :=
  (machine W H source last).recording written

/-! ### The relay's stream

The relay is one of the subscribers of an observable status, so what is known of those says when it
has something to do. -/

section
variable {W : WakeUps C} {source source' : ObservableStatus T C} {stream : Nat} {value : T}

/-- The stream is live, and its owner read this value last. -/
def Tuned (source : ObservableStatus T C) (stream : Nat) (value : T) : Prop :=
  ∃ changes, source.changes[stream]? = some changes ∧ changes.live = true ∧ changes.observed = value

/-- Only its owner reads a stream. -/
theorem Tuned.step (h : Tuned source stream value) {input : ObservableStatus.Input T}
    (hi : About stream input = false) (hs : source.step W input = some source') :
    Tuned source' stream value := by
  obtain ⟨found, hr, hl, hv⟩ := h
  cases input with
  | set written =>
    cases hs
    rcases ObservableStatus.set_cases W source written with ⟨-, he⟩ | ⟨-, he⟩
    · exact ⟨found, by rw [he, hr], hl, hv⟩
    · obtain ⟨hlive, hobserved⟩ := ObservableStatus.iterate_woken_live (W := W) (source.subscribers.count stream) found
      refine ⟨_, ?_, hlive.trans hl, hobserved.trans hv⟩
      rw [he, ObservableStatus.retain_lookup, hr]
      rfl
  | subscribe =>
    cases hs
    have hlt : stream < source.changes.length := (List.getElem?_eq_some_iff.mp hr).1
    exact ⟨found, by rw [ObservableStatus.subscribe_lookup, if_neg (Nat.ne_of_lt hlt), hr], hl, hv⟩
  | current i =>
    obtain ⟨changes, -, -, rfl⟩ := ObservableStatus.current_cases hs
    have hother : i ≠ stream := of_decide_eq_false hi
    exact ⟨found, by rw [List.getElem?_set_ne hother, hr], hl, hv⟩
  | changed i =>
    have hother : i ≠ stream := of_decide_eq_false hi
    rcases ObservableStatus.changed_cases hs with rfl | ⟨changes, receiver, -, -, -, rfl⟩
    · exact ⟨found, hr, hl, hv⟩
    · exact ⟨found, by rw [List.getElem?_set_ne hother, hr], hl, hv⟩
  | drop i =>
    cases hs
    have hother : i ≠ stream := of_decide_eq_false hi
    refine ⟨found, ?_, hl, hv⟩
    simp [ObservableStatus.drop, hother, hr]

/-- A status is what was written last. -/
theorem value_of_step {input : ObservableStatus.Input T} (hs : source.step W input = some source') :
    source'.value = (wrote input).getLast?.getD source.value := by
  cases input with
  | set value =>
    cases hs
    rcases ObservableStatus.set_cases W source value with ⟨hv, he⟩ | ⟨-, he⟩
    · exact (congrArg _ he).trans hv
    · exact congrArg ObservableStatus.value he
  | subscribe =>
    cases hs
    rfl
  | current i =>
    obtain ⟨changes, -, -, rfl⟩ := ObservableStatus.current_cases hs
    rfl
  | changed i =>
    rcases ObservableStatus.changed_cases hs with rfl | ⟨changes, receiver, -, -, -, rfl⟩ <;> rfl
  | drop i =>
    cases hs
    rfl

omit [DecidableEq T] in
/-- A change that is taken is the status of the moment. -/
theorem tuned_changed {result : Option T} (h : Tuned source stream value)
    (hs : source.changed W stream = some (result, source')) :
    (result = none ∧ source' = source) ∨
      (result = some source.value ∧ source'.value = source.value ∧ Tuned source' stream source.value) := by
  obtain ⟨found, hr, hl, -⟩ := h
  have hlt : stream < source.changes.length := (List.getElem?_eq_some_iff.mp hr).1
  simp only [ObservableStatus.changed, hr, hl, if_true] at hs
  cases hn : W.next found.receiver with
  | item receiver =>
    rw [hn] at hs
    cases hs
    exact .inr ⟨rfl, rfl, _, List.getElem?_set_self hlt, rfl, rfl⟩
  | ended =>
    rw [hn] at hs
    cases hs
    exact .inl ⟨rfl, rfl⟩
  | waiting =>
    rw [hn] at hs
    cases hs

end

/-! ### Runs

The relay writes what it takes, and it takes a sample of the history of the status; a receiver
returns a sample of what was written. -/

/-- The channel holds a value of the history, from which every receiver follows. While the relay runs the
history ends with the status, and the channel holds what the relay read last; then the channel is closed, and
holds the last write if there is one. -/
structure Relayed (W : WakeUps C) (H : Watch T D R) (initial : T) (last : Option T) (seen : List T)
    (s : StatusRelay T C D R) : Prop where
  last_eq : s.last = last
  follows : ∃ place, (initial :: seen)[place]? = some (H.value s.watch) ∧ ∀ receiver ∈ s.receivers,
    Follows H (initial :: seen) place initial s.watch receiver.receiver receiver.results
  version : H.seen H.reader ≤ H.version s.watch
  unwritten : H.seen H.reader = H.version s.watch → H.value s.watch = initial
  status : s.relaying = true → (initial :: seen).getLast? = some s.source.value
  vigilant : s.source.Vigilant W
  tuned : s.relaying = true → Tuned s.source s.stream (H.value s.watch)
  ended : s.relaying = false → H.closed s.watch = true ∧ ∀ final, last = some final → H.value s.watch = final

section
variable {W : WakeUps C} {H : Watch T D R} {s s' : StatusRelay T C D R} {initial value : T} {last : Option T}
  {seen added : List T}

omit [DecidableEq T] in
/-- The last status of the history is written. -/
theorem Relayed.send (hH : H.Lawful) (h : Relayed W H initial last seen s)
    (hv : (initial :: (seen ++ added)).getLast? = some value) :
    ∃ place, (initial :: (seen ++ added))[place]? = some (H.value (H.send s.watch value)) ∧
      ∀ receiver ∈ s.receivers, Follows H (initial :: (seen ++ added)) place initial (H.send s.watch value)
        receiver.receiver receiver.results := by
  obtain ⟨place, hplace, hfollows⟩ := h.follows
  have hlt : place < (initial :: seen).length := (List.getElem?_eq_some_iff.mp hplace).1
  refine ⟨(seen ++ added).length, ?_, fun receiver hm => ?_⟩
  · rw [List.getLast?_eq_getElem?] at hv
    exact hv.trans (congrArg some (hH.value_send s.watch value).symm)
  · have hle : place ≤ (seen ++ added).length := by
      rw [List.length_append]
      exact Nat.le_trans (Nat.le_of_lt_succ hlt) (Nat.le_add_right _ _)
    exact (hfollows receiver hm).send hH hle value

omit [DecidableEq T] in
/-- A write is newer than what a new receiver has seen. -/
theorem Relayed.version_send (hH : H.Lawful) (h : Relayed W H initial last seen s) (value : T) :
    H.seen H.reader < H.version (H.send s.watch value) :=
  hH.version_send s.watch value ▸ Nat.lt_succ_of_le h.version

omit [DecidableEq T] in
/-- The status at the end is written behind all the others. -/
theorem Relayed.finish (hH : H.Lawful) (h : Relayed W H initial last seen s) :
    Relayed W H initial last (seen ++ s.last.toList) (s.finish H) := by
  obtain hlast | ⟨value, hlast⟩ : s.last = none ∨ ∃ value, s.last = some value := Option.eq_none_or_eq_some s.last
  · have he : (s.finish H).watch = H.close s.watch := by rw [StatusRelay.finish, hlast]; rfl
    obtain ⟨place, hplace, hfollows⟩ := h.follows
    rw [hlast, Option.toList_none, List.append_nil]
    exact
      { last_eq := h.last_eq
        follows := ⟨place, by rw [he, hH.value_close]; exact hplace,
          fun receiver hm => he ▸ (hfollows receiver hm).close hH⟩
        version := by rw [he, hH.version_close]; exact h.version
        unwritten := by rw [he, hH.version_close, hH.value_close]; exact h.unwritten
        status := fun hr => absurd hr Bool.false_ne_true
        vigilant := h.vigilant
        tuned := fun hr => absurd hr Bool.false_ne_true
        ended := fun _ => ⟨he ▸ hH.closed_close s.watch, fun final hf => by
          rw [← h.last_eq, hlast] at hf
          cases hf⟩ }
  · have he : (s.finish H).watch = H.close (H.send s.watch value) := by rw [StatusRelay.finish, hlast]; rfl
    have hv : (initial :: (seen ++ [value])).getLast? = some value := by
      rw [← List.cons_append, List.getLast?_append_cons, List.getLast?_singleton]
    obtain ⟨place, hplace, hfollows⟩ := h.send hH hv
    have hnew := h.version_send hH value
    rw [hlast, Option.toList_some]
    exact
      { last_eq := h.last_eq
        follows := ⟨place, by rw [he, hH.value_close]; exact hplace,
          fun receiver hm => he ▸ (hfollows receiver hm).close hH⟩
        version := by rw [he, hH.version_close]; exact Nat.le_of_lt hnew
        unwritten := by rw [he, hH.version_close]; exact fun h0 => absurd h0 (Nat.ne_of_lt hnew)
        status := fun hr => absurd hr Bool.false_ne_true
        vigilant := h.vigilant
        tuned := fun hr => absurd hr Bool.false_ne_true
        ended := fun _ => ⟨he ▸ hH.closed_close _, fun final hf => by
          rw [he, hH.value_close, hH.value_send]
          exact Option.some.inj (hlast.symm.trans (h.last_eq.trans hf))⟩ }

/-- One case for each input. Only the relay writes, and what it writes it has just taken. -/
theorem Relayed.step (hW : W.Lawful) (hH : H.Lawful) (h : Relayed W H initial last seen s) {input : Input T}
    (hs : s.step W H input = some s') : Relayed W H initial last (seen ++ written s input s') s' := by
  cases input with
  | source input =>
    simp only [StatusRelay.step, Option.ite_none_left_eq_some, Bool.not_eq_true] at hs
    obtain ⟨habout, hs⟩ := hs
    obtain ⟨source, hsource, rfl⟩ := Option.map_eq_some_iff.mp hs
    obtain ⟨place, hplace, hfollows⟩ := h.follows
    refine ⟨h.last_eq, ⟨place, ?_, fun receiver hm => (hfollows receiver hm).grow⟩, h.version, h.unwritten,
      fun hr => ?_, h.vigilant.step hW hsource, fun hr => (h.tuned hr).step habout hsource, h.ended⟩
    · exact (List.getElem?_append_left (List.getElem?_eq_some_iff.mp hplace).1).trans hplace
    · have hr : s.relaying = true := hr
      simp only [written, hr, if_true]
      rw [← List.cons_append, List.getLast?_append, h.status hr, value_of_step hsource, Option.or_some]
  | relay =>
    simp only [StatusRelay.step, StatusRelay.relay, Option.ite_none_right_eq_some] at hs
    obtain ⟨hr, hs⟩ := hs
    obtain ⟨⟨result, source⟩, hc, rfl⟩ := Option.map_eq_some_iff.mp hs
    have hvigilant : source.Vigilant W := by
      have hstep : s.source.step W (.changed s.stream) = some source := by
        simp only [ObservableStatus.step, hc, Option.map_some]
      exact h.vigilant.step hW hstep
    rcases tuned_changed (h.tuned hr) hc with ⟨rfl, rfl⟩ | ⟨rfl, hv, htuned⟩
    · have he : written s .relay (s.finish H) = s.last.toList := by simp [written, hr, StatusRelay.finish]
      exact he ▸ h.finish hH
    · have he : seen ++ [] = seen := List.append_nil _
      have hlast : (initial :: (seen ++ [])).getLast? = some s.source.value := he.symm ▸ h.status hr
      have hnew := h.version_send hH s.source.value
      simp only [written, hr, Bool.not_true, Bool.and_false, Bool.false_eq_true, if_false]
      exact
        { last_eq := h.last_eq
          follows := h.send hH hlast
          version := Nat.le_of_lt hnew
          unwritten := fun h0 => absurd h0 (Nat.ne_of_lt hnew)
          status := fun _ => by rw [hv]; exact hlast
          vigilant := hvigilant
          tuned := fun _ => (hH.value_send s.watch s.source.value).symm ▸ htuned
          ended := fun hend => absurd hend.symm Bool.false_ne_true }
  | stop =>
    simp only [StatusRelay.step, Option.ite_none_right_eq_some, Option.some.injEq] at hs
    obtain ⟨hr, rfl⟩ := hs
    have he : written s .stop (s.finish H) = s.last.toList := by simp [written, hr, StatusRelay.finish]
    exact he ▸ h.finish hH
  | subscribe =>
    cases hs
    obtain ⟨place, hplace, hfollows⟩ := h.follows
    have he : written s .subscribe (s.subscribe H) = [] := by simp [written, StatusRelay.subscribe]
    rw [he, List.append_nil]
    refine ⟨h.last_eq, ⟨place, hplace, fun receiver hm => ?_⟩, h.version, h.unwritten, h.status, h.vigilant,
      h.tuned, h.ended⟩
    rcases List.mem_append.mp hm with hm | hm
    · exact hfollows receiver hm
    · cases List.mem_singleton.mp hm
      exact follows_new h.version h.unwritten
  | changed receiver =>
    obtain ⟨r, hr, hcall⟩ := Option.bind_eq_some_iff.mp hs
    obtain ⟨⟨result, end'⟩, hc, rfl⟩ := Option.map_eq_some_iff.mp hcall
    obtain ⟨place, hplace, hfollows⟩ := h.follows
    simp only [written, Bool.and_not_self, Bool.false_eq_true, if_false, List.append_nil]
    refine ⟨h.last_eq, ⟨place, hplace, fun other hm => ?_⟩, h.version, h.unwritten, h.status, h.vigilant, h.tuned,
      h.ended⟩
    rcases List.mem_or_eq_of_mem_set hm with hm | rfl
    · exact hfollows other hm
    · exact (hfollows r (List.mem_of_getElem? hr)).changed hH hplace hc

variable {source : ObservableStatus T C} {h' : List T × StatusRelay T C D R}

end

/-- A channel's last status is not written if the worker ends before the relay takes it. -/
example :
    let relay := machine Mpsc.wakeUps (Watched.watch ChannelStatus) (ObservableStatus.new ChannelStatus.closed) none
    (relay.run relay.start [.source (.set .joined), .stop]).any (fun s =>
      !s.relaying && s.source.value = .joined && (Watched.watch ChannelStatus).value s.watch = .closed) = true := by
  decide

end StatusRelay
end PhoenixChannel.Native
