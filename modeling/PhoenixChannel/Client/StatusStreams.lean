import PhoenixChannel.Client.EventStreams
import Mathlib.Logic.Function.Iterate

/-! Observable statuses.

A status is a cell with a channel for every subscriber. A write of another value sends each of
them a wake-up, which carries no value and is not sent where it does not fit; a subscriber that
takes a wake-up reads the cell. Several writes may stand behind one wake-up, but `Awake` keeps one
buffered as long as a subscriber has not seen what the cell holds. The channel itself is a
parameter. -/
namespace PhoenixChannel.Client
open PhoenixChannel.Library

/-- What a receiver finds: an item, the end of the stream, or nothing yet. -/
inductive Received (C : Type) where
  | item (rest : C)
  | ended
  | waiting

/-- A bounded channel of wake-ups with one sender and one receiver. `buffered` counts what was
sent and not received, and `connected` says whether the receiver is there. -/
structure WakeUps (C : Type) where
  channel : C
  trySend : C → SendOutcome × C
  next : C → Received C
  dropSender : C → C
  dropReceiver : C → C
  buffered : C → Nat
  connected : C → Bool

namespace WakeUps
variable {C : Type}

/-- What the channel owes: a wake-up that is sent is buffered, a send finds the channel full only
where one is buffered, and disconnected only where the receiver is gone; what is buffered is
received. -/
structure Lawful (W : WakeUps C) : Prop where
  connected_channel : W.connected W.channel = true
  sent {c c' : C} (h : W.trySend c = (.sent, c')) : W.connected c' = W.connected c ∧ 0 < W.buffered c'
  full {c c' : C} (h : W.trySend c = (.full, c')) :
    W.connected c' = W.connected c ∧ W.buffered c' = W.buffered c ∧ 0 < W.buffered c
  disconnected {c c' : C} (h : W.trySend c = (.disconnected, c')) : W.connected c = false
  next_item {c : C} (h : 0 < W.buffered c) : ∃ rest, W.next c = .item rest
  connected_next {c rest : C} (h : W.next c = .item rest) : W.connected rest = W.connected c

/-- Sends a wake-up. Returns whether the sender is retained: it is dropped once the receiver is
gone. -/
def wake (W : WakeUps C) (c : C) : Bool × C :=
  match W.trySend c with
  | (.sent, c) | (.full, c) => (true, c)
  | (.disconnected, c) => (false, W.dropSender c)

/-- While the receiver is there its sender is retained and a wake-up is buffered: the one that was
sent, or the one that left no room for it. -/
theorem Lawful.wake {W : WakeUps C} (hW : W.Lawful) {c : C} (hc : W.connected c = true) :
    (W.wake c).1 = true ∧ W.connected (W.wake c).2 = true ∧ 0 < W.buffered (W.wake c).2 := by
  rcases hs : W.trySend c with ⟨outcome, c'⟩
  cases outcome with
  | sent =>
    obtain ⟨hc', hb⟩ := hW.sent hs
    rw [WakeUps.wake, hs]
    exact ⟨rfl, hc'.trans hc, hb⟩
  | full =>
    obtain ⟨hc', hb', hb⟩ := hW.full hs
    rw [WakeUps.wake, hs]
    exact ⟨rfl, hc'.trans hc, hb' ▸ hb⟩
  | disconnected => cases (hW.disconnected hs).symm.trans hc

end WakeUps

/-- A channel with room for one item and one more of its sender, which is parked once there are
two; the next item that is received unparks it. -/
structure Mpsc where
  messages : Nat
  parked : Bool
  sender : Bool
  receiver : Bool
  messages_of_parked : parked = true → 0 < messages

namespace Mpsc

def send (c : Mpsc) : Mpsc :=
  { c with
    messages := c.messages + 1, parked := decide (1 < c.messages + 1)
    messages_of_parked := fun _ => Nat.succ_pos _ }

/-- What is left once an item is received. -/
def received (c : Mpsc) (messages : Nat) : Mpsc :=
  { c with messages, parked := false, messages_of_parked := nofun }

def wakeUps : WakeUps Mpsc where
  channel := ⟨0, false, true, true, nofun⟩
  trySend c :=
    if c.receiver then if c.parked then (.full, c) else (.sent, c.send) else (.disconnected, c)
  next c :=
    match c.messages with
    | messages + 1 => .item (c.received messages)
    | 0 => if c.sender then .waiting else .ended
  dropSender c := { c with sender := false }
  dropReceiver c := { c with receiver := false }
  buffered := messages
  connected := receiver

theorem wakeUps_lawful : wakeUps.Lawful where
  connected_channel := rfl
  sent {c c'} h := by
    simp only [wakeUps] at h
    split at h
    · split at h
      · cases h
      · cases h
        exact ⟨rfl, Nat.succ_pos _⟩
    · cases h
  full {c c'} h := by
    simp only [wakeUps] at h
    split at h
    · split at h
      · rename_i hp
        cases h
        exact ⟨rfl, rfl, c.messages_of_parked hp⟩
      · cases h
    · cases h
  disconnected {c c'} h := by
    simp only [wakeUps] at h
    split at h
    · split at h <;> cases h
    · rename_i hr
      exact Bool.eq_false_iff.mpr hr
  next_item {c} h := by
    obtain ⟨messages, hm⟩ := Nat.exists_eq_succ_of_ne_zero (Nat.ne_of_gt h)
    have hm : c.messages = messages + 1 := hm
    exact ⟨c.received messages, by simp only [wakeUps, hm]⟩
  connected_next {c rest} h := by
    simp only [wakeUps] at h
    split at h
    · cases h
      rfl
    · split at h <;> cases h

end Mpsc

/-- A subscriber's stream of changes. `live` is false once it was dropped, and `observed` is the
value that its owner read last. -/
structure StatusChanges (T C : Type) where
  receiver : C
  live : Bool
  observed : T

/-- A stream whose channel was sent a wake-up. -/
def StatusChanges.woken {T C : Type} (W : WakeUps C) (changes : StatusChanges T C) : StatusChanges T C :=
  { changes with receiver := (W.wake changes.receiver).2 }

/-- A status with the streams of all its subscribers. A sender is named by the number of its
stream. -/
structure ObservableStatus (T C : Type) where
  value : T
  subscribers : List Nat
  changes : List (StatusChanges T C)

namespace ObservableStatus
variable {T C : Type} (W : WakeUps C)

def new (value : T) : ObservableStatus T C := ⟨value, [], []⟩

def get (s : ObservableStatus T C) : T := s.value

/-- Wakes the subscribers in turn, and keeps those whose receiver is there. -/
def retain : List Nat → List (StatusChanges T C) → List Nat × List (StatusChanges T C)
  | [], changes => ([], changes)
  | i :: rest, changes =>
    let kept := (changes[i]?).any fun subscriber => (W.wake subscriber.receiver).1
    let (retained, changes) := retain rest (changes.modify i (StatusChanges.woken W))
    (if kept then i :: retained else retained, changes)

def set [DecidableEq T] (s : ObservableStatus T C) (value : T) : ObservableStatus T C :=
  if s.value = value then { s with value }
  else
    let (subscribers, changes) := retain W s.subscribers s.changes
    ⟨value, subscribers, changes⟩

/-- Subscribes under the next number. -/
def subscribe (s : ObservableStatus T C) : ObservableStatus T C :=
  { s with
    subscribers := s.subscribers ++ [s.changes.length]
    changes := s.changes ++ [⟨W.channel, true, s.value⟩] }

/-- Reads the status without waiting. -/
def current (s : ObservableStatus T C) (i : Nat) : Option (T × ObservableStatus T C) :=
  match s.changes[i]? with
  | none => none
  | some changes =>
    if changes.live then
      some (s.get, { s with changes := s.changes.set i { changes with observed := s.get } })
    else none

/-- A call that completes: with the status, once a wake-up is there, or with nothing at the end of
the stream. -/
def changed (s : ObservableStatus T C) (i : Nat) : Option (Option T × ObservableStatus T C) :=
  match s.changes[i]? with
  | none => none
  | some changes =>
    if changes.live then
      match W.next changes.receiver with
      | .item receiver =>
        some (some s.get, { s with changes := s.changes.set i ⟨receiver, true, s.get⟩ })
      | .ended => some (none, s)
      | .waiting => none
    else none

def drop (s : ObservableStatus T C) (i : Nat) : ObservableStatus T C :=
  { s with
    changes := s.changes.modify i fun changes =>
      { changes with receiver := W.dropReceiver changes.receiver, live := false } }

/-! ### Wake-ups

A write goes through the subscribers once: those that are gone are dropped from the list, the others
are woken. -/

section
variable {W : WakeUps C} {s s' : ObservableStatus T C} {changes : StatusChanges T C} {i : Nat}

theorem iterate_woken_live (n : Nat) (changes : StatusChanges T C) :
    ((StatusChanges.woken W)^[n] changes).live = changes.live ∧
      ((StatusChanges.woken W)^[n] changes).observed = changes.observed := by
  induction n with
  | zero => exact ⟨rfl, rfl⟩
  | succ n ih =>
    rw [Function.iterate_succ_apply']
    exact ih

/-- A stream that was woken has a wake-up buffered, and one that had keeps it. -/
theorem iterate_woken (hW : W.Lawful) (hc : W.connected changes.receiver = true) (n : Nat) :
    W.connected ((StatusChanges.woken W)^[n] changes).receiver = true ∧
      (0 < n ∨ 0 < W.buffered changes.receiver →
        0 < W.buffered ((StatusChanges.woken W)^[n] changes).receiver) := by
  induction n with
  | zero => exact ⟨hc, fun h => h.resolve_left (Nat.lt_irrefl 0)⟩
  | succ n ih =>
    rw [Function.iterate_succ_apply']
    obtain ⟨-, hconnected, hbuffered⟩ := hW.wake ih.1
    exact ⟨hconnected, fun _ => hbuffered⟩

/-- Every sender wakes its own stream. -/
theorem retain_lookup (l : List Nat) (changes : List (StatusChanges T C)) (i : Nat) :
    (retain W l changes).2[i]? = (changes[i]?).map (StatusChanges.woken W)^[l.count i] := by
  induction l generalizing changes with
  | nil => simp [retain]
  | cons j rest ih =>
    simp only [retain, ih, List.getElem?_modify, List.count_cons]
    by_cases hj : j = i
    · simp [hj, Function.iterate_succ]
    · simp [hj]

/-- The sender of a stream that is there is retained. -/
theorem mem_retain (hW : W.Lawful) {l : List Nat} {all : List (StatusChanges T C)} (hi : i ∈ l)
    (hr : all[i]? = some changes) (hc : W.connected changes.receiver = true) :
    i ∈ (retain W l all).1 := by
  induction l generalizing all with
  | nil => cases hi
  | cons j rest ih =>
    simp only [retain]
    by_cases hj : j = i
    · have hkept := (hW.wake hc).1
      simp [hj, hr, hkept]
    · have hrest : i ∈ (retain W rest (all.modify j (StatusChanges.woken W))).1 := by
        refine ih ((List.mem_cons.mp hi).resolve_left (Ne.symm hj)) ?_
        simp [hj, hr]
      split
      · exact List.mem_cons_of_mem _ hrest
      · exact hrest

end

/-! ### Live streams

A wake-up that finds no room is not needed, as one is buffered already. -/

/-- A live stream keeps its sender, and has a wake-up buffered unless its owner read last what the
status is. -/
structure Awake (W : WakeUps C) (s : ObservableStatus T C) (i : Nat) (changes : StatusChanges T C) : Prop where
  listed : i ∈ s.subscribers
  connected : W.connected changes.receiver = true
  buffered : changes.observed ≠ s.value → 0 < W.buffered changes.receiver

/-- Every live stream is awake. -/
def Vigilant (W : WakeUps C) (s : ObservableStatus T C) : Prop :=
  ∀ i changes, s.changes[i]? = some changes → changes.live = true → Awake W s i changes

section
variable {W : WakeUps C} {s : ObservableStatus T C} {changes : StatusChanges T C} {i : Nat}

/-- A buffered wake-up is taken at once, with the status. -/
theorem changed_of_buffered (hW : W.Lawful) (hr : s.changes[i]? = some changes) (hl : changes.live = true)
    (hb : 0 < W.buffered changes.receiver) : ∃ s', s.changed W i = some (some s.value, s') := by
  obtain ⟨receiver, hn⟩ := hW.next_item hb
  simp only [changed, hr, hl, if_true, hn]
  exact ⟨_, rfl⟩

/-- One stream is written. -/
theorem Vigilant.write (h : s.Vigilant W) {changes' : StatusChanges T C}
    (ha : changes'.live = true → Awake W s i changes') :
    Vigilant W { s with changes := s.changes.set i changes' } := by
  intro j found hr hl
  rw [List.getElem?_set] at hr
  split at hr
  · rename_i hj
    split at hr
    · cases hr
      rw [← hj]
      obtain ⟨hlisted, hconnected, hbuffered⟩ := ha hl
      exact ⟨hlisted, hconnected, hbuffered⟩
    · cases hr
  · obtain ⟨hlisted, hconnected, hbuffered⟩ := h j found hr hl
    exact ⟨hlisted, hconnected, hbuffered⟩

theorem subscribe_lookup (W : WakeUps C) (s : ObservableStatus T C) (i : Nat) :
    (s.subscribe W).changes[i]? =
      if i = s.changes.length then some ⟨W.channel, true, s.value⟩ else s.changes[i]? := by
  show (s.changes ++ [_])[i]? = _
  by_cases hi : i = s.changes.length
  · rw [if_pos hi, hi, List.getElem?_concat_length]
  rw [if_neg hi]
  by_cases hlt : i < s.changes.length
  · exact List.getElem?_append_left hlt
  · rw [List.getElem?_eq_none (by simp; omega), List.getElem?_eq_none (by omega)]

/-- A new stream starts with the value that the status has. -/
theorem Vigilant.subscribe (hW : W.Lawful) (h : s.Vigilant W) : (s.subscribe W).Vigilant W := by
  intro i found hr hl
  rw [subscribe_lookup] at hr
  split at hr
  · rename_i hi
    cases hr
    exact ⟨by simp [ObservableStatus.subscribe, hi], hW.connected_channel, fun hne => absurd rfl hne⟩
  · obtain ⟨hlisted, hconnected, hbuffered⟩ := h i found hr hl
    exact ⟨List.mem_append_left _ hlisted, hconnected, hbuffered⟩

theorem Vigilant.drop (h : s.Vigilant W) (i : Nat) : (s.drop W i).Vigilant W := by
  intro j found hr hl
  rw [ObservableStatus.drop, List.getElem?_modify] at hr
  obtain ⟨changes, hbefore, rfl⟩ := Option.map_eq_some_iff.mp hr
  split at hl
  · cases hl
  · rename_i hj
    obtain ⟨hlisted, hconnected, hbuffered⟩ := h j changes hbefore hl
    rw [if_neg hj]
    exact ⟨hlisted, hconnected, hbuffered⟩

variable [DecidableEq T]

/-- A write of the same value changes nothing; another wakes every subscriber. -/
theorem set_cases (W : WakeUps C) (s : ObservableStatus T C) (value : T) :
    (s.value = value ∧ s.set W value = s) ∨
      (s.value ≠ value ∧ s.set W value =
        ⟨value, (retain W s.subscribers s.changes).1, (retain W s.subscribers s.changes).2⟩) := by
  by_cases h : s.value = value
  · refine .inl ⟨h, ?_⟩
    rw [set, if_pos h, ← h]
  · exact .inr ⟨h, if_neg h⟩

/-- A write of another value wakes every live stream, so none is left with a value it has not
seen. -/
theorem Vigilant.set (hW : W.Lawful) (h : s.Vigilant W) (value : T) : (s.set W value).Vigilant W := by
  rcases set_cases W s value with ⟨-, he⟩ | ⟨-, he⟩
  · rw [he]
    exact h
  · rw [he]
    intro i found hr hl
    rw [retain_lookup] at hr
    obtain ⟨changes, hbefore, rfl⟩ := Option.map_eq_some_iff.mp hr
    rw [(iterate_woken_live ..).1] at hl
    have ha := h i changes hbefore hl
    have hcount : 0 < s.subscribers.count i := List.count_pos_iff.mpr ha.listed
    obtain ⟨hconnected, hbuffered⟩ := iterate_woken hW ha.connected (s.subscribers.count i)
    exact ⟨mem_retain hW ha.listed hbefore ha.connected, hconnected, fun _ => hbuffered (.inl hcount)⟩

end

/-! ### Runs

A stream that is behind can always take a wake-up, whatever the other owners do meanwhile. -/

inductive Input (T : Type) where
  | set (value : T)
  | subscribe
  | current (i : Nat)
  | changed (i : Nat)
  | drop (i : Nat)

variable [DecidableEq T]

def step (s : ObservableStatus T C) : Input T → Option (ObservableStatus T C)
  | .set value => some (s.set W value)
  | .subscribe => some (s.subscribe W)
  | .current i => (s.current i).map Prod.snd
  | .changed i => (s.changed W i).map Prod.snd
  | .drop i => some (s.drop W i)

def machine (value : T) : Machine (ObservableStatus T C) (Input T) := ⟨new value, step W⟩

section
variable {W : WakeUps C} {s s' : ObservableStatus T C} {changes : StatusChanges T C} {value : T} {i : Nat}

theorem current_cases (h : s.step W (.current i) = some s') :
    ∃ changes, s.changes[i]? = some changes ∧ changes.live = true ∧
      s' = { s with changes := s.changes.set i { changes with observed := s.value } } := by
  obtain ⟨⟨value, s₁⟩, hs, rfl⟩ := Option.map_eq_some_iff.mp h
  unfold current at hs
  split at hs
  · cases hs
  · rename_i changes hr
    split at hs
    · rename_i hl
      cases hs
      exact ⟨changes, hr, hl, rfl⟩
    · cases hs

/-- A call that completes took a wake-up, or found the end of the stream. -/
theorem changed_cases (h : s.step W (.changed i) = some s') :
    s' = s ∨ ∃ changes receiver, s.changes[i]? = some changes ∧ changes.live = true ∧
      W.next changes.receiver = .item receiver ∧
        s' = { s with changes := s.changes.set i ⟨receiver, true, s.value⟩ } := by
  obtain ⟨⟨value, s₁⟩, hs, rfl⟩ := Option.map_eq_some_iff.mp h
  unfold changed at hs
  split at hs
  · cases hs
  · rename_i changes hr
    split at hs
    · rename_i hl
      cases hn : W.next changes.receiver with
      | item receiver =>
        rw [hn] at hs
        cases hs
        exact .inr ⟨changes, receiver, hr, hl, hn, rfl⟩
      | ended =>
        rw [hn] at hs
        cases hs
        exact .inl rfl
      | waiting =>
        rw [hn] at hs
        cases hs
    · cases hs

theorem Vigilant.step (hW : W.Lawful) (h : s.Vigilant W) {input : Input T} (hs : s.step W input = some s') :
    s'.Vigilant W := by
  cases input with
  | set value =>
    cases hs
    exact h.set hW value
  | subscribe =>
    cases hs
    exact h.subscribe hW
  | current i =>
    obtain ⟨changes, hr, hl, rfl⟩ := current_cases hs
    have ha := h i changes hr hl
    exact h.write fun _ => ⟨ha.listed, ha.connected, fun hne => absurd rfl hne⟩
  | changed i =>
    rcases changed_cases hs with rfl | ⟨changes, receiver, hr, hl, hn, rfl⟩
    · exact h
    · have ha := h i changes hr hl
      exact h.write fun _ => ⟨ha.listed, (hW.connected_next hn).trans ha.connected, fun hne => absurd rfl hne⟩
  | drop i =>
    cases hs
    exact h.drop i

/-- A live stream with a wake-up. -/
def Woken (W : WakeUps C) (i : Nat) (s : ObservableStatus T C) : Prop :=
  ∃ changes, s.changes[i]? = some changes ∧ changes.live = true ∧ W.connected changes.receiver = true ∧
    0 < W.buffered changes.receiver

/-- Only the owner of a stream takes its wake-ups. -/
theorem Woken.step (hW : W.Lawful) (h : Woken W i s) {input : Input T}
    (hi : input ≠ .changed i ∧ input ≠ .drop i) (hs : s.step W input = some s') : Woken W i s' := by
  obtain ⟨found, hr, hl, hc, hb⟩ := h
  cases input with
  | set value =>
    cases hs
    rcases set_cases W s value with ⟨-, he⟩ | ⟨-, he⟩
    · rw [he]
      exact ⟨found, hr, hl, hc, hb⟩
    · obtain ⟨hconnected, hbuffered⟩ := iterate_woken hW hc (s.subscribers.count i)
      rw [he]
      refine ⟨_, ?_, ?_, hconnected, hbuffered (.inr hb)⟩
      · rw [retain_lookup, hr]
        rfl
      · rw [(iterate_woken_live ..).1, hl]
  | subscribe =>
    cases hs
    refine ⟨found, ?_, hl, hc, hb⟩
    have hlt : i < s.changes.length := (List.getElem?_eq_some_iff.mp hr).1
    rw [subscribe_lookup, if_neg (Nat.ne_of_lt hlt), hr]
  | current j =>
    obtain ⟨changes, hj, -, rfl⟩ := current_cases hs
    by_cases hij : j = i
    · rw [hij] at hj
      cases hr.symm.trans hj
      have hlt : i < s.changes.length := (List.getElem?_eq_some_iff.mp hr).1
      exact ⟨{ found with observed := s.value }, by rw [hij, List.getElem?_set_self hlt], hl, hc, hb⟩
    · exact ⟨found, by rw [List.getElem?_set_ne hij, hr], hl, hc, hb⟩
  | changed j =>
    have hij : j ≠ i := fun hij => hi.1 (by rw [hij])
    rcases changed_cases hs with rfl | ⟨changes, receiver, -, -, -, rfl⟩
    · exact ⟨found, hr, hl, hc, hb⟩
    · exact ⟨found, by rw [List.getElem?_set_ne hij, hr], hl, hc, hb⟩
  | drop j =>
    have hij : j ≠ i := fun hij => hi.2 (by rw [hij])
    cases hs
    refine ⟨found, ?_, hl, hc, hb⟩
    simp [ObservableStatus.drop, hij, hr]

/-- **No subscriber misses the latest value.** Where the status differs from what the owner of a
live stream read last, a wake-up is buffered for it; whatever else happens before its next call,
that call returns the status of its time, without waiting. -/
theorem change_never_missed (hW : W.Lawful) (h : (machine W value).Reachable s)
    (hr : s.changes[i]? = some changes) (hl : changes.live = true) (hne : changes.observed ≠ s.value) :
    0 < W.buffered changes.receiver ∧
      ∀ s', (machine W value).Path (fun _ input => input ≠ .changed i ∧ input ≠ .drop i) s s' →
        ∃ s'', s'.changed W i = some (some s'.value, s'') := by
  have hvigilant : s.Vigilant W :=
    h.invariant (P := Vigilant W) (fun i changes hr => by cases hr) fun _ _ _ _ hv _ hs => hv.step hW hs
  obtain ⟨-, hconnected, hbuffered⟩ := hvigilant i changes hr hl
  refine ⟨hbuffered hne, fun s' hpath => ?_⟩
  obtain ⟨changes', hr', hl', -, hb'⟩ : Woken W i s' :=
    hpath.invariant (fun _ _ _ hw hok hs => hw.step hW hok hs) ⟨changes, hr, hl, hconnected, hbuffered hne⟩
  exact changed_of_buffered hW hr' hl' hb'

end

/-- Of three writes the third finds the channel full, and the first call after them reads it. -/
theorem change_never_missed_full : ∃ s : ObservableStatus ChannelStatus Mpsc,
    s.value = .joined ∧ ∃ s', s.changed Mpsc.wakeUps 0 = some (some .joined, s') := by
  obtain ⟨s, hreach, hcheck⟩ := Machine.reachable_of_run (machine Mpsc.wakeUps ChannelStatus.closed)
    [.subscribe, .set .waitingToJoin, .set .joining, .set .joined]
    (fun s => decide (s.value = .joined) &&
      s.changes[0]?.any fun changes => changes.live && decide (changes.observed ≠ s.value)) (by decide)
  simp only [Bool.and_eq_true, decide_eq_true_eq, Option.any_eq_true] at hcheck
  obtain ⟨hv, changes, hr, hl, hne⟩ := hcheck
  obtain ⟨-, hchanged⟩ := change_never_missed Mpsc.wakeUps_lawful hreach hr hl hne
  have hnow := hchanged s .refl
  rw [hv] at hnow
  exact ⟨s, hv, hnow⟩

end ObservableStatus
end PhoenixChannel.Client
