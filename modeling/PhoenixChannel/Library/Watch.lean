import Mathlib.Data.List.Basic

/-! Watch channels.

A watch channel holds one value. A reader is told that there is something new to it, not how much: what it
reads is the value of the moment. So its results are a sample of the history of the values, in order, and
`Follows` keeps the last one in step with the channel as long as nothing is new. The channel is a parameter:
`Lawful` is what it owes. -/
namespace PhoenixChannel.Library

/-- A watch channel with one sender. `version` counts what was written, `seen` is the count that a reader
knows, and a call that has to wait is `none`; a call that completes gives a value, or nothing at the end. -/
structure Watch (T C R : Type) where
  channel : T → C
  send : C → T → C
  close : C → C
  reader : R
  changed : C → R → Option (Option T × R)
  value : C → T
  version : C → Nat
  closed : C → Bool
  seen : R → Nat

/-- What the channel owes: it holds what was written last, a write is new to every reader, and what a new
reader knows is the value it was made with. A call completes at once with a value that is new, and takes
note of it; else it waits, and ends once the sender is gone. -/
structure Watch.Lawful {T C R : Type} (W : Watch T C R) : Prop where
  value_channel (value : T) : W.value (W.channel value) = value
  version_channel (value : T) : W.version (W.channel value) = W.seen W.reader
  value_send (c : C) (value : T) : W.value (W.send c value) = value
  version_send (c : C) (value : T) : W.version (W.send c value) = W.version c + 1
  value_close (c : C) : W.value (W.close c) = W.value c
  version_close (c : C) : W.version (W.close c) = W.version c
  closed_close (c : C) : W.closed (W.close c) = true
  changed_new {c : C} {r : R} (h : W.seen r ≠ W.version c) :
    ∃ r', W.changed c r = some (some (W.value c), r') ∧ W.seen r' = W.version c
  changed_ended {c : C} {r : R} (h : W.seen r = W.version c) (hc : W.closed c = true) :
    ∃ r', W.changed c r = some (none, r') ∧ W.seen r' = W.seen r
  changed_waits {c : C} {r : R} (h : W.seen r = W.version c) (hc : W.closed c = false) : W.changed c r = none

/-- Values of a history, read at places that do not go back and not beyond `last`. -/
def Sampled {T : Type} (history : List T) (last : Nat) (values : List T) : Prop :=
  ∃ places : List Nat, places.Pairwise (· ≤ ·) ∧ (∀ place ∈ places, place ≤ last) ∧
    places.map (history[·]?) = values.map some

section
variable {T : Type} {history added values : List T} {last last' : Nat} {value : T}

theorem sampled_nil : Sampled history last [] :=
  ⟨[], .nil, List.forall_mem_nil _, rfl⟩

/-- A sample of a history is one of every longer history. -/
theorem Sampled.grow (h : Sampled history last values) (hlast : last ≤ last') :
    Sampled (history ++ added) last' values := by
  obtain ⟨places, hsorted, hbound, hvalues⟩ := h
  refine ⟨places, hsorted, fun place hm => Nat.le_trans (hbound place hm) hlast, ?_⟩
  rw [← hvalues]
  refine List.map_congr_left fun place hm => ?_
  have hsome : history[place]? ∈ values.map some := hvalues ▸ List.mem_map_of_mem hm
  obtain ⟨value, -, hvalue⟩ := List.mem_map.mp hsome
  rw [List.getElem?_append_left (List.getElem?_eq_some_iff.mp hvalue.symm).1]

/-- Reading the last value adds it to the sample. -/
theorem Sampled.read (h : Sampled history last values) (hv : history[last]? = some value) :
    Sampled history last (values ++ [value]) := by
  obtain ⟨places, hsorted, hbound, hvalues⟩ := h
  refine ⟨places ++ [last], ?_, ?_, ?_⟩
  · refine List.pairwise_append.mpr ⟨hsorted, List.pairwise_singleton .., fun place hm other ho => ?_⟩
    rw [List.mem_singleton.mp ho]
    exact hbound place hm
  · intro place hm
    rcases List.mem_append.mp hm with hm | hm
    · exact hbound place hm
    · exact Nat.le_of_eq (List.mem_singleton.mp hm)
  · rw [List.map_append, List.map_append, hvalues, List.map_singleton, hv]
    rfl

end

/-! ### What a reader was given

`Follows` is kept by writes and by reads. It is what a reader can be told of the history, and of how
far it is behind. -/

section
variable {T C R : Type} {W : Watch T C R} {history added : List T} {last last' : Nat} {initial : T} {c : C} {r r' : R}
  {results : List T}

/-- The results of a reader are a sample of the history up to `last`, where the channel's value is from, and
it was given that value last if nothing is new to it. -/
structure Follows (W : Watch T C R) (history : List T) (last : Nat) (initial : T) (c : C) (r : R)
    (results : List T) : Prop where
  seen : W.seen r ≤ W.version c
  current : W.seen r = W.version c → results.getLast?.getD initial = W.value c
  sampled : Sampled history last results

/-- A new reader was given nothing, which is right as long as nothing was written. -/
theorem follows_new (hseen : W.seen W.reader ≤ W.version c)
    (hv : W.seen W.reader = W.version c → W.value c = initial) : Follows W history last initial c W.reader [] where
  seen := hseen
  current he := (hv he).symm
  sampled := sampled_nil

theorem Follows.grow (h : Follows W history last initial c r results) :
    Follows W (history ++ added) last initial c r results :=
  { h with sampled := h.sampled.grow (Nat.le_refl last) }

/-- A write leaves the reader behind, with what it has read. -/
theorem Follows.send (hW : W.Lawful) (h : Follows W history last initial c r results) (hlast : last ≤ last')
    (value : T) : Follows W (history ++ added) last' initial (W.send c value) r results where
  seen := hW.version_send c value ▸ Nat.le_succ_of_le h.seen
  current he := by
    rw [hW.version_send] at he
    exact absurd h.seen (he ▸ Nat.not_succ_le_self _)
  sampled := h.sampled.grow hlast

theorem Follows.close (hW : W.Lawful) (h : Follows W history last initial c r results) :
    Follows W history last initial (W.close c) r results where
  seen := (hW.version_close c).symm ▸ h.seen
  current he := (h.current (he.trans (hW.version_close c))).trans (hW.value_close c).symm
  sampled := h.sampled

/-- A call that completes gives the value of the moment, or nothing where that is known. -/
theorem changed_cases (hW : W.Lawful) {result : Option T} (hc : W.changed c r = some (result, r')) :
    (W.seen r ≠ W.version c ∧ result = some (W.value c) ∧ W.seen r' = W.version c) ∨
      (W.seen r = W.version c ∧ result = none ∧ W.seen r' = W.seen r) := by
  by_cases hnew : W.seen r = W.version c
  · cases hclosed : W.closed c with
    | true =>
      obtain ⟨end', hended, hsame⟩ := hW.changed_ended hnew hclosed
      cases hended.symm.trans hc
      exact .inr ⟨hnew, rfl, hsame⟩
    | false => cases (hW.changed_waits hnew hclosed).symm.trans hc
  · obtain ⟨end', hchanged, hknown⟩ := hW.changed_new hnew
    cases hchanged.symm.trans hc
    exact .inl ⟨hnew, rfl, hknown⟩

/-- A read takes the value of the moment, and the reader is behind no more. -/
theorem Follows.changed (hW : W.Lawful) (h : Follows W history last initial c r results)
    (hv : history[last]? = some (W.value c)) {result : Option T} (hc : W.changed c r = some (result, r')) :
    Follows W history last initial c r' (results ++ result.toList) := by
  rcases changed_cases hW hc with ⟨-, rfl, hknown⟩ | ⟨-, rfl, hsame⟩
  · exact
      { seen := Nat.le_of_eq hknown
        current := fun _ => by
          rw [Option.toList_some, List.getLast?_append_cons, List.getLast?_singleton, Option.getD_some]
        sampled := h.sampled.read hv }
  · rw [Option.toList_none, List.append_nil]
    exact ⟨hsame ▸ h.seen, fun he => h.current (hsame ▸ he), h.sampled⟩

/-- Once the sender is gone no call waits: it gives the value, or nothing where that was given last. -/
theorem Follows.ended (hW : W.Lawful) (h : Follows W history last initial c r results) (hclosed : W.closed c = true) :
    ∃ result r', W.changed c r = some (result, r') ∧
      (result = some (W.value c) ∨ result = none ∧ results.getLast?.getD initial = W.value c) := by
  by_cases hnew : W.seen r = W.version c
  · obtain ⟨end', hended, -⟩ := hW.changed_ended hnew hclosed
    exact ⟨none, end', hended, .inr ⟨rfl, h.current hnew⟩⟩
  · obtain ⟨end', hchanged, -⟩ := hW.changed_new hnew
    exact ⟨_, end', hchanged, .inl rfl⟩

end

/-! ### A channel that counts its writes

It shows that the laws can be met: a reader is behind if its count is. -/

structure Watched (T : Type) where
  value : T
  version : Nat
  closed : Bool

def Watched.watch (T : Type) : Watch T (Watched T) Nat where
  channel value := ⟨value, 0, false⟩
  send c value := { c with value, version := c.version + 1 }
  close c := { c with closed := true }
  reader := 0
  changed c seen :=
    if seen ≠ c.version then some (some c.value, c.version) else if c.closed then some (none, seen) else none
  value := value
  version := version
  closed := closed
  seen := id

end PhoenixChannel.Library
