import Mathlib.Data.List.TakeDrop

/-! Broadcast channels that lose the oldest items.

Every receiver has its own place in what was sent. One that is so late that items at its place are gone
is told how many it missed, and goes on behind them. The channel is a parameter: `Lawful` is what it owes.
`Covers results items` says that results stand for the items, an item for itself and a loss for as many
as it counts, and whatever a lawful channel gives covers what lies between two places (`recv_covers`). -/
namespace PhoenixChannel.Library

/-- What a receive gives: an item, or how many were missed. -/
inductive Receipt (T : Type) where
  | item (item : T)
  | lagged (missed : Nat)

/-- The number of a loss. -/
def Receipt.missed {T : Type} : Receipt T → Option Nat
  | .item _ => none
  | .lagged missed => some missed

/-- A broadcast channel with a sender that stays. `sent` is all that was sent so far, `position` how much
of it a receiver has behind it, and a receive that has to wait is `none`. -/
structure Broadcast (T C R : Type) where
  channel : C
  send : C → T → C
  subscribe : C → R
  recv : C → R → Option (Receipt T × R)
  sent : C → List T
  position : R → Nat

/-- What the channel owes: a receiver starts behind what was sent before it; a receive gives the item at
the receiver's place, or the number of items that it goes past; it waits only where there is no item. -/
structure Broadcast.Lawful {T C R : Type} (B : Broadcast T C R) : Prop where
  sent_channel : B.sent B.channel = []
  sent_send (c : C) (item : T) : B.sent (B.send c item) = B.sent c ++ [item]
  position_subscribe (c : C) : B.position (B.subscribe c) = (B.sent c).length
  recv_item {c : C} {r r' : R} {item : T} (h : B.recv c r = some (.item item, r')) :
    (B.sent c)[B.position r]? = some item ∧ B.position r' = B.position r + 1
  recv_lagged {c : C} {r r' : R} {missed : Nat} (h : B.recv c r = some (.lagged missed, r')) :
    B.position r' = B.position r + missed ∧ B.position r' ≤ (B.sent c).length
  recv_waits {c : C} {r : R} (h : B.recv c r = none) : (B.sent c).length ≤ B.position r

variable {T : Type}

inductive Covers : List (Receipt T) → List T → Prop where
  | nil : Covers [] []
  | item {results : List (Receipt T)} {items : List T} (item : T) (h : Covers results items) :
    Covers (.item item :: results) (item :: items)
  | lagged {results : List (Receipt T)} {items : List T} (missed : List T) (h : Covers results items) :
    Covers (.lagged missed.length :: results) (missed ++ items)

/-- What two lists of results stand for, one after the other. -/
theorem Covers.append {results results' : List (Receipt T)} {items items' : List T}
    (h : Covers results items) (h' : Covers results' items') : Covers (results ++ results') (items ++ items') := by
  induction h with
  | nil => exact h'
  | item item _ ih => exact .item item ih
  | lagged missed _ ih =>
    rw [List.append_assoc]
    exact .lagged missed ih

/-! ### The items between two places

Stretches of what was sent, put together: a receive moves its receiver over one of them. -/

def between (sent : List T) (i j : Nat) : List T := (sent.take j).drop i

section
variable {sent : List T} {i j k : Nat}

theorem between_self (sent : List T) (i : Nat) : between sent i i = [] := by
  rw [between, List.drop_eq_nil_iff, List.length_take]
  exact Nat.min_le_left ..

theorem length_between (hj : j ≤ sent.length) : (between sent i j).length = j - i := by
  rw [between, List.length_drop, List.length_take, Nat.min_eq_left hj]

/-- Two neighbouring stretches make one. -/
theorem between_append (hi : i ≤ j) (hj : j ≤ k) (hk : k ≤ sent.length) :
    between sent i j ++ between sent j k = between sent i k := by
  have hlength : (sent.take j).length = j := by
    rw [List.length_take]
    exact Nat.min_eq_left (Nat.le_trans hj hk)
  have hsplit : sent.take k = sent.take j ++ (sent.take k).drop j := by
    conv_lhs => rw [← List.take_append_drop j (sent.take k), List.take_take, Nat.min_eq_left hj]
  have hfront : i ≤ (sent.take j).length := by rw [hlength]; exact hi
  calc between sent i j ++ between sent j k
      = (sent.take j).drop i ++ (sent.take k).drop j := rfl
    _ = (sent.take j ++ (sent.take k).drop j).drop i := (List.drop_append_of_le_length hfront).symm
    _ = between sent i k := by rw [← hsplit]; rfl

theorem between_succ {item : T} (h : sent[i]? = some item) : between sent i (i + 1) = [item] := by
  obtain ⟨hlt, rfl⟩ := List.getElem?_eq_some_iff.mp h
  rw [between, List.take_add_one, List.getElem?_eq_getElem hlt,
    List.drop_left' (by rw [List.length_take, Nat.min_eq_left (Nat.le_of_lt hlt)])]
  rfl

/-- What was between two places stays there as more is sent. -/
theorem between_concat (hj : j ≤ sent.length) (item : T) : between (sent ++ [item]) i j = between sent i j := by
  rw [between, between, List.take_append_of_le_length hj]

end

section
variable {C R : Type} {B : Broadcast T C R} {c : C} {r r' : R} {result : Receipt T}

/-- **A receive stands for the items up to the receiver's new place.** -/
theorem Broadcast.Lawful.recv_covers (hB : B.Lawful) (h : B.recv c r = some (result, r')) :
    B.position r ≤ B.position r' ∧ B.position r' ≤ (B.sent c).length ∧
      Covers [result] (between (B.sent c) (B.position r) (B.position r')) := by
  cases result with
  | item item =>
    obtain ⟨hitem, hplace⟩ := hB.recv_item h
    rw [hplace, between_succ hitem]
    exact ⟨Nat.le_succ _, (List.getElem?_eq_some_iff.mp hitem).1, .item item .nil⟩
  | lagged missed =>
    obtain ⟨hplace, hle⟩ := hB.recv_lagged h
    refine ⟨hplace ▸ Nat.le_add_right .., hle, ?_⟩
    have hlost := Covers.lagged (between (B.sent c) (B.position r) (B.position r')) .nil
    have hlength : B.position r' - B.position r = missed := hplace ▸ Nat.add_sub_cancel_left ..
    rwa [length_between hle, hlength, List.append_nil] at hlost

end

/-! ### A channel that keeps the last items

It shows that the laws can be met: it holds no more than its capacity and tells a late receiver the
difference. -/

/-- The last `capacity` of the items sent are kept, and a receiver that is further behind goes to the
oldest of them. -/
def ring (T : Type) (capacity : Nat) : Broadcast T (List T) Nat where
  channel := []
  send sent item := sent ++ [item]
  subscribe := List.length
  recv sent position :=
    if position + capacity < sent.length then
      some (.lagged (sent.length - capacity - position), sent.length - capacity)
    else sent[position]?.map fun item => (.item item, position + 1)
  sent := id
  position := id

/-- A ring keeps what was sent last and counts what it gave up. -/
theorem ring_lawful (T : Type) (capacity : Nat) : (ring T capacity).Lawful where
  sent_channel := rfl
  sent_send _ _ := rfl
  position_subscribe _ := rfl
  recv_item {sent position position' item} h := by
    simp only [ring] at h
    split at h
    · cases h
    · obtain ⟨found, hfound, heq⟩ := Option.map_eq_some_iff.mp h
      cases heq
      exact ⟨hfound, rfl⟩
  recv_lagged {sent position position' missed} h := by
    simp only [ring] at h
    split at h
    · rename_i hlate
      cases h
      show sent.length - capacity = position + (sent.length - capacity - position) ∧
        sent.length - capacity ≤ sent.length
      omega
    · obtain ⟨found, -, heq⟩ := Option.map_eq_some_iff.mp h
      cases heq
  recv_waits {sent position} h := by
    simp only [ring] at h
    split at h
    · cases h
    · exact List.getElem?_eq_none_iff.mp (Option.map_eq_none_iff.mp h)

end PhoenixChannel.Library
