import Mathlib.Algebra.Ring.Nat
import PhoenixChannel.Runtime.Frame

/-! The Phoenix v2 serializer's binary frames.

A server's binary frame is a kind byte, a size byte for each of the kind's fields, the fields and
the payload. The decoder reads it by slices of the input; a slice out of its bounds would be a
panic, which is kept apart from the errors it returns. -/
namespace PhoenixChannel.Runtime

/-- Failure while decoding a binary wire message. -/
inductive CodecError where
  | truncatedBinaryFrame
  | unknownBinaryKind (kind : UInt8)
  | invalidUtf8 (field : String)
  deriving DecidableEq, Repr

def CodecError.toString : CodecError → String
  | .truncatedBinaryFrame => "Phoenix binary frame is truncated"
  | .unknownBinaryKind kind => "unknown Phoenix binary frame kind: " ++ ToString.toString kind
  | .invalidUtf8 field => "Phoenix binary frame contains invalid UTF-8 in " ++ field

/-- Why no frame comes out: an error is returned, or an index is out of bounds. -/
inductive Stop where
  | returned (error : CodecError)
  | panicked
  deriving DecidableEq, Repr

namespace Codec

/-- The kind byte of a push. -/
def kindPush : UInt8 := 0

def kindReply : UInt8 := 1

def kindBroadcast : UInt8 := 2

/-- `&input[start..stop]`. -/
def slice (input : List UInt8) (start stop : Nat) : Except Stop (List UInt8) :=
  if start ≤ stop ∧ stop ≤ input.length then .ok ((input.take stop).drop start) else .error .panicked

/-- `fields[i]`. -/
def fieldAt (fields : List (List UInt8)) (i : Nat) : Except Stop (List UInt8) :=
  match fields[i]? with
  | some field => .ok field
  | none => .error .panicked

def utf8 (value : List UInt8) (field : String) : Except Stop String :=
  match String.fromUTF8? ⟨value.toArray⟩ with
  | some text => .ok text
  | none => .error (.returned (.invalidUtf8 field))

def optionalUtf8 (value : List UInt8) (field : String) : Except Stop (Option String) :=
  if value.isEmpty then .ok none else (utf8 value field).map some

def binaryHeader (input : List UInt8) (headerLength : Nat) : Except Stop (List UInt8) :=
  if input.length < headerLength then .error (.returned .truncatedBinaryFrame)
  else slice input 1 headerLength

/-- The fields of the given sizes from `offset` on, and where they end. -/
def readFields (input : List UInt8) : Nat → List UInt8 → Except Stop (List (List UInt8) × Nat)
  | offset, [] => .ok ([], offset)
  | offset, size :: sizes => do
    let stop := offset + size.toNat
    let field ← slice input offset stop
    let (fields, offset) ← readFields input stop sizes
    return (field :: fields, offset)

def binaryFields (input : List UInt8) (headerLength : Nat) (sizes : List UInt8) :
    Except Stop (List (List UInt8) × List UInt8) := do
  let metadataLength := (sizes.map UInt8.toNat).sum
  if input.length < headerLength + metadataLength then
    throw (.returned .truncatedBinaryFrame)
  let (fields, offset) ← readFields input headerLength sizes
  let payload ← slice input offset input.length
  return (fields, payload)

/-- The texts of a push: `join_ref`, topic and event. -/
def pushFrame (fields : List (List UInt8)) (payload : List UInt8) : Except Stop Frame := do
  let joinRef ← optionalUtf8 (← fieldAt fields 0) "join_ref"
  let topic ← utf8 (← fieldAt fields 1) "topic"
  let event ← utf8 (← fieldAt fields 2) "event"
  return ⟨joinRef, none, topic, event, .binary payload⟩

/-- The texts of a reply: `join_ref`, `ref`, topic and status. -/
def replyFrame (fields : List (List UInt8)) (payload : List UInt8) : Except Stop Frame := do
  let joinRef ← optionalUtf8 (← fieldAt fields 0) "join_ref"
  let reference ← optionalUtf8 (← fieldAt fields 1) "ref"
  let topic ← utf8 (← fieldAt fields 2) "topic"
  let status ← utf8 (← fieldAt fields 3) "status"
  return ⟨joinRef, reference, topic, "phx_reply", .reply status (.binary payload)⟩

/-- The texts of a broadcast: topic and event. -/
def broadcastFrame (fields : List (List UInt8)) (payload : List UInt8) : Except Stop Frame := do
  let topic ← utf8 (← fieldAt fields 0) "topic"
  let event ← utf8 (← fieldAt fields 1) "event"
  return ⟨none, none, topic, event, .binary payload⟩

/-- The fields behind a header of the given length, as a frame. -/
def decodeFields (input : List UInt8) (headerLength : Nat)
    (frame : List (List UInt8) → List UInt8 → Except Stop Frame) : Except Stop Frame := do
  let sizes ← binaryHeader input headerLength
  let (fields, payload) ← binaryFields input headerLength sizes
  frame fields payload

def decodeBinary (input : List UInt8) : Except Stop Frame :=
  match input.head? with
  | none => .error (.returned .truncatedBinaryFrame)
  | some kind =>
    if kind = kindPush then decodeFields input 4 pushFrame
    else if kind = kindReply then decodeFields input 5 replyFrame
    else if kind = kindBroadcast then decodeFields input 3 broadcastFrame
    else .error (.returned (.unknownBinaryKind kind))

section
variable {α β : Type}

theorem ok_bind (a : α) (f : α → Except Stop β) : (Except.ok a >>= f) = f a := rfl

/-- A sequence of two steps succeeds if both do. -/
theorem bind_eq_ok {ε : Type} {x : Except ε α} {f : α → Except ε β} {b : β} :
    x >>= f = .ok b ↔ ∃ a, x = .ok a ∧ f a = .ok b := by
  cases x with
  | error e => exact ⟨nofun, nofun⟩
  | ok a => exact ⟨fun h => ⟨a, rfl, h⟩, fun ⟨_, ha, h⟩ => by cases ha; exact h⟩

/-- A sequence panics only if one of its steps does. -/
theorem bind_ne_panicked {x : Except Stop α} {f : α → Except Stop β} (hx : x ≠ .error .panicked)
    (hf : ∀ a, x = .ok a → f a ≠ .error .panicked) : x >>= f ≠ .error .panicked := by
  cases x with
  | error e => exact fun h => hx (by cases h; rfl)
  | ok a => exact hf a rfl

end

/-! ### Slices

Reading fields by position is cutting the input in as many pieces, or failing where it is too short. -/

/-- The texts' lengths cut off the front, one after another. -/
def cut : List UInt8 → List UInt8 → List (List UInt8)
  | [], _ => []
  | size :: sizes, rest => rest.take size.toNat :: cut sizes (rest.drop size.toNat)

theorem slice_eq {input : List UInt8} {start stop : Nat} (h : start ≤ stop) (hl : stop ≤ input.length) :
    slice input start stop = .ok ((input.drop start).take (stop - start)) := by
  rw [slice, if_pos ⟨h, hl⟩, List.drop_take]

/-- Where the input is long enough for all sizes, reading the fields is cutting what follows the offset. -/
theorem readFields_eq {input sizes : List UInt8} {offset : Nat}
    (h : offset + (sizes.map UInt8.toNat).sum ≤ input.length) :
    readFields input offset sizes =
      .ok (cut sizes (input.drop offset), offset + (sizes.map UInt8.toNat).sum) := by
  induction sizes generalizing offset with
  | nil => rfl
  | cons size sizes ih =>
    simp only [List.map_cons, List.sum_cons] at h
    have hs : slice input offset (offset + size.toNat) = .ok ((input.drop offset).take size.toNat) := by
      rw [slice_eq (by omega) (by omega), Nat.add_sub_cancel_left]
    have hr := @ih (offset + size.toNat) (by omega)
    simp only [readFields, hs, hr, cut, List.drop_drop, List.map_cons, List.sum_cons]
    rw [Nat.add_assoc]
    rfl

/-- The fields and the payload behind a header. -/
theorem binaryFields_eq {header sizes rest : List UInt8} :
    binaryFields (header ++ rest) header.length sizes =
      if rest.length < (sizes.map UInt8.toNat).sum then .error (.returned .truncatedBinaryFrame)
      else .ok (cut sizes rest, rest.drop (sizes.map UInt8.toNat).sum) := by
  by_cases hl : rest.length < (sizes.map UInt8.toNat).sum
  · have hl' : (header ++ rest).length < header.length + (sizes.map UInt8.toNat).sum := by
      rw [List.length_append]
      omega
    simp only [binaryFields, if_pos hl, if_pos hl']
    rfl
  · have hl' : ¬ (header ++ rest).length < header.length + (sizes.map UInt8.toNat).sum := by
      rw [List.length_append]
      omega
    have hr := @readFields_eq (header ++ rest) sizes header.length (by omega)
    have hs : slice (header ++ rest) (header.length + (sizes.map UInt8.toNat).sum) (header ++ rest).length =
        .ok (rest.drop (sizes.map UInt8.toNat).sum) := by
      rw [slice_eq (by rw [List.length_append]; omega) (Nat.le_refl _),
        List.take_of_length_le (Nat.le_of_eq List.length_drop), List.drop_append,
        List.drop_of_length_le (by omega), Nat.add_sub_cancel_left]
      rfl
    simp only [binaryFields, if_neg hl, if_neg hl', hr, hs, List.drop_left, ok_bind]
    rfl

/-- A header that is there. -/
theorem binaryHeader_eq (kind : UInt8) (sizes rest : List UInt8) :
    binaryHeader (kind :: sizes ++ rest) (sizes.length + 1) = .ok sizes := by
  have hl : sizes.length + 1 ≤ (kind :: sizes ++ rest).length := by simp
  rw [binaryHeader, if_neg (by omega), slice_eq (by omega) hl]
  simp

/-! ### Texts

A field is a text if its bytes are valid UTF-8. An empty reference stands for none. -/

/-- The bytes of a text. -/
def bytes (text : String) : List UInt8 := text.toUTF8.data.toList

/-- The size byte of a text. -/
def size (text : String) : UInt8 := UInt8.ofNat (bytes text).length

/-- An absent reference is written as an empty field. -/
def optional (text : String) : Option String := if text = "" then none else some text

/-- The text that stands for a missing one is empty, so it can be written back. -/
theorem optional_getD (text : String) : (optional text).getD "" = text := by
  unfold optional
  split
  · rename_i h
    exact h.symm
  · rfl

theorem bytes_eq_nil {text : String} : bytes text = [] ↔ text = "" := by
  constructor
  · intro h
    refine String.toByteArray_inj.mp (ByteArray.ext ?_)
    exact Array.toList_eq_nil_iff.mp h
  · rintro rfl
    rfl

/-- A field is read as the text whose bytes it has, and as no other. -/
theorem utf8_eq_ok {value : List UInt8} {field text : String} :
    utf8 value field = .ok text ↔ bytes text = value := by
  unfold utf8 String.fromUTF8?
  constructor
  · intro h
    split at h
    · rename_i text' he
      cases h
      split at he
      · cases he
        rfl
      · cases he
    · cases h
  · rintro rfl
    have hv : (⟨(bytes text).toArray⟩ : ByteArray).IsValidUTF8 := text.isValidUTF8
    rw [dif_pos hv]
    rfl

theorem fieldAt_ne_panicked {fields : List (List UInt8)} {i : Nat} (h : i < fields.length) :
    fieldAt fields i ≠ .error .panicked := by
  rw [fieldAt, List.getElem?_eq_getElem h]
  nofun

theorem utf8_ne_panicked (value : List UInt8) (field : String) : utf8 value field ≠ .error .panicked := by
  unfold utf8
  split <;> nofun

/-- An optional field is read as its text, or as none where that is empty. -/
theorem optionalUtf8_eq_ok {value : List UInt8} {field : String} {o : Option String} :
    optionalUtf8 value field = .ok o ↔ ∃ text, bytes text = value ∧ o = optional text := by
  unfold optionalUtf8
  by_cases hv : value.isEmpty = true
  · rw [if_pos hv]
    have hnil := List.isEmpty_iff.mp hv
    constructor
    · intro h
      cases h
      exact ⟨"", hnil.symm ▸ rfl, rfl⟩
    · rintro ⟨text, ht, rfl⟩
      rw [hnil] at ht
      rw [optional, if_pos (bytes_eq_nil.mp ht)]
  · rw [if_neg hv]
    have hne : ∀ text, bytes text = value → optional text = some text := by
      rintro text rfl
      exact if_neg fun he => hv (List.isEmpty_iff.mpr (bytes_eq_nil.mpr he))
    constructor
    · intro h
      cases hu : utf8 value field with
      | error e =>
        rw [hu] at h
        cases h
      | ok text =>
        rw [hu] at h
        cases h
        have ht := utf8_eq_ok.mp hu
        exact ⟨text, ht, (hne text ht).symm⟩
    · rintro ⟨text, ht, rfl⟩
      rw [utf8_eq_ok.mpr ht, hne text ht]
      rfl

theorem optionalUtf8_ne_panicked (value : List UInt8) (field : String) :
    optionalUtf8 value field ≠ .error .panicked := by
  have h := utf8_ne_panicked value field
  unfold optionalUtf8
  split
  · nofun
  · cases hu : utf8 value field with
    | error e =>
      rw [hu] at h
      exact fun he => h (by cases he; rfl)
    | ok text => nofun

/-! ### Layouts

`Laid` is the layout as a relation between the bytes and what they say, and does not mention the
decoder. -/

/-- Kind byte, sizes, fields and payload. -/
def written (kind : UInt8) (texts : List String) (payload : List UInt8) : List UInt8 :=
  kind :: texts.map size ++ texts.flatMap bytes ++ payload

/-- A size byte holds the size. -/
def Short (text : String) : Prop := (bytes text).length ≤ 255

theorem Short.size_toNat {text : String} (h : Short text) : (size text).toNat = (bytes text).length :=
  UInt8.toNat_ofNat_of_lt' (Nat.lt_succ_of_le h)

/-- What is cut off comes back by writing it. -/
theorem written_of_cut {sizes rest : List UInt8} {texts : List String}
    (hsum : (sizes.map UInt8.toNat).sum ≤ rest.length) (ht : texts.map bytes = cut sizes rest) :
    (∀ text ∈ texts, Short text) ∧ sizes = texts.map size ∧
      rest = texts.flatMap bytes ++ rest.drop (sizes.map UInt8.toNat).sum := by
  induction sizes generalizing rest texts with
  | nil =>
    cases List.map_eq_nil_iff.mp ht
    exact ⟨nofun, rfl, rfl⟩
  | cons s sizes ih =>
    simp only [List.map_cons, List.sum_cons] at hsum
    obtain ⟨text, texts, rfl, htext, htexts⟩ := List.map_eq_cons_iff.mp ht
    have hlength : (bytes text).length = s.toNat := by
      rw [htext, List.length_take]
      omega
    have hshort : Short text := by
      have hs := s.toNat_lt
      rw [Short, hlength]
      omega
    obtain ⟨hrest, hsizes, hsplit⟩ := ih (by rw [List.length_drop]; omega) htexts
    refine ⟨fun text' hm => ?_, ?_, ?_⟩
    · rcases List.mem_cons.mp hm with rfl | hm
      · exact hshort
      · exact hrest text' hm
    · have hsize : size text = s := UInt8.toNat_inj.mp (by rw [hshort.size_toNat, hlength])
      rw [List.map_cons, hsize, ← hsizes]
    · calc rest = rest.take s.toNat ++ rest.drop s.toNat := (List.take_append_drop ..).symm
        _ = bytes text ++ (texts.flatMap bytes ++ (rest.drop s.toNat).drop (sizes.map UInt8.toNat).sum) := by
          rw [← htext, ← hsplit]
        _ = _ := by
          rw [List.drop_drop, List.flatMap_cons, List.append_assoc, List.map_cons, List.sum_cons]

/-- What is written is cut off again. -/
theorem cut_of_written {texts : List String} (h : ∀ text ∈ texts, Short text) (payload : List UInt8) :
    cut (texts.map size) (texts.flatMap bytes ++ payload) = texts.map bytes ∧
      ((texts.map size).map UInt8.toNat).sum = (texts.flatMap bytes).length := by
  induction texts with
  | nil => exact ⟨rfl, rfl⟩
  | cons text texts ih =>
    obtain ⟨hcut, hsum⟩ := ih fun text' hm => h text' (List.mem_cons_of_mem _ hm)
    have hs := (h text List.mem_cons_self).size_toNat
    constructor
    · simp only [List.map_cons, cut, List.flatMap_cons, hs, List.append_assoc, List.take_left, List.drop_left,
        hcut]
    · simp only [List.map_cons, List.sum_cons, List.flatMap_cons, hs, hsum, List.length_append]

/-- The frames a server writes: for each kind its sizes, its fields, and the payload. -/
inductive Laid : List UInt8 → Frame → Prop where
  | push (joinRef topic event : String) (payload : List UInt8)
      (h : ∀ text ∈ [joinRef, topic, event], Short text) :
    Laid (written kindPush [joinRef, topic, event] payload)
      ⟨optional joinRef, none, topic, event, .binary payload⟩
  | reply (joinRef reference topic status : String) (payload : List UInt8)
      (h : ∀ text ∈ [joinRef, reference, topic, status], Short text) :
    Laid (written kindReply [joinRef, reference, topic, status] payload)
      ⟨optional joinRef, optional reference, topic, "phx_reply", .reply status (.binary payload)⟩
  | broadcast (topic event : String) (payload : List UInt8) (h : ∀ text ∈ [topic, event], Short text) :
    Laid (written kindBroadcast [topic, event] payload) ⟨none, none, topic, event, .binary payload⟩

/-- A frame in the layout of a kind byte. -/
def rewrite (frame : Frame) (kind : UInt8) : Option (List UInt8) :=
  let joinRef := frame.joinRef.getD ""
  let reference := frame.reference.getD ""
  match frame.payload with
  | .binary payload =>
    if kind = kindPush then some (written kindPush [joinRef, frame.topic, frame.event] payload)
    else if kind = kindBroadcast then some (written kindBroadcast [frame.topic, frame.event] payload)
    else none
  | .reply status (.binary payload) =>
    if kind = kindReply then some (written kindReply [joinRef, reference, frame.topic, status] payload) else none
  | _ => none

theorem Laid.rewrite {input : List UInt8} {frame : Frame} (h : Laid input frame) :
    input.head?.bind (Codec.rewrite frame) = some input := by
  cases h with
  | push | reply | broadcast => simp [Codec.rewrite, written, optional_getD, kindPush, kindReply, kindBroadcast]

/-! ### Decoding

For each kind the decoder finds the layout where there is one and fails where there is none. It
never panics. -/

/-- The fields behind a kind byte, as texts. -/
def TextsOf (sizes rest : List UInt8) (texts : List String) : Prop :=
  (sizes.map UInt8.toNat).sum ≤ rest.length ∧ texts.map bytes = cut sizes rest

/-- Texts that were cut from a frame can be laid out again: their sizes fit in a byte each, and the frame
is what comes of it. -/
theorem TextsOf.written {sizes rest : List UInt8} {texts : List String} (h : TextsOf sizes rest texts)
    (kind : UInt8) : (∀ text ∈ texts, Short text) ∧
      kind :: sizes ++ rest = Codec.written kind texts (rest.drop (sizes.map UInt8.toNat).sum) := by
  obtain ⟨hshort, hsizes, hrest⟩ := written_of_cut h.1 h.2
  refine ⟨hshort, ?_⟩
  rw [Codec.written, ← hsizes, List.append_assoc, ← hrest]

/-- What was laid out is cut into the same texts again, with the payload left over. -/
theorem textsOf_written {texts : List String} (h : ∀ text ∈ texts, Short text) (payload : List UInt8) :
    TextsOf (texts.map size) (texts.flatMap bytes ++ payload) texts ∧
      (texts.flatMap bytes ++ payload).drop ((texts.map size).map UInt8.toNat).sum = payload := by
  obtain ⟨hcut, hsum⟩ := cut_of_written h payload
  refine ⟨⟨?_, hcut.symm⟩, ?_⟩
  · rw [hsum, List.length_append]
    exact Nat.le_add_right ..
  · rw [hsum, List.drop_left]

/-- An input that ends within its header is truncated. -/
theorem decodeFields_short {input : List UInt8} {headerLength : Nat} (h : input.length < headerLength)
    (frame : List (List UInt8) → List UInt8 → Except Stop Frame) :
    decodeFields input headerLength frame = .error (.returned .truncatedBinaryFrame) := by
  rw [decodeFields, binaryHeader, if_pos h]
  rfl

/-- An input with a whole header is truncated, or handed on in its fields and the payload after them. -/
theorem decodeFields_eq (kind : UInt8) (sizes rest : List UInt8)
    (frame : List (List UInt8) → List UInt8 → Except Stop Frame) :
    decodeFields (kind :: sizes ++ rest) (sizes.length + 1) frame =
      if rest.length < (sizes.map UInt8.toNat).sum then .error (.returned .truncatedBinaryFrame)
      else frame (cut sizes rest) (rest.drop (sizes.map UInt8.toNat).sum) := by
  have hf : binaryFields (kind :: sizes ++ rest) (sizes.length + 1) sizes = _ :=
    @binaryFields_eq (kind :: sizes) sizes rest
  rw [decodeFields, binaryHeader_eq, ok_bind, hf]
  split <;> rfl

/-- An input that is long enough starts with a kind byte and its sizes. -/
theorem split_header {input : List UInt8} {kind : UInt8} {n : Nat} (hh : input.head? = some kind)
    (hl : n + 1 ≤ input.length) : ∃ sizes rest, input = kind :: sizes ++ rest ∧ sizes.length = n := by
  cases input with
  | nil => cases hh
  | cons first tail =>
    cases hh
    have htail : n ≤ tail.length := Nat.le_of_succ_le_succ hl
    exact ⟨tail.take n, tail.drop n, by rw [List.cons_append, List.take_append_drop],
      by rw [List.length_take, Nat.min_eq_left htail]⟩

theorem cut_length (sizes rest : List UInt8) : (cut sizes rest).length = sizes.length := by
  induction sizes generalizing rest with
  | nil => rfl
  | cons size sizes ih => rw [cut, List.length_cons, List.length_cons, ih]

/-- A reader of `n` fields returns the frame that `make` makes of their texts. -/
structure Spells (n : Nat) (frame : List (List UInt8) → List UInt8 → Except Stop Frame)
    (make : List String → List UInt8 → Option Frame) : Prop where
  ok : ∀ {fields : List (List UInt8)} {payload : List UInt8} {f : Frame}, fields.length = n →
    (frame fields payload = .ok f ↔ ∃ texts, texts.map bytes = fields ∧ make texts payload = some f)
  safe : ∀ {fields : List (List UInt8)} {payload : List UInt8}, fields.length = n →
    frame fields payload ≠ .error .panicked

def pushOf : List String → List UInt8 → Option Frame
  | [joinRef, topic, event], payload => some ⟨optional joinRef, none, topic, event, .binary payload⟩
  | _, _ => none

def replyOf : List String → List UInt8 → Option Frame
  | [joinRef, reference, topic, status], payload =>
    some ⟨optional joinRef, optional reference, topic, "phx_reply", .reply status (.binary payload)⟩
  | _, _ => none

def broadcastOf : List String → List UInt8 → Option Frame
  | [topic, event], payload => some ⟨none, none, topic, event, .binary payload⟩
  | _, _ => none

/-- A push has a join reference, a topic and an event. -/
theorem spells_push : Spells 3 pushFrame pushOf where
  ok {fields payload f} hn := by
    match fields, hn with
    | [a, b, c], _ =>
      simp only [pushFrame, fieldAt, List.getElem?_cons_zero, List.getElem?_cons_succ, ok_bind, bind_eq_ok,
        optionalUtf8_eq_ok, utf8_eq_ok]
      constructor
      · rintro ⟨_, ⟨joinRef, rfl, rfl⟩, topic, rfl, event, rfl, h⟩
        cases h
        exact ⟨[joinRef, topic, event], rfl, rfl⟩
      · rintro ⟨texts, ht, hf⟩
        obtain ⟨joinRef, _, rfl, rfl, h₁⟩ := List.map_eq_cons_iff.mp ht
        obtain ⟨topic, _, rfl, rfl, h₂⟩ := List.map_eq_cons_iff.mp h₁
        obtain ⟨event, _, rfl, rfl, h₃⟩ := List.map_eq_cons_iff.mp h₂
        cases List.map_eq_nil_iff.mp h₃
        cases hf
        exact ⟨_, ⟨joinRef, rfl, rfl⟩, topic, rfl, event, rfl, rfl⟩
  safe {fields payload} hn := by
    refine bind_ne_panicked (fieldAt_ne_panicked (by omega)) fun a _ => ?_
    refine bind_ne_panicked (optionalUtf8_ne_panicked a _) fun _ _ => ?_
    refine bind_ne_panicked (fieldAt_ne_panicked (by omega)) fun b _ => ?_
    refine bind_ne_panicked (utf8_ne_panicked b _) fun _ _ => ?_
    refine bind_ne_panicked (fieldAt_ne_panicked (by omega)) fun c _ => ?_
    exact bind_ne_panicked (utf8_ne_panicked c _) fun _ _ => by nofun

/-- A reply has a reference besides, and its status in the place of an event. -/
theorem spells_reply : Spells 4 replyFrame replyOf where
  ok {fields payload f} hn := by
    match fields, hn with
    | [a, b, c, d], _ =>
      simp only [replyFrame, fieldAt, List.getElem?_cons_zero, List.getElem?_cons_succ, ok_bind, bind_eq_ok,
        optionalUtf8_eq_ok, utf8_eq_ok]
      constructor
      · rintro ⟨_, ⟨joinRef, rfl, rfl⟩, _, ⟨reference, rfl, rfl⟩, topic, rfl, status, rfl, h⟩
        cases h
        exact ⟨[joinRef, reference, topic, status], rfl, rfl⟩
      · rintro ⟨texts, ht, hf⟩
        obtain ⟨joinRef, _, rfl, rfl, h₁⟩ := List.map_eq_cons_iff.mp ht
        obtain ⟨reference, _, rfl, rfl, h₂⟩ := List.map_eq_cons_iff.mp h₁
        obtain ⟨topic, _, rfl, rfl, h₃⟩ := List.map_eq_cons_iff.mp h₂
        obtain ⟨status, _, rfl, rfl, h₄⟩ := List.map_eq_cons_iff.mp h₃
        cases List.map_eq_nil_iff.mp h₄
        cases hf
        exact ⟨_, ⟨joinRef, rfl, rfl⟩, _, ⟨reference, rfl, rfl⟩, topic, rfl, status, rfl, rfl⟩
  safe {fields payload} hn := by
    refine bind_ne_panicked (fieldAt_ne_panicked (by omega)) fun a _ => ?_
    refine bind_ne_panicked (optionalUtf8_ne_panicked a _) fun _ _ => ?_
    refine bind_ne_panicked (fieldAt_ne_panicked (by omega)) fun b _ => ?_
    refine bind_ne_panicked (optionalUtf8_ne_panicked b _) fun _ _ => ?_
    refine bind_ne_panicked (fieldAt_ne_panicked (by omega)) fun c _ => ?_
    refine bind_ne_panicked (utf8_ne_panicked c _) fun _ _ => ?_
    refine bind_ne_panicked (fieldAt_ne_panicked (by omega)) fun d _ => ?_
    exact bind_ne_panicked (utf8_ne_panicked d _) fun _ _ => by nofun

/-- A broadcast has no references. -/
theorem spells_broadcast : Spells 2 broadcastFrame broadcastOf where
  ok {fields payload f} hn := by
    match fields, hn with
    | [a, b], _ =>
      simp only [broadcastFrame, fieldAt, List.getElem?_cons_zero, List.getElem?_cons_succ, ok_bind, bind_eq_ok,
        utf8_eq_ok]
      constructor
      · rintro ⟨topic, rfl, event, rfl, h⟩
        cases h
        exact ⟨[topic, event], rfl, rfl⟩
      · rintro ⟨texts, ht, hf⟩
        obtain ⟨topic, _, rfl, rfl, h₁⟩ := List.map_eq_cons_iff.mp ht
        obtain ⟨event, _, rfl, rfl, h₂⟩ := List.map_eq_cons_iff.mp h₁
        cases List.map_eq_nil_iff.mp h₂
        cases hf
        exact ⟨topic, rfl, event, rfl, rfl⟩
  safe {fields payload} hn := by
    refine bind_ne_panicked (fieldAt_ne_panicked (by omega)) fun a _ => ?_
    refine bind_ne_panicked (utf8_ne_panicked a _) fun _ _ => ?_
    refine bind_ne_panicked (fieldAt_ne_panicked (by omega)) fun b _ => ?_
    exact bind_ne_panicked (utf8_ne_panicked b _) fun _ _ => by nofun

section
variable {n : Nat} {frame : List (List UInt8) → List UInt8 → Except Stop Frame}
  {make : List String → List UInt8 → Option Frame} {input : List UInt8} {kind : UInt8}

/-- **A layout is decoded exactly**: what is read is what was written. -/
theorem Spells.decodes (h : Spells n frame make) (hh : input.head? = some kind) (f : Frame) :
    decodeFields input (n + 1) frame = .ok f ↔ ∃ texts payload, texts.length = n ∧
      (∀ text ∈ texts, Short text) ∧ input = written kind texts payload ∧ make texts payload = some f := by
  by_cases hl : input.length < n + 1
  · rw [decodeFields_short hl]
    refine ⟨nofun, ?_⟩
    rintro ⟨texts, payload, rfl, -, rfl, -⟩
    simp only [written, List.cons_append, List.length_cons, List.length_append, List.length_map] at hl
    omega
  obtain ⟨sizes, rest, rfl, rfl⟩ := split_header hh (Nat.le_of_not_lt hl)
  rw [decodeFields_eq]
  constructor
  · intro hok
    split at hok
    · cases hok
    · rename_i hsum
      obtain ⟨texts, ht, hf⟩ := (h.ok (cut_length sizes rest)).mp hok
      obtain ⟨hshort, hw⟩ := TextsOf.written ⟨Nat.le_of_not_lt hsum, ht⟩ kind
      have hlength := congrArg List.length ht
      rw [List.length_map, cut_length] at hlength
      exact ⟨texts, _, hlength, hshort, hw, hf⟩
  · rintro ⟨texts, payload, hlength, hshort, hw, hf⟩
    obtain ⟨⟨hsum, ht⟩, hdrop⟩ := textsOf_written hshort payload
    obtain ⟨rfl, rfl⟩ : sizes = texts.map size ∧ rest = texts.flatMap bytes ++ payload := by
      rw [written, List.append_assoc, List.cons_append, List.cons_append, List.cons.injEq] at hw
      exact List.append_inj hw.2 (by rw [List.length_map, hlength])
    rw [if_neg (Nat.not_lt.mpr hsum), hdrop]
    exact (h.ok (cut_length _ _)).mpr ⟨texts, ht, hf⟩

/-- Whatever the input, a kind's decoder reads no field beyond its end: it has looked at the sizes first. -/
theorem Spells.never_panics (h : Spells n frame make) (hh : input.head? = some kind) :
    decodeFields input (n + 1) frame ≠ .error .panicked := by
  by_cases hl : input.length < n + 1
  · rw [decodeFields_short hl]
    nofun
  · obtain ⟨sizes, rest, rfl, rfl⟩ := split_header hh (Nat.le_of_not_lt hl)
    rw [decodeFields_eq]
    split
    · nofun
    · exact h.safe (cut_length sizes rest)

end

section
variable {input : List UInt8} {f : Frame}

/-- The layout of a push, among the three. -/
theorem laid_push_iff (hh : input.head? = some kindPush) :
    (∃ texts payload, texts.length = 3 ∧ (∀ text ∈ texts, Short text) ∧
      input = written kindPush texts payload ∧ pushOf texts payload = some f) ↔ Laid input f := by
  constructor
  · rintro ⟨texts, payload, hlength, hshort, rfl, hf⟩
    match texts, hlength with
    | [joinRef, topic, event], _ =>
      cases hf
      exact .push joinRef topic event payload hshort
  · intro h
    cases h with
    | push joinRef topic event payload hshort => exact ⟨_, payload, rfl, hshort, rfl, rfl⟩
    | reply | broadcast => cases hh

/-- The layout of a reply, among the three. -/
theorem laid_reply_iff (hh : input.head? = some kindReply) :
    (∃ texts payload, texts.length = 4 ∧ (∀ text ∈ texts, Short text) ∧
      input = written kindReply texts payload ∧ replyOf texts payload = some f) ↔ Laid input f := by
  constructor
  · rintro ⟨texts, payload, hlength, hshort, rfl, hf⟩
    match texts, hlength with
    | [joinRef, reference, topic, status], _ =>
      cases hf
      exact .reply joinRef reference topic status payload hshort
  · intro h
    cases h with
    | reply joinRef reference topic status payload hshort => exact ⟨_, payload, rfl, hshort, rfl, rfl⟩
    | push | broadcast => cases hh

/-- The layout of a broadcast, among the three. -/
theorem laid_broadcast_iff (hh : input.head? = some kindBroadcast) :
    (∃ texts payload, texts.length = 2 ∧ (∀ text ∈ texts, Short text) ∧
      input = written kindBroadcast texts payload ∧ broadcastOf texts payload = some f) ↔ Laid input f := by
  constructor
  · rintro ⟨texts, payload, hlength, hshort, rfl, hf⟩
    match texts, hlength with
    | [topic, event], _ =>
      cases hf
      exact .broadcast topic event payload hshort
  · intro h
    cases h with
    | broadcast topic event payload hshort => exact ⟨_, payload, rfl, hshort, rfl, rfl⟩
    | push | reply => cases hh

/-- The kind byte chooses the decoder, and each of the three finds its own layout. -/
theorem decodeBinary_eq_ok : decodeBinary input = .ok f ↔ Laid input f := by
  unfold decodeBinary
  cases hh : input.head? with
  | none =>
    refine ⟨nofun, fun h => ?_⟩
    cases h <;> cases hh
  | some kind =>
    dsimp only
    split
    · rename_i hk
      rw [spells_push.decodes hh, hk, laid_push_iff (hk ▸ hh)]
    split
    · rename_i hk
      rw [spells_reply.decodes hh, hk, laid_reply_iff (hk ▸ hh)]
    split
    · rename_i hk
      rw [spells_broadcast.decodes hh, hk, laid_broadcast_iff (hk ▸ hh)]
    · rename_i hpush hreply hbroadcast
      refine ⟨nofun, fun h => ?_⟩
      cases h with
      | push => exact absurd (Option.some.inj hh).symm hpush
      | reply => exact absurd (Option.some.inj hh).symm hreply
      | broadcast => exact absurd (Option.some.inj hh).symm hbroadcast

/-- The decoder returns for every input, with a frame or with an error. -/
theorem decodeBinary_ne_panicked (input : List UInt8) : decodeBinary input ≠ .error .panicked := by
  unfold decodeBinary
  cases hh : input.head? with
  | none => nofun
  | some kind =>
    dsimp only
    split
    · exact spells_push.never_panics hh
    split
    · exact spells_reply.never_panics hh
    split
    · exact spells_broadcast.never_panics hh
    · nofun

end

/-- **Binary frames are decoded exactly**: no index is out of bounds, the frames that decode are
those in one of the three layouts, and writing them in their layout gives the input back. -/
theorem binary_decoded_exactly (input : List UInt8) :
    decodeBinary input ≠ .error .panicked ∧
      (∀ frame, decodeBinary input = .ok frame ↔ Laid input frame) ∧
      ∀ frame, decodeBinary input = .ok frame → input.head?.bind (rewrite frame) = some input :=
  ⟨decodeBinary_ne_panicked input, fun _ => decodeBinary_eq_ok,
    fun _ h => (decodeBinary_eq_ok.mp h).rewrite⟩

end Codec
end PhoenixChannel.Runtime
