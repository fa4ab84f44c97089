import PhoenixChannel.Runtime.Codec
import PhoenixChannel.Runtime.Transport

/-! The Phoenix v2 serializer in both directions.

A text frame is a JSON array of five values, which serde_json prints and reads; serde_json is a
parameter. A client's binary push is a kind byte, four size bytes, four texts and the payload,
so what was written can be cut apart again. -/
namespace PhoenixChannel.Runtime
open Codec (bytes size written cut Short kindPush decodeBinary)

/-- serde_json, as frames use it: the values of a frame are printed as an array, and read from one. -/
structure Json where
  print : List Value → Except String String
  read : String → Except String (List Value)

/-- serde_json prints the values, and reads the same values back. -/
def Json.ReadsBack (json : Json) (values : List Value) : Prop :=
  ∃ text, json.print values = .ok text ∧ json.read text = .ok values

/-- Failure while encoding or decoding a Phoenix JSON v2 frame. -/
inductive FrameCodecError where
  | decode (error : String)
  | encode (error : String)
  | invalidLength (length : Nat)
  | invalidField (field : String)
  | binaryPayloadRequiresBinaryFrame
  deriving DecidableEq, Repr

def FrameCodecError.toString : FrameCodecError → String
  | .decode error => "failed to decode a Phoenix frame: " ++ error
  | .encode error => "failed to encode a Phoenix frame: " ++ error
  | .invalidLength length => "Phoenix v2 frame must contain five values, received " ++ ToString.toString length
  | .invalidField field => "Phoenix frame contains an invalid " ++ field ++ " field"
  | .binaryPayloadRequiresBinaryFrame => "binary payloads require a binary Phoenix frame"

/-- Failure while encoding or decoding a wire message. What the decoder of binary frames stops
with is a `Stop`. -/
inductive MessageError where
  | text (error : FrameCodecError)
  | binary (stop : Stop)
  | fieldTooLong (field : String) (length : Nat)
  | invalidOutboundReplyPayload
  | frameTooLarge (length maximum : Nat)
  | binaryPayloadTooLarge (length maximum : Nat)
  deriving DecidableEq, Repr

def MessageError.toString : MessageError → String
  | .text error => error.toString
  | .binary (.returned error) => error.toString
  | .binary .panicked => ""
  | .fieldTooLong field length =>
    "Phoenix binary " ++ field ++ " field exceeds 255 bytes: " ++ ToString.toString length
  | .invalidOutboundReplyPayload => "reply envelope cannot be sent as an application payload"
  | .frameTooLarge length maximum =>
    "Phoenix frame is " ++ ToString.toString length ++ " bytes, exceeding the " ++
      ToString.toString maximum ++ "-byte limit"
  | .binaryPayloadTooLarge length maximum =>
    "Phoenix binary payload is " ++ ToString.toString length ++ " bytes, exceeding the " ++
      ToString.toString maximum ++ "-byte limit"

/-! ### Text frames

Decoding ignores nothing: five elements of the right kinds, or an error that names the one at fault. -/

def referenceValue : Option Reference → Value
  | none => .null
  | some reference => .string reference

/-- A reference may come as a number. -/
def decodeReference (value : Value) (field : String) : Except FrameCodecError (Option Reference) :=
  match value with
  | .null => .ok none
  | .string text => .ok (some text)
  | .number text => .ok (some text)
  | _ => .error (.invalidField field)

def textField (value : Value) (field : String) : Except FrameCodecError String :=
  match value.asStr with
  | some text => .ok text
  | none => .error (.invalidField field)

namespace Frame

/-- The five values of a text frame. -/
def values (frame : Frame) (payload : Value) : List Value :=
  [referenceValue frame.joinRef, referenceValue frame.reference, .string frame.topic, .string frame.event, payload]

def encodeText (json : Json) (frame : Frame) : Except FrameCodecError String :=
  match frame.payload.asJson with
  | none => .error .binaryPayloadRequiresBinaryFrame
  | some payload => (json.print (frame.values payload)).mapError .encode

def decodeText (json : Json) (input : String) : Except FrameCodecError Frame :=
  match json.read input with
  | .error e => .error (.decode e)
  | .ok [joinRef, reference, topic, event, payload] => do
    let joinRef ← decodeReference joinRef "join_ref"
    let reference ← decodeReference reference "ref"
    let topic ← textField topic "topic"
    let event ← textField event "event"
    return ⟨joinRef, reference, topic, event, .json payload⟩
  | .ok values => .error (.invalidLength values.length)

end Frame

/-! ### Binary pushes

Sizes are a byte each, so a text may not be longer than that says. -/

def fieldSize (value : List UInt8) (field : String) : Except MessageError UInt8 :=
  if value.length ≤ 255 then .ok (UInt8.ofNat value.length) else .error (.fieldTooLong field value.length)

def encodePush (frame : Frame) (payload : List UInt8) : Except MessageError (List UInt8) := do
  let joinRef := bytes (frame.joinRef.getD "")
  let reference := bytes (frame.reference.getD "")
  let topic := bytes frame.topic
  let event := bytes frame.event
  let lengths := [← fieldSize joinRef "join_ref", ← fieldSize reference "ref", ← fieldSize topic "topic",
    ← fieldSize event "event"]
  return kindPush :: lengths ++ joinRef ++ reference ++ topic ++ event ++ payload

namespace PhoenixV2Codec

def encode (json : Json) (frame : Frame) : Except MessageError WireMessage :=
  match frame.payload with
  | .json _ => ((frame.encodeText json).mapError .text).map .text
  | .binary payload => (encodePush frame payload).map .binary
  | .reply _ _ => .error .invalidOutboundReplyPayload

def decode (json : Json) : WireMessage → Except MessageError Frame
  | .text text => (Frame.decodeText json text).mapError .text
  | .binary bytes => (decodeBinary bytes).mapError .binary

end PhoenixV2Codec

/-! ### Pushes are cut apart again

`readPush` is the reader that a server has. What it reads back is what was written, so two pushes
with the same bytes are the same. -/

/-- The texts of a push, in the order of their sizes. -/
def Frame.pushFields (frame : Frame) : List (String × String) :=
  [("join_ref", frame.joinRef.getD ""), ("ref", frame.reference.getD ""), ("topic", frame.topic),
    ("event", frame.event)]

/-- A reader of pushes: the kind byte, four size bytes, the fields of these sizes, and the rest. -/
def readPush : List UInt8 → Option (List (List UInt8) × List UInt8)
  | kind :: joinRef :: reference :: topic :: event :: rest =>
    let sizes := [joinRef, reference, topic, event]
    let total := (sizes.map UInt8.toNat).sum
    if kind = kindPush ∧ total ≤ rest.length then some (cut sizes rest, rest.drop total) else none
  | _ => none

instance (text : String) : Decidable (Short text) := inferInstanceAs (Decidable (_ ≤ 255))

theorem Codec.bytes_inj {text text' : String} : bytes text = bytes text' ↔ text = text' := by
  refine ⟨fun h => String.toByteArray_inj.mp (ByteArray.ext ?_), fun h => by rw [h]⟩
  exact Array.toList_inj.mp h

theorem fieldSize_bytes (text field : String) :
    fieldSize (bytes text) field =
      if Short text then .ok (size text) else .error (.fieldTooLong field (bytes text).length) := rfl

/-- A push is written unless a field is too long, and the first one that is too long is reported. -/
theorem encodePush_eq (frame : Frame) (payload : List UInt8) :
    encodePush frame payload =
      match frame.pushFields.find? fun field => ¬ Short field.2 with
      | some (field, text) => .error (.fieldTooLong field (bytes text).length)
      | none => .ok (written kindPush (frame.pushFields.map Prod.snd) payload) := by
  simp only [encodePush, fieldSize_bytes, Frame.pushFields]
  by_cases hj : Short (frame.joinRef.getD "")
  · by_cases hr : Short (frame.reference.getD "")
    · by_cases ht : Short frame.topic
      · by_cases he : Short frame.event
        · simp [hj, hr, ht, he, written, bind, Except.bind, pure, Except.pure]
        · simp [hj, hr, ht, he, bind, Except.bind]
      · simp [hj, hr, ht, bind, Except.bind]
    · simp [hj, hr, bind, Except.bind]
  · simp [hj, bind, Except.bind]

/-- The reader cuts what was laid out into the same texts and the payload. -/
theorem readPush_written {a b c d : String} (h : ∀ text ∈ [a, b, c, d], Short text) (payload : List UInt8) :
    readPush (written kindPush [a, b, c, d] payload) = some ([a, b, c, d].map bytes, payload) := by
  obtain ⟨⟨hsum, ht⟩, hdrop⟩ := Codec.textsOf_written h payload
  have hbody : written kindPush [a, b, c, d] payload =
      kindPush :: size a :: size b :: size c :: size d :: ([a, b, c, d].flatMap bytes ++ payload) := by
    simp [written]
  rw [hbody, readPush]
  exact (if_pos ⟨rfl, hsum⟩).trans (by rw [ht]; exact congrArg (fun rest => some (_, rest)) hdrop)

/-- Two frames that differ at most in an absent and an empty reference. -/
structure Frame.Alike (frame frame' : Frame) : Prop where
  joinRef : frame.joinRef.getD "" = frame'.joinRef.getD ""
  reference : frame.reference.getD "" = frame'.reference.getD ""
  topic : frame.topic = frame'.topic
  event : frame.event = frame'.event
  payload : frame.payload = frame'.payload

namespace PhoenixV2Codec

section
variable {json : Json} {frame : Frame} {payload : List UInt8}

theorem encode_binary (hp : frame.payload = .binary payload) :
    encode json frame = (encodePush frame payload).map .binary := by
  simp only [encode, hp]

/-- Only binary payloads are encoded as binary messages. -/
theorem encode_eq_binary {out : List UInt8} (h : encode json frame = .ok (.binary out)) :
    ∃ payload, frame.payload = .binary payload ∧ (∀ field ∈ frame.pushFields, Short field.2) ∧
      out = written kindPush (frame.pushFields.map Prod.snd) payload := by
  cases hp : frame.payload with
  | json value =>
    simp only [encode, hp] at h
    cases htext : frame.encodeText json <;> rw [htext] at h <;> cases h
  | reply status response =>
    simp only [encode, hp] at h
    cases h
  | binary payload =>
    rw [encode_binary hp, encodePush_eq] at h
    cases hlong : frame.pushFields.find? fun field => ¬ Short field.2 with
    | some field =>
      rw [hlong] at h
      cases h
    | none =>
      rw [hlong] at h
      cases h
      exact ⟨payload, rfl, fun field hf => by simpa using List.find?_eq_none.mp hlong field hf, rfl⟩

/-- What was encoded as bytes is read back: the four fields and the payload. -/
theorem readPush_encoded {out : List UInt8} (h : encode json frame = .ok (.binary out)) :
    ∃ payload, frame.payload = .binary payload ∧
      readPush out = some (frame.pushFields.map fun field => bytes field.2, payload) := by
  obtain ⟨payload, hp, hshort, rfl⟩ := encode_eq_binary h
  refine ⟨payload, hp, readPush_written (fun text ht => ?_) payload⟩
  obtain ⟨field, hf, rfl⟩ := List.mem_map.mp (show text ∈ frame.pushFields.map Prod.snd from ht)
  exact hshort field hf

end

/-- **Pushes are encoded without ambiguity.** -/
theorem pushes_unambiguous (json : Json) :
    (∀ (frame : Frame) (payload : List UInt8), frame.payload = .binary payload →
      ((∃ m, encode json frame = .ok m) ↔ ∀ field ∈ frame.pushFields, Short field.2) ∧
      (∀ e, encode json frame = .error e → ∃ field text,
        frame.pushFields.find? (fun field => ¬ Short field.2) = some (field, text) ∧
          e = .fieldTooLong field (bytes text).length) ∧
      ∀ m, encode json frame = .ok m → ∃ out, m = .binary out ∧
        readPush out = some (frame.pushFields.map fun field => bytes field.2, payload)) ∧
    ∀ (frame frame' : Frame) (out : List UInt8), encode json frame = .ok (.binary out) →
      encode json frame' = .ok (.binary out) → frame.Alike frame' := by
  refine ⟨fun frame payload hp => ?_, fun frame frame' out h h' => ?_⟩
  · cases hlong : frame.pushFields.find? fun field => ¬ Short field.2 with
    | some field =>
      obtain ⟨field, text⟩ := field
      have hencode : encode json frame = .error (.fieldTooLong field (bytes text).length) := by
        rw [encode_binary hp, encodePush_eq, hlong]
        rfl
      have hbad : ¬ Short text := by simpa using List.find?_some hlong
      rw [hencode]
      refine ⟨⟨nofun, fun h => absurd (h _ (List.mem_of_find?_eq_some hlong)) hbad⟩, fun e he => ?_, nofun⟩
      cases he
      exact ⟨field, text, rfl, rfl⟩
    | none =>
      have hencode : encode json frame =
          .ok (.binary (written kindPush (frame.pushFields.map Prod.snd) payload)) := by
        rw [encode_binary hp, encodePush_eq, hlong]
        rfl
      obtain ⟨payload', hp', hread⟩ := readPush_encoded hencode
      cases hp.symm.trans hp'
      rw [hencode]
      refine ⟨⟨fun _ field hf => by simpa using List.find?_eq_none.mp hlong field hf, fun _ => ⟨_, rfl⟩⟩,
        nofun, fun m hm => ?_⟩
      cases hm
      exact ⟨_, rfl, hread⟩
  · obtain ⟨payload, hp, hread⟩ := readPush_encoded h
    obtain ⟨payload', hp', hread'⟩ := readPush_encoded h'
    rw [hread] at hread'
    simp only [Frame.pushFields, List.map_cons, List.map_nil, Option.some.injEq, Prod.mk.injEq, List.cons.injEq,
      Codec.bytes_inj] at hread'
    obtain ⟨⟨hj, hr, ht, he, -⟩, rfl⟩ := hread'
    exact ⟨hj, hr, ht, he, hp.trans hp'.symm⟩

/-- A push of three bytes. -/
theorem pushes_unambiguous_lobby :
    ∃ out, encode ⟨fun _ => .error "", fun _ => .error ""⟩
        ⟨some "1", some "2", "room:lobby", "binary", .binary [7, 8, 9]⟩ = .ok (.binary out) ∧
      out.take 5 = [0, 1, 1, 10, 6] ∧
      readPush out = some ([bytes "1", bytes "2", bytes "room:lobby", bytes "binary"], [7, 8, 9]) := by
  obtain ⟨-, -, hread⟩ := (pushes_unambiguous ⟨fun _ => .error "", fun _ => .error ""⟩).1
    ⟨some "1", some "2", "room:lobby", "binary", .binary [7, 8, 9]⟩ [7, 8, 9] rfl
  obtain ⟨out, hout, hr⟩ := hread _ rfl
  cases hout
  exact ⟨_, rfl, rfl, hr⟩

end PhoenixV2Codec
end PhoenixChannel.Runtime
