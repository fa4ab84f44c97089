import PhoenixChannel.Runtime.Serializer

/-! The codec with limits on the sizes of frames and of binary payloads.

It is the plain codec cut to its limits: the message is measured on the wire, the payload as it is
in the frame, and both measures are the same in the two directions. -/
namespace PhoenixChannel.Runtime
open Codec (decodeBinary)

/-- Maximum accepted sizes for encoded frames and binary payloads. -/
structure CodecLimits where
  maxFrameBytes : Nat
  maxBinaryPayloadBytes : Nat

def CodecLimits.default : CodecLimits := ⟨16 * 1024 * 1024, 16 * 1024 * 1024⟩

def validateFrameSize (message : WireMessage) (limits : CodecLimits) : Except MessageError Unit :=
  let length := match message with
    | .text text => text.utf8ByteSize
    | .binary bytes => bytes.length
  if length > limits.maxFrameBytes then .error (.frameTooLarge length limits.maxFrameBytes) else .ok ()

def validatePayloadSize (payload : Payload) (limits : CodecLimits) : Except MessageError Unit :=
  let length := match payload with
    | .binary bytes => some bytes.length
    | .reply _ (.binary bytes) => some bytes.length
    | .reply _ _ => none
    | .json _ => none
  match length with
  | some length =>
    if length > limits.maxBinaryPayloadBytes then
      .error (.binaryPayloadTooLarge length limits.maxBinaryPayloadBytes)
    else .ok ()
  | none => .ok ()

namespace LimitedPhoenixV2Codec

def encode (json : Json) (limits : CodecLimits) (frame : Frame) : Except MessageError WireMessage := do
  validatePayloadSize frame.payload limits
  let message ← PhoenixV2Codec.encode json frame
  validateFrameSize message limits
  return message

def decode (json : Json) (limits : CodecLimits) (message : WireMessage) : Except MessageError Frame := do
  validateFrameSize message limits
  let frame ← PhoenixV2Codec.decode json message
  validatePayloadSize frame.payload limits
  return frame

end LimitedPhoenixV2Codec

/-! ### Sizes

Encoding and decoding measure the same message and the same payload. -/

/-- The bytes a payload carries, however deep in replies. -/
def Payload.carried : Payload → Option (List UInt8)
  | .json _ => none
  | .binary bytes => some bytes
  | .reply _ response => response.carried

/-- No reply inside a reply. -/
def Payload.Flat : Payload → Prop
  | .reply _ (.reply _ _) => False
  | _ => True

/-- The message and the payload are within the limits. -/
structure CodecLimits.Allow (limits : CodecLimits) (message : WireMessage) (payload : Payload) : Prop where
  frame : message.metadata.2 ≤ limits.maxFrameBytes
  payload : ∀ bytes, payload.carried = some bytes → bytes.length ≤ limits.maxBinaryPayloadBytes

section
variable {json : Json} {limits : CodecLimits} {message : WireMessage} {frame : Frame}

theorem validateFrameSize_eq_ok :
    validateFrameSize message limits = .ok () ↔ message.metadata.2 ≤ limits.maxFrameBytes := by
  cases message with
  | text text => simp [validateFrameSize, WireMessage.metadata]
  | binary bytes => simp [validateFrameSize, WireMessage.metadata]

/-- The check sees all bytes of a flat payload. -/
theorem validatePayloadSize_eq_ok {payload : Payload} (h : payload.Flat) :
    validatePayloadSize payload limits = .ok () ↔
      ∀ bytes, payload.carried = some bytes → bytes.length ≤ limits.maxBinaryPayloadBytes := by
  cases payload with
  | json value => simp [validatePayloadSize, Payload.carried]
  | binary bytes => simp [validatePayloadSize, Payload.carried]
  | reply status response =>
    cases response with
    | json value => simp [validatePayloadSize, Payload.carried]
    | binary bytes => simp [validatePayloadSize, Payload.carried]
    | reply status response => exact h.elim

theorem mapError_eq_ok {ε ε' α : Type} {f : ε → ε'} {x : Except ε α} {a : α} :
    x.mapError f = .ok a ↔ x = .ok a := by
  cases x with
  | error e => exact ⟨nofun, nofun⟩
  | ok b => exact ⟨fun h => congrArg _ (Except.ok.inj h), fun h => congrArg _ (Except.ok.inj h)⟩

/-- A text message is decoded to a JSON payload. -/
theorem decodeText_payload {text : String} (h : Frame.decodeText json text = .ok frame) :
    ∃ value, frame.payload = .json value := by
  unfold Frame.decodeText at h
  split at h
  · cases h
  · rename_i joinRef reference topic event payload _
    cases hj : decodeReference joinRef "join_ref" with
    | error e => rw [hj] at h; cases h
    | ok j =>
      cases hr : decodeReference reference "ref" with
      | error e => rw [hj, hr] at h; cases h
      | ok r =>
        cases ht : textField topic "topic" with
        | error e => rw [hj, hr, ht] at h; cases h
        | ok t =>
          cases he : textField event "event" with
          | error e => rw [hj, hr, ht, he] at h; cases h
          | ok e =>
            rw [hj, hr, ht, he] at h
            cases h
            exact ⟨payload, rfl⟩
  · cases h

/-- Decoded payloads are flat. -/
theorem flat_of_decode (h : PhoenixV2Codec.decode json message = .ok frame) : frame.payload.Flat := by
  cases message with
  | text text =>
    obtain ⟨value, hp⟩ := decodeText_payload (mapError_eq_ok.mp h)
    rw [hp]
    trivial
  | binary bytes =>
    have hlaid := Codec.decodeBinary_eq_ok.mp (mapError_eq_ok.mp h)
    cases hlaid <;> trivial

/-- The codec encodes no reply, so a payload it takes is a value or bytes. -/
theorem flat_of_encode (h : PhoenixV2Codec.encode json frame = .ok message) : frame.payload.Flat := by
  cases hp : frame.payload with
  | json value => trivial
  | binary bytes => trivial
  | reply status response =>
    simp only [PhoenixV2Codec.encode, hp] at h
    cases h

/-- Decoding with limits is decoding, and then being within them. -/
theorem limited_decode_iff : LimitedPhoenixV2Codec.decode json limits message = .ok frame ↔
    PhoenixV2Codec.decode json message = .ok frame ∧ limits.Allow message frame.payload := by
  simp only [LimitedPhoenixV2Codec.decode, Codec.bind_eq_ok]
  constructor
  · rintro ⟨⟨⟩, hf, frame', hd, ⟨⟩, hp, he⟩
    cases he
    exact ⟨hd, validateFrameSize_eq_ok.mp hf, (validatePayloadSize_eq_ok (flat_of_decode hd)).mp hp⟩
  · rintro ⟨hd, hf, hp⟩
    exact ⟨(), validateFrameSize_eq_ok.mpr hf, frame, hd, (),
      (validatePayloadSize_eq_ok (flat_of_decode hd)).mpr hp, rfl⟩

/-- Encoding with limits is encoding, and then being within them. -/
theorem limited_encode_iff : LimitedPhoenixV2Codec.encode json limits frame = .ok message ↔
    PhoenixV2Codec.encode json frame = .ok message ∧ limits.Allow message frame.payload := by
  simp only [LimitedPhoenixV2Codec.encode, Codec.bind_eq_ok]
  constructor
  · rintro ⟨⟨⟩, hp, message', he, ⟨⟩, hf, heq⟩
    cases heq
    exact ⟨he, validateFrameSize_eq_ok.mp hf, (validatePayloadSize_eq_ok (flat_of_encode he)).mp hp⟩
  · rintro ⟨he, hf, hp⟩
    exact ⟨(), (validatePayloadSize_eq_ok (flat_of_encode he)).mpr hp, message, he, (),
      validateFrameSize_eq_ok.mpr hf, rfl⟩

/-! ### Round trips

What is within the limits in one direction is within them in the other. -/

variable {value : Value}

theorem decodeReference_referenceValue (reference : Option Reference) (field : String) :
    decodeReference (referenceValue reference) field = .ok reference := by
  cases reference <;> rfl

/-- A frame's five values are read as that frame. -/
theorem decodeText_values {text : String} (hp : frame.payload = .json value)
    (h : json.read text = .ok (frame.values value)) : Frame.decodeText json text = .ok frame := by
  obtain ⟨joinRef, reference, topic, event, payload⟩ := frame
  cases hp
  simp only [Frame.decodeText, h, Frame.values, decodeReference_referenceValue]
  rfl

/-- A JSON frame comes back from what it is encoded to. -/
theorem decode_encode (hp : frame.payload = .json value) (hback : json.ReadsBack (frame.values value)) :
    ∃ message, PhoenixV2Codec.encode json frame = .ok message ∧
      PhoenixV2Codec.decode json message = .ok frame := by
  obtain ⟨text, hprint, hread⟩ := hback
  refine ⟨.text text, ?_, mapError_eq_ok.mpr (decodeText_values hp hread)⟩
  have htext : frame.encodeText json = .ok text := by
    simp only [Frame.encodeText, hp, Payload.asJson, hprint]
    rfl
  simp only [PhoenixV2Codec.encode, hp, htext]
  rfl

end

/-- **The limited codec is the plain one cut to its limits**, and text comes back through it. -/
theorem limited_codec_cut (json : Json) :
    (∀ limits message frame, LimitedPhoenixV2Codec.decode json limits message = .ok frame ↔
      PhoenixV2Codec.decode json message = .ok frame ∧ limits.Allow message frame.payload) ∧
    (∀ limits frame message, LimitedPhoenixV2Codec.encode json limits frame = .ok message ↔
      PhoenixV2Codec.encode json frame = .ok message ∧ limits.Allow message frame.payload) ∧
    (∀ limits frame message value, frame.payload = .json value → json.ReadsBack (frame.values value) →
      LimitedPhoenixV2Codec.encode json limits frame = .ok message →
      LimitedPhoenixV2Codec.decode json limits message = .ok frame) ∧
    ∀ text frame, PhoenixV2Codec.decode json (.text text) = .ok frame →
      ∃ value, frame.payload = .json value ∧ (json.ReadsBack (frame.values value) →
        ∃ message, PhoenixV2Codec.encode json frame = .ok message ∧
          PhoenixV2Codec.decode json message = .ok frame) := by
  refine ⟨fun _ _ _ => limited_decode_iff, fun _ _ _ => limited_encode_iff,
    fun limits frame message value hp hback he => ?_, fun text frame hd => ?_⟩
  · obtain ⟨hplain, hallow⟩ := limited_encode_iff.mp he
    obtain ⟨message', hplain', hd⟩ := decode_encode hp hback
    cases hplain.symm.trans hplain'
    exact limited_decode_iff.mpr ⟨hd, hallow⟩
  · obtain ⟨value, hp⟩ := decodeText_payload (mapError_eq_ok.mp hd)
    exact ⟨value, hp, decode_encode hp⟩

/-- References that come as numbers go as texts, and come back so under the default limits. -/
theorem limited_codec_cut_numbers :
    let numbers := "[1,2,\"room:lobby\",\"phx_reply\",null]"
    let texts := "[\"1\",\"2\",\"room:lobby\",\"phx_reply\",null]"
    let frame : Frame := ⟨some "1", some "2", "room:lobby", "phx_reply", .json .null⟩
    let json : Json := ⟨fun _ => .ok texts, fun text =>
      if text = numbers then .ok [.number "1", .number "2", .string "room:lobby", .string "phx_reply", .null]
      else .ok [.string "1", .string "2", .string "room:lobby", .string "phx_reply", .null]⟩
    PhoenixV2Codec.decode json (.text numbers) = .ok frame ∧
      (∃ message, PhoenixV2Codec.encode json frame = .ok message ∧
        PhoenixV2Codec.decode json message = .ok frame) ∧
      LimitedPhoenixV2Codec.decode json .default (.text texts) = .ok frame := by
  intro numbers texts frame json
  have hback : json.ReadsBack (frame.values .null) := ⟨texts, rfl, rfl⟩
  obtain ⟨-, -, hlimited, hplain⟩ := limited_codec_cut json
  have hd : PhoenixV2Codec.decode json (.text numbers) = .ok frame := rfl
  obtain ⟨value, hp, hcomes⟩ := hplain numbers frame hd
  cases hp
  exact ⟨hd, hcomes hback, hlimited .default frame (.text texts) .null rfl hback rfl⟩

end PhoenixChannel.Runtime
