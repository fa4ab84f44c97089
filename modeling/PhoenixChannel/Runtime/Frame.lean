/-! JSON values, payloads and frames.

A `Frame` is the five serializer fields of a Phoenix v2 message after decoding. JSON is
held as serde_json holds it: an object is its members, one per key, in key order. -/
namespace PhoenixChannel.Runtime

/-- A topic: the name of a channel, or `phoenix` for heartbeats. -/
abbrev Topic := String

/-- A reference: the text that correlates a request with its reply, or names a join
generation. -/
abbrev Reference := String

/-- A JSON value. A number is held as the text serde_json prints for it. -/
inductive Value where
  | null
  | bool (value : Bool)
  | number (text : String)
  | string (value : String)
  | array (items : List Value)
  | object (members : List (String × Value))

/-- A JSON object's members, in key order, each key once. -/
abbrev Members := List (String × Value)

/-- The member named `key`. -/
def Members.get (members : Members) (key : String) : Option Value :=
  List.lookup key members

/-- The other members. -/
def Members.remove (members : Members) (key : String) : Members :=
  members.filter fun member => member.1 != key

namespace Value

def asObject : Value → Option Members
  | .object members => some members
  | _ => none

def asArray : Value → Option (List Value)
  | .array items => some items
  | _ => none

def asStr : Value → Option String
  | .string value => some value
  | _ => none

end Value

/-- The payload of a frame. -/
inductive Payload where
  | json (value : Value)
  | binary (bytes : List UInt8)
  /-- The status and response inside a binary `phx_reply`. -/
  | reply (status : String) (response : Payload)

namespace Payload

def asJson : Payload → Option Value
  | .json value => some value
  | .binary _ | .reply _ _ => none

def isBinary : Payload → Bool
  | .binary _ => true
  | .json _ | .reply _ _ => false

/-- `json!({})`. -/
def emptyObject : Payload := .json (.object [])

end Payload

/-- The serializer fields `[join_ref, ref, topic, event, payload]`. -/
structure Frame where
  joinRef : Option Reference
  reference : Option Reference
  topic : Topic
  event : String
  payload : Payload

end PhoenixChannel.Runtime
