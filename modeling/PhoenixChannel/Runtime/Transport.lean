import PhoenixChannel.Runtime.Frame

/-! Wire messages, transport failures and the codec between frames and messages. -/
namespace PhoenixChannel.Runtime

/-- One message as the transport carries it. -/
inductive WireMessage where
  | text (value : String)
  | binary (bytes : List UInt8)
  deriving DecidableEq, Repr

/-- Whether a message is binary, and its size in bytes. -/
def WireMessage.metadata : WireMessage → Bool × Nat
  | .text value => (false, value.utf8ByteSize)
  | .binary bytes => (true, bytes.length)

/-- What a transport reports when its connection closes. -/
structure TransportClose where
  code : Option UInt16
  reason : String
  wasClean : Bool
  deriving DecidableEq, Repr

namespace TransportClose

def connectionEnded : TransportClose :=
  ⟨none, "WebSocket connection ended without a close frame", false⟩

def shouldReconnect (close : TransportClose) : Bool :=
  !close.wasClean && close.code != some 1000 && close.code != some 1008

end TransportClose

/-- The operation a transport failed in. -/
inductive TransportErrorKind where
  | connect
  | send
  | receive
  | close
  | other
  deriving DecidableEq, Repr

structure TransportError where
  kind : TransportErrorKind
  message : String
  deriving DecidableEq, Repr

/-- A codec. Its failures are held as the texts they print. -/
structure Codec where
  encode : Frame → Except String WireMessage
  decode : WireMessage → Except String Frame

/-- A connected transport: whether it carries binary messages, and what its coming sends
result in. A send past the end of the list succeeds. -/
structure Transport where
  supportsBinary : Bool
  sends : List (Except TransportError Unit)

/-- Sends one message. -/
def Transport.send (t : Transport) : Except TransportError Unit × Transport :=
  match t.sends with
  | [] => (.ok (), t)
  | result :: rest => (result, { t with sends := rest })

end PhoenixChannel.Runtime
