import Vswitch.Packet.Checksum
import Vswitch.Packet.Malformed

/-!
# ICMP

Eight octets of header, whose second word depends on the type, and data. A checksum of zero is filled
in when the message is encoded.
-/

namespace Vswitch

/-- An ICMP message. -/
structure Icmp where
  type : UInt8
  code : UInt8
  checksum : UInt16
  /-- Identifier and sequence number of an echo, next-hop size, or unused. -/
  rest : UInt32
  data : Bytes
  deriving DecidableEq, Repr, Inhabited

namespace Icmp

/-- Octets of the header. -/
def headerLength : Nat := 8

/-! ## Types -/

def typeEchoReply : UInt8 := 0
def typeUnreachable : UInt8 := 3
def typeEchoRequest : UInt8 := 8
def typeTimeExceeded : UInt8 := 11

/-! ## Messages -/

/-- An echo request. -/
def echoRequest (identifier sequence : UInt16) (data : Bytes) : Icmp :=
  ⟨typeEchoRequest, 0, 0, (identifier.toUInt32 <<< 16) ||| sequence.toUInt32, data⟩

/-- The reply to an echo request, which sends back all it holds. -/
def echoReply (request : Icmp) : Icmp :=
  { request with type := typeEchoReply, code := 0, checksum := 0 }

/-- The report that the destination of `packet` cannot be reached. -/
def unreachable (code : UInt8) (packet : Bytes) : Icmp := ⟨typeUnreachable, code, 0, 0, packet⟩

/-- The report that `packet` ran out of hops. -/
def timeExceeded (packet : Bytes) : Icmp := ⟨typeTimeExceeded, 0, 0, 0, packet⟩

/-- The identifier of an echo. -/
def identifier (i : Icmp) : UInt16 := (i.rest >>> 16).toUInt16

/-- The sequence number of an echo. -/
def sequence (i : Icmp) : UInt16 := i.rest.toUInt16

/-- Whether the message reports an error. -/
def isError (i : Icmp) : Bool := i.type == typeUnreachable || i.type == typeTimeExceeded

/-! ## Codec -/

/-- Reads a message. -/
def decode (data : Bytes) : Except Malformed Icmp := do
  expectOctets .icmp headerLength data
  return ⟨data.octet 0, data.octet 1, data.be16At 2, data.be32At 4, data.drop headerLength⟩

/-- The header as its fields stand. -/
def header (i : Icmp) : Bytes := [i.type, i.code] ++ Bytes.be16 i.checksum ++ Bytes.be32 i.rest

/-- Appends the message to a buffer. -/
def appendTo (i : Icmp) (buffer : Bytes) : Bytes :=
  let start := buffer.length
  let written := buffer ++ i.header ++ i.data
  if i.checksum = 0 then
    written.overwrite (start + 2) (Bytes.be16 (Checksum.ofBytes (written.drop start)))
  else
    written

/-- The octets of the message. -/
def encode (i : Icmp) : Bytes := i.appendTo []

end Icmp

end Vswitch
