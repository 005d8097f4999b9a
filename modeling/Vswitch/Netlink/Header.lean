import Vswitch.Bytes

/-!
# Netlink headers

The sixteen octets in front of every netlink message, and the four octets in front of every generic
netlink body. All words are in host order.
-/

namespace Vswitch

/-- The fixed header of a netlink message. -/
structure Header where
  /-- Octets of the message, this header included. -/
  len : UInt32
  /-- A reserved type, or the family that the message belongs to. -/
  type : UInt16
  flags : UInt16
  /-- Ties a reply to its request. -/
  seq : UInt32
  /-- The port that sent the request. -/
  port : UInt32
  deriving DecidableEq, Repr, Inhabited

namespace Header

/-- Octets of a netlink header. -/
def size : Nat := 16

/-- The header at the front of a string. -/
def decode (data : Bytes) : Header :=
  ⟨data.le32At 0, data.le16At 4, data.le16At 6, data.le32At 8, data.le32At 12⟩

/-- The sixteen octets of a header. -/
def encode (h : Header) : Bytes :=
  Bytes.le32 h.len ++ Bytes.le16 h.type ++ Bytes.le16 h.flags ++ Bytes.le32 h.seq
    ++ Bytes.le32 h.port

@[simp] theorem length_encode (h : Header) : h.encode.length = size := by simp [encode, size]

end Header

/-! ## Reserved message types -/

namespace MessageType

/-- A message to be skipped. -/
def noop : UInt16 := 1

/-- An error, or an acknowledgement when its code is zero. -/
def error : UInt16 := 2

/-- The end of a reply in several parts. -/
def done : UInt16 := 3

/-- A notice that replies were lost. -/
def overrun : UInt16 := 4

/-- The family that resolves the names of families. -/
def controller : UInt16 := 0x10

end MessageType

/-! ## Flags -/

namespace Flag

/-- The message is a request. -/
def request : UInt16 := 0x01

/-- The message is one part of several. -/
def multi : UInt16 := 0x02

/-- The sender asks for an acknowledgement. -/
def ack : UInt16 := 0x04

/-- The sender asks to see the result of its request. -/
def echo : UInt16 := 0x08

/-- The sender asks for every object of a kind. -/
def dump : UInt16 := 0x300

/-- Whether all bits of `flag` are set in `flags`. -/
def isSet (flags flag : UInt16) : Bool := flags &&& flag == flag

end Flag

/-- The header in front of a generic netlink body. -/
structure GenericHeader where
  command : UInt8
  version : UInt8
  deriving DecidableEq, Repr, Inhabited

namespace GenericHeader

/-- Octets of a generic netlink header. -/
def size : Nat := 4

/-- The header at the front of a string; its last two octets are reserved. -/
def decode (data : Bytes) : GenericHeader := ⟨data.octet 0, data.octet 1⟩

/-- The four octets of a header. -/
def encode (h : GenericHeader) : Bytes := [h.command, h.version, 0, 0]

@[simp] theorem length_encode (h : GenericHeader) : h.encode.length = size := rfl

end GenericHeader

end Vswitch
