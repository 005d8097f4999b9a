import Vswitch.Packet.Assigned
import Vswitch.Packet.Checksum
import Vswitch.Packet.Dhcp

/-!
# UDP

Eight octets of header and a payload, which is DHCP on the DHCP ports. A length of zero is filled in
when the datagram is encoded, and so is a checksum of zero if the enclosing header hands down its
addresses; a computed checksum of zero is written as all ones, since zero stands for no checksum.
-/

namespace Vswitch

/-- What a datagram carries. -/
inductive UdpPayload where
  | dhcp : Dhcp → UdpPayload
  | data : Bytes → UdpPayload
  deriving DecidableEq, Repr

instance : Inhabited UdpPayload := ⟨.data []⟩

/-- A UDP datagram. -/
structure Udp where
  sourcePort : UInt16
  destinationPort : UInt16
  /-- Octets of header and payload. -/
  length : UInt16
  checksum : UInt16
  payload : UdpPayload
  deriving DecidableEq, Repr, Inhabited

namespace UdpPayload

/-- Reads the payload of a datagram between two ports. -/
def decode (source destination : UInt16) (data : Bytes) : Except Malformed UdpPayload :=
  if UdpPort.isDhcp destination || UdpPort.isDhcp source then return .dhcp (← Dhcp.decode data)
  else return .data data

/-- Appends the payload to a buffer. -/
def appendTo (p : UdpPayload) (buffer : Bytes) : Bytes :=
  match p with
  | .dhcp d => d.appendTo buffer
  | .data bytes => buffer ++ bytes

end UdpPayload

namespace Udp

/-- Octets of the header. -/
def headerLength : Nat := 8

/-- A datagram whose length and checksum are left to the encoder. -/
def ofPayload (sourcePort destinationPort : UInt16) (payload : UdpPayload) : Udp :=
  ⟨sourcePort, destinationPort, 0, 0, payload⟩

/-- Reads a datagram; octets past its length are left alone. -/
def decode (data : Bytes) : Except Malformed Udp := do
  expectOctets .udp headerLength data
  let length := data.be16At 4
  if length.toNat < headerLength then
    throw (.invalidField .udp .length length.toNat)
  expectOctets .udp length.toNat data
  let sourcePort := data.be16At 0
  let destinationPort := data.be16At 2
  let payload ← UdpPayload.decode sourcePort destinationPort
    (data.slice headerLength (length.toNat - headerLength))
  return ⟨sourcePort, destinationPort, length, data.be16At 6, payload⟩

/-- The header as its fields stand. -/
def header (u : Udp) : Bytes :=
  Bytes.be16 u.sourcePort ++ Bytes.be16 u.destinationPort ++ Bytes.be16 u.length
    ++ Bytes.be16 u.checksum

/-- The checksum of a segment whose own checksum is zero, never zero itself. -/
def checksumOf (pseudo : PseudoHeader) (length : UInt16) (segment : Bytes) : UInt16 :=
  let sum := Checksum.finish (Checksum.sum (pseudo.sum IpProtocol.udp length) segment)
  if sum = 0 then 0xffff else sum

/-- Appends the datagram to a buffer. -/
def appendTo (u : Udp) (buffer : Bytes) (pseudo : Option PseudoHeader) : Except Malformed Bytes := do
  let start := buffer.length
  let written := u.payload.appendTo (buffer ++ u.header)
  let length ←
    if u.length = 0 then lengthField .udp .length (written.length - start) else pure u.length
  let written := written.overwrite (start + 4) (Bytes.be16 length)
  match pseudo with
  | none => return written
  | some pseudo =>
    if u.checksum = 0 then
      return written.overwrite (start + 6)
        (Bytes.be16 (checksumOf pseudo length (written.drop start)))
    else
      return written

/-- The octets of the datagram. -/
def encode (u : Udp) (pseudo : Option PseudoHeader) : Except Malformed Bytes := u.appendTo [] pseudo

end Udp

end Vswitch
