import Vswitch.Packet.Assigned
import Vswitch.Packet.Checksum
import Vswitch.Packet.Malformed

/-!
# TCP

The options are kept as raw octets and the payload is opaque. A data offset of zero is filled in when
the segment is encoded, and so is a checksum of zero if the enclosing header hands down its addresses.
-/

namespace Vswitch

/-- A TCP segment. -/
structure Tcp where
  sourcePort : UInt16
  destinationPort : UInt16
  sequence : UInt32
  acknowledgment : UInt32
  /-- Length of the header in words of four octets. -/
  dataOffset : UInt8
  /-- The control bits; nine of them are assigned. -/
  flags : UInt16
  window : UInt16
  checksum : UInt16
  urgent : UInt16
  options : Bytes
  payload : Bytes
  deriving DecidableEq, Repr, Inhabited

namespace Tcp

/-- Octets of a header without options. -/
def minHeaderLength : Nat := 20

/-- The nine assigned control bits. -/
def flagMask : UInt16 := 0x1ff

/-- A segment without options and payload. -/
def ofPorts (sourcePort destinationPort flags : UInt16) : Tcp :=
  ⟨sourcePort, destinationPort, 0, 0, 0, flags, 0xffff, 0, 0, [], []⟩

/-- Reads a segment. -/
def decode (data : Bytes) : Except Malformed Tcp := do
  expectOctets .tcp minHeaderLength data
  let dataOffset := data.octet 12 >>> 4
  let headerLength := 4 * dataOffset.toNat
  if headerLength < minHeaderLength then
    throw (.invalidField .tcp .dataOffset dataOffset.toNat)
  expectOctets .tcp headerLength data
  return {
    sourcePort := data.be16At 0
    destinationPort := data.be16At 2
    sequence := data.be32At 4
    acknowledgment := data.be32At 8
    dataOffset := dataOffset
    flags := data.be16At 12 &&& flagMask
    window := data.be16At 14
    checksum := data.be16At 16
    urgent := data.be16At 18
    options := data.slice minHeaderLength (headerLength - minHeaderLength)
    payload := data.drop headerLength }

/-- The data offset that is written: the stored one, or the least that covers the options. -/
def wireOffset (t : Tcp) : UInt8 :=
  if t.dataOffset = 0 then UInt8.ofNat ((minHeaderLength + t.options.length + 3) / 4)
  else t.dataOffset

/-- The header, its options filled up with zeros to the written data offset. -/
def header (t : Tcp) : Bytes :=
  Bytes.padTo
    (Bytes.be16 t.sourcePort ++ Bytes.be16 t.destinationPort ++ Bytes.be32 t.sequence
      ++ Bytes.be32 t.acknowledgment ++ Bytes.be16 ((t.wireOffset.toUInt16 <<< 12) ||| t.flags)
      ++ Bytes.be16 t.window ++ Bytes.be16 t.checksum ++ Bytes.be16 t.urgent ++ t.options)
    (4 * t.wireOffset.toNat)

/-- Appends the segment to a buffer. -/
def appendTo (t : Tcp) (buffer : Bytes) (pseudo : Option PseudoHeader) : Bytes :=
  let start := buffer.length
  let written := buffer ++ t.header ++ t.payload
  match pseudo with
  | none => written
  | some pseudo =>
    if t.checksum = 0 then
      written.overwrite (start + 16)
        (Bytes.be16 (pseudo.checksum IpProtocol.tcp (written.drop start)))
    else
      written

/-- The octets of the segment. -/
def encode (t : Tcp) (pseudo : Option PseudoHeader) : Bytes := t.appendTo [] pseudo

end Tcp

end Vswitch
