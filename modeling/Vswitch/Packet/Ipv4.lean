import Vswitch.Packet.Icmp
import Vswitch.Packet.Tcp
import Vswitch.Packet.Udp

/-!
# IPv4

The header, its options as raw octets, and a payload read by protocol number, unless the packet is a
fragment other than the first. Header length, total length and checksum of zero are filled in when
the packet is encoded.
-/

namespace Vswitch

/-! ## Fragments -/

/-- Where a packet stands in a fragmented datagram. -/
inductive FragmentType where
  /-- The datagram is not fragmented. -/
  | none
  /-- The first fragment, which carries the transport header. -/
  | first
  /-- Any other fragment. -/
  | later
  deriving DecidableEq, Repr, Inhabited

namespace FragmentType

/-- The flag that more fragments follow. -/
def moreFragments : UInt8 := 1

/-- The type that flags and offset of a header tell. -/
def ofHeader (flags : UInt8) (offset : UInt16) : FragmentType :=
  if offset ≠ 0 then .later else if flags &&& moreFragments ≠ 0 then .first else .none

/-- The octet that stands for a type in a flow key. -/
def toOctet : FragmentType → UInt8
  | .none => 0
  | .first => 1
  | .later => 2

/-- The type that an octet stands for. -/
def ofOctet? (o : UInt8) : Option FragmentType :=
  if o = 0 then some .none else if o = 1 then some .first else if o = 2 then some .later
  else Option.none

theorem ofOctet?_toOctet (t : FragmentType) : ofOctet? t.toOctet = some t := by cases t <;> rfl

end FragmentType

/-! ## Payloads -/

/-- What a packet carries. -/
inductive Ipv4Payload where
  | tcp : Tcp → Ipv4Payload
  | udp : Udp → Ipv4Payload
  | icmp : Icmp → Ipv4Payload
  | data : Bytes → Ipv4Payload
  deriving DecidableEq, Repr

instance : Inhabited Ipv4Payload := ⟨.data []⟩

namespace Ipv4Payload

/-- Reads the payload that a protocol number announces. -/
def decode (protocol : UInt8) (data : Bytes) : Except Malformed Ipv4Payload :=
  if protocol = IpProtocol.tcp then return .tcp (← Tcp.decode data)
  else if protocol = IpProtocol.udp then return .udp (← Udp.decode data)
  else if protocol = IpProtocol.icmp then return .icmp (← Icmp.decode data)
  else return .data data

/-- The protocol number that announces the payload, if it is a header of its own. -/
def protocol? : Ipv4Payload → Option UInt8
  | .tcp _ => some IpProtocol.tcp
  | .udp _ => some IpProtocol.udp
  | .icmp _ => some IpProtocol.icmp
  | .data _ => none

/-- Appends the payload to a buffer. -/
def appendTo (p : Ipv4Payload) (buffer : Bytes) (pseudo : PseudoHeader) : Except Malformed Bytes :=
  match p with
  | .tcp t => .ok (t.appendTo buffer (some pseudo))
  | .udp u => u.appendTo buffer (some pseudo)
  | .icmp i => .ok (i.appendTo buffer)
  | .data bytes => .ok (buffer ++ bytes)

end Ipv4Payload

/-! ## Packets -/

/-- An IPv4 packet. -/
structure Ipv4 where
  /-- Internet header length, in words of four octets. -/
  ihl : UInt8
  tos : UInt8
  totalLength : UInt16
  identification : UInt16
  /-- Three bits: reserved, don't fragment, more fragments. -/
  flags : UInt8
  /-- Thirteen bits, in units of eight octets. -/
  fragmentOffset : UInt16
  ttl : UInt8
  /-- Announces an opaque payload; any other payload announces itself. -/
  protocol : UInt8
  checksum : UInt16
  source : Ipv4Addr
  destination : Ipv4Addr
  options : Bytes
  payload : Ipv4Payload
  deriving DecidableEq, Repr, Inhabited

namespace Ipv4

/-- Octets of a header without options. -/
def minHeaderLength : Nat := 20

/-- A packet without options whose derived fields are left to the encoder. -/
def ofPayload (source destination : Ipv4Addr) (payload : Ipv4Payload) : Ipv4 where
  ihl := 0
  tos := 0
  totalLength := 0
  identification := 0
  flags := 0
  fragmentOffset := 0
  ttl := 64
  protocol := payload.protocol?.getD 0
  checksum := 0
  source := source
  destination := destination
  options := []
  payload := payload

/-- Where the packet stands in a fragmented datagram. -/
def fragmentType (p : Ipv4) : FragmentType := FragmentType.ofHeader p.flags p.fragmentOffset

/-- The addresses that the checksums of the payload cover. -/
def pseudoHeader (p : Ipv4) : PseudoHeader := ⟨p.source, p.destination⟩

/-- Reads a packet; octets past its total length are left alone. -/
def decode (data : Bytes) : Except Malformed Ipv4 := do
  expectOctets .ipv4 minHeaderLength data
  let version := data.octet 0 >>> 4
  if version ≠ 4 then
    throw (.invalidField .ipv4 .version version.toNat)
  let ihl := data.octet 0 &&& 0x0f
  let headerLength := 4 * ihl.toNat
  if headerLength < minHeaderLength then
    throw (.invalidField .ipv4 .ihl ihl.toNat)
  expectOctets .ipv4 headerLength data
  let totalLength := data.be16At 2
  if totalLength.toNat < headerLength then
    throw (.invalidField .ipv4 .totalLength totalLength.toNat)
  expectOctets .ipv4 totalLength.toNat data
  let fragmentWord := data.be16At 6
  let fragmentOffset := fragmentWord &&& 0x1fff
  let protocol := data.octet 9
  let body := data.slice headerLength (totalLength.toNat - headerLength)
  let payload ←
    if fragmentOffset ≠ 0 then pure (Ipv4Payload.data body) else Ipv4Payload.decode protocol body
  return {
    ihl := ihl
    tos := data.octet 1
    totalLength := totalLength
    identification := data.be16At 4
    flags := (fragmentWord >>> 13).toUInt8
    fragmentOffset := fragmentOffset
    ttl := data.octet 8
    protocol := protocol
    checksum := data.be16At 10
    source := Ipv4Addr.ofBytes data 12
    destination := Ipv4Addr.ofBytes data 16
    options := data.slice minHeaderLength (headerLength - minHeaderLength)
    payload := payload }

/-- The header length in words that is written: the stored one, or the least that covers the
options. -/
def wireIhl (p : Ipv4) : Nat :=
  if p.ihl = 0 then (minHeaderLength + p.options.length + 3) / 4 else p.ihl.toNat

/-- The header with a given total length, its options filled up with zeros to the header length. -/
def header (p : Ipv4) (totalLength : UInt16) : Bytes :=
  Bytes.padTo
    ([UInt8.ofNat (64 + p.wireIhl), p.tos] ++ Bytes.be16 totalLength
      ++ Bytes.be16 p.identification
      ++ Bytes.be16 (((p.flags &&& 7).toUInt16 <<< 13) ||| (p.fragmentOffset &&& 0x1fff))
      ++ [p.ttl, p.payload.protocol?.getD p.protocol] ++ Bytes.be16 p.checksum
      ++ p.source.octets ++ p.destination.octets ++ p.options)
    (4 * p.wireIhl)

/-- Appends the packet to a buffer. The checksum covers the octets that the header length says. -/
def appendTo (p : Ipv4) (buffer : Bytes) : Except Malformed Bytes := do
  if 15 < p.wireIhl then
    throw (.invalidField .ipv4 .ihl p.wireIhl)
  let headerLength := 4 * p.wireIhl
  let payload ← p.payload.appendTo [] p.pseudoHeader
  let totalLength ←
    if p.totalLength = 0 then lengthField .ipv4 .totalLength (headerLength + payload.length)
    else pure p.totalLength
  let start := buffer.length
  let written := buffer ++ p.header totalLength
  let sealed :=
    if p.checksum = 0 then
      written.overwrite (start + 10)
        (Bytes.be16 (Checksum.ofBytes (written.slice start headerLength)))
    else written
  return sealed ++ payload

/-- The octets of the packet. -/
def encode (p : Ipv4) : Except Malformed Bytes := p.appendTo []

/-- The segment, if the packet carries one. -/
def tcp? (p : Ipv4) : Option Tcp :=
  match p.payload with
  | .tcp t => some t
  | _ => none

/-- The datagram, if the packet carries one. -/
def udp? (p : Ipv4) : Option Udp :=
  match p.payload with
  | .udp u => some u
  | _ => none

end Ipv4

end Vswitch
