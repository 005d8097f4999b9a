import Vswitch.Packet.Arp
import Vswitch.Packet.Ipv4
import Vswitch.Packet.Lldp

/-!
# Ethernet

Frames with an optional VLAN tag. The payload is read by ether type; a second tag inside the first is
not followed.
-/

namespace Vswitch

/-! ## Tags -/

/-- A VLAN tag. -/
structure VlanTag where
  /-- Three bits. -/
  priority : UInt8
  dropEligible : Bool
  /-- Twelve bits. -/
  id : UInt16
  deriving DecidableEq, Repr, Inhabited

namespace VlanTag

/-- The tag that a control word spells. -/
def ofWord (word : UInt16) : VlanTag :=
  ⟨(word >>> 13).toUInt8, word &&& 0x1000 != 0, word &&& 0x0fff⟩

/-- The control word of a tag, of each field as many bits as it has. -/
def toWord (t : VlanTag) : UInt16 :=
  ((t.priority &&& 7).toUInt16 <<< 13) ||| (if t.dropEligible then 0x1000 else 0)
    ||| (t.id &&& 0x0fff)

end VlanTag

/-! ## Payloads -/

/-- What a frame carries. -/
inductive EthernetPayload where
  | ipv4 : Ipv4 → EthernetPayload
  | arp : Arp → EthernetPayload
  | lldp : Lldp → EthernetPayload
  | data : Bytes → EthernetPayload
  deriving DecidableEq, Repr

namespace EthernetPayload

/-- Reads the payload that an ether type announces. -/
def decode (type : UInt16) (data : Bytes) : Except Malformed EthernetPayload :=
  if type = EtherType.ipv4 then return .ipv4 (← Ipv4.decode data)
  else if type = EtherType.arp then return .arp (← Arp.decode data)
  else if type = EtherType.lldp then return .lldp (← Lldp.decode data)
  else return .data data

/-- The ether type that announces the payload, if it is a header of its own. -/
def etherType? : EthernetPayload → Option UInt16
  | .ipv4 _ => some EtherType.ipv4
  | .arp _ => some EtherType.arp
  | .lldp _ => some EtherType.lldp
  | .data _ => none

/-- Appends the payload to a buffer. -/
def appendTo (p : EthernetPayload) (buffer : Bytes) : Except Malformed Bytes :=
  match p with
  | .ipv4 p => p.appendTo buffer
  | .arp a => .ok (a.appendTo buffer)
  | .lldp l => .ok (l.appendTo buffer)
  | .data bytes => .ok (buffer ++ bytes)

end EthernetPayload

/-! ## Frames -/

/-- An Ethernet frame. -/
structure Ethernet where
  destination : MacAddr
  source : MacAddr
  vlan : Option VlanTag
  /-- Announces an opaque payload; any other payload announces itself. -/
  etherType : UInt16
  payload : EthernetPayload
  deriving DecidableEq, Repr

namespace Ethernet

/-- Octets of the header without a tag. -/
def headerLength : Nat := 14

/-- Octets that a tag adds. -/
def tagLength : Nat := 4

/-- A frame without a tag. -/
def ofPayload (source destination : MacAddr) (payload : EthernetPayload) : Ethernet :=
  ⟨destination, source, none, payload.etherType?.getD 0, payload⟩

/-- Reads a frame. -/
def decode (data : Bytes) : Except Malformed Ethernet := do
  expectOctets .ethernet headerLength data
  let destination := MacAddr.ofBytes data 0
  let source := MacAddr.ofBytes data 6
  let type := data.be16At 12
  if type = EtherType.vlan then
    expectOctets .ethernet (headerLength + tagLength) data
    let inner := data.be16At 16
    let payload ← EthernetPayload.decode inner (data.drop (headerLength + tagLength))
    return ⟨destination, source, some (VlanTag.ofWord (data.be16At 14)), inner, payload⟩
  else
    let payload ← EthernetPayload.decode type (data.drop headerLength)
    return ⟨destination, source, none, type, payload⟩

/-- The tag as it is written between the addresses and the ether type. -/
def tagOctets (vlan : Option VlanTag) : Bytes :=
  match vlan with
  | none => []
  | some tag => Bytes.be16 EtherType.vlan ++ Bytes.be16 tag.toWord

/-- The header: addresses, tag and ether type. -/
def header (f : Ethernet) : Bytes :=
  f.destination.octets ++ f.source.octets ++ tagOctets f.vlan
    ++ Bytes.be16 (f.payload.etherType?.getD f.etherType)

/-- Appends the frame to a buffer. -/
def appendTo (f : Ethernet) (buffer : Bytes) : Except Malformed Bytes :=
  f.payload.appendTo (buffer ++ f.header)

/-- The octets of the frame. -/
def encode (f : Ethernet) : Except Malformed Bytes := f.appendTo []

/-- The packet, if the frame carries one. -/
def ipv4? (f : Ethernet) : Option Ipv4 :=
  match f.payload with
  | .ipv4 p => some p
  | _ => none

/-- Whether the frame is for every station. -/
def isBroadcast (f : Ethernet) : Bool := f.destination.isBroadcast

/-- Whether the frame is for a group of stations. -/
def isMulticast (f : Ethernet) : Bool := f.destination.isMulticast

end Ethernet

end Vswitch
