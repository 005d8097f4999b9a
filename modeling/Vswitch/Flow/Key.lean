import Vswitch.Attribute.Tree
import Vswitch.Attribute.Value
import Vswitch.Packet.Ipv4

/-!
# Flow keys

The exact values that a datapath takes out of a packet, one attribute for each layer, as it reports and
accepts them. A key of a kind that is not modelled is carried through with its value.

* `FlowKey.decode`: the key that an attribute spells;
* `FlowKey.tree`: the attribute of a key.
-/

namespace Vswitch

/-! ## Kinds of attributes -/

namespace KeyKind

def priority : UInt16 := 2
def inPort : UInt16 := 3
def ethernet : UInt16 := 4
def vlan : UInt16 := 5
def etherType : UInt16 := 6
def ipv4 : UInt16 := 7
def tcp : UInt16 := 9
def udp : UInt16 := 10
def icmp : UInt16 := 11
def arp : UInt16 := 13
def skbMark : UInt16 := 15
def tunnel : UInt16 := 16

end KeyKind

namespace TunnelKind

def id : UInt16 := 0
def source : UInt16 := 1
def destination : UInt16 := 2
def tos : UInt16 := 3
def ttl : UInt16 := 4
def dontFragment : UInt16 := 5
def checksum : UInt16 := 6

end TunnelKind

/-! ## Keys -/

/-- The network layer of an IPv4 packet. -/
structure Ipv4Key where
  source : Ipv4Addr
  destination : Ipv4Addr
  protocol : UInt8
  tos : UInt8
  ttl : UInt8
  fragment : FragmentType
  deriving DecidableEq, Repr, Inhabited

/-- The addresses and the operation of an ARP message. -/
structure ArpKey where
  senderIp : Ipv4Addr
  targetIp : Ipv4Addr
  operation : UInt16
  senderMac : MacAddr
  targetMac : MacAddr
  deriving DecidableEq, Repr, Inhabited

/-- The outer header of a packet that came through a tunnel, as far as it is known. -/
structure TunnelKey where
  id : Option UInt64
  source : Option Ipv4Addr
  destination : Option Ipv4Addr
  tos : Option UInt8
  ttl : Option UInt8
  dontFragment : Bool
  checksum : Bool
  deriving DecidableEq, Repr, Inhabited

/-- One exact key. -/
inductive FlowKey where
  | priority (value : UInt32)
  | inPort (value : UInt32)
  | ethernet (source destination : MacAddr)
  /-- The control word, with `FlowKey.vlanPresent` set for a tagged frame. -/
  | vlan (value : UInt16)
  | etherType (value : UInt16)
  | ipv4 : Ipv4Key → FlowKey
  | tcp (source destination : UInt16)
  | udp (source destination : UInt16)
  | icmp (type code : UInt8)
  | arp : ArpKey → FlowKey
  | skbMark (value : UInt32)
  | tunnel : TunnelKey → FlowKey
  /-- A key of another kind, with its value as it came. -/
  | unknown (type : UInt16) (value : Bytes)
  deriving DecidableEq, Repr, Inhabited

namespace FlowKey

/-- The bit of a control word that marks a tagged frame. -/
def vlanPresent : UInt16 := 0x1000

/-- The kind of attribute that spells a key. -/
def kind : FlowKey → UInt16
  | .priority _ => KeyKind.priority
  | .inPort _ => KeyKind.inPort
  | .ethernet _ _ => KeyKind.ethernet
  | .vlan _ => KeyKind.vlan
  | .etherType _ => KeyKind.etherType
  | .ipv4 _ => KeyKind.ipv4
  | .tcp _ _ => KeyKind.tcp
  | .udp _ _ => KeyKind.udp
  | .icmp _ _ => KeyKind.icmp
  | .arp _ => KeyKind.arp
  | .skbMark _ => KeyKind.skbMark
  | .tunnel _ => KeyKind.tunnel
  | .unknown type _ => type

/-! ## Reading -/

/-- The two ports in the first four octets of a value. -/
def decodePorts (a : Attr) : Except AttrError (UInt16 × UInt16) := do
  let raw ← a.atLeast 4 4
  return (raw.be16At 0, raw.be16At 2)

/-- The network layer in the first twelve octets of a value. -/
def decodeIpv4 (a : Attr) : Except AttrError Ipv4Key := do
  let raw ← a.atLeast 12 12
  match FragmentType.ofOctet? (raw.octet 11) with
  | none => throw (.invalidValue a.kind (raw.octet 11).toNat)
  | some fragment =>
    return ⟨Ipv4Addr.ofBytes raw 0, Ipv4Addr.ofBytes raw 4, raw.octet 8, raw.octet 9, raw.octet 10,
      fragment⟩

/-- The ARP message in the first twenty-two octets of a value, whose padding to twenty-four octets may
be absent. -/
def decodeArp (a : Attr) : Except AttrError ArpKey := do
  let raw ← a.atLeast 24 22
  return ⟨Ipv4Addr.ofBytes raw 0, Ipv4Addr.ofBytes raw 4, raw.be16At 8, MacAddr.ofBytes raw 10,
    MacAddr.ofBytes raw 16⟩

/-- The outer header in a nested stream. -/
def decodeTunnel (a : Attr) : Except AttrError TunnelKey := do
  let attrs ← a.asNested
  let id ← attrs.read? Attr.asBe64 TunnelKind.id
  let source ← attrs.read? Attr.asIpv4 TunnelKind.source
  let destination ← attrs.read? Attr.asIpv4 TunnelKind.destination
  let tos ← attrs.read? Attr.asU8 TunnelKind.tos
  let ttl ← attrs.read? Attr.asU8 TunnelKind.ttl
  return ⟨id, source, destination, tos, ttl, attrs.has TunnelKind.dontFragment,
    attrs.has TunnelKind.checksum⟩

/-- The key that an attribute spells. -/
def decode (a : Attr) : Except AttrError FlowKey :=
  let kind := a.kind
  if kind = KeyKind.priority then return .priority (← a.asU32)
  else if kind = KeyKind.inPort then return .inPort (← a.asU32)
  else if kind = KeyKind.ethernet then do
    let raw ← a.atLeast 12 12
    return .ethernet (MacAddr.ofBytes raw 0) (MacAddr.ofBytes raw 6)
  else if kind = KeyKind.vlan then return .vlan (← a.asBe16)
  else if kind = KeyKind.etherType then return .etherType (← a.asBe16)
  else if kind = KeyKind.ipv4 then return .ipv4 (← decodeIpv4 a)
  else if kind = KeyKind.tcp then do
    let (source, destination) ← decodePorts a
    return .tcp source destination
  else if kind = KeyKind.udp then do
    let (source, destination) ← decodePorts a
    return .udp source destination
  else if kind = KeyKind.icmp then do
    let raw ← a.atLeast 2 2
    return .icmp (raw.octet 0) (raw.octet 1)
  else if kind = KeyKind.arp then return .arp (← decodeArp a)
  else if kind = KeyKind.skbMark then return .skbMark (← a.asU32)
  else if kind = KeyKind.tunnel then return .tunnel (← decodeTunnel a)
  else return .unknown kind a.value

/-! ## Writing -/

/-- The octets of the network layer. -/
def ipv4Octets (key : Ipv4Key) : Bytes :=
  key.source.octets ++ key.destination.octets
    ++ [key.protocol, key.tos, key.ttl, key.fragment.toOctet]

/-- The octets of an ARP message, padded to twenty-four. -/
def arpOctets (key : ArpKey) : Bytes :=
  key.senderIp.octets ++ key.targetIp.octets ++ Bytes.be16 key.operation ++ key.senderMac.octets
    ++ key.targetMac.octets ++ Bytes.zeros 2

/-- The attributes of an outer header, those that are known. -/
def tunnelTrees (key : TunnelKey) : List AttrTree :=
  (key.id.map (AttrTree.be64 TunnelKind.id)).toList
    ++ (key.source.map (AttrTree.ipv4 TunnelKind.source)).toList
    ++ (key.destination.map (AttrTree.ipv4 TunnelKind.destination)).toList
    ++ (key.tos.map (AttrTree.u8 TunnelKind.tos)).toList
    ++ (key.ttl.map (AttrTree.u8 TunnelKind.ttl)).toList
    ++ (if key.dontFragment then [AttrTree.flag TunnelKind.dontFragment] else [])
    ++ (if key.checksum then [AttrTree.flag TunnelKind.checksum] else [])

/-- The attribute that spells a key. -/
def tree : FlowKey → AttrTree
  | .priority value => .u32 KeyKind.priority value
  | .inPort port => .u32 KeyKind.inPort port
  | .ethernet source destination => .leaf KeyKind.ethernet (source.octets ++ destination.octets)
  | .vlan word => .be16 KeyKind.vlan word
  | .etherType type => .be16 KeyKind.etherType type
  | .ipv4 key => .leaf KeyKind.ipv4 (ipv4Octets key)
  | .tcp source destination => .leaf KeyKind.tcp (Bytes.be16 source ++ Bytes.be16 destination)
  | .udp source destination => .leaf KeyKind.udp (Bytes.be16 source ++ Bytes.be16 destination)
  | .icmp type code => .leaf KeyKind.icmp [type, code]
  | .arp key => .leaf KeyKind.arp (arpOctets key)
  | .skbMark mark => .u32 KeyKind.skbMark mark
  | .tunnel key => .node KeyKind.tunnel (tunnelTrees key)
  | .unknown type value => .leaf type value

end FlowKey

end Vswitch
