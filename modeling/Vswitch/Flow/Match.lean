import Vswitch.Flow.Key
import Vswitch.Packet.Ethernet

/-!
# Exact matches

The ordered list of keys of one packet: taken out of a frame, read from an attribute stream, and
written to one.
-/

namespace Vswitch

/-- The keys of a packet, in order. -/
abbrev FlowMatch := List FlowKey

namespace FlowMatch

/-! ## Keys of a frame -/

/-- The key of a payload over IPv4, when it has one. -/
def transportKeys : Ipv4Payload → FlowMatch
  | .tcp t => [.tcp t.sourcePort t.destinationPort]
  | .udp u => [.udp u.sourcePort u.destinationPort]
  | .icmp i => [.icmp i.type i.code]
  | .data _ => []

/-- The keys of an IPv4 packet. A fragment after the first has no transport header and so no key of
one. -/
def ipv4Keys (p : Ipv4) : FlowMatch :=
  .ipv4 ⟨p.source, p.destination, p.protocol, p.tos, p.ttl, p.fragmentType⟩
    :: if p.fragmentType = .later then [] else transportKeys p.payload

/-- The key of an ARP message between Ethernet and IPv4 addresses. -/
def arpKeys (a : Arp) : FlowMatch :=
  match a.addresses? with
  | some addrs =>
    [.arp ⟨addrs.senderIp, addrs.targetIp, a.operation, addrs.senderMac, addrs.targetMac⟩]
  | none => []

/-- The keys of what a frame carries. -/
def payloadKeys : EthernetPayload → FlowMatch
  | .ipv4 p => ipv4Keys p
  | .arp a => arpKeys a
  | .lldp _ => []
  | .data _ => []

/-- The key of a tag. -/
def vlanKeys (vlan : Option VlanTag) : FlowMatch :=
  match vlan with
  | some tag => [.vlan (tag.toWord ||| FlowKey.vlanPresent)]
  | none => []

/-- The keys that a datapath takes out of a frame received on a port. -/
def ofFrame (frame : Ethernet) (inPort : UInt32) : FlowMatch :=
  [.inPort inPort, .ethernet frame.source frame.destination] ++ vlanKeys frame.vlan
    ++ [.etherType frame.etherType] ++ payloadKeys frame.payload

/-! ## Look-up -/

/-- The port of the first key that names one. -/
def inPort? (m : FlowMatch) : Option UInt32 :=
  m.findSome? fun
    | .inPort port => some port
    | _ => none

/-- The link-layer source of the first key that names one. -/
def ethernetSource? (m : FlowMatch) : Option MacAddr :=
  m.findSome? fun
    | .ethernet source _ => some source
    | _ => none

/-! ## Attribute streams -/

/-- The keys that a stream spells. -/
def decode (attrs : Attributes) : Except AttrError FlowMatch := attrs.mapM FlowKey.decode

/-- The attributes of the keys. -/
def trees (m : FlowMatch) : List AttrTree := m.map FlowKey.tree

end FlowMatch

end Vswitch
