import Vswitch.Bytes

/-!
# Malformed packets

The causes for which a packet cannot be decoded, or a value cannot be encoded, and their texts.
-/

namespace Vswitch

/-- The headers that have a codec. -/
inductive Protocol where
  | ethernet
  | ipv4
  | udp
  | tcp
  | icmp
  | arp
  | lldp
  | dhcp
  deriving DecidableEq, Repr

/-- The name of a header in error texts. -/
def Protocol.label : Protocol → String
  | .ethernet => "ethernet"
  | .ipv4 => "ipv4"
  | .udp => "udp"
  | .tcp => "tcp"
  | .icmp => "icmp"
  | .arp => "arp"
  | .lldp => "lldp"
  | .dhcp => "dhcp"

/-- The fields whose value may be refused or missing. -/
inductive PacketField where
  | version
  | ihl
  | totalLength
  | length
  | dataOffset
  | tlvType
  | tlvLength
  | magicCookie
  | chassisId
  | portId
  | timeToLive
  deriving DecidableEq, Repr

/-- The name of a field in error texts. -/
def PacketField.label : PacketField → String
  | .version => "version"
  | .ihl => "ihl"
  | .totalLength => "total length"
  | .length => "length"
  | .dataOffset => "data offset"
  | .tlvType => "tlv type"
  | .tlvLength => "tlv length"
  | .magicCookie => "magic cookie"
  | .chassisId => "chassis id"
  | .portId => "port id"
  | .timeToLive => "ttl"

/-- Why a packet cannot be decoded, or a value cannot be encoded. -/
inductive Malformed where
  /-- Fewer octets are there than the header needs. -/
  | truncated (header : Protocol) (needed available : Nat)
  /-- A field holds a value that it cannot have. -/
  | invalidField (header : Protocol) (field : PacketField) (value : Nat)
  /-- A mandatory part is absent. -/
  | missing (header : Protocol) (field : PacketField)
  deriving DecidableEq, Repr

namespace Malformed

/-- The text of the error. -/
def message : Malformed → String
  | .truncated header needed available =>
    let name := header.label
    s!"{name} truncated: need {needed} bytes, {available} available"
  | .invalidField header field value =>
    let name := header.label
    let part := field.label
    s!"{name}: invalid {part} {value}"
  | .missing header field =>
    let name := header.label
    let part := field.label
    s!"{name}: missing {part}"

end Malformed

/-- Demands that `data` holds at least `needed` octets. -/
def expectOctets (header : Protocol) (needed : Nat) (data : Bytes) : Except Malformed Unit :=
  if data.Covers needed then .ok () else .error (.truncated header needed data.length)

/-- A length that has to fit its 16-bit field. -/
def lengthField (header : Protocol) (field : PacketField) (len : Nat) : Except Malformed UInt16 :=
  if len < 65536 then .ok (UInt16.ofNat len) else .error (.invalidField header field len)

end Vswitch
