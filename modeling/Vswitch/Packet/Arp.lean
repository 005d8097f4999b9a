import Vswitch.Address
import Vswitch.Packet.Assigned
import Vswitch.Packet.Malformed

/-!
# ARP

The four addresses keep the lengths that the header announces; they are read as link-layer and
network addresses only when all four have the lengths of Ethernet and IPv4.
-/

namespace Vswitch

/-- An address resolution message. -/
structure Arp where
  hardwareType : UInt16
  protocolType : UInt16
  operation : UInt16
  senderHardware : Bytes
  senderProtocol : Bytes
  targetHardware : Bytes
  targetProtocol : Bytes
  deriving DecidableEq, Repr, Inhabited

namespace Arp

/-- Octets in front of the addresses. -/
def fixedLength : Nat := 8

/-- The hardware type of Ethernet. -/
def hardwareEthernet : UInt16 := 1

def operationRequest : UInt16 := 1
def operationReply : UInt16 := 2

/-! ## Messages between Ethernet and IPv4 addresses -/

/-- A message with addresses of Ethernet and IPv4. -/
def ofAddresses (operation : UInt16) (senderMac : MacAddr) (senderIp : Ipv4Addr)
    (targetMac : MacAddr) (targetIp : Ipv4Addr) : Arp :=
  ⟨hardwareEthernet, EtherType.ipv4, operation, senderMac.octets, senderIp.octets, targetMac.octets,
    targetIp.octets⟩

/-- The question which station has the address `targetIp`. -/
def request (senderMac : MacAddr) (senderIp targetIp : Ipv4Addr) : Arp :=
  ofAddresses operationRequest senderMac senderIp MacAddr.zero targetIp

/-- The answer that `senderMac` has the address `senderIp`. -/
def reply (senderMac : MacAddr) (senderIp : Ipv4Addr) (targetMac : MacAddr) (targetIp : Ipv4Addr) :
    Arp :=
  ofAddresses operationReply senderMac senderIp targetMac targetIp

/-- Whether all four addresses have the lengths of Ethernet and IPv4. -/
def isEthernetIpv4 (a : Arp) : Bool :=
  a.senderHardware.length == 6 && a.targetHardware.length == 6 && a.senderProtocol.length == 4
    && a.targetProtocol.length == 4

/-- The four addresses of a message between Ethernet and IPv4 addresses. -/
structure Addresses where
  senderMac : MacAddr
  targetMac : MacAddr
  senderIp : Ipv4Addr
  targetIp : Ipv4Addr
  deriving DecidableEq, Repr

/-- The addresses, when they are those of Ethernet and IPv4. -/
def addresses? (a : Arp) : Option Addresses :=
  if a.isEthernetIpv4 then
    some ⟨MacAddr.ofBytes a.senderHardware 0, MacAddr.ofBytes a.targetHardware 0,
      Ipv4Addr.ofBytes a.senderProtocol 0, Ipv4Addr.ofBytes a.targetProtocol 0⟩
  else
    none

/-! ## Codec -/

/-- Reads a message; octets past its addresses are left alone. -/
def decode (data : Bytes) : Except Malformed Arp := do
  expectOctets .arp fixedLength data
  let hardware := (data.octet 4).toNat
  let protocol := (data.octet 5).toNat
  expectOctets .arp (fixedLength + 2 * (hardware + protocol)) data
  return {
    hardwareType := data.be16At 0
    protocolType := data.be16At 2
    operation := data.be16At 6
    senderHardware := data.slice fixedLength hardware
    senderProtocol := data.slice (fixedLength + hardware) protocol
    targetHardware := data.slice (fixedLength + hardware + protocol) hardware
    targetProtocol := data.slice (fixedLength + 2 * hardware + protocol) protocol }

/-- Appends the message to a buffer. The announced lengths are those of the sender. -/
def appendTo (a : Arp) (buffer : Bytes) : Bytes :=
  buffer ++ Bytes.be16 a.hardwareType ++ Bytes.be16 a.protocolType
    ++ [UInt8.ofNat a.senderHardware.length, UInt8.ofNat a.senderProtocol.length]
    ++ Bytes.be16 a.operation ++ a.senderHardware ++ a.senderProtocol ++ a.targetHardware
    ++ a.targetProtocol

/-- The octets of the message. -/
def encode (a : Arp) : Bytes := a.appendTo []

end Arp

end Vswitch
