/-!
# Assigned numbers

The numbers by which one header announces the next.
-/

namespace Vswitch

/-! ## Ether types -/

namespace EtherType

def ipv4 : UInt16 := 0x0800
def arp : UInt16 := 0x0806
def vlan : UInt16 := 0x8100
def lldp : UInt16 := 0x88cc

end EtherType

/-! ## Protocols over IPv4 -/

namespace IpProtocol

def icmp : UInt8 := 1
def tcp : UInt8 := 6
def udp : UInt8 := 17

end IpProtocol

/-! ## Ports over UDP -/

namespace UdpPort

def dhcpServer : UInt16 := 67
def dhcpClient : UInt16 := 68

/-- Whether datagrams on a port carry DHCP. -/
def isDhcp (port : UInt16) : Bool := port == dhcpServer || port == dhcpClient

end UdpPort

end Vswitch
