import Vswitch.Address
import Vswitch.Attribute.Basic
import Vswitch.Attribute.Tree
import Vswitch.Attribute.Value
import Vswitch.Bytes
import Vswitch.Clock
import Vswitch.Datapath.Event
import Vswitch.Datapath.Failure
import Vswitch.Datapath.Families
import Vswitch.Datapath.Operation
import Vswitch.Datapath.Port
import Vswitch.Datapath.Upcall
import Vswitch.Exchange.Basic
import Vswitch.Exchange.Failure
import Vswitch.Exchange.History
import Vswitch.Exchange.Request
import Vswitch.Exchange.Session
import Vswitch.Exchange.Table
import Vswitch.Exchange.Tally
import Vswitch.Flow.Action
import Vswitch.Flow.Calls
import Vswitch.Flow.Entry
import Vswitch.Flow.Field
import Vswitch.Flow.Key
import Vswitch.Flow.Match
import Vswitch.Flow.Wildcard
import Vswitch.Hex
import Vswitch.Netlink.Datagram
import Vswitch.Netlink.Errno
import Vswitch.Netlink.Family
import Vswitch.Netlink.Header
import Vswitch.Netlink.Message
import Vswitch.Packet.Arp
import Vswitch.Packet.Assigned
import Vswitch.Packet.Checksum
import Vswitch.Packet.Dhcp
import Vswitch.Packet.Ethernet
import Vswitch.Packet.Icmp
import Vswitch.Packet.Ipv4
import Vswitch.Packet.Lldp
import Vswitch.Packet.Malformed
import Vswitch.Packet.Tcp
import Vswitch.Packet.Udp
import Vswitch.Topology.Cache
import Vswitch.Topology.Context
import Vswitch.Topology.Traffic
import Vswitch.Uuid
import Vswitch.Proofs.Computation
import Vswitch.Proofs.Exchange.Run
import Vswitch.Proofs.Exchange.Resolution
import Vswitch.Proofs.Exchange.Correlation
import Vswitch.Proofs.Exchange.Exhaustion
import Vswitch.Proofs.Attribute.Writer
import Vswitch.Proofs.Attribute.Reading
import Vswitch.Proofs.Flow.Projection
import Vswitch.Proofs.Flow.Codec
import Vswitch.Proofs.Flow.FrameKey
import Vswitch.Proofs.Flow.Conversion
import Vswitch.Proofs.Packet.Checksum
import Vswitch.Proofs.Packet.Transport
import Vswitch.Proofs.Packet.Link
import Vswitch.Proofs.Packet.Frame
import Vswitch.Proofs.Packet.Sealing
import Vswitch.Proofs.Packet.Reencoding
import Vswitch.Proofs.Packet.Fragment
import Vswitch.Proofs.Packet.Reading
import Vswitch.Proofs.Exchange.Trace
import Vswitch.Proofs.Exchange.Awaiting
import Vswitch.Proofs.Netlink.Datagram
import Vswitch.Proofs.Exchange.Accounting
import Vswitch.Proofs.Exchange.Delivery
import Vswitch.Proofs.Exchange.History
import Vswitch.Proofs.Exchange.LateReply
import Vswitch.Proofs.Exchange.Loss
import Vswitch.Proofs.Exchange.WireLog
import Vswitch.Proofs.Exchange.Departure
import Vswitch.Proofs.Exchange.Framing
import Vswitch.Proofs.Datapath.Request
import Vswitch.Proofs.Datapath.Dump
import Vswitch.Proofs.Topology.ConnectionKey
import Vswitch.Proofs.Topology.Cache
import Vswitch.Proofs.Topology.Context
import Vswitch.Proofs.Topology.Tracking
import Vswitch.Proofs.Topology.OneWay
import Vswitch.Proofs.Topology.Expiry
import Vswitch.Proofs.Packet.Verbatim
import Vswitch.Proofs.Packet.Forwarding
import Vswitch.Proofs.Packet.Nesting
import Vswitch.Proofs.Packet.Lengths
import Vswitch.Proofs.Packet.Options
import Vswitch.Proofs.Packet.Elements
import Vswitch.Proofs.Packet.Appending
import Vswitch.Proofs.Packet.Padding
import Vswitch.Proofs.Exchange.Cause
import Vswitch.Proofs.Exchange.Sweep
import Vswitch.Proofs.Exchange.BackPressure
import Vswitch.Proofs.Exchange.RoundTrip
import Vswitch.Proofs.Flow.Recovery
import Vswitch.Proofs.Attribute.Grammar
import Vswitch.Proofs.Flow.Carrying
import Vswitch.Proofs.Flow.Covering
import Vswitch.Proofs.Flow.Provenance
import Vswitch.Proofs.Topology.Touch
import Vswitch.Proofs.Netlink.Grammar
import Vswitch.Proofs.Attribute.Typed
import Vswitch.Proofs.Exchange.Refusal
import Vswitch.Proofs.Datapath.NotFound
import Vswitch.Proofs.Packet.Folding
import Vswitch.Proofs.Netlink.Family
