import Mathlib
import Vswitch.Proofs.Computation
import Vswitch.Proofs.Packet.Sealing

/-!
# What a decoder has found

A value that was read says where it was read from. Each header announces the next one, so that the
numbers by which it does are those of what was read behind it; a value that was put together need not
be so, since the encoder writes the right numbers in any case.

* `Ipv4.ReadFrom`, `Ipv4.of_decode`, `Ethernet.of_decode`: where the fields were read;
* `Ipv4.fields_of_header`: what is read of a header that was written;
* `Ipv4.announced`, `Ethernet.announced`: a value with the numbers that are written for it;
* `Ethernet.announced_of_decode`: a frame that was read has these numbers.
-/

namespace Vswitch

/-! ## Segments -/

/-- The ports of a segment are its first two words. -/
theorem Tcp.ports_of_decode {data : Bytes} {t : Tcp} (h : decode data = .ok t) :
    t.sourcePort = data.be16At 0 ∧ t.destinationPort = data.be16At 2 ∧ 20 ≤ data.length := by
  obtain ⟨_, hcovers, h⟩ := bind_eq_ok.mp h
  obtain ⟨-, h⟩ := refuse_eq_ok.mp h
  obtain ⟨_, -, h⟩ := bind_eq_ok.mp h
  obtain rfl := Except.ok.inj h
  exact ⟨rfl, rfl, le_of_expectOctets hcovers⟩

/-- A datagram that is read has its ports in front. -/
theorem Udp.ports_of_decode {data : Bytes} {u : Udp} (h : decode data = .ok u) :
    u.sourcePort = data.be16At 0 ∧ u.destinationPort = data.be16At 2 ∧ 8 ≤ data.length := by
  obtain ⟨_, hcovers, h⟩ := bind_eq_ok.mp h
  obtain ⟨-, h⟩ := refuse_eq_ok.mp h
  obtain ⟨_, -, h⟩ := bind_eq_ok.mp h
  obtain ⟨payload, -, h⟩ := bind_eq_ok.mp h
  obtain rfl := Except.ok.inj h
  exact ⟨rfl, rfl, le_of_expectOctets hcovers⟩

/-- Type and code of a message are its first two octets. -/
theorem Icmp.type_of_decode {data : Bytes} {i : Icmp} (h : decode data = .ok i) :
    i.type = data.octet 0 ∧ i.code = data.octet 1 ∧ 8 ≤ data.length := by
  obtain ⟨_, hcovers, h⟩ := bind_eq_ok.mp h
  obtain rfl := Except.ok.inj h
  exact ⟨rfl, rfl, le_of_expectOctets hcovers⟩

/-! ## Packets -/

namespace Ipv4Payload

/-- What was read as a header of its own was announced by its number. -/
theorem protocol_of_decode {protocol : UInt8} {data : Bytes} {payload : Ipv4Payload}
    (h : decode protocol data = .ok payload) : payload.protocol?.getD protocol = protocol := by
  rw [decode] at h
  split_ifs at h with htcp hudp hicmp
  · obtain ⟨t, -, hvalue⟩ := bind_eq_ok.mp h
    obtain rfl := Except.ok.inj hvalue
    exact htcp.symm
  · obtain ⟨u, -, hvalue⟩ := bind_eq_ok.mp h
    obtain rfl := Except.ok.inj hvalue
    exact hudp.symm
  · obtain ⟨i, -, hvalue⟩ := bind_eq_ok.mp h
    obtain rfl := Except.ok.inj hvalue
    exact hicmp.symm
  · obtain rfl := Except.ok.inj h
    rfl

end Ipv4Payload

namespace Ipv4

/-- The octets behind the header, as far as the total length goes. -/
def saidBody (data : Bytes) : Bytes :=
  data.slice (saidHeaderLength data) ((data.be16At 2).toNat - saidHeaderLength data)

/-- Where the fields of a packet were read, and what its lengths say. -/
structure ReadFrom (data : Bytes) (p : Ipv4) : Prop where
  version : data.octet 0 >>> 4 = 4
  ihl : p.ihl = data.octet 0 &&& 0x0f
  tos : p.tos = data.octet 1
  totalLength : p.totalLength = data.be16At 2
  identification : p.identification = data.be16At 4
  flags : p.flags = (data.be16At 6 >>> 13).toUInt8
  fragmentOffset : p.fragmentOffset = data.be16At 6 &&& 0x1fff
  ttl : p.ttl = data.octet 8
  protocol : p.protocol = data.octet 9
  checksum : p.checksum = data.be16At 10
  source : p.source = Ipv4Addr.ofBytes data 12
  destination : p.destination = Ipv4Addr.ofBytes data 16
  options : p.options = data.slice 20 (4 * p.ihl.toNat - 20)
  minimal : 20 ≤ 4 * p.ihl.toNat
  holdsHeader : 4 * p.ihl.toNat ≤ p.totalLength.toNat
  isWhole : p.totalLength.toNat ≤ data.length
  leading : p.fragmentOffset = 0 → Ipv4Payload.decode p.protocol (saidBody data) = .ok p.payload
  later : p.fragmentOffset ≠ 0 → p.payload = .data (saidBody data)

/-- What is read of a packet was in it, where the header says. -/
theorem of_decode {data : Bytes} {p : Ipv4} (h : decode data = .ok p) : ReadFrom data p := by
  obtain ⟨_, -, h⟩ := bind_eq_ok.mp h
  obtain ⟨hversion, h⟩ := refuse_eq_ok.mp h
  obtain ⟨hminimal, h⟩ := refuse_eq_ok.mp h
  obtain ⟨_, -, h⟩ := bind_eq_ok.mp h
  obtain ⟨hholds, h⟩ := refuse_eq_ok.mp h
  obtain ⟨_, hwhole, h⟩ := bind_eq_ok.mp h
  dsimp only at h
  -- a fragment after the first is not looked into
  obtain ⟨payload, hleading, hlater, h⟩ : ∃ payload,
      (data.be16At 6 &&& 0x1fff = 0 →
        Ipv4Payload.decode (data.octet 9) (saidBody data) = .ok payload) ∧
      (data.be16At 6 &&& 0x1fff ≠ 0 → payload = .data (saidBody data)) ∧ _ := by
    split_ifs at h with hoffset
    · obtain ⟨payload, hpayload, h⟩ := bind_eq_ok.mp h
      exact ⟨payload, fun hzero => absurd hzero hoffset, fun _ => (Except.ok.inj hpayload).symm, h⟩
    · obtain ⟨payload, hpayload, h⟩ := bind_eq_ok.mp h
      exact ⟨payload, fun _ => hpayload, fun hne => absurd hne hoffset, h⟩
  obtain rfl := Except.ok.inj h
  exact {
    version := not_not.mp hversion
    ihl := rfl, tos := rfl, totalLength := rfl, identification := rfl, flags := rfl
    fragmentOffset := rfl, ttl := rfl, protocol := rfl, checksum := rfl, source := rfl
    destination := rfl, options := rfl
    minimal := Nat.le_of_not_lt hminimal
    holdsHeader := Nat.le_of_not_lt hholds
    isWhole := le_of_expectOctets hwhole
    leading := hleading
    later := hlater }

/-- The fields of a header are read as they were written, each cut to the bits that it has. -/
theorem fields_of_header {p q : Ipv4} {total : UInt16} {tail : Bytes}
    (h : decode (p.header total ++ tail) = .ok q) :
    q.source = p.source ∧ q.destination = p.destination ∧ q.tos = p.tos ∧ q.ttl = p.ttl ∧
      q.protocol = p.payload.protocol?.getD p.protocol ∧ q.flags = p.flags &&& 7 ∧
      q.fragmentOffset = p.fragmentOffset &&& 0x1fff := by
  have hread := of_decode h
  obtain ⟨-, htos, -, -, hfragment, httl, hprotocol, -, hsource, hdestination⟩ :=
    p.read_header total tail
  have hflags : q.flags = p.flags &&& 7 := by
    rw [hread.flags, hfragment, fragmentWord_high]
  have hoffset : q.fragmentOffset = p.fragmentOffset &&& 0x1fff := by
    rw [hread.fragmentOffset, hfragment, fragmentWord_low]
  exact ⟨hread.source.trans hsource, hread.destination.trans hdestination, hread.tos.trans htos,
    hread.ttl.trans httl, hread.protocol.trans hprotocol, hflags, hoffset⟩

/-- The packet with the protocol number that is written for it. -/
def announced (p : Ipv4) : Ipv4 := { p with protocol := p.payload.protocol?.getD p.protocol }

/-- A packet that is read announces what it carries. -/
theorem announced_of_decode {data : Bytes} {p : Ipv4} (h : decode data = .ok p) :
    p.announced = p := by
  have hread := of_decode h
  have hprotocol : p.payload.protocol?.getD p.protocol = p.protocol := by
    by_cases hoffset : p.fragmentOffset = 0
    · exact Ipv4Payload.protocol_of_decode (hread.leading hoffset)
    · rw [hread.later hoffset]
      rfl
  rw [announced, hprotocol]

end Ipv4

/-! ## Frames -/

namespace EthernetPayload

/-- The payload with the numbers that are written for it. -/
def announced : EthernetPayload → EthernetPayload
  | .ipv4 p => .ipv4 p.announced
  | p => p

variable {type : UInt16} {data : Bytes} {payload : EthernetPayload}

/-- What was read as a header of its own was announced by its ether type. -/
theorem etherType_of_decode (h : decode type data = .ok payload) :
    payload.etherType?.getD type = type := by
  rw [decode] at h
  split_ifs at h with hipv4 harp hlldp
  · obtain ⟨p, -, hvalue⟩ := bind_eq_ok.mp h
    obtain rfl := Except.ok.inj hvalue
    exact hipv4.symm
  · obtain ⟨a, -, hvalue⟩ := bind_eq_ok.mp h
    obtain rfl := Except.ok.inj hvalue
    exact harp.symm
  · obtain ⟨l, -, hvalue⟩ := bind_eq_ok.mp h
    obtain rfl := Except.ok.inj hvalue
    exact hlldp.symm
  · obtain rfl := Except.ok.inj h
    rfl

/-- IPv4 is read under its type only. -/
theorem decode_eq_ipv4 {p : Ipv4} :
    decode type data = .ok (.ipv4 p) ↔ type = EtherType.ipv4 ∧ Ipv4.decode data = .ok p := by
  constructor
  · intro h
    obtain rfl : EtherType.ipv4 = type := etherType_of_decode h
    rw [decode, if_pos rfl] at h
    obtain ⟨q, hread, hvalue⟩ := bind_eq_ok.mp h
    obtain rfl := EthernetPayload.ipv4.inj (Except.ok.inj hvalue)
    exact ⟨rfl, hread⟩
  · rintro ⟨rfl, hread⟩
    rw [decode, if_pos rfl, hread]
    rfl

/-- So is ARP. -/
theorem decode_eq_arp {a : Arp} :
    decode type data = .ok (.arp a) ↔ type = EtherType.arp ∧ Arp.decode data = .ok a := by
  have hne : EtherType.arp ≠ EtherType.ipv4 := by decide
  constructor
  · intro h
    obtain rfl : EtherType.arp = type := etherType_of_decode h
    rw [decode, if_neg hne, if_pos rfl] at h
    obtain ⟨b, hread, hvalue⟩ := bind_eq_ok.mp h
    obtain rfl := EthernetPayload.arp.inj (Except.ok.inj hvalue)
    exact ⟨rfl, hread⟩
  · rintro ⟨rfl, hread⟩
    rw [decode, if_neg hne, if_pos rfl, hread]
    rfl

/-- What is read is IPv4 just if the type says so. -/
theorem isIpv4_iff_of_decode (h : decode type data = .ok payload) :
    (∃ p, payload = .ipv4 p) ↔ type = EtherType.ipv4 := by
  constructor
  · rintro ⟨p, rfl⟩
    exact (decode_eq_ipv4.mp h).1
  · rintro rfl
    rw [decode, if_pos rfl] at h
    obtain ⟨p, -, hvalue⟩ := bind_eq_ok.mp h
    exact ⟨p, (Except.ok.inj hvalue).symm⟩

/-- A payload that is read announces what it carries. -/
theorem announced_of_decode (h : decode type data = .ok payload) : payload.announced = payload := by
  cases payload with
  | ipv4 p => exact congrArg EthernetPayload.ipv4 (Ipv4.announced_of_decode (decode_eq_ipv4.mp h).2)
  | arp | lldp | data => rfl

end EthernetPayload

namespace Ethernet

variable {data : Bytes} {f : Ethernet}

/-- A frame is read by the type behind its addresses, or by the one behind a tag in that place. -/
theorem of_decode (h : decode data = .ok f) :
    14 ≤ data.length ∧ f.destination = MacAddr.ofBytes data 0 ∧ f.source = MacAddr.ofBytes data 6 ∧
      (data.be16At 12 ≠ EtherType.vlan ∧ f.vlan = none ∧ f.etherType = data.be16At 12 ∧
          EthernetPayload.decode f.etherType (data.drop 14) = .ok f.payload ∨
        data.be16At 12 = EtherType.vlan ∧ 18 ≤ data.length ∧
          f.vlan = some (VlanTag.ofWord (data.be16At 14)) ∧ f.etherType = data.be16At 16 ∧
          EthernetPayload.decode f.etherType (data.drop 18) = .ok f.payload) := by
  obtain ⟨_, hcovers, h⟩ := bind_eq_ok.mp h
  have hlength : 14 ≤ data.length := le_of_expectOctets hcovers
  dsimp only at h
  split_ifs at h with htagged
  · obtain ⟨_, hcovers, h⟩ := bind_eq_ok.mp h
    obtain ⟨payload, hpayload, h⟩ := bind_eq_ok.mp h
    obtain rfl := Except.ok.inj h
    exact ⟨hlength, rfl, rfl, .inr ⟨htagged, le_of_expectOctets hcovers, rfl, rfl, hpayload⟩⟩
  · obtain ⟨payload, hpayload, h⟩ := bind_eq_ok.mp h
    obtain rfl := Except.ok.inj h
    exact ⟨hlength, rfl, rfl, .inl ⟨htagged, rfl, rfl, hpayload⟩⟩

/-- What a frame carries was read by its ether type. -/
theorem payload_of_decode (h : decode data = .ok f) :
    ∃ body, EthernetPayload.decode f.etherType body = .ok f.payload := by
  rcases of_decode h with ⟨-, -, -, ⟨-, -, -, hpayload⟩ | ⟨-, -, -, -, hpayload⟩⟩
  · exact ⟨_, hpayload⟩
  · exact ⟨_, hpayload⟩

/-- The frame with the numbers that are written for it. -/
def announced (f : Ethernet) : Ethernet :=
  { f with etherType := f.payload.etherType?.getD f.etherType, payload := f.payload.announced }

/-- And so does a frame. -/
theorem announced_of_decode (h : decode data = .ok f) : f.announced = f := by
  obtain ⟨body, hpayload⟩ := payload_of_decode h
  rw [announced, EthernetPayload.etherType_of_decode hpayload,
    EthernetPayload.announced_of_decode hpayload]

end Ethernet

end Vswitch
