import Mathlib
import Vswitch.Flow.Match
import Vswitch.Proofs.Packet.Reading

/-!
# The key of a frame and of its octets

The keys that are taken out of a frame are to be those that a datapath takes out of its octets. They
are if the frame holds the numbers that are written for it, and only then: a frame whose ether type or
protocol number is an old one goes by it in its own keys, and by the right one on the wire. Lengths that
do not cover what they speak of make the octets those of another frame, and are left out here.

* `FlowMatch.segmentKeys`: the key of a segment is told by its first four octets;
* `FlowMatch.ipv4Keys_of_encoded`: a packet and what is read of its octets;
* `FlowMatch.ofFrame_announced_eq_iff`: keys tell the numbers that are written from old ones;
* `FlowMatch.ofFrame_encoded`: a frame and what is read of its octets.
-/

namespace Vswitch

/-! ## Segments -/

/-- The checksum is filled in behind the ports. -/
theorem Tcp.exists_appendTo_eq (t : Tcp) (pseudo : PseudoHeader) : ∃ tail,
    t.appendTo [] (some pseudo) = Bytes.be16 t.sourcePort ++ Bytes.be16 t.destinationPort ++ tail := by
  obtain ⟨checksum, hwritten⟩ := t.exists_appendTo_header [] (some pseudo)
  obtain ⟨rest, hany⟩ := t.exists_header_eq
  rw [hwritten, hany, front]
  simp only [List.append_assoc, List.nil_append]
  exact ⟨_, rfl⟩

/-- Length and checksum are filled in behind the ports. -/
theorem Udp.exists_appendTo_eq {u : Udp} {pseudo : PseudoHeader} {segment : Bytes}
    (h : u.appendTo [] (some pseudo) = .ok segment) : ∃ tail,
      segment = Bytes.be16 u.sourcePort ++ Bytes.be16 u.destinationPort ++ tail := by
  obtain ⟨tail, htail⟩ : ∃ tail, u.payload.appendTo ([] ++ u.header) =
      Bytes.be16 u.sourcePort ++ Bytes.be16 u.destinationPort ++ tail := by
    rw [UdpPayload.appendTo_eq]
    simp only [header, List.append_assoc, List.nil_append]
    exact ⟨_, rfl⟩
  have hbehind (i : Nat) (ys field : Bytes) :
      (Bytes.be16 u.sourcePort ++ Bytes.be16 u.destinationPort ++ ys).overwrite
          (([] : Bytes).length + (i + 4)) field =
        Bytes.be16 u.sourcePort ++ Bytes.be16 u.destinationPort ++ ys.overwrite i field := by
    rw [Bytes.overwrite_behind (by simp)]
    simp
  rw [appendTo] at h
  simp only [htail, hbehind 0, hbehind 2] at h
  split_ifs at h
  all_goals
    obtain ⟨length, -, h⟩ := bind_eq_ok.mp h
    exact ⟨_, (Except.ok.inj h).symm⟩

/-- The checksum is filled in behind type and code. -/
theorem Icmp.exists_appendTo_eq (i : Icmp) : ∃ tail, i.appendTo [] = [i.type, i.code] ++ tail := by
  obtain ⟨tail, htail⟩ : ∃ tail, [] ++ i.header ++ i.data = [i.type, i.code] ++ tail := by
    simp only [header, List.append_assoc, List.nil_append]
    exact ⟨_, rfl⟩
  rw [appendTo]
  simp only [htail]
  split_ifs
  · rw [Bytes.overwrite_behind (by simp)]
    exact ⟨_, rfl⟩
  · exact ⟨_, rfl⟩

namespace Ipv4Payload

/-- The octets at the front of a segment that tell its key. -/
def front : Ipv4Payload → Bytes
  | .tcp t => Bytes.be16 t.sourcePort ++ Bytes.be16 t.destinationPort
  | .udp u => Bytes.be16 u.sourcePort ++ Bytes.be16 u.destinationPort
  | .icmp i => [i.type, i.code]
  | .data _ => []

/-- Nothing that the encoder fills in stands at the front. -/
theorem exists_appendTo_eq {p : Ipv4Payload} {pseudo : PseudoHeader} {segment : Bytes}
    (h : p.appendTo [] pseudo = .ok segment) : ∃ tail, segment = p.front ++ tail := by
  cases p with
  | tcp t =>
    obtain rfl := Except.ok.inj h
    exact t.exists_appendTo_eq pseudo
  | udp u => exact Udp.exists_appendTo_eq h
  | icmp i =>
    obtain rfl := Except.ok.inj h
    exact i.exists_appendTo_eq
  | data bytes => exact ⟨segment, rfl⟩

end Ipv4Payload

namespace FlowMatch

/-- The key of a segment, told by its first four octets and the protocol number. -/
def segmentKeys (protocol : UInt8) (segment : Bytes) : FlowMatch :=
  if protocol = IpProtocol.tcp then [.tcp (segment.be16At 0) (segment.be16At 2)]
  else if protocol = IpProtocol.udp then [.udp (segment.be16At 0) (segment.be16At 2)]
  else if protocol = IpProtocol.icmp then [.icmp (segment.octet 0) (segment.octet 1)]
  else []

theorem segmentKeys_front {p : Ipv4Payload} {protocol : UInt8} (h : p.protocol? = some protocol)
    (tail : Bytes) : segmentKeys protocol (p.front ++ tail) = transportKeys p := by
  cases p with
  | tcp t =>
    obtain rfl := Option.some.inj h
    simp [segmentKeys, transportKeys, Ipv4Payload.front]
  | udp u =>
    obtain rfl := Option.some.inj h
    have hne : IpProtocol.udp ≠ IpProtocol.tcp := by decide
    simp [segmentKeys, transportKeys, Ipv4Payload.front, hne]
  | icmp i =>
    obtain rfl := Option.some.inj h
    have hne : IpProtocol.icmp ≠ IpProtocol.tcp ∧ IpProtocol.icmp ≠ IpProtocol.udp := by decide
    simp [segmentKeys, transportKeys, Ipv4Payload.front, hne]
  | data bytes => cases h

theorem segmentKeys_slice (protocol : UInt8) (segment : Bytes) {n : Nat} (h : 4 ≤ n) :
    segmentKeys protocol (segment.slice 0 n) = segmentKeys protocol segment := by
  have hwords : (segment.slice 0 n).be16At 0 = segment.be16At 0 ∧
      (segment.slice 0 n).be16At 2 = segment.be16At 2 :=
    ⟨Bytes.be16At_slice segment 0 (by omega), Bytes.be16At_slice segment 0 (by omega)⟩
  have hoctets : (segment.slice 0 n).octet 0 = segment.octet 0 ∧
      (segment.slice 0 n).octet 1 = segment.octet 1 :=
    ⟨Bytes.octet_slice segment 0 (by omega), Bytes.octet_slice segment 0 (by omega)⟩
  rw [segmentKeys, hwords.1, hwords.2, hoctets.1, hoctets.2, segmentKeys]

/-- What was read as a segment has the key that its first octets tell. -/
theorem transportKeys_of_decode {protocol : UInt8} {data : Bytes} {p : Ipv4Payload}
    (h : Ipv4Payload.decode protocol data = .ok p) :
    transportKeys p = segmentKeys protocol data ∧
      ∀ w : Ipv4Payload, w.protocol? = some protocol → 4 ≤ data.length := by
  rw [Ipv4Payload.decode] at h
  -- one case for each protocol with a header of its own
  split_ifs at h with htcp hudp hicmp
  · obtain ⟨t, hread, hvalue⟩ := bind_eq_ok.mp h
    obtain rfl := Except.ok.inj hvalue
    obtain ⟨hsource, hdestination, hlength⟩ := Tcp.ports_of_decode hread
    rw [segmentKeys, if_pos htcp, transportKeys, hsource, hdestination]
    exact ⟨rfl, fun _ _ => by omega⟩
  · obtain ⟨u, hread, hvalue⟩ := bind_eq_ok.mp h
    obtain rfl := Except.ok.inj hvalue
    obtain ⟨hsource, hdestination, hlength⟩ := Udp.ports_of_decode hread
    rw [segmentKeys, if_neg htcp, if_pos hudp, transportKeys, hsource, hdestination]
    exact ⟨rfl, fun _ _ => by omega⟩
  · obtain ⟨i, hread, hvalue⟩ := bind_eq_ok.mp h
    obtain rfl := Except.ok.inj hvalue
    obtain ⟨htype, hcode, hlength⟩ := Icmp.type_of_decode hread
    rw [segmentKeys, if_neg htcp, if_neg hudp, if_pos hicmp, transportKeys, htype, hcode]
    exact ⟨rfl, fun _ _ => by omega⟩
  · obtain rfl := Except.ok.inj h
    rw [segmentKeys, if_neg htcp, if_neg hudp, if_neg hicmp]
    refine ⟨rfl, ?_⟩
    intro w hw
    cases w with
    | tcp => exact absurd (Option.some.inj hw).symm htcp
    | udp => exact absurd (Option.some.inj hw).symm hudp
    | icmp => exact absurd (Option.some.inj hw).symm hicmp
    | data => cases hw

end FlowMatch

/-! ## Packets -/

namespace Ipv4

/-- Whether the packet carries the header of a transport protocol. -/
def CarriesHeader (p : Ipv4) : Prop := p.payload.protocol? ≠ none ∧ p.fragmentOffset = 0

/-- Whether the header length that is written covers the options. -/
def Measured (p : Ipv4) : Prop := minHeaderLength + p.options.length ≤ 4 * p.wireIhl

end Ipv4

namespace FlowMatch

/-- The flags of the three bits that are written tell the same place. -/
theorem ofHeader_written (flags : UInt8) :
    FragmentType.ofHeader (flags &&& 7) 0 = FragmentType.ofHeader flags 0 ∧
      FragmentType.ofHeader flags 0 ≠ .later := by
  have hsame : flags &&& 7 &&& FragmentType.moreFragments = flags &&& FragmentType.moreFragments := by
    rw [UInt8.and_assoc]
    rfl
  rw [FragmentType.ofHeader, FragmentType.ofHeader, hsame]
  refine ⟨rfl, ?_⟩
  split_ifs with hzero hmore
  · exact absurd rfl hzero
  · decide
  · decide

/-- Behind a header that covers the options stands the segment, as far as the total length goes. -/
theorem saidBody_header {p : Ipv4} (hmeasured : p.Measured) (hmax : p.wireIhl ≤ 15)
    (total : UInt16) (segment : Bytes) :
    ∃ n, Ipv4.saidBody (p.header total ++ segment) = segment.slice 0 n := by
  have hfirst := (p.read_header total segment).1
  have hlength : (p.header total).length = 4 * p.wireIhl := by
    rw [p.length_header]
    exact max_eq_right hmeasured
  have hsaid : Ipv4.saidHeaderLength (p.header total ++ segment) = 4 * p.wireIhl := by
    rw [Ipv4.saidHeaderLength, hfirst, (Ipv4.version_ihl hmax).2, UInt8.toNat_ofNat']
    omega
  rw [Ipv4.saidBody, hsaid, Bytes.slice_append_right (Nat.le_of_eq hlength), hlength, Nat.sub_self]
  exact ⟨_, rfl⟩

/-- A segment behind such a header is read at least as far as its key goes. -/
theorem transportKeys_of_header {p q : Ipv4} (hcarries : p.CarriesHeader) (hmeasured : p.Measured)
    (hmax : p.wireIhl ≤ 15) {total : UInt16} {tail : Bytes}
    (h : Ipv4.decode (p.header total ++ (p.payload.front ++ tail)) = .ok q) :
    transportKeys q.payload = transportKeys p.payload := by
  obtain ⟨-, -, -, -, hprotocol, -, hoffset⟩ := Ipv4.fields_of_header h
  obtain ⟨hself, hzero⟩ := hcarries
  obtain ⟨protocol, hannounced⟩ := Option.ne_none_iff_exists'.mp hself
  obtain ⟨n, hbody⟩ := saidBody_header hmeasured hmax total (p.payload.front ++ tail)
  have hleading : q.fragmentOffset = 0 := by
    rw [hoffset, hzero]
    rfl
  have hsegment := (Ipv4.of_decode h).leading hleading
  rw [hbody, hprotocol, hannounced] at hsegment
  obtain ⟨hkeys, hlong⟩ := transportKeys_of_decode hsegment
  have hfour : 4 ≤ n := by
    have hread := hlong p.payload hannounced
    rw [Bytes.length_slice] at hread
    omega
  rw [hkeys, Option.getD_some, segmentKeys_slice protocol _ hfour, segmentKeys_front hannounced]

/-- What is read of the octets of a packet has the keys of the packet with the protocol number that is
written. -/
theorem ipv4Keys_of_encoded {p q : Ipv4} (hcarries : p.CarriesHeader) (hmeasured : p.Measured)
    {buffer body : Bytes} (hencode : p.appendTo buffer = .ok (buffer ++ body))
    (hdecode : Ipv4.decode body = .ok q) : ipv4Keys q = ipv4Keys p.announced := by
  obtain ⟨segment, total, hmax, hsegment, -, hwritten⟩ := Ipv4.appendTo_eq_ok hencode
  obtain rfl := List.append_cancel_left hwritten
  obtain ⟨tail, rfl⟩ := Ipv4Payload.exists_appendTo_eq hsegment
  obtain ⟨checksum, hheader⟩ := p.exists_sealedHeader_header total
  rw [hheader] at hdecode
  have htransport : transportKeys q.payload = transportKeys p.payload :=
    transportKeys_of_header (p := { p with checksum }) hcarries hmeasured hmax hdecode
  obtain ⟨hsource, hdestination, htos, httl, hprotocol, hflags, hoffset⟩ :=
    Ipv4.fields_of_header hdecode
  obtain ⟨hplace, hleading⟩ := ofHeader_written p.flags
  have hread : q.fragmentType = FragmentType.ofHeader p.flags 0 := by
    rw [Ipv4.fragmentType, hflags, hoffset, hcarries.2]
    exact hplace
  have hsame : p.announced.fragmentType = FragmentType.ofHeader p.flags 0 := by
    rw [← hcarries.2]
    rfl
  rw [ipv4Keys, ipv4Keys, hread, hsame, if_neg hleading, if_neg hleading, htransport, hsource,
    hdestination, htos, httl, hprotocol]
  rfl

end FlowMatch

/-! ## Frames -/

namespace EthernetPayload

/-- Whether the payload is a header of its own, over IPv4 with that of a transport protocol behind it. -/
def CarriesHeader : EthernetPayload → Prop
  | .ipv4 p => p.CarriesHeader
  | .arp _ | .lldp _ => True
  | .data _ => False

/-- Whether the lengths that are written are those of what they speak of. -/
def Measured : EthernetPayload → Prop
  | .ipv4 p => p.Measured
  | .arp a => a.Representable
  | _ => True

theorem exists_appendTo_eq {p : EthernetPayload} {buffer bytes : Bytes}
    (h : p.appendTo buffer = .ok bytes) : ∃ body, bytes = buffer ++ body := by
  cases p with
  | ipv4 p =>
    obtain ⟨_, _, -, -, -, hbytes⟩ := Ipv4.appendTo_eq_ok h
    exact ⟨_, hbytes⟩
  | arp a =>
    obtain rfl := Except.ok.inj h
    exact ⟨_, a.appendTo_eq buffer⟩
  | lldp l =>
    obtain rfl := Except.ok.inj h
    exact ⟨_, l.appendTo_eq buffer⟩
  | data bytes =>
    obtain rfl := Except.ok.inj h
    exact ⟨bytes, rfl⟩

end EthernetPayload

namespace FlowMatch

theorem payloadKeys_of_encoded {p q : EthernetPayload} (hcarries : p.CarriesHeader)
    (hmeasured : p.Measured) {buffer body : Bytes} (hencode : p.appendTo buffer = .ok (buffer ++ body))
    {type : UInt16} (hdecode : EthernetPayload.decode (p.etherType?.getD type) body = .ok q) :
    payloadKeys q = payloadKeys p.announced := by
  have harp : EtherType.arp ≠ EtherType.ipv4 := by decide
  have hlldp : EtherType.lldp ≠ EtherType.ipv4 ∧ EtherType.lldp ≠ EtherType.arp := by decide
  cases p with
  | ipv4 p =>
    change EthernetPayload.decode EtherType.ipv4 body = .ok q at hdecode
    rw [EthernetPayload.decode, if_pos rfl] at hdecode
    obtain ⟨q, hread, hvalue⟩ := bind_eq_ok.mp hdecode
    obtain rfl := Except.ok.inj hvalue
    exact ipv4Keys_of_encoded hcarries hmeasured hencode hread
  | arp a =>
    have hbody : body = a.encode :=
      List.append_cancel_left ((Except.ok.inj hencode).symm.trans (a.appendTo_eq buffer))
    change EthernetPayload.decode EtherType.arp body = .ok q at hdecode
    rw [EthernetPayload.decode, if_neg harp, if_pos rfl, hbody, Arp.decode_encode hmeasured] at hdecode
    obtain rfl := Except.ok.inj hdecode
    rfl
  | lldp l =>
    change EthernetPayload.decode EtherType.lldp body = .ok q at hdecode
    rw [EthernetPayload.decode, if_neg hlldp.1, if_neg hlldp.2, if_pos rfl] at hdecode
    obtain ⟨q, -, hvalue⟩ := bind_eq_ok.mp hdecode
    obtain rfl := Except.ok.inj hvalue
    rfl
  | data bytes => cases hcarries

/-- A tag that was written and read has the key that it had. -/
theorem vlanKeys_written (vlan : Option VlanTag) :
    vlanKeys (vlan.map fun tag => VlanTag.ofWord tag.toWord) = vlanKeys vlan := by
  cases vlan with
  | none => rfl
  | some tag =>
    change [FlowKey.vlan ((VlanTag.ofWord tag.toWord).toWord ||| FlowKey.vlanPresent)] = _
    rw [VlanTag.toWord_ofWord]
    rfl

/-- Keys tell the numbers that are written from old ones. -/
theorem ofFrame_announced_eq_iff (f : Ethernet) (inPort : UInt32) :
    ofFrame f.announced inPort = ofFrame f inPort ↔ f.announced = f := by
  refine ⟨?_, fun h => congrArg (ofFrame · inPort) h⟩
  intro h
  have hbehind : FlowKey.etherType f.announced.etherType :: payloadKeys f.announced.payload =
      FlowKey.etherType f.etherType :: payloadKeys f.payload := by
    simp only [ofFrame, List.append_assoc] at h
    exact List.append_cancel_left (List.append_cancel_left h)
  obtain ⟨hkey, hpayload⟩ := List.cons.inj hbehind
  have hcarried : f.payload.announced = f.payload := by
    cases hkind : f.payload with
    | ipv4 p =>
      rw [Ethernet.announced, hkind] at hpayload
      have hprotocol := congrArg Ipv4Key.protocol (FlowKey.ipv4.inj (List.cons.inj hpayload).1)
      change p.payload.protocol?.getD p.protocol = p.protocol at hprotocol
      rw [EthernetPayload.announced, Ipv4.announced, hprotocol]
    | arp | lldp | data => rfl
  have htype : f.payload.etherType?.getD f.etherType = f.etherType := FlowKey.etherType.inj hkey
  rw [Ethernet.announced, htype, hcarried]

/-- The octets of a frame have the keys of the frame with the numbers that are written for it. The keys
of the frame itself are the same exactly if it holds these numbers. -/
theorem ofFrame_encoded {f g : Ethernet} (hcarries : f.payload.CarriesHeader)
    (hmeasured : f.payload.Measured) {bytes : Bytes} (hencode : f.encode = .ok bytes)
    (hdecode : Ethernet.decode bytes = .ok g) (inPort : UInt32) :
    ofFrame g inPort = ofFrame f.announced inPort ∧
      (ofFrame f inPort = ofFrame g inPort ↔ f.announced = f) := by
  rw [Ethernet.encode, Ethernet.appendTo, List.nil_append] at hencode
  obtain ⟨body, rfl⟩ := EthernetPayload.exists_appendTo_eq hencode
  -- an ether type that is written for a header is never that of a tag
  have huntagged : f.payload.etherType?.getD f.etherType ≠ EtherType.vlan := by
    cases hkind : f.payload with
    | ipv4 | arp | lldp =>
      simp only [EthernetPayload.etherType?, Option.getD_some]
      decide
    | data bytes =>
      rw [hkind] at hcarries
      cases hcarries
  rw [f.decode_header fun _ => huntagged] at hdecode
  rcases hpayload : EthernetPayload.decode (f.payload.etherType?.getD f.etherType) body with
    error | payload
  · rw [hpayload] at hdecode
    cases hdecode
  rw [hpayload] at hdecode
  obtain rfl := Except.ok.inj hdecode
  -- the payload has its keys in the octets; the link keys are read off the header
  have hkeys := payloadKeys_of_encoded hcarries hmeasured hencode hpayload
  have hsame : ofFrame { f with
      vlan := f.vlan.map fun tag => VlanTag.ofWord tag.toWord
      etherType := f.payload.etherType?.getD f.etherType
      payload := payload } inPort = ofFrame f.announced inPort := by
    rw [ofFrame, ofFrame, vlanKeys_written, hkeys]
    rfl
  refine ⟨hsame, ?_⟩
  rw [hsame, eq_comm]
  exact ofFrame_announced_eq_iff f inPort

/-- A datagram in a frame that goes by numbers which nothing in it has. -/
def staleDatagram : Ethernet where
  destination := ⟨2, 0, 0, 0, 0, 2⟩
  source := ⟨2, 0, 0, 0, 0, 1⟩
  vlan := none
  etherType := 0x1234
  payload := .ipv4
    { Ipv4.ofPayload ⟨10, 0, 0, 1⟩ ⟨10, 0, 0, 2⟩ (.udp (Udp.ofPayload 4000 5000 (.data [1, 2]))) with
      protocol := 99 }

theorem staleDatagram_read : staleDatagram.payload.CarriesHeader ∧ ∃ bytes,
    staleDatagram.encode = .ok bytes ∧ Ethernet.decode bytes = .ok staleDatagram.completed := by
  have hpacket : staleDatagram.payload.Representable := by
    refine ⟨rfl, rfl, rfl, by decide, by decide, by decide, ?_, ?_, ?_⟩
    · exact ⟨rfl, rfl, rfl⟩
    · exact fun hlater => absurd rfl hlater
    · intro _ hnone
      cases hnone
  have hframe : staleDatagram.Representable := by
    refine ⟨?_, hpacket, ?_, ?_⟩
    · intro tag htag
      cases htag
    · intro hnone
      cases hnone
    · intro hnone
      cases hnone
  have hsize : Udp.size (Udp.ofPayload 4000 5000 (.data [1, 2])) ≤ 65535 := by decide
  have hfits : staleDatagram.payload.Fits := ⟨by decide, hsize, by decide⟩
  refine ⟨⟨?_, rfl⟩, _, Ethernet.encode_of_fits hframe hfits, Ethernet.decode_encoded hframe hfits⟩
  intro hnone
  cases hnone

theorem ofFrame_encoded_staleDatagram :
    staleDatagram.payload.CarriesHeader ∧ staleDatagram.payload.Measured ∧ ∃ bytes g,
      staleDatagram.encode = .ok bytes ∧ Ethernet.decode bytes = .ok g ∧
      ofFrame g 3 = ofFrame staleDatagram.announced 3 ∧ ofFrame staleDatagram 3 ≠ ofFrame g 3 := by
  obtain ⟨hcarries, bytes, hencode, hdecode⟩ := staleDatagram_read
  have hmeasured : staleDatagram.payload.Measured := Nat.le_refl 20
  obtain ⟨hkeys, hsame⟩ := ofFrame_encoded hcarries hmeasured hencode hdecode 3
  have hstale : staleDatagram.announced ≠ staleDatagram :=
    fun h => absurd (congrArg Ethernet.etherType h) (by decide)
  exact ⟨hcarries, hmeasured, bytes, _, hencode, hdecode, hkeys, fun h => hstale (hsame.mp h)⟩

/-- With old numbers the keys of a frame are not those of its octets. -/
theorem not_forall_ofFrame_eq : ¬ ∀ (f g : Ethernet) (bytes : Bytes) (inPort : UInt32),
    f.payload.CarriesHeader → (∀ p, f.payload = .ipv4 p → p.flags.toNat < 8) →
      f.encode = .ok bytes → Ethernet.decode bytes = .ok g → ofFrame f inPort = ofFrame g inPort := by
  intro h
  obtain ⟨hcarries, bytes, hencode, hdecode⟩ := staleDatagram_read
  have hflags : ∀ p, staleDatagram.payload = .ipv4 p → p.flags.toNat < 8 := by
    intro p hp
    obtain rfl := EthernetPayload.ipv4.inj hp
    decide
  have hkeys := h staleDatagram staleDatagram.completed bytes 3 hcarries hflags hencode hdecode
  have htype : staleDatagram.etherType = staleDatagram.completed.etherType :=
    FlowKey.etherType.inj (List.cons.inj (List.cons.inj (List.cons.inj hkeys).2).2).1
  exact absurd htype (by decide)

end FlowMatch

end Vswitch
