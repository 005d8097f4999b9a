import Mathlib
import Vswitch.Proofs.Computation
import Vswitch.Proofs.Packet.Reading
import Vswitch.Proofs.Packet.Reencoding

/-!
# Headers, written as they were read

The fields of a header that was read are the octets that it was read from: none of them is lost, and
none is left to the encoder. Of a segment only the three bits between data offset and control bits are
not kept.

* `Icmp.octets_of_decode`, `Tcp.octets_of_decode`, `Udp.octets_of_decode`, `Arp.encode_of_decode`:
  segments and messages;
* `Ipv4.header_of_decode`, `Ethernet.header_of_decode`: the headers in front of what they carry;
* `Icmp.appendTo_of_stored` and so on: stored lengths and checksums are written as they stand.
-/

namespace Vswitch

/-! ## ICMP -/

namespace Icmp

theorem octets_of_decode {data : Bytes} {i : Icmp} (h : decode data = .ok i) : i.octets = data := by
  obtain ⟨_, hcovers, h⟩ := bind_eq_ok.mp h
  have hlength : 8 ≤ data.length := le_of_expectOctets hcovers
  obtain rfl := Except.ok.inj h
  show [data.octet 0, data.octet (0 + 1)] ++ Bytes.be16 (data.be16At 2) ++ Bytes.be32 (data.be32At 4)
    ++ data.drop 8 = data
  rw [Bytes.octets_pair (by omega), Bytes.be16_be16At (by omega), Bytes.be32_be32At (by omega)]
  simp only [Bytes.slice_zero, Bytes.take_append_slice, Nat.reduceAdd, List.take_append_drop]

theorem appendTo_of_stored {i : Icmp} (h : i.checksum ≠ 0) (buffer : Bytes) :
    i.appendTo buffer = buffer ++ i.octets := by
  rw [appendTo]
  simp only [h, if_false]
  exact List.append_assoc _ _ _

end Icmp

/-! ## TCP -/

namespace Tcp

/-- The three bits between the data offset and the control bits, which are not kept. -/
def reserved (data : Bytes) : UInt16 := (data.be16At 12 >>> 9) &&& 7

/-- Data offset and control bits make up their word again, with nothing between them. -/
theorem controlWord_of_reserved {data : Bytes} (hlength : 14 ≤ data.length)
    (h : reserved data = 0) :
    ((data.octet 12 >>> 4).toUInt16 <<< 12) ||| (data.be16At 12 &&& flagMask) = data.be16At 12 := by
  have hword := (data.be16At 12).toNat_lt
  have hoffset : (data.octet 12 >>> 4).toUInt16.toNat = (data.be16At 12).toNat / 4096 := by
    rw [UInt8.toNat_toUInt16, UInt8.toNat_shiftRight, Nat.shiftRight_eq_div_pow,
      Bytes.toNat_octet (by omega), Nat.div_div_eq_div_mul]
    rfl
  have hflags : (data.be16At 12 &&& flagMask).toNat = (data.be16At 12).toNat % 512 :=
    Bytes.toNat_and_mask (k := 9) rfl
  have hbetween : (data.be16At 12).toNat / 512 % 8 = 0 := by
    have hzero := congrArg UInt16.toNat h
    rw [reserved, Bytes.toNat_and_mask (k := 3) rfl, Bytes.toNat_shiftRight (by decide)] at hzero
    exact hzero
  rw [← UInt16.toNat_inj, Bytes.toNat_shiftLeft_or (by decide), hoffset, hflags]
  · show _ * 4096 + _ = _
    omega
  · show _ < 4096
    omega
  · show _ * 4096 < 65536
    omega

theorem octets_of_decode {data : Bytes} {t : Tcp} (h : decode data = .ok t)
    (hreserved : reserved data = 0) : t.octets = data := by
  obtain ⟨_, hcovers, h⟩ := bind_eq_ok.mp h
  obtain ⟨hminimal, h⟩ := refuse_eq_ok.mp h
  obtain ⟨_, hwhole, h⟩ := bind_eq_ok.mp h
  have hlength : 20 ≤ data.length := le_of_expectOctets hcovers
  have hholds : 4 * (data.octet 12 >>> 4).toNat ≤ data.length := le_of_expectOctets hwhole
  have hmin : 20 ≤ 4 * (data.octet 12 >>> 4).toNat := Nat.le_of_not_lt hminimal
  have hword := controlWord_of_reserved (by omega) hreserved
  -- a stored data offset is written, and is not zero since it covers the fixed part
  have hoffset : t.wireOffset = data.octet 12 >>> 4 := by
    obtain rfl := Except.ok.inj h
    refine if_neg ?_
    show data.octet 12 >>> 4 ≠ 0
    intro hzero
    rw [hzero] at hmin
    cases hmin
  obtain rfl := Except.ok.inj h
  rw [octets, header, hoffset, hword, Bytes.be16_be16At (by omega), Bytes.be16_be16At (by omega),
    Bytes.be32_be32At (by omega), Bytes.be32_be32At (by omega), Bytes.be16_be16At (by omega),
    Bytes.be16_be16At (by omega), Bytes.be16_be16At (by omega), Bytes.be16_be16At (by omega)]
  show Bytes.padTo (data.slice 0 2 ++ data.slice 2 2 ++ data.slice 4 4 ++ data.slice 8 4 ++
    data.slice 12 2 ++ data.slice 14 2 ++ data.slice 16 2 ++ data.slice 18 2 ++
    data.slice 20 (4 * (data.octet 12 >>> 4).toNat - 20)) (4 * (data.octet 12 >>> 4).toNat) ++
    data.drop (4 * (data.octet 12 >>> 4).toNat) = data
  simp only [Bytes.slice_zero, Bytes.take_append_slice, Nat.reduceAdd, Nat.add_sub_cancel' hmin]
  rw [Bytes.padTo_of_le, List.take_append_drop]
  rw [List.length_take_of_le hholds]

theorem appendTo_of_stored {t : Tcp} (h : t.checksum ≠ 0) (buffer : Bytes)
    (pseudo : Option PseudoHeader) : t.appendTo buffer pseudo = buffer ++ t.octets := by
  cases pseudo with
  | none => exact List.append_assoc _ _ _
  | some pseudo =>
    rw [appendTo]
    simp only [h, if_false]
    exact List.append_assoc _ _ _

end Tcp

/-! ## UDP -/

namespace Udp

variable {data : Bytes} {u : Udp}

theorem header_of_decode (h : decode data = .ok u) : u.header = data.take 8 := by
  obtain ⟨_, hcovers, h⟩ := bind_eq_ok.mp h
  obtain ⟨-, h⟩ := refuse_eq_ok.mp h
  obtain ⟨_, -, h⟩ := bind_eq_ok.mp h
  obtain ⟨payload, -, h⟩ := bind_eq_ok.mp h
  have hlength : 8 ≤ data.length := le_of_expectOctets hcovers
  obtain rfl := Except.ok.inj h
  rw [header, Bytes.be16_be16At (by omega), Bytes.be16_be16At (by omega),
    Bytes.be16_be16At (by omega), Bytes.be16_be16At (by omega)]
  simp only [Bytes.slice_zero, Bytes.take_append_slice, Nat.reduceAdd]

/-- An opaque datagram is the octets of which its length speaks. -/
theorem octets_of_decode (h : decode data = .ok u) {bytes : Bytes} (hdata : u.payload = .data bytes) :
    u.octets = data.take u.length.toNat := by
  obtain ⟨hmin, -, hpayload⟩ := of_decode h
  have hbytes : bytes = data.slice 8 (u.length.toNat - 8) := by
    rw [hdata, UdpPayload.decode] at hpayload
    split_ifs at hpayload
    · obtain ⟨d, -, hvalue⟩ := bind_eq_ok.mp hpayload
      cases hvalue
    · exact (UdpPayload.data.inj (Except.ok.inj hpayload)).symm
  rw [octets, header_of_decode h, hdata, UdpPayload.octets, hbytes,
    Bytes.take_append_slice, Nat.add_sub_cancel' hmin]

theorem length_ne_of_decode (h : decode data = .ok u) : u.length ≠ 0 := by
  have hmin := (of_decode h).1
  intro hzero
  rw [hzero] at hmin
  cases hmin

end Udp

/-! ## ARP -/

/-- A message is the octets in front of its addresses and the addresses. -/
theorem Arp.encode_of_decode {data : Bytes} {a : Arp} (h : decode data = .ok a) :
    8 + 2 * ((data.octet 4).toNat + (data.octet 5).toNat) ≤ data.length ∧
      a.encode = data.take (8 + 2 * ((data.octet 4).toNat + (data.octet 5).toNat)) := by
  obtain ⟨_, -, h⟩ := bind_eq_ok.mp h
  obtain ⟨_, hcovers, h⟩ := bind_eq_ok.mp h
  have hlength : 8 + 2 * ((data.octet 4).toNat + (data.octet 5).toNat) ≤ data.length :=
    le_of_expectOctets hcovers
  refine ⟨hlength, ?_⟩
  obtain rfl := Except.ok.inj h
  generalize hhardware : (data.octet 4).toNat = hardware at hlength ⊢
  generalize hprotocol : (data.octet 5).toNat = protocol at hlength ⊢
  have hsender : (data.slice 8 hardware).length = hardware ∧
      (data.slice (8 + hardware) protocol).length = protocol := by
    rw [Bytes.length_slice, Bytes.length_slice]
    omega
  have hlengths : [UInt8.ofNat hardware, UInt8.ofNat protocol] = data.slice 4 2 := by
    rw [← hhardware, ← hprotocol, UInt8.ofNat_toNat, UInt8.ofNat_toNat]
    exact Bytes.octets_pair (by omega)
  have hhalf : 8 + hardware + protocol + hardware = 8 + 2 * hardware + protocol := by omega
  have hwhole : 8 + 2 * hardware + protocol + protocol = 8 + 2 * (hardware + protocol) := by omega
  show [] ++ Bytes.be16 (data.be16At 0) ++ Bytes.be16 (data.be16At 2)
    ++ [UInt8.ofNat (data.slice 8 hardware).length,
      UInt8.ofNat (data.slice (8 + hardware) protocol).length]
    ++ Bytes.be16 (data.be16At 6) ++ data.slice 8 hardware ++ data.slice (8 + hardware) protocol
    ++ data.slice (8 + hardware + protocol) hardware
    ++ data.slice (8 + 2 * hardware + protocol) protocol = _
  rw [hsender.1, hsender.2, hlengths, List.nil_append, Bytes.be16_be16At (by omega),
    Bytes.be16_be16At (by omega), Bytes.be16_be16At (by omega)]
  simp only [Bytes.slice_zero, Bytes.take_append_slice, Nat.reduceAdd, hhalf, hwhole]

/-! ## IPv4 -/

namespace Ipv4

variable {data : Bytes} {p : Ipv4}

namespace ReadFrom

/-- A stored header length is the one that is written. -/
theorem wireIhl_eq (h : ReadFrom data p) : p.wireIhl = p.ihl.toNat := by
  have hmin := h.minimal
  refine if_neg ?_
  intro hzero
  rw [hzero] at hmin
  cases hmin

theorem wireIhl_le (h : ReadFrom data p) : p.wireIhl ≤ 15 := by
  rw [h.wireIhl_eq, h.ihl, UInt8.toNat_and]
  exact Nat.and_le_right

theorem totalLength_ne (h : ReadFrom data p) : p.totalLength ≠ 0 := by
  have hmin := h.minimal.trans h.holdsHeader
  intro hzero
  rw [hzero] at hmin
  cases hmin

/-- The options are all of the header that the header length speaks of. -/
theorem covers (h : ReadFrom data p) : 4 * p.wireIhl = 20 + p.options.length := by
  have hmin := h.minimal
  have hholds := h.holdsHeader
  have hwhole := h.isWhole
  rw [h.wireIhl_eq, h.options, Bytes.length_slice]
  omega

/-- Version and header length make up the first octet. -/
theorem firstOctet (h : ReadFrom data p) : UInt8.ofNat (64 + p.wireIhl) = data.octet 0 := by
  have hversion := congrArg UInt8.toNat h.version
  have hihl := congrArg UInt8.toNat h.ihl
  have hlt := (data.octet 0).toNat_lt
  rw [UInt8.toNat_shiftRight, Nat.shiftRight_eq_div_pow] at hversion
  have hhigh : (data.octet 0).toNat / 16 = 4 := hversion
  rw [UInt8.toNat_and] at hihl
  have hlow : p.ihl.toNat = (data.octet 0).toNat % 16 :=
    hihl.trans (Nat.and_two_pow_sub_one_eq_mod _ 4)
  rw [h.wireIhl_eq, ← UInt8.toNat_inj, UInt8.toNat_ofNat']
  omega

/-- Flags and fragment offset make up their word. -/
theorem fragmentWord_eq (h : ReadFrom data p) : p.fragmentWord = data.be16At 6 := by
  have hword := (data.be16At 6).toNat_lt
  have hflags : (p.flags &&& 7).toNat = (data.be16At 6).toNat / 8192 := by
    rw [UInt8.toNat_and, h.flags, UInt16.toNat_toUInt8, Bytes.toNat_shiftRight (by decide)]
    refine (Nat.and_two_pow_sub_one_eq_mod _ 3).trans ?_
    show (data.be16At 6).toNat / 8192 % 256 % 8 = _
    omega
  have hoffset : (p.fragmentOffset &&& 0x1fff).toNat = (data.be16At 6).toNat % 8192 := by
    rw [Bytes.toNat_and_mask (k := 13) rfl, h.fragmentOffset, Bytes.toNat_and_mask (k := 13) rfl]
    exact Nat.mod_mod _ _
  rw [← UInt16.toNat_inj, toNat_fragmentWord, hflags, hoffset]
  omega

end ReadFrom

/-- The header is the octets of which the header length speaks. -/
theorem header_of_decode (h : decode data = .ok p) :
    p.header p.totalLength = data.take (4 * p.ihl.toNat) := by
  have hread := of_decode h
  have hprotocol : p.payload.protocol?.getD p.protocol = data.octet 9 :=
    (congrArg protocol (announced_of_decode h)).trans hread.protocol
  have hmin := hread.minimal
  have hlength := hread.holdsHeader.trans hread.isWhole
  rw [header_eq p hread.covers, hread.firstOctet, hread.fragmentWord_eq, hprotocol, hread.tos,
    hread.totalLength, hread.identification, hread.ttl, hread.checksum, hread.source,
    hread.destination, hread.options, Ipv4Addr.octets_ofBytes (by omega),
    Ipv4Addr.octets_ofBytes (by omega), Bytes.be16_be16At (by omega), Bytes.be16_be16At (by omega),
    Bytes.be16_be16At (by omega), Bytes.be16_be16At (by omega),
    Bytes.octets_pair (i := 0) (by omega), Bytes.octets_pair (i := 8) (by omega)]
  simp only [← List.append_assoc, Bytes.slice_zero, Bytes.take_append_slice, Nat.reduceAdd]
  rw [Nat.add_sub_cancel' hmin]

/-- Header and body are the octets of which the total length speaks. -/
theorem octets_of_decode (h : decode data = .ok p) :
    p.header p.totalLength ++ saidBody data = data.take p.totalLength.toNat := by
  have hread := of_decode h
  have hsaid : saidHeaderLength data = 4 * p.ihl.toNat := by
    rw [hread.ihl]
    rfl
  rw [header_of_decode h, saidBody, hsaid, ← hread.totalLength, Bytes.take_append_slice,
    Nat.add_sub_cancel' hread.holdsHeader]

/-- The two lengths of a header say how many octets stand behind it. -/
theorem length_saidBody (h : decode data = .ok p) :
    (p.header p.totalLength).length = 4 * p.ihl.toNat ∧
      p.totalLength.toNat = 4 * p.ihl.toNat + (saidBody data).length := by
  have hread := of_decode h
  have hheader := congrArg List.length (header_of_decode h)
  rw [List.length_take_of_le (hread.holdsHeader.trans hread.isWhole)] at hheader
  have hwhole := congrArg List.length (octets_of_decode h)
  rw [List.length_append, hheader, List.length_take_of_le hread.isWhole] at hwhole
  exact ⟨hheader, hwhole.symm⟩

/-- A packet that is found to carry a datagram was read as one. -/
theorem datagram_of_decode {u : Udp} (h : decode data = .ok p) (hudp : p.payload = .udp u) :
    Udp.decode (saidBody data) = .ok u := by
  have hread := of_decode h
  -- a later fragment is not looked into
  have hoffset : p.fragmentOffset = 0 := by
    by_contra hlater
    cases hudp.symm.trans (hread.later hlater)
  have hprotocol : p.protocol = IpProtocol.udp := by
    have hannounced := congrArg protocol (announced_of_decode h)
    rw [announced, hudp] at hannounced
    exact hannounced.symm
  have hbody := hread.leading hoffset
  rw [hprotocol, hudp, Ipv4Payload.decode, if_neg (by decide), if_pos rfl] at hbody
  obtain ⟨v, hv, hvalue⟩ := bind_eq_ok.mp hbody
  obtain rfl := Ipv4Payload.udp.inj (Except.ok.inj hvalue)
  exact hv

/-- With lengths and a checksum of its own a header is written as its fields stand. -/
theorem appendTo_of_stored (hihl : p.wireIhl ≤ 15) (htotal : p.totalLength ≠ 0)
    (hchecksum : p.checksum ≠ 0) {body : Bytes}
    (hbody : p.payload.appendTo [] p.pseudoHeader = .ok body) (buffer : Bytes) :
    p.appendTo buffer = .ok (buffer ++ (p.header p.totalLength ++ body)) := by
  rw [appendTo, if_neg (Nat.not_lt.mpr hihl), hbody]
  simp only [bind, Except.bind, htotal, hchecksum, if_false, pure, Except.pure, List.append_assoc]

end Ipv4

/-! ## Ethernet -/

namespace Ethernet

variable {data : Bytes} {f : Ethernet}

/-- Octets of the header. -/
def headerSize (f : Ethernet) : Nat :=
  match f.vlan with
  | none => headerLength
  | some _ => headerLength + tagLength

/-- The header is the front of the frame, and what the frame carries was read behind it. -/
theorem header_of_decode (h : decode data = .ok f) :
    f.headerSize ≤ data.length ∧ f.header = data.take f.headerSize ∧
      EthernetPayload.decode f.etherType (data.drop f.headerSize) = .ok f.payload := by
  obtain ⟨hlength, hdestination, hsource, htype⟩ := of_decode h
  rcases htype with ⟨-, hvlan, htype, hpayload⟩ | ⟨htagged, hlonger, hvlan, htype, hpayload⟩
  · rw [headerSize, hvlan]
    refine ⟨hlength, ?_, hpayload⟩
    rw [header, EthernetPayload.etherType_of_decode hpayload, hdestination, hsource, hvlan, htype,
      tagOctets, List.append_nil, MacAddr.octets_ofBytes (by omega),
      MacAddr.octets_ofBytes (by omega), Bytes.be16_be16At (by omega)]
    simp only [Bytes.slice_zero, Bytes.take_append_slice, Nat.reduceAdd]
    rfl
  · rw [headerSize, hvlan]
    refine ⟨hlonger, ?_, hpayload⟩
    rw [header, EthernetPayload.etherType_of_decode hpayload, hdestination, hsource, hvlan, htype,
      tagOctets, VlanTag.toWord_ofWord, ← htagged, MacAddr.octets_ofBytes (by omega),
      MacAddr.octets_ofBytes (by omega), Bytes.be16_be16At (by omega), Bytes.be16_be16At (by omega),
      Bytes.be16_be16At (by omega)]
    simp only [← List.append_assoc, Bytes.slice_zero, Bytes.take_append_slice, Nat.reduceAdd]
    rfl

end Ethernet

end Vswitch
