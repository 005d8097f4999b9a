import Mathlib
import Vswitch.Flow.Match
import Vswitch.Proofs.Packet.Sealing

/-!
# First fragments

The first fragment of a packet carries the header again and the front of its segment. The decoder
reads that front like a whole segment. A datagram says its whole length in its header, so that its
front is found truncated.

* `Ipv4.firstFragment`: the octets of a first fragment;
* `Ipv4.decode_firstFragment`: it is read if its front can be read, and keeps its place;
* `Ipv4.firstFragment_truncated`: no first fragment of a datagram is read.
-/

namespace Vswitch

namespace Udp

/-- A datagram of which octets are missing is refused. -/
theorem decode_short {data : Bytes} (hmin : 8 ≤ data.length)
    (hshort : data.length < (data.be16At 4).toNat) :
    decode data = .error (.truncated .udp (data.be16At 4).toNat data.length) := by
  have hheader : expectOctets .udp headerLength data = .ok () := expectOctets_of_le hmin
  have hlong : ¬ (data.be16At 4).toNat < headerLength := by
    rw [headerLength]
    omega
  have hmissing : ¬ data.Covers (data.be16At 4).toNat := Nat.not_le.mpr hshort
  have hrefused : expectOctets .udp (data.be16At 4).toNat data =
      .error (.truncated .udp (data.be16At 4).toNat data.length) := if_neg hmissing
  rw [decode, hheader]
  simp only [bind, Except.bind, hlong, if_false, hrefused]

end Udp

namespace Ipv4

/-- The header of a first fragment: more fragments follow, and the checksum is another one. -/
def leading (p : Ipv4) (checksum : UInt16) : Ipv4 :=
  { p with flags := p.flags ||| FragmentType.moreFragments, fragmentOffset := 0, checksum }

/-- The octets of the first fragment that carries the front of a segment. -/
def firstFragment (p : Ipv4) (checksum : UInt16) (front : Bytes) : Bytes :=
  (p.leading checksum).header (UInt16.ofNat (4 * p.wireIhl + front.length)) ++ front

variable {p : Ipv4}

/-- A packet with the header of a first fragment is known for one. -/
theorem fragmentType_leading (p : Ipv4) (checksum total : UInt16) (payload : Ipv4Payload) :
    ((p.leading checksum).received total payload).fragmentType = .first := by
  have hmask : 7 &&& FragmentType.moreFragments = FragmentType.moreFragments := by decide
  have hset : ((p.flags ||| FragmentType.moreFragments) &&& FragmentType.moreFragments).toNat = 1 := by
    rw [UInt8.toNat_and, UInt8.toNat_or]
    show (p.flags.toNat ||| 1) &&& 1 = 1
    rw [Nat.and_one_is_mod, Nat.or_mod_two_eq_one]
    exact .inr rfl
  have hmore : (p.flags ||| FragmentType.moreFragments) &&& 7 &&& FragmentType.moreFragments ≠ 0 := by
    rw [UInt8.and_assoc, hmask]
    intro hzero
    rw [hzero] at hset
    cases hset
  have hoffset : (0 : UInt16) &&& 0x1fff = 0 := by decide
  rw [fragmentType, FragmentType.ofHeader]
  simp only [received, leading, hoffset, ne_eq, not_true, if_false]
  exact if_pos hmore

/-- A first fragment is read if its front can be read like a whole segment, and is then known for a
first fragment. -/
theorem decode_firstFragment (checksum : UInt16) {front : Bytes}
    (hcovers : 4 * p.wireIhl = 20 + p.options.length) (hmax : p.wireIhl ≤ 15)
    (hfits : 4 * p.wireIhl + front.length < 65536) :
    ∃ read : Ipv4Payload → Ipv4, (∀ payload, (read payload).fragmentType = .first) ∧
      decode (p.firstFragment checksum front) =
        (Ipv4Payload.decode (p.payload.protocol?.getD p.protocol) front).map read := by
  have htotal : (UInt16.ofNat (4 * p.wireIhl + front.length)).toNat =
      4 * p.wireIhl + front.length := by
    rw [UInt16.toNat_ofNat']
    exact Nat.mod_eq_of_lt hfits
  have hread := decode_header (p := p.leading checksum) hcovers hmax htotal
  have hoffset : (p.leading checksum).fragmentOffset &&& 0x1fff = 0 :=
    show (0 : UInt16) &&& 0x1fff = 0 by decide
  rw [if_pos hoffset] at hread
  exact ⟨_, p.fragmentType_leading checksum _, hread⟩

/-- The front of a datagram is not read: the datagram is longer. -/
theorem decode_firstFragment_of_short (checksum : UInt16) {front : Bytes} {u : Udp}
    (hudp : p.payload = .udp u)
    (hcovers : 4 * p.wireIhl = 20 + p.options.length) (hmax : p.wireIhl ≤ 15)
    (hfits : 4 * p.wireIhl + front.length < 65536) (hmin : 8 ≤ front.length)
    (hcut : front.length < (front.be16At 4).toNat) :
    decode (p.firstFragment checksum front) =
      .error (.truncated .udp (front.be16At 4).toNat front.length) := by
  obtain ⟨read, _, hread⟩ := decode_firstFragment checksum hcovers hmax hfits
  have hne : IpProtocol.udp ≠ IpProtocol.tcp := by decide
  have hrefused := Udp.decode_short hmin hcut
  rw [hread, hudp]
  simp only [Ipv4Payload.protocol?, Option.getD_some, Ipv4Payload.decode, hne, if_true, if_false,
    hrefused, bind, Except.bind, Except.map]

/-- No first fragment of a datagram is read, and no frame that carries it: what the datagram says of
its length is true of the whole datagram, and is demanded of the fragment. -/
theorem firstFragment_truncated {u : Udp} {bytes : Bytes} (hudp : p.payload = .udp u)
    (hcovers : 4 * p.wireIhl = 20 + p.options.length) (hbytes : p.encode = .ok bytes) {n : Nat}
    (hmin : 8 ≤ n) (hcut : n < (bytes.be16At (4 * p.wireIhl + 4)).toNat)
    (hthere : 4 * p.wireIhl + n ≤ bytes.length) (hfits : 4 * p.wireIhl + n < 65536)
    (checksum : UInt16) :
    decode (p.firstFragment checksum (bytes.slice (4 * p.wireIhl) n)) =
        .error (.truncated .udp (bytes.be16At (4 * p.wireIhl + 4)).toNat n) ∧
      ∀ frame : Ethernet, frame.payload = .ipv4 p →
        Ethernet.decode (frame.header ++ p.firstFragment checksum (bytes.slice (4 * p.wireIhl) n)) =
          .error (.truncated .udp (bytes.be16At (4 * p.wireIhl + 4)).toNat n) := by
  obtain ⟨_, _, hmax, _⟩ := appendTo_eq_ok hbytes
  have hlength : (bytes.slice (4 * p.wireIhl) n).length = n := by
    rw [Bytes.length_slice]
    omega
  -- the fragment has the length field of the whole datagram
  have hsaid : (bytes.slice (4 * p.wireIhl) n).be16At 4 = bytes.be16At (4 * p.wireIhl + 4) :=
    Bytes.be16At_slice _ _ (by omega)
  have hlonger : (bytes.slice (4 * p.wireIhl) n).length <
      ((bytes.slice (4 * p.wireIhl) n).be16At 4).toNat := by
    rw [hlength, hsaid]
    exact hcut
  have hpacket := decode_firstFragment_of_short checksum hudp hcovers hmax (by omega) (by omega)
    hlonger
  rw [hlength, hsaid] at hpacket
  refine ⟨hpacket, ?_⟩
  intro frame hframe
  have htype : frame.payload.etherType?.getD frame.etherType = EtherType.ipv4 := by
    rw [hframe]
    rfl
  have huntagged : EtherType.ipv4 ≠ EtherType.vlan := by decide
  rw [frame.decode_header (fun _ => htype ▸ huntagged), htype, EthernetPayload.decode, if_pos rfl,
    hpacket]
  rfl

/-- A datagram of 24 octets. -/
def splitDatagram : Ipv4 :=
  ofPayload ⟨10, 0, 0, 1⟩ ⟨10, 0, 0, 2⟩ (.udp (Udp.ofPayload 4000 5000 (.data (Bytes.zeros 16))))

theorem encode_splitDatagram : ∃ bytes, splitDatagram.encode = .ok bytes ∧ bytes.length = 44 ∧
    (bytes.be16At 24).toNat = 24 := ⟨_, rfl, rfl, rfl⟩

theorem firstFragment_truncated_splitDatagram :
    ∃ bytes, splitDatagram.encode = .ok bytes ∧
      ∀ checksum, decode (splitDatagram.firstFragment checksum (bytes.slice 20 8)) =
          .error (.truncated .udp 24 8) ∧
        Ethernet.decode ((Ethernet.ofPayload .broadcast .broadcast (.ipv4 splitDatagram)).header ++
          splitDatagram.firstFragment checksum (bytes.slice 20 8)) =
          .error (.truncated .udp 24 8) := by
  obtain ⟨bytes, hbytes, hlength, hsaid⟩ := encode_splitDatagram
  refine ⟨bytes, hbytes, ?_⟩
  intro checksum
  have hcut : 8 < (bytes.be16At 24).toNat := by omega
  have htruncated := firstFragment_truncated (p := splitDatagram) rfl rfl hbytes (n := 8) (by decide)
    hcut (by show 20 + 8 ≤ _; omega) (by decide) checksum
  rw [← hsaid]
  exact ⟨htruncated.1, htruncated.2 _ rfl⟩

/-- Not every first fragment of a datagram is understood. -/
theorem not_forall_firstFragment_read :
    ¬ ∀ (p : Ipv4) (u : Udp) (bytes : Bytes) (n : Nat) (checksum : UInt16),
      p.payload = .udp u → p.options = [] →
      UdpPort.isDhcp u.sourcePort = false → UdpPort.isDhcp u.destinationPort = false →
      p.encode = .ok bytes → 8 ∣ n → 8 ≤ n → n < (bytes.be16At 24).toNat →
      ∃ q, decode (p.firstFragment checksum (bytes.slice 20 n)) = .ok q ∧
        q.fragmentType = .first ∧
        FlowKey.udp u.sourcePort u.destinationPort ∈ FlowMatch.ipv4Keys q := by
  intro hunderstood
  obtain ⟨bytes, hbytes, hlength, hsaid⟩ := encode_splitDatagram
  have hslice : (bytes.slice 20 8).length = 8 := by
    rw [Bytes.length_slice]
    omega
  have hdeclared : (bytes.slice 20 8).be16At 4 = bytes.be16At 24 :=
    Bytes.be16At_slice _ _ (by decide)
  have hcut : (bytes.slice 20 8).length < ((bytes.slice 20 8).be16At 4).toNat := by
    rw [hslice, hdeclared, hsaid]
    decide
  have hrefused := decode_firstFragment_of_short (p := splitDatagram) 0 rfl rfl
    (by decide) (by rw [hslice]; decide) (Nat.le_of_eq hslice.symm) hcut
  obtain ⟨q, hread, _⟩ := hunderstood splitDatagram _ bytes 8 0 rfl rfl rfl rfl hbytes (by decide)
    (by decide) (by omega)
  rw [hrefused] at hread
  cases hread

end Ipv4

end Vswitch
