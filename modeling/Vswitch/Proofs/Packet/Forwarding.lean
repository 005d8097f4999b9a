import Mathlib
import Vswitch.Proofs.Packet.Verbatim

/-!
# Frames, forwarded as they came

A switch that reads a frame and writes it again sends on the octets that it has received, up to where
the payload says that it ends. What stands behind that, like the padding of a short frame, is left out.

* `Ipv4Payload.Kept`, `EthernetPayload.Kept`: payloads of which nothing is computed anew or dropped;
* `EthernetPayload.extent`: how far a payload says that it reaches;
* `Ethernet.forwarded_exact`: what a frame is written as.
-/

namespace Vswitch

/-! ## Segments -/

namespace Ipv4Payload

/-- The segments that are written in the octets that they were read from: with a checksum, which is
not computed anew then, and without anything that is not kept. -/
def Kept (segment : Bytes) : Ipv4Payload → Prop
  | .tcp t => t.checksum ≠ 0 ∧ Tcp.reserved segment = 0
  | .udp u => u.checksum ≠ 0 ∧ u.length.toNat = segment.length ∧ ∃ bytes, u.payload = .data bytes
  | .icmp i => i.checksum ≠ 0
  | .data _ => True

/-- A segment that keeps what it was read from is written back as it was. -/
theorem appendTo_of_kept {protocol : UInt8} {segment : Bytes} {p : Ipv4Payload}
    (h : decode protocol segment = .ok p) (hkept : p.Kept segment) (buffer : Bytes)
    (pseudo : PseudoHeader) : p.appendTo buffer pseudo = .ok (buffer ++ segment) := by
  rw [decode] at h
  split_ifs at h
  · obtain ⟨t, hread, hvalue⟩ := bind_eq_ok.mp h
    obtain rfl := Except.ok.inj hvalue
    obtain ⟨hchecksum, hreserved⟩ := hkept
    rw [appendTo, Tcp.appendTo_of_stored hchecksum, Tcp.octets_of_decode hread hreserved]
  · obtain ⟨u, hread, hvalue⟩ := bind_eq_ok.mp h
    obtain rfl := Except.ok.inj hvalue
    obtain ⟨hchecksum, hlength, bytes, hdata⟩ := hkept
    rw [appendTo, Udp.appendTo_of_stored (Udp.length_ne_of_decode hread) (.inr hchecksum),
      Udp.octets_of_decode hread hdata, hlength, List.take_length]
  · obtain ⟨i, hread, hvalue⟩ := bind_eq_ok.mp h
    obtain rfl := Except.ok.inj hvalue
    rw [appendTo, Icmp.appendTo_of_stored hkept, Icmp.octets_of_decode hread]
  · obtain rfl := Except.ok.inj h
    rfl

end Ipv4Payload

/-! ## Packets -/

namespace Ipv4

/-- A packet that keeps its checksum and its segment is written as far as its total length goes. -/
theorem appendTo_of_kept {data : Bytes} {p : Ipv4} (h : decode data = .ok p)
    (hchecksum : p.checksum ≠ 0) (hkept : p.payload.Kept (saidBody data)) (buffer : Bytes) :
    p.appendTo buffer = .ok (buffer ++ data.take p.totalLength.toNat) := by
  have hread := of_decode h
  -- a fragment after the first is opaque, whatever its protocol number announces
  have hbody : p.payload.appendTo [] p.pseudoHeader = .ok (saidBody data) := by
    by_cases hoffset : p.fragmentOffset = 0
    · exact Ipv4Payload.appendTo_of_kept (hread.leading hoffset) hkept [] _
    · rw [hread.later hoffset]
      rfl
  rw [appendTo_of_stored hread.wireIhl_le hread.totalLength_ne hchecksum hbody, octets_of_decode h]

end Ipv4

/-! ## Frames -/

namespace EthernetPayload

/-- How far a payload reaches into the octets behind the header: a packet as far as its total length
goes, a message as far as its addresses do, and opaque octets to the end. -/
def extent (rest : Bytes) : EthernetPayload → Nat
  | .ipv4 _ => (rest.be16At 2).toNat
  | .arp _ => Arp.fixedLength + 2 * ((rest.octet 4).toNat + (rest.octet 5).toNat)
  | .lldp _ | .data _ => rest.length

/-- The payloads that are written in the octets that they were read from. The elements of an LLDP frame
are put into order, and are left out here. -/
def Kept (rest : Bytes) : EthernetPayload → Prop
  | .ipv4 p => p.checksum ≠ 0 ∧ p.payload.Kept (Ipv4.saidBody rest)
  | .lldp _ => False
  | .arp _ | .data _ => True

/-- So is what a frame carries, up to the end that it states itself. -/
theorem appendTo_of_kept {type : UInt16} {rest : Bytes} {p : EthernetPayload}
    (h : decode type rest = .ok p) (hkept : p.Kept rest) (buffer : Bytes) :
    p.extent rest ≤ rest.length ∧ p.appendTo buffer = .ok (buffer ++ rest.take (p.extent rest)) := by
  rw [decode] at h
  split_ifs at h
  · obtain ⟨p, hread, hvalue⟩ := bind_eq_ok.mp h
    obtain rfl := Except.ok.inj hvalue
    have hwritten := Ipv4.appendTo_of_kept hread hkept.1 hkept.2 buffer
    have hwhole := (Ipv4.of_decode hread).isWhole
    rw [(Ipv4.of_decode hread).totalLength] at hwritten hwhole
    exact ⟨hwhole, hwritten⟩
  · obtain ⟨a, hread, hvalue⟩ := bind_eq_ok.mp h
    obtain rfl := Except.ok.inj hvalue
    obtain ⟨hlength, hencode⟩ := Arp.encode_of_decode hread
    refine ⟨hlength, ?_⟩
    rw [appendTo, Arp.appendTo_eq, hencode]
    rfl
  · obtain ⟨l, -, hvalue⟩ := bind_eq_ok.mp h
    obtain rfl := Except.ok.inj hvalue
    exact absurd hkept id
  · obtain rfl := Except.ok.inj h
    refine ⟨Nat.le_refl _, ?_⟩
    rw [extent, List.take_length]
    rfl

end EthernetPayload

namespace Ethernet

/-- A frame that was read is written as the octets that it was read from, cut where its payload ends. -/
theorem forwarded_exact {data : Bytes} {f : Ethernet} (h : decode data = .ok f)
    (hkept : f.payload.Kept (data.drop f.headerSize)) :
    f.headerSize + f.payload.extent (data.drop f.headerSize) ≤ data.length ∧
      f.encode = .ok (data.take (f.headerSize + f.payload.extent (data.drop f.headerSize))) := by
  obtain ⟨hlength, hheader, hpayload⟩ := header_of_decode h
  obtain ⟨hextent, hwritten⟩ := EthernetPayload.appendTo_of_kept hpayload hkept f.header
  constructor
  · rw [List.length_drop] at hextent
    omega
  · rw [encode, appendTo, List.nil_append, hwritten, hheader, List.take_add]

/-- The octets of a tagged frame whose packet and segment have options, with padding behind them. -/
def paddedSegment : Bytes :=
  [2, 0, 0, 0, 0, 2, 2, 0, 0, 0, 0, 1, 0x81, 0, 0xb0, 0x64, 8, 0,
    0x46, 0xb8, 0, 50, 0x12, 0x34, 0x40, 0, 64, 6, 0xab, 0xcd, 10, 0, 0, 1, 10, 0, 0, 2, 1, 1, 1, 0,
    4, 0, 0, 80, 0, 0, 0, 1, 0, 0, 0, 2, 0x61, 0x18, 0x10, 0, 0xbe, 0xef, 0, 0, 2, 4, 5, 0xb4, 104, 105,
    0, 0, 0, 0]

theorem forwarded_exact_paddedSegment :
    ∃ f, decode paddedSegment = .ok f ∧ f.payload.Kept (paddedSegment.drop f.headerSize) ∧
      f.encode = .ok (paddedSegment.take 68) ∧ paddedSegment.length = 72 := by
  obtain ⟨f, hread, hsize, hextent, hkept⟩ : ∃ f, decode paddedSegment = .ok f ∧ f.headerSize = 18 ∧
      f.payload.extent (paddedSegment.drop 18) = 50 ∧ f.payload.Kept (paddedSegment.drop 18) :=
    ⟨_, rfl, rfl, rfl, by decide, by decide, by decide⟩
  rw [← hsize] at hextent hkept
  have hwritten := (forwarded_exact hread hkept).2
  rw [hextent, hsize] at hwritten
  exact ⟨f, hread, hkept, hwritten, rfl⟩

end Ethernet

end Vswitch
