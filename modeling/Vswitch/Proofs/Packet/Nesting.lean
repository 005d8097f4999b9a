import Mathlib
import Vswitch.Proofs.Packet.Verbatim

/-!
# Lengths within lengths

A packet that carries a datagram has two lengths. They are checked apart, and the datagram may end
before the packet does. Both are kept, but what stands behind the datagram is not, so that the packet is
then written with a total length that speaks of octets that are not there.

* `Ipv4.decode_take_append`: octets behind the total length do not matter;
* `Ipv4.decode_short`: a packet of which octets are missing is refused;
* `Ipv4.opaque_reencoded`: what becomes of a packet with an opaque datagram.
-/

namespace Vswitch

namespace Ipv4

variable {data : Bytes} {p : Ipv4}

/-- A packet that was read is the one that is received behind its own header. -/
theorem received_of_decode (h : decode data = .ok p) :
    p.received p.totalLength p.payload = p := by
  have hread := of_decode h
  have hprotocol : p.payload.protocol?.getD p.protocol = p.protocol :=
    congrArg protocol (announced_of_decode h)
  have hihl : UInt8.ofNat p.wireIhl = p.ihl := by
    rw [hread.wireIhl_eq, UInt8.ofNat_toNat]
  have hflags : p.flags &&& 7 = p.flags := by
    rw [← fragmentWord_high, hread.fragmentWord_eq, hread.flags]
  have hoffset : p.fragmentOffset &&& 0x1fff = p.fragmentOffset := by
    rw [← fragmentWord_low, hread.fragmentWord_eq, hread.fragmentOffset]
  rw [received, hprotocol, hihl, hflags, hoffset]

/-- A packet is read from the octets of which its total length speaks, whatever stands behind them. -/
theorem decode_take_append (h : decode data = .ok p) (tail : Bytes) :
    decode (data.take p.totalLength.toNat ++ tail) = .ok p := by
  have hread := of_decode h
  have hsame := received_of_decode h
  have htotal : p.totalLength.toNat = 4 * p.wireIhl + (saidBody data).length := by
    rw [hread.wireIhl_eq]
    exact (length_saidBody h).2
  have hprotocol : p.payload.protocol?.getD p.protocol = p.protocol :=
    congrArg protocol (announced_of_decode h)
  have hoffset : p.fragmentOffset &&& 0x1fff = p.fragmentOffset := congrArg fragmentOffset hsame
  rw [← octets_of_decode h, List.append_assoc,
    decode_header_append hread.covers hread.wireIhl_le htotal, hprotocol, hoffset]
  by_cases hlater : p.fragmentOffset = 0
  · rw [if_pos hlater, hread.leading hlater, Except.map, hsame]
  · rw [if_neg hlater, ← hread.later hlater, hsame]

theorem decode_take (h : decode data = .ok p) : decode (data.take p.totalLength.toNat) = .ok p := by
  have hread := decode_take_append h []
  rwa [List.append_nil] at hread

/-- A header in front of fewer octets than its total length speaks of is refused. -/
theorem decode_short (hcovers : 4 * p.wireIhl = 20 + p.options.length) (hmax : p.wireIhl ≤ 15)
    {total : UInt16} {body : Bytes} (hshort : 4 * p.wireIhl + body.length < total.toNat) :
    decode (p.header total ++ body) =
      .error (.truncated .ipv4 total.toNat (4 * p.wireIhl + body.length)) := by
  have hlength : (p.header total ++ body).length = 4 * p.wireIhl + body.length := by
    have hheader := p.length_header total
    rw [List.length_append]
    omega
  obtain ⟨hfirst, -, hdeclared, -⟩ := p.read_header total body
  have hversion := version_ihl hmax
  have hihl : (UInt8.ofNat p.wireIhl).toNat = p.wireIhl := by
    rw [UInt8.toNat_ofNat']
    omega
  -- the header itself is there, and is what the total length speaks of first
  have hminimal : expectOctets .ipv4 minHeaderLength (p.header total ++ body) = .ok () :=
    expectOctets_of_le (by rw [hlength, minHeaderLength]; omega)
  have hheader : expectOctets .ipv4 (4 * p.wireIhl) (p.header total ++ body) = .ok () :=
    expectOctets_of_le (by omega)
  have hlong : ¬ 4 * p.wireIhl < minHeaderLength ∧ ¬ total.toNat < 4 * p.wireIhl := by
    rw [minHeaderLength]
    omega
  have hrefused : expectOctets .ipv4 total.toNat (p.header total ++ body) =
      .error (.truncated .ipv4 total.toNat (4 * p.wireIhl + body.length)) := by
    rw [expectOctets_of_lt (by omega), hlength]
  rw [decode]
  simp only [hminimal, hfirst, hversion.1, hversion.2, hihl, hheader, hlong.1, hlong.2, hdeclared,
    hrefused, bind, Except.bind, if_false, ne_eq, not_true]

/-- A packet with an opaque datagram is written up to the end of the datagram, with the total length
that it came with. It is read back if the datagram fills the packet, and is found truncated otherwise. -/
theorem opaque_reencoded {u : Udp} {bytes : Bytes} (h : decode data = .ok p)
    (hudp : p.payload = .udp u) (hdata : u.payload = .data bytes) (hchecksum : p.checksum ≠ 0)
    (hsegment : u.checksum ≠ 0) :
    4 * p.ihl.toNat + u.length.toNat ≤ p.totalLength.toNat ∧
      ∃ written, p.encode = .ok written ∧
        written = data.take (4 * p.ihl.toNat + u.length.toNat) ∧
        (4 * p.ihl.toNat + u.length.toNat = p.totalLength.toNat → decode written = .ok p) ∧
        (4 * p.ihl.toNat + u.length.toNat < p.totalLength.toNat →
          decode written = .error (.truncated .ipv4 p.totalLength.toNat
            (4 * p.ihl.toNat + u.length.toNat))) := by
  have hread := of_decode h
  have hdatagram := datagram_of_decode h hudp
  have hoctets := Udp.octets_of_decode hdatagram hdata
  obtain ⟨-, hends, -⟩ := Udp.of_decode hdatagram
  obtain ⟨hheader, htotal⟩ := length_saidBody h
  have hfits : 4 * p.ihl.toNat + u.length.toNat ≤ p.totalLength.toNat := by omega
  -- both lengths and both checksums are written as they stand
  have hsegmentWritten : p.payload.appendTo [] p.pseudoHeader = .ok u.octets := by
    rw [hudp, Ipv4Payload.appendTo]
    exact Udp.appendTo_of_stored (Udp.length_ne_of_decode hdatagram) (.inr hsegment) []
  have hencode : p.encode = .ok (p.header p.totalLength ++ u.octets) :=
    appendTo_of_stored hread.wireIhl_le hread.totalLength_ne hchecksum hsegmentWritten []
  have hwritten : p.header p.totalLength ++ u.octets =
      data.take (4 * p.ihl.toNat + u.length.toNat) := by
    have hcut := congrArg (List.take (4 * p.ihl.toNat + u.length.toNat)) (octets_of_decode h)
    rw [List.take_take, Nat.min_eq_left hfits, ← hheader, List.take_length_add_append, ← hoctets,
      hheader] at hcut
    exact hcut
  refine ⟨hfits, _, hencode, hwritten, ?_, ?_⟩
  · intro hfills
    rw [hwritten, hfills]
    exact decode_take h
  · intro hless
    have hlength : u.octets.length = u.length.toNat := by
      rw [hoctets, List.length_take_of_le hends]
    have hshort : 4 * p.wireIhl + u.octets.length < p.totalLength.toNat := by
      rw [hread.wireIhl_eq, hlength]
      exact hless
    rw [decode_short hread.covers hread.wireIhl_le hshort, hread.wireIhl_eq, hlength]

/-- The octets of a packet of 32 octets that carries a datagram of ten. -/
def slackDatagram : Bytes :=
  [0x45, 0, 0, 32, 0, 0, 0, 0, 64, 17, 0x66, 0xcb, 10, 0, 0, 1, 10, 0, 0, 2,
    0x0f, 0xa0, 0x13, 0x88, 0, 10, 0xc7, 0xad, 1, 2, 0, 0]

/-- The datagram in it. -/
def innerDatagram : Udp := ⟨4000, 5000, 10, 0xc7ad, .data [1, 2]⟩

/-- The packet as it is read. -/
def slackPacket : Ipv4 :=
  { ofPayload ⟨10, 0, 0, 1⟩ ⟨10, 0, 0, 2⟩ (.udp innerDatagram) with
    ihl := 5
    totalLength := 32
    checksum := 0x66cb }

theorem decode_slackDatagram : decode slackDatagram = .ok slackPacket := by decide

theorem opaque_reencoded_slackDatagram :
    decode slackDatagram = .ok slackPacket ∧ slackPacket.checksum ≠ 0 ∧ innerDatagram.checksum ≠ 0 ∧
      slackPacket.encode = .ok (slackDatagram.take 30) ∧
      decode (slackDatagram.take 30) = .error (.truncated .ipv4 32 30) := by
  obtain ⟨-, written, hencode, rfl, -, htruncated⟩ :=
    opaque_reencoded decode_slackDatagram rfl rfl (by decide) (by decide)
  exact ⟨decode_slackDatagram, by decide, by decide, hencode, htruncated (by decide)⟩

/-- Not every packet with an opaque datagram can be read again once it has been written. -/
theorem not_forall_opaque_read_back :
    ¬ ∀ (data : Bytes) (p : Ipv4) (u : Udp) (bytes : Bytes), decode data = .ok p →
      p.payload = .udp u → u.payload = .data bytes → p.checksum ≠ 0 → u.checksum ≠ 0 →
      ∃ written, p.encode = .ok written ∧ decode written = .ok p := by
  intro hstable
  obtain ⟨written, hencode, hread⟩ := hstable _ _ _ _ decode_slackDatagram rfl rfl (by decide)
    (by decide)
  have hwritten : slackPacket.encode = .ok (slackDatagram.take 30) := by decide
  rw [hwritten] at hencode
  obtain rfl := Except.ok.inj hencode
  have htruncated : decode (slackDatagram.take 30) = .error (.truncated .ipv4 32 30) := by decide
  rw [htruncated] at hread
  cases hread

end Ipv4

end Vswitch
