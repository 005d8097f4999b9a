import Mathlib
import Vswitch.Proofs.Packet.Sealing

/-!
# Lengths that are filled in

A length that is left to the encoder is to be that of what is written. The length of a datagram always
is. The total length of a packet counts the header length, and is wrong where a stored one does not cover
the options. The data offset of a segment has four bits, and no more than forty octets of options fit.

* `Udp.length_written`, `Ipv4.totalLength_written_iff`, `Tcp.dataOffset_written_iff`: what each field
  says;
* `lengths_written`: the three together.
-/

namespace Vswitch

/-! ## UDP -/

namespace Udp

/-- The length that is filled in is that of header and payload. -/
theorem length_written {u : Udp} {buffer bytes : Bytes} {pseudo : Option PseudoHeader}
    (h : u.length = 0) (hbytes : u.appendTo buffer pseudo = .ok bytes) :
    ∃ written, bytes = buffer ++ written ∧ (written.be16At 4).toNat = written.length := by
  rw [appendTo_of_length h] at hbytes
  split_ifs at hbytes with hfits
  obtain ⟨checksum, hfilled⟩ : ∃ checksum, u.filled pseudo = { u.measured with checksum } := by
    cases pseudo with
    | none => exact ⟨u.checksum, rfl⟩
    | some pseudo =>
      rw [filled]
      split_ifs
      · exact ⟨_, rfl⟩
      · exact ⟨u.checksum, rfl⟩
  have hlength : (u.filled pseudo).octets.length = u.size := by
    rw [length_octets, hfilled]
    rfl
  have hsaid : (u.filled pseudo).octets.be16At 4 = UInt16.ofNat u.size := by
    have hsplit := u.octets_eq (UInt16.ofNat u.size) checksum
    rw [hfilled, measured, hsplit, Bytes.be16At_append_right (by simp)]
    simp
  refine ⟨(u.filled pseudo).octets, (Except.ok.inj hbytes).symm, ?_⟩
  rw [hsaid, hlength, UInt16.toNat_ofNat']
  exact Nat.mod_eq_of_lt hfits

end Udp

/-! ## IPv4 -/

namespace Ipv4

/-- The total length that is filled in is that of what is written exactly if the header length covers
the options, as it does when it is left to the encoder too. -/
theorem totalLength_written_iff {p : Ipv4} {buffer bytes : Bytes} (h : p.totalLength = 0)
    (hbytes : p.appendTo buffer = .ok bytes) :
    ∃ written, bytes = buffer ++ written ∧
      ((written.be16At 2).toNat = written.length ↔
        p.ihl = 0 ∨ minHeaderLength + p.options.length ≤ 4 * p.ihl.toNat) := by
  obtain ⟨payload, total, -, -, hdeclared, rfl⟩ := appendTo_eq_ok hbytes
  obtain ⟨checksum, hheader⟩ := p.exists_sealedHeader_header total
  have htotal : total.toNat = 4 * p.wireIhl + payload.length := by
    rw [declaredLength, if_pos h, lengthField] at hdeclared
    split_ifs at hdeclared with hfits
    obtain rfl := Except.ok.inj hdeclared
    rw [UInt16.toNat_ofNat']
    exact Nat.mod_eq_of_lt hfits
  have hsaid : (p.sealedHeader total ++ payload).be16At 2 = total := by
    obtain ⟨-, -, hread, -⟩ := read_header { p with checksum } total payload
    rw [hheader, hread]
  -- what is written is the longer of what the header length says and what the options take
  have hlength : (p.sealedHeader total ++ payload).length =
      max (20 + p.options.length) (4 * p.wireIhl) + payload.length := by
    have hlonger := length_header { p with checksum } total
    rw [List.length_append, hheader, hlonger]
    rfl
  have hcovers : 20 + p.options.length ≤ 4 * p.wireIhl ↔
      p.ihl = 0 ∨ minHeaderLength + p.options.length ≤ 4 * p.ihl.toNat := by
    rw [wireIhl, minHeaderLength]
    split_ifs with hzero
    · exact ⟨fun _ => .inl hzero, fun _ => by omega⟩
    · exact ⟨.inr, fun hor => hor.resolve_left hzero⟩
  refine ⟨_, rfl, ?_⟩
  rw [hsaid, hlength, htotal, ← hcovers]
  omega

end Ipv4

/-! ## TCP -/

namespace Tcp

variable {t : Tcp}

theorem length_header (t : Tcp) :
    t.header.length = max (20 + t.options.length) (4 * t.wireOffset.toNat) := by
  rw [header, Bytes.length_padTo]
  simp
  omega

/-- The data offset that is read, of which the four low bits are those of the number that was meant. The
control bits share the word, and nothing cuts them off. -/
theorem toNat_dataOffset_header (t : Tcp) :
    (t.header.octet 12 >>> 4).toNat = t.wireOffset.toNat % 16 ||| t.flags.toNat / 4096 := by
  obtain ⟨rest, hany⟩ := t.exists_header_eq
  have hheader : t.header = t.front ++ (Bytes.be16 t.checksum ++ rest) := hany t.checksum
  have hfirst : t.header.octet 12 =
      UInt8.ofNat (((t.wireOffset.toUInt16 <<< 12) ||| t.flags).toNat / 256) := by
    rw [hheader, front]
    simp
  have hlt := ((t.wireOffset.toUInt16 <<< 12) ||| t.flags).toNat_lt
  have hoctet : (t.header.octet 12 >>> 4).toNat =
      ((t.wireOffset.toUInt16 <<< 12) ||| t.flags).toNat / 4096 := by
    rw [hfirst, UInt8.toNat_shiftRight, Nat.shiftRight_eq_div_pow, UInt8.toNat_ofNat']
    show _ / 256 % 256 / 16 = _
    omega
  have hshifted : (t.wireOffset.toUInt16 <<< 12).toNat / 4096 = t.wireOffset.toNat % 16 := by
    rw [UInt16.toNat_shiftLeft, UInt8.toNat_toUInt16, Nat.shiftLeft_eq]
    show t.wireOffset.toNat * 4096 % 65536 / 4096 = _
    omega
  rw [hoctet, UInt16.toNat_or, ← hshifted]
  show (_ ||| _) / 2 ^ 12 = _ / 2 ^ 12 ||| _ / 2 ^ 12
  exact Nat.or_div_two_pow

/-- The data offset that is filled in is that of the header exactly if the options fit it and the
control bits leave it alone. -/
theorem dataOffset_written_iff (h : t.dataOffset = 0) (buffer : Bytes)
    (pseudo : Option PseudoHeader) :
    ∃ head, t.appendTo buffer pseudo = buffer ++ (head ++ t.payload) ∧
      (4 * (head.octet 12 >>> 4).toNat = head.length ↔
        t.options.length ≤ 40 ∧
          t.wireOffset.toNat ||| t.flags.toNat / 4096 = t.wireOffset.toNat) := by
  obtain ⟨checksum, hwritten⟩ := t.exists_appendTo_header buffer pseudo
  have hsaid : ((header { t with checksum }).octet 12 >>> 4).toNat =
      t.wireOffset.toNat % 16 ||| t.flags.toNat / 4096 := toNat_dataOffset_header { t with checksum }
  have hlength : (header { t with checksum }).length =
      max (20 + t.options.length) (4 * t.wireOffset.toNat) := length_header { t with checksum }
  have hmeant : t.wireOffset.toNat = (23 + t.options.length) / 4 % 256 := by
    rw [wireOffset, if_pos h, minHeaderLength, UInt8.toNat_ofNat']
    show (20 + t.options.length + 3) / 4 % 256 = _
    omega
  have hnibble : ((header { t with checksum }).octet 12 >>> 4).toNat < 16 := by
    have hlt := ((header { t with checksum }).octet 12).toNat_lt
    rw [UInt8.toNat_shiftRight, Nat.shiftRight_eq_div_pow]
    show _ / 16 < 16
    omega
  refine ⟨_, hwritten, ?_⟩
  by_cases hfits : t.options.length ≤ 40
  · -- the number that is meant is not cut, and the header is as long as it says
    have hwhole : t.wireOffset.toNat % 16 = t.wireOffset.toNat := by omega
    rw [hwhole] at hsaid
    rw [hlength, hsaid]
    have hcovers : max (20 + t.options.length) (4 * t.wireOffset.toNat) =
        4 * t.wireOffset.toNat := by omega
    rw [hcovers, Nat.mul_left_cancel_iff (by decide)]
    exact ⟨fun heq => ⟨hfits, heq⟩, fun heq => heq.2⟩
  · constructor
    · intro heq
      omega
    · rintro ⟨hshort, -⟩
      exact absurd hshort hfits

end Tcp

/-! ## The three together -/

/-- Which lengths that are left to the encoder are those of what is written, behind any buffer. -/
theorem lengths_written (u : Udp) (p : Ipv4) (t : Tcp) (buffer : Bytes)
    (pseudo : Option PseudoHeader) :
    (u.length = 0 → ∀ bytes, u.appendTo buffer pseudo = .ok bytes →
      ∃ written, bytes = buffer ++ written ∧ (written.be16At 4).toNat = written.length) ∧
    (p.totalLength = 0 → ∀ bytes, p.appendTo buffer = .ok bytes →
      ∃ written, bytes = buffer ++ written ∧
        ((written.be16At 2).toNat = written.length ↔
          p.ihl = 0 ∨ Ipv4.minHeaderLength + p.options.length ≤ 4 * p.ihl.toNat)) ∧
    (t.dataOffset = 0 →
      ∃ head, t.appendTo buffer pseudo = buffer ++ (head ++ t.payload) ∧
        (4 * (head.octet 12 >>> 4).toNat = head.length ↔
          t.options.length ≤ 40 ∧
            t.wireOffset.toNat ||| t.flags.toNat / 4096 = t.wireOffset.toNat)) := by
  refine ⟨?_, ?_, ?_⟩
  · intro hlength bytes hbytes
    exact Udp.length_written hlength hbytes
  · intro htotal bytes hbytes
    exact Ipv4.totalLength_written_iff htotal hbytes
  · intro hoffset
    exact Tcp.dataOffset_written_iff hoffset buffer pseudo

/-- A packet with a header length of fifteen words, and options that take it to sixteen. -/
def outgrownPacket : Ipv4 :=
  { Ipv4.ofPayload ⟨10, 0, 0, 1⟩ ⟨10, 0, 0, 2⟩ (.data [1, 2]) with
    ihl := 15
    options := List.replicate 44 1 }

/-- A segment with as many options, its data offset left to the encoder. -/
def outgrownSegment : Tcp :=
  { Tcp.ofPorts 1024 80 2 with options := List.replicate 44 1, payload := [104, 105] }

/-- A datagram of eleven octets. -/
def shortDatagram : Udp := Udp.ofPayload 4000 5000 (.data [1, 2, 3])

theorem lengths_written_outgrown :
    (∃ written : Bytes, shortDatagram.appendTo [0xff] none = .ok ([0xff] ++ written) ∧
      (written.be16At 4).toNat = written.length) ∧
    (∃ written : Bytes, outgrownPacket.appendTo [0xff] = .ok ([0xff] ++ written) ∧
      (written.be16At 2).toNat ≠ written.length) ∧
    ∃ head : Bytes, outgrownSegment.appendTo [0xff] none =
        [0xff] ++ (head ++ outgrownSegment.payload) ∧
      4 * (head.octet 12 >>> 4).toNat ≠ head.length := by
  obtain ⟨hdatagram, hpacket, hsegment⟩ :=
    lengths_written shortDatagram outgrownPacket outgrownSegment [0xff] none
  refine ⟨?_, ?_, ?_⟩
  · obtain ⟨bytes, hbytes⟩ : ∃ bytes, shortDatagram.appendTo [0xff] none = .ok bytes := ⟨_, rfl⟩
    obtain ⟨written, rfl, hsaid⟩ := hdatagram rfl _ hbytes
    exact ⟨written, hbytes, hsaid⟩
  · obtain ⟨bytes, hbytes⟩ : ∃ bytes, outgrownPacket.appendTo [0xff] = .ok bytes := ⟨_, rfl⟩
    obtain ⟨written, rfl, hsaid⟩ := hpacket rfl _ hbytes
    refine ⟨written, hbytes, ?_⟩
    rw [ne_eq, hsaid]
    decide
  · obtain ⟨head, hwritten, hsaid⟩ := hsegment rfl
    refine ⟨head, hwritten, ?_⟩
    rw [ne_eq, hsaid]
    decide

/-- Neither the total length nor the data offset is always that of what is written. -/
theorem not_forall_lengths_true :
    (¬ ∀ (p : Ipv4) (buffer bytes : Bytes), p.totalLength = 0 → p.appendTo buffer = .ok bytes →
      ∃ written, bytes = buffer ++ written ∧ (written.be16At 2).toNat = written.length) ∧
    ¬ ∀ (t : Tcp) (buffer : Bytes) (pseudo : Option PseudoHeader), t.dataOffset = 0 →
      ∃ head, t.appendTo buffer pseudo = buffer ++ (head ++ t.payload) ∧
        4 * (head.octet 12 >>> 4).toNat = head.length := by
  constructor
  · intro hall
    obtain ⟨bytes, hbytes⟩ : ∃ bytes, outgrownPacket.appendTo [] = .ok bytes := ⟨_, rfl⟩
    obtain ⟨written, hwritten, hsaid⟩ := Ipv4.totalLength_written_iff (p := outgrownPacket) rfl hbytes
    obtain ⟨written', hwritten', htrue⟩ := hall outgrownPacket [] bytes rfl hbytes
    obtain rfl : written = written' := List.append_cancel_left (hwritten.symm.trans hwritten')
    exact absurd (hsaid.mp htrue) (by decide)
  · intro hall
    obtain ⟨head, hwritten, hsaid⟩ :=
      Tcp.dataOffset_written_iff (t := outgrownSegment) rfl [] none
    obtain ⟨head', hwritten', htrue⟩ := hall outgrownSegment [] none rfl
    obtain rfl : head = head' := List.append_cancel_right (hwritten.symm.trans hwritten')
    exact absurd (hsaid.mp htrue) (by decide)

end Vswitch
