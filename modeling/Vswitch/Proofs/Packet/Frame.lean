import Mathlib
import Vswitch.Packet.Ethernet
import Vswitch.Proofs.Packet.Link
import Vswitch.Proofs.Packet.Transport

/-!
# Frames, written and read

Packets and frames over the transport headers and the link-layer parts. A representable frame is
encoded exactly if all of it fits its length fields, and the decoder then reads back the frame with
all its derived fields filled in.

* `Ipv4.completed`, `Ethernet.completed`: what is filled in;
* `Ipv4.Representable.appendTo_of_fits`, `Ipv4.Representable.decode_encoded`: the two directions for
  a packet;
* `Ethernet.frame_round_trip`: the round trip of a frame.
-/

namespace Vswitch

/-! ## What a packet carries -/

namespace Ipv4Payload

/-- The payloads that the wire can hold. -/
def Representable : Ipv4Payload → Prop
  | .tcp t => t.Representable
  | .udp u => u.Representable
  | .icmp i => i.checksum = 0
  | .data _ => True

/-- Octets of the payload. -/
def size : Ipv4Payload → Nat
  | .tcp t => 20 + t.options.length + t.payload.length
  | .udp u => u.size
  | .icmp i => 8 + i.data.length
  | .data bytes => bytes.length

/-- Whether the payload fits a length field of its own. -/
def Fits : Ipv4Payload → Prop
  | .udp u => u.size ≤ 65535
  | _ => True

/-- The payload with its derived fields. -/
def completed (pseudo : PseudoHeader) : Ipv4Payload → Ipv4Payload
  | .tcp t => .tcp (t.completed pseudo)
  | .udp u => .udp (u.completed pseudo)
  | .icmp i => .icmp i.completed
  | .data bytes => .data bytes

/-- The octets of a payload as its fields stand. -/
def octets : Ipv4Payload → Bytes
  | .tcp t => t.octets
  | .udp u => u.octets
  | .icmp i => i.octets
  | .data bytes => bytes

variable {p : Ipv4Payload}

/-- Completing a payload keeps its size. -/
theorem length_completed (h : p.Representable) (pseudo : PseudoHeader) :
    (p.completed pseudo).octets.length = p.size := by
  cases p with
  | tcp t => exact h.length_completed pseudo
  | udp u => exact Udp.length_octets (u.completed pseudo)
  | icmp i => exact Icmp.length_octets i.completed
  | data bytes => rfl

/-- A payload that fits is appended with its derived fields. -/
theorem appendTo_of_fits (h : p.Representable) (hfits : p.Fits) (buffer : Bytes)
    (pseudo : PseudoHeader) :
    p.appendTo buffer pseudo = .ok (buffer ++ (p.completed pseudo).octets) := by
  cases p with
  | tcp t => exact congrArg Except.ok (Tcp.Representable.appendTo_eq h buffer pseudo)
  | udp u => exact (Udp.appendTo_eq h buffer pseudo).trans (if_pos (Nat.lt_succ_of_le hfits))
  | icmp i => exact congrArg Except.ok (Icmp.appendTo_eq h buffer)
  | data bytes => rfl

/-- One that does not is refused. -/
theorem appendTo_of_not_fits (h : p.Representable) (hfits : ¬ p.Fits) (buffer : Bytes)
    (pseudo : PseudoHeader) : ∃ error, p.appendTo buffer pseudo = .error error := by
  cases p with
  | udp u =>
    have hlarge : ¬ u.size < 65536 := fun hlt => hfits (Nat.le_of_lt_succ hlt)
    exact ⟨_, (Udp.appendTo_eq h buffer pseudo).trans (if_neg hlarge)⟩
  | tcp | icmp | data => exact absurd trivial hfits

/-- A payload is read back under the protocol number that it announces, and opaque octets under any
that no header has. -/
theorem decode_octets (h : p.Representable) (hfits : p.Fits) (pseudo : PseudoHeader)
    {protocol : UInt8}
    (hunclaimed : p.protocol? = none → protocol ≠ IpProtocol.tcp ∧ protocol ≠ IpProtocol.udp ∧
      protocol ≠ IpProtocol.icmp) :
    decode (p.protocol?.getD protocol) (p.completed pseudo).octets = .ok (p.completed pseudo) := by
  cases p with
  | tcp t =>
    have hread := Tcp.Representable.decode_octets h pseudo
    simp only [protocol?, Option.getD_some, decode, if_true, completed, octets, hread]
    rfl
  | udp u =>
    have hread := Udp.decode_octets h (Nat.lt_succ_of_le hfits) pseudo
    have hne : IpProtocol.udp ≠ IpProtocol.tcp := by decide
    simp only [protocol?, Option.getD_some, decode, hne, if_true, if_false, completed, octets,
      hread]
    rfl
  | icmp i =>
    have hread := i.completed.decode_octets
    have hne : IpProtocol.icmp ≠ IpProtocol.tcp ∧ IpProtocol.icmp ≠ IpProtocol.udp := by decide
    simp only [protocol?, Option.getD_some, decode, hne, if_true, if_false, completed, octets,
      hread]
    rfl
  | data bytes =>
    -- opaque octets under a known protocol would be read as that
    have hne := hunclaimed rfl
    simp only [protocol?, Option.getD_none, decode, hne, if_false, completed, octets]
    rfl

end Ipv4Payload

/-! ## IPv4 -/

namespace Ipv4

/-! ### Headers -/

/-- The fragment flags and the fragment offset in one word. -/
def fragmentWord (p : Ipv4) : UInt16 :=
  ((p.flags &&& 7).toUInt16 <<< 13) ||| (p.fragmentOffset &&& 0x1fff)

theorem toNat_flags_lt (p : Ipv4) : (p.flags &&& 7).toNat < 8 := by
  rw [UInt8.toNat_and]
  exact Nat.and_lt_two_pow _ (n := 3) (by decide)

theorem toNat_fragmentOffset_lt (p : Ipv4) : (p.fragmentOffset &&& 0x1fff).toNat < 8192 := by
  rw [UInt16.toNat_and]
  exact Nat.and_lt_two_pow _ (n := 13) (by decide)

/-- The flags stand above the thirteen bits of the offset. -/
theorem toNat_fragmentWord (p : Ipv4) :
    p.fragmentWord.toNat = (p.flags &&& 7).toNat * 8192 + (p.fragmentOffset &&& 0x1fff).toNat := by
  have hflags := p.toNat_flags_lt
  have hoffset := p.toNat_fragmentOffset_lt
  rw [fragmentWord, Bytes.toNat_shiftLeft_or (by decide) hoffset, UInt8.toNat_toUInt16]
  · rfl
  · show (p.flags &&& 7).toUInt16.toNat * 8192 < 65536
    rw [UInt8.toNat_toUInt16]
    omega

/-- The low thirteen bits are the offset. -/
theorem fragmentWord_low (p : Ipv4) : p.fragmentWord &&& 0x1fff = p.fragmentOffset &&& 0x1fff := by
  have hword := p.toNat_fragmentWord
  have hoffset := p.toNat_fragmentOffset_lt
  rw [← UInt16.toNat_inj, Bytes.toNat_and_mask (k := 13) rfl, hword]
  show _ % 8192 = _
  omega

/-- The high three are the flags. -/
theorem fragmentWord_high (p : Ipv4) : (p.fragmentWord >>> 13).toUInt8 = p.flags &&& 7 := by
  have hword := p.toNat_fragmentWord
  have hoffset := p.toNat_fragmentOffset_lt
  have hflags := p.toNat_flags_lt
  rw [← UInt8.toNat_inj, UInt16.toNat_toUInt8, Bytes.toNat_shiftRight (by decide), hword]
  show _ / 8192 % 256 = _
  omega

/-- The first octet holds the version above the header length. -/
theorem version_ihl {n : Nat} (h : n ≤ 15) :
    UInt8.ofNat (64 + n) >>> 4 = 4 ∧ UInt8.ofNat (64 + n) &&& 0x0f = UInt8.ofNat n := by
  interval_cases n <;> decide

/-- A header field by field, its options filled up to the header length. -/
theorem header_fields (p : Ipv4) (total : UInt16) :
    p.header total = [UInt8.ofNat (64 + p.wireIhl), p.tos] ++ (Bytes.be16 total ++
      (Bytes.be16 p.identification ++ (Bytes.be16 p.fragmentWord ++
        ([p.ttl, p.payload.protocol?.getD p.protocol] ++ (Bytes.be16 p.checksum ++
          (p.source.octets ++ (p.destination.octets ++ (p.options ++
            Bytes.zeros (4 * p.wireIhl - (20 + p.options.length)))))))))) := by
  have hwritten : 2 + (2 + (2 + (2 + (4 + (4 + p.options.length)) + 1 + 1))) + 1 + 1 =
      20 + p.options.length := by omega
  rw [header, Bytes.padTo]
  simp [fragmentWord, hwritten]

/-- A header that holds exactly the options, field by field. -/
theorem header_eq (p : Ipv4) (hcovers : 4 * p.wireIhl = 20 + p.options.length) (total : UInt16) :
    p.header total = [UInt8.ofNat (64 + p.wireIhl), p.tos] ++ (Bytes.be16 total ++
      (Bytes.be16 p.identification ++ (Bytes.be16 p.fragmentWord ++
        ([p.ttl, p.payload.protocol?.getD p.protocol] ++ (Bytes.be16 p.checksum ++
          (p.source.octets ++ (p.destination.octets ++ p.options))))))) := by
  rw [header_fields, hcovers, Nat.sub_self, Bytes.zeros, List.replicate_zero, List.append_nil]

/-- The fields of a header, read at their places. -/
theorem read_header (p : Ipv4) (total : UInt16) (tail : Bytes) :
    (p.header total ++ tail).octet 0 = UInt8.ofNat (64 + p.wireIhl) ∧
      (p.header total ++ tail).octet 1 = p.tos ∧ (p.header total ++ tail).be16At 2 = total ∧
      (p.header total ++ tail).be16At 4 = p.identification ∧
      (p.header total ++ tail).be16At 6 = p.fragmentWord ∧ (p.header total ++ tail).octet 8 = p.ttl ∧
      (p.header total ++ tail).octet 9 = p.payload.protocol?.getD p.protocol ∧
      (p.header total ++ tail).be16At 10 = p.checksum ∧
      Ipv4Addr.ofBytes (p.header total ++ tail) 12 = p.source ∧
      Ipv4Addr.ofBytes (p.header total ++ tail) 16 = p.destination := by
  rw [header_fields]
  refine ⟨?_, ?_, ?_, ?_, ?_, ?_, ?_, ?_, ?_, ?_⟩ <;> simp

/-- The packet that the decoder finds behind a header, and what it carries. -/
def received (p : Ipv4) (total : UInt16) (payload : Ipv4Payload) : Ipv4 :=
  { p with
    ihl := UInt8.ofNat p.wireIhl
    totalLength := total
    flags := p.flags &&& 7
    fragmentOffset := p.fragmentOffset &&& 0x1fff
    protocol := p.payload.protocol?.getD p.protocol
    payload := payload }

/-- A header that holds exactly the options is read back in front of the octets that its total length
speaks of, and of anything behind them. What they are read as depends on where the fragment stands. -/
theorem decode_header_append {p : Ipv4} (hcovers : 4 * p.wireIhl = 20 + p.options.length)
    (hmax : p.wireIhl ≤ 15) {total : UInt16} {body : Bytes}
    (htotal : total.toNat = 4 * p.wireIhl + body.length) (tail : Bytes) :
    decode (p.header total ++ (body ++ tail)) =
      if p.fragmentOffset &&& 0x1fff = 0 then
        (Ipv4Payload.decode (p.payload.protocol?.getD p.protocol) body).map (p.received total)
      else .ok (p.received total (.data body)) := by
  have hheader := p.header_eq hcovers total
  have hwritten : (p.header total).length = 20 + p.options.length := by
    rw [hheader]
    simp
    omega
  have hlength : total.toNat ≤ (p.header total ++ (body ++ tail)).length := by
    rw [List.length_append, List.length_append, hwritten, htotal, hcovers]
    omega
  obtain ⟨hfirst, htos, hdeclared, hid, hfragment, httl, hprotocol, hchecksum, hsource,
    hdestination⟩ := p.read_header total (body ++ tail)
  have hoptions : (p.header total ++ (body ++ tail)).slice 20 p.options.length = p.options := by
    rw [hheader]
    simp
  have hbody : (p.header total ++ (body ++ tail)).slice (20 + p.options.length) body.length = body :=
    Bytes.slice_behind hwritten rfl
  have hihl : (UInt8.ofNat p.wireIhl).toNat = p.wireIhl := by
    rw [UInt8.toNat_ofNat']
    omega
  have hversion := version_ihl hmax
  have hlow := p.fragmentWord_low
  have hhigh := p.fragmentWord_high
  -- what the decoder checks before it reads on
  have hminimal : expectOctets .ipv4 20 (p.header total ++ (body ++ tail)) = .ok () :=
    expectOctets_of_le (by omega)
  have hall : expectOctets .ipv4 (20 + p.options.length) (p.header total ++ (body ++ tail)) =
      .ok () := expectOctets_of_le (by omega)
  have hdeclares : expectOctets .ipv4 total.toNat (p.header total ++ (body ++ tail)) = .ok () :=
    expectOctets_of_le hlength
  have hholds : ¬ total.toNat < 20 + p.options.length := by omega
  have hrest : total.toNat - (20 + p.options.length) = body.length := by omega
  rw [decode]
  simp only [hminimal, hfirst, hversion.1, hversion.2, hihl, hcovers, hdeclared, hall, hdeclares,
    hholds, hrest, hbody, hfragment, hlow, hhigh, hprotocol, minHeaderLength,
    Nat.not_lt.mpr (Nat.le_add_right 20 _), Nat.add_sub_cancel_left, hoptions, htos, hid, httl,
    hchecksum, hsource, hdestination, if_false, ne_eq, not_true]
  by_cases hlater : p.fragmentOffset &&& 0x1fff = 0
  · rw [if_neg (not_not.mpr hlater), if_pos hlater]
    cases Ipv4Payload.decode (p.payload.protocol?.getD p.protocol) body <;> rfl
  · rw [if_pos hlater, if_neg hlater]
    rfl

/-- A header followed by its payload is read back, and the payload only in a first fragment. -/
theorem decode_header {p : Ipv4} (hcovers : 4 * p.wireIhl = 20 + p.options.length)
    (hmax : p.wireIhl ≤ 15) {total : UInt16} {body : Bytes}
    (htotal : total.toNat = 4 * p.wireIhl + body.length) :
    decode (p.header total ++ body) =
      if p.fragmentOffset &&& 0x1fff = 0 then
        (Ipv4Payload.decode (p.payload.protocol?.getD p.protocol) body).map (p.received total)
      else .ok (p.received total (.data body)) := by
  have hread := decode_header_append hcovers hmax htotal []
  rwa [List.append_nil] at hread

/-! ### Round trip -/

/-- The packets that the wire can hold, without header length, total length and checksum. A fragment
other than the first carries opaque octets; all other opaque octets go by a protocol number that no
header has. -/
structure Representable (p : Ipv4) : Prop where
  ihl : p.ihl = 0
  totalLength : p.totalLength = 0
  checksum : p.checksum = 0
  flags : p.flags.toNat < 8
  fragmentOffset : p.fragmentOffset.toNat < 8192
  aligned : 4 ∣ p.options.length
  payload : p.payload.Representable
  later : p.fragmentOffset ≠ 0 → p.payload.protocol? = none
  unclaimed : p.fragmentOffset = 0 → p.payload.protocol? = none →
    p.protocol ≠ IpProtocol.tcp ∧ p.protocol ≠ IpProtocol.udp ∧ p.protocol ≠ IpProtocol.icmp

/-- Octets of the packet. -/
def size (p : Ipv4) : Nat := 20 + p.options.length + p.payload.size

/-- Whether the packet fits its length fields. -/
structure Fits (p : Ipv4) : Prop where
  options : p.options.length ≤ 40
  payload : p.payload.Fits
  size : p.size ≤ 65535

/-- The packet with its derived fields. -/
def completed (p : Ipv4) : Ipv4 :=
  { p with
    ihl := UInt8.ofNat p.wireIhl
    totalLength := UInt16.ofNat p.size
    protocol := p.payload.protocol?.getD p.protocol
    checksum := Checksum.ofBytes (p.header (UInt16.ofNat p.size))
    payload := p.payload.completed p.pseudoHeader }

/-- The header in front of the checksum. -/
def front (p : Ipv4) : Bytes :=
  [UInt8.ofNat (64 + p.wireIhl), p.tos] ++ (Bytes.be16 (UInt16.ofNat p.size) ++
    (Bytes.be16 p.identification ++ (Bytes.be16 p.fragmentWord ++
      [p.ttl, p.payload.protocol?.getD p.protocol])))

/-- The octets of the packet with its derived fields. -/
def encoded (p : Ipv4) : Bytes :=
  p.front ++ (Bytes.be16 p.completed.checksum ++ (p.source.octets ++ (p.destination.octets ++
    (p.options ++ p.completed.payload.octets))))

namespace Representable

variable {p : Ipv4}

/-- The header length counts the options. -/
theorem wireIhl_eq (h : p.Representable) : 4 * p.wireIhl = 20 + p.options.length := by
  have haligned := h.aligned
  rw [wireIhl, if_pos h.ihl, minHeaderLength]
  omega

/-- The checksum stands between two parts of the header that do not depend on it. -/
theorem header_eq (h : p.Representable) (checksum : UInt16) :
    { p with checksum }.header (UInt16.ofNat p.size) =
      p.front ++ (Bytes.be16 checksum ++ (p.source.octets ++ (p.destination.octets ++ p.options))) := by
  have hfields := Ipv4.header_eq { p with checksum } h.wireIhl_eq (UInt16.ofNat p.size)
  rw [hfields, front]
  simp only [List.append_assoc]
  rfl

theorem length_header (h : p.Representable) :
    (p.header (UInt16.ofNat p.size)).length = 4 * p.wireIhl := by
  rw [h.header_eq, h.wireIhl_eq]
  simp [front]
  omega

/-- The encoder succeeds exactly if the packet fits its length fields. -/
theorem appendTo_of_fits (h : p.Representable) (hfits : p.Fits) (buffer : Bytes) :
    p.appendTo buffer = .ok (buffer ++ p.encoded) := by
  have hwire := h.wireIhl_eq
  have hshort := hfits.options
  have hpayload := Ipv4Payload.appendTo_of_fits h.payload hfits.payload [] p.pseudoHeader
  have hlength := Ipv4Payload.length_completed h.payload p.pseudoHeader
  have hsize : 4 * p.wireIhl + p.payload.size = p.size := by
    rw [hwire]
    rfl
  have htotal : lengthField .ipv4 .totalLength p.size = .ok (UInt16.ofNat p.size) :=
    if_pos (Nat.lt_succ_of_le hfits.size)
  have hslice : (buffer ++ p.header (UInt16.ofNat p.size)).slice buffer.length (4 * p.wireIhl) =
      p.header (UInt16.ofNat p.size) := by
    rw [Bytes.slice_append_right (Nat.le_refl _), Nat.sub_self, Bytes.slice_self h.length_header]
  rw [appendTo, if_neg (by omega), hpayload]
  simp only [bind, Except.bind, h.totalLength, h.checksum, if_true, List.nil_append, hlength, hsize,
    htotal, hslice]
  rw [h.header_eq, ← List.append_assoc buffer, Bytes.overwrite_be16 (by simp [front])]
  simp only [encoded, completed, List.append_assoc, h.header_eq]
  rfl

/-- A packet is refused if it, or its payload, does not fit its length field. -/
theorem appendTo_of_not_fits (h : p.Representable) (hfits : ¬ p.Fits) (buffer : Bytes) :
    ∃ error, p.appendTo buffer = .error error := by
  have hwire := h.wireIhl_eq
  by_cases hlong : 15 < p.wireIhl
  · exact ⟨_, by rw [appendTo, if_pos hlong]; rfl⟩
  rw [appendTo, if_neg hlong]
  by_cases hpayload : p.payload.Fits
  · rw [Ipv4Payload.appendTo_of_fits h.payload hpayload]
    have hlength := Ipv4Payload.length_completed h.payload p.pseudoHeader
    have hsize : 4 * p.wireIhl + p.payload.size = p.size := by
      rw [hwire]
      rfl
    have hlarge : ¬ p.size < 65536 := by
      intro hlt
      exact hfits ⟨by omega, hpayload, Nat.le_of_lt_succ hlt⟩
    refine ⟨.invalidField .ipv4 .totalLength p.size, ?_⟩
    simp only [bind, Except.bind, h.totalLength, if_true, List.nil_append, hlength, hsize,
      lengthField, hlarge, if_false]
  · rcases Ipv4Payload.appendTo_of_not_fits h.payload hpayload [] p.pseudoHeader with
      ⟨error, herror⟩
    exact ⟨error, by rw [herror]; rfl⟩

/-- A packet that fits is read back with its derived fields. -/
theorem decode_encoded (h : p.Representable) (hfits : p.Fits) :
    decode p.encoded = .ok p.completed := by
  have hcovers := h.wireIhl_eq
  have hshort := hfits.options
  have hsize := hfits.size
  have hpayload := Ipv4Payload.length_completed h.payload p.pseudoHeader
  have hencoded : p.encoded =
      { p with checksum := p.completed.checksum }.header (UInt16.ofNat p.size) ++
        (p.payload.completed p.pseudoHeader).octets := by
    rw [h.header_eq, encoded]
    simp only [List.append_assoc]
    rfl
  have hflags : p.flags &&& 7 = p.flags := by
    rw [← UInt8.toNat_inj, ← UInt8.toNat_toUInt16]
    exact Bytes.toNat_toUInt16_and_mask (k := 3) rfl h.flags
  have hoffset : p.fragmentOffset &&& 0x1fff = p.fragmentOffset :=
    Bytes.and_mask_of_lt (k := 13) rfl h.fragmentOffset
  have htotal : (UInt16.ofNat p.size).toNat =
      4 * p.wireIhl + (p.payload.completed p.pseudoHeader).octets.length := by
    rw [UInt16.toNat_ofNat', Nat.mod_eq_of_lt (Nat.lt_succ_of_le hsize), hpayload, hcovers]
    rfl
  have hreceived (payload : Ipv4Payload) :
      received { p with checksum := p.completed.checksum } (UInt16.ofNat p.size) payload =
        { p.completed with payload } := by
    simp only [received, hflags, hoffset]
    rfl
  have hread := decode_header (p := { p with checksum := p.completed.checksum }) hcovers
    (show p.wireIhl ≤ 15 by omega) htotal
  simp only [hoffset] at hread
  rw [hencoded, hread]
  by_cases hlater : p.fragmentOffset = 0
  · have hbody := Ipv4Payload.decode_octets h.payload hfits.payload p.pseudoHeader
      (h.unclaimed hlater)
    rw [if_pos hlater, hbody, Except.map, hreceived]
    rfl
  · -- a later fragment is not looked into, and carries opaque octets
    have hnone := h.later hlater
    rw [if_neg hlater, hreceived]
    cases hdata : p.payload with
    | data bytes =>
      simp only [completed, hdata]
      rfl
    | tcp | udp | icmp =>
      rw [hdata] at hnone
      cases hnone

end Representable

end Ipv4

/-! ## Ethernet -/

namespace EthernetPayload

/-- The payloads that the wire can hold. -/
def Representable : EthernetPayload → Prop
  | .ipv4 p => p.Representable
  | .arp a => a.Representable
  | .lldp l => l.Representable
  | .data _ => True

/-- Whether the payload fits its length fields. -/
def Fits : EthernetPayload → Prop
  | .ipv4 p => p.Fits
  | _ => True

/-- The payload with its derived fields. -/
def completed : EthernetPayload → EthernetPayload
  | .ipv4 p => .ipv4 p.completed
  | p => p

/-- The octets of the payload with its derived fields. -/
def encoded : EthernetPayload → Bytes
  | .ipv4 p => p.encoded
  | .arp a => a.encode
  | .lldp l => l.encode
  | .data bytes => bytes

variable {p : EthernetPayload}

/-- What a frame carries is appended as it is encoded on its own. -/
theorem appendTo_of_fits (h : p.Representable) (hfits : p.Fits) (buffer : Bytes) :
    p.appendTo buffer = .ok (buffer ++ p.encoded) := by
  cases p with
  | ipv4 p => exact Ipv4.Representable.appendTo_of_fits h hfits buffer
  | arp a => exact congrArg Except.ok (a.appendTo_eq buffer)
  | lldp l => exact congrArg Except.ok (l.appendTo_eq buffer)
  | data bytes => rfl

/-- It is refused if it does not fit. -/
theorem appendTo_of_not_fits (h : p.Representable) (hfits : ¬ p.Fits) (buffer : Bytes) :
    ∃ error, p.appendTo buffer = .error error := by
  cases p with
  | ipv4 p => exact Ipv4.Representable.appendTo_of_not_fits h hfits buffer
  | arp | lldp | data => exact absurd trivial hfits

/-- A payload is read back under the ether type that it announces, and opaque octets under any that
no header has. -/
theorem decode_encoded (h : p.Representable) (hfits : p.Fits) {type : UInt16}
    (hunclaimed : p.etherType? = none →
      type ≠ EtherType.ipv4 ∧ type ≠ EtherType.arp ∧ type ≠ EtherType.lldp) :
    decode (p.etherType?.getD type) p.encoded = .ok p.completed := by
  cases p with
  | ipv4 p =>
    have hread := Ipv4.Representable.decode_encoded h hfits
    simp only [etherType?, Option.getD_some, decode, if_true, encoded, hread]
    rfl
  | arp a =>
    have hread := Arp.decode_encode h
    have hne : EtherType.arp ≠ EtherType.ipv4 := by decide
    simp only [etherType?, Option.getD_some, decode, hne, if_true, if_false, encoded, hread]
    rfl
  | lldp l =>
    have hread := Lldp.decode_encode h
    have hne : EtherType.lldp ≠ EtherType.ipv4 ∧ EtherType.lldp ≠ EtherType.arp := by decide
    simp only [etherType?, Option.getD_some, decode, hne, if_true, if_false, encoded, hread]
    rfl
  | data bytes =>
    have hne := hunclaimed rfl
    simp only [etherType?, Option.getD_none, decode, hne, if_false, encoded]
    rfl

end EthernetPayload

namespace Ethernet

/-- The frames that the wire can hold. Opaque octets go by an ether type that no header has, which
is not that of a tag if the frame has none. -/
structure Representable (f : Ethernet) : Prop where
  vlan : ∀ tag, f.vlan = some tag → tag.Representable
  payload : f.payload.Representable
  unclaimed : f.payload.etherType? = none →
    f.etherType ≠ EtherType.ipv4 ∧ f.etherType ≠ EtherType.arp ∧ f.etherType ≠ EtherType.lldp
  untagged : f.payload.etherType? = none → f.vlan = none → f.etherType ≠ EtherType.vlan

/-- The frame with its derived fields, and with the ether type that its payload announces. -/
def completed (f : Ethernet) : Ethernet :=
  { f with etherType := f.payload.etherType?.getD f.etherType, payload := f.payload.completed }

variable {f : Ethernet}

/-- A frame is its header and what it carries. -/
theorem encode_of_fits (h : f.Representable) (hfits : f.payload.Fits) :
    f.encode = .ok (f.header ++ f.payload.encoded) := by
  have hpayload := EthernetPayload.appendTo_of_fits h.payload hfits f.header
  rw [encode, appendTo, List.nil_append, hpayload]

/-- A header is read back in front of anything. Its ether type tells what that is read as, unless it is
taken for that of a tag. -/
theorem decode_header (f : Ethernet)
    (huntagged : f.vlan = none → f.payload.etherType?.getD f.etherType ≠ EtherType.vlan)
    (tail : Bytes) :
    decode (f.header ++ tail) =
      (EthernetPayload.decode (f.payload.etherType?.getD f.etherType) tail).map fun payload =>
        { f with
          vlan := f.vlan.map fun tag => VlanTag.ofWord tag.toWord
          etherType := f.payload.etherType?.getD f.etherType
          payload := payload } := by
  -- a tag stands between the addresses and the ether type
  cases hvlan : f.vlan with
  | none =>
    have hheader : f.header ++ tail = f.destination.octets ++ (f.source.octets ++
        (Bytes.be16 (f.payload.etherType?.getD f.etherType) ++ tail)) := by
      simp [header, hvlan, tagOctets]
    have hlength : headerLength ≤ (f.header ++ tail).length := by
      rw [hheader]
      simp [headerLength]
      omega
    rw [decode, expectOctets_of_le hlength, hheader]
    simp [headerLength, huntagged hvlan, bind, Except.bind, pure, Except.pure]
    cases EthernetPayload.decode (f.payload.etherType?.getD f.etherType) tail <;> rfl
  | some tag =>
    have hheader : f.header ++ tail = f.destination.octets ++ (f.source.octets ++
        (Bytes.be16 EtherType.vlan ++ (Bytes.be16 tag.toWord ++
          (Bytes.be16 (f.payload.etherType?.getD f.etherType) ++ tail)))) := by
      simp [header, hvlan, tagOctets]
    have hlength : headerLength + tagLength ≤ (f.header ++ tail).length := by
      rw [hheader]
      simp [headerLength, tagLength]
      omega
    rw [decode, expectOctets_of_le (Nat.le_of_add_right_le hlength), expectOctets_of_le hlength,
      hheader]
    simp [headerLength, tagLength, bind, Except.bind, pure, Except.pure]
    cases EthernetPayload.decode (f.payload.etherType?.getD f.etherType) tail <;> rfl

/-- A frame that fits is read back with its derived fields. -/
theorem decode_encoded (h : f.Representable) (hfits : f.payload.Fits) :
    decode (f.header ++ f.payload.encoded) = .ok f.completed := by
  have hpayload := EthernetPayload.decode_encoded h.payload hfits h.unclaimed
  -- the ether type of an untagged frame is not taken for a tag
  have huntagged (hvlan : f.vlan = none) :
      f.payload.etherType?.getD f.etherType ≠ EtherType.vlan := by
    have hnone := fun hnone => h.untagged hnone hvlan
    cases hpayload : f.payload with
    | data bytes =>
      rw [hpayload] at hnone
      exact hnone rfl
    | ipv4 | arp | lldp =>
      simp only [EthernetPayload.etherType?, Option.getD_some]
      decide
  have htag : f.vlan.map (fun tag => VlanTag.ofWord tag.toWord) = f.vlan := by
    cases hvlan : f.vlan with
    | none => rfl
    | some tag => exact congrArg some (VlanTag.ofWord_toWord (h.vlan tag hvlan))
  rw [f.decode_header huntagged, hpayload, htag]
  rfl

/-- A representable frame is encoded exactly if its options, datagrams and packets fit, and the
decoder reads the frame back with its derived fields filled in. -/
theorem frame_round_trip (h : f.Representable) :
    ((∃ bytes, f.encode = .ok bytes) ↔ f.payload.Fits) ∧
      ∀ bytes, f.encode = .ok bytes → decode bytes = .ok f.completed := by
  by_cases hfits : f.payload.Fits
  · have hencode := encode_of_fits h hfits
    refine ⟨⟨fun _ => hfits, fun _ => ⟨_, hencode⟩⟩, ?_⟩
    intro bytes hbytes
    obtain rfl : f.header ++ f.payload.encoded = bytes := Except.ok.inj (hencode.symm.trans hbytes)
    exact decode_encoded h hfits
  · have hfail : ∀ bytes, f.encode ≠ .ok bytes := by
      intro bytes hbytes
      rcases EthernetPayload.appendTo_of_not_fits h.payload hfits f.header with ⟨error, herror⟩
      rw [encode, appendTo, List.nil_append, herror] at hbytes
      cases hbytes
    exact ⟨⟨fun ⟨bytes, hbytes⟩ => absurd hbytes (hfail bytes), fun hfit => absurd hfit hfits⟩,
      fun bytes hbytes => absurd hbytes (hfail bytes)⟩

/-- A segment with an option for its largest size. -/
def optionSegment : Tcp :=
  { Tcp.ofPorts 1024 80 2 with options := [2, 4, 5, 180], payload := [104, 105] }

/-- A tagged frame with options in its packet and in its segment. -/
def taggedSegment : Ethernet where
  destination := .broadcast
  source := ⟨2, 0, 0, 0, 0, 1⟩
  vlan := some ⟨5, false, 100⟩
  etherType := 0
  payload := .ipv4
    { Ipv4.ofPayload ⟨10, 0, 0, 1⟩ ⟨10, 0, 0, 2⟩ (.tcp optionSegment) with
      flags := 2
      options := [1, 1, 1, 0] }

theorem frame_round_trip_taggedSegment :
    taggedSegment.Representable ∧ taggedSegment.payload.Fits ∧
      ∃ bytes, taggedSegment.encode = .ok bytes ∧ decode bytes = .ok taggedSegment.completed := by
  have hsegment : optionSegment.Representable := ⟨rfl, rfl, by decide, by decide, by decide⟩
  have hframe : taggedSegment.Representable := by
    refine ⟨?_, ?_, ?_, ?_⟩
    · rintro tag ⟨⟩
      exact ⟨by decide, by decide⟩
    · refine ⟨rfl, rfl, rfl, by decide, by decide, by decide, hsegment, ?_, ?_⟩
      · exact fun hlater => absurd rfl hlater
      · intro _ hnone
        cases hnone
    · intro hnone
      cases hnone
    · intro hnone
      cases hnone
  have hfits : taggedSegment.payload.Fits := ⟨by decide, trivial, by decide⟩
  rcases (frame_round_trip hframe).1.mpr hfits with ⟨bytes, hbytes⟩
  exact ⟨hframe, hfits, bytes, hbytes, (frame_round_trip hframe).2 bytes hbytes⟩

end Ethernet

end Vswitch
