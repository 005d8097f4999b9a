import Mathlib
import Vswitch.Packet.Icmp
import Vswitch.Packet.Tcp
import Vswitch.Packet.Udp
import Vswitch.Proofs.Bytes

/-!
# Transport headers, written and read

For each header over IPv4, and for DHCP over UDP: which values the wire can hold, what the encoder
fills in, and that the decoder reads the filled-in value back.

* `Representable`: every field fits its place, and the derived fields are left to the encoder;
* `completed`: the value with its derived fields filled in;
* `appendTo_eq`: the encoder appends the octets of the completed value;
* `decode_octets`: the decoder reads them back.
-/

namespace Vswitch

theorem expectOctets_of_le {header : Protocol} {needed : Nat} {data : Bytes}
    (h : needed ≤ data.length) : expectOctets header needed data = .ok () := if_pos h

/-- What passes the check is long enough. -/
theorem le_of_expectOctets {header : Protocol} {needed : Nat} {data : Bytes}
    (h : expectOctets header needed data = .ok ()) : needed ≤ data.length := by
  by_contra hlt
  have hshort : ¬ data.Covers needed := hlt
  rw [expectOctets, if_neg hshort] at h
  cases h

/-- What is too short is refused with the length it has. -/
theorem expectOctets_of_lt {header : Protocol} {needed : Nat} {data : Bytes}
    (h : data.length < needed) :
    expectOctets header needed data = .error (.truncated header needed data.length) :=
  if_neg (Nat.not_le_of_lt h)

/-! ## ICMP -/

namespace Icmp

/-- The octets of a message as its fields stand. -/
def octets (i : Icmp) : Bytes := i.header ++ i.data

/-- The message with its checksum. -/
def completed (i : Icmp) : Icmp := { i with checksum := Checksum.ofBytes i.octets }

theorem length_octets (i : Icmp) : i.octets.length = 8 + i.data.length := by
  simp only [octets, header, List.length_append, List.length_cons, List.length_nil,
    Bytes.length_be16, Bytes.length_be32]

/-- A message whose checksum is open is written with the checksum filled in. -/
theorem appendTo_eq {i : Icmp} (h : i.checksum = 0) (buffer : Bytes) :
    i.appendTo buffer = buffer ++ i.completed.octets := by
  have hwritten : buffer ++ i.header ++ i.data =
      (buffer ++ [i.type, i.code]) ++ (Bytes.be16 0 ++ (Bytes.be32 i.rest ++ i.data)) := by
    simp [header, h]
  have hdrop : (buffer ++ i.header ++ i.data).drop buffer.length = i.octets := by
    rw [List.append_assoc, List.drop_left]
    rfl
  rw [appendTo]
  simp only [h, if_true, hdrop]
  rw [hwritten, Bytes.overwrite_be16 (by simp)]
  simp [octets, header, completed]

/-- Any message is read back as its fields stand. -/
theorem decode_octets (i : Icmp) : decode i.octets = .ok i := by
  have hlength : headerLength ≤ i.octets.length := by
    rw [length_octets]
    exact Nat.le_add_right 8 _
  rw [decode, expectOctets_of_le hlength]
  simp [octets, header, headerLength, bind, Except.bind, pure, Except.pure]

end Icmp

/-! ## TCP -/

namespace Tcp

/-- The segments that the wire can hold, without data offset and checksum. -/
structure Representable (t : Tcp) : Prop where
  dataOffset : t.dataOffset = 0
  checksum : t.checksum = 0
  flags : t.flags.toNat < 512
  aligned : 4 ∣ t.options.length
  short : t.options.length ≤ 40

/-- The octets of a segment, its checksum as it stands. -/
def octets (t : Tcp) : Bytes := t.header ++ t.payload

/-- The segment with its data offset and checksum. -/
def completed (t : Tcp) (pseudo : PseudoHeader) : Tcp :=
  { t with dataOffset := t.wireOffset, checksum := pseudo.checksum IpProtocol.tcp t.octets }

/-- The header in front of the checksum. -/
def front (t : Tcp) : Bytes :=
  Bytes.be16 t.sourcePort ++ (Bytes.be16 t.destinationPort ++ (Bytes.be32 t.sequence ++
    (Bytes.be32 t.acknowledgment ++ (Bytes.be16 ((t.wireOffset.toUInt16 <<< 12) ||| t.flags) ++
      Bytes.be16 t.window))))

variable {t : Tcp}

namespace Representable

/-- The data offset counts the header in words of four octets. -/
theorem toNat_wireOffset (h : t.Representable) :
    4 * t.wireOffset.toNat = 20 + t.options.length := by
  have haligned := h.aligned
  have hshort := h.short
  rw [wireOffset, if_pos h.dataOffset, minHeaderLength, UInt8.toNat_ofNat']
  omega

/-- The checksum stands in the middle of the header, and nothing else of it depends on it. -/
theorem header_eq (h : t.Representable) (checksum : UInt16) :
    { t with checksum }.header =
      t.front ++ (Bytes.be16 checksum ++ (Bytes.be16 t.urgent ++ t.options)) := by
  have hoffset : wireOffset { t with checksum } = t.wireOffset := rfl
  rw [header, hoffset, h.toNat_wireOffset, Bytes.padTo_of_le]
  · simp [front]
  · simp
    omega

/-- A stored data offset is written as the one that it stands for. -/
theorem octets_completed (h : t.Representable) (checksum : UInt16) :
    octets { t with dataOffset := t.wireOffset, checksum } =
      t.front ++ (Bytes.be16 checksum ++ (Bytes.be16 t.urgent ++ (t.options ++ t.payload))) := by
  have hne : t.wireOffset ≠ 0 := by
    intro hzero
    have hoffset := h.toNat_wireOffset
    rw [hzero] at hoffset
    simp at hoffset
    omega
  have hoffset : wireOffset { t with dataOffset := t.wireOffset, checksum } = t.wireOffset :=
    if_neg hne
  have hheader : header { t with dataOffset := t.wireOffset, checksum } =
      { t with checksum }.header := by
    rw [header, header, hoffset]
    rfl
  rw [octets, hheader, h.header_eq]
  simp

/-- A segment is written with its checksum over the pseudo-header, the header and the payload. -/
theorem appendTo_eq (h : t.Representable) (buffer : Bytes) (pseudo : PseudoHeader) :
    t.appendTo buffer (some pseudo) = buffer ++ (t.completed pseudo).octets := by
  have hheader : t.header = t.front ++ (Bytes.be16 0 ++ (Bytes.be16 t.urgent ++ t.options)) :=
    (h.header_eq t.checksum).trans (by rw [h.checksum])
  have hwritten : buffer ++ t.header ++ t.payload =
      (buffer ++ t.front) ++
      (Bytes.be16 0 ++ (Bytes.be16 t.urgent ++ (t.options ++ t.payload))) := by
    rw [hheader]
    simp
  have hdrop : (buffer ++ t.header ++ t.payload).drop buffer.length = t.octets := by
    rw [List.append_assoc, List.drop_left]
    rfl
  rw [appendTo]
  simp only [h.checksum, if_true, hdrop]
  rw [hwritten, Bytes.overwrite_be16 (by simp [front]), completed, h.octets_completed,
    List.append_assoc]

theorem length_completed (h : t.Representable) (pseudo : PseudoHeader) :
    (t.completed pseudo).octets.length = 20 + t.options.length + t.payload.length := by
  rw [completed, h.octets_completed]
  simp [front]
  omega

/-- It is read back with the derived fields it was written with. -/
theorem decode_octets (h : t.Representable) (pseudo : PseudoHeader) :
    decode (t.completed pseudo).octets = .ok (t.completed pseudo) := by
  have hoffset := h.toNat_wireOffset
  have hlength := h.length_completed pseudo
  have hshort := h.short
  have hlow := h.flags
  -- data offset and flags share a word, between them three bits that nothing sets
  have hword : ((t.wireOffset.toUInt16 <<< 12) ||| t.flags).toNat =
      t.wireOffset.toNat * 4096 + t.flags.toNat := by
    refine Bytes.toNat_shiftLeft_or (by decide) ?_ ?_
    · show t.flags.toNat < 4096
      omega
    · show t.wireOffset.toUInt16.toNat * 4096 < 65536
      rw [UInt8.toNat_toUInt16]
      omega
  have hdataOffset : (t.completed pseudo).octets.octet 12 >>> 4 = t.wireOffset := by
    rw [completed, h.octets_completed, front]
    simp only [List.append_assoc, Bytes.octet_append_right, Bytes.length_be16, Bytes.length_be32,
      Nat.reduceLeDiff, Nat.reduceSub, Bytes.octet_be16, hword, Nat.le_refl, Nat.sub_self]
    rw [← UInt8.toNat_inj]
    simp [Nat.shiftRight_eq_div_pow]
    omega
  have hflags : (t.completed pseudo).octets.be16At 12 &&& flagMask = t.flags := by
    rw [completed, h.octets_completed, front]
    simp
    rw [← UInt16.toNat_inj, Bytes.toNat_and_mask (k := 9) rfl, hword]
    omega
  have hpayload : (t.completed pseudo).octets.drop (20 + t.options.length) = t.payload := by
    rw [completed, h.octets_completed]
    have hsplit : t.front ++ (Bytes.be16 (pseudo.checksum IpProtocol.tcp t.octets) ++
          (Bytes.be16 t.urgent ++ (t.options ++ t.payload))) =
        (t.front ++ (Bytes.be16 (pseudo.checksum IpProtocol.tcp t.octets) ++
          (Bytes.be16 t.urgent ++ t.options))) ++ t.payload := by
      simp
    rw [hsplit]
    refine List.drop_left' ?_
    simp [front]
    omega
  rw [decode, expectOctets_of_le (by rw [hlength, minHeaderLength]; omega)]
  simp only [hdataOffset, hflags, hoffset, hpayload]
  rw [if_neg (by rw [minHeaderLength]; omega), expectOctets_of_le (by rw [hlength]; omega)]
  rw [completed, h.octets_completed, front]
  simp [minHeaderLength, bind, Except.bind, pure, Except.pure]

end Representable

end Tcp

/-! ## DHCP -/

namespace DhcpOption

/-- The options that the wire can hold: no pad, no end mark, and a value that its length octet
counts. -/
def Representable (o : DhcpOption) : Prop :=
  o.code ≠ pad ∧ o.code ≠ endMark ∧ o.value.length ≤ 255

/-- A value that a length octet counts is one piece. -/
theorem pieces_of_short {value : Bytes} (h : value.length ≤ 255) : pieces value = [value] := by
  have hshort : value.length ≤ maxLength := h
  rw [pieces, if_pos hshort]

/-- An option that fits one length octet is written in one piece. -/
theorem encode_of_short {o : DhcpOption} (h : o.value.length ≤ 255) :
    o.encode = o.code :: UInt8.ofNat o.value.length :: o.value := by
  rw [encode, pieces_of_short h, List.flatMap_singleton]

theorem encode_eq {o : DhcpOption} (h : o.Representable) :
    o.encode = o.code :: UInt8.ofNat o.value.length :: o.value := encode_of_short h.2.2

/-- An option is read off the front of a string, as long as the packet is said to hold it. -/
theorem decodeAll_option {o : DhcpOption} (h : o.Representable) {available offset : Nat}
    (hfits : offset + o.encode.length ≤ available) (rest : Bytes) :
    decodeAll available offset (o.encode ++ rest) =
      (decodeAll available (offset + o.encode.length) rest).map (o :: ·) := by
  have hlen : (UInt8.ofNat o.value.length).toNat = o.value.length := by
    rw [UInt8.toNat_ofNat']
    exact Nat.mod_eq_of_lt (Nat.lt_succ_of_le h.2.2)
  have hlength : o.encode.length = 2 + o.value.length := by
    rw [encode_eq h, List.length_cons, List.length_cons]
    omega
  have hnext : offset + 2 + o.value.length = offset + o.encode.length := by omega
  rw [encode_eq h, List.cons_append, List.cons_append, decodeAll, if_neg h.1, if_neg h.2.1]
  simp only [hlen, List.drop_left, List.take_left]
  rw [hnext, if_neg (Nat.not_lt.mpr hfits), ← encode_eq h]
  cases decodeAll available (offset + o.encode.length) rest <;> rfl

/-- The strings that hold options in their order, with pads before, between and after them. -/
inductive Padded : (options : List DhcpOption) → Bytes → Prop where
  | empty : Padded [] []
  | pad {options : List DhcpOption} {padded : Bytes} (h : Padded options padded) :
      Padded options (DhcpOption.pad :: padded)
  | option {options : List DhcpOption} {padded : Bytes} (o : DhcpOption) (h : Padded options padded) :
      Padded (o :: options) (o.encode ++ padded)

/-- Without any pad they are the octets of the options alone. -/
theorem padded_flatMap (options : List DhcpOption) : Padded options (options.flatMap encode) := by
  induction options with
  | nil => exact .empty
  | cons o later ih => exact .option o ih

/-- Options are read back in front of anything that holds none, as long as the packet is said to hold
them. Pads are counted as octets and left out. -/
theorem decodeAll_padded {options : List DhcpOption} {padded : Bytes} (hpadded : Padded options padded)
    (h : ∀ o ∈ options, o.Representable) {available : Nat} {rest : Bytes}
    (hrest : ∀ offset, decodeAll available offset rest = .ok []) (offset : Nat)
    (hfits : offset + padded.length ≤ available) :
    decodeAll available offset (padded ++ rest) = .ok options := by
  -- the bound on what is available is kept by what is left of the string
  induction hpadded generalizing offset with
  | empty => exact hrest offset
  | pad _ ih =>
    rw [List.length_cons] at hfits
    rw [List.cons_append, decodeAll.eq_def]
    exact ih h (offset + 1) (by omega)
  | @option options padded o _ ih =>
    rw [List.length_append] at hfits
    have ho := h o List.mem_cons_self
    have hlater := ih (fun o' ho' => h o' (List.mem_cons_of_mem _ ho')) (offset + o.encode.length)
      (by omega)
    rw [List.append_assoc, decodeAll_option ho (by omega), hlater]
    rfl

/-- Options are read back one after another, until what follows them ends the list. -/
theorem decodeAll_append {options : List DhcpOption} (h : ∀ o ∈ options, o.Representable)
    {available : Nat} {rest : Bytes} (hrest : ∀ offset, decodeAll available offset rest = .ok [])
    (offset : Nat) (hfits : offset + (options.flatMap encode).length ≤ available) :
    decodeAll available offset (options.flatMap encode ++ rest) = .ok options :=
  decodeAll_padded (padded_flatMap options) h hrest offset hfits

/-- Nothing is read from the end mark on. -/
theorem decodeAll_endMark (available offset : Nat) (rest : Bytes) :
    decodeAll available offset (endMark :: rest) = .ok [] := by
  rw [decodeAll.eq_def]
  exact (if_neg (by decide)).trans (if_pos rfl)

end DhcpOption

namespace Dhcp

/-- The messages that the wire can hold. -/
def Representable (d : Dhcp) : Prop := ∀ o ∈ d.options, o.Representable

/-- A DHCP message has no derived fields. -/
theorem appendTo_eq (d : Dhcp) (buffer : Bytes) : d.appendTo buffer = buffer ++ d.encode := by
  simp [appendTo, encode]

/-- The fields before the options have a fixed length, whatever they hold. -/
theorem length_fixedPart (d : Dhcp) : d.fixedPart.length = 240 := by
  simp [fixedPart]

/-- A field of fixed width is the octets that it is written as. -/
theorem paddedField_toList {n : Nat} (v : Vector UInt8 n) : paddedField n v.toList = v := by
  ext i hi
  simp [paddedField, Bytes.octet]

/-- The fixed part is read back in front of anything that holds the options. -/
theorem decode_fixedPart {d : Dhcp} {tail : Bytes}
    (h : DhcpOption.decodeAll (240 + tail.length) 240 tail = .ok d.options) :
    decode (d.fixedPart ++ tail) = .ok d := by
  have hlength : (d.fixedPart ++ tail).length = 240 + tail.length := by
    rw [List.length_append, length_fixedPart]
  have hdrop : (d.fixedPart ++ tail).drop 240 = tail := List.drop_left' (length_fixedPart d)
  rw [decode, expectOctets_of_le (by rw [hlength, fixedLength]; omega)]
  simp only [fixedLength, Nat.reduceAdd, hlength, hdrop, h]
  rw [fixedPart]
  simp [bind, Except.bind, pure, Except.pure, paddedField_toList]

/-- The end mark follows the options. -/
theorem encode_eq (d : Dhcp) :
    d.encode = d.fixedPart ++ (d.options.flatMap DhcpOption.encode ++ [DhcpOption.endMark]) := by
  simp [encode, appendTo]

/-- A message is read back, whatever stands behind its end mark. -/
theorem decode_encode_append {d : Dhcp} (h : d.Representable) (trailing : Bytes) :
    decode (d.encode ++ trailing) = .ok d := by
  have hsplit : d.encode ++ trailing =
      d.fixedPart ++ (d.options.flatMap DhcpOption.encode ++ DhcpOption.endMark :: trailing) := by
    rw [encode_eq, List.append_assoc, List.append_assoc]
    rfl
  rw [hsplit]
  refine decode_fixedPart (DhcpOption.decodeAll_append h (fun offset => ?_) _ ?_)
  · exact DhcpOption.decodeAll_endMark _ offset trailing
  · rw [List.length_append]
    omega

/-- A message is read back with its options as they are. -/
theorem decode_encode {d : Dhcp} (h : d.Representable) : decode d.encode = .ok d := by
  have hread := decode_encode_append h []
  rwa [List.append_nil] at hread

end Dhcp

/-! ## UDP -/

namespace UdpPayload

/-- The payloads that the wire can hold between two ports: DHCP exactly on the DHCP ports. -/
def Representable (source destination : UInt16) : UdpPayload → Prop
  | .dhcp d => (UdpPort.isDhcp destination || UdpPort.isDhcp source) = true ∧ d.Representable
  | .data _ => (UdpPort.isDhcp destination || UdpPort.isDhcp source) = false

/-- The octets of a payload. -/
def octets : UdpPayload → Bytes
  | .dhcp d => d.encode
  | .data bytes => bytes

theorem appendTo_eq (p : UdpPayload) (buffer : Bytes) : p.appendTo buffer = buffer ++ p.octets := by
  cases p with
  | dhcp d => exact d.appendTo_eq buffer
  | data bytes => rfl

/-- The ports decide how a payload is read, and a payload of the right kind comes back. -/
theorem decode_octets {source destination : UInt16} {p : UdpPayload}
    (h : p.Representable source destination) : decode source destination p.octets = .ok p := by
  cases p with
  | dhcp d =>
    rw [decode, if_pos h.1, octets, Dhcp.decode_encode h.2]
    rfl
  | data bytes =>
    have hother : (UdpPort.isDhcp destination || UdpPort.isDhcp source) = false := h
    rw [decode, hother]
    rfl

end UdpPayload

namespace Udp

/-- The datagrams that the wire can hold, without length and checksum. -/
structure Representable (u : Udp) : Prop where
  length : u.length = 0
  checksum : u.checksum = 0
  payload : u.payload.Representable u.sourcePort u.destinationPort

/-- Octets of the datagram. -/
def size (u : Udp) : Nat := 8 + u.payload.octets.length

/-- The octets of a datagram as its fields stand. -/
def octets (u : Udp) : Bytes := u.header ++ u.payload.octets

/-- The datagram with its length. -/
def measured (u : Udp) : Udp := { u with length := UInt16.ofNat u.size }

/-- The datagram with its length and its checksum. -/
def completed (u : Udp) (pseudo : PseudoHeader) : Udp :=
  { u.measured with checksum := checksumOf pseudo u.measured.length u.measured.octets }

theorem length_octets (u : Udp) : u.octets.length = u.size := by
  simp only [octets, header, size, List.length_append, Bytes.length_be16]

/-- The datagram with a length and a checksum of its own. -/
theorem octets_eq (u : Udp) (length checksum : UInt16) :
    octets { u with length, checksum } =
      (Bytes.be16 u.sourcePort ++ Bytes.be16 u.destinationPort) ++
        (Bytes.be16 length ++ (Bytes.be16 checksum ++ u.payload.octets)) := by
  simp [octets, header]

/-- The datagram with its length, and with a checksum if it has none and one can be computed. -/
def filled (u : Udp) : Option PseudoHeader → Udp
  | none => u.measured
  | some pseudo => if u.checksum = 0 then u.completed pseudo else u.measured

/-- Where the length is left to the encoder, it fails exactly if the length field cannot hold the
length. -/
theorem appendTo_of_length {u : Udp} (hlength0 : u.length = 0) (buffer : Bytes)
    (pseudo : Option PseudoHeader) :
    u.appendTo buffer pseudo =
      if u.size < 65536 then .ok (buffer ++ (u.filled pseudo).octets)
      else .error (.invalidField .udp .length u.size) := by
  have hwritten : u.payload.appendTo (buffer ++ u.header) = buffer ++ u.octets := by
    rw [UdpPayload.appendTo_eq, List.append_assoc]
    rfl
  have hlength : (buffer ++ u.octets).length - buffer.length = u.size := by
    rw [List.length_append, Nat.add_sub_cancel_left, length_octets]
  -- the length is filled in first, since the checksum covers it
  have hmeasured :
      (buffer ++ u.octets).overwrite (buffer.length + 4) (Bytes.be16 u.measured.length) =
        buffer ++ u.measured.octets := by
    have hsplit := u.octets_eq u.length u.checksum
    rw [hsplit, ← List.append_assoc, Bytes.overwrite_be16 (by simp)]
    simp [measured, octets, header]
  have hsealed (checksum : UInt16) :
      (buffer ++ u.measured.octets).overwrite (buffer.length + 6) (Bytes.be16 checksum) =
        buffer ++ octets { u.measured with checksum } := by
    have hsplit : buffer ++ u.measured.octets =
        (buffer ++ (Bytes.be16 u.sourcePort ++ (Bytes.be16 u.destinationPort ++
          Bytes.be16 u.measured.length))) ++ (Bytes.be16 u.checksum ++ u.payload.octets) := by
      simp [measured, octets, header]
    rw [hsplit, Bytes.overwrite_be16 (by simp)]
    simp [measured, octets, header]
  have hdeclared : UInt16.ofNat u.size = u.measured.length := rfl
  rw [appendTo]
  simp only [hwritten, hlength, hlength0, if_true, lengthField]
  by_cases hfits : u.size < 65536
  · simp only [hfits, if_true, hdeclared, bind, Except.bind, hmeasured, List.drop_left, hsealed]
    cases pseudo with
    | none => rfl
    | some pseudo =>
      rw [filled]
      split_ifs <;> rfl
  · simp only [hfits, if_false, bind, Except.bind]

/-- A datagram is refused just if its length does not fit the field, and else written completed. -/
theorem appendTo_eq {u : Udp} (h : u.Representable) (buffer : Bytes) (pseudo : PseudoHeader) :
    u.appendTo buffer (some pseudo) =
      if u.size < 65536 then .ok (buffer ++ (u.completed pseudo).octets)
      else .error (.invalidField .udp .length u.size) := by
  rw [appendTo_of_length h.length, filled, if_pos h.checksum]

/-- A header is read back in front of anything, if that holds the octets of which the header speaks. -/
theorem decode_header {u : Udp} (h : 8 ≤ u.length.toNat) (tail : Bytes) :
    decode (u.header ++ tail) =
      if u.length.toNat ≤ 8 + tail.length then
        (UdpPayload.decode u.sourcePort u.destinationPort (tail.take (u.length.toNat - 8))).map
          fun payload => { u with payload }
      else .error (.truncated .udp u.length.toNat (8 + tail.length)) := by
  have hlength : (u.header ++ tail).length = 8 + tail.length := by
    simp [header]
    omega
  have hfields : (u.header ++ tail).be16At 0 = u.sourcePort ∧
      (u.header ++ tail).be16At 2 = u.destinationPort ∧ (u.header ++ tail).be16At 4 = u.length ∧
      (u.header ++ tail).be16At 6 = u.checksum := by
    simp [header]
  have hbody : (u.header ++ tail).slice 8 (u.length.toNat - 8) = tail.take (u.length.toNat - 8) := by
    rw [Bytes.slice, List.drop_left' (by simp [header])]
  obtain ⟨hsource, hdestination, hdeclared, hchecksum⟩ := hfields
  rw [decode, expectOctets_of_le (by rw [hlength]; exact Nat.le_add_right 8 _)]
  simp only [hdeclared, headerLength, hsource, hdestination, hchecksum, hbody]
  rw [if_neg (Nat.not_lt.mpr h)]
  -- the length may speak of more than there is
  split_ifs with hcovers
  · rw [expectOctets_of_le (by rw [hlength]; exact hcovers)]
    cases UdpPayload.decode u.sourcePort u.destinationPort (tail.take (u.length.toNat - 8)) <;> rfl
  · have hshort : expectOctets .udp u.length.toNat (u.header ++ tail) =
        .error (.truncated .udp u.length.toNat (8 + tail.length)) := by
      rw [← hlength] at hcovers ⊢
      exact expectOctets_of_lt (Nat.lt_of_not_le hcovers)
    rw [hshort]
    rfl

/-- It is read back with its length and its checksum. -/
theorem decode_octets {u : Udp} (h : u.Representable) (hfits : u.size < 65536)
    (pseudo : PseudoHeader) :
    decode (u.completed pseudo).octets = .ok (u.completed pseudo) := by
  have hsize : 8 + u.payload.octets.length = u.size := rfl
  have hdeclared : (u.completed pseudo).length.toNat = u.size := by
    show (UInt16.ofNat u.size).toNat = u.size
    rw [UInt16.toNat_ofNat']
    exact Nat.mod_eq_of_lt hfits
  have hbody : u.payload.octets.take (u.size - 8) = u.payload.octets := by
    rw [List.take_of_length_le (by omega)]
  have hpayload : UdpPayload.decode u.sourcePort u.destinationPort
      (u.payload.octets.take (u.size - 8)) = .ok u.payload := by
    rw [hbody]
    exact UdpPayload.decode_octets h.payload
  have hoctets : (u.completed pseudo).octets = (u.completed pseudo).header ++ u.payload.octets := rfl
  have hports : (u.completed pseudo).sourcePort = u.sourcePort ∧
      (u.completed pseudo).destinationPort = u.destinationPort := ⟨rfl, rfl⟩
  rw [hoctets, decode_header (by omega), hdeclared, if_pos (Nat.le_of_eq hsize.symm), hports.1,
    hports.2, hpayload]
  rfl

end Udp

end Vswitch
