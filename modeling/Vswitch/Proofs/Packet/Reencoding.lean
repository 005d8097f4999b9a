import Mathlib
import Vswitch.Proofs.Computation
import Vswitch.Proofs.Packet.Transport

/-!
# Datagrams, read and written again

A decoded datagram keeps the length that it came with, and is written with it. The options of a DHCP
message are written without pads, with an end mark and with nothing behind it. They may take fewer
octets than they came in, and the length then speaks of octets that are not there.

* `DhcpOption.representable_of_decodeAll`, `Dhcp.representable_of_decode`: what was read can be written;
* `Dhcp.decode_take_encode`: a message is read back with or without its end mark;
* `Udp.decode_reencoded`: what becomes of a decoded datagram.
-/

namespace Vswitch

/-! ## DHCP -/

namespace DhcpOption

/-- Options that were read can be written, in no more octets than they were read from. -/
theorem representable_of_decodeAll {available offset : Nat} {data : Bytes}
    {options : List DhcpOption} (hlength : offset + data.length = available)
    (h : decodeAll available offset data = .ok options) :
    (∀ o ∈ options, o.Representable) ∧ (options.flatMap encode).length ≤ data.length := by
  fun_induction decodeAll available offset data generalizing options with
  | case1 offset =>
    obtain rfl := Except.ok.inj h
    exact ⟨fun o ho => absurd ho List.not_mem_nil, Nat.le_refl 0⟩
  | case2 offset rest ih =>
    rw [List.length_cons] at hlength
    obtain ⟨hall, hle⟩ := ih (by omega) h
    exact ⟨hall, Nat.le_succ_of_le hle⟩
  | case3 offset rest =>
    obtain rfl := Except.ok.inj h
    exact ⟨fun o ho => absurd ho List.not_mem_nil, Nat.zero_le _⟩
  | case4 => cases h
  | case5 => cases h
  | case6 offset code hpad hend len rest next _ hfits =>
    -- an option, and the rest behind it
    rename_i ih
    rw [List.length_cons, List.length_cons] at hlength
    obtain ⟨later, hlater, hvalue⟩ := bind_eq_ok.mp h
    obtain rfl := Except.ok.inj hvalue
    have hlen : len.toNat ≤ rest.length := by omega
    have htake : (rest.take len.toNat).length = len.toNat := List.length_take_of_le hlen
    have hdrop : (rest.drop len.toNat).length = rest.length - len.toNat := List.length_drop
    obtain ⟨hall, hle⟩ := ih (by omega) hlater
    have hfirst : Representable ⟨code, rest.take len.toNat⟩ := by
      have hmax := len.toNat_lt
      refine ⟨hpad, hend, ?_⟩
      show (rest.take len.toNat).length ≤ 255
      omega
    refine ⟨List.forall_mem_cons.mpr ⟨hfirst, hall⟩, ?_⟩
    rw [List.flatMap_cons, encode_eq hfirst, List.length_append, List.length_cons, List.length_cons,
      List.length_cons, List.length_cons, htake]
    omega

end DhcpOption

namespace Dhcp

/-- Octets of the message without an end mark. -/
def size (d : Dhcp) : Nat := 240 + (d.options.flatMap DhcpOption.encode).length

theorem length_encode (d : Dhcp) : d.encode.length = d.size + 1 := by
  rw [encode_eq, List.length_append, length_fixedPart, List.length_append, List.length_singleton]
  rfl

/-- A message that was read can be written, in at most one octet more. -/
theorem representable_of_decode {data : Bytes} {d : Dhcp} (h : decode data = .ok d) :
    d.Representable ∧ d.size ≤ data.length := by
  obtain ⟨_, hlength, h⟩ := bind_eq_ok.mp h
  have hfixed : 240 ≤ data.length := le_of_expectOctets hlength
  dsimp only at h
  split_ifs at h
  · cases h
  · obtain ⟨options, hoptions, h⟩ := bind_eq_ok.mp h
    obtain rfl := Except.ok.inj h
    have hdrop : (data.drop 240).length = data.length - 240 := List.length_drop
    obtain ⟨hall, hle⟩ := DhcpOption.representable_of_decodeAll
      (show 240 + (data.drop 240).length = data.length by omega) hoptions
    refine ⟨hall, ?_⟩
    show 240 + (options.flatMap DhcpOption.encode).length ≤ data.length
    exact Nat.add_le_of_le_sub' hfixed (hdrop ▸ hle)

/-- A message is read back with or without its end mark. -/
theorem decode_take_encode {d : Dhcp} (h : d.Representable) {n : Nat} (hn : d.size ≤ n) :
    decode (d.encode.take n) = .ok d := by
  rw [size] at hn
  have htake : d.encode.take n = d.fixedPart ++ (d.options.flatMap DhcpOption.encode ++
      [DhcpOption.endMark].take (n - d.size)) := by
    rw [encode_eq, ← List.append_assoc, List.take_append, List.take_of_length_le,
      List.append_assoc, List.length_append, length_fixedPart, size]
    rw [List.length_append, length_fixedPart]
    exact hn
  have hrest (available offset : Nat) : DhcpOption.decodeAll available offset
      ([DhcpOption.endMark].take (n - d.size)) = .ok [] := by
    cases n - d.size with
    | zero => rw [List.take_zero, DhcpOption.decodeAll]
    | succ k => exact DhcpOption.decodeAll_endMark available offset _
  rw [htake]
  refine decode_fixedPart (DhcpOption.decodeAll_append h (hrest _) _ ?_)
  rw [List.length_append]
  omega

end Dhcp

/-! ## UDP -/

namespace UdpPayload

/-- A payload that was read is read back from what it is written as, or from a front of that which has
as many octets as it was read from. -/
theorem decode_take_octets {source destination : UInt16} {data : Bytes} {p : UdpPayload}
    (h : decode source destination data = .ok p) :
    decode source destination (p.octets.take data.length) = .ok p := by
  rw [decode] at h
  split_ifs at h with hports
  · obtain ⟨d, hd, h⟩ := bind_eq_ok.mp h
    obtain rfl := Except.ok.inj h
    obtain ⟨hrepresentable, hsize⟩ := Dhcp.representable_of_decode hd
    rw [decode, if_pos hports, octets, Dhcp.decode_take_encode hrepresentable hsize]
    rfl
  · obtain rfl := Except.ok.inj h
    rw [decode, if_neg hports, octets, List.take_length]
    rfl

end UdpPayload

namespace Udp

/-- What a datagram that was read has been read from. -/
theorem of_decode {data : Bytes} {u : Udp} (h : decode data = .ok u) :
    8 ≤ u.length.toNat ∧ u.length.toNat ≤ data.length ∧
      UdpPayload.decode u.sourcePort u.destinationPort (data.slice 8 (u.length.toNat - 8)) =
        .ok u.payload := by
  obtain ⟨_, _, h⟩ := bind_eq_ok.mp h
  dsimp only at h
  split_ifs at h with hmin
  · cases h
  · obtain ⟨_, hcovers, h⟩ := bind_eq_ok.mp h
    obtain ⟨payload, hpayload, h⟩ := bind_eq_ok.mp h
    obtain rfl := Except.ok.inj h
    exact ⟨Nat.le_of_not_lt hmin, le_of_expectOctets hcovers, hpayload⟩

/-- A datagram with a length of its own is written as its fields stand, unless a checksum is missing
that can be computed. -/
theorem appendTo_of_stored {u : Udp} {pseudo : Option PseudoHeader} (hlength : u.length ≠ 0)
    (hchecksum : pseudo = none ∨ u.checksum ≠ 0) (buffer : Bytes) :
    u.appendTo buffer pseudo = .ok (buffer ++ u.octets) := by
  have hwritten : u.payload.appendTo (buffer ++ u.header) = buffer ++ u.octets := by
    rw [UdpPayload.appendTo_eq, List.append_assoc]
    rfl
  -- the length is put over itself
  have hsame : (buffer ++ u.octets).overwrite (buffer.length + 4) (Bytes.be16 u.length) =
      buffer ++ u.octets := by
    have hsplit : u.octets = (Bytes.be16 u.sourcePort ++ Bytes.be16 u.destinationPort) ++
        (Bytes.be16 u.length ++ (Bytes.be16 u.checksum ++ u.payload.octets)) :=
      u.octets_eq u.length u.checksum
    rw [Bytes.overwrite_append_right, hsplit, Bytes.overwrite_be16 (by simp)]
  rw [appendTo]
  simp only [hwritten, hlength, if_false, pure, Except.pure, bind, Except.bind, hsame]
  cases pseudo with
  | none => rfl
  | some pseudo => exact if_neg (hchecksum.resolve_left (Option.some_ne_none pseudo))

theorem encode_of_length {u : Udp} (h : u.length ≠ 0) : u.encode none = .ok u.octets :=
  appendTo_of_stored h (.inl rfl) []

/-- A datagram that was read is written with the length that it came with. It is read back if that
speaks of no more octets than are written, as it always does of opaque ones, and is found truncated
otherwise. -/
theorem decode_reencoded {data : Bytes} {u : Udp} (h : decode data = .ok u) :
    u.encode none = .ok u.octets ∧
      (u.length.toNat ≤ u.octets.length → decode u.octets = .ok u) ∧
      (u.octets.length < u.length.toNat →
        decode u.octets = .error (.truncated .udp u.length.toNat u.octets.length)) ∧
      ∀ bytes, u.payload = .data bytes → u.octets.length = u.length.toNat := by
  obtain ⟨hmin, hcovers, hpayload⟩ := of_decode h
  have hbody : (data.slice 8 (u.length.toNat - 8)).length = u.length.toNat - 8 := by
    rw [Bytes.length_slice]
    omega
  have hlength : u.octets.length = 8 + u.payload.octets.length := length_octets u
  have hoctets : u.octets = u.header ++ u.payload.octets := rfl
  refine ⟨?_, ?_, ?_, ?_⟩
  · refine encode_of_length ?_
    intro hzero
    rw [hzero] at hmin
    cases hmin
  · intro hwritten
    have hread := UdpPayload.decode_take_octets hpayload
    rw [hbody] at hread
    rw [hoctets, decode_header hmin, if_pos (by omega), hread]
    rfl
  · intro hshort
    rw [hlength] at hshort ⊢
    rw [hoctets, decode_header hmin, if_neg (by omega)]
  -- opaque octets are all that the length spoke of
  · intro bytes hdata
    rw [hdata, UdpPayload.decode] at hpayload
    split_ifs at hpayload
    · obtain ⟨d, _, hvalue⟩ := bind_eq_ok.mp hpayload
      cases hvalue
    · obtain rfl := UdpPayload.data.inj (Except.ok.inj hpayload)
      rw [hlength, hdata, UdpPayload.octets, hbody]
      omega

/-- What stands behind a DHCP message is left alone, even if the length speaks of it. -/
theorem decode_trailing {u : Udp} {d : Dhcp} (hdhcp : u.payload = .dhcp d)
    (hpayload : u.payload.Representable u.sourcePort u.destinationPort) {trailing : Bytes}
    (hlength : u.length.toNat = u.octets.length + trailing.length) :
    decode (u.octets ++ trailing) = .ok u := by
  have hoctets : u.octets ++ trailing = u.header ++ (d.encode ++ trailing) := by
    rw [octets, hdhcp, List.append_assoc]
    rfl
  have hsize : u.octets.length = 8 + d.encode.length := by
    rw [length_octets, size, hdhcp]
    rfl
  have hcovers : u.length.toNat = 8 + (d.encode ++ trailing).length := by
    rw [hlength, hsize, List.length_append, Nat.add_assoc]
  rw [hdhcp] at hpayload
  obtain ⟨hports, hrepresentable⟩ := hpayload
  have hread : UdpPayload.decode u.sourcePort u.destinationPort (d.encode ++ trailing) =
      .ok u.payload := by
    rw [UdpPayload.decode, if_pos hports, Dhcp.decode_encode_append hrepresentable, hdhcp]
    rfl
  rw [hoctets, decode_header (by omega), if_pos (Nat.le_of_eq hcovers),
    List.take_of_length_le (by omega), hread]
  rfl

/-- A DHCP message as a client sends it. -/
def discover : Dhcp :=
  { Dhcp.ofClient 1 0x3903f326 ⟨2, 0, 0, 0, 0, 1⟩ with options := [⟨DhcpOption.messageType, [1]⟩] }

/-- The datagram of a client that fills its message up to 300 octets. -/
def filledDiscover : Udp := ⟨UdpPort.dhcpClient, UdpPort.dhcpServer, 308, 0, .dhcp discover⟩

theorem representable_discover : discover.Representable := by
  intro o ho
  obtain rfl := List.mem_singleton.mp ho
  exact ⟨by decide, by decide, by decide⟩

theorem length_filledDiscover : filledDiscover.octets.length = 252 := by
  have hoption : discover.options.flatMap DhcpOption.encode = [DhcpOption.messageType, 1, 1] := by
    have ho := DhcpOption.encode_eq (representable_discover _ List.mem_cons_self)
    rw [discover, List.flatMap_singleton, ho]
    rfl
  have hpayload : filledDiscover.payload.octets.length = 244 := by
    rw [filledDiscover, UdpPayload.octets, Dhcp.length_encode, Dhcp.size, hoption]
    simp
  rw [length_octets, size, hpayload]

theorem decode_filledDiscover :
    decode (filledDiscover.octets ++ Bytes.zeros 56) = .ok filledDiscover := by
  have hpayload : UdpPayload.Representable filledDiscover.sourcePort filledDiscover.destinationPort
      filledDiscover.payload := ⟨by decide, representable_discover⟩
  refine decode_trailing rfl hpayload ?_
  rw [length_filledDiscover, Bytes.length_zeros]
  decide

theorem decode_reencoded_filledDiscover :
    decode (filledDiscover.octets ++ Bytes.zeros 56) = .ok filledDiscover ∧
      filledDiscover.encode none = .ok filledDiscover.octets ∧
      decode filledDiscover.octets = .error (.truncated .udp 308 252) := by
  have hlength := length_filledDiscover
  obtain ⟨hencode, _, htruncated, _⟩ := decode_reencoded decode_filledDiscover
  rw [hlength] at htruncated
  exact ⟨decode_filledDiscover, hencode, htruncated (by decide)⟩

/-- Not every datagram that is read can be read again once it has been written. -/
theorem not_forall_read_back :
    ¬ ∀ data u, decode data = .ok u → ∃ bytes, u.encode none = .ok bytes ∧ decode bytes = .ok u := by
  intro hstable
  obtain ⟨bytes, hencode, hread⟩ := hstable _ _ decode_filledDiscover
  rw [encode_of_length (by decide)] at hencode
  obtain rfl := Except.ok.inj hencode
  have hshort : ¬ filledDiscover.length.toNat ≤ 8 + filledDiscover.payload.octets.length := by
    have hlength := length_filledDiscover
    rw [length_octets, size] at hlength
    rw [hlength]
    decide
  rw [octets, decode_header (by decide), if_neg hshort] at hread
  cases hread

end Udp

end Vswitch
