import Mathlib
import Vswitch.Proofs.Packet.Forwarding
import Vswitch.Proofs.Packet.Nesting

/-!
# Padding behind a frame

A link pads short frames, so that a frame may be longer than what it carries. A packet and an address
resolution message say themselves where they end. What follows is left alone, and what should be there
and is not is missed: no part of a packet passes for a packet.

* `Arp.decode_append`, `Ipv4.decode_append`: a payload is read in front of anything as on its own;
* `Ipv4.decode_cut`: a packet is not read from less than its total length;
* `Ethernet.decode_header_tail`: a frame is its header and what is read behind it;
* `Ethernet.padding_ignored`: frames with padding, and frames that end early.
-/

namespace Vswitch

/-! ## Payloads -/

/-- A message is read from the octets that its addresses take up. -/
theorem Arp.decode_append {data : Bytes} {a : Arp} (h : decode data = .ok a) (padding : Bytes) :
    decode (data ++ padding) = .ok a := by
  obtain ⟨_, hfixed, h⟩ := bind_eq_ok.mp h
  obtain ⟨_, hwhole, h⟩ := bind_eq_ok.mp h
  have hfixed : 8 ≤ data.length := le_of_expectOctets hfixed
  have hwhole : 8 + 2 * ((data.octet 4).toNat + (data.octet 5).toNat) ≤ data.length :=
    le_of_expectOctets hwhole
  have hlonger : data.length ≤ (data ++ padding).length := by
    rw [List.length_append]
    exact Nat.le_add_right _ _
  have hhardware : (data ++ padding).octet 4 = data.octet 4 :=
    Bytes.octet_append_left (by omega) padding
  have hprotocol : (data ++ padding).octet 5 = data.octet 5 :=
    Bytes.octet_append_left (by omega) padding
  rw [decode, expectOctets_of_le (by rw [fixedLength]; omega)]
  simp only [hhardware, hprotocol, bind, Except.bind]
  rw [expectOctets_of_le (by rw [fixedLength]; omega), fixedLength]
  -- words and addresses stand in front of the padding
  rw [Bytes.be16At_append_left (by omega), Bytes.be16At_append_left (by omega),
    Bytes.be16At_append_left (by omega), Bytes.slice_append_left (by omega),
    Bytes.slice_append_left (by omega), Bytes.slice_append_left (by omega),
    Bytes.slice_append_left (by omega)]
  exact h

namespace Ipv4

variable {data : Bytes} {p : Ipv4}

theorem decode_append (h : decode data = .ok p) (padding : Bytes) :
    decode (data ++ padding) = .ok p := by
  have hsplit : data ++ padding =
      data.take p.totalLength.toNat ++ (data.drop p.totalLength.toNat ++ padding) := by
    rw [← List.append_assoc, List.take_append_drop]
  rw [hsplit]
  exact decode_take_append h _

/-- The front of a packet is not read as a packet if it is less than the total length speaks of. -/
theorem decode_cut {cut missing : Bytes} (h : decode (cut ++ missing) = .ok p)
    (hcut : cut.length < p.totalLength.toNat) :
    ∃ needed, decode cut = .error (.truncated .ipv4 needed cut.length) := by
  have hread := of_decode h
  by_cases hfixed : cut.length < 20
  · refine ⟨20, ?_⟩
    rw [decode, expectOctets_of_lt (by rw [minHeaderLength]; omega)]
    rfl
  by_cases hheader : cut.length < 4 * p.ihl.toNat
  · -- version and header length are there, but the header is not
    refine ⟨4 * p.ihl.toNat, ?_⟩
    have hfirst : (cut ++ missing).octet 0 = cut.octet 0 :=
      Bytes.octet_append_left (by omega) missing
    have hversion : cut.octet 0 >>> 4 = 4 := by
      rw [← hfirst]
      exact hread.version
    have hihl : cut.octet 0 &&& 0x0f = p.ihl := by
      rw [← hfirst]
      exact hread.ihl.symm
    have hminimal : ¬ 4 * p.ihl.toNat < minHeaderLength := Nat.not_lt_of_le hread.minimal
    rw [decode, expectOctets_of_le (by rw [minHeaderLength]; omega)]
    simp only [hversion, hihl, hminimal, expectOctets_of_lt hheader, bind, Except.bind, if_false,
      ne_eq, not_true]
  · -- the header is there, and says how much should be behind it
    refine ⟨p.totalLength.toNat, ?_⟩
    obtain ⟨hlong, htotal⟩ := length_saidBody h
    have hbody : cut =
        p.header p.totalLength ++ (saidBody (cut ++ missing)).take (cut.length - 4 * p.ihl.toNat) := by
      have hfront := congrArg (List.take cut.length) (octets_of_decode h)
      rw [List.take_take, Nat.min_eq_left (Nat.le_of_lt hcut), List.take_left,
        Bytes.take_append_right (by omega), hlong] at hfront
      exact hfront.symm
    have hlength :
        4 * p.wireIhl + ((saidBody (cut ++ missing)).take (cut.length - 4 * p.ihl.toNat)).length =
          cut.length := by
      rw [hread.wireIhl_eq, List.length_take]
      omega
    have hshort := decode_short hread.covers hread.wireIhl_le (by rw [hlength]; exact hcut)
    rwa [← hbody, hlength] at hshort

end Ipv4

/-! ## Frames -/

namespace EthernetPayload

variable {type : UInt16} {rest : Bytes}

/-- A payload that says itself where it ends is read in front of anything. -/
theorem decode_append {payload : EthernetPayload} (h : decode type rest = .ok payload)
    (hends : (∃ p, payload = .ipv4 p) ∨ ∃ a, payload = .arp a) (padding : Bytes) :
    decode type (rest ++ padding) = .ok payload := by
  rcases hends with ⟨p, rfl⟩ | ⟨a, rfl⟩
  · obtain ⟨htype, hread⟩ := decode_eq_ipv4.mp h
    exact decode_eq_ipv4.mpr ⟨htype, Ipv4.decode_append hread padding⟩
  · obtain ⟨htype, hread⟩ := decode_eq_arp.mp h
    exact decode_eq_arp.mpr ⟨htype, Arp.decode_append hread padding⟩

end EthernetPayload

namespace Ethernet

variable {data : Bytes} {f : Ethernet}

/-- What stands behind the header of a frame that was read is read as its type says. -/
theorem decode_header_tail (h : decode data = .ok f) (tail : Bytes) :
    decode (f.header ++ tail) =
      (EthernetPayload.decode f.etherType tail).map fun payload => { f with payload := payload } := by
  obtain ⟨-, -, hpayload⟩ := header_of_decode h
  have hannounced := EthernetPayload.etherType_of_decode hpayload
  obtain ⟨-, -, -, htype⟩ := of_decode h
  rcases htype with ⟨hne, hvlan, htype, -⟩ | ⟨-, -, hvlan, -, -⟩
  · rw [f.decode_header (fun _ => by rw [hannounced, htype]; exact hne), hannounced, hvlan]
    rfl
  · rw [f.decode_header (fun hnone => by rw [hvlan] at hnone; cases hnone), hannounced, hvlan,
      Option.map_some, VlanTag.toWord_ofWord]

/-- The front of a frame is refused if it ends in the header. -/
theorem decode_cut_header {cut missing : Bytes} (h : decode (cut ++ missing) = .ok f)
    (hcut : cut.length < f.headerSize) :
    ∃ needed, decode cut = .error (.truncated .ethernet needed cut.length) := by
  by_cases hfixed : cut.length < 14
  · refine ⟨14, ?_⟩
    rw [decode, expectOctets_of_lt (by rw [headerLength]; omega)]
    rfl
  obtain ⟨-, -, -, htype⟩ := of_decode h
  rcases htype with ⟨-, hvlan, -, -⟩ | ⟨htagged, -, hvlan, -, -⟩
  · rw [headerSize, hvlan] at hcut
    exact absurd hcut hfixed
  · -- the type says that a tag follows
    rw [headerSize, hvlan] at hcut
    refine ⟨18, ?_⟩
    rw [Bytes.be16At_append_left (by omega)] at htagged
    rw [decode, expectOctets_of_le (by rw [headerLength]; omega)]
    simp only [htagged, if_true, expectOctets_of_lt hcut, bind, Except.bind]
    rfl

/-- The front of a frame with a packet is refused if it ends before the packet does. -/
theorem decode_cut {cut missing : Bytes} {p : Ipv4} (h : decode (cut ++ missing) = .ok f)
    (hp : f.payload = .ipv4 p) (hcut : cut.length < f.headerSize + p.totalLength.toNat) :
    ∃ header needed available, decode cut = .error (.truncated header needed available) := by
  by_cases hshort : cut.length < f.headerSize
  · obtain ⟨needed, hrefused⟩ := decode_cut_header h hshort
    exact ⟨_, needed, _, hrefused⟩
  · -- the header is there, and the packet behind it is not
    obtain ⟨-, hheader, hpayload⟩ := header_of_decode h
    rw [hp] at hpayload
    obtain ⟨htype, hread⟩ := EthernetPayload.decode_eq_ipv4.mp hpayload
    rw [List.drop_append_of_le_length (by omega)] at hread
    rw [List.take_append_of_le_length (by omega)] at hheader
    obtain ⟨needed, hrefused⟩ := Ipv4.decode_cut hread (by rw [List.length_drop]; omega)
    have hsplit : cut = f.header ++ cut.drop f.headerSize := by
      rw [hheader, List.take_append_drop]
    have hframe := decode_header_tail h (cut.drop f.headerSize)
    rw [← hsplit, htype, EthernetPayload.decode, if_pos rfl, hrefused] at hframe
    exact ⟨_, _, _, hframe⟩

/-- Whatever is put behind a frame with a packet or an address resolution message, it is read as the
same frame. A frame with a packet that is cut before the end of the packet is refused. -/
theorem padding_ignored (h : decode data = .ok f) :
    (((∃ p, f.payload = .ipv4 p) ∨ ∃ a, f.payload = .arp a) →
        ∀ padding : Bytes, decode (data ++ padding) = .ok f) ∧
      ∀ p, f.payload = .ipv4 p →
        f.headerSize + p.totalLength.toNat ≤ data.length ∧
          ∀ n < f.headerSize + p.totalLength.toNat,
            ∃ header needed available,
              decode (data.take n) = .error (.truncated header needed available) := by
  obtain ⟨hlength, hheader, hpayload⟩ := header_of_decode h
  constructor
  · intro hends padding
    have hsplit : data ++ padding = f.header ++ (data.drop f.headerSize ++ padding) := by
      rw [hheader, ← List.append_assoc, List.take_append_drop]
    rw [hsplit, decode_header_tail h, EthernetPayload.decode_append hpayload hends]
    rfl
  -- the octets up to the total length are needed, each of them
  · intro p hp
    rw [hp] at hpayload
    have hwhole := (Ipv4.of_decode (EthernetPayload.decode_eq_ipv4.mp hpayload).2).isWhole
    rw [List.length_drop] at hwhole
    constructor
    · omega
    · intro n hn
      have hsplit : decode (data.take n ++ data.drop n) = .ok f := by
        rw [List.take_append_drop]
        exact h
      apply decode_cut hsplit hp
      rw [List.length_take]
      omega

/-- Padding behind the padding, and an end within the packet, of a tagged frame with options. -/
theorem padding_ignored_paddedSegment :
    ∃ f p, decode paddedSegment = .ok f ∧ f.payload = .ipv4 p ∧ f.headerSize = 18 ∧
      p.totalLength = 50 ∧ (∀ padding : Bytes, decode (paddedSegment ++ padding) = .ok f) ∧
      ∀ n < 68, ∃ header needed available,
        decode (paddedSegment.take n) = .error (.truncated header needed available) := by
  obtain ⟨f, p, hread, hpacket, hsize, htotal⟩ : ∃ f p, decode paddedSegment = .ok f ∧
      f.payload = .ipv4 p ∧ f.headerSize = 18 ∧ p.totalLength = 50 :=
    ⟨_, _, rfl, rfl, rfl, rfl⟩
  obtain ⟨hpadded, hcut⟩ := padding_ignored hread
  refine ⟨f, p, hread, hpacket, hsize, htotal, hpadded (.inl ⟨p, hpacket⟩), ?_⟩
  have hrefused := (hcut p hpacket).2
  rw [hsize, htotal] at hrefused
  exact hrefused

end Ethernet

end Vswitch
