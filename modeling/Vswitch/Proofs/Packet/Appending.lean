import Mathlib
import Vswitch.Proofs.Computation
import Vswitch.Proofs.Packet.Frame

/-!
# Values behind a buffer

A value is appended to what a buffer holds already. Lengths, padding and checksums are put in place
afterwards, at offsets counted from where the value starts. What is appended is what the value is written
as on its own, and whether it can be written does not depend on the buffer either.

* `Icmp.appendTo_eq_encode` and so on: one header behind a buffer;
* `appended_alike`: all of them.
-/

namespace Vswitch

/-! ## Segments -/

namespace Icmp

/-- The checksum covers the message alone, wherever it stands. -/
theorem appendTo_eq_encode (i : Icmp) (buffer : Bytes) : i.appendTo buffer = buffer ++ i.encode := by
  by_cases h : i.checksum = 0
  · rw [encode, appendTo_eq h, appendTo_eq h, List.nil_append]
  · simp only [encode, appendTo, h, if_false, List.nil_append, List.append_assoc]

end Icmp

namespace Tcp

/-- A segment is sealed behind a buffer as it is on its own. -/
theorem appendTo_eq_encode (t : Tcp) (buffer : Bytes) (pseudo : Option PseudoHeader) :
    t.appendTo buffer pseudo = buffer ++ t.encode pseudo := by
  cases pseudo with
  | none => simp only [encode, appendTo, List.nil_append, List.append_assoc]
  | some pseudo =>
    by_cases h : t.checksum = 0
    · -- the checksum covers the segment alone, and is put into it where it stands
      simp only [encode, appendTo, h, if_true, List.append_assoc, List.drop_left, List.nil_append,
        List.length_nil, List.drop_zero, Nat.zero_add, Bytes.overwrite_append_right]
    · simp only [encode, appendTo, h, if_false, List.nil_append, List.append_assoc]

end Tcp

namespace Udp

/-- A datagram is refused for its length behind a buffer just if it is on its own. -/
theorem appendTo_eq_encode (u : Udp) (buffer : Bytes) (pseudo : Option PseudoHeader) :
    u.appendTo buffer pseudo = (u.encode pseudo).map (buffer ++ ·) := by
  have hwritten (front : Bytes) : u.payload.appendTo (front ++ u.header) = front ++ u.octets := by
    rw [UdpPayload.appendTo_eq, List.append_assoc]
    rfl
  have hlength (front : Bytes) : (front ++ u.octets).length - front.length = u.octets.length := by
    rw [List.length_append, Nat.add_sub_cancel_left]
  rw [encode, appendTo, appendTo]
  simp only [hwritten, hlength, Bytes.overwrite_append_right, List.drop_left]
  -- what is done with the length, told or counted, is the same for both
  refine ite_bind_eq_map fun length => ?_
  cases pseudo with
  | none => rfl
  | some pseudo =>
    by_cases h : u.checksum = 0
    · simp only [h, if_true]
      rfl
    · simp only [h, if_false]
      rfl

end Udp

/-! ## Packets -/

namespace Ipv4

/-- So is a packet, whose header is completed where it stands. -/
theorem appendTo_eq_encode (p : Ipv4) (buffer : Bytes) :
    p.appendTo buffer = p.encode.map (buffer ++ ·) := by
  have hslice (front written : Bytes) (n : Nat) :
      (front ++ written).slice front.length n = written.slice 0 n := by
    rw [Bytes.slice_append_right (Nat.le_refl _), Nat.sub_self]
  rw [encode, appendTo, appendTo]
  by_cases hlong : 15 < p.wireIhl
  · rw [if_pos hlong, if_pos hlong]
    rfl
  rw [if_neg hlong, if_neg hlong]
  -- the payload is written apart, so that it meets neither buffer
  cases p.payload.appendTo [] p.pseudoHeader with
  | error error => rfl
  | ok payload =>
    refine ite_bind_eq_map fun total => ?_
    by_cases h : p.checksum = 0
    · simp only [h, if_true, hslice, Bytes.overwrite_append_right, List.append_assoc]
      rfl
    · simp only [h, if_false, List.append_assoc]
      rfl

end Ipv4

/-! ## Frames -/

namespace Ethernet

/-- So is a frame, whose padding is counted from where it starts. -/
theorem appendTo_eq_encode (f : Ethernet) (buffer : Bytes) :
    f.appendTo buffer = f.encode.map (buffer ++ ·) := by
  rw [encode, appendTo, appendTo, List.nil_append]
  cases f.payload with
  | ipv4 p =>
    rw [EthernetPayload.appendTo, EthernetPayload.appendTo, p.appendTo_eq_encode (buffer ++ f.header),
      p.appendTo_eq_encode f.header]
    cases p.encode with
    | error error => rfl
    | ok bytes => exact congrArg Except.ok (List.append_assoc _ _ _)
  | arp a =>
    rw [EthernetPayload.appendTo, EthernetPayload.appendTo, a.appendTo_eq, a.appendTo_eq f.header,
      List.append_assoc]
    rfl
  | lldp l =>
    rw [EthernetPayload.appendTo, EthernetPayload.appendTo, l.appendTo_eq, l.appendTo_eq f.header,
      List.append_assoc]
    rfl
  | data bytes => exact congrArg Except.ok (List.append_assoc _ _ _)

end Ethernet

/-! ## All headers -/

/-- Whatever a buffer holds, a value is refused behind it as it is on its own, and otherwise is put
behind it in the octets that it is written as on its own. -/
theorem appended_alike (f : Ethernet) (p : Ipv4) (u : Udp) (t : Tcp) (i : Icmp) (a : Arp) (l : Lldp)
    (d : Dhcp) (pseudo : Option PseudoHeader) (buffer : Bytes) :
    f.appendTo buffer = f.encode.map (buffer ++ ·) ∧
      p.appendTo buffer = p.encode.map (buffer ++ ·) ∧
      u.appendTo buffer pseudo = (u.encode pseudo).map (buffer ++ ·) ∧
      t.appendTo buffer pseudo = buffer ++ t.encode pseudo ∧
      i.appendTo buffer = buffer ++ i.encode ∧
      a.appendTo buffer = buffer ++ a.encode ∧
      l.appendTo buffer = buffer ++ l.encode ∧
      d.appendTo buffer = buffer ++ d.encode := by
  refine ⟨?_, ?_, ?_, ?_, ?_, ?_, ?_, ?_⟩
  · exact f.appendTo_eq_encode buffer
  · exact p.appendTo_eq_encode buffer
  · exact u.appendTo_eq_encode buffer pseudo
  · exact t.appendTo_eq_encode buffer pseudo
  · exact i.appendTo_eq_encode buffer
  · exact a.appendTo_eq buffer
  · exact l.appendTo_eq buffer
  · exact d.appendTo_eq buffer

end Vswitch
