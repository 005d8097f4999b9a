import Mathlib
import Vswitch.Proofs.Packet.Transport

/-!
# Options, cut and padded

The value of an option may be longer than a length octet can count. It is then written in pieces, each of
them an option of its own. Pads may stand between any two of these, and anything behind the end mark. The
reader keeps the pieces apart, and nothing else.

* `DhcpOption.Cut`, `DhcpOption.cut_pieces`: which pieces a value is cut into;
* `DhcpOption.split`, `Dhcp.split`: options as they are written;
* `Dhcp.decode_padded`: what is read among pads, and what that is written as.
-/

namespace Vswitch

/-! ## Options -/

namespace DhcpOption

/-- How a value is cut: its pieces make it up again, all but the last are full, and only an empty value
has an empty piece. -/
structure Cut (value : Bytes) (pieces : List Bytes) : Prop where
  whole : pieces.flatten = value
  bounded : ∀ piece ∈ pieces, piece.length ≤ 255
  full : ∀ piece ∈ pieces.dropLast, piece.length = 255
  empty : value = [] → pieces = [[]]
  filled : value ≠ [] → [] ∉ pieces

/-- The pieces of a value are a way to cut it. -/
theorem cut_pieces (value : Bytes) : Cut value (pieces value) := by
  fun_induction pieces value with
  | case1 value hshort =>
    constructor
    · exact List.flatten_singleton
    · intro piece hpiece
      rw [List.mem_singleton.mp hpiece]
      exact hshort
    · intro piece hpiece
      cases hpiece
    · rintro rfl
      rfl
    · intro hne hempty
      exact hne (List.mem_singleton.mp hempty).symm
  | case2 value hlong ih =>
    rw [maxLength, Nat.not_le] at hlong
    have hrest : value.drop 255 ≠ [] := by
      rw [ne_eq, List.drop_eq_nil_iff]
      omega
    have htake : (value.take 255).length = 255 := by
      rw [List.length_take]
      omega
    -- what is left of the value has a piece, so that the first is not the last
    have hlater : pieces (value.drop 255) ≠ [] := by
      intro hnone
      have hwhole := ih.whole
      rw [maxLength, hnone] at hwhole
      exact hrest hwhole.symm
    constructor
    · rw [List.flatten_cons, ih.whole, List.take_append_drop]
    · intro piece hpiece
      rcases List.mem_cons.mp hpiece with rfl | hpiece
      · exact Nat.le_of_eq htake
      · exact ih.bounded piece hpiece
    · intro piece hpiece
      rw [maxLength, List.dropLast_cons_of_ne_nil hlater] at hpiece
      rcases List.mem_cons.mp hpiece with rfl | hpiece
      · exact htake
      · exact ih.full piece hpiece
    · rintro rfl
      cases hlong
    · intro _ hempty
      rcases List.mem_cons.mp hempty with hfirst | hempty
      · rw [maxLength] at hfirst
        rw [← hfirst] at htake
        cases htake
      · exact ih.filled hrest hempty

/-- The options that one option is written as, in the order of the pieces. -/
def split (o : DhcpOption) : List DhcpOption := (pieces o.value).map (⟨o.code, ·⟩)

/-- The pieces are written as the option itself is. -/
theorem encode_split (o : DhcpOption) : o.split.flatMap encode = o.encode := by
  rw [split, List.flatMap_map]
  refine List.flatMap_congr ?_
  intro piece hpiece
  exact encode_of_short ((cut_pieces o.value).bounded piece hpiece)

end DhcpOption

/-! ## Messages -/

namespace Dhcp

/-- The message with its options as they are written. -/
def split (d : Dhcp) : Dhcp := { d with options := d.options.flatMap DhcpOption.split }

/-- Splitting an option beforehand changes nothing on the wire. -/
theorem encode_split (d : Dhcp) : d.split.encode = d.encode := by
  have hoptions : d.split.options.flatMap DhcpOption.encode =
      d.options.flatMap DhcpOption.encode := by
    rw [split, List.flatMap_assoc]
    exact List.flatMap_congr fun o _ => o.encode_split
  rw [encode_eq, encode_eq, hoptions]
  rfl

/-- Codes that are neither a pad nor the end mark are all that the wire asks of a message, since its
options are cut. -/
theorem representable_split {d : Dhcp}
    (h : ∀ o ∈ d.options, o.code ≠ DhcpOption.pad ∧ o.code ≠ DhcpOption.endMark) :
    d.split.Representable := by
  intro part hpart
  obtain ⟨o, ho, hpart⟩ := List.mem_flatMap.mp hpart
  obtain ⟨piece, hpiece, rfl⟩ := List.mem_map.mp hpart
  obtain ⟨hpad, hend⟩ := h o ho
  exact ⟨hpad, hend, (DhcpOption.cut_pieces o.value).bounded piece hpiece⟩

/-- A message is read back with its values cut, whichever pads stand among its options and whatever
stands behind its end mark. What is read is written without any of that. -/
theorem decode_padded {d : Dhcp}
    (h : ∀ o ∈ d.options, o.code ≠ DhcpOption.pad ∧ o.code ≠ DhcpOption.endMark) {padded : Bytes}
    (hpadded : DhcpOption.Padded d.split.options padded) (trailing : Bytes) :
    d.encode = d.fixedPart ++ (d.split.options.flatMap DhcpOption.encode ++ [DhcpOption.endMark]) ∧
      decode (d.fixedPart ++ (padded ++ DhcpOption.endMark :: trailing)) = .ok d.split ∧
      d.split.encode = d.encode ∧
      ∀ o ∈ d.options, DhcpOption.Cut o.value (DhcpOption.pieces o.value) := by
  have hread : decode (d.split.fixedPart ++ (padded ++ DhcpOption.endMark :: trailing)) =
      .ok d.split := by
    refine decode_fixedPart (DhcpOption.decodeAll_padded hpadded (representable_split h) ?_ _ ?_)
    · intro offset
      exact DhcpOption.decodeAll_endMark _ offset trailing
    · rw [List.length_append]
      omega
  refine ⟨?_, hread, d.encode_split, ?_⟩
  · rw [← encode_split]
    exact d.split.encode_eq
  · intro o _
    exact DhcpOption.cut_pieces o.value

/-- A message with a value of 300 octets, a short one and an empty one. -/
def longOption : Dhcp :=
  { Dhcp.ofClient 1 0x3903f326 ⟨2, 0, 0, 0, 0, 1⟩ with
    options := [⟨43, List.replicate 300 7⟩, ⟨DhcpOption.messageType, [1]⟩, ⟨12, []⟩] }

/-- Its options with a pad in front, two between the pieces of the long value, and one at the end. -/
def longOptionPadded : Bytes :=
  DhcpOption.pad :: (DhcpOption.encode ⟨43, List.replicate 255 7⟩ ++
    (DhcpOption.pad :: DhcpOption.pad :: (DhcpOption.encode ⟨43, List.replicate 45 7⟩ ++
      (DhcpOption.encode ⟨DhcpOption.messageType, [1]⟩ ++
        (DhcpOption.encode ⟨12, []⟩ ++ [DhcpOption.pad])))))

theorem options_longOption : longOption.split.options =
    [⟨43, List.replicate 255 7⟩, ⟨43, List.replicate 45 7⟩, ⟨DhcpOption.messageType, [1]⟩,
      ⟨12, []⟩] := by
  have hshort (code : UInt8) {value : Bytes} (h : value.length ≤ 255) :
      DhcpOption.split ⟨code, value⟩ = [⟨code, value⟩] := by
    rw [DhcpOption.split, DhcpOption.pieces_of_short h]
    rfl
  have hmore : ¬ (List.replicate 300 (7 : UInt8)).length ≤ DhcpOption.maxLength := by
    rw [List.length_replicate]
    decide
  have hlong : DhcpOption.split ⟨43, List.replicate 300 7⟩ =
      [⟨43, List.replicate 255 7⟩, ⟨43, List.replicate 45 7⟩] := by
    rw [DhcpOption.split, DhcpOption.pieces, if_neg hmore, List.take_replicate, List.drop_replicate,
      DhcpOption.pieces_of_short (by rw [List.length_replicate]; decide)]
    rfl
  show DhcpOption.split ⟨43, List.replicate 300 7⟩ ++
    (DhcpOption.split ⟨DhcpOption.messageType, [1]⟩ ++ (DhcpOption.split ⟨12, []⟩ ++ [])) = _
  rw [hlong, hshort _ (by decide), hshort _ (by decide)]
  rfl

theorem decode_padded_longOption :
    (∀ o ∈ longOption.options, o.code ≠ DhcpOption.pad ∧ o.code ≠ DhcpOption.endMark) ∧
      DhcpOption.Padded longOption.split.options longOptionPadded ∧
      decode (longOption.fixedPart ++ (longOptionPadded ++ DhcpOption.endMark :: [1, 2, 3])) =
        .ok longOption.split ∧
      longOption.split.encode = longOption.encode := by
  have hcodes : ∀ o ∈ longOption.options,
      o.code ≠ DhcpOption.pad ∧ o.code ≠ DhcpOption.endMark := by
    intro o ho
    simp only [longOption, List.mem_cons, List.not_mem_nil, or_false] at ho
    rcases ho with rfl | rfl | rfl
    all_goals exact ⟨by decide, by decide⟩
  have hpadded : DhcpOption.Padded longOption.split.options longOptionPadded := by
    rw [options_longOption]
    exact .pad (.option _ (.pad (.pad (.option _ (.option _ (.option _ (.pad .empty)))))))
  obtain ⟨-, hread, hwritten, -⟩ := decode_padded hcodes hpadded [1, 2, 3]
  exact ⟨hcodes, hpadded, hread, hwritten⟩

end Dhcp

end Vswitch
