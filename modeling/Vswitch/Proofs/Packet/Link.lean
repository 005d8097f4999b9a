import Mathlib
import Vswitch.Packet.Ethernet
import Vswitch.Proofs.Packet.Transport

/-!
# Link-layer parts, written and read

VLAN tags, ARP messages and LLDP frames: which values the wire can hold, and that the decoder reads
them back as they were. Nothing in them is left to the encoder.
-/

namespace Vswitch

/-! ## VLAN tags -/

namespace VlanTag

/-- The tags that a control word can hold. -/
structure Representable (t : VlanTag) : Prop where
  priority : t.priority.toNat < 8
  id : t.id.toNat < 4096

/-- The bits of a control word: three of priority, one, and twelve of the identifier. -/
theorem Representable.toNat_toWord {t : VlanTag} (h : t.Representable) :
    t.toWord.toNat = t.priority.toNat * 8192 + t.dropEligible.toNat * 4096 + t.id.toNat := by
  have hpriority := h.priority
  have hid := h.id
  have hhigh : (t.priority &&& 7).toUInt16.toNat = t.priority.toNat :=
    Bytes.toNat_toUInt16_and_mask (k := 3) rfl hpriority
  have hsame : t.id &&& 0x0fff = t.id := Bytes.and_mask_of_lt (k := 12) rfl hid
  -- the bit between the two fields is put on top of the lower one first
  have hlow : ((if t.dropEligible then 0x1000 else 0) ||| t.id).toNat =
      t.dropEligible.toNat * 4096 + t.id.toNat := by
    cases t.dropEligible with
    | false => simp
    | true =>
      have hbit : (0x1000 : UInt16) = (1 : UInt16) <<< (12 : UInt16) := by decide
      simp only [if_true, hbit]
      exact Bytes.toNat_shiftLeft_or (by decide) hid (by decide)
  rw [toWord, hsame, UInt16.or_assoc, Bytes.toNat_shiftLeft_or (by decide), hlow, hhigh,
    Nat.add_assoc]
  · rfl
  · show _ < 8192
    rw [hlow]
    have hbit := Bool.toNat_le t.dropEligible
    omega
  · show _ * 8192 < 65536
    rw [hhigh]
    omega

/-- The bit between the priority and the identifier of a control word. -/
theorem dropEligible_ofWord (word : UInt16) :
    (word &&& 0x1000 != 0) = decide (word.toNat / 4096 % 2 = 1) := by
  have hbit : (word &&& 0x1000).toNat = (decide (word.toNat / 4096 % 2 = 1)).toNat * 4096 := by
    rw [UInt16.toNat_and]
    refine (Nat.and_two_pow _ 12).trans ?_
    rw [Nat.testBit_eq_decide_div_mod_eq]
    rfl
  cases hset : decide (word.toNat / 4096 % 2 = 1) with
  | false =>
    rw [hset] at hbit
    have hzero : word &&& 0x1000 = 0 := UInt16.toNat_inj.mp hbit
    rw [hzero]
    rfl
  | true =>
    rw [hset] at hbit
    refine bne_iff_ne.mpr ?_
    intro hzero
    rw [hzero] at hbit
    cases hbit

/-- The priority is the high three bits of the word. -/
theorem toNat_priority_ofWord (word : UInt16) :
    (word >>> 13).toUInt8.toNat = word.toNat / 8192 := by
  have hword := word.toNat_lt
  rw [UInt16.toNat_toUInt8, Bytes.toNat_shiftRight (by decide)]
  show word.toNat / 8192 % 256 = _
  omega

/-- The identifier is the low twelve. -/
theorem toNat_id_ofWord (word : UInt16) : (word &&& 0x0fff).toNat = word.toNat % 4096 :=
  Bytes.toNat_and_mask (k := 12) rfl

/-- A tag is read back from its word. -/
theorem ofWord_toWord {t : VlanTag} (h : t.Representable) : ofWord t.toWord = t := by
  have hword := h.toNat_toWord
  have hpriority := h.priority
  have hid := h.id
  have hbit := Bool.toNat_le t.dropEligible
  have hdrop : (t.toWord &&& 0x1000 != 0) = t.dropEligible := by
    rw [dropEligible_ofWord, hword]
    cases t.dropEligible <;> simp <;> omega
  have hhigh : (t.toWord >>> 13).toUInt8 = t.priority := by
    rw [← UInt8.toNat_inj, toNat_priority_ofWord, hword]
    omega
  have hlow : t.toWord &&& 0x0fff = t.id := by
    rw [← UInt16.toNat_inj, toNat_id_ofWord, hword]
    omega
  rw [ofWord, hdrop, hhigh, hlow]

/-- Any word is the control word of the tag that it spells. -/
theorem toWord_ofWord (word : UInt16) : (ofWord word).toWord = word := by
  have hword := word.toNat_lt
  have hrepresentable : (ofWord word).Representable := by
    constructor
    · rw [ofWord, toNat_priority_ofWord]
      omega
    · rw [ofWord, toNat_id_ofWord]
      omega
  rw [← UInt16.toNat_inj, hrepresentable.toNat_toWord, ofWord, toNat_priority_ofWord,
    toNat_id_ofWord, dropEligible_ofWord]
  rcases Nat.mod_two_eq_zero_or_one (word.toNat / 4096) with hclear | hset
  · rw [hclear]
    simp only [Nat.zero_ne_one, decide_false, Bool.toNat_false]
    omega
  · rw [hset]
    simp only [decide_true, Bool.toNat_true]
    omega

end VlanTag

/-! ## ARP -/

namespace Arp

/-- The messages that the wire can hold: the two lengths that it announces count for sender and
target. -/
structure Representable (a : Arp) : Prop where
  hardware : a.senderHardware.length = a.targetHardware.length
  protocol : a.senderProtocol.length = a.targetProtocol.length
  hardwareShort : a.senderHardware.length < 256
  protocolShort : a.senderProtocol.length < 256

/-- Appending an ARP message is encoding it behind the buffer. -/
theorem appendTo_eq (a : Arp) (buffer : Bytes) : a.appendTo buffer = buffer ++ a.encode := by
  simp [appendTo, encode]

/-- It is read back the same. -/
theorem decode_encode {a : Arp} (h : a.Representable) : decode a.encode = .ok a := by
  have hhardware := h.hardware
  have hprotocol := h.protocol
  have hlength : a.encode.length = 8 + 2 * (a.senderHardware.length + a.senderProtocol.length) := by
    simp [encode, appendTo]
    omega
  have hannounced : (a.encode.octet 4).toNat = a.senderHardware.length ∧
      (a.encode.octet 5).toNat = a.senderProtocol.length := by
    have hfirst : a.encode.octet 4 = UInt8.ofNat a.senderHardware.length ∧
        a.encode.octet 5 = UInt8.ofNat a.senderProtocol.length := by
      simp [encode, appendTo]
    rw [hfirst.1, hfirst.2, UInt8.toNat_ofNat', UInt8.toNat_ofNat']
    exact ⟨Nat.mod_eq_of_lt h.hardwareShort, Nat.mod_eq_of_lt h.protocolShort⟩
  rw [decode, expectOctets_of_le (by rw [hlength, fixedLength]; omega)]
  simp only [hannounced.1, hannounced.2, fixedLength]
  rw [expectOctets_of_le (by rw [hlength])]
  -- the four addresses stand behind eight octets of which only the lengths matter here
  obtain ⟨fixed, hfixed, hencode⟩ : ∃ fixed : Bytes, fixed.length = 8 ∧
      a.encode = fixed ++ (a.senderHardware ++ (a.senderProtocol ++
        (a.targetHardware ++ a.targetProtocol))) :=
    ⟨Bytes.be16 a.hardwareType ++ (Bytes.be16 a.protocolType ++
      ([UInt8.ofNat a.senderHardware.length, UInt8.ofNat a.senderProtocol.length] ++
        Bytes.be16 a.operation)), by simp, by simp [encode, appendTo]⟩
  have hsenderHardware : a.encode.slice 8 a.senderHardware.length = a.senderHardware := by
    rw [hencode]
    exact Bytes.slice_behind hfixed rfl
  have hsenderProtocol : a.encode.slice (8 + a.senderHardware.length) a.senderProtocol.length =
      a.senderProtocol := by
    rw [hencode, ← List.append_assoc]
    exact Bytes.slice_behind (by rw [List.length_append, hfixed]) rfl
  have htargetHardware : a.encode.slice (8 + a.senderHardware.length + a.senderProtocol.length)
      a.senderHardware.length = a.targetHardware := by
    rw [hencode, ← List.append_assoc, ← List.append_assoc]
    exact Bytes.slice_behind (by simp [hfixed]; omega) hhardware.symm
  have htargetProtocol : a.encode.slice (8 + 2 * a.senderHardware.length + a.senderProtocol.length)
      a.senderProtocol.length = a.targetProtocol := by
    have hlast : a.encode =
        (fixed ++ (a.senderHardware ++ (a.senderProtocol ++ a.targetHardware))) ++
        (a.targetProtocol ++ []) := by
      simp [hencode]
    rw [hlast]
    exact Bytes.slice_behind (by simp [hfixed]; omega) hprotocol.symm
  have hwords : a.encode.be16At 0 = a.hardwareType ∧ a.encode.be16At 2 = a.protocolType ∧
      a.encode.be16At 6 = a.operation := by
    simp [encode, appendTo]
  simp only [hsenderHardware, hsenderProtocol, htargetHardware, htargetProtocol, hwords]
  rfl

end Arp

/-! ## LLDP -/

namespace LldpTlv

/-- The word in front of a value: seven bits of type and nine of length. -/
theorem toNat_word (t : LldpTlv) :
    ((t.type.toUInt16 <<< 9) ||| (UInt16.ofNat t.value.length &&& 0x1ff)).toNat =
      t.type.toNat * 512 + t.value.length := by
  have htype := t.type_le
  have hlength := t.length_le
  have hlow : (UInt16.ofNat t.value.length &&& 0x1ff).toNat = t.value.length := by
    rw [Bytes.toNat_and_mask (k := 9) rfl, UInt16.toNat_ofNat']
    show _ % 65536 % 512 = _
    omega
  rw [Bytes.toNat_shiftLeft_or (by decide), UInt8.toNat_toUInt16, hlow]
  · rfl
  · show _ < 512
    rw [hlow]
    omega
  · show _ * 512 < 65536
    rw [UInt8.toNat_toUInt16]
    omega

/-- An element is read back from the front of any string that starts with its octets. -/
theorem decode_encode (t : LldpTlv) (rest : Bytes) : decode (t.encode ++ rest) = .ok (t, rest) := by
  have hlength := t.length_le
  have htype := t.type_le
  have hfront : ((t.encode ++ rest).be16At 0).toNat = t.type.toNat * 512 + t.value.length := by
    rw [encode, List.append_assoc, Bytes.be16At_be16, toNat_word]
  have htotal : (t.encode ++ rest).length = 2 + t.value.length + rest.length := by
    simp only [encode, List.length_append, Bytes.length_be16]
  have hlen : (t.type.toNat * 512 + t.value.length) % 512 = t.value.length := by omega
  have hkind : UInt8.ofNat ((t.type.toNat * 512 + t.value.length) / 512) = t.type := by
    rw [← UInt8.toNat_inj, UInt8.toNat_ofNat']
    omega
  have hvalue : (t.encode ++ rest).slice 2 t.value.length = t.value := by
    rw [encode, List.append_assoc]
    exact Bytes.slice_behind (by simp) rfl
  have hrest : (t.encode ++ rest).drop (2 + t.value.length) = rest :=
    List.drop_left' (by simp [encode])
  rw [decode, expectOctets_of_le (by rw [htotal]; omega)]
  simp only [hfront, hlen]
  rw [expectOctets_of_le (by rw [htotal]; omega)]
  simp only [hkind, hvalue, hrest]
  rfl

/-- An element is followed by those of the rest, unless it ends the list. -/
theorem decodeAll_of_decode {data rest : Bytes} {t : LldpTlv} (h : decode data = .ok (t, rest)) :
    decodeAll data = if t.type = typeEnd then .ok [] else (decodeAll rest).map (t :: ·) := by
  have hne : data ≠ [] := by
    rintro rfl
    cases h
  rw [decodeAll, if_neg hne]
  split
  · rename_i e heq
    cases heq.symm.trans h
  · rename_i t' rest' heq
    cases heq.symm.trans h
    cases decodeAll rest <;> rfl

/-- Elements are read back up to the first that is taken for the end mark. -/
theorem decodeAll_encode (tlvs : List LldpTlv) :
    decodeAll (tlvs.flatMap encode ++ Bytes.zeros 2) =
      .ok (tlvs.takeWhile fun t => t.type ≠ typeEnd) := by
  induction tlvs with
  | nil =>
    have hend : decode (Bytes.zeros 2) = .ok (⟨typeEnd, [], by decide, by decide⟩, []) := by decide
    rw [List.flatMap_nil, List.nil_append, decodeAll_of_decode hend, if_pos rfl]
    rfl
  | cons t rest ih =>
    have hfirst := decode_encode t (rest.flatMap encode ++ Bytes.zeros 2)
    rw [List.flatMap_cons, List.append_assoc, decodeAll_of_decode hfirst, ih]
    by_cases hend : t.type = typeEnd
    · rw [if_pos hend, List.takeWhile_cons_of_neg (by simpa using hend)]
    · rw [if_neg hend, List.takeWhile_cons_of_pos (by simpa using hend)]
      rfl

end LldpTlv

namespace Lldp

/-- The frames that the wire can hold: each mandatory element in its place, and no other of its
type. -/
structure Representable (l : Lldp) : Prop where
  chassisId : l.chassisId.type = LldpTlv.typeChassisId
  portId : l.portId.type = LldpTlv.typePortId
  ttl : l.ttl.type = LldpTlv.typeTimeToLive
  optional : ∀ t ∈ l.optional, 3 < t.type.toNat

/-- Appending an LLDP unit is encoding it behind the buffer. -/
theorem appendTo_eq (l : Lldp) (buffer : Bytes) : l.appendTo buffer = buffer ++ l.encode := by
  simp [appendTo, encode]

/-- The elements of a frame make up the frame again. -/
theorem ofTlvs_tlvs {l : Lldp} (h : l.Representable) : ofTlvs l.tlvs = .ok l := by
  have hother (type : UInt8) (htype : type.toNat ≤ 3) : ∀ t ∈ l.optional, t.type ≠ type := by
    rintro t ht rfl
    have hlarge := h.optional t ht
    omega
  have hkept : l.optional.filter (!·.isMandatory) = l.optional := by
    refine List.filter_eq_self.mpr ?_
    intro t ht
    simp [LldpTlv.isMandatory, hother LldpTlv.typeChassisId (by decide) t ht,
      hother LldpTlv.typePortId (by decide) t ht, hother LldpTlv.typeTimeToLive (by decide) t ht]
  have hchassis : l.tlvs.filter (·.type == LldpTlv.typeChassisId) = [l.chassisId] := by
    simpa [tlvs, h.chassisId, h.portId, h.ttl, LldpTlv.typeChassisId, LldpTlv.typePortId,
      LldpTlv.typeTimeToLive] using hother LldpTlv.typeChassisId (by decide)
  have hport : l.tlvs.filter (·.type == LldpTlv.typePortId) = [l.portId] := by
    simpa [tlvs, h.chassisId, h.portId, h.ttl, LldpTlv.typeChassisId, LldpTlv.typePortId,
      LldpTlv.typeTimeToLive] using hother LldpTlv.typePortId (by decide)
  have httl : l.tlvs.filter (·.type == LldpTlv.typeTimeToLive) = [l.ttl] := by
    simpa [tlvs, h.chassisId, h.portId, h.ttl, LldpTlv.typeChassisId, LldpTlv.typePortId,
      LldpTlv.typeTimeToLive] using hother LldpTlv.typeTimeToLive (by decide)
  have hoptional : l.tlvs.filter (!·.isMandatory) = l.optional := by
    have hmandatory : l.chassisId.isMandatory = true ∧ l.portId.isMandatory = true ∧
        l.ttl.isMandatory = true := by
      simp [LldpTlv.isMandatory, h.chassisId, h.portId, h.ttl]
    simp [tlvs, hmandatory, hkept]
  -- each mandatory element is the only one of its type, hence the last
  rw [ofTlvs, lastOf, lastOf, lastOf, hchassis, hport, httl, hoptional]
  rfl

/-- What is read of a frame that was written are its elements up to the first end mark among them. -/
theorem decode_encode_eq (l : Lldp) :
    decode l.encode = ofTlvs (l.tlvs.takeWhile fun t => t.type ≠ LldpTlv.typeEnd) := by
  have hencode : l.encode = l.tlvs.flatMap LldpTlv.encode ++ Bytes.zeros 2 := by
    simp [encode, appendTo]
  rw [decode, hencode, LldpTlv.decodeAll_encode]
  rfl

/-- A unit is read back the same, its end mark being no element of it. -/
theorem decode_encode {l : Lldp} (h : l.Representable) : decode l.encode = .ok l := by
  -- no element is taken for the end mark
  have hnoEnd : ∀ t ∈ l.tlvs, t.type ≠ LldpTlv.typeEnd := by
    intro t ht
    simp only [tlvs, List.mem_cons] at ht
    rcases ht with rfl | rfl | rfl | ht
    · rw [h.chassisId]
      decide
    · rw [h.portId]
      decide
    · rw [h.ttl]
      decide
    · intro hend
      have hlarge := h.optional t ht
      rw [hend] at hlarge
      cases hlarge
  have hall : l.tlvs.takeWhile (fun t => t.type ≠ LldpTlv.typeEnd) = l.tlvs := by
    rw [List.takeWhile_eq_self_iff]
    intro t ht
    exact decide_eq_true (hnoEnd t ht)
  rw [decode_encode_eq, hall]
  exact ofTlvs_tlvs h

end Lldp

end Vswitch
