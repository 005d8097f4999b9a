import Mathlib
import Vswitch.Proofs.Computation
import Vswitch.Proofs.Packet.Link

/-!
# The elements of a frame

A string is a frame exactly if it is made of whole elements, up to the first end mark or to its own end,
and if each mandatory type is among them. Which element a frame files under such a type is decided by the
types alone, not by the places.

* `LldpTlv.Elements`: what a string is made of;
* `LldpTlv.decodeAll_eq_ok`, `Lldp.ofTlvs_eq_ok`: what is read of it, and what that is filed as;
* `Lldp.read_iff_elements`: which strings are frames, and which frames can be read again.
-/

namespace Vswitch

namespace LldpTlv

/-! ## Strings of elements -/

/-- The octets of an element: seven bits of type above nine bits of length, and the value. -/
def octets (t : LldpTlv) : Bytes :=
  Bytes.bigEndian 2 (t.type.toNat * 512 + t.value.length) ++ t.value

/-- What a string is made of: whole elements up to its end, or up to an element with the type of the end
mark, behind which anything may stand. -/
inductive Elements : Bytes → List LldpTlv → Prop where
  | exhausted : Elements [] []
  | ended {t : LldpTlv} (h : t.type = typeEnd) (behind : Bytes) : Elements (t.octets ++ behind) []
  | element {t : LldpTlv} {rest : Bytes} {later : List LldpTlv} (h : t.type ≠ typeEnd)
      (hlater : Elements rest later) : Elements (t.octets ++ rest) (t :: later)

variable {data rest : Bytes} {t : LldpTlv} {tlvs : List LldpTlv}

/-- Encoding an element writes its header and its value. -/
theorem encode_eq_octets (t : LldpTlv) : t.encode = t.octets := by
  rw [encode, Bytes.be16, toNat_word, octets]

/-- An element that was read is the front of the string. -/
theorem octets_of_decode (h : decode data = .ok (t, rest)) : data = t.octets ++ rest := by
  obtain ⟨_, hword, h⟩ := bind_eq_ok.mp h
  obtain ⟨_, hvalue, h⟩ := bind_eq_ok.mp h
  have htwo : 2 ≤ data.length := le_of_expectOctets hword
  have hwhole : 2 + (data.be16At 0).toNat % 512 ≤ data.length := le_of_expectOctets hvalue
  obtain ⟨rfl, rfl⟩ := Prod.mk.inj (Except.ok.inj h)
  have hlt := (data.be16At 0).toNat_lt
  have hlength : (data.slice 2 ((data.be16At 0).toNat % 512)).length =
      (data.be16At 0).toNat % 512 := by
    rw [Bytes.length_slice]
    omega
  -- type and length make up the word again that they were taken from
  have hfront : (UInt8.ofNat ((data.be16At 0).toNat / 512)).toNat * 512 +
      (data.slice 2 ((data.be16At 0).toNat % 512)).length = (data.be16At 0).toNat := by
    rw [hlength, UInt8.toNat_ofNat']
    omega
  have hoctets : Bytes.bigEndian 2 (data.be16At 0).toNat = data.slice 0 2 := Bytes.be16_be16At htwo
  rw [octets, hfront, hoctets, Bytes.slice_zero, Bytes.take_append_slice, List.take_append_drop]

/-- The reader of elements accepts exactly the strings that are made of elements. -/
theorem decodeAll_eq_ok : decodeAll data = .ok tlvs ↔ Elements data tlvs := by
  constructor
  · intro h
    -- one case for each way the loop goes on or ends
    fun_induction decodeAll data generalizing tlvs with
    | case1 =>
      obtain rfl := Except.ok.inj h
      exact .exhausted
    | case2 => cases h
    | case3 data _ t rest hdecode hend =>
      obtain rfl := Except.ok.inj h
      rw [octets_of_decode hdecode]
      exact .ended hend rest
    | case4 data _ t rest hdecode hend ih =>
      obtain ⟨later, hlater, h⟩ := bind_eq_ok.mp h
      obtain rfl := Except.ok.inj h
      rw [octets_of_decode hdecode]
      exact .element hend (ih hlater)
  · intro h
    induction h with
    | exhausted => rw [decodeAll, if_pos rfl]
    | @ended t hend behind =>
      rw [← encode_eq_octets, decodeAll_of_decode (decode_encode t behind), if_pos hend]
    | @element t rest later hend _ ih =>
      rw [← encode_eq_octets, decodeAll_of_decode (decode_encode t rest), if_neg hend, ih]
      rfl

/-- No element of a string is an end mark. -/
theorem Elements.ne_end (h : Elements data tlvs) : ∀ t ∈ tlvs, t.type ≠ typeEnd := by
  induction h with
  | exhausted | ended => exact fun t ht => absurd ht List.not_mem_nil
  | element hend _ ih => exact List.forall_mem_cons.mpr ⟨hend, ih⟩

/-! ## The last of a type -/

/-- An element is the last of its type. -/
def IsLast (type : UInt8) (tlvs : List LldpTlv) (t : LldpTlv) : Prop :=
  t.type = type ∧ ∃ before after, tlvs = before ++ t :: after ∧ ∀ t' ∈ after, t'.type ≠ type

end LldpTlv

namespace Lldp

open LldpTlv

variable {tlvs : List LldpTlv} {l : Lldp}

/-- The search finds the last element of its type. -/
theorem lastOf_eq_ok {type : UInt8} {field : PacketField} {t : LldpTlv} :
    lastOf type field tlvs = .ok t ↔ IsLast type tlvs t := by
  constructor
  · intro h
    rw [lastOf] at h
    split at h
    · rename_i t' hlast
      obtain rfl := Except.ok.inj h
      obtain ⟨front, hfilter⟩ := List.getLast?_eq_some_iff.mp hlast
      obtain ⟨before, rest, rfl, -, hrest⟩ := List.filter_eq_append_iff.mp hfilter
      obtain ⟨between, after, rfl, -, htype, hafter⟩ := List.filter_eq_cons_iff.mp hrest
      refine ⟨beq_iff_eq.mp htype, before ++ between, after, (List.append_assoc _ _ _).symm, ?_⟩
      intro t' ht' heq
      exact List.filter_eq_nil_iff.mp hafter t' ht' (beq_iff_eq.mpr heq)
    · cases h
  · rintro ⟨htype, before, after, rfl, hafter⟩
    have hnone : after.filter (·.type == type) = [] := by
      rw [List.filter_eq_nil_iff]
      intro t' ht' heq
      exact hafter t' ht' (beq_iff_eq.mp heq)
    rw [lastOf, List.filter_append, List.filter_cons, if_pos (beq_iff_eq.mpr htype), hnone,
      List.getLast?_concat]

/-- There is a last element of a type, or none of that type at all. -/
theorem lastOf_cases (type : UInt8) (field : PacketField) (tlvs : List LldpTlv) :
    ((∃ t, lastOf type field tlvs = .ok t) ∧ ∃ t ∈ tlvs, t.type = type) ∨
      lastOf type field tlvs = .error (.missing .lldp field) ∧ ¬ ∃ t ∈ tlvs, t.type = type := by
  by_cases hsome : ∃ t ∈ tlvs, t.type = type
  · left
    refine ⟨?_, hsome⟩
    obtain ⟨t, ht, htype⟩ := hsome
    have hne : tlvs.filter (·.type == type) ≠ [] :=
      List.ne_nil_of_mem (List.mem_filter.mpr ⟨ht, beq_iff_eq.mpr htype⟩)
    exact ⟨_, by rw [lastOf, List.getLast?_eq_some_getLast hne]⟩
  · right
    refine ⟨?_, hsome⟩
    have hnil : tlvs.filter (·.type == type) = [] := by
      rw [List.filter_eq_nil_iff]
      intro t ht heq
      exact hsome ⟨t, ht, beq_iff_eq.mp heq⟩
    rw [lastOf, hnil]
    rfl

/-! ## Frames -/

/-- How elements are filed: the last of each mandatory type under it, and all others in their order. -/
structure FiledFrom (tlvs : List LldpTlv) (l : Lldp) : Prop where
  chassisId : IsLast typeChassisId tlvs l.chassisId
  portId : IsLast typePortId tlvs l.portId
  ttl : IsLast typeTimeToLive tlvs l.ttl
  optional : l.optional = tlvs.filter fun t =>
    t.type ≠ typeChassisId ∧ t.type ≠ typePortId ∧ t.type ≠ typeTimeToLive

/-- Whether each mandatory type is there. -/
def Complete (tlvs : List LldpTlv) : Prop :=
  ∀ type ∈ [typeChassisId, typePortId, typeTimeToLive], ∃ t ∈ tlvs, t.type = type

instance (tlvs : List LldpTlv) : Decidable (Complete tlvs) :=
  inferInstanceAs (Decidable (∀ type ∈ [typeChassisId, typePortId, typeTimeToLive],
    ∃ t ∈ tlvs, t.type = type))

/-- Elements are filed just if the three mandatory ones are among them, each time the last. -/
theorem ofTlvs_eq_ok : ofTlvs tlvs = .ok l ↔ FiledFrom tlvs l := by
  have hothers : tlvs.filter (!·.isMandatory) = tlvs.filter fun t =>
      t.type ≠ typeChassisId ∧ t.type ≠ typePortId ∧ t.type ≠ typeTimeToLive := by
    refine List.filter_congr ?_
    intro t _
    rw [Bool.eq_iff_iff]
    simp [isMandatory, and_assoc]
  simp only [ofTlvs, bind_eq_ok, lastOf_eq_ok, hothers]
  constructor
  · rintro ⟨chassisId, hchassis, portId, hport, ttl, httl, h⟩
    obtain rfl := Except.ok.inj h
    exact ⟨hchassis, hport, httl, rfl⟩
  · rintro ⟨hchassis, hport, httl, hoptional⟩
    refine ⟨_, hchassis, _, hport, _, httl, ?_⟩
    rw [← hoptional]
    rfl

/-- Elements make up a frame, or a mandatory type is missing. -/
theorem ofTlvs_cases (tlvs : List LldpTlv) :
    ((∃ l, ofTlvs tlvs = .ok l) ∧ Complete tlvs) ∨
      (∃ field, ofTlvs tlvs = .error (.missing .lldp field)) ∧ ¬ Complete tlvs := by
  -- the mandatory types are asked for in turn, and the first that is missing is reported
  rcases lastOf_cases typeChassisId .chassisId tlvs with ⟨⟨c, hc⟩, hchassis⟩ | ⟨hc, hnone⟩
  · rcases lastOf_cases typePortId .portId tlvs with ⟨⟨p, hp⟩, hport⟩ | ⟨hp, hnone⟩
    · rcases lastOf_cases typeTimeToLive .timeToLive tlvs with ⟨⟨t, ht⟩, httl⟩ | ⟨ht, hnone⟩
      · left
        refine ⟨⟨_, by rw [ofTlvs, hc, hp, ht]; rfl⟩, ?_⟩
        intro type htype
        simp only [List.mem_cons, List.not_mem_nil, or_false] at htype
        rcases htype with rfl | rfl | rfl
        · exact hchassis
        · exact hport
        · exact httl
      · right
        exact ⟨⟨_, by rw [ofTlvs, hc, hp, ht]; rfl⟩, fun hall => hnone (hall _ (by simp))⟩
    · right
      exact ⟨⟨_, by rw [ofTlvs, hc, hp]; rfl⟩, fun hall => hnone (hall _ (by simp))⟩
  · right
    exact ⟨⟨_, by rw [ofTlvs, hc]; rfl⟩, fun hall => hnone (hall _ (by simp))⟩

/-- They can be filed just if none of the three is missing. -/
theorem exists_ofTlvs : (∃ l, ofTlvs tlvs = .ok l) ↔ Complete tlvs := by
  rcases ofTlvs_cases tlvs with ⟨hok, hall⟩ | ⟨⟨field, herror⟩, hnone⟩
  · exact iff_of_true hok hall
  · refine iff_of_false ?_ hnone
    rintro ⟨l, hok⟩
    cases herror.symm.trans hok

/-- Else one is reported missing. -/
theorem ofTlvs_missing :
    (∃ field, ofTlvs tlvs = .error (.missing .lldp field)) ↔ ¬ Complete tlvs := by
  rcases ofTlvs_cases tlvs with ⟨⟨l, hok⟩, hall⟩ | ⟨hmissing, hnone⟩
  · refine iff_of_false ?_ (not_not.mpr hall)
    rintro ⟨field, herror⟩
    cases herror.symm.trans hok
  · exact iff_of_true hmissing hnone

/-- A unit is read just if it is a list of elements that can be filed. -/
theorem decode_eq_ok {data : Bytes} :
    decode data = .ok l ↔ ∃ tlvs, Elements data tlvs ∧ FiledFrom tlvs l := by
  simp only [decode, bind_eq_ok, decodeAll_eq_ok, ofTlvs_eq_ok]

/-- What was filed can be filed again from where it is written. -/
theorem representable_of_filed {data : Bytes} (helements : Elements data tlvs)
    (h : FiledFrom tlvs l) : l.Representable := by
  refine ⟨h.chassisId.1, h.portId.1, h.ttl.1, ?_⟩
  intro t ht
  rw [h.optional, List.mem_filter, decide_eq_true_eq] at ht
  obtain ⟨hmem, hchassis, hport, httl⟩ := ht
  have hend := helements.ne_end t hmem
  -- of the types up to three none is left
  simp only [ne_eq, ← UInt8.toNat_inj] at hend hchassis hport httl
  have hnot : t.type.toNat ≠ 0 ∧ t.type.toNat ≠ 1 ∧ t.type.toNat ≠ 2 ∧ t.type.toNat ≠ 3 :=
    ⟨hend, hchassis, hport, httl⟩
  omega

/-- A string is read as a frame exactly if it is made of elements that are filed as that frame, and as
some frame exactly if it is made of elements with each mandatory type among them. What was read is read
again from what it is written as. Any other frame is found incomplete exactly if it is so up to its first
end mark. -/
theorem read_iff_elements (data : Bytes) (l : Lldp) :
    (decode data = .ok l ↔ ∃ tlvs, Elements data tlvs ∧ FiledFrom tlvs l) ∧
      ((∃ l', decode data = .ok l') ↔ ∃ tlvs, Elements data tlvs ∧ Complete tlvs) ∧
      (decode data = .ok l → decode l.encode = .ok l) ∧
      ((∃ field, decode l.encode = .error (.missing .lldp field)) ↔
        ¬ Complete (l.tlvs.takeWhile fun t => t.type ≠ typeEnd)) := by
  refine ⟨decode_eq_ok, ?_, ?_, ?_⟩
  · simp only [decode_eq_ok, ← exists_ofTlvs, ofTlvs_eq_ok]
    constructor
    · rintro ⟨l', tlvs, helements, hfiled⟩
      exact ⟨tlvs, helements, l', hfiled⟩
    · rintro ⟨tlvs, helements, l', hfiled⟩
      exact ⟨l', tlvs, helements, hfiled⟩
  · intro h
    obtain ⟨tlvs, helements, hfiled⟩ := decode_eq_ok.mp h
    exact decode_encode (representable_of_filed helements hfiled)
  · rw [decode_encode_eq]
    exact ofTlvs_missing

/-! ### A shuffled frame -/

def lifetime : LldpTlv := ⟨typeTimeToLive, [0, 30], by decide, by decide⟩

def systemName : LldpTlv := ⟨5, [115, 119], by decide, by decide⟩

def formerChassis : LldpTlv := ⟨typeChassisId, [7, 48], by decide, by decide⟩

def portName : LldpTlv := ⟨typePortId, [5, 112, 49], by decide, by decide⟩

def chassis : LldpTlv := ⟨typeChassisId, [4, 1, 2, 3, 4, 5, 6], by decide, by decide⟩

/-- Elements in no order, the chassis named twice, and no end mark. -/
def shuffled : Bytes :=
  lifetime.octets ++ (formerChassis.octets ++ (systemName.octets ++ (portName.octets ++
    (chassis.octets ++ []))))

theorem read_iff_elements_shuffled :
    decode shuffled = .ok ⟨chassis, portName, lifetime, [systemName]⟩ ∧
      decode (encode ⟨chassis, portName, lifetime, [systemName]⟩) =
        .ok ⟨chassis, portName, lifetime, [systemName]⟩ ∧
      (∃ field, decode (encode ⟨systemName, portName, lifetime, []⟩) =
        .error (.missing .lldp field)) ∧
      ¬ ∃ field, decode (encode ⟨systemName, portName, lifetime, [chassis]⟩) =
        .error (.missing .lldp field) := by
  have helements : Elements shuffled [lifetime, formerChassis, systemName, portName, chassis] :=
    .element (by decide) (.element (by decide) (.element (by decide) (.element (by decide)
      (.element (by decide) .exhausted))))
  have hfiled : FiledFrom [lifetime, formerChassis, systemName, portName, chassis]
      ⟨chassis, portName, lifetime, [systemName]⟩ := by
    constructor
    · exact ⟨rfl, [lifetime, formerChassis, systemName, portName], [], rfl, by simp⟩
    · exact ⟨rfl, [lifetime, formerChassis, systemName], [chassis], rfl, by decide⟩
    · exact ⟨rfl, [], [formerChassis, systemName, portName, chassis], rfl, by decide⟩
    · rfl
  obtain ⟨hread, -, hagain, -⟩ :=
    read_iff_elements shuffled ⟨chassis, portName, lifetime, [systemName]⟩
  have hdecode := hread.mpr ⟨_, helements, hfiled⟩
  refine ⟨hdecode, hagain hdecode, ?_, ?_⟩
  · exact (read_iff_elements [] ⟨systemName, portName, lifetime, []⟩).2.2.2.mpr (by decide)
  · rw [(read_iff_elements [] ⟨systemName, portName, lifetime, [chassis]⟩).2.2.2, not_not]
    decide +kernel

end Lldp

end Vswitch
