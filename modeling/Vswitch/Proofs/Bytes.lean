import Mathlib
import Vswitch.Address

/-!
# Laws of octet strings

Reading at an offset past a prefix and directly behind it; words read back as they
were written, and written as they were read; fields overwritten in place; fields of a word; alignment. The
simplifier moves a reading past all that stands in front of it.
-/

namespace Vswitch

namespace Bytes

variable {xs ys mid field : Bytes} {o : UInt8} {i n : Nat}

/-! ## Cutting -/

@[simp] theorem drop_append_right (h : xs.length ≤ i) :
    (xs ++ ys).drop i = ys.drop (i - xs.length) := by
  rw [List.drop_append, List.drop_eq_nil_of_le h, List.nil_append]

@[simp] theorem slice_append_right (h : xs.length ≤ i) :
    (xs ++ ys).slice i n = ys.slice (i - xs.length) n := by
  rw [slice, slice, drop_append_right h]

@[simp] theorem slice_cons_succ : slice (o :: ys) (i + 1) n = slice ys i n := rfl

/-- Past its end a string holds nothing. -/
theorem drop_min_length (data : Bytes) (n : Nat) : data.drop (min n data.length) = data.drop n := by
  by_cases hle : n ≤ data.length
  · rw [Nat.min_eq_left hle]
  · have hlt := Nat.le_of_not_le hle
    rw [Nat.min_eq_right hlt, List.drop_length, List.drop_eq_nil_of_le hlt]

/-- What stands at the front is cut out by its length. -/
@[simp] theorem slice_front (h : xs.length = n) : (xs ++ ys).slice 0 n = xs := by
  rw [slice, List.drop_zero, ← h, List.take_left]

/-- What stands behind `xs` is cut out by its position and length. -/
theorem slice_behind (hi : xs.length = i) (hn : mid.length = n) :
    (xs ++ (mid ++ ys)).slice i n = mid := by
  rw [slice_append_right (Nat.le_of_eq hi), hi, Nat.sub_self, slice_front hn]

/-- What stands at the front is found there whatever stands behind it. -/
theorem slice_append_left (h : i + n ≤ xs.length) (ys : Bytes) :
    (xs ++ ys).slice i n = xs.slice i n := by
  rw [slice, slice, List.drop_append_of_le_length (by omega),
    List.take_append_of_le_length (by rw [List.length_drop]; omega)]

/-- A slice as long as the data is the data. -/
theorem slice_self (h : xs.length = n) : xs.slice 0 n = xs := by
  rw [slice, List.drop_zero, ← h, List.take_length]

@[simp] theorem octet_append_right (h : xs.length ≤ i) :
    (xs ++ ys).octet i = ys.octet (i - xs.length) := by
  rw [octet, octet, List.getD_append_right _ _ _ _ h]

/-- Octets in front do not depend on what follows. -/
theorem octet_append_left (h : i < xs.length) (ys : Bytes) : (xs ++ ys).octet i = xs.octet i := by
  rw [octet, octet, List.getD_append _ _ _ _ h]

@[simp] theorem octet_cons_zero : octet (o :: ys) 0 = o := rfl

@[simp] theorem octet_cons_succ : octet (o :: ys) (i + 1) = octet ys i := rfl

/-- Replacing a field behind `xs` by one of its width. -/
theorem overwrite_append (hi : xs.length = i) (h : field.length = mid.length) :
    (xs ++ (mid ++ ys)).overwrite i field = xs ++ (field ++ ys) := by
  rw [overwrite, ← hi, List.take_left, h, List.append_assoc, List.drop_append,
    List.drop_eq_nil_of_le (by omega), List.nil_append, Nat.add_sub_cancel_left, List.drop_left]

/-- Data that is long enough is not padded. -/
theorem padTo_of_le (h : n ≤ xs.length) : xs.padTo n = xs := by
  rw [padTo, Nat.sub_eq_zero_of_le h, zeros, List.replicate_zero, List.append_nil]

theorem take_append_right (h : xs.length ≤ n) (ys : Bytes) :
    (xs ++ ys).take n = xs ++ ys.take (n - xs.length) := by
  rw [List.take_append, List.take_of_length_le h]

/-- A field behind `xs` is overwritten where it stands. -/
theorem overwrite_append_right (xs ys field : Bytes) (i : Nat) :
    (xs ++ ys).overwrite (xs.length + i) field = xs ++ ys.overwrite i field := by
  rw [overwrite, overwrite, Nat.add_assoc, List.take_length_add_append, List.drop_length_add_append,
    List.append_assoc, List.append_assoc, List.append_assoc]

/-- Overwriting behind a front leaves the front alone. -/
theorem overwrite_behind (h : xs.length ≤ i) (ys field : Bytes) :
    (xs ++ ys).overwrite i field = xs ++ ys.overwrite (i - xs.length) field := by
  have hplace := overwrite_append_right xs ys field (i - xs.length)
  rwa [Nat.add_sub_cancel' h] at hplace

/-- A slice of a slice is one of the data. -/
theorem slice_slice (data : Bytes) (start : Nat) {width : Nat} (h : i + width ≤ n) :
    (data.slice start n).slice i width = data.slice (start + i) width := by
  rw [slice, slice, slice, List.drop_take, List.drop_drop, List.take_take,
    Nat.min_eq_left (by omega)]

/-- An octet inside a slice. -/
theorem octet_slice (data : Bytes) (start : Nat) (h : i < n) :
    (data.slice start n).octet i = data.octet (start + i) := by
  rw [octet, octet, slice, List.getD_eq_getElem?_getD, List.getD_eq_getElem?_getD,
    List.getElem?_take_of_lt h, List.getElem?_drop]

/-! ## Words -/

@[simp] theorem be16At_cons_succ : be16At (o :: ys) (i + 1) = be16At ys i := rfl

@[simp] theorem be16At_append_right (h : xs.length ≤ i) :
    (xs ++ ys).be16At i = ys.be16At (i - xs.length) := by
  rw [be16At, be16At, slice_append_right h]

/-- A word in front does not depend on what follows. -/
theorem be16At_append_left (h : i + 2 ≤ xs.length) (ys : Bytes) :
    (xs ++ ys).be16At i = xs.be16At i := by
  rw [be16At, be16At, slice_append_left h]

@[simp] theorem be32At_cons_succ : be32At (o :: ys) (i + 1) = be32At ys i := rfl

@[simp] theorem be32At_append_right (h : xs.length ≤ i) :
    (xs ++ ys).be32At i = ys.be32At (i - xs.length) := by
  rw [be32At, be32At, slice_append_right h]

@[simp] theorem le16At_append_right (h : xs.length ≤ i) :
    (xs ++ ys).le16At i = ys.le16At (i - xs.length) := by
  rw [le16At, le16At, slice_append_right h]

@[simp] theorem le32At_append_right (h : xs.length ≤ i) :
    (xs ++ ys).le32At i = ys.le32At (i - xs.length) := by
  rw [le32At, le32At, slice_append_right h]

theorem le16At_append_left (h : i + 2 ≤ xs.length) (ys : Bytes) :
    (xs ++ ys).le16At i = xs.le16At i := by
  rw [le16At, le16At, slice_append_left h]

theorem le32At_append_left (h : i + 4 ≤ xs.length) (ys : Bytes) :
    (xs ++ ys).le32At i = xs.le32At i := by
  rw [le32At, le32At, slice_append_left h]

/-- A word is read back where it was written. -/
@[simp] theorem be16At_be16 (w : UInt16) (ys : Bytes) : (be16 w ++ ys).be16At 0 = w := by
  have hw : w.toNat % capacity 2 = w.toNat := Nat.mod_eq_of_lt w.toNat_lt
  rw [be16At, slice_front (length_be16 w), be16, ofBigEndian_bigEndian, hw, UInt16.ofNat_toNat]

@[simp] theorem be32At_be32 (w : UInt32) (ys : Bytes) : (be32 w ++ ys).be32At 0 = w := by
  have hw : w.toNat % capacity 4 = w.toNat := Nat.mod_eq_of_lt w.toNat_lt
  rw [be32At, slice_front (length_be32 w), be32, ofBigEndian_bigEndian, hw, UInt32.ofNat_toNat]

@[simp] theorem le16At_le16 (w : UInt16) (ys : Bytes) : (le16 w ++ ys).le16At 0 = w := by
  have hw : w.toNat % capacity 2 = w.toNat := Nat.mod_eq_of_lt w.toNat_lt
  rw [le16At, slice_front (length_le16 w), le16, ofLittleEndian_littleEndian, hw,
    UInt16.ofNat_toNat]

@[simp] theorem le32At_le32 (w : UInt32) (ys : Bytes) : (le32 w ++ ys).le32At 0 = w := by
  have hw : w.toNat % capacity 4 = w.toNat := Nat.mod_eq_of_lt w.toNat_lt
  rw [le32At, slice_front (length_le32 w), le32, ofLittleEndian_littleEndian, hw,
    UInt32.ofNat_toNat]

/-- A word that stands alone is read back as well. -/
@[simp] theorem be16At_be16_self (w : UInt16) : (be16 w).be16At 0 = w := by
  have hword := be16At_be16 w []
  rwa [List.append_nil] at hword

/-- The second of two words that stand alone. -/
@[simp] theorem be16At_two (v w : UInt16) : (be16 v ++ be16 w).be16At 2 = w := by
  have hle : (be16 v).length ≤ 2 := Nat.le_of_eq (length_be16 v)
  rw [be16At_append_right hle, length_be16]
  exact be16At_be16_self w

@[simp] theorem be32At_be32_self (w : UInt32) : (be32 w).be32At 0 = w := by
  have hword := be32At_be32 w []
  rwa [List.append_nil] at hword

@[simp] theorem le16At_le16_self (w : UInt16) : (le16 w).le16At 0 = w := by
  have hword := le16At_le16 w []
  rwa [List.append_nil] at hword

@[simp] theorem le32At_le32_self (w : UInt32) : (le32 w).le32At 0 = w := by
  have hword := le32At_le32 w []
  rwa [List.append_nil] at hword

@[simp] theorem le64At_le64_self (w : UInt64) : (le64 w).le64At 0 = w := by
  have hw : w.toNat % capacity 8 = w.toNat := Nat.mod_eq_of_lt w.toNat_lt
  have hwhole : (le64 w).slice 0 8 = le64 w := slice_self (length_le64 w)
  rw [le64At, hwhole, le64, ofLittleEndian_littleEndian, hw, UInt64.ofNat_toNat]

/-- Eight octets in network order spell the word. -/
theorem ofBigEndian_be64 (w : UInt64) : UInt64.ofNat (ofBigEndian (be64 w)) = w := by
  have hw : w.toNat % capacity 8 = w.toNat := Nat.mod_eq_of_lt w.toNat_lt
  rw [be64, ofBigEndian_bigEndian, hw, UInt64.ofNat_toNat]

/-- The first octet of a word is the more significant one. -/
@[simp] theorem octet_be16 (w : UInt16) (ys : Bytes) :
    (be16 w ++ ys).octet 0 = UInt8.ofNat (w.toNat / 256) := rfl

/-- Filling in a word behind `xs`. -/
theorem overwrite_be16 (hi : xs.length = i) (old new : UInt16) :
    (xs ++ (be16 old ++ ys)).overwrite i (be16 new) = xs ++ (be16 new ++ ys) :=
  overwrite_append hi rfl

/-- A word inside a slice. -/
theorem be16At_slice (data : Bytes) (start : Nat) (h : i + 2 ≤ n) :
    (data.slice start n).be16At i = data.be16At (start + i) := by
  rw [be16At, be16At, slice_slice _ _ h]

/-! ## Read and written again -/

section Standing

variable {data : Bytes}

/-- Adjacent slices join. -/
theorem slice_append_slice (data : Bytes) (i m n : Nat) :
    data.slice i m ++ data.slice (i + m) n = data.slice i (m + n) := by
  rw [slice, slice, slice, ← List.drop_drop, List.take_add]

theorem slice_zero (data : Bytes) (n : Nat) : data.slice 0 n = data.take n := rfl

/-- A front with what stands behind it is a longer front. -/
theorem take_append_slice (data : Bytes) (i n : Nat) :
    data.take i ++ data.slice i n = data.take (i + n) := by
  rw [slice, List.take_add]

/-- Two octets as they stand. -/
theorem octets_pair (h : i + 2 ≤ data.length) :
    [data.octet i, data.octet (i + 1)] = data.slice i 2 := by
  have hfirst : data.drop i = data[i] :: data[i + 1] :: data.drop (i + 2) := by
    rw [List.drop_eq_getElem_cons (by omega), List.drop_eq_getElem_cons (by omega)]
  rw [slice, hfirst, octet, octet, List.getD_eq_getElem _ _ (by omega),
    List.getD_eq_getElem _ _ (by omega)]
  rfl

/-- Octets stand for less than what their number can hold. -/
theorem ofLittleEndian_lt (data : Bytes) : ofLittleEndian data < capacity data.length := by
  induction data with
  | nil => exact Nat.one_pos
  | cons b rest ih =>
    have hb := b.toNat_lt
    rw [ofLittleEndian, List.length_cons, capacity]
    omega

/-- Writing the number that octets spell gives the octets. -/
theorem littleEndian_ofLittleEndian (data : Bytes) :
    littleEndian data.length (ofLittleEndian data) = data := by
  induction data with
  | nil => rfl
  | cons b rest ih =>
    have hb := b.toNat_lt
    have hlow : UInt8.ofNat (b.toNat + 256 * ofLittleEndian rest) = b := by
      rw [← UInt8.toNat_inj, UInt8.toNat_ofNat']
      omega
    have hhigh : (b.toNat + 256 * ofLittleEndian rest) / 256 = ofLittleEndian rest := by omega
    rw [List.length_cons, ofLittleEndian, littleEndian, hlow, hhigh, ih]

/-- The octets of the number read are those read from. -/
theorem bigEndian_ofBigEndian (data : Bytes) : bigEndian data.length (ofBigEndian data) = data := by
  rw [bigEndian, ofBigEndian, ← List.length_reverse, littleEndian_ofLittleEndian,
    List.reverse_reverse]

theorem ofBigEndian_lt (data : Bytes) : ofBigEndian data < capacity data.length := by
  have hlt := ofLittleEndian_lt data.reverse
  rwa [List.length_reverse] at hlt

/-- The number that is read at a place fits its width, and is written as what stands there. -/
theorem bigEndian_slice (h : i + n ≤ data.length) :
    ofBigEndian (data.slice i n) < capacity n ∧
      bigEndian n (ofBigEndian (data.slice i n)) = data.slice i n := by
  have hlength : (data.slice i n).length = n := by
    rw [length_slice]
    omega
  have hlt := ofBigEndian_lt (data.slice i n)
  have hspelt := bigEndian_ofBigEndian (data.slice i n)
  rw [hlength] at hlt hspelt
  exact ⟨hlt, hspelt⟩

/-- A word is written as the octets that it was read from. -/
theorem be16_be16At (h : i + 2 ≤ data.length) : be16 (data.be16At i) = data.slice i 2 := by
  obtain ⟨hlt, hspelt⟩ := bigEndian_slice h
  have hfits : ofBigEndian (data.slice i 2) < 2 ^ 16 := hlt
  rw [be16, be16At, UInt16.toNat_ofNat', Nat.mod_eq_of_lt hfits, hspelt]

/-- The octets of a word read are those it was read from. -/
theorem be32_be32At (h : i + 4 ≤ data.length) : be32 (data.be32At i) = data.slice i 4 := by
  obtain ⟨hlt, hspelt⟩ := bigEndian_slice h
  have hfits : ofBigEndian (data.slice i 4) < 2 ^ 32 := hlt
  rw [be32, be32At, UInt32.toNat_ofNat', Nat.mod_eq_of_lt hfits, hspelt]

/-- In host order as well. -/
theorem littleEndian_slice (h : i + n ≤ data.length) :
    ofLittleEndian (data.slice i n) < capacity n ∧
      littleEndian n (ofLittleEndian (data.slice i n)) = data.slice i n := by
  have hlength : (data.slice i n).length = n := by
    rw [length_slice]
    omega
  have hlt := ofLittleEndian_lt (data.slice i n)
  have hspelt := littleEndian_ofLittleEndian (data.slice i n)
  rw [hlength] at hlt hspelt
  exact ⟨hlt, hspelt⟩

theorem le16_le16At (h : i + 2 ≤ data.length) : le16 (data.le16At i) = data.slice i 2 := by
  obtain ⟨hlt, hspelt⟩ := littleEndian_slice h
  have hfits : ofLittleEndian (data.slice i 2) < 2 ^ 16 := hlt
  rw [le16, le16At, UInt16.toNat_ofNat', Nat.mod_eq_of_lt hfits, hspelt]

theorem le32_le32At (h : i + 4 ≤ data.length) : le32 (data.le32At i) = data.slice i 4 := by
  obtain ⟨hlt, hspelt⟩ := littleEndian_slice h
  have hfits : ofLittleEndian (data.slice i 4) < 2 ^ 32 := hlt
  rw [le32, le32At, UInt32.toNat_ofNat', Nat.mod_eq_of_lt hfits, hspelt]

/-- The first octet of a word is its more significant one. -/
theorem toNat_octet (h : i + 2 ≤ data.length) :
    (data.octet i).toNat = (data.be16At i).toNat / 256 := by
  have hword := be16_be16At h
  rw [← octets_pair h] at hword
  have hlt := (data.be16At i).toNat_lt
  have hfirst : UInt8.ofNat ((data.be16At i).toNat / 256) = data.octet i := (List.cons.inj hword).1
  rw [← hfirst, UInt8.toNat_ofNat']
  omega

end Standing

/-! ## Fields of a word -/

/-- A field above `k` bits of a word, put together with what stands below. -/
theorem toNat_shiftLeft_or {hi lo k : UInt16} (hk : k.toNat < 16) (hlo : lo.toNat < 2 ^ k.toNat)
    (hhi : hi.toNat * 2 ^ k.toNat < 2 ^ 16) :
    ((hi <<< k) ||| lo).toNat = hi.toNat * 2 ^ k.toNat + lo.toNat := by
  rw [UInt16.toNat_or, UInt16.toNat_shiftLeft, Nat.mod_eq_of_lt hk, Nat.shiftLeft_eq,
    Nat.mod_eq_of_lt hhi, ← Nat.shiftLeft_eq, Nat.shiftLeft_add_eq_or_of_lt hlo]

/-- A shift to the right divides. -/
theorem toNat_shiftRight {w k : UInt16} (hk : k.toNat < 16) :
    (w >>> k).toNat = w.toNat / 2 ^ k.toNat := by
  rw [UInt16.toNat_shiftRight, Nat.mod_eq_of_lt hk, Nat.shiftRight_eq_div_pow]

/-- A mask of low bits takes the remainder. -/
theorem toNat_and_mask {w mask : UInt16} {k : Nat} (h : mask.toNat = 2 ^ k - 1) :
    (w &&& mask).toNat = w.toNat % 2 ^ k := by
  rw [UInt16.toNat_and, h, Nat.and_two_pow_sub_one_eq_mod]

/-- A word that a field can hold is not changed by the mask of the field. -/
theorem and_mask_of_lt {w mask : UInt16} {k : Nat} (h : mask.toNat = 2 ^ k - 1)
    (hw : w.toNat < 2 ^ k) : w &&& mask = w := by
  rw [← UInt16.toNat_inj, toNat_and_mask h]
  exact Nat.mod_eq_of_lt hw

/-- Nor is an octet, which becomes a word to be shifted to its place. -/
theorem toNat_toUInt16_and_mask {mask : UInt8} {k : Nat} (h : mask.toNat = 2 ^ k - 1)
    (ho : o.toNat < 2 ^ k) : (o &&& mask).toUInt16.toNat = o.toNat := by
  rw [UInt8.toNat_toUInt16, UInt8.toNat_and, h, Nat.and_two_pow_sub_one_eq_mod]
  exact Nat.mod_eq_of_lt ho

/-! ## Alignment -/

/-- Padding never shortens. -/
theorem le_align4 (n : Nat) : n ≤ align4 n := by
  unfold align4
  omega

/-- What is padded is a multiple of four. -/
theorem dvd_align4 (n : Nat) : 4 ∣ align4 n := Nat.dvd_mul_left 4 _

/-- Nothing is added to a multiple of four. -/
theorem align4_of_dvd (h : 4 ∣ n) : align4 n = n := by
  unfold align4
  omega

/-- A multiple of four in front does not change the padding. -/
theorem align4_add (h : 4 ∣ i) : align4 (i + n) = i + align4 n := by
  unfold align4
  omega

end Bytes

/-! ## Addresses -/

namespace MacAddr

variable {xs ys : Bytes} {i : Nat}

@[simp] theorem ofBytes_append_right (h : xs.length ≤ i) :
    ofBytes (xs ++ ys) i = ofBytes ys (i - xs.length) := by
  simp only [ofBytes]
  rw [Bytes.octet_append_right (by omega), Bytes.octet_append_right (by omega),
    Bytes.octet_append_right (by omega), Bytes.octet_append_right (by omega),
    Bytes.octet_append_right (by omega), Bytes.octet_append_right (by omega)]
  simp only [Nat.sub_add_comm h]

/-- An address read has the octets it was read from. -/
theorem octets_ofBytes {data : Bytes} {i : Nat} (h : i + 6 ≤ data.length) :
    (ofBytes data i).octets = data.slice i 6 := by
  have hpairs : (ofBytes data i).octets = [data.octet i, data.octet (i + 1)] ++
      ([data.octet (i + 2), data.octet (i + 2 + 1)] ++
        [data.octet (i + 4), data.octet (i + 4 + 1)]) := rfl
  rw [hpairs, Bytes.octets_pair (by omega), Bytes.octets_pair (by omega),
    Bytes.octets_pair (by omega), Bytes.slice_append_slice data (i + 2) 2 2,
    Bytes.slice_append_slice data i 2 4]

end MacAddr

namespace Ipv4Addr

variable {xs ys : Bytes} {o : UInt8} {i : Nat}

@[simp] theorem ofBytes_cons_succ : ofBytes (o :: ys) (i + 1) = ofBytes ys i := rfl

@[simp] theorem ofBytes_append_right (h : xs.length ≤ i) :
    ofBytes (xs ++ ys) i = ofBytes ys (i - xs.length) := by
  simp only [ofBytes]
  rw [Bytes.octet_append_right (by omega), Bytes.octet_append_right (by omega),
    Bytes.octet_append_right (by omega), Bytes.octet_append_right (by omega)]
  simp only [Nat.sub_add_comm h]

theorem octets_ofBytes {data : Bytes} {i : Nat} (h : i + 4 ≤ data.length) :
    (ofBytes data i).octets = data.slice i 4 := by
  have hpairs : (ofBytes data i).octets = [data.octet i, data.octet (i + 1)] ++
      [data.octet (i + 2), data.octet (i + 2 + 1)] := rfl
  rw [hpairs, Bytes.octets_pair (by omega), Bytes.octets_pair (by omega),
    Bytes.slice_append_slice data i 2 2]

end Ipv4Addr

end Vswitch
