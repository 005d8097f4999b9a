/-!
# Octet strings

Everything that crosses a wire is a list of octets. This module reads and writes machine words in
both byte orders, cuts fields out of a string and overwrites them in place.

* `Bytes.littleEndian`, `Bytes.bigEndian`: the octets of a number, for any width;
* `Bytes.ofLittleEndian`, `Bytes.ofBigEndian`: the number that octets spell.

Main statements: `ofLittleEndian_littleEndian` and `ofBigEndian_bigEndian`, reading back what was
written gives the number reduced to the width.
-/

namespace Vswitch

/-- A string of octets. Lists are what proofs take apart; only the body of a request is packed. -/
abbrev Bytes := List UInt8

namespace Bytes

/-! ## Numbers as octets -/

/-- The low `width` octets of `n`, least significant first. -/
def littleEndian : (width n : Nat) → Bytes
  | 0, _ => []
  | width + 1, n => UInt8.ofNat n :: littleEndian width (n / 256)

/-- The low `width` octets of `n`, most significant first. -/
def bigEndian (width n : Nat) : Bytes :=
  (littleEndian width n).reverse

/-- The number that `data` spells, least significant octet first. -/
def ofLittleEndian : (data : Bytes) → Nat
  | [] => 0
  | b :: rest => b.toNat + 256 * ofLittleEndian rest

/-- The number that `data` spells, most significant octet first. -/
def ofBigEndian (data : Bytes) : Nat :=
  ofLittleEndian data.reverse

/-- How many numbers `width` octets can spell. -/
def capacity : (width : Nat) → Nat
  | 0 => 1
  | width + 1 => 256 * capacity width

@[simp] theorem length_littleEndian (width n : Nat) : (littleEndian width n).length = width := by
  induction width generalizing n with
  | zero => rfl
  | succ width ih => simp [littleEndian, ih]

@[simp] theorem length_bigEndian (width n : Nat) : (bigEndian width n).length = width := by
  simp [bigEndian]

/-- Reading back `width` octets gives the number modulo the capacity of `width` octets. -/
theorem ofLittleEndian_littleEndian (width n : Nat) :
    ofLittleEndian (littleEndian width n) = n % capacity width := by
  induction width generalizing n with
  | zero => simp [littleEndian, ofLittleEndian, capacity, Nat.mod_one]
  | succ width ih =>
    rw [littleEndian, ofLittleEndian, ih, capacity, Nat.mod_mul]
    simp

/-- Reading back `width` octets gives the number modulo the capacity of `width` octets. -/
theorem ofBigEndian_bigEndian (width n : Nat) :
    ofBigEndian (bigEndian width n) = n % capacity width := by
  simp [ofBigEndian, bigEndian, ofLittleEndian_littleEndian]

/-! ## Words in network order -/

/-- Two octets in network order. -/
def be16 (w : UInt16) : Bytes := bigEndian 2 w.toNat

/-- Four octets in network order. -/
def be32 (w : UInt32) : Bytes := bigEndian 4 w.toNat

/-- Eight octets in network order. -/
def be64 (w : UInt64) : Bytes := bigEndian 8 w.toNat

/-! ## Words in host order -/

/-- Two octets in host order. -/
def le16 (w : UInt16) : Bytes := littleEndian 2 w.toNat

/-- Four octets in host order. -/
def le32 (w : UInt32) : Bytes := littleEndian 4 w.toNat

/-- Eight octets in host order. -/
def le64 (w : UInt64) : Bytes := littleEndian 8 w.toNat

@[simp] theorem length_be16 (w : UInt16) : (be16 w).length = 2 := length_bigEndian 2 _

@[simp] theorem length_be32 (w : UInt32) : (be32 w).length = 4 := length_bigEndian 4 _

@[simp] theorem length_be64 (w : UInt64) : (be64 w).length = 8 := length_bigEndian 8 _

@[simp] theorem length_le16 (w : UInt16) : (le16 w).length = 2 := length_littleEndian 2 _

@[simp] theorem length_le32 (w : UInt32) : (le32 w).length = 4 := length_littleEndian 4 _

@[simp] theorem length_le64 (w : UInt64) : (le64 w).length = 8 := length_littleEndian 8 _

/-! ## Fields at an offset -/

/-- The octet at offset `i`, zero past the end. -/
def octet (data : Bytes) (i : Nat) : UInt8 := data.getD i 0

/-- At most `len` octets from offset `start` on. -/
def slice (data : Bytes) (start len : Nat) : Bytes := (data.drop start).take len

/-- Whether `data` holds at least `n` octets. -/
def Covers (data : Bytes) (n : Nat) : Prop := n ≤ data.length

/-- Looks at no more than the octets that are asked for. -/
instance decidableCovers : (data : Bytes) → (n : Nat) → Decidable (data.Covers n)
  | _, 0 => isTrue (Nat.zero_le _)
  | [], _ + 1 => isFalse (Nat.not_succ_le_zero _)
  | _ :: rest, n + 1 =>
    match decidableCovers rest n with
    | isTrue h => isTrue (Nat.succ_le_succ h)
    | isFalse h => isFalse fun covers => h (Nat.le_of_succ_le_succ covers)

theorem covers_iff {data : Bytes} {n : Nat} : data.Covers n ↔ n ≤ data.length := Iff.rfl

/-- The network-order word of two octets at offset `i`. -/
def be16At (data : Bytes) (i : Nat) : UInt16 := UInt16.ofNat (ofBigEndian (slice data i 2))

/-- The network-order word of four octets at offset `i`. -/
def be32At (data : Bytes) (i : Nat) : UInt32 := UInt32.ofNat (ofBigEndian (slice data i 4))

/-- The host-order word of two octets at offset `i`. -/
def le16At (data : Bytes) (i : Nat) : UInt16 := UInt16.ofNat (ofLittleEndian (slice data i 2))

/-- The host-order word of four octets at offset `i`. -/
def le32At (data : Bytes) (i : Nat) : UInt32 := UInt32.ofNat (ofLittleEndian (slice data i 4))

/-- The host-order word of eight octets at offset `i`. -/
def le64At (data : Bytes) (i : Nat) : UInt64 := UInt64.ofNat (ofLittleEndian (slice data i 8))

/-- `data` with the octets from offset `start` on replaced by those of `field`. -/
def overwrite (data : Bytes) (start : Nat) (field : Bytes) : Bytes :=
  data.take start ++ field ++ data.drop (start + field.length)

/-- `count` zero octets. -/
def zeros (count : Nat) : Bytes := List.replicate count 0

/-- `data` extended with zeros to at least `len` octets. -/
def padTo (data : Bytes) (len : Nat) : Bytes := data ++ zeros (len - data.length)

@[simp] theorem length_zeros (count : Nat) : (zeros count).length = count := by
  simp [zeros]

theorem length_slice (data : Bytes) (start len : Nat) :
    (slice data start len).length = min len (data.length - start) := by
  simp [slice]

theorem length_padTo (data : Bytes) (len : Nat) : (padTo data len).length = max data.length len := by
  simp [padTo]; omega

/-- Overwriting inside the string keeps its length. -/
theorem length_overwrite {data field : Bytes} {start : Nat}
    (fits : start + field.length ≤ data.length) :
    (overwrite data start field).length = data.length := by
  simp [overwrite]; omega

/-! ## Alignment -/

/-- `n` rounded up to a multiple of four. -/
def align4 (n : Nat) : Nat := (n + 3) / 4 * 4

end Bytes

end Vswitch
