import Mathlib
import Vswitch.Proofs.Packet.Checksum

/-!
# The checksum as arithmetic

The carries of a sum are folded in by a loop. Whatever the register holds, the loop ends after four turns
at most, and leaves the residue of the sum modulo 65535: zero of zero only. A sum may be taken in parts
that begin an even number of octets from the front, and the register holds it as long as there are less
than 2^48 octets. Data with its checksum in a place that was zero has the checksum zero.

* `Checksum.foldLoop`, `Checksum.foldLoop_eq`: the loop on the bits of the register, and its bound;
* `Checksum.eq_residue_iff`: residues by congruence;
* `Checksum.checkedSum`, `Checksum.sum_append`: sums that do not overflow, and sums in parts;
* `Checksum.ofBytes_eq_zero_iff`: what a receiver looks for, as a checksum;
* `Checksum.checksum_laws`: all of it together.
-/

namespace Vswitch.Checksum

variable {acc : UInt64} {data : Bytes}

/-! ## The folding loop -/

/-- One turn of the loop: what stands above the low sixteen bits is added to them. -/
def foldTurn (acc : UInt64) : UInt64 := (acc &&& (0xffff : UInt64)) + (acc >>> 16)

/-- The loop goes on while anything stands above the low sixteen bits. Nothing comes of it when it needs
more turns than there are. -/
def foldLoop : (turns : Nat) → UInt64 → Option UInt64
  | 0, acc => if acc >>> 16 = 0 then some acc else none
  | turns + 1, acc => if acc >>> 16 = 0 then some acc else foldLoop turns (foldTurn acc)

theorem toNat_shiftRight_sixteen (acc : UInt64) : (acc >>> 16).toNat = acc.toNat / 65536 := by
  rw [UInt64.toNat_shiftRight]
  exact Nat.shiftRight_eq_div_pow acc.toNat 16

theorem shiftRight_eq_zero_iff (acc : UInt64) : acc >>> 16 = 0 ↔ acc < 65536 := by
  rw [← UInt64.toNat_inj, toNat_shiftRight_sixteen, UInt64.lt_iff_toNat_lt]
  simp only [UInt64.reduceToNat, UInt64.toNat_zero]
  omega

theorem toNat_foldTurn (acc : UInt64) :
    (foldTurn acc).toNat = acc.toNat % 65536 + acc.toNat / 65536 := by
  have hbound := acc.toNat_lt
  have hlow : (acc &&& (0xffff : UInt64)).toNat = acc.toNat % 65536 := by
    rw [UInt64.toNat_and]
    exact Nat.and_two_pow_sub_one_eq_mod acc.toNat 16
  rw [foldTurn, UInt64.toNat_add, hlow, toNat_shiftRight_sixteen]
  omega

/-- What stands above the low sixteen bits bounds what a turn leaves. -/
theorem toNat_foldTurn_le {high : Nat} (h : acc.toNat ≤ 65536 * high + 65534) :
    (foldTurn acc).toNat ≤ high + 65534 := by
  rw [toNat_foldTurn]
  omega

/-- A turn does not change what the carries fold to. -/
theorem foldCarries_foldTurn (acc : UInt64) : foldCarries (foldTurn acc) = foldCarries acc := by
  rw [← UInt64.toNat_inj, toNat_foldCarries, toNat_foldCarries, toNat_foldTurn, residue_carry]

/-- Each turn takes sixteen bits off what stands above the low ones. -/
theorem foldLoop_eq {turns : Nat} (h : acc.toNat ≤ 65536 ^ turns + 65534) :
    foldLoop turns acc = some (foldCarries acc) := by
  have hsmall {acc : UInt64} (hlt : acc < 65536) : foldCarries acc = acc := by
    rw [foldCarries, if_pos hlt]
  induction turns generalizing acc with
  | zero =>
    have hlt : acc < 65536 := by
      simp only [UInt64.lt_iff_toNat_lt, UInt64.reduceToNat]
      omega
    rw [foldLoop, if_pos ((shiftRight_eq_zero_iff acc).mpr hlt), hsmall hlt]
  | succ turns ih =>
    by_cases hlt : acc < 65536
    · rw [foldLoop, if_pos ((shiftRight_eq_zero_iff acc).mpr hlt), hsmall hlt]
    · have hbelow : acc.toNat ≤ 65536 * 65536 ^ turns + 65534 := by
        rw [Nat.mul_comm, ← Nat.pow_succ]
        exact h
      rw [foldLoop, if_neg (mt (shiftRight_eq_zero_iff acc).mp hlt), ih (toNat_foldTurn_le hbelow),
        foldCarries_foldTurn]

/-! ## Residues by congruence -/

/-- The residue of zero is zero, and that of any other number is the one from 1 to 65535 that is
congruent to it. -/
theorem eq_residue_iff {n r : Nat} :
    r = residue n ↔ (n = 0 ∧ r = 0) ∨ (n ≠ 0 ∧ 1 ≤ r ∧ r ≤ 65535 ∧ r ≡ n [MOD 65535]) := by
  unfold residue Nat.ModEq
  split_ifs with hzero
  · simp [hzero]
  · simp only [hzero, false_and, false_or, ne_eq, not_false_eq_true, true_and]
    omega

/-! ## Sums in parts -/

/-- The sum of data with every addition checked: nothing comes of it when one of them overflows. -/
def checkedSum : (acc : UInt64) → (data : Bytes) → Option UInt64
  | acc, hi :: lo :: rest =>
    if acc.toNat + (256 * hi.toNat + lo.toNat) < UInt64.size then
      checkedSum (acc + UInt64.ofNat (256 * hi.toNat + lo.toNat)) rest
    else none
  | acc, [last] =>
    if acc.toNat + 256 * last.toNat < UInt64.size then
      some (acc + UInt64.ofNat (256 * last.toNat))
    else none
  | acc, [] => some acc

/-- No addition overflows if the whole sum does not. -/
theorem checkedSum_eq (h : acc.toNat + wordSum data < UInt64.size) :
    checkedSum acc data = some (sum acc data) := by
  fun_induction sum acc data with
  | case1 acc hi lo rest ih =>
    rw [wordSum_cons_cons] at h
    have hfits : acc.toNat + (256 * hi.toNat + lo.toNat) < UInt64.size := by omega
    rw [checkedSum, if_pos hfits]
    apply ih
    rw [toNat_add_ofNat hfits]
    omega
  | case2 acc last =>
    rw [wordSum_singleton] at h
    rw [checkedSum, if_pos h]
  | case3 acc => rfl

/-- A sum goes on where the sum of an even number of octets has ended. -/
theorem sum_append {front : Bytes} (h : 2 ∣ front.length) (acc : UInt64) (rest : Bytes) :
    sum acc (front ++ rest) = sum (sum acc front) rest := by
  fun_induction sum acc front with
  | case1 acc hi lo front ih =>
    have heven : 2 ∣ front.length := by
      rw [List.length_cons, List.length_cons] at h
      omega
    exact ih heven
  | case2 acc last =>
    rw [List.length_singleton] at h
    omega
  | case3 acc => rfl

/-! ## Checksums of sealed data -/

/-- Data verifies exactly if its checksum is zero. -/
theorem ofBytes_eq_zero_iff (h : data.length < 2 ^ 48) : ofBytes data = 0 ↔ Verifies data := by
  have hle := residue_le (wordSum data)
  rw [verifies_iff, ← UInt16.toNat_inj, ofBytes, toNat_finish, toNat_sum_zero h, UInt16.toNat_zero]
  omega

/-- The checksum of data makes it verify, in any place that was zero an even number of octets from the
front. -/
theorem verifies_overwrite {offset : Nat} (h : data.length < 2 ^ 48) (heven : 2 ∣ offset)
    (hinside : offset + 2 ≤ data.length) (hzero : data.slice offset 2 = [0, 0]) :
    Verifies (data.overwrite offset (Bytes.be16 (ofBytes data))) := by
  have hfront : (data.take offset).length = offset := List.length_take_of_le (by omega)
  have hsplit : data = data.take offset ++ (Bytes.be16 0 ++ data.drop (offset + 2)) := by
    have hfield : data.slice offset 2 = Bytes.be16 0 := hzero
    rw [← hfield, Bytes.slice, ← List.drop_drop, List.take_append_drop, List.take_append_drop]
  have hseals := seals_ofBytes h
  have hpatched : data.overwrite offset (Bytes.be16 (ofBytes data)) =
      data.take offset ++ (Bytes.be16 (ofBytes data) ++ data.drop (offset + 2)) := by
    rw [Bytes.overwrite, Bytes.length_be16, List.append_assoc]
  rw [hpatched]
  refine verifies_of_seals (by rw [hfront]; exact heven) ?_
  rw [← hsplit]
  exact hseals

/-- The checksum of data is that of its sum. The folding loop ends after four turns at most, and a
checksum is what the residue of the sum lacks to 65535. Data is summed in parts behind an even number of octets as it is in one, and nothing overflows
below 2^48 octets. Data with its checksum in a place that was zero, an even number of octets from the
front, has the checksum zero. -/
theorem checksum_laws :
    (∀ data : Bytes, ofBytes data = finish (sum 0 data)) ∧
      (∀ acc : UInt64, ((foldLoop 4 acc).map fun low => ~~~low.toUInt16) = some (finish acc)) ∧
      (∀ (acc : UInt64) (r : Nat), (finish acc).toNat + r = 0xffff ↔
        (acc = 0 ∧ r = 0) ∨ (acc ≠ 0 ∧ 1 ≤ r ∧ r ≤ 0xffff ∧ r ≡ acc.toNat [MOD 0xffff])) ∧
      (∀ a b : Bytes, 2 ∣ a.length → a.length + b.length < 2 ^ 48 →
        checkedSum 0 (a ++ b) = some (sum 0 (a ++ b)) ∧
          (checkedSum 0 a).bind (checkedSum · b) = some (sum (sum 0 a) b) ∧
          sum 0 (a ++ b) = sum (sum 0 a) b ∧
          (sum 0 (a ++ b)).toNat = wordSum a + wordSum b) ∧
      (∀ (data : Bytes) (offset : Nat), data.length < 2 ^ 48 → 2 ∣ offset →
        offset + 2 ≤ data.length → data.slice offset 2 = [0, 0] →
        ofBytes (data.overwrite offset (Bytes.be16 (ofBytes data))) = 0) := by
  refine ⟨fun _ => rfl, ?_, ?_, ?_, ?_⟩
  · intro acc
    have hbound := acc.toNat_lt
    rw [foldLoop_eq (by omega)]
    rfl
  · intro acc r
    have hle := residue_le acc.toNat
    have hzero : acc = 0 ↔ acc.toNat = 0 := UInt64.toNat_inj.symm
    have hcomplement : (finish acc).toNat + r = 0xffff ↔ r = residue acc.toNat := by
      rw [toNat_finish]
      omega
    rw [hcomplement, eq_residue_iff, Ne, Ne, hzero]
  · intro a b heven hlength
    have hboth : (a ++ b).length < 2 ^ 48 := by
      rw [List.length_append]
      exact hlength
    have hfirst : a.length < 2 ^ 48 := by omega
    -- the sum is less than the register holds, and so is that of the front
    have hwhole := wordSum_lt hboth
    have hfront := wordSum_lt hfirst
    have hsplit := wordSum_append heven b
    have hparts := sum_append heven 0 b
    refine ⟨checkedSum_eq (by rw [UInt64.toNat_zero, Nat.zero_add]; exact hwhole), ?_, hparts, ?_⟩
    · rw [checkedSum_eq (by rw [UInt64.toNat_zero, Nat.zero_add]; exact hfront), Option.bind_some]
      refine checkedSum_eq ?_
      rw [toNat_sum_zero hfirst, ← hsplit]
      exact hwhole
    · rw [toNat_sum_zero hboth, hsplit]
  · intro data offset hlength heven hinside hzero
    have hsame : (data.overwrite offset (Bytes.be16 (ofBytes data))).length = data.length :=
      Bytes.length_overwrite (by rw [Bytes.length_be16]; exact hinside)
    exact (ofBytes_eq_zero_iff (by rw [hsame]; exact hlength)).mpr
      (verifies_overwrite hlength heven hinside hzero)

/-- An odd number of octets with a place for the checksum inside. -/
def oddData : Bytes := [0x45, 0x00, 0x00, 0x00, 0xff, 0xab, 0xcd]

/-- The greatest sum has the other residue of zero, and nothing but zeros the other checksum. The odd
data has a checksum that is neither. -/
theorem checksum_laws_oddData :
    (finish 0xffffffffffffffff).toNat + 0xffff = 0xffff ∧
      (ofBytes oddData).toNat = 0xee52 ∧
      (2 ∣ (oddData.take 4).length ∧ (oddData.take 4).length + (oddData.drop 4).length < 2 ^ 48 ∧
        checkedSum 0 (oddData.take 4 ++ oddData.drop 4) =
          some (sum (sum 0 (oddData.take 4)) (oddData.drop 4))) ∧
      (oddData.length < 2 ^ 48 ∧ 2 ∣ 2 ∧ 2 + 2 ≤ oddData.length ∧ oddData.slice 2 2 = [0, 0] ∧
        ofBytes (oddData.overwrite 2 (Bytes.be16 (ofBytes oddData))) = 0) ∧
      ofBytes (Bytes.overwrite [0, 0] 0 (Bytes.be16 (ofBytes [0, 0]))) = 0 := by
  obtain ⟨hsum, -, hvalue, hparts, hpatched⟩ := checksum_laws
  have heven : 2 ∣ (oddData.take 4).length := by decide
  have hshort : (oddData.take 4).length + (oddData.drop 4).length < 2 ^ 48 := by decide
  obtain ⟨hchecked, -, hsplit, -⟩ := hparts (oddData.take 4) (oddData.drop 4) heven hshort
  rw [hsplit] at hchecked
  have hgreatest := (hvalue 0xffffffffffffffff 0xffff).mpr (.inr (by decide))
  -- the words add up to 0x211ab, which folds to 0x11ad
  have hodd := (hvalue (sum 0 oddData) 0x11ad).mpr (.inr (by decide))
  rw [← hsum] at hodd
  exact ⟨hgreatest, Nat.add_right_cancel hodd, ⟨heven, hshort, hchecked⟩,
    ⟨by decide, by decide, by decide, by decide,
      hpatched oddData 2 (by decide) (by decide) (by decide) (by decide)⟩,
    hpatched [0, 0] 0 (by decide) (by decide) (by decide) (by decide)⟩

end Vswitch.Checksum
