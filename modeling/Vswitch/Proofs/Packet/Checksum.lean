import Mathlib
import Vswitch.Packet.Checksum
import Vswitch.Proofs.Bytes

/-!
# One's complement sums

A sender adds words in a wide register, folds the carries back in at the end and complements. A
receiver adds word by word, each carry at once, and looks for all ones. Both know of a sum no more
than its residue: zero for zero, else the number from 1 to 65535 that is congruent to it modulo 65535.

* `Checksum.words`, `Checksum.wordSum`: the words of data and their sum as a number;
* `Checksum.residue`: what is left of a sum;
* `Checksum.onesSum`, `Checksum.Verifies`: the sum of a receiver, and what it has to be;
* `Checksum.toNat_finish`, `Checksum.toNat_onesSum`: what both sides compute;
* `Checksum.Seals`: the words that complete a sum to all ones.
-/

namespace Vswitch

namespace Checksum

/-! ## Words -/

/-- The words of data in network order, with a zero after an odd last octet. -/
def words : Bytes → List UInt16
  | hi :: lo :: rest => UInt16.ofNat (256 * hi.toNat + lo.toNat) :: words rest
  | [last] => [UInt16.ofNat (256 * last.toNat)]
  | [] => []

/-- The sum of the words of data. -/
def wordSum (data : Bytes) : Nat := ((words data).map UInt16.toNat).sum

@[simp] theorem wordSum_nil : wordSum [] = 0 := rfl

/-- A last odd octet is the high half of a word. -/
theorem wordSum_singleton (last : UInt8) : wordSum [last] = 256 * last.toNat := by
  have hlast := last.toNat_lt
  simp only [wordSum, words, List.map_cons, List.map_nil, List.sum_cons, List.sum_nil,
    UInt16.toNat_ofNat']
  omega

/-- Two octets are a word. -/
theorem wordSum_cons_cons (hi lo : UInt8) (rest : Bytes) :
    wordSum (hi :: lo :: rest) = 256 * hi.toNat + lo.toNat + wordSum rest := by
  have hhi := hi.toNat_lt
  have hlo := lo.toNat_lt
  simp only [wordSum, words, List.map_cons, List.sum_cons, UInt16.toNat_ofNat']
  omega

/-- Data behind an even number of octets keeps its words. -/
theorem wordSum_append {front : Bytes} (h : 2 ∣ front.length) (rest : Bytes) :
    wordSum (front ++ rest) = wordSum front + wordSum rest := by
  fun_induction words front with
  | case1 hi lo front ih =>
    have heven : 2 ∣ front.length := by
      rw [List.length_cons, List.length_cons] at h
      omega
    rw [List.cons_append, List.cons_append, wordSum_cons_cons, wordSum_cons_cons, ih heven]
    omega
  | case2 last =>
    rw [List.length_singleton] at h
    omega
  | case3 => rw [List.nil_append, wordSum_nil, Nat.zero_add]

/-- The octets of a word sum up to it. -/
theorem wordSum_be16 (w : UInt16) : wordSum (Bytes.be16 w) = w.toNat := by
  have hw := w.toNat_lt
  have hspelt : Bytes.be16 w = [UInt8.ofNat (w.toNat / 256), UInt8.ofNat w.toNat] := rfl
  rw [hspelt, wordSum_cons_cons, wordSum_nil, UInt8.toNat_ofNat', UInt8.toNat_ofNat']
  omega

/-- Every two octets add less than 65536. -/
theorem wordSum_le (data : Bytes) : 2 * wordSum data ≤ 65535 * (data.length + 1) := by
  fun_induction words data with
  | case1 hi lo rest ih =>
    have hhi := hi.toNat_lt
    have hlo := lo.toNat_lt
    rw [wordSum_cons_cons, List.length_cons, List.length_cons]
    omega
  | case2 last =>
    have hlast := last.toNat_lt
    rw [wordSum_singleton, List.length_singleton]
    omega
  | case3 => simp

/-! ## Residues -/

/-- What a one's complement sum keeps of a number. -/
def residue (n : Nat) : Nat := if n = 0 then 0 else (n - 1) % 65535 + 1

/-- A residue is a word. -/
theorem residue_le (n : Nat) : residue n ≤ 65535 := by
  unfold residue
  split_ifs <;> omega

/-- A word is its own residue. -/
theorem residue_of_le {n : Nat} (h : n ≤ 65535) : residue n = n := by
  unfold residue
  split_ifs <;> omega

/-- Residues may be taken on the way. -/
theorem residue_add_residue (m n : Nat) : residue (residue m + n) = residue (m + n) := by
  unfold residue
  split_ifs <;> omega

/-- A carry counts as one. -/
theorem residue_carry (n : Nat) : residue (n % 65536 + n / 65536) = residue n := by
  unfold residue
  split_ifs <;> omega

theorem residue_succ (n : Nat) : residue (n + 1) = n % 65535 + 1 := rfl

/-- The complement of a residue fills the sum up to all ones. -/
theorem residue_add_complement (n : Nat) : residue (n + (65535 - residue n)) = 65535 := by
  cases n with
  | zero => rfl
  | succ n =>
    have hlt := Nat.mod_lt n (show 0 < 65535 by decide)
    have hdiv := Nat.div_add_mod n 65535
    -- the complement brings the number up to the next multiple of 65535
    have hnext : n + 1 + (65535 - (n % 65535 + 1)) = 65535 * (n / 65535) + 65534 + 1 := by omega
    rw [residue_succ, hnext, residue_succ, Nat.mul_add_mod]

/-- All ones count as zero, unless nothing was added up. -/
theorem residue_add_allOnes {n : Nat} (h : residue n = 65535) : residue (n + 65535) = 65535 := by
  cases n with
  | zero => cases h
  | succ n =>
    rw [residue_succ] at h
    have hshift : n + 1 + 65535 = n + 65535 + 1 := by omega
    rw [hshift, residue_succ, Nat.add_mod_right, h]

/-! ## The sender -/

/-- The register adds without loss as long as there is room. -/
theorem toNat_add_ofNat {acc : UInt64} {n : Nat} (h : acc.toNat + n < UInt64.size) :
    (acc + UInt64.ofNat n).toNat = acc.toNat + n := by
  rw [UInt64.toNat_add, UInt64.toNat_ofNat']
  simp only [UInt64.size] at h
  omega

/-- The wide register does not overflow on data of any length that a packet can have. -/
theorem toNat_sum {acc : UInt64} {data : Bytes} (h : acc.toNat + wordSum data < UInt64.size) :
    (sum acc data).toNat = acc.toNat + wordSum data := by
  fun_induction sum acc data with
  | case1 acc hi lo rest ih =>
    rw [wordSum_cons_cons] at h ⊢
    have hfits : acc.toNat + (256 * hi.toNat + lo.toNat) < UInt64.size := by omega
    have hword := toNat_add_ofNat hfits
    rw [ih (by rw [hword]; omega), hword]
    omega
  | case2 acc last =>
    rw [wordSum_singleton] at h ⊢
    exact toNat_add_ofNat h
  | case3 acc => rfl

/-- Adding the carries back yields the residue. -/
theorem toNat_foldCarries (acc : UInt64) : (foldCarries acc).toNat = residue acc.toNat := by
  fun_induction foldCarries acc with
  | case1 acc hsmall =>
    have hle : acc.toNat < 65536 := hsmall
    rw [residue_of_le (Nat.le_of_lt_succ hle)]
  | case2 acc hlarge ih =>
    have hbound := acc.toNat_lt
    have hfolded : (acc % 65536 + acc / 65536).toNat = acc.toNat % 65536 + acc.toNat / 65536 := by
      rw [UInt64.toNat_add, UInt64.toNat_mod, UInt64.toNat_div]
      simp only [UInt64.reduceToNat]
      omega
    rw [ih, hfolded, residue_carry]

/-- The checksum of a sum is the complement of its residue. -/
theorem toNat_finish (acc : UInt64) : (finish acc).toNat = 65535 - residue acc.toNat := by
  have hfold := toNat_foldCarries acc
  have hle := residue_le acc.toNat
  rw [finish, UInt16.toNat_not, UInt64.toNat_toUInt16, hfold]
  show 65536 - 1 - residue acc.toNat % 65536 = _
  omega

/-! ## The receiver -/

/-- One's complement addition of two words: a carry out of the top is added at the bottom. -/
def onesAdd (v w : UInt16) : UInt16 := if v.toNat + w.toNat < 65536 then v + w else v + w + 1

/-- The one's complement sum of data. -/
def onesSum (data : Bytes) : UInt16 := (words data).foldl onesAdd 0

/-- What a receiver demands of the data that a checksum covers, the checksum among them. -/
def Verifies (data : Bytes) : Prop := onesSum data = 0xffff

instance (data : Bytes) : Decidable (Verifies data) := inferInstanceAs (Decidable (_ = _))

/-- Addition in ones' complement is addition of residues. -/
theorem toNat_onesAdd (v w : UInt16) : (onesAdd v w).toNat = residue (v.toNat + w.toNat) := by
  have hv := v.toNat_lt
  have hw := w.toNat_lt
  unfold onesAdd residue
  split_ifs
  all_goals simp only [UInt16.toNat_add, UInt16.toNat_one]
  all_goals omega

/-- And so for any number of words. -/
theorem toNat_foldl_onesAdd (ws : List UInt16) (v : UInt16) :
    (ws.foldl onesAdd v).toNat = residue (v.toNat + (ws.map UInt16.toNat).sum) := by
  induction ws generalizing v with
  | nil =>
    rw [List.foldl_nil, List.map_nil, List.sum_nil, Nat.add_zero,
      residue_of_le (Nat.le_of_lt_succ v.toNat_lt)]
  | cons w ws ih =>
    rw [List.foldl_cons, ih, toNat_onesAdd, residue_add_residue, List.map_cons, List.sum_cons,
      Nat.add_assoc]

/-- The sum in ones' complement is the residue of the sum. -/
theorem toNat_onesSum (data : Bytes) : (onesSum data).toNat = residue (wordSum data) := by
  rw [onesSum, toNat_foldl_onesAdd, UInt16.toNat_zero, Nat.zero_add, wordSum]

/-- Data verifies just if its residue is all ones. -/
theorem verifies_iff {data : Bytes} : Verifies data ↔ residue (wordSum data) = 65535 := by
  rw [Verifies, ← UInt16.toNat_inj, toNat_onesSum]
  rfl

/-! ## Checksums in their place -/

/-- A word completes a sum to all ones. -/
def Seals (n : Nat) (w : UInt16) : Prop := residue (n + w.toNat) = 65535

/-- The finished checksum seals the sum it is the complement of. -/
theorem seals_finish (acc : UInt64) : Seals acc.toNat (finish acc) := by
  rw [Seals, toNat_finish, residue_add_complement]

/-- Where zero would seal a sum, all ones seal it as well, unless nothing was added up. -/
theorem seals_allOnes {n : Nat} (h : Seals n 0) : Seals n 0xffff := by
  rw [Seals, UInt16.toNat_zero, Nat.add_zero] at h
  exact residue_add_allOnes h

/-- Data verifies once a word that seals its sum stands in its place, an even number of octets from
the front. -/
theorem verifies_of_seals {front rest : Bytes} {w : UInt16} (heven : 2 ∣ front.length)
    (h : Seals (wordSum (front ++ (Bytes.be16 0 ++ rest))) w) :
    Verifies (front ++ (Bytes.be16 w ++ rest)) := by
  have hword (v : UInt16) : wordSum (front ++ (Bytes.be16 v ++ rest)) =
      wordSum front + (v.toNat + wordSum rest) := by
    rw [wordSum_append heven, wordSum_append (by rw [Bytes.length_be16]), wordSum_be16]
  rw [verifies_iff, hword]
  rw [Seals, hword, UInt16.toNat_zero] at h
  rw [← h]
  congr 1
  omega

/-- The wide register holds the sum of far more data than a packet can have. -/
theorem wordSum_lt {data : Bytes} (h : data.length < 2 ^ 48) : wordSum data < UInt64.size := by
  have hle := wordSum_le data
  rw [UInt64.size]
  omega

/-- The register holds the sum itself. -/
theorem toNat_sum_zero {data : Bytes} (h : data.length < 2 ^ 48) : (sum 0 data).toNat = wordSum data := by
  have hfits : (0 : UInt64).toNat + wordSum data < UInt64.size := by
    rw [UInt64.toNat_zero, Nat.zero_add]
    exact wordSum_lt h
  rw [toNat_sum hfits, UInt64.toNat_zero, Nat.zero_add]

/-- The checksum of data seals it. -/
theorem seals_ofBytes {data : Bytes} (h : data.length < 2 ^ 48) :
    Seals (wordSum data) (ofBytes data) := by
  rw [← toNat_sum_zero h]
  exact seals_finish _

end Checksum

/-! ## Pseudo-headers -/

namespace PseudoHeader

/-- The pseudo-header as it is added up: the addresses, a zero, the protocol and the transport
length. -/
def octets (p : PseudoHeader) (protocol : UInt8) (length : UInt16) : Bytes :=
  p.source.octets ++ (p.destination.octets ++ ([0, protocol] ++ Bytes.be16 length))

/-- All that the checksum of a segment covers. -/
def covered (p : PseudoHeader) (protocol : UInt8) (segment : Bytes) : Bytes :=
  p.octets protocol (UInt16.ofNat segment.length) ++ segment

theorem length_octets (p : PseudoHeader) (protocol : UInt8) (length : UInt16) :
    (p.octets protocol length).length = 12 := by
  simp [octets]

/-- The sum that a segment starts from is the sum of the pseudo-header. -/
theorem toNat_sum (p : PseudoHeader) (protocol : UInt8) (length : UInt16) :
    (p.sum protocol length).toNat = Checksum.wordSum (p.octets protocol length) := by
  have hprotocol := protocol.toNat_lt
  have hlength := length.toNat_lt
  have hsource := Checksum.wordSum_le p.source.octets
  have hdestination := Checksum.wordSum_le p.destination.octets
  rw [Ipv4Addr.length_octets] at hsource hdestination
  have haddress (ip : Ipv4Addr) : 2 ∣ ip.octets.length := by
    rw [Ipv4Addr.length_octets]
    decide
  have hfirst : (Checksum.sum 0 p.source.octets).toNat = Checksum.wordSum p.source.octets := by
    rw [Checksum.toNat_sum (by rw [UInt64.toNat_zero, UInt64.size]; omega), UInt64.toNat_zero,
      Nat.zero_add]
  have hboth : (Checksum.sum (Checksum.sum 0 p.source.octets) p.destination.octets).toNat =
      Checksum.wordSum p.source.octets + Checksum.wordSum p.destination.octets := by
    rw [Checksum.toNat_sum (by rw [hfirst, UInt64.size]; omega), hfirst]
  have hlast : Checksum.wordSum ([0, protocol] ++ Bytes.be16 length) =
      protocol.toNat + length.toNat := by
    rw [Checksum.wordSum_append ⟨1, rfl⟩, Checksum.wordSum_be16, Checksum.wordSum_cons_cons]
    simp
  rw [octets, Checksum.wordSum_append (haddress _), Checksum.wordSum_append (haddress _), hlast,
    sum, UInt64.toNat_add, UInt64.toNat_add, hboth, UInt64.toNat_ofNat', UInt64.toNat_ofNat']
  omega

/-- The checksum of a segment seals what it covers. -/
theorem seals_finish (p : PseudoHeader) (protocol : UInt8) {segment : Bytes}
    (h : segment.length ≤ 65535) :
    Checksum.Seals (Checksum.wordSum (p.covered protocol segment))
      (Checksum.finish
        (Checksum.sum (p.sum protocol (UInt16.ofNat segment.length)) segment)) := by
  have hpseudo := p.toNat_sum protocol (UInt16.ofNat segment.length)
  have hlength := p.length_octets protocol (UInt16.ofNat segment.length)
  have hle := Checksum.wordSum_le segment
  have hle' := Checksum.wordSum_le (p.octets protocol (UInt16.ofNat segment.length))
  rw [hlength] at hle'
  have hsum : (Checksum.sum (p.sum protocol (UInt16.ofNat segment.length)) segment).toNat =
      Checksum.wordSum (p.covered protocol segment) := by
    rw [Checksum.toNat_sum (by rw [hpseudo, UInt64.size]; omega), hpseudo, covered,
      Checksum.wordSum_append (by rw [hlength]; decide)]
  rw [← hsum]
  exact Checksum.seals_finish _

end PseudoHeader

end Vswitch
