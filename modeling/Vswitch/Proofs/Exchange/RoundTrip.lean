import Mathlib
import Vswitch.Exchange.Tally

/-!
# The average round trip

The average is taken anew from the average so far, which was rounded down, and so what one division
drops is missing from all later averages. The division by `n` drops `n - 1` at most, and these remainders
add up. The average is the mean less an `n`-th of them, and so it is within a microsecond of the mean
only as long as they come to less than `n`. It does not recover from that: after `n` round trips, one that
is not more than `n` above the average does not raise it, and every one below the average lowers it.

* `RoundTrip.Fits`: what has to fit in 64 bits; products then do as well (`Tally.Averages.below`);
* `RoundTrip.roundedOff`: what all divisions drop;
* `Tally.Averages`, `Tally.Averages.record`: what one round trip does to the average;
* `RoundTrip.average_append_le`, `RoundTrip.average_concat_lt`: an average that does not rise, and one
  that falls;
* `RoundTrip.average_immediate_append`: how far it falls behind;
* `RoundTrip.mean_sub_average`: the average and the mean, for every sequence of round trips;
* `RoundTrip.not_within_one`: they may be more than a microsecond apart.
-/

namespace Vswitch

/-- What the division drops when a round trip is taken into the average. -/
def Tally.remainder (t : Tally) (trip : UInt64) : Nat :=
  (trip.toNat + t.samples.toNat * t.roundTrip.toNat) % (t.samples.toNat + 1)

namespace RoundTrip

/-- The counters after a sequence of round trips, in microseconds. -/
def recorded (trips : List UInt64) : Tally := trips.foldl Tally.recordRoundTrip Tally.zero

/-- The average that is reported after a sequence of round trips. -/
def average (trips : List UInt64) : Nat := (recorded trips).roundTrip.toNat

/-- How long the round trips take together. -/
def total (trips : List UInt64) : Nat := (trips.map UInt64.toNat).sum

/-- The exact mean of the round trips. -/
def mean (trips : List UInt64) : ℚ := total trips / trips.length

/-- The number of the round trips and their sum fit in 64 bits. -/
def Fits (trips : List UInt64) : Prop := trips.length < UInt64.size ∧ total trips < UInt64.size

instance : DecidablePred Fits := fun trips =>
  inferInstanceAs (Decidable (trips.length < UInt64.size ∧ total trips < UInt64.size))

/-- What the divisions drop when round trips are taken into the average of `t`, one after another. -/
def roundedOffFrom : Tally → List UInt64 → Nat
  | _, [] => 0
  | t, trip :: rest => t.remainder trip + roundedOffFrom (t.recordRoundTrip trip) rest

/-- What all divisions drop. -/
def roundedOff (trips : List UInt64) : Nat := roundedOffFrom Tally.zero trips

variable {trips : List UInt64} {trip : UInt64}

theorem roundedOffFrom_concat (t : Tally) (trips : List UInt64) (trip : UInt64) :
    roundedOffFrom t (trips ++ [trip]) =
      roundedOffFrom t trips + (trips.foldl Tally.recordRoundTrip t).remainder trip := by
  induction trips generalizing t with
  | nil => exact Nat.add_comm _ _
  | cons first rest ih =>
    rw [List.cons_append, roundedOffFrom, ih, roundedOffFrom, List.foldl_cons, Nat.add_assoc]

/-- One more division drops one more remainder. -/
theorem roundedOff_concat :
    roundedOff (trips ++ [trip]) = roundedOff trips + (recorded trips).remainder trip :=
  roundedOffFrom_concat Tally.zero trips trip

theorem recorded_concat :
    recorded (trips ++ [trip]) = (recorded trips).recordRoundTrip trip := by
  rw [recorded, List.foldl_append]
  rfl

theorem total_concat : total (trips ++ [trip]) = total trips + trip.toNat := by
  simp [total]

theorem Fits.of_concat (h : Fits (trips ++ [trip])) : Fits trips := by
  have hcount := h.1
  have hsum := h.2
  rw [List.length_append, List.length_singleton] at hcount
  rw [total_concat] at hsum
  constructor <;> omega

theorem Fits.of_append {later : List UInt64} (h : Fits (trips ++ later)) : Fits trips := by
  induction later using List.reverseRecOn with
  | nil => rwa [List.append_nil] at h
  | append_singleton later trip ih =>
    rw [← List.append_assoc] at h
    exact ih h.of_concat

end RoundTrip

namespace Tally

open RoundTrip

variable {t : Tally} {trips : List UInt64} {trip : UInt64}

/-- Without overflow the average is the quotient of naturals, rounded down. -/
theorem toNat_recordRoundTrip (trip : UInt64) (hcount : t.samples.toNat + 1 < UInt64.size)
    (hsum : trip.toNat + t.samples.toNat * t.roundTrip.toNat < UInt64.size) :
    (t.recordRoundTrip trip).samples.toNat = t.samples.toNat + 1 ∧
      (t.recordRoundTrip trip).roundTrip.toNat =
        (trip.toNat + t.samples.toNat * t.roundTrip.toNat) / (t.samples.toNat + 1) := by
  have hnext : (t.samples + 1).toNat = t.samples.toNat + 1 := by
    rw [UInt64.toNat_add, UInt64.toNat_one]
    exact Nat.mod_eq_of_lt hcount
  have hproduct : (t.samples * t.roundTrip).toNat = t.samples.toNat * t.roundTrip.toNat := by
    rw [UInt64.toNat_mul]
    exact Nat.mod_eq_of_lt ((Nat.le_add_left _ _).trans_lt hsum)
  have hdividend : (trip + t.samples * t.roundTrip).toNat =
      trip.toNat + t.samples.toNat * t.roundTrip.toNat := by
    rw [UInt64.toNat_add, hproduct]
    exact Nat.mod_eq_of_lt hsum
  have hdivisor : max (t.samples + 1) 1 = t.samples + 1 := by
    show (if t.samples + 1 ≤ 1 then 1 else t.samples + 1) = t.samples + 1
    split_ifs with hfirst
    · rw [UInt64.le_iff_toNat_le, hnext, UInt64.toNat_one] at hfirst
      apply UInt64.toNat_inj.mp
      rw [hnext, UInt64.toNat_one]
      omega
    · rfl
  constructor
  · exact hnext
  · rw [recordRoundTrip, hdivisor, UInt64.toNat_div, hdividend, hnext]

/-- The average of `t` stands for the round trips: it makes up their total with what the divisions
dropped. -/
structure Averages (t : Tally) (trips : List UInt64) (lost : Nat) : Prop where
  count : t.samples.toNat = trips.length
  exact : trips.length * t.roundTrip.toNat + lost = total trips

namespace Averages

variable {lost : Nat}

/-- The average never makes up for more than the total. -/
theorem below (h : Averages t trips lost) : trips.length * t.roundTrip.toNat ≤ total trips :=
  h.exact ▸ Nat.le_add_right _ _

/-- The next average is a quotient of what fits. -/
theorem next (h : Averages t trips lost) (hfits : Fits (trips ++ [trip])) :
    (t.recordRoundTrip trip).samples.toNat = trips.length + 1 ∧
      (t.recordRoundTrip trip).roundTrip.toNat =
        (trip.toNat + trips.length * t.roundTrip.toNat) / (trips.length + 1) := by
  have hcount := hfits.1
  have hsum := hfits.2
  rw [List.length_append, List.length_singleton] at hcount
  rw [total_concat] at hsum
  have hbelow := h.below
  rw [← h.count] at hcount hbelow ⊢
  exact toNat_recordRoundTrip trip hcount (by omega)

/-- One more division drops its own remainder. -/
theorem record (h : Averages t trips lost) (hfits : Fits (trips ++ [trip])) :
    Averages (t.recordRoundTrip trip) (trips ++ [trip]) (lost + t.remainder trip) := by
  obtain ⟨hsamples, haverage⟩ := h.next hfits
  -- the dividend is the divisor times the average, and the remainder
  have hdivision := Nat.div_add_mod (trip.toNat + trips.length * t.roundTrip.toNat) (trips.length + 1)
  have hexact := h.exact
  constructor
  · rw [hsamples, List.length_append, List.length_singleton]
  · rw [total_concat, List.length_append, List.length_singleton, remainder, h.count, haverage]
    omega

end Averages

theorem averages_recorded (h : Fits trips) : Averages (recorded trips) trips (roundedOff trips) := by
  induction trips using List.reverseRecOn with
  | nil => exact ⟨rfl, rfl⟩
  | append_singleton trips trip ih =>
    -- sums only grow, so that what fits in the end has always fitted
    rw [recorded_concat, roundedOff_concat]
    exact (ih h.of_concat).record h

end Tally

namespace RoundTrip

variable {trips later : List UInt64} {trip : UInt64} {n : Nat}

/-! ## An average that does not recover -/

/-- The average after one more round trip. -/
theorem average_concat (hfits : Fits (trips ++ [trip])) :
    average (trips ++ [trip]) = (trip.toNat + trips.length * average trips) / (trips.length + 1) := by
  rw [average, recorded_concat]
  exact ((Tally.averages_recorded hfits.of_concat).next hfits).2

/-- After `n` round trips, no sequence of others that are at most `n` above the average raises it. -/
theorem average_append_le (hfits : Fits (trips ++ later))
    (hnear : ∀ trip ∈ later, trip.toNat ≤ average trips + trips.length) :
    average (trips ++ later) ≤ average trips := by
  induction later using List.reverseRecOn with
  | nil => rw [List.append_nil]
  | append_singleton later trip ih =>
    rw [← List.append_assoc] at hfits ⊢
    have hle := ih hfits.of_concat fun s hs => hnear s (List.mem_append_left _ hs)
    have htrip := hnear trip (List.mem_append_right _ List.mem_cons_self)
    have hproduct := Nat.mul_le_mul_left (trips ++ later).length hle
    have hlength : trips.length ≤ (trips ++ later).length := by simp
    rw [average_concat hfits, ← Nat.lt_succ_iff, Nat.div_lt_iff_lt_mul (Nat.succ_pos _),
      Nat.mul_succ, Nat.succ_mul, Nat.mul_comm (average trips)]
    omega

/-- A round trip below the average lowers it. -/
theorem average_concat_lt (hfits : Fits (trips ++ [trip])) (hbelow : trip.toNat < average trips) :
    average (trips ++ [trip]) < average trips := by
  rw [average_concat hfits, Nat.div_lt_iff_lt_mul (Nat.succ_pos _), Nat.mul_succ,
    Nat.mul_comm (average trips)]
  omega

/-- The average of round trips that all take the same time. -/
theorem average_replicate (hfits : Fits (List.replicate (n + 1) trip)) :
    average (List.replicate (n + 1) trip) = trip.toNat := by
  induction n with
  | zero =>
    have hone : average ([] ++ [trip]) = _ := average_concat hfits
    rw [List.length_nil, Nat.zero_mul, Nat.add_zero, Nat.div_one] at hone
    exact hone
  | succ n ih =>
    rw [List.replicate_succ'] at hfits ⊢
    rw [average_concat hfits, ih hfits.of_concat, List.length_replicate]
    exact Nat.div_eq_of_eq_mul_right (Nat.succ_pos _) (by ring)

/-- However many round trips follow that take up to `n + 1` microseconds longer than the first
`n + 1`, the average stays where it is. -/
theorem average_replicate_append_le (hfits : Fits (List.replicate (n + 1) trip ++ later))
    (hnear : ∀ s ∈ later, s.toNat ≤ trip.toNat + (n + 1)) :
    average (List.replicate (n + 1) trip ++ later) ≤ trip.toNat := by
  have haverage := average_replicate hfits.of_append
  have hle := average_append_le hfits
  rw [haverage, List.length_replicate] at hle
  exact hle hnear

/-- How far the average falls behind has no bound but what fits: as many round trips that take `n`
microseconds as there were immediate ones before leave it at zero, and the mean is half of `n`. -/
theorem average_immediate_append (hpos : 0 < n) (hfits : n * n < UInt64.size) :
    average (List.replicate n 0 ++ List.replicate n (UInt64.ofNat n)) = 0 ∧
      mean (List.replicate n 0 ++ List.replicate n (UInt64.ofNat n)) = n / 2 := by
  have hsmall : n < 2 ^ 32 := Nat.mul_self_lt_mul_self_iff.mp hfits
  have hn : (UInt64.ofNat n).toNat = n :=
    UInt64.toNat_ofNat_of_lt' (hsmall.trans (by decide))
  have htotal : total (List.replicate n 0 ++ List.replicate n (UInt64.ofNat n)) = n * n := by
    rw [total, List.map_append, List.map_replicate, List.map_replicate, List.sum_append,
      List.sum_replicate, List.sum_replicate, hn, UInt64.toNat_zero]
    simp
  have hlength : (List.replicate n (0 : UInt64) ++ List.replicate n (UInt64.ofNat n)).length =
      n + n := by
    rw [List.length_append, List.length_replicate, List.length_replicate]
  constructor
  · obtain ⟨k, rfl⟩ := Nat.exists_eq_succ_of_ne_zero hpos.ne'
    apply Nat.le_zero.mp
    refine average_replicate_append_le ⟨?_, ?_⟩ ?_
    · rw [hlength]
      exact (Nat.add_lt_add hsmall hsmall).trans (by decide)
    · rwa [htotal]
    · intro s hs
      rw [List.eq_of_mem_replicate hs, hn, UInt64.toNat_zero, Nat.zero_add]
  · rw [mean, htotal, hlength]
    push_cast
    field_simp
    ring

example : average [0, 0, 0, 0, 4, 4, 4, 4] = 0 := by decide

/-! ## The average and the mean -/

/-- The average is the mean less an `n`-th of what the divisions dropped, so it is within a microsecond
of the mean just as long as that is less than `n`. Round trips that are at most `n` above the average do
not raise it any more, and one below it lowers it. -/
theorem mean_sub_average (hsome : trips ≠ []) (hfits : Fits trips) :
    mean trips - average trips = roundedOff trips / trips.length ∧
      (|(average trips : ℚ) - mean trips| < 1 ↔ roundedOff trips < trips.length) ∧
      (∀ later, Fits (trips ++ later) →
        (∀ trip ∈ later, trip.toNat ≤ average trips + trips.length) →
          average (trips ++ later) ≤ average trips) ∧
      ∀ trip, Fits (trips ++ [trip]) → trip.toNat < average trips →
        average (trips ++ [trip]) < average trips := by
  have hexact := (Tally.averages_recorded hfits).exact
  have hpos : (0 : ℚ) < trips.length := by exact_mod_cast List.length_pos_iff.mpr hsome
  have hdifference : mean trips - average trips = roundedOff trips / trips.length := by
    rw [mean, ← hexact, eq_div_iff hpos.ne', sub_mul, div_mul_cancel₀ _ hpos.ne']
    push_cast
    rw [average]
    ring
  refine ⟨hdifference, ?_, fun later => average_append_le, fun trip => average_concat_lt⟩
  rw [abs_sub_comm, hdifference, abs_of_nonneg (by positivity), div_lt_one hpos]
  exact Nat.cast_lt

/-- Eight round trips of which only the third is not immediate. -/
def mostlyImmediate : List UInt64 := [0, 0, 1000, 0, 0, 0, 0, 0]

/-- The divisions drop 16, so the average is two microseconds below the mean, and round trips of up to
131 microseconds leave it there. -/
theorem mean_sub_average_mostlyImmediate :
    mostlyImmediate ≠ [] ∧ Fits mostlyImmediate ∧
      mean mostlyImmediate - average mostlyImmediate = 2 ∧
      ¬ |(average mostlyImmediate : ℚ) - mean mostlyImmediate| < 1 ∧
      average (mostlyImmediate ++ [131, 130]) ≤ 123 ∧ average (mostlyImmediate ++ [122]) < 123 := by
  have hsome : mostlyImmediate ≠ [] := by decide
  have hfits : Fits mostlyImmediate := by decide
  have haverage : average mostlyImmediate = 123 := by decide
  have hdropped : roundedOff mostlyImmediate = 16 := by decide
  have hlength : mostlyImmediate.length = 8 := rfl
  obtain ⟨hdifference, hwithin, hrise, hfall⟩ := mean_sub_average hsome hfits
  have hlonger : ∀ trip ∈ ([131, 130] : List UInt64), trip.toNat ≤ 123 + 8 := by simp
  have hkept := hrise [131, 130] (by decide) (by rw [haverage, hlength]; exact hlonger)
  have hlowered := hfall 122 (by decide) (by rw [haverage]; decide)
  rw [haverage] at hkept hlowered
  refine ⟨hsome, hfits, ?_, ?_, hkept, hlowered⟩
  · rw [hdifference, hdropped, hlength]
    norm_num
  · rw [hwithin, hdropped, hlength]
    decide

/-- The average need not be within a microsecond of the mean: here it is 123, and the mean is 125. -/
theorem not_within_one :
    ¬ ∀ trips : List UInt64, trips ≠ [] → Fits trips → |(average trips : ℚ) - mean trips| < 1 := by
  intro hwithin
  have haverage : average mostlyImmediate = 123 := by decide
  have hmean : mean mostlyImmediate = 125 := by
    have htotal : total mostlyImmediate = 1000 := by decide
    rw [mean, htotal]
    norm_num [mostlyImmediate]
  have hclose := hwithin mostlyImmediate (by decide) (by decide)
  rw [haverage, hmean] at hclose
  norm_num at hclose

end RoundTrip

end Vswitch
