import Mathlib
import Vswitch.Topology.Cache

/-!
# Laws of the expiring cache

A cache is judged by what is live in it. An entry is live until it expires, a look-up at some instant
changes nothing of what is live from then on, and storing under one key leaves all other keys alone.

* `Cache.LiveAt`: an entry is there and has not expired;
* `Cache.get_fst_isSome`, `Cache.liveAt_get`: a look-up finds what is live, and leaves it alone;
* `Cache.liveAt_putFor`: what is live once something was stored.
-/

namespace Vswitch.Cache

variable {c : Cache} {now t : Time} {key other : String}

/-! ## Entries -/

/-- Dropping all entries under one key drops only what that key finds. -/
theorem lookup_filter_ne (entries : List (String × CacheEntry)) (key other : String) :
    (entries.filter fun e => e.1 != key).lookup other =
      if other = key then none else entries.lookup other := by
  induction entries with
  | nil => exact (ite_self none).symm
  | cons e rest ih =>
    rcases e with ⟨own, entry⟩
    rw [List.filter_cons]
    by_cases hown : own = key
    · have hdropped : ¬ (own != key) = true := by simpa using hown
      rw [if_neg hdropped, ih, List.lookup_cons]
      by_cases hother : other = key
      · rw [if_pos hother, if_pos hother]
      · have hne : (other == own) = false := by rwa [hown, beq_eq_false_iff_ne]
        rw [if_neg hother, if_neg hother, hne]
    · have hkept : (own != key) = true := bne_iff_ne.mpr hown
      rw [if_pos hkept, List.lookup_cons, List.lookup_cons, ih]
      by_cases hfound : other = own
      · have hother : other ≠ key := by rwa [hfound]
        rw [if_neg hother]
        exact (if_neg hother).symm
      · rw [beq_eq_false_iff_ne.mpr hfound]

theorem lookup_erase (c : Cache) (key other : String) :
    Cache.entry? (c.erase key) other = if other = key then none else c.entry? other :=
  lookup_filter_ne c.entries key other

theorem lookup_insert (c : Cache) (key : String) (entry : CacheEntry) (other : String) :
    Cache.entry? (c.insert key entry) other = if other = key then some entry else c.entry? other := by
  show List.lookup other ((key, entry) :: (c.erase key).entries) = _
  have herase := lookup_erase c key other
  rw [List.lookup_cons]
  by_cases hother : other = key
  · rw [if_pos hother, beq_iff_eq.mpr hother]
  · rw [if_neg hother] at herase ⊢
    rw [beq_eq_false_iff_ne.mpr hother]
    exact herase

/-! ## What is live -/

/-- An entry is there and has not expired at an instant. -/
def LiveAt (c : Cache) (t : Time) (key : String) : Prop :=
  ∃ entry, c.entry? key = some entry ∧ t < entry.expiresAt

/-- Nothing is alive in an empty cache. -/
theorem not_liveAt_empty (expiration t : Time) (key : String) :
    ¬ (empty expiration).LiveAt t key := by
  rintro ⟨entry, hentry, -⟩
  contradiction

/-- What is live was live before, as long as nothing is stored. -/
theorem LiveAt.earlier (h : c.LiveAt t key) (hle : now ≤ t) : c.LiveAt now key := by
  obtain ⟨entry, hentry, hlive⟩ := h
  exact ⟨entry, hentry, Nat.lt_of_le_of_lt hle hlive⟩

/-- What is put is alive for its own time, and nothing else is touched. -/
theorem liveAt_putFor (c : Cache) (now t : Time) (key value : String) (ttl : Time)
    (other : String) : (c.putFor now key value ttl).LiveAt t other ↔
      if other = key then t < now + ttl else c.LiveAt t other := by
  unfold LiveAt putFor
  rw [lookup_insert]
  by_cases hother : other = key
  · rw [if_pos hother, if_pos hother]
    constructor
    · rintro ⟨entry, hentry, hlive⟩
      cases hentry
      exact hlive
    · intro hlive
      exact ⟨_, rfl, hlive⟩
  · rw [if_neg hother, if_neg hother]

/-- A look-up finds exactly what is live. -/
theorem get_fst_isSome (c : Cache) (now : Time) (key : String) :
    (c.get now key).1.isSome = true ↔ c.LiveAt now key := by
  unfold get LiveAt
  cases hentry : c.entry? key with
  | none => simp
  | some entry =>
    by_cases hlive : now < entry.expiresAt
    · simp [hlive]
    · simp [hlive]

/-- From its own time on, a look-up leaves alone what is live: it drops nothing but what has expired. -/
theorem liveAt_get (c : Cache) (key : String) (hle : now ≤ t) (other : String) :
    (c.get now key).2.LiveAt t other ↔ c.LiveAt t other := by
  unfold get
  cases hentry : c.entry? key with
  | none => exact Iff.rfl
  | some entry =>
    by_cases hlive : now < entry.expiresAt
    · simp only [if_pos hlive]
    · simp only [if_neg hlive]
      unfold LiveAt
      rw [lookup_erase]
      by_cases hother : other = key
      · rw [if_pos hother, hother, hentry]
        constructor
        · rintro ⟨_, hnone, -⟩
          contradiction
        · rintro ⟨found, hfound, hlater⟩
          cases hfound
          exact absurd (Nat.lt_of_le_of_lt hle hlater) hlive
      · rw [if_neg hother]

end Vswitch.Cache
