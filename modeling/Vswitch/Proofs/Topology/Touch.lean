import Mathlib
import Vswitch.Proofs.Topology.Expiry

/-!
# What a touch does to the life of a key

A touch that finds a key puts its end to the default duration from now on, wherever the end was before.
So it puts the end off as long as no more than the default duration is left, and otherwise it brings the
end nearer: a key that was stored for longer is then gone before it would have been. What is called in
between for other keys, purges included, makes no difference.

* `CacheCall.key?`, `Cache.Spares`: calls that are not about a key;
* `Cache.live?_run`: they leave alone what is live under it;
* `Cache.live?_touch`: what is live under a key that was touched;
* `Cache.Renews`, `Cache.touch_renews`: when a key is found, with a touch and without;
* `Cache.not_forall_outlasting`: that a touch may bring the end nearer.
-/

namespace Vswitch

/-- The key that a call is about; a purge is about none. -/
def CacheCall.key? : CacheCall → Option String
  | .put key _ | .putFor key _ _ | .get key | .touch key => some key
  | .purge => none

namespace Cache

variable {c : Cache} {now t : Time} {key : String} {entry : CacheEntry}
  {later : List (Time × CacheCall)}

/-! ## Calls about other keys -/

/-- Calls up to an instant, none of them about a key. -/
def Spares (later : List (Time × CacheCall)) (t : Time) (key : String) : Prop :=
  ∀ m ∈ later, m.1 ≤ t ∧ m.2.key? ≠ some key

instance (later : List (Time × CacheCall)) (t : Time) (key : String) :
    Decidable (Spares later t key) :=
  inferInstanceAs (Decidable (∀ m ∈ later, _))

theorem Distinct.touch (h : c.Distinct) (now : Time) (key : String) :
    (c.touch now key).2.Distinct := by
  cases hfound : (c.get now key).1 with
  | none =>
    rw [touch_of_none hfound]
    exact h.get now key
  | some value =>
    rw [touch_of_some hfound]
    exact (h.get now key).insert key _

/-- No call gives a key a second entry. -/
theorem Distinct.call (h : c.Distinct) (now : Time) (call : CacheCall) :
    (c.call now call).2.Distinct := by
  cases call with
  | put key value => exact h.insert key _
  | putFor key value ttl => exact h.insert key _
  | get key => exact h.get now key
  | touch key => exact h.touch now key
  | purge => exact h.purge now

theorem Distinct.run (h : c.Distinct) (calls : List (Time × CacheCall)) : (c.run calls).Distinct := by
  induction calls generalizing c with
  | nil => exact h
  | cons m rest ih => exact ih (h.call m.1 m.2)

/-- A touch concerns its own key alone. -/
theorem live?_touch_of_ne (c : Cache) (hle : now ≤ t) {other : String} (hother : key ≠ other) :
    (c.touch now other).2.live? t key = c.live? t key := by
  cases hfound : (c.get now other).1 with
  | none =>
    rw [touch_of_none hfound]
    exact live?_get c other hle key
  | some value =>
    rw [touch_of_some hfound, put, putFor, live?_insert, if_neg hother]
    exact live?_get c other hle key

/-- A call about another key leaves alone what is live from its time on. -/
theorem live?_call (h : c.Distinct) {call : CacheCall} (hle : now ≤ t)
    (hother : call.key? ≠ some key) : (c.call now call).2.live? t key = c.live? t key := by
  have hne {other : String} (hcall : call.key? = some other) : key ≠ other := by
    rintro rfl
    exact hother hcall
  cases call with
  | put other value => exact (live?_insert c other _ t key).trans (if_neg (hne rfl))
  | putFor other value ttl => exact (live?_insert c other _ t key).trans (if_neg (hne rfl))
  | get other => exact live?_get c other hle key
  | touch other => exact live?_touch_of_ne c hle (hne rfl)
  | purge => exact live?_purge h hle key

/-- So do any number of such calls. -/
theorem live?_run (h : c.Distinct) (hspares : Spares later t key) :
    (c.run later).live? t key = c.live? t key := by
  induction later generalizing c with
  | nil => rfl
  | cons m rest ih =>
    rcases List.forall_mem_cons.mp hspares with ⟨⟨hle, hother⟩, hrest⟩
    exact (ih (h.call m.1 m.2) hrest).trans (live?_call h hle hother)

/-! ## A touch -/

theorem live?_eq_some : c.live? t key = some entry ↔
    c.entry? key = some entry ∧ t < entry.expiresAt := by
  rw [live?, Option.filter_eq_some_iff, decide_eq_true_eq]

/-- What is alive is found. -/
theorem get_of_live? (hlive : c.live? now key = some entry) :
    (c.get now key).1 = some entry.value := by
  rw [get_fst, hlive]
  rfl

/-- A key that was touched lives for the default duration from then on. -/
theorem live?_touch (hlive : c.live? now key = some entry) (t : Time) :
    (c.touch now key).2.live? t key =
      if t < now + c.expiration then some ⟨entry.value, now + c.expiration⟩ else none := by
  rw [touch_of_some (get_of_live? hlive), put, putFor, live?_insert, if_pos rfl, expiration_get,
    Option.filter_some]
  simp only [decide_eq_true_eq]

/-- A key that was not touched lives until its end. -/
theorem live?_of_live? (hlive : c.live? now key = some entry) (t : Time) :
    c.live? t key = if t < entry.expiresAt then some entry else none := by
  rw [live?, (live?_eq_some.mp hlive).1, Option.filter_some]
  simp only [decide_eq_true_eq]

/-- What becomes of a live key, once with a touch at `now` and once without, when nothing is called for
it up to a look-up later. -/
structure Renews (c : Cache) (now : Time) (key : String) (entry : CacheEntry) : Prop where
  found : (c.touch now key).1 = some entry.value
  untouched : ∀ later t, Spares later t key →
    ((c.run later).get t key).1 = if t < entry.expiresAt then some entry.value else none
  touched : ∀ later t, Spares later t key →
    (((c.touch now key).2.run later).get t key).1 =
      if t < now + c.expiration then some entry.value else none
  /-- The touched key is found whenever the other is, exactly if no more was left of its life than the
  default duration. -/
  outlasts_iff : (∀ later t, now ≤ t → Spares later t key → ((c.run later).get t key).1.isSome →
      (((c.touch now key).2.run later).get t key).1.isSome) ↔ entry.expiresAt ≤ now + c.expiration

/-- A touch puts the end of a live key to the default duration from now on. It shortens the life of the
key exactly if more than that was left of it. -/
theorem touch_renews (h : c.Distinct) (hlive : c.live? now key = some entry) :
    c.Renews now key entry := by
  have huntouched (later : List (Time × CacheCall)) (t : Time) (hspares : Spares later t key) :
      ((c.run later).get t key).1 = if t < entry.expiresAt then some entry.value else none := by
    rw [get_fst, live?_run h hspares, live?_of_live? hlive, apply_ite (Option.map _)]
    rfl
  have htouched (later : List (Time × CacheCall)) (t : Time) (hspares : Spares later t key) :
      (((c.touch now key).2.run later).get t key).1 =
        if t < now + c.expiration then some entry.value else none := by
    rw [get_fst, live?_run (h.touch now key) hspares, live?_touch hlive, apply_ite (Option.map _)]
    rfl
  refine ⟨(touch_fst c now key).trans (get_of_live? hlive), huntouched, htouched, ?_⟩
  constructor
  · -- at the end that the touch sets, the key must not be there without the touch either
    intro houtlasts
    by_contra hlonger
    have hspares : Spares [] (now + c.expiration) key := List.forall_mem_nil _
    have hthere : ((c.run []).get (now + c.expiration) key).1.isSome = true := by
      rw [huntouched _ _ hspares, if_pos (Nat.lt_of_not_le hlonger)]
      rfl
    have hgone := houtlasts [] _ (Nat.le_add_right _ _) hspares hthere
    rw [htouched _ _ hspares, if_neg (Nat.lt_irrefl _)] at hgone
    cases hgone
  · intro hle later t _ hspares hthere
    have hearly : t < entry.expiresAt := by
      by_contra hend
      rw [huntouched _ _ hspares, if_neg hend] at hthere
      cases hthere
    rw [htouched _ _ hspares, if_pos (Nat.lt_of_lt_of_le hearly hle)]
    rfl

/-- A key is stored for longer than the default duration. -/
def longLived : Cache :=
  (empty (Time.ofSeconds 60)).run [(0, .putFor "conn" "r" (Time.ofSeconds 100))]

theorem touch_renews_longLived :
    longLived.Distinct ∧
      longLived.live? (Time.ofSeconds 1) "conn" = some ⟨"r", Time.ofSeconds 100⟩ ∧
      Spares [(Time.ofSeconds 65, .purge)] (Time.ofSeconds 70) "conn" ∧
      ((longLived.run [(Time.ofSeconds 65, .purge)]).get (Time.ofSeconds 70) "conn").1 = some "r" ∧
      (((longLived.touch (Time.ofSeconds 1) "conn").2.run [(Time.ofSeconds 65, .purge)]).get
        (Time.ofSeconds 70) "conn").1 = none := by
  have hempty : (empty (Time.ofSeconds 60)).Distinct := List.nodup_nil
  have hdistinct : longLived.Distinct := hempty.run _
  have hlive : longLived.live? (Time.ofSeconds 1) "conn" = some ⟨"r", Time.ofSeconds 100⟩ := rfl
  have hspares : Spares [(Time.ofSeconds 65, .purge)] (Time.ofSeconds 70) "conn" := by decide
  have hrenews := touch_renews hdistinct hlive
  exact ⟨hdistinct, hlive, hspares, hrenews.untouched _ _ hspares, hrenews.touched _ _ hspares⟩

/-- A touch may end the life of a key early: it is not true that whoever is found later without a touch
is found later with it. -/
theorem not_forall_outlasting :
    ¬ ∀ (expiration : Time) (calls : List (Time × CacheCall)) (now t : Time) (key : String),
      Forward calls now → now ≤ t →
      (((empty expiration).run calls).get now key).1.isSome →
      (((empty expiration).run calls).get t key).1.isSome →
      ((((empty expiration).run calls).touch now key).2.get t key).1.isSome := by
  intro houtlasts
  have hgone := houtlasts (Time.ofSeconds 60) [(0, .putFor "conn" "r" (Time.ofSeconds 100))]
    (Time.ofSeconds 1) (Time.ofSeconds 70) "conn" (by decide) (by decide) (by decide) (by decide)
  revert hgone
  decide

end Cache

end Vswitch
