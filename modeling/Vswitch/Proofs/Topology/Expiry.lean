import Mathlib
import Vswitch.Proofs.Topology.Cache

/-!
# A cache and the record of its calls

A cache answers as if it never dropped anything. What it has under a key is told by the calls that were made
of it: the value that was written last, until the instant to which the last write put its end, or a later
touch that found it. Dropping what has expired, on a look-up or by a purge, is not seen by anyone who asks
later; a purge leaves exactly what is live.

* `Cache.live?`: what a cache has that has not expired, which is all that an answer depends on;
* `Cache.lastWritten?`, `Cache.expiry?`, `Cache.HoldsAt`: what the record of the calls says of a key;
* `Cache.Recorded`: the cache has what the record says, kept by every call (`Cache.Recorded.call`);
* `Cache.lookUps_eq`: caches with the same record are told apart by no look-up;
* `Cache.answers_recorded`: any sequence of calls under a clock that does not go back.
-/

namespace Vswitch.Cache

variable {c c' : Cache} {now t expiration : Time} {key other value : String}

/-! ## Live entries -/

/-- The entry under a key, if it lasts beyond an instant. -/
def live? (c : Cache) (t : Time) (key : String) : Option CacheEntry :=
  Option.filter (fun entry => t < entry.expiresAt) <| c.entry? key

/-- An insert concerns its own key alone. -/
theorem live?_insert (c : Cache) (key : String) (entry : CacheEntry) (t : Time)
    (other : String) : (c.insert key entry).live? t other =
      if other = key then (some entry).filter (fun entry => t < entry.expiresAt)
      else c.live? t other := by
  rw [live?, lookup_insert, apply_ite (Option.filter _)]
  rfl

/-- A look-up answers by what is live. -/
theorem get_fst (c : Cache) (now : Time) (key : String) :
    (c.get now key).1 = (c.live? now key).map (·.value) := by
  unfold get live?
  cases hentry : c.entry? key with
  | none => rfl
  | some entry =>
    by_cases hlive : now < entry.expiresAt
    · simp only [if_pos hlive, Option.filter_some, decide_eq_true hlive, if_true, Option.map_some]
    · simp only [if_neg hlive, Option.filter_some, decide_eq_false hlive, Bool.false_eq_true,
        if_false, Option.map_none]

/-- What a look-up drops had expired. -/
theorem live?_get (c : Cache) (key : String) (hle : now ≤ t) (other : String) :
    (c.get now key).2.live? t other = c.live? t other := by
  unfold get
  cases hentry : c.entry? key with
  | none => rfl
  | some entry =>
    by_cases hlive : now < entry.expiresAt
    · simp only [if_pos hlive]
    · simp only [if_neg hlive]
      have hexpired : ¬ t < entry.expiresAt := fun hlater => hlive (Nat.lt_of_le_of_lt hle hlater)
      unfold live?
      rw [lookup_erase]
      by_cases hother : other = key
      · rw [if_pos hother, hother, hentry, Option.filter_some, decide_eq_false hexpired]
        rfl
      · rw [if_neg hother]

/-- A look-up does not change the default expiration. -/
theorem expiration_get (c : Cache) (now : Time) (key : String) :
    (c.get now key).2.expiration = c.expiration := by
  unfold get
  split
  · rfl
  · split <;> rfl

/-- A touch that finds nothing is a look-up. -/
theorem touch_of_none (h : (c.get now key).1 = none) : c.touch now key = c.get now key := by
  unfold touch
  generalize c.get now key = looked at h
  obtain ⟨found, c'⟩ := looked
  subst h
  rfl

/-- A touch that finds a value writes it again. -/
theorem touch_of_some (h : (c.get now key).1 = some value) :
    c.touch now key = (some value, (c.get now key).2.put now key value) := by
  unfold touch
  generalize c.get now key = looked at h
  obtain ⟨found, c'⟩ := looked
  subst h
  rfl

/-- A touch finds what a look-up finds. -/
theorem touch_fst (c : Cache) (now : Time) (key : String) :
    (c.touch now key).1 = (c.get now key).1 := by
  cases h : (c.get now key).1 with
  | none => rw [touch_of_none h, h]
  | some value => rw [touch_of_some h]

/-! ### Purges -/

/-- No key has two entries. -/
def Distinct (c : Cache) : Prop := (c.entries.map Prod.fst).Nodup

/-- Keys that are different stay so when some leave. -/
theorem Distinct.filter (h : c.Distinct) (p : String × CacheEntry → Bool) :
    Distinct { c with entries := c.entries.filter p } :=
  h.sublist (List.filter_sublist.map Prod.fst)

/-- An insert replaces the entry of its key. -/
theorem Distinct.insert (h : c.Distinct) (key : String) (entry : CacheEntry) :
    (c.insert key entry).Distinct := by
  refine List.nodup_cons.mpr ⟨?_, h.filter _⟩
  intro hmem
  obtain ⟨e, he, hkey⟩ := List.mem_map.mp hmem
  have hne := (List.mem_filter.mp he).2
  exact bne_iff_ne.mp hne hkey

/-- A look-up removes an entry at most. -/
theorem Distinct.get (h : c.Distinct) (now : Time) (key : String) : (c.get now key).2.Distinct := by
  unfold Cache.get
  split
  · exact h
  · split
    · exact h
    · exact h.filter _

/-- The entry under a key is the only one. -/
theorem Distinct.mem_entries_iff (h : c.Distinct) {entry : CacheEntry} :
    (key, entry) ∈ c.entries ↔ c.entry? key = some entry := by
  unfold entry?
  obtain ⟨expiration, entries⟩ := c
  unfold Distinct at h
  induction entries with
  | nil => simp
  | cons e rest ih =>
    obtain ⟨own, found⟩ := e
    obtain ⟨hfresh, hrest⟩ := List.nodup_cons.mp h
    rw [List.mem_cons, List.lookup_cons]
    by_cases hown : key = own
    · subst hown
      have hnot : (key, entry) ∉ rest := fun hmem => hfresh (List.mem_map.mpr ⟨_, hmem, rfl⟩)
      simp [hnot, eq_comm]
    · have hne : (key, entry) ≠ (own, found) := fun heq => hown (congrArg Prod.fst heq)
      rw [beq_eq_false_iff_ne.mpr hown]
      simp only [hne, false_or]
      exact ih hrest

/-- A purge only removes entries. -/
theorem Distinct.purge (h : c.Distinct) (now : Time) : (c.purge now).Distinct := h.filter _

/-- A purge drops nothing that is live, then or later. -/
theorem live?_purge (h : c.Distinct) (hle : now ≤ t) (key : String) :
    (c.purge now).live? t key = c.live? t key := by
  refine Option.ext fun entry => ?_
  rw [live?, live?, Option.filter_eq_some_iff, Option.filter_eq_some_iff,
    ← h.mem_entries_iff, ← (h.purge now).mem_entries_iff, purge, List.mem_filter]
  simp only [decide_eq_true_eq]
  constructor
  · rintro ⟨⟨hmem, -⟩, hlive⟩
    exact ⟨hmem, hlive⟩
  · rintro ⟨hmem, hlive⟩
    exact ⟨⟨hmem, Nat.lt_of_le_of_lt hle hlive⟩, hlive⟩

/-- What is left by a purge is live. -/
theorem lookup_purge (h : c.Distinct) (now : Time) (key : String) :
    Cache.entry? (c.purge now) key = c.live? now key := by
  rw [← live?_purge h (Nat.le_refl now), live?]
  cases hentry : Cache.entry? (c.purge now) key with
  | none => rfl
  | some entry =>
    have hlive := (List.mem_filter.mp ((h.purge now).mem_entries_iff.mpr hentry)).2
    rw [Option.filter_some, if_pos hlive]

/-- What a purge counts and what it leaves are what there was. -/
theorem purgeCounted_add_size (c : Cache) (now : Time) :
    (c.purgeCounted now).1 + (c.purge now).size = c.size :=
  Nat.sub_add_cancel (List.length_filter_le _ _)

/-- The size of a cache is the number of its keys. -/
theorem Distinct.encard_keys (h : c.Distinct) :
    {key | ∃ entry, c.entry? key = some entry}.encard = c.size := by
  have hkeys : {key | ∃ entry, c.entry? key = some entry} =
      ((c.entries.map Prod.fst).toFinset : Set String) := by
    ext key
    rw [Set.mem_ofPred_eq, Finset.mem_coe, List.mem_toFinset, List.mem_map]
    constructor
    · rintro ⟨entry, hentry⟩
      exact ⟨(key, entry), h.mem_entries_iff.mpr hentry, rfl⟩
    · rintro ⟨⟨own, entry⟩, hmem, rfl⟩
      exact ⟨entry, h.mem_entries_iff.mp hmem⟩
  rw [hkeys, Set.encard_coe_eq_coe_finsetCard, List.toFinset_card_of_nodup h, List.length_map, size]

/-! ## What the record says -/

section Record

variable (expiration : Time) (key : String)

/-- What a call writes under a key, and until when. -/
def written? (r : CacheRecord) : Option CacheEntry :=
  match r.call with
  | .put k value => if k = key then some ⟨value, r.now + expiration⟩ else none
  | .putFor k value ttl => if k = key then some ⟨value, r.now + ttl⟩ else none
  | _ => none

/-- The instant to which a call puts the end of a key: a write, or a touch that found something. -/
def extended? (r : CacheRecord) : Option Time :=
  match r.call, r.answer with
  | .touch k, .found (some _) => if k = key then some (r.now + expiration) else none
  | _, _ => (written? expiration key r).map (·.expiresAt)

/-- The value of the last write to a key. -/
def lastWritten? (past : List CacheRecord) : Option String :=
  (past.filterMap (written? expiration key)).getLast?.map (·.value)

/-- The end of a key, from the last write to it or from a later touch that found it. -/
def expiry? (past : List CacheRecord) : Option Time :=
  (past.filterMap (extended? expiration key)).getLast?

/-- A key was last written with a value, and has not come to its end. -/
def HoldsAt (past : List CacheRecord) (t : Time) (value : String) : Prop :=
  lastWritten? expiration key past = some value ∧ ∃ e, expiry? expiration key past = some e ∧ t < e

/-- Value and end of a key. -/
def recorded? (past : List CacheRecord) : Option CacheEntry :=
  (lastWritten? expiration key past).bind fun value =>
    (expiry? expiration key past).map fun e => ⟨value, e⟩

end Record

variable {past : List CacheRecord} {r : CacheRecord}

/-- A key holds a value just if the record has it and its end has not come. -/
theorem holdsAt_iff : HoldsAt expiration key past t value ↔
    ((recorded? expiration key past).filter fun entry => t < entry.expiresAt).map (·.value) =
      some value := by
  unfold HoldsAt recorded?
  cases lastWritten? expiration key past with
  | none => simp
  | some v =>
    cases expiry? expiration key past with
    | none => simp
    | some e =>
      by_cases hlive : t < e
      · simp [Option.filter_some, hlive]
      · simp [Option.filter_some, hlive]

/-- The last write counts. -/
theorem lastWritten?_concat : lastWritten? expiration key (past ++ [r]) =
    ((written? expiration key r).map (·.value)).or (lastWritten? expiration key past) := by
  rw [lastWritten?, List.filterMap_append, List.getLast?_append]
  cases hr : written? expiration key r <;> simp [hr, lastWritten?]

/-- The last call that puts off the end counts. -/
theorem expiry?_concat : expiry? expiration key (past ++ [r]) =
    (extended? expiration key r).or (expiry? expiration key past) := by
  rw [expiry?, List.filterMap_append, List.getLast?_append]
  cases hr : extended? expiration key r <;> simp [hr, expiry?]

/-- A write tells value and end. -/
theorem recorded?_of_written {entry : CacheEntry} (h : written? expiration key r = some entry) :
    recorded? expiration key (past ++ [r]) = some entry := by
  have hextended : extended? expiration key r = some entry.expiresAt := by
    unfold extended?
    split
    · rename_i hcall _
      rw [written?, hcall] at h
      cases h
    · rw [h]
      rfl
  rw [recorded?, lastWritten?_concat, expiry?_concat, h, hextended]
  rfl

/-- A call that neither writes nor puts off the end of a key tells nothing of it. -/
theorem recorded?_of_none (hw : written? expiration key r = none)
    (he : extended? expiration key r = none) :
    recorded? expiration key (past ++ [r]) = recorded? expiration key past := by
  rw [recorded?, lastWritten?_concat, expiry?_concat, hw, he]
  rfl

/-- A touch that found something puts off the end of the value that is there. -/
theorem recorded?_of_extended {e : Time} {entry : CacheEntry}
    (hw : written? expiration key r = none) (he : extended? expiration key r = some e)
    (hpast : recorded? expiration key past = some entry) :
    recorded? expiration key (past ++ [r]) = some ⟨entry.value, e⟩ := by
  have hvalue : lastWritten? expiration key past = some entry.value := by
    obtain ⟨value, hvalue, hrest⟩ := Option.bind_eq_some_iff.mp hpast
    obtain ⟨_, -, rfl⟩ := Option.map_eq_some_iff.mp hrest
    exact hvalue
  rw [recorded?, lastWritten?_concat, expiry?_concat, hw, he, hvalue]
  rfl

/-! ## The cache has what the record says -/

/-- From now on, a cache has what the record of its calls says. -/
structure Recorded (expiration : Time) (past : List CacheRecord) (now : Time) (c : Cache) : Prop where
  duration : c.expiration = expiration
  distinct : c.Distinct
  live : ∀ t, now ≤ t → ∀ key, c.live? t key =
    (recorded? expiration key past).filter fun entry => t < entry.expiresAt

/-- An empty cache has what no calls leave. -/
theorem recorded_empty (expiration now : Time) : Recorded expiration [] now (empty expiration) where
  duration := rfl
  distinct := List.nodup_nil
  live _ _ _ := rfl

namespace Recorded

/-- What is so from now on is so from later on. -/
theorem later (h : Recorded expiration past now c) (hle : now ≤ t) : Recorded expiration past t c where
  duration := h.duration
  distinct := h.distinct
  live t' hle' := h.live t' (Nat.le_trans hle hle')

/-- A look-up returns what the record says is held. -/
theorem get_fst_iff (h : Recorded expiration past now c) (key value : String) :
    (c.get now key).1 = some value ↔ HoldsAt expiration key past now value := by
  rw [get_fst, h.live now (Nat.le_refl now), holdsAt_iff]

/-- A look-up leaves what the record says. -/
theorem get (h : Recorded expiration past now c) (key : String) :
    Recorded expiration past now (c.get now key).2 where
  duration := (expiration_get c now key).trans h.duration
  distinct := h.distinct.get now key
  live t hle other := (live?_get c key hle other).trans (h.live t hle other)

/-- So does a purge. -/
theorem purge (h : Recorded expiration past now c) : Recorded expiration past now (c.purge now) where
  duration := h.duration
  distinct := h.distinct.purge now
  live t hle key := (live?_purge h.distinct hle key).trans (h.live t hle key)

/-- A call that no key is told of is as good as none. -/
theorem quiet (h : Recorded expiration past now c) (hw : ∀ key, written? expiration key r = none)
    (he : ∀ key, extended? expiration key r = none) : Recorded expiration (past ++ [r]) now c where
  duration := h.duration
  distinct := h.distinct
  live t hle key := by rw [recorded?_of_none (hw key) (he key), h.live t hle]

/-- An entry is stored that the record tells of one key, while it tells nothing of the others. -/
theorem insert (h : Recorded expiration past now c) {entry : CacheEntry}
    (hown : recorded? expiration key (past ++ [r]) = some entry)
    (hother : ∀ other, other ≠ key →
      written? expiration other r = none ∧ extended? expiration other r = none) :
    Recorded expiration (past ++ [r]) now (c.insert key entry) where
  duration := h.duration
  distinct := h.distinct.insert key entry
  live := by
    intro t hle other
    rw [live?_insert]
    by_cases hkey : other = key
    · rw [if_pos hkey, hkey, hown]
    · rw [if_neg hkey, recorded?_of_none (hother other hkey).1 (hother other hkey).2, h.live t hle]

/-- A touch that finds something puts off the end of what it finds. -/
theorem touch_of_some (h : Recorded expiration past now c) (hfound : (c.get now key).1 = some value) :
    Recorded expiration (past ++ [⟨now, .touch key, .found (some value)⟩]) now
      ((c.get now key).2.put now key value) := by
  obtain ⟨entry, hlive, rfl⟩ := Option.map_eq_some_iff.mp ((get_fst c now key).symm.trans hfound)
  rw [h.live now (Nat.le_refl now)] at hlive
  have hpast := (Option.filter_eq_some_iff.mp hlive).1
  have hextended : extended? expiration key ⟨now, .touch key, .found (some entry.value)⟩ =
      some (now + expiration) := if_pos rfl
  have hduration : (c.get now key).2.expiration = expiration := (h.get key).duration
  rw [put, putFor, hduration]
  refine (h.get key).insert (recorded?_of_extended rfl hextended hpast) ?_
  intro other hother
  exact ⟨rfl, if_neg (Ne.symm hother)⟩

/-- Every call leaves the cache with what the record says once the call and its answer are added. -/
theorem call (h : Recorded expiration past now c) (call : CacheCall) :
    Recorded expiration (past ++ [⟨now, call, (c.call now call).1⟩]) now (c.call now call).2 := by
  -- a write is recorded with its value and its end, a touch with its end alone
  cases call with
  | put key value =>
    show Recorded _ _ _ (c.insert key ⟨value, now + c.expiration⟩)
    rw [h.duration]
    refine h.insert (recorded?_of_written (if_pos rfl)) ?_
    intro other hother
    have hnone : written? expiration other ⟨now, .put key value, .stored⟩ = none :=
      if_neg (Ne.symm hother)
    exact ⟨hnone, congrArg (Option.map _) hnone⟩
  | putFor key value ttl =>
    refine h.insert (recorded?_of_written (if_pos rfl)) ?_
    intro other hother
    have hnone : written? expiration other ⟨now, .putFor key value ttl, .stored⟩ = none :=
      if_neg (Ne.symm hother)
    exact ⟨hnone, congrArg (Option.map _) hnone⟩
  | get key => exact (h.get key).quiet (fun _ => rfl) (fun _ => rfl)
  | purge => exact h.purge.quiet (fun _ => rfl) (fun _ => rfl)
  | touch key =>
    show Recorded _ (past ++ [⟨now, .touch key, .found (c.touch now key).1⟩]) _ (c.touch now key).2
    cases hfound : (c.get now key).1 with
    | none =>
      rw [touch_of_none hfound, hfound]
      exact (h.get key).quiet (fun _ => rfl) (fun _ => rfl)
    | some value =>
      rw [Cache.touch_of_some hfound]
      exact h.touch_of_some hfound

end Recorded

/-! ## Runs -/

/-- A clock that does not go back, read at every call and now. -/
def Forward (calls : List (Time × CacheCall)) (now : Time) : Prop :=
  (calls.map Prod.fst ++ [now]).Pairwise (· ≤ ·)

instance (calls : List (Time × CacheCall)) (now : Time) : Decidable (Forward calls now) :=
  inferInstanceAs (Decidable (List.Pairwise _ _))

/-- Without its last call a sequence still goes forward. -/
theorem Forward.of_concat {calls : List (Time × CacheCall)} {m : Time × CacheCall}
    (h : Forward (calls ++ [m]) now) : Forward calls m.1 ∧ m.1 ≤ now := by
  rw [Forward, List.map_append, List.map_singleton] at h
  obtain ⟨hcalls, -, hnow⟩ := List.pairwise_append.mp h
  exact ⟨hcalls, hnow m.1 (List.mem_append_right _ List.mem_cons_self) now List.mem_cons_self⟩

theorem run_concat (c : Cache) (calls : List (Time × CacheCall)) (m : Time × CacheCall) :
    c.run (calls ++ [m]) = ((c.run calls).call m.1 m.2).2 := by
  rw [run, List.foldl_append]
  rfl

theorem trace_concat (c : Cache) (calls : List (Time × CacheCall)) (m : Time × CacheCall) :
    c.trace (calls ++ [m]) = c.trace calls ++ [⟨m.1, m.2, ((c.run calls).call m.1 m.2).1⟩] := by
  induction calls generalizing c with
  | nil => rfl
  | cons first rest ih => exact congrArg (_ :: ·) (ih _)

/-- A cache that was called under a clock that does not go back has what the record of the calls says. -/
theorem recorded_run (expiration : Time) {calls : List (Time × CacheCall)}
    (hclock : Forward calls now) :
    Recorded expiration ((empty expiration).trace calls) now ((empty expiration).run calls) := by
  induction calls using List.reverseRecOn generalizing now with
  | nil => exact recorded_empty expiration now
  | append_singleton calls m ih =>
    obtain ⟨hearlier, hle⟩ := hclock.of_concat
    rw [run_concat, trace_concat]
    exact ((ih hearlier).call m.2).later hle

/-- What the look-ups and touches of a sequence of calls found. -/
def lookUps (records : List CacheRecord) : List (Option String) :=
  records.filterMap fun r =>
    match r.answer with
    | .found value => some value
    | _ => none

/-- Caches with the same record are told apart by no look-up. -/
theorem lookUps_eq (h : Recorded expiration past now c) (h' : Recorded expiration past now c')
    {later : List (Time × CacheCall)} (hclock : (now :: later.map Prod.fst).Pairwise (· ≤ ·)) :
    lookUps (c.trace later) = lookUps (c'.trace later) := by
  induction later generalizing past now c c' with
  | nil => rfl
  | cons m rest ih =>
    obtain ⟨t, call⟩ := m
    obtain ⟨hnow, hrest⟩ := List.pairwise_cons.mp hclock
    replace h := h.later (hnow t List.mem_cons_self)
    replace h' := h'.later (hnow t List.mem_cons_self)
    have hget (key : String) : (c.get t key).1 = (c'.get t key).1 := by
      rw [get_fst, get_fst, h.live t (Nat.le_refl t), h'.live t (Nat.le_refl t)]
    by_cases hpurge : call = .purge
    · -- the counts may differ, but no key is told of them
      subst hpurge
      exact ih h.purge h'.purge hrest
    · have hanswer : (c.call t call).1 = (c'.call t call).1 := by
        cases call with
        | put | putFor => rfl
        | get key => exact congrArg CacheAnswer.found (hget key)
        | touch key =>
          refine congrArg CacheAnswer.found ?_
          rw [touch_fst, touch_fst, hget]
        | purge => exact absurd rfl hpurge
      have hlater := h'.call call
      rw [← hanswer] at hlater
      have htail := ih (h.call call) hlater hrest
      rw [trace, trace, ← hanswer]
      rw [lookUps, lookUps, List.filterMap_cons, List.filterMap_cons]
      rw [lookUps, lookUps] at htail
      rw [htail]

/-- A cache answers by the record of its calls and by nothing else. -/
structure Answers (expiration : Time) (past : List CacheRecord) (now : Time) (c : Cache) : Prop where
  get : ∀ key value, (c.get now key).1 = some value ↔ HoldsAt expiration key past now value
  touch : ∀ key value, (c.touch now key).1 = some value ↔ HoldsAt expiration key past now value
  /-- What a look-up drops is missed by no later one. -/
  get_unseen : ∀ key later, (now :: later.map Prod.fst).Pairwise (· ≤ ·) →
    lookUps ((c.get now key).2.trace later) = lookUps (c.trace later)
  /-- Nor is what a touch drops that finds nothing. -/
  touch_unseen : ∀ key later, (now :: later.map Prod.fst).Pairwise (· ≤ ·) →
    (c.touch now key).1 = none → lookUps ((c.touch now key).2.trace later) = lookUps (c.trace later)
  /-- Nor is what a purge drops. -/
  purge_unseen : ∀ later, (now :: later.map Prod.fst).Pairwise (· ≤ ·) →
    lookUps ((c.purgeCounted now).2.trace later) = lookUps (c.trace later)
  /-- A purge leaves the keys that have not come to their end. -/
  purge_size : ((c.purgeCounted now).2.size : ℕ∞) =
    {key | ∃ value, HoldsAt expiration key past now value}.encard
  purge_count : (c.purgeCounted now).1 + (c.purgeCounted now).2.size = c.size

/-- A cache that was called under a clock that does not go back answers with the value that was written
last, as long as the last write or a later touch that found it lets it live. What is dropped on the way is
missed by no later look-up, and a purge leaves exactly the keys that are live. -/
theorem answers_recorded (expiration : Time) {calls : List (Time × CacheCall)}
    (hclock : Forward calls now) :
    Answers expiration ((empty expiration).trace calls) now ((empty expiration).run calls) := by
  have h := recorded_run expiration hclock
  -- only what the record says of the cache is needed from here on
  generalize (empty expiration).trace calls = past at h
  generalize (empty expiration).run calls = c at h
  refine {
    get := h.get_fst_iff
    touch := ?touch
    get_unseen := fun key _ hlater => lookUps_eq (h.get key) h hlater
    touch_unseen := ?touch_unseen
    purge_unseen := fun _ hlater => lookUps_eq h.purge h hlater
    purge_size := ?purge_size
    purge_count := purgeCounted_add_size c now }
  case touch =>
    intro key value
    rw [touch_fst]
    exact h.get_fst_iff key value
  case touch_unseen =>
    intro key later hlater hnone
    rw [touch_of_none ((touch_fst c now key).symm.trans hnone)]
    exact lookUps_eq (h.get key) h hlater
  case purge_size =>
    rw [purgeCounted, ← (h.distinct.purge now).encard_keys]
    congr 1
    ext key
    simp only [Set.mem_ofPred_eq, lookup_purge h.distinct, ← h.get_fst_iff, get_fst,
      Option.map_eq_some_iff]
    constructor
    · rintro ⟨entry, hentry⟩
      exact ⟨entry.value, entry, hentry, rfl⟩
    · rintro ⟨_, entry, hentry, -⟩
      exact ⟨entry, hentry⟩

/-- Calls after which one key is at its end, put off by a touch, and the other was written again after it
had been dropped. -/
def rewrittenKey : List (Time × CacheCall) :=
  [(0, .put "a" "1"), (0, .putFor "b" "2" (Time.ofSeconds 5)), (Time.ofSeconds 10, .touch "a"),
    (Time.ofSeconds 10, .get "b"), (Time.ofSeconds 20, .put "b" "3"), (Time.ofSeconds 30, .purge)]

theorem answers_recorded_rewrittenKey :
    Forward rewrittenKey (Time.ofSeconds 70) ∧
      (((empty (Time.ofSeconds 60)).run rewrittenKey).get (Time.ofSeconds 70) "a").1 = none ∧
      (((empty (Time.ofSeconds 60)).run rewrittenKey).get (Time.ofSeconds 70) "b").1 = some "3" ∧
      {key | ∃ value, HoldsAt (Time.ofSeconds 60) key ((empty (Time.ofSeconds 60)).trace rewrittenKey)
        (Time.ofSeconds 70) value}.encard = 1 := by
  have hclock : Forward rewrittenKey (Time.ofSeconds 70) := by decide
  have hanswers := answers_recorded (Time.ofSeconds 60) hclock
  have hholds : HoldsAt (Time.ofSeconds 60) "b" ((empty (Time.ofSeconds 60)).trace rewrittenKey)
      (Time.ofSeconds 70) "3" := ⟨rfl, Time.ofSeconds 80, rfl, by decide⟩
  have hsize : (((empty (Time.ofSeconds 60)).run rewrittenKey).purgeCounted
      (Time.ofSeconds 70)).2.size = 1 := by decide
  refine ⟨hclock, by decide, (hanswers.get "b" "3").mpr hholds, ?_⟩
  rw [← hanswers.purge_size, hsize]
  rfl

end Vswitch.Cache
