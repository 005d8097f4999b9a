import Mathlib.Data.List.Nodup
import Vswitch.Flow.Wildcard

/-!
# Matches as keys of maps

A projection is equal to its source and is hashed like it, so that an entry stored under a full match
is found through every projection of it. Equality compares only what a projection sets, hence it is
not transitive, and equal keys may be hashed differently: a projection also equals full matches other
than its source. A look-up with a projection is sound all the same when the digest tells the keys
apart, since then the hash alone decides which entry can be meant.

* `WildcardMatch.covers_iff`, `WildcardMatch.equalBy_full`, `WildcardMatch.equalBy_projection_full`,
  `WildcardMatch.equalBy_projections`: what equality compares, by shape;
* `WildcardMatch.projection_laws`: a projection against its source and against further projections;
* `WildcardMatch.key_contract`: equality against hashes, and what a look-up finds.
-/

namespace Vswitch

/-! ## Fields in common -/

namespace FieldSet

@[simp] theorem has_inter (a b : FieldSet) (f : Field) :
    (a.inter b).has f = (a.has f && b.has f) := rfl

theorem inter_comm (a b : FieldSet) : a.inter b = b.inter a := by
  ext f
  exact Bool.and_comm _ _

theorem inter_isSubset_right (a b : FieldSet) : (a.inter b).isSubset b = true := by
  rw [isSubset_iff]
  intro f hf
  rw [has_inter, Bool.and_eq_true] at hf
  exact hf.2

end FieldSet

namespace FieldValues

variable {v w : FieldValues} {fields : FieldSet}

@[simp] theorem has_used (v : FieldValues) (f : Field) : v.used.has f = (v f).isSome := rfl

@[simp] theorem get_restrict (v : FieldValues) (fields : FieldSet) (f : Field) :
    (v.restrict fields) f = if fields.has f then v f else none := by
  simp [restrict]

/-- A restriction sets the fields it keeps of those that were set. -/
theorem used_restrict (v : FieldValues) (fields : FieldSet) :
    (v.restrict fields).used = fields.inter v.used := by
  ext f
  rw [has_used, get_restrict, FieldSet.has_inter, has_used]
  cases fields.has f <;> rfl

/-- Restricting twice is restricting once, to the fields in both sets. -/
theorem restrict_restrict (v : FieldValues) (F G : FieldSet) :
    (v.restrict F).restrict G = v.restrict (F.inter G) := by
  ext1 f
  rw [get_restrict, get_restrict, get_restrict, FieldSet.has_inter]
  cases F.has f <;> cases G.has f <;> rfl

/-- Agreement on a set of fields has no direction. -/
theorem agreeOn_comm (v w : FieldValues) (fields : FieldSet) :
    v.agreeOn w fields = w.agreeOn v fields := by
  rw [Bool.eq_iff_iff, agreeOn_iff, agreeOn_iff]
  constructor <;> intro h f hf <;> exact (h f hf).symm

/-- Restricted values agree with all values on the fields that they set. -/
theorem agreeOn_restrict (v : FieldValues) (F fields : FieldSet)
    (hfields : ∀ f, fields.has f = true → F.has f = true) :
    (v.restrict F).agreeOn v fields = true := by
  rw [agreeOn_iff]
  intro f hf
  rw [get_restrict, if_pos (hfields f hf)]

end FieldValues

namespace WildcardMatch

section Shapes

variable {δ : Type} {digest : FieldValues → δ} {a b m : WildcardMatch} {s t : FieldValues}

/-! ## Hashes by shape -/

theorem isProjection_eq_true : m.isProjection = true ↔ ∃ s, m.source = some s :=
  Option.isSome_iff_exists

theorem isProjection_eq_false : m.isProjection = false ↔ m.source = none := by
  rw [isProjection, Option.isSome_eq_false_iff, Option.isNone_iff_eq_none]

/-- A full match hashes its own values. -/
theorem hashBy_full (ha : a.source = none) : a.hashBy digest = digest a.values := by
  simp [hashBy, fingerprint, ha]

/-- A projection hashes what it was taken from, whatever fields it kept. -/
theorem hashBy_projection (ha : a.source = some s) : a.hashBy digest = digest s := by
  simp [hashBy, fingerprint, ha]

theorem origin_projection (ha : a.source = some s) : a.origin digest = some (digest s) := by
  simp [origin, ha]

/-- Keys of different shapes are hashed alike if the projection remembers the full match. -/
theorem hashBy_eq_iff (ha : a.isProjection = true) (hb : b.isProjection = false) :
    a.hashBy digest = b.hashBy digest ↔ a.origin digest = some (digest b.values) := by
  obtain ⟨s, hs⟩ := isProjection_eq_true.mp ha
  rw [hashBy_projection hs, hashBy_full (isProjection_eq_false.mp hb), origin_projection hs,
    Option.some_inj]

/-! ## Projections -/

theorem source_project (m : WildcardMatch) (F : FieldSet) :
    (m.project F).source = some m.fingerprint := rfl

/-- A field of a projection reads as in the match, or as unset outside the set projected to. -/
theorem get?_project (m : WildcardMatch) (F : FieldSet) (f : Field) :
    (m.project F).get? f = if F.has f then m.get? f else none :=
  FieldValues.get_restrict m.values F f

theorem used_project (m : WildcardMatch) (F : FieldSet) :
    (m.project F).used = F.inter m.used :=
  FieldValues.used_restrict m.values F

/-- Projecting never changes the hash: it is the same fingerprint, remembered. -/
theorem hashBy_project (digest : FieldValues → δ) (m : WildcardMatch) (F : FieldSet) :
    (m.project F).hashBy digest = m.hashBy digest := rfl

/-- Projecting twice is projecting once onto the fields in common; the first source is kept. -/
theorem project_project (m : WildcardMatch) (F G : FieldSet) :
    (m.project F).project G = m.project (F.inter G) := by
  have hvalues := FieldValues.restrict_restrict m.values F G
  unfold project
  rw [hvalues]
  rfl

/-! ## Equality by shape -/

/-- A match covers another if that one sets its fields to the same values. -/
theorem covers_iff : a.covers b = true ↔ ∀ f v, a.get? f = some v → b.get? f = some v := by
  unfold covers
  rw [Bool.and_eq_true, FieldSet.isSubset_iff, FieldValues.agreeOn_iff]
  constructor
  · rintro ⟨-, hsame⟩ f v hv
    have hused : a.used.has f = true := Option.isSome_iff_exists.mpr ⟨v, hv⟩
    rw [get?, ← hsame f hused]
    exact hv
  · intro h
    constructor
    all_goals
      intro f hf
      obtain ⟨v, hv⟩ := Option.isSome_iff_exists.mp hf
    · exact Option.isSome_iff_exists.mpr ⟨v, h f v hv⟩
    · exact hv.trans (h f v hv).symm

variable [DecidableEq δ]

/-- Two full matches are equal just if their values are. -/
theorem equalBy_full (ha : a.source = none) (hb : b.source = none) :
    a.equalBy digest b = true ↔ a.values = b.values := by
  simp [equalBy, origin, ha, hb]

/-- Against a full match, equality of a projection is covering. -/
theorem equalBy_projection_full (ha : a.source = some s) (hb : b.source = none) :
    a.equalBy digest b = a.covers b := by
  simp [equalBy, origin, ha, hb, covers]

/-- So it is from the other side. -/
theorem equalBy_full_projection (ha : a.source = none) (hb : b.source = some t) :
    a.equalBy digest b = b.covers a := by
  simp [equalBy, origin, ha, hb, covers]

/-- Two projections are equal if they come of one fingerprint, one set of fields includes the other,
and they agree on the smaller one. -/
theorem equalBy_projections (ha : a.source = some s) (hb : b.source = some t) :
    a.equalBy digest b = true ↔
      digest s = digest t ∧ (a.used.isSubset b.used = true ∨ b.used.isSubset a.used = true) ∧
        a.values.agreeOn b.values (a.used.inter b.used) = true := by
  simp [equalBy, origin, ha, hb, and_assoc]

/-- Every match is equal to itself, whatever the digest. -/
theorem equalBy_refl (digest : FieldValues → δ) (a : WildcardMatch) :
    a.equalBy digest a = true := by
  cases ha : a.source with
  | none => exact (equalBy_full ha ha).mpr rfl
  | some s =>
    apply (equalBy_projections ha ha).mpr
    refine ⟨rfl, Or.inl ?_, ?_⟩
    · rw [FieldSet.isSubset_iff]
      intro f hf
      exact hf
    · rw [FieldValues.agreeOn_iff]
      intro f _
      rfl

/-- Equality has no direction, whatever the digest. -/
theorem equalBy_comm (digest : FieldValues → δ) (a b : WildcardMatch) :
    a.equalBy digest b = b.equalBy digest a := by
  cases ha : a.source with
  | none =>
    cases hb : b.source with
    | none => rw [Bool.eq_iff_iff, equalBy_full ha hb, equalBy_full hb ha, eq_comm]
    | some t => rw [equalBy_full_projection ha hb, equalBy_projection_full hb ha]
  | some s =>
    cases hb : b.source with
    | none => rw [equalBy_projection_full ha hb, equalBy_full_projection hb ha]
    | some t =>
      rw [Bool.eq_iff_iff, equalBy_projections ha hb, equalBy_projections hb ha, eq_comm,
        or_comm, FieldValues.agreeOn_comm, FieldSet.inter_comm]

/-- Equal keys of the same shape are hashed alike. -/
theorem hashBy_eq_of_equalBy (hshape : a.isProjection = b.isProjection)
    (h : a.equalBy digest b = true) : a.hashBy digest = b.hashBy digest := by
  cases ha : a.source with
  | none =>
    have hb : b.source = none := by
      rw [← isProjection_eq_false, ← hshape, isProjection_eq_false]
      exact ha
    rw [hashBy_full ha, hashBy_full hb, (equalBy_full ha hb).mp h]
  | some s =>
    obtain ⟨t, hb⟩ : ∃ t, b.source = some t := by
      rw [← isProjection_eq_true, ← hshape, isProjection_eq_true]
      exact ⟨s, ha⟩
    rw [hashBy_projection ha, hashBy_projection hb]
    exact ((equalBy_projections ha hb).mp h).1

/-! ## Projections as keys -/

/-- A projection covers the match it was taken from. -/
theorem covers_project (m : WildcardMatch) (F : FieldSet) : (m.project F).covers m = true := by
  rw [covers_iff]
  intro f v hv
  rw [get?_project] at hv
  split at hv
  · exact hv
  · contradiction

/-- A projection equals its source, whether that is full or cut from another match itself. -/
theorem equalBy_project (digest : FieldValues → δ) (m : WildcardMatch) (F : FieldSet) :
    (m.project F).equalBy digest m = true := by
  cases hm : m.source with
  | none =>
    rw [equalBy_projection_full (source_project m F) hm]
    exact covers_project m F
  | some s =>
    -- both remember the first source, and the projection has no field that `m` lacks
    apply (equalBy_projections (source_project m F) hm).mpr
    refine ⟨hashBy_projection hm, Or.inl ?_, ?_⟩
    · rw [used_project]
      exact FieldSet.inter_isSubset_right F m.used
    · apply FieldValues.agreeOn_restrict
      intro f hf
      rw [used_project, FieldSet.has_inter, FieldSet.has_inter] at hf
      simp only [Bool.and_eq_true] at hf
      exact hf.1.1

/-- A projection sets the fields of its source among those asked for, equals its source from either
side and is hashed like it. Projections compose, and the projection onto all fields of a match
equals it. -/
theorem projection_laws (digest : FieldValues → δ) (m : WildcardMatch) (F G : FieldSet) :
    ((m.project F).used = F.inter m.used ∧
        ∀ f, (m.project F).get? f = if F.has f then m.get? f else none) ∧
      ((m.project F).equalBy digest m = true ∧ m.equalBy digest (m.project F) = true) ∧
      (m.project F).hashBy digest = m.hashBy digest ∧
      (∀ f, ((m.project F).project G).get? f = (m.project (F.inter G)).get? f) ∧
      ((m.project F).project G).origin digest = (m.project (F.inter G)).origin digest ∧
      ((m.project m.used).equalBy digest m = true ∧
        m.equalBy digest (m.project m.used) = true) := by
  have heq (H : FieldSet) :
      (m.project H).equalBy digest m = true ∧ m.equalBy digest (m.project H) = true := by
    constructor
    · exact equalBy_project digest m H
    · rw [equalBy_comm]
      exact equalBy_project digest m H
  refine ⟨⟨used_project m F, get?_project m F⟩, heq F, hashBy_project digest m F, ?_, ?_,
    heq m.used⟩
  · intro f
    rw [project_project]
  · rw [project_project]

end Shapes

/-! ## Look-ups -/

section Lookup

variable {δ : Type} [DecidableEq δ] {digest : FieldValues → δ} {α : Type}
  {entries : List (WildcardMatch × α)} {find : WildcardMatch → Option (WildcardMatch × α)}

/-- Whether a look-up of `query` may stop at `key`: they are hashed alike and compare equal. -/
def Hits (digest : FieldValues → δ) (query key : WildcardMatch) : Prop :=
  key.hashBy digest = query.hashBy digest ∧ query.equalBy digest key = true

instance (digest : FieldValues → δ) (query key : WildcardMatch) :
    Decidable (Hits digest query key) :=
  inferInstanceAs (Decidable (_ ∧ _))

/-- What a hash map guarantees of its look-up: it finds a stored entry that the query hits, and one
whenever there is such an entry. Which one of several is not said. -/
structure LooksUp (digest : FieldValues → δ) (entries : List (WildcardMatch × α))
    (find : WildcardMatch → Option (WildcardMatch × α)) : Prop where
  mem : ∀ {query entry}, find query = some entry → entry ∈ entries
  hits : ∀ {query entry}, find query = some entry → Hits digest query entry.1
  misses : ∀ {query}, find query = none → ∀ entry ∈ entries, ¬ Hits digest query entry.1

/-- All keys are full matches, and the digest tells them apart. -/
structure FullKeys (digest : FieldValues → δ) (entries : List (WildcardMatch × α)) : Prop where
  full : ∀ entry ∈ entries, entry.1.isProjection = false
  distinct : (entries.map fun entry => entry.1.hashBy digest).Nodup

/-- The look-up that takes the first entry hit. -/
def firstHit (digest : FieldValues → δ) (entries : List (WildcardMatch × α))
    (query : WildcardMatch) : Option (WildcardMatch × α) :=
  entries.find? fun entry => Hits digest query entry.1

/-- A search in entry order is a lookup in the sense of `LooksUp`. -/
theorem looksUp_firstHit (digest : FieldValues → δ) (entries : List (WildcardMatch × α)) :
    LooksUp digest entries (firstHit digest entries) where
  mem := List.mem_of_find?_eq_some
  hits h := by
    have := List.find?_some h
    exact of_decide_eq_true this
  misses h entry hentry := by
    have := List.find?_eq_none.mp h entry hentry
    exact of_decide_eq_false (by simpa using this)

/-- The hash decides which entry a projection of a key can hit, and its source is hit. -/
theorem LooksUp.find_project (hfind : LooksUp digest entries find) (hkeys : FullKeys digest entries)
    {entry : WildcardMatch × α} (hentry : entry ∈ entries) (F : FieldSet) :
    find (entry.1.project F) = some entry := by
  cases hfound : find (entry.1.project F) with
  | none =>
    -- but the key itself is hit
    have hhit : Hits digest (entry.1.project F) entry.1 :=
      ⟨(hashBy_project digest entry.1 F).symm, equalBy_project digest entry.1 F⟩
    exact absurd hhit (hfind.misses hfound entry hentry)
  | some found =>
    -- other keys may compare equal, but none of them is hashed like this one
    have hhash : found.1.hashBy digest = entry.1.hashBy digest := (hfind.hits hfound).1
    have hsame : found = entry :=
      List.inj_on_of_nodup_map hkeys.distinct (hfind.mem hfound) hentry hhash
    rw [hsame]

/-- A query whose origin hashes to no entry's hash finds nothing. -/
theorem LooksUp.find_eq_none (hfind : LooksUp digest entries find) {query : WildcardMatch} {d : δ}
    (horigin : query.origin digest = some d)
    (habsent : d ∉ entries.map fun entry => entry.1.hashBy digest) : find query = none := by
  obtain ⟨s, hs, rfl⟩ := Option.map_eq_some_iff.mp horigin
  cases hfound : find query with
  | none => rfl
  | some found =>
    have hhash : found.1.hashBy digest = digest s := by
      rw [(hfind.hits hfound).1, hashBy_projection hs]
    exact absurd (List.mem_map.mpr ⟨found, hfind.mem hfound, hhash⟩) habsent

end Lookup

/-- Equality is reflexive and symmetric. Equal keys are hashed alike unless one of them is a
projection and the other is not, and then they are exactly if the projection remembers the full
match. So a look-up among full matches that the digest tells apart finds, for a projection of a key,
the entry of that key, and nothing for a projection of any other match. -/
theorem key_contract {δ : Type} [DecidableEq δ] (digest : FieldValues → δ) :
    (∀ a : WildcardMatch, a.equalBy digest a = true) ∧
      (∀ a b : WildcardMatch, a.equalBy digest b = true ↔ b.equalBy digest a = true) ∧
      (∀ a b : WildcardMatch, a.equalBy digest b = true → a.isProjection = b.isProjection →
        a.hashBy digest = b.hashBy digest) ∧
      (∀ a b : WildcardMatch, a.isProjection = true → b.isProjection = false →
        (a.hashBy digest = b.hashBy digest ↔ a.origin digest = some (digest b.values))) ∧
      ∀ (α : Type) (entries : List (WildcardMatch × α))
        (find : WildcardMatch → Option (WildcardMatch × α)),
        LooksUp digest entries find → FullKeys digest entries →
          (∀ entry ∈ entries, ∀ F, find (entry.1.project F) = some entry) ∧
          ∀ (query : WildcardMatch) (d : δ), query.origin digest = some d →
            d ∉ entries.map (fun entry => digest entry.1.values) → find query = none := by
  refine ⟨equalBy_refl digest, ?_, ?_, ?_, ?_⟩
  · intro a b
    rw [equalBy_comm]
  · intro a b h hshape
    exact hashBy_eq_of_equalBy hshape h
  · intro a b ha hb
    exact hashBy_eq_iff ha hb
  · intro α entries find hfind hkeys
    constructor
    · intro entry hentry F
      exact hfind.find_project hkeys hentry F
    · intro query d horigin habsent
      -- the keys are full matches, so their hashes are the digests of their values
      have hdigests : (entries.map fun entry => entry.1.hashBy digest) =
          entries.map fun entry => digest entry.1.values := by
        apply List.map_congr_left
        intro entry hentry
        exact hashBy_full (isProjection_eq_false.mp (hkeys.full entry hentry))
      rw [← hdigests] at habsent
      exact hfind.find_eq_none horigin habsent

/-- A web request that came in on a port. -/
def webFlow (port : UInt32) : WildcardMatch :=
  ((empty.put .inputPort port).put .networkDestination ⟨10, 0, 0, 2⟩).put .transportDestination
    (80 : UInt16)

/-- Two flows that differ in the port alone. -/
def webTable : List (WildcardMatch × String) := [(webFlow 3, "first"), (webFlow 4, "second")]

theorem key_contract_webTable :
    LooksUp id webTable (firstHit id webTable) ∧ FullKeys id webTable ∧
      firstHit id webTable ((webFlow 4).project (.ofList [.networkDestination])) =
        some (webFlow 4, "second") ∧
      firstHit id webTable ((webFlow 5).project (.ofList [.networkDestination])) = none := by
  have hkeys : FullKeys id webTable := ⟨by decide, by decide⟩
  have hfind := looksUp_firstHit id webTable
  obtain ⟨-, -, -, -, hmap⟩ := key_contract (id : FieldValues → FieldValues)
  obtain ⟨hfound, hmissed⟩ := hmap String webTable (firstHit id webTable) hfind hkeys
  refine ⟨hfind, hkeys, ?_, ?_⟩
  · exact hfound (webFlow 4, "second") (by decide) _
  · exact hmissed _ (webFlow 5).values rfl (by decide)

end WildcardMatch

end Vswitch
