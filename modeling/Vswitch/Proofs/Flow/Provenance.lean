import Mathlib
import Vswitch.Flow.Calls
import Vswitch.Proofs.Flow.Covering
import Vswitch.Proofs.Flow.Recovery

/-!
# Where projections come from

A caller makes matches and changes them in place. Whatever the calls are, the matches stay those that
can be built, a refusal changes nothing, and a projection is never without the full match that it
stands for: there was one among the earlier matches whose fingerprint it remembers, and that one sets
all of its fields to the same values. For this every change in place has to make the match forget its
source, and a projection of a projection has to keep it.

* `WildcardMatch.run_setter`, `WildcardMatch.run_unsetter`: what a change in place comes to;
* `Matches.MadeFrom`, `Matches.madeFrom_of_mem_call`: where a match comes from in one call;
* `Matches.call_eq_error`, `Matches.getElem?_call_set`, `Matches.getElem?_call_unset`: what is refused,
  and that nothing comes of it, and what comes of the others;
* `WildcardMatch.StandsFor`, `Matches.exists_standsFor`: a projection and what it was cut from;
* `Matches.well_formed`: every sequence of calls.
-/

namespace Vswitch

/-! ## Changes in place -/

namespace WildcardMatch

/-- A field is set in place as it is in a copy, and a refusal leaves the match alone. -/
theorem run_setter (m : WildcardMatch) (f : Field) (raw : f.Raw) :
    (setter f raw).run.run m =
      match m.set f raw with
      | .ok m' => (.ok (), m')
      | .error reason => (.error reason, m) := by
  unfold setter set
  cases f.accept raw with
  | error reason => rfl
  | ok value => rfl

/-- A field is unset in place as it is in a copy. -/
theorem run_unsetter (m : WildcardMatch) (f : Field) :
    (unsetter f).run.run m = (.ok (), m.unset f) := rfl

/-- Setting fails just if the check of the field does, and for the same reason. -/
theorem set_eq_error {m : WildcardMatch} {f : Field} {raw : f.Raw} {reason : FieldError} :
    m.set f raw = .error reason ↔ f.accept raw = .error reason := by
  unfold set
  cases f.accept raw with
  | error other =>
    constructor
    · intro h
      cases h
      rfl
    · intro h
      cases h
      rfl
  | ok value =>
    constructor
    · intro h
      cases h
    · intro h
      cases h

/-- A refusal names the field that was to be set. -/
theorem accept_eq_error {f : Field} {raw : f.Raw} {reason : FieldError}
    (h : f.accept raw = .error reason) : ∃ value, reason = .outOfRange f value := by
  have hport {port : UInt32} (field : Field) (h : Field.acceptPort field port = .error reason) :
      ∃ value, reason = .outOfRange field value := by
    unfold Field.acceptPort at h
    split_ifs at h
    cases h
    exact ⟨_, rfl⟩
  cases f with
  | vlanId =>
    have hvlan : Field.acceptVlanId raw = .error reason := h
    unfold Field.acceptVlanId at hvlan
    split_ifs at hvlan
    cases hvlan
    exact ⟨_, rfl⟩
  | transportSource => exact hport .transportSource h
  | transportDestination => exact hport .transportDestination h
  | _ => cases h

end WildcardMatch

/-! ## One call -/

namespace Matches

open WildcardMatch

variable {held : Matches} {m m' : WildcardMatch} {c : MatchCall} {reason : FieldError}

/-- Where a match comes from in one call: it was there, or it is made from nothing, from keys or from
one that was there. -/
inductive MadeFrom (held : Matches) : WildcardMatch → Prop
  | kept {m : WildcardMatch} (h : m ∈ held) : MadeFrom held m
  | new : MadeFrom held .empty
  | ofKeys (keys : FlowMatch) : MadeFrom held (.ofFlowMatch keys)
  | set {m m' : WildcardMatch} (h : m ∈ held) (f : Field) (raw : f.Raw) (hset : m.set f raw = .ok m') :
      MadeFrom held m'
  | unset {m : WildcardMatch} (h : m ∈ held) (f : Field) : MadeFrom held (m.unset f)
  | project {m : WildcardMatch} (h : m ∈ held) (fields : FieldSet) : MadeFrom held (m.project fields)

/-- A change in place concerns the match at its place alone. -/
theorem mem_change {place : Nat} {edit : InPlace Unit} (h : m' ∈ (held.change place edit).2) :
    m' ∈ held ∨ ∃ m ∈ held, m' = (edit.run.run m).2 := by
  unfold change at h
  cases hplace : held[place]? with
  | none =>
    rw [hplace] at h
    exact Or.inl h
  | some m =>
    rw [hplace] at h
    rcases List.mem_or_eq_of_mem_set h with hkept | hedited
    · exact Or.inl hkept
    · exact Or.inr ⟨m, List.mem_of_getElem? hplace, hedited⟩

/-- The match at the place is the one changed. -/
theorem getElem?_change {place : Nat} (hplace : held[place]? = some m) (edit : InPlace Unit) :
    (held.change place edit).2[place]? = some (edit.run.run m).2 := by
  rcases List.getElem?_eq_some_iff.mp hplace with ⟨hlt, -⟩
  unfold change
  rw [hplace]
  exact List.getElem?_set_self hlt

/-- A change fails only as its edit does. -/
theorem change_eq_error {place : Nat} {edit : InPlace Unit}
    (h : (held.change place edit).1 = .error reason) :
    ∃ m, held[place]? = some m ∧ (edit.run.run m).1 = .error reason ∧
      (held.change place edit).2 = held.set place (edit.run.run m).2 := by
  unfold change at h ⊢
  cases hplace : held[place]? with
  | none =>
    rw [hplace] at h
    cases h
  | some m =>
    rw [hplace] at h
    exact ⟨m, rfl, h, rfl⟩

/-- A call makes every match it leaves of one there was. -/
theorem madeFrom_of_mem_call (h : m' ∈ (held.call c).2) : MadeFrom held m' := by
  cases c with
  | new =>
    rcases List.mem_append.mp h with hkept | hnew
    · exact .kept hkept
    · cases List.mem_singleton.mp hnew
      exact .new
  | ofKeys keys =>
    rcases List.mem_append.mp h with hkept | hnew
    · exact .kept hkept
    · cases List.mem_singleton.mp hnew
      exact .ofKeys keys
  | project place fields =>
    rcases List.mem_append.mp h with hkept | hnew
    · exact .kept hkept
    · rcases Option.map_eq_some_iff.mp (Option.mem_toList.mp hnew) with ⟨m, hm, rfl⟩
      exact .project (List.mem_of_getElem? hm) fields
  | set place f raw =>
    have hchanged : m' ∈ (held.change place (setter f raw)).2 := h
    rcases mem_change hchanged with hkept | ⟨m, hm, hedited⟩
    · exact .kept hkept
    · rw [run_setter] at hedited
      cases hset : m.set f raw with
      | error reason =>
        rw [hset] at hedited
        exact hedited ▸ .kept hm
      | ok edited =>
        rw [hset] at hedited
        exact hedited ▸ .set hm f raw hset
  | unset place f =>
    have hchanged : m' ∈ (held.change place (unsetter f)).2 := h
    rcases mem_change hchanged with hkept | ⟨m, hm, hedited⟩
    · exact .kept hkept
    · rw [run_unsetter] at hedited
      exact hedited ▸ .unset hm f

/-- What is refused is a value for a field that does not take it, and the matches are then what they
were. -/
theorem call_eq_error (h : (held.call c).1 = .error reason) :
    (∃ place f raw, c = .set place f raw ∧ f.accept raw = .error reason) ∧ (held.call c).2 = held := by
  cases c with
  | set place f raw =>
    have hchanged : (held.change place (setter f raw)).1 = .error reason := h
    rcases change_eq_error hchanged with ⟨m, hplace, hrefused, hheld⟩
    rw [run_setter] at hrefused hheld
    cases hset : m.set f raw with
    | ok edited =>
      rw [hset] at hrefused
      cases hrefused
    | error other =>
      rw [hset] at hrefused hheld
      cases hrefused
      refine ⟨⟨place, f, raw, rfl, set_eq_error.mp hset⟩, ?_⟩
      rcases List.getElem?_eq_some_iff.mp hplace with ⟨hlt, rfl⟩
      exact hheld.trans (List.set_getElem_self hlt)
  | unset place f =>
    have hchanged : (held.change place (unsetter f)).1 = .error reason := h
    rcases change_eq_error hchanged with ⟨m, -, hrefused, -⟩
    rw [run_unsetter] at hrefused
    cases hrefused
  | _ => cases h

/-- A match that is changed in place is what it is changed to, and no projection. -/
theorem getElem?_call_set {place : Nat} {f : Field} {raw : f.Raw} {value : f.Value}
    (hplace : held[place]? = some m) (haccept : f.accept raw = .ok value) :
    (held.call (.set place f raw)).2[place]? = some (m.put f value) := by
  have hset : m.set f raw = .ok (m.put f value) := by
    unfold WildcardMatch.set
    rw [haccept]
    rfl
  have hchanged := getElem?_change hplace (setter f raw)
  rw [run_setter, hset] at hchanged
  exact hchanged

/-- Unsetting always succeeds. -/
theorem getElem?_call_unset {place : Nat} (hplace : held[place]? = some m) (f : Field) :
    (held.call (.unset place f)).2[place]? = some (m.unset f) := by
  have hchanged := getElem?_change hplace (unsetter f)
  rw [run_unsetter] at hchanged
  exact hchanged

/-! ## Sequences of calls -/

theorem run_concat (held : Matches) (calls : List MatchCall) (c : MatchCall) :
    held.run (calls ++ [c]) = ((held.run calls).call c).2 := by
  unfold run
  rw [List.foldl_append]
  rfl

/-- Calls make nothing but matches that can be built. -/
theorem built_of_mem_run {calls : List MatchCall} (h : m ∈ run [] calls) : Built m := by
  induction calls using List.reverseRecOn generalizing m with
  | nil => contradiction
  | append_singleton calls c ih =>
    rw [run_concat] at h
    cases madeFrom_of_mem_call h with
    | kept hm => exact ih hm
    | new => exact .empty
    | ofKeys keys => exact .ofFlowMatch keys
    | set hm f raw hset => exact .set (ih hm) f raw hset
    | unset hm f => exact .unset (ih hm) f
    | project hm fields => exact .project (ih hm) fields

end Matches

/-! ## Projections -/

namespace WildcardMatch

variable {m full : WildcardMatch}

/-- A projection stands for a full match: it remembers the fingerprint of that one, which sets all of
its fields to the same values. -/
structure StandsFor (m full : WildcardMatch) : Prop where
  uncut : full.isProjection = false
  remembered : m.source = some full.fingerprint
  covered : m.covers full = true

/-- What is cut from a full match stands for it. -/
theorem standsFor_project_full (hm : m.isProjection = false) (fields : FieldSet) :
    (m.project fields).StandsFor m where
  uncut := hm
  remembered := source_project m fields
  covered := covers_project m fields

/-- What is cut from a projection stands for what that one stands for. -/
theorem StandsFor.project (h : m.StandsFor full) (fields : FieldSet) :
    (m.project fields).StandsFor full where
  uncut := h.uncut
  remembered := by
    rw [source_project, fingerprint, h.remembered]
    rfl
  covered := covers_trans (covers_project m fields) h.covered

/-- A match that was set is no projection any more. -/
theorem isProjection_of_set {m m' : WildcardMatch} {f : Field} {raw : f.Raw}
    (h : m.set f raw = .ok m') : m'.isProjection = false := by
  rcases exists_of_set h with ⟨value, -, rfl⟩
  rfl

end WildcardMatch

namespace Matches

open WildcardMatch

/-- For every projection that calls have made, the full match that it stands for was there before the
last call. -/
theorem exists_standsFor {calls : List MatchCall} {m : WildcardMatch} (h : m ∈ run [] calls)
    (hm : m.isProjection = true) :
    ∃ k < calls.length, ∃ full ∈ run [] (calls.take k), m.StandsFor full := by
  induction calls using List.reverseRecOn generalizing m with
  | nil => contradiction
  | append_singleton calls c ih =>
    -- what was there earlier is there in the longer sequence
    have hearlier {m : WildcardMatch} (k : Nat) (hk : k ≤ calls.length)
        (hfull : ∃ full ∈ run [] (calls.take k), m.StandsFor full) :
        ∃ k < (calls ++ [c]).length, ∃ full ∈ run [] ((calls ++ [c]).take k), m.StandsFor full := by
      refine ⟨k, ?_, ?_⟩
      · rw [List.length_append]
        exact Nat.lt_add_one_of_le hk
      · rw [List.take_append_of_le_length hk]
        exact hfull
    rw [run_concat] at h
    cases madeFrom_of_mem_call h with
    | kept hkept =>
      rcases ih hkept hm with ⟨k, hk, hfull⟩
      exact hearlier k hk.le hfull
    | @project source hsource fields =>
      cases hsourced : source.isProjection with
      | false =>
        apply hearlier calls.length (Nat.le_refl _)
        rw [List.take_length]
        exact ⟨source, hsource, standsFor_project_full hsourced fields⟩
      | true =>
        rcases ih hsource hsourced with ⟨k, hk, full, hfull, hstands⟩
        exact hearlier k hk.le ⟨full, hfull, hstands.project fields⟩
    | set _ _ _ hset =>
      rw [isProjection_of_set hset] at hm
      contradiction
    | _ => contradiction

/-- Whatever calls are made, the VLAN identifiers of all matches are within twelve bits. A call that
is refused named a value out of range, and leaves every match as it was; one that goes through sets
the field or leaves it open, and makes the match no projection. For every projection there was a full
match before whose fingerprint it remembers, and which sets all of its fields to the same values. -/
theorem well_formed (calls : List MatchCall) :
    (∀ m ∈ run [] calls, ∀ id : UInt16, m.get? .vlanId = some id → id.toNat ≤ 4095) ∧
      (∀ c reason, ((run [] calls).call c).1 = .error reason →
        (∃ place f raw, c = .set place f raw ∧ f.accept raw = .error reason ∧
          ∃ value, reason = .outOfRange f value) ∧
        run [] (calls ++ [c]) = run [] calls) ∧
      (∀ (place : Nat) m f, (run [] calls)[place]? = some m →
        (∀ raw value, f.accept raw = .ok value →
          ∃ m', (run [] (calls ++ [.set place f raw]))[place]? = some m' ∧
            m'.get? f = some value ∧ m'.isProjection = false) ∧
        ∃ m', (run [] (calls ++ [.unset place f]))[place]? = some m' ∧
          m'.get? f = none ∧ m'.isProjection = false) ∧
      ∀ m ∈ run [] calls, m.isProjection = true →
        ∃ k < calls.length, ∃ full ∈ run [] (calls.take k), full.isProjection = false ∧
          m.source = some full.fingerprint ∧ ∀ f v, m.get? f = some v → full.get? f = some v := by
  -- ranges, refusals, changes in place, and projections with their sources
  refine ⟨?_, ?_, ?_, ?_⟩
  · intro m hm id hid
    exact (built_of_mem_run hm).vlanInRange id hid
  · intro c reason hrefused
    rcases call_eq_error hrefused with ⟨⟨place, f, raw, hc, haccept⟩, hheld⟩
    refine ⟨⟨place, f, raw, hc, haccept, accept_eq_error haccept⟩, ?_⟩
    rw [run_concat]
    exact hheld
  · intro place m f hplace
    constructor
    · intro raw value haccept
      rw [run_concat]
      exact ⟨m.put f value, getElem?_call_set hplace haccept,
        FieldValues.update_self m.values f (some value), rfl⟩
    · rw [run_concat]
      exact ⟨m.unset f, getElem?_call_unset hplace f, FieldValues.update_self m.values f none, rfl⟩
  · intro m hm hprojection
    rcases exists_standsFor hm hprojection with ⟨k, hk, full, hfull, hstands⟩
    exact ⟨k, hk, full, hfull, hstands.uncut, hstands.remembered, covers_iff.mp hstands.covered⟩

/-- A rule for a port and a tag. -/
def tagRule : WildcardMatch := (empty.put .inputPort (3 : UInt32)).put .vlanId (100 : UInt16)

/-- The rule is made and cut down to the tag, and then loses its own. -/
def cutTag : List MatchCall :=
  [.new, .set 0 .inputPort (3 : UInt32), .set 0 .vlanId (100 : UInt16),
    .project 0 (.ofList [.vlanId]), .unset 0 .vlanId]

theorem well_formed_cutTag :
    run [] cutTag = [tagRule.unset .vlanId, tagRule.project (.ofList [.vlanId])] ∧
      (∃ k < cutTag.length, ∃ full ∈ run [] (cutTag.take k), full.isProjection = false ∧
        (tagRule.project (.ofList [.vlanId])).source = some full.fingerprint ∧
        full.get? .vlanId = some (100 : UInt16)) ∧
      ((run [] cutTag).call (.set 1 .vlanId (5000 : UInt16))).1 =
        .error (.outOfRange .vlanId 5000) ∧
      run [] (cutTag ++ [.set 1 .vlanId (5000 : UInt16)]) = run [] cutTag := by
  have hrun : run [] cutTag = [tagRule.unset .vlanId, tagRule.project (.ofList [.vlanId])] := rfl
  have hrefused : ((run [] cutTag).call (.set 1 .vlanId (5000 : UInt16))).1 =
      .error (.outOfRange .vlanId 5000) := rfl
  have hmem : tagRule.project (.ofList [.vlanId]) ∈ run [] cutTag :=
    hrun ▸ List.mem_cons_of_mem _ List.mem_cons_self
  rcases well_formed cutTag with ⟨-, hunchanged, -, hsource⟩
  rcases hsource _ hmem rfl with ⟨k, hk, full, hfull, huncut, hremembered, hsame⟩
  exact ⟨hrun, ⟨k, hk, full, hfull, huncut, hremembered, hsame .vlanId (100 : UInt16) rfl⟩, hrefused,
    (hunchanged _ _ hrefused).2⟩

end Matches

end Vswitch
