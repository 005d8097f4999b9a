import Vswitch.Proofs.Flow.Projection

/-!
# Rules and the matches that they cover

A rule covers what sets all of its fields to the same values. Covering orders the matches by the fields
that they leave open: it is reflexive and transitive, and a rule from which fields are taken, by a
projection or one at a time, covers whatever it did before. A projection and a full match are equal as
keys exactly if the projection covers the full match.

* `WildcardMatch.covers_refl`, `WildcardMatch.covers_trans`: the order;
* `WildcardMatch.covers_project`, `WildcardMatch.covers_unset`: matches with fewer fields cover more;
* `WildcardMatch.rule_laws`: all of these, and equality.
-/

namespace Vswitch.WildcardMatch

variable {a b c : WildcardMatch}

/-! ## The order -/

theorem covers_refl (a : WildcardMatch) : a.covers a = true := by
  rw [covers_iff]
  intro f v hv
  exact hv

theorem covers_trans (hab : a.covers b = true) (hbc : b.covers c = true) : a.covers c = true := by
  rw [covers_iff] at hab hbc ⊢
  intro f v hv
  exact hbc f v (hab f v hv)

/-! ## Fewer fields -/

/-- A field that is still set once another was left open was set before, to the same value. -/
theorem covers_unset (m : WildcardMatch) (f : Field) : (m.unset f).covers m = true := by
  rw [covers_iff]
  intro g v hv
  have hupdated : (m.values.update f none) g = some v := hv
  by_cases hg : g = f
  · subst hg
    rw [FieldValues.update_self] at hupdated
    contradiction
  · rw [FieldValues.update_ne m.values none hg] at hupdated
    exact hupdated

/-! ## Equality -/

variable {δ : Type} [DecidableEq δ]

/-- A projection and a full match are equal from either side if the projection covers the other, and
only then. -/
theorem equalBy_iff_covers (digest : FieldValues → δ) (ha : a.isProjection = true)
    (hb : b.isProjection = false) :
    (a.equalBy digest b = true ↔ a.covers b = true) ∧
      (b.equalBy digest a = true ↔ a.covers b = true) := by
  rcases isProjection_eq_true.mp ha with ⟨s, hs⟩
  have hfull := isProjection_eq_false.mp hb
  constructor
  · rw [equalBy_projection_full hs hfull]
  · rw [equalBy_full_projection hfull hs]

/-- A rule covers what sets its fields to the same values, and this is a preorder. A rule covers what
it covered before once it is projected or a field is left open, and a projection covers its source.
Between a projection and a full match equality as keys is covering, whatever tells sources apart. -/
theorem rule_laws (digest : FieldValues → δ) (a b c : WildcardMatch) (fields : FieldSet) :
    (a.covers b = true ↔ ∀ f v, a.get? f = some v → b.get? f = some v) ∧
      a.covers a = true ∧
      (a.covers b = true → b.covers c = true → a.covers c = true) ∧
      (a.covers b = true →
        (a.project fields).covers b = true ∧ ∀ f, (a.unset f).covers b = true) ∧
      (b.project fields).covers b = true ∧
      (a.isProjection = true → b.isProjection = false →
        (a.equalBy digest b = true ↔ a.covers b = true) ∧
          (b.equalBy digest a = true ↔ a.covers b = true)) := by
  refine ⟨covers_iff, covers_refl a, covers_trans, ?_, covers_project b fields, equalBy_iff_covers digest⟩
  intro hab
  constructor
  · exact covers_trans (covers_project a fields) hab
  · intro f
    exact covers_trans (covers_unset a f) hab

/-- A rule cut from a web request, the request, and the same with its protocol. -/
theorem rule_laws_webFlow :
    ((webFlow 3).project (.ofList [.networkDestination])).covers (webFlow 3) = true ∧
      (webFlow 3).covers ((webFlow 3).put .networkProtocol IpProtocol.tcp) = true ∧
      ((webFlow 3).project (.ofList [.networkDestination])).covers
        ((webFlow 3).put .networkProtocol IpProtocol.tcp) = true ∧
      ((webFlow 3).unset .inputPort).covers
        ((webFlow 3).put .networkProtocol IpProtocol.tcp) = true ∧
      ((webFlow 3).project (.ofList [.networkDestination])).equal (webFlow 4) = true := by
  have hcut : ((webFlow 3).project (.ofList [.networkDestination])).covers (webFlow 3) = true := by
    decide
  have hput : (webFlow 3).covers ((webFlow 3).put .networkProtocol IpProtocol.tcp) = true := by
    decide
  have hother : ((webFlow 3).project (.ofList [.networkDestination])).covers (webFlow 4) = true := by
    decide
  rcases rule_laws id ((webFlow 3).project (.ofList [.networkDestination])) (webFlow 3)
    ((webFlow 3).put .networkProtocol IpProtocol.tcp) .all with ⟨-, -, htrans, -, -, -⟩
  rcases rule_laws id (webFlow 3) ((webFlow 3).put .networkProtocol IpProtocol.tcp) (webFlow 3)
    .all with ⟨-, -, -, hopen, -, -⟩
  rcases rule_laws id ((webFlow 3).project (.ofList [.networkDestination])) (webFlow 4) (webFlow 4)
    .all with ⟨-, -, -, -, -, hequal⟩
  exact ⟨hcut, hput, htrans hcut hput, (hopen hput).2 .inputPort,
    (hequal rfl rfl).1.mpr hother⟩

end Vswitch.WildcardMatch
