import Mathlib

/-!
# Computations that may fail

A computation made of several succeeds exactly if each of them does, and so does one that works
through a list.
-/

namespace Vswitch

variable {ε α β γ : Type}

theorem bind_eq_ok {x : Except ε α} {f : α → Except ε β} {b : β} :
    x >>= f = .ok b ↔ ∃ a, x = .ok a ∧ f a = .ok b := by
  cases x with
  | error e =>
    constructor
    · intro h
      cases h
    · rintro ⟨a, ha, -⟩
      cases ha
  | ok a =>
    constructor
    · intro h
      exact ⟨a, rfl, h⟩
    · rintro ⟨a', ha, h⟩
      cases ha
      exact h

/-- What goes on behind a check has passed it. -/
theorem refuse_eq_ok {c : Prop} [Decidable c] {e : ε} {f : γ → Except ε β} {x : Except ε β} {b : β} :
    (if c then throw e >>= f else x) = .ok b ↔ ¬ c ∧ x = .ok b := by
  by_cases hc : c
  · rw [if_pos hc]
    constructor
    · intro h
      cases h
    · rintro ⟨hnot, -⟩
      exact absurd hc hnot
  · rw [if_neg hc]
    exact ⟨fun h => ⟨hc, h⟩, fun h => h.2⟩

theorem bind_ne_ok {x : Except ε α} {f : α → Except ε β} {b : β} (hf : ∀ a, f a ≠ .ok b) :
    x >>= f ≠ .ok b := by
  intro h
  rcases bind_eq_ok.mp h with ⟨a, -, ha⟩
  exact hf a ha

/-- A branch that does not result in `b` was not taken by a computation that does. -/
theorem passed_branch {c : Prop} [Decidable c] {x y : Except ε β} {b : β} (hx : x ≠ .ok b)
    (h : (if c then x else y) = .ok b) : ¬ c ∧ y = .ok b := by
  by_cases hc : c
  · rw [if_pos hc] at h
    exact absurd h hx
  · rw [if_neg hc] at h
    exact ⟨hc, h⟩

/-- Two computations that take the same way to a value, and go on alike from there but for a
function of what they result in. -/
theorem ite_bind_eq_map {c : Prop} [Decidable c] {x y : Except ε α} {f f' : α → Except ε β} {g : β → β}
    (h : ∀ a, f a = (f' a).map g) :
    (if c then x >>= f else y >>= f) = (if c then x >>= f' else y >>= f').map g := by
  have hbind (x : Except ε α) : x >>= f = (x >>= f').map g := by
    cases x with
    | error e => rfl
    | ok a => exact h a
  by_cases hc : c
  · rw [if_pos hc, if_pos hc, hbind]
  · rw [if_neg hc, if_neg hc, hbind]

theorem mapM_eq_ok {f : α → Except ε β} {xs : List α} {ys : List β} :
    xs.mapM f = .ok ys ↔ List.Forall₂ (fun x y => f x = .ok y) xs ys := by
  induction xs generalizing ys with
  | nil =>
    rw [List.forall₂_nil_left_iff]
    constructor
    · intro h
      cases h
      rfl
    · rintro rfl
      rfl
  | cons x rest ih =>
    rw [List.mapM_cons, List.forall₂_cons_left_iff]
    simp only [bind_eq_ok, ih]
    constructor
    · rintro ⟨y, hy, later, hlater, h⟩
      cases h
      exact ⟨y, later, hy, hlater, rfl⟩
    · rintro ⟨y, later, hy, hlater, rfl⟩
      exact ⟨y, hy, later, hlater, rfl⟩

theorem exists_of_mapM {f : α → Except ε β} {xs : List α} {ys : List β} {i : Nat} {y : β}
    (h : xs.mapM f = .ok ys) (hy : ys[i]? = some y) : ∃ x, xs[i]? = some x ∧ f x = .ok y := by
  rcases List.forall₂_iff_get.mp (mapM_eq_ok.mp h) with ⟨hlength, hget⟩
  rcases List.getElem?_eq_some_iff.mp hy with ⟨hi, rfl⟩
  have hi' : i < xs.length := hlength ▸ hi
  exact ⟨xs[i], List.getElem?_eq_getElem hi', hget i hi' hi⟩

/-- To work through a list and then through the results is to do both with each element. -/
theorem mapM_bind_mapM_eq_ok {f : α → Except ε β} {g : β → Except ε γ} {xs : List α}
    {zs : List γ} :
    (xs.mapM f >>= fun ys => ys.mapM g) = .ok zs ↔
      List.Forall₂ (fun x z => (f x >>= g) = .ok z) xs zs := by
  simp only [bind_eq_ok, mapM_eq_ok]
  constructor
  · rintro ⟨ys, hys, hzs⟩
    induction hys generalizing zs with
    | nil =>
      cases hzs
      exact .nil
    | @cons x y xs ys hy _ ih =>
      cases hzs with
      | cons hz hrest => exact .cons ⟨y, hy, hz⟩ (ih hrest)
  · intro h
    induction h with
    | nil => exact ⟨[], .nil, .nil⟩
    | cons hz _ ih =>
      obtain ⟨y, hy, hz⟩ := hz
      obtain ⟨ys, hys, hzs⟩ := ih
      exact ⟨y :: ys, .cons hy hys, .cons hz hzs⟩

/-- There is a list of partners if there is one for each element. -/
theorem exists_forall₂_iff {r : α → β → Prop} {xs : List α} :
    (∃ ys, List.Forall₂ r xs ys) ↔ ∀ x ∈ xs, ∃ y, r x y := by
  constructor
  · rintro ⟨ys, h⟩
    induction h with
    | nil => simp
    | cons hr _ ih => exact List.forall_mem_cons.mpr ⟨⟨_, hr⟩, ih⟩
  · intro h
    induction xs with
    | nil => exact ⟨[], .nil⟩
    | cons x rest ih =>
      obtain ⟨⟨y, hy⟩, hrest⟩ := List.forall_mem_cons.mp h
      obtain ⟨ys, hys⟩ := ih hrest
      exact ⟨y :: ys, .cons hy hys⟩

end Vswitch
