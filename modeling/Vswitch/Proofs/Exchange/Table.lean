import Mathlib
import Vswitch.Exchange.Table

/-!
# Laws of the pending table

Look-up after each operation of the table, and what an operation does to the keys. A table whose
keys differ is a permutation of any of its entries followed by the table without that entry
(`perm_cons_erase`); all counting over tables goes through that law.
-/

namespace Vswitch.PendingTable

/-- The sequence numbers of a table, in the order of registration. -/
def keys (t : PendingTable) : List UInt32 := t.map Prod.fst

variable {t : PendingTable} {s k : UInt32} {p : Pending}

@[simp] theorem length_keys (t : PendingTable) : (keys t).length = t.length := List.length_map _

/-! ## Look-up -/

/-- What is found under a number is an entry of the table. -/
theorem mem_of_find? (h : find? t s = some p) : (s, p) ∈ t := by
  induction t with
  | nil => simp [find?] at h
  | cons e rest ih =>
    rcases e with ⟨k, q⟩
    by_cases hk : s = k
    · simp only [find?, List.lookup, hk, beq_self_eq_true, Option.some.injEq] at h
      rw [hk, h]
      exact List.mem_cons_self
    · have hne : (s == k) = false := by simpa using hk
      simp only [find?, List.lookup, hne] at h
      exact List.mem_cons_of_mem _ (ih h)

/-- Nothing is found under a number just if no entry has it. -/
theorem find?_eq_none : find? t s = none ↔ s ∉ keys t := by
  induction t with
  | nil => simp [find?, keys]
  | cons e rest ih =>
    rcases e with ⟨k, q⟩
    by_cases hk : s = k
    · simp [find?, List.lookup, keys, hk]
    · have hne : (s == k) = false := by simpa using hk
      simp only [find?, keys, List.lookup, hne] at ih ⊢
      simp [ih, hk]

/-- With different keys, an entry is what the look-up of its key finds. -/
theorem find?_of_mem (hk : (keys t).Nodup) (h : (s, p) ∈ t) : find? t s = some p := by
  induction t with
  | nil => cases h
  | cons e rest ih =>
    rcases e with ⟨k, q⟩
    simp only [keys, List.map_cons, List.nodup_cons] at hk
    rcases List.mem_cons.mp h with heq | hrest
    · cases heq
      simp [find?, List.lookup]
    · have hne : (s == k) = false := by
        simp only [beq_eq_false_iff_ne]
        rintro rfl
        exact hk.1 (List.mem_map.mpr ⟨_, hrest, rfl⟩)
      simp only [find?, List.lookup, hne]
      exact ih hk.2 hrest

/-! ## Removal -/

/-- Erasing a number takes out its entries and no others. -/
theorem mem_erase {e : UInt32 × Pending} : e ∈ erase t s ↔ e ∈ t ∧ e.1 ≠ s := by
  simp [erase]

theorem keys_erase : keys (erase t s) = (keys t).filter (· != s) := by
  simp [keys, erase, List.filter_map, Function.comp_def]

/-- Erasing keeps the order of what is left. -/
theorem keys_erase_sublist : (keys (erase t s)).Sublist (keys t) := by
  rw [keys_erase]
  exact List.filter_sublist

/-- Removing a number that is not there changes nothing. -/
theorem erase_of_not_mem (h : s ∉ keys t) : erase t s = t := by
  refine List.filter_eq_self.mpr ?_
  intro e he
  have hne : e.1 ≠ s := by
    rintro rfl
    exact h (List.mem_map.mpr ⟨e, he, rfl⟩)
  simpa using hne

@[simp] theorem find?_erase_self : find? (erase t s) s = none := by
  simp [find?_eq_none, keys_erase]

/-- Erasing a number does not affect the others. -/
theorem find?_erase_of_ne (h : k ≠ s) : find? (erase t s) k = find? t k := by
  induction t with
  | nil => rfl
  | cons e rest ih =>
    rcases e with ⟨k', q⟩
    simp only [find?, erase] at ih ⊢
    by_cases hs : k' = s
    · have hne : (k == k') = false := by
        rw [hs]
        simpa using h
      rw [List.filter_cons_of_neg (by simpa using hs), List.lookup, hne, ih]
    · rw [List.filter_cons_of_pos (by simpa using hs), List.lookup, List.lookup, ih]

/-- With different keys, a table is one of its entries and the rest. -/
theorem perm_cons_erase (hk : (keys t).Nodup) (h : find? t s = some p) :
    t.Perm ((s, p) :: erase t s) := by
  induction t with
  | nil => simp [find?] at h
  | cons e rest ih =>
    rcases e with ⟨k, q⟩
    simp only [keys, List.map_cons, List.nodup_cons] at hk
    by_cases hs : s = k
    · subst hs
      have hq : q = p := by simpa [find?, List.lookup] using h
      have hrest : erase ((s, q) :: rest) s = rest := by
        have := erase_of_not_mem (t := rest) hk.1
        simpa [erase] using this
      rw [hrest, hq]
    · have hne : (s == k) = false := by simpa using hs
      have hfind : find? rest s = some p := by simpa only [find?, List.lookup, hne] using h
      have herase : erase ((k, q) :: rest) s = (k, q) :: erase rest s := by
        have : k ≠ s := fun hks => hs hks.symm
        simp [erase, this]
      rw [herase]
      exact ((ih hk.2 hfind).cons (k, q)).trans (List.Perm.swap _ _ _)

/-! ## Registration -/

/-- A request with a new number is listed last. -/
theorem insert_of_not_mem (h : s ∉ keys t) : insert t s p = t ++ [(s, p)] := by
  rw [insert, erase_of_not_mem h]

/-- Its number comes behind the others. -/
theorem keys_insert_of_not_mem (h : s ∉ keys t) : keys (insert t s p) = keys t ++ [s] := by
  rw [insert_of_not_mem h]
  simp [keys]

/-- What was registered last under a number is found under it, be it in place of another request. -/
theorem find?_insert_self : find? (insert t s p) s = some p := by
  have hnone : List.lookup s (erase t s) = none := find?_erase_self
  simp only [find?, insert, List.lookup_append, hnone, Option.none_or]
  simp [List.lookup]

/-- Other numbers are not affected by a registration. -/
theorem find?_insert_of_ne (h : k ≠ s) : find? (insert t s p) k = find? t k := by
  have hne : (k == s) = false := by simpa using h
  have herase : List.lookup k (erase t s) = List.lookup k t := find?_erase_of_ne h
  simp only [find?, insert, List.lookup_append, herase]
  simp [List.lookup, hne]

/-! ## Changes in place -/

variable {f : Pending → Pending}

/-- Changing a request leaves all numbers where they are. -/
@[simp] theorem keys_modify : keys (modify t s f) = keys t := by
  rw [keys, keys, modify, List.map_map]
  refine List.map_congr_left ?_
  intro e _
  simp only [Function.comp_apply]
  split <;> rfl

/-- So does the going away of a caller. -/
@[simp] theorem keys_abandon {ticket : Nat} : keys (abandon t ticket) = keys t := by
  simp [keys, abandon, Function.comp_def]

/-- A request that is changed is found changed. -/
theorem find?_modify_self (h : find? t s = some p) : find? (modify t s f) s = some (f p) := by
  induction t with
  | nil => simp [find?] at h
  | cons e rest ih =>
    rcases e with ⟨k, q⟩
    by_cases hs : s = k
    · subst hs
      have hq : q = p := by simpa [find?, List.lookup] using h
      simp [find?, modify, hq]
    · have hne : (s == k) = false := by simpa using hs
      have hks : k ≠ s := fun hks => hs hks.symm
      have hfind : find? rest s = some p := by simpa only [find?, List.lookup, hne] using h
      have hrest := ih hfind
      simp only [find?, modify] at hrest
      simp [find?, modify, List.lookup, hne, hks, hrest]

/-- The others are found as they were. -/
theorem find?_modify_of_ne (h : k ≠ s) : find? (modify t s f) k = find? t k := by
  induction t with
  | nil => rfl
  | cons e rest ih =>
    rcases e with ⟨k', q⟩
    simp only [find?, modify] at ih
    by_cases hs : k' = s
    · subst hs
      have hne : (k == k') = false := by simpa using h
      simp [find?, modify, List.lookup, hne, ih]
    · simp [find?, modify, List.lookup, hs, ih]

/-- Removing an entry removes whatever became of it. -/
theorem erase_modify : erase (modify t s f) s = erase t s := by
  induction t with
  | nil => rfl
  | cons e rest ih =>
    rcases e with ⟨k, q⟩
    simp only [erase, modify] at ih
    by_cases hs : k = s
    · simp [erase, modify, hs, ih]
    · simp [erase, modify, hs, ih]

/-- A request is found with its caller gone just if it was found before. -/
theorem find?_abandon {ticket : Nat} :
    find? (abandon t ticket) s = (find? t s).map (·.abandon ticket) := by
  induction t with
  | nil => rfl
  | cons e rest ih =>
    rcases e with ⟨k, q⟩
    simp only [find?, abandon] at ih
    by_cases hs : s = k
    · simp [find?, abandon, List.lookup, hs]
    · have hne : (s == k) = false := by simpa using hs
      simp [find?, abandon, List.lookup, hne, ih]

end Vswitch.PendingTable
