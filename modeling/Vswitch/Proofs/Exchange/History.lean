import Mathlib
import Vswitch.Exchange.History

/-!
# What the history remembers

The queue and the set of a history hold the same numbers, and no more of them than there is room for. A
number that is remembered is not added again, any other stands last in the queue, and the first one
leaves when there are too many. After different numbers were remembered one after another, these are the
last of them.

* `History.InStep`, `History.InStep.insert`: the queue and the set never contradict each other;
* `History.insert_of_contains`, `History.order_insert`: what one more number does;
* `History.Bounded`, `History.Bounded.foldl_insert`: what any numbers keep, repeats included;
* `History.Recalls`, `History.Recalls.foldl_insert`: which numbers a history holds;
* `History.Recalls.contains_of_few`: a number is found as long as few others came after it;
* `History.keeps_last_inserted`: the history of any sequence of numbers.
-/

namespace Vswitch.History

variable {h : History} {s seq : UInt32} {past : List UInt32}

/-! ## Queue and set -/

/-- No number is queued twice, and the set holds each number of the queue once. -/
structure InStep (h : History) : Prop where
  nodup : h.order.Nodup
  perm : h.members.Perm h.order

theorem InStep.empty (capacity : Nat) : InStep (empty capacity) :=
  ⟨List.nodup_nil, List.Perm.nil⟩

/-- What the set finds is what the queue holds. -/
theorem InStep.contains_iff (hh : InStep h) : h.contains s = true ↔ s ∈ h.order := by
  rw [contains, List.contains_iff_mem, hh.perm.mem_iff]

/-- A number that is new is added to both. -/
theorem InStep.push (hh : InStep h) (hnew : seq ∉ h.order) : InStep (h.push seq) where
  nodup := by
    rw [History.push, ← List.concat_eq_append, List.nodup_concat]
    exact ⟨hnew, hh.nodup⟩
  perm := (hh.perm.cons seq).trans (List.perm_append_singleton seq h.order).symm

/-- The oldest number leaves both. -/
theorem InStep.forget (hh : InStep h) : InStep h.forget := by
  unfold History.forget
  rcases horder : h.order with _ | ⟨oldest, rest⟩
  · exact hh
  have hnodup := hh.nodup
  rw [horder, List.nodup_cons] at hnodup
  refine ⟨hnodup.2, ?_⟩
  -- the oldest number is queued once, so the set keeps all of the rest
  have hrest : (oldest :: rest).filter (· != oldest) = rest := by
    rw [List.filter_cons_of_neg (by simp), List.filter_eq_self]
    intro s hs
    exact bne_iff_ne.mpr fun heq => hnodup.1 (heq ▸ hs)
  have hperm := hh.perm.filter (· != oldest)
  rw [horder, hrest] at hperm
  exact hperm

/-- Queue and set stay in step, whatever number is inserted. -/
theorem InStep.insert (hh : InStep h) (seq : UInt32) : InStep (h.insert seq) := by
  unfold History.insert
  split_ifs with hskip hfull
  · exact hh
  all_goals
    have hnew : seq ∉ h.order := fun hmem => hskip (.inr (hh.contains_iff.mpr hmem))
  · exact (hh.push hnew).forget
  · exact hh.push hnew

/-! ## The queue -/

@[simp] theorem capacity_forget : h.forget.capacity = h.capacity := by
  unfold forget
  split <;> rfl

/-- Inserting never changes the capacity. -/
@[simp] theorem capacity_insert : (h.insert seq).capacity = h.capacity := by
  unfold insert
  split_ifs
  · rfl
  · exact capacity_forget
  · rfl

/-- Nor does any sequence of inserts. -/
theorem capacity_foldl_insert {l : List UInt32} :
    (l.foldl insert h).capacity = h.capacity := by
  induction l generalizing h with
  | nil => rfl
  | cons s l ih => rw [List.foldl_cons, ih, capacity_insert]

/-- Forgetting drops the number at the front of the queue. -/
theorem order_forget : h.forget.order = h.order.drop 1 := by
  unfold forget
  rcases horder : h.order with _ | ⟨oldest, rest⟩
  · exact horder
  · rfl

/-- A number that is remembered changes nothing. -/
theorem insert_of_contains (hknown : h.contains seq = true) : h.insert seq = h := by
  unfold insert
  rw [if_pos (.inr hknown)]

/-- Any other number stands last in the queue, and the first one leaves when there are too many. -/
theorem order_insert (hroom : h.order.length ≤ h.capacity) (hunknown : h.contains seq = false) :
    (h.insert seq).order = (h.order ++ [seq]).drop (h.order.length + 1 - h.capacity) := by
  have hlonger : (h.push seq).order.length = h.order.length + 1 := by
    rw [push, List.length_append, List.length_singleton]
  unfold insert
  by_cases hcapacity : h.capacity = 0
  · -- without room the number itself is the one that is too many
    rw [hcapacity, Nat.le_zero, List.length_eq_zero_iff] at hroom
    rw [if_pos (.inl hcapacity), hcapacity, hroom]
    rfl
  have hopen : ¬ (h.capacity = 0 ∨ h.contains seq = true) := by
    rintro (hzero | hknown)
    · exact hcapacity hzero
    · exact Bool.false_ne_true (hunknown.symm.trans hknown)
  rw [if_neg hopen]
  split_ifs with hfull
  · have hone : h.order.length + 1 - h.capacity = 1 := by omega
    rw [order_forget, hone]
    rfl
  · have hnone : h.order.length + 1 - h.capacity = 0 := by omega
    rw [hnone]
    rfl

/-! ## Room -/

/-- What a history keeps, whatever it is told: queue and set are in step, and there are no more numbers
than there is room for. -/
structure Bounded (h : History) : Prop extends InStep h where
  length_le : h.order.length ≤ h.capacity

namespace Bounded

theorem empty (capacity : Nat) : Bounded (History.empty capacity) :=
  ⟨.empty capacity, Nat.zero_le _⟩

/-- An insert evicts one number if the history is full, and so it never holds too many. -/
theorem insert (hh : Bounded h) (seq : UInt32) : Bounded (h.insert seq) := by
  refine ⟨hh.toInStep.insert seq, ?_⟩
  have hroom := hh.length_le
  rw [capacity_insert]
  by_cases hknown : h.contains seq = true
  · rw [insert_of_contains hknown]
    exact hroom
  · rw [order_insert hroom (Bool.eq_false_iff.mpr hknown), List.length_drop, List.length_append,
      List.length_singleton]
    omega

/-- Nor does any sequence of inserts, however often a number comes again. -/
theorem foldl_insert (hh : Bounded h) (seqs : List UInt32) : Bounded (seqs.foldl History.insert h) := by
  induction seqs generalizing h with
  | nil => exact hh
  | cons seq later ih => exact ih (hh.insert seq)

end Bounded

/-! ## The last numbers -/

/-- The history of the numbers `past`, all different: it holds the last ones. -/
structure Recalls (h : History) (past : List UInt32) : Prop extends InStep h where
  order : h.order = past.drop (past.length - h.capacity)

namespace Recalls

theorem empty (capacity : Nat) : Recalls (History.empty capacity) [] :=
  ⟨.empty capacity, List.drop_nil.symm⟩

/-- A number that is new is recalled, and the oldest is forgotten if there is no room for both. -/
theorem insert (hh : Recalls h past) (hnew : seq ∉ past) :
    Recalls (h.insert seq) (past ++ [seq]) := by
  refine ⟨hh.toInStep.insert seq, ?_⟩
  have hunknown : h.contains seq = false := by
    rw [Bool.eq_false_iff, Ne, hh.contains_iff, hh.order]
    exact fun hmem => hnew (List.mem_of_mem_drop hmem)
  have hlength : h.order.length = past.length - (past.length - h.capacity) := by
    rw [hh.order, List.length_drop]
  have hroom : h.order.length ≤ h.capacity := by omega
  have hpushed : h.order ++ [seq] = (past ++ [seq]).drop (past.length - h.capacity) := by
    rw [List.drop_append_of_le_length (Nat.sub_le _ _), ← hh.order]
  rw [order_insert hroom hunknown, hpushed, List.drop_drop, capacity_insert, List.length_append,
    List.length_singleton]
  congr 1
  omega

/-- Of numbers that are all different, the last ones are recalled. -/
theorem foldl_insert (hh : Recalls h past) {later : List UInt32} (hnodup : (past ++ later).Nodup) :
    Recalls (later.foldl History.insert h) (past ++ later) := by
  induction later generalizing h past with
  | nil =>
    rw [List.append_nil]
    exact hh
  | cons seq later ih =>
    have hsplit : past ++ seq :: later = past ++ [seq] ++ later := by simp
    rw [hsplit] at hnodup ⊢
    have hfront := (List.nodup_append.mp hnodup).1
    rw [← List.concat_eq_append, List.nodup_concat] at hfront
    exact ih (hh.insert hfront.1) hnodup

/-- A number is found as long as fewer others came after it than there is room for. -/
theorem contains_of_few {earlier later : List UInt32} (hh : Recalls h (earlier ++ s :: later))
    (hfew : later.length < h.capacity) : h.contains s = true := by
  have hlast : (s :: later).Sublist
      ((earlier ++ s :: later).drop ((earlier ++ s :: later).length - h.capacity)) := by
    rw [List.drop_append_of_le_length (by simp; omega)]
    exact List.sublist_append_right _ _
  rw [hh.contains_iff, hh.order]
  exact hlast.subset List.mem_cons_self

end Recalls

/-! ## Any sequence -/

/-- The history of a sequence of numbers, remembered one after another. -/
def ofInserts (capacity : Nat) (seqs : List UInt32) : History := seqs.foldl insert (empty capacity)

theorem capacity_ofInserts (capacity : Nat) (seqs : List UInt32) :
    (ofInserts capacity seqs).capacity = capacity := capacity_foldl_insert

theorem bounded_ofInserts (capacity : Nat) (seqs : List UInt32) : Bounded (ofInserts capacity seqs) :=
  (Bounded.empty capacity).foldl_insert seqs

/-- Numbers are remembered one after another, repeats included. Then no number is queued twice, there are
no more than there is room for, the set holds each of them once, and exactly these are found. One more
number changes nothing if it is found; any other stands last, and the first one leaves when there are
too many. If all numbers were different, those are found that came last, as many as there is room for;
without room nothing is ever found. -/
theorem keeps_last_inserted (capacity : Nat) (seqs : List UInt32) :
    (ofInserts capacity seqs).order.Nodup ∧
      (ofInserts capacity seqs).order.length ≤ capacity ∧
      (ofInserts capacity seqs).members.Perm (ofInserts capacity seqs).order ∧
      (∀ s, (ofInserts capacity seqs).contains s = true ↔ s ∈ (ofInserts capacity seqs).order) ∧
      (∀ s, (ofInserts capacity seqs).contains s = true →
        (ofInserts capacity seqs).insert s = ofInserts capacity seqs) ∧
      (∀ s, (ofInserts capacity seqs).contains s = false →
        ((ofInserts capacity seqs).insert s).order =
          ((ofInserts capacity seqs).order ++ [s]).drop
            ((ofInserts capacity seqs).order.length + 1 - capacity)) ∧
      (seqs.Nodup → ∀ s, (ofInserts capacity seqs).contains s = true ↔
        s ∈ seqs.drop (seqs.length - capacity)) ∧
      (capacity = 0 → ∀ s, (ofInserts capacity seqs).contains s = false) := by
  have hbounded := bounded_ofInserts capacity seqs
  have hcapacity := capacity_ofInserts capacity seqs
  have hlength := hbounded.length_le
  rw [hcapacity] at hlength
  -- no duplicates and the bound hold of any sequence; the rest is one insert at a time
  refine ⟨hbounded.nodup, hlength, hbounded.perm, fun s => hbounded.contains_iff, ?_, ?_, ?_, ?_⟩
  · intro s hfound
    exact insert_of_contains hfound
  · intro s hunknown
    rw [order_insert hbounded.length_le hunknown, hcapacity]
  · intro hnodup s
    have hlast : Recalls (ofInserts capacity seqs) seqs := (Recalls.empty capacity).foldl_insert hnodup
    rw [hlast.contains_iff, hlast.order, hcapacity]
  · intro hzero s
    have hempty : (ofInserts capacity seqs).order = [] :=
      List.eq_nil_of_length_eq_zero (Nat.le_zero.mp (hzero ▸ hlength))
    rw [Bool.eq_false_iff, Ne, hbounded.contains_iff, hempty]
    exact List.not_mem_nil

/-- Room for two: the first number is repeated while it is there, evicted, and remembered again; a fourth
number evicts the one that has stood there for longest, though it was not the last to be named. -/
theorem keeps_last_inserted_repeated :
    (ofInserts 2 [7, 7, 8, 9, 7, 9]).contains 9 = true ∧
      (ofInserts 2 [7, 7, 8, 9, 7, 9]).insert 9 = ofInserts 2 [7, 7, 8, 9, 7, 9] ∧
      (ofInserts 2 [7, 7, 8, 9, 7, 9]).contains 5 = false ∧
      ((ofInserts 2 [7, 7, 8, 9, 7, 9]).insert 5).order = [7, 5] ∧
      ([7, 8, 9] : List UInt32).Nodup ∧ (ofInserts 2 [7, 8, 9]).contains 8 = true ∧
      (0 = 0 ∧ (ofInserts 0 [7, 7]).contains 7 = false) := by
  have hfound : (ofInserts 2 [7, 7, 8, 9, 7, 9]).contains 9 = true := by decide
  have hunknown : (ofInserts 2 [7, 7, 8, 9, 7, 9]).contains 5 = false := by decide
  have hnodup : ([7, 8, 9] : List UInt32).Nodup := by decide
  obtain ⟨-, -, -, -, hsame, hnext, -, -⟩ := keeps_last_inserted 2 [7, 7, 8, 9, 7, 9]
  obtain ⟨-, -, -, -, -, -, hlast, -⟩ := keeps_last_inserted 2 [7, 8, 9]
  obtain ⟨-, -, -, -, -, -, -, hnothing⟩ := keeps_last_inserted 0 [7, 7]
  exact ⟨hfound, hsame 9 hfound, hunknown, hnext 5 hunknown, hnodup, (hlast hnodup 8).mpr (by decide),
    rfl, hnothing rfl 7⟩

end Vswitch.History
