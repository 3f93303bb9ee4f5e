import Mathlib.Algebra.BigOperators.Group.Finset.Piecewise
import Mathlib.Algebra.BigOperators.Ring.Finset
import Mathlib.Data.Int.Order.Basic
import Mathlib.Algebra.Order.Group.Int

namespace WorkAtUPB.Census

/-!
# Counting threads by where they are

Programs keep counters of the threads in some place; `census f b` is what such a counter
stands for when `f` gives the place of every thread:

* `sum_comp_update`, `census_update` — one thread moves;
* `census_relabel` — all threads of one place move to another one;
* `census_pos_iff`, `census_nonneg` — reading a counter.
-/

variable {T β : Type*} [Fintype T] [DecidableEq β]

/-- The number of threads at `b`. -/
def census (f : T → β) (b : β) : ℤ := ((Finset.univ.filter fun t => f t = b).card : ℤ)

theorem census_nonneg (f : T → β) (b : β) : 0 ≤ census f b := Int.natCast_nonneg _

/-- A counter is positive exactly when it counts somebody. -/
theorem census_pos_iff (f : T → β) (b : β) : 0 < census f b ↔ ∃ t, f t = b := by
  unfold census
  rw [Int.natCast_pos, Finset.card_pos]
  constructor
  · rintro ⟨t, ht⟩
    exact ⟨t, (Finset.mem_filter.mp ht).2⟩
  · rintro ⟨t, ht⟩
    exact ⟨t, Finset.mem_filter.mpr ⟨Finset.mem_univ t, ht⟩⟩

/-- Nobody is at a place that no thread was put. -/
theorem census_const_of_ne {a b : β} (h : a ≠ b) : census (fun _ : T => a) b = 0 := by
  unfold census
  rw [Finset.filter_false_of_mem fun _ _ => h]
  rfl

theorem census_eq_sum (f : T → β) (b : β) : census f b = ∑ t, if f t = b then (1 : ℤ) else 0 := by
  unfold census
  rw [Finset.card_filter, Nat.cast_sum]
  exact Finset.sum_congr rfl fun t _ => by split <;> rfl

omit [DecidableEq β] in
/-- One thread moves to `y`: a sum over the places of all threads changes by its share. -/
theorem sum_comp_update [DecidableEq T] (g : β → ℤ) (f : T → β) (t : T) (y : β) :
    ∑ u, g (Function.update f t y u) = ∑ u, g (f u) - g (f t) + g y := by
  have hsum : ∀ h : T → β, ∑ u, g (h u) = g (h t) + ∑ u ∈ Finset.univ.erase t, g (h u) :=
    fun h => (Finset.add_sum_erase _ (fun u => g (h u)) (Finset.mem_univ t)).symm
  have hrest : ∑ u ∈ Finset.univ.erase t, g (Function.update f t y u) =
      ∑ u ∈ Finset.univ.erase t, g (f u) := by
    refine Finset.sum_congr rfl fun u hu => ?_
    rw [Function.update_of_ne (Finset.ne_of_mem_erase hu)]
  rw [hsum, hsum f, hrest, Function.update_self]
  omega

/-- One thread moves to `y`: one less where it was, one more where it goes. -/
theorem census_update [DecidableEq T] (f : T → β) (t : T) (y b : β) :
    census (Function.update f t y) b =
      census f b - (if f t = b then 1 else 0) + (if y = b then 1 else 0) := by
  rw [census_eq_sum, census_eq_sum]
  exact sum_comp_update (fun c => if c = b then 1 else 0) f t y

/-- All threads at `a` move to `b`: they are counted there, and nowhere else. -/
theorem census_relabel (f : T → β) {a b : β} (hab : a ≠ b) (c : β) :
    census (fun t => if f t = a then b else f t) c =
      if c = a then 0 else if c = b then census f a + census f b else census f c := by
  simp only [census_eq_sum]
  by_cases hca : c = a
  · rw [if_pos hca]
    refine Finset.sum_eq_zero fun t _ => if_neg ?_
    split
    · exact fun h => hab (hca ▸ h.symm)
    · exact fun h => absurd (h.trans hca) ‹_›
  rw [if_neg hca]
  by_cases hcb : c = b
  · rw [if_pos hcb, ← Finset.sum_add_distrib]
    refine Finset.sum_congr rfl fun t _ => ?_
    by_cases hta : f t = a
    · rw [if_pos hta, if_pos hcb.symm, if_pos hta, if_neg (hta ▸ hab)]
      rfl
    · rw [if_neg hta, if_neg hta, hcb, zero_add]
  · rw [if_neg hcb]
    refine Finset.sum_congr rfl fun t _ => ?_
    by_cases hta : f t = a
    · rw [if_pos hta, if_neg (Ne.symm hcb), hta, if_neg (Ne.symm hca)]
    · rw [if_neg hta]

end WorkAtUPB.Census
