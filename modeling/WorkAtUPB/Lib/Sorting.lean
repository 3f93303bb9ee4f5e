import Mathlib.Data.List.Sort

namespace WorkAtUPB.Sorting

open scoped List

/-!
# Sorted rearrangements

What a sorting algorithm promises about the list it returns, over any linear order, and the
two steps that sorting in place and sorting by merging are made of:

* `SortedPerm ys xs` — `ys` is `xs`, put in order;
* `SortedPerm.insert` — a value put where everything before it is at most it, and everything
  after it is greater;
* `pairwise_merge_lt` — two sorted lists merged by a strict comparison.
-/

variable {α : Type*} [LinearOrder α]

/-- `ys` holds the elements of `xs`, each as often as `xs` does, in ascending order. -/
structure SortedPerm (ys xs : List α) : Prop where
  sorted : ys.Pairwise (· ≤ ·)
  perm : ys.Perm xs

theorem SortedPerm.nil : SortedPerm ([] : List α) [] :=
  ⟨List.Pairwise.nil, List.Perm.refl _⟩

/-- A sorted list is sorted up to its last element: what is at least the last element is at
    least every element. -/
theorem le_of_le_getLast? {lo : List α} {value : α} (hlo : lo.Pairwise (· ≤ ·))
    (hlast : ∀ x ∈ lo.getLast?, x ≤ value) : ∀ x ∈ lo, x ≤ value := by
  intro x hx
  rcases List.eq_nil_or_concat lo with rfl | ⟨init, last, rfl⟩
  · cases hx
  · have hle : last ≤ value := hlast last (by simp)
    rw [List.concat_eq_append] at hlo hx
    rcases List.mem_append.mp hx with hx | hx
    · exact (List.pairwise_append.mp hlo).2.2 x hx last (by simp) |>.trans hle
    · rw [List.mem_singleton.mp hx]
      exact hle

/-- **Insertion.**  A value that fits between the two parts of a sorted rearrangement. -/
theorem SortedPerm.insert {lo hi xs : List α} {value : α} (h : SortedPerm (lo ++ hi) xs)
    (hlast : ∀ x ∈ lo.getLast?, x ≤ value) (hhi : ∀ x ∈ hi, value < x) :
    SortedPerm (lo ++ value :: hi) (xs ++ [value]) := by
  obtain ⟨hlo, hhi', hlohi⟩ := List.pairwise_append.mp h.sorted
  have hle := le_of_le_getLast? hlo hlast
  refine ⟨List.pairwise_append.mpr ⟨hlo, ?_, ?_⟩, ?_⟩
  · exact List.pairwise_cons.mpr ⟨fun x hx => (hhi x hx).le, hhi'⟩
  · intro x hx y hy
    rcases List.mem_cons.mp hy with rfl | hy
    · exact hle x hx
    · exact hlohi x hx y hy
  · calc lo ++ value :: hi
      _ ~ value :: (lo ++ hi) := List.perm_middle
      _ ~ value :: xs := h.perm.cons value
      _ ~ xs ++ [value] := (List.perm_append_singleton value xs).symm

/-- **Merging.**  A merge that takes from the first list only what is less than the head of
    the second keeps the order. -/
theorem pairwise_merge_lt {xs ys : List α} (hxs : xs.Pairwise (· ≤ ·))
    (hys : ys.Pairwise (· ≤ ·)) :
    (List.merge xs ys fun x y => decide (x < y)).Pairwise (· ≤ ·) := by
  fun_induction List.merge xs ys (fun x y => decide (x < y)) with
  | case1 ys => exact hys
  | case2 xs => exact hxs
  | case3 x xs y ys hlt ih =>
    have hlt : x < y := of_decide_eq_true hlt
    obtain ⟨hx, hxs⟩ := List.pairwise_cons.mp hxs
    refine List.pairwise_cons.mpr ⟨?_, ih hxs hys⟩
    intro z hz
    rcases List.mem_merge.mp hz with hz | hz
    · exact hx z hz
    · rcases List.mem_cons.mp hz with rfl | hz
      · exact hlt.le
      · exact hlt.le.trans ((List.pairwise_cons.mp hys).1 z hz)
  | case4 x xs y ys hlt ih =>
    have hle : y ≤ x := not_lt.mp fun h => hlt (decide_eq_true h)
    obtain ⟨hy, hys⟩ := List.pairwise_cons.mp hys
    refine List.pairwise_cons.mpr ⟨?_, ih hxs hys⟩
    intro z hz
    rcases List.mem_merge.mp hz with hz | hz
    · rcases List.mem_cons.mp hz with rfl | hz
      · exact hle
      · exact hle.trans ((List.pairwise_cons.mp hxs).1 z hz)
    · exact hy z hz

end WorkAtUPB.Sorting
