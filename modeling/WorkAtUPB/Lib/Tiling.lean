import Mathlib.Data.List.Basic
import Mathlib.Tactic.TypeStar

namespace WorkAtUPB.Tiling

/-!
# Lists cut into consecutive pieces

Pieces that start where the one before them ends cover a list once and in order:

* `flatten_consecutive` — such pieces, one behind the other, are the beginning of the list;
* `existsUnique_consecutive` — every index up to the end of the last one is in exactly one;
* `pieces` — the pieces of a fixed size, with a shorter one at the end;
* `flatten_pieces`, `length_mem_pieces`, `last_mem_pieces` — what they are together, and how
  long they are.
-/

variable {α : Type*}

/-! ### Consecutive ranges -/

section Consecutive

variable {offset size : Nat → Nat} {s : Nat} (hnext : ∀ i < s, offset (i + 1) = offset i + size i)

include hnext

/-- Pieces from the front of a list on, each behind the one before it, are a beginning of the
    list. -/
theorem flatten_consecutive (h0 : offset 0 = 0) (xs : List α) :
    ((List.range s).map fun i => (xs.drop (offset i)).take (size i)).flatten =
      xs.take (offset s) := by
  induction s with
  | zero => rw [h0, List.take_zero, List.range_zero, List.map_nil, List.flatten_nil]
  | succ s ih =>
    rw [List.range_succ, List.map_append, List.flatten_append,
      ih fun i hi => hnext i (Nat.lt_succ_of_lt hi), hnext s (Nat.lt_succ_self s), List.take_add]
    simp

theorem offset_mono {i j : Nat} (hij : i ≤ j) (hj : j ≤ s) : offset i ≤ offset j := by
  induction hij with
  | refl => exact Nat.le_refl _
  | @step j _ ih =>
    rw [hnext j hj]
    exact Nat.le_add_right_of_le (ih (Nat.le_of_succ_le hj))

/-- Every index in front of the end of the last range is in exactly one of the ranges. -/
theorem existsUnique_consecutive (h0 : offset 0 = 0) {x : Nat} (hx : x < offset s) :
    ∃! i, i < s ∧ offset i ≤ x ∧ x < offset i + size i := by
  obtain ⟨i, hi, hlo, hhi⟩ : ∃ i < s, offset i ≤ x ∧ x < offset i + size i := by
    induction s with
    | zero => omega
    | succ s ih =>
      by_cases hlt : x < offset s
      · obtain ⟨i, hi, hin⟩ := ih (fun i hi => hnext i (Nat.lt_succ_of_lt hi)) hlt
        exact ⟨i, Nat.lt_succ_of_lt hi, hin⟩
      · rw [hnext s (Nat.lt_succ_self s)] at hx
        exact ⟨s, Nat.lt_succ_self s, Nat.le_of_not_lt hlt, hx⟩
  refine ⟨i, ⟨hi, hlo, hhi⟩, ?_⟩
  -- Another range ends before this one starts, or starts behind its end.
  rintro j ⟨hj, hjlo, hjhi⟩
  rw [← hnext i hi] at hhi
  rw [← hnext j hj] at hjhi
  by_contra hne
  rcases Nat.lt_or_gt_of_ne hne with hlt | hlt
  · have hmono : offset (j + 1) ≤ offset i := offset_mono hnext hlt (Nat.le_of_lt hi)
    omega
  · have hmono : offset (i + 1) ≤ offset j := offset_mono hnext hlt (Nat.le_of_lt hj)
    omega

end Consecutive

/-! ### Pieces of a fixed size -/

/-- The consecutive pieces of `w` elements, with a shorter one at the end if there is a
    remainder. -/
def pieces (w : Nat) (xs : List α) : List (List α) :=
  (List.range ((xs.length + w - 1) / w)).map fun i => (xs.drop (w * i)).take w

section Pieces

variable {w : Nat} (hw : 0 < w)

include hw

/-- There is a piece `i` as long as there are elements behind the `i` pieces before it. -/
theorem lt_pieces_iff {n i : Nat} : i < (n + w - 1) / w ↔ w * i < n := by
  rw [Nat.lt_iff_add_one_le, Nat.le_div_iff_mul_le hw, Nat.add_mul, Nat.one_mul, Nat.mul_comm i]
  omega

/-- Together the pieces are the list. -/
theorem flatten_pieces (xs : List α) : (pieces w xs).flatten = xs := by
  rw [pieces, @flatten_consecutive α (fun i => w * i) (fun _ => w) _
    (fun i _ => Nat.mul_succ w i) (Nat.mul_zero w)]
  refine List.take_of_length_le (Nat.le_of_not_lt fun hlt => ?_)
  exact Nat.lt_irrefl _ ((lt_pieces_iff hw).mpr hlt)

/-- There are not more pieces than elements. -/
theorem length_pieces_le (xs : List α) : (xs.length + w - 1) / w ≤ xs.length := by
  refine Nat.le_of_not_lt fun hlt => ?_
  have hend := (lt_pieces_iff hw).mp hlt
  exact Nat.not_lt.mpr (Nat.le_mul_of_pos_left xs.length hw) hend

theorem mem_pieces {xs p : List α} :
    p ∈ pieces w xs ↔ ∃ i, w * i < xs.length ∧ (xs.drop (w * i)).take w = p := by
  rw [pieces, List.mem_map]
  refine exists_congr fun i => and_congr_left' ?_
  rw [List.mem_range, lt_pieces_iff hw]

/-- A piece is not empty, and not longer than `w`; the last one is the shortest. -/
theorem length_mem_pieces {xs p : List α} (hp : p ∈ pieces w xs) :
    0 < p.length ∧ p.length ≤ w ∧ (xs.length - 1) % w + 1 ≤ p.length := by
  obtain ⟨i, hi, rfl⟩ := (mem_pieces hw).mp hp
  rw [List.length_take, List.length_drop]
  have hmod := Nat.mod_lt (xs.length - 1) hw
  have hdiv := Nat.mod_add_div (xs.length - 1) w
  have hlast : w * i ≤ w * ((xs.length - 1) / w) := by
    refine Nat.mul_le_mul_left w ((Nat.le_div_iff_mul_le hw).mpr ?_)
    rw [Nat.mul_comm]
    omega
  omega

/-- The last piece. -/
theorem last_mem_pieces {xs : List α} (hxs : xs ≠ []) :
    ∃ p ∈ pieces w xs, p.length = (xs.length - 1) % w + 1 := by
  have hpos := List.length_pos_iff.mpr hxs
  have hdiv := Nat.mod_add_div (xs.length - 1) w
  have hmod := Nat.mod_lt (xs.length - 1) hw
  refine ⟨_, (mem_pieces hw).mpr ⟨(xs.length - 1) / w, by omega, rfl⟩, ?_⟩
  rw [List.length_take, List.length_drop]
  omega

end Pieces

end WorkAtUPB.Tiling
