import Mathlib.Algebra.Order.Group.Int
import WorkAtUPB.ImageQuilting.Quilt
import WorkAtUPB.Lib.Layers

namespace WorkAtUPB.ImageQuilting

open Layers

/-!
# What the matrix of a seam costs

A seam takes one position in each line of a strip, at most one further on in each line than in the
line before.  The comment on the matrix `E` of `orizontal_merge` and `vertical_merge` wants the
least error of a seam in it:

* `near`, `Seam` — neighbouring positions, and the errors of the seams to a position;
* `isLeast_costs_succ` — an entry of `E` is the least of its neighbours in the line before;
* `seamCosts_iff` — it is the least error of a seam exactly if only the first line has errors.

The recurrence of the source leaves out the error of the position itself.
-/

/-- Positions that differ by at most one. -/
def near (j' j : Nat) : Prop := j' ≤ j + 1 ∧ j ≤ j' + 1

/-- The entries of `E` are the least errors of seams, for a strip of `lines` lines of `size`
    positions. -/
def SeamCosts (e : Nat → Nat → Int32) (size lines : Nat) : Prop :=
  ∀ i < lines, ∀ j < size,
    Cheapest (· < size) near (fun i j => (e i j).toInt) i j (costs e size i j).toInt

/-! ### The recurrence -/

theorem toInt_MIN (a b : Int32) : (MIN a b).toInt = min a.toInt b.toInt := by
  unfold MIN
  split
  · next h => exact (min_eq_left (Int32.lt_iff_toInt_lt.mp h).le).symm
  · next h => exact (min_eq_right (Int.not_lt.mp fun hlt => h (Int32.lt_iff_toInt_lt.mpr hlt))).symm

/-- The least of the values at listed neighbours, if all neighbours are listed. -/
theorem isLeast_of_neighbours {f : Nat → Int} {size j : Nat} {c : Int} (js : List Nat)
    (hjs : ∀ j', j' ∈ js ↔ j' < size ∧ near j' j) (hmem : ∃ j' ∈ js, f j' = c)
    (hle : ∀ j' ∈ js, c ≤ f j') : IsLeast {c | ∃ j', j' < size ∧ near j' j ∧ f j' = c} c := by
  constructor
  · obtain ⟨j', hj', hc⟩ := hmem
    exact ⟨j', ((hjs j').mp hj').1, ((hjs j').mp hj').2, hc⟩
  · rintro _ ⟨k, hk, hnear, rfl⟩
    exact hle k ((hjs k).mpr ⟨hk, hnear⟩)

/-- An entry is the least of its neighbours in the line before, also at both ends of the line. -/
theorem isLeast_costs_succ (e : Nat → Nat → Int32) {size : Nat} (hsize : 2 ≤ size) (i : Nat)
    {j : Nat} (hj : j < size) :
    IsLeast {c | ∃ j', j' < size ∧ near j' j ∧ (costs e size i j').toInt = c}
      (costs e size (i + 1) j).toInt := by
  have hentry : (costs e size (i + 1) j).toInt =
      if j = 0 then min (costs e size i 0).toInt (costs e size i 1).toInt
      else if j = size - 1 then
        min (costs e size i (size - 2)).toInt (costs e size i (size - 1)).toInt
      else min (costs e size i (j - 1)).toInt
        (min (costs e size i j).toInt (costs e size i (j + 1)).toInt) := by
    simp only [costs, apply_ite Int32.toInt, toInt_MIN]
  -- The neighbours are two at either end, and three elsewhere.
  rw [hentry]
  split
  · apply isLeast_of_neighbours [0, 1]
    · intro j'
      simp [near]
      omega
    · simp
      omega
    · simp
  split
  · apply isLeast_of_neighbours [size - 2, size - 1]
    · intro j'
      simp [near]
      omega
    · simp
      omega
    · simp
  · apply isLeast_of_neighbours [j - 1, j, j + 1]
    · intro j'
      simp [near]
      omega
    · simp
      omega
    · simp

/-! ### Seams -/

/-- **Seam cost.**  Every entry of `E` is the least error of a seam to it exactly if there are no
    errors behind the first line. -/
theorem seamCosts_iff (e : Nat → Nat → Int32) (size lines : Nat) (hsize : 2 ≤ size) :
    SeamCosts e size lines ↔ ∀ i < lines, 0 < i → ∀ j < size, e i j = 0 := by
  -- From one line to the next, the entry lacks the error of its position.
  have hsucc : ∀ i, (∀ j < size, Cheapest (· < size) near (fun i j => (e i j).toInt) i j
      (costs e size i j).toInt) → ∀ j < size,
      Cheapest (· < size) near (fun i j => (e i j).toInt) (i + 1) j
        ((costs e size (i + 1) j).toInt + (e (i + 1) j).toInt) := by
    intro i hi j hj
    exact Cheapest.succ hj hi (isLeast_costs_succ e hsize i hj)
  constructor
  · intro h i hi hpos j hj
    obtain ⟨i, rfl⟩ : ∃ k, i = k + 1 := ⟨i - 1, by omega⟩
    have hexact := hsucc i (h i (Nat.lt_of_succ_lt hi)) j hj
    have hsame := (h (i + 1) hi j hj).unique hexact
    rw [← Int32.toInt_inj, Int32.toInt_zero]
    omega
  · intro h i hi
    induction i with
    | zero => exact fun j hj => cheapest_zero hj
    | succ i ih =>
      intro j hj
      have hexact := hsucc i (ih (Nat.lt_of_succ_lt hi)) j hj
      rwa [h (i + 1) hi i.succ_pos j hj, Int32.toInt_zero, Int.add_zero] at hexact

/-- A strip with errors in its first line. -/
theorem seamCosts_first : SeamCosts (fun i j => if i = 0 then Int32.ofNat j else 0) 3 4 :=
  (seamCosts_iff _ 3 4 (by decide)).mpr fun i _ hi j _ => if_neg hi.ne'

/-- A picture of four columns and two rows, where one pixel of the second row differs. -/
def spotted : Picture where
  width := 4
  height := 2
  maxColor := 255
  image := fun i => if i = 4 then ⟨1, 0, 0⟩ else ⟨0, 0, 0⟩

/-- The strips at the columns 0 and 2 of that picture: no seam to the first position of the second
    row is without error, and the entry of `E` is 0. -/
theorem not_seamCosts :
    ¬ ∀ (e : Nat → Nat → Int32) (size lines : Nat), 2 ≤ size → SeamCosts e size lines := by
  intro h
  obtain ⟨path, hpath, hcost⟩ := (h (errors spotted 0 2) 2 2 (by decide) 1 (by decide) 0
    (by decide)).1
  have hE : (costs (errors spotted 0 2) 2 1 0).toInt = 0 := by decide
  have hfirst : ∀ j < 2, (errors spotted 0 2 0 j).toInt = 0 := by decide
  have hsecond : (errors spotted 0 2 1 0).toInt = 1 := by decide
  rw [hE, cost_succ, hpath.last, hsecond] at hcost
  simp [cost, hfirst (path 0) (hpath.inside 0 (Nat.zero_le 1))] at hcost

end WorkAtUPB.ImageQuilting
