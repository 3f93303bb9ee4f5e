import Mathlib.Algebra.BigOperators.Group.Finset.Basic
import Mathlib.Algebra.Order.Monoid.Defs
import Mathlib.Order.Bounds.Basic

namespace WorkAtUPB.Layers

open scoped BigOperators

/-!
# Cheapest paths through layers

A path takes one position in each layer, and consecutive positions are neighbours.  It costs what
its positions cost together:

* `IsPath`, `cost` — the paths to a position of a layer, and what they cost;
* `Cheapest` — the least cost of a path to a position;
* `cheapest_zero`, `Cheapest.succ` — the least costs of a layer, from those of the layer before;
* `Greedy`, `walkBack` — a path that is least in the last layer and goes back from each position to
  a least neighbour, and the path that a choice of neighbours walks back;
* `greedy_walkBack` — it is greedy if the choice takes a least neighbour everywhere.
-/

variable {ι C : Type*} [AddCommMonoid C]

/-- A path through the layers from 0 to `i` that ends at `j`. -/
structure IsPath (inside : ι → Prop) (near : ι → ι → Prop) (i : ℕ) (j : ι) (path : ℕ → ι) :
    Prop where
  last : path i = j
  near : ∀ k < i, near (path k) (path (k + 1))
  inside : ∀ k ≤ i, inside (path k)

/-- What the positions of a path through the layers from 0 to `i` cost. -/
def cost (e : ℕ → ι → C) (i : ℕ) (path : ℕ → ι) : C := ∑ k ∈ Finset.range (i + 1), e k (path k)

variable {inside : ι → Prop} {near : ι → ι → Prop} {e : ℕ → ι → C} {i : ℕ} {j : ι}
  {path : ℕ → ι}

theorem cost_succ (e : ℕ → ι → C) (i : ℕ) (path : ℕ → ι) :
    cost e (i + 1) path = cost e i path + e (i + 1) (path (i + 1)) :=
  Finset.sum_range_succ _ _

/-- A path without its end. -/
theorem IsPath.init (h : IsPath inside near (i + 1) j path) :
    IsPath inside near i (path i) path where
  last := rfl
  near k hk := h.near k (Nat.lt_succ_of_lt hk)
  inside k hk := h.inside k (Nat.le_succ_of_le hk)

/-- A path goes on to a neighbour of its end. -/
theorem IsPath.extend {j' : ι} (h : IsPath inside near i j' path) (hnear : near j' j)
    (hinside : inside j) : IsPath inside near (i + 1) j (Function.update path (i + 1) j) := by
  have hold : ∀ k ≤ i, Function.update path (i + 1) j k = path k := fun k hk =>
    Function.update_of_ne (by omega) _ _
  refine ⟨Function.update_self .., ?_, ?_⟩
  · intro k hk
    rcases Nat.lt_succ_iff_lt_or_eq.mp hk with hk | rfl
    · rw [hold k hk.le, hold (k + 1) hk]
      exact h.near k hk
    · rw [hold k le_rfl, Function.update_self, h.last]
      exact hnear
  · intro k hk
    rcases Nat.le_succ_iff.mp hk with hk | rfl
    · rw [hold k hk]
      exact h.inside k hk
    · rw [Function.update_self]
      exact hinside

theorem cost_extend (e : ℕ → ι → C) (path : ℕ → ι) (j : ι) :
    cost e (i + 1) (Function.update path (i + 1) j) = cost e i path + e (i + 1) j := by
  rw [cost_succ, Function.update_self]
  congr 1
  refine Finset.sum_congr rfl fun k hk => ?_
  have hk := Finset.mem_range.mp hk
  rw [Function.update_of_ne (by omega)]

/-! ### Least costs -/

variable [LinearOrder C]

/-- No path to the position costs less, and one costs as much. -/
def Cheapest (inside : ι → Prop) (near : ι → ι → Prop) (e : ℕ → ι → C) (i : ℕ) (j : ι) (c : C) :
    Prop :=
  IsLeast {c | ∃ path, IsPath inside near i j path ∧ cost e i path = c} c

/-- In the first layer a path is one position. -/
theorem cheapest_zero (hinside : inside j) : Cheapest inside near e 0 j (e 0 j) := by
  constructor
  · refine ⟨fun _ => j, ⟨rfl, fun k hk => absurd hk (Nat.not_lt_zero k), fun _ _ => hinside⟩, ?_⟩
    simp [cost]
  · rintro c ⟨path, hpath, rfl⟩
    simp [cost, hpath.last]

/-- **Optimal substructure.**  A cheapest path goes on from the cheapest of the neighbours. -/
theorem Cheapest.succ [IsOrderedAddMonoid C] {M : ι → C} {m : C} (hinside : inside j)
    (hM : ∀ j', inside j' → Cheapest inside near e i j' (M j'))
    (hm : IsLeast {c | ∃ j', inside j' ∧ near j' j ∧ M j' = c} m) :
    Cheapest inside near e (i + 1) j (m + e (i + 1) j) := by
  obtain ⟨⟨j', hinside', hnear, rfl⟩, hle⟩ := hm
  constructor
  · obtain ⟨path, hpath, hcost⟩ := (hM j' hinside').1
    exact ⟨_, hpath.extend hnear hinside, by rw [cost_extend, hcost]⟩
  · rintro c ⟨path, hpath, rfl⟩
    have hnear' : near (path i) j := hpath.last ▸ hpath.near i (Nat.lt_succ_self i)
    have hinside' : inside (path i) := hpath.inside i (Nat.le_succ i)
    have hbest : M (path i) ≤ cost e i path := (hM (path i) hinside').2 ⟨path, hpath.init, rfl⟩
    rw [cost_succ, hpath.last]
    exact add_le_add_left ((hle ⟨path i, hinside', hnear', rfl⟩).trans hbest) _

/-! ### Walking back -/

section

variable {V : Type*} [LE V]

/-- A path through the layers from 0 to `i` that is least in the last layer, and whose position in
    each layer before is least among the neighbours of the position behind it. -/
structure Greedy (inside : ι → Prop) (near : ι → ι → Prop) (value : ℕ → ι → V) (i : ℕ)
    (path : ℕ → ι) : Prop where
  isPath : IsPath inside near i (path i) path
  last : ∀ j, inside j → value i (path i) ≤ value i j
  least : ∀ k < i, ∀ j, inside j → near j (path (k + 1)) → value k (path k) ≤ value k j

/-- The path that is walked back from `j` in the layer `i`, if `next k j'` is the position in the
    layer `k` that is taken after `j'` in the layer behind. -/
def walkBack (next : ℕ → ι → ι) : ℕ → ι → ℕ → ι
  | 0, j => fun _ => j
  | i + 1, j => Function.update (walkBack next i (next i j)) (i + 1) j

variable {value : ℕ → ι → V} {next : ℕ → ι → ι}

@[simp] theorem walkBack_self (next : ℕ → ι → ι) (i : ℕ) (j : ι) : walkBack next i j i = j := by
  cases i with
  | zero => rfl
  | succ i => exact Function.update_self ..

/-- In the layers before the last one, the walk is the one from the next position. -/
theorem walkBack_of_le (next : ℕ → ι → ι) {i k : ℕ} (j : ι) (hk : k ≤ i) :
    walkBack next (i + 1) j k = walkBack next i (next i j) k :=
  Function.update_of_ne (by omega) _ _

/-- A walk that stays inside, and goes to neighbours only, is a path. -/
theorem isPath_walkBack (hinside : ∀ k j, inside j → inside (next k j))
    (hnear : ∀ k j, inside j → near (next k j) j) (hj : inside j) :
    IsPath inside near i j (walkBack next i j) := by
  induction i generalizing j with
  | zero => exact ⟨rfl, fun k hk => absurd hk (Nat.not_lt_zero k), fun _ _ => hj⟩
  | succ i ih => exact (ih (hinside i j hj)).extend (hnear i j hj) hj

/-- A walk that takes a least neighbour everywhere has least neighbours in all layers. -/
theorem walkBack_least (hinside : ∀ k j, inside j → inside (next k j))
    (hleast : ∀ k j, inside j → ∀ j', inside j' → near j' j → value k (next k j) ≤ value k j')
    (hj : inside j) {k : ℕ} (hk : k < i) {j' : ι} (hj' : inside j')
    (hnear : near j' (walkBack next i j (k + 1))) :
    value k (walkBack next i j k) ≤ value k j' := by
  induction i generalizing j with
  | zero => exact absurd hk (Nat.not_lt_zero k)
  | succ i ih =>
    rw [walkBack_of_le next j (Nat.lt_succ_iff.mp hk)]
    rcases Nat.lt_succ_iff_lt_or_eq.mp hk with hk | rfl
    · rw [walkBack_of_le next j hk] at hnear
      exact ih (hinside i j hj) hk hnear
    · rw [walkBack_self] at hnear ⊢
      exact hleast k j hj j' hj' hnear

/-- **Greedy walks.**  A walk from a least position of the last layer that takes a least neighbour
    everywhere is a greedy path. -/
theorem greedy_walkBack (hinside : ∀ k j, inside j → inside (next k j))
    (hnear : ∀ k j, inside j → near (next k j) j)
    (hleast : ∀ k j, inside j → ∀ j', inside j' → near j' j → value k (next k j) ≤ value k j')
    (hj : inside j) (hlast : ∀ j', inside j' → value i j ≤ value i j') :
    Greedy inside near value i (walkBack next i j) where
  isPath := by
    rw [walkBack_self]
    exact isPath_walkBack hinside hnear hj
  last := by
    rw [walkBack_self]
    exact hlast
  least _ hk _ hj' hnear := walkBack_least hinside hleast hj hk hj' hnear

end

end WorkAtUPB.Layers
