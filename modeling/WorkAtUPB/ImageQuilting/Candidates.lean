import Mathlib.Algebra.BigOperators.Ring.Finset
import Mathlib.Algebra.Order.BigOperators.Group.Finset
import Mathlib.Algebra.Order.Ring.Abs
import Mathlib.Algebra.Order.Ring.Int
import WorkAtUPB.ImageQuilting.Quilt
import WorkAtUPB.Lib.Least

namespace WorkAtUPB.ImageQuilting

open Least Raster
open scoped BigOperators

/-!
# The candidate of a patch

For each patch some offsets are drawn, and the strip of each candidate is compared with the strip
that it would lie upon:

* `verticalDif`, `orizontalDif` — the differences, summed up in an `int`;
* `chooseCandidate` — the loop over the candidates of a patch;
* `quiltDrawn`, `quiltDrawn_eq_quilt` — the loop over the patches, which is a `quilt`;
* `BestChosen` — the sums are exact, and a candidate with the least one is chosen;
* `bestChosen_iff` — when this is so.

Sums below 2^31 are exact.  The loop takes a candidate only if its sum is below 2^30; otherwise the
offset of the patch before stays, or -1.
-/

/-! ### Differences -/

/-- The squared differences of the channels. -/
def Pixel.distance (p1 p2 : Pixel) : Int :=
  (p1.red.toInt - p2.red.toInt) ^ 2 + (p1.green.toInt - p2.green.toInt) ^ 2 +
    (p1.blue.toInt - p2.blue.toInt) ^ 2

/-- The loops of a `dif`, over `n` times `m` pairs of cells. -/
def dif (pout : Picture) (n m : Nat) (first second : Nat → Nat → Int × Int) : Int32 :=
  Nat.fold n (fun i _ diff =>
    Nat.fold m (fun j _ diff =>
      diff + Pixel.compare (pout.get (first i j).1 (first i j).2)
        (pout.get (second i j).1 (second i j).2)) diff) 0

/-- What the loops add up, exactly. -/
def exactDif (pout : Picture) (n m : Nat) (first second : Nat → Nat → Int × Int) : Int :=
  ∑ i ∈ Finset.range n, ∑ j ∈ Finset.range m,
    Pixel.distance (pout.get (first i j).1 (first i j).2) (pout.get (second i j).1 (second i j).2)

/-- `vertical_dif`. -/
def verticalDif (pout : Picture) (offCandidat offAdd dimFasieHeight : Int) (width : Nat) : Int32 :=
  dif pout width dimFasieHeight.toNat (fun i j => (offCandidat + j, i))
    (fun i j => (offAdd - dimFasieHeight + j, i))

/-- `orizontal_dif`. -/
def orizontalDif (pout : Picture) (offCandidat offAdd dimFasieWidth dimBucataWidth : Int)
    (height : Nat) : Int32 :=
  dif pout height dimFasieWidth.toNat (fun i j => (i, offCandidat + j + dimBucataWidth))
    (fun i j => (i, offAdd - dimFasieWidth + j))

/-- The exact difference of two strips of rows. -/
def verticalExact (pout : Picture) (offCandidat offAdd dimFasieHeight : Int) (width : Nat) : Int :=
  exactDif pout width dimFasieHeight.toNat (fun i j => (offCandidat + j, i))
    (fun i j => (offAdd - dimFasieHeight + j, i))

/-- The exact difference of two strips of columns. -/
def orizontalExact (pout : Picture) (offCandidat offAdd dimFasieWidth dimBucataWidth : Int)
    (height : Nat) : Int :=
  exactDif pout height dimFasieWidth.toNat (fun i j => (i, offCandidat + j + dimBucataWidth))
    (fun i j => (i, offAdd - dimFasieWidth + j))

/-- `compare` is the squared differences in 32 bits. -/
theorem ofInt_distance (p1 p2 : Pixel) :
    Int32.ofInt (Pixel.distance p1 p2) = Pixel.compare p1 p2 := by
  simp [Pixel.distance, Pixel.compare, sq, Int32.ofInt_add, Int32.ofInt_mul, Int32.ofInt_sub]

theorem distance_nonneg (p1 p2 : Pixel) : 0 ≤ Pixel.distance p1 p2 :=
  add_nonneg (add_nonneg (sq_nonneg _) (sq_nonneg _)) (sq_nonneg _)

/-- A loop that adds up numbers in 32 bits. -/
theorem fold_add_ofInt (k : Nat) (f : Nat → Int) (diff : Int32) :
    Nat.fold k (fun i _ diff => diff + Int32.ofInt (f i)) diff =
      diff + Int32.ofInt (∑ i ∈ Finset.range k, f i) := by
  induction k with
  | zero => simp
  | succ k ih => rw [Nat.fold_succ, ih, Finset.sum_range_succ, Int32.ofInt_add, Int32.add_assoc]

variable (pout : Picture) (n m : Nat) (first second : Nat → Nat → Int × Int)

/-- A sum of differences is the exact one in 32 bits. -/
theorem dif_eq : dif pout n m first second = Int32.ofInt (exactDif pout n m first second) := by
  simp only [dif, ← ofInt_distance, fold_add_ofInt, Int32.zero_add, exactDif]

theorem exactDif_nonneg : 0 ≤ exactDif pout n m first second :=
  Finset.sum_nonneg fun _ _ => Finset.sum_nonneg fun _ _ => distance_nonneg _ _

/-- The `int` is the exact sum exactly if that is an `int`. -/
theorem toInt_dif_iff : (dif pout n m first second).toInt = exactDif pout n m first second ↔
    exactDif pout n m first second < 2 ^ 31 := by
  have hnonneg := exactDif_nonneg pout n m first second
  rw [dif_eq]
  constructor
  · intro h
    rw [← h]
    exact Int32.toInt_lt _
  · intro h
    exact Int32.toInt_ofInt_of_le (by omega) (by omega)

/-! ### The loop over the candidates -/

/-- The loop over the candidates of a patch, on `min_dif` and `off_candidat_min`. -/
def chooseCandidate (currDif : Int → Int32) (candidates : List Int) (offCandidatMin : Int) : Int :=
  (candidates.foldl (fun (minDif, offCandidatMin) offCandidat =>
    if minDif > currDif offCandidat then (currDif offCandidat, offCandidat)
    else (minDif, offCandidatMin)) ((1 : Int32) <<< 30, offCandidatMin)).2

/-- The sums for the candidates are exact, and a candidate with the least sum is chosen. -/
structure BestChosen (currDif : Int → Int32) (exact : Int → Int) (candidates : List Int)
    (offCandidatMin : Int) : Prop where
  exact_eq : ∀ offCandidat ∈ candidates, (currDif offCandidat).toInt = exact offCandidat
  mem : offCandidatMin ∈ candidates
  least : ∀ offCandidat ∈ candidates, exact offCandidatMin ≤ exact offCandidat

/-- The sums of the candidates are `int`s, and one of them is below the one that the loop begins
    with, or the offset from before is a best candidate. -/
structure Choosable (exact : Int → Int) (candidates : List Int) (before : Int) : Prop where
  lt : ∀ offCandidat ∈ candidates, exact offCandidat < 2 ^ 31
  best : (∃ offCandidat ∈ candidates, exact offCandidat < 2 ^ 30) ∨
    before ∈ candidates ∧ ∀ offCandidat ∈ candidates, exact before ≤ exact offCandidat

/-- The loop is a running minimum. -/
theorem chooseCandidate_eq (currDif : Int → Int32) (candidates : List Int) (before : Int) :
    chooseCandidate currDif candidates before =
      (running (2 ^ 30, before) (candidates.map fun off => ((currDif off).toInt, off))).2 := by
  have hround : ∀ (best : Int32 × Int) (off : Int),
      keep (best.1.toInt, best.2) ((currDif off).toInt, off) =
        (fun best : Int32 × Int => (best.1.toInt, best.2))
          (if best.1 > currDif off then (currDif off, off) else (best.1, best.2)) := by
    intro best off
    by_cases hlt : currDif off < best.1
    · simp [keep, hlt, Int32.lt_iff_toInt_lt.mp hlt]
    · have hlt' : ¬ (currDif off).toInt < best.1.toInt := fun h =>
        hlt (Int32.lt_iff_toInt_lt.mpr h)
      simp [keep, hlt, hlt']
  rw [running, List.foldl_map, show ((2 : Int) ^ 30, before) =
    (fun best : Int32 × Int => (best.1.toInt, best.2)) ((1 : Int32) <<< 30, before) from rfl,
    List.foldl_hom (fun best : Int32 × Int => (best.1.toInt, best.2)) hround]
  rfl

/-- **The best candidate.**  Where a sum is exact if it is an `int`, the loop chooses a best
    candidate exactly if one can be chosen. -/
theorem bestChosen_iff {currDif : Int → Int32} {exact : Int → Int}
    (hdif : ∀ off, (currDif off).toInt = exact off ↔ exact off < 2 ^ 31) (candidates : List Int)
    (before : Int) :
    BestChosen currDif exact candidates (chooseCandidate currDif candidates before) ↔
      Choosable exact candidates before := by
  by_cases hall : ∀ off ∈ candidates, exact off < 2 ^ 31
  · have hexact : ∀ off ∈ candidates, (currDif off).toInt = exact off := fun off hoff =>
      (hdif off).mpr (hall off hoff)
    have hkeys : (candidates.map fun off => ((currDif off).toInt, off)) =
        candidates.map fun off => (exact off, off) :=
      List.map_congr_left fun off hoff => by rw [hexact off hoff]
    rw [chooseCandidate_eq, hkeys]
    rcases running_cases ((2 : Int) ^ 30, before) (candidates.map fun off => (exact off, off)) with
      ⟨hsame, hle⟩ | ⟨hleast, hless⟩
    -- No sum is below 2^30, and the offset from before stays.
    · rw [hsame]
      have hnone : ¬ ∃ off ∈ candidates, exact off < 2 ^ 30 := by
        rintro ⟨off, hoff, hlt⟩
        exact absurd hlt (not_lt.mpr (hle _ (List.mem_map_of_mem hoff)))
      exact ⟨fun h => ⟨hall, .inr ⟨h.mem, h.least⟩⟩,
        fun h => ⟨hexact, (h.best.resolve_left hnone).1, (h.best.resolve_left hnone).2⟩⟩
    · obtain ⟨chosen, hmem, heq⟩ := List.mem_map.mp hleast.mem
      rw [← heq] at hleast hless ⊢
      refine iff_of_true ⟨hexact, hmem, ?_⟩ ⟨hall, .inl ⟨chosen, hmem, hless⟩⟩
      intro off hoff
      exact hleast.le (List.mem_map_of_mem (f := fun off => (exact off, off)) hoff)
  · refine iff_of_false (fun h => hall fun off hoff => ?_) fun h => hall h.lt
    exact (hdif off).mp (h.exact_eq off hoff)

/-! ### Patches -/

/-- The offsets that are drawn for a patch. -/
def offsets (rand : Nat → Int) (ncandidati : Nat) (inSize dimFasie : Int) : List Int :=
  (List.range ncandidati).map fun j => (rand j).tmod (inSize - dimFasie)

/-- The loop over the patches, with the offsets that are drawn for each. -/
def quiltDrawn (netezire : Picture → Nat → Int → Picture) (currDif : Picture → Nat → Int → Int32)
    (draws : Nat → List Int) (npatches : Int) (pout : Picture) : Picture × Int :=
  Nat.fold npatches.toNat (fun i _ (pout, offCandidatMin) =>
    let offCandidatMin := chooseCandidate (currDif pout i) (draws i) offCandidatMin
    (netezire pout i offCandidatMin, offCandidatMin)) (pout, -1)

/-- `curr_dif` of `quilt_vertical`, for the patch `i`. -/
def verticalCurrDif (dimBucataHeight dimFasieHeight inHeight : Int) (pout : Picture) (i : Nat)
    (offCandidat : Int) : Int32 :=
  verticalDif pout offCandidat (inHeight + (i - 1) * dimBucataHeight) dimFasieHeight
    pout.width.toNat

/-- `curr_dif` of `quilt_orizontal`, for the patch `i`. -/
def orizontalCurrDif (dimBucataWidth dimFasieWidth inWidth : Int) (pout : Picture) (i : Nat)
    (offCandidat : Int) : Int32 :=
  orizontalDif pout offCandidat (inWidth + (i - 1) * dimBucataWidth) dimFasieWidth dimBucataWidth
    pout.height.toNat

/-- `quilt_vertical`, with what `rand` returns for the candidates of each patch. -/
def quiltVerticalDrawn (rand : Nat → Nat → Int) (ncandidati : Nat) (pout : Picture)
    (dimBucataHeight dimFasieHeight npatches inHeight : Int) : Picture × Int :=
  let width := pout.width.toNat
  quiltDrawn (fun pout i offCandidatMin =>
    verticalNetezire pout i inHeight width dimFasieHeight dimBucataHeight offCandidatMin)
    (verticalCurrDif dimBucataHeight dimFasieHeight inHeight)
    (fun i => offsets (rand i) ncandidati inHeight dimFasieHeight) npatches pout

/-- `quilt_orizontal`, with what `rand` returns for the candidates of each patch. -/
def quiltOrizontalDrawn (rand : Nat → Nat → Int) (ncandidati : Nat) (pout : Picture)
    (dimBucataWidth dimFasieWidth npatches inWidth : Int) : Picture × Int :=
  let height := pout.height.toNat
  quiltDrawn (fun pout i offCandidatMin =>
    orizontalNetezire pout i inWidth height dimFasieWidth dimBucataWidth offCandidatMin)
    (orizontalCurrDif dimBucataWidth dimFasieWidth inWidth)
    (fun i => offsets (rand i) ncandidati inWidth dimFasieWidth) npatches pout

/-- Drawing candidates is one way to choose the offsets of the patches. -/
theorem quiltDrawn_eq_quilt (netezire : Picture → Nat → Int → Picture)
    (currDif : Picture → Nat → Int → Int32) (draws : Nat → List Int) (npatches : Int)
    (pout : Picture) : ∃ choose : Picture → Nat → Int,
      (quiltDrawn netezire currDif draws npatches pout).1 =
        quilt netezire choose npatches pout := by
  refine ⟨fun _ i => (quiltDrawn netezire currDif draws (i + 1 : Nat) pout).2, ?_⟩
  have hprefix : ∀ n : Nat, (quiltDrawn netezire currDif draws n pout).1 =
      quilt netezire (fun _ i => (quiltDrawn netezire currDif draws (i + 1 : Nat) pout).2) n
        pout := by
    intro n
    induction n with
    | zero => rfl
    | succ n ih =>
      have hlast : (quiltDrawn netezire currDif draws (n + 1 : Nat) pout).1 =
          netezire (quiltDrawn netezire currDif draws n pout).1 n
            (quiltDrawn netezire currDif draws (n + 1 : Nat) pout).2 := by
        simp only [quiltDrawn, Int.toNat_natCast, Nat.fold_succ]
      rw [hlast, ih]
      simp only [quilt, Int.toNat_natCast, Nat.fold_succ]
  have hnat := hprefix npatches.toNat
  simpa only [quiltDrawn, quilt, Int.toNat_natCast] using hnat

theorem quiltVerticalDrawn_eq (rand : Nat → Nat → Int) (ncandidati : Nat) (pout : Picture)
    (dimBucataHeight dimFasieHeight npatches inHeight : Int) : ∃ choose,
      (quiltVerticalDrawn rand ncandidati pout dimBucataHeight dimFasieHeight npatches inHeight).1 =
        quiltVertical choose pout dimBucataHeight dimFasieHeight npatches inHeight :=
  quiltDrawn_eq_quilt ..

theorem quiltOrizontalDrawn_eq (rand : Nat → Nat → Int) (ncandidati : Nat) (pout : Picture)
    (dimBucataWidth dimFasieWidth npatches inWidth : Int) : ∃ choose,
      (quiltOrizontalDrawn rand ncandidati pout dimBucataWidth dimFasieWidth npatches inWidth).1 =
        quiltOrizontal choose pout dimBucataWidth dimFasieWidth npatches inWidth :=
  quiltDrawn_eq_quilt ..

/-- The exact sums of `quilt_vertical`. -/
def verticalSum (dimBucataHeight dimFasieHeight inHeight : Int) (pout : Picture) (i : Nat)
    (offCandidat : Int) : Int :=
  verticalExact pout offCandidat (inHeight + (i - 1) * dimBucataHeight) dimFasieHeight
    pout.width.toNat

/-- The exact sums of `quilt_orizontal`. -/
def orizontalSum (dimBucataWidth dimFasieWidth inWidth : Int) (pout : Picture) (i : Nat)
    (offCandidat : Int) : Int :=
  orizontalExact pout offCandidat (inWidth + (i - 1) * dimBucataWidth) dimFasieWidth dimBucataWidth
    pout.height.toNat

/-- **Candidates.**  For every patch of a picture, and every sequence of offsets for it, the sums
    are exact and a best candidate is chosen exactly if one can be chosen, in both passes. -/
theorem bestChosen_patch_iff (pout : Picture) (dimBucata dimFasie inSize : Int) (i : Nat)
    (candidates : List Int) (before : Int) :
    (BestChosen (verticalCurrDif dimBucata dimFasie inSize pout i)
        (verticalSum dimBucata dimFasie inSize pout i) candidates
        (chooseCandidate (verticalCurrDif dimBucata dimFasie inSize pout i) candidates before) ↔
      Choosable (verticalSum dimBucata dimFasie inSize pout i) candidates before) ∧
    (BestChosen (orizontalCurrDif dimBucata dimFasie inSize pout i)
        (orizontalSum dimBucata dimFasie inSize pout i) candidates
        (chooseCandidate (orizontalCurrDif dimBucata dimFasie inSize pout i) candidates before) ↔
      Choosable (orizontalSum dimBucata dimFasie inSize pout i) candidates before) :=
  ⟨bestChosen_iff (fun _ => toInt_dif_iff ..) candidates before,
    bestChosen_iff (fun _ => toInt_dif_iff ..) candidates before⟩

/-! ### Small and large strips -/

/-- The channels of a picture. -/
structure Pixel.InRange (p : Pixel) : Prop where
  red : 0 ≤ p.red.toInt ∧ p.red.toInt ≤ 255
  green : 0 ≤ p.green.toInt ∧ p.green.toInt ≤ 255
  blue : 0 ≤ p.blue.toInt ∧ p.blue.toInt ≤ 255

theorem distance_le {p1 p2 : Pixel} (h1 : p1.InRange) (h2 : p2.InRange) :
    Pixel.distance p1 p2 ≤ 195075 := by
  have hsq : ∀ a b : Int, 0 ≤ a ∧ a ≤ 255 → 0 ≤ b ∧ b ≤ 255 → (a - b) ^ 2 ≤ 255 ^ 2 := by
    intro a b ha hb
    exact sq_le_sq' (by omega) (by omega)
  have hred := hsq _ _ h1.red h2.red
  have hgreen := hsq _ _ h1.green h2.green
  have hblue := hsq _ _ h1.blue h2.blue
  unfold Pixel.distance
  omega

/-- A sum over pairs of pixels is at most what their greatest difference makes of it. -/
theorem exactDif_le {pout : Picture} (hpout : ∀ k, (pout.image k).InRange) (n m : Nat)
    (first second : Nat → Nat → Int × Int) :
    exactDif pout n m first second ≤ n * m * 195075 := by
  calc exactDif pout n m first second
      ≤ ∑ i ∈ Finset.range n, ∑ j ∈ Finset.range m, (195075 : Int) :=
        Finset.sum_le_sum fun i _ => Finset.sum_le_sum fun j _ => distance_le (hpout _) (hpout _)
    _ = n * m * 195075 := by simp [mul_assoc]

/-- In a strip of at most 5504 pixels a best candidate is chosen. -/
theorem choosable_of_area {pout : Picture} (hpout : ∀ k, (pout.image k).InRange) {n m : Nat}
    (harea : n * m ≤ 5504) (first : Int → Nat → Nat → Int × Int) (second : Nat → Nat → Int × Int)
    {candidates : List Int} (hne : candidates ≠ []) (before : Int) :
    Choosable (fun off => exactDif pout n m (first off) second) candidates before := by
  have hlt : ∀ off, exactDif pout n m (first off) second < 2 ^ 30 := by
    intro off
    have hle := exactDif_le hpout n m (first off) second
    have harea' : (n : Int) * m ≤ 5504 := by exact_mod_cast harea
    omega
  obtain ⟨off, rest, rfl⟩ := List.exists_cons_of_ne_nil hne
  exact ⟨fun off _ => (hlt off).trans (by decide), .inl ⟨off, List.mem_cons_self, hlt off⟩⟩

/-- A picture of 100 columns whose first 100 rows are white, and the others black. -/
def blackBelow : Picture where
  width := 100
  height := 400
  maxColor := 255
  image := fun k => if k < 10000 then ⟨255, 255, 255⟩ else ⟨0, 0, 0⟩

/-- The strip of 100 rows that is compared with the first rows of the picture. -/
theorem verticalSum_blackBelow : verticalSum 100 100 300 blackBelow 0 0 = 1950750000 := by
  have hwhite : ∀ i < 100, ∀ j < 100,
      blackBelow.get (0 + (j : Nat)) (i : Nat) = ⟨255, 255, 255⟩ := by
    intro i hi j hj
    rw [Picture.get, blackBelow]
    dsimp only [index]
    rw [if_pos (by omega)]
  have hblack : ∀ i < 100, ∀ j < 100,
      blackBelow.get (300 + ((0 : Nat) - 1) * 100 - 100 + (j : Nat)) (i : Nat) = ⟨0, 0, 0⟩ := by
    intro i hi j hj
    rw [Picture.get, blackBelow]
    dsimp only [index]
    rw [if_neg (by omega)]
  have hsum : verticalSum 100 100 300 blackBelow 0 0 =
      ∑ i ∈ Finset.range 100, ∑ j ∈ Finset.range 100,
        Pixel.distance ⟨255, 255, 255⟩ ⟨0, 0, 0⟩ := by
    have hwidth : blackBelow.width.toNat = 100 := Int.toNat_natCast 100
    have hfasie : (100 : Int).toNat = 100 := Int.toNat_natCast 100
    rw [verticalSum, verticalExact, exactDif, hwidth, hfasie]
    refine Finset.sum_congr rfl fun i hi => Finset.sum_congr rfl fun j hj => ?_
    dsimp only
    rw [hwhite i (Finset.mem_range.mp hi) j (Finset.mem_range.mp hj),
      hblack i (Finset.mem_range.mp hi) j (Finset.mem_range.mp hj)]
  rw [hsum]
  simp [Pixel.distance]

/-- For the first patch of that picture, with 0 as the only offset, no candidate is chosen. -/
theorem not_bestChosen :
    ¬ ∀ (pout : Picture) (dimBucata dimFasie inSize : Int) (i : Nat) (candidates : List Int)
      (before : Int), (∀ k, (pout.image k).InRange) → candidates ≠ [] →
      BestChosen (verticalCurrDif dimBucata dimFasie inSize pout i)
        (verticalSum dimBucata dimFasie inSize pout i) candidates
        (chooseCandidate (verticalCurrDif dimBucata dimFasie inSize pout i) candidates before) := by
  intro h
  have hrange : ∀ k, (blackBelow.image k).InRange := by
    intro k
    simp only [blackBelow]
    split <;> exact ⟨by decide, by decide, by decide⟩
  have hbest := h blackBelow 100 100 300 0 [0] (-1) hrange (List.cons_ne_nil _ _)
  have hdif : (verticalCurrDif 100 100 300 blackBelow 0 0).toInt = 1950750000 :=
    (hbest.exact_eq 0 (List.mem_singleton.mpr rfl)).trans verticalSum_blackBelow
  have hstays : chooseCandidate (verticalCurrDif 100 100 300 blackBelow 0) [0] (-1) = -1 := by
    rw [chooseCandidate_eq, List.map_singleton, hdif]
    rfl
  have hmem := hbest.mem
  rw [hstays] at hmem
  exact absurd hmem (by decide)

end WorkAtUPB.ImageQuilting
