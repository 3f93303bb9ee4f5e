import WorkAtUPB.ImageQuilting.InputPixels
import WorkAtUPB.ImageQuilting.SeamCost

namespace WorkAtUPB.ImageQuilting

open Layers Raster

/-!
# The seam is connected and greedy

A merge walks back through the matrix `E`, from a least entry of the last line, and copies pixels of
a line on both sides of the position `min_id` that it has there.  Here the loop is the one of the
source, on integers and with its own end, and a read outside of the matrix is `none`:

* `readMinimum`, `readNextId` — `__min`, and the branches that move `min_id`;
* `backtrackLoop`, `backtrack` — the loop `while (1)`, with a bound on its rounds, and all of it;
* `nextId_near`, `nextId_le` — the position that follows is a least one of the neighbours;
* `backtrackLoop_eq` — the loop ends, and visits the positions of `walkBack`, line by line;
* `backtrack_merge` — on the matrix of its strips it makes the picture of `merge`;
* `merge_walks_greedily` — the positions are a greedy path, for every matrix and in both
  directions.
-/

/-! ### The loop -/

/-- `E[i][j]`, for a matrix of `lines` lines of `size` entries. -/
def entry (E : Nat → Nat → Int32) (lines size : Nat) (i j : Int) : Option Int32 :=
  if (0 ≤ i ∧ i < lines) ∧ 0 ≤ j ∧ j < size then some (E i.toNat j.toNat) else none

/-- A round of `__min`: the entry `j` against `min`. -/
def readRound (E : Int → Int → Option Int32) (x : Int) (least : Int32 × Int) (k : Nat) :
    Option (Int32 × Int) := do
  let j : Int := k + 1
  let value ← E x j
  some (if least.1 > value then (value, j) else least)

/-- `__min`: `min` and `min_id`. -/
def readMinimum (E : Int → Int → Option Int32) (x y : Int) : Option (Int32 × Int) := do
  let first ← E x 0
  (List.range (y - 1).toNat).foldlM (readRound E x) (first, 0)

/-- `min_line`. -/
def minLine (E : Int → Int → Option Int32) (line width : Int) : Option (Int32 × Int) :=
  readMinimum E line width

/-- `min_column`. -/
def minColumn (E : Int → Int → Option Int32) (column height : Int) : Option (Int32 × Int) :=
  readMinimum E column height

/-- The branches on `min_id`: what it is in the line `line`, where it has been `minId` in the line
    behind. -/
def readNextId (E : Int → Int → Option Int32) (size line minId : Int) : Option Int := do
  if minId = 0 then
    let first ← E line 0
    let second ← E line 1
    let min := MIN first second
    some (if min = first then 0 else 1)
  else if minId = size - 1 then
    let first ← E line (size - 2)
    let second ← E line (size - 1)
    let min := MIN first second
    some (if min = first then size - 2 else size - 1)
  else
    let before ← E line (minId - 1)
    let here ← E line minId
    let behind ← E line (minId + 1)
    let min := MIN before (MIN here behind)
    -- Where neither side is the least, `min_id` is left as it is.
    some (if min = before then minId - 1 else if min = behind then minId + 1 else minId)

/-- The two loops over a line: up to `minId` from `left`, from there on from `right`. -/
def mergePixels (pout : Picture) (size minId : Int) (dst left right : Int → Int × Int) : Picture :=
  let pout := Nat.fold minId.toNat (fun j _ pout => pout.copy (dst j) (left j)) pout
  Nat.fold (size - minId).toNat (fun k _ pout =>
    let j := minId + k
    pout.copy (dst j) (right j)) pout

/-- The loop `while (1)`; `none` if it does not end within the rounds.  It gives the lines that it
    visits with their `min_id`, and the picture. -/
def backtrackLoop (E : Int → Int → Option Int32) (size : Int)
    (body : Int → Int → Picture → Picture) :
    Nat → Int → Int → Picture → Option (List (Int × Int) × Picture)
  | 0, _, _, _ => none
  | rounds + 1, line, minId, pout => do
    let pout := body line minId pout
    if line ≤ 0 then
      some ([(line, minId)], pout)
    else
      let next ← readNextId E size (line - 1) minId
      let (visited, pout) ← backtrackLoop E size body rounds (line - 1) next pout
      some ((line, minId) :: visited, pout)

/-- A merge from the choice of the first `min_id` on, for any matrix; `least` is the function that
    chooses it. -/
def backtrack (cell : Int → Int → Int × Int)
    (least : (Int → Int → Option Int32) → Int → Int → Option (Int32 × Int))
    (E : Int → Int → Option Int32) (rounds : Nat) (pout : Picture) (size dimFasie inSize : Int)
    (id : Nat) (dimBucata offCandidatMin : Int) : Option (List (Int × Int) × Picture) := do
  let line := dimFasie - 1
  let (_, minId) ← least E line size
  backtrackLoop E size (fun line minId pout =>
    mergePixels pout size minId (fun j => cell (line + inSize + id * dimBucata) j)
      (fun j => cell (line + offCandidatMin + dimBucata - dimFasie) j)
      (fun j => cell (line + inSize + id * dimBucata - dimFasie) j)) rounds line minId pout

/-- The loop of `orizontal_merge`. -/
def orizontalBacktrack (E : Int → Int → Option Int32) (rounds : Nat) (pout : Picture)
    (height dimFasieWidth inWidth : Int) (id : Nat) (dimBucataWidth offCandidatMin : Int) :
    Option (List (Int × Int) × Picture) :=
  backtrack byColumn minColumn E rounds pout height dimFasieWidth inWidth id dimBucataWidth
    offCandidatMin

/-- The loop of `vertical_merge`. -/
def verticalBacktrack (E : Int → Int → Option Int32) (rounds : Nat) (pout : Picture)
    (width dimFasieHeight inHeight : Int) (id : Nat) (dimBucataHeight offCandidatMin : Int) :
    Option (List (Int × Int) × Picture) :=
  backtrack byRow minLine E rounds pout width dimFasieHeight inHeight id dimBucataHeight
    offCandidatMin

variable {E : Nat → Nat → Int32} {lines size : Nat}

/-! ### Reads stay inside of the matrix -/

theorem entry_eq {i j : Int} {i' j' : Nat} (hi : i = i') (hj : j = j') (hi' : i' < lines)
    (hj' : j' < size) : entry E lines size i j = some (E i' j') := by
  subst hi hj
  exact if_pos ⟨⟨by omega, by exact_mod_cast hi'⟩, by omega, by exact_mod_cast hj'⟩

/-- The minimum of one entry more. -/
theorem minimum_succ (line : Nat → Int32) (n : Nat) :
    minimum line (n + 2) =
      if (minimum line (n + 1)).1 > line (n + 1) then (line (n + 1), n + 1)
      else minimum line (n + 1) := Nat.fold_succ ..

/-- `__min` reads a line of the matrix, and finds its first minimum. -/
theorem readMinimum_eq {x : Nat} (hx : x < lines) (hsize : 0 < size) :
    readMinimum (entry E lines size) x size =
      some ((minimum (E x) size).1, ((minimum (E x) size).2 : Int)) := by
  -- After `n` rounds the first `n + 1` entries have been compared.
  have hloop : ∀ n, n < size → (List.range n).foldlM (readRound (entry E lines size) x) (E x 0, 0) =
      some ((minimum (E x) (n + 1)).1, ((minimum (E x) (n + 1)).2 : Int)) := by
    intro n hn
    induction n with
    | zero => rfl
    | succ n ih =>
      have hread : entry E lines size x ((n : Int) + 1) = some (E x (n + 1)) :=
        entry_eq rfl (by push_cast; rfl) hx hn
      rw [List.range_succ, List.foldlM_append, ih (Nat.lt_of_succ_lt hn), minimum_succ]
      simp only [List.foldlM_cons, List.foldlM_nil, readRound, hread, Option.bind_eq_bind,
        Option.bind_some]
      split
      · rfl
      · rfl
  have hfirst : entry E lines size x 0 = some (E x 0) := entry_eq rfl rfl hx hsize
  have hrounds : ((size : Int) - 1).toNat = size - 1 := by omega
  have hlast : size - 1 + 1 = size := by omega
  rw [readMinimum, hfirst, hrounds, Option.bind_eq_bind, Option.bind_some, hloop _ (by omega),
    hlast]

/-- The branches on `min_id` read the neighbours of a position of the matrix. -/
theorem readNextId_eq {line minId : Nat} (hline : line < lines) (hsize : 2 ≤ size)
    (hminId : minId < size) :
    readNextId (entry E lines size) size line minId = some (nextId (E line) size minId : Int) := by
  have hread {j : Int} {j' : Nat} (hj : j = j') (hj' : j' < size) :
      entry E lines size line j = some (E line j') := entry_eq rfl hj hline hj'
  unfold readNextId nextId
  -- Two neighbours at either end of the line, and three elsewhere.
  by_cases hzero : minId = 0
  · have hfirst := hread (show (0 : Int) = (0 : Nat) from rfl) (by omega)
    have hsecond := hread (show (1 : Int) = (1 : Nat) from rfl) (by omega)
    rw [if_pos (by exact_mod_cast hzero), if_pos hzero]
    simp only [hfirst, hsecond, Option.bind_eq_bind, Option.bind_some]
    split
    · rfl
    · rfl
  rw [if_neg (by exact_mod_cast hzero), if_neg hzero]
  by_cases hend : minId = size - 1
  · have hfirst := hread (show (size : Int) - 2 = (size - 2 : Nat) by omega) (by omega)
    have hsecond := hread (show (size : Int) - 1 = (size - 1 : Nat) by omega) (by omega)
    rw [if_pos (by omega), if_pos hend]
    simp only [hfirst, hsecond, Option.bind_eq_bind, Option.bind_some]
    split
    · congr 1
      omega
    · congr 1
      omega
  · have hbefore := hread (show (minId : Int) - 1 = (minId - 1 : Nat) by omega) (by omega)
    have hhere := hread (show (minId : Int) = (minId : Nat) from rfl) hminId
    have hbehind := hread (show (minId : Int) + 1 = (minId + 1 : Nat) by omega) (by omega)
    rw [if_neg (by omega), if_neg hend]
    simp only [hbefore, hhere, hbehind, Option.bind_eq_bind, Option.bind_some]
    split
    · congr 1
      omega
    split
    · rfl
    · rfl

/-- The pixels of a line are copied at positions of the line. -/
theorem mergePixels_eq (pout : Picture) {minId : Nat} (hminId : minId ≤ size)
    (dst left right : Int → Int × Int) :
    mergePixels pout size minId dst left right =
      mergeLine pout size minId (fun j => dst j) (fun j => left j) (fun j => right j) := by
  have hrest : ((size : Int) - minId).toNat = size - minId := by omega
  rw [mergePixels, mergeLine, Int.toNat_natCast, hrest]
  simp only [Int.natCast_add]

/-! ### Where the walk goes -/

/-- `__min` gives the least entry of a line, and where it is. -/
theorem minimum_least (line : Nat → Int32) (n : Nat) :
    (minimum line (n + 1)).1 = line (minimum line (n + 1)).2 ∧
      ∀ j ≤ n, (minimum line (n + 1)).1.toInt ≤ (line j).toInt := by
  induction n with
  | zero =>
    refine ⟨rfl, fun j hj => ?_⟩
    rw [Nat.le_zero.mp hj]
    exact le_rfl
  | succ n ih =>
    obtain ⟨hmin, hle⟩ := ih
    rw [minimum_succ]
    split
    · next hlt =>
      have hless := Int32.lt_iff_toInt_lt.mp hlt
      refine ⟨rfl, fun j hj => ?_⟩
      rcases Nat.le_succ_iff.mp hj with hj | rfl
      · exact hless.le.trans (hle j hj)
      · exact le_rfl
    · next hlt =>
      refine ⟨hmin, fun j hj => ?_⟩
      rcases Nat.le_succ_iff.mp hj with hj | rfl
      · exact hle j hj
      · exact Int.not_lt.mp fun hless => hlt (Int32.lt_iff_toInt_lt.mpr hless)

theorem minimum_snd_le (line : Nat → Int32) {y j : Nat} (hj : j < y) :
    (line (minimum line y).2).toInt ≤ (line j).toInt := by
  obtain ⟨n, rfl⟩ : ∃ n, y = n + 1 := ⟨y - 1, by omega⟩
  obtain ⟨hmin, hle⟩ := minimum_least line n
  rw [← hmin]
  exact hle j (Nat.lt_succ_iff.mp hj)

/-- The position that follows is at most one further on. -/
theorem nextId_near (line : Nat → Int32) {size minId : Nat} (hsize : 2 ≤ size)
    (hminId : minId < size) : near (nextId line size minId) minId := by
  have hcases := nextId_cases line hsize hminId
  constructor <;> omega

/-- The position that follows is a least one of the neighbours, in each of the three branches. -/
theorem nextId_le (line : Nat → Int32) {size minId j : Nat} (hj : j < size)
    (hnear : near j minId) : (line (nextId line size minId)).toInt ≤ (line j).toInt := by
  unfold nextId
  simp only [near, ← Int32.toInt_inj, toInt_MIN] at hnear ⊢
  by_cases hzero : minId = 0
  · have hcases : j = 0 ∨ j = 1 := by omega
    rw [if_pos hzero]
    split <;> rcases hcases with rfl | rfl <;> omega
  rw [if_neg hzero]
  by_cases hend : minId = size - 1
  · have hcases : j = size - 2 ∨ j = size - 1 := by omega
    rw [if_pos hend]
    split <;> rcases hcases with rfl | rfl <;> omega
  · have hcases : j = minId - 1 ∨ j = minId ∨ j = minId + 1 := by omega
    rw [if_neg hend]
    split
    · rcases hcases with rfl | rfl | rfl <;> omega
    split <;> rcases hcases with rfl | rfl | rfl <;> omega

/-! ### The loop walks back

The loop visits the lines from the last one down to the first, with one position in each. -/

/-- The lines from `n - 1` down to 0, with the position of a path in each. -/
def visits (path : Nat → Nat) (n : Nat) : List (Int × Int) :=
  (List.range n).reverse.map fun (i : Nat) => ((i : Int), (path i : Int))

theorem visits_succ (path : Nat → Nat) (n : Nat) :
    visits path (n + 1) = ((n : Int), (path n : Int)) :: visits path n := by
  rw [visits, List.range_succ, List.reverse_append]
  rfl

theorem visits_congr {path path' : Nat → Nat} {n : Nat} (h : ∀ i < n, path i = path' i) :
    visits path n = visits path' n := by
  refine List.map_congr_left fun i hi => ?_
  rw [h i (List.mem_range.mp (List.mem_reverse.mp hi))]

/-- The position that follows in each line of `E`. -/
def following (E : Nat → Nat → Int32) (size : Nat) (line minId : Nat) : Nat :=
  nextId (E line) size minId

/-- **The loop ends.**  From the line `n` on it takes `n + 1` rounds.  It visits the positions that
    are walked back, and the picture is the one of `mergeLines`. -/
theorem backtrackLoop_eq (hsize : 2 ≤ size) {body : Int → Int → Picture → Picture}
    {dst left right : Nat → Nat → Int × Int}
    (hbody : ∀ (line minId : Nat) pout, minId < size →
      body line minId pout = mergeLine pout size minId (dst line) (left line) (right line))
    {n minId rounds : Nat} (hn : n < lines) (hminId : minId < size) (hrounds : n < rounds)
    (pout : Picture) :
    backtrackLoop (entry E lines size) size body rounds n minId pout =
      some (visits (walkBack (following E size) n minId) (n + 1),
        mergeLines E size dst left right n minId pout) := by
  induction n generalizing minId rounds pout with
  | zero =>
    obtain ⟨rounds, rfl⟩ : ∃ r, rounds = r + 1 := ⟨rounds - 1, by omega⟩
    rw [backtrackLoop, if_pos (by simp), hbody 0 minId pout hminId]
    rfl
  | succ n ih =>
    obtain ⟨rounds, rfl⟩ : ∃ r, rounds = r + 1 := ⟨rounds - 1, by omega⟩
    have hline : ((n + 1 : Nat) : Int) - 1 = n := by omega
    have hnext : readNextId (entry E lines size) size n minId =
        some (following E size n minId : Int) :=
      readNextId_eq (Nat.lt_of_succ_lt hn) hsize hminId
    -- The next position is inside of its line again.
    have hinside : following E size n minId < size := nextId_lt _ hsize hminId
    have hbefore : visits (walkBack (following E size) (n + 1) minId) (n + 1) =
        visits (walkBack (following E size) n (following E size n minId)) (n + 1) :=
      visits_congr fun i hi => walkBack_of_le _ _ (Nat.lt_succ_iff.mp hi)
    rw [backtrackLoop, if_neg (by omega), hline, hnext, hbody (n + 1) minId pout hminId,
      Option.bind_eq_bind, Option.bind_some, ih (Nat.lt_of_succ_lt hn) hinside (by omega),
      Option.bind_eq_bind, Option.bind_some, visits_succ _ (n + 1), walkBack_self, hbefore]
    rfl

/-- The positions that a merge takes, in the lines of a matrix. -/
def seam (E : Nat → Nat → Int32) (lines size : Nat) : Nat → Nat :=
  walkBack (following E size) (lines - 1) (minimum (E (lines - 1)) size).2

/-- The seam is connected, inside of the matrix, and greedy. -/
theorem greedy_seam (E : Nat → Nat → Int32) (lines : Nat) (hsize : 2 ≤ size) :
    Greedy (· < size) near (fun i j => (E i j).toInt) (lines - 1) (seam E lines size) := by
  apply greedy_walkBack
  · intro line minId hminId
    exact nextId_lt _ hsize hminId
  · intro line minId hminId
    exact nextId_near _ hsize hminId
  · intro line minId _ j hj hnear
    exact nextId_le _ hj hnear
  · exact minimum_snd_lt _ (by omega)
  · intro j hj
    exact minimum_snd_le _ hj

/-- A merge visits its seam, for every matrix, and its picture is the one of `mergeLines`. -/
theorem backtrack_eq (cell : Int → Int → Int × Int) (hlines : 1 ≤ lines) (hsize : 2 ≤ size)
    {rounds : Nat} (hrounds : lines ≤ rounds) (pout : Picture) (inSize : Int) (id : Nat)
    (dimBucata offCandidatMin : Int) :
    backtrack cell readMinimum (entry E lines size) rounds pout size lines inSize id dimBucata
        offCandidatMin =
      some (visits (seam E lines size) lines,
        mergeLines E size (fun line j => cell (line + inSize + id * dimBucata) j)
          (fun line j => cell (line + offCandidatMin + dimBucata - lines) j)
          (fun line j => cell (line + inSize + id * dimBucata - lines) j)
          (lines - 1) (minimum (E (lines - 1)) size).2 pout) := by
  have hline : (lines : Int) - 1 = (lines - 1 : Nat) := by omega
  have hlast : visits (seam E lines size) lines =
      visits (walkBack (following E size) (lines - 1) (minimum (E (lines - 1)) size).2)
        (lines - 1 + 1) := by
    rw [seam, show lines - 1 + 1 = lines by omega]
  -- The three runs over a line write what `mergeLine` has there.
  have hbody : ∀ (line minId : Nat) (pout : Picture), minId < size →
      mergePixels pout size minId (fun j => cell (line + inSize + id * dimBucata) j)
          (fun j => cell (line + offCandidatMin + dimBucata - lines) j)
          (fun j => cell (line + inSize + id * dimBucata - lines) j) =
        mergeLine pout size minId (fun j => cell (line + inSize + id * dimBucata) j)
          (fun j => cell (line + offCandidatMin + dimBucata - lines) j)
          (fun j => cell (line + inSize + id * dimBucata - lines) j) :=
    fun _ _ pout hminId => mergePixels_eq pout hminId.le _ _ _
  rw [backtrack, hline, readMinimum_eq (by omega) (by omega), Option.bind_eq_bind, Option.bind_some,
    hlast]
  exact backtrackLoop_eq hsize hbody (by omega) (minimum_snd_lt _ (by omega)) (by omega) pout

/-- A merge is its loop on the matrix of the two strips. -/
theorem backtrack_merge (cell : Int → Int → Int × Int) (hlines : 1 ≤ lines) (hsize : 2 ≤ size)
    {rounds : Nat} (hrounds : lines ≤ rounds) (pout : Picture) (inSize : Int) (id : Nat)
    (dimBucata offCandidatMin : Int) :
    let E := costs (errors pout (inSize + id * dimBucata - dimBucata) offCandidatMin) size
    backtrack cell readMinimum (entry E lines size) rounds pout size lines inSize id dimBucata
        offCandidatMin =
      some (visits (seam E lines size) lines,
        merge cell pout size lines inSize id dimBucata offCandidatMin) := by
  intro E
  have hline : ((lines : Int) - 1).toNat = lines - 1 := by omega
  rw [merge, hline]
  exact backtrack_eq cell hlines hsize hrounds pout inSize id dimBucata offCandidatMin

theorem verticalBacktrack_merge {width : Nat} (hlines : 1 ≤ lines) (hwidth : 2 ≤ width)
    {rounds : Nat} (hrounds : lines ≤ rounds) (pout : Picture) (inHeight : Int) (id : Nat)
    (dimBucataHeight offCandidatMin : Int) :
    let E := costs (errors pout (inHeight + id * dimBucataHeight - dimBucataHeight) offCandidatMin)
      width
    verticalBacktrack (entry E lines width) rounds pout width lines inHeight id dimBucataHeight
        offCandidatMin =
      some (visits (seam E lines width) lines,
        verticalMerge pout width lines inHeight id dimBucataHeight offCandidatMin) :=
  backtrack_merge byRow hlines hwidth hrounds pout inHeight id dimBucataHeight offCandidatMin

theorem orizontalBacktrack_merge {height : Nat} (hlines : 1 ≤ lines) (hheight : 2 ≤ height)
    {rounds : Nat} (hrounds : lines ≤ rounds) (pout : Picture) (inWidth : Int) (id : Nat)
    (dimBucataWidth offCandidatMin : Int) :
    let E := costs (errors pout (inWidth + id * dimBucataWidth - dimBucataWidth) offCandidatMin)
      height
    orizontalBacktrack (entry E lines height) rounds pout height lines inWidth id dimBucataWidth
        offCandidatMin =
      some (visits (seam E lines height) lines,
        orizontalMerge pout height lines inWidth id dimBucataWidth offCandidatMin) :=
  backtrack_merge byColumn hlines hheight hrounds pout inWidth id dimBucataWidth offCandidatMin

/-- **Connected and greedy.**  For every matrix with a line and two columns, the loops of
    `orizontal_merge` and `vertical_merge` end, and visit the lines from the last one down to the
    first with a position in each.  The positions are inside of the matrix, each at most one from
    the one behind; the first is least in the last line, and each of the others among the
    neighbours of the one behind. -/
theorem merge_walks_greedily (E : Nat → Nat → Int32) {lines size : Nat} (hlines : 1 ≤ lines)
    (hsize : 2 ≤ size) :
    ∃ minId : Nat → Nat,
      Greedy (· < size) near (fun i j => (E i j).toInt) (lines - 1) minId ∧
      ∀ rounds, lines ≤ rounds →
        ∀ (pout : Picture) (inSize : Int) (id : Nat) (dimBucata offCandidatMin : Int),
          (∃ merged, orizontalBacktrack (entry E lines size) rounds pout size lines inSize id
            dimBucata offCandidatMin = some (visits minId lines, merged)) ∧
          ∃ merged, verticalBacktrack (entry E lines size) rounds pout size lines inSize id
            dimBucata offCandidatMin = some (visits minId lines, merged) := by
  refine ⟨seam E lines size, greedy_seam E lines hsize, ?_⟩
  intro rounds hrounds pout inSize id dimBucata offCandidatMin
  constructor
  · exact ⟨_, backtrack_eq byColumn hlines hsize hrounds pout inSize id dimBucata offCandidatMin⟩
  · exact ⟨_, backtrack_eq byRow hlines hsize hrounds pout inSize id dimBucata offCandidatMin⟩

/-- The strips at the columns 0 and 2 of the picture with a spot. -/
theorem merge_walks_greedily_spotted :
    let E := costs (errors spotted 0 2) 2
    ∃ minId : Nat → Nat,
      Greedy (· < 2) near (fun i j => (E i j).toInt) 1 minId ∧
      ∃ merged, verticalBacktrack (entry E 2 2) 2 spotted 2 2 2 0 1 0 =
        some (visits minId 2, merged) := by
  intro E
  obtain ⟨minId, hgreedy, hloop⟩ := merge_walks_greedily E (show 1 ≤ 2 by decide)
    (show 2 ≤ 2 by decide)
  exact ⟨minId, hgreedy, (hloop 2 le_rfl spotted 2 0 1 0).2⟩

end WorkAtUPB.ImageQuilting
