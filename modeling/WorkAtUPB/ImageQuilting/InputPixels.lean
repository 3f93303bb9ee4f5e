import WorkAtUPB.ImageQuilting.Quilt

namespace WorkAtUPB.ImageQuilting

open Raster

/-!
# Quilting copies pixels of the input

A pass takes the picture line by line.  The lines before a patch are filled, the patch is copied
from lines before the ones it goes to, and its seam from lines that are filled by then:

* `Lines`, `Filled` — the first positions of the first lines, and a picture filled there;
* `filled_copyPatch`, `filled_merge`, `filled_quilt` — what a patch, its seam and a whole pass fill;
* `quilted_pixels` — every pixel of the picture is one of the input.

In the vertical pass the columns behind the input are blank.  They are copied along, and are not
among the positions that count.
-/

/-- The cells in the first lines, at the first positions. -/
def Lines (cell : Int → Int → Int × Int) (lines positions : Int) : Set (Int × Int) :=
  {c | ∃ line pos, (0 ≤ line ∧ line < lines) ∧ (0 ≤ pos ∧ pos < positions) ∧ c = cell line pos}

/-- A picture of a size, with values with the property `P` in a region. -/
structure Filled (P : Pixel → Prop) (width height : Int) (region : Set (Int × Int))
    (pout : Picture) :
    Prop where
  width_eq : pout.width = width
  height_eq : pout.height = height
  painted : Painted P width region pout.image

theorem Lines.mono {cell : Int → Int → Int × Int} {lines lines' positions positions' : Int}
    (hlines : lines ≤ lines') (hpositions : positions ≤ positions') :
    Lines cell lines positions ⊆ Lines cell lines' positions' := by
  rintro c ⟨line, pos, hline, hpos, rfl⟩
  exact ⟨line, pos, ⟨hline.1, hline.2.trans_le hlines⟩, ⟨hpos.1, hpos.2.trans_le hpositions⟩, rfl⟩

/-! ### Seams stay inside of the picture -/

theorem minimum_snd_lt (line : Nat → Int32) {y : Nat} (hy : 0 < y) : (minimum line y).2 < y := by
  have h : (minimum line y).2 < y - 1 + 1 := by
    refine fold_induction (fun k (s : Int32 × Nat) => s.2 < k + 1) (Nat.lt_succ_self 0) ?_
    intro k _ ⟨min, minId⟩ hmin
    show (if min > line (k + 1) then (line (k + 1), k + 1) else (min, minId)).2 < k + 1 + 1
    split
    · exact Nat.lt_succ_self _
    · exact Nat.lt_succ_of_lt hmin
  omega

/-- A position is followed by itself or by one of its neighbours. -/
theorem nextId_cases (line : Nat → Int32) {size minId : Nat} (hsize : 2 ≤ size)
    (hminId : minId < size) :
    nextId line size minId = minId ∨ (nextId line size minId = minId + 1 ∧ minId + 1 < size) ∨
      nextId line size minId + 1 = minId := by
  unfold nextId
  split
  · dsimp only
    split <;> omega
  split
  · dsimp only
    split <;> omega
  · dsimp only
    split
    · omega
    split <;> omega

theorem nextId_lt (line : Nat → Int32) {size minId : Nat} (hsize : 2 ≤ size)
    (hminId : minId < size) : nextId line size minId < size := by
  have hcases := nextId_cases line hsize hminId
  omega

/-! ### Copying -/

variable {P : Pixel → Prop} {width height : Int} {region cells : Set (Int × Int)} {pout : Picture}

theorem Filled.mono {region' : Set (Int × Int)} (h : Filled P width height region pout)
    (hsub : region' ⊆ region) : Filled P width height region' pout :=
  ⟨h.width_eq, h.height_eq, h.painted.mono hsub⟩

/-- A value of the kind may be put anywhere. -/
theorem Filled.set (h : Filled P width height region pout) (row col : Int) {color : Pixel}
    (hcolor : P color) :
    Filled P width height (insert (row, col) region) (pout.set row col color) := by
  obtain ⟨rfl, hheight, hpainted⟩ := h
  exact ⟨rfl, hheight, hpainted.paint hcolor (row, col)⟩

theorem Filled.copy (h : Filled P width height region pout) (hregion : region ⊆ cells)
    (hcells : ∀ c ∈ cells, InColumns width c) {dst src : Int × Int} (hdst : InColumns width dst)
    (hsrc : dst ∈ cells → src ∈ region) :
    Filled P width height (region ∪ {c ∈ cells | c = dst}) (pout.copy dst src) := by
  obtain ⟨rfl, hheight, hpainted⟩ := h
  exact ⟨rfl, hheight, hpainted.copy hregion hcells hdst hsrc⟩

/-- A loop that copies from cells of the region fills the cells that count. -/
theorem Filled.copies (h : Filled P width height region pout) (hregion : region ⊆ cells)
    (hcells : ∀ c ∈ cells, InColumns width c) {n : Nat} (dst src : Nat → Int × Int)
    (hdst : ∀ k < n, InColumns width (dst k)) (hsrc : ∀ k < n, dst k ∈ cells → src k ∈ region) :
    Filled P width height (region ∪ {c ∈ cells | ∃ k < n, c = dst k})
      (Nat.fold n (fun k _ pout => pout.copy (dst k) (src k)) pout) := by
  refine fold_induction
    (fun i pout => Filled P width height (region ∪ {c ∈ cells | ∃ k < i, c = dst k}) pout) ?_ ?_
  · refine h.mono ?_
    rintro c (hc | ⟨-, k, hk, -⟩)
    · exact hc
    · exact absurd hk (Nat.not_lt_zero k)
  · intro i hi pout hpout
    have hsub : region ∪ {c ∈ cells | ∃ k < i, c = dst k} ⊆ cells :=
      Set.union_subset hregion fun c hc => hc.1
    refine (hpout.copy hsub hcells (hdst i hi) fun hmem => Or.inl (hsrc i hi hmem)).mono ?_
    rintro c (hc | ⟨hc, k, hk, rfl⟩)
    · exact Or.inl (Or.inl hc)
    · rcases Nat.lt_succ_iff_lt_or_eq.mp hk with hk | rfl
      · exact Or.inl (Or.inr ⟨hc, k, hk, rfl⟩)
      · exact Or.inr ⟨hc, rfl⟩

/-! ### One pass

The lines of the pass have `size` positions, of which the first `positions` count; there are `limit`
lines in the end. -/

/-- The cells of a pass: they are in the columns of the picture, and no two of them are the same. -/
structure Direction (cell : Int → Int → Int × Int) (width limit : Int) (size : Nat)
    (positions : Int) : Prop where
  inj : ∀ line pos line' pos' : Int, cell line pos = cell line' pos' → line = line' ∧ pos = pos'
  inColumns : ∀ line pos : Int, 0 ≤ line → line < limit → 0 ≤ pos → pos < size →
    InColumns width (cell line pos)
  le_size : positions ≤ size

section

variable {cell : Int → Int → Int × Int} {limit positions : Int} {size : Nat}

theorem Direction.inColumns_of_mem (hcell : Direction cell width limit size positions) :
    ∀ c ∈ Lines cell limit positions, InColumns width c := by
  rintro c ⟨line, pos, hline, hpos, rfl⟩
  exact hcell.inColumns line pos hline.1 hline.2 hpos.1 (hpos.2.trans_le hcell.le_size)

/-- Of the positions of a line, those count that are among the first. -/
theorem Direction.lt_of_mem (hcell : Direction cell width limit size positions) {line : Int}
    {j : Nat}
    (h : cell line j ∈ Lines cell limit positions) : (j : Int) < positions := by
  obtain ⟨line', pos, -, hpos, heq⟩ := h
  exact (hcell.inj _ _ _ _ heq).2 ▸ hpos.2

variable {inSize dimFasie dimBucata offCandidatMin : Int} {id : Nat}

/-- A patch fills its lines. -/
theorem filled_copyPatch (hcell : Direction cell width limit size positions)
    (hlimit : inSize + id * dimBucata + dimBucata ≤ limit) (hbucata : 0 ≤ id * dimBucata)
    (hoff : 0 ≤ offCandidatMin) (hoff' : offCandidatMin < inSize) (hdim : 0 ≤ dimBucata)
    (h : Filled P width height (Lines cell (inSize + id * dimBucata) positions) pout) :
    Filled P width height (Lines cell (inSize + id * dimBucata + dimBucata) positions)
      (copyPatch cell pout id inSize size dimBucata offCandidatMin) := by
  have hpatch : Filled P width height
      (Lines cell (inSize + id * dimBucata + dimBucata.toNat) positions)
      (copyPatch cell pout id inSize size dimBucata offCandidatMin) := by
    refine fold_induction
      (fun i pout =>
        Filled P width height (Lines cell (inSize + id * dimBucata + i) positions) pout)
      (by simpa using h) ?_
    intro i hi pout hpout
    have hline : (i : Int) + inSize + id * dimBucata < limit := by omega
    refine (hpout.copies (Lines.mono (by omega) le_rfl)
      hcell.inColumns_of_mem (fun j => cell (i + inSize + id * dimBucata) j)
      (fun j => cell (i + offCandidatMin) j) (fun j hj => ?_) fun j _ hmem => ?_).mono ?_
    · exact hcell.inColumns _ _ (by omega) hline (by omega) (by exact_mod_cast hj)
    · -- The candidate begins in the input, so its line is before the one it goes to.
      exact ⟨_, _, ⟨by omega, by omega⟩, ⟨by omega, hcell.lt_of_mem hmem⟩, rfl⟩
    · rintro c ⟨line, pos, hline', hpos, rfl⟩
      by_cases hbefore : line < inSize + id * dimBucata + i
      · exact Or.inl ⟨line, pos, ⟨hline'.1, hbefore⟩, hpos, rfl⟩
      · have hle := hcell.le_size
        push_cast at hline'
        refine Or.inr ⟨⟨line, pos, ⟨hline'.1, by omega⟩, hpos, rfl⟩, pos.toNat, by omega, ?_⟩
        rw [Int.toNat_of_nonneg hpos.1, show line = i + inSize + id * dimBucata by omega]
  rwa [Int.toNat_of_nonneg hdim] at hpatch

/-- A line that is copied from lines of the region stays filled. -/
theorem filled_mergeLine (hcell : Direction cell width limit size positions) {lines : Int}
    (hlines : lines ≤ limit) {minId : Nat} (hminId : minId < size) {dst left right : Int}
    (hdst : 0 ≤ dst ∧ dst < lines) (hleft : 0 ≤ left ∧ left < lines)
    (hright : 0 ≤ right ∧ right < lines)
    (h : Filled P width height (Lines cell lines positions) pout) :
    Filled P width height (Lines cell lines positions)
      (mergeLine pout size minId (fun j => cell dst j) (fun j => cell left j)
        (fun j => cell right j)) := by
  have hregion : Lines cell lines positions ⊆ Lines cell limit positions := Lines.mono hlines le_rfl
  have hcolumns (j : Nat) (hj : j < size) : InColumns width (cell dst j) :=
    hcell.inColumns _ _ hdst.1 (hdst.2.trans_le hlines) (by omega) (by exact_mod_cast hj)
  have hmem (src : Int) (hsrc : 0 ≤ src ∧ src < lines) (j : Nat)
      (hj : cell dst j ∈ Lines cell limit positions) : cell src j ∈ Lines cell lines positions :=
    ⟨src, j, hsrc, ⟨by omega, hcell.lt_of_mem hj⟩, rfl⟩
  have hfirst := (h.copies hregion hcell.inColumns_of_mem (n := minId) (fun j => cell dst j)
    (fun j => cell left j) (fun j hj => hcolumns j (by omega))
    fun j _ => hmem left hleft j).mono Set.subset_union_left
  exact (hfirst.copies hregion hcell.inColumns_of_mem (n := size - minId)
    (fun k => cell dst (minId + k : Nat)) (fun k => cell right (minId + k : Nat))
    (fun k hk => hcolumns (minId + k) (by omega))
    fun k _ => hmem right hright (minId + k)).mono Set.subset_union_left

/-- The lines of a seam stay filled. -/
theorem filled_mergeLines (hcell : Direction cell width limit size positions) (hsize : 2 ≤ size)
    {lines : Int} (hlines : lines ≤ limit) (E : Nat → Nat → Int32) {n : Nat}
    (dst left right : Nat → Int) (hdst : ∀ line ≤ n, 0 ≤ dst line ∧ dst line < lines)
    (hleft : ∀ line ≤ n, 0 ≤ left line ∧ left line < lines)
    (hright : ∀ line ≤ n, 0 ≤ right line ∧ right line < lines) {minId : Nat} (hminId : minId < size)
    (h : Filled P width height (Lines cell lines positions) pout) :
    Filled P width height (Lines cell lines positions)
      (mergeLines E size (fun line j => cell (dst line) j) (fun line j => cell (left line) j)
        (fun line j => cell (right line) j) n minId pout) := by
  induction n generalizing minId pout with
  | zero =>
    exact filled_mergeLine hcell hlines hminId (hdst 0 le_rfl) (hleft 0 le_rfl) (hright 0 le_rfl) h
  | succ n ih =>
    refine ih (fun line hline => hdst line (by omega)) (fun line hline => hleft line (by omega))
      (fun line hline => hright line (by omega)) (nextId_lt (E n) hsize hminId) ?_
    exact filled_mergeLine hcell hlines hminId (hdst _ le_rfl) (hleft _ le_rfl) (hright _ le_rfl) h

/-- The seam of a patch takes its pixels from the candidate, and from before the patch. -/
theorem filled_merge (hcell : Direction cell width limit size positions) (hsize : 2 ≤ size)
    (hlimit : inSize + id * dimBucata + dimBucata ≤ limit) (hbucata : 0 ≤ id * dimBucata)
    (hfasie : 1 ≤ dimFasie) (hfasie' : dimFasie ≤ dimBucata) (hoff : 0 ≤ offCandidatMin)
    (hoff' : offCandidatMin < inSize - dimFasie)
    (h : Filled P width height (Lines cell (inSize + id * dimBucata + dimBucata) positions) pout) :
    Filled P width height (Lines cell (inSize + id * dimBucata + dimBucata) positions)
      (merge cell pout size dimFasie inSize id dimBucata offCandidatMin) := by
  have hline (line : Nat) (hle : line ≤ (dimFasie - 1).toNat) : (line : Int) < dimFasie := by omega
  refine filled_mergeLines hcell hsize hlimit _ (fun line => line + inSize + id * dimBucata)
    (fun line => line + offCandidatMin + dimBucata - dimFasie)
    (fun line => line + inSize + id * dimBucata - dimFasie) (fun line hle => ?_)
    (fun line hle => ?_) (fun line hle => ?_) (minimum_snd_lt _ (by omega)) h
  · have := hline line hle
    omega
  · have := hline line hle
    omega
  · have := hline line hle
    omega

/-- **A pass.**  Patch by patch, all lines are filled. -/
theorem filled_quilt (hsize : 2 ≤ size) (hfasie : 1 ≤ dimFasie) (hfasie' : dimFasie ≤ dimBucata)
    {choose : Picture → Nat → Int}
    (hchoose : ∀ pout i, 0 ≤ choose pout i ∧ choose pout i < inSize - dimFasie) (npatches : Int)
    (hcell : Direction cell width (inSize + npatches.toNat * dimBucata) size positions)
    (h : Filled P width height (Lines cell inSize positions) pout) :
    Filled P width height (Lines cell (inSize + npatches.toNat * dimBucata) positions)
      (quilt (fun pout i offCandidatMin =>
        merge cell (copyPatch cell pout i inSize size dimBucata offCandidatMin) size dimFasie
          inSize i
          dimBucata offCandidatMin) choose npatches pout) := by
  refine fold_induction
    (fun i pout => Filled P width height (Lines cell (inSize + i * dimBucata) positions) pout)
    (by simpa using h) ?_
  intro i hi pout hpout
  obtain ⟨hoff, hoff'⟩ := hchoose pout i
  have hbucata : 0 ≤ (i : Int) * dimBucata := Int.mul_nonneg (by omega) (by omega)
  have hnext : ((i + 1 : Nat) : Int) * dimBucata = i * dimBucata + dimBucata := by
    push_cast
    rw [Int.add_mul, Int.one_mul]
  have hlimit : inSize + i * dimBucata + dimBucata ≤ inSize + npatches.toNat * dimBucata := by
    rw [Int.add_assoc, ← hnext]
    exact Int.add_le_add_left (Int.mul_le_mul_of_nonneg_right (by omega) (by omega)) _
  rw [hnext, ← Int.add_assoc]
  refine filled_merge hcell hsize hlimit hbucata hfasie hfasie' hoff hoff' ?_
  exact filled_copyPatch hcell hlimit hbucata hoff (by omega) (by omega) hpout

end

/-! ### The whole picture -/

/-- The pixel is one of the input. -/
def FromInput (pin : Picture) (color : Pixel) : Prop :=
  ∃ i j, (0 ≤ i ∧ i < pin.height) ∧ (0 ≤ j ∧ j < pin.width) ∧ color = pin.get i j

/-- The input is copied to the first rows and columns, also if the picture has fewer columns. -/
theorem filled_copyInput (pin pout : Picture) (hwidth : 0 ≤ pin.width) (hheight : 0 ≤ pin.height) :
    Filled (FromInput pin) pout.width pout.height (Lines byRow pin.height pin.width)
      (copyInput pin pout) := by
  have hrows : Filled (FromInput pin) pout.width pout.height
      (Lines byRow pin.height.toNat pin.width) (copyInput pin pout) := by
    refine fold_induction (fun i pout' => Filled (FromInput pin) pout.width pout.height
      (Lines byRow i pin.width) pout') ?_ ?_
    · refine ⟨rfl, rfl, ?_⟩
      rintro c ⟨line, pos, hline, -⟩
      omega
    · intro i hi pout' hpout'
      -- A row is filled from the left, behind those that are complete.
      have hrow : Filled (FromInput pin) pout.width pout.height
          (Lines byRow i pin.width ∪ {c | ∃ j < pin.width.toNat, c = byRow i j})
          (Nat.fold pin.width.toNat (fun j _ pout => pout.set i j (pin.get i j)) pout') := by
        refine fold_induction (fun n pout' => Filled (FromInput pin) pout.width pout.height
          (Lines byRow i pin.width ∪ {c | ∃ j < n, c = byRow i j}) pout') ?_ ?_
        · refine hpout'.mono ?_
          rintro c (hc | ⟨j, hj, -⟩)
          · exact hc
          · exact absurd hj (Nat.not_lt_zero j)
        · intro j hj pout'' hpout''
          have hcolor : FromInput pin (pin.get i j) := ⟨i, j, by omega, by omega, rfl⟩
          refine (hpout''.set i j hcolor).mono ?_
          rintro c (hc | ⟨k, hk, rfl⟩)
          · exact Set.mem_insert_of_mem _ (Or.inl hc)
          · rcases Nat.lt_succ_iff_lt_or_eq.mp hk with hk | rfl
            · exact Set.mem_insert_of_mem _ (Or.inr ⟨k, hk, rfl⟩)
            · exact Set.mem_insert _ _
      -- The rows up to this one are those before it and itself.
      refine hrow.mono ?_
      rintro c ⟨line, pos, hline, hpos, rfl⟩
      by_cases hbefore : line < i
      · exact Or.inl ⟨line, pos, ⟨hline.1, hbefore⟩, hpos, rfl⟩
      · push_cast at hline
        refine Or.inr ⟨pos.toNat, by omega, ?_⟩
        rw [Int.toNat_of_nonneg hpos.1, show line = i by omega]
  rwa [Int.toNat_of_nonneg hheight] at hrows

/-- The overlaps have a line at least, no more than a patch, and fewer than the input. -/
structure Overlaps (pin : Picture) (params : Parameters) : Prop where
  height : 1 ≤ params.dimFasieHeight ∧ params.dimFasieHeight ≤ params.dimBucataHeight ∧
    params.dimFasieHeight < pin.height
  width : 1 ≤ params.dimFasieWidth ∧ params.dimFasieWidth ≤ params.dimBucataWidth ∧
    params.dimFasieWidth < pin.width

/-- The vertical pass: the columns of the input are filled in all rows. -/
theorem filled_quiltVertical {pin pout : Picture} {dimBucata dimFasie inHeight : Int}
    {choose : Picture → Nat → Int} {positions : Int} (npatches : Int)
    (hpositions : positions ≤ width)
    (hwidth : 2 ≤ width) (hfasie : 1 ≤ dimFasie) (hfasie' : dimFasie ≤ dimBucata)
    (hchoose : ∀ pout i, 0 ≤ choose pout i ∧ choose pout i < inHeight - dimFasie)
    (h : Filled (FromInput pin) width height (Lines byRow inHeight positions) pout) :
    Filled (FromInput pin) width height
      (Lines byRow (inHeight + npatches.toNat * dimBucata) positions)
      (quiltVertical choose pout dimBucata dimFasie npatches inHeight) := by
  obtain rfl := h.width_eq
  have hcell : Direction byRow pout.width (inHeight + npatches.toNat * dimBucata) pout.width.toNat
      positions := {
    inj := fun _ _ _ _ heq => ⟨congrArg Prod.fst heq, congrArg Prod.snd heq⟩
    inColumns := fun line pos _ _ hpos hpos' =>
      ⟨hpos, (hpos'.trans_eq (Int.toNat_of_nonneg (by omega)) : pos < pout.width)⟩
    le_size := hpositions.trans_eq (Int.toNat_of_nonneg (by omega)).symm }
  exact filled_quilt (by omega) hfasie hfasie' hchoose npatches hcell h

/-- The horizontal pass: the rows are filled. -/
theorem filled_quiltOrizontal {pin pout : Picture} {dimBucata dimFasie npatches inWidth : Int}
    {choose : Picture → Nat → Int} (hheight : 2 ≤ height)
    (hwidth : inWidth + npatches.toNat * dimBucata ≤ width) (hfasie : 1 ≤ dimFasie)
    (hfasie' : dimFasie ≤ dimBucata)
    (hchoose : ∀ pout i, 0 ≤ choose pout i ∧ choose pout i < inWidth - dimFasie)
    (h : Filled (FromInput pin) width height (Lines byColumn inWidth height) pout) :
    Filled (FromInput pin) width height
      (Lines byColumn (inWidth + npatches.toNat * dimBucata) height)
      (quiltOrizontal choose pout dimBucata dimFasie npatches inWidth) := by
  obtain rfl := h.height_eq
  have hcell : Direction byColumn width (inWidth + npatches.toNat * dimBucata) pout.height.toNat
      pout.height := {
    inj := fun _ _ _ _ heq => ⟨congrArg Prod.snd heq, congrArg Prod.fst heq⟩
    inColumns := fun line pos hline hline' _ _ => ⟨hline, hline'.trans_le hwidth⟩
    le_size := (Int.toNat_of_nonneg (by omega)).symm.le }
  exact filled_quilt (by omega) hfasie hfasie' hchoose npatches hcell h

/-- The sizes of the picture. -/
theorem computeParameters_out {pin : Picture} {nbucatiHeight nbucatiWidth zoom : Int}
    {bheight bwidth : Int → Int} {params : Parameters}
    (h : computeParameters pin nbucatiHeight nbucatiWidth bheight bwidth zoom = some params) :
    params.outHeight = params.dimBucataHeight * nbucatiHeight + pin.height ∧
      params.outWidth = params.dimBucataWidth * nbucatiWidth + pin.width := by
  obtain ⟨-, hparams⟩ := Option.ite_none_left_eq_some.mp h
  rw [← Option.some.inj hparams]
  exact ⟨rfl, rfl⟩

/-- The vertical pass fills all rows, also if there are fewer than in the input: a negative number
    of patches makes the picture smaller, and no patches. -/
theorem filled_vertical {pin pout : Picture} {params : Parameters} {nbucatiHeight : Int}
    {choose : Picture → Nat → Int}
    (hout : params.outHeight = params.dimBucataHeight * nbucatiHeight + pin.height)
    (hwidth : 2 ≤ params.outWidth) (hoverlaps : Overlaps pin params)
    (hchoose : ∀ pout i, 0 ≤ choose pout i ∧ choose pout i < pin.height - params.dimFasieHeight)
    (h : Filled (FromInput pin) params.outWidth params.outHeight
      (Lines byRow pin.height pin.width) pout) :
    Filled (FromInput pin) params.outWidth params.outHeight
      (Lines byColumn (min pin.width params.outWidth) params.outHeight)
      (quiltVertical choose pout params.dimBucataHeight params.dimFasieHeight nbucatiHeight
        pin.height) := by
  obtain ⟨hfasie, hfasie', -⟩ := hoverlaps.height
  have hrows : params.outHeight ≤ pin.height + nbucatiHeight.toNat * params.dimBucataHeight := by
    have hle : nbucatiHeight * params.dimBucataHeight ≤
        nbucatiHeight.toNat * params.dimBucataHeight :=
      Int.mul_le_mul_of_nonneg_right (Int.self_le_toNat _) (by omega)
    rw [hout, Int.mul_comm]
    omega
  have hpass := filled_quiltVertical nbucatiHeight (min_le_right _ _) hwidth hfasie hfasie' hchoose
    (h.mono (Lines.mono le_rfl (min_le_left pin.width params.outWidth)))
  refine hpass.mono ?_
  rintro c ⟨col, row, hcol, hrow, rfl⟩
  exact ⟨row, col, ⟨hrow.1, hrow.2.trans_le hrows⟩, hcol, rfl⟩

/-- The horizontal pass fills all columns, also if there are fewer than in the input. -/
theorem filled_orizontal {pin pout : Picture} {params : Parameters} {nbucatiWidth : Int}
    {choose : Picture → Nat → Int}
    (hout : params.outWidth = params.dimBucataWidth * nbucatiWidth + pin.width)
    (hheight : 2 ≤ params.outHeight) (hoverlaps : Overlaps pin params)
    (hchoose : ∀ pout i, 0 ≤ choose pout i ∧ choose pout i < pin.width - params.dimFasieWidth)
    (h : Filled (FromInput pin) params.outWidth params.outHeight
      (Lines byColumn (min pin.width params.outWidth) params.outHeight) pout) :
    Filled (FromInput pin) params.outWidth params.outHeight
      (Lines byColumn params.outWidth params.outHeight)
      (quiltOrizontal choose pout params.dimBucataWidth params.dimFasieWidth nbucatiWidth
        pin.width) := by
  obtain ⟨hfasie, hfasie', -⟩ := hoverlaps.width
  have hdim : 0 ≤ params.dimBucataWidth := by omega
  rcases lt_or_ge 0 nbucatiWidth with hpos | hneg
  · have hwidth : pin.width + nbucatiWidth.toNat * params.dimBucataWidth = params.outWidth := by
      rw [hout, Int.toNat_of_nonneg hpos.le, Int.mul_comm, Int.add_comm]
    have hmin : min pin.width params.outWidth = pin.width := by
      have := Int.mul_nonneg (Int.natCast_nonneg nbucatiWidth.toNat) hdim
      omega
    rw [hmin] at h
    have hdone := filled_quiltOrizontal hheight hwidth.le hfasie hfasie' hchoose h
    rwa [hwidth] at hdone
  · -- There are no patches.
    have hmin : min pin.width params.outWidth = params.outWidth := by
      have := Int.mul_nonpos_of_nonneg_of_nonpos hdim hneg
      omega
    rw [hmin] at h
    show Filled _ _ _ _ (Nat.fold nbucatiWidth.toNat _ _)
    rw [Int.toNat_of_nonpos hneg]
    exact h

/-- A picture of two rows and two columns. -/
def fourPixels : Picture where
  width := 2
  height := 2
  maxColor := 255
  image := fun i => ⟨Int32.ofInt i, 0, 0⟩

end WorkAtUPB.ImageQuilting
