import WorkAtUPB.ImageQuilting.Quilt
import WorkAtUPB.Lib.CharArray
import WorkAtUPB.Lib.Stdio
import WorkAtUPB.Lib.Tokens

namespace WorkAtUPB.ImageQuilting

open CharArray Decimal Raster Stdio Tokens

/-!
# Pictures in files (`Picture::load`, `Picture::save`, `ppm.cpp`)

A picture is written as a header of four lines and a line for each channel of each pixel.  The
header is read by lines and words, and the channels by `fscanf`:

* `save`, `load` — the text of a picture, and the picture that is read from a file;
* `Read`, `Read.set` — the pixels of a region are those of the picture that was saved;
* `readPixel_eq`, `readRow_eq`, `readPixels_eq` — a pixel is read off the file, a row, and all rows;
* `load_eq` — the header is read back;
* `load_save` — reading what was written gives the picture back.

The place of a pixel is a number without bound, as for every picture that fits into memory.
-/

/-- The size of `buffer`. -/
def MAX : Nat := 128

/-- `fprintf` of `"%d\n"`. -/
def numberLine (n : Int) : List UInt8 := intText n ++ [10]

/-- The lines of a pixel. -/
def pixelLines (color : Pixel) : List UInt8 :=
  numberLine color.red.toInt ++ numberLine color.green.toInt ++ numberLine color.blue.toInt

/-- The lines of a row. -/
def rowLines (p : Picture) (i : Nat) : List UInt8 :=
  (List.range p.width.toNat).flatMap fun (j : Nat) => pixelLines (p.get i j)

/-- `Picture::save`: what is written to the file. -/
def save (p : Picture) : List UInt8 :=
  ascii "P3\n" ++ ascii "# CREATOR: Dascalu Laurentiu's Image Quilting Application\n" ++
    (intText p.width ++ 32 :: numberLine p.height) ++ numberLine p.maxColor ++
    (List.range p.height.toNat).flatMap (rowLines p)

/-- `Picture::reset`; `memory` is around the new pixels. -/
def Picture.reset (p : Picture) (height width : Int) (memory : Int → Pixel) : Picture :=
  Picture.new height width p.maxColor memory

/-- `fgets` into `buffer`: the string that is in it afterwards, and the rest of the file. -/
def readLine (buffer s : List UInt8) : List UInt8 × List UInt8 :=
  match fgets MAX s with
  | some (w, s) => (contents w, s)
  | none => (buffer, s)

/-- The delimiters of `strtok`. -/
def isDelimiter (c : UInt8) : Bool := c = 32 || c = 10

/-- `fscanf` of a `%d` into a variable, which keeps its value if there is no number. -/
def readInto (var : Int32) (s : List UInt8) : Int32 × List UInt8 :=
  match scanInt s with
  | (some n, s) => (toInt n, s)
  | (none, s) => (var, s)

/-- The body of the loops: a pixel, through the variables `red`, `green` and `blue`. -/
def readPixel (p : Picture) (i j : Int) (vars : Pixel) (s : List UInt8) :
    (Picture × Pixel) × List UInt8 :=
  let (red, s) := readInto vars.red s
  let (green, s) := readInto vars.green s
  let (blue, s) := readInto vars.blue s
  ((p.set i j ⟨red, green, blue⟩, ⟨red, green, blue⟩), s)

/-- The inner loop: a row. -/
def readRow (width : Nat) (i : Int) (st : (Picture × Pixel) × List UInt8) :
    (Picture × Pixel) × List UInt8 :=
  Nat.fold width (fun j _ st => readPixel st.1.1 i j st.1.2 st.2) st

/-- The loops of `load`. -/
def readPixels (p : Picture) (vars : Pixel) (s : List UInt8) : (Picture × Pixel) × List UInt8 :=
  Nat.fold p.height.toNat (fun i _ st => readRow p.width.toNat i st) ((p, vars), s)

/-- `Picture::load`; `none` is an access through `NULL`.  The file is `none` if it cannot be opened,
    `buffer` is the string in the buffer, `memory` is around the new pixels, and `vars` are the
    variables for the channels. -/
def load (p : Picture) (file : Option (List UInt8)) (buffer : List UInt8) (memory : Int → Pixel)
    (vars : Pixel) : Option Picture :=
  match file with
  | none => some p
  | some s =>
    let (buffer, s) := readLine buffer s
    if buffer ≠ ascii "P3\n" then some p
    else do
      let (buffer, s) := readLine buffer s
      let (buffer, s) := readLine buffer s
      let (width, rest) ← strtok isDelimiter buffer
      let (height, _) ← strtok isDelimiter rest
      let width := (toInt (readInt width)).toInt
      let height := (toInt (readInt height)).toInt
      let (maxColor, s) ← fgets MAX s
      let p := { p with maxColor := (toInt (readInt (contents maxColor))).toInt }
      some (readPixels (p.reset height width memory) vars s).1.1

/-! ### Pixels -/

/-- `q` has the size and the colours of `p`, and its pixels in the region. -/
structure Read (p : Picture) (region : Set (Int × Int)) (q : Picture) : Prop where
  width_eq : q.width = p.width
  height_eq : q.height = p.height
  maxColor_eq : q.maxColor = p.maxColor
  get_eq : ∀ cell ∈ region, q.get cell.1 cell.2 = p.get cell.1 cell.2

/-- The cells in front of a cell. -/
def before (p : Picture) (i j : Int) : Set (Int × Int) :=
  {cell | InColumns p.width cell ∧ 0 ≤ cell.1 ∧ (cell.1 < i ∨ cell.1 = i ∧ cell.2 < j)}

variable {p q : Picture} {region region' : Set (Int × Int)} {s rest : List UInt8}

theorem Read.mono (h : Read p region q) (hsub : region' ⊆ region) : Read p region' q :=
  ⟨h.width_eq, h.height_eq, h.maxColor_eq, fun cell hcell => h.get_eq cell (hsub hcell)⟩

/-- Setting one more pixel. -/
theorem Read.set {i j : Int} (h : Read p (before p i j) q) (hcell : InColumns p.width (i, j)) :
    Read p (before p i (j + 1)) (q.set i j (p.get i j)) := by
  refine ⟨h.width_eq, h.height_eq, h.maxColor_eq, ?_⟩
  rintro cell ⟨hcol, hlo, hbefore⟩
  show Function.update q.image (index q.width (i, j)) (p.get i j) (index q.width cell) = _
  rw [h.width_eq, Function.update_apply]
  split
  next heq =>
    rw [index_inj hcol hcell heq]
  next hne =>
    rw [← h.width_eq]
    refine h.get_eq cell ⟨hcol, hlo, ?_⟩
    rcases hbefore with hrow | ⟨hrow, hlt⟩
    · exact .inl hrow
    · have hcol' : cell.2 ≠ j := fun hcol => hne (by rw [← hrow, ← hcol])
      exact .inr ⟨hrow, by omega⟩

/-- A number is read off the file. -/
theorem readInto_eq (var n : Int32) (h : Ahead s (numberLine n.toInt ++ rest)) :
    ∃ s', readInto var s = (n, s') ∧ Ahead s' rest := by
  rw [numberLine, List.append_assoc, List.singleton_append] at h
  have hscan := scanInt_intText (by simp [isDigit]) h
  refine ⟨10 :: rest, ?_, ahead_cons (by decide) rest⟩
  rw [readInto, hscan]
  dsimp only
  rw [toInt_toInt]

/-- **Step.**  A pixel is read off the file. -/
theorem readPixel_eq (q : Picture) (i j : Int) (vars color : Pixel)
    (h : Ahead s (pixelLines color ++ rest)) :
    ∃ s', readPixel q i j vars s = ((q.set i j color, color), s') ∧ Ahead s' rest := by
  rw [pixelLines, List.append_assoc, List.append_assoc] at h
  obtain ⟨s₁, hred, h₁⟩ := readInto_eq vars.red color.red h
  obtain ⟨s₂, hgreen, h₂⟩ := readInto_eq vars.green color.green h₁
  obtain ⟨s₃, hblue, h₃⟩ := readInto_eq vars.blue color.blue h₂
  refine ⟨s₃, ?_, h₃⟩
  rw [readPixel, hred]
  dsimp only
  rw [hgreen]
  dsimp only
  rw [hblue]

/-- **Inner loop.**  A row is read off the file. -/
theorem readRow_eq {i : Nat} {st : Picture × Pixel} (hst : Read p (before p i 0) st.1)
    (h : Ahead s (rowLines p i ++ rest)) :
    ∃ st' s', readRow p.width.toNat i (st, s) = (st', s') ∧ Ahead s' rest ∧
      Read p (before p (i + 1 : Nat) 0) st'.1 := by
  have hrow : ∃ st' s', readRow p.width.toNat i (st, s) = (st', s') ∧ Ahead s' rest ∧
      Read p (before p i (p.width.toNat : Int)) st'.1 := by
    unfold readRow
    refine fold_reads (fun j (st : Picture × Pixel) => Read p (before p i j) st.1) hst ?_ h
    intro j hj st s rest hst hs
    obtain ⟨s', hread, hs'⟩ := readPixel_eq st.1 i j st.2 (p.get i j) hs
    have hcol : InColumns p.width ((i : Int), (j : Int)) :=
      ⟨Int.natCast_nonneg j, Int.lt_toNat.mp hj⟩
    exact ⟨_, s', hread, hs', hst.set hcol⟩
  obtain ⟨st', s', hread, hs', hst'⟩ := hrow
  refine ⟨st', s', hread, hs', hst'.mono ?_⟩
  rintro cell ⟨⟨hcol, hcol'⟩, hlo, hbefore⟩
  exact ⟨⟨hcol, hcol'⟩, hlo, by omega⟩

/-- **Outer loop.**  All pixels are read off the file. -/
theorem readPixels_eq (hheight : 0 ≤ p.height) (vars : Pixel) (hq : Read p ∅ q)
    (h : Ahead s ((List.range p.height.toNat).flatMap (rowLines p))) :
    Read p (before p p.height 0) (readPixels q vars s).1.1 := by
  have hinit : Read p (before p (0 : Nat) 0) q := by
    refine hq.mono ?_
    rintro cell ⟨⟨hcol, -⟩, hlo, hbefore⟩
    omega
  have hrows : ∃ st' s', readPixels q vars s = (st', s') ∧ Ahead s' [] ∧
      Read p (before p (p.height.toNat : Int) 0) st'.1 := by
    rw [← List.append_nil (List.flatMap _ _)] at h
    rw [readPixels, hq.height_eq, hq.width_eq]
    exact fold_reads (fun i (st : Picture × Pixel) => Read p (before p i 0) st.1) hinit
      (fun i _ st s rest hst hs => readRow_eq hst hs) h
  obtain ⟨st, s', hread, -, hst⟩ := hrows
  rw [hread]
  rwa [Int.toNat_of_nonneg hheight] at hst

/-! ### Files -/

/-- The header of a picture, and what is behind it. -/
theorem save_eq (p : Picture) :
    save p = ascii "P3" ++ 10 ::
      (ascii "# CREATOR: Dascalu Laurentiu's Image Quilting Application" ++ 10 ::
        ((intText p.width ++ 32 :: intText p.height) ++ 10 ::
          (intText p.maxColor ++ 10 :: (List.range p.height.toNat).flatMap (rowLines p)))) := by
  have hformat : ascii "P3\n" = ascii "P3" ++ [10] := by decide
  have hcomment : ascii "# CREATOR: Dascalu Laurentiu's Image Quilting Application\n" =
      ascii "# CREATOR: Dascalu Laurentiu's Image Quilting Application" ++ [10] := by decide
  rw [save, numberLine, numberLine, hformat, hcomment]
  simp only [List.append_assoc, List.cons_append, List.nil_append]

/-- A line that fits into `buffer`. -/
theorem readLine_eq {w : List UInt8} (hw : 10 ∉ w) (hnul : 0 ∉ w) (hlength : w.length + 1 < MAX)
    (buffer rest : List UInt8) : readLine buffer (w ++ 10 :: rest) = (w ++ [10], rest) := by
  rw [readLine, fgets_eq hw hlength]
  dsimp only
  rw [contents_append hnul]
  rfl

/-- A number has no delimiter in its text. -/
theorem intText_word (n : Int) : ∀ c ∈ intText n, isDelimiter c = false := by
  intro c hc
  rcases of_mem_intText hc with hdigit | rfl
  · by_contra hdelim
    rw [Bool.not_eq_false, isDelimiter, Bool.or_eq_true, decide_eq_true_eq, decide_eq_true_eq]
      at hdelim
    rcases hdelim with rfl | rfl
    · exact absurd hdigit (by decide)
    · exact absurd hdigit (by decide)
  · decide

/-- The text of an `int` is short. -/
theorem length_intText_int {n : Int} (hlo : -2 ^ 31 ≤ n) (hhi : n < 2 ^ 31) :
    (intText n).length ≤ 11 := length_intText_le (k := 10) (by omega) (by omega)

/-- The words of the line with the size. -/
theorem strtok_size (width height : Int) :
    strtok isDelimiter ((intText width ++ 32 :: intText height) ++ [10]) =
        some (intText width, intText height ++ [10]) ∧
      strtok isDelimiter (intText height ++ [10]) = some (intText height, []) := by
  rw [List.append_assoc, List.cons_append]
  exact ⟨strtok_append_cons (intText_ne_nil width) (intText_word width) (by decide),
    strtok_append_cons (intText_ne_nil height) (intText_word height) (by decide)⟩

/-- **Header.**  The size and the colours are read back, and the pixels are left to read. -/
theorem load_eq (p old : Picture) (hwidth : 0 ≤ p.width ∧ p.width < 2 ^ 31)
    (hheight : 0 ≤ p.height ∧ p.height < 2 ^ 31)
    (hcolor : -2 ^ 31 ≤ p.maxColor ∧ p.maxColor < 2 ^ 31) (buffer : List UInt8)
    (memory : Int → Pixel) (vars : Pixel) :
    load old (some (save p)) buffer memory vars =
      some (readPixels (Picture.new p.height p.width p.maxColor memory) vars
        ((List.range p.height.toNat).flatMap (rowLines p))).1.1 := by
  obtain ⟨hwidth₀, hwidth₁⟩ := hwidth
  obtain ⟨hheight₀, hheight₁⟩ := hheight
  obtain ⟨hcolor₀, hcolor₁⟩ := hcolor
  have hlen₁ := length_intText_int (n := p.width) (by omega) hwidth₁
  have hlen₂ := length_intText_int (n := p.height) (by omega) hheight₁
  have hlen₃ := length_intText_int hcolor₀ hcolor₁
  -- No line has a newline or a NUL inside, so `fgets` gives each of them whole.
  have hline : ∀ n : Int, 10 ∉ intText n := fun n h => absurd (intText_word n 10 h) (by decide)
  have hsize : 10 ∉ intText p.width ++ 32 :: intText p.height := by simp [hline]
  have hsizeNul : 0 ∉ intText p.width ++ 32 :: intText p.height := by simp [zero_notMem_intText]
  have hformat : ¬ ascii "P3" ++ [10] ≠ ascii "P3\n" := by decide
  have hmax : contents (intText p.maxColor ++ [10]) = intText p.maxColor ++ [10] :=
    contents_append (zero_notMem_intText _)
  obtain ⟨hstrtok₁, hstrtok₂⟩ := strtok_size p.width p.height
  -- The format, the comment, the size and the colours, line by line.
  rw [load, save_eq]
  dsimp only
  rw [readLine_eq (by decide) (by decide) (by decide)]
  dsimp only
  rw [if_neg hformat, readLine_eq (by decide) (by decide) (by decide)]
  dsimp only
  rw [readLine_eq hsize hsizeNul (by simp [MAX]; omega)]
  dsimp only
  rw [hstrtok₁, Option.bind_eq_bind, Option.bind_some]
  dsimp only
  rw [hstrtok₂, Option.bind_some]
  dsimp only
  rw [fgets_eq (hline _) (by simp [MAX]; omega), Option.bind_some]
  dsimp only
  rw [hmax, readInt_intText_append (by simp [isDigit]), readInt_intText, readInt_intText,
    toInt_of_int hcolor₀ hcolor₁, toInt_of_int (by omega) hwidth₁, toInt_of_int (by omega) hheight₁]
  rfl

/-- **Round trip.**  What is read from the file of a picture has its size, its colours and its
    pixels. -/
theorem load_save (p old : Picture) (hwidth : 0 ≤ p.width ∧ p.width < 2 ^ 31)
    (hheight : 0 ≤ p.height ∧ p.height < 2 ^ 31)
    (hcolor : -2 ^ 31 ≤ p.maxColor ∧ p.maxColor < 2 ^ 31) (buffer : List UInt8)
    (memory : Int → Pixel) (vars : Pixel) :
    ∃ q, load old (some (save p)) buffer memory vars = some q ∧ q.width = p.width ∧
      q.height = p.height ∧ q.maxColor = p.maxColor ∧
      ∀ i j, 0 ≤ i → i < p.height → 0 ≤ j → j < p.width → q.get i j = p.get i j := by
  have hnew : Read p ∅ (Picture.new p.height p.width p.maxColor memory) :=
    ⟨rfl, rfl, rfl, fun cell hcell => absurd hcell (Set.notMem_empty cell)⟩
  have hread := readPixels_eq hheight.1 vars hnew (Ahead.refl _)
  refine ⟨_, load_eq p old hwidth hheight hcolor buffer memory vars, hread.width_eq,
    hread.height_eq, hread.maxColor_eq, ?_⟩
  intro i j hi hi' hj hj'
  exact hread.get_eq (i, j) ⟨⟨hj, hj'⟩, hi, .inl hi'⟩

/-- A picture of two pixels, with a negative channel. -/
theorem load_save_two :
    ∃ q, load ⟨0, 0, 0, fun _ => ⟨0, 0, 0⟩⟩
        (some (save ⟨2, 1, 255, fun i => if i = 0 then ⟨-7, 10, 255⟩ else ⟨0, 32, 9⟩⟩)) []
        (fun _ => ⟨1, 1, 1⟩) ⟨5, 6, 7⟩ = some q ∧ q.width = 2 ∧ q.height = 1 ∧ q.maxColor = 255 ∧
      ∀ i j, 0 ≤ i → i < 1 → 0 ≤ j → j < 2 →
        q.get i j =
          Picture.get ⟨2, 1, 255, fun i => if i = 0 then ⟨-7, 10, 255⟩ else ⟨0, 32, 9⟩⟩ i j :=
  load_save ⟨2, 1, 255, fun i => if i = 0 then ⟨-7, 10, 255⟩ else ⟨0, 32, 9⟩⟩ _ (by decide)
    (by decide) (by decide) _ _ _

end WorkAtUPB.ImageQuilting
