import WorkAtUPB.Lib.Raster

namespace WorkAtUPB.ImageQuilting

open Raster

/-!
# ImageQuiltingCellArchitecture — pictures and quilting (`ppm.cpp`, `quilt.cpp`, `ppu.cpp`)

* `Picture` — a picture in memory, with `get` and `set`;
* `errors`, `costs`, `minimum`, `nextId` — the matrices `e` and `E` and the walk back through `E`;
* `copyPatch`, `merge`, `quilt` — a patch, its seam, and all patches; the functions of `quilt.cpp`
  are these with rows as lines, or columns;
* `computeParameters`, `quilted` — the picture that `main` makes, up to `filter_image`.

This is the path without `CELL` and `DEBUG`.  What surrounds a picture in memory is arbitrary, and
the candidate of a patch is chosen from the picture and the number of the patch.
-/

/-! ### Pictures -/

/-- `pixel`. -/
structure Pixel where
  red : Int32
  green : Int32
  blue : Int32
  deriving DecidableEq, Repr

/-- `pixel::compare`. -/
def Pixel.compare (p1 p2 : Pixel) : Int32 :=
  (p1.red - p2.red) * (p1.red - p2.red) + (p1.green - p2.green) * (p1.green - p2.green) +
    (p1.blue - p2.blue) * (p1.blue - p2.blue)

/-- `Picture`; `image` is the memory from the first pixel on. -/
structure Picture where
  width : Int
  height : Int
  maxColor : Int
  image : Int → Pixel

/-- `Picture(h, w, color)`: the pixels are zero, and `memory` is around them. -/
def Picture.new (h w color : Int) (memory : Int → Pixel) : Picture where
  width := w
  height := h
  maxColor := color
  image := fun i => if 0 ≤ i ∧ i < h * w then ⟨0, 0, 0⟩ else memory i

/-- `Picture::set`. -/
def Picture.set (p : Picture) (row col : Int) (color : Pixel) : Picture :=
  { p with image := paint p.width p.image (row, col) color }

/-- `Picture::get`. -/
def Picture.get (p : Picture) (row col : Int) : Pixel := p.image (index p.width (row, col))

/-- `set` of what `get` gives. -/
def Picture.copy (p : Picture) (dst src : Int × Int) : Picture :=
  p.set dst.1 dst.2 (p.get src.1 src.2)

/-! ### Seams -/

/-- `MIN`. -/
def MIN (a b : Int32) : Int32 := if a < b then a else b

/-- The matrix `e`. -/
def errors (pout : Picture) (candidat1 candidat2 : Int) (i j : Nat) : Int32 :=
  Pixel.compare (pout.get i (j + candidat1)) (pout.get i (j + candidat2))

/-- The matrix `E`, for lines of `size` entries. -/
def costs (e : Nat → Nat → Int32) (size : Nat) : Nat → Nat → Int32
  | 0, j => e 0 j
  | i + 1, j =>
    let E := costs e size i
    if j = 0 then MIN (E 0) (E 1)
    else if j = size - 1 then MIN (E (size - 2)) (E (size - 1))
    else MIN (E (j - 1)) (MIN (E j) (E (j + 1)))

/-- `__min`: the first minimum of a line of `E`, and where it is. -/
def minimum (line : Nat → Int32) (y : Nat) : Int32 × Nat :=
  Nat.fold (y - 1) (fun k _ (min, minId) =>
    let j := k + 1
    if min > line j then (line j, j) else (min, minId)) (line 0, 0)

/-- The position in the line `line` of `E` that follows `minId`. -/
def nextId (line : Nat → Int32) (size minId : Nat) : Nat :=
  if minId = 0 then
    let min := MIN (line 0) (line 1)
    if min = line 0 then 0 else 1
  else if minId = size - 1 then
    let min := MIN (line (size - 2)) (line (size - 1))
    if min = line (size - 2) then size - 2 else size - 1
  else
    let min := MIN (line (minId - 1)) (MIN (line minId) (line (minId + 1)))
    if min = line (minId - 1) then minId - 1
    else if min = line (minId + 1) then minId + 1
    else minId

/-- The line `id` of a strip: up to `minId` from `left`, from there on from `right`. -/
def mergeLine (pout : Picture) (size minId : Nat) (dst left right : Nat → Int × Int) : Picture :=
  let pout := Nat.fold minId (fun j _ pout => pout.copy (dst j) (left j)) pout
  Nat.fold (size - minId) (fun k _ pout =>
    let j := minId + k
    pout.copy (dst j) (right j)) pout

/-- The loop of a merge, from the line `id` down to the first one. -/
def mergeLines (E : Nat → Nat → Int32) (size : Nat) (dst left right : Nat → Nat → Int × Int) :
    (id minId : Nat) → Picture → Picture
  | 0, minId, pout => mergeLine pout size minId (dst 0) (left 0) (right 0)
  | id + 1, minId, pout =>
    let pout := mergeLine pout size minId (dst (id + 1)) (left (id + 1)) (right (id + 1))
    mergeLines E size dst left right id (nextId (E id) size minId) pout

/-! ### Patches

The picture is taken in lines of `size` positions: rows for one pass, columns for the other. -/

/-- A row is a line. -/
def byRow (line pos : Int) : Int × Int := (line, pos)

/-- A column is a line. -/
def byColumn (line pos : Int) : Int × Int := (pos, line)

/-- The loops of a `netezire`: the patch `id`, copied from the candidate. -/
def copyPatch (cell : Int → Int → Int × Int) (pout : Picture) (id : Nat) (inSize : Int) (size : Nat)
    (dimBucata offCandidatMin : Int) : Picture :=
  Nat.fold dimBucata.toNat (fun i _ pout =>
    Nat.fold size (fun j _ pout =>
      pout.copy (cell (i + inSize + id * dimBucata) j) (cell (i + offCandidatMin) j)) pout) pout

/-- A merge: the seam of the patch `id`. -/
def merge (cell : Int → Int → Int × Int) (pout : Picture) (size : Nat) (dimFasie inSize : Int)
    (id : Nat) (dimBucata offCandidatMin : Int) : Picture :=
  let candidat1 := inSize + id * dimBucata - dimBucata
  let candidat2 := offCandidatMin
  let e := errors pout candidat1 candidat2
  let E := costs e size
  let line := (dimFasie - 1).toNat
  mergeLines E size (fun line j => cell (line + inSize + id * dimBucata) j)
    (fun line j => cell (line + offCandidatMin + dimBucata - dimFasie) j)
    (fun line j => cell (line + inSize + id * dimBucata - dimFasie) j)
    line (minimum (E line) size).2 pout

/-- The loop over the patches. -/
def quilt (netezire : Picture → Nat → Int → Picture) (choose : Picture → Nat → Int)
    (npatches : Int) (pout : Picture) : Picture :=
  Nat.fold npatches.toNat (fun i _ pout => netezire pout i (choose pout i)) pout

/-- `vertical_merge`. -/
def verticalMerge (pout : Picture) (width : Nat) (dimFasieHeight inHeight : Int) (id : Nat)
    (dimBucataHeight offCandidatMin : Int) : Picture :=
  merge byRow pout width dimFasieHeight inHeight id dimBucataHeight offCandidatMin

/-- `vertical_netezire`. -/
def verticalNetezire (pout : Picture) (id : Nat) (inHeight : Int) (width : Nat)
    (dimFasieHeight dimBucataHeight offCandidatMin : Int) : Picture :=
  let pout := copyPatch byRow pout id inHeight width dimBucataHeight offCandidatMin
  verticalMerge pout width dimFasieHeight inHeight id dimBucataHeight offCandidatMin

/-- `quilt_vertical`. -/
def quiltVertical (choose : Picture → Nat → Int) (pout : Picture)
    (dimBucataHeight dimFasieHeight npatches inHeight : Int) : Picture :=
  let width := pout.width.toNat
  quilt (fun pout i offCandidatMin =>
    verticalNetezire pout i inHeight width dimFasieHeight dimBucataHeight offCandidatMin)
    choose npatches pout

/-- `orizontal_merge`. -/
def orizontalMerge (pout : Picture) (height : Nat) (dimFasieWidth inWidth : Int) (id : Nat)
    (dimBucataWidth offCandidatMin : Int) : Picture :=
  merge byColumn pout height dimFasieWidth inWidth id dimBucataWidth offCandidatMin

/-- `orizontal_netezire`. -/
def orizontalNetezire (pout : Picture) (id : Nat) (inWidth : Int) (height : Nat)
    (dimFasieWidth dimBucataWidth offCandidatMin : Int) : Picture :=
  let pout := copyPatch byColumn pout id inWidth height dimBucataWidth offCandidatMin
  orizontalMerge pout height dimFasieWidth inWidth id dimBucataWidth offCandidatMin

/-- `quilt_orizontal`. -/
def quiltOrizontal (choose : Picture → Nat → Int) (pout : Picture)
    (dimBucataWidth dimFasieWidth npatches inWidth : Int) : Picture :=
  let height := pout.height.toNat
  quilt (fun pout i offCandidatMin =>
    orizontalNetezire pout i inWidth height dimFasieWidth dimBucataWidth offCandidatMin)
    choose npatches pout

/-! ### The whole picture -/

/-- What `compute_parameters` computes. -/
structure Parameters where
  outHeight : Int
  outWidth : Int
  dimBucataHeight : Int
  dimBucataWidth : Int
  dimFasieHeight : Int
  dimFasieWidth : Int
  deriving DecidableEq, Repr

/-- `compute_parameters`, for a picture that has been loaded; `none` is a division by zero.
    `bheight` and `bwidth` are what multiplying with the fractions and truncating gives. -/
def computeParameters (pin : Picture) (nbucatiHeight nbucatiWidth : Int)
    (bheight bwidth : Int → Int)
    (zoom : Int) : Option Parameters :=
  if nbucatiHeight = 0 ∨ nbucatiWidth = 0 then none
  else
    let outHeight := pin.height * zoom
    let outWidth := pin.width * zoom
    let dimBucataWidth := (outWidth - pin.width).tdiv nbucatiWidth
    let dimBucataHeight := (outHeight - pin.height).tdiv nbucatiHeight
    some {
      outHeight := dimBucataHeight * nbucatiHeight + pin.height
      outWidth := dimBucataWidth * nbucatiWidth + pin.width
      dimBucataHeight := dimBucataHeight
      dimBucataWidth := dimBucataWidth
      dimFasieHeight := bheight dimBucataHeight
      dimFasieWidth := bwidth dimBucataWidth }

/-- The loops of `main` that copy the input. -/
def copyInput (pin pout : Picture) : Picture :=
  Nat.fold pin.height.toNat (fun i _ pout =>
    Nat.fold pin.width.toNat (fun j _ pout => pout.set i j (pin.get i j)) pout) pout

/-- `main`, from `compute_parameters` to the end of `quilt_orizontal`. -/
def quilted (pin : Picture) (memory : Int → Pixel) (params : Parameters)
    (nbucatiHeight nbucatiWidth : Int) (chooseVertical chooseOrizontal : Picture → Nat → Int) :
    Picture :=
  let pout := Picture.new params.outHeight params.outWidth pin.maxColor memory
  let pout := copyInput pin pout
  let pout := quiltVertical chooseVertical pout params.dimBucataHeight params.dimFasieHeight
    nbucatiHeight pin.height
  quiltOrizontal chooseOrizontal pout params.dimBucataWidth params.dimFasieWidth nbucatiWidth
    pin.width

end WorkAtUPB.ImageQuilting
