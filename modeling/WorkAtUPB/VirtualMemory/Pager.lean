import Mathlib.Data.List.Range
import Mathlib.Logic.Function.Basic
import WorkAtUPB.Lib.Bytes

namespace WorkAtUPB.VirtualMemory

open Bytes

/-!
# VirtualMemoryLinux — the pager (`tema-mv.c`)

`vinit` maps a range of virtual pages without access; `sigsegv_handler` serves the faults by
mapping pages of the RAM file and of the swap file there:

* `Config` — the numbers of pages, as `vinit` accepts them;
* `File` — a file in units of pages, with its position;
* `PageRecord`, `State` — the bookkeeping, the files and the mappings;
* `swapData`, `swapDataSwap`, `handlePage`, `sigsegvHandler` — serving a fault.

`none` stands for a handler that does not return: a failed `CHECK` ends the process, and the
index -1 is no page.
-/

/-! ### Sizes -/

/-- `MAX_VIRTUAL_PAGES`. -/
def MAX_VIRTUAL_PAGES : Nat := 50

/-- `MAX_PHYSICAL_PAGES`. -/
def MAX_PHYSICAL_PAGES : Nat := 20

/-- The numbers of pages that `vinit` accepts. -/
def Accepted (virtPages physPages : Nat) : Prop :=
  ¬ (virtPages > MAX_VIRTUAL_PAGES ∨ physPages > MAX_PHYSICAL_PAGES ∨ physPages > virtPages)

/-- `__page_size`, `__ram_pages` and `__swap_pages` after a `vinit` that was accepted. -/
structure Config where
  pageSize : Nat
  ramPages : Nat
  swapPages : Nat
  pageSize_pos : 0 < pageSize
  accepted : Accepted swapPages ramPages

/-! ### Files -/

/-- The bytes of a page. -/
abbrev Page := Nat → UInt8

/-- `buffer`: a page of zeros. -/
def zeroPage : Page := fun _ => 0

/-- A file of whole pages; past its size it has no data. -/
structure File where
  size : Nat
  pos : Nat
  data : Nat → Page

/-- `lseek` to a page.  A negative offset is an error and leaves the position. -/
def File.lseek (f : File) (page : Int) : File :=
  if page < 0 then f else { f with pos := page.toNat }

/-- `read` of a page into `buf`; nothing is read at the end of the file. -/
def File.read (f : File) (buf : Page) : Page × File :=
  if f.pos < f.size then (f.data f.pos, { f with pos := f.pos + 1 }) else (buf, f)

/-- `write` of a page, which extends the file where needed. -/
def File.write (f : File) (buf : Page) : File where
  size := max f.size (f.pos + 1)
  pos := f.pos + 1
  data := Function.update f.data f.pos buf

/-- A file of `size` zero pages, at its start. -/
def File.zeros (size : Nat) : File where
  size := size
  pos := 0
  data := fun _ => zeroPage

/-! ### The state -/

/-- `NONE`, `RAM_READ`, `RAM_WRITE` and `SWAP`. -/
inductive Info where
  | none
  | ramRead
  | ramWrite
  | swap
  deriving DecidableEq, Repr

/-- `page_record`. -/
structure PageRecord where
  idReal : Int
  idSwap : Int
  info : Info
  dirty : Bool
  swaped : Bool
  deriving DecidableEq, Repr

/-- `__fd_ram` and `__fd_swap`. -/
inductive Fd where
  | ram
  | swap
  deriving DecidableEq, Repr

/-- `PROT_NONE`, `PROT_READ` and `PROT_WRITE`. -/
inductive Prot where
  | none
  | read
  | write
  deriving DecidableEq, Repr

/-- The records, the files, the two buffers, and what is mapped at every virtual page, with
    which protection; `none` is the anonymous mapping of `vinit`. -/
structure State where
  pagesInfo : Nat → PageRecord
  ram : File
  swap : File
  buffer1 : Page
  buffer2 : Page
  mapping : Nat → Option (Fd × Nat)
  prot : Nat → Prot

/-- `vinit`; the buffers come from `malloc` with any contents. -/
def vinit (c : Config) (junk1 junk2 : Page) : State where
  pagesInfo := fun _ =>
    { idReal := -1, idSwap := -1, info := .none, dirty := false, swaped := false }
  ram := .zeros c.ramPages
  swap := .zeros c.swapPages
  buffer1 := junk1
  buffer2 := junk2
  mapping := fun _ => Option.none
  prot := fun _ => .none

/-- The file behind a descriptor. -/
def State.file (s : State) : Fd → File
  | .ram => s.ram
  | .swap => s.swap

/-- `mmap` with `MAP_FIXED | MAP_SHARED` of a page of a file; a negative offset is an error,
    for which `CHECK` ends the process. -/
def State.mmap (s : State) (page : Nat) (prot : Prot) (fd : Fd) (offset : Int) : Option State :=
  if offset < 0 then Option.none
  else some { s with
    mapping := Function.update s.mapping page (some (fd, offset.toNat))
    prot := Function.update s.prot page prot }

/-- `mprotect`. -/
def State.mprotect (s : State) (page : Nat) (prot : Prot) : State :=
  { s with prot := Function.update s.prot page prot }

/-! ### Searching the records -/

variable (c : Config)

/-- `search_free_page_ram`; -1 is `none`. -/
def searchFreePageRam (s : State) : Option Nat :=
  (List.range c.ramPages).find? fun i => (s.pagesInfo i).info = .none

/-- `search_free_page_swap`; -1 is `none`. -/
def searchFreePageSwap (s : State) : Option Nat :=
  (List.range c.swapPages).find? fun i => (s.pagesInfo (i + c.ramPages)).info = .none

/-- `search_page_id_ram`; -1 is `none`. -/
def searchPageIdRam (s : State) (pageReal : Int) : Option Nat :=
  (List.range (c.swapPages + c.ramPages)).find? fun i => (s.pagesInfo i).idReal = pageReal

/-! ### Swapping -/

/-- The records after `page` takes the RAM page of `victim`, which goes to swap: the first
    half of `swap_data` and of `swap_data_swap`. -/
def swapRecords (info : Nat → PageRecord) (victim page : Nat) (swapId : Int) :
    Nat → PageRecord :=
  let info := Function.update info page
    { info page with
      info := .ramRead, idReal := (info victim).idReal, idSwap := -1, dirty := false }
  let info := Function.update info victim
    { info victim with info := .swap, idReal := -1, idSwap := swapId }
  let record := info victim
  -- "Clean, and in swap already": its place there is taken from idReal, which is -1 by now.
  if record.dirty = false ∧ record.swaped = true then
    Function.update info victim { record with idSwap := record.idReal }
  else
    Function.update info victim { record with idSwap := swapId, swaped := true }

/-- `buffer1` gets the RAM page if `dirty`, else the swap page. -/
def State.fillBuffer1 (s : State) (dirty : Bool) (ramPage swapPage : Int) : State :=
  if dirty then
    { s with
      buffer1 := ((s.ram.lseek ramPage).read s.buffer1).1
      ram := ((s.ram.lseek ramPage).read s.buffer1).2 }
  else
    { s with
      buffer1 := ((s.swap.lseek swapPage).read s.buffer1).1
      swap := ((s.swap.lseek swapPage).read s.buffer1).2 }

/-- `buffer1` goes to the swap page. -/
def State.saveBuffer1 (s : State) (swapPage : Int) : State :=
  { s with swap := (s.swap.lseek swapPage).write s.buffer1 }

/-- The swap page goes to `buffer2`. -/
def State.fillBuffer2 (s : State) (swapPage : Int) : State :=
  { s with
    buffer2 := ((s.swap.lseek swapPage).read s.buffer2).1
    swap := ((s.swap.lseek swapPage).read s.buffer2).2 }

/-- `buf` goes to the RAM page. -/
def State.loadRam (s : State) (ramPage : Int) (buf : Page) : State :=
  { s with ram := (s.ram.lseek ramPage).write buf }

/-- The mappings at the end of `swap_data` and of `swap_data_swap`. -/
def State.remap (s : State) (victim page : Nat) (swapPage ramPage : Int) : Option State :=
  (s.mmap victim .none .swap swapPage).bind fun s =>
  (s.mmap page .read .ram ramPage).map fun s =>
  (s.mprotect victim .none).mprotect page .read

/-- `swap_data`. -/
def swapData (s : State) (ramId swapId : Nat) (existsInSwap : Bool) : Option State :=
  let s := { s with pagesInfo := swapRecords s.pagesInfo ramId (swapId + c.ramPages) swapId }
  -- The record of the victim has swapId, but its data and its mapping go to this page.
  let mapSwapId := swapId + c.ramPages
  let mapRamId := ramId
  let s := s.fillBuffer1 (s.pagesInfo mapRamId).dirty mapRamId mapSwapId
  let s :=
    if existsInSwap = false then (s.saveBuffer1 mapSwapId).loadRam mapRamId zeroPage
    else
      let s := (s.fillBuffer2 mapSwapId).saveBuffer1 mapSwapId
      s.loadRam mapRamId s.buffer2
  s.remap ramId (swapId + c.ramPages) mapSwapId mapRamId

/-- `swap_data_swap`; the RAM page of a resident page is not negative. -/
def swapDataSwap (s : State) (ramPageId swapPageId : Nat) : Option State :=
  let swapId := (s.pagesInfo swapPageId).idSwap
  let ramId := (s.pagesInfo ramPageId).idReal
  let s := { s with pagesInfo := swapRecords s.pagesInfo ramPageId swapPageId swapId }
  -- The frame number indexes the records, and the swap page read is that of the frame too.
  let s := s.fillBuffer1 (s.pagesInfo ramId.toNat).dirty ramId ramId
  let s := (s.fillBuffer2 swapId).saveBuffer1 swapId
  let s := s.loadRam ramId s.buffer2
  s.remap ramPageId swapPageId swapId ramId

/-! ### The handler -/

/-- A page that was never used is mapped onto the free page `pageId` of the RAM file. -/
def mapFreePage (s : State) (page pageId : Nat) : Option State :=
  let s := { s with
    pagesInfo := Function.update s.pagesInfo page
      { s.pagesInfo page with idReal := pageId, idSwap := -1, info := .ramRead }
    ram := (s.ram.lseek pageId).write zeroPage }
  (s.mprotect page .read).mmap page .read .ram pageId

/-- The body of `sigsegv_handler`, for a page with a record. -/
def handlePage (s : State) (page : Nat) : Option State :=
  match (s.pagesInfo page).info with
  | .none =>
    let served :=
      match searchFreePageRam c s with
      | some pageId => mapFreePage s page pageId
      | Option.none =>
        match searchPageIdRam c s 0, searchFreePageSwap c s with
        | some ramId, some swapId => swapData c s ramId swapId false
        -- -1 as an index
        | _, _ => Option.none
    served.map fun s => { s with
      pagesInfo := Function.update s.pagesInfo page { s.pagesInfo page with dirty := false } }
  | .ramRead =>
    let s := { s with
      pagesInfo := Function.update s.pagesInfo page
        { s.pagesInfo page with info := .ramWrite, dirty := true } }
    some (s.mprotect page .write)
  | .ramWrite => some s
  | .swap => (searchPageIdRam c s 0).bind fun ramPageId => swapDataSwap s ramPageId page

/-- `SIGSEGV`. -/
def SIGSEGV : Int := 11

/-- `sigsegv_handler` for a fault at `offset` bytes from `__virt_mem`; the second component
    says that the old action was called.  The number of the page is rounded toward zero, and an
    `int`. -/
def sigsegvHandler (s : State) (signum offset : Int) : Option (State × Bool) :=
  if signum ≠ SIGSEGV then some (s, true)
  else
    let page := toInt (offset.tdiv c.pageSize)
    if page < 0 ∨ page ≥ c.ramPages + c.swapPages then some (s, true)
    else (handlePage c s page.toNat).map fun s => (s, false)

/-- A fault at the byte `offset` of the virtual pages. -/
def fault (s : State) (offset : Nat) : Option State :=
  if offset < c.swapPages * c.pageSize then (sigsegvHandler c s SIGSEGV offset).map Prod.fst
  else Option.none

variable {c}

theorem Config.swapPages_le (c : Config) : c.swapPages ≤ MAX_VIRTUAL_PAGES :=
  Nat.le_of_not_lt fun h => c.accepted (Or.inl h)

/-- A fault inside the virtual pages is served on the page it is in. -/
theorem fault_eq {s : State} {offset : Nat} (h : offset < c.swapPages * c.pageSize) :
    fault c s offset = handlePage c s (offset / c.pageSize) := by
  have hpage : offset / c.pageSize < c.swapPages :=
    (Nat.div_lt_iff_lt_mul c.pageSize_pos).mpr h
  have hdiv : toInt ((offset : Int).tdiv c.pageSize) = (offset / c.pageSize : Nat) := by
    have hmax : c.swapPages ≤ 50 := c.swapPages_le
    rw [← Int.ofNat_tdiv]
    generalize offset / c.pageSize = page at hpage ⊢
    exact toInt_of_isInt ⟨by omega, by omega⟩
  rw [fault, if_pos h, sigsegvHandler, if_neg (not_not.mpr rfl)]
  dsimp only
  rw [hdiv]
  generalize offset / c.pageSize = page at hpage ⊢
  rw [if_neg (by omega), Int.toNat_natCast, Option.map_map]
  exact Option.map_id' ..

end WorkAtUPB.VirtualMemory
