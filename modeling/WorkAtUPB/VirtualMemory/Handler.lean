import WorkAtUPB.VirtualMemory.Pager

namespace WorkAtUPB.VirtualMemory

/-!
# VirtualMemoryLinux — what serving a fault does

One case for each branch of `sigsegv_handler`, with everything it changes:

* `swapRecords_page`, `swapRecords_victim`, `swapRecords_of_ne` — the records after a swap;
* `Serves` — the branches, with the records, the mappings, the protections and the data;
* `handlePage_serves` — a handler that returns took one of them.
-/

/-! ### Files -/

/-- What `read` leaves in `buf` at page `k` of the file. -/
def File.pageOr (f : File) (k : Nat) (buf : Page) : Page := if k < f.size then f.data k else buf

/-- The offset is set. -/
theorem File.lseek_natCast (f : File) (k : Nat) : f.lseek k = { f with pos := k } := by
  rw [File.lseek, if_neg (Int.not_lt.mpr (Int.natCast_nonneg k))]
  rfl

/-- A page is read at its offset. -/
theorem File.read_lseek (f : File) (k : Nat) (buf : Page) :
    ((f.lseek k).read buf).1 = f.pageOr k buf := by
  rw [File.lseek_natCast, File.read, File.pageOr]
  split <;> rfl

/-- `lseek` leaves the pages of the file. -/
@[simp] theorem File.lseek_data (f : File) (k : Int) : (f.lseek k).data = f.data := by
  unfold File.lseek
  split <;> rfl

/-- `lseek` leaves the size of the file. -/
@[simp] theorem File.lseek_size (f : File) (k : Int) : (f.lseek k).size = f.size := by
  unfold File.lseek
  split <;> rfl

/-- A read leaves the pages of the file. -/
@[simp] theorem File.read_data (f : File) (buf : Page) : (f.read buf).2.data = f.data := by
  unfold File.read
  split <;> rfl

/-- A read leaves the size of the file. -/
@[simp] theorem File.read_size (f : File) (buf : Page) : (f.read buf).2.size = f.size := by
  unfold File.read
  split <;> rfl

/-- A page is written at its offset. -/
theorem File.write_lseek_data (f : File) (k : Nat) (buf : Page) :
    ((f.lseek k).write buf).data = Function.update f.data k buf := by
  rw [File.lseek_natCast, File.write]

/-! ### Searches -/

section Searches

variable {c : Config} {s : State}

/-- The page that is found is free. -/
theorem searchFreePageRam_some {i : Nat} (h : searchFreePageRam c s = some i) :
    i < c.ramPages ∧ (s.pagesInfo i).info = .none := by
  obtain ⟨hinfo, hmem, -⟩ := List.find?_range_eq_some.mp h
  exact ⟨List.mem_range.mp hmem, of_decide_eq_true hinfo⟩

/-- All pages are taken if none is found. -/
theorem searchFreePageRam_none (h : searchFreePageRam c s = none) {i : Nat}
    (hi : i < c.ramPages) : (s.pagesInfo i).info ≠ .none := by
  have hnot := List.find?_eq_none.mp h i (List.mem_range.mpr hi)
  exact fun hinfo => hnot (decide_eq_true hinfo)

/-- The slot found is the first one. -/
theorem searchFreePageSwap_some {i : Nat} (h : searchFreePageSwap c s = some i) :
    i < c.swapPages ∧ (s.pagesInfo (i + c.ramPages)).info = .none ∧
      ∀ j, j < i → (s.pagesInfo (j + c.ramPages)).info ≠ .none := by
  obtain ⟨hinfo, hmem, hfirst⟩ := List.find?_range_eq_some.mp h
  refine ⟨List.mem_range.mp hmem, of_decide_eq_true hinfo, fun j hj hinfoj => ?_⟩
  have := hfirst j hj
  rw [decide_eq_true hinfoj] at this
  exact Bool.noConfusion this

/-- The page that is found has the frame that is searched for. -/
theorem searchPageIdRam_some {pageReal : Int} {i : Nat}
    (h : searchPageIdRam c s pageReal = some i) :
    i < c.swapPages + c.ramPages ∧ (s.pagesInfo i).idReal = pageReal := by
  obtain ⟨hid, hmem, -⟩ := List.find?_range_eq_some.mp h
  exact ⟨List.mem_range.mp hmem, of_decide_eq_true hid⟩

end Searches

/-! ### Records and mappings -/

/-- The page that comes in is readable, in the RAM page of the victim. -/
theorem swapRecords_page {info : Nat → PageRecord} {victim page : Nat} {swapId : Int}
    (h : page ≠ victim) : swapRecords info victim page swapId page =
      { info page with
        info := .ramRead, idReal := (info victim).idReal, idSwap := -1, dirty := false } := by
  unfold swapRecords
  dsimp only
  split
  · rw [Function.update_of_ne h, Function.update_of_ne h, Function.update_self]
  · rw [Function.update_of_ne h, Function.update_of_ne h, Function.update_self]

/-- The victim goes to swap; a clean page that was there before is given the RAM page number
    -1 for its place. -/
theorem swapRecords_victim {info : Nat → PageRecord} {victim page : Nat} {swapId : Int}
    (h : page ≠ victim) : swapRecords info victim page swapId victim =
      { info victim with
        info := .swap, idReal := -1, swaped := true
        idSwap := if (info victim).dirty = false ∧ (info victim).swaped = true then -1
          else swapId } := by
  unfold swapRecords
  simp only [Function.update_self, Function.update_of_ne h.symm]
  split
  next hclean =>
    rw [Function.update_self]
    exact congrArg (fun b => PageRecord.mk (-1) (-1) .swap (info victim).dirty b) hclean.2
  next => rw [Function.update_self]

/-- The other records stay. -/
theorem swapRecords_of_ne {info : Nat → PageRecord} {victim page : Nat} {swapId : Int} {p : Nat}
    (hpage : p ≠ page) (hvictim : p ≠ victim) :
    swapRecords info victim page swapId p = info p := by
  unfold swapRecords
  dsimp only
  split
  · rw [Function.update_of_ne hvictim, Function.update_of_ne hvictim, Function.update_of_ne hpage]
  · rw [Function.update_of_ne hvictim, Function.update_of_ne hvictim, Function.update_of_ne hpage]

/-- The new mappings, where the offsets are not negative. -/
theorem State.remap_eq_some {s s' : State} {victim page : Nat} {swapPage ramPage : Int}
    (h : s.remap victim page swapPage ramPage = some s') :
    0 ≤ swapPage ∧ 0 ≤ ramPage ∧ s' = { s with
      mapping := Function.update
        (Function.update s.mapping victim (some (.swap, swapPage.toNat))) page
        (some (.ram, ramPage.toNat))
      prot := Function.update (Function.update (Function.update (Function.update
        s.prot victim .none) page .read) victim .none) page .read } := by
  unfold State.remap State.mmap State.mprotect at h
  by_cases hswap : swapPage < 0
  · -- CHECK fails on the first mmap
    rw [if_pos hswap] at h
    cases h
  rw [if_neg hswap, Option.bind_some] at h
  by_cases hram : ramPage < 0
  · -- and on the second one
    rw [if_pos hram] at h
    cases h
  rw [if_neg hram, Option.map_some, Option.some.injEq] at h
  exact ⟨Int.not_lt.mp hswap, Int.not_lt.mp hram, h.symm⟩

/-- Offsets that are not negative can be mapped. -/
theorem State.remap_isSome (s : State) (victim page swapPage ramPage : Nat) :
    (s.remap victim page swapPage ramPage).isSome := by
  unfold State.remap State.mmap
  rw [if_neg (Int.not_lt.mpr (Int.natCast_nonneg _)), Option.bind_some,
    if_neg (Int.not_lt.mpr (Int.natCast_nonneg _))]
  rfl

/-! ### The branches of the handler -/

variable {c : Config}

/-- What the handler does for `page`: one constructor for each branch that returns. -/
inductive Serves (c : Config) (s : State) (page : Nat) (s' : State) : Prop
  /-- An unused page gets a free page of the RAM file. -/
  | mapped (pageId : Nat) (hinfo : (s.pagesInfo page).info = .none)
      (hfree : searchFreePageRam c s = some pageId)
      (hrecords : s'.pagesInfo = Function.update s.pagesInfo page { s.pagesInfo page with
        idReal := pageId, idSwap := -1, info := .ramRead, dirty := false })
      (hmapping : s'.mapping = Function.update s.mapping page (some (.ram, pageId)))
      (hprot : s'.prot = Function.update s.prot page .read)
      (hram : s'.ram.data = Function.update s.ram.data pageId zeroPage)
      (hswap : s'.swap.data = s.swap.data)
  /-- For an unused page, and no free page of the RAM file: `swap_data`. -/
  | evicted (victim swapId : Nat) (hinfo : (s.pagesInfo page).info = .none)
      (hfull : searchFreePageRam c s = none)
      (hvictim : searchPageIdRam c s 0 = some victim)
      (hslot : searchFreePageSwap c s = some swapId)
      (hrecords : s'.pagesInfo = Function.update
        (swapRecords s.pagesInfo victim (swapId + c.ramPages) swapId) page
        { swapRecords s.pagesInfo victim (swapId + c.ramPages) swapId page with dirty := false })
      (hmapping : s'.mapping = Function.update
        (Function.update s.mapping victim (some (.swap, swapId + c.ramPages)))
        (swapId + c.ramPages) (some (.ram, victim)))
      (hprot : s'.prot = Function.update (Function.update (Function.update (Function.update
        s.prot victim .none) (swapId + c.ramPages) .read) victim .none)
        (swapId + c.ramPages) .read)
      (hram : s'.ram.data = Function.update s.ram.data victim zeroPage)
      (hswap : s'.swap.data = Function.update s.swap.data (swapId + c.ramPages)
        (if (swapRecords s.pagesInfo victim (swapId + c.ramPages) swapId victim).dirty
          then s.ram.pageOr victim s.buffer1
          else s.swap.pageOr (swapId + c.ramPages) s.buffer1))
  /-- A readable page becomes writable. -/
  | writable (hinfo : (s.pagesInfo page).info = .ramRead)
      (hrecords : s'.pagesInfo = Function.update s.pagesInfo page
        { s.pagesInfo page with info := .ramWrite, dirty := true })
      (hmapping : s'.mapping = s.mapping)
      (hprot : s'.prot = Function.update s.prot page .write)
      (hram : s'.ram = s.ram) (hswap : s'.swap = s.swap)
  /-- A writable page stays as it is. -/
  | kept (hinfo : (s.pagesInfo page).info = .ramWrite) (hs' : s' = s)
  /-- For a page on swap: `swap_data_swap`. -/
  | readmitted (victim swapId ramId : Nat) (hinfo : (s.pagesInfo page).info = .swap)
      (hvictim : searchPageIdRam c s 0 = some victim)
      (hswapId : (s.pagesInfo page).idSwap = swapId)
      (hramId : (s.pagesInfo victim).idReal = ramId)
      (hrecords : s'.pagesInfo = swapRecords s.pagesInfo victim page swapId)
      (hmapping : s'.mapping = Function.update
        (Function.update s.mapping victim (some (.swap, swapId))) page (some (.ram, ramId)))
      (hprot : s'.prot = Function.update (Function.update (Function.update (Function.update
        s.prot victim .none) page .read) victim .none) page .read)
      (hram : s'.ram.data = Function.update s.ram.data ramId
        (s.swap.pageOr swapId s.buffer2))
      (hswap : s'.swap.data = Function.update s.swap.data swapId
        (if (swapRecords s.pagesInfo victim page swapId ramId).dirty
          then s.ram.pageOr ramId s.buffer1 else s.swap.pageOr ramId s.buffer1))

/-! ### The copies -/

section Copies

variable (s : State)

/-- The buffer is filled with the records as they are. -/
@[simp] theorem State.fillBuffer1_pagesInfo (dirty : Bool) (i j : Int) :
    (s.fillBuffer1 dirty i j).pagesInfo = s.pagesInfo := by
  unfold State.fillBuffer1
  split <;> rfl

/-- With the mapping as it is. -/
@[simp] theorem State.fillBuffer1_mapping (dirty : Bool) (i j : Int) :
    (s.fillBuffer1 dirty i j).mapping = s.mapping := by
  unfold State.fillBuffer1
  split <;> rfl

/-- With the protection as it is. -/
@[simp] theorem State.fillBuffer1_prot (dirty : Bool) (i j : Int) :
    (s.fillBuffer1 dirty i j).prot = s.prot := by
  unfold State.fillBuffer1
  split <;> rfl

/-- With the RAM file as it is. -/
@[simp] theorem State.fillBuffer1_ram_data (dirty : Bool) (i j : Int) :
    (s.fillBuffer1 dirty i j).ram.data = s.ram.data := by
  unfold State.fillBuffer1
  split <;> simp

/-- With the pages of the swap file as they are. -/
@[simp] theorem State.fillBuffer1_swap_data (dirty : Bool) (i j : Int) :
    (s.fillBuffer1 dirty i j).swap.data = s.swap.data := by
  unfold State.fillBuffer1
  split <;> simp

/-- With its size as it is. -/
@[simp] theorem State.fillBuffer1_swap_size (dirty : Bool) (i j : Int) :
    (s.fillBuffer1 dirty i j).swap.size = s.swap.size := by
  unfold State.fillBuffer1
  split <;> simp

/-- With the other buffer as it is. -/
@[simp] theorem State.fillBuffer1_buffer2 (dirty : Bool) (i j : Int) :
    (s.fillBuffer1 dirty i j).buffer2 = s.buffer2 := by
  unfold State.fillBuffer1
  split <;> rfl

/-- What is read from the swap file does not change. -/
theorem State.fillBuffer1_swap_pageOr (dirty : Bool) (i j : Int) (k : Nat) (buf : Page) :
    (s.fillBuffer1 dirty i j).swap.pageOr k buf = s.swap.pageOr k buf := by
  rw [File.pageOr, File.pageOr, State.fillBuffer1_swap_size, State.fillBuffer1_swap_data]

/-- What the buffer is filled with. -/
theorem State.fillBuffer1_buffer1 (dirty : Bool) (i j : Nat) :
    (s.fillBuffer1 dirty i j).buffer1 =
      if dirty then s.ram.pageOr i s.buffer1 else s.swap.pageOr j s.buffer1 := by
  unfold State.fillBuffer1
  split <;> exact File.read_lseek ..

/-- The buffer is saved in the swap file. -/
theorem State.saveBuffer1_swap_data (k : Nat) :
    (s.saveBuffer1 k).swap.data = Function.update s.swap.data k s.buffer1 :=
  File.write_lseek_data ..

/-- What the other buffer is filled with. -/
theorem State.fillBuffer2_buffer2 (k : Nat) :
    (s.fillBuffer2 k).buffer2 = s.swap.pageOr k s.buffer2 := File.read_lseek ..

/-- It is filled with the swap file as it is. -/
@[simp] theorem State.fillBuffer2_swap_data (k : Int) :
    (s.fillBuffer2 k).swap.data = s.swap.data := by
  rw [State.fillBuffer2, File.read_data, File.lseek_data]

/-- A buffer is loaded into a frame. -/
theorem State.loadRam_ram_data (k : Nat) (buf : Page) :
    (s.loadRam k buf).ram.data = Function.update s.ram.data k buf := File.write_lseek_data ..

end Copies

/-- `swap_data` does not fail. -/
theorem swapData_isSome (s : State) (ramId swapId : Nat) (existsInSwap : Bool) :
    (swapData c s ramId swapId existsInSwap).isSome := State.remap_isSome ..

/-- Nor does `swap_data_swap`. -/
theorem swapDataSwap_isSome (s : State) {victim page swapId ramId : Nat}
    (hswapId : (s.pagesInfo page).idSwap = swapId) (hramId : (s.pagesInfo victim).idReal = ramId) :
    (swapDataSwap s victim page).isSome := by
  unfold swapDataSwap
  rw [hswapId, hramId]
  exact State.remap_isSome ..

/-- Nor does the handler with a free page. -/
theorem mapFreePage_isSome (s : State) (page pageId : Nat) :
    (mapFreePage s page pageId).isSome := by
  unfold mapFreePage State.mmap
  rw [if_neg (Int.not_lt.mpr (Int.natCast_nonneg pageId))]
  rfl

/-- `swap_data` serves the fault. -/
theorem swapData_serves {s s' : State} {page victim swapId : Nat}
    (hinfo : (s.pagesInfo page).info = .none) (hfull : searchFreePageRam c s = none)
    (hvictim : searchPageIdRam c s 0 = some victim)
    (hslot : searchFreePageSwap c s = some swapId)
    (h : swapData c s victim swapId false = some s') :
    Serves c s page { s' with
      pagesInfo := Function.update s'.pagesInfo page
        { s'.pagesInfo page with dirty := false } } := by
  dsimp only [swapData] at h
  rw [if_pos rfl] at h
  obtain ⟨-, -, rfl⟩ := State.remap_eq_some h
  -- records, mappings, protections, then the RAM file and the swap file
  refine .evicted victim swapId hinfo hfull hvictim hslot ?_ ?_ ?_ ?_ ?_
  · simp only [State.loadRam, State.saveBuffer1, State.fillBuffer1_pagesInfo]
  · simp only [State.loadRam, State.saveBuffer1, State.fillBuffer1_mapping, Int.toNat_natCast]
  · simp only [State.loadRam, State.saveBuffer1, State.fillBuffer1_prot]
  · dsimp only
    rw [State.loadRam_ram_data]
    simp only [State.saveBuffer1, State.fillBuffer1_ram_data]
  · dsimp only
    rw [State.loadRam, State.saveBuffer1_swap_data, State.fillBuffer1_swap_data,
      State.fillBuffer1_buffer1]

/-- `swap_data_swap` serves the fault. -/
theorem swapDataSwap_serves {s s' : State} {page victim ramId : Nat}
    (hinfo : (s.pagesInfo page).info = .swap)
    (hvictim : searchPageIdRam c s 0 = some victim)
    (hramId : (s.pagesInfo victim).idReal = ramId)
    (h : swapDataSwap s victim page = some s') : Serves c s page s' := by
  dsimp only [swapDataSwap] at h
  obtain ⟨hswap, -, rfl⟩ := State.remap_eq_some h
  -- The swap page could be mapped, so its number is not the -1 of a clean victim.
  obtain ⟨swapId, hswapId⟩ := Int.eq_ofNat_of_zero_le hswap
  rw [hswapId, hramId]
  refine .readmitted victim swapId ramId hinfo hvictim hswapId hramId ?_ ?_ ?_ ?_ ?_
  · simp only [State.loadRam, State.saveBuffer1, State.fillBuffer2, State.fillBuffer1_pagesInfo]
  · simp only [State.loadRam, State.saveBuffer1, State.fillBuffer2, State.fillBuffer1_mapping,
      Int.toNat_natCast]
  · simp only [State.loadRam, State.saveBuffer1, State.fillBuffer2, State.fillBuffer1_prot]
  · dsimp only
    rw [State.loadRam_ram_data]
    -- buffer2 was read before buffer1 overwrote the swap page
    simp only [State.saveBuffer1, State.fillBuffer2_buffer2, State.fillBuffer1_swap_pageOr,
      State.fillBuffer1_buffer2]
    simp only [State.fillBuffer2, State.fillBuffer1_ram_data]
  · dsimp only
    rw [State.loadRam, State.saveBuffer1_swap_data, State.fillBuffer2_swap_data,
      State.fillBuffer1_swap_data, State.fillBuffer2, State.fillBuffer1_buffer1,
      Int.toNat_natCast]

/-- A free page serves the fault. -/
theorem mapFreePage_serves {s s' : State} {page pageId : Nat}
    (hinfo : (s.pagesInfo page).info = .none) (hfree : searchFreePageRam c s = some pageId)
    (h : mapFreePage s page pageId = some s') :
    Serves c s page { s' with
      pagesInfo := Function.update s'.pagesInfo page
        { s'.pagesInfo page with dirty := false } } := by
  unfold mapFreePage State.mmap at h
  dsimp only at h
  rw [if_neg (Int.not_lt.mpr (Int.natCast_nonneg pageId)), Option.some.injEq] at h
  subst h
  refine .mapped pageId hinfo hfree ?_ ?_ ?_ ?_ rfl
  · simp only [State.mprotect, Function.update_idem, Function.update_self]
  · simp only [State.mprotect, Int.toNat_natCast]
  · simp only [State.mprotect, Function.update_idem]
  · exact File.write_lseek_data ..

/-- A handler that returns took one of the branches. -/
theorem handlePage_serves {s s' : State} {page : Nat} (h : handlePage c s page = some s') :
    Serves c s page s' := by
  unfold handlePage at h
  split at h
  next hinfo =>
    obtain ⟨t, ht, rfl⟩ := Option.map_eq_some_iff.mp h
    split at ht
    next pageId hfree => exact mapFreePage_serves hinfo hfree ht
    next hfull =>
      split at ht
      next victim swapId hvictim hslot => exact swapData_serves hinfo hfull hvictim hslot ht
      next => cases ht
  next hinfo =>
    cases h
    exact .writable hinfo rfl rfl rfl rfl rfl
  next hinfo =>
    cases h
    exact .kept hinfo rfl
  next hinfo =>
    obtain ⟨victim, hvictim, h⟩ := Option.bind_eq_some_iff.mp h
    exact swapDataSwap_serves hinfo hvictim (searchPageIdRam_some hvictim).2 h

end WorkAtUPB.VirtualMemory
