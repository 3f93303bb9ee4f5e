import WorkAtUPB.VirtualMemory.Records

namespace WorkAtUPB.VirtualMemory

open WorkAtUPB.Run

/-!
# VirtualMemoryLinux — when the paged memory is a memory

The virtual pages are to behave as a flat array of bytes.  They do as long as every fault
leaves the bytes of every page what they were, and no two pages in the same page of a file:

* `Memory`, `attempt` — the pager next to a flat memory, one attempt of an access at a time;
* `Transparent` — the pages have files of their own, with the bytes of the flat memory;
* `FaultKeepsData` — the pages that serving the fault overwrites belong to nobody else, and
  the bytes it copies are those of the page it copies them for;
* `always_transparent_iff` — `Transparent` holds along a run exactly when every fault does so;
* `eachStep_readsBack` — then every read returns what was written last.
-/

/-! ### Accesses -/

/-- A read or a write of the byte at an offset from `__virt_mem`. -/
inductive Access where
  | read (addr : Nat)
  | write (addr : Nat) (value : UInt8)
  deriving DecidableEq, Repr

/-- The byte that is accessed. -/
def Access.addr : Access → Nat
  | .read addr => addr
  | .write addr _ => addr

/-- The protection permits the access; a page that can be written can be read. -/
def Access.Permitted (access : Access) (prot : Prot) : Prop :=
  match access with
  | .read _ => prot ≠ .none
  | .write .. => prot = .write

instance (access : Access) (prot : Prot) : Decidable (access.Permitted prot) := by
  unfold Access.Permitted
  split <;> infer_instance

/-- The pager, and the flat memory with the values written last. -/
structure Memory where
  pager : State
  flat : Nat → UInt8

/-- `vinit`; nothing is written yet. -/
def Memory.init (c : Config) (junk1 junk2 : Page) : Memory := ⟨vinit c junk1 junk2, fun _ => 0⟩

variable (c : Config)

/-- The byte at `addr`, through the mapping.  Past the end of the file there is none, and the
    anonymous pages are never accessible. -/
def State.load (s : State) (addr : Nat) : Option UInt8 :=
  match s.mapping (addr / c.pageSize) with
  | some (fd, k) =>
    if k < (s.file fd).size then some ((s.file fd).data k (addr % c.pageSize)) else none
  | none => none

/-- A byte of a page of the file changes. -/
def File.setByte (f : File) (k offset : Nat) (value : UInt8) : File :=
  { f with data := Function.update f.data k (Function.update (f.data k) offset value) }

/-- The state with another file. -/
def State.setFile (s : State) (fd : Fd) (f : File) : State :=
  match fd with
  | .ram => { s with ram := f }
  | .swap => { s with swap := f }

/-- The byte at `addr` changes, in the file it is mapped onto. -/
def State.store (s : State) (addr : Nat) (value : UInt8) : Option State :=
  match s.mapping (addr / c.pageSize) with
  | some (fd, k) =>
    if k < (s.file fd).size then
      some (s.setFile fd ((s.file fd).setByte k (addr % c.pageSize) value))
    else none
  | none => none

/-- One attempt of an access inside the virtual pages: it completes if the protection of the
    page permits it, and else the handler runs (after which it can be attempted again). -/
def attempt (m : Memory) (access : Access) : Option Memory :=
  if access.addr < c.swapPages * c.pageSize then
    if access.Permitted (m.pager.prot (access.addr / c.pageSize)) then
      match access with
      | .read addr => (m.pager.load c addr).map fun _ => m
      | .write addr value => (m.pager.store c addr value).map fun s =>
          ⟨s, Function.update m.flat addr value⟩
    -- a fault never changes what the program wrote
    else (fault c m.pager access.addr).map fun s => ⟨s, m.flat⟩
  else none

/-- If the attempt completes a read, it returns the value written last, or 0. -/
def ReadsBack (m : Memory) : Access → Prop
  | .read addr => addr < c.swapPages * c.pageSize →
      (Access.read addr).Permitted (m.pager.prot (addr / c.pageSize)) →
      ∀ value ∈ m.pager.load c addr, value = m.flat addr
  | .write .. => True

/-! ### What a fault must not destroy -/

/-- The bytes of a virtual page; an unused page has zeros. -/
def State.content (s : State) (page : Nat) : Page :=
  match s.mapping page with
  | some (fd, k) => (s.file fd).data k
  | none => zeroPage

/-- The same bytes in a page. -/
def SameBytes (p q : Page) : Prop := ∀ o < c.pageSize, p o = q o

instance (p q : Page) : Decidable (SameBytes c p q) :=
  inferInstanceAs (Decidable (∀ o < c.pageSize, p o = q o))

/-- The bytes that a swap saves for the victim. -/
def State.saved (s : State) (dirty : Bool) (ramPage swapPage : Nat) : Page :=
  if dirty then s.ram.pageOr ramPage s.buffer1 else s.swap.pageOr swapPage s.buffer1

/-- A swap that puts `saved` in the swap page and `loaded` in the RAM page overwrites no other
    page, and `saved` and `loaded` are the bytes of the victim and of the page. -/
def SwapKeepsData (s : State) (victim page swapPage ramPage : Nat) (saved loaded : Page) : Prop :=
  (∀ q < c.swapPages, q ≠ victim ∧ q ≠ page →
    s.mapping q ≠ some (.swap, swapPage) ∧ s.mapping q ≠ some (.ram, ramPage)) ∧
  SameBytes c saved (s.content victim) ∧ SameBytes c loaded (s.content page)

instance (s : State) (victim page swapPage ramPage : Nat) (saved loaded : Page) :
    Decidable (SwapKeepsData c s victim page swapPage ramPage saved loaded) := by
  unfold SwapKeepsData
  infer_instance

/-- Serving a fault on `page` overwrites no other page, and copies the right bytes. -/
def FaultKeepsData (s : State) (page : Nat) : Prop :=
  match (s.pagesInfo page).info with
  | .none =>
    match searchFreePageRam c s with
    | some pageId => ∀ q < c.swapPages, s.mapping q ≠ some (.ram, pageId)
    | none =>
      match searchPageIdRam c s 0, searchFreePageSwap c s with
      | some victim, some swapId =>
        let slot := swapId + c.ramPages
        let dirty := (swapRecords s.pagesInfo victim slot swapId victim).dirty
        SwapKeepsData c s victim slot slot victim (s.saved dirty victim slot) zeroPage
      | _, _ => True
  | .ramRead => True
  | .ramWrite => True
  | .swap =>
    match searchPageIdRam c s 0 with
    | some victim =>
      0 ≤ (s.pagesInfo page).idSwap →
        let swapId := (s.pagesInfo page).idSwap.toNat
        let dirty := (swapRecords s.pagesInfo victim page swapId 0).dirty
        SwapKeepsData c s victim page swapId 0 (s.saved dirty 0 0)
          (s.swap.pageOr swapId s.buffer2)
    | none => True

instance (s : State) (page : Nat) : Decidable (FaultKeepsData c s page) := by
  unfold FaultKeepsData
  split
  · split
    · infer_instance
    · split <;> infer_instance
  · infer_instance
  · infer_instance
  · split <;> infer_instance

/-- If the attempt faults, serving the fault keeps the data. -/
def KeepsData (m : Memory) (access : Access) : Prop :=
  access.addr < c.swapPages * c.pageSize →
    ¬ access.Permitted (m.pager.prot (access.addr / c.pageSize)) →
      FaultKeepsData c m.pager (access.addr / c.pageSize)

instance (m : Memory) (access : Access) : Decidable (KeepsData c m access) := by
  unfold KeepsData
  infer_instance

/-- No two virtual pages are in the same page of a file, and all of them have the bytes of the
    flat memory. -/
structure Transparent (m : Memory) : Prop where
  own : ∀ p q, p < c.swapPages → q < c.swapPages → ∀ x, m.pager.mapping p = some x →
    m.pager.mapping q = some x → p = q
  bytes : ∀ page < c.swapPages, ∀ o < c.pageSize,
    m.pager.content page o = m.flat (page * c.pageSize + o)

variable {c} {s s' : State} {m m' : Memory} {page : Nat}

theorem init_transparent (junk1 junk2 : Page) : Transparent c (Memory.init c junk1 junk2) where
  own := nofun
  bytes := fun _ _ _ _ => rfl

/-! ### Contents -/

theorem State.content_of_mapping {fd : Fd} {k : Nat} (h : s.mapping page = some (fd, k)) :
    s.content page = (s.file fd).data k := by
  rw [State.content, h]

theorem State.content_of_unmapped (h : s.mapping page = none) : s.content page = zeroPage := by
  rw [State.content, h]

/-- A page keeps its content where its mapping stays and its page of the file is not written. -/
theorem State.content_congr (hmapping : s'.mapping page = s.mapping page)
    (hram : ∀ k, s.mapping page = some (.ram, k) → s'.ram.data k = s.ram.data k)
    (hswap : ∀ k, s.mapping page = some (.swap, k) → s'.swap.data k = s.swap.data k) :
    s'.content page = s.content page := by
  cases hmap : s.mapping page with
  | none => rw [content_of_unmapped (hmapping.trans hmap), content_of_unmapped hmap]
  | some x =>
    obtain ⟨fd, k⟩ := x
    rw [content_of_mapping (hmapping.trans hmap), content_of_mapping hmap]
    cases fd with
    | ram => exact hram k hmap
    | swap => exact hswap k hmap

/-- Where the content of all pages stays, so does `Transparent`, as far as the bytes go. -/
theorem Transparent.of_content (h : Transparent c m)
    (hown : ∀ p q, p < c.swapPages → q < c.swapPages → ∀ x, s'.mapping p = some x →
      s'.mapping q = some x → p = q)
    (hcontent : ∀ p < c.swapPages, SameBytes c (s'.content p) (m.pager.content p)) :
    Transparent c ⟨s', m.flat⟩ where
  own := hown
  bytes := fun p hp o ho => (hcontent p hp o ho).trans (h.bytes p hp o ho)

/-- A page of the RAM file is zeroed and given to an unused page: nothing is lost exactly when
    no page was in it. -/
theorem mapped_transparent_iff {pageId : Nat} (h : Transparent c m) (hpage : page < c.swapPages)
    (hunused : m.pager.mapping page = none)
    (hmapping : s'.mapping = Function.update m.pager.mapping page (some (.ram, pageId)))
    (hram : s'.ram.data = Function.update m.pager.ram.data pageId zeroPage)
    (hswap : s'.swap.data = m.pager.swap.data) :
    Transparent c ⟨s', m.flat⟩ ↔
      ∀ q < c.swapPages, m.pager.mapping q ≠ some (.ram, pageId) := by
  have hself : s'.mapping page = some (.ram, pageId) := by
    rw [hmapping, Function.update_self]
  have hother : ∀ q, q ≠ page → s'.mapping q = m.pager.mapping q := fun q hq => by
    rw [hmapping, Function.update_of_ne hq]
  constructor
  · -- A page that was in it would now share it.
    intro h' q hq hmap
    have hqp : q ≠ page := by
      rintro rfl
      cases hunused.symm.trans hmap
    exact hqp (h'.own q page hq hpage _ ((hother q hqp).trans hmap) hself)
  · intro hfree
    refine h.of_content (fun p q hp hq x hpx hqx => ?_) fun p hp o _ => ?_
    · by_cases hpp : p = page <;> by_cases hqp : q = page
      · rw [hpp, hqp]
      · rw [hpp, hself] at hpx
        cases hpx
        exact absurd ((hother q hqp).symm.trans hqx) (hfree q hq)
      · rw [hqp, hself] at hqx
        cases hqx
        exact absurd ((hother p hpp).symm.trans hpx) (hfree p hp)
      · exact h.own p q hp hq x ((hother p hpp).symm.trans hpx) ((hother q hqp).symm.trans hqx)
    · by_cases hpp : p = page
      · -- The anonymous page had zeros, and so has the frame.
        rw [hpp, State.content_of_mapping hself, State.content_of_unmapped hunused]
        show s'.ram.data pageId o = _
        rw [hram, Function.update_self]
      · rw [State.content_congr (hother p hpp)]
        · intro k hk
          rw [hram, Function.update_of_ne]
          rintro rfl
          exact hfree p hp hk
        · exact fun k _ => congrFun hswap k

/-- A swap loses nothing exactly when it overwrites no other page and copies the right
    bytes. -/
theorem swapped_transparent_iff {victim swapPage ramPage : Nat} {saved loaded : Page}
    (h : Transparent c m) (hne : page ≠ victim) (hpage : page < c.swapPages)
    (hvictim : victim < c.swapPages)
    (hmapping : s'.mapping = Function.update
      (Function.update m.pager.mapping victim (some (.swap, swapPage))) page
      (some (.ram, ramPage)))
    (hram : s'.ram.data = Function.update m.pager.ram.data ramPage loaded)
    (hswap : s'.swap.data = Function.update m.pager.swap.data swapPage saved) :
    Transparent c ⟨s', m.flat⟩ ↔
      SwapKeepsData c m.pager victim page swapPage ramPage saved loaded := by
  have hself : s'.mapping page = some (.ram, ramPage) := by
    rw [hmapping, Function.update_self]
  have hvictimMap : s'.mapping victim = some (.swap, swapPage) := by
    rw [hmapping, Function.update_of_ne hne.symm, Function.update_self]
  have hother : ∀ q, q ≠ victim → q ≠ page → s'.mapping q = m.pager.mapping q :=
    fun q hqv hqp => by rw [hmapping, Function.update_of_ne hqp, Function.update_of_ne hqv]
  have hsaved : s'.content victim = saved := by
    rw [State.content_of_mapping hvictimMap]
    show s'.swap.data swapPage = saved
    rw [hswap, Function.update_self]
  have hloaded : s'.content page = loaded := by
    rw [State.content_of_mapping hself]
    show s'.ram.data ramPage = loaded
    rw [hram, Function.update_self]
  constructor
  · -- The flat memory is the same before and after, so it says what the two pages must have.
    intro h'
    refine ⟨fun q hq hqne => ⟨fun hmap => ?_, fun hmap => ?_⟩, fun o ho => ?_, fun o ho => ?_⟩
    · exact hqne.1 (h'.own q victim hq hvictim _ ((hother q hqne.1 hqne.2).trans hmap) hvictimMap)
    · exact hqne.2 (h'.own q page hq hpage _ ((hother q hqne.1 hqne.2).trans hmap) hself)
    · rw [h.bytes victim hvictim o ho, ← h'.bytes victim hvictim o ho, hsaved]
    · rw [h.bytes page hpage o ho, ← h'.bytes page hpage o ho, hloaded]
  · rintro ⟨hfree, hsame, hsame'⟩
    -- Two pages in the same page of a file were there before, or one of them is new in it.
    have hnew : ∀ q < c.swapPages, q ≠ victim → q ≠ page →
        s'.mapping q ≠ some (.swap, swapPage) ∧ s'.mapping q ≠ some (.ram, ramPage) := by
      intro q hq hqv hqp
      rw [hother q hqv hqp]
      exact hfree q hq ⟨hqv, hqp⟩
    refine h.of_content (fun p q hp hq x hpx hqx => ?_) fun p hp => ?_
    · by_cases hpp : p = page
      · rw [hpp, hself] at hpx
        cases hpx
        by_cases hqp : q = page
        · rw [hpp, hqp]
        by_cases hqv : q = victim
        · rw [hqv, hvictimMap] at hqx
          cases hqx
        · exact absurd hqx (hnew q hq hqv hqp).2
      by_cases hpv : p = victim
      · rw [hpv, hvictimMap] at hpx
        cases hpx
        by_cases hqv : q = victim
        · rw [hpv, hqv]
        by_cases hqp : q = page
        · rw [hqp, hself] at hqx
          cases hqx
        · exact absurd hqx (hnew q hq hqv hqp).1
      · by_cases hqp : q = page
        · rw [hqp, hself] at hqx
          cases hqx
          exact absurd hpx (hnew p hp hpv hpp).2
        by_cases hqv : q = victim
        · rw [hqv, hvictimMap] at hqx
          cases hqx
          exact absurd hpx (hnew p hp hpv hpp).1
        · exact h.own p q hp hq x ((hother p hpv hpp).symm.trans hpx)
            ((hother q hqv hqp).symm.trans hqx)
    · by_cases hpv : p = victim
      · rw [hpv, hsaved]
        exact hsame
      by_cases hpp : p = page
      · rw [hpp, hloaded]
        exact hsame'
      · rw [State.content_congr (hother p hpv hpp)]
        · exact fun _ _ => rfl
        · intro k hk
          rw [hram, Function.update_of_ne]
          rintro rfl
          exact (hfree p hp ⟨hpv, hpp⟩).2 hk
        · intro k hk
          rw [hswap, Function.update_of_ne]
          rintro rfl
          exact (hfree p hp ⟨hpv, hpp⟩).1 hk

/-! ### One attempt -/

/-- The records are coherent, and unused pages are not in a file. -/
structure Tidy (c : Config) (s : State) : Prop where
  coherent : Coherent c s
  unmapped : ∀ p, (s.pagesInfo p).info = .none → s.mapping p = none

theorem vinit_tidy (junk1 junk2 : Page) : Tidy c (vinit c junk1 junk2) :=
  ⟨vinit_coherent junk1 junk2, fun _ _ => rfl⟩

theorem Tidy.congr (h : Tidy c s) (hrecords : s'.pagesInfo = s.pagesInfo)
    (hmapping : s'.mapping = s.mapping) (hprot : s'.prot = s.prot) : Tidy c s' := by
  obtain ⟨⟨hrecord, hp, hunused, hanchored⟩, hunmapped⟩ := h
  rw [← hrecords] at hrecord hp hunused hanchored hunmapped
  rw [← hprot] at hp
  rw [← hmapping] at hunmapped
  exact ⟨⟨hrecord, hp, hunused, hanchored⟩, hunmapped⟩

/-- After a swap, the pages that are unused are so as before. -/
theorem swapRecords_unused {info : Nat → PageRecord} {victim page p : Nat} {swapId : Int}
    (hne : page ≠ victim) (h : (swapRecords info victim page swapId p).info = .none) :
    p ≠ page ∧ p ≠ victim ∧ (info p).info = .none := by
  have hpage : p ≠ page := by
    rintro rfl
    rw [swapRecords_page hne] at h
    cases h
  have hvictim : p ≠ victim := by
    rintro rfl
    rw [swapRecords_victim hne] at h
    cases h
  rw [swapRecords_of_ne hpage hvictim] at h
  exact ⟨hpage, hvictim, h⟩

/-- A page that is unused beside a new record of a page in use was so before. -/
theorem unused_of_update {info : Nat → PageRecord} {page p : Nat} {record : PageRecord}
    (hrecord : record.info ≠ .none) (h : (Function.update info page record p).info = .none) :
    p ≠ page ∧ (info p).info = .none := by
  have hpp : p ≠ page := by
    rintro rfl
    rw [Function.update_self] at h
    exact hrecord h
  rw [Function.update_of_ne hpp] at h
  exact ⟨hpp, h⟩

theorem serves_tidy (h : Tidy c s) (hpage : page < c.swapPages) (hserves : Serves c s page s') :
    Tidy c s' := by
  refine ⟨(serves_coherent hpage h.coherent hserves).1, fun p hp => ?_⟩
  cases hserves with
  | mapped pageId hinfo hfree hrecords hmapping _ _ _ =>
    rw [hrecords] at hp
    obtain ⟨hpp, hunused⟩ := unused_of_update Info.noConfusion hp
    rw [hmapping, Function.update_of_ne hpp]
    exact h.unmapped p hunused
  | evicted victim swapId hinfo hfull hvictim hslot hrecords hmapping _ _ _ =>
    have hne : swapId + c.ramPages ≠ victim :=
      h.coherent.ne_victim hvictim (Or.inl (searchFreePageSwap_some hslot).2.1)
    -- The record of the page is used now, and the others are those of the swapped pair.
    have hold : (swapRecords s.pagesInfo victim (swapId + c.ramPages) swapId p).info = .none := by
      rw [hrecords] at hp
      by_cases hpp : p = page
      · rw [hpp, Function.update_self] at hp
        rw [hpp]
        exact hp
      · rwa [Function.update_of_ne hpp] at hp
    obtain ⟨hslotNe, hvictimNe, hunused⟩ := swapRecords_unused hne hold
    rw [hmapping, Function.update_of_ne hslotNe, Function.update_of_ne hvictimNe]
    exact h.unmapped p hunused
  | writable hinfo hrecords hmapping _ _ _ =>
    rw [hrecords] at hp
    rw [hmapping]
    exact h.unmapped p (unused_of_update Info.noConfusion hp).2
  | kept hinfo hs' =>
    subst hs'
    exact h.unmapped p hp
  | readmitted victim swapId ramId hinfo hvictim _ _ hrecords hmapping _ _ _ =>
    -- The page that comes in and the one that goes out have exchanged their records.
    have hne : page ≠ victim := h.coherent.ne_victim hvictim (Or.inr hinfo)
    rw [hrecords] at hp
    obtain ⟨hpageNe, hvictimNe, hunused⟩ := swapRecords_unused hne hp
    rw [hmapping, Function.update_of_ne hpageNe, Function.update_of_ne hvictimNe]
    exact h.unmapped p hunused

/-- **One fault.**  Serving a fault keeps the memory transparent exactly when it keeps the
    data. -/
theorem serves_transparent_iff (htidy : Tidy c m.pager) (h : Transparent c m)
    (hpage : page < c.swapPages) (hserves : Serves c m.pager page s') :
    Transparent c ⟨s', m.flat⟩ ↔ FaultKeepsData c m.pager page := by
  unfold FaultKeepsData
  cases hserves with
  | mapped pageId hinfo hfree _ hmapping _ hram hswap =>
    simp only [hinfo, hfree]
    exact mapped_transparent_iff h hpage (htidy.unmapped page hinfo) hmapping hram hswap
  | evicted victim swapId hinfo hfull hvictim hslot _ hmapping _ hram hswap =>
    have hne : swapId + c.ramPages ≠ victim :=
      htidy.coherent.ne_victim hvictim (Or.inl (searchFreePageSwap_some hslot).2.1)
    have hslotLt := Nat.lt_of_le_of_lt (slot_le hinfo hfull hslot) hpage
    simp only [hinfo, hfull, hvictim, hslot]
    exact swapped_transparent_iff h hne hslotLt (htidy.coherent.victim hvictim).2.2 hmapping
      hram hswap
  | writable hinfo _ hmapping _ hram hswap =>
    simp only [hinfo, iff_true]
    refine h.of_content (fun p q hp hq x => ?_) fun p _ => ?_
    · rw [hmapping]
      exact h.own p q hp hq x
    · rw [State.content_congr (congrFun hmapping p) (fun _ _ => by rw [hram])
        (fun _ _ => by rw [hswap])]
      exact fun _ _ => rfl
  | kept hinfo hs' =>
    subst hs'
    simp only [hinfo, iff_true]
    exact h
  | readmitted victim swapId ramId hinfo hvictim hswapId hramId _ hmapping _ hram hswap =>
    have hne : page ≠ victim := htidy.coherent.ne_victim hvictim (Or.inr hinfo)
    obtain ⟨-, hid, hvictimLt⟩ := htidy.coherent.victim hvictim
    -- The victim was searched by RAM page 0.
    have hzero : ramId = 0 := by
      rw [hramId] at hid
      omega
    subst hzero
    simp only [hinfo, hvictim, hswapId, Int.toNat_natCast, Int.natCast_nonneg, forall_const]
    exact swapped_transparent_iff h hne hpage hvictimLt hmapping hram hswap

/-- A completed read returns what the flat memory has. -/
theorem Transparent.load (h : Transparent c m) {addr : Nat}
    (haddr : addr < c.swapPages * c.pageSize) {value : UInt8}
    (hload : m.pager.load c addr = some value) : value = m.flat addr := by
  have hpage : addr / c.pageSize < c.swapPages := (Nat.div_lt_iff_lt_mul c.pageSize_pos).mpr haddr
  have hbytes := h.bytes _ hpage _ (Nat.mod_lt addr c.pageSize_pos)
  rw [Nat.div_add_mod'] at hbytes
  rw [← hbytes]
  unfold State.load at hload
  split at hload
  next fd k hmap =>
    split at hload
    next =>
      cases hload
      rw [State.content_of_mapping hmap]
    next => cases hload
  next => cases hload

theorem State.setFile_file (s : State) (fd fd' : Fd) (f : File) :
    (s.setFile fd f).file fd' = if fd' = fd then f else s.file fd' := by
  cases fd <;> cases fd' <;> rfl

/-- A completed write is one to the page of the file that the page is mapped to. -/
theorem State.store_eq_some {addr : Nat} {value : UInt8} (hstore : s.store c addr value = some s') :
    ∃ fd k, s.mapping (addr / c.pageSize) = some (fd, k) ∧
      s' = s.setFile fd ((s.file fd).setByte k (addr % c.pageSize) value) := by
  unfold State.store at hstore
  split at hstore
  next fd k hmap =>
    split at hstore
    next => exact ⟨fd, k, hmap, (Option.some.inj hstore).symm⟩
    next => cases hstore
  next => cases hstore

/-- A write leaves the records, the mappings and the protections. -/
theorem State.store_frame {addr : Nat} {value : UInt8} (hstore : s.store c addr value = some s') :
    s'.pagesInfo = s.pagesInfo ∧ s'.mapping = s.mapping ∧ s'.prot = s.prot := by
  obtain ⟨fd, k, -, rfl⟩ := State.store_eq_some hstore
  cases fd <;> exact ⟨rfl, rfl, rfl⟩

/-- The contents after a completed write, where the page has its page of the file alone. -/
theorem State.store_content {addr : Nat} {value : UInt8}
    (hown : ∀ q < c.swapPages, ∀ x, s.mapping (addr / c.pageSize) = some x →
      s.mapping q = some x → q = addr / c.pageSize)
    (hstore : s.store c addr value = some s') {q : Nat} (hq : q < c.swapPages) :
    s'.content q =
      if q = addr / c.pageSize then Function.update (s.content q) (addr % c.pageSize) value
      else s.content q := by
  have hmapping := (State.store_frame hstore).2.1
  obtain ⟨fd, k, hmap, rfl⟩ := State.store_eq_some hstore
  by_cases hqp : q = addr / c.pageSize
  · subst hqp
    rw [if_pos rfl, State.content_of_mapping ((congrFun hmapping _).trans hmap),
      State.content_of_mapping hmap, State.setFile_file, if_pos rfl]
    exact Function.update_self ..
  · rw [if_neg hqp]
    cases hmapq : s.mapping q with
    | none =>
      rw [State.content_of_unmapped ((congrFun hmapping q).trans hmapq),
        State.content_of_unmapped hmapq]
    | some x =>
      obtain ⟨fd', k'⟩ := x
      rw [State.content_of_mapping ((congrFun hmapping q).trans hmapq),
        State.content_of_mapping hmapq, State.setFile_file]
      by_cases hfd : fd' = fd
      · -- In the same file, it must be another page of the file.
        subst hfd
        rw [if_pos rfl]
        refine Function.update_of_ne (fun hk => hqp (hown q hq _ hmap ?_)) ..
        rw [hmapq, hk]
      · rw [if_neg hfd]

/-- A completed write changes the byte in the flat memory, and no other. -/
theorem Transparent.store (h : Transparent c m) {addr : Nat}
    (haddr : addr < c.swapPages * c.pageSize) {value : UInt8}
    (hstore : m.pager.store c addr value = some s') :
    Transparent c ⟨s', Function.update m.flat addr value⟩ := by
  have hpage : addr / c.pageSize < c.swapPages := (Nat.div_lt_iff_lt_mul c.pageSize_pos).mpr haddr
  have hmapping := (State.store_frame hstore).2.1
  refine ⟨fun p q hp hq x => ?_, fun q hq o ho => ?_⟩
  · rw [hmapping]
    exact h.own p q hp hq x
  · have hdiv : (q * c.pageSize + o) / c.pageSize = q := by
      rw [Nat.mul_comm, Nat.mul_add_div c.pageSize_pos, Nat.div_eq_of_lt ho, Nat.add_zero]
    have hmod : (q * c.pageSize + o) % c.pageSize = o := by
      rw [Nat.mul_comm, Nat.mul_add_mod, Nat.mod_eq_of_lt ho]
    dsimp only
    rw [State.store_content (fun q hq x hx hqx => h.own q _ hq hpage x hqx hx) hstore hq]
    by_cases heq : q * c.pageSize + o = addr
    · rw [if_pos (by rw [← heq, hdiv]), heq, Function.update_self, ← heq, hmod,
        Function.update_self]
    · -- Another byte, possibly of the same page.
      rw [Function.update_of_ne heq, ← h.bytes q hq o ho]
      split
      next hqp =>
        refine Function.update_of_ne (fun ho' => heq ?_) ..
        rw [hqp, ho', Nat.div_add_mod']
      next => rfl

/-! ### Runs -/

theorem attempt_tidy {access : Access} (htidy : Tidy c m.pager)
    (hattempt : attempt c m access = some m') : Tidy c m'.pager := by
  unfold attempt at hattempt
  split at hattempt
  next hlt =>
    split at hattempt
    next =>
      cases access with
      | read addr =>
        obtain ⟨-, -, rfl⟩ := Option.map_eq_some_iff.mp hattempt
        exact htidy
      | write addr value =>
        obtain ⟨t, ht, rfl⟩ := Option.map_eq_some_iff.mp hattempt
        obtain ⟨hrecords, hmapping, hprot⟩ := State.store_frame ht
        exact htidy.congr hrecords hmapping hprot
    next =>
      obtain ⟨t, ht, rfl⟩ := Option.map_eq_some_iff.mp hattempt
      obtain ⟨hpage, hserves⟩ := fault_serves ht
      exact serves_tidy htidy hpage hserves
  next => cases hattempt

/-- **One attempt.**  An attempt leaves the memory transparent exactly when it keeps the
    data. -/
theorem attempt_transparent_iff {access : Access} (htidy : Tidy c m.pager)
    (h : Transparent c m) (hattempt : attempt c m access = some m') :
    Transparent c m' ↔ KeepsData c m access := by
  unfold attempt at hattempt
  split at hattempt
  next hlt =>
    split at hattempt
    next hpermitted =>
      have hkeeps : KeepsData c m access := fun _ hnot => absurd hpermitted hnot
      cases access with
      | read addr =>
        obtain ⟨-, -, rfl⟩ := Option.map_eq_some_iff.mp hattempt
        exact iff_of_true h hkeeps
      | write addr value =>
        obtain ⟨t, ht, rfl⟩ := Option.map_eq_some_iff.mp hattempt
        exact iff_of_true (h.store hlt ht) hkeeps
    next hdenied =>
      obtain ⟨t, ht, rfl⟩ := Option.map_eq_some_iff.mp hattempt
      obtain ⟨hpage, hserves⟩ := fault_serves ht
      rw [serves_transparent_iff htidy h hpage hserves]
      exact ⟨fun hkeeps _ _ => hkeeps, fun hkeeps => hkeeps hlt hdenied⟩
  next => cases hattempt

/-- A fault from which the handler does not return keeps the data: the page is on swap, and
    has no swap page. -/
theorem keepsData_of_stuck {access : Access} (hram : 1 ≤ c.ramPages) (htidy : Tidy c m.pager)
    (hattempt : attempt c m access = none) : KeepsData c m access := by
  intro hlt hdenied
  unfold attempt at hattempt
  rw [if_pos hlt, if_neg hdenied, Option.map_eq_none_iff, fault_eq hlt] at hattempt
  have hpage : access.addr / c.pageSize < c.swapPages :=
    (Nat.div_lt_iff_lt_mul c.pageSize_pos).mpr hlt
  generalize access.addr / c.pageSize = page at hattempt hpage ⊢
  -- Only a page on swap can have a number that cannot be mapped.
  by_cases hinfo : (m.pager.pagesInfo page).info = .swap
  · unfold FaultKeepsData
    rw [handlePage, hinfo] at hattempt
    simp only [hinfo]
    cases hvictim : searchPageIdRam c m.pager 0 with
    | none => trivial
    | some victim =>
      intro hnonneg
      obtain ⟨swapId, hswapId⟩ := Int.eq_ofNat_of_zero_le hnonneg
      have hsome := swapDataSwap_isSome m.pager hswapId (searchPageIdRam_some hvictim).2
      rw [hvictim] at hattempt
      have hnone : swapDataSwap m.pager victim page = none := hattempt
      rw [hnone] at hsome
      cases hsome
  · have hsome := handlePage_isSome hram htidy.coherent hpage hinfo
    rw [hattempt] at hsome
    cases hsome

/-- **A flat memory, exactly as long as faults keep the data.** -/
theorem always_transparent_iff (hram : 1 ≤ c.ramPages) (junk1 junk2 : Page)
    (accesses : List Access) :
    Always (attempt c) (Transparent c) (Memory.init c junk1 junk2) accesses ↔
      EachStep (attempt c) (KeepsData c) (Memory.init c junk1 junk2) accesses :=
  always_iff_eachStep (J := fun m => Tidy c m.pager)
    (fun _ _ _ htidy _ hattempt _ => attempt_tidy htidy hattempt)
    (fun _ _ _ htidy h hattempt => attempt_transparent_iff htidy h hattempt)
    (fun _ _ htidy _ hattempt => keepsData_of_stuck hram htidy hattempt)
    (vinit_tidy junk1 junk2) (init_transparent junk1 junk2)

/-- **Reads return what was written last**, in every run of accesses in which serving a fault
    keeps the data. -/
theorem eachStep_readsBack (junk1 junk2 : Page) (accesses : List Access)
    (h : EachStep (attempt c) (KeepsData c) (Memory.init c junk1 junk2) accesses) :
    EachStep (attempt c) (ReadsBack c) (Memory.init c junk1 junk2) accesses := by
  refine EachStep.of_invariant (I := fun m => Tidy c m.pager ∧ Transparent c m) ?_ ?_
    ⟨vinit_tidy junk1 junk2, init_transparent junk1 junk2⟩ h
  · intro m access m' ⟨htidy, htransparent⟩ hkeeps hattempt
    exact ⟨attempt_tidy htidy hattempt,
      (attempt_transparent_iff htidy htransparent hattempt).mpr hkeeps⟩
  · intro m access ⟨_, htransparent⟩ _
    cases access with
    | read addr => exact fun hlt _ value hload => htransparent.load hlt hload
    | write addr value => trivial

/-- One RAM page for two virtual pages: the first one is written, and evicted by a read of the
    second one. -/
theorem eachStep_readsBack_evict : ∃ c : Config, c.ramPages = 1 ∧ EachStep (attempt c) (ReadsBack c)
    (Memory.init c zeroPage zeroPage)
    [.write 0 7, .write 0 7, .write 0 7, .read 0, .read 1, .read 1] :=
  ⟨⟨1, 1, 2, by decide, by unfold Accepted; decide⟩, rfl,
    eachStep_readsBack zeroPage zeroPage _ (by decide)⟩

/-- **A lost write.**  With one RAM page for two virtual pages, byte 7 is written to page 1,
    page 0 is read, and page 1 reads as 0. -/
theorem not_eachStep_readsBack : ¬ ∀ c : Config, 1 ≤ c.ramPages → ∀ junk1 junk2 accesses,
    EachStep (attempt c) (ReadsBack c) (Memory.init c junk1 junk2) accesses := by
  intro h
  have hrun := h ⟨1, 1, 2, by decide, by unfold Accepted; decide⟩ (by decide) zeroPage zeroPage
    [.write 1 7, .write 1 7, .write 1 7, .read 0, .read 0, .read 1]
  have hread := ((((((hrun.2 _ rfl).2 _ rfl).2 _ rfl).2 _ rfl).2 _ rfl).1 (by decide)
    (by decide) 0 rfl)
  exact absurd hread (by decide)

end WorkAtUPB.VirtualMemory
