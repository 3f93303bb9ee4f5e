import WorkAtUPB.VirtualMemory.Transparency

namespace WorkAtUPB.VirtualMemory

open WorkAtUPB.Run

/-!
# VirtualMemoryLinux — when a fault makes progress

An access is attempted again after every fault.  It gets on if the fault brings in its page, and
that depends on what the records say about other pages:

* `BroughtIn` — the page is resident and readable, and at most one other page went for it;
* `BringsIn` — a page that was never used comes in if a RAM page is free or all pages before it
  are used, and a page on swap if its record has a swap page;
* `CompletesWithin` — an access completes after so many faults;
* `fault_progress_iff` — in every reachable state: the fault makes progress, a read costs one
  fault at most and a write two, exactly if the page is brought in.
-/

/-- What a fault on a page that is not resident is to do: the page is resident with read
    permission, and at most one other page is not resident any more. -/
structure BroughtIn (s s' : State) (page : Nat) : Prop where
  info : (s'.pagesInfo page).info = .ramRead
  prot : s'.prot page = .read
  mapping : ∃ frame, s'.mapping page = some (.ram, frame)
  others : ∃ victim, ∀ q, q ≠ page →
    ((s'.pagesInfo q).info.Resident ↔ (s.pagesInfo q).info.Resident ∧ q ≠ victim)

section

variable (c : Config)

/-- The handler brings in the page itself: of the pages that were never used the first one that
    does not belong to the RAM pages, when there is no free RAM page, and of the pages on swap
    those with a swap page. -/
def BringsIn (s : State) (page : Nat) : Prop :=
  match (s.pagesInfo page).info with
  | .none => (∃ i < c.ramPages, (s.pagesInfo i).info = .none) ∨
      ∀ q < page, c.ramPages ≤ q → (s.pagesInfo q).info ≠ .none
  | .swap => 0 ≤ (s.pagesInfo page).idSwap
  | _ => True

/-- The access is permitted after at most `n` faults, each on an attempt of it. -/
def CompletesWithin (access : Access) : Nat → Memory → Prop
  | 0, m => access.Permitted (m.pager.prot (access.addr / c.pageSize))
  | n + 1, m => access.Permitted (m.pager.prot (access.addr / c.pageSize)) ∨
      ∃ m', attempt c m access = some m' ∧ CompletesWithin access n m'

/-- What is expected of the accesses to the byte at `addr`. -/
structure MakesProgress (m : Memory) (addr : Nat) : Prop where
  fault : (m.pager.pagesInfo (addr / c.pageSize)).info = .none ∨
      (m.pager.pagesInfo (addr / c.pageSize)).info = .swap →
    ∃ s', fault c m.pager addr = some s' ∧ BroughtIn m.pager s' (addr / c.pageSize)
  read : CompletesWithin c (.read addr) 1 m
  write : ∀ value, CompletesWithin c (.write addr value) 2 m

end

variable {c : Config} {s s' : State} {page : Nat}

/-! ### One fault -/

/-- The residency of the other pages after a swap. -/
theorem swapRecords_resident {info : Nat → PageRecord} {victim page : Nat} {swapId : Int}
    (hne : page ≠ victim) {q : Nat} (hq : q ≠ page) :
    (swapRecords info victim page swapId q).info.Resident ↔
      (info q).info.Resident ∧ q ≠ victim := by
  by_cases hqv : q = victim
  · rw [hqv, swapRecords_victim hne]
    exact iff_of_false (show ¬ Info.Resident .swap by decide) fun h => h.2 rfl
  · rw [swapRecords_of_ne hq hqv]
    exact ⟨fun h => ⟨h, hqv⟩, And.left⟩

/-- With all RAM pages taken, an unused page is brought in exactly if it is the slot that is
    found. -/
theorem bringsIn_iff_of_full {swapId : Nat} (hinfo : (s.pagesInfo page).info = .none)
    (hfull : searchFreePageRam c s = none) (hslot : searchFreePageSwap c s = some swapId) :
    BringsIn c s page ↔ page = swapId + c.ramPages := by
  obtain ⟨-, hslotNone, hfirst⟩ := searchFreePageSwap_some hslot
  have hle := slot_le hinfo hfull hslot
  rw [BringsIn, hinfo]
  constructor
  · rintro (⟨i, hi, hnone⟩ | hused)
    · exact absurd hnone (searchFreePageRam_none hfull hi)
    · by_contra hneq
      exact hused _ (by omega) (Nat.le_add_left _ _) hslotNone
  · rintro hpage
    refine Or.inr fun q hq hram => ?_
    have hused := hfirst (q - c.ramPages) (by omega)
    rwa [Nat.sub_add_cancel hram] at hused

/-- A served fault brings in its page exactly if it takes the right branch. -/
theorem serves_broughtIn_iff (h : Coherent c s)
    (hinfo : (s.pagesInfo page).info = .none ∨ (s.pagesInfo page).info = .swap)
    (hserves : Serves c s page s') : BroughtIn s s' page ↔ BringsIn c s page := by
  cases hserves with
  | mapped pageId hinfo' hfree hrecords hmapping hprot hramData hswapData =>
    obtain ⟨hlt, hnone⟩ := searchFreePageRam_some hfree
    refine iff_of_true ⟨?_, ?_, ⟨pageId, ?_⟩, page, fun q hq => ?_⟩ ?_
    · rw [hrecords, Function.update_self]
    · rw [hprot, Function.update_self]
    · rw [hmapping, Function.update_self]
    · rw [hrecords, Function.update_of_ne hq]
      exact ⟨fun hres => ⟨hres, hq⟩, And.left⟩
    · rw [BringsIn, hinfo']
      exact Or.inl ⟨pageId, hlt, hnone⟩
  | evicted victim swapId hinfo' hfull hvictim hslot hrecords hmapping hprot hramData hswapData =>
    have hne : swapId + c.ramPages ≠ victim :=
      h.ne_victim hvictim (Or.inl (searchFreePageSwap_some hslot).2.1)
    rw [bringsIn_iff_of_full hinfo' hfull hslot]
    constructor
    -- Another page than the slot is unused as before.
    · intro hin
      by_contra hneq
      have hread := hin.info
      rw [hrecords, Function.update_self,
        swapRecords_of_ne hneq (h.ne_victim hvictim (Or.inl hinfo'))] at hread
      exact Info.noConfusion (hinfo'.symm.trans hread)
    · intro hpage
      rw [← hpage] at hrecords hmapping hprot hne
      refine ⟨?_, ?_, ⟨victim, ?_⟩, victim, fun q hq => ?_⟩
      · rw [hrecords, Function.update_self, swapRecords_page hne]
      · rw [hprot, Function.update_self]
      · rw [hmapping, Function.update_self]
      · rw [hrecords, Function.update_of_ne hq]
        exact swapRecords_resident hne hq
  | writable hinfo' =>
    rcases hinfo with hinfo | hinfo <;> exact Info.noConfusion (hinfo.symm.trans hinfo')
  | kept hinfo' =>
    rcases hinfo with hinfo | hinfo <;> exact Info.noConfusion (hinfo.symm.trans hinfo')
  | readmitted victim swapId ramId hinfo' hvictim hswapId hramId hrecords hmapping hprot hramData
      hswapData =>
    have hne : page ≠ victim := h.ne_victim hvictim (Or.inr hinfo')
    refine iff_of_true ⟨?_, ?_, ⟨ramId, ?_⟩, victim, fun q hq => ?_⟩ ?_
    · rw [hrecords, swapRecords_page hne]
    · rw [hprot, Function.update_self]
    · rw [hmapping, Function.update_self]
    · rw [hrecords]
      exact swapRecords_resident hne hq
    · rw [BringsIn, hinfo', hswapId]
      exact Int.natCast_nonneg swapId

/-- A fault on a page that is brought in is served. -/
theorem BringsIn.handlePage_isSome (hram : 1 ≤ c.ramPages) (h : Coherent c s)
    (hpage : page < c.swapPages) (hbrings : BringsIn c s page) : (handlePage c s page).isSome := by
  by_cases hinfo : (s.pagesInfo page).info = .swap
  · rw [BringsIn, hinfo] at hbrings
    obtain ⟨swapId, hswapId⟩ := Int.eq_ofNat_of_zero_le hbrings
    have hused : (s.pagesInfo page).info ≠ .none := by
      rw [hinfo]
      exact Info.noConfusion
    obtain ⟨victim, hvictim⟩ := Option.isSome_iff_exists.mp (h.victim_isSome hused)
    rw [handlePage, hinfo]
    dsimp only
    rw [hvictim]
    exact swapDataSwap_isSome s hswapId (searchPageIdRam_some hvictim).2
  · exact VirtualMemory.handlePage_isSome hram h hpage hinfo

/-! ### Accesses -/

variable {m : Memory} {addr : Nat}

/-- An access that is not permitted causes a fault. -/
theorem attempt_of_not_permitted {access : Access} (haddr : access.addr < c.swapPages * c.pageSize)
    (hdenied : ¬ access.Permitted (m.pager.prot (access.addr / c.pageSize))) {s' : State}
    (hfault : fault c m.pager access.addr = some s') : attempt c m access = some ⟨s', m.flat⟩ := by
  unfold attempt
  rw [if_pos haddr, if_neg hdenied, hfault, Option.map_some]

/-- What is permitted needs no fault. -/
theorem completesWithin_of_permitted {access : Access}
    (h : access.Permitted (m.pager.prot (access.addr / c.pageSize))) (n : Nat) :
    CompletesWithin c access n m := by
  cases n with
  | zero => exact h
  | succ n => exact Or.inl h

/-- A fault brings an access nearer to its end. -/
theorem completesWithin_of_fault {access : Access} (haddr : access.addr < c.swapPages * c.pageSize)
    {s' : State} (hfault : fault c m.pager access.addr = some s') {n : Nat}
    (h : CompletesWithin c access n ⟨s', m.flat⟩) : CompletesWithin c access (n + 1) m := by
  by_cases hpermitted : access.Permitted (m.pager.prot (access.addr / c.pageSize))
  · exact Or.inl hpermitted
  · exact Or.inr ⟨_, attempt_of_not_permitted haddr hpermitted hfault, h⟩

/-- A write to a readable page costs one fault. -/
theorem write_of_ramRead (haddr : addr < c.swapPages * c.pageSize)
    (hinfo : (m.pager.pagesInfo (addr / c.pageSize)).info = .ramRead) (value : UInt8) :
    CompletesWithin c (.write addr value) 1 m := by
  obtain ⟨s', hfault, hprot⟩ : ∃ s', fault c m.pager addr = some s' ∧
      s'.prot (addr / c.pageSize) = .write := by
    rw [fault_eq haddr, handlePage, hinfo]
    exact ⟨_, rfl, Function.update_self ..⟩
  exact @completesWithin_of_fault c m (.write addr value) haddr s' hfault 0 hprot

/-- A resident page can be read at once, and written after one fault at most. -/
theorem accesses_of_resident (h : Coherent c m.pager) (haddr : addr < c.swapPages * c.pageSize)
    (hres : (m.pager.pagesInfo (addr / c.pageSize)).info.Resident) :
    CompletesWithin c (.read addr) 1 m ∧ ∀ value, CompletesWithin c (.write addr value) 2 m := by
  have hprot := h.prot (addr / c.pageSize)
  constructor
  · refine completesWithin_of_permitted ?_ 1
    show m.pager.prot (addr / c.pageSize) ≠ .none
    rw [hprot]
    rcases hres with hinfo | hinfo <;> rw [hinfo] <;> exact Prot.noConfusion
  · intro value
    rcases hres with hinfo | hinfo
    · exact Or.elim (write_of_ramRead haddr hinfo value) Or.inl fun ⟨m', hattempt, hm'⟩ =>
        Or.inr ⟨m', hattempt, completesWithin_of_permitted hm' 1⟩
    · refine completesWithin_of_permitted ?_ 2
      show m.pager.prot (addr / c.pageSize) = .write
      rw [hprot, hinfo]
      rfl

/-- A page that came in can be read at once, and written after one fault. -/
theorem accesses_of_broughtIn (haddr : addr < c.swapPages * c.pageSize) {s' : State}
    (hfault : fault c m.pager addr = some s') (hin : BroughtIn m.pager s' (addr / c.pageSize)) :
    CompletesWithin c (.read addr) 1 m ∧ ∀ value, CompletesWithin c (.write addr value) 2 m := by
  constructor
  · refine @completesWithin_of_fault c m (.read addr) haddr s' hfault 0 ?_
    show s'.prot (addr / c.pageSize) ≠ .none
    rw [hin.prot]
    exact Prot.noConfusion
  · intro value
    exact @completesWithin_of_fault c m (.write addr value) haddr s' hfault 1
      (write_of_ramRead haddr hin.info value)

/-- **Progress.**  In every state that accesses to the virtual pages lead to, and for every byte
    of them: a fault on its page, if that is not resident, makes it resident with read permission
    and at most one other page not resident any more, a read costs at most one fault and a write
    at most two, exactly if the handler brings in this page. -/
theorem fault_progress_iff (hram : 1 ≤ c.ramPages) (junk1 junk2 : Page) (m : Memory)
    (hm : Reachable (attempt c) (Memory.init c junk1 junk2) m) (addr : Nat)
    (haddr : addr < c.swapPages * c.pageSize) :
    MakesProgress c m addr ↔ BringsIn c m.pager (addr / c.pageSize) := by
  have htidy : Tidy c m.pager := hm.invariant (I := fun m => Tidy c m.pager)
    (vinit_tidy junk1 junk2) fun _ _ _ ht hattempt => attempt_tidy ht hattempt
  have hpage : addr / c.pageSize < c.swapPages := (Nat.div_lt_iff_lt_mul c.pageSize_pos).mpr haddr
  constructor
  · intro h
    -- For a resident page there is nothing to bring in.
    cases hinfo : (m.pager.pagesInfo (addr / c.pageSize)).info with
    | none =>
      obtain ⟨s', hfault, hin⟩ := h.fault (Or.inl hinfo)
      exact (serves_broughtIn_iff htidy.coherent (Or.inl hinfo) (fault_serves hfault).2).mp hin
    | swap =>
      obtain ⟨s', hfault, hin⟩ := h.fault (Or.inr hinfo)
      exact (serves_broughtIn_iff htidy.coherent (Or.inr hinfo) (fault_serves hfault).2).mp hin
    | ramRead =>
      rw [BringsIn, hinfo]
      trivial
    | ramWrite =>
      rw [BringsIn, hinfo]
      trivial
  · intro hbrings
    obtain ⟨s', hfault⟩ := Option.isSome_iff_exists.mp
      (hbrings.handlePage_isSome hram htidy.coherent hpage)
    rw [← fault_eq haddr] at hfault
    have hin (hinfo : (m.pager.pagesInfo (addr / c.pageSize)).info = .none ∨
        (m.pager.pagesInfo (addr / c.pageSize)).info = .swap) :
        BroughtIn m.pager s' (addr / c.pageSize) :=
      (serves_broughtIn_iff htidy.coherent hinfo (fault_serves hfault).2).mpr hbrings
    -- The first fault gives permission to read, and a write takes a second one.
    obtain ⟨hread, hwrite⟩ : CompletesWithin c (.read addr) 1 m ∧
        ∀ value, CompletesWithin c (.write addr value) 2 m := by
      cases hinfo : (m.pager.pagesInfo (addr / c.pageSize)).info with
      | none => exact accesses_of_broughtIn haddr hfault (hin (Or.inl hinfo))
      | swap => exact accesses_of_broughtIn haddr hfault (hin (Or.inr hinfo))
      | ramRead => exact accesses_of_resident htidy.coherent haddr (Or.inl hinfo)
      | ramWrite => exact accesses_of_resident htidy.coherent haddr (Or.inr hinfo)
    exact ⟨fun hinfo => ⟨s', hfault, hin hinfo⟩, hread, hwrite⟩

/-- One RAM page for three virtual pages: page 1 comes in for page 0. -/
theorem fault_progress_ascending : ∃ (c : Config) (m : Memory), 1 ≤ c.ramPages ∧
    Reachable (attempt c) (Memory.init c zeroPage zeroPage) m ∧ 1 < c.swapPages * c.pageSize ∧
    (MakesProgress c m 1 ↔ BringsIn c m.pager (1 / c.pageSize)) := by
  refine ⟨⟨1, 1, 3, by decide, by unfold Accepted; decide⟩, _, by decide, ⟨[.read 0], rfl⟩,
    by decide, ?_⟩
  exact fault_progress_iff (by decide) zeroPage zeroPage _ ⟨[.read 0], rfl⟩ 1 (by decide)

/-- **Another page comes in.**  With one RAM page for three virtual pages, page 0 is read, and
    then page 2: the fault brings in page 1, and page 2 is still unused. -/
theorem not_fault_progress : ∃ (c : Config) (m : Memory) (s' : State), 1 ≤ c.ramPages ∧
    Reachable (attempt c) (Memory.init c zeroPage zeroPage) m ∧ 2 < c.swapPages * c.pageSize ∧
    (m.pager.pagesInfo (2 / c.pageSize)).info = .none ∧ fault c m.pager 2 = some s' ∧
    (s'.pagesInfo (2 / c.pageSize)).info = .none ∧ ¬ MakesProgress c m 2 := by
  refine ⟨⟨1, 1, 3, by decide, by unfold Accepted; decide⟩, _, _, by decide, ⟨[.read 0], rfl⟩,
    by decide, rfl, rfl, rfl, fun h => ?_⟩
  obtain ⟨s', hfault, hin⟩ := h.fault (Or.inl rfl)
  cases hfault
  exact Info.noConfusion hin.info

end WorkAtUPB.VirtualMemory
