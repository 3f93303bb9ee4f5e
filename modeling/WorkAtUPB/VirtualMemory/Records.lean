import WorkAtUPB.Lib.Run
import WorkAtUPB.VirtualMemory.Handler

namespace WorkAtUPB.VirtualMemory

open WorkAtUPB.Run

/-!
# VirtualMemoryLinux — the page records stay coherent

Whatever the handler does to the frames, the fields of a record agree with each other and with
the protection of the page:

* `PageRecord.Coherent` — the fields of one record agree;
* `Coherent` — all records do, and the victim of a swap can be found;
* `serves_coherent` — every branch of the handler keeps this;
* `run_coherent` — so it holds after any sequence of faults.
-/

/-- `RAM_READ` or `RAM_WRITE`. -/
def Info.Resident (info : Info) : Prop := info = .ramRead ∨ info = .ramWrite

instance (info : Info) : Decidable info.Resident := inferInstanceAs (Decidable (_ ∨ _))

/-- The protection a page has with this information. -/
def Info.prot : Info → Prot
  | .none => .none
  | .ramRead => .read
  | .ramWrite => .write
  | .swap => .none

/-- The fields of a record agree: it has a RAM page exactly when it is resident, never a RAM
    page and a swap page, and a resident page is dirty exactly when it is writable. -/
structure PageRecord.Coherent (r : PageRecord) : Prop where
  resident_iff : r.idReal ≠ -1 ↔ r.info.Resident
  exclusive : r.idReal = -1 ∨ r.idSwap = -1
  dirty_iff : r.info.Resident → (r.dirty = true ↔ r.info = .ramWrite)

/-- All records are coherent, with the protection of their page; the pages past the virtual
    ones are unused; and unless all pages are, one of them has RAM page 0. -/
structure Coherent (c : Config) (s : State) : Prop where
  record : ∀ page, (s.pagesInfo page).Coherent
  prot : ∀ page, s.prot page = (s.pagesInfo page).info.prot
  unused : ∀ page, c.swapPages ≤ page → (s.pagesInfo page).info = .none
  anchored : (∀ page, (s.pagesInfo page).info = .none) ∨
    ∃ page, (s.pagesInfo page).idReal = 0

variable {c : Config} {s s' : State} {page : Nat}

theorem vinit_coherent (junk1 junk2 : Page) : Coherent c (vinit c junk1 junk2) where
  record := fun _ => ⟨iff_of_false (not_not.mpr rfl) (show ¬ Info.Resident .none by decide),
    Or.inl rfl, fun h => absurd h (show ¬ Info.Resident .none by decide)⟩
  prot := fun _ => rfl
  unused := fun _ _ => rfl
  anchored := Or.inl fun _ => rfl

/-! ### One record -/

theorem PageRecord.Coherent.not_resident {r : PageRecord} (h : r.Coherent) :
    r.idReal = -1 ↔ ¬ r.info.Resident := by
  rw [← h.resident_iff, not_not]

/-- A record that becomes resident and readable. -/
theorem PageRecord.coherent_ramRead (r : PageRecord) {ramId : Int} (h : ramId ≠ -1) :
    PageRecord.Coherent { r with
      idReal := ramId, idSwap := -1, info := .ramRead, dirty := false } where
  resident_iff := iff_of_true h (Or.inl rfl)
  exclusive := Or.inr rfl
  dirty_iff := fun _ => iff_of_false Bool.false_ne_true Info.noConfusion

/-- A record that goes to swap. -/
theorem PageRecord.coherent_swap (r : PageRecord) (swapId : Int) (swaped : Bool) :
    PageRecord.Coherent { r with
      info := .swap, idReal := -1, swaped := swaped, idSwap := swapId } where
  resident_iff := iff_of_false (not_not.mpr rfl) (show ¬ Info.Resident .swap by decide)
  exclusive := Or.inl rfl
  dirty_iff := fun h => absurd h (show ¬ Info.Resident .swap by decide)

/-- Clearing `dirty` where the page is not writable. -/
theorem PageRecord.Coherent.clean {r : PageRecord} (h : r.Coherent) (hinfo : r.info ≠ .ramWrite) :
    PageRecord.Coherent { r with dirty := false } where
  resident_iff := h.resident_iff
  exclusive := h.exclusive
  dirty_iff := fun _ => iff_of_false Bool.false_ne_true hinfo

theorem swapRecords_coherent {info : Nat → PageRecord} {victim page : Nat} {swapId : Int}
    (h : ∀ p, (info p).Coherent) (hne : page ≠ victim) (hvictim : (info victim).idReal ≠ -1)
    (p : Nat) : (swapRecords info victim page swapId p).Coherent := by
  by_cases hp : p = page
  · rw [hp, swapRecords_page hne]
    exact PageRecord.coherent_ramRead _ hvictim
  by_cases hpv : p = victim
  · rw [hpv, swapRecords_victim hne]
    exact PageRecord.coherent_swap ..
  · rw [swapRecords_of_ne hp hpv]
    exact h p

/-! ### What the searches find -/

/-- A page with a RAM page is a resident virtual page. -/
theorem Coherent.of_idReal (h : Coherent c s) (hid : (s.pagesInfo page).idReal ≠ -1) :
    (s.pagesInfo page).info.Resident ∧ page < c.swapPages := by
  have hres := (h.record page).resident_iff.mp hid
  refine ⟨hres, Nat.lt_of_not_le fun hle => ?_⟩
  rw [h.unused page hle] at hres
  exact absurd hres (by decide)

/-- The victim is a resident page. -/
theorem Coherent.victim (h : Coherent c s) {victim : Nat}
    (hvictim : searchPageIdRam c s 0 = some victim) :
    (s.pagesInfo victim).info.Resident ∧ (s.pagesInfo victim).idReal = 0 ∧
      victim < c.swapPages := by
  have hid := (searchPageIdRam_some hvictim).2
  have hreal : (s.pagesInfo victim).idReal ≠ -1 := by
    rw [hid]
    decide
  obtain ⟨hres, hlt⟩ := h.of_idReal hreal
  exact ⟨hres, hid, hlt⟩

/-- A page that is not resident is not the victim. -/
theorem Coherent.ne_victim (h : Coherent c s) {victim : Nat}
    (hvictim : searchPageIdRam c s 0 = some victim)
    (hinfo : (s.pagesInfo page).info = .none ∨ (s.pagesInfo page).info = .swap) :
    page ≠ victim := by
  rintro rfl
  have hres := (h.victim hvictim).1
  rcases hinfo with hinfo | hinfo
  · rw [hinfo] at hres
    exact absurd hres (by decide)
  · rw [hinfo] at hres
    exact absurd hres (by decide)

/-- With all RAM pages taken, the slot for an unused page gives a virtual page, at most that
    page itself. -/
theorem slot_le {swapId : Nat} (hinfo : (s.pagesInfo page).info = .none)
    (hfull : searchFreePageRam c s = none) (hslot : searchFreePageSwap c s = some swapId) :
    swapId + c.ramPages ≤ page := by
  have hpage : c.ramPages ≤ page :=
    Nat.le_of_not_lt fun hlt => searchFreePageRam_none hfull hlt hinfo
  -- Otherwise the page itself is an earlier slot.
  by_contra hlt
  refine (searchFreePageSwap_some hslot).2.2 (page - c.ramPages) (by omega) ?_
  rwa [Nat.sub_add_cancel hpage]

/-- With all RAM pages taken, there is a slot for an unused page. -/
theorem slot_isSome (hpage : page < c.swapPages) (hinfo : (s.pagesInfo page).info = .none)
    (hfull : searchFreePageRam c s = none) : (searchFreePageSwap c s).isSome := by
  have hle : c.ramPages ≤ page :=
    Nat.le_of_not_lt fun hlt => searchFreePageRam_none hfull hlt hinfo
  refine List.find?_isSome.mpr ⟨page - c.ramPages, List.mem_range.mpr (by omega), ?_⟩
  rw [Nat.sub_add_cancel hle]
  exact decide_eq_true hinfo

/-- The victim is found, unless all pages are unused. -/
theorem Coherent.victim_isSome (h : Coherent c s) (hused : (s.pagesInfo page).info ≠ .none) :
    (searchPageIdRam c s 0).isSome := by
  obtain ⟨victim, hvictim⟩ := h.anchored.resolve_left fun hall => hused (hall page)
  have hreal : (s.pagesInfo victim).idReal ≠ -1 := by
    rw [hvictim]
    decide
  have hlt := (h.of_idReal hreal).2
  exact List.find?_isSome.mpr
    ⟨victim, List.mem_range.mpr (by omega), decide_eq_true hvictim⟩

/-- With all RAM pages taken, the victim is found. -/
theorem Coherent.victim_isSome_of_full (h : Coherent c s) (hram : 1 ≤ c.ramPages)
    (hfull : searchFreePageRam c s = none) : (searchPageIdRam c s 0).isSome :=
  h.victim_isSome (searchFreePageRam_none hfull (show 0 < c.ramPages from hram))

/-- The handler returns from every fault on a page that is not on swap. -/
theorem handlePage_isSome (hram : 1 ≤ c.ramPages) (h : Coherent c s)
    (hpage : page < c.swapPages) (hinfo : (s.pagesInfo page).info ≠ .swap) :
    (handlePage c s page).isSome := by
  unfold handlePage
  cases hinfo' : (s.pagesInfo page).info with
  | none =>
    rw [Option.isSome_map]
    cases hfree : searchFreePageRam c s with
    | some pageId => exact mapFreePage_isSome ..
    | none =>
      obtain ⟨victim, hvictim⟩ :=
        Option.isSome_iff_exists.mp (h.victim_isSome_of_full hram hfree)
      obtain ⟨swapId, hslot⟩ := Option.isSome_iff_exists.mp (slot_isSome hpage hinfo' hfree)
      dsimp only
      rw [hvictim, hslot]
      exact swapData_isSome ..
  | ramRead => rfl
  | ramWrite => rfl
  | swap => exact absurd hinfo' hinfo

/-! ### The branches of the handler -/

/-- The protections after a swap. -/
theorem swap_prot {prot : Nat → Prot} {victim page : Nat} (p : Nat) :
    Function.update (Function.update (Function.update (Function.update
      prot victim .none) page .read) victim .none) page .read p =
        if p = page then .read else if p = victim then .none else prot p := by
  by_cases hp : p = page
  · rw [hp, Function.update_self, if_pos rfl]
  rw [Function.update_of_ne hp, if_neg hp]
  by_cases hpv : p = victim
  · rw [hpv, Function.update_self, if_pos rfl]
  · rw [Function.update_of_ne hpv, Function.update_of_ne hp, Function.update_of_ne hpv,
      if_neg hpv]

/-- The protections after a swap are those of the records. -/
theorem Coherent.swap_prot (h : Coherent c s) {victim page : Nat} (hne : page ≠ victim)
    (swapId : Int) (p : Nat) :
    (if p = page then .read else if p = victim then .none else s.prot p) =
      (swapRecords s.pagesInfo victim page swapId p).info.prot := by
  by_cases hp : p = page
  · rw [hp, if_pos rfl, swapRecords_page hne]
    rfl
  rw [if_neg hp]
  by_cases hpv : p = victim
  · rw [hpv, if_pos rfl, swapRecords_victim hne]
    rfl
  · rw [if_neg hpv, swapRecords_of_ne hp hpv, h.prot]

/-- After a swap the page has RAM page 0, and the victim none. -/
theorem Coherent.swapped {victim : Nat} {swapId : Int} (h : Coherent c s) (hne : page ≠ victim)
    (hid : (s.pagesInfo victim).idReal = 0) (hpage : page < c.swapPages)
    (hvictim : victim < c.swapPages)
    (hrecords : s'.pagesInfo = swapRecords s.pagesInfo victim page swapId)
    (hprot : ∀ p, s'.prot p =
      if p = page then .read else if p = victim then .none else s.prot p) :
    Coherent c s' ∧ (s'.pagesInfo page).idReal = 0 := by
  have hpageId : (s'.pagesInfo page).idReal = 0 := by rw [hrecords, swapRecords_page hne, hid]
  refine ⟨⟨fun p => ?_, fun p => ?_, fun p hp => ?_, Or.inr ⟨page, hpageId⟩⟩, hpageId⟩
  · rw [hrecords]
    exact swapRecords_coherent h.record hne (by rw [hid]; decide) p
  · rw [hrecords, hprot, h.swap_prot hne]
  · rw [hrecords, swapRecords_of_ne (by omega) (by omega)]
    exact h.unused p hp

/-- Changing the record and the protection of one page. -/
theorem Coherent.update (h : Coherent c s) {r : PageRecord} (hpage : page < c.swapPages)
    (hrecords : s'.pagesInfo = Function.update s.pagesInfo page r)
    (hprot : s'.prot = Function.update s.prot page r.info.prot) (hr : r.Coherent)
    (hanchored : ∃ p, (s'.pagesInfo p).idReal = 0) : Coherent c s' where
  record := by
    intro p
    rw [hrecords]
    by_cases hp : p = page
    · rw [hp, Function.update_self]
      exact hr
    · rw [Function.update_of_ne hp]
      exact h.record p
  prot := by
    intro p
    rw [hrecords, hprot]
    by_cases hp : p = page
    · rw [hp, Function.update_self, Function.update_self]
    · rw [Function.update_of_ne hp, Function.update_of_ne hp]
      exact h.prot p
  unused := by
    intro p hp
    rw [hrecords, Function.update_of_ne (by omega)]
    exact h.unused p hp
  anchored := Or.inr hanchored

/-- **One fault.**  A handler that returns leaves the records coherent, and some page has RAM
    page 0. -/
theorem serves_coherent (hpage : page < c.swapPages) (h : Coherent c s)
    (hserves : Serves c s page s') :
    Coherent c s' ∧ ∃ p, (s'.pagesInfo p).idReal = 0 := by
  cases hserves with
  | mapped pageId hinfo hfree hrecords hmapping hprot hramData hswapData =>
    have hanchored : ∃ p, (s'.pagesInfo p).idReal = 0 := by
      rcases h.anchored with hall | ⟨p, hp⟩
      · -- The first fault: page 0 of the RAM file is the first free one.
        have hfirst : pageId = 0 := by
          obtain ⟨-, -, hmin⟩ := List.find?_range_eq_some.mp hfree
          refine Nat.eq_zero_of_not_pos fun hpos => ?_
          have := hmin 0 hpos
          rw [decide_eq_true (hall 0)] at this
          exact Bool.noConfusion this
        exact ⟨page, by rw [hrecords, Function.update_self, hfirst]; rfl⟩
      · -- Later the page with RAM page 0 is resident, and not the one that comes in.
        have hne : p ≠ page := by
          rintro rfl
          have hres := (h.record p).resident_iff.mp (by rw [hp]; decide)
          rw [hinfo] at hres
          exact absurd hres (by decide)
        exact ⟨p, by rw [hrecords, Function.update_of_ne hne, hp]⟩
    refine ⟨h.update hpage hrecords hprot ?_ hanchored, hanchored⟩
    exact PageRecord.coherent_ramRead _ (by omega)
  | evicted victim swapId hinfo hfull hvictim hslot hrecords hmapping hprot hramData hswapData =>
    obtain ⟨-, hid, hvictimLt⟩ := h.victim hvictim
    have hle := slot_le hinfo hfull hslot
    have hne : swapId + c.ramPages ≠ victim :=
      h.ne_victim hvictim (Or.inl (searchFreePageSwap_some hslot).2.1)
    have hpageVictim : page ≠ victim := h.ne_victim hvictim (Or.inl hinfo)
    -- The page of the slot comes in; then the record of the faulting one is made clean.
    obtain ⟨hswapped, hslotId⟩ := @Coherent.swapped c s
      { s' with pagesInfo := swapRecords s.pagesInfo victim (swapId + c.ramPages) swapId }
      (swapId + c.ramPages) victim swapId h hne hid (by omega) hvictimLt rfl
      fun p => by rw [hprot, VirtualMemory.swap_prot]
    have hclean : (swapRecords s.pagesInfo victim (swapId + c.ramPages) swapId page).info
        ≠ .ramWrite := by
      by_cases hp : page = swapId + c.ramPages
      · rw [hp, swapRecords_page hne]
        exact Info.noConfusion
      · rw [swapRecords_of_ne hp hpageVictim, hinfo]
        exact Info.noConfusion
    have hanchored : ∃ p, (s'.pagesInfo p).idReal = 0 := by
      refine ⟨swapId + c.ramPages, ?_⟩
      rw [hrecords]
      by_cases hp : swapId + c.ramPages = page
      · rw [← hp, Function.update_self]
        exact hslotId
      · rw [Function.update_of_ne hp]
        exact hslotId
    refine ⟨hswapped.update hpage hrecords ?_ ((hswapped.record page).clean hclean) hanchored,
      hanchored⟩
    exact (Function.update_eq_self_iff.mpr (hswapped.prot page).symm).symm
  | writable hinfo hrecords hmapping hprot hram hswap =>
    -- `dirty` and the right to write come together, and no number of a page changes.
    have hres : (s.pagesInfo page).info.Resident := Or.inl hinfo
    obtain ⟨q, hq⟩ := h.anchored.resolve_left fun hall =>
      Info.noConfusion (hinfo.symm.trans (hall page))
    have hanchored : ∃ p, (s'.pagesInfo p).idReal = 0 := by
      refine ⟨q, ?_⟩
      rw [hrecords]
      by_cases hqp : q = page
      · rw [hqp, Function.update_self, ← hqp]
        exact hq
      · rw [Function.update_of_ne hqp]
        exact hq
    refine ⟨h.update hpage hrecords hprot ?_ hanchored, hanchored⟩
    exact ⟨iff_of_true ((h.record page).resident_iff.mpr hres) (Or.inr rfl),
      (h.record page).exclusive, fun _ => iff_of_true rfl rfl⟩
  | kept hinfo hs' =>
    subst hs'
    exact ⟨h, h.anchored.resolve_left fun hall =>
      Info.noConfusion (hinfo.symm.trans (hall page))⟩
  | readmitted victim swapId ramId hinfo hvictim hswapId hramId hrecords hmapping hprot hramData
      hswapData =>
    obtain ⟨-, hid, hvictimLt⟩ := h.victim hvictim
    have hne : page ≠ victim := h.ne_victim hvictim (Or.inr hinfo)
    -- The page that comes back inherits RAM page 0 from the victim.
    obtain ⟨hswapped, hpageId⟩ := h.swapped hne hid hpage hvictimLt hrecords
      fun p => by rw [hprot, VirtualMemory.swap_prot]
    exact ⟨hswapped, page, hpageId⟩

/-! ### Runs -/

/-- A fault inside the virtual pages that was served. -/
theorem fault_serves {offset : Nat} (h : fault c s offset = some s') :
    offset / c.pageSize < c.swapPages ∧ Serves c s (offset / c.pageSize) s' := by
  by_cases hlt : offset < c.swapPages * c.pageSize
  · rw [fault_eq hlt] at h
    exact ⟨(Nat.div_lt_iff_lt_mul c.pageSize_pos).mpr hlt, handlePage_serves h⟩
  · rw [fault, if_neg hlt] at h
    cases h

theorem fault_coherent {offset : Nat} (h : Coherent c s) (hfault : fault c s offset = some s') :
    Coherent c s' ∧ ∃ p, (s'.pagesInfo p).idReal = 0 :=
  serves_coherent (fault_serves hfault).1 h (fault_serves hfault).2

/-- **The records stay coherent.**  After any sequence of faults on virtual pages whose
    handlers return: every record is coherent and its page has the protection for it; once a
    fault has been served some virtual page has RAM page 0; and where a page needs a swap, the
    victim and the slot are found. -/
theorem run_coherent (hram : 1 ≤ c.ramPages) (junk1 junk2 : Page) (offsets : List Nat)
    (h : run (fault c) (vinit c junk1 junk2) offsets = some s) :
    (∀ page, (s.pagesInfo page).Coherent ∧ s.prot page = (s.pagesInfo page).info.prot) ∧
    (offsets ≠ [] → ∃ page < c.swapPages, (s.pagesInfo page).idReal = 0) ∧
    (∀ page < c.swapPages, (s.pagesInfo page).info = .none → searchFreePageRam c s = none →
      (searchPageIdRam c s 0).isSome ∧ (searchFreePageSwap c s).isSome) ∧
    (∀ page, (s.pagesInfo page).info = .swap → (searchPageIdRam c s 0).isSome) := by
  have hcoherent : Coherent c s :=
    run_invariant (I := Coherent c) (fun _ _ _ ht hstep => (fault_coherent ht hstep).1)
      (vinit_coherent junk1 junk2) h
  refine ⟨fun page => ⟨hcoherent.record page, hcoherent.prot page⟩, fun hne => ?_,
    fun page hpage hinfo hfull =>
      ⟨hcoherent.victim_isSome_of_full hram hfull, slot_isSome hpage hinfo hfull⟩,
    fun page hinfo =>
      hcoherent.victim_isSome (show (s.pagesInfo page).info ≠ .none by rw [hinfo]; decide)⟩
  cases offsets with
  | nil => exact absurd rfl hne
  | cons offset offsets =>
    obtain ⟨t, ht, h⟩ := run_cons_eq_some.mp h
    obtain ⟨-, q, hq⟩ : Coherent c s ∧ ∃ p, (s.pagesInfo p).idReal = 0 :=
      run_invariant (I := fun t => Coherent c t ∧ ∃ p, (t.pagesInfo p).idReal = 0)
        (fun _ _ _ ht hstep => fault_coherent ht.1 hstep)
        (fault_coherent (vinit_coherent junk1 junk2) ht) h
    exact ⟨q, (hcoherent.of_idReal (by rw [hq]; decide)).2, hq⟩

/-- One page of memory for two virtual pages: the first fault, and one that needs a swap. -/
theorem run_coherent_swap : ∃ (c : Config) (s : State),
    run (fault c) (vinit c zeroPage zeroPage) [0, 1] = some s ∧
    (∃ page < c.swapPages, (s.pagesInfo page).idReal = 0) ∧
    (s.pagesInfo 0).Coherent ∧ (s.pagesInfo 0).info = .swap := by
  refine ⟨⟨1, 1, 2, by decide, by unfold Accepted; decide⟩, _, rfl, ?_, ?_, rfl⟩
  · exact (run_coherent (c := ⟨1, 1, 2, by decide, by unfold Accepted; decide⟩) (by decide)
      zeroPage zeroPage [0, 1] rfl).2.1 (by decide)
  · exact ((run_coherent (c := ⟨1, 1, 2, by decide, by unfold Accepted; decide⟩) (by decide)
      zeroPage zeroPage [0, 1] rfl).1 0).1

end WorkAtUPB.VirtualMemory
