import WorkAtUPB.VirtualMemory.Records

namespace WorkAtUPB.VirtualMemory

open WorkAtUPB.Run

/-!
# VirtualMemoryLinux — pages and frames

The handler takes the first unused *virtual* page for a free RAM page, and `swap_data` maps
the victim onto the swap page `swap_id + __ram_pages` while it records `swap_id`.  So records
and mappings agree only as long as neither matters:

* `FramesOk` — resident pages have RAM pages of their own and pages on swap have swap pages of
  their own, onto which they are mapped;
* `TakesFreeFrame` — the fault is on a resident page, or on an unused one for which a RAM page
  is found that no page has;
* `always_framesOk_iff` — `FramesOk` holds all along a run exactly when every fault is one of
  these.
-/

variable {c : Config} {s s' : State}

/-- Every resident page has a RAM page of its own and is mapped onto it; every page on swap
    has a swap page of its own and is mapped onto it. -/
structure FramesOk (c : Config) (s : State) : Prop where
  resident : ∀ p, (s.pagesInfo p).info.Resident →
    ∃ k < c.ramPages, (s.pagesInfo p).idReal = (k : Int) ∧ s.mapping p = some (.ram, k)
  resident_inj : ∀ p q, (s.pagesInfo p).info.Resident → (s.pagesInfo q).info.Resident →
    (s.pagesInfo p).idReal = (s.pagesInfo q).idReal → p = q
  swap : ∀ p, (s.pagesInfo p).info = .swap →
    ∃ k < c.swapPages, (s.pagesInfo p).idSwap = (k : Int) ∧ s.mapping p = some (.swap, k)
  swap_inj : ∀ p q, (s.pagesInfo p).info = .swap → (s.pagesInfo q).info = .swap →
    (s.pagesInfo p).idSwap = (s.pagesInfo q).idSwap → p = q

/-- A fault inside the virtual pages is on a resident page, or on an unused page while the
    search finds a RAM page that no virtual page has. -/
def TakesFreeFrame (c : Config) (s : State) (offset : Nat) : Prop :=
  offset < c.swapPages * c.pageSize →
    (s.pagesInfo (offset / c.pageSize)).info.Resident ∨
      (s.pagesInfo (offset / c.pageSize)).info = .none ∧
        ∃ k ∈ searchFreePageRam c s, ∀ q < c.swapPages, (s.pagesInfo q).idReal ≠ (k : Int)

instance (c : Config) (s : State) (offset : Nat) : Decidable (TakesFreeFrame c s offset) := by
  unfold TakesFreeFrame
  infer_instance

/-- No page is on swap. -/
def NoSwap (s : State) : Prop := ∀ p, (s.pagesInfo p).info ≠ .swap

theorem vinit_framesOk (junk1 junk2 : Page) : FramesOk c (vinit c junk1 junk2) where
  resident := fun _ h => absurd h (show ¬ Info.Resident .none by decide)
  resident_inj := fun _ _ h => absurd h (show ¬ Info.Resident .none by decide)
  swap := nofun
  swap_inj := nofun

/-! ### One fault -/

/-- An eviction breaks the invariant: the victim is mapped past the swap page it records. -/
theorem evicted_not_framesOk {victim page swapId : Nat} (hram : 1 ≤ c.ramPages)
    (hne : swapId + c.ramPages ≠ victim) (hpage : page ≠ victim)
    (hrecords : s'.pagesInfo = Function.update
      (swapRecords s.pagesInfo victim (swapId + c.ramPages) swapId) page
      { swapRecords s.pagesInfo victim (swapId + c.ramPages) swapId page with dirty := false })
    (hmapping : s'.mapping = Function.update
      (Function.update s.mapping victim (some (.swap, swapId + c.ramPages)))
      (swapId + c.ramPages) (some (.ram, victim))) : ¬ FramesOk c s' := by
  intro h
  have hrecord : s'.pagesInfo victim =
      swapRecords s.pagesInfo victim (swapId + c.ramPages) swapId victim := by
    rw [hrecords, Function.update_of_ne hpage.symm]
  rw [swapRecords_victim hne] at hrecord
  obtain ⟨k, -, hid, hmap⟩ := h.swap victim (by rw [hrecord])
  rw [hmapping, Function.update_of_ne hne.symm, Function.update_self, Option.some.injEq,
    Prod.mk.injEq] at hmap
  rw [hrecord] at hid
  have hk : k = swapId + c.ramPages := hmap.2.symm
  -- The record has -1 or swapId, and `1 ≤ c.ramPages` keeps either from being k.
  dsimp only at hid
  split at hid <;> omega

/-- Taking a RAM page keeps the invariant exactly when no other page has it. -/
theorem mapped_framesOk_iff {page pageId : Nat} (hcoherent : Coherent c s) (h : FramesOk c s)
    (hinfo : (s.pagesInfo page).info = .none) (hpageId : pageId < c.ramPages)
    (hrecords : s'.pagesInfo = Function.update s.pagesInfo page { s.pagesInfo page with
      idReal := pageId, idSwap := -1, info := .ramRead, dirty := false })
    (hmapping : s'.mapping = Function.update s.mapping page (some (.ram, pageId))) :
    FramesOk c s' ↔ ∀ q < c.swapPages, (s.pagesInfo q).idReal ≠ (pageId : Int) := by
  have hself : (s'.pagesInfo page).idReal = pageId ∧ (s'.pagesInfo page).info = .ramRead := by
    rw [hrecords, Function.update_self]
    exact ⟨rfl, rfl⟩
  have hother : ∀ p, p ≠ page → s'.pagesInfo p = s.pagesInfo p := fun p hp => by
    rw [hrecords, Function.update_of_ne hp]
  have hotherMap : ∀ p, p ≠ page → s'.mapping p = s.mapping p := fun p hp => by
    rw [hmapping, Function.update_of_ne hp]
  have hunused : (s.pagesInfo page).idReal = -1 :=
    (hcoherent.record page).not_resident.mpr (by rw [hinfo]; decide)
  constructor
  · -- A page that has the frame shares it with the new one.
    intro h' q _ hq
    have hqp : q ≠ page := by
      rintro rfl
      rw [hunused] at hq
      omega
    have hreal : (s.pagesInfo q).idReal ≠ -1 := by
      rw [hq]
      omega
    have hres := (hcoherent.of_idReal hreal).1
    refine hqp (h'.resident_inj q page ?_ (Or.inl hself.2) ?_)
    · rw [hother q hqp]
      exact hres
    · rw [hother q hqp, hq, hself.1]
  · intro hfree
    have hnew : ∀ p, p ≠ page → (s'.pagesInfo p).info.Resident →
        (s'.pagesInfo p).idReal ≠ pageId := by
      intro p hp hres
      rw [hother p hp] at hres ⊢
      obtain ⟨k, hk, hid, -⟩ := h.resident p hres
      exact hfree p (hcoherent.of_idReal (by rw [hid]; omega)).2
    refine ⟨fun p hres => ?_, fun p q hp hq heq => ?_, fun p hswap => ?_, fun p q hp hq heq => ?_⟩
    · by_cases hpp : p = page
      · rw [hpp]
        exact ⟨pageId, hpageId, hself.1, by rw [hmapping, Function.update_self]⟩
      · rw [hother p hpp] at hres ⊢
        rw [hotherMap p hpp]
        exact h.resident p hres
    · -- Only the pairs with the new page are new.
      by_cases hpp : p = page <;> by_cases hqp : q = page
      · rw [hpp, hqp]
      · rw [hpp, hself.1] at heq
        exact absurd heq.symm (hnew q hqp hq)
      · rw [hqp, hself.1] at heq
        exact absurd heq (hnew p hpp hp)
      · rw [hother p hpp] at hp heq
        rw [hother q hqp] at hq heq
        exact h.resident_inj p q hp hq heq
    · have hpp : p ≠ page := by
        rintro rfl
        exact Info.noConfusion (hself.2.symm.trans hswap)
      rw [hother p hpp] at hswap ⊢
      rw [hotherMap p hpp]
      exact h.swap p hswap
    · have hpp : p ≠ page := by
        rintro rfl
        exact Info.noConfusion (hself.2.symm.trans hp)
      have hqp : q ≠ page := by
        rintro rfl
        exact Info.noConfusion (hself.2.symm.trans hq)
      rw [hother p hpp] at hp heq
      rw [hother q hqp] at hq heq
      exact h.swap_inj p q hp hq heq

/-- Giving a readable page the right to write keeps the invariant. -/
theorem writable_framesOk {page : Nat} (h : FramesOk c s)
    (hinfo : (s.pagesInfo page).info = .ramRead)
    (hrecords : s'.pagesInfo = Function.update s.pagesInfo page
      { s.pagesInfo page with info := .ramWrite, dirty := true })
    (hmapping : s'.mapping = s.mapping) : FramesOk c s' := by
  -- The page keeps its numbers and stays resident, the other pages keep everything.
  have hsame : ∀ p, (s'.pagesInfo p).idReal = (s.pagesInfo p).idReal ∧
      (s'.pagesInfo p).idSwap = (s.pagesInfo p).idSwap ∧
      ((s'.pagesInfo p).info.Resident → (s.pagesInfo p).info.Resident) ∧
      ((s'.pagesInfo p).info = .swap → (s.pagesInfo p).info = .swap) := by
    intro p
    rw [hrecords]
    by_cases hp : p = page
    · rw [hp, Function.update_self]
      exact ⟨rfl, rfl, fun _ => Or.inl hinfo, nofun⟩
    · rw [Function.update_of_ne hp]
      exact ⟨rfl, rfl, id, id⟩
  refine ⟨fun p hp => ?_, fun p q hp hq heq => ?_, fun p hp => ?_, fun p q hp hq heq => ?_⟩
  · rw [hmapping, (hsame p).1]
    exact h.resident p ((hsame p).2.2.1 hp)
  · rw [(hsame p).1, (hsame q).1] at heq
    exact h.resident_inj p q ((hsame p).2.2.1 hp) ((hsame q).2.2.1 hq) heq
  · rw [hmapping, (hsame p).2.1]
    exact h.swap p ((hsame p).2.2.2 hp)
  · rw [(hsame p).2.1, (hsame q).2.1] at heq
    exact h.swap_inj p q ((hsame p).2.2.2 hp) ((hsame q).2.2.2 hq) heq

/-- Nothing comes to swap by a new record for a page that is not there. -/
theorem NoSwap.update {page : Nat} {record : PageRecord} (h : NoSwap s)
    (hrecords : s'.pagesInfo = Function.update s.pagesInfo page record)
    (hrecord : record.info ≠ .swap) : NoSwap s' := by
  intro p
  rw [hrecords]
  by_cases hp : p = page
  · rw [hp, Function.update_self]
    exact hrecord
  · rw [Function.update_of_ne hp]
    exact h p

/-- **One fault.**  From a state in which all is well and nothing is on swap, a fault keeps it
    so exactly when it takes a free frame; and then still nothing is on swap. -/
theorem fault_framesOk_iff {offset : Nat} (hram : 1 ≤ c.ramPages) (hcoherent : Coherent c s)
    (hnoSwap : NoSwap s) (h : FramesOk c s) (hfault : fault c s offset = some s') :
    (FramesOk c s' ↔ TakesFreeFrame c s offset) ∧ (FramesOk c s' → NoSwap s') := by
  obtain ⟨hlt, hserves⟩ := fault_serves hfault
  have hoffset : offset < c.swapPages * c.pageSize :=
    (Nat.div_lt_iff_lt_mul c.pageSize_pos).mp hlt
  cases hserves with
  | mapped pageId hinfo hfree hrecords hmapping _ _ _ =>
    have hiff := mapped_framesOk_iff hcoherent h hinfo (searchFreePageRam_some hfree).1
      hrecords hmapping
    refine ⟨hiff.trans ⟨fun hall _ => Or.inr ⟨hinfo, pageId, hfree, hall⟩, fun htakes => ?_⟩,
      fun _ => hnoSwap.update hrecords Info.noConfusion⟩
    rcases htakes hoffset with hres | ⟨-, k, hk, hall⟩
    · rw [hinfo] at hres
      exact absurd hres (by decide)
    · cases hfree.symm.trans hk
      exact hall
  | evicted victim swapId hinfo hfull hvictim hslot hrecords hmapping _ _ _ =>
    -- No free frame, and an eviction never keeps the invariant: both sides are false.
    have hnot := evicted_not_framesOk hram
      (hcoherent.ne_victim hvictim (Or.inl (searchFreePageSwap_some hslot).2.1))
      (hcoherent.ne_victim hvictim (Or.inl hinfo)) hrecords hmapping
    refine ⟨iff_of_false hnot fun htakes => ?_, fun h' => absurd h' hnot⟩
    rcases htakes hoffset with hres' | ⟨-, k, hk, -⟩
    · rw [hinfo] at hres'
      exact absurd hres' (by decide)
    · cases hfull.symm.trans hk
  | writable hinfo hrecords hmapping _ _ _ =>
    exact ⟨iff_of_true (writable_framesOk h hinfo hrecords hmapping)
      fun _ => Or.inl (Or.inl hinfo), fun _ => hnoSwap.update hrecords Info.noConfusion⟩
  | kept hinfo hs' =>
    subst hs'
    exact ⟨iff_of_true h fun _ => Or.inl (Or.inr hinfo), fun _ => hnoSwap⟩
  -- A page can only come back from swap after an eviction.
  | readmitted _ _ _ hinfo => exact absurd hinfo (hnoSwap _)

/-! ### Runs -/

/-- **When pages and frames agree.**  Along a run of faults on virtual pages, every resident
    page is mapped onto its own RAM page and every page on swap onto its own swap page,
    exactly when every fault is on a resident page, or on an unused one while the search finds
    a RAM page that no page has. -/
theorem always_framesOk_iff (hram : 1 ≤ c.ramPages) (junk1 junk2 : Page) (offsets : List Nat) :
    Always (fault c) (FramesOk c) (vinit c junk1 junk2) offsets ↔
      EachStep (fault c) (TakesFreeFrame c) (vinit c junk1 junk2) offsets := by
  refine always_iff_eachStep (J := fun s => Coherent c s ∧ NoSwap s) ?_ ?_ ?_
    ⟨vinit_coherent junk1 junk2, fun _ => Info.noConfusion⟩ (vinit_framesOk junk1 junk2)
  · intro s offset s' ⟨hcoherent, hnoSwap⟩ h hfault h'
    exact ⟨(fault_coherent hcoherent hfault).1,
      (fault_framesOk_iff hram hcoherent hnoSwap h hfault).2 h'⟩
  · intro s offset s' ⟨hcoherent, hnoSwap⟩ h hfault
    exact (fault_framesOk_iff hram hcoherent hnoSwap h hfault).1
  · -- With nothing on swap, the handler returns from every fault.
    intro s offset ⟨hcoherent, hnoSwap⟩ _ hfault hoffset
    have hpage := (Nat.div_lt_iff_lt_mul c.pageSize_pos).mpr hoffset
    have hsome := handlePage_isSome hram hcoherent hpage (hnoSwap _)
    rw [← fault_eq hoffset, hfault] at hsome
    cases hsome

/-- Two virtual pages and two RAM pages, first used in order. -/
theorem always_framesOk_ascending : ∃ c : Config, c.ramPages = 2 ∧
    Always (fault c) (FramesOk c) (vinit c zeroPage zeroPage) [0, 1, 1, 0] :=
  ⟨⟨1, 2, 2, by decide, by unfold Accepted; decide⟩, rfl,
    (always_framesOk_iff (by decide) zeroPage zeroPage [0, 1, 1, 0]).mpr (by decide)⟩

/-- **Two pages in one frame.**  With two virtual pages and one RAM page, a fault on page 1 and
    then one on page 0 give both of them RAM page 0. -/
theorem not_framesOk : ¬ ∀ c : Config, 1 ≤ c.ramPages → ∀ junk1 junk2 offsets s,
    run (fault c) (vinit c junk1 junk2) offsets = some s → FramesOk c s := by
  intro h
  have hok := h ⟨1, 1, 2, by decide, by unfold Accepted; decide⟩ (by decide) zeroPage zeroPage
    [1, 0] _ rfl
  exact absurd (hok.resident_inj 0 1 (Or.inl rfl) (Or.inl rfl) rfl) (by decide)

end WorkAtUPB.VirtualMemory
