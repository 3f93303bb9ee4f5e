import WorkAtUPB.VirtualMemory.Records

namespace WorkAtUPB.VirtualMemory

open Bytes

/-!
# VirtualMemoryLinux — faults of other memory

`sigsegv_handler` gets every fault of the process, and is to pass on those outside of the pages
that `vinit` returned:

* `InRegion` — the bytes of the virtual pages;
* `PassesOn` — outside of them nothing changes, and the old action is called;
* `ReachesRecord` — the number of the page, rounded toward zero and as an `int`, is that of a
  record;
* `passesOn_iff` — a fault outside is passed on exactly if it does not reach a record;
* `reachesRecord_iff` — near the region these are the faults less than a page in front of it, and
  those up to as many pages behind it as there are RAM pages.
-/

variable (c : Config)

/-- The offsets from `__virt_mem` of the bytes of the virtual pages. -/
def InRegion (offset : Int) : Prop := 0 ≤ offset ∧ offset < c.swapPages * c.pageSize

/-- Only a fault in the region changes the records, a file or a mapping, and every other one is
    passed on. -/
structure PassesOn (s : State) (offset : Int) : Prop where
  changes : ∀ s' called, sigsegvHandler c s SIGSEGV offset = some (s', called) →
    s'.pagesInfo ≠ s.pagesInfo ∨ s'.ram ≠ s.ram ∨ s'.swap ≠ s.swap ∨ s'.mapping ≠ s.mapping →
      InRegion c offset
  foreign : ¬ InRegion c offset → sigsegvHandler c s SIGSEGV offset = some (s, true)

/-- The quotient by the size of a page, rounded toward zero, is the number of a record modulo
    `2 ^ 32`. -/
def ReachesRecord (offset : Int) : Prop :=
  ∃ k : Int, 0 ≤ offset.tdiv c.pageSize - k * 4294967296 ∧
    offset.tdiv c.pageSize - k * 4294967296 < c.ramPages + c.swapPages

variable {c}

theorem Config.records_le (c : Config) : c.ramPages + c.swapPages ≤ 100 := by
  have hswap : c.swapPages ≤ 50 := c.swapPages_le
  have hram : c.ramPages ≤ c.swapPages :=
    Nat.le_of_not_lt fun h => c.accepted (Or.inr (Or.inr h))
  omega

/-- The conversion to `int` looks at the quotient modulo `2 ^ 32`. -/
theorem reachesRecord_iff_toInt {offset : Int} : ReachesRecord c offset ↔
    0 ≤ toInt (offset.tdiv c.pageSize) ∧
      toInt (offset.tdiv c.pageSize) < c.ramPages + c.swapPages := by
  have hmax := c.records_le
  unfold ReachesRecord
  rw [toInt_eq]
  generalize offset.tdiv c.pageSize = q
  constructor
  · rintro ⟨k, hlo, hhi⟩
    omega
  · rintro ⟨hlo, hhi⟩
    exact ⟨(q + 2147483648) / 4294967296, by omega, by omega⟩

/-- A fault that reaches a record is served, whatever its address. -/
theorem sigsegvHandler_of_reaches {s : State} {offset : Int} (h : ReachesRecord c offset) :
    sigsegvHandler c s SIGSEGV offset =
      (handlePage c s (toInt (offset.tdiv c.pageSize)).toNat).map fun s => (s, false) := by
  obtain ⟨hlo, hhi⟩ := reachesRecord_iff_toInt.mp h
  rw [sigsegvHandler, if_neg (not_not.mpr rfl)]
  dsimp only
  rw [if_neg (by omega)]

theorem sigsegvHandler_of_not_reaches {s : State} {offset : Int} (h : ¬ ReachesRecord c offset) :
    sigsegvHandler c s SIGSEGV offset = some (s, true) := by
  rw [reachesRecord_iff_toInt] at h
  rw [sigsegvHandler, if_neg (not_not.mpr rfl)]
  dsimp only
  rw [if_pos (by omega)]

/-- A fault that reaches a record is not passed on. -/
theorem sigsegvHandler_ne_of_reaches {s : State} {offset : Int} (h : ReachesRecord c offset) :
    sigsegvHandler c s SIGSEGV offset ≠ some (s, true) := by
  rw [sigsegvHandler_of_reaches h]
  intro hpassed
  obtain ⟨t, -, ht⟩ := Option.map_eq_some_iff.mp hpassed
  cases ht

/-- Near the region: the quotient is the number of a record less than a page in front of it, up to
    the last record. -/
theorem reachesRecord_iff (hswap : 0 < c.swapPages) {offset : Int}
    (hnear : IsInt (offset.tdiv c.pageSize)) :
    ReachesRecord c offset ↔
      -(c.pageSize : Int) < offset ∧ offset < (c.ramPages + c.swapPages : Nat) * c.pageSize := by
  rw [reachesRecord_iff_toInt, toInt_of_isInt hnear]
  rcases Int.lt_or_le offset 0 with hneg | hnonneg
  -- Rounding toward zero takes less than a page in front of the region to page 0.
  · obtain ⟨n, rfl⟩ : ∃ n : Nat, offset = -n := ⟨offset.natAbs, by omega⟩
    have hdiv : n / c.pageSize = 0 ↔ n < c.pageSize := Nat.div_eq_zero_iff_lt c.pageSize_pos
    have hmul : (0 : Int) ≤ (c.ramPages + c.swapPages : Nat) * c.pageSize :=
      Int.mul_nonneg (Int.natCast_nonneg _) (Int.natCast_nonneg _)
    rw [Int.neg_tdiv, ← Int.ofNat_tdiv]
    generalize n / c.pageSize = q at hdiv ⊢
    omega
  · obtain ⟨n, rfl⟩ := Int.eq_ofNat_of_zero_le hnonneg
    have hdiv : n / c.pageSize < c.ramPages + c.swapPages ↔
        n < (c.ramPages + c.swapPages) * c.pageSize := Nat.div_lt_iff_lt_mul c.pageSize_pos
    rw [← Int.ofNat_tdiv, ← Int.natCast_mul]
    have hpos := c.pageSize_pos
    generalize n / c.pageSize = q at hdiv ⊢
    generalize (c.ramPages + c.swapPages) * c.pageSize = size at hdiv ⊢
    omega

/-- **Foreign faults.**  In any state, a fault at any address is handled as it should exactly if
    the address is in the region or does not reach a record. -/
theorem passesOn_iff (c : Config) (s : State) (offset : Int) :
    PassesOn c s offset ↔ InRegion c offset ∨ ¬ ReachesRecord c offset := by
  constructor
  · intro h
    by_cases hin : InRegion c offset
    · exact Or.inl hin
    · exact Or.inr fun hreaches => sigsegvHandler_ne_of_reaches hreaches (h.foreign hin)
  · rintro (hin | hnot)
    · exact ⟨fun _ _ _ _ => hin, fun hout => absurd hin hout⟩
    · have hpassed := @sigsegvHandler_of_not_reaches c s offset hnot
      refine ⟨fun s' called h hchanged => ?_, fun _ => hpassed⟩
      rw [hpassed, Option.some.injEq, Prod.mk.injEq] at h
      rw [← h.1] at hchanged
      simp at hchanged

/-- **A byte in front of the region.**  After `vinit` a fault there maps page 0, and the old action
    is not called. -/
theorem not_passesOn : ∃ c : Config, ∃ s',
    sigsegvHandler c (vinit c zeroPage zeroPage) SIGSEGV (-1) = some (s', false) ∧
    ¬ InRegion c (-1) ∧ s'.mapping 0 = some (.ram, 0) ∧
    ¬ PassesOn c (vinit c zeroPage zeroPage) (-1) := by
  refine ⟨⟨4096, 1, 2, by decide, by unfold Accepted; decide⟩, _, rfl, fun h => ?_, rfl,
    fun h => ?_⟩
  · exact absurd h.1 (by decide)
  · have hpassed := h.foreign fun hin => absurd hin.1 (by decide)
    have hserved := congrArg (Option.map Prod.snd) hpassed
    cases hserved

end WorkAtUPB.VirtualMemory
