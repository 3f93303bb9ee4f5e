import WorkAtUPB.SimpleRAID.Consistency
import WorkAtUPB.SimpleRAID.Crc32

namespace WorkAtUPB.SimpleRAID

open Bytes Mirroring Crc

/-!
# Damaged disks

The driver with its own CRC, while requests and damage to the disks come in any order.  Damage
changes the data of a sector on one disk within 32 consecutive bits, or its CRC slot:

* `Damaged`, `DamagedAt` — what damage does to a disk;
* `History` — requests and damage so far, and the sectors damaged since they were last addressed;
* `History.repairable` — every sector written can be repaired as long as no sector is damaged
  twice in between;
* `damage_repaired` — so every read of it succeeds and leaves both disks in order.
-/

/-! ### Damage -/

/-- Damage to what a disk keeps of a sector. -/
inductive Damaged (disk disk' : Mem) (s : SectorId) : Prop where
  | data (burst : Burst 32 (bits (sectorData disk s)) (bits (sectorData disk' s)))
      (slot : crcSlot disk' s = crcSlot disk s)
  | slot (data : sectorData disk' s = sectorData disk s)

/-- Damage to the copy of `s` on disk `k`, and to no other copy of a sector. -/
structure DamagedAt (disks disks' : Fin 2 → Mem) (k : Fin 2) (s : SectorId) : Prop where
  damaged : Damaged (disks k) (disks' k) s
  other : ∀ l t, l ≠ k ∨ t ≠ s →
    sectorData (disks' l) t = sectorData (disks l) t ∧ crcSlot (disks' l) t = crcSlot (disks l) t

/-- A driver that started as `d`: the requests so far, and the sectors that have been damaged since
    a request addressed them last. -/
inductive History (d : Driver) : List Request → Set SectorId → Driver → Prop where
  | start : History d [] ∅ d
  | request {rs : List Request} {damaged : Set SectorId} {e : Driver} (r : Request)
      (before : History d rs damaged e) :
      History d (rs ++ [r]) (damaged \ {r.sector}) (serve crcOf e r)
  | damage {rs : List Request} {damaged : Set SectorId} {e : Driver} {disks : Fin 2 → Mem}
      {k : Fin 2} {s : SectorId} (before : History d rs damaged e) (fresh : s ∉ damaged)
      (at_copy : DamagedAt e.physicalDevice disks k s) :
      History d rs (insert s damaged) { e with physicalDevice := disks }

/-- A damaged copy does not pass for one in order, unless its data is right. -/
theorem Damaged.valid {disk disk' : Mem} {s : SectorId} {b : List UInt8}
    (h : Damaged disk disk' s) (hdata : sectorData disk s = b)
    (hslot : crcSlot disk s = crcOf 0 b) (hvalid : crcSlot disk' s = crcOf 0 (sectorData disk' s)) :
    sectorData disk' s = b := by
  cases h with
  | data burst slot =>
    have hcrc : crc32 0 (sectorData disk s) = crc32 0 (sectorData disk' s) := by
      rw [← crcOf_eq, ← crcOf_eq, ← hvalid, slot, hslot, hdata]
    exact absurd hcrc (crc32_ne_of_burst burst 0)
  | slot data => exact data.trans hdata

/-- One damaged copy of a sector on which the disks agree can be repaired. -/
theorem DamagedAt.repairable {disks disks' : Fin 2 → Mem} {k : Fin 2} {s : SectorId}
    {b : List UInt8} (h : DamagedAt disks disks' k s)
    (hsync : Synced (crcOf 0) (mirrorOf disks) s b) :
    Repairable (crcOf 0) (mirrorOf disks') s b := by
  have hother : ∀ l ≠ k, sectorData (disks' l) s = b ∧ crcSlot (disks' l) s = crcOf 0 b := by
    intro l hl
    obtain ⟨hdata, hslot⟩ := h.other l s (Or.inl hl)
    exact ⟨hdata.trans (hsync l).1, hslot.trans (hsync l).2⟩
  constructor
  · -- The copy on the other disk is in order.
    obtain ⟨l, hl⟩ : ∃ l : Fin 2, l ≠ k := ⟨k + 1, by omega⟩
    obtain ⟨hdata, hslot⟩ := hother l hl
    exact ⟨l, hslot.trans (congrArg (crcOf 0) hdata.symm)⟩
  · intro l hvalid
    by_cases hl : l = k
    · subst hl
      exact h.damaged.valid (hsync l).1 (hsync l).2 hvalid
    · exact (hother l hl).1

theorem DamagedAt.sameAt {disks disks' : Fin 2 → Mem} {k : Fin 2} {s t : SectorId}
    (h : DamagedAt disks disks' k s) (ht : t ≠ s) : SameAt (mirrorOf disks) (mirrorOf disks') t :=
  fun l => h.other l t (Or.inr ht)

/-- Other data in a sector, within a burst of the old ones, is damage to that sector. -/
theorem DamagedAt.overwritten (disks : Fin 2 → Mem) (k : Fin 2) (s : SectorId) {bs : List UInt8}
    (hbs : bs.length = kernelSectorSize)
    (hburst : Burst 32 (bits (sectorData (disks k) s)) (bits bs)) :
    DamagedAt disks (Function.update disks k (writeBytes (disks k) (sectorOffset s) bs)) k s := by
  have hmir := mirrorOf_update_sector disks k s hbs
  have hcopy := congrFun hmir k
  simp only [Transfer.apply, Function.update_self, mirrorOf, Replica.mk.injEq] at hcopy
  obtain ⟨hdata, hslot⟩ := hcopy
  constructor
  · refine .data ?_ ?_
    · rw [Function.update_self, congrFun hdata s, Function.update_self]
      exact hburst
    · rw [Function.update_self, congrFun hslot s]
  · intro l t hlt
    by_cases hl : l = k
    · subst hl
      have ht : t ≠ s := hlt.resolve_left fun h => h rfl
      rw [Function.update_self, congrFun hdata t, congrFun hslot t, Function.update_of_ne ht]
      exact ⟨rfl, rfl⟩
    · rw [Function.update_of_ne hl]
      exact ⟨rfl, rfl⟩

/-- A damaged first byte is a burst. -/
theorem burst_head {x y : UInt8} (hxy : byteBits x ≠ byteBits y) (buf : List UInt8) :
    Burst 32 (bits (x :: buf)) (bits (y :: buf)) := by
  have hcons : ∀ b, bits (b :: buf) = byteBits b ++ bits buf := fun _ => List.flatMap_cons
  rw [hcons, hcons]
  refine ⟨by simp, fun h => hxy (List.append_inj_left h rfl), 0, fun i hi => ⟨Nat.zero_le i, ?_⟩⟩
  by_contra hge
  refine hi ?_
  rw [List.getElem?_append_right (by rw [length_byteBits]; omega),
    List.getElem?_append_right (by rw [length_byteBits]; omega), length_byteBits, length_byteBits]

/-! ### Requests and damage -/

/-- A read of a sector that can be repaired leaves both disks with its data. -/
theorem serve_read_repairable {d : Driver} (hall : AllSucceed d) {s : SectorId} {b : List UInt8}
    (hrep : Repairable (crcOf 0) d.mirror s b) (buffer : Sector) :
    Synced (crcOf 0) (serve crcOf d (.read s buffer)).mirror s b := by
  obtain ⟨m', hheal, hsync⟩ := heal_repairable hrep
  obtain ⟨-, hmir, -⟩ := myRead_healed crcOf hall s buffer
  rw [serve, dispatch, hmir, hheal]
  exact hsync

/-- What holds of a sector: its data can be repaired, and is in order on both disks if the sector
    has not been damaged since the last request for it. -/
structure Kept (damaged : Set SectorId) (e : Driver) (s : SectorId) (b : Sector) : Prop where
  repairable : Repairable (crcOf 0) e.mirror s b.1
  synced : s ∉ damaged → Synced (crcOf 0) e.mirror s b.1

theorem Kept.of_synced {damaged : Set SectorId} {e : Driver} {s : SectorId} {b : Sector}
    (h : Synced (crcOf 0) e.mirror s b.1) : Kept damaged e s b := ⟨h.repairable, fun _ => h⟩

/-- One request. -/
theorem Kept.request {damaged : Set SectorId} {e : Driver} (hall : AllSucceed e)
    {rs : List Request} (hkept : ∀ s b, lastWritten rs s = some b → Kept damaged e s b)
    (r : Request) {s : SectorId} {b : Sector} (hb : lastWritten (rs ++ [r]) s = some b) :
    Kept (damaged \ {r.sector}) (serve crcOf e r) s b := by
  rw [lastWritten_concat] at hb
  by_cases hs : r.sector = s
  · subst hs
    cases r with
    | read t buffer =>
      exact .of_synced (serve_read_repairable hall (hkept t b hb).repairable buffer)
    | write t b' =>
      have heq : b' = b := by simpa [Request.dataFor, Request.sector] using hb
      subst heq
      exact .of_synced (serve_write_synced crcOf hall t b')
  · -- A request for another sector.
    have hnone : r.dataFor s = none := by
      cases r with
      | read t buffer => rfl
      | write t b' => exact if_neg hs
    rw [hnone, Option.none_or] at hb
    have hsame := serve_sameAt crcOf hall r hs
    have hbefore := hkept s b hb
    refine ⟨hbefore.repairable.of_sameAt hsame, fun hmem => ?_⟩
    exact (hbefore.synced fun h => hmem ⟨h, fun he => hs he.symm⟩).of_sameAt hsame

/-- One piece of damage. -/
theorem Kept.damage {damaged : Set SectorId} {e : Driver} {disks : Fin 2 → Mem} {k : Fin 2}
    {t s : SectorId} {b : Sector} (hkept : Kept damaged e s b) (fresh : t ∉ damaged)
    (hdamage : DamagedAt e.physicalDevice disks k t) :
    Kept (insert t damaged) { e with physicalDevice := disks } s b := by
  by_cases hs : s = t
  · subst hs
    exact ⟨hdamage.repairable (hkept.synced fresh), fun hmem => absurd (Set.mem_insert _ _) hmem⟩
  · have hsame := hdamage.sameAt hs
    refine ⟨hkept.repairable.of_sameAt hsame, fun hmem => ?_⟩
    exact (hkept.synced fun h => hmem (Set.mem_insert_of_mem t h)).of_sameAt hsame

/-- After any history, the IRPs still succeed and every sector that has been written is kept. -/
theorem History.kept {d e : Driver} {rs : List Request} {damaged : Set SectorId}
    (hall : AllSucceed d) (h : History d rs damaged e) :
    AllSucceed e ∧ ∀ s b, lastWritten rs s = some b → Kept damaged e s b := by
  induction h with
  | start => exact ⟨hall, nofun⟩
  | request r before ih =>
    exact ⟨serve_allSucceed crcOf ih.1 r, fun s b hb => Kept.request ih.1 ih.2 r hb⟩
  | damage before fresh at_copy ih =>
    exact ⟨ih.1, fun s b hb => (ih.2 s b hb).damage fresh at_copy⟩

/-- **Damage is repaired.**  Let whole-sector requests and damage come in any order, where a sector
    is damaged again only after a request for it.  Then a read of any sector that has been written
    succeeds and leaves both disks with the last data written to it and their CRC; and if the sector
    has not been damaged since the last request for it, the caller gets these data. -/
theorem damage_repaired (d e : Driver) (hall : AllSucceed d) (rs : List Request)
    (damaged : Set SectorId) (h : History d rs damaged e) (s : SectorId) (b : Sector)
    (hb : lastWritten rs s = some b) (buffer : Sector) :
    let r := myRead crcOf e (.ofSector s buffer)
    r.status = .success ∧
    (∀ k, sectorData (r.driver.physicalDevice k) s = b.1 ∧
      crcSlot (r.driver.physicalDevice k) s = crc32 0 b.1) ∧
    (s ∉ damaged → r.buffer = b.1) := by
  intro r
  obtain ⟨halle, hkept⟩ := h.kept hall
  have hs := hkept s b hb
  obtain ⟨m', hheal, -⟩ := heal_repairable hs.repairable
  have hst : r.status = .success := (myRead_healed crcOf halle s buffer).1.mpr (by rw [hheal]; rfl)
  have hsync : Synced (crcOf 0) r.driver.mirror s b.1 :=
    serve_read_repairable halle hs.repairable buffer
  refine ⟨hst, fun k => ⟨(hsync k).1, (hsync k).2.trans (crcOf_eq 0 b.1)⟩, fun hmem => ?_⟩
  -- Both copies are in order, so the first branch of the read is taken.
  have hboth := hs.synced hmem
  have hvalid : ∀ k, (e.mirror k).Valid (crcOf 0) s := fun k => by
    rw [Replica.Valid, (hboth k).1, (hboth k).2]
  have hsame : crcOf 0 ((e.mirror 0).block s) = crcOf 0 ((e.mirror 1).block s) := by
    rw [(hboth 0).1, (hboth 1).1]
  obtain ⟨d₁, d₂, d₃, -, -, -, -, -, -, heq⟩ := myRead_eq crcOf halle s buffer
  have hr : r = _ := heq
  rw [hr, if_pos ⟨hvalid 0, hvalid 1, hsame⟩]
  exact (hboth 0).1

/-- A sector is filled with ones, and the first byte of its second copy is damaged. -/
theorem damage_repaired_firstByte :
    ∃ e, e.physicalDevice 1 0 = 9 ∧ ∀ k,
      sectorData ((myRead crcOf e (.ofSector firstSector (filledSector 0))).driver.physicalDevice k)
        firstSector = (filledSector 1).1 := by
  set d := serve crcOf blankDriver (.write firstSector (filledSector 1)) with hd
  have hall : AllSucceed blankDriver := by simp [AllSucceed, blankDriver]
  obtain ⟨n, hn⟩ : ∃ n, kernelSectorSize = n + 1 := ⟨511, by simp [kernelSectorSize]⟩
  have hones : (filledSector 1).1 = 1 :: List.replicate n 1 := by
    rw [← List.replicate_succ, ← hn]
    rfl
  have hdata : sectorData (d.physicalDevice 1) firstSector = 1 :: List.replicate n 1 :=
    (serve_write_synced crcOf hall firstSector (filledSector 1) 1).1.trans hones
  have hlen : (9 :: List.replicate n (1 : UInt8)).length = kernelSectorSize := by simp [hn]
  have hdamage := DamagedAt.overwritten d.physicalDevice 1 firstSector hlen
    (hdata ▸ burst_head (by decide) _)
  have hhistory := History.damage (History.request (.write firstSector (filledSector 1))
    (History.start (d := blankDriver))) (fun h => h.1) hdamage
  have hnine : Function.update d.physicalDevice 1 (writeBytes (d.physicalDevice 1)
      (sectorOffset firstSector) (9 :: List.replicate n 1)) 1 0 = 9 := by
    have hoffset : sectorOffset firstSector = 0 := Nat.zero_mul _
    rw [Function.update_self, hoffset, writeBytes_of_mem (Nat.le_refl 0) (by simp)]
    rfl
  exact ⟨_, hnine,
    fun k => ((damage_repaired blankDriver _ hall _ _ hhistory firstSector (filledSector 1)
      (by simp [lastWritten, Request.dataFor]) (filledSector 0)).2.1 k).1⟩

end WorkAtUPB.SimpleRAID
