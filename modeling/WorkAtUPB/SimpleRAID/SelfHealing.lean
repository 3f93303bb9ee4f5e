import WorkAtUPB.SimpleRAID.ReadResult

namespace WorkAtUPB.SimpleRAID

open Bytes Mirroring

/-!
# What a read repairs

`MyRead` compares the two copies of a sector with their CRC slots and, if one of them is not in
order, overwrites it with the other:

* `myRead_unrepaired` — where no copy is intact, no byte of the disks changes;
* `myRead_selfHealing` — the read succeeds exactly when some copy is intact; then both are
  intact with one CRC, and nothing but the sector and its slots has changed.
-/

variable (updateCrc : UInt32 → List UInt8 → UInt32)

/-- A read that finds no intact copy leaves the disks as they are. -/
theorem myRead_unrepaired {d : Driver} (hall : AllSucceed d) {s : SectorId} (buffer : Sector)
    (hbad : ∀ k, ¬ Intact updateCrc d k s) :
    (myRead updateCrc d (.ofSector s buffer)).driver.physicalDevice = d.physicalDevice := by
  obtain ⟨d₁, d₂, d₃, -, -, -, hdev, -, -, heq⟩ := myRead_eq updateCrc hall s buffer
  have h0 : ¬ (d.mirror 0).Valid (updateCrc 0) s := hbad 0
  have h1 : ¬ (d.mirror 1).Valid (updateCrc 0) s := hbad 1
  rw [heq, if_neg fun h => h0 h.1, if_neg h0, if_neg h1]
  exact hdev

/-- **Self-healing.**  For every content of the disks, a read of a whole sector whose IRPs
    succeed reports success exactly when some copy of the sector matches its CRC slot.  Then both
    slots are equal and match the data on their disk; where no copy matches, the disks are
    unchanged; and no other sector or slot changes in any case. -/
theorem myRead_selfHealing (d : Driver) (hall : AllSucceed d) (s : SectorId) (buffer : Sector) :
    let r := myRead updateCrc d (.ofSector s buffer)
    let disks := r.driver.physicalDevice
    (r.status = .success ↔ ∃ k, Intact updateCrc d k s) ∧
    (r.status = .success →
      crcSlot (disks 0) s = crcSlot (disks 1) s ∧ ∀ k, Intact updateCrc r.driver k s) ∧
    ((∀ k, ¬ Intact updateCrc d k s) → disks = d.physicalDevice) ∧
    ∀ t ≠ s, ∀ k, sectorData (disks k) t = sectorData (d.physicalDevice k) t ∧
      crcSlot (disks k) t = crcSlot (d.physicalDevice k) t := by
  intro r disks
  obtain ⟨hst, hmir, -⟩ := myRead_healed updateCrc hall s buffer
  have hdisks : mirrorOf disks = (heal (updateCrc 0) d.mirror s).getD d.mirror := hmir
  refine ⟨?_, fun hok => ?_, myRead_unrepaired updateCrc hall buffer, fun t ht => ?_⟩
  · rw [hst, heal_isSome_iff, Fin.exists_fin_two]
    rfl
  · obtain ⟨m', hheal⟩ := Option.isSome_iff_exists.mp (hst.mp hok)
    rw [hheal, Option.getD_some] at hdisks
    obtain ⟨hsum, hvalid⟩ := heal_valid hheal
    rw [← hdisks] at hsum hvalid
    exact ⟨hsum, hvalid⟩
  · -- A repair stays at the sector.
    have hsame : SameAt d.mirror (mirrorOf disks) t := by
      rw [hdisks]
      cases hheal : heal (updateCrc 0) d.mirror s with
      | none => exact SameAt.refl _ t
      | some m' => exact heal_frame hheal ht
    exact hsame

/-- A read of zeroed disks succeeds, and both copies are in order. -/
theorem myRead_selfHealing_blank :
    let crc : UInt32 → List UInt8 → UInt32 := fun _ bs => (bs.headD 0).toUInt32
    let r := myRead crc blankDriver (.ofSector firstSector (filledSector 9))
    r.status = .success ∧ ∀ k, Intact crc r.driver k firstSector := by
  intro crc r
  have hheals := myRead_selfHealing crc blankDriver (by simp [AllSucceed, blankDriver])
    firstSector (filledSector 9)
  have hok : r.status = .success := hheals.1.mpr ⟨0, by
    rw [Intact, (blankDriver_content 0 firstSector).1, (blankDriver_content 0 firstSector).2]
    simp only [crc, headD_filledSector]
    decide⟩
  exact ⟨hok, (hheals.2.1 hok).2⟩

end WorkAtUPB.SimpleRAID
