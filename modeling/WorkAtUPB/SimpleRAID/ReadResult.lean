import WorkAtUPB.SimpleRAID.Consistency
import WorkAtUPB.SimpleRAID.Crc32

namespace WorkAtUPB.SimpleRAID

open Bytes Mirroring

/-!
# What a read gives to its caller

`MyRead` is to put the data of a copy in order into the caller's buffer.  It does so when both
copies are in order; in the two branches that repair a copy it reports success for a buffer
that it has not touched:

* `Intact` — a copy of a sector matches its CRC slot;
* `Vouched` — a successful read has filled the buffer from an intact copy;
* `Delivered` — there is nothing to repair, or the buffer happens to hold an intact copy;
* `vouched_iff` — the first holds exactly when the second does.
-/

variable (updateCrc : UInt32 → List UInt8 → UInt32)

/-- A request for one whole sector, wherever its offset is. -/
structure Irp.WholeSector (irp : Irp) : Prop where
  aligned : (kernelSectorSize : Int) ∣ irp.byteOffset
  length : irp.length = kernelSectorSize
  buffer : irp.buffer.length = kernelSectorSize

/-- The copy of sector `s` on disk `k` matches its CRC slot. -/
def Intact (d : Driver) (k : Fin 2) (s : SectorId) : Prop :=
  crcSlot (d.physicalDevice k) s = updateCrc 0 (sectorData (d.physicalDevice k) s)

/-- If the read succeeds, the bytes that it reports are those of an intact copy of the
    sector. -/
def Vouched (d : Driver) (irp : Irp) : Prop :=
  let r := myRead updateCrc d irp
  r.status = .success → ∃ (s : SectorId) (k : Fin 2), irp.byteOffset = sectorOffset s ∧
    Intact updateCrc d k s ∧
      r.buffer.take r.information = (sectorData (d.physicalDevice k) s).take r.information

/-- Both copies of the sector are intact and have the same CRC, or none is intact, or the
    caller's buffer holds the bytes of an intact copy already. -/
def Delivered (d : Driver) (irp : Irp) : Prop :=
  ∀ s : SectorId, irp.byteOffset = sectorOffset s →
    ((∀ k, Intact updateCrc d k s) ∧ ∀ k l,
      updateCrc 0 (sectorData (d.physicalDevice k) s) =
        updateCrc 0 (sectorData (d.physicalDevice l) s)) ∨
    (∀ k, ¬ Intact updateCrc d k s) ∨
    ∃ k, Intact updateCrc d k s ∧ irp.buffer = sectorData (d.physicalDevice k) s

/-- A request with a valid offset is for a sector of the logical disk. -/
theorem Irp.WholeSector.eq_ofSector {irp : Irp} (h : irp.WholeSector)
    (hvalid : validOffset irp = true) : ∃ s b, irp = .ofSector s b := by
  obtain ⟨⟨i, hi⟩, hlength, hbuffer⟩ := h
  obtain ⟨offset, length, buffer⟩ := irp
  dsimp only at hi hlength hbuffer
  simp only [validOffset, Bool.and_eq_true, decide_eq_true_eq] at hvalid
  obtain ⟨hpos, hlt⟩ := hvalid
  simp only [kernelSectorSize, logicalDiskSize] at hi hlt
  have hsector : i.toNat < logicalDiskSectors := by
    simp only [logicalDiskSectors, logicalDiskSize, kernelSectorSize]
    omega
  refine ⟨⟨i.toNat, hsector⟩, ⟨buffer, hbuffer⟩, ?_⟩
  unfold Irp.ofSector sectorOffset
  dsimp only
  rw [hlength]
  congr 1
  simp only [kernelSectorSize]
  omega

/-- A request for a sector. -/
theorem ofSector_wholeSector (s : SectorId) (b : Sector) : (Irp.ofSector s b).WholeSector where
  aligned := by
    refine ⟨s, ?_⟩
    simp only [Irp.ofSector, sectorOffset]
    rw [Int.natCast_mul, Int.mul_comm]
  length := rfl
  buffer := b.2

/-- Different sectors are at different offsets. -/
theorem sectorOffset_injective {s t : SectorId} (h : (sectorOffset s : Int) = sectorOffset t) :
    s = t := by
  simp only [sectorOffset, kernelSectorSize] at h
  exact Fin.ext (by omega)

/-- Whole buffers that are reported whole. -/
theorem take_sector {bs : List UInt8} (h : bs.length = kernelSectorSize) :
    bs.take kernelSectorSize = bs := List.take_of_length_le (Nat.le_of_eq h)

/-- For a sector of the logical disk, the read is vouched for exactly when its data is
    delivered. -/
theorem vouched_ofSector_iff {d : Driver} (hall : AllSucceed d) (s : SectorId) (b : Sector) :
    Vouched updateCrc d (.ofSector s b) ↔ Delivered updateCrc d (.ofSector s b) := by
  obtain ⟨d₁, d₂, d₃, -, -, -, -, -, -, heq⟩ := myRead_eq updateCrc hall s b
  have hdata : ∀ k, (sectorData (d.physicalDevice k) s).take kernelSectorSize =
      sectorData (d.physicalDevice k) s := fun k => take_sector (length_readBytes _ _ _)
  -- The request is for `s` and no other sector.
  have hdelivered : Delivered updateCrc d (.ofSector s b) ↔
      ((d.mirror 0).Valid (updateCrc 0) s ∧ (d.mirror 1).Valid (updateCrc 0) s ∧
        updateCrc 0 ((d.mirror 0).block s) = updateCrc 0 ((d.mirror 1).block s)) ∨
      (¬ (d.mirror 0).Valid (updateCrc 0) s ∧ ¬ (d.mirror 1).Valid (updateCrc 0) s) ∨
      ∃ k, (d.mirror k).Valid (updateCrc 0) s ∧ b.1 = sectorData (d.physicalDevice k) s := by
    refine ⟨fun h => ?_, fun h t ht => ?_⟩
    · exact (h s rfl).imp (fun hb => ⟨hb.1 0, hb.1 1, hb.2 0 1⟩)
        (Or.imp_left fun hn => ⟨hn 0, hn 1⟩)
    · obtain rfl := sectorOffset_injective ht
      refine h.imp (fun hb => ⟨Fin.forall_fin_two.mpr ⟨hb.1, hb.2.1⟩, ?_⟩)
        (Or.imp_left fun hn => Fin.forall_fin_two.mpr hn)
      simp only [Fin.forall_fin_two]
      exact ⟨⟨trivial, hb.2.2⟩, hb.2.2.symm, trivial⟩
  -- In the branches that repair a copy the caller's buffer is as it was.
  have hrepaired : ∀ r : Completion, r.status = .success → r.information = kernelSectorSize →
      r.buffer = b.1 → ((r.status = .success → ∃ (t : SectorId) (k : Fin 2),
        (Irp.ofSector s b).byteOffset = sectorOffset t ∧ Intact updateCrc d k t ∧
          r.buffer.take r.information = (sectorData (d.physicalDevice k) t).take r.information) ↔
      ∃ k, (d.mirror k).Valid (updateCrc 0) s ∧ b.1 = sectorData (d.physicalDevice k) s) := by
    intro r hst hinfo hbuf
    rw [hinfo, hbuf, take_sector b.2]
    constructor
    · intro h
      obtain ⟨t, k, ht, hk, hb⟩ := h hst
      obtain rfl := sectorOffset_injective ht
      exact ⟨k, hk, hb.trans (hdata k)⟩
    · rintro ⟨k, hk, hb⟩ -
      exact ⟨s, k, rfl, hk, hb.trans (hdata k).symm⟩
  rw [hdelivered]
  unfold Vouched
  rw [heq]
  by_cases hboth : (d.mirror 0).Valid (updateCrc 0) s ∧ (d.mirror 1).Valid (updateCrc 0) s ∧
      updateCrc 0 ((d.mirror 0).block s) = updateCrc 0 ((d.mirror 1).block s)
  · rw [if_pos hboth]
    exact iff_of_true (fun _ => ⟨s, 0, rfl, hboth.1, rfl⟩) (Or.inl hboth)
  rw [if_neg hboth, or_iff_right hboth]
  by_cases hv0 : (d.mirror 0).Valid (updateCrc 0) s
  · rw [if_pos hv0, or_iff_right fun h => h.1 hv0]
    exact hrepaired _ rfl rfl rfl
  rw [if_neg hv0]
  by_cases hv1 : (d.mirror 1).Valid (updateCrc 0) s
  · rw [if_pos hv1, or_iff_right fun h => h.2 hv1]
    exact hrepaired _ rfl rfl rfl
  · rw [if_neg hv1]
    exact iff_of_true nofun (Or.inl ⟨hv0, hv1⟩)

/-- **What a read delivers.**  For every content of the disks and every read of a whole sector
    whose IRPs succeed: a read that reports success has put the data of an intact copy into the
    caller's buffer exactly when both copies are intact with one CRC, or none is, or the buffer
    held that data before. -/
theorem vouched_iff (d : Driver) (hall : AllSucceed d) (irp : Irp) (hirp : irp.WholeSector) :
    Vouched updateCrc d irp ↔ Delivered updateCrc d irp := by
  by_cases hvalid : validOffset irp = true
  · obtain ⟨s, b, rfl⟩ := hirp.eq_ofSector hvalid
    exact vouched_ofSector_iff updateCrc hall s b
  -- A request outside of the logical disk fails.
  refine iff_of_true (fun hst => ?_) fun s hs => ?_
  · rw [myRead, if_pos (Bool.eq_false_iff.mpr hvalid)] at hst
    cases hst
  · have hlt := sectorOffset_lt s
    refine absurd ?_ hvalid
    simp only [validOffset, hs, Bool.and_eq_true, decide_eq_true_eq, Int.toNat_natCast]
    simp only [kernelSectorSize] at hlt
    omega

/-- Zeroed disks, with the given words in the CRC slots of the first sector. -/
def zeroedDriver (crc : Fin 2 → UInt32) : Driver :=
  { blankDriver with
    physicalDevice := fun k =>
      writeBytes (blankDriver.physicalDevice k) (slotOffset firstSector) (le32 (crc k)) }

/-- Its disks do not fail. -/
theorem zeroedDriver_allSucceed (crc : Fin 2 → UInt32) : AllSucceed (zeroedDriver crc) := nofun

/-- Its sectors are zero. -/
theorem zeroedDriver_content (crc : Fin 2 → UInt32) (k : Fin 2) :
    sectorData ((zeroedDriver crc).physicalDevice k) firstSector = (filledSector 0).1 ∧
      crcSlot ((zeroedDriver crc).physicalDevice k) firstSector = crc k := by
  constructor
  · have hdisj := sectorOffset_slotOffset firstSector firstSector
    exact (readBytes_writeBytes_disjoint (Or.inl hdisj)).trans (blankDriver_content k _).1
  · have hread := readBytes_writeBytes_self (blankDriver.physicalDevice k) (slotOffset firstSector)
      (le32 (crc k))
    exact (congrArg ofLE32 hread).trans (ofLE32_le32 _)

/-- The CRC of a sector of zeros is what its slot has to hold. -/
theorem zeroedDriver_intact (crc : Fin 2 → UInt32) (k : Fin 2) :
    Intact crcOf (zeroedDriver crc) k firstSector ↔ crc k = 0xb2aa7578 := by
  have hzeros : (filledSector 0).1 = List.replicate 512 0 := by
    simp only [filledSector, kernelSectorSize]
  rw [Intact, (zeroedDriver_content crc k).1, (zeroedDriver_content crc k).2, hzeros, crcOf_eq,
    crc32_zeros]

/-- A read of zeroed disks, whose CRC slots are right, delivers zeros. -/
theorem vouched_iff_zeroed :
    Vouched crcOf (zeroedDriver fun _ => 0xb2aa7578) (.ofSector firstSector (filledSector 9)) := by
  refine (vouched_iff crcOf _ (zeroedDriver_allSucceed _) _ (ofSector_wholeSector ..)).mpr
    fun s hs => ?_
  obtain rfl := sectorOffset_injective hs
  have hintact := fun k => (zeroedDriver_intact (fun _ => 0xb2aa7578) k).mpr rfl
  refine Or.inl ⟨hintact, fun k l => ?_⟩
  rw [(zeroedDriver_content _ k).1, (zeroedDriver_content _ l).1]

/-- **A read that delivers nothing.**  The copies are zeros, and only the first CRC slot holds the
    CRC of zeros: the read repairs the second one and reports 512 bytes, but the buffer is the one
    of the caller. -/
theorem not_vouched : ¬ ∀ (d : Driver) (irp : Irp),
    AllSucceed d → irp.WholeSector → Vouched crcOf d irp := by
  intro h
  set d := zeroedDriver fun k => if k = 0 then 0xb2aa7578 else 0 with hd
  have hall : AllSucceed d := zeroedDriver_allSucceed _
  have hintact : ∀ k, Intact crcOf d k firstSector ↔ k = 0 := by
    intro k
    rw [hd, zeroedDriver_intact]
    by_cases hk : k = 0 <;> simp [hk]
  have hread := h d (.ofSector firstSector (filledSector 9)) hall (ofSector_wholeSector ..)
  rcases (vouched_ofSector_iff crcOf hall firstSector (filledSector 9)).mp hread firstSector rfl
    with ⟨hboth, -⟩ | hnone | ⟨k, -, hb⟩
  · exact absurd ((hintact 1).mp (hboth 1)) (by decide)
  · exact hnone 0 ((hintact 0).mpr rfl)
  · -- The buffer would hold nines and zeros.
    rw [hd, (zeroedDriver_content _ k).1] at hb
    have hhead := congrArg (fun bs => bs.headD 0) hb
    simp only [Irp.ofSector, headD_filledSector] at hhead
    exact absurd hhead (by decide)

end WorkAtUPB.SimpleRAID
