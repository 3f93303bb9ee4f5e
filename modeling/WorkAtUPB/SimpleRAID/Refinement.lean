import WorkAtUPB.Lib.Mirror
import WorkAtUPB.SimpleRAID.Driver

namespace WorkAtUPB.SimpleRAID

open Bytes Mirroring

/-!
# The driver refines a mirror of checksummed sectors

A pair of physical disks is read as a `Mirror`: the block of sector `s` is its 512 bytes in
the data area, its checksum the word in its CRC slot.  Every request of the driver is then a
list of transfers of that mirror:

* `sectorOffset_slotOffset` and the two `mirrorOf_update_*` lemmas — slots do not overlap
  each other or the data area, so one IRP is one transfer;
* `Performs` — a piece of driver code carries out a list of transfers, or a prefix of it
  when an IRP fails; `Performs.seq` composes it along the code's early returns;
* `myWrite_performs`, `myRead_healed` — `MyWrite` is `writeTransfers` and `MyRead` is
  `heal`.
-/

/-- A sector of the logical disk. -/
abbrev SectorId := Fin logicalDiskSectors

/-- The content of a whole sector. -/
abbrev Sector := { bs : List UInt8 // bs.length = kernelSectorSize }

/-- The byte offset of a sector. -/
def sectorOffset (s : SectorId) : Nat := s * kernelSectorSize

/-- The byte offset of the CRC slot of a sector, as `SendCRCIrp` computes it. -/
def slotOffset (s : SectorId) : Nat :=
  crcOffset (sectorOffset s) + crcSegmentOffset (sectorOffset s)

/-- The data of sector `s` on a disk. -/
def sectorData (disk : Mem) (s : SectorId) : List UInt8 :=
  readBytes disk (sectorOffset s) kernelSectorSize

/-- The CRC slot of sector `s` on a disk. -/
def crcSlot (disk : Mem) (s : SectorId) : UInt32 := ofLE32 (readBytes disk (slotOffset s) 4)

/-- Two disks as a mirror of checksummed sectors. -/
def mirrorOf (disks : Fin 2 → Mem) : Mirror SectorId (List UInt8) UInt32 :=
  fun k => ⟨sectorData (disks k), crcSlot (disks k)⟩

/-- The mirror a driver looks after. -/
def Driver.mirror (d : Driver) : Mirror SectorId (List UInt8) UInt32 := mirrorOf d.physicalDevice

/-- No IRP still to come fails. -/
def AllSucceed (d : Driver) : Prop := ∀ o ∈ d.outcomes, o = .success

/-! ### The disk layout -/

theorem sectorOffset_lt (s : SectorId) :
    sectorOffset s + kernelSectorSize ≤ logicalDiskSize := by
  have hs : s.val < logicalDiskSectors := s.isLt
  simp only [logicalDiskSectors, sectorOffset, logicalDiskSize, kernelSectorSize] at hs ⊢
  omega

/-- Slots are consecutive words from `LOGICAL_DISK_SIZE` on. -/
theorem slotOffset_eq (s : SectorId) : slotOffset s = logicalDiskSize + s * 4 := by
  simp only [slotOffset, crcOffset, crcSegmentOffset, sectorID, nCRCPerSector, sectorOffset,
    kernelSectorSize, logicalDiskSize]
  omega

/-- A slot lies inside its CRC sector. -/
theorem crcSegmentOffset_le (s : SectorId) :
    crcSegmentOffset (sectorOffset s) + 4 ≤ kernelSectorSize := by
  simp only [crcSegmentOffset, nCRCPerSector, kernelSectorSize]
  omega

/-- Different sectors do not overlap. -/
theorem sectorOffset_disjoint {s t : SectorId} (h : t ≠ s) :
    sectorOffset t + kernelSectorSize ≤ sectorOffset s ∨
      sectorOffset s + kernelSectorSize ≤ sectorOffset t := by
  have hne : t.val ≠ s.val := fun he => h (Fin.ext he)
  simp only [sectorOffset, kernelSectorSize]
  omega

/-- Different slots do not overlap. -/
theorem slotOffset_disjoint {s t : SectorId} (h : t ≠ s) :
    slotOffset t + 4 ≤ slotOffset s ∨ slotOffset s + 4 ≤ slotOffset t := by
  have hne : t.val ≠ s.val := fun he => h (Fin.ext he)
  rw [slotOffset_eq, slotOffset_eq]
  omega

/-- No slot overlaps a data sector. -/
theorem sectorOffset_slotOffset (s t : SectorId) :
    sectorOffset s + kernelSectorSize ≤ slotOffset t := by
  have hs := sectorOffset_lt s
  rw [slotOffset_eq]
  omega

/-- Storing a whole sector is a block transfer. -/
theorem mirrorOf_update_sector (disks : Fin 2 → Mem) (k : Fin 2) (s : SectorId)
    {bs : List UInt8} (hbs : bs.length = kernelSectorSize) :
    mirrorOf (Function.update disks k (writeBytes (disks k) (sectorOffset s) bs))
      = Transfer.apply s (mirrorOf disks) (.block k bs) := by
  funext l
  by_cases hl : l = k
  · subst hl
    ext t : 2
    · by_cases ht : t = s
      · subst ht
        simp [mirrorOf, Transfer.apply, sectorData, ← hbs, readBytes_writeBytes_self]
      · have hread : readBytes (writeBytes (disks l) (sectorOffset s) bs) (sectorOffset t)
            kernelSectorSize = readBytes (disks l) (sectorOffset t) kernelSectorSize :=
          readBytes_writeBytes_disjoint (by rw [hbs]; exact sectorOffset_disjoint ht)
        simp [mirrorOf, Transfer.apply, sectorData, ht, hread]
    · have hdisj := sectorOffset_slotOffset s t
      simp [mirrorOf, Transfer.apply, crcSlot,
        readBytes_writeBytes_disjoint (Or.inr (hbs ▸ hdisj))]
  · simp [mirrorOf, Transfer.apply, hl]

/-- Storing a word into a CRC slot is a checksum transfer. -/
theorem mirrorOf_update_slot (disks : Fin 2 → Mem) (k : Fin 2) (s : SectorId) (c : UInt32) :
    mirrorOf (Function.update disks k (writeBytes (disks k) (slotOffset s) (le32 c)))
      = Transfer.apply s (mirrorOf disks) (.sum k c) := by
  funext l
  by_cases hl : l = k
  · subst hl
    ext t : 2
    · have hdisj := sectorOffset_slotOffset t s
      simp [mirrorOf, Transfer.apply, sectorData, readBytes_writeBytes_disjoint (Or.inl hdisj)]
    · by_cases ht : t = s
      · subst ht
        have hread := readBytes_writeBytes_self (disks l) (slotOffset t) (le32 c)
        rw [length_le32] at hread
        simp [mirrorOf, Transfer.apply, crcSlot, hread]
      · simp [mirrorOf, Transfer.apply, crcSlot, ht,
          @readBytes_writeBytes_disjoint _ _ _ _ (le32 c) (slotOffset_disjoint ht)]
  · simp [mirrorOf, Transfer.apply, hl]

/-! ### What one IRP does -/

/-- A reading IRP leaves the disks alone. -/
theorem sendIrp_read_devices (d : Driver) (dev : Fin 2) (buffer : List UInt8)
    (length offset : Nat) :
    (sendIrp d dev .read buffer length offset).driver.physicalDevice = d.physicalDevice := by
  unfold sendIrp
  split <;> rfl

/-- An IRP leaves the CRC buffer and the device extension alone. -/
theorem sendIrp_data (d : Driver) (dev : Fin 2) (major : IrpMajor) (buffer : List UInt8)
    (length offset : Nat) : (sendIrp d dev major buffer length offset).driver.data = d.data := by
  unfold sendIrp
  cases major <;> split <;> rfl

/-- A reading IRP that reports success has filled the buffer. -/
theorem sendIrp_read_buffer {d : Driver} {dev : Fin 2} {buffer : List UInt8}
    {length offset : Nat} (h : (sendIrp d dev .read buffer length offset).status = .success) :
    (sendIrp d dev .read buffer length offset).buffer
      = splice buffer 0 (readBytes (d.physicalDevice dev) offset length) := by
  unfold sendIrp at h ⊢
  split at h
  · rfl
  all_goals cases h

/-- A writing IRP that reports success has stored the buffer; one that fails has stored it
    or not. -/
theorem sendIrp_write_devices (d : Driver) (dev : Fin 2) (buffer : List UInt8)
    (length offset : Nat) :
    let r := sendIrp d dev .write buffer length offset
    let disks := Function.update d.physicalDevice dev
      (writeBytes (d.physicalDevice dev) offset (buffer.take length))
    r.driver.physicalDevice = disks ∨
      r.status ≠ .success ∧ r.driver.physicalDevice = d.physicalDevice := by
  unfold sendIrp
  dsimp only
  split
  · exact Or.inl rfl
  · exact Or.inr ⟨by simp, rfl⟩
  · exact Or.inl rfl
  · exact Or.inr ⟨by simp, rfl⟩

/-- If no IRP fails, this one does not, and none after it. -/
theorem sendIrp_allSucceed {d : Driver} (h : AllSucceed d) (dev : Fin 2) (major : IrpMajor)
    (buffer : List UInt8) (length offset : Nat) :
    (sendIrp d dev major buffer length offset).status = .success ∧
      AllSucceed (sendIrp d dev major buffer length offset).driver := by
  have hhead : d.outcomes.head?.getD .success = .success := by
    cases ho : d.outcomes with
    | nil => rfl
    | cons o os => exact h o (by simp [ho])
  have htail : ∀ o ∈ d.outcomes.tail, o = .success := fun o ho => h o (List.mem_of_mem_tail ho)
  unfold sendIrp
  rw [hhead]
  exact ⟨rfl, by cases major <;> exact htail⟩

/-! ### Code that carries out transfers -/

/-- The code that leads from `d` to `d'` with `status` carries out the transfers `ts` at
    sector `s`: all of them if it reports success, else a prefix; and it does report success
    if no IRP fails. -/
structure Performs (s : SectorId) (ts : List (Transfer (List UInt8) UInt32)) (d : Driver)
    (status : Ntstatus) (d' : Driver) : Prop where
  done : status = .success → d'.mirror = transferAll s d.mirror ts
  torn : ∃ n, d'.mirror = transferAll s d.mirror (ts.take n)
  total : AllSucceed d → status = .success ∧ AllSucceed d'
  frame : d'.data = d.data

/-- Code with an early return between two parts carries out the transfers of both. -/
theorem Performs.seq {s : SectorId} {ts us : List (Transfer (List UInt8) UInt32)}
    {d d₁ : Driver} {st₁ : Ntstatus} {r₂ : Ntstatus × Driver}
    (h₁ : Performs s ts d st₁ d₁) (h₂ : Performs s us d₁ r₂.1 r₂.2) :
    Performs s (ts ++ us) d (if st₁ ≠ .success then (st₁, d₁) else r₂).1
      (if st₁ ≠ .success then (st₁, d₁) else r₂).2 := by
  by_cases hst : st₁ = .success
  -- The first part is complete, and what is torn is torn in the second part.
  · rw [if_neg (not_not.mpr hst)]
    have hmid := h₁.done hst
    refine ⟨fun h => ?_, ?_, fun hall => h₂.total (h₁.total hall).2, h₂.frame.trans h₁.frame⟩
    · rw [h₂.done h, hmid, transferAll_append]
    · obtain ⟨n, hn⟩ := h₂.torn
      refine ⟨ts.length + n, ?_⟩
      rw [List.take_length_add_append, transferAll_append, hn, hmid]
  -- The early return: nothing of the second part happens.
  · rw [if_pos hst]
    refine ⟨fun h => absurd h hst, ?_, fun hall => absurd (h₁.total hall).1 hst, h₁.frame⟩
    obtain ⟨n, hn⟩ := h₁.torn
    refine ⟨min n ts.length, ?_⟩
    rw [hn, List.take_append_of_le_length (Nat.min_le_right _ _), List.take_eq_take_min]

/-- An IRP that transfers, or fails, carries out its transfer. -/
theorem Performs.single {s : SectorId} {t : Transfer (List UInt8) UInt32} {d d' : Driver}
    {status : Ntstatus} {disks : Fin 2 → Mem} (hupd : mirrorOf disks = t.apply s d.mirror)
    (hdev : d'.physicalDevice = disks ∨
      status ≠ .success ∧ d'.physicalDevice = d.physicalDevice)
    (htotal : AllSucceed d → status = .success ∧ AllSucceed d') (hframe : d'.data = d.data) :
    Performs s [t] d status d' := by
  refine ⟨fun h => ?_, ?_, htotal, hframe⟩
  · rcases hdev with hdev | ⟨hne, -⟩
    · rw [Driver.mirror, hdev, hupd]; rfl
    · exact absurd h hne
  · rcases hdev with hdev | ⟨-, hdev⟩
    · exact ⟨1, by rw [Driver.mirror, hdev, hupd]; rfl⟩
    · exact ⟨0, by rw [Driver.mirror, hdev]; rfl⟩

/-- Writing a whole sector from a buffer. -/
theorem sendIrp_write_performs (d : Driver) (dev : Fin 2) (s : SectorId) {buffer : List UInt8}
    (hbuf : kernelSectorSize ≤ buffer.length) :
    Performs s [.block dev (buffer.take kernelSectorSize)] d
      (sendIrp d dev .write buffer kernelSectorSize (sectorOffset s)).status
      (sendIrp d dev .write buffer kernelSectorSize (sectorOffset s)).driver := by
  have hlen : (buffer.take kernelSectorSize).length = kernelSectorSize := by simp [hbuf]
  have hupd := mirrorOf_update_sector d.physicalDevice dev s hlen
  have hdev := sendIrp_write_devices d dev buffer kernelSectorSize (sectorOffset s)
  exact .single hupd hdev (fun hall => sendIrp_allSucceed hall _ _ _ _ _)
    (sendIrp_data _ _ _ _ _ _)

/-- The CRC sector that `SendCRCIrp` writes back differs from the disk in one slot. -/
theorem writeBytes_crcSector (disk : Mem) (s : SectorId) (crcBuffer : List UInt8) (c : UInt32) :
    writeBytes disk (crcOffset (sectorOffset s))
      ((splice (splice crcBuffer 0
        (readBytes disk (crcOffset (sectorOffset s)) kernelSectorSize))
          (crcSegmentOffset (sectorOffset s)) (le32 c)).take kernelSectorSize)
      = writeBytes disk (slotOffset s) (le32 c) := by
  set old := readBytes disk (crcOffset (sectorOffset s)) kernelSectorSize with hold
  have hoff := crcSegmentOffset_le s
  have hlen : old.length = kernelSectorSize := length_readBytes _ _ _
  -- What is in the buffer behind the CRC sector does not reach the disk.
  have htake : ∀ rest : List UInt8,
      (splice (old ++ rest) (crcSegmentOffset (sectorOffset s)) (le32 c)).take kernelSectorSize
        = splice old (crcSegmentOffset (sectorOffset s)) (le32 c) := by
    intro rest
    have hlenS : (splice old (crcSegmentOffset (sectorOffset s)) (le32 c)).length
        = kernelSectorSize := by rw [length_splice (by simpa [hlen] using hoff), hlen]
    have happ : splice (old ++ rest) (crcSegmentOffset (sectorOffset s)) (le32 c)
        = splice old (crcSegmentOffset (sectorOffset s)) (le32 c) ++ rest := by
      simp only [splice, length_le32]
      rw [List.take_append_of_le_length (by omega), List.drop_append_of_le_length (by omega),
        List.append_assoc, List.append_assoc, List.append_assoc]
    rw [happ, List.take_append_of_le_length (by omega), List.take_of_length_le (by omega)]
  have hsplice : splice crcBuffer 0 old = old ++ crcBuffer.drop old.length := by simp [splice]
  rw [hsplice, htake, hold, writeBytes_splice_readBytes (by simpa using hoff), slotOffset]

/-- Replacing the CRC of a sector. -/
theorem sendCRCIrp_write_performs (d : Driver) (dev : Fin 2) (s : SectorId) (c : UInt32) :
    Performs s [.sum dev c] d (sendCRCIrp d dev .write (sectorOffset s) c).status
      (sendCRCIrp d dev .write (sectorOffset s) c).driver := by
  simp only [sendCRCIrp]
  set r := sendIrp d dev .read d.crcBuffer kernelSectorSize (crcOffset (sectorOffset s)) with hr
  have hdisks : r.driver.physicalDevice = d.physicalDevice := sendIrp_read_devices _ _ _ _ _
  have hdata : r.driver.data = d.data := sendIrp_data _ _ _ _ _ _
  by_cases hst : r.status = .success
  -- The CRC sector was read; one transfer is left, which happens or does not.
  · rw [if_neg (not_not.mpr hst)]
    have hbuf := sendIrp_read_buffer hst
    rw [← hr] at hbuf
    set d₁ : Driver := { r.driver with
      crcBuffer := splice r.buffer (crcSegmentOffset (sectorOffset s)) (le32 c) } with hd₁
    have hdev := sendIrp_write_devices d₁ dev d₁.crcBuffer kernelSectorSize
      (crcOffset (sectorOffset s))
    have hslot : writeBytes (d₁.physicalDevice dev) (crcOffset (sectorOffset s))
        (d₁.crcBuffer.take kernelSectorSize)
        = writeBytes (d.physicalDevice dev) (slotOffset s) (le32 c) := by
      rw [hd₁]
      simp only [hdisks, hbuf]
      exact writeBytes_crcSector _ s _ c
    rw [hslot, show d₁.physicalDevice = d.physicalDevice from hdisks] at hdev
    have hupd := mirrorOf_update_slot d.physicalDevice dev s c
    refine .single hupd hdev (fun hall => ?_) ((sendIrp_data _ _ _ _ _ _).trans hdata)
    have hall₁ : AllSucceed d₁ :=
      (sendIrp_allSucceed hall dev .read d.crcBuffer kernelSectorSize
        (crcOffset (sectorOffset s))).2
    exact sendIrp_allSucceed hall₁ _ _ _ _ _
  · rw [if_pos hst]
    refine ⟨fun h => absurd h hst, ⟨0, by rw [Driver.mirror, hdisks]; rfl⟩, fun hall => ?_, hdata⟩
    exact absurd (sendIrp_allSucceed hall _ _ _ _ _).1 hst

/-- The data from a buffer, then a CRC, to one disk. -/
theorem writeThenCRC_performs (d : Driver) (dev : Fin 2) (s : SectorId) (buffer : List UInt8)
    (hbuf : kernelSectorSize ≤ buffer.length) (c : UInt32) :
    let r := sendIrp d dev .write buffer kernelSectorSize (sectorOffset s)
    let k := sendCRCIrp r.driver dev .write (sectorOffset s) c
    let out := if r.status ≠ .success then (r.status, r.driver) else (k.status, k.driver)
    Performs s [.block dev (buffer.take kernelSectorSize), .sum dev c] d out.1 out.2 := by
  intro r k
  have hk : Performs s [.sum dev c] r.driver (k.status, k.driver).1 (k.status, k.driver).2 :=
    sendCRCIrp_write_performs r.driver dev s c
  exact (sendIrp_write_performs d dev s hbuf).seq hk

/-! ### Whole-sector requests -/

/-- A request for the whole of sector `s`. -/
def Irp.ofSector (s : SectorId) (buffer : Sector) : Irp :=
  ⟨sectorOffset s, kernelSectorSize, buffer.1⟩

@[simp] theorem requestSize_ofSector (s : SectorId) (b : Sector) :
    requestSize (.ofSector s b) = kernelSectorSize := by
  simp [requestSize, Irp.ofSector]

@[simp] theorem byteOffset_ofSector (s : SectorId) (b : Sector) :
    (Irp.ofSector s b).byteOffset.toNat = sectorOffset s := rfl

@[simp] theorem buffer_ofSector (s : SectorId) (b : Sector) :
    (Irp.ofSector s b).buffer = b.1 := rfl

@[simp] theorem validOffset_ofSector (s : SectorId) (b : Sector) :
    validOffset (.ofSector s b) = true := by
  have hs := sectorOffset_lt s
  have hpos : 0 < kernelSectorSize := by simp [kernelSectorSize]
  have hlt : sectorOffset s < logicalDiskSize := by omega
  simp [validOffset, Irp.ofSector, hlt]

variable (updateCrc : UInt32 → List UInt8 → UInt32)

/-- **`MyWrite` is a mirror write.**  It carries out `writeTransfers` (after filling
    `writeBuffer`, which is not on a disk). -/
theorem myWrite_performs (d : Driver) (s : SectorId) (b : Sector) :
    ∃ data, Performs s (writeTransfers (updateCrc 0) b.1) { d with data := data }
      (myWrite updateCrc d (.ofSector s b)).status
      (myWrite updateCrc d (.ofSector s b)).driver := by
  set buf := splice (List.replicate kernelSectorSize 0) 0 b.1 with hbuf
  have htake : buf.take kernelSectorSize = b.1 := by
    have h := splice_zero_take (List.replicate kernelSectorSize 0) b.1
    rw [b.2] at h
    exact h
  have hlen : kernelSectorSize ≤ buf.length := by
    rw [hbuf, length_splice (by simp [b.2])]; simp
  set d₁ : Driver := { d with data := { d.data with
    writeBuffer := buf, writeBufferSize := kernelSectorSize } } with hd₁
  refine ⟨d₁.data, ?_⟩
  -- The two rounds of the loop.
  set w0 := writeCopy d₁ 0 kernelSectorSize (sectorOffset s) (updateCrc 0 b.1) with hw0
  set w1 := writeCopy w0.2 1 kernelSectorSize (sectorOffset s) (updateCrc 0 b.1) with hw1
  have hp0 : Performs s [.block 0 b.1, .sum 0 (updateCrc 0 b.1)] d₁ w0.1 w0.2 := by
    have h := writeThenCRC_performs d₁ 0 s buf hlen (updateCrc 0 b.1)
    rw [htake] at h
    exact h
  have hp1 : Performs s [.block 1 b.1, .sum 1 (updateCrc 0 b.1)] w0.2 w1.1 w1.2 := by
    have hdata : w0.2.data.writeBuffer = buf := by rw [hp0.frame]
    have h := writeThenCRC_performs w0.2 1 s buf hlen (updateCrc 0 b.1)
    rw [htake] at h
    rw [hw1, writeCopy, hdata]
    exact h
  have hout : (myWrite updateCrc d (.ofSector s b)).status
        = (if w0.1 ≠ .success then w0 else w1).1 ∧
      (myWrite updateCrc d (.ofSector s b)).driver
        = (if w0.1 ≠ .success then w0 else w1).2 := by
    have hb : b.1.take kernelSectorSize = b.1 := List.take_of_length_le b.2.le
    simp only [myWrite, validOffset_ofSector, requestSize_ofSector, byteOffset_ofSector,
      buffer_ofSector, hb, ← hbuf, htake, ← hd₁, ← hw0, ← hw1]
    by_cases h0 : w0.1 = .success
    · by_cases h1 : w1.1 = .success <;> simp [h0, h1]
    · simp [h0]
  rw [hout.1, hout.2]
  exact hp0.seq hp1

/-- Without failing IRPs, `readCopy` reads the copy of a sector and its CRC. -/
theorem readCopy_success {d : Driver} (hall : AllSucceed d) (k : Fin 2) (s : SectorId) :
    let c := readCopy d k kernelSectorSize (sectorOffset s)
    c.status = .success ∧ c.crc = crcSlot (d.physicalDevice k) s ∧ AllSucceed c.driver ∧
      c.driver.physicalDevice = d.physicalDevice ∧
      (c.driver.data.readBuffer k).take kernelSectorSize = sectorData (d.physicalDevice k) s ∧
      kernelSectorSize ≤ (c.driver.data.readBuffer k).length ∧
      ∀ l ≠ k, c.driver.data.readBuffer l = d.data.readBuffer l := by
  intro c
  obtain ⟨hst, hall₁⟩ := sendIrp_allSucceed hall k .read (d.data.readBuffer k) kernelSectorSize
    (sectorOffset s)
  have hbuf := sendIrp_read_buffer hst
  have hdev := sendIrp_read_devices d k (d.data.readBuffer k) kernelSectorSize (sectorOffset s)
  have hdata := sendIrp_data d k .read (d.data.readBuffer k) kernelSectorSize (sectorOffset s)
  set r := sendIrp d k .read (d.data.readBuffer k) kernelSectorSize (sectorOffset s) with hr
  set d₁ : Driver := { r.driver with data := { r.driver.data with
    readBuffer := Function.update r.driver.data.readBuffer k r.buffer } } with hd₁
  obtain ⟨hst', hall₂⟩ := sendIrp_allSucceed (d := d₁) hall₁ k .read d₁.crcBuffer
    kernelSectorSize (crcOffset (sectorOffset s))
  have hbuf' := sendIrp_read_buffer hst'
  have hdev' := sendIrp_read_devices d₁ k d₁.crcBuffer kernelSectorSize
    (crcOffset (sectorOffset s))
  have hdata' := sendIrp_data d₁ k .read d₁.crcBuffer kernelSectorSize (crcOffset (sectorOffset s))
  have hc : c = sendCRCIrp d₁ k .read (sectorOffset s) 0 := by
    simp only [c, readCopy, ← hr, ← hd₁, hst, ne_eq, not_true_eq_false, if_false]
    rw [if_neg (not_not.mpr (by exact hst'))]
  have hread : d₁.data.readBuffer k = splice (d.data.readBuffer k) 0
      (sectorData (d.physicalDevice k) s) := by
    simp only [hd₁, Function.update_self, hbuf]; rfl
  have hlen : (sectorData (d.physicalDevice k) s).length = kernelSectorSize :=
    length_readBytes _ _ _
  have hcdata : c.driver.data = d₁.data := by rw [hc]; exact hdata'
  rw [hcdata]
  refine ⟨by rw [hc]; exact hst', ?_, by rw [hc]; exact hall₂, ?_, ?_, ?_, ?_⟩
  · -- the slot is cut out of the CRC sector
    rw [hc]
    simp only [sendCRCIrp]
    rw [hbuf', show d₁.physicalDevice = d.physicalDevice from hdev, crcSlot, slotOffset,
      ← slice_readBytes (crcSegmentOffset_le s)]
    congr 1
    have hoff := crcSegmentOffset_le s
    simp only [splice, slice, List.take_zero, List.nil_append]
    rw [List.drop_append_of_le_length (by simp; omega),
      List.take_append_of_le_length (by simp; omega)]
  · rw [hc]
    exact hdev'.trans hdev
  · rw [hread, ← hlen, splice_zero_take]
  · rw [hread]
    simp [splice, hlen]
  · intro l hl
    rw [hd₁]
    simp only [Function.update_of_ne hl, hdata]

/-- The recovery branch of `MyRead` is a copy between the replicas. -/
theorem recover_performs (d : Driver) (src dst : Fin 2) (s : SectorId) (c : UInt32)
    (hlen : kernelSectorSize ≤ (d.data.readBuffer src).length) :
    Performs s [.block dst ((d.data.readBuffer src).take kernelSectorSize), .sum dst c] d
      (recover d src dst kernelSectorSize (sectorOffset s) c).1
      (recover d src dst kernelSectorSize (sectorOffset s) c).2 :=
  writeThenCRC_performs d dst s _ hlen c

/-- What `MyRead` completes with, without failing IRPs: the first copy where all is well, the
    caller's own bytes where one copy was repaired, and an error where none is in order. -/
theorem myRead_eq {d : Driver} (hall : AllSucceed d) (s : SectorId) (b : Sector) :
    ∃ d₁ d₂ d₃ : Driver, AllSucceed d₁ ∧ AllSucceed d₂ ∧ AllSucceed d₃ ∧
      d₁.physicalDevice = d.physicalDevice ∧
      d₂.mirror = transferAll s d.mirror (copyTransfers d.mirror s 0 1) ∧
      d₃.mirror = transferAll s d.mirror (copyTransfers d.mirror s 1 0) ∧
      myRead updateCrc d (.ofSector s b) =
        if (d.mirror 0).Valid (updateCrc 0) s ∧ (d.mirror 1).Valid (updateCrc 0) s ∧
            updateCrc 0 ((d.mirror 0).block s) = updateCrc 0 ((d.mirror 1).block s) then
          ⟨.success, kernelSectorSize, sectorData (d.physicalDevice 0) s, d₁⟩
        else if (d.mirror 0).Valid (updateCrc 0) s then ⟨.success, kernelSectorSize, b.1, d₂⟩
        else if (d.mirror 1).Valid (updateCrc 0) s then ⟨.success, kernelSectorSize, b.1, d₃⟩
        else ⟨.insufficientResources, 0, b.1, d₁⟩ := by
  obtain ⟨hst0, hcrc0, hall0, hdev0, hbuf0, hlen0, -⟩ := readCopy_success hall 0 s
  set c0 := readCopy d 0 kernelSectorSize (sectorOffset s) with hc0
  -- The second read leaves the first copy in its buffer.
  obtain ⟨hst1, hcrc1, hall1, hdev1, hbuf1, hlen1, hkeep⟩ := readCopy_success hall0 1 s
  set c1 := readCopy c0.driver 1 kernelSectorSize (sectorOffset s) with hc1
  rw [hdev0] at hcrc1 hdev1 hbuf1
  rw [← hkeep 0 (by decide)] at hbuf0 hlen0
  have hmir : c1.driver.mirror = d.mirror := by rw [Driver.mirror, hdev1]; rfl
  have h0 : c0.crc = updateCrc 0 (sectorData (d.physicalDevice 0) s) ↔
      (d.mirror 0).Valid (updateCrc 0) s := by rw [hcrc0]; rfl
  have h1 : c1.crc = updateCrc 0 (sectorData (d.physicalDevice 1) s) ↔
      (d.mirror 1).Valid (updateCrc 0) s := by rw [hcrc1]; rfl
  -- the two recoveries, as transfers of the mirror
  have hrec0 := recover_performs c1.driver 0 1 s c0.crc hlen0
  have hrec1 := recover_performs c1.driver 1 0 s c1.crc hlen1
  rw [hbuf0, hcrc0] at hrec0
  rw [hbuf1, hcrc1] at hrec1
  obtain ⟨hok0, hallr0⟩ := hrec0.total hall1
  obtain ⟨hok1, hallr1⟩ := hrec1.total hall1
  have hmir0 := hrec0.done hok0
  have hmir1 := hrec1.done hok1
  rw [hmir] at hmir0 hmir1
  -- A whole sector replaces the caller's buffer.
  have hcopy : splice b.1 0 (sectorData (d.physicalDevice 0) s) =
      sectorData (d.physicalDevice 0) s := by
    have hlen : (sectorData (d.physicalDevice 0) s).length = kernelSectorSize :=
      length_readBytes _ _ _
    rw [splice, List.take_zero, List.nil_append, hlen, Nat.zero_add,
      List.drop_eq_nil_of_le (Nat.le_of_eq b.2), List.append_nil]
  refine ⟨c1.driver, _, _, hall1, hallr0, hallr1, hdev1, hmir0, hmir1, ?_⟩
  simp only [myRead, validOffset_ofSector, requestSize_ofSector, byteOffset_ofSector,
    buffer_ofSector, ← hc0, ← hc1, hst0, hst1, hbuf0, hbuf1, ne_eq, not_true_eq_false, if_false,
    Bool.true_eq_false, h0, h1]
  rw [hcrc0, hcrc1, hok0, hok1, hcopy]
  simp only [not_true_eq_false, if_false]
  rfl

/-- **`MyRead` heals the mirror.**  Without failing IRPs, it succeeds exactly when some copy
    matches its CRC, and leaves the mirror healed, or as it was when there is no such copy. -/
theorem myRead_healed {d : Driver} (hall : AllSucceed d) (s : SectorId) (b : Sector) :
    let r := myRead updateCrc d (.ofSector s b)
    (r.status = .success ↔ (heal (updateCrc 0) d.mirror s).isSome) ∧
      r.driver.mirror = (heal (updateCrc 0) d.mirror s).getD d.mirror ∧ AllSucceed r.driver := by
  intro r
  obtain ⟨d₁, d₂, d₃, hall₁, hall₂, hall₃, hdev₁, hmir₂, hmir₃, heq⟩ :=
    myRead_eq updateCrc hall s b
  have hmir₁ : d₁.mirror = d.mirror := by rw [Driver.mirror, hdev₁]; rfl
  have hr : r = _ := heq
  -- The branches of `MyRead` are those of `heal`, in the same order.
  rw [hr, heal_eq]
  split
  · exact ⟨by simp, hmir₁, hall₁⟩
  split
  · exact ⟨by simp, hmir₂, hall₂⟩
  split
  · exact ⟨by simp, hmir₃, hall₃⟩
  · exact ⟨by simp, hmir₁, hall₁⟩

end WorkAtUPB.SimpleRAID
