import WorkAtUPB.SimpleRAID.Refinement

namespace WorkAtUPB.SimpleRAID

open Bytes Mirroring

/-!
# Consistency of the two disks

What a user of the logical disk relies on, over whole runs:

* `serveAll_mirrored` — after any sequence of whole-sector requests whose IRPs succeed, both
  disks hold the last data written to every sector, with its CRC, and sectors that no
  request has addressed are untouched;
* `interrupted_write_heals` — a write that stops or fails at any IRP is undone or completed
  by the next read of the sector, and touches nothing else.
-/

variable (updateCrc : UInt32 → List UInt8 → UInt32)

/-- A whole-sector request to the logical disk. -/
inductive Request where
  | read (s : SectorId) (buffer : Sector)
  | write (s : SectorId) (data : Sector)

namespace Request

/-- The sector a request addresses. -/
def sector : Request → SectorId
  | read s _ => s
  | write s _ => s

/-- The data a request writes to `s`, if it does. -/
def dataFor (s : SectorId) : Request → Option Sector
  | read _ _ => none
  | write t b => if t = s then some b else none

end Request

/-- The dispatch of a request. -/
def dispatch (d : Driver) : Request → Completion
  | .read s buffer => myRead updateCrc d (.ofSector s buffer)
  | .write s data => myWrite updateCrc d (.ofSector s data)

/-- The driver after one request. -/
def serve (d : Driver) (r : Request) : Driver := (dispatch updateCrc d r).driver

/-- The driver after a sequence of requests. -/
def serveAll (d : Driver) (rs : List Request) : Driver := rs.foldl (serve updateCrc) d

/-- The data of the last request that wrote sector `s`. -/
def lastWritten (rs : List Request) (s : SectorId) : Option Sector :=
  (rs.filterMap (Request.dataFor s)).getLast?

theorem serveAll_concat (d : Driver) (rs : List Request) (r : Request) :
    serveAll updateCrc d (rs ++ [r]) = serve updateCrc (serveAll updateCrc d rs) r := by
  simp [serveAll]

/-- Only a write to `s` changes what was last written there. -/
theorem lastWritten_concat (rs : List Request) (r : Request) (s : SectorId) :
    lastWritten (rs ++ [r]) s = (r.dataFor s).or (lastWritten rs s) := by
  cases hr : r.dataFor s with
  | none => simp [lastWritten, List.filterMap_append, hr]
  | some b => simp [lastWritten, List.filterMap_append, hr]

/-! ### One request -/

/-- A request leaves every other sector alone, on both disks. -/
theorem serve_sameAt {d : Driver} (hall : AllSucceed d) (r : Request) {s : SectorId}
    (hs : r.sector ≠ s) : SameAt d.mirror (serve updateCrc d r).mirror s := by
  cases r with
  | read t buffer =>
    obtain ⟨-, hmir, -⟩ := myRead_healed updateCrc hall t buffer
    rw [serve, dispatch, hmir]
    cases hheal : heal (updateCrc 0) d.mirror t with
    | none => exact SameAt.refl _ s
    | some m' => exact heal_frame hheal hs.symm
  | write t b =>
    obtain ⟨data, hp⟩ := myWrite_performs updateCrc d t b
    rw [serve, dispatch, hp.done (hp.total hall).1]
    exact transferAll_sameAt _ _ hs.symm

/-- Later IRPs still succeed after a request. -/
theorem serve_allSucceed {d : Driver} (hall : AllSucceed d) (r : Request) :
    AllSucceed (serve updateCrc d r) := by
  cases r with
  | read t buffer => exact (myRead_healed updateCrc hall t buffer).2.2
  | write t b =>
    obtain ⟨data, hp⟩ := myWrite_performs updateCrc d t b
    exact (hp.total hall).2

/-- A write leaves both disks with its data. -/
theorem serve_write_synced {d : Driver} (hall : AllSucceed d) (s : SectorId) (b : Sector) :
    Synced (updateCrc 0) (serve updateCrc d (.write s b)).mirror s b.1 := by
  obtain ⟨data, hp⟩ := myWrite_performs updateCrc d s b
  rw [serve, dispatch, hp.done (hp.total hall).1]
  exact synced_write _ _ _ _

/-- A read of a sector on which the disks agree changes nothing there. -/
theorem serve_read_synced {d : Driver} (hall : AllSucceed d) {s : SectorId} {b : List UInt8}
    (hsync : Synced (updateCrc 0) d.mirror s b) (buffer : Sector) :
    Synced (updateCrc 0) (serve updateCrc d (.read s buffer)).mirror s b := by
  obtain ⟨-, hmir, -⟩ := myRead_healed updateCrc hall s buffer
  rw [serve, dispatch, hmir, heal_synced hsync]
  exact hsync

/-! ### Sequences of requests -/

theorem serveAll_allSucceed {d : Driver} (hall : AllSucceed d) (rs : List Request) :
    AllSucceed (serveAll updateCrc d rs) := by
  induction rs using List.reverseRecOn with
  | nil => exact hall
  | append_singleton rs r ih =>
    rw [serveAll_concat]
    exact serve_allSucceed updateCrc ih r

/-- The disks agree on the last data written to a sector. -/
theorem serveAll_synced {d : Driver} (hall : AllSucceed d) (rs : List Request) {s : SectorId}
    {b : Sector} (hb : lastWritten rs s = some b) :
    Synced (updateCrc 0) (serveAll updateCrc d rs).mirror s b.1 := by
  induction rs using List.reverseRecOn with
  | nil => simp [lastWritten] at hb
  | append_singleton rs r ih =>
    -- The last request wrote the sector, read it, or was for another one.
    have hall' := serveAll_allSucceed updateCrc hall rs
    rw [serveAll_concat]
    rw [lastWritten_concat] at hb
    by_cases hs : r.sector = s
    · subst hs
      cases r with
      | read t buffer => exact serve_read_synced updateCrc hall' (ih hb) buffer
      | write t b' =>
        have heq : b' = b := by simpa [Request.dataFor, Request.sector] using hb
        subst heq
        exact serve_write_synced updateCrc hall' t b'
    · have hnone : r.dataFor s = none := by
        cases r with
        | read t buffer => rfl
        | write t b' => exact if_neg hs
      rw [hnone, Option.none_or] at hb
      exact (ih hb).of_sameAt (serve_sameAt updateCrc hall' r hs)

/-- Sectors that no request addresses stay as they are. -/
theorem serveAll_sameAt {d : Driver} (hall : AllSucceed d) (rs : List Request) {s : SectorId}
    (hs : ∀ r ∈ rs, r.sector ≠ s) : SameAt d.mirror (serveAll updateCrc d rs).mirror s := by
  induction rs using List.reverseRecOn with
  | nil => exact SameAt.refl _ s
  | append_singleton rs r ih =>
    rw [serveAll_concat]
    have hrs : ∀ r ∈ rs, r.sector ≠ s := fun r hr => hs r (by simp [hr])
    exact (ih hrs).trans
      (serve_sameAt updateCrc (serveAll_allSucceed updateCrc hall rs) r (hs r (by simp)))

/-- **The mirror invariant.**  After every sequence of whole-sector requests whose IRPs all
    succeed, each sector written so far holds on both disks exactly the last data written to
    it and has the CRC of that data in its slot; data and slot of every sector that no
    request has addressed are unchanged on both disks. -/
theorem serveAll_mirrored (d : Driver) (hall : AllSucceed d) (rs : List Request) :
    let disks := (serveAll updateCrc d rs).physicalDevice
    (∀ s b, lastWritten rs s = some b → ∀ k,
      sectorData (disks k) s = b.1 ∧ crcSlot (disks k) s = updateCrc 0 b.1) ∧
    ∀ s, (∀ r ∈ rs, r.sector ≠ s) → ∀ k,
      sectorData (disks k) s = sectorData (d.physicalDevice k) s ∧
        crcSlot (disks k) s = crcSlot (d.physicalDevice k) s := by
  intro disks
  exact ⟨fun s b hb k => serveAll_synced updateCrc hall rs hb k,
    fun s hs k => serveAll_sameAt updateCrc hall rs hs k⟩

/-- A driver over two zeroed disks that answer every IRP. -/
def blankDriver : Driver where
  physicalDevice := fun _ _ => 0
  crcBuffer := []
  data := ⟨[], fun _ => [], 0⟩
  outcomes := []

/-- The sector filled with `x`. -/
def filledSector (x : UInt8) : Sector :=
  ⟨List.replicate kernelSectorSize x, by simp⟩

theorem logicalDiskSectors_pos : 0 < logicalDiskSectors :=
  Nat.div_pos (by simp [kernelSectorSize, logicalDiskSize]) (by simp [kernelSectorSize])

/-- The first sector. -/
def firstSector : SectorId := ⟨0, logicalDiskSectors_pos⟩

/-- The mirror invariant on a run that writes a sector, reads it and writes it again, on the
    second disk. -/
theorem serveAll_mirrored_rewrite :
    sectorData ((serveAll (fun _ bs => bs.foldl (fun c x => c + x.toUInt32) 0) blankDriver
      [.write firstSector (filledSector 1), .read firstSector (filledSector 0),
        .write firstSector (filledSector 2)]).physicalDevice 1) firstSector
      = (filledSector 2).1 :=
  ((serveAll_mirrored _ blankDriver (by simp [AllSucceed, blankDriver]) _).1 firstSector
    (filledSector 2) (by simp [lastWritten, Request.dataFor, List.getLast?_cons]) 1).1

/-! ### Interrupted writes -/

/-- **Interrupted writes heal.**  Let both disks hold `old` at `s` with its CRC, and let
    `MyWrite` write `new`, whose CRC is another one, while IRPs stop or fail in any way.
    A later `MyRead` of `s` by a driver whose IRPs succeed reports success and leaves both
    disks with `old` or both with `new` at `s`, with matching CRC slots; no other sector or
    slot of either disk differs from before the write. -/
theorem interrupted_write_heals (d : Driver) (s : SectorId) (old new : Sector)
    (hold : ∀ k, sectorData (d.physicalDevice k) s = old.1 ∧
      crcSlot (d.physicalDevice k) s = updateCrc 0 old.1)
    (hne : updateCrc 0 old.1 ≠ updateCrc 0 new.1)
    (d' : Driver) (hall : AllSucceed d')
    (hcrash : d'.physicalDevice
      = (myWrite updateCrc d (.ofSector s new)).driver.physicalDevice)
    (buffer : Sector) :
    let r := myRead updateCrc d' (.ofSector s buffer)
    let disks := r.driver.physicalDevice
    r.status = .success ∧
    (∃ b, (b = old ∨ b = new) ∧ ∀ k,
      sectorData (disks k) s = b.1 ∧ crcSlot (disks k) s = updateCrc 0 b.1) ∧
    ∀ t ≠ s, ∀ k, sectorData (disks k) t = sectorData (d.physicalDevice k) t ∧
      crcSlot (disks k) t = crcSlot (d.physicalDevice k) t := by
  intro r disks
  obtain ⟨data, hp⟩ := myWrite_performs updateCrc d s new
  -- the disks hold a prefix of the write
  obtain ⟨n, htorn⟩ := hp.torn
  have hmir : d'.mirror
      = transferAll s d.mirror ((writeTransfers (updateCrc 0) new.1).take n) := by
    rw [Driver.mirror, hcrash]
    exact htorn
  obtain ⟨m', b, hheal, hb, hsync⟩ := heal_torn_write (f := updateCrc 0) (m := d.mirror) hold hne n
  rw [← hmir] at hheal
  obtain ⟨hst, hread, -⟩ := myRead_healed updateCrc hall s buffer
  rw [hheal] at hst hread
  have hm' : mirrorOf disks = m' := hread
  refine ⟨hst.mpr rfl, ?_, ?_⟩
  · rcases hb with hb | hb
    · exact ⟨old, Or.inl rfl, fun k => by have h := hsync k; rw [← hm', hb] at h; exact h⟩
    · exact ⟨new, Or.inr rfl, fun k => by have h := hsync k; rw [← hm', hb] at h; exact h⟩
  · -- neither the write nor the repair goes to another sector
    intro t ht
    have hwrite : SameAt d.mirror d'.mirror t := hmir ▸ transferAll_sameAt _ _ ht
    have hboth := hwrite.trans (heal_frame hheal ht)
    intro k
    have h := hboth k
    rw [← hm'] at h
    exact h

/-- On zeroed disks every sector is zero and so is every CRC slot. -/
theorem blankDriver_content (k : Fin 2) (s : SectorId) :
    sectorData (blankDriver.physicalDevice k) s = (filledSector 0).1 ∧
      crcSlot (blankDriver.physicalDevice k) s = 0 := by
  constructor
  · simp [sectorData, blankDriver, readBytes, filledSector, List.map_const']
  · simp [crcSlot, blankDriver, readBytes, ofLE32, List.map_const']

theorem headD_filledSector (x : UInt8) : (filledSector x).1.headD 0 = x := by
  have hpos : ∀ n, n ≠ 0 → (List.replicate n x).headD 0 = x := by
    intro n hn
    obtain ⟨m, rfl⟩ := Nat.exists_eq_succ_of_ne_zero hn
    rfl
  exact hpos kernelSectorSize (by simp [kernelSectorSize])

/-- A write of ones over zeroed disks stops between the first data IRP and its CRC; the next
    read repairs the first disk. -/
theorem interrupted_write_heals_torn :
    let crc : UInt32 → List UInt8 → UInt32 := fun _ bs => (bs.headD 0).toUInt32
    let crashed := (myWrite crc { blankDriver with outcomes := [.success, .failed false] }
      (.ofSector firstSector (filledSector 1))).driver.physicalDevice
    (myRead crc { blankDriver with physicalDevice := crashed }
      (.ofSector firstSector (filledSector 9))).status = .success := by
  intro crc crashed
  have hold : ∀ k, sectorData (blankDriver.physicalDevice k) firstSector = (filledSector 0).1 ∧
      crcSlot (blankDriver.physicalDevice k) firstSector = crc 0 (filledSector 0).1 :=
    fun k => by
      simp only [crc, headD_filledSector]
      exact blankDriver_content k firstSector
  exact (interrupted_write_heals crc { blankDriver with outcomes := [.success, .failed false] }
    firstSector (filledSector 0) (filledSector 1) hold
    (by simp only [crc, headD_filledSector]; decide)
    { blankDriver with physicalDevice := crashed } (by simp [AllSucceed, blankDriver]) rfl
    (filledSector 9)).1

end WorkAtUPB.SimpleRAID
