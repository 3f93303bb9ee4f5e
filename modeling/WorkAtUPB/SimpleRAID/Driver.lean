import WorkAtUPB.Lib.Bytes
import WorkAtUPB.Lib.Mirror

namespace WorkAtUPB.SimpleRAID

open Bytes

/-!
# SimpleRAIDDriverWindows — the driver (`ssr.c`)

The logical disk stores every sector on two physical disks.  A physical disk has the data
area below `LOGICAL_DISK_SIZE` and, from there on, one 4-byte CRC slot for every sector,
128 slots to a CRC sector.  The model has the functions between the request and the
physical disks:

* `sendIrp` — one synchronous IRP to one disk (`SendIrp`);
* `sendCRCIrp` — read a CRC slot, or read-modify-write it (`SendCRCIrp`);
* `myRead`, `myWrite` — the dispatch routines of the logical disk.

What the disks answer is not in the driver's hands: `Driver.outcomes` lists the outcome of
every IRP still to be issued (an IRP beyond the list succeeds).  A driver that is stopped
after an IRP leaves the disks as one whose IRP fails there, since neither `myWrite` nor
`myRead` issues another IRP after a failed one.  `update_crc` is a parameter.
-/

/-- `KERNEL_SECTOR_SIZE`. -/
@[irreducible] def kernelSectorSize : Nat := 512

/-- `LOGICAL_DISK_SIZE`, 95 MB. -/
@[irreducible] def logicalDiskSize : Nat := 95 * 1024 * 1024

/-- `LOGICAL_DISK_SECTORS`. -/
def logicalDiskSectors : Nat := logicalDiskSize / kernelSectorSize

/-- `NTSTATUS`, as far as the driver tells statuses apart. -/
inductive Ntstatus where
  | success
  | insufficientResources
  | ioError
  deriving DecidableEq, Repr

/-- `IRP_MJ_READ` and `IRP_MJ_WRITE`. -/
inductive IrpMajor where
  | read
  | write
  deriving DecidableEq, Repr

/-- What becomes of one IRP: it succeeds, `IoBuildSynchronousFsdRequest` returns `NULL`, or
    the disk reports an error, having done all of the transfer or none of it. -/
inductive IrpOutcome where
  | success
  | notBuilt
  | failed (done : Bool)
  deriving DecidableEq, Repr

/-- `SSR_DEVICE_DATA`, the extension of the logical device. -/
structure SsrDeviceData where
  writeBuffer : List UInt8
  readBuffer : Fin 2 → List UInt8
  writeBufferSize : Nat

/-- The globals of the driver, the contents of the two physical disks, and the outcomes of
    the IRPs to come. -/
structure Driver where
  physicalDevice : Fin 2 → Mem
  crcBuffer : List UInt8
  data : SsrDeviceData
  outcomes : List IrpOutcome

/-! ### IRPs to one physical disk -/

/-- The transfer an IRP asks of disk `dev`: fill the first `length` bytes of the buffer, or
    store them. -/
def Driver.transfer (d : Driver) (dev : Fin 2) (major : IrpMajor) (buffer : List UInt8)
    (length offset : Nat) : List UInt8 × Driver :=
  match major with
  | .read => (splice buffer 0 (readBytes (d.physicalDevice dev) offset length), d)
  | .write =>
    (buffer, { d with
      physicalDevice := Function.update d.physicalDevice dev
        (writeBytes (d.physicalDevice dev) offset (buffer.take length)) })

/-- The result of an IRP: its status, the buffer and the driver afterwards. -/
structure IrpResult where
  status : Ntstatus
  buffer : List UInt8
  driver : Driver

/-- `SendIrp`: build the request, call the disk's driver and wait for its status. -/
def sendIrp (d : Driver) (dev : Fin 2) (major : IrpMajor) (buffer : List UInt8)
    (length offset : Nat) : IrpResult :=
  let issued := { d with outcomes := d.outcomes.tail }
  let done := issued.transfer dev major buffer length offset
  match d.outcomes.head?.getD .success with
  | .success => ⟨.success, done.1, done.2⟩
  | .notBuilt => ⟨.insufficientResources, buffer, issued⟩
  | .failed true => ⟨.ioError, done.1, done.2⟩
  | .failed false => ⟨.ioError, buffer, issued⟩

/-- `sectorID` in `SendCRCIrp`. -/
def sectorID (offset : Nat) : Nat := offset / kernelSectorSize

/-- `nCRCPerSector`: a CRC sector holds 128 slots. -/
def nCRCPerSector : Nat := kernelSectorSize / 4

/-- `crcOffset`: the CRC sector with the slot of the data sector at `offset`. -/
def crcOffset (offset : Nat) : Nat :=
  logicalDiskSize + sectorID offset / nCRCPerSector * kernelSectorSize

/-- `crcSegmentOffset`: where in its CRC sector the slot is. -/
def crcSegmentOffset (offset : Nat) : Nat := sectorID offset % nCRCPerSector * 4

/-- The result of a CRC request: its status, `*crc` and the driver afterwards. -/
structure CRCResult where
  status : Ntstatus
  crc : UInt32
  driver : Driver

/-- `SendCRCIrp`: for a write, first read the CRC sector and put the new CRC into it; then
    the IRP itself; for a read, take the CRC out of the sector read. -/
def sendCRCIrp (d : Driver) (dev : Fin 2) (major : IrpMajor) (offset : Nat) (crc : UInt32) :
    CRCResult :=
  match major with
  | .write =>
    let old := sendIrp d dev .read d.crcBuffer kernelSectorSize (crcOffset offset)
    let d := { old.driver with crcBuffer := old.buffer }
    if old.status ≠ .success then ⟨old.status, crc, d⟩
    -- Only the slot of the sector changes in the CRC sector that goes back to the disk.
    else
      let d := { d with crcBuffer := splice d.crcBuffer (crcSegmentOffset offset) (le32 crc) }
      let new := sendIrp d dev .write d.crcBuffer kernelSectorSize (crcOffset offset)
      ⟨new.status, crc, { new.driver with crcBuffer := new.buffer }⟩
  | .read =>
    let old := sendIrp d dev .read d.crcBuffer kernelSectorSize (crcOffset offset)
    ⟨old.status, ofLE32 (slice old.buffer (crcSegmentOffset offset) 4),
      { old.driver with crcBuffer := old.buffer }⟩

/-! ### The logical disk -/

/-- A read or write request to the logical disk: `ByteOffset`, `Length` and the caller's
    buffer. -/
structure Irp where
  byteOffset : Int
  length : Nat
  buffer : List UInt8

/-- A completed request: `IoStatus.Status`, `IoStatus.Information`, the caller's buffer, and
    the driver afterwards. -/
structure Completion where
  status : Ntstatus
  information : Nat
  buffer : List UInt8
  driver : Driver

/-- The offset test at the head of `MyRead` and `MyWrite`. -/
def validOffset (irp : Irp) : Bool :=
  0 ≤ irp.byteOffset && irp.byteOffset.toNat < logicalDiskSize

/-- `sizeRead` and `sizeWritten`: at most one sector per request. -/
def requestSize (irp : Irp) : Nat := min irp.length kernelSectorSize

variable (updateCrc : UInt32 → List UInt8 → UInt32)

/-- One round of the loop in `MyWrite`: the data to disk `dev`, then its CRC. -/
def writeCopy (d : Driver) (dev : Fin 2) (size offset : Nat) (crc : UInt32) :
    Ntstatus × Driver :=
  let r := sendIrp d dev .write d.data.writeBuffer size offset
  if r.status ≠ .success then (r.status, r.driver)
  else
    let c := sendCRCIrp r.driver dev .write offset crc
    (c.status, c.driver)

/-- `MyWrite`: at most one sector from the caller's buffer to both disks, stopping at the
    first IRP that fails. -/
def myWrite (d : Driver) (irp : Irp) : Completion :=
  let sizeWritten := requestSize irp
  if validOffset irp = false then ⟨.insufficientResources, 0, irp.buffer, d⟩
  else
    let offset := irp.byteOffset.toNat
    let d := { d with data := { d.data with
      writeBuffer := splice (List.replicate kernelSectorSize 0) 0 (irp.buffer.take sizeWritten)
      writeBufferSize := sizeWritten } }
    let crc := updateCrc 0 (d.data.writeBuffer.take sizeWritten)
    let w0 := writeCopy d 0 sizeWritten offset crc
    if w0.1 ≠ .success then ⟨w0.1, 0, irp.buffer, w0.2⟩
    else
      let w1 := writeCopy w0.2 1 sizeWritten offset crc
      if w1.1 ≠ .success then ⟨w1.1, 0, irp.buffer, w1.2⟩
      else ⟨w1.1, sizeWritten, irp.buffer, w1.2⟩

/-- One round of the loop in `MyRead`: the data of disk `dev` into `readBuffer[dev]`, then
    its CRC; whatever goes wrong is reported as `STATUS_INSUFFICIENT_RESOURCES`. -/
def readCopy (d : Driver) (dev : Fin 2) (size offset : Nat) : CRCResult :=
  let r := sendIrp d dev .read (d.data.readBuffer dev) size offset
  let d := { r.driver with data := { r.driver.data with
    readBuffer := Function.update r.driver.data.readBuffer dev r.buffer } }
  if r.status ≠ .success then ⟨.insufficientResources, 0, d⟩
  else
    let c := sendCRCIrp d dev .read offset 0
    if c.status ≠ .success then ⟨.insufficientResources, 0, c.driver⟩ else c

/-- The recovery branches of `MyRead`: the data read from disk `src`, then its CRC, to disk
    `dst`. -/
def recover (d : Driver) (src dst : Fin 2) (size offset : Nat) (crc : UInt32) :
    Ntstatus × Driver :=
  let r := sendIrp d dst .write (d.data.readBuffer src) size offset
  if r.status ≠ .success then (r.status, r.driver)
  else
    let c := sendCRCIrp r.driver dst .write offset crc
    (c.status, c.driver)

/-- `MyRead`: read both copies and compare them with their CRCs.  If all is well the first
    copy goes to the caller's buffer; if not, the first copy in order overwrites the other
    one (and nothing is copied to the caller); if there is none, the read fails. -/
def myRead (d : Driver) (irp : Irp) : Completion :=
  let sizeRead := requestSize irp
  if validOffset irp = false then ⟨.insufficientResources, 0, irp.buffer, d⟩
  else
    let offset := irp.byteOffset.toNat
    let c0 := readCopy d 0 sizeRead offset
    if c0.status ≠ .success then ⟨c0.status, 0, irp.buffer, c0.driver⟩
    else
      let c1 := readCopy c0.driver 1 sizeRead offset
      if c1.status ≠ .success then ⟨c1.status, 0, irp.buffer, c1.driver⟩
      else
        let d := c1.driver
        let crcReal (k : Fin 2) := updateCrc 0 ((d.data.readBuffer k).take sizeRead)
        if c0.crc = crcReal 0 ∧ c1.crc = crcReal 1 ∧ crcReal 0 = crcReal 1 then
          ⟨.success, sizeRead, splice irp.buffer 0 ((d.data.readBuffer 0).take sizeRead), d⟩
        else if c0.crc = crcReal 0 then
          let r := recover d 0 1 sizeRead offset c0.crc
          if r.1 ≠ .success then ⟨r.1, 0, irp.buffer, r.2⟩
          else ⟨r.1, sizeRead, irp.buffer, r.2⟩
        else if c1.crc = crcReal 1 then
          let r := recover d 1 0 sizeRead offset c1.crc
          if r.1 ≠ .success then ⟨r.1, 0, irp.buffer, r.2⟩
          else ⟨r.1, sizeRead, irp.buffer, r.2⟩
        else ⟨.insufficientResources, 0, irp.buffer, d⟩

end WorkAtUPB.SimpleRAID
