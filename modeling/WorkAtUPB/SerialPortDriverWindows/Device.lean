import WorkAtUPB.Lib.Baton
import WorkAtUPB.Lib.Bytes
import WorkAtUPB.Lib.Flags
import WorkAtUPB.Lib.Run

namespace WorkAtUPB.SerialPortDriverWindows

open Bytes Run Flags Baton

/-!
# SerialPortDriverWindows — the device (`uart16550.c`)

`UartRead` and `UartWrite` on any number of threads, and the interrupt handler.  The two share the
register IER: each of them reads it and writes it back with one more bit, and an interrupt or the
other one can come in between.

* `Device`, `Device.step` — the device, the places of the threads, and a step of any of them;
* `Orderly` — of each direction, exactly one is in turn: its interrupt, its event or one thread;
* `Careful` — what is written back to IER has the other bit as it is, and what is copied has room;
* `always_orderly_iff` — one holds along a run exactly when the other does;
* `uartRead_delivers` — and then what is read is what has arrived.

The handler is one step.
-/

/-! ### The registers -/

/-- `IER_RDAI`, the bit of the receive interrupt. -/
def IER_RDAI : BitVec 8 := 0x01

/-- `IER_THREI`, the bit of the transmit interrupt. -/
def IER_THREI : BitVec 8 := 0x02

/-- `IIR_RDAI(X)` -/
def iirRdai (x : BitVec 8) : BitVec 8 := (x >>> 2) &&& 0x1

/-- `IIR_THREI(X)` -/
def iirThrei (x : BitVec 8) : BitVec 8 := (x >>> 1) &&& 0x1

/-- `SIZE` -/
def bufferSize : Nat := 512

/-! ### The threads -/

/-- Where a thread is in `UartRead`, for a buffer of `length` bytes: it waits for the event, is
    about to read `data->read`, in `RtlCopyMemory`, before `data->read = 0`, in `IoCompleteRequest`,
    or before the reading or the writing of IER. -/
inductive UartRead where
  | idle
  | waiting (length : Nat)
  | woken (length : Nat)
  | copying (length result : Nat)
  | copied (length : Nat) (bytes : List UInt8)
  | completing (length : Nat) (bytes : List UInt8)
  | enabling
  | storing (ier : BitVec 8)
  deriving DecidableEq, Repr

/-- Where a thread is in `UartWrite`: in `RtlCopyMemory` with some bytes of `data` copied (and, with
    all of them, in `KeWaitForSingleObject`), in `IoCompleteRequest`, or before the reading or the
    writing of IER. -/
inductive UartWrite where
  | idle
  | copying (data : List UInt8) (copied : Nat)
  | completing (data : List UInt8)
  | enabling
  | storing (ier : BitVec 8)
  deriving DecidableEq, Repr

/-- The thread is past the wait. -/
def UartRead.working : UartRead → Bool
  | .idle | .waiting _ => false
  | .woken _ | .copying .. | .copied .. | .completing .. | .enabling | .storing _ => true

/-- The thread is past the wait. -/
def UartWrite.working : UartWrite → Bool
  | .idle | .copying .. => false
  | .completing _ | .enabling | .storing _ => true

/-- What has been copied fits into the buffer of the request. -/
def UartRead.Within : UartRead → Prop
  | .copied length bytes | .completing length bytes => bytes.length ≤ length
  | .idle | .waiting _ | .woken _ | .copying .. | .enabling | .storing _ => True

/-! ### The device -/

/-- `UART_DEVICE_DATA`, with `read_buffer` and, behind it, `write_buffer` as `buffers`; the register
    IER, the bytes that wait in the port and those that were sent to it; the threads; and all bytes
    that have arrived, with the data of the completed requests. -/
structure Device (ι : Type*) where
  buffers : Mem
  read : Nat
  write : Nat
  eventReads : Bool
  eventWrites : Bool
  ier : BitVec 8
  port : List UInt8
  sent : List UInt8
  uartRead : ι → UartRead
  uartWrite : ι → UartWrite
  arrived : List UInt8
  delivered : List (List UInt8)
  reported : List (List UInt8)

namespace Device

variable {ι : Type*}

/-- After `do_requests`. -/
def doRequests : Device ι where
  buffers := fun _ => 0
  read := 0
  write := 0
  eventReads := false
  eventWrites := false
  ier := IER_THREI ||| IER_RDAI
  port := []
  sent := []
  uartRead := fun _ => .idle
  uartWrite := fun _ => .idle
  arrived := []
  delivered := []
  reported := []

/-! #### The handler -/

/-- The branch of the handler for the receive interrupt. -/
def received (d : Device ι) : Device ι :=
  { d with
    ier := d.ier &&& ~~~IER_RDAI
    buffers := writeBytes d.buffers d.read d.port
    read := d.read + d.port.length
    port := []
    eventReads := true }

/-- The branch of the handler for the transmit interrupt. -/
def transmitted (d : Device ι) : Device ι :=
  { d with
    ier := d.ier &&& ~~~IER_THREI
    sent := d.sent ++ readBytes d.buffers bufferSize d.write
    eventWrites := true }

/-- `UartInterruptHandler`, for the value of IIR. -/
def uartInterruptHandler (d : Device ι) (iir : BitVec 8) : Device ι :=
  let d := if iirRdai iir ≠ 0 then d.received else d
  if iirThrei iir ≠ 0 then d.transmitted else d

/-- The port interrupts with this value of IIR. -/
def Raised (d : Device ι) (iir : BitVec 8) : Prop :=
  (iirRdai iir ≠ 0 → test d.ier IER_RDAI = true ∧ d.port ≠ []) ∧
  (iirThrei iir ≠ 0 → test d.ier IER_THREI = true)

instance (d : Device ι) (iir : BitVec 8) : Decidable (d.Raised iir) :=
  inferInstanceAs (Decidable ((_ → _ ∧ _) ∧ (_ → _)))

/-! #### The requests -/

variable [DecidableEq ι]

/-- The thread is somewhere else in `UartRead`. -/
def setRead (d : Device ι) (i : ι) (p : UartRead) : Device ι :=
  { d with uartRead := Function.update d.uartRead i p }

/-- The thread is somewhere else in `UartWrite`. -/
def setWrite (d : Device ι) (i : ι) (p : UartWrite) : Device ι :=
  { d with uartWrite := Function.update d.uartWrite i p }

/-- The next step of a thread in `UartRead`. -/
def readStep (d : Device ι) (i : ι) : Option (Device ι) :=
  match d.uartRead i with
  | .idle => none
  | .waiting length =>
    if d.eventReads = true then some ({ d with eventReads := false }.setRead i (.woken length))
    else none
  | .woken length => some (d.setRead i (.copying length d.read))
  | .copying length result =>
    some (d.setRead i (.copied length (readBytes d.buffers 0 result)))
  | .copied length bytes => some ({ d with read := 0 }.setRead i (.completing length bytes))
  | .completing _ bytes =>
    some ({ d with delivered := d.delivered ++ [bytes] }.setRead i .enabling)
  | .enabling => some (d.setRead i (.storing d.ier))
  | .storing ier => some ({ d with ier := ier ||| IER_RDAI }.setRead i .idle)

/-- `UartWrite` up to `RtlCopyMemory`. -/
def startWrite (d : Device ι) (i : ι) (systemBuffer : List UInt8) : Device ι :=
  let length := systemBuffer.length
  let write := if length < 14 then length else 14
  { d with write := write }.setWrite i (.copying (systemBuffer.take write) 0)

/-- The next step of a thread in `UartWrite`. -/
def writeStep (d : Device ι) (i : ι) : Option (Device ι) :=
  match d.uartWrite i with
  | .idle => none
  | .copying data copied =>
    match data[copied]? with
    | some c =>
      some ({ d with buffers := Function.update d.buffers (bufferSize + copied) c }.setWrite i
        (.copying data (copied + 1)))
    | none =>
      if d.eventWrites = true then
        some ({ d with eventWrites := false }.setWrite i (.completing data))
      else none
  | .completing data => some ({ d with reported := d.reported ++ [data] }.setWrite i .enabling)
  | .enabling => some (d.setWrite i (.storing d.ier))
  | .storing ier => some ({ d with ier := ier ||| IER_THREI }.setWrite i .idle)

/-- A byte arrives, the port interrupts, a thread begins a request or takes its next step, or its
    wait is alerted. -/
inductive Action (ι : Type*) where
  | arrive (c : UInt8)
  | uartInterruptHandler (iir : BitVec 8)
  | startRead (i : ι) (length : Nat)
  | readStep (i : ι)
  | alertRead (i : ι)
  | startWrite (i : ι) (systemBuffer : List UInt8)
  | writeStep (i : ι)
  | alertWrite (i : ι)
  deriving DecidableEq, Repr

/-- One step of the port, of a thread, or of the handler. -/
def step (d : Device ι) : Action ι → Option (Device ι)
  | .arrive c => some { d with port := d.port ++ [c], arrived := d.arrived ++ [c] }
  | .uartInterruptHandler iir =>
    if d.Raised iir then some (d.uartInterruptHandler iir) else none
  | .startRead i length =>
    if d.uartRead i = .idle then some (d.setRead i (.waiting length)) else none
  | .readStep i => d.readStep i
  | .alertRead i =>
    match d.uartRead i with
    -- The request is left as it is.
    | .waiting _ => some (d.setRead i .idle)
    | _ => none
  | .startWrite i systemBuffer =>
    if d.uartWrite i = .idle then some (d.startWrite i systemBuffer) else none
  | .writeStep i => d.writeStep i
  | .alertWrite i =>
    match d.uartWrite i with
    | .copying data copied =>
      -- The status of the wait is not looked at.
      if copied = data.length then some (d.setWrite i (.completing data)) else none
    | _ => none

/-! ### Who is in turn -/

/-- The receive interrupt, its event and the threads in `UartRead`. -/
def reads (d : Device ι) : Relay ι :=
  ⟨test d.ier IER_RDAI, d.eventReads, fun i => (d.uartRead i).working⟩

/-- The transmit interrupt, its event and the threads in `UartWrite`. -/
def writes (d : Device ι) : Relay ι :=
  ⟨test d.ier IER_THREI, d.eventWrites, fun i => (d.uartWrite i).working⟩

/-- Of each direction exactly one is in turn, and no bytes are copied beyond a buffer. -/
structure Orderly (d : Device ι) : Prop where
  reads : Single d.reads
  writes : Single d.writes
  room : d.read ≤ bufferSize
  within : ∀ i, (d.uartRead i).Within

/-- What is read has room in the buffer of the request, and `UartRead` writes IER back with the bit
    of the other direction as it is by then. -/
def CarefulRead (d : Device ι) : UartRead → Prop
  | .copying length result => result ≤ length
  | .storing ier => test ier IER_THREI = test d.ier IER_THREI
  | .idle | .waiting _ | .woken _ | .copied .. | .completing .. | .enabling => True

/-- `UartWrite` writes IER back with the bit of the other direction as it is by then. -/
def CarefulWrite (d : Device ι) : UartWrite → Prop
  | .storing ier => test ier IER_RDAI = test d.ier IER_RDAI
  | .idle | .copying .. | .completing _ | .enabling => True

/-- `UartWrite` is not in its wait. -/
def NotWaiting : UartWrite → Prop
  | .copying data copied => copied ≠ data.length
  | .idle | .completing _ | .enabling | .storing _ => True

/-- The requests take care; what arrives at once has room in the buffer; and no wait of `UartWrite`
    is alerted. -/
def Careful (d : Device ι) : Action ι → Prop
  | .uartInterruptHandler iir =>
    d.Raised iir → iirRdai iir ≠ 0 → d.read + d.port.length ≤ bufferSize
  | .readStep i => d.CarefulRead (d.uartRead i)
  | .writeStep i => d.CarefulWrite (d.uartWrite i)
  | .alertWrite i => NotWaiting (d.uartWrite i)
  | .arrive _ | .startRead .. | .alertRead _ | .startWrite .. => True

instance (d : Device ι) : (p : UartRead) → Decidable (d.CarefulRead p)
  | .copying .. => inferInstanceAs (Decidable (_ ≤ _))
  | .storing _ => inferInstanceAs (Decidable (_ = _))
  | .idle | .waiting _ | .woken _ | .copied .. | .completing .. | .enabling =>
    inferInstanceAs (Decidable True)

instance (d : Device ι) : (p : UartWrite) → Decidable (d.CarefulWrite p)
  | .storing _ => inferInstanceAs (Decidable (_ = _))
  | .idle | .copying .. | .completing _ | .enabling => inferInstanceAs (Decidable True)

instance : (p : UartWrite) → Decidable (NotWaiting p)
  | .copying .. => inferInstanceAs (Decidable (_ ≠ _))
  | .idle | .completing _ | .enabling | .storing _ => inferInstanceAs (Decidable True)

instance (d : Device ι) : (a : Action ι) → Decidable (Careful d a)
  | .uartInterruptHandler _ => inferInstanceAs (Decidable (_ → _ → _))
  | .readStep i => inferInstanceAs (Decidable (d.CarefulRead (d.uartRead i)))
  | .writeStep i => inferInstanceAs (Decidable (d.CarefulWrite (d.uartWrite i)))
  | .alertWrite i => inferInstanceAs (Decidable (NotWaiting (d.uartWrite i)))
  | .arrive _ | .startRead .. | .alertRead _ | .startWrite .. => inferInstanceAs (Decidable True)

variable {d : Device ι} {i : ι}

/-- A thread that moves in `UartRead` is at work there or not. -/
@[simp] theorem reads_setRead (d : Device ι) (i : ι) (p : UartRead) :
    (d.setRead i p).reads = d.reads.setWorking i p.working := by
  have hworking : (fun j => (Function.update d.uartRead i p j).working) =
      Function.update (fun j => (d.uartRead j).working) i p.working := by
    funext j
    exact Function.apply_update (fun _ => UartRead.working) _ _ _ _
  simp only [reads, setRead, Relay.setWorking, hworking]

/-- A thread that moves in `UartWrite` is at work there or not. -/
@[simp] theorem writes_setWrite (d : Device ι) (i : ι) (p : UartWrite) :
    (d.setWrite i p).writes = d.writes.setWorking i p.working := by
  have hworking : (fun j => (Function.update d.uartWrite i p j).working) =
      Function.update (fun j => (d.uartWrite j).working) i p.working := by
    funext j
    exact Function.apply_update (fun _ => UartWrite.working) _ _ _ _
  simp only [writes, setWrite, Relay.setWorking, hworking]

/-- Only the thread that moves can leave its buffer. -/
theorem within_setRead_iff (h : ∀ j, (d.uartRead j).Within) (p : UartRead) :
    (∀ j, ((d.setRead i p).uartRead j).Within) ↔ p.Within := by
  show (∀ j, (Function.update d.uartRead i p j).Within) ↔ p.Within
  rw [Function.forall_update_iff d.uartRead fun _ q => q.Within]
  exact and_iff_left fun j _ => h j

omit [DecidableEq ι] in
/-- The device is in order at first. -/
theorem orderly_doRequests : Orderly (doRequests : Device ι) where
  reads := by
    have henabled : test (IER_THREI ||| IER_RDAI) IER_RDAI = true := by decide
    simpa only [reads, doRequests, henabled, UartRead.working] using single_start
  writes := by
    have henabled : test (IER_THREI ||| IER_RDAI) IER_THREI = true := by decide
    simpa only [writes, doRequests, henabled, UartWrite.working] using single_start
  room := Nat.zero_le bufferSize
  within := fun _ => trivial

/-! #### The handler -/

omit [DecidableEq ι]

/-- The receive interrupt stays enabled when the other one is disabled. -/
theorem test_rdai_clear (ier : BitVec 8) :
    test (ier &&& ~~~IER_THREI) IER_RDAI = test ier IER_RDAI :=
  test_clear_of_disjoint ier (by decide)

/-- The transmit interrupt stays enabled when the other one is disabled. -/
theorem test_threi_clear (ier : BitVec 8) :
    test (ier &&& ~~~IER_RDAI) IER_THREI = test ier IER_THREI :=
  test_clear_of_disjoint ier (by decide)

/-- The receive interrupt needs room for the bytes in the port. -/
theorem orderly_received (h : Orderly d) (henabled : test d.ier IER_RDAI = true) :
    Orderly d.received ↔ d.read + d.port.length ≤ bufferSize := by
  refine ⟨Orderly.room, fun hroom => ⟨?_, ?_, hroom, h.within⟩⟩
  · have hreads : d.received.reads = d.reads.interrupt := by
      simp [reads, received, Relay.interrupt, test_clear]
    rw [hreads]
    exact h.reads.interrupt henabled
  · have hwrites : d.received.writes = d.writes := by
      simp [writes, received, test_threi_clear]
    rw [hwrites]
    exact h.writes

/-- The transmit interrupt passes the turn to its event. -/
theorem orderly_transmitted (h : Orderly d) (henabled : test d.ier IER_THREI = true) :
    Orderly d.transmitted := by
  refine ⟨?_, ?_, h.room, h.within⟩
  · have hreads : d.transmitted.reads = d.reads := by
      simp [reads, transmitted, test_rdai_clear]
    rw [hreads]
    exact h.reads
  · have hwrites : d.transmitted.writes = d.writes.interrupt := by
      simp [writes, transmitted, Relay.interrupt, test_clear]
    rw [hwrites]
    exact h.writes.interrupt henabled

/-- The handler needs room for the bytes in the port, if it takes them. -/
theorem orderly_uartInterruptHandler_iff (h : Orderly d) {iir : BitVec 8} (hraised : d.Raised iir) :
    Orderly (d.uartInterruptHandler iir) ↔
      (iirRdai iir ≠ 0 → d.read + d.port.length ≤ bufferSize) := by
  rw [uartInterruptHandler]
  by_cases hrdai : iirRdai iir ≠ 0
  · have hreceived := orderly_received h (hraised.1 hrdai).1
    simp only [hrdai, ne_eq, not_false_eq_true, true_imp_iff]
    split
    next hthrei =>
      have henabled : test d.received.ier IER_THREI = true :=
        (test_threi_clear d.ier).trans (hraised.2 hthrei)
      exact ⟨fun h' => h'.room, fun hroom => orderly_transmitted (hreceived.mpr hroom) henabled⟩
    next => exact hreceived
  · simp only [if_neg hrdai]
    split
    next hthrei =>
      exact iff_of_true (orderly_transmitted h (hraised.2 hthrei)) fun hne => absurd hne hrdai
    next => exact iff_of_true h fun hne => absurd hne hrdai

/-! #### The threads -/

variable [DecidableEq ι]

/-- The bit of the other direction is written back to IER. -/
theorem test_threi_set (ier : BitVec 8) : test (ier ||| IER_RDAI) IER_THREI = test ier IER_THREI :=
  test_set_of_disjoint ier (by decide)

/-- The same for the other bit. -/
theorem test_rdai_set (ier : BitVec 8) : test (ier ||| IER_THREI) IER_RDAI = test ier IER_RDAI :=
  test_set_of_disjoint ier (by decide)

/-- A thread goes on in `UartRead`, on one side of the wait. -/
theorem Orderly.setRead_iff (h : Orderly d) {p : UartRead}
    (hworking : p.working = (d.uartRead i).working) : Orderly (d.setRead i p) ↔ p.Within := by
  have hreads : (d.setRead i p).reads = d.reads := by
    rw [reads_setRead, hworking]
    exact setWorking_self d.reads i
  refine ⟨fun h' => (within_setRead_iff h.within p).mp h'.within, fun hp => ?_⟩
  exact ⟨hreads ▸ h.reads, h.writes, h.room, (within_setRead_iff h.within p).mpr hp⟩

/-- A thread goes on in `UartWrite`, on one side of the wait. -/
theorem Orderly.setWrite (h : Orderly d) {p : UartWrite}
    (hworking : p.working = (d.uartWrite i).working) : Orderly (d.setWrite i p) := by
  have hwrites : (d.setWrite i p).writes = d.writes := by
    rw [writes_setWrite, hworking]
    exact setWorking_self d.writes i
  exact ⟨h.reads, hwrites ▸ h.writes, h.room, h.within⟩

/-- A step of `UartRead` keeps the order exactly if it is careful. -/
theorem orderly_readStep_iff (h : Orderly d) {d' : Device ι} (hd' : d.readStep i = some d') :
    Orderly d' ↔ Careful d (.readStep i) := by
  rw [readStep] at hd'
  rw [Careful]
  cases hplace : d.uartRead i with
  | idle =>
    rw [hplace] at hd'
    cases hd'
  -- The thread takes the turn over from the event.
  | waiting length =>
    rw [hplace] at hd'
    obtain ⟨hevent, hd'⟩ := Option.ite_none_right_eq_some.mp hd'
    obtain rfl := Option.some.inj hd'
    refine iff_of_true ⟨?_, h.writes, h.room, (within_setRead_iff h.within _).mpr trivial⟩ trivial
    rw [reads_setRead]
    exact h.reads.wait hevent
  | woken length =>
    rw [hplace] at hd'
    obtain rfl := Option.some.inj hd'
    exact (h.setRead_iff (by rw [hplace]; rfl)).trans (iff_of_true trivial trivial)
  -- What is copied has to fit into the buffer of the request.
  | copying length result =>
    rw [hplace] at hd'
    obtain rfl := Option.some.inj hd'
    rw [h.setRead_iff (by rw [hplace]; rfl), UartRead.Within, length_readBytes]
    exact Iff.rfl
  | copied length bytes =>
    rw [hplace] at hd'
    obtain rfl := Option.some.inj hd'
    have hreset : Orderly { d with read := 0 } := ⟨h.reads, h.writes, Nat.zero_le _, h.within⟩
    have hwithin := h.within i
    rw [hplace] at hwithin
    exact (hreset.setRead_iff (by rw [hplace]; rfl)).trans (iff_of_true hwithin trivial)
  | completing length bytes =>
    rw [hplace] at hd'
    obtain rfl := Option.some.inj hd'
    have hdelivered : Orderly { d with delivered := d.delivered ++ [bytes] } :=
      ⟨h.reads, h.writes, h.room, h.within⟩
    exact (hdelivered.setRead_iff (by rw [hplace]; rfl)).trans (iff_of_true trivial trivial)
  | enabling =>
    rw [hplace] at hd'
    obtain rfl := Option.some.inj hd'
    exact (h.setRead_iff (by rw [hplace]; rfl)).trans (iff_of_true trivial trivial)
  | storing ier =>
    rw [hplace] at hd'
    obtain rfl := Option.some.inj hd'
    -- For reading the turn goes back to the interrupt.
    have hreads : Single ({ d with ier := ier ||| IER_RDAI }.setRead i .idle).reads := by
      have hworking : d.reads.working i = true := by
        show (d.uartRead i).working = true
        rw [hplace]
        rfl
      have hrdai : test (ier ||| IER_RDAI) IER_RDAI = true := test_set ier (by decide)
      rw [reads_setRead, Device.reads, hrdai]
      exact h.reads.rearm hworking
    -- For writing it stays where it is, unless the other bit has changed since it was read.
    have hwrites : Single ({ d with ier := ier ||| IER_RDAI }.setRead i .idle).writes ↔
        test ier IER_THREI = test d.ier IER_THREI := by
      show Single ⟨test (ier ||| IER_RDAI) IER_THREI, _, _⟩ ↔ _
      rw [test_threi_set]
      exact single_setEnabled_iff h.writes (test ier IER_THREI)
    exact ⟨fun h' => hwrites.mp h'.writes, fun hier =>
      ⟨hreads, hwrites.mpr hier, h.room, (within_setRead_iff h.within _).mpr trivial⟩⟩

/-- A request to write begins beside the order. -/
theorem orderly_startWrite (h : Orderly d) (hidle : d.uartWrite i = .idle)
    (systemBuffer : List UInt8) : Orderly (d.startWrite i systemBuffer) := by
  have hwrite : ∀ n, Orderly { d with write := n } := fun _ =>
    ⟨h.reads, h.writes, h.room, h.within⟩
  exact (hwrite _).setWrite (by rw [hidle]; rfl)

/-- A step of `UartWrite` keeps the order exactly if it is careful. -/
theorem orderly_writeStep_iff (h : Orderly d) {d' : Device ι} (hd' : d.writeStep i = some d') :
    Orderly d' ↔ Careful d (.writeStep i) := by
  rw [writeStep] at hd'
  rw [Careful]
  cases hplace : d.uartWrite i with
  | idle =>
    rw [hplace] at hd'
    cases hd'
  | copying data copied =>
    rw [hplace] at hd'
    refine iff_of_true ?_ trivial
    cases hc : data[copied]? with
    | some c =>
      simp only [hc] at hd'
      obtain rfl := Option.some.inj hd'
      have hbuffers : ∀ m, Orderly { d with buffers := m } := fun _ =>
        ⟨h.reads, h.writes, h.room, h.within⟩
      exact (hbuffers _).setWrite (by rw [hplace]; rfl)
    | none =>
      simp only [hc] at hd'
      obtain ⟨hevent, hd'⟩ := Option.ite_none_right_eq_some.mp hd'
      obtain rfl := Option.some.inj hd'
      refine ⟨h.reads, ?_, h.room, h.within⟩
      rw [writes_setWrite]
      exact h.writes.wait hevent
  | completing data =>
    rw [hplace] at hd'
    obtain rfl := Option.some.inj hd'
    have hreported : Orderly { d with reported := d.reported ++ [data] } :=
      ⟨h.reads, h.writes, h.room, h.within⟩
    exact iff_of_true (hreported.setWrite (by rw [hplace]; rfl)) trivial
  | enabling =>
    rw [hplace] at hd'
    obtain rfl := Option.some.inj hd'
    exact iff_of_true (h.setWrite (by rw [hplace]; rfl)) trivial
  | storing ier =>
    rw [hplace] at hd'
    obtain rfl := Option.some.inj hd'
    -- For writing the turn goes back to the interrupt.
    have hwrites : Single ({ d with ier := ier ||| IER_THREI }.setWrite i .idle).writes := by
      have hworking : d.writes.working i = true := by
        show (d.uartWrite i).working = true
        rw [hplace]
        rfl
      have hthrei : test (ier ||| IER_THREI) IER_THREI = true := test_set ier (by decide)
      rw [writes_setWrite, Device.writes, hthrei]
      exact h.writes.rearm hworking
    -- For reading it stays where it is, unless the other bit has changed since it was read.
    have hreads : Single ({ d with ier := ier ||| IER_THREI }.setWrite i .idle).reads ↔
        test ier IER_RDAI = test d.ier IER_RDAI := by
      show Single ⟨test (ier ||| IER_THREI) IER_RDAI, _, _⟩ ↔ _
      rw [test_rdai_set]
      exact single_setEnabled_iff h.reads (test ier IER_RDAI)
    exact ⟨fun h' => hreads.mp h'.reads, fun hier =>
      ⟨hreads.mpr hier, hwrites, h.room, h.within⟩⟩

/-! ### Runs -/

/-- **Step.**  Every action keeps the order exactly if it is careful. -/
theorem orderly_step_iff (h : Orderly d) {a : Action ι} {d' : Device ι}
    (hd' : step d a = some d') : Orderly d' ↔ Careful d a := by
  cases a with
  | arrive c =>
    obtain rfl := Option.some.inj hd'
    exact iff_of_true ⟨h.reads, h.writes, h.room, h.within⟩ trivial
  | uartInterruptHandler iir =>
    obtain ⟨hraised, hd'⟩ := Option.ite_none_right_eq_some.mp hd'
    obtain rfl := Option.some.inj hd'
    rw [orderly_uartInterruptHandler_iff h hraised]
    exact ⟨fun hroom _ => hroom, fun hcareful => hcareful hraised⟩
  | startRead i length =>
    obtain ⟨hidle, hd'⟩ := Option.ite_none_right_eq_some.mp hd'
    obtain rfl := Option.some.inj hd'
    exact (h.setRead_iff (by rw [hidle]; rfl)).trans (iff_of_true trivial trivial)
  | readStep i => exact orderly_readStep_iff h hd'
  | alertRead i =>
    rw [step] at hd'
    split at hd'
    next length hplace =>
      obtain rfl := Option.some.inj hd'
      exact (h.setRead_iff (by rw [hplace]; rfl)).trans (iff_of_true trivial trivial)
    next => cases hd'
  | startWrite i systemBuffer =>
    obtain ⟨hidle, hd'⟩ := Option.ite_none_right_eq_some.mp hd'
    obtain rfl := Option.some.inj hd'
    exact iff_of_true (orderly_startWrite h hidle systemBuffer) trivial
  | writeStep i => exact orderly_writeStep_iff h hd'
  | alertWrite i =>
    rw [step] at hd'
    split at hd'
    next data copied hplace =>
      obtain ⟨hcopied, hd'⟩ := Option.ite_none_right_eq_some.mp hd'
      obtain rfl := Option.some.inj hd'
      rw [Careful, hplace]
      -- An alert lets a request past a wait whose turn it is not.
      refine iff_of_false (fun h' => ?_) fun hne => hne hcopied
      have hidle : d.writes.working i = false := by
        show (d.uartWrite i).working = false
        rw [hplace]
        rfl
      have hsingle := h'.writes
      rw [writes_setWrite] at hsingle
      exact not_single_setWorking h.writes hidle hsingle
    next => cases hd'

/-- What cannot be done is done with care. -/
theorem careful_of_stuck {a : Action ι} (hstuck : step d a = none) : Careful d a := by
  cases a with
  | arrive | startRead | alertRead | startWrite => trivial
  | uartInterruptHandler iir =>
    intro hraised
    rw [step, if_pos hraised] at hstuck
    cases hstuck
  | readStep i =>
    rw [step, readStep] at hstuck
    rw [Careful]
    -- Only these two need care, and they are never stuck.
    cases hplace : d.uartRead i with
    | copying | storing =>
      rw [hplace] at hstuck
      cases hstuck
    | idle | waiting | woken | copied | completing | enabling => trivial
  | writeStep i =>
    rw [step, writeStep] at hstuck
    rw [Careful]
    cases hplace : d.uartWrite i with
    | storing =>
      rw [hplace] at hstuck
      cases hstuck
    | idle | copying | completing | enabling => trivial
  | alertWrite i =>
    rw [step] at hstuck
    rw [Careful]
    cases hplace : d.uartWrite i with
    | copying data copied =>
      intro hcopied
      simp [hplace, hcopied] at hstuck
    | idle | completing | enabling | storing => trivial

end Device

end WorkAtUPB.SerialPortDriverWindows
