import WorkAtUPB.Lib.Bytes
import WorkAtUPB.Lib.Run

namespace WorkAtUPB.SerialPortDriverLinux

open Bytes Run

/-!
# SerialPortDriverLinux — writing (`serial_write` and `serial_interrupt_handle`, `uart16550.c`)

`serial_write` reports the bytes that it has put into the buffer also when a signal ends its wait,
with the transmit interrupt still to come, and the next call overwrites the buffer:

* `WriteState`, `writeStep` — the writing half of the device, with one writer; a transmit interrupt
  can come between any two steps while `IER_THREI` is set;
* `SentInOrder` — what is sent is what the calls reported, each byte once and in order;
* `Unspoiled` — the transmit interrupt finds a buffer that no later call has begun to fill;
* `serialWrite_sentInOrder_iff` — one holds along a run exactly when the other does.
-/

/-- Where `serial_write` is: outside, in `copy_from_user` with some bytes of `data` copied, in
    `copy_from_user` behind a fault, with zeros for the bytes that are left, before the transmit
    interrupt is enabled, or in the wait. -/
inductive Writing where
  | idle
  | copying (data : List UInt8) (copied : Nat)
  | clearing (size cleared : Nat)
  | ready (data : List UInt8)
  | waiting (data : List UInt8)
  deriving DecidableEq, Repr

/-- The writing half of `serial_dev`, the bit `IER_THREI` of the device, the bytes that were sent
    to the port, and the bytes that each returned call reported.  `early` are the bytes of the calls
    that have returned before their transmit interrupt, and `overwritten` says that a call has begun
    to fill the buffer before such an interrupt. -/
structure WriteState where
  write : Nat
  writeBuffer : Mem
  writeReady : Bool
  threi : Bool
  serialWrite : Writing
  sent : List UInt8
  reported : List (List UInt8)
  early : List UInt8
  overwritten : Bool

/-- After `do_requests`. -/
def WriteState.init : WriteState where
  write := 0
  writeBuffer := fun _ => 0
  writeReady := false
  threi := false
  serialWrite := .idle
  sent := []
  reported := []
  early := []
  overwritten := false

/-- The steps of `serial_write`, and the transmit interrupt.  The wait ends when `write_ready` is 0,
    or with a signal. -/
inductive WriteAction where
  | serialWrite (userBuffer : List UInt8)
  | copyFromUser
  | copyFault
  | clearByte
  | returnFault
  | atomicSet
  | enableThrei
  | waitEvent (signal : Bool)
  | serialInterruptHandle
  deriving DecidableEq, Repr

namespace WriteState

variable (s : WriteState)

/-- A call with `size` 0. -/
def returnZero : WriteState := { s with reported := s.reported ++ [[]] }

/-- `serial_write` up to `copy_from_user`. -/
def fill (userBuffer : List UInt8) : WriteState :=
  let size := userBuffer.length
  let write := if 14 ≤ size then 14 else size
  { s with
    write := write
    serialWrite := .copying (userBuffer.take write) 0
    overwritten := s.overwritten || s.threi }

/-- The next byte of `copy_from_user`. -/
def copyByte (data : List UInt8) (copied : Nat) (c : UInt8) : WriteState :=
  { s with
    writeBuffer := Function.update s.writeBuffer copied c
    serialWrite := .copying data (copied + 1) }

/-- `copy_from_user` meets memory that the user cannot read. -/
def fault (data : List UInt8) (copied : Nat) : WriteState :=
  { s with serialWrite := .clearing data.length copied }

/-- `copy_from_user` has a zero for each byte that it could not read. -/
def zeroByte (size cleared : Nat) : WriteState :=
  { s with
    writeBuffer := Function.update s.writeBuffer cleared 0
    serialWrite := .clearing size (cleared + 1) }

/-- The call returns `-EFAULT`. -/
def refused : WriteState := { s with serialWrite := .idle }

/-- `atomic_set(&dev->write_ready, 1)`. -/
def setReady (data : List UInt8) : WriteState :=
  { s with writeReady := true, serialWrite := .ready data }

/-- The transmit interrupt is enabled. -/
def enabled (data : List UInt8) : WriteState :=
  { s with threi := true, serialWrite := .waiting data }

/-- The call returns, whatever ended the wait. -/
def returned (data : List UInt8) : WriteState :=
  { s with
    serialWrite := .idle
    reported := s.reported ++ [data]
    early := if s.threi = true then s.early ++ data else s.early }

/-- `serial_interrupt_handle` for the transmit interrupt. -/
def interrupted : WriteState :=
  { s with
    threi := false
    sent := s.sent ++ readBytes s.writeBuffer 0 s.write
    writeReady := false
    early := []
    overwritten := false }

end WriteState

/-- One step of the writer or of the device. -/
def writeStep (s : WriteState) : WriteAction → Option WriteState
  | .serialWrite userBuffer =>
    if s.serialWrite = .idle then
      -- A request of size 0 returns before it touches the buffer.
      some (if userBuffer.length = 0 then s.returnZero else s.fill userBuffer)
    else none
  | .copyFromUser =>
    match s.serialWrite with
    | .copying data copied => data[copied]?.map (s.copyByte data copied)
    | .idle | .clearing .. | .ready _ | .waiting _ => none
  | .copyFault =>
    match s.serialWrite with
    | .copying data copied => if copied < data.length then some (s.fault data copied) else none
    | .idle | .clearing .. | .ready _ | .waiting _ => none
  | .clearByte =>
    match s.serialWrite with
    -- The kernel pads what it could not copy with zeros.
    | .clearing size cleared => if cleared < size then some (s.zeroByte size cleared) else none
    | .idle | .copying .. | .ready _ | .waiting _ => none
  | .returnFault =>
    match s.serialWrite with
    | .clearing size cleared => if cleared = size then some s.refused else none
    | .idle | .copying .. | .ready _ | .waiting _ => none
  | .atomicSet =>
    match s.serialWrite with
    | .copying data copied => if copied = data.length then some (s.setReady data) else none
    | .idle | .clearing .. | .ready _ | .waiting _ => none
  | .enableThrei =>
    match s.serialWrite with
    | .ready data => some (s.enabled data)
    | .idle | .copying .. | .clearing .. | .waiting _ => none
  | .waitEvent signal =>
    match s.serialWrite with
    | .waiting data =>
      -- The result of the wait is not looked at, so a signal ends it like the interrupt does.
      if s.writeReady = false ∨ signal = true then some (s.returned data) else none
    | .idle | .copying .. | .clearing .. | .ready _ => none
  | .serialInterruptHandle => if s.threi = true then some s.interrupted else none

/-- What each action does. -/
inductive WriteEffect (s : WriteState) : WriteAction → WriteState → Prop where
  | returnZero : s.serialWrite = .idle → WriteEffect s (.serialWrite []) s.returnZero
  | fill {userBuffer} : s.serialWrite = .idle →
      WriteEffect s (.serialWrite userBuffer) (s.fill userBuffer)
  | copyByte {data copied c} : s.serialWrite = .copying data copied → data[copied]? = some c →
      WriteEffect s .copyFromUser (s.copyByte data copied c)
  | fault {data copied} : s.serialWrite = .copying data copied →
      WriteEffect s .copyFault (s.fault data copied)
  | zeroByte {size cleared} : s.serialWrite = .clearing size cleared →
      WriteEffect s .clearByte (s.zeroByte size cleared)
  | refused {size} : s.serialWrite = .clearing size size → WriteEffect s .returnFault s.refused
  | setReady {data} : s.serialWrite = .copying data data.length →
      WriteEffect s .atomicSet (s.setReady data)
  | enabled {data} : s.serialWrite = .ready data → WriteEffect s .enableThrei (s.enabled data)
  | returned {data signal} : s.serialWrite = .waiting data →
      WriteEffect s (.waitEvent signal) (s.returned data)
  | interrupted : s.threi = true → WriteEffect s .serialInterruptHandle s.interrupted

/-- Every step has one of these effects. -/
theorem writeEffect_of_step {s s' : WriteState} {a : WriteAction} (h : writeStep s a = some s') :
    WriteEffect s a s' := by
  cases a with
  | serialWrite userBuffer =>
    obtain ⟨hidle, hs'⟩ := Option.ite_none_right_eq_some.mp h
    rw [← Option.some.inj hs']
    split
    next hsize =>
      rw [List.length_eq_zero_iff.mp hsize]
      exact .returnZero hidle
    next => exact .fill hidle
  | copyFromUser =>
    -- Each of the other actions needs a request at its own point.
    rw [writeStep] at h
    split at h
    next data copied hprogress =>
      obtain ⟨c, hc, rfl⟩ := Option.map_eq_some_iff.mp h
      exact .copyByte hprogress hc
    all_goals cases h
  | copyFault =>
    rw [writeStep] at h
    split at h
    next data copied hprogress =>
      obtain ⟨-, hs'⟩ := Option.ite_none_right_eq_some.mp h
      rw [← Option.some.inj hs']
      exact .fault hprogress
    all_goals cases h
  | clearByte =>
    rw [writeStep] at h
    split at h
    next size cleared hprogress =>
      obtain ⟨-, hs'⟩ := Option.ite_none_right_eq_some.mp h
      rw [← Option.some.inj hs']
      exact .zeroByte hprogress
    all_goals cases h
  | returnFault =>
    rw [writeStep] at h
    split at h
    next size cleared hprogress =>
      obtain ⟨rfl, hs'⟩ := Option.ite_none_right_eq_some.mp h
      rw [← Option.some.inj hs']
      exact .refused hprogress
    all_goals cases h
  | atomicSet =>
    rw [writeStep] at h
    split at h
    next data copied hprogress =>
      obtain ⟨rfl, hs'⟩ := Option.ite_none_right_eq_some.mp h
      rw [← Option.some.inj hs']
      exact .setReady hprogress
    all_goals cases h
  | enableThrei =>
    rw [writeStep] at h
    split at h
    next data hprogress =>
      rw [← Option.some.inj h]
      exact .enabled hprogress
    all_goals cases h
  | waitEvent signal =>
    rw [writeStep] at h
    split at h
    next data hprogress =>
      obtain ⟨-, hs'⟩ := Option.ite_none_right_eq_some.mp h
      rw [← Option.some.inj hs']
      exact .returned hprogress
    all_goals cases h
  | serialInterruptHandle =>
    obtain ⟨hthrei, hs'⟩ := Option.ite_none_right_eq_some.mp h
    rw [← Option.some.inj hs']
    exact .interrupted hthrei

/-! ### Sending once and in order -/

/-- What the call in the wait is going to report. -/
def Writing.awaited : Writing → List UInt8
  | .waiting data => data
  | .idle | .copying .. | .clearing .. | .ready _ => []

/-- The bytes that the returned calls reported.  A call whose transmit interrupt has come counts as
    returned: nothing but the scheduler keeps it. -/
def WriteState.total (s : WriteState) : List UInt8 :=
  s.reported.flatten ++ if s.threi = true then [] else s.serialWrite.awaited

/-- The bytes sent are a prefix of what the calls reported, and all of it when no transmit interrupt
    is to come. -/
def SentInOrder (s : WriteState) : Prop :=
  s.sent <+: s.total ∧ (s.threi = false → s.sent = s.total)

instance (s : WriteState) : Decidable (SentInOrder s) :=
  inferInstanceAs (Decidable (_ <+: _ ∧ (_ → _)))

/-- A transmit interrupt does not come after a later call has begun to fill the buffer, unless the
    buffer happens to have just the bytes that are still to be sent. -/
def Unspoiled (s : WriteState) : WriteAction → Prop
  | .serialInterruptHandle =>
    s.threi = true → s.overwritten = true →
      readBytes s.writeBuffer 0 s.write = s.early ++ s.serialWrite.awaited
  | .serialWrite _ | .copyFromUser | .copyFault | .clearByte | .returnFault | .atomicSet |
    .enableThrei | .waitEvent _ => True

/-- The call is at work in the buffer. -/
def Writing.Filling : Writing → Prop
  | .copying .. | .clearing .. | .ready _ => True
  | .idle | .waiting _ => False

/-- What the buffer has at each point of `serial_write`. -/
def Holds (s : WriteState) : Writing → Prop
  | .copying data copied =>
    s.write = data.length ∧ readBytes s.writeBuffer 0 copied = data.take copied
  | .ready data => readBytes s.writeBuffer 0 s.write = data
  | .idle | .clearing .. | .waiting _ => True

/-- What holds between the device and the calls as long as the bytes are sent in order. -/
structure Inv (s : WriteState) : Prop where
  owed : s.threi = true → s.reported.flatten = s.sent ++ s.early
  quiet : s.threi = false → s.early = [] ∧ s.overwritten = false
  filling : s.threi = true → s.serialWrite.Filling → s.overwritten = true
  unsent : s.threi = true → s.overwritten = false →
    readBytes s.writeBuffer 0 s.write = s.early ++ s.serialWrite.awaited
  buffer : Holds s s.serialWrite

/-- The invariant holds at first. -/
theorem inv_init : Inv .init where
  owed := nofun
  quiet := fun _ => ⟨rfl, rfl⟩
  filling := nofun
  unsent := nofun
  buffer := trivial

variable {s : WriteState}

/-- A call at work in the buffer has no interrupt to come before it, or spoils it. -/
theorem Inv.not_unspoiled (h : Inv s) (hfilling : s.serialWrite.Filling) (hthrei : s.threi = true) :
    s.overwritten ≠ false :=
  ne_false_of_eq_true (h.filling hthrei hfilling)

/-! #### The steps of `serial_write` -/

/-- A call with `size` 0 reports nothing. -/
theorem inv_returnZero (h : Inv s) : Inv s.returnZero where
  owed := fun hthrei => by
    show (s.reported ++ [[]]).flatten = _
    rw [List.flatten_concat, List.append_nil]
    exact h.owed hthrei
  quiet := h.quiet
  filling := h.filling
  unsent := h.unsent
  buffer := h.buffer

/-- A call fixes how many bytes it puts into the buffer, and spoils the buffer for an interrupt that
    is to come. -/
theorem inv_fill (h : Inv s) (userBuffer : List UInt8) : Inv (s.fill userBuffer) := by
  have hspoiled (hthrei : s.threi = true) : (s.fill userBuffer).overwritten = true := by
    show (s.overwritten || s.threi) = true
    rw [hthrei, Bool.or_true]
  exact {
    owed := h.owed
    quiet := fun (hthrei : s.threi = false) => by
      refine ⟨(h.quiet hthrei).1, ?_⟩
      show (s.overwritten || s.threi) = false
      rw [hthrei, (h.quiet hthrei).2]
      rfl
    filling := fun hthrei _ => hspoiled hthrei
    unsent := fun hthrei hfalse => absurd hfalse (ne_false_of_eq_true (hspoiled hthrei))
    buffer := by
      refine ⟨?_, rfl⟩
      show (if _ then _ else _) = (List.take _ _).length
      rw [List.length_take]
      split <;> omega }

/-- One byte more is in the buffer. -/
theorem inv_copyByte (h : Inv s) {data : List UInt8} {copied : Nat} {c : UInt8}
    (hprogress : s.serialWrite = .copying data copied) (hc : data[copied]? = some c) :
    Inv (s.copyByte data copied c) := by
  have hfilling : s.serialWrite.Filling := hprogress ▸ trivial
  exact {
    owed := h.owed
    quiet := h.quiet
    filling := fun hthrei _ => h.filling hthrei hfilling
    unsent := fun hthrei hfalse => absurd hfalse (h.not_unspoiled hfilling hthrei)
    buffer := by
      obtain ⟨hwrite, hcopied⟩ : Holds s (.copying data copied) := hprogress ▸ h.buffer
      exact ⟨hwrite, readBytes_update_take hcopied hc⟩ }

/-- The bytes that are left are lost. -/
theorem inv_fault (h : Inv s) {data : List UInt8} {copied : Nat}
    (hprogress : s.serialWrite = .copying data copied) : Inv (s.fault data copied) := by
  have hfilling : s.serialWrite.Filling := hprogress ▸ trivial
  exact {
    owed := h.owed
    quiet := h.quiet
    filling := fun hthrei _ => h.filling hthrei hfilling
    unsent := fun hthrei hfalse => absurd hfalse (h.not_unspoiled hfilling hthrei)
    buffer := trivial }

/-- What the buffer has does not matter any more. -/
theorem inv_zeroByte (h : Inv s) {size cleared : Nat}
    (hprogress : s.serialWrite = .clearing size cleared) : Inv (s.zeroByte size cleared) := by
  have hfilling : s.serialWrite.Filling := hprogress ▸ trivial
  exact {
    owed := h.owed
    quiet := h.quiet
    filling := fun hthrei _ => h.filling hthrei hfilling
    unsent := fun hthrei hfalse => absurd hfalse (h.not_unspoiled hfilling hthrei)
    buffer := trivial }

/-- The buffer is not restored, so it stays spoiled for an interrupt that is to come. -/
theorem inv_refused (h : Inv s) {size : Nat} (hprogress : s.serialWrite = .clearing size size) :
    Inv s.refused where
  owed := h.owed
  quiet := h.quiet
  filling := fun _ => False.elim
  unsent := fun hthrei hfalse => absurd hfalse (h.not_unspoiled (hprogress ▸ trivial) hthrei)
  buffer := trivial

/-- All bytes are in the buffer. -/
theorem inv_setReady (h : Inv s) {data : List UInt8}
    (hprogress : s.serialWrite = .copying data data.length) : Inv (s.setReady data) := by
  have hfilling : s.serialWrite.Filling := hprogress ▸ trivial
  exact {
    owed := h.owed
    quiet := h.quiet
    filling := fun hthrei _ => h.filling hthrei hfilling
    unsent := fun hthrei hfalse => absurd hfalse (h.not_unspoiled hfilling hthrei)
    buffer := by
      obtain ⟨hwrite, hcopied⟩ : Holds s (.copying data data.length) := hprogress ▸ h.buffer
      show readBytes s.writeBuffer 0 s.write = data
      rw [hwrite, hcopied, List.take_length] }

/-- What is reported does not grow until the call returns. -/
theorem sentInOrder_enabled (hsent : SentInOrder s) {data : List UInt8}
    (hprogress : s.serialWrite = .ready data) : SentInOrder (s.enabled data) := by
  have htotal : (s.enabled data).total = s.total := by
    rw [WriteState.total, WriteState.total, hprogress]
    show s.reported.flatten ++ [] = s.reported.flatten ++ if _ then [] else []
    rw [ite_self]
  exact ⟨htotal ▸ hsent.1, nofun⟩

/-- The interrupt that is enabled owes the data of the call. -/
theorem inv_enabled (h : Inv s) (hsent : SentInOrder s) {data : List UInt8}
    (hprogress : s.serialWrite = .ready data) : Inv (s.enabled data) := by
  have hfilling : s.serialWrite.Filling := hprogress ▸ trivial
  have hbuffer : Holds s (.ready data) := hprogress ▸ h.buffer
  exact {
    owed := fun _ => by
      show s.reported.flatten = s.sent ++ s.early
      cases hthrei : s.threi with
      | true => exact h.owed hthrei
      | false =>
        have htotal : s.total = s.reported.flatten := by
          rw [WriteState.total, hprogress]
          show _ ++ (if _ then [] else []) = _
          rw [ite_self, List.append_nil]
        rw [(h.quiet hthrei).1, List.append_nil, hsent.2 hthrei, htotal]
    quiet := nofun
    filling := fun _ => False.elim
    unsent := fun _ hfalse => by
      show readBytes s.writeBuffer 0 s.write = s.early ++ data
      cases hthrei : s.threi with
      | true => exact absurd hfalse (h.not_unspoiled hfilling hthrei)
      | false =>
        rw [(h.quiet hthrei).1, List.nil_append]
        exact hbuffer
    buffer := trivial }

/-- A call that returns reports what it has waited for. -/
theorem sentInOrder_returned (hsent : SentInOrder s) {data : List UInt8}
    (hprogress : s.serialWrite = .waiting data) : SentInOrder (s.returned data) := by
  have htotal : (s.returned data).total = s.reported.flatten ++ data := by
    show (s.reported ++ [data]).flatten ++ (if _ then [] else []) = _
    rw [ite_self, List.append_nil, List.flatten_concat]
  obtain ⟨hbegins, hall⟩ := hsent
  rw [WriteState.total, hprogress] at hbegins hall
  rw [SentInOrder, htotal]
  show s.sent <+: _ ∧ (s.threi = false → s.sent = _)
  cases hthrei : s.threi with
  | true =>
    rw [hthrei, if_pos rfl, List.append_nil] at hbegins
    exact ⟨hbegins.trans (List.prefix_append _ _), nofun⟩
  | false =>
    rw [hthrei, if_neg Bool.false_ne_true] at hall
    exact ⟨hall rfl ▸ List.prefix_rfl, hall⟩

/-- If the interrupt is still to come, the call has returned early. -/
theorem inv_returned (h : Inv s) {data : List UInt8} (hprogress : s.serialWrite = .waiting data) :
    Inv (s.returned data) := by
  have hearly (hthrei : s.threi = true) : (s.returned data).early = s.early ++ data := if_pos hthrei
  exact {
    owed := fun hthrei => by
      rw [hearly hthrei]
      show (s.reported ++ [data]).flatten = s.sent ++ (s.early ++ data)
      rw [List.flatten_concat, h.owed hthrei, List.append_assoc]
    quiet := fun (hthrei : s.threi = false) => by
      refine ⟨?_, (h.quiet hthrei).2⟩
      show (if _ then _ else _) = []
      rw [hthrei, if_neg Bool.false_ne_true, (h.quiet hthrei).1]
    filling := fun _ => False.elim
    unsent := fun hthrei hfalse => by
      have hunsent := h.unsent hthrei hfalse
      rw [hprogress] at hunsent
      rw [hearly hthrei]
      exact hunsent.trans (List.append_nil _).symm
    buffer := trivial }

/-! #### The transmit interrupt -/

/-- The interrupt disables itself, and owes nothing. -/
theorem inv_interrupted (h : Inv s) : Inv s.interrupted where
  owed := nofun
  quiet := fun _ => ⟨rfl, rfl⟩
  filling := nofun
  unsent := nofun
  buffer := h.buffer

/-- The interrupt sends what is owed exactly if the buffer is not spoiled. -/
theorem sentInOrder_interrupted (h : Inv s) (hthrei : s.threi = true) :
    SentInOrder s.interrupted ↔ Unspoiled s .serialInterruptHandle := by
  have hsame : SentInOrder s.interrupted ↔
      readBytes s.writeBuffer 0 s.write = s.early ++ s.serialWrite.awaited := by
    show (_ <+: s.reported.flatten ++ s.serialWrite.awaited ∧
      (_ → s.sent ++ _ = s.reported.flatten ++ s.serialWrite.awaited)) ↔ _
    rw [h.owed hthrei, List.append_assoc]
    exact sent_append_iff rfl
  rw [hsame]
  constructor
  · intro heq _ _
    exact heq
  · intro hunspoiled
    cases hoverwritten : s.overwritten with
    | true => exact hunspoiled hthrei hoverwritten
    | false => exact h.unsent hthrei hoverwritten

/-! #### Runs -/

/-- **Step.**  Every step keeps the invariant while the bytes are sent in order. -/
theorem inv_step {s' : WriteState} {a : WriteAction} (h : Inv s) (hsent : SentInOrder s)
    (hs' : writeStep s a = some s') : Inv s' := by
  cases writeEffect_of_step hs' with
  | returnZero _ => exact inv_returnZero h
  | fill _ => exact inv_fill h _
  | copyByte hprogress hc => exact inv_copyByte h hprogress hc
  | fault hprogress => exact inv_fault h hprogress
  | zeroByte hprogress => exact inv_zeroByte h hprogress
  | refused hprogress => exact inv_refused h hprogress
  | setReady hprogress => exact inv_setReady h hprogress
  | enabled hprogress => exact inv_enabled h hsent hprogress
  | returned hprogress => exact inv_returned h hprogress
  | interrupted _ => exact inv_interrupted h

/-- A step that leaves alone what is sent, what is reported or going to be, and the interrupt. -/
theorem SentInOrder.congr {s' : WriteState} (hsent : SentInOrder s) (heq : s'.sent = s.sent)
    (hthrei : s'.threi = s.threi) (hreported : s'.reported.flatten = s.reported.flatten)
    (hawaited : s'.serialWrite.awaited = s.serialWrite.awaited) : SentInOrder s' := by
  rw [SentInOrder, heq, hthrei, WriteState.total, hthrei, hreported, hawaited]
  exact hsent

/-- Only an interrupt that finds a spoiled buffer sends something else. -/
theorem sentInOrder_step {s' : WriteState} {a : WriteAction} (h : Inv s) (hsent : SentInOrder s)
    (hs' : writeStep s a = some s') : SentInOrder s' ↔ Unspoiled s a := by
  cases writeEffect_of_step hs' with
  | returnZero _ =>
    have hreported : (s.reported ++ [[]]).flatten = s.reported.flatten := by
      rw [List.flatten_concat, List.append_nil]
    exact iff_of_true (hsent.congr rfl rfl hreported rfl) trivial
  | fill hidle => exact iff_of_true (hsent.congr rfl rfl rfl (hidle ▸ rfl)) trivial
  | copyByte hprogress _ => exact iff_of_true (hsent.congr rfl rfl rfl (hprogress ▸ rfl)) trivial
  | fault hprogress => exact iff_of_true (hsent.congr rfl rfl rfl (hprogress ▸ rfl)) trivial
  | zeroByte hprogress => exact iff_of_true (hsent.congr rfl rfl rfl (hprogress ▸ rfl)) trivial
  | refused hprogress => exact iff_of_true (hsent.congr rfl rfl rfl (hprogress ▸ rfl)) trivial
  | setReady hprogress => exact iff_of_true (hsent.congr rfl rfl rfl (hprogress ▸ rfl)) trivial
  | enabled hprogress => exact iff_of_true (sentInOrder_enabled hsent hprogress) trivial
  | returned hprogress => exact iff_of_true (sentInOrder_returned hsent hprogress) trivial
  | interrupted hthrei => exact sentInOrder_interrupted h hthrei

/-- **Writes, once and in order.**  The bytes sent are always those that the calls reported exactly
    if no transmit interrupt comes after a later call has begun to fill the buffer. -/
theorem serialWrite_sentInOrder_iff (as : List WriteAction) :
    Always writeStep SentInOrder .init as ↔ EachStep writeStep Unspoiled .init as := by
  refine always_iff_eachStep (J := Inv) (fun s a s' h hsent hs' _ => inv_step h hsent hs')
    (fun s a s' h hsent hs' => sentInOrder_step h hsent hs') ?_ inv_init
    ⟨List.prefix_rfl, fun _ => rfl⟩
  intro s a _ _ hstuck
  cases a with
  | serialInterruptHandle =>
    intro hthrei
    rw [writeStep, if_pos hthrei] at hstuck
    cases hstuck
  | serialWrite | copyFromUser | copyFault | clearByte | returnFault | atomicSet | enableThrei
  | waitEvent => trivial

/-- The bytes `1` and `2` are written, and a signal ends the first wait: `2` is sent, and `1`
    never. -/
theorem not_serialWrite_sentInOrder : ¬ ∀ as, Always writeStep SentInOrder .init as := by
  intro h
  have hall := h [
    .serialWrite [1], .copyFromUser, .atomicSet, .enableThrei, .waitEvent true,
    .serialWrite [2], .copyFromUser, .atomicSet, .enableThrei, .serialInterruptHandle,
    .waitEvent false]
  have hlast : SentInOrder {
      write := 1
      writeBuffer := Function.update (Function.update (fun _ => 0) 0 1) 0 2
      writeReady := false
      threi := false
      serialWrite := .idle
      sent := [2]
      reported := [[1], [2]]
      early := []
      overwritten := false } := hall.last rfl
  exact absurd hlast (by decide)

end WorkAtUPB.SerialPortDriverLinux
