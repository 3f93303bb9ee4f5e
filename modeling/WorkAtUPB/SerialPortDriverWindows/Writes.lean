import WorkAtUPB.Lib.Bytes
import WorkAtUPB.Lib.Run

namespace WorkAtUPB.SerialPortDriverWindows

open Bytes Run

/-!
# SerialPortDriverWindows — writing (`UartWrite` and `UartInterruptHandler`, `uart16550.c`)

`UartWrite` fills the buffer first and waits for the event of an earlier transmit interrupt
afterwards, and only then lets its own interrupt happen:

* `State`, `step` — the writing half of the device; a transmit interrupt can come between any two
  steps of `UartWrite` while `IER_THREI` is set;
* `SentInOrder` — what is sent is what the requests reported, each byte once and in order;
* `Undisturbed` — the transmit interrupt finds no request at work in the buffer;
* `uartWrite_sentInOrder_iff` — one holds along a run exactly when the other does.

The wait is not alerted.  Completing a request and setting `IER_THREI` is one step, because
`IER_THREI` is clear between the two.
-/

/-- Where `UartWrite` is: between two requests, in `RtlCopyMemory` with some bytes of `data`
    copied (and, with all of them, in `KeWaitForSingleObject`), or past the wait. -/
inductive Progress where
  | idle
  | copying (data : List UInt8) (copied : Nat)
  | completing (data : List UInt8)
  deriving DecidableEq, Repr

/-- The writing half of `UART_DEVICE_DATA`, the bit `IER_THREI` of the device, the bytes that were
    sent to the port and the data of the completed requests. -/
structure State where
  write : Nat
  writeBuffer : Mem
  eventWrites : Bool
  threi : Bool
  uartWrite : Progress
  sent : List UInt8
  reported : List (List UInt8)

/-- After `do_requests`. -/
def doRequests : State where
  write := 0
  writeBuffer := fun _ => 0
  eventWrites := false
  threi := true
  uartWrite := .idle
  sent := []
  reported := []

/-- The steps of `UartWrite`, and the transmit interrupt. -/
inductive Action where
  | request (systemBuffer : List UInt8)
  | rtlCopyMemory
  | keWaitForSingleObject
  | ioCompleteRequest
  | uartInterruptHandler
  deriving DecidableEq, Repr

/-- `UartWrite` up to `RtlCopyMemory`. -/
def State.request (s : State) (systemBuffer : List UInt8) : State :=
  let length := systemBuffer.length
  let write := if length < 14 then length else 14
  { s with write := write, uartWrite := .copying (systemBuffer.take write) 0 }

/-- The next byte of `RtlCopyMemory`. -/
def State.copyByte (s : State) (data : List UInt8) (copied : Nat) (c : UInt8) : State :=
  { s with
    writeBuffer := Function.update s.writeBuffer copied c
    uartWrite := .copying data (copied + 1) }

/-- The event is a synchronization event: the wait that it ends resets it. -/
def State.waited (s : State) (data : List UInt8) : State :=
  { s with eventWrites := false, uartWrite := .completing data }

/-- `IoCompleteRequest`, and the transmit interrupt is enabled. -/
def State.completed (s : State) (data : List UInt8) : State :=
  { s with threi := true, uartWrite := .idle, reported := s.reported ++ [data] }

/-- `UartInterruptHandler` for the transmit interrupt. -/
def State.interrupted (s : State) : State :=
  { s with
    threi := false
    sent := s.sent ++ readBytes s.writeBuffer 0 s.write
    eventWrites := true }

/-- One step; a request begins when there is no other. -/
def step (s : State) : Action → Option State
  | .request systemBuffer => if s.uartWrite = .idle then some (s.request systemBuffer) else none
  | .rtlCopyMemory =>
    match s.uartWrite with
    | .copying data copied => data[copied]?.map (s.copyByte data copied)
    | .idle | .completing _ => none
  | .keWaitForSingleObject =>
    match s.uartWrite with
    | .copying data copied =>
      if copied = data.length ∧ s.eventWrites = true then some (s.waited data) else none
    | .idle | .completing _ => none
  | .ioCompleteRequest =>
    match s.uartWrite with
    | .completing data => some (s.completed data)
    | .idle | .copying .. => none
  | .uartInterruptHandler => if s.threi = true then some s.interrupted else none

/-- What each action does. -/
theorem step_cases {s s' : State} {a : Action} (h : step s a = some s') :
    (∃ systemBuffer, a = .request systemBuffer ∧ s.uartWrite = .idle ∧
      s' = s.request systemBuffer) ∨
    (∃ data copied c, a = .rtlCopyMemory ∧ s.uartWrite = .copying data copied ∧
      data[copied]? = some c ∧ s' = s.copyByte data copied c) ∨
    (∃ data, a = .keWaitForSingleObject ∧ s.uartWrite = .copying data data.length ∧
      s.eventWrites = true ∧ s' = s.waited data) ∨
    (∃ data, a = .ioCompleteRequest ∧ s.uartWrite = .completing data ∧ s' = s.completed data) ∨
    (a = .uartInterruptHandler ∧ s.threi = true ∧ s' = s.interrupted) := by
  cases a with
  | request systemBuffer =>
    obtain ⟨hidle, hs'⟩ := Option.ite_none_right_eq_some.mp h
    exact Or.inl ⟨systemBuffer, rfl, hidle, (Option.some.inj hs').symm⟩
  | rtlCopyMemory =>
    rw [step] at h
    split at h
    next data copied hprogress =>
      obtain ⟨c, hc, hs'⟩ := Option.map_eq_some_iff.mp h
      exact Or.inr (Or.inl ⟨data, copied, c, rfl, hprogress, hc, hs'.symm⟩)
    all_goals cases h
  | keWaitForSingleObject =>
    rw [step] at h
    split at h
    next data copied hprogress =>
      obtain ⟨⟨rfl, hevent⟩, hs'⟩ := Option.ite_none_right_eq_some.mp h
      exact Or.inr (Or.inr (Or.inl ⟨data, rfl, hprogress, hevent, (Option.some.inj hs').symm⟩))
    all_goals cases h
  | ioCompleteRequest =>
    rw [step] at h
    split at h
    next data hprogress =>
      exact Or.inr (Or.inr (Or.inr (Or.inl ⟨data, rfl, hprogress, (Option.some.inj h).symm⟩)))
    all_goals cases h
  | uartInterruptHandler =>
    obtain ⟨hthrei, hs'⟩ := Option.ite_none_right_eq_some.mp h
    exact Or.inr (Or.inr (Or.inr (Or.inr ⟨rfl, hthrei, (Option.some.inj hs').symm⟩)))

/-! ### Sending once and in order -/

/-- The bytes sent are a prefix of what the completed requests reported, and all of it when no
    transmit interrupt is to come. -/
def SentInOrder (s : State) : Prop :=
  s.sent <+: s.reported.flatten ∧ (s.threi = false → s.sent = s.reported.flatten)

instance (s : State) : Decidable (SentInOrder s) :=
  inferInstanceAs (Decidable (_ <+: _ ∧ (_ → _)))

/-- The data of the last completed request. -/
def State.last (s : State) : List UInt8 := s.reported.getLastD []

/-- A transmit interrupt does not come while a request is at work, unless the request has put into
    the buffer what the last one had there. -/
def Undisturbed (s : State) : Action → Prop
  | .uartInterruptHandler =>
    s.threi = true → s.uartWrite = .idle ∨ readBytes s.writeBuffer 0 s.write = s.last
  | .request _ | .rtlCopyMemory | .keWaitForSingleObject | .ioCompleteRequest => True

/-- What the buffer has at each point of `UartWrite`. -/
def Holds (s : State) : Progress → Prop
  | .idle => s.threi = true → readBytes s.writeBuffer 0 s.write = s.last
  | .copying data copied =>
    s.write = data.length ∧ readBytes s.writeBuffer 0 copied = data.take copied
  | .completing data =>
    s.threi = false ∧ s.eventWrites = false ∧ readBytes s.writeBuffer 0 s.write = data

/-- What holds between the device and the requests as long as the bytes are sent in order. -/
structure Inv (s : State) : Prop where
  owed : s.threi = true → s.reported.flatten = s.sent ++ s.last
  event : s.eventWrites = true → s.threi = false
  buffer : Holds s s.uartWrite

/-- The invariant holds at first. -/
theorem inv_doRequests : Inv doRequests where
  owed := fun _ => rfl
  event := nofun
  buffer := fun _ => rfl

variable {s : State}

/-! #### The steps of `UartWrite` -/

/-- A request fixes how many bytes it puts into the buffer. -/
theorem inv_request (h : Inv s) (systemBuffer : List UInt8) : Inv (s.request systemBuffer) where
  owed := h.owed
  event := h.event
  buffer := by
    refine ⟨?_, rfl⟩
    show (if _ then _ else _) = (List.take _ _).length
    rw [List.length_take]
    split <;> omega

/-- One byte more is in the buffer. -/
theorem inv_copyByte (h : Inv s) {data : List UInt8} {copied : Nat} {c : UInt8}
    (hprogress : s.uartWrite = .copying data copied) (hc : data[copied]? = some c) :
    Inv (s.copyByte data copied c) where
  owed := h.owed
  event := h.event
  buffer := by
    obtain ⟨hwrite, hcopied⟩ : Holds s (.copying data copied) := hprogress ▸ h.buffer
    exact ⟨hwrite, readBytes_update_take hcopied hc⟩

/-- Behind the wait the buffer has the data, and no interrupt is to come. -/
theorem inv_waited (h : Inv s) {data : List UInt8}
    (hprogress : s.uartWrite = .copying data data.length) (hevent : s.eventWrites = true) :
    Inv (s.waited data) where
  owed := h.owed
  event := nofun
  buffer := by
    obtain ⟨hwrite, hcopied⟩ : Holds s (.copying data data.length) := hprogress ▸ h.buffer
    refine ⟨h.event hevent, rfl, ?_⟩
    show readBytes s.writeBuffer 0 s.write = data
    rw [hwrite, hcopied, List.take_length]

/-- The interrupt that is enabled owes what was reported last. -/
theorem inv_completed (h : Inv s) (hsent : SentInOrder s) {data : List UInt8}
    (hprogress : s.uartWrite = .completing data) : Inv (s.completed data) := by
  obtain ⟨hthrei, hevent, hbuffer⟩ : Holds s (.completing data) := hprogress ▸ h.buffer
  have hlast : (s.completed data).last = data := List.getLastD_concat
  exact {
    owed := fun _ => by
      rw [hlast]
      show (s.reported ++ [data]).flatten = s.sent ++ data
      rw [List.flatten_concat, hsent.2 hthrei]
    event := fun h' => absurd (hevent.symm.trans h') Bool.noConfusion
    buffer := fun _ => hbuffer.trans hlast.symm }

/-- What is reported may grow before it is sent. -/
theorem sentInOrder_completed (hsent : SentInOrder s) (data : List UInt8) :
    SentInOrder (s.completed data) := by
  refine ⟨?_, nofun⟩
  show s.sent <+: (s.reported ++ [data]).flatten
  rw [List.flatten_concat]
  exact hsent.1.trans (List.prefix_append _ _)

/-! #### The transmit interrupt -/

/-- The interrupt disables itself and leaves the buffer. -/
theorem inv_interrupted (h : Inv s) (hthrei : s.threi = true) : Inv s.interrupted where
  owed := nofun
  event := fun _ => rfl
  buffer := by
    have hbuffer := h.buffer
    show Holds s.interrupted s.uartWrite
    cases hprogress : s.uartWrite with
    | idle => exact nofun
    | copying data copied =>
      rw [hprogress] at hbuffer
      exact hbuffer
    | completing data =>
      rw [hprogress] at hbuffer
      exact absurd (hbuffer.1.symm.trans hthrei) Bool.noConfusion

/-- The interrupt sends what is owed exactly if it does not meet the data of the next request. -/
theorem sentInOrder_interrupted (h : Inv s) (hthrei : s.threi = true) :
    SentInOrder s.interrupted ↔ Undisturbed s .uartInterruptHandler := by
  have hsame : SentInOrder s.interrupted ↔ readBytes s.writeBuffer 0 s.write = s.last := by
    show (_ <+: s.reported.flatten ∧ (_ → s.sent ++ _ = s.reported.flatten)) ↔ _
    rw [h.owed hthrei]
    exact sent_append_iff rfl
  rw [hsame]
  constructor
  · intro heq _
    exact Or.inr heq
  · intro hundisturbed
    rcases hundisturbed hthrei with hidle | heq
    · have hbuffer : Holds s .idle := hidle ▸ h.buffer
      exact hbuffer hthrei
    · exact heq

/-! #### Runs -/

/-- **Step.**  Every action keeps the invariant while the bytes are sent in order. -/
theorem inv_step {s' : State} {a : Action} (h : Inv s) (hsent : SentInOrder s)
    (hs' : step s a = some s') : Inv s' := by
  obtain ⟨systemBuffer, rfl, -, rfl⟩ | ⟨data, copied, c, rfl, hprogress, hc, rfl⟩ |
    ⟨data, rfl, hprogress, hevent, rfl⟩ | ⟨data, rfl, hprogress, rfl⟩ | ⟨rfl, hthrei, rfl⟩ :=
    step_cases hs'
  · exact inv_request h systemBuffer
  · exact inv_copyByte h hprogress hc
  · exact inv_waited h hprogress hevent
  · exact inv_completed h hsent hprogress
  · exact inv_interrupted h hthrei

/-- Only an interrupt that disturbs a request sends something else. -/
theorem sentInOrder_step {s' : State} {a : Action} (h : Inv s) (hsent : SentInOrder s)
    (hs' : step s a = some s') : SentInOrder s' ↔ Undisturbed s a := by
  obtain ⟨systemBuffer, rfl, -, rfl⟩ | ⟨data, copied, c, rfl, -, -, rfl⟩ |
    ⟨data, rfl, -, -, rfl⟩ | ⟨data, rfl, -, rfl⟩ | ⟨rfl, hthrei, rfl⟩ := step_cases hs'
  · exact iff_of_true hsent trivial
  · exact iff_of_true hsent trivial
  · exact iff_of_true hsent trivial
  · exact iff_of_true (sentInOrder_completed hsent data) trivial
  · exact sentInOrder_interrupted h hthrei

/-- **Writes, once and in order.**  The bytes sent are always those that the requests reported
    exactly if no transmit interrupt comes while a request is at work in the buffer. -/
theorem uartWrite_sentInOrder_iff (as : List Action) :
    Always step SentInOrder doRequests as ↔ EachStep step Undisturbed doRequests as := by
  refine always_iff_eachStep (J := Inv) (fun s a s' h hsent hs' _ => inv_step h hsent hs')
    (fun s a s' h hsent hs' => sentInOrder_step h hsent hs') ?_ inv_doRequests
    ⟨List.prefix_rfl, fun _ => rfl⟩
  intro s a _ _ hstuck
  cases a with
  | uartInterruptHandler =>
    intro hthrei
    rw [step, if_pos hthrei] at hstuck
    cases hstuck
  | request | rtlCopyMemory | keWaitForSingleObject | ioCompleteRequest => trivial

/-- The bytes `1` and `2` are written, and the interrupt for the first comes when the second is in
    the buffer: `2` is sent, and `1` never. -/
theorem not_uartWrite_sentInOrder :
    ¬ ∀ as, Always step SentInOrder doRequests as := by
  intro h
  have hall := h [.uartInterruptHandler,
    .request [1], .rtlCopyMemory, .keWaitForSingleObject, .ioCompleteRequest,
    .request [2], .rtlCopyMemory, .uartInterruptHandler]
  have hlast : SentInOrder {
      write := 1
      writeBuffer := Function.update (Function.update (fun _ => 0) 0 1) 0 2
      eventWrites := true
      threi := false
      uartWrite := .copying [2] 1
      sent := [2]
      reported := [[1]] } := hall.last rfl
  exact absurd hlast (by decide)

end WorkAtUPB.SerialPortDriverWindows
