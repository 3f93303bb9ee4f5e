import WorkAtUPB.SerialPortDriverWindows.Reads
import WorkAtUPB.SerialPortDriverWindows.Writes

namespace WorkAtUPB.SerialPortDriverWindows

open Bytes Run Flags Baton

/-!
# SerialPortDriverWindows — both directions at once

The writing half of the device, for one thread that writes, is that of `Writes`, although requests
for reading and the receive interrupt come in between and change IER too.

* `writing` — what an action of the device is for the writing half;
* `Transmits` — the device has what the writing half has;
* `uartWrite_follows` — a run of the device with care is a run of the writing half.
-/

variable {ι : Type*} [DecidableEq ι]

/-- The steps of the writing half in an action of the device.  To complete a request is a step of it
    only when IER is written back. -/
def writing (d : Device ι) : Device.Action ι → List Action
  | .startWrite _ systemBuffer => [.request systemBuffer]
  | .writeStep i =>
    match d.uartWrite i with
    | .copying data copied =>
      if copied < data.length then [.rtlCopyMemory] else [.keWaitForSingleObject]
    | .storing _ => [.ioCompleteRequest]
    | .idle | .completing _ | .enabling => []
  | .uartInterruptHandler iir => if iirThrei iir ≠ 0 then [.uartInterruptHandler] else []
  | .arrive _ | .startRead .. | .readStep _ | .alertRead _ | .alertWrite _ => []

/-- No other thread writes. -/
def Alone (w : ι) : Device.Action ι → Prop
  | .startWrite i _ => i = w
  | .arrive _ | .uartInterruptHandler _ | .startRead .. | .readStep _ | .alertRead _ | .writeStep _
  | .alertWrite _ => True

instance (w : ι) : (a : Device.Action ι) → Decidable (Alone w a)
  | .startWrite i _ => inferInstanceAs (Decidable (i = w))
  | .arrive _ | .uartInterruptHandler _ | .startRead .. | .readStep _ | .alertRead _ | .writeStep _
  | .alertWrite _ => inferInstanceAs (Decidable True)

instance (s : State) : (a : Action) → Decidable (Undisturbed s a)
  | .uartInterruptHandler => inferInstanceAs (Decidable (_ → _ ∨ _))
  | .request _ | .rtlCopyMemory | .keWaitForSingleObject | .ioCompleteRequest =>
    inferInstanceAs (Decidable True)

/-- A thread at this place of `UartWrite` is where the writing half is. -/
def AtPlace (s : State) (reported : List (List UInt8)) : UartWrite → Prop
  | .idle => s.uartWrite = .idle ∧ reported = s.reported
  | .copying data copied =>
    s.uartWrite = .copying data copied ∧ copied ≤ data.length ∧ reported = s.reported
  | .completing data => s.uartWrite = .completing data ∧ reported = s.reported
  | .enabling | .storing _ =>
    ∃ data, s.uartWrite = .completing data ∧ reported = s.reported ++ [data]

/-- The device has what the writing half has. -/
structure Transmits (w : ι) (d : Device ι) (s : State) : Prop where
  orderly : d.Orderly
  write : s.write = d.write
  writeBuffer : ∀ k, s.writeBuffer k = d.buffers (bufferSize + k)
  eventWrites : s.eventWrites = d.eventWrites
  threi : s.threi = test d.ier IER_THREI
  sent : s.sent = d.sent
  others : ∀ j, j ≠ w → d.uartWrite j = .idle
  place : AtPlace s d.reported (d.uartWrite w)

variable {w : ι} {d d' : Device ι} {s : State}

omit [DecidableEq ι] in
/-- Both devices are the same at first. -/
theorem transmits_doRequests : Transmits w Device.doRequests doRequests where
  orderly := Device.orderly_doRequests
  write := rfl
  writeBuffer := fun _ => rfl
  eventWrites := rfl
  threi := by
    have henabled : test (IER_THREI ||| IER_RDAI) IER_THREI = true := by decide
    simp only [doRequests, Device.doRequests, henabled]
  sent := rfl
  others := fun _ _ => rfl
  place := ⟨rfl, rfl⟩

omit [DecidableEq ι] in
/-- Nothing of the writing half changes. -/
theorem Transmits.congr (h : Transmits w d s) (horderly : d'.Orderly) (hwrite : d'.write = d.write)
    (hbuffers : ∀ k, d'.buffers (bufferSize + k) = d.buffers (bufferSize + k))
    (hevent : d'.eventWrites = d.eventWrites)
    (hthrei : test d'.ier IER_THREI = test d.ier IER_THREI) (hsent : d'.sent = d.sent)
    (huart : d'.uartWrite = d.uartWrite) (hreported : d'.reported = d.reported) :
    Transmits w d' s where
  orderly := horderly
  write := h.write.trans hwrite.symm
  writeBuffer := fun k => (h.writeBuffer k).trans (hbuffers k).symm
  eventWrites := h.eventWrites.trans hevent.symm
  threi := h.threi.trans hthrei.symm
  sent := h.sent.trans hsent.symm
  others := huart ▸ h.others
  place := by
    rw [hreported, huart]
    exact h.place

/-! ### The steps -/

/-- The thread that writes is the one that does not idle. -/
theorem Transmits.eq_of_ne_idle (h : Transmits w d s) {i : ι} (hi : d.uartWrite i ≠ .idle) :
    i = w := by
  by_contra hne
  exact hi (h.others i hne)

/-- The writing half does not see the steps of `UartRead`. -/
theorem Transmits.readStep (h : Transmits w d s) {i : ι} (hcareful : d.Careful (.readStep i))
    (hd' : d.readStep i = some d') : Transmits w d' s := by
  have horderly := (Device.orderly_readStep_iff h.orderly hd').mpr hcareful
  rw [Device.readStep] at hd'
  cases hplace : d.uartRead i with
  | idle =>
    rw [hplace] at hd'
    cases hd'
  | waiting =>
    rw [hplace] at hd'
    obtain ⟨-, hd'⟩ := Option.ite_none_right_eq_some.mp hd'
    obtain rfl := Option.some.inj hd'
    exact h.congr horderly rfl (fun _ => rfl) rfl rfl rfl rfl rfl
  | woken | copying | copied | completing | enabling =>
    rw [hplace] at hd'
    obtain rfl := Option.some.inj hd'
    exact h.congr horderly rfl (fun _ => rfl) rfl rfl rfl rfl rfl
  | storing ier =>
    rw [hplace] at hd'
    obtain rfl := Option.some.inj hd'
    rw [Device.Careful, hplace, Device.CarefulRead] at hcareful
    exact h.congr horderly rfl (fun _ => rfl) rfl ((Device.test_threi_set ier).trans hcareful) rfl
      rfl rfl

omit [DecidableEq ι] in
/-- It does not see the receive interrupt. -/
theorem Transmits.received (h : Transmits w d s) (horderly : d.received.Orderly) :
    Transmits w d.received s := by
  refine h.congr horderly rfl (fun k => ?_) rfl (Device.test_threi_clear d.ier) rfl rfl rfl
  have hroom : d.read + d.port.length ≤ bufferSize := horderly.room
  exact writeBytes_of_not_mem (Or.inr (by omega))

omit [DecidableEq ι] in
/-- The transmit interrupt. -/
theorem Transmits.transmitted (h : Transmits w d s) (horderly : d.transmitted.Orderly) :
    Transmits w d.transmitted s.interrupted where
  orderly := horderly
  write := h.write
  writeBuffer := h.writeBuffer
  eventWrites := rfl
  threi := (test_clear d.ier).symm
  sent := by
    show s.sent ++ readBytes s.writeBuffer 0 s.write =
      d.sent ++ readBytes d.buffers bufferSize d.write
    have hbytes : readBytes s.writeBuffer 0 s.write = readBytes d.buffers bufferSize d.write := by
      rw [h.write]
      refine List.map_congr_left fun k _ => ?_
      rw [Nat.zero_add]
      exact h.writeBuffer k
    rw [h.sent, hbytes]
  others := h.others
  place := h.place

omit [DecidableEq ι] in
/-- The handler, and the transmit interrupt if it is one. -/
theorem Transmits.uartInterruptHandler (h : Transmits w d s) {iir : BitVec 8}
    (hraised : d.Raised iir) (horderly : (d.uartInterruptHandler iir).Orderly) :
    ∃ s', run step s (writing d (.uartInterruptHandler iir)) = some s' ∧
      Transmits w (d.uartInterruptHandler iir) s' := by
  have hroom := (Device.orderly_uartInterruptHandler_iff h.orderly hraised).mp horderly
  have hfirst : Transmits w (if iirRdai iir ≠ 0 then d.received else d) s := by
    split
    next hrdai =>
      exact h.received ((Device.orderly_received h.orderly (hraised.1 hrdai).1).mpr (hroom hrdai))
    next => exact h
  rw [Device.uartInterruptHandler] at horderly ⊢
  rw [writing]
  by_cases hthrei : iirThrei iir ≠ 0
  · simp only [if_pos hthrei] at horderly ⊢
    have henabled : s.threi = true := h.threi.trans (hraised.2 hthrei)
    refine ⟨s.interrupted, ?_, hfirst.transmitted horderly⟩
    rw [run_cons, step, if_pos henabled]
    rfl
  · simp only [if_neg hthrei]
    exact ⟨s, rfl, hfirst⟩

/-- The thread goes to another place of `UartWrite`. -/
theorem others_setWrite (h : Transmits w d s) (e : Device ι) (huart : e.uartWrite = d.uartWrite)
    (p : UartWrite) : ∀ j, j ≠ w → (e.setWrite w p).uartWrite j = .idle := by
  intro j hj
  show Function.update e.uartWrite w p j = .idle
  rw [Function.update_of_ne hj, huart]
  exact h.others j hj

/-- Where the thread is that has moved. -/
theorem uartWrite_setWrite (d : Device ι) (w : ι) (p : UartWrite) :
    (d.setWrite w p).uartWrite w = p := by
  show Function.update d.uartWrite w p w = p
  exact Function.update_self ..

/-- A request to write begins in both. -/
theorem Transmits.startWrite (h : Transmits w d s) (hidle : d.uartWrite w = .idle)
    (systemBuffer : List UInt8) (horderly : (d.startWrite w systemBuffer).Orderly) :
    ∃ s', run step s [.request systemBuffer] = some s' ∧
      Transmits w (d.startWrite w systemBuffer) s' := by
  obtain ⟨hprogress, hreported⟩ : s.uartWrite = .idle ∧ d.reported = s.reported := by
    have hplace := h.place
    rw [hidle] at hplace
    exact hplace
  refine ⟨s.request systemBuffer, by rw [run_cons, step, if_pos hprogress]; rfl, ?_⟩
  exact {
    orderly := horderly
    write := rfl
    writeBuffer := h.writeBuffer
    eventWrites := h.eventWrites
    threi := h.threi
    sent := h.sent
    others := others_setWrite h _ rfl _
    place := by
      rw [Device.startWrite, uartWrite_setWrite]
      exact ⟨rfl, Nat.zero_le _, hreported⟩ }

/-- The writer takes its step in both. -/
theorem Transmits.writeStep (h : Transmits w d s) (hcareful : d.Careful (.writeStep w))
    (hd' : d.writeStep w = some d') :
    ∃ s', run step s (writing d (.writeStep w)) = some s' ∧ Transmits w d' s' := by
  have horderly := (Device.orderly_writeStep_iff h.orderly hd').mpr hcareful
  have hat := h.place
  rw [Device.writeStep] at hd'
  rw [writing]
  cases hplace : d.uartWrite w with
  | idle =>
    rw [hplace] at hd'
    cases hd'
  | copying data copied =>
    rw [hplace] at hd' hat
    obtain ⟨hprogress, hle, hreported⟩ := hat
    by_cases hlt : copied < data.length
    · -- The next byte is copied.
      have hc : data[copied]? = some data[copied] := List.getElem?_eq_getElem hlt
      simp only [hc] at hd'
      obtain rfl := Option.some.inj hd'
      refine ⟨s.copyByte data copied data[copied], ?_, ?_⟩
      · simp only [if_pos hlt, run_cons, step, hprogress, hc]
        rfl
      · exact {
          orderly := horderly
          write := h.write
          writeBuffer := fun k => by
            show Function.update s.writeBuffer copied _ k =
              Function.update d.buffers (bufferSize + copied) _ (bufferSize + k)
            by_cases hk : k = copied
            · rw [hk, Function.update_self, Function.update_self]
            · rw [Function.update_of_ne hk, Function.update_of_ne (by omega)]
              exact h.writeBuffer k
          eventWrites := h.eventWrites
          threi := h.threi
          sent := h.sent
          others := others_setWrite h _ rfl _
          place := by
            rw [uartWrite_setWrite]
            exact ⟨rfl, hlt, hreported⟩ }
    · -- All are, and the event is set.
      have hc : data[copied]? = none := List.getElem?_eq_none (Nat.le_of_not_lt hlt)
      simp only [hc] at hd'
      obtain ⟨hevent, hd'⟩ := Option.ite_none_right_eq_some.mp hd'
      obtain rfl := Option.some.inj hd'
      have hall : copied = data.length ∧ s.eventWrites = true :=
        ⟨by omega, h.eventWrites.trans hevent⟩
      refine ⟨s.waited data, ?_, ?_⟩
      · simp only [if_neg hlt, run_cons, step, hprogress, if_pos hall]
        rfl
      · exact {
          orderly := horderly
          write := h.write
          writeBuffer := h.writeBuffer
          eventWrites := rfl
          threi := h.threi
          sent := h.sent
          others := others_setWrite h _ rfl _
          place := by
            rw [uartWrite_setWrite]
            exact ⟨rfl, hreported⟩ }
  | completing data =>
    rw [hplace] at hd' hat
    obtain rfl := Option.some.inj hd'
    obtain ⟨hprogress, hreported⟩ := hat
    refine ⟨s, rfl, horderly, h.write, h.writeBuffer, h.eventWrites, h.threi, h.sent,
      others_setWrite h _ rfl _, ?_⟩
    rw [uartWrite_setWrite]
    exact ⟨data, hprogress, by rw [← hreported]; rfl⟩
  | enabling =>
    rw [hplace] at hd' hat
    obtain rfl := Option.some.inj hd'
    refine ⟨s, rfl, horderly, h.write, h.writeBuffer, h.eventWrites, h.threi, h.sent,
      others_setWrite h _ rfl _, ?_⟩
    rw [uartWrite_setWrite]
    exact hat
  | storing ier =>
    rw [hplace] at hd' hat
    obtain rfl := Option.some.inj hd'
    obtain ⟨data, hprogress, hreported⟩ := hat
    refine ⟨s.completed data, ?_, ?_⟩
    · simp only [run_cons, step, hprogress]
      rfl
    · exact {
        orderly := horderly
        write := h.write
        writeBuffer := h.writeBuffer
        eventWrites := h.eventWrites
        threi := (test_set ier (by decide)).symm
        sent := h.sent
        others := others_setWrite h _ rfl _
        place := by
          rw [uartWrite_setWrite]
          exact ⟨rfl, hreported⟩ }

/-! ### Runs -/

/-- At most one request is complete that the writing half has still to complete. -/
theorem AtPlace.reported {reported : List (List UInt8)} {p : UartWrite}
    (h : AtPlace s reported p) : ∃ rest, reported = s.reported ++ rest := by
  cases p with
  | idle | completing => exact ⟨[], h.2.trans (List.append_nil _).symm⟩
  | copying => exact ⟨[], h.2.2.trans (List.append_nil _).symm⟩
  | enabling | storing =>
    obtain ⟨data, -, hreported⟩ := h
    exact ⟨[data], hreported⟩

/-- A step with care, of the thread or of anything but another thread that writes. -/
theorem transmits_step (h : Transmits w d s) {a : Device.Action ι} (hcareful : d.Careful a)
    (halone : Alone w a) (hd' : Device.step d a = some d') :
    ∃ s', run step s (writing d a) = some s' ∧ Transmits w d' s' := by
  have horderly : d'.Orderly := (Device.orderly_step_iff h.orderly hd').mpr hcareful
  cases a with
  | arrive c =>
    obtain rfl := Option.some.inj hd'
    exact ⟨s, rfl, h.congr horderly rfl (fun _ => rfl) rfl rfl rfl rfl rfl⟩
  | uartInterruptHandler iir =>
    obtain ⟨hraised, hd'⟩ := Option.ite_none_right_eq_some.mp hd'
    obtain rfl := Option.some.inj hd'
    exact h.uartInterruptHandler hraised horderly
  -- What only the reading half does is no step of the writing half.
  | startRead i length =>
    obtain ⟨-, hd'⟩ := Option.ite_none_right_eq_some.mp hd'
    obtain rfl := Option.some.inj hd'
    exact ⟨s, rfl, h.congr horderly rfl (fun _ => rfl) rfl rfl rfl rfl rfl⟩
  | readStep i => exact ⟨s, rfl, h.readStep hcareful hd'⟩
  | alertRead i =>
    rw [Device.step] at hd'
    split at hd'
    next length hplace =>
      obtain rfl := Option.some.inj hd'
      exact ⟨s, rfl, h.congr horderly rfl (fun _ => rfl) rfl rfl rfl rfl rfl⟩
    next => cases hd'
  | startWrite i systemBuffer =>
    obtain rfl : i = w := halone
    obtain ⟨hidle, hd'⟩ := Option.ite_none_right_eq_some.mp hd'
    obtain rfl := Option.some.inj hd'
    exact h.startWrite hidle systemBuffer horderly
  | writeStep i =>
    -- Nobody but the one thread is in a write.
    have hne : d.uartWrite i ≠ .idle := by
      intro hidle
      rw [Device.step, Device.writeStep, hidle] at hd'
      cases hd'
    obtain rfl := h.eq_of_ne_idle hne
    exact h.writeStep hcareful hd'
  | alertWrite i =>
    rw [Device.step] at hd'
    split at hd'
    next data copied hplace =>
      -- An alert of a wait is not careful.
      obtain ⟨hcopied, -⟩ := Option.ite_none_right_eq_some.mp hd'
      rw [Device.Careful, hplace] at hcareful
      exact absurd hcopied hcareful
    next => cases hd'

/-- **Writes, in both directions at once.**  A run of the device with care, in which one thread
    writes, is a run of the writing half; and if no transmit interrupt comes there while a request
    is at work in the buffer, what was sent to the port is the beginning of what the requests have
    reported. -/
theorem uartWrite_follows (w : ι) {as : List (Device.Action ι)}
    (h : EachStep Device.step (fun d a => d.Careful a ∧ Alone w a) Device.doRequests as)
    (hrun : run Device.step Device.doRequests as = some d) :
    ∃ s, run step doRequests (images Device.step writing Device.doRequests as) = some s ∧
      Transmits w d s ∧
      (EachStep step Undisturbed doRequests (images Device.step writing Device.doRequests as) →
        d.sent <+: d.reported.flatten) := by
  obtain ⟨d', s, hd', hs, htransmits⟩ := run_simulates (R := Transmits w)
    (fun _ _ _ htransmits hC => by
      obtain ⟨⟨hcareful, halone⟩, t, ht⟩ := hC
      obtain ⟨s', hs', htransmits'⟩ := transmits_step htransmits hcareful halone ht
      exact ⟨t, s', ht, hs', htransmits'⟩)
    transmits_doRequests (h.and (EachStep.of_run hrun))
  obtain rfl := Option.some.inj (hrun.symm.trans hd')
  refine ⟨s, hs, htransmits, fun hundisturbed => ?_⟩
  have hsent : Inv s ∧ SentInOrder s :=
    (always_of_inductive (I := fun s => Inv s ∧ SentInOrder s)
      (fun _ _ _ hI hC hs' => ⟨inv_step hI.1 hI.2 hs', (sentInOrder_step hI.1 hI.2 hs').mpr hC⟩)
      ⟨inv_doRequests, List.prefix_rfl, fun _ => rfl⟩ hundisturbed).last hs
  obtain ⟨rest, hrest⟩ := htransmits.place.reported
  rw [← htransmits.sent, hrest, List.flatten_append]
  exact hsent.2.1.trans (List.prefix_append _ _)

/-- A byte arrives and is read while another one is written. -/
def bothDirections : List (Device.Action Bool) :=
  [.uartInterruptHandler 0xc2, .startWrite false [1], .writeStep false, .writeStep false,
    .arrive 7, .uartInterruptHandler 0xc4, .startRead true 4, .readStep true, .writeStep false,
    .readStep true, .writeStep false, .writeStep false, .readStep true,
    .uartInterruptHandler 0xc2, .readStep true, .readStep true]

/-- In this run the bytes written are sent in order, although others are read. -/
theorem uartWrite_follows_reading : ∃ d : Device Bool,
    run Device.step Device.doRequests bothDirections = some d ∧ d.sent <+: d.reported.flatten := by
  obtain ⟨d, hd⟩ : ∃ d, run Device.step Device.doRequests bothDirections = some d := ⟨_, rfl⟩
  obtain ⟨s, -, -, hsent⟩ := uartWrite_follows false (by decide) hd
  exact ⟨d, hd, hsent (by decide)⟩

end WorkAtUPB.SerialPortDriverWindows
