import Mathlib.Data.Fintype.Basic
import WorkAtUPB.Lib.Bytes
import WorkAtUPB.Lib.Run

namespace WorkAtUPB.SerialPortDriverLinux

open Bytes Run

/-!
# SerialPortDriverLinux — reading (`serial_read` and `serial_interrupt_handle`, `uart16550.c`)

The handler drains the device into the buffer, however much there is, and disables its interrupt;
`serial_read` hands out all of the buffer, however little was asked for, and enables it again:

* `ReadState`, `readStep` — the reading half of the device, with any number of readers; a receive
  interrupt can come between any two steps while `IER_RDAI` is set;
* `Delivers` — the buffer is not overrun, a call returns no more than it was asked for, and the
  bytes returned are those received, each byte once and in order;
* `Fits` — a burst fits into the buffer, and a call that passes its wait finds no more than it was
  asked for, and no other call past its wait;
* `serialRead_delivers` — runs with `Fits` have `Delivers`;
* `not_delivers_interrupted`, `not_always_delivers` — what comes of a burst or a buffer that is too
  large.
-/

/-- `SIZE`. -/
def SIZE : Nat := 512

/-- Where a call of `serial_read` is: outside, in the wait, in `copy_to_user` of `result` bytes with
    some of them copied, with `dev->read` reset, or with `dev->read_ready` reset as well. -/
inductive Reading where
  | idle
  | waiting (size : Nat)
  | copying (size result : Nat) (copied : List UInt8)
  | resetting (size : Nat) (copied : List UInt8)
  | enabling (size : Nat) (copied : List UInt8)
  deriving DecidableEq, Repr

/-- The call has passed its wait. -/
def Reading.Past : Reading → Prop
  | .idle | .waiting _ => False
  | .copying .. | .resetting .. | .enabling .. => True

instance : DecidablePred Reading.Past
  | .idle | .waiting _ => inferInstanceAs (Decidable False)
  | .copying .. | .resetting .. | .enabling .. => inferInstanceAs (Decidable True)

/-- The reading half of `serial_dev`, the bit `IER_RDAI` of the device, the calls, the bytes that
    were received, and the size asked for and the bytes returned by each returned call.  Behind
    `SIZE` bytes the buffer is what follows the array in memory. -/
structure ReadState (ι : Type*) where
  read : Nat
  readBuffer : Mem
  readReady : Bool
  rdai : Bool
  serialRead : ι → Reading
  received : List UInt8
  returned : List (Nat × List UInt8)

/-- After `do_requests`. -/
def ReadState.init (ι : Type*) : ReadState ι where
  read := 0
  readBuffer := fun _ => 0
  readReady := false
  rdai := true
  serialRead := fun _ => .idle
  received := []
  returned := []

/-- The steps of the calls of `serial_read`, and a receive interrupt with the bytes that it
    drains.  The wait ends when `read_ready` is 1, or with a signal. -/
inductive ReadAction (ι : Type*) where
  | serialRead (i : ι) (size : Nat)
  | waitEvent (i : ι) (signal : Bool)
  | copyToUser (i : ι)
  | copyFault (i : ι)
  | resetRead (i : ι)
  | atomicSet (i : ι)
  | enableRdai (i : ι)
  | serialInterruptHandle (burst : List UInt8)
  deriving DecidableEq, Repr

/-- The loop of the handler: `dev->read_buffer[dev->read++] = ch`. -/
def drain (readBuffer : Mem) (read : Nat) : List UInt8 → Mem × Nat
  | [] => (readBuffer, read)
  | ch :: rest => drain (Function.update readBuffer read ch) (read + 1) rest

namespace ReadState

variable {ι : Type*} [DecidableEq ι] (s : ReadState ι)

/-- A call with `size` 0. -/
def returnZero : ReadState ι := { s with returned := s.returned ++ [(0, [])] }

/-- One call goes on. -/
def move (i : ι) (progress : Reading) : ReadState ι :=
  { s with serialRead := Function.update s.serialRead i progress }

/-- The next byte of `copy_to_user`. -/
def copyByte (i : ι) (size result : Nat) (copied : List UInt8) : ReadState ι :=
  s.move i (.copying size result (copied ++ [s.readBuffer copied.length]))

/-- `dev->read = 0`. -/
def resetRead (i : ι) (size : Nat) (copied : List UInt8) : ReadState ι :=
  { s with read := 0, serialRead := Function.update s.serialRead i (.resetting size copied) }

/-- `atomic_set(&dev->read_ready, 0)`. -/
def resetReady (i : ι) (size : Nat) (copied : List UInt8) : ReadState ι :=
  { s with
    readReady := false
    serialRead := Function.update s.serialRead i (.enabling size copied) }

/-- The receive interrupt is enabled, and the call returns. -/
def enabled (i : ι) (size : Nat) (copied : List UInt8) : ReadState ι :=
  { s with
    rdai := true
    serialRead := Function.update s.serialRead i .idle
    returned := s.returned ++ [(size, copied)] }

/-- `serial_interrupt_handle` for the receive interrupt. -/
def interrupted (burst : List UInt8) : ReadState ι :=
  let drained := drain s.readBuffer s.read burst
  { s with
    rdai := false
    readBuffer := drained.1
    read := drained.2
    readReady := true
    received := s.received ++ burst }

end ReadState

variable {ι : Type*}

/-- One step of a reader or of the device. -/
def readStep [DecidableEq ι] (s : ReadState ι) : ReadAction ι → Option (ReadState ι)
  | .serialRead i size =>
    if s.serialRead i = .idle then
      some (if size = 0 then s.returnZero else s.move i (.waiting size))
    else none
  | .waitEvent i signal =>
    match s.serialRead i with
    | .waiting size =>
      if s.readReady = true then some (s.move i (.copying size s.read []))
      -- `-ERESTARTSYS`
      else if signal = true then some (s.move i .idle)
      else none
    | .idle | .copying .. | .resetting .. | .enabling .. => none
  | .copyToUser i =>
    match s.serialRead i with
    | .copying size result copied =>
      if copied.length < result then some (s.copyByte i size result copied) else none
    | .idle | .waiting _ | .resetting .. | .enabling .. => none
  | .copyFault i =>
    match s.serialRead i with
    | .copying _ result copied => if copied.length < result then some (s.move i .idle) else none
    | .idle | .waiting _ | .resetting .. | .enabling .. => none
  | .resetRead i =>
    match s.serialRead i with
    | .copying size result copied =>
      -- `result` is the `read` of the moment when the copy began, which is then set back.
      if copied.length = result then some (s.resetRead i size copied) else none
    | .idle | .waiting _ | .resetting .. | .enabling .. => none
  | .atomicSet i =>
    match s.serialRead i with
    | .resetting size copied => some (s.resetReady i size copied)
    | .idle | .waiting _ | .copying .. | .enabling .. => none
  | .enableRdai i =>
    match s.serialRead i with
    | .enabling size copied => some (s.enabled i size copied)
    | .idle | .waiting _ | .copying .. | .resetting .. => none
  | .serialInterruptHandle burst => if s.rdai = true then some (s.interrupted burst) else none

/-- What each action does. -/
inductive ReadEffect [DecidableEq ι] (s : ReadState ι) : ReadAction ι → ReadState ι → Prop where
  | returnZero {i} : ReadEffect s (.serialRead i 0) s.returnZero
  | begun {i size} : s.serialRead i = .idle →
      ReadEffect s (.serialRead i size) (s.move i (.waiting size))
  | passed {i signal size} : s.serialRead i = .waiting size → s.readReady = true →
      ReadEffect s (.waitEvent i signal) (s.move i (.copying size s.read []))
  | signalled {i size} : s.serialRead i = .waiting size → s.readReady ≠ true →
      ReadEffect s (.waitEvent i true) (s.move i .idle)
  | copyByte {i size result copied} : s.serialRead i = .copying size result copied →
      copied.length < result → ReadEffect s (.copyToUser i) (s.copyByte i size result copied)
  | fault {i size result copied} : s.serialRead i = .copying size result copied →
      copied.length < result → ReadEffect s (.copyFault i) (s.move i .idle)
  | resetRead {i size copied} : s.serialRead i = .copying size copied.length copied →
      ReadEffect s (.resetRead i) (s.resetRead i size copied)
  | resetReady {i size copied} : s.serialRead i = .resetting size copied →
      ReadEffect s (.atomicSet i) (s.resetReady i size copied)
  | enabled {i size copied} : s.serialRead i = .enabling size copied →
      ReadEffect s (.enableRdai i) (s.enabled i size copied)
  | interrupted {burst} : s.rdai = true →
      ReadEffect s (.serialInterruptHandle burst) (s.interrupted burst)

/-- Every step has one of these effects. -/
theorem readEffect_of_step [DecidableEq ι] {s s' : ReadState ι} {a : ReadAction ι}
    (h : readStep s a = some s') : ReadEffect s a s' := by
  cases a with
  | serialRead i size =>
    obtain ⟨hidle, hs'⟩ := Option.ite_none_right_eq_some.mp h
    rw [← Option.some.inj hs']
    split
    next hsize =>
      rw [hsize]
      exact .returnZero
    next => exact .begun hidle
  | waitEvent i signal =>
    -- Each of the other actions needs a request at its own point.
    rw [readStep] at h
    split at h
    next size hprogress =>
      split at h
      next hready =>
        rw [← Option.some.inj h]
        exact .passed hprogress hready
      next hready =>
        obtain ⟨rfl, hs'⟩ := Option.ite_none_right_eq_some.mp h
        rw [← Option.some.inj hs']
        exact .signalled hprogress hready
    all_goals cases h
  | copyToUser i =>
    rw [readStep] at h
    split at h
    next size result copied hprogress =>
      obtain ⟨hlt, hs'⟩ := Option.ite_none_right_eq_some.mp h
      rw [← Option.some.inj hs']
      exact .copyByte hprogress hlt
    all_goals cases h
  | copyFault i =>
    rw [readStep] at h
    split at h
    next size result copied hprogress =>
      obtain ⟨hlt, hs'⟩ := Option.ite_none_right_eq_some.mp h
      rw [← Option.some.inj hs']
      exact .fault hprogress hlt
    all_goals cases h
  | resetRead i =>
    rw [readStep] at h
    split at h
    next size result copied hprogress =>
      obtain ⟨rfl, hs'⟩ := Option.ite_none_right_eq_some.mp h
      rw [← Option.some.inj hs']
      exact .resetRead hprogress
    all_goals cases h
  | atomicSet i =>
    rw [readStep] at h
    split at h
    next size copied hprogress =>
      rw [← Option.some.inj h]
      exact .resetReady hprogress
    all_goals cases h
  | enableRdai i =>
    rw [readStep] at h
    split at h
    next size copied hprogress =>
      rw [← Option.some.inj h]
      exact .enabled hprogress
    all_goals cases h
  | serialInterruptHandle burst =>
    obtain ⟨hrdai, hs'⟩ := Option.ite_none_right_eq_some.mp h
    rw [← Option.some.inj hs']
    exact .interrupted hrdai

/-! ### Delivering the stream -/

/-- The bytes that the returned calls have returned. -/
def ReadState.delivered (s : ReadState ι) : List UInt8 := (s.returned.map Prod.snd).flatten

/-- The buffer is not overrun, no call returns more than it was asked for, and the bytes returned
    are the first of those received; the others are in the buffer, unless a call is taking them. -/
structure Delivers (s : ReadState ι) : Prop where
  read_le : s.read ≤ SIZE
  bounded : ∀ e ∈ s.returned, e.2.length ≤ e.1
  inOrder : s.delivered <+: s.received
  unread : (∀ i, ¬ (s.serialRead i).Past) →
    s.received = s.delivered ++ readBytes s.readBuffer 0 s.read

/-- A burst fits into the buffer; a call that passes its wait was asked for no less than there is in
    the buffer, and no other call is past its wait. -/
def Fits (s : ReadState ι) : ReadAction ι → Prop
  | .serialInterruptHandle burst => s.read + burst.length ≤ SIZE
  | .waitEvent i _ => ∀ size, s.serialRead i = .waiting size → s.readReady = true →
      s.read ≤ size ∧ ∀ j, ¬ (s.serialRead j).Past
  | .serialRead .. | .copyToUser _ | .copyFault _ | .resetRead _ | .atomicSet _ | .enableRdai _ =>
    True

instance decidableFits [Fintype ι] (s : ReadState ι) : (a : ReadAction ι) → Decidable (Fits s a)
  | .serialInterruptHandle burst => inferInstanceAs (Decidable (s.read + burst.length ≤ SIZE))
  | .waitEvent i _ =>
    match h : s.serialRead i with
    | .waiting size =>
      decidable_of_iff (s.readReady = true → s.read ≤ size ∧ ∀ j, ¬ (s.serialRead j).Past)
        ⟨fun hfits _ hsize => Reading.waiting.inj (h.symm.trans hsize) ▸ hfits,
          fun hfits => hfits size h⟩
    | .idle | .copying .. | .resetting .. | .enabling .. =>
      isTrue fun _ hsize => Reading.noConfusion (h.symm.trans hsize)
  | .serialRead .. | .copyToUser _ | .copyFault _ | .resetRead _ | .atomicSet _ | .enableRdai _ =>
    isTrue trivial

/-- What a call past its wait finds, and has taken. -/
def Takes (s : ReadState ι) : Reading → Prop
  | .idle | .waiting _ => True
  | .copying size result copied =>
    result = s.read ∧ result ≤ size ∧ copied = readBytes s.readBuffer 0 copied.length ∧
      s.received = s.delivered ++ readBytes s.readBuffer 0 s.read
  | .resetting size copied =>
    s.read = 0 ∧ copied.length ≤ size ∧ s.received = s.delivered ++ copied
  | .enabling size copied =>
    s.read = 0 ∧ s.readReady = false ∧ copied.length ≤ size ∧ s.received = s.delivered ++ copied

/-- What holds between the device and the calls. -/
structure ReadInv (s : ReadState ι) : Prop where
  alone : ∀ i j, (s.serialRead i).Past → (s.serialRead j).Past → i = j
  quiet : s.rdai = true → s.read = 0 ∧ s.readReady = false ∧ ∀ i, ¬ (s.serialRead i).Past
  takes : ∀ i, Takes s (s.serialRead i)
  delivers : Delivers s

/-- The invariant holds at first. -/
theorem readInv_init : ReadInv (.init ι) where
  alone := nofun
  quiet := fun _ => ⟨rfl, rfl, fun _ => id⟩
  takes := fun _ => trivial
  delivers := ⟨Nat.zero_le _, nofun, List.prefix_rfl, fun _ => rfl⟩

variable {s : ReadState ι} {i : ι}

/-- In front of the wait there is nothing to take. -/
theorem takes_of_not_past {progress : Reading} (h : ¬ progress.Past) : Takes s progress := by
  cases progress with
  | idle | waiting => trivial
  | copying | resetting | enabling => exact absurd trivial h

/-- A call past its wait has the bytes that come next, or finds them in the buffer. -/
theorem Takes.inOrder {progress : Reading} (h : Takes s progress) (hpast : progress.Past) :
    s.delivered <+: s.received := by
  cases progress with
  | idle | waiting => exact hpast.elim
  | copying => exact h.2.2.2 ▸ List.prefix_append _ _
  | resetting => exact h.2.2 ▸ List.prefix_append _ _
  | enabling => exact h.2.2.2 ▸ List.prefix_append _ _

/-- The calls other than one that is past its wait are not. -/
theorem ReadInv.others (h : ReadInv s) (hpast : (s.serialRead i).Past) :
    ∀ j, j ≠ i → ¬ (s.serialRead j).Past :=
  fun j hj hpast' => hj (h.alone j i hpast' hpast)

/-- The receive interrupt is disabled while a call is past its wait. -/
theorem ReadInv.rdai_eq_false (h : ReadInv s) (hpast : (s.serialRead i).Past) : s.rdai = false :=
  Bool.eq_false_iff.mpr fun hrdai => (h.quiet hrdai).2.2 i hpast

/-! #### The steps of `serial_read` -/

/-- The bytes returned, with those of one more call. -/
theorem flatten_map_snd_concat (returned : List (Nat × List UInt8)) (e : Nat × List UInt8) :
    ((returned ++ [e]).map Prod.snd).flatten = (returned.map Prod.snd).flatten ++ e.2 := by
  rw [List.map_append, List.flatten_append, List.map_singleton, List.flatten_singleton]

/-- A list with one more element. -/
theorem forall_mem_concat {returned : List (Nat × List UInt8)} {e : Nat × List UInt8}
    (hbounded : ∀ e ∈ returned, e.2.length ≤ e.1) (he : e.2.length ≤ e.1) :
    ∀ e' ∈ returned ++ [e], e'.2.length ≤ e'.1 := by
  intro e' hmem
  rcases List.mem_append.mp hmem with hmem | hmem
  · exact hbounded e' hmem
  · exact List.mem_singleton.mp hmem ▸ he

/-- A call with `size` 0 takes nothing. -/
theorem readInv_returnZero (h : ReadInv s) : ReadInv s.returnZero := by
  have hdelivered : s.returnZero.delivered = s.delivered :=
    (flatten_map_snd_concat s.returned (0, [])).trans (List.append_nil _)
  exact {
    alone := h.alone
    quiet := h.quiet
    takes := fun i => by
      have htakes := h.takes i
      show Takes s.returnZero (s.serialRead i)
      cases hprogress : s.serialRead i with
      | idle | waiting => trivial
      | copying | resetting | enabling =>
        rw [hprogress] at htakes
        rw [Takes, hdelivered]
        exact htakes
    delivers := {
      read_le := h.delivers.read_le
      bounded := forall_mem_concat h.delivers.bounded le_rfl
      inOrder := hdelivered ▸ h.delivers.inOrder
      unread := hdelivered ▸ h.delivers.unread } }

variable [DecidableEq ι]

/-- The other threads stay. -/
theorem serialRead_move_of_ne (s : ReadState ι) {i j : ι} (progress : Reading) (hj : j ≠ i) :
    (s.move i progress).serialRead j = s.serialRead j := Function.update_of_ne hj _ _

/-- Where the thread is that has moved. -/
theorem serialRead_move_self (s : ReadState ι) (i : ι) (progress : Reading) :
    (s.move i progress).serialRead i = progress := Function.update_self _ _ _

/-- A call moves before the end of its wait. -/
theorem readInv_move_before (h : ReadInv s) {progress : Reading}
    (hbefore : ¬ (s.serialRead i).Past) (hafter : ¬ progress.Past) :
    ReadInv (s.move i progress) := by
  -- A request that is not past its wait is nowhere in the invariant.
  have hpast (j : ι) : ((s.move i progress).serialRead j).Past ↔ (s.serialRead j).Past := by
    by_cases hj : j = i
    · subst hj
      rw [serialRead_move_self]
      exact iff_of_false hafter hbefore
    · rw [serialRead_move_of_ne s progress hj]
  exact {
    alone := fun j k hj hk => h.alone j k ((hpast j).mp hj) ((hpast k).mp hk)
    quiet := fun hrdai => by
      obtain ⟨hzero, hready, hout⟩ := h.quiet hrdai
      exact ⟨hzero, hready, fun j hj => hout j ((hpast j).mp hj)⟩
    takes := fun j => by
      by_cases hj : j = i
      · subst hj
        rw [serialRead_move_self]
        exact takes_of_not_past hafter
      · rw [serialRead_move_of_ne s progress hj]
        exact h.takes j
    delivers := {
      read_le := h.delivers.read_le
      bounded := h.delivers.bounded
      inOrder := h.delivers.inOrder
      unread := fun hout => h.delivers.unread fun j hj => hout j ((hpast j).mpr hj) } }

/-- One call moves, and no other is past its wait. -/
theorem ReadInv.of_update {s' : ReadState ι} {progress : Reading}
    (hserialRead : s'.serialRead = Function.update s.serialRead i progress)
    (hothers : ∀ j, j ≠ i → ¬ (s.serialRead j).Past)
    (hquiet : s'.rdai = true → s'.read = 0 ∧ s'.readReady = false ∧ ¬ progress.Past)
    (htakes : Takes s' progress) (hread : s'.read ≤ SIZE)
    (hbounded : ∀ e ∈ s'.returned, e.2.length ≤ e.1)
    (hunread : ¬ progress.Past → s'.received = s'.delivered ++ readBytes s'.readBuffer 0 s'.read) :
    ReadInv s' := by
  -- The request moves, and no other one is past its wait.
  have hself : s'.serialRead i = progress := by rw [hserialRead, Function.update_self]
  have hout (j : ι) (hj : j ≠ i) : ¬ (s'.serialRead j).Past := by
    rw [hserialRead, Function.update_of_ne hj]
    exact hothers j hj
  exact {
    alone := fun j k hj hk =>
      (not_imp_not.mp (hout j) hj).trans (not_imp_not.mp (hout k) hk).symm
    quiet := fun hrdai => by
      obtain ⟨hzero, hready, hprogress⟩ := hquiet hrdai
      refine ⟨hzero, hready, fun j => ?_⟩
      by_cases hj : j = i
      · rw [hj, hself]
        exact hprogress
      · exact hout j hj
    takes := fun j => by
      by_cases hj : j = i
      · rw [hj, hself]
        exact htakes
      · exact takes_of_not_past (hout j hj)
    delivers := {
      read_le := hread
      bounded := hbounded
      inOrder := by
        by_cases hpast : progress.Past
        · exact htakes.inOrder hpast
        · exact hunread hpast ▸ List.prefix_append _ _
      unread := fun hall => hunread (hself ▸ hall i) } }

/-- Behind the wait a thread has the buffer for itself. -/
theorem readInv_passed (h : ReadInv s) {size : Nat} (hready : s.readReady = true)
    (hsize : s.read ≤ size) (hout : ∀ j, ¬ (s.serialRead j).Past) :
    ReadInv (s.move i (.copying size s.read [])) := by
  refine .of_update rfl (fun j _ => hout j) (fun hrdai => ?_) ?_ h.delivers.read_le
    h.delivers.bounded fun _ => h.delivers.unread hout
  · exact absurd ((h.quiet hrdai).2.1.symm.trans hready) Bool.noConfusion
  · exact ⟨rfl, hsize, rfl, h.delivers.unread hout⟩

variable {size result : Nat} {copied : List UInt8}

/-- One byte more is copied. -/
theorem readInv_copyByte (h : ReadInv s)
    (hprogress : s.serialRead i = .copying size result copied) :
    ReadInv (s.copyByte i size result copied) := by
  have hpast : (s.serialRead i).Past := hprogress ▸ trivial
  obtain ⟨hresult, hsize, hcopied, hreceived⟩ : Takes s (.copying size result copied) :=
    hprogress ▸ h.takes i
  refine .of_update rfl (h.others hpast) (fun hrdai => ?_) ⟨hresult, hsize, ?_, hreceived⟩
    h.delivers.read_le h.delivers.bounded fun _ => hreceived
  · exact absurd hrdai (Bool.eq_false_iff.mp (h.rdai_eq_false hpast))
  · show _ = readBytes s.readBuffer 0 (copied ++ [_]).length
    rw [List.length_append, List.length_singleton, readBytes_succ, ← hcopied, Nat.zero_add]

/-- The bytes stay in the buffer, for the next call. -/
theorem readInv_fault (h : ReadInv s) (hprogress : s.serialRead i = .copying size result copied) :
    ReadInv (s.move i .idle) := by
  have hpast : (s.serialRead i).Past := hprogress ▸ trivial
  obtain ⟨-, -, -, hreceived⟩ : Takes s (.copying size result copied) := hprogress ▸ h.takes i
  refine .of_update rfl (h.others hpast) (fun hrdai => ?_) trivial h.delivers.read_le
    h.delivers.bounded fun _ => hreceived
  exact absurd hrdai (Bool.eq_false_iff.mp (h.rdai_eq_false hpast))

/-- The buffer is empty again. -/
theorem readInv_resetRead (h : ReadInv s)
    (hprogress : s.serialRead i = .copying size copied.length copied) :
    ReadInv (s.resetRead i size copied) := by
  have hpast : (s.serialRead i).Past := hprogress ▸ trivial
  obtain ⟨hresult, hsize, hcopied, hreceived⟩ : Takes s (.copying size copied.length copied) :=
    hprogress ▸ h.takes i
  refine .of_update rfl (h.others hpast) (fun hrdai => ?_) ⟨rfl, hsize, ?_⟩ (Nat.zero_le _)
    h.delivers.bounded fun hout => absurd trivial hout
  · exact absurd hrdai (Bool.eq_false_iff.mp (h.rdai_eq_false hpast))
  · show s.received = s.delivered ++ copied
    rw [hreceived, ← hresult, ← hcopied]

/-- The flag is cleared. -/
theorem readInv_resetReady (h : ReadInv s) (hprogress : s.serialRead i = .resetting size copied) :
    ReadInv (s.resetReady i size copied) := by
  have hpast : (s.serialRead i).Past := hprogress ▸ trivial
  obtain ⟨hzero, hsize, hreceived⟩ : Takes s (.resetting size copied) := hprogress ▸ h.takes i
  refine .of_update rfl (h.others hpast) (fun hrdai => ?_) ⟨hzero, rfl, hsize, hreceived⟩
    h.delivers.read_le h.delivers.bounded fun hout => absurd trivial hout
  exact absurd hrdai (Bool.eq_false_iff.mp (h.rdai_eq_false hpast))

/-- The bytes taken are returned, and the buffer is empty. -/
theorem readInv_enabled (h : ReadInv s) (hprogress : s.serialRead i = .enabling size copied) :
    ReadInv (s.enabled i size copied) := by
  have hpast : (s.serialRead i).Past := hprogress ▸ trivial
  obtain ⟨hzero, hready, hsize, hreceived⟩ : Takes s (.enabling size copied) :=
    hprogress ▸ h.takes i
  refine .of_update rfl (h.others hpast) (fun _ => ⟨hzero, hready, id⟩) trivial
    h.delivers.read_le (forall_mem_concat h.delivers.bounded hsize) fun _ => ?_
  show s.received = ((s.returned ++ [(size, copied)]).map Prod.snd).flatten ++
    readBytes s.readBuffer 0 s.read
  rw [flatten_map_snd_concat, hzero, hreceived]
  exact (List.append_nil _).symm

/-! #### The receive interrupt -/

/-- The loop stores the bytes one behind the other. -/
theorem readBytes_drain (readBuffer : Mem) (read : Nat) (burst : List UInt8) :
    readBytes (drain readBuffer read burst).1 0 (drain readBuffer read burst).2 =
      readBytes readBuffer 0 read ++ burst := by
  induction burst generalizing readBuffer read with
  | nil => exact (List.append_nil _).symm
  | cons ch rest ih =>
    rw [drain, ih, readBytes_update_succ, List.append_assoc, List.singleton_append]

/-- The handler counts the bytes that it takes. -/
theorem drain_snd (readBuffer : Mem) (read : Nat) (burst : List UInt8) :
    (drain readBuffer read burst).2 = read + burst.length := by
  induction burst generalizing readBuffer read with
  | nil => rfl
  | cons ch rest ih => rw [drain, ih, List.length_cons, Nat.add_right_comm, Nat.add_assoc]

omit [DecidableEq ι] in
/-- The receive interrupt fills the buffer. -/
theorem readInv_interrupted (h : ReadInv s) (hrdai : s.rdai = true) {burst : List UInt8}
    (hfits : s.read + burst.length ≤ SIZE) : ReadInv (s.interrupted burst) := by
  obtain ⟨-, -, hout⟩ := h.quiet hrdai
  have hunread : s.received ++ burst = s.delivered ++
      readBytes (drain s.readBuffer s.read burst).1 0 (drain s.readBuffer s.read burst).2 := by
    rw [readBytes_drain, h.delivers.unread hout, List.append_assoc]
  exact {
    alone := h.alone
    quiet := nofun
    takes := fun j => takes_of_not_past (hout j)
    delivers := {
      read_le := (drain_snd s.readBuffer s.read burst).trans_le hfits
      bounded := h.delivers.bounded
      inOrder := h.delivers.inOrder.trans (List.prefix_append _ _)
      unread := fun _ => hunread } }

/-! #### Runs -/

/-- **Step.**  Every step whose bytes fit keeps the invariant. -/
theorem readInv_step {s' : ReadState ι} {a : ReadAction ι} (h : ReadInv s) (hfits : Fits s a)
    (hs' : readStep s a = some s') : ReadInv s' := by
  cases readEffect_of_step hs' with
  | returnZero => exact readInv_returnZero h
  | begun hidle => exact readInv_move_before h (hidle ▸ id) id
  | passed hwaiting hready =>
    obtain ⟨hsize, hout⟩ := hfits _ hwaiting hready
    exact readInv_passed h hready hsize hout
  | signalled hwaiting _ => exact readInv_move_before h (hwaiting ▸ id) id
  | copyByte hprogress _ => exact readInv_copyByte h hprogress
  | fault hprogress _ => exact readInv_fault h hprogress
  | resetRead hprogress => exact readInv_resetRead h hprogress
  | resetReady hprogress => exact readInv_resetReady h hprogress
  | enabled hprogress => exact readInv_enabled h hprogress
  | interrupted hrdai => exact readInv_interrupted h hrdai hfits

/-- **Reads, within their sizes and in order.**  As long as every burst fits into the buffer, every
    call that passes its wait was asked for what there is, and only one is past its wait, the stream
    is delivered. -/
theorem serialRead_delivers (as : List (ReadAction ι))
    (hfits : EachStep readStep Fits (.init ι) as) : Always readStep Delivers (.init ι) as :=
  (always_of_inductive (fun _ _ _ h hfits hs' => readInv_step h hfits hs') readInv_init hfits).mono
    fun _ h => h.delivers

/-- Two calls of four bytes each; the first gets the two bytes that come. -/
theorem serialRead_delivers_two : Always readStep Delivers (.init Bool)
    [.serialRead false 4, .serialRead true 4, .serialInterruptHandle [7, 8], .waitEvent false false,
      .copyToUser false, .copyToUser false, .resetRead false, .atomicSet false,
      .enableRdai false] :=
  serialRead_delivers _ (by decide)

/-- A call asks for one byte when two have come, and returns both. -/
theorem not_serialRead_delivers :
    ¬ ∀ as : List (ReadAction Unit), Always readStep Delivers (.init Unit) as := by
  intro h
  have hlast := (h [.serialRead () 1, .serialInterruptHandle [7, 8], .waitEvent () false,
    .copyToUser (), .copyToUser (), .resetRead (), .atomicSet (), .enableRdai ()]).last rfl
  exact absurd (hlast.bounded (1, [7, 8]) (List.mem_singleton_self _)) (by decide)

/-! ### What does not fit -/

omit [DecidableEq ι] in
/-- A burst that does not fit overruns the buffer. -/
theorem not_delivers_interrupted {burst : List UInt8} (h : SIZE < s.read + burst.length) :
    ¬ Delivers (s.interrupted burst) := by
  intro hdelivers
  have hread : (drain s.readBuffer s.read burst).2 ≤ SIZE := hdelivers.read_le
  rw [drain_snd] at hread
  omega

/-- The rest of the bytes is copied. -/
theorem exists_run_copyToUser (n : Nat) (hprogress : s.serialRead i = .copying size result copied)
    (hrest : copied.length + n = result) :
    ∃ s' copied', run readStep s (List.replicate n (.copyToUser i)) = some s' ∧
      s'.serialRead i = .copying size copied'.length copied' ∧ copied'.length = result := by
  induction n generalizing s copied with
  | zero => exact ⟨s, copied, rfl, by rw [hprogress, ← hrest]; rfl, hrest⟩
  | succ n ih =>
    have hlt : copied.length < result := by omega
    have hstep : readStep s (.copyToUser i) = some (s.copyByte i size result copied) := by
      simp only [readStep, hprogress, if_pos hlt]
    obtain ⟨s', copied', hrun, hprogress', hlength⟩ :=
      ih (serialRead_move_self s i (.copying size result (copied ++ [s.readBuffer copied.length])))
        (by rw [List.length_append, List.length_singleton]; omega)
    refine ⟨s', copied', ?_, hprogress', hlength⟩
    rw [List.replicate_succ, run_cons, hstep]
    exact hrun

/-- **More than asked for.**  A call that passes its wait with more in the buffer than it was asked
    for returns too much, if no other call and no interrupt comes before its end. -/
theorem not_always_delivers (hwaiting : s.serialRead i = .waiting size)
    (hready : s.readReady = true) (hlt : size < s.read) :
    ¬ Always readStep Delivers s (.waitEvent i false :: (List.replicate s.read (.copyToUser i) ++
      [.resetRead i, .atomicSet i, .enableRdai i])) := by
  intro h
  have hpassed : readStep s (.waitEvent i false) = some (s.move i (.copying size s.read [])) := by
    simp only [readStep, hwaiting, if_pos hready]
  obtain ⟨s₁, copied, hrun, hprogress, hlength⟩ := exists_run_copyToUser s.read
    (serialRead_move_self s i (.copying size s.read [])) (Nat.zero_add _)
  -- The call ends with `copied`, all of the buffer.
  have hreset : readStep s₁ (.resetRead i) = some (s₁.resetRead i size copied) := by
    simp only [readStep, hprogress, if_true]
  have hset : readStep (s₁.resetRead i size copied) (.atomicSet i) =
      some ((s₁.resetRead i size copied).resetReady i size copied) := by
    simp only [readStep, ReadState.resetRead, Function.update_self]
  have henable : readStep ((s₁.resetRead i size copied).resetReady i size copied) (.enableRdai i) =
      some (((s₁.resetRead i size copied).resetReady i size copied).enabled i size copied) := by
    simp only [readStep, ReadState.resetReady, Function.update_self]
  have hend : run readStep s (.waitEvent i false :: (List.replicate s.read (.copyToUser i) ++
      [.resetRead i, .atomicSet i, .enableRdai i])) =
        some (((s₁.resetRead i size copied).resetReady i size copied).enabled i size copied) := by
    rw [run_cons, hpassed, Option.bind_some, run_append, hrun, Option.bind_some, run_cons, hreset,
      Option.bind_some, run_cons, hset, Option.bind_some, run_cons, henable]
    rfl
  have hle : copied.length ≤ size :=
    (h.last hend).bounded (size, copied) (List.mem_append_right _ (List.mem_singleton_self _))
  omega

end WorkAtUPB.SerialPortDriverLinux
