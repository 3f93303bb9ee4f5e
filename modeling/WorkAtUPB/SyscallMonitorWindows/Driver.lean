import Mathlib.Logic.Function.Basic
import WorkAtUPB.Lib.Flags

namespace WorkAtUPB.SyscallMonitorWindows

open Flags

/-!
# SyscallMonitorWindows — the interceptor of system calls (`sci.c`)

The driver keeps for each system call its flags, the list of the pids that it is monitored for,
and the entry that the interceptor has replaced.  Requests come in through `my_syscall`, and
`my_exit_function` is told of the processes that are created and that exit:

* `Driver` — `info` and the table of system calls;
* `addPID`, `removePID` — the lists of pids;
* `doCheck` — who may start and stop a monitor (`DO_CHECK`);
* `mySyscall` — a request; `myExitFunction` — a process that is created or exits.
-/

/-! ### Constants -/

/-- `MY_SYSCALL_NO`, the number of system calls. -/
def mySyscallNo : Nat := 0x200

/-- `MY_REQUEST_SYSCALL_INTERCEPT`, the bit of `cmd` for an interception. -/
def myRequestSyscallIntercept : BitVec 32 := 1

/-- `MY_REQUEST_SYSCALL_RELEASE`, the mask that clears it. -/
def myRequestSyscallRelease : BitVec 32 := ~~~1

/-- `MY_REQUEST_START_MONITOR`, the bit of `cmd` for a monitor. -/
def myRequestStartMonitor : BitVec 32 := 2

/-- `MY_REQUEST_STOP_MONITOR`, the mask that clears it. -/
def myRequestStopMonitor : BitVec 32 := ~~~2

/-- `REQUEST_START_MONITOR`. -/
def requestStartMonitor : Int := 0

/-- `REQUEST_STOP_MONITOR`. -/
def requestStopMonitor : Int := 1

/-- `REQUEST_SYSCALL_INTERCEPT`. -/
def requestSyscallIntercept : Int := 2

/-- `REQUEST_SYSCALL_RELEASE`. -/
def requestSyscallRelease : Int := 3

/-- `NTSTATUS`. -/
abbrev NtStatus := BitVec 32

/-- `STATUS_SUCCESS`. -/
def statusSuccess : NtStatus := 0

/-- `STATUS_DEVICE_BUSY`. -/
def statusDeviceBusy : NtStatus := 0x80000011

/-- `STATUS_INVALID_PARAMETER`. -/
def statusInvalidParameter : NtStatus := 0xC000000D

/-- `STATUS_NO_MEMORY`. -/
def statusNoMemory : NtStatus := 0xC0000017

/-- `STATUS_ACCESS_DENIED`. -/
def statusAccessDenied : NtStatus := 0xC0000022

/-! ### The state -/

/-- The number of a system call. -/
abbrev SyscallNo := Fin mySyscallNo

/-- An entry of the table of system calls. -/
inductive Entry where
  | null
  | kernel (address : Nat)
  | interceptor
  deriving DecidableEq, Repr

/-- `struct syscall_info_t`. -/
structure SyscallInfo where
  cmd : BitVec 32
  pid : List Nat
  oldSyscallFptr : Entry

/-- `info` and `ksdt->st`. -/
structure Driver where
  info : SyscallNo → SyscallInfo
  st : SyscallNo → Entry

/-- A call of `my_syscall`: the arguments, what the system answers about the caller and the
    process, and whether there is memory for a list entry. -/
structure Request where
  cmd : Int
  syscallNo : Int
  pid : Nat
  userAdmin : Bool
  /-- The status of `PsLookupProcessByProcessId`. -/
  lookup : NtStatus
  /-- The status of `GetCurrentUser`. -/
  currentUser : NtStatus
  /-- The status of `GetUserOf`. -/
  userOf : NtStatus
  /-- `CheckUsers`. -/
  sameUser : Bool
  pool : Bool

/-- `DriverEntry`, with the addresses that the table holds before. -/
def driverEntry (original : SyscallNo → Nat) : Driver where
  info := fun _ => ⟨0, [], .null⟩
  st := fun n => .kernel (original n)

/-! ### Lists of pids -/

/-- `addPID`: `PushEntryList` puts the new entry first. -/
def addPID (list : List Nat) (pid : Nat) (pool : Bool) : NtStatus × List Nat :=
  if pool then (statusSuccess, pid :: list) else (statusNoMemory, list)

/-- `removePID`: the first entry with the pid is popped. -/
def removePID (list : List Nat) (pid : Nat) : NtStatus × List Nat :=
  if pid ∈ list then (statusSuccess, list.erase pid) else (statusInvalidParameter, list)

/-- `RemovePID` leaves the list without the first entry of the pid. -/
theorem removePID_snd (list : List Nat) (pid : Nat) : (removePID list pid).2 = list.erase pid := by
  unfold removePID
  split
  · rfl
  · next h => exact (List.erase_of_not_mem h).symm

/-- `RemovePID` succeeds if the pid is in the list. -/
theorem removePID_fst (list : List Nat) (pid : Nat) :
    (removePID list pid).1 = statusSuccess ↔ pid ∈ list := by
  unfold removePID
  split
  · next h => simp [h]
  · next h => exact iff_of_false (show statusInvalidParameter ≠ statusSuccess by decide) h

/-- `DO_CHECK`: the status to return, if the caller may not go on. -/
def Request.doCheck (r : Request) : Option NtStatus :=
  if r.pid = 0 then
    if r.userAdmin then none else some statusAccessDenied
  else if r.lookup ≠ statusSuccess then some r.lookup
  else if r.currentUser ≠ statusSuccess then some r.currentUser
  else if r.userOf ≠ statusSuccess then some r.userOf
  else if r.userAdmin ∨ r.sameUser then none
  else some statusAccessDenied

namespace Driver

variable (s : Driver)

/-- `info[n]` is changed. -/
def setInfo (n : SyscallNo) (i : SyscallInfo) : Driver :=
  { s with info := Function.update s.info n i }

/-- The flag `MY_REQUEST_SYSCALL_INTERCEPT` of a system call. -/
def intercepts (n : SyscallNo) : Bool := test (s.info n).cmd myRequestSyscallIntercept

/-- The flag `MY_REQUEST_START_MONITOR` of a system call. -/
def monitors (n : SyscallNo) : Bool := test (s.info n).cmd myRequestStartMonitor

/-! ### The requests -/

/-- `REQUEST_SYSCALL_INTERCEPT`. -/
def intercept (n : SyscallNo) (r : Request) : NtStatus × Driver :=
  if ¬ r.userAdmin then (statusAccessDenied, s)
  else if s.intercepts n then (statusDeviceBusy, s)
  else (statusSuccess, {
    info := Function.update s.info n { s.info n with
      cmd := (s.info n).cmd ||| myRequestSyscallIntercept
      oldSyscallFptr := s.st n }
    st := Function.update s.st n .interceptor })

/-- `REQUEST_SYSCALL_RELEASE`. -/
def release (n : SyscallNo) (r : Request) : NtStatus × Driver :=
  if ¬ r.userAdmin then (statusAccessDenied, s)
  else if ¬ s.intercepts n then (statusInvalidParameter, s)
  else (statusSuccess, {
    info := Function.update s.info n { s.info n with
      cmd := (s.info n).cmd &&& myRequestSyscallRelease }
    st := Function.update s.st n (s.info n).oldSyscallFptr })

/-- The flag is set and the pid added. -/
def started (n : SyscallNo) (r : Request) : Driver :=
  s.setInfo n { s.info n with
    cmd := (s.info n).cmd ||| myRequestStartMonitor
    pid := (addPID (s.info n).pid r.pid r.pool).2 }

/-- `REQUEST_START_MONITOR`. -/
def startMonitor (n : SyscallNo) (r : Request) : NtStatus × Driver :=
  match r.doCheck with
  | some status => (status, s)
  | none =>
    if s.monitors n then (statusDeviceBusy, s)
    else if ¬ s.intercepts n then (statusInvalidParameter, s)
    else (statusSuccess, s.started n r)

/-- The flag is cleared, and `list` is left. -/
def stopped (n : SyscallNo) (list : List Nat) : Driver :=
  s.setInfo n { s.info n with
    cmd := (s.info n).cmd &&& myRequestStopMonitor
    pid := list }

/-- `REQUEST_STOP_MONITOR`: if the pid is not in the list, the flag stays. -/
def stopMonitor (n : SyscallNo) (r : Request) : NtStatus × Driver :=
  match r.doCheck with
  | some status => (status, s)
  | none =>
    if ¬ s.monitors n then (statusInvalidParameter, s)
    else
      let removed := removePID (s.info n).pid r.pid
      if removed.1 ≠ statusSuccess then (removed.1, s)
      else (statusSuccess, s.stopped n removed.2)

/-- `my_syscall`: the answer, and the state after it. -/
def mySyscall (r : Request) : NtStatus × Driver :=
  if h : 0 ≤ r.syscallNo ∧ r.syscallNo < mySyscallNo then
    let n : SyscallNo := ⟨r.syscallNo.toNat, by omega⟩
    if r.cmd = requestSyscallIntercept then s.intercept n r
    else if r.cmd = requestSyscallRelease then s.release n r
    else if r.cmd = requestStartMonitor then s.startMonitor n r
    else if r.cmd = requestStopMonitor then s.stopMonitor n r
    else (statusInvalidParameter, s)
  else (statusInvalidParameter, s)

/-- `my_exit_function`: a process that exits is removed from all lists. -/
def myExitFunction (processId : Nat) (create : Bool) : Driver :=
  if create then s
  else { s with info := fun n => { s.info n with pid := (removePID (s.info n).pid processId).2 } }

/-! ### What the operations leave -/

/-- No system call is monitored at first. -/
@[simp] theorem monitors_driverEntry (original : SyscallNo → Nat) (n : SyscallNo) :
    (driverEntry original).monitors n = false := test_zero _

section Flags

variable (m n : SyscallNo) (r : Request)

/-- A monitor that is started sets the flag of its system call. -/
theorem monitors_started :
    (s.started n r).monitors m = (decide (m = n) || s.monitors m) := by
  have hmask : myRequestStartMonitor ≠ 0 := by decide
  exact update_true (fun i : SyscallInfo => test i.cmd myRequestStartMonitor) (test_set _ hmask) m

/-- A monitor that is stopped clears the flag of its system call. -/
theorem monitors_stopped (list : List Nat) :
    (s.stopped n list).monitors m = (!decide (m = n) && s.monitors m) := by
  have hcleared := test_clear (m := myRequestStartMonitor) (s.info n).cmd
  exact update_false (fun i : SyscallInfo => test i.cmd myRequestStartMonitor) hcleared m

/-- An interception leaves the flags of the monitors. -/
theorem monitors_intercept : (s.intercept n r).2.monitors m = s.monitors m := by
  have hkept := test_set_of_disjoint (m := myRequestSyscallIntercept) (n := myRequestStartMonitor)
    (s.info n).cmd (by decide)
  unfold intercept
  split
  · rfl
  split
  · rfl
  · exact update_component (fun i : SyscallInfo => test i.cmd myRequestStartMonitor) hkept m

/-- A release leaves the flags of the monitors. -/
theorem monitors_release : (s.release n r).2.monitors m = s.monitors m := by
  have hkept := test_clear_of_disjoint (m := myRequestSyscallIntercept)
    (n := myRequestStartMonitor) (s.info n).cmd (by decide)
  unfold release
  split
  · rfl
  split
  · rfl
  · exact update_component (fun i : SyscallInfo => test i.cmd myRequestStartMonitor) hkept m

/-- An interception leaves the lists. -/
theorem pid_intercept : ((s.intercept n r).2.info m).pid = (s.info m).pid := by
  unfold intercept
  split
  · rfl
  split
  · rfl
  · refine update_component SyscallInfo.pid ?_ m
    rfl

/-- A release leaves the lists. -/
theorem pid_release : ((s.release n r).2.info m).pid = (s.info m).pid := by
  unfold release
  split
  · rfl
  split
  · rfl
  · refine update_component SyscallInfo.pid ?_ m
    rfl

variable {m n} in
/-- A monitor concerns one system call. -/
theorem pid_started_of_ne (hmn : m ≠ n) : ((s.started n r).info m).pid = (s.info m).pid := by
  simp [started, setInfo, hmn]

/-- A monitor that is started adds its pid. -/
theorem pid_started (hpool : r.pool = true) :
    ((s.started n r).info n).pid = r.pid :: (s.info n).pid := by
  simp [started, setInfo, addPID, hpool]

variable {m n} in
/-- The end of a monitor concerns one system call. -/
theorem pid_stopped_of_ne (hmn : m ≠ n) (list : List Nat) :
    ((s.stopped n list).info m).pid = (s.info m).pid := by
  simp [stopped, setInfo, hmn]

/-- A monitor that is stopped leaves the list that it is given. -/
theorem pid_stopped (list : List Nat) : ((s.stopped n list).info n).pid = list := by
  simp [stopped, setInfo]

/-- A process that exits is removed from the lists. -/
theorem pid_exit (processId : Nat) :
    ((s.myExitFunction processId false).info n).pid = (s.info n).pid.erase processId :=
  removePID_snd ..

end Flags

/-- **Specification of a request**, as far as the monitors go: nothing, or the beginning of a
    monitor where there is none, or the end of one whose pid is named. -/
theorem mySyscall_cases (r : Request) :
    (∀ m, (s.mySyscall r).2.monitors m = s.monitors m ∧
      ((s.mySyscall r).2.info m).pid = (s.info m).pid) ∨
    (∃ n, s.monitors n = false ∧ (s.mySyscall r).2 = s.started n r) ∨
    ∃ n, s.monitors n = true ∧ r.pid ∈ (s.info n).pid ∧
      (s.mySyscall r).2 = s.stopped n ((s.info n).pid.erase r.pid) := by
  unfold mySyscall
  split <;> [skip; exact Or.inl fun _ => ⟨rfl, rfl⟩]
  dsimp only
  split
  · exact Or.inl fun m => ⟨s.monitors_intercept .., s.pid_intercept ..⟩
  split
  · exact Or.inl fun m => ⟨s.monitors_release .., s.pid_release ..⟩
  split
  -- A monitor begins, if it passes the tests.
  · unfold startMonitor
    split
    · exact Or.inl fun _ => ⟨rfl, rfl⟩
    split
    · exact Or.inl fun _ => ⟨rfl, rfl⟩
    next hfree =>
    split
    · exact Or.inl fun _ => ⟨rfl, rfl⟩
    · exact Or.inr (Or.inl ⟨_, eq_false_of_ne_true hfree, rfl⟩)
  split
  -- A monitor ends, if the pid is in its list.
  · unfold stopMonitor
    split
    · exact Or.inl fun _ => ⟨rfl, rfl⟩
    split
    · exact Or.inl fun _ => ⟨rfl, rfl⟩
    next hset =>
    dsimp only
    split
    · exact Or.inl fun _ => ⟨rfl, rfl⟩
    next hremoved =>
    refine Or.inr (Or.inr ⟨_, Decidable.not_not.mp hset, ?_, ?_⟩)
    · exact (removePID_fst ..).mp (Decidable.not_not.mp hremoved)
    · rw [removePID_snd]
  · exact Or.inl fun _ => ⟨rfl, rfl⟩

/-- A request to stop a monitor. -/
theorem mySyscall_stop {r : Request} {n : SyscallNo} (hn : r.syscallNo = n)
    (hcmd : r.cmd = requestStopMonitor) : s.mySyscall r = s.stopMonitor n r := by
  have hrange : 0 ≤ r.syscallNo ∧ r.syscallNo < mySyscallNo := by
    rw [hn]
    exact ⟨Int.natCast_nonneg _, Int.ofNat_lt.mpr n.isLt⟩
  have hindex : ∀ h, (⟨r.syscallNo.toNat, h⟩ : SyscallNo) = n := fun _ =>
    Fin.ext (by simp [hn])
  rw [mySyscall, dif_pos hrange, hindex, hcmd]
  rfl

end Driver

end WorkAtUPB.SyscallMonitorWindows
