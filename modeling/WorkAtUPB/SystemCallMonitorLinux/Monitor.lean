import Mathlib.Logic.Function.Basic
import WorkAtUPB.Lib.Flags

namespace WorkAtUPB.SystemCallMonitorLinux

open Flags

/-!
# SystemCallMonitorLinux — the interceptor of system calls (`sci.c`)

A kernel module that replaces entries of the system call table by its own function, and writes
the calls of some processes to the log.  Requests come in as a system call, `my_syscall`:

* `Kernel` — the table, and for each system call the flags, the list of pids and the saved entry;
* `interceptSet`, `interceptSwap`, `releaseRestore`, `startMonitor`, `stopMonitor` — what the
  requests do to them, and the tests before them;
* `mySyscall` — a request as a whole;
* `interceptor` — what is called in place of an intercepted system call;
* `effect`, `mySyscall_snd` — which of these a request comes to.

The numbers of system calls are those below `my_nr_syscalls`.
-/

/-! ### Constants -/

/-- `MY_SYSCALL_NO`. -/
def mySyscallNo : Nat := 0

/-- `__NR_exit`. -/
def nrExit : Nat := 1

/-- `__NR_exit_group`. -/
def nrExitGroup : Nat := 252

/-- `ROOT_UID`. -/
def rootUid : Nat := 0

/-- `MY_REQUEST_SYSCALL_INTERCEPT`, the bit of `cmd` for an interception. -/
def myRequestSyscallIntercept : BitVec 32 := 1

/-- `MY_REQUEST_SYSCALL_RELEASE`, the mask that clears it. -/
def myRequestSyscallRelease : BitVec 32 := ~~~1

/-- `MY_REQUEST_START_MONITOR`, the bit of `cmd` for a monitor. -/
def myRequestStartMonitor : BitVec 32 := 2

/-- `MY_REQUEST_STOP_MONITOR`, the mask that clears it. -/
def myRequestStopMonitor : BitVec 32 := ~~~2

/-- `REQUEST_START_MONITOR`. -/
def requestStartMonitor : Int := 0

/-- `REQUEST_STOP_MONITOR`. -/
def requestStopMonitor : Int := 1

/-- `REQUEST_SYSCALL_INTERCEPT`. -/
def requestSyscallIntercept : Int := 2

/-- `REQUEST_SYSCALL_RELEASE`. -/
def requestSyscallRelease : Int := 3

/-- `-EPERM`. -/
def ePerm : Int := -1

/-- `-ENOMEM`. -/
def eNoMem : Int := -12

/-- `-EBUSY`. -/
def eBusy : Int := -16

/-- `-EINVAL`. -/
def eInval : Int := -22

/-! ### The state -/

/-- An entry of the system call table. -/
inductive Entry where
  | null
  | kernel (address : Nat)
  | interceptor
  | mySyscall
  deriving DecidableEq, Repr

/-- `struct syscall_info_t`. -/
structure SyscallInfo where
  cmd : BitVec 32
  pid : List Int
  oldSyscall : Entry

/-- `info` and `sys_call_table`. -/
structure Kernel (nr : Nat) where
  info : Fin nr → SyscallInfo
  sysCallTable : Fin nr → Entry

/-- A process that makes a system call. -/
structure Task where
  pid : Int
  uid : Nat
  pid_pos : 0 < pid

/-- A call of `my_syscall`: who calls it, the processes alive with their owners, whether there is
    memory for `kmalloc`, and the arguments. -/
structure Request (nr : Nat) where
  current : Task
  tasks : Int → Option Nat
  current_alive : tasks current.pid = some current.uid
  kmalloc : Bool
  cmd : Int
  syscall : Fin nr
  pid : Int

variable {nr : Nat}

/-- `my_hello_init`, with the addresses that the table holds before. -/
def myHelloInit (original : Fin nr → Nat) : Kernel nr where
  info := fun _ => ⟨0, [], .null⟩
  sysCallTable := fun n => if n = mySyscallNo then .mySyscall else .kernel (original n)

/-- A system call that requests can be made for. -/
def Valid (n : Fin nr) : Prop := n.val ≠ mySyscallNo ∧ n.val ≠ nrExit ∧ n.val ≠ nrExitGroup

instance (n : Fin nr) : Decidable (Valid n) := inferInstanceAs (Decidable (_ ∧ _ ∧ _))

/-! ### Lists of pids -/

/-- `have_pid`. -/
def havePid (lh : List Int) (pid : Int) : Bool := lh.any fun p => p == pid

/-- `add_pid`: `list_add` puts the new entry first. -/
def addPid (lh : List Int) (pid : Int) (kmalloc : Bool) : Int × List Int :=
  if kmalloc then (0, pid :: lh) else (eNoMem, lh)

/-- `del_pid`: the first entry with the pid is removed. -/
def delPid (lh : List Int) (pid : Int) : Int × List Int :=
  if pid ∈ lh then (0, lh.erase pid) else (eInval, lh)

/-! ### The requests -/

namespace Kernel

variable (s : Kernel nr)

/-- `info[n]` is changed. -/
def setInfo (n : Fin nr) (i : SyscallInfo) : Kernel nr :=
  { s with info := Function.update s.info n i }

/-- The flag `MY_REQUEST_SYSCALL_INTERCEPT` of a system call. -/
def intercepts (n : Fin nr) : Bool := test (s.info n).cmd myRequestSyscallIntercept

/-- The flag `MY_REQUEST_START_MONITOR` of a system call. -/
def monitors (n : Fin nr) : Bool := test (s.info n).cmd myRequestStartMonitor

/-- The tests of `REQUEST_SYSCALL_INTERCEPT`: the error, if there is one. -/
def interceptTest (uid : Nat) (n : Fin nr) : Option Int :=
  if uid ≠ rootUid then some ePerm
  else if s.intercepts n then some eBusy
  else none

/-- `REQUEST_SYSCALL_INTERCEPT`: the flag is set. -/
def interceptSet (n : Fin nr) : Kernel nr :=
  s.setInfo n { s.info n with cmd := (s.info n).cmd ||| myRequestSyscallIntercept }

/-- `REQUEST_SYSCALL_INTERCEPT`: the entry is saved and replaced, under the lock. -/
def interceptSwap (n : Fin nr) : Kernel nr where
  info := Function.update s.info n { s.info n with oldSyscall := s.sysCallTable n }
  sysCallTable := Function.update s.sysCallTable n .interceptor

/-- The tests of `REQUEST_SYSCALL_RELEASE`. -/
def releaseTest (uid : Nat) (n : Fin nr) : Option Int :=
  if uid ≠ rootUid then some ePerm
  else if s.intercepts n then none
  else some eInval

/-- `REQUEST_SYSCALL_RELEASE`: the flag is cleared and the entry restored, under the lock. -/
def releaseRestore (n : Fin nr) : Kernel nr where
  info := Function.update s.info n
    { s.info n with cmd := (s.info n).cmd &&& myRequestSyscallRelease }
  sysCallTable := Function.update s.sysCallTable n (s.info n).oldSyscall

end Kernel

/-- Who may start and stop a monitor: root, and for a process its owner. -/
def Request.taskTest (r : Request nr) : Option Int :=
  if r.pid = 0 then
    if r.current.uid ≠ rootUid then some ePerm else none
  else
    match r.tasks r.pid with
    | none => some eInval
    | some uid => if r.current.uid ≠ rootUid ∧ uid ≠ r.current.uid then some ePerm else none

namespace Kernel

variable (s : Kernel nr) (r : Request nr)

/-- The tests of `REQUEST_START_MONITOR`. -/
def startTest : Option Int :=
  if s.monitors r.syscall then some eBusy
  else if s.intercepts r.syscall then r.taskTest
  else some eInval

/-- `REQUEST_START_MONITOR`: it is the pid of the caller that is added. -/
def startMonitor : Kernel nr :=
  s.setInfo r.syscall { s.info r.syscall with
    pid := (addPid (s.info r.syscall).pid r.current.pid r.kmalloc).2
    cmd := (s.info r.syscall).cmd ||| myRequestStartMonitor }

/-- The tests of `REQUEST_STOP_MONITOR`. -/
def stopTest : Option Int :=
  match r.taskTest with
  | some error => some error
  | none => if s.monitors r.syscall then none else some eInval

/-- `REQUEST_STOP_MONITOR`: it is the pid of the caller that is removed. -/
def stopMonitor : Kernel nr :=
  s.setInfo r.syscall { s.info r.syscall with
    pid := (delPid (s.info r.syscall).pid r.current.pid).2
    cmd := (s.info r.syscall).cmd &&& myRequestStopMonitor }

/-- `__NR_exit_group`: the pid is removed from all lists (the loop leaves out the address of
    `my_syscall`, which is not a number of a system call). -/
def exitGroup (pid : Int) : Kernel nr :=
  { s with info := fun n => { s.info n with pid := (delPid (s.info n).pid pid).2 } }

/-- An error leaves everything as it is. -/
def answer (error : Option Int) (s' : Kernel nr) : Int × Kernel nr :=
  match error with
  | some e => (e, s)
  | none => (0, s')

/-- `my_syscall`: the answer, and the state after it. -/
def mySyscall : Int × Kernel nr :=
  if r.syscall.val = mySyscallNo ∨ r.syscall.val = nrExit then (eInval, s)
  else if r.syscall.val = nrExitGroup then (0, s.exitGroup r.pid)
  else if r.cmd = requestSyscallIntercept then
    s.answer (s.interceptTest r.current.uid r.syscall)
      ((s.interceptSet r.syscall).interceptSwap r.syscall)
  else if r.cmd = requestSyscallRelease then
    s.answer (s.releaseTest r.current.uid r.syscall) (s.releaseRestore r.syscall)
  else if r.cmd = requestStartMonitor then s.answer (s.startTest r) (s.startMonitor r)
  else if r.cmd = requestStopMonitor then s.answer (s.stopTest r) (s.stopMonitor r)
  else (0, s)

/-- `check_pid_log`, for the process `current`. -/
def checkPidLog (n : Fin nr) (current : Int) : Bool :=
  if s.monitors n then
    if havePid (s.info n).pid current then true
    else havePid (s.info n).pid 0
  else false

/-- `interceptor`: the entry that it calls, and whether it calls `log_syscall`. -/
def interceptor (n : Fin nr) (current : Int) : Entry × Bool :=
  ((s.info n).oldSyscall, s.checkPidLog n current)

end Kernel

/-! ### What the requests leave as it is -/

/-- `have_pid` finds the pids of the list. -/
@[simp] theorem havePid_iff (lh : List Int) (pid : Int) : havePid lh pid = true ↔ pid ∈ lh := by
  simp [havePid]

/-- `del_pid` leaves the list without the first entry of the pid. -/
theorem delPid_snd (lh : List Int) (pid : Int) : (delPid lh pid).2 = lh.erase pid := by
  unfold delPid
  split
  · rfl
  · next h => exact (List.erase_of_not_mem h).symm

namespace Kernel

variable (s : Kernel nr)

/-- The record that is set. -/
@[simp] theorem info_setInfo_self (n : Fin nr) (i : SyscallInfo) : (s.setInfo n i).info n = i :=
  Function.update_self ..

/-- The other records stay. -/
@[simp] theorem info_setInfo_of_ne {m n : Fin nr} (i : SyscallInfo) (h : m ≠ n) :
    (s.setInfo n i).info m = s.info m := Function.update_of_ne h ..

/-- The table is not in the records. -/
@[simp] theorem sysCallTable_setInfo (n : Fin nr) (i : SyscallInfo) :
    (s.setInfo n i).sysCallTable = s.sysCallTable := rfl

/-- A call is logged if it is monitored, for its process or for all. -/
theorem interceptor_logs (n : Fin nr) (current : Int) : (s.interceptor n current).2 = true ↔
    s.monitors n = true ∧ (current ∈ (s.info n).pid ∨ 0 ∈ (s.info n).pid) := by
  simp only [interceptor, checkPidLog]
  split
  · next h => simp [h]
  · next h => simp [h]

end Kernel

/-! ### The flags after each operation -/

namespace Kernel

variable (k : Kernel nr) (m n : Fin nr)

/-- No system call is intercepted at first. -/
@[simp] theorem intercepts_myHelloInit (original : Fin nr → Nat) :
    (myHelloInit original).intercepts n = false := test_zero _

/-- No system call is monitored at first. -/
@[simp] theorem monitors_myHelloInit (original : Fin nr → Nat) :
    (myHelloInit original).monitors n = false := test_zero _

/-- An interception sets the flag of its system call. -/
theorem intercepts_interceptSet :
    (k.interceptSet n).intercepts m = (decide (m = n) || k.intercepts m) := by
  have hmask : myRequestSyscallIntercept ≠ 0 := by decide
  have hset := test_set (k.info n).cmd hmask
  apply update_true fun i : SyscallInfo => test i.cmd myRequestSyscallIntercept
  exact hset

/-- The flag of an interception is another one than that of a monitor. -/
theorem monitors_interceptSet : (k.interceptSet n).monitors m = k.monitors m := by
  have hkept := test_set_of_disjoint (m := myRequestSyscallIntercept) (n := myRequestStartMonitor)
    (k.info n).cmd (by decide)
  apply update_component fun i : SyscallInfo => test i.cmd myRequestStartMonitor
  exact hkept

/-- The entries are swapped with the flags as they are. -/
theorem intercepts_interceptSwap : (k.interceptSwap n).intercepts m = k.intercepts m := by
  refine update_component (fun i : SyscallInfo => test i.cmd myRequestSyscallIntercept) ?_ m
  rfl

/-- Also those of the monitors. -/
theorem monitors_interceptSwap : (k.interceptSwap n).monitors m = k.monitors m := by
  refine update_component (fun i : SyscallInfo => test i.cmd myRequestStartMonitor) ?_ m
  rfl

/-- A release clears the flag of its system call. -/
theorem intercepts_releaseRestore :
    (k.releaseRestore n).intercepts m = (!decide (m = n) && k.intercepts m) := by
  have hcleared := test_clear (m := myRequestSyscallIntercept) (k.info n).cmd
  apply update_false fun i : SyscallInfo => test i.cmd myRequestSyscallIntercept
  exact hcleared

/-- A release leaves the flags of the monitors. -/
theorem monitors_releaseRestore : (k.releaseRestore n).monitors m = k.monitors m := by
  have hkept := test_clear_of_disjoint (m := myRequestSyscallIntercept)
    (n := myRequestStartMonitor) (k.info n).cmd (by decide)
  apply update_component fun i : SyscallInfo => test i.cmd myRequestStartMonitor
  exact hkept

variable (r : Request nr)

/-- A monitor that is started leaves the flags of the interceptions. -/
theorem intercepts_startMonitor : (k.startMonitor r).intercepts m = k.intercepts m := by
  have hkept := test_set_of_disjoint (m := myRequestStartMonitor) (n := myRequestSyscallIntercept)
    (k.info r.syscall).cmd (by decide)
  apply update_component fun i : SyscallInfo => test i.cmd myRequestSyscallIntercept
  exact hkept

/-- It sets the flag of its system call. -/
theorem monitors_startMonitor :
    (k.startMonitor r).monitors m = (decide (m = r.syscall) || k.monitors m) := by
  have hmask : myRequestStartMonitor ≠ 0 := by decide
  have hset := test_set (k.info r.syscall).cmd hmask
  apply update_true fun i : SyscallInfo => test i.cmd myRequestStartMonitor
  exact hset

/-- A monitor that is stopped leaves the flags of the interceptions. -/
theorem intercepts_stopMonitor : (k.stopMonitor r).intercepts m = k.intercepts m := by
  have hkept := test_clear_of_disjoint (m := myRequestStartMonitor)
    (n := myRequestSyscallIntercept) (k.info r.syscall).cmd (by decide)
  apply update_component fun i : SyscallInfo => test i.cmd myRequestSyscallIntercept
  exact hkept

/-- It clears the flag of its system call. -/
theorem monitors_stopMonitor :
    (k.stopMonitor r).monitors m = (!decide (m = r.syscall) && k.monitors m) := by
  have hcleared := test_clear (m := myRequestStartMonitor) (k.info r.syscall).cmd
  apply update_false fun i : SyscallInfo => test i.cmd myRequestStartMonitor
  exact hcleared

/-! The lists of pids. -/

/-- The flag of an interception is set with the lists as they are. -/
theorem pid_interceptSet : ((k.interceptSet n).info m).pid = (k.info m).pid := by
  refine update_component SyscallInfo.pid ?_ m
  rfl

/-- The entries are swapped with the lists as they are. -/
theorem pid_interceptSwap : ((k.interceptSwap n).info m).pid = (k.info m).pid := by
  refine update_component SyscallInfo.pid ?_ m
  rfl

/-- A release leaves the lists. -/
theorem pid_releaseRestore : ((k.releaseRestore n).info m).pid = (k.info m).pid := by
  refine update_component SyscallInfo.pid ?_ m
  rfl

/-- A monitor that is started adds its pid. -/
theorem pid_startMonitor (hkmalloc : r.kmalloc = true) :
    ((k.startMonitor r).info r.syscall).pid = r.current.pid :: (k.info r.syscall).pid := by
  simp [startMonitor, addPid, hkmalloc]

variable {m} in
/-- The other lists stay. -/
theorem pid_startMonitor_of_ne (hm : m ≠ r.syscall) :
    ((k.startMonitor r).info m).pid = (k.info m).pid := by
  simp [startMonitor, hm]

/-- A monitor that is stopped removes its pid. -/
theorem pid_stopMonitor :
    ((k.stopMonitor r).info r.syscall).pid = (k.info r.syscall).pid.erase r.current.pid := by
  simp [stopMonitor, delPid_snd]

variable {m} in
/-- The other lists stay here, too. -/
theorem pid_stopMonitor_of_ne (hm : m ≠ r.syscall) :
    ((k.stopMonitor r).info m).pid = (k.info m).pid := by
  simp [stopMonitor, hm]

/-- A process that exits is removed from the lists. -/
theorem pid_exitGroup (pid : Int) :
    ((k.exitGroup pid).info m).pid = (k.info m).pid.erase pid := delPid_snd ..

end Kernel

/-! ### What a request does -/

/-- The branch of `my_syscall` that a request gets to, if no test finds an error. -/
inductive Effect where
  | nothing
  | exited
  | intercepted
  | released
  | started
  | stopped
  deriving DecidableEq

namespace Kernel

variable (s : Kernel nr) (r : Request nr)

/-- What the request will do. -/
def effect : Effect :=
  if r.syscall.val = nrExitGroup then .exited
  else if ¬ Valid r.syscall then .nothing
  else if r.cmd = requestSyscallIntercept then
    if s.interceptTest r.current.uid r.syscall = none then .intercepted else .nothing
  else if r.cmd = requestSyscallRelease then
    if s.releaseTest r.current.uid r.syscall = none then .released else .nothing
  else if r.cmd = requestStartMonitor then
    if s.startTest r = none then .started else .nothing
  else if r.cmd = requestStopMonitor then
    if s.stopTest r = none then .stopped else .nothing
  else .nothing

/-- The state that an effect leaves. -/
def apply : Effect → Kernel nr
  | .nothing => s
  | .exited => s.exitGroup r.pid
  | .intercepted => (s.interceptSet r.syscall).interceptSwap r.syscall
  | .released => s.releaseRestore r.syscall
  | .started => s.startMonitor r
  | .stopped => s.stopMonitor r

/-- The state changes if no test finds an error. -/
theorem answer_snd (error : Option Int) (s' : Kernel nr) :
    (s.answer error s').2 = if error = none then s' else s := by
  cases error with
  | none => rfl
  | some e => rfl

/-- The answer is 0 if no test finds an error. -/
theorem answer_fst {error : Option Int} (s' : Kernel nr) (h : error ≠ some 0) :
    (s.answer error s').1 = 0 ↔ error = none := by
  cases error with
  | none => simp [answer]
  | some e => simpa [answer] using h

/-- **Specification of a request.**  It has the effect that its tests allow. -/
theorem mySyscall_snd : (s.mySyscall r).2 = s.apply r (s.effect r) := by
  have hgroup : nrExitGroup ≠ mySyscallNo ∧ nrExitGroup ≠ nrExit := by decide
  unfold mySyscall effect Valid
  by_cases hexit : r.syscall.val = nrExitGroup
  · simp [hexit, hgroup, apply]
  by_cases hvalid : r.syscall.val = mySyscallNo ∨ r.syscall.val = nrExit
  · rw [if_pos hvalid, if_neg hexit, if_pos fun h => hvalid.elim h.1 h.2.1]
    rfl
  rw [if_neg hvalid, if_neg hexit, if_neg hexit, if_neg (not_not.mpr
    ⟨fun h => hvalid (Or.inl h), fun h => hvalid (Or.inr h), hexit⟩)]
  -- One request after the other; the tests decide.
  split
  · rw [answer_snd]
    split <;> rfl
  split
  · rw [answer_snd]
    split <;> rfl
  split
  · rw [answer_snd]
    split <;> rfl
  split
  · rw [answer_snd]
    split <;> rfl
  · rfl

/-! The answer 0 says that a monitor has been started or stopped. -/

/-- The errors of a start are not 0. -/
theorem startTest_ne_zero : s.startTest r ≠ some 0 := by
  unfold startTest Request.taskTest
  grind [ePerm, eBusy, eInval]

/-- The errors of a stop are not 0. -/
theorem stopTest_ne_zero : s.stopTest r ≠ some 0 := by
  unfold stopTest Request.taskTest
  grind [ePerm, eBusy, eInval]

/-- When a monitor is started. -/
theorem effect_eq_started : s.effect r = .started ↔
    Valid r.syscall ∧ r.cmd = requestStartMonitor ∧ s.startTest r = none := by
  unfold effect
  grind [Valid, requestStartMonitor, requestStopMonitor, requestSyscallIntercept,
    requestSyscallRelease]

/-- When a monitor is stopped. -/
theorem effect_eq_stopped : s.effect r = .stopped ↔
    Valid r.syscall ∧ r.cmd = requestStopMonitor ∧ s.stopTest r = none := by
  unfold effect
  grind [Valid, requestStartMonitor, requestStopMonitor, requestSyscallIntercept,
    requestSyscallRelease]

/-- When a process exits. -/
theorem effect_eq_exited : s.effect r = .exited ↔ r.syscall.val = nrExitGroup := by
  unfold effect
  grind

variable {s r}

/-- The same, for an effect that is known. -/
theorem mySyscall_of_effect {e : Effect} (h : s.effect r = e) :
    (s.mySyscall r).2 = s.apply r e := by
  rw [mySyscall_snd, h]

/-- A monitor is started for a system call that is intercepted. -/
theorem intercepts_of_started (h : s.effect r = .started) : s.intercepts r.syscall = true := by
  obtain ⟨-, -, htest⟩ := (s.effect_eq_started r).mp h
  unfold startTest at htest
  grind

/-- No monitor is started while another one is. -/
theorem monitors_of_started (h : s.effect r = .started) : s.monitors r.syscall = false := by
  obtain ⟨-, -, htest⟩ := (s.effect_eq_started r).mp h
  unfold startTest at htest
  grind

/-- A monitor that is stopped was there. -/
theorem monitors_of_stopped (h : s.effect r = .stopped) : s.monitors r.syscall = true := by
  obtain ⟨-, -, htest⟩ := (s.effect_eq_stopped r).mp h
  unfold stopTest at htest
  grind

/-- Only root intercepts and releases. -/
theorem root_of_intercepted (h : s.effect r = .intercepted) : r.current.uid = rootUid := by
  unfold effect interceptTest at h
  grind

/-- Only root releases. -/
theorem root_of_released (h : s.effect r = .released) : r.current.uid = rootUid := by
  unfold effect releaseTest at h
  grind

/-- A start with the answer 0 has started a monitor. -/
theorem mySyscall_started (hexit : r.syscall.val ≠ nrExitGroup) :
    r.cmd = requestStartMonitor ∧ (s.mySyscall r).1 = 0 ↔ s.effect r = .started := by
  have htest := s.answer_fst (s.startMonitor r) (s.startTest_ne_zero r)
  rw [effect_eq_started]
  unfold mySyscall
  grind [Valid, requestStartMonitor, requestStopMonitor, requestSyscallIntercept,
    requestSyscallRelease, eInval]

/-- A stop with the answer 0 has stopped one. -/
theorem mySyscall_stopped (hexit : r.syscall.val ≠ nrExitGroup) :
    r.cmd = requestStopMonitor ∧ (s.mySyscall r).1 = 0 ↔ s.effect r = .stopped := by
  have htest := s.answer_fst (s.stopMonitor r) (s.stopTest_ne_zero r)
  rw [effect_eq_stopped]
  unfold mySyscall
  grind [Valid, requestStartMonitor, requestStopMonitor, requestSyscallIntercept,
    requestSyscallRelease, eInval]

end Kernel

end WorkAtUPB.SystemCallMonitorLinux
