import WorkAtUPB.Lib.Run
import WorkAtUPB.SyscallMonitorWindows.Driver

namespace WorkAtUPB.SyscallMonitorWindows

open Flags Run

/-!
# The interceptor among several callers (`sci.c`)

A request tests the flags and changes them later, under a spin lock; system calls are made in the
meantime, and one that is intercepted runs the saved function first and looks at the list of pids
when that has returned:

* `Driver.tests`, `Driver.locked` — the two halves of `my_syscall`; `mySyscall_eq` — a request that
  nobody gets in between;
* `Driver.dispatch` — the function that a system call runs; `Driver.logCall` — what `interceptor`
  does behind it;
* `System`, `step` — the driver and any number of callers, each in a request or in a system call;
* `Transparent` — every system call runs the function that the table had for it in the beginning;
* `systemCalls_transparent_iff` — this is so exactly if no request saves an entry twice.
-/

/-! ### The two halves of a request -/

/-- The parts of `my_syscall` under the lock. -/
inductive Section where
  | intercept
  | release
  | start
  | stop
  deriving DecidableEq, Repr

namespace Driver

variable (s : Driver)

/-- A number in range. -/
def syscallNoOf {k : Int} (h : 0 ≤ k ∧ k < mySyscallNo) : SyscallNo := ⟨k.toNat, by omega⟩

/-- The tests of `my_syscall`: the status to return, or the part under the lock that follows. -/
def tests (r : Request) : Except NtStatus (SyscallNo × Section) :=
  if h : 0 ≤ r.syscallNo ∧ r.syscallNo < mySyscallNo then
    let n := syscallNoOf h
    if r.cmd = requestSyscallIntercept then
      if ¬ r.userAdmin then .error statusAccessDenied
      else if s.intercepts n then .error statusDeviceBusy
      else .ok (n, .intercept)
    else if r.cmd = requestSyscallRelease then
      if ¬ r.userAdmin then .error statusAccessDenied
      else if ¬ s.intercepts n then .error statusInvalidParameter
      else .ok (n, .release)
    else if r.cmd = requestStartMonitor then
      match r.doCheck with
      | some status => .error status
      | none =>
        if s.monitors n then .error statusDeviceBusy
        else if ¬ s.intercepts n then .error statusInvalidParameter
        else .ok (n, .start)
    else if r.cmd = requestStopMonitor then
      match r.doCheck with
      | some status => .error status
      | none => if ¬ s.monitors n then .error statusInvalidParameter else .ok (n, .stop)
    else .error statusInvalidParameter
  else .error statusInvalidParameter

/-- The flag is set, and the interceptor takes the place of the entry. -/
def swapped (n : SyscallNo) : Driver where
  info := Function.update s.info n { s.info n with
    cmd := (s.info n).cmd ||| myRequestSyscallIntercept
    oldSyscallFptr := s.st n }
  st := Function.update s.st n .interceptor

/-- The flag is cleared, and the saved entry is back in its place. -/
def restored (n : SyscallNo) : Driver where
  info := Function.update s.info n { s.info n with
    cmd := (s.info n).cmd &&& myRequestSyscallRelease }
  st := Function.update s.st n (s.info n).oldSyscallFptr

/-- A part of `my_syscall` under the lock. -/
def locked (r : Request) (n : SyscallNo) : Section → NtStatus × Driver
  | .intercept => (statusSuccess, s.swapped n)
  | .release => (statusSuccess, s.restored n)
  | .start => (statusSuccess, s.started n r)
  | .stop =>
    let removed := removePID (s.info n).pid r.pid
    if removed.1 ≠ statusSuccess then (removed.1, s)
    else (statusSuccess, s.stopped n removed.2)

/-- A request that nobody gets in between makes its tests, and what they allow. -/
theorem mySyscall_eq (r : Request) : s.mySyscall r =
    match s.tests r with
    | .error status => (status, s)
    | .ok (n, part) => s.locked r n part := by
  unfold mySyscall tests
  split <;> [skip; rfl]
  dsimp only [syscallNoOf]
  split
  · unfold intercept
    split
    · rfl
    split
    · rfl
    · rfl
  split
  · unfold release
    split
    · rfl
    split
    · rfl
    · rfl
  split
  · unfold startMonitor
    cases r.doCheck with
    | some status => rfl
    | none =>
      dsimp only
      split
      · rfl
      split
      · rfl
      · rfl
  split
  · unfold stopMonitor
    cases r.doCheck with
    | some status => rfl
    | none =>
      dsimp only
      split
      · rfl
      · rfl
  · rfl

/-! ### System calls -/

/-- The function that a system call runs, and whether `interceptor` has called it.  Without a saved
    function there is no way on. -/
def dispatch (n : SyscallNo) : Option (Nat × Bool) :=
  match s.st n with
  | .kernel address => some (address, false)
  | .interceptor =>
    match (s.info n).oldSyscallFptr with
    | .kernel address => some (address, true)
    | .interceptor | .null => none
  | .null => none

end Driver

/-- A system call: its number, the process that makes it, and the arguments on its stack. -/
structure SystemCall where
  syscall : SyscallNo
  pid : Nat
  stack : List UInt8
  deriving DecidableEq, Repr

/-- `struct log_packet`. -/
structure LogPacket where
  pid : Nat
  syscall : SyscallNo
  syscallArgNo : Nat
  syscallRet : NtStatus
  syscallArg : List UInt8
  deriving DecidableEq, Repr

/-- `searchPID`. -/
def searchPID (list : List Nat) (pid : Nat) : NtStatus :=
  if pid ∈ list then statusSuccess else statusInvalidParameter

/-- `checkPID`: the pid, or else 0, which stands for all processes. -/
def checkPID (list : List Nat) (pid : Nat) : NtStatus :=
  let status := searchPID list pid
  if status ≠ statusSuccess then searchPID list 0 else status

/-- `SearchPID` finds the pids of the list. -/
theorem searchPID_eq (list : List Nat) (pid : Nat) :
    searchPID list pid = statusSuccess ↔ pid ∈ list := by
  unfold searchPID
  split
  · next h => exact iff_of_true rfl h
  · next h => exact iff_of_false (show statusInvalidParameter ≠ statusSuccess by decide) h

/-- `CheckPID` finds the pids of the list, and all pids where 0 is in it. -/
theorem checkPID_eq (list : List Nat) (pid : Nat) :
    checkPID list pid = statusSuccess ↔ pid ∈ list ∨ 0 ∈ list := by
  unfold checkPID
  dsimp only
  split
  · next h => rw [searchPID_eq, or_iff_right fun hpid => h ((searchPID_eq list pid).mpr hpid)]
  · next h =>
    have hpid := (searchPID_eq list pid).mp (not_not.mp h)
    rw [searchPID_eq]
    exact iff_of_true hpid (Or.inl hpid)

/-- The arguments of a call: as many bytes as `KeServiceDescriptorTable` says. -/
def SystemCall.params (spt : SyscallNo → UInt8) (c : SystemCall) : List UInt8 :=
  c.stack.take (spt c.syscall).toNat

/-- The packet of a call that has returned. -/
def SystemCall.packet (spt : SyscallNo → UInt8) (c : SystemCall) (result : NtStatus) :
    LogPacket where
  pid := c.pid
  syscall := c.syscall
  syscallArgNo := (spt c.syscall).toNat / 4
  syscallRet := result
  syscallArg := c.params spt

/-- `interceptor` behind the call: the status that it returns, and the packet that it logs.  There
    is memory for the packet (`pool`) and for an entry of the log (`entry`), or not. -/
def Driver.logCall (s : Driver) (spt : SyscallNo → UInt8) (c : SystemCall) (result : NtStatus)
    (pool entry : Bool) : NtStatus × Option LogPacket :=
  if checkPID (s.info c.syscall).pid c.pid = statusSuccess then
    if ¬ pool then (statusNoMemory, none)
    else if ¬ entry then (statusNoMemory, none)
    else (result, some (c.packet spt result))
  else (result, none)

/-! ### Several callers -/

/-- How far a caller has got: outside, before the lock, or behind the call of the saved function,
    which has returned a result. -/
inductive Pc where
  | idle
  | locking (r : Request) (n : SyscallNo) (part : Section)
  | called (c : SystemCall) (result : NtStatus)

/-- What has changed for a system call: who is monitored, and whether it is intercepted. -/
inductive Effect where
  | intercepted (n : SyscallNo)
  | released (n : SyscallNo)
  | started (n : SyscallNo) (pid : Nat)
  | stopped (n : SyscallNo) (pid : Nat)
  | exited (pid : Nat)
  deriving DecidableEq, Repr

/-- The driver and its callers: what has changed, the last first; the functions that have run, with
    their arguments; what the calls have returned; and the log. -/
structure System (ι : Type*) where
  driver : Driver
  pc : ι → Pc
  effects : List Effect
  ran : List (ι × Nat × List UInt8)
  returned : List (ι × NtStatus)
  log : List LogPacket

/-- The steps: the tests of a request and its part under the lock, processes that are created and
    exit, a system call up to where the function that it runs has returned `result`, and the end
    of one that is intercepted. -/
inductive Step (ι : Type*) where
  | request (i : ι) (r : Request)
  | lock (i : ι)
  | process (processId : Nat) (create : Bool)
  | enter (i : ι) (c : SystemCall) (result : NtStatus)
  | leave (i : ι) (pool entry : Bool)

variable {ι : Type*}

/-- `DriverEntry` has returned. -/
def System.start (original : SyscallNo → Nat) : System ι where
  driver := driverEntry original
  pc := fun _ => .idle
  effects := []
  ran := []
  returned := []
  log := []

/-- What a part under the lock changes: a start without memory for the pid changes nobody's
    monitor, nor does a stop that does not find it. -/
def Driver.effect (s : Driver) (r : Request) (n : SyscallNo) : Section → List Effect
  | .intercept => [.intercepted n]
  | .release => [.released n]
  | .start => if r.pool then [.started n r.pid] else []
  | .stop => if r.pid ∈ (s.info n).pid then [.stopped n r.pid] else []

section Steps

variable [DecidableEq ι] (s : System ι)

/-- The tests of a request. -/
def System.request (i : ι) (r : Request) : Option (System ι) :=
  match s.pc i with
  | .idle =>
    match s.driver.tests r with
    | .error status => some { s with returned := s.returned ++ [(i, status)] }
    | .ok (n, part) => some { s with pc := Function.update s.pc i (.locking r n part) }
  | .locking .. | .called .. => none

/-- The part of a request under the lock. -/
def System.lock (i : ι) : Option (System ι) :=
  match s.pc i with
  | .locking r n part =>
    let result := s.driver.locked r n part
    some { s with
      driver := result.2
      pc := Function.update s.pc i .idle
      effects := s.driver.effect r n part ++ s.effects
      returned := s.returned ++ [(i, result.1)] }
  | .idle | .called .. => none

/-- `my_exit_function`. -/
def System.process (processId : Nat) (create : Bool) : System ι :=
  { s with
    driver := s.driver.myExitFunction processId create
    effects := if create then s.effects else .exited processId :: s.effects }

/-- A system call, up to where the function that it runs has returned. -/
def System.enter (spt : SyscallNo → UInt8) (i : ι) (c : SystemCall) (result : NtStatus) :
    Option (System ι) :=
  match s.pc i with
  | .idle =>
    match s.driver.dispatch c.syscall with
    | some (address, intercepted) =>
      let s := { s with ran := s.ran ++ [(i, address, c.params spt)] }
      some (if intercepted then { s with pc := Function.update s.pc i (.called c result) }
        else { s with returned := s.returned ++ [(i, result)] })
    | none => none
  | .locking .. | .called .. => none

/-- The end of a system call that is intercepted. -/
def System.leave (spt : SyscallNo → UInt8) (i : ι) (pool entry : Bool) : Option (System ι) :=
  match s.pc i with
  | .called c result =>
    let logged := s.driver.logCall spt c result pool entry
    some { s with
      pc := Function.update s.pc i .idle
      returned := s.returned ++ [(i, logged.1)]
      log := s.log ++ logged.2.toList }
  | .idle | .locking .. => none

/-- One step. -/
def System.step (spt : SyscallNo → UInt8) (s : System ι) : Step ι → Option (System ι)
  | .request i r => s.request i r
  | .lock i => s.lock i
  | .process processId create => some (s.process processId create)
  | .enter i c result => s.enter spt i c result
  | .leave i pool entry => s.leave spt i pool entry

end Steps

/-- Every system call runs the function that the table had for it. -/
def Transparent (original : SyscallNo → Nat) (s : System ι) : Prop :=
  ∀ n, ∃ intercepted, s.driver.dispatch n = some (original n, intercepted)

/-- A system call is not intercepted when its entry is saved. -/
def Apart (s : System ι) : Step ι → Prop
  | .lock i =>
    match s.pc i with
    | .locking _ n .intercept => s.driver.intercepts n = false
    | _ => True
  | _ => True

/-- The table is as the flags say, and the entry of a system call that is intercepted, or about to
    be released, has been saved. -/
structure Entries (original : SyscallNo → Nat) (s : System ι) : Prop where
  table : ∀ n, s.driver.st n =
    if s.driver.intercepts n then .interceptor else .kernel (original n)
  saved : ∀ n, (s.driver.intercepts n = true ∨ ∃ i r, s.pc i = .locking r n .release) →
    (s.driver.info n).oldSyscallFptr = .kernel (original n)

/-! ### What the parts under the lock leave -/

namespace Driver

variable (s : Driver) (r : Request) (m n : SyscallNo)

/-- No system call is intercepted at first. -/
@[simp] theorem intercepts_driverEntry (original : SyscallNo → Nat) :
    (driverEntry original).intercepts n = false := test_zero _

/-- An interception sets the flag of its system call. -/
theorem intercepts_swapped :
    (s.swapped n).intercepts m = (decide (m = n) || s.intercepts m) := by
  have hmask : myRequestSyscallIntercept ≠ 0 := by decide
  have hset := test_set (s.info n).cmd hmask
  exact update_true (fun i : SyscallInfo => test i.cmd myRequestSyscallIntercept) hset m

/-- A release clears the flag of its system call. -/
theorem intercepts_restored :
    (s.restored n).intercepts m = (!decide (m = n) && s.intercepts m) := by
  have hcleared := test_clear (m := myRequestSyscallIntercept) (s.info n).cmd
  exact update_false (fun i : SyscallInfo => test i.cmd myRequestSyscallIntercept) hcleared m

/-- A monitor that is started leaves the flags of the interceptions. -/
theorem intercepts_started : (s.started n r).intercepts m = s.intercepts m := by
  have hkept := test_set_of_disjoint (m := myRequestStartMonitor) (n := myRequestSyscallIntercept)
    (s.info n).cmd (by decide)
  exact update_component (fun i : SyscallInfo => test i.cmd myRequestSyscallIntercept) hkept m

/-- A monitor that is stopped leaves the flags of the interceptions. -/
theorem intercepts_stopped (list : List Nat) :
    (s.stopped n list).intercepts m = s.intercepts m := by
  have hkept := test_clear_of_disjoint (m := myRequestStartMonitor)
    (n := myRequestSyscallIntercept) (s.info n).cmd (by decide)
  exact update_component (fun i : SyscallInfo => test i.cmd myRequestSyscallIntercept) hkept m

/-- A monitor that is started leaves the entries that are saved. -/
theorem saved_started :
    ((s.started n r).info m).oldSyscallFptr = (s.info m).oldSyscallFptr := by
  refine update_component SyscallInfo.oldSyscallFptr ?_ m
  rfl

/-- A monitor that is stopped leaves the entries that are saved. -/
theorem saved_stopped (list : List Nat) :
    ((s.stopped n list).info m).oldSyscallFptr = (s.info m).oldSyscallFptr := by
  refine update_component SyscallInfo.oldSyscallFptr ?_ m
  rfl

/-- A process that exits leaves the flags of the interceptions. -/
theorem intercepts_exit (processId : Nat) (create : Bool) :
    (s.myExitFunction processId create).intercepts m = s.intercepts m := by
  cases create with
  | true => rfl
  | false => rfl

/-- What the tests of a request have found. -/
def Allows (n : SyscallNo) : Section → Prop
  | .intercept => s.intercepts n = false
  | .release => s.intercepts n = true
  | .start => s.monitors n = false ∧ s.intercepts n = true
  | .stop => s.monitors n = true

variable {s r n} in
/-- A request that passes the tests is allowed. -/
theorem allows_of_tests {part : Section} (h : s.tests r = .ok (n, part)) : s.Allows n part := by
  unfold tests at h
  split at h <;> [skip; cases h]
  dsimp only at h
  -- In the order of the requests: an interception, its end, a monitor and its end.
  split at h
  · split at h
    · cases h
    split at h
    · cases h
    next hfree =>
    cases h
    exact eq_false_of_ne_true hfree
  split at h
  · split at h
    · cases h
    split at h
    · cases h
    next hset =>
    cases h
    exact not_not.mp hset
  split at h
  · split at h
    · cases h
    split at h
    · cases h
    next hfree =>
    split at h
    · cases h
    next hset =>
    cases h
    exact ⟨eq_false_of_ne_true hfree, not_not.mp hset⟩
  split at h <;> [skip; cases h]
  split at h
  · cases h
  split at h
  · cases h
  next hset =>
  cases h
  exact not_not.mp hset

/-- What the interception of a system call consists of, in a table of entries. -/
structure SameEntries (s t : Driver) : Prop where
  st : t.st = s.st
  intercepts : ∀ m, t.intercepts m = s.intercepts m
  saved : ∀ m, (t.info m).oldSyscallFptr = (s.info m).oldSyscallFptr

/-- Nothing has changed. -/
theorem SameEntries.refl : SameEntries s s := ⟨rfl, fun _ => rfl, fun _ => rfl⟩

/-- A process that exits leaves the table as it is. -/
theorem sameEntries_exit (processId : Nat) (create : Bool) :
    SameEntries s (s.myExitFunction processId create) := by
  refine ⟨?_, fun m => s.intercepts_exit m processId create, fun m => ?_⟩
  · cases create with
    | true | false => rfl
  · cases create with
    | true | false => rfl

/-- Monitors leave the table as it is. -/
theorem sameEntries_start : SameEntries s (s.locked r n .start).2 :=
  ⟨rfl, fun m => s.intercepts_started r m n, fun m => s.saved_started r m n⟩

/-- The end of a monitor leaves the table as it is. -/
theorem sameEntries_stop : SameEntries s (s.locked r n .stop).2 := by
  unfold locked
  dsimp only
  split
  · exact .refl s
  · exact ⟨rfl, fun m => s.intercepts_stopped m n _, fun m => s.saved_stopped m n _⟩

end Driver

/-! ### What a step leaves -/

section Steps

variable [DecidableEq ι] {spt : SyscallNo → UInt8} {s s' : System ι} {i : ι}

/-- **Specification of the tests.**  The caller gets to what they allow, or is outside again. -/
theorem System.request_eq {r : Request} (h : s.request i r = some s') :
    s'.driver = s.driver ∧ s'.effects = s.effects ∧ (s'.pc = s.pc ∨ ∃ n part,
      s.driver.tests r = .ok (n, part) ∧ s'.pc = Function.update s.pc i (.locking r n part)) := by
  unfold System.request at h
  split at h <;> [skip; cases h; cases h]
  cases htests : s.driver.tests r with
  | error status =>
    rw [htests] at h
    obtain rfl := Option.some.inj h
    exact ⟨rfl, rfl, Or.inl rfl⟩
  | ok allowed =>
    obtain ⟨n, part⟩ := allowed
    rw [htests] at h
    obtain rfl := Option.some.inj h
    exact ⟨rfl, rfl, Or.inr ⟨n, part, rfl, rfl⟩⟩

/-- **Specification of the part under the lock.** -/
theorem System.lock_eq (h : s.lock i = some s') : ∃ r n part, s.pc i = .locking r n part ∧
    s'.driver = (s.driver.locked r n part).2 ∧ s'.pc = Function.update s.pc i .idle ∧
    s'.effects = s.driver.effect r n part ++ s.effects := by
  unfold System.lock at h
  split at h <;> [skip; cases h; cases h]
  next r n part hpc =>
  obtain rfl := Option.some.inj h
  exact ⟨r, n, part, hpc, rfl, rfl, rfl⟩

/-- A system call changes neither the driver nor a request. -/
theorem System.enter_eq {c : SystemCall} {result : NtStatus}
    (h : s.enter spt i c result = some s') : s'.driver = s.driver ∧ s'.effects = s.effects ∧
      (s'.pc = s.pc ∨ s'.pc = Function.update s.pc i (.called c result)) := by
  unfold System.enter at h
  split at h <;> [skip; cases h; cases h]
  split at h <;> [skip; cases h]
  next address intercepted _ =>
  obtain rfl := Option.some.inj h
  cases intercepted with
  | true => exact ⟨rfl, rfl, Or.inr rfl⟩
  | false => exact ⟨rfl, rfl, Or.inl rfl⟩

/-- A call that leaves changes only where its caller is. -/
theorem System.leave_eq {pool entry : Bool} (h : s.leave spt i pool entry = some s') :
    s'.driver = s.driver ∧ s'.effects = s.effects ∧ s'.pc = Function.update s.pc i .idle := by
  unfold System.leave at h
  split at h <;> [skip; cases h; cases h]
  obtain rfl := Option.some.inj h
  exact ⟨rfl, rfl, rfl⟩

end Steps

/-! ### The table -/

section Table

variable {original : SyscallNo → Nat} {s s' : System ι} {i : ι}

/-- The table is right at first. -/
theorem entries_start : Entries original (System.start original : System ι) where
  table := fun n => by
    rw [System.start, Driver.intercepts_driverEntry, if_neg Bool.false_ne_true]
    rfl
  saved := fun n => by
    rintro (hset | ⟨i, r, hpc⟩)
    · rw [System.start, Driver.intercepts_driverEntry] at hset
      cases hset
    · cases hpc

/-- With such a table every system call gets to its function. -/
theorem Entries.transparent (h : Entries original s) : Transparent original s := by
  intro n
  rw [Driver.dispatch, h.table n]
  by_cases hset : s.driver.intercepts n = true
  · rw [if_pos hset, h.saved n (Or.inl hset)]
    exact ⟨true, rfl⟩
  · rw [if_neg hset]
    exact ⟨false, rfl⟩

/-- What changes neither the table nor, but for the better, who is about to release an entry. -/
theorem Entries.of_same (h : Entries original s) (hsame : Driver.SameEntries s.driver s'.driver)
    (hpc : ∀ j r n, s'.pc j = .locking r n .release →
      s.driver.intercepts n = true ∨ s.pc j = .locking r n .release) :
    Entries original s' where
  table := fun n => by rw [hsame.st, hsame.intercepts n, h.table n]
  saved := fun n hn => by
    rw [hsame.saved n]
    rw [hsame.intercepts n] at hn
    rcases hn with hset | ⟨j, r, hj⟩
    · exact h.saved n (Or.inl hset)
    · exact h.saved n ((hpc j r n hj).imp_right fun hj => ⟨j, r, hj⟩)

/-- The part under the lock that begins an interception. -/
theorem Entries.swapped (h : Entries original s) {n : SyscallNo}
    (hfree : s.driver.intercepts n = false) (hdriver : s'.driver = s.driver.swapped n)
    (hpc : ∀ j r m, s'.pc j = .locking r m .release → s.pc j = .locking r m .release) :
    Entries original s' where
  table := fun m => by
    rw [hdriver, Driver.intercepts_swapped]
    by_cases hmn : m = n
    · subst hmn
      simp [Driver.swapped]
    · simp [Driver.swapped, hmn, h.table m]
  saved := fun m hm => by
    rw [hdriver] at hm ⊢
    by_cases hmn : m = n
    · subst hmn
      simp [Driver.swapped, h.table m, hfree]
    · have hkept : s.driver.intercepts m = true ∨ ∃ j r, s.pc j = .locking r m .release := by
        refine hm.imp (fun hset => ?_) fun ⟨j, r, hj⟩ => ⟨j, r, hpc j r m hj⟩
        rwa [Driver.intercepts_swapped, decide_eq_false hmn, Bool.false_or] at hset
      simp [Driver.swapped, hmn, h.saved m hkept]

/-- The part under the lock that ends one. -/
theorem Entries.restored (h : Entries original s) {n : SyscallNo}
    (hreleasing : ∃ i r, s.pc i = .locking r n .release)
    (hdriver : s'.driver = s.driver.restored n)
    (hpc : ∀ j r m, s'.pc j = .locking r m .release → s.pc j = .locking r m .release) :
    Entries original s' where
  table := fun m => by
    rw [hdriver, Driver.intercepts_restored]
    by_cases hmn : m = n
    · subst hmn
      simp [Driver.restored, h.saved m (Or.inr hreleasing)]
    · simp [Driver.restored, hmn, h.table m]
  saved := fun m hm => by
    rw [hdriver] at hm ⊢
    have hold : ((s.driver.restored n).info m).oldSyscallFptr =
        (s.driver.info m).oldSyscallFptr := by
      refine update_component SyscallInfo.oldSyscallFptr ?_ m
      rfl
    rw [hold]
    refine h.saved m (hm.imp (fun hset => ?_) fun ⟨j, r, hj⟩ => ⟨j, r, hpc j r m hj⟩)
    rw [Driver.intercepts_restored, Bool.and_eq_true] at hset
    exact hset.2

variable [DecidableEq ι] {spt : SyscallNo → UInt8}

/-- A caller that gets to another place is not the one at this place. -/
theorem pc_of_update {pc : ι → Pc} {p q : Pc} {j : ι} (hne : p ≠ q)
    (h : Function.update pc i p j = q) : pc j = q := by
  by_cases hji : j = i
  · subst hji
    exact absurd ((Function.update_self ..).symm.trans h) hne
  · rwa [Function.update_of_ne hji] at h

/-- **Step.**  The table stays so if entries are saved apart. -/
theorem entries_step (h : Entries original s) {a : Step ι} (hapart : Apart s a)
    (hs : s.step spt a = some s') : Entries original s' := by
  cases a with
  | request i r =>
    obtain ⟨hdriver, -, hpc⟩ := System.request_eq hs
    refine h.of_same (hdriver ▸ .refl s.driver) fun j r' n hj => ?_
    -- A request that waits for the lock has passed its tests.
    rcases hpc with hpc | ⟨m, part, htests, hpc⟩
    · exact Or.inr (hpc ▸ hj)
    rw [hpc] at hj
    by_cases hji : j = i
    · subst hji
      rw [Function.update_self] at hj
      obtain ⟨rfl, rfl, rfl⟩ := Pc.locking.inj hj
      exact Or.inl (Driver.allows_of_tests htests)
    · exact Or.inr (by rwa [Function.update_of_ne hji] at hj)
  | lock i =>
    obtain ⟨r, n, part, hi, hdriver, hpc, -⟩ := System.lock_eq hs
    -- No other request comes to wait for the lock.
    have hkept : ∀ j r' m, s'.pc j = .locking r' m .release → s.pc j = .locking r' m .release :=
      fun j r' m hj => pc_of_update (by nofun) (hpc ▸ hj)
    cases part with
    | intercept =>
      rw [Apart, hi] at hapart
      exact h.swapped hapart hdriver hkept
    | release => exact h.restored ⟨i, r, hi⟩ hdriver hkept
    | start =>
      exact h.of_same (hdriver ▸ s.driver.sameEntries_start r n) fun j r' m hj =>
        Or.inr (hkept j r' m hj)
    | stop =>
      exact h.of_same (hdriver ▸ s.driver.sameEntries_stop r n) fun j r' m hj =>
        Or.inr (hkept j r' m hj)
  | process processId create =>
    obtain rfl := Option.some.inj hs
    exact h.of_same (s.driver.sameEntries_exit processId create) fun _ _ _ hj => Or.inr hj
  | enter i c result =>
    obtain ⟨hdriver, -, hpc⟩ := System.enter_eq hs
    refine h.of_same (hdriver ▸ .refl s.driver) fun j r n hj => Or.inr ?_
    rcases hpc with hpc | hpc
    · exact hpc ▸ hj
    · exact pc_of_update (by nofun) (hpc ▸ hj)
  | leave i pool entry =>
    obtain ⟨hdriver, -, hpc⟩ := System.leave_eq hs
    exact h.of_same (hdriver ▸ .refl s.driver) fun j r n hj =>
      Or.inr (pc_of_update (by nofun) (hpc ▸ hj))

/-- An entry that is saved while it is the interceptor leads nowhere. -/
theorem not_transparent_step (h : Entries original s) {a : Step ι} (hapart : ¬ Apart s a)
    (hs : s.step spt a = some s') : ¬ Transparent original s' := by
  cases a with
  | lock i =>
    obtain ⟨r, n, part, hi, hdriver, -, -⟩ := System.lock_eq hs
    rw [Apart, hi] at hapart
    cases part with
    | intercept =>
      have hset : s.driver.intercepts n = true := eq_true_of_ne_false hapart
      intro htransparent
      obtain ⟨intercepted, hdispatch⟩ := htransparent n
      rw [hdriver] at hdispatch
      simp [Driver.locked, Driver.dispatch, Driver.swapped, h.table n, hset] at hdispatch
    | release | start | stop => exact absurd trivial hapart
  | request | process | enter | leave => exact absurd trivial hapart

/-- **Transparency.**  In every interleaving of any number of callers, their requests, their system
    calls, and processes that exit: every system call runs the function that the table had for it
    in the beginning, exactly if no request saves the entry of a system call that is intercepted
    at that moment. -/
theorem systemCalls_transparent_iff (spt : SyscallNo → UInt8) (original : SyscallNo → Nat)
    (as : List (Step ι)) :
    Always (System.step spt) (Transparent original) (.start original) as ↔
      EachStep (System.step spt) Apart (.start original) as := by
  refine always_iff_eachStep (J := Entries original) ?_ ?_ ?_ entries_start
    entries_start.transparent
  · intro s a s' hentries _ hs htransparent
    by_contra hnot
    refine hnot (entries_step hentries ?_ hs)
    by_contra hapart
    exact not_transparent_step hentries hapart hs htransparent
  · intro s a s' hentries _ hs
    refine ⟨fun htransparent => ?_, fun hapart => (entries_step hentries hapart hs).transparent⟩
    by_contra hapart
    exact not_transparent_step hentries hapart hs htransparent
  · intro s a _ _ hs
    cases a with
    | lock i =>
      rw [Apart]
      split
      · next hpc => simp [System.step, System.lock, hpc] at hs
      · trivial
    | request | process | enter | leave => trivial

end Table

end WorkAtUPB.SyscallMonitorWindows
