import WorkAtUPB.Lib.Run
import WorkAtUPB.SyscallMonitorWindows.Driver

namespace WorkAtUPB.SyscallMonitorWindows

open Run

/-!
# The flag of a monitor and its list

A monitor is one pid in the list of a system call and one flag.  A request to stop it takes both
away; a process that exits is taken from the list alone, and what remains is a flag that refuses
every new monitor and that no request can clear:

* `FlagMatches` — the flag says whether the list has a pid, and then a request can end the monitor;
* `NotMonitored` — the process that exits is in no list;
* `always_flagMatches_iff` — the flags match the lists exactly as long as no monitored process
  exits;
* `stuck_monitor` — a flag without a list stays so, whatever is requested.
-/

/-- What the driver is told. -/
inductive Action where
  | request (r : Request)
  | process (processId : Nat) (create : Bool)

/-- A call of `my_syscall` or of `my_exit_function`. -/
def Driver.call (s : Driver) : Action → Driver
  | .request r => (s.mySyscall r).2
  | .process processId create => s.myExitFunction processId create

/-- The driver always returns. -/
def step (s : Driver) (a : Action) : Option Driver := some (s.call a)

/-- A request for the system call that ends its monitor. -/
def Ends (s : Driver) (n : SyscallNo) (r : Request) : Prop :=
  r.cmd = requestStopMonitor ∧ r.syscallNo = n ∧ (s.mySyscall r).1 = statusSuccess ∧
    (s.mySyscall r).2.monitors n = false

/-- The flag of each system call says whether it has a pid in its list, and where the flag is set
    some request ends the monitor. -/
structure FlagMatches (s : Driver) : Prop where
  flag : ∀ n, s.monitors n = true ↔ (s.info n).pid ≠ []
  endable : ∀ n, s.monitors n = true → ∃ r, Ends s n r

/-- The process that exits is not monitored. -/
def NotMonitored (s : Driver) : Action → Prop
  | .process processId false => ∀ n, processId ∉ (s.info n).pid
  | .process _ true | .request _ => True

/-- No list has more than one pid. -/
def Single (s : Driver) : Prop := ∀ n, (s.info n).pid.length ≤ 1

/-- There is memory for the request. -/
def HasPool : Action → Prop
  | .request r => r.pool = true
  | .process _ _ => True

variable {s : Driver}

/-- An administrator stops the monitor of a pid. -/
def stopRequest (n : SyscallNo) (pid : Nat) : Request where
  cmd := requestStopMonitor
  syscallNo := n
  pid := pid
  userAdmin := true
  lookup := statusSuccess
  currentUser := statusSuccess
  userOf := statusSuccess
  sameUser := true
  pool := true

/-- A monitor is ended by the request that names one of its pids. -/
theorem ends_stopRequest {n : SyscallNo} {pid : Nat} (hset : s.monitors n = true)
    (hpid : pid ∈ (s.info n).pid) : Ends s n (stopRequest n pid) := by
  have hremoved := (removePID_fst (s.info n).pid pid).mpr hpid
  have hstate : s.mySyscall (stopRequest n pid) =
      (statusSuccess, s.stopped n ((s.info n).pid.erase pid)) := by
    rw [s.mySyscall_stop rfl rfl, Driver.stopMonitor]
    simp [Request.doCheck, stopRequest, hset, hremoved, removePID_snd]
  refine ⟨rfl, rfl, by rw [hstate], ?_⟩
  rw [hstate, s.monitors_stopped]
  simp

/-- The pid in the list is that of a monitor that can be ended. -/
theorem FlagMatches.of_flag (h : ∀ n, s.monitors n = true ↔ (s.info n).pid ≠ []) :
    FlagMatches s where
  flag := h
  endable := fun n hset => by
    obtain ⟨pid, hpid⟩ := List.exists_mem_of_ne_nil _ ((h n).mp hset)
    exact ⟨stopRequest n pid, ends_stopRequest hset hpid⟩

/-- A list with a single pid is empty without it. -/
theorem erase_of_length_le_one {list : List Nat} {pid : Nat} (hlength : list.length ≤ 1)
    (hpid : pid ∈ list) : list.erase pid = [] := by
  have herase := List.length_erase_of_mem hpid
  exact List.eq_nil_of_length_eq_zero (by omega)

/-- The flags and the lists match at first. -/
theorem matches_driverEntry (original : SyscallNo → Nat) :
    FlagMatches (driverEntry original) :=
  .of_flag fun n => iff_of_false (by simp) (not_not.mpr rfl)

/-- A request keeps the flags and the lists together. -/
theorem matches_request (hsingle : Single s) (hmatches : FlagMatches s) {r : Request}
    (hpool : r.pool = true) :
    Single (s.mySyscall r).2 ∧ FlagMatches (s.mySyscall r).2 := by
  rcases s.mySyscall_cases r with hsame | ⟨n, hfree, hstate⟩ | ⟨n, hset, hpid, hstate⟩
  · refine ⟨fun m => (hsame m).2 ▸ hsingle m, .of_flag fun m => ?_⟩
    rw [(hsame m).1, (hsame m).2]
    exact hmatches.flag m
  · -- There was no monitor, so the new one is alone.
    have hnil : (s.info n).pid = [] := by
      by_contra hne
      rw [(hmatches.flag n).mpr hne] at hfree
      cases hfree
    rw [hstate]
    refine ⟨fun m => ?_, .of_flag fun m => ?_⟩
    · by_cases hmn : m = n
      · subst hmn
        simp [s.pid_started m r hpool, hnil]
      · rw [s.pid_started_of_ne r hmn]
        exact hsingle m
    · by_cases hmn : m = n
      · subst hmn
        simp [s.pid_started m r hpool, s.monitors_started]
      · simp [s.pid_started_of_ne r hmn, s.monitors_started, hmn, hmatches.flag m]
  · have hnil := erase_of_length_le_one (hsingle n) hpid
    rw [hstate, hnil]
    refine ⟨fun m => ?_, .of_flag fun m => ?_⟩
    · by_cases hmn : m = n
      · subst hmn
        simp [s.pid_stopped]
      · rw [s.pid_stopped_of_ne hmn]
        exact hsingle m
    · by_cases hmn : m = n
      · subst hmn
        simp [s.pid_stopped, s.monitors_stopped]
      · simp [s.pid_stopped_of_ne hmn, s.monitors_stopped, hmn, hmatches.flag m]

/-- An exit keeps them together only if the process is in no list. -/
theorem matches_exit (hsingle : Single s) (hmatches : FlagMatches s) (processId : Nat) :
    FlagMatches (s.myExitFunction processId false) ↔ ∀ n, processId ∉ (s.info n).pid := by
  have hflag : ∀ n, (s.myExitFunction processId false).monitors n = s.monitors n := fun _ => rfl
  constructor
  · intro hafter n hpid
    have hset := (hmatches.flag n).mpr (List.ne_nil_of_mem hpid)
    have hne := (hafter.flag n).mp ((hflag n).trans hset)
    rw [s.pid_exit] at hne
    exact hne (erase_of_length_le_one (hsingle n) hpid)
  · intro hnone
    refine .of_flag fun n => ?_
    rw [hflag, s.pid_exit, List.erase_of_not_mem (hnone n)]
    exact hmatches.flag n

/-- The lists keep a single pid. -/
theorem single_step (hsingle : Single s) (hmatches : FlagMatches s) {a : Action}
    (hpool : HasPool a) {s' : Driver} (hs : step s a = some s') : Single s' := by
  obtain rfl := Option.some.inj hs
  cases a with
  | request r => exact (matches_request hsingle hmatches hpool).1
  | process processId create =>
    cases create with
    | true => exact hsingle
    | false =>
      intro n
      rw [Driver.call, s.pid_exit]
      exact Nat.le_trans List.length_erase_le (hsingle n)

/-- One call keeps the flags and the lists together exactly if it meets the condition. -/
theorem matches_step (hsingle : Single s) (hmatches : FlagMatches s) {a : Action}
    (hpool : HasPool a) {s' : Driver} (hs : step s a = some s') :
    FlagMatches s' ↔ NotMonitored s a := by
  obtain rfl := Option.some.inj hs
  cases a with
  | request r => exact iff_of_true (matches_request hsingle hmatches hpool).2 trivial
  | process processId create =>
    cases create with
    | true => exact iff_of_true hmatches trivial
    | false => exact matches_exit hsingle hmatches processId

/-- **Flags and lists.**  For every sequence of requests, with memory for each list entry, and of
    processes that are created and exit: in every state the flag of each system call says whether
    it has a pid in its list, and a set flag can be cleared by some request, exactly if no process
    exits that is in a list. -/
theorem always_flagMatches_iff (original : SyscallNo → Nat) (as : List Action)
    (hpool : ∀ a ∈ as, HasPool a) :
    Always step FlagMatches (driverEntry original) as ↔
      EachStep step NotMonitored (driverEntry original) as := by
  refine always_iff_eachStep_budget (J := fun s as => Single s ∧ ∀ a ∈ as, HasPool a) ?_ ?_ ?_
    ⟨fun _ => Nat.zero_le 1, hpool⟩ (matches_driverEntry original)
  · rintro s a as s' ⟨hsingle, hmem⟩ hmatches hs -
    exact ⟨single_step hsingle hmatches (hmem a List.mem_cons_self) hs,
      fun b hb => hmem b (List.mem_cons_of_mem a hb)⟩
  · rintro s a as s' ⟨hsingle, hmem⟩ hmatches hs
    exact matches_step hsingle hmatches (hmem a List.mem_cons_self) hs
  · rintro s a as - - hstuck
    cases hstuck

/-- The number of some system call. -/
def someSyscall : SyscallNo := ⟨3, by decide⟩

/-- An administrator makes a request for that system call and process 5. -/
def adminRequest (cmd : Int) : Request := { stopRequest someSyscall 5 with cmd := cmd }

/-- A process that is not monitored exits. -/
theorem always_flagMatches_other :
    Always step FlagMatches (driverEntry fun _ => 7) [.process 5 false,
      .request (adminRequest requestSyscallIntercept),
      .request (adminRequest requestStartMonitor)] :=
  (always_flagMatches_iff _ _ (by simp [HasPool, adminRequest, stopRequest])).mpr
    ⟨fun _ => List.not_mem_nil, fun _ _ => ⟨trivial, fun _ _ => ⟨trivial, fun _ _ => trivial⟩⟩⟩

/-- **A flag without a list.**  The process that is monitored exits. -/
theorem not_flagMatches : ¬ ∀ as : List Action, (∀ a ∈ as, HasPool a) →
    Always step FlagMatches (driverEntry fun _ => 7) as := by
  intro h
  have hlast := (h [.request (adminRequest requestSyscallIntercept),
    .request (adminRequest requestStartMonitor), .process 5 false]
    (by simp [HasPool, adminRequest, stopRequest])).last rfl
  exact (hlast.flag someSyscall).mp rfl rfl

/-- **A monitor that cannot be ended.**  A flag that is set while the list is empty stays so,
    whatever is requested and whatever processes are created or exit. -/
theorem stuck_monitor {n : SyscallNo} (hset : s.monitors n = true) (hnil : (s.info n).pid = [])
    {s' : Driver} {as : List Action} (hrun : run step s as = some s') :
    s'.monitors n = true ∧ (s'.info n).pid = [] := by
  refine run_invariant (I := fun s => s.monitors n = true ∧ (s.info n).pid = [])
    (fun s a s' h hs => ?_) ⟨hset, hnil⟩ hrun
  obtain rfl := Option.some.inj hs
  cases a with
  | process processId create =>
    cases create with
    | true => exact h
    | false =>
      refine ⟨h.1, ?_⟩
      rw [Driver.call, s.pid_exit, h.2]
      rfl
  | request r =>
    rcases s.mySyscall_cases r with hsame | ⟨m, hfree, hstate⟩ | ⟨m, -, hpid, hstate⟩
    · exact ⟨(hsame n).1.trans h.1, (hsame n).2.trans h.2⟩
    · have hnm : n ≠ m := by
        rintro rfl
        exact absurd (h.1.symm.trans hfree) (by decide)
      rw [Driver.call, hstate, s.monitors_started, s.pid_started_of_ne r hnm]
      exact ⟨by simp [h.1], h.2⟩
    · have hnm : n ≠ m := by
        rintro rfl
        rw [h.2] at hpid
        cases hpid
      rw [Driver.call, hstate, s.monitors_stopped, s.pid_stopped_of_ne hnm]
      exact ⟨by simp [hnm, h.1], h.2⟩

end WorkAtUPB.SyscallMonitorWindows
