import WorkAtUPB.SystemCallMonitorLinux.Logging

namespace WorkAtUPB.SystemCallMonitorLinux

open Run

/-!
# What users can do to each other

Only root intercepts and releases system calls; other users start and stop monitors for their own
processes.  Two requests reach further: an exit is believed from everybody, for every pid, and to
stop a monitor it is enough to name a process of one's own:

* `Undisturbed` — what a request of a user is to leave as it is;
* `Harmless` — no pid is in a list that is taken from all of them, and nobody stops what another
  user has started;
* `undisturbed_iff` — in every state a request leaves the rest as it is exactly if it is harmless.
-/

variable {nr : Nat}

/-- A request of a user leaves the data of all other system calls as they are, and of its own
    system call the entry, the flag for the interception, the pids of processes of other users,
    and the flag for the monitor if a request of another user has set it. -/
structure Undisturbed (s : Traced nr) (r : Request nr) : Prop where
  others : ∀ n, n ≠ r.syscall → (s.kernel.mySyscall r).2.info n = s.kernel.info n ∧
    (s.kernel.mySyscall r).2.sysCallTable n = s.kernel.sysCallTable n
  entry : (s.kernel.mySyscall r).2.sysCallTable r.syscall = s.kernel.sysCallTable r.syscall
  intercept : (s.kernel.mySyscall r).2.intercepts r.syscall = s.kernel.intercepts r.syscall
  pids : ((s.kernel.mySyscall r).2.info r.syscall).pid.filter
      (fun p => r.tasks p ≠ some r.current.uid) =
    (s.kernel.info r.syscall).pid.filter (fun p => r.tasks p ≠ some r.current.uid)
  start : ∀ v, s.startedBy r.syscall = some v → v ≠ r.current.uid →
    (s.kernel.mySyscall r).2.monitors r.syscall = s.kernel.monitors r.syscall

/-- An exit is for a process that is in no list, and a monitor that is stopped was not started by
    another user. -/
def Harmless (s : Traced nr) (r : Request nr) : Prop :=
  match s.kernel.effect r with
  | .exited => ∀ n, r.pid ∉ (s.kernel.info n).pid
  | .stopped => ∀ v, s.startedBy r.syscall = some v → v = r.current.uid
  | .started | .intercepted | .released | .nothing => True

/-- Only the system calls that requests can be made for have pids in their lists, and the flag of
    a monitor is set by some user. -/
structure Attributed (s : Traced nr) : Prop where
  valid : ∀ n, ¬ Valid n → (s.kernel.info n).pid = []
  started : ∀ n, (s.startedBy n).isSome = s.kernel.monitors n

/-- There are no monitors at first. -/
theorem attributed_start (original : Fin nr → Nat) : Attributed (.start original) where
  valid := fun _ _ => rfl
  started := fun n => (Kernel.monitors_myHelloInit n original).symm

section Requests

variable {s : Traced nr} {r : Request nr}

/-- The other flag and the table do not matter. -/
theorem Attributed.setKernel (h : Attributed s) {k : Kernel nr}
    (hmonitors : ∀ n, k.monitors n = s.kernel.monitors n)
    (hpid : ∀ n, (k.info n).pid = (s.kernel.info n).pid) :
    Attributed { s with kernel := k } where
  valid := fun n hn => (hpid n).trans (h.valid n hn)
  started := fun n => (h.started n).trans (hmonitors n).symm

/-- **Step.**  A request keeps the flags with their users. -/
theorem Attributed.request (h : Attributed s) : Attributed (s.request r) := by
  rw [Traced.request_eq]
  cases heffect : s.kernel.effect r with
  | nothing => exact h
  -- All processes are taken from the lists, and the flags stay.
  | exited =>
    refine ⟨fun n hn => ?_, h.started⟩
    dsimp only [Traced.apply]
    rw [Kernel.pid_exitGroup, h.valid n hn]
    rfl
  -- An interception changes no flag of a monitor and no list.
  | intercepted =>
    refine h.setKernel (fun n => ?_) fun n => ?_
    · rw [Kernel.monitors_interceptSwap, Kernel.monitors_interceptSet]
    · rw [Kernel.pid_interceptSwap, Kernel.pid_interceptSet]
  | released =>
    exact h.setKernel (fun n => Kernel.monitors_releaseRestore ..)
      fun n => Kernel.pid_releaseRestore ..
  | started =>
    have hvalid := ((s.kernel.effect_eq_started r).mp heffect).1
    refine ⟨fun n hn => ?_, fun n => ?_⟩
    · have hne : n ≠ r.syscall := fun heq => hn (heq ▸ hvalid)
      exact (Kernel.pid_startMonitor_of_ne _ _ hne).trans (h.valid n hn)
    · dsimp only [Traced.apply]
      rw [Kernel.monitors_startMonitor]
      by_cases hn : n = r.syscall
      · subst hn
        simp
      · simp [hn, h.started n]
  | stopped =>
    have hvalid := ((s.kernel.effect_eq_stopped r).mp heffect).1
    refine ⟨fun n hn => ?_, fun n => ?_⟩
    · have hne : n ≠ r.syscall := fun heq => hn (heq ▸ hvalid)
      exact (Kernel.pid_stopMonitor_of_ne _ _ hne).trans (h.valid n hn)
    · dsimp only [Traced.apply]
      rw [Kernel.monitors_stopMonitor]
      by_cases hn : n = r.syscall
      · subst hn
        simp
      · simp [hn, h.started n]

/-- **Run.**  So do all requests. -/
theorem attributed_of_reachable {original : Fin nr → Nat}
    (hs : Reachable Traced.step (.start original) s) : Attributed s := by
  refine hs.invariant (attributed_start original) fun s r s' h hstep => ?_
  obtain rfl := Option.some.inj hstep
  exact h.request

/-! ### Each kind of request -/

/-- An exit leaves the lists as they are only if the pid is in none of them. -/
theorem undisturbed_exit (h : Attributed s) (heffect : s.kernel.effect r = .exited) :
    Undisturbed s r ↔ ∀ n, r.pid ∉ (s.kernel.info n).pid := by
  have hinvalid : ¬ Valid r.syscall := fun hvalid =>
    hvalid.2.2 ((s.kernel.effect_eq_exited r).mp heffect)
  have hstate : (s.kernel.mySyscall r).2 = s.kernel.exitGroup r.pid :=
    Kernel.mySyscall_of_effect heffect
  constructor
  · intro hun n hin
    by_cases hn : n = r.syscall
    · rw [hn, h.valid _ hinvalid] at hin
      cases hin
    · have hinfo := congrArg SyscallInfo.pid (hun.others n hn).1
      rw [hstate, Kernel.pid_exitGroup] at hinfo
      have hlength := congrArg List.length hinfo
      rw [List.length_erase_of_mem hin] at hlength
      have hpos := List.length_pos_of_mem hin
      omega
  · intro hnone
    have hsame : s.kernel.exitGroup r.pid = s.kernel := by
      have hinfo : (s.kernel.exitGroup r.pid).info = s.kernel.info := by
        funext n
        simp [Kernel.exitGroup, delPid_snd, List.erase_of_not_mem (hnone n)]
      exact congrArg (fun info => Kernel.mk info s.kernel.sysCallTable) hinfo
    rw [hsame] at hstate
    constructor <;> simp [hstate]

/-- A start adds a process of the user, and sets a flag that was not set. -/
theorem undisturbed_start (h : Attributed s) (heffect : s.kernel.effect r = .started) :
    Undisturbed s r := by
  have hstate : (s.kernel.mySyscall r).2 = s.kernel.startMonitor r :=
    Kernel.mySyscall_of_effect heffect
  have hfree := Kernel.monitors_of_started heffect
  constructor
  · intro n hn
    simp [hstate, Kernel.startMonitor, hn]
  · simp [hstate, Kernel.startMonitor]
  · rw [hstate, Kernel.intercepts_startMonitor]
  · rw [hstate]
    cases hkmalloc : r.kmalloc with
    | true =>
      rw [Kernel.pid_startMonitor _ _ hkmalloc, List.filter_cons_of_neg]
      simp [r.current_alive]
    | false => simp [Kernel.startMonitor, addPid, hkmalloc]
  · intro v hv
    have hset := h.started r.syscall
    rw [hv, hfree] at hset
    cases hset

/-- A stop takes a process of the user, and clears a flag that somebody has set. -/
theorem undisturbed_stop (heffect : s.kernel.effect r = .stopped) :
    Undisturbed s r ↔ ∀ v, s.startedBy r.syscall = some v → v = r.current.uid := by
  have hstate : (s.kernel.mySyscall r).2 = s.kernel.stopMonitor r :=
    Kernel.mySyscall_of_effect heffect
  have hset := Kernel.monitors_of_stopped heffect
  have hcleared : (s.kernel.stopMonitor r).monitors r.syscall = false := by
    simp [Kernel.monitors_stopMonitor]
  constructor
  · intro hun v hv
    by_contra hne
    have hflag := hun.start v hv hne
    rw [hstate, hcleared, hset] at hflag
    cases hflag
  · intro hown
    constructor
    · intro n hn
      simp [hstate, Kernel.stopMonitor, hn]
    · simp [hstate, Kernel.stopMonitor]
    · rw [hstate, Kernel.intercepts_stopMonitor]
    · rw [hstate, Kernel.pid_stopMonitor, ← List.erase_filter, List.erase_of_not_mem]
      simp [r.current_alive]
    · exact fun v hv hne => absurd (hown v hv) hne

/-- **Users apart.**  In every state that sequences of requests lead to, a request of a user who
    is not root leaves the data of the other system calls as they are, and of its own system call
    all that is not the user's, exactly if it is harmless. -/
theorem undisturbed_iff (original : Fin nr → Nat) (s : Traced nr)
    (hs : Reachable Traced.step (.start original) s) (r : Request nr)
    (huser : r.current.uid ≠ rootUid) : Undisturbed s r ↔ Harmless s r := by
  have h := attributed_of_reachable hs
  unfold Harmless
  cases heffect : s.kernel.effect r with
  | nothing =>
    have hstate : (s.kernel.mySyscall r).2 = s.kernel := Kernel.mySyscall_of_effect heffect
    refine iff_of_true ?_ trivial
    constructor <;> simp [hstate]
  | exited => exact undisturbed_exit h heffect
  | started => exact iff_of_true (undisturbed_start h heffect) trivial
  | stopped => exact undisturbed_stop heffect
  | intercepted => exact absurd (Kernel.root_of_intercepted heffect) huser
  | released => exact absurd (Kernel.root_of_released heffect) huser

end Requests

/-- A user asks for a monitor of one of his processes. -/
def userRequest (cmd : Int) : Request 4 :=
  { interceptRequest with
    current := ⟨20, 7, by decide⟩
    current_alive := rfl
    cmd := cmd
    pid := 20 }

/-- To start a monitor is harmless. -/
theorem undisturbed_iff_start : ∃ s, Reachable Traced.step (.start fun _ => 7) s ∧
    Undisturbed s (userRequest requestStartMonitor) := by
  refine ⟨_, ⟨[interceptRequest], rfl⟩, (undisturbed_iff (fun _ => 7) _
    ⟨[interceptRequest], rfl⟩ _ (by decide)).mpr ?_⟩
  exact trivial

/-- **Another user's monitor.**  Root monitors itself, and a user who names one of his own
    processes stops that monitor. -/
theorem not_undisturbed : ¬ ∀ s : Traced 4, Reachable Traced.step (.start fun _ => 7) s →
    ∀ r : Request 4, r.current.uid ≠ rootUid → Undisturbed s r := by
  intro h
  have hun := h _ ⟨[interceptRequest, startRequest 10], rfl⟩ (userRequest requestStopMonitor)
    (by decide)
  have hflag := hun.start 0 rfl (by decide)
  cases hflag

end WorkAtUPB.SystemCallMonitorLinux
