import Mathlib.Algebra.Order.Ring.Int
import Mathlib.Order.Interval.Set.Infinite
import WorkAtUPB.Lib.Run
import WorkAtUPB.SystemCallMonitorLinux.Monitor

namespace WorkAtUPB.SystemCallMonitorLinux

open Run

/-!
# What is logged

A request to start a monitor names a process, or 0 for all processes; `my_syscall` puts the pid
of the caller into the list instead, and takes the pid of the caller from it when a monitor is
stopped:

* `Traced` — the module, and for each system call the monitor that is in force: the pid that the
  last request to start one has named, until it is stopped or the process exits;
* `LogsMonitored` — the calls of an intercepted system call that are logged are those of the
  monitored process;
* `NamesCaller` — who starts a monitor names itself and finds nobody else in the list; a
  process that exits is not in the list twice; when interception begins, the list is in order;
* `always_logsMonitored_iff` — the log is right exactly along the runs that keep to this.
-/

variable {nr : Nat}

/-- The module, the pid that each monitor is for, and the user who has started it. -/
structure Traced (nr : Nat) where
  kernel : Kernel nr
  monitored : Fin nr → Option Int
  startedBy : Fin nr → Option Nat

namespace Traced

/-- The module has just been loaded. -/
def start (original : Fin nr → Nat) : Traced nr :=
  ⟨myHelloInit original, fun _ => none, fun _ => none⟩

/-- A request: an exit ends the monitors of the process, a start that succeeds begins one, and a
    stop that succeeds ends it. -/
def request (s : Traced nr) (r : Request nr) : Traced nr :=
  let result := s.kernel.mySyscall r
  if r.syscall.val = nrExitGroup then
    { s with
      kernel := result.2
      monitored := fun n => if s.monitored n = some r.pid then none else s.monitored n }
  else if r.cmd = requestStartMonitor ∧ result.1 = 0 then
    { kernel := result.2
      monitored := Function.update s.monitored r.syscall (some r.pid)
      startedBy := Function.update s.startedBy r.syscall (some r.current.uid) }
  else if r.cmd = requestStopMonitor ∧ result.1 = 0 then
    { kernel := result.2
      monitored := Function.update s.monitored r.syscall none
      startedBy := Function.update s.startedBy r.syscall none }
  else { s with kernel := result.2 }

/-- A request is always answered. -/
def step (s : Traced nr) (r : Request nr) : Option (Traced nr) := some (s.request r)

/-- The monitor of the system call is for the process, or for all. -/
def Watched (s : Traced nr) (n : Fin nr) (q : Int) : Prop :=
  s.monitored n = some q ∨ s.monitored n = some 0

end Traced

/-- The calls of an intercepted system call that `interceptor` logs are those of the monitored
    processes. -/
def LogsMonitored (s : Traced nr) : Prop :=
  ∀ n, s.kernel.intercepts n = true → ∀ q, 0 < q →
    ((s.kernel.interceptor n q).2 = true ↔ s.Watched n q)

/-- The condition on the requests. -/
def NamesCaller (s : Traced nr) (r : Request nr) : Prop :=
  match s.kernel.effect r with
  | .started =>
    r.pid = r.current.pid ∧ ∀ p ∈ (s.kernel.info r.syscall).pid, p = r.current.pid
  | .exited => ∀ n, s.kernel.intercepts n = true → s.kernel.monitors n = true →
    (s.kernel.info n).pid.count r.pid ≤ 1
  | .intercepted => s.kernel.monitors r.syscall = true →
    ∀ p ∈ (s.kernel.info r.syscall).pid, s.monitored r.syscall = some p
  | .released | .stopped | .nothing => True

/-- The lists hold pids of processes, and that of the monitor in force is in its list. -/
structure Listed (s : Traced nr) : Prop where
  pos : ∀ n, ∀ p ∈ (s.kernel.info n).pid, 0 < p
  monitored : ∀ n p, s.monitored n = some p →
    0 < p ∧ p ∈ (s.kernel.info n).pid ∧ s.kernel.monitors n = true

namespace Traced

variable {s : Traced nr} {r : Request nr}

/-- The state that an effect leaves. -/
def apply (s : Traced nr) (r : Request nr) : Effect → Traced nr
  | .exited => { s with
      kernel := s.kernel.exitGroup r.pid
      monitored := fun n => if s.monitored n = some r.pid then none else s.monitored n }
  | .started => {
      kernel := s.kernel.startMonitor r
      monitored := Function.update s.monitored r.syscall (some r.pid)
      startedBy := Function.update s.startedBy r.syscall (some r.current.uid) }
  | .stopped => {
      kernel := s.kernel.stopMonitor r
      monitored := Function.update s.monitored r.syscall none
      startedBy := Function.update s.startedBy r.syscall none }
  | .intercepted =>
    { s with kernel := (s.kernel.interceptSet r.syscall).interceptSwap r.syscall }
  | .released => { s with kernel := s.kernel.releaseRestore r.syscall }
  | .nothing => s

/-- **Specification of a request.**  It has the effect that its tests allow. -/
theorem request_eq (s : Traced nr) (r : Request nr) :
    s.request r = s.apply r (s.kernel.effect r) := by
  unfold request
  simp only [Kernel.mySyscall_snd]
  by_cases hexit : r.syscall.val = nrExitGroup
  · rw [if_pos hexit, (s.kernel.effect_eq_exited r).mpr hexit]
    rfl
  rw [if_neg hexit]
  simp only [Kernel.mySyscall_started hexit, Kernel.mySyscall_stopped hexit]
  have hnot := mt (s.kernel.effect_eq_exited r).mp hexit
  cases heffect : s.kernel.effect r with
  | exited => exact absurd heffect hnot
  | started | stopped => simp [apply, Kernel.apply]
  | nothing | intercepted | released => simp [apply, Kernel.apply]

/-- As long as a monitor is started, only the monitored process is in the list. -/
def InOrder (s : Traced nr) (n : Fin nr) : Prop :=
  s.kernel.monitors n = true → ∀ p ∈ (s.kernel.info n).pid, s.monitored n = some p

/-- Only the monitor of the system call and its list matter. -/
theorem inOrder_congr {s s' : Traced nr} {n : Fin nr}
    (hmonitors : s'.kernel.monitors n = s.kernel.monitors n)
    (hpid : (s'.kernel.info n).pid = (s.kernel.info n).pid)
    (hmonitored : s'.monitored n = s.monitored n) : s'.InOrder n ↔ s.InOrder n := by
  rw [InOrder, hmonitors, hpid, hmonitored]
  rfl

end Traced

open Traced

/-- The lists are right at first. -/
theorem listed_start (original : Fin nr → Nat) : Listed (Traced.start original) where
  pos := nofun
  monitored := nofun

section Requests

variable {s : Traced nr} {r : Request nr}

/-- With the lists in order, the log is right. -/
theorem Listed.logsMonitored_iff (h : Listed s) :
    LogsMonitored s ↔ ∀ n, s.kernel.intercepts n = true → s.InOrder n := by
  have hzero : ∀ n, 0 ∉ (s.kernel.info n).pid := fun n hn => absurd (h.pos n 0 hn) (by decide)
  have hwatched : ∀ n q, s.Watched n q ↔ s.monitored n = some q := fun n q =>
    or_iff_left fun hn => absurd (h.monitored n 0 hn).1 (by decide)
  unfold LogsMonitored
  refine forall_congr' fun n => imp_congr_right fun _ => ?_
  simp only [Kernel.interceptor_logs, hwatched, hzero n, or_false]
  constructor
  · intro hlogs hmonitors p hp
    exact (hlogs p (h.pos n p hp)).mp ⟨hmonitors, hp⟩
  · intro horder q hq
    constructor
    · rintro ⟨hmonitors, hin⟩
      exact horder hmonitors q hin
    · intro hmonitored
      obtain ⟨-, hin, hmonitors⟩ := h.monitored n q hmonitored
      exact ⟨hmonitors, hin⟩

/-- The other flags and the table do not matter. -/
theorem Listed.setKernel (h : Listed s) {k : Kernel nr}
    (hmonitors : ∀ n, k.monitors n = s.kernel.monitors n)
    (hpid : ∀ n, (k.info n).pid = (s.kernel.info n).pid) : Listed { s with kernel := k } where
  pos := fun n p hp => h.pos n p (hpid n ▸ hp)
  monitored := fun n p hp => by
    obtain ⟨hpos, hin, hset⟩ := h.monitored n p hp
    exact ⟨hpos, hpid n ▸ hin, hmonitors n ▸ hset⟩

/-- An exit takes the process from the lists, and ends its monitors. -/
theorem Listed.exited (h : Listed s) : Listed (s.apply r .exited) where
  pos := fun n p hp => by
    dsimp only [Traced.apply] at hp
    rw [Kernel.pid_exitGroup] at hp
    exact h.pos n p (List.mem_of_mem_erase hp)
  monitored := fun n p hp => by
    dsimp only [Traced.apply] at hp ⊢
    split at hp
    · cases hp
    · next hne =>
      obtain ⟨hpos, hin, hmonitors⟩ := h.monitored n p hp
      rw [Kernel.pid_exitGroup]
      refine ⟨hpos, (List.mem_erase_of_ne ?_).mpr hin, hmonitors⟩
      rintro rfl
      exact hne hp

/-- A monitor that is started for its caller is in its list. -/
theorem Listed.started (h : Listed s) (hkmalloc : r.kmalloc = true)
    (hcaller : r.pid = r.current.pid) : Listed (s.apply r .started) where
  pos := fun n p hp => by
    dsimp only [Traced.apply] at hp
    by_cases hn : n = r.syscall
    · subst hn
      rw [Kernel.pid_startMonitor _ _ hkmalloc] at hp
      rcases List.mem_cons.mp hp with rfl | hp
      · exact r.current.pid_pos
      · exact h.pos _ p hp
    · rw [Kernel.pid_startMonitor_of_ne _ _ hn] at hp
      exact h.pos n p hp
  monitored := fun n p hp => by
    dsimp only [Traced.apply] at hp ⊢
    rw [Kernel.monitors_startMonitor]
    by_cases hn : n = r.syscall
    · subst hn
      rw [Function.update_self, Option.some.injEq, hcaller] at hp
      rw [Kernel.pid_startMonitor _ _ hkmalloc, ← hp]
      exact ⟨r.current.pid_pos, List.mem_cons_self, by simp⟩
    · rw [Function.update_of_ne hn] at hp
      rw [Kernel.pid_startMonitor_of_ne _ _ hn]
      simpa [hn] using h.monitored n p hp

/-- A monitor that is stopped is in force no more. -/
theorem Listed.stopped (h : Listed s) : Listed (s.apply r .stopped) where
  pos := fun n p hp => by
    dsimp only [Traced.apply] at hp
    by_cases hn : n = r.syscall
    · subst hn
      rw [Kernel.pid_stopMonitor] at hp
      exact h.pos _ p (List.mem_of_mem_erase hp)
    · rw [Kernel.pid_stopMonitor_of_ne _ _ hn] at hp
      exact h.pos n p hp
  monitored := fun n p hp => by
    dsimp only [Traced.apply] at hp ⊢
    have hn : n ≠ r.syscall := by
      rintro rfl
      rw [Function.update_self] at hp
      cases hp
    rw [Function.update_of_ne hn] at hp
    rw [Kernel.monitors_stopMonitor, Kernel.pid_stopMonitor_of_ne _ _ hn]
    simpa [hn] using h.monitored n p hp

/-- A request keeps the lists, if a monitor is started for its caller. -/
theorem Listed.request (h : Listed s) (hkmalloc : r.kmalloc = true)
    (hcaller : s.kernel.effect r = .started → r.pid = r.current.pid) : Listed (s.request r) := by
  rw [request_eq]
  cases heffect : s.kernel.effect r with
  | nothing => exact h
  | exited => exact h.exited
  | intercepted =>
    refine h.setKernel (fun n => ?_) fun n => ?_
    · rw [Kernel.monitors_interceptSwap, Kernel.monitors_interceptSet]
    · rw [Kernel.pid_interceptSwap, Kernel.pid_interceptSet]
  | released =>
    exact h.setKernel (fun n => Kernel.monitors_releaseRestore ..)
      fun n => Kernel.pid_releaseRestore ..
  | started => exact h.started hkmalloc (hcaller heffect)
  | stopped => exact h.stopped

/-! ### The log after each request -/

/-- A monitor that has been started with the log right is for its caller. -/
theorem caller_of_logs (h : Listed s) (hkmalloc : r.kmalloc = true)
    (heffect : s.kernel.effect r = .started) (hlogs : LogsMonitored (s.request r)) :
    r.pid = r.current.pid := by
  have hlogs' := hlogs r.syscall
  rw [request_eq, heffect, Traced.apply] at hlogs'
  simp only [Kernel.interceptor_logs, Kernel.intercepts_startMonitor,
    Kernel.intercepts_of_started heffect, Watched,
    Kernel.monitors_startMonitor, Kernel.pid_startMonitor _ _ hkmalloc, Function.update_self,
    decide_true, Bool.true_or, true_and, Option.some.injEq, forall_true_left] at hlogs'
  have hpid := (hlogs' r.current.pid r.current.pid_pos).mp (Or.inl List.mem_cons_self)
  refine hpid.resolve_right fun hall => ?_
  -- A monitor for all processes would log the calls of one that is not in the list.
  obtain ⟨q, hq, hnot⟩ := (Set.Ioi_infinite (0 : Int)).exists_notMem_finset
    (r.current.pid :: (s.kernel.info r.syscall).pid).toFinset
  rw [List.mem_toFinset] at hnot
  rcases (hlogs' q hq).mpr (Or.inr hall) with hin | hin
  · exact hnot hin
  · rcases List.mem_cons.mp hin with hzero | hin
    · exact absurd (hzero ▸ r.current.pid_pos) (Int.lt_irrefl 0)
    · exact Int.lt_irrefl 0 (h.pos _ 0 hin)

/-- What an exit leaves in order: the lists that have the process at most once. -/
theorem inOrder_exit (horder : ∀ n, s.kernel.intercepts n = true → s.InOrder n)
    (heffect : s.kernel.effect r = .exited) :
    (∀ n, (s.request r).kernel.intercepts n = true → (s.request r).InOrder n) ↔
      ∀ n, s.kernel.intercepts n = true → s.kernel.monitors n = true →
        (s.kernel.info n).pid.count r.pid ≤ 1 := by
  rw [request_eq, heffect, Traced.apply]
  refine forall_congr' fun n =>
    imp_congr_right fun hintercepts => imp_congr_right fun hmonitors => ?_
  dsimp only
  rw [Kernel.pid_exitGroup]
  have hin := horder n hintercepts hmonitors
  constructor
  · intro hleft
    by_contra htwice
    have hmem : r.pid ∈ (s.kernel.info n).pid.erase r.pid :=
      List.count_pos_iff.mp (by rw [List.count_erase_self]; omega)
    have hgone := hleft r.pid hmem
    rw [if_pos (hin r.pid (List.mem_of_mem_erase hmem))] at hgone
    cases hgone
  · intro honce p hp
    have hmonitored := hin p (List.mem_of_mem_erase hp)
    rw [if_neg, hmonitored]
    intro heq
    obtain rfl := Option.some.inj (hmonitored.symm.trans heq)
    have hcount := List.count_pos_iff.mpr hp
    rw [List.count_erase_self] at hcount
    omega

/-- What the beginning of an interception leaves in order. -/
theorem inOrder_intercept (horder : ∀ n, s.kernel.intercepts n = true → s.InOrder n)
    (heffect : s.kernel.effect r = .intercepted) :
    (∀ n, (s.request r).kernel.intercepts n = true → (s.request r).InOrder n) ↔
      s.InOrder r.syscall := by
  have hsame : ∀ n, (s.request r).InOrder n ↔ s.InOrder n := by
    intro n
    rw [request_eq, heffect, Traced.apply]
    refine inOrder_congr (s := s) ?_ ?_ rfl
    · rw [Kernel.monitors_interceptSwap, Kernel.monitors_interceptSet]
    · rw [Kernel.pid_interceptSwap, Kernel.pid_interceptSet]
  have hflag : ∀ n, (s.request r).kernel.intercepts n = true ↔
      n = r.syscall ∨ s.kernel.intercepts n = true := by
    intro n
    rw [request_eq, heffect, Traced.apply, Kernel.intercepts_interceptSwap,
      Kernel.intercepts_interceptSet, Bool.or_eq_true, decide_eq_true_eq]
  simp only [hsame, hflag]
  constructor
  · exact fun hall => hall r.syscall (Or.inl rfl)
  · rintro hself n (rfl | hn)
    · exact hself
    · exact horder n hn

/-- The end of an interception leaves the lists in order. -/
theorem inOrder_release (horder : ∀ n, s.kernel.intercepts n = true → s.InOrder n)
    (heffect : s.kernel.effect r = .released) (n : Fin nr)
    (hn : (s.request r).kernel.intercepts n = true) : (s.request r).InOrder n := by
  rw [request_eq, heffect, Traced.apply] at hn ⊢
  rw [Kernel.intercepts_releaseRestore, Bool.and_eq_true] at hn
  refine (inOrder_congr (s := s) ?_ ?_ ?_).mpr (horder n hn.2)
  · exact Kernel.monitors_releaseRestore ..
  · exact Kernel.pid_releaseRestore ..
  · rfl

/-- The end of a monitor leaves the lists in order: that of its system call does not matter. -/
theorem inOrder_stop (horder : ∀ n, s.kernel.intercepts n = true → s.InOrder n)
    (heffect : s.kernel.effect r = .stopped) (n : Fin nr)
    (hn : (s.request r).kernel.intercepts n = true) : (s.request r).InOrder n := by
  rw [request_eq, heffect, Traced.apply] at hn ⊢
  rw [Kernel.intercepts_stopMonitor] at hn
  by_cases hself : n = r.syscall
  · intro hset
    rw [Kernel.monitors_stopMonitor] at hset
    simp [hself] at hset
  · refine (inOrder_congr (s := s) ?_ ?_ ?_).mpr (horder n hn)
    · simp [Kernel.monitors_stopMonitor, hself]
    · exact Kernel.pid_stopMonitor_of_ne _ _ hself
    · exact Function.update_of_ne hself ..

/-- What a monitor that has been started leaves in order, if it is for its caller. -/
theorem inOrder_start (hkmalloc : r.kmalloc = true)
    (horder : ∀ n, s.kernel.intercepts n = true → s.InOrder n)
    (heffect : s.kernel.effect r = .started) (hcaller : r.pid = r.current.pid) :
    (∀ n, (s.request r).kernel.intercepts n = true → (s.request r).InOrder n) ↔
      ∀ p ∈ (s.kernel.info r.syscall).pid, p = r.current.pid := by
  rw [request_eq, heffect, Traced.apply]
  simp only [Kernel.intercepts_startMonitor]
  constructor
  · intro hafter p hp
    have hin := hafter r.syscall (Kernel.intercepts_of_started heffect)
      (by simp [Kernel.monitors_startMonitor]) p
      (by simp [Kernel.pid_startMonitor _ _ hkmalloc, hp])
    dsimp only at hin
    rw [Function.update_self, Option.some.injEq, hcaller] at hin
    exact hin.symm
  · intro hlist n hn
    by_cases hns : n = r.syscall
    · subst hns
      intro _ p hp
      rw [Kernel.pid_startMonitor _ _ hkmalloc] at hp
      dsimp only
      rw [Function.update_self, hcaller]
      rcases List.mem_cons.mp hp with rfl | hp
      · rfl
      · rw [hlist p hp]
    · refine (inOrder_congr (s := s) ?_ ?_ ?_).mpr (horder n hn)
      · simp [Kernel.monitors_startMonitor, hns]
      · exact Kernel.pid_startMonitor_of_ne _ _ hns
      · exact Function.update_of_ne hns ..

/-- **One request.**  If the log is right before a request, it is right after it exactly if the
    request meets the condition. -/
theorem logsMonitored_request (h : Listed s) (hkmalloc : r.kmalloc = true)
    (hlogs : LogsMonitored s) : LogsMonitored (s.request r) ↔ NamesCaller s r := by
  have horder := h.logsMonitored_iff.mp hlogs
  have hafter : (s.kernel.effect r = .started → r.pid = r.current.pid) →
      (LogsMonitored (s.request r) ↔
        ∀ n, (s.request r).kernel.intercepts n = true → (s.request r).InOrder n) := fun hcaller =>
    (h.request hkmalloc hcaller).logsMonitored_iff
  unfold NamesCaller
  cases heffect : s.kernel.effect r with
  | nothing =>
    rw [request_eq, heffect]
    exact iff_of_true hlogs trivial
  | exited =>
    rw [hafter (by simp [heffect])]
    exact inOrder_exit horder heffect
  | intercepted =>
    rw [hafter (by simp [heffect])]
    exact inOrder_intercept horder heffect
  | released =>
    rw [hafter (by simp [heffect])]
    exact iff_of_true (inOrder_release horder heffect) trivial
  | stopped =>
    rw [hafter (by simp [heffect])]
    exact iff_of_true (inOrder_stop horder heffect) trivial
  | started =>
    by_cases hcaller : r.pid = r.current.pid
    · rw [hafter fun _ => hcaller, inOrder_start hkmalloc horder heffect hcaller]
      exact (and_iff_right hcaller).symm
    · refine iff_of_false (fun hright => ?_) fun hnames => hcaller hnames.1
      exact hcaller (caller_of_logs h hkmalloc heffect hright)

end Requests

/-- **The log.**  For every sequence of requests from any callers, with memory for each list
    entry: in every state, of the calls of an intercepted system call those of the monitored
    processes are logged, exactly if each request meets the condition. -/
theorem always_logsMonitored_iff (original : Fin nr → Nat) (rs : List (Request nr))
    (hkmalloc : ∀ r ∈ rs, r.kmalloc = true) :
    Always Traced.step LogsMonitored (.start original) rs ↔
      EachStep Traced.step NamesCaller (.start original) rs := by
  refine always_iff_eachStep_budget
    (J := fun s rs => Listed s ∧ ∀ r ∈ rs, r.kmalloc = true) ?_ ?_ ?_
    ⟨listed_start original, hkmalloc⟩ ?_
  · rintro s r rs s' ⟨hlisted, hmem⟩ - hstep hlogs
    obtain rfl := Option.some.inj hstep
    refine ⟨hlisted.request (hmem r List.mem_cons_self) fun heffect => ?_,
      fun r' hr' => hmem r' (List.mem_cons_of_mem r hr')⟩
    exact caller_of_logs hlisted (hmem r List.mem_cons_self) heffect hlogs
  · rintro s r rs s' ⟨hlisted, hmem⟩ hlogs hstep
    obtain rfl := Option.some.inj hstep
    exact logsMonitored_request hlisted (hmem r List.mem_cons_self) hlogs
  · rintro s r rs - - hstuck
    cases hstuck
  · exact (listed_start original).logsMonitored_iff.mpr fun n _ _ => nofun

/-- Process 10 belongs to root and process 20 to a user. -/
def twoTasks (pid : Int) : Option Nat :=
  if pid = 10 then some 0 else if pid = 20 then some 7 else none

/-- Root intercepts system call 2. -/
def interceptRequest : Request 4 where
  current := ⟨10, 0, by decide⟩
  tasks := twoTasks
  current_alive := rfl
  kmalloc := true
  cmd := requestSyscallIntercept
  syscall := 2
  pid := 0

/-- A request of root for a monitor of a process. -/
def startRequest (pid : Int) : Request 4 :=
  { interceptRequest with cmd := requestStartMonitor, pid := pid }

/-- Root monitors itself. -/
theorem always_logsMonitored_own :
    Always Traced.step LogsMonitored (.start fun _ => 7) [interceptRequest, startRequest 10] := by
  refine (always_logsMonitored_iff _ _ (by simp [interceptRequest, startRequest])).mpr
    ⟨fun _ => nofun, fun s hs => ⟨?_, fun _ _ => trivial⟩⟩
  obtain rfl := Option.some.inj hs
  exact ⟨rfl, nofun⟩

/-- **The wrong process.**  Root asks for a monitor of process 20, and it is its own calls that
    are logged. -/
theorem not_logsMonitored : ¬ ∀ rs : List (Request 4), (∀ r ∈ rs, r.kmalloc = true) →
    Always Traced.step LogsMonitored (.start fun _ => 7) rs := by
  intro h
  have hlast := (h [interceptRequest, startRequest 20]
    (by simp [interceptRequest, startRequest])).last rfl
  have hlogged := (hlast 2 rfl 20 (by decide)).mpr (Or.inl rfl)
  cases hlogged

end WorkAtUPB.SystemCallMonitorLinux
