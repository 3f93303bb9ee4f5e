import WorkAtUPB.ThreadsMonitor.MutualExclusion
import WorkAtUPB.ThreadsMonitor.Queues

namespace WorkAtUPB.ThreadsMonitor

open WorkAtUPB.Run

/-!
# ThreadsMonitorLinux — no thread is stranded

A ready thread goes on only when another one gives the monitor up, so while the waiting, the
signaled or the entry queue holds somebody there must be a thread left to do that:

* `Active` — a thread is inside, or was posted and has not been resumed yet;
* `LockHistory`, `stepLocked` — the monitor with the thread that locked its mutex;
* `Tended` — ready threads are tended to, and a locked mutex has its thread inside;
* `noThreadStranded` — this holds in every reachable state.

The two halves go together: a thread gets into the entry queue because the mutex is locked.
-/

variable {T : Type*}

/-- Some thread is inside the monitor, or was posted and has not been resumed yet. -/
def Active (s : State T) : Prop :=
  ∃ t, s.thread t = .inside ∨ ∃ call sem, s.thread t = .blocked call sem ∧ 0 < s.value sem

/-- The thread that acts. -/
def Action.thread : Action T → T
  | .enter t => t
  | .leave t => t
  | .wait t _ => t
  | .signal t _ => t
  | .broadcast t _ => t
  | .resume t => t

/-- The monitor, and the thread that locked the mutex while it is locked. -/
structure LockHistory (T : Type*) where
  state : State T
  lockedBy : Option T

/-- Nobody has locked the mutex of a new monitor. -/
def LockHistory.create (conditions : Nat) (policy : Policy) : LockHistory T :=
  ⟨ThreadsMonitor.create conditions policy, none⟩

/-- Ready threads are tended to, and the thread that locked a locked mutex is inside. -/
structure Tended (h : LockHistory T) : Prop where
  ready : ready h.state.monitor ≠ [] → Active h.state
  locked : h.state.monitor.mutex = true → ∃ t ∈ h.lockedBy, h.state.thread t = .inside

/-- Semaphores that are ready are in queues. -/
theorem mem_queued_of_ready {m : Monitor T} {sem : Sem} (h : sem ∈ ready m) : sem ∈ queued m :=
  Multiset.mem_add.mpr (Or.inl (Multiset.mem_coe.mpr h))

/-- Where the mutex stays as it was and nobody leaves the inside, the thread that locked it is
    still there. -/
theorem Tended.keeps {h : LockHistory T} {s' : State T} (ht : Tended h) (locker : Option T)
    (hmutex : s'.monitor.mutex = h.state.monitor.mutex)
    (hinside : ∀ u, h.state.thread u = .inside → s'.thread u = .inside)
    (hlocked : s'.monitor.mutex = true) :
    ∃ u ∈ (if s'.monitor.mutex = false then none
      else if h.state.monitor.mutex = false then locker else h.lockedBy),
      s'.thread u = .inside := by
  rw [hmutex] at hlocked
  obtain ⟨u, hu, hin⟩ := ht.locked hlocked
  rw [hmutex, hlocked]
  exact ⟨u, hu, hinside u hin⟩

variable [DecidableEq T]

/-- One step, where a mutex that was free and is locked then was locked by the thread that
    acts. -/
def stepLocked (h : LockHistory T) (a : Action T) : Option (LockHistory T) :=
  (step h.state a).map fun s =>
    ⟨s, if s.monitor.mutex = false then none
      else if h.state.monitor.mutex = false then some a.thread else h.lockedBy⟩

/-! ### One step -/

/-- `planifica` unlocks the mutex, and posts a thread if one is ready. -/
theorem yield_tended {s : State T} {t : T} {status : Status} (lockedBy : Option T)
    (h : Placed { s with thread := Function.update s.thread t status }.seats) :
    Tended ⟨s.yield t status, lockedBy⟩ := by
  obtain ⟨hhead, htail, hmutex⟩ := planifica_posts s.monitor
  refine ⟨fun hready => ?_, fun hlocked => ?_⟩
  · have hready : ready (planifica s.monitor).2 ≠ [] := hready
    rw [htail] at hready
    cases hqueue : ready s.monitor with
    | nil => exact absurd (by rw [hqueue]; rfl) hready
    | cons sem rest =>
      -- The head of the ready queues is a blocked thread's semaphore, and has been posted.
      have hmem : sem ∈ queued s.monitor :=
        mem_queued_of_ready (hqueue ▸ List.mem_cons_self)
      obtain ⟨u, call, hu⟩ := h.blocked hmem
      refine ⟨u, Or.inr ⟨call, sem, hu, ?_⟩⟩
      show 0 < post s.value (planifica s.monitor).1 sem
      rw [hhead, hqueue, List.head?_cons]
      show 0 < Function.update s.value sem (s.value sem + 1) sem
      rw [Function.update_self]
      exact Nat.succ_pos _
  · have hlocked : (planifica s.monitor).2.mutex = true := hlocked
    rw [hmutex] at hlocked
    cases hlocked

/-- A call of a thread that is inside. -/
theorem Ended.tended {h : LockHistory T} {s' : State T} {t : T} (hend : Ended h.state t s')
    (ht : Tended h) (hin : h.state.thread t = .inside) (locker : Option T) :
    Tended ⟨s', if s'.monitor.mutex = false then none
      else if h.state.monitor.mutex = false then locker else h.lockedBy⟩ := by
  cases hend with
  | returns hplaced hthread hmutex =>
    have hinside : ∀ u, h.state.thread u = .inside → s'.thread u = .inside := fun u hu => by
      rw [hthread, hu]
    exact ⟨fun _ => ⟨t, Or.inl (hinside t hin)⟩, ht.keeps locker hmutex hinside⟩
  | yields s₀ status hs' hplaced =>
    subst hs'
    exact yield_tended _ hplaced

/-- `Enter` keeps the ready threads tended to. -/
theorem enter_tended {h : LockHistory T} {t : T} (ht : Tended h) (hr : Recorded h.state.view)
    (hrun : h.state.thread t = .inside ∨ h.state.thread t = .outside) :
    Tended ⟨enter h.state t, if (enter h.state t).monitor.mutex = false then none
      else if h.state.monitor.mutex = false then some t else h.lockedBy⟩ := by
  by_cases hentered : h.state.monitor.enteredThreads t = true
  · have hstay : enter h.state t = h.state := if_pos hentered
    rw [hstay]
    exact ⟨ht.ready, ht.keeps (some t) rfl fun _ hu => hu⟩
  have hout : h.state.thread t = .outside := hrun.resolve_left fun hin =>
    hentered (hr.entered (by rw [show h.state.view.thread t = .inside from hin]; trivial))
  unfold enter
  rw [if_neg hentered]
  by_cases hmutex : h.state.monitor.mutex = false
  · -- The thread locks the mutex itself.
    rw [if_pos hmutex, if_pos hmutex]
    have hin : Function.update h.state.thread t Status.inside t = .inside :=
      Function.update_self ..
    exact ⟨fun _ => ⟨t, Or.inl hin⟩, fun _ => ⟨t, rfl, hin⟩⟩
  · -- The mutex is locked, so the thread that locked it is inside to wake this one.
    rw [if_neg hmutex, if_neg hmutex]
    obtain ⟨u, hu, hin⟩ := ht.locked (Bool.eq_true_of_not_eq_false hmutex)
    have hut : u ≠ t := by
      rintro rfl
      cases hin.symm.trans hout
    have hin' : Function.update h.state.thread t (Status.blocked .enter h.state.nextSem) u =
        .inside := (Function.update_of_ne hut ..).trans hin
    refine ⟨fun _ => ⟨u, Or.inl hin'⟩, fun _ => ⟨u, ?_, hin'⟩⟩
    show u ∈ if h.state.monitor.mutex = false then none else h.lockedBy
    rw [if_neg hmutex]
    exact hu

/-- So does a thread that goes on. -/
theorem resume_tended {h : LockHistory T} {s' : State T} {t : T} (ht : Tended h)
    (hs : resume h.state t = some s') :
    Tended ⟨s', if s'.monitor.mutex = false then none
      else if h.state.monitor.mutex = false then some t else h.lockedBy⟩ := by
  unfold resume at hs
  split at hs
  next call sem hb =>
    by_cases hv : h.state.value sem = 0
    · rw [if_pos hv] at hs
      cases hs
    rw [if_neg hv] at hs
    have hin : Function.update h.state.thread t Status.inside t = .inside :=
      Function.update_self ..
    split at hs
    · split at hs
      · cases hs
      next hmutex =>
        -- `Enter` locks the mutex again.
        cases hs
        refine ⟨fun _ => ⟨t, Or.inl hin⟩, fun _ => ⟨t, ?_, hin⟩⟩
        rw [if_neg (show ¬ true = false by decide), if_pos (Bool.eq_false_iff.mpr hmutex)]
        rfl
    · cases hs
      refine ⟨fun _ => ⟨t, Or.inl hin⟩, ht.keeps (some t) rfl fun u hu => ?_⟩
      by_cases hut : u = t
      · rw [hut]
        exact hin
      · exact (Function.update_of_ne hut ..).trans hu
  next => cases hs

/-- Every step leaves the ready threads tended to. -/
theorem stepLocked_tended {h h' : LockHistory T} {a : Action T} (hplaced : Placed h.state.seats)
    (hr : Recorded h.state.view) (ht : Tended h) (hs : stepLocked h a = some h') : Tended h' := by
  obtain ⟨s', hs', rfl⟩ := Option.map_eq_some_iff.mp hs
  cases a with
  | enter t =>
    obtain ⟨hrun, ⟨⟩⟩ := Option.ite_none_right_eq_some.mp hs'
    exact enter_tended ht hr hrun
  | leave t =>
    obtain ⟨hin, ⟨⟩⟩ := Option.ite_none_right_eq_some.mp hs'
    exact (leave_ended hplaced (Or.inl hin)).tended ht hin _
  | wait t cond =>
    obtain ⟨hin, ⟨⟩⟩ := Option.ite_none_right_eq_some.mp hs'
    exact (wait_ended hplaced (Or.inl hin)).tended ht hin _
  | signal t cond =>
    obtain ⟨hin, ⟨⟩⟩ := Option.ite_none_right_eq_some.mp hs'
    exact (signal_ended hplaced (Or.inl hin)).tended ht hin _
  | broadcast t cond =>
    obtain ⟨hin, ⟨⟩⟩ := Option.ite_none_right_eq_some.mp hs'
    exact (broadcast_ended hplaced (Or.inl hin)).tended ht hin _
  | resume t => exact resume_tended ht hs'

/-! ### Runs -/

/-- **No thread is stranded.**  For either policy, any number of threads and any interleaving,
    in every reachable state: while the waiting, the signaled or the entry queue is not empty,
    some thread is inside the monitor, or has been posted and not been resumed yet; and while
    the mutex is locked, the thread that locked it is inside. -/
theorem noThreadStranded (conditions : Nat) (policy : Policy) {h : LockHistory T}
    (hr : Reachable stepLocked (LockHistory.create conditions policy) h) :
    (h.state.monitor.waitingQueue ≠ [] ∨ h.state.monitor.signaledQueue ≠ [] ∨
        h.state.monitor.entryQueue ≠ [] →
      ∃ t, h.state.thread t = .inside ∨
        ∃ call sem, h.state.thread t = .blocked call sem ∧ 0 < h.state.value sem) ∧
    (h.state.monitor.mutex = true → ∃ t ∈ h.lockedBy, h.state.thread t = .inside) := by
  have hinv : Placed h.state.seats ∧ Recorded h.state.view ∧ Tended h := by
    refine hr.invariant (I := fun h => Placed h.state.seats ∧ Recorded h.state.view ∧ Tended h)
      ⟨create_placed .., create_recorded .., ⟨fun hne => absurd rfl hne, nofun⟩⟩ ?_
    rintro h a h' ⟨hplaced, hrec, ht⟩ hs
    obtain ⟨s', hs', rfl⟩ := Option.map_eq_some_iff.mp hs
    exact ⟨callStep_placed hplaced (callStep_of_step hs'), step_recorded hrec hs',
      stepLocked_tended hplaced hrec ht hs⟩
  obtain ⟨-, -, ht⟩ := hinv
  refine ⟨fun hne => ht.ready fun hempty => ?_, ht.locked⟩
  obtain ⟨hfirst, hentry⟩ := List.append_eq_nil_iff.mp hempty
  obtain ⟨hwaiting, hsignaled⟩ := List.append_eq_nil_iff.mp hfirst
  rcases hne with hne | hne | hne
  · exact hne hwaiting
  · exact hne hsignaled
  · exact hne hentry

/-- A thread that waits at the entry while another one waits inside for a signal. -/
theorem noThreadStranded_entry : ∃ h, run stepLocked (LockHistory.create 1 .signalAndWait)
      [.enter 0, .enter 1, .enter 2, .wait 0 0] = some h ∧
    h.state.monitor.entryQueue ≠ [] ∧ ∃ t : ℕ, h.state.thread t = .inside ∨
      ∃ call sem, h.state.thread t = .blocked call sem ∧ 0 < h.state.value sem :=
  ⟨_, rfl, List.cons_ne_nil _ _, (noThreadStranded 1 .signalAndWait
    ⟨[.enter 0, .enter 1, .enter 2, .wait 0 0], rfl⟩).1 (Or.inr (Or.inr (List.cons_ne_nil _ _)))⟩

end WorkAtUPB.ThreadsMonitor
