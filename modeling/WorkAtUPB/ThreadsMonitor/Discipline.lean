import WorkAtUPB.ThreadsMonitor.Progress

namespace WorkAtUPB.ThreadsMonitor

open WorkAtUPB.Run

/-!
# ThreadsMonitorLinux — the monitor for its callers (`LibMonitor.cpp`)

What a caller of the monitor can rely on, as long as `Enter` takes the mutex only while nobody owns
the monitor:

* `Keeps`, `enter_effects` to `leave_effects` — what each call does to its thread and to the queues
  of the conditions, with `SIGNAL_AND_CONTINUE`;
* `Kept`, `step_kept` — the invariants of the monitor, under one name;
* `Kept.value_eq_zero`, `Kept.mem_ready` — where the semaphore of a blocked thread is.
-/

variable {T : Type*} {s s' : State T} {t : T} {cond : Nat}

/-! ### A monitor that is entered only while it is free -/

/-- Semaphores and records are in order, nobody shares the monitor, and ready threads are tended
    to. -/
structure Kept (s : State T) : Prop where
  placed : Placed s.seats
  recorded : Recorded s.view
  owner : AtMostOneOwner s.view
  tended : ∃ lockedBy, Tended ⟨s, lockedBy⟩

/-- A new monitor is in order. -/
theorem create_kept (conditions : Nat) (policy : Policy) :
    Kept (create conditions policy : State T) where
  placed := create_placed conditions policy
  recorded := create_recorded conditions policy
  owner := fun t _ ht => absurd ht (create_not_owner conditions policy t)
  tended := ⟨none, fun hne => absurd rfl hne, nofun⟩

/-- A semaphore in the queue of a condition has not been posted. -/
theorem Kept.value_eq_zero {call : Call} {sem : Sem} (h : Kept s)
    (ht : s.thread t = .blocked call sem) (hcond : cond < s.monitor.conditions)
    (hmem : sem ∈ s.monitor.conditionsQueue cond) : s.value sem = 0 := by
  have hqueued : sem ∈ queued s.monitor := by
    refine Multiset.mem_add.mpr (Or.inr (Multiset.mem_sum.mpr ⟨cond, ?_, ?_⟩))
    · exact Finset.mem_range.mpr hcond
    · exact Multiset.mem_coe.mpr hmem
  have hcount : 0 < (queued s.monitor).count sem := Multiset.count_pos.mpr hqueued
  have hbalance : (queued s.monitor).count sem + s.value sem = 1 := h.placed.balance ht
  omega

/-- A semaphore that has not been posted and is in no queue of a condition is ready. -/
theorem Kept.mem_ready {call : Call} {sem : Sem} (h : Kept s)
    (ht : s.thread t = .blocked call sem) (hzero : s.value sem = 0)
    (hnot : ∀ cond < s.monitor.conditions, sem ∉ s.monitor.conditionsQueue cond) :
    sem ∈ ready s.monitor := by
  have hbalance : (queued s.monitor).count sem + s.value sem = 1 := h.placed.balance ht
  have hqueued : sem ∈ queued s.monitor := Multiset.count_pos.mp (by omega)
  rcases Multiset.mem_add.mp hqueued with hready | hcond
  · exact Multiset.mem_coe.mp hready
  · obtain ⟨cond, hrange, hmem⟩ := Multiset.mem_sum.mp hcond
    exact absurd (Multiset.mem_coe.mp hmem) (hnot cond (Finset.mem_range.mp hrange))

/-! ### The calls of the monitor -/

/-- What a call of `t` leaves as it was. -/
structure Keeps (s s' : State T) (t : T) : Prop where
  conditions : s'.monitor.conditions = s.monitor.conditions
  policy : s'.monitor.policy = s.monitor.policy
  thread : ∀ u, u ≠ t → s'.thread u = s.thread u
  entered : ∀ u, u ≠ t → s'.monitor.enteredThreads u = s.monitor.enteredThreads u

/-- `planifica` leaves the policy. -/
theorem planifica_policy (m : Monitor T) : (planifica m).2.policy = m.policy := by
  unfold planifica
  fun_induction planificaQueues m m.waitingQueue m.signaledQueue with
  | case1 => rfl
  | case2 sem signaled ih => exact ih
  | case3 => rfl
  | case4 => rfl

variable [DecidableEq T]

/-- The thread `t` calls `planifica` and goes to `status`. -/
theorem yield_keeps (s : State T) (t : T) (status : Status) : Keeps s (s.yield t status) t where
  conditions := (planifica_conditions s.monitor).2
  policy := planifica_policy s.monitor
  thread := fun _ hu => Function.update_of_ne hu ..
  entered := fun u _ => congrFun (planifica_enteredThreads s.monitor) u

/-- `Enter` by a thread outside takes the mutex, or blocks. -/
theorem enter_effects (hs : step s (.enter t) = some s') (hout : s.thread t = .outside)
    (hentered : s.monitor.enteredThreads t = false) :
    Keeps s s' t ∧ s'.monitor.conditionsQueue = s.monitor.conditionsQueue ∧
      (TakesMutex s (.enter t) ∧ s'.thread t = .inside ∨
        ∃ sem, s'.thread t = .blocked .enter sem) := by
  obtain ⟨-, ⟨⟩⟩ := Option.ite_none_right_eq_some.mp hs
  unfold enter
  rw [if_neg (by rw [hentered]; exact Bool.false_ne_true)]
  by_cases hmutex : s.monitor.mutex = false
  · rw [if_pos hmutex]
    exact ⟨⟨rfl, rfl, fun _ hu => Function.update_of_ne hu .., fun _ hu =>
      Function.update_of_ne hu ..⟩, rfl, Or.inl ⟨⟨hout, hentered, hmutex⟩,
      Function.update_self ..⟩⟩
  · rw [if_neg hmutex]
    exact ⟨⟨rfl, rfl, fun _ hu => Function.update_of_ne hu .., fun _ _ => rfl⟩, rfl,
      Or.inr ⟨_, Function.update_self ..⟩⟩

/-- A thread goes on when its semaphore has been posted, and behind `Enter` takes the mutex. -/
theorem resume_effects (hs : step s (.resume t) = some s') :
    Keeps s s' t ∧ s'.monitor.conditionsQueue = s.monitor.conditionsQueue ∧
      s'.thread t = .inside ∧ ∃ call sem, s.thread t = .blocked call sem ∧ 0 < s.value sem ∧
        (call = .enter → TakesMutex s (.resume t)) := by
  rw [step, resume] at hs
  split at hs
  next call sem hb =>
    by_cases hv : s.value sem = 0
    · rw [if_pos hv] at hs
      cases hs
    have hpos : 0 < s.value sem := Nat.pos_of_ne_zero hv
    rw [if_neg hv] at hs
    split at hs
    · split at hs
      · cases hs
      next hmutex =>
        cases hs
        exact ⟨⟨rfl, rfl, fun _ hu => Function.update_of_ne hu .., fun _ hu =>
          Function.update_of_ne hu ..⟩, rfl, Function.update_self .., .enter, sem, hb, hpos,
          fun _ => ⟨sem, hb, hpos, Bool.eq_false_iff.mpr hmutex⟩⟩
    next hcall =>
      cases hs
      exact ⟨⟨rfl, rfl, fun _ hu => Function.update_of_ne hu .., fun _ _ => rfl⟩, rfl,
        Function.update_self .., call, sem, hb, hpos, fun h => absurd h hcall⟩
  next => cases hs

/-- A posted thread can go on while the mutex is free. -/
theorem resume_posted {call : Call} {sem : Sem} (hb : s.thread t = .blocked call sem)
    (hpos : 0 < s.value sem) (hmutex : s.monitor.mutex = false) :
    ∃ s', step s (.resume t) = some s' := by
  rw [step, resume, hb]
  dsimp only
  rw [if_neg (Nat.ne_of_gt hpos)]
  cases call with
  | enter => exact ⟨_, if_neg (by rw [hmutex]; exact Bool.false_ne_true)⟩
  | wait | signal | broadcast => exact ⟨_, rfl⟩

/-- With `SIGNAL_AND_CONTINUE` a signal does not block. -/
theorem afterSignal_eq {call : Call} (h : s.monitor.policy = .signalAndContinue) :
    afterSignal s t call = s := by
  rw [afterSignal, h]

/-- With `SIGNAL_AND_CONTINUE`, `Signal` takes the first thread off the queue of the condition. -/
theorem signal_effects (hs : step s (.signal t cond) = some s')
    (hpolicy : s.monitor.policy = .signalAndContinue) (hcond : cond < s.monitor.conditions) :
    Keeps s s' t ∧ s'.thread = s.thread ∧ s'.monitor.enteredThreads = s.monitor.enteredThreads ∧
      s'.monitor.conditionsQueue = Function.update s.monitor.conditionsQueue cond
        (s.monitor.conditionsQueue cond).tail := by
  obtain ⟨-, ⟨⟩⟩ := Option.ite_none_right_eq_some.mp hs
  unfold signal
  rw [if_neg (Nat.not_le.mpr hcond)]
  cases hqueue : s.monitor.conditionsQueue cond with
  | nil =>
    dsimp only
    rw [afterSignal_eq hpolicy]
    refine ⟨⟨rfl, rfl, fun _ _ => rfl, fun _ _ => rfl⟩, rfl, rfl, ?_⟩
    rw [List.tail_nil, ← hqueue, Function.update_eq_self]
  | cons sem rest =>
    dsimp only
    rw [afterSignal_eq (by exact hpolicy)]
    exact ⟨⟨rfl, rfl, fun _ _ => rfl, fun _ _ => rfl⟩, rfl, rfl, rfl⟩

/-- With `SIGNAL_AND_CONTINUE`, `Broadcast` takes all threads off the queue of the condition. -/
theorem broadcast_effects (hs : step s (.broadcast t cond) = some s')
    (hpolicy : s.monitor.policy = .signalAndContinue) (hcond : cond < s.monitor.conditions) :
    Keeps s s' t ∧ s'.thread = s.thread ∧ s'.monitor.enteredThreads = s.monitor.enteredThreads ∧
      s'.monitor.conditionsQueue = Function.update s.monitor.conditionsQueue cond [] := by
  obtain ⟨-, ⟨⟩⟩ := Option.ite_none_right_eq_some.mp hs
  unfold broadcast
  rw [if_neg (Nat.not_le.mpr hcond)]
  dsimp only
  rw [afterSignal_eq (by exact hpolicy)]
  exact ⟨⟨rfl, rfl, fun _ _ => rfl, fun _ _ => rfl⟩, rfl, rfl, rfl⟩

/-- `Wait` puts a new semaphore behind the queue of the condition. -/
theorem wait_effects (hs : step s (.wait t cond) = some s') (hcond : cond < s.monitor.conditions) :
    Keeps s s' t ∧ ∃ sem, s'.thread t = .blocked .wait sem ∧
      s'.monitor.conditionsQueue = Function.update s.monitor.conditionsQueue cond
        (s.monitor.conditionsQueue cond ++ [sem]) := by
  obtain ⟨-, ⟨⟩⟩ := Option.ite_none_right_eq_some.mp hs
  unfold wait
  rw [if_neg (Nat.not_le.mpr hcond)]
  let monitor := { s.monitor with
    conditionsQueue := Function.update s.monitor.conditionsQueue cond
      (s.monitor.conditionsQueue cond ++ [s.nextSem]) }
  obtain ⟨hconditions, hpolicy, hthread, hentered⟩ :=
    yield_keeps { s.newSem with monitor } t (.blocked .wait s.nextSem)
  exact ⟨⟨hconditions, hpolicy, hthread, hentered⟩, s.nextSem, Function.update_self ..,
    (planifica_conditions _).1⟩

/-- `Leave` by a thread that has entered. -/
theorem leave_effects (hs : step s (.leave t) = some s')
    (hentered : s.monitor.enteredThreads t = true) :
    Keeps s s' t ∧ s'.monitor.conditionsQueue = s.monitor.conditionsQueue ∧
      s'.thread t = .outside ∧ s'.monitor.enteredThreads t = false := by
  obtain ⟨-, ⟨⟩⟩ := Option.ite_none_right_eq_some.mp hs
  unfold leave
  rw [if_pos hentered]
  obtain ⟨hconditions, hpolicy, hthread, hothers⟩ := yield_keeps { s with
    monitor := { s.monitor with
      enteredThreads := Function.update s.monitor.enteredThreads t false } } t .outside
  refine ⟨⟨hconditions, hpolicy, hthread, fun u hu => ?_⟩, (planifica_conditions _).1,
    Function.update_self .., ?_⟩
  · exact (hothers u hu).trans (Function.update_of_ne hu ..)
  · exact (congrFun (planifica_enteredThreads _) t).trans (Function.update_self ..)

/-! ### What a call keeps -/

/-- **Step.**  A call that takes a free monitor keeps it in order. -/
theorem step_kept {a : Action T} (h : Kept s) (hfree : EntersFree s a) (hs : step s a = some s') :
    Kept s' := by
  obtain ⟨hplaced, hrecorded, howner, lockedBy, htended⟩ := h
  refine ⟨callStep_placed hplaced (callStep_of_step hs), step_recorded hrecorded hs,
    (step_atMostOneOwner_iff hrecorded howner hs).mpr hfree, ?_⟩
  have hlocked : ∃ lockedBy', stepLocked ⟨s, lockedBy⟩ a = some ⟨s', lockedBy'⟩ :=
    ⟨_, congrArg (Option.map _) hs⟩
  obtain ⟨lockedBy', hlocked⟩ := hlocked
  exact ⟨lockedBy', stepLocked_tended hplaced hrecorded htended hlocked⟩

end WorkAtUPB.ThreadsMonitor
