import Mathlib.Algebra.BigOperators.Group.Multiset.Basic
import Mathlib.Algebra.BigOperators.Group.Finset.Piecewise
import Mathlib.Algebra.Order.Group.Multiset
import Mathlib.Tactic.Abel
import WorkAtUPB.ThreadsMonitor.Monitor

namespace WorkAtUPB.ThreadsMonitor

open WorkAtUPB.Run

/-!
# ThreadsMonitorLinux — where the semaphores are

A blocked thread is known to the monitor by its semaphore only, which the calls move from one
queue to another until `planifica` posts it:

* `ready`, `planifica_posts` — `planifica` posts the first of the ready semaphores;
* `queued` — the semaphores in all queues, counted with multiplicity;
* `callStep` — one step of threads that call whatever they like;
* `Placed` — the semaphore of a blocked thread is in one queue, or posted once;
* `callStep_placed`, `noWaiterLost` — every step keeps this, so no waiter is lost or
  duplicated.
-/

/-! ### The semaphores in the queues -/

variable {T : Type*}

/-- The queues that `planifica` takes from, in its order. -/
def ready (m : Monitor T) : List Sem := m.waitingQueue ++ m.signaledQueue ++ m.entryQueue

/-- `planifica` posts the first ready semaphore and takes it out; the recursion after the move
    to the waiting queue ends there. -/
theorem planificaQueues_posts (m : Monitor T) (waiting signaled : List Sem) :
    (planificaQueues m waiting signaled).1 = (waiting ++ signaled ++ m.entryQueue).head? ∧
      ready (planificaQueues m waiting signaled).2 =
        (waiting ++ signaled ++ m.entryQueue).tail ∧
      (planificaQueues m waiting signaled).2.mutex = false := by
  fun_induction planificaQueues m waiting signaled with
  | case1 => exact ⟨rfl, rfl, rfl⟩
  | case2 sem signaled ih => exact ih
  | case3 sem entry hentry => exact ⟨by rw [hentry]; rfl, by rw [hentry]; rfl, rfl⟩
  | case4 hentry => exact ⟨by rw [hentry]; rfl, by simp [ready, hentry], rfl⟩

/-- **The scheduler.**  `planifica` posts the first semaphore of the waiting, the signaled and
    the entry queue, in this order, takes it out of its queue and unlocks the mutex. -/
theorem planifica_posts (m : Monitor T) :
    (planifica m).1 = (ready m).head? ∧ ready (planifica m).2 = (ready m).tail ∧
      (planifica m).2.mutex = false :=
  planificaQueues_posts m m.waitingQueue m.signaledQueue

/-- `planifica` leaves the condition queues and the number of conditions. -/
theorem planifica_conditions (m : Monitor T) :
    (planifica m).2.conditionsQueue = m.conditionsQueue ∧
      (planifica m).2.conditions = m.conditions := by
  unfold planifica
  fun_induction planificaQueues m m.waitingQueue m.signaledQueue with
  | case1 => exact ⟨rfl, rfl⟩
  | case2 sem signaled ih => exact ih
  | case3 => exact ⟨rfl, rfl⟩
  | case4 => exact ⟨rfl, rfl⟩

/-- The semaphores in the queues of the monitor, each as often as it is there. -/
def queued (m : Monitor T) : Multiset Sem :=
  (ready m : Multiset Sem) +
    ∑ cond ∈ Finset.range m.conditions, (m.conditionsQueue cond : Multiset Sem)

/-- A change of one condition queue. -/
theorem queued_setCondition (m : Monitor T) {cond : Nat} (h : cond < m.conditions)
    (queue : List Sem) :
    queued { m with conditionsQueue := Function.update m.conditionsQueue cond queue } +
      (m.conditionsQueue cond : Multiset Sem) = queued m + (queue : Multiset Sem) := by
  have hmem : cond ∈ Finset.range m.conditions := Finset.mem_range.mpr h
  have hupdate : (fun c => (Function.update m.conditionsQueue cond queue c : Multiset Sem)) =
      Function.update (fun c => (m.conditionsQueue c : Multiset Sem)) cond queue := by
    funext c
    exact Function.apply_update (fun _ l => ((l : List Sem) : Multiset Sem)) m.conditionsQueue
      cond queue c
  unfold queued ready
  dsimp only
  rw [hupdate, Finset.sum_update_of_mem hmem,
    ← Finset.add_sum_erase _ (fun c => (m.conditionsQueue c : Multiset Sem)) hmem,
    Finset.sdiff_singleton_eq_erase]
  abel

/-- What `planifica` posts leaves the queues, and nothing else does. -/
theorem queued_planifica (m : Monitor T) :
    queued m = ((planifica m).1.toList : Multiset Sem) + queued (planifica m).2 := by
  obtain ⟨hhead, htail, -⟩ := planifica_posts m
  obtain ⟨hqueue, hconds⟩ := planifica_conditions m
  unfold queued
  rw [hqueue, hconds, hhead, htail, ← add_assoc]
  congr 1
  cases ready m <;> rfl

/-- The entry queue grows by one. -/
theorem queued_pushEntry (m : Monitor T) (sem : Sem) :
    queued { m with entryQueue := m.entryQueue ++ [sem] } = sem ::ₘ queued m := by
  unfold queued ready
  simp only [← Multiset.coe_add, ← Multiset.singleton_add, Multiset.coe_singleton]
  abel

/-- The queue of signaled threads grows by one. -/
theorem queued_pushSignaled (m : Monitor T) (sem : Sem) :
    queued { m with signaledQueue := m.signaledQueue ++ [sem] } = sem ::ₘ queued m := by
  unfold queued ready
  simp only [← Multiset.coe_add, ← Multiset.singleton_add, Multiset.coe_singleton]
  abel

/-- The waiting queue grows. -/
theorem queued_appendWaiting (m : Monitor T) (sems : List Sem) :
    queued { m with waitingQueue := m.waitingQueue ++ sems } =
      queued m + (sems : Multiset Sem) := by
  unfold queued ready
  simp only [← Multiset.coe_add]
  abel

/-- The queue of a condition grows by one. -/
theorem queued_pushCondition (m : Monitor T) {cond : Nat} (h : cond < m.conditions) (sem : Sem) :
    queued { m with
      conditionsQueue := Function.update m.conditionsQueue cond
        (m.conditionsQueue cond ++ [sem]) } = sem ::ₘ queued m := by
  have hset := queued_setCondition m h (m.conditionsQueue cond ++ [sem])
  rw [← Multiset.coe_add, add_comm (m.conditionsQueue cond : Multiset Sem), ← add_assoc] at hset
  rw [add_right_cancel hset, Multiset.coe_singleton, add_comm, Multiset.singleton_add]

/-- Semaphores that move from a condition queue to the waiting queue. -/
theorem queued_wake (m : Monitor T) {cond : Nat} (h : cond < m.conditions) {sems rest : List Sem}
    (hqueue : m.conditionsQueue cond = sems ++ rest) :
    queued { m with
      conditionsQueue := Function.update m.conditionsQueue cond rest
      waitingQueue := m.waitingQueue ++ sems } = queued m := by
  have hset := queued_setCondition m h rest
  rw [hqueue, ← Multiset.coe_add, ← add_assoc] at hset
  have happend := queued_appendWaiting
    { m with conditionsQueue := Function.update m.conditionsQueue cond rest } sems
  exact happend.trans (add_right_cancel hset)

/-! ### Blocked threads and their semaphores -/

/-- Where the threads are, and what they wait for: the state without the order in the queues. -/
structure Seats (T : Type*) where
  thread : T → Status
  value : Sem → Nat
  nextSem : Sem
  queued : Multiset Sem

/-- The seats of a state. -/
def State.seats (s : State T) : Seats T where
  thread := s.thread
  value := s.value
  nextSem := s.nextSem
  queued := queued s.monitor

/-- Blocked threads wait on semaphores of their own, created before; each of these is once in
    the queues, or posted once; and the queues hold no other semaphores. -/
structure Placed (v : Seats T) : Prop where
  distinct : ∀ {t u c d sem},
    v.thread t = .blocked c sem → v.thread u = .blocked d sem → t = u
  created : ∀ {t c sem}, v.thread t = .blocked c sem → sem < v.nextSem
  balance : ∀ {t c sem}, v.thread t = .blocked c sem → v.queued.count sem + v.value sem = 1
  blocked : ∀ {sem}, sem ∈ v.queued → ∃ t c, v.thread t = .blocked c sem

/-- The thread is not blocked. -/
def Status.Running (status : Status) : Prop := status = .inside ∨ status = .outside

instance (status : Status) : Decidable status.Running := inferInstanceAs (Decidable (_ ∨ _))

/-- A thread that runs is not blocked. -/
theorem Status.Running.ne_blocked {status : Status} (h : status.Running) (c : Call) (sem : Sem) :
    status ≠ .blocked c sem := by
  rcases h with rfl | rfl
  · exact Status.noConfusion
  · exact Status.noConfusion

/-- A new monitor has empty queues. -/
theorem create_placed (conditions : Nat) (policy : Policy) :
    Placed (create conditions policy : State T).seats where
  distinct := nofun
  created := nofun
  balance := nofun
  blocked := by
    intro sem hsem
    have hempty : (create conditions policy : State T).seats.queued = 0 := by
      simp [State.seats, queued, ready, create]
    rw [hempty] at hsem
    exact absurd hsem (Multiset.notMem_zero sem)

/-- A semaphore from a queue is posted. -/
theorem Placed.post {v : Seats T} {sem : Sem} {rest : Multiset Sem} (h : Placed v)
    (hqueued : v.queued = sem ::ₘ rest) :
    Placed { v with
      value := Function.update v.value sem (v.value sem + 1), queued := rest } := by
  obtain ⟨hdistinct, hcreated, hbalance, hblocked⟩ := h
  refine ⟨hdistinct, hcreated, fun {u c sem'} hu => ?_, fun {sem'} hsem' => ?_⟩
  · have hbal := hbalance hu
    rw [hqueued] at hbal
    dsimp only
    by_cases hs : sem' = sem
    · rw [hs, Function.update_self]
      rw [hs, Multiset.count_cons_self] at hbal
      omega
    · rw [Function.update_of_ne hs]
      rwa [Multiset.count_cons_of_ne hs] at hbal
  · refine hblocked ?_
    rw [hqueued]
    exact Multiset.mem_cons_of_mem hsem'

variable [DecidableEq T]

/-- Where a thread is blocked after `t` went to a running status, it was before, and it is
    not `t`. -/
theorem blocked_of_update {f : T → Status} {t u : T} {status : Status} {c : Call} {sem : Sem}
    (hst : status.Running) (h : Function.update f t status u = .blocked c sem) :
    u ≠ t ∧ f u = .blocked c sem := by
  by_cases hut : u = t
  · rw [hut, Function.update_self] at h
    exact absurd h (hst.ne_blocked c sem)
  · exact ⟨hut, (Function.update_of_ne hut ..).symm.trans h⟩

/-- A thread that goes on running is in no queue. -/
theorem Placed.move {v : Seats T} {t : T} {status : Status} (h : Placed v)
    (ht : (v.thread t).Running) (hst : status.Running) :
    Placed { v with thread := Function.update v.thread t status } where
  distinct := fun hu hu' => h.distinct (blocked_of_update hst hu).2 (blocked_of_update hst hu').2
  created := fun hu => h.created (blocked_of_update hst hu).2
  balance := fun hu => h.balance (blocked_of_update hst hu).2
  blocked := by
    intro sem hsem
    obtain ⟨u, c, hu⟩ := h.blocked hsem
    have hut : u ≠ t := by
      rintro rfl
      exact ht.ne_blocked c sem hu
    exact ⟨u, c, (Function.update_of_ne hut ..).trans hu⟩

/-- A thread blocks on a new semaphore, which goes into a queue. -/
theorem Placed.block {v : Seats T} {t : T} (call : Call) (h : Placed v)
    (ht : (v.thread t).Running) :
    Placed
      { thread := Function.update v.thread t (.blocked call v.nextSem)
        value := Function.update v.value v.nextSem 0
        nextSem := v.nextSem + 1
        queued := v.nextSem ::ₘ v.queued } := by
  -- Another blocked thread has an older semaphore, and was blocked on it before.
  have hold : ∀ {u c sem}, u ≠ t →
      Function.update v.thread t (.blocked call v.nextSem) u = .blocked c sem →
        v.thread u = .blocked c sem ∧ sem ≠ v.nextSem := by
    intro u c sem hut hu
    have hu' := (Function.update_of_ne hut ..).symm.trans hu
    exact ⟨hu', Nat.ne_of_lt (h.created hu')⟩
  have hself : ∀ {c sem}, Function.update v.thread t (.blocked call v.nextSem) t =
      .blocked c sem → sem = v.nextSem := by
    intro c sem hu
    rw [Function.update_self] at hu
    cases hu
    rfl
  refine ⟨?_, ?_, ?_, ?_⟩
  · intro u u' c d sem hu hu'
    by_cases hut : u = t
    · subst hut
      by_contra hne
      exact (hold (Ne.symm hne) hu').2 (hself hu)
    by_cases hut' : u' = t
    · subst hut'
      exact absurd (hself hu') (hold hut hu).2
    · exact h.distinct (hold hut hu).1 (hold hut' hu').1
  · intro u c sem hu
    by_cases hut : u = t
    · subst hut
      rw [hself hu]
      exact Nat.lt_succ_self _
    · exact Nat.lt_succ_of_lt (h.created (hold hut hu).1)
  · intro u c sem hu
    dsimp only
    by_cases hut : u = t
    · subst hut
      rw [hself hu, Multiset.count_cons_self, Function.update_self,
        Multiset.count_eq_zero_of_notMem]
      intro hmem
      obtain ⟨u', d, hu'⟩ := h.blocked hmem
      exact Nat.lt_irrefl _ (h.created hu')
    · obtain ⟨hu', hne⟩ := hold hut hu
      rw [Multiset.count_cons_of_ne hne, Function.update_of_ne hne]
      exact h.balance hu'
  · intro sem hsem
    rcases Multiset.mem_cons.mp hsem with rfl | hsem
    · exact ⟨t, call, Function.update_self ..⟩
    · obtain ⟨u, c, hu⟩ := h.blocked hsem
      have hut : u ≠ t := by
        rintro rfl
        exact ht.ne_blocked c sem hu
      exact ⟨u, c, (Function.update_of_ne hut ..).trans hu⟩

/-- A thread goes on after its semaphore was posted. -/
theorem Placed.take {v : Seats T} {t : T} {call : Call} {sem : Sem} {status : Status}
    (h : Placed v) (ht : v.thread t = .blocked call sem) (hpos : 0 < v.value sem)
    (hst : status.Running) :
    Placed { v with
      thread := Function.update v.thread t status
      value := Function.update v.value sem (v.value sem - 1) } := by
  refine ⟨fun hu hu' => h.distinct (blocked_of_update hst hu).2 (blocked_of_update hst hu').2,
    fun hu => h.created (blocked_of_update hst hu).2, fun {u c sem'} hu => ?_,
    fun {sem'} hsem' => ?_⟩
  · obtain ⟨hut, hold⟩ := blocked_of_update hst hu
    have hs : sem' ≠ sem := by
      rintro rfl
      exact hut (h.distinct hold ht)
    dsimp only
    rw [Function.update_of_ne hs]
    exact h.balance hold
  · obtain ⟨u, c, hu⟩ := h.blocked hsem'
    -- The semaphore of `t` is posted, so it is in no queue.
    have hut : u ≠ t := by
      rintro rfl
      cases ht.symm.trans hu
      have hcount : 0 < v.queued.count sem := Multiset.count_pos.mpr hsem'
      have hbal := h.balance ht
      omega
    exact ⟨u, c, (Function.update_of_ne hut ..).trans hu⟩

/-! ### The calls -/

/-- How a call of `t` ends, with the semaphores in place: it returned, or `t` went to where it
    leaves or blocks, and called `planifica`. -/
inductive Ended (s : State T) (t : T) (s' : State T) : Prop
  | returns (hplaced : Placed s'.seats) (hthread : s'.thread = s.thread)
    (hmutex : s'.monitor.mutex = s.monitor.mutex)
  | yields (s₀ : State T) (status : Status) (h : s' = s₀.yield t status)
    (hplaced : Placed { s₀ with thread := Function.update s₀.thread t status }.seats)

/-- `planifica` posts a semaphore from a queue, or none. -/
theorem Ended.placed {s s' : State T} {t : T} (h : Ended s t s') : Placed s'.seats := by
  cases h with
  | returns hplaced => exact hplaced
  | yields s₀ status h hplaced =>
    subst h
    have hqueued := queued_planifica s₀.monitor
    have hseats : (s₀.yield t status).seats = ⟨Function.update s₀.thread t status,
        post s₀.value (planifica s₀.monitor).1, s₀.nextSem, queued (planifica s₀.monitor).2⟩ := rfl
    rw [hseats]
    cases hsem : (planifica s₀.monitor).1 with
    | none =>
      rw [hsem, Option.toList_none, Multiset.coe_nil, zero_add] at hqueued
      rw [← hqueued]
      exact hplaced
    | some sem =>
      rw [hsem, Option.toList_some, Multiset.coe_singleton, Multiset.singleton_add] at hqueued
      exact hplaced.post hqueued

/-- `Leave` ends with `planifica`, or does nothing. -/
theorem leave_ended {s : State T} {t : T} (h : Placed s.seats) (ht : (s.thread t).Running) :
    Ended s t (leave s t) := by
  unfold leave
  split
  · exact .yields _ _ rfl (h.move ht (Or.inr rfl))
  · exact .returns h rfl rfl

/-- `Wait` ends with `planifica`, if there is such a condition. -/
theorem wait_ended {s : State T} {t : T} {cond : Nat} (h : Placed s.seats)
    (ht : (s.thread t).Running) : Ended s t (wait s t cond) := by
  unfold wait
  split
  · exact .returns h rfl rfl
  next hcond =>
    refine .yields _ _ rfl ?_
    have hblock := h.block .wait ht
    unfold State.seats
    dsimp only [State.newSem]
    rw [queued_pushCondition _ (Nat.lt_of_not_le hcond)]
    exact hblock

/-- The end of a signal, in the state `s'` after it has woken somebody. -/
theorem afterSignal_ended {s s' : State T} {t : T} (call : Call) (h : Placed s'.seats)
    (hthread : s'.thread = s.thread) (hmutex : s'.monitor.mutex = s.monitor.mutex)
    (ht : (s.thread t).Running) : Ended s t (afterSignal s' t call) := by
  unfold afterSignal
  split
  · refine .yields _ _ rfl ?_
    have hblock := h.block call (congrFun hthread t ▸ ht)
    unfold State.seats
    dsimp only [State.newSem]
    rw [queued_pushSignaled]
    exact hblock
  · exact .returns h hthread hmutex

/-- `Signal` ends so. -/
theorem signal_ended {s : State T} {t : T} {cond : Nat} (h : Placed s.seats)
    (ht : (s.thread t).Running) : Ended s t (signal s t cond) := by
  unfold signal
  split
  · exact .returns h rfl rfl
  next hcond =>
    split
    · exact afterSignal_ended .signal h rfl rfl ht
    next sem rest hqueue =>
      refine afterSignal_ended .signal ?_ rfl rfl ht
      unfold State.seats
      dsimp only
      rw [queued_wake _ (Nat.lt_of_not_le hcond) (hqueue.trans List.singleton_append.symm)]
      exact h

/-- `Broadcast` ends so. -/
theorem broadcast_ended {s : State T} {t : T} {cond : Nat} (h : Placed s.seats)
    (ht : (s.thread t).Running) : Ended s t (broadcast s t cond) := by
  unfold broadcast
  split
  · exact .returns h rfl rfl
  next hcond =>
    refine afterSignal_ended .broadcast ?_ rfl rfl ht
    unfold State.seats
    dsimp only
    rw [queued_wake _ (Nat.lt_of_not_le hcond) (List.append_nil _).symm]
    exact h

/-- `Enter` puts a thread that blocks into the entry queue. -/
theorem enter_placed {s : State T} {t : T} (h : Placed s.seats) (ht : (s.thread t).Running) :
    Placed (enter s t).seats := by
  unfold enter
  split
  · exact h
  split
  · exact h.move ht (Or.inl rfl)
  · have hblock := h.block .enter ht
    unfold State.seats
    dsimp only [State.newSem]
    rw [queued_pushEntry]
    exact hblock

/-- A thread that goes on has taken its semaphore. -/
theorem resume_placed {s s' : State T} {t : T} (h : Placed s.seats) (hs : resume s t = some s') :
    Placed s'.seats := by
  unfold resume at hs
  split at hs
  next call sem hb =>
    by_cases hv : s.value sem = 0
    · rw [if_pos hv] at hs
      cases hs
    rw [if_neg hv] at hs
    have hin : Status.Running .inside := Or.inl rfl
    have htake := h.take hb (Nat.pos_of_ne_zero hv) hin
    -- The re-lock of `Enter` changes no queue.
    split at hs
    · split at hs
      · cases hs
      · cases hs
        exact htake
    · cases hs
      exact htake
  next => cases hs

/-! ### Runs -/

/-- One step of threads that call whatever they like, inside the monitor or not.  A blocked
    thread calls nothing. -/
def callStep (s : State T) : Action T → Option (State T)
  | .enter t => if (s.thread t).Running then some (enter s t) else none
  | .leave t => if (s.thread t).Running then some (leave s t) else none
  | .wait t cond => if (s.thread t).Running then some (wait s t cond) else none
  | .signal t cond => if (s.thread t).Running then some (signal s t cond) else none
  | .broadcast t cond => if (s.thread t).Running then some (broadcast s t cond) else none
  | .resume t => resume s t

/-- Threads that call only while inside call what they like. -/
theorem callStep_of_step {s s' : State T} {a : Action T} (h : step s a = some s') :
    callStep s a = some s' := by
  cases a with
  | enter | resume => exact h
  | leave t | wait t cond | signal t cond | broadcast t cond =>
    obtain ⟨ht, ⟨⟩⟩ := Option.ite_none_right_eq_some.mp h
    exact if_pos (Or.inl ht)

/-- Every step keeps the semaphores of the blocked threads in place. -/
theorem callStep_placed {s s' : State T} {a : Action T} (h : Placed s.seats)
    (hs : callStep s a = some s') : Placed s'.seats := by
  cases a with
  | enter t =>
    obtain ⟨ht, ⟨⟩⟩ := Option.ite_none_right_eq_some.mp hs
    exact enter_placed h ht
  | leave t =>
    obtain ⟨ht, ⟨⟩⟩ := Option.ite_none_right_eq_some.mp hs
    exact (leave_ended h ht).placed
  | wait t cond =>
    obtain ⟨ht, ⟨⟩⟩ := Option.ite_none_right_eq_some.mp hs
    exact (wait_ended h ht).placed
  | signal t cond =>
    obtain ⟨ht, ⟨⟩⟩ := Option.ite_none_right_eq_some.mp hs
    exact (signal_ended h ht).placed
  | broadcast t cond =>
    obtain ⟨ht, ⟨⟩⟩ := Option.ite_none_right_eq_some.mp hs
    exact (broadcast_ended h ht).placed
  | resume t => exact resume_placed h hs

/-- **No waiter is lost or duplicated.**  For either policy, any number of threads and any
    interleaving of calls, in every reachable state the semaphore of a blocked thread is once in
    the queues of the monitor and not posted, or in none of them and posted once; the queues
    hold semaphores of blocked threads only; and `planifica` posts the first semaphore of the
    waiting, the signaled and the entry queue, and takes just that one out. -/
theorem noWaiterLost (conditions : Nat) (policy : Policy) {s : State T}
    (h : Reachable callStep (create conditions policy) s) :
    (∀ t call sem, s.thread t = .blocked call sem →
      ((queued s.monitor).count sem = 1 ∧ s.value sem = 0) ∨
        ((queued s.monitor).count sem = 0 ∧ s.value sem = 1)) ∧
    (∀ sem ∈ queued s.monitor, ∃ t call, s.thread t = .blocked call sem) ∧
    (planifica s.monitor).1 = (ready s.monitor).head? ∧
    ready (planifica s.monitor).2 = (ready s.monitor).tail := by
  have hplaced : Placed s.seats :=
    h.invariant (I := fun s => Placed s.seats) (create_placed conditions policy)
      fun _ _ _ hp hs => callStep_placed hp hs
  refine ⟨fun t call sem ht => ?_, fun sem hsem => hplaced.blocked hsem,
    (planifica_posts s.monitor).1, (planifica_posts s.monitor).2.1⟩
  have hbal : (queued s.monitor).count sem + s.value sem = 1 := hplaced.balance ht
  omega

/-- A thread that waits for a condition, without having entered, and is then signaled. -/
theorem noWaiterLost_signal : ∃ s, run callStep (create 1 .signalAndWait : State Bool)
      [.wait false 0, .signal true 0] = some s ∧
    ∀ sem ∈ queued s.monitor, ∃ t call, s.thread t = .blocked call sem :=
  ⟨_, rfl, (noWaiterLost 1 .signalAndWait ⟨[.wait false 0, .signal true 0], rfl⟩).2.1⟩

end WorkAtUPB.ThreadsMonitor
