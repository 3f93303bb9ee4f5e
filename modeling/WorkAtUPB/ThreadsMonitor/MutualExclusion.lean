import WorkAtUPB.ThreadsMonitor.Monitor
import Mathlib.Data.Fintype.Basic

namespace WorkAtUPB.ThreadsMonitor

open WorkAtUPB.Run

/-!
# ThreadsMonitorLinux — who is inside the monitor

`planifica` unlocks the mutex when it hands the monitor to a waiting thread, and that thread
goes on without locking it again.  So `Enter` can find the mutex free although the monitor is
taken:

* `Owner` — a thread that is inside, or that was picked and will go on inside;
* `Effect`, `step_effect` — what a step can do to the threads and the semaphores;
* `always_atMostOneOwner_iff` — one owner at a time, exactly when `Enter` takes the mutex only
  while nobody owns the monitor;
* `always_atMostOneInside` — then at most one thread is inside in every state;
* `takesMutex_two_inside` — an `Enter` that takes the mutex from under an owner leads to two
  threads inside.
-/

variable {T : Type*}

/-! ### Owners -/

/-- Where the threads are, and the semaphores they wait on: the state without the queues. -/
structure View (T : Type*) where
  thread : T → Status
  value : Sem → Nat
  nextSem : Sem
  entered : T → Bool

/-- The view of a state. -/
def State.view (s : State T) : View T where
  thread := s.thread
  value := s.value
  nextSem := s.nextSem
  entered := s.monitor.enteredThreads

/-- At most one thread is inside the monitor. -/
def AtMostOneInside (s : State T) : Prop :=
  ∀ t u, s.thread t = .inside → s.thread u = .inside → t = u

/-- The thread is inside, or `planifica` posted its semaphore and it goes on inside without
    asking for the mutex (only `Enter` re-locks it). -/
def Owner (v : View T) (t : T) : Prop :=
  v.thread t = .inside ∨
    ∃ call sem, v.thread t = .blocked call sem ∧ call ≠ .enter ∧ 0 < v.value sem

/-- At most one thread owns the monitor. -/
def AtMostOneOwner (v : View T) : Prop := ∀ t u, Owner v t → Owner v u → t = u

/-- Threads that are inside own the monitor. -/
theorem AtMostOneOwner.inside {s : State T} (h : AtMostOneOwner s.view) : AtMostOneInside s :=
  fun t u ht hu => h t u (Or.inl ht) (Or.inl hu)

/-- `Enter` takes the mutex: it is free, and the caller locks it at once or after its turn in
    the entry queue has come. -/
def TakesMutex (s : State T) : Action T → Prop
  | .enter t =>
    s.thread t = .outside ∧ s.monitor.enteredThreads t = false ∧ s.monitor.mutex = false
  | .resume t =>
    ∃ sem, s.thread t = .blocked .enter sem ∧ 0 < s.value sem ∧ s.monitor.mutex = false
  | _ => False

/-- If `Enter` takes the mutex, nobody owns the monitor. -/
def EntersFree (s : State T) (a : Action T) : Prop :=
  TakesMutex s a → ∀ u, ¬ Owner s.view u

/-- `Enter` has returned and `Leave` has not been called: inside, or blocked in another call. -/
def Status.Within : Status → Prop
  | .outside => False
  | .inside => True
  | .blocked call _ => call ≠ .enter

/-- Blocked threads wait on semaphores of their own, all of them created before, and the
    threads within are in `entered_threads`. -/
structure Recorded (v : View T) : Prop where
  distinct : ∀ {t u c d sem},
    v.thread t = .blocked c sem → v.thread u = .blocked d sem → t = u
  created : ∀ {t c sem}, v.thread t = .blocked c sem → sem < v.nextSem
  entered : ∀ {t}, (v.thread t).Within → v.entered t = true

/-- The view after `new_sem`. -/
def View.newSem (v : View T) : View T :=
  { v with nextSem := v.nextSem + 1, value := Function.update v.value v.nextSem 0 }

/-- The view after `sem_post` on the semaphore that `planifica` picked, if any. -/
def View.post (v : View T) (sem : Option Sem) : View T :=
  { v with value := ThreadsMonitor.post v.value sem }

/-- The view after `sem_wait` on `sem` returned. -/
def View.take (v : View T) (sem : Sem) : View T :=
  { v with value := Function.update v.value sem (v.value sem - 1) }

/-- Taking a semaphore is not seen by threads blocked on other ones. -/
theorem View.take_value {v : View T} {t u : T} {c d : Call} {sem sem' : Sem} (hr : Recorded v)
    (ht : v.thread t = .blocked c sem) (hut : u ≠ t) (hu : v.thread u = .blocked d sem') :
    (v.take sem).value sem' = v.value sem' :=
  Function.update_of_ne (fun h => hut (hr.distinct (h ▸ hu) ht)) ..

/-- A new semaphore is not seen by threads already blocked. -/
theorem View.newSem_value {v : View T} {u : T} {c : Call} {sem : Sem} (hr : Recorded v)
    (hu : v.thread u = .blocked c sem) : v.newSem.value sem = v.value sem :=
  Function.update_of_ne (Nat.ne_of_lt (hr.created hu)) ..

/-- After a `sem_post`, whoever owns the monitor did so before, or waits on that semaphore. -/
theorem Owner.of_post {v : View T} {sem : Option Sem} {u : T} (h : Owner (v.post sem) u) :
    Owner v u ∨ ∃ call s, sem = some s ∧ v.thread u = .blocked call s := by
  rcases h with h | ⟨call, s, h, hcall, hpos⟩
  · exact Or.inl (Or.inl h)
  · cases sem with
    | none => exact Or.inl (Or.inr ⟨call, s, h, hcall, hpos⟩)
    | some s' =>
      by_cases hs : s = s'
      · exact Or.inr ⟨call, s', rfl, hs ▸ h⟩
      · have hval : (v.post (some s')).value s = v.value s := Function.update_of_ne hs ..
        rw [hval] at hpos
        exact Or.inl (Or.inr ⟨call, s, h, hcall, hpos⟩)

/-- A `sem_post` while nobody owns the monitor makes at most one thread its owner. -/
theorem Recorded.post_atMostOneOwner {v : View T} {sem : Option Sem} (hr : Recorded v)
    (h : ∀ u, ¬ Owner v u) : AtMostOneOwner (v.post sem) := by
  intro t u ht hu
  obtain ⟨c, s, hs, hbt⟩ := ht.of_post.resolve_left (h t)
  obtain ⟨d, s', hs', hbu⟩ := hu.of_post.resolve_left (h u)
  -- Both wait on the semaphore that was posted, and no two threads share one.
  cases hs.symm.trans hs'
  exact hr.distinct hbt hbu

/-- A new monitor has no threads. -/
theorem create_recorded (conditions : Nat) (policy : Policy) :
    Recorded (create conditions policy : State T).view where
  distinct := nofun
  created := nofun
  entered := nofun

/-- Nobody owns a new monitor. -/
theorem create_not_owner (conditions : Nat) (policy : Policy) (t : T) :
    ¬ Owner (create conditions policy : State T).view t := by
  rintro (h | ⟨call, sem, h, -, -⟩)
  · exact Status.noConfusion h
  · exact Status.noConfusion h

/-- `planifica` does not touch `entered_threads`. -/
theorem planifica_enteredThreads (m : Monitor T) :
    (planifica m).2.enteredThreads = m.enteredThreads := by
  unfold planifica
  fun_induction planificaQueues m m.waitingQueue m.signaledQueue with
  | case1 => rfl
  | case2 sem signaled ih => exact ih
  | case3 => rfl
  | case4 => rfl

instance (v : View T) (t : T) : Decidable (Owner v t) :=
  match h : v.thread t with
  | .inside => isTrue (Or.inl h)
  | .outside => isFalse <| by
    rintro (h' | ⟨call, sem, h', -, -⟩) <;> cases h.symm.trans h'
  | .blocked call sem =>
    decidable_of_iff (call ≠ .enter ∧ 0 < v.value sem)
      ⟨fun hb => Or.inr ⟨call, sem, h, hb⟩, by
        rintro (h' | ⟨call', sem', h', hb⟩) <;> cases h.symm.trans h'
        exact hb⟩

instance (s : State T) : (a : Action T) → Decidable (TakesMutex s a)
  | .enter t => inferInstanceAs (Decidable (s.thread t = .outside ∧ _ ∧ _))
  | .resume t =>
    match h : s.thread t with
    | .blocked .enter sem =>
      decidable_of_iff (0 < s.value sem ∧ s.monitor.mutex = false)
        ⟨fun hb => ⟨sem, h, hb⟩, by
          rintro ⟨sem', h', hb⟩
          cases h.symm.trans h'
          exact hb⟩
    | .blocked .wait _ | .blocked .signal _ | .blocked .broadcast _ | .inside | .outside =>
      isFalse <| by
        rintro ⟨sem', h', -⟩
        cases h.symm.trans h'
  | .leave _ | .wait .. | .signal .. | .broadcast .. => inferInstanceAs (Decidable False)

instance [Fintype T] (s : State T) (a : Action T) : Decidable (EntersFree s a) :=
  inferInstanceAs (Decidable (TakesMutex s a → ∀ u, ¬ Owner s.view u))

/-! ### What a step does -/

variable [DecidableEq T]

/-- The thread `t` goes to `status`. -/
def View.move (v : View T) (t : T) (status : Status) : View T :=
  { v with thread := Function.update v.thread t status }

/-- The view after `t` is put in or removed from `entered_threads`. -/
def View.enterAs (v : View T) (t : T) (b : Bool) : View T :=
  { v with entered := Function.update v.entered t b }

/-- What a step can do, for an action that does or does not take the mutex. -/
inductive Effect (v : View T) : Prop → View T → Prop
  /-- The call returns at once. -/
  | stays : Effect v False v
  /-- `Enter` finds the mutex free. -/
  | locks (t : T) (h : v.thread t = .outside) :
    Effect v True ((v.enterAs t true).move t .inside)
  /-- `Enter` blocks. -/
  | queues (t : T) (h : v.thread t = .outside) :
    Effect v False (v.newSem.move t (.blocked .enter v.nextSem))
  /-- `Leave`. -/
  | leaves (t : T) (sem : Option Sem) (h : v.thread t = .inside) :
    Effect v False (((v.enterAs t false).post sem).move t .outside)
  /-- `Wait`, `Signal` or `Broadcast` blocks. -/
  | blocks (t : T) (call : Call) (sem : Option Sem) (h : v.thread t = .inside)
    (hcall : call ≠ .enter) :
    Effect v False ((v.newSem.post sem).move t (.blocked call v.nextSem))
  /-- A thread picked from the entry queue locks the mutex again. -/
  | relocks (t : T) (sem : Sem) (h : v.thread t = .blocked .enter sem) (hpos : 0 < v.value sem) :
    Effect v True (((v.take sem).enterAs t true).move t .inside)
  /-- Another thread that was picked goes on inside. -/
  | resumes (t : T) (call : Call) (sem : Sem) (h : v.thread t = .blocked call sem)
    (hcall : call ≠ .enter) (hpos : 0 < v.value sem) :
    Effect v False ((v.take sem).move t .inside)

/-- What `yield` changes. -/
theorem State.yield_view (s : State T) (t : T) (status : Status) :
    (s.yield t status).view = (s.view.post (planifica s.monitor).1).move t status := by
  unfold State.yield State.view View.post View.move
  rw [planifica_enteredThreads]

/-- The end of a signal blocks, or does nothing. -/
theorem afterSignal_effect {v : View T} (s : State T) (t : T) (call : Call) (hv : s.view = v)
    (h : v.thread t = .inside) (hcall : call ≠ .enter) :
    Effect v False (afterSignal s t call).view := by
  subst hv
  unfold afterSignal
  split
  · rw [State.yield_view]
    exact Effect.blocks (v := s.view) t call _ h hcall
  · exact .stays

/-- `Signal` blocks, or does nothing. -/
theorem signal_effect (s : State T) (t : T) (cond : Nat) (h : s.thread t = .inside) :
    Effect s.view False (signal s t cond).view := by
  unfold signal
  split
  · exact .stays
  split
  · exact afterSignal_effect _ t .signal rfl h (by decide)
  · exact afterSignal_effect _ t .signal rfl h (by decide)

/-- `Broadcast` blocks, or does nothing. -/
theorem broadcast_effect (s : State T) (t : T) (cond : Nat) (h : s.thread t = .inside) :
    Effect s.view False (broadcast s t cond).view := by
  unfold broadcast
  split
  · exact .stays
  · exact afterSignal_effect _ t .broadcast rfl h (by decide)

/-- `Wait` blocks, if there is such a condition. -/
theorem wait_effect (s : State T) (t : T) (cond : Nat) (h : s.thread t = .inside) :
    Effect s.view False (wait s t cond).view := by
  unfold wait
  split
  · exact .stays
  · rw [State.yield_view]
    exact Effect.blocks (v := s.view) t .wait _ h (by decide)

/-- `Leave` lets its thread out, if it has entered. -/
theorem leave_effect (s : State T) (t : T) (h : s.thread t = .inside) :
    Effect s.view False (leave s t).view := by
  unfold leave
  split
  · rw [State.yield_view]
    exact Effect.leaves (v := s.view) t _ h
  · exact .stays

/-- `Enter` locks the mutex, blocks, or does nothing. -/
theorem enter_effect (s : State T) (t : T) (hr : Recorded s.view)
    (h : s.thread t = .inside ∨ s.thread t = .outside) :
    Effect s.view (TakesMutex s (.enter t)) (enter s t).view := by
  unfold enter
  by_cases hin : s.monitor.enteredThreads t = true
  -- The thread is recorded as entered, and `Enter` returns at once.
  · rw [if_pos hin, eq_false (p := TakesMutex s (.enter t)) fun htakes => by
      rw [htakes.2.1] at hin
      exact Bool.noConfusion hin]
    exact .stays
  -- The thread is not recorded, so it is not inside.
  · have hout : s.thread t = .outside := h.resolve_left fun hi =>
      hin (hr.entered (by rw [show s.view.thread t = .inside from hi]; trivial))
    rw [if_neg hin]
    by_cases hm : s.monitor.mutex = false
    · rw [if_pos hm, eq_true (p := TakesMutex s (.enter t))
        ⟨hout, Bool.eq_false_iff.mpr hin, hm⟩]
      exact Effect.locks (v := s.view) t hout
    · rw [if_neg hm, eq_false (p := TakesMutex s (.enter t)) fun htakes => hm htakes.2.2]
      exact Effect.queues (v := s.view) t hout

/-- A thread that was picked goes on, and locks the mutex again if it came in by `Enter`. -/
theorem resume_effect {s s' : State T} {t : T} (h : resume s t = some s') :
    Effect s.view (TakesMutex s (.resume t)) s'.view := by
  unfold resume at h
  split at h
  next call sem hb =>
    by_cases hv : s.value sem = 0
    · rw [if_pos hv] at h
      cases h
    have hpos : 0 < s.value sem := Nat.pos_of_ne_zero hv
    rw [if_neg hv] at h
    cases hc : call with
    -- The re-lock waits until the mutex is free.
    | enter =>
      subst hc
      by_cases hm : s.monitor.mutex = true
      · simp only [hm, if_true] at h
        cases h
      · simp only [hm, Bool.false_eq_true, if_false, Option.some.injEq] at h
        rw [eq_true (p := TakesMutex s (.resume t)) ⟨sem, hb, hpos, Bool.eq_false_iff.mpr hm⟩, ← h]
        exact Effect.relocks (v := s.view) t sem hb hpos
    | wait | signal | broadcast =>
      subst hc
      simp only [Option.some.injEq] at h
      rw [eq_false (p := TakesMutex s (.resume t)) fun ⟨_, hb', _⟩ => by
        rw [hb] at hb'
        exact Call.noConfusion (Status.blocked.inj hb').1, ← h]
      exact Effect.resumes (v := s.view) t _ sem hb (by decide) hpos
  next => cases h

/-- Every step has one of the effects. -/
theorem step_effect {s s' : State T} {a : Action T} (hr : Recorded s.view)
    (h : step s a = some s') : Effect s.view (TakesMutex s a) s'.view := by
  cases a with
  | enter t =>
    obtain ⟨ht, ⟨⟩⟩ := Option.ite_none_right_eq_some.mp h
    exact enter_effect s t hr ht
  | leave t =>
    obtain ⟨ht, ⟨⟩⟩ := Option.ite_none_right_eq_some.mp h
    exact leave_effect s t ht
  | wait t cond =>
    obtain ⟨ht, ⟨⟩⟩ := Option.ite_none_right_eq_some.mp h
    exact wait_effect s t cond ht
  | signal t cond =>
    obtain ⟨ht, ⟨⟩⟩ := Option.ite_none_right_eq_some.mp h
    exact signal_effect s t cond ht
  | broadcast t cond =>
    obtain ⟨ht, ⟨⟩⟩ := Option.ite_none_right_eq_some.mp h
    exact broadcast_effect s t cond ht
  | resume t => exact resume_effect h

/-! ### What a step keeps -/

/-- Where the thread is that has moved. -/
theorem View.move_self (v : View T) (t : T) (status : Status) :
    (v.move t status).thread t = status := Function.update_self ..

/-- The other threads stay. -/
theorem View.move_of_ne (v : View T) {t u : T} (status : Status) (h : u ≠ t) :
    (v.move t status).thread u = v.thread u := Function.update_of_ne h ..

/-- A thread moves to a place where the records allow it: if it blocks, on a new semaphore;
    if it is inside, it has been put in `entered_threads`. -/
theorem Recorded.move {v w : View T} {t : T} {status : Status} (hr : Recorded v)
    (hthread : w.thread = v.thread) (hnext : v.nextSem ≤ w.nextSem)
    (hentered : ∀ u, u ≠ t → w.entered u = v.entered u)
    (hblocked : ∀ c sem, status = .blocked c sem → v.nextSem ≤ sem ∧ sem < w.nextSem)
    (hwithin : status.Within → w.entered t = true) : Recorded (w.move t status) where
  distinct := by
    intro u u' c d sem hu hu'
    -- The semaphore of `t` is new, the one of any other thread was created before.
    by_cases hut : u = t <;> by_cases hut' : u' = t
    · rw [hut, hut']
    · rw [hut, View.move_self] at hu
      rw [View.move_of_ne w status hut', hthread] at hu'
      exact absurd (hr.created hu') (Nat.not_lt.mpr (hblocked c sem hu).1)
    · rw [hut', View.move_self] at hu'
      rw [View.move_of_ne w status hut, hthread] at hu
      exact absurd (hr.created hu) (Nat.not_lt.mpr (hblocked d sem hu').1)
    · rw [View.move_of_ne w status hut, hthread] at hu
      rw [View.move_of_ne w status hut', hthread] at hu'
      exact hr.distinct hu hu'
  created := by
    intro u c sem hu
    by_cases hut : u = t
    · rw [hut, View.move_self] at hu
      exact (hblocked c sem hu).2
    · rw [View.move_of_ne w status hut, hthread] at hu
      exact Nat.lt_of_lt_of_le (hr.created hu) hnext
  entered := by
    intro u hu
    by_cases hut : u = t
    · rw [hut, View.move_self] at hu
      rw [hut]
      exact hwithin hu
    · rw [View.move_of_ne w status hut, hthread] at hu
      exact (hentered u hut).trans (hr.entered hu)

/-- Every effect keeps the records. -/
theorem Effect.recorded {v v' : View T} {p : Prop} (h : Effect v p v') (hr : Recorded v) :
    Recorded v' := by
  cases h with
  | stays => exact hr
  | locks t h =>
    exact hr.move rfl (Nat.le_refl _) (fun u hu => Function.update_of_ne hu ..) nofun
      fun _ => Function.update_self ..
  | queues t h =>
    refine hr.move rfl (Nat.le_succ _) (fun _ _ => rfl) (fun c sem hb => ?_) fun hw => absurd rfl hw
    cases hb
    exact ⟨Nat.le_refl _, Nat.lt_succ_self _⟩
  | leaves t sem h =>
    exact hr.move rfl (Nat.le_refl _) (fun u hu => Function.update_of_ne hu ..) nofun nofun
  | blocks t call sem h hcall =>
    have hin : v.entered t = true := hr.entered (by rw [h]; trivial)
    refine hr.move rfl (Nat.le_succ _) (fun _ _ => rfl) (fun c sem hb => ?_) fun _ => hin
    cases hb
    exact ⟨Nat.le_refl _, Nat.lt_succ_self _⟩
  | relocks t sem h hpos =>
    exact hr.move rfl (Nat.le_refl _) (fun u hu => Function.update_of_ne hu ..) nofun
      fun _ => Function.update_self ..
  | resumes t call sem h hcall hpos =>
    have hin : v.entered t = true := hr.entered (by rw [h]; exact hcall)
    exact hr.move rfl (Nat.le_refl _) (fun _ _ => rfl) nofun fun _ => hin

/-! ### Owners of the next state -/

/-- Other threads own the monitor as before. -/
theorem Owner.move_iff {v w : View T} {t u : T} {status : Status} (hut : u ≠ t)
    (hthread : w.thread u = v.thread u)
    (hvalue : ∀ c sem, v.thread u = .blocked c sem → w.value sem = v.value sem) :
    Owner (w.move t status) u ↔ Owner v u := by
  unfold Owner
  rw [View.move_of_ne w status hut, hthread]
  refine or_congr Iff.rfl (exists_congr fun call => exists_congr fun sem => ?_)
  refine and_congr_right fun hb => ?_
  rw [← hvalue call sem hb]
  rfl

/-- An effect that takes the mutex adds one thread to the owners, and puts it inside. -/
theorem Effect.takes_owner {v v' : View T} {p : Prop} (h : Effect v p v') (hp : p)
    (hr : Recorded v) :
    ∃ t, ¬ Owner v t ∧ v'.thread t = .inside ∧ ∀ u, u ≠ t → (Owner v' u ↔ Owner v u) := by
  cases h with
  | stays | queues | leaves | blocks | resumes => exact hp.elim
  | locks t h =>
    refine ⟨t, ?_, View.move_self .., fun u hut => Owner.move_iff hut rfl fun _ _ _ => rfl⟩
    rintro (h' | ⟨call, sem, h', -, -⟩) <;> cases h.symm.trans h'
  | relocks t sem h hpos =>
    refine ⟨t, ?_, View.move_self .., fun u hut =>
      Owner.move_iff hut rfl fun _ _ hu => View.take_value hr h hut hu⟩
    rintro (h' | ⟨call, sem', h', hcall, -⟩)
    · cases h.symm.trans h'
    · cases h.symm.trans h'
      exact hcall rfl

/-- When the only owner gives the monitor up, nobody owns it. -/
theorem AtMostOneOwner.givesUp {v w : View T} {t : T} {status : Status}
    (h : AtMostOneOwner v) (ht : v.thread t = .inside) (hthread : w.thread = v.thread)
    (hvalue : ∀ u c sem, v.thread u = .blocked c sem → w.value sem = v.value sem)
    (hself : ¬ Owner (w.move t status) t) (u : T) : ¬ Owner (w.move t status) u := by
  intro hu
  by_cases hut : u = t
  · exact hself (hut ▸ hu)
  · have hold : Owner v u :=
      (Owner.move_iff hut (congrFun hthread u) fun c sem hb => hvalue u c sem hb).mp hu
    exact hut (h u t hold (Or.inl ht))

/-- An effect that does not take the mutex never makes a second owner. -/
theorem Effect.atMostOneOwner {v v' : View T} {p : Prop} (h : Effect v p v') (hp : ¬ p)
    (hr : Recorded v) (hone : AtMostOneOwner v) : AtMostOneOwner v' := by
  cases h with
  | locks | relocks => exact absurd trivial hp
  | stays => exact hone
  | queues t h =>
    -- The semaphore a thread blocks on is new, so nobody else sees a difference.
    have hold : ∀ u, Owner (v.newSem.move t (.blocked .enter v.nextSem)) u → Owner v u := by
      intro u hu
      by_cases hut : u = t
      · rw [hut] at hu
        rcases hu with hu | ⟨call, sem, hu, hcall, -⟩
        · cases (View.move_self ..).symm.trans hu
        · cases (View.move_self ..).symm.trans hu
          exact absurd rfl hcall
      · exact (Owner.move_iff (v := v) (w := v.newSem) hut rfl
          fun _ _ hb => View.newSem_value hr hb).mp hu
    exact fun u u' hu hu' => hone u u' (hold u hu) (hold u' hu')
  | leaves t sem h =>
    -- The only owner is gone when `planifica` posts the next thread's semaphore.
    have hnone : ∀ u, ¬ Owner ((v.enterAs t false).move t .outside) u := by
      refine hone.givesUp h rfl (fun _ _ _ _ => rfl) ?_
      rintro (hu | ⟨call, s, hu, -, -⟩) <;> cases (View.move_self ..).symm.trans hu
    have hr' : Recorded ((v.enterAs t false).move t .outside) :=
      hr.move rfl (Nat.le_refl _) (fun u hu => Function.update_of_ne hu ..) nofun nofun
    exact hr'.post_atMostOneOwner hnone
  | blocks t call sem h hcall =>
    -- The caller's own semaphore is new and has the value 0, so it owns nothing either.
    have hnone : ∀ u, ¬ Owner (v.newSem.move t (.blocked call v.nextSem)) u := by
      refine hone.givesUp h rfl (fun _ _ _ hb => View.newSem_value hr hb) ?_
      rintro (hu | ⟨call, s, hu, -, hpos⟩) <;> cases (View.move_self ..).symm.trans hu
      exact absurd (Function.update_self ..) (Nat.ne_of_gt hpos)
    have hr' : Recorded (v.newSem.move t (.blocked call v.nextSem)) :=
      (Effect.blocks t call none h hcall).recorded hr
    exact hr'.post_atMostOneOwner hnone
  | resumes t call sem h hcall hpos =>
    -- The thread owned the monitor already, by the value of its semaphore.
    have hold : ∀ u, Owner ((v.take sem).move t .inside) u → Owner v u := by
      intro u hu
      by_cases hut : u = t
      · exact Or.inr ⟨call, sem, hut ▸ h, hcall, hpos⟩
      · exact (Owner.move_iff (v := v) (w := v.take sem) hut rfl
          fun _ _ hb => View.take_value hr h hut hb).mp hu
    exact fun u u' hu hu' => hone u u' (hold u hu) (hold u' hu')

/-- **One step.**  A step leaves at most one owner exactly when it does not take the mutex
    from under one. -/
theorem step_atMostOneOwner_iff {s s' : State T} {a : Action T} (hr : Recorded s.view)
    (hone : AtMostOneOwner s.view) (h : step s a = some s') :
    AtMostOneOwner s'.view ↔ EntersFree s a := by
  have heff := step_effect hr h
  by_cases htakes : TakesMutex s a
  -- The thread that takes the mutex is a new owner: it must be the only one.
  · obtain ⟨t, hnot, hin, hother⟩ := heff.takes_owner htakes hr
    constructor
    · intro hone' _ u hu
      have hut : u ≠ t := fun e => hnot (e ▸ hu)
      exact hut (hone' u t ((hother u hut).mpr hu) (Or.inl hin))
    · intro hfree
      have honly : ∀ u, Owner s'.view u → u = t := fun u hu =>
        by_contra fun hut => hfree htakes u ((hother u hut).mp hu)
      exact fun u u' hu hu' => (honly u hu).trans (honly u' hu').symm
  · exact iff_of_true (heff.atMostOneOwner htakes hr hone) fun h => absurd h htakes

/-! ### Runs -/

/-- The records are kept. -/
theorem step_recorded {s s' : State T} {a : Action T} (hr : Recorded s.view)
    (h : step s a = some s') : Recorded s'.view := (step_effect hr h).recorded hr

/-- An action that is not possible does not take the mutex. -/
theorem not_takesMutex_of_stuck {s : State T} {a : Action T} (h : step s a = none) :
    ¬ TakesMutex s a := by
  intro htakes
  cases a with
  | leave | wait | signal | broadcast => exact htakes
  | enter t =>
    rw [step, if_pos (Or.inr htakes.1)] at h
    cases h
  | resume t =>
    obtain ⟨sem, hb, hpos, hm⟩ := htakes
    rw [step, resume, hb] at h
    simp only [Nat.ne_of_gt hpos, hm, if_false, Bool.false_eq_true] at h
    cases h

/-- **Ownership.**  Along a run the monitor has at most one owner at a time, exactly when
    `Enter` takes the mutex only while nobody owns the monitor. -/
theorem always_atMostOneOwner_iff (conditions : Nat) (policy : Policy) (as : List (Action T)) :
    Always step (fun s => AtMostOneOwner s.view) (create conditions policy) as ↔
      EachStep step EntersFree (create conditions policy) as :=
  always_iff_eachStep (J := fun s => Recorded s.view)
    (fun _ _ _ hr _ h _ => step_recorded hr h)
    (fun _ _ _ hr hone h => step_atMostOneOwner_iff hr hone h)
    (fun _ _ _ _ h htakes => absurd htakes (not_takesMutex_of_stuck h))
    (create_recorded conditions policy)
    fun t _ ht => absurd ht (create_not_owner conditions policy t)

/-- **Mutual exclusion, when the mutex is taken only while the monitor is free.**  For either
    policy, any number of threads and any interleaving: if `Enter` never takes the mutex
    while a thread is inside or on its way inside, at most one thread is inside in every
    state of the run. -/
theorem always_atMostOneInside (conditions : Nat) (policy : Policy) (as : List (Action T))
    (h : EachStep step EntersFree (create conditions policy) as) :
    Always step AtMostOneInside (create conditions policy) as :=
  ((always_atMostOneOwner_iff conditions policy as).mpr h).mono fun _ => AtMostOneOwner.inside

/-- A wait, a signal and a hand-over in which the mutex is only ever taken from nobody. -/
theorem always_atMostOneInside_handOver :
    Always step AtMostOneInside (create 1 .signalAndWait)
      [.enter false, .wait false 0, .enter true, .signal true 0, .resume false, .leave false] :=
  always_atMostOneInside 1 .signalAndWait _ (by decide)

/-- An owner can go on inside. -/
theorem resume_owner {s : State T} {u : T} (hu : Owner s.view u) :
    s.thread u = .inside ∨
      ∃ s', step s (.resume u) = some s' ∧ s'.thread = Function.update s.thread u .inside := by
  rcases hu with hu | ⟨call, sem, hb, hcall, hpos⟩
  · exact Or.inl hu
  · refine Or.inr ⟨{ s with
      value := Function.update s.value sem (s.value sem - 1)
      thread := Function.update s.thread u .inside }, ?_, rfl⟩
    rw [step, resume, show s.thread u = .blocked call sem from hb]
    cases call with
    | enter => exact absurd rfl hcall
    | wait | signal | broadcast => exact if_neg (Nat.ne_of_gt hpos)

/-- **The condition is needed.**  Where `Enter` takes the mutex from under an owner, two
    threads get inside, at the latest when the owner goes on. -/
theorem takesMutex_two_inside {conditions : Nat} {policy : Policy} {s s' : State T}
    {a : Action T} {u : T} (hs : Reachable step (create conditions policy : State T) s)
    (h : step s a = some s') (htakes : TakesMutex s a) (hu : Owner s.view u) :
    ∃ s'' : State T, Reachable step (create conditions policy) s'' ∧ ¬ AtMostOneInside s'' := by
  have hr : Recorded s.view :=
    hs.invariant (I := fun s => Recorded s.view) (create_recorded conditions policy)
      fun _ _ _ hr h => step_recorded hr h
  obtain ⟨t, hnot, hin, hother⟩ := (step_effect hr h).takes_owner htakes hr
  have hut : u ≠ t := fun e => hnot (e ▸ hu)
  -- The old owner is inside already, or one step away from it.
  rcases resume_owner ((hother u hut).mpr hu) with hui | ⟨s'', h'', hthread⟩
  · exact ⟨s', hs.snoc h, fun hone => hut (hone u t hui hin)⟩
  · refine ⟨s'', (hs.snoc h).snoc h'', fun hone => hut (hone u t ?_ ?_)⟩
    · rw [hthread, Function.update_self]
    · rw [hthread, Function.update_of_ne (Ne.symm hut)]
      exact hin

/-- **Two threads inside.**  Thread 0 waits, thread 1 signals and leaves, thread 0 is resumed
    with the mutex unlocked, and thread 2 enters. -/
theorem not_atMostOneInside : ¬ ∀ (conditions : Nat) (policy : Policy) (as : List (Action ℕ))
    (s : State ℕ), run step (create conditions policy) as = some s → AtMostOneInside s := by
  intro h
  exact absurd (h 1 .signalAndContinue
    [.enter 0, .wait 0 0, .enter 1, .signal 1 0, .leave 1, .resume 0, .enter 2] _ rfl 0 2 rfl rfl)
    (by decide)

end WorkAtUPB.ThreadsMonitor
