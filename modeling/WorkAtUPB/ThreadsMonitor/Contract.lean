import Mathlib.Data.List.Forall2
import WorkAtUPB.ThreadsMonitor.Calls
import WorkAtUPB.ThreadsMonitor.Discipline

namespace WorkAtUPB.ReadersWriters

open WorkAtUPB.Run WorkAtUPB.Census Sections

/-!
# ThreadsMonitorLinux — the monitor keeps its contract for `LibRW.cpp`

A thread that comes back from `Wait` is in the monitor without its mutex.  While `Enter` takes the
mutex only from nobody, it is nevertheless alone, and the calls are made as over the contract:

* `Represents` — the program over the monitor, and the sections of the calls over the contract: the
  same counters, and the threads in the queues in the order of their semaphores;
* `Program.moves`, `step_represents` — each move of the program is an access of the section that a
  thread is in, or begins one, or none;
* `run_represents` — so the sections of a run are a run of the contract.
-/

/-! ### What the program stands for -/

variable {T : Type*}

/-- Where a thread is in the contract: one in a section has been idle since it began. -/
def Pc.Stands : Pc → Status → Prop
  | .outside place, status => status = place.status
  | .entering call, status => status = call.before.status
  | .inside _, status => status = .idle
  | .waiting cond, status => status = .waiting cond.number ∨ status = .signaled cond.number

/-- Where a thread is in the monitor, and whether it is in `entered_threads`. -/
def Pc.Located : Pc → ThreadsMonitor.Status → Bool → Prop
  | .outside _, status, entered => status = .outside ∧ entered = false
  | .entering _, status, _ => ∃ sem, status = .blocked .enter sem
  | .inside _, status, _ => status = .inside
  | .waiting _, status, _ => ∃ sem, status = .blocked .wait sem

/-- The section that a thread is in. -/
def Pc.section (t : T) : Pc → Option (T × Code)
  | .inside code => some (t, code)
  | _ => none

/-- The threads wait in the order of their semaphores. -/
def Queues (m : ThreadsMonitor.State T) (s : State T) : Prop :=
  ∀ cond : Cond, List.Forall₂ (fun sem u => m.thread u = .blocked .wait sem)
    (m.monitor.conditionsQueue cond.number) (s.conditionsQueue cond.number)

/-- The program over the monitor, and the sections over the contract. -/
structure Represents (p : Program T) (q : System (State T) T Access Access.Answer Exit) :
    Prop where
  kept : ThreadsMonitor.Kept p.monitor
  conditions : p.monitor.monitor.conditions = 2
  policy : p.monitor.monitor.policy = .signalAndContinue
  located : ∀ t, (p.pc t).Located (p.monitor.thread t) (p.monitor.monitor.enteredThreads t)
  counter : ∀ x, q.data.counter x = p.counter x
  queues : Queues p.monitor q.data
  queued : Queued q.data
  stands : ∀ t, (p.pc t).Stands (q.data.thread t)
  inside : ∀ t code, p.pc t = .inside code ↔ q.inside = some (t, code)

/-- The program represents the contract at first. -/
theorem create_represents : Represents (Program.create : Program T) ⟨createRWMonitor, none⟩ where
  kept := ThreadsMonitor.create_kept 2 .signalAndContinue
  conditions := rfl
  policy := rfl
  located := fun _ => ⟨rfl, rfl⟩
  counter := fun x => by cases x <;> rfl
  queues := fun _ => .nil
  queued := createRWMonitor_queued
  stands := fun _ => rfl
  inside := fun _ _ => iff_of_false nofun nofun

variable {p p' : Program T} {q q' : System (State T) T Access Access.Answer Exit} {t u : T}
  {code code' : Code}

/-- Nobody else is in a section. -/
theorem Represents.only (h : Represents p q) (ht : p.pc t = .inside code)
    (hu : p.pc u = .inside code') : u = t := by
  have hsame := ((h.inside u code').mp hu).symm.trans ((h.inside t code).mp ht)
  cases hsame
  rfl

/-- Where no thread is in a section, neither is one in the contract. -/
theorem Represents.inside_eq_none (h : Represents p q) (hno : ∀ u code, p.pc u ≠ .inside code) :
    q.inside = none := by
  cases hinside : q.inside with
  | none => rfl
  | some r => exact absurd ((h.inside r.1 r.2).mpr hinside) (hno r.1 r.2)

/-- A thread in a section owns the monitor. -/
theorem Represents.owner (h : Represents p q) (ht : p.pc t = .inside code) :
    ThreadsMonitor.Owner p.monitor.view t := by
  have hlocated := h.located t
  rw [ht] at hlocated
  exact Or.inl hlocated

/-- A thread that is woken stands for the same. -/
theorem Pc.Stands.wake {pc : Pc} {status status' : Status} {cond : Nat} (h : pc.Stands status)
    (hwake : status' = status ∨ status = .waiting cond ∧ status' = .signaled cond) :
    pc.Stands status' := by
  rcases hwake with rfl | ⟨rfl, rfl⟩
  · exact h
  cases pc with
  | outside place => cases place <;> cases h
  | entering call => cases call <;> cases h
  | inside code => cases h
  | waiting c =>
    rcases h with h | h
    · cases h
      exact Or.inr rfl
    · cases h

/-- The section of a thread. -/
theorem Pc.eq_inside_iff (pc : Pc) (t : T) (code : Code) :
    pc = .inside code ↔ pc.section t = some (t, code) := by
  cases pc with
  | inside code' => simp [Pc.section]
  | outside | entering | waiting => simp [Pc.section]

/-- Where nobody else is in a section, the one of `t` is the only one. -/
theorem Represents.section_iff (honly : ∀ u code, p.pc u = .inside code → u = t) (pc : Pc) (u : T)
    (hut : u ≠ t) (code : Code) : p.pc u = .inside code ↔ pc.section t = some (u, code) := by
  refine iff_of_false (fun hu => hut (honly u code hu)) fun hu => hut ?_
  cases pc with
  | inside code' =>
    cases hu
    rfl
  | outside | entering | waiting => cases hu

/-! ### Queues -/

variable {m m' : ThreadsMonitor.State T} {s : State T}

/-- Two families of queues change at the same condition. -/
theorem forall₂_update {R : ThreadsMonitor.Sem → T → Prop} {f : Nat → List ThreadsMonitor.Sem}
    {g : Nat → List T} (h : ∀ c : Cond, List.Forall₂ R (f c.number) (g c.number)) {cond : Cond}
    {sems : List ThreadsMonitor.Sem} {threads : List T} (hnew : List.Forall₂ R sems threads)
    (c : Cond) :
    List.Forall₂ R (Function.update f cond.number sems c.number)
      (Function.update g cond.number threads c.number) := by
  by_cases hc : c.number = cond.number
  · rw [hc, Function.update_self, Function.update_self]
    exact hnew
  · rw [Function.update_of_ne hc, Function.update_of_ne hc]
    exact h c

/-- The queues after a call of a thread that is in none of them. -/
theorem Queues.keeps (h : Queues m s) (hkeeps : ThreadsMonitor.Keeps m m' t)
    (hnot : ∀ cond : Cond, ∀ sem ∈ m.monitor.conditionsQueue cond.number,
      m.thread t ≠ .blocked .wait sem) (cond : Cond) :
    List.Forall₂ (fun sem u => m'.thread u = .blocked .wait sem)
      (m.monitor.conditionsQueue cond.number) (s.conditionsQueue cond.number) := by
  refine ((List.forall₂_and_left _ _).mpr ⟨hnot cond, h cond⟩).imp ?_
  rintro sem u ⟨hne, hu⟩
  have hut : u ≠ t := by
    rintro rfl
    exact hne hu
  rw [hkeeps.thread u hut]
  exact hu

/-- A semaphore in the queue is that of a waiting thread. -/
theorem Queues.mem_of_sem (h : Queues m s) {cond : Cond} {sem : ThreadsMonitor.Sem}
    (hsem : sem ∈ m.monitor.conditionsQueue cond.number) :
    ∃ u ∈ s.conditionsQueue cond.number, m.thread u = .blocked .wait sem := by
  obtain ⟨k, hk, rfl⟩ := List.getElem_of_mem hsem
  have hlength := (h cond).length_eq
  exact ⟨(s.conditionsQueue cond.number)[k], List.getElem_mem _, (h cond).get hk (by omega)⟩

/-- A waiting thread has its semaphore in the queue. -/
theorem Queues.mem (h : Queues m s) {cond : Cond} (ht : t ∈ s.conditionsQueue cond.number) :
    ∃ sem ∈ m.monitor.conditionsQueue cond.number, m.thread t = .blocked .wait sem := by
  obtain ⟨k, hk, rfl⟩ := List.getElem_of_mem ht
  have hlength := (h cond).length_eq
  exact ⟨(m.monitor.conditionsQueue cond.number)[k], List.getElem_mem _,
    (h cond).get (by omega) hk⟩

/-- A thread that is not blocked in `Wait` is in no queue of a condition. -/
theorem notMem_of_ne_wait (h : ∀ sem, m.thread t ≠ .blocked .wait sem) (cond : Cond) :
    ∀ sem ∈ m.monitor.conditionsQueue cond.number, m.thread t ≠ .blocked .wait sem :=
  fun sem _ => h sem

/-- A thread that moves leaves the counters. -/
theorem State.counter_move [DecidableEq T] (s : State T) (t : T) (status : Status) (x : Counter) :
    (s.move t status).counter x = s.counter x := by
  cases x <;> rfl

/-- One counter changes. -/
theorem State.counter_setCounter (s : State T) (n : ℤ) (x y : Counter) :
    (s.setCounter n x).counter y = Function.update s.counter x n y := by
  cases x <;> cases y <;> rfl

variable [DecidableEq T]

/-- `Signal` takes the first thread off the queue. -/
theorem State.signal_conditionsQueue (s : State T) (cond : Nat) :
    (s.signal cond).conditionsQueue =
      Function.update s.conditionsQueue cond (s.conditionsQueue cond).tail := by
  unfold State.signal
  split
  next hqueue => rw [hqueue, List.tail_nil, ← hqueue, Function.update_eq_self]
  next t rest hqueue => rw [hqueue, List.tail_cons]

/-- `Signal` moves nobody but a thread that waits for the condition. -/
theorem Queued.signal_thread (h : Queued s) (cond : Nat) (u : T) :
    (s.signal cond).thread u = s.thread u ∨
      s.thread u = .waiting cond ∧ (s.signal cond).thread u = .signaled cond := by
  unfold State.signal
  split
  next => exact Or.inl rfl
  next t rest hqueue =>
    by_cases hut : u = t
    · subst hut
      exact Or.inr ⟨(h.mem_iff cond u).mp (hqueue ▸ List.mem_cons_self), Function.update_self ..⟩
    · exact Or.inl (Function.update_of_ne hut ..)

/-- `Broadcast` moves nobody but threads that wait for the condition. -/
theorem Queued.broadcast_thread_cases (h : Queued s) (cond : Nat) (u : T) :
    (s.broadcast cond).thread u = s.thread u ∨
      s.thread u = .waiting cond ∧ (s.broadcast cond).thread u = .signaled cond := by
  rw [h.broadcast_thread]
  by_cases hu : s.thread u = .waiting cond
  · exact Or.inr ⟨hu, if_pos hu⟩
  · exact Or.inl (if_neg hu)

/-- `Signal` leaves the counters. -/
@[simp] theorem State.counter_signal (s : State T) (cond : Nat) (x : Counter) :
    (s.signal cond).counter x = s.counter x := by
  unfold State.signal
  split
  · rfl
  · cases x <;> rfl

/-! ### One thread goes on -/

/-- A thread goes to `pc`. -/
theorem Represents.update (h : Represents p q) (counter : Counter → ℤ) (pc : Pc)
    {i : Option (T × Code)}
    (hkept : ThreadsMonitor.Kept m) (hkeeps : ThreadsMonitor.Keeps p.monitor m t)
    (hlocated : pc.Located (m.thread t) (m.monitor.enteredThreads t))
    (hcounter : ∀ x, s.counter x = counter x) (hqueues : Queues m s) (hqueued : Queued s)
    (hothers : ∀ u, u ≠ t → (p.pc u).Stands (s.thread u)) (hstands : pc.Stands (s.thread t))
    (hinside : ∀ u, u ≠ t → ∀ code, p.pc u = .inside code ↔ i = some (u, code))
    (hself : ∀ code, pc = .inside code ↔ i = some (t, code)) :
    Represents ⟨m, counter, Function.update p.pc t pc⟩ ⟨s, i⟩ where
  kept := hkept
  conditions := hkeeps.conditions.trans h.conditions
  policy := hkeeps.policy.trans h.policy
  located := by
    refine (Function.forall_update_iff p.pc fun u pc =>
      pc.Located (m.thread u) (m.monitor.enteredThreads u)).mpr ⟨hlocated, fun u hu => ?_⟩
    rw [hkeeps.thread u hu, hkeeps.entered u hu]
    exact h.located u
  counter := hcounter
  queues := hqueues
  queued := hqueued
  stands := (Function.forall_update_iff p.pc fun u pc => pc.Stands (s.thread u)).mpr
    ⟨hstands, hothers⟩
  inside := (Function.forall_update_iff p.pc fun u pc =>
    ∀ code, pc = .inside code ↔ i = some (u, code)).mpr ⟨hself, hinside⟩

/-- A thread that no longer waits begins a section, while nobody is in one. -/
theorem Represents.begins (h : Represents p q) {b : Action T} (hkept : ThreadsMonitor.Kept m)
    (hkeeps : ThreadsMonitor.Keeps p.monitor m t)
    (hqueue : m.monitor.conditionsQueue = p.monitor.monitor.conditionsQueue)
    (hin : m.thread t = .inside)
    (hnot : ∀ cond : Cond, ∀ sem ∈ p.monitor.monitor.conditionsQueue cond.number,
      p.monitor.thread t ≠ .blocked .wait sem)
    (hwait : ∀ cond, q.data.thread t ≠ .waiting cond) (hno : ∀ u code, p.pc u ≠ .inside code)
    (hstart : start q.data b = some (q.data.move t .idle, t, code)) :
    ∃ q', run (System.step meaning start) q [.begins b] = some q' ∧
      Represents ⟨m, p.counter, Function.update p.pc t (.inside code)⟩ q' := by
  refine ⟨⟨q.data.move t .idle, some (t, code)⟩, ?_, ?_⟩
  · rw [run_cons, System.step, h.inside_eq_none hno, hstart]
    rfl
  · refine h.update p.counter (.inside code) hkept hkeeps hin
      (fun x => (State.counter_move ..).trans (h.counter x)) ?_
      (h.queued.move hwait fun cond hc => by cases hc) (fun u hu => ?_) (Function.update_self ..)
      (Represents.section_iff (fun u code hu => absurd hu (hno u code)) (.inside code))
      (Pc.eq_inside_iff (.inside code) t)
    · intro cond
      rw [hqueue]
      exact h.queues.keeps hkeeps hnot cond
    · rw [show (q.data.move t .idle).thread u = q.data.thread u from Function.update_of_ne hu ..]
      exact h.stands u

/-- The thread in a section goes on with it, or leaves it. -/
theorem Represents.goes (h : Represents p q) (counter : Counter → ℤ) (pc : Pc)
    (ht : p.pc t = .inside code)
    (hstep : System.step meaning start ⟨q.data, some (t, code)⟩ .goes = some ⟨s, pc.section t⟩)
    (hkept : ThreadsMonitor.Kept m) (hkeeps : ThreadsMonitor.Keeps p.monitor m t)
    (hlocated : pc.Located (m.thread t) (m.monitor.enteredThreads t))
    (hcounter : ∀ x, s.counter x = counter x) (hqueues : Queues m s) (hqueued : Queued s)
    (hothers : ∀ u, u ≠ t → (p.pc u).Stands (s.thread u)) (hstands : pc.Stands (s.thread t)) :
    ∃ q', run (System.step meaning start) q [.goes] = some q' ∧
      Represents ⟨m, counter, Function.update p.pc t pc⟩ q' := by
  have hinside : q.inside = some (t, code) := (h.inside t code).mp ht
  refine ⟨⟨s, pc.section t⟩, run_cons_eq_some.mpr ⟨_, ?_, rfl⟩, h.update counter pc hkept hkeeps
    hlocated hcounter hqueues hqueued hothers hstands
    (Represents.section_iff (fun u code hu => h.only ht hu) pc) (Pc.eq_inside_iff pc t)⟩
  obtain ⟨data, inside⟩ := q
  cases hinside
  exact hstep

/-! ### One move -/

/-- The section of a call. -/
def Call.action (t : T) : Call → Action T
  | .startCit => .startCit t
  | .stopCit => .stopCit t
  | .startScrit => .startScrit t
  | .stopScrit => .stopScrit t

namespace Program

variable (p : Program T)

/-- If a move takes the mutex, nobody owns the monitor. -/
def EntersFree (move : Move T) : Prop :=
  ∀ action ∈ p.action move, ThreadsMonitor.EntersFree p.monitor action

instance [Fintype T] (move : Move T) : Decidable (p.EntersFree move) :=
  inferInstanceAs (Decidable (∀ action ∈ p.action move, ThreadsMonitor.EntersFree p.monitor action))

/-- What a move does to the sections: one begins when `Enter` or `Wait` lets the thread go on. -/
def moves : Move T → List (Sections.Move (Action T))
  | .calls t call =>
    match (ThreadsMonitor.enter p.monitor t).thread t with
    | .inside => [.begins (call.action t)]
    | .blocked .. | .outside => []
  | .goes t =>
    match p.pc t with
    | .outside _ => []
    | .entering call => [.begins (call.action t)]
    | .waiting _ => [.begins (.resume t)]
    | .inside _ => [.goes]

end Program

/-- A call begins with its code. -/
theorem start_action {call : Call} (h : s.thread t = call.before.status) :
    start s (call.action t) = some (s.move t .idle, t, call.code) := by
  have hmove : s.thread t = .idle → s.move t .idle = s := fun hidle => by
    rw [State.move, ← hidle, Function.update_eq_self]
  cases call with
  | startCit => exact (if_pos h).trans (by rw [hmove h]; rfl)
  | startScrit => exact (if_pos h).trans (by rw [hmove h]; rfl)
  | stopCit => exact if_pos h
  | stopScrit => exact if_pos h

/-- No call begins in a `Wait`. -/
theorem Call.before_ne_waiting (call : Call) (cond : Nat) : call.before.status ≠ .waiting cond := by
  cases call <;> exact Status.noConfusion

/-- A call of the monitor is one of its steps. -/
theorem Program.callMonitor_eq_some {a : ThreadsMonitor.Action T}
    {pc : ThreadsMonitor.Status → Pc} (h : p.callMonitor a t pc = some p') :
    ∃ m, ThreadsMonitor.step p.monitor a = some m ∧
      p' = ⟨m, p.counter, Function.update p.pc t (pc (m.thread t))⟩ := by
  obtain ⟨m, hm, rfl⟩ := Option.map_eq_some_iff.mp h
  exact ⟨m, hm, rfl⟩

/-- A call that begins: `Enter` blocks, or the section begins. -/
theorem calls_represents {call : Call} (h : Represents p q) (hfree : p.EntersFree (.calls t call))
    (hs : p.step (.calls t call) = some p') :
    ∃ q', run (System.step meaning start) q (p.moves (.calls t call)) = some q' ∧
      Represents p' q' := by
  have hlocated := h.located t
  have hstands := h.stands t
  rw [Program.step] at hs
  cases hpc : p.pc t with
  | entering | inside | waiting =>
    rw [hpc] at hs
    cases hs
  | outside place =>
    rw [hpc] at hs hlocated hstands
    obtain ⟨hplace, hcall⟩ := Option.ite_none_right_eq_some.mp hs
    subst hplace
    obtain ⟨m, hm, rfl⟩ := Program.callMonitor_eq_some hcall
    have haction : p.action (.calls t call) = some (.enter t) := by
      rw [Program.action, hpc]
      exact if_pos rfl
    have hfree' := hfree (.enter t) haction
    have hkept := ThreadsMonitor.step_kept h.kept hfree' hm
    obtain ⟨hkeeps, hqueue, heffect⟩ := ThreadsMonitor.enter_effects hm hlocated.1 hlocated.2
    have hnot := notMem_of_ne_wait (m := p.monitor) (t := t) fun sem hb => by
      rw [hlocated.1] at hb
      cases hb
    have henter : ThreadsMonitor.enter p.monitor t = m :=
      Option.some.inj (Option.ite_none_right_eq_some.mp hm).2
    rw [Program.moves, henter]
    rcases heffect with ⟨htakes, hin⟩ | ⟨sem, hb⟩
    · -- Nobody owns the monitor, so nobody is in a section.
      rw [hin]
      exact h.begins hkept hkeeps hqueue hin hnot
        (fun cond hwaiting => call.before_ne_waiting cond (hstands.symm.trans hwaiting))
        (fun u code hu => hfree' htakes u (h.owner hu)) (start_action hstands)
    · -- The thread waits in `Enter`; whoever is in a section stays there.
      rw [hb]
      refine ⟨q, rfl, h.update p.counter (.entering call) hkept hkeeps ⟨sem, hb⟩ h.counter ?_
        h.queued (fun u _ => h.stands u) hstands (fun u _ => h.inside u) fun code => ?_⟩
      · intro cond
        rw [hqueue]
        exact h.queues.keeps hkeeps hnot cond
      · rw [← h.inside t code, hpc]
        exact iff_of_false (fun hc => by cases hc) fun hc => by cases hc

/-- A thread comes back from its turn in the entry queue: its section begins. -/
theorem enters_represents {call : Call} (h : Represents p q) (hpc : p.pc t = .entering call)
    (hfree : p.EntersFree (.goes t)) (hs : p.step (.goes t) = some p') :
    ∃ q', run (System.step meaning start) q [.begins (call.action t)] = some q' ∧
      Represents p' q' := by
  have hlocated := h.located t
  have hstands := h.stands t
  have haction : p.action (.goes t) = some (.resume t) := by rw [Program.action, hpc]
  have hfree' := hfree (.resume t) haction
  rw [Program.step, hpc] at hs
  rw [hpc] at hlocated hstands
  obtain ⟨m, hm, rfl⟩ := Program.callMonitor_eq_some hs
  obtain ⟨sem, hb⟩ := hlocated
  obtain ⟨hkeeps, hqueue, hin, call', sem', hb', -, htakes⟩ := ThreadsMonitor.resume_effects hm
  cases hb.symm.trans hb'
  refine h.begins (ThreadsMonitor.step_kept h.kept hfree' hm) hkeeps hqueue hin
    (notMem_of_ne_wait fun sem hwait => ?_)
    (fun cond hwaiting => call.before_ne_waiting cond (hstands.symm.trans hwaiting))
    (fun u code hu => hfree' (htakes rfl) u (h.owner hu)) (start_action hstands)
  cases hb.symm.trans hwait

/-- There are two conditions. -/
theorem Cond.number_lt (cond : Cond) : cond.number < 2 := by
  cases cond <;> decide

/-- A thread comes back from `Wait`: it has been signaled, and tests its `while` again. -/
theorem comesBack_represents {cond : Cond} (h : Represents p q) (hpc : p.pc t = .waiting cond)
    (hfree : p.EntersFree (.goes t)) (hs : p.step (.goes t) = some p') :
    ∃ q', run (System.step meaning start) q [.begins (.resume t)] = some q' ∧
      Represents p' q' := by
  have hlocated := h.located t
  have hstands := h.stands t
  have haction : p.action (.goes t) = some (.resume t) := by rw [Program.action, hpc]
  have hfree' := hfree (.resume t) haction
  rw [Program.step, hpc] at hs
  rw [hpc] at hlocated hstands
  obtain ⟨m, hm, rfl⟩ := Program.callMonitor_eq_some hs
  obtain ⟨sem, hb⟩ := hlocated
  obtain ⟨hkeeps, hqueue, hin, call', sem', hb', hpos, -⟩ := ThreadsMonitor.resume_effects hm
  cases hb.symm.trans hb'
  -- The thread has been posted: it is in no queue, and owns the monitor.
  have hnot : ∀ c : Cond, ∀ sem' ∈ p.monitor.monitor.conditionsQueue c.number,
      p.monitor.thread t ≠ .blocked .wait sem' := by
    intro c sem' hmem hb''
    cases hb.symm.trans hb''
    have hzero := h.kept.value_eq_zero hb (h.conditions ▸ c.number_lt) hmem
    omega
  have howner : ThreadsMonitor.Owner p.monitor.view t :=
    Or.inr ⟨.wait, sem, hb, nofun, hpos⟩
  have hsignaled : q.data.thread t = .signaled cond.number := by
    refine hstands.resolve_left fun hwaiting => ?_
    obtain ⟨sem', hmem, hb''⟩ := h.queues.mem ((h.queued.mem_iff cond.number t).mpr hwaiting)
    exact hnot cond sem' hmem hb''
  refine h.begins (ThreadsMonitor.step_kept h.kept hfree' hm) hkeeps hqueue hin hnot
    (fun c hwaiting => ?_) (fun u code hu => ?_) ?_
  · cases hsignaled.symm.trans hwaiting
  · cases h.kept.owner u t (h.owner hu) howner
    cases hpc.symm.trans hu
  · cases cond with
    | readers =>
      rw [start, show q.data.thread t = .signaled 0 from hsignaled]
      rfl
    | writers =>
      rw [start, show q.data.thread t = .signaled 1 from hsignaled]
      rfl

/-- A thread in a section reads or writes a counter, or signals. -/
theorem accesses_represents {a : Access} {rest : a.Answer → Code} (h : Represents p q)
    (hpc : p.pc t = .inside (.access a rest)) (hfree : p.EntersFree (.goes t))
    (hs : p.step (.goes t) = some p') :
    ∃ q', run (System.step meaning start) q [.goes] = some q' ∧ Represents p' q' := by
  have hin : p.monitor.thread t = .inside := by
    have hlocated := h.located t
    rwa [hpc] at hlocated
  have hidle : q.data.thread t = .idle := by
    have hstands := h.stands t
    rwa [hpc] at hstands
  have hnot := notMem_of_ne_wait (m := p.monitor) (t := t) fun sem hb => by
    rw [hin] at hb
    cases hb
  have hself : ThreadsMonitor.Keeps p.monitor p.monitor t :=
    ⟨rfl, rfl, fun _ _ => rfl, fun _ _ => rfl⟩
  rw [Program.step, hpc] at hs
  -- A load and a store leave the monitor alone; a signal and a broadcast wake threads of a queue.
  cases a with
  | load x =>
    cases hs
    refine h.goes p.counter (.inside (rest (p.counter x))) hpc ?_ h.kept hself hin h.counter
      h.queues h.queued (fun u _ => h.stands u) hidle
    rw [← h.counter x]
    rfl
  | store x n =>
    cases hs
    refine h.goes (Function.update p.counter x n) (.inside (rest ())) hpc
      (s := q.data.setCounter n x) rfl h.kept hself hin (fun y => ?_) ?_ ?_ (fun u _ => ?_) ?_
    · rw [State.counter_setCounter, funext h.counter]
    · cases x <;> exact h.queues
    · cases x <;> exact ⟨h.queued.mem_iff, h.queued.nodup⟩
    · cases x <;> exact h.stands u
    · cases x <;> exact hidle
  | signal cond =>
    obtain ⟨m, hm, rfl⟩ := Program.callMonitor_eq_some hs
    have hfree' := hfree (.signal t cond.number) (by rw [Program.action, hpc]; rfl)
    obtain ⟨hkeeps, hthread, hentered, hqueue⟩ := ThreadsMonitor.signal_effects hm h.policy
      (h.conditions ▸ cond.number_lt)
    refine h.goes p.counter (.inside (rest ())) hpc (s := q.data.signal cond.number) rfl
      (ThreadsMonitor.step_kept h.kept hfree' hm) hkeeps ((congrFun hthread t).trans hin)
      (fun y => (State.counter_signal ..).trans (h.counter y)) ?_ h.queued.signal
      (fun u _ => (h.stands u).wake (h.queued.signal_thread cond.number u)) ?_
    -- The queue loses its first thread on both sides.
    · have hqueues := h.queues.keeps hkeeps hnot
      intro c
      rw [hqueue, State.signal_conditionsQueue]
      refine forall₂_update hqueues ?_ c
      rw [← List.drop_one, ← List.drop_one]
      exact List.forall₂_drop 1 (hqueues cond)
    · rcases h.queued.signal_thread cond.number t with hsame | ⟨hwaiting, -⟩
      · exact hsame.trans hidle
      · cases hidle.symm.trans hwaiting
  | broadcast cond =>
    obtain ⟨m, hm, rfl⟩ := Program.callMonitor_eq_some hs
    have hfree' := hfree (.broadcast t cond.number) (by rw [Program.action, hpc]; rfl)
    obtain ⟨hkeeps, hthread, hentered, hqueue⟩ := ThreadsMonitor.broadcast_effects hm h.policy
      (h.conditions ▸ cond.number_lt)
    refine h.goes p.counter (.inside (rest ())) hpc (s := q.data.broadcast cond.number) rfl
      (ThreadsMonitor.step_kept h.kept hfree' hm) hkeeps ((congrFun hthread t).trans hin)
      (fun y => Eq.trans (by cases y <;> rfl) (h.counter y)) ?_ h.queued.broadcast
      (fun u _ => (h.stands u).wake (h.queued.broadcast_thread_cases _ u)) ?_
    · have hqueues := h.queues.keeps hkeeps hnot
      intro c
      rw [hqueue]
      exact forall₂_update hqueues .nil c
    · rcases h.queued.broadcast_thread_cases cond.number t with hsame | ⟨hwaiting, -⟩
      · exact hsame.trans hidle
      · cases hidle.symm.trans hwaiting

/-- A thread in a section leaves the monitor, or waits. -/
theorem exits_represents {e : Exit} (h : Represents p q) (hpc : p.pc t = .inside (.done e))
    (hfree : p.EntersFree (.goes t)) (hs : p.step (.goes t) = some p') :
    ∃ q', run (System.step meaning start) q [.goes] = some q' ∧ Represents p' q' := by
  have hin : p.monitor.thread t = .inside := by
    have hlocated := h.located t
    rwa [hpc] at hlocated
  have hidle : q.data.thread t = .idle := by
    have hstands := h.stands t
    rwa [hpc] at hstands
  have hnot := notMem_of_ne_wait (m := p.monitor) (t := t) fun sem hb => by
    rw [hin] at hb
    cases hb
  have hwait : ∀ cond, q.data.thread t ≠ .waiting cond := fun cond hwaiting => by
    cases hidle.symm.trans hwaiting
  rw [Program.step, hpc] at hs
  -- A call leaves the monitor at its end, or waits in it.
  cases e with
  | leave call =>
    obtain ⟨m, hm, rfl⟩ := Program.callMonitor_eq_some hs
    have hfree' := hfree (.leave t) (by rw [Program.action, hpc]; rfl)
    have hentered : p.monitor.monitor.enteredThreads t = true :=
      h.kept.recorded.entered (t := t) (by
        rw [show p.monitor.view.thread t = .inside from hin]
        trivial)
    obtain ⟨hkeeps, hqueue, hout, hleft⟩ := ThreadsMonitor.leave_effects hm hentered
    -- The calls that begin an access set the status only when they end.
    have hself : q.data.move t .idle = q.data := by
      rw [State.move, ← hidle, Function.update_eq_self]
    have hdata : meaning.done q.data t (.leave call) = q.data.move t call.after.status := by
      cases call with
      | startCit | startScrit => rfl
      | stopCit | stopScrit => exact hself.symm
    refine h.goes p.counter (.outside call.after) hpc (s := q.data.move t call.after.status)
      (by rw [← hdata]; rfl) (ThreadsMonitor.step_kept h.kept hfree' hm) hkeeps ⟨hout, hleft⟩
      (fun y => (State.counter_move ..).trans (h.counter y)) ?_
      (h.queued.move hwait fun cond hc => by cases call <;> cases hc) (fun u hu => ?_)
      (Function.update_self ..)
    · intro c
      rw [hqueue]
      exact h.queues.keeps hkeeps hnot c
    · rw [show (q.data.move t call.after.status).thread u = q.data.thread u from
        Function.update_of_ne hu ..]
      exact h.stands u
  | wait cond =>
    obtain ⟨m, hm, rfl⟩ := Program.callMonitor_eq_some hs
    have hfree' := hfree (.wait t cond.number) (by rw [Program.action, hpc]; rfl)
    obtain ⟨hkeeps, sem, hb, hqueue⟩ := ThreadsMonitor.wait_effects hm
      (h.conditions ▸ cond.number_lt)
    refine h.goes p.counter (.waiting cond) hpc (s := q.data.wait t cond.number) rfl
      (ThreadsMonitor.step_kept h.kept hfree' hm) hkeeps ⟨sem, hb⟩
      (fun y => Eq.trans (by cases y <;> rfl) (h.counter y)) ?_ (h.queued.wait hwait)
      (fun u hu => ?_) (Or.inl (Function.update_self ..))
    · have hqueues := h.queues.keeps hkeeps hnot
      intro c
      rw [hqueue]
      exact forall₂_update hqueues (List.rel_append (hqueues cond) (.cons hb .nil)) c
    · rw [show (q.data.wait t cond.number).thread u = q.data.thread u from
        Function.update_of_ne hu ..]
      exact h.stands u

/-- **One move.**  While the mutex is taken only from nobody, the sections follow. -/
theorem step_represents {move : Move T} (h : Represents p q) (hfree : p.EntersFree move)
    (hs : p.step move = some p') :
    ∃ q', run (System.step meaning start) q (p.moves move) = some q' ∧ Represents p' q' := by
  cases move with
  | calls t call => exact calls_represents h hfree hs
  | goes t =>
    rw [Program.moves]
    cases hpc : p.pc t with
    | outside place =>
      rw [Program.step, hpc] at hs
      cases hs
    | entering call => exact enters_represents h hpc hfree hs
    | waiting cond => exact comesBack_represents h hpc hfree hs
    | inside code =>
      cases code with
      | access a rest => exact accesses_represents h hpc hfree hs
      | done e => exact exits_represents h hpc hfree hs

/-! ### Runs -/

/-- The sections of a run, in the order in which they begin. -/
def Program.sections (moves : List (Move T)) : List (Action T) :=
  (images Program.step Program.moves Program.create moves).filterMap Sections.Move.begun

/-- **Run.**  The sections of a run, one after the other, are a run of the contract. -/
theorem run_represents {moves : List (Move T)} (hrun : run Program.step .create moves = some p)
    (hfree : EachStep Program.step Program.EntersFree .create moves) :
    ∃ q : System (State T) T Access Access.Answer Exit,
      run step createRWMonitor (Program.sections moves) = some (q.finished meaning) ∧
        Represents p q := by
  obtain ⟨p', q, hp', hq, h⟩ := run_simulates (R := Represents)
    (f := Program.moves) (C := fun p move => p.EntersFree move ∧ ∃ p', p.step move = some p')
    (fun p q move h ⟨hfree, p', hs⟩ => by
      obtain ⟨q', hq', h'⟩ := step_represents h hfree hs
      exact ⟨p', q', hs, hq', h'⟩) create_represents (hfree.and (.of_run hrun))
  cases hrun.symm.trans hp'
  have hatomic : atomicStep meaning start = step (T := T) :=
    funext fun s => funext fun a => atomicStep_eq s a
  have hfinished := run_finished hq
  rw [hatomic] at hfinished
  exact ⟨q, hfinished, h⟩

end WorkAtUPB.ReadersWriters
