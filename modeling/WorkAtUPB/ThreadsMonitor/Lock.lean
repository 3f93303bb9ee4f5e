import WorkAtUPB.ThreadsMonitor.Contract

namespace WorkAtUPB.ReadersWriters

open WorkAtUPB.Run WorkAtUPB.Census Sections

/-!
# ThreadsMonitorLinux — what the callers of `LibRW.cpp` get

Over the monitor of `LibMonitor.cpp`, as long as `Enter` takes the mutex only while nobody owns the
monitor:

* `Agrees` — the threads between two calls, and the counters while nobody is in a section, are as in
  the contract;
* `program_follows` — every run agrees with the run of its sections, and a thread that writes is
  alone;
* `not_exclusive` — the condition is needed: otherwise two threads may write at a time;
* `program_goesOn` — while a thread is in a call, some thread can go on, or reads or writes.
-/

variable {T : Type*} {p : Program T} {q : System (State T) T Access Access.Answer Exit}
    {s : State T}
  {t u : T}

/-- A thread that writes has nobody next to it that writes or reads. -/
def Program.Exclusive (p : Program T) : Prop :=
  ∀ t u, p.pc t = .outside .writing → p.pc u = .outside .writing ∨ p.pc u = .outside .reading →
    u = t

/-- Threads between two calls are as in the contract, and so are the counters while nobody is in a
    section. -/
structure Agrees (p : Program T) (s : State T) : Prop where
  place : ∀ t place, p.pc t = .outside place → s.thread t = place.status
  counter : (∀ t code, p.pc t ≠ .inside code) → ∀ x, s.counter x = p.counter x

/-- A thread between two calls does not wait. -/
theorem Place.status_ne_waiting (place : Place) (cond : Nat) : place.status ≠ .waiting cond := by
  cases place <;> exact Status.noConfusion

/-! ### Threads that are blocked -/

/-- A thread inside the monitor is in a section. -/
theorem Represents.exists_code (h : Represents p q) (ht : p.monitor.thread t = .inside) :
    ∃ code, p.pc t = .inside code := by
  have hlocated := h.located t
  rw [ht] at hlocated
  cases hpc : p.pc t with
  | inside code => exact ⟨code, rfl⟩
  | outside place =>
    rw [hpc] at hlocated
    cases hlocated.1
  | entering call | waiting cond =>
    rw [hpc] at hlocated
    obtain ⟨sem, hb⟩ := hlocated
    cases hb

/-- The conditions 0 and 1 have their names. -/
theorem Cond.exists_number {k : Nat} (h : k < 2) : ∃ cond : Cond, cond.number = k := by
  match k, h with
  | 0, _ => exact ⟨.readers, rfl⟩
  | 1, _ => exact ⟨.writers, rfl⟩

/-- While nobody is in a section or has been posted, a blocked thread waits for a condition. -/
theorem Represents.waits (h : Represents p q) (hactive : ¬ ThreadsMonitor.Active p.monitor)
    {call : ThreadsMonitor.Call} {sem : ThreadsMonitor.Sem}
    (ht : p.monitor.thread t = .blocked call sem) :
    ∃ cond : Cond, q.data.thread t = .waiting cond.number := by
  obtain ⟨lockedBy, htended⟩ := h.kept.tended
  have hempty : ThreadsMonitor.ready p.monitor.monitor = [] := by
    by_contra hready
    exact hactive (htended.ready hready)
  have hzero : p.monitor.value sem = 0 := by
    by_contra hne
    exact hactive ⟨t, Or.inr ⟨call, sem, ht, Nat.pos_of_ne_zero hne⟩⟩
  -- The semaphore is not ready, so it is in the queue of a condition.
  by_contra hnone
  have hready := h.kept.mem_ready ht hzero fun k hk hmem => by
    rw [h.conditions] at hk
    obtain ⟨cond, rfl⟩ := Cond.exists_number hk
    obtain ⟨u, hu, hb⟩ := h.queues.mem_of_sem hmem
    cases h.kept.recorded.distinct (t := t) (u := u) ht hb
    exact hnone ⟨cond, (h.queued.mem_iff cond.number t).mp hu⟩
  rw [hempty] at hready
  exact List.not_mem_nil hready

/-- Where nobody has been signaled, the waiting threads wait for one that reads or writes. -/
theorem Inv.exists_reading_or_writing [Fintype T] (h : Inv s)
    (hno : ∀ u cond, s.thread u ≠ .signaled cond) (cond : Cond)
    (ht : s.thread t = .waiting cond.number) :
    ∃ u, s.thread u = .reading ∨ s.thread u = .writing := by
  obtain ⟨hc, -, ha⟩ := h
  have hnn := hc.nonneg
  have hsignaled : census s.thread (.signaled 1) = 0 := by
    by_contra hne
    have hpos := lt_of_le_of_ne (census_nonneg ..) (Ne.symm hne)
    obtain ⟨u, hu⟩ := (census_pos_iff ..).mp hpos
    exact hno u 1 hu
  -- A writer waits for somebody, since nobody else has been signaled.
  have hwriter : ∀ u, s.thread u = .waiting 1 → 0 < s.nreaders ∨ 0 < s.nwriters := by
    intro u hu
    by_contra hnone
    obtain ⟨v, hv⟩ := ha.writers u hu (by omega) (by omega)
    exact hno v 1 hv
  have hsome : 0 < s.nreaders ∨ 0 < s.nwriters := by
    cases cond with
    | writers => exact hwriter t ht
    | readers =>
      have hpos := ha.readers t ht
      by_cases hw : 0 < s.nwriters
      · exact Or.inr hw
      · have hwaiting := hc.waitingwriters
        obtain ⟨u, hu⟩ := (census_pos_iff s.thread (.waiting 1)).mp (by omega)
        exact hwriter u hu
  rcases hsome with hr | hw
  · rw [hc.readers, census_pos_iff] at hr
    obtain ⟨u, hu⟩ := hr
    exact ⟨u, Or.inl hu⟩
  · rw [hc.writers, census_pos_iff] at hw
    obtain ⟨u, hu⟩ := hw
    exact ⟨u, Or.inr hu⟩

/-! ### Agreement -/

section

variable [DecidableEq T]

/-- An access does not concern a thread that is in no queue. -/
theorem access_thread (a : Access) (s : State T) (ht : ∀ cond, t ∉ s.conditionsQueue cond) :
    (meaning.access s u a).1.thread t = s.thread t ∧
      ∀ cond, t ∉ (meaning.access s u a).1.conditionsQueue cond := by
  cases a with
  | load x => exact ⟨rfl, ht⟩
  | store x n => cases x <;> exact ⟨rfl, ht⟩
  | signal cond =>
    show (s.signal cond.number).thread t = s.thread t ∧
      ∀ c, t ∉ (s.signal cond.number).conditionsQueue c
    refine ⟨?_, fun c hmem => ?_⟩
    · unfold State.signal
      split
      next => rfl
      next v rest hqueue =>
        refine Function.update_of_ne (fun htv => ht cond.number ?_) ..
        rw [hqueue, htv]
        exact List.mem_cons_self
    · rw [State.signal_conditionsQueue] at hmem
      by_cases hc : c = cond.number
      · rw [hc, Function.update_self] at hmem
        exact ht cond.number (List.mem_of_mem_tail hmem)
      · rw [Function.update_of_ne hc] at hmem
        exact ht c hmem
  | broadcast cond =>
    refine ⟨if_neg (ht cond.number), fun c hmem => ?_⟩
    have hmem : t ∈ Function.update s.conditionsQueue cond.number [] c := hmem
    by_cases hc : c = cond.number
    · rw [hc, Function.update_self] at hmem
      exact List.not_mem_nil hmem
    · rw [Function.update_of_ne hc] at hmem
      exact ht c hmem

/-- What is left of a section of another thread does not concern it either. -/
theorem finish_thread (code : Code) (s : State T) (htu : t ≠ u)
    (ht : ∀ cond, t ∉ s.conditionsQueue cond) :
    (meaning.finish u code s).thread t = s.thread t := by
  induction code generalizing s with
  | access a rest ih =>
    obtain ⟨hthread, hqueues⟩ := access_thread (u := u) a s ht
    exact (ih _ _ hqueues).trans hthread
  | done e =>
    cases e with
    | leave call =>
      cases call with
      | startCit | startScrit => exact Function.update_of_ne htu ..
      | stopCit | stopScrit => rfl
    | wait cond => exact Function.update_of_ne htu ..

/-- A program agrees with the contract that it represents, once its section is finished. -/
theorem Represents.agrees (h : Represents p q) : Agrees p (q.finished meaning) where
  place := by
    intro t place hpc
    have hstands : q.data.thread t = place.status := by
      have hstands := h.stands t
      rwa [hpc] at hstands
    cases hinside : q.inside with
    | none => rw [finished_of_outside hinside, hstands]
    | some r =>
      obtain ⟨u, code⟩ := r
      have hu := (h.inside u code).mpr hinside
      have htu : t ≠ u := by
        rintro rfl
        cases hpc.symm.trans hu
      rw [System.finished, hinside]
      refine (finish_thread code q.data htu fun cond hmem => ?_).trans hstands
      have hwaiting := (h.queued.mem_iff cond t).mp hmem
      exact place.status_ne_waiting cond (hstands.symm.trans hwaiting)
  counter := by
    intro hno x
    rw [finished_of_outside (h.inside_eq_none hno)]
    exact h.counter x

/-! ### Exclusion -/

/-- A program that agrees with the contract keeps readers and writers apart. -/
theorem Agrees.exclusive [Fintype T] (h : Agrees p s)
    (hs : Reachable step createRWMonitor s) : p.Exclusive := by
  obtain ⟨⟨hc, -, -⟩, hone, hno⟩ := reachable_exclusive hs
  intro t u ht hu
  have hwriting : s.thread t = .writing := h.place t .writing ht
  have hpos : 0 < s.nwriters := hc.writers ▸ (census_pos_iff ..).mpr ⟨t, hwriting⟩
  rcases hu with hu | hu
  · by_contra hut
    have hboth : 1 < (Finset.univ.filter fun v => s.thread v = .writing).card := by
      refine Finset.one_lt_card.mpr ⟨t, ?_, u, ?_, Ne.symm hut⟩
      · exact Finset.mem_filter.mpr ⟨Finset.mem_univ t, hwriting⟩
      · exact Finset.mem_filter.mpr ⟨Finset.mem_univ u, h.place u .writing hu⟩
    have hcensus : s.nwriters = ((Finset.univ.filter fun v => s.thread v = .writing).card : ℤ) :=
      hc.writers
    omega
  · have hreading : 0 < s.nreaders :=
      hc.readers ▸ (census_pos_iff ..).mpr ⟨u, h.place u .reading hu⟩
    have hzero := hno hpos
    omega

/-- **The calls keep their contract.**  For any number of threads, in every order of their accesses
    to the counters and of the steps of the monitor, in which `Enter` takes the mutex only while
    nobody owns the monitor: the sections of the calls, as they begin, are a run of the contract;
    the state agrees with what that run leads to; and a thread between `StartScrit` and `StopScrit`
    is the only one that reads or writes. -/
theorem program_follows [Fintype T] {moves : List (Move T)}
    (hrun : run Program.step .create moves = some p)
    (hfree : EachStep Program.step Program.EntersFree .create moves) :
    (∃ s, run step createRWMonitor (Program.sections moves) = some s ∧ Agrees p s) ∧
      p.Exclusive := by
  obtain ⟨q, hq, h⟩ := run_represents hrun hfree
  exact ⟨⟨_, hq, h.agrees⟩, h.agrees.exclusive ⟨_, hq⟩⟩

/-- A reader, a writer that waits for it, and the end of the reading, which wakes the writer. -/
def handOver (reader writer : T) : List (Move T) :=
  .calls reader .startCit :: List.replicate 5 (.goes reader) ++
    .calls writer .startScrit :: List.replicate 5 (.goes writer) ++
    .calls reader .stopCit :: List.replicate 6 (.goes reader)

/-- The writer comes back from `Wait`, and writes. -/
theorem program_follows_handOver : ∃ p : Program Bool,
    run Program.step .create (handOver false true ++ List.replicate 8 (.goes true)) = some p ∧
      p.pc true = .outside .writing ∧ p.Exclusive := by
  have hfree : EachStep Program.step Program.EntersFree .create
      (handOver false true ++ List.replicate 8 (.goes true)) := by decide
  exact ⟨_, rfl, rfl, (program_follows rfl hfree).2⟩

/-- **The condition is needed.**  A second writer enters before the first one has come back from
    `Wait`, finds the mutex free, and both see that nobody writes. -/
theorem not_exclusive : ¬ ∀ (moves : List (Move ℕ)) (p : Program ℕ),
    run Program.step .create moves = some p → p.Exclusive := by
  intro h
  have hexclusive := h (handOver 0 1 ++ .calls 2 .startScrit :: List.replicate 5 (.goes 1) ++
    List.replicate 2 (.goes 2) ++ List.replicate 3 (.goes 1) ++ List.replicate 3 (.goes 2)) _ rfl
  exact absurd (hexclusive 1 2 rfl (Or.inl rfl)) (by decide)

/-! ### Progress -/

/-- A thread in a section can go on. -/
theorem Represents.inside_goes (h : Represents p q) {code : Code} (ht : p.pc t = .inside code) :
    ∃ p', p.step (.goes t) = some p' := by
  have hin : p.monitor.thread t = .inside := by
    have hlocated := h.located t
    rwa [ht] at hlocated
  rw [Program.step, ht]
  cases code with
  | access a rest =>
    cases a with
    | load x | store x n => exact ⟨_, rfl⟩
    | signal cond => exact ⟨_, congrArg (Option.map _) (if_pos hin)⟩
    | broadcast cond => exact ⟨_, congrArg (Option.map _) (if_pos hin)⟩
  | done e =>
    cases e with
    | leave call => exact ⟨_, congrArg (Option.map _) (if_pos hin)⟩
    | wait cond => exact ⟨_, congrArg (Option.map _) (if_pos hin)⟩

/-- A thread that has been posted can go on while nobody is in a section. -/
theorem Represents.posted_goes (h : Represents p q) (hno : ∀ u code, p.pc u ≠ .inside code)
    {call : ThreadsMonitor.Call} {sem : ThreadsMonitor.Sem}
    (ht : p.monitor.thread t = .blocked call sem) (hpos : 0 < p.monitor.value sem) :
    ∃ p', p.step (.goes t) = some p' := by
  have hmutex : p.monitor.monitor.mutex = false := by
    by_contra hlocked
    obtain ⟨lockedBy, htended⟩ := h.kept.tended
    obtain ⟨u, -, hu⟩ := htended.locked (Bool.eq_true_of_not_eq_false hlocked)
    obtain ⟨code, hcode⟩ := h.exists_code hu
    exact hno u code hcode
  obtain ⟨m, hm⟩ := ThreadsMonitor.resume_posted ht hpos hmutex
  have hlocated := h.located t
  rw [ht] at hlocated
  rw [Program.step]
  cases hpc : p.pc t with
  | entering call | waiting cond => exact ⟨_, congrArg (Option.map _) hm⟩
  | outside place =>
    rw [hpc] at hlocated
    cases hlocated.1
  | inside code => exact absurd hpc (hno t code)

/-- **Progress.**  In every such run, while a thread is in a call, some thread can make the next
    step of its call, or reads or writes between two calls. -/
theorem program_goesOn [Fintype T] {moves : List (Move T)}
    (hrun : run Program.step .create moves = some p)
    (hfree : EachStep Program.step Program.EntersFree .create moves)
    (ht : ∀ place, p.pc t ≠ .outside place) :
    (∃ u p', p.step (.goes u) = some p') ∨
      ∃ u, p.pc u = .outside .reading ∨ p.pc u = .outside .writing := by
  obtain ⟨q, hq, h⟩ := run_represents hrun hfree
  refine or_iff_not_imp_left.mpr fun hstuck => ?_
  have hno : ∀ u code, p.pc u ≠ .inside code := fun u code hu =>
    hstuck ⟨u, h.inside_goes hu⟩
  have hactive : ¬ ThreadsMonitor.Active p.monitor := by
    rintro ⟨u, hu | ⟨call, sem, hu, hpos⟩⟩
    · obtain ⟨code, hcode⟩ := h.exists_code hu
      exact hno u code hcode
    · exact hstuck ⟨u, h.posted_goes hno hu hpos⟩
  -- Threads in a call all wait for a condition.
  have hwaits : ∀ u, (∀ place, p.pc u ≠ .outside place) →
      ∃ cond : Cond, q.data.thread u = .waiting cond.number := by
    intro u hu
    have hlocated := h.located u
    cases hpc : p.pc u with
    | outside place => exact absurd hpc (hu place)
    | inside code => exact absurd hpc (hno u code)
    | entering call | waiting cond =>
      rw [hpc] at hlocated
      obtain ⟨sem, hb⟩ := hlocated
      exact h.waits hactive hb
  have hplace : ∀ u, (∀ cond : Cond, q.data.thread u ≠ .waiting cond.number) →
      ∃ place, p.pc u = .outside place ∧ q.data.thread u = place.status := by
    intro u hu
    by_cases hout : ∃ place, p.pc u = .outside place
    · obtain ⟨place, hpc⟩ := hout
      have hstands := h.stands u
      rw [hpc] at hstands
      exact ⟨place, hpc, hstands⟩
    · obtain ⟨cond, hwaiting⟩ := hwaits u (not_exists.mp hout)
      exact absurd hwaiting (hu cond)
  have hinv : Inv q.data := by
    rw [← finished_of_outside (h.inside_eq_none hno)]
    exact reachable_inv ⟨_, hq⟩
  have hsignaled : ∀ u cond, q.data.thread u ≠ .signaled cond := by
    intro u cond hu
    obtain ⟨place, -, hstatus⟩ := hplace u fun c hwaiting => by cases hu.symm.trans hwaiting
    rw [hu] at hstatus
    cases place <;> cases hstatus
  obtain ⟨cond, hwaiting⟩ := hwaits t ht
  obtain ⟨u, hu⟩ := hinv.exists_reading_or_writing hsignaled cond hwaiting
  obtain ⟨place, hpc, hstatus⟩ := hplace u fun c hwaiting => by
    rcases hu with hu | hu
    · cases hu.symm.trans hwaiting
    · cases hu.symm.trans hwaiting
  refine ⟨u, ?_⟩
  rcases hu with hu | hu
  · rw [hu] at hstatus
    cases place <;> cases hstatus
    exact Or.inl hpc
  · rw [hu] at hstatus
    cases place <;> cases hstatus
    exact Or.inr hpc

/-- A writer that waits for a reader. -/
theorem program_goesOn_waiting : ∃ p : Program Bool, run Program.step .create
      (.calls false .startCit :: List.replicate 5 (.goes false) ++
        .calls true .startScrit :: List.replicate 5 (.goes true)) = some p ∧
    ((∃ u p', p.step (.goes u) = some p') ∨
      ∃ u, p.pc u = .outside .reading ∨ p.pc u = .outside .writing) := by
  have hfree : EachStep Program.step Program.EntersFree .create
      (.calls false .startCit :: List.replicate 5 (.goes false) ++
        .calls true .startScrit :: List.replicate 5 (.goes true)) := by decide
  exact ⟨_, rfl, program_goesOn rfl hfree (t := true) fun _ h => Pc.noConfusion h⟩

end

end WorkAtUPB.ReadersWriters
