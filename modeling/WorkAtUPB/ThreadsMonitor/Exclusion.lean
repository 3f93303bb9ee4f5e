import WorkAtUPB.ThreadsMonitor.ReadersWriters

namespace WorkAtUPB.ReadersWriters

open WorkAtUPB.Run WorkAtUPB.Census

/-!
# ThreadsMonitorLinux — readers exclude writers (`LibRW.cpp`)

What the counters of `LibRW.cpp` are for: one writer at a time, and no reader next to it.  The
tests in `StartCit` and `StartScrit` see the right counters because each is the number of
threads it stands for (`Counted`), whatever signals are still under way:

* `Exclusive` — what the tests are to bring about;
* `step_exclusive` — every call and every return from `Wait` keeps it;
* `exclusion` — so it holds in every reachable state, with exact counters.
-/

variable {T : Type*}

/-- There is one writer at most, and no reader next to it. -/
structure Exclusive (s : State T) : Prop where
  writers : s.nwriters ≤ 1
  readers : 0 < s.nwriters → s.nreaders = 0

/-- Nobody reads or writes at first. -/
theorem createRWMonitor_exclusive : Exclusive (createRWMonitor : State T) where
  writers := Int.zero_le_ofNat 1
  readers := fun _ => rfl

/-- Only the counters of active threads matter. -/
theorem Exclusive.congr {s s' : State T} (h : Exclusive s) (hw : s'.nwriters = s.nwriters)
    (hr : s'.nreaders = s.nreaders) : Exclusive s' := by
  refine ⟨?_, ?_⟩
  · rw [hw]
    exact h.writers
  · rw [hw, hr]
    exact h.readers

/-- Where somebody reads, nobody writes. -/
theorem Exclusive.nwriters_of_reading [Fintype T] {s : State T} (h : Exclusive s)
    (hc : Counted s) {t : T} (ht : s.thread t = .reading) : s.nwriters = 0 := by
  have hpos : 0 < s.nreaders := by
    rw [hc.readers]
    exact (census_pos_iff ..).mpr ⟨t, ht⟩
  have hnn := hc.nonneg
  by_contra hne
  have hzero := h.readers (by omega)
  omega

variable [DecidableEq T]

/-- `Signal` leaves the readers. -/
@[simp] theorem State.signal_nreaders (s : State T) (cond : Nat) :
    (s.signal cond).nreaders = s.nreaders := by
  unfold State.signal
  split <;> rfl

/-! ### The calls -/

/-- A writer that stops leaves nobody behind. -/
theorem stopScrit_exclusive {s : State T} {t : T} (h : Exclusive s) :
    Exclusive (stopScrit s t) := by
  have hstop : Exclusive ({ s with nwriters := s.nwriters - 1 }.move t .idle) := by
    obtain ⟨hw, hr⟩ := h
    refine ⟨?_, fun hpos => hr ?_⟩
    · show s.nwriters - 1 ≤ 1
      omega
    · have hpos : 0 < s.nwriters - 1 := hpos
      omega
  unfold stopScrit
  dsimp only
  split
  · exact hstop.congr (State.signal_nwriters ..) (State.signal_nreaders ..)
  split
  · exact hstop.congr rfl rfl
  · exact hstop

variable [Fintype T]

/-- A reader starts where nobody writes. -/
theorem startCit_exclusive {s : State T} {t : T} (h : Exclusive s) (hc : Counted s) :
    Exclusive (startCit s t) := by
  have hnn := hc.nonneg
  unfold startCit
  split
  next hw => exact h.congr rfl rfl
  next hw =>
    -- The test has seen that nobody writes.
    refine ⟨h.writers, fun hpos => ?_⟩
    have hpos : 0 < s.nwriters := hpos
    omega

/-- A reader that stops leaves readers behind. -/
theorem stopCit_exclusive {s : State T} {t : T} (h : Exclusive s) (hc : Counted s)
    (ht : s.thread t = .reading) : Exclusive (stopCit s t) := by
  have hzero := h.nwriters_of_reading hc ht
  have hstop : Exclusive ({ s with nreaders := s.nreaders - 1 }.move t .idle) := by
    refine ⟨h.writers, fun hpos => ?_⟩
    have hpos : 0 < s.nwriters := hpos
    omega
  unfold stopCit
  dsimp only
  split
  · exact hstop.congr (State.signal_nwriters ..) (State.signal_nreaders ..)
  · exact hstop

/-- A writer starts where nobody reads or writes. -/
theorem startScrit_exclusive {s : State T} {t : T} (h : Exclusive s) (hc : Counted s) :
    Exclusive (startScrit s t) := by
  have hnn := hc.nonneg
  unfold startScrit
  split
  next hw => exact h.congr rfl rfl
  next hw =>
    -- The test has seen that nobody reads or writes: this is the only writer.
    refine ⟨?_, fun _ => ?_⟩
    · show s.nwriters + 1 ≤ 1
      omega
    · show s.nreaders = 0
      omega

/-- A thread that goes on behind `Wait` starts like a new one. -/
theorem resume_exclusive {s s' : State T} {t : T} (h : Exclusive s) (hc : Counted s)
    (hs : resume s t = some s') : Exclusive s' := by
  unfold resume at hs
  split at hs
  -- The thread tests its `while` again, as one that has just called.
  next ht =>
    cases hs
    refine startCit_exclusive (h.congr rfl rfl) ?_
    refine hc.of_update ht rfl ?_ ?_ ?_ ?_ <;> simp [State.move]
  next ht =>
    cases hs
    refine startScrit_exclusive (h.congr rfl rfl) ?_
    refine hc.of_update ht rfl ?_ ?_ ?_ ?_ <;> simp [State.move]
  next => cases hs

/-- Every step keeps readers and writers apart. -/
theorem step_exclusive {s s' : State T} {a : Action T} (h : Exclusive s) (hc : Counted s)
    (hs : step s a = some s') : Exclusive s' := by
  cases a with
  | startCit t =>
    obtain ⟨-, ⟨⟩⟩ := Option.ite_none_right_eq_some.mp hs
    exact startCit_exclusive h hc
  | stopCit t =>
    obtain ⟨ht, ⟨⟩⟩ := Option.ite_none_right_eq_some.mp hs
    exact stopCit_exclusive h hc ht
  | startScrit t =>
    obtain ⟨-, ⟨⟩⟩ := Option.ite_none_right_eq_some.mp hs
    exact startScrit_exclusive h hc
  | stopScrit t =>
    obtain ⟨-, ⟨⟩⟩ := Option.ite_none_right_eq_some.mp hs
    exact stopScrit_exclusive h
  | resume t => exact resume_exclusive h hc hs

/-! ### Runs -/

/-- **Run.**  By induction: all reachable states are in order. -/
theorem reachable_exclusive {s : State T} (h : Reachable step createRWMonitor s) :
    Inv s ∧ Exclusive s :=
  h.invariant (I := fun s => Inv s ∧ Exclusive s)
    ⟨⟨createRWMonitor_counted, createRWMonitor_queued, createRWMonitor_awaited⟩,
      createRWMonitor_exclusive⟩
    fun _ _ _ ⟨hinv, hex⟩ hs => ⟨step_inv hinv hs, step_exclusive hex hinv.counted hs⟩

/-- **Readers exclude writers.**  In every reachable state there is no writer or one, no reader
    next to a writer, and each counter is the number of threads it stands for: those between
    Start and Stop, and those that wait on a condition or have been signaled and not gone on
    yet. -/
theorem exclusion {s : State T} (h : Reachable step createRWMonitor s) :
    (s.nwriters = 0 ∨ s.nwriters = 1) ∧ (s.nwriters = 1 → s.nreaders = 0) ∧
      s.nreaders = census s.thread .reading ∧ s.nwriters = census s.thread .writing ∧
      s.nwaitingreaders = census s.thread (.waiting 0) + census s.thread (.signaled 0) ∧
      s.nwaitingwriters = census s.thread (.waiting 1) + census s.thread (.signaled 1) := by
  obtain ⟨⟨hc, -, -⟩, hex⟩ := reachable_exclusive h
  have hnn := hc.nonneg
  have hw := hex.writers
  exact ⟨by omega, fun hone => hex.readers (by omega), hc.readers, hc.writers,
    hc.waitingreaders, hc.waitingwriters⟩

/-- A writer that waits for a reader, is signaled, and has to wait again for another writer. -/
theorem exclusion_overtaken : ∃ s, run step (createRWMonitor : State (Fin 3))
      [.startCit 0, .startScrit 1, .stopCit 0, .startScrit 2, .resume 1] = some s ∧
    s.thread 1 = .waiting 1 ∧ (s.nwriters = 1 → s.nreaders = 0) :=
  ⟨_, rfl, rfl,
    (exclusion ⟨[.startCit 0, .startScrit 1, .stopCit 0, .startScrit 2, .resume 1], rfl⟩).2.1⟩

end WorkAtUPB.ReadersWriters
