import WorkAtUPB.Lib.Run
import WorkAtUPB.Lib.Census
import Mathlib.Data.Fintype.Basic

namespace WorkAtUPB.ReadersWriters

open WorkAtUPB.Run WorkAtUPB.Census

/-!
# ThreadsMonitorLinux — readers and writers over a monitor (`LibRW.cpp`)

The four calls over a monitor that keeps its contract: the code between two blocking points
is one step, `Signal` makes the first thread of a condition queue ready and `Broadcast` all of
them, and ready threads go on in any order:

* `State`, `step` — the four counters, the condition queues and where every thread is;
* `Counted`, `Queued` — the counters and the queues agree with where the threads are;
* `Awaited` — readers wait only for writers, and waiting writers are not forgotten;
* `notStuck` — while a thread waits unsignaled, somebody is active or signaled.
-/

/-- Where a thread is; `idle` is between two calls, or running inside one. -/
inductive Status where
  | idle
  | waiting (cond : Nat)
  | signaled (cond : Nat)
  | reading
  | writing
  deriving DecidableEq, Repr

/-- The counters of `LibRW.cpp`, the condition queues of the monitor and the threads. -/
structure State (T : Type*) where
  nreaders : ℤ
  nwaitingreaders : ℤ
  nwriters : ℤ
  nwaitingwriters : ℤ
  conditionsQueue : Nat → List T
  thread : T → Status

variable {T : Type*}

/-- `CreateRWMonitor`: all counters are 0, and no thread has called anything yet. -/
def createRWMonitor : State T where
  nreaders := 0
  nwaitingreaders := 0
  nwriters := 0
  nwaitingwriters := 0
  conditionsQueue := fun _ => []
  thread := fun _ => .idle

/-! ### Counters and queues -/

/-- The queues hold the waiting threads, each once. -/
structure Queued (s : State T) : Prop where
  mem_iff : ∀ cond t, t ∈ s.conditionsQueue cond ↔ s.thread t = .waiting cond
  nodup : ∀ cond, (s.conditionsQueue cond).Nodup

/-- The counters are the numbers of threads they stand for. -/
structure Counted [Fintype T] (s : State T) : Prop where
  readers : s.nreaders = census s.thread .reading
  waitingreaders : s.nwaitingreaders =
    census s.thread (.waiting 0) + census s.thread (.signaled 0)
  writers : s.nwriters = census s.thread .writing
  waitingwriters : s.nwaitingwriters =
    census s.thread (.waiting 1) + census s.thread (.signaled 1)

/-- Readers wait only while there are writers, and when a writer waits for nobody, another one
    has been signaled. -/
structure Awaited (s : State T) : Prop where
  readers : ∀ t, s.thread t = .waiting 0 → 0 < s.nwriters + s.nwaitingwriters
  writers : ∀ t, s.thread t = .waiting 1 → s.nreaders = 0 → s.nwriters = 0 →
    ∃ u, s.thread u = .signaled 1

/-- Counters, queues and wake-ups are right. -/
structure Inv [Fintype T] (s : State T) : Prop where
  counted : Counted s
  queued : Queued s
  awaited : Awaited s

/-- The queues are empty at first. -/
theorem createRWMonitor_queued : Queued (createRWMonitor : State T) where
  mem_iff := fun _ _ => iff_of_false (List.not_mem_nil) Status.noConfusion
  nodup := fun _ => List.nodup_nil

/-- The counters are 0 at first. -/
theorem createRWMonitor_counted [Fintype T] : Counted (createRWMonitor : State T) where
  readers := (census_const_of_ne (by decide)).symm
  waitingreaders := by
    rw [createRWMonitor, census_const_of_ne (by decide), census_const_of_ne (by decide), add_zero]
  writers := (census_const_of_ne (by decide)).symm
  waitingwriters := by
    rw [createRWMonitor, census_const_of_ne (by decide), census_const_of_ne (by decide), add_zero]

/-- Nobody waits at first. -/
theorem createRWMonitor_awaited : Awaited (createRWMonitor : State T) where
  readers := nofun
  writers := nofun

/-- The counters are numbers of threads. -/
theorem Counted.nonneg [Fintype T] {s : State T} (h : Counted s) :
    0 ≤ s.nreaders ∧ 0 ≤ s.nwaitingreaders ∧ 0 ≤ s.nwriters ∧ 0 ≤ s.nwaitingwriters := by
  refine ⟨h.readers ▸ census_nonneg .., h.waitingreaders ▸ ?_, h.writers ▸ census_nonneg ..,
    h.waitingwriters ▸ ?_⟩
  · exact add_nonneg (census_nonneg ..) (census_nonneg ..)
  · exact add_nonneg (census_nonneg ..) (census_nonneg ..)

/-- A reader that waits is counted. -/
theorem Counted.nwaitingreaders_pos [Fintype T] {s : State T} (h : Counted s) {t : T}
    (ht : s.thread t = .waiting 0) : 0 < s.nwaitingreaders := by
  have := (census_pos_iff s.thread (.waiting 0)).mpr ⟨t, ht⟩
  have := census_nonneg s.thread (.signaled 0)
  have := h.waitingreaders
  omega

/-- A writer that waits is counted. -/
theorem Counted.nwaitingwriters_pos [Fintype T] {s : State T} (h : Counted s) {t : T}
    (ht : s.thread t = .waiting 1) : 0 < s.nwaitingwriters := by
  have := (census_pos_iff s.thread (.waiting 1)).mpr ⟨t, ht⟩
  have := census_nonneg s.thread (.signaled 1)
  have := h.waitingwriters
  omega

/-! ### The monitor calls -/

variable [DecidableEq T]

/-- The thread `t` goes to `status`. -/
def State.move (s : State T) (t : T) (status : Status) : State T :=
  { s with thread := Function.update s.thread t status }

/-- `Wait`, up to the `sem_wait`. -/
def State.wait (s : State T) (t : T) (cond : Nat) : State T :=
  { s with
    conditionsQueue := Function.update s.conditionsQueue cond (s.conditionsQueue cond ++ [t])
    thread := Function.update s.thread t (.waiting cond) }

/-- `Signal`: the first thread waiting for the condition, if any, becomes ready. -/
def State.signal (s : State T) (cond : Nat) : State T :=
  match s.conditionsQueue cond with
  | [] => s
  | t :: rest =>
    { s with
      conditionsQueue := Function.update s.conditionsQueue cond rest
      thread := Function.update s.thread t (.signaled cond) }

/-- `Broadcast`: all threads waiting for the condition become ready. -/
def State.broadcast (s : State T) (cond : Nat) : State T :=
  { s with
    conditionsQueue := Function.update s.conditionsQueue cond []
    thread := fun t => if t ∈ s.conditionsQueue cond then .signaled cond else s.thread t }

/-! ### Readers and writers -/

/-- What the threads do next; `resume` is the return from `Wait`. -/
inductive Action (T : Type*) where
  | startCit (t : T)
  | stopCit (t : T)
  | startScrit (t : T)
  | stopScrit (t : T)
  | resume (t : T)
  deriving DecidableEq, Repr

/-- `StartCit` from the test of its `while` on: wait for the writers, or read. -/
def startCit (s : State T) (t : T) : State T :=
  if s.nwriters + s.nwaitingwriters > 0 then
    { s with nwaitingreaders := s.nwaitingreaders + 1 }.wait t 0
  else { s with nreaders := s.nreaders + 1 }.move t .reading

/-- `StopCit`: the last reader wakes a writer. -/
def stopCit (s : State T) (t : T) : State T :=
  let s := { s with nreaders := s.nreaders - 1 }.move t .idle
  if s.nreaders = 0 ∧ s.nwaitingwriters > 0 then s.signal 1 else s

/-- `StartScrit` from the test of its `while` on: wait for readers and writers, or write. -/
def startScrit (s : State T) (t : T) : State T :=
  if s.nreaders + s.nwriters > 0 then
    { s with nwaitingwriters := s.nwaitingwriters + 1 }.wait t 1
  else { s with nwriters := s.nwriters + 1 }.move t .writing

/-- `StopScrit`: wake a writer, or if there is none all readers. -/
def stopScrit (s : State T) (t : T) : State T :=
  let s := { s with nwriters := s.nwriters - 1 }.move t .idle
  if s.nwaitingwriters > 0 then s.signal 1
  else if s.nwaitingreaders > 0 then s.broadcast 0 else s

/-- The return from `Wait`: the thread is no longer counted as waiting, and tests its `while`
    again. -/
def resume (s : State T) (t : T) : Option (State T) :=
  match s.thread t with
  | .signaled 0 =>
    some (startCit ({ s with nwaitingreaders := s.nwaitingreaders - 1 }.move t .idle) t)
  | .signaled 1 =>
    some (startScrit ({ s with nwaitingwriters := s.nwaitingwriters - 1 }.move t .idle) t)
  | _ => none

/-- One step.  Threads pair the calls that start with the calls that stop. -/
def step (s : State T) : Action T → Option (State T)
  | .startCit t => if s.thread t = .idle then some (startCit s t) else none
  | .stopCit t => if s.thread t = .reading then some (stopCit s t) else none
  | .startScrit t => if s.thread t = .idle then some (startScrit s t) else none
  | .stopScrit t => if s.thread t = .writing then some (stopScrit s t) else none
  | .resume t => resume s t

/-! ### What the monitor calls keep -/

/-- A thread that does not wait moves to where it does not wait either. -/
theorem Queued.move {s : State T} {t : T} {status : Status} (h : Queued s)
    (ht : ∀ cond, s.thread t ≠ .waiting cond) (hst : ∀ cond, status ≠ .waiting cond) :
    Queued (s.move t status) where
  mem_iff := by
    intro cond u
    show u ∈ s.conditionsQueue cond ↔ Function.update s.thread t status u = .waiting cond
    by_cases hut : u = t
    · rw [hut, Function.update_self, h.mem_iff]
      exact iff_of_false (ht cond) (hst cond)
    · rw [Function.update_of_ne hut, h.mem_iff]
  nodup := h.nodup

/-- A thread that waits gets to the end of its queue. -/
theorem Queued.wait {s : State T} {t : T} {cond : Nat} (h : Queued s)
    (ht : ∀ cond, s.thread t ≠ .waiting cond) : Queued (s.wait t cond) where
  mem_iff := by
    intro c u
    show u ∈ Function.update s.conditionsQueue cond (s.conditionsQueue cond ++ [t]) c ↔
      Function.update s.thread t (.waiting cond) u = .waiting c
    by_cases hc : c = cond
    -- The queue that grows: `t` is its new element.
    · subst hc
      rw [Function.update_self, List.mem_append, List.mem_singleton]
      by_cases hut : u = t
      · rw [hut, Function.update_self]
        exact iff_of_true (Or.inr rfl) rfl
      · rw [Function.update_of_ne hut, h.mem_iff]
        exact or_iff_left hut
    · rw [Function.update_of_ne hc]
      by_cases hut : u = t
      · rw [hut, Function.update_self, h.mem_iff]
        exact iff_of_false (ht c) fun he => hc (Status.waiting.inj he).symm
      · rw [Function.update_of_ne hut, h.mem_iff]
  nodup := by
    intro c
    show (Function.update s.conditionsQueue cond (s.conditionsQueue cond ++ [t]) c).Nodup
    by_cases hc : c = cond
    · subst hc
      rw [Function.update_self]
      -- `t` did not wait before, so it was not in the queue.
      refine List.Nodup.append (h.nodup c) (List.nodup_singleton t) ?_
      intro u hu hut
      rw [List.mem_singleton] at hut
      exact ht c ((h.mem_iff c t).mp (hut ▸ hu))
    · rw [Function.update_of_ne hc]
      exact h.nodup c

/-- A thread that is signaled leaves its queue. -/
theorem Queued.signal {s : State T} {cond : Nat} (h : Queued s) : Queued (s.signal cond) := by
  unfold State.signal
  split
  next => exact h
  next t rest hq =>
    have hnd : (t :: rest).Nodup := hq ▸ h.nodup cond
    refine ⟨fun c u => ?_, fun c => ?_⟩
    · show u ∈ Function.update s.conditionsQueue cond rest c ↔
        Function.update s.thread t (.signaled cond) u = .waiting c
      by_cases hut : u = t
      -- The signaled thread is in no queue any more: it was in one only, and once.
      · subst hut
        rw [Function.update_self]
        refine iff_of_false (fun hu => ?_) Status.noConfusion
        by_cases hc : c = cond
        · rw [hc, Function.update_self] at hu
          exact (List.nodup_cons.mp hnd).1 hu
        · rw [Function.update_of_ne hc, h.mem_iff] at hu
          have ht : s.thread u = .waiting cond := (h.mem_iff cond u).mp (hq ▸ List.mem_cons_self)
          exact hc (Status.waiting.inj (hu.symm.trans ht))
      · rw [Function.update_of_ne hut, ← h.mem_iff c u]
        by_cases hc : c = cond
        · rw [hc, Function.update_self, hq, List.mem_cons]
          exact (or_iff_right hut).symm
        · rw [Function.update_of_ne hc]
    · show (Function.update s.conditionsQueue cond rest c).Nodup
      by_cases hc : c = cond
      · rw [hc, Function.update_self]
        exact (List.nodup_cons.mp hnd).2
      · rw [Function.update_of_ne hc]
        exact h.nodup c

/-- `Broadcast` moves exactly the threads that wait for the condition. -/
theorem Queued.broadcast_thread {s : State T} {cond : Nat} (h : Queued s) :
    (s.broadcast cond).thread =
      fun t => if s.thread t = .waiting cond then .signaled cond else s.thread t := by
  funext t
  exact if_congr (h.mem_iff cond t) rfl rfl

/-- Nobody waits for the condition behind a `Broadcast`. -/
theorem Queued.broadcast_not_waiting {s : State T} {cond : Nat} (h : Queued s) {t : T} :
    (s.broadcast cond).thread t ≠ .waiting cond := by
  rw [h.broadcast_thread]
  show (if s.thread t = .waiting cond then Status.signaled cond else s.thread t) ≠ _
  split
  · exact Status.noConfusion
  · assumption

/-- All threads leave the queue. -/
theorem Queued.broadcast {s : State T} {cond : Nat} (h : Queued s) :
    Queued (s.broadcast cond) := by
  refine ⟨fun c u => ?_, fun c => ?_⟩
  · rw [h.broadcast_thread]
    show u ∈ Function.update s.conditionsQueue cond [] c ↔ _
    by_cases hc : c = cond
    · rw [hc, Function.update_self]
      refine iff_of_false List.not_mem_nil ?_
      rw [← h.broadcast_thread]
      exact h.broadcast_not_waiting
    · rw [Function.update_of_ne hc, h.mem_iff]
      show _ ↔ (if s.thread u = .waiting cond then Status.signaled cond else s.thread u) = _
      split
      · refine iff_of_false (fun hu => ?_) Status.noConfusion
        exact hc (Status.waiting.inj (hu.symm.trans ‹_›))
      · exact Iff.rfl
  · show (Function.update s.conditionsQueue cond [] c).Nodup
    by_cases hc : c = cond
    · rw [hc, Function.update_self]
      exact List.nodup_nil
    · rw [Function.update_of_ne hc]
      exact h.nodup c

/-- A signal leaves a signaled thread behind, if somebody was waiting. -/
theorem Queued.signal_signaled {s : State T} {cond : Nat} (h : Queued s) {t : T}
    (ht : s.thread t = .waiting cond) : ∃ u, (s.signal cond).thread u = .signaled cond := by
  unfold State.signal
  split
  next hc =>
    have hmem : t ∈ s.conditionsQueue cond := (h.mem_iff cond t).mpr ht
    rw [hc] at hmem
    exact absurd hmem List.not_mem_nil
  next u rest hc => exact ⟨u, Function.update_self ..⟩

/-- `Signal` leaves the writers. -/
@[simp] theorem State.signal_nwriters (s : State T) (cond : Nat) :
    (s.signal cond).nwriters = s.nwriters := by
  unfold State.signal
  split <;> rfl

/-- `Signal` leaves the writers that wait. -/
@[simp] theorem State.signal_nwaitingwriters (s : State T) (cond : Nat) :
    (s.signal cond).nwaitingwriters = s.nwaitingwriters := by
  unfold State.signal
  split <;> rfl

/-- Who waits behind a `Signal` waited before. -/
theorem State.waiting_of_signal {s : State T} {cond c : Nat} {t : T}
    (h : (s.signal cond).thread t = .waiting c) : s.thread t = .waiting c := by
  unfold State.signal at h
  split at h
  next => exact h
  next u rest hc =>
    by_cases htu : t = u
    · rw [htu] at h
      exact Status.noConfusion ((Function.update_self u _ s.thread).symm.trans h)
    · exact (Function.update_of_ne htu _ s.thread).symm.trans h

/-- Who waits behind a move waited before. -/
theorem State.waiting_of_update {s : State T} {t u : T} {status : Status} {c : Nat}
    (hst : status ≠ .waiting c) (h : Function.update s.thread t status u = .waiting c) :
    s.thread u = .waiting c := by
  by_cases hut : u = t
  · rw [hut, Function.update_self] at h
    exact absurd h hst
  · rwa [Function.update_of_ne hut] at h

variable [Fintype T]

/-- The counters after one thread has moved, as the old counters and the two places say. -/
theorem Counted.of_update {s s' : State T} {t : T} {old new : Status} (h : Counted s)
    (ht : s.thread t = old) (hthread : s'.thread = Function.update s.thread t new)
    (hreaders : s'.nreaders = s.nreaders
      - (if old = .reading then 1 else 0) + (if new = .reading then 1 else 0))
    (hwaitingreaders : s'.nwaitingreaders = s.nwaitingreaders
      - (if old = .waiting 0 ∨ old = .signaled 0 then 1 else 0)
      + (if new = .waiting 0 ∨ new = .signaled 0 then 1 else 0))
    (hwriters : s'.nwriters = s.nwriters
      - (if old = .writing then 1 else 0) + (if new = .writing then 1 else 0))
    (hwaitingwriters : s'.nwaitingwriters = s.nwaitingwriters
      - (if old = .waiting 1 ∨ old = .signaled 1 then 1 else 0)
      + (if new = .waiting 1 ∨ new = .signaled 1 then 1 else 0)) : Counted s' := by
  obtain ⟨h1, h2, h3, h4⟩ := h
  have hor : ∀ (x : Status) (c : Nat),
      (if x = .waiting c ∨ x = .signaled c then (1 : ℤ) else 0) =
        (if x = .waiting c then 1 else 0) + (if x = .signaled c then 1 else 0) := by
    intro x c
    cases x <;> simp
  rw [hor, hor] at hwaitingreaders hwaitingwriters
  constructor
  · rw [hthread, census_update, ht, hreaders, h1]
  · rw [hthread, census_update, census_update, ht, hwaitingreaders, h2]
    omega
  · rw [hthread, census_update, ht, hwriters, h3]
  · rw [hthread, census_update, census_update, ht, hwaitingwriters, h4]
    omega

/-- A thread that is signaled is counted with those that wait. -/
theorem Counted.signal {s : State T} {cond : Nat} (h : Counted s) (hq : Queued s) :
    Counted (s.signal cond) := by
  unfold State.signal
  split
  next => exact h
  next t rest hc =>
    have ht : s.thread t = .waiting cond := (hq.mem_iff cond t).mp (hc ▸ List.mem_cons_self)
    refine h.of_update ht rfl ?_ ?_ ?_ ?_ <;> simp

/-- So are all threads that are signaled. -/
theorem Counted.broadcast {s : State T} {cond : Nat} (h : Counted s) (hq : Queued s) :
    Counted (s.broadcast cond) := by
  obtain ⟨h1, h2, h3, h4⟩ := h
  have hne : Status.waiting cond ≠ .signaled cond := Status.noConfusion
  -- A thread that goes from `waiting c` to `signaled c` stays in the sum for `c`.
  have hsum : ∀ c, census (s.broadcast cond).thread (.waiting c)
      + census (s.broadcast cond).thread (.signaled c) =
        census s.thread (.waiting c) + census s.thread (.signaled c) := by
    intro c
    rw [hq.broadcast_thread, census_relabel _ hne, census_relabel _ hne]
    by_cases hc : c = cond
    · subst hc
      rw [if_pos rfl, if_neg hne.symm, if_pos rfl, zero_add]
    · simp [hc]
  constructor
  · rw [hq.broadcast_thread, census_relabel _ hne, if_neg (by simp), if_neg (by simp)]
    exact h1
  · rw [hsum]
    exact h2
  · rw [hq.broadcast_thread, census_relabel _ hne, if_neg (by simp), if_neg (by simp)]
    exact h3
  · rw [hsum]
    exact h4

/-! ### What the readers and writers keep -/

/-- `StartCit`, from the test of the `while` on. -/
theorem startCit_inv {s : State T} {t : T} (h : Inv s) (ht : s.thread t = .idle) :
    Inv (startCit s t) := by
  obtain ⟨hc, hq, ha⟩ := h
  have hidle : ∀ cond, s.thread t ≠ .waiting cond := fun cond => ht ▸ Status.noConfusion
  have hnn := hc.nonneg
  unfold startCit
  split
  -- The thread waits, for the writers that the test has seen.
  next hw =>
    refine ⟨?_, Queued.wait ⟨hq.mem_iff, hq.nodup⟩ hidle, ?_, ?_⟩
    · refine hc.of_update ht rfl ?_ ?_ ?_ ?_ <;> simp [State.wait]
    · exact fun _ _ => hw
    · intro u hu hr hwr
      have hu := State.waiting_of_update (by decide) hu
      obtain ⟨v, hv⟩ := ha.writers u hu hr hwr
      have hvt : v ≠ t := fun e => by rw [e, ht] at hv; cases hv
      exact ⟨v, (Function.update_of_ne hvt ..).trans hv⟩
  -- The thread reads, which gives waiting writers somebody to wait for.
  next hw =>
    refine ⟨?_, Queued.move ⟨hq.mem_iff, hq.nodup⟩ hidle nofun, ?_, ?_⟩
    · refine hc.of_update ht rfl ?_ ?_ ?_ ?_ <;> simp [State.move]
    · exact fun u hu => ha.readers u (State.waiting_of_update (by decide) hu)
    · intro u _ hr
      have hr : s.nreaders + 1 = 0 := hr
      omega

/-- `StartScrit`, from the test of the `while` on.  It restores `Awaited`: the thread either
    writes, or waits for somebody who reads or writes. -/
theorem startScrit_inv {s : State T} {t : T} (hc : Counted s) (hq : Queued s)
    (ht : s.thread t = .idle) : Inv (startScrit s t) := by
  have hidle : ∀ cond, s.thread t ≠ .waiting cond := fun cond => ht ▸ Status.noConfusion
  have hnn := hc.nonneg
  unfold startScrit
  split
  next hw =>
    refine ⟨?_, Queued.wait ⟨hq.mem_iff, hq.nodup⟩ hidle, ?_, ?_⟩
    · refine hc.of_update ht rfl ?_ ?_ ?_ ?_ <;> simp [State.wait]
    · intro u _
      show 0 < s.nwriters + (s.nwaitingwriters + 1)
      omega
    · intro u _ hr hwr
      have hr : s.nreaders = 0 := hr
      have hwr : s.nwriters = 0 := hwr
      omega
  next hw =>
    refine ⟨?_, Queued.move ⟨hq.mem_iff, hq.nodup⟩ hidle nofun, ?_, ?_⟩
    · refine hc.of_update ht rfl ?_ ?_ ?_ ?_ <;> simp [State.move]
    · intro u _
      show 0 < s.nwriters + 1 + s.nwaitingwriters
      omega
    · intro u _ _ hwr
      have hwr : s.nwriters + 1 = 0 := hwr
      omega

/-- The last reader wakes a writer. -/
theorem stopCit_inv {s : State T} {t : T} (h : Inv s) (ht : s.thread t = .reading) :
    Inv (stopCit s t) := by
  obtain ⟨hc, hq, ha⟩ := h
  have hidle : ∀ cond, s.thread t ≠ .waiting cond := fun cond => ht ▸ Status.noConfusion
  have hc' : Counted ({ s with nreaders := s.nreaders - 1 }.move t .idle) := by
    refine hc.of_update ht rfl ?_ ?_ ?_ ?_ <;> simp [State.move]
  have hq' : Queued ({ s with nreaders := s.nreaders - 1 }.move t .idle) :=
    Queued.move ⟨hq.mem_iff, hq.nodup⟩ hidle nofun
  have hreaders : ∀ u, Function.update s.thread t .idle u = .waiting 0 →
      0 < s.nwriters + s.nwaitingwriters :=
    fun u hu => ha.readers u (State.waiting_of_update (by decide) hu)
  unfold stopCit
  dsimp only
  split
  -- The last reader signals a writer.
  next hlast =>
    refine ⟨hc'.signal hq', hq'.signal, ?_, ?_⟩
    · intro u hu
      rw [State.signal_nwriters, State.signal_nwaitingwriters]
      exact hreaders u (State.waiting_of_signal hu)
    · intro u hu _ _
      exact hq'.signal_signaled (State.waiting_of_signal hu)
  -- Other readers are left, or no writer waits.
  next hlast =>
    refine ⟨hc', hq', hreaders, ?_⟩
    intro u hu hr _
    exact absurd ⟨hr, hc'.nwaitingwriters_pos hu⟩ hlast

/-- A writer that stops wakes a writer, or all readers. -/
theorem stopScrit_inv {s : State T} {t : T} (h : Inv s) (ht : s.thread t = .writing) :
    Inv (stopScrit s t) := by
  obtain ⟨hc, hq, ha⟩ := h
  have hidle : ∀ cond, s.thread t ≠ .waiting cond := fun cond => ht ▸ Status.noConfusion
  have hc' : Counted ({ s with nwriters := s.nwriters - 1 }.move t .idle) := by
    refine hc.of_update ht rfl ?_ ?_ ?_ ?_ <;> simp [State.move]
  have hq' : Queued ({ s with nwriters := s.nwriters - 1 }.move t .idle) :=
    Queued.move ⟨hq.mem_iff, hq.nodup⟩ hidle nofun
  have hnn := hc'.nonneg
  unfold stopScrit
  dsimp only
  split
  next hw =>
    refine ⟨hc'.signal hq', hq'.signal, ?_, ?_⟩
    · intro u _
      rw [State.signal_nwriters, State.signal_nwaitingwriters]
      omega
    · intro u hu _ _
      exact hq'.signal_signaled (State.waiting_of_signal hu)
  next hw =>
    -- No writer waits, so nobody is left to wait once the readers are awake.
    split
    next hr =>
      refine ⟨hc'.broadcast hq', hq'.broadcast, ?_, ?_⟩
      · exact fun u hu => absurd hu hq'.broadcast_not_waiting
      · intro u hu
        have hwaiting := (Counted.broadcast hc' hq').nwaitingwriters_pos hu
        exact absurd hwaiting hw
    next hr =>
      refine ⟨hc', hq', ?_, ?_⟩
      · exact fun u hu => absurd (hc'.nwaitingreaders_pos hu) hr
      · exact fun u hu => absurd (hc'.nwaitingwriters_pos hu) hw

/-- A thread behind `Wait` tests its `while` again. -/
theorem resume_inv {s s' : State T} {t : T} (h : Inv s) (hs : resume s t = some s') : Inv s' := by
  obtain ⟨hc, hq, ha⟩ := h
  unfold resume at hs
  split at hs
  -- A reader: while it was signaled nothing depended on it.
  next ht =>
    cases hs
    have hsig : ∀ cond, s.thread t ≠ .waiting cond := fun cond => ht ▸ Status.noConfusion
    refine startCit_inv ⟨?_, Queued.move ⟨hq.mem_iff, hq.nodup⟩ hsig nofun, ?_, ?_⟩
      (Function.update_self ..)
    · refine hc.of_update ht rfl ?_ ?_ ?_ ?_ <;> simp [State.move]
    · exact fun u hu => ha.readers u (State.waiting_of_update (by decide) hu)
    · intro u hu hr hw
      obtain ⟨v, hv⟩ := ha.writers u (State.waiting_of_update (by decide) hu) hr hw
      have hvt : v ≠ t := fun e => by rw [e, ht] at hv; cases hv
      exact ⟨v, (Function.update_of_ne hvt ..).trans hv⟩
  -- A writer: it may be the one that `Awaited` relies on, but it tests its `while` at once.
  next ht =>
    cases hs
    have hsig : ∀ cond, s.thread t ≠ .waiting cond := fun cond => ht ▸ Status.noConfusion
    refine startScrit_inv ?_ (Queued.move ⟨hq.mem_iff, hq.nodup⟩ hsig nofun)
      (Function.update_self ..)
    refine hc.of_update ht rfl ?_ ?_ ?_ ?_ <;> simp [State.move]
  next => cases hs

/-- Every step keeps the invariant. -/
theorem step_inv {s s' : State T} {a : Action T} (h : Inv s) (hs : step s a = some s') :
    Inv s' := by
  cases a with
  | startCit t =>
    obtain ⟨ht, ⟨⟩⟩ := Option.ite_none_right_eq_some.mp hs
    exact startCit_inv h ht
  | stopCit t =>
    obtain ⟨ht, ⟨⟩⟩ := Option.ite_none_right_eq_some.mp hs
    exact stopCit_inv h ht
  | startScrit t =>
    obtain ⟨ht, ⟨⟩⟩ := Option.ite_none_right_eq_some.mp hs
    exact startScrit_inv h.counted h.queued ht
  | stopScrit t =>
    obtain ⟨ht, ⟨⟩⟩ := Option.ite_none_right_eq_some.mp hs
    exact stopScrit_inv h ht
  | resume t => exact resume_inv h hs

/-! ### Runs -/

/-- **Run.**  By induction: the invariant holds in all reachable states. -/
theorem reachable_inv {s : State T} (h : Reachable step createRWMonitor s) : Inv s :=
  h.invariant (I := Inv)
    ⟨createRWMonitor_counted, createRWMonitor_queued, createRWMonitor_awaited⟩
    fun _ _ _ => step_inv

/-- **No lost wake-up.**  In every reachable state in which a thread waits on condition 0 or 1
    without having been signaled, some thread reads, writes, or has been signaled and has not
    gone on yet. -/
theorem notStuck {s : State T} (h : Reachable step createRWMonitor s) {t : T}
    (ht : s.thread t = .waiting 0 ∨ s.thread t = .waiting 1) :
    ∃ u, s.thread u = .reading ∨ s.thread u = .writing ∨
      s.thread u = .signaled 0 ∨ s.thread u = .signaled 1 := by
  obtain ⟨hc, hq, ha⟩ := reachable_inv h
  -- A writer that waits: for a reader, for a writer, or it has been overtaken by a signal.
  have hwriter : ∀ u, s.thread u = .waiting 1 → ∃ u, s.thread u = .reading ∨
      s.thread u = .writing ∨ s.thread u = .signaled 0 ∨ s.thread u = .signaled 1 := by
    intro u hu
    by_cases hr : ∃ v, s.thread v = .reading
    · obtain ⟨v, hv⟩ := hr
      exact ⟨v, Or.inl hv⟩
    by_cases hw : ∃ v, s.thread v = .writing
    · obtain ⟨v, hv⟩ := hw
      exact ⟨v, Or.inr (Or.inl hv)⟩
    rw [← census_pos_iff, ← hc.readers] at hr
    rw [← census_pos_iff, ← hc.writers] at hw
    have hnn := hc.nonneg
    obtain ⟨v, hv⟩ := ha.writers u hu (by omega) (by omega)
    exact ⟨v, Or.inr (Or.inr (Or.inr hv))⟩
  rcases ht with ht | ht
  -- A reader waits for writers: one that writes, one that is signaled, or one that waits too.
  · have hpos := ha.readers t ht
    rw [hc.writers, hc.waitingwriters] at hpos
    rcases (census_nonneg s.thread .writing).lt_or_eq with hw | hw
    · obtain ⟨u, hu⟩ := (census_pos_iff ..).mp hw
      exact ⟨u, Or.inr (Or.inl hu)⟩
    rcases (census_nonneg s.thread (.signaled 1)).lt_or_eq with hs | hs
    · obtain ⟨u, hu⟩ := (census_pos_iff ..).mp hs
      exact ⟨u, Or.inr (Or.inr (Or.inr hu))⟩
    · obtain ⟨u, hu⟩ := (census_pos_iff s.thread (.waiting 1)).mp (by omega)
      exact hwriter u hu
  · exact hwriter t ht

/-- A reader waits for a writer. -/
theorem notStuck_reader : ∃ s, run step (createRWMonitor : State Bool)
      [.startScrit false, .startCit true] = some s ∧ s.thread true = .waiting 0 ∧
    ∃ u, s.thread u = .reading ∨ s.thread u = .writing ∨
      s.thread u = .signaled 0 ∨ s.thread u = .signaled 1 :=
  ⟨_, rfl, rfl, notStuck ⟨[.startScrit false, .startCit true], rfl⟩ (t := true) (Or.inl rfl)⟩

end WorkAtUPB.ReadersWriters
