import WorkAtUPB.FaultTolerantService.DistributedSort

namespace WorkAtUPB.FaultTolerantService

open Function Run

/-!
# FaultTolerantService — the main loop ends

Every reply brings the tasks closer to a single one: it takes a task from the queue, or turns the
operand that waits and another result into one merge.  A death only costs a round of the loop:

* `State.work` — replies that are still to come, at most;
* `State.potential` — steps that are still to come, if no more slaves die;
* `step_potential` — every step lowers it, and a death raises it by less than seven;
* `mainLoop_ends` — the loop ends after at most twelve steps for a task and seven for a death.
-/

/-- The answer of `is_process_alive` matters: a slave with a task is asked. -/
def State.asks (s : State) : Bool :=
  match s.pc with
  | .checkRecv _ it => decide (it < MAX_CHILDREN_NUMBER) && s.taskSent it
  | _ => false

/-- The step in which a slave is found dead. -/
def death (s : State) (alive : Bool) : Nat := if s.asks && !alive then 1 else 0

/-- The slaves that are found dead in a run. -/
def deaths (slavesSize : Nat) (s : State) (answers : List Bool) : Nat :=
  total (step slavesSize) death s answers

/-! ### The potential -/

/-- Twice the tasks in the queue or with a slave, and the operand that waits. -/
def State.work (s : State) : Nat :=
  2 * (s.manager.tasks.length + (s.manager.bufferedTasks s.currentSlave).toList.length) +
    s.manager.mergeTask1.toList.length

/-- The steps up to the next reply, or to the end of the loop. -/
def State.stage (s : State) : Nat :=
  match s.pc with
  | .done => 0
  | .head => 6
  | .search => 5
  | .checkRecv _ it => if s.ntasksToReceive = 0 then 7 + (4 - it) else 4 - it

/-- The steps that are still to come, if no slave dies. -/
def State.potential (s : State) : Nat := 6 * s.work + s.stage

/-- What is left to do between two rounds. -/
theorem Quiet.work_eq {s : State} (h : Quiet s) :
    s.work = 2 * s.manager.tasks.length + s.manager.mergeTask1.toList.length := by
  rw [State.work, h.buffered]
  rfl

/-- What is left to do within a round. -/
theorem Sent.work_eq {s : State} {task : Task} (h : Sent s task) :
    s.work = 2 * (s.manager.tasks.length + 1) + s.manager.mergeTask1.toList.length := by
  rw [State.work, h.buffered, update_self]
  rfl

/-- A task that is sent is still to be solved. -/
theorem work_sendTask {s s' : State} (hq : Quiet s) (hsend : s.sendTask = some s') :
    s'.work = s.work ∧ s'.pc = .checkRecv false 0 ∧ s'.ntasksToReceive = 1 := by
  cases htasks : s.manager.tasks with
  | nil =>
    rw [State.sendTask, TasksManager.removeTaskFor, TasksManager.removeTask, htasks] at hsend
    cases hsend
  | cons task tasks =>
    rw [State.sendTask, removeTaskFor_cons htasks, Option.map_some, Option.some.injEq] at hsend
    subst hsend
    refine ⟨?_, rfl, ?_⟩
    · rw [hq.work_eq, htasks, State.work]
      dsimp only
      rw [update_self]
      simp
    · show s.ntasksToReceive + 1 = 1
      rw [hq.toReceive]
      rfl

/-- The task of a dead slave is still to be solved. -/
theorem work_slaveFailed {s : State} {task : Task} (hs : Sent s task) :
    (s.slaveFailed s.currentSlave).work = s.work := by
  have hbuf : s.manager.bufferedTasks s.currentSlave = some task := by
    rw [hs.buffered, update_self]
  have hpending : (s.slaveFailed s.currentSlave).manager.mergeTask1 = s.manager.mergeTask1 :=
    mergeTask1_setTaskFailed s.manager s.currentSlave
  have htasks : (s.slaveFailed s.currentSlave).manager.tasks =
      s.manager.tasks ++ [task.setTaskStatus TASK_NOT_SOLVED] := by
    show (s.manager.setTaskFailed s.currentSlave).tasks = _
    rw [TasksManager.setTaskFailed, hbuf]
    rfl
  rw [hs.slaveFailed.1.work_eq, hs.work_eq, hpending, htasks, List.length_append,
    List.length_singleton]

/-- Every reply leaves less work. -/
theorem work_receiveTask {s s' : State} {task : Task} (h : Accounted s) (hs : Sent s task)
    (hreceive : s.receiveTask s.currentSlave = some s') : s'.work + 1 = s.work := by
  have hcomm : s.comm s.currentSlave = [writeTask task] := by rw [hs.comm, update_self]
  rw [State.receiveTask, hcomm] at hreceive
  obtain ⟨reply, hreply, hreceive⟩ := Option.bind_eq_some_iff.mp hreceive
  obtain ⟨data, -, rfl⟩ := worker_eq_some hreply
  have hread : readTask (writeTask (sortTask data)) = some (sortTask data) :=
    readTask_writeTask (sortTask data)
  rw [hread, Option.map_some, Option.some.injEq] at hreceive
  rw [hs.work_eq, ← hreceive, State.work]
  rcases putMergeTask_setTaskSuccessed s.manager s.currentSlave data h.pending with
    ⟨hnone, hput⟩ | ⟨data1, hsome, hput⟩
  -- The result waits for a second one.
  · rw [hput, hnone]
    dsimp only
    rw [update_self]
    simp
    omega
  -- Two results become one task.
  · rw [hput, hsome]
    dsimp only
    rw [update_self]
    simp

/-! ### The steps -/

/-- A round of the check after a task was sent. -/
theorem potential_checkRecv {s s' : State} (h : Accounted s) {it : Nat}
    (hpc : s.pc = .checkRecv false it)
    (hplace : Quiet s ∨ ∃ task, Sent s task ∧ it ≤ s.currentSlave) {alive : Bool}
    (hstep : s.checkRecvFromSlaves false it alive = some s') :
    s'.potential + 1 ≤ s.potential + 7 * death s alive := by
  have hslave := h.slave
  unfold MAX_CHILDREN_NUMBER at hslave
  have hstage : s.stage = if s.ntasksToReceive = 0 then 7 + (4 - it) else 4 - it := by
    rw [State.stage, hpc]
  unfold State.checkRecvFromSlaves MAX_CHILDREN_NUMBER at hstep
  rw [State.potential, State.potential, hstage]
  rcases hplace with hq | ⟨task, hs, hit⟩
  -- No slave has a task: the other slaves are skipped.
  · rw [if_pos hq.toReceive]
    by_cases hmax : 4 ≤ it
    · rw [if_pos hmax, Option.some.injEq] at hstep
      subst hstep
      show 6 * s.work + 6 + 1 ≤ _
      omega
    · rw [if_neg hmax, if_pos (by rw [hq.taskSent]), Option.some.injEq] at hstep
      subst hstep
      have hnext : ({ s with pc := .checkRecv false (it + 1) } : State).stage =
          7 + (4 - (it + 1)) :=
        if_pos hq.toReceive
      show 6 * s.work + _ + 1 ≤ _
      rw [hnext]
      omega
  · have hone : ¬ s.ntasksToReceive = 0 := by
      rw [hs.toReceive]
      decide
    rw [if_neg hone]
    rw [if_neg (by omega)] at hstep
    by_cases hcur : it = s.currentSlave
    · subst hcur
      have hsent : s.taskSent s.currentSlave = true := by rw [hs.taskSent, update_self]
      rw [if_neg (by rw [hsent]; decide)] at hstep
      cases alive with
      -- The reply ends the check.
      | true =>
        rw [if_pos rfl] at hstep
        obtain ⟨t, ht, rfl⟩ := Option.map_eq_some_iff.mp hstep
        have hwork := work_receiveTask h hs ht
        show 6 * t.work + 6 + 1 ≤ _
        omega
      -- The slave is replaced, and the check goes on with the next one.
      | false =>
        rw [if_neg Bool.false_ne_true, Option.some.injEq] at hstep
        subst hstep
        have hasks : s.asks = true := by
          rw [State.asks, hpc]
          simp [hsent, h.slave]
        have hdeath : death s false = 1 := by rw [death, hasks]; rfl
        have hwork := work_slaveFailed hs
        have hnext : ({ s.slaveFailed s.currentSlave with
            pc := .checkRecv false (s.currentSlave + 1) } : State).stage =
              7 + (4 - (s.currentSlave + 1)) := if_pos hs.slaveFailed.1.toReceive
        show 6 * (s.slaveFailed s.currentSlave).work + _ + 1 ≤ _
        rw [hnext, hdeath]
        omega
    · rw [if_pos (by rw [hs.taskSent, update_of_ne hcur]), Option.some.injEq] at hstep
      subst hstep
      have hnext : ({ s with pc := .checkRecv false (it + 1) } : State).stage = 4 - (it + 1) :=
        if_neg hone
      show 6 * s.work + _ + 1 ≤ _
      rw [hnext]
      omega

/-- **Progress.**  Every step lowers the potential, unless it finds a slave dead. -/
theorem step_potential {s s' : State} (h : Accounted s) {slavesSize : Nat} {alive : Bool}
    (hstep : step slavesSize s alive = some s') :
    s'.potential + 1 ≤ s.potential + 7 * death s alive := by
  have hplace := h.place
  unfold AtPc at hplace
  unfold step at hstep
  cases hpc : s.pc with
  | head =>
    rw [hpc] at hplace hstep
    cases hstep
    rw [hplace.iterate_eq]
    have hstage : s.stage = 6 := by rw [State.stage, hpc]
    rw [State.potential, State.potential, hstage]
    -- With two tasks or more one is sent; with fewer the loop is left.
    by_cases hlen : 1 < s.manager.tasks.length
    · rw [if_pos hlen]
      show 6 * s.work + 5 + 1 ≤ _
      omega
    · rw [if_neg hlen]
      show 6 * s.work + 0 + 1 ≤ _
      omega
  | search =>
    rw [hpc] at hplace hstep
    dsimp only at hstep
    rw [State.searchSlave, if_pos (by rw [hplace.1.taskSent])] at hstep
    -- No slave has a task, so the current one is free.
    obtain ⟨hwork, hpc', hone⟩ := work_sendTask hplace.1 hstep
    have hstage : s.stage = 5 := by rw [State.stage, hpc]
    have hstage' : s'.stage = 4 := by
      rw [State.stage, hpc']
      dsimp only
      rw [hone]
      rfl
    rw [State.potential, State.potential, hwork, hstage, hstage']
    omega
  | checkRecv inSearch it =>
    rw [hpc] at hplace hstep
    cases inSearch with
    -- The search finds a slave at once and asks for no replies.
    | true => exact hplace.elim
    | false => exact potential_checkRecv h hpc hplace hstep
  | done =>
    rw [hpc] at hstep
    cases hstep

/-! ### Whole runs -/

/-- The accounts are right, and the size of an array of all numbers is an `int`. -/
structure Sized (s : State) : Prop where
  accounted : Accounted s
  card : s.pool.numbers.card < 2 ^ 31

/-- The loop is never stuck. -/
theorem Sized.step_isSome {s : State} (h : Sized s) (hpc : s.pc ≠ .done) (slavesSize : Nat)
    (alive : Bool) : ∃ s', step slavesSize s alive = some s' := by
  refine Option.isSome_iff_exists.mp (h.accounted.step_isSome hpc (fun task htask => ?_) slavesSize
    alive)
  -- The task that the slave has is a part of the pool.
  have hbuffered : s.manager.bufferedTasks s.currentSlave = some task := htask
  have hpool : s.pool = ⟨s.manager.tasks, s.manager.mergeTask1, some task⟩ := by
    rw [State.pool, hbuffered]
  have hle := length_inFlight_le task s.manager.tasks s.manager.mergeTask1
  rw [← hpool] at hle
  exact hle.trans_lt h.card

/-- **Step.**  The accounts are kept, and the number of numbers. -/
theorem Sized.step {slavesSize : Nat} {s s' : State} {alive : Bool} (h : Sized s)
    (hstep : step slavesSize s alive = some s') : Sized s' := by
  obtain ⟨hacc, hpstep⟩ := step_accounted h.accounted hstep
  exact ⟨hacc, by rw [hpstep.numbers_eq h.card]; exact h.card⟩

/-- What `is_process_alive` has answered in the first `k` steps. -/
def answersUpTo (answers : Nat → Bool) (k : Nat) : List Bool := (List.range k).map answers

/-- Where every answer is that the slave is alive, no slave is found dead. -/
theorem deaths_alive (slavesSize : Nat) (s : State) (k : Nat) :
    deaths slavesSize s (answersUpTo (fun _ => true) k) = 0 := by
  rw [answersUpTo, List.map_const', List.length_range]
  induction k generalizing s with
  | zero => rfl
  | succ k ih =>
    have halive : death s true = 0 := by simp [death]
    rw [List.replicate_succ]
    unfold deaths total
    rw [halive, Nat.zero_add]
    cases step slavesSize s true with
    | none => rfl
    | some s' => exact ih s'

/-- **The loop ends.**  Start `main_loop` with a fresh manager of fewer than `2 ^ 31` numbers and
    let the slaves answer in any way, but with no more than `n` of them found dead: the loop is left
    after at most twelve steps for each task of the queue, seven for each of the dead slaves, and
    six more. -/
theorem mainLoop_ends (m : TasksManager) (hm : m.Fresh)
    (hcard : (mainLoop m).pool.numbers.card < 2 ^ 31) (slavesSize : Nat) (answers : Nat → Bool)
    (n : Nat) (hdeaths : ∀ k, deaths slavesSize (mainLoop m) (answersUpTo answers k) ≤ n) :
    ∃ k ≤ 12 * m.tasks.length + 6 + 7 * n, ∃ s,
      run (step slavesSize) (mainLoop m) (answersUpTo answers k) = some s ∧ s.pc = .done := by
  have hacc := accounted_mainLoop hm
  have hstart : (mainLoop m).potential = 12 * m.tasks.length + 6 := by
    have hquiet : Quiet (mainLoop m) := hacc.place
    have hstage : (mainLoop m).stage = 6 := rfl
    have htasks : (mainLoop m).manager.tasks = m.tasks := rfl
    have hpending : (mainLoop m).manager.mergeTask1 = none := hm.pending
    rw [State.potential, hquiet.work_eq, hstage, htasks, hpending, Option.toList_none,
      List.length_nil]
    omega
  obtain ⟨k, hk, s, hs, hdone⟩ := run_reaches (I := Sized)
    (fun s alive => 7 * death s alive) (fun s alive s' => Sized.step)
    (fun s alive s' h hstep => step_potential h.accounted hstep)
    (fun s alive h hpc => h.step_isSome hpc slavesSize alive) ⟨hacc, hcard⟩ answers
    (fun k => (total_mul 7 _ _).trans_le (Nat.mul_le_mul_left 7 (hdeaths k)))
  exact ⟨k, hstart ▸ hk, s, hs, hdone⟩

end WorkAtUPB.FaultTolerantService
