import WorkAtUPB.FaultTolerantService.MainLoop
import WorkAtUPB.FaultTolerantService.Pool

namespace WorkAtUPB.FaultTolerantService

open Function Run

/-!
# FaultTolerantService — the accounts of the master

What the counters, the flags, the buffered tasks and the messages say about each other, at
every place of `main_loop`:

* `Quiet`, `Sent` — no slave has a task, or the current slave has one;
* `Accounted` — the invariant of the loop: the search is entered with two tasks at least, so
  that the current slave is free and no second one is ever asked;
* `step_accounted` — every step keeps the invariant, and does to the pool of tasks what a
  `Pool.Step` does;
* `Accounted.step_isSome` — no step is stuck, unless the result of the task with a slave is too
  large;
* `reachable_accounted` — so the invariant holds in every reachable state, together with any
  invariant of the pool.
-/

/-- The pool that the variables of the master describe. -/
def State.pool (s : State) : Pool where
  queue := s.manager.tasks
  pending := s.manager.mergeTask1
  inFlight := s.manager.bufferedTasks s.currentSlave

/-- No slave has a task. -/
structure Quiet (s : State) : Prop where
  taskSent : s.taskSent = fun _ => false
  comm : s.comm = fun _ => []
  buffered : s.manager.bufferedTasks = fun _ => none
  toReceive : s.ntasksToReceive = 0
  inQueue : s.ntasksInQueue = s.manager.tasks.length

/-- The current slave has `task`, and no other slave has one. -/
structure Sent (s : State) (task : Task) : Prop where
  taskSent : s.taskSent = update (fun _ => false) s.currentSlave true
  comm : s.comm = update (fun _ => []) s.currentSlave [writeTask task]
  buffered : s.manager.bufferedTasks = update (fun _ => none) s.currentSlave (some task)
  toReceive : s.ntasksToReceive = 1
  inQueue : s.ntasksInQueue = s.manager.tasks.length + 1

/-- What holds at the places of the loop. -/
def AtPc (s : State) : Prop :=
  match s.pc with
  | .head => Quiet s
  | .search => Quiet s ∧ 1 < s.manager.tasks.length
  | .checkRecv true _ => False
  | .checkRecv false it => Quiet s ∨ ∃ task, Sent s task ∧ it ≤ s.currentSlave
  | .done => Quiet s ∧ s.manager.tasks.length ≤ 1

/-- The invariant of `main_loop`. -/
structure Accounted (s : State) : Prop where
  slave : s.currentSlave < MAX_CHILDREN_NUMBER
  pending : ∀ task ∈ s.manager.mergeTask1, ∃ data, task = sortTask data
  place : AtPc s

/-- A state that goes on as `s` did, with all but the place as before. -/
theorem Quiet.setPc {s : State} (h : Quiet s) (pc : Pc) : Quiet { s with pc := pc } :=
  ⟨h.taskSent, h.comm, h.buffered, h.toReceive, h.inQueue⟩

/-- The place in the loop does not matter. -/
theorem Sent.setPc {s : State} {task : Task} (h : Sent s task) (pc : Pc) :
    Sent { s with pc := pc } task :=
  ⟨h.taskSent, h.comm, h.buffered, h.toReceive, h.inQueue⟩

/-- A sent task is off the books again when the entry of its slave is cleared. -/
theorem update_update_const {β : Type*} {f : Nat → β} {b x : β} {i : Nat}
    (hf : f = update (fun _ => b) i x) : update f i b = fun _ => b := by
  rw [hf, update_idem, update_eq_self_iff]

/-- Between two rounds the pool is the queue. -/
theorem Quiet.pool_eq {s : State} (h : Quiet s) :
    s.pool = ⟨s.manager.tasks, s.manager.mergeTask1, none⟩ := by
  rw [State.pool, h.buffered]

/-- Within a round it has the task with the slave, too. -/
theorem Sent.pool_eq {s : State} {task : Task} (h : Sent s task) :
    s.pool = ⟨s.manager.tasks, s.manager.mergeTask1, some task⟩ := by
  rw [State.pool, h.buffered, update_self]

/-! ### The start -/

/-- A manager whose slaves have nothing to do, and that has no operand yet, as it is after
    `putTask` only. -/
structure TasksManager.Fresh (m : TasksManager) : Prop where
  pending : m.mergeTask1 = none
  buffered : m.bufferedTasks = fun _ => none

/-- The loop may also start with a first operand of a merge, as it does on a backup master. -/
theorem accounted_start {m : TasksManager} (hbuffered : m.bufferedTasks = fun _ => none)
    (hpending : ∀ task ∈ m.mergeTask1, ∃ data, task = sortTask data) :
    Accounted (mainLoop m) where
  slave := Nat.succ_pos 3
  pending := hpending
  place := ⟨rfl, rfl, hbuffered, rfl, rfl⟩

/-- The queue of a fresh manager is in order. -/
theorem accounted_mainLoop {m : TasksManager} (hm : m.Fresh) : Accounted (mainLoop m) := by
  refine accounted_start hm.buffered fun task htask => ?_
  rw [hm.pending] at htask
  cases htask

/-! ### The steps -/

/-- At the head of the loop the counters are exact, and the loop goes on while there are two
    tasks. -/
theorem Quiet.iterate_eq {s : State} (h : Quiet s) :
    s.iterate = { s with pc := if 1 < s.manager.tasks.length then .search else .done } := by
  have hr := h.toReceive
  have hq := h.inQueue
  unfold State.iterate
  by_cases hlen : 1 < s.manager.tasks.length
  · rw [if_pos (by omega), if_pos (by omega), if_pos hlen]
  · rw [if_neg hlen]
    by_cases hone : s.manager.tasks.length = 1
    -- One task: the `break`.  None: the condition of the loop fails.
    · rw [if_pos (by omega), if_neg (by omega), if_pos (by omega)]
    · rw [if_neg (by omega)]

/-- The next round begins with the same queue. -/
theorem Accounted.iterate {s : State} (h : Accounted s) (hq : Quiet s) :
    Accounted s.iterate ∧ s.pool.Step s.iterate.pool := by
  rw [hq.iterate_eq]
  refine ⟨⟨h.slave, h.pending, ?_⟩, .quiet _⟩
  by_cases hlen : 1 < s.manager.tasks.length
  · rw [if_pos hlen]
    exact ⟨hq.setPc _, hlen⟩
  · rw [if_neg hlen]
    exact ⟨hq.setPc _, Nat.le_of_not_lt hlen⟩

/-- The first task of the queue is taken or passed over. -/
theorem removeTaskFor_cons {m : TasksManager} {task : Task} {tasks : List Task}
    (h : m.tasks = task :: tasks) (slave : Nat) :
    m.removeTaskFor slave = some (task.setTaskStatus TASK_IN_PROGRESS,
      { m with
        tasks := tasks
        bufferedTasks :=
          update m.bufferedTasks slave (some (task.setTaskStatus TASK_IN_PROGRESS)) }) := by
  rw [TasksManager.removeTaskFor, TasksManager.removeTask, h]
  rfl

/-- The first task of the queue goes to the current slave. -/
theorem Accounted.sendTask {s : State} (h : Accounted s) (hq : Quiet s)
    (hlen : 1 < s.manager.tasks.length) :
    ∃ s', s.sendTask = some s' ∧ Accounted s' ∧ s.pool.Step s'.pool := by
  obtain ⟨task, tasks, htasks⟩ := List.exists_cons_of_length_pos (Nat.zero_lt_of_lt hlen)
  -- The search was entered with two tasks, so one is left in the queue.
  have hne : tasks ≠ [] := by
    rintro rfl
    rw [htasks, List.length_singleton] at hlen
    omega
  rw [State.sendTask, removeTaskFor_cons htasks, Option.map_some]
  dsimp only
  refine ⟨_, rfl, ⟨h.slave, h.pending, Or.inr ⟨task.setTaskStatus TASK_IN_PROGRESS, ?_,
    Nat.zero_le _⟩⟩, ?_⟩
  · refine ⟨?_, ?_, ?_, ?_, ?_⟩ <;> dsimp only
    · rw [hq.taskSent]
    · rw [hq.comm]
      rfl
    · rw [hq.buffered]
    · rw [hq.toReceive]
      rfl
    · rw [hq.inQueue, htasks, List.length_cons, Nat.cast_succ]
  · rw [hq.pool_eq, htasks]
    unfold State.pool
    dsimp only
    rw [update_self]
    exact .dispatch task tasks _ hne

/-- A task that failed waits again. -/
theorem mergeTask1_setTaskFailed (m : TasksManager) (slave : Nat) :
    (m.setTaskFailed slave).mergeTask1 = m.mergeTask1 := by
  unfold TasksManager.setTaskFailed
  cases m.bufferedTasks slave <;> rfl

/-- The task of a dead slave goes back into the queue. -/
theorem Sent.slaveFailed {s : State} {task : Task} (hs : Sent s task) :
    Quiet (s.slaveFailed s.currentSlave) ∧
      s.pool.Step (s.slaveFailed s.currentSlave).pool := by
  have hbuf : s.manager.bufferedTasks s.currentSlave = some task := by
    rw [hs.buffered, update_self]
  -- The task is put behind the queue, with its first status.
  have hfailed : s.manager.setTaskFailed s.currentSlave =
      { s.manager with
        tasks := s.manager.tasks ++ [task.setTaskStatus TASK_NOT_SOLVED]
        bufferedTasks := fun _ => none } := by
    rw [TasksManager.setTaskFailed, hbuf]
    show TasksManager.mk _ _ (update s.manager.bufferedTasks _ none) = _
    rw [update_update_const hs.buffered]
    rfl
  have hquiet : Quiet (s.slaveFailed s.currentSlave) := by
    refine ⟨update_update_const hs.taskSent, update_update_const hs.comm, ?_, ?_, ?_⟩
    · exact congrArg TasksManager.bufferedTasks hfailed
    · show s.ntasksToReceive - 1 = 0
      rw [hs.toReceive]
      rfl
    · show s.ntasksInQueue = (s.manager.setTaskFailed s.currentSlave).tasks.length
      rw [hs.inQueue, hfailed, List.length_append, List.length_singleton, Nat.cast_succ]
  refine ⟨hquiet, ?_⟩
  rw [hs.pool_eq, hquiet.pool_eq]
  show Pool.Step _ ⟨(s.manager.setTaskFailed s.currentSlave).tasks,
    (s.manager.setTaskFailed s.currentSlave).mergeTask1, none⟩
  rw [hfailed]
  exact .fail task _ _

/-- What `putMergeTask` does with a reply when no slave has a task any more. -/
theorem putMergeTask_setTaskSuccessed (m : TasksManager) (slave : Nat) (data : List Int)
    (hpending : ∀ task ∈ m.mergeTask1, ∃ data, task = sortTask data) :
    (m.mergeTask1 = none ∧ (m.setTaskSuccessed slave).putMergeTask (sortTask data) =
      (false, { m with
        mergeTask1 := some (sortTask data)
        bufferedTasks := update m.bufferedTasks slave none })) ∨
    ∃ data1, m.mergeTask1 = some (sortTask data1) ∧
      (m.setTaskSuccessed slave).putMergeTask (sortTask data) =
        (true, { m with
          tasks := m.tasks ++ [mergeTask data1 data]
          mergeTask1 := none
          bufferedTasks := update m.bufferedTasks slave none }) := by
  cases hm : m.mergeTask1 with
  | none =>
    refine Or.inl ⟨rfl, ?_⟩
    rw [TasksManager.putMergeTask, TasksManager.setTaskSuccessed]
    dsimp only
    rw [hm]
  | some task1 =>
    obtain ⟨data1, rfl⟩ := hpending task1 hm
    refine Or.inr ⟨data1, rfl, ?_⟩
    rw [TasksManager.putMergeTask, TasksManager.setTaskSuccessed]
    dsimp only
    rw [hm]
    rfl

/-- A living slave's reply is the result of its task, which becomes an operand of a merge. -/
theorem Accounted.receiveTask {s s' : State} {task : Task} (h : Accounted s) (hs : Sent s task)
    (hreceive : s.receiveTask s.currentSlave = some s') :
    Quiet s' ∧ s'.currentSlave = s.currentSlave ∧
      (∀ task ∈ s'.manager.mergeTask1, ∃ data, task = sortTask data) ∧
      s.pool.Step s'.pool := by
  -- The slave was sent `task` and nothing else, so the reply is the result of `task`.
  have hcomm : s.comm s.currentSlave = [writeTask task] := by rw [hs.comm, update_self]
  rw [State.receiveTask, hcomm] at hreceive
  obtain ⟨reply, hreply, hreceive⟩ := Option.bind_eq_some_iff.mp hreceive
  obtain ⟨data, hresult, rfl⟩ := worker_eq_some hreply
  have hread : readTask (writeTask (sortTask data)) = some (sortTask data) :=
    readTask_writeTask (sortTask data)
  rw [hread, Option.map_some, Option.some.injEq] at hreceive
  have hr : s.ntasksToReceive - 1 = 0 := by
    rw [hs.toReceive]
    rfl
  have hq := hs.inQueue
  rw [← hreceive]
  rcases putMergeTask_setTaskSuccessed s.manager s.currentSlave data h.pending with
    ⟨hnone, hput⟩ | ⟨data1, hsome, hput⟩
  -- A first operand is kept: the queue and its counter lose the task.
  · rw [hput]
    refine ⟨⟨update_update_const hs.taskSent, update_update_const hs.comm,
      update_update_const hs.buffered, hr, ?_⟩, rfl, ?_, ?_⟩
    · show s.ntasksInQueue - 1 + 0 = s.manager.tasks.length
      omega
    · rintro _ ⟨⟩
      exact ⟨data, rfl⟩
    · rw [hs.pool_eq, hnone]
      unfold State.pool
      dsimp only
      rw [update_self]
      exact .first task _ data hresult
  -- A second operand makes a task with the first: queue and counter get it back.
  · rw [hput]
    refine ⟨⟨update_update_const hs.taskSent, update_update_const hs.comm,
      update_update_const hs.buffered, hr, ?_⟩, rfl, nofun, ?_⟩
    · show s.ntasksInQueue - 1 + 1 = ((s.manager.tasks ++ [mergeTask data1 data]).length : Nat)
      rw [List.length_append, List.length_singleton]
      omega
    · rw [hs.pool_eq, hsome]
      unfold State.pool
      dsimp only
      rw [update_self]
      exact .second task _ data1 data hresult

/-- A round of the check after a task was sent: the other slaves are skipped, and the answer
    of the current one decides what becomes of the task. -/
theorem Accounted.checkRecvFromSlaves {s s' : State} (h : Accounted s) {it : Nat}
    (hpc : Quiet s ∨ ∃ task, Sent s task ∧ it ≤ s.currentSlave) {alive : Bool}
    (hstep : s.checkRecvFromSlaves false it alive = some s') :
    Accounted s' ∧ s.pool.Step s'.pool := by
  unfold State.checkRecvFromSlaves at hstep
  rcases hpc with hq | ⟨task, hs, hit⟩
  -- No slave has a task: the rest of the slaves are skipped.
  · by_cases hmax : MAX_CHILDREN_NUMBER ≤ it
    · rw [if_pos hmax, Option.some.injEq] at hstep
      subst hstep
      exact ⟨⟨h.slave, h.pending, hq.setPc _⟩, .quiet _⟩
    · rw [if_neg hmax, if_pos (by rw [hq.taskSent]), Option.some.injEq] at hstep
      subst hstep
      exact ⟨⟨h.slave, h.pending, Or.inl (hq.setPc _)⟩, .quiet _⟩
  -- The slave with the task is still ahead, or it is its turn.
  · have hslave := h.slave
    rw [if_neg (by omega)] at hstep
    by_cases hcur : it = s.currentSlave
    · subst hcur
      rw [if_neg (by rw [hs.taskSent, update_self]; decide)] at hstep
      cases alive with
      | true =>
        rw [if_pos rfl] at hstep
        obtain ⟨t, hreceive, rfl⟩ := Option.map_eq_some_iff.mp hstep
        obtain ⟨hquiet, hcur, hpending, hpstep⟩ := h.receiveTask hs hreceive
        exact ⟨⟨hcur ▸ h.slave, hpending, hquiet.setPc _⟩, hpstep⟩
      | false =>
        rw [if_neg Bool.false_ne_true, Option.some.injEq] at hstep
        subst hstep
        obtain ⟨hquiet, hpstep⟩ := hs.slaveFailed
        refine ⟨⟨h.slave, ?_, Or.inl (hquiet.setPc _)⟩, hpstep⟩
        show ∀ task ∈ (s.manager.setTaskFailed s.currentSlave).mergeTask1, _
        rw [mergeTask1_setTaskFailed]
        exact h.pending
    · rw [if_pos (by rw [hs.taskSent, update_of_ne hcur]), Option.some.injEq] at hstep
      subst hstep
      exact ⟨⟨h.slave, h.pending,
        Or.inr ⟨task, hs.setPc _, Nat.lt_of_le_of_ne hit hcur⟩⟩, .quiet _⟩

/-- **A step of the master.**  Whatever the slaves answer, it keeps the accounts, and moves the
    tasks as a pool does. -/
theorem step_accounted {s s' : State} (h : Accounted s) {slavesSize : Nat} {alive : Bool}
    (hstep : step slavesSize s alive = some s') : Accounted s' ∧ s.pool.Step s'.pool := by
  have hplace := h.place
  unfold AtPc at hplace
  unfold step at hstep
  cases hs : s.pc with
  | head =>
    rw [hs] at hplace hstep
    cases hstep
    exact h.iterate hplace
  | search =>
    rw [hs] at hplace hstep
    obtain ⟨hq, hlen⟩ := hplace
    dsimp only at hstep
    rw [State.searchSlave, if_pos (by rw [hq.taskSent])] at hstep
    obtain ⟨t, hsend, hacc, hpstep⟩ := h.sendTask hq hlen
    obtain rfl : t = s' := Option.some.inj (hsend.symm.trans hstep)
    exact ⟨hacc, hpstep⟩
  | checkRecv inSearch it =>
    rw [hs] at hplace hstep
    cases inSearch with
    -- The check inside the search is never reached: the current slave was free.
    | true => exact hplace.elim
    | false => exact h.checkRecvFromSlaves hplace hstep
  | done =>
    rw [hs] at hstep
    cases hstep

/-- **The master goes on.**  Before the end of the loop no step of the master is stuck, whatever the
    slaves answer, unless it is to receive a result whose size is no `int`. -/
theorem Accounted.step_isSome {s : State} (h : Accounted s) (hpc : s.pc ≠ .done)
    (hsize : ∀ task ∈ s.manager.bufferedTasks s.currentSlave, task.numbers.length < 2 ^ 31)
    (slavesSize : Nat) (alive : Bool) : (step slavesSize s alive).isSome := by
  have hplace := h.place
  unfold AtPc at hplace
  unfold step
  cases hs : s.pc with
  | head => rfl
  | search =>
    rw [hs] at hplace
    obtain ⟨hq, hlen⟩ := hplace
    obtain ⟨t, hsend, -⟩ := h.sendTask hq hlen
    dsimp only
    rw [State.searchSlave, if_pos (by rw [hq.taskSent]), hsend]
    rfl
  | checkRecv inSearch it =>
    rw [hs] at hplace
    cases inSearch with
    | true => exact hplace.elim
    | false =>
      dsimp only
      unfold State.checkRecvFromSlaves
      -- Only a slave that replies is asked for its result.
      split
      · rfl
      split
      · rfl
      split
      · next hbusy _ =>
        rcases hplace with hq | ⟨task, hsent, -⟩
        · exact absurd (by rw [hq.taskSent]) hbusy
        have hcur : it = s.currentSlave := by
          by_contra hne
          exact hbusy (by rw [hsent.taskSent, update_of_ne hne])
        have hbuffered : s.manager.bufferedTasks s.currentSlave = some task := by
          rw [hsent.buffered, update_self]
        obtain ⟨data, hreply, -⟩ := worker_spec task (hsize task hbuffered)
        have hread : readTask (writeTask (sortTask data)) = some (sortTask data) :=
          readTask_writeTask (sortTask data)
        have hcomm : s.comm it = [writeTask task] := by rw [hsent.comm, hcur, update_self]
        rw [State.receiveTask, hcomm]
        dsimp only
        rw [hreply, Option.bind_some, hread]
        rfl
      · rfl
  | done => exact absurd hs hpc

/-- **Runs of the master.**  In every state that a run of `main_loop` reaches from a start with
    right accounts the accounts are right, and what the steps of a pool keep holds of the
    tasks. -/
theorem reachable_accounted_of {m : TasksManager} (hm : Accounted (mainLoop m)) {I : Pool → Prop}
    (hI : ∀ p p', I p → p.Step p' → I p') (h0 : I (mainLoop m).pool) {slavesSize : Nat}
    {s : State} (hs : Reachable (step slavesSize) (mainLoop m) s) : Accounted s ∧ I s.pool := by
  refine hs.invariant (I := fun s => Accounted s ∧ I s.pool) ⟨hm, h0⟩ ?_
  rintro s alive s' ⟨hacc, hpool⟩ hstep
  obtain ⟨hacc', hpstep⟩ := step_accounted hacc hstep
  exact ⟨hacc', hI _ _ hpool hpstep⟩

/-- **Run.**  By induction: the accounts are kept, and so is what pools keep. -/
theorem reachable_accounted {m : TasksManager} (hm : m.Fresh) {I : Pool → Prop}
    (hI : ∀ p p', I p → p.Step p' → I p') (h0 : I (mainLoop m).pool) {slavesSize : Nat}
    {s : State} (hs : Reachable (step slavesSize) (mainLoop m) s) : Accounted s ∧ I s.pool :=
  reachable_accounted_of (accounted_mainLoop hm) hI h0 hs

/-! ### The head of the loop -/

/-- The master leaves the loop by the `break` only, with one task in the queue. -/
theorem Accounted.leaves {s s' : State} (h : Accounted s) (hne : s.manager.tasks ≠ [])
    {slavesSize : Nat} {alive : Bool} (hstep : step slavesSize s alive = some s')
    (hdone : s'.pc = .done) :
    s.pc = .head ∧ s.ntasksInQueue + s.ntasksToReceive > 0 ∧ s.ntasksInQueue = 1 ∧
      s.ntasksToReceive = 0 ∧ ∃ task, s'.manager.tasks = [task] := by
  have hplace := h.place
  unfold AtPc at hplace
  unfold step at hstep
  cases hs : s.pc with
  | head =>
    rw [hs] at hplace hstep
    cases hstep
    have hlen : ¬ 1 < s.manager.tasks.length := by
      intro hlen
      rw [hplace.iterate_eq, if_pos hlen] at hdone
      cases hdone
    have hpos := List.length_pos_iff.mpr hne
    have hq := hplace.inQueue
    have hr := hplace.toReceive
    refine ⟨rfl, by omega, by omega, hr, ?_⟩
    rw [hplace.iterate_eq]
    show ∃ task, s.manager.tasks = [task]
    exact List.length_eq_one_iff.mp (by omega)
  | search =>
    rw [hs] at hplace hstep
    have hfree : s.taskSent s.currentSlave = false := by rw [hplace.1.taskSent]
    dsimp only at hstep
    rw [State.searchSlave, if_pos hfree, State.sendTask] at hstep
    obtain ⟨_, -, rfl⟩ := Option.map_eq_some_iff.mp hstep
    cases hdone
  | checkRecv inSearch it =>
    rw [hs] at hplace hstep
    cases inSearch with
    | true => exact hplace.elim
    | false =>
      -- The check goes on with the next slave, or back to the head of the loop.
      dsimp only at hstep
      unfold State.checkRecvFromSlaves at hstep
      split at hstep
      · cases hstep
        cases hdone
      split at hstep
      · cases hstep
        cases hdone
      split at hstep
      · obtain ⟨_, -, rfl⟩ := Option.map_eq_some_iff.mp hstep
        cases hdone
      · cases hstep
        cases hdone
  | done =>
    rw [hs] at hstep
    cases hstep

/-- **The accounts at the head of the loop.**  Start `main_loop` with a queue that is not empty
    and no task with a slave.  Whatever the slaves answer, at the head of every iteration no
    slave has a task, nothing is to be received and `ntasks_in_queue` is the length of the
    queue; the search finds the current slave free, so that it does not count modulo
    `slaves_size`, and takes its task from a queue that is not empty; no step is stuck, as long as
    the task with the current slave has a result whose size is an `int`; and the loop is left by
    the `break`, with one task in the queue. -/
theorem mainLoop_accounts {m : TasksManager} (hqueue : m.tasks ≠ [])
    (hbuffered : m.bufferedTasks = fun _ => none)
    (hpending : ∀ task ∈ m.mergeTask1, ∃ data, task = sortTask data) (slavesSize : Nat)
    {s : State} (hs : Reachable (step slavesSize) (mainLoop m) s) :
    (s.pc = .head → (∀ it, s.taskSent it = false) ∧ (∀ it, s.manager.bufferedTasks it = none) ∧
      s.ntasksToReceive = 0 ∧ s.ntasksInQueue = s.manager.tasks.length) ∧
    (s.pc = .search → s.taskSent s.currentSlave = false ∧ s.manager.tasks ≠ []) ∧
    (s.pc ≠ .done →
      (∀ task ∈ s.manager.bufferedTasks s.currentSlave, task.numbers.length < 2 ^ 31) →
      ∀ alive, (step slavesSize s alive).isSome) ∧
    ∀ alive s', step slavesSize s alive = some s' → s'.pc = .done →
      s.pc = .head ∧ s.ntasksInQueue + s.ntasksToReceive > 0 ∧ s.ntasksInQueue = 1 ∧
        s.ntasksToReceive = 0 ∧ ∃ task, s'.manager.tasks = [task] := by
  obtain ⟨hacc, hne⟩ := reachable_accounted_of (accounted_start hbuffered hpending)
    (I := fun p => p.queue ≠ []) (fun _ _ hp hstep => hstep.nonempty hp) hqueue hs
  have hplace := hacc.place
  unfold AtPc at hplace
  refine ⟨fun hpc => ?_, fun hpc => ?_, fun hpc hsize alive =>
    hacc.step_isSome hpc hsize slavesSize alive, fun alive s' hstep hdone =>
      hacc.leaves hne hstep hdone⟩
  · rw [hpc] at hplace
    refine ⟨fun it => ?_, fun it => ?_, hplace.toReceive, hplace.inQueue⟩
    · rw [hplace.taskSent]
    · rw [hplace.buffered]
  · rw [hpc] at hplace
    refine ⟨?_, hne⟩
    rw [hplace.1.taskSent]

/-- Two tasks on a backup master: the slave that gets the first one dies, and the master is at
    the head of the loop again. -/
theorem mainLoop_accounts_death : ∃ s, run (step 0)
      (mainLoop { TasksManager.new with tasks := [sortTask [2], sortTask [1]] })
      [true, true, false, true, true, true, true] = some s ∧
    s.pc = .head ∧ s.ntasksInQueue = s.manager.tasks.length :=
  ⟨_, rfl, rfl, ((mainLoop_accounts (m := { TasksManager.new with
      tasks := [sortTask [2], sortTask [1]] }) (List.cons_ne_nil _ _) rfl
    (fun _ h => absurd h (Option.not_mem_none _)) 0
    ⟨[true, true, false, true, true, true, true], rfl⟩).1 rfl).2.2.2⟩

end WorkAtUPB.FaultTolerantService
