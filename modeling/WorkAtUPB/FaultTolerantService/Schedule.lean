import WorkAtUPB.FaultTolerantService.Accounting

namespace WorkAtUPB.FaultTolerantService

open Function Run

/-!
# FaultTolerantService — the runs of a schedule

Runs in which the slaves reply and die as they are told.  A state of the master at the head of the
loop, when no slave has a task, is the start of `main_loop` for what its manager has by then:

* `idle`, `sent` — the manager then, and the state behind the first `send_task`;
* `run_sent`, `run_fail`, `run_reply` — the first task of the queue is sent, and its slave dies or
  replies;
* `run_done` — the loop is left with the last task.
-/

/-- The manager when no slave has a task. -/
def idle (tasks : List Task) (pending : Option Task) : TasksManager where
  tasks := tasks
  mergeTask1 := pending
  bufferedTasks := fun _ => none

/-- The state after `task` was sent to the first slave. -/
def sent (task : Task) (tasks : List Task) (pending : Option Task) : State where
  manager :=
    { tasks := tasks
      mergeTask1 := pending
      bufferedTasks := update (fun _ => none) 0 (some (task.setTaskStatus TASK_IN_PROGRESS)) }
  taskSent := update (fun _ => false) 0 true
  comm := update (fun _ => []) 0 [writeTask (task.setTaskStatus TASK_IN_PROGRESS)]
  ntasksInQueue := ((task :: tasks).length : Nat)
  ntasksToReceive := 1
  currentSlave := 0
  pc := .checkRecv false 0

/-- The first task of a queue with two tasks at least is sent. -/
theorem run_sent (slavesSize : Nat) (task : Task) {tasks : List Task} (hne : tasks ≠ [])
    (pending : Option Task) :
    run (step slavesSize) (mainLoop (idle (task :: tasks) pending)) [true, true] =
      some (sent task tasks pending) := by
  have hquiet : Quiet (mainLoop (idle (task :: tasks) pending)) := ⟨rfl, rfl, rfl, rfl, rfl⟩
  have hlen : 1 < (mainLoop (idle (task :: tasks) pending)).manager.tasks.length :=
    Nat.succ_lt_succ (List.length_pos_iff.mpr hne)
  have hhead : step slavesSize (mainLoop (idle (task :: tasks) pending)) true =
      some { mainLoop (idle (task :: tasks) pending) with pc := .search } := by
    show some (State.iterate _) = _
    rw [hquiet.iterate_eq, if_pos hlen]
  rw [run_cons, hhead, Option.bind_some, run_cons]
  rfl

/-- The flags, the payloads and the tasks of the slaves are as they were when the first slave
    has lost its task. -/
theorem update_zero_idem {β : Type*} (b x : β) :
    update (update (fun _ : Nat => b) 0 x) 0 b = fun _ => b :=
  update_update_const rfl

/-- The slave dies, and the task goes behind the others. -/
theorem run_fail (slavesSize : Nat) (task : Task) (tasks : List Task) (pending : Option Task) :
    run (step slavesSize) (sent task tasks pending) [false, true, true, true, true] =
      some (mainLoop (idle (tasks ++ [task.setTaskStatus TASK_NOT_SOLVED]) pending)) := by
  have hstatus : (task.setTaskStatus TASK_IN_PROGRESS).setTaskStatus TASK_NOT_SOLVED =
      task.setTaskStatus TASK_NOT_SOLVED := by
    cases task <;> rfl
  have hrun : run (step slavesSize) (sent task tasks pending) [false, true, true, true, true] =
      some { (sent task tasks pending).slaveFailed 0 with pc := .head } := rfl
  rw [hrun, Option.some.injEq]
  unfold State.slaveFailed sent TasksManager.setTaskFailed TasksManager.putTask mainLoop idle
  simp only [update_self, update_zero_idem, hstatus, List.length_append, List.length_cons]
  rfl

/-- The slave replies: the result becomes a first operand, or a merge with the first one. -/
theorem run_reply (slavesSize : Nat) {task : Task} {data : List Int}
    (hresult : task.result = some data) (tasks : List Task) :
    run (step slavesSize) (sent task tasks none) [true] =
        some (mainLoop (idle tasks (some (sortTask data)))) ∧
      ∀ data1, run (step slavesSize) (sent task tasks (some (sortTask data1))) [true] =
        some (mainLoop (idle (tasks ++ [mergeTask data1 data]) none)) := by
  have hworker : worker (writeTask (task.setTaskStatus TASK_IN_PROGRESS)) =
      some (writeTask (sortTask data)) := by
    rw [worker_writeTask, result_setTaskStatus, hresult, Option.map_some]
  have hread : readTask (writeTask (sortTask data)) = some (sortTask data) :=
    readTask_writeTask (sortTask data)
  have hmanager (pending : Option Task) :
      (sent task tasks pending).manager.setTaskSuccessed 0 = idle tasks pending := by
    unfold sent TasksManager.setTaskSuccessed idle
    simp only [update_zero_idem]
  have hcomm (pending : Option Task) : (sent task tasks pending).comm 0 =
      [writeTask (task.setTaskStatus TASK_IN_PROGRESS)] := rfl
  have hreceive (pending : Option Task) :
      run (step slavesSize) (sent task tasks pending) [true] =
        (((sent task tasks pending).receiveTask 0).map fun s' => { s' with pc := .head }).bind
          some := rfl
  -- The task that was sent is taken off the counter only when its reply is there.
  have hcounter : ((task :: tasks).length : Int) - 1 = tasks.length := by
    rw [List.length_cons]
    omega
  refine ⟨?_, fun data1 => ?_⟩
  · rw [hreceive, State.receiveTask, hcomm]
    dsimp only
    rw [hworker, Option.bind_some, hread, Option.map_some, hmanager]
    unfold idle TasksManager.putMergeTask sent mainLoop
    simp only [update_zero_idem, hcounter]
    rfl
  · rw [hreceive, State.receiveTask, hcomm]
    dsimp only
    rw [hworker, Option.bind_some, hread, Option.map_some, hmanager]
    unfold idle TasksManager.putMergeTask sent mainLoop
    simp only [update_zero_idem, hcounter, List.length_append, List.length_singleton, Nat.cast_succ]
    rfl

/-- With one task left in the queue the loop ends. -/
theorem run_done (slavesSize : Nat) (task : Task) (pending : Option Task) :
    run (step slavesSize) (mainLoop (idle [task] pending)) [true] =
      some { mainLoop (idle [task] pending) with pc := .done } := rfl

end WorkAtUPB.FaultTolerantService
