import Mathlib.Logic.Function.Basic
import WorkAtUPB.Lib.Run
import WorkAtUPB.FaultTolerantService.Worker

namespace WorkAtUPB.FaultTolerantService

/-!
# FaultTolerantService — the master (`task_manager.cpp`, `operations.cpp`, `manager.cpp`)

The master takes tasks from its queue, sends them to slaves, and puts them back when a slave
dies:

* `TasksManager` — the queue, the tasks that slaves have, and the operand of the next merge;
* `State`, `step` — `main_loop` with `check_recv_from_slaves`, where every step is told
  whether the slave it asks is alive;
* `finishSolving` — the last task, which the master solves.

`none` stands for a master that does not go on: a null pointer is used, the slaves are counted
modulo 0, or `MPI_Recv` waits for a message nobody sends.
-/

/-- `MAX_CHILDREN_NUMBER`. -/
def MAX_CHILDREN_NUMBER : Nat := 4

/-! ### The manager of the tasks -/

/-- `TasksManager`.  `merge_task2` is null outside of `putMergeTask`. -/
structure TasksManager where
  tasks : List Task
  mergeTask1 : Option Task
  bufferedTasks : Nat → Option Task

/-- `TasksManager::TasksManager`. -/
def TasksManager.new : TasksManager where
  tasks := []
  mergeTask1 := none
  bufferedTasks := fun _ => none

/-- `putTask`. -/
def TasksManager.putTask (m : TasksManager) (task : Task) : TasksManager :=
  { m with tasks := m.tasks ++ [task.setTaskStatus TASK_NOT_SOLVED] }

/-- `putMergeTask`: a first operand is kept, a second one makes a task with it. -/
def TasksManager.putMergeTask (m : TasksManager) (task : Task) : Bool × TasksManager :=
  match m.mergeTask1 with
  | none => (false, { m with mergeTask1 := some task })
  | some task1 =>
    (true, { m with
      tasks := m.tasks ++ [mergeTask task1.getData task.getData], mergeTask1 := none })

/-- `removeTask`; the callers use the null pointer of an empty queue. -/
def TasksManager.removeTask (m : TasksManager) : Option (Task × TasksManager) :=
  match m.tasks with
  | [] => none
  | task :: tasks => some (task.setTaskStatus TASK_IN_PROGRESS, { m with tasks := tasks })

/-- `removeTask(slave_id)`. -/
def TasksManager.removeTaskFor (m : TasksManager) (slave : Nat) :
    Option (Task × TasksManager) :=
  m.removeTask.map fun (task, m) =>
    (task, { m with bufferedTasks := Function.update m.bufferedTasks slave (some task) })

/-- `set_task_failed`. -/
def TasksManager.setTaskFailed (m : TasksManager) (slave : Nat) : TasksManager :=
  let m' := match m.bufferedTasks slave with
    | some task => m.putTask task
    | none => m
  { m' with bufferedTasks := Function.update m'.bufferedTasks slave none }

/-- `set_task_successed`. -/
def TasksManager.setTaskSuccessed (m : TasksManager) (slave : Nat) : TasksManager :=
  { m with bufferedTasks := Function.update m.bufferedTasks slave none }

/-! ### The main loop -/

/-- Where the master is: at the head of the loop, searching for a free slave (where it makes a
    check point), at slave `it` of `check_recv_from_slaves`, called from inside the search or
    after it, or behind the loop. -/
inductive Pc where
  | head
  | search
  | checkRecv (inSearch : Bool) (it : Nat)
  | done
  deriving DecidableEq, Repr

/-- The variables of `main_loop` with the manager, and the payloads on their way to every
    slave. -/
structure State where
  manager : TasksManager
  taskSent : Nat → Bool
  comm : Nat → List (List Int)
  ntasksInQueue : Int
  ntasksToReceive : Int
  currentSlave : Nat
  pc : Pc

/-- The start of `main_loop`. -/
def mainLoop (m : TasksManager) : State where
  manager := m
  taskSent := fun _ => false
  comm := fun _ => []
  ntasksInQueue := m.tasks.length
  ntasksToReceive := 0
  currentSlave := 0
  pc := .head

/-- The condition of the loop, and its first decision. -/
def State.iterate (s : State) : State :=
  if s.ntasksInQueue + s.ntasksToReceive > 0 then
    if s.ntasksInQueue > 1 then { s with pc := .search }
    -- The `break`: the last task is left to `finish_solving`.
    else if s.ntasksInQueue = 1 ∧ s.ntasksToReceive = 0 then { s with pc := .done }
    else { s with pc := .checkRecv false 0 }
  else { s with pc := .done }

/-- A task is sent to the current slave. -/
def State.sendTask (s : State) : Option State :=
  (s.manager.removeTaskFor s.currentSlave).map fun (task, manager) =>
    { s with
      manager := manager
      ntasksToReceive := s.ntasksToReceive + 1
      comm := Function.update s.comm s.currentSlave
        (s.comm s.currentSlave ++ [writeTask task])
      taskSent := Function.update s.taskSent s.currentSlave true
      pc := .checkRecv false 0 }

/-- A round of the search for a slave: the current one if it is free, else the next one. -/
def State.searchSlave (slavesSize : Nat) (s : State) : Option State :=
  if s.taskSent s.currentSlave = false then s.sendTask
  -- The division by zero that `% slaves_size` would be.
  else if slavesSize = 0 then none
  else some { s with
    currentSlave := (s.currentSlave + 1) % slavesSize, pc := .checkRecv true 0 }

/-- Slave `it` is dead: its task goes back into the queue, and a new slave with a new
    communicator takes its place. -/
def State.slaveFailed (s : State) (it : Nat) : State :=
  { s with
    manager := s.manager.setTaskFailed it
    comm := Function.update s.comm it []
    taskSent := Function.update s.taskSent it false
    ntasksToReceive := s.ntasksToReceive - 1 }

/-- Slave `it` is alive: the master waits for its reply to the first payload it was sent. -/
def State.receiveTask (s : State) (it : Nat) : Option State :=
  match s.comm it with
  -- No task is on its way to the slave, so `MPI_Recv` waits forever.
  | [] => none
  | payload :: rest =>
    (worker payload).bind fun reply => (readTask reply).map fun task =>
      let put := (s.manager.setTaskSuccessed it).putMergeTask task
      { s with
        manager := put.2
        comm := Function.update s.comm it rest
        taskSent := Function.update s.taskSent it false
        ntasksToReceive := s.ntasksToReceive - 1
        ntasksInQueue := s.ntasksInQueue - 1 + if put.1 then 1 else 0 }

/-- Where `check_recv_from_slaves` returns to. -/
def Pc.caller (inSearch : Bool) : Pc := if inSearch then .search else .head

/-- A round of `check_recv_from_slaves`; a reply ends it. -/
def State.checkRecvFromSlaves (s : State) (inSearch : Bool) (it : Nat) (alive : Bool) :
    Option State :=
  if MAX_CHILDREN_NUMBER ≤ it then some { s with pc := .caller inSearch }
  else if s.taskSent it = false then some { s with pc := .checkRecv inSearch (it + 1) }
  else if alive then
    (s.receiveTask it).map fun s' => { s' with pc := .caller inSearch }
  else some { s.slaveFailed it with pc := .checkRecv inSearch (it + 1) }

/-- One step of the master; `alive` is the answer of `is_process_alive` where it is asked. -/
def step (slavesSize : Nat) (s : State) (alive : Bool) : Option State :=
  match s.pc with
  | .head => some s.iterate
  | .search => s.searchSlave slavesSize
  | .checkRecv inSearch it => s.checkRecvFromSlaves inSearch it alive
  | .done => none

/-! ### The end -/

/-- `finish_solving`: the last task, merged with the operand that waits for a second one. -/
def finishSolving (m : TasksManager) : Option Task :=
  m.removeTask.bind fun (task, m) =>
    task.computeResult.bind fun task =>
      match m.mergeTask1 with
      | none => some task
      | some buffered => (mergeTask task.getData buffered.getData).computeResult

end WorkAtUPB.FaultTolerantService
