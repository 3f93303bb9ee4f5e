import WorkAtUPB.FaultTolerantService.Accounting

namespace WorkAtUPB.FaultTolerantService

open Codec Function Run

/-!
# FaultTolerantService — check points (`task_manager.cpp`)

In every round of the search for a slave the master writes its manager into a file, from which
the backup master restores it:

* `serialize`, `deserialize` — the file, as a list of ints, and what is restored from it;
* `deserialize_serialize` — the queue is restored as it was;
* `Restored.Equivalent` — the restored manager stands for the one that was written;
* `checkPoint_restored_iff` — at a check point of `main_loop` this is so exactly when no
  operand of a merge is pending.

A task that a slave has, or that is pending, is written as an array behind its length, but
read as the memory of a `MergeTask`, of which a pointer is made.  What such memory means is a
matter of the compiler; here it is a parameter.
-/

/-! ### The queue -/

/-- `serialize` of a task. -/
def Task.serialize : Task → List Int
  | .sort solved data => solved :: writeArray data
  | .merge solved data data1 data2 =>
    solved :: (writeArray data ++ (writeArray data1 ++ writeArray data2))

/-- `SortTask::deserialize`. -/
def deserializeSort : List Int → Option (Task × List Int)
  | [] => none
  | solved :: ws => (readArray ws).map fun (data, ws) => (.sort solved data, ws)

/-- `MergeTask::deserialize`. -/
def deserializeMerge : List Int → Option (Task × List Int)
  | [] => none
  | solved :: ws =>
    (readArray ws).bind fun (data, ws) =>
      (readArray ws).bind fun (data1, ws) =>
        (readArray ws).map fun (data2, ws) => (.merge solved data data1 data2, ws)

/-- The header of a task in the queue. -/
def Task.header : Task → Int
  | .sort _ _ => SORT_TASK
  | .merge _ _ _ _ => MERGE_TASK

/-- A task of the queue in the file. -/
def writeQueued (task : Task) : List Int := task.header :: task.serialize

/-- The next task of the queue; the assertion fails on an unknown header. -/
def readQueued : List Int → Option (Task × List Int)
  | [] => none
  | header :: ws =>
    if header = SORT_TASK then deserializeSort ws
    else if header = MERGE_TASK then deserializeMerge ws
    else none

/-- A task comes back with its kind, its status, its operands and its result. -/
theorem readQueued_roundTrip : RoundTrip writeQueued readQueued := by
  intro task rest
  cases task with
  | sort solved data =>
    show deserializeSort (solved :: (writeArray data ++ rest)) = _
    rw [deserializeSort, readArray_roundTrip]
    rfl
  | merge solved data data1 data2 =>
    show deserializeMerge
      (solved :: ((writeArray data ++ (writeArray data1 ++ writeArray data2)) ++ rest)) = _
    rw [List.append_assoc, List.append_assoc, deserializeMerge, readArray_roundTrip,
      Option.bind_some]
    dsimp only
    rw [readArray_roundTrip, Option.bind_some]
    dsimp only
    rw [readArray_roundTrip]
    rfl

/-! ### The slots behind the queue -/

/-- What `deserialize` makes of the memory it reads: a null pointer, or a pointer to it. -/
inductive Slot where
  | null
  | image (words : List Int)
  deriving DecidableEq, Repr

/-- A slot in the file: the task, or a `MergeTask` of `w` words that are 0. -/
def writeSlot (w : Nat) : Option Task → List Int
  | some task => task.serialize
  | none => List.replicate w 0

/-- The memory of a `MergeTask` that comes from `malloc` with the words `junk`, after `fread`:
    where the file ends too early, the junk stays. -/
def readImage (w : Nat) (junk : Nat → Int) (ws : List Int) : List Int :=
  (List.range w).map fun i => ws[i]?.getD (junk i)

/-- A slot is null if its memory is that of the empty task. -/
def readSlot (w : Nat) (junk : Nat → Int) (ws : List Int) : Slot × List Int :=
  let image := readImage w junk ws
  (if image = List.replicate w 0 then .null else .image image, ws.drop w)

/-- The first `n` slots. -/
def readSlots (w : Nat) (junk : Nat → Nat → Int) : Nat → List Int → List Slot × List Int
  | 0, ws => ([], ws)
  | n + 1, ws =>
    let (slots, ws) := readSlots w junk n ws
    let (slot, ws) := readSlot w (junk n) ws
    (slots ++ [slot], ws)

/-! ### The file -/

/-- `TasksManager::serialize`. -/
def serialize (w : Nat) (m : TasksManager) : List Int :=
  (m.tasks.length : Int) :: (m.tasks.flatMap writeQueued ++
    ((List.range MAX_CHILDREN_NUMBER).flatMap (fun i => writeSlot w (m.bufferedTasks i)) ++
      writeSlot w m.mergeTask1))

/-- The manager that `deserialize` fills. -/
structure Restored where
  tasks : List Task
  bufferedTasks : List Slot
  mergeTask1 : Slot
  deriving DecidableEq, Repr

/-- `TasksManager::deserialize`, into a new manager. -/
def deserialize (w : Nat) (junk : Nat → Nat → Int) : List Int → Option Restored
  | [] => none
  | size :: ws =>
    (readMany readQueued size.toNat ws).map fun (tasks, ws) =>
      let (slots, ws) := readSlots w junk MAX_CHILDREN_NUMBER ws
      let (slot, _) := readSlot w (junk MAX_CHILDREN_NUMBER) ws
      { tasks := tasks, bufferedTasks := slots, mergeTask1 := slot }

/-- **The queue is restored.**  Whatever is in the slots, the tasks come back as they were. -/
theorem deserialize_serialize (w : Nat) (junk : Nat → Nat → Int) (m : TasksManager) :
    deserialize w junk (serialize w m) =
      let slots := readSlots w junk MAX_CHILDREN_NUMBER
        ((List.range MAX_CHILDREN_NUMBER).flatMap (fun i => writeSlot w (m.bufferedTasks i)) ++
          writeSlot w m.mergeTask1)
      some
        { tasks := m.tasks
          bufferedTasks := slots.1
          mergeTask1 := (readSlot w (junk MAX_CHILDREN_NUMBER) slots.2).1 } := by
  rw [serialize, deserialize, Int.toNat_natCast, readQueued_roundTrip.readMany, Option.map_some]

/-! ### What is restored -/

section Denotes

variable (denotes : List Int → Option Task)

/-- The pointer stands for the task: both are null, or the memory is that of the task. -/
def Slot.Holds : Slot → Option Task → Prop
  | .null, task => task = none
  | .image words, task => task ≠ none ∧ denotes words = task

/-- The restored manager stands for `m`. -/
structure Restored.Equivalent (r : Restored) (m : TasksManager) : Prop where
  tasks : r.tasks = m.tasks
  buffered : ∀ i < MAX_CHILDREN_NUMBER,
    ∃ slot, r.bufferedTasks[i]? = some slot ∧ slot.Holds denotes (m.bufferedTasks i)
  mergeTask1 : r.mergeTask1.Holds denotes m.mergeTask1

/-- `denotes` says which task the memory of an object is.  An object of a class with virtual
    functions starts with the address of its table of virtual functions, which is aligned to
    words of 4 bytes. -/
def Aligned : Prop := ∀ words task, denotes words = some task → ∃ v ∈ words.head?, 4 ∣ v

end Denotes

/-- The words of a slot that was written as null are read back as null. -/
theorem readSlot_null (w : Nat) (junk : Nat → Int) (ws : List Int) :
    readSlot w junk (writeSlot w none ++ ws) = (.null, ws) := by
  have himage : readImage w junk (List.replicate w 0 ++ ws) = List.replicate w 0 := by
    refine List.ext_getElem (by simp [readImage]) fun i hi _ => ?_
    have hiw : i < w := by simpa [readImage] using hi
    simp [readImage, List.getElem?_append_left, hiw]
  rw [readSlot, writeSlot, himage, if_pos rfl, List.drop_left' List.length_replicate]

/-- While no slave has a task, its slots are restored, and the rest of the file is what was
    written behind them. -/
theorem readSlots_null (w : Nat) (junk : Nat → Nat → Int) (n : Nat) (ws : List Int) :
    readSlots w junk n ((List.range n).flatMap (fun _ => writeSlot w none) ++ ws) =
      (List.replicate n .null, ws) := by
  induction n generalizing ws with
  | zero => rfl
  | succ n ih =>
    rw [List.range_succ, List.flatMap_append, List.flatMap_singleton, List.append_assoc,
      readSlots, ih]
    dsimp only
    rw [readSlot_null, List.replicate_succ']

/-- The memory that is read for a pending operand starts with its status, `TASK_NOT_SOLVED`,
    which is no address: it stands for nothing. -/
theorem not_holds_sortTask {denotes : List Int → Option Task} (hdenotes : Aligned denotes)
    (w : Nat) (junk : Nat → Int) (data : List Int) :
    ¬ (readSlot w junk (writeSlot w (some (sortTask data)))).1.Holds denotes
      (some (sortTask data)) := by
  rw [readSlot]
  split
  -- All words are 0: a null pointer stands for no task.
  next h => exact nofun
  next h =>
    rintro ⟨_, hden⟩
    obtain ⟨v, hv, h4⟩ := hdenotes _ _ hden
    -- The first word that was written is the status of the task.
    cases w with
    | zero => exact h rfl
    | succ w =>
      have hhead : (readImage (w + 1) junk (writeSlot (w + 1) (some (sortTask data)))).head? =
          some TASK_NOT_SOLVED := by
        rw [readImage, List.range_succ_eq_map]
        rfl
      rw [hhead] at hv
      obtain rfl : TASK_NOT_SOLVED = v := Option.some.inj hv
      revert h4
      decide

/-- **Check points.**  A manager whose slaves have no task, and whose pending operand is the
    reply of a slave, is restored exactly when there is no pending operand. -/
theorem restore_equivalent_iff {denotes : List Int → Option Task} (hdenotes : Aligned denotes)
    (w : Nat) (junk : Nat → Nat → Int) {m : TasksManager}
    (hbuffered : m.bufferedTasks = fun _ => none)
    (hpending : ∀ task ∈ m.mergeTask1, ∃ data, task = sortTask data) :
    (∃ r, deserialize w junk (serialize w m) = some r ∧ r.Equivalent denotes m) ↔
      m.mergeTask1 = none := by
  have hrestore := deserialize_serialize w junk m
  rw [hbuffered, readSlots_null] at hrestore
  dsimp only at hrestore
  rw [hrestore]
  constructor
  · rintro ⟨r, ⟨⟩, hr⟩
    cases hm : m.mergeTask1 with
    | none => rfl
    | some task =>
      -- A slot that is not null is a pointer, which the new process has nothing behind.
      obtain ⟨data, rfl⟩ := hpending task hm
      have hholds := hr.mergeTask1
      rw [hm] at hholds
      exact absurd hholds (not_holds_sortTask hdenotes w _ data)
  · intro hm
    refine ⟨_, rfl, rfl, ?_, ?_⟩
    · intro i hi
      refine ⟨.null, ?_, congrFun hbuffered i⟩
      show (List.replicate MAX_CHILDREN_NUMBER Slot.null)[i]? = some .null
      rw [List.getElem?_replicate, if_pos hi]
    · have hslot := readSlot_null w (junk MAX_CHILDREN_NUMBER) []
      rw [List.append_nil] at hslot
      rw [hm, hslot]
      rfl

/-- At a check point no slave has a task, and a pending operand is the reply of a slave. -/
theorem run_search_accounts (tasks : List Task) (slavesSize : Nat) (answers : List Bool)
    (s : State)
    (hrun : run (step slavesSize) (mainLoop { TasksManager.new with tasks := tasks }) answers =
      some s) (hpc : s.pc = .search) :
    s.manager.bufferedTasks = (fun _ => none) ∧
      ∀ task ∈ s.manager.mergeTask1, ∃ data, task = sortTask data := by
  have hfresh : TasksManager.Fresh { TasksManager.new with tasks := tasks } := ⟨rfl, rfl⟩
  obtain ⟨hacc, -⟩ := reachable_accounted hfresh (I := fun _ => True) (fun _ _ _ _ => trivial)
    trivial ⟨answers, hrun⟩
  have hplace := hacc.place
  rw [AtPc, hpc] at hplace
  exact ⟨hplace.1.buffered, hacc.pending⟩

/-- **Restoring a check point.**  Start `main_loop` with any queue of tasks, and let the slaves
    reply and die in any way: at every check point, what `deserialize` makes of the file stands
    for the manager that `serialize` wrote exactly when `merge_task1` is null. -/
theorem checkPoint_restored_iff {denotes : List Int → Option Task} (hdenotes : Aligned denotes)
    (w : Nat) (junk : Nat → Nat → Int) (tasks : List Task) (slavesSize : Nat)
    (answers : List Bool) (s : State)
    (hrun : run (step slavesSize) (mainLoop { TasksManager.new with tasks := tasks }) answers =
      some s) (hpc : s.pc = .search) :
    (∃ r, deserialize w junk (serialize w s.manager) = some r ∧
      r.Equivalent denotes s.manager) ↔ s.manager.mergeTask1 = none := by
  obtain ⟨hbuffered, hpending⟩ := run_search_accounts tasks slavesSize answers s hrun hpc
  exact restore_equivalent_iff hdenotes w junk hbuffered hpending

/-- The second check point, after the slave of the first task died. -/
theorem checkPoint_restored_iff_death :
    ∃ s, run (step 4) (mainLoop { TasksManager.new with
        tasks := [sortTask [1], sortTask [2], sortTask [3]] })
          [true, true, false, true, true, true, true, true] = some s ∧
      ((∃ r, deserialize 8 (fun _ _ => 0) (serialize 8 s.manager) = some r ∧
        r.Equivalent (fun _ => none) s.manager) ↔ s.manager.mergeTask1 = none) := by
  obtain ⟨s, hs, hpc⟩ := Option.map_eq_some_iff.mp
    (show (run (step 4) (mainLoop { TasksManager.new with
        tasks := [sortTask [1], sortTask [2], sortTask [3]] })
          [true, true, false, true, true, true, true, true]).map State.pc = some .search by decide)
  exact ⟨s, hs, checkPoint_restored_iff (fun _ _ h => by cases h) 8 _ _ 4 _ s hs hpc⟩

/-- Three pieces, of which the first one has come back sorted: at the next check point
    `merge_task1` is lost. -/
theorem not_checkPoint_restored :
    ∃ s, run (step 4) (mainLoop { TasksManager.new with
        tasks := [sortTask [1], sortTask [2], sortTask [3]] }) [true, true, true, true] = some s ∧
      s.pc = .search ∧ ∀ denotes, Aligned denotes → ∀ junk,
        ¬ ∃ r, deserialize 8 junk (serialize 8 s.manager) = some r ∧
          r.Equivalent denotes s.manager := by
  obtain ⟨s, hs, hview⟩ := Option.map_eq_some_iff.mp
    (show (run (step 4) (mainLoop { TasksManager.new with
        tasks := [sortTask [1], sortTask [2], sortTask [3]] }) [true, true, true, true]).map
          (fun s => (s.pc, s.manager.mergeTask1)) = some (.search, some (sortTask [1])) by decide)
  obtain ⟨hpc, hm⟩ := Prod.mk.inj hview
  obtain ⟨hbuffered, hpending⟩ := run_search_accounts _ 4 _ s hs hpc
  refine ⟨s, hs, hpc, fun denotes hdenotes junk hrestored => ?_⟩
  cases hm.symm.trans ((restore_equivalent_iff hdenotes 8 junk hbuffered hpending).mp hrestored)

end WorkAtUPB.FaultTolerantService
