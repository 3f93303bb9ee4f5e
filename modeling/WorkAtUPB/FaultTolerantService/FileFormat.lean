import WorkAtUPB.Lib.Bytes
import WorkAtUPB.FaultTolerantService.CheckPoint

namespace WorkAtUPB.FaultTolerantService

open Bytes Codec

/-!
# FaultTolerantService — the bytes of a check point (`task_manager.cpp`)

The queue in the file of a check point, byte by byte: the number of tasks, and of every task its
header, its status and its arrays, each behind its size and with nothing in between:

* `writeQueue`, `readQueue` — the loops of `serialize` and `deserialize`;
* `writeQueue_eq` — the bytes are those of the ints of `CheckPoint`;
* `Task.InMemory` — the numbers of a task are values of type `int`;
* `readQueue_writeQueue` — the tasks are restored, and the position in the file is where the
  bytes behind the queue begin.

A reader takes bytes off the front of what is left of the file; `none` stands for a file that
ends too early, a negative size, or a failed assertion.
-/

/-! ### Ints and arrays -/

/-- `fread` of one `int`. -/
def freadInt (fin : List UInt8) : Option (Int × List UInt8) :=
  if 4 ≤ fin.length then some (ofLEInt fin, fin.drop 4) else none

/-- `fwrite` of an array, behind its size. -/
def fwriteArray (data : List Int) : List UInt8 := leInt data.length ++ data.flatMap leInt

/-- `fread` of a size, and of an array of this size.  The code passes the size of a merge as
    that of the items, of which it reads `sizeof(int)`: as many bytes. -/
def freadArray (fin : List UInt8) : Option (List Int × List UInt8) :=
  (freadInt fin).bind fun (size, fin) =>
    if 0 ≤ size then readMany freadInt size.toNat fin else none

/-- The size of an array and its elements are values of type `int`. -/
structure IsArray (data : List Int) : Prop where
  size : IsInt data.length
  elements : ∀ x ∈ data, IsInt x

/-- An `int` is read as it was written. -/
theorem freadInt_roundTrip : RoundTripOn IsInt leInt freadInt := by
  intro x hx rest
  have htake : ofLEInt (leInt x ++ rest) = ofLEInt (leInt x) := rfl
  rw [freadInt, if_pos (by simp), htake, ofLEInt_leInt hx, List.drop_left' (length_leInt x)]

/-- An array is read as it was written. -/
theorem freadArray_roundTrip : RoundTripOn IsArray fwriteArray freadArray := by
  intro data hdata rest
  rw [fwriteArray, List.append_assoc, freadArray, freadInt_roundTrip _ hdata.size,
    Option.bind_some]
  dsimp only
  rw [if_pos (Int.natCast_nonneg _), Int.toNat_natCast]
  exact freadInt_roundTrip.readMany hdata.elements rest

/-! ### Tasks -/

/-- `SortTask::serialize` and `MergeTask::serialize`. -/
def Task.fwrite : Task → List UInt8
  | .sort solved data => leInt solved ++ fwriteArray data
  | .merge solved data data1 data2 =>
    leInt solved ++ (fwriteArray data ++ (fwriteArray data1 ++ fwriteArray data2))

/-- `SortTask::deserialize`. -/
def freadSort (fin : List UInt8) : Option (Task × List UInt8) :=
  (freadInt fin).bind fun (solved, fin) =>
    (freadArray fin).map fun (data, fin) => (.sort solved data, fin)

/-- `MergeTask::deserialize`. -/
def freadMerge (fin : List UInt8) : Option (Task × List UInt8) :=
  (freadInt fin).bind fun (solved, fin) =>
    (freadArray fin).bind fun (data, fin) =>
      (freadArray fin).bind fun (data1, fin) =>
        (freadArray fin).map fun (data2, fin) => (.merge solved data data1 data2, fin)

/-- A round of the loop that writes the queue. -/
def fwriteQueued (task : Task) : List UInt8 := leInt task.header ++ task.fwrite

/-- A round of the loop that reads the queue. -/
def freadQueued (fin : List UInt8) : Option (Task × List UInt8) :=
  (freadInt fin).bind fun (header, fin) =>
    if header = SORT_TASK then freadSort fin
    else if header = MERGE_TASK then freadMerge fin
    else none

/-- The numbers of a task are values of type `int`. -/
def Task.InMemory : Task → Prop
  | .sort solved data => IsInt solved ∧ IsArray data
  | .merge solved data data1 data2 =>
    IsInt solved ∧ IsArray data ∧ IsArray data1 ∧ IsArray data2

/-- The header of a task is an `int`. -/
theorem isInt_header (task : Task) : IsInt task.header := by
  cases task with
  | sort =>
    show IsInt SORT_TASK
    decide
  | merge =>
    show IsInt MERGE_TASK
    decide

/-- A task comes back with its kind, its status, its result and its operands, and the rest of
    the file is left. -/
theorem freadQueued_roundTrip : RoundTripOn Task.InMemory fwriteQueued freadQueued := by
  intro task htask rest
  cases task with
  | sort solved data =>
    obtain ⟨hsolved, hdata⟩ := htask
    rw [fwriteQueued, List.append_assoc, freadQueued, freadInt_roundTrip _ (isInt_header _),
      Option.bind_some]
    dsimp only
    rw [Task.header, if_pos rfl, Task.fwrite, List.append_assoc, freadSort,
      freadInt_roundTrip _ hsolved, Option.bind_some]
    dsimp only
    rw [freadArray_roundTrip _ hdata, Option.map_some]
  | merge solved data data1 data2 =>
    obtain ⟨hsolved, hdata, hdata1, hdata2⟩ := htask
    rw [fwriteQueued, List.append_assoc, freadQueued, freadInt_roundTrip _ (isInt_header _),
      Option.bind_some]
    dsimp only
    rw [Task.header, if_neg (by decide), if_pos rfl, Task.fwrite, List.append_assoc,
      List.append_assoc, List.append_assoc, freadMerge, freadInt_roundTrip _ hsolved,
      Option.bind_some]
    dsimp only
    rw [freadArray_roundTrip _ hdata, Option.bind_some]
    dsimp only
    rw [freadArray_roundTrip _ hdata1, Option.bind_some]
    dsimp only
    rw [freadArray_roundTrip _ hdata2, Option.map_some]

/-! ### The queue -/

/-- The queue as `TasksManager::serialize` writes it. -/
def writeQueue (tasks : List Task) : List UInt8 :=
  leInt tasks.length ++ tasks.flatMap fwriteQueued

/-- The queue as `TasksManager::deserialize` reads it. -/
def readQueue (fin : List UInt8) : Option (List Task × List UInt8) :=
  (freadInt fin).bind fun (size, fin) => readMany freadQueued size.toNat fin

/-- An array takes the bytes of its ints. -/
theorem fwriteArray_eq (data : List Int) : fwriteArray data = (writeArray data).flatMap leInt := rfl

/-- The bytes of the queue are those of the ints that a check point is made of. -/
theorem writeQueue_eq (tasks : List Task) :
    writeQueue tasks = ((tasks.length : Int) :: tasks.flatMap writeQueued).flatMap leInt := by
  have htask (task : Task) : fwriteQueued task = (writeQueued task).flatMap leInt := by
    cases task <;> simp [fwriteQueued, writeQueued, Task.fwrite, Task.serialize, fwriteArray_eq]
  rw [writeQueue, List.flatMap_cons, List.flatMap_assoc]
  congr 2
  exact funext htask

/-- **The file format.**  For any list of tasks and any bytes behind them: what the loop of
    `deserialize` reads is exactly this list, and the position in the file is exactly where these
    bytes begin. -/
theorem readQueue_writeQueue (tasks : List Task) (hsize : IsInt tasks.length)
    (htasks : ∀ task ∈ tasks, task.InMemory) (suffix : List UInt8) :
    readQueue (writeQueue tasks ++ suffix) = some (tasks, suffix) := by
  rw [writeQueue, List.append_assoc, readQueue, freadInt_roundTrip _ hsize, Option.bind_some]
  dsimp only
  rw [Int.toNat_natCast]
  exact freadQueued_roundTrip.readMany htasks suffix

/-- A sort, a merge that is solved and one that is not, with two bytes behind them. -/
theorem readQueue_writeQueue_three :
    readQueue (writeQueue [sortTask [3, -1], .merge TASK_SOLVED [1, 2] [2] [1], mergeTask [] [5]] ++
        [7, 0]) =
      some ([sortTask [3, -1], .merge TASK_SOLVED [1, 2] [2] [1], mergeTask [] [5]], [7, 0]) := by
  have hsort : Task.InMemory (sortTask [3, -1]) := ⟨by decide, by decide, by decide⟩
  have hsolved : Task.InMemory (.merge TASK_SOLVED [1, 2] [2] [1]) :=
    ⟨by decide, ⟨by decide, by decide⟩, ⟨by decide, by decide⟩, ⟨by decide, by decide⟩⟩
  have hmerge : Task.InMemory (mergeTask [] [5]) :=
    ⟨by decide, ⟨by decide, by decide⟩, ⟨by decide, by decide⟩, ⟨by decide, by decide⟩⟩
  refine readQueue_writeQueue _ (by decide) ?_ [7, 0]
  rintro task htask
  rcases List.mem_cons.mp htask with rfl | htask
  · exact hsort
  rcases List.mem_cons.mp htask with rfl | htask
  · exact hsolved
  · exact List.mem_singleton.mp htask ▸ hmerge

end WorkAtUPB.FaultTolerantService
