import WorkAtUPB.Lib.Codec
import WorkAtUPB.FaultTolerantService.ComputeResult

namespace WorkAtUPB.FaultTolerantService

open Codec

/-!
# FaultTolerantService — messages and workers (`task_manager.cpp`, `worker.cpp`)

The master sends a task as an array of ints, and a worker answers with the result, which it
always sends as a `SortTask`:

* `writeTask`, `readTask` — a task as the payload of a message;
* `readTask_writeTask` — what arrives is the task with the status of a new one;
* `worker` — the reply of a worker to a payload;
* `worker_writeTask` — the reply holds the result of the task that was sent.
-/

/-- `MAX_PACKET_SIZE`. -/
def MAX_PACKET_SIZE : Nat := 16 * 1024

/-- `write_task`: the kind of the task and its operands; neither the status nor the result of
    a merge is sent. -/
def writeTask : Task → List Int
  | .sort _ data => SORT_TASK :: writeArray data
  | .merge _ _ data1 data2 => MERGE_TASK :: (writeArray data1 ++ writeArray data2)

/-- `read_task`.  The assertion fails on a header that is no kind of task; a payload that ends
    before its task does has no meaning here. -/
def readTask : List Int → Option Task
  | [] => none
  | header :: buffer =>
    if header = SORT_TASK then (readArray buffer).map fun (data, _) => sortTask data
    else if header = MERGE_TASK then
      (readArray buffer).bind fun (data1, buffer) =>
        (readArray buffer).map fun (data2, _) => mergeTask data1 data2
    else none

/-- The object that the receiver of a task builds. -/
def Task.received : Task → Task
  | .sort _ data => sortTask data
  | .merge _ _ data1 data2 => mergeTask data1 data2

/-- **Messages.**  A payload stands for the task it was written from. -/
theorem readTask_writeTask (t : Task) : readTask (writeTask t) = some t.received := by
  cases t with
  | sort solved data =>
    rw [writeTask, readTask, if_pos rfl, readArray_roundTrip.read_write]
    rfl
  | merge solved data data1 data2 =>
    rw [writeTask, readTask, if_neg (by decide), if_pos rfl, readArray_roundTrip,
      Option.bind_some]
    dsimp only
    rw [readArray_roundTrip.read_write]
    rfl

/-- What `worker.cpp` sends back for a payload: the result of a merge leaves as a `SortTask`. -/
def worker (payload : List Int) : Option (List Int) :=
  (readTask payload).bind fun task =>
    task.computeResult.map fun task =>
      match task with
      | .sort solved data => writeTask (.sort solved data)
      -- the code builds a SortTask from the data, and sends that
      | .merge _ data _ _ => writeTask (sortTask data)

/-- The result does not depend on the status and the result of the task before. -/
theorem result_congr {t t' : Task} (h : t.received = t'.received) : t.result = t'.result := by
  have hmerge (solved solved' : Int) (data data' data1 data2 : List Int) :
      (Task.merge solved data data1 data2).result =
        (Task.merge solved' data' data1 data2).result := by
    simp only [Task.result, Task.computeResult, MergeTask.computeResult, Option.map_map]
    split
    · next hzero =>
      show some (data.take (Bytes.toInt _).toNat) = some (data'.take (Bytes.toInt _).toNat)
      rw [hzero]
      rfl
    · rfl
  cases t with
  | sort solved data =>
    cases t' with
    | sort solved' data' =>
      obtain rfl : data = data' := by simpa [Task.received, sortTask] using h
      rfl
    | merge => cases h
  | merge solved data data1 data2 =>
    cases t' with
    | sort => cases h
    | merge solved' data' data1' data2' =>
      obtain ⟨rfl, rfl⟩ : data1 = data1' ∧ data2 = data2' := by
        simpa [Task.received, mergeTask] using h
      exact hmerge _ _ _ _ _ _

/-- And their result. -/
@[simp] theorem result_received (t : Task) : t.received.result = t.result :=
  result_congr (by cases t <;> rfl)

/-- The status has nothing to do with the result. -/
@[simp] theorem result_setTaskStatus (status : Int) (t : Task) :
    (t.setTaskStatus status).result = t.result :=
  result_congr (by cases t <;> rfl)

/-- **Workers.**  Whatever the kind of the task, the payload of a reply is that of a `SortTask` with
    the result; without a result there is no reply. -/
theorem worker_writeTask (t : Task) :
    worker (writeTask t) = t.result.map fun data => writeTask (sortTask data) := by
  rw [← result_received, Task.result, Option.map_map, worker, readTask_writeTask, Option.bind_some]
  congr 1
  funext t'
  cases t' <;> rfl

/-- A worker replies to every task of fewer than `2 ^ 31` numbers, with the numbers of the task. -/
theorem worker_spec (t : Task) (hsize : t.numbers.length < 2 ^ 31) :
    ∃ data, worker (writeTask t) = some (writeTask (sortTask data)) ∧ t.result = some data ∧
      data.Perm t.numbers := by
  obtain ⟨data, hres, hperm, -⟩ := t.result_spec hsize
  exact ⟨data, by rw [worker_writeTask, hres, Option.map_some], hres, hperm⟩

/-- What a reply is. -/
theorem worker_eq_some {t : Task} {reply : List Int} (h : worker (writeTask t) = some reply) :
    ∃ data, t.result = some data ∧ reply = writeTask (sortTask data) := by
  rw [worker_writeTask] at h
  obtain ⟨data, hres, rfl⟩ := Option.map_eq_some_iff.mp h
  exact ⟨data, hres, rfl⟩

/-- A message has the numbers of its task and two more ints. -/
theorem length_numbers_le (t : Task) : t.numbers.length + 2 ≤ (writeTask t).length := by
  cases t with
  | sort solved data => exact Nat.le_refl _
  | merge solved data data1 data2 =>
    simp only [writeTask, writeArray, Task.numbers, List.length_cons, List.length_append]
    omega

/-- A worker replies to a task that fits into `task_buffer`. -/
theorem worker_of_fits {t : Task} (hfits : (writeTask t).length ≤ MAX_PACKET_SIZE) :
    ∃ data, worker (writeTask t) = some (writeTask (sortTask data)) ∧ t.result = some data ∧
      data.Perm t.numbers := by
  have hle := length_numbers_le t
  have hmax : MAX_PACKET_SIZE = 16384 := rfl
  exact worker_spec t (by omega)

/-- Its reply fits, too. -/
theorem length_reply_le {t : Task} {reply : List Int}
    (hfits : (writeTask t).length ≤ MAX_PACKET_SIZE) (hreply : worker (writeTask t) = some reply) :
    reply.length ≤ MAX_PACKET_SIZE := by
  have hle := length_numbers_le t
  obtain ⟨data, hreply', -, hperm⟩ := worker_of_fits hfits
  obtain rfl : _ = reply := Option.some.inj (hreply'.symm.trans hreply)
  show data.length + 2 ≤ MAX_PACKET_SIZE
  rw [hperm.length_eq]
  omega

end WorkAtUPB.FaultTolerantService
