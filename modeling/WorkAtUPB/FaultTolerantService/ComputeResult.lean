import Mathlib.Algebra.Group.Nat.Defs
import WorkAtUPB.FaultTolerantService.Task
import WorkAtUPB.Lib.Bytes

namespace WorkAtUPB.FaultTolerantService

open Bytes Sorting

/-!
# FaultTolerantService — computing a result (`task_manager.cpp`)

`MergeTask::computeResult` runs over its arrays with cursors, and adds the sizes of its operands to
a size of type `int`:

* `mergeHeads`, `copyRest`, `mergeArrays` — the three loops; `none` is an access out of bounds;
* `MergeTask.computeResult` — the result of a merge, from the sum of the sizes on;
* `Task.computeResult`, `Task.result` — the result of a task of either kind, and its numbers;
* `mergeArrays_eq` — the loops stay in bounds and compute `mergeLoop`;
* `computeResult_junk` — what was in the memory of the result before is of no matter;
* `Task.result_spec` — the result of fewer than `2 ^ 31` numbers is these numbers, in order when the
  operands are;
* `computeResult_sorted_iff` — both kinds of task sort, exactly if the sum of the sizes is an `int`.
-/

/-- `malloc` of an array of `size` ints, which hold `junk`.  There is none of a negative size, which
    is a huge one as a `size_t`. -/
def malloc (junk : Nat → Int) (size : Int) : List Int := (List.range size.toNat).map junk

/-- The first loop, while there is something left of both operands. -/
def mergeHeads (data1 data2 : List Int) (i1 i2 k : Nat) (data : List Int) :
    Option (Nat × Nat × Nat × List Int) :=
  if i1 < data1.length ∧ i2 < data2.length then do
    let x ← data1[i1]?
    let y ← data2[i2]?
    if x < y then
      let data ← store data k x
      mergeHeads data1 data2 (i1 + 1) i2 (k + 1) data
    else
      let data ← store data k y
      mergeHeads data1 data2 i1 (i2 + 1) (k + 1) data
  else some (i1, i2, k, data)
termination_by (data1.length - i1) + (data2.length - i2)

/-- The other two loops: what is left of an operand. -/
def copyRest (src : List Int) (i k : Nat) (data : List Int) : Option (Nat × List Int) :=
  if i < src.length then do
    let x ← src[i]?
    let data ← store data k x
    copyRest src (i + 1) (k + 1) data
  else some (k, data)
termination_by src.length - i

/-- The three loops. -/
def mergeArrays (data1 data2 data : List Int) : Option (List Int) := do
  let (i1, i2, k, data) ← mergeHeads data1 data2 0 0 0 data
  let (k, data) ← copyRest data1 i1 k data
  let (_, data) ← copyRest data2 i2 k data
  some data

/-- The fields of a `MergeTask`; the sizes of the operands are the lengths. -/
structure MergeTask where
  solved : Int
  size : Int
  data : List Int
  data1 : List Int
  data2 : List Int
  deriving DecidableEq, Repr

/-- `MergeTask::MergeTask`. -/
def MergeTask.new (data1 data2 : List Int) : MergeTask := ⟨TASK_NOT_SOLVED, 0, [], data1, data2⟩

/-- `MergeTask::computeResult`. -/
def MergeTask.computeResult (junk : Nat → Int) (t : MergeTask) : Option MergeTask :=
  let size := toInt (t.data1.length + t.data2.length)
  if size = 0 then some { t with size := size }
  else do
    let data ← mergeArrays t.data1 t.data2 (malloc junk size)
    some { t with solved := TASK_SOLVED, size := size, data := data }

/-- The object as a task. -/
def MergeTask.toTask (t : MergeTask) : Task :=
  .merge t.solved (t.data.take t.size.toNat) t.data1 t.data2

/-- `computeResult` of the class that the task is of. -/
def Task.computeResult : Task → Option Task
  | .sort _ data => (insertionSort data).map (.sort TASK_SOLVED)
  | .merge solved data data1 data2 =>
    (MergeTask.computeResult (fun _ => 0) ⟨solved, data.length, data, data1, data2⟩).map
      MergeTask.toTask

/-- The numbers of the result. -/
def Task.result (t : Task) : Option (List Int) := t.computeResult.map Task.getData

/-- A `SortTask` ends up with its numbers in order. -/
def SortTaskSorts (data : List Int) : Prop :=
  ∃ data', (sortTask data).computeResult = some (.sort TASK_SOLVED data') ∧ SortedPerm data' data

/-- A `MergeTask` ends up with the numbers of both operands in order, and with their number. -/
def MergeTaskSorts (junk : Nat → Int) (data1 data2 : List Int) : Prop :=
  ∃ t, (MergeTask.new data1 data2).computeResult junk = some t ∧
    t.size = data1.length + data2.length ∧ SortedPerm t.data (data1 ++ data2)

/-! ### The loops -/

/-- What the three loops compute, from what is left of the two operands. -/
def mergeLoop : List Int → List Int → List Int
  | [], data2 => data2
  | data1, [] => data1
  | x :: data1, y :: data2 =>
    if x < y then x :: mergeLoop data1 (y :: data2) else y :: mergeLoop (x :: data1) data2

variable {data1 data2 : List Int}

/-- An element that is stored behind what has been filled. -/
theorem store_append (pre : List Int) {post : List Int} (hpost : post ≠ []) (x : Int) :
    store (pre ++ post) pre.length x = some ((pre ++ [x]) ++ post.tail) := by
  obtain ⟨y, tail, rfl⟩ := List.exists_cons_of_ne_nil hpost
  rw [store_eq, List.append_assoc, List.singleton_append, List.tail_cons]

/-- **Copying.**  By induction on what is left of the operand. -/
theorem copyRest_eq (src pre post : List Int) (i : Nat) (h : src.length - i ≤ post.length) :
    copyRest src i pre.length (pre ++ post) = some ((pre ++ src.drop i).length,
      (pre ++ src.drop i) ++ post.drop (src.length - i)) := by
  induction hn : src.length - i generalizing i pre post with
  | zero =>
    rw [copyRest, if_neg (by omega), List.drop_eq_nil_of_le (by omega), List.append_nil,
      List.drop_zero]
  | succ n ih =>
    have hi : i < src.length := by omega
    have hpost : post ≠ [] := List.ne_nil_of_length_pos (by omega)
    have hnext := ih (pre ++ [src[i]]) post.tail (i + 1)
      (by rw [List.length_tail]; omega) (by omega)
    rw [List.length_append, List.length_singleton] at hnext
    rw [copyRest, if_pos hi, List.getElem?_eq_getElem hi, Option.bind_eq_bind, Option.bind_some,
      store_append _ hpost, Option.bind_eq_bind, Option.bind_some, hnext, List.append_assoc,
      List.singleton_append,
      ← List.drop_eq_getElem_cons hi, ← List.drop_one, List.drop_drop, Nat.add_comm 1 n]

/-- **Step.**  The lesser one of the next elements is stored. -/
theorem mergeHeads_step (data1 data2 pre : List Int) {post : List Int} (hpost : post ≠ [])
    {i1 i2 : Nat} (h1 : i1 < data1.length) (h2 : i2 < data2.length) :
    mergeHeads data1 data2 i1 i2 pre.length (pre ++ post) =
      if data1[i1] < data2[i2] then
        mergeHeads data1 data2 (i1 + 1) i2 (pre ++ [data1[i1]]).length
          ((pre ++ [data1[i1]]) ++ post.tail)
      else
        mergeHeads data1 data2 i1 (i2 + 1) (pre ++ [data2[i2]]).length
          ((pre ++ [data2[i2]]) ++ post.tail) := by
  rw [mergeHeads, if_pos ⟨h1, h2⟩, List.getElem?_eq_getElem h1, List.getElem?_eq_getElem h2,
    Option.bind_eq_bind, Option.bind_some, Option.bind_some, store_append _ hpost,
    store_append _ hpost, List.length_append, List.length_append, List.length_singleton]
  rfl

/-- The same step on what is left of the operands. -/
theorem mergeLoop_step {i1 i2 : Nat} (h1 : i1 < data1.length) (h2 : i2 < data2.length) :
    mergeLoop (data1.drop i1) (data2.drop i2) =
      if data1[i1] < data2[i2] then data1[i1] :: mergeLoop (data1.drop (i1 + 1)) (data2.drop i2)
      else data2[i2] :: mergeLoop (data1.drop i1) (data2.drop (i2 + 1)) := by
  rw [List.drop_eq_getElem_cons h1, List.drop_eq_getElem_cons h2, mergeLoop]

/-- **Run.**  By induction on what is left of both operands: what has been filled, followed by the
    merge of what is left, does not change. -/
theorem mergeHeads_eq (data1 data2 pre post : List Int) (i1 i2 : Nat)
    (h : post.length = (data1.length - i1) + (data2.length - i2)) :
    ∃ i1' i2' pre' post', mergeHeads data1 data2 i1 i2 pre.length (pre ++ post) =
        some (i1', i2', pre'.length, pre' ++ post') ∧
      post'.length = (data1.length - i1') + (data2.length - i2') ∧
      (data1.drop i1' = [] ∨ data2.drop i2' = []) ∧
      pre' ++ mergeLoop (data1.drop i1') (data2.drop i2') =
        pre ++ mergeLoop (data1.drop i1) (data2.drop i2) := by
  induction hn : (data1.length - i1) + (data2.length - i2) generalizing i1 i2 pre post with
  | zero =>
    have hend : ¬(i1 < data1.length ∧ i2 < data2.length) := by omega
    refine ⟨i1, i2, pre, post, by rw [mergeHeads, if_neg hend], h, ?_, rfl⟩
    exact .inl (List.drop_eq_nil_of_le (by omega))
  | succ n ih =>
    by_cases hboth : i1 < data1.length ∧ i2 < data2.length
    · obtain ⟨h1, h2⟩ := hboth
      have hpost : post ≠ [] := List.ne_nil_of_length_pos (by omega)
      rw [mergeHeads_step data1 data2 pre hpost h1 h2, mergeLoop_step h1 h2]
      by_cases hlt : data1[i1] < data2[i2]
      · rw [if_pos hlt, if_pos hlt, List.append_cons pre data1[i1] (mergeLoop _ _)]
        exact ih (pre ++ [data1[i1]]) post.tail (i1 + 1) i2 (by rw [List.length_tail]; omega)
          (by omega)
      · rw [if_neg hlt, if_neg hlt, List.append_cons pre data2[i2] (mergeLoop _ _)]
        exact ih (pre ++ [data2[i2]]) post.tail i1 (i2 + 1) (by rw [List.length_tail]; omega)
          (by omega)
    · refine ⟨i1, i2, pre, post, by rw [mergeHeads, if_neg hboth], h, ?_, rfl⟩
      -- One of the operands is used up.
      rcases not_and_or.mp hboth with h1 | h2
      · exact .inl (List.drop_eq_nil_of_le (by omega))
      · exact .inr (List.drop_eq_nil_of_le (by omega))

/-- Nothing is left to merge. -/
theorem mergeLoop_of_nil (h : data1 = [] ∨ data2 = []) :
    mergeLoop data1 data2 = data1 ++ data2 := by
  rcases h with rfl | rfl
  · simp [mergeLoop]
  · cases data1 <;> simp [mergeLoop]

/-- The loop is the merge of the library. -/
theorem mergeLoop_eq_merge (data1 data2 : List Int) :
    mergeLoop data1 data2 = List.merge data1 data2 fun x y => decide (x < y) := by
  fun_induction mergeLoop data1 data2 with
  | case1 data2 => rw [List.nil_merge]
  | case2 data1 => rw [List.merge_right]
  | case3 x data1 y data2 hlt ih =>
    rw [ih, List.cons_merge_cons, if_pos (decide_eq_true hlt)]
  | case4 x data1 y data2 hlt ih =>
    rw [ih, List.cons_merge_cons, if_neg (by simpa using hlt)]

/-- The merge has the numbers of both operands. -/
theorem mergeLoop_perm (data1 data2 : List Int) :
    (mergeLoop data1 data2).Perm (data1 ++ data2) := by
  rw [mergeLoop_eq_merge]
  exact List.merge_perm_append _

/-- The merge of sorted operands is sorted. -/
theorem mergeLoop_sorted (h1 : data1.Pairwise (· ≤ ·)) (h2 : data2.Pairwise (· ≤ ·)) :
    (mergeLoop data1 data2).Pairwise (· ≤ ·) := by
  rw [mergeLoop_eq_merge]
  exact pairwise_merge_lt h1 h2

/-- **The three loops.**  They stay in bounds of an array that has room for both operands, and fill
    it with the merge. -/
theorem mergeArrays_eq {data : List Int} (h : data.length = data1.length + data2.length) :
    mergeArrays data1 data2 data = some (mergeLoop data1 data2) := by
  obtain ⟨i1, i2, pre, post, hmerge, hlength, hend, heq⟩ :=
    mergeHeads_eq data1 data2 [] data 0 0 h
  have hrest1 := copyRest_eq data1 pre post i1 (by omega)
  have hrest2 := copyRest_eq data2 (pre ++ data1.drop i1) (post.drop (data1.length - i1)) i2
    (by rw [List.length_drop]; omega)
  have hfull : (post.drop (data1.length - i1)).drop (data2.length - i2) = [] := by
    rw [List.drop_drop]
    exact List.drop_eq_nil_of_le (by omega)
  rw [List.nil_append, List.length_nil] at hmerge
  rw [List.nil_append, List.drop_zero, List.drop_zero, mergeLoop_of_nil hend, ← List.append_assoc]
    at heq
  rw [hfull, List.append_nil, heq] at hrest2
  simp only [mergeArrays, hmerge, hrest1, hrest2, Option.bind_eq_bind, Option.bind_some]

/-! ### A result that is too small -/

/-- How far a copy gets that stays in bounds. -/
theorem copyRest_eq_some {src data data' : List Int} {i k k' : Nat}
    (h : copyRest src i k data = some (k', data')) :
    data'.length = data.length ∧ k' = k + (src.length - i) ∧
      (k ≤ data.length → k' ≤ data.length) := by
  induction hn : src.length - i generalizing i k data with
  | zero =>
    rw [copyRest, if_neg (by omega), Option.some.injEq, Prod.mk.injEq] at h
    obtain ⟨rfl, rfl⟩ := h
    exact ⟨rfl, rfl, id⟩
  | succ n ih =>
    rw [copyRest, if_pos (by omega)] at h
    obtain ⟨x, -, h⟩ := Option.bind_eq_some_iff.mp h
    obtain ⟨stored, hstore, h⟩ := Option.bind_eq_some_iff.mp h
    obtain ⟨hk, hlength⟩ := store_eq_some hstore
    obtain ⟨hlength', hk', hle⟩ := ih h (by omega)
    omega

/-- How far the first loop gets if it stays in bounds. -/
theorem mergeHeads_eq_some {data data' : List Int} {i1 i2 k i1' i2' k' : Nat}
    (h : mergeHeads data1 data2 i1 i2 k data = some (i1', i2', k', data')) :
    data'.length = data.length ∧
      k' + (data1.length - i1') + (data2.length - i2') =
        k + (data1.length - i1) + (data2.length - i2) ∧
      (k ≤ data.length → k' ≤ data.length) := by
  induction hn : (data1.length - i1) + (data2.length - i2) generalizing i1 i2 k data with
  | zero =>
    rw [mergeHeads, if_neg (by omega)] at h
    cases h
    exact ⟨rfl, rfl, id⟩
  | succ n ih =>
    rw [mergeHeads] at h
    by_cases hboth : i1 < data1.length ∧ i2 < data2.length
    · rw [if_pos hboth] at h
      obtain ⟨x, -, h⟩ := Option.bind_eq_some_iff.mp h
      obtain ⟨y, -, h⟩ := Option.bind_eq_some_iff.mp h
      -- Either way one element is stored.
      split at h
      all_goals
        obtain ⟨stored, hstore, h⟩ := Option.bind_eq_some_iff.mp h
        obtain ⟨hk, hlength⟩ := store_eq_some hstore
        obtain ⟨hlength', hk', hle⟩ := ih h (by omega)
        omega
    · rw [if_neg hboth] at h
      cases h
      exact ⟨rfl, rfl, id⟩

/-- In an array without room for both operands the loops run out of its bounds. -/
theorem mergeArrays_eq_none {data : List Int} (h : data.length < data1.length + data2.length) :
    mergeArrays data1 data2 data = none := by
  rw [Option.eq_none_iff_forall_ne_some]
  intro data' hsome
  obtain ⟨⟨i1, i2, k, filled⟩, hheads, hsome⟩ := Option.bind_eq_some_iff.mp hsome
  obtain ⟨⟨k1, filled1⟩, hrest1, hsome⟩ := Option.bind_eq_some_iff.mp hsome
  obtain ⟨⟨k2, filled2⟩, hrest2, -⟩ := Option.bind_eq_some_iff.mp hsome
  obtain ⟨hlength, hk, hle⟩ := mergeHeads_eq_some hheads
  obtain ⟨hlength1, hk1, hle1⟩ := copyRest_eq_some hrest1
  obtain ⟨hlength2, hk2, hle2⟩ := copyRest_eq_some hrest2
  omega

/-! ### The result of a merge -/

/-- The size of the array that `malloc` gives. -/
theorem length_malloc (junk : Nat → Int) (size : Int) : (malloc junk size).length = size.toNat := by
  rw [malloc, List.length_map, List.length_range]

/-- The size that is stored is the sum as an `int`. -/
theorem computeResult_size {junk : Nat → Int} {t t' : MergeTask}
    (h : t.computeResult junk = some t') :
    t'.size = toInt (t.data1.length + t.data2.length) := by
  rw [MergeTask.computeResult] at h
  split at h
  · rw [← Option.some.inj h]
  · obtain ⟨data, -, h⟩ := Option.bind_eq_some_iff.mp h
    rw [← Option.some.inj h]

/-- The result of a task whose size is an `int`. -/
theorem computeResult_eq (junk : Nat → Int) {t : MergeTask}
    (hsize : t.data1.length + t.data2.length < 2 ^ 31)
    (hpos : 0 < t.data1.length + t.data2.length) :
    t.computeResult junk = some ⟨TASK_SOLVED, t.data1.length + t.data2.length,
      mergeLoop t.data1 t.data2, t.data1, t.data2⟩ := by
  have htoInt : toInt ((t.data1.length : Int) + t.data2.length) = t.data1.length + t.data2.length :=
    toInt_of_isInt ⟨by omega, by omega⟩
  have hmalloc : (malloc junk ((t.data1.length : Int) + t.data2.length)).length =
      t.data1.length + t.data2.length := by
    rw [length_malloc]
    omega
  rw [MergeTask.computeResult, htoInt, if_neg (by omega), mergeArrays_eq hmalloc]
  rfl

/-- What `malloc` leaves in the memory of the result does not matter: all of it is overwritten, or
    it is too small. -/
theorem computeResult_junk (junk junk' : Nat → Int) (t : MergeTask) :
    t.computeResult junk = t.computeResult junk' := by
  rcases Nat.lt_or_ge (t.data1.length + t.data2.length) (2 ^ 31) with hsize | hsize
  · by_cases hpos : 0 < t.data1.length + t.data2.length
    · rw [computeResult_eq junk hsize hpos, computeResult_eq junk' hsize hpos]
    · have hzero : toInt ((t.data1.length : Int) + t.data2.length) = 0 := by
        rw [toInt_eq]
        omega
      simp only [MergeTask.computeResult, hzero, if_pos]
  · have hnone (junk : Nat → Int) : mergeArrays t.data1 t.data2
        (malloc junk (toInt ((t.data1.length : Int) + t.data2.length))) = none := by
      refine mergeArrays_eq_none ?_
      rw [length_malloc, toInt_eq]
      omega
    rw [MergeTask.computeResult, MergeTask.computeResult, hnone, hnone]

/-! ### The result of a task -/

/-- The result of a `SortTask` is its array, sorted. -/
theorem computeResult_sort (solved : Int) (data : List Int) :
    ∃ data', (Task.sort solved data).computeResult = some (.sort TASK_SOLVED data') ∧
      SortedPerm data' data := by
  obtain ⟨data', hsort, hdata'⟩ := insertionSort_spec data
  exact ⟨data', by rw [Task.computeResult, hsort, Option.map_some], hdata'⟩

/-- **The result of a task.**  With fewer than `2 ^ 31` numbers it holds the numbers of the task,
    and it is sorted when the operands of the task are. -/
theorem Task.computeResult_spec (t : Task) (hsize : t.numbers.length < 2 ^ 31) :
    ∃ t', t.computeResult = some t' ∧ t'.getData.Perm t.numbers ∧
      (t.OperandsSorted → t'.getData.Pairwise (· ≤ ·)) := by
  cases t with
  | sort solved data =>
    -- Sorting needs nothing of its operand.
    obtain ⟨data', hres, hdata'⟩ := computeResult_sort solved data
    exact ⟨_, hres, hdata'.perm, fun _ => hdata'.sorted⟩
  | merge solved data data1 data2 =>
    rw [Task.numbers, List.length_append] at hsize
    by_cases hpos : 0 < data1.length + data2.length
    · refine ⟨_, congrArg (Option.map _) (computeResult_eq _ hsize hpos), ?_⟩
      have hdata : (MergeTask.toTask ⟨TASK_SOLVED, data1.length + data2.length,
          mergeLoop data1 data2, data1, data2⟩).getData = mergeLoop data1 data2 := by
        refine List.take_of_length_le ?_
        show _ ≤ ((data1.length : Int) + data2.length).toNat
        rw [(mergeLoop_perm data1 data2).length_eq, List.length_append]
        omega
      rw [hdata]
      exact ⟨mergeLoop_perm data1 data2, fun hsorted => mergeLoop_sorted hsorted.1 hsorted.2⟩
    -- The early return: both operands are empty, and so is the result.
    · obtain rfl := List.length_eq_zero_iff.mp (show data1.length = 0 by omega)
      obtain rfl := List.length_eq_zero_iff.mp (show data2.length = 0 by omega)
      exact ⟨.merge solved [] [] [], rfl, List.Perm.refl _, fun _ => List.Pairwise.nil⟩

/-- The numbers of a result, as they are sent back. -/
theorem Task.result_spec (t : Task) (hsize : t.numbers.length < 2 ^ 31) :
    ∃ data, t.result = some data ∧ data.Perm t.numbers ∧
      (t.OperandsSorted → data.Pairwise (· ≤ ·)) := by
  obtain ⟨t', hres, hdata⟩ := t.computeResult_spec hsize
  exact ⟨t'.getData, by rw [Task.result, hres, Option.map_some], hdata⟩

/-- A result has the numbers of its task, in order when the operands are. -/
theorem perm_of_result {task : Task} {data : List Int} (hresult : task.result = some data)
    (hsize : task.numbers.length < 2 ^ 31) :
    data.Perm task.numbers ∧ (task.OperandsSorted → data.Pairwise (· ≤ ·)) := by
  obtain ⟨data', hres, hspec⟩ := task.result_spec hsize
  obtain rfl : data' = data := Option.some.inj (hres.symm.trans hresult)
  exact hspec

/-- A size is an `int`, so no result of a merge has more numbers. -/
theorem Task.length_lt_of_result {t : Task} {data : List Int} (h : t.result = some data)
    (hsort : ∀ solved operand, t = .sort solved operand → operand.length < 2 ^ 31) :
    data.length < 2 ^ 31 := by
  obtain ⟨t', hres, rfl⟩ := Option.map_eq_some_iff.mp h
  cases t with
  | sort solved operand =>
    obtain ⟨data', hres', hdata'⟩ := computeResult_sort solved operand
    rw [hres', Option.some.injEq] at hres
    rw [← hres]
    show data'.length < 2 ^ 31
    rw [hdata'.perm.length_eq]
    exact hsort solved operand rfl
  | merge solved result data1 data2 =>
    obtain ⟨u, hu, rfl⟩ := Option.map_eq_some_iff.mp hres
    have hsize := computeResult_size hu
    rw [toInt_eq] at hsize
    show (u.data.take u.size.toNat).length < 2 ^ 31
    rw [List.length_take]
    omega

/-- A merge sorts exactly if the sum of the sizes is an `int`. -/
theorem mergeTaskSorts_iff (junk : Nat → Int) (h1 : data1.Pairwise (· ≤ ·))
    (h2 : data2.Pairwise (· ≤ ·)) (hpos : 0 < data1.length + data2.length) :
    MergeTaskSorts junk data1 data2 ↔ data1.length + data2.length < 2 ^ 31 := by
  constructor
  · rintro ⟨t, hresult, hsize, -⟩
    have hint := (computeResult_size hresult).symm.trans hsize
    rw [toInt_eq] at hint
    dsimp only [MergeTask.new] at hint
    omega
  · intro hsize
    exact ⟨_, computeResult_eq junk hsize hpos, rfl, mergeLoop_sorted h1 h2,
      mergeLoop_perm data1 data2⟩

/-- **Tasks sort.**  For all numbers to sort, and all sorted operands of a merge that are not both
    empty, exactly if the operands have fewer than 2^31 numbers together. -/
theorem computeResult_sorted_iff (junk : Nat → Int) (data data1 data2 : List Int)
    (h1 : data1.Pairwise (· ≤ ·)) (h2 : data2.Pairwise (· ≤ ·))
    (hpos : 0 < data1.length + data2.length) :
    (SortTaskSorts data ∧ MergeTaskSorts junk data1 data2) ↔
      data1.length + data2.length < 2 ^ 31 := by
  rw [mergeTaskSorts_iff junk h1 h2 hpos, and_iff_right]
  exact computeResult_sort TASK_NOT_SOLVED data

/-- Five numbers to sort, and a merge with an empty operand. -/
theorem computeResult_sorted_five :
    (SortTaskSorts [3, 1, 2, 3, 0] ∧ MergeTaskSorts (fun _ => 7) [-1, 4, 4] []) ↔
      [(-1 : Int), 4, 4].length + ([] : List Int).length < 2 ^ 31 :=
  computeResult_sorted_iff _ _ _ _ (by decide) (by decide) (by decide)

/-- Two arrays of 2^30 zeros: the sum of their sizes is stored as -2^31. -/
theorem not_computeResult_sorted :
    ¬ ∀ (junk : Nat → Int) (data data1 data2 : List Int), data1.length < 2 ^ 31 →
      data2.length < 2 ^ 31 → data1.Pairwise (· ≤ ·) → data2.Pairwise (· ≤ ·) →
      0 < data1.length + data2.length →
      SortTaskSorts data ∧ MergeTaskSorts junk data1 data2 := by
  intro h
  have hsorted : (List.replicate (2 ^ 30) (0 : Int)).Pairwise (· ≤ ·) :=
    List.pairwise_replicate.mpr (.inr le_rfl)
  have hlength : (List.replicate (2 ^ 30) (0 : Int)).length = 2 ^ 30 := List.length_replicate
  have hsorts := (h (fun _ => 0) [] _ _ (by omega) (by omega) hsorted hsorted (by omega)).2
  rw [mergeTaskSorts_iff _ hsorted hsorted (by omega)] at hsorts
  omega

end WorkAtUPB.FaultTolerantService
